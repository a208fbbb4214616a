import SRPanel.Model.Refunds

/-!
# Bulk actions

`runClientBulk` applies one of the single operations to every client of a selection: one that fails
does not stop the others. `bulkAdminAction` does the same to reseller accounts.
-/

namespace SRPanel

open Interleaving

/-! ## Clients -/

/-- `ClientBulkAction`. -/
inductive ClientBulkAction
  | enable
  | disable
  | addDays
  | addGb
  | resetTraffic
  | repush
  | delete
  deriving DecidableEq

/-- `ClientBulkFilter`. -/
structure ClientBulkFilter where
  q : Option String
  status : Option ClientStatus
  /-- at least one config failed its last push -/
  broken : Bool
  /-- no config on any panel -/
  orphan : Bool
  /-- expired at least this many days ago -/
  expiredBeforeDays : Option ℕ

/-- `ClientBulkInput`. -/
structure ClientBulkInput where
  action : ClientBulkAction
  ids : List ClientId
  filter : Option ClientBulkFilter
  days : ℤ
  gb : ℤ

/-- `CLIENT_BULK_MAX`. -/
def CLIENT_BULK_MAX : ℕ := 60

/-- What a bulk action did to one client: the messages of the panels and the refund, or nothing on
purpose. -/
inductive BulkOutcome
  | done (errors : List String) (refund : ℤ)
  | skipped

/-- `ClientBulkResult`, less the names that its messages carry. -/
structure ClientBulkResult where
  requested : ℕ
  done : ℕ
  skipped : ℕ
  failed : ℕ
  refund : ℤ
  warnings : List String
  errors : List (ClientId × String)
  deriving DecidableEq

/-- The result with one more client done or skipped. -/
def ClientBulkResult.count (r : ClientBulkResult) (name : String) : BulkOutcome → ClientBulkResult
  | .done errors refund =>
      { r with
        done := r.done + 1
        refund := r.refund + refund
        warnings := r.warnings ++ (errors.take 2).map fun message => name ++ ": " ++ message }
  | .skipped => { r with skipped := r.skipped + 1 }

/-- The result with one more client failed. -/
def ClientBulkResult.fail (r : ClientBulkResult) (id : ClientId) (err : AppError) :
    ClientBulkResult :=
  { r with failed := r.failed + 1, errors := r.errors ++ [(id, sliceTo 200 err.message)] }

/-- `contains` with `mode: "insensitive"`. -/
def containsText (q : String) (s : Option String) : Bool :=
  s.any fun s => includes (lower s) (lower q)

namespace Site

/-- The clients that a filter of `bulkWhere` matches. -/
def bulkWhere (s : Site) (actor : Actor) (filter : ClientBulkFilter)
    (r : ClientId × Client) : Bool :=
  inScope actor r.2 && filter.status.all (· = r.2.status) &&
    filter.q.all (fun q => containsText q (some r.2.name) || containsText q r.2.tag ||
      containsText q r.2.note) &&
    (if filter.orphan then (s.linksOf r.1).isEmpty
      else !filter.broken || (s.linksOf r.1).any fun l => l.2.lastError.isSome) &&
    filter.expiredBeforeDays.all fun d => r.2.expiresAt.any fun e => e < s.base.now - d * DAY_MS

/-- `resolveBulkClients`; ids grow with the creation date. -/
def resolveBulkClients (actor : Operator) (input : ClientBulkInput) :
    Task (List (ClientId × Client)) :=
  if !input.ids.isEmpty then
    read fun s => (s.clients.rows.filter fun r => r.1 ∈ input.ids && inScope actor.actor r.2).take
      CLIENT_BULK_MAX
  else
    match input.filter with
    | none => pure []
    | some filter => read fun s =>
        ((s.clients.rows.filter (s.bulkWhere actor.actor filter)).insertionSort fun a b =>
          a.1 ≤ b.1).take CLIENT_BULK_MAX

/-- The action `addGb`: an unlimited client keeps its quota. -/
def bulkAddGb (actor : Operator) (id : ClientId) (gb : ℤ) : Task BulkOutcome := do
  let client ← getClientForActor actor.actor id
  if client.row.trafficLimit ≤ 0 then pure .skipped
  else do
    let trafficGB := max 1 (bytesToGb client.row.trafficLimit + gb)
    assertClientKind actor.actor .limited none trafficGB (some client.id)
    let updated ← updateClient actor id { UpdateClientInput.none
        with trafficGB := some trafficGB } none
    pure (.done updated.2 0)

/-- The action on one client. -/
def bulkOne (actor : Operator) (input : ClientBulkInput) (id : ClientId) : Task BulkOutcome :=
  match input.action with
  | .enable => do
      let updated ← updateClient actor id { UpdateClientInput.none with enabled := some true } none
      pure (.done updated.2 0)
  | .disable => do
      let updated ← updateClient actor id { UpdateClientInput.none with enabled := some false } none
      pure (.done updated.2 0)
  | .addDays => do
      let updated ← updateClient actor id { UpdateClientInput.none
          with addDays := some input.days } none
      pure (.done updated.2 0)
  | .addGb => bulkAddGb actor id input.gb
  | .resetTraffic => do
      let errors ← resetClientTraffic actor.actor id
      pure (.done errors 0)
  | .repush => do
      let client ← getClientForActor actor.actor id
      let errors ← pushClient client
      pure (.done errors 0)
  | .delete => do
      let deleted ← deleteClientWithRefund actor id
      pure (.done deleted.errors deleted.refund)

/-- The clients one after the other. -/
def bulkAll (actor : Operator) (input : ClientBulkInput) :
    List (ClientId × Client) → ClientBulkResult → Task ClientBulkResult
  | [], r => pure r
  | target :: rest, r => do
      let r' ← Prog.attempt (do
        let outcome ← bulkOne actor input target.1
        pure (r.count target.2.name outcome)) fun err => pure (r.fail target.1 err)
      bulkAll actor input rest r'

/-- `runClientBulk`; adding nothing changes nothing. -/
def runClientBulk (actor : Operator) (input : ClientBulkInput) : Task ClientBulkResult := do
  let targets ← resolveBulkClients actor input
  let start : ClientBulkResult := ⟨targets.length, 0, 0, 0, 0, [], []⟩
  if targets.isEmpty then pure start
  else if (input.action = .addDays && input.days = 0) ||
    (input.action = .addGb && input.gb = 0) then
    pure { start with skipped := targets.length }
  else do
    let r ← bulkAll actor input targets start
    lift (audit (some actor.id) "client.bulk")
    pure { r with warnings := r.warnings.take 12 }

end Site

/-! ## Admins -/

/-- `AdminInput` of an update; a field that is absent is `none`. -/
structure AdminPatch where
  displayName : Option (Option String)
  telegramId : Option (Option String)
  /-- the password typed, if one is -/
  password : Option String
  isActive : Option Bool
  trafficQuotaGB : Option (Option ℚ)
  clientLimit : Option (Option ℕ)
  expiresAt : Option (Option ℤ)
  serverAccess : Option (List (ServerId × List ℕ))

/-- A patch that changes nothing. -/
def AdminPatch.none : AdminPatch := ⟨.none, .none, .none, .none, .none, .none, .none, .none⟩

/-- The account after an update, given the hash of a new password. -/
def AdminPatch.apply (p : AdminPatch) (role : AdminRole) (hash : Draw) (a : Account) : Account :=
  let a := { a with
    displayName := (p.displayName.map trimmed).getD a.displayName
    telegramId := (p.telegramId.map trimmed).getD a.telegramId
    passwordHash := if p.password.any (· ≠ "") then hash else a.passwordHash }
  if role = .owner then a
  else { a with
    isActive := p.isActive.getD a.isActive
    trafficQuota := (p.trafficQuotaGB.map fun q => q.map gbToBytes).getD a.trafficQuota
    clientLimit := p.clientLimit.getD a.clientLimit
    expiresAt := p.expiresAt.getD a.expiresAt
    serverAccess := p.serverAccess.getD a.serverAccess }

/-- `AdminBulkAction` with its figure. -/
inductive AdminBulkAction
  | activate
  | deactivate
  | extend (days : ℤ)
  | quota (gb : Option ℚ)
  | clientLimit (limit : Option ℕ)

/-- `AdminBulkResult`, with the ids of the admins that were changed. -/
structure AdminBulkResult where
  total : ℕ
  updated : List AdminId
  skipped : List (AdminId × String)
  deriving DecidableEq

namespace Site

/-- `assertOwner`. -/
def assertOwner (actor : Operator) : Task Unit :=
  refuseIf (actor.role ≠ .owner) (forbiddenError "فقط مالک پنل مجاز است")

/-- `prisma.admin.update`. -/
def updateAdminRow (id : AdminId) (f : Account → Account) : Task Unit :=
  .step .other fun s =>
    match s.operator id with
    | none => (.error recordNotFound, s)
    | some _ => (.ok (), { s with accounts := s.accounts.modify id f })

/-- `updateAdmin`. -/
def updateAdmin (actor : Operator) (id : AdminId) (input : AdminPatch) : Task Unit := do
  assertOwner actor
  let target ← read fun s => s.operator id
  match target with
  | none => throw (notFoundError "ادمین پیدا نشد")
  | some target => do
      refuseIf (input.password.any fun p => p ≠ "" ∧ textLength p < 8)
        (badRequest "رمز عبور حداقل ۸ کاراکتر باشد")
      let hash ← (if input.password.any (· ≠ "") then draw else pure 0)
      updateAdminRow id (input.apply target.role hash)
      lift (audit (some actor.id) "admin.update")

/-- The patch of a bulk action on an admin. -/
def bulkPatch (action : AdminBulkAction) (expiresAt : Option ℤ) (now : ℤ) : AdminPatch :=
  match action with
  | .activate => { AdminPatch.none with isActive := some true }
  | .deactivate => { AdminPatch.none with isActive := some false }
  | .extend days => { AdminPatch.none with
      expiresAt := some (some (max (expiresAt.getD now) now + days * DAY_MS)) }
  | .quota gb => { AdminPatch.none with trafficQuotaGB := some gb }
  | .clientLimit limit => { AdminPatch.none with clientLimit := some limit }

/-- The bulk action on one admin; the result is why it was skipped, if it was. -/
def bulkAdmin (actor : Operator) (action : AdminBulkAction) (target : Option Operator)
    (id : AdminId) : Task (Option String) :=
  match target with
  | none => pure (some "not_found")
  | some target =>
      if target.role = .owner then pure (some "owner")
      else Prog.attempt (do
        let t ← now
        updateAdmin actor id (bulkPatch action target.account.expiresAt t)
        pure none) fun err => pure (some err.message)

/-- The admins one after the other. -/
def bulkAdmins (actor : Operator) (action : AdminBulkAction) :
    List (AdminId × Option Operator) → Task (List (AdminId × Option String))
  | [] => pure []
  | target :: rest => do
      let skipped ← bulkAdmin actor action target.2 target.1
      let others ← bulkAdmins actor action rest
      pure ((target.1, skipped) :: others)

/-- The days of an extension are in range. -/
def validDays : AdminBulkAction → Bool
  | .extend days => days ≠ 0 && -3650 ≤ days && days ≤ 3650
  | _ => true

/-- `bulkAdminAction`; the rows of the admins are read first. -/
def bulkAdminAction (actor : Operator) (list : List AdminId) (action : AdminBulkAction) :
    Task AdminBulkResult := do
  assertOwner actor
  let ids := list.dedup
  refuseIf ids.isEmpty (badRequest "هیچ ادمینی انتخاب نشده است")
  refuseIf (100 < ids.length) (badRequest "حداکثر ۱۰۰ ادمین در هر عملیات")
  refuseIf (!validDays action) (badRequest "تعداد روز معتبر نیست")
  let targets ← read fun s => ids.map fun id => (id, s.operator id)
  let outcomes ← bulkAdmins actor action targets
  lift (audit (some actor.id) "admin.bulk")
  pure ⟨ids.length, (outcomes.filter fun o => o.2.isNone).map Prod.fst,
    outcomes.filterMap fun o => o.2.map fun reason => (o.1, reason)⟩

end Site

end SRPanel
