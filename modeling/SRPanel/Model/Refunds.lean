import SRPanel.Model.Clients

/-!
# Deletion and refunds

`deleteClient` takes a client off its panels and removes its row, whatever the panels answer.
`deleteClientWithRefund` gives the unused part of the purchase back to the reseller's wallet.
-/

namespace SRPanel

open Interleaving

/-- `GIB` as the divisor of `quoteRefund`. -/
def GIB : ℤ := 1073741824

/-- `RefundQuote`. -/
structure RefundQuote where
  clientId : ClientId
  adminId : AdminId
  /-- what has been charged for this client so far -/
  charged : ℤ
  /-- what has been given back already -/
  refunded : ℤ
  unusedGB : ℤ
  remainingDays : ℤ
  perGB : ℤ
  perDay : ℤ
  percent : ℕ
  /-- the value of the unused part before the percentage and the cap -/
  gross : ℤ
  /-- what would be credited right now -/
  amount : ℤ
  /-- why nothing would be refunded -/
  reason : Option String
  deriving DecidableEq

/-- `DeleteWithRefund`. -/
structure DeleteWithRefund where
  errors : List String
  refund : ℤ
  quote : Option RefundQuote
  deriving DecidableEq

/-- The whole GiB that a client has left. -/
def unusedGB (c : Client) : ℤ :=
  let used := c.usedUp + c.usedDown
  (if 0 < c.trafficLimit ∧ used < c.trafficLimit then c.trafficLimit - used else 0).tdiv GIB

/-- The days that a client has left: to its expiry, or those of a period that has not started. -/
def remainingDays (c : Client) (pending : Option ℕ) (now : ℤ) : ℤ :=
  match c.expiresAt with
  | some expiry => max 0 ⌈((expiry - now : ℤ) : ℚ) / DAY_MS⌉
  | none => (pending.getD 0 : ℕ)

/-- The sum of the purchases of a list of ledger rows. -/
def purchases (txs : List (WalletTx AdminId)) : ℤ :=
  ((txs.filter fun t => t.kind = .purchase).map fun t => -t.amount).sum

/-- The sum of the refunds of a list of ledger rows. -/
def refunds (txs : List (WalletTx AdminId)) : ℤ :=
  ((txs.filter fun t => t.kind = .refund).map WalletTx.amount).sum

/-- What `quoteRefund` reads about a client: the row, and the role and the prices of its admin. -/
structure RefundSubject where
  client : Client
  role : AdminRole
  account : Account

/-- The amount of a refund quote and the reason for nothing. -/
def refundAmount (settings : RefundSettings) (role : AdminRole) (enabled : Bool) (cap gross : ℤ) :
    ℤ × Option String :=
  let amount := min ((gross * settings.refundPercent).tdiv 100) cap
  if role = .owner then (0, some "کلاینت‌های مالک هزینه‌ای ندارند")
  else if !settings.refundEnabled then (0, some "بازگشت وجه توسط مالک غیرفعال شده است")
  else if !enabled then (0, some "صورتحساب غیرفعال است")
  else if cap ≤ 0 then (0, some "برای این کلاینت مبلغی کسر نشده است")
  else if amount ≤ 0 then (0, some "چیزی برای بازگشت باقی نمانده است")
  else if amount < settings.refundMin then (0, some "مبلغ از حداقل بازگشت وجه کمتر است")
  else (amount, none)

namespace Site

/-- A client with the role and the account of its admin. -/
def refundSubject (s : Site) (id : ClientId) : Option RefundSubject := do
  let c ← s.clients.get? id
  let admin ← s.operator c.adminId
  some ⟨c, admin.role, admin.account⟩

/-- The ledger rows of an admin that refer to a client. -/
def clientTxs (s : Site) (adminId : AdminId) (id : ClientId) : List (WalletTx AdminId) :=
  s.base.walletTxs.filter fun t => t.holder = adminId && t.ref = .client id

/-- The start of a client that has no expiry. -/
def pendingOf (c : Client) (id : ClientId) : Task (Option ℕ) :=
  if c.expiresAt.isSome then pure none else read fun s => s.pendingStarts.get? id

/-- `quoteRefund`. -/
def quoteRefund (id : ClientId) : Task RefundQuote := do
  let found ← read fun s => s.refundSubject id
  match found with
  | none => throw (notFoundError "کلاینت پیدا نشد")
  | some subject => do
      let settings ← read Site.refund
      let unit ← read fun s => unitPrices s.pricing subject.account
      let txs ← read fun s => s.clientTxs subject.client.adminId id
      let pending ← pendingOf subject.client id
      let t ← now
      let days := remainingDays subject.client pending t
      let gross := unusedGB subject.client * unit.perGB + days * unit.perDay
      let result := refundAmount settings subject.role unit.enabled
        (purchases txs - refunds txs) gross
      pure ⟨id, subject.client.adminId, purchases txs, refunds txs, unusedGB subject.client, days,
        unit.perGB, unit.perDay, settings.refundPercent, gross, result.1, result.2⟩

/-! ## Deletion -/

/-- `/not found|پیدا نشد/i.test(message)`. -/
def saysNotFound (message : String) : Bool :=
  includes (lower message) "not found" || includes message "پیدا نشد"

/-- Take one link group off its panel, and return the error if that fails. -/
def deleteGroup (client : Client) (server : Server) (group : LinkGroup) : Task (Option String) :=
  Prog.attempt (do
    deleteOnPanel group client.uuid
    pure none) fun err =>
    pure (if saysNotFound err.message then none else some (server.name ++ ": " ++ err.message))

/-- Take link groups off their panels one after the other; a group whose server is gone is skipped.
-/
def deleteGroups (client : Client) (servers : List (ServerId × Server)) :
    List LinkGroup → Task (List String)
  | [] => pure []
  | group :: rest => do
      let error ← (match servers.find? fun s => s.1 = group.serverId with
        | none => pure none
        | some server => deleteGroup client server.2 group)
      let errors ← deleteGroups client servers rest
      pure (error.toList ++ errors)

/-- `prisma.client.delete`, which deletes the links too. -/
def deleteRow (id : ClientId) : Task Unit :=
  .step .other fun s =>
    match s.clients.get? id with
    | none => (.error recordNotFound, s)
    | some _ => (.ok (), { s with
        clients := s.clients.erase id
        links := s.links.keep fun k => k.clientId ≠ id })

/-- `clearPendingStart`. -/
def clearPendingStart (id : ClientId) : Task Unit :=
  write fun s => { s with pendingStarts := s.pendingStarts.erase id }

/-- `deleteClient`. -/
def deleteClient (actor : Operator) (id : ClientId) : Task (List String) := do
  let client ← getClientForActor actor.actor id
  let servers ← serversOf client.links
  let errors ← deleteGroups client.row servers (groupLinks client.links)
  deleteRow client.id
  clearPendingStart client.id
  lift (audit (some actor.id) "client.delete")
  pure errors

/-- The credit of a refund, which never fails the deletion. -/
def payRefund (actor : Operator) (id : ClientId) (errors : List String) (quote : RefundQuote) :
    Task DeleteWithRefund :=
  Prog.attempt (do
    let _ ← lift (chargeWallet ⟨quote.adminId, .admin⟩ quote.amount .refund (.client id)
        (some actor.id) true)
    lift (audit (some actor.id) "client.refund")
    lift (notify "wallet.refund")
    pure ⟨errors, quote.amount, some quote⟩) fun _ => pure ⟨errors, 0, some quote⟩

/-- `deleteClientWithRefund`: the quote is taken before the row disappears. -/
def deleteClientWithRefund (actor : Operator) (id : ClientId) : Task DeleteWithRefund := do
  let quote ← Prog.attempt (do
    let quote ← quoteRefund id
    pure (some quote)) fun _ => pure none
  let errors ← deleteClient actor id
  Prog.attempt (clearPendingStart id) fun _ => pure ()
  match quote with
  | none => pure ⟨errors, 0, none⟩
  | some quote =>
      if quote.amount ≤ 0 then pure ⟨errors, 0, some quote⟩ else payRefund actor id errors quote

end Site

end SRPanel
