import SRPanel.Model.Clients

/-!
# Automatic renewals

A rule resets the traffic of a client every few days and, if it says so, moves the expiry forward by
one cycle. A panel that refuses counts as failed, but the cycle still moves on.
-/

namespace SRPanel

open Interleaving

/-- `AutoRenewInput`; `startAt` is the date that it names, if it names one. -/
structure AutoRenewInput where
  everyDays : ℕ
  maxCycles : Option ℕ
  extendExpiry : Option Bool
  startAt : Option ℤ

/-- `AutoRenewTick`. -/
structure AutoRenewTick where
  reset : ℕ
  finished : ℕ
  failed : ℕ
  deriving DecidableEq

/-- The counters of two ticks together. -/
def AutoRenewTick.add (a b : AutoRenewTick) : AutoRenewTick :=
  ⟨a.reset + b.reset, a.finished + b.finished, a.failed + b.failed⟩

/-- `clampDays`. -/
def clampDays (n : ℕ) : ℕ := min 365 (max 1 n)

namespace Site

/-- `setAutoRenew`. -/
def setAutoRenew (actor : Operator) (id : ClientId) (input : AutoRenewInput) :
    Task AutoRenewRule := do
  let client ← getClientForActor actor.actor id
  let prev ← read fun s => s.autoRenews.get? client.id
  let t ← now
  let nextAt := input.startAt.getD (t + clampDays input.everyDays * DAY_MS)
  refuseIf (nextAt < t - DAY_MS) (badRequest "تاریخ شروع نمی‌تواند در گذشته باشد")
  let rule : AutoRenewRule :=
    { everyDays := clampDays input.everyDays
      maxCycles := (input.maxCycles.or (prev.map AutoRenewRule.maxCycles)).getD 0
      cycles := (prev.map AutoRenewRule.cycles).getD 0
      extendExpiry := (input.extendExpiry.or (prev.map AutoRenewRule.extendExpiry)).getD true
      nextAt := nextAt
      lastAt := prev.bind AutoRenewRule.lastAt }
  write fun s => { s with autoRenews := s.autoRenews.set client.id rule }
  lift (audit (some actor.id) "client.auto_renew.set")
  pure rule

/-- `prisma.setting.deleteMany` for the rule of a client. -/
def dropRule (id : ClientId) : Task Unit :=
  write fun s => { s with autoRenews := s.autoRenews.erase id }

/-- The reset of a cycle; the result is whether it failed. -/
def resetOfCycle (admin : Operator) (id : ClientId) : Task Bool :=
  Prog.attempt (do
    let errors ← resetClientTraffic admin.actor id
    pure !errors.isEmpty) fun _ => pure true

/-- The expiry that a cycle writes. -/
def cycleExpiry (expiresAt : Option ℤ) (everyDays : ℕ) (now : ℤ) : ℤ :=
  max (expiresAt.getD now) now + everyDays * DAY_MS

/-- The extension of a cycle; the result is whether the push failed. -/
def extendOfCycle (admin : Operator) (id : ClientId) (expiry : ℤ) : Task Bool := do
  updateRow id (fun c => { c with expiresAt := some expiry }) none
  Prog.attempt (do
    let client ← getClientForActor admin.actor id
    let _ ← pushClient client
    pure false) fun _ => pure true

/-- The end of a cycle: the rule is dropped after its last one; the result is whether it was the
last. -/
def endCycle (id : ClientId) (rule : AutoRenewRule) (now : ℤ) : Task Bool :=
  if 0 < rule.maxCycles && rule.maxCycles ≤ rule.cycles + 1 then do
    dropRule id
    pure true
  else do
    write fun s => { s with autoRenews := s.autoRenews.set id { rule with
      cycles := rule.cycles + 1
      lastAt := some now
      nextAt := now + rule.everyDays * DAY_MS } }
    pure false

/-- One cycle of a rule that is due. -/
def runCycle (now : ℤ) (id : ClientId) (rule : AutoRenewRule) (client : Client) (admin : Operator) :
    Task AutoRenewTick := do
  let resetFailed ← resetOfCycle admin id
  let pushFailed ← (if rule.extendExpiry then
      extendOfCycle admin id (cycleExpiry client.expiresAt rule.everyDays now)
    else pure false)
  lift (audit (some admin.id) "client.auto_renew")
  let last ← endCycle id rule now
  pure ⟨1, last.toNat, resetFailed.toNat + pushFailed.toNat⟩

/-- One rule of `runAutoRenew`; a rule without its client or its admin is dropped. -/
def runRule (now : ℤ) (id : ClientId) (rule : AutoRenewRule) : Task AutoRenewTick := do
  let client ← read fun s => s.clients.get? id
  match client with
  | none => do
      dropRule id
      pure ⟨0, 0, 0⟩
  | some client =>
      if now < rule.nextAt then pure ⟨0, 0, 0⟩
      else do
        let admin ← read fun s => s.operator client.adminId
        match admin with
        | none => do
            dropRule id
            pure ⟨0, 0, 0⟩
        | some admin => runCycle now id rule client admin

/-- Rules one after the other. -/
def runRules (now : ℤ) : List (ClientId × AutoRenewRule) → Task AutoRenewTick
  | [] => pure ⟨0, 0, 0⟩
  | row :: rows => do
      let tick ← runRule now row.1 row.2
      let rest ← runRules now rows
      pure (tick.add rest)

/-- `runAutoRenew`. -/
def runAutoRenew (limit : ℕ) : Task AutoRenewTick := do
  let rows ← read fun s => s.autoRenews.rows.take (max 1 limit)
  let t ← now
  runRules t rows

end Site

end SRPanel
