import SRPanel.Model.Orders
import SRPanel.Model.Topups

/-!
# Amounts of card invoices

Deposits are matched by amount. `uniqueCardAmount` moves the amount of an order that is paid by card
to the first of some offsets that no open card payment of the seller is near to. A top-up of a
customer wallet goes to `beginPayment` with the amount that the customer asks for.
-/

namespace SRPanel

open Interleaving

/-- `CARD_VERIFY_MODES`. -/
inductive CardVerifyMode
  | manual
  | sms
  | bank
  deriving DecidableEq

/-- What `uniqueCardAmount` reads of the card settings of a seller. -/
structure CardAmounts where
  mode : CardVerifyMode
  uniqueAmount : Bool
  windowMin : ℕ
  toleranceIrt : ℕ
  deriving DecidableEq

namespace CardAmounts

/-- `Math.abs(t - candidate) <= s.toleranceIrt`. -/
def near (s : CardAmounts) (t candidate : ℤ) : Bool := (t - candidate).natAbs ≤ s.toleranceIrt

/-- The start of the window. -/
def since (s : CardAmounts) (now : Time) : Time := now - max 5 s.windowMin * 60000

/-- The values of `i` in the loop: `0`, `step`, `2 * step` up to `999`. -/
def offsets (s : CardAmounts) : List ℤ :=
  (List.range (999 / max 1 (s.toleranceIrt + 1) + 1)).map fun k =>
    (k * max 1 (s.toleranceIrt + 1) : ℕ)

/-- The loop: the first candidate that no amount is near to, else the base. -/
def firstFree (s : CardAmounts) (taken : List ℤ) (base : ℤ) : List ℤ → ℤ
  | [] => base
  | i :: rest =>
      if taken.any fun t => s.near t (base + i) then s.firstFree taken base rest
      else base + i

end CardAmounts

/-- The amounts of open card payments that `uniqueCardAmount` reads; `take` without an order keeps
the rows that come first in the table. -/
def takenAmounts (w : World) (box : AdminId) (since : Time) : List ℤ :=
  ((w.payments.rows.filter fun r => r.2.adminId = box && r.2.method = .card &&
      (r.2.status = .pending || r.2.status = .review) && since ≤ r.2.createdAt).take 500).map
    fun r => r.2.amount

/-- `uniqueCardAmount`, with the settings that it reads; amounts are whole toman. -/
def uniqueCardAmount (s : CardAmounts) (box : AdminId) (base : ℤ) : Service ℤ :=
  if base ≤ 0 then pure base
  else if !s.uniqueAmount || s.mode = .manual then pure base
  else do
    let now ← clock
    let taken ← Db.read fun w => takenAmounts w box (s.since now)
    if taken = [] then pure base
    else pure (s.firstFree taken base s.offsets)

/-- The amount that `createOrder` charges for an order of the given amount. -/
def invoiceAmount (s : CardAmounts) (input : NewOrder) : Service ℤ :=
  if input.method = .card && 0 < input.amount then do
    let unique ← uniqueCardAmount s input.adminId input.amount
    pure (if input.amount < unique then unique else input.amount)
  else pure input.amount

/-- `createOrder`, from the amount of the plan less the discount on. -/
def createCardOrder (x : Proc) (shop : StoreSettings) (s : CardAmounts) (input : NewOrder) :
    Service OrderId := do
  let amount ← invoiceAmount s input
  createOrder x shop { input with amount := amount }

end SRPanel
