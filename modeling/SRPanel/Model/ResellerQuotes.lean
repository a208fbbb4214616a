import SRPanel.Model.Quotes
import SRPanel.Model.ResellerPlans

/-!
# Quotes of reseller packages

The receipt that `quoteResellerPlan` shows before a purchase, and the purchase itself on columns of
their real size: the database refuses a figure that does not fit its column, which the catalogue and
the receipt do not look at.
-/

namespace SRPanel

open Interleaving

/-- `ResellerPlanQuote`. -/
structure ResellerPlanQuote where
  plan : ResellerPlan
  price : ℤ
  balance : ℤ
  after : ℤ
  creditLimit : ℤ
  affordable : Bool
  blockers : List String
  deriving DecidableEq

/-- The new figures fit their columns: `BigInt` of 64 bits, `Int` of 32 bits, and the last time of a
date. -/
def AccountData.fits (data : AccountData) : Bool :=
  data.trafficQuota.all (fun n => n < 9223372036854775808) &&
    data.clientLimit.all (fun n => n < 2147483648) && data.expiresAt.all fun t =>
      t ≤ 8640000000000000

/-- The new credit and the ledger row of a charge fit their columns. -/
def chargeFits (credit : ℤ) (price : ℕ) : Bool :=
  price ≤ 9223372036854775808 && -9223372036854775808 ≤ credit - price

/-- What the database says to a value that does not fit. -/
def outOfRange : AppError := ⟨"Value out of range for the type", 500, "P2020"⟩

namespace Site

/-- `quoteResellerPlan`. -/
def quoteResellerPlan (actor : Actor) (planId : String) : Task ResellerPlanQuote := do
  let plan ← planFor actor planId
  let me ← account actor.id
  let credit ← read fun s => s.creditOf actor.id
  let limit ← lift (Db.read World.creditLimit)
  let after := credit - plan.price
  let affordable : Bool := (plan.price : ℤ) ≤ 0 || -(limit : ℤ) ≤ after
  let blockers :=
    if me.role = .owner then ["مالک پنل محدودیت حجم یا زمان ندارد"] else planBlockers me.account plan
  let shortage := if me.role ≠ .owner && !affordable then
    ["موجودی کیف پول کافی نیست (کمبود " ++ fmt (-(after + limit)) ++ " تومان)"] else []
  pure ⟨plan, plan.price, credit, after, limit, affordable, blockers ++ shortage⟩

/-- The charge for a package. A row that does not fit is refused after the check of the credit
limit. -/
def chargeColumns (actor : Actor) (target : Actor) (plan : ResellerPlan) :
    Task (Option (WalletTx AdminId)) := do
  let credit ← read fun s => s.creditOf target.id
  let limit ← lift (Db.read World.creditLimit)
  refuseIf (0 < plan.price && -(limit : ℤ) ≤ credit - plan.price &&
    !chargeFits credit plan.price) outOfRange
  chargePlan actor target plan

/-- The grant of a package, with the charge put back when a figure does not fit. -/
def grantColumns (actor : Actor) (me : Operator) (plan : ResellerPlan)
    (tx : Option (WalletTx AdminId)) (now : ℤ) : Task (Account × ℤ) :=
  let data := grantData me.account plan now
  Prog.attempt (do
    refuseIf (!data.fits) outOfRange
    updateAccount me data.figures data.apply none) fun err => do
    refundPlan actor me.actor plan tx
    throw err

/-- `buyResellerPlan`, on the columns of the database. -/
def buyResellerPlanColumns (actor : Actor) (planId : String) : Task ResellerPlanPurchase := do
  refuseIf (actor.role = .owner) (forbiddenError "مالک پنل به بستهٔ نمایندگی نیاز ندارد")
  let plan ← planFor actor planId
  let me ← account actor.id
  match planBlockers me.account plan with
  | blocker :: _ => throw (badRequest blocker)
  | [] => do
      let tx ← chargeColumns actor me.actor plan
      let t ← now
      let updated ← grantColumns actor me plan tx t
      lift (audit (some actor.id) "resellerPlan.buy")
      lift (notify "wallet.reseller_plan")
      pure ⟨plan, plan.price, updated.2, updated.1.trafficQuota, updated.1.clientLimit,
        updated.1.expiresAt⟩

end Site

end SRPanel
