import SRPanel.Model.PanelPlans

/-!
# Reseller packages

A reseller buys a package for the account of its own: the wallet is charged, and then the traffic,
the days and the client slots of the package are added to the account.
-/

namespace SRPanel

open Interleaving

/-- `planOfferedTo`. -/
def planOfferedTo (plan : ResellerPlan) (actor : Actor) : Bool :=
  plan.adminIds.isEmpty || actor.id ∈ plan.adminIds

/-- `planBlockers`: an unlimited account gains nothing from a package. -/
def planBlockers (me : Account) (plan : ResellerPlan) : List String :=
  (if plan.isActive then [] else ["این بسته غیرفعال است"]) ++
  (if me.isActive then [] else ["حساب شما غیرفعال است"]) ++
  (if 0 < plan.gb && me.trafficQuota.isNone then
    ["سهمیهٔ ترافیک حساب شما نامحدود است؛ این بسته چیزی به آن اضافه نمی‌کند"] else []) ++
  (if 0 < plan.days && me.expiresAt.isNone then
    ["اعتبار زمانی حساب شما نامحدود است؛ این بسته چیزی به آن اضافه نمی‌کند"] else []) ++
  (if 0 < plan.clients && me.clientLimit.isNone then
    ["تعداد کلاینت حساب شما نامحدود است؛ این بسته چیزی به آن اضافه نمی‌کند"] else [])

/-- The columns that `buyResellerPlan` writes; a column that is absent is `none`. -/
structure AccountData where
  trafficQuota : Option ℤ
  clientLimit : Option ℕ
  expiresAt : Option ℤ
  deriving DecidableEq

/-- The account with these columns. -/
def AccountData.apply (data : AccountData) (a : Account) : Account :=
  { a with
    trafficQuota := data.trafficQuota.or a.trafficQuota
    clientLimit := data.clientLimit.or a.clientLimit
    expiresAt := data.expiresAt.or a.expiresAt }

/-- The columns that are written. -/
def AccountData.figures (data : AccountData) : Figures :=
  ⟨data.trafficQuota.isSome, data.clientLimit.isSome, data.expiresAt.isSome⟩

/-- The columns that a package changes, from the account as it was read. -/
def grantData (me : Account) (plan : ResellerPlan) (now : ℤ) : AccountData where
  trafficQuota := if 0 < plan.gb then me.trafficQuota.map (· + plan.gb * GB) else none
  clientLimit := if 0 < plan.clients then me.clientLimit.map (· + plan.clients) else none
  expiresAt := if 0 < plan.days then me.expiresAt.map fun e =>
    max now e + plan.days * DAY_MS else none

/-- What the ledger rows of a package refer to. -/
def ResellerPlan.ref (plan : ResellerPlan) : TxRef := .other (some "resellerPlan") (some plan.id)

/-- `ResellerPlanPurchase`. -/
structure ResellerPlanPurchase where
  plan : ResellerPlan
  charged : ℤ
  balance : ℤ
  trafficQuota : Option ℤ
  clientLimit : Option ℕ
  expiresAt : Option ℤ
  deriving DecidableEq

namespace Site

/-- `account`. -/
def account (id : AdminId) : Task Operator := do
  let me ← read fun s => s.operator id
  match me with
  | none => throw (notFoundError "حساب پیدا نشد")
  | some me => pure me

/-- `planFor`. -/
def planFor (actor : Actor) (planId : String) : Task ResellerPlan := do
  let s ← read Site.resellerPlans
  refuseIf (!s.enabled && actor.role ≠ .owner) (badRequest "فروش بستهٔ نمایندگی فعال نیست")
  match s.plans.find? fun p => p.id = planId with
  | none => throw (notFoundError "بسته پیدا نشد")
  | some plan => do
      refuseIf (actor.role ≠ .owner && !planOfferedTo plan actor)
        (forbiddenError "این بسته برای حساب شما ارائه نمی‌شود")
      pure plan

/-- The charge for a package; one without a price has none. -/
def chargePlan (actor : Actor) (target : Actor) (plan : ResellerPlan) :
    Task (Option (WalletTx AdminId)) :=
  if 0 < plan.price then
    lift (chargeWallet target (-plan.price) .purchase plan.ref (some actor.id) false)
  else pure none

/-- The charge is put back before a failed purchase fails; never throws. -/
def refundPlan (actor : Actor) (target : Actor) (plan : ResellerPlan)
    (tx : Option (WalletTx AdminId)) : Task Unit :=
  if tx.isSome then
    Prog.void (lift (chargeWallet target plan.price .refund plan.ref (some actor.id) true))
  else pure ()

/-- The grant of a package, from the account as it was read. -/
def grantPlan (actor : Actor) (me : Operator) (plan : ResellerPlan)
    (tx : Option (WalletTx AdminId)) (now : ℤ) : Task (Account × ℤ) :=
  let data := grantData me.account plan now
  Prog.attempt (updateAccount me data.figures data.apply none) fun err => do
    refundPlan actor me.actor plan tx
    throw err

/-- `buyResellerPlan`. -/
def buyResellerPlan (actor : Actor) (planId : String) : Task ResellerPlanPurchase := do
  refuseIf (actor.role = .owner) (forbiddenError "مالک پنل به بستهٔ نمایندگی نیاز ندارد")
  let plan ← planFor actor planId
  let me ← account actor.id
  match planBlockers me.account plan with
  | blocker :: _ => throw (badRequest blocker)
  | [] => do
      let tx ← chargePlan actor me.actor plan
      let t ← now
      let updated ← grantPlan actor me plan tx t
      lift (audit (some actor.id) "resellerPlan.buy")
      lift (notify "wallet.reseller_plan")
      pure ⟨plan, plan.price, updated.2, updated.1.trafficQuota, updated.1.clientLimit,
        updated.1.expiresAt⟩

end Site

end SRPanel
