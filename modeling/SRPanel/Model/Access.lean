import SRPanel.Model.Site
import SRPanel.Model.Wallet
import Mathlib.Data.Rat.Floor
import Mathlib.Tactic.Linarith
import Mathlib.Tactic.Positivity

/-!
# What a seller may sell

The guards of the client operations: who may see a client, the kinds of clients that a reseller may
create, the limits of a reseller account, and the price of provisioning. Each guard reads rows in
the order of the source and throws the first refusal.
-/

namespace SRPanel

open Interleaving

/-- `GB`: the bytes of a gigabyte. -/
def GB : ℕ := 1024 ^ 3

/-- `DAY_MS`. -/
def DAY_MS : ℤ := 86400000

/-- `gbToBytes`. -/
def gbToBytes (gb : ℚ) : ℤ := mathRound (gb * GB)

/-- `bytesToGb`: to two digits after the point. -/
def bytesToGb (b : ℤ) : ℚ := mathRound (b / GB * 100) / 100

theorem mathRound_le {x : ℚ} {n : ℤ} (h : x ≤ n) : mathRound x ≤ n := by
  have hlt : (x + 1 / 2).floor < n + 1 := by
    rw [Rat.floor_lt_iff]
    push_cast
    linarith
  exact Int.lt_add_one_iff.mp hlt

theorem le_mathRound {x : ℚ} {n : ℤ} (h : (n : ℚ) ≤ x) : n ≤ mathRound x := by
  show n ≤ (x + 1 / 2).floor
  rw [Rat.le_floor_iff]
  linarith

theorem gbToBytes_le {gb : ℚ} {n : ℤ} (h : gb ≤ n) : gbToBytes gb ≤ n * GB := by
  have hle : gb * GB ≤ ((n * GB : ℤ) : ℚ) := by
    push_cast
    exact mul_le_mul_of_nonneg_right h (Nat.cast_nonneg GB)
  exact mathRound_le hle

/-- The two digits after the point do not lift a limit above a whole number of GB. -/
theorem bytesToGb_le {b n : ℤ} (h : b ≤ n * GB) : bytesToGb b ≤ n := by
  have hGB : (0 : ℚ) < GB := by exact_mod_cast (by decide : 0 < GB)
  have hdiv : (b : ℚ) / GB ≤ n := by
    rw [div_le_iff₀ hGB]
    exact_mod_cast h
  have hround : mathRound (b / GB * 100) ≤ n * 100 := mathRound_le (by push_cast; linarith)
  have hcast : (mathRound (b / GB * 100) : ℚ) ≤ n * 100 := by exact_mod_cast hround
  unfold bytesToGb
  linarith

/-- `fmt`: a whole amount with separators. -/
def fmt (n : ℤ) : String := (if n < 0 then "-" else "") ++ localeString n.natAbs

namespace Site

/-! ## Client kinds -/

/-- `kindFromGB`. -/
def kindFromGB (gb : ℚ) : ClientKind := if 0 < gb then .limited else .unlimited

/-- `KIND_LABELS`. -/
def kindLabel : ClientKind → String
  | .limited => "حجمی"
  | .unlimited => "نامحدود"

/-- `kindsOf`. -/
def kindsOf (settings : ClientTypeSettings) (actor : Actor) : KindAccess :=
  if actor.role = .owner then ⟨true, true, 0, 0⟩
  else (settings.admins.get? actor.id).getD settings.default

/-- `clientScope`. -/
def inScope (actor : Actor) (c : Client) : Bool := actor.role = .owner || c.adminId = actor.id

/-- `countUnlimitedClients`. -/
def countUnlimitedClients (actor : Actor) (exclude : Option ClientId) : Task ℕ :=
  read fun s => (s.clients.rows.filter fun r =>
    inScope actor r.2 && r.2.trafficLimit = 0 && exclude ≠ some r.1).length

/-- The cap on unlimited clients in `assertClientKind`. -/
def assertUnlimitedMax (actor : Actor) (kind : ClientKind) (allowed : KindAccess)
    (exclude : Option ClientId) : Task Unit :=
  if kind = .unlimited && 0 < allowed.unlimitedMax then do
    let used ← countUnlimitedClients actor exclude
    refuseIf (allowed.unlimitedMax ≤ used)
      (forbiddenError ("سقف کلاینت نامحدود شما (" ++ toString allowed.unlimitedMax ++
        ") پر شده است"))
  else pure ()

/-- The part of `assertClientKind` about the service. -/
def assertServiceKind (settings : ClientTypeSettings) (kind : ClientKind)
    (serviceId : Option ServiceId) : Task Unit :=
  match serviceId.bind settings.services.get? with
  | none => pure ()
  | some sk => refuseIf (sk ≠ kind)
      ⟨"این سرویس فقط برای کلاینت «" ++ kindLabel sk ++ "» ارائه می‌شود", 400, "service_kind"⟩

/-- `assertClientKind`. -/
def assertClientKind (actor : Actor) (kind : ClientKind) (serviceId : Option ServiceId)
    (trafficGB : ℚ) (exclude : Option ClientId) : Task Unit := do
  let settings ← read Site.clientTypes
  let allowed := kindsOf settings actor
  refuseIf (kind = .limited && !allowed.limited)
    (forbiddenError "اجازهٔ ساخت کلاینت حجمی را ندارید")
  refuseIf (kind = .unlimited && !allowed.unlimited)
    (forbiddenError "اجازهٔ ساخت کلاینت نامحدود را ندارید")
  refuseIf (kind = .limited && 0 < allowed.limitedMaxGB && (allowed.limitedMaxGB : ℚ) < trafficGB)
    (forbiddenError ("حجم هر کلاینت حداکثر " ++ toString allowed.limitedMaxGB ++ " گیگابایت است"))
  assertUnlimitedMax actor kind allowed exclude
  assertServiceKind settings kind serviceId

/-! ## Limits of the account -/

/-- `canUse`: an owner has no access rows and may use every inbound. -/
def canUse (access : Option (List (ServerId × List ℕ))) (t : Target) : Bool :=
  access.all fun rows => (rows.find? fun a => a.1 = t.serverId).any fun a =>
    a.2.isEmpty || t.inboundId ∈ a.2

/-- `prisma.adminServerAccess.findMany` for an admin. -/
def serverAccessOf (s : Site) (id : AdminId) : List (ServerId × List ℕ) :=
  ((s.accounts.get? id).map Account.serverAccess).getD []

/-- The cap on clients in `assertQuota`. -/
def assertClientLimit (admin : Operator) (exclude : Option ClientId) : Task Unit :=
  match admin.account.clientLimit, exclude with
  | some limit, none => do
      let count ← read fun s => (s.clients.rows.filter fun r => r.2.adminId = admin.id).length
      refuseIf (limit ≤ count) (forbiddenError
        ("سقف تعداد کلاینت (" ++ toString limit ++ ") پر شده است"))
  | _, _ => pure ()

/-- The traffic quota in `assertQuota`. -/
def assertTrafficQuota (admin : Operator) (extraBytes : ℤ) (exclude : Option ClientId) :
    Task Unit :=
  match admin.account.trafficQuota with
  | none => pure ()
  | some quota => do
      let allocated ← read fun s => ((s.clients.rows.filter fun r =>
        r.2.adminId = admin.id && exclude ≠ some r.1).map fun r => r.2.trafficLimit).sum
      refuseIf (quota < allocated + extraBytes) (forbiddenError "سهمیه ترافیک شما کافی نیست")

/-- The access to servers and inbounds in `assertQuota`. -/
def assertAccess (admin : Operator) (targets : List Target) : Task Unit :=
  if targets.isEmpty then pure ()
  else do
    let access ← read fun s => s.serverAccessOf admin.id
    refuseIf (!targets.all (canUse (some access)))
      (forbiddenError "به این سرور/اینباند دسترسی ندارید")

/-- `assertQuota`. -/
def assertQuota (admin : Operator) (extraBytes : ℤ) (targets : List Target)
    (exclude : Option ClientId) : Task Unit :=
  if admin.role = .owner then pure ()
  else do
    let t ← now
    refuseIf (admin.account.expiresAt.any (· < t))
      (forbiddenError "اعتبار حساب شما به پایان رسیده است")
    assertClientLimit admin exclude
    assertTrafficQuota admin extraBytes exclude
    assertAccess admin targets

/-! ## Prices -/

/-- What `unitPricesFor` returns. -/
structure UnitPrices where
  perGB : ℤ
  perDay : ℤ
  enabled : Bool

/-- `unitPricesFor`: the prices of the account override the settings. -/
def unitPrices (p : PricingSettings) (account : Account) : UnitPrices :=
  ⟨account.pricePerGB.getD p.pricePerGB, account.pricePerDay.getD p.pricePerDay, p.billingEnabled⟩

/-- The cost of some traffic and days at these prices. -/
def UnitPrices.cost (u : UnitPrices) (trafficGB : ℚ) (days : ℤ) : ℤ :=
  if u.enabled then max 0 ⌈trafficGB⌉ * u.perGB + max 0 days * u.perDay else 0

/-- `quoteClientCost`. -/
def quoteClientCost (actor : Operator) (trafficGB : ℚ) (days : ℤ) : Task ℤ :=
  if actor.role = .owner then pure 0
  else read fun s => (unitPrices s.pricing actor.account).cost trafficGB days

/-- `walletBalance`. -/
def walletBalance (adminId : AdminId) : Service ℤ :=
  Db.read fun w => ((w.admins.get? adminId).map Admin.credit).getD 0

/-- `assertAffordable`. -/
def assertAffordable (actor : Operator) (cost : ℤ) : Task Unit :=
  if cost ≤ 0 || actor.role = .owner then pure ()
  else do
    let limit ← lift (Db.read World.creditLimit)
    let bal ← lift (walletBalance actor.id)
    refuseIf (bal - cost < -(limit : ℤ))
      ⟨"اعتبار کافی نیست (موجودی: " ++ fmt bal ++ " — هزینه: " ++ fmt cost ++ " تومان)", 402,
        "insufficient_credit"⟩

/-- The wallet is charged for the provisioning of a client. -/
def chargeFor (actor : Operator) (cost : ℤ) (id : ClientId) : Task Unit :=
  if 0 < cost then do
    let _ ← lift (chargeWallet actor.actor (-cost) .purchase (.client id) none false)
  else pure ()

end Site

end SRPanel
