import SRPanel.Delivery.Repeats
import SRPanel.Lib.Pool
import SRPanel.Model.ResellerPlans
import Mathlib.Algebra.Order.Monoid.Unbundled.WithTop
import Mathlib.Data.List.ReduceOption
import Mathlib.Data.Multiset.Filter

/-!
# Packages that add up

A reseller account grows by the packages that it buys and by the panel orders of its buyer. Each
grant computes the new figures from the account as it was read some steps earlier, so two of them
that overlap can lose one package. In the runs where every grant still finds the figures that it
computes from, the account has grown by the sum of all packages, and the ledger has one purchase for
each package with a price.
-/

namespace SRPanel

open Interleaving Prog

/-! ## Packages -/

/-- A package that an account has been given, with the time from which its days count at the
earliest. -/
inductive Grant
  | bought (plan : ResellerPlan) (now : ℤ)
  | renewed (orderId : OrderId) (pkg : PanelPackage) (now : ℤ)

/-- A limit with `null` for the greatest, which absorbs what is added to it. -/
def limitOrder {α : Type} (n : Option α) : WithTop α := n

namespace Grant

/-- The traffic of a package in bytes; a panel package without a figure is unlimited. -/
def quota : Grant → WithTop ℤ
  | .bought plan _ => ((plan.gb * GB : ℤ) : WithTop ℤ)
  | .renewed _ pkg _ => if pkg.gb = 0 then ⊤ else ((gbToBytes pkg.gb : ℤ) : WithTop ℤ)

/-- The client slots of a package. -/
def clients : Grant → WithTop ℕ
  | .bought plan _ => (plan.clients : WithTop ℕ)
  | .renewed _ pkg _ => if pkg.clients = 0 then ⊤ else (pkg.clients : WithTop ℕ)

def days : Grant → ℕ
  | .bought plan _ => plan.days
  | .renewed _ pkg _ => pkg.days

def now : Grant → ℤ
  | .bought _ now => now
  | .renewed _ _ now => now

/-- An expiry with the days of a package added, from the later of the two dates. A panel package
dates an account that never expires, and takes the date away if it has no days itself. -/
def extend : Grant → Option ℤ → Option ℤ
  | .bought plan now, e => if 0 < plan.days then e.map fun e =>
    max now e + plan.days * DAY_MS else e
  | .renewed _ pkg now, e =>
    if 0 < pkg.days then some (max (e.getD now) now + pkg.days * DAY_MS) else none

/-- The order that the package came with. -/
def order? : Grant → Option OrderId
  | .bought _ _ => none
  | .renewed orderId _ _ => some orderId

/-- The ledger row of a package with a price. -/
def purchase? : Grant → Option (TxRef × ℤ)
  | .bought plan _ => if 0 < plan.price then some (plan.ref, -(plan.price : ℤ)) else none
  | .renewed _ _ _ => none

/-- The package leaves a date a date. -/
def keepsDate : Grant → Prop
  | .bought _ _ => True
  | .renewed _ pkg _ => pkg.days ≠ 0

/-- A date after the package. -/
theorem extend_some {g : Grant} (h : g.keepsDate) (e : ℤ) :
    g.extend (some e) = some (if g.days = 0 then e else max g.now e + g.days * DAY_MS) := by
  cases g with
  | bought plan t =>
      by_cases hd : plan.days = 0
      · simp [extend, days, hd]
      · simp [extend, days, hd, now, Nat.pos_of_ne_zero hd]
  | renewed orderId pkg t =>
      have hd : pkg.days ≠ 0 := h
      simp [extend, days, hd, now, Nat.pos_of_ne_zero hd, max_comm]

end Grant

/-- An account that has been given packages, in this order. -/
structure Account.Grown (order : List Grant) (a₀ a : Account) : Prop where
  quota : limitOrder a.trafficQuota = limitOrder a₀.trafficQuota + (order.map Grant.quota).sum
  clients : limitOrder a.clientLimit = limitOrder a₀.clientLimit + (order.map Grant.clients).sum
  expiry : a.expiresAt = order.foldl (fun e g => g.extend e) a₀.expiresAt

namespace Account.Grown

variable {order : List Grant} {a₀ a a' : Account}

theorem refl (a : Account) : Account.Grown [] a a := ⟨by simp, by simp, rfl⟩

/-- One more package. -/
theorem grant (h : Account.Grown order a₀ a) (g : Grant)
    (hquota : limitOrder a'.trafficQuota = limitOrder a.trafficQuota + g.quota)
    (hclients : limitOrder a'.clientLimit = limitOrder a.clientLimit + g.clients)
    (hexpiry : a'.expiresAt = g.extend a.expiresAt) : Account.Grown (order ++ [g]) a₀ a' where
  quota := by
    rw [hquota, h.quota, List.map_append, List.sum_append, List.map_singleton,
      List.sum_singleton, add_assoc]
  clients := by
    rw [hclients, h.clients, List.map_append, List.sum_append, List.map_singleton,
      List.sum_singleton, add_assoc]
  expiry := by rw [hexpiry, h.expiry, List.foldl_append, List.foldl_cons, List.foldl_nil]

/-- While the clock stands still, the days add up from the later of now and the old expiry. -/
theorem days (h : Account.Grown order a₀ a) {t e : ℤ} (he : a₀.expiresAt = some e)
    (hall : ∀ g ∈ order, g.keepsDate ∧ g.now = t) :
    a.expiresAt = some (if (order.map Grant.days).sum = 0 then e
      else max t e + (order.map Grant.days).sum * DAY_MS) := by
  rw [h.expiry, he]
  clear h he
  induction order generalizing e with
  | nil => rfl
  | cons g order ih =>
      have hg := hall g List.mem_cons_self
      rw [List.foldl_cons, Grant.extend_some hg.1, ih fun g' hg' =>
        hall g' (List.mem_cons_of_mem g hg'), hg.2, List.map_cons, List.sum_cons]
      have hpos : 0 ≤ (g.days : ℤ) * DAY_MS := by
        have : (0 : ℤ) ≤ DAY_MS := by decide
        positivity
      congr 1
      by_cases hd : g.days = 0
      · simp [hd]
      · have hsum : g.days + (order.map Grant.days).sum ≠ 0 := by omega
        rw [if_neg hd, if_neg hsum, Nat.cast_add]
        split
        · next hs => simp [hs]
        · have hle : t ≤ max t e + g.days * DAY_MS := by
            have := le_max_left t e
            omega
          rw [max_eq_right hle, add_mul, add_assoc]

end Account.Grown

/-! ## The account and its ledger -/

/-- The figures of an account that packages change. -/
def Account.shares (a : Account) : Option ℤ × Option ℕ × Option ℤ :=
  (a.trafficQuota, a.clientLimit, a.expiresAt)

/-- A reference to a reseller package. -/
def TxRef.isPlan : TxRef → Bool
  | .other refType _ => refType = some "resellerPlan"
  | _ => false

/-- What the procedures in progress have given, and the purchases that they have written. -/
abbrev Given := Multiset Grant × Multiset (TxRef × ℤ)

/-- A package that has been given and paid for. -/
def Grant.given (g : Grant) : Given := ({g}, g.purchase?.elim 0 fun row => {row})

namespace Site

/-- The package purchases in the ledger of a reseller. -/
def planPurchases (s : Site) (id : AdminId) : List (TxRef × ℤ) :=
  (s.base.walletTxs.filter fun r => r.holder = id ∧ r.kind = .purchase ∧ r.ref.isPlan).map
  fun r => (r.ref, r.amount)

/-- The package that the catalogue has under an id. -/
def resellerPlan (s : Site) (planId : String) : Option ResellerPlan :=
  s.resellerPlans.plans.find? fun p => p.id = planId

/-- Changes beside the packages of an account. -/
structure Elsewhere (id : AdminId) (s s' : Site) : Prop where
  role : (s'.base.admins.get? id).map Admin.role = (s.base.admins.get? id).map Admin.role
  account : (s'.accounts.get? id).map Account.shares = (s.accounts.get? id).map Account.shares
  purchases : s'.planPurchases id = s.planPurchases id
  delivered : s'.deliveries.delivered = s.deliveries.delivered
  catalogue : s'.resellerPlans = s.resellerPlans
  buyers : ∀ key, (s'.book.accounts.get? key).map PanelAccount.adminId =
    (s.book.accounts.get? key).map PanelAccount.adminId

/-- A grant to the account finds the figures that it was computed from. -/
def Fresh (id : AdminId) : Mark → Site → Prop
  | .grants k seen figures, s => k = id → ∀ a ∈ s.accounts.get? id,
      (figures.quota → a.trafficQuota = seen.trafficQuota) ∧
      (figures.clients → a.clientLimit = seen.clientLimit) ∧
      (figures.expiry → a.expiresAt = seen.expiresAt)
  | _, _ => True

instance : ∀ (id : AdminId) (m : Mark) (s : Site), Decidable (Fresh id m s)
  | id, .grants k _ _, s => inferInstanceAs (Decidable (k = id → ∀ a ∈ s.accounts.get? id, _))
  | _, .base _, _ => .isTrue trivial
  | _, .begins _, _ => .isTrue trivial
  | _, .derives _ _, _ => .isTrue trivial
  | _, .other, _ => .isTrue trivial

/-- The account `a₀` of a reseller after the packages given so far, with their ledger rows and their
orders. The buyers with the given keys have this account. -/
structure Tally (s₀ : Site) (id : AdminId) (a₀ : Account)
    (keys : Set (AdminId × BuyerKey)) (s : Site) (g : Given) : Prop where
  role : (s.base.admins.get? id).map Admin.role = some .admin
  account : ∃ order : List Grant, (order : Multiset Grant) = g.1 ∧
    ∃ a, s.accounts.get? id = some a ∧ Account.Grown order a₀ a
  purchases : (s.planPurchases id : Multiset (TxRef × ℤ)) = s₀.planPurchases id + g.2
  delivered : (s.deliveries.delivered : Multiset OrderId) = s₀.deliveries.delivered +
  g.1.filterMap Grant.order?
  catalogue : s.resellerPlans = s₀.resellerPlans
  buyers : ∀ key ∈ keys, (s.book.accounts.get? key).map PanelAccount.adminId = some id

theorem Elsewhere.refl (id : AdminId) (s : Site) : s.Elsewhere id s :=
  ⟨rfl, rfl, rfl, rfl, rfl, fun _ => rfl⟩

/-- Only the logs have grown. -/
theorem Logs.elsewhere {s s' : Site} (id : AdminId) (h : s.Logs s') : s.Elsewhere id s' := by
  have hadmins : s'.base.admins = s.base.admins := h.base.same World.admins fun _ => rfl
  have hrows : s'.base.walletTxs = s.base.walletTxs := h.base.same World.walletTxs fun _ => rfl
  have hrest := h.rest
  refine ⟨by rw [hadmins], ?_, by rw [planPurchases, hrows, planPurchases], ?_, ?_, fun key => ?_⟩
  all_goals rw [hrest]

section Tally

variable {s₀ s s' : Site} {id : AdminId} {a₀ : Account}
    {keys : Set (AdminId × BuyerKey)} {g : Given}

theorem Tally.elsewhere (h : s₀.Tally id a₀ keys s g) (he : s.Elsewhere id s') :
    s₀.Tally id a₀ keys s' g where
  role := he.role.trans h.role
  account := by
    obtain ⟨order, horder, a, ha, hgrown⟩ := h.account
    have hshares := he.account
    rw [ha] at hshares
    obtain ⟨a', ha', heq⟩ := Option.map_eq_some_iff.mp hshares
    simp only [Account.shares, Prod.mk.injEq] at heq
    refine ⟨order, horder, a', ha', ?_, ?_, ?_⟩
    · rw [heq.1, hgrown.quota]
    · rw [heq.2.1, hgrown.clients]
    · rw [heq.2.2, hgrown.expiry]
  purchases := by rw [he.purchases, h.purchases]
  delivered := by rw [he.delivered, h.delivered]
  catalogue := he.catalogue.trans h.catalogue
  buyers key hkey := (he.buyers key).trans (h.buyers key hkey)

/-- One more package, with its order. -/
theorem Tally.grant {f : Account → Account} (h : s₀.Tally id a₀ keys s g) (gr : Grant)
    (hf : ∀ a ∈ s.accounts.get? id,
      limitOrder (f a).trafficQuota = limitOrder a.trafficQuota + gr.quota ∧
      limitOrder (f a).clientLimit = limitOrder a.clientLimit + gr.clients ∧
      (f a).expiresAt = gr.extend a.expiresAt) :
    s₀.Tally id a₀ keys { s with
      accounts := s.accounts.modify id f
      deliveries := s.deliveries.deliver gr.order? } (gr ::ₘ g.1, g.2) where
  role := h.role
  account := by
    obtain ⟨order, horder, a, ha, hgrown⟩ := h.account
    obtain ⟨hquota, hclients, hexpiry⟩ := hf a ha
    refine ⟨order ++ [gr], ?_, f a, ?_, hgrown.grant gr hquota hclients hexpiry⟩
    · rw [← horder, ← Multiset.coe_add, add_comm]
      rfl
    · show (s.accounts.modify id f).get? id = _
      rw [Table.get?_modify_self, ha]
      rfl
  purchases := h.purchases
  delivered := by
    have hdelivered := h.delivered
    show ((gr.order?.toList ++ s.deliveries.delivered : List OrderId) : Multiset OrderId) = _
    rw [← Multiset.coe_add, hdelivered]
    cases horder : gr.order? with
    | none => rw [Multiset.filterMap_cons_none _ _ horder]; simp
    | some o =>
        rw [Multiset.filterMap_cons_some _ _ _ horder]
        show (o ::ₘ 0) + _ = _
        rw [Multiset.add_cons, Multiset.cons_add, zero_add]
  catalogue := h.catalogue
  buyers := h.buyers

/-- One more purchase. -/
theorem Tally.charge (h : s₀.Tally id a₀ keys s g) (row : WalletTx AdminId) (hrow : row.holder = id)
    (hkind : row.kind = .purchase) (href : row.ref.isPlan) :
    s₀.Tally id a₀ keys { s with base := { s.base with
      admins := s.base.admins.modify row.holder fun a => { a with credit := row.balanceAfter }
      walletTxs := row :: s.base.walletTxs } } (g.1, (row.ref, row.amount) ::ₘ g.2) where
  role := by
    show ((s.base.admins.modify row.holder _).get? id).map Admin.role = _
    rw [hrow, Table.get?_modify_self, Option.map_map]
    exact h.role
  account := h.account
  purchases := by
    have hnew : planPurchases { s with base := { s.base with
        admins := s.base.admins.modify row.holder fun a => { a with credit := row.balanceAfter }
        walletTxs := row :: s.base.walletTxs } } id = (row.ref,
          row.amount) :: s.planPurchases id := by
      simp only [planPurchases, List.filter_cons, hrow, hkind, href, and_self, decide_true, if_true,
        List.map_cons]
    rw [hnew, ← Multiset.cons_coe, h.purchases, Multiset.add_cons]
  delivered := h.delivered
  catalogue := h.catalogue
  buyers := h.buyers

end Tally

end Site

/-! ## Grants -/

/-- A package without a blocker adds to figures that are there. -/
theorem planBlockers_eq_nil {me : Account} {plan : ResellerPlan} (h : planBlockers me plan = []) :
    (0 < plan.gb → me.trafficQuota.isSome) ∧ (0 < plan.clients → me.clientLimit.isSome) ∧
      (0 < plan.days → me.expiresAt.isSome) := by
  simp only [planBlockers, List.append_eq_nil_iff] at h
  obtain ⟨⟨⟨⟨-, -⟩, hgb⟩, hdays⟩, hclients⟩ := h
  refine ⟨fun h0 => ?_, fun h0 => ?_, fun h0 => ?_⟩
  · by_contra hnone
    simp [h0, Option.not_isSome_iff_eq_none.mp hnone] at hgb
  · by_contra hnone
    simp [h0, Option.not_isSome_iff_eq_none.mp hnone] at hclients
  · by_contra hnone
    simp [h0, Option.not_isSome_iff_eq_none.mp hnone] at hdays

/-- A bought package is added to an account whose figures are the ones that were read. -/
theorem grantData_apply {me a : Account} {plan : ResellerPlan} (now : ℤ)
    (hplan : planBlockers me plan = [])
    (hquota : (grantData me plan now).figures.quota → a.trafficQuota = me.trafficQuota)
    (hclients : (grantData me plan now).figures.clients → a.clientLimit = me.clientLimit)
    (hexpiry : (grantData me plan now).figures.expiry → a.expiresAt = me.expiresAt) :
    limitOrder ((grantData me plan now).apply a).trafficQuota =
        limitOrder a.trafficQuota + (Grant.bought plan now).quota ∧
      limitOrder ((grantData me plan now).apply a).clientLimit =
        limitOrder a.clientLimit + (Grant.bought plan now).clients ∧
      ((grantData me plan now).apply a).expiresAt = (Grant.bought plan now).extend a.expiresAt := by
  obtain ⟨hgb, hslots, hdays⟩ := planBlockers_eq_nil hplan
  simp only [AccountData.figures, grantData, AccountData.apply] at hquota hclients hexpiry ⊢
  refine ⟨?_, ?_, ?_⟩
  · by_cases h0 : 0 < plan.gb
    · obtain ⟨q, hq⟩ := Option.isSome_iff_exists.mp (hgb h0)
      rw [if_pos h0, hq] at hquota ⊢
      rw [hquota rfl]
      rfl
    · have hzero : plan.gb = 0 := by omega
      simp [Grant.quota, hzero]
  · by_cases h0 : 0 < plan.clients
    · obtain ⟨c, hc⟩ := Option.isSome_iff_exists.mp (hslots h0)
      rw [if_pos h0, hc] at hclients ⊢
      rw [hclients rfl]
      rfl
    · have hzero : plan.clients = 0 := by omega
      simp [Grant.clients, hzero]
  · by_cases h0 : 0 < plan.days
    · obtain ⟨e, he⟩ := Option.isSome_iff_exists.mp (hdays h0)
      rw [if_pos h0, he] at hexpiry ⊢
      rw [hexpiry rfl, Grant.extend, if_pos h0]
      rfl
    · rw [if_neg h0, Grant.extend, if_neg h0, Option.none_or]

/-- A limit with a panel package added to it. -/
theorem limitOrder_grow {α : Type} [Add α] (a seen : Option α) (n : ℕ) (x : α)
    (h : n ≠ 0 → a = seen) : limitOrder (if n = 0 then none else seen.map (· + x)) =
      limitOrder a + if n = 0 then ⊤ else (x : WithTop α) := by
  by_cases hn : n = 0
  · rw [if_pos hn, if_pos hn, WithTop.add_top]
    rfl
  · rw [if_neg hn, if_neg hn, h hn]
    cases seen with
    | none => rfl
    | some y => rfl

/-- A panel package is added to an account whose figures are the ones that were read. -/
theorem renewedAccount_grant {seen a : Account} {pkg : PanelPackage}
    (telegramId : Option String) (now : ℤ) (orderId : OrderId)
    (hquota : pkg.gb ≠ 0 → a.trafficQuota = seen.trafficQuota)
    (hclients : pkg.clients ≠ 0 → a.clientLimit = seen.clientLimit)
    (hexpiry : pkg.days ≠ 0 → a.expiresAt = seen.expiresAt) :
    limitOrder (renewedAccount seen pkg telegramId now).trafficQuota =
        limitOrder a.trafficQuota + (Grant.renewed orderId pkg now).quota ∧
      limitOrder (renewedAccount seen pkg telegramId now).clientLimit =
        limitOrder a.clientLimit + (Grant.renewed orderId pkg now).clients ∧
      (renewedAccount seen pkg telegramId now).expiresAt =
        (Grant.renewed orderId pkg now).extend a.expiresAt := by
  refine ⟨limitOrder_grow _ _ _ _ hquota, limitOrder_grow _ _ _ _ hclients, ?_⟩
  simp only [renewedAccount, Grant.extend]
  by_cases h0 : 0 < pkg.days
  · rw [if_pos h0, if_pos h0, hexpiry h0.ne']
  · rw [if_neg h0, if_neg h0]

namespace Site

/-- The procedure keeps the tally of the account `id`. -/
abbrev Counts {α : Type} (s₀ : Site) (id : AdminId) (a₀ : Account) (keys : Set (AdminId × BuyerKey))
    (Q : α → Given → Prop) (E : AppError → Given → Prop) (p : Task α) (g : Given) : Prop :=
  Safe (Fresh id) (s₀.Tally id a₀ keys) (fun _ _ => True) Q E p g

section Procedures

variable {s₀ : Site} {id : AdminId} {a₀ : Account} {keys : Set (AdminId × BuyerKey)}

theorem counts_of_elsewhere {α : Type} {p : Task α} (hp : p.Keeps (Elsewhere id)) (g : Given) :
    s₀.Counts id a₀ keys (fun _ g' => g' = g) (fun _ g' => g' = g) p g :=
  safe_of_keeps hp fun _ _ _ he h => ⟨h.elsewhere he, trivial⟩

theorem counts_logs {α : Type} {p : Service α} (hp : p.Keeps Logged) (g : Given) :
    s₀.Counts id a₀ keys (fun _ g' => g' = g) (fun _ g' => g' = g) (lift p) g :=
  counts_of_elsewhere ((lift_logs hp).mono fun _ _ h => h.elsewhere id) g

theorem counts_read {α : Type} (f : Site → α) (g : Given) :
    s₀.Counts id a₀ keys (fun _ g' => g' = g) (fun _ g' => g' = g) (read f) g :=
  counts_of_elsewhere (keeps_query (Elsewhere.refl id) _ _) g

/-- The ledger row of a package, before the package is given. -/
def planCharge (plan : ResellerPlan) : Given := (0, (Grant.bought plan 0).given.2)

/-- The commit of a charge for a package writes its ledger row. -/
theorem commitCharge_counts (row : WalletTx AdminId) (hholder : row.holder = id)
    (hkind : row.kind = .purchase) (href : row.ref.isPlan) :
    s₀.Counts id a₀ keys (fun _ g => g = (0, {(row.ref, row.amount)})) (fun _ g => g = 0)
      (lift (commitCharge row)) 0 := by
  unfold lift commitCharge
  rw [zoom_step]
  refine safe_step fun s f h _ => ⟨trivial, (0, {(row.ref, row.amount)}), ?_⟩
  have hrole := h.role
  rw [zero_add] at h
  simp only [world_get, world_put, hholder]
  cases hadmin : s.base.admins.get? id with
  | none =>
      rw [hadmin] at hrole
      cases hrole
  | some a =>
      refine ⟨?_, fun _ _ => trivial, by rintro _ ⟨⟩⟩
      have hcharge := h.charge row hholder hkind href
      rw [hholder] at hcharge
      rw [show (0, {(row.ref, row.amount)}) + f = (f.1, (row.ref, row.amount) ::ₘ f.2) from
        Prod.ext (zero_add _) (Multiset.singleton_add _ _)]
      exact hcharge

/-- The charge either fails and leaves nothing, or the ledger has the row of the package. -/
theorem chargePlan_counts (actor : Actor) (plan : ResellerPlan) :
    s₀.Counts id a₀ keys (fun _ g => g = planCharge plan) (fun _ g => g = 0)
      (chargePlan actor ⟨id, .admin⟩ plan) 0 := by
  refine safe_ite (fun hprice => ?_) fun hprice =>
    safe_pure (by simp only [planCharge, Grant.given, Grant.purchase?, if_neg hprice]; rfl)
  have hkind : ¬((decide (AdminRole.admin = AdminRole.owner) &&
      decide (WalletTxKind.purchase = .purchase)) = true) := by
    decide
  unfold lift chargeWallet
  rw [if_neg hkind, if_neg (by omega)]
  simp only [zoom_bind]
  have hlimit : (debitLimit (-(plan.price : ℤ)) false).Keeps Logged :=
    keeps_ite (keeps_query Logged.refl _ _) (keeps_pure _)
  refine safe_bind (counts_logs hlimit 0) ?_
  rintro limit g rfl
  refine safe_bind (counts_logs (keeps_query Logged.refl _ _) 0) ?_
  rintro a g rfl
  cases a with
  | none => exact safe_throw rfl
  | some a =>
      rw [zoom_ite]
      refine safe_ite (fun _ => safe_throw rfl) fun _ => ?_
      simp only [zoom_bind]
      refine safe_bind (commitCharge_counts _ rfl rfl rfl) ?_
      rintro row g rfl
      refine safe_bind (safe_returns (counts_logs (alertAfter_keeps_logged row) _)
        (alertAfter_returns row).zoom) ?_
      rintro _ g rfl
      refine safe_pure ?_
      simp [planCharge, Grant.given, Grant.purchase?, hprice]

/-- The account as a purchase reads it. -/
theorem account_counts :
    s₀.Counts id a₀ keys (fun me g => (me.id = id ∧ me.role = .admin) ∧ g = 0) (fun _ g => g = 0)
      (Site.account id) 0 := by
  refine safe_bind (R := fun me g => (∀ o ∈ me, o.id = id ∧ o.role = .admin) ∧ g = 0)
    (safe_query (fun _ => trivial) fun s r h _ => ⟨fun o ho => ?_, rfl⟩) ?_
  · obtain ⟨hid, -, hrole⟩ := operator_account ho
    exact ⟨hid, Option.some.inj (hrole.symm.trans h.role)⟩
  · rintro me g ⟨hme, rfl⟩
    cases me with
    | none => exact safe_throw rfl
    | some me => exact safe_pure ⟨hme me rfl, rfl⟩

/-- The plan that a purchase names. -/
theorem planFor_counts (actor : Actor) (planId : String) :
    s₀.Counts id a₀ keys (fun plan g => s₀.resellerPlan planId = some plan ∧ g = 0)
      (fun _ g => g = 0) (planFor actor planId) 0 := by
  refine safe_bind (R := fun settings g => settings = s₀.resellerPlans ∧ g = 0)
    (safe_query (fun _ => trivial) fun s r h _ => ⟨h.catalogue, rfl⟩) ?_
  rintro settings g ⟨rfl, rfl⟩
  refine safe_bind (R := fun _ g => g = 0) (safe_ite (fun _ => safe_throw rfl) fun _ =>
    safe_pure rfl) ?_
  rintro _ g rfl
  cases hfind : s₀.resellerPlans.plans.find? fun p => p.id = planId with
  | none => exact safe_throw rfl
  | some plan =>
      refine safe_bind (R := fun _ g => g = 0) (safe_ite (fun _ => safe_throw rfl) fun _ =>
        safe_pure rfl) ?_
      rintro _ g rfl
      exact safe_pure ⟨hfind, rfl⟩

/-- A grant to the account finds it, and adds the package to the tally. -/
theorem updateAccount_counts {seen : Operator} {figures : Figures} {f : Account → Account}
    (gr : Grant) (g : Given) (hid : seen.id = id)
    (hf : ∀ a, (figures.quota → a.trafficQuota = seen.account.trafficQuota) →
      (figures.clients → a.clientLimit = seen.account.clientLimit) →
      (figures.expiry → a.expiresAt = seen.account.expiresAt) →
      limitOrder (f a).trafficQuota = limitOrder a.trafficQuota + gr.quota ∧
      limitOrder (f a).clientLimit = limitOrder a.clientLimit + gr.clients ∧
      (f a).expiresAt = gr.extend a.expiresAt) :
    s₀.Counts id a₀ keys (fun _ g' => g' = (gr ::ₘ g.1, g.2)) (fun _ _ => False)
      (updateAccount seen figures f gr.order?) g := by
  subst hid
  refine safe_step fun s r h hfresh => ⟨trivial, (gr ::ₘ g.1, g.2), ?_⟩
  obtain ⟨-, -, a, ha, -⟩ := h.account
  obtain ⟨admin, hadmin, -⟩ := Option.map_eq_some_iff.mp h.role
  have hfound : s.operator seen.id = some ⟨seen.id, admin.role, a⟩ := by
    rw [operator, hadmin, ha]
    rfl
  simp only [hfound]
  refine ⟨?_, fun _ _ => trivial, by rintro _ ⟨⟩⟩
  rw [show (gr ::ₘ g.1, g.2) + r = (gr ::ₘ (g + r).1, (g + r).2) from
    Prod.ext (Multiset.cons_add _ _ _) rfl]
  exact h.grant gr fun b hb => hf b (hfresh rfl b hb).1 (hfresh rfl b hb).2.1 (hfresh rfl b hb).2.2

/-- A purchase either fails and leaves nothing, or gives its package and has its ledger row. -/
theorem buyResellerPlan_counts (actor : Actor) (hactor : actor.id = id) (planId : String) :
    s₀.Counts id a₀ keys (fun _ g => ∃ plan t, s₀.resellerPlan planId = some plan ∧
      g = (Grant.bought plan t).given) (fun _ g => g = 0) (buyResellerPlan actor planId) 0 := by
  subst hactor
  refine safe_bind (R := fun _ g => g = 0) (safe_ite (fun _ => safe_throw rfl) fun _ =>
    safe_pure rfl) ?_
  rintro _ g rfl
  refine safe_bind (planFor_counts actor planId) ?_
  rintro plan g ⟨hplan, rfl⟩
  refine safe_bind account_counts ?_
  rintro me g ⟨⟨hid, hrole⟩, rfl⟩
  cases hblock : planBlockers me.account plan with
  | cons blocker rest => exact safe_throw rfl
  | nil =>
      have htarget : me.actor = ⟨actor.id, .admin⟩ := by rw [Operator.actor, hid, hrole]
      rw [htarget]
      refine safe_bind (chargePlan_counts actor plan) ?_
      rintro tx g rfl
      refine safe_bind (safe_returns (counts_read _ _) (returns_query _ _)) ?_
      rintro t g rfl
      refine safe_bind (R := fun _ g => g = (Grant.bought plan t).given) ?_ ?_
      · refine safe_attempt (safe_mono
          (updateAccount_counts (.bought plan t) (planCharge plan) hid ?_) ?_ fun _ _ h =>
            h) fun _ _ h => h.elim
        · intro a hquota hclients hexpiry
          exact grantData_apply t hblock hquota hclients hexpiry
        · rintro _ _ rfl
          rfl
      · rintro updated g rfl
        refine safe_bind (safe_returns (counts_logs (audit_keeps_logged _ _) _)
          (audit_returns _ _).zoom) ?_
        rintro _ g rfl
        refine safe_bind (safe_returns (counts_logs (notify_keeps_logged _) _)
          (notify_returns _).zoom) ?_
        rintro _ g rfl
        exact safe_pure ⟨plan, t, hplan, rfl⟩

/-! ### Panel orders -/

theorem closeOrder_elsewhere (k : OrderId) (f : Order → Order) (g : OrderInfo → OrderInfo) :
    (closeOrder k f g).Keeps (Elsewhere id) := by
  refine keeps_step fun s => ?_
  cases s.base.orders.get? k with
  | none => exact Elsewhere.refl id s
  | some o => exact ⟨rfl, rfl, rfl, rfl, rfl, fun _ => rfl⟩

theorem failOrder_elsewhere (k : OrderId) (err : AppError) :
    (failOrder k err).Keeps (Elsewhere id) :=
  keeps_bind (closeOrder_elsewhere _ _ _) fun _ =>
    keeps_bind ((lift_logs (notify_keeps_logged _)).mono fun _ _ h => h.elsewhere id) fun _ =>
      keeps_pure _

theorem parkHandoff_elsewhere (k : OrderId) (handoff : PanelHandoff) (reached : List String) :
    (parkHandoff k handoff reached).Keeps (Elsewhere id) :=
  keeps_ite (keeps_bind (keeps_query (Elsewhere.refl id) _ _) fun _ =>
    keeps_modify fun _ => ⟨rfl, rfl, rfl, rfl, rfl, fun _ => rfl⟩) (keeps_pure ())

theorem countSale_elsewhere (planId : Option PlanId) : (countSale planId).Keeps (Elsewhere id) :=
  countSale_keeps (fun _ _ => ⟨rfl, rfl, rfl, rfl, rfl, fun _ => rfl⟩) planId

/-- The buyer of a top-up has the account. -/
theorem findReturning_counts {link : PanelPlanLink} {key : AdminId × BuyerKey} (htop : link.topUp)
    (hkey : key ∈ keys) :
    s₀.Counts id a₀ keys (fun found g => (∃ previous existing, found = some (previous, existing) ∧
      previous.adminId = id ∧ existing.id = id) ∧ g = 0)
        (fun _ _ => False) (findReturning link key) 0 := by
  refine safe_bind (R := fun previous g => (∃ p, previous = some p ∧ p.adminId = id) ∧ g = 0)
    (safe_query (fun _ => trivial) fun s r h _ => ⟨?_, rfl⟩) ?_
  · rw [if_pos htop]
    obtain ⟨p, hp, hid⟩ := Option.map_eq_some_iff.mp (h.buyers key hkey)
    exact ⟨p, hp, hid⟩
  · rintro _ g ⟨⟨previous, rfl, hprevious⟩, rfl⟩
    refine safe_bind (R := fun existing g =>
      (∃ o, existing = some o ∧ o.id = id ∧ o.role = .admin) ∧
        g = 0) (safe_query (fun _ => trivial) fun s r h _ => ⟨?_, rfl⟩) ?_
    · obtain ⟨-, -, a, ha, -⟩ := h.account
      obtain ⟨admin, hadmin, hrole⟩ := Option.map_eq_some_iff.mp h.role
      refine ⟨⟨id, admin.role, a⟩, ?_, rfl, hrole⟩
      rw [hprevious, operator, hadmin, ha]
      rfl
    · rintro _ g ⟨⟨existing, rfl, hid, hrole⟩, rfl⟩
      refine safe_pure ⟨⟨previous, existing, ?_, hprevious, hid⟩, rfl⟩
      show (if existing.role = .owner then none else some (previous, existing)) = _
      rw [if_neg (by rw [hrole]; decide)]

/-- The book keeps the account of every buyer. -/
theorem saveAccount_counts (key : AdminId × BuyerKey) (account : PanelAccount)
    (haccount : account.adminId = id) (g : Given) :
    s₀.Counts id a₀ keys (fun _ g' => g' = g) (fun _ _ => False) (saveAccount key account) g := by
  refine safe_bind (R := fun fresh g' =>
    (∀ k ∈ keys, (fresh.accounts.get? k).map PanelAccount.adminId = some id) ∧ g' = g)
    (safe_query (fun _ => trivial) fun s r h _ => ⟨h.buyers, rfl⟩) ?_
  rintro fresh g ⟨hfresh, rfl⟩
  refine safe_step fun s r h _ =>
    ⟨trivial, g, ⟨h.role, h.account, h.purchases, h.delivered, h.catalogue, fun k hk => ?_⟩,
      fun _ _ => rfl, by rintro _ ⟨⟩⟩
  show ((fresh.accounts.set key account).get? k).map _ = _
  rw [Table.get?_set]
  split
  · rw [Option.map_some, haccount]
  · exact hfresh k hk

/-- A top-up either fails before the account is written, or gives its package. -/
theorem providePanel_counts {f : FoundOrder} {link : PanelPlanLink} (htop : link.topUp)
    (hkey : f.buyer ∈ keys) :
    s₀.Counts id a₀ keys
      (fun _ g => g = 0 ∨ ∃ t, g = (Grant.renewed f.id (f.package link) t).given)
      (fun _ g => g = 0 ∨ ∃ t, g = (Grant.renewed f.id (f.package link) t).given)
      (providePanel f link) 0 := by
  refine safe_bind (R := fun _ g => g = 0) (safe_bind (R := fun _ g => g = 0) ?_ ?_) ?_
  · exact safe_returns (counts_read _ 0) (returns_query _ _)
  · rintro has g rfl
    exact safe_ite (fun _ => safe_throw (.inl rfl)) fun _ => safe_pure rfl
  rintro _ g rfl
  refine safe_bind (safe_returns (counts_read _ 0) (returns_query _ _)) ?_
  rintro t g rfl
  refine safe_bind (R := fun granted g => granted.1.adminId = id ∧
    g = (Grant.renewed f.id (f.package link) t).given) (safe_bind
      (safe_mono (findReturning_counts htop hkey) (fun _ _ h => h) fun _ _ h => h.elim) ?_) ?_
  · rintro _ g ⟨⟨previous, existing, rfl, hprevious, hexisting⟩, rfl⟩
    refine safe_bind (safe_mono
      (updateAccount_counts (.renewed f.id (f.package link) t) 0 hexisting ?_)
        (fun _ _ h => h) fun _ _ h => h.elim) ?_
    · intro a hquota hclients hexpiry
      exact renewedAccount_grant f.order.customerTelegramId t f.id
        (fun h => hquota (by simpa using h)) (fun h => hclients (by simpa using h)) fun h =>
          hexpiry (by simpa using h)
    · rintro _ g rfl
      exact safe_pure ⟨hprevious, rfl⟩
  rintro granted g ⟨hgranted, rfl⟩
  -- what follows the grant is elsewhere, so its failure leaves the package given
  have hrest : ∀ {α : Type} {p : Task α}, p.Keeps (Elsewhere id) →
      s₀.Counts id a₀ keys (fun _ g => g = (Grant.renewed f.id (f.package link) t).given)
        (fun _ g => g = 0 ∨ ∃ t, g = (Grant.renewed f.id (f.package link) t).given) p
        (Grant.renewed f.id (f.package link) t).given := fun hp =>
    safe_mono (counts_of_elsewhere hp _) (fun _ _ h => h) fun _ _ h => .inr ⟨t, h⟩
  have hlogs : ∀ {α : Type} {p : Service α}, p.Keeps Logged →
      (lift p).Keeps (Elsewhere id) := fun hp =>
    (lift_logs hp).mono fun _ _ h => h.elsewhere id
  refine safe_bind (safe_mono (saveAccount_counts _ granted.1 hgranted _)
    (fun _ _ h => h) fun _ _ h => h.elim) ?_
  rintro _ g rfl
  refine safe_mono (hrest (keeps_bind (keeps_query (Elsewhere.refl id) _ _) fun reached =>
    keeps_bind (parkHandoff_elsewhere _ _ _) fun _ =>
      keeps_bind (closeOrder_elsewhere _ _ _) fun done =>
        keeps_bind (countSale_elsewhere _) fun _ =>
          keeps_bind (hlogs (audit_keeps_logged _ _)) fun _ =>
            keeps_bind (hlogs (emitEvent_keeps_logged _ _)) fun _ =>
              keeps_bind (hlogs (notify_keeps_logged _)) fun _ => keeps_pure done))
    (fun _ _ h => .inr ⟨t, h⟩) fun _ _ h => h

theorem provisionPanelOrder_counts {f : FoundOrder} {link : PanelPlanLink} (htop : link.topUp)
    (hkey : f.buyer ∈ keys) :
    s₀.Counts id a₀ keys (fun _ g => g = 0 ∨ ∃ t, g = (Grant.renewed f.id (f.package link) t).given)
      (fun _ g => g = 0 ∨ ∃ t, g = (Grant.renewed f.id (f.package link) t).given)
      (provisionPanelOrder f link) 0 := by
  refine safe_attempt (providePanel_counts htop hkey) fun err g hg => ?_
  exact safe_mono (counts_of_elsewhere (failOrder_elsewhere f.id err) g) (fun _ _ h => h ▸ hg)
    fun _ _ h => h ▸ hg

end Procedures

/-! ## Runs -/

/-- A purchase by the reseller, or a panel order of a buyer of the account. -/
inductive PackageCall
  | buy (planId : String)
  | order (f : FoundOrder) (link : PanelPlanLink)

namespace PackageCall

/-- The procedure of a call. -/
def task (actor : Actor) : PackageCall → Task Unit
  | .buy planId => do
      let _ ← buyResellerPlan actor planId
  | .order f link => do
      let _ ← provisionPanelOrder f link

/-- The panel orders top up the account `id`. -/
def topsUp (s : Site) (id : AdminId) : PackageCall → Prop
  | .buy _ => True
  | .order f link => link.topUp ∧ (s.book.accounts.get? f.buyer).map PanelAccount.adminId = some id

/-- What a call has given, by its outcome: a purchase that ends with an error gives nothing. -/
inductive Gives (s : Site) : PackageCall → Except AppError Unit → Option Grant → Prop
  | bought {planId : String} {plan : ResellerPlan} (now : ℤ) : s.resellerPlan planId = some plan →
      Gives s (.buy planId) (.ok ()) (some (.bought plan now))
  | refused (planId : String) (e : AppError) : Gives s (.buy planId) (.error e) none
  | renewed (f : FoundOrder) (link : PanelPlanLink) (r : Except AppError Unit) (now : ℤ) :
      Gives s (.order f link) r (some (.renewed f.id (f.package link) now))
  | failed (f : FoundOrder) (link : PanelPlanLink) (r : Except AppError Unit) :
  Gives s (.order f link) r none

/-- The ghost value of a call at its end. -/
def promise (s : Site) (c : PackageCall) (r : Except AppError Unit) (g : Given) : Prop :=
  ∃ gr, c.Gives s r gr ∧ g = gr.elim 0 Grant.given

end PackageCall

/-- The account `id` after packages were given in this order, with their ledger rows and their
orders. -/
structure AddsUp (s₀ : Site) (id : AdminId) (a₀ : Account) (order : List Grant)
    (s : Site) : Prop where
  account : ∃ a, s.accounts.get? id = some a ∧ Account.Grown order a₀ a ∧
    ∀ t e, a₀.expiresAt = some e → (∀ g ∈ order, g.keepsDate ∧ g.now = t) →
      a.expiresAt = some (if (order.map Grant.days).sum = 0 then e
        else max t e + (order.map Grant.days).sum * DAY_MS)
  purchases : (s.planPurchases id).Perm (s₀.planPurchases id ++ order.filterMap Grant.purchase?)
  delivered : s.deliveries.delivered.Perm (s₀.deliveries.delivered ++ order.filterMap Grant.order?)

/-- What all calls have given together. -/
theorem sum_given (grants : List (Option Grant)) :
    (grants.map fun gr => gr.elim 0 Grant.given).sum =
      ((grants.reduceOption : Multiset Grant),
        (grants.reduceOption.filterMap Grant.purchase? : Multiset (TxRef × ℤ))) := by
  induction grants with
  | nil => rfl
  | cons gr grants ih =>
      rw [List.map_cons, List.sum_cons, ih]
      cases gr with
      | none => exact zero_add _
      | some gr =>
          refine Prod.ext (Multiset.singleton_add _ _) ?_
          cases hrow : gr.purchase? with
          | none => simp [Grant.given, hrow, List.reduceOption_cons_of_some]
          | some row => simp [Grant.given, hrow, List.reduceOption_cons_of_some]

/-- Every call keeps the tally and ends with what it promises. -/
theorem task_counts {s₀ : Site} {actor : Actor} {a₀ : Account} {keys : Set (AdminId × BuyerKey)}
    (c : PackageCall) (hkeys : ∀ f link, c = .order f link → link.topUp ∧ f.buyer ∈ keys) :
    s₀.Counts actor.id a₀ keys (fun a => c.promise s₀ (.ok a))
      (fun e => c.promise s₀ (.error e)) (c.task actor) 0 := by
  cases c with
  | buy planId =>
      refine safe_bind (safe_mono (buyResellerPlan_counts actor rfl planId) (fun _ _ h => h)
        fun e g h => ⟨none, .refused planId e, h⟩) ?_
      rintro _ g ⟨plan, t, hplan, rfl⟩
      exact safe_pure ⟨some (.bought plan t), .bought t hplan, rfl⟩
  | order f link =>
      obtain ⟨htop, hkey⟩ := hkeys f link rfl
      have hpromise : ∀ (r : Except AppError Unit) (g : Given),
          (g = 0 ∨ ∃ t, g = (Grant.renewed f.id (f.package link) t).given) →
          (PackageCall.order f link).promise s₀ r g := by
        rintro r g (rfl | ⟨t, rfl⟩)
        · exact ⟨none, .failed f link r, rfl⟩
        · exact ⟨some (.renewed f.id (f.package link) t), .renewed f link r t, rfl⟩
      refine safe_bind (safe_mono (provisionPanelOrder_counts htop hkey) (fun _ _ h => h)
        fun e g h => hpromise _ g h) fun _ g h => ?_
      exact safe_pure (hpromise _ g h)

/-- The grants behind the promises that were kept. -/
theorem grants_of_promises {s₀ : Site} {T : List (Task Unit)} {owned : List (PackageCall × Given)}
    (h : List.Forall₂ (fun p o => ∃ r, Prog.outcome p = some r ∧ o.1.promise s₀ r o.2) T owned) :
    ∃ grants : List (Option Grant), List.Forall₂ (fun (p : Task Unit × PackageCall) gr =>
        ∃ r, p.1.outcome = some r ∧ p.2.Gives s₀ r gr) (T.zip (owned.map Prod.fst)) grants ∧
      owned.map Prod.snd = grants.map fun gr => gr.elim 0 Grant.given := by
  induction h with
  | nil => exact ⟨[], .nil, rfl⟩
  | @cons p o T owned hp _ ih =>
      obtain ⟨r, hr, gr, hgives, hg⟩ := hp
      obtain ⟨grants, hall, howned⟩ := ih
      exact ⟨gr :: grants, .cons ⟨r, hr, hgives⟩ hall, by
        rw [List.map_cons, List.map_cons, hg, howned]⟩

/-- A reseller account with 10 GB and 5 clients. -/
def packageAccount : Account :=
  ⟨"r", 0, none, true, some (10 * GB), some 5, some 0, none, some 1, none, none, []⟩

/-- A reseller with this account, and a package of 10 GB more for 100. -/
def packageShop : Site :=
  { Site.blank with
    base := { World.blank with admins := Table.empty.set 2 ⟨.admin, 1000, 0⟩ }
    accounts := Table.empty.set 2 packageAccount
    resellerPlans := ⟨true, [⟨"g", "10 GB", 10, 0, 0, 100, true, []⟩]⟩ }

/-- Two purchases of the package. -/
def twoPurchases : Pool Mark Site AppError :=
  ⟨packageShop, [PackageCall.buy "g", .buy "g"].map (PackageCall.task ⟨2, .admin⟩)⟩

/-- Both purchases have read the account before the first of them writes it. -/
def overlapping : Pool Mark Site AppError :=
  Pool.schedule ([0, 0] ++ List.replicate 10 1 ++ List.replicate 8 0) twoPurchases

/-- Two purchases of the package that have returned give it twice. -/
theorem twoPurchases_give {T : List (Task Unit)} {grants : List (Option Grant)}
    (hends : T.map Prog.outcome = [some (.ok ()), some (.ok ())])
    (h : List.Forall₂ (fun (p : Task Unit × PackageCall) gr =>
      ∃ r, p.1.outcome = some r ∧ p.2.Gives packageShop r gr) (T.zip [.buy "g", .buy "g"]) grants) :
    (grants.reduceOption.map Grant.quota).sum = ((20 * GB : ℤ) : WithTop ℤ) := by
  have hplan : packageShop.resellerPlan "g" = some ⟨"g", "10 GB", 10, 0, 0, 100, true, []⟩ :=
    by decide
  have hgives : ∀ {p : Task Unit} {gr : Option Grant}, p.outcome = some (.ok ()) →
      (∃ r, p.outcome = some r ∧ (PackageCall.buy "g").Gives packageShop r gr) →
      ∃ g, gr = some g ∧ g.quota = ((10 * GB : ℤ) : WithTop ℤ) := by
    rintro p gr hp ⟨r, hr, hg⟩
    obtain rfl : r = .ok () := Option.some.inj (hr.symm.trans hp)
    cases hg with
    | bought t hfound =>
        rw [hplan] at hfound
        cases hfound
        exact ⟨_, rfl, rfl⟩
  obtain ⟨p, q, rfl⟩ := List.length_eq_two.mp (by simpa using congrArg List.length hends)
  simp only [List.map_cons, List.map_nil, List.cons.injEq, and_true] at hends
  cases h with
  | cons h₁ h =>
      cases h with
      | cons h₂ h =>
          cases h
          obtain ⟨g₁, rfl, hg₁⟩ := hgives hends.1 h₁
          obtain ⟨g₂, rfl, hg₂⟩ := hgives hends.2 h₂
          rw [List.reduceOption_cons_of_some, List.reduceOption_cons_of_some, List.map_cons,
            List.map_cons, List.sum_cons, List.sum_cons, hg₁, hg₂]
          rfl

/-- The same purchases one after the other. -/
def consecutive : Pool Mark Site AppError :=
  Pool.schedule (List.replicate 10 0 ++ List.replicate 10 1) twoPurchases

end Site

end SRPanel
