import SRPanel.Model.ResellerQuotes
import SRPanel.Resellers.Packages

/-!
# The quote of a package mirrors its purchase

The receipt of a package names the reasons for which a purchase would be refused. It sees the
catalogue, the account and the wallet as the purchase does, but not the sizes of the columns.
-/

namespace SRPanel

open Interleaving Prog

/-- The account with the package added to it. -/
def ResellerPlan.grow (plan : ResellerPlan) (now : ℤ) (a : Account) : Account :=
  { a with
    trafficQuota := a.trafficQuota.map (· + plan.gb * GB)
    clientLimit := a.clientLimit.map (· + plan.clients)
    expiresAt := if plan.days = 0 then a.expiresAt else a.expiresAt.map fun e =>
      max now e + plan.days * DAY_MS }

/-- The columns that are written hold the account with the package, if nothing blocks it. -/
theorem grantData_apply_self {me : Account} {plan : ResellerPlan} (now : ℤ)
    (hplan : planBlockers me plan = []) : (grantData me plan now).apply me = plan.grow now me := by
  obtain ⟨hgb, hslots, hdays⟩ := planBlockers_eq_nil hplan
  unfold grantData AccountData.apply ResellerPlan.grow
  have hquota : (if 0 < plan.gb then
      me.trafficQuota.map (· + (plan.gb * GB : ℤ)) else none).or me.trafficQuota =
        me.trafficQuota.map (· + (plan.gb * GB : ℤ)) := by
    by_cases h0 : 0 < plan.gb
    · obtain ⟨q, hq⟩ := Option.isSome_iff_exists.mp (hgb h0)
      rw [if_pos h0, hq]
      rfl
    · have hzero : plan.gb = 0 := by omega
      rw [if_neg h0, Option.none_or, hzero]
      simp
  have hlimit : (if 0 < plan.clients then
      me.clientLimit.map (· + plan.clients) else none).or me.clientLimit = me.clientLimit.map (· +
        plan.clients) := by
    by_cases h0 : 0 < plan.clients
    · obtain ⟨c, hc⟩ := Option.isSome_iff_exists.mp (hslots h0)
      rw [if_pos h0, hc]
      rfl
    · have hzero : plan.clients = 0 := by omega
      rw [if_neg h0, Option.none_or, hzero]
      simp
  have hexpiry : (if 0 < plan.days then me.expiresAt.map fun e =>
      max now e + plan.days * DAY_MS else none).or me.expiresAt =
        if plan.days = 0 then me.expiresAt else
          me.expiresAt.map fun e => max now e + plan.days * DAY_MS := by
    by_cases h0 : 0 < plan.days
    · obtain ⟨e, he⟩ := Option.isSome_iff_exists.mp (hdays h0)
      rw [if_pos h0, if_neg (by omega), he]
      rfl
    · rw [if_neg h0, if_pos (by omega), Option.none_or]
  rw [hquota, hlimit, hexpiry]

namespace Site

/-- The catalogue offers the plan to the actor; to the owner it is always open. -/
structure Offers (s : Site) (actor : Actor) (planId : String) (plan : ResellerPlan) : Prop where
  found : s.resellerPlans.plans.find? (fun p => p.id = planId) = some plan
  «open» : actor.role ≠ .owner → s.resellerPlans.enabled ∧ planOfferedTo plan actor

/-- Nothing that the catalogue, the account and the wallet say is against the purchase. -/
structure Eligible (s : Site) (me : Operator) (planId : String) (plan : ResellerPlan) : Prop where
  reseller : me.role ≠ .owner
  offers : s.Offers me.actor planId plan
  free : planBlockers me.account plan = []
  affordable : 0 < plan.price → -(s.base.creditLimit : ℤ) ≤ s.creditOf me.id - plan.price

/-- The figures that the purchase writes fit their columns. -/
structure Fits (s : Site) (me : Operator) (plan : ResellerPlan) : Prop where
  charge : 0 < plan.price → chargeFits (s.creditOf me.id) plan.price
  quota : 0 < plan.gb → ∀ q ∈ me.account.trafficQuota, q + plan.gb * GB < 9223372036854775808
  slots : 0 < plan.clients → ∀ c ∈ me.account.clientLimit, c + plan.clients < 2147483648
  expiry : 0 < plan.days → ∀ e ∈ me.account.expiresAt,
    max (s.base.now : ℤ) e + plan.days * DAY_MS ≤ 8640000000000000

/-- The wallet is charged the price, the account has grown by the package, and nobody else's has
changed. -/
structure Bought (s : Site) (me : Operator) (plan : ResellerPlan) (price : ℤ)
    (s' : Site) : Prop where
  credit : s'.creditOf me.id = s.creditOf me.id - price
  account : s'.accounts.get? me.id = some (plan.grow s.base.now me.account)
  others : ∀ id, id ≠ me.id →
  s'.creditOf id = s.creditOf id ∧ s'.accounts.get? id = s.accounts.get? id

theorem all_ite {α β : Type} {o : Option α} {f : α → β} {p : β → Bool} {c : Prop} [Decidable c] :
    (if c then o.map f else none).all p = true ↔ (c → ∀ x ∈ o, p (f x) = true) := by
  split
  · next hc => cases o <;> simp [hc]
  · next hc => simp [hc]

/-- The columns of a grant fit exactly if each of the new figures does. -/
theorem fits_iff {s : Site} {me : Operator} {plan : ResellerPlan} :
    s.Fits me plan ↔ (0 < plan.price → chargeFits (s.creditOf me.id) plan.price) ∧
      (grantData me.account plan s.base.now).fits := by
  have hgrant : (grantData me.account plan s.base.now).fits = true ↔
      ((0 < plan.gb → ∀ q ∈ me.account.trafficQuota, q + plan.gb * GB < 9223372036854775808) ∧
        (0 < plan.clients → ∀ c ∈ me.account.clientLimit, c + plan.clients < 2147483648)) ∧
      (0 < plan.days → ∀ e ∈ me.account.expiresAt,
        max (s.base.now : ℤ) e + plan.days * DAY_MS ≤ 8640000000000000) := by
    unfold AccountData.fits grantData
    simp only [Bool.and_eq_true, all_ite, decide_eq_true_eq]
  rw [hgrant]
  constructor
  · exact fun h => ⟨h.charge, ⟨h.quota, h.slots⟩, h.expiry⟩
  · exact fun h => ⟨h.1, h.2.1.1, h.2.1.2, h.2.2⟩

-- a run is not to be evaluated
attribute [local irreducible] Prog.wp

variable {s : Site} {me : Operator} {planId : String} {plan : ResellerPlan} {w : World}

theorem wp_read {α : Type} {f : Site → α} {Q : α → Site → Prop} {E : AppError → Site → Prop} :
    Prog.wp (read f) Q E s ↔ Q (f s) s := wp_query _ _

theorem wp_refuseIf {c : Bool} {e : AppError} {Q : Unit → Site → Prop}
    {E : AppError → Site → Prop} : Prog.wp (refuseIf c e) Q E s ↔ if c then E e s else Q () s := by
  unfold refuseIf
  split
  · exact wp_throw e
  · exact wp_pure ()

/-- The plan that is named, if it is offered. -/
theorem wp_planFor {actor : Actor} {Q : ResellerPlan → Site → Prop} {E : AppError → Site → Prop}
    (hQ : ∀ plan, s.Offers actor planId plan → Q plan s)
    (hE : ∀ e, (∀ plan, ¬s.Offers actor planId plan) → E e s) :
    Prog.wp (planFor actor planId) Q E s := by
  unfold planFor
  rw [wp_bind, wp_read, wp_bind, wp_refuseIf]
  split
  · next hclosed =>
    refine hE _ fun plan h => ?_
    simp only [Bool.and_eq_true, Bool.not_eq_true', decide_eq_true_eq] at hclosed
    exact absurd (h.open hclosed.2).1 (by simp [hclosed.1])
  next hopen =>
  simp only [Bool.and_eq_true, Bool.not_eq_true', decide_eq_true_eq, not_and, not_not] at hopen
  cases hfind : s.resellerPlans.plans.find? fun p => p.id = planId with
  | none => exact (wp_throw _).mpr (hE _ fun plan h => by cases hfind.symm.trans h.found)
  | some plan =>
    dsimp only
    rw [wp_bind, wp_refuseIf]
    split
    · next hrefused =>
      simp only [Bool.and_eq_true, Bool.not_eq_true', decide_eq_true_eq] at hrefused
      refine hE _ fun plan' h => ?_
      obtain rfl := Option.some.inj (hfind.symm.trans h.found)
      exact absurd (h.open hrefused.1).2 (by simp [hrefused.2])
    · next hoffered =>
      simp only [Bool.and_eq_true, Bool.not_eq_true', decide_eq_true_eq, not_and] at hoffered
      refine (wp_pure _).mpr (hQ plan ⟨hfind, fun hrole => ⟨?_, ?_⟩⟩)
      · by_contra henabled
        exact hrole (hopen (by simpa using henabled))
      · simpa using hoffered hrole

theorem wp_account (hme : s.operator me.id = some me) {Q : Operator → Site → Prop}
    {E : AppError → Site → Prop} (hQ : Q me s) : Prog.wp (account me.id) Q E s := by
  unfold account
  rw [wp_bind, wp_read, hme]
  exact (wp_pure _).mpr hQ

/-- An admin with an account has a row with the same role, and that account. -/
theorem operator_eq (hme : s.operator me.id = some me) :
    ∃ a, s.base.admins.get? me.id = some a ∧ a.role = me.role ∧ s.accounts.get? me.id =
    some me.account := by
  unfold operator at hme
  obtain ⟨a, ha, hme⟩ := Option.bind_eq_some_iff.mp hme
  obtain ⟨account, haccount, hme⟩ := Option.bind_eq_some_iff.mp hme
  have hsame := Option.some.inj hme
  refine ⟨a, ha, congrArg Operator.role hsame, ?_⟩
  rw [haccount, ← congrArg Operator.account hsame]

theorem creditOf_eq {a : Admin} {id : AdminId} (ha : s.base.admins.get? id = some a) :
    s.creditOf id = a.credit := by
  rw [creditOf, ha]
  rfl

/-! ## The quote -/

theorem wp_quoteResellerPlan (hme : s.operator me.id = some me) :
    Prog.wp (quoteResellerPlan me.actor planId)
      (fun q _ => s.Offers me.actor planId q.plan ∧ q.price = q.plan.price ∧
        (q.blockers = [] ↔ s.Eligible me planId q.plan))
      (fun _ _ => ∀ plan, ¬s.Offers me.actor planId plan) s := by
  unfold quoteResellerPlan
  rw [wp_bind]
  refine wp_planFor (fun plan hoffers => ?_) fun _ hnone => hnone
  rw [wp_bind]
  refine wp_account hme ?_
  rw [wp_bind, wp_read, wp_bind, lift, wp_zoom, Db.read, wp_query]
  refine (wp_pure _).mpr ⟨hoffers, rfl, ?_⟩
  dsimp only
  by_cases hrole : me.role = .owner
  · rw [if_pos hrole]
    exact ⟨fun h => absurd h (List.cons_ne_nil _ _), fun h => absurd hrole h.reseller⟩
  rw [if_neg hrole, List.append_eq_nil_iff]
  have hshortage : ∀ text :
      String, (if (decide (me.role ≠ .owner) &&
        !(decide ((plan.price : ℤ) ≤ 0) ||
          decide (-(s.base.creditLimit : ℤ) ≤ s.creditOf me.id - plan.price))) then
            [text] else []) = [] ↔ (0 < plan.price →
              -(s.base.creditLimit : ℤ) ≤ s.creditOf me.id - plan.price) := by
    intro text
    rw [ite_eq_right_iff, ← not_iff_not]
    simp [hrole]
  constructor
  · exact fun h => ⟨hrole, hoffers, h.1, (hshortage _).mp h.2⟩
  · exact fun h => ⟨h.free, (hshortage _).mpr h.affordable⟩

/-! ## The purchase -/

/-- The wallet after a charge; roles and the rest of the wallets stay. -/
structure Paid (w : World) (id : AdminId) (price : ℤ) (w' : World) : Prop where
  now : w'.now = w.now
  roles : ∀ i, (w'.admins.get? i).map Admin.role = (w.admins.get? i).map Admin.role
  credit : ∀ i, (w'.admins.get? i).map Admin.credit =
    (w.admins.get? i).map fun a => if i = id then a.credit - price else a.credit

theorem Paid.free (w : World) (id : AdminId) : Paid w id 0 w where
  now := rfl
  roles _ := rfl
  credit i := by
    congr 1
    funext a
    rw [Int.sub_zero, ite_self]

theorem Paid.logged {w w' w'' : World} {id : AdminId} {price : ℤ} (h : Paid w id price w')
    (hl : Logged w' w'') : Paid w id price w'' := by
  have hnow : w''.now = w'.now := hl.same World.now fun _ => rfl
  have hadmins : w''.admins = w'.admins := hl.same World.admins fun _ => rfl
  exact ⟨hnow.trans h.now, fun i => hadmins ▸ h.roles i, fun i => hadmins ▸ h.credit i⟩

/-- A charge within the credit limit. -/
theorem wp_chargeWallet {a : Admin} {target : Actor} {price : ℕ} {ref : TxRef}
    {by' : Option AdminId} (ha : w.admins.get? target.id = some a) (hrole : target.role ≠ .owner)
    (hprice : 0 < price)
    {Q : Option (WalletTx AdminId) → World → Prop} {E : AppError → World → Prop}
    (hQ : ∀ tx w', -(w.creditLimit : ℤ) ≤ a.credit - price → Paid w target.id price w' → Q tx w')
    (hE : ∀ e, ¬-(w.creditLimit : ℤ) ≤ a.credit - price → E e w) :
    Prog.wp (chargeWallet target (-(price : ℤ)) .purchase ref by' false) Q E w := by
  unfold chargeWallet
  rw [if_neg (by simp [hrole]), if_neg (by omega), debitLimit, if_pos (by simp; omega)]
  simp only [wp_bind, Db.read, wp_query, ha]
  split
  · next hshort =>
    refine (wp_throw _).mpr (hE _ ?_)
    simp only [Option.any_some, decide_eq_true_eq] at hshort
    omega
  · next hcovered =>
    simp only [Option.any_some, decide_eq_true_eq] at hcovered
    have hpaid : ∀ rows, Paid w target.id price { w with
        admins := w.admins.modify target.id fun a' => { a' with credit := a.credit + -(price : ℤ) }
        walletTxs := rows } := by
      intro rows
      refine ⟨rfl, fun i => ?_, fun i => ?_⟩
      · rw [Table.get?_modify]
        split
        · next hi => rw [hi, ha]; rfl
        · rfl
      · rw [Table.get?_modify]
        split
        · next hi => rw [hi, ha, Option.map_some, Option.map_some, Option.map_some,
          Int.sub_eq_add_neg]
        · rfl
    simp only [wp_bind, commitCharge, wp_step, ha]
    have hframe := (alertAfter_keeps_logged
      ⟨target.id, .purchase, -price, a.credit + -price, ref, by'⟩).wp Logged.refl
        (fun _ _ _ h h' => h'.trans h)
    have hreturns := (alertAfter_returns ⟨target.id, .purchase, -price, a.credit + -price,
      ref, by'⟩).wp
    refine wp_mono _ (wp_and (hframe _) (hreturns _)) (fun _ w' h => ?_) fun _ _ h => h.2.elim
    refine (wp_pure _).mpr (hQ _ w' (by omega) (Paid.logged (hpaid _) h.1))

/-- The charge for a package goes through if the wallet covers it and the new figures fit. -/
theorem wp_chargeColumns {a : Admin} (ha : s.base.admins.get? me.id = some a)
    (hrole : me.role ≠ .owner) {Q : Option (WalletTx AdminId) → Site → Prop}
    {E : AppError → Site → Prop}
    (hQ : ∀ tx w', (0 < plan.price → -(s.base.creditLimit : ℤ) ≤ s.creditOf me.id - plan.price) →
      (0 < plan.price → chargeFits (s.creditOf me.id) plan.price) →
      Paid s.base me.id plan.price w' →
      Q tx { s with base := w' })
    (hE : ∀ e w', 0 < plan.price → ¬(-(s.base.creditLimit : ℤ) ≤ s.creditOf me.id - plan.price ∧
      chargeFits (s.creditOf me.id) plan.price) → E e { s with base := w' }) :
    Prog.wp (chargeColumns me.actor me.actor plan) Q E s := by
  have hcredit : s.creditOf me.id = a.credit := creditOf_eq ha
  unfold chargeColumns
  rw [wp_bind, wp_read, wp_bind, lift, wp_zoom, Db.read, wp_query, wp_bind, wp_refuseIf]
  split
  · next hoverflow =>
    simp only [Bool.and_eq_true, decide_eq_true_eq, Bool.not_eq_true'] at hoverflow
    refine hE _ s.base hoverflow.1.1 fun h => ?_
    have hfits := h.2
    rw [show s.creditOf me.id = s.creditOf me.actor.id from rfl] at hfits
    rw [hoverflow.2] at hfits
    cases hfits
  next hfits =>
  simp only [Bool.and_eq_true, decide_eq_true_eq, Bool.not_eq_true', not_and,
    Bool.not_eq_false] at hfits
  unfold chargePlan
  by_cases hprice : 0 < plan.price
  · rw [if_pos hprice, lift, wp_zoom]
    refine wp_chargeWallet ha hrole hprice (fun tx w' hlimit hpaid => ?_) fun e hshort => ?_
    · rw [← hcredit] at hlimit
      exact hQ tx w' (fun _ => hlimit) (fun _ => hfits ⟨hprice, hlimit⟩) hpaid
    · rw [← hcredit] at hshort
      exact hE e s.base hprice fun h => hshort h.1
  · rw [if_neg hprice]
    have hzero : plan.price = 0 := by omega
    refine (wp_pure _).mpr (hQ none s.base (fun h => absurd h hprice) (fun h => absurd h hprice) ?_)
    rw [hzero]
    exact Paid.free s.base me.id

/-- What is left to do after the grant only writes to the journal. -/
theorem wp_announce {r : ResellerPlanPurchase} {action kind : String} {id : Option AdminId}
    {Q : ResellerPlanPurchase → Site → Prop} {E : AppError → Site → Prop}
    (hQ : ∀ w', Logged s.base w' → Q r { s with base := w' }) :
    Prog.wp (do
      lift (audit id action)
      lift (notify kind)
      pure r) Q E s := by
  have haudit := (audit_keeps_logged id action).wp Logged.refl (fun _ _ _ h h' => h'.trans h)
  have hnotify := (notify_keeps_logged kind).wp Logged.refl (fun _ _ _ h h' => h'.trans h)
  rw [wp_bind, lift, wp_zoom]
  refine wp_mono _ (wp_and (haudit _) ((audit_returns id action).wp _)) (fun _ w h => ?_)
    fun _ _ h => h.2.elim
  rw [wp_bind, lift, wp_zoom]
  refine wp_mono _ (wp_and (hnotify _) ((notify_returns kind).wp _)) (fun _ w' h' => ?_)
    fun _ _ h => h.2.elim
  exact (wp_pure _).mpr (hQ w' (h'.1.trans h.1))

theorem wp_trivial {α : Type} (p : Task α) {Q : α → Site → Prop} {E : AppError → Site → Prop}
    (hQ : ∀ a t, Q a t) (hE : ∀ e t, E e t) : Prog.wp p Q E s :=
  wp_mono p ((wp_store_iff (P := fun _ => True) p).mpr trivial) (fun a t _ => hQ a t) fun e t _ =>
  hE e t

/-- The site after the charge, the grant and what is written after them. -/
theorem Paid.bought {a : Admin} {price : ℤ} {w' : World} {deliveries : Deliveries}
    (ha : s.base.admins.get? me.id = some a) (haccount : s.accounts.get? me.id = some me.account)
    (hblock : planBlockers me.account plan = []) (hpaid : Paid s.base me.id price w') :
    s.Bought me plan price { s with
      base := w'
      accounts := s.accounts.modify me.id (grantData me.account plan s.base.now).apply
      deliveries := deliveries } where
  credit := by
    rw [creditOf_eq ha, creditOf, hpaid.credit, ha, Option.map_some, if_pos rfl, Option.getD_some]
  account := by
    dsimp only
    rw [Table.get?_modify_self, haccount, Option.map_some, grantData_apply_self _ hblock]
  others id hne := by
    refine ⟨?_, Table.get?_modify_of_ne _ _ hne⟩
    have hcredit := hpaid.credit id
    simp only [if_neg hne] at hcredit
    rw [creditOf, creditOf, hcredit]

/-- The grant that follows the charge goes through if its figures fit. -/
theorem wp_grantColumns {tx : Option (WalletTx AdminId)} {w' : World}
    (hme : s.operator me.id = some me) (heligible : s.Eligible me planId plan)
    (hcharge : 0 < plan.price → chargeFits (s.creditOf me.id) plan.price)
    (hpaid : Paid s.base me.id plan.price w') {Q : ResellerPlanPurchase → Site → Prop}
    {E : AppError → Site → Prop}
    (hQ : ∀ r s', s.Fits me plan → s.Bought me plan (plan.price : ℤ) s' →
      r.plan = plan ∧ r.charged = (plan.price : ℤ) → Q r s')
    (hE : ∀ e s', ¬(grantData me.account plan s.base.now).fits → E e s') :
    Prog.wp (do
      let t ← now
      let updated ← grantColumns me.actor me plan tx t
      lift (audit (some me.actor.id) "resellerPlan.buy")
      lift (notify "wallet.reseller_plan")
      pure (⟨plan, plan.price, updated.2, updated.1.trafficQuota, updated.1.clientLimit,
        updated.1.expiresAt⟩ : ResellerPlanPurchase)) Q E { s with base := w' } := by
  obtain ⟨a, ha, -, haccount⟩ := operator_eq hme
  rw [wp_bind, now, wp_read, wp_bind]
  dsimp only
  rw [hpaid.now, grantColumns, wp_attempt, wp_bind, wp_refuseIf]
  split
  · next hnot =>
    have hnot : ¬(grantData me.account plan s.base.now).fits := by simpa using hnot
    rw [wp_bind]
    exact wp_trivial _ (fun _ t => (wp_throw _).mpr (hE _ t hnot)) fun e t => hE e t hnot
  next hfits =>
  have hfits : (grantData me.account plan s.base.now).fits := by simpa using hfits
  obtain ⟨a', ha', -⟩ := Option.map_eq_some_iff.mp
    ((hpaid.roles me.id).trans (by rw [ha, Option.map_some]))
  have hfound : Site.operator { s with base := w' } me.id = some ⟨me.id, a'.role, me.account⟩ := by
    rw [operator, ha', haccount]
    rfl
  rw [updateAccount, wp_step]
  simp only [hfound]
  refine wp_announce fun w'' hlogged => ?_
  have hall : s.Fits me plan := fits_iff.mpr ⟨hcharge, hfits⟩
  exact hQ _ _ hall (Paid.bought ha haccount heligible.free (hpaid.logged hlogged)) ⟨rfl, rfl⟩

/-- A purchase succeeds if nothing is against it and the figures fit, and no other one does. -/
theorem wp_buyResellerPlanColumns (hme : s.operator me.id = some me) :
    Prog.wp (buyResellerPlanColumns me.actor planId)
      (fun r s' => s.Eligible me planId r.plan ∧ s.Fits me r.plan ∧ r.charged = (r.plan.price : ℤ) ∧
        s.Bought me r.plan r.charged s')
      (fun _ _ => ∀ plan, s.Eligible me planId plan → ¬s.Fits me plan) s := by
  obtain ⟨a, ha, -, haccount⟩ := operator_eq hme
  unfold buyResellerPlanColumns
  rw [wp_bind, wp_refuseIf]
  split
  · next howner => exact fun plan h => absurd (of_decide_eq_true howner) h.reseller
  next hrole =>
  have hrole : me.role ≠ .owner := fun h => hrole (decide_eq_true h)
  rw [wp_bind]
  refine wp_planFor (fun plan hoffers => ?_) fun _ hnone plan h => absurd h.offers (hnone plan)
  have hplan : ∀ {plan'}, s.Eligible me planId plan' → plan' = plan := fun h =>
    Option.some.inj (h.offers.found.symm.trans hoffers.found)
  rw [wp_bind]
  refine wp_account hme ?_
  cases hblock : planBlockers me.account plan with
  | cons blocker rest =>
    refine (wp_throw _).mpr fun plan' h => ?_
    rw [hplan h] at h
    rw [h.free] at hblock
    cases hblock
  | nil =>
    dsimp only
    rw [wp_bind]
    refine wp_chargeColumns ha hrole
      (fun tx w' hlimit hcharge hpaid => ?_) fun e w' hprice hnot plan' h hfits => ?_
    · have hpurchase : s.Eligible me planId plan := ⟨hrole, hoffers, hblock, hlimit⟩
      exact wp_grantColumns hme hpurchase hcharge hpaid
        (fun r s' hfits hbought hr => by rw [hr.2, hr.1]; exact ⟨hpurchase, hfits, rfl, hbought⟩)
        fun e s' hnot plan' h hfits => hnot (fits_iff.mp (hplan h ▸ hfits)).2
    · obtain rfl := hplan h
      exact hnot ⟨h.affordable hprice, hfits.charge hprice⟩

/-! ## The purchase without the columns

A purchase whose figures fit is the one of `buyResellerPlan`.
-/

theorem refuseIf_false {e : AppError} : refuseIf false e = pure () := rfl

theorem chargeColumns_run {actor target : Actor}
    (hfits : 0 < plan.price → chargeFits (s.creditOf target.id) plan.price) :
    (chargeColumns actor target plan).run s = (chargePlan actor target plan).run s := by
  unfold chargeColumns
  have hopen : ∀ limit : ℕ,
      (decide (0 < plan.price) && decide (-(limit : ℤ) ≤ s.creditOf target.id - plan.price) &&
        !chargeFits (s.creditOf target.id) plan.price) = false := by
    intro limit
    by_cases hprice : 0 < plan.price
    · rw [hfits hprice, Bool.not_true, Bool.and_false]
    · rw [decide_eq_false hprice, Bool.false_and, Bool.false_and]
  rw [run_bind, read, run_query]
  dsimp only
  rw [run_bind, lift, Db.read, run_zoom, run_query]
  dsimp only
  rw [hopen, refuseIf_false]
  rfl

theorem grantColumns_eq {actor : Actor} {tx : Option (WalletTx AdminId)} {t : ℤ}
    (hfits : (grantData me.account plan t).fits) :
    grantColumns actor me plan tx t = grantPlan actor me plan tx t := by
  unfold grantColumns grantPlan
  dsimp only
  rw [hfits, Bool.not_true, refuseIf_false]
  rfl

/-- Runs that go the same way up to a step and from every state that this step can leave. -/
theorem run_bind_congr {α β : Type} {p : Task α} {f g : α → Task β} {Q : α → Site → Prop}
    (hp : Prog.wp p Q (fun _ _ => True) s) (h : ∀ a s', Q a s' → (f a).run s' = (g a).run s') :
    (p >>= f).run s = (p >>= g).run s := by
  rw [run_bind, run_bind]
  unfold Prog.wp at hp
  revert hp
  rcases p.run s with ⟨r, s'⟩
  intro hp
  cases r with
  | ok a => exact h a s' hp
  | error e => rfl

/-- A purchase whose figures fit goes on the columns as it goes without them. -/
theorem buyResellerPlanColumns_run (hme : s.operator me.id = some me)
    (hfits : ∀ plan, s.Offers me.actor planId plan → s.Fits me plan) :
    (buyResellerPlanColumns me.actor planId).run s = (buyResellerPlan me.actor planId).run s := by
  obtain ⟨a, ha, -, -⟩ := operator_eq hme
  unfold buyResellerPlanColumns buyResellerPlan
  refine run_bind_congr (Q := fun _ s' => s = s' ∧ me.role ≠ .owner) ?_ ?_
  · rw [wp_refuseIf]
    split
    · trivial
    · next hrole => exact ⟨rfl, fun h => hrole (decide_eq_true h)⟩
  rintro _ _ ⟨rfl, hrole⟩
  refine run_bind_congr (Q := fun plan s' => s = s' ∧ s.Fits me plan) ?_ ?_
  · exact wp_planFor (fun plan hoffers => ⟨rfl, hfits plan hoffers⟩) fun _ _ => trivial
  rintro plan _ ⟨rfl, hfits⟩
  refine run_bind_congr (Q := fun me' s' => s = s' ∧ me = me') (wp_account hme ⟨rfl, rfl⟩) ?_
  rintro _ _ ⟨rfl, rfl⟩
  cases planBlockers me.account plan with
  | cons blocker rest => rfl
  | nil =>
  dsimp only
  obtain ⟨hcharge, hgrant⟩ := fits_iff.mp hfits
  have hhead : ∀ {α : Type} {f : Option (WalletTx AdminId) → Task α},
      (chargePlan me.actor me.actor plan >>= f).run s =
      (chargeColumns me.actor me.actor plan >>= f).run s := by
    intro α f
    have hrun : (chargeColumns me.actor me.actor plan).run s = _ := chargeColumns_run hcharge
    simp only [run_bind, hrun]
  refine Eq.trans ?_ hhead.symm
  refine run_bind_congr (Q := fun _ s' => s'.base.now = s.base.now) ?_ ?_
  · exact wp_chargeColumns ha hrole (fun _ _ _ _ hpaid => hpaid.now) fun _ _ _ _ => trivial
  intro tx s' hnow
  refine run_bind_congr (Q := fun t _ => t = (s.base.now : ℤ)) ?_ ?_
  · rw [now, wp_read, hnow]
  rintro _ _ rfl
  rw [grantColumns_eq hgrant]

/-! ## The quote and the purchase -/

/-- The quote has no blocker exactly if the purchase succeeds, which then charges the quoted price
and adds the quoted package to the account. -/
def QuoteMirrors (s : Site) (me : Operator) (planId : String) : Prop :=
  ((∃ q, ((quoteResellerPlan me.actor planId).run s).1 = .ok q ∧ q.blockers = []) ↔
      ∃ r, ((buyResellerPlanColumns me.actor planId).run s).1 = .ok r) ∧
    ∀ q r, ((quoteResellerPlan me.actor planId).run s).1 = .ok q →
      ((buyResellerPlanColumns me.actor planId).run s).1 = .ok r →
        r.charged = q.price ∧ s.Bought me q.plan q.price
          ((buyResellerPlanColumns me.actor planId).run s).2

/-- The result of a run satisfies the postcondition. -/
theorem wp_ok {α : Type} {p : Task α} {Q : α → Site → Prop} {E : AppError → Site → Prop} {a : α}
    (h : Prog.wp p Q E s) (ha : (p.run s).1 = .ok a) : Q a (p.run s).2 := by
  unfold Prog.wp at h
  revert h ha
  rcases p.run s with ⟨r, s'⟩
  intro h ha
  obtain rfl : r = .ok a := ha
  exact h

theorem wp_error {α : Type} {p : Task α} {Q : α → Site → Prop} {E : AppError → Site → Prop}
    {e : AppError} (h : Prog.wp p Q E s) (he : (p.run s).1 = .error e) : E e (p.run s).2 := by
  unfold Prog.wp at h
  revert h he
  rcases p.run s with ⟨r, s'⟩
  intro h he
  obtain rfl : r = .error e := he
  exact h

theorem Offers.plan_eq {actor : Actor} {plan' : ResellerPlan} (h : s.Offers actor planId plan)
    (h' : s.Offers actor planId plan') :
    plan = plan' := Option.some.inj (h.found.symm.trans h'.found)

/-- A quote without a blocker is one for a purchase that nothing is against. -/
theorem quote_iff (hme : s.operator me.id = some me) :
    (∃ q, ((quoteResellerPlan me.actor planId).run s).1 = .ok q ∧ q.blockers = []) ↔
      ∃ plan, s.Eligible me planId plan := by
  have hwp := @wp_quoteResellerPlan s me planId hme
  constructor
  · rintro ⟨q, hq, hnone⟩
    exact ⟨q.plan, (wp_ok hwp hq).2.2.mp hnone⟩
  · rintro ⟨plan, h⟩
    cases hrun : ((quoteResellerPlan me.actor planId).run s).1 with
    | error e => exact absurd h.offers (wp_error hwp hrun plan)
    | ok q =>
      obtain ⟨hoffers, -, hiff⟩ := wp_ok hwp hrun
      rw [h.offers.plan_eq hoffers] at h
      exact ⟨q, rfl, hiff.mpr h⟩

/-- The purchase succeeds exactly if nothing is against it and its figures fit. -/
theorem buy_iff (hme : s.operator me.id = some me) :
    (∃ r, ((buyResellerPlanColumns me.actor planId).run s).1 = .ok r) ↔
      ∃ plan, s.Eligible me planId plan ∧ s.Fits me plan := by
  have hwp := @wp_buyResellerPlanColumns s me planId hme
  constructor
  · rintro ⟨r, hr⟩
    obtain ⟨heligible, hfits, -⟩ := wp_ok hwp hr
    exact ⟨r.plan, heligible, hfits⟩
  · rintro ⟨plan, heligible, hfits⟩
    cases hrun : ((buyResellerPlanColumns me.actor planId).run s).1 with
    | error e => exact absurd hfits (wp_error hwp hrun plan heligible)
    | ok r => exact ⟨r, rfl⟩

/-- Whatever is bought is what was quoted. -/
theorem bought_as_quoted (hme : s.operator me.id = some me) {q : ResellerPlanQuote}
    {r : ResellerPlanPurchase} (hq : ((quoteResellerPlan me.actor planId).run s).1 = .ok q)
    (hr : ((buyResellerPlanColumns me.actor planId).run s).1 = .ok r) :
    r.charged = q.price ∧ s.Bought me q.plan q.price
      ((buyResellerPlanColumns me.actor planId).run s).2 := by
  obtain ⟨hoffers, hprice, -⟩ := wp_ok (wp_quoteResellerPlan hme) hq
  obtain ⟨heligible, -, hcharged, hbought⟩ := wp_ok (wp_buyResellerPlanColumns hme) hr
  have hplan : r.plan = q.plan := heligible.offers.plan_eq hoffers
  have hsame : r.charged = q.price := by rw [hcharged, hprice, hplan]
  exact ⟨hsame, hsame ▸ hplan ▸ hbought⟩

/-- The quote mirrors the purchase exactly if the figures of a purchase that nothing is against fit
their columns. -/
theorem reseller_quote_mirrors_iff (s : Site) (me : Operator) (planId : String)
    (hme : s.operator me.id = some me) : s.QuoteMirrors me planId ↔
    ∀ plan, s.Eligible me planId plan → s.Fits me plan := by
  unfold QuoteMirrors
  rw [quote_iff hme, buy_iff hme]
  constructor
  · rintro ⟨hiff, -⟩ plan h
    obtain ⟨plan', h', hfits⟩ := hiff.mp ⟨plan, h⟩
    rwa [h.offers.plan_eq h'.offers]
  · intro hfits
    refine ⟨⟨?_, ?_⟩, fun q r hq hr => bought_as_quoted hme hq hr⟩
    · rintro ⟨plan, h⟩
      exact ⟨plan, h, hfits plan h⟩
    · rintro ⟨plan, h, -⟩
      exact ⟨plan, h⟩

theorem reseller_quote_mirrors_shop :
    packageShop.QuoteMirrors ⟨2, .admin, packageAccount⟩ "g" ↔
      ∀ plan, packageShop.Eligible ⟨2, .admin, packageAccount⟩ "g" plan →
        packageShop.Fits ⟨2, .admin, packageAccount⟩ plan :=
  reseller_quote_mirrors_iff packageShop ⟨2, .admin, packageAccount⟩ "g" rfl

/-- The shop with a package of three billion client slots. -/
def crowdedShop : Site :=
  { packageShop with resellerPlans := ⟨true, [⟨"c", "slots", 0, 0, 3000000000, 100, true, []⟩]⟩ }

/-- The quote has nothing against this package, and the purchase fails. -/
theorem crowded_reseller_quote_unmirrored :
    crowdedShop.operator 2 = some ⟨2, .admin, packageAccount⟩ ∧
      ¬crowdedShop.QuoteMirrors ⟨2, .admin, packageAccount⟩ "c" := by
  refine ⟨rfl, ?_⟩
  rintro ⟨hiff, -⟩
  rw [quote_iff rfl, buy_iff rfl] at hiff
  have heligible : crowdedShop.Eligible ⟨2, .admin, packageAccount⟩ "c"
      ⟨"c", "slots", 0, 0, 3000000000, 100, true, []⟩ :=
    ⟨by decide, ⟨by decide, by decide⟩, by decide, by decide⟩
  obtain ⟨plan, h, hfits⟩ := hiff.mp ⟨_, heligible⟩
  obtain rfl := h.offers.plan_eq heligible.offers
  exact absurd (hfits.slots (by decide) 5 rfl) (by decide)

end Site

end SRPanel
