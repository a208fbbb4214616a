import SRPanel.Delivery.Repeats
import SRPanel.Shop.Shelf

/-!
# The caps of a shop

The stock of a plan and its cap per customer are compared when an order is placed; the orders are
counted when they are paid and delivered. So an order that is delivered in the call that places it
stays within the caps, and so does any other whose payment or delivery still finds room. The uses of
a discount are counted with the order itself.
-/

namespace SRPanel

open Interleaving Prog

/-- What the caps know of an order. -/
structure OrderView where
  adminId : AdminId
  status : OrderStatus
  planId : Option PlanId
  customerId : Option CustomerId
  code : Option String

namespace Storefront

/-! ## The caps -/

/-- The options of a plan in the catalogue of its seller, when that is on. -/
def limits (t : Storefront) (planId : PlanId) : Option StorePlanOptions :=
  (t.site.plans.get? planId).bind fun p => t.optionsOf p.adminId planId

/-- The fulfilled orders of a plan. -/
def fulfilled (t : Storefront) (planId : PlanId) : ℕ :=
  t.countOrders planId fun status _ => status = .fulfilled

/-- The orders with the code of a discount. -/
def coded (t : Storefront) (key : AdminId × String) (p : OrderStatus → Bool) : ℕ :=
  (t.site.base.orders.rows.filter fun r => r.2.adminId = key.1 &&
    ((t.columns.get? r.1).bind OrderColumns.discountCode) = some key.2 && p r.2.status).length

/-- No plan is sold more often than it is in stock, no customer has more paid orders of a plan than
the cap, and no discount is on more paid orders than it has uses. -/
structure CapsHold (t : Storefront) : Prop where
  stock : ∀ k o, t.limits k = some o → 0 < o.stock → t.fulfilled k ≤ o.stock
  perCustomer : ∀ k o, t.limits k = some o → 0 < o.perCustomer → ∀ c, t.bought k c ≤ o.perCustomer
  maxUses : ∀ key d n, t.discounts.get? key = some d → d.maxUses = some n → t.coded key isBought ≤ n

/-- A discount has counted the orders with its code, and no more than it has uses. -/
structure UsesCounted (t : Storefront) : Prop where
  uses : ∀ key d, t.discounts.get? key = some d → t.coded key (fun _ => true) ≤ d.uses
  within : ∀ key d n, t.discounts.get? key = some d → d.maxUses = some n → d.uses ≤ n

/-- The caps hold, and the counters count: those of the discounts, and those of the plans. -/
structure Sound (t : Storefront) : Prop extends CapsHold t, UsesCounted t where
  sold : ∀ k, (t.site.plans.get? k).isSome → t.fulfilled k ≤ t.site.sold k

/-! ## Counting orders -/

section

variable {t t' : Storefront} {id : OrderId}

/-- The columns of an order that the caps count by. -/
def viewOf (t : Storefront) (id : OrderId) (o : Order) : OrderView where
  adminId := o.adminId
  status := o.status
  planId := (t.site.orderInfo.get? id).bind OrderInfo.planId
  customerId := (t.site.orderInfo.get? id).bind OrderInfo.customerId
  code := (t.columns.get? id).bind OrderColumns.discountCode

/-- Those of the order with this id, if there is one. -/
def view (t : Storefront) (id : OrderId) : Option OrderView :=
  (t.site.base.orders.get? id).map (t.viewOf id)

/-- The orders of which something holds. -/
def count (t : Storefront) (p : OrderView → Bool) : ℕ :=
  (t.site.base.orders.rows.filter fun r => p (t.viewOf r.1 r.2)).length

theorem countOrders_eq_count (t : Storefront) (k : PlanId)
    (p : OrderStatus → Option CustomerId → Bool) : t.countOrders k p = t.count fun v =>
      v.planId = some k && p v.status v.customerId := by
  refine congrArg List.length (List.filter_congr fun r _ => ?_)
  cases hinfo : t.site.orderInfo.get? r.1 with
  | none => simp [viewOf, hinfo]
  | some i => simp [viewOf, hinfo]

theorem coded_eq_count (t : Storefront) (key : AdminId × String) (p : OrderStatus → Bool) :
    t.coded key p = t.count fun v => v.adminId = key.1 && v.code = some key.2 && p v.status := rfl

/-- A call about one order, as the counts see it. -/
structure Turn (id : OrderId) (t t' : Storefront) : Prop where
  orders : ∀ k, k ≠ id → t'.site.base.orders.get? k = t.site.base.orders.get? k
  info : ∀ k, k ≠ id → t'.site.orderInfo.get? k = t.site.orderInfo.get? k
  columns : ∀ k, k ≠ id → t'.columns.get? k = t.columns.get? k
  plans : ∀ k, (t'.site.plans.get? k).map Plan.adminId = (t.site.plans.get? k).map Plan.adminId
  catalogs : t'.catalogs = t.catalogs
  sold : ∀ k, t.site.sold k ≤ t'.site.sold k

/-- A count changes by the one order that the call is about. -/
theorem Turn.count_add (h : Turn id t t') (p : OrderView → Bool) :
    t'.count p + (if (t.view id).any p then 1 else 0) = t.count p + if (t'.view id).any p then
      1 else 0 := by
  have hothers : (t.site.base.orders.rows.filter fun e =>
      p (t'.viewOf e.1 e.2) && decide (e.1 ≠ id)).length = (t.site.base.orders.rows.filter fun e =>
        p (t.viewOf e.1 e.2) && decide (e.1 ≠ id)).length := by
    refine congrArg List.length (List.filter_congr fun e _ => ?_)
    by_cases hk : e.1 = id
    · simp [hk]
    · have hview : t'.viewOf e.1 e.2 = t.viewOf e.1 e.2 := by
        rw [viewOf, viewOf, h.info _ hk, h.columns _ hk]
      rw [hview]
  have hcount := Table.length_filter_of_agree h.orders fun e => p (t'.viewOf e.1 e.2)
  have hcount₀ := Table.length_filter_of_agree (fun k (_ : k ≠ id) => rfl : ∀ k, k ≠ id →
    t.site.base.orders.get? k = t.site.base.orders.get? k) fun e => p (t.viewOf e.1 e.2)
  simp only [count, view, Option.any_map]
  dsimp only at hcount hcount₀
  rw [hcount, hcount₀, hothers]
  omega

/-- A count of which the order was already part, or is not now, does not grow. -/
theorem Turn.count_le (h : Turn id t t') (p : OrderView → Bool)
    (hp : ∀ v', t'.view id = some v' → p v' → ∃ v, t.view id = some v ∧ p v) :
    t'.count p ≤ t.count p := by
  have hadd := h.count_add p
  by_cases hnew : (t'.view id).any p = true
  · obtain ⟨v', hv', hpv'⟩ := (Option.any_eq_true _ _).mp hnew
    obtain ⟨v, hv, hpv⟩ := hp v' hv' hpv'
    have hold : (t.view id).any p = true := (Option.any_eq_true _ _).mpr ⟨v, hv, hpv⟩
    rw [if_pos hnew, if_pos hold] at hadd
    omega
  · rw [if_neg hnew] at hadd
    omega

theorem Turn.count_le_succ (h : Turn id t t') (p : OrderView → Bool) :
    t'.count p ≤ t.count p + 1 := by
  have hadd := h.count_add p
  split at hadd <;> split at hadd <;> omega

/-- A count grows at most by one, and only if the order is new to it. -/
theorem Turn.count_cases (h : Turn id t t') (p : OrderView → Bool) {C : Prop}
    (hnew : ∀ v', t'.view id = some v' → p v' → (∃ v, t.view id = some v ∧ p v) ∨ C) :
    t'.count p ≤ t.count p ∨ C ∧ t'.count p ≤ t.count p + 1 := by
  by_cases hC : C
  · exact .inr ⟨hC, h.count_le_succ p⟩
  · refine .inl (h.count_le p fun v' hv' hp => ?_)
    exact (hnew v' hv' hp).resolve_right hC

theorem Turn.limits (h : Turn id t t') (k : PlanId) : t'.limits k = t.limits k := by
  have hplan := h.plans k
  unfold Storefront.limits optionsOf
  rw [h.catalogs]
  cases hp : t.site.plans.get? k with
  | none =>
      rw [hp, Option.map_none, Option.map_eq_none_iff] at hplan
      rw [hplan]
  | some p =>
      rw [hp] at hplan
      obtain ⟨p', hp', heq⟩ := Option.map_eq_some_iff.mp hplan
      rw [hp', Option.bind_some, Option.bind_some, heq]

/-! ## Room -/

/-- The stock has room for one more fulfilled order of a plan. -/
def StockRoom (t : Storefront) (planId : Option PlanId) : Prop :=
  ∀ k o, planId = some k → t.limits k = some o → 0 < o.stock → t.fulfilled k < o.stock

/-- The cap of a plan has room for one more paid order of a customer. -/
def CustomerRoom (t : Storefront) (planId : Option PlanId)
    (customerId : Option CustomerId) : Prop :=
  ∀ k c o, planId = some k → customerId = some c → t.limits k = some o → 0 < o.perCustomer →
    t.bought k c < o.perCustomer

/-- The paid orders with the code of a discount are among all of them. -/
theorem UsesCounted.maxUses (h : t.UsesCounted) {key : AdminId × String} {d : Discount} {n : ℕ}
    (hd : t.discounts.get? key = some d) (hn : d.maxUses = some n) : t.coded key isBought ≤ n := by
  refine le_trans ?_ ((h.uses key d hd).trans (h.within key d n hd hn))
  rw [coded_eq_count, coded_eq_count]
  refine (List.monotone_filter_right _ fun r hr => ?_).length_le
  simp only [Bool.and_eq_true] at hr ⊢
  exact ⟨hr.1, trivial⟩

/-- What keeps a shop sound: an order that becomes fulfilled finds room in the stock and is counted
by its plan, and one that becomes paid finds room under the cap of its customer. -/
theorem Sound.turn (hs : t.Sound) (h : Turn id t t')
    (hfulfilled : ∀ v', t'.view id = some v' → v'.status = .fulfilled →
      (∃ v, t.view id = some v ∧ v.status = .fulfilled ∧ v.planId = v'.planId) ∨
      t.StockRoom v'.planId ∧ ∀ k, v'.planId = some k → (t.site.plans.get? k).isSome →
        t.site.sold k < t'.site.sold k)
    (hbought : ∀ v', t'.view id = some v' → isBought v'.status →
      (∃ v, t.view id = some v ∧ isBought v.status ∧ v.planId = v'.planId ∧
        v.customerId = v'.customerId) ∨
      t.CustomerRoom v'.planId v'.customerId)
    (huses : t'.UsesCounted) : t'.Sound := by
  -- one order turns, so a count grows by one at most, and only with room
  have hfulfil : ∀ k, t'.fulfilled k ≤ t.fulfilled k ∨ (t.StockRoom (some k) ∧
      ((t.site.plans.get? k).isSome → t.site.sold k < t'.site.sold k)) ∧ t'.fulfilled k ≤
        t.fulfilled k + 1 := by
    intro k
    simp only [fulfilled, countOrders_eq_count]
    refine h.count_cases _ fun v' hv' hp => ?_
    simp only [Bool.and_eq_true, decide_eq_true_eq] at hp ⊢
    obtain ⟨hplan, hstatus⟩ := hp
    rcases hfulfilled v' hv' hstatus with ⟨v, hv, hstatus₀, hplan₀⟩ | ⟨hroom, hsold⟩
    · exact .inl ⟨v, hv, hplan₀.trans hplan, hstatus₀⟩
    · rw [hplan] at hroom
      exact .inr ⟨hroom, hsold k hplan⟩
  have hbuy : ∀ k c, t'.bought k c ≤ t.bought k c ∨
      t.CustomerRoom (some k) (some c) ∧ t'.bought k c ≤ t.bought k c + 1 := by
    intro k c
    simp only [bought, countOrders_eq_count]
    refine h.count_cases _ fun v' hv' hp => ?_
    simp only [Bool.and_eq_true, decide_eq_true_eq] at hp ⊢
    obtain ⟨hplan, hstatus, hcustomer⟩ := hp
    rcases hbought v' hv' hstatus with ⟨v, hv, hstatus₀, hplan₀, hcustomer₀⟩ | hroom
    · exact .inl ⟨v, hv, hplan₀.trans hplan, hstatus₀, hcustomer₀.trans hcustomer⟩
    · rw [hplan, hcustomer] at hroom
      exact .inr hroom
  refine ⟨⟨fun k o hlimit hpos => ?_, fun k o hlimit hpos c => ?_, fun key d n => huses.maxUses⟩,
    huses, fun k hplan => ?_⟩
  · rw [h.limits] at hlimit
    rcases hfulfil k with hle | ⟨⟨hroom, -⟩, hle⟩
    · exact hle.trans (hs.stock k o hlimit hpos)
    · exact hle.trans (hroom k o rfl hlimit hpos)
  · rw [h.limits] at hlimit
    rcases hbuy k c with hle | ⟨hroom, hle⟩
    · exact hle.trans (hs.perCustomer k o hlimit hpos c)
    · exact hle.trans (hroom k c o rfl rfl hlimit hpos)
  · have hplan₀ : (t.site.plans.get? k).isSome := by
      have hmap := congrArg Option.isSome (h.plans k)
      rw [Option.isSome_map, Option.isSome_map] at hmap
      exact hmap ▸ hplan
    have hle₀ := hs.sold k hplan₀
    rcases hfulfil k with hle | ⟨⟨-, hsold⟩, hle⟩
    · exact (hle.trans hle₀).trans (h.sold k)
    · have hlt := hsold hplan₀
      omega

/-! ## Orders that are there -/

/-- There is room for the payment and for the delivery of an order, as far as they are outstanding.
-/
def RoomFor (t : Storefront) (id : OrderId) : Prop :=
  ∀ v, t.view id = some v → (v.status ≠ .fulfilled → t.StockRoom v.planId) ∧
    (isBought v.status = false → t.CustomerRoom v.planId v.customerId)

section

variable {s' : Site}

theorem turn_of_handled (h : Site.Handled id t.site s') : Turn id t { t with site := s' } where
  orders := h.others
  info := h.otherInfo
  columns _ _ := rfl
  plans := h.plans
  catalogs := rfl
  sold := h.sold

/-- The order is as it was, but for its status. -/
theorem view_of_handled (h : Site.Handled id t.site s') {v' : OrderView}
    (hv' : ({ t with site := s' } : Storefront).view id = some v') :
    ∃ v, t.view id = some v ∧ v' = { v with status := v'.status } ∧ t.site.orderStatus id =
      some v.status ∧ s'.orderStatus id = some v'.status := by
  obtain ⟨o', ho', rfl⟩ := Option.map_eq_some_iff.mp hv'
  have hseller := h.seller
  rw [show s'.base.orders.get? id = some o' from ho'] at hseller
  obtain ⟨o, ho, hadmin⟩ := Option.map_eq_some_iff.mp hseller.symm
  have hbind : ∀ {α : Type} (g : Option PlanId × Option CustomerId → Option α),
      (s'.orderInfo.get? id).bind (fun i => g i.subject) =
        (t.site.orderInfo.get? id).bind fun i => g i.subject := by
    intro α g
    have hsubject := congrArg (fun x => Option.bind x g) h.subject
    rwa [Option.bind_map, Option.bind_map] at hsubject
  refine ⟨t.viewOf id o, by rw [view, ho]; rfl, ?_, by rw [Site.orderStatus, ho]; rfl, ?_⟩
  · have hplan := hbind Prod.fst
    have hcustomer := hbind Prod.snd
    refine OrderView.mk.injEq .. |>.mpr ⟨hadmin.symm, rfl, hplan, hcustomer, rfl⟩
  · rw [Site.orderStatus, show s'.base.orders.get? id = some o' from ho']
    rfl

/-- A call about an order that is there uses no discount. -/
theorem UsesCounted.of_handled (hs : t.UsesCounted) (h : Site.Handled id t.site s') :
    ({ t with site := s' } : Storefront).UsesCounted := by
  refine ⟨fun key d hd => le_trans ?_ (hs.uses key d hd), hs.within⟩
  rw [coded_eq_count, coded_eq_count]
  refine (turn_of_handled h).count_le _ fun v' hv' hp => ?_
  obtain ⟨v, hv, heq, -⟩ := view_of_handled h hv'
  refine ⟨v, hv, ?_⟩
  rw [heq] at hp
  exact hp

theorem Sound.of_handled (hs : t.Sound) (h : Site.Handled id t.site s')
    (hstock : s'.orderStatus id = some .fulfilled → t.site.orderStatus id ≠ some .fulfilled →
      ∀ v, t.view id = some v → t.StockRoom v.planId)
    (hcustomer : ∀ v v', t.view id = some v → isBought v.status = false →
      s'.orderStatus id = some v' →
    isBought v' →
      t.CustomerRoom v.planId v.customerId) : ({ t with site := s' } : Storefront).Sound := by
  refine hs.turn (turn_of_handled h) (fun v' hv' hdone => ?_) (fun v' hv' hpaid => ?_)
    (hs.toUsesCounted.of_handled h)
  · obtain ⟨v, hv, heq, hstatus, hstatus'⟩ := view_of_handled h hv'
    have hplan : v'.planId = v.planId := by rw [heq]
    rw [hdone] at hstatus'
    by_cases hbefore : v.status = .fulfilled
    · exact .inl ⟨v, hv, hbefore, hplan.symm⟩
    · have hnew : t.site.orderStatus id ≠ some .fulfilled := by
        rw [hstatus]
        exact fun h => hbefore (Option.some.inj h)
      refine .inr ⟨hplan ▸ hstock hstatus' hnew v hv, fun k hk hpresent => ?_⟩
      rw [hplan] at hk
      obtain ⟨o, -, rfl⟩ := Option.map_eq_some_iff.mp hv
      obtain ⟨i, hi, hik⟩ := Option.bind_eq_some_iff.mp hk
      exact (h.counted hstatus').resolve_left hnew i k hi hik hpresent
  · obtain ⟨v, hv, heq, hstatus, hstatus'⟩ := view_of_handled h hv'
    have hplan : v'.planId = v.planId := by rw [heq]
    have hbuyer : v'.customerId = v.customerId := by rw [heq]
    by_cases hbefore : isBought v.status = true
    · exact .inl ⟨v, hv, hbefore, hplan.symm, hbuyer.symm⟩
    · rw [Bool.not_eq_true] at hbefore
      rw [hplan, hbuyer]
      exact .inr (hcustomer v v'.status hv hbefore hstatus' hpaid)

/-- A call about an order for which there is room. -/
theorem Sound.room (hs : t.Sound) (h : Site.Handled id t.site s') (hroom : t.RoomFor id) :
    ({ t with site := s' } : Storefront).Sound := by
  refine hs.of_handled h (fun _ hnew v hv => ?_) fun v _ hv hbefore _ _ => (hroom v hv).2 hbefore
  refine (hroom v hv).1 fun hdone => hnew ?_
  obtain ⟨o, ho, rfl⟩ := Option.map_eq_some_iff.mp hv
  rw [Site.orderStatus, ho]
  exact congrArg some hdone

/-- A cancellation needs no room. -/
theorem Sound.cancel (hs : t.Sound) (h : Site.Handled id t.site s')
    (hstatus : s'.orderStatus id = t.site.orderStatus id ∨ s'.orderStatus id = some .canceled) :
    ({ t with site := s' } : Storefront).Sound := by
  refine hs.of_handled h (fun hdone hnew => ?_) fun v v' hv hbefore hv' hpaid => ?_
  · rcases hstatus with hsame | hcanceled
    · exact absurd (hsame ▸ hdone) hnew
    · rw [hcanceled] at hdone
      cases hdone
  · rcases hstatus with hsame | hcanceled
    · obtain ⟨o, ho, rfl⟩ := Option.map_eq_some_iff.mp hv
      rw [hsame, Site.orderStatus, ho] at hv'
      obtain rfl := Option.some.inj hv'
      rw [show isBought o.status = false from hbefore] at hpaid
      cases hpaid
    · rw [hcanceled] at hv'
      obtain rfl := Option.some.inj hv'
      cases hpaid

/-- A call that leaves the orders alone. -/
theorem Sound.shelf (hs : t.Sound) (h : Site.SameShelf t.site s') :
    ({ t with site := s' } : Storefront).Sound :=
  hs.cancel (h.handled 0) (.inl (by rw [Site.orderStatus, h.orders, Site.orderStatus]))

end

/-! ## Looking things up -/

variable {α β : Type}

/-- The procedure changes nothing, and what it returns satisfies `P`. -/
def Finds (p : StoreTask α) (P : Storefront → α → Prop) : Prop :=
  ∀ t, Prog.wp p (fun a t' => t' = t ∧ P t a) (fun _ t' => t' = t) t

theorem finds_pure {P : Storefront → α → Prop} {a : α} (h : ∀ t, P t a) : Finds (pure a) P :=
  fun t => ⟨rfl, h t⟩

/-- A refusal finds anything. -/
theorem finds_throw {P : Storefront → α → Prop} (e : AppError) : Finds (throw e) P := fun _ => rfl

theorem finds_read (f : Storefront → α) : Finds (read f) fun t a => a = f t := by
  intro t
  rw [read, wp_query]
  exact ⟨rfl, rfl⟩

theorem finds_bind {P : Storefront → β → Prop} {Q : Storefront → α → Prop} {p : StoreTask β}
    {q : β → StoreTask α} (hp : Finds p P) (hq : ∀ b, Finds (q b) fun t a => P t b → Q t a) :
    Finds (p >>= q) Q := by
  intro t
  rw [Prog.wp_bind]
  refine wp_mono _ (hp t) (fun b t' h => ?_) fun _ _ h => h
  obtain ⟨rfl, hb⟩ := h
  exact wp_mono _ (hq b t') (fun a _ h => ⟨h.1, h.2 hb⟩) fun _ _ h => h

theorem Finds.mono {P Q : Storefront → α → Prop} {p : StoreTask α} (hp : Finds p P)
    (h : ∀ t a, P t a → Q t a) :
    Finds p Q := fun t => wp_mono _ (hp t) (fun a _ ha => ⟨ha.1, h t a ha.2⟩) fun _ _ h => h

theorem finds_refuseIf (c : Bool) (e : AppError) : Finds (refuseIf c e) fun _ _ => c = false := by
  unfold refuseIf
  cases c with
  | true => exact finds_throw e
  | false => exact finds_pure fun _ => rfl

/-- A task on the site that changes nothing. -/
theorem finds_onSite {p : Task α} (hp : p.Keeps fun s s' => s' = s) :
    Finds (onSite p) fun _ _ => True := by
  intro t
  have hkeeps := hp.zoom siteFocus id
  refine wp_mono _ (hkeeps.wp (fun _ => ⟨rfl, siteFocus.frame_refl _⟩) (fun t₁ t₂ t₃ h h' => ?_) t)
    (fun _ t' h => ⟨?_, trivial⟩) fun _ t' h => ?_
  · refine ⟨h'.1.trans h.1, ?_⟩
    rw [Focus.Frame, ← h'.2, ← h.2]
    simp
  · rw [← h.2, h.1, siteFocus.put_get]
  · rw [← h.2, h.1, siteFocus.put_get]

/-- What holds of the shop still holds when a look-up comes first. -/
theorem Finds.wp_bind {I : Storefront → Prop} {P : Storefront → β → Prop} {p : StoreTask β}
    {q : β → StoreTask α} (hp : Finds p P) (hs : I t)
    (hq : ∀ b, P t b → Prog.wp (q b) (fun _ => I) (fun _ => I) t) :
    Prog.wp (p >>= q) (fun _ => I) (fun _ => I) t := by
  rw [Prog.wp_bind]
  refine wp_mono _ (hp t) (fun b t' h => ?_) fun _ t' h => ?_
  · obtain ⟨rfl, hb⟩ := h
    exact hq b hb
  · rw [h]
    exact hs

/-! ## Placing an order -/

/-- The catalogue's guard has let a purchase pass. -/
def Purchasable (t : Storefront) (slug : String) (k : PlanId)
    (customerId : Option CustomerId) : Prop :=
  ∀ shop o, t.shopOf slug = some shop → t.optionsOf shop.1 k = some o →
    (0 < o.stock → ∀ plan, t.planOf shop.1 k = some plan → plan.sold < o.stock) ∧
    (0 < o.perCustomer → ∀ c, customerId = some c → t.bought k c < o.perCustomer)

theorem assertStock_finds (adminId : AdminId) (k : PlanId) (o : StorePlanOptions) :
    Finds (assertStock adminId k o) fun t _ =>
      0 < o.stock → ∀ plan, t.planOf adminId k = some plan → plan.sold < o.stock := by
  unfold assertStock
  split
  · refine finds_bind (finds_read _) fun plan => (finds_refuseIf _ _).mono fun t _ hfree hplan _ p hp => ?_
    rw [hplan, hp] at hfree
    exact not_le.mp (of_decide_eq_false hfree)
  · next hzero => exact finds_pure fun _ h => absurd h hzero

theorem assertPerCustomer_finds (k : PlanId) (customerId : Option CustomerId)
    (o : StorePlanOptions) : Finds (assertPerCustomer k customerId o) fun t _ =>
      0 < o.perCustomer → ∀ c, customerId = some c → t.bought k c < o.perCustomer := by
  unfold assertPerCustomer
  split
  · cases customerId with
    | none => exact finds_throw _
    | some customerId =>
        refine finds_bind (finds_read _) fun used =>
          (finds_refuseIf _ _).mono fun t _ hfree hused _ c hc => ?_
        rw [hused] at hfree
        rw [← Option.some.inj hc]
        exact not_le.mp (of_decide_eq_false hfree)
  · next hzero => exact finds_pure fun _ h => absurd h hzero

theorem assertPlanPurchasable_finds (slug : String) (k : PlanId) (customerId : Option CustomerId) :
    Finds (assertPlanPurchasable slug k customerId) fun t _ => t.Purchasable slug k customerId := by
  refine finds_bind (finds_read _) fun store => ?_
  cases store with
  | none =>
      refine finds_pure fun t hstore shop o hshop _ => ?_
      rw [hshop] at hstore
      cases hstore
  | some store =>
      refine finds_bind (finds_read _) fun options => ?_
      cases options with
      | none =>
          refine finds_pure fun t hoptions hstore shop o hshop ho => ?_
          rw [hshop] at hstore
          rw [← Option.some.inj hstore, ← hoptions] at ho
          cases ho
      | some options =>
          refine finds_bind (assertStock_finds _ _ _) fun _ =>
            (assertPerCustomer_finds _ _ _).mono
              fun t _ hcustomer hstock hoptions hstore shop o hshop ho => ?_
          rw [hshop] at hstore
          rw [← Option.some.inj hstore, ← hoptions] at ho
          obtain rfl := Option.some.inj ho
          rw [← Option.some.inj hstore]
          exact ⟨hstock, hcustomer⟩

theorem openShop_finds (slug : String) :
    Finds (openShop slug) fun t r => ∃ shop, t.shopOf slug = some shop ∧ r.2.2.id = shop.1 := by
  refine finds_bind (finds_read _) fun found => ?_
  cases found with
  | none => exact finds_throw _
  | some shop =>
      refine finds_pure fun t hfound => ?_
      obtain ⟨row, hrow, hfound⟩ := Option.bind_eq_some_iff.mp hfound.symm
      obtain ⟨rules, -, hfound⟩ := Option.bind_eq_some_iff.mp hfound
      obtain ⟨seller, hseller, hfound⟩ := Option.bind_eq_some_iff.mp hfound
      refine ⟨row, hrow, ?_⟩
      split at hfound
      · obtain rfl := Option.some.inj hfound
        exact (Site.operator_account hseller).1
      · cases hfound

theorem planOnSale_finds (sellerId : AdminId) (k : PlanId) :
    Finds (planOnSale sellerId k) fun t plan => t.planOf sellerId k = some plan := by
  refine finds_bind (finds_read _) fun plan => ?_
  cases plan with
  | none => exact finds_throw _
  | some plan =>
      refine finds_pure fun t hplan => ?_
      exact (Option.filter_eq_some_iff.mp hplan.symm).1

theorem signedIn_finds (sellerId : AdminId) (customerId : Option CustomerId) :
    Finds (signedIn sellerId customerId) fun _ account => account.map Prod.fst = customerId := by
  cases customerId with
  | none => exact finds_pure fun _ => rfl
  | some id =>
      refine finds_bind (finds_read _) fun account => ?_
      cases account with
      | none => exact finds_throw _
      | some account => exact finds_pure fun _ _ => rfl

theorem assertOrderRate_finds (ip : Option String) :
    Finds (assertOrderRate ip) fun _ _ => True := by
  unfold assertOrderRate
  cases ip.bind orNull with
  | none => exact finds_pure fun _ => trivial
  | some ip => exact finds_bind (finds_read _) fun _ =>
    (finds_refuseIf _ _).mono fun _ _ _ _ => trivial

theorem renewedClient_finds (sellerId : AdminId) (renewToken : Option Draw) :
    Finds (renewedClient sellerId renewToken) fun _ _ => True := by
  unfold renewedClient
  cases renewToken with
  | none => exact finds_pure fun _ => trivial
  | some token =>
      refine finds_bind (finds_read _) fun c => ?_
      cases c with
      | none => exact finds_throw _
      | some c => exact finds_pure fun _ _ => trivial

theorem walletPayer_finds (s : StoreSettings) (account : Option (CustomerId × Customer))
    (order : NewOrder) : Finds (walletPayer s account order) fun _ _ => True := by
  unfold walletPayer
  split
  · cases walletBuyer s account order with
    | error e => exact finds_throw e
    | ok id => exact finds_pure fun _ => trivial
  · split
    · exact finds_throw _
    · exact finds_pure fun _ => trivial

/-- What is known of a discount that may be used: it is one of the seller, and has a use left. -/
def Usable (t : Storefront) (sellerId : AdminId) (key : Option (AdminId × String)) : Prop :=
  ∀ k, key = some k → k.1 = sellerId ∧ ∀ d n, t.discounts.get? k = some d →
    d.maxUses = some n → d.uses < n

theorem applyDiscount_finds (sellerId : AdminId) (code : Option String) (price : ℤ) :
    Finds (applyDiscount sellerId code price) fun t d => t.Usable sellerId d.key := by
  unfold applyDiscount
  extract_lets c
  split
  · exact finds_pure fun _ _ h => by cases h
  · refine finds_bind (finds_read _) fun found => finds_bind (finds_read _) fun now => ?_
    cases hactive : found.filter Discount.isActive with
    | none => exact finds_throw _
    | some d =>
        refine finds_bind (finds_refuseIf _ _) fun _ => finds_bind (finds_refuseIf _ _) fun _ =>
          finds_pure ?_
        intro t hfree _ _ hfound k hk
        obtain rfl := Option.some.inj hk
        refine ⟨rfl, fun d' n hd' hn => ?_⟩
        rw [hfound, hd'] at hactive
        obtain rfl := Option.some.inj (Option.filter_eq_some_iff.mp hactive).1
        rw [hn] at hfree
        exact not_le.mp (of_decide_eq_false hfree)

/-- The shop with a new order. -/
def placed (t : Storefront) (input : NewOrder) (info : OrderInfo) (columns : OrderColumns) :
    Storefront :=
  ((insertOrder input info columns).run t).2

/-- The shop with one more use of a discount. -/
def used (t : Storefront) (key : Option (AdminId × String)) : Storefront := ((countUse key).run t).2

/-- The use of a code is one write. -/
theorem countUse_wp {Q : Unit → Storefront → Prop} {E : AppError → Storefront → Prop}
    (key : Option (AdminId × String)) : Prog.wp (countUse key) Q E t ↔ Q () (t.used key) := by
  cases key with
  | none => rfl
  | some key => simp only [used, countUse, wp_modify, run_modify]

/-- It changes neither orders nor plans. -/
theorem used_frame (t : Storefront) (key : Option (AdminId × String)) :
    (t.used key).site = t.site ∧ (t.used key).columns = t.columns ∧ (t.used key).catalogs =
    t.catalogs := by
  cases key with
  | none => exact ⟨rfl, rfl, rfl⟩
  | some key => exact ⟨rfl, rfl, rfl⟩

theorem used_discounts (t : Storefront) (key : Option (AdminId × String)) (k : AdminId × String) :
    (t.used key).discounts.get? k = (t.discounts.get? k).map fun d =>
      { d with uses := d.uses + if key = some k then 1 else 0 } := by
  cases key with
  | none =>
      show t.discounts.get? k = _
      cases t.discounts.get? k with
      | none => rfl
      | some d => rfl
  | some key =>
      show (t.discounts.modify key _).get? k = _
      rw [Table.get?_modify]
      by_cases hk : k = key
      · rw [if_pos hk, hk]
        simp
      · rw [if_neg hk]
        have hne : ¬some key = some k := fun h => hk (Option.some.inj h).symm
        simp only [if_neg hne, Nat.add_zero]
        cases t.discounts.get? k with
        | none => rfl
        | some d => rfl

section

variable {slug : String} {input : NewOrder} {info : OrderInfo} {columns : OrderColumns} {k : PlanId}
  {shop : AdminId × StoreSettings} {plan : Plan} {key : Option (AdminId × String)}

theorem placed_turn : Turn t.site.base.nextId t ((t.placed input info columns).used key) := by
  obtain ⟨hsite, hcolumns, hcatalogs⟩ := used_frame (t.placed input info columns) key
  refine ⟨fun k hk => ?_, fun k hk => ?_, fun k hk => ?_, fun k => ?_, hcatalogs, fun k => ?_⟩
  · rw [hsite]
    exact Table.get?_set_of_ne _ _ hk
  · rw [hsite]
    exact Table.get?_set_of_ne _ _ hk
  · rw [hcolumns]
    exact Table.get?_set_of_ne _ _ hk
  · rw [hsite]
    rfl
  · rw [hsite]
    exact le_rfl

theorem placed_view : ((t.placed input info columns).used key).view t.site.base.nextId =
    some ⟨input.adminId, if input.amount ≤ 0 then .paid else .pending, info.planId, info.customerId,
      columns.discountCode⟩ := by
  obtain ⟨hsite, hcolumns, -⟩ := used_frame (t.placed input info columns) key
  have horder : (t.placed input info columns).site.base.orders.get? t.site.base.nextId = some _ :=
    Table.get?_set_self _ _ _
  have hinfo : (t.placed input info columns).site.orderInfo.get? t.site.base.nextId = some info :=
    Table.get?_set_self _ _ _
  have hcolumn : (t.placed input info columns).columns.get? t.site.base.nextId = some _ :=
    Table.get?_set_self _ _ _
  simp only [view, viewOf, hsite, hcolumns, horder, hinfo, hcolumn, Option.map_some,
    Option.bind_some]

/-- What the guard compares are the limits of the plan. -/
theorem limits_of_plan {sellerId : AdminId} (hplan : t.planOf sellerId k = some plan) :
    t.site.plans.get? k = some plan ∧ t.limits k = t.optionsOf sellerId k := by
  obtain ⟨hget, hadmin⟩ := Option.filter_eq_some_iff.mp hplan
  refine ⟨hget, ?_⟩
  rw [limits, hget, Option.bind_some, of_decide_eq_true hadmin]

theorem Purchasable.stock (hs : t.Sound) (hguard : t.Purchasable slug k info.customerId)
    (hshop : t.shopOf slug = some shop) (hplan : t.planOf shop.1 k = some plan) :
    t.StockRoom (some k) := by
  intro k' o hk hlimit hpos
  obtain rfl := Option.some.inj hk
  obtain ⟨hget, heq⟩ := limits_of_plan hplan
  have hlt := (hguard shop o hshop (heq ▸ hlimit)).1 hpos plan hplan
  have hsold := hs.sold k (by rw [hget]; rfl)
  rw [Site.sold, hget] at hsold
  exact hsold.trans_lt hlt

theorem Purchasable.customer (hguard : t.Purchasable slug k info.customerId)
    (hshop : t.shopOf slug = some shop) (hplan : t.planOf shop.1 k = some plan) :
    t.CustomerRoom (some k) info.customerId := by
  intro k' c o hk hc hlimit hpos
  obtain rfl := Option.some.inj hk
  exact (hguard shop o hshop ((limits_of_plan hplan).2 ▸ hlimit)).2 hpos c hc

/-- A use of the discount is counted with the order. -/
theorem UsesCounted.placed {sellerId : AdminId} (hs : t.UsesCounted)
    (husable : t.Usable sellerId key) (hadmin : input.adminId = sellerId)
    (hcode : columns.discountCode = key.map Prod.snd) :
    ((t.placed input info columns).used key).UsesCounted := by
  have hturn : Turn t.site.base.nextId t ((t.placed input info columns).used key) := placed_turn
  refine ⟨fun key' d' hd' => ?_, fun key' d' n hd' hn => ?_⟩
  · rw [used_discounts] at hd'
    obtain ⟨d, hd, rfl⟩ := Option.map_eq_some_iff.mp hd'
    have huses := hs.uses key' d hd
    rw [coded_eq_count] at huses ⊢
    by_cases hkey : key = some key'
    · rw [if_pos hkey]
      exact (hturn.count_le_succ _).trans (Nat.succ_le_succ huses)
    · rw [if_neg hkey]
      refine (hturn.count_le _ fun v' hv' hp => ?_).trans huses
      rw [placed_view] at hv'
      rw [← Option.some.inj hv'] at hp
      simp only [Bool.and_eq_true, decide_eq_true_eq, and_true] at hp
      obtain ⟨hseller, hp⟩ := hp
      rw [hcode] at hp
      obtain ⟨key₀, rfl, hsnd⟩ := Option.map_eq_some_iff.mp hp
      -- the discount is one of the seller's
      have hfst := (husable key₀ rfl).1
      exact absurd (congrArg some (Prod.ext (hfst.trans (hadmin.symm.trans hseller)) hsnd)) hkey
  · rw [used_discounts] at hd'
    obtain ⟨d, hd, rfl⟩ := Option.map_eq_some_iff.mp hd'
    have hwithin := hs.within key' d n hd hn
    by_cases hkey : key = some key'
    · have hlt := (husable key' hkey).2 d n hd hn
      rw [if_pos hkey]
      exact hlt
    · rw [if_neg hkey]
      exact hwithin

/-- A purchase that has passed the guards leaves the shop sound, with room for its payment and its
delivery. -/
theorem Sound.placed (hs : t.Sound) (hguard : t.Purchasable slug k info.customerId)
    (hshop : t.shopOf slug = some shop)
    (hplan : t.planOf shop.1 k = some plan) (husable : t.Usable shop.1 key)
    (hadmin : input.adminId = shop.1)
    (hinfo : info.planId = some k) (hcode : columns.discountCode = key.map Prod.snd) :
    ((t.placed input info columns).used key).Sound ∧
      ((t.placed input info columns).used key).RoomFor t.site.base.nextId := by
  have hturn : Turn t.site.base.nextId t ((t.placed input info columns).used key) := placed_turn
  have hstock := hguard.stock hs hshop hplan
  have hcustomer := hguard.customer hshop hplan
  -- the new order is not fulfilled, so the customer's count alone may grow
  refine ⟨hs.turn hturn (fun v' hv' hdone => ?_)
    (fun v' hv' _ => ?_) (hs.toUsesCounted.placed husable hadmin hcode), fun v' hv' => ⟨fun _ => ?_,
      fun hunpaid => ?_⟩⟩
  · rw [placed_view] at hv'
    rw [← Option.some.inj hv'] at hdone
    dsimp only at hdone
    split at hdone <;> cases hdone
  · rw [placed_view] at hv'
    rw [← Option.some.inj hv', hinfo]
    exact .inr hcustomer
  · rw [placed_view] at hv'
    rw [← Option.some.inj hv', hinfo]
    intro k' o hk hlimit hpos
    rw [hturn.limits] at hlimit
    refine lt_of_le_of_lt ?_ (hstock k' o hk hlimit hpos)
    rw [fulfilled, fulfilled, countOrders_eq_count, countOrders_eq_count]
    refine hturn.count_le _ fun v hv hp => ?_
    rw [placed_view] at hv
    rw [← Option.some.inj hv] at hp
    simp only [Bool.and_eq_true, decide_eq_true_eq] at hp
    obtain ⟨-, hdone⟩ := hp
    split at hdone <;> cases hdone
  · rw [placed_view] at hv'
    obtain rfl := Option.some.inj hv'
    rw [hinfo]
    intro k' c o hk hc hlimit hpos
    rw [hturn.limits] at hlimit
    refine lt_of_le_of_lt ?_ (hcustomer k' c o hk hc hlimit hpos)
    rw [bought, bought, countOrders_eq_count, countOrders_eq_count]
    refine hturn.count_le _ fun v hv hp => ?_
    rw [placed_view] at hv
    rw [← Option.some.inj hv] at hp
    simp only [Bool.and_eq_true] at hp
    rw [hunpaid] at hp
    cases hp.2.1

end

theorem planTargetsFresh_same (plan : Plan) : (planTargetsFresh plan).Keeps fun s s' => s' = s := by
  unfold planTargetsFresh
  cases planServiceId plan with
  | none => exact keeps_pure _
  | some id =>
      exact keeps_attempt ((Site.resolveServiceTargets_reads Site.offers_of_eq _ id).keeps fun _ =>
        rfl) fun _ => keeps_pure _

theorem invoiceAmount_same (s : CardAmounts) (input : NewOrder) :
    (invoiceAmount s input).Keeps fun w w' => w' = w := by
  refine keeps_ite (keeps_bind ?_ fun _ => keeps_pure _) (keeps_pure _)
  refine keeps_ite (keeps_pure _) (keeps_ite (keeps_pure _) ?_)
  have hread : ∀ {β : Type} (f : World → β), (Db.read f).Keeps fun w w' :
      World => w' = w := fun f =>
    keeps_query (R := fun w w' : World => w' = w) (fun _ => rfl) _ f
  exact keeps_bind (hread _) fun now => keeps_bind (hread _) fun taken =>
    keeps_ite (keeps_pure _) (keeps_pure _)

theorem lift_same {p : Service α} (hp : p.Keeps fun w w' => w' = w) :
    (Site.lift p).Keeps fun s s' => s' = s := by
  refine (hp.zoom Site.world Mark.base).mono fun s s' h => ?_
  rw [← h.2, h.1, Site.world.put_get]

theorem insertOrder_wp {Q : OrderId → Storefront → Prop} {E : AppError → Storefront → Prop}
    (input : NewOrder) (info : OrderInfo) (columns : OrderColumns) :
    Prog.wp (insertOrder input info columns) Q E t ↔
    Q t.site.base.nextId (t.placed input info columns) := Iff.rfl

/-- What `createOrder` has found out when it inserts an order. -/
structure Purchase (t : Storefront) (slug : String) (input : CreateOrderInput) (order : NewOrder)
    (info : OrderInfo) (columns : OrderColumns) (key : Option (AdminId × String)) : Prop where
  shop : ∃ shop plan, t.shopOf slug = some shop ∧ t.planOf shop.1 input.planId = some plan ∧
    t.Usable shop.1 key ∧ order.adminId = shop.1
  planId : info.planId = some input.planId
  customerId : info.customerId = input.customerId
  code : columns.discountCode = key.map Prod.snd

/-- What follows the insertion of an order is about that order. -/
theorem started_wp {I : Storefront → Prop} (s : StoreSettings) (order : NewOrder)
    (buyer : Option CustomerId) (sellerId : AdminId)
    (hI : ∀ s', Site.Handled id t.site s' → I { t with site := s' }) : Prog.wp (do
      onSite (Site.lift (audit (some sellerId) "order.create"))
      onSite (Site.lift (emitEvent (some sellerId) "order.created"))
      onSite (startOrder s order buyer id)) (fun _ => I) (fun _ => I) t := by
  simp only [onSite, ← zoom_bind]
  rw [wp_zoom]
  have hstay : ∀ s s' : Site, Site.Handled id s s' → True → True := fun _ _ _ h => h
  have hall : Site.Handles id (fun _ => True) (do
      Site.lift (audit (some sellerId) "order.create")
      Site.lift (emitEvent (some sellerId) "order.created")
      startOrder s order buyer id) :=
    Site.handles_bind hstay (Site.handles_of_shelf (Site.logs_shelf (audit_keeps_logged _ _)))
      fun _ =>
      Site.handles_bind hstay (Site.handles_of_shelf (Site.logs_shelf (emitEvent_keeps_logged _ _)))
        fun _ =>
        Site.startOrder_handles s order buyer id
  exact wp_mono _ ((wp_store_iff (P := Site.Handled id t.site) _).mpr (hall t.site trivial))
    (fun _ s' h => hI s' h) fun _ s' h => hI s' h

section

-- unification must not compute the code of a discount
attribute [local irreducible] applyDiscount

/-- `createOrder` changes nothing, or it places an order and goes on with that. -/
theorem createOrder_wp {I : Storefront → Prop} {slug : String} {input : CreateOrderInput} (hI : I t)
    (hplaced : ∀ order info columns key s', t.Purchase slug input order info columns key →
      Site.Handled t.site.base.nextId ((t.placed order info columns).used key).site s' →
      I { (t.placed order info columns).used key with site := s' }) :
    Prog.wp (createOrder slug input) (fun _ => I) (fun _ => I) t := by
  unfold createOrder
  refine (openShop_finds slug).wp_bind hI fun shop hshop => ?_
  obtain ⟨s, rules, seller⟩ := shop
  obtain ⟨row, hrow, hseller⟩ := hshop
  dsimp only at hseller ⊢
  refine (planOnSale_finds _ _).wp_bind hI fun plan hplan => ?_
  refine (signedIn_finds _ _).wp_bind hI fun account haccount => ?_
  refine (finds_refuseIf _ _).wp_bind hI fun _ _ => ?_
  generalize contactOf input.customer _ = contact
  refine (finds_refuseIf _ _).wp_bind hI fun _ _ => ?_
  refine (finds_refuseIf _ _).wp_bind hI fun _ _ => ?_
  refine (assertOrderRate_finds _).wp_bind hI fun _ _ => ?_
  refine (renewedClient_finds _ _).wp_bind hI fun renewClientId _ => ?_
  refine (applyDiscount_finds _ _ _).wp_bind hI fun d husable => ?_
  refine (finds_read _).wp_bind hI fun cards _ => ?_
  refine (finds_onSite (lift_same (invoiceAmount_same _ _))).wp_bind hI fun amount _ => ?_
  refine (walletPayer_finds _ _ _).wp_bind hI fun buyer _ => ?_
  refine (finds_onSite (planTargetsFresh_same plan)).wp_bind hI fun targets _ => ?_
  rw [hseller] at hplan husable
  rw [Prog.wp_bind, insertOrder_wp, Prog.wp_bind, countUse_wp, haccount]
  generalize horder : NewOrder.mk input.token seller.id amount _ _ _ _ = order
  generalize hinfo : OrderInfo.mk (some input.planId) none input.customerId _ _ _ _ _ _ _ = info
  generalize hcolumns : OrderColumns.mk plan.price _ d.discount input.ip 0 = columns
  have hpurchase : t.Purchase slug input order info columns d.key := by
    refine ⟨⟨row, plan, hrow, hplan, husable, ?_⟩, ?_, ?_, ?_⟩
    · rw [← horder, hseller]
    · rw [← hinfo]
    · rw [← hinfo]
    · rw [← hcolumns]
  exact started_wp s order buyer seller.id fun s' => hplaced order info columns d.key s' hpurchase

end

/-- A purchase that the catalogue lets pass leaves the shop sound. -/
theorem createOrder_sound (hs : t.Sound) {slug : String} {input : CreateOrderInput}
    (hguard : t.Purchasable slug input.planId input.customerId) :
    Prog.wp (createOrder slug input) (fun _ => Sound) (fun _ => Sound) t := by
  refine createOrder_wp hs fun order info columns key s' hpurchase h => ?_
  obtain ⟨shop, plan, hshop, hplan, husable, hadmin⟩ := hpurchase.shop
  rw [← hpurchase.customerId] at hguard
  obtain ⟨hsound, hroom⟩ :=
    hs.placed hguard hshop hplan husable hadmin hpurchase.planId hpurchase.code
  exact hsound.room h hroom

/-! ## The calls -/

/-- The order that a call may pay or deliver, besides one that it places. -/
def target (t : Storefront) : StoreCall → Option OrderId
  | .order _ _ => none
  | .confirm _ paymentId opts => t.site.confirmTarget paymentId opts
  | .fulfill orderId => if t.site.orderStatus orderId = some .paid then some orderId else none
  | .retry actor orderId => t.site.retryTarget actor orderId
  | .cancel _ _ => none

/-- A call that pays or delivers an order finds room for it. -/
def FindsRoom (call : StoreCall) (t : Storefront) : Prop :=
  ∀ id, t.target call = some id → t.RoomFor id

/-- The clock of the site goes on. -/
def Ticks (t t' : Storefront) : Prop := ∃ s', Site.TimePasses t.site s' ∧ t' = { t with site := s' }

theorem Sound.turns (hs : t.Sound) {s' : Site} {target : Option OrderId}
    (h : Site.Turns target t.site s') (hroom : ∀ id, target = some id → t.RoomFor id) :
    ({ t with site := s' } : Storefront).Sound := by
  cases target with
  | none => exact hs.shelf h
  | some id => exact hs.room h (hroom id rfl)

/-- A call on the site that is about one order at most. -/
theorem onSite_sound (hs : t.Sound) {p : Task α} {target : Option OrderId}
    (hp : Site.Turns target t.site (p.run t.site).2)
    (hroom : ∀ id, target = some id → t.RoomFor id) : ((onSite p).run t).2.Sound := by
  rw [onSite, run_zoom]
  exact hs.turns hp hroom

theorem task_sound (call : StoreCall) (hs : t.Sound) (hroom : FindsRoom call t) :
    (call.task.run t).2.Sound := by
  cases call with
  | order slug input =>
      refine (wp_store_iff _).mp ?_
      exact (assertPlanPurchasable_finds _ _ _).wp_bind hs fun _ hguard =>
        createOrder_sound hs hguard
  | confirm evidence paymentId opts =>
      rw [StoreCall.task, run_void]
      exact onSite_sound hs (Site.confirmPayment_turns evidence paymentId opts t.site) hroom
  | fulfill orderId =>
      rw [StoreCall.task, run_void]
      have hturns : Site.Turns (t.target (.fulfill orderId)) t.site
          ((Site.fulfillOrder orderId).run t.site).2 := by
        by_cases hpaid : t.site.orderStatus orderId = some .paid
        · rw [target, if_pos hpaid]
          exact Site.fulfillOrder_handles orderId t.site trivial
        · rw [target, if_neg hpaid]
          exact Site.fulfillOrder_idle orderId t.site hpaid
      exact onSite_sound hs hturns hroom
  | retry actor orderId =>
      rw [StoreCall.task, run_void]
      exact onSite_sound hs (Site.retryFulfill_turns actor orderId t.site) hroom
  | cancel actor orderId =>
      rw [StoreCall.task, run_void, onSite]
      refine (wp_store_iff (P := Sound) _).mp ?_
      rw [wp_zoom]
      exact wp_mono _ (Site.cancelOrder_handled actor orderId t.site)
        (fun _ _ h => hs.cancel h.1 h.2) fun _ _ h => hs.cancel h.1 h.2

theorem onSite_usesCounted (hs : t.UsesCounted) {p : Task α} {target : Option OrderId}
    (hp : Site.Turns target t.site (p.run t.site).2) : ((onSite p).run t).2.UsesCounted := by
  rw [onSite, run_zoom]
  cases target with
  | none => exact hs.of_handled (Site.SameShelf.handled 0 hp)
  | some id => exact hs.of_handled hp

theorem task_usesCounted (call : StoreCall) (hs : t.UsesCounted) :
    (call.task.run t).2.UsesCounted := by
  cases call with
  | order slug input =>
      refine (wp_store_iff (P := UsesCounted) _).mp ?_
      refine (assertPlanPurchasable_finds _ _ _).wp_bind hs fun _ _ => createOrder_wp hs ?_
      intro order info columns key s' hpurchase h
      obtain ⟨shop, plan, -, -, husable, hadmin⟩ := hpurchase.shop
      exact (hs.placed husable hadmin hpurchase.code).of_handled h
  | confirm evidence paymentId opts =>
      rw [StoreCall.task, run_void]
      exact onSite_usesCounted hs (Site.confirmPayment_turns evidence paymentId opts t.site)
  | fulfill orderId =>
      rw [StoreCall.task, run_void]
      have hturns : Site.Turns (some orderId) t.site ((Site.fulfillOrder orderId).run t.site).2 :=
        Site.fulfillOrder_handles orderId t.site trivial
      exact onSite_usesCounted hs hturns
  | retry actor orderId =>
      rw [StoreCall.task, run_void]
      exact onSite_usesCounted hs (Site.retryFulfill_turns actor orderId t.site)
  | cancel actor orderId =>
      rw [StoreCall.task, run_void]
      have hturns : Site.Turns (some orderId) t.site
          ((Site.lift (cancelOrder actor orderId)).run t.site).2 :=
        ((wp_store_iff _).mp (Site.cancelOrder_handled actor orderId t.site)).1
      exact onSite_usesCounted hs hturns

/-- The cap of a discount, which is counted with the order, holds in every run. -/
theorem discounts_hold_run {t₀ t : Storefront} (hs : t₀.UsesCounted)
    (hrun : Serial.Run StoreCall.task Ticks (fun _ _ => True) t₀ t) {key : AdminId × String}
    {d : Discount} {n : ℕ}
    (hd : t.discounts.get? key = some d) (hn : d.maxUses = some n) : t.coded key isBought ≤ n := by
  refine (hrun.invariant (I := UsesCounted) hs
    (fun call t hs _ => task_usesCounted call hs) ?_).maxUses hd hn
  rintro t t' hs ⟨s', ⟨now, -, rfl⟩, rfl⟩
  exact hs.of_handled (Site.SameShelf.handled 0 ⟨rfl, rfl, rfl⟩)

/-- In every run of orders, confirmations, deliveries, retries and cancellations in which each call
that pays or delivers an order finds room for it, the caps hold: those of the stock and of the
customers in the catalogue, and those of the discounts. -/
theorem capsHold_run {t₀ t : Storefront} (hs : t₀.Sound)
    (hrun : Serial.Run StoreCall.task Ticks FindsRoom t₀ t) : t.CapsHold := by
  refine (hrun.invariant (I := Sound) hs
    (fun call t hs hroom => task_sound call hs hroom) ?_).toCapsHold
  rintro t t' hs ⟨s', ⟨now, -, rfl⟩, rfl⟩
  exact hs.shelf ⟨rfl, rfl, rfl⟩

end

/-! ## Two orders at a time -/

/-- A shop that takes cards. -/
def soloShop : StoreSettings :=
  { StoreSettings.blank 2 with slug := "a", enabled := true, cardEnabled := true, cardNumber := some "6" }

/-- A new shop with a plan of which there is one, and which each customer may buy once. -/
def soloStore : Storefront where
  site := { Site.blank with
    base := { World.blank with
      admins := Table.empty.set 2 ⟨.admin, 0, 0⟩
      shops := Table.empty.set 2 soloShop
      customers := Table.empty.set 5 ⟨2, 0⟩ }
    accounts := Table.empty.set 2 ⟨"r", 0, none, true, none, none, none, none, none, none,
      none, [(3, [])]⟩
    servers := Table.empty.set 3 ⟨"s", true, [⟨1, "vless", true, "none", "tcp", []⟩]⟩
    plans := Table.empty.set 8 ⟨2, "p", 1, 30, 0, 1000, [⟨⟨3, 1⟩, none⟩], true, 0⟩ }
  rules := Table.empty.set 2 ⟨true, true, false, false⟩
  catalogs := Table.empty.set 2 ⟨true, Table.empty.set 8 ⟨1, 1⟩⟩
  discounts := .empty
  shoppers := Table.empty.set 5 ⟨true, none, none, none, none⟩
  columns := .empty
  amounts _ := ⟨.manual, false, 0, 0⟩

theorem soloStore_sound : soloStore.Sound where
  stock _ _ _ _ := Nat.zero_le _
  perCustomer _ _ _ _ _ := Nat.zero_le _
  maxUses _ _ _ h _ := by cases h
  sold _ _ := Nat.zero_le _
  uses _ _ h := by cases h
  within _ _ _ h _ := by cases h

/-- The customer orders the plan, to be paid by card. -/
def soloOrder : StoreCall :=
  .order "a" ⟨"t", 8, .card, ⟨none, none, none, none⟩, none, none, none, some 5⟩

/-- The seller confirms a payment. -/
def soloConfirm (paymentId : PaymentId) : StoreCall :=
  .confirm (.review ⟨2, .admin⟩) paymentId ⟨some ⟨2, .admin⟩, none, none⟩

/-- Both orders are placed before one of them is paid. -/
def soldTwice : Storefront :=
  Serial.calls StoreCall.task [soloOrder, soloOrder, soloConfirm 101, soloConfirm 103] soloStore

/-- The only piece in stock is sold twice then, to a customer who may buy one. -/
theorem caps_exceeded : soloStore.Sound ∧
    Serial.Run StoreCall.task Ticks (fun _ _ => True) soloStore soldTwice ∧ soldTwice.limits 8 =
      some ⟨1, 1⟩ ∧ soldTwice.fulfilled 8 = 2 ∧ soldTwice.bought 8 5 = 2 ∧ ¬soldTwice.CapsHold := by
  have hlimit : soldTwice.limits 8 = some ⟨1, 1⟩ := by decide +kernel
  have hsold : soldTwice.fulfilled 8 = 2 := by decide +kernel
  refine ⟨soloStore_sound, Serial.calls_run _ _ _, hlimit, hsold, by decide +kernel, fun h => ?_⟩
  have hle := h.stock 8 _ hlimit Nat.one_pos
  rw [hsold] at hle
  exact absurd hle (by decide)

/-- The order is placed and paid. -/
def orderedOnce : Storefront := Serial.calls StoreCall.task [soloOrder] soloStore

theorem orderedOnce_room : FindsRoom (soloConfirm 101) orderedOnce := by
  have htarget : orderedOnce.target (soloConfirm 101) = some 100 := by decide +kernel
  have hview : (orderedOnce.view 100).map (fun v => (v.planId, v.customerId)) =
      some (some 8, some 5) := by
    decide +kernel
  have hlimit : orderedOnce.limits 8 = some ⟨1, 1⟩ := by decide +kernel
  have hfree : orderedOnce.fulfilled 8 = 0 ∧ orderedOnce.bought 8 5 = 0 := by decide +kernel
  intro id hid v hv
  rw [htarget] at hid
  obtain rfl := Option.some.inj hid
  rw [hv] at hview
  obtain ⟨hplan, hcustomer⟩ := Prod.mk.inj (Option.some.inj hview)
  rw [hplan, hcustomer]
  refine ⟨fun _ k o hk hl hpos => ?_, fun _ k c o hk hc hl hpos => ?_⟩
  · obtain rfl := Option.some.inj hk
    rw [hfree.1]
    exact hpos
  · obtain rfl := Option.some.inj hk
    obtain rfl := Option.some.inj hc
    rw [hfree.2]
    exact hpos

/-- One sale of the only piece is within the caps. -/
theorem capsHold_run_once :
    ∃ t, Serial.Run StoreCall.task Ticks FindsRoom soloStore t ∧ t.fulfilled 8 = 1 ∧
    t.CapsHold := by
  have hrun : Serial.Run StoreCall.task Ticks FindsRoom soloStore
      (Serial.calls StoreCall.task [soloOrder, soloConfirm 101] soloStore) :=
    .head (.call soloOrder fun _ h => by
      cases h) (.single (.call (soloConfirm 101) orderedOnce_room))
  exact ⟨_, hrun, by decide +kernel, capsHold_run soloStore_sound hrun⟩

end Storefront

end SRPanel
