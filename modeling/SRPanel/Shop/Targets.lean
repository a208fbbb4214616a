import SRPanel.Shop.Caps

/-!
# The targets of an order

An order of a plan that was built from a service gets the targets that the service has when the
order is placed. `planTargetsFresh` asks for them as an admin, whatever the role of the seller, and
falls back to the targets stored with the plan. An owner has no access rows, so an owner's order
keeps the stored targets, unless the owner happens to have rows as an admin has them.
-/

namespace SRPanel

open Interleaving Prog

namespace Site

/-- An admin with this id may use the service, and has access to a target of it. -/
def AdminServed (s : Site) (id : AdminId) (service : ServiceRow) : Prop :=
  service.isActive ∧ (service.adminIds.isEmpty ∨ id ∈ service.adminIds) ∧
    ∃ t ∈ service.targets, canUse (some (s.serverAccessOf id)) t

/-- The seller is an admin; or the access rows that the owner has as an admin cover the whole
service; or they give nothing, and the targets stored with the plan are those of the service. -/
def TargetsCurrent (s : Site) (seller : Actor) (plan : Plan) (service : ServiceRow) : Prop :=
  seller.role = .admin ∨
    s.AdminServed seller.id service ∧
    (∀ t ∈ service.targets, canUse (some (s.serverAccessOf seller.id)) t) ∨
    ¬s.AdminServed seller.id service ∧ planTargets plan = service.targets

variable {s : Site} {id : AdminId} {serviceId : ServiceId} {service : ServiceRow}

/-- The targets of a service that an actor may use. -/
def usableTargets (s : Site) (actor : Actor) (service : ServiceRow) : List Target :=
  service.targets.filter (canUse
    (if actor.role = .owner then none else some (s.serverAccessOf actor.id)))

theorem usableTargets_owner (service : ServiceRow) :
    s.usableTargets ⟨id, .owner⟩ service = service.targets := by
  rw [usableTargets, if_pos rfl, List.filter_eq_self]
  intro t _
  rfl

theorem usableTargets_admin (service : ServiceRow) :
    s.usableTargets ⟨id, .admin⟩ service =
    service.targets.filter (canUse (some (s.serverAccessOf id))) := rfl

theorem accessOf_run (actor : Actor) (s : Site) :
    (accessOf actor).run s = (.ok
      (if actor.role = .owner then none else some (s.serverAccessOf actor.id)), s) := by
  unfold accessOf
  split <;> rfl

/-- `resolveServiceTargets` as a function of the state. -/
theorem resolveServiceTargets_run (actor : Actor)
    (hrow : s.services.get? serviceId = some service) :
      (resolveServiceTargets actor serviceId).run s =
      (if actor.role ≠ .owner && !service.isActive then .error (badRequest "این سرویس فعال نیست")
        else if actor.role ≠ .owner && !service.adminIds.isEmpty && actor.id ∉ service.adminIds then
          .error (forbiddenError "به این سرویس دسترسی ندارید")
        else if (s.usableTargets actor service).isEmpty then
          .error (badRequest ("هیچ اینباند در دسترسی برای سرویس «" ++ service.name ++ "» پیدا نشد"))
        else .ok (s.usableTargets actor service), s) := by
  simp only [resolveServiceTargets, getServiceForActor, run_bind, Site.read, run_query, hrow,
    refuseIf_run]
  by_cases hactive : (actor.role ≠ .owner && !service.isActive) = true
  · rw [if_pos hactive, if_pos hactive]
  rw [if_neg hactive, if_neg hactive]
  by_cases hids : (actor.role ≠ .owner && !service.adminIds.isEmpty &&
    actor.id ∉ service.adminIds) = true
  · simp only [if_pos hids]
  simp only [if_neg hids, run_pure, accessOf_run]
  unfold usableTargets
  generalize service.targets.filter _ = targets
  by_cases hempty : targets.isEmpty = true
  · simp only [if_pos hempty]
  · simp only [if_neg hempty]

/-- The service serves an admin whom no check of the resolution refuses. -/
theorem adminServed_iff : s.AdminServed id service ↔
    service.isActive = true ∧ (service.adminIds.isEmpty = true ∨ id ∈ service.adminIds) ∧
      (s.usableTargets ⟨id, .admin⟩ service).isEmpty = false := by
  rw [AdminServed, usableTargets_admin, List.isEmpty_eq_false_iff, Ne, List.filter_eq_nil_iff]
  simp only [not_forall, not_not, exists_prop]

/-- An admin gets the targets of the service that the access rows cover. -/
theorem resolveServiceTargets_admin (hrow : s.services.get? serviceId = some service)
    (hserved : s.AdminServed id service) :
    (resolveServiceTargets ⟨id, .admin⟩ serviceId).run s =
      (.ok (service.targets.filter (canUse (some (s.serverAccessOf id)))), s) := by
  obtain ⟨hactive, hids, hsome⟩ := adminServed_iff.mp hserved
  rw [resolveServiceTargets_run _ hrow, hsome]
  rcases hids with hids | hids
  · simp [hactive, hids, usableTargets_admin]
  · simp [hactive, hids, usableTargets_admin]

/-- An admin whom the service does not serve gets an error. -/
theorem resolveServiceTargets_unserved (hrow : s.services.get? serviceId = some service)
    (hserved : ¬s.AdminServed id service) :
    ∃ e, (resolveServiceTargets ⟨id, .admin⟩ serviceId).run s = (.error e, s) := by
  rw [resolveServiceTargets_run _ hrow]
  split_ifs with hactive hids hempty
  · exact ⟨_, rfl⟩
  · exact ⟨_, rfl⟩
  · exact ⟨_, rfl⟩
  · refine absurd (adminServed_iff.mpr ⟨?_, ?_, eq_false_of_ne_true hempty⟩) hserved
    · simpa using hactive
    · simpa [or_iff_not_imp_left] using hids

/-- An owner gets all targets of the service. -/
theorem resolveServiceTargets_owner (hrow : s.services.get? serviceId = some service)
    {targets : List Target} (h : ((resolveServiceTargets ⟨id, .owner⟩ serviceId).run s).1 =
      .ok targets) : targets = service.targets := by
  rw [resolveServiceTargets_run _ hrow, usableTargets_owner] at h
  simp only [ne_eq, not_true_eq_false, decide_false, Bool.false_and, Bool.false_eq_true,
    if_false] at h
  split at h
  · cases h
  · exact (Except.ok.inj h).symm

end Site

namespace Storefront

variable {t : Storefront} {plan : Plan} {serviceId : ServiceId} {service : ServiceRow}

/-- The targets of a plan are what its seller would get as an admin. -/
theorem planTargetsFresh_served (hservice : planServiceId plan = some serviceId)
    {s : Site} (hrow : s.services.get? serviceId = some service)
    (hserved : s.AdminServed plan.adminId service) :
    (planTargetsFresh plan).run s =
      (.ok (service.targets.filter (Site.canUse (some (s.serverAccessOf plan.adminId)))), s) := by
  rw [planTargetsFresh, hservice]
  simp only [run_attempt, Site.resolveServiceTargets_admin hrow hserved]

/-- Where an admin would get nothing, they are the stored ones. -/
theorem planTargetsFresh_unserved (hservice : planServiceId plan = some serviceId)
    {s : Site} (hrow : s.services.get? serviceId = some service)
    (hserved : ¬s.AdminServed plan.adminId service) :
    (planTargetsFresh plan).run s = (.ok (planTargets plan), s) := by
  obtain ⟨e, he⟩ := Site.resolveServiceTargets_unserved hrow hserved
  rw [planTargetsFresh, hservice]
  simp only [run_attempt, he, run_pure]

/-- What `createOrder` has found out when it inserts an order. -/
structure PricedOrder where
  settings : StoreSettings
  order : NewOrder
  info : OrderInfo
  columns : OrderColumns
  discount : Option (AdminId × String)
  buyer : Option CustomerId

/-- `createOrder`, up to the insertion of the order. -/
def priceOrder (slug : String) (input : CreateOrderInput) : StoreTask PricedOrder := do
  let (s, rules, seller) ← openShop slug
  let plan ← planOnSale seller.id input.planId
  let account ← signedIn seller.id input.customerId
  refuseIf (account.isNone && !rules.guestCheckout)
    ⟨"برای خرید از این فروشگاه باید وارد حساب کاربری شوید", 401, "login_required"⟩
  let contact := contactOf input.customer (account.map fun a => a.2.2)
  refuseIf (rules.requireTelegram && (contact.telegramId.bind orNull).isNone)
    (badRequest "شناسه عددی تلگرام لازم است")
  refuseIf (rules.requirePhone && (contact.phone.bind orNull).isNone)
    (badRequest "شماره موبایل لازم است")
  assertOrderRate input.ip
  let renewClientId ← renewedClient seller.id input.renewToken
  let d ← applyDiscount seller.id input.discountCode plan.price
  let base : NewOrder := ⟨input.token, seller.id, plan.price - d.discount, input.method,
    contact.telegramId, account.map Prod.fst, rules.accountsEnabled⟩
  let cards ← read fun t => t.amounts seller.id
  let amount ← onSite (Site.lift (invoiceAmount cards base))
  let order := { base with amount := amount }
  let buyer ← walletPayer s (account.map fun a => (a.1, a.2.1)) order
  let targets ← onSite (planTargetsFresh plan)
  pure ⟨s, order,
    ⟨some input.planId, none, account.map Prod.fst, renewClientId, contact.name, contact.phone,
      contact.email, none, ⟨plan.name, plan.trafficGB, plan.days, plan.ipLimit, targets⟩, none⟩,
    ⟨plan.price, d.key.map Prod.snd, d.discount, input.ip, 0⟩, d.key, buyer⟩

/-- `createOrder`, from the insertion of the order on. -/
def placeOrder (p : PricedOrder) : StoreTask Unit := do
  let orderId ← insertOrder p.order p.info p.columns
  countUse p.discount
  onSite (Site.lift (audit (some p.order.adminId) "order.create"))
  onSite (Site.lift (emitEvent (some p.order.adminId) "order.created"))
  onSite (startOrder p.settings p.order p.buyer orderId)

theorem createOrder_eq (slug : String) (input : CreateOrderInput) :
    createOrder slug input = priceOrder slug input >>= placeOrder := by
  simp only [createOrder, priceOrder, placeOrder, bind_assoc, pure_bind]

/-- A task on the site that changes nothing, with what it returns there. -/
theorem finds_onSite_run {α : Type} {p : Task α} (hp : p.Keeps fun s s' => s' = s) :
    Finds (onSite p) fun t a => (p.run t.site).1 = .ok a := by
  intro t
  have hsame := finds_onSite hp t
  unfold onSite at hsame ⊢
  simp only [Prog.wp, run_zoom] at hsame ⊢
  have hget : siteFocus.get t = t.site := rfl
  rw [hget] at hsame ⊢
  rcases h : p.run t.site with ⟨_ | a, s'⟩
  all_goals rw [h] at hsame
  · exact hsame
  · exact ⟨hsame.1, rfl⟩

theorem openShop_operator (slug : String) :
    Finds (openShop slug) fun t r => t.site.operator r.2.2.id = some r.2.2 := by
  refine finds_bind (finds_read _) fun found => ?_
  cases found with
  | none => exact finds_throw _
  | some shop =>
    refine finds_pure fun t hfound => ?_
    obtain ⟨row, hrow, hfound⟩ := Option.bind_eq_some_iff.mp hfound.symm
    obtain ⟨rules, -, hfound⟩ := Option.bind_eq_some_iff.mp hfound
    obtain ⟨seller, hseller, hfound⟩ := Option.bind_eq_some_iff.mp hfound
    split at hfound
    · obtain rfl := Option.some.inj hfound
      rw [(Site.operator_account hseller).1]
      exact hseller
    · cases hfound

section

-- unification must not compute the code of a discount
attribute [local irreducible] applyDiscount

/-- The targets of an order are the fresh targets of the seller's plan. -/
theorem priceOrder_finds (slug : String) (input : CreateOrderInput) :
    Finds (priceOrder slug input) fun t p => ∃ seller plan,
      t.site.operator p.order.adminId = some seller ∧
      t.planOf p.order.adminId input.planId = some plan ∧
      ((planTargetsFresh plan).run t.site).1 = .ok p.info.planSnapshot.targets := by
  unfold priceOrder
  refine finds_bind (openShop_operator slug) fun shop => ?_
  obtain ⟨s, rules, seller⟩ := shop
  dsimp only
  refine finds_bind (planOnSale_finds seller.id input.planId) fun plan => ?_
  refine finds_bind (signedIn_finds _ _) fun account => ?_
  refine finds_bind (finds_refuseIf _ _) fun _ => ?_
  generalize contactOf input.customer _ = contact
  refine finds_bind (finds_refuseIf _ _) fun _ => ?_
  refine finds_bind (finds_refuseIf _ _) fun _ => ?_
  refine finds_bind (assertOrderRate_finds _) fun _ => ?_
  refine finds_bind (renewedClient_finds _ _) fun renewClientId => ?_
  refine finds_bind (applyDiscount_finds _ _ _) fun d => ?_
  refine finds_bind (finds_read _) fun cards => ?_
  refine finds_bind (finds_onSite (lift_same (invoiceAmount_same _ _))) fun amount => ?_
  refine finds_bind (walletPayer_finds _ _ _) fun buyer => ?_
  refine finds_bind (finds_onSite_run (planTargetsFresh_same plan)) fun targets => ?_
  exact finds_pure fun t hfresh _ _ _ _ _ _ _ _ _ _ hplan hseller =>
    ⟨seller, plan, hseller, hplan, hfresh⟩

end

/-- The fresh targets are the ones that the seller resolves, exactly when they are current. -/
theorem planTargetsFresh_current_iff {s : Site} {seller : Actor} {targets : List Target}
    (hservice : planServiceId plan = some serviceId)
    (hrow : s.services.get? serviceId = some service)
    (hseller : plan.adminId = seller.id)
    (hresolved : ((Site.resolveServiceTargets seller serviceId).run s).1 = .ok targets) :
    ((planTargetsFresh plan).run s).1 = .ok targets ↔ s.TargetsCurrent seller plan service := by
  obtain ⟨id, role⟩ := seller
  obtain rfl : plan.adminId = id := hseller
  cases role with
  | admin =>
    refine iff_of_true ?_ (Or.inl rfl)
    by_cases hserved : s.AdminServed plan.adminId service
    · rw [planTargetsFresh_served hservice hrow hserved]
      rwa [Site.resolveServiceTargets_admin hrow hserved] at hresolved
    · obtain ⟨e, he⟩ := Site.resolveServiceTargets_unserved hrow hserved
      rw [he] at hresolved
      cases hresolved
  | owner =>
    obtain rfl := Site.resolveServiceTargets_owner hrow hresolved
    have hnot : ¬AdminRole.owner = .admin := by decide
    by_cases hserved : s.AdminServed plan.adminId service
    · rw [planTargetsFresh_served hservice hrow hserved, Except.ok.injEq, List.filter_eq_self]
      simp only [Site.TargetsCurrent, hserved, hnot, false_or, true_and, not_true_eq_false,
        false_and, or_false]
    · rw [planTargetsFresh_unserved hservice hrow hserved, Except.ok.injEq]
      simp only [Site.TargetsCurrent, hserved, hnot, false_or, not_false_eq_true,
        true_and, false_and]

/-- The order that is placed gets the targets that its seller resolves, exactly when they are
current. -/
theorem order_targets_current_iff {slug : String} {input : CreateOrderInput} {p : PricedOrder}
    {seller : Operator} {targets : List Target}
    (hpriced : ((priceOrder slug input).run t).1 = .ok p)
    (hseller : t.site.operator p.order.adminId = some seller)
    (hplan : t.site.plans.get? input.planId = some plan)
    (hservice : planServiceId plan = some serviceId)
    (hrow : t.site.services.get? serviceId = some service)
    (hresolved : ((Site.resolveServiceTargets seller.actor serviceId).run t.site).1 = .ok targets) :
    p.info.planSnapshot.targets = targets ↔ t.site.TargetsCurrent seller.actor plan service := by
  have hfinds := priceOrder_finds slug input t
  rw [Prog.wp] at hfinds
  rcases hrun : (priceOrder slug input).run t with ⟨_ | p', t'⟩
  all_goals rw [hrun] at hpriced hfinds
  · cases hpriced
  · obtain rfl := Except.ok.inj hpriced
    obtain ⟨-, seller', plan', hseller', hplan', hfresh⟩ := hfinds
    obtain rfl := Option.some.inj (hseller.symm.trans hseller')
    obtain ⟨hget, hadmin⟩ := Option.filter_eq_some_iff.mp hplan'
    obtain rfl := Option.some.inj (hplan.symm.trans hget)
    rw [← planTargetsFresh_current_iff hservice hrow ?_ hresolved, hfresh, Except.ok.injEq]
    exact (of_decide_eq_true hadmin).trans (Site.operator_account hseller).1.symm

end Storefront

/-! ## An owner's shop -/

open Storefront

/-- A service that has gained an inbound since the plan was made of it. -/
def grownService : ServiceRow := ⟨"s", [⟨3, 1⟩, ⟨3, 2⟩], [], true, 0, 0⟩

/-- The shop of `soloStore`, with a plan of a service; its seller has this role and these access
rows. -/
def serviceStore (role : AdminRole) (access : List (ServerId × List ℕ)) : Storefront :=
  { soloStore with
    site := { soloStore.site with
      base := { soloStore.site.base with admins := Table.empty.set 2 ⟨role, 0, 0⟩ }
      accounts := Table.empty.set 2 ⟨"r", 0, none, true, none, none, none, none, none, none,
        none, access⟩
      services := Table.empty.set 6 grownService
      plans := Table.empty.set 8 ⟨2, "p", 1, 30, 0, 1000, [⟨⟨3, 1⟩, some 6⟩], true, 0⟩ } }

/-- The order of a customer, to be paid by card. -/
def cardOrder : CreateOrderInput :=
  ⟨"t", 8, .card, ⟨none, none, none, none⟩, none, none, none, some 5⟩

/-- An owner's order has only the inbound stored with the plan. -/
theorem owner_order_stale :
    ((priceOrder "a" cardOrder).run (serviceStore .owner [])).1.toOption.map
    (fun p => p.info.planSnapshot.targets) =
        some [⟨3, 1⟩] ∧
      ((Site.resolveServiceTargets ⟨2, .owner⟩ 6).run (serviceStore .owner []).site).1.toOption =
        some [⟨3, 1⟩, ⟨3, 2⟩] := by
  decide +kernel

/-- The order of an owner whose access rows cover the service has all its inbounds. -/
theorem owner_order_current :
    ∃ p, ((priceOrder "a" cardOrder).run (serviceStore .owner [(3, [])])).1 = .ok p ∧
    p.info.planSnapshot.targets = [⟨3, 1⟩, ⟨3, 2⟩] := by
  have hseller : ((priceOrder "a" cardOrder).run (serviceStore .owner [(3, [])])).1.toOption.map
      (fun p => p.order.adminId) = some 2 := by decide +kernel
  cases hrun : ((priceOrder "a" cardOrder).run (serviceStore .owner [(3, [])])).1 with
  | error e =>
    rw [hrun] at hseller
    cases hseller
  | ok p =>
    rw [hrun] at hseller
    have hid : p.order.adminId = 2 := Option.some.inj hseller
    have hoperator : (serviceStore .owner [(3, [])]).site.operator p.order.adminId =
        some ⟨2, .owner, ⟨"r", 0, none, true, none, none, none, none, none, none, none,
          [(3, [])]⟩⟩ := by
      rw [hid]
      rfl
    have hplan : (serviceStore .owner [(3, [])]).site.plans.get? cardOrder.planId =
        some ⟨2, "p", 1, 30, 0, 1000, [⟨⟨3, 1⟩, some 6⟩], true, 0⟩ := rfl
    have hservice : (serviceStore .owner [(3, [])]).site.services.get? 6 = some grownService := rfl
    have hserved : (serviceStore .owner [(3, [])]).site.AdminServed 2 grownService ∧
        ∀ t ∈ grownService.targets,
        Site.canUse (some ((serviceStore .owner [(3, [])]).site.serverAccessOf 2)) t := by
      unfold Site.AdminServed
      decide +kernel
    exact ⟨p, rfl, (order_targets_current_iff hrun hoperator hplan rfl hservice
      (by decide +kernel)).mpr (.inr (.inl hserved))⟩

end SRPanel
