import SRPanel.Clients.Create
import SRPanel.Clients.Reset
import SRPanel.Delivery.SubPanels

/-!
# What a subscription order does

`fulfillOrder` on a paid order without a package: the config is renewed or created, and then the
order is closed. If the config fails, the order keeps its status and has the message; so what holds
after an order that ends fulfilled is decided by the config.
-/

namespace SRPanel

open Interleaving Prog

namespace Site

/-- The status of an order. -/
def orderStatus (s : Site) (id : OrderId) : Option OrderStatus :=
  (s.base.orders.get? id).map Order.status

/-- What `fulfillOrder` starts from once it has found a paid order. -/
def begun (s : Site) (id : OrderId) : Site := { s with deliveries := s.deliveries.begin id .paid }

theorem findOrder_some {s : Site} {id : OrderId} {f : FoundOrder} (h : s.findOrder id = some f) :
    f.id = id ∧ s.base.orders.get? id = some f.order ∧ s.orderInfo.get? id = some f.info ∧
      s.operator f.order.adminId = some f.seller := by
  unfold findOrder at h
  cases ho : s.base.orders.get? id with
  | none => rw [ho] at h; cases h
  | some o =>
      rw [ho] at h
      cases hi : s.orderInfo.get? id with
      | none => rw [hi] at h; cases h
      | some i =>
          rw [hi] at h
          dsimp only [Option.bind_eq_bind, Option.bind_some] at h
          cases hs : s.operator o.adminId with
          | none => rw [hs] at h; cases h
          | some seller =>
              rw [hs] at h
              obtain rfl := Option.some.inj h
              exact ⟨rfl, rfl, rfl, hs⟩

/-- The seller of an order that is found has a row. -/
theorem findOrder_seller {s : Site} {id : OrderId} {f : FoundOrder} (h : s.findOrder id = some f) :
    (s.base.admins.get? f.seller.id).isSome ∧ f.seller.id = f.order.adminId := by
  obtain ⟨-, -, -, hoperator⟩ := findOrder_some h
  have hid := (operator_account hoperator).1
  exact ⟨hid ▸ operator_row hoperator, hid⟩

theorem announce_booked (f : FoundOrder) (warnings : List String) :
    (announce f warnings).Keeps Booked :=
  keeps_bind (countSale_booked _) fun _ =>
    keeps_bind (lift_booked (audit_keeps_logged _ _)) fun _ =>
      keeps_bind (lift_booked (emitEvent_keeps_logged _ _)) fun _ =>
        keeps_bind (lift_booked (notify_keeps_logged _)) fun _ =>
          keeps_ite (keeps_pure ()) (lift_booked (notify_keeps_logged _))

theorem announce_returns (f : FoundOrder) (warnings : List String) :
    (announce f warnings).Returns := by
  refine returns_bind ?_ fun _ => returns_bind (audit_returns _ _).zoom fun _ =>
    returns_bind (emitEvent_returns _ _).zoom fun _ => returns_bind (notify_returns _).zoom fun _ =>
      returns_ite (returns_pure ()) (notify_returns _).zoom
  cases f.info.planId with
  | none => exact returns_pure ()
  | some id => exact returns_attempt fun _ => returns_pure ()

/-- A change that leaves the orders alone. -/
def SameOrders (s s' : Site) : Prop := s'.base.orders = s.base.orders

theorem SameOrders.refl (s : Site) : SameOrders s s := rfl

theorem failOrder_status (id : OrderId) (err : AppError) (s : Site) {o : Order}
    (hrow : s.base.orders.get? id = some o) :
    Prog.wp (failOrder id err) (fun _ s' => s'.orderStatus id = some o.status)
      (fun _ _ => False) s := by
  rw [failOrder, wp_bind, closeOrder, wp_step, hrow]
  dsimp only
  rw [wp_bind]
  refine wp_mono _ (wp_and ((lift_logs
    (notify_keeps_logged "order.failed")).wp Logs.refl Logs.trans _) ((notify_returns _).zoom.wp _))
      (fun _ s' h => ?_) fun _ _ h => h.2
  rw [wp_pure, orderStatus, h.1.base.same World.orders fun _ => rfl]
  show ((s.base.orders.modify id _).get? id).map _ = _
  rw [Table.get?_modify_self, hrow]
  rfl

/-- A paid order is delivered, with the package of its plan if there is one. -/
theorem fulfillOrder_paid_wp {Q : Order → Site → Prop} {E : AppError → Site → Prop} {s : Site}
    {id : OrderId} {f : FoundOrder} (hfound : s.findOrder id = some f)
    (hpaid : f.order.status = .paid)
    (h : Prog.wp (match s.linkOf f.info.planId with
      | some link => provisionPanelOrder f link
      | none => (provideConfig f).attempt (failOrder f.id)) Q E (s.begun id)) :
    Prog.wp (fulfillOrder id) Q E s := by
  unfold fulfillOrder
  rw [wp_bind, wp_step, hfound]
  dsimp only
  rw [if_neg (by rw [hpaid]; decide), if_neg (by rw [hpaid]; decide), hpaid, deliver, wp_bind]
  have hread : Prog.wp (panelPlanFor f.info.planId)
      (fun link s' => link = s.linkOf f.info.planId ∧ s' = s.begun id)
        (fun _ _ => False) (s.begun id) := by
    cases f.info.planId with
    | none => exact ⟨rfl, rfl⟩
    | some plan => exact (wp_query _ _).mpr ⟨rfl, rfl⟩
  refine wp_mono _ hread (fun link s₀ h₀ => ?_) fun _ _ h => h.elim
  obtain ⟨rfl, rfl⟩ := h₀
  exact h

/-- The rule for a paid order of a package. -/
theorem fulfillOrder_panel_wp {Q : Order → Site → Prop} {E : AppError → Site → Prop} {s : Site}
    {id : OrderId} {f : FoundOrder} {link : PanelPlanLink} (hfound : s.findOrder id = some f)
    (hpaid : f.order.status = .paid)
    (hlink : s.linkOf f.info.planId = some link)
    (h : Prog.wp (provisionPanelOrder f link) Q E (s.begun id)) :
    Prog.wp (fulfillOrder id) Q E s := by
  refine fulfillOrder_paid_wp hfound hpaid ?_
  rw [hlink]
  exact h

/-- The rule for a paid subscription order: what the bookkeeping keeps holds after it, if it ends
fulfilled, provided that it holds once the config is there. -/
theorem fulfillOrder_wp {P : Site → Prop} {s : Site} {id : OrderId} {f : FoundOrder}
    (hfound : s.findOrder id = some f) (hpaid : f.order.status = .paid)
    (hlink : s.linkOf f.info.planId = none) (hP : ∀ s s', Booked s s' → P s → P s')
    (hconfig : Prog.wp (orderConfig f) (fun _ s' => P s' ∧ SameOrders s s')
      (fun _ s' => SameOrders s s') (s.begun id)) :
    Prog.wp (fulfillOrder id) (fun _ s' => s'.orderStatus id = some .fulfilled → P s')
      (fun _ _ => False) s := by
  obtain ⟨hid, horder, -, -⟩ := findOrder_some hfound
  refine fulfillOrder_paid_wp hfound hpaid ?_
  rw [hlink]
  dsimp only
  rw [wp_attempt, provideConfig, wp_bind]
  refine wp_mono _ hconfig (fun config s₁ h₁ => ?_) fun err s₁ h₁ => ?_
  · have hrow : s₁.base.orders.get? f.id = some f.order := by rw [h₁.2, hid, horder]
    rw [wp_bind, now, read, wp_query, wp_bind, closeOrder, wp_step, hrow]
    dsimp only
    rw [wp_bind]
    refine wp_mono _ (wp_and ((announce_booked f config.2).wp Booked.refl Booked.trans _)
      ((announce_returns f config.2).wp _)) (fun _ s₂ h₂ _ => ?_) fun _ _ h => h.2.elim
    have hclosed : Booked s₁ s₂ := Booked.trans _ _ _ rfl h₂.1
    exact hP s₁ s₂ hclosed h₁.1
  · have hrow : s₁.base.orders.get? f.id = some f.order := by rw [h₁, hid, horder]
    refine wp_mono _ (failOrder_status f.id err s₁ hrow) (fun _ s₂ h₂ h => ?_) fun _ _ h => h
    rw [hid, h, hpaid] at h₂
    cases h₂

/-! ## Renewals -/

/-- What the renewal of a client leaves: the counters that the panels have reset, and the update. -/
structure Renewed (s : Site) (f : FoundOrder) (id : ClientId) (s' : Site) : Prop where
  /-- in the state `s₁` after the reset the update is accepted with the change `x` -/
  update : ∃ s₁ x, Synced s s₁ ∧ Zeroed (s.zeroedLinks id) s s₁ ∧
    s₁.updateVerdict f.seller id (renewal f.info.planSnapshot) = .ok x ∧
    Pushed (s₁.updated f.seller (renewal f.info.planSnapshot) (some f.id) x) s'
  tallied : s'.Tallied id

/-- A client that is renewed was there. -/
theorem Renewed.client {s s' : Site} {f : FoundOrder} {id : ClientId} (h : s.Renewed f id s') :
    ∃ c, s.clients.get? id = some c := by
  obtain ⟨s₁, x, hsynced, -, hverdict, -⟩ := h.update
  obtain ⟨-, hget, -⟩ := clientOf_id (updateVerdict_accepted hverdict).found
  have hsettled := hsynced.client id
  rw [hget] at hsettled
  obtain ⟨c, hc, -⟩ := Option.map_eq_some_iff.mp hsettled.symm
  exact ⟨c, hc⟩

theorem sameOrders_synced {s s' : Site} (h : Synced s s') : SameOrders s s' :=
  h.same (fun s => s.base.orders) fun _ => rfl

@[simp] theorem updated_orders (s : Site) (actor : Operator) (input : UpdateClientInput)
    (cause : Option OrderId) (x : Change) :
    (s.updated actor input cause x).base.orders = s.base.orders := by
  show (s.base.bill actor x.cost x.current.id).orders = _
  unfold World.bill
  split <;> rfl

theorem renewConfig_spec (f : FoundOrder) (id : ClientId) (s : Site)
    (hrow : (s.base.admins.get? f.seller.id).isSome) :
    Prog.wp (renewConfig f id) (fun r s' => r.1 = id ∧ s.Renewed f id s' ∧ SameOrders s s')
      (fun _ s' => SameOrders s s') s := by
  rw [renewConfig, wp_bind, read, wp_query]
  cases s.renewable f.seller.id id with
  | none => rfl
  | some links =>
      dsimp only
      rw [wp_bind]
      refine wp_mono _ (resetClientTraffic_spec f.seller.actor id s)
        (fun _ s₁ h₁ => ?_) fun _ s₁ h₁ => ?_
      · obtain ⟨-, hsynced, hzeroed, -⟩ := h₁
        have hrow₁ : (s₁.base.admins.get? f.seller.id).isSome := by
          rw [hsynced.same (fun s => s.base.admins) fun _ => rfl]
          exact hrow
        have hsame := sameOrders_synced hsynced
        rw [wp_bind]
        refine wp_mono _ (updateClient_spec f.seller id (renewal f.info.planSnapshot)
          (some f.id) s₁ hrow₁) (fun updated s₂ h₂ => ?_) fun _ s₂ h₂ => ?_
        · obtain ⟨x, hverdict, hpushed, htallied⟩ := h₂
          refine ⟨rfl, ⟨⟨s₁, x, hsynced, hzeroed, hverdict, hpushed⟩, htallied⟩, ?_⟩
          rw [SameOrders, sameOrders_synced hpushed.synced, updated_orders, hsame]
        · rcases h₂.2 with rfl | ⟨-, rfl⟩
          · exact hsame
          · rw [SameOrders, startSettled_base, hsame]
      · rw [h₁.2]
        rfl

/-! ## New clients -/

/-- The state after one draw. -/
def drawn (s : Site) : Site := { s with base := { s.base with nextId := s.base.nextId + 1 } }

/-- What an order that asks for a new client leaves: after the draw of its name, a client with its
bill and its links. -/
def Opened (s : Site) (f : FoundOrder) (s' : Site) : Prop :=
  ∃ name targets via a,
    ((admitClient f.seller (orderedClient f name targets via)).run s.drawn).1 = .ok a ∧
      Provisioned s.drawn.base.nextId
        (s.drawn.created f.seller (orderedClient f name targets via) a (some f.id)) s'

/-- The random name that the next draw gives. -/
def nextName (s : Site) : String := "srp-" ++ s.base.outside.randomHex s.base.nextId

theorem randomConfigName_wp {Q : String → Site → Prop} {E : AppError → Site → Prop} {s : Site} :
    Prog.wp randomConfigName Q E s ↔ Q s.nextName s.drawn := Iff.rfl

section

-- unification must not compute `trim` on a name that is not known
attribute [local irreducible] trim

theorem createConfig_spec (f : FoundOrder) (s : Site)
    (hrow : (s.base.admins.get? f.seller.id).isSome)
    (hfresh : ∀ k l, s.links.get? k = some l → k.clientId < s.base.nextId) :
    Prog.wp (createConfig f) (fun r s' => r.1 = s.drawn.base.nextId ∧ s.Opened f s' ∧
      SameOrders s s') (fun _ s' => SameOrders s s') s := by
  rw [createConfig, wp_bind, (resolveOrderTargets_reads _ _ _).wp_iff]
  cases ((resolveOrderTargets f.seller.actor f.info.planSnapshot f.info.planId).run s).1 with
  | error e => exact SameOrders.refl s
  | ok found =>
      dsimp only
      rw [wp_bind, randomConfigName_wp, wp_bind]
      have hnew : ∀ k, k.clientId = s.drawn.base.nextId → s.drawn.links.get? k = none := by
        intro k hk
        cases hl : s.links.get? k with
        | none => exact hl
        | some l =>
            have hlt := hfresh k l hl
            rw [show k.clientId = s.base.nextId + 1 from hk] at hlt
            exact absurd hlt (Nat.not_lt.mpr (Nat.le_succ _))
      refine wp_mono _ (createClient_spec f.seller _ (some f.id) s.drawn hrow hnew fun _ _ h => by
        cases h)
        (fun created s' h => ?_) fun _ s' h => ?_
      · obtain ⟨a, hadmit, hid, hprovisioned⟩ := h
        refine ⟨hid, ⟨s.nextName, _, _, a, hadmit, hprovisioned⟩, ?_⟩
        refine Eq.trans (congrArg (fun s => s.base.orders) hprovisioned.rest) ?_
        show (World.bill _ _ _ _).orders = _
        unfold World.bill
        split <;> rfl
      · rw [h.2]
        rfl

end

end Site

end SRPanel
