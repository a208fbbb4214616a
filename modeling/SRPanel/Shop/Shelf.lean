import SRPanel.Delivery.Failures
import SRPanel.Gateway.Capture
import SRPanel.Lib.Metered
import SRPanel.Model.Storefront

/-!
# What a call about one order leaves alone

The confirmation, the delivery and the cancellation of an order leave the other orders as they are,
and the plans too, except for the counters of sales: an order that becomes fulfilled is counted by
its plan.
-/

namespace SRPanel

open Interleaving Prog

/-- The orders stay as they are. -/
def World.SameOrders (w w' : World) : Prop := w'.orders = w.orders

theorem World.SameOrders.refl (w : World) : World.SameOrders w w := rfl

/-! ## Payments -/

section Payments

variable {α : Type}

theorem sameOrders_logged {p : Service α} (hp : p.Keeps Logged) : p.Keeps World.SameOrders :=
  hp.mono fun _ _ h => h.same World.orders fun _ => rfl

theorem read_sameOrders (f : World → α) : (Db.read f).Keeps World.SameOrders :=
  keeps_query World.SameOrders.refl _ f

theorem updatePayment_sameOrders (l : Stmt) (id : PaymentId) (f : Payment → Payment)
    (record : Payment → History → History) :
    (Db.updatePayment l id f record).Keeps World.SameOrders := by
  refine keeps_step fun w => ?_
  cases w.payments.get? id with
  | none => rfl
  | some p => rfl

theorem createPayment_sameOrders (p : Payment) : (Db.createPayment p).Keeps World.SameOrders :=
  keeps_step fun _ => rfl

theorem closePayments_sameOrders (orderId : OrderId) (f : Payment → Payment) :
    (closePayments orderId f).Keeps World.SameOrders := keeps_modify fun _ => rfl

/-- A charge leaves the orders. -/
theorem chargeWallet_sameOrders (target : Actor) (amount : ℤ) (kind : WalletTxKind) (ref : TxRef)
    (byAdminId : Option AdminId) (allowNegative : Bool) :
    (chargeWallet target amount kind ref byAdminId allowNegative).Keeps World.SameOrders := by
  refine (chargeWallet_keeps_charged target amount kind ref byAdminId allowNegative).mono
    fun w w' h => ?_
  have horders := congrArg World.orders h.rest
  exact horders

theorem creditCustomerWallet_sameOrders (customerId : CustomerId) (amount : ℤ) (kind : WalletTxKind)
    (ref : TxRef) (seen : Option (WalletTx CustomerId)) :
    (creditCustomerWallet customerId amount kind ref seen).Keeps World.SameOrders := by
  refine keeps_ite (keeps_throw _) (keeps_step fun w => ?_)
  cases w.customers.get? customerId with
  | none => rfl
  | some c => rfl

/-- A debit is not about orders or payments. -/
theorem debitCustomerWallet_apart (customerId : CustomerId) (amount : ℤ) (kind : WalletTxKind)
    (ref : TxRef) : (debitCustomerWallet customerId amount kind ref).Keeps fun w w' =>
      World.SameOrders w w' ∧ w'.payments = w.payments := by
  refine keeps_ite (keeps_throw _) (keeps_bind (keeps_query (fun _ => ⟨rfl, rfl⟩) _ _)
    fun c => ?_)
  cases c with
  | none => exact keeps_throw _
  | some c =>
      refine keeps_ite (keeps_throw _) (keeps_step fun w => ?_)
      cases w.customers.get? customerId with
      | none => exact ⟨rfl, rfl⟩
      | some c => exact ⟨rfl, rfl⟩

theorem settleCustomerTopup_sameOrders (id : PaymentId) :
    (settleCustomerTopup id).Keeps World.SameOrders := by
  refine keeps_bind (read_sameOrders _) fun payment => ?_
  cases payment with
  | none => exact keeps_pure _
  | some payment =>
      dsimp only
      cases payment.customerId with
      | none => exact keeps_pure _
      | some customerId =>
          refine keeps_ite (keeps_pure _) (keeps_bind (read_sameOrders _) fun already => ?_)
          cases already with
          | some t => exact keeps_pure _
          | none =>
              exact keeps_bind (read_sameOrders _) fun store =>
                keeps_bind (creditCustomerWallet_sameOrders _ _ _ _ _) fun balance =>
                  keeps_bind (sameOrders_logged (audit_keeps_logged _ _)) fun _ => keeps_pure _

/-- The confirmation of a top-up is not about an order. -/
theorem applyTopup_sameOrders (id : PaymentId) (p : Payment) (opts : ConfirmOpts)
    (hkind : p.kind = .topup) : (applyConfirmation id p opts).Keeps World.SameOrders := by
  have htell : ∀ name, Prog.Keeps World.SameOrders (do
      notify "wallet.topup"
      emitEvent (some p.adminId) name) := fun name =>
    keeps_bind (sameOrders_logged (notify_keeps_logged _))
      fun _ => sameOrders_logged (emitEvent_keeps_logged _ _)
  refine keeps_ite (keeps_bind (settleCustomerTopup_sameOrders id) fun _ => htell _) ?_
  rw [if_pos hkind]
  exact keeps_bind (chargeWallet_sameOrders _ _ _ _ _ _) fun _ => htell _

/-- A new payment leaves the orders. -/
theorem beginPayment_sameOrders (s : StoreSettings) (input : BeginPaymentInput) :
    (beginPayment s input).Keeps World.SameOrders := by
  unfold beginPayment
  refine keeps_ite (keeps_throw _) (keeps_ite (keeps_throw _) ?_)
  refine keeps_bind (read_sameOrders _) fun now => ?_
  dsimp only
  split
  · refine keeps_bind ((quoteCrypto_reads s input.amount input.assetId).keeps World.SameOrders.refl) fun q =>
      createPayment_sameOrders _
  · exact createPayment_sameOrders _
  · refine keeps_bind (read_sameOrders _) fun merchant => ?_
    cases merchant with
    | none => exact keeps_throw _
    | some merchant =>
        refine keeps_bind (createPayment_sameOrders _) fun payment => keeps_bind ?_ fun r => ?_
        · refine keeps_step fun w => ?_
          cases w.outside.zarinpalDown with
          | some e => rfl
          | none => rfl
        · cases r with
          | error e =>
              exact keeps_bind (updatePayment_sameOrders _ _ _ _) fun _ => keeps_throw _
          | ok r =>
              refine keeps_bind (keeps_step fun w => ?_) fun updated => keeps_pure _
              cases w.payments.get? payment.1 with
              | none => rfl
              | some p => dsimp only; split <;> rfl
  · exact keeps_throw _

end Payments

/-! ## The shelf -/

/-- What a count of orders goes by: the plan and the customer of an order. -/
def OrderInfo.subject (i : OrderInfo) : Option PlanId × Option CustomerId :=
  (i.planId, i.customerId)

namespace Site

/-- The orders and the plans stay as they are. -/
structure SameShelf (s s' : Site) : Prop where
  orders : s'.base.orders = s.base.orders
  info : s'.orderInfo = s.orderInfo
  plans : s'.plans = s.plans

/-- The sales of a plan, as its counter has them. -/
def sold (s : Site) (planId : PlanId) : ℕ := ((s.plans.get? planId).map Plan.sold).getD 0

/-- What a call about one order may do: it leaves the other orders alone, and if it makes its order
fulfilled, the plan of the order counts a sale. -/
structure Handled (id : OrderId) (s s' : Site) : Prop where
  others : ∀ k, k ≠ id → s'.base.orders.get? k = s.base.orders.get? k
  otherInfo : ∀ k, k ≠ id → s'.orderInfo.get? k = s.orderInfo.get? k
  seller : (s'.base.orders.get? id).map Order.adminId = (s.base.orders.get? id).map Order.adminId
  subject : (s'.orderInfo.get? id).map OrderInfo.subject =
    (s.orderInfo.get? id).map OrderInfo.subject
  plans : ∀ k, (s'.plans.get? k).map Plan.adminId = (s.plans.get? k).map Plan.adminId
  sold : ∀ k, s.sold k ≤ s'.sold k
  counted : s'.orderStatus id = some .fulfilled → s.orderStatus id = some .fulfilled ∨
    ∀ i k, s.orderInfo.get? id = some i → i.planId = some k → (s.plans.get? k).isSome →
    s.sold k < s'.sold k

section

variable {id : OrderId} {s s' s'' : Site} {α β : Type}

theorem SameShelf.refl (s : Site) : SameShelf s s := ⟨rfl, rfl, rfl⟩

theorem SameShelf.trans (s s' s'' : Site) (h : SameShelf s s') (h' : SameShelf s' s'') :
    SameShelf s s'' :=
  ⟨h'.orders.trans h.orders, h'.info.trans h.info, h'.plans.trans h.plans⟩

/-- A change of the row of one order that does not make it fulfilled. -/
theorem Handled.of_row (hothers : ∀ k, k ≠ id → s'.base.orders.get? k = s.base.orders.get? k)
    (hseller : (s'.base.orders.get? id).map Order.adminId =
      (s.base.orders.get? id).map Order.adminId)
    (hstatus : s'.orderStatus id = some .fulfilled → s.orderStatus id = some .fulfilled)
    (hinfo : s'.orderInfo = s.orderInfo) (hplans : s'.plans = s.plans) : Handled id s s' where
  others := hothers
  otherInfo k _ := by rw [hinfo]
  seller := hseller
  subject := by rw [hinfo]
  plans k := by rw [hplans]
  sold k := by rw [Site.sold, Site.sold, hplans]
  counted h := .inl (hstatus h)

theorem SameShelf.handled (id : OrderId) (h : SameShelf s s') : Handled id s s' :=
  .of_row (fun k _ => by rw [h.orders]) (by rw [h.orders])
    (fun hs => by rwa [orderStatus, h.orders] at hs) h.info h.plans

theorem Handled.refl (id : OrderId) (s : Site) : Handled id s s := (SameShelf.refl s).handled id

theorem Handled.trans (s s' s'' : Site) (h : Handled id s s') (h' : Handled id s' s'') :
    Handled id s s'' where
  others k hk := (h'.others k hk).trans (h.others k hk)
  otherInfo k hk := (h'.otherInfo k hk).trans (h.otherInfo k hk)
  seller := h'.seller.trans h.seller
  subject := h'.subject.trans h.subject
  plans k := (h'.plans k).trans (h.plans k)
  sold k := (h.sold k).trans (h'.sold k)
  counted hend := by
    rcases h'.counted hend with hmid | hcounted
    · rcases h.counted hmid with hstart | hcounted
      · exact .inl hstart
      · exact .inr fun i k hi hk hplan => (hcounted i k hi hk hplan).trans_le (h'.sold k)
    · refine .inr fun i k hi hk hplan => (h.sold k).trans_lt ?_
      -- the order still is for the same plan, which is still there
      have hsubject := h.subject
      rw [hi] at hsubject
      obtain ⟨i', hi', heq⟩ := Option.map_eq_some_iff.mp hsubject
      have hplan' := congrArg Option.isSome (h.plans k)
      rw [Option.isSome_map, Option.isSome_map] at hplan'
      exact hcounted i' k hi' ((congrArg Prod.fst heq).trans hk) (hplan'.trans hplan)

/-! ## Configs and packages -/

/-- Synchronisation leaves the shelf. -/
theorem shelf_of_synced {p : Task α} (hp : p.Keeps Synced) : p.Keeps SameShelf :=
  hp.mono fun _ _ h => ⟨h.same (fun s => s.base.orders) fun _ => rfl,
    h.same Site.orderInfo fun _ => rfl, h.same Site.plans fun _ => rfl⟩

theorem shelf_of_pushed {p : Task α} (hp : p.Keeps Pushed) : p.Keeps SameShelf :=
  shelf_of_synced (hp.mono fun _ _ h => h.synced)

theorem shelf_of_reads {V : Site → Site → Prop} {p : Task α} (hp : p.Reads V) : p.Keeps SameShelf :=
  hp.keeps SameShelf.refl

theorem read_shelf (f : Site → α) : (read f).Keeps SameShelf := keeps_query SameShelf.refl _ f

theorem lift_shelf {p : Service α} (hp : p.Keeps World.SameOrders) : (lift p).Keeps SameShelf := by
  refine (hp.zoom world Mark.base).mono fun s s' h => ?_
  obtain ⟨horders, hrest⟩ := h
  refine ⟨horders, ?_, ?_⟩
  · rw [← hrest]
    rfl
  · rw [← hrest]
    rfl

theorem logs_shelf {p : Service α} (hp : p.Keeps Logged) : (lift p).Keeps SameShelf :=
  lift_shelf (sameOrders_logged hp)

theorem chargeFor_shelf (actor : Operator) (cost : ℤ) (id : ClientId) :
    (chargeFor actor cost id).Keeps SameShelf :=
  keeps_ite (keeps_bind (lift_shelf (chargeWallet_sameOrders _ _ _ _ _ _)) fun _ => keeps_pure _)
    (keeps_pure _)

theorem provisionGroups_shelf (id : ClientId) (client : Client) (expiry : Option ℤ)
    (seen : List ServerId) (groups : List PanelGroup) :
    (provisionGroups id client expiry seen groups).Keeps SameShelf := by
  refine (provisionGroups_provisioned id client expiry seen groups).mono fun s s' h => ?_
  have horders := congrArg (fun s : Site => s.base.orders) h.rest
  have hinfo := congrArg Site.orderInfo h.rest
  have hplans := congrArg Site.plans h.rest
  exact ⟨horders, hinfo, hplans⟩

/-- A new client leaves the shelf. -/
theorem createClient_shelf (actor : Operator) (input : CreateClientInput) (cause : Option OrderId) :
    (createClient actor input cause).Keeps SameShelf := by
  refine keeps_bind (shelf_of_reads (admitClient_reads_state actor input)) fun a =>
    keeps_bind (keeps_step fun _ => ⟨rfl, rfl, rfl⟩) fun created =>
      keeps_bind (keeps_ite (keeps_modify fun _ => ⟨rfl, rfl, rfl⟩) (keeps_pure ())) fun _ =>
        keeps_bind (chargeFor_shelf _ _ _) fun _ =>
          keeps_bind (provisionGroups_shelf _ _ _ _ _) fun errors =>
            keeps_bind (logs_shelf (audit_keeps_logged _ _)) fun _ =>
              keeps_bind (shelf_of_reads (getClientForActor_reads _ _)) fun client => keeps_pure _

/-- So does an update of one. -/
theorem updateClient_shelf (actor : Operator) (id : ClientId) (input : UpdateClientInput)
    (cause : Option OrderId) : (updateClient actor id input cause).Keeps SameShelf := by
  refine keeps_bind (shelf_of_reads (getClientForActor_reads _ _)) fun current =>
    keeps_bind (shelf_of_reads (updateData_reads actor current input)) fun data =>
      keeps_bind (keeps_ite (keeps_modify fun _ => ⟨rfl, rfl, rfl⟩) (keeps_pure ())) fun _ =>
        keeps_bind (shelf_of_reads (updateCost_reads actor current input)) fun cost =>
          keeps_bind (keeps_step fun s => ?_) fun _ =>
            keeps_bind (chargeFor_shelf _ _ _) fun _ =>
              keeps_bind (shelf_of_pushed (recomputeClient_pushed _)) fun _ =>
                keeps_bind (shelf_of_reads (getClientForActor_reads _ _)) fun client =>
                  keeps_bind (shelf_of_pushed (pushClient_pushed client)) fun errors =>
                    keeps_bind (logs_shelf (audit_keeps_logged _ _)) fun _ => keeps_pure _
  cases s.clients.get? current.id with
  | none => exact SameShelf.refl s
  | some c => exact ⟨rfl, rfl, rfl⟩

theorem orderConfig_shelf (f : FoundOrder) : (orderConfig f).Keeps SameShelf := by
  unfold orderConfig
  cases f.info.renewClientId with
  | some id =>
      refine keeps_bind (read_shelf _) fun existing => ?_
      cases existing with
      | none => exact keeps_throw _
      | some links =>
          exact keeps_bind (shelf_of_synced (resetClientTraffic_synced _ _)) fun _ =>
            keeps_bind (updateClient_shelf _ _ _ _) fun updated => keeps_pure _
  | none =>
      exact keeps_bind (shelf_of_reads (resolveOrderTargets_reads _ _ _)) fun found =>
        keeps_bind (keeps_bind (keeps_step fun _ => ⟨rfl, rfl, rfl⟩) fun _ => read_shelf _)
          fun name =>
          keeps_bind (createClient_shelf _ _ _) fun created => keeps_pure _

theorem grantPanel_shelf (f : FoundOrder) (link : PanelPlanLink) (pkg : PanelPackage) (now : ℤ)
    (key : AdminId × BuyerKey) : (grantPanel f link pkg now key).Keeps SameShelf := by
  refine grantPanel_keeps SameShelf.refl (keeps_step fun _ => ⟨rfl, rfl, rfl⟩) f (fun account => ?_)
    (fun seen figures g => ?_) link pkg now key
  · refine keeps_step fun s => ?_
    split
    · exact SameShelf.refl s
    · exact ⟨rfl, rfl, rfl⟩
  · refine keeps_step fun s => ?_
    cases s.operator seen.id with
    | none => exact SameShelf.refl s
    | some o => exact ⟨rfl, rfl, rfl⟩

/-! ## Deliveries -/

/-- The order that was found is still for the same plan. -/
def Matches (f : FoundOrder) (s : Site) : Prop :=
  ∀ i, s.orderInfo.get? f.id = some i → i.planId = f.info.planId

theorem Handled.matches {f : FoundOrder} (h : Handled f.id s s') (hs : Matches f s) :
    Matches f s' := by
  intro i' hi'
  have hsubject := h.subject
  rw [hi'] at hsubject
  obtain ⟨i, hi, heq⟩ := Option.map_eq_some_iff.mp hsubject.symm
  exact (congrArg Prod.fst heq).symm.trans (hs i hi)

/-- The procedure does no more than a call about the order may. -/
def Handles (id : OrderId) (I : Site → Prop) (p : Task α) : Prop := p.Leads I (Handled id)

theorem handles_of_shelf {I : Site → Prop} {p : Task α} (hp : p.Keeps SameShelf) : Handles id I p :=
  fun s _ => (hp.run SameShelf.refl SameShelf.trans s).handled id

/-- The rule for sequencing. -/
theorem handles_bind {I : Site → Prop} (hI : ∀ s s', Handled id s s' → I s → I s') {p : Task β}
    {q : β → Task α} (hp : Handles id I p) (hq : ∀ b, Handles id I (q b)) :
    Handles id I (p >>= q) :=
  leads_bind Handled.trans hI hp hq

/-- The rule for handlers. -/
theorem handles_attempt {I : Site → Prop} (hI : ∀ s s', Handled id s s' → I s → I s') {p : Task α}
    {H : AppError → Task α} (hp : Handles id I p) (hH : ∀ e, Handles id I (H e)) :
    Handles id I (p.attempt H) :=
  leads_attempt Handled.trans hI hp hH

/-- The plan of an order counts a sale. -/
def withSale (s : Site) (planId : Option PlanId) : Site :=
  match planId with
  | none => s
  | some id => { s with plans := s.plans.modify id fun p => { p with sold := p.sold + 1 } }

theorem countSale_wp {Q : Unit → Site → Prop} {E : AppError → Site → Prop}
    (planId : Option PlanId) : Prog.wp (countSale planId) Q E s ↔ Q () (s.withSale planId) := by
  cases planId with
  | none => rfl
  | some id => simp only [countSale, wp_attempt, write, wp_modify, withSale]

/-- A sale counts for its own plan. -/
theorem sold_withSale (s : Site) (planId : Option PlanId) (k : PlanId) :
    (s.withSale planId).sold k = s.sold k + if planId = some k ∧
    (s.plans.get? k).isSome then 1 else 0 := by
  cases planId with
  | none => simp [withSale]
  | some id =>
      by_cases hk : k = id
      · subst hk
        simp only [withSale, sold, Table.get?_modify_self]
        cases s.plans.get? k with
        | none => rfl
        | some p => simp
      · simp only [withSale, sold, Table.get?_modify_of_ne _ _ hk]
        rw [if_neg fun h => hk (Option.some.inj h.1).symm, Nat.add_zero]

/-- The order is closed as fulfilled, and its plan counts the sale. -/
theorem closed_handled {f : FoundOrder} (hmatch : Matches f s) {g : Order → Order}
    {h : OrderInfo → OrderInfo} {o : Order} (hrow : s.base.orders.get? f.id = some o)
    (hseller : (g o).adminId = o.adminId)
    (hsubject : ∀ i, (h i).subject = i.subject) :
    Handled f.id s (withSale { s with
      base := { s.base with orders := s.base.orders.modify f.id fun _ => g o }
      orderInfo := s.orderInfo.modify f.id h
      deliveries := s.deliveries.close f.id } f.info.planId) := by
  have hframe : ∀ t : Site, (t.withSale f.info.planId).base = t.base ∧
      (t.withSale f.info.planId).orderInfo = t.orderInfo := by
    intro t
    cases f.info.planId <;> exact ⟨rfl, rfl⟩
  refine ⟨fun k hk => ?_, fun k hk => ?_, ?_, ?_, fun k => ?_, fun k => ?_, fun _ =>
    .inr fun i k hi hk hplan => ?_⟩
  · rw [(hframe _).1]
    exact Table.get?_modify_of_ne _ _ hk
  · rw [(hframe _).2]
    exact Table.get?_modify_of_ne _ _ hk
  · rw [(hframe _).1, Table.get?_modify_self, hrow]
    exact congrArg some hseller
  · rw [(hframe _).2, Table.get?_modify_self, Option.map_map]
    exact congrArg (fun g => Option.map g _) (funext hsubject)
  · cases f.info.planId with
    | none => rfl
    | some id =>
        show ((s.plans.modify id _).get? k).map _ = _
        rw [Table.get?_modify]
        split
        · rw [Option.map_map]
          rfl
        · rfl
  · rw [sold_withSale]
    exact Nat.le_add_right _ _
  · rw [sold_withSale, if_pos ⟨(hmatch i hi).symm.trans hk, hplan⟩]
    exact Nat.lt_succ_self _

/-- An order is closed as fulfilled, its plan counts the sale, and the rest is left alone. -/
theorem close_handles (f : FoundOrder) {g : Order → Order} {h : OrderInfo → OrderInfo}
    {after : Order → Task α} (hseller : ∀ o, (g o).adminId = o.adminId)
    (hsubject : ∀ i, (h i).subject = i.subject)
    (hafter : ∀ done s, Prog.wp (after done) (fun _ => SameShelf (s.withSale f.info.planId))
      (fun _ => SameShelf (s.withSale f.info.planId)) s) :
    Handles f.id (Matches f) (closeOrder f.id g h >>= after) := by
  refine leads_of_wp fun s hmatch => ?_
  rw [wp_bind, closeOrder, wp_step]
  cases hrow : s.base.orders.get? f.id with
  | none => exact Handled.refl f.id s
  | some o =>
      have hclosed := closed_handled hmatch hrow (hseller o) hsubject
      exact wp_mono _ (hafter _ _) (fun _ _ h => hclosed.trans _ _ _ (h.handled f.id))
        fun _ _ h => hclosed.trans _ _ _ (h.handled f.id)

/-- A failure handles the one order. -/
theorem failOrder_handles {I : Site → Prop} (id : OrderId) (err : AppError) :
    Handles id I (failOrder id err) := by
  refine leads_of_wp fun s _ => ?_
  rw [failOrder, wp_bind, closeOrder, wp_step]
  cases hrow : s.base.orders.get? id with
  | none => exact Handled.refl id s
  | some o =>
      have hnoted : Handled id s { s with
          base := { s.base with
            orders := s.base.orders.modify id fun _ =>
              { o with error := some (sliceTo 500 err.message) } }
          orderInfo := s.orderInfo.modify id fun i => i
          deliveries := s.deliveries.close id } := by
        refine .of_row (fun k hk => Table.get?_modify_of_ne _ _ hk) ?_ (fun hs => ?_) ?_ rfl
        · rw [Table.get?_modify_self, hrow]
          rfl
        · rw [orderStatus, Table.get?_modify_self, hrow] at hs
          rw [orderStatus, hrow]
          exact hs
        · simp only [Table.modify, ite_self]
          exact Table.mapRows_self _
      refine wp_mono _ (((keeps_bind (logs_shelf (notify_keeps_logged "order.failed")) fun _ =>
        keeps_pure _)).wp SameShelf.refl SameShelf.trans _) (fun _ s₁ h => ?_) fun _ s₁ h => ?_
      · exact hnoted.trans _ _ _ (h.handled id)
      · exact hnoted.trans _ _ _ (h.handled id)

/-- A sub-panel is handed over for the one order. -/
theorem providePanel_handles (f : FoundOrder) (link : PanelPlanLink) :
    Handles f.id (Matches f) (providePanel f link) := by
  have hI : ∀ s s', Handled f.id s s' → Matches f s → Matches f s' := fun _ _ h => h.matches
  refine handles_bind hI (handles_of_shelf (keeps_bind (read_shelf _) fun _ => keeps_ite
    (keeps_throw _) (keeps_pure ()))) fun _ => ?_
  refine handles_bind hI (handles_of_shelf (read_shelf _)) fun now => ?_
  refine handles_bind hI (handles_of_shelf (grantPanel_shelf f link _ _ _)) fun granted => ?_
  refine handles_bind hI (handles_of_shelf (keeps_bind (read_shelf _) fun _ =>
    keeps_modify fun _ => ⟨rfl, rfl, rfl⟩)) fun _ => ?_
  refine handles_bind hI (handles_of_shelf (read_shelf _)) fun reached => ?_
  refine handles_bind hI (handles_of_shelf (keeps_ite (keeps_bind (read_shelf _) fun _ =>
    keeps_modify fun _ => ⟨rfl, rfl, rfl⟩) (keeps_pure ()))) fun _ => ?_
  refine close_handles f (fun _ => rfl) (fun _ => rfl) fun done s => ?_
  rw [wp_bind, countSale_wp]
  exact (keeps_bind (logs_shelf (audit_keeps_logged _ _)) fun _ =>
    keeps_bind (logs_shelf (emitEvent_keeps_logged _ _)) fun _ =>
      keeps_bind (logs_shelf (notify_keeps_logged _)) fun _ => keeps_pure done).wp SameShelf.refl
        SameShelf.trans _

/-- So is a client. -/
theorem provideConfig_handles (f : FoundOrder) : Handles f.id (Matches f) (provideConfig f) := by
  have hI : ∀ s s', Handled f.id s s' → Matches f s → Matches f s' := fun _ _ h => h.matches
  refine handles_bind hI (handles_of_shelf (orderConfig_shelf f)) fun config => ?_
  refine handles_bind hI (handles_of_shelf (read_shelf _)) fun t => ?_
  refine close_handles f (fun _ => rfl) (fun _ => rfl) fun done s => ?_
  rw [wp_bind, announce, wp_bind, countSale_wp]
  exact (keeps_bind (logs_shelf (audit_keeps_logged _ _)) fun _ =>
    keeps_bind (logs_shelf (emitEvent_keeps_logged _ _)) fun _ =>
      keeps_bind (logs_shelf (notify_keeps_logged _)) fun _ => keeps_ite (keeps_pure ())
        (logs_shelf (notify_keeps_logged _))).wp SameShelf.refl SameShelf.trans _

theorem deliver_handles (f : FoundOrder) : Handles f.id (Matches f) (deliver f) := by
  have hI : ∀ s s', Handled f.id s s' → Matches f s → Matches f s' := fun _ _ h => h.matches
  refine handles_bind hI (handles_of_shelf ?_) fun link => ?_
  · cases f.info.planId with
    | none => exact keeps_pure _
    | some plan => exact read_shelf _
  · cases link with
    | some link => exact handles_attempt hI (providePanel_handles f link) fun err =>
      failOrder_handles f.id err
    | none => exact handles_attempt hI (provideConfig_handles f) fun err =>
      failOrder_handles f.id err

/-- Of an order that is not paid, nothing is delivered. -/
theorem fulfillOrder_idle (id : OrderId) (s : Site) (hpaid : s.orderStatus id ≠ some .paid) :
    SameShelf s ((fulfillOrder id).run s).2 := by
  refine (wp_store_iff _).mp ?_
  rw [fulfillOrder, wp_bind, wp_step]
  cases hfound : s.findOrder id with
  | none => exact ⟨rfl, rfl, rfl⟩
  | some f =>
      obtain ⟨-, hrow, -, -⟩ := findOrder_some hfound
      have hunpaid : f.order.status ≠ .paid := by
        intro h
        rw [orderStatus, hrow, Option.map_some, h] at hpaid
        exact hpaid rfl
      dsimp only
      by_cases hdone : f.order.status = .fulfilled
      · rw [if_pos hdone]
        exact ⟨rfl, rfl, rfl⟩
      · rw [if_neg hdone, if_pos hunpaid]
        exact ⟨rfl, rfl, rfl⟩

theorem fulfillOrder_handles (id : OrderId) : Handles id (fun _ => True) (fulfillOrder id) := by
  refine leads_of_wp fun s _ => ?_
  rw [fulfillOrder, wp_bind, wp_step]
  cases hfound : s.findOrder id with
  | none => exact Handled.refl id s
  | some f =>
      obtain ⟨rfl, hrow, hinfo, -⟩ := findOrder_some hfound
      have hbegun : SameShelf s { s with deliveries := s.deliveries.begin f.id f.order.status } :=
        ⟨rfl, rfl, rfl⟩
      dsimp only
      by_cases hdone : f.order.status = .fulfilled
      · rw [if_pos hdone]
        exact hbegun.handled f.id
      · by_cases hunpaid : f.order.status ≠ .paid
        · rw [if_neg hdone, if_pos hunpaid]
          exact hbegun.handled f.id
        · rw [if_neg hdone, if_neg hunpaid]
          refine (wp_store_iff _).mpr ((hbegun.handled f.id).trans _ _ _ (deliver_handles f _ ?_))
          intro i hi
          rw [hinfo] at hi
          rw [Option.some.inj hi]

/-! ## Confirmations -/

/-- The order of a payment that a confirmation goes through with. -/
def confirmTarget (s : Site) (paymentId : PaymentId) (opts : ConfirmOpts) : Option OrderId :=
  (s.base.payments.get? paymentId).bind fun p =>
    if (opts.reviewer.any fun a => !canReview a p) || p.status = .confirmed ||
      (p.status = .expired && opts.reviewer.isNone) || p.kind = .topup then none else p.orderId

/-- A call with the order that it is about, if it is about one. -/
def Turns (target : Option OrderId) (s s' : Site) : Prop :=
  match target with
  | none => SameShelf s s'
  | some id => Handled id s s'

theorem SameShelf.turns (h : SameShelf s s') (target : Option OrderId) : Turns target s s' := by
  cases target with
  | none => exact h
  | some id => exact h.handled id

theorem Turns.after {target : Option OrderId} (h : SameShelf s s') (h' : Turns target s' s'') :
    Turns target s s'' := by
  cases target with
  | none => exact h.trans _ _ _ h'
  | some id => exact (h.handled id).trans _ _ _ h'

/-- The row of an order is replaced by one of the same seller that is not fulfilled. -/
theorem Handled.of_replaced {o o' : Order} {w : World} (hrow : s.base.orders.get? id = some o)
    (hw : w.orders = s.base.orders.modify id fun _ => o') (hseller : o'.adminId = o.adminId)
    (hstatus : o'.status ≠ .fulfilled) : Handled id s (world.put w s) := by
  have hget : (world.put w s).base.orders.get? id = some o' := by
    show w.orders.get? id = some o'
    rw [hw, Table.get?_modify_self, hrow]
    rfl
  refine .of_row (fun k hk => ?_) ?_ (fun hs => ?_) rfl rfl
  · show w.orders.get? k = _
    rw [hw]
    exact Table.get?_modify_of_ne _ _ hk
  · rw [hget, hrow]
    exact congrArg some hseller
  · rw [orderStatus, hget] at hs
    exact absurd (Option.some.inj hs) hstatus

/-- A payment handles the one order. -/
theorem payOrder_handles (p : PaymentId) (id : OrderId) :
    Handles id (fun _ => True) (lift (payOrder p id)) := by
  refine leads_of_wp fun s _ => ?_
  rw [lift, wp_zoom, payOrder, wp_step]
  cases hrow : (world.get s).orders.get? id with
  | none => exact Handled.refl id s
  | some o => exact Handled.of_replaced hrow rfl rfl fun h => by cases h

/-- The status of an order is set, but not to fulfilled. -/
theorem updateOrder_handles {I : Site → Prop} (id : OrderId) {f : Time → Order → Order}
    (hseller : ∀ t o, (f t o).adminId = o.adminId) (hstatus : ∀ t o, (f t o).status ≠ .fulfilled) :
    Handles id I (lift (updateOrder id f)) := by
  refine leads_of_wp fun s _ => ?_
  rw [lift, wp_zoom, updateOrder, wp_step]
  cases hrow : (world.get s).orders.get? id with
  | none => exact Handled.refl id s
  | some o => exact Handled.of_replaced hrow rfl (hseller _ _) (hstatus _ _)

theorem confirmOrder_handles (p : PaymentId) (id : OrderId) (adminId : AdminId) :
    Handles id (fun _ => True) (confirmOrder p id adminId) :=
  handles_bind (fun _ _ _ h => h) (payOrder_handles p id) fun _ =>
    handles_bind
      (fun _ _ _ h => h) (handles_of_shelf (logs_shelf (emitEvent_keeps_logged _ _))) fun _ =>
      fulfillOrder_handles id

theorem confirmPayment_turns (evidence : Evidence) (paymentId : PaymentId) (opts : ConfirmOpts)
    (s : Site) : Turns (s.confirmTarget paymentId opts) s
      ((confirmPayment evidence paymentId opts).run s).2 := by
  refine (wp_store_iff _).mp ?_
  have hsame : ∀ t, Turns t s s := (SameShelf.refl s).turns
  rw [confirmPayment, wp_bind, lift, wp_zoom, Db.findPayment, Db.read, wp_query, confirmTarget]
  have hput : world.put (world.get s) s = s := world.put_get s
  rw [hput, world_get]
  cases s.base.payments.get? paymentId with
  | none => exact hsame none
  | some p =>
      dsimp only [Option.bind_some]
      by_cases hrefused : (opts.reviewer.any fun a => !canReview a p) = true
      · rw [if_pos hrefused]
        exact hsame _
      · rw [if_neg hrefused]
        by_cases hconfirmed : p.status = .confirmed
        · rw [if_pos hconfirmed]
          exact hsame _
        · rw [if_neg hconfirmed]
          by_cases hexpired : (p.status = .expired && opts.reviewer.isNone) = true
          · rw [if_pos hexpired]
            exact hsame _
          · rw [if_neg hexpired]
            -- the guards are past: the row is written, and its order follows
            have hquiet : ∀ {β : Type} {q : Task β} {t : Option OrderId} {s₁ : Site},
                q.Keeps SameShelf → Prog.wp q (fun _ s' => SameShelf s₁ s')
                  (fun _ s' => Turns t s₁ s') s₁ := fun hq =>
              wp_mono _ (hq.wp SameShelf.refl SameShelf.trans _) (fun _ _ h => h) fun _ _ h =>
                h.turns _
            rw [wp_bind]
            refine wp_mono _ (hquiet (lift_shelf (updatePayment_sameOrders _ _ _ _)))
              (fun updated s₁ h₁ => ?_) fun _ _ h => h
            rw [wp_bind]
            refine wp_mono _ (hquiet (logs_shelf (audit_keeps_logged _ _))) (fun _ s₂ h₂ => ?_)
              fun _ _ h => h.after h₁
            have h₂ := h₁.trans _ _ _ h₂
            rw [wp_bind, applyConfirmation]
            by_cases hkind : p.kind = .topup
            · rw [if_pos hkind]
              exact wp_mono _ (hquiet (lift_shelf (applyTopup_sameOrders _ _ _ hkind)))
                (fun _ _ h => (h₂.trans _ _ _ h).turns _) fun _ _ h => h.after h₂
            · rw [if_neg hkind]
              have hopen : ((opts.reviewer.any fun a => !canReview a p) ||
                  decide (p.status = .confirmed) ||
                    (decide (p.status = .expired) && opts.reviewer.isNone) ||
                      decide (p.kind = .topup)) = false := by
                rw [Bool.not_eq_true] at hrefused hexpired
                rw [hrefused, hexpired, decide_eq_false hconfirmed, decide_eq_false hkind]
                rfl
              rw [hopen, if_neg (by decide)]
              cases p.orderId with
              | none => exact h₂
              | some orderId =>
                  rw [wp_bind]
                  refine wp_mono _ ((wp_store_iff _).mpr
                    (confirmOrder_handles paymentId orderId p.adminId s₂ trivial))
                      (fun _ s₃ h₃ => ?_) fun _ s₃ h₃ => ?_
                  · exact (h₂.handled orderId).trans _ _ _ h₃
                  · exact (h₂.handled orderId).trans _ _ _ h₃

/-! ## Calls of the buyer and the seller -/

theorem abandon_handles {I : Site → Prop} (payment : PaymentId × Payment) (id : OrderId)
    (msg : String) (hI : ∀ s s', Handled id s s' → I s → I s') :
    Handles id I (lift (abandon payment id msg)) := by
  rw [lift, abandon, zoom_bind]
  refine handles_bind hI (handles_of_shelf (lift_shelf (updatePayment_sameOrders _ _ _ _))) fun _ =>
    ?_
  rw [zoom_bind]
  exact handles_bind hI (updateOrder_handles id (fun _ _ => rfl) fun _ _ h => by cases h) fun _ =>
    handles_of_shelf (keeps_pure ())

theorem recoverPurchase_handles {I : Site → Prop} (payment : PaymentId × Payment) (id : OrderId)
    (amount : ℤ) (customerId : CustomerId) (sellerId : AdminId) (err : AppError)
    (hI : ∀ s s', Handled id s s' → I s → I s') :
    Handles id I (lift (recoverPurchase payment id amount customerId sellerId err)) := by
  rw [lift, recoverPurchase, zoom_bind]
  refine handles_bind hI (handles_of_shelf (lift_shelf (keeps_query World.SameOrders.refl _ _)))
    fun current => ?_
  rw [zoom_ite]
  refine leads_ite ?_ (handles_of_shelf (lift_shelf (keeps_bind (read_sameOrders _) fun _ =>
    keeps_pure ())))
  rw [zoom_bind]
  refine handles_bind hI (handles_of_shelf (lift_shelf (keeps_attempt (keeps_bind
    (creditCustomerWallet_sameOrders _ _ _ _ _) fun _ => keeps_pure ()) fun _ => keeps_pure ())))
    fun _ => ?_
  rw [zoom_bind]
  refine handles_bind hI (abandon_handles payment id err.message hI) fun _ => ?_
  rw [zoom_bind]
  exact handles_bind hI (handles_of_shelf (logs_shelf (audit_keeps_logged _ _))) fun _ =>
    handles_of_shelf (keeps_throw err)

/-- What turns a target handles it. -/
theorem Turns.handled {target : Option OrderId} (h : Turns target s s')
    (htarget : ∀ k ∈ target, k = id) : Handled id s s' := by
  cases target with
  | none => exact SameShelf.handled id h
  | some k =>
      obtain rfl := htarget k rfl
      exact h

/-- The payment of a wallet order is for that order, so its confirmation is about no other. -/
theorem payOrderWithWallet_handles (id : OrderId) (amount : ℤ) (customerId : CustomerId)
    (sellerId : AdminId) : Handles id
      (fun _ => True) (payOrderWithWallet id amount customerId sellerId) := by
  have hI : ∀ s s' : Site, Handled id s s' → True → True := fun _ _ _ h => h
  have hafter : ∀ {β : Type} {q : Task β} {s s₁ : Site}, Handles id (fun _ => True) q →
      Handled id s s₁ → Prog.wp q (fun _ s' => Handled id s s') (fun _ s' => Handled id s s') s₁ :=
    fun hq h =>
    (wp_store_iff _).mpr (h.trans _ _ _ (hq _ trivial))
  refine leads_of_wp fun s _ => ?_
  rw [payOrderWithWallet, wp_bind, lift, wp_zoom, Db.createPayment, wp_step]
  dsimp only
  generalize hs₁ : world.put _ s = s₁
  have hcreated : SameShelf s s₁ := by
    rw [← hs₁]
    exact ⟨rfl, rfl, rfl⟩
  have hpayment : ∃ p, s₁.base.payments.get? (world.get s).nextId = some p ∧
      p.orderId = some id := by
    rw [← hs₁]
    exact ⟨_, Table.get?_set_self _ _ _, rfl⟩
  have hdebit : Prog.wp (lift (debitCustomerWallet customerId amount .purchase (.order id)))
      (fun _ s₂ => SameShelf s₁ s₂ ∧ s₂.base.payments = s₁.base.payments)
        (fun _ s₂ => SameShelf s₁ s₂) s₁ := by
    rw [lift, wp_zoom]
    refine wp_mono _ ((debitCustomerWallet_apart customerId amount .purchase (.order id)).wp
      (fun _ => ⟨rfl, rfl⟩) (fun _ _ _ h h' => ⟨h'.1.trans h.1, h'.2.trans h.2⟩) _)
        (fun _ w h => ?_)
      fun _ w h => ?_
    · exact ⟨⟨h.1, rfl, rfl⟩, h.2⟩
    · exact ⟨h.1, rfl, rfl⟩
  rw [wp_bind, wp_attempt, wp_bind]
  refine wp_mono _ hdebit (fun _ s₂ h₂ => ?_) fun err s₂ h₂ => ?_
  · obtain ⟨h₂, hsame⟩ := h₂
    have h₂ := (hcreated.trans _ _ _ h₂).handled id
    rw [wp_pure, wp_attempt, wp_bind]
    have htarget : ∀ k ∈ s₂.confirmTarget (world.get s).nextId (.auto none none), k = id := by
      obtain ⟨p, hp, horder⟩ := hpayment
      intro k hk
      rw [confirmTarget, hsame, hp, Option.bind_some] at hk
      split at hk
      · cases hk
      · rw [horder] at hk
        exact (Option.some.inj hk).symm
    have hconfirm := ((confirmPayment_turns (.wallet customerId) (world.get s).nextId
      (.auto none none) s₂).handled htarget)
    have hrecover : ∀ payment err s₃, Handled id s s₃ →
        Prog.wp (lift (recoverPurchase payment id amount customerId sellerId err))
          (fun _ s' => Handled id s s') (fun _ s' => Handled id s s') s₃ := fun payment err s₃ =>
      hafter (recoverPurchase_handles payment id amount customerId sellerId err hI)
    refine wp_mono _ ((wp_store_iff _).mpr hconfirm) (fun _ s₃ h₃ => ?_) fun err s₃ h₃ => ?_
    · have h₃ := h₂.trans _ _ _ h₃
      refine wp_mono _ (hafter (handles_of_shelf
        (keeps_bind (lift_shelf (read_sameOrders _)) fun _ => logs_shelf (notify_keeps_logged _)))
        h₃) (fun _ _ h => h) fun err s₄ h₄ => hrecover _ err s₄ h₄
    · exact hrecover _ err s₃ (h₂.trans _ _ _ h₃)
  · have h₂ := (hcreated.trans _ _ _ h₂).handled id
    rw [wp_bind]
    exact wp_mono _ (hafter (abandon_handles _ id err.message hI) h₂)
      (fun _ _ h₃ => h₃) fun _ _ h₃ => h₃

/-- What becomes of an order that has been placed is about that order. -/
theorem startOrder_handles (s : StoreSettings) (input : NewOrder) (buyer : Option CustomerId)
    (id : OrderId) : Handles id (fun _ => True) (Storefront.startOrder s input buyer id) := by
  have hI : ∀ s s' : Site, Handled id s s' → True → True := fun _ _ _ h => h
  unfold Storefront.startOrder
  refine leads_ite (handles_bind hI (fulfillOrder_handles id)
    fun _ => handles_of_shelf (keeps_pure ())) ?_
  cases buyer with
  | some customerId => exact payOrderWithWallet_handles id input.amount customerId input.adminId
  | none =>
      exact handles_of_shelf (keeps_bind (lift_shelf (beginPayment_sameOrders _ _)) fun _ =>
        logs_shelf (notify_keeps_logged _))

/-- A retry is about an order that is paid or, of a seller's own, still pending. -/
def retryTarget (s : Site) (actor : Actor) (id : OrderId) : Option OrderId :=
  (s.base.orders.get? id).bind fun o =>
    if (actor.role = .owner || o.adminId = actor.id) &&
      (o.status = .pending || o.status = .paid) then some id
    else none

theorem payManually_handles {I : Site → Prop} (actor : Actor) (id : OrderId) (order : Order)
    (hI : ∀ s s', Handled id s s' → I s → I s') :
    Handles id I (lift (payManually actor id order)) := by
  rw [lift, payManually, zoom_ite]
  refine leads_ite ?_ (handles_of_shelf (keeps_pure ()))
  rw [zoom_bind]
  refine handles_bind hI (leads_of_wp fun s _ => ?_) fun _ =>
    handles_of_shelf (lift_shelf (keeps_bind (closePayments_sameOrders _ _) fun _ =>
      sameOrders_logged (audit_keeps_logged _ _)))
  rw [wp_zoom, markPaid, wp_step]
  cases hrow : (world.get s).orders.get? id with
  | none => exact Handled.refl id s
  | some o => exact Handled.of_replaced hrow rfl rfl fun h => by cases h

theorem retryFulfill_turns (actor : Actor) (id : OrderId) (s : Site) :
    Turns (s.retryTarget actor id) s ((retryFulfill actor id).run s).2 := by
  refine (wp_store_iff _).mp ?_
  have hsame : ∀ t, Turns t s s := (SameShelf.refl s).turns
  rw [retryFulfill, wp_bind, lift, wp_zoom, Db.read, wp_query, retryTarget]
  have hput : world.put (world.get s) s = s := world.put_get s
  rw [hput, world_get]
  cases hrow : s.base.orders.get? id with
  | none => exact hsame none
  | some o =>
      dsimp only [Option.bind_some]
      by_cases hother : (actor.role ≠ .owner && o.adminId ≠ actor.id) = true
      · rw [if_pos hother]
        exact hsame _
      · rw [if_neg hother]
        have hown : (actor.role = .owner || o.adminId = actor.id) = true := by
          simp only [Bool.and_eq_true, decide_eq_true_eq, Bool.or_eq_true] at hother ⊢
          by_cases howner : actor.role = .owner
          · exact .inl howner
          · exact .inr (not_not.mp fun h => hother ⟨howner, h⟩)
        rw [hown, Bool.true_and]
        by_cases hopen : (o.status = .pending || o.status = .paid) = true
        · rw [if_pos hopen]
          exact (wp_store_iff _).mpr
            (handles_bind (fun _ _ _ h => h) (payManually_handles actor id o fun _ _ _ h =>
              h) (fun _ => fulfillOrder_handles id) s trivial)
        · rw [if_neg hopen]
          simp only [Bool.or_eq_true, decide_eq_true_eq, not_or] at hopen
          rw [payManually, if_neg hopen.1]
          refine (wp_store_iff _).mpr (fulfillOrder_idle id s ?_)
          rw [orderStatus, hrow]
          exact fun h => hopen.2 (Option.some.inj h)

/-- A cancellation leaves the order canceled, or as it was. -/
theorem cancelOrder_handled (actor : Actor) (id : OrderId) (s : Site) :
    Prog.wp (lift (cancelOrder actor id))
      (fun _ s' => Handled id s s' ∧
        (s'.orderStatus id = s.orderStatus id ∨ s'.orderStatus id = some .canceled))
      (fun _ s' => Handled id s s' ∧
        (s'.orderStatus id = s.orderStatus id ∨ s'.orderStatus id = some .canceled))
      s := by
  have hsame : Handled id s s ∧
      (s.orderStatus id = s.orderStatus id ∨ s.orderStatus id = some .canceled) :=
    ⟨.refl id s, .inl rfl⟩
  rw [lift, wp_zoom, cancelOrder, wp_bind, Db.read, wp_query]
  cases hrow : (world.get s).orders.get? id with
  | none => exact hsame
  | some o =>
      dsimp only
      by_cases hother : (actor.role ≠ .owner && o.adminId ≠ actor.id) = true
      · rw [if_pos hother]
        exact hsame
      · rw [if_neg hother]
        by_cases hdone : o.status = .fulfilled
        · rw [if_pos hdone]
          exact hsame
        · rw [if_neg hdone, closePayments, wp_bind, wp_modify, wp_bind, updateOrder, wp_step]
          dsimp only
          rw [hrow]
          have hcanceled : ∀ w, w.orders = s.base.orders.modify id (fun _ =>
              { o with status := .canceled }) →
                Handled id s (world.put w s) ∧
                ((world.put w s).orderStatus id = s.orderStatus id ∨
                  (world.put w s).orderStatus id = some .canceled) := by
            intro w hw
            refine ⟨.of_replaced hrow hw rfl fun h => (by cases h), .inr ?_⟩
            show (w.orders.get? id).map Order.status = _
            rw [hw, Table.get?_modify_self, show s.base.orders.get? id = some o from hrow]
            rfl
          refine wp_mono _ ((sameOrders_logged (keeps_bind (audit_keeps_logged _ _) fun _ =>
            keeps_bind (emitEvent_keeps_logged _ _) fun _ => keeps_pure _)).wp World.SameOrders.refl
            (fun _ _ _ h h' => h'.trans h) _) (fun _ w h => hcanceled w h) fun _ w h =>
              hcanceled w h

end

end Site

end SRPanel
