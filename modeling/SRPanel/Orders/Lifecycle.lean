import SRPanel.Orders.Frame
import SRPanel.Calls.Walk
import SRPanel.Confirm.Once

/-!
# The life of an order

An order ends `FULFILLED` or `CANCELED`. The module proves that no run of calls leads out of these
two states, and that an order is provisioned at most once, provided that no payment is confirmed
whose order has ended. Nothing in `confirmPayment` looks at the order, and a rejected payment may be
proved again.
-/

namespace SRPanel

open Interleaving Prog Interleaving.Serial

/-! ## The property and its condition -/

/-- The order has ended. -/
def Order.closed (o : Order) : Prop := o.status = .fulfilled ∨ o.status = .canceled

instance (o : Order) : Decidable o.closed := inferInstanceAs (Decidable (_ ∨ _))

/-- The order has not ended. -/
def World.orderOpen (w : World) (orderId : OrderId) : Prop :=
  ∀ o, w.orders.get? orderId = some o → ¬o.closed

instance (w : World) (orderId : OrderId) : Decidable (w.orderOpen orderId) :=
  inferInstanceAs (Decidable (∀ o ∈ w.orders.get? orderId, ¬o.closed))

/-- No payment is confirmed whose order has ended. -/
def BeforeTheEnd : Stmt → World → Prop
  | .update columns rows, w => columns.any Column.isVerdict →
      ∀ r ∈ rows, r.2.kind = .order → ∀ orderId ∈ r.2.orderId, w.orderOpen orderId
  | _, _ => True

instance (l : Stmt) (w : World) : Decidable (BeforeTheEnd l w) :=
  match l with
  | .update columns rows => inferInstanceAs (Decidable (columns.any Column.isVerdict →
      ∀ r ∈ rows, r.2.kind = .order → ∀ orderId ∈ r.2.orderId, w.orderOpen orderId))
  | .other => isTrue trivial
  | .callback _ _ _ => isTrue trivial
  | .called _ _ => isTrue trivial
  | .receive _ _ _ => isTrue trivial
  | .look _ _ _ _ => isTrue trivial
  | .release _ _ _ => isTrue trivial
  | .saveBook _ _ => isTrue trivial
  | .tag _ => isTrue trivial
  | .credit _ _ _ _ _ => isTrue trivial
  | .pay _ => isTrue trivial
  | .lookBack _ => isTrue trivial
  | .readPlugins _ => isTrue trivial
  | .savePlugins _ => isTrue trivial

/-- An order that was provisioned is fulfilled, and was provisioned once. -/
structure World.OrdersTidy (w : World) : Prop where
  keyed : ∀ id o, w.orders.get? id = some o → id < w.nextId
  provisioned : ∀ id ∈ w.history.provisioned, ∃ o, w.orders.get? id = some o ∧ o.status = .fulfilled
  once : ∀ id, w.history.provisioned.count id ≤ 1

/-- The orders are tidy, and those that had ended in the world `w₁` have the same end. -/
structure Orderly (w₁ w : World) : Prop where
  tidy : w.OrdersTidy
  terminal : ∀ id o, w₁.orders.get? id = some o → o.closed →
    ∃ o', w.orders.get? id = some o' ∧ o'.status = o.status

/-! ## What leaves orders alone -/

/-- No order appears, and all of them stand. -/
structure Calm (w w' : World) : Prop where
  nextId : w.nextId ≤ w'.nextId
  absent : ∀ id, w.orders.get? id = none → w'.orders.get? id = none
  standing : OrdersStand w.orders w'.orders
  provisioned : w'.history.provisioned = w.history.provisioned

/-- Payments stay as they are, too. -/
structure Still (w w' : World) : Prop extends Calm w w' where
  payments : w'.payments = w.payments

/-- Nothing happening is calm. -/
theorem Calm.refl (w : World) : Calm w w := ⟨le_rfl, fun _ h => h, .refl _, rfl⟩

/-- Nothing happening is still. -/
theorem Still.refl (w : World) : Still w w := ⟨.refl w, rfl⟩

/-- A quiet step is still. -/
theorem Quiet.still {w w' : World} (h : Quiet w w') : Still w w' where
  nextId := h.nextId
  absent id hid := by simpa [hid] using h.orders id
  standing := h.standing
  provisioned := h.history.provisioned
  payments := h.payments

/-- A change in tables other than those of orders and payments. -/
private theorem still_of_eq {w w' : World} (hnext : w'.nextId = w.nextId)
    (horders : w'.orders = w.orders) (hprov : w'.history.provisioned = w.history.provisioned)
    (hpay : w'.payments = w.payments) :
    Still w w' where
  nextId := hnext.ge
  absent id h := by rw [horders, h]
  standing := by rw [horders]; exact .refl _
  provisioned := hprov
  payments := hpay

private theorem calm_of_eq {w w' : World} (hnext : w.nextId ≤ w'.nextId)
    (horders : w'.orders = w.orders) (hprov : w'.history.provisioned = w.history.provisioned) :
    Calm w w' where
  nextId := hnext
  absent id h := by rw [horders, h]
  standing := by rw [horders]; exact .refl _
  provisioned := hprov

section Frame

variable {α : Type}

/-- A call beside the payments is still. -/
theorem still_aside {p : Service α} (hp : p.Keeps Aside) : p.Keeps Still :=
  hp.mono fun _ _ h => h.quiet.still

/-- So is the transaction of a charge. -/
private theorem commitCharge_still (row : WalletTx AdminId) : (commitCharge row).Keeps Still := by
  refine keeps_step fun w => ?_
  cases w.admins.get? row.holder with
  | none => exact .refl w
  | some _ => exact still_of_eq rfl rfl rfl rfl

/-- So is the charge of a wallet. -/
theorem chargeWallet_still (target : Actor) (amount : ℤ) (kind : WalletTxKind) (ref : TxRef)
    (byAdminId : Option AdminId) (allowNegative : Bool) :
    (chargeWallet target amount kind ref byAdminId allowNegative).Keeps Still := by
  refine keeps_ite (keeps_pure _) (keeps_ite (keeps_pure _) ?_)
  refine keeps_bind (still_aside (keeps_ite (read_keeps _) (keeps_pure _))) fun _ => ?_
  refine keeps_bind (still_aside (read_keeps _)) fun a => ?_
  cases a with
  | none => exact keeps_throw _
  | some a =>
      refine keeps_ite (keeps_throw _) (keeps_bind (commitCharge_still _) fun row => ?_)
      exact keeps_bind (still_aside (alertAfter_keeps row)) fun _ => keeps_pure _

/-- So is the credit of a customer. -/
theorem creditCustomerWallet_still (customerId : CustomerId) (amount : ℤ) (kind : WalletTxKind)
    (ref : TxRef) (seen : Option (WalletTx CustomerId)) :
    (creditCustomerWallet customerId amount kind ref seen).Keeps Still := by
  refine keeps_ite (keeps_throw _) (keeps_step fun w => ?_)
  cases w.customers.get? customerId with
  | none => exact .refl w
  | some c => exact still_of_eq rfl rfl rfl rfl

/-- So is the debit of one. -/
theorem debitCustomerWallet_still (customerId : CustomerId) (amount : ℤ) (kind : WalletTxKind)
    (ref : TxRef) : (debitCustomerWallet customerId amount kind ref).Keeps Still := by
  refine keeps_ite (keeps_throw _) (keeps_bind (still_aside (read_keeps _)) fun c => ?_)
  cases c with
  | none => exact keeps_throw _
  | some c =>
      refine keeps_ite (keeps_throw _) (keeps_step fun w => ?_)
      cases w.customers.get? customerId with
      | none => exact .refl w
      | some c => exact still_of_eq rfl rfl rfl rfl

/-- So is the settlement of a top-up. -/
theorem settleCustomerTopup_still (id : PaymentId) : (settleCustomerTopup id).Keeps Still := by
  refine keeps_bind (still_aside (findPayment_keeps id)) fun payment => ?_
  cases payment with
  | none => exact keeps_pure _
  | some payment =>
      cases hc : payment.customerId with
      | none => simp only [hc]; exact keeps_pure _
      | some customerId =>
          simp only [hc]
          refine keeps_ite (keeps_pure _) (keeps_bind (still_aside (read_keeps _)) ?_)
          intro already
          cases already with
          | some t => exact keeps_pure _
          | none =>
              refine keeps_bind (still_aside (storeSettingsByAdminId_keeps _)) fun store => ?_
              refine keeps_bind (creditCustomerWallet_still _ _ _ _ _) fun _ => ?_
              exact keeps_bind (still_aside (audit_keeps _ _)) fun _ => keeps_pure _

theorem closePayments_calm (orderId : OrderId) (f : Payment → Payment) :
    (closePayments orderId f).Keeps Calm := keeps_modify fun _ => calm_of_eq le_rfl rfl rfl

theorem updatePayment_calm {l : Stmt} {id : PaymentId} {f : Payment → Payment}
    {record : Payment → History → History} (h : ∀ p h, (record p h).provisioned = h.provisioned) :
    (Db.updatePayment l id f record).Keeps Calm := by
  refine keeps_step fun w => ?_
  cases w.payments.get? id with
  | none => exact .refl w
  | some p => exact calm_of_eq le_rfl rfl (h _ _)

theorem createPayment_calm (p : Payment) : (Db.createPayment p).Keeps Calm :=
  keeps_step fun _ => calm_of_eq (Nat.le_succ _) rfl rfl

end Frame

/-! ## What keeps the orders orderly -/

section Orderly

variable {w₁ w w' : World}

/-- An order of the later world has the earlier order behind it. -/
private theorem OrdersStand.closed {t t' : Table OrderId Order} (h : OrdersStand t t')
    {id : OrderId} {o : Order} (ho : t.get? id = some o) (hc : o.closed) :
    ∃ o', t'.get? id = some o' ∧ o'.status = o.status := by
  obtain ⟨o', ho', hs | ⟨hp, -⟩⟩ := h id o ho
  · exact ⟨o', ho', hs⟩
  · rcases hc with hc | hc <;> rw [hc] at hp <;> cases hp

theorem Calm.orderOpen (h : Calm w w') {orderId : OrderId} (ho : w.orderOpen orderId) :
    w'.orderOpen orderId := by
  intro o' ho' hc
  cases hget : w.orders.get? orderId with
  | none => rw [h.absent orderId hget] at ho'; cases ho'
  | some o =>
      obtain ⟨o₂, ho₂, hs⟩ := h.standing orderId o hget
      obtain rfl : o₂ = o' := Option.some.inj (ho₂.symm.trans ho')
      rcases hs with hs | ⟨-, hx⟩
      · exact ho o hget (by rwa [Order.closed, ← hs])
      · rcases hc with hc | hc <;> rw [hx] at hc <;> cases hc

theorem Orderly.calm (h : Orderly w₁ w) (hc : Calm w w') : Orderly w₁ w' where
  tidy := {
    keyed := by
      intro id o ho
      cases hget : w.orders.get? id with
      | none => rw [hc.absent id hget] at ho; cases ho
      | some o' => exact lt_of_lt_of_le (h.tidy.keyed id o' hget) hc.nextId
    provisioned := by
      intro id hid
      rw [hc.provisioned] at hid
      obtain ⟨o, ho, hs⟩ := h.tidy.provisioned id hid
      obtain ⟨o', ho', hs'⟩ := hc.standing.closed ho (.inl hs)
      exact ⟨o', ho', hs'.trans hs⟩
    once := by
      intro id
      rw [hc.provisioned]
      exact h.tidy.once id }
  terminal id o ho hclosed := by
    obtain ⟨o', ho', hs⟩ := h.terminal id o ho hclosed
    obtain ⟨o₂, ho₂, hs'⟩ := hc.standing.closed ho' (by rwa [Order.closed, hs])
    exact ⟨o₂, ho₂, hs'.trans hs⟩

/-- A write to an order that keeps its end, if it has come to one. -/
theorem Orderly.update (h : Orderly w₁ w) {orderId : OrderId} {o o' : Order}
    (ho : w.orders.get? orderId = some o) (hnext : w'.nextId = w.nextId)
    (horders : w'.orders = w.orders.modify orderId fun _ => o')
    (hprov : w'.history.provisioned = w.history.provisioned)
    (hkeep : o.closed → o'.status = o.status) : Orderly w₁ w' := by
  have hself : w'.orders.get? orderId = some o' := by
    rw [horders, Table.get?_modify_self, ho]
    rfl
  have hother : ∀ id, id ≠ orderId → w'.orders.get? id = w.orders.get? id := fun id hid => by
    rw [horders, Table.get?_modify_of_ne _ _ hid]
  -- an order that has ended keeps its end
  have hend : ∀ id q, w.orders.get? id = some q → q.closed →
      ∃ q', w'.orders.get? id = some q' ∧ q'.status = q.status := by
    intro id q hq hc
    by_cases hid : id = orderId
    · subst hid
      obtain rfl : o = q := Option.some.inj (ho.symm.trans hq)
      exact ⟨o', hself, hkeep hc⟩
    · exact ⟨q, (hother id hid).trans hq, rfl⟩
  refine ⟨⟨fun id q hq => ?_, fun id hid => ?_, fun id => by rw [hprov]; exact h.tidy.once id⟩,
    fun id q hq hc => ?_⟩
  · rw [hnext]
    by_cases hid : id = orderId
    · exact hid ▸ h.tidy.keyed orderId o ho
    · exact h.tidy.keyed id q ((hother id hid).symm.trans hq)
  · rw [hprov] at hid
    obtain ⟨q, hq, hs⟩ := h.tidy.provisioned id hid
    obtain ⟨q', hq', hs'⟩ := hend id q hq (.inl hs)
    exact ⟨q', hq', hs'.trans hs⟩
  · obtain ⟨q', hq', hs⟩ := h.terminal id q hq hc
    obtain ⟨q₂, hq₂, hs'⟩ := hend id q' hq' (by rwa [Order.closed, hs])
    exact ⟨q₂, hq₂, hs'.trans hs⟩

/-- A paid order is provisioned. -/
theorem Orderly.provision (h : Orderly w₁ w) {orderId : OrderId} {o o' : Order}
    (ho : w.orders.get? orderId = some o) (hopen : ¬o.closed) (hdone : o'.status = .fulfilled) :
    Orderly w₁ { w with
      orders := w.orders.modify orderId fun _ => o'
      history := { w.history with provisioned := orderId :: w.history.provisioned } } := by
  have hupd : Orderly w₁ { w with orders := w.orders.modify orderId fun _ => o' } :=
    h.update ho rfl rfl rfl fun hc => absurd hc hopen
  have hnew : orderId ∉ w.history.provisioned := by
    intro hmem
    obtain ⟨q, hq, hs⟩ := h.tidy.provisioned orderId hmem
    rw [ho] at hq
    cases hq
    exact hopen (.inl hs)
  refine ⟨⟨hupd.tidy.keyed, fun id hid => ?_, fun id => ?_⟩, hupd.terminal⟩
  · rcases List.mem_cons.mp hid with rfl | hid
    · exact ⟨o', by rw [Table.get?_modify_self, ho]; rfl, hdone⟩
    · exact hupd.tidy.provisioned id hid
  · rw [List.count_cons]
    split
    · next h' =>
        obtain rfl : orderId = id := by simpa using h'
        rw [List.count_eq_zero_of_not_mem hnew]
    · exact h.tidy.once id

/-- A new order. -/
theorem Orderly.place (h : Orderly w₁ w) (o : Order) :
    Orderly w₁ { w with orders := w.orders.set w.nextId o, nextId := w.nextId + 1 } := by
  have hother : ∀ id q, w.orders.get? id = some q → (w.orders.set w.nextId o).get? id = some q := by
    intro id q hq
    rw [Table.get?_set_of_ne _ _ (h.tidy.keyed id q hq).ne, hq]
  refine ⟨⟨fun id q hq => ?_, fun id hid => ?_, h.tidy.once⟩, fun id q hq hc => ?_⟩
  · rw [Table.get?_set] at hq
    split at hq
    · next hid => exact hid ▸ Nat.lt_succ_self _
    · exact (h.tidy.keyed id q hq).trans (Nat.lt_succ_self _)
  · obtain ⟨q, hq, hs⟩ := h.tidy.provisioned id hid
    exact ⟨q, hother id q hq, hs⟩
  · obtain ⟨q', hq', hs⟩ := h.terminal id q hq hc
    exact ⟨q', hother id q' hq', hs⟩

end Orderly

/-! ## The calls -/

section Calls

variable {α : Type} {fails : Stmt → World → Prop} {w₁ w : World}

/-- From the world `w` the procedure keeps the predicate. -/
abbrev KeepsAll (fails : Stmt → World → Prop) (P : World → Prop) (p : Service α)
    (w : World) : Prop :=
  Ensures BeforeTheEnd fails (fun _ w => P w) (fun _ w => P w) p w

private theorem keeps_calm {B : World → Prop} {p : Service α} (hp : p.Keeps Calm)
    (hB : ∀ w w', Calm w w' → B w → B w') (h : Orderly w₁ w ∧ B w) :
    KeepsAll fails (fun w => Orderly w₁ w ∧ B w) p w :=
  ensures_of_keeps hp (fun w w' hc h => ⟨h.1.calm hc, hB w w' hc h.2⟩) h

private theorem keeps_still {B : World → Prop} {p : Service α} (hp : p.Keeps Still)
    (hB : ∀ w w', Still w w' → B w → B w') (h : Orderly w₁ w ∧ B w) :
    KeepsAll fails (fun w => Orderly w₁ w ∧ B w) p w :=
  ensures_of_keeps hp (fun w w' hc h => ⟨h.1.calm hc.toCalm, hB w w' hc h.2⟩) h

/-- Fulfilment keeps the orders orderly, and whatever depends on payments only. -/
theorem fulfillOrderBy_orderly {N : World → Prop} {start : History → History} (orderId : OrderId)
    (hN : ∀ w w', w'.payments = w.payments → N w → N w')
    (hstart : ∀ h, (start h).provisioned = h.provisioned) (h : Orderly w₁ w ∧ N w) :
    KeepsAll fails (fun w => Orderly w₁ w ∧ N w) (fulfillOrderBy start orderId) w := by
  refine fulfillOrderBy_ensures orderId (fun w h => ?_)
    (fun w o ho hpaid h => ?_) (fun w o e ho h => ?_) h
  · exact ⟨h.1.calm (calm_of_eq le_rfl rfl (hstart _)), hN w _ rfl h.2⟩
  · have hopen : ¬o.closed := by simp [Order.closed, hpaid]
    exact ⟨h.1.provision ho hopen rfl, hN w _ rfl h.2⟩
  · exact ⟨h.1.update ho rfl rfl rfl fun _ => rfl, hN w _ rfl h.2⟩

/-- The effect of a confirmation whose order has not ended. -/
private theorem applyConfirmation_orderly {N : World → Prop} (id : PaymentId) (p : Payment)
    (opts : ConfirmOpts) (hN : ∀ w w', w'.payments = w.payments → N w → N w')
    (h : Orderly w₁ w ∧ N w) (hopen : p.kind = .order → ∀ orderId ∈ p.orderId,
      w.orderOpen orderId) :
    KeepsAll fails (fun w => Orderly w₁ w ∧ N w) (applyConfirmation id p opts) w := by
  have still : ∀ {α : Type} {q : Service α} {w}, q.Keeps Still → Orderly w₁ w ∧ N w →
      KeepsAll fails (fun w => Orderly w₁ w ∧ N w) q w := fun hq =>
    keeps_still hq fun w w' hs => hN w w' hs.payments
  have tell : ∀ (kind name : String),
      (do notify kind; emitEvent (some p.adminId) name : Service Unit).Keeps Still :=
    fun kind name =>
    keeps_bind (still_aside (notify_keeps kind)) fun _ => still_aside (emitEvent_keeps _ name)
  unfold applyConfirmation
  refine ensures_ite (fun _ => ?_) fun hno => ensures_ite (fun _ => ?_) fun hkind => ?_
  · exact ensures_bind (still (settleCustomerTopup_still id) h) fun _ _ h => still (tell _ _) h
  · exact ensures_bind (still (chargeWallet_still _ _ _ _ _ _) h) fun _ _ h => still (tell _ _) h
  · have hk : p.kind = .order := by
      cases hk : p.kind with
      | order => rfl
      | topup => exact absurd hk hkind
    cases ho : p.orderId with
    | none => exact ensures_pure h
    | some orderId =>
        refine ensures_bind (ensures_step (fun _ => ?_) fun _ _ => h) fun _ _ h =>
          ensures_bind (still (still_aside (emitEvent_keeps _ _)) h) fun _ _ h =>
            ensures_bind (fulfillOrderBy_orderly orderId hN (fun _ => rfl) h) fun _ _ h =>
              ensures_pure h
        cases hget : w.orders.get? orderId with
        | none => exact ⟨fun _ h => (nomatch h), fun _ _ => h⟩
        | some o =>
            have hop : ¬o.closed := hopen hk orderId ho o hget
            exact ⟨fun _ _ => ⟨h.1.update hget rfl rfl rfl fun hc => absurd hc hop, hN w _ rfl h.2⟩,
              fun _ h => nomatch h⟩

/-- A confirmation keeps the orders orderly and confirms the payment; one that fails has either
confirmed the payment, or has left orders as they are. -/
theorem confirmPayment_orderly {B : World → Prop} (evidence : Evidence) (id : PaymentId)
    (opts : ConfirmOpts) (h : Orderly w₁ w ∧ B w) :
    Ensures BeforeTheEnd fails (fun _ w => Orderly w₁ w ∧ w.isConfirmed id)
      (fun _ w => Orderly w₁ w ∧ (w.isConfirmed id ∨ B w)) (confirmPayment evidence id opts) w := by
  have hfail : Orderly w₁ w ∧ (w.isConfirmed id ∨ B w) := ⟨h.1, .inr h.2⟩
  refine ensures_bind (P := fun found v => w = v ∧ found = w.payments.get? id)
    (ensures_query (fun _ => ⟨rfl, rfl⟩) fun _ _ => hfail) ?_
  rintro found _ ⟨rfl, hfound⟩
  cases found with
  | none => exact ensures_throw hfail
  | some p =>
      refine ensures_ite (fun _ => ensures_throw hfail) fun _ =>
        ensures_ite (fun hs => ensures_pure ⟨h.1, ?_⟩) fun _ =>
          ensures_ite (fun _ => ensures_throw hfail) fun _ => ?_
      · simp [World.isConfirmed, ← hfound, hs]
      refine ensures_bind (P := fun _ v => (Orderly w₁ v ∧ v.isConfirmed id) ∧
        (p.kind = .order → ∀ orderId ∈ p.orderId, v.orderOpen orderId))
        (ensures_step (fun hok => ?_) fun _ _ => hfail) fun updated v hv => ?_
      · cases hq : w.payments.get? id with
        | none => exact ⟨fun _ h => (by cases h), fun _ _ => hfail⟩
        | some q =>
            refine ⟨fun _ _ => ⟨⟨h.1.calm (calm_of_eq le_rfl rfl rfl), ?_⟩,
              hok rfl (id, p) (List.mem_singleton.mpr rfl)⟩, fun _ h => by cases h⟩
            simp [World.isConfirmed, Table.get?_modify_self, hq, confirmedRow]
      · have hN : ∀ w w' : World, w'.payments = w.payments → w.isConfirmed id →
        w'.isConfirmed id := by
          intro w w' hp hc
          rwa [World.isConfirmed, hp]
        refine ensures_mono (P := fun _ w => Orderly w₁ w ∧ w.isConfirmed id)
          (H := fun _ w => Orderly w₁ w ∧ w.isConfirmed id) ?_ (fun _ _ h => h)
          fun _ _ h => ⟨h.1, .inl h.2⟩
        refine ensures_bind (P := fun _ v => (Orderly w₁ v ∧ v.isConfirmed id) ∧
          (p.kind = .order → ∀ orderId ∈ p.orderId, v.orderOpen orderId)) ?_ fun _ v hv =>
            ensures_bind (applyConfirmation_orderly id p opts hN hv.1 hv.2) fun _ _ h =>
              ensures_pure h
        refine ensures_mono (ensures_of_keeps (still_aside (audit_keeps _ _))
          (P := fun v => (Orderly w₁ v ∧ v.isConfirmed id) ∧
            (p.kind = .order → ∀ orderId ∈ p.orderId, v.orderOpen orderId))
              (fun w w' hs h => ?_) hv)
          (fun _ _ h => h) fun _ _ h => h.1
        exact ⟨⟨h.1.1.calm hs.toCalm, hN w w' hs.payments h.1.2⟩, fun hk orderId ho =>
          hs.toCalm.orderOpen (h.2 hk orderId ho)⟩

/-- A part of the payment services keeps the orders orderly. -/
theorem Part.orderly {T : CustomerId → Prop} {p : Service α} (hp : Part T p) (h : Orderly w₁ w) :
    KeepsAll fails (Orderly w₁) p w := by
  have calm : ∀ {α : Type} {q : Service α}, q.Keeps Calm → KeepsAll fails (Orderly w₁) q w :=
    fun hq => ensures_of_keeps hq (fun _ _ hc h => h.calm hc) h
  cases hp with
  | confirm evidence id opts =>
      exact ensures_mono (confirmPayment_orderly (B := fun _ => True) evidence id opts ⟨h, trivial⟩)
        (fun _ _ h => h.1) fun _ _ h => h.1
  | status => exact calm (updatePayment_calm fun _ _ => rfl)
  | @hash columns i p txid f =>
      refine calm (keeps_step fun w => ?_)
      cases w.payments.get? i with
      | none => exact .refl w
      | some q =>
          dsimp only
          split
          · exact .refl w
          · exact calm_of_eq le_rfl rfl rfl
  | note _ _ hrecord => exact calm (updatePayment_calm fun p h => (hrecord p h).provisioned)
  | authority i authority url =>
      refine calm (keeps_step fun w => ?_)
      cases w.payments.get? i with
      | none => exact .refl w
      | some q =>
          dsimp only
          split
          · exact .refl w
          · exact calm_of_eq le_rfl rfl rfl
  | expire => exact calm (keeps_modify fun _ => calm_of_eq le_rfl rfl rfl)
  | create => exact calm (createPayment_calm _)
  | tag => exact calm (updatePayment_calm fun _ _ => rfl)

theorem Walk.orderly {T : CustomerId → Prop} {p : Service α} (hp : Walk T p) (h : Orderly w₁ w) :
    KeepsAll fails (Orderly w₁) p w :=
  Made.ensures hp (fun _ _ hq h => h.calm hq.still.toCalm) (fun hp h => hp.orderly h) h

private theorem fulfillAgain_orderly (orderId : OrderId) (h : Orderly w₁ w) :
    KeepsAll fails (Orderly w₁) (fulfillAgain orderId) w :=
  ensures_mono (fulfillOrderBy_orderly (N := fun _ => True) orderId
    (fun _ _ _ h => h) (fun _ => rfl) ⟨h, trivial⟩) (fun _ _ h => h.1) fun _ _ h => h.1

private theorem updateOrder_orderly {orderId : OrderId} {f : Time → Order → Order}
    (hf : ∀ o, w.orders.get? orderId = some o → o.closed → (f w.now o).status = o.status)
    (h : Orderly w₁ w) : KeepsAll fails (Orderly w₁) (updateOrder orderId f) w := by
  refine ensures_step (fun _ => ?_) fun _ _ => h
  cases ho : w.orders.get? orderId with
  | none => exact ⟨fun _ h => (nomatch h), fun _ _ => h⟩
  | some o => exact ⟨fun _ _ => h.update ho rfl rfl rfl (hf o ho), fun _ h => nomatch h⟩

/-- Giving up a purchase whose order has not ended. -/
private theorem abandon_orderly (payment : PaymentId × Payment) {orderId : OrderId} (msg : String)
    (h : Orderly w₁ w ∧ w.orderOpen orderId) :
    KeepsAll fails (Orderly w₁) (abandon payment orderId msg) w := by
  refine ensures_bind (ensures_mono (keeps_calm (updatePayment_calm fun _ _ => rfl)
    (fun _ _ hc => hc.orderOpen) h) (fun _ _ h => h) fun _ _ h => h.1) fun _ w h => ?_
  exact ensures_bind (updateOrder_orderly (fun o ho hc => absurd hc (h.2 o ho)) h.1) fun _ _ h =>
    ensures_pure h

private theorem recoverPurchase_orderly (payment : PaymentId × Payment) {orderId : OrderId}
    (amount : ℤ) (customerId : CustomerId) (sellerId : AdminId) (err : AppError)
    (h : Orderly w₁ w ∧ (w.isConfirmed payment.1 ∨ w.orderOpen orderId)) :
    KeepsAll fails (Orderly w₁)
      (recoverPurchase payment orderId amount customerId sellerId err) w := by
  refine ensures_bind (P := fun current v => w = v ∧ current = w.payments.get? payment.1)
    (ensures_query (fun _ => ⟨rfl, rfl⟩) fun _ _ => h.1) ?_
  rintro current _ ⟨rfl, hcurrent⟩
  refine ensures_ite (fun hany => ?_) fun _ => ?_
  -- the payment is not confirmed, so the confirmation has not touched the order
  · have hopen : w.orderOpen orderId := by
      refine h.2.resolve_left fun hc => ?_
      rw [hcurrent] at hany
      cases hp : w.payments.get? payment.1 with
      | none => simp [hp] at hany
      | some p =>
          simp only [World.isConfirmed, hp, Option.any_some, decide_eq_true_eq] at hc
          simp [hp, hc] at hany
    refine ensures_bind (ensures_mono (keeps_still (keeps_attempt (keeps_bind
      (creditCustomerWallet_still _ _ _ _ _) fun _ => keeps_pure ()) fun _ => keeps_pure ())
      (fun _ _ hs => hs.toCalm.orderOpen) ⟨h.1, hopen⟩) (fun _ _ h => h) fun _ _ h =>
        h.1) fun _ _ h => ?_
    refine ensures_bind (abandon_orderly payment err.message h) fun _ _ h => ?_
    exact ensures_bind (ensures_of_keeps (still_aside (audit_keeps _ _))
      (fun _ _ hs h => h.calm hs.toCalm) h) fun _ _ h => ensures_throw h
  · exact ensures_bind (ensures_of_keeps (still_aside (read_keeps _))
      (fun _ _ hs h => h.calm hs.toCalm) h.1) fun _ _ h => ensures_pure h

theorem payOrderWithWallet_orderly (orderId : OrderId) (amount : ℤ) (customerId : CustomerId)
    (sellerId : AdminId) (h : Orderly w₁ w ∧ w.orderOpen orderId) :
    KeepsAll fails (Orderly w₁) (payOrderWithWallet orderId amount customerId sellerId) w := by
  refine ensures_bind (ensures_mono
    (keeps_calm (createPayment_calm _) (fun _ _ hc => hc.orderOpen) h) (fun _ _ h => h) fun _ _ h =>
      h.1) fun payment w h => ?_
  refine ensures_bind (P := fun _ v => Orderly w₁ v ∧ v.orderOpen orderId)
    (ensures_attempt (keeps_still (keeps_bind (debitCustomerWallet_still _ _ _ _) fun _ =>
      keeps_pure ()) (fun _ _ hs => hs.toCalm.orderOpen) h) fun err w h => ?_) fun _ w h => ?_
  · exact ensures_bind (abandon_orderly payment err.message h) fun _ _ h => ensures_throw h
  · refine ensures_attempt (H := fun _ v =>
      Orderly w₁ v ∧ (v.isConfirmed payment.1 ∨ v.orderOpen orderId)) ?_ fun err w h =>
        recoverPurchase_orderly payment amount customerId sellerId err h
    refine ensures_bind (confirmPayment_orderly _ _ _ h) fun _ w h => ?_
    refine ensures_mono (P := fun _ v => Orderly w₁ v ∧ v.isConfirmed payment.1)
      (H := fun _ v => Orderly w₁ v ∧ v.isConfirmed payment.1) ?_ (fun _ _ h => h.1)
      fun _ _ h => ⟨h.1, .inl h.2⟩
    exact keeps_still (keeps_bind (still_aside (read_keeps _)) fun _ =>
      still_aside (notify_keeps _)) (fun w w' hs hc => by rwa [World.isConfirmed, hs.payments]) h

/-! ### Placing, retrying and canceling -/

theorem createOrder_orderly (x : Proc) (s : StoreSettings) (input : NewOrder) (h : Orderly w₁ w) :
    KeepsAll fails (Orderly w₁) (createOrder x s input) w := by
  have still : ∀ {α : Type} {q : Service α} {w}, q.Keeps Aside → Orderly w₁ w →
      KeepsAll fails (Orderly w₁) q w := fun hq =>
    ensures_of_keeps (still_aside hq) fun _ _ hs h => h.calm hs.toCalm
  refine ensures_bind (still (signedIn_keeps input) h) fun account w h => ?_
  dsimp only
  refine ensures_bind (P := fun _ v => Orderly w₁ v) ?_ fun buyer w h => ?_
  · refine ensures_ite (fun _ => ?_) fun _ => ensures_ite (fun _ => ensures_throw h) fun _ => ensures_pure h
    cases walletBuyer s account input with
    | error e => exact ensures_throw h
    | ok id => exact ensures_pure h
  refine ensures_bind (P := fun orderId v => Orderly w₁ v ∧ v.orderOpen orderId)
    (ensures_step (fun _ => ⟨?_, fun _ h => nomatch h⟩) fun _ _ => h) fun orderId w h => ?_
  · rintro _ ⟨⟩
    refine ⟨h.place _, fun o ho => ?_⟩
    rw [Table.get?_set_self] at ho
    obtain rfl := Option.some.inj ho
    rw [Order.closed]
    split <;> simp
  have told : ∀ {q : Service Unit} {w}, q.Keeps Aside → Orderly w₁ w ∧ w.orderOpen orderId →
      Ensures BeforeTheEnd fails (fun _ v => Orderly w₁ v ∧ v.orderOpen orderId)
        (fun _ v => Orderly w₁ v) q w := fun hq h =>
    ensures_mono (keeps_still (still_aside hq) (fun _ _ hs => hs.toCalm.orderOpen) h)
      (fun _ _ h => h) fun _ _ h => h.1
  refine ensures_bind (told (audit_keeps _ _) h) fun _ w h => ?_
  refine ensures_bind (told (emitEvent_keeps _ _) h) fun _ w h => ?_
  refine ensures_ite (fun _ => ensures_bind (fulfillAgain_orderly orderId h.1) fun _ _ h =>
    ensures_pure h) fun _ => ?_
  cases buyer with
  | some customerId =>
      exact ensures_bind (payOrderWithWallet_orderly orderId _ customerId _ h) fun _ _ h =>
        ensures_pure h
  | none =>
      have walked : ∀ {α : Type} {q : Service α} {w}, Walk (fun _ => True) q → Orderly w₁ w →
          KeepsAll fails (Orderly w₁) q w := fun hq h => hq.orderly h
      refine ensures_bind (walked (beginPayment_walk s _) h.1) fun _ w h => ?_
      refine ensures_bind (still (notify_keeps _) h) fun _ w h => ?_
      refine ensures_bind (ensures_ite
        (fun _ => walked (.void (rematchDeposits_walk _ x)) h) fun _ =>
        ensures_pure h) fun _ _ h => ensures_pure h

theorem retryFulfill_orderly (actor : Actor) (orderId : OrderId) (h : Orderly w₁ w) :
    KeepsAll fails (Orderly w₁) (retryFulfill actor orderId) w := by
  refine ensures_bind (P := fun order v => Orderly w₁ v ∧ order = v.orders.get? orderId)
    (ensures_query (fun _ => ⟨h, rfl⟩) fun _ _ => h) fun order w h => ?_
  obtain ⟨h, horder⟩ := h
  cases order with
  | none => exact ensures_throw h
  | some order =>
      refine ensures_ite (fun _ => ensures_throw h) fun _ =>
        ensures_bind (P := fun _ v => Orderly w₁ v) (ensures_ite (fun hpending => ?_) fun _ =>
          ensures_pure h) fun _ _ h => fulfillAgain_orderly orderId h
      refine ensures_bind (updateOrder_orderly (fun o ho hc => ?_) h) fun _ w h => ?_
      · obtain rfl : order = o := Option.some.inj (horder.trans ho)
        rcases hc with hc | hc <;> rw [hpending] at hc <;> cases hc
      · refine ensures_bind (ensures_of_keeps (closePayments_calm _ _) (fun _ _ hc h => h.calm hc) h) ?_
        exact fun _ w h =>
          ensures_of_keeps (still_aside (audit_keeps _ _)) (fun _ _ hs h => h.calm hs.toCalm) h

theorem cancelOrder_orderly (actor : Actor) (orderId : OrderId) (h : Orderly w₁ w) :
    KeepsAll fails (Orderly w₁) (cancelOrder actor orderId) w := by
  refine ensures_bind (P := fun order v => Orderly w₁ v ∧ order = v.orders.get? orderId)
    (ensures_query (fun _ => ⟨h, rfl⟩) fun _ _ => h) fun order w h => ?_
  obtain ⟨h, horder⟩ := h
  cases order with
  | none => exact ensures_throw h
  | some order =>
      refine ensures_ite (fun _ => ensures_throw h) fun _ => ensures_ite (fun _ => ensures_throw h)
        fun hful => ?_
      -- the order that is not fulfilled stays so until the write
      have hstart : Orderly w₁ w ∧ ∀ o, w.orders.get? orderId = some o → o.status ≠ .fulfilled :=
        ⟨h, fun o ho => Option.some.inj (horder.trans ho) ▸ hful⟩
      refine ensures_bind (ensures_mono (keeps_calm
        (B := fun w => ∀ o, w.orders.get? orderId = some o → o.status ≠ .fulfilled)
        (closePayments_calm orderId _) (fun w w' hc h o ho => ?_) hstart)
          (fun _ _ h => h) fun _ _ h => h.1)
        fun _ w h => ?_
      rotate_left
      · refine ensures_bind (updateOrder_orderly (fun o ho hc => ?_) h.1) fun o w h => ?_
        · exact (hc.resolve_left (h.2 o ho)).symm
        · refine ensures_bind (ensures_of_keeps (still_aside (audit_keeps _ _))
            (fun _ _ hs h => h.calm hs.toCalm) h) fun _ w h => ?_
          exact ensures_bind (ensures_of_keeps (still_aside (emitEvent_keeps _ _))
            (fun _ _ hs h => h.calm hs.toCalm) h) fun _ _ h => ensures_pure h
      · cases hget : w.orders.get? orderId with
        | none => rw [hc.absent orderId hget] at ho; cases ho
        | some q =>
            obtain ⟨q', hq', hs⟩ := hc.standing orderId q hget
            obtain rfl : q' = o := Option.some.inj (hq'.symm.trans ho)
            rcases hs with hs | ⟨-, hs⟩
            · rw [hs]
              exact h q hget
            · rw [hs]
              simp

end Calls

/-! ## Runs -/

/-- A call on an order or on its payments. -/
inductive OrderCall
  | confirm (evidence : Evidence) (id : PaymentId) (opts : ConfirmOpts)
  | reject (actor : Actor) (id : PaymentId) (note : Option String)
  | submit (id : PaymentId) (proof : PaymentProof)
  /-- `createOrder`, which pays from the wallet if the method says so -/
  | place (x : Proc) (s : StoreSettings) (input : NewOrder)
  | retry (actor : Actor) (orderId : OrderId)
  | cancel (actor : Actor) (orderId : OrderId)
  | expire
  | fulfill (orderId : OrderId)

/-- The procedure of a call. -/
def OrderCall.prog : OrderCall → Service Unit
  | confirm evidence id opts => (confirmPayment evidence id opts).void
  | reject actor id note => (rejectPayment actor id note).void
  | submit id proof => (submitProof id proof).void
  | place x s input => (createOrder x s input).void
  | retry actor orderId => (retryFulfill actor orderId).void
  | cancel actor orderId => (cancelOrder actor orderId).void
  | expire => expirePayments.void
  | fulfill orderId => (fulfillAgain orderId).void

/-- Every call about orders keeps it. -/
theorem OrderCall.orderly (call : OrderCall) {fails : Stmt → World → Prop} {w₁ w : World}
    (h : Orderly w₁ w) :
    Ensures BeforeTheEnd fails (fun _ w => Orderly w₁ w) (fun _ w => Orderly w₁ w) call.prog w := by
  have walked : ∀ {α : Type} {q : Service α}, Walk (fun _ => True) q →
      Ensures BeforeTheEnd fails (fun _ w => Orderly w₁ w) (fun _ w => Orderly w₁ w) q.void w :=
    fun hq => ensures_void (hq.orderly h)
  cases call with
  | confirm evidence id opts => exact walked (confirmPayment_walk evidence id opts)
  | reject actor id note => exact walked (rejectPayment_walk actor id note)
  | submit id proof => exact walked (submitProof_walk id proof)
  | place x s input => exact ensures_void (createOrder_orderly x s input h)
  | retry actor orderId => exact ensures_void (retryFulfill_orderly actor orderId h)
  | cancel actor orderId => exact ensures_void (cancelOrder_orderly actor orderId h)
  | expire => exact walked expirePayments_walk
  | fulfill orderId => exact ensures_void (fulfillAgain_orderly orderId h)

/-- Runs of these calls, one after the other and without a fault; between them orders stand, and an
open order may expire. -/
abbrev OrderRun (ok : Stmt → World → Prop) : World → World → Prop :=
  Trials OrderCall.prog Calm ok (fun _ _ => False) fun _ _ => True

/-- In every run that confirms no payment of an ended order, an order that has ended keeps its end,
and every order is provisioned at most once. -/
theorem order_life_cycle {w₀ w₁ w₂ : World} (hstart : w₀.OrdersTidy)
    (h₁ : OrderRun BeforeTheEnd w₀ w₁) (h₂ : OrderRun BeforeTheEnd w₁ w₂) :
    (∀ id o, w₁.orders.get? id = some o → o.closed →
      ∃ o', w₂.orders.get? id = some o' ∧ o'.status = o.status) ∧
    ∀ id, w₂.history.provisioned.count id ≤ 1 := by
  have hmid : Orderly w₀ w₁ := Trials.invariant h₁ ⟨hstart, fun _ o ho _ => ⟨o, ho, rfl⟩⟩
    (fun call _ h _ => call.orderly h) fun _ _ h hc => h.calm hc
  have hend : Orderly w₁ w₂ := Trials.invariant h₂ ⟨hmid.tidy, fun _ o ho _ => ⟨o, ho, rfl⟩⟩
    (fun call _ h _ => call.orderly h) fun _ _ h hc => h.calm hc
  exact ⟨hend.terminal, hend.tidy.once⟩

/-! ## A payment that comes back

The order 3 waits for its card payment 7. The seller rejects the payment and cancels the order, or
confirms the order by hand; then the buyer sends a new receipt and the seller confirms the payment.
-/

/-- The order. -/
def waitingOrder : Order := ⟨"token", 2, .pending, 50000, none, none, none⟩

/-- Its payment. -/
def orderPayment : Payment :=
  { newPayment ⟨.order, .card, 50000, 2, some 3, none⟩ 3600000 none with status := .review }

/-- The panel with both. -/
def orderWorld : World :=
  { World.blank with
    admins := .ofRows [(1, ⟨.owner, 0, 0⟩), (2, ⟨.admin, 0, 0⟩)]
    orders := .ofRows [(3, waitingOrder)]
    payments := .ofRows [(7, orderPayment)] }

/-- The seller confirms payment 7. -/
def sellerConfirms : OrderCall := .confirm (.review ⟨2, .admin⟩) 7 ⟨some ⟨2, .admin⟩, none, none⟩

/-- The seller rejects payment 7. -/
def sellerRejects : OrderCall := .reject ⟨2, .admin⟩ 7 none

/-- The buyer sends a new receipt for payment 7. -/
def buyerSubmits : OrderCall := .submit 7 ⟨none, some "777001", none, none⟩

/-- The status of order 3. -/
def orderStatus (w : World) : Option OrderStatus := (w.orders.get? 3).map Order.status

/-- Without the condition a canceled order can be fulfilled, and an order can be provisioned twice.
-/
theorem rejected_payment_comes_back :
    (∃ w₁ w₂, OrderRun (fun _ _ => True) orderWorld w₁ ∧ OrderRun (fun _ _ => True) w₁ w₂ ∧
      orderStatus w₁ = some .canceled ∧ orderStatus w₂ = some .fulfilled) ∧
    ∃ w, OrderRun (fun _ _ => True) orderWorld w ∧ w.history.provisioned.count 3 = 2 := by
  refine ⟨⟨_, _, calls_trials_free Calm [sellerRejects, .cancel ⟨2, .admin⟩ 3] _,
    calls_trials_free Calm [buyerSubmits, sellerConfirms] _, by decide, by decide⟩, ?_⟩
  exact ⟨_, calls_trials_free Calm [sellerRejects, .retry ⟨2, .admin⟩ 3, buyerSubmits,
    sellerConfirms] _, by decide⟩

theorem orderWorld_tidy : orderWorld.OrdersTidy where
  keyed id o h := by
    change ((Table.empty : Table OrderId Order).set 3 waitingOrder).get? id = some o at h
    rw [Table.get?_set] at h
    split at h
    · next hid => exact hid ▸ (by decide)
    · cases h
  provisioned _ h := nomatch h
  once _ := Nat.zero_le _

/-- Confirmed, then canceled in vain: the order stays fulfilled. -/
theorem order_life_cycle_confirmed :
    ∃ w₁ w₂, OrderRun BeforeTheEnd orderWorld w₁ ∧ OrderRun BeforeTheEnd w₁ w₂ ∧
      orderStatus w₁ = some .fulfilled ∧ orderStatus w₂ = some .fulfilled ∧
      w₂.history.provisioned.count 3 ≤ 1 := by
  have h₁ : OrderRun BeforeTheEnd orderWorld _ :=
    calls_trials Calm [sellerConfirms] orderWorld (by decide)
  have h₂ : OrderRun BeforeTheEnd (calls OrderCall.prog [sellerConfirms] orderWorld) _ :=
    calls_trials Calm [.cancel ⟨2, .admin⟩ 3, .retry ⟨2, .admin⟩ 3] _ (by decide)
  exact ⟨_, _, h₁, h₂, by decide, by decide, (order_life_cycle orderWorld_tidy h₁ h₂).2 3⟩

end SRPanel
