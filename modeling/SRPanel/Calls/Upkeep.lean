import SRPanel.Confirm.Frame
import SRPanel.Model.CardAuto
import SRPanel.Lib.Rely

/-!
# Steps that keep the terms of payments

`Upkeep` is the frame of all steps that change a payment in its status and notes only: reviews,
receipts, expiry, the effects of a confirmation, and the bookkeeping of deposits. `Lasting` is what
every step of the services guarantees the others: a payment, once there, stays there under the same
terms.
-/

namespace SRPanel

open Interleaving Prog

/-! ## Upkeep -/

/-- A payment without what a change of its status may change. -/
def Payment.core (p : Payment) : Payment :=
  { p with
    status := .pending
    receiptRef := none
    receiptFile := none
    cardPan := none
    refId := none
    reviewedById := none
    error := none
    updatedAt := 0 }

/-- Payments keep their core and orders their terms; shops, plugins, roles and the confirmations so
far are the same. -/
structure Upkeep (w w' : World) : Prop where
  now : w'.now = w.now
  nextId : w.nextId ≤ w'.nextId
  payments : ∀ id, (w'.payments.get? id).map Payment.core = (w.payments.get? id).map Payment.core
  roles : ∀ id, (w'.admins.get? id).map Admin.role = (w.admins.get? id).map Admin.role
  shops : w'.shops = w.shops
  plugins : w'.plugins = w.plugins
  outside : w'.outside = w.outside
  confirmations : w'.history.confirmations = w.history.confirmations
  quoted : w'.history.quoted = w.history.quoted
  orders : ∀ id, (w'.orders.get? id).map Order.terms = (w.orders.get? id).map Order.terms

/-- Nothing happening is upkeep. -/
theorem Upkeep.refl (w : World) : Upkeep w w :=
  ⟨rfl, le_rfl, fun _ => rfl, fun _ => rfl, rfl, rfl, rfl, rfl, rfl, fun _ => rfl⟩

/-- So are two stretches of it. -/
theorem Upkeep.trans {w₁ w₂ w₃ : World} (h : Upkeep w₁ w₂) (h' : Upkeep w₂ w₃) : Upkeep w₁ w₃ where
  now := h'.now.trans h.now
  nextId := le_trans h.nextId h'.nextId
  payments id := (h'.payments id).trans (h.payments id)
  roles id := (h'.roles id).trans (h.roles id)
  shops := h'.shops.trans h.shops
  plugins := h'.plugins.trans h.plugins
  outside := h'.outside.trans h.outside
  confirmations := h'.confirmations.trans h.confirmations
  quoted := h'.quoted.trans h.quoted
  orders id := (h'.orders id).trans (h.orders id)

/-- A call beside the payments is upkeep. -/
theorem Aside.upkeep {w w' : World} (h : Aside w w') : Upkeep w w' where
  now := h.now
  nextId := h.nextId.ge
  payments id := by rw [h.payments]
  roles id := by rw [h.admins]
  shops := h.shops
  plugins := h.plugins
  outside := h.outside
  confirmations := by rw [h.history]
  quoted := by rw [h.history]
  orders := h.orders

/-- A payment of the later world has a payment with the same core in the earlier one. -/
theorem Upkeep.payment {w w' : World} (h : Upkeep w w') {id : PaymentId} {p' : Payment}
    (hp : w'.payments.get? id = some p') : ∃ p, w.payments.get? id = some p ∧ p'.core = p.core := by
  have hmap := h.payments id
  rw [hp, Option.map_some] at hmap
  obtain ⟨p, hp, hcore⟩ := Option.map_eq_some_iff.mp hmap.symm
  exact ⟨p, hp, hcore.symm⟩

/-- And the other way round. -/
theorem Upkeep.payment' {w w' : World} (h : Upkeep w w') {id : PaymentId} {p : Payment}
    (hp : w.payments.get? id = some p) :
    ∃ p', w'.payments.get? id = some p' ∧ p'.core = p.core := by
  have hmap := h.payments id
  rw [hp, Option.map_some] at hmap
  exact Option.map_eq_some_iff.mp hmap

/-- So are its steps. -/
private theorem upkeep_of_aside {α : Type} {p : Service α} (hp : p.Keeps Aside) : p.Keeps Upkeep :=
  hp.mono fun _ _ => Aside.upkeep

/-! ## Status writes -/

/-- A write of status and notes. -/
theorem updatePayment_keeps {l : Stmt} {id : PaymentId} {f : Payment → Payment}
    (hf : ∀ p t, ({ f p with updatedAt := t } : Payment).core = p.core) :
    (Db.updatePayment l id f fun _ h => h).Keeps Upkeep := by
  refine keeps_step fun w => ?_
  cases hp : w.payments.get? id with
  | none => exact Upkeep.refl w
  | some p =>
      exact ⟨rfl, le_rfl, w.payments.map_get?_modify Payment.core hp (hf p w.now),
        fun _ => rfl, rfl, rfl, rfl, rfl, rfl,
        fun _ => rfl⟩

/-- So is a submitted receipt. -/
theorem submitReceipt_keeps (id : PaymentId) (p : Payment) (proof : PaymentProof) :
    (submitReceipt id p proof).Keeps Upkeep := by
  unfold submitReceipt
  dsimp only
  refine keeps_ite (keeps_throw _) ?_
  refine keeps_bind (updatePayment_keeps fun _ _ => rfl) fun updated => ?_
  exact keeps_bind (upkeep_of_aside (announceReview_keeps _)) fun _ => keeps_pure _

/-- So is a rejection by the gateway. -/
theorem rejectByGateway_keeps (id : PaymentId) (p : Payment) (e : String) :
    (rejectByGateway id p e).Keeps Upkeep := updatePayment_keeps fun _ _ => rfl

/-- So is a request to it. -/
theorem zarinpalRequest_keeps (merchantId : String) (amount : ℤ) (sandbox : Bool) :
    (zarinpalRequest merchantId amount sandbox).Keeps Upkeep := by
  refine keeps_step fun w => ?_
  cases w.outside.zarinpalDown with
  | some e => exact Upkeep.refl w
  | none =>
      exact ⟨rfl, Nat.le_succ _, fun _ => rfl, fun _ => rfl, rfl, rfl, rfl, rfl, rfl, fun _ => rfl⟩

/-- So is a rejection. -/
theorem rejectPayment_keeps (actor : Actor) (id : PaymentId) (note : Option String) :
    (rejectPayment actor id note).Keeps Upkeep := by
  refine keeps_bind (upkeep_of_aside (query_keeps _ _)) fun found => ?_
  cases found with
  | none => exact keeps_throw _
  | some found =>
      refine keeps_ite (keeps_throw _) (keeps_ite (keeps_throw _) ?_)
      refine keeps_bind (updatePayment_keeps fun _ _ => rfl) fun updated => ?_
      refine upkeep_of_aside (keeps_bind (noteRejection_keeps _ _) fun _ => ?_)
      refine keeps_bind (audit_keeps _ _) fun _ => ?_
      refine keeps_bind (tellBuyer_keeps _) fun _ => ?_
      exact keeps_bind (emitEvent_keeps _ _) fun _ => keeps_pure _

/-- So is the expiry of some rows. -/
theorem expireRows_keeps (stale : List (PaymentId × Payment)) :
    (expireRows stale).Keeps Upkeep := by
  refine keeps_modify fun w =>
    ⟨rfl, le_rfl, fun id => ?_, fun _ => rfl, rfl, rfl, rfl, rfl, rfl, fun _ => rfl⟩
  rw [Table.get?_mapRows, Option.map_map]
  refine congrArg (fun f => Option.map f _) (funext fun p => ?_)
  by_cases h : id ∈ stale.map Prod.fst
  · rw [Function.comp_apply, if_pos h]
    rfl
  · rw [Function.comp_apply, if_neg h]

/-- So is that of all stale payments. -/
theorem expirePayments_keeps : expirePayments.Keeps Upkeep := by
  refine keeps_bind (upkeep_of_aside clock_keeps) fun now => ?_
  refine keeps_bind (upkeep_of_aside (read_keeps _)) fun stale => ?_
  refine keeps_ite (keeps_pure _) (keeps_bind (expireRows_keeps _) fun _ => ?_)
  exact keeps_bind (upkeep_of_aside (expireOrders_keeps _)) fun _ => keeps_pure _

/-! ## The effect of a confirmation -/

/-- Nothing about the deposits of the sellers has changed. -/
structure SameBooks (w w' : World) : Prop where
  now : w'.now = w.now
  nextId : w'.nextId = w.nextId
  cards : w'.cards = w.cards
  received : w'.history.received = w.history.received
  accepted : w'.history.accepted = w.history.accepted
  dismissed : w'.history.dismissed = w.history.dismissed
  matched : w'.history.matched = w.history.matched

/-- Nothing happening keeps the books. -/
theorem SameBooks.refl (w : World) : SameBooks w w := ⟨rfl, rfl, rfl, rfl, rfl, rfl, rfl⟩

/-- So do two stretches that do. -/
theorem SameBooks.trans {w₁ w₂ w₃ : World} (h : SameBooks w₁ w₂) (h' : SameBooks w₂ w₃) :
    SameBooks w₁ w₃ where
  now := h'.now.trans h.now
  nextId := h'.nextId.trans h.nextId
  cards := h'.cards.trans h.cards
  received := h'.received.trans h.received
  accepted := h'.accepted.trans h.accepted
  dismissed := h'.dismissed.trans h.dismissed
  matched := h'.matched.trans h.matched

theorem Aside.sameBooks {w w' : World} (h : Aside w w') : SameBooks w w' :=
  ⟨h.now, h.nextId, h.cards, by rw [h.history], by rw [h.history], by rw [h.history], by
    rw [h.history]⟩

/-- Upkeep that leaves all payments and all deposits as they are. -/
structure Settling (w w' : World) : Prop where
  upkeep : Upkeep w w'
  payments : w'.payments = w.payments
  books : SameBooks w w'

/-- Nothing happening settles. -/
theorem Settling.refl (w : World) : Settling w w := ⟨Upkeep.refl w, rfl, SameBooks.refl w⟩

theorem Settling.trans {w₁ w₂ w₃ : World} (h : Settling w₁ w₂) (h' : Settling w₂ w₃) :
    Settling w₁ w₃ where
  upkeep := h.upkeep.trans h'.upkeep
  payments := h'.payments.trans h.payments
  books := h.books.trans h'.books

/-- A call beside the payments may be part of it. -/
theorem Aside.settling {w w' : World} (h : Aside w w') : Settling w w' :=
  ⟨h.upkeep, h.payments, h.sameBooks⟩

/-- So may its steps. -/
private theorem settling_of_aside {α : Type} {p : Service α} (hp : p.Keeps Aside) :
    p.Keeps Settling := hp.mono fun _ _ => Aside.settling

/-- So may the transaction of a charge. -/
private theorem commitCharge_keeps (row : WalletTx AdminId) :
    (commitCharge row).Keeps Settling := by
  refine keeps_step fun w => ?_
  cases w.admins.get? row.holder with
  | none => exact Settling.refl w
  | some a =>
      refine ⟨⟨rfl, le_rfl, fun _ => rfl, fun id => ?_, rfl, rfl, rfl, rfl, rfl, fun _ => rfl⟩, rfl,
        ⟨rfl, rfl, rfl, rfl, rfl, rfl, rfl⟩⟩
      rw [Table.get?_modify]
      split
      · rw [Option.map_map, Function.comp_def]
      · rfl

/-- So may the charge of a wallet. -/
private theorem chargeWallet_keeps (target : Actor) (amount : ℤ) (kind : WalletTxKind) (ref : TxRef)
    (byAdminId : Option AdminId) (allowNegative : Bool) :
    (chargeWallet target amount kind ref byAdminId allowNegative).Keeps Settling := by
  refine keeps_ite (keeps_pure _) (keeps_ite (keeps_pure _) ?_)
  refine keeps_bind (settling_of_aside
    (keeps_ite (read_keeps _) (keeps_pure _))) fun limit => ?_
  refine keeps_bind (settling_of_aside (read_keeps _)) fun a => ?_
  cases a with
  | none => exact keeps_throw _
  | some a =>
      refine keeps_ite (keeps_throw _) ?_
      refine keeps_bind (commitCharge_keeps _) fun row => ?_
      exact keeps_bind (settling_of_aside (alertAfter_keeps _)) fun _ => keeps_pure _

/-- So may a credit. -/
private theorem commitCredit_keeps (customerId : CustomerId) (amount : ℤ) (kind : WalletTxKind)
    (ref : TxRef) (seen : Option (WalletTx CustomerId)) :
    (commitCredit customerId amount kind ref seen).Keeps Settling := by
  refine keeps_step fun w => ?_
  cases w.customers.get? customerId with
  | none => exact Settling.refl w
  | some c =>
      exact ⟨⟨rfl, le_rfl, fun _ => rfl, fun _ => rfl, rfl, rfl, rfl, rfl, rfl, fun _ => rfl⟩, rfl,
        ⟨rfl, rfl, rfl, rfl, rfl, rfl, rfl⟩⟩

/-- So may the settlement of a top-up. -/
private theorem settleCustomerTopup_keeps (id : PaymentId) :
    (settleCustomerTopup id).Keeps Settling := by
  refine keeps_bind (settling_of_aside (findPayment_keeps _)) fun p => ?_
  cases p with
  | none => exact keeps_pure _
  | some p =>
      cases hc : p.customerId with
      | none => simp only [hc]; exact keeps_pure _
      | some c =>
          simp only [hc]
          refine keeps_ite (keeps_pure _) ?_
          refine keeps_bind (settling_of_aside (read_keeps _)) fun already => ?_
          cases already with
          | some t => exact keeps_pure _
          | none =>
              refine keeps_bind (settling_of_aside (storeSettingsByAdminId_keeps _)) fun _ => ?_
              refine keeps_bind
                (keeps_ite (keeps_throw _) (commitCredit_keeps _ _ _ _ _)) fun _ => ?_
              exact keeps_bind (settling_of_aside (audit_keeps _ _)) fun _ => keeps_pure _

/-- So may the payment of an order. -/
private theorem payOrder_keeps (id : PaymentId) (orderId : OrderId) :
    (payOrder id orderId).Keeps Settling := by
  refine keeps_step fun w => ?_
  cases ho : w.orders.get? orderId with
  | none => exact Settling.refl w
  | some o =>
      exact ⟨⟨rfl, le_rfl, fun _ => rfl, fun _ => rfl, rfl, rfl, rfl, rfl, rfl,
        w.orders.map_get?_modify Order.terms ho rfl⟩, rfl,
          ⟨rfl, rfl, rfl, rfl, rfl, rfl, rfl⟩⟩

/-- So may its delivery. -/
private theorem fulfillOrder_keeps (cause : PaymentId) (orderId : OrderId) :
    (fulfillOrder cause orderId).Keeps Settling := by
  refine fulfillOrderBy_keeps Settling.refl (fun w => ?_) (fun w o ho => ?_)
    fun w o e ho => (Aside.order ho (show ({ o with error := e } : Order).terms = _
      from rfl) rfl).settling
  · exact ⟨⟨rfl, le_rfl, fun _ => rfl, fun _ => rfl, rfl, rfl, rfl, rfl, rfl, fun _ => rfl⟩, rfl,
      ⟨rfl, rfl, rfl, rfl, rfl, rfl, rfl⟩⟩
  · exact ⟨⟨rfl, le_rfl, fun _ => rfl, fun _ => rfl, rfl, rfl, rfl, rfl, rfl,
      w.orders.map_get?_modify Order.terms ho rfl⟩, rfl, ⟨rfl, rfl, rfl, rfl, rfl, rfl, rfl⟩⟩

/-- So may all that follows a confirmation. -/
theorem applyConfirmation_settles (id : PaymentId) (p : Payment) (opts : ConfirmOpts) :
    (applyConfirmation id p opts).Keeps Settling := by
  have tell : ∀ kind name, (do
      notify kind
      emitEvent (some p.adminId) name : Service Unit).Keeps Settling := fun _ _ =>
    settling_of_aside (keeps_bind (notify_keeps _) fun _ => emitEvent_keeps _ _)
  refine keeps_ite (keeps_bind (settleCustomerTopup_keeps _) fun _ => tell _ _) ?_
  refine keeps_ite (keeps_bind (chargeWallet_keeps _ _ _ _ _ _) fun _ => tell _ _) ?_
  cases p.orderId with
  | none => exact keeps_pure _
  | some orderId =>
      refine keeps_bind (payOrder_keeps _ _) fun _ => ?_
      refine keeps_bind (settling_of_aside (emitEvent_keeps _ _)) fun _ => ?_
      exact keeps_bind (fulfillOrder_keeps _ _) fun _ => keeps_pure _

/-- So it is upkeep. -/
theorem applyConfirmation_keeps (id : PaymentId) (p : Payment) (opts : ConfirmOpts) :
    (applyConfirmation id p opts).Keeps Upkeep :=
  (applyConfirmation_settles id p opts).mono fun _ _ => Settling.upkeep

/-- A confirmation concerns no deposit book. -/
theorem confirmPayment_keeps_books (e : Evidence) (id : PaymentId) (opts : ConfirmOpts) :
    (confirmPayment e id opts).Keeps SameBooks := by
  have aside : ∀ {α : Type} {p : Service α}, p.Keeps Aside → p.Keeps SameBooks := fun hp =>
    hp.mono fun _ _ => Aside.sameBooks
  refine keeps_bind (aside (findPayment_keeps id)) fun p => ?_
  cases p with
  | none => exact keeps_throw _
  | some p =>
      refine keeps_ite (keeps_throw _) (keeps_ite (keeps_pure _) ?_)
      refine keeps_ite (keeps_throw _) ?_
      have hrow : (confirmRow e id p opts).Keeps SameBooks := by
        refine keeps_step fun w => ?_
        cases w.payments.get? id with
        | none => exact SameBooks.refl w
        | some q => exact ⟨rfl, rfl, rfl, rfl, rfl, rfl, rfl⟩
      refine keeps_bind hrow fun updated => keeps_bind (aside (audit_keeps _ _)) fun _ => ?_
      refine keeps_bind ?_ fun _ => keeps_pure _
      exact (applyConfirmation_settles id p opts).mono fun _ _ => Settling.books

/-! ## What lasts -/

/-- What never changes about a payment. -/
def Payment.terms (p : Payment) :
    PaymentKind × PaymentMethod × AdminId × Option OrderId × ℤ × Time :=
  (p.kind, p.method, p.adminId, p.orderId, p.amount, p.createdAt)

/-- The terms are part of the core. -/
theorem Payment.terms_of_core {p q : Payment} (h : p.core = q.core) : p.terms = q.terms := by
  have hk : p.core.terms = q.core.terms := by rw [h]
  exact hk

/-- So is the hash. -/
theorem Payment.txid_of_core {p q : Payment} (h : p.core = q.core) : p.txid = q.txid := by
  have ht : p.core.txid = q.core.txid := by rw [h]
  exact ht

/-- The payments of the earlier world are still there, under the same terms; the customer of a
top-up stays known, and so do the quotes. -/
structure Lasting (w w' : World) : Prop where
  payments : ∀ id p, w.payments.get? id = some p → ∃ p', w'.payments.get? id = some p' ∧
    p'.terms = p.terms ∧ (p.customerId.isSome → p'.customerId.isSome)
  quoted : w.history.quoted ⊆ w'.history.quoted

instance : IsPreorder World Lasting where
  refl _ := ⟨fun _ p hp => ⟨p, hp, rfl, fun h => h⟩, fun _ h => h⟩
  trans w₁ w₂ w₃ h h' := by
    refine ⟨fun id p hp => ?_, fun _ hq => h'.quoted (h.quoted hq)⟩
    obtain ⟨p', hp', ht, hc⟩ := h.payments id p hp
    obtain ⟨p'', hp'', ht', hc'⟩ := h'.payments id p' hp'
    exact ⟨p'', hp'', ht'.trans ht, fun hs => hc' (hc hs)⟩

/-- Upkeep lasts. -/
theorem Upkeep.lasting {w w' : World} (h : Upkeep w w') : Lasting w w' := by
  refine ⟨fun id p hp => ?_, h.quoted ▸ fun _ hq => hq⟩
  obtain ⟨p', hp', hcore⟩ := h.payment' hp
  have hc : p'.core.customerId = p.core.customerId := by rw [hcore]
  exact ⟨p', hp', Payment.terms_of_core hcore, fun hs => by rwa [show p'.customerId = _ from hc]⟩

/-- A change of one row that keeps its terms. -/
theorem Lasting.of_row {w w' : World} {id : PaymentId} {q p : Payment}
    (hq : w.payments.get? id = some q)
    (hw : w'.payments = w.payments.modify id fun _ => p)
    (hquoted : w.history.quoted ⊆ w'.history.quoted) (ht : p.terms = q.terms)
    (hc : q.customerId.isSome → p.customerId.isSome) : Lasting w w' := by
  refine ⟨fun i r hr => ?_, hquoted⟩
  rw [hw, Table.get?_modify]
  split
  · next hi =>
      obtain rfl : q = r := by simpa [hi, hq] using hr
      exact ⟨p, by rw [hr, Option.map_some], ht, hc⟩
  · exact ⟨r, hr, rfl, fun h => h⟩

end SRPanel
