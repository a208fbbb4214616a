import SRPanel.Lib.Faults
import SRPanel.Model.Orders
import SRPanel.Confirm.Frame

/-!
# Fulfilment and placement, step by step

What a predicate on worlds needs in order to survive a fulfilment, and the harmless parts of
`createOrder`, for runs in which steps may fail.
-/

namespace SRPanel

open Interleaving Prog

section Fulfilment

variable {ok fails : Stmt → World → Prop} {P : World → Prop} {w : World}

/-- Fulfilment keeps what its start, the provisioning of a paid order and the note of a failure
keep. -/
theorem fulfillOrderBy_ensures {start : History → History} (orderId : OrderId)
    (hstart : ∀ w, P w → P { w with history := start w.history })
    (hprovision : ∀ w o, w.orders.get? orderId = some o → o.status = .paid → P w → P { w with
      orders := w.orders.modify orderId fun _ => { o with status := .fulfilled, error := none }
      history := { w.history with provisioned := orderId :: w.history.provisioned } })
    (hnote : ∀ w o e, w.orders.get? orderId = some o → P w → P { w with
      orders := w.orders.modify orderId fun _ => { o with error := e } }) (h : P w) :
    Ensures ok fails (fun _ w => P w) (fun _ w => P w) (fulfillOrderBy start orderId) w := by
  refine ensures_bind (P := fun order w => P w ∧ order = w.orders.get? orderId)
    (ensures_step (fun _ => ⟨?_, fun _ h => by cases h⟩) fun _ _ => h) fun order w h => ?_
  · rintro _ ⟨⟩
    exact ⟨hstart w h, rfl⟩
  · obtain ⟨h, horder⟩ := h
    cases order with
    | none => exact ensures_throw h
    | some order =>
        refine ensures_ite (fun _ => ensures_pure h) fun _ => ensures_ite (fun _ => ensures_throw h)
          fun hpaid => ?_
        refine ensures_attempt (H := fun _ w => P w) (ensures_step (fun _ => ?_) fun _ _ => h)
          fun e w h => ensures_step (fun _ => ?_) fun _ _ => h
        · cases w.outside.provisioning orderId with
          | some e => exact ⟨fun _ h => (by cases h), fun _ _ => h⟩
          | none =>
              simp only [← horder]
              exact ⟨fun _ _ => hprovision w order horder.symm (not_not.mp hpaid) h,
                fun _ h => by cases h⟩
        · cases ho : w.orders.get? orderId with
          | none => exact ⟨fun _ h => (by cases h), fun _ _ => h⟩
          | some o => exact ⟨fun _ _ => hnote w o _ ho h, fun _ h => by cases h⟩

end Fulfilment

theorem signedIn_keeps (input : NewOrder) : (signedIn input).Keeps Aside := by
  unfold signedIn
  cases input.customerId with
  | none => exact keeps_pure _
  | some id =>
      refine keeps_bind (read_keeps _) fun account => ?_
      cases account with
      | none => exact keeps_throw _
      | some c => exact keeps_pure _

end SRPanel
