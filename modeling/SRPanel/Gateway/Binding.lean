import SRPanel.Calls.Steps
import SRPanel.Confirm.Once

/-!
# Whom a callback of the gateway may change

The callback's address is public: payment, authority and status are whatever the caller puts there.
The module computes what one callback does to the payments, says exactly when it changes no payment
but the one that its authority was opened for, and proves that in runs of such callbacks one
authority confirms at most one payment.
-/

namespace SRPanel

open Interleaving Prog

/-! ## What a callback goes by -/

/-- The gateway's authority was opened for this payment. -/
def Payment.boundTo (p : Payment) (authority : Authority) : Bool :=
  p.method = .zarinpal && p.authority = some authority

/-- The id that `ownerAdmin` finds. -/
def World.ownerId (w : World) : Option AdminId :=
  (((w.admins.rows.filter fun r => r.2.role = .owner).insertionSort
    fun a b => a.2.createdAt ≤ b.2.createdAt).head?).map Prod.fst

/-- The settings that `settingsForPayment` finds. -/
def World.payeeShop (w : World) (p : Payment) : Option StoreSettings :=
  if p.kind = .order || p.customerId.isSome then w.shops.get? p.adminId
  else w.ownerId.bind w.shops.get?

/-- The merchant account of the payment's seller. -/
def World.payeeMerchant (w : World) (p : Payment) : Option String :=
  (w.payeeShop p).bind (merchantOf w.outside.decryptSecret)

/-- Why the gateway would not verify an invoice, if it would not. -/
def World.gatewayRefuses (w : World) (merchant : String) (amount : ℤ) (authority : Authority) :
    Option String :=
  match w.outside.zarinpalDown with
  | some e => some e
  | none => if (w.gateway.get? authority).any fun i => i.accepts merchant amount then none
      else some w.outside.zarinpalRefusal

/-- The callback gets past the checks: the payment is open, and either the caller reports a failure
or the authority is not contradicted and there is a merchant to verify with. -/
def World.handles (w : World) (p : Payment) (authority : Authority) (status : String) : Bool :=
  p.status ≠ .confirmed && (status ≠ "OK" ||
    (p.authority.all fun a => a = authority) && (w.payeeMerchant p).isSome)

/-- Why the callback would reject the payment, if it would. -/
def World.callbackRefuses (w : World) (p : Payment) (authority : Authority) (status : String) :
    Option String :=
  if status ≠ "OK" then some "پرداخت توسط کاربر لغو شد"
  else (w.payeeMerchant p).bind fun m => w.gatewayRefuses m p.amount authority

/-- The row that a rejection leaves. -/
def World.rejectedRow (w : World) (p : Payment) (e : String) : Payment :=
  { p with status := .rejected, error := some e, updatedAt := w.now }

/-! ## What a callback does -/

/-- The payments after a callback for the payment `p`. -/
def World.AfterCallback (w : World) (id : PaymentId) (p : Payment) (authority : Authority)
    (status : String) (w' : World) : Prop :=
  if w.handles p authority status then
    match w.callbackRefuses p authority status with
    | some e => w'.payments = w.payments.modify id fun _ => w.rejectedRow p e
    | none =>
        if p.status = .expired then w'.payments = w.payments
        else ∃ p', p'.status = .confirmed ∧ w'.payments = w.payments.modify id fun _ => p'
  else w'.payments = w.payments

section Effect

variable {w : World} {id : PaymentId} {p : Payment}

theorem wp_callbackTarget {Q : String → World → Prop} {E : AppError → World → Prop}
    (o : Option Order) (hQ : ∀ target, Q target w) : Prog.wp (callbackTarget p o) Q E w := by
  unfold callbackTarget
  cases o with
  | some o => exact hQ _
  | none =>
      dsimp only
      split
      · simp only [storeSettingsByAdminId, Db.read, wp_bind, wp_query]
        exact hQ _
      · exact hQ _

theorem wp_settingsForPayment {Q : Option StoreSettings → World → Prop}
    {E : AppError → World → Prop} (hQ : Q (w.payeeShop p) w)
    (hE : w.payeeShop p = none → ∀ e, E e w) : Prog.wp (settingsForPayment p) Q E w := by
  unfold settingsForPayment
  unfold World.payeeShop at hQ hE
  split
  · next h =>
      rw [if_pos h] at hQ
      exact (wp_query _ _).mpr hQ
  · next h =>
      rw [if_neg h] at hQ hE
      simp only [ownerAdmin, Db.read, wp_bind, wp_query]
      unfold World.ownerId at hQ hE
      cases ho : ((w.admins.rows.filter fun r => r.2.role = .owner).insertionSort
          fun a b => a.2.createdAt ≤ b.2.createdAt).head? with
      | none =>
          rw [ho] at hE
          exact hE rfl _
      | some o =>
          rw [ho] at hQ
          simpa [storeSettingsByAdminId, Db.read] using hQ

/-- A verification changes the gateway's table if it is accepted, and nothing else. -/
theorem wp_zarinpalVerify {merchant : String} {amount : ℤ} {authority : Authority}
    {Q : Except String ZpVerified → World → Prop} {E : AppError → World → Prop}
    (hrefused : ∀ e, w.gatewayRefuses merchant amount authority = some e → Q (.error e) w)
    (haccepted : w.gatewayRefuses merchant amount authority = none →
      ∀ v, Q (.ok v)
        { w with gateway := w.gateway.modify authority fun i => { i with verified := true } }) :
    Prog.wp (zarinpalVerify merchant amount authority) Q E w := by
  unfold World.gatewayRefuses at hrefused haccepted
  rw [zarinpalVerify, wp_step]
  cases hdown : w.outside.zarinpalDown with
  | some e =>
      rw [hdown] at hrefused
      exact hrefused e rfl
  | none =>
      rw [hdown] at hrefused haccepted
      cases hg : w.gateway.get? authority with
      | none =>
          rw [hg] at hrefused
          exact hrefused _ rfl
      | some i =>
          rw [hg] at hrefused haccepted
          simp only [Option.any_some] at hrefused haccepted
          by_cases h : i.accepts merchant amount = true
          · simp only [h, if_true]
            exact haccepted (if_pos h) _
          · simp only [h, Bool.false_eq_true, if_false]
            exact hrefused _ (if_neg h)

private theorem afterCallback_unhandled {authority : Authority} {status : String} {w' : World}
    (h : w.handles p authority status = false) (hw : w'.payments = w.payments) :
    w.AfterCallback id p authority status w' := by
  rw [World.AfterCallback, if_neg (by rw [h]; decide)]
  exact hw

private theorem afterCallback_refused {authority : Authority} {status e : String} {w' : World}
    (h : w.handles p authority status) (he : w.callbackRefuses p authority status = some e)
    (hw : w'.payments = w.payments.modify id fun _ => w.rejectedRow p e) :
    w.AfterCallback id p authority status w' := by
  rw [World.AfterCallback, if_pos h, he]
  exact hw

private theorem afterCallback_accepted {authority : Authority} {status : String} {w' : World}
    (h : w.handles p authority status) (he : w.callbackRefuses p authority status = none)
    (hw : if p.status = .expired then w'.payments = w.payments
      else ∃ p', p'.status = .confirmed ∧ w'.payments = w.payments.modify id fun _ => p') :
    w.AfterCallback id p authority status w' := by
  rw [World.AfterCallback, if_pos h, he]
  exact hw

/-- The part of the callback that asks the gateway. -/
private theorem wp_settleCallback (hp : w.payments.get? id = some p) (hc : p.status ≠ .confirmed)
    {authority : Authority} (hall : p.authority.all fun a => a = authority) (target : String) :
    Prog.wp (settleCallback id p authority target) (fun _ => w.AfterCallback id p authority "OK")
      (fun _ => w.AfterCallback id p authority "OK") w := by
  have hhandles : w.handles p authority "OK" = (w.payeeMerchant p).isSome := by
    simp [World.handles, hc, hall]
  have hrefuses : w.callbackRefuses p authority "OK" =
      (w.payeeMerchant p).bind fun m => w.gatewayRefuses m p.amount authority := rfl
  unfold settleCallback
  rw [wp_bind]
  refine wp_settingsForPayment ?_ fun hnone _ =>
    afterCallback_unhandled (by rw [hhandles, World.payeeMerchant, hnone]; rfl) rfl
  simp only [Db.read, wp_bind, wp_query]
  cases hs : w.payeeShop p with
  | none => exact afterCallback_unhandled (by rw [hhandles, World.payeeMerchant, hs]; rfl) rfl
  | some s =>
      have hmerchant : w.payeeMerchant p = merchantOf w.outside.decryptSecret s := by
        rw [World.payeeMerchant, hs, Option.bind_some]
      rw [Option.bind_some]
      cases hm : merchantOf w.outside.decryptSecret s with
      | none => exact afterCallback_unhandled (by rw [hhandles, hmerchant, hm]; rfl) rfl
      | some merchant =>
          have hhandled : w.handles p authority "OK" := by rw [hhandles, hmerchant, hm]; rfl
          rw [hmerchant, hm, Option.bind_some] at hrefuses
          simp only [wp_bind]
          refine wp_zarinpalVerify (fun e he => ?_) fun hok v => ?_
          · simp only [wp_bind]
            exact wp_updatePayment hp (afterCallback_refused hhandled (hrefuses.trans he) rfl)
          · simp only [wp_bind, wp_pure]
            have haccepted := hrefuses.trans hok
            refine wp_confirmPayment_auto (p := p) hp ?_ ?_
            · intro hidle
              have he := hidle.resolve_left hc
              exact afterCallback_accepted hhandled haccepted (by rw [if_pos he])
            · intro _ he p' t hp' _ hsettled
              exact afterCallback_accepted hhandled haccepted (by
                rw [if_neg he]
                exact ⟨p', hp', hsettled.payments⟩)

/-- What a callback does to the payments. -/
theorem handleZarinpalCallback_payments (hp : w.payments.get? id = some p) (authority : Authority)
    (status : String) : w.AfterCallback id p authority status
      ((handleZarinpalCallback id authority status).run w).2 := by
  refine (wp_store_iff (P := w.AfterCallback id p authority status) _).mp ?_
  unfold handleZarinpalCallback findPaymentAndOrder
  simp only [wp_bind, wp_query, hp, Option.map_some]
  refine wp_callbackTarget _ fun target => ?_
  by_cases hc : p.status = .confirmed
  · rw [if_pos hc, wp_pure]
    exact afterCallback_unhandled (by simp [World.handles, hc]) rfl
  rw [if_neg hc]
  by_cases hst : status = "OK"
  · subst hst
    rw [if_neg (not_not.mpr rfl)]
    by_cases hauth : (p.authority.any fun a => a ≠ authority) = true
    · rw [if_pos hauth, wp_pure]
      refine afterCallback_unhandled ?_ rfl
      cases ha : p.authority <;> simp_all [World.handles]
    · rw [if_neg hauth]
      refine wp_settleCallback hp hc ?_ target
      cases ha : p.authority <;> simp_all
  · rw [if_pos hst]
    simp only [wp_bind, wp_pure]
    exact wp_updatePayment hp (afterCallback_refused (by simp [World.handles, hc, hst])
      (if_pos hst) rfl)

end Effect

/-! ## The callback of another payment -/

/-- The callback changes no payment but the one that the authority was opened for. -/
def World.ChangesOnlyBound (w : World) (id : PaymentId) (authority : Authority) (status : String) :
    Prop :=
  ∀ i, ((handleZarinpalCallback id authority status).run w).2.payments.get? i ≠ w.payments.get? i →
    ∃ p, w.payments.get? i = some p ∧ p.boundTo authority

/-- The callback would leave the payment as it is: it is expired and the gateway accepts, or it
already reads as the rejection would leave it. -/
def World.unmoved (w : World) (p : Payment) (authority : Authority) (status : String) : Bool :=
  match w.callbackRefuses p authority status with
  | some e => p = w.rejectedRow p e
  | none => p.status = .expired

/-- The callback is turned away by a check, is about the payment of its authority, or moves nothing.
-/
def World.Harmless (w : World) (id : PaymentId) (authority : Authority) (status : String) : Prop :=
  ∀ p ∈ w.payments.get? id, w.handles p authority status →
    p.boundTo authority ∨ w.unmoved p authority status

instance (w : World) (id : PaymentId) (authority : Authority) (status : String) :
    Decidable (w.Harmless id authority status) :=
  inferInstanceAs (Decidable (∀ p ∈ w.payments.get? id, w.handles p authority status →
    p.boundTo authority ∨ w.unmoved p authority status))

/-- A changed row shows whether it was allowed to change. -/
private theorem changed_iff {w w' : World} {id : PaymentId} {p p' : Payment} {P : Payment → Prop}
    (hp : w.payments.get? id = some p) (hw : w'.payments = w.payments.modify id fun _ => p') :
    (∀ i, w'.payments.get? i ≠ w.payments.get? i → ∃ p, w.payments.get? i = some p ∧ P p) ↔
      (P p ∨ p' = p) := by
  constructor
  · intro h
    by_cases hne : p' = p
    · exact .inr hne
    · obtain ⟨q, hq, hP⟩ := h id (by
        rw [hw, Table.get?_modify_self, hp, Option.map_some]
        exact fun heq => hne (Option.some.inj heq))
      obtain rfl : p = q := by simpa [hp] using hq
      exact .inl hP
  · intro h i hi
    by_cases hid : i = id
    · subst hid
      rw [hw, Table.get?_modify_self, hp, Option.map_some] at hi
      exact ⟨p, hp, h.resolve_right fun heq => hi (by rw [heq])⟩
    · rw [hw, Table.get?_modify_of_ne _ _ hid] at hi
      exact absurd rfl hi

/-- When exactly a callback changes no payment but its own. -/
theorem changesOnlyBound_iff (w : World) (id : PaymentId) (authority : Authority)
    (status : String) : w.ChangesOnlyBound id authority status ↔
    w.Harmless id authority status := by
  have same : ∀ {w' : World}, w'.payments = w.payments →
      ∀ i, w'.payments.get? i ≠ w.payments.get? i → ∃ p, w.payments.get? i = some p ∧
        p.boundTo authority := fun hw i hi => absurd (by rw [hw]) hi
  unfold World.ChangesOnlyBound World.Harmless
  cases hp : w.payments.get? id with
  | none =>
      refine iff_of_true (same ?_) fun p h => by cases h
      simp [handleZarinpalCallback, findPaymentAndOrder, run_bind, hp]
  | some p =>
      have heffect := handleZarinpalCallback_payments hp authority status
      unfold World.AfterCallback at heffect
      simp only [Option.mem_some_iff, forall_eq']
      cases hh : w.handles p authority status with
      | false =>
          rw [hh, if_neg (by decide)] at heffect
          exact iff_of_true (same heffect) fun h => by cases h
      | true =>
          rw [hh, if_pos rfl] at heffect
          simp only [forall_true_left, World.unmoved]
          cases hr : w.callbackRefuses p authority status with
          | some e =>
              rw [hr] at heffect
              rw [changed_iff hp heffect, decide_eq_true_eq, eq_comm (a := p)]
          | none =>
              rw [hr] at heffect
              dsimp only at heffect
              rw [decide_eq_true_eq]
              by_cases hexp : p.status = .expired
              · rw [if_pos hexp] at heffect
                exact iff_of_true (same heffect) (.inr hexp)
              · rw [if_neg hexp] at heffect
                obtain ⟨p', hp', heffect⟩ := heffect
                rw [changed_iff hp heffect]
                have hopen : p.status ≠ .confirmed := by
                  simp only [World.handles, Bool.and_eq_true, decide_eq_true_eq] at hh
                  exact hh.1
                have hne : p' ≠ p := fun heq => hopen (heq ▸ hp')
                simp only [hne, hexp, or_false]

/-! ## Runs of callbacks -/

/-- A callback of the gateway. -/
structure GatewayCall where
  id : PaymentId
  authority : Authority
  status : String

def GatewayCall.prog (c : GatewayCall) : Service Unit :=
  (handleZarinpalCallback c.id c.authority c.status).void

/-- The authority that a payment has stored. -/
def World.authorityOf (w : World) (id : PaymentId) : Option Authority :=
  (w.payments.get? id).bind Payment.authority

/-- The authority that confirmed a payment. -/
def Evidence.authority : Evidence → Option Authority
  | .gateway _ authority => some authority
  | _ => none

/-- No authority has confirmed two payments. -/
def World.AuthorityOnce (w : World) : Prop :=
  ∀ c ∈ w.history.confirmations, ∀ c' ∈ w.history.confirmations, ∀ a ∈ c.evidence.authority,
    c'.evidence.authority = some a → c.payment = c'.payment

instance (w : World) : Decidable w.AuthorityOnce :=
  inferInstanceAs (Decidable (∀ c ∈ w.history.confirmations, ∀ c' ∈ w.history.confirmations,
    ∀ a ∈ c.evidence.authority, c'.evidence.authority = some a → c.payment = c'.payment))

/-- The callback is about the payment of its authority, or a check turns it away. -/
def Payment.directed (p : Payment) (authority : Authority) (status : String) : Bool :=
  p.status = .confirmed || p.boundTo authority ||
    status = "OK" && p.authority.any fun a => a ≠ authority

/-- Every callback of a run is directed when it looks up its payment. -/
def Directed : Stmt → World → Prop
  | .callback id authority status, w =>
      ∀ p ∈ w.payments.get? id, p.directed authority status
  | _, _ => True

instance (l : Stmt) (w : World) : Decidable (Directed l w) :=
  match l with
  | .callback id authority status =>
      inferInstanceAs (Decidable (∀ p ∈ w.payments.get? id, p.directed authority status))
  | .update _ _ => isTrue trivial
  | .other => isTrue trivial
  | .tag _ => isTrue trivial
  | .credit _ _ _ _ _ => isTrue trivial
  | .pay _ => isTrue trivial
  | .lookBack _ => isTrue trivial
  | .readPlugins _ => isTrue trivial
  | .savePlugins _ => isTrue trivial
  | .called _ _ => isTrue trivial
  | .receive _ _ _ => isTrue trivial
  | .look _ _ _ _ => isTrue trivial
  | .release _ _ _ => isTrue trivial
  | .saveBook _ _ => isTrue trivial

/-- The column `authority` is unique, and the authority that confirmed a payment is the one that it
has stored. -/
structure AuthoritiesApart (w : World) : Prop where
  apart : ∀ i j a, w.authorityOf i = some a → w.authorityOf j = some a → i = j
  paid : ∀ c ∈ w.history.confirmations, ∀ a, c.evidence.authority = some a →
    w.authorityOf c.payment = some a

/-- A stored authority stays stored. -/
def AuthoritiesKept (w w' : World) : Prop :=
  ∀ id a, w.authorityOf id = some a → w'.authorityOf id = some a

instance : IsPreorder World AuthoritiesKept where
  refl _ _ _ h := h
  trans _ _ _ h h' id a ha := h' id a (h id a ha)

/-- What happens besides the callbacks: payments may be started and changed, but authorities stay
unique and stored, and nothing else is confirmed by the gateway. -/
structure Trading (w w' : World) : Prop where
  apart : ∀ i j a, w'.authorityOf i = some a → w'.authorityOf j = some a → i = j
  kept : AuthoritiesKept w w'
  confirmations : w'.history.confirmations = w.history.confirmations

theorem AuthoritiesApart.once {w : World} (hI : AuthoritiesApart w) : w.AuthorityOnce :=
  fun c hc c' hc' a ha ha' => hI.apart _ _ a (hI.paid c hc a ha) (hI.paid c' hc' a ha')

private theorem authorityOf_of_core {w w' : World} {id : PaymentId}
    (h : (w'.payments.get? id).map Payment.core = (w.payments.get? id).map Payment.core) :
    w'.authorityOf id = w.authorityOf id := by
  have hbind : ∀ o : Option Payment, o.bind Payment.authority =
      (o.map Payment.core).bind Payment.authority := by
    intro o
    cases o <;> rfl
  rw [World.authorityOf, World.authorityOf, hbind, h, ← hbind]

private theorem AuthoritiesApart.same {w w' : World} (hI : AuthoritiesApart w)
    (h : ∀ id, (w'.payments.get? id).map Payment.core = (w.payments.get? id).map Payment.core)
    (hc : ∀ c ∈ w'.history.confirmations, ∀ a, c.evidence.authority = some a →
      c ∈ w.history.confirmations ∨ w.authorityOf c.payment = some a) :
    AuthoritiesApart w' ∧ AuthoritiesKept w w' := by
  have hauth : ∀ id, w'.authorityOf id = w.authorityOf id := fun id => authorityOf_of_core (h id)
  refine ⟨⟨fun i j a hi hj => hI.apart i j a (hauth i ▸ hi) (hauth j ▸ hj), fun c hmem a ha => ?_⟩,
    fun id a ha => by rw [hauth]; exact ha⟩
  rw [hauth]
  exact (hc c hmem a ha).elim (fun hold => hI.paid c hold a ha) fun hnew => hnew

private theorem AuthoritiesApart.upkeep {w w' : World} (hu : Upkeep w w')
    (hI : AuthoritiesApart w) : AuthoritiesApart w' ∧ AuthoritiesKept w w' :=
  hI.same hu.payments (hu.confirmations ▸ fun _ hc _ _ => .inl hc)

private theorem handleZarinpalCallback_upholds (id : PaymentId) (authority : Authority)
    (status : String) (w : World) : Upholds Directed AuthoritiesApart AuthoritiesKept
      (fun _ _ => True) (fun _ _ => True) (handleZarinpalCallback id authority status) w := by
  have upkeep : ∀ {α : Type} {p : Service α} {t}, p.Keeps Upkeep → Upholds Directed AuthoritiesApart
      AuthoritiesKept (fun _ _ => True) (fun _ _ => True) p t := fun hp =>
    upholds_of_keeps hp fun _ _ => AuthoritiesApart.upkeep
  have aside : ∀ {α : Type} {p : Service α} {t}, p.Keeps Aside → Upholds Directed AuthoritiesApart
      AuthoritiesKept (fun _ _ => True) (fun _ _ => True) p t := fun hp =>
    upkeep (hp.mono fun _ _ => Aside.upkeep)
  refine upholds_read fun v hv hI hok => ?_
  cases hp : v.payments.get? id with
  | none => exact upholds_pure trivial
  | some p =>
      refine upholds_bind (aside (callbackTarget_keeps _ _)) fun target t ht _ => ?_
      refine upholds_ite (fun _ => upholds_pure trivial) fun hc => ?_
      refine upholds_ite (fun _ => upholds_bind (upkeep (rejectByGateway_keeps _ _ _))
        fun _ _ _ _ => upholds_pure trivial) fun hst => ?_
      refine upholds_ite (fun _ => upholds_pure trivial) fun hauth => ?_
      -- the callback is neither for a confirmed payment nor turned away
      have hbound : p.authority = some authority := by
        have hdirected : p.directed authority status := hok p hp
        simp only [Payment.directed, hc, hauth, decide_false, Bool.false_or, Bool.and_false,
          Bool.or_false, Payment.boundTo, Bool.and_eq_true, decide_eq_true_eq] at hdirected
        exact hdirected.2
      unfold settleCallback
      refine upholds_bind (aside (settingsForPayment_keeps _)) fun s t' ht' _ => ?_
      refine upholds_read fun t'' ht'' _ _ => ?_
      split
      · next s' merchant _ =>
          refine upholds_bind (aside (zarinpalVerify_keeps _ _ _)) fun r x hx _ => ?_
          cases r with
          | error e =>
              exact upholds_bind (upkeep (rejectByGateway_keeps _ _ _))
                fun _ _ _ _ => upholds_pure trivial
          | ok zp =>
              refine upholds_bind (confirmPayment_upholds AuthoritiesApart.upkeep ?_)
                fun _ _ _ _ => upholds_pure trivial
              intro y p' q q' hy hIy _ _ _ hq hcore
              refine hIy.same (y.payments.map_get?_modify Payment.core hq hcore) ?_
              intro c hmem a ha
              rcases List.mem_cons.mp hmem with rfl | hmem
              · refine .inr ?_
                obtain rfl : authority = a := by simpa [Evidence.authority] using ha
                have hlast : AuthoritiesKept v y := trans_of AuthoritiesKept ht
                  (trans_of AuthoritiesKept ht' (trans_of AuthoritiesKept ht''
                    (trans_of AuthoritiesKept hx hy)))
                exact hlast id authority (by rw [World.authorityOf, hp]; exact hbound)
              · exact .inl hmem
      · exact upholds_pure trivial

/-- A callback changes no payment but the one of its authority if and only if it is harmless; and in
every run of directed callbacks one authority confirms at most one payment. -/
theorem callback_binding (w : World) :
    (∀ (id : PaymentId) (authority : Authority) (status : String),
      w.ChangesOnlyBound id authority status ↔ w.Harmless id authority status) ∧
    ∀ (calls : List GatewayCall) (c : Pool Stmt World AppError), AuthoritiesApart w →
      Pool.Run Trading Directed ⟨w, calls.map GatewayCall.prog⟩ c → c.store.AuthorityOnce := by
  refine ⟨changesOnlyBound_iff w, fun calls c h0 hrun => ?_⟩
  have henv : ∀ v v', AuthoritiesApart v → Trading v v' →
      AuthoritiesApart v' ∧ AuthoritiesKept v v' := fun v v' hI he =>
    ⟨⟨he.apart, he.confirmations ▸ fun c hc a ha => he.kept _ _ (hI.paid c hc a ha)⟩, he.kept⟩
  have hend : AuthoritiesApart c.store ∧ AuthoritiesKept w c.store := by
    refine Pool.upheld_run h0 (fun p hp => ?_) henv hrun
    obtain ⟨call, -, rfl⟩ := List.mem_map.mp hp
    exact upholds_void (handleZarinpalCallback_upholds _ _ _ w)
  exact hend.1.once

/-! ## A paid authority for another payment

The reseller has the card top-up 7 of `reviewWorld` and a gateway top-up 8 over the same amount,
whose invoice 50 is paid at the owner's gateway.
-/

/-- The owner's shop with its gateway account. -/
def gatewayShop : StoreSettings :=
  { StoreSettings.blank 1 with zarinpalEnabled := true, zarinpalMerchant := some "merchant" }

/-- The top-up that the invoice was opened for. -/
def gatewayTopup : Payment :=
  { newPayment ⟨.topup, .zarinpal, 50000, 2, none, none⟩ 3600000 none with authority := some 50 }

/-- The panel with both top-ups. -/
def gatewayWorld : World :=
  { reviewWorld with
    shops := .ofRows [(1, gatewayShop)]
    payments := .ofRows [(7, reviewedTopup), (8, gatewayTopup)]
    gateway := .ofRows [(50, ⟨"merchant", 50000, true, false, "ref", none⟩)] }

/-- Callbacks on that panel. -/
def callbacks (calls : List GatewayCall) : Pool Stmt World AppError :=
  ⟨gatewayWorld, calls.map GatewayCall.prog⟩

theorem gatewayWorld_apart : AuthoritiesApart gatewayWorld := by
  have hstored : ∀ i a, gatewayWorld.authorityOf i = some a → i = 8 := by
    intro i a hi
    obtain ⟨p, hp, ha⟩ := Option.bind_eq_some_iff.mp hi
    have hmem := (gatewayWorld.payments.mem_rows_iff i p).mpr hp
    have hrows : ∀ r ∈ gatewayWorld.payments.rows, r.2.authority.isSome → r.1 = 8 := by decide
    exact hrows _ hmem (by rw [ha]; rfl)
  exact ⟨fun i j a hi hj => (hstored i a hi).trans (hstored j a hj).symm, fun c hc => nomatch hc⟩

/-- Anyone can have the card top-up rejected by reporting a failure of an unknown authority, and the
invoice of the other top-up confirms both. -/
theorem callback_misdirected :
    ¬gatewayWorld.ChangesOnlyBound 7 0 "NOK" ∧
    ∃ c, Pool.Run Trading (fun _ _ => True) (callbacks [⟨8, 50, "OK"⟩, ⟨7, 50, "OK"⟩]) c ∧
      ¬c.store.AuthorityOnce := by
  refine ⟨fun h => ?_, _, Pool.schedule_run_free _ (List.replicate 16 0 ++ List.replicate 16 1) _,
    by decide⟩
  have hharmless := (changesOnlyBound_iff _ _ _ _).mp h
  exact absurd hharmless (by decide)

/-- The callback for the top-up of the invoice is harmless and directed, and confirms it. Repeated
while the first one runs, it confirms nothing else. -/
theorem callback_binding_repeated :
    let c := Pool.schedule (0 :: List.replicate 16 1 ++ List.replicate 16 0)
      (callbacks [⟨8, 50, "OK"⟩, ⟨8, 50, "OK"⟩])
    gatewayWorld.ChangesOnlyBound 8 50 "OK" ∧ c.Done ∧
      8 ∈ c.store.history.confirmations.map Confirmation.payment ∧ c.store.AuthorityOnce :=
  ⟨((callback_binding gatewayWorld).1 8 50 "OK").mpr (by decide), by decide, by decide,
    (callback_binding gatewayWorld).2 [⟨8, 50, "OK"⟩, ⟨8, 50, "OK"⟩] _ gatewayWorld_apart
      (Pool.schedule_run Trading (0 :: List.replicate 16 1 ++ List.replicate 16 0) _ (by decide))⟩

end SRPanel
