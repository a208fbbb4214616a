import SRPanel.Confirm.Frame
import Mathlib.Algebra.Group.Nat.Hom
import Mathlib.Algebra.Group.Prod

/-!
# The effect of a confirmation happens once

Many callers race on one payment: the buyer's browser, providers, the worker and reviewers. Each
tests the status of the row in one query and writes it in another. The module proves that in every
run in which no payment is confirmed between a call's read of its row and that call's status write,
a confirmed payment stays confirmed and its effect is triggered at most once; the runs at the end
show what happens otherwise.

The invariant bounds, for one payment, the effects triggered so far plus the effects that calls in
progress may still trigger. A call earns the right to one effect and one hand-over when its status
write turns the payment from another status to `confirmed`, and spends it in the effect.
-/

namespace SRPanel

open Interleaving

/-! ## Confirmed payments and their effects -/

/-- The payment exists and is confirmed. -/
def World.isConfirmed (w : World) (id : PaymentId) : Bool :=
  (w.payments.get? id).any fun p => p.status = .confirmed

/-- How often the effect of a payment was triggered: ledger rows for it, and orders it set to paid.
-/
def World.effects (w : World) (id : PaymentId) : ℕ :=
  w.walletTxs.countP (fun t => t.ref = .payment id) +
    w.customerTxs.countP (fun t => t.ref = .payment id) +
    w.history.moved.countP fun m => m.2 = id

/-- How often a payment handed an order to fulfilment. -/
def World.handOvers (w : World) (id : PaymentId) : ℕ :=
  w.history.handedOver.countP fun m => m.2 = id

/-- A confirmed payment had its effect at most once, another payment had none. -/
def World.Settled (w : World) (id : PaymentId) : Prop :=
  w.effects id ≤ (w.isConfirmed id).toNat ∧ w.handOvers id ≤ (w.isConfirmed id).toNat

/-! ## The calls and their runs -/

/-- The calls that may race on a payment. -/
inductive ConfirmCall
  | confirm (evidence : Evidence) (id : PaymentId) (opts : ConfirmOpts)
  | submit (id : PaymentId) (proof : PaymentProof)
  | reject (actor : Actor) (id : PaymentId) (note : Option String)
  | expire
  | plugin (x : Proc) (id : PluginId) (rawBody : String) (signature : Option String)
  | zarinpal (id : PaymentId) (authority : Authority) (status : String)

/-- The procedure of a call. -/
def ConfirmCall.prog : ConfirmCall → Service Unit
  | confirm evidence id opts => (confirmPayment evidence id opts).void
  | submit id proof => (submitProof id proof).void
  | reject actor id note => (rejectPayment actor id note).void
  | expire => expirePayments.void
  | plugin x id rawBody signature => (handlePaymentPluginCallback x id rawBody signature).void
  | zarinpal id authority status => (handleZarinpalCallback id authority status).void

/-- The two worlds agree on whether the payment is confirmed and on its effects. -/
structure SameFor (id : PaymentId) (w w' : World) : Prop where
  isConfirmed : w'.isConfirmed id = w.isConfirmed id
  effects : w'.effects id = w.effects id
  handOvers : w'.handOvers id = w.handOvers id

/-- What happens besides the calls: anything that neither confirms a payment nor undoes that, and
that adds no ledger row or hand-over for one. -/
def Elsewhere (w w' : World) : Prop := ∀ id, SameFor id w w'

/-- A step that writes statuses finds a row confirmed only if its call has read it so: no other call
has confirmed the payment between that read and this write. -/
def NotOvertaken : Stmt → World → Prop
  | .update columns rows, w => .status ∈ columns →
      ∀ r ∈ rows, ∀ p ∈ w.payments.get? r.1, p.status = .confirmed → r.2.status = .confirmed
  | _, _ => True

instance (l : Stmt) (w : World) : Decidable (NotOvertaken l w) :=
  match l with
  | .update columns rows => inferInstanceAs (Decidable (.status ∈ columns →
      ∀ r ∈ rows, ∀ p ∈ w.payments.get? r.1, p.status = .confirmed → r.2.status = .confirmed))
  | .other => isTrue trivial
  | .tag _ => isTrue trivial
  | .credit _ _ _ _ _ => isTrue trivial
  | .pay _ => isTrue trivial
  | .lookBack _ => isTrue trivial
  | .readPlugins _ => isTrue trivial
  | .savePlugins _ => isTrue trivial
  | .callback _ _ _ => isTrue trivial
  | .called _ _ => isTrue trivial
  | .receive _ _ _ => isTrue trivial
  | .look _ _ _ _ => isTrue trivial
  | .release _ _ _ => isTrue trivial
  | .saveBook _ _ => isTrue trivial

/-! ## The invariant -/

section Invariant

variable {pid : PaymentId}

/-- The effects and hand-overs so far and still to come are within what the status allows. -/
def Within (pid : PaymentId) (w : World) (g : ℕ × ℕ) : Prop :=
  w.effects pid + g.1 ≤ (w.isConfirmed pid).toNat ∧
    w.handOvers pid + g.2 ≤ (w.isConfirmed pid).toNat

/-- Once confirmed, always confirmed. -/
def StaysConfirmed (pid : PaymentId) (w w' : World) : Prop := w.isConfirmed pid → w'.isConfirmed pid

/-- The procedure keeps the bound, from the right to trigger `g`. -/
private abbrev Sound {α : Type} (pid : PaymentId) (p : Service α) (g : ℕ × ℕ) : Prop :=
  Safe NotOvertaken (Within pid) (StaysConfirmed pid) (fun _ _ => True) (fun _ _ => True) p g

/-- The procedure keeps the bound and returns the right `g` unspent. -/
private abbrev Idle {α : Type} (pid : PaymentId) (p : Service α) (g : ℕ × ℕ) : Prop :=
  Safe NotOvertaken (Within pid) (StaysConfirmed pid) (fun _ g' => g' = g) (fun _ _ => True) p g

private theorem SameFor.within {w w' : World} {g : ℕ × ℕ} (h : SameFor pid w w')
    (hI : Within pid w g) : Within pid w' g ∧ StaysConfirmed pid w w' := by
  refine ⟨?_, fun hc => by rw [h.isConfirmed]; exact hc⟩
  simpa only [Within, h.effects, h.handOvers, h.isConfirmed] using hI

private theorem Booked.sameFor {w w' : World} (h : Booked w w') : SameFor pid w w' where
  isConfirmed := by rw [World.isConfirmed, h.payments, World.isConfirmed]
  effects := by rw [World.effects, h.walletTxs, h.customerTxs, h.history, World.effects]
  handOvers := by rw [World.handOvers, h.history, World.handOvers]

private theorem idle_booked {α : Type} {p : Service α} (hp : p.Keeps Booked) (g : ℕ × ℕ) :
    Idle pid p g :=
  safe_mono (safe_of_keeps hp fun _ _ _ h hI => h.sameFor.within hI) (fun _ _ h => h)
    fun _ _ _ => trivial

private theorem idle_aside {α : Type} {p : Service α} (hp : p.Keeps Aside) (g : ℕ × ℕ) :
    Idle pid p g := idle_booked (hp.mono fun _ _ => Aside.booked) g

/-- An idle call is sound. -/
private theorem Idle.sound {α : Type} {p : Service α} {g : ℕ × ℕ} (hp : Idle pid p g) :
    Sound pid p g := safe_mono hp (fun _ _ _ => trivial) fun _ _ _ => trivial

/-- An idle procedure hands its right on. -/
private theorem Idle.bind {α β : Type} {p : Service β} {f : β → Service α} {g : ℕ × ℕ}
    (hp : Idle pid p g) (hf : ∀ b, Sound pid (f b) g) : Sound pid (p >>= f) g :=
  safe_bind hp fun b _ hg => hg ▸ hf b

private theorem Sound.bind {α β : Type} {p : Service β} {f : β → Service α} {g : ℕ × ℕ}
    (hp : Sound pid p g) (hf : ∀ b g, Sound pid (f b) g) : Sound pid (p >>= f) g :=
  safe_bind hp fun b g' _ => hf b g'

/-- A value is sound. -/
private theorem sound_pure {α : Type} (a : α) (g : ℕ × ℕ) : Sound pid (pure a : Service α) g :=
  safe_pure trivial

/-- So is a refusal. -/
private theorem sound_throw {α : Type} (e : AppError) (g : ℕ × ℕ) :
    Sound pid (throw e : Service α) g := safe_throw trivial

/-- So is a note in a plugin's book. -/
private theorem sound_booked {α : Type} {p : Service α} (hp : p.Keeps Booked) (g : ℕ × ℕ) :
    Sound pid p g := (idle_booked hp g).sound

/-- So is a call beside the payments. -/
private theorem sound_aside {α : Type} {p : Service α} (hp : p.Keeps Aside) (g : ℕ × ℕ) :
    Sound pid p g := (idle_aside hp g).sound

/-- A step that changes nothing about the payment. -/
private theorem idle_step {α : Type} {l : Stmt} {F : World → Except AppError α × World} {g : ℕ × ℕ}
    (h : ∀ w, NotOvertaken l w → SameFor pid w (F w).2) : Idle pid (.step l F) g := by
  refine safe_step fun w r hI hok => ?_
  obtain ⟨hI', hG⟩ := (h w hok).within hI
  exact ⟨hG, g, hI', fun _ _ => rfl, fun _ _ => trivial⟩

/-! ## The statements -/

theorem isConfirmed_modify {w : World} {i : PaymentId} {p p' : Payment}
    (hp : w.payments.get? i = some p) (h : p'.status = .confirmed ↔ p.status = .confirmed) :
    ((w.payments.modify i fun _ => p').get? pid).any (fun p => p.status = .confirmed) =
      w.isConfirmed pid := by
  rw [World.isConfirmed, Table.get?_modify]
  split
  · next hi => simp [hi, hp, h]
  · rfl

/-- An update of a row that is confirmed before if and only if it is confirmed afterwards. -/
private theorem updatePayment_idle {l : Stmt} {i : PaymentId} {f : Payment → Payment} {g : ℕ × ℕ}
    (hf : ∀ w p, NotOvertaken l w → w.payments.get? i = some p →
      ((f p).status = .confirmed ↔ p.status = .confirmed)) :
    Idle pid (Db.updatePayment l i f fun _ h => h) g := by
  refine idle_step fun w hok => ?_
  cases hp : w.payments.get? i with
  | none => exact ⟨rfl, rfl, rfl⟩
  | some p => exact ⟨isConfirmed_modify hp (hf w p hok hp), rfl, rfl⟩

/-- What a status write finds in the row that its call has read unconfirmed. -/
private theorem found_unconfirmed {columns : List Column} {i : PaymentId}
    {p q : Payment} {w : World}
    (hok : NotOvertaken (.update columns [(i, p)]) w) (hcol : .status ∈ columns)
    (hp : p.status ≠ .confirmed) (hq : w.payments.get? i = some q) : q.status ≠ .confirmed :=
  fun h => hp (hok hcol (i, p) (List.mem_singleton.mpr rfl) q hq h)

/-- A status write to a payment that its call has found unconfirmed. -/
private theorem statusWrite_idle {columns : List Column} {i : PaymentId} {p : Payment}
    {f : Payment → Payment} {g : ℕ × ℕ} (hcol : .status ∈ columns) (hp : p.status ≠ .confirmed)
    (hf : ∀ row, (f row).status ≠ .confirmed) :
    Idle pid (Db.updatePayment (.update columns [(i, p)]) i f fun _ h => h) g := by
  refine updatePayment_idle fun w q hok hq => ?_
  simp [hf q, found_unconfirmed hok hcol hp hq]

/-- A write that leaves the status alone. -/
private theorem otherWrite_idle {l : Stmt} {i : PaymentId} {f : Payment → Payment} {g : ℕ × ℕ}
    (hf : ∀ row, (f row).status = row.status) :
    Idle pid (Db.updatePayment l i f fun _ h => h) g :=
  updatePayment_idle fun _ q _ _ => by rw [hf q]

private theorem updateTxid_idle {columns : List Column} {i : PaymentId} {p : Payment}
    {txid : String} {f : Payment → Payment} {g : ℕ × ℕ} (hcol : .status ∈ columns)
    (hp : p.status ≠ .confirmed) (hf : ∀ row, (f row).status ≠ .confirmed) :
    Idle pid (Db.updateTxid (.update columns [(i, p)]) i txid f) g := by
  refine idle_step fun w hok => ?_
  cases hq : w.payments.get? i with
  | none => exact ⟨rfl, rfl, rfl⟩
  | some q =>
      dsimp only
      cases Db.txidTaken w i txid with
      | true => exact ⟨rfl, rfl, rfl⟩
      | false =>
          have hfound := found_unconfirmed hok hcol hp hq
          exact ⟨isConfirmed_modify hq (by simp [hf q, hfound]), rfl, rfl⟩

private theorem expireRows_idle {stale : List (PaymentId × Payment)} {g : ℕ × ℕ}
    (hs : ∀ r ∈ stale, r.2.status ≠ .confirmed) : Idle pid (expireRows stale) g := by
  refine idle_step fun w hok => ⟨?_, rfl, rfl⟩
  simp only [World.isConfirmed, Table.get?_mapRows]
  cases hp : w.payments.get? pid with
  | none => rfl
  | some p =>
      simp only [Option.map_some, Option.any_some]
      split
      · next hj =>
          obtain ⟨row, hrow, rfl⟩ := List.mem_map.mp hj
          have hfound : p.status ≠ .confirmed := fun h =>
            hs row hrow (hok (by simp) row hrow p hp h)
          simp [hfound]
      · rfl

/-! ## Confirmation -/

/-- The right that the confirmation of payment `i` earns: one effect and one hand-over. -/
private def earned (pid i : PaymentId) : ℕ × ℕ := if i = pid then (1, 1) else 0

/-- The right to the hand-over alone. -/
private def handOver (pid i : PaymentId) : ℕ × ℕ := if i = pid then (0, 1) else 0

/-- The status write of a confirmation earns its right: the row was not confirmed before. -/
private theorem confirmRow_safe {evidence : Evidence} {i : PaymentId} {p : Payment}
    {opts : ConfirmOpts} {g : ℕ × ℕ} (hp : p.status ≠ .confirmed) :
    Safe NotOvertaken (Within pid) (StaysConfirmed pid) (fun _ g' => g' = g + earned pid i)
      (fun _ _ => True) (confirmRow evidence i p opts) g := by
  refine safe_step fun w r hI hok => ?_
  cases hq : w.payments.get? i with
  | none => exact ⟨fun h => h, g, hI, fun a h => (nomatch h), fun _ _ => trivial⟩
  | some q =>
      have hfound := found_unconfirmed hok (by simp) hp hq
      by_cases hi : i = pid
      · subst hi
        have hold : w.isConfirmed i = false := by simp [World.isConfirmed, hq, hfound]
        refine ⟨fun h => absurd h (by simp [hold]), g + earned i i, ?_, fun _ _ => rfl,
          fun _ _ => trivial⟩
        simp only [Within, hold, Bool.toNat_false, World.effects, World.handOvers, Prod.fst_add,
          Prod.snd_add] at hI
        simp only [Within, World.isConfirmed, Table.get?_modify_self, hq, World.effects,
          World.handOvers, earned, if_true, Prod.fst_add, Prod.snd_add, History.confirm,
          Option.map_some, Option.any_some, confirmedRow, decide_true, Bool.toNat_true]
        omega
      · have hsame : SameFor pid w { w with
            payments := w.payments.modify i fun _ =>
              { confirmedRow p opts q with updatedAt := w.now }
            history := w.history.confirm ⟨i, q, evidence⟩ } := by
          refine ⟨?_, rfl, rfl⟩
          rw [World.isConfirmed, Table.get?_modify_of_ne _ _ fun h => hi h.symm, World.isConfirmed]
        obtain ⟨hI', hG⟩ := hsame.within hI
        refine ⟨hG, g, hI', fun _ _ => ?_, fun _ _ => trivial⟩
        simp [earned, hi]

/-- A step that adds one effect of payment `i` spends the right to it. -/
private theorem spend_effect {w : World} (w' : World) {i : PaymentId} {g f : ℕ × ℕ}
    (hI : Within pid w (g + earned pid i + f)) (hc : w'.isConfirmed pid = w.isConfirmed pid)
    (he : w'.effects pid = w.effects pid + if i = pid then 1 else 0)
    (hh : w'.handOvers pid = w.handOvers pid) :
    StaysConfirmed pid w w' ∧ Within pid w' (g + handOver pid i + f) := by
  refine ⟨fun h => by rw [hc]; exact h, ?_⟩
  simp only [Within, hc, he, hh, earned, handOver, Prod.fst_add, Prod.snd_add] at hI ⊢
  split at hI
  · next hi =>
      simp only [hi, if_true] at hI ⊢
      omega
  · next hi => simpa [hi] using hI

private theorem commitCharge_sound {row : WalletTx AdminId} {i : PaymentId} {g : ℕ × ℕ}
    (hrow : row.ref = .payment i) : Sound pid (commitCharge row) (g + earned pid i) := by
  refine safe_step fun w r hI _ => ?_
  cases w.admins.get? row.holder with
  | none => exact ⟨fun h => h, _, hI, fun _ _ => trivial, fun _ _ => trivial⟩
  | some a =>
      obtain ⟨hG, hI'⟩ := spend_effect { w with
        admins := w.admins.modify row.holder fun a => { a with credit := row.balanceAfter }
        walletTxs := row :: w.walletTxs } hI rfl (by
          simp only [World.effects, List.countP_cons, hrow, TxRef.payment.injEq, decide_eq_true_eq]
          omega) rfl
      exact ⟨hG, _, hI', fun _ _ => trivial, fun _ _ => trivial⟩

private theorem commitCredit_sound {customerId : CustomerId} {amount : ℤ} {kind : WalletTxKind}
    {i : PaymentId} {seen : Option (WalletTx CustomerId)} {g : ℕ × ℕ} :
    Sound pid (commitCredit customerId amount kind (.payment i) seen) (g + earned pid i) := by
  refine safe_step fun w r hI _ => ?_
  cases w.customers.get? customerId with
  | none => exact ⟨fun h => h, _, hI, fun _ _ => trivial, fun _ _ => trivial⟩
  | some c =>
      obtain ⟨hG, hI'⟩ := spend_effect { w with
        customers := w.customers.modify customerId fun c => { c with credit := c.credit + amount }
        customerTxs := ⟨customerId, kind, amount, c.credit + amount, .payment i, none⟩ ::
          w.customerTxs } hI rfl (by
            simp only [World.effects, List.countP_cons, TxRef.payment.injEq, decide_eq_true_eq]
            omega) rfl
      exact ⟨hG, _, hI', fun _ _ => trivial, fun _ _ => trivial⟩

private theorem chargeWallet_sound {target : Actor} {amount : ℤ} {kind : WalletTxKind}
    {i : PaymentId} {byAdminId : Option AdminId} {allowNegative : Bool} {g : ℕ × ℕ} :
    Sound pid (chargeWallet target amount kind (.payment i) byAdminId allowNegative)
      (g + earned pid i) := by
  refine safe_ite (fun _ => sound_pure _ _) fun _ => safe_ite (fun _ => sound_pure _ _) fun _ => ?_
  refine (idle_aside (Prog.keeps_ite (read_keeps _) (Prog.keeps_pure _)) _).bind fun limit => ?_
  refine (idle_aside (read_keeps _) _).bind fun a => ?_
  cases a with
  | none => exact sound_throw _ _
  | some a =>
      refine safe_ite (fun _ => sound_throw _ _) fun _ => ?_
      refine (commitCharge_sound rfl).bind fun row g' => ?_
      exact (idle_aside (alertAfter_keeps row) g').bind fun _ => sound_pure _ _

private theorem settleCustomerTopup_sound {i : PaymentId} {g : ℕ × ℕ} :
    Sound pid (settleCustomerTopup i) (g + earned pid i) := by
  refine (idle_aside (findPayment_keeps i) _).bind fun payment => ?_
  cases payment with
  | none => exact sound_pure _ _
  | some payment =>
      cases hc : payment.customerId with
      | none => simp only [hc]; exact sound_pure _ _
      | some customerId =>
          simp only [hc]
          refine safe_ite (fun _ => sound_pure _ _) fun _ => ?_
          refine (idle_aside (read_keeps _) _).bind fun already => ?_
          cases already with
          | some t => exact sound_pure _ _
          | none =>
              refine (idle_aside (storeSettingsByAdminId_keeps _) _).bind fun store => ?_
              refine Sound.bind (safe_ite (fun _ => sound_throw _ _) fun _ => commitCredit_sound)
                fun balance g' => ?_
              exact (idle_aside (audit_keeps _ _) g').bind fun _ => sound_pure _ _

/-- The order update spends the right to the effect and keeps the one to the hand-over. -/
private theorem payOrder_safe {i : PaymentId} {orderId : OrderId} {g : ℕ × ℕ} :
    Safe NotOvertaken (Within pid) (StaysConfirmed pid) (fun _ g' => g' = g + handOver pid i)
      (fun _ _ => True) (payOrder i orderId) (g + earned pid i) := by
  refine safe_step fun w r hI _ => ?_
  cases w.orders.get? orderId with
  | none => exact ⟨fun h => h, _, hI, fun a h => (nomatch h), fun _ _ => trivial⟩
  | some o =>
      obtain ⟨hG, hI'⟩ := spend_effect { w with
        orders := w.orders.modify orderId fun _ =>
          { o with status := .paid, paidAt := some w.now, error := none }
        history := { w.history with moved := (orderId, i) :: w.history.moved } } hI rfl (by
          simp only [World.effects, List.countP_cons, decide_eq_true_eq]
          omega) rfl
      exact ⟨hG, _, hI', fun _ _ => rfl, fun _ _ => trivial⟩

private theorem fulfillOrder_sound {i : PaymentId} {orderId : OrderId} {g : ℕ × ℕ} :
    Sound pid (fulfillOrder i orderId) (g + handOver pid i) := by
  refine Sound.bind (safe_step fun w r hI _ => ?_) fun order g' => ?_
  · refine ⟨fun h => h, g, ?_, fun _ _ => trivial, fun _ _ => trivial⟩
    simp only [Within, World.isConfirmed, World.effects, World.handOvers, handOver, Prod.fst_add,
      Prod.snd_add, History.handOver, List.countP_cons, decide_eq_true_eq] at hI ⊢
    split at hI
    · next hi =>
        simp only [hi, if_true] at hI ⊢
        omega
    · next hi => simpa [hi] using hI
  · cases order with
    | none => exact sound_throw _ _
    | some order =>
        refine safe_ite (fun _ => sound_pure _ _) fun _ => safe_ite (fun _ => sound_throw _ _)
          fun _ => ?_
        refine safe_attempt (F := fun _ _ => True) (Idle.sound (idle_step fun w _ => ?_))
          fun err g _ => sound_aside (noteFailure_keeps _ _) g
        cases w.outside.provisioning orderId <;> cases w.orders.get? orderId <;>
          exact ⟨rfl, rfl, rfl⟩

/-- The effect of a confirmation spends what the status write has earned. -/
private theorem applyConfirmation_sound {i : PaymentId} {p : Payment} {opts : ConfirmOpts}
    {g : ℕ × ℕ} : Sound pid (applyConfirmation i p opts) (g + earned pid i) := by
  have tell : ∀ kind name g, Sound pid (do notify kind; emitEvent (some p.adminId) name) g :=
    fun kind name g => (idle_aside (notify_keeps _) g).bind fun _ =>
      sound_aside (emitEvent_keeps _ _) g
  refine safe_ite (fun _ => settleCustomerTopup_sound.bind fun _ g' => tell _ _ g') fun _ => ?_
  refine safe_ite (fun _ => chargeWallet_sound.bind fun _ g' => tell _ _ g') fun _ => ?_
  cases p.orderId with
  | none => exact sound_pure _ _
  | some orderId =>
      refine safe_bind payOrder_safe fun _ g' hg => ?_
      subst hg
      refine (idle_aside (emitEvent_keeps _ _) _).bind fun _ => ?_
      exact fulfillOrder_sound.bind fun _ g' => sound_pure _ _

/-- A confirmation is sound. -/
private theorem confirmPayment_sound (evidence : Evidence) (i : PaymentId) (opts : ConfirmOpts)
    (g : ℕ × ℕ) : Sound pid (confirmPayment evidence i opts) g := by
  refine (idle_aside (findPayment_keeps i) g).bind fun p => ?_
  cases p with
  | none => exact sound_throw _ _
  | some p =>
      refine safe_ite (fun _ => sound_throw _ _) fun _ => safe_ite (fun _ => sound_pure _ _)
        fun hp => safe_ite (fun _ => sound_throw _ _) fun _ => ?_
      refine safe_bind (confirmRow_safe hp) fun updated g' hg => ?_
      subst hg
      refine (idle_aside (audit_keeps _ _) _).bind fun _ => ?_
      exact applyConfirmation_sound.bind fun _ g' => sound_pure _ _

/-! ## The other calls -/

/-- So is a submitted hash. -/
private theorem submitTxid_sound {i : PaymentId} {p : Payment} (hp : p.status ≠ .confirmed)
    (s : Option StoreSettings) (proof : PaymentProof) (g : ℕ × ℕ) :
    Sound pid (submitTxid i p s proof) g := by
  have review : ∀ updated : Payment, Sound pid (do announceReview updated; pure updated) g :=
    fun updated => (idle_aside (announceReview_keeps updated) g).bind fun _ => sound_pure _ _
  unfold submitTxid
  dsimp only
  refine safe_ite (fun _ => sound_throw _ _) fun _ => ?_
  refine (idle_aside (read_keeps _) g).bind fun dup =>
    safe_ite (fun _ => sound_throw _ _) fun _ => ?_
  refine (updateTxid_idle (by simp) hp fun _ => by simp).bind fun updated => ?_
  split
  · refine safe_ite (fun _ => ?_) fun _ => review updated
    refine (idle_aside (verifyTrc20Payment_keeps _ _ _) g).bind fun r => ?_
    refine safe_ite (fun _ => confirmPayment_sound _ _ _ g) fun _ => ?_
    refine Idle.bind (otherWrite_idle ?_) fun updated => review updated
    exact fun _ => rfl
  · exact review updated

/-- So is a submitted proof. -/
private theorem submitProof_sound (i : PaymentId) (proof : PaymentProof) (g : ℕ × ℕ) :
    Sound pid (submitProof i proof) g := by
  refine (idle_aside (findPayment_keeps i) g).bind fun p => ?_
  cases p with
  | none => exact sound_throw _ _
  | some p =>
      refine safe_ite (fun _ => sound_pure _ _) fun hp => ?_
      refine (idle_aside clock_keeps g).bind fun now =>
        safe_ite (fun _ => sound_throw _ _) fun _ => ?_
      refine (idle_aside (settingsForPayment_keeps p) g).bind fun s => ?_
      cases p.method with
      | usdt => exact submitTxid_sound hp s proof g
      | card =>
          refine safe_ite (fun _ => sound_throw _ _) fun _ => ?_
          refine (statusWrite_idle (by simp) hp fun _ => by simp).bind fun updated => ?_
          exact (idle_aside (announceReview_keeps updated) g).bind fun _ => sound_pure _ _
      | zarinpal => exact sound_throw _ _
      | wallet => exact sound_throw _ _
      | manual => exact sound_throw _ _

/-- So is a rejection. -/
private theorem rejectPayment_sound (actor : Actor) (i : PaymentId) (note : Option String)
    (g : ℕ × ℕ) : Sound pid (rejectPayment actor i note) g := by
  refine (idle_aside (read_keeps _) g).bind fun found => ?_
  cases found with
  | none => exact sound_throw _ _
  | some found =>
      refine safe_ite (fun _ => sound_throw _ _) fun _ => safe_ite (fun _ => sound_throw _ _)
        fun hp => ?_
      refine (statusWrite_idle (by simp) hp fun _ => by simp).bind fun updated => ?_
      refine (idle_aside (noteRejection_keeps _ _) g).bind fun _ => ?_
      refine (idle_aside (audit_keeps _ _) g).bind fun _ => ?_
      refine (idle_aside (tellBuyer_keeps _) g).bind fun _ => ?_
      exact (idle_aside (emitEvent_keeps _ _) g).bind fun _ => sound_pure _ _

/-- So is the expiry of payments. -/
private theorem expirePayments_sound (g : ℕ × ℕ) : Sound pid expirePayments g := by
  refine (idle_aside clock_keeps g).bind fun now => ?_
  have pending : ∀ (w : World) (r : PaymentId × Payment),
      r ∈ w.payments.rows.filter (fun r => r.2.status = .pending && r.2.overdue now) →
      r.2.status ≠ .confirmed := by
    intro w r hr
    have hp := (List.mem_filter.mp hr).2
    simp only [Bool.and_eq_true, decide_eq_true_eq] at hp
    simp [hp.1]
  have hread : Safe NotOvertaken (Within pid) (StaysConfirmed pid)
      (fun stale g' => g' = g ∧ ∀ r ∈ stale, r.2.status ≠ .confirmed) (fun _ _ => True)
      (Db.read fun w =>
        w.payments.rows.filter fun r => r.2.status = .pending && r.2.overdue now) g :=
    safe_query (fun _ h => h) fun w _ _ _ => ⟨rfl, pending w⟩
  refine safe_bind hread fun stale g' ⟨_, hs⟩ => ?_
  refine safe_ite (fun _ => sound_pure _ _) fun _ => ?_
  refine (expireRows_idle hs).bind fun _ => ?_
  exact (idle_aside (expireOrders_keeps _) g').bind fun _ => sound_pure _ _

/-- So is the effect of a plugin's callback. -/
private theorem settlePluginCallback_sound {x : Proc} {id : PluginId} {plugin : PaymentPlugin}
    {i : PaymentId} {p : Payment} (hp : p.status ≠ .confirmed) (body : CallbackBody) (g : ℕ × ℕ) :
    Sound pid (settlePluginCallback x id plugin i p body) g := by
  have close : ∀ action status message entry g, Sound pid (do
      audit (some plugin.adminId) entry
      finish x id action i status message) g := fun _ _ _ _ g =>
    (idle_aside (audit_keeps _ _) g).bind fun _ => sound_booked (finish_keeps _ _ _ _ _ _) g
  unfold settlePluginCallback
  dsimp only
  refine safe_ite (fun _ => ?_) fun _ => ?_
  · exact (statusWrite_idle (by simp) hp fun _ => by simp).bind fun _ => close _ _ _ _ g
  · split
    · exact (statusWrite_idle (by simp) hp fun _ => by simp).bind fun _ => close _ _ _ _ g
    · exact (confirmPayment_sound _ _ _ g).bind fun _ g' => close _ _ _ _ g'

/-- So is the whole callback. -/
private theorem handlePaymentPluginCallback_sound (x : Proc) (id : PluginId) (rawBody : String)
    (signature : Option String) (g : ℕ × ℕ) :
    Sound pid (handlePaymentPluginCallback x id rawBody signature) g := by
  have refused : ∀ status e, Sound pid (refuse x id status e : Service PluginCallbackResult) g :=
    fun _ _ => sound_booked (refuse_keeps _ _ _ _) g
  refine (idle_booked (pluginBook_keeps x) g).bind fun items => ?_
  cases items.get? id with
  | none => exact sound_throw _ _
  | some plugin =>
      refine safe_ite (fun _ => sound_throw _ _) fun _ => safe_ite (fun _ => sound_throw _ _)
        fun _ => ?_
      refine (idle_aside (read_keeps _) g).bind fun _ => safe_ite (fun _ => refused _ _) fun _ => ?_
      refine (idle_aside (read_keeps _) g).bind fun json => ?_
      cases json with
      | none => exact refused _ _
      | some body =>
          cases hb : body.target with
          | none => simp only [hb]; exact refused _ _
          | some i =>
              simp only [hb]
              refine (idle_aside (query_keeps _ _) g).bind fun p => ?_
              cases p with
              | none => exact refused _ _
              | some p =>
                  refine safe_ite (fun _ => refused _ _) fun _ => safe_ite (fun _ => refused _ _)
                    fun _ => safe_ite (fun _ => sound_booked (finish_keeps _ _ _ _ _ _) g)
                    fun hp => safe_ite (fun _ => sound_booked (finish_keeps _ _ _ _ _ _) g) fun _ =>
                      ?_
                  exact settlePluginCallback_sound hp body g

/-- So is the callback of the gateway. -/
private theorem handleZarinpalCallback_sound (i : PaymentId) (authority : Authority)
    (status : String) (g : ℕ × ℕ) : Sound pid (handleZarinpalCallback i authority status) g := by
  refine (idle_aside (query_keeps _ _) g).bind fun found => ?_
  cases found with
  | none => exact sound_pure _ _
  | some found =>
      refine (idle_aside (callbackTarget_keeps _ _) g).bind fun target => ?_
      refine safe_ite (fun _ => sound_pure _ _) fun hp => safe_ite (fun _ => ?_) fun _ =>
        safe_ite (fun _ => sound_pure _ _) fun _ => ?_
      · exact (statusWrite_idle (by simp) hp fun _ => by simp).bind fun _ => sound_pure _ _
      · refine (idle_aside (settingsForPayment_keeps _) g).bind fun s => ?_
        refine (idle_aside (read_keeps _) g).bind fun merchant => ?_
        split
        · refine (idle_aside (zarinpalVerify_keeps _ _ _) g).bind fun r => ?_
          cases r with
          | error e =>
              exact (statusWrite_idle (by simp) hp fun _ => by simp).bind fun _ => sound_pure _ _
          | ok v => exact (confirmPayment_sound _ _ _ g).bind fun _ _ => sound_pure _ _
        · exact sound_pure _ _

/-- So is every call that may confirm. -/
private theorem prog_sound (c : ConfirmCall) : Sound pid c.prog 0 := by
  cases c with
  | confirm evidence i opts => exact safe_void (confirmPayment_sound evidence i opts 0)
  | submit i proof => exact safe_void (submitProof_sound i proof 0)
  | reject actor i note => exact safe_void (rejectPayment_sound actor i note 0)
  | expire => exact safe_void (expirePayments_sound 0)
  | plugin x id rawBody signature =>
      exact safe_void (handlePaymentPluginCallback_sound x id rawBody signature 0)
  | zarinpal i authority status =>
      exact safe_void (handleZarinpalCallback_sound i authority status 0)

end Invariant

/-! ## Runs -/

/-- In a run in which no call is overtaken by a confirmation of its payment, a payment once
confirmed stays confirmed, and its effect and its hand-over are triggered at most once. -/
theorem confirmation_takes_effect_once {w : World} {calls : List ConfirmCall}
    {c c' : Pool Stmt World AppError} (h0 : ∀ id, w.Settled id)
    (hrun : Pool.Run Elsewhere NotOvertaken ⟨w, calls.map ConfirmCall.prog⟩ c)
    (hrun' : Pool.Run Elsewhere NotOvertaken c c') (id : PaymentId) :
    (c.store.isConfirmed id → c'.store.isConfirmed id) ∧
      c'.store.effects id ≤ 1 ∧ c'.store.handOvers id ≤ 1 := by
  have henv : ∀ w w' g, Within id w g → Elsewhere w w' → Within id w' g ∧ StaysConfirmed id w w' :=
    fun _ _ _ hI he => (he id).within hI
  have hstart : Pool.Good NotOvertaken (Within id) (StaysConfirmed id)
      ⟨w, calls.map ConfirmCall.prog⟩ := by
    refine Pool.Good.of_safe (h0 id) fun p hp => ?_
    obtain ⟨call, -, rfl⟩ := List.mem_map.mp hp
    exact prog_sound call
  have hc := hstart.run henv hrun
  refine ⟨hc.guarantee henv (fun _ h => h) (fun _ _ _ h h' hw => h' (h hw)) hrun', ?_⟩
  obtain ⟨g, hg⟩ := (hc.run henv hrun').inv
  have hle : (c'.store.isConfirmed id).toNat ≤ 1 := Bool.toNat_le _
  exact ⟨by have := hg.1; omega, by have := hg.2; omega⟩

/-! ## A race

The owner reviews a reseller's top-up. A second review, or a rejection, that has read the row before
the first status write overrides what it finds.
-/

/-- A reseller's card top-up that waits for review. -/
def reviewedTopup : Payment :=
  { newPayment ⟨.topup, .card, 50000, 2, none, none⟩ 3600000 none with status := .review }

/-- The owner 1, the reseller 2 and the top-up 7 of the reseller. -/
def reviewWorld : World :=
  { World.blank with
    admins := .ofRows [(1, ⟨.owner, 0, 0⟩), (2, ⟨.admin, 0, 0⟩)]
    payments := .ofRows [(7, reviewedTopup)] }

/-- The owner's confirmation of payment 7. -/
def ownerConfirms : ConfirmCall :=
  .confirm (.review ⟨1, .owner⟩) 7 ⟨some ⟨1, .owner⟩, none, none⟩

/-- A pool of calls on that world. -/
def reviewPool (calls : List ConfirmCall) : Pool Stmt World AppError :=
  ⟨reviewWorld, calls.map ConfirmCall.prog⟩

theorem reviewWorld_settled (id : PaymentId) : reviewWorld.Settled id :=
  ⟨Nat.zero_le _, Nat.zero_le _⟩

/-- Without that condition the effect can happen twice, and a confirmed payment can
become rejected. -/
theorem confirmation_races :
    (∃ c, Pool.Run Elsewhere (fun _ _ => True) (reviewPool [ownerConfirms, ownerConfirms]) c ∧
      c.store.effects 7 = 2) ∧
    ∃ c c', Pool.Run Elsewhere (fun _ _ => True)
        (reviewPool [ownerConfirms, .reject ⟨1, .owner⟩ 7 none]) c ∧
      Pool.Run Elsewhere (fun _ _ => True) c c' ∧
      c.store.isConfirmed 7 = true ∧ c'.store.isConfirmed 7 = false := by
  refine ⟨⟨_, Pool.schedule_run_free _ [0, 1, 0, 0, 0, 0, 0, 0, 1, 1, 1, 1, 1, 1] _, by decide⟩, ?_⟩
  exact ⟨_, _, Pool.schedule_run_free _ [0, 1, 0] _, Pool.schedule_run_free _ [1] _, by decide,
    by decide⟩

/-- A review that begins when another one is over meets the condition, finds the payment confirmed
and charges nothing. -/
theorem confirmation_takes_effect_once_in_turn :
    let c := Pool.schedule (List.replicate 7 0) (reviewPool [ownerConfirms, ownerConfirms])
    let c' := Pool.schedule (List.replicate 7 1) c
    c.store.effects 7 = 1 ∧ c'.Done ∧
      (c.store.isConfirmed 7 → c'.store.isConfirmed 7) ∧ c'.store.effects 7 ≤ 1 ∧
      c'.store.handOvers 7 ≤ 1 :=
  ⟨by decide, by decide, confirmation_takes_effect_once reviewWorld_settled
    (Pool.schedule_run Elsewhere (List.replicate 7 0) _ (by decide))
    (Pool.schedule_run Elsewhere (List.replicate 7 1) _ (by decide)) 7⟩

end SRPanel
