import SRPanel.Deposits.Book
import SRPanel.Deposits.Match

/-!
# A deposit pays once

A deposit that is reported again is recognised by its reference number in a copy of the book, and a
later matching passes over the records that say that they have paid. Both go by a copy that may be
older than the payment, a payment is written down only after it has been made, and the book keeps
the last forty records. The module proves that a deposit confirms at most one payment in every run
in which it has its turn: whoever has paid for it has written that down, the record is still in the
book, and it is in the copy that a call goes by.
-/

namespace SRPanel

open Interleaving Prog

/-- A deposit at the bank. Its reference number tells it; without one, each record is a deposit of
its own. -/
inductive BankDeposit
  | referenced (refId : String)
  | recorded (id : DepositId)
  deriving DecidableEq

/-- The deposit that a record is about. -/
def Deposit.real (d : Deposit) : BankDeposit :=
  if d.refId = "" then .recorded d.id else .referenced d.refId

/-- The deposit in the box that confirmed a payment. -/
def Evidence.realIn (box : AdminId) : Evidence → Option BankDeposit
  | .deposit b d => if b = box then some d.real else none
  | _ => none

/-- No deposit in the box has confirmed two payments. -/
def World.DepositsPayOnce (box : AdminId) (w : World) : Prop :=
  ∀ c ∈ w.history.confirmations, ∀ c' ∈ w.history.confirmations, ∀ r ∈ c.evidence.realIn box,
    c'.evidence.realIn box = some r → c.payment = c'.payment

instance (box : AdminId) (w : World) : Decidable (w.DepositsPayOnce box) :=
  inferInstanceAs (Decidable (∀ c ∈ w.history.confirmations, ∀ c' ∈ w.history.confirmations,
    ∀ r ∈ c.evidence.realIn box, c'.evidence.realIn box = some r → c.payment = c'.payment))

/-! ## The condition -/

/-- The deposit in the box has confirmed a payment. -/
def World.hasPaid (w : World) (box : AdminId) (r : BankDeposit) : Bool :=
  w.history.confirmations.any fun c => c.evidence.realIn box = some r

/-- A deposit has its turn when a payment is released for it: a call that has paid for it before has
written its record, the written record has not left the book, and what is stored of it as paid is in
the copy that is gone by. -/
def InTurn (box : AdminId) : Stmt → World → Prop
  | .release b seen dep, w => b = box →
      (w.hasPaid box dep.real → ∃ r ∈ w.history.matched box, r.real = dep.real) ∧
      (∀ r ∈ w.history.matched box, r.real = dep.real → r ∈ (w.cards box).stored.deposits) ∧
      ∀ d ∈ (w.cards box).stored.deposits, d.status = .matched → d.real = dep.real →
      d ∈ seen.deposits
  | _, _ => True

instance (box : AdminId) (l : Stmt) (w : World) : Decidable (InTurn box l w) :=
  match l with
  | .release b seen dep => inferInstanceAs (Decidable (b = box →
      (w.hasPaid box dep.real → ∃ r ∈ w.history.matched box, r.real = dep.real) ∧
      (∀ r ∈ w.history.matched box, r.real = dep.real → r ∈ (w.cards box).stored.deposits) ∧
      ∀ d ∈ (w.cards box).stored.deposits, d.status = .matched → d.real = dep.real →
      d ∈ seen.deposits))
  | .other => isTrue trivial
  | .tag _ => isTrue trivial
  | .credit _ _ _ _ _ => isTrue trivial
  | .pay _ => isTrue trivial
  | .lookBack _ => isTrue trivial
  | .readPlugins _ => isTrue trivial
  | .savePlugins _ => isTrue trivial
  | .update _ _ => isTrue trivial
  | .callback _ _ _ => isTrue trivial
  | .called _ _ => isTrue trivial
  | .receive _ _ _ => isTrue trivial
  | .look _ _ _ _ => isTrue trivial
  | .saveBook _ _ => isTrue trivial

/-! ## Runs -/

/-- The records that were written as paid say so, and no deposit has paid twice. -/
structure PaidOnce (box : AdminId) (w : World) : Prop where
  matched : ∀ r ∈ w.history.matched box, r.status = .matched
  once : w.DepositsPayOnce box

section Runs

variable {box : AdminId} {w w' : World}

theorem hasPaid_iff {r : BankDeposit} :
    w.hasPaid box r ↔ ∃ c ∈ w.history.confirmations, c.evidence.realIn box = some r := by
  simp [World.hasPaid]

theorem World.DepositsPayOnce.same (h : w.DepositsPayOnce box)
    (hc : ∀ c ∈ w'.history.confirmations, c ∈ w.history.confirmations ∨
      c.evidence.realIn box = none) :
    w'.DepositsPayOnce box := by
  have hold : ∀ c ∈ w'.history.confirmations, ∀ r, c.evidence.realIn box = some r →
      c ∈ w.history.confirmations := fun c hmem r hr =>
    (hc c hmem).resolve_right (by rw [hr]; exact fun h => nomatch h)
  exact fun c hmem c' hmem' r hr hr' => h c (hold c hmem r hr) c' (hold c' hmem' r hr') r hr hr'

/-- A new confirmation by a deposit that has not paid before. -/
theorem World.DepositsPayOnce.confirm (h : w.DepositsPayOnce box) {c₀ : Confirmation}
    (hnew : ∀ r, c₀.evidence.realIn box = some r → ¬w.hasPaid box r)
    (hw : w'.history.confirmations = c₀ :: w.history.confirmations) : w'.DepositsPayOnce box := by
  intro c hc c' hc' r hr hr'
  rw [hw] at hc hc'
  rcases List.mem_cons.mp hc with rfl | hold <;> rcases List.mem_cons.mp hc' with rfl | hold'
  · rfl
  · exact absurd (hasPaid_iff.mpr ⟨c', hold', hr'⟩) (hnew r hr)
  · exact absurd (hasPaid_iff.mpr ⟨c, hold, hr⟩) (hnew r hr')
  · exact h c hold c' hold' r hr hr'

/-- Two records about one deposit agree in the reference number or, without one, are one record. -/
theorem Deposit.refId_of_real {d dep : Deposit} (h : d.real = dep.real) :
    d.refId = dep.refId ∧ (dep.refId = "" → d.id = dep.id) := by
  unfold real at h
  split at h
  · next hd =>
      split at h
      · next hdep => exact ⟨hd.trans hdep.symm, fun _ => BankDeposit.recorded.inj h⟩
      · cases h
  · split at h
    · cases h
    · next hne => exact ⟨BankDeposit.referenced.inj h, fun hempty => absurd hempty hne⟩

/-- A deposit that is due has not paid, as far as the copy shows. -/
theorem Due.not_shown {ok : Stmt → World → Prop} {J : World → Prop} {s : CardAuto}
    {dep d : Deposit} (h : Due ok box J s dep w) (hd : d ∈ s.deposits) (hreal : d.real = dep.real) :
    d.status ≠ .matched := by
  obtain ⟨href, hid⟩ := Deposit.refId_of_real hreal
  rcases h with ⟨hreported, hnew⟩ | ⟨hcopy, hdep, hopen⟩
  · by_cases hne : dep.refId = ""
    -- the id of a report was drawn after all that are in the copy
    · obtain ⟨v, x, input, hv, -, -, rfl, rfl, -⟩ := hreported
      exact absurd (hid hne) ((hv.copy x).drawn d hd).ne
    · exact absurd (isDuplicate_of_refId href hne) (hnew d hd)
  · have heq : d = dep := by
      by_cases hne : dep.refId = ""
      · exact hcopy.wellKept.eq_of_id hd hdep (hid hne)
      · exact hcopy.wellKept.refs dep hdep d hd hne href
    rw [heq]
    exact Deposit.not_matched_of_isOpen hopen

/-- A deposit that is due and has its turn has not paid: its record would be in the copy. -/
theorem Due.not_paid {s : CardAuto} {dep : Deposit}
    (h : Due (InTurn box) box (PaidOnce box) s dep w) (hI : PaidOnce box w)
    (hturn : InTurn box (.release box s dep) w) : ¬w.hasPaid box dep.real := by
  intro hpaid
  obtain ⟨hwritten, hstored, hread⟩ := hturn rfl
  obtain ⟨r, hr, hreal⟩ := hwritten hpaid
  have hmatched := hI.matched r hr
  exact h.not_shown (hread r (hstored r hr hreal) hmatched hreal) hreal hmatched

private theorem settleAtOnce_leaves {s : CardAuto} {dep : Deposit} {id : PaymentId}
    {refId cardPan : Option String} (hdue : Due (InTurn box) box (PaidOnce box) s dep w) :
    Leaves (InTurn box) box (PaidOnce box) (fun _ _ => True)
      (settleAtOnce box s dep id (.auto refId cardPan)) w := by
  refine upholds_atomically fun t ht hI hok => ?_
  have hdone : Prog.wp (confirmPayment (.deposit box dep) id (.auto refId cardPan))
      (fun _ t' => SameBooks t t' ∧ t'.DepositsPayOnce box)
      (fun _ t' => SameBooks t t' ∧ t'.DepositsPayOnce box) t := by
    cases hp : t.payments.get? id with
    | none =>
        simp only [confirmPayment, Db.findPayment, Db.read, wp_bind, wp_query, hp,
          wp_throw]
        exact ⟨SameBooks.refl t, hI.2.once⟩
    | some p =>
        refine wp_confirmPayment_auto hp (fun _ => ⟨SameBooks.refl t, hI.2.once⟩)
          fun _ _ q t' _ _ hsettled => ⟨?_, ?_⟩
        · obtain ⟨h₁, h₂, h₃, h₄, h₅, h₆, h₇⟩ := hsettled.books
          exact ⟨h₁, h₂, h₃, h₄, h₅, h₆, h₇⟩
        · refine hI.2.once.confirm (fun r hr => ?_) hsettled.upkeep.confirmations
          obtain rfl : dep.real = r := by simpa [Evidence.realIn] using hr
          exact (hdue.later ht).not_paid hI.2 hok
  have hkept : ∀ t', SameBooks t t' ∧ t'.DepositsPayOnce box →
      Tended box (PaidOnce box) t' ∧ Onward t t' ∧ True := by
    rintro t' ⟨hbooks, honce⟩
    refine ⟨⟨?_, ?_, honce⟩, hbooks.onward, trivial⟩
    · rw [hbooks.cards, hbooks.nextId]
      exact hI.1
    · rw [hbooks.matched]
      exact hI.2.matched
  exact wp_mono _ hdone (fun _ => hkept) fun _ => hkept

private theorem paidOnce_tends : Tends (InTurn box) box (PaidOnce box) (settleAtOnce box) where
  read hI := ⟨hI.2.matched, hI.2.once⟩
  settle hdue := settleAtOnce_leaves hdue
  receive hI _ := ⟨hI.2.matched, hI.2.once⟩
  dismiss hI _ _ _ := ⟨hI.2.matched, hI.2.once⟩
  save := by
    intro w x seen s hI _ _
    refine ⟨fun r hr => ?_, hI.2.once⟩
    change r ∈ Function.update w.history.matched box _ box at hr
    rw [Function.update_self] at hr
    rcases List.mem_append.mp hr with hnew | hold
    · exact of_decide_eq_true (List.mem_filter.mp hnew).2
    · exact hI.2.matched r hold

/-- In every run that meets the condition, a deposit confirms at most one payment. -/
theorem deposit_pays_once {w : World} {box : AdminId} {calls : List BoxCall}
    {c : Pool Stmt World AppError} (h0 : Tended box (PaidOnce box) w)
    (hrun : Pool.Run (Besides box) (InTurn box)
      ⟨w, calls.map (BoxCall.prog (settleAtOnce box) box)⟩ c) : c.store.DepositsPayOnce box := by
  refine (paidOnce_tends.run (fun he hJ => ⟨?_, hJ.once.same fun c hc => ?_⟩) h0 hrun).2.once
  · rw [he.matched]
    exact hJ.matched
  · refine (he.confirmations c hc).imp (fun h => h) fun hne => ?_
    cases hev : c.evidence with
    | deposit b dep =>
        have hbox : b ≠ box := by
          rintro rfl
          exact hne dep hev
        rw [Evidence.realIn, if_neg hbox]
    | review _ => rfl
    | plugin _ => rfl
    | gateway _ _ => rfl
    | transfer _ _ _ _ => rfl
    | wallet _ => rfl

end Runs

/-! ## One deposit from two feeds

The buyer of top-up 7 has entered the reference number of his transfer, the top-up 8 of another
buyer has the amount of that transfer. The SMS gateway and the bank both report it.
-/

/-- The transfer, as a feed reports it. -/
def reportedTransfer (source : DepositSource) : DepositInput :=
  ⟨50000, some "777001", none, none, none, none, source⟩

/-- The panel with both top-ups. -/
def transferWorld : World :=
  cardWorld [(7, cardTopup 900000 "" "777001" 86300000), (8, cardTopup 50000 "" "" 86300000)]

/-- Both reports of the transfer. -/
def bothReports : List BoxCall :=
  [.ingest .web (reportedTransfer .sms), .ingest .worker (reportedTransfer .bank)]

/-- The reports on that panel. -/
def transferPool : Pool Stmt World AppError :=
  ⟨transferWorld, bothReports.map (BoxCall.prog (settleAtOnce 2) 2)⟩

theorem transferWorld_tended : Tended 2 (PaidOnce 2) transferWorld :=
  tended_of_fresh rfl rfl ⟨fun _ hr => (nomatch hr), by decide⟩

/-- When both reports come in before either is saved, the transfer confirms both top-ups. -/
theorem deposit_pays_twice :
    Tended 2 (PaidOnce 2) transferWorld ∧
    ∃ c, Pool.Run (Besides 2) (fun _ _ => True) transferPool c ∧ ¬c.store.DepositsPayOnce 2 :=
  ⟨transferWorld_tended, _, Pool.schedule_run_free _
    ([0, 1] ++ List.replicate 5 0 ++ List.replicate 5 1) _, by decide +kernel⟩

/-- When the second report comes in later, the transfer confirms one top-up. -/
theorem deposit_pays_once_later :
    let c := Pool.schedule (List.replicate 6 0 ++ List.replicate 2 1) transferPool
    c.store.history.confirmations.map Confirmation.payment = [7] ∧
      c.store.history.dismissed = [(101, 100)] ∧ c.store.DepositsPayOnce 2 :=
  ⟨by decide +kernel, by decide +kernel, deposit_pays_once transferWorld_tended
    (Pool.schedule_run (Besides 2) (List.replicate 6 0 ++ List.replicate 2 1) _
      (by decide +kernel))⟩

end SRPanel
