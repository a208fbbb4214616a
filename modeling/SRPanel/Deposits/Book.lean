import SRPanel.Calls.Steps
import SRPanel.Model.CardAuto

/-!
# The deposit book of a seller

Four procedures write the book of a seller: the ingestion of a deposit, the later matching, the sync
with the bank, and the form of the settings. `Tends` says of an invariant that it survives what
these do; the module derives that it then holds in every interleaving, together with the order that
the dedupe keeps in every copy of the book (`WellKept`).
-/

namespace SRPanel

open Interleaving

/-! ## Records -/

/-- A record without the outcome of its matching. -/
def Deposit.body (d : Deposit) : Deposit :=
  { d with status := .unmatched, paymentId := none, note := "" }

/-- The status of a record in the book. -/
def DepositStatus.inBook (s : DepositStatus) : Bool :=
  s = .unmatched || s = .ambiguous || s = .matched

/-- A deposit in the book is open or matched. -/
theorem Deposit.isOpen_or_matched {d : Deposit} (h : d.status.inBook) :
    d.isOpen ∨ d.status = .matched := by
  simpa [DepositStatus.inBook, Deposit.isOpen] using h

/-- It is not both. -/
theorem Deposit.not_matched_of_isOpen {d : Deposit} (h : d.isOpen) : d.status ≠ .matched := by
  intro hm
  simp [Deposit.isOpen, hm] at h

/-- The id is part of what a deposit keeps. -/
theorem Deposit.id_of_body {d d' : Deposit} (h : d.body = d'.body) : d.id = d'.id := by
  have hid : d.body.id = d'.body.id := by rw [h]
  exact hid

/-- So is the reference number. -/
theorem Deposit.refId_of_body {d d' : Deposit} (h : d.body = d'.body) : d.refId = d'.refId := by
  have href : d.body.refId = d'.body.refId := by rw [h]
  exact href

/-- So is the amount. -/
theorem Deposit.amount_of_body {d d' : Deposit} (h : d.body = d'.body) : d.amount = d'.amount := by
  have hamount : d.body.amount = d'.body.amount := by rw [h]
  exact hamount

/-- Two records with one reference number are duplicates. -/
theorem isDuplicate_of_refId {dep d : Deposit} (h : d.refId = dep.refId) (hne : dep.refId ≠ "") :
    isDuplicate dep d := by
  have hfp : fingerprint d = fingerprint dep := by
    rw [fingerprint, fingerprint, h, if_neg hne, if_neg hne]
  simp [isDuplicate, hfp]

/-- What is true of every copy of a book, when the ids below `n` are drawn. -/
structure CardAuto.WellKept (n : ℕ) (s : CardAuto) : Prop where
  ids : (s.deposits.map Deposit.id).Nodup
  drawn : ∀ d ∈ s.deposits, d.id < n
  refs : ∀ d ∈ s.deposits, ∀ d' ∈ s.deposits, d.refId ≠ "" → d'.refId = d.refId → d' = d
  amounts : ∀ d ∈ s.deposits, d.amount ≠ 0
  statuses : ∀ d ∈ s.deposits, d.status.inBook

theorem CardAuto.WellKept.mono {n m : ℕ} {s : CardAuto} (h : s.WellKept n) (hm : n ≤ m) :
    s.WellKept m :=
  ⟨h.ids, fun d hd => lt_of_lt_of_le (h.drawn d hd) hm, h.refs, h.amounts, h.statuses⟩

theorem CardAuto.WellKept.eq_of_id {n : ℕ} {s : CardAuto} (h : s.WellKept n) {d d' : Deposit}
    (hd : d ∈ s.deposits) (hd' : d' ∈ s.deposits) (hid : d.id = d'.id) : d = d' :=
  List.inj_on_of_nodup_map h.ids hd hd' hid

/-- A book without deposits. -/
theorem CardAuto.WellKept.of_nil {n : ℕ} {s : CardAuto} (h : s.deposits = []) : s.WellKept n := by
  constructor <;> simp [h]

/-- The book with a new record in front. -/
theorem CardAuto.WellKept.record {n m : ℕ} {seen s : CardAuto} {dep d : Deposit}
    (h : seen.WellKept n) (hn : n ≤ dep.id) (hm : dep.id < m)
    (hnew : ∀ d' ∈ seen.deposits, ¬isDuplicate dep d') (hd : d.body = dep.body)
    (hamount : dep.amount ≠ 0) (hstatus : d.status.inBook)
    (hs : s.deposits = (d :: seen.deposits).take RING) : s.WellKept m := by
  have hid := Deposit.id_of_body hd
  have hsub : ∀ x ∈ s.deposits, x = d ∨ x ∈ seen.deposits := fun x hx =>
    List.mem_cons.mp (List.mem_of_mem_take (hs ▸ hx))
  have hold : ∀ x ∈ seen.deposits, x.id < dep.id := fun x hx => lt_of_lt_of_le (h.drawn x hx) hn
  have hsep : ∀ x ∈ seen.deposits, d.refId ≠ "" → x.refId ≠ d.refId := by
    intro x hx hne heq
    rw [Deposit.refId_of_body hd] at hne heq
    exact hnew x hx (isDuplicate_of_refId heq hne)
  refine ⟨?_, fun x hx => ?_, fun x hx y hy hne heq => ?_, fun x hx => ?_, fun x hx => ?_⟩
  · rw [hs, List.map_take]
    refine List.Nodup.sublist (List.take_sublist _ _) ?_
    rw [List.map_cons, List.nodup_cons]
    refine ⟨fun hmem => ?_, h.ids⟩
    obtain ⟨x, hx, hxid⟩ := List.mem_map.mp hmem
    exact absurd (hold x hx) (by rw [hxid, hid]; exact lt_irrefl _)
  · rcases hsub x hx with rfl | hx
    · rw [hid]
      exact hm
    · exact (hold x hx).trans hm
  · rcases hsub x hx with rfl | hx <;> rcases hsub y hy with rfl | hy
    · rfl
    · exact absurd heq (hsep y hy hne)
    · exact absurd heq.symm (hsep x hx (heq ▸ hne))
    · exact h.refs x hx y hy hne heq
  · rcases hsub x hx with rfl | hx
    · rw [Deposit.amount_of_body hd]
      exact hamount
    · exact h.amounts x hx
  · rcases hsub x hx with rfl | hx
    · exact hstatus
    · exact h.statuses x hx

/-- The book after some of its records have been matched again. -/
theorem CardAuto.WellKept.restate {n : ℕ} {seen s : CardAuto} (h : seen.WellKept n)
    (hs : s.deposits.map Deposit.body = seen.deposits.map Deposit.body)
    (hstatus : ∀ d ∈ s.deposits, d.status.inBook) : s.WellKept n := by
  have hids : s.deposits.map Deposit.id = seen.deposits.map Deposit.id := by
    have hmap := congrArg (List.map Deposit.id) hs
    rw [List.map_map, List.map_map] at hmap
    exact hmap
  have hnodup : (s.deposits.map Deposit.id).Nodup := hids ▸ h.ids
  have horigin : ∀ x ∈ s.deposits, ∃ y ∈ seen.deposits, y.body = x.body := by
    intro x hx
    have hmem : x.body ∈ seen.deposits.map Deposit.body := hs ▸ List.mem_map_of_mem hx
    exact List.mem_map.mp hmem
  refine ⟨hnodup, fun x hx => ?_, fun x hx y hy hne heq => ?_, fun x hx => ?_, hstatus⟩
  · obtain ⟨x', hx', hb⟩ := horigin x hx
    exact Deposit.id_of_body hb ▸ h.drawn x' hx'
  · obtain ⟨x', hx', hb⟩ := horigin x hx
    obtain ⟨y', hy', hb'⟩ := horigin y hy
    rw [← Deposit.refId_of_body hb] at hne heq
    rw [← Deposit.refId_of_body hb'] at heq
    obtain rfl := h.refs x' hx' y' hy' hne heq
    exact List.inj_on_of_nodup_map hnodup hy hx
      ((Deposit.id_of_body hb').symm.trans (Deposit.id_of_body hb))
  · obtain ⟨x', hx', hb⟩ := horigin x hx
    exact Deposit.amount_of_body hb ▸ h.amounts x' hx'

/-- Replacing a record by one that was matched again leaves the bodies. -/
theorem replaceDeposit_body {d : Deposit} {next : List Deposit}
    (h : ∀ x ∈ next, x.id = d.id → x.body = d.body) :
    (replaceDeposit d next).map Deposit.body = next.map Deposit.body := by
  induction next with
  | nil => rfl
  | cons x next ih =>
      rw [replaceDeposit]
      split
      · next hid => rw [List.map_cons, List.map_cons, h x List.mem_cons_self hid]
      · rw [List.map_cons, List.map_cons, ih fun y hy => h y (List.mem_cons_of_mem _ hy)]

theorem mem_replaceDeposit {d x : Deposit} {next : List Deposit} (h : x ∈ replaceDeposit d next) :
    x = d ∨ x ∈ next := by
  induction next with
  | nil => cases h
  | cons y next ih =>
      rw [replaceDeposit] at h
      split at h
      · exact (List.mem_cons.mp h).imp (fun h => h) fun h => List.mem_cons_of_mem _ h
      · rcases List.mem_cons.mp h with rfl | h
        · exact .inr List.mem_cons_self
        · exact (ih h).imp (fun h => h) fun h => List.mem_cons_of_mem _ h

/-! ## The steps on a book -/

/-- The copy of the book that a process reads. -/
def World.copy (w : World) (x : Proc) (box : AdminId) : CardAuto :=
  (w.cards box).get x SETTING_TTL w.now

/-- The world after a read of the book. -/
def World.withRead (w : World) (x : Proc) (box : AdminId) : World :=
  { w with cards := Function.update w.cards box ((w.cards box).touch x SETTING_TTL w.now) }

/-- The record that a report would get now. -/
def World.report (w : World) (input : DepositInput) : Deposit :=
  newDeposit w.nextId w.now (mathRound input.amount).toNat input

/-- The digits of the reference number that a report gives. -/
def DepositInput.ref (input : DepositInput) : String := digitsOnly (input.refId.getD "")

/-- The world after a report was received. -/
def World.withReport (w : World) (x : Proc) (box : AdminId) (input : DepositInput) : World :=
  { w.withRead x box with
    nextId := w.nextId + 1
    history := { w.history with received := (w.report input, input.ref) :: w.history.received } }

/-- The world after a deposit was dismissed. -/
def World.withDismissal (w : World) (dep dup : Deposit) : World :=
  { w with history := { w.history with dismissed := (dep.id, dup.id) :: w.history.dismissed } }

/-- The world after a write of the book. -/
def World.withBook (w : World) (x : Proc) (box : AdminId) (s : CardAuto) : World :=
  { w with
    cards := Function.update w.cards box ((w.cards box).put x w.now s)
    history := w.history.save box (w.cards box).stored.deposits s.deposits }

/-- What every step guarantees the others. -/
structure Onward (w w' : World) : Prop where
  nextId : w.nextId ≤ w'.nextId
  received : w.history.received ⊆ w'.history.received

instance : IsPreorder World Onward where
  refl _ := ⟨le_rfl, fun _ h => h⟩
  trans _ _ _ h h' := ⟨le_trans h.nextId h'.nextId, fun _ hd => h'.received (h.received hd)⟩

/-- Steps that keep the books move onward. -/
theorem SameBooks.onward {w w' : World} (h : SameBooks w w') : Onward w w' :=
  ⟨h.nextId.ge, fun _ hd => h.received ▸ hd⟩

/-! ## What a call has learned -/

/-- All copies of the book are well kept, and `J` holds. -/
def Tended (box : AdminId) (J : World → Prop) (w : World) : Prop :=
  (w.cards box).All (CardAuto.WellKept w.nextId) ∧ J w

section Learned

variable {ok : Stmt → World → Prop} {box : AdminId} {J : World → Prop} {s seen : CardAuto}
  {dep : Deposit} {w w' : World}

/-- A copy that the call has read at some earlier time. -/
def Copied (box : AdminId) (J : World → Prop) (s : CardAuto) (w : World) : Prop :=
  ∃ v x, Tended box J v ∧ Onward v w ∧ s = v.copy x box

/-- What is read now is a copy of the box. -/
theorem Copied.now (hI : Tended box J w) (x : Proc) : Copied box J (w.copy x box) w :=
  ⟨w, x, hI, refl_of Onward w, rfl⟩

/-- It is one later too. -/
theorem Copied.later (h : Copied box J s w) (hw : Onward w w') : Copied box J s w' :=
  let ⟨v, x, hv, hon, hs⟩ := h
  ⟨v, x, hv, trans_of Onward hon hw, hs⟩

/-- A copy of a tended box is well kept. -/
theorem Tended.copy (h : Tended box J w) (x : Proc) : (w.copy x box).WellKept w.nextId :=
  h.1.get x SETTING_TTL w.now

/-- So is a copy of before. -/
theorem Copied.wellKept (h : Copied box J s w) : s.WellKept w.nextId := by
  obtain ⟨v, x, hv, hon, rfl⟩ := h
  exact (hv.copy x).mono hon.nextId

/-- The record `dep` was made of a report that came in when the copy `s` was read. -/
def Reported (ok : Stmt → World → Prop) (box : AdminId) (J : World → Prop) (s : CardAuto)
    (dep : Deposit) (w : World) : Prop :=
  ∃ v x input, Tended box J v ∧ ok (.receive box x input) v ∧ Onward (v.withReport x box input) w ∧
    s = v.copy x box ∧ dep = v.report input ∧ 0 < mathRound input.amount

theorem Reported.later (h : Reported ok box J s dep w) (hw : Onward w w') :
    Reported ok box J s dep w' :=
  let ⟨v, x, input, hv, hok, hon, hs⟩ := h
  ⟨v, x, input, hv, hok, trans_of Onward hon hw, hs⟩

theorem onward_withReport (v : World) (x : Proc) (box : AdminId) (input : DepositInput) :
    Onward v (v.withReport x box input) :=
  ⟨Nat.le_succ _, fun _ hd => List.mem_cons_of_mem _ hd⟩

theorem Reported.copied (h : Reported ok box J s dep w) : Copied box J s w := by
  obtain ⟨v, x, input, hv, -, hon, hs, -⟩ := h
  exact ⟨v, x, hv, trans_of Onward (onward_withReport v x box input) hon, hs⟩

theorem Reported.amount (h : Reported ok box J s dep w) : dep.amount ≠ 0 := by
  obtain ⟨v, x, input, -, -, -, -, rfl, hpos⟩ := h
  show (mathRound input.amount).toNat ≠ 0
  omega

/-- A deposit that is matched: a new one that no record of the copy duplicates, or an open one of
the copy. -/
def Due (ok : Stmt → World → Prop) (box : AdminId) (J : World → Prop) (s : CardAuto)
    (dep : Deposit) (w : World) : Prop :=
  (Reported ok box J s dep w ∧ ∀ d ∈ s.deposits, ¬isDuplicate dep d) ∨
    Copied box J s w ∧ dep ∈ s.deposits ∧ dep.isOpen

/-- A deposit that is due stays so. -/
theorem Due.later (h : Due ok box J s dep w) (hw : Onward w w') : Due ok box J s dep w' :=
  h.imp (fun h => ⟨h.1.later hw, h.2⟩) fun h => ⟨h.1.later hw, h.2⟩

/-- Its amount is not zero. -/
theorem Due.amount (h : Due ok box J s dep w) : dep.amount ≠ 0 := by
  rcases h with ⟨h, -⟩ | ⟨h, hd, -⟩
  · exact h.amount
  · exact h.wellKept.amounts dep hd

/-- How the settings `s` that are written come from the copy `seen`: a new record is put in front,
or records get a new outcome. -/
inductive Next (ok : Stmt → World → Prop) (box : AdminId) (J : World → Prop) (seen s : CardAuto)
    (w : World) : Prop
  | record {dep d : Deposit} : Reported ok box J seen dep w →
      (∀ d' ∈ seen.deposits, ¬isDuplicate dep d') → d.body = dep.body → d.status.inBook →
      s.deposits = (d :: seen.deposits).take RING → Next ok box J seen s w
  | restate : Copied box J seen w → s.deposits.map Deposit.body = seen.deposits.map Deposit.body →
      (∀ d ∈ s.deposits, d.status.inBook) → Next ok box J seen s w

/-- The next book stays one when the world moves on. -/
theorem Next.later (h : Next ok box J seen s w) (hw : Onward w w') : Next ok box J seen s w' := by
  cases h with
  | record hr hnew hd hstatus hs => exact .record (hr.later hw) hnew hd hstatus hs
  | restate hc hs hstatus => exact .restate (hc.later hw) hs hstatus

/-- It is well kept. -/
theorem Next.wellKept (h : Next ok box J seen s w) : s.WellKept w.nextId := by
  cases h with
  | record hr hnew hd hstatus hs =>
      have hamount := hr.amount
      obtain ⟨v, x, input, hv, -, hon, rfl, rfl, -⟩ := hr
      have hid : v.nextId ≤ (v.report input).id := le_rfl
      exact (hv.copy x).record hid hon.nextId hnew hd hamount hstatus hs
  | restate hc hs hstatus => exact hc.wellKept.restate hs hstatus

end Learned

/-! ## The walks -/

/-- `J` survives the steps of the calls on the book that find the promise `ok` kept. -/
structure Tends (ok : Stmt → World → Prop) (box : AdminId) (J : World → Prop) (settle : Settle) :
    Prop where
  read : ∀ {w x}, Tended box J w → J (w.withRead x box)
  settle : ∀ {w s dep id refId cardPan}, Due ok box J s dep w →
    Upholds ok (Tended box J) Onward (fun _ _ => True) (fun _ _ => True)
      (settle s dep id (.auto refId cardPan)) w
  receive : ∀ {w x input}, Tended box J w → ok (.receive box x input) w →
    J (w.withReport x box input)
  dismiss : ∀ {w s dep dup}, Tended box J w → Reported ok box J s dep w → dup ∈ s.deposits →
    isDuplicate dep dup → J (w.withDismissal dep dup)
  save : ∀ {w x seen s}, Tended box J w → ok (.saveBook box seen) w → Next ok box J seen s w →
    J (w.withBook x box s)

section Walks

variable {ok : Stmt → World → Prop} {box : AdminId} {J : World → Prop} {settle : Settle} {w : World}

/-- In every interleaving, every step of the procedure keeps all copies in order and `J`, and its
result satisfies `Q`. -/
abbrev Leaves {α : Type} (ok : Stmt → World → Prop) (box : AdminId) (J : World → Prop)
    (Q : α → World → Prop) (p : Service α) (w : World) : Prop :=
  Upholds ok (Tended box J) Onward Q (fun _ _ => True) p w

private theorem tended_read (h : Tends ok box J settle) (x : Proc) (hI : Tended box J w) :
    Tended box J (w.withRead x box) := by
  refine ⟨?_, h.read hI⟩
  show ((Function.update w.cards box _) box).All _
  rw [Function.update_self]
  exact hI.1.touch x SETTING_TTL w.now

private theorem cardAutoSettings_leaves (h : Tends ok box J settle) (x : Proc) :
    Leaves ok box J (fun r t => Copied box J r.1 t) (cardAutoSettings x box) w := by
  refine upholds_step fun t _ hI _ =>
    ⟨tended_read h x hI, ⟨le_rfl, fun _ h => h⟩, ?_, fun _ h => trivial⟩
  rintro r ⟨⟩
  exact (Copied.now hI x).later ⟨le_rfl, fun _ h => h⟩

private theorem setCardAuto_leaves (h : Tends ok box J settle) {x : Proc} {seen s : CardAuto}
    (hnext : Next ok box J seen s w) :
    Leaves ok box J (fun _ _ => True) (setCardAuto x box seen s) w := by
  refine upholds_step fun t ht hI hok => ?_
  split
  · refine ⟨⟨?_, h.save (x := x) hI hok (hnext.later ht)⟩, ⟨le_rfl, fun _ h => h⟩,
      fun _ _ => trivial, fun _ _ => trivial⟩
    show ((Function.update t.cards box _) box).All _
    rw [Function.update_self]
    exact hI.1.put (hnext.later ht).wellKept x t.now
  · exact ⟨hI, refl_of Onward t, fun _ _ => trivial, fun _ _ => trivial⟩

/-- A write of deposits made from the copy `seen`. -/
private theorem saveDeposits_leaves (h : Tends ok box J settle) {x : Proc} {seen : CardAuto}
    {patch : CardAutoPatch} {deposits : List Deposit} (hpatch : patch.deposits = some deposits)
    (hnext : ∀ s : CardAuto, s.deposits = deposits → Next ok box J seen s w) :
    Leaves ok box J (fun _ _ => True) (saveCardAuto x box (some seen) patch) w := by
  refine upholds_bind (cardAutoSettings_leaves h x) fun r t ht _ => ?_
  refine setCardAuto_leaves h ((hnext _ ?_).later ht)
  rw [CardAuto.patched, hpatch, Option.getD_some]

/-- A write of other settings puts back the deposits that it has read. -/
private theorem saveSettings_leaves (h : Tends ok box J settle) {x : Proc} {patch : CardAutoPatch}
    (hpatch : patch.deposits = none) :
    Leaves ok box J (fun _ _ => True) (saveCardAuto x box none patch) w := by
  refine upholds_bind (cardAutoSettings_leaves h x) fun r t _ hr => ?_
  have hs : (r.1.patched patch).deposits = r.1.deposits := by
    rw [CardAuto.patched, hpatch, Option.getD_none]
  refine setCardAuto_leaves h (.restate hr (by rw [hs]; rfl) fun d hd => ?_)
  exact hr.wellKept.statuses d (hs ▸ hd)

private theorem matchDeposit_leaves (h : Tends ok box J settle) {s : CardAuto} {dep : Deposit}
    (hdue : Due ok box J s dep w) :
    Leaves ok box J (fun m _ => m.status.inBook) (matchDeposit settle box s dep) w := by
  refine upholds_ite (fun hzero => absurd hzero hdue.amount) fun _ => ?_
  refine upholds_read fun t ht _ _ => upholds_read fun t' ht' _ _ => ?_
  have hdue' := hdue.later (trans_of Onward ht ht')
  refine upholds_ite (fun _ => upholds_pure rfl) fun _ => ?_
  unfold settleMatch
  split
  · exact upholds_pure rfl
  · refine upholds_ite (fun _ => upholds_pure rfl) fun _ => ?_
    refine upholds_attempt (upholds_bind (h.settle hdue') fun _ _ _ _ => upholds_pure rfl)
      fun _ _ _ => upholds_pure rfl
  · exact upholds_pure rfl

theorem ingestDeposit_leaves (h : Tends ok box J settle) (x : Proc) (input : DepositInput) :
    Leaves ok box J (fun _ _ => True) (ingestDeposit settle x box input) w := by
  unfold ingestDeposit
  dsimp only
  refine upholds_ite (fun _ => upholds_pure trivial) fun hamount => ?_
  have hreceive : Leaves ok box J (fun r t => Reported ok box J r.1 r.2 t)
      (receiveDeposit x box (mathRound input.amount).toNat input) w := by
    refine upholds_step fun t _ hI hok =>
      ⟨⟨?_, h.receive hI hok⟩, onward_withReport t x box input, ?_, fun _ _ => trivial⟩
    · have hread : ((t.withRead x box).cards box).All (CardAuto.WellKept t.nextId) :=
        (tended_read h x hI).1
      exact ⟨hread.1.mono (Nat.le_succ _), fun y n a hy => (hread.2 y n a hy).mono (Nat.le_succ _)⟩
    · rintro r ⟨⟩
      exact ⟨t, x, input, hI, hok, refl_of Onward _, rfl, rfl, not_le.mp hamount⟩
  refine upholds_bind hreceive fun r t _ hr => ?_
  obtain ⟨s, dep⟩ := r
  dsimp only at hr ⊢
  cases hfind : s.deposits.find? (isDuplicate dep) with
  | some dup =>
      have hdup := List.mem_of_find?_eq_some hfind
      have hdismiss : Leaves ok box J (fun _ _ => True) (dismiss dep dup) t :=
        upholds_step fun t' ht' hI _ =>
          ⟨⟨hI.1, h.dismiss hI (hr.later ht') hdup (List.find?_some hfind)⟩, ⟨le_rfl, fun _ h => h⟩,
            fun _ _ => trivial, fun _ _ => trivial⟩
      exact upholds_bind hdismiss fun _ _ _ _ => upholds_pure trivial
  | none =>
      have hnew : ∀ d ∈ s.deposits, ¬isDuplicate dep d := by simpa using hfind
      refine upholds_bind (matchDeposit_leaves h (.inl ⟨hr, hnew⟩)) fun m t' ht' hm => ?_
      refine upholds_bind (saveDeposits_leaves h rfl fun s' hs' => ?_) fun _ _ _ _ =>
        upholds_pure trivial
      exact .record (d := { dep with status := m.status, paymentId := m.paymentId, note := m.note })
        (hr.later ht') hnew rfl hm hs'

private theorem rematchAll_leaves (h : Tends ok box J settle) {s : CardAuto}
    {ds next : List Deposit} (hs : Copied box J s w) (hds : ∀ d ∈ ds, d ∈ s.deposits ∧ d.isOpen)
    (hnext : next.map Deposit.body = s.deposits.map Deposit.body)
    (hstatus : ∀ d ∈ next, d.status.inBook) :
    Leaves ok box J (fun r _ => r.1.map Deposit.body = s.deposits.map Deposit.body ∧
      ∀ d ∈ r.1, d.status.inBook) (rematchAll settle box s ds next) w := by
  induction ds generalizing w next with
  | nil => exact upholds_pure ⟨hnext, hstatus⟩
  | cons d ds ih =>
      obtain ⟨hd, hopen⟩ := hds d List.mem_cons_self
      refine upholds_bind (matchDeposit_leaves h (.inr ⟨hs, hd, hopen⟩)) fun m t ht hm => ?_
      refine upholds_bind (ih (hs.later ht) (fun d hd => hds d (List.mem_cons_of_mem _ hd)) ?_ ?_)
        fun _ _ _ hr => upholds_pure hr
      · rw [replaceDeposit_body fun y hy hid => ?_]
        · exact hnext
        · have hmem : y.body ∈ s.deposits.map Deposit.body := hnext ▸ List.mem_map_of_mem hy
          obtain ⟨y', hy', hb⟩ := List.mem_map.mp hmem
          have hyd : y' = d := hs.wellKept.eq_of_id hy' hd ((Deposit.id_of_body hb).trans hid)
          rw [← hb, hyd]
          rfl
      · intro y hy
        rcases mem_replaceDeposit hy with rfl | hy
        · exact hm
        · exact hstatus y hy

theorem rematchDeposits_leaves (h : Tends ok box J settle) (x : Proc) :
    Leaves ok box J (fun _ _ => True) (rematchDeposits settle x box) w := by
  refine upholds_bind (cardAutoSettings_leaves h x) fun r t _ hr => ?_
  refine upholds_ite (fun _ => upholds_pure trivial) fun _ => ?_
  have hopen : ∀ d ∈ (r.1.deposits.filter Deposit.isOpen).take 15, d ∈ r.1.deposits ∧ d.isOpen :=
    fun d hd => List.mem_filter.mp (List.mem_of_mem_take hd)
  refine upholds_bind (rematchAll_leaves h hr hopen rfl hr.wellKept.statuses)
    fun r' t' ht' ⟨hbody, hstatus⟩ => ?_
  refine upholds_bind (saveDeposits_leaves h rfl fun s' hs' => ?_) fun _ _ _ _ =>
    upholds_pure trivial
  exact .restate (hr.later ht') (hs' ▸ hbody) (hs' ▸ hstatus)

private theorem importRows_leaves (h : Tends ok box J settle) (x : Proc)
    (inputs : List DepositInput) :
    Leaves ok box J (fun _ _ => True) (importRows settle x box inputs) w := by
  induction inputs generalizing w with
  | nil => exact upholds_pure trivial
  | cons input inputs ih =>
      exact upholds_bind (ingestDeposit_leaves h x input) fun _ _ _ _ =>
        upholds_bind ih fun _ _ _ _ => upholds_pure trivial

theorem syncBankDeposits_leaves (h : Tends ok box J settle) (x : Proc) :
    Leaves ok box J (fun _ _ => True) (syncBankDeposits settle x box) w := by
  refine upholds_bind (cardAutoSettings_leaves h x) fun r t _ hr => ?_
  refine upholds_ite (fun _ => upholds_pure trivial) fun _ => ?_
  refine upholds_ite (fun _ => upholds_pure trivial) fun _ => ?_
  refine upholds_read fun t' _ _ _ => ?_
  cases t'.outside.bankFeed box with
  | error e =>
      exact upholds_bind (saveSettings_leaves h rfl) fun _ _ _ _ => upholds_pure trivial
  | ok rows =>
      refine upholds_bind (importRows_leaves h x _) fun _ _ _ _ => upholds_read fun _ _ _ _ => ?_
      exact upholds_bind (saveSettings_leaves h rfl) fun _ _ _ _ => upholds_pure trivial

end Walks

/-! ## The calls -/

/-- The calls on the book of a seller. -/
inductive BoxCall
  | ingest (x : Proc) (input : DepositInput)
  | rematch (x : Proc)
  | sync (x : Proc)
  /-- the form of the settings, which has no field for deposits -/
  | save (x : Proc) (patch : CardAutoPatch)

/-- The procedure of a call. -/
def BoxCall.prog (settle : Settle) (box : AdminId) : BoxCall → Service Unit
  | ingest x input => (ingestDeposit settle x box input).void
  | rematch x => (rematchDeposits settle x box).void
  | sync x => (syncBankDeposits settle x box).void
  | save x patch => (saveCardAuto x box none { patch with deposits := none }).void

/-- What happens besides the calls: time passes and payments change in any way, but the book of the
seller and the record of its deposits stay. -/
structure Besides (box : AdminId) (w w' : World) : Prop where
  nextId : w.nextId ≤ w'.nextId
  cards : w'.cards box = w.cards box
  received : w'.history.received = w.history.received
  accepted : w'.history.accepted box = w.history.accepted box
  dismissed : w'.history.dismissed = w.history.dismissed
  matched : w'.history.matched box = w.history.matched box
  confirmations : ∀ c ∈ w'.history.confirmations, c ∈ w.history.confirmations ∨
    ∀ dep, c.evidence ≠ .deposit box dep

/-- Steps besides a box move onward. -/
theorem Besides.onward {box : AdminId} {w w' : World} (h : Besides box w w') : Onward w w' :=
  ⟨h.nextId, fun _ hd => h.received ▸ hd⟩

/-- An invariant that the calls tend holds in every state of every run of them. -/
theorem Tends.run {ok : Stmt → World → Prop} {box : AdminId} {J : World → Prop} {settle : Settle}
    (h : Tends ok box J settle) (henv : ∀ {w w'}, Besides box w w' → J w → J w') {w : World}
    {calls : List BoxCall} {c : Pool Stmt World AppError} (h0 : Tended box J w)
    (hrun : Pool.Run (Besides box) ok ⟨w, calls.map (BoxCall.prog settle box)⟩ c) :
    Tended box J c.store := by
  have hkept : ∀ w w', Tended box J w → Besides box w w' → Tended box J w' ∧ Onward w w' := by
    refine fun w w' hI he => ⟨⟨?_, henv he hI.2⟩, he.onward⟩
    rw [he.cards]
    exact ⟨hI.1.1.mono he.nextId, fun y n a hy => (hI.1.2 y n a hy).mono he.nextId⟩
  have hrun' : Tended box J c.store ∧ Onward w c.store := by
    refine Pool.upheld_run h0 (fun p hp => ?_) hkept hrun
    obtain ⟨call, -, rfl⟩ := List.mem_map.mp hp
    cases call with
    | ingest x input => exact upholds_void (ingestDeposit_leaves h x input)
    | rematch x => exact upholds_void (rematchDeposits_leaves h x)
    | sync x => exact upholds_void (syncBankDeposits_leaves h x)
    | save x patch => exact upholds_void (saveSettings_leaves h rfl)
  exact hrun'.1

/-- A seller who has not received any deposit. -/
theorem tended_of_fresh {box : AdminId} {J : World → Prop} {w : World} {s : CardAuto}
    (hcards : w.cards box = .fresh s) (hs : s.deposits = []) (hJ : J w) : Tended box J w := by
  refine ⟨?_, hJ⟩
  rw [hcards]
  exact .fresh (.of_nil hs)

end SRPanel
