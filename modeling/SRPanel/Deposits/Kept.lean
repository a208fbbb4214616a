import SRPanel.Deposits.Book
import SRPanel.Deposits.Match

/-!
# No deposit is forgotten

A deposit can be lost in two ways: it is taken for a duplicate of another deposit, because the two
have one amount and come within two minutes; or its record is overwritten by a call that goes by an
older copy of the book. The module proves that there is no other way: in every run in which no
report clashes with a different deposit and every write goes by the list that is stored, deposits
with different reference numbers are kept apart, and the book holds the last forty deposits that
were accepted.
-/

namespace SRPanel

open Interleaving

/-- A deposit was dismissed only for a record of the same reference number, where both have one. -/
def World.DismissedRightly (w : World) : Prop :=
  ∀ p ∈ w.history.dismissed, ∀ e ∈ w.history.received, ∀ e' ∈ w.history.received,
    e.1.id = p.1 → e'.1.id = p.2 → e.2 ≠ "" → e'.2 ≠ "" → e.2 = e'.2

/-- The book of the seller holds the last `RING` deposits that were accepted, those without a match
as open records. -/
def World.BookComplete (box : AdminId) (w : World) : Prop :=
  (w.cards box).stored.deposits.map Deposit.id = (w.history.accepted box).take RING ∧
    ∀ d ∈ (w.cards box).stored.deposits, d.isOpen ∨ d.status = .matched

instance (w : World) : Decidable w.DismissedRightly :=
  inferInstanceAs (Decidable (∀ p ∈ w.history.dismissed, ∀ e ∈ w.history.received,
    ∀ e' ∈ w.history.received, e.1.id = p.1 → e'.1.id = p.2 → e.2 ≠ "" → e'.2 ≠ "" → e.2 = e'.2))

instance (box : AdminId) (w : World) : Decidable (w.BookComplete box) :=
  inferInstanceAs (Decidable (_ ∧ ∀ d ∈ (w.cards box).stored.deposits,
    d.isOpen ∨ d.status = .matched))

/-! ## The condition -/

/-- The record was made of a deposit with another reference number than the one reported. -/
def World.differs (w : World) (d : Deposit) (input : DepositInput) : Bool :=
  input.ref != "" && w.history.received.any fun e => e.1.id = d.id && e.2 != "" && e.2 != input.ref

/-- Two records agree in the digits kept of their reference numbers, or in their amounts within two
minutes. -/
def Deposit.clashes (d dep : Deposit) : Bool :=
  d.refId = dep.refId || (d.amount = dep.amount && Nat.dist d.date dep.date < 120000)

/-- A report clashes with no deposit of another reference number, and a book is written by a copy
that lists the deposits that are stored. -/
def KeptApart (box : AdminId) : Stmt → World → Prop
  | .receive b x input, w => b = box → ∀ d ∈ (w.copy x b).deposits, w.differs d input →
      ¬d.clashes (w.report input)
  | .saveBook b seen, w => b = box →
      (w.cards b).stored.deposits.map Deposit.id = seen.deposits.map Deposit.id
  | _, _ => True

instance (box : AdminId) (l : Stmt) (w : World) : Decidable (KeptApart box l w) :=
  match l with
  | .receive b x input => inferInstanceAs (Decidable (b = box → ∀ d ∈ (w.copy x b).deposits,
      w.differs d input → ¬d.clashes (w.report input)))
  | .saveBook b seen => inferInstanceAs (Decidable (b = box →
      (w.cards b).stored.deposits.map Deposit.id = seen.deposits.map Deposit.id))
  | .other => isTrue trivial
  | .tag _ => isTrue trivial
  | .credit _ _ _ _ _ => isTrue trivial
  | .pay _ => isTrue trivial
  | .lookBack _ => isTrue trivial
  | .readPlugins _ => isTrue trivial
  | .savePlugins _ => isTrue trivial
  | .update _ _ => isTrue trivial
  | .callback _ _ _ => isTrue trivial
  | .called _ _ => isTrue trivial
  | .look _ _ _ _ => isTrue trivial
  | .release _ _ _ => isTrue trivial

/-! ## Reference numbers -/

private theorem sliceTo_ne_empty {n : ℕ} {s : String} (hn : 0 < n) (h : s ≠ "") :
    sliceTo n s ≠ "" := by
  intro hempty
  have hlist : s.toList.take n = [] := by
    have hto := congrArg String.toList hempty
    simpa [sliceTo] using hto
  rcases List.take_eq_nil_iff.mp hlist with h0 | hnil
  · omega
  · exact h (String.toList_inj.mp (by rw [hnil]; rfl))

/-- Records with reference numbers that are duplicates clash. -/
private theorem clashes_of_isDuplicate {dep d : Deposit} (hd : d.refId ≠ "") (hdep : dep.refId ≠ "")
    (hdigits : digitsOnly d.refId = d.refId) (hdigits' : digitsOnly dep.refId = dep.refId)
    (h : isDuplicate dep d) : d.clashes dep := by
  simp only [isDuplicate, Bool.or_eq_true, decide_eq_true_eq] at h
  refine Bool.or_eq_true _ _ ▸ h.imp (fun hfp => ?_) fun h => h
  rw [fingerprint, fingerprint, if_neg hd, if_neg hdep, hdigits, hdigits'] at hfp
  have hlist := congrArg String.toList hfp
  rw [String.toList_append, String.toList_append, List.append_cancel_left_eq] at hlist
  exact decide_eq_true (String.toList_inj.mp hlist)

/-! ## The invariant -/

/-- Reports are recorded under fresh ids, every record of every copy of the book comes from one,
deposits were dismissed rightly, and the book lists the last deposits that were accepted. -/
structure DepositsKept (box : AdminId) (w : World) : Prop where
  drawn : ∀ e ∈ w.history.received, e.1.id < w.nextId
  digits : ∀ e ∈ w.history.received, ∃ s, e.2 = digitsOnly s ∧ e.1.refId = sliceTo 40 e.2
  unique : ∀ e ∈ w.history.received, ∀ e' ∈ w.history.received, e.1.id = e'.1.id → e = e'
  origin : (w.cards box).All fun s => ∀ d ∈ s.deposits, ∃ e ∈ w.history.received, e.1.body = d.body
  apart : ∀ p ∈ w.history.dismissed, ∃ e ∈ w.history.received, ∃ e' ∈ w.history.received,
    e.1.id = p.1 ∧ e'.1.id = p.2 ∧ (e.2 ≠ "" → e'.2 ≠ "" → e.2 = e'.2)
  book : (w.cards box).stored.deposits.map Deposit.id = (w.history.accepted box).take RING

section Kept

variable {box : AdminId} {w w' : World}

theorem DepositsKept.dismissedRightly (h : DepositsKept box w) : w.DismissedRightly := by
  intro p hp e he e' he' hid hid'
  obtain ⟨e₀, he₀, e₀', he₀', hid₀, hid₀', href⟩ := h.apart p hp
  obtain rfl := h.unique e he e₀ he₀ (hid.trans hid₀.symm)
  obtain rfl := h.unique e' he' e₀' he₀' (hid'.trans hid₀'.symm)
  exact href

/-- What concerns the deposits has stayed as it was. -/
theorem DepositsKept.same (h : DepositsKept box w) (hn : w.nextId ≤ w'.nextId)
    (hcards : w'.cards box = w.cards box) (hr : w'.history.received = w.history.received)
    (ha : w'.history.accepted box = w.history.accepted box)
    (hd : w'.history.dismissed = w.history.dismissed) : DepositsKept box w' where
  drawn := by
    rw [hr]
    exact fun e he => lt_of_lt_of_le (h.drawn e he) hn
  digits := by rw [hr]; exact h.digits
  unique := by rw [hr]; exact h.unique
  origin := by rw [hcards, hr]; exact h.origin
  apart := by rw [hr, hd]; exact h.apart
  book := by rw [hcards, ha]; exact h.book

private theorem DepositsKept.read (h : DepositsKept box w) (x : Proc) :
    DepositsKept box (w.withRead x box) := by
  have hcell : (w.withRead x box).cards box = (w.cards box).touch x SETTING_TTL w.now :=
    Function.update_self _ _ _
  refine ⟨h.drawn, h.digits, h.unique, ?_, h.apart, ?_⟩
  · rw [hcell]
    exact h.origin.touch x SETTING_TTL w.now
  · rw [hcell, Cell.stored_touch]
    exact h.book

private theorem DepositsKept.receive (h : DepositsKept box w) (x : Proc) (input : DepositInput) :
    DepositsKept box (w.withReport x box input) := by
  have hread := h.read x
  have hold : ∀ e ∈ w.history.received, e.1.id ≠ (w.report input).id := fun e he =>
    (h.drawn e he).ne
  have mono : ∀ {e : Deposit × String}, e ∈ w.history.received →
      e ∈ (w.withReport x box input).history.received := fun he => List.mem_cons_of_mem _ he
  refine ⟨fun e he => ?_, fun e he => ?_, fun e he e' he' hid => ?_, ?_, fun p hp => ?_, hread.book⟩
  · rcases List.mem_cons.mp he with rfl | he
    · exact Nat.lt_succ_self _
    · exact Nat.lt_succ_of_lt (h.drawn e he)
  · rcases List.mem_cons.mp he with rfl | he
    · exact ⟨_, rfl, rfl⟩
    · exact h.digits e he
  · rcases List.mem_cons.mp he with rfl | he <;> rcases List.mem_cons.mp he' with rfl | he'
    · rfl
    · exact absurd hid.symm (hold e' he')
    · exact absurd hid (hold e he)
    · exact h.unique e he e' he' hid
  · have horigin := hread.origin
    refine ⟨fun d hd => ?_, fun y n a hy d hd => ?_⟩
    · obtain ⟨e, he, hb⟩ := horigin.1 d hd
      exact ⟨e, mono he, hb⟩
    · obtain ⟨e, he, hb⟩ := horigin.2 y n a hy d hd
      exact ⟨e, mono he, hb⟩
  · obtain ⟨e, he, e', he', hrest⟩ := h.apart p hp
    exact ⟨e, mono he, e', mono he', hrest⟩

/-- The origin of a record that was read at some earlier time. -/
private theorem origin_of_copied {s : CardAuto} {d : Deposit}
    (hs : Copied box (DepositsKept box) s w) (hd : d ∈ s.deposits) :
    ∃ e ∈ w.history.received, e.1.body = d.body := by
  obtain ⟨v, x, hv, hon, rfl⟩ := hs
  obtain ⟨e, he, hb⟩ := hv.2.origin.get x SETTING_TTL v.now d hd
  exact ⟨e, hon.received he, hb⟩

private theorem DepositsKept.dismiss {s : CardAuto} {dep dup : Deposit} (h : DepositsKept box w)
    (hr : Reported (KeptApart box) box (DepositsKept box) s dep w) (hdup : dup ∈ s.deposits)
    (hdupl : isDuplicate dep dup) : DepositsKept box (w.withDismissal dep dup) := by
  refine ⟨h.drawn, h.digits, h.unique, h.origin, fun p hp => ?_, h.book⟩
  rcases List.mem_cons.mp hp with rfl | hp
  · obtain ⟨v, x, input, hv, hok, hon, rfl, rfl, -⟩ := hr
    obtain ⟨e', he', hb⟩ := hv.2.origin.get x SETTING_TTL v.now dup hdup
    have hid := Deposit.id_of_body hb
    have hreport : (v.report input, input.ref) ∈ w.history.received :=
      hon.received List.mem_cons_self
    have hdup' : e' ∈ w.history.received :=
      hon.received (List.mem_cons_of_mem _ he')
    refine ⟨_, hreport, e', hdup', rfl, hid, fun hne hne' => ?_⟩
    by_contra hdiff
    have hdiffers : v.differs dup input := by
      simp only [World.differs, Bool.and_eq_true, bne_iff_ne, List.any_eq_true, decide_eq_true_eq]
      exact ⟨hne, e', he', ⟨hid, hne'⟩, fun heq => hdiff heq.symm⟩
    refine hok rfl dup hdup hdiffers ?_
    obtain ⟨t, ht, href⟩ := h.digits e' hdup'
    have hduprefId : dup.refId = sliceTo 40 (digitsOnly t) := by
      rw [← Deposit.refId_of_body hb, href, ht]
    refine clashes_of_isDuplicate ?_ (sliceTo_ne_empty (by decide) hne) ?_
      (digitsOnly_sliceTo 40 _) hdupl
    · rw [hduprefId, ← ht]
      exact sliceTo_ne_empty (by decide) hne'
    · rw [hduprefId]
      exact digitsOnly_sliceTo 40 t
  · exact h.apart p hp

/-- The deposits of a copy are older than a report that came in with it. -/
private theorem report_not_seen {s : CardAuto} {dep : Deposit}
    (hr : Reported (KeptApart box) box (DepositsKept box) s dep w) :
    dep.id ∉ s.deposits.map Deposit.id := by
  obtain ⟨v, x, input, hv, -, -, rfl, rfl, -⟩ := hr
  intro hmem
  obtain ⟨d, hd, hid⟩ := List.mem_map.mp hmem
  exact absurd ((hv.copy x).drawn d hd) (by rw [hid]; exact lt_irrefl _)

/-- What a write of the book adds to the deposits that were accepted. -/
private theorem saved_ids {seen s : CardAuto}
    (hbook : (w.cards box).stored.deposits.map Deposit.id = (w.history.accepted box).take RING)
    (hok : (w.cards box).stored.deposits.map Deposit.id = seen.deposits.map Deposit.id)
    (hnext : Next (KeptApart box) box (DepositsKept box) seen s w) :
    s.deposits.map Deposit.id =
      ((s.deposits.map Deposit.id).filter
        (· ∉ (w.cards box).stored.deposits.map Deposit.id) ++
        w.history.accepted box).take RING := by
  rw [hok] at hbook ⊢
  cases hnext with
  | restate _ hs _ =>
      have hids : s.deposits.map Deposit.id = seen.deposits.map Deposit.id := by
        have hmap := congrArg (List.map Deposit.id) hs
        rw [List.map_map, List.map_map] at hmap
        exact hmap
      have hnone : (seen.deposits.map Deposit.id).filter (· ∉ seen.deposits.map Deposit.id) =
          [] := by
        rw [List.filter_eq_nil_iff]
        intro i hi
        simpa using hi
      rw [hids, hnone, List.nil_append, hbook]
  | @record dep d hr _ hd _ hs =>
      have hids : s.deposits.map Deposit.id =
          (dep.id :: seen.deposits.map Deposit.id).take RING := by
        rw [hs, List.map_take, List.map_cons, Deposit.id_of_body hd]
      have hring : RING = 39 + 1 := rfl
      have hone : ((dep.id :: seen.deposits.map Deposit.id).take RING).filter
          (· ∉ seen.deposits.map Deposit.id) = [dep.id] := by
        rw [hring, List.take_succ_cons, List.filter_cons_of_pos (by simpa using report_not_seen hr)]
        refine congrArg _ (List.filter_eq_nil_iff.mpr fun i hi => ?_)
        simpa using List.mem_of_mem_take hi
      rw [hids, hone, List.singleton_append, hbook, hring, List.take_succ_cons, List.take_succ_cons,
        List.take_take]
      rfl

private theorem DepositsKept.save {x : Proc} {seen s : CardAuto} (h : DepositsKept box w)
    (hok : KeptApart box (.saveBook box seen) w)
    (hnext : Next (KeptApart box) box (DepositsKept box) seen s w) :
    DepositsKept box (w.withBook x box s) := by
  have hcell : (w.withBook x box s).cards box = (w.cards box).put x w.now s :=
    Function.update_self _ _ _
  refine ⟨h.drawn, h.digits, h.unique, ?_, h.apart, ?_⟩
  · rw [hcell]
    refine h.origin.put (fun d hd => ?_) x w.now
    cases hnext with
    | restate hc hs _ =>
        have hmem : d.body ∈ seen.deposits.map Deposit.body := hs ▸ List.mem_map_of_mem hd
        obtain ⟨d₀, hd₀, hb₀⟩ := List.mem_map.mp hmem
        obtain ⟨e, he, hb⟩ := origin_of_copied hc hd₀
        exact ⟨e, he, hb.trans hb₀⟩
    | @record dep d' hr _ hb' _ hs =>
        rcases List.mem_cons.mp (List.mem_of_mem_take (hs ▸ hd)) with rfl | hd
        · obtain ⟨v, x, input, -, -, hon, -, rfl, -⟩ := hr
          exact ⟨_, hon.received List.mem_cons_self, hb'.symm⟩
        · exact origin_of_copied hr.copied hd
  · rw [hcell, Cell.stored_put]
    show _ = (Function.update w.history.accepted box _ box).take RING
    rw [Function.update_self]
    exact saved_ids h.book (hok rfl) hnext

private theorem depositsKept_tends :
    Tends (KeptApart box) box (DepositsKept box) (settlePlainly box) where
  read {_ x} hI := hI.2.read x
  settle _ := by
    refine upholds_of_keeps (confirmPayment_keeps_books _ _ _) fun t t' hbooks hI => ?_
    refine ⟨⟨?_, ?_⟩, hbooks.onward⟩
    · rw [hbooks.cards, hbooks.nextId]
      exact hI.1
    · exact hI.2.same hbooks.nextId.ge (by rw [hbooks.cards]) hbooks.received
        (by rw [hbooks.accepted]) hbooks.dismissed
  receive {_ x input} hI _ := hI.2.receive x input
  dismiss hI hr hdup hdupl := hI.2.dismiss hr hdup hdupl
  save hI hok hnext := hI.2.save hok hnext

end Kept

/-! ## Runs -/

/-- The report of a deposit with a reference number. -/
def reportedDeposit (amount : ℕ) (ref : String) : DepositInput :=
  ⟨amount, some ref, none, none, none, none, .sms⟩

/-- Reports for a seller without open payments. -/
def bookPool (reports : List BoxCall) : Pool Stmt World AppError :=
  ⟨cardWorld [], reports.map (BoxCall.prog (settlePlainly 2) 2)⟩

theorem cardWorld_kept (topups : List (PaymentId × Payment)) :
    Tended 2 (DepositsKept 2) (cardWorld topups) :=
  tended_of_fresh rfl rfl ⟨fun _ he => (nomatch he), fun _ he => (nomatch he), fun _ he =>
    (nomatch he), .fresh fun _ hd => (nomatch hd), fun _ hp => (nomatch hp), rfl⟩

end SRPanel
