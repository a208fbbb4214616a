import SRPanel.Calls.Steps

/-!
# What a deposit may confirm

`matchDeposit` releases money with no human in the loop. The module proves what holds of every
payment that it confirms: when it was created, how its amount compares with the deposit, and which
other open payments there can be. Another open payment can fit the deposit as well, first of all
because `requireLast4` is there to choose among several that fit.
-/

namespace SRPanel

open Interleaving Prog

/-! ## The candidates -/

/-- A card payment of the seller that is still open. -/
def Payment.isOpenCard (p : Payment) (box : AdminId) : Bool :=
  p.adminId = box && p.method = .card && (p.status = .pending || p.status = .review)

/-- How far back a payment may lie, in milliseconds. -/
def CardAuto.reach (s : CardAuto) : ℕ := max 5 s.windowMin * 60000

/-- The payments that a match at this moment looks at. -/
def World.lookedAt (w : World) (box : AdminId) (s : CardAuto) : List (PaymentId × Payment) :=
  openCardPayments w box (w.now - s.reach)

/-- The payment ends in the last four digits that the deposit reports, and the other one does not.
-/
def CardAuto.tellsApart (s : CardAuto) (dep : Deposit) (p other : Payment) : Bool :=
  s.requireLast4 && dep.last4 != "" && sliceLast 4 (p.cardPan.getD "") = dep.last4 &&
    sliceLast 4 (other.cardPan.getD "") != dep.last4

/-- The payment is still open and was created within the window before this moment. -/
def World.fresh (w : World) (box : AdminId) (s : CardAuto) (p : Payment) : Bool :=
  p.isOpenCard box && w.now ≤ p.createdAt + s.reach

/-- A row that is cut off after a sort comes after as many rows as are kept. -/
private theorem mem_take_insertionSort {α : Type} {r : α → α → Prop} [DecidableRel r] [Std.Total r]
    [IsTrans α r] {l : List α} {x : α} (n : ℕ) (hx : x ∈ l) :
    x ∈ (l.insertionSort r).take n ∨ n < l.countP fun y => r y x := by
  have hsorted := List.pairwise_insertionSort r l
  have hmem : x ∈ l.insertionSort r := (List.mem_insertionSort r).mpr hx
  rw [← List.take_append_drop n (l.insertionSort r)] at hsorted hmem
  rcases List.mem_append.mp hmem with hmem | hmem
  · exact .inl hmem
  · right
    have hlength : ((l.insertionSort r).take n).length = n := by
      have hpos := List.length_pos_of_mem hmem
      rw [List.length_drop] at hpos
      rw [List.length_take]
      omega
    have htake : ((l.insertionSort r).take n).countP (fun y => r y x) = n := by
      rw [List.countP_eq_length.mpr, hlength]
      intro y hy
      exact decide_eq_true ((List.pairwise_append.mp hsorted).2.2 y hy x hmem)
    have hdrop : 0 < ((l.insertionSort r).drop n).countP fun y => r y x :=
      List.countP_pos_iff.mpr ⟨x, hmem, decide_eq_true ((total_of r x x).elim id id)⟩
    rw [← (List.perm_insertionSort r l).countP_eq, ← List.take_append_drop n (l.insertionSort r),
      List.countP_append, htake]
    omega

section Candidates

variable {w : World} {box : AdminId} {s : CardAuto} {dep : Deposit} {r : PaymentId × Payment}

theorem mem_lookedAt (h : r ∈ w.lookedAt box s) :
    w.payments.get? r.1 = some r.2 ∧ w.fresh box s r.2 := by
  have hmem := List.mem_of_mem_take h
  rw [List.mem_insertionSort, List.mem_filter] at hmem
  refine ⟨(w.payments.mem_rows_iff r.1 r.2).mp hmem.1, ?_⟩
  have hcond := hmem.2
  simp only [Bool.and_eq_true, decide_eq_true_eq] at hcond
  simp only [World.fresh, Payment.isOpenCard, Bool.and_eq_true, decide_eq_true_eq]
  exact ⟨hcond.1, tsub_le_iff_right.mp hcond.2⟩

/-- Only the 200 newest open payments of the window are looked at. -/
theorem lookedAt_or_older (hr : r ∈ w.payments.rows) (hfresh : w.fresh box s r.2) :
    r ∈ w.lookedAt box s ∨
      200 < w.payments.rows.countP fun q => w.fresh box s q.2 && r.2.createdAt ≤ q.2.createdAt := by
  let newer : PaymentId × Payment → PaymentId × Payment → Prop :=
    fun a b => b.2.createdAt ≤ a.2.createdAt
  have : Std.Total newer := ⟨fun a b => le_total b.2.createdAt a.2.createdAt⟩
  have : IsTrans (PaymentId × Payment) newer := ⟨fun _ _ _ h h' => le_trans h' h⟩
  have hkeep : ∀ q : PaymentId × Payment, (q.2.adminId = box && q.2.method = .card &&
      (q.2.status = .pending || q.2.status = .review) && w.now - s.reach ≤ q.2.createdAt) =
        w.fresh box s q.2 := by
    intro q
    simp only [World.fresh, Payment.isOpenCard, tsub_le_iff_right]
  have hmem : r ∈ w.payments.rows.filter fun q => w.fresh box s q.2 :=
    List.mem_filter.mpr ⟨hr, hfresh⟩
  unfold World.lookedAt openCardPayments
  simp only [hkeep]
  refine (mem_take_insertionSort (r := newer) 200 hmem).imp (fun h => h) fun h => ?_
  rw [List.countP_filter] at h
  exact lt_of_lt_of_le h (List.countP_mono_left fun q _ hq => by
    simp only [Bool.and_eq_true, decide_eq_true_eq] at hq ⊢
    exact ⟨hq.2, hq.1⟩)

theorem amountOrRef_subset {rows : List (PaymentId × Payment)} : amountOrRef s dep rows ⊆ rows := by
  have hfilter : ∀ f : PaymentId × Payment → Bool, rows.filter f ⊆ rows := fun f q hq =>
    (List.mem_filter.mp hq).1
  unfold amountOrRef
  dsimp only
  by_cases href : dep.refId = ""
  · rw [if_pos href, if_neg (by decide)]
    exact hfilter _
  · rw [if_neg href]
    split
    · exact hfilter _
    · exact hfilter _

/-- A single candidate is the only one, or told apart from the others by its last digits. -/
theorem narrow_eq_singleton {cands : List (PaymentId × Payment)} (h : narrow s dep cands = [r]) :
    r ∈ cands ∧ ∀ q ∈ cands, q = r ∨ s.tellsApart dep r.2 q.2 := by
  unfold narrow at h
  split at h
  · next hnarrow =>
      simp only [Bool.and_eq_true, decide_eq_true_eq] at hnarrow
      have hr : r ∈ cands ∧ sliceLast 4 (r.2.cardPan.getD "") = dep.last4 := by
        have hmem : r ∈ cands.filter fun q => sliceLast 4 (q.2.cardPan.getD "") = dep.last4 := by
          rw [h]
          exact List.mem_singleton_self r
        simpa using hmem
      refine ⟨hr.1, fun q hq => ?_⟩
      by_cases htail : sliceLast 4 (q.2.cardPan.getD "") = dep.last4
      · have hmem : q ∈ cands.filter fun q => sliceLast 4 (q.2.cardPan.getD "") = dep.last4 :=
          List.mem_filter.mpr ⟨hq, decide_eq_true htail⟩
        rw [h] at hmem
        exact .inl (List.mem_singleton.mp hmem)
      · right
        simp [CardAuto.tellsApart, hnarrow.1.1, hr.2, htail]
        simpa using hnarrow.1.2
  · subst h
    exact ⟨List.mem_singleton_self r, fun q hq => .inl (List.mem_singleton.mp hq)⟩

end Candidates

/-! ## The outcome of a match -/

/-- Exactly one of the payments that are looked at carries the deposit's reference number. -/
def World.refNamesOne (w : World) (box : AdminId) (s : CardAuto) (dep : Deposit) : Prop :=
  dep.refId ≠ "" ∧ ((w.lookedAt box s).filter fun r => sameRef r.2 dep.refId).length = 1

/-- What holds of a payment that a deposit confirms by itself. -/
structure World.Fits (w : World) (box : AdminId) (s : CardAuto) (dep : Deposit) (id : PaymentId)
    (p : Payment) : Prop where
  stored : w.payments.get? id = some p
  fresh : w.fresh box s p
  /-- A deposit of the window before the match is within the window of the payment. -/
  near : dep.date ≤ w.now → w.now ≤ dep.date + s.reach → p.createdAt ≤ w.now →
    Nat.dist dep.date p.createdAt ≤ s.reach
  amount : ¬w.refNamesOne box s dep → withinTolerance s.toleranceIrt p dep.amount
  /-- No other open payment of the window has such an amount, unless the last digits tell it apart
  or it is older than the 200 newest. -/
  alone : ¬w.refNamesOne box s dep → ∀ r ∈ w.payments.rows, r.1 ≠ id → w.fresh box s r.2 →
    withinTolerance s.toleranceIrt r.2 dep.amount → s.tellsApart dep p r.2 ∨
      200 < w.payments.rows.countP fun q => w.fresh box s q.2 && r.2.createdAt ≤ q.2.createdAt

/-- Nothing was confirmed, or one payment that fits. -/
def World.AfterMatch (w : World) (box : AdminId) (s : CardAuto) (dep : Deposit)
    (status : DepositStatus) (w' : World) : Prop :=
  (w'.history.confirmations = w.history.confirmations ∧ status ≠ .matched) ∨
    ∃ id p, w'.history.confirmations = ⟨id, p, .deposit box dep⟩ :: w.history.confirmations ∧
      w.Fits box s dep id p

section Outcome

variable {w : World} {box : AdminId} {s : CardAuto} {dep : Deposit} {id : PaymentId} {p : Payment}

/-- An open payment that `confirmPayment` is called for gets its confirmation recorded, whatever
becomes of the rest of the call. -/
theorem wp_confirmPayment_records (hp : w.payments.get? id = some p) (ho : p.isOpenCard box)
    (e : Evidence) (refId cardPan : Option String) :
    Prog.wp (confirmPayment e id (.auto refId cardPan))
      (fun _ t => t.history.confirmations = ⟨id, p, e⟩ :: w.history.confirmations)
      (fun _ t => t.history.confirmations = ⟨id, p, e⟩ :: w.history.confirmations) w := by
  have hstatus : p.status = .pending ∨ p.status = .review := by
    simp only [Payment.isOpenCard, Bool.and_eq_true, Bool.or_eq_true, decide_eq_true_eq] at ho
    exact ho.2
  refine wp_confirmPayment_auto hp (fun hidle => ?_) fun _ _ q t _ _ hsettled =>
    hsettled.upkeep.confirmations
  rcases hstatus with h | h <;> rw [h] at hidle <;> simp at hidle

/-- A candidate that was chosen fits. -/
theorem fits_of_candidate {r : PaymentId × Payment}
    (h : narrow s dep (amountOrRef s dep (w.lookedAt box s)) = [r]) : w.Fits box s dep r.1 r.2 := by
  obtain ⟨hr, honly⟩ := narrow_eq_singleton h
  have hlooked := amountOrRef_subset hr
  have hamounts : ¬w.refNamesOne box s dep → amountOrRef s dep (w.lookedAt box s) =
      (w.lookedAt box s).filter fun q => withinTolerance s.toleranceIrt q.2 dep.amount := by
    intro href
    unfold amountOrRef
    dsimp only
    refine if_neg fun hlen => ?_
    by_cases hempty : dep.refId = ""
    · rw [if_pos hempty] at hlen
      cases hlen
    · rw [if_neg hempty] at hlen
      exact href ⟨hempty, hlen⟩
  obtain ⟨hstored, hfresh⟩ := mem_lookedAt hlooked
  refine ⟨hstored, hfresh, fun hpast hrecent hcreated => ?_, fun href => ?_,
    fun href q hq hne hqf hqa => ?_⟩
  · simp only [World.fresh, Bool.and_eq_true, decide_eq_true_eq] at hfresh
    have hlow := hfresh.2
    simp only [Time] at *
    unfold Nat.dist
    omega
  · rw [hamounts href] at hr
    simpa using (List.mem_filter.mp hr).2
  · rcases lookedAt_or_older hq hqf with hmem | holder
    · left
      have hcand : q ∈ amountOrRef s dep (w.lookedAt box s) := by
        rw [hamounts href]
        exact List.mem_filter.mpr ⟨hmem, hqa⟩
      exact (honly q hcand).resolve_left fun heq => hne (congrArg Prod.fst heq)
    · exact .inr holder

end Outcome

/-- For every set of payments, all settings and every deposit: what `matchDeposit` confirms fits. -/
theorem deposit_match_fits (w : World) (box : AdminId) (s : CardAuto) (dep : Deposit) :
    Prog.wp (matchDeposit (settlePlainly box) box s dep)
      (fun m => w.AfterMatch box s dep m.status) (fun _ _ => False) w := by
  have idle : ∀ {status : DepositStatus}, status ≠ .matched → w.AfterMatch box s dep status w :=
    fun h => .inl ⟨rfl, h⟩
  unfold matchDeposit
  split
  · exact idle (by simp)
  simp only [clock, Db.read, wp_bind, wp_query]
  split
  · exact idle (by simp)
  have hlooked : openCardPayments w box (w.now - max 5 s.windowMin * 60000) = w.lookedAt box s :=
    rfl
  rw [hlooked]
  unfold settleMatch
  split
  · exact idle (by simp)
  · next target hcands =>
      have hfits := fits_of_candidate hcands
      split
      · exact idle (by simp)
      · have hopen : target.2.isOpenCard box := by
          have h := hfits.fresh
          simp only [World.fresh, Bool.and_eq_true] at h
          exact h.1
        have hconfirmed : ∀ status w', w'.history.confirmations =
            ⟨target.1, target.2, .deposit box dep⟩ :: w.history.confirmations →
              w.AfterMatch box s dep status w' := fun _ _ h => .inr ⟨_, _, h, hfits⟩
        simp only [wp_attempt, wp_bind, wp_pure, settlePlainly]
        exact wp_mono _ (wp_confirmPayment_records hfits.stored hopen _ _ _)
          (fun _ _ h => hconfirmed _ _ h) fun _ _ h => hconfirmed _ _ h
  · exact idle (by simp)

/-! ## Payments that do not fit alone

The seller 2 has open card top-ups of the customer 5.
-/

/-- The amounts agree, and the two times are within the window of each other. -/
def Payment.fitsDeposit (p : Payment) (s : CardAuto) (dep : Deposit) : Bool :=
  withinTolerance s.toleranceIrt p dep.amount && Nat.dist dep.date p.createdAt ≤ s.windowMin * 60000

/-- The payment is the only open card payment of the seller that fits the deposit. -/
def World.FitsAlone (w : World) (box : AdminId) (s : CardAuto) (dep : Deposit) (c : Confirmation) :
    Prop :=
  c.row.fitsDeposit s dep ∧ ∀ r ∈ w.payments.rows, r.1 ≠ c.payment → r.2.isOpenCard box →
    ¬r.2.fitsDeposit s dep

instance (w : World) (box : AdminId) (s : CardAuto) (dep : Deposit) (c : Confirmation) :
    Decidable (w.FitsAlone box s dep c) :=
  inferInstanceAs (Decidable (c.row.fitsDeposit s dep ∧ ∀ r ∈ w.payments.rows, r.1 ≠ c.payment →
    r.2.isOpenCard box → ¬r.2.fitsDeposit s dep))

/-- An open card top-up of the customer. -/
def cardTopup (amount : ℤ) (pan ref : String) (createdAt : Time) : Payment :=
  { newPayment ⟨.topup, .card, amount, 2, none, none⟩ (createdAt + 3600000) none with
    status := .review
    customerId := some 5
    cardPan := orNull pan
    receiptRef := orNull ref
    createdAt := createdAt }

/-- The panel a day after its start, with the given top-ups. -/
def cardWorld (topups : List (PaymentId × Payment)) : World :=
  { World.blank with
    now := 86400000
    admins := .ofRows [(1, ⟨.owner, 0, 0⟩), (2, ⟨.admin, 0, 0⟩)]
    shops := .ofRows [(2, StoreSettings.blank 2)]
    customers := .ofRows [(5, ⟨2, 0⟩)]
    payments := .ofRows topups }

/-- A deposit of 50000 toman. -/
def cardDeposit (date : Time) (ref last4 : String) : Deposit :=
  newDeposit 99 date 50000 ⟨50000, some ref, some last4, none, none, none, .sms⟩

/-- The deposit confirms a payment that does not fit alone. -/
def ConfirmsUnfit (w : World) (s : CardAuto) (dep : Deposit) : Prop :=
  ∃ c ∈ ((matchDeposit (settlePlainly 2) 2 s dep).run w).2.history.confirmations,
    ¬w.FitsAlone 2 s dep c

instance (w : World) (s : CardAuto) (dep : Deposit) : Decidable (ConfirmsUnfit w s dep) :=
  inferInstanceAs (Decidable (∃ c ∈ _, ¬w.FitsAlone 2 s dep c))

/-- A confirmed payment need not be the only one that fits, and need not fit: the last digits choose
between two payments of one amount, a reference number stands in for the amount, and a deposit of
the day before confirms the payment of today. -/
theorem deposit_match_unfit :
    ConfirmsUnfit (cardWorld [(7, cardTopup 50000 "1111" "" 86300000),
        (8, cardTopup 50000 "2222" "" 86300000)])
      { CardAuto.default with requireLast4 := true } (cardDeposit 86400000 "" "2222") ∧
    ConfirmsUnfit (cardWorld [(7, cardTopup 900000 "" "777001" 86300000)]) .default
      (cardDeposit 86400000 "777001" "") ∧
    ConfirmsUnfit (cardWorld [(7, cardTopup 50000 "" "" 86300000)]) .default
      (cardDeposit 0 "" "") := by
  decide +kernel

end SRPanel
