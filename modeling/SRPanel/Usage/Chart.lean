import SRPanel.Model.UsageChart
import SRPanel.Sync.Groups

/-!
# The usage charts agree

A sample records what has been transferred since the sample before it. `dailyUsage` takes a series
that never falls for one of counters and charts its differences: such a chart misses at least the
first sample. It adds up exactly when some sample is smaller than the one before, and then it agrees
with `clientUsageSeries`.
-/

namespace SRPanel

open Site

/-- What a synchronisation records: a growth that is not negative and not zero. -/
def UsageSample.Recorded (s : UsageSample) : Prop := 0 ≤ s.up ∧ 0 ≤ s.down ∧ 0 < s.up + s.down

instance (s : UsageSample) : Decidable s.Recorded := inferInstanceAs (Decidable (_ ∧ _))

/-- The traffic that a chart shows for a day. -/
def shownOn (points : List SubUsagePoint) (day : ℤ) : ℤ × ℤ :=
  ((points.find? fun p => p.date = day).map fun p => (p.up, p.down)).getD (0, 0)

/-- The chart of the samples of a window shows all their traffic, and every day like the series of
the panel. -/
structure UsageAddsUp (now : ℤ) (rows : List UsageSample) : Prop where
  total : ((subscriptionUsage rows).map SubUsagePoint.total).sum =
    (rows.map fun s => s.up + s.down).sum
  byDay : ∀ days, ∀ d ∈ clientUsageSeries now days rows,
    shownOn (subscriptionUsage rows) d.day = (d.up, d.down)

/-- Some sample is smaller than the one before it. -/
def Falls (rows : List UsageSample) : Prop :=
  ∃ before s s' after, rows = before ++ s :: s' :: after ∧ s'.up + s'.down < s.up + s.down

/-! ## What a synchronisation records -/

theorem usageDelta_nonneg {value prev : ℤ} (h : 0 ≤ value) : 0 ≤ usageDelta value prev := by
  unfold usageDelta
  split
  · omega
  · exact h

/-- The rows of a synchronisation, taken at some time, are samples with a positive growth. -/
theorem syncedGroup_recorded {report : PanelReport} {group : List (LinkKey × ClientServer)}
    {row : UsageRow} (h : (syncedGroup report group).bind SyncedGroup.usage = some row)
    (takenAt : ℤ) :
    (⟨takenAt, row.up, row.down⟩ : UsageSample).Recorded := by
  cases group with
  | nil => cases h
  | cons head links =>
      obtain ⟨synced, hsynced, husage⟩ := Option.bind_eq_some_iff.mp h
      obtain ⟨stat, -, rfl⟩ := Option.map_eq_some_iff.mp hsynced
      dsimp only at husage
      split at husage
      · next hpos =>
          obtain rfl := Option.some.inj husage
          exact ⟨usageDelta_nonneg (le_max_left _ _), usageDelta_nonneg (le_max_left _ _), hpos⟩
      · cases husage

/-! ## Sums of the chart -/

/-- Both directions together. -/
def amount (x : ℤ × ℤ) : ℤ := x.1 + x.2

theorem sum_amount (xs : List (ℤ × ℤ)) : (xs.map amount).sum = amount xs.sum := by
  induction xs with
  | nil => rfl
  | cons x xs ih =>
      rw [List.map_cons, List.sum_cons, List.sum_cons, ih]
      simp only [amount, Prod.fst_add, Prod.snd_add]
      omega

/-- The figures that the loop of `dailyUsage` adds up, each with its day. -/
def increments (cumulative : Bool) : Option UsageSample → List UsageSample → List (ℤ × (ℤ × ℤ))
  | _, [] => []
  | prev, s :: rest => (isoDay s.takenAt, growth cumulative prev s) :: increments cumulative
    (some s) rest

/-- The figures of one day. -/
def ofDay (day : ℤ) (xs : List (ℤ × (ℤ × ℤ))) : ℤ × ℤ :=
  ((xs.filter fun x => x.1 = day).map Prod.snd).sum

theorem sum_tally (cumulative : Bool) (prev : Option UsageSample) (samples : List UsageSample)
    (t : Table ℤ (ℤ × ℤ)) : ((tally cumulative prev samples t).rows.map Prod.snd).sum =
      (t.rows.map Prod.snd).sum + ((increments cumulative prev samples).map Prod.snd).sum := by
  induction samples generalizing prev t with
  | nil => simp [tally, increments]
  | cons s rest ih =>
      rw [tally, ih, increments, List.map_cons, List.sum_cons, ← add_assoc]
      exact congrArg (· + _) (t.sum_rows_add _ _)

theorem get?_tally (cumulative : Bool) (prev : Option UsageSample) (samples : List UsageSample)
    (t : Table ℤ (ℤ × ℤ)) (day : ℤ) : ((tally cumulative prev samples t).get? day).getD 0 =
      (t.get? day).getD 0 + ofDay day (increments cumulative prev samples) := by
  induction samples generalizing prev t with
  | nil => simp [tally, increments, ofDay]
  | cons s rest ih =>
      rw [tally, ih, increments, Table.get?_set, ofDay, ofDay, List.filter_cons]
      by_cases hday : day = isoDay s.takenAt
      · subst hday
        simp only [if_true, decide_true, List.map_cons, List.sum_cons, Option.getD_some,
          ← add_assoc]
        rfl
      · simp [hday, Ne.symm hday]

/-- A row of the loop's map as a point of the chart. -/
def usagePoint (r : ℤ × (ℤ × ℤ)) : SubUsagePoint := ⟨r.1, r.2.1, r.2.2, r.2.1 + r.2.2⟩

/-- The points of the chart are the days of the map, whatever their order. -/
theorem dailyUsage_perm (samples : List UsageSample) : (dailyUsage samples).Perm
    ((tally (cumulative samples) none samples .empty).rows.map usagePoint) := by
  unfold dailyUsage
  split
  · next h =>
      subst h
      exact .refl _
  · exact List.perm_insertionSort _ _

theorem total_dailyUsage (samples : List UsageSample) :
    ((dailyUsage samples).map SubUsagePoint.total).sum = amount
    ((increments (cumulative samples) none samples).map Prod.snd).sum := by
  rw [((dailyUsage_perm samples).map _).sum_eq, List.map_map]
  have hamount : (SubUsagePoint.total ∘ usagePoint) = amount ∘ Prod.snd := rfl
  rw [hamount, ← List.map_map, sum_amount, sum_tally]
  exact congrArg amount (zero_add _)

/-- In a chart whose days are distinct, a point is what is shown on its day. -/
theorem shownOn_of_mem {points : List SubUsagePoint}
    (hnodup : (points.map SubUsagePoint.date).Nodup) {p : SubUsagePoint} (hp : p ∈ points) :
    shownOn points p.date = (p.up, p.down) := by
  induction points with
  | nil => cases hp
  | cons q points ih =>
      obtain ⟨hq, hnodup⟩ := List.nodup_cons.mp hnodup
      rw [shownOn, List.find?_cons]
      rcases List.mem_cons.mp hp with rfl | hp
      · simp
      · have hne : q.date ≠ p.date := by
          intro heq
          exact hq (List.mem_map.mpr ⟨p, hp, heq.symm⟩)
        rw [decide_eq_false hne]
        exact ih hnodup hp

theorem shownOn_of_forall {points : List SubUsagePoint} {day : ℤ} (h : ∀ p ∈ points, p.date ≠ day) :
    shownOn points day = (0, 0) := by
  have hnone : points.find? (fun p => p.date = day) = none :=
    List.find?_eq_none.mpr fun p hp => by simpa using h p hp
  rw [shownOn, hnone]
  rfl

theorem shownOn_dailyUsage (samples : List UsageSample) (day : ℤ) :
    shownOn (dailyUsage samples) day =
    ofDay day (increments (cumulative samples) none samples) := by
  have hget := get?_tally (cumulative samples) none samples .empty day
  rw [Table.get?_empty, Option.getD_none, zero_add] at hget
  rw [← hget]
  generalize ht : tally (cumulative samples) none samples .empty = t
  have hperm := dailyUsage_perm samples
  rw [ht] at hperm
  have hdates : (dailyUsage samples).map SubUsagePoint.date |>.Nodup := by
    refine ((hperm.map SubUsagePoint.date).nodup_iff).mpr ?_
    rw [List.map_map]
    exact t.nodup_keys
  cases hday : t.get? day with
  | none =>
      refine shownOn_of_forall fun p hp => ?_
      obtain ⟨r, hr, rfl⟩ := List.mem_map.mp (hperm.mem_iff.mp hp)
      rintro rfl
      change t.get? r.1 = none at hday
      rw [(t.mem_rows_iff r.1 r.2).mp hr] at hday
      cases hday
  | some r =>
      exact shownOn_of_mem hdates (p := usagePoint (day, r))
        (hperm.mem_iff.mpr (List.mem_map_of_mem ((t.mem_rows_iff day r).mpr hday)))

/-! ## The series of the panel -/

/-- The traffic of the samples of a day. -/
def trafficOn (day : ℤ) (rows : List UsageSample) : ℤ × ℤ :=
  ((rows.filter fun s => isoDay s.takenAt = day).map UsageSample.traffic).sum

theorem mem_foldl_addToSeries {rows : List UsageSample} {series : List DayUsage} {d : DayUsage}
    (hd : d ∈ rows.foldl addToSeries series) : ∃ d₀ ∈ series, d₀.day = d.day ∧
      (d.up, d.down) = (d₀.up, d₀.down) + trafficOn d.day rows := by
  induction rows generalizing series with
  | nil => exact ⟨d, hd, rfl, (add_zero _).symm⟩
  | cons s rows ih =>
      obtain ⟨d₁, hd₁, hday, hsum⟩ := ih hd
      obtain ⟨d₀, hd₀, rfl⟩ := List.mem_map.mp hd₁
      refine ⟨d₀, hd₀, ?_⟩
      rw [hsum, trafficOn, trafficOn, List.filter_cons]
      by_cases hs : d₀.day = isoDay s.takenAt
      · rw [if_pos hs] at hday ⊢
        change d₀.day = d.day at hday
        rw [if_pos (decide_eq_true (hs.symm.trans hday)), List.map_cons, List.sum_cons, ← add_assoc]
        exact ⟨hday, rfl⟩
      · rw [if_neg hs] at hday ⊢
        rw [if_neg (by simpa [← hday] using Ne.symm hs)]
        exact ⟨hday, rfl⟩

/-- The series shows for each of its days the samples of the day. -/
theorem clientUsageSeries_spec {now : ℤ} {days : ℕ} {rows : List UsageSample} {d : DayUsage}
    (hd : d ∈ clientUsageSeries now days rows) : (d.up, d.down) = trafficOn d.day rows := by
  obtain ⟨d₀, hd₀, -, hsum⟩ := mem_foldl_addToSeries hd
  obtain ⟨day, -, rfl⟩ := List.mem_map.mp hd₀
  rw [hsum]
  exact zero_add _

/-! ## The guess -/

theorem cumulative_iff (rows : List UsageSample) : cumulative rows = false ↔ Falls rows := by
  induction rows with
  | nil => simp [cumulative, Falls]
  | cons s rows ih =>
      cases rows with
      | nil =>
          refine iff_of_false (by simp [cumulative]) ?_
          rintro ⟨before, a, b, after, heq, -⟩
          have hlen := congrArg List.length heq
          simp at hlen
          omega
      | cons s' rest =>
          rw [cumulative, Bool.and_eq_false_iff, ih, decide_eq_false_iff_not, not_le]
          constructor
          · rintro (hlt | ⟨before, a, b, after, heq, hlt⟩)
            · exact ⟨[], s, s', rest, rfl, hlt⟩
            · exact ⟨s :: before, a, b, after, by rw [heq, List.cons_append], hlt⟩
          · rintro ⟨before, a, b, after, heq, hlt⟩
            cases before with
            | nil =>
                simp only [List.nil_append, List.cons.injEq] at heq
                obtain ⟨rfl, rfl, rfl⟩ := heq
                exact .inl hlt
            | cons c before =>
                obtain ⟨rfl, htail⟩ := List.cons.inj heq
                exact .inr ⟨before, a, b, after, htail, hlt⟩

/-- Without the guess a chart adds the samples themselves. -/
theorem increments_false (prev : Option UsageSample) (samples : List UsageSample) :
    increments false prev samples = samples.map fun s => (isoDay s.takenAt, s.traffic) := by
  induction samples generalizing prev with
  | nil => rfl
  | cons s rest ih => exact congrArg (_ :: ·) (ih _)

/-- What a day gets without the guess. -/
theorem ofDay_increments_false (day : ℤ) (samples : List UsageSample) :
    ofDay day (increments false none samples) = trafficOn day samples := by
  rw [increments_false, ofDay, List.filter_map, List.map_map]
  rfl

/-- The differences of recorded samples are at most the samples. -/
theorem amount_growth_le {p s : UsageSample} (hp : p.Recorded) (hs : s.Recorded) :
    amount (growth true (some p) s) ≤ s.up + s.down := by
  obtain ⟨hpu, hpd, -⟩ := hp
  obtain ⟨hsu, hsd, -⟩ := hs
  simp only [amount, growth, if_true, Option.map_some, Option.getD_some]
  omega

theorem amount_increments_le {p : UsageSample} {samples : List UsageSample} (hp : p.Recorded)
    (hsamples : ∀ s ∈ samples, s.Recorded) :
    amount ((increments true (some p) samples).map Prod.snd).sum ≤
      (samples.map fun s => s.up + s.down).sum := by
  induction samples generalizing p with
  | nil => exact le_refl _
  | cons s rest ih =>
      have hs := hsamples s List.mem_cons_self
      have hrest := ih hs fun s' hs' => hsamples s' (List.mem_cons_of_mem s hs')
      have hone := amount_growth_le hp hs
      rw [increments, List.map_cons, List.sum_cons, List.map_cons, List.sum_cons]
      simp only [amount, Prod.fst_add, Prod.snd_add] at hrest hone ⊢
      omega

/-- A chart of differences shows less than the samples: the first one has no difference. -/
theorem amount_increments_lt {samples : List UsageSample} (hne : samples ≠ [])
    (hsamples : ∀ s ∈ samples, s.Recorded) :
    amount ((increments true none samples).map Prod.snd).sum <
      (samples.map fun s => s.up + s.down).sum := by
  cases samples with
  | nil => exact absurd rfl hne
  | cons s rest =>
      have hs := hsamples s List.mem_cons_self
      have hrest := amount_increments_le hs fun s' hs' => hsamples s' (List.mem_cons_of_mem s hs')
      have hfirst : growth true none s = (0, 0) := by simp [growth]
      rw [increments, List.map_cons, List.sum_cons, hfirst, List.map_cons, List.sum_cons]
      have hpos := hs.2.2
      change amount (0 + _) < _
      rw [zero_add]
      omega

/-! ## The charts -/

/-- A sum of recorded samples is at least the sum of the first ones, and more if samples are left
out. -/
theorem sum_take_lt {samples : List UsageSample} (hsamples : ∀ s ∈ samples, s.Recorded) {n : ℕ}
    (hn : n < samples.length) :
    ((samples.take n).map fun s => s.up + s.down).sum <
      (samples.map fun s => s.up + s.down).sum := by
  induction samples generalizing n with
  | nil => simp at hn
  | cons s rest ih =>
      have hs := (hsamples s List.mem_cons_self).2.2
      have hrest : ∀ s' ∈ rest, s'.Recorded :=
        fun s' hs' => hsamples s' (List.mem_cons_of_mem s hs')
      cases n with
      | zero =>
          have hnonneg : 0 ≤ (rest.map fun s => s.up + s.down).sum := by
            refine List.sum_nonneg fun x hx => ?_
            obtain ⟨s', hs', rfl⟩ := List.mem_map.mp hx
            exact (hrest s' hs').2.2.le
          rw [List.take_zero, List.map_nil, List.sum_nil, List.map_cons, List.sum_cons]
          omega
      | succ n =>
          have hlt := ih hrest (by simpa using hn)
          rw [List.take_succ_cons, List.map_cons, List.sum_cons, List.map_cons, List.sum_cons]
          omega

/-- The chart never shows more than the samples that it takes, and less when it takes differences.
-/
theorem total_subscriptionUsage (rows : List UsageSample) (hrows : ∀ s ∈ rows, s.Recorded) :
    ((subscriptionUsage rows).map SubUsagePoint.total).sum ≤
      ((rows.take 400).map fun s => s.up + s.down).sum ∧
        (((subscriptionUsage rows).map SubUsagePoint.total).sum =
          ((rows.take 400).map fun s => s.up + s.down).sum ↔
          rows = [] ∨ Falls (rows.take 400)) := by
  have htake : ∀ s ∈ rows.take 400, s.Recorded := fun s hs => hrows s (List.mem_of_mem_take hs)
  have hempty : rows.take 400 = [] ↔ rows = [] := by simp
  rw [subscriptionUsage, total_dailyUsage, ← cumulative_iff, ← hempty]
  generalize rows.take 400 = samples at htake
  cases hguess : cumulative samples with
  | false =>
      have heq : amount ((increments false none samples).map Prod.snd).sum =
          (samples.map fun s => s.up + s.down).sum := by
        rw [increments_false, List.map_map, ← sum_amount, List.map_map]
        rfl
      exact ⟨heq.le, iff_of_true heq (.inr rfl)⟩
  | true =>
      by_cases hne : samples = []
      · subst hne
        exact ⟨le_refl _, iff_of_true rfl (.inl rfl)⟩
      · have hlt := amount_increments_lt hne htake
        refine ⟨hlt.le, iff_of_false hlt.ne ?_⟩
        rintro (h | h)
        · exact hne h
        · cases h

/-- The chart of recorded samples adds up and agrees with the series exactly when there are at most
400 of them and, if there are any, one is smaller than the one before it. -/
theorem usage_adds_up_iff (now : ℤ) (rows : List UsageSample) (hrows : ∀ s ∈ rows, s.Recorded) :
    UsageAddsUp now rows ↔ rows.length ≤ 400 ∧ (rows = [] ∨ Falls rows) := by
  obtain ⟨hle, hiff⟩ := total_subscriptionUsage rows hrows
  constructor
  · intro h
    have hlen : rows.length ≤ 400 := by
      by_contra hlong
      have hlt := sum_take_lt hrows (n := 400) (by omega)
      rw [h.total] at hle
      omega
    rw [List.take_of_length_le hlen] at hiff
    exact ⟨hlen, hiff.mp h.total⟩
  · rintro ⟨hlen, hguess⟩
    have hall : rows.take 400 = rows := List.take_of_length_le hlen
    rw [hall] at hiff
    refine ⟨hiff.mpr hguess, fun days d hd => ?_⟩
    rw [subscriptionUsage, hall, shownOn_dailyUsage, clientUsageSeries_spec hd]
    rcases hguess with rfl | hfalls
    · rfl
    · rw [(cumulative_iff rows).mpr hfalls, ofDay_increments_false]

/-- Three hours on the second day after the epoch, and one hour on the third. -/
theorem usage_adds_up_falling : UsageAddsUp 300000000
    [⟨90000000, 5, 7⟩, ⟨93600000, 0, 4⟩, ⟨97200000, 6, 6⟩, ⟨180000000, 1, 0⟩] :=
  (usage_adds_up_iff 300000000 [⟨90000000, 5, 7⟩, ⟨93600000, 0, 4⟩, ⟨97200000, 6, 6⟩,
    ⟨180000000, 1, 0⟩] (by decide)).mpr ⟨by decide, .inr ⟨[], _, _, _, rfl, by decide⟩⟩

/-- A client with one sample has an empty chart. -/
theorem usage_lost : ¬ ∀ (now : ℤ) (rows : List UsageSample), (∀ s ∈ rows, s.Recorded) →
    UsageAddsUp now rows := by
  intro h
  have htotal := (h 90000001 [⟨90000000, 5, 7⟩] (by decide)).total
  revert htotal
  decide

end SRPanel
