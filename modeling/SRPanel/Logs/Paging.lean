import SRPanel.Lib.Merge
import SRPanel.Model.Logs
import Mathlib.Data.List.Perm.Lattice
import Mathlib.Logic.Equiv.Basic

/-!
# Paging the log

A page is cut out of what the sources list within a window of at most 5000 rows each, and the rows
of one time come in an order of their own in every answer of the database. So the pages add up to
the whole log exactly when no source has more than 5000 matching rows, and no two matching rows of
one source have the same time.
-/

namespace SRPanel

open Merging

instance : (s : LogSource) → DecidableEq s.Row
  | .audit => inferInstanceAs (DecidableEq AuditLog)
  | .notification => inferInstanceAs (DecidableEq NotificationLog)
  | .webhook => inferInstanceAs (DecidableEq WebhookDelivery)
  | .incident => inferInstanceAs (DecidableEq Incident)
  | .backup => inferInstanceAs (DecidableEq Backup)

/-- Every table has a primary key. -/
def LogTables.Keyed (db : LogTables) : Prop := ∀ s, ((db.rows s).map s.rowId).Nodup

/-- The same query for the page that starts after `i` pages of length `take`. -/
def UnifiedLogQuery.page (query : UnifiedLogQuery) (take i : ℕ) : UnifiedLogQuery :=
  { query with skip := some ((i * take : ℕ) : ℚ), take := some (take : ℚ) }

section

variable (env : LogEnv) (db : LogTables) (query : UnifiedLogQuery)

/-- The rows of a source that satisfy the filter. -/
def matchingRows (s : LogSource) : List s.Row := (db.rows s).filter (s.where' env db query.filter)

/-- The entries of all matching rows of the sources that the query wants. -/
def matching : List UnifiedLogEntry :=
  query.picked.flatMap fun s => (matchingRows env db query s).map fun r =>
    patchActor db (s.entry db r)

/-- The pages of length `take` list every matching entry exactly once, the latest first, and report
their number, whatever order the database gives to rows of one time on each request. -/
def PagesExact (take : ℕ) : Prop :=
  ∀ (answers : ℕ → LogAnswers env db query.filter) (defaultTake n : ℕ),
    (matching env db query).length ≤ n * take →
      let page := fun i => unifiedLog env db (query.page take i) (answers i) defaultTake
      ((List.range n).flatMap fun i => (page i).items).Perm (matching env db query) ∧
        ((List.range n).flatMap fun i => (page i).items).Pairwise (fun a b => b.at' ≤ a.at') ∧
        ∀ i, (page i).total = (matching env db query).length

end

/-! ## Entries -/

section Entries

variable (db : LogTables)

/-- An entry is named by its source and its row. -/
@[simp] theorem LogSource.entry_id (s : LogSource) (r : s.Row) :
    (s.entry db r).id = (s, s.rowId r) := by
  cases s <;> rfl

/-- It has its row's time. -/
@[simp] theorem LogSource.entry_at (s : LogSource) (r : s.Row) :
    (s.entry db r).at' = s.rowAt r := by
  cases s <;> rfl

/-- The name of the actor leaves the entry's own. -/
@[simp] theorem patchActor_id (e : UnifiedLogEntry) : (patchActor db e).id = e.id := by
  unfold patchActor
  split <;> rfl

/-- It leaves its time. -/
@[simp] theorem patchActor_at (e : UnifiedLogEntry) : (patchActor db e).at' = e.at' := by
  unfold patchActor
  split <;> rfl

variable {db}

/-- Rows of a keyed table are told apart by their keys. -/
theorem LogTables.Keyed.row_eq (hkeys : db.Keyed) {s : LogSource} {r r' : s.Row}
    (hr : r ∈ db.rows s) (hr' : r' ∈ db.rows s) (h : s.rowId r = s.rowId r') : r = r' :=
  List.inj_on_of_nodup_map (hkeys s) hr hr' h

/-- No table has a row twice. -/
theorem LogTables.Keyed.nodup (hkeys : db.Keyed) (s : LogSource) : (db.rows s).Nodup :=
  (hkeys s).of_map _

end Entries

/-- The order of the entries is transitive. -/
theorem laterFirst_trans (a b c : UnifiedLogEntry) (hab : laterFirst a b) (hbc : laterFirst b c) :
    laterFirst a c := by
  simp only [laterFirst, decide_eq_true_eq] at hab hbc ⊢
  exact hbc.trans hab

/-- It is total. -/
theorem laterFirst_total (a b : UnifiedLogEntry) : laterFirst a b || laterFirst b a := by
  simp only [laterFirst, Bool.or_eq_true, decide_eq_true_eq]
  exact le_total _ _

/-- No source is picked twice. -/
theorem UnifiedLogQuery.nodup_picked (query : UnifiedLogQuery) : query.picked.Nodup :=
  List.Nodup.filter _ (by decide)

/-- There are five sources at most. -/
theorem UnifiedLogQuery.length_picked (query : UnifiedLogQuery) : query.picked.length ≤ 5 :=
  List.length_filter_le _ _

/-- A whole number stays as it is, within the bounds. -/
theorem clampInt_natCast (n dflt lo hi : ℕ) :
    clampInt (some (n : ℚ)) dflt lo hi = min hi (max lo n) := by
  have hnonneg : (0 : ℚ) ≤ n := Nat.cast_nonneg n
  simp only [clampInt, if_pos hnonneg]
  rw [Int.floor_natCast]
  omega

/-! ## The merged log -/

section Merged

variable {env : LogEnv} {db : LogTables} {query : UnifiedLogQuery}

/-- All matching entries, merged as the source merges them. -/
def mergedLog (query : UnifiedLogQuery) (x : LogAnswers env db query.filter) :
    List UnifiedLogEntry :=
  (query.picked.map fun s => (x.rows s).map (s.entry db)).flatten.mergeSort laterFirst

/-- A source answers with its matching rows. -/
theorem LogAnswers.mem_rows (x : LogAnswers env db query.filter) {s : LogSource} {r : s.Row} :
    r ∈ x.rows s ↔ r ∈ matchingRows env db query s := (x.perm s).mem_iff

/-- They are rows of the table. -/
theorem mem_table {s : LogSource} {r : s.Row} (h : r ∈ matchingRows env db query s) :
    r ∈ db.rows s :=
  (List.mem_filter.mp h).1

/-- No row is answered twice. -/
theorem LogAnswers.nodup_rows (x : LogAnswers env db query.filter) (hkeys : db.Keyed)
    (s : LogSource) : (x.rows s).Nodup := (x.perm s).nodup_iff.mpr ((hkeys.nodup s).filter _)

/-- No entry is there twice. -/
theorem nodup_ids (x : LogAnswers env db query.filter) (hkeys : db.Keyed) :
    ((query.picked.map fun s =>
      (x.rows s).map (s.entry db)).flatten.map UnifiedLogEntry.id).Nodup := by
  rw [List.map_flatten, List.map_map, List.nodup_flatten]
  constructor
  · intro L hL
    obtain ⟨s, -, rfl⟩ := List.mem_map.mp hL
    rw [Function.comp_apply, List.map_map]
    refine (x.nodup_rows hkeys s).map_on fun r hr r' hr' h => ?_
    rw [Function.comp_apply, Function.comp_apply, LogSource.entry_id, LogSource.entry_id] at h
    exact hkeys.row_eq (mem_table (x.mem_rows.mp hr)) (mem_table (x.mem_rows.mp hr'))
      (Prod.mk.inj h).2
  · rw [List.pairwise_map]
    refine query.nodup_picked.imp fun {s s'} hne => ?_
    rw [List.disjoint_left]
    intro id hid hid'
    rw [Function.comp_apply, List.map_map] at hid hid'
    obtain ⟨r, -, rfl⟩ := List.mem_map.mp hid
    obtain ⟨r', -, h⟩ := List.mem_map.mp hid'
    rw [Function.comp_apply, Function.comp_apply, LogSource.entry_id, LogSource.entry_id] at h
    exact hne (Prod.mk.inj h).1.symm

/-- No entry comes twice from all sources. -/
theorem nodup_flat (x : LogAnswers env db query.filter) (hkeys : db.Keyed) :
    (query.picked.map fun s => (x.rows s).map (s.entry db)).flatten.Nodup :=
  (nodup_ids x hkeys).of_map _

/-- Nor does it with its actor. -/
theorem nodup_patched (x : LogAnswers env db query.filter) (hkeys : db.Keyed) :
    ((mergedLog query x).map (patchActor db)).Nodup := by
  have hids := ((List.mergeSort_perm _ laterFirst).map UnifiedLogEntry.id).nodup_iff.mpr
    (nodup_ids x hkeys)
  refine List.Nodup.of_map UnifiedLogEntry.id ?_
  rw [List.map_map, List.map_congr_left fun e _ => ?_]
  · exact hids
  · exact patchActor_id db e

/-- The merged log lists what matches. -/
theorem mergedLog_perm (x : LogAnswers env db query.filter) :
    ((mergedLog query x).map (patchActor db)).Perm (matching env db query) := by
  refine ((List.mergeSort_perm _ _).map _).trans ?_
  rw [← List.flatMap_def, List.map_flatMap]
  refine List.Perm.flatMap_left _ fun s _ => ?_
  rw [List.map_map]
  exact (x.perm s).map _

/-- Every matching row is merged. -/
theorem length_mergedLog (x : LogAnswers env db query.filter) :
    (mergedLog query x).length = (matching env db query).length := by
  rw [← (mergedLog_perm x).length_eq, List.length_map]

/-- The later ones come first. -/
theorem mergedLog_sorted (x : LogAnswers env db query.filter) :
    ((mergedLog query x).map (patchActor db)).Pairwise fun a b => b.at' ≤ a.at' := by
  rw [List.pairwise_map]
  refine (List.pairwise_mergeSort laterFirst_trans laterFirst_total _).imp fun {a b} h => ?_
  simpa [laterFirst] using h

/-- With few rows in each source a page is a slice of the merged log. -/
theorem page_items (x : LogAnswers env db query.filter) (hkeys : db.Keyed)
    (hfew : ∀ s ∈ query.picked, (matchingRows env db query s).length ≤ 5000) {take : ℕ}
    (hpos : 1 ≤ take)
    (htake : take ≤ 5000) (i dflt : ℕ) :
    (unifiedLog env db (query.page take i) x dflt).items =
      (((mergedLog query x).drop (i * take)).take take).map (patchActor db) := by
  have hfew' : ∀ s ∈ query.picked, (x.rows s).length ≤ 5000 := fun s hs => by
    rw [(x.perm s).length_eq]
    exact hfew s hs
  have htake' : clampInt (query.page take i).take dflt 1 5000 = take := by
    rw [UnifiedLogQuery.page, clampInt_natCast]
    omega
  have hskip : clampInt (query.page take i).skip 0 0 100000 = min 100000 (i * take) := by
    rw [UnifiedLogQuery.page, clampInt_natCast, Nat.max_eq_right (Nat.zero_le _)]
  -- within the window every source shows its first `skip + take` rows
  have hwindow : ∀ k, (query.picked.flatMap fun s => fetchOf x s (min 5000 k)) =
      ((query.picked.map fun s => (x.rows s).map (s.entry db)).map (List.take k)).flatten := by
    intro k
    rw [List.flatMap_def, List.map_map]
    refine congrArg List.flatten (List.map_congr_left fun s hs => ?_)
    rw [fetchOf, Function.comp_apply, ← List.map_take, Nat.min_comm, ← List.take_take,
      List.take_of_length_le (hfew' s hs)]
  show ((((query.picked.flatMap fun s =>
    fetchOf x s _).mergeSort laterFirst).drop _).take _).map _ = _
  rw [htake', hskip, hwindow]
  refine congrArg (List.map (patchActor db)) ?_
  by_cases hle : i * take ≤ 100000
  · rw [min_eq_right hle, List.take_drop, List.take_drop]
    refine congrArg (List.drop (i * take))
      (take_windows laterFirst_trans laterFirst_total (nodup_flat x hkeys)
        (fun L hL => ?_) (i * take + take))
    obtain ⟨s, -, rfl⟩ := List.mem_map.mp hL
    rw [List.pairwise_map]
    refine (x.sorted s).imp fun {a b} h => ?_
    simpa [laterFirst] using h
  -- behind the last entry the pages are empty, wherever the skip is cut off
  · have hshort : ∀ rows : (s : LogSource) → List UnifiedLogEntry,
        (∀ s ∈ query.picked, (rows s).length ≤ 5000) →
        ((query.picked.map rows).flatten.mergeSort laterFirst).length ≤ 25000 := by
      intro rows hrows
      rw [List.length_mergeSort]
      have hlen := length_flatten_le (query.picked.map rows) 5000 fun L hL => by
        obtain ⟨s, hs, rfl⟩ := List.mem_map.mp hL
        exact hrows s hs
      rw [List.length_map] at hlen
      exact hlen.trans (Nat.mul_le_mul_right 5000 query.length_picked)
    have hleft := hshort (fun s =>
      ((x.rows s).map (s.entry db)).take (min 100000 (i * take) + take)) fun s hs => by
      rw [List.length_take, List.length_map]
      exact (min_le_right _ _).trans (hfew' s hs)
    have hright : (mergedLog query x).length ≤ 25000 :=
      hshort (fun s => (x.rows s).map (s.entry db)) fun s hs => by
      rw [List.length_map]
      exact hfew' s hs
    rw [List.map_map, List.drop_eq_nil_of_le (by exact hleft.trans (by omega)),
      List.drop_eq_nil_of_le (by omega)]

/-- The total is the number of matching entries. -/
theorem page_total (x : LogAnswers env db query.filter) (take i dflt : ℕ) :
    (unifiedLog env db (query.page take i) x dflt).total = (matching env db query).length := by
  have hsum : ∀ sources : List LogSource,
      (((sources.map fun s => (s,
        if isActive s query.filter then countOf env db s query.filter else 0)).filter fun c =>
          query.wanted.contains c.1).map Prod.snd).sum =
      ((sources.filter fun s => query.wanted.contains s && isActive s query.filter).map fun s =>
        (matchingRows env db query s).length).sum := by
    intro sources
    induction sources with
    | nil => rfl
    | cons s sources ih =>
        rw [List.map_cons, List.filter_cons, List.filter_cons]
        by_cases hwanted : query.wanted.contains s
        · by_cases hactive : isActive s query.filter
          · simp only [hwanted, hactive, Bool.and_self, if_true, List.map_cons, List.sum_cons, ih]
            rfl
          · simp only [hwanted, hactive, Bool.and_false, if_true, Bool.false_eq_true, if_false,
              List.map_cons, List.sum_cons, ih, zero_add]
        · simp only [hwanted, Bool.false_and, Bool.false_eq_true, if_false, ih]
  rw [matching, List.length_flatMap]
  simp only [List.length_map]
  exact hsum LOG_SOURCES

/-- The pages up to the last matching entry are the merged log when the answers agree on it. -/
theorem pages_eq {answers : ℕ → LogAnswers env db query.filter} (hkeys : db.Keyed)
    (hfew : ∀ s ∈ query.picked, (matchingRows env db query s).length ≤ 5000) {take : ℕ}
    (hpos : 1 ≤ take)
    (htake : take ≤ 5000) (hsame : ∀ i, mergedLog query (answers i) = mergedLog query (answers 0))
    {n : ℕ}
    (hn : (matching env db query).length ≤ n * take) (dflt : ℕ) :
    ((List.range n).flatMap fun i =>
      (unifiedLog env db (query.page take i) (answers i) dflt).items) =
        (mergedLog query (answers 0)).map (patchActor db) := by
  have hitems : ∀ i, (unifiedLog env db (query.page take i) (answers i) dflt).items =
      (((mergedLog query (answers 0)).drop (i * take)).take take).map (patchActor db) := by
    intro i
    rw [page_items (answers i) hkeys hfew hpos htake, hsame i]
  simp only [hitems]
  rw [← List.map_flatMap, flatMap_slices, List.take_of_length_le]
  rw [length_mergedLog]
  exact hn

/-- Without two rows of one time the database has one answer only. -/
theorem mergedLog_unique
    (huntied : ∀ s ∈ query.picked, ((matchingRows env db query s).map s.rowAt).Nodup)
    (x y : LogAnswers env db query.filter) : mergedLog query x = mergedLog query y := by
  refine congrArg (fun Ls => (List.flatten Ls).mergeSort laterFirst)
    (List.map_congr_left fun s hs => ?_)
  have hanti : ∀ a b, a ∈ x.rows s → b ∈ y.rows s → s.rowAt b ≤ s.rowAt a →
      s.rowAt a ≤ s.rowAt b → a = b :=
    fun a b ha hb hab hba =>
      List.inj_on_of_nodup_map (huntied s hs) (x.mem_rows.mp ha) (y.mem_rows.mp hb)
        (le_antisymm hba hab)
  rw [((x.perm s).trans (y.perm s).symm).eq_of_pairwise hanti (x.sorted s) (y.sorted s)]

/-- An answer that the database may give. -/
def LogAnswers.first (env : LogEnv) (db : LogTables) (f : SourceFilter) : LogAnswers env db f where
  rows s := ((db.rows s).filter (s.where' env db f)).mergeSort fun a b => s.rowAt b ≤ s.rowAt a
  perm s := List.mergeSort_perm _ _
  sorted s := by
    refine (List.pairwise_mergeSort (fun a b c hab hbc => ?_) (fun a b => ?_) _).imp fun {a b} h =>
      ?_
    · simp only [decide_eq_true_eq] at hab hbc ⊢
      exact hbc.trans hab
    · simp only [Bool.or_eq_true, decide_eq_true_eq]
      exact le_total _ _
    · simpa using h

/-- What lies behind the window of its source is on no page. -/
theorem few_of_exact (hkeys : db.Keyed) (hexact : PagesExact env db query 1) {s : LogSource}
    (hs : s ∈ query.picked) :
    (matchingRows env db query s).length ≤ 5000 := by
  by_contra hmany
  have hx := LogAnswers.first env db query.filter
  obtain ⟨hperm, -, -⟩ := hexact (fun _ => hx) 0 (matching env db query).length (by omega)
  have hlen : 5000 < (hx.rows s).length := by
    rw [(hx.perm s).length_eq]
    exact Nat.lt_of_not_le hmany
  obtain ⟨r, hr⟩ : ∃ r, (hx.rows s)[5000]? = some r := ⟨_, List.getElem?_eq_getElem hlen⟩
  have hmem := hx.mem_rows.mp (List.mem_of_getElem? hr)
  have hentry : patchActor db (s.entry db r) ∈ matching env db query :=
    List.mem_flatMap.mpr ⟨s, hs, List.mem_map_of_mem hmem⟩
  obtain ⟨i, -, hi⟩ := List.mem_flatMap.mp (hperm.mem_iff.mpr hentry)
  obtain ⟨e, he, heq⟩ := List.mem_map.mp hi
  have hwindow := List.mem_mergeSort.mp (List.mem_of_mem_drop (List.mem_of_mem_take he))
  obtain ⟨s', hs', he'⟩ := List.mem_flatMap.mp hwindow
  obtain ⟨r', hr', rfl⟩ := List.mem_map.mp he'
  have hid := congrArg UnifiedLogEntry.id heq
  rw [patchActor_id, patchActor_id, LogSource.entry_id, LogSource.entry_id] at hid
  obtain ⟨rfl, hrow⟩ := Prod.mk.inj hid
  obtain rfl := hkeys.row_eq (mem_table (hx.mem_rows.mp (List.mem_of_mem_take hr')))
    (mem_table hmem) hrow
  -- the row is the one behind the first 5000, and only once in the list
  obtain ⟨j, hj⟩ := List.mem_iff_getElem?.mp hr'
  rw [List.getElem?_take] at hj
  split at hj
  · next hlt =>
      have hjeq : j = 5000 := (List.getElem?_inj (by omega) (hx.nodup_rows hkeys s')).mp
        (hj.trans hr.symm)
      omega
  · cases hj

/-! ### Rows of one time -/

/-- The answer with two rows of one time in each other's place. -/
def LogAnswers.swapped (x : LogAnswers env db query.filter) (hkeys : db.Keyed) (s : LogSource)
    {r₁ r₂ : s.Row} (h₁ : r₁ ∈ x.rows s) (h₂ : r₂ ∈ x.rows s) (htie : s.rowAt r₁ = s.rowAt r₂) :
    LogAnswers env db query.filter where
  rows := Function.update x.rows s ((x.rows s).map (Equiv.swap r₁ r₂))
  perm s' := by
    by_cases hs : s' = s
    · subst hs
      rw [Function.update_self]
      refine List.Perm.trans ?_ (x.perm s')
      have hnodup := x.nodup_rows hkeys s'
      rw [List.perm_ext_iff_of_nodup (hnodup.map (Equiv.injective _)) hnodup]
      have hswap : ∀ r ∈ x.rows s', Equiv.swap r₁ r₂ r ∈ x.rows s' := by
        intro r hr
        rw [Equiv.swap_apply_def]
        split_ifs
        exacts [h₂, h₁, hr]
      intro r
      rw [List.mem_map]
      constructor
      · rintro ⟨r', hr', rfl⟩
        exact hswap r' hr'
      · exact fun hr => ⟨Equiv.swap r₁ r₂ r, hswap r hr, Equiv.swap_apply_self r₁ r₂ r⟩
    · rw [Function.update_of_ne hs]
      exact x.perm s'
  sorted s' := by
    by_cases hs : s' = s
    · subst hs
      rw [Function.update_self, List.pairwise_map]
      have hsame : ∀ r, s'.rowAt (Equiv.swap r₁ r₂ r) = s'.rowAt r := by
        intro r
        rw [Equiv.swap_apply_def]
        split_ifs with h h
        · rw [h, htie]
        · rw [h, htie]
        · rfl
      refine (x.sorted s').imp fun {a b} h => ?_
      rw [hsame, hsame]
      exact h
    · rw [Function.update_of_ne hs]
      exact x.sorted s'

/-- Two rows of one time change places in the merged log. -/
theorem mergedLog_swapped (x : LogAnswers env db query.filter) (hkeys : db.Keyed) (s : LogSource)
    {r₁ r₂ : s.Row} (h₁ : r₁ ∈ x.rows s) (h₂ : r₂ ∈ x.rows s) (htie : s.rowAt r₁ = s.rowAt r₂) :
    mergedLog query (x.swapped hkeys s h₁ h₂ htie) =
      (mergedLog query x).map (Equiv.swap (s.entry db r₁) (s.entry db r₂)) := by
  have htable : ∀ {s' : LogSource} {r : s'.Row}, r ∈ x.rows s' → r ∈ db.rows s' :=
    fun hr => mem_table (x.mem_rows.mp hr)
  have hentry : ∀ (s' : LogSource) (r : s'.Row) (r' : s.Row), r ∈ x.rows s' → r' ∈ x.rows s →
      s'.entry db r = s.entry db r' → ∃ h : s' = s, h ▸ r = r' := by
    intro s' r r' hr hr' heq
    have hid := congrArg UnifiedLogEntry.id heq
    rw [LogSource.entry_id, LogSource.entry_id] at hid
    obtain ⟨rfl, hrow⟩ := Prod.mk.inj hid
    exact ⟨rfl, hkeys.row_eq (htable hr) (htable hr') hrow⟩
  rw [mergedLog, mergedLog, List.map_mergeSort fun a _ b _ => ?_, List.map_flatten, List.map_map]
  · refine congrArg (fun Ls => (List.flatten Ls).mergeSort laterFirst) (List.map_congr_left fun s' _ => ?_)
    rw [Function.comp_apply]
    by_cases hs : s' = s
    · subst hs
      show ((Function.update x.rows s' _) s').map _ = _
      rw [Function.update_self, List.map_map, List.map_map]
      refine List.map_congr_left fun r hr => ?_
      rw [Function.comp_apply, Function.comp_apply, Equiv.swap_apply_def, Equiv.swap_apply_def]
      have hiff : ∀ r' ∈ x.rows s', (s'.entry db r = s'.entry db r' ↔ r = r') := fun r' hr' =>
        ⟨fun h => (hentry s' r r' hr hr' h).2, fun h => congrArg _ h⟩
      simp only [hiff r₁ h₁, hiff r₂ h₂]
      split_ifs <;> rfl
    · show ((Function.update x.rows s _) s').map _ = _
      rw [Function.update_of_ne hs, List.map_map]
      refine List.map_congr_left fun r hr => ?_
      rw [Function.comp_apply, Equiv.swap_apply_of_ne_of_ne]
      · exact fun h => hs (hentry s' r r₁ hr h₁ h).1
      · exact fun h => hs (hentry s' r r₂ hr h₂ h).1
  · have hsame : ∀ e : UnifiedLogEntry,
    (Equiv.swap (s.entry db r₁) (s.entry db r₂) e).at' = e.at' := by
      intro e
      rw [Equiv.swap_apply_def]
      split_ifs with h h
      · rw [h, LogSource.entry_at, LogSource.entry_at, htie]
      · rw [h, LogSource.entry_at, LogSource.entry_at, htie]
      · rfl
    rw [laterFirst, laterFirst, hsame, hsame]

/-- When the database lists two rows of one time in different orders, one of them is on two pages.
-/
theorem untied_of_exact (hkeys : db.Keyed) (hexact : PagesExact env db query 1)
    (hfew : ∀ s ∈ query.picked, (matchingRows env db query s).length ≤ 5000) {s : LogSource}
    (hs : s ∈ query.picked) :
    ((matchingRows env db query s).map s.rowAt).Nodup := by
  have hx := LogAnswers.first env db query.filter
  -- the entries of two rows of one time, the first of which is listed before the other
  have hno : ∀ (r₁ r₂ : s.Row) (h₁ : r₁ ∈ hx.rows s) (h₂ : r₂ ∈ hx.rows s)
      (htie : s.rowAt r₁ = s.rowAt r₂) (i j : ℕ), i < j →
      (mergedLog query hx)[i]? = some (s.entry db r₁) →
      (mergedLog query hx)[j]? = some (s.entry db r₂) → False := by
    intro r₁ r₂ h₁ h₂ htie i j hij hi hj
    let answers : ℕ → LogAnswers env db query.filter :=
      fun k => if k ≤ i then hx else hx.swapped hkeys s h₁ h₂ htie
    let n := (matching env db query).length
    obtain ⟨hperm, -, -⟩ := hexact answers 0 n (by omega)
    have hmem : ∀ k e, (mergedLog query (answers k))[k]? = some e →
        patchActor db e ∈ (unifiedLog env db (query.page 1 k) (answers k) 0).items := by
      intro k e he
      rw [page_items _ hkeys hfew le_rfl (by omega), mul_one]
      refine List.mem_map_of_mem ?_
      rw [List.take_one, List.head?_drop, he]
      exact List.mem_singleton_self e
    have hi' : patchActor db (s.entry db r₁) ∈
        (unifiedLog env db (query.page 1 i) (answers i) 0).items := by
      refine hmem i _ ?_
      simp only [answers, if_pos le_rfl]
      exact hi
    have hj' : patchActor db (s.entry db r₁) ∈
        (unifiedLog env db (query.page 1 j) (answers j) 0).items := by
      refine hmem j _ ?_
      simp only [answers, if_neg (Nat.not_le.mpr hij)]
      rw [mergedLog_swapped, List.getElem?_map, hj, Option.map_some, Equiv.swap_apply_right]
    have hj_lt : j < n := by
      have hlt := (List.getElem?_eq_some_iff.mp hj).1
      rw [length_mergedLog] at hlt
      exact hlt
    have hnodup := hperm.nodup_iff.mpr ((mergedLog_perm hx).nodup_iff.mp (nodup_patched hx hkeys))
    exact disjoint_slices hnodup hij hj_lt hi' hj'
  refine ((hkeys.nodup s).filter _).map_on fun r₁ h₁ r₂ h₂ htie => ?_
  by_contra hne
  have h₁' := hx.mem_rows.mpr h₁
  have h₂' := hx.mem_rows.mpr h₂
  have hlisted : ∀ r ∈ hx.rows s, ∃ k, (mergedLog query hx)[k]? = some (s.entry db r) := fun r hr =>
    List.mem_iff_getElem?.mp (List.mem_mergeSort.mpr (List.mem_flatten.mpr
      ⟨_, List.mem_map_of_mem hs, List.mem_map_of_mem hr⟩))
  obtain ⟨i, hi⟩ := hlisted r₁ h₁'
  obtain ⟨j, hj⟩ := hlisted r₂ h₂'
  rcases lt_trichotomy i j with hij | rfl | hij
  · exact hno r₁ r₂ h₁' h₂' htie i j hij hi hj
  · have hid := congrArg UnifiedLogEntry.id (Option.some.inj (hi.symm.trans hj))
    rw [LogSource.entry_id, LogSource.entry_id] at hid
    exact hne (hkeys.row_eq (mem_table h₁) (mem_table h₂) (Prod.mk.inj hid).2)
  · exact hno r₂ r₁ h₂' h₁' htie.symm j i hij hj hi

end Merged

variable (env : LogEnv) {db : LogTables}

/-- **Log paging.** The pages of every length list every matching entry exactly once, the latest
first, if and only if every source of the query has at most 5000 matching rows, no two of them of
one time. -/
theorem pages_exact_iff (hkeys : db.Keyed) (query : UnifiedLogQuery) :
    (∀ take, 1 ≤ take → take ≤ 5000 → PagesExact env db query take) ↔
      ∀ s ∈ query.picked, (matchingRows env db query s).length ≤ 5000 ∧
        ((matchingRows env db query s).map s.rowAt).Nodup := by
  constructor
  · intro hexact s hs
    have hone := hexact 1 le_rfl (by omega)
    have hfew := fun s' hs' => few_of_exact hkeys hone (s := s') hs'
    exact ⟨hfew s hs, untied_of_exact hkeys hone hfew hs⟩
  · intro hcond take hpos htake answers dflt n hn
    have hpages := pages_eq hkeys (fun s hs => (hcond s hs).1) hpos htake
      (fun i => mergedLog_unique (fun s hs => (hcond s hs).2) (answers i) (answers 0)) hn dflt
    refine ⟨?_, ?_, fun i => page_total (answers i) take i dflt⟩
    · rw [hpages]
      exact mergedLog_perm (answers 0)
    · rw [hpages]
      exact mergedLog_sorted (answers 0)

/-- A login of admin 1 at a time. -/
def loginRow (id : ℕ) (time : ℤ) : AuditLog :=
  ⟨id, time, some 1, "auth.login", some "owner", none, none⟩

/-- Two logins, at these times. -/
def loginLog (time time' : ℤ) : LogTables :=
  ⟨[loginRow 1 time, loginRow 2 time'], [], [], [], [], Table.empty.set 1 "owner", Table.empty,
    Table.empty⟩

/-- Texts are compared as they are, and no text is a date. -/
def LogEnv.plain : LogEnv :=
  ⟨fun value q => value = q, fun value suffix => value = suffix, fun _ => none⟩

/-- The query for the audit rows. -/
def auditQuery : UnifiedLogQuery := ⟨[.audit], [], "", none, "", "", none, none⟩

theorem loginLog_keyed (time time' : ℤ) : (loginLog time time').Keyed := by
  intro s
  cases s
  all_goals simp [loginLog, LogTables.rows, LogSource.rowId, loginRow]

theorem matchingRows_loginLog (time time' : ℤ) :
    matchingRows .plain (loginLog time time') auditQuery .audit =
    [loginRow 1 time, loginRow 2 time'] := rfl

theorem picked_auditQuery : auditQuery.picked = [.audit] := by decide

/-- With two rows of one time the pages of length 1 are not exact. -/
theorem tied_entry_listed_twice :
    (loginLog 5 5).Keyed ∧ ¬PagesExact .plain (loginLog 5 5) auditQuery 1 := by
  refine ⟨loginLog_keyed 5 5, fun hexact => ?_⟩
  have hfew : ∀ s ∈ auditQuery.picked,
      (matchingRows .plain (loginLog 5 5) auditQuery s).length ≤ 5000 := by
    rw [picked_auditQuery]
    rintro s hs
    obtain rfl := List.mem_singleton.mp hs
    rw [matchingRows_loginLog]
    simp
  have huntied := untied_of_exact (loginLog_keyed 5 5) hexact hfew (s := .audit) (by decide)
  rw [matchingRows_loginLog] at huntied
  simp [LogSource.rowAt, loginRow] at huntied

theorem pages_exact_iff_untied : PagesExact .plain (loginLog 5 9) auditQuery 2 := by
  refine (pages_exact_iff .plain (loginLog_keyed 5 9) auditQuery).mpr ?_ 2 (by omega) (by omega)
  rw [picked_auditQuery]
  intro s hs
  obtain rfl := List.mem_singleton.mp hs
  rw [matchingRows_loginLog]
  simp [LogSource.rowAt, loginRow]

end SRPanel
