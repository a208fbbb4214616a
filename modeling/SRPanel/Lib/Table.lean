import Mathlib.Data.List.AList
import Mathlib.Algebra.BigOperators.Group.List.Basic

/-!
# Keyed tables

A `Table` is a finite map with the operations that a database client uses: read a row by its key,
put a row, change the rows that are there, and list all rows. It is Mathlib's `AList` at a constant
row type.
-/

/-- A finite table of rows `ρ` under distinct keys `κ`. -/
structure Table (κ ρ : Type) where
  alist : AList fun _ : κ => ρ

namespace Table

variable {κ ρ : Type} [DecidableEq κ]

instance : Inhabited (Table κ ρ) := ⟨⟨∅⟩⟩

instance [DecidableEq ρ] : DecidableEq (Table κ ρ) := fun t t' =>
  decidable_of_iff (t.alist.entries = t'.alist.entries)
    ⟨fun h => congrArg Table.mk (AList.ext h), fun h => congrArg (fun t => t.alist.entries) h⟩

/-- The table without rows. -/
def empty : Table κ ρ := ⟨∅⟩

/-- The row under key `k`. -/
def get? (t : Table κ ρ) (k : κ) : Option ρ := t.alist.lookup k

/-- Put row `r` under key `k`. -/
def set (t : Table κ ρ) (k : κ) (r : ρ) : Table κ ρ := ⟨t.alist.insert k r⟩

/-- Remove the row under key `k`. -/
def erase (t : Table κ ρ) (k : κ) : Table κ ρ := ⟨t.alist.erase k⟩

/-- Change every row by `f`. -/
def mapRows (t : Table κ ρ) (f : κ → ρ → ρ) : Table κ ρ :=
  ⟨⟨t.alist.entries.map (.map id f), t.alist.nodupKeys.map₂ f⟩⟩

/-- Change the row under key `k`, if there is one. -/
def modify (t : Table κ ρ) (k : κ) (f : ρ → ρ) : Table κ ρ :=
  t.mapRows fun k' r => if k' = k then f r else r

/-- Remove the rows whose keys do not satisfy `p`. -/
def keep (t : Table κ ρ) (p : κ → Bool) : Table κ ρ :=
  ⟨⟨t.alist.entries.filter fun e => p e.1, t.alist.nodupKeys.sublist List.filter_sublist⟩⟩

/-- All rows with their keys. -/
def rows (t : Table κ ρ) : List (κ × ρ) := t.alist.entries.map fun e => (e.1, e.2)

/-- A table with the given rows, of which the first wins under each key. -/
def ofRows (l : List (κ × ρ)) : Table κ ρ := l.foldr (fun e t => t.set e.1 e.2) empty

@[simp] theorem get?_empty (k : κ) : (empty : Table κ ρ).get? k = none :=
  AList.lookup_empty k

@[simp] theorem get?_set_self (t : Table κ ρ) (k : κ) (r : ρ) : (t.set k r).get? k = some r :=
  AList.lookup_insert _

theorem get?_set_of_ne (t : Table κ ρ) {k k' : κ} (r : ρ) (h : k' ≠ k) :
    (t.set k r).get? k' = t.get? k' :=
  AList.lookup_insert_ne h

theorem get?_set (t : Table κ ρ) (k k' : κ) (r : ρ) :
    (t.set k r).get? k' = if k' = k then some r else t.get? k' := by
  split
  · next h => rw [h, get?_set_self]
  · next h => exact t.get?_set_of_ne r h

theorem get?_erase (t : Table κ ρ) (k k' : κ) :
    (t.erase k).get? k' = if k' = k then none else t.get? k' := by
  split
  · next h => rw [h]; exact AList.lookup_erase k t.alist
  · next h => exact AList.lookup_erase_ne h

/-- There is nothing to erase. -/
theorem erase_of_get?_none (t : Table κ ρ) {k : κ} (h : t.get? k = none) : t.erase k = t := by
  have hkey : k ∉ t.alist.keys := AList.lookup_eq_none.mp h
  have halist : t.alist.erase k = t.alist := AList.ext (List.kerase_of_notMem_keys hkey)
  unfold erase
  rw [halist]

theorem erase_erase_self (t : Table κ ρ) (k : κ) : (t.erase k).erase k = t.erase k := by
  refine congrArg Table.mk (AList.ext ?_)
  exact List.kerase_of_notMem_keys (List.notMem_keys_kerase k t.alist.nodupKeys)

@[simp] theorem get?_mapRows (t : Table κ ρ) (f : κ → ρ → ρ) (k : κ) :
    (t.mapRows f).get? k = (t.get? k).map (f k) :=
  List.dlookup_map₂ k

omit [DecidableEq κ] in
theorem mapRows_mapRows (t : Table κ ρ) (f g : κ → ρ → ρ) :
    (t.mapRows f).mapRows g = t.mapRows fun k r => g k (f k r) := by
  obtain ⟨t⟩ := t
  refine congrArg Table.mk (AList.ext ?_)
  show (t.entries.map _).map _ = t.entries.map _
  rw [List.map_map]
  rfl

omit [DecidableEq κ] in
theorem mapRows_self (t : Table κ ρ) : (t.mapRows fun _ r => r) = t := by
  obtain ⟨t⟩ := t
  exact congrArg Table.mk (AList.ext (List.map_id _))

/-- A change that `g` does not see. -/
theorem mapRows_modify (t : Table κ ρ) (k : κ) (f : ρ → ρ) (g : κ → ρ → ρ)
    (h : ∀ r, g k (f r) = g k r) : (t.modify k f).mapRows g = t.mapRows g := by
  rw [modify, mapRows_mapRows]
  congr 1
  funext k' r
  split
  · next hk => rw [hk, h]
  · rfl

omit [DecidableEq κ] in
@[simp] theorem rows_mapRows (t : Table κ ρ) (f : κ → ρ → ρ) :
    (t.mapRows f).rows = t.rows.map fun r => (r.1, f r.1 r.2) := by
  show (t.alist.entries.map _).map _ = (t.alist.entries.map _).map _
  rw [List.map_map, List.map_map]
  rfl

omit [DecidableEq κ] in
/-- Tables that `f` does not tell apart give the same selection of what `f` leaves alone. -/
theorem filter_map_of_mapRows_eq {β : Type} {t t' : Table κ ρ} {f : κ → ρ → ρ}
    (h : t'.mapRows f = t.mapRows f) (p : κ × ρ → Bool) (g : κ × ρ → β)
    (hp : ∀ r : κ × ρ, p (r.1, f r.1 r.2) = p r) (hg : ∀ r : κ × ρ, g (r.1, f r.1 r.2) = g r) :
    (t'.rows.filter p).map g = (t.rows.filter p).map g := by
  have aux : ∀ l : List (κ × ρ),
      (l.filter p).map g = ((l.map fun r => (r.1, f r.1 r.2)).filter p).map g := by
    intro l
    rw [List.filter_map, List.map_map]
    have hp' : (p ∘ fun r : κ × ρ => (r.1, f r.1 r.2)) = p := funext hp
    have hg' : (g ∘ fun r : κ × ρ => (r.1, f r.1 r.2)) = g := funext hg
    rw [hp', hg']
  have hrows := congrArg rows h
  rw [rows_mapRows, rows_mapRows] at hrows
  rw [aux, hrows, ← aux]

theorem get?_modify (t : Table κ ρ) (k k' : κ) (f : ρ → ρ) :
    (t.modify k f).get? k' = if k' = k then (t.get? k').map f else t.get? k' := by
  rw [modify, get?_mapRows]
  split
  · rfl
  · cases t.get? k' <;> rfl

@[simp] theorem get?_modify_self (t : Table κ ρ) (k : κ) (f : ρ → ρ) :
    (t.modify k f).get? k = (t.get? k).map f := by
  rw [get?_modify, if_pos rfl]

theorem get?_modify_of_ne (t : Table κ ρ) {k k' : κ} (f : ρ → ρ) (h : k' ≠ k) :
    (t.modify k f).get? k' = t.get? k' := by
  rw [get?_modify, if_neg h]

/-- Modifying a row neither creates nor deletes one. -/
theorem isSome_modify (t : Table κ ρ) (k : κ) (f : ρ → ρ) (k' : κ) :
    ((t.modify k f).get? k').isSome = (t.get? k').isSome := by
  rw [get?_modify]
  split
  · next hk => rw [Option.isSome_map, hk]
  · rfl

/-- What a new row has in common with the old one, no read sees changed. -/
theorem map_get?_modify {β : Type} (t : Table κ ρ) {k : κ} {r r' : ρ} (g : ρ → β)
    (hr : t.get? k = some r) (h : g r' = g r) (k' : κ) :
    ((t.modify k fun _ => r').get? k').map g = (t.get? k').map g := by
  rw [get?_modify]
  split
  · next hk => rw [hk, hr, Option.map_some, Option.map_some, Option.map_some, h]
  · rfl

/-- The listed rows are the ones that a read by key finds. -/
theorem mem_rows_iff (t : Table κ ρ) (k : κ) (r : ρ) : (k, r) ∈ t.rows ↔ t.get? k = some r := by
  rw [get?, ← Option.mem_def, AList.mem_lookup_iff, rows, List.mem_map]
  constructor
  · rintro ⟨⟨k', r'⟩, hmem, heq⟩
    obtain ⟨rfl, rfl⟩ : k' = k ∧ r' = r := by simpa using heq
    exact hmem
  · exact fun h => ⟨⟨k, r⟩, h, rfl⟩

theorem get?_keep (t : Table κ ρ) (p : κ → Bool) (k : κ) :
    (t.keep p).get? k = if p k then t.get? k else none := by
  have hmem : ∀ r, (t.keep p).get? k = some r ↔ p k = true ∧ t.get? k = some r := by
    intro r
    rw [get?, ← Option.mem_def, AList.mem_lookup_iff, keep, List.mem_filter, and_comm, get?,
      ← Option.mem_def (a := r), AList.mem_lookup_iff]
  refine Option.ext fun r => ?_
  rw [hmem r]
  split
  · next h => simp [h]
  · next h => simp [h]

omit [DecidableEq κ] in
/-- No key is listed twice. -/
theorem nodup_keys (t : Table κ ρ) : (t.rows.map Prod.fst).Nodup := by
  have h : t.rows.map Prod.fst = t.alist.keys := by
    simp [rows, AList.keys, List.keys, Function.comp_def]
  rw [h]
  exact t.alist.keys_nodup

/-- Tables that agree on the selected keys list the same rows for them. -/
theorem filter_perm_of_get? {t t' : Table κ ρ} {p : κ → Bool}
    (h : ∀ k, p k → t'.get? k = t.get? k) :
    (t'.rows.filter fun r => p r.1).Perm (t.rows.filter fun r => p r.1) := by
  classical
  refine (List.perm_ext_iff_of_nodup ((List.Nodup.of_map Prod.fst t'.nodup_keys).filter _)
    ((List.Nodup.of_map Prod.fst t.nodup_keys).filter _)).mpr fun r => ?_
  rw [List.mem_filter, List.mem_filter, t'.mem_rows_iff, t.mem_rows_iff]
  exact and_congr_left fun hp => by rw [h r.1 hp]

/-- The selected rows are one of them and the others. -/
theorem filter_perm_cons (t : Table κ ρ) {k : κ} {r : ρ} (hr : t.get? k = some r) (p : κ × ρ → Bool)
    (hp : p (k, r)) :
    (t.rows.filter p).Perm ((k, r) :: t.rows.filter fun e => p e && decide (e.1 ≠ k)) := by
  classical
  have hnodup : t.rows.Nodup := List.Nodup.of_map Prod.fst t.nodup_keys
  have hmem : (k, r) ∈ t.rows := (t.mem_rows_iff k r).mpr hr
  refine (List.perm_cons_erase (List.mem_filter.mpr ⟨hmem, hp⟩)).trans (List.Perm.of_eq ?_)
  rw [(hnodup.filter p).erase_eq_filter, List.filter_filter]
  congr 1
  refine List.filter_congr fun e he => ?_
  -- a row under the same key is the same row
  have hiff : e = (k, r) ↔ e.1 = k :=
    ⟨fun h => by rw [h], fun h => List.inj_on_of_nodup_map t.nodup_keys he hmem h⟩
  by_cases hk : e.1 = k
  · have heq := hiff.mpr hk
    subst heq
    simp
  · have hne : e ≠ (k, r) := fun h => hk (hiff.mp h)
    simp [hk, hne, Bool.and_comm]

/-- Of tables that agree but for one key, the selected rows under the other keys are the same. -/
theorem filter_others_perm {t t' : Table κ ρ} {k : κ} (h : ∀ k', k' ≠ k → t'.get? k' = t.get? k')
    (p : κ × ρ → Bool) : (t'.rows.filter fun e => p e && decide (e.1 ≠ k)).Perm
      (t.rows.filter fun e => p e && decide (e.1 ≠ k)) := by
  have hagree : ∀ k', decide (k' ≠ k) = true → t'.get? k' = t.get? k' :=
    fun k' hk' => h k' (of_decide_eq_true hk')
  have hperm := (filter_perm_of_get? hagree).filter p
  rw [List.filter_filter, List.filter_filter] at hperm
  exact hperm

/-- The selected rows of a table in which one row has been put. -/
theorem filter_perm_of_agree {t t' : Table κ ρ} {k : κ} {r : ρ}
    (h : ∀ k', k' ≠ k → t'.get? k' = t.get? k') (hr : t'.get? k = some r) (p : κ × ρ → Bool)
    (hp : p (k, r)) :
    (t'.rows.filter p).Perm ((k, r) :: t.rows.filter fun e => p e && decide (e.1 ≠ k)) :=
  (filter_perm_cons t' hr p hp).trans ((filter_others_perm h p).cons _)

/-- Of tables that agree but for one key, the selected rows are as many, up to the row under that
key. -/
theorem length_filter_of_agree {t t' : Table κ ρ} {k : κ}
    (h : ∀ k', k' ≠ k → t'.get? k' = t.get? k') (p : κ × ρ → Bool) :
    (t'.rows.filter p).length = (t.rows.filter fun e => p e && decide (e.1 ≠ k)).length +
      if (t'.get? k).any fun r => p (k, r) then 1 else 0 := by
  have hothers : (t'.rows.filter fun e => p e && decide (e.1 ≠ k)).length =
      (t.rows.filter fun e => p e && decide (e.1 ≠ k)).length := (filter_others_perm h p).length_eq
  rw [← hothers]
  have hout : (∀ r, t'.get? k = some r → p (k, r) = false) →
      t'.rows.filter p = t'.rows.filter fun e => p e && decide (e.1 ≠ k) := by
    refine fun hno => List.filter_congr fun e he => ?_
    by_cases hk : e.1 = k
    · have hget := (t'.mem_rows_iff e.1 e.2).mp he
      rw [hk] at hget
      have hp : p e = false := by
        rw [← hno e.2 hget, ← hk]
      rw [hp, Bool.false_and]
    · rw [decide_eq_true hk, Bool.and_true]
  cases hget : t'.get? k with
  | none =>
      rw [hout fun r hr => by rw [hget] at hr; cases hr]
      rfl
  | some r =>
      by_cases hp : p (k, r) = true
      · rw [(filter_perm_cons t' hget p hp).length_eq, List.length_cons, if_pos (by simpa using hp)]
      · rw [hout fun r' hr' => by
          rw [hget] at hr'
          rw [← Option.some.inj hr']
          exact Bool.eq_false_iff.mpr hp, if_neg (by simpa using hp), Nat.add_zero]

/-- The sum of a table of sums, after something has been added under a key. -/
theorem sum_rows_add {M : Type} [AddCommMonoid M] (t : Table κ M) (k : κ) (x : M) :
    ((t.set k ((t.get? k).getD 0 + x)).rows.map Prod.snd).sum = (t.rows.map Prod.snd).sum + x := by
  have hothers : ((t.set k ((t.get? k).getD 0 + x)).rows.filter fun e =>
      true && decide (e.1 ≠ k)).Perm (t.rows.filter fun e => decide (e.1 ≠ k)) := by
    simp only [Bool.true_and]
    exact filter_perm_of_get? (p := fun k' => decide (k' ≠ k)) fun k' hk' =>
      t.get?_set_of_ne _ (of_decide_eq_true hk')
  have hset := filter_perm_cons _ (t.get?_set_self k ((t.get? k).getD 0 + x)) (fun _ => true) rfl
  rw [List.filter_true] at hset
  rw [((hset.trans (hothers.cons _)).map Prod.snd).sum_eq, List.map_cons, List.sum_cons]
  cases hk : t.get? k with
  | none =>
      have hall : (t.rows.filter fun e => decide (e.1 ≠ k)) = t.rows := by
        refine List.filter_eq_self.mpr fun e he => decide_eq_true ?_
        rintro rfl
        rw [(t.mem_rows_iff e.1 e.2).mp he] at hk
        cases hk
      rw [hall, Option.getD_none, zero_add, add_comm]
  | some r =>
      have hrows := filter_perm_cons t hk (fun _ => true) rfl
      simp only [List.filter_true, Bool.true_and] at hrows
      rw [(hrows.map Prod.snd).sum_eq, List.map_cons, List.sum_cons, Option.getD_some,
        add_right_comm]

end Table
