import Mathlib.Algebra.BigOperators.Group.List.Basic
import Mathlib.Data.List.Dedup
import Mathlib.Data.List.Induction

/-!
# Grouping a list by a key

`grouped key xs` puts the elements of a list into groups of one key each, in the order in which the
keys occur first. A sum over the list is the sum of the sums over its groups.
-/

namespace Grouping

variable {α κ : Type} [DecidableEq κ]

/-- Put an element into the group of its key, or at the end as one of its own. -/
def place (key : α → κ) (x : α) : List (List α) → List (List α)
  | [] => [[x]]
  | g :: gs => if g.any fun y => key y = key x then (g ++ [x]) :: gs else g :: place key x gs

/-- The elements in groups of one key each. -/
def grouped (key : α → κ) (xs : List α) : List (List α) := xs.foldl (fun gs x => place key x gs) []

/-- The elements with a key. -/
def ofKey (key : α → κ) (xs : List α) (k : κ) : List α := xs.filter fun x => key x = k

variable {key : α → κ}

theorem mem_ofKey {xs : List α} {k : κ} {x : α} : x ∈ ofKey key xs k ↔ x ∈ xs ∧ key x = k := by
  simp [ofKey]

theorem ofKey_append (xs : List α) (x : α) (k : κ) :
    ofKey key (xs ++ [x]) k = if key x = k then ofKey key xs k ++ [x] else ofKey key xs k := by
  unfold ofKey
  rw [List.filter_append, List.filter_singleton]
  split
  · next h => simp [h]
  · next h => simp [h]

/-- An element joins the group of its key, or starts a group if no element has had its key. -/
theorem place_map (xs : List α) (x : α) {ks : List κ} (hks : ks.Nodup)
    (hne : ∀ k ∈ ks, ∃ y ∈ xs, key y = k) (hx : key x ∉ ks → ∀ y ∈ xs, key y ≠ key x) :
    place key x (ks.map (ofKey key xs)) =
      (if key x ∈ ks then ks else ks ++ [key x]).map (ofKey key (xs ++ [x])) := by
  induction ks with
  | nil =>
      have hnone : ofKey key xs (key x) = [] := by
        rw [ofKey, List.filter_eq_nil_iff]
        intro y hy hkey
        exact hx List.not_mem_nil y hy (by simpa using hkey)
      rw [if_neg List.not_mem_nil, List.nil_append, List.map_singleton, ofKey_append,
        if_pos rfl, hnone]
      rfl
  | cons k ks ih =>
      obtain ⟨hk, hks⟩ := List.nodup_cons.mp hks
      obtain ⟨y, hy, hkey⟩ := hne k List.mem_cons_self
      have hany : ((ofKey key xs k).any fun y => key y = key x) = decide (k = key x) := by
        rw [Bool.eq_iff_iff, List.any_eq_true, decide_eq_true_eq]
        constructor
        · rintro ⟨z, hz, hzx⟩
          rw [← (mem_ofKey.mp hz).2]
          simpa using hzx
        · rintro rfl
          exact ⟨y, mem_ofKey.mpr ⟨hy, hkey⟩, by simpa using hkey⟩
      rw [List.map_cons, place, hany]
      by_cases hjoin : k = key x
      · subst hjoin
        rw [if_pos (by simp), if_pos List.mem_cons_self, List.map_cons, ofKey_append, if_pos rfl]
        refine congrArg (List.cons _) (List.map_congr_left fun k' hk' => ?_)
        rw [ofKey_append, if_neg]
        rintro rfl
        exact hk hk'
      · have htail : key x ∉ ks → ∀ y ∈ xs, key y ≠ key x := fun hmem =>
          hx (by simp [hmem, Ne.symm hjoin])
        have hhead : ofKey key (xs ++ [x]) k = ofKey key xs k :=
          by rw [ofKey_append, if_neg (Ne.symm hjoin)]
        rw [if_neg (by simp [hjoin]),
          ih hks (fun k' hk' => hne k' (List.mem_cons_of_mem k hk')) htail]
        by_cases hmem : key x ∈ ks
        · rw [if_pos hmem, if_pos (List.mem_cons_of_mem k hmem), List.map_cons, hhead]
        · rw [if_neg hmem, if_neg (by simp [hmem, Ne.symm hjoin]), List.cons_append,
          List.map_cons, hhead]

/-- The groups of a list, by their keys. -/
theorem grouped_eq (key : α → κ) (xs : List α) :
    ∃ ks : List κ, ks.Nodup ∧ (∀ k, k ∈ ks ↔ ∃ x ∈ xs, key x = k) ∧ grouped key xs =
    ks.map (ofKey key xs) := by
  induction xs using List.reverseRecOn with
  | nil => exact ⟨[], List.nodup_nil, by simp, rfl⟩
  | append_singleton xs x ih =>
      obtain ⟨ks, hks, hmem, heq⟩ := ih
      have hplace : place key x (ks.map (ofKey key xs)) =
          (if key x ∈ ks then ks else ks ++ [key x]).map (ofKey key (xs ++ [x])) :=
        place_map xs x hks (fun k hk => (hmem k).mp hk) fun hx y hy heq =>
          hx ((hmem _).mpr ⟨y, hy, heq⟩)
      refine ⟨if key x ∈ ks then ks else ks ++ [key x], ?_, fun k => ?_, ?_⟩
      · split
        · exact hks
        · next hx =>
            rw [List.nodup_append]
            refine ⟨hks, List.nodup_singleton _, ?_⟩
            rintro k hk _ hx' rfl
            exact hx (List.mem_singleton.mp hx' ▸ hk)
      · have hiff : (∃ y ∈ xs ++ [x], key y = k) ↔ k ∈ ks ∨ key x = k := by
          rw [hmem]
          simp [or_and_right, exists_or]
        rw [hiff]
        split
        · next hx =>
            refine ⟨.inl, ?_⟩
            rintro (h | rfl)
            · exact h
            · exact hx
        · rw [List.mem_append, List.mem_singleton, eq_comm (a := k)]
      · rw [grouped, List.foldl_append, List.foldl_cons, List.foldl_nil, ← hplace, ← heq]
        rfl

variable {xs : List α} {g : List α} {x y : α}

/-- A group is not empty, and its elements are those with its key. -/
theorem mem_grouped (hg : g ∈ grouped key xs) : g ≠ [] ∧ ∃ k, g = ofKey key xs k := by
  obtain ⟨ks, -, hmem, heq⟩ := grouped_eq key xs
  rw [heq] at hg
  obtain ⟨k, hk, rfl⟩ := List.mem_map.mp hg
  obtain ⟨x, hx, hkey⟩ := (hmem k).mp hk
  exact ⟨List.ne_nil_of_mem (mem_ofKey.mpr ⟨hx, hkey⟩), k, rfl⟩

/-- The elements of a group have one key. -/
theorem key_eq_of_mem (hg : g ∈ grouped key xs) (hx : x ∈ g) (hy : y ∈ g) : key x = key y := by
  obtain ⟨-, k, rfl⟩ := mem_grouped hg
  rw [(mem_ofKey.mp hx).2, (mem_ofKey.mp hy).2]

theorem mem_of_mem_grouped (hg : g ∈ grouped key xs) (hx : x ∈ g) : x ∈ xs := by
  obtain ⟨-, k, rfl⟩ := mem_grouped hg
  exact (mem_ofKey.mp hx).1

/-- The elements of different groups have different keys. -/
theorem grouped_pairwise (key : α → κ) (xs : List α) :
    (grouped key xs).Pairwise fun g g' => ∀ x ∈ g, ∀ y ∈ g', key x ≠ key y := by
  obtain ⟨ks, hks, -, heq⟩ := grouped_eq key xs
  rw [heq, List.pairwise_map]
  refine hks.imp fun hne x hx y hy hkey => hne ?_
  rw [← (mem_ofKey.mp hx).2, ← (mem_ofKey.mp hy).2, hkey]

theorem flatten_place_perm (key : α → κ) (x : α) (gs : List (List α)) :
    (place key x gs).flatten.Perm (x :: gs.flatten) := by
  induction gs with
  | nil => exact List.Perm.refl _
  | cons g gs ih =>
      rw [place]
      split
      · rw [List.flatten_cons, List.flatten_cons, List.append_assoc]
        exact List.perm_middle
      · rw [List.flatten_cons, List.flatten_cons]
        exact (ih.append_left g).trans List.perm_middle

/-- Together the groups are the list in another order. -/
theorem flatten_grouped_perm (key : α → κ) (xs : List α) : (grouped key xs).flatten.Perm xs := by
  induction xs using List.reverseRecOn with
  | nil => exact List.Perm.refl _
  | append_singleton xs x ih =>
      have hlast : grouped key (xs ++ [x]) = place key x (grouped key xs) := by
        rw [grouped, List.foldl_append, List.foldl_cons, List.foldl_nil]
        rfl
      rw [hlast]
      exact (flatten_place_perm key x _).trans
        ((ih.cons x).trans (List.perm_append_singleton x xs).symm)

/-- A sum over the elements that satisfy a condition. -/
theorem sum_filter {M : Type} [AddCommMonoid M] (p : α → Prop) [DecidablePred p] (f : α → M)
    (xs : List α) : ((xs.filter fun x => p x).map f).sum =
    (xs.map fun x => if p x then f x else 0).sum := by
  induction xs with
  | nil => rfl
  | cons x xs ih =>
      rw [List.filter_cons, List.map_cons, List.sum_cons, ← ih]
      by_cases hx : p x
      · simp [hx]
      · simp [hx]

/-- A sum by groups. -/
theorem sum_ofKey {M : Type} [AddCommMonoid M] (f : α → M) (xs : List α) {ks : List κ}
    (hks : ks.Nodup) (hall : ∀ x ∈ xs, key x ∈ ks) :
    (ks.map fun k => ((ofKey key xs k).map f).sum).sum = (xs.map f).sum := by
  induction xs with
  | nil => simp [ofKey]
  | cons x xs ih =>
      have hstep : ∀ k, ((ofKey key (x :: xs) k).map f).sum =
          (if k = key x then f x else 0) + ((ofKey key xs k).map f).sum := by
        intro k
        unfold ofKey
        rw [List.filter_cons]
        by_cases hk : key x = k
        · simp [hk]
        · simp [hk, Ne.symm hk]
      have hone : (ks.map fun k => if k = key x then f x else 0).sum = f x := by
        rw [List.sum_map_eq_nsmul_single (key x) _ fun k hk _ => if_neg hk,
          List.count_eq_one_of_mem hks (hall x List.mem_cons_self), if_pos rfl, one_nsmul]
      simp only [hstep]
      rw [List.sum_map_add, hone, ih fun y hy => hall y (List.mem_cons_of_mem x hy), List.map_cons,
        List.sum_cons]

end Grouping
