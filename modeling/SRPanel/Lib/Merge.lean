import Mathlib.Data.List.Dedup
import Mathlib.Data.List.Flatten
import Mathlib.Data.List.Nodup
import Mathlib.Data.List.Sublists

/-!
# Merging prefixes of sorted lists

Several sorted lists are put one after the other and sorted stably. The first `k` elements of the
result depend on the first `k` elements of each list only, and slices of length `take` of any list
add up to a prefix of it.
-/

namespace Merging

variable {α : Type}

/-- In a list without repetitions no two elements come in both orders. -/
theorem not_both_orders {a b : α} {l : List α} (hl : l.Nodup) (hab : [a, b].Sublist l)
    (hba : [b, a].Sublist l) : False := by
  induction l with
  | nil => cases hab
  | cons x xs ih =>
      obtain ⟨hx, hxs⟩ := List.nodup_cons.mp hl
      cases hab with
      | cons _ hab' =>
          cases hba with
          | cons _ hba' => exact ih hxs hab' hba'
          | cons_cons _ ha => exact hx (hab'.subset (List.mem_cons_of_mem _ List.mem_cons_self))
      | cons_cons _ hb =>
          cases hba with
          | cons _ hba' => exact hx (hba'.subset (List.mem_cons_of_mem _ List.mem_cons_self))
          | cons_cons _ ha => exact hx (ha.subset List.mem_cons_self)

/-- Two elements of a list in the order in which they come. -/
theorem pair_order {a b : α} {l : List α} (ha : a ∈ l) (hb : b ∈ l) (hne : a ≠ b) :
    [a, b].Sublist l ∨ [b, a].Sublist l := by
  induction l with
  | nil => cases ha
  | cons x xs ih =>
      rcases List.mem_cons.mp ha with rfl | hax
      · rcases List.mem_cons.mp hb with rfl | hbx
        · exact absurd rfl hne
        · exact .inl ((List.singleton_sublist.mpr hbx).cons_cons a)
      · rcases List.mem_cons.mp hb with rfl | hbx
        · exact .inr ((List.singleton_sublist.mpr hax).cons_cons b)
        · exact (ih hax hbx).imp (List.Sublist.cons x) (List.Sublist.cons x)

/-- What comes before `a` in a part of a list comes before it in the list. -/
theorem sublist_of_middle {a : α} {X A B : List α} (hl : (A ++ a :: B).Nodup)
    (h : (X ++ [a]).Sublist (A ++ a :: B)) : X.Sublist A := by
  induction A generalizing X with
  | nil =>
      have haB : a ∉ B := (List.nodup_cons.mp hl).1
      cases X with
      | nil => exact List.nil_sublist _
      | cons x X =>
          cases h with
          | cons _ h => exact absurd (h.subset (by simp)) haB
          | cons_cons _ h => exact absurd (h.subset (by simp)) haB
  | cons y A ih =>
      cases X with
      | nil => exact List.nil_sublist _
      | cons x X =>
          cases h with
          | cons _ h => exact (ih (List.nodup_cons.mp hl).2 h).cons y
          | cons_cons _ h => exact (ih (List.nodup_cons.mp hl).2 h).cons_cons _

section Sorted

variable {le : α → α → Bool} (trans : ∀ a b c : α, le a b → le b c → le a c)
  (total : ∀ a b : α, le a b || le b a)

/-- `a` comes before `b` when `l` is sorted stably. -/
def Before (le : α → α → Bool) (l : List α) (a b : α) : Prop := le a b ∧ (le b a → [a, b].Sublist l)

include trans total

/-- A stable sort keeps the order of what it does not tell apart. -/
theorem pairwise_before {l W : List α} (hl : l.Nodup) (hW : W.Sublist l) :
    (W.mergeSort le).Pairwise (Before le l) := by
  have hnodup : (W.mergeSort le).Nodup := (List.mergeSort_perm W le).nodup_iff.mpr (hl.sublist hW)
  rw [List.pairwise_iff_forall_sublist]
  intro a b hab
  have hle : le a b := List.pairwise_iff_forall_sublist.mp
    (List.pairwise_mergeSort trans total W) hab
  have ha : a ∈ W := List.mem_mergeSort.mp (hab.subset List.mem_cons_self)
  have hb : b ∈ W := List.mem_mergeSort.mp (hab.subset (List.mem_cons_of_mem _ List.mem_cons_self))
  have hne : a ≠ b := by
    have hpair := hnodup.sublist hab
    simpa using hpair
  refine ⟨hle, fun hba => ?_⟩
  rcases pair_order ha hb hne with h | h
  · exact h.trans hW
  · exact (not_both_orders hnodup hab (List.pair_sublist_mergeSort trans total hba h)).elim

/-- Sorting a part of a list picks this part out of the sorted list. -/
theorem mergeSort_part [DecidableEq α] {l W : List α} (hl : l.Nodup) (hW : W.Sublist l) :
    W.mergeSort le = (l.mergeSort le).filter (· ∈ W) := by
  have hnodup : ((l.mergeSort le).filter (· ∈ W)).Nodup :=
    ((List.mergeSort_perm l le).nodup_iff.mpr hl).filter _
  have hperm : (W.mergeSort le).Perm ((l.mergeSort le).filter (· ∈ W)) := by
    rw [List.perm_ext_iff_of_nodup
      ((List.mergeSort_perm W le).nodup_iff.mpr (hl.sublist hW)) hnodup]
    intro a
    simp only [List.mem_mergeSort, List.mem_filter, decide_eq_true_eq]
    exact ⟨fun ha => ⟨hW.subset ha, ha⟩, fun ha => ha.2⟩
  have hanti : ∀ a b, a ∈ W.mergeSort le → b ∈ (l.mergeSort le).filter (· ∈ W) → Before le l a b →
      Before le l b a → a = b := fun a b _ _ hab hba =>
    (not_both_orders hl (hab.2 hba.1) (hba.2 hab.1)).elim
  exact hperm.eq_of_pairwise hanti (pairwise_before trans total hl hW)
    ((pairwise_before trans total hl (List.Sublist.refl l)).sublist List.filter_sublist)

/-- What is among the first `k` of the sorted list is among the first `k` of its own sorted list. -/
theorem mem_take_of_mem_take {L l : List α} (hl : l.Nodup) (hL : L.Sublist l)
    (hsorted : L.Pairwise fun a b => le a b)
    {k : ℕ} {a : α} (haL : a ∈ L) (ha : a ∈ (l.mergeSort le).take k) : a ∈ L.take k := by
  by_contra hnot
  have hdrop : a ∈ L.drop k := by
    rw [← List.take_append_drop k L, List.mem_append] at haL
    exact haL.resolve_left hnot
  -- the first `k` elements of `L` and then `a` come in this order in the sorted list
  have hpart : (L.take k ++ [a]).Sublist L := by
    conv => rhs; rw [← List.take_append_drop k L]
    exact (List.Sublist.refl _).append (List.singleton_sublist.mpr hdrop)
  have hsub : (L.take k ++ [a]).Sublist (l.mergeSort le) :=
    List.sublist_mergeSort trans total (hsorted.sublist hpart) (hpart.trans hL)
  obtain ⟨A, B, hAB⟩ := List.append_of_mem ha
  have hS : l.mergeSort le = A ++ a :: (B ++ (l.mergeSort le).drop k) := by
    conv => lhs; rw [← List.take_append_drop k (l.mergeSort le), hAB]
    simp
  have hnodup : (l.mergeSort le).Nodup := (List.mergeSort_perm l le).nodup_iff.mpr hl
  have hlen : A.length < k := by
    have h := congrArg List.length hAB
    rw [List.length_append, List.length_cons, List.length_take] at h
    omega
  have hLlen : k ≤ (L.take k).length := by
    rw [List.length_take]
    have h := List.length_pos_of_mem hdrop
    rw [List.length_drop] at h
    omega
  rw [hS] at hsub hnodup
  exact absurd (sublist_of_middle hnodup hsub).length_le (by omega)

/-- The first `k` of the sorted lists together are the first `k` of their first `k`. -/
theorem take_windows [DecidableEq α] {Ls : List (List α)} (hnodup : Ls.flatten.Nodup)
    (hsorted : ∀ L ∈ Ls, L.Pairwise fun a b => le a b) (k : ℕ) :
    (((Ls.map (List.take k)).flatten).mergeSort le).take k = (Ls.flatten.mergeSort le).take k := by
  have hsub : (Ls.map (List.take k)).flatten.Sublist Ls.flatten := by
    clear hnodup hsorted
    induction Ls with
    | nil => exact List.Sublist.refl _
    | cons L Ls ih =>
        rw [List.map_cons, List.flatten_cons, List.flatten_cons]
        exact (List.take_sublist k L).append ih
  rw [mergeSort_part trans total hnodup hsub]
  have hall : ∀ a ∈ (Ls.flatten.mergeSort le).take k, a ∈ (Ls.map (List.take k)).flatten := by
    intro a ha
    obtain ⟨L, hL, haL⟩ := List.mem_flatten.mp (List.mem_mergeSort.mp (List.mem_of_mem_take ha))
    exact List.mem_flatten.mpr ⟨L.take k, List.mem_map_of_mem hL,
      mem_take_of_mem_take trans total hnodup (List.sublist_flatten_of_mem hL)
        (hsorted L hL) haL ha⟩
  conv => lhs; rw [← List.take_append_drop k (Ls.flatten.mergeSort le)]
  rw [List.filter_append, List.filter_eq_self.mpr fun a ha => by simpa using hall a ha,
    List.take_append]
  by_cases hlong : k ≤ (Ls.flatten.mergeSort le).length
  · rw [List.length_take, min_eq_left hlong, Nat.sub_self, List.take_zero, List.append_nil,
      List.take_take, min_self]
  · rw [List.drop_eq_nil_of_le (by omega), List.filter_nil, List.take_nil, List.append_nil,
    List.take_take, min_self]

end Sorted

theorem length_flatten_le (Ls : List (List α)) (m : ℕ) (h : ∀ L ∈ Ls, L.length ≤ m) :
    Ls.flatten.length ≤ Ls.length * m := by
  induction Ls with
  | nil => simp
  | cons L Ls ih =>
      have hL := h L List.mem_cons_self
      have hLs := ih fun L' hL' => h L' (List.mem_cons_of_mem _ hL')
      rw [List.flatten_cons, List.length_append, List.length_cons, Nat.succ_mul]
      omega

/-- Slices of one length add up to a prefix. -/
theorem flatMap_slices (l : List α) (take n : ℕ) :
    ((List.range n).flatMap fun i => (l.drop (i * take)).take take) = l.take (n * take) := by
  induction n with
  | zero => simp
  | succ n ih => rw [List.range_succ, List.flatMap_append, ih, List.flatMap_singleton, Nat.succ_mul,
    List.take_add]

/-- Two of the parts have nothing in common when nothing is there twice. -/
theorem disjoint_slices {f : ℕ → List α} {n : ℕ}
    (h : ((List.range n).flatMap f).Nodup) {i j : ℕ} (hij : i < j) (hj : j < n) :
    List.Disjoint (f i) (f j) := by
  have hpair := List.pairwise_iff_getElem.mp (List.nodup_flatMap.mp h).2 i j
    (by rw [List.length_range]; omega) (by rw [List.length_range]; omega) hij
  simpa only [Function.onFun, List.getElem_range] using hpair

end Merging
