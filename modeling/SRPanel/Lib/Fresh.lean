import Mathlib.Data.List.Perm.Subperm
import Mathlib.Data.List.Nodup

/-!
# The search for a fresh name

Names are tried one after another until one is not taken. If all candidates are different, one more
try than there are names taken is enough.
-/

namespace Fresh

variable {α : Type} [DecidableEq α]

/-- The first of the candidates `f k`, `f (k + 1)`, … that is not taken, of `n`; after them the next
one as it is. -/
def firstFree (f : ℕ → α) (taken : List α) : (n k : ℕ) → α
  | 0, k => f k
  | n + 1, k => if f k ∈ taken then firstFree f taken n (k + 1) else f k

variable {f : ℕ → α} {taken : List α}

/-- Every candidate before the one that is found is taken; only the last one is not tested. -/
theorem firstFree_spec (f : ℕ → α) (taken : List α) (n k : ℕ) :
    ∃ i ≤ n, firstFree f taken n k = f (k + i) ∧ (∀ j < i, f (k + j) ∈ taken) ∧
      (i < n → f (k + i) ∉ taken) := by
  induction n generalizing k with
  | zero => exact ⟨0, Nat.le_refl 0, rfl, by omega, by omega⟩
  | succ n ih =>
      rw [firstFree]
      split
      · next htaken =>
          obtain ⟨i, hi, heq, hbefore, hfree⟩ := ih (k + 1)
          have hshift : ∀ j, k + 1 + j = k + (j + 1) := by intro j; omega
          refine ⟨i + 1, by omega, by rw [heq, hshift], ?_, ?_⟩
          · intro j hj
            cases j with
            | zero => exact htaken
            | succ j => exact hshift j ▸ hbefore j (by omega)
          · intro hlt
            exact hshift i ▸ hfree (by omega)
      · next hfree => exact ⟨0, by omega, rfl, by omega, fun _ => hfree⟩

omit [DecidableEq α] in
/-- Different candidates that are all taken are no more than the names taken. -/
theorem length_le_of_taken (hf : Function.Injective f) {n k : ℕ} (h : ∀ j < n, f (k + j) ∈ taken) :
    n ≤ taken.length := by
  have hnodup : ((List.range n).map fun j => f (k + j)).Nodup := by
    apply List.Nodup.map _ List.nodup_range
    intro a b hab
    have := hf hab
    omega
  have hsub : ((List.range n).map fun j => f (k + j)) ⊆ taken := by
    intro x hx
    obtain ⟨j, hj, rfl⟩ := List.mem_map.mp hx
    exact h j (List.mem_range.mp hj)
  simpa using (List.subperm_of_subset hnodup hsub).length_le

/-- As many tries as there are names taken find one that is not. -/
theorem firstFree_not_mem (hf : Function.Injective f) {n : ℕ} (hn : taken.length ≤ n) (k : ℕ) :
    firstFree f taken n k ∉ taken := by
  obtain ⟨i, hi, heq, hbefore, hfree⟩ := firstFree_spec f taken n k
  rw [heq]
  rcases Nat.lt_or_eq_of_le hi with hlt | rfl
  · exact hfree hlt
  · intro hmem
    have hall : ∀ j < i + 1, f (k + j) ∈ taken := by
      intro j hj
      rcases Nat.lt_succ_iff_lt_or_eq.mp hj with hj | rfl
      · exact hbefore j hj
      · exact hmem
    have := length_le_of_taken hf hall
    omega

end Fresh
