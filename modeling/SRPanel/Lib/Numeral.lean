import Mathlib.Data.List.TakeWhile
import Mathlib.Data.Nat.Digits.Lemmas

/-!
# Numerals and their leading zeros

A string of digits is the digits of a number only up to leading zeros. A conversion to another base
that writes the number anew and copies the leading zeros one by one loses nothing: converting back
gives the string again.
-/

namespace Numeral

/-- The number that some digits write, the highest digit first. -/
def value (b : ℕ) (ds : List ℕ) : ℕ := ds.foldl (fun n d => n * b + d) 0

/-- The digits of a number, the highest first. -/
def digits (b n : ℕ) : List ℕ := (Nat.digits b n).reverse

/-- Digits in base `a` as digits in base `b`, with the leading zeros copied. -/
def rebase (a b : ℕ) (ds : List ℕ) : List ℕ := ds.takeWhile (· = 0) ++ digits b (value a ds)

variable {a b : ℕ} {ds es : List ℕ}

theorem value_eq_ofDigits (b : ℕ) (ds : List ℕ) : value b ds = Nat.ofDigits b ds.reverse := by
  induction ds using List.reverseRecOn with
  | nil => rfl
  | append_singleton ds d ih =>
    rw [List.reverse_append, List.reverse_singleton, List.singleton_append, Nat.ofDigits_cons,
      ← ih, value, List.foldl_append, List.foldl_cons, List.foldl_nil, ← value, Nat.mul_comm,
      Nat.add_comm]

/-- Leading zeros do not count. -/
theorem value_zeros (b z : ℕ) (ds : List ℕ) : value b (List.replicate z 0 ++ ds) = value b ds := by
  rw [value_eq_ofDigits, value_eq_ofDigits, List.reverse_append, List.reverse_replicate,
    Nat.ofDigits_append_replicate_zero]

@[simp] theorem value_digits (b n : ℕ) : value b (digits b n) = n := by
  rw [value_eq_ofDigits, digits, List.reverse_reverse, Nat.ofDigits_digits]

theorem digits_lt (hb : 1 < b) {n d : ℕ} (hd : d ∈ digits b n) : d < b :=
  Nat.digits_lt_base hb (List.mem_reverse.mp hd)

/-- The digits of a number do not start with a zero. -/
theorem head?_digits (b n : ℕ) : (digits b n).head? ≠ some 0 := by
  rw [digits, List.head?_reverse]
  by_cases hn : n = 0
  · rw [hn, Nat.digits_zero, List.getLast?_nil]
    exact Option.some_ne_none 0 ∘ Eq.symm
  · rw [List.getLast?_eq_some_getLast (Nat.digits_ne_nil_iff_ne_zero.mpr hn), ne_eq, Option.some_inj]
    exact Nat.getLast_digit_ne_zero b hn

/-- Digits that do not start with a zero are those of their number. -/
theorem digits_value (hb : 1 < b) (hds : ∀ d ∈ ds, d < b) (hhead : ds.head? ≠ some 0) :
    digits b (value b ds) = ds := by
  rw [digits, value_eq_ofDigits, Nat.digits_ofDigits b hb, List.reverse_reverse]
  · exact fun d hd => hds d (List.mem_reverse.mp hd)
  · intro hne hlast
    apply hhead
    rw [← List.getLast?_reverse, List.getLast?_eq_some_getLast hne, hlast]

/-! ## Leading zeros -/

/-- Digits start with some zeros, and what follows them does not start with one. -/
theorem exists_zeros (ds : List ℕ) : ∃ (z : ℕ) (rest : List ℕ),
    ds.takeWhile (· = 0) = List.replicate z 0 ∧ ds = List.replicate z 0 ++ rest ∧
    rest.head? ≠ some 0 := by
  have hzeros : ds.takeWhile (· = 0) = List.replicate (ds.takeWhile (· = 0)).length 0 := by
    rw [List.eq_replicate_iff]
    exact ⟨rfl, fun d hd => by simpa using List.mem_takeWhile_imp hd⟩
  refine ⟨_, ds.dropWhile (· = 0), hzeros, ?_, ?_⟩
  · rw [← hzeros, List.takeWhile_append_dropWhile]
  · intro hhead
    have hnot := List.head?_dropWhile_not (fun d : ℕ => decide (d = 0)) ds
    rw [hhead] at hnot
    simp at hnot

/-- Some zeros before something that does not start with one are all the leading zeros. -/
theorem takeWhile_zeros (z : ℕ) (hhead : ds.head? ≠ some 0) :
    (List.replicate z 0 ++ ds).takeWhile (· = 0) = List.replicate z 0 := by
  have hnone : ds.takeWhile (· = 0) = [] := by
    cases ds with
    | nil => rfl
    | cons d ds =>
      have hd : d ≠ 0 := fun h => hhead (by rw [h, List.head?_cons])
      rw [List.takeWhile_cons, if_neg (by simpa using hd)]
  rw [List.takeWhile_append_of_pos (by simp), hnone, List.append_nil]

/-- A string after its leading zeros: the zeros, and the digits of the number in the other base. -/
theorem rebase_zeros (b z : ℕ) (hhead : ds.head? ≠ some 0) :
    rebase a b (List.replicate z 0 ++ ds) = List.replicate z 0 ++ digits b (value a ds) := by
  rw [rebase, takeWhile_zeros z hhead, value_zeros]

/-- Converting back gives the digits again. -/
theorem rebase_rebase (ha : 1 < a) (hds : ∀ d ∈ ds, d < a) : rebase b a (rebase a b ds) = ds := by
  obtain ⟨z, rest, -, rfl, hhead⟩ := exists_zeros ds
  have hrest : ∀ d ∈ rest, d < a := fun d hd => hds d (List.mem_append_right _ hd)
  rw [rebase_zeros b z hhead, rebase_zeros a z (head?_digits _ _), value_digits,
    digits_value ha hrest hhead]

/-- Different digits stay different. -/
theorem rebase_inj (ha : 1 < a) (hds : ∀ d ∈ ds, d < a) (hes : ∀ d ∈ es, d < a)
    (h : rebase a b ds = rebase a b es) : ds = es := by
  rw [← rebase_rebase ha hds, h, rebase_rebase ha hes]

theorem rebase_lt (hb : 1 < b) : ∀ d ∈ rebase a b ds, d < b := by
  intro d hd
  rcases List.mem_append.mp hd with hzero | hd
  · have h0 : d = 0 := by simpa using List.mem_takeWhile_imp hzero
    omega
  · exact digits_lt hb hd

end Numeral
