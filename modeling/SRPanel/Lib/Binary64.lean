import Mathlib.Algebra.Order.Field.Power
import Mathlib.Algebra.Order.Floor.Ring
import Mathlib.Data.Rat.Floor
import Mathlib.Tactic.Linarith
import Mathlib.Tactic.Positivity
import Mathlib.Tactic.Ring

/-!
# Numbers of double precision

The values of binary floating-point numbers with 53 digits, as rational numbers, and the rounding to
the nearest of them, ties to even. The exponent is bounded from below and not from above: what is
too large for a number is not treated. A rational number stands for the number that its text is read
as, so the operations round what they get.
-/

namespace Binary64

/-- The exponent of the leading digit. -/
def log2 (x : ℚ) : ℤ :=
  let e : ℤ := (x.num.natAbs.log2 : ℤ) - x.den.log2
  if (2 : ℚ) ^ e ≤ |x| then e else e - 1

/-- The exponent of the last digit that a number next to `x` has. -/
def quantum (x : ℚ) : ℤ := max (-1074) (log2 x - 52)

/-- The nearest integer, the even one of two. -/
def roundEven (x : ℚ) : ℤ :=
  if x - ⌊x⌋ < 1 / 2 ∨ (x - ⌊x⌋ = 1 / 2 ∧ ⌊x⌋ % 2 = 0) then ⌊x⌋ else ⌊x⌋ + 1

/-- The nearest number. -/
def round (x : ℚ) : ℚ := roundEven (x / 2 ^ quantum x) * 2 ^ quantum x

/-- `x + y`. -/
def add (x y : ℚ) : ℚ := round (round x + round y)

/-- `x - y`. -/
def sub (x y : ℚ) : ℚ := round (round x - round y)

/-- The value of a number. -/
def Rep (y : ℚ) : Prop := ∃ k e : ℤ, |k| ≤ 2 ^ 53 ∧ -1074 ≤ e ∧ y = k * 2 ^ e

theorem rep_intCast {n : ℤ} (h : |n| ≤ 2 ^ 53) : Rep n := ⟨n, 0, h, by norm_num, by simp⟩

section

variable {x y : ℚ} {n : ℤ}

/-! ## The nearest integer -/

theorem le_roundEven (h : (n : ℚ) ≤ x) : n ≤ roundEven x := by
  have hfloor : n ≤ ⌊x⌋ := Int.le_floor.mpr h
  unfold roundEven
  split
  · exact hfloor
  · omega

theorem roundEven_le (h : x ≤ n) : roundEven x ≤ n := by
  have hfloor : ⌊x⌋ ≤ n := by exact_mod_cast (Int.floor_le x).trans h
  unfold roundEven
  split
  · exact hfloor
  · next hfar =>
    -- a fraction is left, so `x` is not `n`
    by_contra hgt
    obtain rfl : n = ⌊x⌋ := by omega
    exact hfar (.inl (by linarith))

/-! ## The leading digit -/

theorem pow_log2_nat {n : ℕ} (h : n ≠ 0) :
    (2 : ℚ) ^ (n.log2 : ℤ) ≤ n ∧ (n : ℚ) < 2 ^ ((n.log2 : ℤ) + 1) := by
  have hlow : 2 ^ n.log2 ≤ n := Nat.log2_self_le h
  have hhigh : n < 2 ^ (n.log2 + 1) := Nat.lt_log2_self
  constructor
  · rw [zpow_natCast]
    exact_mod_cast hlow
  · rw [show (n.log2 : ℤ) + 1 = ((n.log2 + 1 : ℕ) : ℤ) by push_cast; rfl, zpow_natCast]
    exact_mod_cast hhigh

theorem pow_log2_le (hx : x ≠ 0) : (2 : ℚ) ^ log2 x ≤ |x| := by
  unfold log2
  extract_lets e
  split
  · assumption
  · have hnum := (pow_log2_nat (n := x.num.natAbs) (by simpa using hx)).1
    have hden := (pow_log2_nat (n := x.den) x.den_ne_zero).2
    have hpos : (0 : ℚ) < x.den := by exact_mod_cast x.den_pos
    have habs : |x| * x.den = x.num.natAbs := by
      conv_lhs => rw [← Rat.num_div_den x]
      rw [abs_div, abs_of_pos hpos, Rat.num_div_den, div_mul_cancel₀ _ hpos.ne', ← Int.cast_abs,
        Int.abs_eq_natAbs]
      rfl
    rw [← mul_le_mul_iff_left₀ hpos, habs]
    calc (2 : ℚ) ^ (e - 1) * x.den ≤ 2 ^ (e - 1) * 2 ^ ((x.den.log2 : ℤ) + 1) :=
          mul_le_mul_of_nonneg_left hden.le (by positivity)
      _ = 2 ^ (x.num.natAbs.log2 : ℤ) := by
          rw [← zpow_add₀ two_ne_zero]
          congr 1
          omega
      _ ≤ x.num.natAbs := hnum

/-! ## The nearest number -/

/-- A multiple of the last digit that is not above `x` is not above the number next to `x`. -/
theorem multiple_le_round (h : (n : ℚ) * 2 ^ quantum x ≤ x) :
    (n : ℚ) * 2 ^ quantum x ≤ round x := by
  have hpow : (0 : ℚ) < 2 ^ quantum x := by positivity
  refine mul_le_mul_of_nonneg_right ?_ hpow.le
  exact_mod_cast le_roundEven ((le_div_iff₀ hpow).mpr h)

theorem round_le_multiple (h : x ≤ (n : ℚ) * 2 ^ quantum x) :
    round x ≤ (n : ℚ) * 2 ^ quantum x := by
  have hpow : (0 : ℚ) < 2 ^ quantum x := by positivity
  refine mul_le_mul_of_nonneg_right ?_ hpow.le
  exact_mod_cast roundEven_le ((div_le_iff₀ hpow).mpr h)

/-- A number is a multiple of the last digit of `x`, or it is at most the power of two that leads
`x`. -/
theorem Rep.cases (hy : Rep y) (hx : x ≠ 0) : (∃ n : ℤ, y = n * 2 ^ quantum x) ∨
    (|y| ≤ ((2 ^ 52 : ℤ) : ℚ) * 2 ^ quantum x ∧ ((2 ^ 52 : ℤ) : ℚ) * 2 ^ quantum x ≤ |x|) := by
  obtain ⟨k, e, hk, he, rfl⟩ := hy
  by_cases hfine : quantum x ≤ e
  -- the digits of the number end before those of `x`
  · left
    refine ⟨k * 2 ^ (e - quantum x).toNat, ?_⟩
    have hsplit : (2 : ℚ) ^ e = 2 ^ (e - quantum x).toNat * 2 ^ quantum x := by
      rw [← zpow_natCast, ← zpow_add₀ two_ne_zero]
      congr 1
      omega
    rw [hsplit]
    push_cast
    ring
  · right
    have hq : quantum x = log2 x - 52 := by
      unfold quantum at hfine ⊢
      omega
    have hlead : ((2 ^ 52 : ℤ) : ℚ) * 2 ^ quantum x = 2 ^ log2 x := by
      rw [show ((2 ^ 52 : ℤ) : ℚ) = 2 ^ (52 : ℤ) by norm_num, ← zpow_add₀ two_ne_zero]
      congr 1
      omega
    refine ⟨?_, hlead.trans_le (pow_log2_le hx)⟩
    have hpow : (0 : ℚ) < 2 ^ e := by positivity
    have hk' : |(k : ℚ)| ≤ 2 ^ (53 : ℤ) := by
      rw [← Int.cast_abs]
      exact_mod_cast hk
    calc |(k : ℚ) * 2 ^ e| = |(k : ℚ)| * 2 ^ e := by rw [abs_mul, abs_of_pos hpow]
      _ ≤ 2 ^ (53 : ℤ) * 2 ^ e := mul_le_mul_of_nonneg_right hk' hpow.le
      _ = 2 ^ (53 + e) := (zpow_add₀ two_ne_zero _ _).symm
      _ ≤ 2 ^ log2 x := zpow_le_zpow_right₀ one_le_two (by omega)
      _ = _ := hlead.symm

theorem round_zero : round 0 = 0 := by decide +kernel

/-- Rounding does not pass a number. -/
theorem le_round (hy : Rep y) (h : y ≤ x) : y ≤ round x := by
  by_cases hx : x = 0
  · rw [hx, round_zero]
    exact hx ▸ h
  obtain ⟨n, rfl⟩ | ⟨hsmall, hlead⟩ := hy.cases hx
  · exact multiple_le_round h
  -- `y` is at most the leading power, and so are the sides of zero that `x` may be on
  · obtain hpos | hneg := le_total 0 x
    · rw [abs_of_nonneg hpos] at hlead
      exact (le_abs_self y).trans (hsmall.trans (multiple_le_round hlead))
    · rw [abs_of_nonpos hneg] at hlead
      have hle : y ≤ ((-2 ^ 52 : ℤ) : ℚ) * 2 ^ quantum x := by
        push_cast at hlead ⊢
        linarith
      have hge := neg_abs_le y
      refine hle.trans (multiple_le_round ?_)
      push_cast at hsmall hlead ⊢
      linarith

theorem round_le (hy : Rep y) (h : x ≤ y) : round x ≤ y := by
  by_cases hx : x = 0
  · rw [hx, round_zero]
    exact hx ▸ h
  obtain ⟨n, rfl⟩ | ⟨hsmall, hlead⟩ := hy.cases hx
  · exact round_le_multiple h
  · have hge := neg_abs_le y
    obtain hpos | hneg := le_total 0 x
    · rw [abs_of_nonneg hpos] at hlead
      exact (round_le_multiple (h.trans ((le_abs_self y).trans hsmall))).trans (hlead.trans h)
    · rw [abs_of_nonpos hneg] at hlead
      have hbound : round x ≤ ((-2 ^ 52 : ℤ) : ℚ) * 2 ^ quantum x :=
        round_le_multiple (by push_cast at hlead ⊢; linarith)
      push_cast at hbound hsmall
      linarith

/-- A number is the one next to it. -/
theorem round_eq (hx : Rep x) : round x = x := le_antisymm (round_le hx le_rfl) (le_round hx le_rfl)

end

end Binary64
