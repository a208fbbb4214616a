import Mathlib.Algebra.Ring.Nat
import Mathlib.Data.List.Basic

/-!
# Digits as strings of bits

A loop that repacks digits of one width into digits of another keeps the bits that wait in the low
end of a buffer: a digit is shifted in behind them, and digits of the other width are taken off in
front. As long as the buffer is wide enough, the bits of what has come out, followed by the bits
that wait, are the bits of what went in. Digits that were repacked, filled up with a few zeros and
repacked again are the digits of the beginning.
-/

namespace BitStream

/-- The low `w` bits of `n`, the highest first. -/
def bits : ℕ → ℕ → List Bool
  | 0, _ => []
  | w + 1, n => n.testBit w :: bits w n

/-- The bits of digits of the width `w`. -/
def stream (w : ℕ) (digits : List ℕ) : List Bool := digits.flatMap (bits w)

variable {w v k a b p m n d : ℕ}

@[simp] theorem length_bits (w n : ℕ) : (bits w n).length = w := by
  induction w with
  | zero => rfl
  | succ w ih => rw [bits, List.length_cons, ih]

@[simp] theorem stream_nil (w : ℕ) : stream w [] = [] := rfl

@[simp] theorem stream_cons (w d : ℕ) (digits : List ℕ) :
    stream w (d :: digits) = bits w d ++ stream w digits := rfl

theorem stream_append (w : ℕ) (xs ys : List ℕ) : stream w (xs ++ ys) = stream w xs ++ stream w ys :=
  List.flatMap_append

theorem length_stream (w : ℕ) (digits : List ℕ) : (stream w digits).length = w * digits.length := by
  induction digits with
  | nil => rfl
  | cons d digits ih => rw [stream_cons, List.length_append, length_bits, ih, List.length_cons,
    Nat.mul_succ, Nat.add_comm]

/-- Two numbers have the same low bits if they agree at each of them. -/
theorem bits_eq_iff : bits w m = bits w n ↔ ∀ i < w, m.testBit i = n.testBit i := by
  induction w with
  | zero => simp [bits]
  | succ w ih =>
    rw [bits, bits, List.cons.injEq, ih]
    constructor
    · rintro ⟨htop, hlow⟩ i hi
      by_cases h : i = w
      · exact h ▸ htop
      · exact hlow i (by omega)
    · exact fun h => ⟨h w (by omega), fun i hi => h i (by omega)⟩

/-- A digit is determined by its bits. -/
theorem bits_inj (hm : m < 2 ^ w) (hn : n < 2 ^ w) (h : bits w m = bits w n) : m = n := by
  apply Nat.eq_of_testBit_eq
  intro i
  by_cases hi : i < w
  · exact bits_eq_iff.mp h i hi
  · have hle : 2 ^ w ≤ 2 ^ i := Nat.pow_le_pow_right (by omega) (by omega)
    rw [Nat.testBit_lt_two_pow (by omega), Nat.testBit_lt_two_pow (by omega)]

/-! ## The buffer -/

/-- The high and the low part of some bits. -/
theorem bits_add (v w n : ℕ) : bits (v + w) n = bits v (n >>> w) ++ bits w n := by
  induction v with
  | zero => rw [Nat.zero_add, bits, List.nil_append]
  | succ v ih => rw [Nat.succ_add, bits, ih, bits, List.cons_append, Nat.testBit_shiftRight,
    Nat.add_comm w v]

/-- A mask that is wide enough drops no bit that waits. -/
theorem bits_and_mask (h : w ≤ v) (n : ℕ) : bits w (n &&& (2 ^ v - 1)) = bits w n := by
  rw [bits_eq_iff]
  intro i hi
  rw [Nat.testBit_and, Nat.testBit_two_pow_sub_one, decide_eq_true (by omega), Bool.and_true]

/-- A digit is shifted in behind the bits that wait. -/
theorem bits_push (hd : d < 2 ^ a) (k n : ℕ) :
    bits (k + a) (n <<< a ||| d) = bits k n ++ bits a d := by
  rw [bits_add]
  congr 1
  · rw [bits_eq_iff]
    intro i _
    have hle : 2 ^ a ≤ 2 ^ (a + i) := Nat.pow_le_pow_right (by omega) (by omega)
    rw [Nat.testBit_shiftRight, Nat.testBit_or, Nat.testBit_shiftLeft, decide_eq_true (by omega),
      Bool.true_and, Nat.add_sub_cancel_left, Nat.testBit_lt_two_pow (Nat.lt_of_lt_of_le hd hle),
      Bool.or_false]
  · rw [bits_eq_iff]
    intro i hi
    rw [Nat.testBit_or, Nat.testBit_shiftLeft, decide_eq_false (by omega), Bool.false_and,
      Bool.false_or]

/-- A digit is taken off in front of the bits that still wait. -/
theorem bits_take (n : ℕ) (b k : ℕ) :
    bits b (n >>> k &&& (2 ^ b - 1)) ++ bits k n = bits (b + k) n := by
  rw [bits_and_mask (Nat.le_refl b), bits_add]

/-- The last digit is filled up with zeros. -/
theorem bits_fill (k p n : ℕ) : bits (k + p) (n <<< p) = bits k n ++ List.replicate p false := by
  have hzero : bits p 0 = List.replicate p false := by
    induction p with
    | zero => rfl
    | succ p ih => rw [bits, ih, Nat.zero_testBit, List.replicate_succ]
  rw [← hzero, ← bits_push (Nat.two_pow_pos p), Nat.or_zero]

/-! ## Streams -/

/-- Digits are determined by their stream. -/
theorem stream_inj (hw : 0 < w) {xs ys : List ℕ} (hxs : ∀ x ∈ xs, x < 2 ^ w)
    (hys : ∀ y ∈ ys, y < 2 ^ w) (h : stream w xs = stream w ys) : xs = ys := by
  induction xs generalizing ys with
  | nil =>
    have hlen := congrArg List.length h
    rw [length_stream, length_stream, List.length_nil, Nat.mul_zero] at hlen
    have hnil : ys.length = 0 := (Nat.mul_eq_zero.mp hlen.symm).resolve_left (by omega)
    exact (List.eq_nil_of_length_eq_zero hnil).symm
  | cons x xs ih =>
    cases ys with
    | nil =>
      have hlen := congrArg List.length h
      rw [length_stream, length_stream, List.length_cons, List.length_nil, Nat.mul_zero] at hlen
      have hpos : 0 < w * (xs.length + 1) := Nat.mul_pos hw (by omega)
      omega
    | cons y ys =>
      obtain ⟨hx, hxs⟩ := List.forall_mem_cons.mp hxs
      obtain ⟨hy, hys⟩ := List.forall_mem_cons.mp hys
      rw [stream_cons, stream_cons] at h
      obtain ⟨hhead, htail⟩ := List.append_inj h (by rw [length_bits, length_bits])
      rw [bits_inj hx hy hhead, ih hxs hys htail]

/-- Digits that come out of a stream of digits with less than one digit of zeros behind them, and
leave less than one digit, are those digits. -/
theorem stream_repacked (ha : p < a) {xs zs : List ℕ} {rest : List Bool} (hxs : ∀ x ∈ xs, x < 2 ^ a)
    (hzs : ∀ z ∈ zs, z < 2 ^ a) (hrest : rest.length < a)
    (h : stream a zs ++ rest = stream a xs ++ List.replicate p false) : zs = xs := by
  have hlen := congrArg List.length h
  simp only [List.length_append, length_stream, List.length_replicate] at hlen
  -- both lengths are whole numbers of digits with less than one digit on top
  have hdigits : zs.length = xs.length := by
    have hz : (a * zs.length + rest.length) / a = zs.length := by
      rw [Nat.mul_add_div (by omega), Nat.div_eq_of_lt hrest, Nat.add_zero]
    have hx : (a * xs.length + p) / a = xs.length := by
      rw [Nat.mul_add_div (by omega), Nat.div_eq_of_lt ha, Nat.add_zero]
    rw [← hz, hlen, hx]
  have hstream : stream a zs = stream a xs :=
    (List.append_inj h (by rw [length_stream, length_stream, hdigits])).1
  exact stream_inj (by omega) hzs hxs hstream

end BitStream
