import Mathlib.Algebra.GroupWithZero.Nat
import Mathlib.Data.List.DropRight
import Mathlib.Data.List.Infix
import Mathlib.Data.Rat.Defs
import SRPanel.Lib.Unicode

/-!
# Text helpers

The string operations that the services apply to what buyers, banks and providers send.
-/

namespace SRPanel

/-- `s.trim()`. -/
def trim (s : String) : String :=
  .ofList ((s.toList.dropWhile Unicode.isWhite).reverse.dropWhile Unicode.isWhite).reverse

/-- `s.replace(/^0x/, "")`. -/
def dropHexMark (s : String) : String :=
  match s.toList with
  | '0' :: 'x' :: rest => .ofList rest
  | _ => s

/-- The characters of the class `[0-9a-fA-F]`. -/
def isHexDigit (c : Char) : Bool :=
  c.isDigit || ('a' ≤ c && c ≤ 'f') || ('A' ≤ c && c ≤ 'F')

/-- `/^[0-9a-fA-F]{64}$/.test(s)`. -/
def isTxid (s : String) : Bool := s.toList.length == 64 && s.toList.all isHexDigit

/-- `s.toLowerCase()`. -/
def lower (s : String) : String := .ofList (s.toList.map Unicode.toLower)

/-- `s.toUpperCase()` on the letters that occur in coin symbols. -/
def upper (s : String) : String := .ofList (s.toList.map Char.toUpper)

/-- `v.replace(/\D/g, "")`. -/
def digitsOnly (s : String) : String := .ofList (s.toList.filter Char.isDigit)

/-- `s.length`, in UTF-16 code units. -/
def textLength (s : String) : ℕ := (s.toList.map fun c => if c.toNat < 65536 then 1 else 2).sum

/-- `s.slice(0, n)`. -/
def sliceTo (n : ℕ) (s : String) : String := .ofList (s.toList.take n)

/-- `s.slice(-n)`. -/
def sliceLast (n : ℕ) (s : String) : String := .ofList (s.toList.drop (s.toList.length - n))

/-- `s.includes(w)`. -/
def includes (s w : String) : Bool := decide (w.toList <:+: s.toList)

/-- `s || null`. -/
def orNull (s : String) : Option String := if s = "" then none else some s

/-- `a ?? b` on a text that may be missing, `||` taking the empty text for missing as well. -/
def orElse (s : String) (t : Option String) : Option String := (orNull s).or t

/-- The value of a run of decimal digits. -/
def digitsValue (cs : List Char) : ℕ := cs.foldl (fun n c => 10 * n + (c.toNat - '0'.toNat)) 0

/-- `Number(s)` for a text of digits and dots; `none` is NaN. -/
def numberOf (s : String) : Option ℚ :=
  match s.toList.splitOn '.' with
  | [whole] => some (digitsValue whole)
  | [whole, frac] =>
      if whole = [] && frac = [] then none
      else some (digitsValue whole + (digitsValue frac : ℚ) / 10 ^ frac.length)
  | _ => none

/-- Put a comma before every third digit from the end, given the digits from the last to the first.
-/
def groupDigits : List Char → List Char
  | a :: b :: c :: d :: rest => a :: b :: c :: ',' :: groupDigits (d :: rest)
  | ds => ds

/-- `n.toLocaleString("en-US")`. -/
def localeString (n : ℕ) : String := .ofList (groupDigits (toString n).toList.reverse).reverse

/-- `Math.round(x)`. -/
def mathRound (x : ℚ) : ℤ := (x + 1 / 2).floor

/-! ## What cleaning leaves alone -/

/-- Trimming twice is trimming once. -/
theorem trim_trim (s : String) : trim (trim s) = trim s := by
  have htrim : ∀ t : String, trim t =
      .ofList ((t.toList.dropWhile Unicode.isWhite).rdropWhile Unicode.isWhite) := fun _ => rfl
  have hhead : ∀ l : List Char,
      ((l.dropWhile Unicode.isWhite).rdropWhile Unicode.isWhite).dropWhile Unicode.isWhite =
        (l.dropWhile Unicode.isWhite).rdropWhile Unicode.isWhite := by
    intro l
    rw [List.dropWhile_eq_self_iff]
    intro hpos
    obtain ⟨rest, hrest⟩ := List.rdropWhile_prefix Unicode.isWhite (l.dropWhile Unicode.isWhite)
    have hpos' : 0 < (l.dropWhile Unicode.isWhite).length := by
      rw [← hrest, List.length_append]
      omega
    have hzero := List.dropWhile_get_zero_not Unicode.isWhite l hpos'
    rw [List.get_eq_getElem] at hzero
    rwa [List.getElem_of_eq hrest.symm, List.getElem_append_left hpos] at hzero
  rw [htrim s, htrim, String.toList_ofList, hhead, List.rdropWhile_idempotent]

/-- A text without white space is trimmed. -/
theorem trim_of_dense {s : String} (h : ∀ c ∈ s.toList, Unicode.isWhite c = false) :
    trim s = s := by
  have hkeep : ∀ l : List Char, (∀ c ∈ l, Unicode.isWhite c = false) →
      l.dropWhile Unicode.isWhite = l := by
    intro l hl
    cases l with
    | nil => rfl
    | cons c l => rw [List.dropWhile_cons, hl c List.mem_cons_self]; rfl
  rw [trim, hkeep _ h, hkeep _ (by simpa using h), List.reverse_reverse, String.ofList_toList]

theorem isWhite_of_isDigit {c : Char} (h : c.isDigit) : Unicode.isWhite c = false := by
  simp only [Char.isDigit, Bool.and_eq_true, decide_eq_true_eq, ge_iff_le, UInt32.le_iff_toNat_le,
    Char.toNat_val] at h
  simp at h
  exact Unicode.isWhite_of_ascii (by omega) (by omega)

theorem isWhite_of_isAlphanum {c : Char} (h : c.isAlphanum) : Unicode.isWhite c = false := by
  obtain (hupper | hlower) | hdigit : (c.isUpper ∨ c.isLower) ∨ c.isDigit := by
    rw [← Bool.or_eq_true, ← Bool.or_eq_true]
    exact h
  · have hrange : 'A'.toNat ≤ c.toNat ∧ c.toNat ≤ 'Z'.toNat := of_decide_eq_true hupper
    simp at hrange
    exact Unicode.isWhite_of_ascii (by omega) (by omega)
  · have hrange : 'a'.toNat ≤ c.toNat ∧ c.toNat ≤ 'z'.toNat := by
      obtain ⟨hlow, hhigh⟩ := Bool.and_eq_true_iff.mp hlower
      exact ⟨of_decide_eq_true hlow, of_decide_eq_true hhigh⟩
    simp at hrange
    exact Unicode.isWhite_of_ascii (by omega) (by omega)
  · exact isWhite_of_isDigit hdigit

theorem isWhite_of_isHexDigit {c : Char} (h : isHexDigit c) : Unicode.isWhite c = false := by
  simp only [isHexDigit, Bool.or_eq_true, Bool.and_eq_true, decide_eq_true_eq, Char.le_def,
    UInt32.le_iff_toNat_le, Char.toNat_val] at h
  obtain (hdigit | h) | h := h
  · exact isWhite_of_isDigit hdigit
  · exact Unicode.isWhite_of_ascii (by simp at h; omega) (by simp at h; omega)
  · exact Unicode.isWhite_of_ascii (by simp at h; omega) (by simp at h; omega)

theorem digitsOnly_of_forall {s : String} (h : ∀ c ∈ s.toList, c.isDigit) : digitsOnly s = s := by
  rw [digitsOnly, List.filter_eq_self.mpr h, String.ofList_toList]

/-- The first digits of a text are digits. -/
theorem isDigit_of_mem_sliceTo {n : ℕ} {s : String} {c : Char}
    (h : c ∈ (sliceTo n (digitsOnly s)).toList) : c.isDigit := by
  have hmem : c ∈ (s.toList.filter Char.isDigit).take n := by
    simpa [sliceTo, digitsOnly] using h
  exact (List.mem_filter.mp (List.mem_of_mem_take hmem)).2

theorem digitsOnly_sliceTo (n : ℕ) (s : String) :
    digitsOnly (sliceTo n (digitsOnly s)) = sliceTo n (digitsOnly s) :=
  digitsOnly_of_forall fun _ => isDigit_of_mem_sliceTo

/-- Slicing twice is slicing once. -/
theorem sliceTo_sliceTo (n : ℕ) (s : String) : sliceTo n (sliceTo n s) = sliceTo n s := by
  rw [sliceTo, sliceTo, String.toList_ofList, List.take_take, min_self]

/-! ## Letters -/

theorem lower_lower (s : String) : lower (lower s) = lower s := by
  have hchar : Unicode.toLower ∘ Unicode.toLower = Unicode.toLower := funext Unicode.toLower_toLower
  rw [lower, lower, String.toList_ofList, List.map_map, hchar]

end SRPanel
