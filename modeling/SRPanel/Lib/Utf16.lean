import Mathlib.Data.List.DropRight
import Mathlib.Data.List.Basic

/-!
# Texts in UTF-16

A text is a list of code units. It is well formed if its surrogates come in pairs, a high one before
a low one. Texts that are put together or parted at other units stay well formed; one that ends
within a pair does not.
-/

namespace Utf16

/-- A text as a list of code units. -/
abbrev Text := List UInt16

def isHigh (u : UInt16) : Bool := 0xd800 ≤ u.toNat && u.toNat < 0xdc00

def isLow (u : UInt16) : Bool := 0xdc00 ≤ u.toNat && u.toNat < 0xe000

def isSurrogate (u : UInt16) : Bool := isHigh u || isLow u

/-- The units of a code point. -/
def encodePoint (n : ℕ) : Text :=
  if n < 0x10000 then [.ofNat n] else [.ofNat (0xd800 + (n - 0x10000) / 0x400),
    .ofNat (0xdc00 + (n - 0x10000) % 0x400)]

/-- The units of a string. -/
def encode (s : String) : Text := s.toList.flatMap fun c => encodePoint c.toNat

/-- All surrogates come in pairs. -/
inductive WellFormed : Text → Prop
  | nil : WellFormed []
  | unit {u : UInt16} {us : Text} (hu : isSurrogate u = false) (h : WellFormed us) :
  WellFormed (u :: us)
  | pair {u v : UInt16} {us : Text} (hu : isHigh u) (hv : isLow v) (h : WellFormed us) :
  WellFormed (u :: v :: us)

/-- The code points of a text: pairs stay together, and lone surrogates stand for themselves. -/
def points : Text → List Text
  | [] => []
  | [u] => [[u]]
  | u :: v :: us => if isHigh u && isLow v then [u, v] :: points us else [u] :: points (v :: us)

section

variable {u v : UInt16} {us vs : Text}

theorem isSurrogate_eq_false : isSurrogate u = false ↔ isHigh u = false ∧ isLow u = false := by
  rw [isSurrogate, Bool.or_eq_false_iff]

theorem isSurrogate_of_lt (hu : u.toNat < 0xd800) : isSurrogate u = false := by
  simp only [isSurrogate, isHigh, isLow, Bool.or_eq_false_iff, Bool.and_eq_false_iff,
    decide_eq_false_iff_not]
  omega

theorem isLow_of_isHigh (hu : isHigh u) : isLow u = false := by
  simp only [isHigh, Bool.and_eq_true, decide_eq_true_eq] at hu
  simp only [isLow, Bool.and_eq_false_iff, decide_eq_false_iff_not]
  omega

/-! ## Code points -/

theorem points_unit (hu : isHigh u = false) (us : Text) : points (u :: us) = [u] :: points us := by
  cases us with
  | nil => rfl
  | cons v us => rw [points, hu, Bool.false_and, if_neg Bool.false_ne_true]

theorem points_pair (hu : isHigh u) (hv : isLow v) (us : Text) :
    points (u :: v :: us) = [u, v] :: points us := by
  rw [points, hu, hv, Bool.and_self, if_pos rfl]

/-! ## Parts -/

theorem wellFormed_of_forall (h : ∀ u ∈ us, isSurrogate u = false) : WellFormed us := by
  induction us with
  | nil => exact .nil
  | cons u us ih =>
    obtain ⟨hu, hus⟩ := List.forall_mem_cons.mp h
    exact .unit hu (ih hus)

/-- A text without surrogates. -/
def isBasic (us : Text) : Bool := us.all fun u => !isSurrogate u

theorem isSurrogate_of_isBasic (h : isBasic us) : ∀ u ∈ us, isSurrogate u = false := by
  intro u hu
  simpa using List.all_eq_true.mp h u hu

theorem wellFormed_of_isBasic (h : isBasic us) : WellFormed us :=
  wellFormed_of_forall (isSurrogate_of_isBasic h)

theorem WellFormed.append (hus : WellFormed us) (hvs : WellFormed vs) : WellFormed (us ++ vs) := by
  induction hus with
  | nil => exact hvs
  | unit hu _ ih => exact .unit hu ih
  | pair hu hv _ ih => exact .pair hu hv ih

/-- What follows a well-formed part is well formed. -/
theorem WellFormed.of_append_left (hus : WellFormed us) (h : WellFormed (us ++ vs)) :
    WellFormed vs := by
  induction hus with
  | nil => exact h
  | @unit u us hu _ ih =>
    rw [List.cons_append] at h
    generalize us ++ vs = rest at h ih
    cases h with
    | unit _ h => exact ih h
    | pair hu' _ _ =>
      rw [isSurrogate_eq_false] at hu
      rw [hu.1] at hu'
      cases hu'
  | @pair u v us hu hv _ ih =>
    rw [List.cons_append, List.cons_append] at h
    cases h with
    | unit hu' h =>
      rw [isSurrogate_eq_false, hu] at hu'
      cases hu'.1
    | pair _ _ h => exact ih h

/-- A text can be parted before anything that is no low surrogate. -/
theorem WellFormed.part (h : WellFormed (us ++ vs)) (hvs : ∀ v ∈ vs.head?, isLow v = false) :
    WellFormed us ∧ WellFormed vs := by
  have hus : WellFormed us := by
    generalize htext : us ++ vs = text at h
    induction h generalizing us with
    | nil =>
      rw [List.append_eq_nil_iff] at htext
      rw [htext.1]
      exact .nil
    | @unit u rest hu h ih =>
      cases us with
      | nil => exact .nil
      | cons w us =>
        rw [List.cons_append, List.cons.injEq] at htext
        exact .unit (htext.1 ▸ hu) (ih htext.2)
    | @pair u v rest hu hv h ih =>
      cases us with
      | nil => exact .nil
      | cons w us =>
        rw [List.cons_append, List.cons.injEq] at htext
        cases us with
        | nil =>
          rw [List.nil_append] at htext
          have hlow := hvs v (by rw [htext.2]; rfl)
          rw [hlow] at hv
          cases hv
        | cons x us =>
          rw [List.cons_append, List.cons.injEq] at htext
          exact .pair (htext.1 ▸ hu) (htext.2.1 ▸ hv) (ih htext.2.2)
  exact ⟨hus, hus.of_append_left h⟩

/-- A text can be parted at a unit that is no surrogate. -/
theorem WellFormed.part_unit (h : WellFormed (us ++ u :: vs)) (hu : isSurrogate u = false) :
    WellFormed us ∧ WellFormed vs := by
  obtain ⟨hus, hvs⟩ := h.part (by
    rintro v hv
    obtain rfl : u = v := by simpa using hv
    exact (isSurrogate_eq_false.mp hu).2)
  have hone : WellFormed [u] := .unit hu .nil
  exact ⟨hus, hone.of_append_left hvs⟩

/-- What does not end with a high surrogate is not parted within a pair. -/
theorem WellFormed.part_last (h : WellFormed (us ++ vs))
    (hus : ∀ u ∈ us.getLast?, isHigh u = false) : WellFormed us := by
  generalize htext : us ++ vs = text at h
  induction h generalizing us with
  | nil =>
    rw [List.append_eq_nil_iff] at htext
    rw [htext.1]
    exact .nil
  | @unit u rest hu h ih =>
    cases us with
    | nil => exact .nil
    | cons w us =>
      rw [List.cons_append, List.cons.injEq] at htext
      refine .unit (htext.1 ▸ hu) (ih (fun x hx => hus x ?_) htext.2)
      rw [List.getLast?_cons, Option.mem_def.mp hx]
      rfl
  | @pair u v rest hu hv h ih =>
    cases us with
    | nil => exact .nil
    | cons w us =>
      rw [List.cons_append, List.cons.injEq] at htext
      cases us with
      | nil =>
        have hhigh := hus w rfl
        rw [htext.1, hu] at hhigh
        cases hhigh
      | cons x us =>
        rw [List.cons_append, List.cons.injEq] at htext
        refine .pair (htext.1 ▸ hu) (htext.2.1 ▸ hv) (ih (fun y hy => hus y ?_) htext.2.2)
        rw [List.getLast?_cons, List.getLast?_cons, Option.mem_def.mp hy]
        rfl

/-- Code points can be dropped. -/
theorem WellFormed.filter_points (p : Text → Bool) (h : WellFormed us) :
    WellFormed ((points us).filter p).flatten := by
  induction h with
  | nil => exact .nil
  | @unit u us hu h ih =>
    rw [points_unit (isSurrogate_eq_false.mp hu).1, List.filter_cons]
    split
    · exact .unit hu ih
    · exact ih
  | @pair u v us hu hv h ih =>
    rw [points_pair hu hv, List.filter_cons]
    split
    · exact .pair hu hv ih
    · exact ih

theorem WellFormed.dropWhile {p : UInt16 → Bool} (hp : ∀ u, p u → isSurrogate u = false)
    (h : WellFormed us) : WellFormed (us.dropWhile p) := by
  have htaken : WellFormed (us.takeWhile p) := wellFormed_of_forall fun u hu =>
    hp u (List.mem_takeWhile_imp hu)
  exact htaken.of_append_left (by rwa [List.takeWhile_append_dropWhile])

theorem WellFormed.rdropWhile {p : UInt16 → Bool} (hp : ∀ u, p u → isSurrogate u = false)
    (h : WellFormed us) : WellFormed (us.rdropWhile p) := by
  rw [← List.rdropWhile_append_rtakeWhile (p := p) (l := us)] at h
  refine (h.part ?_).1
  rintro v hv
  have hmem : v ∈ us.rtakeWhile p := List.mem_of_mem_head? hv
  exact (isSurrogate_eq_false.mp (hp v (List.mem_rtakeWhile_imp hmem))).2

/-- A text that ends within a pair is not well formed, whatever follows. -/
theorem not_wellFormed_cut (h : WellFormed us) (hu : isHigh u)
    (hvs : ∀ v ∈ vs.head?, isLow v = false) : ¬WellFormed (us ++ u :: vs) := by
  intro hcut
  have hrest := h.of_append_left hcut
  cases hrest with
  | unit hu' _ =>
    rw [isSurrogate_eq_false, hu] at hu'
    cases hu'.1
  | @pair _ v rest _ hv _ =>
    rw [hvs v rfl] at hv
    cases hv

end

end Utf16
