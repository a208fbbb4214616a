import Mathlib.Data.List.Basic
import Mathlib.Data.List.DropRight
import Mathlib.Data.List.Infix
import Mathlib.Algebra.Order.BigOperators.Group.List
import Mathlib.Algebra.Order.Group.Nat

/-!
# Texts as lines

A receiver of a line protocol cuts the text that it gets at every line feed and drops a carriage
return before it. What comes after the last line feed is not a line yet.
-/

namespace Lines

/-- The line feed. -/
def LF : Char := '\n'

/-- A line without the carriage return at its end. -/
def dropCR (line : List Char) : List Char :=
  if line.getLast? = some '\r' then line.dropLast else line

/-- The lines of a text that continues an unfinished line. -/
def continued : (line text : List Char) → List (List Char)
  | _, [] => []
  | line, c :: text => if c = LF then dropCR line :: continued [] text else continued
    (line ++ [c]) text

/-- The lines of a text. -/
def linesOf (text : List Char) : List (List Char) := continued [] text

@[simp] theorem dropCR_append (line : List Char) : dropCR (line ++ ['\r']) = line := by
  simp [dropCR]

theorem continued_append {line body : List Char} (hbody : LF ∉ body) (text : List Char) :
    continued line (body ++ LF :: text) = dropCR (line ++ body) :: linesOf text := by
  induction body generalizing line with
  | nil => simp [continued, linesOf]
  | cons c body ih =>
      have hc : c ≠ LF := by
        rintro rfl
        exact hbody List.mem_cons_self
      rw [List.cons_append, continued, if_neg hc, ih fun h => hbody (List.mem_cons_of_mem c h),
        List.append_assoc]
      rfl

/-- A line with its end, and the lines after it. -/
theorem linesOf_crlf {body : List Char} (hbody : LF ∉ body) (text : List Char) :
    linesOf (body ++ '\r' :: LF :: text) = body :: linesOf text := by
  have hline : LF ∉ body ++ ['\r'] := by
    rw [List.mem_append, List.mem_singleton]
    rintro (h | h)
    · exact hbody h
    · exact absurd h (by decide)
  have hsplit : body ++ '\r' :: LF :: text = (body ++ ['\r']) ++ LF :: text := by simp
  rw [hsplit, linesOf, continued_append hline, List.nil_append, dropCR_append]

/-- Lines with their ends. -/
def withEnds (lines : List (List Char)) : List Char := lines.flatMap fun line => line ++ ['\r', LF]

@[simp] theorem withEnds_nil : withEnds [] = [] := rfl

@[simp] theorem withEnds_cons (line : List Char) (lines : List (List Char)) :
    withEnds (line :: lines) = line ++ '\r' :: LF :: withEnds lines := by
  simp [withEnds]

@[simp] theorem withEnds_append (lines lines' : List (List Char)) :
    withEnds (lines ++ lines') = withEnds lines ++ withEnds lines' := List.flatMap_append

/-- Joined lines with one more end are the lines with their ends. -/
theorem withEnds_eq_intercalate {lines : List (List Char)} (h : lines ≠ []) :
    withEnds lines = ['\r', LF].intercalate lines ++ ['\r', LF] := by
  induction lines with
  | nil => exact absurd rfl h
  | cons line lines ih =>
      cases lines with
      | nil => simp
      | cons line' lines => rw [withEnds_cons, ih (List.cons_ne_nil _ _),
        List.intercalate_cons_cons]; simp

/-- Lines without line feeds are read back. -/
theorem linesOf_withEnds {lines : List (List Char)} (h : ∀ line ∈ lines, LF ∉ line) :
    linesOf (withEnds lines) = lines := by
  induction lines with
  | nil => rfl
  | cons line lines ih =>
      rw [withEnds_cons, linesOf_crlf (h line List.mem_cons_self),
        ih fun line' hline' => h line' (List.mem_cons_of_mem line hline')]

/-- A text has as many lines as line feeds. -/
theorem length_linesOf (text : List Char) : (linesOf text).length = text.count LF := by
  have aux : ∀ line, (continued line text).length = text.count LF := by
    induction text with
    | nil => exact fun _ => rfl
    | cons c text ih =>
        intro line
        rw [continued]
        split
        · next h => rw [List.length_cons, ih, h, List.count_cons_self]
        · next h => rw [ih, List.count_cons_of_ne h]
  exact aux []

/-- A text whose lines have been joined has more lines than that as soon as one of them has a line
feed. -/
theorem lf_not_mem_of_length {lines : List (List Char)}
    (h : (linesOf (withEnds lines)).length = lines.length) : ∀ line ∈ lines, LF ∉ line := by
  have hcount : (withEnds lines).count LF = (lines.map fun line => line.count LF).sum +
      lines.length := by
    clear h
    induction lines with
    | nil => rfl
    | cons line lines ih =>
        have hcr : ('\r' :: LF :: withEnds lines).count LF = (withEnds lines).count LF + 1 := by
          rw [List.count_cons_of_ne (by decide), List.count_cons_self]
        rw [withEnds_cons, List.count_append, hcr, ih, List.map_cons, List.sum_cons,
          List.length_cons]
        omega
  rw [length_linesOf, hcount] at h
  intro line hline hmem
  have hpos := List.count_pos_iff.mpr hmem
  have hle : line.count LF ≤ (lines.map fun line => line.count LF).sum :=
    List.le_sum_of_mem (List.mem_map.mpr ⟨line, hline, rfl⟩)
  omega

/-! ## After the last separator -/

section Last

variable {α : Type*} {p : α → Bool} {a : α}

/-- The end of a list in which `p` holds does not reach past an element without it. -/
theorem rtakeWhile_append_cons (h : ¬p a) (before last : List α) :
    (before ++ a :: last).rtakeWhile p = last.rtakeWhile p := by
  rw [List.rtakeWhile, List.rtakeWhile, List.reverse_append, List.reverse_cons, List.append_assoc,
    List.takeWhile_append, List.singleton_append, List.takeWhile_cons_of_neg h, List.append_nil]
  split
  · next hlen => rw [(List.takeWhile_prefix p).eq_of_length hlen]
  · rfl

/-- What stands behind the last separator. -/
theorem rtakeWhile_ne [DecidableEq α] {last : List α} (h : a ∉ last) (before : List α) :
    (before ++ a :: last).rtakeWhile (· ≠ a) = last := by
  rw [rtakeWhile_append_cons (by simp), List.rtakeWhile_eq_self_iff]
  intro c hc
  exact decide_eq_true fun heq => h (heq ▸ hc)

/-- A text without a separator is its own last part. -/
theorem rtakeWhile_ne_self [DecidableEq α] {text : List α} (h : a ∉ text) :
    text.rtakeWhile (· ≠ a) = text := by
  rw [List.rtakeWhile_eq_self_iff]
  intro c hc
  exact decide_eq_true fun heq => h (heq ▸ hc)

/-- Joined texts end with the last one. -/
theorem rtakeWhile_intercalate [DecidableEq α] {last : List α} (h : a ∉ last)
    (texts : List (List α)) : ([a].intercalate (texts ++ [last])).rtakeWhile (· ≠ a) = last := by
  obtain hnil | ⟨before, hcons⟩ : [a].intercalate (texts ++ [last]) = last ∨
      ∃ before, [a].intercalate (texts ++ [last]) = before ++ a :: last := by
    induction texts with
    | nil => exact .inl (by simp)
    | cons text texts ih =>
      refine .inr ?_
      rw [List.cons_append, List.intercalate_cons_of_ne_nil (by simp)]
      obtain hnil | ⟨before, hcons⟩ := ih
      · exact ⟨text, by rw [hnil]; simp⟩
      · exact ⟨text ++ a :: before, by rw [hcons]; simp⟩
  · rw [hnil, rtakeWhile_ne_self h]
  · rw [hcons, rtakeWhile_ne h]

end Last

end Lines
