import Mathlib.Data.List.DropRight
import Mathlib.Data.List.Infix
import Mathlib.Data.List.Flatten

/-!
# Marked lines that arrive in chunks

A text is cut into lines at every pair `cr lf`, and some of its lines are marked. A reader keeps a
buffer: it adds a chunk, takes everything up to the last marked line off the buffer, and reports the
marks. It cannot see whether the last line of its buffer is finished. A mark shows at the start of a
line, so an unfinished line may be taken as well, and what is left of it begins the buffer anew.

The module says exactly at which places a chunk may end for the marks to be those of the whole text.
-/

namespace Chunks

variable {α γ : Type*}

/-! ## Marks -/

/-- A mark at the start of a line: it stays when the line goes on, it does not need the `cr` of a
pair, and no line that starts with `lf` has one. -/
structure Mark (cr lf : α) (γ : Type*) where
  cr_ne_lf : cr ≠ lf
  marked : List α → Bool
  mark : List α → γ
  marked_append : ∀ x y, marked x → marked (x ++ y)
  mark_append : ∀ x y, marked x → mark (x ++ y) = mark x
  marked_cr : ∀ x, marked (x ++ [cr]) → marked x
  not_marked_lf : ∀ x, ¬marked (lf :: x)

namespace Mark

variable {cr lf : α} (m : Mark cr lf γ)

/-- The marks of lines. -/
def marks (lines : List (List α)) : List γ := (lines.filter m.marked).map m.mark

section Marks

variable {m : Mark cr lf γ}

/-- The empty line is not marked. -/
theorem not_marked_nil (m : Mark cr lf γ) : ¬m.marked [] :=
  fun h => m.not_marked_lf [] (m.marked_append [] [lf] h)

/-- No lines have no marks. -/
@[simp] theorem marks_nil : m.marks [] = [] := rfl

theorem marks_append (lines lines' : List (List α)) :
    m.marks (lines ++ lines') = m.marks lines ++ m.marks lines' := by
  rw [marks, List.filter_append, List.map_append]
  rfl

/-- A marked line adds its mark. -/
theorem marks_cons_marked {line : List α} (h : m.marked line) (lines : List (List α)) :
    m.marks (line :: lines) = m.mark line :: m.marks lines := by
  rw [marks, List.filter_cons_of_pos h]
  rfl

/-- Another adds none. -/
theorem marks_cons_unmarked {line : List α} (h : ¬m.marked line) (lines : List (List α)) :
    m.marks (line :: lines) = m.marks lines := by
  rw [marks, List.filter_cons_of_neg h]
  rfl

/-- The first mark of lines, and what comes before and after it. -/
theorem marks_eq_cons {lines : List (List α)} {c : γ} {cs : List γ} (h : m.marks lines = c :: cs) :
    ∃ before line after, lines = before ++ line :: after ∧ (∀ l ∈ before, ¬m.marked l) ∧
      m.marked line ∧ m.mark line = c ∧ m.marks after = cs := by
  obtain ⟨line, rest, hfilter, hmark, hrest⟩ := List.map_eq_cons_iff.mp h
  obtain ⟨before, after, hlines, hbefore, hline, rfl⟩ := List.filter_eq_cons_iff.mp hfilter
  exact ⟨before, line, after, hlines, hbefore, hline, hmark, hrest⟩

/-- There are no marks if no line is marked. -/
theorem marks_eq_nil_iff {lines : List (List α)} : m.marks lines = [] ↔
    ∀ line ∈ lines, ¬m.marked line := by
  rw [marks, List.map_eq_nil_iff, List.filter_eq_nil_iff]

end Marks

end Mark

/-! ## Lines -/

variable [DecidableEq α]

/-- The lines of a text that continues a line. -/
def continued (cr lf : α) : (line text : List α) → List (List α)
  | line, [] => [line]
  | line, c :: text =>
      if c = lf ∧ line.getLast? = some cr then line.dropLast :: continued cr lf [] text
      else continued cr lf (line ++ [c]) text

/-- The lines of a text, between the pairs `cr lf`. -/
def splitLines (cr lf : α) (text : List α) : List (List α) := continued cr lf [] text

/-- The lines joined again. -/
def joinLines (cr lf : α) (lines : List (List α)) : List α := [cr, lf].intercalate lines

section Lines

variable {cr lf : α} {line text : List α}

/-- A text has at least one line. -/
theorem continued_ne_nil : continued cr lf line text ≠ [] := by
  induction text generalizing line with
  | nil => exact List.cons_ne_nil _ _
  | cons c text ih =>
    rw [continued]
    split
    · exact List.cons_ne_nil _ _
    · exact ih

/-- So has a text from its start. -/
theorem splitLines_ne_nil : splitLines cr lf text ≠ [] := continued_ne_nil

/-- The empty text is one empty line. -/
@[simp] theorem splitLines_nil : splitLines cr lf [] = [[]] := rfl

theorem continued_pair (line text : List α) :
    continued cr lf (line ++ [cr]) (lf :: text) = line :: splitLines cr lf text := by
  rw [continued, if_pos ⟨rfl, by simp⟩, List.dropLast_concat]
  rfl

/-- A line without `lf`, its pair, and the lines after it. -/
theorem splitLines_line (hne : cr ≠ lf) (hline : lf ∉ line) (text : List α) :
    splitLines cr lf (line ++ cr :: lf :: text) = line :: splitLines cr lf text := by
  have aux : ∀ before, continued cr lf before (line ++ cr :: lf :: text) =
      (before ++ line) :: splitLines cr lf text := by
    induction line with
    | nil =>
      intro before
      rw [List.nil_append, continued, if_neg fun h => hne h.1, continued_pair, List.append_nil]
    | cons c line ih =>
      intro before
      obtain ⟨hc, hline⟩ := not_or.mp (List.mem_cons.not.mp hline)
      rw [List.cons_append, continued, if_neg fun h => hc h.1.symm, ih hline, List.append_assoc,
        List.singleton_append]
  exact aux []

/-- The line at the end of a text, which may go on. -/
def partialLine (cr lf : α) (text : List α) : List α :=
  (splitLines cr lf text).getLast splitLines_ne_nil

/-- The lines of a text before its last one. -/
def wholeLines (cr lf : α) (text : List α) : List (List α) := (splitLines cr lf text).dropLast

theorem splitLines_eq (text : List α) :
    splitLines cr lf text = wholeLines cr lf text ++ [partialLine cr lf text] :=
  (List.dropLast_append_getLast splitLines_ne_nil).symm

/-- A longer text continues the last line. -/
theorem continued_append (line s t : List α) :
    continued cr lf line (s ++ t) = (continued cr lf line s).dropLast ++
      continued cr lf ((continued cr lf line s).getLast continued_ne_nil) t := by
  induction s generalizing line with
  | nil => rfl
  | cons c s ih =>
    by_cases h : c = lf ∧ line.getLast? = some cr
    · have hcut : continued cr lf line (c :: s) = line.dropLast :: continued cr lf [] s := by
        rw [continued, if_pos h]
      simp only [List.cons_append, continued, if_pos h, ih,
        List.dropLast_cons_of_ne_nil continued_ne_nil, List.getLast_cons continued_ne_nil]
    · simp only [List.cons_append, continued, if_neg h, ih]

theorem splitLines_append (s t : List α) :
    splitLines cr lf (s ++ t) = wholeLines cr lf s ++ continued cr lf (partialLine cr lf s) t :=
  continued_append [] s t

/-- A line goes on with the first line of the text that follows, unless the pair is cut between the
two. -/
theorem continued_prepend (h : ¬(line.getLast? = some cr ∧ text.head? = some lf)) :
    ∃ first rest, splitLines cr lf text = first :: rest ∧ continued cr lf line text =
    (line ++ first) :: rest := by
  have aux : ∀ {l : List α}, l ≠ [] ∨ ¬(line.getLast? = some cr ∧ text.head? = some lf) →
      ∃ first rest, continued cr lf l text = first :: rest ∧
        continued cr lf (line ++ l) text = (line ++ first) :: rest := by
    clear h
    induction text with
    | nil => exact fun {l} _ => ⟨l, [], rfl, rfl⟩
    | cons c text ih =>
      intro l hl
      by_cases hcut : c = lf ∧ l.getLast? = some cr
      · have hne : l ≠ [] := by
          rintro rfl
          cases hcut.2
        have hcut' : c = lf ∧ (line ++ l).getLast? = some cr := by
          rwa [List.getLast?_append_of_ne_nil _ hne]
        refine ⟨l.dropLast, continued cr lf [] text, by rw [continued, if_pos hcut], ?_⟩
        rw [continued, if_pos hcut', List.dropLast_append_of_ne_nil hne]
      · have hcut' : ¬(c = lf ∧ (line ++ l).getLast? = some cr) := by
          by_cases hne : l = []
          · subst hne
            rw [List.append_nil]
            rintro ⟨rfl, hcr⟩
            obtain hl | hl := hl
            · exact hl rfl
            · exact hl ⟨hcr, rfl⟩
          · rwa [List.getLast?_append_of_ne_nil _ hne]
        obtain ⟨first, rest, h₁, h₂⟩ := ih (l := l ++ [c]) (.inl (by simp))
        refine ⟨first, rest, by rw [continued, if_neg hcut, h₁], ?_⟩
        rw [continued, if_neg hcut', List.append_assoc, h₂]
  obtain ⟨first, rest, h₁, h₂⟩ := aux (l := []) (.inr h)
  rw [List.append_nil] at h₂
  exact ⟨first, rest, h₁, h₂⟩

/-- The first of several lines ends with a pair, and ends there whatever follows. -/
theorem continued_first {rest : List (List α)} {first : List α}
    (h : continued cr lf line text = first :: rest) (hrest : rest ≠ []) :
      ∃ u t, text = u ++ lf :: t ∧ line ++ u = first ++ [cr] ∧ splitLines cr lf t = rest ∧ ∀ w,
      continued cr lf line (u ++ lf :: w) = first :: splitLines cr lf w := by
  induction text generalizing line with
  | nil =>
    obtain ⟨-, hnil⟩ := List.cons.inj h
    exact absurd hnil.symm hrest
  | cons c text ih =>
    rw [continued] at h
    split at h
    · next hcut =>
      obtain ⟨rfl, hlast⟩ := hcut
      obtain ⟨rfl, hsplit⟩ := List.cons.inj h
      have hline : line.dropLast ++ [cr] = line := List.dropLast_append_getLast? _ hlast
      refine ⟨[], text, rfl, by rw [List.append_nil, hline], hsplit, fun w => ?_⟩
      rw [List.nil_append, ← continued_pair, hline]
    · next hcut =>
      obtain ⟨u, t, rfl, hu, hsplit, hall⟩ := ih h
      refine ⟨c :: u, t, rfl, by rw [← hu, List.append_assoc, List.singleton_append], hsplit,
        fun w => ?_⟩
      rw [List.cons_append, continued, if_neg hcut, hall]

omit [DecidableEq α] in

/-- A line joined with others. -/
theorem joinLines_cons {lines : List (List α)} (h : lines ≠ []) (line : List α) :
    joinLines cr lf (line :: lines) = line ++ cr :: lf :: joinLines cr lf lines := by
  obtain ⟨line', lines, rfl⟩ := List.exists_cons_of_ne_nil h
  rw [joinLines, List.intercalate_cons_cons]
  simp [joinLines]

/-- Joining undoes splitting. -/
theorem joinLines_continued (line text : List α) :
    joinLines cr lf (continued cr lf line text) = line ++ text := by
  induction text generalizing line with
  | nil => simp [continued, joinLines]
  | cons c text ih =>
    rw [continued]
    split
    · next hcut =>
      obtain ⟨rfl, hlast⟩ := hcut
      have hline : line.dropLast ++ [cr] = line := List.dropLast_append_getLast? _ hlast
      rw [joinLines_cons continued_ne_nil, ih, List.nil_append]
      nth_rewrite 2 [← hline]
      rw [List.append_assoc, List.singleton_append]
    · rw [ih, List.append_assoc, List.singleton_append]

/-- The lines after some line of a text are a text of their own, and what stands before them is
split the same whatever comes after it. -/
theorem splitLines_cut {lines rest : List (List α)} (h : splitLines cr lf text = lines ++ rest)
    (hrest : rest ≠ []) :
    ∃ t, text = t ++ joinLines cr lf rest ∧ ∀ w,
    splitLines cr lf (t ++ w) = lines ++ splitLines cr lf w := by
  induction lines generalizing text with
  | nil =>
    refine ⟨[], ?_, fun w => rfl⟩
    rw [List.nil_append] at h
    rw [List.nil_append, ← h, splitLines, joinLines_continued, List.nil_append]
  | cons first lines ih =>
    obtain ⟨u, t, rfl, hu, hsplit, hall⟩ :=
      continued_first h (List.append_ne_nil_of_right_ne_nil _ hrest)
    obtain ⟨t', rfl, hw⟩ := ih hsplit
    refine ⟨u ++ lf :: t', by simp, fun w => ?_⟩
    rw [List.append_assoc, List.cons_append, splitLines, hall, hw, List.cons_append]

/-- The last line of a longer text. -/
theorem partialLine_append_eq (s t : List α) : partialLine cr lf (s ++ t) =
    (continued cr lf (partialLine cr lf s) t).getLast continued_ne_nil := by
  simp only [partialLine, splitLines_append s t]
  exact List.getLast_append_of_ne_nil _ continued_ne_nil

/-- The last line of a text after such a cut. -/
theorem partialLine_cut {lines : List (List α)} {t : List α}
    (h : ∀ w, splitLines cr lf (t ++ w) = lines ++ splitLines cr lf w) (w : List α) :
    partialLine cr lf (t ++ w) = partialLine cr lf w := by
  simp only [partialLine, h w]
  exact List.getLast_append_of_ne_nil _ splitLines_ne_nil

end Lines

/-! ## Reading -/

namespace Mark

variable {cr lf : α} (m : Mark cr lf γ)

/-- The marks of a text. -/
def textMarks (text : List α) : List γ := m.marks (splitLines cr lf text)

/-- What a reader leaves in its buffer: the lines after the last marked one. -/
def leftover (text : List α) : List α :=
  joinLines cr lf ((splitLines cr lf text).rtakeWhile fun line => !m.marked line)

/-- The marks that are read from chunks. -/
def read : (buffer : List α) → (chunks : List (List α)) → List γ
  | _, [] => []
  | buffer, chunk :: chunks =>
    m.textMarks (buffer ++ chunk) ++ read (m.leftover (buffer ++ chunk)) chunks

/-- A chunk ends harmfully between two texts: the first ends inside a marked line, and what is left
of the line starts like a marked one; or the pair at the end of a marked line is cut, and the next
line is marked. -/
def Harmful (before after : List α) : Prop :=
  m.marked (partialLine cr lf before) ∧
    ((∃ line ∈ (splitLines cr lf after).head?, m.marked line) ∨
      (partialLine cr lf before).getLast? = some cr ∧
        ∃ t, after = lf :: t ∧ ∃ line ∈ (splitLines cr lf t).head?, m.marked line)

section Marks

variable {m : Mark cr lf γ} {s text : List α}

/-- The empty text has no marks. -/
@[simp] theorem textMarks_nil : m.textMarks [] = [] :=
  marks_cons_unmarked m.not_marked_nil []

theorem textMarks_eq (text : List α) : m.textMarks text =
    m.marks (wholeLines cr lf text) ++ m.marks [partialLine cr lf text] := by
  rw [textMarks, splitLines_eq, marks_append]

/-- A text that ends inside a marked line is read completely. -/
theorem leftover_marked (h : m.marked (partialLine cr lf text)) : m.leftover text = [] := by
  rw [leftover, splitLines_eq, List.rtakeWhile_concat_neg]
  · rfl
  · simp [h]

/-- A text without marks is left over completely. -/
theorem leftover_of_textMarks (h : m.textMarks text = []) : m.leftover text = text := by
  have hself : (splitLines cr lf text).rtakeWhile (fun line => !m.marked line) =
      splitLines cr lf text := by
    rw [List.rtakeWhile_eq_self_iff]
    intro line hline
    simpa using marks_eq_nil_iff.mp h line hline
  rw [leftover, hself, splitLines, joinLines_continued, List.nil_append]

/-- Otherwise what is left over is a text of its own without marks. -/
theorem leftover_spec (h : ¬m.marked (partialLine cr lf text)) : ∃ t, text = t ++ m.leftover text ∧
    m.textMarks (m.leftover text) = [] ∧
    (∀ w, m.textMarks (t ++ w) = m.textMarks text ++ m.textMarks w) ∧
    ∀ w, partialLine cr lf (t ++ w) = partialLine cr lf w := by
  have hlines : splitLines cr lf text = (splitLines cr lf text).rdropWhile (fun line =>
      !m.marked line) ++ (splitLines cr lf text).rtakeWhile (fun line => !m.marked line) := by
    rw [List.rdropWhile_append_rtakeWhile]
  generalize hrest : (splitLines cr lf text).rtakeWhile (fun line => !m.marked line) =
    rest at hlines
  generalize (splitLines cr lf text).rdropWhile (fun line => !m.marked line) = lines at hlines
  have hunmarked : ∀ line ∈ rest, ¬m.marked line := by
    intro line hline
    rw [← hrest] at hline
    simpa using List.mem_rtakeWhile_imp hline
  have hne : rest ≠ [] := by
    rw [← hrest, splitLines_eq, List.rtakeWhile_concat_pos]
    · exact List.append_ne_nil_of_right_ne_nil _ (List.cons_ne_nil _ _)
    · simpa using h
  have hleft : m.leftover text = joinLines cr lf rest := by rw [leftover, hrest]
  obtain ⟨t, htext, hsplit⟩ := splitLines_cut hlines hne
  rw [← hleft] at htext
  have hback : splitLines cr lf (m.leftover text) = rest := by
    have := hsplit (m.leftover text)
    rw [← htext, hlines] at this
    exact (List.append_cancel_left this).symm
  refine ⟨t, htext, ?_, fun w => ?_, partialLine_cut hsplit⟩
  · rw [textMarks, hback, marks_eq_nil_iff.mpr hunmarked]
  · rw [textMarks, hsplit, marks_append, textMarks, hlines, marks_append, marks_eq_nil_iff.mpr hunmarked, List.append_nil]
    rfl

theorem leftover_suffix (text : List α) : m.leftover text <:+ text := by
  by_cases h : m.marked (partialLine cr lf text)
  · rw [leftover_marked h]
    exact List.nil_suffix
  · obtain ⟨t, heq, -⟩ := leftover_spec h
    exact ⟨t, heq.symm⟩

/-- The first line of a text that starts with `lf`. -/
theorem splitLines_lf (hne : cr ≠ lf) (text : List α) :
    ∃ first rest, splitLines cr lf text = first :: rest ∧ splitLines cr lf (lf :: text) =
    (lf :: first) :: rest := by
  have hnot : ¬(([lf] : List α).getLast? = some cr ∧ text.head? = some lf) :=
    fun h => hne (Option.some.inj h.1).symm
  obtain ⟨first, rest, h, hcont⟩ := continued_prepend hnot
  refine ⟨first, rest, h, ?_⟩
  rw [splitLines, continued, if_neg (fun h => by cases h.2)]
  exact hcont

/-- How a text goes on after a line: with its own first line, or after a pair that was cut. -/
theorem continued_cases (hne : cr ≠ lf) (line text : List α) :
    (¬(line.getLast? = some cr ∧ text.head? = some lf) ∧
        ∃ first rest, splitLines cr lf text = first :: rest ∧ continued cr lf line text =
        (line ++ first) :: rest) ∨
      ∃ x t first rest, line = x ++ [cr] ∧ text = lf :: t ∧ splitLines cr lf t = first :: rest ∧
        splitLines cr lf text = (lf :: first) :: rest ∧ continued cr lf line text =
        x :: first :: rest := by
  by_cases hpair : line.getLast? = some cr ∧ text.head? = some lf
  · obtain ⟨hcr, hlf⟩ := hpair
    obtain ⟨x, rfl⟩ := List.getLast?_eq_some_iff.mp hcr
    obtain ⟨t, rfl⟩ := List.head?_eq_some_iff.mp hlf
    obtain ⟨first, rest, hsplit, hlf⟩ := splitLines_lf hne t
    exact .inr ⟨x, t, first, rest, rfl, rfl, hsplit, hlf, by rw [continued_pair, hsplit]⟩
  · exact .inl ⟨hpair, continued_prepend hpair⟩

/-- Where a chunk does not end harmfully, the marks before and after it are those of the whole. -/
theorem textMarks_append (hx : m.marked (partialLine cr lf s)) (h : ¬m.Harmful s text) :
    m.textMarks (s ++ text) = m.textMarks s ++ m.textMarks text := by
  obtain ⟨hfirst, hpair⟩ := not_or.mp (not_and.mp h hx)
  rw [textMarks, splitLines_append, marks_append, textMarks_eq s, List.append_assoc,
    List.append_cancel_left_eq, marks_cons_marked hx]
  obtain ⟨-, first, rest, hsplit, hcont⟩ | ⟨x, t, first, rest, hline, rfl, ht, hsplit, hcont⟩ :=
    continued_cases m.cr_ne_lf (partialLine cr lf s) text
  · have hunmarked : ¬m.marked first := fun hm => hfirst ⟨first, by rw [hsplit]; rfl, hm⟩
    rw [hcont, marks_cons_marked (m.marked_append _ _ hx), m.mark_append _ _ hx, textMarks, hsplit,
      marks_cons_unmarked hunmarked]
    rfl
  · have hunmarked : ¬m.marked first := fun hm =>
      hpair ⟨by rw [hline]; simp, t, rfl, first, by rw [ht]; rfl, hm⟩
    rw [hline] at hx ⊢
    have hx' := m.marked_cr x hx
    rw [hline] at hcont
    rw [hcont, marks_cons_marked hx', marks_cons_unmarked hunmarked, m.mark_append _ _ hx',
      textMarks, hsplit, marks_cons_unmarked (m.not_marked_lf _)]
    rfl

/-- Where it does, there is one too many or one too few. -/
theorem length_textMarks_harmful (h : m.Harmful s text) :
    (m.textMarks (s ++ text)).length ≠ (m.textMarks s ++ m.textMarks text).length := by
  obtain ⟨hx, h⟩ := h
  rw [textMarks, splitLines_append, marks_append, textMarks_eq s, marks_cons_marked hx]
  simp only [List.length_append, List.length_cons, marks_nil, List.length_nil]
  obtain ⟨hplain, first, rest, hsplit, hcont⟩ | ⟨x, t, first, rest, hline, rfl, ht,
      hsplit, hcont⟩ :=
    continued_cases m.cr_ne_lf (partialLine cr lf s) text
  · have hmarked : m.marked first := by
      obtain ⟨line, hline, hm⟩ | ⟨hcr, t, rfl, -⟩ := h
      · rw [hsplit] at hline
        rwa [← Option.some.inj hline] at hm
      · exact absurd ⟨hcr, rfl⟩ hplain
    rw [hcont, textMarks, hsplit, marks_cons_marked hmarked,
      marks_cons_marked (m.marked_append _ _ hx)]
    simp only [List.length_cons]
    omega
  · have hmarked : m.marked first := by
      obtain ⟨line, hfirst, hm⟩ | ⟨-, t', heq, line, hfirst, hm⟩ := h
      · rw [hsplit] at hfirst
        rw [← Option.some.inj hfirst] at hm
        exact absurd hm (m.not_marked_lf _)
      · obtain rfl := (List.cons.inj heq).2
        rw [ht] at hfirst
        rwa [← Option.some.inj hfirst] at hm
    rw [hline] at hx
    rw [hcont, textMarks, hsplit, marks_cons_marked (m.marked_cr x hx), marks_cons_marked hmarked,
      marks_cons_unmarked (m.not_marked_lf _)]
    simp only [List.length_cons]
    omega

/-- Behind a harmless end, a line that is marked so far does not continue the line before the end.
-/
theorem partialLine_append {t : List α} (h : ¬m.Harmful s text)
    (hx : m.marked (partialLine cr lf s)) (ht : t <+: text)
    (hmarked : m.marked (partialLine cr lf t)) :
    partialLine cr lf (s ++ t) = partialLine cr lf t := by
  -- the last line of `t` is not its first one, as the first line of `text` would be marked then
  have hwhole : wholeLines cr lf t ≠ [] := by
    intro hnil
    obtain ⟨t', rfl⟩ := ht
    have hsplit : splitLines cr lf (t ++ t') = continued cr lf (partialLine cr lf t) t' := by
      rw [splitLines_append, hnil, List.nil_append]
    refine h ⟨hx, .inl ?_⟩
    rw [hsplit]
    obtain ⟨-, first, rest, -, hcont⟩ | ⟨x, -, first, rest, hline, -, -, -, hcont⟩ :=
      continued_cases m.cr_ne_lf (partialLine cr lf t) t'
    · exact ⟨_, by rw [hcont]; rfl, m.marked_append _ _ hmarked⟩
    · exact ⟨_, by rw [hcont]; rfl, m.marked_cr x (hline ▸ hmarked)⟩
  have hrest : ∀ first rest, splitLines cr lf t = first :: rest → rest ≠ [] := by
    rintro first rest hsplit rfl
    rw [wholeLines, hsplit] at hwhole
    exact hwhole rfl
  rw [partialLine_append_eq]
  simp only [partialLine]
  obtain ⟨-, first, rest, hsplit, hcont⟩ | ⟨x, t, first, rest, -, rfl, -, hsplit, hcont⟩ :=
    continued_cases m.cr_ne_lf (partialLine cr lf s) t
  all_goals
    have hne := hrest _ _ hsplit
    simp only [partialLine] at hcont
    simp only [hcont, hsplit, List.getLast_cons hne, List.getLast_cons (List.cons_ne_nil _ _)]

/-- Chunks that end harmlessly are read like the whole text. -/
theorem read_eq (before : List α) {buffer : List α} {chunks : List (List α)}
    (hbuffer : m.textMarks buffer = [])
      (hbefore : ∀ t, t <+: buffer ++ chunks.flatten → m.marked (partialLine cr lf t) →
        partialLine cr lf (before ++ t) = partialLine cr lf t)
    (hends : ∀ l₁ l₂, chunks = l₁ ++ l₂ → ¬m.Harmful (before ++ buffer ++ l₁.flatten) l₂.flatten) :
    m.read buffer chunks = m.textMarks (buffer ++ chunks.flatten) := by
  induction chunks generalizing before buffer with
  | nil => simpa [read] using hbuffer.symm
  | cons chunk chunks ih =>
    have hend := hends [chunk] chunks rfl
    simp only [List.flatten_cons, List.flatten_nil, List.append_nil] at hend
    rw [read, List.flatten_cons, ← List.append_assoc]
    rw [List.flatten_cons, ← List.append_assoc] at hbefore
    rw [List.append_assoc] at hend
    generalize hs : buffer ++ chunk = s at hend hbefore ⊢
    by_cases hx : m.marked (partialLine cr lf s)
    · have hlast := hbefore s (List.prefix_append _ _) hx
      have hend' : ¬m.Harmful s chunks.flatten := by
        rwa [Harmful, hlast] at hend
      rw [leftover_marked hx, ih (before ++ s) textMarks_nil ?_ ?_, textMarks_append hx hend']
      · rfl
      · intro t ht hmarked
        exact partialLine_append hend (hlast ▸ hx) ht hmarked
      · intro l₁ l₂ hl
        have := hends (chunk :: l₁) l₂ (by rw [hl]; rfl)
        rw [← hs]
        simpa using this
    · obtain ⟨t, heq, hnone, hmarks, hopen⟩ := leftover_spec hx
      rw [ih (before ++ t) hnone ?_ ?_, ← hmarks, ← List.append_assoc, ← heq]
      · intro t' ht' hmarked
        have hprefix : t ++ t' <+: s ++ chunks.flatten := by
          rw [heq, List.append_assoc]
          exact (List.prefix_append_right_inj t).mpr ht'
        rw [List.append_assoc, hbefore _ hprefix (by rwa [hopen]), hopen]
      · intro l₁ l₂ hl
        have := hends (chunk :: l₁) l₂ (by rw [hl]; rfl)
        rw [List.append_assoc before, ← heq, ← hs]
        simpa using this

/-- A cut at the start does no harm. -/
theorem not_harmful_nil (text : List α) : ¬m.Harmful [] text := fun h => m.not_marked_nil h.1

/-- Nor does one at the end. -/
theorem not_harmful_end (text : List α) : ¬m.Harmful text [] := by
  rintro ⟨-, ⟨line, hline, hm⟩ | ⟨-, t, heq, -⟩⟩
  · obtain rfl := Option.some.inj hline
    exact m.not_marked_nil hm
  · cases heq

/-- A text that arrives in chunks, none of which ends harmfully, is read like the text that arrives
at once. -/
theorem read_chunks {chunks : List (List α)}
    (hends : ∀ l₁ l₂, chunks = l₁ ++ l₂ → ¬m.Harmful l₁.flatten l₂.flatten) :
    m.read [] chunks = m.textMarks chunks.flatten :=
  read_eq [] textMarks_nil (fun _ _ _ => rfl) hends

/-- A text that arrives in two chunks is read like the text that arrives at once, exactly when the
first does not end harmfully. -/
theorem read_pair_iff (s text : List α) :
    (m.read [] [s, text]).length = (m.textMarks (s ++ text)).length ↔ ¬m.Harmful s text := by
  constructor
  · intro h hharm
    refine length_textMarks_harmful hharm ?_
    rw [← h, read, List.nil_append, leftover_marked hharm.1, read, List.nil_append, read,
      List.append_nil]
  · intro h
    rw [read_chunks]
    · simp
    · intro l₁ l₂ hl
      obtain _ | ⟨c, l₁⟩ := l₁
      · exact not_harmful_nil _
      · obtain ⟨rfl, htail⟩ := List.cons.inj hl
        obtain _ | ⟨d, l₁⟩ := l₁
        · obtain rfl : [text] = l₂ := htail
          simpa using h
        · obtain ⟨rfl, hnil⟩ := List.cons.inj htail
          obtain ⟨rfl, rfl⟩ := List.append_eq_nil_iff.mp hnil.symm
          exact not_harmful_end _

end Marks

end Mark

end Chunks
