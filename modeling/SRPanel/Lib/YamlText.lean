import SRPanel.Lib.Utf16

/-!
# A part of YAML 1.2

Documents of block collections, with scalars that are words or that are in double quotes on one
line, and with comments on lines of their own. A line is read as tokens that know their columns; the
tokens of all lines together make the document.
-/

namespace YamlText

open Utf16

/-! ## Double quotes -/

/-- The value of a hexadecimal digit. -/
def hexValue (u : UInt16) : Option ℕ :=
  if 48 ≤ u.toNat ∧ u.toNat ≤ 57 then some (u.toNat - 48)
  else if 97 ≤ u.toNat ∧ u.toNat ≤ 102 then some (u.toNat - 87)
  else if 65 ≤ u.toNat ∧ u.toNat ≤ 70 then some (u.toNat - 55)
  else none

/-- The escapes of one character. -/
def shortEscapes : List (UInt16 × UInt16) :=
  [(48, 0), (97, 7), (98, 8), (116, 9), (9, 9), (110, 10), (118, 11), (102, 12), (114, 13),
    (101, 27), (32, 32), (34, 34), (47, 47), (92, 92), (78, 0x85), (95, 0xa0), (76, 0x2028),
    (80, 0x2029)]

/-- The escapes by number, with how many digits they have. -/
def longEscapes : List (UInt16 × ℕ) := [(120, 2), (117, 4), (85, 8)]

/-- The number of a character; surrogates are none. -/
def isScalarValue (n : ℕ) : Bool := n < 0xd800 || (0xe000 ≤ n && n < 0x110000)

/-- Where a reader stands: among characters, behind a backslash, or before some digits of a number.
-/
inductive Mode
  | plain
  | escape
  | hex (left n : ℕ)

/-- What is read, with these units before it. -/
def pushed (us : Text) (read : Text × Text) : Text × Text := (us ++ read.1, read.2)

/-- What stands before the closing quote, and what stands behind it. -/
def scan : Mode → Text → Option (Text × Text)
  | _, [] => none
  | .plain, u :: us =>
      if u = 34 then some ([], us)
      else if u = 92 then scan .escape us
      else if u = 9 ∨ 32 ≤ u.toNat then (scan .plain us).map (pushed [u])
      else none
  | .escape, u :: us =>
      match shortEscapes.lookup u with
      | some v => (scan .plain us).map (pushed [v])
      | none => (longEscapes.lookup u).bind fun left => scan (.hex left 0) us
  | .hex left n, u :: us =>
      (hexValue u).bind fun d =>
        if left ≠ 1 then scan (.hex (left - 1) (16 * n + d)) us
        else if isScalarValue (16 * n + d) then
          (scan .plain us).map (pushed (encodePoint (16 * n + d)))
        else none

/-! ## Lines -/

/-- A piece of a line, with its column if it opens something. -/
inductive Token
  | item (column : ℕ)
  | key (column : ℕ) (name : Text)
  | plain (text : Text)
  | quoted (text : Text)
  /-- the empty sequence `[]` -/
  | empty

/-- Letters and digits of ASCII. -/
def isAlnum (u : UInt16) : Bool :=
  (48 ≤ u.toNat && u.toNat ≤ 57) || (65 ≤ u.toNat && u.toNat ≤ 90) ||
    (97 ≤ u.toNat && u.toNat ≤ 122)

/-- Letters, digits, and the marks `-`, `.` and `/`. -/
def isWordUnit (u : UInt16) : Bool := isAlnum u || u = 45 || u = 46 || u = 47

/-- A scalar that needs no quotes. -/
def isWord (us : Text) : Bool := us.head?.any isAlnum && us.all isWordUnit

/-- What a comment can be made of: printable characters without the byte order mark. -/
def isCommentUnit (u : UInt16) : Bool :=
  u = 9 || (32 ≤ u.toNat && u.toNat ≤ 126) || u = 0x85 ||
    (0xa0 ≤ u.toNat && u.toNat ≤ 0xfffd && u ≠ 0xfeff)

/-- A scalar. -/
def readValue (us : Text) : Option (List Token) :=
  if us.head? = some 34 then
    (scan .plain us.tail).bind fun read => if read.2 = [] then some [.quoted read.1] else none
  else if us = [91, 93] then some [.empty]
  else if isWord us then some [.plain us]
  else none

/-- A key, with or without its value, or a scalar. -/
def readEntry (column : ℕ) (us : Text) : Option (List Token) :=
  let key := us.takeWhile isWordUnit
  let rest := us.dropWhile isWordUnit
  if isWord key && rest = [58] then some [.key column key]
  else if isWord key && rest.take 2 =
    [58, 32] then (readValue (rest.drop 2)).map (.key column key :: ·)
  else readValue us

/-- The tokens of a line from this column on. -/
def readLine (column : ℕ) : Text → Option (List Token)
  | [] => some []
  | [u] => if u = 32 ∨ u = 35 then some [] else readEntry column [u]
  | u :: v :: us =>
      if u = 32 then readLine (column + 1) (v :: us)
      else if u = 35 then if (v :: us).all isCommentUnit then some [] else none
      else if u = 45 ∧ v = 32 then (readLine (column + 2) us).map (.item column :: ·)
      else readEntry column (u :: v :: us)

/-! ## Documents -/

/-- A document. -/
inductive Value
  | plain (text : Text)
  | quoted (text : Text)
  | seq (items : List Value)
  | map (fields : List (Text × Value))

mutual

/-- The tokens of a value behind column `n`. -/
inductive Node : ℕ → Value → List Token → Prop
  | plain (n : ℕ) (text : Text) : Node n (.plain text) [.plain text]
  | quoted (n : ℕ) (text : Text) : Node n (.quoted text) [.quoted text]
  | empty (n : ℕ) : Node n (.seq []) [.empty]
  | seq {n c : ℕ} {items : List Value} {ts : List Token} (hc : n ≤ c) (hne : items ≠ [])
      (h : Items c items ts) : Node n (.seq items) ts
  | map {n c : ℕ} {fields : List (Text × Value)} {ts : List Token} (hc : n ≤ c) (hne : fields ≠ [])
      (hkeys : (fields.map Prod.fst).Nodup) (h : Fields c fields ts) : Node n (.map fields) ts

/-- The items of a sequence stand in one column. -/
inductive Items : ℕ → List Value → List Token → Prop
  | nil (c : ℕ) : Items c [] []
  | cons {c : ℕ} {v : Value} {items : List Value} {ts us : List Token} (hv : Node (c + 1) v ts)
      (hrest : Items c items us) : Items c (v :: items) (.item c :: ts ++ us)

/-- The keys of a mapping stand in one column. -/
inductive Fields : ℕ → List (Text × Value) → List Token → Prop
  | nil (c : ℕ) : Fields c [] []
  | cons {c : ℕ} {key : Text} {v : Value} {fields : List (Text × Value)} {ts us : List Token}
      (hv : Node (c + 1) v ts) (hrest : Fields c fields us) :
      Fields c ((key, v) :: fields) (.key c key :: ts ++ us)

end

/-- The text is a document with this value. -/
def Reads (text : Text) (v : Value) : Prop :=
  WellFormed text ∧ ∃ tokens, (text.splitOn 10).mapM (readLine 0) = some tokens ∧
    Node 0 v tokens.flatten

/-! ## Printing -/

section

variable {c : ℕ} {u : UInt16} {us key text line : Text} {v : Value} {lines lines' : List Text}
  {fields fields' : List (Text × Value)} {items items' : List Value} {ts ts' : List Token}

theorem isSurrogate_of_isWordUnit (hu : isWordUnit u) : isSurrogate u = false := by
  apply isSurrogate_of_lt
  simp only [isWordUnit, isAlnum, Bool.or_eq_true, Bool.and_eq_true, decide_eq_true_eq] at hu
  rcases hu with ((h | rfl) | rfl) | rfl
  · omega
  · decide
  · decide
  · decide

/-- A word is made of word units. -/
theorem isWord_units (h : isWord us) : ∀ u ∈ us, isWordUnit u := by
  rw [isWord, Bool.and_eq_true] at h
  exact List.all_eq_true.mp h.2

/-- So it is well formed. -/
theorem wellFormed_word (h : isWord us) : WellFormed us :=
  wellFormed_of_forall fun u hu => isSurrogate_of_isWordUnit (isWord_units h u hu)

/-- It has no line break. -/
theorem break_not_mem_word (h : isWord us) : 10 ∉ us := fun hmem =>
  absurd (isWord_units h 10 hmem) (by decide)

/-- A word begins with a letter or a digit. -/
theorem exists_cons_of_isWord (h : isWord us) : ∃ u rest, us = u :: rest ∧ isAlnum u := by
  cases us with
  | nil => cases h
  | cons u rest =>
    rw [isWord, Bool.and_eq_true, List.head?_cons, Option.any_some] at h
    exact ⟨u, rest, rfl, h.1⟩

/-- The text is a scalar on one line. -/
structure Shows (text : Text) (v : Value) : Prop where
  read : ∃ t, readValue text = some [t] ∧ ∀ n, Node n v [t]
  unbroken : 10 ∉ text
  wellFormed : WellFormed text

/-- A word is a plain scalar. -/
theorem shows_word (h : isWord us) : Shows us (.plain us) where
  read := by
    obtain ⟨u, rest, rfl, hu⟩ := exists_cons_of_isWord h
    have hquote : (u :: rest).head? ≠ some 34 := by
      rw [List.head?_cons, ne_eq, Option.some_inj]
      rintro rfl
      exact absurd hu (by decide)
    have hempty : u :: rest ≠ [91, 93] := by
      intro heq
      obtain ⟨rfl, -⟩ := List.cons.inj heq
      exact absurd hu (by decide)
    refine ⟨.plain (u :: rest), ?_, fun n => .plain n _⟩
    rw [readValue, if_neg hquote, if_neg hempty, if_pos h]
  unbroken := break_not_mem_word h
  wellFormed := wellFormed_word h

theorem shows_empty : Shows [91, 93] (.seq []) where
  read := ⟨.empty, by rw [readValue, if_neg (by decide), if_pos rfl], fun n => .empty n⟩
  unbroken := by decide
  wellFormed := wellFormed_of_isBasic (by decide)

/-- As many blanks. -/
def indent (n : ℕ) : Text := List.replicate n 32

/-- A blank moves on by a column. -/
theorem readLine_blank (column : ℕ) (us : Text) :
    readLine column (32 :: us) = readLine (column + 1) us := by
  cases us with
  | nil => rfl
  | cons v us => rw [readLine, if_pos rfl]

/-- So do `n` blanks, by `n` columns. -/
theorem readLine_indent (n column : ℕ) (us : Text) :
    readLine column (indent n ++ us) = readLine (column + n) us := by
  induction n generalizing column with
  | zero => rfl
  | succ n ih =>
    rw [indent, List.replicate_succ, List.cons_append, readLine_blank]
    exact (ih (column + 1)).trans (by rw [Nat.add_right_comm, Nat.add_assoc])

/-- A dash and a blank open an item. -/
theorem readLine_item (column : ℕ) (us : Text) :
    readLine column (45 :: 32 :: us) = (readLine (column + 2) us).map (.item column :: ·) := by
  rw [readLine, if_neg (by decide), if_neg (by decide), if_pos ⟨rfl, rfl⟩]

/-- What is no indentation, no comment and no item is an entry. -/
theorem readLine_entry (column : ℕ) (hu : u ≠ 32 ∧ u ≠ 35 ∧ u ≠ 45) :
    readLine column (u :: us) = readEntry column (u :: us) := by
  cases us with
  | nil => rw [readLine, if_neg (by tauto)]
  | cons v us => rw [readLine, if_neg hu.1, if_neg hu.2.1, if_neg (by tauto)]

theorem readLine_word (column : ℕ) (h : isWord key) (rest : Text) :
    readLine column (key ++ rest) = readEntry column (key ++ rest) := by
  obtain ⟨u, tail, rfl, hu⟩ := exists_cons_of_isWord h
  refine readLine_entry column ⟨?_, ?_, ?_⟩ <;> rintro rfl <;> exact absurd hu (by decide)

/-- A key is cut off at its colon. -/
theorem takeWhile_word (h : isWord key) (rest : Text) :
    (key ++ 58 :: rest).takeWhile isWordUnit = key ∧ (key ++ 58 :: rest).dropWhile isWordUnit =
    58 :: rest := by
  have hcolon : isWordUnit 58 = false := rfl
  rw [List.takeWhile_append_of_pos (isWord_units h), List.dropWhile_append_of_pos (isWord_units h),
    List.takeWhile_cons_of_neg (by rw [hcolon]; decide),
    List.dropWhile_cons_of_neg (by rw [hcolon]; decide)]
  exact ⟨List.append_nil key, rfl⟩

/-- A key alone opens a block. -/
theorem readEntry_key (column : ℕ) (h : isWord key) :
    readEntry column (key ++ [58]) = some [.key column key] := by
  obtain ⟨htake, hdrop⟩ := takeWhile_word h []
  simp only [readEntry, htake, hdrop, h, decide_true, Bool.and_self, if_true]

theorem readEntry_field (column : ℕ) (h : isWord key) (text : Text) :
    readEntry column (key ++ 58 :: 32 :: text) = (readValue text).map (.key column key :: ·) := by
  obtain ⟨htake, hdrop⟩ := takeWhile_word h (32 :: text)
  have hlong : (58 :: 32 :: text : Text) ≠ [58] := by
    intro heq
    cases heq
  simp only [readEntry, htake, hdrop, h, hlong, List.take_succ_cons, List.take_zero,
    List.drop_succ_cons, List.drop_zero, decide_true, decide_false, Bool.and_false, Bool.and_self,
    Bool.false_eq_true, if_false, if_true]

/-- The lines are read as these tokens. -/
structure Lexes (lines : List Text) (ts : List Token) : Prop where
  read : ∃ tokens, lines.mapM (readLine 0) = some tokens ∧ tokens.flatten = ts
  unbroken : ∀ line ∈ lines, 10 ∉ line
  wellFormed : ∀ line ∈ lines, WellFormed line

/-- No lines have no tokens. -/
theorem Lexes.nil : Lexes [] [] := ⟨⟨[], rfl, rfl⟩, by simp, by simp⟩

theorem Lexes.append (h : Lexes lines ts) (h' : Lexes lines' ts') :
    Lexes (lines ++ lines') (ts ++ ts') where
  read := by
    obtain ⟨tokens, hread, rfl⟩ := h.read
    obtain ⟨tokens', hread', rfl⟩ := h'.read
    refine ⟨tokens ++ tokens', ?_, List.flatten_append⟩
    rw [List.mapM_append, hread, hread']
    rfl
  unbroken := fun line hline => (List.mem_append.mp hline).elim (h.unbroken line) (h'.unbroken line)
  wellFormed := fun line hline =>
  (List.mem_append.mp hline).elim (h.wellFormed line) (h'.wellFormed line)

/-- The tokens of one line. -/
theorem Lexes.singleton (hread : readLine 0 line = some ts) (hbreak : 10 ∉ line)
    (hwell : WellFormed line) : Lexes [line] ts where
  read := ⟨[ts], by rw [List.mapM_cons, hread]; rfl, by simp⟩
  unbroken := by simpa using hbreak
  wellFormed := by simpa using hwell

/-- Blanks are no line breaks. -/
theorem break_not_mem_indent (n : ℕ) : 10 ∉ indent n := fun h => by
  have := List.eq_of_mem_replicate h
  cases this

/-- Nor are they surrogates. -/
theorem wellFormed_indent (n : ℕ) : WellFormed (indent n) :=
  wellFormed_of_forall fun u hu => by rw [List.eq_of_mem_replicate hu]; decide

/-- Fields may be put together. -/
theorem Fields.append (h : Fields c fields ts) (h' : Fields c fields' ts') :
    Fields c (fields ++ fields') (ts ++ ts') := by
  induction fields generalizing ts with
  | nil =>
    cases h
    exact h'
  | cons field fields ih =>
    cases h with
    | cons hv hrest =>
      rw [List.cons_append, List.cons_append, List.cons_append, List.append_assoc]
      exact .cons hv (ih hrest)

/-- So may items. -/
theorem Items.append (h : Items c items ts) (h' : Items c items' ts') :
    Items c (items ++ items') (ts ++ ts') := by
  induction items generalizing ts with
  | nil =>
    cases h
    exact h'
  | cons item items ih =>
    cases h with
    | cons hv hrest =>
      rw [List.cons_append, List.cons_append, List.cons_append, List.append_assoc]
      exact .cons hv (ih hrest)

/-- The lines are these fields of a mapping. -/
def FieldLines (c : ℕ) (lines : List Text) (fields : List (Text × Value)) : Prop :=
  ∃ ts, Lexes lines ts ∧ Fields c fields ts

/-- The lines are these items of a sequence. -/
def ItemLines (c : ℕ) (lines : List Text) (items : List Value) : Prop :=
  ∃ ts, Lexes lines ts ∧ Items c items ts

/-- No lines are no fields. -/
theorem FieldLines.nil (c : ℕ) : FieldLines c [] [] := ⟨[], .nil, .nil c⟩

theorem FieldLines.append (h : FieldLines c lines fields) (h' : FieldLines c lines' fields') :
    FieldLines c (lines ++ lines') (fields ++ fields') := by
  obtain ⟨ts, hlex, hfields⟩ := h
  obtain ⟨ts', hlex', hfields'⟩ := h'
  exact ⟨ts ++ ts', hlex.append hlex', hfields.append hfields'⟩

/-- No lines are no items. -/
theorem ItemLines.nil (c : ℕ) : ItemLines c [] [] := ⟨[], .nil, .nil c⟩

theorem ItemLines.append (h : ItemLines c lines items) (h' : ItemLines c lines' items') :
    ItemLines c (lines ++ lines') (items ++ items') := by
  obtain ⟨ts, hlex, hitems⟩ := h
  obtain ⟨ts', hlex', hitems'⟩ := h'
  exact ⟨ts ++ ts', hlex.append hlex', hitems.append hitems'⟩

/-- A key with a scalar. -/
theorem fieldLines_scalar (c : ℕ) (hkey : isWord key) (h : Shows text v) :
    FieldLines c [indent c ++ (key ++ 58 :: 32 :: text)] [(key, v)] := by
  obtain ⟨t, hread, hnode⟩ := h.read
  refine ⟨.key c key :: [t] ++ [], .singleton ?_ ?_ ?_, .cons (hnode _) (.nil c)⟩
  · rw [readLine_indent, readLine_word _ hkey, readEntry_field _ hkey, hread, Nat.zero_add]
    rfl
  · simp only [List.mem_append, List.mem_cons, not_or]
    exact ⟨break_not_mem_indent c, break_not_mem_word hkey, by decide, by decide, h.unbroken⟩
  · exact (wellFormed_indent c).append ((wellFormed_word hkey).append
    (.unit rfl (.unit rfl h.wellFormed)))

/-- A key with a block behind it. -/
theorem fieldLines_block (c : ℕ) (hkey : isWord key) (hlex : Lexes lines ts)
    (hnode : Node (c + 1) v ts) :
    FieldLines c ((indent c ++ (key ++ [58])) :: lines) [(key, v)] := by
  refine ⟨[.key c key] ++ ts, .append (.singleton ?_ ?_ ?_) hlex, ?_⟩
  · rw [readLine_indent, readLine_word _ hkey, readEntry_key _ hkey, Nat.zero_add]
  · simp only [List.mem_append, List.mem_singleton, not_or]
    exact ⟨break_not_mem_indent c, break_not_mem_word hkey, by decide⟩
  · exact (wellFormed_indent c).append ((wellFormed_word hkey).append (.unit rfl .nil))
  · have h : Fields c [(key, v)] (.key c key :: ts ++ []) := .cons hnode (.nil c)
    rwa [List.append_nil] at h

/-- A key with a mapping that stands further to the right. -/
theorem fieldLines_map {c' : ℕ} (hkey : isWord key) (hc : c < c') (hne : fields ≠ [])
    (hkeys : (fields.map Prod.fst).Nodup) (h : FieldLines c' lines fields) :
    FieldLines c ((indent c ++ (key ++ [58])) :: lines) [(key, .map fields)] := by
  obtain ⟨ts, hlex, hfields⟩ := h
  exact fieldLines_block c hkey hlex (.map hc hne hkeys hfields)

/-- A key with a sequence that stands further to the right. -/
theorem fieldLines_seq {c' : ℕ} (hkey : isWord key) (hc : c < c') (hne : items ≠ [])
    (h : ItemLines c' lines items) :
    FieldLines c ((indent c ++ (key ++ [58])) :: lines) [(key, .seq items)] := by
  obtain ⟨ts, hlex, hitems⟩ := h
  exact fieldLines_block c hkey hlex (.seq hc hne hitems)

/-- A scalar as an item. -/
theorem itemLines_scalar (c : ℕ) (hread : readLine (c + 2) text = readValue text)
    (h : Shows text v) : ItemLines c [indent c ++ 45 :: 32 :: text] [v] := by
  obtain ⟨t, hvalue, hnode⟩ := h.read
  refine ⟨.item c :: [t] ++ [], .singleton ?_ ?_ ?_, .cons (hnode _) (.nil c)⟩
  · rw [readLine_indent, readLine_item, Nat.zero_add, hread, hvalue]
    rfl
  · simp only [List.mem_append, List.mem_cons, not_or]
    exact ⟨break_not_mem_indent c, by decide, by decide, h.unbroken⟩
  · exact (wellFormed_indent c).append (.unit rfl (.unit rfl h.wellFormed))

/-- A mapping as an item: its first line carries the mark in the place of two blanks. -/
theorem itemLines_map (hne : fields ≠ []) (hkeys : (fields.map Prod.fst).Nodup)
    (h : FieldLines (c + 2) ((indent (c + 2) ++ line) :: lines) fields) :
    ItemLines c ((indent c ++ 45 :: 32 :: line) :: lines) [.map fields] := by
  obtain ⟨ts, hlex, hfields⟩ := h
  obtain ⟨tokens, hread, rfl⟩ := hlex.read
  rw [List.mapM_cons, readLine_indent, Nat.zero_add] at hread
  have hsplit : ∃ first rest, readLine (c + 2) line = some first ∧
      lines.mapM (readLine 0) = some rest ∧ tokens = first :: rest := by
    cases hfirst : readLine (c + 2) line with
    | none =>
      rw [hfirst] at hread
      cases hread
    | some first =>
      cases hrest : lines.mapM (readLine 0) with
      | none =>
        rw [hfirst, hrest] at hread
        cases hread
      | some rest =>
        rw [hfirst, hrest] at hread
        exact ⟨first, rest, rfl, rfl, (Option.some.inj hread).symm⟩
  obtain ⟨first, rest, hfirst, hrest, rfl⟩ := hsplit
  refine ⟨.item c :: (first :: rest).flatten ++ [],
    ⟨⟨(.item c :: first) :: rest, ?_, by simp⟩, ?_, ?_⟩,
    .cons (.map (Nat.le_succ _) hne hkeys hfields) (.nil c)⟩
  · rw [List.mapM_cons, readLine_indent, Nat.zero_add, readLine_item, hfirst, hrest]
    rfl
  · have hbreak := hlex.unbroken
    rw [List.forall_mem_cons] at hbreak ⊢
    refine ⟨?_, hbreak.2⟩
    simp only [List.mem_append, List.mem_cons, not_or]
    exact ⟨break_not_mem_indent c, by decide, by decide, fun h =>
      hbreak.1 (List.mem_append_right _ h)⟩
  · have hwell := hlex.wellFormed
    rw [List.forall_mem_cons] at hwell ⊢
    have hline := (wellFormed_indent (c + 2)).of_append_left hwell.1
    exact ⟨(wellFormed_indent c).append (.unit rfl (.unit rfl hline)), hwell.2⟩

/-- Every line is followed by a line break. -/
theorem intercalate_lines (hne : lines ≠ []) :
    ([10] : Text).intercalate lines ++ [10] = lines.flatMap fun line => line ++ [10] := by
  induction lines with
  | nil => exact absurd rfl hne
  | cons line lines ih =>
    rw [List.flatMap_cons]
    by_cases hlast : lines = []
    · rw [hlast, List.intercalate_singleton, List.flatMap_nil, List.append_nil]
    · rw [List.intercalate_cons_of_ne_nil hlast, List.append_assoc, ih hlast]

theorem splitOn_lines (hbreak : ∀ line ∈ lines, 10 ∉ line) :
    (lines.flatMap fun line => line ++ [(10 : UInt16)]).splitOn 10 = lines ++ [[]] := by
  induction lines with
  | nil => rfl
  | cons line lines ih =>
    obtain ⟨hline, hlines⟩ := List.forall_mem_cons.mp hbreak
    rw [List.flatMap_cons, List.append_assoc, List.singleton_append,
      List.splitOn_append_cons_self_of_not_mem hline, ih hlines, List.cons_append]

theorem wellFormed_lines (hwell : ∀ line ∈ lines, WellFormed line) :
    WellFormed (lines.flatMap fun line => line ++ [10]) := by
  induction lines with
  | nil => exact .nil
  | cons line lines ih =>
    obtain ⟨hline, hlines⟩ := List.forall_mem_cons.mp hwell
    have hbreak : WellFormed [10] := .unit (by decide) .nil
    rw [List.flatMap_cons]
    exact (hline.append hbreak).append (ih hlines)

/-- Lines that are read as the tokens of a value make a document. -/
theorem reads_of_lexes (hne : lines ≠ []) (hlex : Lexes lines ts) (hnode : Node 0 v ts) :
    Reads ([10].intercalate lines ++ [10]) v := by
  obtain ⟨tokens, hread, rfl⟩ := hlex.read
  rw [intercalate_lines hne]
  refine ⟨wellFormed_lines hlex.wellFormed, tokens ++ [[]], ?_, by simpa using hnode⟩
  rw [splitOn_lines hlex.unbroken, List.mapM_append, hread]
  rfl

/-- In a document every line is read. -/
theorem Reads.readLine_ne_none (h : Reads ([10].intercalate lines ++ [10]) v) (hline : line ∈ lines)
    (hbreak : 10 ∉ line) : readLine 0 line ≠ none := by
  obtain ⟨-, tokens, hread, -⟩ := h
  rw [intercalate_lines (List.ne_nil_of_mem hline)] at hread
  have hmem : line ∈ (lines.flatMap fun line => line ++ [(10 : UInt16)]).splitOn 10 := by
    clear hread
    induction lines with
    | nil => exact absurd hline List.not_mem_nil
    | cons first lines ih =>
      rw [List.flatMap_cons, List.append_assoc, List.singleton_append]
      obtain rfl | hline := List.mem_cons.mp hline
      · rw [List.splitOn_append_cons_self_of_not_mem hbreak]
        exact List.mem_cons_self
      · rw [List.splitOn_append_cons_self]
        exact List.mem_append_right _ (ih hline)
  generalize (lines.flatMap fun line => line ++ [(10 : UInt16)]).splitOn 10 = all at hread hmem
  induction all generalizing tokens with
  | nil => exact absurd hmem List.not_mem_nil
  | cons first all ih =>
    rw [List.mapM_cons] at hread
    intro hnone
    cases hfirst : readLine 0 first with
    | none =>
      rw [hfirst] at hread
      cases hread
    | some ts =>
      rw [hfirst] at hread
      obtain rfl | hmem := List.mem_cons.mp hmem
      · rw [hfirst] at hnone
        cases hnone
      · cases hrest : all.mapM (readLine 0) with
        | none =>
          rw [hrest] at hread
          cases hread
        | some rest => exact ih rest hrest hmem hnone

/-! ## A document has one value -/

/-- What follows a value behind column `n` stands before it. -/
def Stops (n : ℕ) (ts : List Token) : Prop :=
  ∀ t ∈ ts.head?, match t with
    | .item c => c < n
    | .key c _ => c < n
    | _ => False

theorem Items.stops {us : List Token} (h : Items c items ts) (hus : Stops c us) :
    Stops (c + 1) (ts ++ us) := by
  cases h with
  | nil =>
    intro t ht
    have hstop := hus t ht
    cases t <;> simp only at hstop ⊢ <;> omega
  | cons hv hrest =>
    intro t ht
    obtain rfl : _ = t := by simpa using ht
    exact Nat.lt_succ_self c

theorem Fields.stops {us : List Token} (h : Fields c fields ts) (hus : Stops c us) :
    Stops (c + 1) (ts ++ us) := by
  cases h with
  | nil =>
    intro t ht
    have hstop := hus t ht
    cases t <;> simp only at hstop ⊢ <;> omega
  | cons hv hrest =>
    intro t ht
    obtain rfl : _ = t := by simpa using ht
    exact Nat.lt_succ_self c

theorem Items.head (h : Items c items ts) (hne : items ≠ []) : ∃ rest, ts = .item c :: rest := by
  cases h with
  | nil => exact absurd rfl hne
  | cons hv hrest => exact ⟨_, rfl⟩

theorem Fields.head (h : Fields c fields ts) (hne : fields ≠ []) :
    ∃ name rest, ts = .key c name :: rest := by
  cases h with
  | nil => exact absurd rfl hne
  | cons hv hrest => exact ⟨_, _, rfl⟩

/-- The tokens are those of one value only, whatever follows. -/
def Determines (n : ℕ) (ts : List Token) (v : Value) : Prop :=
  ∀ v' ts' us us', Node n v' ts' → ts ++ us = ts' ++ us' → Stops n us → Stops n us' →
    v = v' ∧ us = us'

theorem Items.unique {k : ℕ} {us us' : List Token}
    (hnode : ∀ n v ts, ts.length < k → Node n v ts → Determines n ts v) (hk : ts.length ≤ k)
    (h : Items c items ts)
    (h' : Items c items' ts') (heq : ts ++ us = ts' ++ us') (hus : Stops c us)
    (hus' : Stops c us') :
    items = items' ∧ us = us' := by
  induction items generalizing ts items' ts' with
  | nil =>
    cases h
    cases h' with
    | nil => exact ⟨rfl, heq⟩
    | cons hv hrest =>
      rw [List.nil_append] at heq
      exact absurd (hus (.item c) (by rw [heq]; rfl)) (Nat.lt_irrefl c)
  | cons item items ih =>
    cases h with
    | @cons _ _ _ ts us₁ hv hrest =>
      cases h' with
      | nil =>
        rw [List.nil_append] at heq
        exact absurd (hus' (.item c) (by rw [← heq]; rfl)) (Nat.lt_irrefl c)
      | @cons _ _ _ ts' us₁' hv' hrest' =>
        simp only [List.cons_append, List.append_assoc, List.cons.injEq, true_and] at heq
        simp only [List.length_cons, List.length_append] at hk
        obtain ⟨rfl, heq⟩ := hnode _ _ _ (by omega) hv _ _ _ _ hv' heq (hrest.stops hus)
          (hrest'.stops hus')
        obtain ⟨rfl, heq⟩ := ih (by omega) hrest hrest' heq
        exact ⟨rfl, heq⟩

theorem Fields.unique {k : ℕ} {us us' : List Token}
    (hnode : ∀ n v ts, ts.length < k → Node n v ts → Determines n ts v) (hk : ts.length ≤ k)
    (h : Fields c fields ts) (h' : Fields c fields' ts') (heq : ts ++ us = ts' ++ us')
    (hus : Stops c us)
    (hus' : Stops c us') : fields = fields' ∧ us = us' := by
  induction fields generalizing ts fields' ts' with
  | nil =>
    cases h
    cases h' with
    | nil => exact ⟨rfl, heq⟩
    | @cons _ key _ _ _ _ hv hrest =>
      rw [List.nil_append] at heq
      exact absurd (hus (.key c key) (by rw [heq]; rfl)) (Nat.lt_irrefl c)
  | cons field fields ih =>
    cases h with
    | @cons _ key _ _ ts us₁ hv hrest =>
      cases h' with
      | nil =>
        rw [List.nil_append] at heq
        exact absurd (hus' (.key c key) (by rw [← heq]; rfl)) (Nat.lt_irrefl c)
      | @cons _ key' _ _ ts' us₁' hv' hrest' =>
        simp only [List.cons_append, List.append_assoc, List.cons.injEq, Token.key.injEq,
          true_and] at heq
        simp only [List.length_cons, List.length_append] at hk
        obtain ⟨rfl, heq⟩ := heq
        obtain ⟨rfl, heq⟩ := hnode _ _ _ (by omega) hv _ _ _ _ hv' heq (hrest.stops hus)
          (hrest'.stops hus')
        obtain ⟨rfl, heq⟩ := ih (by omega) hrest hrest' heq
        exact ⟨rfl, heq⟩

theorem Stops.mono {n m : ℕ} (hn : n ≤ m) (h : Stops n ts) : Stops m ts := by
  intro t ht
  have hstop := h t ht
  cases t <;> simp only at hstop ⊢ <;> omega

/-- What follows a value in a list of tokens is determined, and so is the value. -/
theorem Node.determines (n : ℕ) (v : Value) (ts : List Token) (h : Node n v ts) :
    Determines n ts v := by
  induction hk : ts.length using Nat.strong_induction_on generalizing n v ts with
  | h k ih =>
    have hnode : ∀ n v ts, ts.length < k → Node n v ts → Determines n ts v := fun n v ts hlt hts =>
      ih ts.length hlt n v ts hts rfl
    intro v' ts' us us' h' heq hus hus'
    -- the first token tells which kind of value it is
    cases h with
    | plain _ text =>
      cases h' with
      | plain _ text' => simpa using heq
      | quoted _ text' => simp at heq
      | empty => simp at heq
      | seq hc hne h' =>
        obtain ⟨rest, rfl⟩ := h'.head hne
        simp at heq
      | map hc hne hkeys h' =>
        obtain ⟨name, rest, rfl⟩ := h'.head hne
        simp at heq
    | quoted _ text =>
      cases h' with
      | plain _ text' => simp at heq
      | quoted _ text' => simpa using heq
      | empty => simp at heq
      | seq hc hne h' =>
        obtain ⟨rest, rfl⟩ := h'.head hne
        simp at heq
      | map hc hne hkeys h' =>
        obtain ⟨name, rest, rfl⟩ := h'.head hne
        simp at heq
    | empty =>
      cases h' with
      | plain _ text' => simp at heq
      | quoted _ text' => simp at heq
      | empty => simpa using heq
      | seq hc hne h' =>
        obtain ⟨rest, rfl⟩ := h'.head hne
        simp at heq
      | map hc hne hkeys h' =>
        obtain ⟨name, rest, rfl⟩ := h'.head hne
        simp at heq
    | @seq _ c items ts hc hne h =>
      obtain ⟨rest, rfl⟩ := h.head hne
      cases h' with
      | plain _ text' => simp at heq
      | quoted _ text' => simp at heq
      | empty => simp at heq
      | @seq _ c' items' ts' hc' hne' h' =>
        obtain ⟨rest', rfl⟩ := h'.head hne'
        obtain ⟨hcolumn, -⟩ := List.cons.inj heq
        obtain rfl := Token.item.inj hcolumn
        obtain ⟨rfl, heq⟩ := h.unique hnode hk.le h' heq (hus.mono hc) (hus'.mono hc)
        exact ⟨rfl, heq⟩
      | map hc' hne' hkeys' h' =>
        obtain ⟨name, rest', rfl⟩ := h'.head hne'
        simp at heq
    | @map _ c fields ts hc hne hkeys h =>
      obtain ⟨name, rest, rfl⟩ := h.head hne
      cases h' with
      | plain _ text' => simp at heq
      | quoted _ text' => simp at heq
      | empty => simp at heq
      | seq hc' hne' h' =>
        obtain ⟨rest', rfl⟩ := h'.head hne'
        simp at heq
      | @map _ c' fields' ts' hc' hne' hkeys' h' =>
        obtain ⟨name', rest', rfl⟩ := h'.head hne'
        obtain ⟨hcolumn, -⟩ := List.cons.inj heq
        obtain ⟨rfl, -⟩ := Token.key.inj hcolumn
        obtain ⟨rfl, heq⟩ := h.unique hnode hk.le h' heq (hus.mono hc) (hus'.mono hc)
        exact ⟨rfl, heq⟩

/-- A document has one value. -/
theorem Reads.unique {v' : Value} (h : Reads text v) (h' : Reads text v') : v = v' := by
  obtain ⟨-, tokens, hread, hnode⟩ := h
  obtain ⟨-, tokens', hread', hnode'⟩ := h'
  obtain rfl := Option.some.inj (hread.symm.trans hread')
  have hend : Stops 0 [] := by
    intro t ht
    cases ht
  exact (hnode.determines _ _ _ _ _ _ _ hnode' rfl hend hend).1

end

end YamlText
