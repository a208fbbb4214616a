import SRPanel.Lib.Percent

/-!
# JSON objects of texts

An object whose values are texts, as a runtime writes it without white space, and how it is read
back. What is written is read as it was.
-/

namespace JsonObject

open Percent (hexValue)

/-! ## Texts -/

/-- A hexadecimal digit, in lower case. -/
def hexDigit (n : ℕ) : Char := if n < 10 then .ofNat (48 + n) else .ofNat (87 + n)

/-- The letters behind a backslash, with the code points that they stand for. -/
def SHORT : List (Char × ℕ) :=
  [('"', 34), ('\\', 92), ('/', 47), ('b', 8), ('f', 12), ('n', 10), ('r', 13), ('t', 9)]

/-- How a character is written. -/
def quoteChar (c : Char) : List Char :=
  if c.toNat = 34 then ['\\', '"']
  else if c.toNat = 92 then ['\\', '\\']
  else if c.toNat = 8 then ['\\', 'b']
  else if c.toNat = 9 then ['\\', 't']
  else if c.toNat = 10 then ['\\', 'n']
  else if c.toNat = 12 then ['\\', 'f']
  else if c.toNat = 13 then ['\\', 'r']
  else if c.toNat < 32 then ['\\', 'u', '0', '0', hexDigit (c.toNat / 16), hexDigit (c.toNat % 16)]
  else [c]

/-- A text in quotes. -/
def quote (cs : List Char) : List Char := '"' :: (cs.flatMap quoteChar ++ ['"'])

/-- The text with another character in front. -/
def pushed (c : Char) (r : List Char × List Char) : List Char × List Char := (c :: r.1, r.2)

/-- The rest of a text in quotes, and what follows it. An escape stands for one code point: pairs of
surrogates, which the writer does not use, are not read. -/
def readText : List Char → Option (List Char × List Char)
  | [] => none
  | c :: cs =>
      if c = '"' then some ([], cs)
      else if c = '\\' then
        match cs with
        | [] => none
        | e :: cs =>
            if e = 'u' then
              match cs with
              | h₃ :: h₂ :: h₁ :: h₀ :: cs =>
                  (hexValue h₃).bind fun h₃ => (hexValue h₂).bind fun h₂ =>
                    (hexValue h₁).bind fun h₁ =>
                    (hexValue h₀).bind fun h₀ =>
                      let n := ((16 * h₃ + h₂) * 16 + h₁) * 16 + h₀
                      if n.isValidChar then (readText cs).map (pushed (.ofNat n)) else none
              | _ => none
            else (SHORT.lookup e).bind fun n => (readText cs).map (pushed (.ofNat n))
      else if c.toNat < 32 then none
      else (readText cs).map (pushed c)

theorem hexValue_hexDigit : ∀ n < 16, hexValue (hexDigit n) = some n := by decide

theorem readText_short {e : Char} {n : ℕ} (hu : e ≠ 'u') (he : SHORT.lookup e = some n)
    (rest : List Char) : readText ('\\' :: e :: rest) =
    (readText rest).map (pushed (.ofNat n)) := by
  refine (readText.eq_def _).trans ?_
  dsimp only
  rw [if_neg (by decide), if_pos rfl, if_neg hu, he, Option.bind_some]

theorem readText_plain {c : Char} (hquote : c.toNat ≠ 34) (hslash : c.toNat ≠ 92)
    (hlow : ¬c.toNat < 32) (rest : List Char) :
    readText (c :: rest) = (readText rest).map (pushed c) := by
  refine (readText.eq_def _).trans ?_
  dsimp only
  rw [if_neg (fun h => hquote (by rw [h]; rfl)), if_neg (fun h => hslash (by rw [h]; rfl)),
    if_neg hlow]

theorem readText_unicode {n : ℕ} (hn : n < 32) (rest : List Char) :
    readText ('\\' :: 'u' :: '0' :: '0' :: hexDigit (n / 16) :: hexDigit (n % 16) :: rest) =
      (readText rest).map (pushed (.ofNat n)) := by
  refine (readText.eq_def _).trans ?_
  dsimp only
  rw [if_neg (by decide), if_pos rfl, if_pos rfl, show hexValue '0' = some 0 from rfl,
    hexValue_hexDigit _ (by omega), hexValue_hexDigit _ (by omega)]
  have hsum : ((16 * 0 + 0) * 16 + n / 16) * 16 + n % 16 = n := by omega
  simp only [Option.bind_some, hsum]
  rw [if_pos (Or.inl (by omega))]

/-- A character is read as it was written. -/
theorem readText_quoteChar (c : Char) (rest : List Char) :
    readText (quoteChar c ++ rest) = (readText rest).map (pushed c) := by
  have hshort : ∀ {e : Char} {n : ℕ}, e ≠ 'u' → SHORT.lookup e = some n → c.toNat = n →
      readText ('\\' :: e :: rest) = (readText rest).map (pushed c) := by
    intro e n hu he hn
    rw [readText_short hu he, ← hn, Char.ofNat_toNat]
  unfold quoteChar
  split
  · next h => exact hshort (by decide) rfl h
  split
  · next h => exact hshort (by decide) rfl h
  split
  · next h => exact hshort (by decide) rfl h
  split
  · next h => exact hshort (by decide) rfl h
  split
  · next h => exact hshort (by decide) rfl h
  split
  · next h => exact hshort (by decide) rfl h
  split
  · next h => exact hshort (by decide) rfl h
  split
  · next h =>
    have hread := readText_unicode h rest
    rwa [Char.ofNat_toNat] at hread
  · next hquote hslash _ _ _ _ _ hlow => exact readText_plain hquote hslash hlow rest

theorem readText_quote (cs rest : List Char) :
    readText (cs.flatMap quoteChar ++ '"' :: rest) = some (cs, rest) := by
  induction cs with
  | nil => exact (readText.eq_def _).trans (if_pos rfl)
  | cons c cs ih =>
      rw [List.flatMap_cons, List.append_assoc, readText_quoteChar, ih]
      rfl

/-! ## Objects -/

/-- The fields of an object, each behind a comma but the first. -/
def members : List (String × String) → List Char
  | [] => []
  | [f] => quote f.1.toList ++ ':' :: quote f.2.toList
  | f :: fields => quote f.1.toList ++ ':' :: (quote f.2.toList ++ ',' :: members fields)

/-- An object of texts. -/
def stringify (fields : List (String × String)) : String :=
  .ofList ('{' :: (members fields ++ ['}']))

/-- The members up to the closing brace, at most `n`. -/
def readMembers : ℕ → List Char → Option (List (String × String))
  | 0, _ => none
  | n + 1, cs =>
      match cs with
      | '"' :: cs =>
          match readText cs with
          | some (key, ':' :: '"' :: cs) =>
              match readText cs with
              | some (value, ['}']) => some [(.ofList key, .ofList value)]
              | some (value, ',' :: cs) =>
                (readMembers n cs).map ((.ofList key, .ofList value) :: ·)
              | _ => none
          | _ => none
      | _ => none

/-- The fields of an object of texts. -/
def parse (text : String) : Option (List (String × String)) :=
  match text.toList with
  | ['{', '}'] => some []
  | '{' :: cs => readMembers cs.length cs
  | _ => none

theorem readMembers_members (fields : List (String × String)) (hne : fields ≠ []) {n : ℕ}
    (hn : fields.length ≤ n) : readMembers n (members fields ++ ['}']) = some fields := by
  induction fields generalizing n with
  | nil => exact absurd rfl hne
  | cons f fields ih =>
      obtain ⟨n, rfl⟩ : ∃ m, n = m + 1 := ⟨n - 1, by rw [List.length_cons] at hn; omega⟩
      cases fields with
      | nil =>
          simp only [members, quote, List.cons_append, List.append_assoc, List.nil_append,
            readMembers, readText_quote, String.ofList_toList]
      | cons g fields =>
          have hrest := ih (List.cons_ne_nil g fields) (Nat.le_of_succ_le_succ hn)
          simp only [members, quote, List.cons_append, List.append_assoc, List.nil_append,
            readMembers, readText_quote, String.ofList_toList, hrest, Option.map_some]

theorem length_le_members (fields : List (String × String)) :
    fields.length ≤ (members fields).length := by
  induction fields with
  | nil => exact Nat.zero_le _
  | cons f fields ih =>
      cases fields with
      | nil => simp [members, quote]
      | cons g fields =>
          simp only [members, quote, List.length_cons, List.length_append] at ih ⊢
          omega

/-- What is written is read as it was. -/
theorem parse_stringify (fields : List (String × String)) :
    parse (stringify fields) = some fields := by
  unfold parse stringify
  rw [String.toList_ofList]
  cases fields with
  | nil => rfl
  | cons f fields =>
      have hlength : (f :: fields).length ≤ (members (f :: fields) ++ ['}']).length :=
        Nat.le_trans (length_le_members _) (List.length_append ▸ Nat.le_add_right _ _)
      have hread := readMembers_members (f :: fields) (List.cons_ne_nil f fields) hlength
      obtain ⟨cs, hcs⟩ : ∃ cs, members (f :: fields) ++ ['}'] = '"' :: cs := by
        cases fields <;> exact ⟨_, rfl⟩
      rw [hcs] at hread ⊢
      exact hread

end JsonObject
