import Mathlib.Data.List.Basic
import Mathlib.Data.Nat.Notation

/-!
# Percent escapes

In a URL a byte is written as a percent sign and two hexadecimal digits. Whoever writes a text
escapes the characters of some set, in UTF-8. If the percent sign is not in the set, a text that
has one is not read as it was written, unless its percent signs are no escapes and nothing else in
it is escaped: then a careful reader takes the text as it stands.
-/

namespace Percent

/-- A hexadecimal digit, in upper case. -/
def hexDigit (n : ℕ) : Char := if n < 10 then .ofNat (48 + n) else .ofNat (55 + n)

/-- What a hexadecimal digit stands for, in upper or lower case. -/
def hexValue (c : Char) : Option ℕ :=
  if '0' ≤ c ∧ c ≤ '9' then some (c.toNat - 48)
  else if 'A' ≤ c ∧ c ≤ 'F' then some (c.toNat - 55)
  else if 'a' ≤ c ∧ c ≤ 'f' then some (c.toNat - 87)
  else none

/-- A byte, escaped. -/
def escapeByte (b : UInt8) : List Char := ['%', hexDigit (b.toNat / 16), hexDigit (b.toNat % 16)]

/-- A text with the characters of a set escaped. -/
def encode (set : Char → Bool) (cs : List Char) : List Char :=
  cs.flatMap fun c => if set c then (String.utf8EncodeChar c).flatMap escapeByte else [c]

/-- The bytes that a text with escapes stands for; none if a percent sign begins no escape. -/
def bytes : List Char → Option (List UInt8)
  | [] => some []
  | c :: cs =>
      if c = '%' then
        match cs with
        | h :: l :: cs =>
            (hexValue h).bind fun h => (hexValue l).bind fun l =>
              (bytes cs).map (.ofNat (16 * h + l) :: ·)
        | _ => none
      else (bytes cs).map (String.utf8EncodeChar c ++ ·)

/-- The text that one with escapes stands for, if it is one. -/
def decode (cs : List Char) : Option String :=
  (bytes cs).bind fun bs => String.fromUTF8? bs.toByteArray

/-- A careful reader: what is no text with escapes is taken as it stands. -/
def tryDecode (cs : List Char) : String := (decode cs).getD (.ofList cs)

variable {set : Char → Bool} {cs : List Char}

/-! ## What the escapes stand for -/

theorem hexValue_hexDigit : ∀ n < 16, hexValue (hexDigit n) = some n := by decide

theorem bytes_cons_of_ne {c : Char} (hc : c ≠ '%') (cs : List Char) :
    bytes (c :: cs) = (bytes cs).map (String.utf8EncodeChar c ++ ·) :=
  (bytes.eq_def _).trans (if_neg hc)

theorem bytes_percent (h l : Char) (cs : List Char) : bytes ('%' :: h :: l :: cs) =
    (hexValue h).bind fun h => (hexValue l).bind fun l => (bytes cs).map
    (.ofNat (16 * h + l) :: ·) := by
  rw [bytes, if_pos rfl]

theorem bytes_escapeByte (b : UInt8) (cs : List Char) :
    bytes (escapeByte b ++ cs) = (bytes cs).map (b :: ·) := by
  have hb := b.toNat_lt
  have hdigits : UInt8.ofNat (16 * (b.toNat / 16) + b.toNat % 16) = b := by
    rw [Nat.div_add_mod, UInt8.ofNat_toNat]
  rw [escapeByte, List.cons_append, List.cons_append, List.cons_append, List.nil_append,
    bytes_percent, hexValue_hexDigit _ (by omega), hexValue_hexDigit _ (by omega), Option.bind_some,
    Option.bind_some, hdigits]

theorem bytes_escaped (bs : List UInt8) (cs : List Char) :
    bytes (bs.flatMap escapeByte ++ cs) = (bytes cs).map (bs ++ ·) := by
  induction bs with
  | nil => simp
  | cons b bs ih =>
      rw [List.flatMap_cons, List.append_assoc, bytes_escapeByte, ih, Option.map_map]
      rfl

/-- Digits and the percent sign are not escaped. -/
structure Sparing (set : Char → Bool) : Prop where
  percent : set '%' = false
  digit : ∀ c, (hexValue c).isSome → set c = false

theorem Sparing.hexValue (h : Sparing set) {c : Char} (hc : set c = true) : hexValue c = none := by
  rw [← Option.not_isSome_iff_eq_none]
  intro hsome
  rw [h.digit c hsome] at hc
  cases hc

theorem encode_cons (c : Char) (cs : List Char) : encode set (c :: cs) =
    (if set c then (String.utf8EncodeChar c).flatMap escapeByte else [c]) ++ encode set cs := by
  rw [encode, List.flatMap_cons, ← encode]

/-- An escaped character begins with a percent sign and two more. -/
theorem exists_escaped (c : Char) (cs : List Char) :
    ∃ h l rest, (String.utf8EncodeChar c).flatMap escapeByte ++ cs = '%' :: h :: l :: rest := by
  obtain ⟨b, bs, hbytes⟩ := List.exists_cons_of_ne_nil (String.utf8EncodeChar_ne_nil (c := c))
  rw [hbytes, List.flatMap_cons, escapeByte]
  exact ⟨_, _, _, rfl⟩

theorem bytes_short (h : ∀ (d e : Char) (rest : List Char), cs = d :: e :: rest → False) :
    bytes ('%' :: cs) = none := by
  match cs with
  | [] => rfl
  | [_] => rfl
  | d :: e :: rest => exact (h d e rest rfl).elim

/-- No escape begins with something that is no digit. -/
theorem bytes_percent_first {h : Char} (hh : Percent.hexValue h = none) (cs : List Char) :
    bytes ('%' :: h :: cs) = none := by
  cases cs with
  | nil => rfl
  | cons l cs => rw [bytes_percent, hh, Option.bind_none]

theorem bytes_percent_second {h l : Char} (hl : Percent.hexValue l = none) (cs : List Char) :
    bytes ('%' :: h :: l :: cs) = none := by
  rw [bytes_percent, hl]
  cases Percent.hexValue h <;> rfl

/-- Escapes change nothing about what a text stands for. -/
theorem bytes_encode (hset : Sparing set) (cs : List Char) : bytes (encode set cs) = bytes cs := by
  have hpercent : Percent.hexValue '%' = none := by decide
  have hplain : ∀ {c : Char} {cs : List Char}, c ≠ '%' → bytes (encode set cs) = bytes cs →
      bytes (encode set (c :: cs)) = bytes (c :: cs) := by
    intro c cs hc ih
    rw [encode_cons, bytes_cons_of_ne hc, ← ih]
    split
    · exact bytes_escaped _ _
    · exact bytes_cons_of_ne hc _
  have hsign : ∀ cs, encode set ('%' :: cs) = '%' :: encode set cs := fun cs => by
    rw [encode_cons, hset.percent]
    rfl
  induction cs using bytes.induct with
  | case1 => rfl
  | case2 h l cs ih =>
      rw [hsign, encode_cons]
      by_cases hh : set h = true
      · obtain ⟨x, y, rest, heq⟩ := exists_escaped h (encode set (l :: cs))
        rw [if_pos hh, heq, bytes_percent_first hpercent, bytes_percent_first (hset.hexValue hh)]
      · rw [if_neg hh, List.singleton_append, encode_cons]
        by_cases hl : set l = true
        · obtain ⟨x, y, rest, heq⟩ := exists_escaped l (encode set cs)
          rw [if_pos hl, heq, bytes_percent_second hpercent,
            bytes_percent_second (hset.hexValue hl)]
        · rw [if_neg hl, List.singleton_append, bytes_percent, bytes_percent, ih]
  | case3 cs hshort =>
      rw [hsign]
      match cs with
      | [] => rfl
      | [h] =>
          rw [encode_cons]
          by_cases hh : set h = true
          · obtain ⟨x, y, rest, heq⟩ := exists_escaped h (encode set [])
            rw [if_pos hh, heq, bytes_percent_first hpercent,
              bytes_percent_first (hset.hexValue hh)]
          · rw [if_neg hh]
            rfl
      | h :: l :: cs => exact absurd rfl (hshort h l cs)
  | case4 c cs hc ih => exact hplain hc ih

/-! ## What is read -/

theorem bytes_of_plain (h : '%' ∉ cs) : bytes cs = some (cs.flatMap String.utf8EncodeChar) := by
  induction cs with
  | nil => rfl
  | cons c cs ih =>
      rw [List.mem_cons, not_or] at h
      rw [bytes_cons_of_ne (Ne.symm h.1), ih h.2]
      rfl

/-- An escape is longer than the byte that it stands for. -/
theorem length_bytes_le {bs : List UInt8} (h : bytes cs = some bs) :
    bs.length ≤ (cs.flatMap String.utf8EncodeChar).length ∧
      ('%' ∈ cs → bs.length < (cs.flatMap String.utf8EncodeChar).length) := by
  have hpos : ∀ c, 0 < (String.utf8EncodeChar c).length := fun c =>
    List.length_pos_of_ne_nil String.utf8EncodeChar_ne_nil
  induction cs using bytes.induct generalizing bs with
  | case1 =>
      obtain rfl := Option.some.inj h
      exact ⟨Nat.le_refl _, fun h => (by cases h)⟩
  | case2 h' l cs ih =>
      rw [bytes_percent] at h
      obtain ⟨m, -, h⟩ := Option.bind_eq_some_iff.mp h
      obtain ⟨n, -, h⟩ := Option.bind_eq_some_iff.mp h
      obtain ⟨bs, hbs, rfl⟩ := Option.map_eq_some_iff.mp h
      have hle := (ih hbs).1
      have h₁ := hpos '%'
      have h₂ := hpos h'
      have h₃ := hpos l
      simp only [List.flatMap_cons, List.length_append, List.length_cons]
      omega
  | case3 cs hshort =>
      rw [bytes_short hshort] at h
      cases h
  | case4 c cs hc ih =>
      rw [bytes_cons_of_ne hc] at h
      obtain ⟨bs, hbs, rfl⟩ := Option.map_eq_some_iff.mp h
      obtain ⟨hle, hlt⟩ := ih hbs
      simp only [List.flatMap_cons, List.length_append, List.mem_cons]
      refine ⟨by omega, ?_⟩
      rintro (rfl | hmem)
      · exact absurd rfl hc
      · have := hlt hmem
        omega

/-- A text is read from its bytes. -/
theorem fromUTF8?_utf8 (cs : List Char) :
    String.fromUTF8? (cs.flatMap String.utf8EncodeChar).toByteArray = some (.ofList cs) := by
  have hbytes : (cs.flatMap String.utf8EncodeChar).toByteArray =
      (String.ofList cs).toByteArray := by
    rw [String.toByteArray_ofList, List.utf8Encode]
  rw [hbytes, String.fromUTF8?, dif_pos (String.ofList cs).isValidUTF8]
  rfl

/-- Bytes that are read as a text are its bytes. -/
theorem eq_utf8_of_fromUTF8? {bs : List UInt8} {s : String}
    (h : String.fromUTF8? bs.toByteArray = some s) :
    bs = s.toList.flatMap String.utf8EncodeChar := by
  rw [String.fromUTF8?] at h
  split at h
  · obtain rfl := Option.some.inj h
    rw [← List.toByteArray_inj, ← List.utf8Encode, String.utf8Encode_toList]
    rfl
  · cases h

/-- A text is read as it was written unless it has a percent sign. -/
theorem decode_encode (hset : Sparing set) (hplain : '%' ∉ cs) :
    decode (encode set cs) = some (.ofList cs) := by
  rw [decode, bytes_encode hset, bytes_of_plain hplain, Option.bind_some, fromUTF8?_utf8]

/-- What is read has at most as many bytes as the text, and fewer if the text has a percent sign. -/
theorem length_decode_le (hset : Sparing set) {s : String} (h : decode (encode set cs) = some s) :
    (s.toList.flatMap String.utf8EncodeChar).length ≤ (cs.flatMap String.utf8EncodeChar).length ∧
      ('%' ∈ cs → s.toList ≠ cs) := by
  rw [decode, bytes_encode hset] at h
  obtain ⟨bs, hbs, hread⟩ := Option.bind_eq_some_iff.mp h
  obtain ⟨hle, hlt⟩ := length_bytes_le hbs
  rw [eq_utf8_of_fromUTF8? hread] at hle hlt
  refine ⟨hle, fun hmem heq => ?_⟩
  rw [heq] at hlt
  exact absurd (hlt hmem) (Nat.lt_irrefl _)

/-- No character of the set is left. -/
theorem set_of_mem_encode (hset : Sparing set) {c : Char} (hmem : c ∈ encode set cs) :
    set c = false := by
  have hdigit : ∀ n < 16, set (hexDigit n) = false := fun n hn =>
    hset.digit _ (by rw [hexValue_hexDigit n hn]; rfl)
  obtain ⟨d, -, hd⟩ := List.mem_flatMap.mp hmem
  split at hd
  · obtain ⟨b, -, hb⟩ := List.mem_flatMap.mp hd
    have hlt := b.toNat_lt
    simp only [escapeByte, List.mem_cons, List.not_mem_nil, or_false] at hb
    rcases hb with rfl | rfl | rfl
    · exact hset.percent
    · exact hdigit _ (by omega)
    · exact hdigit _ (by omega)
  · next hplain =>
    obtain rfl := List.mem_singleton.mp hd
    simpa using hplain

theorem encode_eq_self (h : ∀ c ∈ cs, set c = false) : encode set cs = cs := by
  induction cs with
  | nil => rfl
  | cons c cs ih =>
      obtain ⟨hc, hcs⟩ := List.forall_mem_cons.mp h
      rw [encode_cons, hc, ih hcs]
      rfl

/-- The texts that are read as they were written: those without a percent sign, and those whose
percent signs are no escapes and that have nothing to escape. -/
def Legible (set : Char → Bool) (cs : List Char) : Prop :=
  '%' ∉ cs ∨ decode cs = none ∧ ∀ c ∈ cs, set c = false

theorem tryDecode_encode_iff (hset : Sparing set) :
    tryDecode (encode set cs) = .ofList cs ↔ Legible set cs := by
  have hdecode : decode (encode set cs) = decode cs := by
    rw [decode, bytes_encode hset, ← decode]
  unfold tryDecode Legible
  by_cases hplain : '%' ∉ cs
  · rw [decode_encode hset hplain]
    simp [hplain]
  refine Iff.trans ?_ (or_iff_right hplain).symm
  rw [not_not] at hplain
  cases hread : decode cs with
  | some s =>
      have hne := (length_decode_le hset (hdecode.trans hread)).2 hplain
      rw [hdecode, hread, Option.getD_some]
      simp only [reduceCtorEq, false_and, iff_false]
      rintro rfl
      exact hne String.toList_ofList
  | none =>
      rw [hdecode, hread, Option.getD_none, String.ofList_inj]
      simp only [true_and]
      exact ⟨fun h c hc => set_of_mem_encode hset (h ▸ hc), encode_eq_self⟩

/-- What is left out of a text has at least a byte for each character. -/
theorem length_utf8_sublist {s : List Char} (hsub : cs.Sublist s) :
    (cs.flatMap String.utf8EncodeChar).length + s.length ≤
      (s.flatMap String.utf8EncodeChar).length + cs.length := by
  have hpos : ∀ c, 0 < (String.utf8EncodeChar c).length := fun c =>
    List.length_pos_of_ne_nil String.utf8EncodeChar_ne_nil
  induction hsub with
  | slnil => exact Nat.le_refl _
  | cons c _ ih =>
      have := hpos c
      rw [List.flatMap_cons, List.length_append, List.length_cons]
      omega
  | cons_cons c _ ih =>
      simp only [List.flatMap_cons, List.length_append, List.length_cons]
      omega

/-- A part of a text is not read as the whole text, if what is left out would be escaped. -/
theorem eq_of_tryDecode_encode (hset : Sparing set) {s : List Char} (hsub : cs.Sublist s)
    (hrest : (∀ c ∈ s, set c = false) → cs = s) (h : tryDecode (encode set cs) = .ofList s) :
    cs = s := by
  unfold tryDecode at h
  cases hread : decode (encode set cs) with
  | some t =>
      rw [hread, Option.getD_some] at h
      have hle := (length_decode_le hset hread).1
      rw [h, String.toList_ofList] at hle
      have hbytes := length_utf8_sublist hsub
      exact hsub.eq_of_length_le (by omega)
  | none =>
      rw [hread, Option.getD_none, String.ofList_inj] at h
      exact hrest fun c hc => set_of_mem_encode hset (h ▸ hc)

end Percent
