import SRPanel.Lib.YamlText

/-!
# JSON texts as YAML scalars

`JSON.stringify` of a text is a YAML scalar in double quotes that stands for the same text if the
text is well formed. If it is not, its lone surrogates become escapes, and these YAML does not take.
-/

namespace JsonText

open Utf16 YamlText

/-- A hexadecimal digit, in lower case. -/
def hexUnit (d : ℕ) : UInt16 := if d < 10 then .ofNat (48 + d) else .ofNat (87 + d)

/-- `\u` and four digits. -/
def unicodeEscape (u : UInt16) : Text :=
  92 :: 117 :: [u.toNat / 4096, u.toNat / 256 % 16, u.toNat / 16 % 16, u.toNat % 16].map hexUnit

/-- How a code point of one unit is written. -/
def quoteUnit (u : UInt16) : Text :=
  if u = 8 then [92, 98]
  else if u = 9 then [92, 116]
  else if u = 10 then [92, 110]
  else if u = 12 then [92, 102]
  else if u = 13 then [92, 114]
  else if u = 34 then [92, 34]
  else if u = 92 then [92, 92]
  else if u.toNat < 32 || isSurrogate u then unicodeEscape u
  else [u]

/-- How a code point is written. -/
def quotePoint : Text → Text
  | [u] => quoteUnit u
  | us => us

/-- What stands between the quotes. -/
def quoteBody (us : Text) : Text := (points us).flatMap quotePoint

/-- `JSON.stringify` of a text. -/
def quote (us : Text) : Text := 34 :: (quoteBody us ++ [34])

/-! ## Reading -/

section

variable {c : ℕ} {u : UInt16} {us rest : Text}

theorem hexValue_hexUnit {d : ℕ} (hd : d < 16) : hexValue (hexUnit d) = some d := by
  unfold hexUnit hexValue
  split
  · rw [UInt16.toNat_ofNat_of_lt' (show _ < 65536 by omega), if_pos (by omega),
    Nat.add_sub_cancel_left]
  · rw [UInt16.toNat_ofNat_of_lt' (show _ < 65536 by omega), if_neg (by omega), if_pos (by omega),
    Nat.add_sub_cancel_left]

theorem encodePoint_unit (u : UInt16) : encodePoint u.toNat = [u] := by
  have hu := u.toNat_lt
  rw [encodePoint, if_pos (by omega), UInt16.ofNat_toNat]

theorem scan_digit {d : ℕ} (hd : hexValue u = some d) (left n : ℕ) (rest : Text) :
    scan (.hex (left + 2) n) (u :: rest) = scan (.hex (left + 1) (16 * n + d)) rest := by
  rw [scan, hd, Option.bind_some, if_pos (by omega)]
  rfl

theorem scan_lastDigit {d : ℕ} (hd : hexValue u = some d) (n : ℕ) (rest : Text) :
    scan (.hex 1 n) (u :: rest) = if isScalarValue (16 * n + d) then
      (scan .plain rest).map (pushed (encodePoint (16 * n + d))) else none := by
  rw [scan, hd, Option.bind_some, if_neg (not_not.mpr rfl)]

/-- A number of four digits is taken if it is a character. -/
theorem scan_unicodeEscape (u : UInt16) (rest : Text) : scan .plain (unicodeEscape u ++ rest) =
    if isScalarValue u.toNat then (scan .plain rest).map (pushed [u]) else none := by
  have hu := u.toNat_lt
  have h₀ := hexValue_hexUnit (show u.toNat / 4096 < 16 by omega)
  have h₁ := hexValue_hexUnit (Nat.mod_lt (u.toNat / 256) (show 0 < 16 by decide))
  have h₂ := hexValue_hexUnit (Nat.mod_lt (u.toNat / 16) (show 0 < 16 by decide))
  have h₃ := hexValue_hexUnit (Nat.mod_lt u.toNat (show 0 < 16 by decide))
  have hsum : 16 * (16 * (16 * (16 * 0 + u.toNat / 4096) + u.toNat / 256 % 16) +
      u.toNat / 16 % 16) + u.toNat % 16 = u.toNat := by omega
  have hstart : ∀ digits, scan .plain (92 :: 117 :: digits) = scan (.hex 4 0) digits := by
    intro digits
    rw [scan, if_neg (by decide), if_pos rfl, scan]
    rfl
  simp only [unicodeEscape, List.map_cons, List.map_nil, List.cons_append, List.nil_append]
  rw [hstart, scan_digit h₀, scan_digit h₁, scan_digit h₂, scan_lastDigit h₃, hsum,
    encodePoint_unit]

/-- An escape of one character is taken. -/
theorem scan_short {e v : UInt16} (h : shortEscapes.lookup e = some v) (rest : Text) :
    scan .plain (92 :: e :: rest) = (scan .plain rest).map (pushed [v]) := by
  rw [scan, if_neg (by decide), if_pos rfl, scan, h]

theorem isScalarValue_iff : isScalarValue u.toNat ↔ isSurrogate u = false := by
  have hu := u.toNat_lt
  simp only [isScalarValue, isSurrogate, isHigh, isLow, Bool.or_eq_true, Bool.and_eq_true,
    decide_eq_true_eq, Bool.or_eq_false_iff, Bool.and_eq_false_iff, decide_eq_false_iff_not]
  omega

/-- A unit is read as it was, unless it is a lone surrogate. -/
theorem scan_quoteUnit (u : UInt16) (rest : Text) : scan .plain (quoteUnit u ++ rest) =
    if isSurrogate u then none else (scan .plain rest).map (pushed [u]) := by
  have hclear : ∀ n : UInt16, n.toNat < 0xd800 → ¬isSurrogate n = true := fun n hn =>
    Bool.not_eq_true _ ▸ isSurrogate_of_lt hn
  unfold quoteUnit
  split
  · next h => rw [h, if_neg (hclear 8 (by decide))]; exact scan_short rfl rest
  split
  · next h => rw [h, if_neg (hclear 9 (by decide))]; exact scan_short rfl rest
  split
  · next h => rw [h, if_neg (hclear 10 (by decide))]; exact scan_short rfl rest
  split
  · next h => rw [h, if_neg (hclear 12 (by decide))]; exact scan_short rfl rest
  split
  · next h => rw [h, if_neg (hclear 13 (by decide))]; exact scan_short rfl rest
  split
  · next h => rw [h, if_neg (hclear 34 (by decide))]; exact scan_short rfl rest
  split
  · next h => rw [h, if_neg (hclear 92 (by decide))]; exact scan_short rfl rest
  split
  · rw [scan_unicodeEscape]
    by_cases hsurrogate : isSurrogate u = true
    · rw [if_pos hsurrogate, if_neg]
      rw [isScalarValue_iff, hsurrogate]
      decide
    · rw [if_neg hsurrogate, if_pos]
      rw [isScalarValue_iff]
      exact Bool.eq_false_iff.mpr hsurrogate
  · next hquote hescape hplain =>
    rw [Bool.or_eq_true, decide_eq_true_eq, not_or] at hplain
    rw [if_neg hplain.2, List.singleton_append, scan, if_neg hquote, if_neg hescape,
      if_pos (by omega)]

/-- Surrogates in a pair are read as they are. -/
theorem scan_surrogate (hu : isSurrogate u) (rest : Text) :
    scan .plain (u :: rest) = (scan .plain rest).map (pushed [u]) := by
  have hbig : 0xd800 ≤ u.toNat := by
    simp only [isSurrogate, isHigh, isLow, Bool.or_eq_true, Bool.and_eq_true,
      decide_eq_true_eq] at hu
    omega
  have hquote : u ≠ 34 := by
    rintro rfl
    exact absurd hbig (by decide)
  have hescape : u ≠ 92 := by
    rintro rfl
    exact absurd hbig (by decide)
  rw [scan, if_neg hquote, if_neg hescape, if_pos (by omega)]

/-- A well-formed text is read as it was. -/
theorem scan_quoteBody (h : WellFormed us) (rest : Text) :
    scan .plain (quoteBody us ++ 34 :: rest) = some (us, rest) := by
  induction h with
  | nil => rfl
  | @unit u us hu _ ih =>
    rw [quoteBody, points_unit (isSurrogate_eq_false.mp hu).1, List.flatMap_cons, List.append_assoc]
    change scan .plain (quoteUnit u ++ (quoteBody us ++ 34 :: rest)) = _
    rw [scan_quoteUnit, if_neg (by rw [hu]; decide), ih]
    rfl
  | @pair u v us hu hv _ ih =>
    rw [quoteBody, points_pair hu hv, List.flatMap_cons, List.append_assoc]
    change scan .plain (u :: v :: (quoteBody us ++ 34 :: rest)) = _
    rw [scan_surrogate (by rw [isSurrogate, hu, Bool.true_or]),
      scan_surrogate (by rw [isSurrogate, hv, Bool.or_true]), ih]
    rfl

/-- Only a well-formed text is read. -/
theorem wellFormed_of_scan (h : scan .plain (quoteBody us ++ rest) ≠ none) : WellFormed us := by
  have hunit : ∀ u tail, scan .plain (quoteUnit u ++ tail) ≠ none →
      isSurrogate u = false ∧ scan .plain tail ≠ none := by
    intro u tail h
    rw [scan_quoteUnit] at h
    split at h
    · exact absurd rfl h
    · next hu => exact ⟨Bool.eq_false_iff.mpr hu, fun hnone => h (by rw [hnone]; rfl)⟩
  induction us using points.induct with
  | case1 => exact .nil
  | case2 u => exact .unit (hunit u rest (by simpa [quoteBody, points, quotePoint] using h)).1 .nil
  | case3 u v us hpair ih =>
    rw [quoteBody, points, if_pos hpair, List.flatMap_cons, List.append_assoc] at h
    rw [Bool.and_eq_true] at hpair
    change scan .plain (u :: v :: (quoteBody us ++ rest)) ≠ none at h
    rw [scan_surrogate (by rw [isSurrogate, hpair.1, Bool.true_or]),
      scan_surrogate (by rw [isSurrogate, hpair.2, Bool.or_true])] at h
    exact .pair hpair.1 hpair.2 (ih fun hnone => h (by rw [hnone]; rfl))
  | case4 u v us hpair ih =>
    rw [quoteBody, points, if_neg hpair, List.flatMap_cons, List.append_assoc] at h
    obtain ⟨hu, h⟩ := hunit u _ h
    exact .unit hu (ih h)

/-- A quoted text is read as it was if it is well formed, and else not at all. -/
theorem readValue_quote (us : Text) [Decidable (WellFormed us)] :
    readValue (quote us) = if WellFormed us then some [.quoted us] else none := by
  rw [readValue, quote, List.head?_cons, if_pos rfl, List.tail_cons]
  split
  · next h => rw [scan_quoteBody h, Option.bind_some, if_pos rfl]
  · next h =>
    have hnone : scan .plain (quoteBody us ++ [34]) = none := by
      by_contra hscan
      exact h (wellFormed_of_scan hscan)
    rw [hnone, Option.bind_none]

theorem break_not_mem_quoteUnit (u : UInt16) : 10 ∉ quoteUnit u := by
  have hu := u.toNat_lt
  have hdigit : ∀ d, d < 16 → (10 : UInt16) ≠ hexUnit d := by
    intro d hd heq
    have hvalue := hexValue_hexUnit hd
    rw [← heq] at hvalue
    cases hvalue
  unfold quoteUnit
  iterate 7 (split; · decide)
  split
  · simp only [unicodeEscape, List.map_cons, List.map_nil, List.mem_cons, List.not_mem_nil,
    or_false, not_or]
    exact ⟨by decide, by decide, hdigit _ (by omega), hdigit _ (by omega), hdigit _ (by omega),
      hdigit _ (by omega)⟩
  · next hplain =>
    rw [Bool.or_eq_true, decide_eq_true_eq, not_or] at hplain
    rw [List.mem_singleton]
    rintro rfl
    exact hplain.1 (by decide)

/-- A quoted text has no line breaks, whatever the text is. -/
theorem break_not_mem_quote (us : Text) : 10 ∉ quote us := by
  have hbody : 10 ∉ quoteBody us := by
    induction us using points.induct with
    | case1 => exact List.not_mem_nil
    | case2 u => simpa [quoteBody, points, quotePoint] using break_not_mem_quoteUnit u
    | case3 u v us hpair ih =>
      rw [quoteBody, points, if_pos hpair, List.flatMap_cons, List.mem_append, not_or]
      rw [Bool.and_eq_true] at hpair
      refine ⟨fun hmem => ?_, ih⟩
      simp only [quotePoint, List.mem_cons, List.not_mem_nil, or_false] at hmem
      rcases hmem with rfl | rfl
      · exact absurd hpair.1 (by decide)
      · exact absurd hpair.2 (by decide)
    | case4 u v us hpair ih =>
      rw [quoteBody, points, if_neg hpair, List.flatMap_cons, List.mem_append, not_or]
      exact ⟨break_not_mem_quoteUnit u, ih⟩
  simp only [quote, List.mem_cons, List.mem_append, List.not_mem_nil, or_false, not_or]
  exact ⟨by decide, hbody, by decide⟩

theorem wellFormed_quote (h : WellFormed us) : WellFormed (quote us) := by
  have hmark : ∀ u : UInt16, u.toNat < 0xd800 → WellFormed [u] :=
    fun u hu => .unit (isSurrogate_of_lt hu) .nil
  have hdigit : ∀ d, d < 16 → isSurrogate (hexUnit d) = false := by
    intro d hd
    apply isSurrogate_of_lt
    unfold hexUnit
    split
    · rw [UInt16.toNat_ofNat_of_lt' (show _ < 65536 by omega)]
      omega
    · rw [UInt16.toNat_ofNat_of_lt' (show _ < 65536 by omega)]
      omega
  have hunit : ∀ u, isSurrogate u = false → WellFormed (quoteUnit u) := by
    intro u hu
    have hlt := u.toNat_lt
    unfold quoteUnit
    iterate 7 (split; · exact wellFormed_of_isBasic (by decide))
    split
    · refine .unit (by decide) (.unit (by decide) ?_)
      simp only [List.map_cons, List.map_nil]
      exact .unit (hdigit _ (by omega)) (.unit (hdigit _ (by omega))
        (.unit (hdigit _ (by omega)) (.unit (hdigit _ (by omega)) .nil)))
    · exact .unit hu .nil
  have hbody : WellFormed (quoteBody us) := by
    induction h with
    | nil => exact .nil
    | @unit u us hu h ih =>
      rw [quoteBody, points_unit (isSurrogate_eq_false.mp hu).1, List.flatMap_cons]
      exact (hunit u hu).append ih
    | @pair u v us hu hv h ih =>
      rw [quoteBody, points_pair hu hv, List.flatMap_cons]
      exact .pair hu hv ih
  exact (hmark 34 (by decide)).append (hbody.append (hmark 34 (by decide)))

/-- A quoted text is a scalar. -/
theorem shows_quote (h : WellFormed us) : Shows (quote us) (.quoted us) where
  read := by
    classical
    exact ⟨.quoted us, by rw [readValue_quote, if_pos h], fun n => .quoted n us⟩
  unbroken := break_not_mem_quote us
  wellFormed := wellFormed_quote h

theorem readLine_quote (column : ℕ) (us : Text) :
    readLine column (quote us) = readValue (quote us) := by
  have hquote : isWordUnit 34 = false := rfl
  rw [quote, readLine_entry column ⟨by decide, by decide, by decide⟩, readEntry]
  simp only [List.takeWhile_cons, List.dropWhile_cons, hquote, Bool.false_eq_true, if_false, isWord,
    List.head?_nil, Option.any_none, Bool.false_and]

/-- What is read in quotes behind a mark is well formed. -/
theorem wellFormed_of_readLine (h : readLine 0 (indent c ++ 45 :: 32 :: quote us) ≠ none) :
    WellFormed us := by
  classical
  by_contra hill
  refine h ?_
  rw [readLine_indent, readLine_item, readLine_quote, readValue_quote, if_neg hill]
  rfl

end

end JsonText
