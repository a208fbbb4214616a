import SRPanel.Lib.BitStream
import SRPanel.Model.Totp

/-!
# Secrets in base 32

The letters that `base32Encode` writes carry the bits of the bytes, with less than one letter of
zeros behind them, and the bytes that `base32Decode` writes carry the bits of the letters, up to
less than one byte. So a secret comes back as it was, however the user has typed its letters.
-/

namespace SRPanel

open BitStream

/-! ## Encoding -/

theorem and_31_lt (n : ℕ) : n &&& 31 < 32 := Nat.and_lt_two_pow n (by decide : 31 < 2 ^ 5)

/-- The inner loop writes the bits that wait, all but less than five. -/
theorem writeLetters_spec (value bits : ℕ) : ∃ digits : List ℕ, (∀ d ∈ digits, d < 32) ∧
    (writeLetters value bits).1 = digits.map base32Letter ∧ (writeLetters value bits).2 < 5 ∧
    stream 5 digits ++ BitStream.bits (writeLetters value bits).2 value =
    BitStream.bits bits value := by
  fun_induction writeLetters value bits with
  | case1 bits rest ih =>
    obtain ⟨digits, hdigits, hletters, hleft, hbits⟩ := ih
    refine ⟨(value >>> bits &&& 31) :: digits, ?_, ?_, hleft, ?_⟩
    · exact List.forall_mem_cons.mpr ⟨and_31_lt _, hdigits⟩
    · rw [List.map_cons, hletters]
    · rw [stream_cons, List.append_assoc, hbits]
      exact (bits_take value 5 bits).trans (by rw [Nat.add_comm])
  | case2 bits hfew =>
    refine ⟨[], by simp, rfl, ?_, rfl⟩
    by_contra h
    exact hfew (bits - 5) (by omega)

/-- The letters of some bytes have the bits that wait and those of the bytes, and a few zeros. -/
theorem encodeBytes_spec (buf : List UInt8) {bits : ℕ} (hbits : bits < 5) (value : ℕ) :
    ∃ (digits : List ℕ) (p : ℕ), (∀ d ∈ digits, d < 32) ∧ p < 5 ∧
      encodeBytes bits value buf = digits.map base32Letter ∧
      stream 5 digits =
        BitStream.bits bits value ++ stream 8 (buf.map UInt8.toNat) ++ List.replicate p false := by
  induction buf generalizing bits value with
  | nil =>
    by_cases hwait : 0 < bits
    -- the last letter is filled up
    · refine ⟨[value <<< (5 - bits) &&& 31], 5 - bits, ?_, by omega, ?_, ?_⟩
      · simpa using and_31_lt _
      · rw [encodeBytes, if_pos hwait, List.map_singleton]
      · have hlast := bits_and_mask (Nat.le_refl 5) (value <<< (5 - bits))
        rw [stream_cons, stream_nil, List.append_nil, List.map_nil, stream_nil, List.append_nil]
        rw [← bits_fill, show bits + (5 - bits) = 5 by omega]
        exact hlast
    · obtain rfl : bits = 0 := by omega
      exact ⟨[], 0, by simp, by omega, rfl, rfl⟩
  | cons byte buf ih =>
    obtain ⟨digits, hdigits, hletters, hleft, hwritten⟩ :=
      writeLetters_spec ((value <<< 8 ||| byte.toNat) &&& 0xffff) (bits + 8)
    obtain ⟨more, p, hmore, hp, hrest, hstream⟩ :=
      ih hleft ((value <<< 8 ||| byte.toNat) &&& 0xffff)
    refine ⟨digits ++ more, p, ?_, hp, ?_, ?_⟩
    · intro d hd
      exact (List.mem_append.mp hd).elim (hdigits d) (hmore d)
    · rw [encodeBytes, hletters, hrest, List.map_append]
    -- at most twelve bits wait, so the mask of sixteen keeps them all
    · have hmask : BitStream.bits (bits + 8) ((value <<< 8 ||| byte.toNat) &&& 0xffff) =
          BitStream.bits (bits + 8) (value <<< 8 ||| byte.toNat) :=
        bits_and_mask (show bits + 8 ≤ 16 by omega) _
      have hpush := @bits_push 8 byte.toNat byte.toNat_lt bits value
      rw [stream_append, hstream, ← List.append_assoc, ← List.append_assoc, hwritten, List.map_cons,
        stream_cons, ← List.append_assoc, ← hpush, ← hmask]

/-! ## Decoding -/

theorem idxOf_base32Letter {d : ℕ} (hd : d < 32) : BASE32.idxOf (base32Letter d) = d := by
  have hall : ∀ d < 32, BASE32.idxOf (base32Letter d) = d := by decide +kernel
  exact hall d hd

theorem base32Letter_mem {d : ℕ} (hd : d < 32) : base32Letter d ∈ BASE32 := by
  have hall : ∀ d < 32, base32Letter d ∈ BASE32 := by decide +kernel
  exact hall d hd

/-- The bytes of some letters have the bits that wait and those of the letters, up to less than one
byte. -/
theorem decodeLetters_spec {digits : List ℕ} (hdigits : ∀ d ∈ digits, d < 32) {bits : ℕ}
    (hbits : bits < 8) (value : ℕ) : ∃ rest : List Bool, rest.length < 8 ∧
      stream 8 ((decodeLetters bits value (digits.map base32Letter)).map UInt8.toNat) ++ rest =
        BitStream.bits bits value ++ stream 5 digits := by
  induction digits generalizing bits value with
  | nil => exact ⟨BitStream.bits bits value, by rw [length_bits]; exact hbits,
    (List.append_nil _).symm⟩
  | cons d digits ih =>
    obtain ⟨hd, hdigits⟩ := List.forall_mem_cons.mp hdigits
    rw [List.map_cons, decodeLetters, idxOf_base32Letter hd, stream_cons, ← List.append_assoc]
    -- at most twelve bits wait, so the mask of sixteen keeps them all
    have hmask : BitStream.bits (bits + 5) ((value <<< 5 ||| d) &&& 0xffff) =
        BitStream.bits (bits + 5) (value <<< 5 ||| d) :=
      bits_and_mask (show bits + 5 ≤ 16 by omega) _
    have hpush := @bits_push 5 d hd bits value
    rw [← hpush, ← hmask]
    generalize (value <<< 5 ||| d) &&& 0xffff = next
    split
    · next hbyte =>
      obtain ⟨rest, hrest, hstream⟩ := ih hdigits (show bits + 5 - 8 < 8 by omega) next
      refine ⟨rest, hrest, ?_⟩
      have htake : BitStream.bits 8 (next >>> (bits + 5 - 8) &&& 0xff) ++
          BitStream.bits (bits + 5 - 8) next = BitStream.bits (bits + 5) next :=
        (bits_take next 8 (bits + 5 - 8)).trans
          (by rw [show 8 + (bits + 5 - 8) = bits + 5 by omega])
      have hlt : next >>> (bits + 5 - 8) &&& 255 < 256 :=
        Nat.and_lt_two_pow _ (by decide : 255 < 2 ^ 8)
      have hbyte : (UInt8.ofNat (next >>> (bits + 5 - 8) &&& 255)).toNat =
          next >>> (bits + 5 - 8) &&& 255 :=
        UInt8.toNat_ofNat_of_lt' hlt
      rw [List.map_cons, stream_cons, List.append_assoc, hstream, hbyte,
        ← List.append_assoc, ← htake]
    · next hbyte => exact ih hdigits (show bits + 5 < 8 by omega) next

/-- Decoding the letters of some bytes gives the bytes. -/
theorem decode_encodeBytes (buf : List UInt8) : decodeLetters 0 0 (encodeBytes 0 0 buf) = buf := by
  obtain ⟨digits, p, hdigits, hp, hletters, hstream⟩ :=
    encodeBytes_spec buf (show 0 < 5 by decide) 0
  obtain ⟨rest, hrest, hbytes⟩ := decodeLetters_spec hdigits (show 0 < 8 by decide) 0
  rw [hletters]
  have hlt : ∀ out : List UInt8, ∀ b ∈ out.map UInt8.toNat, b < 2 ^ 8 := by
    intro out b hb
    obtain ⟨byte, -, rfl⟩ := List.mem_map.mp hb
    exact byte.toNat_lt
  have hout := stream_repacked (show p < 8 by omega) (hlt buf) (hlt _) hrest (hbytes.trans hstream)
  exact List.map_injective_iff.mpr (fun _ _ => UInt8.toNat_inj.mp) hout

/-! ## How letters are typed -/

/-- The spaces and the hyphens that a text may be split with. -/
def SPLITS : List Char :=
  [' ', '\t', '\n', '\x0b', '\x0c', '\r', '\u00a0', '\u1680', '\u2000', '\u2001', '\u2002',
    '\u2003', '\u2004', '\u2005', '\u2006', '\u2007', '\u2008', '\u2009', '\u200a', '\u2028',
    '\u2029', '\u202f', '\u205f', '\u3000',
    '\ufeff', '-', '\u2010', '\u2011']

/-- A text spells some letters: each in upper or in lower case, split anywhere, and padded. -/
inductive Spells : List Char → List Char → Prop
  | nil : Spells [] []
  | letter (c : Char) {letters text : List Char} (h : Spells letters text) :
  Spells (c :: letters) (c :: text)
  | lowered (c : Char) {letters text : List Char} (h : Spells letters text) :
      Spells (c :: letters) (c.toLower :: text)
  | split {c : Char} (hc : c ∈ SPLITS) {letters text : List Char} (h : Spells letters text) :
      Spells letters (c :: text)
  | pad {text : List Char} (h : Spells [] text) : Spells [] ('=' :: text)

/-- The letters of a character as `base32Decode` sees them. -/
def base32Letters (c : Char) : List Char := (upperCase c).filter (· ∈ BASE32)

/-- What is dropped from the end is no letter. -/
theorem filter_rdropWhile {α : Type} {p q : α → Bool} (h : ∀ a, q a → p a = false) (l : List α) :
    (l.rdropWhile q).filter p = l.filter p := by
  have hl : l.rdropWhile q ++ l.rtakeWhile q = l := List.rdropWhile_append_rtakeWhile
  have hnone : (l.rtakeWhile q).filter p = [] := by
    rw [List.filter_eq_nil_iff]
    intro a ha
    rw [h a (List.mem_rtakeWhile_imp ha)]
    exact Bool.false_ne_true
  calc (l.rdropWhile q).filter p = (l.rdropWhile q).filter p ++ (l.rtakeWhile q).filter p := by
        rw [hnone, List.append_nil]
    _ = l.filter p := by rw [← List.filter_append, hl]

theorem cleanBase32_eq (str : String) : cleanBase32 str = str.toList.flatMap base32Letters := by
  rw [cleanBase32, filter_rdropWhile, List.filter_flatMap]
  · rfl
  · intro c hc
    rw [of_decide_eq_true hc]
    decide

/-- The letters that a text spells are what `base32Decode` reads. -/
theorem cleanBase32_of_spells {letters : List Char} {str : String}
    (hletters : ∀ c ∈ letters, c ∈ BASE32) (h : Spells letters str.toList) :
    cleanBase32 str = letters := by
  have hupper : ∀ c ∈ BASE32, base32Letters c = [c] :=
    List.forall_iff_forall_mem.mp (by decide +kernel)
  have hlower : ∀ c ∈ BASE32, base32Letters c.toLower = [c] :=
    List.forall_iff_forall_mem.mp (by decide +kernel)
  have hsplit : ∀ c ∈ SPLITS, base32Letters c = [] :=
    List.forall_iff_forall_mem.mp (by decide +kernel)
  have hpad : base32Letters '=' = [] := by decide +kernel
  rw [cleanBase32_eq]
  generalize str.toList = text at h
  induction h with
  | nil => rfl
  | letter c _ ih =>
    obtain ⟨hc, hrest⟩ := List.forall_mem_cons.mp hletters
    rw [List.flatMap_cons, hupper c hc, ih hrest, List.singleton_append]
  | lowered c _ ih =>
    obtain ⟨hc, hrest⟩ := List.forall_mem_cons.mp hletters
    rw [List.flatMap_cons, hlower c hc, ih hrest, List.singleton_append]
  | split hc _ ih => rw [List.flatMap_cons, hsplit _ hc, List.nil_append, ih hletters]
  | pad _ ih => rw [List.flatMap_cons, hpad, List.nil_append, ih hletters]

/-- A text spells itself. -/
theorem spells_self (text : List Char) : Spells text text := by
  induction text with
  | nil => exact .nil
  | cons c text ih => exact .letter c ih

theorem base32Encode_letters (buf : List UInt8) : ∀ c ∈ (base32Encode buf).toList, c ∈ BASE32 := by
  obtain ⟨digits, p, hdigits, -, hletters, -⟩ := encodeBytes_spec buf (show 0 < 5 by decide) 0
  rw [base32Encode, String.toList_ofList, hletters]
  intro c hc
  obtain ⟨d, hd, rfl⟩ := List.mem_map.mp hc
  exact base32Letter_mem (hdigits d hd)

/-- **Secrets come back.** Every byte string is what its base 32 text decodes to, and so is every
text that spells the same letters in any case, with spaces and hyphens anywhere and any padding. -/
theorem base32_roundtrip (buf : List UInt8) : base32Decode (base32Encode buf) = buf ∧
    ∀ str : String, Spells (base32Encode buf).toList str.toList → base32Decode str = buf := by
  have htyped : ∀ str : String, Spells (base32Encode buf).toList str.toList →
      base32Decode str = buf := by
    intro str hstr
    rw [base32Decode, cleanBase32_of_spells (base32Encode_letters buf) hstr, base32Encode,
      String.toList_ofList]
    exact decode_encodeBytes buf
  exact ⟨htyped _ (spells_self _), htyped⟩

/-- Two bytes, typed in lower case with a hyphen and their padding. -/
theorem base32_roundtrip_typed : base32Decode "pb-qq====" = [0x78, 0x61] := by
  refine (base32_roundtrip [0x78, 0x61]).2 "pb-qq====" ?_
  show Spells ['P', 'B', 'Q', 'Q'] ['p', 'b', '-', 'q', 'q', '=', '=', '=', '=']
  exact .lowered 'P' (.lowered 'B'
    (.split (by decide) (.lowered 'Q' (.lowered 'Q' (.pad (.pad (.pad (.pad .nil))))))))

end SRPanel
