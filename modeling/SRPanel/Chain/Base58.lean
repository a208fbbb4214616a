import SRPanel.Lib.Numeral
import SRPanel.Model.Tron

/-!
# Addresses in base 58

`base58` writes bytes as a number in base 58, with a `1` for each leading zero byte. Nothing is lost
on the way, so different addresses have different texts, and the text of an address is its
base58check form.
-/

namespace SRPanel

open Numeral

/-- The letter of a digit in base 58. -/
def base58Letter (d : ℕ) : Char := B58.getD d '1'

theorem base58Letter_inj {d e : ℕ} (hd : d < 58) (he : e < 58)
    (h : base58Letter d = base58Letter e) : d = e := by
  have hall : ∀ d < 58, B58.idxOf (base58Letter d) = d := by decide +kernel
  rw [← hall d hd, h, hall e he]

/-- A text of letters is determined by its digits. -/
theorem map_base58Letter_inj {ds es : List ℕ} (hds : ∀ d ∈ ds, d < 58) (hes : ∀ e ∈ es, e < 58)
    (h : ds.map base58Letter = es.map base58Letter) : ds = es := by
  induction ds generalizing es with
  | nil => exact (List.map_eq_nil_iff.mp h.symm).symm
  | cons d ds ih =>
    cases es with
    | nil => cases h
    | cons e es =>
      obtain ⟨hd, hds⟩ := List.forall_mem_cons.mp hds
      obtain ⟨he, hes⟩ := List.forall_mem_cons.mp hes
      obtain ⟨hhead, htail⟩ := List.cons.inj h
      rw [base58Letter_inj hd he hhead, ih hds hes htail]

/-- `base58` writes the digits that the bytes have in base 58, leading zeros included. -/
theorem base58_eq (bytes : List ℕ) :
    base58 bytes = .ofList ((rebase 256 58 bytes).map base58Letter) := by
  obtain ⟨z, rest, hzeros, -, -⟩ := exists_zeros bytes
  rw [base58, rebase, hzeros, List.map_append, List.map_replicate, List.map_replicate, digits,
    List.map_reverse]
  rfl

/-- The elements are bytes. -/
def IsBytes (bytes : List ℕ) : Prop := ∀ b ∈ bytes, b < 256

/-- Different bytes have different texts. -/
theorem base58_inj {bytes bytes' : List ℕ} (hbytes : IsBytes bytes) (hbytes' : IsBytes bytes')
    (h : base58 bytes = base58 bytes') : bytes = bytes' := by
  rw [base58_eq, base58_eq] at h
  have hlt : ∀ ds : List ℕ, ∀ d ∈ rebase 256 58 ds, d < 58 := fun ds => rebase_lt (by omega)
  exact rebase_inj (by omega) hbytes hbytes'
    (map_base58Letter_inj (hlt _) (hlt _) (String.ofList_injective h))

/-! ## Base58check -/

/-- The text is the base 58 form of the bytes: a `1` for each leading zero byte, and then the number
of the other bytes without leading zeros. -/
def IsBase58 (bytes : List ℕ) (text : String) : Prop :=
  ∃ (z : ℕ) (rest ds : List ℕ), bytes = List.replicate z 0 ++ rest ∧ rest.head? ≠ some 0 ∧
    text.toList = List.replicate z '1' ++ ds.map base58Letter ∧ (∀ d ∈ ds, d < 58) ∧
    ds.head? ≠ some 0 ∧
    value 58 ds = value 256 rest

/-- The text is the base58check form of the payload: four bytes of the payload's double digest
follow it. -/
def IsBase58Check (sha256 : List ℕ → List ℕ) (payload : List ℕ) (text : String) : Prop :=
  ∃ checksum : List ℕ, checksum.length = 4 ∧ checksum <+: sha256 (sha256 payload) ∧
    IsBase58 (payload ++ checksum) text

theorem isBase58_base58 (bytes : List ℕ) : IsBase58 bytes (base58 bytes) := by
  obtain ⟨z, rest, -, hbytes, hhead⟩ := exists_zeros bytes
  refine ⟨z, rest, digits 58 (value 256 rest), hbytes, hhead, ?_, fun d => digits_lt (by omega),
    head?_digits _ _, value_digits _ _⟩
  rw [base58_eq, String.toList_ofList, hbytes, rebase_zeros 58 z hhead, List.map_append,
    List.map_replicate]
  rfl

/-! ## Hex addresses -/

/-- The two hex digits of a byte. -/
def hexOfByte (b : ℕ) : List Char := [Nat.digitChar (b / 16), Nat.digitChar (b % 16)]

/-- The hex digits of some bytes. -/
def hexOfBytes (bytes : List ℕ) : List Char := bytes.flatMap hexOfByte

/-- The text is the hex address of the 21 bytes, in any case, with or without `0x`, and perhaps
without the byte `41` that they start with. -/
structure IsHexAddress (hex : String) (payload : List ℕ) : Prop where
  bytes : IsBytes payload
  length : payload.length = 21
  text : ∃ mark digits : List Char, (lower hex).toList = mark ++ digits ∧
    (mark = [] ∨ mark = ['0', 'x']) ∧
    (digits = hexOfBytes payload ∨ ∃ tail, payload = 0x41 :: tail ∧ digits = hexOfBytes tail)

theorem length_hexOfBytes (bytes : List ℕ) : (hexOfBytes bytes).length = 2 * bytes.length := by
  induction bytes with
  | nil => rfl
  | cons b bytes ih =>
    rw [hexOfBytes, List.flatMap_cons, List.length_append, ← hexOfBytes, ih, List.length_cons]
    show 2 + 2 * bytes.length = 2 * (bytes.length + 1)
    omega

/-- Reading the hex digits of some bytes gives the bytes. -/
theorem bytesOfHex_hexOfBytes {bytes : List ℕ} (hbytes : IsBytes bytes) :
    bytesOfHex (hexOfBytes bytes) = bytes := by
  have hdigit : ∀ d < 16, isHexDigit (Nat.digitChar d) ∧ hexValue (Nat.digitChar d) = d :=
    by decide +kernel
  induction bytes with
  | nil => rfl
  | cons b bytes ih =>
    obtain ⟨hb, hbytes⟩ := List.forall_mem_cons.mp hbytes
    obtain ⟨hhigh, hvalue⟩ := hdigit (b / 16) (by omega)
    obtain ⟨hlow, hvalue'⟩ := hdigit (b % 16) (by omega)
    have hcons : hexOfBytes (b :: bytes) =
        Nat.digitChar (b / 16) :: Nat.digitChar (b % 16) :: hexOfBytes bytes := rfl
    rw [hcons, bytesOfHex, hhigh, hlow, Bool.and_self, if_pos rfl, hvalue, hvalue', ih hbytes,
      Nat.div_add_mod]

/-- Hex digits do not start with `0x`. -/
theorem dropHexMark_hexOfBytes (bytes : List ℕ) (hbytes : IsBytes bytes) :
    dropHexMark (.ofList (hexOfBytes bytes)) = .ofList (hexOfBytes bytes) := by
  cases bytes with
  | nil => rfl
  | cons b bytes =>
    have hdigit : ∀ d < 16, Nat.digitChar d ≠ 'x' := by decide +kernel
    have hcons : hexOfBytes (b :: bytes) =
        Nat.digitChar (b / 16) :: Nat.digitChar (b % 16) :: hexOfBytes bytes := rfl
    unfold dropHexMark
    rw [String.toList_ofList, hcons]
    split
    · next heq => exact absurd (List.cons.inj (List.cons.inj heq).2).1 (hdigit _ (by omega))
    · rfl

/-- Without its mark, an address has the digits of its bytes once `41` is put before 20 bytes. -/
theorem IsHexAddress.digits {hex : String} {payload : List ℕ} (h : IsHexAddress hex payload) :
    (if (dropHexMark (lower hex)).length = 40 then "41" ++ dropHexMark (lower hex) else dropHexMark
      (lower hex)) = .ofList (hexOfBytes payload) := by
  obtain ⟨mark, digits, htext, hmark, hdigits⟩ := h.text
  have hdrop : ∀ body, IsBytes body → digits = hexOfBytes body →
      dropHexMark (lower hex) = .ofList (hexOfBytes body) := by
    rintro body hbody rfl
    rcases hmark with rfl | rfl
    · rw [List.nil_append] at htext
      rw [← dropHexMark_hexOfBytes body hbody, ← htext, String.ofList_toList]
    · rw [dropHexMark, htext]
      rfl
  have hlen : ∀ body, (String.ofList (hexOfBytes body)).length = 2 * body.length := by
    intro body
    rw [String.length_ofList, length_hexOfBytes]
  have hpayload := h.length
  rcases hdigits with heq | ⟨tail, rfl, heq⟩
  -- 42 digits are kept as they are
  · rw [hdrop payload h.bytes heq, if_neg]
    have := hlen payload
    omega
  -- 40 digits are the address without its first byte
  · rw [hdrop tail (List.forall_mem_cons.mp h.bytes).2 heq, if_pos]
    · rw [← String.toList_inj, String.toList_append]
      simp only [String.toList_ofList]
      rfl
    · rw [List.length_cons] at hpayload
      have := hlen tail
      omega

/-- An address is encoded from its bytes. -/
theorem IsHexAddress.encoded {hex : String} {payload : List ℕ} (h : IsHexAddress hex payload)
    (sha256 : List ℕ → List ℕ) :
    tronHexToBase58 sha256 hex = base58 (payload ++ (sha256 (sha256 payload)).take 4) := by
  have hlen : (String.ofList (hexOfBytes payload)).length = 42 := by
    rw [String.length_ofList, length_hexOfBytes, h.length]
  unfold tronHexToBase58
  dsimp only
  rw [h.digits, if_neg (not_not.mpr hlen), String.toList_ofList, bytesOfHex_hexOfBytes h.bytes]

/-! ## Addresses -/

/-- **Addresses are converted faithfully.** `base58` is injective on byte strings, and for every
digest function the text of a 21-byte hex address is the base58check form of its bytes, so that
different addresses have different texts. -/
theorem tron_addresses_faithful {sha256 : List ℕ → List ℕ}
    (hdigest : ∀ m, IsBytes (sha256 m) ∧ (sha256 m).length = 32) :
    (∀ bytes bytes', IsBytes bytes → IsBytes bytes' → base58 bytes = base58 bytes' →
      bytes = bytes') ∧
    (∀ hex payload, IsHexAddress hex payload →
      IsBase58Check sha256 payload (tronHexToBase58 sha256 hex)) ∧
    ∀ hex hex' payload payload', IsHexAddress hex payload → IsHexAddress hex' payload' →
      payload ≠ payload' → tronHexToBase58 sha256 hex ≠ tronHexToBase58 sha256 hex' := by
  refine ⟨fun _ _ => base58_inj, ?_, ?_⟩
  · intro hex payload h
    refine ⟨(sha256 (sha256 payload)).take 4, ?_, List.take_prefix _ _, ?_⟩
    · rw [List.length_take, (hdigest _).2]
      rfl
    · rw [h.encoded]
      exact isBase58_base58 _
  · intro hex hex' payload payload' h h' hne heq
    have hbytes : ∀ m : List ℕ, IsBytes m → IsBytes (m ++ (sha256 (sha256 m)).take 4) := by
      intro m hm b hb
      rcases List.mem_append.mp hb with hb | hb
      · exact hm b hb
      · exact (hdigest _).1 b (List.mem_of_mem_take hb)
    rw [h.encoded, h'.encoded] at heq
    have happend := base58_inj (hbytes _ h.bytes) (hbytes _ h'.bytes) heq
    -- the payloads have the same length, so the checksums cannot make up for a difference
    exact hne (List.append_inj happend (by rw [h.length, h'.length])).1

/-- The address of the USDT contract. -/
def usdtPayload : List ℕ :=
  [65, 166, 20, 248, 3, 182, 253, 120, 9, 134, 164, 44, 120, 236, 156, 127, 119, 230, 222, 209, 60]

/-- The SHA-256 digest of this address, and the digest of the digest. -/
def usdtDigests : List ℕ × List ℕ :=
  ([58, 66, 81, 45, 212, 246, 78, 77, 157, 173, 61, 94, 106, 160, 236, 245, 90, 219, 216, 168, 89,
      121, 19, 92, 242, 17, 186, 52, 114, 120, 208, 41],
    [113, 2, 119, 245, 216, 11, 23, 13, 144, 226, 236, 108, 82, 202, 163, 104, 188, 116, 185, 34,
      110, 59, 239, 229, 192, 152, 37, 160, 238, 219, 251, 104])

/-- A digest function with the SHA-256 digests of this address. -/
def usdtSha256 (m : List ℕ) : List ℕ :=
  if m = usdtPayload then usdtDigests.1 else if m = usdtDigests.1 then
    usdtDigests.2 else List.replicate 32 0

/-- The contract's hex address is converted to `USDT_TRC20`, which is its base58check form. -/
theorem tron_addresses_faithful_usdt :
    tronHexToBase58 usdtSha256 "0x41A614F803B6FD780986A42C78EC9C7F77E6DED13C" = USDT_TRC20 ∧
      IsBase58Check usdtSha256 usdtPayload USDT_TRC20 := by
  have hdigest : ∀ m, IsBytes (usdtSha256 m) ∧ (usdtSha256 m).length = 32 := by
    intro m
    unfold usdtSha256 IsBytes
    split_ifs
    · decide +kernel
    · decide +kernel
    · decide +kernel
  have haddress : IsHexAddress "0x41A614F803B6FD780986A42C78EC9C7F77E6DED13C" usdtPayload :=
    ⟨by unfold IsBytes; decide +kernel, rfl, ['0', 'x'], hexOfBytes usdtPayload, by decide +kernel,
      .inr rfl, .inl rfl⟩
  have htext : tronHexToBase58 usdtSha256 "0x41A614F803B6FD780986A42C78EC9C7F77E6DED13C" =
      USDT_TRC20 := by
    have hbytes : usdtPayload ++ (usdtSha256 (usdtSha256 usdtPayload)).take 4 =
        usdtPayload ++ [113, 2, 119, 245] := by
      decide +kernel
    have hdigits : digits 58 (value 256 (usdtPayload ++ [113, 2, 119, 245])) =
        [26, 24, 6, 21, 16, 48, 42, 37, 18, 23, 55, 15, 26, 11, 41, 7, 48, 7, 32, 31, 3, 47,
          19, 7, 46, 51, 25, 57, 39, 42, 19, 42, 5, 51] := by
      norm_num [usdtPayload, value, digits]
    rw [haddress.encoded, hbytes, base58_eq, rebase]
    have hzeros : (usdtPayload ++ [113, 2, 119, 245]).takeWhile (· = 0) = [] := rfl
    rw [hzeros, hdigits]
    decide +kernel
  exact ⟨htext, htext ▸ (tron_addresses_faithful hdigest).2.1 _ _ haddress⟩

end SRPanel
