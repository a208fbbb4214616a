import Mathlib.Data.List.DropRight
import Mathlib.Data.Nat.Notation

/-!
# Authenticator secrets

`base32Encode` and `base32Decode` of the authenticator secrets. The bits that wait between two
rounds of their loops are in the low end of `value`, which is masked to 16 bits.
-/

namespace SRPanel

/-- `ALPHABET`. -/
def BASE32 : List Char := "ABCDEFGHIJKLMNOPQRSTUVWXYZ234567".toList

/-- `ALPHABET[d]`. -/
def base32Letter (d : ℕ) : Char := BASE32.getD d 'A'

/-- The inner loop of `base32Encode`: the letters that are written, and the number of bits that
still wait. -/
def writeLetters (value : ℕ) : ℕ → List Char × ℕ
  | bits + 5 =>
      let rest := writeLetters value bits
      (base32Letter (value >>> bits &&& 31) :: rest.1, rest.2)
  | bits => ([], bits)

/-- The loop of `base32Encode` over the bytes, and the last letter. -/
def encodeBytes (bits value : ℕ) : List UInt8 → List Char
  | [] => if 0 < bits then [base32Letter (value <<< (5 - bits) &&& 31)] else []
  | byte :: buf =>
      let value := (value <<< 8 ||| byte.toNat) &&& 0xffff
      let written := writeLetters value (bits + 8)
      written.1 ++ encodeBytes written.2 value buf

/-- `base32Encode`. -/
def base32Encode (buf : List UInt8) : String := .ofList (encodeBytes 0 0 buf)

/-- The letters beyond ASCII whose upper case has letters of ASCII. -/
def LATIN_UPPER : List (Char × String) :=
  [('ß', "SS"), ('ı', "I"), ('ŉ', "ʼN"), ('ſ', "S"), ('ǰ', "J̌"), ('ẖ', "H̱"), ('ẗ', "T̈"),
    ('ẘ', "W̊"), ('ẙ', "Y̊"), ('ẚ', "Aʾ"), ('ﬀ', "FF"), ('ﬁ', "FI"), ('ﬂ', "FL"), ('ﬃ', "FFI"),
    ('ﬄ', "FFL"), ('ﬅ', "ST"), ('ﬆ', "ST")]

/-- `c.toUpperCase()`. A letter whose upper case has no letter of ASCII stays as it is;
`base32Decode` drops both. -/
def upperCase (c : Char) : List Char := ((LATIN_UPPER.lookup c).map String.toList).getD [c.toUpper]

/-- `clean` in `base32Decode`. -/
def cleanBase32 (str : String) : List Char :=
  ((str.toList.flatMap upperCase).rdropWhile (· = '=')).filter (· ∈ BASE32)

/-- The loop of `base32Decode` over the letters. -/
def decodeLetters (bits value : ℕ) : List Char → List UInt8
  | [] => []
  | ch :: rest =>
      let value := (value <<< 5 ||| BASE32.idxOf ch) &&& 0xffff
      if 8 ≤ bits + 5 then .ofNat (value >>> (bits + 5 - 8) &&& 255) ::
        decodeLetters (bits + 5 - 8) value rest
      else decodeLetters (bits + 5) value rest

/-- `base32Decode`. -/
def base32Decode (str : String) : List UInt8 := decodeLetters 0 0 (cleanBase32 str)

end SRPanel
