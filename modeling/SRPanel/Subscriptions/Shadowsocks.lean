import SRPanel.Model.Credentials

/-!
# Shadowsocks keys

`provisionInput` never names the cipher of an inbound, so the panel is told the client's UUID
without its dashes whatever the cipher is, and the links carry the same text. A 2022-blake3 cipher
needs the base64 text of a key of its size instead, which `shadowsocksPassword` would give if it
were told the cipher. A UUID without its dashes is never such a text.
-/

namespace SRPanel

namespace Credentials

/-- The key size of a 2022-blake3 cipher, in bytes. -/
def keySize (method : String) : ℕ := if includes (lower method) "aes-128" then 16 else 32

/-- The text is the base64 of a key with `n` bytes. -/
def IsKey (n : ℕ) (text : String) : Prop :=
  ∃ key : List UInt8, key.length = n ∧ text.toList = b64Bytes key

/-- The password that the panel is told for a client of a Shadowsocks inbound. -/
def pushedPassword (sha256 : List UInt8 → List UInt8) (uuid flow : String) : Option String :=
  (buildClientObject sha256 "shadowsocks" (provisionInput uuid flow)).password

/-- The panel and the links have the same password, and a 2022-blake3 cipher gets a key of its size.
-/
def KeysAgree (sha256 : List UInt8 → List UInt8) (inbound : PanelInbound) (uuid : String) : Prop :=
  ∃ password, pushedPassword sha256 uuid (resolveFlow inbound uuid) = some password ∧
    (∀ eps, ∀ link ∈ buildLinks inbound uuid eps, link.secret = password) ∧
    (isBlake3 inbound.cipher → IsKey (keySize inbound.cipher) password)

section

variable {sha256 : List UInt8 → List UInt8} {inbound : PanelInbound} {uuid : String}

/-- No cipher is told, so the password is the UUID without its dashes. -/
theorem pushedPassword_eq (sha256 : List UInt8 → List UInt8) (uuid flow : String) :
    pushedPassword sha256 uuid flow = some (dropDashes uuid) := by
  have hplain : includes (lower "") "2022" = false := by decide
  simp only [pushedPassword, buildClientObject, provisionInput, shadowsocksPassword,
    Option.getD_none, hplain]
  rfl

theorem buildLinks_secret (hprotocol : inbound.protocol = "shadowsocks") {eps : List Endpoint}
    {link : ShareLink} (h : link ∈ buildLinks inbound uuid eps) :
    link.secret = dropDashes uuid := by
  obtain ⟨ep, -, rfl⟩ := List.mem_map.mp h
  have hvmess : inbound.protocol ≠ "vmess" := by
    rw [hprotocol]
    decide
  have htrojan : inbound.protocol ≠ "trojan" := by
    rw [hprotocol]
    decide
  rw [if_neg hvmess, if_neg htrojan, if_pos hprotocol]
  rfl

/-- Base64 spends four characters on three bytes. -/
theorem length_b64Bytes (bytes : List UInt8) :
    (b64Bytes bytes).length = 4 * ((bytes.length + 2) / 3) := by
  induction bytes using b64Bytes.induct with
  | case1 a b c rest ih =>
    simp only [b64Bytes, List.length_cons, ih]
    omega
  | case2 a b => simp [b64Bytes]
  | case3 a => simp [b64Bytes]
  | case4 => rfl

theorem includes_of_isBlake3 {method : String} (h : isBlake3 method) :
    includes (lower method) "2022" := by
  obtain ⟨rest, hrest⟩ := List.isPrefixOf_iff_prefix.mp h
  have hlower : (lower method).toList = "2022".toList ++
      ("-blake3".toList ++ rest.map Unicode.toLower) := by
    rw [lower, String.toList_ofList, ← hrest, List.map_append]
    rfl
  rw [includes, decide_eq_true_eq, hlower]
  exact (List.prefix_append _ _).isInfix

/-- With the cipher, the password would be a key of its size. -/
theorem shadowsocksPassword_isKey (hsha : ∀ bytes, (sha256 bytes).length = 32) {method : String}
    (hmethod : isBlake3 method) (seed : String) :
    IsKey (keySize method) (shadowsocksPassword sha256 method seed) := by
  refine ⟨(sha256 (seed.toList.flatMap String.utf8EncodeChar)).take (keySize method), ?_, ?_⟩
  · rw [List.length_take, hsha, keySize]
    split <;> rfl
  · simp only [shadowsocksPassword, if_pos (includes_of_isBlake3 hmethod),
    String.toList_ofList, keySize]

/-- A UUID has 32 digits, which are the base64 of 24 bytes. -/
theorem not_isKey_of_length (h : (dropDashes uuid).toList.length = 32) (method : String) :
    ¬IsKey (keySize method) (dropDashes uuid) := by
  rintro ⟨key, hsize, htext⟩
  have hlen := length_b64Bytes key
  rw [← htext, h, hsize, keySize] at hlen
  split at hlen <;> omega

/-- The keys of a Shadowsocks inbound agree exactly when its cipher is not a 2022-blake3 one, or the
client's UUID happens to be a key of the right size, up to dashes. -/
theorem keysAgree_iff (sha256 : List UInt8 → List UInt8)
    (hprotocol : inbound.protocol = "shadowsocks") (uuid : String) : KeysAgree sha256 inbound uuid ↔
      ¬isBlake3 inbound.cipher ∨ IsKey (keySize inbound.cipher) (dropDashes uuid) := by
  rw [← imp_iff_not_or]
  constructor
  · rintro ⟨password, hpushed, -, hkey⟩
    rw [pushedPassword_eq] at hpushed
    rwa [← Option.some.inj hpushed] at hkey
  · intro hkey
    exact ⟨_, pushedPassword_eq _ _ _, fun eps link hlink =>
      buildLinks_secret hprotocol hlink, hkey⟩

end

/-- A Shadowsocks inbound with a cipher and a key. -/
def shadowsocksInbound (method password : String) : PanelInbound :=
  ⟨1, "shadowsocks", some method, some password, [], "none", "tcp"⟩

/-- The UUID of a client. -/
def sampleUuid : String := "8c6d1a52-7c4e-4f0e-9a39-0d5b3c1f2e77"

/-- A digest of 32 bytes; no password below is made of it. -/
def blankDigest (_ : List UInt8) : List UInt8 := List.replicate 32 0

/-- On an inbound with a 2022-blake3 cipher, the client is given a password that is no key. -/
theorem blake3_password_no_key : ¬KeysAgree blankDigest
    (shadowsocksInbound "2022-blake3-aes-128-gcm" "yFPpdgBcM1y1Q3Nh8Yc3Lw==") sampleUuid := by
  rintro ⟨password, hpushed, -, hkey⟩
  rw [pushedPassword_eq] at hpushed
  obtain rfl := Option.some.inj hpushed
  exact not_isKey_of_length (by decide +kernel) _ (hkey (by decide +kernel))

/-- On an inbound with an older cipher the keys agree. -/
theorem keysAgree_aes : KeysAgree blankDigest (shadowsocksInbound "aes-256-gcm" "") sampleUuid :=
  (keysAgree_iff blankDigest rfl sampleUuid).mpr (.inl (by decide +kernel))

end Credentials

end SRPanel
