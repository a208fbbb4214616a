import SRPanel.Model.Credentials

/-!
# What the links say

A link is read by the panel's own reader as other clients read it. A vmess link says the id, a
Shadowsocks link the password behind its cipher. In a trojan and a vless link the secret stands
unescaped where a URL has its user name, and some texts are taken for something else there.
-/

namespace SRPanel

namespace Credentials

open Percent

/-! ## Base64 -/

theorem b64Value_b64Digit : ∀ n < 64, b64Value (b64Digit n) = some n ∧ b64Digit n ≠ '=' := by decide

/-- Digits are taken up to the padding. -/
theorem digits_cons {n : ℕ} (hn : n < 64) (cs : List Char) :
    ((b64Digit n :: cs).takeWhile (· ≠ '=')).filterMap b64Value =
      n :: (cs.takeWhile (· ≠ '=')).filterMap b64Value := by
  obtain ⟨hvalue, hne⟩ := b64Value_b64Digit n hn
  rw [List.takeWhile_cons, if_pos (by simpa using hne), List.filterMap_cons, hvalue]

theorem byte_eq {n : ℕ} {b : UInt8} (h : n = b.toNat) : UInt8.ofNat n = b := by
  rw [h, UInt8.ofNat_toNat]

/-- Bytes are read from their digits. -/
theorem b64Groups_b64Bytes (bs : List UInt8) :
    b64Groups (((b64Bytes bs).takeWhile (· ≠ '=')).filterMap b64Value) = bs := by
  induction bs using b64Bytes.induct with
  | case1 a b c rest ih =>
      have ha := a.toNat_lt
      have hb := b.toNat_lt
      have hc := c.toNat_lt
      rw [b64Bytes]
      rw [digits_cons (by omega), digits_cons (by omega), digits_cons (by omega),
        digits_cons (by omega), b64Groups, ih, byte_eq (b := a) (by omega),
          byte_eq (b := b) (by omega), byte_eq (b := c) (by omega)]
  | case2 a b =>
      have ha := a.toNat_lt
      have hb := b.toNat_lt
      rw [b64Bytes]
      rw [digits_cons (by omega), digits_cons (by omega), digits_cons (by omega)]
      show b64Groups [_, _, _] = _
      rw [b64Groups, byte_eq (b := a) (by omega), byte_eq (b := b) (by omega)]
  | case3 a =>
      have ha := a.toNat_lt
      rw [b64Bytes]
      rw [digits_cons (by omega), digits_cons (by omega)]
      show b64Groups [_, _] = _
      rw [b64Groups, byte_eq (b := a) (by omega)]
  | case4 => rfl

/-- An encoded text is read back. -/
theorem decodeB64_b64 (s : String) : decodeB64 (b64 s).toList = some s := by
  rw [decodeB64, b64, String.toList_ofList, b64Groups_b64Bytes, fromUTF8?_utf8,
    String.ofList_toList]

/-- None of the delimiters of a URL is a digit of base64. -/
theorem not_mem_b64 (s : String) : ∀ c ∈ ['#', '?', '@'], c ∉ (b64 s).toList := by
  have hdigit : ∀ n < 64, b64Digit n ∉ ['#', '?', '@'] := by decide
  have hbytes : ∀ bs, ∀ c ∈ b64Bytes bs, c ∉ ['#', '?', '@'] := by
    intro bs
    induction bs using b64Bytes.induct with
    | case1 a b c rest ih =>
        have ha := a.toNat_lt
        have hb := b.toNat_lt
        have hc := c.toNat_lt
        rw [b64Bytes]
        simp only [List.forall_mem_cons]
        exact ⟨hdigit _ (by omega), hdigit _ (by omega), hdigit _ (by omega),
          hdigit _ (by omega), ih⟩
    | case2 a b =>
        have ha := a.toNat_lt
        have hb := b.toNat_lt
        rw [b64Bytes]
        simp only [List.forall_mem_cons]
        exact ⟨hdigit _ (by omega), hdigit _ (by omega), hdigit _ (by omega), by decide, by simp⟩
    | case3 a =>
        have ha := a.toNat_lt
        rw [b64Bytes]
        simp only [List.forall_mem_cons]
        exact ⟨hdigit _ (by omega), hdigit _ (by omega), by decide, by decide, by simp⟩
    | case4 => simp [b64Bytes]
  intro c hc hmem
  rw [b64, String.toList_ofList] at hmem
  exact hbytes _ c hmem hc

/-! ## Delimiters -/

section

variable {p : Char → Bool} {cs : List Char}

theorem takeWhile_stop {x : Char} (hx : p x = false) (cs rest : List Char) :
    (cs ++ x :: rest).takeWhile p = cs.takeWhile p := by
  induction cs with
  | nil =>
      rw [List.nil_append, List.takeWhile_cons, hx]
      rfl
  | cons c cs ih => rw [List.cons_append, List.takeWhile_cons, List.takeWhile_cons, ih]

theorem takeWhile_stopped (h : ∃ c ∈ cs, p c = false) (rest : List Char) :
    (cs ++ rest).takeWhile p = cs.takeWhile p := by
  obtain ⟨c, hc, hstop⟩ := h
  obtain ⟨front, back, rfl⟩ := List.append_of_mem hc
  rw [List.append_assoc, List.cons_append, takeWhile_stop hstop, takeWhile_stop hstop]

theorem takeWhile_whole (h : ∀ c ∈ cs, p c = true) (rest : List Char) :
    (cs ++ rest).takeWhile p = cs ++ rest.takeWhile p :=
  List.takeWhile_append_of_pos h

/-- Without another `@` behind it, this one is the last. -/
theorem beforeAt_append {tail : List Char} (h : '@' ∉ tail) (cs : List Char) :
    beforeAt (cs ++ '@' :: tail) = cs := by
  have hne : ∀ c ∈ tail.reverse, (decide (c ≠ '@')) = true := fun c hc =>
    decide_eq_true fun heq => h (heq ▸ List.mem_reverse.mp hc)
  have htail : (cs ++ '@' :: tail).rdropWhile (· ≠ '@') = cs ++ ['@'] := by
    rw [List.rdropWhile, List.reverse_append, List.reverse_cons, List.append_assoc,
      List.dropWhile_append_of_pos hne]
    simp
  rw [beforeAt, htail, List.dropLast_concat]

theorem beforeAt_sublist (cs : List Char) : (beforeAt cs).Sublist cs :=
  (List.dropLast_sublist _).trans (List.rdropWhile_prefix _ cs).sublist

end

/-! ## User names -/

/-- The characters with which a user name ends, and those that are passed over. -/
def UserEnds (c : Char) : Prop := c ∈ ['\t', '\n', '\r', '/', '?', '#', ':']

/-- What a URL has for its user name if this text is written there. -/
def userPart (text : List Char) : List Char := userOf (text ++ ['@'])

variable {text : List Char}

/-- What stands behind the text does not matter. -/
theorem userOf_eq {host : List Char} (hhost : '@' ∉ host) (more : List Char) :
    userOf (text ++ '@' :: (host ++ '?' :: more)) = userPart text := by
  have hkeepAt : (!List.contains ['\t', '\n', '\r'] '@') = true := by decide
  have hkeepQuery : (!List.contains ['\t', '\n', '\r'] '?') = true := by decide
  have hat : ∀ x, (text ++ '@' :: x).filter (!List.contains ['\t', '\n', '\r'] ·) =
      text.filter (!List.contains ['\t', '\n', '\r'] ·) ++
      '@' :: x.filter (!List.contains ['\t', '\n', '\r'] ·) := fun x => by
    rw [List.filter_append, List.filter_cons, hkeepAt, if_pos rfl]
  rw [userPart, userOf, userOf, hat, hat, List.filter_append, List.filter_cons,
    hkeepQuery, if_pos rfl]
  generalize text.filter (!List.contains ['\t', '\n', '\r'] ·) = front
  have hhost' : '@' ∉ (host.filter (!List.contains ['\t', '\n', '\r'] ·)).takeWhile
      (!List.contains ['/', '?', '#'] ·) :=
    fun h => hhost (List.mem_of_mem_filter ((List.takeWhile_sublist _).mem h))
  congr 1
  by_cases hstop : ∃ c ∈ front, (!List.contains ['/', '?', '#'] c) = false
  · rw [takeWhile_stopped hstop, takeWhile_stopped hstop]
  · have hgo : ∀ c ∈ front, (!List.contains ['/', '?', '#'] c) = true := fun c hc => by
      rw [← Bool.not_eq_false]
      exact fun h => hstop ⟨c, hc, h⟩
    rw [takeWhile_whole hgo, takeWhile_whole hgo, List.takeWhile_cons, if_pos (by decide),
      List.takeWhile_cons, if_pos (by decide), takeWhile_stop (by decide), beforeAt_append hhost',
      List.filter_nil, List.takeWhile_nil,
      beforeAt_append (by simp)]

/-- The user name is a part of the text. -/
theorem userPart_sublist : (userPart text).Sublist text := by
  have hat : (text ++ ['@']).filter (!List.contains ['\t', '\n', '\r'] ·) =
      text.filter (!List.contains ['\t', '\n', '\r'] ·) ++ ['@'] := by
    rw [List.filter_append]
    rfl
  refine (List.takeWhile_sublist _).trans
    (List.Sublist.trans ?_ (List.filter_sublist (p := (!List.contains ['\t', '\n', '\r'] ·))))
  rw [hat]
  generalize text.filter (!List.contains ['\t', '\n', '\r'] ·) = front
  by_cases hstop : ∃ c ∈ front, (!List.contains ['/', '?', '#'] c) = false
  · rw [takeWhile_stopped hstop]
    exact (beforeAt_sublist _).trans (List.takeWhile_sublist _)
  · have hgo : ∀ c ∈ front, (!List.contains ['/', '?', '#'] c) = true := fun c hc => by
      rw [← Bool.not_eq_false]
      exact fun h => hstop ⟨c, hc, h⟩
    rw [takeWhile_whole hgo, List.takeWhile_cons, if_pos (by decide), List.takeWhile_nil,
      beforeAt_append (by simp)]

/-- It is the whole text exactly if nothing ends it. -/
theorem userPart_eq_iff : userPart text = text ↔ ∀ c ∈ text, ¬UserEnds c := by
  constructor
  · intro h c hc hends
    rw [← h] at hc
    have hcolon := List.mem_takeWhile_imp hc
    have hauthority := (beforeAt_sublist _).mem ((List.takeWhile_sublist _).mem hc)
    have hstop := List.mem_takeWhile_imp hauthority
    have hpassed := (List.mem_filter.mp ((List.takeWhile_sublist _).mem hauthority)).2
    unfold UserEnds at hends
    simp only [List.mem_cons, List.not_mem_nil, or_false] at hends
    rcases hends with rfl | rfl | rfl | rfl | rfl | rfl | rfl
    · exact absurd hpassed (by decide)
    · exact absurd hpassed (by decide)
    · exact absurd hpassed (by decide)
    · exact absurd hstop (by decide)
    · exact absurd hstop (by decide)
    · exact absurd hstop (by decide)
    · exact absurd hcolon (by decide)
  · intro h
    have hnot : ∀ c ∈ text, c ∉ ['\t', '\n', '\r', '/', '?', '#', ':'] := h
    simp only [List.mem_cons, List.not_mem_nil, or_false, not_or] at hnot
    have hpassed : (text ++ ['@']).filter (!List.contains ['\t', '\n', '\r'] ·) =
        text ++ ['@'] := by
      rw [List.filter_eq_self]
      intro c hc
      rcases List.mem_append.mp hc with hc | hc
      · obtain ⟨h₁, h₂, h₃, -⟩ := hnot c hc
        simp [h₁, h₂, h₃]
      · rw [List.mem_singleton.mp hc]
        decide
    have hgo : ∀ c ∈ text, (!List.contains ['/', '?', '#'] c) = true := fun c hc => by
      obtain ⟨-, -, -, h₁, h₂, h₃, -⟩ := hnot c hc
      simp [h₁, h₂, h₃]
    have hcolon : ∀ c ∈ text, decide (c ≠ ':') = true := fun c hc => by
      obtain ⟨-, -, -, -, -, -, h₁⟩ := hnot c hc
      exact decide_eq_true h₁
    rw [userPart, userOf, hpassed, takeWhile_whole hgo, List.takeWhile_cons, if_pos (by decide),
      List.takeWhile_nil, beforeAt_append (by simp)]
    exact List.takeWhile_eq_self_iff.mpr hcolon

theorem sparing_isUserinfo : Sparing isUserinfo where
  percent := by decide
  digit := fun c hc => by
    have hle : ∀ d : Char, (d ≤ c ↔ d.toNat ≤ c.toNat) ∧ (c ≤ d ↔ c.toNat ≤ d.toNat) :=
      fun d => ⟨Iff.rfl, Iff.rfl⟩
    have hrange : 48 ≤ c.toNat ∧ c.toNat ≤ 57 ∨ 65 ≤ c.toNat ∧ c.toNat ≤ 70 ∨
        97 ≤ c.toNat ∧ c.toNat ≤ 102 := by
      unfold Percent.hexValue at hc
      split at hc
      · next h => exact .inl ⟨(hle '0').1.mp h.1, (hle '9').2.mp h.2⟩
      split at hc
      · next h => exact .inr (.inl ⟨(hle 'A').1.mp h.1, (hle 'F').2.mp h.2⟩)
      split at hc
      · next h => exact .inr (.inr ⟨(hle 'a').1.mp h.1, (hle 'f').2.mp h.2⟩)
      · cases hc
    simp only [isUserinfo, List.contains_cons, List.contains_nil, Bool.or_false,
      Bool.or_eq_false_iff, decide_eq_false_iff_not, beq_eq_false_iff_ne]
    omega

theorem isUserinfo_of_userEnds {c : Char} (h : UserEnds c) : isUserinfo c = true := by
  unfold UserEnds at h
  simp only [List.mem_cons, List.not_mem_nil, or_false] at h
  rcases h with rfl | rfl | rfl | rfl | rfl | rfl | rfl <;> decide

/-- The texts that are read as they stand where a URL has its user name. -/
def PlainUser (text : List Char) : Prop := (∀ c ∈ text, ¬UserEnds c) ∧ Legible isUserinfo text

/-- The secret that is read from a text where a URL has its user name. -/
def userReading (text : List Char) : String := tryDecode (encode isUserinfo (userPart text))

theorem userReading_eq_iff : userReading text = .ofList text ↔ PlainUser text := by
  have hwhole : (∀ c ∈ text, isUserinfo c = false) → userPart text = text := fun h =>
    userPart_eq_iff.mpr fun c hc hends => by
      have hset := isUserinfo_of_userEnds hends
      rw [h c hc] at hset
      cases hset
  constructor
  · intro h
    have hself := eq_of_tryDecode_encode sparing_isUserinfo userPart_sublist hwhole h
    refine ⟨userPart_eq_iff.mp hself, ?_⟩
    rw [userReading, hself] at h
    exact (tryDecode_encode_iff sparing_isUserinfo).mp h
  · intro h
    rw [userReading, userPart_eq_iff.mpr h.1]
    exact (tryDecode_encode_iff sparing_isUserinfo).mpr h.2

/-! ## Links -/

/-- What stands behind the first colon. -/
def behindColon (cs : List Char) : List Char := (cs.dropWhile (· ≠ ':')).drop 1

/-- What a link on an inbound says, for a client with this text. -/
def reading (ib : PanelInbound) (text : String) : String :=
  if ib.protocol = "vmess" then trim text
  else if ib.protocol = "shadowsocks" then
    .ofList (behindColon (ib.cipher ++ ":" ++ ib.expected (dropDashes text)).toList)
  else userReading text.toList

section

variable {uri : String} {body : List Char}

/-- The secret of a vless link is its user. -/
theorem linkSecret_of_vless (h : uri.toList = "vless://".toList ++ body) :
    linkSecret uri = some (userSecret body) := by
  unfold linkSecret
  rw [h]
  rfl

/-- So is that of a trojan link. -/
theorem linkSecret_of_trojan (h : uri.toList = "trojan://".toList ++ body) :
    linkSecret uri = some (userSecret body) := by
  unfold linkSecret
  rw [h]
  rfl

theorem linkSecret_of_vmess (h : uri.toList = "vmess://".toList ++ body) :
    linkSecret uri = vmessSecret body := by
  unfold linkSecret
  rw [h]
  rfl

theorem linkSecret_of_ss (h : uri.toList = "ss://".toList ++ body) :
    linkSecret uri = ssSecret body := by
  unfold linkSecret
  rw [h]
  rfl

end

/-- A host without an `@` has none with its port. -/
theorem not_mem_authority {host : List Char} (hhost : '@' ∉ host) (port : ℕ) :
    '@' ∉ host ++ ':' :: (toString port).toList := by
  intro h
  rcases List.mem_append.mp h with h | h
  · exact hhost h
  rcases List.mem_cons.mp h with h | h
  · exact absurd h (by decide)
  · rw [Nat.toString_eq_repr, Nat.toList_repr] at h
    exact absurd (Nat.isDigit_of_mem_toDigits (by decide) (by decide) h) (by decide)

/-- The digits of base64 are kept whole, whatever delimiter is looked for. -/
theorem b64_kept (s : String) {d : Char} (hd : d ∈ ['#', '?', '@']) :
    ∀ c ∈ (b64 s).toList, decide (c ≠ d) = true :=
  fun _ hc => decide_eq_true fun heq => not_mem_b64 s d hd (heq ▸ hc)

theorem linkSecret_vmess (extras : LinkExtras) (id : String) (ep : Endpoint) :
    linkSecret ((ShareLink.vmess id ep).uri extras) = some (trim id) := by
  have htext : ((ShareLink.vmess id ep).uri extras).toList =
      "vmess://".toList ++ (b64 (JsonObject.stringify (vmessObject extras id ep))).toList := by
    show ("vmess://" ++ _).toList = _
    exact String.toList_append
  rw [linkSecret_of_vmess htext, vmessSecret, List.takeWhile_eq_self_iff.mpr (b64_kept _ (by simp)),
    decodeB64_b64, Option.bind_some, JsonObject.parse_stringify]
  rfl

theorem linkSecret_ss (extras : LinkExtras) (method : String) (serverKey : Option String)
    (clientKey : String) {ep : Endpoint} (hhost : '@' ∉ ep.host.toList) :
    linkSecret ((ShareLink.ss method serverKey clientKey ep).uri extras) =
      some (.ofList (behindColon
        (method ++ ":" ++ ((serverKey.map (· ++ ":")).getD "" ++ clientKey)).toList)) := by
  generalize hcreds : method ++ ":" ++ ((serverKey.map (· ++ ":")).getD "" ++ clientKey) = creds
  have htext : ((ShareLink.ss method serverKey clientKey ep).uri extras).toList = "ss://".toList ++
      (((b64 creds).toList ++ '@' :: (ep.host.toList ++ ':' :: (toString ep.port).toList)) ++
        '#' :: (extras.label ep).toList) := by
    show ("ss://" ++ b64 (method ++ ":" ++ ((serverKey.map (· ++ ":")).getD "" ++ clientKey)) ++
      "@" ++ ep.host ++ ":" ++ toString ep.port ++ "#" ++ extras.label ep).toList = _
    rw [hcreds]
    simp only [String.toList_append, List.append_assoc, List.cons_append]
    rfl
  have hauthority : '@' ∉ (((ep.host.toList ++ ':' :: (toString ep.port).toList).takeWhile
      (· ≠ '#')).takeWhile (· ≠ '?')) :=
    fun h => not_mem_authority hhost ep.port
      ((List.takeWhile_sublist _).mem ((List.takeWhile_sublist _).mem h))
  rw [linkSecret_of_ss htext, ssSecret, takeWhile_stop (by decide),
    takeWhile_whole (b64_kept _ (by simp)), List.takeWhile_cons, if_pos (by decide),
    takeWhile_whole (b64_kept _ (by simp)), List.takeWhile_cons,
    if_pos (by decide), beforeAt_append hauthority, decodeB64_b64]
  rfl

theorem userSecret_eq {text host : List Char} (hhost : '@' ∉ host) (more : List Char) :
    userSecret (text ++ '@' :: (host ++ '?' :: more)) = userReading text := by
  rw [userSecret, userOf_eq hhost, userReading]

theorem linkSecret_trojan (extras : LinkExtras) (password : String) {ep : Endpoint}
    (hhost : '@' ∉ ep.host.toList) :
    linkSecret ((ShareLink.trojan password ep).uri extras) =
    some (userReading password.toList) := by
  have htext : ((ShareLink.trojan password ep).uri extras).toList = "trojan://".toList ++
      (password.toList ++ '@' ::
        ((ep.host.toList ++ ':' :: (toString ep.port).toList) ++
          '?' :: ((extras.query ep "").toList ++ '#' :: (extras.label ep).toList))) := by
    show ("trojan://" ++ password ++ "@" ++ ep.host ++ ":" ++ toString ep.port ++ "?" ++
      extras.query ep "" ++ "#" ++ extras.label ep).toList = _
    simp only [String.toList_append, List.append_assoc]
    rfl
  rw [linkSecret_of_trojan htext, userSecret_eq (not_mem_authority hhost ep.port)]

theorem linkSecret_vless (extras : LinkExtras) (id flow : String) {ep : Endpoint}
    (hhost : '@' ∉ ep.host.toList) :
    linkSecret ((ShareLink.vless id flow ep).uri extras) = some (userReading id.toList) := by
  have htext : ((ShareLink.vless id flow ep).uri extras).toList = "vless://".toList ++ (id.toList ++
      '@' :: ((ep.host.toList ++ ':' :: (toString ep.port).toList) ++
        '?' :: ((extras.query ep flow).toList ++ '#' :: (extras.label ep).toList))) := by
    show ("vless://" ++ id ++ "@" ++ ep.host ++ ":" ++ toString ep.port ++ "?" ++
      extras.query ep flow ++ "#" ++ extras.label ep).toList = _
    simp only [String.toList_append, List.append_assoc]
    rfl
  rw [linkSecret_of_vless htext, userSecret_eq (not_mem_authority hhost ep.port)]

/-- Every link of an inbound says the same, wherever it leads. -/
theorem linkSecret_of_mem {ib : PanelInbound} {uuid : String} {eps : List Endpoint}
    (hhosts : ∀ ep ∈ eps, '@' ∉ ep.host.toList) (extras : LinkExtras) {link : ShareLink}
    (h : link ∈ buildLinks ib uuid eps) :
    linkSecret (link.uri extras) = some (reading ib uuid) := by
  obtain ⟨ep, hep, rfl⟩ := List.mem_map.mp h
  have hhost := hhosts ep hep
  unfold reading
  split
  · exact linkSecret_vmess extras uuid ep
  split
  · next hvmess htrojan =>
    rw [if_neg (by rw [htrojan]; decide)]
    exact linkSecret_trojan extras uuid hhost
  split
  · next hss =>
    rw [linkSecret_ss extras _ _ _ hhost, PanelInbound.expected, if_pos hss]
  · exact linkSecret_vless extras uuid _ hhost

/-! ## Plain texts -/

/-- The text of a client as the links of a protocol show it. -/
def linkText (protocol text : String) : String :=
  if protocol = "shadowsocks" then dropDashes text else text

/-- The link on the inbound says what the text is. -/
def PlainOn (ib : PanelInbound) (text : String) : Prop :=
  if ib.protocol = "vmess" then True
  else if ib.protocol = "shadowsocks" then ':' ∉ ib.cipher.toList
  else PlainUser text.toList

theorem behindColon_append {method : String} (h : ':' ∉ method.toList) (password : String) :
    behindColon (method ++ ":" ++ password).toList = password.toList := by
  have hne : ∀ c ∈ method.toList, decide (c ≠ ':') = true := fun c hc => decide_eq_true fun heq =>
    h (heq ▸ hc)
  rw [behindColon, String.toList_append, String.toList_append, List.append_assoc,
    List.dropWhile_append_of_pos hne]
  rfl

theorem reading_of_plain {ib : PanelInbound} {text : String} (htrim : trim text = text)
    (h : PlainOn ib text) : reading ib text = ib.expected (linkText ib.protocol text) := by
  have hexpected : ∀ secret, ib.protocol ≠ "shadowsocks" → ib.expected secret = secret :=
    fun secret h =>
    if_neg h
  unfold PlainOn at h
  unfold reading linkText
  split
  · next hvmess =>
    have hss : ib.protocol ≠ "shadowsocks" := by rw [hvmess]; decide
    rw [if_neg hss, hexpected _ hss, htrim]
  · next hvmess =>
    rw [if_neg hvmess] at h
    split
    · next hss =>
      rw [if_pos hss] at h
      rw [behindColon_append h, String.ofList_toList]
    · next hss =>
      rw [if_neg hss] at h
      rw [userReading_eq_iff.mpr h, String.ofList_toList, hexpected _ hss]

/-- The key of the inbound stands in front of every secret. -/
theorem expected_injective (ib : PanelInbound) : Function.Injective ib.expected := by
  intro a b h
  unfold PanelInbound.expected at h
  split at h
  · have hlist := congrArg String.toList h
    rw [String.toList_append, String.toList_append] at hlist
    exact String.toList_inj.mp (List.append_cancel_left hlist)
  · exact h

end Credentials

end SRPanel
