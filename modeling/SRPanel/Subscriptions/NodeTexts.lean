import SRPanel.Model.Clash

/-!
# Texts of parsed nodes

Links that are built from well-formed texts become nodes with well-formed texts, names aside:
`cleanName` keeps sixty code units, and so it can cut a character outside the first plane into
halves.
-/

namespace SRPanel

namespace Clash

open Utf16 YamlText JsonText

/-! ## Texts of the parsers -/

section

variable {us vs raw fallback : Text} {c : UInt16}

/-- White space is no surrogate. -/
theorem isSurrogate_of_isSpace {u : UInt16} (hu : isSpace u) : isSurrogate u = false := by
  simp only [isSpace, Bool.or_eq_true, Bool.and_eq_true, decide_eq_true_eq] at hu
  rcases hu with (h | h) | h
  · exact isSurrogate_of_lt (by omega)
  · exact isSurrogate_of_lt (by omega)
  · have hall : ([32, 0xa0, 0x1680, 0x2028, 0x2029, 0x202f, 0x205f, 0x3000, 0xfeff] : Text).all
        fun u => !isSurrogate u := rfl
    exact Bool.not_eq_true' _ ▸ List.all_eq_true.mp hall u h

/-- So trimming cuts no pair. -/
theorem wellFormed_trim (h : WellFormed us) : WellFormed (trim us) :=
  (h.dropWhile fun _ => isSurrogate_of_isSpace).rdropWhile fun _ => isSurrogate_of_isSpace

/-- The parts of a cut, put together. -/
theorem cutFirst_eq {sep before after : Text} (h : cutFirst sep us = some (before, after)) :
    us = before ++ sep ++ after := by
  induction us generalizing before with
  | nil => cases h
  | cons u us ih =>
    rw [cutFirst] at h
    split at h
    · next hprefix =>
      obtain ⟨rfl, rfl⟩ := Prod.mk.inj (Option.some.inj h)
      obtain ⟨tail, htail⟩ := List.isPrefixOf_iff_prefix.mp hprefix
      rw [← htail, List.drop_left, List.nil_append]
    · obtain ⟨⟨before', after'⟩, hcut, heq⟩ := Option.map_eq_some_iff.mp h
      obtain ⟨rfl, rfl⟩ := Prod.mk.inj heq
      rw [ih hcut]
      rfl

/-- Both sides of a mark are well formed. -/
theorem wellFormed_cutFirst {sep before after : Text} (h : WellFormed us) (hne : sep ≠ [])
    (hsep : isBasic sep) (hcut : cutFirst sep us = some (before, after)) :
    WellFormed before ∧ WellFormed after := by
  have heq := cutFirst_eq hcut
  cases sep with
  | nil => exact absurd rfl hne
  | cons s sep =>
    obtain ⟨hs, hrest⟩ := List.forall_mem_cons.mp (isSurrogate_of_isBasic hsep)
    rw [heq, List.append_assoc, List.cons_append] at h
    obtain ⟨hbefore, htail⟩ := h.part_unit hs
    exact ⟨hbefore, (wellFormed_of_forall hrest).of_append_left htail⟩

theorem wellFormed_cutLast {before after : Text} (h : WellFormed us) (hc : isSurrogate c = false)
    (hcut : cutLast c us = some (before, after)) : WellFormed before ∧ WellFormed after := by
  unfold cutLast at hcut
  split at hcut
  · next hmem =>
    obtain ⟨rfl, rfl⟩ := Prod.mk.inj (Option.some.inj hcut)
    have hlast : us.rdropWhile (· ≠ c) ≠ [] := by
      rw [ne_eq, List.rdropWhile_eq_nil_iff]
      intro hall
      exact absurd rfl (of_decide_eq_true (hall c hmem))
    have hmark := List.rdropWhile_last_not (fun u => decide (u ≠ c)) us hlast
    rw [decide_eq_true_eq, not_not] at hmark
    have heq := List.rdropWhile_append_rtakeWhile (p := fun u => decide (u ≠ c)) (l := us)
    rw [← List.dropLast_append_getLast hlast, hmark, List.append_assoc,
      List.singleton_append] at heq
    rw [← heq] at h
    exact h.part_unit hc
  · cases hcut

theorem wellFormed_splitOn (h : WellFormed us) (hc : isSurrogate c = false) :
    ∀ p ∈ us.splitOn c, WellFormed p := by
  have hjoin : [c].intercalate (us.splitOn c) = us := List.intercalate_splitOn c
  generalize us.splitOn c = parts at hjoin
  subst hjoin
  induction parts with
  | nil => exact fun p hp => absurd hp List.not_mem_nil
  | cons part parts ih =>
    by_cases hlast : parts = []
    · subst hlast
      rw [List.intercalate_singleton] at h
      exact fun p hp => List.mem_singleton.mp hp ▸ h
    · rw [List.intercalate_cons_of_ne_nil hlast, List.append_assoc, List.singleton_append] at h
      obtain ⟨hpart, hparts⟩ := h.part_unit hc
      exact List.forall_mem_cons.mpr ⟨hpart, ih hparts⟩

/-- The protocols of a list are well formed. -/
theorem wellFormed_splitAlpn (h : WellFormed us) : ∀ alpn ∈ splitAlpn us, WellFormed alpn := by
  intro alpn halpn
  obtain ⟨part, hpart, rfl⟩ := List.mem_map.mp (List.mem_of_mem_filter halpn)
  exact wellFormed_trim (wellFormed_splitOn h rfl part hpart)

/-- So is a path. -/
theorem wellFormed_splitPath (h : WellFormed us) : WellFormed (splitPath us).1 := by
  unfold splitPath
  split
  · exact wellFormed_trim h
  · next path query hcut =>
    exact (wellFormed_cutFirst (wellFormed_trim h) (by decide) (by decide) hcut).1

/-- So is a host. -/
theorem wellFormed_normalizeHost (h : WellFormed us) : WellFormed (normalizeHost us) := by
  unfold normalizeHost
  extract_lets host
  have hhost : WellFormed host := wellFormed_trim h
  split
  · next hbrackets =>
    cases hcons : host with
    | nil => exact .nil
    | cons u rest =>
      rw [hcons, List.head?_cons, Option.some_inj] at hbrackets
      obtain ⟨rfl, hlast⟩ := hbrackets
      rw [hcons] at hhost
      have hopen : WellFormed [91] := .unit rfl .nil
      have hrest : WellFormed rest := hopen.of_append_left hhost
      rw [List.drop_succ_cons, List.drop_zero]
      cases hend : rest with
      | nil => exact .nil
      | cons v tail =>
        have hsome : rest.getLast? = some 93 := by
          rw [hend] at hlast ⊢
          rwa [List.getLast?_cons_cons] at hlast
        rw [← hend]
        rw [← List.dropLast_append_getLast? 93 hsome] at hrest
        exact (hrest.part_unit rfl).1
  · exact hhost

/-- Numerals are made of digits. -/
theorem isAlnum_of_mem_numeral {u : UInt16} {n : ℕ} (hu : u ∈ numeral n) : isAlnum u := by
  obtain ⟨d, hd, hmem⟩ := List.mem_flatMap.mp hu
  have hdigit : d.isDigit := by
    rw [Nat.toString_eq_repr, Nat.toList_repr] at hd
    exact Nat.isDigit_of_mem_toDigits (by decide) (by decide) hd
  simp only [Char.isDigit, Bool.and_eq_true, decide_eq_true_eq, ge_iff_le,
    UInt32.le_iff_toNat_le] at hdigit
  obtain ⟨hlow, hhigh⟩ : 48 ≤ d.toNat ∧ d.toNat ≤ 57 := hdigit
  rw [encodePoint, if_pos (by omega), List.mem_singleton] at hmem
  rw [hmem, isAlnum, UInt16.toNat_ofNat_of_lt' (show _ < 65536 by omega)]
  simp only [Bool.or_eq_true, Bool.and_eq_true, decide_eq_true_eq]
  omega

/-- A number is written as a word. -/
theorem isWord_numeral (n : ℕ) : isWord (numeral n) := by
  have hunits : ∀ u ∈ numeral n, isAlnum u := fun u hu => isAlnum_of_mem_numeral hu
  have hne : numeral n ≠ [] := by
    intro hnil
    have hpoint : ∀ m, encodePoint m ≠ [] := by
      intro m
      unfold encodePoint
      split
      · exact List.cons_ne_nil _ _
      · exact List.cons_ne_nil _ _
    rw [numeral, encode, List.flatMap_eq_nil_iff, Nat.toString_eq_repr, Nat.toList_repr] at hnil
    obtain ⟨d, hd⟩ := List.exists_mem_of_ne_nil _ (Nat.toDigits_ne_nil (n := n) (b := 10))
    exact hpoint _ (hnil d hd)
  cases hcons : numeral n with
  | nil => exact absurd hcons hne
  | cons u rest =>
    rw [hcons] at hunits
    rw [isWord, Bool.and_eq_true, List.head?_cons, Option.any_some, List.all_eq_true]
    refine ⟨hunits u List.mem_cons_self, fun v hv => ?_⟩
    rw [isWordUnit, hunits v hv]
    rfl

/-! ## Names -/

theorem wellFormed_stripped {drop : ℕ → Bool} (h : WellFormed raw) :
    WellFormed (stripped drop raw) :=
  wellFormed_trim (h.filter_points _)

/-- A label that is cut between the units of one character. -/
def CutsPair (label : Text) : Prop := 60 < label.length ∧ ∃ u ∈ label[59]?, isHigh u

theorem getLast?_take {n : ℕ} (h : n < us.length) : (us.take (n + 1)).getLast? = us[n]? := by
  rw [List.getLast?_eq_getElem?, List.length_take, Nat.min_eq_left (by omega), Nat.add_sub_cancel,
    List.getElem?_take_of_lt (Nat.lt_succ_self n)]

/-- A name that is not cut within a pair is well formed. -/
theorem wellFormed_cleanName (hraw : WellFormed raw) (hfallback : WellFormed fallback)
    (hcut : ¬CutsPair (stripped isControl raw)) : WellFormed (cleanName raw fallback) := by
  unfold cleanName
  extract_lets out
  have hout : WellFormed out := wellFormed_stripped hraw
  split
  · exact hfallback
  split
  · next hlong =>
    have hparts : WellFormed (out.take 60 ++ out.drop 60) := by rwa [List.take_append_drop]
    refine wellFormed_trim (hparts.part_last ?_)
    intro u hu
    rw [getLast?_take (by omega)] at hu
    rw [Bool.eq_false_iff]
    exact fun hhigh => hcut ⟨hlong, u, hu, hhigh⟩
  · exact hout

/-- One that is cut so ends with a half of a pair. -/
theorem cleanName_of_cutsPair (hcut : CutsPair (stripped isControl raw)) :
    ∃ x u, cleanName raw fallback = x ++ [u] ∧ isHigh u := by
  obtain ⟨hlong, u, hu, hhigh⟩ := hcut
  have hne : stripped isControl raw ≠ [] := by
    intro hnil
    rw [hnil] at hlong
    cases hlong
  rw [cleanName, if_neg hne, if_pos hlong]
  have hlast : u ∈ ((stripped isControl raw).take 60).getLast? := by rwa [getLast?_take (by omega)]
  have hspace : isSpace u = false := by
    rw [Bool.eq_false_iff]
    intro hspace
    have hnot := isSurrogate_of_isSpace hspace
    rw [isSurrogate, hhigh] at hnot
    cases hnot
  -- neither end of the trim touches the last unit
  obtain ⟨x, hx⟩ : ∃ x, (stripped isControl raw).take 60 = x ++ [u] :=
    ⟨_, (List.dropLast_append_getLast? u hlast).symm⟩
  obtain ⟨y, hy⟩ : ∃ y, (x ++ [u]).dropWhile isSpace = y ++ [u] := by
    rw [List.dropWhile_append]
    split
    · exact ⟨[], by rw [List.dropWhile_cons_of_neg (by rw [hspace]; decide)]; rfl⟩
    · exact ⟨_, rfl⟩
  refine ⟨y, u, ?_, hhigh⟩
  rw [trim, hx, hy, List.rdropWhile_concat_neg _ _ _ (by rw [hspace]; decide)]

/-- The numbers that keep names apart neither repair nor break them. -/
theorem uniqueName_eq_append (raw : Text) (used : List Text) :
    ∃ suffix, uniqueName raw used = raw ++ suffix ∧ WellFormed suffix ∧ ∀ v ∈ suffix.head?,
    isLow v = false := by
  obtain ⟨i, -, heq, -⟩ := Fresh.firstFree_spec (numbered raw) used (used.length + 1) 0
  rw [uniqueName, heq, Nat.zero_add]
  cases i with
  | zero => exact ⟨[], (List.append_nil raw).symm, .nil, fun v hv => by cases hv⟩
  | succ k =>
    refine ⟨32 :: numeral (k + 2), rfl, .unit rfl (wellFormed_word (isWord_numeral _)), ?_⟩
    intro v hv
    obtain rfl : 32 = v := by simpa using hv
    rfl

end

/-! ## Texts of nodes -/

/-- The texts of the runtime are well formed, and fragments have ASCII characters only. -/
structure UriEnv.Unicode (env : UriEnv) : Prop where
  hostname : ∀ raw url, env.parseUrl raw = some url → WellFormed url.hostname
  username : ∀ raw url, env.parseUrl raw = some url → WellFormed url.username
  hash : ∀ raw url, env.parseUrl raw = some url → ∀ u ∈ url.hash, u.toNat < 128
  get : ∀ raw url, env.parseUrl raw = some url → ∀ key s, url.get key = some s → WellFormed s
  decodeURIComponent : ∀ value s, WellFormed value → env.decodeURIComponent value = some s →
    WellFormed s
  base64 : ∀ s, WellFormed (env.base64 s)
  number : ∀ text fields, env.parseJson text = some fields → ∀ key s, fields key = .number s →
    WellFormed s

/-- The URI of a link. -/
def ShareLink.raw : ShareLink → Text
  | .uri text => trim text
  | .row text _ => trim text

/-- The remark of a link. -/
def ShareLink.remark : ShareLink → Text
  | .uri _ => []
  | .row _ remark => trim remark

/-- The link is built from well-formed texts: it is well formed, and so is every text in its JSON.
-/
structure LinkTexts (env : UriEnv) (link : ShareLink) : Prop where
  raw : WellFormed link.raw
  remark : WellFormed link.remark
  fields : ∀ fields, vmessFields env (bodyOf link.raw) = some fields →
    ∀ key s, fields key = .text s → WellFormed s

/-- The texts of a node are well formed, its name aside. -/
structure NodeTexts (node : ProxyNode) : Prop where
  host : WellFormed node.host
  secret : WellFormed node.secret
  method : WellFormed node.method
  sni : WellFormed node.sni
  alpn : ∀ alpn ∈ node.alpn, WellFormed alpn
  fingerprint : WellFormed node.fingerprint
  flow : WellFormed node.flow
  reality : ∀ publicKey shortId, node.reality = some (publicKey, shortId) →
    WellFormed publicKey ∧ WellFormed shortId
  path : WellFormed node.path
  hostHeader : WellFormed node.hostHeader
  serviceName : WellFormed node.serviceName

/-- The label that a link carries in itself. -/
def ownLabel (env : UriEnv) (link : ShareLink) : Text :=
  let body := bodyOf link.raw
  let scheme := lower (((cutFirst (encode "://") link.raw).map Prod.fst).getD [])
  if scheme = encode "vless" ∨ scheme = encode "trojan" then
    ((env.parseUrl link.raw).map fun url => tryDecode env (url.hash.drop 1)).getD []
  else if scheme = encode "vmess" then ((vmessFields env body).map fun fields =>
    vmessLabel env body fields).getD []
  else hashLabel env body

/-- The label that a node is named by: the link's own one, or else the remark, without control
characters. -/
def labelOf (env : UriEnv) (link : ShareLink) : Text :=
  orText (stripped isControl (ownLabel env link)) (stripped isControl link.remark)

section

variable {env : UriEnv} {link : ShareLink} {us raw fallback name : Text} {node : ProxyNode}

/-- A text decoded or left is well formed. -/
theorem wellFormed_tryDecode (henv : env.Unicode) (h : WellFormed us) :
    WellFormed (tryDecode env us) := by
  unfold tryDecode
  split
  · exact .nil
  · cases hdecode : env.decodeURIComponent us with
    | none => exact h
    | some s => exact henv.decodeURIComponent us s h hdecode

/-- So is one from Base64. -/
theorem wellFormed_decodeB64 (henv : env.Unicode) (us : Text) : WellFormed (decodeB64 env us) := by
  unfold decodeB64
  extract_lets clean
  split
  · exact .nil
  · exact henv.base64 _

/-- So is the label behind a hash sign. -/
theorem wellFormed_hashLabel (henv : env.Unicode) (h : WellFormed us) :
    WellFormed (hashLabel env us) := by
  unfold hashLabel
  cases hcut : cutFirst [35] us with
  | none => exact .nil
  | some parts => exact wellFormed_tryDecode henv (wellFormed_cutFirst h (by decide)
    (by decide) hcut).2

/-- So is what stands before it. -/
theorem wellFormed_beforeHash (h : WellFormed us) : WellFormed (beforeHash us) := by
  unfold beforeHash
  cases hcut : cutFirst [35] us with
  | none => exact h
  | some parts => exact (wellFormed_cutFirst h (by decide) (by decide) hcut).1

/-- A link with a scheme has a well-formed body. -/
theorem wellFormed_bodyOf {parts : Text × Text} (h : WellFormed us)
    (hcut : cutFirst (encode "://") us = some parts) : WellFormed (bodyOf us) := by
  rw [bodyOf, hcut]
  exact (wellFormed_cutFirst h (by decide) (by decide) hcut).2

theorem parseUrlLike_texts (henv : env.Unicode) {kind : NodeKind}
    (h : parseUrlLike env kind raw fallback = some node) :
      NodeTexts node ∧ ∃ url, env.parseUrl raw = some url ∧
      WellFormed (tryDecode env (url.hash.drop 1)) ∧
      node.name = cleanName (tryDecode env (url.hash.drop 1)) fallback := by
  obtain ⟨url, hurl, h⟩ := Option.bind_eq_some_iff.mp h
  extract_lets host port secret q publicKey headerType at h
  split at h
  · cases h
  · obtain rfl := Option.some.inj h
    have hq : ∀ key, WellFormed (q key) := by
      intro key
      simp only [q]
      cases hget : url.get (encode key) with
      | none => exact .nil
      | some s => exact henv.get raw url hurl _ s hget
    have htrim : ∀ key, WellFormed (trim (q key)) := fun key => wellFormed_trim (hq key)
    have hhash : WellFormed (url.hash.drop 1) := wellFormed_of_forall fun u hu =>
      isSurrogate_of_lt (by have := henv.hash raw url hurl u (List.mem_of_mem_drop hu); omega)
    refine ⟨?_, url, hurl, wellFormed_tryDecode henv hhash, rfl⟩
    exact
      { host := wellFormed_normalizeHost (henv.hostname raw url hurl)
        secret := wellFormed_tryDecode henv (henv.username raw url hurl)
        method := .nil
        sni := htrim "sni"
        alpn := wellFormed_splitAlpn (hq "alpn")
        fingerprint := htrim "fp"
        flow := htrim "flow"
        reality := by
          intro publicKey' shortId heq
          dsimp only at heq
          split at heq
          · obtain ⟨rfl, rfl⟩ := Prod.mk.inj (Option.some.inj heq)
            exact ⟨htrim "pbk", htrim "sid"⟩
          · cases heq
        path := wellFormed_splitPath (hq "path")
        hostHeader := htrim "host"
        serviceName := htrim "serviceName" }

/-- The fields of a vmess link that was built from well-formed texts. -/
theorem wellFormed_str (henv : env.Unicode) {body : Text} {fields : Text → JsonField}
    (hfields : vmessFields env body = some fields)
    (htexts : ∀ key s, fields key = .text s → WellFormed s)
    (key : String) : WellFormed (str fields key) := by
  unfold vmessFields at hfields
  extract_lets text at hfields
  split at hfields
  · unfold str
    split
    · next s hs => exact wellFormed_trim (htexts _ s hs)
    · next s hs => exact henv.number text fields hfields _ s hs
    · exact .nil
  · cases hfields

theorem parseVmess_texts (henv : env.Unicode) (hbody : WellFormed (bodyOf raw))
    (hlink : ∀ fields, vmessFields env (bodyOf raw) = some fields → ∀ key s, fields key = .text s →
      WellFormed s)
    (h : parseVmess env raw fallback = some node) :
    NodeTexts node ∧ ∃ fields, vmessFields env (bodyOf raw) = some fields ∧
      WellFormed (vmessLabel env (bodyOf raw) fields) ∧
      node.name = cleanName (vmessLabel env (bodyOf raw) fields) fallback := by
  obtain ⟨fields, hfields, h⟩ := Option.bind_eq_some_iff.mp h
  extract_lets host port secret network headerType at h
  split at h
  · cases h
  · obtain rfl := Option.some.inj h
    have hstr : ∀ key, WellFormed (str fields key) :=
      wellFormed_str henv hfields (hlink fields hfields)
    have hlabel : WellFormed (vmessLabel env (bodyOf raw) fields) := by
      unfold vmessLabel
      split
      · exact wellFormed_hashLabel henv hbody
      · exact hstr "ps"
    refine ⟨?_, fields, hfields, hlabel, rfl⟩
    exact
      { host := wellFormed_normalizeHost (hstr "add")
        secret := hstr "id"
        method := hstr "scy"
        sni := hstr "sni"
        alpn := wellFormed_splitAlpn (hstr "alpn")
        fingerprint := hstr "fp"
        flow := .nil
        reality := fun _ _ heq => by cases heq
        path := by
          dsimp only
          split
          · exact .nil
          · exact wellFormed_splitPath (hstr "path")
        hostHeader := hstr "host"
        serviceName := by
          dsimp only
          split
          · exact hstr "path"
          · exact .nil }

theorem ssNode_texts {creds hostPort : Text} (hcreds : WellFormed creds)
    (hhost : WellFormed hostPort) (h : ssNode creds hostPort name = some node) :
    NodeTexts node ∧ node.name = name := by
  unfold ssNode at h
  split at h
  · next method password host port hcut hlast =>
    obtain ⟨hmethod, hpassword⟩ := wellFormed_cutFirst hcreds (by decide) (by decide) hcut
    obtain ⟨hhost, -⟩ := wellFormed_cutLast hhost rfl hlast
    split at h
    · cases h
    split at h
    · cases h
    · obtain rfl := Option.some.inj h
      refine ⟨?_, rfl⟩
      exact
        { host := wellFormed_normalizeHost hhost
          secret := hpassword
          method := wellFormed_trim hmethod
          sni := .nil
          alpn := fun _ halpn => absurd halpn List.not_mem_nil
          fingerprint := .nil
          flow := .nil
          reality := fun _ _ heq => by cases heq
          path := .nil
          hostHeader := .nil
          serviceName := .nil }
  · cases h

theorem parseSs_texts (henv : env.Unicode) (hbody : WellFormed (bodyOf raw))
    (h : parseSs env raw fallback = some node) :
    NodeTexts node ∧ node.name = cleanName (hashLabel env (bodyOf raw)) fallback := by
  unfold parseSs at h
  extract_lets body label at h
  have hcore : WellFormed ((cutFirst [63] (beforeHash body)).getD (beforeHash body, [])).1 := by
    cases hcut : cutFirst [63] (beforeHash body) with
    | none => exact wellFormed_beforeHash hbody
    | some parts => exact (wellFormed_cutFirst (wellFormed_beforeHash hbody) (by decide)
      (by decide) hcut).1
  generalize (cutFirst [63] (beforeHash body)).getD (beforeHash body, []) = parts at h hcore
  obtain ⟨core, query⟩ := parts
  dsimp only at h hcore
  split at h
  · cases h
  split at h
  · next head hostPort hcut =>
    obtain ⟨hcut, -⟩ := Option.filter_eq_some_iff.mp hcut
    obtain ⟨hhead, hhost⟩ := wellFormed_cutLast hcore rfl hcut
    refine ssNode_texts ?_ (wellFormed_tryDecode henv hhost) h
    split
    · exact wellFormed_tryDecode henv hhead
    · exact wellFormed_decodeB64 henv head
  · split at h
    · next creds hostPort hcut =>
      obtain ⟨hcut, -⟩ := Option.filter_eq_some_iff.mp hcut
      obtain ⟨hcreds, hhost⟩ := wellFormed_cutLast (wellFormed_decodeB64 henv core) rfl hcut
      exact ssNode_texts hcreds hhost h
    · cases h

/-- What a link becomes: well-formed texts, and a name from its labels. -/
theorem parseShareUri_texts (henv : env.Unicode) (hlink : LinkTexts env link)
    (h : parseShareUri env link fallback = some node) :
    NodeTexts node ∧ WellFormed (ownLabel env link) ∧
      node.name = cleanName (ownLabel env link) (cleanName link.remark fallback) := by
  have hlocal : ∀ uri remark, link.raw = trim uri → link.remark = remark →
      (cutFirst (encode "://") (trim uri)).bind (fun parts =>
        let name := cleanName remark fallback
        let scheme := lower parts.1
        if scheme = encode "vless" then parseUrlLike env .vless (trim uri) name
        else if scheme = encode "trojan" then parseUrlLike env .trojan (trim uri) name
        else if scheme = encode "vmess" then parseVmess env (trim uri) name
        else if scheme = encode "ss" then parseSs env (trim uri) name
        else none) = some node →
      NodeTexts node ∧ WellFormed (ownLabel env link) ∧
        node.name = cleanName (ownLabel env link) (cleanName link.remark fallback) := by
    rintro uri remark hraw rfl h
    rw [← hraw] at h
    obtain ⟨parts, hcut, h⟩ := Option.bind_eq_some_iff.mp h
    have hbody : WellFormed (bodyOf link.raw) := wellFormed_bodyOf hlink.raw hcut
    have hscheme : ((cutFirst (encode "://") link.raw).map Prod.fst).getD [] = parts.1 :=
      by rw [hcut]; rfl
    unfold ownLabel
    extract_lets name scheme at h
    extract_lets body scheme'
    have heq : scheme' = scheme := congrArg lower hscheme
    rw [heq]
    split at h
    · next hvless =>
      obtain ⟨htexts, url, hurl, hlabel, hname⟩ := parseUrlLike_texts henv h
      rw [if_pos (.inl hvless), hurl]
      exact ⟨htexts, hlabel, hname⟩
    split at h
    · next htrojan =>
      obtain ⟨htexts, url, hurl, hlabel, hname⟩ := parseUrlLike_texts henv h
      rw [if_pos (.inr htrojan), hurl]
      exact ⟨htexts, hlabel, hname⟩
    next hvless htrojan =>
    rw [if_neg (by tauto)]
    split at h
    · next hvmess =>
      obtain ⟨htexts, fields, hfields, hlabel, hname⟩ := parseVmess_texts henv hbody hlink.fields h
      rw [if_pos hvmess, hfields]
      exact ⟨htexts, hlabel, hname⟩
    next hvmess =>
    rw [if_neg hvmess]
    split at h
    · obtain ⟨htexts, hname⟩ := parseSs_texts henv hbody h
      exact ⟨htexts, wellFormed_hashLabel henv hbody, hname⟩
    · cases h
  cases link with
  | uri uri => exact hlocal uri [] rfl rfl h
  | row uri remark => exact hlocal uri (trim remark) rfl rfl h

/-- A name is well formed unless its label is cut within a pair; else it ends with a half of one. -/
theorem name_wellFormed {own remark : Text} (hown : WellFormed own) (hremark : WellFormed remark)
    (hfallback : WellFormed fallback)
    (hcut : ¬CutsPair (orText (stripped isControl own) (stripped isControl remark))) :
    WellFormed (cleanName own (cleanName remark fallback)) := by
  rw [orText] at hcut
  by_cases hnil : stripped isControl own = []
  · rw [if_pos hnil] at hcut
    rw [cleanName, if_pos hnil]
    exact wellFormed_cleanName hremark hfallback hcut
  · rw [if_neg hnil] at hcut
    rw [cleanName, if_neg hnil]
    have h := wellFormed_cleanName hown .nil hcut
    rwa [cleanName, if_neg hnil] at h

theorem name_of_cutsPair {own remark : Text}
    (hcut : CutsPair (orText (stripped isControl own) (stripped isControl remark))) :
    ∃ x u, cleanName own (cleanName remark fallback) = x ++ [u] ∧ isHigh u := by
  rw [orText] at hcut
  by_cases hnil : stripped isControl own = []
  · rw [if_pos hnil] at hcut
    rw [cleanName, if_pos hnil]
    exact cleanName_of_cutsPair hcut
  · rw [if_neg hnil] at hcut
    exact cleanName_of_cutsPair hcut

end

end Clash

end SRPanel
