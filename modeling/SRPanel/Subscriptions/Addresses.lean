import SRPanel.Lib.Inet
import SRPanel.Model.Hosts

/-!
# Addresses in share links

The address of a link is the first usable candidate in the documented order. The filter knows
internal IPv4 addresses by four decimal numbers and internal IPv6 addresses by their first digits;
so exactly the ones that are written in another way pass, such as `127.1`, `0x7f.0.0.1`,
`0:0:0:0:0:0:0:1`, `::1%lo` and `::ffff:10.0.0.1`.
-/

namespace SRPanel

namespace Hosts

open Inet

/-! ## The documented order -/

/-- An address with the question whether it can be used. -/
abbrev Candidate := ResolvedInboundAddress × Bool

/-- A value that is stored on the inbound; it has to be routable. -/
def ofInbound (url : UrlParser) (source : InboundAddressSource) (value : Stored) : Candidate :=
  let host := normalizeHostValue url value
  (⟨host, source⟩, host ≠ "" && isRoutableAddress url (.text host))

/-- What is known of the server. -/
def ofServer (source : InboundAddressSource) (host : String) : Candidate :=
  (⟨host, source⟩, host ≠ "")

/-- The candidates in the order of the documentation, from the share address to the panel's URL. -/
def documentedOrder (url : UrlParser) (inbound : AddressableInbound) (ctx : InboundAddressContext) :
    List Candidate :=
  let ss := inbound.streamSettings
  let security := ss.security.textOr "none"
  [ofInbound url .shareAddr inbound.shareAddr, ofInbound url .nodeAddress inbound.nodeAddress,
      ofInbound url .listen inbound.listen] ++
    (if security = "tls" then
      [ofInbound url .sni ss.serverName, ofInbound url .sni ss.settingsServerName,
        ofInbound url .transportHost (.text (transportHostOf url ss))]
    else []) ++
    [ofServer .serverPublicHost (normalizeHostValue url ctx.publicHost)] ++
    (if security = "none" then
      [ofInbound url .transportHost (.text (transportHostOf url ss))] else []) ++
    [ofServer .panelIp (publicIpOf url ctx.publicIp),
      ofServer .panelUrl (panelHostOf url ctx.baseUrl)]

/-- The first usable candidate. -/
def firstUsable (candidates : List Candidate) : Option ResolvedInboundAddress :=
  (candidates.find? fun c => c.2).map Prod.fst

/-- The host of the server wins over everything else. -/
def PrefersServer (url : UrlParser) (ctx : InboundAddressContext) : Prop :=
  ctx.preferServerHost ∧ normalizeHostValue url ctx.publicHost ≠ ""

/-- The source is a field of the inbound. -/
def InboundAddressSource.OfInbound (source : InboundAddressSource) : Prop :=
  source ∈ [.shareAddr, .nodeAddress, .listen, .sni, .transportHost]

instance : DecidablePred InboundAddressSource.OfInbound :=
  fun source => inferInstanceAs
    (Decidable (source ∈ [.shareAddr, .nodeAddress, .listen, .sni, .transportHost]))

/-- The address is the first usable candidate, and no internal one if it comes from the inbound. -/
structure AddressSound (url : UrlParser) (inbound : AddressableInbound)
    (ctx : InboundAddressContext) : Prop where
  order : ¬PrefersServer url ctx → resolveInboundAddress url inbound ctx =
    (firstUsable (documentedOrder url inbound ctx)).getD ⟨"", .unknown⟩
  server : PrefersServer url ctx → resolveInboundAddress url inbound ctx =
    ⟨normalizeHostValue url ctx.publicHost, .serverPublicHost⟩
  routable : (resolveInboundAddress url inbound ctx).source.OfInbound →
    ¬Internal (resolveInboundAddress url inbound ctx).host.toList

/-! ## Normal forms -/

section

variable {url : UrlParser} {value : Stored} {h : String}

/-- What every normal form is like. -/
structure NormalText (h : String) : Prop where
  lowered : lower h = h
  chars : ∀ c ∈ h.toList, isSeparator c = false ∧ c ≠ '/'
  ends : ∀ last, h.toList ≠ last ++ ['.']

theorem normalText_empty : NormalText "" := ⟨rfl, by simp, by simp⟩

theorem dropPort_sublist (host : List Char) : (dropPort host).Sublist host := by
  unfold dropPort
  split
  · next rest =>
    split
    · exact (List.takeWhile_sublist _).trans (List.sublist_cons_self _ _)
    · exact List.sublist_cons_self _ _
  · split
    · exact List.takeWhile_sublist _
    · exact List.Sublist.refl _

theorem isSeparator_toLower {c : Char} (h : isSeparator c = false) :
    isSeparator (Unicode.toLower c) = false := by
  simp only [isSeparator, Bool.or_eq_false_iff, decide_eq_false_iff_not] at h ⊢
  obtain ⟨⟨⟨hcomma, hwhite⟩, hsemicolon⟩, hbar⟩ := h
  have hkeep : ∀ d : Char, d.toNat ≤ 0x60 ∨ (0x7b ≤ d.toNat ∧ d.toNat < 0x80) → c ≠ d →
      Unicode.toLower c ≠ d := fun d hd hne heq => hne (Unicode.eq_of_toLower hd heq)
  exact ⟨⟨⟨hkeep ',' (by decide) hcomma, Unicode.isWhite_toLower hwhite⟩,
    hkeep ';' (by decide) hsemicolon⟩, hkeep '|' (by decide) hbar⟩

theorem normalText_bareHost (s : String) : NormalText (bareHost s) := by
  unfold bareHost
  extract_lets item host lowered
  split
  · exact normalText_empty
  · have hlowered : lowered.toList =
    ((dropPort host).rdropWhile (· = '.')).map Unicode.toLower := by
      simp only [lowered, lower, String.toList_ofList]
    refine ⟨lower_lower _, fun c hc => ?_, fun last hlast => ?_⟩
    · rw [hlowered] at hc
      obtain ⟨d, hd, rfl⟩ := List.mem_map.mp hc
      have hhost : d ∈ host := (dropPort_sublist host).subset
        ((List.rdropWhile_prefix _ _).subset hd)
      have hslash : d ≠ '/' := of_decide_eq_true (List.mem_takeWhile_imp (p := (· ≠ '/')) hhost)
      have hitem : d ∈ item := (List.dropWhile_sublist _).subset
        ((List.takeWhile_sublist _).subset hhost)
      have hseparator : isSeparator d = false := by simpa using List.mem_takeWhile_imp hitem
      exact ⟨isSeparator_toLower hseparator, fun heq =>
        hslash (Unicode.eq_of_toLower (by decide) heq)⟩
    · rw [hlowered] at hlast
      obtain ⟨front, back, hsplit, -, hback⟩ := List.map_eq_append_iff.mp hlast
      obtain ⟨d, rfl, hd⟩ := List.map_eq_singleton_iff.mp hback
      obtain rfl : d = '.' := Unicode.eq_of_toLower (by decide) hd
      have hne : (dropPort host).rdropWhile (· = '.') ≠ [] := by rw [hsplit]; simp
      have hlastNot := List.rdropWhile_last_not (· = '.') (dropPort host) hne
      simp only [hsplit, List.getLast_append_singleton] at hlastNot
      exact hlastNot (by decide)

theorem normalText_normalizeHostValue (url : UrlParser) (value : Stored) :
    NormalText (normalizeHostValue url value) := by
  cases value with
  | falsy => exact normalText_empty
  | other s => exact normalText_empty
  | text s =>
    simp only [normalizeHostValue]
    split
    · exact normalText_empty
    · split
      · cases url (trim s) with
        | none => exact normalText_empty
        | some name =>
          rw [Option.map_some, Option.getD_some]
          exact normalText_bareHost name
      · exact normalText_bareHost _

/-- A normal form that is the text of an address is its own normal form. -/
theorem normalizeHostValue_address (hnormal : NormalText h) (htext : AddressText h.toList) :
    normalizeHostValue url (.text h) = h := by
  have hwhite : ∀ c ∈ h.toList, Unicode.isWhite c = false := by
    intro c hc
    have hseparator := (hnormal.chars c hc).1
    simp only [isSeparator, Bool.or_eq_false_iff] at hseparator
    exact hseparator.1.1.2
  have hslash : '/' ∉ h.toList := fun hmem => (hnormal.chars _ hmem).2 rfl
  have htrim : trim h = h := trim_of_dense hwhite
  have hempty : h ≠ "" := by
    rintro rfl
    obtain ⟨c, rest, hnil, -⟩ := htext.head
    cases hnil
  -- no step of `bareHost` finds anything to cut off
  have hbare : bareHost h = h := by
    have hitem : h.toList.takeWhile (!isSeparator ·) = h.toList := by
      rw [List.takeWhile_eq_self_iff]
      exact fun c hc => by rw [(hnormal.chars c hc).1, Bool.not_false]
    have hstart : h.toList.dropWhile (· = '/') = h.toList := by
      rw [List.dropWhile_eq_self_iff]
      intro hl hfirst
      exact hslash (by rw [← of_decide_eq_true hfirst]; exact List.getElem_mem hl)
    have hpath : h.toList.takeWhile (· ≠ '/') = h.toList := by
      rw [List.takeWhile_eq_self_iff]
      intro c hc
      exact decide_eq_true fun heq => hslash (heq ▸ hc)
    have hport : dropPort h.toList = h.toList := by
      obtain ⟨c, rest, hcons, hc⟩ := htext.head
      have hcolons := htext.colons
      rw [hcons] at hcolons ⊢
      unfold dropPort
      split
      · next hbracket => exact absurd ((List.cons.inj hbracket).1 ▸ hc) (by unfold IsAddressChar; decide)
      · exact if_neg hcolons
    have hdots : h.toList.rdropWhile (· = '.') = h.toList := by
      rw [List.rdropWhile_eq_self_iff]
      intro hl hlast
      refine hnormal.ends h.toList.dropLast ?_
      rw [← of_decide_eq_true hlast, List.dropLast_append_getLast]
    have hstar : isWildcard h.toList = false := by
      obtain ⟨c, rest, hcons, hc⟩ := htext.head
      have hne : c ≠ '*' := by
        rintro rfl
        exact absurd hc (by unfold IsAddressChar; decide)
      rw [hcons]
      unfold isWildcard
      split
      · next heq => exact absurd (List.cons.inj heq).1 hne
      · next heq => exact absurd (List.cons.inj heq).1 hne
      · rfl
    simp only [bareHost, hitem, hstart, hpath, hport, hdots, String.ofList_toList,
      hnormal.lowered, hstar]
    rfl
  -- a scheme ends with slashes, and the text has none
  have hscheme : hasScheme h.toList = false := by
    generalize h.toList = cs at hslash
    cases cs with
    | nil => rfl
    | cons c cs =>
      rw [hasScheme, Bool.and_eq_false_iff]
      refine .inr (Bool.eq_false_iff.mpr fun hprefix => hslash (List.mem_cons_of_mem _ ?_))
      have hmem : '/' ∈ cs.dropWhile fun c => c.isAlphanum || c = '+' || c = '.' || c = '-' :=
        (List.isPrefixOf_iff_prefix.mp hprefix).subset (by decide)
      exact (List.dropWhile_sublist _).subset hmem
  simp only [normalizeHostValue, htrim, if_neg hempty, hscheme, hbare]
  rfl

/-! ## The filter -/

/-- Decimal digits are read alike. -/
theorem number_digits {p : List Char} (h : ∀ c ∈ p, c.isDigit) :
    number 10 p = some (digitsValue p) := by
  have hfold : ∀ m, p.foldlM (push 10) m =
      some (p.foldl (fun n c => 10 * n + (c.toNat - '0'.toNat)) m) := by
    induction p with
    | nil => exact fun m => rfl
    | cons c p ih =>
      intro m
      obtain ⟨hc, hp⟩ := List.forall_mem_cons.mp h
      have hval : digit c = some (c.toNat - 48) := by rw [digit, if_pos hc]
      have hlt : c.toNat - 48 < 10 := by
        simp only [Char.isDigit, Bool.and_eq_true, decide_eq_true_eq, ge_iff_le,
          UInt32.le_iff_toNat_le] at hc
        have hle : c.toNat ≤ 57 := hc.2
        omega
      rw [List.foldlM_cons, push, hval, Option.bind_some, if_pos hlt]
      exact ih hp _
  exact hfold 0

/-- Four decimal numbers are an address with these numbers. -/
theorem dotted_groups {cs : List Char} {n : ℕ} (hdotted : isDotted cs) (hn : v4 cs = some n) :
    ∃ a b c d, ipv4Groups cs = some [a, b, c, d] ∧ a < 2 ^ 8 ∧ b < 2 ^ 8 ∧ c < 2 ^ 8 ∧ d < 2 ^ 8 ∧
      n = a * 2 ^ 24 + b * 2 ^ 16 + c * 2 ^ 8 + d := by
  simp only [isDotted, Bool.and_eq_true, decide_eq_true_eq, List.all_eq_true] at hdotted
  obtain ⟨hlen, hplain⟩ := hdotted
  have hgroups : ipv4Groups cs = some ((cs.splitOn '.').map digitsValue) := by
    unfold ipv4Groups
    refine if_pos ?_
    simp only [Bool.and_eq_true, decide_eq_true_eq, List.all_eq_true]
    refine ⟨hlen, fun p hp => ?_⟩
    have h := hplain p hp
    simp only [isPlain, Bool.and_eq_true, decide_eq_true_eq, List.all_eq_true] at h
    exact h.1
  have hparts : (cs.splitOn '.').mapM part = some ((cs.splitOn '.').map digitsValue) := by
    generalize cs.splitOn '.' = parts at hplain
    induction parts with
    | nil => rfl
    | cons p parts ih =>
      obtain ⟨hp, hrest⟩ := List.forall_mem_cons.mp hplain
      have hdigits : ∀ c ∈ p, c.isDigit := by
        simp only [isPlain, Bool.and_eq_true, List.all_eq_true] at hp
        exact hp.1.2
      rw [List.mapM_cons, part_of_isPlain hp, number_digits hdigits, ih hrest]
      rfl
  rw [v4, hparts, Option.bind_some] at hn
  rw [hgroups]
  have hlen : ((cs.splitOn '.').map digitsValue).length = 4 := by rw [List.length_map, hlen]
  obtain ⟨a, b, c, d, heq⟩ := List.length_eq_four.mp hlen
  rw [heq] at hn ⊢
  simp only [v4OfParts] at hn
  split at hn
  · next hlt => exact ⟨a, b, c, d, rfl, hlt.1, hlt.2.1, hlt.2.2.1, hlt.2.2.2,
    (Option.some.inj hn).symm⟩
  · cases hn

/-- The filter knows internal addresses by four decimal numbers. -/
theorem isPrivateV4_of_internal {cs : List Char} {n : ℕ} (hdotted : isDotted cs)
    (hn : v4 cs = some n) (hinternal : InternalV4 n) : isPrivateV4 cs ∧ (ipv4Groups cs).isSome := by
  obtain ⟨a, b, c, d, hgroups, ha, hb, hc, hd, rfl⟩ := dotted_groups hdotted hn
  rw [isPrivateV4, hgroups]
  refine ⟨?_, rfl⟩
  simp only [Bool.or_eq_true, Bool.and_eq_true, decide_eq_true_eq]
  -- the ranges are read off the first two numbers
  have h24 : (a * 2 ^ 24 + b * 2 ^ 16 + c * 2 ^ 8 + d) / 2 ^ 24 = a := by omega
  have h20 : (a * 2 ^ 24 + b * 2 ^ 16 + c * 2 ^ 8 + d) / 2 ^ 20 = a * 2 ^ 4 + b / 2 ^ 4 := by omega
  have h16 : (a * 2 ^ 24 + b * 2 ^ 16 + c * 2 ^ 8 + d) / 2 ^ 16 = a * 2 ^ 8 + b := by omega
  rw [InternalV4, h24, h20, h16] at hinternal
  rcases hinternal with h | h | h | h | h | h <;> omega

/-- Four groups of digits have digits and dots only. -/
theorem ipv4Groups_chars {cs : List Char} (h : (ipv4Groups cs).isSome) {c : Char} (hc : c ∈ cs) :
    c = '.' ∨ c.isDigit := by
  unfold ipv4Groups at h
  extract_lets parts at h
  split at h
  · next hparts =>
    simp only [Bool.and_eq_true, decide_eq_true_eq, List.all_eq_true] at hparts
    obtain rfl | ⟨p, hp, hc⟩ := mem_splitOn '.' hc
    · exact .inl rfl
    · exact .inr ((hparts.2 p hp).2 c hc)
  · cases h

/-- It knows local ones by their first digits. -/
theorem isLocalV6_of_local {cs : List Char} {gs : List ℕ} (h : v6 cs = some gs)
    (hlocal : LocalV6 gs) : isLocalV6 cs ∧ 'f' ∈ cs := by
  obtain ⟨rest, rfl | rfl | ⟨c, hc, rfl⟩⟩ := v6_local h hlocal
  · exact ⟨rfl, List.mem_cons_self⟩
  · exact ⟨rfl, List.mem_cons_self⟩
  · refine ⟨?_, List.mem_cons_self⟩
    simp only [List.mem_cons, List.not_mem_nil, or_false] at hc
    rcases hc with rfl | rfl | rfl | rfl <;> rfl

/-- An internal address that passes the filter is disguised. -/
theorem disguised_of_routable (hnormal : NormalText h) (hroutable : isRoutableAddress url (.text h))
    (hinternal : Internal h.toList) : Disguised h.toList := by
  have htext : AddressText h.toList := by
    obtain ⟨n, hn, -⟩ | ⟨gs, hgs, -⟩ := hinternal
    · exact addressText_of_v4 hn
    · exact addressText_of_v6 hgs
  have hself : normalizeHostValue url (.text h) = h := normalizeHostValue_address hnormal htext
  have hne : h.toList ≠ [] := by
    obtain ⟨c, rest, hcons, -⟩ := htext.head
    rw [hcons]
    exact List.cons_ne_nil _ _
  simp only [isRoutableAddress, hself, if_neg hne] at hroutable
  obtain hdisguised | ⟨n, hn, hprivate, hdotted⟩ | ⟨gs, hgs, hlocal⟩ := hinternal.disguised_or
  · exact hdisguised
  · obtain ⟨hknown, hgroups⟩ := isPrivateV4_of_internal hdotted hn hprivate
    split at hroutable
    · cases hroutable
    · simp [hknown] at hroutable
  · obtain ⟨hknown, hf⟩ := isLocalV6_of_local hgs hlocal
    have hcolon : ':' ∈ h.toList := by
      obtain ⟨text, zone, hsplit, hzoneless⟩ := v6_zoneless hgs
      have htwo := (zoneless_texts hzoneless).2
      rw [hsplit]
      exact List.mem_append_left _ (List.count_pos_iff.mp (by omega))
    split at hroutable
    · cases hroutable
    · split at hroutable
      · next hgroups => exact absurd (ipv4Groups_chars hgroups hf) (by decide)
      · simp [hknown] at hroutable

end

/-! ## The address -/

section

variable {url : UrlParser} {inbound : AddressableInbound} {ctx : InboundAddressContext}

theorem firstUsable_append (xs ys : List Candidate) :
    firstUsable (xs ++ ys) = (firstUsable xs).or (firstUsable ys) := by
  rw [firstUsable, List.find?_append, Option.map_or]
  rfl

theorem firstUsable_server (source : InboundAddressSource) (host : String) (rest : List Candidate) :
    firstUsable (ofServer source host :: rest) = if host ≠
      "" then some ⟨host, source⟩ else firstUsable rest := by
  rw [firstUsable, List.find?_cons]
  by_cases hhost : host = ""
  · simp [ofServer, hhost, firstUsable]
  · simp [ofServer, hhost]

/-- A candidate is only taken if there is none before it. -/
theorem pushCandidate_head (out : List ResolvedInboundAddress) (value : Stored)
    (source : InboundAddressSource) :
    (pushCandidate url out value source).head? = out.head?.or
    (firstUsable [ofInbound url source value]) := by
  unfold pushCandidate firstUsable ofInbound
  extract_lets host
  by_cases husable : (host = "" || !isRoutableAddress url (.text host)) = true
  · have hnot : (host ≠ "" && isRoutableAddress url (.text host)) = false := by
      rw [Bool.or_eq_true, decide_eq_true_eq, Bool.not_eq_true'] at husable
      rcases husable with h | h <;> simp [h]
    rw [if_pos husable, List.find?_cons]
    simp only [hnot, List.find?_nil, Option.map_none, Option.or_none]
  · have hyes : (host ≠ "" && isRoutableAddress url (.text host)) = true := by
      rw [Bool.or_eq_true, decide_eq_true_eq, Bool.not_eq_true', not_or,
        Bool.not_eq_false] at husable
      simp [husable]
    rw [if_neg husable, List.find?_cons]
    simp only [hyes, Option.map_some]
    cases out with
    | nil => rfl
    | cons first out => split <;> rfl

/-- The candidates of steps 2 to 6. -/
def strongOrder (url : UrlParser) (inbound : AddressableInbound) : List Candidate :=
  let ss := inbound.streamSettings
  [ofInbound url .shareAddr inbound.shareAddr, ofInbound url .nodeAddress inbound.nodeAddress,
      ofInbound url .listen inbound.listen] ++
    if ss.security.textOr "none" = "tls" then
      [ofInbound url .sni ss.serverName, ofInbound url .sni ss.settingsServerName,
        ofInbound url .transportHost (.text (transportHostOf url ss))]
    else []

/-- The candidates of step 8. -/
def weakOrder (url : UrlParser) (inbound : AddressableInbound) : List Candidate :=
  let ss := inbound.streamSettings
  if ss.security.textOr "none" =
    "none" then [ofInbound url .transportHost (.text (transportHostOf url ss))] else []

theorem strong_head (url : UrlParser) (inbound : AddressableInbound) :
    (inboundAddressCandidates url inbound).head? = firstUsable (strongOrder url inbound) := by
  have hcons : ∀ (c : Candidate) (cs : List Candidate),
      firstUsable (c :: cs) = (firstUsable [c]).or (firstUsable cs) :=
    fun c cs => firstUsable_append [c] cs
  have hnil : firstUsable [] = none := rfl
  unfold inboundAddressCandidates strongOrder
  extract_lets ss out₁ out₂ out₃ out₄ out₅
  have hout : out₃.head? = firstUsable [ofInbound url .shareAddr inbound.shareAddr,
      ofInbound url .nodeAddress inbound.nodeAddress, ofInbound url .listen inbound.listen] := by
    rw [hcons, hcons (ofInbound url .nodeAddress _), pushCandidate_head, pushCandidate_head,
      pushCandidate_head, List.head?_nil, Option.none_or, Option.or_assoc]
  rw [firstUsable_append, ← hout]
  split
  · rw [hcons (ofInbound url .sni ss.serverName) [_, _],
      hcons (ofInbound url .sni ss.settingsServerName) [_], pushCandidate_head, pushCandidate_head,
      pushCandidate_head, Option.or_assoc, Option.or_assoc]
  · rw [hnil, Option.or_none]

theorem weak_head (url : UrlParser) (inbound : AddressableInbound) :
    (weakAddressCandidates url inbound).head? = firstUsable (weakOrder url inbound) := by
  unfold weakAddressCandidates weakOrder
  extract_lets ss
  by_cases hnone : ss.security.textOr "none" = "none"
  · rw [if_neg (not_not.mpr hnone), if_pos hnone, pushCandidate_head, List.head?_nil,
    Option.none_or]
  · rw [if_pos hnone, if_neg hnone]
    rfl

/-- The address is the first usable candidate. -/
theorem resolve_eq (hprefer : ¬PrefersServer url ctx) : resolveInboundAddress url inbound ctx =
    (firstUsable (documentedOrder url inbound ctx)).getD ⟨"", .unknown⟩ := by
  have horder : documentedOrder url inbound ctx = strongOrder url inbound ++
      (ofServer .serverPublicHost (normalizeHostValue url ctx.publicHost) ::
        (weakOrder url inbound ++ [ofServer .panelIp (publicIpOf url ctx.publicIp),
          ofServer .panelUrl (panelHostOf url ctx.baseUrl)])) := by
    simp only [documentedOrder, strongOrder, weakOrder, List.append_assoc, List.cons_append,
      List.nil_append]
  have hgate : (ctx.preferServerHost && normalizeHostValue url ctx.publicHost ≠ "") = false := by
    rw [Bool.eq_false_iff, ne_eq, Bool.and_eq_true, decide_eq_true_eq]
    exact hprefer
  rw [horder, firstUsable_append, ← strong_head, firstUsable_server, firstUsable_append,
    ← weak_head, firstUsable_server, firstUsable_server]
  unfold resolveInboundAddress
  extract_lets serverHost
  rw [hgate, if_neg Bool.false_ne_true]
  cases inboundAddressCandidates url inbound with
  | cons strong rest => rfl
  | nil =>
    rw [List.head?_nil, Option.none_or]
    dsimp only
    split
    · rfl
    · cases weakAddressCandidates url inbound with
      | cons weak rest => rfl
      | nil =>
        rw [List.head?_nil, Option.none_or]
        dsimp only
        split
        · rfl
        · split
          · rfl
          · rfl

/-- Candidates of the inbound have normal forms that pass the filter. -/
theorem candidate_usable {c : Candidate} (hc : c ∈ documentedOrder url inbound ctx) (husable : c.2)
    (hsource : c.1.source.OfInbound) :
    NormalText c.1.host ∧ isRoutableAddress url (.text c.1.host) := by
  have hinbound : (∃ source value, c = ofInbound url source value) →
      NormalText c.1.host ∧ isRoutableAddress url (.text c.1.host) := by
    rintro ⟨source, value, rfl⟩
    simp only [ofInbound, Bool.and_eq_true] at husable
    exact ⟨normalText_normalizeHostValue url value, husable.2⟩
  have hserver : ∀ source host, c = ofServer source host → source.OfInbound := by
    rintro source host rfl
    exact hsource
  simp only [documentedOrder, List.mem_append, List.mem_cons, List.not_mem_nil, or_false] at hc
  rcases hc with (((hc | htls) | hhost) | hplain) | hpanel
  · apply hinbound
    rcases hc with h | h | h <;> exact ⟨_, _, h⟩
  · split at htls
    · simp only [List.mem_cons, List.not_mem_nil, or_false] at htls
      apply hinbound
      rcases htls with h | h | h <;> exact ⟨_, _, h⟩
    · exact absurd htls List.not_mem_nil
  · exact absurd (hserver _ _ hhost) (by decide)
  · split at hplain
    · exact hinbound ⟨_, _, List.mem_singleton.mp hplain⟩
    · exact absurd hplain List.not_mem_nil
  · rcases hpanel with h | h
    · exact absurd (hserver _ _ h) (by decide)
    · exact absurd (hserver _ _ h) (by decide)

/-- The first usable candidate has only unusable ones before it. -/
theorem firstUsable_eq_some {candidates : List Candidate} {address : ResolvedInboundAddress} :
    firstUsable candidates = some address ↔
      ∃ before after, candidates = before ++ (address, true) :: after ∧ ∀ d ∈ before,
      d.2 = false := by
  rw [firstUsable, Option.map_eq_some_iff]
  constructor
  · rintro ⟨⟨address, usable⟩, hfind, rfl⟩
    obtain ⟨husable, before, after, rfl, hbefore⟩ := List.find?_eq_some_iff_append.mp hfind
    obtain rfl : usable = true := husable
    exact ⟨before, after, rfl, fun d hd => by simpa using hbefore d hd⟩
  · rintro ⟨before, after, rfl, hbefore⟩
    refine ⟨(address, true), List.find?_eq_some_iff_append.mpr ⟨rfl, before, after, rfl,
      fun d hd => ?_⟩, rfl⟩
    simp [hbefore d hd]

/-- The address comes in the documented order. It is internal exactly if the first usable candidate
is a field of the inbound with an internal address in a form that the filter does not know.
-/
theorem addressSound_iff : AddressSound url inbound ctx ↔ (¬PrefersServer url ctx →
    ∀ before address after, documentedOrder url inbound ctx = before ++ (address, true) :: after →
      (∀ d ∈ before, d.2 = false) → address.source.OfInbound → ¬Disguised address.host.toList) := by
  constructor
  · intro hsound hprefer before address after horder hbefore hsource hdisguised
    have hfirst := firstUsable_eq_some.mpr ⟨before, after, horder, hbefore⟩
    have heq : resolveInboundAddress url inbound ctx = address :=
      by rw [hsound.order hprefer, hfirst, Option.getD_some]
    exact hsound.routable (heq ▸ hsource) (heq ▸ hdisguised.internal)
  · intro hclear
    have hserver : PrefersServer url ctx → resolveInboundAddress url inbound ctx =
        ⟨normalizeHostValue url ctx.publicHost, .serverPublicHost⟩ := by
      intro hprefer
      have hgate : (ctx.preferServerHost && normalizeHostValue url ctx.publicHost ≠ "") = true := by
        rw [Bool.and_eq_true, decide_eq_true_eq]
        exact hprefer
      unfold resolveInboundAddress
      extract_lets serverHost
      rw [hgate, if_pos rfl]
    refine ⟨resolve_eq, hserver, fun hsource hinternal => ?_⟩
    by_cases hprefer : PrefersServer url ctx
    · rw [hserver hprefer] at hsource
      exact absurd (show InboundAddressSource.OfInbound .serverPublicHost from hsource) (by decide)
    · rw [resolve_eq hprefer] at hsource hinternal
      cases hfirst : firstUsable (documentedOrder url inbound ctx) with
      | none =>
        rw [hfirst] at hsource
        exact absurd hsource (by decide)
      | some address =>
        rw [hfirst, Option.getD_some] at hsource hinternal
        obtain ⟨before, after, horder, hbefore⟩ := firstUsable_eq_some.mp hfirst
        have hmem : (address, true) ∈ documentedOrder url inbound ctx := by
          rw [horder]
          exact List.mem_append_right _ List.mem_cons_self
        obtain ⟨hnormal, hroutable⟩ := candidate_usable hmem rfl hsource
        exact hclear hprefer before address after horder hbefore hsource
          (disguised_of_routable hnormal hroutable hinternal)

/-- An inbound that shares an address of the private network as an IPv6 address. -/
def mappedInbound : AddressableInbound where
  listen := .text "::ffff:10.0.0.1"
  streamSettings := ⟨.falsy, .falsy, none, none, none, none, .falsy, .falsy, .falsy, .falsy⟩
  shareAddr := .falsy
  nodeAddress := .falsy

/-- A link with an address of the private network. -/
theorem mapped_address_internal :
    ¬AddressSound (fun _ => none) mappedInbound ⟨.falsy, none, .other, false⟩ := by
  intro hsound
  have haddress : resolveInboundAddress (fun _ => none) mappedInbound ⟨.falsy, none,
      .other, false⟩ = ⟨"::ffff:10.0.0.1", .listen⟩ := by decide +kernel
  refine hsound.routable ?_ ?_
  · rw [haddress]
    decide
  · rw [haddress]
    have hembedded : EmbeddedV6 [0, 0, 0, 0, 0, 0xffff, 0x0a00, 1] :=
      .inr (.inr ⟨0x0a00, 1, rfl, by unfold InternalV4; decide⟩)
    exact .inr ⟨[0, 0, 0, 0, 0, 0xffff, 0x0a00, 1], by decide +kernel, .inr hembedded⟩

end

end Hosts

end SRPanel
