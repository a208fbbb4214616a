import SRPanel.Model.SubFormats
import Mathlib.Tactic.IntervalCases

/-!
# The subscription of an inactive client

Only the layer that lists the client's own links looks at the status. A client that is not active
gets an information line and a notice, which no app can dial, and the external links of the panel
owner, which are part of every subscription. In each of the four dialects these external links are
all that can be dialed.
-/

namespace SRPanel

/-! ## Lines -/

theorem mem_linesOf_append_newline {l a b : String} (h : l ∈ linesOf (a ++ "\n" ++ b)) :
    l ∈ linesOf a ∨ l ∈ linesOf b := by
  have htext : (a ++ "\n" ++ b).toList = a.toList ++ '\n' :: b.toList := by simp
  rw [linesOf, htext, List.splitOn_append_cons_self, List.map_append, List.mem_append] at h
  exact h

/-- A line of several texts is a line of one of them, or empty if there is none. -/
theorem mem_linesOf_joinLines {l : String} {ls : List String} (h : l ∈ linesOf (joinLines ls)) :
    l = "" ∨ ∃ a ∈ ls, l ∈ linesOf a := by
  induction ls with
  | nil => exact .inl (by simpa [joinLines, linesOf] using h)
  | cons a ls ih =>
      cases ls with
      | nil => exact .inr ⟨a, List.mem_singleton_self a, by simpa [joinLines, linesOf] using h⟩
      | cons b ls =>
          have hjoin : joinLines (a :: b :: ls) = a ++ "\n" ++ joinLines (b :: ls) := by
            apply String.toList_injective
            simp [joinLines, List.intercalate_cons_cons]
          rw [hjoin] at h
          rcases mem_linesOf_append_newline h with h | h
          · exact .inr ⟨a, List.mem_cons_self, h⟩
          · rcases ih h with h | ⟨c, hc, h⟩
            · exact .inl h
            · exact .inr ⟨c, List.mem_cons_of_mem a hc, h⟩

/-- A text without white space is its only line. -/
theorem linesOf_of_dense {s : String} (h : ∀ c ∈ s.toList, Unicode.isWhite c = false) :
    linesOf s = [s] := by
  have hline : '\n' ∉ s.toList := fun hmem => absurd (h _ hmem) (by decide)
  rw [linesOf, List.splitOn_eq_singleton hline, List.map_singleton, String.ofList_toList]

/-! ## Lines that cannot be dialed -/

/-- A line that an app can dial: a share URI that is not the void one. -/
def isDialable (line : String) : Bool :=
  isNodeUri (trim line) && !VOID_URI.toList.isPrefixOf (trim line).toList

theorem isWhite_of_isUnreserved {c : Char} (h : isUnreserved c) : Unicode.isWhite c = false := by
  obtain halphanum | hmark := Bool.or_eq_true _ _ ▸ h
  · exact isWhite_of_isAlphanum halphanum
  · have hmarks : ("-_.!~*'()".toList.all fun c => 0x20 < c.toNat && c.toNat < 0x7f) = true := by decide
    have hascii := List.all_eq_true.mp hmarks c (of_decide_eq_true hmark)
    obtain ⟨hlow, hhigh⟩ : 0x20 < c.toNat ∧ c.toNat < 0x7f := by simpa using hascii
    exact Unicode.isWhite_of_ascii hlow hhigh

theorem isWhite_hexUpper {n : ℕ} (h : n < 16) : Unicode.isWhite (hexUpper n) = false := by
  interval_cases n <;> decide

/-- The text after the void URI has no white space. -/
theorem voidConfig_dense (remark : String) : ∀ c ∈ (voidConfig remark).toList,
    Unicode.isWhite c = false := by
  intro c hc
  rw [voidConfig, String.toList_append, List.mem_append] at hc
  rcases hc with hc | hc
  · have hvoid : VOID_URI.toList.all fun c => !Unicode.isWhite c := by decide +kernel
    simpa using List.all_eq_true.mp hvoid c hc
  · rw [encodeURIComponent, String.toList_ofList, List.mem_flatMap] at hc
    obtain ⟨d, -, hd⟩ := hc
    split at hd
    · next hfree =>
        rw [List.mem_singleton.mp hd]
        exact isWhite_of_isUnreserved hfree
    · obtain ⟨b, -, hb⟩ := List.mem_flatMap.mp hd
      have hbyte : b.toNat < 256 := b.toNat_lt
      simp only [List.mem_cons, List.not_mem_nil, or_false] at hb
      rcases hb with rfl | rfl | rfl
      · decide
      · exact isWhite_hexUpper (by omega)
      · exact isWhite_hexUpper (by omega)

/-- No line of a void configuration can be dialed. -/
theorem not_isDialable_voidConfig {remark line : String} (h : line ∈ linesOf (voidConfig remark)) :
    isDialable line = false := by
  rw [linesOf_of_dense (voidConfig_dense remark), List.mem_singleton] at h
  have hprefix : VOID_URI.toList.isPrefixOf (voidConfig remark).toList = true := by
    rw [List.isPrefixOf_iff_prefix, voidConfig, String.toList_append]
    exact List.prefix_append _ _
  rw [h, isDialable, trim_of_dense (voidConfig_dense remark), hprefix, Bool.not_true,
    Bool.and_false]

/-! ## Entries -/

/-- An entry of a subscription that an app can dial. -/
inductive SubEntry
  | uri (line : String)
  | proxy (entry : Yaml)
  | outbound (entry : Json)

/-- The list under `proxies`. -/
def ClashConfig.proxies (doc : ClashConfig) : List Yaml :=
  match doc.fields.lookup "proxies" with
  | some (.seq items) => items
  | _ => []

/-- The value of a field. -/
def Json.field? (key : String) : Json → Option Json
  | .obj fields => fields.lookup key
  | _ => none

/-- The outbound is a proxy, and not a group or the direct one. -/
def Json.isProxy (outbound : Json) : Bool :=
  match outbound.field? "type" with
  | some (.str kind) => kind ∈ ["vless", "vmess", "trojan", "shadowsocks"]
  | _ => false

/-- The list under `outbounds`. -/
def Json.outbounds (doc : Json) : List Json :=
  match doc.field? "outbounds" with
  | some (.arr items) => items
  | _ => []

/-- The dialable entries of a body. -/
def SubBody.entries : SubBody → List SubEntry
  | .base64 t => ((linesOf t).filter isDialable).map .uri
  | .text t => ((linesOf t).filter isDialable).map .uri
  | .yaml doc => doc.proxies.map .proxy
  | .json doc => (doc.outbounds.filter Json.isProxy).map .outbound

/-- The dialable entries of an answer. -/
def SubResponse.entries : SubResponse → List SubEntry
  | .ok rendered => rendered.body.entries
  | _ => []

theorem proxies_toClashConfig (nodes : List ProxyNode) (opts : ClashOptions) :
    (toClashConfig nodes opts).proxies = (nodes.filter isPortableNode).map proxyEntry := rfl

theorem isProxy_outboundOf (node : ProxyNode) : (outboundOf node).isProxy = true := by
  unfold outboundOf
  cases node.kind <;> rfl

theorem outbounds_toSingboxConfig (nodes : List ProxyNode) (group : String) :
    (toSingboxConfig nodes group).outbounds.filter Json.isProxy =
    (nodes.filter isPortableNode).map outboundOf := by
  -- the groups and the direct outbound are no proxies
  show (_ ++ (if _ then [] else _) ++ [_, _] : List Json).filter Json.isProxy = _
  have hnodes : ((nodes.filter isPortableNode).map outboundOf).filter Json.isProxy =
      (nodes.filter isPortableNode).map outboundOf := by
    refine List.filter_eq_self.mpr fun o ho => ?_
    obtain ⟨node, -, rfl⟩ := List.mem_map.mp ho
    exact isProxy_outboundOf node
  have hauto : ∀ (c : Prop) [Decidable c] (o : Json), o.isProxy = false →
      (if c then [] else [o]).filter Json.isProxy = [] := by
    intro c _ o ho
    split
    · rfl
    · rw [List.filter_cons, ho]
      rfl
  rw [List.filter_append, List.filter_append, hnodes, hauto _ _ rfl, List.append_nil]
  exact List.append_nil _

/-! ## What is dialable -/

/-- Every node comes from a link; only its name may have changed. -/
theorem mem_parseFrom {parse : ShareLink → String → Option ProxyNode} {node : ProxyNode}
    {links : List ShareLink} {index : ℕ} {used : List String}
    (h : node ∈ parseFrom parse index used links) :
    ∃ link ∈ links, ∃ name parsed,
    parse link name = some parsed ∧ node = { parsed with name := node.name } := by
  induction links generalizing index used with
  | nil => cases h
  | cons link links ih =>
      have hrest : ∀ {i u}, node ∈ parseFrom parse i u links → ∃ l ∈ link :: links, ∃ name parsed,
          parse l name = some parsed ∧ node = { parsed with name := node.name } := by
        intro i u h
        obtain ⟨l, hl, hnode⟩ := ih h
        exact ⟨l, List.mem_cons_of_mem link hl, hnode⟩
      rw [parseFrom] at h
      split at h
      · exact hrest h
      · next parsed hparsed =>
          rcases List.mem_cons.mp h with h | h
          · exact ⟨link, List.mem_cons_self, _, parsed, hparsed, by rw [h]⟩
          · exact hrest h

/-- A URI of an enabled external link. -/
def SubEnv.Offers (x : SubEnv) (uri : String) : Prop :=
  ∃ entry ∈ x.externalLinks, entry.enabled ∧ uri ∈ entryUris x entry

theorem mem_foldl_addUri {uri : String} {us acc : List String} (h : uri ∈ us.foldl addUri acc) :
    uri ∈ acc ∨ uri ∈ us := by
  induction us generalizing acc with
  | nil => exact .inl h
  | cons u us ih =>
      rcases ih h with h | h
      · rw [addUri] at h
        split at h
        · exact .inl h
        · rcases List.mem_append.mp h with h | h
          · exact .inl h
          · exact .inr (List.mem_singleton.mp h ▸ List.mem_cons_self)
      · exact .inr (List.mem_cons_of_mem u h)

theorem offers_of_mem_resolve {x : SubEnv} {uri : String} (h : uri ∈ resolveExternalUris x) :
    x.Offers uri := by
  rcases mem_foldl_addUri h with h | h
  · cases h
  · obtain ⟨entry, hentry, huri⟩ := List.mem_flatMap.mp h
    rw [List.mem_filter] at hentry
    exact ⟨entry, hentry.1, hentry.2, huri⟩

/-- The entry is one of the external links of the panel owner. -/
inductive SubEntry.External (x : SubEnv) : SubEntry → Prop
  | uri {uri line : String} : x.Offers uri → line ∈ linesOf (trim uri) → External x (.uri line)
  | proxy {uri fallback : String} {node : ProxyNode} (name : String) : x.Offers uri →
      x.parseShareUri ⟨trim uri, none⟩ fallback = some node →
        External x (.proxy (proxyEntry { node with name := name }))
  | outbound {uri fallback : String} {node : ProxyNode} (name : String) : x.Offers uri →
      x.parseShareUri ⟨trim uri, none⟩ fallback = some node →
        External x (.outbound (outboundOf { node with name := name }))

section Render

variable {x : SubEnv} {input : RenderSubscriptionInput}

/-- Without links of its own, everything dialable is an external link. -/
theorem mem_dialable (hlinks : input.links = []) (hextra : input.extra = resolveExternalUris x)
    {link : ShareLink} (h : link ∈ dialable input) :
    ∃ uri, x.Offers uri ∧ link = ⟨trim uri, none⟩ := by
  rw [dialable, hlinks, List.filter_nil, List.nil_append, hextra, List.mem_map] at h
  obtain ⟨clean, hclean, rfl⟩ := h
  obtain ⟨uri, huri, rfl⟩ := List.mem_map.mp (List.mem_of_mem_filter hclean)
  exact ⟨uri, offers_of_mem_resolve huri, rfl⟩

theorem mem_parseShareUris (hlinks : input.links = [])
    (hextra : input.extra = resolveExternalUris x) {node : ProxyNode}
    (h : node ∈ parseShareUris x (dialable input)) :
    ∃ uri fallback parsed, x.Offers uri ∧ x.parseShareUri ⟨trim uri, none⟩ fallback = some parsed ∧
      node = { parsed with name := node.name } := by
  obtain ⟨link, hlink, name, parsed, hparsed, hnode⟩ := mem_parseFrom h
  obtain ⟨uri, huri, rfl⟩ := mem_dialable hlinks hextra hlink
  exact ⟨uri, name, parsed, huri, hparsed, hnode⟩

/-- A dialable line of the list of URIs is a line of an external link. -/
theorem external_of_mem_uriList (hlinks : input.links = [])
    (hextra : input.extra = resolveExternalUris x) {remark line : String}
    (hinfo : input.infoUri = voidConfig remark)
    (hline : line ∈ linesOf (joinLines (uriList input))) (hdial : isDialable line) :
    SubEntry.External x (.uri line) := by
  rcases mem_linesOf_joinLines hline with rfl | ⟨a, ha, hline⟩
  · exact absurd hdial (by decide)
  · rcases List.mem_append.mp ha with ha | ha
    · split at ha
      · rw [List.mem_singleton.mp ha, hinfo] at hline
        rw [not_isDialable_voidConfig hline] at hdial
        cases hdial
      · cases ha
    · obtain ⟨link, hlink, rfl⟩ := List.mem_map.mp ha
      obtain ⟨uri, huri, rfl⟩ := mem_dialable hlinks hextra hlink
      exact .uri huri hline

/-- Without links of its own, the dialable entries of a rendering are external links. -/
theorem external_of_mem_entries (hlinks : input.links = [])
    (hextra : input.extra = resolveExternalUris x) {remark : String}
    (hinfo : input.infoUri = voidConfig remark)
    (hbase : ∃ notice, input.base64 = joinLines [input.infoUri, voidConfig notice])
    {format : SubFormat} {e : SubEntry}
    (h : e ∈ (renderSubscription x format input).body.entries) : e.External x := by
  -- every format is made of one list of links, and this one has only external ones
  cases format with
  | base64 =>
      obtain ⟨line, hline, rfl⟩ := List.mem_map.mp h
      obtain ⟨hline, hdial⟩ := List.mem_filter.mp hline
      split at hline
      · exact external_of_mem_uriList hlinks hextra hinfo hline hdial
      -- the stored body has the information line and the notice
      · obtain ⟨notice, hbase⟩ := hbase
        rw [hbase, hinfo] at hline
        rcases mem_linesOf_joinLines hline with rfl | ⟨a, ha, hline⟩
        · exact absurd hdial (by decide)
        · simp only [List.mem_cons, List.not_mem_nil, or_false] at ha
          rcases ha with rfl | rfl
          all_goals
            rw [not_isDialable_voidConfig hline] at hdial
            cases hdial
  | links =>
      obtain ⟨line, hline, rfl⟩ := List.mem_map.mp h
      obtain ⟨hline, hdial⟩ := List.mem_filter.mp hline
      have htext : joinLines (uriList input) ++ "\n" = joinLines (uriList input) ++ "\n" ++ "" :=
        by simp
      rw [htext] at hline
      rcases mem_linesOf_append_newline hline with hline | hline
      · exact external_of_mem_uriList hlinks hextra hinfo hline hdial
      · have hempty : line = "" := by simpa [linesOf] using hline
        rw [hempty] at hdial
        exact absurd hdial (by decide)
  | clash =>
      obtain ⟨entry, hentry, rfl⟩ := List.mem_map.mp h
      rw [proxies_toClashConfig] at hentry
      obtain ⟨node, hnode, rfl⟩ := List.mem_map.mp hentry
      obtain ⟨uri, fallback, parsed, huri, hparsed, heq⟩ :=
        mem_parseShareUris hlinks hextra (List.mem_of_mem_filter hnode)
      rw [heq]
      exact .proxy node.name huri hparsed
  | singbox =>
      obtain ⟨entry, hentry, rfl⟩ := List.mem_map.mp h
      rw [outbounds_toSingboxConfig] at hentry
      obtain ⟨node, hnode, rfl⟩ := List.mem_map.mp hentry
      obtain ⟨uri, fallback, parsed, huri, hparsed, heq⟩ :=
        mem_parseShareUris hlinks hextra (List.mem_of_mem_filter hnode)
      rw [heq]
      exact .outbound node.name huri hparsed

end Render

namespace Site

/-- The payload of an inactive client has no links, and its body is the information line and a
notice. -/
theorem subscriptionOf_inactive (s : Site) (x : SubEnv) (id : ClientId) {c : Client}
    (h : c.status ≠ .active) : (s.subscriptionOf x id c).links = [] ∧ ∃ notice,
      (s.subscriptionOf x id c).base64 = joinLines [(s.subscriptionOf x id c).infoUri,
        voidConfig notice] := by
  simp only [subscriptionOf, if_neg h, ne_eq, not_true_eq_false, if_false, statusNotice]
  exact ⟨trivial, s.brandOf x c.adminId ++ " • " ++ statusLabel c.status, rfl⟩

/-- **Inactive clients.** Whatever the links of a client that is not active, the settings and the
request, the dialable entries that are served are external links of the panel owner. -/
theorem inactive_serves_external_links {s : Site} {x : SubEnv} {req : SubRequest} {id : ClientId}
    {c : Client} (hclient : s.clientOfToken x req.token = some (id, c))
    (hinactive : c.status ≠ .active) :
    ∀ e ∈ (s.getSubscription x req).entries, e.External x := by
  intro e he
  simp only [getSubscription, buildSubscription, hclient, Option.map_some] at he
  split at he
  · cases he
  · split at he
    · cases he
    · obtain ⟨hlinks, hbase⟩ := s.subscriptionOf_inactive x id hinactive
      rw [SubResponse.entries] at he
      exact external_of_mem_entries hlinks rfl rfl hbase he

/-- A client that has expired. -/
def lapsedClient : Client :=
  ⟨1, "c", none, none, 4, 5, 0, 0, 0, some 0, 0, .expired, none, none, none, none⟩

/-- An owner with this client. -/
def lapsedShop : Site :=
  { Site.blank with
    base := { World.blank with now := 10, admins := Table.empty.set 1 ⟨.owner, 0, 0⟩ }
    clients := Table.empty.set 3 lapsedClient }

/-- An owner who has added the node of a partner. -/
def partnerEnv : SubEnv where
  subToken _ := "abcdefghijklmnop"
  brands := .empty
  defaultBrand := "SRPanel"
  externalLinks := [⟨true, .uri, "vless://u@partner.example:443#p"⟩]
  fetched _ := none
  decodeB64 _ := ""
  inboundRemark _ i := i.protocol
  buildLinks _ _ _ _ _ := []
  parseShareUri link _ :=
    if link.uri = "vless://u@partner.example:443#p" then
      some ⟨.vless, "p", "partner.example", 443, "u", "", .tcp, .none, "", [], "", false, "", none,
        "", "", "", "", 0⟩
    else none

/-- The expired client asks for a format. -/
def lapsedRequest (format : String) : SubRequest :=
  ⟨"abcdefghijklmnop", "*/*", "v2rayNG", some format, "https://panel.example"⟩

theorem clientOfToken_lapsed :
    lapsedShop.clientOfToken partnerEnv "abcdefghijklmnop" = some (3, lapsedClient) := by
  have hrows : lapsedShop.clients.rows = [(3, lapsedClient)] := by decide
  rw [clientOfToken, hrows]
  exact List.find?_cons_of_pos (decide_eq_true rfl)

/-- The answer to the expired client. -/
theorem getSubscription_lapsed (format : String) :
    lapsedShop.getSubscription partnerEnv (lapsedRequest format) =
      .ok (renderSubscription partnerEnv (detectSubFormat "v2rayNG" format)
        (subInput partnerEnv (lapsedRequest format)
          (lapsedShop.subscriptionOf partnerEnv 3 lapsedClient))) := by
  have htoken : ¬(let n := "abcdefghijklmnop".toList.length
      (n < 16 || 128 < n || !"abcdefghijklmnop".toList.all isTokenChar) = true) := by decide
  unfold getSubscription buildSubscription
  rw [lapsedRequest, if_neg htoken, clientOfToken_lapsed, Option.isNone_some, Bool.and_false,
    if_neg (by decide)]
  rfl

/-- Both kinds of document give the expired client the node of the partner. -/
theorem lapsed_client_gets_external_link :
    lapsedShop.clientOfToken partnerEnv "abcdefghijklmnop" = some (3, lapsedClient) ∧
      lapsedClient.status ≠ .active ∧
      ∀ format ∈ ["clash", "singbox"],
        (lapsedShop.getSubscription partnerEnv (lapsedRequest format)).entries.length = 1 := by
  refine ⟨clientOfToken_lapsed, by decide, fun format hformat => ?_⟩
  rw [getSubscription_lapsed]
  simp only [List.mem_cons, List.not_mem_nil, or_false] at hformat
  rcases hformat with rfl | rfl
  all_goals decide +kernel

/-- They are no more than that. -/
theorem inactive_serves_external_links_lapsed :
    (lapsedShop.getSubscription partnerEnv (lapsedRequest "clash")).entries.Forall fun e =>
      e.External partnerEnv :=
  List.forall_iff_forall_mem.mpr (inactive_serves_external_links clientOfToken_lapsed (by decide))

end Site

end SRPanel
