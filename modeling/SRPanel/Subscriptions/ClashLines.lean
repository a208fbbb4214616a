import SRPanel.Subscriptions.NodeTexts

/-!
# Lines of the Clash document

The lines behind the comments are a mapping of YAML. Its scalars are the texts of the nodes,
whatever these are.
-/

namespace SRPanel

namespace Clash

open Utf16 YamlText JsonText

/-! ## The value of the document -/

/-- An entry whose value is a plain word. -/
def wordEntry (key : String) (w : Text) : Text × Value := (encode key, .plain w)

/-- An entry whose value is a quoted text. -/
def quotedEntry (key : String) (us : Text) : Text × Value := (encode key, .quoted us)

/-- An entry that is there only if the text is not empty. -/
def textEntry (key : String) (us : Text) : List (Text × Value) :=
  if us = [] then [] else [quotedEntry key us]

/-- The entries of a node that depend on its protocol. -/
def kindEntries (node : ProxyNode) : List (Text × Value) :=
  match node.kind with
  | .vless => quotedEntry "uuid" node.secret :: textEntry "flow" node.flow
  | .vmess =>
      [quotedEntry "uuid" node.secret, wordEntry "alterId" (encode "0"),
        quotedEntry "cipher" (vmessCipher node.method)]
  | .trojan => [quotedEntry "password" node.secret]
  | .ss =>
      [quotedEntry "cipher" (orText node.method (encode "aes-256-gcm")),
        quotedEntry "password" node.secret]

/-- The entry that a node with Reality keys adds. -/
def realityEntries (node : ProxyNode) : List (Text × Value) :=
  match node.reality with
  | some (publicKey, shortId) =>
      if node.tls = .reality then
        [(encode "reality-opts", .map
          (quotedEntry "public-key" publicKey :: textEntry "short-id" shortId))]
      else []
  | none => []

/-- The entries of TLS. -/
def tlsEntries (node : ProxyNode) : List (Text × Value) :=
  if node.tls = .none then []
  else
    [wordEntry "tls" (encode "true"),
      quotedEntry (if node.kind = .trojan then "sni" else "servername")
        (orText node.sni (orText node.hostHeader node.host))] ++
    (if node.alpn = [] then [] else [(encode "alpn", .seq (node.alpn.map .quoted))]) ++
    [quotedEntry "client-fingerprint" (orText node.fingerprint (encode "chrome"))] ++
    (if node.insecure then [wordEntry "skip-cert-verify" (encode "true")] else []) ++
    realityEntries node

/-- What a websocket is set to besides its path. -/
def socketEntries (node : ProxyNode) : List (Text × Value) :=
  (if node.hostHeader = [] then
    [] else [(encode "headers", .map [quotedEntry "Host" node.hostHeader])]) ++
  if node.network = .httpupgrade then [wordEntry "v2ray-http-upgrade" (encode "true")]
  else if node.earlyData = 0 then []
  else
    [wordEntry "max-early-data" (numeral node.earlyData),
      quotedEntry "early-data-header-name" (encode "Sec-WebSocket-Protocol")]

/-- The entries of the transport. -/
def transportEntries (node : ProxyNode) : List (Text × Value) :=
  if node.network = .ws ∨ node.network = .httpupgrade then
    [wordEntry "network" (encode "ws"),
      (encode "ws-opts", .map (quotedEntry "path" (orText node.path (encode "/")) ::
        socketEntries node))]
  else if node.network = .grpc then
    [wordEntry "network" (encode "grpc"),
      (encode "grpc-opts", .map [quotedEntry "grpc-service-name" node.serviceName])]
  else []

/-- The entries of one proxy, in the order of its lines. -/
def proxyEntries (node : ProxyNode) : List (Text × Value) :=
  [quotedEntry "name" node.name, wordEntry "type" (kindWord node.kind),
    quotedEntry "server" node.host, wordEntry "port" (numeral node.port),
    wordEntry "udp" (encode "true")] ++
  kindEntries node ++
  if node.kind = .ss then [] else tlsEntries node ++ transportEntries node

/-- A group, by its name, its type, what else it is set to, and its members. -/
def groupValue (name : Text) (kind : String) (settings : List (Text × Value))
    (members : List Text) : Value :=
  .map ([quotedEntry "name" name, wordEntry "type" (encode kind)] ++ settings ++
    [(encode "proxies", .seq (members.map .quoted))])

/-- The settings, which are always the same. -/
def settingEntries : List (Text × Value) :=
  [wordEntry "mixed-port" (encode "7890"), wordEntry "allow-lan" (encode "false"),
    wordEntry "mode" (encode "rule"), wordEntry "log-level" (encode "warning"),
    wordEntry "ipv6" (encode "false"),
    (encode "dns", .map [wordEntry "enable" (encode "true"), wordEntry "ipv6" (encode "false"),
      wordEntry "enhanced-mode" (encode "fake-ip"),
      wordEntry "fake-ip-range" (encode "198.18.0.1/16"),
      (encode "nameserver", .seq [.quoted (encode "1.1.1.1"), .quoted (encode "8.8.8.8")])])]

/-- The groups of nodes with these names. -/
def groupValues (names : List Text) (group : Text) : List Value :=
  groupValue group "select" [] ((if names = [] then [] else [AUTO]) ++ names ++ [DIRECT]) ::
  if names = [] then []
  else
    [groupValue AUTO "url-test" [quotedEntry "url" TEST_URL, wordEntry "interval" (encode "300"),
      wordEntry "tolerance" (encode "50")] names]

/-- What the document of these nodes says. -/
def document (nodes : List ProxyNode) (opts : ClashOptions) : Value :=
  let usable := nodes.filter isPortableNode
  let names := usable.map ProxyNode.name
  let group := groupAmong names (safeName opts.group (encode "SR-Panel"))
  .map (settingEntries ++
    [(encode "proxies", .seq (usable.map fun node => .map (proxyEntries node))),
      (encode "proxy-groups", .seq (groupValues names group)),
      (encode "rules", .seq ((RULES ++ [encode "MATCH," ++ group]).map .quoted))])

/-! ## Keys

Every mapping of the document lists its keys in the order of one of these lists.
-/

/-- The keys that differ between the kinds of node. -/
def KIND_KEYS : List String := ["uuid", "flow", "alterId", "cipher", "password"]

/-- The keys of a node over TLS. -/
def TLS_KEYS : List String :=
  ["tls", "sni", "servername"] ++ ["alpn"] ++ ["client-fingerprint"] ++ ["skip-cert-verify"] ++
    ["reality-opts"]

/-- The keys of a node's transport. -/
def TRANSPORT_KEYS : List String := ["network", "ws-opts", "grpc-opts"]

/-- All keys that a proxy may have. -/
def PROXY_KEYS : List String :=
  ["name", "type", "server", "port", "udp"] ++ KIND_KEYS ++ (TLS_KEYS ++ TRANSPORT_KEYS)

/-- The keys of `reality-opts`. -/
def REALITY_KEYS : List String := ["public-key", "short-id"]

/-- The keys of `ws-opts`. -/
def SOCKET_KEYS : List String :=
  "path" :: (["headers"] ++ ["v2ray-http-upgrade", "max-early-data", "early-data-header-name"])

/-- The keys of a group that tests its members. -/
def TEST_KEYS : List String := ["url", "interval", "tolerance"]

/-- The keys of a group. -/
def GROUP_KEYS : List String := ["name", "type"] ++ TEST_KEYS ++ ["proxies"]

/-- The keys of `dns`. -/
def DNS_KEYS : List String := ["enable", "ipv6", "enhanced-mode", "fake-ip-range", "nameserver"]

/-- The keys of the whole document. -/
def CONFIG_KEYS : List String :=
  ["mixed-port", "allow-lan", "mode", "log-level", "ipv6", "dns", "proxies",
    "proxy-groups", "rules"]

/-- The keys, and the scalars without quotes. -/
def WORDS : List String :=
  PROXY_KEYS ++ REALITY_KEYS ++ SOCKET_KEYS ++ GROUP_KEYS ++ DNS_KEYS ++ CONFIG_KEYS ++
    ["Host", "grpc-service-name", "0", "300", "50", "7890", "true", "false", "rule",
      "warning", "fake-ip", "198.18.0.1/16", "select", "url-test", "ws", "grpc", "vless", "vmess",
      "trojan", "ss"]

/-- The texts in quotes that are always the same. -/
def TEXTS : List Text :=
  ["auto", "aes-256-gcm", "chrome", "/", "Sec-WebSocket-Protocol", "1.1.1.1", "8.8.8.8", "MATCH,",
    "SR-Panel", "# ", " (Clash / Mihomo)", " +"].map encode ++ [AUTO, DIRECT, TEST_URL] ++
    VMESS_CIPHERS ++ RULES

/-- The words are plain, the texts are basic, and the keys of one mapping differ. -/
theorem lexicon : (WORDS.all fun word => isWord (encode word)) ∧ TEXTS.all isBasic ∧
    [PROXY_KEYS, REALITY_KEYS, SOCKET_KEYS, GROUP_KEYS, DNS_KEYS, CONFIG_KEYS].all
      fun keys => (keys.map encode).Nodup := by decide +kernel

theorem isWord_encode {word : String} (h : word ∈ WORDS) : isWord (encode word) :=
  List.all_eq_true.mp lexicon.1 word h

theorem wellFormed_fixed {us : Text} (h : us ∈ TEXTS) : WellFormed us :=
  wellFormed_of_isBasic (List.all_eq_true.mp lexicon.2.1 us h)

/-- The keys of a mapping are some of the list, in its order. -/
def Among (fields : List (Text × Value)) (keys : List String) : Prop :=
  (fields.map Prod.fst).Sublist (keys.map encode)

section

variable {fields fields' : List (Text × Value)} {key : String}
    {keys keys' : List String} {v : Value}

/-- No entries are among any keys. -/
theorem Among.nil (keys : List String) : Among [] keys := List.nil_sublist _

theorem Among.cons (h : Among fields keys) : Among ((encode key, v) :: fields) (key :: keys) :=
  List.Sublist.cons_cons _ h

/-- A key may stay without an entry. -/
theorem Among.skip (h : Among fields keys) : Among fields (key :: keys) := List.Sublist.cons _ h

theorem Among.append (h : Among fields keys) (h' : Among fields' keys') :
    Among (fields ++ fields') (keys ++ keys') := by
  unfold Among
  rw [List.map_append, List.map_append]
  exact List.Sublist.append h h'

theorem Among.nodup (h : Among fields keys)
    (hkeys : keys ∈ [PROXY_KEYS, REALITY_KEYS, SOCKET_KEYS, GROUP_KEYS, DNS_KEYS, CONFIG_KEYS]) :
    (fields.map Prod.fst).Nodup :=
  List.Sublist.nodup h (of_decide_eq_true (List.all_eq_true.mp lexicon.2.2 keys hkeys))

theorem among_text (key : String) (us : Text) (keys : List String) :
    Among (textEntry key us) (key :: keys) := by
  unfold textEntry
  split
  · exact .nil _
  · exact .cons (.nil _)

theorem among_kind (node : ProxyNode) : Among (kindEntries node) KIND_KEYS := by
  unfold kindEntries KIND_KEYS
  cases node.kind with
  | vless => exact .cons (among_text "flow" _ _)
  | vmess => exact .cons (.skip (.cons (.cons (.nil _))))
  | trojan => exact .skip (.skip (.skip (.skip (.cons (.nil _)))))
  | ss => exact .skip (.skip (.skip (.cons (.cons (.nil _)))))

theorem among_reality (node : ProxyNode) : Among (realityEntries node) ["reality-opts"] := by
  unfold realityEntries
  split
  · split
    · exact .cons (.nil _)
    · exact .nil _
  · exact .nil _

theorem among_tls (node : ProxyNode) : Among (tlsEntries node) TLS_KEYS := by
  unfold tlsEntries TLS_KEYS
  split
  · exact .nil _
  refine .append (.append (.append (.append (.cons ?_) ?_) (.cons (.nil _))) ?_)
    (among_reality node)
  · split
    · exact .cons (.nil _)
    · exact .skip (.cons (.nil _))
  · split
    · exact .nil _
    · exact .cons (.nil _)
  · split
    · exact .cons (.nil _)
    · exact .nil _

theorem among_socket (node : ProxyNode) :
    Among (quotedEntry "path" (orText node.path (encode "/")) ::
      socketEntries node) SOCKET_KEYS := by
  unfold socketEntries SOCKET_KEYS
  refine .cons (.append ?_ ?_)
  · split
    · exact .nil _
    · exact .cons (.nil _)
  · split
    · exact .cons (.nil _)
    split
    · exact .nil _
    · exact .skip (.cons (.cons (.nil _)))

theorem among_transport (node : ProxyNode) : Among (transportEntries node) TRANSPORT_KEYS := by
  unfold transportEntries TRANSPORT_KEYS
  split
  · exact .cons (.cons (.nil _))
  split
  · exact .cons (.skip (.cons (.nil _)))
  · exact .nil _

/-- A node is set to nothing twice. -/
theorem among_proxy (node : ProxyNode) : Among (proxyEntries node) PROXY_KEYS := by
  unfold proxyEntries PROXY_KEYS
  refine .append (.append (.cons (.cons (.cons (.cons (.cons (.nil _)))))) (among_kind node)) ?_
  split
  · exact .nil _
  · exact .append (among_tls node) (among_transport node)

end

/-! ## Lines -/

section

variable {c : ℕ} {us : Text} {lines lines' : List Text} {fields fields' : List (Text × Value)}
  {node : ProxyNode}

theorem fieldLines_cons {line : Text} {entry : Text × Value} (h : FieldLines c [line] [entry])
    (h' : FieldLines c lines fields) : FieldLines c (line :: lines) (entry :: fields) := h.append h'

/-- A key and a word, as one line. -/
theorem lines_word (d : ℕ) (key : String) (w : Text) (hkey : key ∈ WORDS) (hw : isWord w) :
    FieldLines (2 * d) [add d (field key w)] [wordEntry key w] :=
  fieldLines_scalar _ (isWord_encode hkey) (shows_word hw)

theorem lines_fixed (d : ℕ) (key word : String) (hkey : key ∈ WORDS) (hword : word ∈ WORDS) :
    FieldLines (2 * d) [add d (field key (encode word))] [wordEntry key (encode word)] :=
  lines_word d key _ hkey (isWord_encode hword)

theorem lines_quoted (d : ℕ) (key : String) (hkey : key ∈ WORDS) (hus : WellFormed us) :
    FieldLines (2 * d) [add d (field key (q us))] [quotedEntry key us] :=
  fieldLines_scalar _ (isWord_encode hkey) (shows_quote hus)

theorem lines_text (d : ℕ) (key : String) (hkey : key ∈ WORDS) (hus : WellFormed us) :
    FieldLines (2 * d) (if us = [] then [] else [add d (field key (q us))]) (textEntry key us) := by
  unfold textEntry
  split
  · exact .nil _
  · exact lines_quoted d key hkey hus

/-- Quoted texts, one item a line. -/
theorem items_quoted (d : ℕ) {texts : List Text} (h : ∀ us ∈ texts, WellFormed us) :
    ItemLines (2 * d) (texts.map fun us => add d (item (q us))) (texts.map .quoted) := by
  induction texts with
  | nil => exact .nil _
  | cons us texts ih =>
    obtain ⟨hus, htexts⟩ := List.forall_mem_cons.mp h
    exact (itemLines_scalar _ (readLine_quote _ us) (shows_quote hus)).append (ih htexts)

/-- A key with a mapping two blanks further to the right. -/
theorem lines_map (d : ℕ) (key : String) (hkey : key ∈ WORDS) (hne : fields ≠ [])
    (hkeys : (fields.map Prod.fst).Nodup) (h : FieldLines (2 * (d + 1)) lines fields) :
    FieldLines (2 * d) (add d (opening key) :: lines) [(encode key, .map fields)] :=
  fieldLines_map (isWord_encode hkey) (by omega) hne hkeys h

theorem lines_seq (d : ℕ) (key : String) {items : List Value} (hkey : key ∈ WORDS)
    (hne : items ≠ []) (h : ItemLines (2 * (d + 1)) lines items) :
    FieldLines (2 * d) (add d (opening key) :: lines) [(encode key, .seq items)] :=
  fieldLines_seq (isWord_encode hkey) (by omega) hne h

theorem wellFormed_orText {vs : Text} (hus : WellFormed us) (hvs : WellFormed vs) :
    WellFormed (orText us vs) := by
  unfold orText
  split
  · exact hvs
  · exact hus

theorem wellFormed_vmessCipher (us : Text) : WellFormed (vmessCipher us) := by
  unfold vmessCipher
  extract_lets value
  split
  · next hany =>
    obtain ⟨w, hw, heq⟩ := List.any_eq_true.mp hany
    rw [← of_decide_eq_true heq]
    refine wellFormed_fixed ?_
    rw [TEXTS, List.mem_append, List.mem_append]
    exact .inl (.inr hw)
  · exact wellFormed_fixed List.mem_cons_self

/-- The lines of the protocol. -/
theorem lines_kind (h : NodeTexts node) :
    FieldLines (2 * 2) (kindLines node) (kindEntries node) := by
  have huuid := lines_quoted 2 "uuid" (by simp [WORDS, PROXY_KEYS, KIND_KEYS]) h.secret
  have hpassword := lines_quoted 2 "password" (by simp [WORDS, PROXY_KEYS, KIND_KEYS]) h.secret
  have hcipher := fun us => @lines_quoted us 2 "cipher" (by simp [WORDS, PROXY_KEYS, KIND_KEYS])
  have halter := lines_fixed 2 "alterId" "0" (by simp [WORDS, PROXY_KEYS, KIND_KEYS])
    (by simp [WORDS])
  unfold kindLines kindEntries
  cases node.kind with
  | vless => exact fieldLines_cons huuid (lines_text 2 "flow"
    (by simp [WORDS, PROXY_KEYS, KIND_KEYS]) h.flow)
  | vmess => exact fieldLines_cons huuid (fieldLines_cons halter
    (hcipher _ (wellFormed_vmessCipher _)))
  | trojan => exact hpassword
  | ss =>
    refine fieldLines_cons (hcipher _ (wellFormed_orText h.method ?_)) hpassword
    exact wellFormed_fixed (by simp [TEXTS])

theorem lines_reality (h : NodeTexts node) : FieldLines (2 * 2)
    (match node.reality with
      | some (publicKey, shortId) =>
          if node.tls = .reality then
            [add 2 (opening "reality-opts"), add 3 (field "public-key" (q publicKey))] ++
              if shortId = [] then [] else [add 3 (field "short-id" (q shortId))]
          else []
      | none => []) (realityEntries node) := by
  unfold realityEntries
  cases hreality : node.reality with
  | none => exact .nil _
  | some keys =>
    obtain ⟨publicKey, shortId⟩ := keys
    obtain ⟨hpublic, hshort⟩ := h.reality publicKey shortId hreality
    dsimp only
    split
    · have hkeys := fieldLines_cons
        (lines_quoted 3 "public-key" (by simp [WORDS, REALITY_KEYS]) hpublic)
          (lines_text 3 "short-id" (by simp [WORDS, REALITY_KEYS]) hshort)
      have hamong : Among (quotedEntry "public-key" publicKey ::
          textEntry "short-id" shortId) REALITY_KEYS :=
        .cons (among_text "short-id" shortId [])
      exact lines_map 2 "reality-opts" (by simp [WORDS, PROXY_KEYS, TLS_KEYS])
        (List.cons_ne_nil _ _) (hamong.nodup (by simp)) hkeys
    · exact .nil _

/-- The lines of TLS. -/
theorem lines_tls (h : NodeTexts node) : FieldLines (2 * 2) (tlsLines node) (tlsEntries node) := by
  have hname : (if node.kind = .trojan then "sni" else "servername") ∈ WORDS := by
    split
    · simp [WORDS, PROXY_KEYS, TLS_KEYS]
    · simp [WORDS, PROXY_KEYS, TLS_KEYS]
  have hchrome : WellFormed (encode "chrome") := wellFormed_fixed (by simp [TEXTS])
  unfold tlsLines tlsEntries
  split
  · exact .nil _
  have hstart := fieldLines_cons
    (lines_fixed 2 "tls" "true" (by simp [WORDS, PROXY_KEYS, TLS_KEYS]) (by simp [WORDS]))
    (lines_quoted 2 _ hname (wellFormed_orText h.sni (wellFormed_orText h.hostHeader h.host)))
  refine FieldLines.append (.append (.append (.append hstart ?_) ?_) ?_) (lines_reality h)
  · split
    · exact .nil _
    · next halpn =>
      exact lines_seq 2 "alpn" (by simp [WORDS, PROXY_KEYS, TLS_KEYS]) (by simpa using halpn)
        (items_quoted 3 h.alpn)
  · exact lines_quoted 2 "client-fingerprint" (by simp [WORDS, PROXY_KEYS, TLS_KEYS])
      (wellFormed_orText h.fingerprint hchrome)
  · split
    · exact lines_fixed 2 "skip-cert-verify" "true" (by simp [WORDS, PROXY_KEYS,
      TLS_KEYS]) (by simp [WORDS])
    · exact .nil _

theorem lines_headers (h : NodeTexts node) : FieldLines (2 * 3)
    (if node.hostHeader = [] then [] else [add 3 (opening "headers"),
      add 4 (field "Host" (q node.hostHeader))])
    (if node.hostHeader = [] then
      [] else [(encode "headers", .map [quotedEntry "Host" node.hostHeader])]) := by
  split
  · exact .nil _
  · exact lines_map 3 "headers" (by simp [WORDS, SOCKET_KEYS]) (List.cons_ne_nil _ _)
      (List.nodup_singleton _) (lines_quoted 4 "Host" (by simp [WORDS]) h.hostHeader)

theorem lines_upgrade (node : ProxyNode) : FieldLines (2 * 3)
    (if node.network = .httpupgrade then [add 3 (field "v2ray-http-upgrade" (encode "true"))]
      else if node.earlyData = 0 then []
      else
        [add 3 (field "max-early-data" (numeral node.earlyData)),
          add 3 (field "early-data-header-name" (q (encode "Sec-WebSocket-Protocol")))])
    (if node.network = .httpupgrade then [wordEntry "v2ray-http-upgrade" (encode "true")]
      else if node.earlyData = 0 then []
      else
        [wordEntry "max-early-data" (numeral node.earlyData),
          quotedEntry "early-data-header-name" (encode "Sec-WebSocket-Protocol")]) := by
  split
  · exact lines_fixed 3 "v2ray-http-upgrade" "true" (by simp [WORDS, SOCKET_KEYS]) (by simp [WORDS])
  split
  · exact .nil _
  · exact fieldLines_cons (lines_word 3 "max-early-data" _ (by simp [WORDS, SOCKET_KEYS])
      (isWord_numeral _)) (lines_quoted 3 "early-data-header-name" (by simp [WORDS, SOCKET_KEYS])
        (wellFormed_fixed (by simp [TEXTS])))

/-- The lines of the transport. -/
theorem lines_transport (h : NodeTexts node) :
    FieldLines (2 * 2) (transportLines node) (transportEntries node) := by
  have hnetwork := fun word =>
    lines_fixed 2 "network" word (by simp [WORDS, PROXY_KEYS, TRANSPORT_KEYS])
  have hslash : WellFormed (encode "/") := wellFormed_fixed (by simp [TEXTS])
  unfold transportLines transportEntries
  split
  · have hpath := lines_quoted 3 "path" (by simp [WORDS, SOCKET_KEYS]) (wellFormed_orText h.path hslash)
    simp only [List.cons_append, List.nil_append]
    refine fieldLines_cons (hnetwork "ws" (by simp [WORDS])) ?_
    refine lines_map 2 "ws-opts" (by simp [WORDS, PROXY_KEYS, TRANSPORT_KEYS])
      (List.cons_ne_nil _ _) ((among_socket node).nodup (by simp)) ?_
    exact fieldLines_cons hpath ((lines_headers h).append (lines_upgrade node))
  split
  · have hservice := lines_quoted 3 "grpc-service-name" (by simp [WORDS]) h.serviceName
    exact fieldLines_cons (hnetwork "grpc" (by simp [WORDS]))
      (lines_map 2 "grpc-opts" (by simp [WORDS, PROXY_KEYS, TRANSPORT_KEYS]) (List.cons_ne_nil _ _)
        (List.nodup_singleton _) hservice)
  · exact .nil _

theorem kindWord_mem (kind : NodeKind) : ∃ word ∈ WORDS, kindWord kind = encode word := by
  cases kind with
  | vless => exact ⟨"vless", by simp [WORDS], rfl⟩
  | vmess => exact ⟨"vmess", by simp [WORDS], rfl⟩
  | trojan => exact ⟨"trojan", by simp [WORDS], rfl⟩
  | ss => exact ⟨"ss", by simp [WORDS], rfl⟩

/-- The lines of a node are one item. -/
theorem lines_proxy (h : NodeTexts node) (hname : WellFormed node.name) :
    ItemLines (2 * 1) (proxyLines node) [.map (proxyEntries node)] := by
  obtain ⟨word, hword, hkind⟩ := kindWord_mem node.kind
  have hstart : FieldLines (2 * 2)
      [add 2 (field "name" (q node.name)), add 2 (field "type" (kindWord node.kind)),
        add 2 (field "server" (q node.host)), add 2 (field "port" (numeral node.port)),
        add 2 (field "udp" (encode "true"))]
      [quotedEntry "name" node.name, wordEntry "type" (kindWord node.kind),
        quotedEntry "server" node.host, wordEntry "port" (numeral node.port),
        wordEntry "udp" (encode "true")] := by
    rw [hkind]
    refine fieldLines_cons (lines_quoted 2 "name" (by simp [WORDS, PROXY_KEYS]) hname) ?_
    refine fieldLines_cons (lines_fixed 2 "type" word (by simp [WORDS, PROXY_KEYS]) hword) ?_
    refine fieldLines_cons (lines_quoted 2 "server" (by simp [WORDS, PROXY_KEYS]) h.host) ?_
    refine fieldLines_cons (lines_word 2 "port" _ (by simp [WORDS, PROXY_KEYS])
      (isWord_numeral _)) ?_
    exact lines_fixed 2 "udp" "true" (by simp [WORDS, PROXY_KEYS]) (by simp [WORDS])
  have hrest : FieldLines (2 * 2)
      (if node.kind = .ss then [] else tlsLines node ++ transportLines node)
        (if node.kind = .ss then [] else tlsEntries node ++ transportEntries node) := by
    split
    · exact .nil _
    · exact (lines_tls h).append (lines_transport h)
  have hall := (hstart.append (lines_kind h)).append hrest
  exact itemLines_map (by simp [proxyEntries]) ((among_proxy node).nodup (by simp)) hall

/-- The lines of all nodes. -/
theorem lines_proxies {nodes : List ProxyNode}
    (h : ∀ node ∈ nodes, NodeTexts node ∧ WellFormed node.name) :
    ItemLines (2 * 1) (nodes.flatMap proxyLines) (nodes.map fun node =>
      .map (proxyEntries node)) := by
  induction nodes with
  | nil => exact .nil _
  | cons node nodes ih =>
    obtain ⟨⟨htexts, hname⟩, hnodes⟩ := List.forall_mem_cons.mp h
    exact (lines_proxy htexts hname).append (ih hnodes)

/-! ## Groups -/

/-- The lines of a group are one item. -/
theorem lines_group {name : Text} {kind : String} {settings : List (Text × Value)}
    {members : List Text} (hname : WellFormed name) (hkind : kind ∈ WORDS)
    (hsettings : FieldLines (2 * 2) lines settings)
    (hamong : Among settings TEST_KEYS) (hne : members ≠ [])
    (hmembers : ∀ m ∈ members, WellFormed m) :
    ItemLines (2 * 1)
      (add 1 (item (field "name" (q name))) :: ([add 2 (field "type" (encode kind))] ++ lines ++
        (add 2 (opening "proxies") :: members.map fun m => add 3 (item (q m)))))
      [groupValue name kind settings members] := by
  have hstart := fieldLines_cons (lines_quoted 2 "name" (by simp [WORDS, GROUP_KEYS]) hname)
    (lines_fixed 2 "type" kind (by simp [WORDS, GROUP_KEYS]) hkind)
  have hlist := lines_seq 2 "proxies" (by simp [WORDS, GROUP_KEYS]) (by simpa using hne)
    (items_quoted 3 hmembers)
  have hall := (hstart.append hsettings).append hlist
  have hkeys : Among ([quotedEntry "name" name, wordEntry "type" (encode kind)] ++ settings ++
      [(encode "proxies", .seq (members.map .quoted))]) GROUP_KEYS :=
    .append (.append (.cons (.cons (.nil _))) hamong) (.cons (.nil _))
  exact itemLines_map (by simp) (hkeys.nodup (by simp)) hall

variable {names : List Text} {group : Text}

theorem wellFormed_members (hnames : ∀ name ∈ names, WellFormed name) :
    ∀ name ∈ (if names = [] then [] else [AUTO]) ++ names ++ [DIRECT], WellFormed name := by
  intro name hname
  rw [List.mem_append, List.mem_append, List.mem_singleton] at hname
  rcases hname with (hauto | hname) | rfl
  · split at hauto
    · cases hauto
    · rw [List.mem_singleton.mp hauto]
      exact wellFormed_fixed (by simp [TEXTS])
  · exact hnames name hname
  · exact wellFormed_fixed (by simp [TEXTS])

/-- The lines of the groups. -/
theorem lines_groups (hgroup : WellFormed group) (hnames : ∀ name ∈ names, WellFormed name) :
    ItemLines (2 * 1) (selectLines names group ++ autoLines names) (groupValues names group) := by
  have hselect : ItemLines (2 * 1) (selectLines names group)
      [groupValue group "select" []
        ((if names = [] then [] else [AUTO]) ++ names ++ [DIRECT])] := by
    have hkind : "select" ∈ WORDS := by simp [WORDS]
    have hlines := lines_group hgroup hkind (.nil _) (.nil _) (by simp) (wellFormed_members hnames)
    unfold selectLines
    by_cases hnil : names = []
    · simpa [hnil] using hlines
    · simpa [hnil] using hlines
  have htest : ItemLines (2 * 1) (autoLines names)
      (if names = [] then []
        else
          [groupValue AUTO "url-test" [quotedEntry "url" TEST_URL,
            wordEntry "interval" (encode "300"), wordEntry "tolerance" (encode "50")] names]) := by
    have hauto : WellFormed AUTO := wellFormed_fixed (by simp [TEXTS])
    have hkind : "url-test" ∈ WORDS := by simp [WORDS]
    have hprobe : WellFormed TEST_URL := wellFormed_fixed (by simp [TEXTS])
    have hurl := lines_quoted 2 "url" (by simp [WORDS, GROUP_KEYS, TEST_KEYS]) hprobe
    have hinterval := lines_fixed 2 "interval" "300" (by simp [WORDS, GROUP_KEYS, TEST_KEYS])
      (by simp [WORDS])
    have htolerance := lines_fixed 2 "tolerance" "50" (by simp [WORDS, GROUP_KEYS, TEST_KEYS])
      (by simp [WORDS])
    unfold autoLines
    split
    · exact .nil _
    · next hne =>
      exact lines_group hauto hkind (fieldLines_cons hurl (fieldLines_cons hinterval htolerance))
        (.cons (.cons (.cons (.nil _)))) hne hnames
  exact hselect.append htest

/-- The lines of the settings. -/
theorem lines_settings : FieldLines (2 * 0) settingLines settingEntries := by
  have hfalse : "false" ∈ WORDS := by simp [WORDS]
  have hservers : ∀ us ∈ [encode "1.1.1.1", encode "8.8.8.8"], WellFormed us := by
    intro us hus
    rw [List.mem_pair] at hus
    rcases hus with rfl | rfl
    · exact wellFormed_fixed (by simp [TEXTS])
    · exact wellFormed_fixed (by simp [TEXTS])
  have hlist := lines_seq 1 "nameserver" (by simp [WORDS, DNS_KEYS]) (List.cons_ne_nil _ _)
    (items_quoted 2 hservers)
  have hdns := fieldLines_cons
    (lines_fixed 1 "enable" "true" (by simp [WORDS, DNS_KEYS]) (by simp [WORDS]))
      (fieldLines_cons (lines_fixed 1 "ipv6" "false" (by simp [WORDS, DNS_KEYS]) hfalse)
        (fieldLines_cons (lines_fixed 1 "enhanced-mode" "fake-ip" (by simp [WORDS, DNS_KEYS])
          (by simp [WORDS])) (fieldLines_cons
            (lines_fixed 1 "fake-ip-range" "198.18.0.1/16" (by simp [WORDS, DNS_KEYS])
              (by simp [WORDS])) hlist)))
  have hkeys : Among [wordEntry "enable" (encode "true"), wordEntry "ipv6" (encode "false"),
      wordEntry "enhanced-mode" (encode "fake-ip"),
      wordEntry "fake-ip-range" (encode "198.18.0.1/16"),
      (encode "nameserver", .seq [.quoted (encode "1.1.1.1"),
        .quoted (encode "8.8.8.8")])] DNS_KEYS :=
    .cons (.cons (.cons (.cons (.cons (.nil _)))))
  have hmap := lines_map 0 "dns" (by simp [WORDS, CONFIG_KEYS]) (List.cons_ne_nil _ _)
    (hkeys.nodup (by simp)) hdns
  unfold settingLines settingEntries
  refine fieldLines_cons (lines_fixed 0 "mixed-port" "7890" (by simp [WORDS, CONFIG_KEYS])
    (by simp [WORDS])) ?_
  refine fieldLines_cons (lines_fixed 0 "allow-lan" "false"
    (by simp [WORDS, CONFIG_KEYS]) hfalse) ?_
  refine fieldLines_cons (lines_fixed 0 "mode" "rule" (by simp [WORDS, CONFIG_KEYS])
    (by simp [WORDS])) ?_
  refine fieldLines_cons (lines_fixed 0 "log-level" "warning" (by simp [WORDS, CONFIG_KEYS])
    (by simp [WORDS])) ?_
  exact fieldLines_cons (lines_fixed 0 "ipv6" "false" (by simp [WORDS, CONFIG_KEYS]) hfalse) hmap

theorem wellFormed_rules (hgroup : WellFormed group) :
    ∀ us ∈ RULES ++ [encode "MATCH," ++ group], WellFormed us := by
  intro us hus
  rw [List.mem_append, List.mem_singleton] at hus
  rcases hus with hus | rfl
  · exact wellFormed_fixed (List.mem_append_right _ hus)
  · exact (wellFormed_fixed (by simp [TEXTS])).append hgroup

/-- The lines behind the comments. -/
theorem lines_document {nodes : List ProxyNode} (hgroup : WellFormed group)
    (hnodes : ∀ node ∈ nodes, NodeTexts node ∧ WellFormed node.name) :
    FieldLines (2 * 0)
      (settingLines ++
        (if nodes = [] then [field "proxies" (encode "[]")] else opening "proxies" ::
          nodes.flatMap proxyLines) ++
        (opening "proxy-groups" :: (selectLines (nodes.map ProxyNode.name) group ++
          autoLines (nodes.map ProxyNode.name))) ++
        (opening "rules" :: ruleLines group))
      (settingEntries ++
        [(encode "proxies", .seq (nodes.map fun node => .map (proxyEntries node))),
          (encode "proxy-groups", .seq (groupValues (nodes.map ProxyNode.name) group)),
          (encode "rules", .seq ((RULES ++ [encode "MATCH," ++ group]).map .quoted))]) := by
  have hnames : ∀ name ∈ nodes.map ProxyNode.name, WellFormed name := by
    intro name hname
    obtain ⟨node, hnode, rfl⟩ := List.mem_map.mp hname
    exact (hnodes node hnode).2
  have hproxies : FieldLines (2 * 0)
      (if nodes = [] then [field "proxies" (encode "[]")] else opening "proxies" ::
        nodes.flatMap proxyLines)
      [(encode "proxies", .seq (nodes.map fun node => .map (proxyEntries node)))] := by
    split
    · next hnil =>
      have hkey : "proxies" ∈ WORDS := by simp [WORDS, CONFIG_KEYS]
      rw [hnil]
      exact fieldLines_scalar 0 (isWord_encode hkey) shows_empty
    · next hne =>
      exact lines_seq 0 "proxies" (by simp [WORDS, CONFIG_KEYS]) (by simpa using hne)
        (lines_proxies hnodes)
  have hne : groupValues (nodes.map ProxyNode.name) group ≠ [] := List.cons_ne_nil _ _
  have hgroups := lines_seq 0 "proxy-groups" (by simp [WORDS, CONFIG_KEYS]) hne
    (lines_groups hgroup hnames)
  have hrules := lines_seq 0 "rules" (by simp [WORDS, CONFIG_KEYS]) (by simp)
    (items_quoted 1 (wellFormed_rules hgroup))
  rw [List.map_append] at hrules
  have hall := ((lines_settings.append hproxies).append hgroups).append hrules
  simp only [List.append_assoc, List.cons_append, List.nil_append] at hall ⊢
  exact hall

theorem among_document {items groups rules : Value} : Among (settingEntries ++
    [(encode "proxies", items), (encode "proxy-groups", groups),
      (encode "rules", rules)]) CONFIG_KEYS := by
  unfold settingEntries CONFIG_KEYS
  exact .cons (.cons (.cons (.cons (.cons (.cons (.cons (.cons (.cons (.nil _)))))))))

end

end Clash

end SRPanel
