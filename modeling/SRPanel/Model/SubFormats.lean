import SRPanel.Model.Subscription

/-!
# The dialects of a subscription

One place decides which dialect a request gets: a list of URIs, plain or in base64, a Clash document
or a sing-box document. The documents are kept as values; how they are written as text is fixed by
YAML and JSON.
-/

namespace SRPanel

/-- `SubFormat`. -/
inductive SubFormat
  | base64
  | links
  | clash
  | singbox
  deriving DecidableEq

def CLASH_AGENTS : List String := ["clash", "mihomo", "clash-meta", "stash", "flclash"]

def SINGBOX_AGENTS : List String :=
  ["sing-box", "singbox", "sfa", "sfi", "sfm", "karing", "husi", "puernya"]

/-- `detectSubFormat`; a text that is absent is empty. -/
def detectSubFormat (userAgent explicit : String) : SubFormat :=
  let want := lower (trim explicit)
  let agent := lower (trim userAgent)
  if want ≠ "" then
    if want ∈ ["clash", "mihomo", "meta", "clashmeta", "yaml"] then .clash
    else if want ∈ ["singbox", "sing-box", "sfa", "json"] then .singbox
    else if want ∈ ["links", "uri", "text", "plain"] then .links
    else .base64
  else if CLASH_AGENTS.any (includes agent) then .clash
  else if SINGBOX_AGENTS.any (includes agent) then .singbox
  else .base64

/-! ## Names -/

/-- `raw` without the characters of a class, or the fallback if nothing is left. -/
def cleanLabel (drop : Char → Bool) (raw fallback : String) : String :=
  (orNull (trim (.ofList (raw.toList.filter fun c => !drop c)))).getD fallback

/-- `safeName` of the Clash renderer. -/
def safeName (raw fallback : String) : String :=
  cleanLabel (fun c => c.toNat < 32 || c.toNat ∈ [34, 44, 127]) raw fallback

/-- `safeTag` of the sing-box renderer. -/
def safeTag (raw fallback : String) : String :=
  cleanLabel (fun c => c.toNat < 32 || c.toNat = 127) raw fallback

/-- The name of a group, which must not be that of a node, of `Auto` or of the direct outbound; each
of the `n` tries puts ` +` at its end. -/
def freeGroup (taken : List String) : (n : ℕ) → (group : String) → String
  | 0, group => group
  | n + 1, group => if group ∈ taken then freeGroup taken n (group ++ " +") else group

/-- The group beside these nodes. -/
def groupAmong (names : List String) (direct group : String) : String :=
  freeGroup (["Auto", direct] ++ names) (names.length + 3) group

/-! ## Clash -/

/-- A YAML document, as far as the renderer uses it. -/
inductive Yaml
  | num (n : ℕ)
  | bool (b : Bool)
  /-- written as it is -/
  | word (s : String)
  /-- written with quotes -/
  | str (s : String)
  | seq (items : List Yaml)
  | map (fields : List (String × Yaml))

/-- `VMESS_CIPHERS` and `VMESS_SECURITY`. -/
def VMESS_CIPHERS : List String := ["auto", "none", "zero", "aes-128-gcm", "chacha20-poly1305"]

/-- `vmessCipher`. -/
def vmessCipher (raw : String) : String :=
  if lower (trim raw) ∈ VMESS_CIPHERS then lower (trim raw) else "auto"

def NodeKind.word : NodeKind → String
  | .vless => "vless"
  | .vmess => "vmess"
  | .trojan => "trojan"
  | .ss => "ss"

/-- The first of three texts that is not empty. -/
def firstText (a b c : String) : String := ((orElse a (orElse b (some c)))).getD ""

/-- A field that is there only if the text is not empty. -/
def textField (key s : String) : List (String × Yaml) := if s ≠ "" then [(key, .str s)] else []

/-- The fields of a node that depend on its protocol. -/
def kindFields (node : ProxyNode) : List (String × Yaml) :=
  match node.kind with
  | .vless => ("uuid", .str node.secret) :: textField "flow" node.flow
  | .vmess => [("uuid", .str node.secret), ("alterId", .num 0),
    ("cipher", .str (vmessCipher node.method))]
  | .trojan => [("password", .str node.secret)]
  | .ss => [("cipher", .str (firstText node.method "aes-256-gcm" "")),
    ("password", .str node.secret)]

/-- The fields of TLS. -/
def tlsFields (node : ProxyNode) : List (String × Yaml) :=
  if node.tls = .none then []
  else
    [("tls", .bool true),
      (if node.kind = .trojan then "sni" else "servername",
        .str (firstText node.sni node.hostHeader node.host))] ++
    (if node.alpn ≠ [] then [("alpn", .seq (node.alpn.map .str))] else []) ++
    [("client-fingerprint", .str (firstText node.fingerprint "chrome" ""))] ++
    (if node.insecure then [("skip-cert-verify", .bool true)] else []) ++
    (match node.reality with
      | some (publicKey, shortId) =>
          if node.tls = .reality then
            [("reality-opts", .map (("public-key", .str publicKey) ::
              textField "short-id" shortId))]
          else []
      | none => [])

/-- The fields of the transport. -/
def transportFields (node : ProxyNode) : List (String × Yaml) :=
  if node.network = .ws || node.network = .httpupgrade then
    [("network", .word "ws"), ("ws-opts", .map ([("path", .str (firstText node.path "/" ""))] ++
      (if node.hostHeader ≠ "" then [("headers", .map [("Host", .str node.hostHeader)])] else []) ++
      (if node.network = .httpupgrade then [("v2ray-http-upgrade", .bool true)]
        else if node.earlyData ≠ 0 then
          [("max-early-data", .num node.earlyData),
            ("early-data-header-name", .str "Sec-WebSocket-Protocol")]
        else [])))]
  else if node.network = .grpc then
    [("network", .word "grpc"), ("grpc-opts", .map [("grpc-service-name", .str node.serviceName)])]
  else []

/-- `proxyLines`: an entry of `proxies`. Shadowsocks is always plain TCP. -/
def proxyEntry (node : ProxyNode) : Yaml :=
  .map ([("name", .str node.name), ("type", .word node.kind.word), ("server", .str node.host),
      ("port", .num node.port), ("udp", .bool true)] ++ kindFields node ++
    if node.kind = .ss then [] else tlsFields node ++ transportFields node)

/-- `RULES`. -/
def RULES : List String :=
  ["IP-CIDR,127.0.0.0/8,DIRECT,no-resolve", "IP-CIDR,10.0.0.0/8,DIRECT,no-resolve",
    "IP-CIDR,172.16.0.0/12,DIRECT,no-resolve", "IP-CIDR,192.168.0.0/16,DIRECT,no-resolve",
    "DOMAIN-SUFFIX,ir,DIRECT", "GEOIP,IR,DIRECT"]

def TEST_URL : String := "http://www.gstatic.com/generate_204"

/-- A Clash configuration: its comments and its fields. -/
structure ClashConfig where
  comments : List String
  fields : List (String × Yaml)

/-- `ClashOptions`. -/
structure ClashOptions where
  group : String
  title : String
  pageUrl : String

/-- `toClashConfig`. -/
def toClashConfig (nodes : List ProxyNode) (opts : ClashOptions) : ClashConfig :=
  let usable := nodes.filter isPortableNode
  let names := usable.map ProxyNode.name
  let group := groupAmong names "DIRECT" (safeName opts.group "SR-Panel")
  let auto := if usable = [] then [] else ["Auto"]
  { comments := (safeName (firstText opts.title group "") group ++ " (Clash / Mihomo)") ::
      if opts.pageUrl ≠ "" then [opts.pageUrl] else []
    fields :=
      [("mixed-port", .num 7890), ("allow-lan", .bool false), ("mode", .word "rule"),
        ("log-level", .word "warning"), ("ipv6", .bool false),
        ("dns", .map [("enable", .bool true), ("ipv6", .bool false),
          ("enhanced-mode", .word "fake-ip"), ("fake-ip-range", .word "198.18.0.1/16"),
          ("nameserver", .seq [.str "1.1.1.1", .str "8.8.8.8"])]),
        ("proxies", .seq (usable.map proxyEntry)),
        ("proxy-groups", .seq (.map [("name", .str group), ("type", .word "select"),
            ("proxies", .seq ((auto ++ names ++ ["DIRECT"]).map .str))] ::
          if usable = [] then []
          else [.map [("name", .str "Auto"), ("type", .word "url-test"), ("url", .str TEST_URL),
            ("interval", .num 300), ("tolerance", .num 50), ("proxies", .seq (names.map .str))]])),
        ("rules", .seq ((RULES ++ ["MATCH," ++ group]).map .str))] }

/-! ## sing-box -/

/-- A JSON document, as far as the renderer uses it. -/
inductive Json
  | num (n : ℕ)
  | bool (b : Bool)
  | str (s : String)
  | arr (items : List Json)
  | obj (fields : List (String × Json))

/-- `tlsOf` of the sing-box renderer. -/
def tlsOf (node : ProxyNode) : List (String × Json) :=
  if node.tls = .none then []
  else
    let utls := fun fingerprint =>
      ("utls", Json.obj [("enabled", .bool true), ("fingerprint", .str fingerprint)])
    let reality := if node.tls = .reality then node.reality else none
    [("tls", .obj ([("enabled", .bool true),
      ("server_name", .str (firstText node.sni node.hostHeader node.host))] ++
      (if node.insecure then [("insecure", .bool true)] else []) ++
      (if node.alpn ≠ [] then [("alpn", .arr (node.alpn.map .str))] else []) ++
      (if node.fingerprint ≠ "" then [utls node.fingerprint] else []) ++
      (match reality with
        | none => []
        | some (publicKey, shortId) =>
            ("reality", .obj ([("enabled", .bool true), ("public_key", .str publicKey)] ++
              if shortId ≠ "" then [("short_id", .str shortId)] else [])) ::
            -- reality without uTLS is rejected outright
            if node.fingerprint ≠ "" then [] else [utls "chrome"])))]

/-- `transportOf`. -/
def transportOf (node : ProxyNode) : List (String × Json) :=
  match node.network with
  | .ws => [("transport", .obj
      ([("type", .str "ws"), ("path", .str (firstText node.path "/" ""))] ++
        (if node.hostHeader ≠ "" then
          [("headers", .obj [("Host", .str node.hostHeader)])] else []) ++
      if node.earlyData ≠ 0 then [("max_early_data", .num node.earlyData),
        ("early_data_header_name", .str "Sec-WebSocket-Protocol")] else []))]
  | .httpupgrade => [("transport", .obj ([("type", .str "httpupgrade"),
      ("path", .str (firstText node.path "/" ""))] ++
      if node.hostHeader ≠ "" then [("host", .str node.hostHeader)] else []))]
  | .grpc => [("transport", .obj [("type", .str "grpc"), ("service_name", .str node.serviceName)])]
  | _ => []

/-- The type of the outbound of a node. -/
def NodeKind.outbound : NodeKind → String
  | .ss => "shadowsocks"
  | kind => kind.word

/-- `outboundOf`. -/
def outboundOf (node : ProxyNode) : Json :=
  .obj ([("type", .str node.kind.outbound), ("tag", .str node.name), ("server", .str node.host),
      ("server_port", .num node.port)] ++
    match node.kind with
    | .vless => [("uuid", .str node.secret)] ++
        (if node.flow ≠ "" then [("flow", .str node.flow)] else []) ++
        [("packet_encoding", .str "xudp")] ++
        tlsOf node ++ transportOf node
    | .vmess => [("uuid", .str node.secret), ("security", .str (vmessCipher node.method)),
        ("alter_id", .num 0)] ++ tlsOf node ++ transportOf node
    | .trojan => [("password", .str node.secret)] ++ tlsOf node ++ transportOf node
    | .ss => [("method", .str (firstText node.method "aes-256-gcm" "")),
      ("password", .str node.secret)])

/-- `toSingboxConfig`, before it is written as text. -/
def toSingboxConfig (nodes : List ProxyNode) (rawGroup : String) : Json :=
  let usable := nodes.filter isPortableNode
  let tags := usable.map ProxyNode.name
  let group := groupAmong tags "direct" (safeTag rawGroup "SR-Panel")
  let auto := if tags = [] then [] else ["Auto"]
  .obj [("log", .obj [("level", .str "warn"), ("timestamp", .bool true)]),
    ("inbounds", .arr [.obj [("type", .str "mixed"), ("tag", .str "mixed-in"),
      ("listen", .str "127.0.0.1"), ("listen_port", .num 2080)]]),
    ("outbounds", .arr (usable.map outboundOf ++
      (if tags = [] then [] else [.obj [("type", .str "urltest"), ("tag", .str "Auto"),
        ("outbounds", .arr (tags.map .str)), ("url", .str TEST_URL), ("interval", .str "5m"),
        ("tolerance", .num 50)]]) ++
      [.obj [("type", .str "selector"), ("tag", .str group),
          ("outbounds", .arr ((auto ++ tags ++ ["direct"]).map .str)),
          ("default", .str (if tags = [] then "direct" else "Auto"))],
        .obj [("type", .str "direct"), ("tag", .str "direct")]])),
    ("route", .obj [
      ("rules", .arr [.obj [("ip_is_private", .bool true), ("outbound", .str "direct")]]),
      ("final", .str group), ("auto_detect_interface", .bool true)])]

/-! ## Formats -/

/-- `RenderSubscriptionInput`. -/
structure RenderSubscriptionInput where
  links : List ShareLink
  /-- the text whose base64 encoding is the body of `buildSubscription` -/
  base64 : String
  infoUri : String
  extra : List String
  title : String
  group : String
  pageUrl : String

/-- The body of a subscription. -/
inductive SubBody
  /-- the base64 encoding of a text -/
  | base64 (text : String)
  | text (text : String)
  | yaml (doc : ClashConfig)
  | json (doc : Json)

/-- `RenderedSubscription`. -/
structure RenderedSubscription where
  format : SubFormat
  body : SubBody
  contentType : String
  extension : String

/-- `groupOf`. -/
def groupOfInput (input : RenderSubscriptionInput) : String :=
  firstText (trim input.group) (trim input.title) "SR-Panel"

/-- `dialable`: our own links first, then what the owner attached from outside. -/
def dialable (input : RenderSubscriptionInput) : List ShareLink :=
  input.links.filter (fun link => trim link.uri ≠ "") ++
    ((input.extra.map trim).filter (· ≠ "")).map fun uri => ⟨uri, none⟩

/-- `uriList`. -/
def uriList (input : RenderSubscriptionInput) : List String :=
  (if input.infoUri ≠ "" then [input.infoUri] else []) ++ (dialable input).map ShareLink.uri

/-- The nodes of share links, where `index` links and the names `used` came before. -/
def parseFrom (parse : ShareLink → String → Option ProxyNode) :
    (index : ℕ) → (used : List String) → List ShareLink → List ProxyNode
  | _, _, [] => []
  | index, used, link :: links =>
      match parse link ("node " ++ toString (index + 1)) with
      | none => parseFrom parse (index + 1) used links
      | some node =>
          let name := uniqueName node.name used
          { node with name := name } :: parseFrom parse (index + 1) (name :: used) links

/-- `parseShareUris`. -/
def parseShareUris (x : SubEnv) (links : List ShareLink) : List ProxyNode :=
  parseFrom x.parseShareUri 0 [] links

/-- `renderSubscription`; without external links the stored body is reused. -/
def renderSubscription (x : SubEnv) (format : SubFormat) (input : RenderSubscriptionInput) :
    RenderedSubscription :=
  match format with
  | .clash => ⟨format, .yaml (toClashConfig (parseShareUris x (dialable input))
      ⟨groupOfInput input, input.title, input.pageUrl⟩), "text/yaml; charset=utf-8", "yaml"⟩
  | .singbox => ⟨format, .json
      (toSingboxConfig (parseShareUris x (dialable input)) (groupOfInput input)),
      "application/json; charset=utf-8", "json"⟩
  | .links => ⟨format, .text (joinLines (uriList input) ++ "\n"),
    "text/plain; charset=utf-8", "txt"⟩
  | .base64 => ⟨format, .base64
      (if input.extra ≠ [] then joinLines (uriList input) else input.base64),
      "text/plain; charset=utf-8", "txt"⟩

/-! ## The endpoint -/

/-- A request for a subscription. -/
structure SubRequest where
  token : String
  accept : String
  userAgent : String
  /-- the parameter `format`, if the request has one -/
  format : Option String
  /-- `publicBase` -/
  publicUrl : String

/-- The answer to a request, less its headers. -/
inductive SubResponse
  | notFound
  | redirect (location : String)
  | ok (rendered : RenderedSubscription)

/-- The characters of a token. -/
def isTokenChar (c : Char) : Bool := c.isAlphanum || c = '_' || c = '-'

/-- What the endpoint renders for a payload. -/
def subInput (x : SubEnv) (req : SubRequest) (payload : SubscriptionPayload) :
    RenderSubscriptionInput where
  links := payload.links
  base64 := payload.base64
  infoUri := payload.infoUri
  extra := resolveExternalUris x
  title := payload.brandName ++ " • " ++ payload.clientName
  group := payload.brandName
  pageUrl := req.publicUrl ++ "/s/" ++ req.token

namespace Site

/-- `GET`. -/
def getSubscription (s : Site) (x : SubEnv) (req : SubRequest) : SubResponse :=
  let n := req.token.toList.length
  if n < 16 || 128 < n || !req.token.toList.all isTokenChar then .notFound
  else if includes req.accept "text/html" && req.format.isNone then .redirect ("/s/" ++ req.token)
  else
    match s.buildSubscription x req.token with
    | none => .notFound
    | some payload =>
        .ok (renderSubscription x (detectSubFormat req.userAgent (req.format.getD ""))
          (subInput x req payload))

end Site

end SRPanel
