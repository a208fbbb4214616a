import SRPanel.Lib.JsonText
import SRPanel.Model.NodeUris

/-!
# The Clash document as text

The document is put together from lines. Scalars of the user are written by `JSON.stringify`.
-/

namespace SRPanel

namespace Clash

open Utf16

/-- `ClashOptions`; a text that is absent is empty. -/
structure ClashOptions where
  group : Text
  title : Text
  pageUrl : Text

def AUTO : Text := encode "Auto"

def DIRECT : Text := encode "DIRECT"

def TEST_URL : Text := encode "http://www.gstatic.com/generate_204"

def RULES : List Text :=
  ["IP-CIDR,127.0.0.0/8,DIRECT,no-resolve", "IP-CIDR,10.0.0.0/8,DIRECT,no-resolve",
    "IP-CIDR,172.16.0.0/12,DIRECT,no-resolve", "IP-CIDR,192.168.0.0/16,DIRECT,no-resolve",
    "DOMAIN-SUFFIX,ir,DIRECT", "GEOIP,IR,DIRECT"].map encode

def VMESS_CIPHERS : List Text :=
  ["auto", "none", "zero", "aes-128-gcm", "chacha20-poly1305"].map encode

/-- `q`. -/
def q (value : Text) : Text := JsonText.quote value

/-- `a || b`. -/
def orText (a b : Text) : Text := if a = [] then b else a

/-- The characters that `safeName` drops: `,` and `"` have to go. -/
def isUnsafe (code : ℕ) : Bool := code < 32 || code = 34 || code = 44 || code = 127

/-- `safeName`. -/
def safeName (raw fallback : Text) : Text := orText (stripped isUnsafe raw) fallback

/-- `vmessCipher`. -/
def vmessCipher (raw : Text) : Text :=
  let value := lower (trim raw)
  if VMESS_CIPHERS.any (· = value) then value else encode "auto"

def kindWord : NodeKind → Text
  | .vless => encode "vless"
  | .vmess => encode "vmess"
  | .trojan => encode "trojan"
  | .ss => encode "ss"

/-! ## Lines -/

/-- `add`: a line with twice as many blanks before it. -/
def add (depth : ℕ) (text : Text) : Text := List.replicate (2 * depth) 32 ++ text

/-- `key: value`. -/
def field (key : String) (value : Text) : Text := encode key ++ (58 :: 32 :: value)

/-- `key:`. -/
def opening (key : String) : Text := encode key ++ [58]

/-- `- value`. -/
def item (value : Text) : Text := 45 :: 32 :: value

/-- The fields of a node that depend on its protocol. -/
def kindLines (node : ProxyNode) : List Text :=
  match node.kind with
  | .vless =>
      add 2 (field "uuid" (q node.secret)) :: if node.flow =
        [] then [] else [add 2 (field "flow" (q node.flow))]
  | .vmess =>
      [add 2 (field "uuid" (q node.secret)), add 2 (field "alterId" (encode "0")),
        add 2 (field "cipher" (q (vmessCipher node.method)))]
  | .trojan => [add 2 (field "password" (q node.secret))]
  | .ss =>
      [add 2 (field "cipher" (q (orText node.method (encode "aes-256-gcm")))),
        add 2 (field "password" (q node.secret))]

/-- The lines of TLS. -/
def tlsLines (node : ProxyNode) : List Text :=
  if node.tls = .none then []
  else
    [add 2 (field "tls" (encode "true")),
      add 2 (field (if node.kind = .trojan then "sni" else "servername")
        (q (orText node.sni (orText node.hostHeader node.host))))] ++
    (if node.alpn = [] then [] else add 2 (opening "alpn") :: node.alpn.map fun alpn =>
      add 3 (item (q alpn))) ++
    [add 2 (field "client-fingerprint" (q (orText node.fingerprint (encode "chrome"))))] ++
    (if node.insecure then [add 2 (field "skip-cert-verify" (encode "true"))] else []) ++
    match node.reality with
    | some (publicKey, shortId) =>
        if node.tls = .reality then
          [add 2 (opening "reality-opts"), add 3 (field "public-key" (q publicKey))] ++
            if shortId = [] then [] else [add 3 (field "short-id" (q shortId))]
        else []
    | none => []

/-- The lines of the transport. -/
def transportLines (node : ProxyNode) : List Text :=
  if node.network = .ws ∨ node.network = .httpupgrade then
    [add 2 (field "network" (encode "ws")), add 2 (opening "ws-opts"),
      add 3 (field "path" (q (orText node.path (encode "/"))))] ++
    (if node.hostHeader = [] then [] else [add 3 (opening "headers"),
      add 4 (field "Host" (q node.hostHeader))]) ++
    if node.network = .httpupgrade then [add 3 (field "v2ray-http-upgrade" (encode "true"))]
    else if node.earlyData = 0 then []
    else
      [add 3 (field "max-early-data" (numeral node.earlyData)),
        add 3 (field "early-data-header-name" (q (encode "Sec-WebSocket-Protocol")))]
  else if node.network = .grpc then
    [add 2 (field "network" (encode "grpc")), add 2 (opening "grpc-opts"),
      add 3 (field "grpc-service-name" (q node.serviceName))]
  else []

/-- `proxyLines`. Shadowsocks is always plain TCP. -/
def proxyLines (node : ProxyNode) : List Text :=
  [add 1 (item (field "name" (q node.name))), add 2 (field "type" (kindWord node.kind)),
    add 2 (field "server" (q node.host)), add 2 (field "port" (numeral node.port)),
    add 2 (field "udp" (encode "true"))] ++
  kindLines node ++
  if node.kind = .ss then [] else tlsLines node ++ transportLines node

/-! ## The document -/

/-- The groups that are tried: ` +` is put at the end as long as the name is taken. -/
def plussed (group : Text) : ℕ → Text
  | 0 => group
  | k + 1 => plussed group k ++ encode " +"

/-- The group beside nodes with these names. -/
def groupAmong (names : List Text) (group : Text) : Text :=
  Fresh.firstFree (plussed group) (AUTO :: DIRECT :: names) (names.length + 2) 0

/-- The comments: the title and the page. -/
def commentLines (group : Text) (opts : ClashOptions) : List Text :=
  (encode "# " ++ (safeName (orText opts.title group) group ++ encode " (Clash / Mihomo)")) ::
    if opts.pageUrl = [] then [] else [encode "# " ++ opts.pageUrl]

/-- The settings, which are always the same. -/
def settingLines : List Text :=
  [field "mixed-port" (encode "7890"), field "allow-lan" (encode "false"),
    field "mode" (encode "rule"), field "log-level" (encode "warning"),
    field "ipv6" (encode "false"), opening "dns",
    add 1 (field "enable" (encode "true")), add 1 (field "ipv6" (encode "false")),
    add 1 (field "enhanced-mode" (encode "fake-ip")),
    add 1 (field "fake-ip-range" (encode "198.18.0.1/16")),
    add 1 (opening "nameserver"), add 2 (item (q (encode "1.1.1.1"))),
    add 2 (item (q (encode "8.8.8.8")))]

/-- The group that the user picks from. -/
def selectLines (names : List Text) (group : Text) : List Text :=
  [add 1 (item (field "name" (q group))), add 2 (field "type" (encode "select")),
    add 2 (opening "proxies")] ++ (if names = [] then [] else [add 3 (item (q AUTO))]) ++
    (names.map fun name => add 3 (item (q name))) ++
    [add 3 (item (q DIRECT))]

/-- The group that picks the fastest node. -/
def autoLines (names : List Text) : List Text :=
  if names = [] then []
  else
    [add 1 (item (field "name" (q AUTO))), add 2 (field "type" (encode "url-test")),
      add 2 (field "url" (q TEST_URL)), add 2 (field "interval" (encode "300")),
      add 2 (field "tolerance" (encode "50")), add 2 (opening "proxies")] ++
    names.map fun name => add 3 (item (q name))

/-- The rules. -/
def ruleLines (group : Text) : List Text :=
  (RULES.map fun rule => add 1 (item (q rule))) ++ [add 1 (item (q (encode "MATCH," ++ group)))]

/-- The lines of `toClashConfig`. -/
def configLines (nodes : List ProxyNode) (opts : ClashOptions) : List Text :=
  let usable := nodes.filter isPortableNode
  let names := usable.map ProxyNode.name
  let group := groupAmong names (safeName opts.group (encode "SR-Panel"))
  commentLines group opts ++ settingLines ++
    (if usable = [] then [field "proxies" (encode "[]")] else opening "proxies" ::
      usable.flatMap proxyLines) ++
    (opening "proxy-groups" :: (selectLines names group ++ autoLines names)) ++
    (opening "rules" :: ruleLines group)

/-- `toClashConfig`. -/
def toClashConfig (nodes : List ProxyNode) (opts : ClashOptions) : Text :=
  [10].intercalate (configLines nodes opts) ++ [10]

end Clash

end SRPanel
