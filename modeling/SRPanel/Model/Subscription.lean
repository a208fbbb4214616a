import SRPanel.Model.Clients

/-!
# The subscription of a client

What the endpoint `/sub/<token>` serves: the client's own links with an information line, the
external links of the panel owner, and the four dialects in which the apps read them. How a share
URI is written for an inbound and how it is read back are parameters, like the remote lists that
external links fetch.
-/

namespace SRPanel

/-! ## Nodes -/

inductive NodeKind
  | vless
  | vmess
  | trojan
  | ss
  deriving DecidableEq

inductive NodeNetwork
  | tcp
  | ws
  | grpc
  | httpupgrade
  | h2
  | kcp
  | xhttp
  | splithttp
  deriving DecidableEq

inductive NodeTls
  | none
  | tls
  | reality
  deriving DecidableEq

/-- `ProxyNode`; a text that is absent is empty. -/
structure ProxyNode where
  kind : NodeKind
  name : String
  host : String
  port : ℕ
  secret : String
  method : String
  network : NodeNetwork
  tls : NodeTls
  sni : String
  alpn : List String
  fingerprint : String
  insecure : Bool
  flow : String
  /-- the public key and the short id -/
  reality : Option (String × String)
  path : String
  hostHeader : String
  serviceName : String
  headerType : String
  earlyData : ℕ
  deriving DecidableEq

/-- `ShareLink`: a raw URI, or a row of a payload with its remark. -/
structure ShareLink where
  uri : String
  remark : Option String
  deriving DecidableEq

/-- `isPortableNode`. -/
def isPortableNode (node : ProxyNode) : Bool :=
  node.network ∈ [.tcp, .ws, .grpc, .httpupgrade] &&
    !(node.network = .tcp && node.headerType ≠ "" && node.headerType ≠ "none")

/-- The first of the names `raw`, `raw 2`, `raw 3`, … from `counter` on that is not used, of `n`
tries. -/
def freeName (raw : String) (used : List String) : (n counter : ℕ) → (name : String) → String
  | 0, _, name => name
  | n + 1, counter, name =>
      if name ∈ used then freeName raw used n (counter + 1)
        (raw ++ " " ++ toString counter) else name

/-- `uniqueName`, which tries at most as many names as are used and one more. -/
def uniqueName (raw : String) (used : List String) : String :=
  freeName raw used (used.length + 1) 2 raw

/-! ## External links -/

inductive ExternalKind
  | uri
  | sub
  deriving DecidableEq

/-- `ExternalLink`. -/
structure ExternalLink where
  enabled : Bool
  kind : ExternalKind
  value : String
  deriving DecidableEq

/-- What the endpoint uses besides the site. -/
structure SubEnv where
  /-- the token that was drawn for a client -/
  subToken : Draw → String
  /-- the names of the brands of the admins -/
  brands : Table AdminId String
  /-- `DEFAULT_BRAND.name` -/
  defaultBrand : String
  externalLinks : List ExternalLink
  /-- the text that the fetch of a remote list gave last; an error is `none` -/
  fetched : String → Option String
  /-- `decodeB64` -/
  decodeB64 : String → String
  /-- `inbound.remark || inbound.protocol` -/
  inboundRemark : ServerId → StoredInbound → String
  /-- `buildLinks`, with the host of the server -/
  buildLinks : ServerId → StoredInbound → (uuid : Draw) → (email remark : String) → List String
  /-- `parseShareUri`, with the name for a node that has none -/
  parseShareUri : ShareLink → String → Option ProxyNode

/-- `NODE_SCHEMES`. -/
def NODE_SCHEMES : List String :=
  ["vless", "vmess", "trojan", "ss", "ssr", "hysteria", "hysteria2", "hy2", "tuic",
    "wireguard", "anytls", "snell", "juicity", "socks5"]

/-- The text before the first `://`. -/
def beforeScheme : List Char → Option (List Char)
  | ':' :: '/' :: '/' :: _ => some []
  | c :: rest => (beforeScheme rest).map (c :: ·)
  | [] => none

/-- `isNodeUri`. -/
def isNodeUri (value : String) : Bool :=
  match beforeScheme value.toList with
  | none => false
  | some scheme => scheme ≠ [] && ' ' ∉ value.toList && lower (.ofList scheme) ∈ NODE_SCHEMES

/-- `text.split("\n")`. -/
def linesOf (text : String) : List String := (text.toList.splitOn '\n').map String.ofList

/-- `lines.join("\n")`. -/
def joinLines (lines : List String) : String :=
  .ofList (['\n'].intercalate (lines.map String.toList))

def MAX_PER_ENTRY : ℕ := 40

def MAX_TOTAL : ℕ := 120

def BODY_LIMIT : ℕ := 256 * 1024

/-- `urisFrom`. -/
def urisFrom (x : SubEnv) (text : String) : List String :=
  ((linesOf (if includes text "://" then text else x.decodeB64 text)).map trim).filter isNodeUri

/-- `fetchSub`, less its error text. -/
def fetchSub (x : SubEnv) (url : String) : List String :=
  match x.fetched url with
  | none => []
  | some text => (urisFrom x (sliceTo BODY_LIMIT text)).take MAX_PER_ENTRY

/-- The URIs of an entry. -/
def entryUris (x : SubEnv) (entry : ExternalLink) : List String :=
  match entry.kind with
  | .uri => if isNodeUri entry.value then [entry.value] else []
  | .sub => fetchSub x entry.value

/-- Add a URI that is new while there is room. -/
def addUri (uris : List String) (uri : String) : List String :=
  if uri ∈ uris || MAX_TOTAL ≤ uris.length then uris else uris ++ [uri]

/-- `resolveExternalUris`, less the status of each entry. -/
def resolveExternalUris (x : SubEnv) : List String :=
  ((x.externalLinks.filter ExternalLink.enabled).flatMap (entryUris x)).foldl addUri []

/-! ## The payload -/

/-- `VOID_URI`: apps list it but can never dial it. -/
def VOID_URI : String :=
  "vless://00000000-0000-0000-0000-000000000000@127.0.0.1:1?type=tcp&security=none#"

/-- A digit of `%XX`. -/
def hexUpper (n : ℕ) : Char :=
  if n < 10 then .ofNat ('0'.toNat + n) else .ofNat ('A'.toNat + n - 10)

/-- The characters that `encodeURIComponent` leaves as they are. -/
def isUnreserved (c : Char) : Bool := c.isAlphanum || c ∈ "-_.!~*'()".toList

/-- `encodeURIComponent`. -/
def encodeURIComponent (s : String) : String :=
  .ofList (s.toList.flatMap fun c =>
    if isUnreserved c then [c]
    else (String.utf8EncodeChar c).flatMap fun b =>
      ['%', hexUpper (b.toNat / 16), hexUpper (b.toNat % 16)])

/-- `voidConfig`. -/
def voidConfig (remark : String) : String := VOID_URI ++ encodeURIComponent remark

/-- A number of tenths, as JavaScript prints it. -/
def printTenths (n : ℤ) : String :=
  if n % 10 = 0 then toString (n / 10) else toString (n / 10) ++ "." ++ toString (n % 10)

/-- `humanBytes`. -/
def humanBytes (bytes : ℤ) : String :=
  let gb : ℚ := bytes / GB
  if 100 ≤ gb then toString (mathRound gb) ++ "GB"
  else if 1 ≤ gb then printTenths (mathRound (gb * 10)) ++ "GB"
  else toString (max 0 (mathRound ((bytes : ℚ) / 1024 ^ 2))) ++ "MB"

/-- `infoRemark`. -/
def infoRemark (usedBytes trafficLimit : ℤ) (daysLeft : Option ℤ) (pending : Bool) : String :=
  let volume := if 0 < trafficLimit then humanBytes usedBytes ++ " / " ++ humanBytes trafficLimit
    else humanBytes usedBytes ++ " / ∞"
  let days := match daysLeft with
    | none => if pending then "شروع پس از اتصال" else "بدون انقضا"
    | some d => if 0 < d then toString d ++ " روز" else "منقضی"
  "ℹ️ " ++ volume ++ " · " ++ days

/-- `statusLabel`. -/
def statusLabel : ClientStatus → String
  | .expired => "منقضی شده"
  | .limited => "حجم به پایان رسیده"
  | .disabled => "غیرفعال"
  | .active => "فعال"

/-- `statusNotice`. -/
def statusNotice (status : ClientStatus) (brandName : String) : String :=
  voidConfig (brandName ++ " • " ++
    if status = .active then "سروری در دسترس نیست" else statusLabel status)

/-- `SubscriptionPayload`, less what only the page of the client shows. -/
structure SubscriptionPayload where
  clientName : String
  brandName : String
  links : List ShareLink
  infoUri : String
  /-- the text whose base64 encoding is the field `base64` -/
  base64 : String
  deriving DecidableEq

namespace Site

/-- The remark of a link: the server and the inbound only where they tell links apart. -/
def linkRemark (x : SubEnv) (c : Client) (links : List (LinkKey × ClientServer)) (server : Server)
    (inbound : StoredInbound) (key : LinkKey) : String :=
  " • ".intercalate (configLabel c ::
    ((if 1 < (links.map fun l => l.1.serverId).dedup.length then [server.name] else []) ++
      if 1 < (links.filter fun l => l.1.serverId = key.serverId).length then
        [x.inboundRemark key.serverId inbound] else []))

/-- The share links of one link of a client; a server or an inbound that is off has none. -/
def shareLinks (s : Site) (x : SubEnv) (c : Client) (links : List (LinkKey × ClientServer))
    (link : LinkKey × ClientServer) : List ShareLink :=
  match s.servers.get? link.1.serverId with
  | none => []
  | some server =>
      if !server.isActive then []
      else match server.inbound? link.1.inboundId with
        | none => []
        | some inbound =>
            if !inbound.enable then []
            else
              let remark := linkRemark x c links server inbound link.1
              (x.buildLinks link.1.serverId inbound c.uuid link.2.remoteEmail remark).map fun uri =>
                ⟨uri, some remark⟩

/-- The name of the brand of a seller, or the one of the panel owner. -/
def brandOf (s : Site) (x : SubEnv) (adminId : AdminId) : String :=
  match x.brands.get? adminId with
  | some name => name
  | none =>
      match ((s.base.admins.rows.filter fun r => r.2.role = .owner).map Prod.fst).min? with
      | none => x.defaultBrand
      | some owner => (x.brands.get? owner).getD x.defaultBrand

/-- The client of a token. -/
def clientOfToken (s : Site) (x : SubEnv) (token : String) : Option (ClientId × Client) :=
  s.clients.rows.find? fun r => x.subToken r.2.subToken = token

/-- `buildSubscription`, once the client is found. -/
def subscriptionOf (s : Site) (x : SubEnv) (id : ClientId) (c : Client) : SubscriptionPayload :=
  let links :=
    if c.status = .active then (s.linksOf id).flatMap (s.shareLinks x c (s.linksOf id)) else []
  let used := c.usedUp + c.usedDown
  let daysLeft := c.expiresAt.map fun e => ⌈((e - s.base.now : ℤ) : ℚ) / DAY_MS⌉
  let infoUri := voidConfig (infoRemark used c.trafficLimit daysLeft
    (c.expiresAt.isNone && c.status = .active && used = 0))
  let brandName := s.brandOf x c.adminId
  ⟨c.name, brandName, links, infoUri,
    joinLines (infoUri :: if links ≠
      [] then links.map ShareLink.uri else [statusNotice c.status brandName])⟩

/-- `buildSubscription`. -/
def buildSubscription (s : Site) (x : SubEnv) (token : String) : Option SubscriptionPayload :=
  (s.clientOfToken x token).map fun r => s.subscriptionOf x r.1 r.2

end Site

end SRPanel
