import SRPanel.Model.Text
import Mathlib.Data.List.DropRight

/-!
# Addresses of inbounds

`resolveInboundAddress` looks for the address that a client dials: first in what is stored on the
inbound, then on the server. The URL parser of the runtime is a parameter.
-/

namespace SRPanel

namespace Hosts

/-- `new URL(text).hostname`, if the text is a URL. -/
abbrev UrlParser := String → Option String

/-! ## Stored values -/

/-- A stored value: absent or otherwise falsy, a text, or anything else, with what `String` makes of
it. -/
inductive Stored
  | falsy
  | text (s : String)
  | other (s : String)
  deriving DecidableEq

/-- `a || b`. -/
def Stored.or : Stored → Stored → Stored
  | .falsy, b => b
  | .text s, b => if s = "" then b else .text s
  | .other s, _ => .other s

/-- `String(a || fallback)`. -/
def Stored.textOr (fallback : String) : Stored → String
  | .falsy => fallback
  | .text s => if s = "" then fallback else s
  | .other s => s

/-! ## Hosts -/

/-- `/^[a-z][a-z0-9+.-]*:\/\//i.test(host)`. -/
def hasScheme : List Char → Bool
  | [] => false
  | c :: cs =>
      c.isAlpha && "://".toList.isPrefixOf (cs.dropWhile fun c =>
        c.isAlphanum || c = '+' || c = '.' || c = '-')

/-- The separators `[,\s;|]` of a list. -/
def isSeparator (c : Char) : Bool := c = ',' || Unicode.isWhite c || c = ';' || c = '|'

/-- What a host in brackets, or with a port, is reduced to. -/
def dropPort : List Char → List Char
  | '[' :: rest =>
      if ']' ∈ rest && (rest.takeWhile (· ≠ ']')) ≠ [] then rest.takeWhile (· ≠ ']') else rest
  | host => if host.count ':' = 1 then host.takeWhile (· ≠ ':') else host

/-- `host.startsWith("*.")`, or `host === "*"`. -/
def isWildcard : List Char → Bool
  | ['*'] => true
  | '*' :: '.' :: _ => true
  | _ => false

/-- The steps of `normalizeHostValue` behind the URL parser. -/
def bareHost (host : String) : String :=
  let item := host.toList.takeWhile (!isSeparator ·)
  let host := (item.dropWhile (· = '/')).takeWhile (· ≠ '/')
  let host := lower (.ofList ((dropPort host).rdropWhile (· = '.')))
  if isWildcard host.toList then "" else host

/-- `normalizeHostValue`; the empty text stands for nothing usable. -/
def normalizeHostValue (url : UrlParser) : Stored → String
  | .text value =>
      let host := trim value
      if host = "" then ""
      else if hasScheme host.toList then ((url host).map bareHost).getD ""
      else bareHost host
  | _ => ""

/-- The groups of `/^(\d{1,3})\.(\d{1,3})\.(\d{1,3})\.(\d{1,3})$/`, as numbers. -/
def ipv4Groups (host : List Char) : Option (List ℕ) :=
  let parts := host.splitOn '.'
  if parts.length = 4 && parts.all fun p => p ≠ [] && p.length ≤ 3 && p.all Char.isDigit then
    some (parts.map digitsValue)
  else none

/-- `isPrivateV4`. -/
def isPrivateV4 (host : List Char) : Bool :=
  match ipv4Groups host with
  | some (a :: b :: _) =>
      a = 0 || a = 10 || a = 127 || a = 255 || 224 ≤ a || (a = 169 && b = 254) ||
        (a = 172 && 16 ≤ b && b ≤ 31) || (a = 192 && b = 168) || (a = 100 && 64 ≤ b && b ≤ 127)
  | _ => false

/-- The suffixes of `PRIVATE_SUFFIX`. -/
def PRIVATE_SUFFIX : List String :=
  ["local", "lan", "internal", "intranet", "localdomain", "invalid", "test", "example", "arpa"]

/-- `host.endsWith(suffix)`. -/
def endsWith (host : List Char) (suffix : String) : Bool := suffix.toList.isSuffixOf host

/-- `/^f[cd]/.test(host) || /^fe[89ab]/.test(host)`. -/
def isLocalV6 : List Char → Bool
  | 'f' :: 'c' :: _ => true
  | 'f' :: 'd' :: _ => true
  | 'f' :: 'e' :: c :: _ => c = '8' || c = '9' || c = 'a' || c = 'b'
  | _ => false

/-- `isRoutableAddress`. -/
def isRoutableAddress (url : UrlParser) (value : Stored) : Bool :=
  let host := (normalizeHostValue url value).toList
  if host = [] then false
  else if host = "localhost".toList || endsWith host ".localhost" then false
  else if (ipv4Groups host).isSome then !isPrivateV4 host
  else if ':' ∈ host then
    if host = "::".toList || host = "::0".toList ||
      host = "::1".toList then false else !isLocalV6 host
  else if '.' ∉ host then false
  else !(PRIVATE_SUFFIX.any fun suffix => endsWith host ("." ++ suffix))

/-! ## Inbounds -/

/-- The host of a transport, with the `Host` and `host` headers. -/
structure HostSettings where
  host : Stored
  headerHost : Stored
  headerhost : Stored
  deriving DecidableEq

/-- Settings that are absent. -/
def HostSettings.blank : HostSettings := ⟨.falsy, .falsy, .falsy⟩

/-- `streamSettings`, as far as addresses depend on it. -/
structure StreamSettings where
  network : Stored
  security : Stored
  wsSettings : Option HostSettings
  httpupgradeSettings : Option HostSettings
  xhttpSettings : Option HostSettings
  splithttpSettings : Option HostSettings
  /-- `grpcSettings?.authority` -/
  authority : Stored
  /-- `httpSettings.host`, or its first entry -/
  httpHost : Stored
  /-- `tlsSettings.serverName` -/
  serverName : Stored
  /-- `tlsSettings.settings?.serverName` -/
  settingsServerName : Stored
  deriving DecidableEq

/-- `AddressableInbound`. -/
structure AddressableInbound where
  listen : Stored
  streamSettings : StreamSettings
  shareAddr : Stored
  nodeAddress : Stored
  deriving DecidableEq

/-- `transportHostOf`. -/
def transportHostOf (url : UrlParser) (ss : StreamSettings) : String :=
  match ss.network.textOr "tcp" with
  | "ws" =>
      let w := ss.wsSettings.getD .blank
      normalizeHostValue url ((w.host.or w.headerHost).or w.headerhost)
  | "httpupgrade" =>
      let w := ss.httpupgradeSettings.getD .blank
      normalizeHostValue url (w.host.or w.headerHost)
  | "xhttp" | "splithttp" =>
      let w := (ss.xhttpSettings.or ss.splithttpSettings).getD .blank
      normalizeHostValue url (w.host.or w.headerHost)
  | "grpc" => normalizeHostValue url ss.authority
  | "http" | "h2" => normalizeHostValue url ss.httpHost
  | _ => ""

/-! ## Resolution -/

/-- `InboundAddressSource`; external proxies are resolved for each endpoint. -/
inductive InboundAddressSource
  | shareAddr
  | nodeAddress
  | listen
  | sni
  | transportHost
  | serverPublicHost
  | panelIp
  | panelUrl
  | unknown
  deriving DecidableEq

/-- `ResolvedInboundAddress`. -/
structure ResolvedInboundAddress where
  host : String
  source : InboundAddressSource
  deriving DecidableEq

/-- What the panel reports as its IP: a text, an object with these keys, or anything else. -/
inductive PublicIp
  | text (s : String)
  | record (ipv4 ip4 v4 ip ipv6 ip6 v6 : PublicIp)
  | other

/-- `InboundAddressContext`. -/
structure InboundAddressContext where
  publicHost : Stored
  baseUrl : Option String
  publicIp : PublicIp
  preferServerHost : Bool

/-- `pushCandidate`. -/
def pushCandidate (url : UrlParser) (out : List ResolvedInboundAddress) (value : Stored)
    (source : InboundAddressSource) : List ResolvedInboundAddress :=
  let host := normalizeHostValue url value
  if host = "" || !isRoutableAddress url (.text host) then out
  else if out.any fun c => c.host = host then out
  else out ++ [⟨host, source⟩]

/-- `inboundAddressCandidates`. -/
def inboundAddressCandidates (url : UrlParser) (inbound : AddressableInbound) :
    List ResolvedInboundAddress :=
  let ss := inbound.streamSettings
  let out := pushCandidate url [] inbound.shareAddr .shareAddr
  let out := pushCandidate url out inbound.nodeAddress .nodeAddress
  let out := pushCandidate url out inbound.listen .listen
  if ss.security.textOr "none" = "tls" then
    let out := pushCandidate url out ss.serverName .sni
    let out := pushCandidate url out ss.settingsServerName .sni
    pushCandidate url out (.text (transportHostOf url ss)) .transportHost
  else out

/-- `weakAddressCandidates`. -/
def weakAddressCandidates (url : UrlParser) (inbound : AddressableInbound) :
    List ResolvedInboundAddress :=
  let ss := inbound.streamSettings
  if ss.security.textOr "none" ≠ "none" then []
  else pushCandidate url [] (.text (transportHostOf url ss)) .transportHost

/-- `a || b` on texts. -/
def orText (a b : String) : String := if a = "" then b else a

/-- `publicIpOf`. -/
def publicIpOf (url : UrlParser) : PublicIp → String
  | .text s => if isRoutableAddress url (.text s) then normalizeHostValue url (.text s) else ""
  | .record ipv4 ip4 v4 ip ipv6 ip6 v6 =>
      orText (publicIpOf url ipv4) <| orText (publicIpOf url ip4) <| orText (publicIpOf url v4) <|
        orText (publicIpOf url ip) <| orText (publicIpOf url ipv6) <|
          orText (publicIpOf url ip6) (publicIpOf url v6)
  | .other => ""

/-- `panelHostOf`. -/
def panelHostOf (url : UrlParser) : Option String → String
  | none => ""
  | some baseUrl =>
      if baseUrl = "" then "" else normalizeHostValue url (.text ((url baseUrl).getD baseUrl))

/-- `resolveInboundAddress`. -/
def resolveInboundAddress (url : UrlParser) (inbound : AddressableInbound)
    (ctx : InboundAddressContext) : ResolvedInboundAddress :=
  let serverHost := normalizeHostValue url ctx.publicHost
  if ctx.preferServerHost && serverHost ≠ "" then ⟨serverHost, .serverPublicHost⟩
  else
    match inboundAddressCandidates url inbound with
    | strong :: _ => strong
    | [] =>
        if serverHost ≠ "" then ⟨serverHost, .serverPublicHost⟩
        else
          match weakAddressCandidates url inbound with
          | weak :: _ => weak
          | [] =>
              if publicIpOf url ctx.publicIp ≠ "" then ⟨publicIpOf url ctx.publicIp, .panelIp⟩
              else if panelHostOf url ctx.baseUrl ≠ "" then ⟨panelHostOf url ctx.baseUrl, .panelUrl⟩
              else ⟨"", .unknown⟩

end Hosts

end SRPanel
