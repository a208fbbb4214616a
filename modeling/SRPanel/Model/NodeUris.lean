import SRPanel.Lib.Fresh
import SRPanel.Lib.Utf16
import SRPanel.Model.Subscription

/-!
# Share links in UTF-16

The renderers parse the share links back into nodes. Names are cut by code units, so that here texts
are what they are in the runtime. What the runtime does with URLs, percent escapes, base64 and JSON
is a parameter.
-/

namespace SRPanel

namespace Clash

open Utf16

/-! ## Texts -/

/-- White space and line ends, as `trim` knows them. -/
def isSpace (u : UInt16) : Bool :=
  (9 ≤ u.toNat && u.toNat ≤ 13) || (0x2000 ≤ u.toNat && u.toNat ≤ 0x200a) ||
    u ∈ [32, 0xa0, 0x1680, 0x2028, 0x2029, 0x202f, 0x205f, 0x3000, 0xfeff]

def trim (us : Text) : Text := (us.dropWhile isSpace).rdropWhile isSpace

/-- `toLowerCase`, as far as ASCII comes out of it: the Kelvin sign is a capital letter, too. -/
def lower (us : Text) : Text :=
  us.map fun u => if 65 ≤ u.toNat ∧ u.toNat ≤ 90 then .ofNat (u.toNat + 32) else if u =
    0x212a then 107 else u

/-- What stands before and behind the first occurrence. -/
def cutFirst (sep : Text) : Text → Option (Text × Text)
  | [] => none
  | u :: us =>
      if sep.isPrefixOf (u :: us) then some ([], (u :: us).drop sep.length)
      else (cutFirst sep us).map fun parts => (u :: parts.1, parts.2)

/-- What stands before and behind the last occurrence. -/
def cutLast (sep : UInt16) (us : Text) : Option (Text × Text) :=
  if sep ∈ us then some ((us.rdropWhile (· ≠ sep)).dropLast, us.rtakeWhile (· ≠ sep)) else none

/-- A number in decimal digits. -/
def numeral (n : ℕ) : Text := encode (toString n)

/-! ## The runtime -/

/-- `URL`, with `searchParams.get`. -/
structure Url where
  hostname : Text
  port : Text
  username : Text
  hash : Text
  get : Text → Option Text

/-- A field of a JSON object: a text, a number with what `String` makes of it, or anything else. -/
inductive JsonField
  | text (s : Text)
  | number (s : Text)
  | other

/-- The runtime below the parsers. -/
structure UriEnv where
  /-- `new URL(raw)` -/
  parseUrl : Text → Option Url
  decodeURIComponent : Text → Option Text
  /-- `Buffer.from(padded, "base64").toString("utf8")` -/
  base64 : Text → Text
  /-- `JSON.parse(text)` -/
  parseJson : Text → Option (Text → JsonField)

/-! ## Nodes -/

/-- `ProxyNode`; a text that is absent is empty. -/
structure ProxyNode where
  kind : NodeKind
  name : Text
  host : Text
  port : ℕ
  secret : Text
  method : Text
  network : NodeNetwork
  tls : NodeTls
  sni : Text
  alpn : List Text
  fingerprint : Text
  insecure : Bool
  flow : Text
  /-- the public key and the short id -/
  reality : Option (Text × Text)
  path : Text
  hostHeader : Text
  serviceName : Text
  headerType : Text
  earlyData : ℕ

/-- `ShareLink`. -/
inductive ShareLink
  | uri (uri : Text)
  | row (uri remark : Text)

def isPortableNode (node : ProxyNode) : Bool :=
  node.network ∈ [.tcp, .ws, .grpc, .httpupgrade] &&
    !(node.network = .tcp && node.headerType ≠ [] && node.headerType ≠ encode "none")

section

variable (env : UriEnv)

def decodeB64 (raw : Text) : Text :=
  let clean := (trim raw).map fun u => if u = 45 then 43 else if u = 95 then 47 else u
  if clean = [] then [] else env.base64 (clean ++ List.replicate ((4 - clean.length % 4) % 4) 61)

def tryDecode (value : Text) : Text :=
  if value = [] then [] else (env.decodeURIComponent value).getD value

def normalizeHost (raw : Text) : Text :=
  let host := trim raw
  if host.head? = some 91 ∧ host.getLast? = some 93 then (host.drop 1).dropLast else host

def isDigit (u : UInt16) : Bool := 48 ≤ u.toNat && u.toNat ≤ 57

/-- `pickInt`: zero stands for what is no positive number. -/
def pickInt (raw : Text) : ℕ :=
  let us := trim raw
  if us.head? = some 45 then 0
  else
    let digits := (if us.head? = some 43 then us.drop 1 else us).takeWhile isDigit
    digits.foldl (fun n u => 10 * n + (u.toNat - 48)) 0

def pickPort (raw : Text) : ℕ := if pickInt raw < 65536 then pickInt raw else 0

def truthy (raw : Text) : Bool := lower (trim raw) ∈ [encode "1", encode "true", encode "yes"]

def splitAlpn (raw : Text) : List Text := ((raw.splitOn 44).map trim).filter (· ≠ [])

def networkOf (raw : Text) : NodeNetwork :=
  let value := lower (trim raw)
  if value = encode "ws" ∨ value = encode "websocket" then .ws
  else if value = encode "grpc" ∨ value = encode "gun" then .grpc
  else if value = encode "httpupgrade" then .httpupgrade
  else if value = encode "h2" ∨ value = encode "http" then .h2
  else if value = encode "kcp" ∨ value = encode "mkcp" then .kcp
  else if value = encode "xhttp" then .xhttp
  else if value = encode "splithttp" then .splithttp
  else .tcp

def tlsOf (raw : Text) : NodeTls :=
  let value := lower (trim raw)
  if value = encode "reality" then .reality
  else if value = encode "tls" ∨ value = encode "xtls" then .tls
  else .none

/-- The early data that a part of a query asks for. -/
def earlyDataOf (earlyData : ℕ) (part : Text) : ℕ :=
  let (key, value) := (cutFirst [61] part).getD (part, [])
  if lower (trim key) = encode "ed" then pickInt value else earlyData

/-- `splitPath`. -/
def splitPath (raw : Text) : Text × ℕ :=
  match cutFirst [63] (trim raw) with
  | none => (trim raw, 0)
  | some (path, query) => (path, (query.splitOn 38).foldl earlyDataOf 0)

/-! ## Names -/

/-- `codePointAt(0)` of a code point. -/
def codePoint : Text → ℕ
  | [u] => u.toNat
  | u :: v :: _ => 0x10000 + (u.toNat - 0xd800) * 0x400 + (v.toNat - 0xdc00)
  | [] => 0

/-- The loop of `cleanName` and of `safeName`: the code points that are not dropped, trimmed. -/
def stripped (drop : ℕ → Bool) (raw : Text) : Text :=
  trim ((points raw).filter fun p => !drop (codePoint p)).flatten

/-- The characters that `cleanName` drops. -/
def isControl (code : ℕ) : Bool := code < 32 || code = 127

/-- `cleanName`. -/
def cleanName (raw fallback : Text) : Text :=
  let out := stripped isControl raw
  if out = [] then fallback
  else if 60 < out.length then trim (out.take 60)
  else out

/-- The names that `uniqueName` tries: `raw`, `raw 2`, `raw 3`, … -/
def numbered (raw : Text) : ℕ → Text
  | 0 => raw
  | k + 1 => raw ++ (32 :: numeral (k + 2))

/-- `uniqueName`, which tries at most as many names as are used and one more. -/
def uniqueName (raw : Text) (used : List Text) : Text :=
  Fresh.firstFree (numbered raw) used (used.length + 1) 0

/-! ## Parsers -/

/-- The label behind a `#`. -/
def hashLabel (body : Text) : Text :=
  ((cutFirst [35] body).map fun parts => tryDecode env parts.2).getD []

/-- The text before a `#`. -/
def beforeHash (body : Text) : Text := ((cutFirst [35] body).map Prod.fst).getD body

/-- `raw.slice(raw.indexOf("://") + 3)`. -/
def bodyOf (raw : Text) : Text := ((cutFirst (encode "://") raw).map Prod.snd).getD (raw.drop 2)

/-- `parseUrlLike`. -/
def parseUrlLike (kind : NodeKind) (raw fallbackName : Text) : Option ProxyNode :=
  (env.parseUrl raw).bind fun url =>
    let host := normalizeHost url.hostname
    let port := pickPort url.port
    let secret := tryDecode env url.username
    if host = [] ∨ port = 0 ∨ secret = [] then none
    else
      let q := fun key => (url.get (encode key)).getD []
      let publicKey := trim (q "pbk")
      let headerType := trim (q "headerType")
      some
        { kind, host, port, secret
          name := cleanName (tryDecode env (url.hash.drop 1)) fallbackName
          method := []
          network := networkOf (q "type")
          tls := tlsOf (q "security")
          sni := trim (q "sni")
          alpn := splitAlpn (q "alpn")
          fingerprint := trim (q "fp")
          insecure := truthy (q "allowInsecure") || truthy (q "insecure")
          flow := trim (q "flow")
          reality :=
            if tlsOf (q "security") = .reality ∧
              publicKey ≠ [] then some (publicKey, trim (q "sid")) else none
          path := (splitPath (q "path")).1
          earlyData := (splitPath (q "path")).2
          hostHeader := trim (q "host")
          serviceName := trim (q "serviceName")
          headerType := if headerType = encode "none" then [] else headerType }

/-- The JSON object of a vmess link. -/
def vmessFields (body : Text) : Option (Text → JsonField) :=
  let text := decodeB64 env (beforeHash body)
  if text.head? = some 123 then env.parseJson text else none

/-- `str`. -/
def str (fields : Text → JsonField) (key : String) : Text :=
  match fields (encode key) with
  | .text s => trim s
  | .number s => s
  | .other => []

/-- The label of a vmess link. -/
def vmessLabel (body : Text) (fields : Text → JsonField) : Text :=
  if str fields "ps" = [] then hashLabel env body else str fields "ps"

/-- `parseVmess`. -/
def parseVmess (raw fallbackName : Text) : Option ProxyNode :=
  let body := bodyOf raw
  (vmessFields env body).bind fun fields =>
    let host := normalizeHost (str fields "add")
    let port := pickPort (str fields "port")
    let secret := str fields "id"
    if host = [] ∨ port = 0 ∨ secret = [] then none
    else
      let network := networkOf (str fields "net")
      let headerType := str fields "type"
      some
        { kind := .vmess, host, port, secret, network
          name := cleanName (vmessLabel env body fields) fallbackName
          method := str fields "scy"
          tls := tlsOf (str fields "tls")
          sni := str fields "sni"
          alpn := splitAlpn (str fields "alpn")
          fingerprint := str fields "fp"
          insecure := false
          flow := []
          reality := none
          path := if network = .grpc then [] else (splitPath (str fields "path")).1
          earlyData := if network = .grpc then 0 else (splitPath (str fields "path")).2
          hostHeader := str fields "host"
          -- the JSON has no field of its own for it
          serviceName := if network = .grpc then str fields "path" else []
          headerType := if headerType = encode "none" then [] else headerType }

/-- `ssNode`. -/
def ssNode (creds hostPort name : Text) : Option ProxyNode :=
  match cutFirst [58] creds, cutLast 58 hostPort with
  | some (method, password), some (host, port) =>
      if method = [] ∨ host = [] then none
      else if normalizeHost host = [] ∨ pickPort port = 0 ∨ trim method = [] ∨
        password = [] then none
      else
        some
          { kind := .ss, name, host := normalizeHost host, port := pickPort port, secret := password
            method := trim method, network := .tcp, tls := .none, sni := [], alpn := [],
              fingerprint := []
            insecure := false, flow := [], reality := none, path := [], hostHeader := [],
              serviceName := []
            headerType := [], earlyData := 0 }
  | _, _ => none

/-- `parseSs`. -/
def parseSs (raw fallbackName : Text) : Option ProxyNode :=
  let body := bodyOf raw
  let name := cleanName (hashLabel env body) fallbackName
  let (core, query) := (cutFirst [63] (beforeHash body)).getD (beforeHash body, [])
  if (cutFirst (encode "plugin") (lower query)).isSome then none
  else
    match (cutLast 64 core).filter fun parts => parts.1 ≠ [] with
    | some (head, hostPort) =>
        ssNode (if 58 ∈ head then tryDecode env head else decodeB64 env head)
          (tryDecode env hostPort) name
    | none =>
        match (cutLast 64 (decodeB64 env core)).filter fun parts => parts.1 ≠ [] with
        | some (creds, hostPort) => ssNode creds hostPort name
        | none => none

/-- `parseShareUri`. -/
def parseShareUri (link : ShareLink) (fallbackName : Text) : Option ProxyNode :=
  let (uri, remark) := match link with
    | .uri uri => (uri, [])
    | .row uri remark => (uri, trim remark)
  let raw := trim uri
  (cutFirst (encode "://") raw).bind fun parts =>
    let name := cleanName remark fallbackName
    let scheme := lower parts.1
    if scheme = encode "vless" then parseUrlLike env .vless raw name
    else if scheme = encode "trojan" then parseUrlLike env .trojan raw name
    else if scheme = encode "vmess" then parseVmess env raw name
    else if scheme = encode "ss" then parseSs env raw name
    else none

/-- The nodes of the links from `index` on, with names that are not used. -/
def parseFrom (fallbackPrefix : Text) : (index : ℕ) → (used : List Text) → List ShareLink →
    List ProxyNode
  | _, _, [] => []
  | index, used, link :: links =>
      match parseShareUri env link (fallbackPrefix ++ (32 :: numeral index)) with
      | none => parseFrom fallbackPrefix (index + 1) used links
      | some node =>
          let name := uniqueName node.name used
          { node with name } :: parseFrom fallbackPrefix (index + 1) (name :: used) links

/-- `parseShareUris`. -/
def parseShareUris (links : List ShareLink) (fallbackPrefix : Text) : List ProxyNode :=
  parseFrom env fallbackPrefix 1 [] links

end

end Clash

end SRPanel
