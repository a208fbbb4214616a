import Mathlib.Data.List.DropRight
import SRPanel.Lib.JsonObject
import SRPanel.Lib.Percent
import SRPanel.Model.Mailer

/-!
# Credentials

The texts with which a client is let in: what the panel is told for a client (`provisionInput`,
`buildClientObject`), what the share links carry (`buildLinks`) and what is read from them
(`parseShareUri`), and what an import takes over from a panel (`scanPanelClients`). The other
columns of a remote client are in `Model/Panels`.
-/

namespace SRPanel

namespace Credentials

/-- The text without its dashes. -/
def dropDashes (s : String) : String := .ofList (s.toList.filter (· ≠ '-'))

/-! ## Inbounds -/

/-- An entry of `settings.clients`; a field that is absent or null is `none`. -/
structure PanelEntry where
  email : Option String
  id : Option String
  password : Option String
  flow : Option String
  deriving DecidableEq

/-- `PanelInbound`, as far as credentials depend on it. -/
structure PanelInbound where
  id : ℕ
  protocol : String
  /-- `settings.method` -/
  method : Option String
  /-- `settings.password` -/
  password : Option String
  clients : List PanelEntry
  /-- `streamSettings.security` -/
  security : String
  /-- `streamSettings.network || "tcp"` -/
  network : String
  deriving DecidableEq

/-- `String(inbound.settings?.method || "aes-256-gcm")`. -/
def PanelInbound.cipher (inbound : PanelInbound) : String :=
  (inbound.method.bind orNull).getD "aes-256-gcm"

/-! ## Provisioning -/

/-- `ProvisionClientInput`. -/
structure ProvisionClientInput where
  uuid : String
  flow : Option String
  ssMethod : Option String

/-- `provisionInput`, which names no cipher. -/
def provisionInput (uuid flow : String) : ProvisionClientInput := ⟨uuid, some flow, none⟩

/-- `shadowsocksPassword`, with the digest of the runtime. -/
def shadowsocksPassword (sha256 : List UInt8 → List UInt8) (method seed : String) : String :=
  let m := lower method
  if includes m "2022" then
    let bytes := if includes m "aes-128" then 16 else 32
    .ofList (b64Bytes ((sha256 (seed.toList.flatMap String.utf8EncodeChar)).take bytes))
  else dropDashes seed

/-- The credentials of `buildClientObject`. -/
structure ClientObject where
  id : Option String
  password : Option String
  method : Option String
  flow : Option String
  security : Option String
  deriving DecidableEq

/-- `buildClientObject`. -/
def buildClientObject (sha256 : List UInt8 → List UInt8) (protocol : String)
    (c : ProvisionClientInput) : ClientObject :=
  if protocol = "vmess" then ⟨some c.uuid, none, none, none, some "auto"⟩
  else if protocol = "trojan" then ⟨none, some c.uuid, none, some "", none⟩
  else if protocol = "shadowsocks" then
    ⟨none, some (shadowsocksPassword sha256 (c.ssMethod.getD "") c.uuid),
      some (c.ssMethod.getD ""), none, none⟩
  else ⟨some c.uuid, none, none, some (c.flow.getD ""), none⟩

/-! ## Share links -/

structure Endpoint where
  host : String
  port : ℕ
  security : String
  remark : String
  deriving DecidableEq

/-- A share link, as its credentials and the endpoint that they are for. -/
inductive ShareLink
  | vmess (id : String) (ep : Endpoint)
  | trojan (password : String) (ep : Endpoint)
  /-- the password is `serverKey:clientKey`, or the client's key alone -/
  | ss (method : String) (serverKey : Option String) (clientKey : String) (ep : Endpoint)
  | vless (id flow : String) (ep : Endpoint)
  deriving DecidableEq

/-- What a link shows of the client. -/
def ShareLink.secret : ShareLink → String
  | vmess id _ => id
  | trojan password _ => password
  | ss _ _ clientKey _ => clientKey
  | vless id _ _ => id

/-- What the stream settings and the remark of an endpoint add to its links. -/
structure LinkExtras where
  /-- `params.toString()`, for a flow -/
  query : Endpoint → String → String
  /-- the fields of `obj` that come from the stream settings -/
  stream : Endpoint → String → String
  /-- `encodeURIComponent(ep.remark)` -/
  label : Endpoint → String

/-- `obj` of a vmess link. -/
def vmessObject (extras : LinkExtras) (id : String) (ep : Endpoint) : List (String × String) :=
  [("v", "2"), ("ps", ep.remark), ("add", ep.host), ("port", toString ep.port), ("id", id),
    ("aid", "0"), ("scy", "auto"), ("net", extras.stream ep "net"),
    ("type", extras.stream ep "type"),
    ("host", extras.stream ep "host"), ("path", extras.stream ep "path"),
    ("tls", if ep.security = "tls" then "tls" else ""), ("sni", extras.stream ep "sni"),
    ("fp", extras.stream ep "fp"), ("alpn", extras.stream ep "alpn")]

/-- The text of a link. -/
def ShareLink.uri (extras : LinkExtras) : ShareLink → String
  | vmess id ep => "vmess://" ++ b64 (JsonObject.stringify (vmessObject extras id ep))
  | trojan password ep =>
      "trojan://" ++ password ++ "@" ++ ep.host ++ ":" ++ toString ep.port ++ "?" ++
        extras.query ep "" ++ "#" ++ extras.label ep
  | ss method serverKey clientKey ep =>
      "ss://" ++ b64 (method ++ ":" ++ ((serverKey.map (· ++ ":")).getD "" ++ clientKey)) ++ "@" ++
        ep.host ++ ":" ++ toString ep.port ++ "#" ++ extras.label ep
  | vless id flow ep =>
      "vless://" ++ id ++ "@" ++ ep.host ++ ":" ++ toString ep.port ++ "?" ++
        extras.query ep flow ++ "#" ++ extras.label ep

/-- `resolveFlow`, without an override. -/
def resolveFlow (inbound : PanelInbound) (uuid : String) : String :=
  match (inbound.clients.find? fun c => c.id = some uuid).bind PanelEntry.flow with
  | some flow => flow
  | none =>
      match inbound.clients.findSome? PanelEntry.flow with
      | some flow => flow
      | none =>
          if inbound.protocol = "vless" && inbound.security = "reality" &&
            inbound.network = "tcp" then
            "xtls-rprx-vision"
          else ""

/-- `method.startsWith("2022-blake3")`. -/
def isBlake3 (method : String) : Bool := "2022-blake3".toList.isPrefixOf method.toList

/-- `String(inbound.settings?.password || "")`, where it is part of the password of a link. -/
def PanelInbound.serverKey (inbound : PanelInbound) : Option String :=
  let serverPwd := inbound.password.getD ""
  if isBlake3 inbound.cipher && serverPwd ≠ "" then some serverPwd else none

/-- `buildLinks`, for the endpoints of the inbound. -/
def buildLinks (inbound : PanelInbound) (uuid : String) (eps : List Endpoint) : List ShareLink :=
  eps.map fun ep =>
    if inbound.protocol = "vmess" then .vmess uuid ep
    else if inbound.protocol = "trojan" then .trojan uuid ep
    else if inbound.protocol = "shadowsocks" then
      .ss inbound.cipher inbound.serverKey (dropDashes uuid) ep
    else .vless uuid (resolveFlow inbound uuid) ep

/-! ## Reading a link -/

/-- What a digit of base64 stands for, in either alphabet. -/
def b64Value (c : Char) : Option ℕ :=
  if 'A' ≤ c ∧ c ≤ 'Z' then some (c.toNat - 65)
  else if 'a' ≤ c ∧ c ≤ 'z' then some (c.toNat - 71)
  else if '0' ≤ c ∧ c ≤ '9' then some (c.toNat + 4)
  else if c = '+' ∨ c = '-' then some 62
  else if c = '/' ∨ c = '_' then some 63
  else none

/-- The bytes of digits of base64, three for four of them. -/
def b64Groups : List ℕ → List UInt8
  | a :: b :: c :: d :: rest =>
      .ofNat (a * 4 + b / 16) :: .ofNat (b % 16 * 16 + c / 4) :: .ofNat (c % 4 * 64 + d) ::
        b64Groups rest
  | [a, b, c] => [.ofNat (a * 4 + b / 16), .ofNat (b % 16 * 16 + c / 4)]
  | [a, b] => [.ofNat (a * 4 + b / 16)]
  | _ => []

/-- `decodeB64`: the digits up to the padding. What is no digit is passed over. -/
def decodeB64 (raw : List Char) : Option String :=
  String.fromUTF8? (b64Groups ((raw.takeWhile (· ≠ '=')).filterMap b64Value)).toByteArray

/-- The characters that are escaped in the user name of a URL. -/
def isUserinfo (c : Char) : Bool :=
  c.toNat < 32 || 126 < c.toNat ||
    [32, 34, 35, 47, 58, 59, 60, 61, 62, 63, 64, 91, 92, 93, 94, 96, 123, 124, 125].contains c.toNat

/-- The text before the last `@`. -/
def beforeAt (cs : List Char) : List Char := (cs.rdropWhile (· ≠ '@')).dropLast

/-- The user name in a URL, as it was typed, for what stands behind `://`: tabs and line ends are
passed over, the authority ends at a slash, a question mark or a hash, the user information at its
last `@`, and the name at a colon. -/
def userOf (body : List Char) : List Char :=
  (beforeAt ((body.filter (!List.contains ['\t', '\n', '\r'] ·)).takeWhile
    (!List.contains ['/', '?', '#'] ·))).takeWhile (· ≠ ':')

/-- `tryDecode(url.username)`. -/
def userSecret (body : List Char) : String :=
  Percent.tryDecode (Percent.encode isUserinfo (userOf body))

/-- The password in the credentials `method:password` before the last `@`. -/
def ssSecret (body : List Char) : Option String :=
  (decodeB64 (beforeAt ((body.takeWhile (· ≠ '#')).takeWhile (· ≠ '?')))).map fun creds =>
    .ofList ((creds.toList.dropWhile (· ≠ ':')).drop 1)

/-- `str("id")` of the JSON object. -/
def vmessSecret (body : List Char) : Option String :=
  (decodeB64 (body.takeWhile (· ≠ '#'))).bind fun text =>
    (JsonObject.parse text).bind fun fields => (fields.lookup "id").map trim

/-- What `parseShareUri` takes for the secret of a link of the panel. -/
def linkSecret (uri : String) : Option String :=
  let cs := uri.toList
  if "vless://".toList.isPrefixOf cs then some (userSecret (cs.drop 8))
  else if "trojan://".toList.isPrefixOf cs then some (userSecret (cs.drop 9))
  else if "vmess://".toList.isPrefixOf cs then vmessSecret (cs.drop 8)
  else if "ss://".toList.isPrefixOf cs then ssSecret (cs.drop 5)
  else none

/-! ## Import -/

/-- `PanelClientRow`. -/
structure PanelClientRow where
  email : String
  uuid : String
  inboundIds : List ℕ
  deriving DecidableEq

/-- `String(c.email ?? "").trim()`. -/
def PanelEntry.emailText (c : PanelEntry) : String := trim (c.email.getD "")

/-- `String(c.id ?? c.password ?? "").trim()`. -/
def PanelEntry.uuidText (c : PanelEntry) : String := trim ((c.id.or c.password).getD "")

/-- The row with another inbound, where it is the one with the email. -/
def addInbound (email : String) (id : ℕ) (row : PanelClientRow) : PanelClientRow :=
  if row.email = email && id ∉ row.inboundIds then
    { row with inboundIds := row.inboundIds ++ [id] } else row

/-- One entry of an inbound, in the loop of `scanPanelClients`. -/
def scanEntry (inboundId : ℕ) (rows : List PanelClientRow) (c : PanelEntry) : List PanelClientRow :=
  if c.emailText = "" then rows
  else if rows.any fun r => r.email = c.emailText then
    rows.map (addInbound c.emailText inboundId)
  else rows ++ [⟨c.emailText, c.uuidText, [inboundId]⟩]

/-- The rows of the map in `scanPanelClients`, in the order of their first entries. -/
def scanRows (inbounds : List PanelInbound) : List PanelClientRow :=
  inbounds.foldl (fun rows ib => ib.clients.foldl (scanEntry ib.id) rows) []

/-- The rows that `scanPanelClients` makes of the inbounds of a panel; `le` is the order of
`localeCompare`. -/
def scanPanelClients (le : String → String → Bool) (inbounds : List PanelInbound) :
    List PanelClientRow :=
  ((scanRows inbounds).map fun row => { row with inboundIds := row.inboundIds.mergeSort }).mergeSort
    fun a b => le a.email b.email

/-- `row.importable`: the email is not linked yet, no client has the UUID, and there is one. -/
def PanelClientRow.importable (linked taken : List String) (row : PanelClientRow) : Bool :=
  row.email ∉ linked && row.uuid ∉ taken && row.uuid ≠ ""

/-- The rows that get a client, one after the other; no two clients have the same UUID. -/
def createClients (taken : List String) : List PanelClientRow → List PanelClientRow
  | [] => []
  | row :: rows =>
      if row.uuid ∈ taken then createClients taken rows else row ::
        createClients (row.uuid :: taken) rows

/-- The rows that `importPanelClients` takes over; an empty list of emails asks for all. -/
def importPanelClients (le : String → String → Bool) (inbounds : List PanelInbound)
    (linked taken emails : List String) : List PanelClientRow :=
  createClients taken <| (scanPanelClients le inbounds).filter fun row =>
    (emails.isEmpty || row.email ∈ emails.map trim) && row.importable linked taken

/-- The secret that a panel holds for an entry of an inbound. -/
def panelSecret (protocol : String) (c : PanelEntry) : Option String :=
  if protocol = "trojan" || protocol = "shadowsocks" then c.password else c.id

/-- What the panel asks of a client with this secret: with Shadowsocks 2022, the key of the inbound
comes first. -/
def PanelInbound.expected (inbound : PanelInbound) (secret : String) : String :=
  if inbound.protocol = "shadowsocks" then (inbound.serverKey.map (· ++ ":")).getD "" ++
    secret else secret

end Credentials

end SRPanel
