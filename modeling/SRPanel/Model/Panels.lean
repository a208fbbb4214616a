import SRPanel.Model.Access

/-!
# The panels of the servers

Which remote clients a client needs, what they are called, and the calls that create and update
them. Inbounds of one server that share protocol and flow share one remote client.
-/

namespace SRPanel

open Interleaving

/-! ## Names -/

/-- The characters of `UNSAFE`, by their codes: quotes, the backslash, angle and curly brackets, and
the control characters. -/
def isUnsafe (c : Char) : Bool :=
  c.toNat ∈ [34, 39, 60, 62, 92, 96, 123, 125, 127] || c.toNat < 32

/-- `s.replace(/\s+/g, " ")`. -/
def squeeze : List Char → List Char
  | a :: b :: rest =>
      if Unicode.isWhite a then
        if Unicode.isWhite b then squeeze (b :: rest) else ' ' :: squeeze (b :: rest)
      else a :: squeeze (b :: rest)
  | [a] => [if Unicode.isWhite a then ' ' else a]
  | [] => []

/-- `sanitizeConfigName`. -/
def sanitizeConfigName (name fallback : String) : String :=
  (orNull (sliceTo 64 (trim
    (.ofList (squeeze (name.toList.filter fun c => !isUnsafe c)))))).getD fallback

/-- A letter or a number in one of the scripts that the panel's operators write. -/
def isLetterOrNumber (c : Char) : Bool :=
  c.isAlphanum || (0x620 ≤ c.toNat && c.toNat ≤ 0x64A) || (0x660 ≤ c.toNat && c.toNat ≤ 0x669) ||
    (0x671 ≤ c.toNat && c.toNat ≤ 0x6D3) || (0x6F0 ≤ c.toNat && c.toNat ≤ 0x6F9)

/-- `configLabel`. -/
def configLabel (client : Client) : String :=
  let name := sanitizeConfigName client.name "client"
  let tag := sanitizeConfigName (client.tag.getD "") ""
  if tag = "" then name
  else if tag.toList.getLast?.any isLetterOrNumber then tag ++ "-" ++ name
  else tag ++ name

/-! ## Groups -/

/-- `resolveFlow`, without an override. -/
def resolveFlow (inbound : StoredInbound) (uuid : Draw) : String :=
  match (inbound.users.find? fun c => c.id = uuid).bind InboundUser.flow with
  | some flow => flow
  | none =>
      match inbound.users.findSome? InboundUser.flow with
      | some flow => flow
      | none =>
          if inbound.protocol = "vless" && inbound.security = "reality" &&
            inbound.network = "tcp" then
            "xtls-rprx-vision"
          else ""

/-- `PanelGroup`: the inbounds of a server that share one remote client. -/
structure PanelGroup where
  serverId : ServerId
  serverName : String
  protocol : String
  flow : String
  inboundIds : List ℕ
  deriving DecidableEq

/-- Two groups that are one remote client. -/
def PanelGroup.joins (a b : PanelGroup) : Bool :=
  a.serverId = b.serverId && a.protocol = b.protocol && a.flow = b.flow

/-- `normalizeTargets`. -/
def normalizeTargets (list : List Target) : List Target :=
  list.dedup.insertionSort fun a b =>
    a.serverId < b.serverId ∨ a.serverId = b.serverId ∧ a.inboundId ≤ b.inboundId

/-- The stored inbound `id` of a server. -/
def Server.inbound? (server : Server) (id : ℕ) : Option StoredInbound :=
  server.inbounds.find? fun i => i.id = id

/-- The group of one target; a target without its server is skipped. -/
def groupOf (servers : List (ServerId × Server)) (uuid : Draw) (t : Target) : Option PanelGroup :=
  (servers.find? fun s => s.1 = t.serverId).map fun s =>
    let inbound := s.2.inbound? t.inboundId
    ⟨t.serverId, s.2.name, (inbound.map StoredInbound.protocol).getD "vless",
      (inbound.map fun i => resolveFlow i uuid).getD "", [t.inboundId]⟩

/-- Join a group to the one that it belongs to, or put it at the end. -/
def insertGroup (g : PanelGroup) : List PanelGroup → List PanelGroup
  | [] => [g]
  | h :: rest =>
      if h.joins g then { h with inboundIds := h.inboundIds ++ g.inboundIds } :: rest
      else h :: insertGroup g rest

/-- `groupTargets`. -/
def groupTargets (targets : List Target) (servers : List (ServerId × Server)) (uuid : Draw) :
    List PanelGroup :=
  ((targets.filterMap (groupOf servers uuid)).foldl (fun gs g => insertGroup g gs) []).map fun g =>
    { g with inboundIds := g.inboundIds.insertionSort (· ≤ ·) }

/-- `LinkGroup`: the links that are one remote client. -/
structure LinkGroup where
  serverId : ServerId
  remoteEmail : String
  inboundIds : List ℕ
  linkIds : List LinkKey
  deriving DecidableEq

/-- Join a link to its group, or put it at the end as one of its own. -/
def insertLink (link : LinkKey × ClientServer) : List LinkGroup → List LinkGroup
  | [] => [⟨link.1.serverId, link.2.remoteEmail, [link.1.inboundId], [link.1]⟩]
  | h :: rest =>
      if h.serverId = link.1.serverId ∧ h.remoteEmail = link.2.remoteEmail then
        { h with inboundIds := h.inboundIds ++ [link.1.inboundId], linkIds := h.linkIds ++
          [link.1] } :: rest
      else h :: insertLink link rest

/-- `groupLinks`. -/
def groupLinks (links : List (LinkKey × ClientServer)) : List LinkGroup :=
  (links.insertionSort fun a b => a.1.inboundId ≤ b.1.inboundId).foldl
    (fun gs link => insertLink link gs) []

/-! ## Calls -/

/-- `COLLISION.test(message)`. -/
def isCollision (message : String) : Bool :=
  ["in use", "already", "exist", "duplicate", "تکرار", "موجود"].any (includes (lower message))

/-- The texts that start with `sub`, white space and `id`. -/
def startsSubId : List Char → Bool
  | 's' :: 'u' :: 'b' :: rest => ['i', 'd'] <+: rest.dropWhile Unicode.isWhite
  | _ => false

/-- `/sub\s*id/i.test(message)`. -/
def namesSubId (message : String) : Bool := (lower message).toList.tails.any startsSubId

/-- `/e-?mail/i.test(message)`. -/
def namesEmail (message : String) : Bool :=
  includes (lower message) "email" || includes (lower message) "e-mail"

/-- The remote clients of all panels, each under its server and its email. -/
abbrev Remote := Table (ServerId × String) RemoteClient

namespace Site

/-- `MissingEndpointError`. -/
def missingEndpoint : AppError := ⟨"endpoint not available", 502, "panel_error"⟩

/-- One request to a panel, with what it does there; the result is whether the panel has the route.
-/
def callRoute (f : Remote → Remote) : Task Bool :=
  .step .other fun s =>
    match s.replies s.calls with
    | .done => (.ok true, { s with remote := f s.remote, calls := s.calls + 1 })
    | .fails message => (.error ⟨message, 502, "panel_error"⟩, { s with calls := s.calls + 1 })
    | .missing => (.ok false, { s with calls := s.calls + 1 })

/-- An operation of the panel's adapter, with what it does there. -/
def callPanel (f : Remote → Remote) : Task Unit := do
  let there ← callRoute f
  if there then pure () else throw missingEndpoint

/-- What a panel says to an email that it already has. -/
def emailInUse : AppError := ⟨"Something went wrong (email already in use)", 502, "panel_error"⟩

/-- The adapter's `addClient`: a panel does not take an email twice. -/
def addClient (key : ServerId × String) (client : RemoteClient) : Task Unit :=
  .step .other fun s =>
    match s.replies s.calls with
    | .done =>
        if (s.remote.get? key).isSome then (.error emailInUse, { s with calls := s.calls + 1 })
        else (.ok (), { s with remote := s.remote.set key client, calls := s.calls + 1 })
    | .fails message => (.error ⟨message, 502, "panel_error"⟩, { s with calls := s.calls + 1 })
    | .missing => (.error missingEndpoint, { s with calls := s.calls + 1 })

/-- The error that a task ends with, if it ends with one. -/
def caught (t : Task Unit) : Task (Option AppError) :=
  Prog.attempt (do t; pure none) fun err => pure (some err)

/-- `provisionInput`. -/
def provisionInput (client : Client) (inboundIds : List ℕ) (flow : String) (subId : SubId)
    (expiryMsOverride : Option ℤ) (limitHwid : ℕ) : RemoteClient where
  uuid := client.uuid
  inboundIds := inboundIds
  totalBytes := client.trafficLimit
  expiryTime := expiryMsOverride.getD (client.expiresAt.getD 0)
  limitIp := client.ipLimit
  limitHwid := limitHwid
  enable := client.status ≠ .disabled
  subId := subId
  flow := flow
  tgId := client.telegramId.getD ""
  up := 0
  down := 0

/-- `PANEL_ATTEMPTS`. -/
def PANEL_ATTEMPTS : ℕ := 4

/-- The attempts of `addToPanel`, of which `n` are left. -/
def addAttempts (group : PanelGroup) (client : Client) (baseEmail : String) (expiry : Option ℤ) :
    (n attempt : ℕ) → (email : String) → (last : AppError) → Task String
  | 0, _, _, last => throw last
  | n + 1, attempt, email, _ => do
      let subId : SubId := ⟨client.subToken, group.serverId, group.inboundIds.headD 0, attempt⟩
      let answer ← caught (addClient (group.serverId, email)
        (provisionInput client group.inboundIds group.flow subId expiry 0))
      match answer with
      | none => pure email
      | some err =>
          if !isCollision err.message then throw err
          else if namesSubId err.message then
            addAttempts group client baseEmail expiry n (attempt + 1) email err
          else if namesEmail err.message then
            addAttempts group client baseEmail expiry n (attempt + 1)
              (baseEmail ++ "-" ++ toString (attempt + 2)) err
          else throw err

/-- `addToPanel`, which returns the email that the panel took. -/
def addToPanel (group : PanelGroup) (client : Client) (baseEmail : String) (expiry : Option ℤ) :
    Task String :=
  addAttempts group client baseEmail expiry PANEL_ATTEMPTS 0 baseEmail (badRequest "")

/-- The attempts of `updateOnPanel`, of which `n` are left. -/
def updateAttempts (group : LinkGroup) (client : Client) (flow : String) (expiry : Option ℤ)
    (limitHwid : ℕ) : (n attempt : ℕ) → (last : AppError) → Task Unit
  | 0, _, last => throw last
  | n + 1, attempt, _ => do
      let subId : SubId := ⟨client.subToken, group.serverId, group.inboundIds.headD 0, attempt⟩
      let answer ← caught (callPanel fun remote => remote.modify (group.serverId, group.remoteEmail)
        fun r => { provisionInput client group.inboundIds flow subId expiry limitHwid with
          up := r.up, down := r.down })
      match answer with
      | none => pure ()
      | some err =>
          if isCollision err.message && namesSubId err.message then
            updateAttempts group client flow expiry limitHwid n (attempt + 1) err
          else throw err

/-- `updateOnPanel`. -/
def updateOnPanel (group : LinkGroup) (client : Client) (flow : String) (expiry : Option ℤ)
    (limitHwid : ℕ) : Task Unit :=
  updateAttempts group client flow expiry limitHwid PANEL_ATTEMPTS 0 (badRequest "")

/-- The legacy route that takes the clients with a secret off an inbound. -/
def detach (serverId : ServerId) (uuid : Draw) (inboundId : ℕ) (remote : Remote) : Remote :=
  remote.mapRows fun k c =>
    if k.1 = serverId ∧ c.uuid =
      uuid then { c with inboundIds := c.inboundIds.erase inboundId } else c

/-- The legacy deletion, inbound by inbound. -/
def detachAll (serverId : ServerId) (uuid : Draw) : List ℕ → Task Unit
  | [] => pure ()
  | id :: ids => do
      callPanel (detach serverId uuid id)
      detachAll serverId uuid ids

/-- The adapter's `deleteClient`: by email, or by secret on a panel without that route. -/
def deleteOnPanel (group : LinkGroup) (uuid : Draw) : Task Unit := do
  let there ← callRoute fun remote => remote.erase (group.serverId, group.remoteEmail)
  if there then pure () else detachAll group.serverId uuid group.inboundIds

end Site

end SRPanel
