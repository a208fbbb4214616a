import SRPanel.Lib.Binary64
import SRPanel.Model.Services

/-!
# Clients

The operations on the clients of a seller: `createClient`, `updateClient`, `resetClientTraffic` and
`pushClient`. The database has the truth and the panels follow: an error of a panel is collected and
returned, it does not undo what the database holds.

`createClient` and `updateClient` are told the order that they work for, if there is one; only the
record of deliveries uses it.
-/

namespace SRPanel

open Interleaving

/-- `CreateClientInput`. -/
structure CreateClientInput where
  name : String
  tag : Option String
  serviceId : Option ServiceId
  trafficGB : ℚ
  days : ℤ
  startAfterUse : Bool
  ipLimit : ℕ
  note : Option String
  telegramId : Option String
  phone : Option String
  targets : List Target

/-- `UpdateClientInput`; a field that is absent is `none`. -/
structure UpdateClientInput where
  name : Option String
  tag : Option (Option String)
  trafficGB : Option ℚ
  expiresAt : Option (Option ℤ)
  addDays : Option ℤ
  ipLimit : Option ℕ
  note : Option (Option String)
  telegramId : Option (Option String)
  phone : Option (Option String)
  enabled : Option Bool

/-- A patch that changes nothing. -/
def UpdateClientInput.none : UpdateClientInput :=
  ⟨.none, .none, .none, .none, .none, .none, .none, .none, .none, .none⟩

/-- `ClientWithServers`. -/
structure FullClient where
  id : ClientId
  row : Client
  links : List (LinkKey × ClientServer)

/-- The columns that `updateClient` writes. -/
structure ClientData where
  name : Option String
  tag : Option (Option String)
  trafficLimit : Option ℤ
  expiresAt : Option (Option ℤ)
  ipLimit : Option ℕ
  note : Option (Option String)
  telegramId : Option (Option String)
  phone : Option (Option String)
  status : Option ClientStatus

/-- The row with these columns. -/
def ClientData.apply (data : ClientData) (c : Client) : Client :=
  { c with
    name := data.name.getD c.name
    tag := data.tag.getD c.tag
    trafficLimit := data.trafficLimit.getD c.trafficLimit
    expiresAt := data.expiresAt.getD c.expiresAt
    ipLimit := data.ipLimit.getD c.ipLimit
    note := data.note.getD c.note
    telegramId := data.telegramId.getD c.telegramId
    phone := data.phone.getD c.phone
    status := data.status.getD c.status }

/-- `s?.trim() || null`. -/
def trimmed (s : Option String) : Option String := (s.map trim).bind orNull

/-- `NOTE_TAG`. -/
def NOTE_TAG : String := "⏳ شروع پس از اولین اتصال"

/-- `withoutPendingNote`. -/
def withoutPendingNote (note : Option String) : Option String :=
  note.bind fun s => orNull (trim (.ofList (List.intercalate ['\n']
    ((s.toList.splitOn '\n').filter fun line => !includes (.ofList line) NOTE_TAG))))

/-- `withPendingNote`. -/
def withPendingNote (note : Option String) (days : ℕ) : String :=
  let tag := NOTE_TAG ++ " (" ++ toString days ++ " روز)"
  match withoutPendingNote (trimmed note) with
  | some base => base ++ "\n" ++ tag
  | none => tag

/-- The status label that `recomputeClient` derives. -/
def derivedStatus (c : Client) (used : ℤ) (now : ℤ) : ClientStatus :=
  if c.status = .disabled then .disabled
  else if c.expiresAt.any (· < now) then .expired
  else if 0 < c.trafficLimit && c.trafficLimit ≤ used then .limited
  else .active

/-- Record a delivery for the order that an operation works for. -/
def Deliveries.deliver (d : Deliveries) (cause : Option OrderId) : Deliveries :=
  { d with delivered := cause.toList ++ d.delivered }

namespace Site

/-! ## Reading a client -/

/-- The links of a client. -/
def linksOf (s : Site) (id : ClientId) : List (LinkKey × ClientServer) :=
  s.links.rows.filter fun r => r.1.clientId = id

/-- The client `id` in the scope of an actor, with its links. -/
def clientOf (s : Site) (actor : Actor) (id : ClientId) : Option FullClient :=
  ((s.clients.get? id).filter (inScope actor)).map fun c => ⟨id, c, s.linksOf id⟩

/-- `getClientForActor`. -/
def getClientForActor (actor : Actor) (id : ClientId) : Task FullClient := do
  let client ← read fun s => s.clientOf actor id
  match client with
  | none => throw (notFoundError "کلاینت پیدا نشد")
  | some client => pure client

/-! ## Creating a client -/

/-- What `createClient` has settled on when its guards have passed. -/
structure Admission where
  targets : List Target
  limitBytes : ℤ
  cost : ℤ
  servers : List (ServerId × Server)

/-- The targets of a new client. -/
def chosenTargets (actor : Actor) (input : CreateClientInput) : Task (List Target) :=
  match input.serviceId with
  | some id => resolveServiceTargets actor id
  | none => pure (normalizeTargets input.targets)

/-- The guards of `createClient`. -/
def admitClient (actor : Operator) (input : CreateClientInput) : Task Admission := do
  refuseIf (trim input.name = "") (badRequest "نام کلاینت لازم است")
  let targets ← chosenTargets actor.actor input
  refuseIf targets.isEmpty (badRequest "یک سرویس یا دست‌کم یک اینباند انتخاب کنید")
  let trafficGB := max 0 input.trafficGB
  assertClientKind actor.actor (kindFromGB trafficGB) input.serviceId trafficGB none
  assertQuota actor (gbToBytes trafficGB) targets none
  let cost ← quoteClientCost actor input.trafficGB input.days
  assertAffordable actor cost
  let servers ← read fun s => s.servers.rows.filter fun r =>
    r.1 ∈ targets.map Target.serverId && r.2.isActive
  refuseIf (servers.length ≠ (targets.map Target.serverId).dedup.length)
    (badRequest "یکی از سرورها در دسترس نیست")
  pure ⟨targets, gbToBytes trafficGB, cost, servers⟩

/-- The days of a delayed start, 0 without one. -/
def delayedDays (input : CreateClientInput) : ℕ :=
  if input.startAfterUse && 0 < input.days then min 3650 input.days.toNat else 0

/-- The row of a new client. -/
def newClient (actor : Operator) (input : CreateClientInput) (limitBytes : ℤ) (uuid subToken : Draw)
    (now : ℤ) : Client where
  adminId := actor.id
  name := sanitizeConfigName input.name "client"
  tag := orNull (sanitizeConfigName (input.tag.getD "") "")
  serviceId := input.serviceId
  uuid := uuid
  subToken := subToken
  trafficLimit := limitBytes
  usedUp := 0
  usedDown := 0
  expiresAt :=
    if 0 < delayedDays input then none
    else if 0 < input.days then some (now + input.days * DAY_MS) else none
  ipLimit := input.ipLimit
  status := .active
  note := if 0 < delayedDays input then some (withPendingNote input.note (delayedDays input))
    else trimmed input.note
  telegramId := trimmed input.telegramId
  phone := trimmed input.phone
  lastOnlineAt := none

/-- `prisma.client.create`, with the random uuid and token of the new row. -/
def insertClient (actor : Operator) (input : CreateClientInput) (limitBytes : ℤ)
    (cause : Option OrderId) : Task (ClientId × Client) :=
  .step .other fun s =>
    let id := s.base.nextId
    let c := newClient actor input limitBytes (id + 1) (id + 2) s.base.now
    (.ok (id, c), { s with
      base := { s.base with nextId := id + 3 }
      clients := s.clients.set id c
      deliveries := s.deliveries.deliver cause })

/-- `setPendingStart`, for a delayed start. -/
def armPendingStart (id : ClientId) (days : ℕ) : Task Unit :=
  if 0 < days then write fun s =>
    { s with pendingStarts := s.pendingStarts.set id days } else pure ()

/-- `prisma.clientServer.create`. -/
def createLink (email : String) (key : LinkKey) : Task Unit :=
  .step .other fun s =>
    match s.links.get? key with
    | some _ => (.error uniqueViolation, s)
    | none => (.ok (), { s with links := s.links.set key ⟨email, 0, 0, none⟩ })

/-- Create links one after the other. -/
def createLinks (email : String) : List LinkKey → Task Unit
  | [] => pure ()
  | key :: keys => do
      createLink email key
      createLinks email keys

/-- `prisma.clientServer.updateMany` by id. -/
def updateLinks (keys : List LinkKey) (f : ClientServer → ClientServer) : Task Unit :=
  write fun s => { s with links := s.links.mapRows fun k r => if k ∈ keys then f r else r }

/-- The links of a group. -/
def groupKeys (id : ClientId) (group : PanelGroup) : List LinkKey :=
  group.inboundIds.map fun i => ⟨id, group.serverId, i⟩

/-- Create the remote client of a group whose links are there, and return the error if that fails.
-/
def provisionGroup (id : ClientId) (client : Client) (group : PanelGroup) (baseEmail : String)
    (expiry : Option ℤ) : Task (Option String) :=
  Prog.attempt (do
    let remoteEmail ← addToPanel group client baseEmail expiry
    if remoteEmail = baseEmail then pure none
    else do
      updateLinks (groupKeys id group) fun r => { r with remoteEmail := remoteEmail }
      pure none) fun err => do
    updateLinks (groupKeys id group) fun r => { r with lastError := some (sliceTo 300 err.message) }
    pure (some (group.serverName ++ ": " ++ err.message))

/-- The email of a group, given the servers of the groups before it: a panel cannot hold one email
twice. -/
def emailOf (label : String) (seen : List ServerId) (group : PanelGroup) : String :=
  let n := seen.count group.serverId
  if n = 0 then label else label ++ "-" ++ toString (n + 1)

/-- Provision the groups of a client one after the other, and return the errors. -/
def provisionGroups (id : ClientId) (client : Client) (expiry : Option ℤ) :
    (seen : List ServerId) → List PanelGroup → Task (List String)
  | _, [] => pure []
  | seen, group :: rest => do
      let baseEmail := emailOf (configLabel client) seen group
      createLinks baseEmail (groupKeys id group)
      let error ← provisionGroup id client group baseEmail expiry
      let errors ← provisionGroups id client expiry (group.serverId :: seen) rest
      pure (error.toList ++ errors)

/-- The expiry that a panel is given for a delayed start. -/
def delayedExpiry (days : ℕ) : Option ℤ := if 0 < days then some (-(days * DAY_MS)) else none

/-- `createClient`, once the guards have passed. -/
def openClient (actor : Operator) (input : CreateClientInput) (a : Admission)
    (cause : Option OrderId) : Task (FullClient × List String) := do
  let created ← insertClient actor input a.limitBytes cause
  armPendingStart created.1 (delayedDays input)
  chargeFor actor a.cost created.1
  let errors ← provisionGroups created.1 created.2 (delayedExpiry (delayedDays input)) []
    (groupTargets a.targets a.servers created.2.uuid)
  lift (audit (some actor.id) "client.create")
  let client ← getClientForActor actor.actor created.1
  pure (client, errors)

/-- `createClient`. -/
def createClient (actor : Operator) (input : CreateClientInput) (cause : Option OrderId) :
    Task (FullClient × List String) := do
  let admission ← admitClient actor input
  openClient actor input admission cause

/-! ## The state of a client on its panels -/

/-- The server of a link group, when it is still there. -/
def serversOf (links : List (LinkKey × ClientServer)) : Task (List (ServerId × Server)) :=
  read fun s => s.servers.rows.filter fun r => links.any fun l => l.1.serverId = r.1

/-- Push one link group, and return the error if that fails. -/
def pushGroup (client : Client) (server : Server) (expiry : Option ℤ) (limitHwid : ℕ)
    (group : LinkGroup) : Task (Option String) :=
  Prog.attempt (do
    let flow := ((server.inbound? (group.inboundIds.headD 0)).map
      fun i => resolveFlow i client.uuid).getD ""
    updateOnPanel group client flow expiry limitHwid
    updateLinks group.linkIds fun r => { r with lastError := none }
    pure none) fun err => do
    updateLinks group.linkIds fun r => { r with lastError := some (sliceTo 300 err.message) }
    pure (some (server.name ++ ": " ++ err.message))

/-- Push link groups one after the other; a group whose server is gone is skipped. -/
def pushGroups (client : Client) (servers : List (ServerId × Server)) (expiry : Option ℤ)
    (limitHwid : ℕ) : List LinkGroup → Task (List String)
  | [] => pure []
  | group :: rest => do
      let error ← (match servers.find? fun s => s.1 = group.serverId with
        | none => pure none
        | some server => pushGroup client server.2 expiry limitHwid group)
      let errors ← pushGroups client servers expiry limitHwid rest
      pure (error.toList ++ errors)

/-- `pushClient`. -/
def pushClient (client : FullClient) : Task (List String) := do
  let pending ← read fun s => s.pendingStarts.get? client.id
  let limitHwid ← read fun s => (s.hwidLimits.get? client.id).getD 0
  let servers ← serversOf client.links
  pushGroups client.row servers (pending.map fun days => -(days * DAY_MS)) limitHwid
    (groupLinks client.links)

/-- `onClientStatusChanged`: never throws. -/
def onClientStatusChanged (c : Client) (status : ClientStatus) : Task Unit :=
  if status = .expired || status = .limited then
    let event := if status = .expired then "client.expired" else "client.limited"
    Prog.attempt (do
      lift (emitEvent (some c.adminId) event)
      lift (notify event)) fun _ => pure ()
  else pure ()

/-- `prisma.client.update`, as a step with a mark. -/
def writeRow (mark : Mark) (id : ClientId) (f : Client → Client) (cause : Option OrderId) :
    Task Unit :=
  .step mark fun s =>
    match s.clients.get? id with
    | none => (.error recordNotFound, s)
    | some _ => (.ok (), { s with
        clients := s.clients.modify id f
        deliveries := s.deliveries.deliver cause })

/-- `prisma.client.update`. -/
def updateRow (id : ClientId) (f : Client → Client) (cause : Option OrderId) : Task Unit :=
  writeRow .other id f cause

/-- `recomputeClient`. -/
def recomputeClient (id : ClientId) : Task Unit := do
  let found ← read fun s => (s.clients.get? id).map fun c => (c, s.linksOf id, (s.base.now : ℤ))
  match found with
  | none => pure ()
  | some (c, links, t) => do
      let usedUp := (links.map fun l => l.2.up).sum
      let usedDown := (links.map fun l => l.2.down).sum
      let status := derivedStatus c (usedUp + usedDown) t
      writeRow (.derives [(id, c.status)] status) id
        (fun c => { c with usedUp := usedUp, usedDown := usedDown, status := status }) none
      if status = c.status then pure () else onClientStatusChanged c status

/-! ## Changing a client -/

/-- The new traffic limit of a patch, with its guards. -/
def updateLimit (actor : Operator) (current : FullClient) (trafficGB : Option ℚ) :
    Task (Option ℤ) :=
  match trafficGB with
  | none => pure none
  | some trafficGB => do
      let gb := max 0 trafficGB
      assertClientKind actor.actor (kindFromGB gb) current.row.serviceId gb (some current.id)
      assertQuota actor (gbToBytes gb) [] (some current.id)
      pure (some (gbToBytes gb))

/-- The new expiry of a patch: `addDays` counts from the current expiry or from now, whichever is
later. -/
def newExpiry (current : Client) (input : UpdateClientInput) (t : ℤ) : Option (Option ℤ) :=
  match input.addDays.filter (· ≠ 0) with
  | some d => some (some (max (current.expiresAt.getD t) t + d * DAY_MS))
  | none => input.expiresAt

/-- The guards of `updateClient` before its first write, and the columns to write. -/
def updateData (actor : Operator) (current : FullClient) (input : UpdateClientInput) :
    Task ClientData := do
  refuseIf (input.name.any fun n => trim n = "") (badRequest "نام کلاینت لازم است")
  let trafficLimit ← updateLimit actor current input.trafficGB
  let t ← now
  pure {
    name := input.name.map fun n => sanitizeConfigName n "client"
    tag := input.tag.map fun tag => orNull (sanitizeConfigName (tag.getD "") "")
    trafficLimit := trafficLimit
    expiresAt := newExpiry current.row input t
    ipLimit := input.ipLimit
    note := input.note.map trimmed
    telegramId := input.telegramId.map trimmed
    phone := input.phone.map trimmed
    status := input.enabled.map fun b => if b then .active else .disabled }

/-- `clearPendingStart`, when the patch sets a date. -/
def settleStart (id : ClientId) (input : UpdateClientInput) : Task Unit :=
  if input.expiresAt.isSome || (input.addDays.filter (· ≠ 0)).isSome then
    write fun s => { s with pendingStarts := s.pendingStarts.erase id }
  else pure ()

/-- The price of extra traffic and days, when renewals are charged. -/
def renewCost (actor : Operator) (extraGB : ℚ) (extraDays : ℤ) : Task ℤ := do
  let pricing ← read Site.pricing
  if pricing.chargeOnRenew then quoteClientCost actor extraGB extraDays else pure 0

/-- The wallet billing of `updateClient`, with its guard. The numbers of GB are of double precision:
their difference may come out above the exact one, and the price counts whole GB. -/
def updateCost (actor : Operator) (current : FullClient) (input : UpdateClientInput) : Task ℤ :=
  let extraGB := (input.trafficGB.map fun gb =>
    max 0 (Binary64.sub gb (bytesToGb current.row.trafficLimit))).getD 0
  let extraDays := max 0 (input.addDays.getD 0)
  if actor.role ≠ .owner && (0 < extraGB || 0 < extraDays) then do
    let deltaCost ← renewCost actor extraGB extraDays
    assertAffordable actor deltaCost
    pure deltaCost
  else pure 0

/-- `updateClient`. -/
def updateClient (actor : Operator) (id : ClientId) (input : UpdateClientInput)
    (cause : Option OrderId) : Task (FullClient × List String) := do
  let current ← getClientForActor actor.actor id
  let data ← updateData actor current input
  settleStart current.id input
  let deltaCost ← updateCost actor current input
  updateRow current.id data.apply cause
  chargeFor actor deltaCost current.id
  recomputeClient current.id
  let client ← getClientForActor actor.actor id
  let errors ← pushClient client
  lift (audit (some actor.id) "client.update")
  pure (client, errors)

/-- Reset the counters of one link group, and return the error if that fails. -/
def resetGroup (server : Server) (group : LinkGroup) : Task (Option String) :=
  Prog.attempt (do
    callPanel fun remote => remote.modify (group.serverId, group.remoteEmail) fun r =>
      { r with up := 0, down := 0 }
    updateLinks group.linkIds fun r => { r with up := 0, down := 0, lastError := none }
    pure none) fun err => pure (some (server.name ++ ": " ++ err.message))

/-- Reset link groups one after the other; a group whose server is gone is skipped. -/
def resetGroups (servers : List (ServerId × Server)) : List LinkGroup → Task (List String)
  | [] => pure []
  | group :: rest => do
      let error ← (match servers.find? fun s => s.1 = group.serverId with
        | none => pure none
        | some server => resetGroup server.2 group)
      let errors ← resetGroups servers rest
      pure (error.toList ++ errors)

/-- The push after a reset, which a client that had used up its traffic needs. -/
def pushIfLimited (actor : Actor) (client : FullClient) : Task Unit :=
  if client.row.status = .limited then do
    let fresh ← getClientForActor actor client.id
    let _ ← pushClient fresh
  else pure ()

/-- `resetClientTraffic`. -/
def resetClientTraffic (actor : Actor) (id : ClientId) : Task (List String) := do
  let client ← getClientForActor actor id
  let servers ← serversOf client.links
  let errors ← resetGroups servers (groupLinks client.links)
  recomputeClient client.id
  pushIfLimited actor client
  lift (audit (some actor.id) "client.reset_traffic")
  pure errors

end Site

end SRPanel
