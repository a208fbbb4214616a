import SRPanel.Lib.Fresh
import SRPanel.Lib.Grouping
import SRPanel.Model.Refunds
import SRPanel.Model.Renewals

/-!
# Moving a client

`setClientTargets` attaches an existing client to other inbounds and detaches it from those that it
has left, without a new secret and without losing counters: what stays on a server stays in the same
remote client.
-/

namespace SRPanel

open Interleaving

/-! ## Links by their remote clients -/

/-- The target of a link. -/
def LinkKey.target (k : LinkKey) : Target := ⟨k.serverId, k.inboundId⟩

/-- An entry of `byEmail`: the links of one remote client, those that stay and those that go. -/
structure EmailEntry where
  serverId : ServerId
  remoteEmail : String
  keep : List (LinkKey × ClientServer)
  drop : List (LinkKey × ClientServer)

/-- The entry of links that share a remote client. -/
def EmailEntry.of (wanted : List Target) (links : List (LinkKey × ClientServer)) :
    Option EmailEntry :=
  links.head?.map fun l =>
    ⟨l.1.serverId, l.2.remoteEmail, links.filter fun l => l.1.target ∈ wanted, links.filter fun l =>
      l.1.target ∉ wanted⟩

/-- `byEmail`. -/
def byEmail (wanted : List Target) (links : List (LinkKey × ClientServer)) : List EmailEntry :=
  (Grouping.grouped (fun l : LinkKey × ClientServer =>
    (l.1.serverId, l.2.remoteEmail)) links).filterMap (EmailEntry.of wanted)

/-- The protocol and the flow that an inbound asks for. -/
def Server.shape (server : Server) (uuid : Draw) (inboundId : ℕ) : String × String :=
  let inbound := server.inbound? inboundId
  ((inbound.map StoredInbound.protocol).getD "vless",
    (inbound.map fun i => resolveFlow i uuid).getD "")

/-- The remote client of the links that stay. -/
def EmailEntry.remaining (e : EmailEntry) : LinkGroup where
  serverId := e.serverId
  remoteEmail := e.remoteEmail
  inboundIds := (e.keep.map fun l => l.1.inboundId).insertionSort (· ≤ ·)
  linkIds := e.keep.map Prod.fst

/-- The remote client of the links that go, when none stays. -/
def EmailEntry.leaving (e : EmailEntry) : LinkGroup where
  serverId := e.serverId
  remoteEmail := e.remoteEmail
  inboundIds := e.drop.map fun l => l.1.inboundId
  linkIds := e.drop.map Prod.fst

/-- A link that stays, on the server of a group and with its protocol and flow. -/
def hostOf (kept : List (LinkKey × ClientServer)) (server : Server) (uuid : Draw)
    (group : PanelGroup) : Option (LinkKey × ClientServer) :=
  kept.find? fun l => l.1.serverId = group.serverId && server.shape uuid l.1.inboundId =
  (group.protocol, group.flow)

/-- The names that are tried for a new remote client: the label, and from 2 on the label with a
number. -/
def candidateEmail (label : String) (n : ℕ) : String :=
  if n ≤ 1 then label else label ++ "-" ++ toString n

/-- The first name that the client does not use on the server yet. -/
def freeEmail (label : String) (used : List (ServerId × String)) (serverId : ServerId) : String :=
  let taken := (used.filter fun u => u.1 = serverId).map Prod.snd
  Fresh.firstFree (candidateEmail label) taken taken.length 1

/-- The remote client of a host, with the inbounds of a group as well. -/
def mergedGroup (id : ClientId) (kept : List (LinkKey × ClientServer)) (group : PanelGroup)
    (email : String) : LinkGroup :=
  let same := kept.filter fun l => l.1.serverId = group.serverId && l.2.remoteEmail = email
  { serverId := group.serverId
    remoteEmail := email
    inboundIds := ((same.map fun l => l.1.inboundId) ++ group.inboundIds).dedup.insertionSort
      (· ≤ ·)
    linkIds := same.map Prod.fst ++ Site.groupKeys id group }

/-- `ClientTargetsResult`. -/
structure ClientTargetsResult where
  client : FullClient
  errors : List String
  added : ℕ
  removed : ℕ

namespace Site

/-! ## Detaching -/

/-- `prisma.clientServer.deleteMany` by id. -/
def dropLinks (keys : List LinkKey) : Task Unit :=
  write fun s => { s with links := s.links.keep fun k => k ∉ keys }

/-- One entry of `byEmail`, whose server has been found: what stays is pushed as it is now, and an
entry of which nothing stays is deleted. An error says what it says on the panel of the server. -/
def detachEntry (client : FullClient) (server : Server) (expiry : Option ℤ) (limitHwid : ℕ)
    (e : EmailEntry) : Task (Option String) :=
  Prog.attempt (do
    (if e.keep.isEmpty then deleteOnPanel e.leaving client.row.uuid
      else
        let flow := (server.shape client.row.uuid ((e.keep.map fun l => l.1.inboundId).headD 0)).2
        updateOnPanel e.remaining client.row flow expiry limitHwid)
    dropLinks (e.drop.map Prod.fst)
    pure none) fun err =>
    if saysNotFound err.message then do
      dropLinks (e.drop.map Prod.fst)
      pure none
    else pure (some (server.name ++ ": " ++ err.message))

/-- The entries one after the other; one that loses nothing and one whose server is gone are
skipped. -/
def detachEntries (client : FullClient) (servers : List (ServerId × Server)) (expiry : Option ℤ)
    (limitHwid : ℕ) : List EmailEntry → Task (List String)
  | [] => pure []
  | e :: rest => do
      let error ← (if e.drop.isEmpty then pure none
        else match servers.find? fun s => s.1 = e.serverId with
          | none => pure none
          | some server => detachEntry client server.2 expiry limitHwid e)
      let errors ← detachEntries client servers expiry limitHwid rest
      pure (error.toList ++ errors)

/-! ## Attaching -/

/-- The attempts of `addToPanel` with a device limit, of which `n` are left. -/
def limitedAttempts (group : PanelGroup) (client : Client) (baseEmail : String) (expiry : Option ℤ)
    (limitHwid : ℕ) : (n attempt : ℕ) → (email : String) → (last : AppError) → Task String
  | 0, _, _, last => throw last
  | n + 1, attempt, email, _ => do
      let subId : SubId := ⟨client.subToken, group.serverId, group.inboundIds.headD 0, attempt⟩
      let answer ← caught (addClient (group.serverId, email)
        (provisionInput client group.inboundIds group.flow subId expiry limitHwid))
      match answer with
      | none => pure email
      | some err =>
          if !isCollision err.message then throw err
          else if namesSubId err.message then
            limitedAttempts group client baseEmail expiry limitHwid n (attempt + 1) email err
          else if namesEmail err.message then
            limitedAttempts group client baseEmail expiry limitHwid n (attempt + 1)
              (baseEmail ++ "-" ++ toString (attempt + 2)) err
          else throw err

/-- Without a limit these are the attempts that a new client makes. -/
theorem limitedAttempts_zero (group : PanelGroup) (client : Client) (baseEmail : String)
    (expiry : Option ℤ) (n attempt : ℕ) (email : String) (last : AppError) :
    limitedAttempts group client baseEmail expiry 0 n attempt email last =
      addAttempts group client baseEmail expiry n attempt email last := by
  induction n generalizing attempt email last with
  | zero => rfl
  | succ n ih =>
      refine congrArg (fun k : Option AppError →
        Task String => caught (addClient (group.serverId,
          email) (provisionInput client group.inboundIds group.flow ⟨client.subToken,
            group.serverId, group.inboundIds.headD 0, attempt⟩ expiry 0)) >>=
              k) (funext fun answer => ?_)
      cases answer with
      | none => rfl
      | some err => simp only [ih]

/-- One group of new inbounds: into the remote client of a host, or into a new one. -/
def attachGroup (client : FullClient) (expiry : Option ℤ) (limitHwid : ℕ)
    (kept : List (LinkKey × ClientServer)) (host : Option (LinkKey × ClientServer)) (email : String)
    (group : PanelGroup) : Task (Option String) := do
  createLinks email (groupKeys client.id group)
  Prog.attempt (match host with
    | some _ => do
        updateOnPanel
          (mergedGroup client.id kept group email) client.row group.flow expiry limitHwid
        pure none
    | none => do
        let remoteEmail ← limitedAttempts group client.row email expiry limitHwid PANEL_ATTEMPTS 0 email (badRequest "")
        if remoteEmail = email then pure none
        else do
          updateLinks (groupKeys client.id group) fun r => { r with remoteEmail := remoteEmail }
          pure none) fun err => do
    updateLinks (groupKeys client.id group) fun r =>
      { r with lastError := some (sliceTo 300 err.message) }
    pure (some (group.serverName ++ ": " ++ err.message))

/-- The groups one after the other, with the names that the client uses by then. -/
def attachGroups (client : FullClient) (servers : List (ServerId × Server)) (expiry : Option ℤ)
    (limitHwid : ℕ) (kept : List (LinkKey × ClientServer)) :
    (used : List (ServerId × String)) → List PanelGroup → Task (List String)
  | _, [] => pure []
  | used, group :: rest => do
      let host := (servers.find? fun s => s.1 = group.serverId).bind fun s =>
        hostOf kept s.2 client.row.uuid group
      let email := match host with
        | some l => l.2.remoteEmail
        | none => freeEmail (configLabel client.row) used group.serverId
      let error ← attachGroup client expiry limitHwid kept host email group
      let errors ← attachGroups client servers expiry limitHwid kept
        (if host.isSome then used else (group.serverId, email) :: used) rest
      pure (error.toList ++ errors)

/-! ## The operation -/

/-- `setClientTargets`, from its guards on. -/
def moveClient (actor : Operator) (client : FullClient) (wanted added : List Target)
    (dropped : List (LinkKey × ClientServer)) : Task ClientTargetsResult := do
  assertQuota actor client.row.trafficLimit added (some client.id)
  let servers ← read fun s => s.servers.rows.filter fun r =>
    r.1 ∈ added.map Target.serverId ++ dropped.map fun l => l.1.serverId
  refuseIf (added.any fun t => !(servers.find? fun s => s.1 = t.serverId).any fun s => s.2.isActive)
    (badRequest "یکی از سرورها در دسترس نیست")
  let pending ← read fun s => s.pendingStarts.get? client.id
  let expiry := pending.map fun days => -(days * DAY_MS)
  let limitHwid ← read fun s => (s.hwidLimits.get? client.id).getD 0
  let detached ← detachEntries client servers expiry limitHwid (byEmail wanted client.links)
  let kept := client.links.filter fun l => l.1.target ∈ wanted
  let attached ← attachGroups client servers expiry limitHwid kept
    (kept.map fun l => (l.1.serverId, l.2.remoteEmail)) (groupTargets added servers client.row.uuid)
  recomputeClient client.id
  lift (audit (some actor.id) "client.targets.set")
  let fresh ← getClientForActor actor.actor client.id
  pure ⟨fresh, detached ++ attached, added.length, dropped.length⟩

/-- `setClientTargets`: the target list of a client is replaced. -/
def setClientTargets (actor : Operator) (id : ClientId) (targets : List Target) :
    Task ClientTargetsResult := do
  let client ← getClientForActor actor.actor id
  let wanted := normalizeTargets targets
  refuseIf wanted.isEmpty (badRequest "دست‌کم یک اینباند باید انتخاب شود")
  let added := wanted.filter fun t => t ∉ client.links.map fun l => l.1.target
  let dropped := client.links.filter fun l => l.1.target ∉ wanted
  if added.isEmpty && dropped.isEmpty then pure ⟨client, [], 0, 0⟩
  else moveClient actor client wanted added dropped

/-! ## Device limits and renewals -/

/-- `clampHwid`; 0 = unlimited. -/
def clampHwid (n : ℤ) : ℕ := if 0 < n then min 100 n.toNat else 0

/-- `writeHwidLimit`: a limit of 0 is not stored. -/
def writeHwidLimit (id : ClientId) (limit : ℤ) : Task ℕ := do
  write fun s => { s with
    hwidLimits := if clampHwid limit = 0 then s.hwidLimits.erase id else s.hwidLimits.set id
      (clampHwid limit) }
  pure (clampHwid limit)

/-- `setClientHwidLimit`: the limit is saved and the client pushed again. -/
def setClientHwidLimit (actor : Operator) (id : ClientId) (input : ℤ) : Task (ℕ × List String) := do
  let client ← getClientForActor actor.actor id
  let limit ← writeHwidLimit client.id input
  let errors ← pushClient client
  lift (audit (some actor.id) "client.hwid.set")
  pure (limit, errors)

/-- `clearAutoRenew`. -/
def clearAutoRenew (actor : Operator) (id : ClientId) : Task Unit := do
  let client ← getClientForActor actor.actor id
  dropRule client.id
  lift (audit (some actor.id) "client.auto_renew.clear")

end Site

end SRPanel
