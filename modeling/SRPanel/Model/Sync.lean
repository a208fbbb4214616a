import SRPanel.Lib.Grouping
import SRPanel.Model.Clients

/-!
# Synchronisation with the panels

What the worker does on its own: it reads the counters of the panels into the links of the clients,
marks the clients whose expiry has passed, and gives a client whose period starts with its first
connection its date.
-/

namespace SRPanel

open Interleaving

/-- `PanelClientStat`. -/
structure PanelClientStat where
  email : String
  up : ℤ
  down : ℤ
  /-- 0 if the panel does not say -/
  inboundId : ℕ
  deriving DecidableEq

/-- `PanelInbound`. -/
structure PanelInbound where
  stored : StoredInbound
  clientStats : List PanelClientStat
  deriving DecidableEq

/-- What a panel answers to a synchronisation. -/
structure PanelReport where
  inbounds : List PanelInbound
  onlines : List String
  deriving DecidableEq

/-- The rows of an inbound, each with the inbound that it is reported under. -/
def PanelInbound.stats (ib : PanelInbound) : List PanelClientStat :=
  ib.clientStats.map fun s =>
    { s with inboundId := if s.inboundId = 0 then ib.stored.id else s.inboundId }

/-- The larger of two rows of one email; the earlier one if they are equal. -/
def largerStat (prev : Option PanelClientStat) (s : PanelClientStat) : Option PanelClientStat :=
  match prev with
  | none => some s
  | some p => if p.up + p.down < s.up + s.down then some s else some p

/-- `stats.get(email)`. -/
def PanelReport.statOf (report : PanelReport) (email : String) : Option PanelClientStat :=
  ((report.inbounds.flatMap PanelInbound.stats).filter fun s =>
    s.email = email).foldl largerStat none

/-- The client of a link and its email. -/
def sharedKey (l : LinkKey × ClientServer) : ClientId × String := (l.1.clientId, l.2.remoteEmail)

/-- Links in the order of their inbounds. -/
def byInbound (links : List (LinkKey × ClientServer)) : List (LinkKey × ClientServer) :=
  links.insertionSort fun a b => a.1.inboundId ≤ b.1.inboundId

/-- The links that share an email are one remote client; each group is sorted by its inbounds. -/
def sharedGroups (links : List (LinkKey × ClientServer)) : List (List (LinkKey × ClientServer)) :=
  (Grouping.grouped sharedKey links).map byInbound

/-- The link of a group that the panel reports against, or the first one. -/
def reportedLink (stat : PanelClientStat) (head : LinkKey × ClientServer)
    (group : List (LinkKey × ClientServer)) : LinkKey × ClientServer :=
  (group.find? fun l => l.1.inboundId = stat.inboundId).getD head

/-- A counter's growth; a decrease means that it was reset on the panel. -/
def usageDelta (value prev : ℤ) : ℤ := if prev ≤ value then value - prev else value

/-- What a group has contributed to a synchronisation. -/
structure SyncedGroup where
  clientId : ClientId
  usage : Option UsageRow
  isOnline : Bool
  deriving DecidableEq

namespace Site

/-- `prisma.clientServer.update`. -/
def updateLink (key : LinkKey) (f : ClientServer → ClientServer) : Task Unit :=
  .step .other fun s =>
    match s.links.get? key with
    | none => (.error recordNotFound, s)
    | some _ => (.ok (), { s with links := s.links.modify key f })

/-- One group of links, first the link at its head: the inbound that the panel reports against holds
the usage, and the others mirror it with zero. -/
def applyGroup (report : PanelReport) (head : LinkKey × ClientServer)
    (group : List (LinkKey × ClientServer)) : Task (Option SyncedGroup) :=
  match report.statOf head.2.remoteEmail with
  | none => do
      updateLinks (group.map Prod.fst) fun r => { r with lastError := some "روی پنل پیدا نشد" }
      pure none
  | some stat => do
      let primary := reportedLink stat head group
      let up := max 0 stat.up
      let down := max 0 stat.down
      let dUp := usageDelta up primary.2.up
      let dDown := usageDelta down primary.2.down
      updateLink primary.1 fun r => { r with up := up, down := down, lastError := none }
      let mirrored := (group.map Prod.fst).filter (· ≠ primary.1)
      (if mirrored ≠ [] then updateLinks mirrored fun r =>
        { r with up := 0, down := 0, lastError := none }
        else pure ())
      pure (some ⟨primary.1.clientId,
        if 0 < dUp + dDown then some ⟨primary.1.clientId, dUp, dDown⟩ else none,
        head.2.remoteEmail ∈ report.onlines⟩)

/-- The groups one after the other. -/
def applyGroups (report : PanelReport) : List (List (LinkKey × ClientServer)) →
    Task (List SyncedGroup)
  | [] => pure []
  | [] :: rest => applyGroups report rest
  | (head :: links) :: rest => do
      let done ← applyGroup report head (head :: links)
      let others ← applyGroups report rest
      pure (done.toList ++ others)

/-- Clients one after the other. -/
def recomputeClients : List ClientId → Task Unit
  | [] => pure ()
  | id :: ids => do
      recomputeClient id
      recomputeClients ids

/-- `applyClientStats`. -/
def applyClientStats (serverId : ServerId) (report : PanelReport) : Task Unit := do
  let links ← read fun s => s.links.rows.filter fun r => r.1.serverId = serverId
  let t ← now
  let groups ← applyGroups report (sharedGroups links)
  write fun s => { s with clientUsage := groups.filterMap SyncedGroup.usage ++ s.clientUsage }
  let online := (groups.filter SyncedGroup.isOnline).map SyncedGroup.clientId
  write fun s => { s with clients := s.clients.mapRows fun id c =>
    if id ∈ online then { c with lastOnlineAt := some t } else c }
  recomputeClients (groups.map SyncedGroup.clientId).eraseDups

/-- `syncServer`, with the answer of the panel; a panel that fails leaves the clients alone, and so
does an error in between the rest of them. -/
def syncServer (serverId : ServerId) (answer : Option PanelReport) : Task Unit := do
  let server ← read fun s => s.servers.get? serverId
  match server with
  | none => throw (notFoundError "سرور پیدا نشد")
  | some _ =>
      match answer with
      | none => pure ()
      | some report => Prog.attempt (do
          write fun s => { s with servers := s.servers.modify serverId fun server =>
            { server with inbounds := report.inbounds.map PanelInbound.stored } }
          applyClientStats serverId report) fun _ => pure ()

/-! ## Expired clients -/

/-- `prisma.client.updateMany` by id, with a status derived from the rows as they were read. -/
def markClients (seen : List (ClientId × ClientStatus)) (status : ClientStatus) : Task Unit :=
  .modify (.derives seen status) fun s => { s with
    clients := s.clients.mapRows fun id c =>
      if id ∈ seen.map Prod.fst then { c with status := status } else c }

/-- `onClientStatusChanged` for clients one after the other. -/
def announceStatus (status : ClientStatus) : List ClientId → Task Unit
  | [] => pure ()
  | id :: ids => do
      let c ← read fun s => s.clients.get? id
      (match c with
        | none => pure ()
        | some c => onClientStatusChanged c status)
      announceStatus status ids

/-- The clients whose expiry has passed while they are marked as active, at most 500 of them, with
the status under which they are read. -/
def expiredClients (s : Site) : List (ClientId × ClientStatus) :=
  ((s.clients.rows.filter fun r =>
    r.2.status = .active && r.2.expiresAt.any (· < (s.base.now : ℤ))).map fun r => (r.1,
      r.2.status)).take 500

/-- `enforceClientStatuses`, less the number of clients. -/
def enforceClientStatuses : Task Unit := do
  let expired ← read expiredClients
  if expired = [] then pure ()
  else do
    markClients expired .expired
    announceStatus .expired (expired.map Prod.fst)

/-! ## Delayed starts -/

/-- `clearPendingStart`. -/
def dropPendingStart (id : ClientId) : Task Unit :=
  write fun s => { s with pendingStarts := s.pendingStarts.erase id }

/-- One client of `activatePendingStarts`; the result is whether it has got its expiry. -/
def activateStart (id : ClientId) (days : ℕ) : Task Bool := do
  let client ← read fun s => s.clients.get? id
  match client with
  | none => do
      dropPendingStart id
      pure false
  | some client =>
      if client.expiresAt.isSome then do
        dropPendingStart id
        pure false
      else if client.usedUp + client.usedDown ≤ 0 && client.lastOnlineAt.isNone then pure false
      else do
        let t ← now
        updateRow id (fun c => { c with
          expiresAt := some (client.lastOnlineAt.getD t + days * DAY_MS)
          note := withoutPendingNote client.note }) none
        dropPendingStart id
        pure true

/-- Clients one after the other; the result is how many have got their expiry. -/
def activateStarts : List (ClientId × ℕ) → Task ℕ
  | [] => pure 0
  | row :: rows => do
      let activated ← activateStart row.1 row.2
      let others ← activateStarts rows
      pure (activated.toNat + others)

/-- `activatePendingStarts`. -/
def activatePendingStarts (limit : ℕ) : Task ℕ := do
  let rows ← read fun s => s.pendingStarts.rows.take (max 1 limit)
  activateStarts rows

end Site

end SRPanel
