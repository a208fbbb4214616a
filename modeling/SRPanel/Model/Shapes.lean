import Mathlib.Data.List.Lex
import Mathlib.Data.List.Sort
import Mathlib.Data.Rat.Defs
import SRPanel.Lib.Grouping
import SRPanel.Lib.Utf16

/-!
# Targets and links by their shapes

`services/clients/grouping.ts` turns the inbounds that were picked for a client into remote clients:
inbounds of one server that need the same protocol and flow are one. Here the texts are the ones
that the code joins into keys, by their code units.
-/

namespace SRPanel.Shapes

open Utf16 Grouping

/-! ## Targets -/

/-- An entry of a list as it arrives: `String(t?.serverId ?? "")` and `Number(t?.inboundId)`, `none`
if that is not finite. -/
structure RawTarget where
  serverId : Text
  inboundId : Option ℚ
  deriving DecidableEq

/-- `ClientTarget`. -/
structure ClientTarget where
  serverId : Text
  inboundId : ℚ
  deriving DecidableEq

/-- A target as an entry of a list. -/
def ClientTarget.raw (t : ClientTarget) : RawTarget := ⟨t.serverId, some t.inboundId⟩

/-- The target of an entry that is none of the garbage. -/
def RawTarget.clean (t : RawTarget) : Option ClientTarget :=
  if t.serverId = [] then none else t.inboundId.map fun i => ⟨t.serverId, i⟩

/-- `a < b` of texts. -/
def textLt (a b : Text) : Bool := a.map UInt16.toNat < b.map UInt16.toNat

/-- The comparison of `normalizeTargets` does not put `b` before `a`. -/
def targetLe (a b : ClientTarget) : Bool :=
  if a.serverId = b.serverId then a.inboundId ≤ b.inboundId else textLt a.serverId b.serverId

/-- `normalizeTargets`. -/
def normalizeTargets (list : List RawTarget) : List ClientTarget :=
  ((list.filterMap RawTarget.clean).foldl
    (fun out t => if t ∈ out then out else out ++ [t]) []).insertionSort fun a b => targetLe a b

/-! ## Groups -/

/-- An entry of `inbound.settings.clients`: the id and the flow, where they are texts. -/
structure InboundClient where
  id : Option Text
  flow : Option Text
  deriving DecidableEq

/-- `StoredInbound`, as far as it is read here. -/
structure StoredInbound where
  id : Option ℚ
  protocol : Option Text
  clients : List InboundClient
  /-- `streamSettings.security` -/
  security : Option Text
  /-- `streamSettings.network` -/
  network : Option Text
  deriving DecidableEq

structure Server where
  id : Text
  inbounds : List StoredInbound
  deriving DecidableEq

/-- `resolveFlow`, without an override. -/
def resolveFlow (inbound : StoredInbound) (uuid : Text) : Text :=
  match (inbound.clients.find? fun c => c.id = some uuid).bind InboundClient.flow with
  | some flow => flow
  | none =>
      match inbound.clients.findSome? InboundClient.flow with
      | some flow => flow
      | none =>
          let network := inbound.network.getD []
          if inbound.protocol = some (encode "vless") && inbound.security =
              some (encode "reality") && (network = [] || network = encode "tcp") then
                encode "xtls-rprx-vision"
          else []

/-- What a turn of the loop of `groupTargets` finds out about a target. -/
structure Shape where
  server : Server
  protocol : Text
  flow : Text
  inboundId : ℚ
  deriving DecidableEq

/-- The shape of a target; one whose server is unknown is skipped. -/
def shape (servers : List Server) (uuid : Text) (t : ClientTarget) : Option Shape :=
  (servers.find? fun s => s.id = t.serverId).map fun server =>
    let inbound := server.inbounds.find? fun i => i.id = some t.inboundId
    ⟨server, (inbound.bind StoredInbound.protocol).getD (encode "vless"),
      (inbound.map fun i => resolveFlow i uuid).getD [], t.inboundId⟩

/-- `PanelGroup`. -/
structure PanelGroup where
  server : Server
  protocol : Text
  flow : Text
  inboundIds : List ℚ
  deriving DecidableEq

/-- The texts joined with a bar. -/
def joined (a b : Text) : Text := a ++ 124 :: b

/-- What tells the groups apart: server, protocol and flow. -/
def Shape.kind (x : Shape) : Text × Text × Text := (x.server.id, x.protocol, x.flow)

/-- The key that is made of them. -/
def kindKey (k : Text × Text × Text) : Text := joined (joined k.1 k.2.1) k.2.2

/-- The group of targets with one key; the first one decides on its server, protocol and flow. -/
def panelGroup (xs : List Shape) : Option PanelGroup :=
  xs.head?.map fun x => ⟨x.server, x.protocol, x.flow,
    (xs.map Shape.inboundId).insertionSort (· ≤ ·)⟩

/-- `groupTargets`. -/
def groupTargets (targets : List ClientTarget) (servers : List Server) (uuid : Text) :
    List PanelGroup :=
  (grouped (kindKey ∘ Shape.kind) (targets.filterMap (shape servers uuid))).filterMap panelGroup

/-! ## Links -/

/-- `ClientServer`, as far as it is read here. -/
structure Link where
  id : Text
  serverId : Text
  inboundId : ℤ
  remoteEmail : Text
  deriving DecidableEq

/-- `LinkGroup`. -/
structure LinkGroup where
  serverId : Text
  remoteEmail : Text
  inboundIds : List ℤ
  linkIds : List Text
  deriving DecidableEq

/-- What tells the groups of links apart: server and email. -/
def Link.kind (l : Link) : Text × Text := (l.serverId, l.remoteEmail)

/-- The key that is made of them. -/
def emailKey (k : Text × Text) : Text := joined k.1 k.2

/-- The group of links with one key. -/
def linkGroup (ls : List Link) : Option LinkGroup :=
  ls.head?.map fun l => ⟨l.serverId, l.remoteEmail, ls.map Link.inboundId, ls.map Link.id⟩

/-- `groupLinks`. -/
def groupLinks (links : List Link) : List LinkGroup :=
  (grouped (emailKey ∘ Link.kind) (links.insertionSort fun a b =>
    a.inboundId ≤ b.inboundId)).filterMap linkGroup

end SRPanel.Shapes
