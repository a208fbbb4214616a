import SRPanel.Model.Panels

/-!
# Services and plans

Bundles of inbounds, and the servers and services that an admin may use.
-/

namespace SRPanel

open Interleaving

/-- `planTargets`. -/
def planTargets (plan : Plan) : List Target := plan.targets.map PlanTarget.target

/-- `planServiceId`: the service that a plan was built from. -/
def planServiceId (plan : Plan) : Option ServiceId := plan.targets.findSome? PlanTarget.serviceId

/-- A target of a listed service. -/
structure ServiceTarget where
  target : Target
  enabled : Bool
  deriving DecidableEq

/-- `ServiceWithTargets`. -/
structure ListedService where
  name : String
  targetInfo : List ServiceTarget
  deriving DecidableEq

/-- `visibilityWhere`, for active services only. -/
def ServiceRow.visibleTo (actor : Actor) (row : ServiceRow) : Bool :=
  row.isActive && (actor.role = .owner || row.adminIds.isEmpty || actor.id ∈ row.adminIds)

/-- The target as `listServices` shows it. -/
def serviceTarget (servers : List (ServerId × Server)) (t : Target) : ServiceTarget :=
  let inbound := (servers.find? fun s => s.1 = t.serverId).bind fun s => s.2.inbound? t.inboundId
  ⟨t, inbound.any StoredInbound.enable⟩

/-- A service as `listServices` shows it; an admin does not see one without a target left. -/
def listService (actor : Actor) (servers : List (ServerId × Server))
    (access : Option (List (ServerId × List ℕ))) (row : ServiceRow) : Option ListedService :=
  let targetInfo := (row.targets.filter (Site.canUse access)).map (serviceTarget servers)
  if actor.role ≠ .owner && targetInfo.isEmpty then none else some ⟨row.name, targetInfo⟩

namespace Site

/-- The access rows of an actor; an owner needs none. -/
def accessOf (actor : Actor) : Task (Option (List (ServerId × List ℕ))) :=
  if actor.role = .owner then pure none else read fun s => some (s.serverAccessOf actor.id)

/-- `listServices`, for active services only. -/
def listServices (actor : Actor) : Task (List ListedService) := do
  let items ← read fun s =>
    ((s.services.rows.map Prod.snd).filter (ServiceRow.visibleTo actor)).insertionSort fun a b =>
      a.sortOrder < b.sortOrder ∨ a.sortOrder = b.sortOrder ∧ a.createdAt ≤ b.createdAt
  let servers ← read fun s => s.servers.rows.filter fun r => r.2.isActive
  let access ← accessOf actor
  pure (items.filterMap (listService actor servers access))

/-- `listServersFor`. -/
def listServersFor (actor : Actor) : Task (List (ServerId × Server)) :=
  read fun s => (s.servers.rows.filter fun r =>
      actor.role = .owner || (s.serverAccessOf actor.id).any fun a => a.1 = r.1).insertionSort
    fun a b => (a.2.isActive && !b.2.isActive) ∨ a.2.isActive = b.2.isActive ∧ a.2.name ≤ b.2.name

/-- `getServiceForActor`. -/
def getServiceForActor (actor : Actor) (id : ServiceId) : Task ServiceRow := do
  let service ← read fun s => s.services.get? id
  match service with
  | none => throw (notFoundError "سرویس پیدا نشد")
  | some service => do
      refuseIf (actor.role ≠ .owner && !service.isActive) (badRequest "این سرویس فعال نیست")
      refuseIf (actor.role ≠ .owner && !service.adminIds.isEmpty && actor.id ∉ service.adminIds)
        (forbiddenError "به این سرویس دسترسی ندارید")
      pure service

/-- `resolveServiceTargets`. -/
def resolveServiceTargets (actor : Actor) (id : ServiceId) : Task (List Target) := do
  let service ← getServiceForActor actor id
  let access ← accessOf actor
  let targets := service.targets.filter (canUse access)
  refuseIf targets.isEmpty
    (badRequest ("هیچ اینباند در دسترسی برای سرویس «" ++ service.name ++ "» پیدا نشد"))
  pure targets

end Site

end SRPanel
