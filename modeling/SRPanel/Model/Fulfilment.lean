import SRPanel.Model.PanelPlans
import SRPanel.Model.Orders

/-!
# Fulfilment

`fulfillOrder` hands out what a paid order bought: a new client, the renewal of one, or a sub-panel.
Its only guard is the status of the order, which it reads first and writes last.

An error leaves the order as it is, with the message in `error`, and the seller may try again.
-/

namespace SRPanel

open Interleaving

/-- The fulfilment that has read its order starts if the order is paid. -/
def Deliveries.begin (d : Deliveries) (orderId : OrderId) (status : OrderStatus) : Deliveries :=
  if status = .paid then { d with running := orderId :: d.running } else d

/-- What a listed service offers: its enabled targets, if there are any. -/
def serviceOffer (service : ListedService) : Option (List Target × String) :=
  let targets := (service.targetInfo.filter ServiceTarget.enabled).map ServiceTarget.target
  if targets.isEmpty then none else some (targets, "service:" ++ service.name)

/-- What a server offers: its first enabled inbound. -/
def serverOffer (server : ServerId × Server) : Option (List Target × String) :=
  (server.2.inbounds.find? StoredInbound.enable).map fun inbound =>
    ([⟨server.1, inbound.id⟩], "server:" ++ server.2.name)

namespace Site

/-- The order `id` with its details and its seller. -/
def findOrder (s : Site) (id : OrderId) : Option FoundOrder := do
  let order ← s.base.orders.get? id
  let info ← s.orderInfo.get? id
  let seller ← s.operator order.adminId
  some ⟨id, order, info, seller⟩

/-! ## Targets -/

/-- The stored targets of the plan of an order. -/
def planOffer (planId : Option PlanId) : Task (List Target) :=
  match planId with
  | none => pure []
  | some id => read fun s => ((s.plans.get? id).map planTargets).getD []

/-- `resolveOrderTargets`: the targets of a paid order, and where they come from. -/
def resolveOrderTargets (seller : Actor) (snap : PlanSnapshot) (planId : Option PlanId) :
    Task (List Target × String) :=
  if !snap.targets.isEmpty then pure (snap.targets, "snapshot")
  else do
    let fromPlan ← planOffer planId
    if !fromPlan.isEmpty then pure (fromPlan, "plan")
    else do
      let services ← listServices seller
      match services.findSome? serviceOffer with
      | some found => pure found
      | none => do
          let servers ← listServersFor seller
          match servers.findSome? serverOffer with
          | some found => pure found
          | none => throw (badRequest
              "هیچ سرویس یا اینباند فعالی برای تحویل سفارش پیدا نشد؛ برای پلن یک سرویس/اینباند انتخاب کنید")

/-! ## Subscriptions -/

/-- The patch of a renewal. -/
def renewal (snap : PlanSnapshot) : UpdateClientInput :=
  { UpdateClientInput.none with
    trafficGB := some snap.trafficGB
    addDays := some snap.days
    enabled := some true }

/-- The client to renew, if it is one of the seller's, with its links. -/
def renewable (s : Site) (seller : AdminId) (id : ClientId) :
    Option (List (LinkKey × ClientServer)) :=
  ((s.clients.get? id).filter fun c => c.adminId = seller).map fun _ => s.linksOf id

/-- Renew a client; the warnings are returned with it. -/
def renewConfig (f : FoundOrder) (id : ClientId) : Task (ClientId × List String) := do
  let existing ← read fun s => s.renewable f.seller.id id
  match existing with
  | none => throw (badRequest "کلاینت برای تمدید پیدا نشد")
  | some links => do
      let _ ← resetClientTraffic f.seller.actor id
      let updated ← updateClient f.seller id (renewal f.info.planSnapshot) (some f.id)
      pure (id, updated.2 ++
        if links.isEmpty then
          ["این اشتراک هیچ کانفیگی روی پنل ندارد؛ یک سرویس به آن اضافه کنید"] else [])

/-- `randomConfigName()`. -/
def randomConfigName : Task String := do
  let d ← draw
  read fun s => "srp-" ++ s.base.outside.randomHex d

/-- The client that an order asks for. -/
def orderedClient (f : FoundOrder) (name : String) (targets : List Target) (via : String) :
    CreateClientInput :=
  let customer := trim (f.info.customerName.getD "")
  { name := name
    tag := none
    serviceId := none
    trafficGB := f.info.planSnapshot.trafficGB
    days := f.info.planSnapshot.days
    startAfterUse := false
    ipLimit := f.info.planSnapshot.ipLimit
    telegramId := f.order.customerTelegramId
    phone := f.info.customerPhone
    note := some ("سفارش فروشگاه #" ++ sliceLast 6 (toString f.id) ++ " — " ++
      f.info.planSnapshot.name ++ (if customer = "" then "" else " — " ++ customer) ++
      " [" ++ via ++ "]")
    targets := targets }

/-- Create a client; the warnings are returned with it. -/
def createConfig (f : FoundOrder) : Task (ClientId × List String) := do
  let found ← resolveOrderTargets f.seller.actor f.info.planSnapshot f.info.planId
  let name ← randomConfigName
  let created ← createClient f.seller (orderedClient f name found.1 found.2) (some f.id)
  pure (created.1.id, created.2)

/-- The client of an order, renewed or new. -/
def orderConfig (f : FoundOrder) : Task (ClientId × List String) :=
  match f.info.renewClientId with
  | some id => renewConfig f id
  | none => createConfig f

/-- The warnings of a fulfilment as the error of its order. -/
def warningText (warnings : List String) : Option String :=
  if warnings.isEmpty then none else some (sliceTo 500 (" | ".intercalate warnings))

/-- What `fulfillOrder` does after it has closed the order. -/
def announce (f : FoundOrder) (warnings : List String) : Task Unit := do
  countSale f.info.planId
  lift (audit (some f.seller.id) "order.fulfill")
  lift (emitEvent (some f.seller.id) "order.fulfilled")
  lift (notify "order.fulfilled")
  if warnings.isEmpty then pure () else lift (notify "order.failed")

/-- The fulfilment of a subscription, before its handler. -/
def provideConfig (f : FoundOrder) : Task Order := do
  let config ← orderConfig f
  let t ← now
  let done ← closeOrder f.id
    (fun o => { o with status := .fulfilled, error := warningText config.2 })
    fun i => { i with clientId := some config.1, fulfilledAt := some t.toNat }
  announce f config.2
  pure done

/-! ## Orders -/

/-- The fulfilment of an order that is paid. -/
def deliver (f : FoundOrder) : Task Order := do
  let panelLink ← panelPlanFor f.info.planId
  match panelLink with
  | some link => provisionPanelOrder f link
  | none => (provideConfig f).attempt (failOrder f.id)

/-- `fulfillOrder`. -/
def fulfillOrder (orderId : OrderId) : Task Order := do
  let found ← .step (.begins orderId) fun s =>
    let found := s.findOrder orderId
    (.ok found, { s with deliveries := match found with
      | some f => s.deliveries.begin orderId f.order.status
      | none => s.deliveries })
  match found with
  | none => throw (notFoundError "سفارش پیدا نشد")
  | some f =>
      if f.order.status = .fulfilled then pure f.order
      else if f.order.status ≠ .paid then throw (badRequest "سفارش هنوز پرداخت نشده است")
      else deliver f

/-- The order update of a manual confirmation. -/
def markPaid (orderId : OrderId) : Service Order :=
  .step (.pay orderId) fun w =>
    match w.orders.get? orderId with
    | none => (.error recordNotFound, w)
    | some o =>
        let o' := { o with status := .paid, paidAt := some w.now }
        (.ok o', { w with orders := w.orders.modify orderId fun _ => o' })

/-- The manual confirmation of an order without payment. -/
def payManually (actor : Actor) (orderId : OrderId) (order : Order) : Service Unit :=
  if order.status = .pending then do
    let _ ← markPaid orderId
    closePayments orderId fun p => { p with status := .confirmed, reviewedById := some actor.id }
    audit (some actor.id) "order.manual_paid"
  else pure ()

/-- `retryFulfill`. -/
def retryFulfill (actor : Actor) (orderId : OrderId) : Task Order := do
  let order ← lift (Db.read fun w => w.orders.get? orderId)
  match order with
  | none => throw (notFoundError "سفارش پیدا نشد")
  | some order =>
      if actor.role ≠ .owner && order.adminId ≠ actor.id then
        throw (forbiddenError "دسترسی غیرمجاز")
      else do
        lift (payManually actor orderId order)
        fulfillOrder orderId

/-- `confirmPayment`, from the order update on: a payment of an order has been confirmed. -/
def confirmOrder (payment : PaymentId) (orderId : OrderId) (adminId : AdminId) : Task Order := do
  let _ ← lift (payOrder payment orderId)
  lift (emitEvent (some adminId) "order.paid")
  fulfillOrder orderId

end Site

end SRPanel
