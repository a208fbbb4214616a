import SRPanel.Model.Clients

/-!
# Sub-panels

A plan that is linked to a panel package sells the buyer a reseller account of their own. A
returning buyer, found by the key that the order gives, has the same account topped up instead.
-/

namespace SRPanel

open Interleaving

/-- An order as `fulfillOrder` reads it, with its seller. -/
structure FoundOrder where
  id : OrderId
  order : Order
  info : OrderInfo
  seller : Operator
  deriving DecidableEq

/-- `buyerKeyOf`. -/
def buyerKeyOf (id : OrderId) (order : Order) (info : OrderInfo) : BuyerKey :=
  let mail := lower (trim (info.customerEmail.getD ""))
  let tg := trim (order.customerTelegramId.getD "")
  let phone := trim (info.customerPhone.getD "")
  match info.customerId with
  | some customerId => .customer customerId
  | none =>
      if mail ≠ "" then .email mail
      else if tg ≠ "" then .telegram tg
      else if phone ≠ "" then .phone phone
      else .order id

/-- `buyerRefOf`. -/
def buyerRefOf (order : Order) (info : OrderInfo) : String :=
  sliceTo 120 ((orElse (trim (info.customerEmail.getD ""))
    (orElse (trim (order.customerTelegramId.getD ""))
      (orNull (trim (info.customerPhone.getD ""))))).getD "")

/-- Add a target to the access of its server. -/
def addAccess (t : Target) : List (ServerId × List ℕ) → List (ServerId × List ℕ)
  | [] => [(t.serverId, [t.inboundId])]
  | a :: rest =>
      if a.1 = t.serverId then
        (a.1, if t.inboundId ∈ a.2 then a.2 else a.2 ++ [t.inboundId]) :: rest
      else a :: addAccess t rest

/-- `accessOf`: the inbounds of the sold plan, by server. -/
def panelAccess (snap : PlanSnapshot) : List (ServerId × List ℕ) :=
  snap.targets.foldl (fun access t => addAccess t access) []

/-- What a panel package gives: `PanelPackage` with the figures of the link resolved. -/
structure PanelPackage where
  gb : ℕ
  days : ℕ
  clients : ℕ
  deriving DecidableEq

/-- The figures of a link, with those of the plan where it has none. -/
def packageOf (link : PanelPlanLink) (snap : PlanSnapshot) : PanelPackage :=
  ⟨if 0 < link.gb then link.gb else snap.trafficGB, if 0 < link.days then link.days else snap.days,
    link.clients⟩

/-- A number of packages as a limit, 0 being none. -/
def limitOf (n : ℕ) : Option ℕ := if 0 < n then some n else none

/-- The account of a returning buyer after a renewal. -/
def renewedAccount (a : Account) (pkg : PanelPackage) (telegramId : Option String)
    (now : ℤ) : Account :=
  { a with
    trafficQuota := if pkg.gb = 0 then none else a.trafficQuota.map (· + gbToBytes pkg.gb)
    clientLimit := if pkg.clients = 0 then none else a.clientLimit.map (· + pkg.clients)
    expiresAt := if 0 < pkg.days then
      some (max (a.expiresAt.getD now) now + pkg.days * DAY_MS) else none
    isActive := true
    telegramId := orElse (trim (telegramId.getD "")) a.telegramId }

/-- The account of a new buyer. -/
def newAccount (f : FoundOrder) (pkg : PanelPackage) (access : List (ServerId × List ℕ))
    (username : String) (password : Draw) (now : ℤ) : Account where
  username := username
  passwordHash := password
  displayName := orNull (sliceTo 60 (trim (f.info.customerName.getD "")))
  isActive := true
  trafficQuota := if 0 < pkg.gb then some (gbToBytes pkg.gb) else none
  clientLimit := limitOf pkg.clients
  expiresAt := if 0 < pkg.days then some (now + pkg.days * DAY_MS) else none
  telegramId := orNull (trim (f.order.customerTelegramId.getD ""))
  createdById := some f.seller.id
  pricePerGB := none
  pricePerDay := none
  serverAccess := access

/-- The base of a username. -/
def usernameBase (linkPrefix : String) : String :=
  (orNull (sliceTo 10 (.ofList ((lower linkPrefix).toList.filter fun c =>
    c.isDigit || ('a' ≤ c && c ≤ 'z'))))).getD "sp"

/-- Close a fulfilment. -/
def Deliveries.close (d : Deliveries) (orderId : OrderId) : Deliveries :=
  { d with running := d.running.erase orderId }

namespace Site

/-- The linked package of a plan that sells one. -/
def linkOf (s : Site) (planId : Option PlanId) : Option PanelPlanLink :=
  (planId.bind s.book.links.get?).filter PanelPlanLink.enabled

/-- `panelPlanFor`. -/
def panelPlanFor (planId : Option PlanId) : Task (Option PanelPlanLink) :=
  match planId with
  | none => pure none
  | some _ => read fun s => s.linkOf planId

/-- `assertFeature("sharedPanel")`. -/
def assertSharedPanel : Task Unit := do
  let has ← read Site.sharedPanel
  refuseIf (!has) (forbiddenError "این بخش نیازمند لایسنس پرمیوم است: پنل اشتراکی")

/-- The attempts of `freePanelUsername`, of which `n` are left. -/
def freeUsername (base : String) : (n : ℕ) → Task String
  | 0 => throw (badRequest "ساخت نام کاربری یکتا برای زیرپنل ممکن نشد")
  | n + 1 => do
      let d ← draw
      let candidate ← read fun s => base ++ s.base.outside.randomHex d
      let taken ← read fun s => s.accounts.rows.any fun r => r.2.username = candidate
      if taken then freeUsername base n else pure candidate

/-- `freePanelUsername`. -/
def freePanelUsername (linkPrefix : String) : Task String :=
  freeUsername (usernameBase linkPrefix) 12

/-- The credit of an admin. -/
def creditOf (s : Site) (id : AdminId) : ℤ := ((s.base.admins.get? id).map Admin.credit).getD 0

/-- `prisma.admin.update` of an account that has been read before, with the updated account and its
credit for its result. -/
def updateAccount (seen : Operator) (figures : Figures) (f : Account → Account)
    (cause : Option OrderId) : Task (Account × ℤ) :=
  .step (.grants seen.id seen.account figures) fun s =>
    match s.operator seen.id with
    | none => (.error recordNotFound, s)
    | some o => (.ok (f o.account, s.creditOf seen.id), { s with
        accounts := s.accounts.modify seen.id f
        deliveries := s.deliveries.deliver cause })

/-- `prisma.admin.create`, which returns the id of the new admin. -/
def createAccount (account : Account) (cause : OrderId) : Task AdminId :=
  .step .other fun s =>
    if s.accounts.rows.any fun r => r.2.username = account.username then (.error uniqueViolation, s)
    else (.ok s.base.nextId, { s with
      base := { s.base with
        admins := s.base.admins.set s.base.nextId ⟨.admin, 0, s.base.now⟩
        nextId := s.base.nextId + 1 }
      accounts := s.accounts.set s.base.nextId account
      deliveries := s.deliveries.deliver (some cause) })

/-- The sub-panel that the buyer of an order already has, and its account; the owner is never one.
-/
def returningBuyer (s : Site) (key : AdminId × BuyerKey) : Option (PanelAccount × Operator) := do
  let previous ← s.book.accounts.get? key
  let existing ← s.operator previous.adminId
  if existing.role = .owner then none else some (previous, existing)

/-- The look-up of a returning buyer; only a link with top-ups looks. -/
def findReturning (link : PanelPlanLink) (key : AdminId × BuyerKey) :
    Task (Option (PanelAccount × Operator)) := do
  let previous ← read fun s => if link.topUp then s.book.accounts.get? key else none
  match previous with
  | none => pure none
  | some previous => do
      let existing ← read fun s => s.operator previous.adminId
      pure (existing.bind fun a => if a.role = .owner then none else some (previous, a))

/-- The renewal of a sub-panel. -/
def renewPanel (f : FoundOrder) (pkg : PanelPackage) (now : ℤ) (previous : PanelAccount)
    (existing : Operator) : Task (PanelAccount × Option Draw) := do
  let account := renewedAccount existing.account pkg f.order.customerTelegramId now
  let _ ← updateAccount existing ⟨pkg.gb ≠ 0, pkg.clients ≠ 0, pkg.days ≠ 0⟩ (fun a => { a with
    trafficQuota := account.trafficQuota
    clientLimit := account.clientLimit
    expiresAt := account.expiresAt
    isActive := account.isActive
    telegramId := account.telegramId }) (some f.id)
  pure ({ previous with
    username := existing.account.username
    planId := f.info.planId.or previous.planId
    buyerRef := (orElse (buyerRefOf f.order f.info) (some previous.buyerRef)).getD ""
    lastOrderId := f.id
    lastAt := now.toNat
    renewals := previous.renewals + 1 }, none)

/-- A new sub-panel. -/
def openPanel (f : FoundOrder) (link : PanelPlanLink) (pkg : PanelPackage) (now : ℤ) :
    Task (PanelAccount × Option Draw) := do
  let password ← draw
  let username ← freePanelUsername link.usernamePrefix
  let access := if link.grantAccess then panelAccess f.info.planSnapshot else []
  let id ← createAccount (newAccount f pkg access username password now) f.id
  pure (⟨id, username, f.seller.id, f.info.planId, buyerRefOf f.order f.info, f.id, now.toNat, f.id,
    now.toNat, 0⟩, some password)

/-- The sub-panel of an order: the buyer's own again, or a new one. -/
def grantPanel (f : FoundOrder) (link : PanelPlanLink) (pkg : PanelPackage) (now : ℤ)
    (key : AdminId × BuyerKey) : Task (PanelAccount × Option Draw) := do
  let found ← findReturning link key
  match found with
  | some (previous, existing) => renewPanel f pkg now previous existing
  | none => openPanel f link pkg now

/-- `savePanelPlanBook`, with one account put in. -/
def saveAccount (key : AdminId × BuyerKey) (account : PanelAccount) : Task Unit := do
  let fresh ← read Site.book
  write fun s => { s with book := ⟨fresh.links, fresh.accounts.set key account⟩ }

/-- `parkPanelHandoff`, when no channel reached the buyer. -/
def parkHandoff (orderId : OrderId) (handoff : PanelHandoff) (reached : List String) : Task Unit :=
  if reached.isEmpty then do
    let items ← read Site.handoffs
    write fun s => { s with handoffs := items.set orderId handoff }
  else pure ()

/-- The `prisma.order.update` that ends a fulfilment. -/
def closeOrder (id : OrderId) (f : Order → Order) (g : OrderInfo → OrderInfo) : Task Order :=
  .step .other fun s =>
    match s.base.orders.get? id with
    | none => (.error recordNotFound, s)
    | some o => (.ok (f o), { s with
        base := { s.base with orders := s.base.orders.modify id fun _ => f o }
        orderInfo := s.orderInfo.modify id g
        deliveries := s.deliveries.close id })

/-- The error of a failed fulfilment is left in the order. -/
def failOrder (id : OrderId) (err : AppError) : Task Order := do
  let failed ← closeOrder id (fun o => { o with error := some (sliceTo 500 err.message) }) fun i =>
    i
  lift (notify "order.failed")
  pure failed

/-- The counter of sold plans; a plan that is gone is ignored. -/
def countSale (planId : Option PlanId) : Task Unit :=
  match planId with
  | none => pure ()
  | some id => Prog.attempt (write fun s => { s with
      plans := s.plans.modify id fun p => { p with sold := p.sold + 1 } }) fun _ => pure ()

/-- `provisionPanelOrder`, before its handler. -/
def providePanel (f : FoundOrder) (link : PanelPlanLink) : Task Order := do
  assertSharedPanel
  let t ← now
  let key := (f.seller.id, buyerKeyOf f.id f.order f.info)
  let granted ← grantPanel f link (packageOf link f.info.planSnapshot) t key
  saveAccount key granted.1
  let reached ← read fun s => s.channels f.id
  parkHandoff f.id ⟨f.seller.id, granted.1.adminId, granted.1.username, granted.2, granted.2.isNone,
    t.toNat⟩ reached
  let note := sliceTo 500 (" | ".intercalate ([f.info.note.getD "",
    "\\u0632\\u06cc\\u0631\\u067e\\u0646\\u0644: " ++ granted.1.username].filter (· ≠ "")))
  let done ← closeOrder f.id (fun o => { o with status := .fulfilled, error := none })
    fun i => { i with fulfilledAt := some t.toNat, note := some note }
  countSale f.info.planId
  lift (audit (some f.seller.id) (if granted.2.isNone then "panel.renew" else "panel.provision"))
  lift (emitEvent (some f.seller.id) "order.fulfilled")
  lift (notify "order.fulfilled")
  pure done

/-- `provisionPanelOrder`. -/
def provisionPanelOrder (f : FoundOrder) (link : PanelPlanLink) : Task Order :=
  (providePanel f link).attempt (failOrder f.id)

end Site

end SRPanel
