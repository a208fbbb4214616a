import SRPanel.Lib.Zoom
import SRPanel.Model.World

/-!
# The state of an installation

`Site` extends the world of the payment services with what the delivery of orders reads and writes:
the clients of the sellers and their links, the servers with the 3x-ui panels behind them, services
and plans, the details of orders and admin accounts, and the book of sold sub-panels. A `Task` is a
procedure of atomic steps on the site; the payment services run inside it on their part of the
state.

The panels belong to the outside. What they answer is `replies`, by the number of the call, and
`remote` is what they have stored.
-/

namespace SRPanel

open Interleaving

abbrev ServerId := ℕ
abbrev ServiceId := ℕ
abbrev PlanId := ℕ

/-- The number of a random draw; it stands for the random text that was drawn. -/
abbrev Draw := ℕ

/-! ## Servers and services -/

/-- `ClientTarget`. -/
structure Target where
  serverId : ServerId
  inboundId : ℕ
  deriving DecidableEq

/-- An entry of `inbound.settings.clients`. -/
structure InboundUser where
  id : Draw
  flow : Option String
  deriving DecidableEq

/-- `StoredInbound`, as far as provisioning looks at it. -/
structure StoredInbound where
  id : ℕ
  protocol : String
  enable : Bool
  /-- `streamSettings.security` -/
  security : String
  /-- `streamSettings.network || "tcp"` -/
  network : String
  users : List InboundUser
  deriving DecidableEq

structure Server where
  name : String
  isActive : Bool
  inbounds : List StoredInbound
  deriving DecidableEq

/-- A row of the table `Service`. -/
structure ServiceRow where
  name : String
  targets : List Target
  /-- the admins who may use it, where empty means all -/
  adminIds : List AdminId
  isActive : Bool
  sortOrder : ℤ
  createdAt : Time
  deriving DecidableEq

/-! ## Clients -/

inductive ClientStatus
  | active
  | disabled
  | expired
  | limited
  deriving DecidableEq

structure Client where
  adminId : AdminId
  name : String
  tag : Option String
  serviceId : Option ServiceId
  uuid : Draw
  subToken : Draw
  /-- in bytes, 0 = unlimited -/
  trafficLimit : ℤ
  usedUp : ℤ
  usedDown : ℤ
  /-- `none` = never -/
  expiresAt : Option ℤ
  ipLimit : ℕ
  status : ClientStatus
  note : Option String
  telegramId : Option String
  phone : Option String
  lastOnlineAt : Option ℤ
  deriving DecidableEq

/-- The key of a link: a client may have one on every inbound of every server. -/
structure LinkKey where
  clientId : ClientId
  serverId : ServerId
  inboundId : ℕ
  deriving DecidableEq

/-- A row of the table `ClientServer`. -/
structure ClientServer where
  remoteEmail : String
  up : ℤ
  down : ℤ
  lastError : Option String
  deriving DecidableEq

/-- What `remoteSubId` hashes. -/
structure SubId where
  subToken : Draw
  serverId : ServerId
  inboundId : ℕ
  attempt : ℕ
  deriving DecidableEq

/-- A client on a 3x-ui panel; the panel keys it by its email. -/
structure RemoteClient where
  uuid : Draw
  inboundIds : List ℕ
  totalBytes : ℤ
  /-- in milliseconds; 0 = never, and a negative value counts from the first connection -/
  expiryTime : ℤ
  limitIp : ℕ
  limitHwid : ℕ
  enable : Bool
  subId : SubId
  flow : String
  tgId : String
  /-- the traffic counters, which grow until they are reset -/
  up : ℤ
  down : ℤ
  deriving DecidableEq

/-- A row of the table `ClientUsage`. -/
structure UsageRow where
  clientId : ClientId
  up : ℤ
  down : ℤ
  deriving DecidableEq

/-- A panel's answer to a call. A call that fails leaves the panel as it was. -/
inductive Reply
  | done
  | fails (message : String)
  /-- the panel does not have the route -/
  | missing
  deriving DecidableEq

/-! ## Plans and orders -/

/-- An entry of `Plan.targets`, tagged with the service that it comes from. -/
structure PlanTarget where
  target : Target
  serviceId : Option ServiceId
  deriving DecidableEq

structure Plan where
  adminId : AdminId
  name : String
  /-- in GB, 0 = unlimited -/
  trafficGB : ℕ
  /-- 0 = never expires -/
  days : ℕ
  ipLimit : ℕ
  price : ℤ
  targets : List PlanTarget
  isActive : Bool
  sold : ℕ
  deriving DecidableEq

structure PlanSnapshot where
  name : String
  trafficGB : ℕ
  days : ℕ
  ipLimit : ℕ
  targets : List Target
  deriving DecidableEq

/-- The columns of an order that only its delivery uses. -/
structure OrderInfo where
  planId : Option PlanId
  clientId : Option ClientId
  customerId : Option CustomerId
  renewClientId : Option ClientId
  customerName : Option String
  customerPhone : Option String
  customerEmail : Option String
  note : Option String
  planSnapshot : PlanSnapshot
  fulfilledAt : Option Time
  deriving DecidableEq

/-! ## Admin accounts -/

/-- The columns of an admin besides role and credit, with the rows of `AdminServerAccess`. -/
structure Account where
  username : String
  /-- the password drawn, for its hash -/
  passwordHash : Draw
  displayName : Option String
  isActive : Bool
  /-- in bytes, `none` = unlimited -/
  trafficQuota : Option ℤ
  clientLimit : Option ℕ
  expiresAt : Option ℤ
  telegramId : Option String
  createdById : Option AdminId
  pricePerGB : Option ℤ
  pricePerDay : Option ℤ
  /-- the inbounds that may be used on each server, where empty means all -/
  serverAccess : List (ServerId × List ℕ)
  deriving DecidableEq

/-- An admin as a request has read it. -/
structure Operator where
  id : AdminId
  role : AdminRole
  account : Account
  deriving DecidableEq

/-- The part of an operator that the payment services use. -/
def Operator.actor (o : Operator) : Actor := ⟨o.id, o.role⟩

/-! ## Settings -/

inductive ClientKind
  | limited
  | unlimited
  deriving DecidableEq

/-- `KindAccess`; both numbers use 0 for no cap. -/
structure KindAccess where
  limited : Bool
  unlimited : Bool
  unlimitedMax : ℕ
  limitedMaxGB : ℕ
  deriving DecidableEq

/-- `ClientTypeSettings`. -/
structure ClientTypeSettings where
  default : KindAccess
  admins : Table AdminId KindAccess
  /-- the one kind that a service is offered for; a service without a row is offered for both -/
  services : Table ServiceId ClientKind

/-- `PricingSettings`, less the two figures that `World` has. -/
structure PricingSettings where
  billingEnabled : Bool
  pricePerGB : ℕ
  pricePerDay : ℕ
  chargeOnRenew : Bool
  deriving DecidableEq

/-- `RefundSettings`. -/
structure RefundSettings where
  /-- give unused traffic and days back when a client is deleted -/
  refundEnabled : Bool
  /-- the share of the unused value that is returned, from 0 to 100 -/
  refundPercent : ℕ
  /-- refunds below this amount are skipped -/
  refundMin : ℕ
  deriving DecidableEq

/-- `AutoRenewRule`. -/
structure AutoRenewRule where
  everyDays : ℕ
  maxCycles : ℕ
  cycles : ℕ
  extendExpiry : Bool
  nextAt : ℤ
  lastAt : Option ℤ
  deriving DecidableEq

/-! ## Sold sub-panels -/

/-- `PanelPlanLink`, under its plan. -/
structure PanelPlanLink where
  enabled : Bool
  /-- 0 = the traffic of the plan -/
  gb : ℕ
  /-- 0 = the days of the plan -/
  days : ℕ
  /-- 0 = unlimited -/
  clients : ℕ
  /-- of the username of the account -/
  usernamePrefix : String
  grantAccess : Bool
  topUp : Bool
  note : String
  deriving DecidableEq

/-- The text that `buyerKeyOf` makes. -/
inductive BuyerKey
  | customer (id : CustomerId)
  | email (address : String)
  | telegram (id : String)
  | phone (number : String)
  | order (id : OrderId)
  deriving DecidableEq

/-- `PanelAccount`. -/
structure PanelAccount where
  adminId : AdminId
  username : String
  sellerId : AdminId
  planId : Option PlanId
  buyerRef : String
  orderId : OrderId
  createdAt : Time
  lastOrderId : OrderId
  lastAt : Time
  renewals : ℕ
  deriving DecidableEq

/-- `PanelPlanBook`. -/
structure PanelPlanBook where
  links : Table PlanId PanelPlanLink
  accounts : Table (AdminId × BuyerKey) PanelAccount

/-- `PanelHandoff`, under its order. -/
structure PanelHandoff where
  sellerId : AdminId
  adminId : AdminId
  username : String
  /-- `none` for a renewal, which keeps the password -/
  password : Option Draw
  renewal : Bool
  createdAt : Time
  deriving DecidableEq

/-! ## Reseller packages -/

/-- `ResellerPlan`. -/
structure ResellerPlan where
  id : String
  name : String
  /-- added to the traffic quota, 0 = nothing -/
  gb : ℕ
  /-- added to the validity of the account, 0 = nothing -/
  days : ℕ
  /-- extra client slots, 0 = nothing -/
  clients : ℕ
  price : ℕ
  isActive : Bool
  /-- empty = offered to every reseller -/
  adminIds : List AdminId
  deriving DecidableEq

/-- `ResellerPlanSettings`. -/
structure ResellerPlanSettings where
  enabled : Bool
  plans : List ResellerPlan
  deriving DecidableEq

/-! ## The site -/

/-- What has happened to the orders; no service reads it. -/
structure Deliveries where
  /-- the orders for which a client was created or renewed or a panel package was granted, once for
  each time -/
  delivered : List OrderId
  /-- the fulfilments that found their order paid and have neither fulfilled it nor noted an error
  yet -/
  running : List OrderId
  deriving DecidableEq

structure Site where
  base : World
  accounts : Table AdminId Account
  clients : Table ClientId Client
  links : Table LinkKey ClientServer
  servers : Table ServerId Server
  services : Table ServiceId ServiceRow
  plans : Table PlanId Plan
  orderInfo : Table OrderId OrderInfo
  clientTypes : ClientTypeSettings
  pricing : PricingSettings
  refund : RefundSettings
  /-- the days of the clients whose period starts with their first connection -/
  pendingStarts : Table ClientId ℕ
  hwidLimits : Table ClientId ℕ
  autoRenews : Table ClientId AutoRenewRule
  book : PanelPlanBook
  resellerPlans : ResellerPlanSettings
  handoffs : Table OrderId PanelHandoff
  /-- what `hasFeature` says about shared panels -/
  sharedPanel : Bool
  /-- the channels on which the buyer of an order can be reached -/
  channels : OrderId → List String
  clientUsage : List UsageRow
  remote : Table (ServerId × String) RemoteClient
  replies : ℕ → Reply
  /-- the number of calls made to panels -/
  calls : ℕ
  deliveries : Deliveries

/-- The defaults of `clientTypesSchema`. -/
def ClientTypeSettings.initial : ClientTypeSettings := ⟨⟨true, false, 0, 0⟩, .empty, .empty⟩

/-- The defaults of `pricingSettingsSchema`. -/
def PricingSettings.initial : PricingSettings := ⟨false, 0, 0, true⟩

/-- The defaults of `refundSettingsSchema`. -/
def RefundSettings.initial : RefundSettings := ⟨true, 100, 0⟩

/-- A site without data whose panels accept every call. -/
def Site.blank : Site where
  base := .blank
  accounts := .empty
  clients := .empty
  links := .empty
  servers := .empty
  services := .empty
  plans := .empty
  orderInfo := .empty
  clientTypes := .initial
  pricing := .initial
  refund := .initial
  pendingStarts := .empty
  hwidLimits := .empty
  autoRenews := .empty
  book := ⟨.empty, .empty⟩
  resellerPlans := ⟨true, []⟩
  handoffs := .empty
  sharedPanel := true
  channels _ := []
  clientUsage := []
  remote := .empty
  replies _ := .done
  calls := 0
  deliveries := ⟨[], []⟩

/-- The payment services' part of a site. -/
def Site.world : Focus World Site where
  get := Site.base
  put w s := { s with base := w }
  get_put _ _ := rfl
  put_get _ := rfl
  put_put _ _ _ := rfl

@[simp] theorem Site.world_get (s : Site) : Site.world.get s = s.base := rfl

@[simp] theorem Site.world_put (w : World) (s : Site) : Site.world.put w s = { s with base := w } :=
  rfl

/-! ## Tasks -/

/-- The figures of an account that a step computes from what had been read before. -/
structure Figures where
  quota : Bool
  clients : Bool
  expiry : Bool
  deriving DecidableEq

/-- What a step does, as far as statements about runs distinguish it. -/
inductive Mark
  | base (l : Stmt)
  /-- `fulfillOrder` reads its order -/
  | begins (orderId : OrderId)
  /-- clients get a status that was derived from their rows, which had been read under the given
  statuses -/
  | derives (seen : List (ClientId × ClientStatus)) (status : ClientStatus)
  /-- an account gets figures that were computed from the account as it had been read before -/
  | grants (id : AdminId) (seen : Account) (figures : Figures)
  | other

abbrev Task := Prog Mark Site AppError

namespace Site

/-- A payment service, on its part of the site. -/
def lift {α : Type} (p : Service α) : Task α := p.zoom world .base

/-- A read. -/
def read {α : Type} (f : Site → α) : Task α := .query .other f

/-- A write that no statement about runs distinguishes and that cannot be refused. -/
def write (f : Site → Site) : Task Unit := .modify .other f

/-- Throw the error if the condition holds. -/
def refuseIf (c : Bool) (e : AppError) : Task Unit := if c then throw e else pure ()

/-- `Date.now()`. -/
def now : Task ℤ := read fun s => (s.base.now : ℤ)

/-- Draw a random text, or the id of a new row. -/
def draw : Task Draw :=
  .step .other fun s => (.ok s.base.nextId,
    { s with base := { s.base with nextId := s.base.nextId + 1 } })

/-- The admin `id` with all columns. -/
def operator (s : Site) (id : AdminId) : Option Operator := do
  let a ← s.base.admins.get? id
  let account ← s.accounts.get? id
  some ⟨id, a.role, account⟩

end Site

end SRPanel
