import SRPanel.Model.CardAmounts
import SRPanel.Model.Fulfilment

/-!
# The storefront

A purchase in a shop: the catalogue's guard, the discount code, and `createOrder` as a whole; then
what happens to the order: its payment is confirmed, it is delivered, tried again or canceled. The
caps are the stock and the purchases per customer of the catalogue, and the uses of a discount code.
-/

namespace SRPanel

open Interleaving

/-- What the purchase guard reads of `StorePlanOptions`; 0 = unlimited. -/
structure StorePlanOptions where
  stock : ℕ
  perCustomer : ℕ
  deriving DecidableEq

/-- `StoreCatalog`. -/
structure StoreCatalog where
  enabled : Bool
  items : Table PlanId StorePlanOptions

/-- A discount, under its seller and code. -/
structure Discount where
  percent : ℕ
  amount : ℤ
  maxUses : Option ℕ
  uses : ℕ
  isActive : Bool
  expiresAt : Option Time
  deriving DecidableEq

/-- The settings of a shop that only `createOrder` looks at. -/
structure OrderRules where
  accountsEnabled : Bool
  guestCheckout : Bool
  requireTelegram : Bool
  requirePhone : Bool

/-- The columns of a customer that prefill an order. -/
structure Shopper where
  isActive : Bool
  telegramId : Option String
  phone : Option String
  email : Option String
  name : Option String

/-- The columns of an order that its delivery does not use. -/
structure OrderColumns where
  listPrice : ℤ
  discountCode : Option String
  discountAmount : ℤ
  ip : Option String
  createdAt : Time
  deriving DecidableEq

/-- The site and what its storefronts have besides. -/
structure Storefront where
  site : Site
  rules : Table AdminId OrderRules
  catalogs : Table AdminId StoreCatalog
  discounts : Table (AdminId × String) Discount
  shoppers : Table CustomerId Shopper
  columns : Table OrderId OrderColumns
  /-- the card settings of each seller -/
  amounts : AdminId → CardAmounts

abbrev StoreTask := Prog Mark Storefront AppError

/-- The buyer's contact, as the request has it. -/
structure Contact where
  name : Option String
  telegramId : Option String
  phone : Option String
  email : Option String

/-- `CreateOrderInput`, with the random token of the new order. -/
structure CreateOrderInput where
  token : String
  planId : PlanId
  method : PaymentMethod
  customer : Contact
  discountCode : Option String
  renewToken : Option Draw
  ip : Option String
  customerId : Option CustomerId

/-! ## Confirmation -/

namespace Site

/-- The effect of a confirmation, with the delivery on the site. -/
def applyConfirmation (id : PaymentId) (p : Payment) (opts : ConfirmOpts) : Task Unit :=
  if p.kind = .topup then lift (SRPanel.applyConfirmation id p opts)
  else match p.orderId with
    | none => pure ()
    | some orderId => do
        let _ ← confirmOrder id orderId p.adminId
        pure ()

/-- `confirmPayment`, with the delivery on the site. -/
def confirmPayment (evidence : Evidence) (paymentId : PaymentId) (opts : ConfirmOpts) :
    Task Payment := do
  let p ← lift (Db.findPayment paymentId)
  match p with
  | none => throw (notFoundError "پرداخت پیدا نشد")
  | some p =>
      if opts.reviewer.any fun a => !canReview a p then throw (forbiddenError "دسترسی غیرمجاز")
      else if p.status = .confirmed then pure p
      else if p.status = .expired &&
        opts.reviewer.isNone then throw (badRequest "پرداخت منقضی شده است")
      else do
        let updated ← lift (confirmRow evidence paymentId p opts)
        lift (audit (opts.reviewer.map Actor.id) "payment.confirm")
        applyConfirmation paymentId p opts
        pure updated

/-- `payOrderWithWallet`, with the delivery on the site. -/
def payOrderWithWallet (orderId : OrderId) (amount : ℤ) (customerId : CustomerId)
    (sellerId : AdminId) : Task Unit := do
  let payment ← lift (Db.createPayment (walletPayment orderId amount sellerId customerId))
  Prog.attempt (do
    let _ ← lift (debitCustomerWallet customerId amount .purchase (.order orderId))) fun err => do
      lift (abandon payment orderId err.message)
      throw err
  Prog.attempt (do
    let _ ← confirmPayment (.wallet customerId) payment.1 (.auto none none)
    let _ ← lift (Db.read fun w => w.orders.get? orderId)
    lift (notify "order.new")) fun err =>
      lift (recoverPurchase payment orderId amount customerId sellerId err)

end Site

namespace Storefront

/-- The site under the storefronts. -/
def siteFocus : Focus Site Storefront where
  get := Storefront.site
  put s t := { t with site := s }
  get_put _ _ := rfl
  put_get _ := rfl
  put_put _ _ _ := rfl

/-- A task on the site. -/
def onSite {α : Type} (p : Task α) : StoreTask α := p.zoom siteFocus id

def read {α : Type} (f : Storefront → α) : StoreTask α := .query .other f

def refuseIf (c : Bool) (e : AppError) : StoreTask Unit := if c then throw e else pure ()

/-! ## The catalogue's guard -/

/-- The shop with a slug. -/
def shopOf (t : Storefront) (slug : String) : Option (AdminId × StoreSettings) :=
  t.site.base.shops.rows.find? fun r => r.2.slug = lower slug

/-- What the catalogue of a seller says about a plan, when it is on. -/
def optionsOf (t : Storefront) (adminId : AdminId) (planId : PlanId) : Option StorePlanOptions :=
  ((t.catalogs.get? adminId).filter StoreCatalog.enabled).bind fun c => c.items.get? planId

/-- The plan of a seller. -/
def planOf (t : Storefront) (adminId : AdminId) (planId : PlanId) : Option Plan :=
  (t.site.plans.get? planId).filter fun p => p.adminId = adminId

/-- An order counts as bought once it is paid. -/
def isBought (status : OrderStatus) : Bool := status = .paid || status = .fulfilled

/-- The orders of a plan, by their status and their customer. -/
def countOrders (t : Storefront) (planId : PlanId) (p : OrderStatus → Option CustomerId → Bool) :
    ℕ :=
  (t.site.base.orders.rows.filter fun r =>
    (t.site.orderInfo.get? r.1).any fun i =>
      i.planId = some planId && p r.2.status i.customerId).length

/-- The paid orders of a customer for a plan. -/
def bought (t : Storefront) (planId : PlanId) (customerId : CustomerId) : ℕ :=
  t.countOrders planId fun status c => isBought status && c = some customerId

/-- The stock in `assertPlanPurchasable`. -/
def assertStock (adminId : AdminId) (planId : PlanId) (o : StorePlanOptions) : StoreTask Unit :=
  if 0 < o.stock then do
    let plan ← read fun t => t.planOf adminId planId
    refuseIf (plan.any fun p => o.stock ≤ p.sold)
      (badRequest "ظرفیت فروش این پلن تکمیل شده است؛ لطفاً پلن دیگری را انتخاب کنید")
  else pure ()

/-- The cap per customer in `assertPlanPurchasable`. -/
def assertPerCustomer (planId : PlanId) (customerId : Option CustomerId) (o : StorePlanOptions) :
    StoreTask Unit :=
  if 0 < o.perCustomer then
    match customerId with
    | none => throw ⟨"برای خرید این پلن باید وارد حساب کاربری فروشگاه شوید", 401, "login_required"⟩
    | some customerId => do
        let used ← read fun t => t.bought planId customerId
        refuseIf (o.perCustomer ≤ used)
          (badRequest ("سقف خرید این پلن برای هر حساب " ++ toString o.perCustomer ++ " عدد است"))
  else pure ()

/-- `assertPlanPurchasable`. -/
def assertPlanPurchasable (slug : String) (planId : PlanId) (customerId : Option CustomerId) :
    StoreTask Unit := do
  let store ← read fun t => t.shopOf slug
  match store with
  | none => pure ()
  | some store => do
      let options ← read fun t => t.optionsOf store.1 planId
      match options with
      | none => pure ()
      | some o => do
          assertStock store.1 planId o
          assertPerCustomer planId customerId o

/-! ## Discounts -/

/-- What `applyDiscount` returns; the key stands for the id of the discount. -/
structure AppliedDiscount where
  discount : ℤ
  key : Option (AdminId × String)

/-- The discount on a price. -/
def Discount.on (d : Discount) (price : ℤ) : ℤ :=
  min price ((price * d.percent).tdiv 100 + d.amount)

/-- `applyDiscount`; its error is thrown by `createOrder`. -/
def applyDiscount (sellerId : AdminId) (code : Option String) (price : ℤ) :
    StoreTask AppliedDiscount :=
  let c := upper (trim (code.getD ""))
  if c = "" then pure ⟨0, none⟩
  else do
    let d ← read fun t => t.discounts.get? (sellerId, c)
    let now ← read fun t => t.site.base.now
    match d.filter Discount.isActive with
    | none => throw (badRequest "کد تخفیف نامعتبر است")
    | some d => do
        refuseIf (d.expiresAt.any (· < now)) (badRequest "کد تخفیف منقضی شده است")
        refuseIf (d.maxUses.any (· ≤ d.uses)) (badRequest "سقف استفاده از این کد پر شده است")
        pure ⟨Discount.on d price, some (sellerId, c)⟩

/-- The use of a discount is counted; a discount that is gone is ignored. -/
def countUse (key : Option (AdminId × String)) : StoreTask Unit :=
  match key with
  | none => pure ()
  | some key => .modify .other fun t =>
      { t with discounts := t.discounts.modify key fun d => { d with uses := d.uses + 1 } }

/-! ## Placing an order -/

/-- The open shop with a slug, and its seller. -/
def openShop (slug : String) : StoreTask (StoreSettings × OrderRules × Operator) := do
  let found ← read fun t => (t.shopOf slug).bind fun r => do
    let rules ← t.rules.get? r.1
    let seller ← t.site.operator r.1
    if r.2.enabled && seller.account.isActive then some (r.2, rules, seller) else none
  match found with
  | none => throw (notFoundError "فروشگاه پیدا نشد یا غیرفعال است")
  | some shop => pure shop

/-- The plan of an order, which must be on sale. -/
def planOnSale (sellerId : AdminId) (planId : PlanId) : StoreTask Plan := do
  let plan ← read fun t => (t.planOf sellerId planId).filter Plan.isActive
  match plan with
  | none => throw (notFoundError "پلن پیدا نشد")
  | some plan => pure plan

/-- An active customer of a seller. -/
def activeCustomer (t : Storefront) (sellerId : AdminId) (id : CustomerId) :
    Option (Customer × Shopper) := do
  let c ← (t.site.base.customers.get? id).filter fun c : Customer => c.adminId = sellerId
  let columns ← (t.shoppers.get? id).filter Shopper.isActive
  some (c, columns)

/-- The signed-in customer, who must be an active one of the shop. -/
def signedIn (sellerId : AdminId) (customerId : Option CustomerId) :
    StoreTask (Option (CustomerId × Customer × Shopper)) :=
  match customerId with
  | none => pure none
  | some id => do
      let account ← read fun t => t.activeCustomer sellerId id
      match account with
      | none => throw ⟨"حساب مشتری معتبر نیست؛ دوباره وارد شوید", 401, "login_required"⟩
      | some account => pure (some (id, account))

/-- The contact of an order: what the request has, else what the account has. -/
def contactOf (input : Contact) (account : Option Shopper) : Contact where
  name := orElse (sliceTo 60 (trim (input.name.getD ""))) (account.bind Shopper.name)
  telegramId := orElse (sliceTo 20 (digitsOnly (input.telegramId.getD "")))
    (account.bind Shopper.telegramId)
  phone := orElse (sliceTo 20
    (.ofList ((input.phone.getD "").toList.filter fun c => c.isDigit || c = '+')))
      (account.bind Shopper.phone)
  email := orElse (sliceTo 120 (trim (input.email.getD ""))) (account.bind Shopper.email)

/-- The guard against many orders from one address. -/
def assertOrderRate (ip : Option String) : StoreTask Unit :=
  match ip.bind orNull with
  | none => pure ()
  | some ip => do
      let recent ← read fun t => (t.columns.rows.filter fun r =>
        r.2.ip = some ip && t.site.base.now ≤ r.2.createdAt + 10 * 60000).length
      refuseIf (10 ≤ recent) ⟨"تعداد سفارش‌های شما زیاد است؛ کمی بعد تلاش کنید", 429, "bad_request"⟩

/-- The client that an order renews. -/
def renewedClient (sellerId : AdminId) (renewToken : Option Draw) : StoreTask (Option ClientId) :=
  match renewToken with
  | none => pure none
  | some token => do
      let c ← read fun t => t.site.clients.rows.find? fun r =>
        r.2.subToken = token && r.2.adminId = sellerId
      match c with
      | none => throw (badRequest "اشتراک مورد نظر برای تمدید پیدا نشد")
      | some c => pure (some c.1)

/-- The buyer of a wallet order, and the check of the method of any other order with a price. -/
def walletPayer (s : StoreSettings) (account : Option (CustomerId × Customer)) (order : NewOrder) :
    StoreTask (Option CustomerId) :=
  if order.method = .wallet && 0 < order.amount then
    match walletBuyer s account order with
    | .error e => throw e
    | .ok id => pure (some id)
  else if 0 < order.amount && order.method ∉ enabledMethods s then
    throw (badRequest "این روش پرداخت فعال نیست")
  else pure none

/-- `planTargetsFresh`. -/
def planTargetsFresh (plan : Plan) : Task (List Target) :=
  match planServiceId plan with
  | none => pure (planTargets plan)
  | some id => (Site.resolveServiceTargets ⟨plan.adminId, .admin⟩ id).attempt fun _ =>
    pure (planTargets plan)

/-- `prisma.order.create`. -/
def insertOrder (input : NewOrder) (info : OrderInfo) (columns : OrderColumns) :
    StoreTask OrderId :=
  .step .other fun t =>
    let w := t.site.base
    (.ok w.nextId, { t with
      site := { t.site with
        base := { w with
          orders := w.orders.set w.nextId {
            token := input.token
            adminId := input.adminId
            status := if input.amount ≤ 0 then .paid else .pending
            amount := input.amount
            customerTelegramId := input.telegramId
            error := none
            paidAt := if input.amount ≤ 0 then some w.now else none }
          nextId := w.nextId + 1 }
        orderInfo := t.site.orderInfo.set w.nextId info }
      columns := t.columns.set w.nextId { columns with createdAt := w.now } })

/-- What becomes of an order that has been placed. The deposits that are rematched after a card
order are confirmations of their own. -/
def startOrder (s : StoreSettings) (input : NewOrder) (buyer : Option CustomerId)
    (orderId : OrderId) : Task Unit :=
  if input.amount ≤ 0 then do
    let _ ← Site.fulfillOrder orderId
  else match buyer with
    | some customerId => Site.payOrderWithWallet orderId input.amount customerId input.adminId
    | none => do
        let _ ← Site.lift (beginPayment s ⟨.order, input.method, input.amount, input.adminId,
            some orderId, none⟩)
        Site.lift (notify "order.new")

/-- `createOrder`. -/
def createOrder (slug : String) (input : CreateOrderInput) : StoreTask Unit := do
  let (s, rules, seller) ← openShop slug
  let plan ← planOnSale seller.id input.planId
  let account ← signedIn seller.id input.customerId
  refuseIf (account.isNone && !rules.guestCheckout)
    ⟨"برای خرید از این فروشگاه باید وارد حساب کاربری شوید", 401, "login_required"⟩
  let contact := contactOf input.customer (account.map fun a => a.2.2)
  refuseIf (rules.requireTelegram && (contact.telegramId.bind orNull).isNone)
    (badRequest "شناسه عددی تلگرام لازم است")
  refuseIf (rules.requirePhone && (contact.phone.bind orNull).isNone)
    (badRequest "شماره موبایل لازم است")
  assertOrderRate input.ip
  let renewClientId ← renewedClient seller.id input.renewToken
  let d ← applyDiscount seller.id input.discountCode plan.price
  let base : NewOrder := ⟨input.token, seller.id, plan.price - d.discount, input.method,
    contact.telegramId, account.map Prod.fst, rules.accountsEnabled⟩
  let cards ← read fun t => t.amounts seller.id
  let amount ← onSite (Site.lift (invoiceAmount cards base))
  let order := { base with amount := amount }
  let buyer ← walletPayer s (account.map fun a => (a.1, a.2.1)) order
  let targets ← onSite (planTargetsFresh plan)
  let orderId ← insertOrder order
    ⟨some input.planId, none, account.map Prod.fst, renewClientId, contact.name, contact.phone,
      contact.email, none, ⟨plan.name, plan.trafficGB, plan.days, plan.ipLimit, targets⟩, none⟩
    ⟨plan.price, d.key.map Prod.snd, d.discount, input.ip, 0⟩
  countUse d.key
  onSite (Site.lift (audit (some seller.id) "order.create"))
  onSite (Site.lift (emitEvent (some seller.id) "order.created"))
  onSite (startOrder s order buyer orderId)

end Storefront

/-! ## The calls -/

/-- A call that places an order or decides about one. -/
inductive StoreCall
  /-- `POST /api/shop/[slug]/orders`, by the signed-in customer of the input -/
  | order (slug : String) (input : CreateOrderInput)
  | confirm (evidence : Evidence) (paymentId : PaymentId) (opts : ConfirmOpts)
  | fulfill (orderId : OrderId)
  | retry (actor : Actor) (orderId : OrderId)
  | cancel (actor : Actor) (orderId : OrderId)

open Storefront in
def StoreCall.task : StoreCall → StoreTask Unit
  | order slug input => do
      assertPlanPurchasable slug input.planId input.customerId
      Storefront.createOrder slug input
  | confirm evidence paymentId opts => (onSite (Site.confirmPayment evidence paymentId opts)).void
  | fulfill orderId => (onSite (Site.fulfillOrder orderId)).void
  | retry actor orderId => (onSite (Site.retryFulfill actor orderId)).void
  | cancel actor orderId => (onSite (Site.lift (cancelOrder actor orderId))).void

end SRPanel
