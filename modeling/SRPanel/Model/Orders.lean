import SRPanel.Model.Payments
import SRPanel.Model.CardAuto

/-!
# Orders

How an order starts and ends besides the confirmation of its payments: `createOrder` from the amount
on, `payOrderWithWallet`, and the seller's `retryFulfill` and `cancelOrder`.
-/

namespace SRPanel

open Interleaving

/-! ## The wallet of the buyer -/

/-- The commit of `debitCustomerWallet`: the database subtracts the amount itself. -/
def commitDebit (customerId : CustomerId) (amount : ℤ) (kind : WalletTxKind) (ref : TxRef) :
    Service ℤ :=
  .step (.credit customerId (-amount) kind ref none) fun w =>
    match w.customers.get? customerId with
    | none => (.error recordNotFound, w)
    | some c =>
        (.ok (c.credit - amount), { w with
          customers := w.customers.modify customerId fun c => { c with credit := c.credit - amount }
          customerTxs := ⟨customerId, kind, -amount, c.credit - amount, ref, none⟩ ::
            w.customerTxs })

/-- `debitCustomerWallet`. -/
def debitCustomerWallet (customerId : CustomerId) (amount : ℤ) (kind : WalletTxKind) (ref : TxRef) :
    Service ℤ :=
  if amount ≤ 0 then throw (badRequest "مبلغ نامعتبر است")
  else do
    let current ← Db.read fun w => w.customers.get? customerId
    match current with
    | none => throw (notFoundError "حساب مشتری پیدا نشد")
    | some c =>
        if c.credit < amount then
          throw ⟨"موجودی کیف پول کافی نیست", 400, "insufficient_funds"⟩
        else commitDebit customerId amount kind ref

/-! ## Writes to an order and its payments -/

/-- `prisma.order.update`; the change may depend on the time. -/
def updateOrder (orderId : OrderId) (f : Time → Order → Order) : Service Order :=
  .step .other fun w =>
    match w.orders.get? orderId with
    | none => (.error recordNotFound, w)
    | some o =>
        let o' := f w.now o
        (.ok o', { w with orders := w.orders.modify orderId fun _ => o' })

/-- `prisma.payment.updateMany` over the open payments of an order. -/
def closePayments (orderId : OrderId) (f : Payment → Payment) : Service Unit :=
  .modify .other fun w => { w with
    payments := w.payments.mapRows fun _ p =>
      if p.orderId = some orderId ∧ (p.status = .pending ∨ p.status = .review) then
        { f p with updatedAt := w.now }
      else p }

/-- `fulfillOrder`, started by the seller or by a free order. -/
def fulfillAgain (orderId : OrderId) : Service Order := fulfillOrderBy (fun h => h) orderId

/-! ## Paying from the wallet -/

/-- The payment of a wallet order. -/
def walletPayment (orderId : OrderId) (amount : ℤ) (sellerId : AdminId) (customerId : CustomerId) :
    Payment :=
  { newPayment ⟨.order, .wallet, amount, sellerId, some orderId, none⟩ 0 none with
    customerId := some customerId
    expiresAt := none }

/-- Give up a wallet purchase: its payment is rejected and its order canceled. -/
def abandon (payment : PaymentId × Payment) (orderId : OrderId) (msg : String) : Service Unit := do
  let _ ← Db.updatePayment (.update [.status] [payment]) payment.1
    (fun p => { p with status := .rejected, error := some msg }) fun _ h => h
  let _ ← updateOrder orderId fun _ o => { o with status := .canceled, error := some msg }

/-- What `payOrderWithWallet` does with an error after the debit. -/
def recoverPurchase (payment : PaymentId × Payment) (orderId : OrderId) (amount : ℤ)
    (customerId : CustomerId) (sellerId : AdminId) (err : AppError) : Service Unit := do
  let current ← .query (.lookBack payment.1) fun w => w.payments.get? payment.1
  if current.any fun p => p.status ≠ .confirmed then do
    -- the purchase never went through: give the balance back
    (creditCustomerWallet customerId amount .refund (.order orderId) none).void
    abandon payment orderId err.message
    audit (some sellerId) "order.wallet_refund"
    throw err
  else do
    -- paid but not provisioned: the order stays paid and can be retried by the seller
    let _ ← Db.read fun w => w.orders.get? orderId
    pure ()

/-- `payOrderWithWallet`. -/
def payOrderWithWallet (orderId : OrderId) (amount : ℤ) (customerId : CustomerId)
    (sellerId : AdminId) : Service Unit := do
  let payment ← Db.createPayment (walletPayment orderId amount sellerId customerId)
  Prog.attempt (do
    let _ ← debitCustomerWallet customerId amount .purchase (.order orderId)) fun err => do
      abandon payment orderId err.message
      throw err
  Prog.attempt (do
    let _ ← confirmPayment (.wallet customerId) payment.1 (.auto none none)
    let _ ← Db.read fun w => w.orders.get? orderId
    notify "order.new") (recoverPurchase payment orderId amount customerId sellerId)

/-! ## Placing an order -/

/-- What `createOrder` has settled on before it writes: the amount after discounts, and what the
buyer gave. -/
structure NewOrder where
  token : String
  adminId : AdminId
  amount : ℤ
  method : PaymentMethod
  telegramId : Option String
  customerId : Option CustomerId
  accountsEnabled : Bool

/-- The checks of `createOrder` on a purchase from the wallet, which return the buyer. -/
def walletBuyer (s : StoreSettings) (account : Option (CustomerId × Customer)) (input : NewOrder) :
    Except AppError CustomerId :=
  match account with
  | none =>
      .error ⟨"برای پرداخت از کیف پول باید وارد حساب کاربری شوید", 401, "login_required"⟩
  | some (id, c) =>
      if !input.accountsEnabled || !s.walletEnabled then
        .error ⟨"کیف پول در این فروشگاه فعال نیست", 403, "wallet_disabled"⟩
      else if c.credit < input.amount then
        .error ⟨"موجودی کیف پول کافی نیست؛ ابتدا کیف پول را شارژ کنید", 400, "insufficient_funds"⟩
      else .ok id

/-- `prisma.order.create`. -/
def placeOrder (input : NewOrder) : Service OrderId :=
  .step .other fun w =>
    (.ok w.nextId, { w with
      orders := w.orders.set w.nextId {
        token := input.token
        adminId := input.adminId
        status := if input.amount ≤ 0 then .paid else .pending
        amount := input.amount
        customerTelegramId := input.telegramId
        error := none
        paidAt := if input.amount ≤ 0 then some w.now else none }
      nextId := w.nextId + 1 })

/-- The signed-in customer, who must be one of the shop. -/
def signedIn (input : NewOrder) : Service (Option (CustomerId × Customer)) :=
  match input.customerId with
  | none => pure none
  | some id => do
      let account ← Db.read fun w => (w.customers.get? id).filter fun c => c.adminId = input.adminId
      match account with
      | none => throw ⟨"حساب مشتری معتبر نیست؛ دوباره وارد شوید", 401, "login_required"⟩
      | some c => pure (some (id, c))

/-- The deposit may have been reported before the order was placed. -/
def rematchCard (x : Proc) (input : NewOrder) : Service Unit :=
  if input.method = .card then (rematchDeposits (settlePlainly input.adminId) x input.adminId).void
  else pure ()

/-- `createOrder`, from the amount on. -/
def createOrder (x : Proc) (s : StoreSettings) (input : NewOrder) : Service OrderId := do
  let account ← signedIn input
  let payFromWallet := input.method = .wallet && 0 < input.amount
  let buyer ← (if payFromWallet then
      match walletBuyer s account input with
      | .error e => throw e
      | .ok id => pure (some id)
    else if 0 < input.amount && input.method ∉ enabledMethods s then
      throw (badRequest "این روش پرداخت فعال نیست")
    else pure none)
  let orderId ← placeOrder input
  audit (some input.adminId) "order.create"
  emitEvent (some input.adminId) "order.created"
  if input.amount ≤ 0 then do
    let _ ← fulfillAgain orderId
    pure orderId
  else match buyer with
  | some customerId => do
      payOrderWithWallet orderId input.amount customerId input.adminId
      pure orderId
  | none => do
      let _ ← beginPayment s ⟨.order, input.method, input.amount, input.adminId, some orderId, none⟩
      notify "order.new"
      rematchCard x input
      pure orderId

/-! ## The seller's operations -/

/-- The manual confirmation of an order without payment. -/
def payManually (actor : Actor) (orderId : OrderId) (order : Order) : Service Unit :=
  if order.status = .pending then do
    let _ ← updateOrder orderId fun now o => { o with status := .paid, paidAt := some now }
    closePayments orderId fun p => { p with status := .confirmed, reviewedById := some actor.id }
    audit (some actor.id) "order.manual_paid"
  else pure ()

/-- `retryFulfill`. -/
def retryFulfill (actor : Actor) (orderId : OrderId) : Service Order := do
  let order ← Db.read fun w => w.orders.get? orderId
  match order with
  | none => throw (notFoundError "سفارش پیدا نشد")
  | some order =>
      if actor.role ≠ .owner && order.adminId ≠ actor.id then
        throw (forbiddenError "دسترسی غیرمجاز")
      else do
        payManually actor orderId order
        fulfillAgain orderId

/-- `cancelOrder`. -/
def cancelOrder (actor : Actor) (orderId : OrderId) : Service Order := do
  let order ← Db.read fun w => w.orders.get? orderId
  match order with
  | none => throw (notFoundError "سفارش پیدا نشد")
  | some order =>
      if actor.role ≠ .owner && order.adminId ≠ actor.id then
        throw (forbiddenError "دسترسی غیرمجاز")
      else if order.status = .fulfilled then
        throw (badRequest "سفارش تحویل‌شده را نمی‌توان لغو کرد")
      else do
        closePayments orderId fun p => { p with status := .rejected, reviewedById := some actor.id }
        let o ← updateOrder orderId fun _ o => { o with status := .canceled }
        audit (some actor.id) "order.cancel"
        emitEvent (some order.adminId) "order.canceled"
        pure o

end SRPanel
