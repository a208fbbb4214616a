import SRPanel.Model.Wallet
import SRPanel.Model.Tron
import SRPanel.Model.Zarinpal
import SRPanel.Model.Crypto

/-!
# Payments

The life of a payment: `beginPayment`, `submitProof`, `confirmPayment`, `rejectPayment`, the
callback of the gateway and the two worker jobs.
-/

namespace SRPanel

open Interleaving

/-! ## Who decides about a payment -/

/-- `ownerAdmin`: the first admin with the role `OWNER`. -/
def ownerAdmin : Service (AdminId × Admin) := do
  let o ← Db.read fun w =>
    ((w.admins.rows.filter fun r => r.2.role = .owner).insertionSort
      fun a b => a.2.createdAt ≤ b.2.createdAt).head?
  match o with
  | none => throw ⟨"مالک پنل پیدا نشد", 500, "bad_request"⟩
  | some o => pure o

/-- `settingsForPayment`: the seller's settings for orders and customer top-ups, the owner's for
reseller top-ups. -/
def settingsForPayment (p : Payment) : Service (Option StoreSettings) :=
  if p.kind = .order || p.customerId.isSome then storeSettingsByAdminId p.adminId
  else do
    let owner ← ownerAdmin
    storeSettingsByAdminId owner.1

/-- `canReview`: customer top-ups are reviewed by the seller, reseller top-ups by the owner. -/
def canReview (actor : Actor) (p : Payment) : Bool :=
  if actor.role = .owner then true
  else if p.kind = .order then p.adminId = actor.id
  else p.customerId.isSome && p.adminId = actor.id

/-- `announceReview`. -/
def announceReview (p : Payment) : Service Unit := do
  notify "payment.review"
  emitEvent (if p.kind = .order then some p.adminId else none) "payment.review"

/-! ## Starting a payment -/

structure BeginPaymentInput where
  kind : PaymentKind
  method : PaymentMethod
  amount : ℤ
  adminId : AdminId
  orderId : Option OrderId
  assetId : Option String

/-- The row that `beginPayment` creates. -/
def newPayment (input : BeginPaymentInput) (expiresAt : Time) (q : Option CryptoQuote) :
    Payment where
  kind := input.kind
  method := input.method
  status := .pending
  orderId := input.orderId
  adminId := input.adminId
  customerId := none
  amount := input.amount
  amountUsdt := q.map CryptoQuote.amount
  txid := none
  receiptRef := none
  receiptFile := none
  cardPan := none
  authority := none
  refId := none
  reviewedById := none
  error := none
  expiresAt := some expiresAt
  info := q.map fun q => { Meta.empty with crypto := some q }
  createdAt := 0
  updatedAt := 0

/-- Store the authority of an invoice; the column is unique. -/
def storeAuthority (id : PaymentId) (authority : Authority) (url : String) : Service Payment :=
  .step .other fun w =>
    match w.payments.get? id with
    | none => (.error recordNotFound, w)
    | some p =>
        if w.payments.rows.any fun r => r.1 != id && r.2.authority == some authority then
          (.error uniqueViolation, w)
        else
          let p' := { p with
            authority := some authority
            info := some { Meta.empty with startUrl := some url }
            updatedAt := w.now }
          (.ok p', { w with payments := w.payments.modify id fun _ => p' })

/-- `beginPayment`. -/
def beginPayment (s : StoreSettings) (input : BeginPaymentInput) : Service (PaymentId × Payment) :=
  if input.method ∉ enabledMethods s then throw (badRequest "این روش پرداخت فعال نیست")
  else if input.amount ≤ 0 then throw (badRequest "مبلغ نامعتبر است")
  else do
    let now ← clock
    let expiresAt := now + s.paymentTtlMin * 60000
    match input.method with
    | .usdt => do
        let q ← quoteCrypto s input.amount input.assetId
        Db.createPayment (newPayment input expiresAt (some q))
    | .card => Db.createPayment (newPayment input expiresAt none)
    | .zarinpal => do
        let merchant ← Db.read fun w => merchantOf w.outside.decryptSecret s
        match merchant with
        | none => throw (badRequest "مرچنت زرین‌پال تنظیم نشده است")
        | some merchant => do
            let payment ← Db.createPayment (newPayment input expiresAt none)
            let r ← zarinpalRequest merchant input.amount s.zarinpalSandbox
            match r with
            | .error e => do
                let _ ← Db.updatePayment (.update [.status] [payment]) payment.1
                  (fun p => { p with status := .rejected, error := some e }) fun _ h => h
                throw ⟨"اتصال به زرین‌پال ناموفق بود: " ++ e, 502, "gateway"⟩
            | .ok (authority, url) => do
                let updated ← storeAuthority payment.1 authority url
                pure (payment.1, updated)
    | _ => throw (badRequest "روش پرداخت پشتیبانی نمی‌شود")

/-! ## Confirmation -/

structure ConfirmOpts where
  /-- the reviewing admin, `by` in the source -/
  reviewer : Option Actor
  refId : Option String
  cardPan : Option String

/-- `{ auto: true }` with the given references. -/
def ConfirmOpts.auto (refId cardPan : Option String) : ConfirmOpts := ⟨none, refId, cardPan⟩

/-- The row after the status write of `confirmPayment`, which works from the copy `p`. -/
def confirmedRow (p : Payment) (opts : ConfirmOpts) (row : Payment) : Payment :=
  { row with
    status := .confirmed
    reviewedById := opts.reviewer.map Actor.id
    refId := opts.refId.or p.refId
    cardPan := opts.cardPan.or p.cardPan
    error := none }

/-- Record a confirmation. -/
def History.confirm (h : History) (c : Confirmation) : History :=
  { h with confirmations := c :: h.confirmations }

/-- The status write of `confirmPayment`. -/
def confirmRow (evidence : Evidence) (id : PaymentId) (p : Payment) (opts : ConfirmOpts) :
    Service Payment :=
  Db.updatePayment (.update [.status, .verdict evidence] [(id, p)]) id (confirmedRow p opts)
    fun row h => h.confirm ⟨id, row, evidence⟩

/-- The order update of `confirmPayment`. -/
def payOrder (id : PaymentId) (orderId : OrderId) : Service Order :=
  .step (.pay orderId) fun w =>
    match w.orders.get? orderId with
    | none => (.error recordNotFound, w)
    | some o =>
        let o' := { o with status := .paid, paidAt := some w.now, error := none }
        (.ok o', { w with
          orders := w.orders.modify orderId fun _ => o'
          history := { w.history with moved := (orderId, id) :: w.history.moved } })

/-- The effect of a confirmation: the credit of a top-up, or the order paid and fulfilled. -/
def applyConfirmation (id : PaymentId) (p : Payment) (opts : ConfirmOpts) : Service Unit :=
  if p.kind = .topup && p.customerId.isSome then do
    let _ ← settleCustomerTopup id
    notify "wallet.topup"
    emitEvent (some p.adminId) "customer.topup"
  else if p.kind = .topup then do
    let _ ← chargeWallet ⟨p.adminId, .admin⟩ p.amount .topup (.payment id)
      (opts.reviewer.map Actor.id) false
    notify "wallet.topup"
    emitEvent (some p.adminId) "wallet.topup"
  else match p.orderId with
    | none => pure ()
    | some orderId => do
        let _ ← payOrder id orderId
        emitEvent (some p.adminId) "order.paid"
        let _ ← fulfillOrder id orderId
        pure ()

/-- The part of `confirmPayment` that writes. -/
def writeConfirmation (evidence : Evidence) (id : PaymentId) (p : Payment) (opts : ConfirmOpts) :
    Service Payment := do
  let updated ← confirmRow evidence id p opts
  audit (opts.reviewer.map Actor.id) "payment.confirm"
  applyConfirmation id p opts
  pure updated

/-- `confirmPayment`; `evidence` is recorded in the history only. -/
def confirmPayment (evidence : Evidence) (paymentId : PaymentId) (opts : ConfirmOpts) :
    Service Payment := do
  let p ← Db.findPayment paymentId
  match p with
  | none => throw (notFoundError "پرداخت پیدا نشد")
  | some p =>
      if opts.reviewer.any fun a => !canReview a p then throw (forbiddenError "دسترسی غیرمجاز")
      else if p.status = .confirmed then pure p
      else if p.status = .expired && opts.reviewer.isNone then
        throw (badRequest "پرداخت منقضی شده است")
      else writeConfirmation evidence paymentId p opts

/-! ## Proofs of payment -/

structure PaymentProof where
  txid : Option String
  receiptRef : Option String
  cardPan : Option String
  receiptFile : Option String

/-- The address that a USDT payment has to reach: the quoted wallet, or the shop's. -/
def payAddress (q : Option CryptoQuote) (s : Option StoreSettings) : Option String :=
  match q with
  | some q => some q.address
  | none => s.bind StoreSettings.usdtAddress

/-- The amount that a USDT payment has to bring. -/
def payAmount (p : Payment) (s : StoreSettings) : ℚ :=
  (p.amountUsdt.getD (usdtAmountFor p.amount s.usdtRate)).value

/-- The evidence of an accepted transfer. -/
def transferEvidence (txid address : String) (r : TronVerifyResult) : Evidence :=
  .transfer txid (trim address) (r.amount.getD 0) (r.timestamp.getD 0)

/-- The USDT branch of `submitProof`, from the copy `p` on. -/
def submitTxid (id : PaymentId) (p : Payment) (s : Option StoreSettings) (proof : PaymentProof) :
    Service Payment :=
  let txid := dropHexMark (trim (proof.txid.getD ""))
  if !isTxid txid then throw (badRequest "TXID نامعتبر است (۶۴ کاراکتر هگز)")
  else do
    let dup ← Db.read fun w => w.payments.rows.find? fun r => r.2.txid = some txid
    if dup.any fun r => r.1 ≠ id then
      throw (badRequest "این TXID قبلاّ برای پرداخت دیگری ثبت شده است")
    else do
      -- the JSON value is written back whole, from the copy that was read
      let updated ← Db.updateTxid
          (.update [.status, .info, .txid txid] [(id, p)]) id txid fun row =>
        { row with
          status := .review
          error := none
          info := some { p.info.getD .empty with verify := some .pending, tries := some 0 } }
      let q := cryptoMetaOf p
      match s, payAddress q s with
      | some s, some address =>
          if s.usdtAutoVerify && address != "" && isTrc20Usdt q then do
            let r ← verifyTrc20Payment txid address (payAmount p s)
            if r.ok then confirmPayment (transferEvidence txid address r) id (.auto none none)
            else do
              let updated ← Db.updatePayment (.update [.info] [(id, updated)]) id (fun row =>
                { row with
                  error := r.error
                  info := some { updated.info.getD .empty with
                    verify := some r.status, tries := some 1, amountSeen := r.amount } })
                fun _ h => h
              announceReview updated
              pure updated
          else do
            announceReview updated
            pure updated
      | _, _ => do
          announceReview updated
          pure updated

/-- The card branch of `submitProof`, from the copy `p` on. -/
def submitReceipt (id : PaymentId) (p : Payment) (proof : PaymentProof) : Service Payment :=
  let ref := trim (proof.receiptRef.getD "")
  if ref = "" && (proof.receiptFile.getD "") = "" then
    throw (badRequest "شماره پیگیری یا تصویر رسید لازم است")
  else do
    let tail := sliceLast 4 (.ofList ((proof.cardPan.getD "").toList.filter fun c =>
      c.isDigit || c = '*'))
    let updated ← Db.updatePayment (.update [.status] [(id, p)]) id (fun row =>
      { row with
        status := .review
        error := none
        receiptRef := orElse ref p.receiptRef
        cardPan := orElse tail p.cardPan
        receiptFile := proof.receiptFile.or p.receiptFile }) fun _ h => h
    announceReview updated
    pure updated

/-- `submitProof`. -/
def submitProof (paymentId : PaymentId) (proof : PaymentProof) : Service Payment := do
  let p ← Db.findPayment paymentId
  match p with
  | none => throw (notFoundError "پرداخت پیدا نشد")
  | some p =>
      if p.status = .confirmed then pure p
      else do
        let now ← clock
        if p.status = .expired || (p.status = .pending && p.overdue now) then
          throw ⟨"مهلت پرداخت تمام شده است؛ سفارش جدید ثبت کنید", 410, "bad_request"⟩
        else do
          let s ← settingsForPayment p
          match p.method with
          | .usdt => submitTxid paymentId p s proof
          | .card => submitReceipt paymentId p proof
          | _ => throw (badRequest "برای این روش پرداخت نیاز به ارسال رسید نیست")

/-! ## Rejection -/

/-- Write an error on an order. -/
def setOrderError (orderId : OrderId) (e : String) : Service Unit :=
  .step .other fun w =>
    match w.orders.get? orderId with
    | none => (.error recordNotFound, w)
    | some _ => (.ok (), { w with orders := w.orders.modify orderId fun o =>
      { o with error := some e } })

/-- The note of a rejection on the order of the payment. -/
def noteRejection (p : Payment) (note : Option String) : Service Unit :=
  match p.orderId with
  | none => pure ()
  | some orderId => setOrderError orderId ("پرداخت رد شد" ++
      (((note.bind orNull).map fun n => ": " ++ n).getD ""))

/-- The Telegram message to the buyer of a rejected order. -/
def tellBuyer (order : Option Order) : Service Unit :=
  if (order.bind Order.customerTelegramId).isSome then notify "telegram" else pure ()

/-- A payment with its order, as `findUnique` with `include: { order: true }` returns them. -/
def findPaymentAndOrder (l : Stmt) (id : PaymentId) : Service (Option (Payment × Option Order)) :=
  .query l fun w => (w.payments.get? id).map fun p => (p, p.orderId.bind w.orders.get?)

/-- `rejectPayment`. -/
def rejectPayment (actor : Actor) (paymentId : PaymentId) (note : Option String) :
    Service Payment := do
  let found ← findPaymentAndOrder .other paymentId
  match found with
  | none => throw (notFoundError "پرداخت پیدا نشد")
  | some (p, order) =>
      if !canReview actor p then throw (forbiddenError "دسترسی غیرمجاز")
      else if p.status = .confirmed then throw (badRequest "پرداخت تأییدشده را نمی‌توان رد کرد")
      else do
        let updated ← Db.updatePayment (.update [.status] [(paymentId, p)]) paymentId
          (fun row => { row with status := .rejected, reviewedById := some actor.id }) fun _ h => h
        noteRejection p note
        audit (some actor.id) "payment.reject"
        tellBuyer order
        emitEvent (if p.kind = .order then some p.adminId else none) "payment.rejected"
        pure updated

/-! ## The gateway's callback -/

/-- Where the callback sends the browser, relative to the panel's address, and why. -/
structure CallbackReply where
  ok : Bool
  redirect : String
  error : Option String

/-- The page that a payment goes back to. -/
def callbackTarget (p : Payment) (order : Option Order) : Service String :=
  match order with
  | some order => pure ("/shop/o/" ++ order.token)
  | none =>
      if p.customerId.isSome then do
        let shop ← storeSettingsByAdminId p.adminId
        pure ((shop.map fun s => "/shop/" ++ s.slug ++ "/account").getD "/wallet")
      else pure "/wallet"

/-- The callback's rejection of a payment. -/
def rejectByGateway (id : PaymentId) (p : Payment) (e : String) : Service Payment :=
  Db.updatePayment (.update [.status] [(id, p)]) id
    (fun row => { row with status := .rejected, error := some e }) fun _ h => h

/-- The verification of `handleZarinpalCallback` and what follows from it. -/
def settleCallback (id : PaymentId) (p : Payment) (authority : Authority) (target : String) :
    Service CallbackReply := do
  let s ← settingsForPayment p
  let merchant ← Db.read fun w => s.bind (merchantOf w.outside.decryptSecret)
  match s, merchant with
  | some s, some merchant => do
      let r ← zarinpalVerify merchant p.amount authority
      match r with
      | .error e => do
          let _ ← rejectByGateway id p e
          pure ⟨false, target ++ "?pay=failed", some e⟩
      | .ok v => do
          let _ ← confirmPayment (.gateway s.adminId authority) id (.auto (some v.refId) v.cardPan)
          pure ⟨true, target ++ "?pay=ok", none⟩
  | _, _ => pure ⟨false, target ++ "?pay=failed", some "merchant missing"⟩

/-- `handleZarinpalCallback`. -/
def handleZarinpalCallback (paymentId : PaymentId) (authority : Authority) (status : String) :
    Service CallbackReply := do
  let found ← findPaymentAndOrder (.callback paymentId authority status) paymentId
  match found with
  | none => pure ⟨false, "/", some "payment not found"⟩
  | some (p, order) => do
      let target ← callbackTarget p order
      if p.status = .confirmed then pure ⟨true, target ++ "?pay=ok", none⟩
      else if status ≠ "OK" then do
        let _ ← rejectByGateway paymentId p "پرداخت توسط کاربر لغو شد"
        pure ⟨false, target ++ "?pay=canceled", some "canceled"⟩
      else if p.authority.any fun a => a ≠ authority then
        pure ⟨false, target ++ "?pay=failed", some "authority mismatch"⟩
      else settleCallback paymentId p authority target

/-! ## Worker jobs -/

/-- `prisma.payment.updateMany` of the status of the listed payments. -/
def expireRows (stale : List (PaymentId × Payment)) : Service Unit :=
  .modify (.update [.status] stale) fun w =>
    { w with payments := w.payments.mapRows fun id p =>
        if id ∈ stale.map Prod.fst then { p with status := .expired, updatedAt := w.now } else p }

/-- Expire an order that has no payment left to wait for. -/
def expireOrder (orderId : OrderId) : Service Unit := do
  let active ← Db.read fun w => w.payments.rows.any fun r =>
    r.2.orderId = some orderId &&
      (r.2.status = .pending || r.2.status = .review || r.2.status = .confirmed)
  if active then pure ()
  else Db.write fun w => { w with orders := w.orders.modify orderId fun o =>
    if o.status = .pending then { o with status := .expired } else o }

/-- `expirePayments`. -/
def expirePayments : Service ℕ := do
  let now ← clock
  let stale ← Db.read fun w => w.payments.rows.filter fun r =>
    r.2.status = .pending && r.2.overdue now
  if stale = [] then pure 0
  else do
    expireRows stale
    (stale.filterMap fun r => r.2.orderId).eraseDups.forM expireOrder
    pure stale.length

/-- The loop body of `verifyPendingUsdt`: whether the payment was confirmed. -/
def verifyOne (id : PaymentId) (p : Payment) : Service Bool :=
  let info := p.info.getD .empty
  let q := cryptoMetaOf p
  if info.verify = some .mismatch || 40 ≤ info.tries.getD 0 then pure false
  else if !isTrc20Usdt q then pure false
  else do
    let s ← settingsForPayment p
    match s, payAddress q s with
    | some s, some address =>
        if s.usdtAutoVerify && address != "" then do
          let txid := p.txid.getD ""
          let r ← verifyTrc20Payment txid address (payAmount p s)
          if r.ok then do
            let _ ← confirmPayment (transferEvidence txid address r) id (.auto none none)
            pure true
          else do
            let _ ← Db.updatePayment (.update [.info] [(id, p)]) id (fun row =>
              { row with
                error := r.error
                info := some { info with
                  verify := some r.status
                  tries := some (info.tries.getD 0 + 1)
                  amountSeen := r.amount } }) fun _ h => h
            pure false
        else pure false
    | _, _ => pure false

/-- Run the loop body over the payments, counting the confirmed ones. -/
def verifyAll : List (PaymentId × Payment) → Service ℕ
  | [] => pure 0
  | (id, p) :: rest => do
      let confirmed ← verifyOne id p
      let n ← verifyAll rest
      pure (if confirmed then n + 1 else n)

/-- `verifyPendingUsdt`. -/
def verifyPendingUsdt : Service ℕ := do
  let now ← clock
  let items ← Db.findPayments (fun p => p.status = .review && p.method = .usdt && p.txid.isSome &&
    now - 3 * 86400000 ≤ p.updatedAt) (fun a b => a.updatedAt ≤ b.updatedAt) 20
  verifyAll items

end SRPanel
