import SRPanel.Model.World

/-!
# Wallets and fulfilment

The effects of a confirmed payment: the credit of an admin wallet or of a customer wallet, each with
its ledger row, and the hand-over of an order to fulfilment. A database transaction makes its writes
visible at its commit, which is one step; the reads before it are steps of their own.
-/

namespace SRPanel

open Interleaving

/-! ## Admin wallets -/

/-- `lowBalanceAlert`: never throws. -/
def lowBalanceAlert (adminId : AdminId) (before after : ℤ) : Service Unit :=
  Prog.attempt (do
    let limit ← Db.read World.lowBalance
    if limit ≤ 0 || limit < after || before ≤ limit then pure ()
    else
      let a ← Db.read fun w => w.admins.get? adminId
      match a with
      | none => pure ()
      | some a => if a.role = .owner then pure () else notify "wallet.low_balance") fun _ => pure ()

/-- The alert after a debit. -/
def alertAfter (row : WalletTx AdminId) : Service Unit :=
  if row.amount < 0 then lowBalanceAlert row.holder (row.balanceAfter - row.amount) row.balanceAfter
  else pure ()

/-- `BigInt(p.creditLimit)`, which is read only for a debit that may not go below the limit. -/
def debitLimit (amount : ℤ) (allowNegative : Bool) : Service (Option ℕ) :=
  if amount < 0 && !allowNegative then Db.read fun w => some w.creditLimit else pure none

/-- The commit of `chargeWallet`: the new credit and its ledger row. -/
def commitCharge (row : WalletTx AdminId) : Service (WalletTx AdminId) :=
  .step .other fun w =>
    match w.admins.get? row.holder with
    | none => (.error recordNotFound, w)
    | some _ =>
        (.ok row, { w with
          admins := w.admins.modify row.holder fun a => { a with credit := row.balanceAfter }
          walletTxs := row :: w.walletTxs })

/-- `chargeWallet`: move a signed amount on an admin wallet and write a ledger row. -/
def chargeWallet (target : Actor) (amount : ℤ) (kind : WalletTxKind) (ref : TxRef)
    (byAdminId : Option AdminId) (allowNegative : Bool) : Service (Option (WalletTx AdminId)) :=
  if target.role = .owner && kind = .purchase then pure none
  else if amount = 0 then pure none
  else do
    let limit ← debitLimit amount allowNegative
    let a ← Db.read fun w => w.admins.get? target.id
    match a with
    | none => throw (notFoundError "نماینده یافت نشد")
    | some a =>
        if limit.any fun (c : ℕ) => a.credit + amount < -(c : ℤ) then
          throw ⟨"اعتبار کافی نیست", 402, "insufficient_credit"⟩
        else do
          let row ← commitCharge ⟨target.id, kind, amount, a.credit + amount, ref, byAdminId⟩
          alertAfter row
          pure (some row)

/-! ## Customer wallets -/

/-- The commit of `creditCustomerWallet`: the database adds the amount itself. -/
def commitCredit (customerId : CustomerId) (amount : ℤ) (kind : WalletTxKind) (ref : TxRef)
    (seen : Option (WalletTx CustomerId)) : Service ℤ :=
  .step (.credit customerId amount kind ref seen) fun w =>
    match w.customers.get? customerId with
    | none => (.error recordNotFound, w)
    | some c =>
        (.ok (c.credit + amount), { w with
          customers := w.customers.modify customerId fun c => { c with credit := c.credit + amount }
          customerTxs := ⟨customerId, kind, amount, c.credit + amount, ref, none⟩ ::
            w.customerTxs })

/-- `creditCustomerWallet`; `seen` is the row that its caller has found under the reference. -/
def creditCustomerWallet (customerId : CustomerId) (amount : ℤ) (kind : WalletTxKind) (ref : TxRef)
    (seen : Option (WalletTx CustomerId)) : Service ℤ :=
  if amount ≤ 0 then throw (badRequest "مبلغ نامعتبر است")
  else commitCredit customerId amount kind ref seen

/-- The bonus of a shop on a top-up. -/
def topupBonus (store : Option StoreSettings) (amount : ℤ) : ℤ :=
  let bonusPct := (store.map StoreSettings.topupBonusPct).getD 0
  if 0 < bonusPct then (amount * bonusPct).tdiv 100 else 0

/-- `settleCustomerTopup`: credit a confirmed top-up to the customer wallet, keyed by the payment.
-/
def settleCustomerTopup (paymentId : PaymentId) : Service (Bool × Option ℤ) := do
  let payment ← Db.findPayment paymentId
  match payment with
  | none => pure (false, none)
  | some payment =>
      match payment.customerId with
      | none => pure (false, none)
      | some customerId =>
          if payment.kind ≠ .topup || payment.status ≠ .confirmed then pure (false, none)
          else do
            let already ← Db.read fun w => w.customerTxs.find? fun t => t.ref = .payment paymentId
            match already with
            | some t => pure (false, some t.balanceAfter)
            | none => do
                let store ← storeSettingsByAdminId payment.adminId
                let balance ← creditCustomerWallet customerId
                  (payment.amount + topupBonus store payment.amount) .topup
                    (.payment paymentId) already
                audit (some payment.adminId) "customer.wallet_topup"
                pure (true, some balance)

/-! ## Orders -/

/-- The provisioning on the servers, which is outside this model, and the order update after it. -/
def provision (orderId : OrderId) : Service Order :=
  .step .other fun w =>
    match w.outside.provisioning orderId with
    | some e => (.error ⟨e, 500, "provisioning"⟩, w)
    | none =>
        match w.orders.get? orderId with
        | none => (.error recordNotFound, w)
        | some o =>
            let o' := { o with status := .fulfilled, error := none }
            (.ok o', { w with
              orders := w.orders.modify orderId fun _ => o'
              history := { w.history with provisioned := orderId :: w.history.provisioned } })

/-- Leave the error of a failed fulfilment in the order. -/
def noteFailure (orderId : OrderId) (message : String) : Service Order :=
  .step .other fun w =>
    match w.orders.get? orderId with
    | none => (.error recordNotFound, w)
    | some o =>
        let o' := { o with error := some message }
        (.ok o', { w with orders := w.orders.modify orderId fun _ => o' })

/-- `fulfillOrder`, with what the history records of its start. -/
def fulfillOrderBy (start : History → History) (orderId : OrderId) : Service Order := do
  let order ← .step .other fun w =>
    (.ok (w.orders.get? orderId), { w with history := start w.history })
  match order with
  | none => throw (notFoundError "سفارش پیدا نشد")
  | some order =>
      if order.status = .fulfilled then pure order
      else if order.status ≠ .paid then throw (badRequest "سفارش هنوز پرداخت نشده است")
      else (provision orderId).attempt fun err => noteFailure orderId err.message

/-- Record that a payment handed its order to fulfilment. -/
def History.handOver (h : History) (orderId : OrderId) (cause : PaymentId) : History :=
  { h with handedOver := (orderId, cause) :: h.handedOver }

/-- `fulfillOrder`, started by the payment `cause`. -/
def fulfillOrder (cause : PaymentId) (orderId : OrderId) : Service Order :=
  fulfillOrderBy (fun h => h.handOver orderId cause) orderId

end SRPanel
