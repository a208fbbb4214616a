import SRPanel.Lib.ReadCommitted
import SRPanel.Model.Wallet

/-!
# Wallet transactions, statement by statement

The two wallet ledgers again, this time with every statement of their database transactions as a
step of its own. `Model/Wallet.lean` has the coarser view in which the writes of a transaction are
its commit; a charge that is alone on the database does the same in both.
-/

namespace SRPanel

open Interleaving ReadCommitted

namespace Sql

/-- A row that a wallet transaction updates. -/
inductive Row
  | admin (id : AdminId)
  | customer (id : CustomerId)
  deriving DecidableEq

/-- What an update does to the credit of a row. -/
inductive Move
  /-- a new value, computed from the credit `seen` by an earlier read -/
  | set (seen : ℤ)
  /-- `increment` or `decrement`; `seen` is the credit that the test in front of it has read, if
  there is one -/
  | add (amount : ℤ) (seen : Option ℤ)

abbrev Stmt := ReadCommitted.Stmt Row Move

abbrev Db := Shared Row World

abbrev Session := ReadCommitted.Session Row Move World AppError

abbrev Tx := ReadCommitted.Tx Row Move World AppError

/-- The credit of a row. -/
def creditOf (w : World) : Row → Option ℤ
  | .admin id => (w.admins.get? id).map Admin.credit
  | .customer id => (w.customers.get? id).map Customer.credit

/-! ## Admin wallets -/

/-- `prisma.admin.update` of the credit, to a value that was computed from `seen`. -/
def setCredit (id : AdminId) (seen next : ℤ) : Tx Unit :=
  .update (.admin id) (.set seen) fun w =>
    match w.admins.get? id with
    | none => .error recordNotFound
    | some _ => .ok ((), fun w =>
        { w with admins := w.admins.modify id fun a => { a with credit := next } })

/-- The transaction of `chargeWallet`; `limit` is the credit limit, where it applies. -/
def chargeTx (id : AdminId) (amount : ℤ) (kind : WalletTxKind) (ref : TxRef)
    (byAdminId : Option AdminId) (limit : Option ℕ) : Tx (WalletTx AdminId) := do
  let a ← .select fun w => w.admins.get? id
  match a with
  | none => .fail (notFoundError "نماینده یافت نشد")
  | some a =>
      if limit.any fun (c : ℕ) => a.credit + amount < -(c : ℤ) then
        .fail ⟨"اعتبار کافی نیست", 402, "insufficient_credit"⟩
      else do
        let row := ⟨id, kind, amount, a.credit + amount, ref, byAdminId⟩
        setCredit id a.credit (a.credit + amount)
        .insert fun w => { w with walletTxs := row :: w.walletTxs }
        pure row

/-- `chargeWallet`. -/
def chargeWallet (target : Actor) (amount : ℤ) (kind : WalletTxKind) (ref : TxRef)
    (byAdminId : Option AdminId) (allowNegative : Bool) : Session (Option (WalletTx AdminId)) :=
  if target.role = .owner && kind = .purchase then pure none
  else if amount = 0 then pure none
  else do
    let limit ← auto (debitLimit amount allowNegative)
    let row ← transaction (chargeTx target.id amount kind ref byAdminId limit)
    auto (alertAfter row)
    pure (some row)

/-- `adjustCredit`. -/
def adjustCredit (actor : Actor) (adminId : AdminId) (amount : ℤ) :
    Session (Option (WalletTx AdminId)) :=
  if actor.role ≠ .owner then throw (forbiddenError "دسترسی غیرمجاز")
  else if amount = 0 then throw (badRequest "مقدار نمی‌تواند صفر باشد")
  else do
    let target ← auto (Db.read fun w => w.admins.get? adminId)
    match target with
    | none => throw (notFoundError "پیدا نشد")
    | some _ => do
        let tx ← chargeWallet ⟨adminId, .admin⟩ amount .adjust (.other (some "manual") none)
          (some actor.id) true
        auto (audit (some actor.id) "wallet.adjust")
        pure tx

/-! ## Customer wallets -/

/-- The statements that move money on a customer wallet: the database adds the signed amount, and
the ledger row takes the new balance from its answer. -/
def moveCredit (customerId : CustomerId) (amount : ℤ) (kind : WalletTxKind) (ref : TxRef)
    (byAdminId : Option AdminId) (seen : Option ℤ) : Tx ℤ := do
  let credit ← .update (.customer customerId) (.add amount seen) fun w =>
    match w.customers.get? customerId with
    | none => .error recordNotFound
    | some c => .ok (c.credit + amount, fun w =>
        { w with customers := w.customers.modify customerId fun c =>
          { c with credit := c.credit + amount } })
  .insert fun w => { w with
    customerTxs := ⟨customerId, kind, amount, credit, ref, byAdminId⟩ :: w.customerTxs }
  pure credit

/-- `creditCustomerWallet`. -/
def creditCustomerWallet (customerId : CustomerId) (amount : ℤ) (kind : WalletTxKind) (ref : TxRef)
    (byAdminId : Option AdminId) : Session ℤ :=
  if amount ≤ 0 then throw (badRequest "مبلغ نامعتبر است")
  else transaction (moveCredit customerId amount kind ref byAdminId none)

/-- `debitCustomerWallet`. -/
def debitCustomerWallet (customerId : CustomerId) (amount : ℤ) (kind : WalletTxKind) (ref : TxRef)
    (byAdminId : Option AdminId) : Session ℤ :=
  if amount ≤ 0 then throw (badRequest "مبلغ نامعتبر است")
  else transaction do
    let current ← .select fun w => w.customers.get? customerId
    match current with
    | none => .fail (notFoundError "حساب مشتری پیدا نشد")
    | some current =>
        if current.credit < amount then
          .fail ⟨"موجودی کیف پول کافی نیست", 400, "insufficient_funds"⟩
        else moveCredit customerId (-amount) kind ref byAdminId (some current.credit)

end Sql

end SRPanel
