import SRPanel.Model.Payments

/-!
# Top-ups

A reseller tops up the admin wallet with the owner's payment methods, a customer tops up the
customer wallet with the methods of the shop.
-/

namespace SRPanel

open Interleaving

/-- `createTopup`; the amount is already rounded. -/
def createTopup (actor : Actor) (amount : ℤ) (method : PaymentMethod) (assetId : Option String) :
    Service (PaymentId × Payment) :=
  if actor.role = .owner then throw (badRequest "مالک پنل نیازی به شارژ کیف پول ندارد")
  else if amount < 1000 then throw (badRequest "حداقل مبلغ شارژ ۱۰۰۰ تومان است")
  else do
    let owner ← ownerAdmin
    let s ← storeSettingsByAdminId owner.1
    match s with
    | none => throw noMethods
    | some s =>
        if enabledMethods s = [] then throw noMethods
        else do
          let r ← beginPayment s ⟨.topup, method, amount, actor.id, none, assetId⟩
          audit (some actor.id) "wallet.topup_request"
          pure r
where
  noMethods : AppError := badRequest ("روش پرداختی برای شارژ کیف پول تنظیم نشده است" ++
    " (مالک باید روش‌های پرداخت فروشگاه خود را فعال کند)")

/-- The least customer top-up of a shop that sets none. -/
def MIN_TOPUP : ℤ := 1000

/-- Tag a payment with the customer who makes it. -/
def tagCustomer (id : PaymentId) (customerId : CustomerId) : Service Payment :=
  Db.updatePayment (.tag id) id (fun row => { row with customerId := some customerId }) fun _ h => h

/-- `createCustomerTopup`; the amount is already rounded. -/
def createCustomerTopup (customerId : CustomerId) (customer : Customer) (amount : ℤ)
    (method : PaymentMethod) (assetId : Option String) : Service (PaymentId × Payment) := do
  let s ← storeSettingsByAdminId customer.adminId
  match s with
  | none => throw (notFoundError "فروشگاه فعال نیست")
  | some s =>
      let min := if 0 < s.minTopup then s.minTopup else MIN_TOPUP
      if !s.enabled then throw (notFoundError "فروشگاه فعال نیست")
      else if !s.walletEnabled then
        throw ⟨"کیف پول در این فروشگاه فعال نیست", 403, "wallet_disabled"⟩
      else if amount < min then
        throw (badRequest ("حداقل مبلغ شارژ " ++ toString min ++ " تومان است"))
      else if method ∉ enabledMethods s then throw (badRequest "این روش پرداخت فعال نیست")
      else do
        let r ← beginPayment s ⟨.topup, method, amount, customer.adminId, none, assetId⟩
        -- `beginPayment` does not know about customers, so the row is tagged right after
        let payment ← tagCustomer r.1 customerId
        audit (some customer.adminId) "customer.topup_request"
        pure (r.1, payment)

end SRPanel
