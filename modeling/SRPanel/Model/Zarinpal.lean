import SRPanel.Model.World

/-!
# The Zarinpal gateway

The two requests of the payment gateway, with the gateway as a table of invoices: it verifies a paid
invoice for the right merchant and amount, with code 100 the first time and 101 afterwards.
-/

namespace SRPanel

open Interleaving

/-- `host`. -/
def zarinpalHost (sandbox : Bool) : String :=
  if sandbox then "https://sandbox.zarinpal.com" else "https://payment.zarinpal.com"

/-- `zarinpalRequest`: open an invoice; the result is its authority and the address to pay at. -/
def zarinpalRequest (merchantId : String) (amount : ℤ) (sandbox : Bool) :
    Service (Except String (Authority × String)) :=
  .step .other fun w =>
    match w.outside.zarinpalDown with
    | some e => (.ok (.error e), w)
    | none =>
        (.ok (.ok (w.nextId, zarinpalHost sandbox ++ "/pg/StartPay/" ++ toString w.nextId)),
          { w with
            gateway := w.gateway.set w.nextId ⟨merchantId, amount, false, false, "", none⟩
            nextId := w.nextId + 1 })

/-- A verification that the gateway has accepted. -/
structure ZpVerified where
  refId : String
  cardPan : Option String
  alreadyVerified : Bool

/-- The gateway accepts a verification of this invoice. -/
def Invoice.accepts (i : Invoice) (merchantId : String) (amount : ℤ) : Bool :=
  i.paid && i.merchantId = merchantId && i.amount = amount

/-- `zarinpalVerify`. -/
def zarinpalVerify (merchantId : String) (amount : ℤ) (authority : Authority) :
    Service (Except String ZpVerified) :=
  .step .other fun w =>
    match w.outside.zarinpalDown with
    | some e => (.ok (.error e), w)
    | none =>
        match w.gateway.get? authority with
        | none => (.ok (.error w.outside.zarinpalRefusal), w)
        | some i =>
            if i.accepts merchantId amount then
              (.ok (.ok ⟨i.refId, i.cardPan, i.verified⟩),
                { w with gateway := w.gateway.modify authority fun i =>
                  { i with verified := true } })
            else (.ok (.error w.outside.zarinpalRefusal), w)

end SRPanel
