import SRPanel.Model.Tron

/-!
# Answers of the explorers

`verifyTrc20Payment` converts what it reads of an answer where it reads it. Here the answers are as
the explorers may send them, with every field absent or of any type. `Model/Tron` is the part of it
that is about well-formed answers.
-/

namespace SRPanel

namespace Explorer

/-! ## Numbers -/

/-- A number of the language, up to rounding. -/
inductive JsNumber
  | nan
  | infinity (negative : Bool)
  | finite (q : ℚ)
  deriving DecidableEq

/-- `x / y`; a zero has no sign here. -/
def JsNumber.div : JsNumber → JsNumber → JsNumber
  | .nan, _ => .nan
  | _, .nan => .nan
  | .infinity _, .infinity _ => .nan
  | .infinity negative, .finite q => .infinity (negative != decide (q < 0))
  | .finite _, .infinity _ => .finite 0
  | .finite p, .finite q =>
      if q = 0 then if p = 0 then .nan else .infinity (p < 0) else .finite (p / q)

/-- `amount + tolerance < minAmount`, which no comparison with NaN is. -/
def JsNumber.fallsShort (minAmount : ℚ) : JsNumber → Bool
  | .nan => false
  | .infinity negative => negative
  | .finite q => q + usdtTolerance < minAmount

/-! ## Answers -/

/-- A value that is not null, by what `String`, `Number` and `Boolean` make of it. -/
structure JsonValue where
  text : String
  number : JsNumber
  truthy : Bool
  deriving DecidableEq

/-- A field, which may be null or absent. -/
abbrev JsonField := Option JsonValue

/-- `String(x ?? "")`. -/
def JsonField.text (x : JsonField) : String := (x.map JsonValue.text).getD ""

/-- `Number(x ?? n)`. -/
def JsonField.number (n : ℚ) (x : JsonField) : JsNumber := (x.map JsonValue.number).getD (.finite n)

/-- `Boolean(x)`. -/
def JsonField.truthy (x : JsonField) : Bool := (x.map JsonValue.truthy).getD false

/-- An entry of `trc20TransferInfo`. -/
structure TransferJson where
  contract_address : JsonField
  to_address : JsonField
  from_address : JsonField
  decimals : JsonField
  amount_str : JsonField
  amount : JsonField
  deriving DecidableEq

/-- An entry without any of these fields. -/
def TransferJson.blank : TransferJson := ⟨none, none, none, none, none, none⟩

/-- Tronscan's answer, an object with a field. An entry whose fields cannot be read throws with the
given text. -/
structure TronscanJson where
  /-- the field, if it is an array -/
  trc20TransferInfo : Option (List (Except String TransferJson))
  /-- the field is an array -/
  tokenTransferInfo : Bool
  confirmed : JsonField
  /-- `undefined`, or the text; a value of another type is no text that is asked for -/
  contractRet : Option String
  timestamp : JsonField

/-- An event of TronGrid's answer. -/
structure EventJson where
  event_name : Option String
  contract_address : JsonField
  /-- `result.to` -/
  to' : JsonField
  /-- `result.from` -/
  from' : JsonField
  /-- `result.value` -/
  value : JsonField
  block_timestamp : JsonField
  deriving DecidableEq

/-- TronGrid's answer: a failure with its text, or the events. All events of a transaction carry the
flag `_unconfirmed` until its block is confirmed; the code does not read it. -/
inductive TrongridJson
  | failed (error : String)
  | events (unconfirmed : Bool) (data : List (Except String EventJson))

/-! ## Verdicts -/

/-- `TronVerifyResult`. -/
structure Verdict where
  ok : Bool
  status : TronVerifyStatus
  amount : Option JsNumber
  sender : Option String
  toAddress : Option String
  timestamp : Option JsNumber
  error : Option String
  deriving DecidableEq

def Verdict.refused (status : TronVerifyStatus) (amount : Option JsNumber)
    (error : String) : Verdict :=
  ⟨false, status, amount, none, none, none, some error⟩

/-- The functions of the runtime: SHA-256, and `10 ** x`. -/
structure Runtime where
  sha256 : List ℕ → List ℕ
  pow10 : JsNumber → JsNumber

/-- `j.trc20TransferInfo`, or else the list with `j.tokenTransferInfo`, which is an array here and
has no fields. -/
def TronscanJson.transfers (j : TronscanJson) : List (Except String TransferJson) :=
  j.trc20TransferInfo.getD (if j.tokenTransferInfo then [.ok .blank] else [])

/-- The entry is a transfer of USDT to the address. -/
def TransferJson.matches' (want : String) (x : TransferJson) : Bool :=
  x.contract_address.text = USDT_TRC20 && x.to_address.text = want

/-- `find` over entries any of which may throw when it is read. -/
def findEntry {α : Type} (p : α → Bool) : List (Except String α) → Except String (Option α)
  | [] => .ok none
  | .error e :: _ => .error e
  | .ok x :: rest => if p x then .ok (some x) else findEntry p rest

/-- `Number(t.amount_str ?? t.amount ?? 0) / 10 ** decimals`. -/
def TransferJson.usdt (rt : Runtime) (t : TransferJson) : JsNumber :=
  (JsonField.number 0 (t.amount_str.or t.amount)).div (rt.pow10 (JsonField.number 6 t.decimals))

/-- `Boolean(j.confirmed) && (j.contractRet === undefined || j.contractRet === "SUCCESS")`. -/
def TronscanJson.passes (j : TronscanJson) : Bool :=
  j.confirmed.truthy && (j.contractRet.isNone || j.contractRet = some "SUCCESS")

/-- The verdict on Tronscan's answer; `none` if reading it throws. -/
def tronscanVerdict (rt : Runtime) (want : String) (minAmount : ℚ) (j : TronscanJson) :
    Option Verdict :=
  match findEntry (TransferJson.matches' want) j.transfers with
  | .error _ => none
  | .ok none => some (.refused .mismatch none "این تراکنش انتقال USDT به آدرس فروشگاه نیست")
  | .ok (some t) =>
      let amount := t.usdt rt
      if !j.passes then some (.refused .pending (some amount) "تراکنش هنوز تأیید نشده است")
      else if amount.fallsShort minAmount then
        some (.refused .mismatch (some amount) "مبلغ تراکنش کمتر از مبلغ سفارش است")
      else some ⟨true, .confirmed, some amount, some t.from_address.text, some want,
        some (JsonField.number 0 j.timestamp), none⟩

/-- The event is a transfer of USDT to the address. -/
def EventJson.matches' (rt : Runtime) (want : String) (ev : EventJson) : Bool :=
  ev.event_name = some "Transfer" && ev.contract_address.text = USDT_TRC20 &&
    tronHexToBase58 rt.sha256 ev.to'.text = want

/-- `Number(r.value ?? 0) / 1e6`. -/
def EventJson.usdt (ev : EventJson) : JsNumber :=
  (JsonField.number 0 ev.value).div (.finite 1000000)

/-- The loop over the events. -/
def eventsVerdict (rt : Runtime) (want : String) (minAmount : ℚ) :
    List (Except String EventJson) → Verdict
  | [] => .refused .mismatch none "انتقال USDT به آدرس فروشگاه در این تراکنش یافت نشد"
  | .error e :: _ => .refused .error none e
  | .ok ev :: rest =>
      if !ev.matches' rt want then eventsVerdict rt want minAmount rest
      else if ev.usdt.fallsShort minAmount then
        .refused .mismatch (some ev.usdt) "مبلغ تراکنش کمتر از مبلغ سفارش است"
      else ⟨true, .confirmed, some ev.usdt,
        some (tronHexToBase58 rt.sha256 ev.from'.text), some want,
        some (JsonField.number 0 ev.block_timestamp), none⟩

/-- The verdict on TronGrid's answer. -/
def trongridVerdict (rt : Runtime) (want : String) (minAmount : ℚ) : TrongridJson → Verdict
  | .failed error => .refused .error none error
  | .events _ [] => .refused .not_found none "تراکنش پیدا نشد (یا هنوز ثبت نشده)"
  | .events _ (ev :: rest) => eventsVerdict rt want minAmount (ev :: rest)

/-- `verifyTrc20Payment` on the answers that it gets; Tronscan's is `none` if the request fails or
the object is empty. -/
def verifyTrc20Payment (rt : Runtime) (txid toAddress : String) (minAmount : ℚ)
    (scan : Option TronscanJson) (grid : TrongridJson) : Verdict :=
  if !isTxid (dropHexMark (trim txid)) then .refused .mismatch none "TXID نامعتبر است"
  else (scan.bind (tronscanVerdict rt (trim toAddress) minAmount)).getD
    (trongridVerdict rt (trim toAddress) minAmount grid)

end Explorer

end SRPanel
