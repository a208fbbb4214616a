import SRPanel.Lib.Binary64
import SRPanel.Model.Payments

/-!
# Payment plugins

A plugin is a signed webhook with which an outside provider confirms payments. The book of all
plugins is one cached setting that every operation reads, changes and writes back whole.
-/

namespace SRPanel

open Interleaving

/-- Plugins by id. -/
abbrev PluginBook := Table PluginId PaymentPlugin

/-- The time to live of the cached settings of this model. -/
def SETTING_TTL : ℕ := 5000

/-- `pluginBook`. -/
def pluginBook (x : Proc) : Service PluginBook :=
  .step (.readPlugins x) fun w =>
    (.ok (w.plugins.get x SETTING_TTL w.now),
      { w with plugins := w.plugins.touch x SETTING_TTL w.now })

/-- `savePluginBook`, by a call that has read `seen`. -/
def savePluginBook (x : Proc) (seen items : PluginBook) : Service Unit :=
  .modify (.savePlugins seen) fun w => { w with plugins := w.plugins.put x w.now items }

/-! ## Managing plugins -/

/-- `MAX_PER_ADMIN`. -/
def MAX_PER_ADMIN : ℕ := 10

structure PaymentPluginInput where
  name : String
  enabled : Bool
  methods : List PaymentMethod
  autoConfirm : Bool
  maxAmount : ℕ

/-- `paymentPluginInput.parse` accepts the input. -/
def PaymentPluginInput.valid (i : PaymentPluginInput) : Bool :=
  2 ≤ i.name.length && i.name.length ≤ 60 && i.methods != [] && i.maxAmount ≤ 100000000000 &&
    i.methods.all fun m => m ∈ [PaymentMethod.card, .usdt, .zarinpal]

/-- The exception of a schema. -/
def zodError : AppError := ⟨"Invalid input", 400, "validation"⟩

/-- `createPaymentPlugin`: the id of the new plugin and its secret. -/
def createPaymentPlugin (x : Proc) (actor : Actor) (input : PaymentPluginInput) :
    Service (PluginId × String) :=
  if !input.valid then throw zodError
  else do
    let items ← pluginBook x
    if MAX_PER_ADMIN ≤ (items.rows.filter fun r => r.2.adminId = actor.id).length then
      throw (badRequest "بیش از ۱۰ افزونهٔ پرداخت نمی‌توانید بسازید")
    else do
      let drawn ← .step .other fun w =>
        (.ok (w.nextId, w.outside.randomHex w.nextId), { w with nextId := w.nextId + 1 })
      savePluginBook x items (items.set drawn.1 {
        adminId := actor.id
        master := actor.role = .owner
        name := trim input.name
        enabled := input.enabled
        secret := drawn.2
        methods := input.methods
        autoConfirm := input.autoConfirm
        maxAmount := input.maxAmount
        lastCallAt := none
        lastStatus := none
        lastError := none
        calls := 0
        confirmed := 0 })
      audit (some actor.id) "pay.plugin.create"
      pure drawn

/-- `mine`: the book and the actor's own plugin in it. -/
def mine (x : Proc) (actor : Actor) (id : PluginId) : Service (PluginBook × PaymentPlugin) := do
  let items ← pluginBook x
  match items.get? id with
  | none => throw (notFoundError "افزونهٔ پرداخت پیدا نشد")
  | some plugin =>
      if plugin.adminId ≠ actor.id then throw (notFoundError "افزونهٔ پرداخت پیدا نشد")
      else pure (items, plugin)

/-- `rotatePaymentPluginSecret`. -/
def rotatePaymentPluginSecret (x : Proc) (actor : Actor) (id : PluginId) : Service String := do
  let (items, plugin) ← mine x actor id
  let secret ← .step .other fun w =>
    (.ok (w.outside.randomHex w.nextId), { w with nextId := w.nextId + 1 })
  savePluginBook x items (items.set id { plugin with secret := secret })
  audit (some actor.id) "pay.plugin.rotate"
  pure secret

/-- The changes of `updatePaymentPlugin`; absent fields keep their value. -/
structure PaymentPluginPatch where
  name : Option String
  enabled : Option Bool
  methods : Option (List PaymentMethod)
  autoConfirm : Option Bool
  maxAmount : Option ℕ

/-- `updatePaymentPlugin`, for a patch that its schema accepts. -/
def updatePaymentPlugin (x : Proc) (actor : Actor) (id : PluginId) (patch : PaymentPluginPatch) :
    Service PaymentPlugin := do
  let (items, plugin) ← mine x actor id
  let next := { plugin with
    name := (patch.name.map trim).getD plugin.name
    enabled := patch.enabled.getD plugin.enabled
    methods := patch.methods.getD plugin.methods
    autoConfirm := patch.autoConfirm.getD plugin.autoConfirm
    maxAmount := patch.maxAmount.getD plugin.maxAmount }
  savePluginBook x items (items.set id next)
  audit (some actor.id) "pay.plugin.update"
  pure next

/-- `deletePaymentPlugin`. -/
def deletePaymentPlugin (x : Proc) (actor : Actor) (id : PluginId) : Service Unit := do
  let (items, _) ← mine x actor id
  savePluginBook x items (items.erase id)
  audit (some actor.id) "pay.plugin.delete"

/-! ## The signed callback -/

/-- `clean` in `sameSignature`: trimmed, without a leading `sha256=`, in lower case. -/
def cleanSignature (got : Option String) : String :=
  let s := lower (trim (got.getD ""))
  match s.toList with
  | 's' :: 'h' :: 'a' :: '2' :: '5' :: '6' :: '=' :: rest => .ofList rest
  | _ => s

/-- `sameSignature`. -/
def sameSignature (expected : String) (got : Option String) : Bool :=
  let clean := cleanSignature got
  clean != "" && clean == expected

inductive CallbackAction
  | confirmed
  | review
  | rejected
  | ignored
  deriving DecidableEq

/-- `action.toUpperCase()`. -/
def CallbackAction.name : CallbackAction → String
  | confirmed => "CONFIRMED"
  | review => "REVIEW"
  | rejected => "REJECTED"
  | ignored => "IGNORED"

structure PluginCallbackResult where
  action : CallbackAction
  paymentId : PaymentId
  status : PaymentStatus
  message : String

/-- `OK_WORDS`. -/
def OK_WORDS : List String :=
  ["ok", "success", "successful", "paid", "confirmed", "completed", "done", "true", "1"]

/-- `BAD_WORDS`. -/
def BAD_WORDS : List String :=
  ["fail", "failed", "failure", "cancel", "canceled", "cancelled", "rejected", "declined", "error",
    "false", "0"]

/-- `stamp`: count a call in the book and note how it ended. -/
def stamp (x : Proc) (id : PluginId) (status : String) (error : Option String) (confirmed : Bool) :
    Service Unit := do
  let items ← pluginBook x
  match items.get? id with
  | none => pure ()
  | some cur =>
      let now ← clock
      savePluginBook x items (items.set id { cur with
        calls := cur.calls + 1
        confirmed := cur.confirmed + if confirmed then 1 else 0
        lastCallAt := some now
        lastStatus := some status
        lastError := error })

/-- Stamp the call with a refusal and throw it. -/
def refuse {α : Type} (x : Proc) (id : PluginId) (status : String) (e : AppError) : Service α := do
  stamp x id status (some e.message) false
  throw e

/-- `finish`. -/
def finish (x : Proc) (id : PluginId) (action : CallbackAction) (paymentId : PaymentId)
    (status : PaymentStatus) (message : String) : Service PluginCallbackResult := do
  stamp x id action.name (if action = .confirmed then none else some message) (action = .confirmed)
  pure ⟨action, paymentId, status, message⟩

/-- The amount that a callback declares; `none` when it declares none or one that is not a number.
-/
def declaredAmount (body : CallbackBody) : Option ℤ :=
  (body.amount.bind fun t =>
    numberOf (.ofList (t.toList.filter fun c => c.isDigit || c = '.'))).map fun v =>
    mathRound (Binary64.round v)

/-- Why a callback only sends a payment to review, if it does. -/
def reviewReason (plugin : PaymentPlugin) (amount : ℤ) (word : String) (body : CallbackBody) :
    Option String :=
  if (declaredAmount body).any fun d => d < amount then
    some "مبلغ اعلام‌شده کمتر از مبلغ پرداخت است"
  else if 0 < plugin.maxAmount && plugin.maxAmount < amount then
    some "مبلغ از سقف مجاز افزونه بیشتر است"
  else if word ∉ OK_WORDS then some "وضعیت ارسالی نامشخص است"
  else if !plugin.autoConfirm then some "تأیید خودکار این افزونه خاموش است"
  else none

/-- The part of `handlePaymentPluginCallback` that acts on an open payment. -/
def settlePluginCallback (x : Proc) (id : PluginId) (plugin : PaymentPlugin) (paymentId : PaymentId)
    (p : Payment) (body : CallbackBody) : Service PluginCallbackResult :=
  let word := lower (trim (body.status.getD "ok"))
  let refId := orNull (sliceTo 120 (trim ((body.refId.or body.ref).getD "")))
  if word ∈ BAD_WORDS then do
    let _ ← Db.updatePayment (.update [.status] [(paymentId, p)]) paymentId
      (fun row => { row with status := .rejected }) fun _ h => h
    audit (some plugin.adminId) "pay.plugin.reject"
    finish x id .rejected paymentId .rejected "پرداخت رد شد"
  else match reviewReason plugin p.amount word body with
    | some why => do
        let _ ← Db.updatePayment (.update [.status] [(paymentId, p)]) paymentId
          (fun row => { row with status := .review, refId := refId.or row.refId }) fun _ h => h
        audit (some plugin.adminId) "pay.plugin.review"
        finish x id .review paymentId .review (why ++ "؛ پرداخت برای بررسی دستی ثبت شد")
    | none => do
        let _ ← confirmPayment (.plugin plugin) paymentId (.auto refId none)
        audit (some plugin.adminId) "pay.plugin.confirm"
        finish x id .confirmed paymentId .confirmed "پرداخت تأیید شد"

/-- The part of `handlePaymentPluginCallback` after the payment is found. -/
def applyPluginCallback (x : Proc) (id : PluginId) (plugin : PaymentPlugin) (paymentId : PaymentId)
    (p : Payment) (body : CallbackBody) : Service PluginCallbackResult :=
  if !plugin.master && p.adminId ≠ plugin.adminId then
    refuse x id "FORBIDDEN" (forbiddenError "این پرداخت به این افزونه مربوط نیست")
  else if p.method ∉ plugin.methods then
    refuse x id "METHOD_OFF" (forbiddenError "روش پرداخت این تراکنش در افزونه فعال نیست")
  else if p.status = .confirmed then
    finish x id .ignored paymentId p.status "این پرداخت قبلاً تأیید شده بود"
  else if p.status ≠ .pending && p.status ≠ .review then
    finish x id .ignored paymentId p.status "وضعیت این پرداخت اجازهٔ تغییر نمی‌دهد"
  else settlePluginCallback x id plugin paymentId p body

/-- `handlePaymentPluginCallback`. -/
def handlePaymentPluginCallback (x : Proc) (id : PluginId) (rawBody : String)
    (signature : Option String) : Service PluginCallbackResult := do
  let items ← pluginBook x
  match items.get? id with
  | none => throw (notFoundError "افزونهٔ پرداخت پیدا نشد")
  | some plugin =>
      if !plugin.enabled then throw (forbiddenError "این افزونه غیرفعال است")
      else if plugin.secret = "" then throw (forbiddenError "کلید امضای این افزونه تنظیم نشده است")
      else do
        let expected ← Db.read fun w => w.outside.hmac plugin.secret rawBody
        if !sameSignature expected signature then
          refuse x id "BAD_SIGNATURE" (forbiddenError "امضای درخواست معتبر نیست")
        else do
          let json ← Db.read fun w =>
            w.outside.callbackJson (if rawBody = "" then "\x7b\x7d" else rawBody)
          match json with
          | none => refuse x id "BAD_BODY" (badRequest "بدنهٔ درخواست باید JSON معتبر باشد")
          | some body =>
              match body.target with
              | none => refuse x id "NO_PAYMENT_ID" (badRequest "شناسهٔ پرداخت ارسال نشده است")
              | some paymentId => do
                  let p ← .query (.called plugin paymentId) fun w => w.payments.get? paymentId
                  match p with
                  | none =>
                      refuse x id "NOT_FOUND" (notFoundError "پرداختی با این شناسه پیدا نشد")
                  | some p => applyPluginCallback x id plugin paymentId p body

end SRPanel
