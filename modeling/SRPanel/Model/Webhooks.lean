import Mathlib.Data.List.Sort
import SRPanel.Lib.Worker
import SRPanel.Lib.Table
import SRPanel.Model.Types

/-!
# Webhooks

`services/webhooks.ts`: events are queued for the webhooks that ask for them, and a job of the
worker posts what is due, again and again with a growing delay. The receivers, the ids and secrets
that are drawn, and the order in which the database lists rows of one time are part of the world
around. What the job has done is kept in a log that the code does not have.
-/

namespace SRPanel

open Interleaving

abbrev WebhookId := ℕ
abbrev DeliveryId := ℕ

/-- A JSON object: its keys with the texts of their values. -/
abbrev Payload := List (String × String)

/-- A row of `Webhook`. -/
structure Outbox.Webhook where
  adminId : AdminId
  url : String
  secret : String
  /-- empty for all events -/
  events : List String
  isActive : Bool
  lastStatus : Option ℤ
  lastError : Option String
  lastFiredAt : Option Time
  failCount : ℕ
  deriving DecidableEq

/-- A row of `WebhookDelivery`. -/
structure Outbox.WebhookDelivery where
  webhookId : WebhookId
  event : String
  payload : Payload
  status : Option ℤ
  error : Option String
  attempts : ℕ
  nextAt : Time
  doneAt : Option Time
  createdAt : Time
  deriving DecidableEq

/-- The request of `deliver`, with the headers that depend on the delivery. -/
structure HookRequest where
  url : String
  /-- `x-srp-event` -/
  event : String
  /-- `x-srp-delivery` -/
  delivery : String
  /-- `x-srp-signature` -/
  signature : String
  body : String
  deriving DecidableEq

/-- What has been done about deliveries. A test post has no delivery. -/
inductive OutboxEvent
  | posted (at' : Time) (id : Option DeliveryId) (request : HookRequest) (answer : Except String ℤ)
  | recorded (at' : Time) (id : DeliveryId) (webhookId : WebhookId) (status : Option ℤ)
  | shelved (at' : Time) (id : DeliveryId)

/-- `hookCountCache`. -/
structure HookCount where
  at' : Time
  n : ℕ
  deriving DecidableEq

/-- What the webhook service reads and writes. Each process has a cache of its own. -/
structure Outbox where
  now : Time
  admins : Table AdminId AdminRole
  hooks : Table WebhookId Outbox.Webhook
  deliveries : Table DeliveryId Outbox.WebhookDelivery
  nextHook : WebhookId
  nextDelivery : DeliveryId
  hookCountCache : ℕ → Option HookCount
  /-- the public columns of a client, as JSON -/
  clients : String → Option String
  /-- what the receivers answer at the moment: a status, or the error of the request -/
  answer : HookRequest → Except String ℤ
  /-- how the database orders rows of one time -/
  rank : DeliveryId → ℕ
  /-- what the job has done, the last first -/
  log : List OutboxEvent
  /-- every delivery as it was queued, with the secret of its webhook -/
  queued : Table DeliveryId (Outbox.WebhookDelivery × String)
  /-- rounds of the job that came to their end -/
  rounds : ℕ
  /-- rounds that were cut short -/
  cuts : ℕ

/-- The functions of the runtime: signatures, the text of a JSON object, the text of a time. -/
structure WebhookEnv where
  hmacSha256 : String → String → String
  stringify : Payload → String
  isoTime : Time → String

/-- A process on the outbox. -/
abbrev OutboxProg := Prog Unit Outbox AppError

/-- `MAX_ATTEMPTS`. -/
def MAX_ATTEMPTS : ℕ := 6

/-- The database refuses a row that refers to a missing one. -/
def foreignKeyViolation : AppError := ⟨"Foreign key constraint failed", 500, "P2003"⟩

namespace Outbox

def clock : OutboxProg Time := .query () Outbox.now

/-! ## Queueing -/

/-- `anyHooks`, in process `proc`. -/
def anyHooks (proc : ℕ) : OutboxProg Bool := do
  let cache ← .query () fun s => (s.hookCountCache proc, s.now)
  match cache.1.filter fun c => cache.2 < c.at' + 30000 with
  | some c => pure (0 < c.n)
  | none => do
      let n ← .query () fun s => (s.hooks.rows.filter fun r => r.2.isActive).length
      .modify () fun s =>
        { s with hookCountCache := Function.update s.hookCountCache proc (some ⟨s.now, n⟩) }
      pure (0 < n)

/-- `invalidateWebhookCache`, in process `proc`. -/
def invalidateWebhookCache (proc : ℕ) : OutboxProg Unit :=
  .modify () fun s => { s with hookCountCache := Function.update s.hookCountCache proc none }

/-- A key of an object literal: the last value wins, at the place of the first. -/
def putField (p : Payload) (field : String × String) : Payload :=
  if p.any fun f => f.1 = field.1 then p.map fun f =>
    if f.1 = field.1 then field else f else p ++ [field]

/-- `{ ...p, ...q }`. -/
def spread (p q : Payload) : Payload := q.foldl putField p

/-- `enrich`; `target` is `payload.target`, if it is a string. -/
def enrich (event : String) (target : Option String) : OutboxProg Payload :=
  match target with
  | none => pure []
  | some t =>
      if "client.".toList <+: event.toList && t ≠ "" then do
        let c ← .query () fun s => s.clients t
        pure ((c.map fun json => ("client", json)).toList)
      else pure []

/-- The webhooks that hear of what concerns the admin: all of the owner's, and the admin's own. -/
def hears (s : Outbox) (adminId : Option AdminId) (h : Webhook) : Bool :=
  h.isActive && (s.admins.get? h.adminId = some .owner || adminId = some h.adminId)

/-- The condition of `hooks.filter`; `events` are those of the webhook. -/
def wants (events : List String) (event : String) : Bool := events.isEmpty || events.contains event

/-- A new row of the queue. -/
def freshDelivery (webhookId : WebhookId) (event : String) (payload : Payload) (now : Time) :
    WebhookDelivery :=
  ⟨webhookId, event, payload, none, none, 0, now, none, now⟩

/-- A row is added for the webhook. -/
def enqueue (event : String) (payload : Payload) (s : Outbox) (id : WebhookId) : Outbox :=
  let row := freshDelivery id event payload s.now
  { s with
    deliveries := s.deliveries.set s.nextDelivery row
    queued := s.queued.set s.nextDelivery (row, ((s.hooks.get? id).map Webhook.secret).getD "")
    nextDelivery := s.nextDelivery + 1 }

/-- `webhookDelivery.createMany`. -/
def createMany (targets : List WebhookId) (event : String) (payload : Payload) : OutboxProg Unit :=
  .step () fun s =>
    if targets.all fun id => (s.hooks.get? id).isSome then
      (.ok (), targets.foldl (enqueue event payload) s)
    else (.error foreignKeyViolation, s)

/-- `emitEvent`, in process `proc`; `adminJson` is the text of the admin id. -/
def emitEvent (env : WebhookEnv) (proc : ℕ) (adminId : Option AdminId) (adminJson : String)
    (event eventJson : String) (payload : Payload) (target : Option String) : OutboxProg Unit := do
  let any ← anyHooks proc
  if !any then pure ()
  else do
    let hooks ← .query () fun s =>
      (s.hooks.rows.filter fun r => s.hears adminId r.2).map fun r => (r.1, r.2.events)
    let targets := hooks.filter fun h => wants h.2 event
    if targets.isEmpty then pure ()
    else do
      let extra ← enrich event target
      let now ← clock
      let body := spread (spread [("event", eventJson), ("at", env.isoTime now),
        ("adminId", adminJson)] payload) extra
      createMany (targets.map Prod.fst) event body

/-! ## Posting -/

/-- `signPayload`. -/
def signPayload (env : WebhookEnv) (secret body : String) : String :=
  "sha256=" ++ env.hmacSha256 secret body

/-- `res.ok`, and what `dispatchWebhooks` takes for a success. -/
def isSuccess (status : Option ℤ) : Bool := status.any fun c => 200 ≤ c && c < 300

/-- The text of `x-srp-delivery`. -/
def deliveryHeader : Option DeliveryId → String
  | some id => toString id
  | none => "test"

/-- The request of `deliver`. -/
def hookRequest (env : WebhookEnv) (url secret event : String) (payload : Payload)
    (id : Option DeliveryId) : HookRequest :=
  let body := env.stringify payload
  ⟨url, event, deliveryHeader id, signPayload env secret body, body⟩

/-- `deliver`: the status and the error of the request. -/
def deliver (env : WebhookEnv) (hook : Webhook) (event : String) (payload : Payload)
    (id : Option DeliveryId) : OutboxProg (Option ℤ × Option String) := do
  let request := hookRequest env hook.url hook.secret event payload id
  let answer ← .step () fun s =>
    (.ok (s.answer request), { s with log := .posted s.now id request (s.answer request) :: s.log })
  match answer with
  | .ok status => pure (some status,
    if isSuccess (some status) then none else some ("HTTP " ++ toString status))
  | .error message => pure (none, some message)

/-- A row of the queue with its webhook. -/
structure Due where
  id : DeliveryId
  row : WebhookDelivery
  webhook : Webhook

/-- The condition of `findMany`. -/
def isDue (now : Time) (row : WebhookDelivery) : Bool :=
  row.doneAt = none && row.nextAt ≤ now && row.attempts < MAX_ATTEMPTS

/-- The rows that `findMany` selects. -/
def pending (s : Outbox) (now : Time) : List Due :=
  s.deliveries.rows.filterMap fun r =>
    if isDue now r.2 then (s.hooks.get? r.2.webhookId).map fun h => ⟨r.1, r.2, h⟩ else none

/-- `orderBy: { nextAt: "asc" }`, rows of one time as the database likes. -/
def Before (s : Outbox) (a b : Due) : Prop :=
  a.row.nextAt < b.row.nextAt ∨ a.row.nextAt = b.row.nextAt ∧ s.rank a.id ≤ s.rank b.id

instance (s : Outbox) : DecidableRel s.Before := fun _ _ => inferInstanceAs (Decidable (_ ∨ _))

/-- `findMany` of `dispatchWebhooks`. -/
def due (s : Outbox) (now : Time) (limit : ℕ) : List Due :=
  ((s.pending now).insertionSort s.Before).take limit

/-- `Math.min(60, 2 ** attempts) * 60_000`. -/
def backoff (attempts : ℕ) : ℕ := min 60 (2 ^ attempts) * 60000

/-- A round is cut short. -/
def cut (s : Outbox) : Outbox := { s with cuts := s.cuts + 1 }

/-- The update of a delivery that is put away because its webhook is switched off. -/
def shelve (id : DeliveryId) (now : Time) : OutboxProg Unit :=
  .step () fun s =>
    match s.deliveries.get? id with
    | none => (.error recordNotFound, s.cut)
    | some row => (.ok (), { s with
        deliveries := s.deliveries.set id { row
          with doneAt := some now, error := some "webhook disabled" }
        log := .shelved now id :: s.log })

/-- The row of a delivery after its next post. -/
def WebhookDelivery.after (row : WebhookDelivery) (attempts : ℕ) (r : Option ℤ × Option String)
    (now : Time) : WebhookDelivery :=
  let success := isSuccess r.1
  let giveUp := !success && MAX_ATTEMPTS ≤ attempts
  { row with
    attempts := attempts
    status := r.1
    error := r.2
    doneAt := if success || giveUp then some now else none
    nextAt := now + backoff attempts }

/-- The row of a webhook after a post. -/
def Webhook.after (h : Webhook) (r : Option ℤ × Option String) (now : Time) : Webhook :=
  { h with
    lastStatus := r.1
    lastError := r.2
    lastFiredAt := some now
    failCount := if isSuccess r.1 then 0 else h.failCount + 1 }

/-- The transaction after a post. -/
def record (id : DeliveryId) (webhookId : WebhookId) (attempts : ℕ) (r : Option ℤ × Option String)
    (now : Time) : OutboxProg Unit :=
  .step () fun s =>
    match s.deliveries.get? id, s.hooks.get? webhookId with
    | some row, some h => (.ok (), { s with
        deliveries := s.deliveries.set id (WebhookDelivery.after row attempts r now)
        hooks := s.hooks.set webhookId (Webhook.after h r now)
        log := .recorded now id webhookId r.1 :: s.log })
    | _, _ => (.error recordNotFound, s.cut)

/-- One turn of the loop of `dispatchWebhooks`. -/
def dispatchOne (env : WebhookEnv) (d : Due) : OutboxProg Unit :=
  if !d.webhook.isActive then do
    let now ← clock
    shelve d.id now
  else do
    let r ← deliver env d.webhook d.row.event d.row.payload (some d.id)
    let now ← clock
    record d.id d.row.webhookId (d.row.attempts + 1) r now

/-- The loop of `dispatchWebhooks`. -/
def dispatchEach (env : WebhookEnv) : List Due → OutboxProg Unit
  | [] => pure ()
  | d :: ds => do
      dispatchOne env d
      dispatchEach env ds

/-- The condition of `deleteMany` in `dispatchWebhooks`. -/
def longDone (now : Time) (row : WebhookDelivery) : Bool :=
  row.doneAt.any fun t => t + 14 * 86400000 < now

/-- `deleteMany` of what has been done for 14 days, the end of a round. -/
def sweep (now : Time) : OutboxProg Unit :=
  .modify () fun s => { s with
    deliveries := s.deliveries.keep fun id => !((s.deliveries.get? id).any (longDone now))
    rounds := s.rounds + 1 }

/-- `dispatchWebhooks`. -/
def dispatchWebhooks (env : WebhookEnv) (limit : ℕ) : OutboxProg ℕ := do
  let now ← clock
  let due ← .query () fun s => s.due now limit
  dispatchEach env due
  let now ← clock
  sweep now
  pure due.length

/-! ## Managing webhooks -/

/-- `WebhookInput`, with the fields that may be left out. -/
structure WebhookInput where
  url : Option String
  events : Option (List String)
  isActive : Option Bool

/-- `createWebhook`, in process `proc`, with the token that `randomToken` draws. -/
def createWebhook (proc : ℕ) (adminId : AdminId) (url : String) (events : Option (List String))
    (isActive : Option Bool) (token : String) : OutboxProg WebhookId := do
  invalidateWebhookCache proc
  .step () fun s =>
    match s.admins.get? adminId with
    | none => (.error foreignKeyViolation, s)
    | some _ =>
        (.ok s.nextHook, { s with
          hooks := s.hooks.set s.nextHook
            ⟨adminId, url, token, events.getD [], isActive.getD true, none, none, none, 0⟩
          nextHook := s.nextHook + 1 })

/-- `findFirst` of a webhook of the admin. -/
def ownHook (adminId : AdminId) (id : WebhookId) : OutboxProg Webhook := do
  let hook ← .query () fun s => (s.hooks.get? id).filter fun h => h.adminId = adminId
  match hook with
  | none => throw (notFoundError "وب‌هوک پیدا نشد")
  | some h => pure h

/-- `updateWebhook`, in process `proc`. -/
def updateWebhook (proc : ℕ) (adminId : AdminId) (id : WebhookId) (input : WebhookInput) :
    OutboxProg Unit := do
  let _ ← ownHook adminId id
  invalidateWebhookCache proc
  .step () fun s =>
    match s.hooks.get? id with
    | none => (.error recordNotFound, s)
    | some h => (.ok (), { s with
        hooks := s.hooks.set id { h with
          url := input.url.getD h.url
          events := input.events.getD h.events
          isActive := input.isActive.getD h.isActive } })

/-- The webhooks that `gone` names are deleted, with their deliveries. -/
def dropHooks (s : Outbox) (gone : WebhookId → Bool) : Outbox :=
  { s with
    hooks := s.hooks.keep fun id => !gone id
    deliveries := s.deliveries.keep fun id =>
      !((s.deliveries.get? id).any fun row => gone row.webhookId) }

/-- `deleteWebhook`, in process `proc`. -/
def deleteWebhook (proc : ℕ) (adminId : AdminId) (id : WebhookId) : OutboxProg Unit := do
  let _ ← ownHook adminId id
  invalidateWebhookCache proc
  .step () fun s =>
    match s.hooks.get? id with
    | none => (.error recordNotFound, s)
    | some _ => (.ok (), s.dropHooks fun i => i = id)

/-- `testWebhook`. -/
def testWebhook (env : WebhookEnv) (adminId : AdminId) (id : WebhookId) (message : String) :
    OutboxProg (Option ℤ × Option String) := do
  let hook ← ownHook adminId id
  let now ← clock
  let r ← deliver env hook "ping" [("event", "\"ping\""), ("at", env.isoTime now),
      ("message", message)] none
  let now ← clock
  .step () fun s =>
    match s.hooks.get? id with
    | none => (.error recordNotFound, s)
    | some h => (.ok (), { s with
        hooks := s.hooks.set id { h
          with lastStatus := r.1, lastError := r.2, lastFiredAt := some now } })
  pure r

/-! ## Others -/

/-- The condition of `deleteMany` in `pruneLogs`. -/
def pruned (keepDays : ℕ) (now : Time) (row : WebhookDelivery) : Bool :=
  row.createdAt + keepDays * 86400000 < now && row.doneAt ≠ none

/-- The part of `pruneLogs` about deliveries. -/
def pruneDeliveries (keepDays : ℕ) : OutboxProg Unit := do
  let now ← clock
  if keepDays = 0 then pure ()
  else .modify () fun s => { s with
    deliveries := s.deliveries.keep fun id => !((s.deliveries.get? id).any (pruned keepDays now)) }

/-- An admin is deleted, with all webhooks. -/
def deleteAdmin (adminId : AdminId) : OutboxProg Unit :=
  .modify () fun s =>
    { s.dropHooks fun id => (s.hooks.get? id).any fun h => h.adminId = adminId with
      admins := s.admins.erase adminId }

/-- What other processes call. -/
inductive Call
  | emitEvent (proc : ℕ) (adminId : Option AdminId) (adminJson event eventJson : String)
      (payload : Payload) (target : Option String)
  | createWebhook (proc : ℕ) (adminId : AdminId) (url : String) (events : Option (List String))
      (isActive : Option Bool) (token : String)
  | updateWebhook (proc : ℕ) (adminId : AdminId) (id : WebhookId) (input : WebhookInput)
  | deleteWebhook (proc : ℕ) (adminId : AdminId) (id : WebhookId)
  | testWebhook (adminId : AdminId) (id : WebhookId) (message : String)
  | pruneLogs (keepDays : ℕ)
  | deleteAdmin (adminId : AdminId)

/-- The procedure behind a call. -/
def Call.task (env : WebhookEnv) : Call → OutboxProg Unit
  | emitEvent proc adminId adminJson event eventJson payload target =>
      Outbox.emitEvent env proc adminId adminJson event eventJson payload target
  | createWebhook proc adminId url events isActive token =>
      (Outbox.createWebhook proc adminId url events isActive token).void
  | updateWebhook proc adminId id input => Outbox.updateWebhook proc adminId id input
  | deleteWebhook proc adminId id => Outbox.deleteWebhook proc adminId id
  | testWebhook adminId id message => (Outbox.testWebhook env adminId id message).void
  | pruneLogs keepDays => pruneDeliveries keepDays
  | deleteAdmin adminId => Outbox.deleteAdmin adminId

/-- Time passes, and what the service does not write changes. -/
inductive World : Outbox → Outbox → Prop
  | wait (s : Outbox) (ms : ℕ) : World s { s with now := s.now + ms }
  | admin (s : Outbox) (id : AdminId) (role : AdminRole) :
  World s { s with admins := s.admins.set id role }
  | clients (s : Outbox) (f : String → Option String) : World s { s with clients := f }
  | answer (s : Outbox) (f : HookRequest → Except String ℤ) : World s { s with answer := f }
  | rank (s : Outbox) (f : DeliveryId → ℕ) : World s { s with rank := f }

/-- What happens beside the job: an atomic step of some call, at any point of it, or a change of the
world. -/
def Moves (env : WebhookEnv) (s t : Outbox) : Prop :=
  (∃ (c : Call) (u : Outbox → Outbox), (c.task env).Does u ∧ t = u s) ∨ World s t

/-- An outbox without webhooks and deliveries. -/
def start (now : Time) (admins : Table AdminId AdminRole) (answer : HookRequest → Except String ℤ) :
    Outbox where
  now := now
  admins := admins
  hooks := .empty
  deliveries := .empty
  nextHook := 0
  nextDelivery := 0
  hookCountCache := fun _ => none
  clients := fun _ => none
  answer := answer
  rank := fun _ => 0
  log := []
  queued := .empty
  rounds := 0
  cuts := 0

/-- The runs of the worker's job amid the calls of others. -/
def Run (env : WebhookEnv) (limit : ℕ) : Worker Unit Outbox AppError →
    Worker Unit Outbox AppError → Prop :=
  Worker.Run (Moves env) (fun p => p = (dispatchWebhooks env limit).void) cut

end Outbox

end SRPanel
