import SRPanel.Lib.Retry
import SRPanel.Model.Webhooks

/-!
# The books of the outbox

What other processes do to the outbox is a row of small changes (`Change`), whatever their calls
are. `Books` is the invariant of the queue: each delivery has a history that the retry policy
allows, and its row says where that history has led. `Held` is what the job knows of a delivery it
has read, however long ago.
-/

namespace SRPanel

open Interleaving Prog Retry

namespace Outbox

/-! ## What others change -/

/-- The changes that the atomic steps of other processes are made of. -/
inductive Change : Outbox → Outbox → Prop
  | around (s : Outbox) (now : Time) (admins : Table AdminId AdminRole)
      (cache : ℕ → Option HookCount) (clients : String → Option String)
      (answer : HookRequest → Except String ℤ) (rank : DeliveryId → ℕ) :
      s.now ≤ now → Change s { s with
        now := now, admins := admins, hookCountCache := cache, clients := clients,
        answer := answer, rank := rank }
  | tested (s : Outbox) (t : Time) (r : HookRequest) (a : Except String ℤ) :
      Change s { s with log := .posted t none r a :: s.log }
  | enqueue (s : Outbox) (event : String) (payload : Payload) (id : WebhookId) (h : Webhook) :
      s.hooks.get? id = some h → Change s (s.enqueue event payload id)
  | create (s : Outbox) (h : Webhook) : h.failCount = 0 →
      Change s { s with hooks := s.hooks.set s.nextHook h, nextHook := s.nextHook + 1 }
  | edit (s : Outbox) (id : WebhookId) (h h' : Webhook) : s.hooks.get? id = some h →
      h'.secret = h.secret → h'.failCount = h.failCount →
      Change s { s with hooks := s.hooks.set id h' }
  | drop (s : Outbox) (gone : WebhookId → Bool) : Change s (s.dropHooks gone)
  | prune (s : Outbox) (p : DeliveryId → Bool) :
      (∀ d row, s.deliveries.get? d = some row → p d = false → row.doneAt ≠ none) →
      Change s { s with deliveries := s.deliveries.keep p }

/-- Some changes, one after the other. -/
abbrev Changes : Outbox → Outbox → Prop := Relation.ReflTransGen Change

/-- What the outbox reads of the world may change. -/
theorem Changes.around {s : Outbox} (admins : Table AdminId AdminRole)
    (cache : ℕ → Option HookCount) (clients : String → Option String)
    (answer : HookRequest → Except String ℤ) (rank : DeliveryId → ℕ) :
    Changes s { s with
      admins := admins, hookCountCache := cache, clients := clients, answer := answer,
      rank := rank } :=
  .single (.around s s.now admins cache clients answer rank le_rfl)

/-- So may the caches. -/
theorem Changes.cache (s : Outbox) (cache : ℕ → Option HookCount) :
    Changes s { s with hookCountCache := cache } := .around _ _ _ _ _

/-- A read changes nothing. -/
theorem keeps_read {α : Type} (f : Outbox → α) : (Prog.query () f : OutboxProg α).Keeps Changes :=
  keeps_query (fun _ => .refl) () f

theorem anyHooks_keeps (proc : ℕ) : (anyHooks proc).Keeps Changes := by
  refine keeps_bind (keeps_read _) fun cache => ?_
  split
  · exact keeps_pure _
  · refine keeps_bind (keeps_read _) fun n => keeps_bind ?_ fun _ => keeps_pure _
    exact keeps_modify fun s => .cache s _

theorem enrich_keeps (event : String) (target : Option String) :
    (enrich event target).Keeps Changes := by
  unfold enrich
  split
  · exact keeps_pure _
  · exact keeps_ite (keeps_bind (keeps_read _) fun _ => keeps_pure _) (keeps_pure _)

theorem foldl_enqueue_changes (event : String) (payload : Payload) (targets : List WebhookId)
    (s : Outbox) (hall : ∀ id ∈ targets, (s.hooks.get? id).isSome) :
    Changes s (targets.foldl (enqueue event payload) s) := by
  induction targets generalizing s with
  | nil => exact .refl
  | cons id targets ih =>
      obtain ⟨h, hget⟩ := Option.isSome_iff_exists.mp (hall id List.mem_cons_self)
      -- queueing leaves the webhooks alone
      exact .head (.enqueue s event payload id h hget) (ih _ fun i hi =>
        hall i (List.mem_cons_of_mem id hi))

theorem createMany_keeps (targets : List WebhookId) (event : String) (payload : Payload) :
    (createMany targets event payload).Keeps Changes := by
  refine keeps_step fun s => ?_
  split
  · next hall => exact foldl_enqueue_changes event payload targets s (List.all_eq_true.mp hall)
  · exact .refl

theorem emitEvent_keeps (env : WebhookEnv) (proc : ℕ) (adminId : Option AdminId)
    (adminJson event eventJson : String) (payload : Payload) (target : Option String) :
    (emitEvent env proc adminId adminJson event eventJson payload target).Keeps Changes := by
  refine keeps_bind (anyHooks_keeps proc) fun any => keeps_ite (keeps_pure _) ?_
  refine keeps_bind (keeps_read _) fun hooks => keeps_ite (keeps_pure _) ?_
  refine keeps_bind (enrich_keeps event target) fun extra => keeps_bind (keeps_read _) fun now => ?_
  exact createMany_keeps _ _ _

/-- Emptying a cache changes no book. -/
theorem invalidateWebhookCache_keeps (proc : ℕ) : (invalidateWebhookCache proc).Keeps Changes :=
  keeps_modify fun s => .cache s _

/-- Nor does the look-up of a webhook. -/
theorem ownHook_keeps (adminId : AdminId) (id : WebhookId) :
    (ownHook adminId id).Keeps Changes := by
  refine keeps_bind (keeps_read _) fun hook => ?_
  split
  · exact keeps_throw _
  · exact keeps_pure _

/-- A new webhook changes the books as others may. -/
theorem createWebhook_keeps (proc : ℕ) (adminId : AdminId) (url : String)
    (events : Option (List String)) (isActive : Option Bool) (token : String) :
    (createWebhook proc adminId url events isActive token).Keeps Changes := by
  refine keeps_bind (invalidateWebhookCache_keeps proc) fun _ => keeps_step fun s => ?_
  split
  · exact .refl
  · exact .single (.create s _ rfl)

/-- So does an update. -/
theorem updateWebhook_keeps (proc : ℕ) (adminId : AdminId) (id : WebhookId) (input : WebhookInput) :
    (updateWebhook proc adminId id input).Keeps Changes := by
  refine keeps_bind (ownHook_keeps adminId id) fun _ =>
    keeps_bind (invalidateWebhookCache_keeps proc) fun _ => keeps_step fun s => ?_
  split
  · exact .refl
  · next h hget => exact .single (.edit s id h _ hget rfl rfl)

/-- So does a removal. -/
theorem deleteWebhook_keeps (proc : ℕ) (adminId : AdminId) (id : WebhookId) :
    (deleteWebhook proc adminId id).Keeps Changes := by
  refine keeps_bind (ownHook_keeps adminId id) fun _ =>
    keeps_bind (invalidateWebhookCache_keeps proc) fun _ => keeps_step fun s => ?_
  split
  · exact .refl
  · exact .single (.drop s _)

/-- So does a test. -/
theorem testWebhook_keeps (env : WebhookEnv) (adminId : AdminId) (id : WebhookId)
    (message : String) : (testWebhook env adminId id message).Keeps Changes := by
  refine keeps_bind (ownHook_keeps adminId id) fun hook => keeps_bind (keeps_read _) fun now =>
    keeps_bind ?_ fun r => keeps_bind (keeps_read _) fun now =>
      keeps_bind (keeps_step fun s => ?_) fun _ => keeps_pure _
  · refine keeps_bind (keeps_step fun s => .single (.tested s _ _ _)) fun answer => ?_
    split <;> exact keeps_pure _
  · split
    · exact .refl
    · next h hget => exact .single (.edit s id h _ hget rfl rfl)

theorem done_of_pruned {keepDays : ℕ} {now : Time} {row : WebhookDelivery}
    (h : pruned keepDays now row = true) : row.doneAt ≠ none :=
  of_decide_eq_true (Bool.and_eq_true_iff.mp h).2

theorem pruneDeliveries_keeps (keepDays : ℕ) : (pruneDeliveries keepDays).Keeps Changes := by
  refine keeps_bind (keeps_read _) fun now => keeps_ite (keeps_pure _) ?_
  refine keeps_modify fun s => .single (.prune s _ fun d row hrow hp => ?_)
  rw [hrow, Option.any_some, Bool.not_eq_false'] at hp
  exact done_of_pruned hp

theorem deleteAdmin_keeps (adminId : AdminId) : (deleteAdmin adminId).Keeps Changes :=
  keeps_modify fun s => .tail (.single (.drop s _)) (.around _ _ _ _ _ _ _ le_rfl)

/-- Whatever another process is doing, it does it by such changes. -/
theorem Call.task_keeps (env : WebhookEnv) (c : Call) : (c.task env).Keeps Changes := by
  have hvoid : ∀ {α : Type} {p : OutboxProg α}, p.Keeps Changes → p.void.Keeps Changes := fun hp =>
    keeps_attempt (keeps_bind hp fun _ => keeps_pure _) fun _ => keeps_pure _
  cases c with
  | emitEvent => exact emitEvent_keeps ..
  | createWebhook => exact hvoid (createWebhook_keeps ..)
  | updateWebhook => exact updateWebhook_keeps ..
  | deleteWebhook => exact deleteWebhook_keeps ..
  | testWebhook => exact hvoid (testWebhook_keeps ..)
  | pruneLogs => exact pruneDeliveries_keeps _
  | deleteAdmin => exact deleteAdmin_keeps _

theorem World.changes {s t : Outbox} (h : World s t) : Changes s t := by
  cases h with
  | wait ms => exact .single (.around s _ _ _ _ _ _ (Nat.le_add_right _ _))
  | admin id role => exact .around _ _ _ _ _
  | clients f => exact .around _ _ _ _ _
  | answer f => exact .around _ _ _ _ _
  | rank f => exact .around _ _ _ _ _

theorem Moves.changes {env : WebhookEnv} {s t : Outbox} (h : Moves env s t) : Changes s t := by
  rcases h with ⟨c, u, hu, rfl⟩ | h
  · exact (c.task_keeps env).does hu s
  · exact h.changes

/-- An assertion that each change keeps is stable. -/
theorem stable_of_change {env : WebhookEnv} {A : Outbox → Prop}
    (hA : ∀ s t, Change s t → A s → A t) : Stable (Moves env) A :=
  fun _ _ h hs => Stable.star hA h.changes hs

end Outbox

end SRPanel
