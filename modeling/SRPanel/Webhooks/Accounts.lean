import SRPanel.Webhooks.Books

/-!
# Accounts of the deliveries

The invariant of the queue: each delivery has a history that the retry policy allows, and its row
says where that history has led. `Held` is what the job knows of a delivery that it has read,
however long ago.
-/

namespace SRPanel

open Interleaving Retry

namespace Outbox

/-! ## Histories -/

/-- The policy of the deliveries. -/
def policy : Policy (Option ℤ) where
  limit := MAX_ATTEMPTS
  pause := backoff
  good := isSuccess
  limit_pos := by decide

/-- The status of an answer, if there is one. -/
def statusOf : Except String ℤ → Option ℤ
  | .ok c => some c
  | .error _ => none

/-- What an entry of the log says about a delivery. -/
def eventOf (d : DeliveryId) : OutboxEvent → Option (Retry.Event (Option ℤ))
  | .posted t id _ a => if id = some d then some (.sent t (statusOf a)) else none
  | .recorded t id _ status => if id = d then some (.noted t status) else none
  | .shelved _ id => if id = d then some .dropped else none

/-- What has happened to a delivery, the last first. -/
def history (s : Outbox) (d : DeliveryId) : List (Retry.Event (Option ℤ)) :=
  s.log.filterMap (eventOf d)

/-- The failures of a webhook since its last success. -/
def failures (w : WebhookId) : List OutboxEvent → ℕ
  | [] => 0
  | .recorded _ _ v status :: log =>
      if v = w then (if isSuccess status then 0 else failures w log + 1) else failures w log
  | .posted _ _ _ _ :: log => failures w log
  | .shelved _ _ :: log => failures w log

/-! ## The invariant -/

/-- The row of a delivery says where its history has led. -/
def Stands (row : WebhookDelivery) : Life (Option ℤ) → Prop
  | .waiting n t => row.attempts = n ∧ row.nextAt = t ∧ row.doneAt = none
  | .sent n t _ => row.attempts = n ∧ row.nextAt = t ∧ row.doneAt = none
  | .ended => row.doneAt ≠ none

/-- What never changes of a row. -/
def SameJob (row q : WebhookDelivery) : Prop :=
  row.webhookId = q.webhookId ∧ row.event = q.event ∧ row.payload = q.payload

/-- Where a delivery stands: at its row, or nowhere any more, for it is over or its webhook has been
deleted. -/
def Placed (s : Outbox) (d : DeliveryId) (q : WebhookDelivery) (L : Life (Option ℤ)) : Prop :=
  match s.deliveries.get? d with
  | some row => Stands row L ∧ SameJob row q
  | none => L = .ended ∨ s.hooks.get? q.webhookId = none

/-- The account of a delivery that was queued as `q`; `flight` posts of it are not to be counted. -/
structure Account (env : WebhookEnv) (flight : ℕ) (s : Outbox) (d : DeliveryId)
    (q : WebhookDelivery) (secret : String) : Prop where
  standing : ∃ L, Lives policy q.createdAt (s.history d) L ∧ s.Placed d q L
  lost : (sends (s.history d)).length ≤ (notes (s.history d)).length + s.cuts + flight
  requests : ∀ t r a, .posted t (some d) r a ∈ s.log →
    ∃ url, r = hookRequest env url secret q.event q.payload (some d)

/-- The books are in order. -/
structure Books (env : WebhookEnv) (flight : DeliveryId → ℕ) (s : Outbox) : Prop where
  queued_iff : ∀ d, (s.queued.get? d).isSome ↔ d < s.nextDelivery
  row_queued : ∀ d row, s.deliveries.get? d = some row → (s.queued.get? d).isSome
  row_hook : ∀ d row, s.deliveries.get? d = some row → (s.hooks.get? row.webhookId).isSome
  hook_lt : ∀ w h, s.hooks.get? w = some h → w < s.nextHook
  queued_hook : ∀ d q, s.queued.get? d = some q → q.1.webhookId < s.nextHook
  secret : ∀ d q h, s.queued.get? d = some q → s.hooks.get? q.1.webhookId = some h → h.secret = q.2
  account : ∀ d q, s.queued.get? d = some q → Account env (flight d) s d q.1 q.2
  unborn : ∀ d, s.nextDelivery ≤ d → s.history d = []
  failCount : ∀ w h, s.hooks.get? w = some h → h.failCount = failures w s.log
  unmade : ∀ w, s.nextHook ≤ w → failures w s.log = 0

/-! ## Changes of others -/

/-- What a change by others leaves of a delivery. -/
structure Kept (s t : Outbox) (d : DeliveryId) : Prop where
  history : t.history d = s.history d
  posted : ∀ tm r a, .posted tm (some d) r a ∈ t.log → .posted tm (some d) r a ∈ s.log
  queued : t.queued.get? d = s.queued.get? d
  row : t.deliveries.get? d = s.deliveries.get? d ∨ t.deliveries.get? d = none ∧
    ∀ row, s.deliveries.get? d = some row → row.doneAt ≠ none ∨ t.hooks.get? row.webhookId = none
  gone : ∀ w < s.nextHook, s.hooks.get? w = none → t.hooks.get? w = none
  cuts : t.cuts = s.cuts
  now : s.now ≤ t.now

theorem Change.kept {s t : Outbox} (h : Change s t) {d : DeliveryId} (hd : d < s.nextDelivery) :
    Kept s t d := by
  -- a row goes with its webhook, or when it is done
  cases h with
  | around now admins cache clients answer rank hle =>
      exact ⟨rfl, fun _ _ _ h => h, rfl, .inl rfl, fun _ _ h => h, rfl, hle⟩
  | tested tm r a =>
      refine ⟨rfl, fun _ _ _ h => ?_, rfl, .inl rfl, fun _ _ h => h, rfl, le_rfl⟩
      rcases List.mem_cons.mp h with h | h
      · cases h
      · exact h
  | enqueue event payload id h hget =>
      exact ⟨rfl, fun _ _ _ h => h, s.queued.get?_set_of_ne _ hd.ne,
        .inl (s.deliveries.get?_set_of_ne _ hd.ne), fun _ _ h => h, rfl, le_rfl⟩
  | create h hcount =>
      refine ⟨rfl, fun _ _ _ h => h, rfl, .inl rfl, fun w hw hnone => ?_, rfl, le_rfl⟩
      rw [← hnone]
      exact s.hooks.get?_set_of_ne _ hw.ne
  | edit id h h' hget hsecret hcount =>
      refine ⟨rfl, fun _ _ _ h => h, rfl, .inl rfl, fun w _ hnone => ?_, rfl, le_rfl⟩
      have hne : w ≠ id := by
        rintro rfl
        rw [hget] at hnone
        cases hnone
      rw [← hnone]
      exact s.hooks.get?_set_of_ne _ hne
  | drop gone =>
      have hhook : ∀ w, (s.dropHooks gone).hooks.get? w =
          if !gone w then s.hooks.get? w else none := fun w =>
        s.hooks.get?_keep _ w
      refine ⟨rfl, fun _ _ _ h => h, rfl, ?_, fun w _ hnone => by rw [hhook, hnone, ite_self],
        rfl, le_rfl⟩
      have hrow := s.deliveries.get?_keep (fun id =>
        !((s.deliveries.get? id).any fun row => gone row.webhookId)) d
      split at hrow
      · exact .inl hrow
      · next hgone =>
        refine .inr ⟨hrow, fun row hget => .inr ?_⟩
        rw [hget, Option.any_some, Bool.not_eq_true, Bool.not_eq_false'] at hgone
        rw [hhook, hgone]
        rfl
  | prune p hp =>
      refine ⟨rfl, fun _ _ _ h => h, rfl, ?_, fun _ _ h => h, rfl, le_rfl⟩
      have hrow := s.deliveries.get?_keep p d
      split at hrow
      · exact .inl hrow
      · next hgone =>
        exact .inr ⟨hrow, fun row hget => .inl (hp d row hget (Bool.not_eq_true _ ▸ hgone))⟩

/-- What is done stands at its end. -/
theorem over_of_done {row : WebhookDelivery} {L : Life (Option ℤ)} (h : Stands row L)
    (hdone : row.doneAt ≠ none) : L = .ended := by
  cases L with
  | waiting n t => exact absurd h.2.2 hdone
  | sent n t a => exact absurd h.2.2 hdone
  | ended => rfl

theorem Placed.kept {s t : Outbox} {d : DeliveryId} {q : WebhookDelivery} {L : Life (Option ℤ)}
    (h : s.Placed d q L) (hk : Kept s t d) (hq : q.webhookId < s.nextHook) : t.Placed d q L := by
  unfold Placed at h ⊢
  rcases hk.row with hrow | ⟨hrow, hwhy⟩
  · rw [hrow]
    split at h
    · exact h
    · exact h.imp_right (hk.gone _ hq)
  · rw [hrow]
    split at h
    · next row hget =>
      refine (hwhy row hget).imp (fun hdone => over_of_done h.1 hdone) fun hgone => ?_
      rw [← h.2.1]
      exact hgone
    · exact h.imp_right (hk.gone _ hq)

theorem Account.kept {env : WebhookEnv} {flight : ℕ} {s t : Outbox} {d : DeliveryId}
    {q : WebhookDelivery} {secret : String} (h : Account env flight s d q secret) (hk : Kept s t d)
    (hq : q.webhookId < s.nextHook) :
    Account env flight t d q secret where
  standing := by
    obtain ⟨L, hlives, hplaced⟩ := h.standing
    exact ⟨L, hk.history ▸ hlives, hplaced.kept hk hq⟩
  lost := by
    rw [hk.history, hk.cuts]
    exact h.lost
  requests := fun tm r a hmem => h.requests tm r a (hk.posted tm r a hmem)

section

variable {env : WebhookEnv} {flight : DeliveryId → ℕ} {s t : Outbox}

theorem Books.lt_of_queued (hb : Books env flight s) {d : DeliveryId} {q : WebhookDelivery × String}
    (hq : s.queued.get? d = some q) : d < s.nextDelivery :=
  (hb.queued_iff d).mp (by rw [hq]; rfl)

theorem Books.lt_of_row (hb : Books env flight s) {d : DeliveryId} {row : WebhookDelivery}
    (hrow : s.deliveries.get? d = some row) : d < s.nextDelivery :=
  (hb.queued_iff d).mp (hb.row_queued d row hrow)

/-- The accounts after a change that queues nothing. -/
theorem Books.accounts (hb : Books env flight s) (h : Change s t) (hq : t.queued = s.queued)
    (d : DeliveryId) (q : WebhookDelivery × String) (hget : t.queued.get? d = some q) :
    Account env (flight d) t d q.1 q.2 := by
  rw [hq] at hget
  exact (hb.account d q hget).kept (h.kept (hb.lt_of_queued hget)) (hb.queued_hook d q hget)

theorem posted_mem_history {d : DeliveryId} {tm : Time} {r : HookRequest} {a : Except String ℤ}
    (h : .posted tm (some d) r a ∈ s.log) : .sent tm (statusOf a) ∈ s.history d :=
  List.mem_filterMap.mpr ⟨_, h, if_pos rfl⟩

/-- A queued delivery enters the books. -/
theorem Books.enqueue (hb : Books env flight s) {event : String} {payload : Payload}
    {id : WebhookId} {h : Webhook} (hget : s.hooks.get? id = some h) :
    Books env flight (s.enqueue event payload id) := by
  set row := freshDelivery id event payload s.now with hrowdef
  have hchange := Change.enqueue s event payload id h hget
  have hsecret : ((s.hooks.get? id).map Webhook.secret).getD "" = h.secret := by rw [hget]; rfl
  have hqueued : ∀ d, (s.enqueue event payload id).queued.get? d =
      if d = s.nextDelivery then some (row, h.secret) else s.queued.get? d := fun d => by
    rw [← hsecret]
    exact s.queued.get?_set _ _ _
  have hrows : ∀ d, (s.enqueue event payload id).deliveries.get? d =
      if d = s.nextDelivery then some row else s.deliveries.get? d :=
    fun d => s.deliveries.get?_set _ _ _
  have hnext : (s.enqueue event payload id).nextDelivery = s.nextDelivery + 1 := rfl
  refine ⟨fun d => ?_, fun d r hr => ?_, fun d r hr => ?_, hb.hook_lt, fun d q hq => ?_,
    fun d q w hq hw => ?_, fun d q hq => ?_, fun d hd => ?_, hb.failCount, hb.unmade⟩
  · rw [hqueued, hnext]
    split
    · next heq => exact ⟨fun _ => heq ▸ Nat.lt_succ_self _, fun _ => rfl⟩
    · next hne =>
      rw [hb.queued_iff d]
      exact (Nat.lt_succ_iff_lt_or_eq.trans (or_iff_left hne)).symm
  · rw [hqueued]
    rw [hrows] at hr
    split
    · rfl
    · next hne =>
      rw [if_neg hne] at hr
      exact hb.row_queued d r hr
  · rw [hrows] at hr
    split at hr
    · obtain rfl := Option.some.inj hr
      show (s.hooks.get? id).isSome
      rw [hget]
      rfl
    · exact hb.row_hook d r hr
  · rw [hqueued] at hq
    split at hq
    · obtain rfl := Option.some.inj hq
      exact hb.hook_lt id h hget
    · exact hb.queued_hook d q hq
  · rw [hqueued] at hq
    split at hq
    · obtain rfl := Option.some.inj hq
      have hw' : s.hooks.get? id = some w := hw
      rw [hget] at hw'
      rw [Option.some.inj hw']
    · exact hb.secret d q w hq hw
  · rw [hqueued] at hq
    split at hq
    · next heq =>
      -- the new delivery has no history yet
      obtain rfl := Option.some.inj hq
      have hnil : (s.enqueue event payload id).history d = [] := hb.unborn d heq.ge
      refine ⟨⟨.waiting 0 s.now, ?_, ?_⟩, ?_, fun tm r a hmem => ?_⟩
      · rw [hnil]
        exact .born
      · unfold Placed
        rw [hrows, if_pos heq]
        exact ⟨⟨rfl, rfl, rfl⟩, rfl, rfl, rfl⟩
      · rw [hnil]
        exact Nat.zero_le _
      · have hsent := posted_mem_history hmem
        rw [hnil] at hsent
        cases hsent
    · next hne =>
      exact (hb.account d q hq).kept (hchange.kept (hb.lt_of_queued hq)) (hb.queued_hook d q hq)
  · exact hb.unborn d (Nat.le_of_succ_le hd)

/-- A webhook is set up; nothing is queued for it. -/
theorem Books.create (hb : Books env flight s) {h : Webhook} (hcount : h.failCount = 0) :
    Books env flight { s with hooks := s.hooks.set s.nextHook h, nextHook := s.nextHook + 1 } := by
  have haccounts := hb.accounts (.create s h hcount) rfl
  have hhooks : ∀ w, (s.hooks.set s.nextHook h).get? w = if w =
      s.nextHook then some h else s.hooks.get? w :=
    fun w => s.hooks.get?_set _ _ _
  refine ⟨hb.queued_iff, hb.row_queued, fun d r hr => ?_, fun w v hv => ?_, fun d q hq => ?_,
    fun d q v hq hv => ?_, haccounts, hb.unborn, fun w v hv => ?_, fun w hw =>
      hb.unmade w (Nat.le_of_succ_le hw)⟩
  · show ((s.hooks.set s.nextHook h).get? r.webhookId).isSome
    rw [hhooks]
    split
    · rfl
    · exact hb.row_hook d r hr
  · replace hv : (s.hooks.set s.nextHook h).get? w = some v := hv
    show w < s.nextHook + 1
    rw [hhooks] at hv
    split at hv
    · next heq => exact heq ▸ Nat.lt_succ_self _
    · exact Nat.lt_succ_of_lt (hb.hook_lt w v hv)
  · exact Nat.lt_succ_of_lt (hb.queued_hook d q hq)
  · have hlt := hb.queued_hook d q hq
    replace hv : (s.hooks.set s.nextHook h).get? q.1.webhookId = some v := hv
    rw [hhooks, if_neg hlt.ne] at hv
    exact hb.secret d q v hq hv
  · replace hv : (s.hooks.set s.nextHook h).get? w = some v := hv
    rw [hhooks] at hv
    split at hv
    · next heq =>
      obtain rfl := Option.some.inj hv
      rw [hcount]
      exact (hb.unmade w heq.ge).symm
    · exact hb.failCount w v hv

/-- A webhook is edited; its secret and its count of failures stay. -/
theorem Books.edit (hb : Books env flight s) {id : WebhookId} {h h' : Webhook}
    (hget : s.hooks.get? id = some h) (hsecret : h'.secret = h.secret)
    (hcount : h'.failCount = h.failCount) :
    Books env flight { s with hooks := s.hooks.set id h' } := by
  have haccounts := hb.accounts (.edit s id h h' hget hsecret hcount) rfl
  have hhooks : ∀ w, (s.hooks.set id h').get? w = if w = id then some h' else s.hooks.get? w :=
    fun w => s.hooks.get?_set _ _ _
  refine ⟨hb.queued_iff, hb.row_queued, fun d r hr => ?_, fun w v hv => ?_, hb.queued_hook,
    fun d q v hq hv => ?_, haccounts, hb.unborn, fun w v hv => ?_, hb.unmade⟩
  · show ((s.hooks.set id h').get? r.webhookId).isSome
    rw [hhooks]
    split
    · rfl
    · exact hb.row_hook d r hr
  · replace hv : (s.hooks.set id h').get? w = some v := hv
    rw [hhooks] at hv
    split at hv
    · next heq => exact heq ▸ hb.hook_lt id h hget
    · exact hb.hook_lt w v hv
  · replace hv : (s.hooks.set id h').get? q.1.webhookId = some v := hv
    rw [hhooks] at hv
    split at hv
    · next heq =>
      obtain rfl := Option.some.inj hv
      rw [hsecret]
      exact hb.secret d q h hq (heq ▸ hget)
    · exact hb.secret d q v hq hv
  · replace hv : (s.hooks.set id h').get? w = some v := hv
    rw [hhooks] at hv
    split at hv
    · next heq =>
      obtain rfl := Option.some.inj hv
      rw [hcount, heq]
      exact hb.failCount id h hget
    · exact hb.failCount w v hv

/-- Webhooks are deleted with their rows. -/
theorem Books.drop (hb : Books env flight s) (gone : WebhookId → Bool) :
    Books env flight (s.dropHooks gone) := by
  have hhook : ∀ w v, (s.dropHooks gone).hooks.get? w = some v → s.hooks.get? w = some v :=
    fun w v hv => by
    rw [show (s.dropHooks gone).hooks.get? w = _ from s.hooks.get?_keep _ w] at hv
    split at hv
    · exact hv
    · cases hv
  have hrow : ∀ d r, (s.dropHooks gone).deliveries.get? d = some r →
      s.deliveries.get? d = some r ∧ gone r.webhookId = false := fun d r hr => by
    rw [show (s.dropHooks gone).deliveries.get? d = _ from s.deliveries.get?_keep _ d] at hr
    split at hr
    · next hkeep =>
      rw [hr, Option.any_some, Bool.not_eq_true'] at hkeep
      exact ⟨hr, hkeep⟩
    · cases hr
  refine ⟨hb.queued_iff, fun d r hr => hb.row_queued d r (hrow d r hr).1, fun d r hr => ?_,
    fun w v hv => hb.hook_lt w v (hhook w v hv), hb.queued_hook,
    fun d q v hq hv => hb.secret d q v hq (hhook _ v hv), hb.accounts (.drop s gone) rfl, hb.unborn,
    fun w v hv => hb.failCount w v (hhook w v hv), hb.unmade⟩
  obtain ⟨hget, hstays⟩ := hrow d r hr
  rw [show (s.dropHooks gone).hooks.get? r.webhookId = _ from s.hooks.get?_keep _ r.webhookId,
    if_pos (by rw [hstays]; rfl)]
  exact hb.row_hook d r hget

/-- Rows that are done are deleted. -/
theorem Books.prune (hb : Books env flight s) {p : DeliveryId → Bool}
    (hp : ∀ d row, s.deliveries.get? d = some row → p d = false → row.doneAt ≠ none) :
    Books env flight { s with deliveries := s.deliveries.keep p } := by
  have hrow : ∀ d r, (s.deliveries.keep p).get? d = some r → s.deliveries.get? d = some r :=
    fun d r hr => by
    rw [s.deliveries.get?_keep p d] at hr
    split at hr
    · exact hr
    · cases hr
  exact ⟨hb.queued_iff, fun d r hr => hb.row_queued d r (hrow d r hr),
    fun d r hr => hb.row_hook d r (hrow d r hr), hb.hook_lt, hb.queued_hook, hb.secret,
    hb.accounts (.prune s p hp) rfl, hb.unborn, hb.failCount, hb.unmade⟩

/-- Others keep the books in order. -/
theorem Books.change (h : Change s t) (hb : Books env flight s) : Books env flight t := by
  have haccounts := hb.accounts h
  cases h with
  | around now admins cache clients answer rank hle =>
      exact ⟨hb.queued_iff, hb.row_queued, hb.row_hook, hb.hook_lt, hb.queued_hook, hb.secret,
        haccounts rfl, hb.unborn, hb.failCount, hb.unmade⟩
  | tested tm r a =>
      exact ⟨hb.queued_iff, hb.row_queued, hb.row_hook, hb.hook_lt, hb.queued_hook, hb.secret,
        haccounts rfl, hb.unborn, hb.failCount, hb.unmade⟩
  | enqueue event payload id h hget => exact hb.enqueue hget
  | create h hcount => exact hb.create hcount
  | edit id h h' hget hsecret hcount => exact hb.edit hget hsecret hcount
  | drop gone => exact hb.drop gone
  | prune p hp => exact hb.prune hp

end

end Outbox

end SRPanel
