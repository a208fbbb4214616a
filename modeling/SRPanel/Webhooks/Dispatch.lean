import SRPanel.Webhooks.Accounts

/-!
# The dispatching job

Each atomic step of `dispatchWebhooks` keeps the books in order, whatever other processes have done
since the job read what was due. So in every run the history of each delivery is one that the retry
policy allows.
-/

namespace SRPanel

open Interleaving Retry

namespace Outbox

variable {env : WebhookEnv}

/-! ## What the job knows -/

/-- What the job knows of a delivery it has read: the row is as it was, or gone, and `P` holds of
where it stands. -/
structure Known (s : Outbox) (d : Due) (P : Life (Option ℤ) → Prop) : Prop where
  row : ∀ row, s.deliveries.get? d.id = some row → row = d.row
  undone : d.row.doneAt = none
  due : d.row.nextAt ≤ s.now
  queued : ∃ q, s.queued.get? d.id = some q ∧ SameJob d.row q.1 ∧ d.webhook.secret = q.2 ∧
    ∃ L, Lives policy q.1.createdAt (s.history d.id) L ∧ P L

/-- A delivery that the job is about to post. -/
abbrev Held (s : Outbox) (d : Due) : Prop := s.Known d (Stands d.row)

/-- A delivery that the job has posted. -/
abbrev Posted (s : Outbox) (d : Due) (status : Option ℤ) : Prop :=
  s.Known d fun L => L = .sent d.row.attempts d.row.nextAt status

theorem Known.kept {s t : Outbox} {d : Due} {P : Life (Option ℤ) → Prop} (h : s.Known d P)
    (hk : Kept s t d.id) : t.Known d P where
  row := fun row hrow => by
    rcases hk.row with hsame | ⟨hnone, -⟩
    · exact h.row row (hsame ▸ hrow)
    · rw [hnone] at hrow
      cases hrow
  undone := h.undone
  due := h.due.trans hk.now
  queued := by
    rw [hk.queued, hk.history]
    exact h.queued

theorem Change.known {s t : Outbox} (h : Change s t) {flight : DeliveryId → ℕ}
    (hb : Books env flight s) {d : Due} {P : Life (Option ℤ) → Prop} (hd : s.Known d P) :
    t.Known d P := by
  obtain ⟨q, hq, -⟩ := hd.queued
  exact hd.kept (h.kept (hb.lt_of_queued hq))

/-! ## Books in flight -/

/-- One post of a delivery has not been recorded yet. -/
def aloft (i : DeliveryId) : DeliveryId → ℕ := fun d => if d = i then 1 else 0

@[simp] theorem aloft_self (i : DeliveryId) : aloft i i = 1 := if_pos rfl

theorem aloft_ne {i d : DeliveryId} (h : d ≠ i) : aloft i d = 0 := if_neg h

/-- Books in order. -/
abbrev Ordered (env : WebhookEnv) (s : Outbox) : Prop := Books env (fun _ => 0) s

/-- A round that is cut short may have lost a record. -/
theorem Books.cut {flight : DeliveryId → ℕ} {s : Outbox} (hb : Books env flight s)
    (hf : ∀ d, flight d ≤ 1) : Ordered env s.cut where
  queued_iff := hb.queued_iff
  row_queued := hb.row_queued
  row_hook := hb.row_hook
  hook_lt := hb.hook_lt
  queued_hook := hb.queued_hook
  secret := hb.secret
  account := fun d q hq => by
    obtain ⟨hstanding, hlost, hrequests⟩ := hb.account d q hq
    refine ⟨hstanding, ?_, hrequests⟩
    have := hf d
    show (sends (s.history d)).length ≤ (notes (s.history d)).length + (s.cuts + 1) + 0
    omega
  unborn := hb.unborn
  failCount := hb.failCount
  unmade := hb.unmade

theorem aloft_le (i d : DeliveryId) : aloft i d ≤ 1 := by
  unfold aloft
  split <;> decide

theorem Ordered.cut {s : Outbox} (hb : Ordered env s) : Ordered env s.cut :=
  Books.cut hb fun _ => Nat.zero_le 1

/-! ## Entries of the log -/

/-- A delivery that the new entry is about. -/
theorem history_self {s t : Outbox} {e : OutboxEvent} (hlog : t.log = e :: s.log) {d : DeliveryId}
    {ev : Retry.Event (Option ℤ)} (h : eventOf d e = some ev) :
    t.history d = ev :: s.history d := by
  unfold history
  rw [hlog, List.filterMap_cons_some h]

/-- A delivery that the new entry is not about. -/
theorem history_other {s t : Outbox} {e : OutboxEvent} (hlog : t.log = e :: s.log) {d : DeliveryId}
    (h : eventOf d e = none) : t.history d = s.history d := by
  unfold history
  rw [hlog, List.filterMap_cons_none h]

/-! ## Posting -/

/-- The store after a request. -/
def posted (s : Outbox) (id : Option DeliveryId) (request : HookRequest) : Outbox :=
  { s with log := .posted s.now id request (s.answer request) :: s.log }

theorem kept_posted (s : Outbox) {i d : DeliveryId} (hne : d ≠ i) (request : HookRequest) :
    Kept s (s.posted (some i) request) d where
  history := history_other rfl (by rw [eventOf, if_neg fun h => hne (Option.some.inj h).symm])
  posted := fun tm r a hmem => by
    rcases List.mem_cons.mp hmem with h | h
    · cases h
      exact absurd rfl hne
    · exact h
  queued := rfl
  row := .inl rfl
  gone := fun _ _ h => h
  cuts := rfl
  now := le_rfl

/-- What is not done has not come to its end. -/
theorem open_of_undone {row : WebhookDelivery} {L : Life (Option ℤ)} (h : Stands row L)
    (hundone : row.doneAt = none) : L = .waiting row.attempts row.nextAt ∨ ∃ a,
    L = .sent row.attempts row.nextAt a := by
  cases L with
  | waiting n t =>
      obtain ⟨rfl, rfl, -⟩ := h
      exact .inl rfl
  | sent n t a =>
      obtain ⟨rfl, rfl, -⟩ := h
      exact .inr ⟨a, rfl⟩
  | ended => exact absurd hundone h

/-- The next post of a delivery that waits, or whose last answer has got lost. -/
theorem step_sent {row : WebhookDelivery} {L : Life (Option ℤ)} (h : Stands row L)
    (hundone : row.doneAt = none) {t : Time} (hdue : row.nextAt ≤ t) (a : Option ℤ) :
    Step policy L (.sent t a) (.sent row.attempts row.nextAt a) := by
  rcases open_of_undone h hundone with rfl | ⟨b, rfl⟩
  · exact .send hdue
  · exact .resend hdue

theorem Held.not_over {d : Due} {L : Life (Option ℤ)} (h : Stands d.row L)
    (hundone : d.row.doneAt = none) : L ≠ .ended := by
  rintro rfl
  exact h hundone

/-- Where a delivery that the job knows stands, unless its row is gone. -/
theorem Known.placed {s : Outbox} {d : Due} {P : Life (Option ℤ) → Prop} (hd : s.Known d P)
    {q : WebhookDelivery} {L L' : Life (Option ℤ)} (hplaced : s.Placed d.id q L) (hL : L ≠ .ended)
    (hsame : SameJob d.row q)
    (hL' : Stands d.row L') : s.Placed d.id q L' := by
  unfold Placed at hplaced ⊢
  split at hplaced
  · next row hget =>
    rw [hd.row row hget]
    exact ⟨hL', hsame⟩
  · exact .inr (hplaced.resolve_left hL)

/-- A post of a delivery that the job holds leaves the books with one post to be recorded. -/
theorem Ordered.post {s : Outbox} (hb : Ordered env s) {d : Due} (hd : s.Held d)
    {request : HookRequest}
    (hrequest : request = hookRequest env d.webhook.url d.webhook.secret d.row.event d.row.payload
      (some d.id)) :
    Books env (aloft d.id) (s.posted (some d.id) request) ∧
      (s.posted (some d.id) request).Posted d (statusOf (s.answer request)) := by
  obtain ⟨q, hq, hsame, hsecret, L, hlives, hstands⟩ := hd.queued
  have hhistory : (s.posted (some d.id) request).history d.id =
      .sent s.now (statusOf (s.answer request)) :: s.history d.id :=
    history_self rfl (by rw [eventOf, if_pos rfl])
  have hlives' : Lives policy q.1.createdAt ((s.posted (some d.id) request).history d.id)
      (.sent d.row.attempts d.row.nextAt (statusOf (s.answer request))) := by
    rw [hhistory]
    exact .next hlives (step_sent hstands hd.undone hd.due _)
  have haccount : Account env 1 (s.posted (some d.id) request) d.id q.1 q.2 := by
    obtain ⟨⟨L₀, hlives₀, hplaced⟩, hlost, hrequests⟩ := hb.account d.id q hq
    obtain rfl := hlives₀.unique hlives
    refine ⟨⟨_, hlives', ?_⟩, ?_, fun tm r a hmem => ?_⟩
    · exact hd.placed hplaced (Held.not_over hstands hd.undone) hsame ⟨rfl, rfl, hd.undone⟩
    · rw [hhistory, sends_sent, notes_sent, List.length_cons]
      show _ ≤ _ + s.cuts + 1
      omega
    · rcases List.mem_cons.mp hmem with h | h
      · cases h
        refine ⟨d.webhook.url, ?_⟩
        rw [hrequest, hsecret, hsame.2.1, hsame.2.2]
      · exact hrequests tm r a h
  refine ⟨⟨hb.queued_iff, hb.row_queued, hb.row_hook, hb.hook_lt, hb.queued_hook, hb.secret,
    fun i p hp => ?_, fun i hi => ?_, hb.failCount, hb.unmade⟩,
    ⟨hd.row, hd.undone, hd.due, q, hq, hsame, hsecret, _, hlives', rfl⟩⟩
  · by_cases hi : i = d.id
    · subst hi
      obtain rfl : q = p := Option.some.inj (hq.symm.trans hp)
      rw [aloft_self]
      exact haccount
    · rw [aloft_ne hi]
      exact (hb.account i p hp).kept (kept_posted s hi request) (hb.queued_hook i p hp)
  · have hne : i ≠ d.id := fun h => absurd (hb.lt_of_queued hq) (Nat.not_lt.mpr (h ▸ hi))
    rw [(kept_posted s hne request).history]
    exact hb.unborn i hi

/-! ## Recording -/

/-- The store after the transaction that records a post. -/
def recorded (s : Outbox) (d : Due) (h : Webhook) (r : Option ℤ × Option String)
    (now : Time) : Outbox :=
  { s with
    deliveries := s.deliveries.set d.id (WebhookDelivery.after d.row (d.row.attempts + 1) r now)
    hooks := s.hooks.set d.row.webhookId (Webhook.after h r now)
    log := .recorded now d.id d.row.webhookId r.1 :: s.log }

section Recorded

variable {s : Outbox} {d : Due} {h : Webhook} {r : Option ℤ × Option String} {now : Time}

theorem hooks_recorded (w : WebhookId) : (s.recorded d h r now).hooks.get? w =
    if w = d.row.webhookId then some (Webhook.after h r now) else s.hooks.get? w :=
  s.hooks.get?_set _ _ _

theorem deliveries_recorded (i : DeliveryId) : (s.recorded d h r now).deliveries.get? i =
    if i = d.id then some (WebhookDelivery.after d.row
      (d.row.attempts + 1) r now) else s.deliveries.get? i :=
  s.deliveries.get?_set _ _ _

theorem kept_recorded (hh : s.hooks.get? d.row.webhookId = some h) {i : DeliveryId}
    (hne : i ≠ d.id) : Kept s (s.recorded d h r now) i where
  history := history_other rfl (by rw [eventOf, if_neg hne.symm])
  posted := fun tm r a hmem => by
    rcases List.mem_cons.mp hmem with h | h
    · cases h
    · exact h
  queued := rfl
  row := .inl (by rw [deliveries_recorded, if_neg hne])
  gone := fun w _ hnone => by
    rw [hooks_recorded, if_neg, hnone]
    rintro rfl
    rw [hh] at hnone
    cases hnone
  cuts := rfl
  now := le_rfl

/-- The row after a post stands where the noted answer leads. -/
theorem stands_after (row : WebhookDelivery) (r : Option ℤ × Option String) (now : Time) :
    Stands (WebhookDelivery.after row (row.attempts + 1) r now)
      (policy.after row.attempts now r.1) := by
  have hdone : (WebhookDelivery.after row (row.attempts + 1) r now).doneAt =
      if isSuccess r.1 || decide (MAX_ATTEMPTS ≤ row.attempts + 1) then some now else none := by
    show (if isSuccess r.1 || (!isSuccess r.1 && decide (MAX_ATTEMPTS ≤ row.attempts + 1)) then
        some now else none) = _
    cases isSuccess r.1 <;> rfl
  rw [Policy.after]
  show Stands _ (if isSuccess r.1 || decide (MAX_ATTEMPTS ≤ row.attempts + 1) then _ else _)
  split
  · next hgo =>
    rw [if_pos hgo] at hdone
    show (WebhookDelivery.after row (row.attempts + 1) r now).doneAt ≠ none
    rw [hdone]
    exact Option.some_ne_none now
  · next hgo =>
    rw [if_neg hgo] at hdone
    exact ⟨rfl, rfl, hdone⟩

/-- The record in the delivery's own account makes up for the post in the air. -/
theorem Books.account_recorded (hb : Books env (aloft d.id) s) (hd : s.Posted d r.1) :
    ∃ q, s.queued.get? d.id = some q ∧ Account env 0 (s.recorded d h r now) d.id q.1 q.2 := by
  obtain ⟨q, hq, hsame, -, L, hlives, rfl⟩ := hd.queued
  refine ⟨q, hq, ?_⟩
  obtain ⟨-, hlost, hrequests⟩ := hb.account d.id q hq
  have hhistory : (s.recorded d h r now).history d.id = .noted now r.1 :: s.history d.id :=
    history_self rfl (by rw [eventOf, if_pos rfl])
  refine ⟨⟨policy.after d.row.attempts now r.1, ?_, ?_⟩, ?_, fun tm r a hmem => ?_⟩
  · rw [hhistory]
    exact .next hlives .note
  · unfold Placed
    rw [deliveries_recorded, if_pos rfl]
    exact ⟨stands_after d.row r now, hsame⟩
  · rw [aloft_self] at hlost
    rw [hhistory, sends_noted, notes_noted, List.length_cons]
    show _ ≤ _ + s.cuts + 0
    omega
  · rcases List.mem_cons.mp hmem with h | h
    · cases h
    · exact hrequests tm r a h

/-- The transaction after a post puts the books in order again. -/
theorem Books.record (hb : Books env (aloft d.id) s) (hd : s.Posted d r.1)
    (hh : s.hooks.get? d.row.webhookId = some h) : Ordered env (s.recorded d h r now) := by
  obtain ⟨q, hq, haccount⟩ := @account_recorded _ _ _ h _ now hb hd
  have hqueued := hb.lt_of_queued hq
  -- the other fields hold since the transaction writes one row and one webhook
  refine ⟨hb.queued_iff, fun i row hrow => ?_, fun i row hrow => ?_, fun w v hv => ?_,
    hb.queued_hook, fun i p v hp hv => ?_, fun i p hp => ?_, fun i hi => ?_, fun w v hv => ?_,
    fun w hw => ?_⟩
  · rw [deliveries_recorded] at hrow
    split at hrow
    · next hi =>
      rw [hi]
      exact (hb.queued_iff d.id).mpr hqueued
    · exact hb.row_queued i row hrow
  · rw [hooks_recorded]
    split
    · rfl
    · next hne =>
      rw [deliveries_recorded] at hrow
      split at hrow
      · obtain rfl := Option.some.inj hrow
        exact absurd rfl hne
      · exact hb.row_hook i row hrow
  · rw [hooks_recorded] at hv
    split at hv
    · next hw => exact hw ▸ hb.hook_lt _ h hh
    · exact hb.hook_lt w v hv
  · rw [hooks_recorded] at hv
    split at hv
    · next hw =>
      obtain rfl := Option.some.inj hv
      exact hb.secret i p h hp (hw ▸ hh)
    · exact hb.secret i p v hp hv
  · by_cases hi : i = d.id
    · subst hi
      obtain rfl : q = p := Option.some.inj (hq.symm.trans hp)
      exact haccount
    · have haccount := hb.account i p hp
      rw [aloft_ne hi] at haccount
      exact haccount.kept (kept_recorded hh hi) (hb.queued_hook i p hp)
  · have hne : i ≠ d.id := fun h => absurd hqueued (Nat.not_lt.mpr (h ▸ hi))
    rw [(kept_recorded hh hne).history]
    exact hb.unborn i hi
  · show v.failCount = if d.row.webhookId = w then
      (if isSuccess r.1 then 0 else failures w s.log + 1) else failures w s.log
    rw [hooks_recorded] at hv
    split at hv
    · next hw =>
      obtain rfl := Option.some.inj hv
      rw [if_pos hw.symm, hw, ← hb.failCount _ h hh]
      rfl
    · next hne =>
      rw [if_neg fun heq => hne heq.symm]
      exact hb.failCount w v hv
  · have hne : d.row.webhookId ≠ w :=
    fun heq => absurd (hb.hook_lt _ h hh) (Nat.not_lt.mpr (heq ▸ hw))
    show (if d.row.webhookId =
        w then (if isSuccess r.1 then 0 else failures w s.log + 1) else failures w s.log) = 0
    rw [if_neg hne]
    exact hb.unmade w hw

end Recorded

/-! ## Shelving -/

/-- The store after a delivery has been put away. -/
def shelved (s : Outbox) (d : Due) (now : Time) : Outbox :=
  { s with
    deliveries := s.deliveries.set d.id { d.row
      with doneAt := some now, error := some "webhook disabled" }
    log := .shelved now d.id :: s.log }

section Shelved

variable {s : Outbox} {d : Due} {now : Time}

theorem deliveries_shelved (i : DeliveryId) : (s.shelved d now).deliveries.get? i =
    if i = d.id then some { d.row with doneAt := some now, error := some "webhook disabled" }
    else s.deliveries.get? i :=
  s.deliveries.get?_set _ _ _

theorem kept_shelved {i : DeliveryId} (hne : i ≠ d.id) : Kept s (s.shelved d now) i where
  history := history_other rfl (by rw [eventOf, if_neg hne.symm])
  posted := fun tm r a hmem => by
    rcases List.mem_cons.mp hmem with h | h
    · cases h
    · exact h
  queued := rfl
  row := .inl (by rw [deliveries_shelved, if_neg hne])
  gone := fun _ _ h => h
  cuts := rfl
  now := le_rfl

/-- Putting a delivery away keeps the books in order. -/
theorem Ordered.shelve (hb : Ordered env s) (hd : s.Held d)
    (hrow : s.deliveries.get? d.id = some d.row) : Ordered env (s.shelved d now) := by
  obtain ⟨q, hq, hsame, hsecret, L, hlives, hstands⟩ := hd.queued
  have hhistory : (s.shelved d now).history d.id = .dropped :: s.history d.id :=
    history_self rfl (by rw [eventOf, if_pos rfl])
  have haccount : Account env 0 (s.shelved d now) d.id q.1 q.2 := by
    obtain ⟨-, hlost, hrequests⟩ := hb.account d.id q hq
    refine ⟨⟨.ended, ?_, ?_⟩, ?_, fun tm r a hmem => ?_⟩
    · rw [hhistory]
      rcases open_of_undone hstands hd.undone with rfl | ⟨a, rfl⟩
      · exact .next hlives .drop
      · exact .next hlives .dropSent
    · unfold Placed
      rw [deliveries_shelved, if_pos rfl]
      exact ⟨Option.some_ne_none now, hsame⟩
    · rw [hhistory, sends_dropped, notes_dropped]
      exact hlost
    · rcases List.mem_cons.mp hmem with h | h
      · cases h
      · exact hrequests tm r a h
  refine ⟨hb.queued_iff, fun i row hr => ?_, fun i row hr => ?_, hb.hook_lt,
    hb.queued_hook, hb.secret, fun i p hp => ?_, fun i hi => ?_, hb.failCount, hb.unmade⟩
  · rw [deliveries_shelved] at hr
    split at hr
    · next hi =>
      rw [hi]
      exact hb.row_queued _ _ hrow
    · exact hb.row_queued i row hr
  · rw [deliveries_shelved] at hr
    split at hr
    · obtain rfl := Option.some.inj hr
      exact hb.row_hook d.id d.row hrow
    · exact hb.row_hook i row hr
  · by_cases hi : i = d.id
    · subst hi
      obtain rfl : q = p := Option.some.inj (hq.symm.trans hp)
      exact haccount
    · exact (hb.account i p hp).kept (kept_shelved hi) (hb.queued_hook i p hp)
  · have hne : i ≠ d.id := fun h => absurd (hb.lt_of_queued hq) (Nat.not_lt.mpr (h ▸ hi))
    rw [(kept_shelved hne).history]
    exact hb.unborn i hi

end Shelved

end Outbox

end SRPanel
