import SRPanel.Webhooks.Dispatch

/-!
# The life of a delivery

In every run of the dispatching job amid the calls of other processes, rounds that are cut short
included, a delivery is recorded six times at most, waits longer after each failure, is never posted
after its end, and is not given up before. `deliveries_accounted` says so, and `hooks_accounted`
what the count of failures of a webhook means.
-/

namespace SRPanel

open Interleaving Retry

namespace Outbox

variable {env : WebhookEnv}

/-! ## The loop -/

/-- Before the rest `ds` of the loop. -/
structure Ready (env : WebhookEnv) (ds : List Due) (s : Outbox) : Prop where
  books : Ordered env s
  nodup : (ds.map Due.id).Nodup
  held : ∀ d ∈ ds, s.Held d

theorem ready_stable (ds : List Due) : Stable (Moves env) (Ready env ds) :=
  stable_of_change fun _ _ h hs =>
    ⟨hs.books.change h, hs.nodup, fun d hd => h.known hs.books (hs.held d hd)⟩

theorem Ready.ne {d d' : Due} {ds : List Due} {s : Outbox} (h : Ready env (d :: ds) s)
    (hd' : d' ∈ ds) : d'.id ≠ d.id := by
  have hnodup := h.nodup
  rw [List.map_cons, List.nodup_cons] at hnodup
  exact fun heq => hnodup.1 (heq ▸ List.mem_map_of_mem hd')

/-- What a step about one delivery leaves of the rest of the loop. -/
theorem Ready.rest {d : Due} {ds : List Due} {s t : Outbox} (h : Ready env (d :: ds) s)
    (hkept : ∀ i, i ≠ d.id → Kept s t i) : (ds.map Due.id).Nodup ∧ ∀ d' ∈ ds, t.Held d' := by
  have hnodup := h.nodup
  rw [List.map_cons, List.nodup_cons] at hnodup
  exact ⟨hnodup.2, fun d' hd' => (h.held d' (List.mem_cons_of_mem d hd')).kept (hkept _ (h.ne hd'))⟩

/-- Between the post of `d` and its record. -/
structure Flying (env : WebhookEnv) (d : Due) (ds : List Due) (status : Option ℤ)
    (s : Outbox) : Prop where
  books : Books env (aloft d.id) s
  posted : s.Posted d status
  nodup : (ds.map Due.id).Nodup
  ne : ∀ d' ∈ ds, d'.id ≠ d.id
  held : ∀ d' ∈ ds, s.Held d'

theorem flying_stable (d : Due) (ds : List Due) (status : Option ℤ) :
    Stable (Moves env) (Flying env d ds status) :=
  stable_of_change fun _ _ h hs => ⟨hs.books.change h, h.known hs.books hs.posted, hs.nodup, hs.ne,
    fun d' hd' => h.known hs.books (hs.held d' hd')⟩

theorem Flying.cut {d : Due} {ds : List Due} {status : Option ℤ} {s : Outbox}
    (h : Flying env d ds status s) : Ordered env s.cut := h.books.cut (aloft_le d.id)

theorem shelve_steers {d : Due} {ds : List Due} {s : Outbox} (now : Time)
    (hs : Ready env (d :: ds) s) :
      Steers (Moves env) Outbox.cut (Ordered env) (fun _ t => Ready env ds t)
        (fun _ t => Ordered env t) (shelve d.id now) s := by
  refine steers_step (ready_stable (d :: ds)) hs fun t ht => ?_
  have hcut := ht.books.cut
  cases hget : t.deliveries.get? d.id with
  | none => exact ⟨hcut, fun _ => hcut, fun _ => hcut.cut, fun _ h => (by cases h), fun _ _ => hcut⟩
  | some row =>
      obtain rfl := (ht.held d List.mem_cons_self).row row hget
      have hbooks : Ordered env (t.shelved d now) :=
        ht.books.shelve (ht.held d List.mem_cons_self) hget
      have hkept : ∀ i, i ≠ d.id → t.Kept (t.shelved d now) i := fun i hi => kept_shelved hi
      obtain ⟨hnodup, hheld⟩ := ht.rest hkept
      exact ⟨hcut, fun _ => hcut, fun _ => hbooks.cut, fun _ _ => ⟨hbooks, hnodup, hheld⟩,
        fun _ h => (by cases h)⟩

theorem deliver_steers {d : Due} {ds : List Due} {s : Outbox} (hs : Ready env (d :: ds) s) :
    Steers (Moves env) Outbox.cut (Ordered env) (fun r t => Flying env d ds r.1 t) (fun _ t =>
      Ordered env t) (deliver env d.webhook d.row.event d.row.payload (some d.id)) s := by
  refine steers_bind (P := fun a t => Flying env d ds (statusOf a) t)
    (steers_step (ready_stable (d :: ds)) hs fun t ht => ?_) fun a t ht => ?_
  · have hcut := ht.books.cut
    obtain ⟨hbooks, hposted⟩ := ht.books.post (ht.held d List.mem_cons_self) rfl
    obtain ⟨hnodup, hheld⟩ := ht.rest fun i hi => kept_posted t hi _
    refine ⟨hcut, fun _ => hcut, fun _ => hbooks.cut (aloft_le d.id), fun a ha => ?_, fun _ h =>
      (by cases h)⟩
    obtain rfl := Except.ok.inj ha
    exact ⟨hbooks, hposted, hnodup, fun d' hd' => ht.ne hd', hheld⟩
  · cases a with
    | ok c => exact steers_pure ht
    | error e => exact steers_pure ht

theorem record_steers {d : Due} {ds : List Due} {s : Outbox} {r : Option ℤ × Option String}
    (now : Time) (hs : Flying env d ds r.1 s) :
    Steers (Moves env) Outbox.cut (Ordered env) (fun _ t => Ready env ds t)
      (fun _ t => Ordered env t) (record d.id d.row.webhookId (d.row.attempts + 1) r now) s := by
  refine steers_step (flying_stable d ds r.1) hs fun t ht => ?_
  have hcut := ht.cut
  cases hget : t.deliveries.get? d.id with
  | none => exact ⟨hcut, fun _ => hcut, fun _ => hcut.cut, fun _ h => (by cases h), fun _ _ => hcut⟩
  | some row =>
      obtain rfl := ht.posted.row row hget
      cases hhook : t.hooks.get? d.row.webhookId with
      | none => exact ⟨hcut, fun _ => hcut, fun _ => hcut.cut, fun _ h => (by cases h),
        fun _ _ => hcut⟩
      | some h =>
          have hbooks : Ordered env (t.recorded d h r now) := ht.books.record ht.posted hhook
          exact ⟨hcut, fun _ => hcut, fun _ => hbooks.cut, fun _ _ => ⟨hbooks, ht.nodup,
            fun d' hd' => (ht.held d' hd').kept (kept_recorded hhook (ht.ne d' hd'))⟩, fun _ h =>
              (by cases h)⟩

theorem dispatchOne_steers {d : Due} {ds : List Due} {s : Outbox} (hs : Ready env (d :: ds) s) :
    Steers (Moves env) Outbox.cut (Ordered env) (fun _ t => Ready env ds t)
      (fun _ t => Ordered env t) (dispatchOne env d) s := by
  refine steers_ite (fun _ => ?_) fun _ => ?_
  · exact steers_read (ready_stable (d :: ds)) hs
      (fun t ht => ⟨ht.books.cut, fun _ => ht.books.cut⟩) fun t ht => shelve_steers _ ht
  · refine steers_bind (deliver_steers hs) fun r t ht => ?_
    exact steers_read (flying_stable d ds r.1) ht (fun t ht => ⟨ht.cut, fun _ => ht.cut⟩)
      fun t ht => record_steers _ ht

/-! ## A round -/

/-- The rows that are read are held. -/
theorem ready_due {s : Outbox} {now : Time} (limit : ℕ) (hb : Ordered env s) (hnow : now ≤ s.now) :
    Ready env (s.due now limit) s := by
  have hsub : ((s.due now limit).map Due.id).Sublist
      (((s.pending now).insertionSort s.Before).map Due.id) :=
    (List.take_sublist _ _).map _
  have hids : ((s.pending now).map Due.id).Sublist (s.deliveries.rows.map Prod.fst) := by
    unfold pending
    induction s.deliveries.rows with
    | nil => exact .slnil
    | cons r rows ih =>
        rw [List.filterMap_cons, List.map_cons]
        split
        · exact ih.cons _
        · next d hd =>
          have hid : d.id = r.1 := by
            split at hd
            · obtain ⟨h, -, rfl⟩ := Option.map_eq_some_iff.mp hd
              rfl
            · cases hd
          rw [List.map_cons, hid]
          exact ih.cons_cons _
  refine ⟨hb, ?_, fun d hd => ?_⟩
  · have hperm := ((s.pending now).perm_insertionSort s.Before).map Due.id
    exact hsub.nodup (hperm.nodup_iff.mpr (hids.nodup s.deliveries.nodup_keys))
  · have hmem : d ∈ s.pending now := (List.mem_insertionSort _).mp (List.mem_of_mem_take hd)
    obtain ⟨⟨i, row⟩, hrow, hsome⟩ := List.mem_filterMap.mp hmem
    split at hsome
    · next hcond =>
      obtain ⟨h, hhook, rfl⟩ := Option.map_eq_some_iff.mp hsome
      rw [s.deliveries.mem_rows_iff] at hrow
      simp only [isDue, Bool.and_eq_true, decide_eq_true_eq] at hcond
      obtain ⟨q, hq⟩ := Option.isSome_iff_exists.mp (hb.row_queued i row hrow)
      obtain ⟨⟨L, hlives, hplaced⟩, -, -⟩ := hb.account i q hq
      unfold Placed at hplaced
      rw [hrow] at hplaced
      refine ⟨fun row' hrow' => ?_, hcond.1.1, hcond.1.2.trans hnow, q, hq, hplaced.2, ?_, L,
        hlives, hplaced.1⟩
      · exact Option.some.inj (hrow'.symm.trans hrow)
      · exact hb.secret i q h hq (by rw [← hplaced.2.1]; exact hhook)
    · cases hsome

theorem ordered_stable : Stable (Moves env) (Ordered env) :=
  stable_of_change fun _ _ h hb => hb.change h

theorem Change.now_le {s t : Outbox} (h : Change s t) : s.now ≤ t.now := by
  cases h with
  | around now _ _ _ _ _ hle => exact hle
  | tested => exact le_rfl
  | enqueue => exact le_rfl
  | create => exact le_rfl
  | edit => exact le_rfl
  | drop => exact le_rfl
  | prune => exact le_rfl

theorem ordered_after_stable (now : Time) :
    Stable (Moves env) fun s => Ordered env s ∧ now ≤ s.now :=
  stable_of_change fun _ _ h hs => ⟨hs.1.change h, hs.2.trans h.now_le⟩

/-- What has been done for long is deleted. -/
theorem Ordered.sweep {s : Outbox} (hb : Ordered env s) (now : Time) : Ordered env { s with
    deliveries := s.deliveries.keep fun id => !((s.deliveries.get? id).any (longDone now))
    rounds := s.rounds + 1 } := by
  have hkeep := hb.change (.prune s (fun id => !((s.deliveries.get? id).any (longDone now)))
    fun d row hrow hp => ?_)
  · exact ⟨hkeep.queued_iff, hkeep.row_queued, hkeep.row_hook, hkeep.hook_lt, hkeep.queued_hook,
      hkeep.secret, fun d q hq =>
        ⟨(hkeep.account d q hq).standing, (hkeep.account d q hq).lost,
          (hkeep.account d q hq).requests⟩,
      hkeep.unborn, hkeep.failCount, hkeep.unmade⟩
  · rw [hrow, Option.any_some, Bool.not_eq_false'] at hp
    intro hnone
    rw [longDone, hnone] at hp
    cases hp

/-- The sweep leaves them in order. -/
theorem sweep_steers {s : Outbox} (now : Time) (hb : Ordered env s) :
    Steers (Moves env) Outbox.cut (Ordered env) (fun _ t => Ordered env t)
      (fun _ t => Ordered env t) (sweep now) s := by
  refine steers_step ordered_stable hb fun t ht => ?_
  have hswept := ht.sweep now
  exact ⟨ht.cut, fun _ => ht.cut, fun _ => hswept.cut, fun _ _ => hswept, fun _ h => (by cases h)⟩

theorem dispatchWebhooks_steers {s : Outbox} (limit : ℕ) (hb : Ordered env s) :
    Steers (Moves env) Outbox.cut (Ordered env) (fun _ t => Ordered env t)
      (fun _ t => Ordered env t) (dispatchWebhooks env limit) s := by
  refine steers_read ordered_stable hb (fun t ht => ⟨ht.cut, fun _ => ht.cut⟩) fun t ht => ?_
  refine steers_read (ordered_after_stable t.now) ⟨ht, le_rfl⟩
    (fun t ht => ⟨ht.1.cut, fun _ => ht.1.cut⟩) fun t' ht' => ?_
  refine steers_bind (steers_forEach (A := Ready env) rfl (fun _ _ => rfl)
    (fun d ds s => dispatchOne_steers) _ (ready_due limit ht'.1 ht'.2)) fun _ t hready => ?_
  refine steers_read ordered_stable hready.books (fun t ht => ⟨ht.cut, fun _ => ht.cut⟩) fun t ht =>
    ?_
  exact steers_bind (sweep_steers _ ht) fun _ t ht => steers_pure ht

/-! ## Runs -/

theorem ordered_start (now : Time) (admins : Table AdminId AdminRole)
    (answer : HookRequest → Except String ℤ) : Ordered env (start now admins answer) := by
  have hqueued : ∀ d, (start now admins answer).queued.get? d = none := Table.get?_empty
  have hrows : ∀ d, (start now admins answer).deliveries.get? d = none := Table.get?_empty
  have hhooks : ∀ w, (start now admins answer).hooks.get? w = none := Table.get?_empty
  refine ⟨fun d => ?_, fun d row h => ?_, fun d row h => ?_, fun w v h => ?_, fun d q h => ?_,
    fun d q v h _ => ?_, fun d q h => ?_, fun _ _ => rfl, fun w v h => ?_, fun _ _ => rfl⟩
  · rw [hqueued]
    exact ⟨fun h => (by cases h), fun h => absurd h (Nat.not_lt_zero d)⟩
  · rw [hrows] at h
    cases h
  · rw [hrows] at h
    cases h
  · rw [hhooks] at h
    cases h
  · rw [hqueued] at h
    cases h
  · rw [hqueued] at h
    cases h
  · rw [hqueued] at h
    cases h
  · rw [hhooks] at h
    cases h

theorem Run.invariant {limit : ℕ} {now : Time} {admins : Table AdminId AdminRole}
    {answer : HookRequest → Except String ℤ} {w : Worker Unit Outbox AppError}
    (h : Outbox.Run env limit ⟨start now admins answer, none⟩ w) :
    (w.job = none → Ordered env w.store) ∧ Ordered env w.store.cut := by
  refine Worker.Run.invariant h ordered_stable (fun _ hs => hs.cut) (fun p hp s hs => ?_) rfl
    (ordered_start now admins answer)
  rw [hp]
  refine steers_attempt (steers_bind (dispatchWebhooks_steers limit hs) fun _ t ht =>
    ?_) fun _ t ht => ?_
  · exact steers_pure ht
  · exact steers_pure ht

/-- In every run the books are in order, but for one post at most that is to be recorded. -/
theorem Run.ordered {limit : ℕ} {now : Time} {admins : Table AdminId AdminRole}
    {answer : HookRequest → Except String ℤ} {w : Worker Unit Outbox AppError}
    (h : Outbox.Run env limit ⟨start now admins answer, none⟩ w) : Ordered env w.store.cut :=
  (Run.invariant h).2

/-- Between rounds the books are in order. -/
theorem Run.idle {limit : ℕ} {now : Time} {admins : Table AdminId AdminRole}
    {answer : HookRequest → Except String ℤ} {s : Outbox}
    (h : Outbox.Run env limit ⟨start now admins answer, none⟩ ⟨s, none⟩) : Ordered env s :=
  (Run.invariant h).1 rfl

/-- A call that runs alone is a row of moves. -/
theorem Call.moves (c : Call) (s : Outbox) :
    Relation.ReflTransGen (Moves env) s ((c.task env).run s).2 := by
  have hrun := Prog.run_does (c.task env) s
  generalize ((c.task env).run s).2 = t at hrun
  induction hrun with
  | refl => exact .refl
  | tail _ hstep ih =>
      obtain ⟨u, hu, rfl⟩ := hstep
      exact ih.tail (.inl ⟨c, u, hu, rfl⟩)

/-- A round that runs alone. -/
theorem Run.round (limit : ℕ) (s : Outbox) :
    Outbox.Run env limit ⟨s, none⟩ ⟨((dispatchWebhooks env limit).void.run s).2, none⟩ := by
  refine Worker.Run.job ?_ s
  rfl

/-! ## What the books say -/

/-- What can be counted on about a delivery that was queued as `q` for a webhook with this secret
while so many rounds are `running`: its posts are in `sends`, those that were recorded in `notes`,
the last first. -/
structure Accounted (env : WebhookEnv) (running : ℕ) (s : Outbox) (d : DeliveryId)
    (q : WebhookDelivery) (secret : String) : Prop where
  /-- six posts at most are recorded, in the order in which they were made -/
  recorded : (notes (s.history d)).length ≤ MAX_ATTEMPTS ∧
    (notes (s.history d)).Sublist (sends (s.history d))
  /-- a post goes unrecorded only in a round that was cut short, or that is going on: one at most in
  each -/
  unrecorded : (sends (s.history d)).length ≤ (notes (s.history d)).length + s.cuts + running
  /-- only the last record can be a success -/
  failures : ∀ a ∈ (notes (s.history d)).tail, isSuccess a = false
  /-- the row is done exactly if the delivery succeeded, failed six times, or met a webhook that is
  switched off -/
  done_iff : ∀ row, s.deliveries.get? d = some row →
    (row.doneAt ≠ none ↔ Finished policy (s.history d))
  /-- a row that is not done counts the records -/
  attempts : ∀ row, s.deliveries.get? d = some row → row.doneAt = none →
    row.attempts = (notes (s.history d)).length
  /-- the row is not deleted before that, unless its webhook is -/
  kept : s.deliveries.get? d = none →
    Finished policy (s.history d) ∨ s.hooks.get? q.webhookId = none
  /-- nothing is posted, recorded or put away after that -/
  ended : ∀ h₂ e h₁, s.history d = h₂ ++ e :: h₁ → ¬Finished policy h₁
  /-- between a record and the next post lies the delay for the failures so far -/
  spaced : ∀ h₃ t' b h₂ t a h₁, s.history d = h₃ ++ .sent t' b :: h₂ ++ .noted t a :: h₁ →
    notes h₂ = [] → t + backoff ((notes h₁).length + 1) ≤ t'
  /-- every post has the body that was queued, signed with the secret of the webhook -/
  requests : ∀ t r a, .posted t (some d) r a ∈ s.log → r.body = env.stringify q.payload ∧
    r.signature = signPayload env secret r.body ∧ r.event = q.event ∧ r.delivery = toString d

/-- Books in order are what can be counted on. -/
theorem Ordered.accounted {s : Outbox} (hb : Ordered env s) {d : DeliveryId} {q : WebhookDelivery}
    {secret : String} (hq : s.queued.get? d = some (q, secret)) : Accounted env 0 s d q secret := by
  obtain ⟨⟨L, hlives, hplaced⟩, hlost, hrequests⟩ := hb.account d _ hq
  unfold Placed at hplaced
  refine ⟨⟨hlives.notes_le, hlives.notes_sublist⟩, hlost, hlives.notes_tail, fun row hrow => ?_,
    fun row hrow hundone => ?_, fun hnone => ?_, fun h₂ e h₁ heq => ?_,
    fun h₃ t' b h₂ t a h₁ heq hnone => ?_,
    fun t r a hmem => ?_⟩
  · rw [hrow] at hplaced
    rw [← hlives.over_iff]
    exact ⟨over_of_done hplaced.1, fun h => by rw [h] at hplaced; exact hplaced.1⟩
  · rw [hrow] at hplaced
    have hagrees := hlives.agrees
    rcases open_of_undone hplaced.1 hundone with rfl | ⟨a, rfl⟩
    · exact hagrees.1.symm
    · exact hagrees.1.symm
  · rw [hnone] at hplaced
    exact hplaced.imp_left hlives.over_iff.mp
  · rw [heq] at hlives
    obtain ⟨L₁, hlives₁⟩ := hlives.before
    exact hlives₁.open_before
  · rw [heq, List.append_assoc] at hlives
    obtain ⟨L₁, hlives₁⟩ := hlives.before
    exact hlives₁.spaced hnone
  · obtain ⟨url, rfl⟩ := hrequests t r a hmem
    exact ⟨rfl, rfl, rfl, rfl⟩

/-- If the books are in order once a round is cut short, one round is going on. -/
theorem Accounted.of_cut {s : Outbox} {d : DeliveryId} {q : WebhookDelivery} {secret : String}
    (h : Accounted env 0 s.cut d q secret) : Accounted env 1 s d q secret where
  recorded := h.recorded
  unrecorded := by
    have hcut : (sends (s.history d)).length ≤ (notes (s.history d)).length + (s.cuts + 1) + 0 :=
      h.unrecorded
    omega
  failures := h.failures
  done_iff := h.done_iff
  attempts := h.attempts
  kept := h.kept
  ended := h.ended
  spaced := h.spaced
  requests := h.requests

/-- Every delivery, in every run of the job amid the calls of other processes. -/
theorem deliveries_accounted {limit : ℕ} {now : Time} {admins : Table AdminId AdminRole}
    {answer : HookRequest → Except String ℤ} {w : Worker Unit Outbox AppError}
    (h : Outbox.Run env limit ⟨start now admins answer, none⟩ w) {d : DeliveryId}
    {q : WebhookDelivery}
    {secret : String} (hq : w.store.queued.get? d = some (q, secret)) :
    Accounted env (if w.job.isSome then 1 else 0) w.store d q secret := by
  obtain ⟨hidle, hcut⟩ := Run.invariant h
  cases hjob : w.job with
  | none => exact (hidle hjob).accounted hq
  | some p => exact (hcut.accounted hq).of_cut

/-- The count of failures of a webhook is the number of failed deliveries that were recorded for it
since the last success. -/
theorem hooks_accounted {limit : ℕ} {now : Time} {admins : Table AdminId AdminRole}
    {answer : HookRequest → Except String ℤ} {w : Worker Unit Outbox AppError}
    (h : Outbox.Run env limit ⟨start now admins answer, none⟩ w) {id : WebhookId} {hook : Webhook}
    (hget : w.store.hooks.get? id = some hook) : hook.failCount = failures id w.store.log :=
  (Run.ordered h).failCount id hook hget

/-! ### A run: the first post fails, the second one succeeds -/

/-- The functions of the runtime, on the one body of the run. -/
def paidEnv : WebhookEnv where
  hmacSha256 _ _ := "ec58803ffd00dbf20313dc19b29ded51ff3cd40dac383fb8641197f0e258539a"
  stringify _ :=
    "\x7b\"at\":\"1970-01-01T00:00:00.000Z\",\"event\":\"order.paid\",\"adminId\":\"1\"\x7d"
  isoTime _ := "\"1970-01-01T00:00:00.000Z\""

/-- An outbox whose receiver fails, for the example. -/
def paidStart : Outbox := start 0 (.ofRows [(1, .owner)]) fun _ => .ok 500

/-- There a webhook is made and an event queued. -/
def paidQueued : Outbox :=
  let s :=
    ((Call.createWebhook 0 1 "https://example.com/hook" none none "key").task paidEnv |>.run paidStart).2
  ((Call.emitEvent 0
    (some 1) "\"1\"" "order.paid" "\"order.paid\"" [] none).task paidEnv |>.run s).2

/-- A first round fails. -/
def paidFailed : Outbox := ((dispatchWebhooks paidEnv 25).void.run paidQueued).2

/-- Two minutes later the receiver answers. -/
def paidLater : Outbox :=
  { paidFailed with now := paidFailed.now + 120000, answer := fun _ => .ok 200 }

/-- A second round is done. -/
def paidDone : Outbox := ((dispatchWebhooks paidEnv 25).void.run paidLater).2

/-- This is a run. -/
theorem paidDone_run : Outbox.Run paidEnv 25 ⟨paidStart, none⟩ ⟨paidDone, none⟩ := by
  have hqueued : Relation.ReflTransGen (Moves paidEnv) paidStart paidQueued :=
    (Call.moves _ _).trans (Call.moves _ _)
  have hlater : Relation.ReflTransGen (Moves paidEnv) paidFailed paidLater :=
    .tail (.single (.inr (.wait paidFailed 120000))) (.inr (.answer _ _))
  exact (Worker.Run.env hqueued none).trans ((Run.round 25 paidQueued).trans
    ((Worker.Run.env hlater none).trans (Run.round 25 paidLater)))

/-- The payload that was queued in the run. -/
def paidRow : WebhookDelivery :=
  freshDelivery 0 "order.paid"
    [("event", "\"order.paid\""), ("at", "\"1970-01-01T00:00:00.000Z\""), ("adminId", "\"1\"")] 0

theorem deliveries_accounted_paid : Accounted paidEnv 0 paidDone 0 paidRow "key" ∧
    sends (paidDone.history 0) = [some 200, some 500] ∧ notes (paidDone.history 0) =
    [some 200, some 500] :=
  ⟨deliveries_accounted paidDone_run rfl, by decide, by decide⟩

end Outbox

end SRPanel
