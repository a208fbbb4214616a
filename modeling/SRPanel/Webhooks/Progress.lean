import SRPanel.Webhooks.Life

/-!
# No delivery is starved

A round posts the deliveries that have been due longest. So a delivery that is due waits for no more
rounds than its predecessors fill, however many events other processes queue meanwhile: `due_within`
bounds the rounds that come to their end before it is posted or put away.
-/

namespace SRPanel

open Interleaving Retry

namespace Outbox

variable {env : WebhookEnv}

/-! ## Predecessors -/

/-- The deliveries that may come before `d`, due at `x`, but for those in `ids`. -/
def ahead (s : Outbox) (d : DeliveryId) (x : Time) (ids : List DeliveryId) : ℕ :=
  (s.deliveries.rows.filter fun r => isDue x r.2 && r.1 ≠ d && r.1 ∉ ids).length

theorem ahead_nil_eq (s : Outbox) (d : DeliveryId) (x : Time) :
    s.ahead d x [] = (s.deliveries.rows.filter fun r =>
      isDue x r.2 && decide (r.1 ≠ d)).length := by
  unfold ahead
  congr 2
  funext r
  simp

/-- Taking jobs leaves fewer ahead. -/
theorem ahead_le_nil (s : Outbox) (d : DeliveryId) (x : Time) (ids : List DeliveryId) :
    s.ahead d x ids ≤ s.ahead d x [] := by
  rw [ahead_nil_eq]
  refine (List.monotone_filter_right _ fun r hr => ?_).length_le
  rw [Bool.and_eq_true] at hr
  exact hr.1

/-- Rows that are changed or added so that they do not wait do not come before `d`. -/
theorem ahead_set_le {s t : Outbox} {d i : DeliveryId} {x : Time} {row : WebhookDelivery}
    (ids : List DeliveryId) (hrows : t.deliveries = s.deliveries.set i row)
    (hrow : isDue x row = false) :
    t.ahead d x ids ≤ s.ahead d x (i :: ids) := by
  have hagree : ∀ k, k ≠ i → t.deliveries.get? k = s.deliveries.get? k := fun k hk => by
    rw [hrows]
    exact s.deliveries.get?_set_of_ne row hk
  have hself : t.deliveries.get? i = some row := by
    rw [hrows]
    exact s.deliveries.get?_set_self i row
  have hlength := Table.length_filter_of_agree hagree fun r => isDue x r.2 && decide (r.1 ≠ d) &&
    decide (r.1 ∉ ids)
  rw [if_neg (by simp [hself, hrow]), Nat.add_zero] at hlength
  unfold ahead
  rw [hlength]
  refine (List.monotone_filter_right _ fun r hr => ?_).length_le
  simp only [Bool.and_eq_true, decide_eq_true_eq, List.mem_cons, not_or] at hr ⊢
  exact ⟨⟨hr.1.1.1, hr.1.1.2⟩, hr.2, hr.1.2⟩

/-- Deleting rows puts nothing before `d`. -/
theorem ahead_keep_le {s t : Outbox} {d : DeliveryId} {x : Time} (ids : List DeliveryId)
    {p : DeliveryId → Bool} (hrows : t.deliveries = s.deliveries.keep p) :
    t.ahead d x ids ≤ s.ahead d x ids := by
  unfold ahead
  rw [hrows]
  have hsub : (s.deliveries.keep p).rows.Sublist s.deliveries.rows := (List.filter_sublist).map _
  exact (hsub.filter _).length_le

theorem ahead_same {s t : Outbox} {d : DeliveryId} {x : Time} (ids : List DeliveryId)
    (hrows : t.deliveries = s.deliveries) : t.ahead d x ids ≤ s.ahead d x ids := by
  unfold ahead
  rw [hrows]

/-- Others put nothing before a delivery that is overdue. -/
theorem Change.ahead_le {s t : Outbox} (h : Change s t) {d : DeliveryId} {x : Time} (hx : x < s.now)
    (ids : List DeliveryId) : t.ahead d x ids ≤ s.ahead d x ids := by
  cases h with
  | around => exact ahead_same ids rfl
  | tested => exact ahead_same ids rfl
  | enqueue event payload id h _ =>
      have hrow : isDue x (freshDelivery id event payload s.now) = false := by
        simp [isDue, freshDelivery, Nat.not_le.mpr hx]
      refine (ahead_set_le ids rfl hrow).trans
        ((List.monotone_filter_right _ fun r hr => ?_).length_le)
      simp only [Bool.and_eq_true, decide_eq_true_eq, List.mem_cons, not_or] at hr ⊢
      exact ⟨hr.1, hr.2.2⟩
  | create => exact ahead_same ids rfl
  | edit => exact ahead_same ids rfl
  | drop gone => exact ahead_keep_le (p := fun id =>
    !((s.deliveries.get? id).any fun row => gone row.webhookId)) ids rfl
  | prune p _ => exact ahead_keep_le ids rfl

/-- Predecessors that are in the list are not counted. -/
theorem ahead_add_length_le {s : Outbox} {d : DeliveryId} {x : Time} {ids : List DeliveryId}
    (hnodup : ids.Nodup) (hids : ∀ i ∈ ids, i ≠ d ∧ ∃ row,
      s.deliveries.get? i = some row ∧ isDue x row) :
    s.ahead d x ids + ids.length ≤ s.ahead d x [] := by
  have hsplit := List.length_eq_length_filter_add (l := s.deliveries.rows.filter fun r =>
    isDue x r.2 && decide (r.1 ≠ d)) fun r => decide (r.1 ∉ ids)
  rw [List.filter_filter, List.filter_filter] at hsplit
  rw [ahead_nil_eq, hsplit]
  have hahead : s.ahead d x ids = (s.deliveries.rows.filter fun r =>
      decide (r.1 ∉ ids) && (isDue x r.2 && decide (r.1 ≠ d))).length := by
    unfold ahead
    congr 2
    funext r
    exact Bool.and_comm _ _
  rw [hahead]
  refine Nat.add_le_add_left ?_ _
  -- the ids of the list are among those of the rows that are left
  have hsub : ids.Subperm ((s.deliveries.rows.filter fun r =>
      !decide (r.1 ∉ ids) && (isDue x r.2 && decide (r.1 ≠ d))).map Prod.fst) := by
    refine List.subperm_of_subset hnodup fun i hi => ?_
    obtain ⟨hne, row, hget, hdue⟩ := hids i hi
    refine List.mem_map.mpr ⟨(i, row),
      List.mem_filter.mpr ⟨(s.deliveries.mem_rows_iff i row).mpr hget, ?_⟩, rfl⟩
    simp [hi, hdue, hne]
  have hle := hsub.length_le
  rwa [List.length_map] at hle

/-! ## The due rows -/

instance (s : Outbox) : Std.Total s.Before := ⟨fun a b => by
  unfold Before
  rcases Nat.lt_trichotomy a.row.nextAt b.row.nextAt with h | h | h
  · exact .inl (.inl h)
  · exact (Nat.le_total (s.rank a.id) (s.rank b.id)).imp (fun hr => .inr ⟨h, hr⟩) fun hr =>
    .inr ⟨h.symm, hr⟩
  · exact .inr (.inl h)⟩

instance (s : Outbox) : IsTrans Due s.Before := ⟨fun a b c hab hbc => by
  rcases hab with hab | ⟨hab, hrank⟩ <;> rcases hbc with hbc | ⟨hbc, hrank'⟩
  · exact .inl (hab.trans hbc)
  · exact .inl (hbc ▸ hab)
  · exact .inl (hab ▸ hbc)
  · exact .inr ⟨hab.trans hbc, hrank.trans hrank'⟩⟩

theorem Before.nextAt_le {s : Outbox} {a b : Due} (h : s.Before a b) :
    a.row.nextAt ≤ b.row.nextAt := by
  rcases h with h | h
  · exact h.le
  · exact h.1.le

/-- A list in order whose first `n` elements leave something out is longer, and they come before it.
-/
theorem take_of_not_mem {α : Type} {r : α → α → Prop} {l : List α} (hl : l.Pairwise r) {a : α}
    (ha : a ∈ l) {n : ℕ} (hout : a ∉ l.take n) : (l.take n).length = n ∧ ∀ b ∈ l.take n, r b a := by
  have hdrop : a ∈ l.drop n := by
    rw [← List.take_append_drop n l, List.mem_append] at ha
    exact ha.resolve_left hout
  have hlength : n < l.length := by
    by_contra hle
    rw [List.drop_eq_nil_of_le (not_lt.mp hle)] at hdrop
    cases hdrop
  rw [← List.take_append_drop n l, List.pairwise_append] at hl
  exact ⟨by rw [List.length_take, min_eq_left hlength.le], fun b hb => hl.2.2 b hb a hdrop⟩

theorem mem_pending {s : Outbox} {now : Time} {d : Due} (h : d ∈ s.pending now) :
    s.deliveries.get? d.id = some d.row ∧ isDue now d.row ∧ s.hooks.get? d.row.webhookId =
    some d.webhook := by
  obtain ⟨⟨i, row⟩, hrow, hsome⟩ := List.mem_filterMap.mp h
  split at hsome
  · next hcond =>
    obtain ⟨h, hhook, rfl⟩ := Option.map_eq_some_iff.mp hsome
    exact ⟨(s.deliveries.mem_rows_iff i row).mp hrow, hcond, hhook⟩
  · cases hsome

theorem pending_of_row {s : Outbox} {now : Time} {d : DeliveryId} {row : WebhookDelivery}
    {h : Webhook} (hget : s.deliveries.get? d = some row) (hdue : isDue now row)
    (hhook : s.hooks.get? row.webhookId = some h) :
    ⟨d, row, h⟩ ∈ s.pending now := by
  refine List.mem_filterMap.mpr ⟨(d, row), (s.deliveries.mem_rows_iff d row).mpr hget, ?_⟩
  show (if isDue now row then (s.hooks.get? row.webhookId).map fun h =>
    (⟨d, row, h⟩ : Due) else none) = _
  rw [if_pos hdue, hhook]
  rfl

/-- Either the delivery is among the rows that are read, or the rows that are read all come before
it and are as many as a round takes. -/
theorem due_or_full {s : Outbox} {now x : Time} (limit : ℕ) {d : DeliveryId} {row : WebhookDelivery}
    {h : Webhook} (hget : s.deliveries.get? d = some row) (hdue : isDue now row)
    (hhook : s.hooks.get? row.webhookId = some h)
    (hx : row.nextAt ≤ x) (hnodup : ((s.due now limit).map Due.id).Nodup) :
    d ∈ (s.due now limit).map Due.id ∨
      s.ahead d x ((s.due now limit).map Due.id) + limit ≤ s.ahead d x [] := by
  by_cases hmem : d ∈ (s.due now limit).map Due.id
  · exact .inl hmem
  refine .inr ?_
  have hin : (⟨d, row, h⟩ : Due) ∈ (s.pending now).insertionSort s.Before :=
    (List.mem_insertionSort _).mpr (pending_of_row hget hdue hhook)
  have hout : (⟨d, row, h⟩ : Due) ∉ s.due now limit := fun h => hmem (List.mem_map_of_mem h)
  obtain ⟨hlength, hbefore⟩ := take_of_not_mem (List.pairwise_insertionSort s.Before _) hin hout
  have hle := ahead_add_length_le (s := s) (d := d) (x := x) hnodup fun i hi => ?_
  · rwa [List.length_map, show (s.due now limit).length = limit from hlength] at hle
  · obtain ⟨e, he, rfl⟩ := List.mem_map.mp hi
    obtain ⟨hrow, hdue', -⟩ := mem_pending ((List.mem_insertionSort _).mp (List.mem_of_mem_take he))
    refine ⟨fun heq => hmem (heq ▸ hi), e.row, hrow, ?_⟩
    have hnext := (hbefore e he).nextAt_le
    unfold isDue at hdue' ⊢
    simp only [Bool.and_eq_true, decide_eq_true_eq] at hdue' ⊢
    exact ⟨⟨hdue'.1.1, hnext.trans hx⟩, hdue'.2⟩

/-! ## Waiting for a delivery -/

/-- A delivery that is waited for, its webhook, the time at which it was due, and its history at the
beginning; a round takes `limit` deliveries, and `quota` is for those that come before it. -/
structure Target where
  id : DeliveryId
  queued : WebhookDelivery × String
  x : Time
  past : List (Retry.Event (Option ℤ))
  limit : ℕ
  quota : ℕ

/-- A delivery is posted or put away; a record only says how a post went. -/
def Settles : Retry.Event (Option ℤ) → Prop
  | .sent _ _ => True
  | .noted _ _ => False
  | .dropped => True

namespace Target

variable (g : Target)

/-- The delivery has been posted or put away since, or its webhook has been deleted. -/
def Happened (s : Outbox) : Prop :=
  (∃ since e, s.history g.id = since ++ e :: g.past ∧ Settles e) ∨
    s.hooks.get? g.queued.1.webhookId = none

/-- Nothing has happened, but the rounds so far, and `k` more, have been spent on predecessors. -/
def Lags (ids : List DeliveryId) (k : ℕ) (s : Outbox) : Prop :=
  s.history g.id = g.past ∧ s.ahead g.id g.x ids + g.limit * (s.rounds + k) ≤ g.quota

/-- The delivery is known and due, and what is awaited has happened or lags within its quota. -/
structure Awaited (s : Outbox) : Prop where
  late : g.x < s.now
  born : g.id < s.nextDelivery
  hook : g.queued.1.webhookId < s.nextHook
  queued : s.queued.get? g.id = some g.queued
  progress : g.Happened s ∨ g.Lags [] 0 s

/-- Before the rest `ids` of the loop. -/
structure Turn (ids : List DeliveryId) (s : Outbox) : Prop where
  awaited : g.Awaited s
  turn : g.Happened s ∨ g.id ∈ ids ∨ g.Lags ids 1 s

variable {g} {s t : Outbox} {ids : List DeliveryId} {i : DeliveryId} {k : ℕ}
  {e : Retry.Event (Option ℤ)}

/-- What has happened stays so. -/
theorem Happened.kept (h : g.Happened s) (hk : Kept s t g.id)
    (hhook : g.queued.1.webhookId < s.nextHook) : g.Happened t := by
  refine h.imp (fun h => ?_) fun h => hk.gone _ hhook h
  rwa [hk.history]

theorem Change.counts {s t : Outbox} (h : Change s t) :
    s.nextDelivery ≤ t.nextDelivery ∧ s.nextHook ≤ t.nextHook ∧ t.rounds = s.rounds := by
  cases h with
  | around => exact ⟨le_rfl, le_rfl, rfl⟩
  | tested => exact ⟨le_rfl, le_rfl, rfl⟩
  | enqueue => exact ⟨Nat.le_succ _, le_rfl, rfl⟩
  | create => exact ⟨le_rfl, Nat.le_succ _, rfl⟩
  | edit => exact ⟨le_rfl, le_rfl, rfl⟩
  | drop => exact ⟨le_rfl, le_rfl, rfl⟩
  | prune => exact ⟨le_rfl, le_rfl, rfl⟩

theorem Lags.change (h : g.Lags ids k s) (hc : Change s t) (hlate : g.x < s.now)
    (hborn : g.id < s.nextDelivery) : g.Lags ids k t := by
  obtain ⟨hpast, hle⟩ := h
  have hahead := hc.ahead_le (d := g.id) hlate ids
  refine ⟨(hc.kept hborn).history.trans hpast, ?_⟩
  rw [(Change.counts hc).2.2]
  omega

/-- A change keeps a job awaited. -/
theorem Awaited.change (h : g.Awaited s) (hc : Change s t) : g.Awaited t where
  late := h.late.trans_le hc.now_le
  born := h.born.trans_le (Change.counts hc).1
  hook := h.hook.trans_le (Change.counts hc).2.1
  queued := (hc.kept h.born).queued.trans h.queued
  progress := h.progress.imp (fun hh => hh.kept (hc.kept h.born) h.hook) fun hl =>
    hl.change hc h.late h.born

/-- It keeps the job's turn. -/
theorem Turn.change (h : g.Turn ids s) (hc : Change s t) : g.Turn ids t where
  awaited := h.awaited.change hc
  turn := h.turn.imp (fun hh => hh.kept (hc.kept h.awaited.born) h.awaited.hook)
    (Or.imp_right fun hl => hl.change hc h.awaited.late h.awaited.born)

/-! ## Steps of the job -/

/-- What a step about delivery `i` does: the deliveries that come before are at most those of
before, without those of `del`, and `i` alone gets the entry `e`. -/
structure Work (x : Time) (i : DeliveryId) (del : List DeliveryId) (e : Retry.Event (Option ℤ))
    (s t : Outbox) : Prop where
  history : ∀ d, d ≠ i → t.history d = s.history d
  entry : t.history i = e :: s.history i
  ahead : ∀ d ids, t.ahead d x ids ≤ s.ahead d x (del ++ ids)
  gone : ∀ w, s.hooks.get? w = none → t.hooks.get? w = none
  same : t.now = s.now ∧ t.nextDelivery = s.nextDelivery ∧ t.nextHook = s.nextHook ∧
    t.queued = s.queued ∧ t.rounds = s.rounds

/-- So it is for the work of a round. -/
theorem Happened.work {del : List DeliveryId} (h : g.Happened s) (hw : Work g.x i del e s t) :
    g.Happened t := by
  refine h.imp (fun ⟨since, e', heq, hsettles⟩ => ?_) (hw.gone _)
  by_cases hid : g.id = i
  · exact ⟨e :: since, e', by rw [hid, hw.entry, ← hid, heq, List.cons_append], hsettles⟩
  · exact ⟨since, e', by rw [hw.history _ hid, heq], hsettles⟩

/-- A post or a putting away of the delivery settles it. A record does not, but it comes after the
post; a step about another delivery leaves it as it is. -/
theorem Lags.work {del : List DeliveryId} (h : g.Lags (del ++ ids) k s)
    (hw : Work g.x i del e s t) (hown : g.id = i → Settles e ∨ g.Happened s) :
    g.Happened t ∨ g.Lags ids k t := by
  obtain ⟨hpast, hle⟩ := h
  by_cases hid : g.id = i
  · refine .inl ((hown hid).elim (fun hsettles => .inl ⟨[], e, ?_, hsettles⟩) fun hh => hh.work hw)
    rw [hid, hw.entry, ← hid, hpast, List.nil_append]
  · have hahead := hw.ahead g.id ids
    refine .inr ⟨(hw.history _ hid).trans hpast, ?_⟩
    rw [hw.same.2.2.2.2]
    omega

theorem Lags.nil (h : g.Lags [] k s) : g.Lags ids k s :=
  ⟨h.1, (Nat.add_le_add_right (ahead_le_nil s g.id g.x ids) _).trans h.2⟩

theorem Awaited.work {del : List DeliveryId} (h : g.Awaited s) (hw : Work g.x i del e s t)
    (hown : g.id = i → Settles e ∨ g.Happened s) : g.Awaited t where
  late := hw.same.1 ▸ h.late
  born := hw.same.2.1 ▸ h.born
  hook := hw.same.2.2.1 ▸ h.hook
  queued := hw.same.2.2.2.1 ▸ h.queued
  progress := h.progress.elim (fun hh => .inl (hh.work hw)) fun hl => Lags.work hl.nil hw hown

/-- The delivery of this turn is the one waited for only if something has happened to it now. -/
theorem Awaited.settled (h : g.Awaited s) (hw : Work g.x i ids e s t)
    (hown : g.id = i → Settles e ∨ g.Happened s) (hid : g.id = i) : g.Happened t := by
  rcases hown hid with hsettles | hh
  · rcases h.progress with hh | hl
    · exact hh.work hw
    · exact .inl ⟨[], e, by rw [hid, hw.entry, ← hid, hl.1, List.nil_append], hsettles⟩
  · exact hh.work hw

/-- The turn of a delivery is over with the step about it. -/
theorem Turn.work (h : g.Turn (i :: ids) s) (hw : Work g.x i [i] e s t)
    (hown : g.id = i → Settles e ∨ g.Happened s) : g.Turn ids t where
  awaited := h.awaited.work hw hown
  turn := by
    rcases h.turn with hh | hmem | hl
    · exact .inl (hh.work hw)
    · rcases List.mem_cons.mp hmem with heq | hmem
      · exact .inl (h.awaited.settled hw hown heq)
      · exact .inr (.inl hmem)
    · exact (Lags.work hl hw hown).imp_right .inr

/-- A step that takes nothing from the list. -/
theorem Turn.pass (h : g.Turn ids s) (hw : Work g.x i [] e s t)
    (hown : g.id = i → Settles e ∨ g.Happened s) : g.Turn ids t where
  awaited := h.awaited.work hw hown
  turn := by
    rcases h.turn with hh | hmem | hl
    · exact .inl (hh.work hw)
    · exact .inr (.inl hmem)
    · exact (Lags.work hl hw hown).imp_right .inr

theorem Awaited.cut (h : g.Awaited s) : g.Awaited s.cut :=
  ⟨h.late, h.born, h.hook, h.queued, h.progress⟩

end Target

/-- A post is work on its job. -/
theorem work_posted (x : Time) (s : Outbox) (i : DeliveryId) (request : HookRequest) :
    Target.Work x i [] (.sent s.now (statusOf (s.answer request))) s
      (s.posted (some i) request) where
  history := fun d hne => (kept_posted s hne request).history
  entry := history_self rfl (by rw [eventOf, if_pos rfl])
  ahead := fun d ids => ahead_same ids rfl
  gone := fun _ h => h
  same := ⟨rfl, rfl, rfl, rfl, rfl⟩

/-- So is a job that is put away. -/
theorem work_shelved {x : Time} {s : Outbox} {i : DeliveryId} (row : WebhookDelivery) (now : Time) :
    Target.Work x i [i] .dropped s { s with
      deliveries := s.deliveries.set i
        { row with doneAt := some now, error := some "webhook disabled" }
      log := .shelved now i :: s.log } where
  history := fun d hne => history_other rfl (by rw [eventOf, if_neg hne.symm])
  entry := history_self rfl (by rw [eventOf, if_pos rfl])
  ahead := fun d ids => ahead_set_le ids rfl rfl
  gone := fun _ h => h
  same := ⟨rfl, rfl, rfl, rfl, rfl⟩

/-- So is the record of an answer. -/
theorem work_recorded {x : Time} {s : Outbox} {i : DeliveryId} {w : WebhookId}
    (row : WebhookDelivery) {h : Webhook} (attempts : ℕ) (r : Option ℤ × Option String) {now : Time}
    (hx : x < now) (hhook : s.hooks.get? w = some h) :
    Target.Work x i [i] (.noted now r.1) s { s with
      deliveries := s.deliveries.set i (WebhookDelivery.after row attempts r now)
      hooks := s.hooks.set w (Webhook.after h r now)
      log := .recorded now i w r.1 :: s.log } where
  history := fun d hne => history_other rfl (by rw [eventOf, if_neg hne.symm])
  entry := history_self rfl (by rw [eventOf, if_pos rfl])
  ahead := fun d ids => by
    refine ahead_set_le ids rfl ?_
    have hnext : ¬now + backoff attempts ≤ x :=
      Nat.not_le.mpr (hx.trans_le (Nat.le_add_right _ _))
    simp only [isDue, WebhookDelivery.after, hnext, decide_false, Bool.and_false, Bool.false_and]
  gone := fun v hnone => by
    have hne : v ≠ w := by
      rintro rfl
      rw [hhook] at hnone
      cases hnone
    show (s.hooks.set w _).get? v = none
    rw [s.hooks.get?_set_of_ne _ hne]
    exact hnone
  same := ⟨rfl, rfl, rfl, rfl, rfl⟩

/-! ## A round -/

section Round

variable {g : Target}

theorem turn_stable (ids : List DeliveryId) : Stable (Moves env) (g.Turn ids) :=
  stable_of_change fun _ _ h hs => hs.change h

/-- Between the post of a delivery and its record. -/
def Recording (g : Target) (i : DeliveryId) (ids : List DeliveryId) (s : Outbox) : Prop :=
  g.Turn (i :: ids) s ∧ (g.id = i → g.Happened s)

theorem recording_stable (i : DeliveryId) (ids : List DeliveryId) :
    Stable (Moves env) (Recording g i ids) :=
  stable_of_change fun _ _ h hs => ⟨hs.1.change h, fun hid =>
    (hs.2 hid).kept (h.kept hs.1.awaited.born) hs.1.awaited.hook⟩

theorem shelve_turn {i : DeliveryId} {ids : List DeliveryId} {s : Outbox} (now : Time)
    (hs : g.Turn (i :: ids) s) :
    Steers (Moves env) Outbox.cut g.Awaited (fun _ t => g.Turn ids t) (fun _ t => g.Awaited t)
      (shelve i now) s := by
  refine steers_step (turn_stable (i :: ids)) hs fun t ht => ?_
  have hcut := ht.awaited.cut
  cases hget : t.deliveries.get? i with
  | none => exact ⟨hcut, fun _ => hcut, fun _ => hcut.cut, fun _ h => (by cases h), fun _ _ => hcut⟩
  | some row =>
      have hturn := ht.work (work_shelved row now) fun _ => .inl trivial
      exact ⟨hcut, fun _ => hcut, fun _ => hturn.awaited.cut, fun _ _ => hturn, fun _ h =>
        (by cases h)⟩

theorem deliver_turn {i : DeliveryId} {ids : List DeliveryId} {s : Outbox} (hook : Webhook)
    (event : String) (payload : Payload) (hs : g.Turn (i :: ids) s) :
    Steers (Moves env) Outbox.cut g.Awaited (fun _ t => Recording g i ids t)
      (fun _ t => g.Awaited t) (deliver env hook event payload (some i)) s := by
  refine steers_bind (P := fun _ t => Recording g i ids t)
    (steers_step (turn_stable (i :: ids)) hs fun t ht => ?_) fun a t ht => ?_
  · have hcut := ht.awaited.cut
    have hwork := work_posted g.x t i
      (hookRequest env hook.url hook.secret event payload (some i))
    have hturn := ht.pass hwork fun _ => .inl trivial
    exact ⟨hcut, fun _ => hcut, fun _ => hturn.awaited.cut,
      fun _ _ => ⟨hturn, ht.awaited.settled hwork fun _ => .inl trivial⟩, fun _ h => (by cases h)⟩
  · cases a with
    | ok c => exact steers_pure ht
    | error e => exact steers_pure ht

theorem record_turn {i : DeliveryId} {ids : List DeliveryId} {s : Outbox} {w : WebhookId}
    {attempts : ℕ} {r : Option ℤ × Option String} {now : Time} (hx : g.x < now)
    (hs : Recording g i ids s) :
    Steers (Moves env) Outbox.cut g.Awaited (fun _ t => g.Turn ids t) (fun _ t => g.Awaited t)
      (record i w attempts r now) s := by
  refine steers_step (recording_stable i ids) hs fun t ht => ?_
  have hcut := ht.1.awaited.cut
  cases hget : t.deliveries.get? i with
  | none => exact ⟨hcut, fun _ => hcut, fun _ => hcut.cut, fun _ h => (by cases h), fun _ _ => hcut⟩
  | some row =>
      cases hhook : t.hooks.get? w with
      | none => exact ⟨hcut, fun _ => hcut, fun _ => hcut.cut, fun _ h => (by cases h),
        fun _ _ => hcut⟩
      | some h =>
          -- the record settles nothing, but the post before it has
          have hturn := ht.1.work (work_recorded row attempts r hx hhook) fun hid => .inr (ht.2 hid)
          exact ⟨hcut, fun _ => hcut, fun _ => hturn.awaited.cut, fun _ _ => hturn, fun _ h =>
            (by cases h)⟩

theorem dispatchOne_turn {d : Due} {ids : List DeliveryId} {s : Outbox}
    (hs : g.Turn (d.id :: ids) s) :
      Steers (Moves env) Outbox.cut g.Awaited (fun _ t => g.Turn ids t)
        (fun _ t => g.Awaited t) (dispatchOne env d) s := by
  refine steers_ite (fun _ => ?_) fun _ => ?_
  · exact steers_read (turn_stable _) hs (fun t ht => ⟨ht.awaited.cut, fun _ => ht.awaited.cut⟩)
      fun t ht => shelve_turn _ ht
  · refine steers_bind (deliver_turn _ _ _ hs) fun r t ht => ?_
    exact steers_read (recording_stable _ _) ht
      (fun t ht => ⟨ht.1.awaited.cut, fun _ => ht.1.awaited.cut⟩)
      fun t ht => record_turn ht.1.awaited.late ht

/-- What the rows that are read mean for the delivery. -/
theorem turn_due {s : Outbox} {now : Time} (hb : Ordered env s) (hnow : g.x ≤ now)
    (hsnow : now ≤ s.now) (hs : g.Awaited s) {L : Life (Option ℤ)}
    (hlives : Lives policy g.queued.1.createdAt g.past L)
    (hdue : L.due = some g.x) : g.Turn ((s.due now g.limit).map Due.id) s := by
  refine ⟨hs, ?_⟩
  rcases hs.progress with hh | hl
  · exact .inl hh
  obtain ⟨⟨L', hlives', hplaced⟩, -, -⟩ := hb.account g.id g.queued hs.queued
  rw [hl.1] at hlives'
  obtain rfl := hlives'.unique hlives
  have hagrees := hlives.agrees
  unfold Placed at hplaced
  cases hget : s.deliveries.get? g.id with
  | none =>
      rw [hget] at hplaced
      rcases hplaced with rfl | hgone
      · cases hdue
      · exact .inl (.inr hgone)
  | some row =>
      rw [hget] at hplaced
      obtain ⟨hstands, hsame⟩ := hplaced
      obtain ⟨h, hhook⟩ := Option.isSome_iff_exists.mp (hb.row_hook g.id row hget)
      have hrow : row.nextAt = g.x ∧ row.doneAt = none ∧ row.attempts < MAX_ATTEMPTS := by
        cases L' with
        | waiting n t =>
            obtain ⟨rfl, rfl, hundone⟩ := hstands
            exact ⟨Option.some.inj hdue, hundone, hagrees.2.1⟩
        | sent n t a =>
            obtain ⟨rfl, rfl, hundone⟩ := hstands
            exact ⟨Option.some.inj hdue, hundone, hagrees.2.1⟩
        | ended => cases hdue
      have hisDue : isDue now row := by
        simp only [isDue, Bool.and_eq_true, decide_eq_true_eq]
        exact ⟨⟨hrow.2.1, hrow.1 ▸ hnow⟩, hrow.2.2⟩
      have hnodup := (ready_due g.limit hb hsnow).nodup
      refine .inr ((due_or_full g.limit hget hisDue hhook hrow.1.le hnodup).imp_right fun hfull =>
        ⟨hl.1, ?_⟩)
      have hquota := hl.2
      rw [Nat.mul_add, Nat.mul_one]
      rw [Nat.add_zero] at hquota
      omega

theorem sweep_turn {s : Outbox} (now : Time) (hs : g.Turn [] s) :
    Steers (Moves env) Outbox.cut g.Awaited (fun _ t => g.Awaited t)
      (fun _ t => g.Awaited t) (sweep now) s := by
  refine steers_step (turn_stable []) hs fun t ht => ?_
  have hcut := ht.awaited.cut
  have hswept : g.Awaited { t with
      deliveries := t.deliveries.keep fun id => !((t.deliveries.get? id).any (longDone now))
      rounds := t.rounds + 1 } := by
    refine ⟨ht.awaited.late, ht.awaited.born, ht.awaited.hook, ht.awaited.queued, ?_⟩
    refine ht.turn.imp id fun hl => ?_
    obtain ⟨hpast, hle⟩ := hl.resolve_left (List.not_mem_nil)
    refine ⟨hpast, ?_⟩
    have hahead := ahead_keep_le (p := fun id => !((t.deliveries.get? id).any (longDone now)))
      (s := t) (d := g.id) (x := g.x) [] (t := { t with
        deliveries := t.deliveries.keep fun id => !((t.deliveries.get? id).any (longDone now))
        rounds := t.rounds + 1 }) rfl
    exact (Nat.add_le_add_right hahead _).trans hle
  exact ⟨hcut, fun _ => hcut, fun _ => hswept.cut, fun _ _ => hswept, fun _ h => (by cases h)⟩

theorem dispatchWebhooks_turn {s : Outbox} (hb : Ordered env s) (hs : g.Awaited s)
    {L : Life (Option ℤ)} (hlives : Lives policy g.queued.1.createdAt g.past L)
    (hdue : L.due = some g.x) :
    Steers (Moves env) Outbox.cut g.Awaited (fun _ t => g.Awaited t) (fun _ t => g.Awaited t)
      (dispatchWebhooks env g.limit) s := by
  have hstable : Stable (Moves env) fun s => Ordered env s ∧ g.Awaited s :=
    stable_of_change fun _ _ h hs => ⟨hs.1.change h, hs.2.change h⟩
  have hstable' : ∀ now, Stable (Moves env) fun s =>
    (Ordered env s ∧ g.Awaited s) ∧ now ≤ s.now := fun now =>
    stable_of_change fun _ _ h hs => ⟨⟨hs.1.1.change h, hs.1.2.change h⟩, hs.2.trans h.now_le⟩
  refine steers_read hstable ⟨hb, hs⟩ (fun t ht => ⟨ht.2.cut, fun _ => ht.2.cut⟩) fun t ht => ?_
  refine steers_read (hstable' t.now) ⟨ht, le_rfl⟩ (fun t ht => ⟨ht.1.2.cut, fun _ => ht.1.2.cut⟩)
    fun t' ht' => ?_
  have hturn := turn_due ht'.1.1 ht.2.late.le ht'.2 ht'.1.2 hlives hdue
  refine steers_bind (steers_forEach (A := fun ds => g.Turn (ds.map Due.id)) rfl (fun _ _ => rfl)
    (fun d ds s hs => dispatchOne_turn hs) _ hturn) fun _ t ht => ?_
  refine steers_read (turn_stable []) ht (fun t ht => ⟨ht.awaited.cut, fun _ => ht.awaited.cut⟩)
    fun t ht => ?_
  exact steers_bind (sweep_turn _ ht) fun _ t ht => steers_pure ht

end Round

/-! ## Runs -/

/-- A delivery that is overdue, with so many that may come before it, is posted or put away before
more rounds have come to their end than its predecessors fill, unless its webhook is deleted. -/
theorem due_within {limit : ℕ} (hlimit : 0 < limit) {now : Time} {admins : Table AdminId AdminRole}
    {answer : HookRequest → Except String ℤ} {s : Outbox} {w : Worker Unit Outbox AppError}
    (h₀ : Outbox.Run env limit ⟨start now admins answer, none⟩ ⟨s, none⟩)
    (h : Outbox.Run env limit ⟨s, none⟩ w) {d : DeliveryId} {row : WebhookDelivery}
    (hrow : s.deliveries.get? d = some row) (hundone : row.doneAt = none)
    (hlate : row.nextAt < s.now)
    (hrounds : s.rounds + s.ahead d row.nextAt [] / limit < w.store.rounds) :
    (∃ since e, w.store.history d = since ++ e :: s.history d ∧ Settles e) ∨
      w.store.hooks.get? row.webhookId = none := by
  have hb : Ordered env s := Run.idle h₀
  obtain ⟨q, hq⟩ := Option.isSome_iff_exists.mp (hb.row_queued d row hrow)
  obtain ⟨⟨L, hlives, hplaced⟩, -, -⟩ := hb.account d q hq
  unfold Placed at hplaced
  rw [hrow] at hplaced
  let g : Target := ⟨d, q, row.nextAt, s.history d, limit,
    s.ahead d row.nextAt [] + limit * s.rounds⟩
  have hdue : L.due = some g.x := by
    rcases open_of_undone hplaced.1 hundone with rfl | ⟨a, rfl⟩
    · rfl
    · rfl
  have hg : g.Awaited s := ⟨hlate, hb.lt_of_queued hq, hb.queued_hook d q hq, hq,
    .inr ⟨rfl, le_rfl⟩⟩
  have hstable : Stable (Moves env) fun s => Ordered env s ∧ g.Awaited s :=
    stable_of_change fun _ _ h hs => ⟨hs.1.change h, hs.2.change h⟩
  obtain ⟨-, -, hend⟩ := Worker.Run.invariant h hstable (fun _ hs => ⟨hs.1.cut, hs.2.cut⟩)
    (fun p hp s hs => by
      rw [hp]
      refine steers_attempt (steers_bind (steers_and (dispatchWebhooks_steers limit hs.1)
        (dispatchWebhooks_turn hs.1 hs.2 hlives hdue)) fun _ t ht => ?_) fun _ t ht => ?_
      · exact steers_pure ht
      · exact steers_pure ht) rfl ⟨hb, hg⟩
  rcases hend.progress with hh | hl
  · rw [hplaced.2.1]
    exact hh
  · exfalso
    -- the rounds that came to their end have taken more predecessors than there were
    have hquota : w.store.ahead d row.nextAt [] + limit * (w.store.rounds + 0) ≤
        s.ahead d row.nextAt [] + limit * s.rounds := hl.2
    have hlt := Nat.lt_mul_div_succ (s.ahead d row.nextAt []) hlimit
    have hmul : limit * (s.rounds + (s.ahead d row.nextAt [] / limit + 1)) ≤
        limit * w.store.rounds :=
      Nat.mul_le_mul_left limit hrounds
    rw [Nat.mul_add] at hmul
    rw [Nat.add_zero] at hquota
    omega

/-- The delivery of the run in `Life.lean`, a millisecond after it was queued. -/
theorem due_within_paid :
    let s := { paidQueued with now := paidQueued.now + 1 }
    let t := ((dispatchWebhooks paidEnv 25).void.run s).2
    (∃ since e, t.history 0 = since ++ e :: s.history 0 ∧ Settles e) ∨
      t.hooks.get? paidRow.webhookId = none := by
  intro s t
  have hqueued : Outbox.Run paidEnv 25 ⟨paidStart, none⟩ ⟨s, none⟩ :=
    Worker.Run.env ((Call.moves _ _).trans ((Call.moves _ _).tail (.inr (.wait paidQueued 1)))) none
  have hrow : s.deliveries.get? 0 = some paidRow := rfl
  exact due_within (by decide) hqueued (Run.round 25 s) hrow rfl (by decide) (by decide)

end Outbox

end SRPanel
