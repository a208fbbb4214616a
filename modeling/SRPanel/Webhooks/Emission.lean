import SRPanel.Lib.Pool
import SRPanel.Webhooks.Life

/-!
# No event is missed

A process that has found no active webhook does not look again for half a minute. So once some
webhook has been switched on for that long, every event is queued, in whichever process it happens:
once for each webhook that asks for it and may hear of it, and for no other (`event_reaches`).
-/

namespace SRPanel

open Interleaving Prog

namespace Outbox

variable {env : WebhookEnv}

/-! ## Queueing for several webhooks -/

theorem enqueue_spec (event : String) (payload : Payload) (targets : List WebhookId) (s : Outbox) :
    (targets.foldl (enqueue event payload) s).nextDelivery = s.nextDelivery + targets.length ∧
      (targets.foldl (enqueue event payload) s).now = s.now ∧
      ∀ d, (targets.foldl (enqueue event payload) s).deliveries.get? d =
        if s.nextDelivery ≤ d then ((targets[d - s.nextDelivery]?).map fun w =>
          freshDelivery w event payload s.now).or (s.deliveries.get? d)
        else s.deliveries.get? d := by
  induction targets generalizing s with
  | nil => exact ⟨rfl, rfl, fun d => by simp⟩
  | cons w targets ih =>
      obtain ⟨hnext, hnow, hget⟩ := ih (s.enqueue event payload w)
      have hnext₁ : (s.enqueue event payload w).nextDelivery = s.nextDelivery + 1 := rfl
      have hget₁ : ∀ d, (s.enqueue event payload w).deliveries.get? d =
          if d = s.nextDelivery then
            some (freshDelivery w event payload s.now) else s.deliveries.get? d :=
        fun d => s.deliveries.get?_set _ _ _
      refine ⟨by rw [List.foldl_cons, hnext, hnext₁, List.length_cons, Nat.add_assoc,
        Nat.add_comm 1], hnow, fun d => ?_⟩
      rw [List.foldl_cons, hget, hget₁, hnext₁]
      rcases Nat.lt_trichotomy d s.nextDelivery with hlt | heq | hgt
      · rw [if_neg (Nat.not_le.mpr (Nat.lt_succ_of_lt hlt)), if_neg hlt.ne,
        if_neg (Nat.not_le.mpr hlt)]
      · subst heq
        rw [if_neg (Nat.not_succ_le_self _), if_pos rfl, if_pos le_rfl, Nat.sub_self]
        rfl
      · have hpred : ∀ m n : ℕ, n < m → m - n = m - (n + 1) + 1 := by omega
        have hsub := hpred d s.nextDelivery hgt
        rw [if_pos (Nat.succ_le_of_lt hgt), if_neg hgt.ne', if_pos hgt.le, hsub,
          List.getElem?_cons_succ]
        rfl

/-! ## The cache -/

/-- The webhooks that are switched on. -/
def activeCount (s : Outbox) : ℕ := (s.hooks.rows.filter fun r => r.2.isActive).length

/-- The webhook is there and switched on. -/
def ActiveIn (v : WebhookId) (s : Outbox) : Prop := ∃ h, s.hooks.get? v = some h ∧ h.isActive

/-- An active webhook is counted. -/
theorem ActiveIn.count_pos {v : WebhookId} {s : Outbox} (h : ActiveIn v s) : 0 < s.activeCount := by
  obtain ⟨hook, hget, hactive⟩ := h
  exact List.length_pos_of_mem
    (List.mem_filter.mpr ⟨(s.hooks.mem_rows_iff v hook).mpr hget, hactive⟩)

/-- Caches are left as they are, or emptied. -/
def Quiet (s t : Outbox) : Prop :=
  t.now = s.now ∧ ∀ p, t.hookCountCache p = s.hookCountCache p ∨ t.hookCountCache p = none

/-- Nothing happening is quiet. -/
theorem Quiet.refl (s : Outbox) : Quiet s s := ⟨rfl, fun _ => .inl rfl⟩

/-- So are two quiet stretches. -/
theorem Quiet.trans (s₁ s₂ s₃ : Outbox) (h : Quiet s₁ s₂) (h' : Quiet s₂ s₃) : Quiet s₁ s₃ := by
  refine ⟨h'.1.trans h.1, fun p => ?_⟩
  rcases h'.2 p with heq | hnone
  · rw [heq]
    exact h.2 p
  · exact .inr hnone

/-- A step that leaves clock and caches is quiet. -/
theorem quiet_same {s t : Outbox} (hnow : t.now = s.now)
    (hcache : t.hookCountCache = s.hookCountCache) : Quiet s t :=
  ⟨hnow, fun p => .inl (congrFun hcache p)⟩

/-- So is a read. -/
theorem quiet_read {α : Type} (f : Outbox → α) : (Prog.query () f : OutboxProg α).Keeps Quiet :=
  keeps_query Quiet.refl () f

/-- A step that changes neither clock nor caches. -/
theorem quiet_step {α : Type} {F : Outbox → Except AppError α × Outbox}
    (h : ∀ s, (F s).2.now = s.now ∧ (F s).2.hookCountCache = s.hookCountCache) :
    (Prog.step () F).Keeps Quiet :=
  keeps_step fun s => quiet_same (h s).1 (h s).2

/-- So is the emptying of a cache. -/
theorem quiet_invalidate (proc : ℕ) : (invalidateWebhookCache proc).Keeps Quiet := by
  refine keeps_modify fun s => ⟨rfl, fun p => ?_⟩
  by_cases hp : p = proc
  · exact .inr (by rw [hp]; exact Function.update_self ..)
  · exact .inl (Function.update_of_ne hp ..)

/-- So is the look-up of a webhook. -/
theorem quiet_ownHook (adminId : AdminId) (id : WebhookId) : (ownHook adminId id).Keeps Quiet := by
  refine keeps_bind (quiet_read _) fun hook => ?_
  split
  · exact keeps_throw _
  · exact keeps_pure _

/-- So is a quiet call whose answer is thrown away. -/
theorem quiet_void {α : Type} {p : OutboxProg α} (hp : p.Keeps Quiet) : p.void.Keeps Quiet :=
  keeps_attempt (keeps_bind hp fun _ => keeps_pure _) fun _ => keeps_pure _

/-- So is a post. -/
theorem quiet_deliver (hook : Webhook) (event : String) (payload : Payload)
    (id : Option DeliveryId) : (deliver env hook event payload id).Keeps Quiet := by
  refine keeps_bind (quiet_step fun s => ⟨rfl, rfl⟩) fun answer => ?_
  split <;> exact keeps_pure _

/-- So are the deliveries of a round, by induction on the list. -/
theorem quiet_dispatchEach (ds : List Due) : (dispatchEach env ds).Keeps Quiet := by
  induction ds with
  | nil => exact keeps_pure _
  | cons d ds ih =>
      refine keeps_bind (keeps_ite ?_ ?_) fun _ => ih
      · refine keeps_bind (quiet_read _) fun now => quiet_step fun s => ?_
        split <;> exact ⟨rfl, rfl⟩
      · refine keeps_bind (quiet_deliver _ _ _ _) fun r => keeps_bind (quiet_read _) fun now => ?_
        refine quiet_step fun s => ?_
        split <;> exact ⟨rfl, rfl⟩

/-- So is a round. -/
theorem quiet_dispatchWebhooks (limit : ℕ) : (dispatchWebhooks env limit).Keeps Quiet := by
  refine keeps_bind (quiet_read _) fun now => keeps_bind (quiet_read _) fun due => ?_
  refine keeps_bind (quiet_dispatchEach due) fun _ => keeps_bind (quiet_read _) fun now => ?_
  exact keeps_bind (quiet_step fun s => ⟨rfl, rfl⟩) fun _ => keeps_pure _

theorem foldl_enqueue_cache (event : String) (payload : Payload) (targets : List WebhookId)
    (s : Outbox) : (targets.foldl (enqueue event payload) s).hookCountCache = s.hookCountCache := by
  induction targets generalizing s with
  | nil => rfl
  | cons w targets ih => exact ih _

theorem quiet_enrich (event : String) (target : Option String) :
    (enrich event target).Keeps Quiet := by
  unfold enrich
  split
  · exact keeps_pure _
  · exact keeps_ite (keeps_bind (quiet_read _) fun _ => keeps_pure _) (keeps_pure _)

/-- The part of `emitEvent` after the look at the cache. -/
def emitRest (env : WebhookEnv) (adminId : Option AdminId) (adminJson event eventJson : String)
    (payload : Payload) (target : Option String) : OutboxProg Unit := do
  let hooks ← .query () fun s => (s.hooks.rows.filter fun r => s.hears adminId r.2).map fun r =>
    (r.1, r.2.events)
  let targets := hooks.filter fun h => wants h.2 event
  if targets.isEmpty then pure ()
  else do
    let extra ← enrich event target
    let now ← clock
    let body := spread (spread [("event", eventJson), ("at", env.isoTime now),
      ("adminId", adminJson)] payload) extra
    createMany (targets.map Prod.fst) event body

theorem quiet_emitRest (adminId : Option AdminId) (adminJson event eventJson : String)
    (payload : Payload) (target : Option String) :
    (emitRest env adminId adminJson event eventJson payload target).Keeps Quiet := by
  refine keeps_bind (quiet_read _) fun hooks => keeps_ite (keeps_pure _) ?_
  refine keeps_bind (quiet_enrich event target) fun extra => keeps_bind (quiet_read _) fun now => ?_
  refine quiet_step fun s => ?_
  split
  · exact ⟨(enqueue_spec event _ _ s).2.1, foldl_enqueue_cache event _ _ s⟩
  · exact ⟨rfl, rfl⟩

theorem emitEvent_eq (proc : ℕ) (adminId : Option AdminId) (adminJson event eventJson : String)
    (payload : Payload) (target : Option String) :
      emitEvent env proc adminId adminJson event eventJson payload target = anyHooks proc >>=
        fun any => if !any then pure
          () else emitRest env adminId adminJson event eventJson payload target :=
  rfl

/-- What a process finds when it looks at its cache alone. -/
theorem anyHooks_run (proc : ℕ) (s : Outbox) :
    (∃ c, s.hookCountCache proc = some c ∧ s.now < c.at' + 30000 ∧ (anyHooks proc).run s =
      (.ok (decide (0 < c.n)), s)) ∨ (∀ c, s.hookCountCache proc = some c → c.at' + 30000 ≤ s.now) ∧
        (anyHooks proc).run s = (.ok (decide (0 < s.activeCount)), { s with
          hookCountCache := Function.update s.hookCountCache proc
            (some ⟨s.now, s.activeCount⟩) }) := by
  unfold anyHooks
  simp only [run_bind, run_query]
  cases hc : s.hookCountCache proc with
  | none => exact .inr ⟨fun c h => (by cases h), rfl⟩
  | some c =>
      by_cases hfresh : s.now < c.at' + 30000
      · refine .inl ⟨c, rfl, hfresh, ?_⟩
        have hfilter : (some c).filter (fun c' => decide (s.now < c'.at' + 30000)) = some c := by
          simp [Option.filter, hfresh]
        rw [hfilter]
        rfl
      · refine .inr ⟨fun c' h => ?_, ?_⟩
        · obtain rfl := Option.some.inj h
          exact Nat.not_lt.mp hfresh
        · have hfilter : (some c).filter (fun c' => decide (s.now < c'.at' + 30000)) = none := by
            simp [Option.filter, hfresh]
          rw [hfilter]
          rfl

/-! ## Runs of whole calls -/

/-- A call of some process, or a round of the job. -/
def errand (env : WebhookEnv) (limit : ℕ) : Option Call → OutboxProg Unit
  | some c => c.task env
  | none => (dispatchWebhooks env limit).void

/-- One call after the other, and changes of the world. -/
abbrev SerialStep (env : WebhookEnv) (limit : ℕ) : Outbox → Outbox → Prop :=
  Serial.Step (errand env limit) World fun _ _ => True

/-- A cache after some calls: it is as it was, or emptied, or holds the count of that time. -/
def CacheAfter (s t : Outbox) : Prop :=
  t.now = s.now ∧ ∀ p, t.hookCountCache p = s.hookCountCache p ∨ t.hookCountCache p = none ∨
    t.hookCountCache p = some ⟨s.now, s.activeCount⟩

/-- A quiet step leaves the caches as a call may. -/
theorem Quiet.cacheAfter {s t : Outbox} (h : Quiet s t) : CacheAfter s t :=
  ⟨h.1, fun p => (h.2 p).imp_right .inl⟩

/-- So does every errand. -/
theorem errand_cache (limit : ℕ) (c : Option Call) (s : Outbox) :
    CacheAfter s ((errand env limit c).run s).2 := by
  have hquiet : ∀ {p : OutboxProg Unit}, p.Keeps Quiet → CacheAfter s (p.run s).2 := fun hp =>
    (hp.run Quiet.refl Quiet.trans s).cacheAfter
  cases c with
  | none => exact hquiet (quiet_void (quiet_dispatchWebhooks limit))
  | some c =>
      cases c with
      | emitEvent proc adminId adminJson event eventJson payload target =>
          show CacheAfter s
              ((emitEvent env proc adminId adminJson event eventJson payload target).run s).2
          rw [emitEvent_eq, run_bind]
          have hrest : ∀ (any : Bool) (t : Outbox), Quiet t ((if !any then pure () else
              emitRest env adminId adminJson event eventJson payload target :
                OutboxProg Unit).run t).2 := fun any t =>
            (keeps_ite (keeps_pure _) (quiet_emitRest _ _ _ _ _ _)).run Quiet.refl Quiet.trans t
          -- the count is cached already, or is put into the cache now
          rcases anyHooks_run proc s with ⟨c, -, -, hrun⟩ | ⟨-, hrun⟩
          · rw [hrun]
            exact (hrest _ s).cacheAfter
          · rw [hrun]
            obtain ⟨hnow, hcache⟩ := hrest (decide (0 < s.activeCount)) { s with
              hookCountCache := Function.update s.hookCountCache proc
                (some ⟨s.now, s.activeCount⟩) }
            refine ⟨hnow, fun p => ?_⟩
            rcases hcache p with heq | hnone
            · rw [heq]
              by_cases hp : p = proc
              · exact .inr (.inr (by rw [hp]; exact Function.update_self ..))
              · exact .inl (Function.update_of_ne hp ..)
            · exact .inr (.inl hnone)
      | createWebhook proc adminId url events isActive token =>
          refine hquiet (quiet_void (keeps_bind (quiet_invalidate proc) fun _ =>
            quiet_step fun s => ?_))
          split <;> exact ⟨rfl, rfl⟩
      | updateWebhook proc adminId id input =>
          refine hquiet (keeps_bind (quiet_ownHook adminId id) fun _ =>
            keeps_bind (quiet_invalidate proc) fun _ => quiet_step fun s => ?_)
          split <;> exact ⟨rfl, rfl⟩
      | deleteWebhook proc adminId id =>
          refine hquiet (keeps_bind (quiet_ownHook adminId id) fun _ =>
            keeps_bind (quiet_invalidate proc) fun _ => quiet_step fun s => ?_)
          split <;> exact ⟨rfl, rfl⟩
      | testWebhook adminId id message =>
          refine hquiet (quiet_void (keeps_bind (quiet_ownHook adminId id) fun _ =>
            keeps_bind (quiet_read _) fun _ => keeps_bind (quiet_deliver _ _ _ _) fun r =>
              keeps_bind (quiet_read _) fun _ => keeps_bind (quiet_step fun s => ?_) fun _ =>
                keeps_pure _))
          split <;> exact ⟨rfl, rfl⟩
      | pruneLogs keepDays =>
          exact hquiet (keeps_bind (quiet_read _) fun _ => keeps_ite (keeps_pure _)
            (quiet_step fun s => ⟨rfl, rfl⟩))
      | deleteAdmin adminId => exact hquiet (quiet_step fun s => ⟨rfl, rfl⟩)

theorem World.cache {s t : Outbox} (h : World s t) :
    s.now ≤ t.now ∧ t.hookCountCache = s.hookCountCache := by
  cases h with
  | wait ms => exact ⟨Nat.le_add_right _ _, rfl⟩
  | admin => exact ⟨le_rfl, rfl⟩
  | clients => exact ⟨le_rfl, rfl⟩
  | answer => exact ⟨le_rfl, rfl⟩
  | rank => exact ⟨le_rfl, rfl⟩

/-- Counts are of times that have come, and one that is later than `t₀` is not zero. -/
def Counted (t₀ : Time) (s : Outbox) : Prop :=
  t₀ ≤ s.now ∧ ∀ p c, s.hookCountCache p = some c → c.at' ≤ s.now ∧ (c.at' ≤ t₀ ∨ 0 < c.n)

/-- While some webhook is switched on, no count is zero. -/
theorem Counted.step {limit : ℕ} {t₀ : Time} {s t : Outbox} (hs : Counted t₀ s)
    (h : SerialStep env limit s t) (hactive : t₀ < s.now → 0 < s.activeCount) : Counted t₀ t := by
  cases h with
  | env hw =>
      obtain ⟨hnow, hcache⟩ := hw.cache
      refine ⟨hs.1.trans hnow, fun p c hc => ?_⟩
      rw [hcache] at hc
      obtain ⟨hat, hor⟩ := hs.2 p c hc
      exact ⟨hat.trans hnow, hor⟩
  | call c _ =>
      obtain ⟨hnow, hcache⟩ := @errand_cache env limit c s
      refine ⟨hnow ▸ hs.1, fun p k hk => ?_⟩
      rw [hnow]
      rcases hcache p with heq | hnone | hcount
      · exact hs.2 p k (heq ▸ hk)
      · rw [hnone] at hk
        cases hk
      · rw [hcount] at hk
        obtain rfl := Option.some.inj hk
        refine ⟨le_rfl, ?_⟩
        rcases Nat.lt_or_ge t₀ s.now with hlt | hge
        · exact .inr (hactive hlt)
        · exact .inl hge

/-- Counts are of times that have come. -/
def Timed (s : Outbox) : Prop := ∀ p c, s.hookCountCache p = some c → c.at' ≤ s.now

/-- Caches stay dated by the past. -/
theorem Timed.step {limit : ℕ} {s t : Outbox} (hs : Timed s) (h : SerialStep env limit s t) :
    Timed t := by
  cases h with
  | env hw =>
      obtain ⟨hnow, hcache⟩ := hw.cache
      exact fun p c hc => (hs p c (hcache ▸ hc)).trans hnow
  | call c _ =>
      obtain ⟨hnow, hcache⟩ := @errand_cache env limit c s
      intro p k hk
      rw [hnow]
      rcases hcache p with heq | hnone | hcount
      · exact hs p k (heq ▸ hk)
      · rw [hnone] at hk
        cases hk
      · rw [hcount] at hk
        obtain rfl := Option.some.inj hk
        exact le_rfl

/-- Whole calls, one after the other, are a run of the worker amid others. -/
theorem worker_of_serial {limit : ℕ} {s t : Outbox}
    (h : Serial.Run (errand env limit) World (fun _ _ => True) s t) :
    Outbox.Run env limit ⟨s, none⟩ ⟨t, none⟩ := by
  induction h with
  | refl => exact .refl
  | tail _ hstep ih =>
      refine ih.trans ?_
      cases hstep with
      | env hw => exact Worker.Run.env (.single (.inr hw)) none
      | call c _ =>
          cases c with
          | none => exact Run.round limit _
          | some c => exact Worker.Run.env (c.moves _) none

/-- Calls one after the other, during which the webhook stays switched on. -/
def Steady (env : WebhookEnv) (limit : ℕ) (v : WebhookId) : Outbox → Outbox → Prop :=
  Relation.ReflTransGen fun s t => SerialStep env limit s t ∧ ActiveIn v t

/-- A steady run is a serial one. -/
theorem Steady.serial {limit : ℕ} {v : WebhookId} {s t : Outbox} (h : Steady env limit v s t) :
    Serial.Run (errand env limit) World (fun _ _ => True) s t := by
  induction h with
  | refl => exact .refl
  | tail _ hstep ih => exact ih.tail hstep.1

theorem Steady.counted {limit : ℕ} {v : WebhookId} {s t : Outbox} (h : Steady env limit v s t)
    (hs : Timed s) (hv : ActiveIn v s) : Counted s.now t ∧ ActiveIn v t := by
  induction h with
  | refl => exact ⟨⟨le_rfl, fun p c hc => ⟨hs p c hc, .inl (hs p c hc)⟩⟩, hv⟩
  | tail _ hstep ih => exact ⟨ih.1.step hstep.1 fun _ => ih.2.count_pos, hstep.2⟩

/-! ## An event -/

/-- The webhooks that an event is queued for. -/
def targets (s : Outbox) (adminId : Option AdminId) (event : String) : List WebhookId :=
  (((s.hooks.rows.filter fun r => s.hears adminId r.2).map fun r =>
    (r.1, r.2.events)).filter fun h =>
    wants h.2 event).map Prod.fst

/-- The webhook may hear of what concerns the admin, and asks for the event. -/
def Asks (s : Outbox) (adminId : Option AdminId) (event : String) (w : WebhookId) : Prop :=
  ∃ h, s.hooks.get? w = some h ∧ s.hears adminId h ∧ wants h.events event

theorem mem_targets {s : Outbox} {adminId : Option AdminId} {event : String} {w : WebhookId} :
    w ∈ s.targets adminId event ↔ s.Asks adminId event w := by
  unfold targets Asks
  simp only [List.mem_map, List.mem_filter, Prod.exists, exists_and_right, exists_eq_right]
  constructor
  · rintro ⟨events, ⟨w', h, ⟨hmem, hhears⟩, heq⟩, hwants⟩
    obtain ⟨rfl, rfl⟩ := Prod.mk.inj heq
    exact ⟨h, (s.hooks.mem_rows_iff _ h).mp hmem, hhears, hwants⟩
  · rintro ⟨h, hget, hhears, hwants⟩
    exact ⟨h.events, ⟨w, h, ⟨(s.hooks.mem_rows_iff w h).mpr hget, hhears⟩, rfl⟩, hwants⟩

/-- No webhook is a target twice. -/
theorem nodup_targets (s : Outbox) (adminId : Option AdminId) (event : String) :
    (s.targets adminId event).Nodup := by
  have hsub : (s.targets adminId event).Sublist (s.hooks.rows.map Prod.fst) := by
    refine (List.filter_sublist.map Prod.fst).trans ?_
    rw [List.map_map]
    exact List.filter_sublist.map Prod.fst
  exact hsub.nodup s.hooks.nodup_keys

theorem enrich_run (event : String) (target : Option String) (s : Outbox) :
    ∃ extra, (enrich event target).run s = (.ok extra, s) := by
  unfold enrich
  split
  · exact ⟨_, rfl⟩
  · split
    · rw [run_bind, run_query]
      exact ⟨_, rfl⟩
    · exact ⟨_, rfl⟩

/-- Past the look at the cache, the event is queued for all its targets. -/
theorem emitRest_run (adminId : Option AdminId) (adminJson event eventJson : String)
    (payload : Payload) (target : Option String) (s : Outbox) : ∃ body,
      (emitRest env adminId adminJson event eventJson payload target).run s =
        (.ok (), (s.targets adminId event).foldl (enqueue event body) s) := by
  unfold emitRest
  rw [run_bind, run_query]
  show ∃ body, Prog.run (ite _ _ _) s = _
  split
  · next hempty =>
    refine ⟨[], ?_⟩
    have htargets : s.targets adminId event = [] := by
      unfold targets
      rw [List.isEmpty_iff.mp hempty]
      rfl
    rw [htargets]
    rfl
  · obtain ⟨extra, hextra⟩ := enrich_run event target s
    rw [run_bind, hextra]
    show ∃ body, Prog.run (clock >>= _) s = _
    rw [run_bind]
    refine ⟨spread (spread [("event", eventJson), ("at", env.isoTime s.now),
      ("adminId", adminJson)] payload) extra, ?_⟩
    show Prog.run (createMany (s.targets adminId event) event _) s = _
    unfold createMany
    rw [run_step, if_pos]
    refine List.all_eq_true.mpr fun w hw => ?_
    obtain ⟨h, hget, -⟩ := mem_targets.mp hw
    rw [hget]
    rfl

/-- A new row of the queue for the webhook. -/
def Queues (s t : Outbox) (event : String) (d : DeliveryId) (w : WebhookId) : Prop :=
  s.deliveries.get? d = none ∧ ∃ payload,
    t.deliveries.get? d = some (freshDelivery w event payload s.now)

/-- Half a minute after a webhook was switched on, a process looks and finds it, or has seen some
webhook since. -/
private theorem anyHooks_counted {t₀ : Time} {v : WebhookId} {s : Outbox} (hs : Counted t₀ s)
    (hv : ActiveIn v s) (hlong : t₀ + 30000 ≤ s.now) (proc : ℕ) :
    ∃ u, (anyHooks proc).run s = (.ok true, u) ∧ u.deliveries = s.deliveries ∧
      u.hooks = s.hooks ∧ u.admins = s.admins ∧ u.nextDelivery = s.nextDelivery ∧
      u.now = s.now := by
  rcases anyHooks_run proc s with ⟨c, hc, hfresh, hrun⟩ | ⟨-, hrun⟩
  · have hpos : 0 < c.n := by
      refine (hs.2 proc c hc).2.resolve_left fun hle => ?_
      exact absurd (hlong.trans_lt hfresh) (Nat.not_lt.mpr (Nat.add_le_add_right hle 30000))
    rw [hrun, decide_eq_true hpos]
    exact ⟨s, rfl, rfl, rfl, rfl, rfl, rfl⟩
  · rw [hrun, decide_eq_true hv.count_pos]
    exact ⟨_, rfl, rfl, rfl, rfl, rfl, rfl⟩

/-- A new row is at the place of its webhook among the targets. -/
private theorem queues_iff {s t : Outbox} {event : String} {body : Payload}
    {targets : List WebhookId} (hnone : ∀ d, s.nextDelivery ≤ d → s.deliveries.get? d = none)
    (hget : ∀ d, t.deliveries.get? d = if s.nextDelivery ≤ d then
      ((targets[d - s.nextDelivery]?).map fun w => freshDelivery w event body s.now).or
        (s.deliveries.get? d) else s.deliveries.get? d) (d : DeliveryId) (w : WebhookId) :
    Queues s t event d w ↔ s.nextDelivery ≤ d ∧ targets[d - s.nextDelivery]? = some w := by
  unfold Queues
  rw [hget]
  constructor
  · rintro ⟨hold, p, hnew⟩
    split at hnew
    · next hd =>
      rw [hold, Option.or_none] at hnew
      obtain ⟨w', hw', heq⟩ := Option.map_eq_some_iff.mp hnew
      exact ⟨hd, hw'.trans (congrArg (some ∘ WebhookDelivery.webhookId) heq)⟩
    · rw [hold] at hnew
      cases hnew
  · rintro ⟨hd, hw⟩
    rw [if_pos hd, hw]
    exact ⟨hnone d hd, body, rfl⟩

/-- Once a webhook has been switched on for half a minute, an event that happens in any process is
queued once for each webhook that may hear of it and asks for it, and for no other. -/
theorem event_reaches {limit : ℕ} {now : Time} {admins : Table AdminId AdminRole}
    {answer : HookRequest → Except String ℤ} {s s' : Outbox} {v : WebhookId}
    (hstart : Serial.Run (errand env limit) World (fun _ _ => True) (start now admins answer) s)
    (hv : ActiveIn v s) (hsteady : Steady env limit v s s') (hlong : s.now + 30000 ≤ s'.now)
    (proc : ℕ) (adminId : Option AdminId) (adminJson event eventJson : String) (payload : Payload)
    (target : Option String) : ∃ t,
      (emitEvent env proc adminId adminJson event eventJson payload target).run s' = (.ok (), t) ∧
        (∀ d row, s'.deliveries.get? d = some row → t.deliveries.get? d = some row) ∧
        ∀ w, (s'.Asks adminId event w → ∃! d, Queues s' t event d w) ∧
          (¬s'.Asks adminId event w → ∀ d, ¬Queues s' t event d w) := by
  have htimed : Timed s := by
    have haux : ∀ {a b : Outbox}, Serial.Run (errand env limit) World (fun _ _ => True) a b →
        Timed a → Timed b := by
      intro a b h ha
      induction h with
      | refl => exact ha
      | tail _ hstep ih => exact ih.step hstep
    exact haux hstart fun p c hc => by cases hc
  obtain ⟨hcounted, hv'⟩ := hsteady.counted htimed hv
  have hbooks : Ordered env s' := Run.idle (worker_of_serial (hstart.trans hsteady.serial))
  obtain ⟨u, hrun, hdeliveries, hhooks, hadmins, hnext, hnow⟩ :=
    anyHooks_counted hcounted hv' hlong proc
  have htargets : u.targets adminId event = s'.targets adminId event := by
    unfold targets hears
    rw [hhooks, hadmins]
  obtain ⟨body, hrest⟩ := @emitRest_run env adminId adminJson event eventJson payload target u
  obtain ⟨-, -, hget⟩ := enqueue_spec event body (s'.targets adminId event) u
  rw [hdeliveries, hnext, hnow] at hget
  have hnone : ∀ d, s'.nextDelivery ≤ d → s'.deliveries.get? d = none := fun d hd => by
    cases hrow : s'.deliveries.get? d with
    | none => rfl
    | some row => exact absurd (hbooks.lt_of_row hrow) (Nat.not_lt.mpr hd)
  refine ⟨(s'.targets adminId event).foldl (enqueue event body) u, ?_, fun d row hrow => ?_,
    fun w => ?_⟩
  · rw [emitEvent_eq, run_bind, hrun, ← htargets]
    exact hrest
  · rw [hget, if_neg (Nat.not_le.mpr (hbooks.lt_of_row hrow)), hrow]
  · have hqueues := fun d => queues_iff hnone hget d w
    constructor
    · intro hasks
      obtain ⟨i, hi⟩ := List.mem_iff_getElem?.mp (mem_targets.mpr hasks)
      refine ⟨s'.nextDelivery + i,
        (hqueues _).mpr ⟨Nat.le_add_right _ _, by rwa [Nat.add_sub_cancel_left]⟩, fun d hd => ?_⟩
      obtain ⟨hle, hw⟩ := (hqueues d).mp hd
      have hlt := (List.getElem?_eq_some_iff.mp hi).1
      have hi' := (List.getElem?_inj hlt (nodup_targets s' adminId event)).mp (hi.trans hw.symm)
      have hsub : ∀ a b c : ℕ, a ≤ b → c = b - a → b = a + c := by omega
      exact hsub _ _ _ hle hi'
    · intro hasks d hd
      obtain ⟨-, hw⟩ := (hqueues d).mp hd
      exact hasks (mem_targets.mp (List.mem_of_getElem? hw))

/-- Half a minute after the webhook has been made, in a process that has not looked before. -/
theorem event_reaches_paid :
    let s :=
      ((Call.createWebhook 0 1 "https://example.com/hook" none none "key").task paidEnv |>.run paidStart).2
    let s' := { s with now := s.now + 30000 }
    ∃ t, (emitEvent paidEnv 1 (some 1) "\"1\"" "order.paid" "\"order.paid\"" [] none).run s' =
      (.ok (), t) ∧ (∀ d row, s'.deliveries.get? d = some row → t.deliveries.get? d = some row) ∧
      ∀ w, (s'.Asks (some 1) "order.paid" w → ∃! d, Queues s' t "order.paid" d w) ∧
        (¬s'.Asks (some 1) "order.paid" w → ∀ d, ¬Queues s' t "order.paid" d w) := by
  intro s s'
  have hv : ActiveIn 0 s := ⟨_, rfl, rfl⟩
  have hmade : SerialStep paidEnv 25 paidStart s :=
    .call (some (Call.createWebhook 0 1 "https://example.com/hook" none none "key")) trivial
  have hwait : SerialStep paidEnv 25 s s' ∧ ActiveIn 0 s' := ⟨.env (.wait s 30000), _, rfl, rfl⟩
  exact event_reaches (.single hmade) hv (.single hwait) (by decide) 1 (some 1) _ _ _ [] none

end Outbox

end SRPanel
