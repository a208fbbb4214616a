import SRPanel.Status.Current
import SRPanel.Upkeep.Transfers

/-!
# Batches of the workers

A worker takes a bounded batch of rows by a coarse query and handles the eligible ones among them.
Rules and delayed starts are handled exactly if they are in the batch; rows that are not eligible
are left where they are and may fill it.
-/

namespace SRPanel

open Interleaving Prog

/-- If there is an eligible row, one that is eligible is handled. -/
def NotStarved {ρ : Type} (eligible handled : ρ → Prop) : Prop :=
  (∃ r, eligible r) → ∃ r, eligible r ∧ handled r

/-- Where eligible rows are handled exactly if they are in the batch, none starves exactly if the
batch has an eligible row whenever there is one. -/
theorem notStarved_iff {ρ : Type} {eligible handled : ρ → Prop} {batch : List ρ}
    (h : ∀ r, eligible r → (handled r ↔ r ∈ batch)) :
    NotStarved eligible handled ↔ ((∃ r, eligible r) → ∃ r ∈ batch, eligible r) := by
  refine forall_congr' fun _ => ⟨?_, ?_⟩
  · rintro ⟨r, hr, hhandled⟩
    exact ⟨r, (h r hr).mp hhandled, hr⟩
  · rintro ⟨r, hmem, hr⟩
    exact ⟨r, hr, (h r hr).mpr hmem⟩

namespace Site

variable {s : Site} {id id' : ClientId} {t : ℤ}

/-! ## Renewals -/

/-- The rule of a client, at a given time, is due and can be run. -/
def RenewalDue (s : Site) (r : ClientId × AutoRenewRule) : Prop :=
  s.autoRenews.get? r.1 = some r.2 ∧ r.2.nextAt ≤ (s.base.now : ℤ) ∧
    ((s.clients.get? r.1).bind fun c => s.operator c.adminId).isSome

/-- The rules that a tick looks at. -/
def renewalBatch (s : Site) (limit : ℕ) : List (ClientId × AutoRenewRule) :=
  s.autoRenews.rows.take (max 1 limit)

/-- The rule under the name of a client is as it was. -/
def SameRule (id : ClientId) (s s' : Site) : Prop := s'.autoRenews.get? id = s.autoRenews.get? id

theorem SameRule.refl (id : ClientId) (s : Site) : SameRule id s s := rfl

theorem SameRule.trans (s₁ s₂ s₃ : Site) (h : SameRule id s₁ s₂) (h' : SameRule id s₂ s₃) :
    SameRule id s₁ s₃ :=
  Eq.trans h' h

theorem SameRule.of_synced {s' : Site} (h : Synced s s') : SameRule id s s' := by
  rw [SameRule, h.same Site.autoRenews fun _ => rfl]

theorem dropRule_sameRule (hid : id' ≠ id) : (dropRule id').Keeps (SameRule id) :=
  keeps_modify fun _ => (Table.get?_erase _ _ _).trans (if_neg (Ne.symm hid))

theorem endCycle_sameRule (hid : id' ≠ id) (rule : AutoRenewRule) :
    (endCycle id' rule t).Keeps (SameRule id) :=
  keeps_ite (keeps_bind (dropRule_sameRule hid) fun _ => keeps_pure _)
    (keeps_bind (keeps_modify fun _ => Table.get?_set_of_ne _ _ (Ne.symm hid)) fun _ =>
      keeps_pure _)

theorem lift_sameRule {α : Type} (p : Service α) : (lift p).Keeps (SameRule id) := by
  refine (zoom_frame Site.world Mark.base p).mono fun s s' h => ?_
  have hs : s' = { s with base := s'.base } := h.symm
  rw [hs]
  rfl

/-- A rule leaves the rules of the others alone. -/
theorem runRule_sameRule (hid : id' ≠ id) (rule : AutoRenewRule) :
    (runRule t id' rule).Keeps (SameRule id) := by
  refine keeps_bind (keeps_query (SameRule.refl id) _ _) fun client => ?_
  cases client with
  | none => exact keeps_bind (dropRule_sameRule hid) fun _ => keeps_pure _
  | some client =>
    refine keeps_ite (keeps_pure _) (keeps_bind (keeps_query (SameRule.refl id) _ _)
      fun admin => ?_)
    cases admin with
    | none => exact keeps_bind (dropRule_sameRule hid) fun _ => keeps_pure _
    | some admin =>
      refine keeps_bind ((resetOfCycle_synced admin id').mono fun _ _ => .of_synced) fun _ =>
        keeps_bind (keeps_ite (keeps_bind ?_ fun _ => ?_) (keeps_pure _)) fun _ =>
          keeps_bind (lift_sameRule _) fun _ => keeps_bind (endCycle_sameRule hid rule) fun _ =>
            keeps_pure _
      · refine keeps_step fun s => ?_
        split
        · rfl
        · rfl
      · exact (pushOfCycle_synced admin id').mono fun _ _ => .of_synced

/-- The end of a cycle drops the rule or moves it on. -/
theorem endCycle_moves (id : ClientId) (rule : AutoRenewRule) (t : ℤ) (s : Site) :
    Prog.wp (endCycle id rule t) (fun _ s' => s'.autoRenews.get? id ≠ some rule)
      (fun _ _ => False) s := by
  unfold endCycle dropRule write
  split
  · rw [wp_bind, wp_modify, wp_pure, Table.get?_erase, if_pos rfl]
    simp
  · rw [wp_bind, wp_modify, wp_pure, Table.get?_set_self]
    intro h
    have hcycles := congrArg AutoRenewRule.cycles (Option.some.inj h)
    exact absurd hcycles (Nat.succ_ne_self _)

/-- A cycle that begins is ended. -/
theorem runCycle_moves {rule : AutoRenewRule} {c : Client} {admin : Operator}
    (hget : s.clients.get? id = some c) :
    Prog.wp (runCycle t id rule c admin) (fun _ s' => s'.autoRenews.get? id ≠ some rule)
      (fun _ _ => False) s := by
  have hend : ∀ (s₁ : Site) (tick : Bool → AutoRenewTick), Prog.wp (do
      lift (audit (some admin.id) "client.auto_renew")
      let last ← endCycle id rule t
      pure (tick last)) (fun _ s' => s'.autoRenews.get? id ≠ some rule) (fun _ _ => False) s₁ := by
    intro s₁ tick
    have haudit : (lift (audit (some admin.id) "client.auto_renew")).Returns :=
      (audit_returns _ _).zoom
    rw [wp_bind]
    refine wp_mono _ (haudit.wp s₁) (fun _ s₂ _ => ?_) fun _ _ h => h
    rw [wp_bind]
    exact endCycle_moves id rule t s₂
  unfold runCycle
  rw [wp_bind]
  refine wp_mono _ (wp_and ((resetOfCycle_synced admin id).wp Synced.refl Synced.trans s)
    ((resetOfCycle_returns admin id).wp s)) (fun resetFailed s₁ h₁ => ?_) fun _ _ h => h.2.elim
  rw [wp_bind]
  by_cases hext : rule.extendExpiry = true
  -- the client is still there to be given its expiry
  · have hsettled := h₁.1.client id
    rw [hget] at hsettled
    obtain ⟨c₁, hc₁, -⟩ := Option.map_eq_some_iff.mp hsettled
    rw [if_pos hext, extendOfCycle, wp_bind, updateRow, writeRow, wp_step, hc₁]
    dsimp only
    refine wp_mono _ (Prog.Returns.wp (returns_attempt fun _ => returns_pure _) _)
      (fun pushFailed s₂ _ => hend s₂ _) fun _ _ h => h
  · rw [if_neg hext, wp_pure]
    exact hend s₁ _

/-- A rule is run to its end; it moves on if it is due. -/
theorem runRule_moves (rule : AutoRenewRule) (s : Site) :
    Prog.wp (runRule t id rule) (fun _ s' => rule.nextAt ≤ t →
      ((s.clients.get? id).bind fun c => s.operator c.adminId).isSome →
      s'.autoRenews.get? id ≠ some rule)
      (fun _ _ => False) s := by
  simp only [runRule, read, wp_bind, wp_query]
  cases hget : s.clients.get? id with
  | none =>
    simp only [dropRule, write, wp_bind, wp_modify, wp_pure]
    intro _ h
    cases h
  | some c =>
    dsimp only
    by_cases hdue : t < rule.nextAt
    · rw [if_pos hdue, wp_pure]
      exact fun hle => absurd hle (by omega)
    · rw [if_neg hdue]
      simp only [wp_bind, wp_query]
      cases hadmin : s.operator c.adminId with
      | none =>
        simp only [dropRule, write, wp_bind, wp_modify, wp_pure]
        intro _ h
        rw [Option.bind_some, hadmin] at h
        cases h
      | some admin => exact wp_mono _ (runCycle_moves hget) (fun _ _ h _ _ => h) fun _ _ h => h

/-- A loop over rules that are distinct moves on the rule of each client that is due, and no
other's. -/
theorem runRules_moves (rows : List (ClientId × AutoRenewRule)) (hnodup : (rows.map Prod.fst).Nodup)
    (s : Site) : Prog.wp (runRules t rows) (fun _ s' =>
      (id ∉ rows.map Prod.fst → SameRule id s s') ∧ ∀ rule, (id, rule) ∈ rows → rule.nextAt ≤ t →
        ((s.clients.get? id).bind fun c => s.operator c.adminId).isSome →
        s'.autoRenews.get? id ≠ some rule)
      (fun _ _ => False) s := by
  induction rows generalizing s with
  | nil => exact ⟨fun _ => rfl, fun rule h => by cases h⟩
  | cons row rows ih =>
    obtain ⟨hrow, hnodup⟩ := List.nodup_cons.mp hnodup
    rw [runRules, wp_bind]
    by_cases hid : row.1 = id
    · subst hid
      refine wp_mono _ (runRule_moves row.2 s) (fun tick s₁ h₁ => ?_) fun _ _ h => h
      rw [wp_bind]
      refine wp_mono _ (ih hnodup s₁) (fun _ s₂ h₂ => ?_) fun _ _ h => h
      refine ⟨fun hmem => absurd List.mem_cons_self hmem, fun rule hmem hdue hadmin => ?_⟩
      rcases List.mem_cons.mp hmem with heq | hmem
      · obtain rfl : rule = row.2 := congrArg Prod.snd heq
        rw [h₂.1 hrow]
        exact h₁ hdue hadmin
      · exact absurd (List.mem_map_of_mem hmem) hrow
    · have hothers := wp_and (wp_of_sameClient (runRule_sameClient hid t row.2) s)
        (wp_and ((runRule_sameRule hid row.2).wp (SameRule.refl id) SameRule.trans s)
          (runRule_moves row.2 s))
      refine wp_mono _ hothers (fun tick s₁ h₁ => ?_) fun _ _ h => h.2.2
      obtain ⟨hclient, hrule, -⟩ := h₁
      rw [wp_bind]
      refine wp_mono _ (ih hnodup s₁)
        (fun _ s₂ h₂ => ⟨fun hmem => ?_, fun rule hmem hdue hadmin => ?_⟩) fun _ _ h => h
      · rw [List.map_cons, List.mem_cons, not_or] at hmem
        exact SameRule.trans _ _ _ hrule (h₂.1 hmem.2)
      · rcases List.mem_cons.mp hmem with heq | hmem
        · exact absurd (congrArg Prod.fst heq).symm hid
        · refine h₂.2 rule hmem hdue ?_
          rw [hclient.client]
          simpa only [hclient.operator] using hadmin

/-- A rule that is due moves on exactly if it is in the batch. -/
theorem runAutoRenew_handles (limit : ℕ) {r : ClientId × AutoRenewRule} (hdue : s.RenewalDue r) :
    (((runAutoRenew limit).run s).2.autoRenews.get? r.1 ≠ some r.2 ↔ r ∈ s.renewalBatch limit) := by
  have hnodup : ((s.renewalBatch limit).map Prod.fst).Nodup :=
    s.autoRenews.nodup_keys.sublist ((List.take_sublist _ _).map Prod.fst)
  have hmoves : Prog.wp (runAutoRenew limit) (fun _ s' => s'.autoRenews.get? r.1 ≠ some r.2 ↔
    r ∈ s.renewalBatch limit)
      (fun _ s' => s'.autoRenews.get? r.1 ≠ some r.2 ↔ r ∈ s.renewalBatch limit) s := by
    simp only [runAutoRenew, read, now, wp_bind, wp_query]
    refine wp_mono _ (@runRules_moves r.1 _ _ hnodup s) (fun _ s' h => ?_) fun _ _ h => h.elim
    by_cases hmem : r ∈ s.renewalBatch limit
    · exact iff_of_true (h.2 r.2 hmem hdue.2.1 hdue.2.2) hmem
    · have hkey : r.1 ∉ (s.renewalBatch limit).map Prod.fst := by
        intro hkey
        obtain ⟨row, hrow, heq⟩ := List.mem_map.mp hkey
        have hget := (s.autoRenews.mem_rows_iff row.1 row.2).mp (List.mem_of_mem_take hrow)
        rw [heq, hdue.1] at hget
        exact hmem (by rwa [← Prod.ext heq (Option.some.inj hget).symm])
      exact iff_of_false (fun hne => hne (Eq.trans (h.1 hkey) hdue.1)) hmem
  exact (wp_store_iff (P := fun s' : Site => s'.autoRenews.get? r.1 ≠ some r.2 ↔
    r ∈ s.renewalBatch limit) _).mp hmoves

/-! ## Delayed starts -/

/-- The client has been connected and waits for its expiry. -/
def StartDue (s : Site) (r : ClientId × ℕ) : Prop :=
  s.pendingStarts.get? r.1 = some r.2 ∧ ∃ c, s.clients.get? r.1 = some c ∧ c.expiresAt = none ∧
    ¬(c.usedUp + c.usedDown ≤ 0 ∧ c.lastOnlineAt = none)

/-- The starts that a tick looks at. -/
def startBatch (s : Site) (limit : ℕ) : List (ClientId × ℕ) :=
  s.pendingStarts.rows.take (max 1 limit)

/-- The client has an expiry. -/
def Started (s : Site) (id : ClientId) : Prop :=
  ∃ c, s.clients.get? id = some c ∧ c.expiresAt.isSome

/-- A client that waits is started, and one that has an expiry keeps it. -/
theorem activateStart_starts (days : ℕ) (s : Site) :
    Prog.wp (activateStart id days) (fun _ s' => ∀ c, s.clients.get? id = some c →
      ¬(c.expiresAt = none ∧ c.usedUp + c.usedDown ≤ 0 ∧ c.lastOnlineAt = none) → Started s' id)
      (fun _ _ => False) s := by
  simp only [activateStart, read, wp_bind, wp_query]
  cases hget : s.clients.get? id with
  | none =>
    simp only [dropPendingStart, write, wp_bind, wp_modify, wp_pure]
    intro c hc
    cases hc
  | some c =>
    dsimp only
    split
    · next hexpiry =>
      simp only [dropPendingStart, write, wp_bind, wp_modify, wp_pure]
      intro c' hc' _
      obtain rfl := Option.some.inj hc'
      exact ⟨c, hget, hexpiry⟩
    · next hexpiry =>
      split
      · next hidle =>
        rw [wp_pure]
        intro c' hc' hnot
        obtain rfl := Option.some.inj hc'
        simp only [Bool.and_eq_true, decide_eq_true_eq, Option.isNone_iff_eq_none] at hidle
        exact absurd ⟨by simpa using hexpiry, hidle⟩ hnot
      · simp only [now, read, dropPendingStart, write, updateRow, writeRow, wp_bind, wp_query, wp_step]
        rw [hget]
        simp only [wp_modify, wp_pure]
        intro _ _ _
        exact ⟨_, by rw [Table.get?_modify_self, hget]; rfl, rfl⟩

/-- A loop over starts that are distinct starts each client that waits. -/
theorem activateStarts_starts (rows : List (ClientId × ℕ)) (hnodup : (rows.map Prod.fst).Nodup)
    (s : Site) : Prog.wp (activateStarts rows) (fun _ s' =>
      (id ∉ rows.map Prod.fst → s'.clients.get? id = s.clients.get? id) ∧
        (id ∈ rows.map Prod.fst → ∀ c, s.clients.get? id = some c →
          ¬(c.expiresAt = none ∧ c.usedUp + c.usedDown ≤ 0 ∧ c.lastOnlineAt = none) →
          Started s' id))
      (fun _ _ => False) s := by
  induction rows generalizing s with
  | nil => exact ⟨fun _ => rfl, fun h => by cases h⟩
  | cons row rows ih =>
    obtain ⟨hrow, hnodup⟩ := List.nodup_cons.mp hnodup
    rw [activateStarts, wp_bind]
    by_cases hid : row.1 = id
    · subst hid
      refine wp_mono _ (activateStart_starts row.2 s) (fun _ s₁ h₁ => ?_) fun _ _ h => h
      rw [wp_bind]
      refine wp_mono _ (ih hnodup s₁)
        (fun _ s₂ h₂ => ⟨fun hmem => absurd List.mem_cons_self hmem, ?_⟩) fun _ _ h => h
      intro _ c hget hnot
      obtain ⟨c₁, hget₁, hsome⟩ := h₁ c hget hnot
      exact ⟨c₁, (h₂.1 hrow).trans hget₁, hsome⟩
    · have hothers := wp_and (wp_of_sameClient (activateStart_sameClient hid row.2) s)
        (activateStart_starts row.2 s)
      refine wp_mono _ hothers (fun _ s₁ h₁ => ?_) fun _ _ h => h.2
      rw [wp_bind]
      refine wp_mono _ (ih hnodup s₁) (fun _ s₂ h₂ => ⟨fun hmem => ?_, fun hmem c hget hnot => ?_⟩)
        fun _ _ h => h
      · rw [List.map_cons, List.mem_cons, not_or] at hmem
        exact (h₂.1 hmem.2).trans h₁.1.client
      · rw [List.map_cons, List.mem_cons] at hmem
        exact h₂.2 (hmem.resolve_left (Ne.symm hid)) c (h₁.1.client.trans hget) hnot

/-- A client that waits is started exactly if it is in the batch. -/
theorem activatePendingStarts_handles (limit : ℕ) {r : ClientId × ℕ} (hdue : s.StartDue r) :
    (((activatePendingStarts limit).run s).2.Started r.1 ↔ r ∈ s.startBatch limit) := by
  have hnodup : ((s.startBatch limit).map Prod.fst).Nodup :=
    s.pendingStarts.nodup_keys.sublist ((List.take_sublist _ _).map Prod.fst)
  obtain ⟨hstart, c, hget, hexpiry, hused⟩ := hdue
  have hstarts : Prog.wp (activatePendingStarts limit) (fun _ s' => s'.Started r.1 ↔
      r ∈ s.startBatch limit) (fun _ s' => s'.Started r.1 ↔ r ∈ s.startBatch limit) s := by
    simp only [activatePendingStarts, read, wp_bind, wp_query]
    refine wp_mono _ (@activateStarts_starts r.1 _ hnodup s) (fun _ s' h => ?_) fun _ _ h => h.elim
    by_cases hmem : r ∈ s.startBatch limit
    · exact iff_of_true (h.2 (List.mem_map_of_mem hmem) c hget fun hnot => hused hnot.2) hmem
    · have hkey : r.1 ∉ (s.startBatch limit).map Prod.fst := by
        intro hkey
        obtain ⟨row, hrow, heq⟩ := List.mem_map.mp hkey
        have hrowget := (s.pendingStarts.mem_rows_iff row.1 row.2).mp (List.mem_of_mem_take hrow)
        rw [heq, hstart] at hrowget
        exact hmem (by rwa [← Prod.ext heq (Option.some.inj hrowget).symm])
      refine iff_of_false ?_ hmem
      rintro ⟨c', hget', hsome⟩
      rw [h.1 hkey, hget] at hget'
      obtain rfl := Option.some.inj hget'
      rw [hexpiry] at hsome
      cases hsome
  exact (wp_store_iff (P := fun s' : Site => s'.Started r.1 ↔ r ∈ s.startBatch limit) _).mp hstarts

/-! ## Starvation -/

/-- None of the three workers passes over an eligible row exactly if its batch has one: the first
twenty payments have one whose transfer is on chain, before any that ends the tick; the first rules
one that is due; the first delayed starts a client that has been connected. -/
theorem workers_notStarved_iff (s : Site) (limit : ℕ) :
    (NotStarved s.base.TransferDue (fun r => s.base.Confirms (verifyPendingUsdt.run s.base).2 r.1) ↔
        ((∃ r, s.base.TransferDue r) → s.base.nextTransfer.isSome)) ∧
      (NotStarved s.RenewalDue (fun r =>
        ((runAutoRenew limit).run s).2.autoRenews.get? r.1 ≠ some r.2) ↔ ((∃ r, s.RenewalDue r) →
          ∃ r ∈ s.renewalBatch limit, s.RenewalDue r)) ∧
      (NotStarved s.StartDue (fun r => ((activatePendingStarts limit).run s).2.Started r.1) ↔
        ((∃ r, s.StartDue r) → ∃ r ∈ s.startBatch limit, s.StartDue r)) := by
  refine ⟨?_, notStarved_iff fun r => runAutoRenew_handles limit, notStarved_iff
    fun r => activatePendingStarts_handles limit⟩
  rw [NotStarved, s.base.verifyPendingUsdt_handles]

/-! ## A batch full of clients that wait -/

/-- A table with a row under each of the first numbers. -/
def numbered {ρ : Type} (n : ℕ) (f : ℕ → ρ) : Table ℕ ρ :=
  ⟨⟨(List.range n).map fun i => ⟨i, f i⟩, by
    rw [List.NodupKeys, List.keys, List.map_map]
    exact (List.map_id _).symm ▸ List.nodup_range⟩⟩

theorem rows_numbered {ρ : Type} (n : ℕ) (f : ℕ → ρ) : (numbered n f).rows = (List.range n).map
    fun i => (i, f i) := by
  rw [numbered, Table.rows, List.map_map]
  rfl

theorem get?_numbered {ρ : Type} {n : ℕ} (f : ℕ → ρ) {i : ℕ} (h : i < n) :
    (numbered n f).get? i = some (f i) := by
  rw [← Table.mem_rows_iff, rows_numbered]
  exact List.mem_map.mpr ⟨i, List.mem_range.mpr h, rfl⟩

/-- Of 501 clients with a delayed start, the last one has been connected. -/
def crowdedSite : Site :=
  { endlessSite with
    pendingStarts := numbered 501 fun _ => 30
    clients := numbered 501 fun i =>
      ⟨1, "c", none, none, 8, 9, 0, 0, 0, none, 0, .active, none, none, none,
        if i = 500 then some 0 else none⟩ }

/-- The tick takes the other 500, and the connected client is not started. -/
theorem crowdedSite_starves : ¬NotStarved crowdedSite.StartDue
    (fun r => ((activatePendingStarts 500).run crowdedSite).2.Started r.1) := by
  have hclient : ∀ i : ℕ, i < 501 → ∃ c, crowdedSite.clients.get? i = some c ∧ c.expiresAt = none ∧
      c.usedUp + c.usedDown = 0 ∧ c.lastOnlineAt = if i = 500 then some 0 else none :=
    fun i hi => ⟨_, get?_numbered _ hi, rfl, rfl, rfl⟩
  rw [notStarved_iff fun r => activatePendingStarts_handles 500]
  intro h
  obtain ⟨c, hget, hexpiry, -, honline⟩ := hclient 500 (by omega)
  obtain ⟨r, hmem, hdue⟩ :=
    h ⟨(500, 30), get?_numbered _ (by omega), c, hget, hexpiry, fun hidle => by
      rw [honline] at hidle
      cases hidle.2⟩
  have hmem' : r ∈ ((List.range 501).map fun i => (i, 30)).take 500 := by
    rw [← rows_numbered 501 fun _ => 30]
    exact hmem
  rw [← List.map_take, List.take_range] at hmem'
  obtain ⟨i, hi, rfl⟩ := List.mem_map.mp hmem'
  have hlt : i < 500 := by simpa using hi
  obtain ⟨c', hget', -, hused, honline'⟩ := hclient i (by omega)
  obtain ⟨-, c'', hget'', -, hnot⟩ := hdue
  obtain rfl : c'' = c' := Option.some.inj (hget''.symm.trans hget')
  rw [if_neg (by omega)] at honline'
  exact hnot ⟨hused.le, honline'⟩

end Site

end SRPanel
