import SRPanel.Upkeep.Batches
import SRPanel.Lib.Faults

/-!
# The cycles of a renewal

A cycle moves the expiry of a client first and its rule last. A tick that stops before the expiry is
written has done nothing for the client, and the next one does the cycle; one that stops behind the
write of the rule has done all of it. But one that stops in between leaves the rule due with the
expiry already moved, and the next tick moves it again.

So the expiry and the rule go through whole cycles, one for each tick that finds the rule due, if no
tick stops between the two writes (`cycles_once`).
-/

namespace SRPanel

open Interleaving Prog

/-! ## Cycles -/

/-- What a cycle is about: the expiry of a client, if the client and its admin exist, and its rule.
-/
abbrev Renewals := Option (Option ℤ) × Option AutoRenewRule

/-- The expiry after a cycle at a given time. -/
def AutoRenewRule.extended (rule : AutoRenewRule) (expiresAt : Option ℤ) (t : ℤ) : Option ℤ :=
  if rule.extendExpiry then some (Site.cycleExpiry expiresAt rule.everyDays t) else expiresAt

/-- The rule after a cycle at a given time; there is none after the last cycle. -/
def AutoRenewRule.advanced (rule : AutoRenewRule) (t : ℤ) : Option AutoRenewRule :=
  if 0 < rule.maxCycles && rule.maxCycles ≤ rule.cycles + 1 then none
  else some { rule with
    cycles := rule.cycles + 1
    lastAt := some t
    nextAt := t + rule.everyDays * DAY_MS }

/-- A due cycle takes effect as a whole. -/
inductive Cycle (t : ℤ) : Renewals → Renewals → Prop
  | due (expiresAt : Option ℤ) (rule : AutoRenewRule) : rule.nextAt ≤ t →
      Cycle t (some expiresAt, some rule) (some (rule.extended expiresAt t), rule.advanced t)

/-- Nothing happens, or a rule without its client or its admin is dropped. -/
inductive Unmoved : Renewals → Renewals → Prop
  | same (x : Renewals) : Unmoved x x
  | dropped (rule : Option AutoRenewRule) : Unmoved (none, rule) (none, none)

/-- The cycles at these times take effect, one after the other. -/
inductive Cycles : List ℤ → Renewals → Renewals → Prop
  | none (x : Renewals) : Cycles [] x x
  | idle {ts : List ℤ} {x y z : Renewals} : Cycles ts x y → Unmoved y z → Cycles ts x z
  | cycle {ts : List ℤ} {x y z : Renewals} {t : ℤ} : Cycles ts x y → Cycle t y z →
  Cycles (ts ++ [t]) x z

section

variable {ts : List ℤ} {x y z : Renewals} {rule rule' : AutoRenewRule}
    {e : Option (Option ℤ)} {t : ℤ}

/-- The counter says how many cycles took effect. -/
theorem Cycles.counted (h : Cycles ts x y) (hx : x.2 = some rule) (hy : y.2 = some rule') :
    rule'.cycles = rule.cycles + ts.length ∧ rule'.maxCycles = rule.maxCycles ∧
      (ts ≠ [] → ¬(0 < rule.maxCycles ∧ rule.maxCycles ≤ rule'.cycles)) := by
  induction h generalizing rule' with
  | none x =>
    obtain rfl := Option.some.inj (hx.symm.trans hy)
    exact ⟨rfl, rfl, fun h => absurd rfl h⟩
  | idle _ hidle ih =>
    cases hidle with
    | same => exact ih hx hy
    | dropped => cases hy
  | @cycle ts x y z t _ hcycle ih =>
    obtain ⟨expiresAt, old, hdue⟩ := hcycle
    obtain ⟨hcycles, hmax, -⟩ := ih hx rfl
    dsimp only [AutoRenewRule.advanced] at hy
    split at hy
    · cases hy
    · next hlast =>
      obtain rfl := Option.some.inj hy
      rw [Bool.and_eq_true, decide_eq_true_eq, decide_eq_true_eq, hmax] at hlast
      exact ⟨by rw [hcycles, List.length_append]; rfl, hmax, fun _ => hlast⟩

/-- The rule keeps its days while cycles take effect, and the expiry is the one after these cycles.
-/
theorem Cycles.extends (h : Cycles ts x y) {expiresAt : Option ℤ}
    (hx : x = (some expiresAt, some rule)) :
    y.1 = some (ts.foldl rule.extended expiresAt) ∧ ∀ rule' ∈ y.2,
    rule'.extended = rule.extended := by
  induction h with
  | none x =>
    subst hx
    exact ⟨rfl, fun rule' hrule => by rw [Option.some.inj hrule]⟩
  | idle _ hidle ih =>
    cases hidle with
    | same => exact ih hx
    | dropped => exact absurd (ih hx).1 (by simp)
  | @cycle ts x y z t _ hcycle ih =>
    obtain ⟨before, old, hdue⟩ := hcycle
    obtain ⟨hexpiry, hrule⟩ := ih hx
    have hold : old.extended = rule.extended := hrule old rfl
    refine ⟨?_, fun rule' hnext => ?_⟩
    · show some (old.extended before t) = _
      rw [hold, Option.some.inj hexpiry, List.foldl_append]
      rfl
    · rw [← hold]
      dsimp only [AutoRenewRule.advanced] at hnext
      split at hnext
      · cases hnext
      · rw [← Option.some.inj hnext]
        rfl

/-- A cap that is not used up is kept. -/
theorem Cycles.capped (h : Cycles ts x y) (hx : x.2 = some rule) (hmax : 0 < rule.maxCycles)
    (hleft : rule.cycles < rule.maxCycles) : rule.cycles + ts.length ≤ rule.maxCycles := by
  induction h with
  | none x => exact hleft.le
  | idle _ _ ih => exact ih hx
  | @cycle ts x y z t hcycles hcycle ih =>
    obtain ⟨expiresAt, old, hdue⟩ := hcycle
    obtain ⟨hcount, -, hlast⟩ := hcycles.counted hx rfl
    -- the rule that the cycle found had not used up its cap
    have hbelow : old.cycles < rule.maxCycles := by
      by_cases hts : ts = []
      · subst hts
        rw [hcount]
        exact hleft
      · have := hlast hts
        omega
    rw [List.length_append]
    simp only [List.length_cons, List.length_nil]
    omega

end

namespace Site

/-! ## Ticks -/

/-- The expiry of a client, if the client and its admin exist. -/
def ownedExpiry (s : Site) (id : ClientId) : Option (Option ℤ) :=
  (s.clients.get? id).bind fun c => (s.operator c.adminId).map fun _ => c.expiresAt

/-- The expiry and the rule of a client. -/
def renewalsOf (s : Site) (id : ClientId) : Renewals := (s.ownedExpiry id, s.autoRenews.get? id)

/-- The rule of the client is due, and among the rows. -/
def DueAmong (s : Site) (id : ClientId) (rows : List (ClientId × AutoRenewRule)) : Prop :=
  ∃ rule, s.RenewalDue (id, rule) ∧ (id, rule) ∈ rows

/-- A tick that began in the store `s` has not moved the expiry of the client without its rule. -/
def Whole (id : ClientId) (s : Site) (_ : Mark) (u : Site) : Prop :=
  u.ownedExpiry id = s.ownedExpiry id ∨ u.autoRenews.get? id ≠ s.autoRenews.get? id

/-- Runs of ticks at the clock's times; a step of a tick from `s` may fail where `fails s` says so.
`done` has the ticks that ran to their end and found the rule of the client due in their batch, and
`due` those that found it due. Between ticks anything may change but the expiry and the rule of the
client. -/
inductive Ticks (fails : Site → Mark → Site → Prop) (id : ClientId) : List ℤ → List ℤ →
    Site → Site → Prop
  | refl (s : Site) : Ticks fails id [] [] s s
  | elsewhere {done due : List ℤ} {s s₁ s₂ : Site} : Ticks fails id done due s s₁ →
      s₂.renewalsOf id = s₁.renewalsOf id → Ticks fails id done due s s₂
  | idle {done due : List ℤ} {limit : ℕ} {s s₁ s₂ : Site} {r : Except AppError AutoRenewTick} :
      Ticks fails id done due s s₁ → ¬s₁.DueAmong id (s₁.renewalBatch limit) →
      Outcome (fun _ _ => True) (fails s₁) (runAutoRenew limit) s₁ r s₂ →
      Ticks fails id done due s s₂
  | done {done due : List ℤ} {limit : ℕ} {s s₁ s₂ : Site} {tick : AutoRenewTick} :
      Ticks fails id done due s s₁ → s₁.DueAmong id (s₁.renewalBatch limit) →
      Outcome (fun _ _ => True) (fails s₁) (runAutoRenew limit) s₁ (.ok tick) s₂ →
      Ticks fails id (done ++ [(s₁.base.now : ℤ)]) (due ++ [(s₁.base.now : ℤ)]) s s₂
  | stopped {done due : List ℤ} {limit : ℕ} {s s₁ s₂ : Site} {e : AppError} :
      Ticks fails id done due s s₁ → s₁.DueAmong id (s₁.renewalBatch limit) →
      Outcome (fun _ _ => True) (fails s₁) (runAutoRenew limit) s₁ (.error e) s₂ →
      Ticks fails id done (due ++ [(s₁.base.now : ℤ)]) s s₂

/-- Each due cycle happened once: whole cycles took effect, one for each tick that ran to its end
and at most one for a tick that stopped, the expiry and the counter are the ones after these cycles,
and a cap that was not used up is kept. -/
structure CycledOnce (id : ClientId) (done due : List ℤ) (s s' : Site) (ts : List ℤ) : Prop where
  cycles : Cycles ts (s.renewalsOf id) (s'.renewalsOf id)
  served : done.Sublist ts
  only : ts.Sublist due
  expiry : ∀ e rule, s.renewalsOf id = (some e, some rule) →
    s'.ownedExpiry id = some (ts.foldl rule.extended e)
  counter : ∀ rule rule', s.autoRenews.get? id = some rule → s'.autoRenews.get? id = some rule' →
    rule'.cycles = rule.cycles + ts.length
  cap : ∀ rule, s.autoRenews.get? id = some rule → 0 < rule.maxCycles →
    rule.cycles < rule.maxCycles → rule.cycles + ts.length ≤ rule.maxCycles

/-! ## One tick -/

section

variable {s u u' : Site} {id id' : ClientId} {t : ℤ} {rule : AutoRenewRule}

/-- The tick has not come to the client yet. -/
def Untouched (id : ClientId) (s u : Site) : Prop := SameClient id s u ∧ SameRule id s u

theorem Untouched.refl (id : ClientId) (s : Site) : Untouched id s s := ⟨.refl id s, .refl id s⟩

theorem Untouched.trans (s₁ s₂ s₃ : Site) (h : Untouched id s₁ s₂) (h' : Untouched id s₂ s₃) :
    Untouched id s₁ s₃ := ⟨h.1.trans _ _ _ h'.1, h.2.trans _ _ _ h'.2⟩

theorem ownedExpiry_isSome (s : Site) (id : ClientId) :
    (s.ownedExpiry id).isSome = ((s.clients.get? id).bind fun c =>
      s.operator c.adminId).isSome := by
  unfold ownedExpiry
  cases s.clients.get? id with
  | none => rfl
  | some c => exact Option.isSome_map

theorem SameClient.ownedExpiry (h : SameClient id s u) : u.ownedExpiry id = s.ownedExpiry id := by
  simp only [Site.ownedExpiry, h.client, h.operator]

theorem Untouched.renewalsOf (h : Untouched id s u) : u.renewalsOf id = s.renewalsOf id :=
  Prod.ext h.1.ownedExpiry h.2

/-- A synchronisation leaves expiries, owners and rules as they are. -/
theorem renewalsOf_synced (h : Synced s u) : u.renewalsOf id = s.renewalsOf id := by
  have hclient := congrArg (Option.map fun c : Client => (c.adminId, c.expiresAt)) (h.client id)
  rw [Option.map_map, Option.map_map] at hclient
  have hadmins : u.base.admins = s.base.admins := h.same (fun s => s.base.admins) fun _ => rfl
  have haccounts : u.accounts = s.accounts := h.same Site.accounts fun _ => rfl
  have hread : ∀ v : Site, v.ownedExpiry id = ((v.clients.get? id).map
      ((fun c : Client => (c.adminId, c.expiresAt)) ∘ Client.settled)).bind fun x =>
        (v.operator x.1).map
      fun _ => x.2 := by
    intro v
    rw [Option.bind_map]
    rfl
  refine Prod.ext ?_ (SameRule.of_synced h)
  show u.ownedExpiry id = s.ownedExpiry id
  rw [hread, hread, hclient]
  simp only [operator, hadmins, haccounts]

/-- The rule of another client is run. -/
theorem runRule_untouched (hid : id' ≠ id) (t : ℤ) (rule : AutoRenewRule) :
    (runRule t id' rule).Keeps (Untouched id) :=
  (runRule_sameClient hid t rule).and (runRule_sameRule hid rule)

theorem runRules_untouched {rows : List (ClientId × AutoRenewRule)}
    (hrows : id ∉ rows.map Prod.fst) (t : ℤ) : (runRules t rows).Keeps (Untouched id) := by
  induction rows with
  | nil => exact keeps_pure _
  | cons row rows ih =>
    rw [List.map_cons, List.mem_cons, not_or] at hrows
    exact keeps_bind (runRule_untouched (Ne.symm hrows.1) t row.2) fun _ =>
      keeps_bind (ih hrows.2) fun _ => keeps_pure _

/-- What a tick leaves of a client whose rule is due, or is not. -/
def Ticked (id : ClientId) (s : Site) (due : Prop) (u : Site) : Prop :=
  (due → Cycle s.base.now (s.renewalsOf id) (u.renewalsOf id)) ∧
  (¬due → Unmoved (s.renewalsOf id) (u.renewalsOf id))

/-- What a tick leaves that stops: a client as it was, or as the tick would leave it. -/
def Halted (id : ClientId) (s : Site) (due : Prop) (u : Site) : Prop :=
  u.renewalsOf id = s.renewalsOf id ∨ Ticked id s due u

theorem Ticked.untouched {due : Prop} (h : Ticked id s due u) (hu : Untouched id u u') :
    Ticked id s due u' := by
  unfold Ticked
  rw [hu.renewalsOf]
  exact h

/-- What stays within the frame of synchronisations keeps the expiry and the rule, and so does a
part of it. -/
theorem ensures_synced {α : Type} {p : Task α} (hp : p.Keeps Synced) {fails : Mark → Site → Prop}
    {x : Renewals} (hu : u.renewalsOf id = x) :
      Ensures (fun _ _ => True) fails (fun _ u => u.renewalsOf id = x)
        (fun _ u => u.renewalsOf id = x) p u :=
  ensures_of_keeps hp (fun _ _ h => Eq.trans (renewalsOf_synced h)) hu

/-- The audit of a cycle cannot stop it. -/
theorem auditOfCycle_ensures {fails : Mark → Site → Prop} {E : AppError → Site →
    Prop} (admin : AdminId) {x : Renewals}
    (hu : u.renewalsOf id = x) : Ensures (fun _ _ => True) fails (fun _ u => u.renewalsOf id = x) E
      (lift (audit (some admin) "client.auto_renew")) u := by
  have hattempt : lift (audit (some admin) "client.auto_renew") = (lift (Db.write fun w : World =>
      { w with journal := .audit (some admin) "client.auto_renew" :: w.journal })).attempt fun _ =>
        pure () := rfl
  have hwrite : (lift (Db.write fun w : World =>
      { w with journal := .audit (some admin) "client.auto_renew" :: w.journal })).Keeps Synced :=
    synced_of_pushed (lift_pushed (keeps_modify fun _ => rfl))
  rw [hattempt]
  exact ensures_attempt (ensures_synced hwrite hu) fun _ _ h => ensures_pure h

/-- The end of a cycle moves the rule, unless its write fails. -/
theorem endCycle_ensures {fails : Mark → Site → Prop} {expiresAt : Option ℤ} {P : Site → Prop}
    (hu : u.renewalsOf id = (some expiresAt, some rule)) (hP : fails .other u → P u) :
    Ensures (fun _ _ => True) fails (fun _ u => u.renewalsOf id = (some expiresAt, rule.advanced t))
      (fun _ => P) (endCycle id rule t) u := by
  have hexpiry : u.ownedExpiry id = some expiresAt := congrArg Prod.fst hu
  unfold endCycle AutoRenewRule.advanced
  split
  · refine ensures_bind (ensures_step (fun _ => ⟨fun _ _ => ?_, fun _ h => by cases h⟩) fun _ => hP)
      fun _ _ h => ensures_pure h
    exact Prod.ext hexpiry ((Table.get?_erase _ _ _).trans (if_pos rfl))
  · refine ensures_bind (ensures_step (fun _ => ⟨fun _ _ => ?_, fun _ h => by cases h⟩) fun _ => hP)
      fun _ _ h => ensures_pure h
    exact Prod.ext hexpiry (Table.get?_set_self _ _ _)

/-- The extension of a cycle writes the expiry, unless this write fails. -/
theorem extendOfCycle_ensures {fails : Mark → Site → Prop} (admin : Operator) {expiresAt : Option ℤ}
    (expiry : ℤ) (hu : u.renewalsOf id = (some expiresAt, some rule)) :
    Ensures (fun _ _ => True) fails (fun _ u => u.renewalsOf id = (some (some expiry), some rule))
      (fun _ u => u.renewalsOf id = (some expiresAt, some rule))
        (extendOfCycle admin id expiry) u := by
  have hexpiry : u.ownedExpiry id = some expiresAt := congrArg Prod.fst hu
  obtain ⟨c, hc, howned⟩ := Option.bind_eq_some_iff.mp hexpiry
  unfold extendOfCycle
  refine ensures_bind (P := fun _ u => u.renewalsOf id = (some (some expiry), some rule)) ?_
    fun _ v hv =>
    ensures_attempt (ensures_synced
      (synced_of_pushed (keeps_bind (getClientForActor_pushed _ _) fun client =>
        keeps_bind (pushClient_pushed client) fun _ => keeps_pure _)) hv) fun _ _ h =>
      ensures_pure h
  refine ensures_step (fun _ => ?_) fun _ _ => hu
  simp only [hc]
  refine ⟨fun _ _ => Prod.ext ?_ (congrArg Prod.snd hu :), fun _ h => by cases h⟩
  -- the client keeps its admin
  obtain ⟨o, ho, -⟩ := Option.map_eq_some_iff.mp howned
  show ((u.clients.modify id _).get? id).bind _ = _
  rw [Table.get?_modify_self, hc]
  show Option.map _ (u.operator c.adminId) = _
  rw [ho]
  rfl

/-- A cycle of the client takes effect as a whole, unless the tick stops. -/
theorem runCycle_ensures {client : Client} (admin : Operator)
    (hs : s.renewalsOf id = (some client.expiresAt, some rule)) (hdue : rule.nextAt ≤ t)
    (hu : u.renewalsOf id = s.renewalsOf id) :
    Ensures (fun _ _ => True) (Whole id s) (fun _ u => Cycle t (s.renewalsOf id) (u.renewalsOf id))
      (fun _ u => u.renewalsOf id = s.renewalsOf id) (runCycle t id rule client admin) u := by
  -- between its two writes the cycle cannot stop, if the first has changed the expiry
  have hfault : ∀ (m : Mark) (v : Site),
      v.renewalsOf id = (some (rule.extended client.expiresAt t), some rule) → Whole id s m v →
      v.renewalsOf id = s.renewalsOf id := by
    intro m v hv hwhole
    have hrule : v.autoRenews.get? id = s.autoRenews.get? id :=
      (congrArg Prod.snd hv).trans (congrArg Prod.snd hs).symm
    exact Prod.ext (hwhole.resolve_right fun hne => hne hrule) hrule
  unfold runCycle
  refine ensures_bind (ensures_synced (resetOfCycle_synced admin id) hu) fun resetFailed u₁ hu₁ =>
    ?_
  refine ensures_bind (P := fun _ u =>
    u.renewalsOf id = (some (rule.extended client.expiresAt t),
      some rule)) ?_ fun pushFailed u₂ hu₂ => ?_
  · unfold AutoRenewRule.extended
    split
    · exact ensures_mono (extendOfCycle_ensures admin _ (hu₁.trans hs)) (fun _ _ h => h)
        fun _ _ h => h.trans hs.symm
    · exact ensures_pure (hu₁.trans hs)
  · refine ensures_bind (auditOfCycle_ensures admin.id hu₂) fun _ u₃ hu₃ =>
      ensures_bind (endCycle_ensures hu₃ (hfault _ _ hu₃)) fun _ u₄ hu₄ => ensures_pure ?_
    rw [hs, hu₄]
    exact .due client.expiresAt rule hdue

/-- A rule without its client or its admin is dropped. -/
theorem dropRule_ensures {fails : Mark → Site → Prop} (hu : u.ownedExpiry id = none) :
    Ensures (fun _ _ => True) fails (fun _ v => v.renewalsOf id = (none, none))
      (fun _ v => v.renewalsOf id = u.renewalsOf id) (dropRule id) u :=
  ensures_step (fun _ => ⟨fun _ _ => Prod.ext hu ((Table.get?_erase _ _ _).trans (if_pos rfl)),
    fun _ h => by cases h⟩)
    fun _ _ => rfl

/-- The rule of the client is run. -/
theorem runRule_ensures (hrule : s.autoRenews.get? id = some rule) (hu : Untouched id s u) :
    Ensures (fun _ _ => True) (Whole id s) (fun _ v => Ticked id s (s.RenewalDue (id, rule)) v)
      (fun _ v => v.renewalsOf id = s.renewalsOf id) (runRule s.base.now id rule) u := by
  have hclient : u.clients.get? id = s.clients.get? id := hu.1.client
  unfold runRule
  refine ensures_bind (P := fun client v => client = s.clients.get? id ∧ Untouched id s v)
    (ensures_query (fun _ => ⟨hclient, hu⟩) fun _ _ => hu.renewalsOf) ?_
  rintro _ u₁ ⟨rfl, hu₁⟩
  -- the rule is dropped where it has no owner
  have hdrop : s.ownedExpiry id = none → ∀ v, Untouched id s v →
      Ensures (fun _ _ => True) (Whole id s) (fun _ v => Ticked id s (s.RenewalDue (id, rule)) v)
        (fun _ v => v.renewalsOf id = s.renewalsOf id)
      (do dropRule id; pure (⟨0, 0, 0⟩ : AutoRenewTick)) v := by
    intro hnone v hv
    refine ensures_bind (ensures_mono (dropRule_ensures (hv.1.ownedExpiry.trans hnone))
      (fun _ _ h => h) fun _ _ h => h.trans hv.renewalsOf) fun _ w hw => ensures_pure ⟨fun hdue =>
        ?_, fun _ => ?_⟩
    · have howned := hdue.2.2
      rw [← ownedExpiry_isSome, hnone] at howned
      cases howned
    · rw [hw, Site.renewalsOf, hnone]
      exact .dropped _
  cases hget : s.clients.get? id with
  | none => exact hdrop (by rw [Site.ownedExpiry, hget]; rfl) u₁ hu₁
  | some client =>
    dsimp only
    refine ensures_ite (fun hlate => ensures_pure ⟨fun hdue => ?_, fun _ => ?_⟩) fun hdue => ?_
    · have hle : rule.nextAt ≤ (s.base.now : ℤ) := hdue.2.1
      omega
    · rw [hu₁.renewalsOf]
      exact .same _
    · refine ensures_bind (P := fun admin v => admin = s.operator client.adminId ∧ Untouched id s v)
        (ensures_query (fun _ => ⟨hu₁.1.operator _, hu₁⟩) fun _ _ => hu₁.renewalsOf) ?_
      rintro _ u₂ ⟨rfl, hu₂⟩
      cases hadmin : s.operator client.adminId with
      | none => exact hdrop (by rw [Site.ownedExpiry, hget, Option.bind_some, hadmin]; rfl) u₂ hu₂
      | some admin =>
        have hs : s.renewalsOf id = (some client.expiresAt, some rule) := by
          rw [Site.renewalsOf, Site.ownedExpiry, hget, Option.bind_some, hadmin, hrule]
          rfl
        have hle : rule.nextAt ≤ (s.base.now : ℤ) := not_lt.mp hdue
        have hnow : s.RenewalDue (id, rule) :=
          ⟨hrule, hle, by rw [hget, Option.bind_some, hadmin]; rfl⟩
        exact ensures_mono (runCycle_ensures admin hs hle hu₂.renewalsOf)
          (fun _ _ h => ⟨fun _ => h, fun hnot => absurd hnow hnot⟩) fun _ _ h => h

/-- The loop over the rules. -/
theorem runRules_ensures {rows : List (ClientId × AutoRenewRule)}
    (hnodup : (rows.map Prod.fst).Nodup) (hrows : ∀ r ∈ rows, s.autoRenews.get? r.1 = some r.2)
    (hu : Untouched id s u) :
    Ensures (fun _ _ => True) (Whole id s) (fun _ => Ticked id s (s.DueAmong id rows))
      (fun _ => Halted id s (s.DueAmong id rows)) (runRules s.base.now rows) u := by
  induction rows generalizing u with
  | nil =>
    refine ensures_pure ⟨?_, fun _ => ?_⟩
    · rintro ⟨rule, -, hmem⟩
      cases hmem
    · rw [hu.renewalsOf]
      exact .same _
  | cons row rows ih =>
    obtain ⟨hrow, hnodup⟩ := List.nodup_cons.mp hnodup
    rw [runRules]
    by_cases hid : row.1 = id
    · obtain ⟨id', rule⟩ := row
      obtain rfl : id' = id := hid
      have hdue : s.DueAmong id' ((id', rule) :: rows) ↔ s.RenewalDue (id', rule) := by
        constructor
        · rintro ⟨rule', hdue, hmem⟩
          obtain heq | hmem := List.mem_cons.mp hmem
          · rwa [← heq]
          · exact absurd (List.mem_map_of_mem hmem) hrow
        · exact fun hdue => ⟨rule, hdue, List.mem_cons_self⟩
      rw [hdue]
      refine ensures_bind (ensures_mono (runRule_ensures (hrows _ List.mem_cons_self) hu)
        (fun _ _ h => h) fun _ _ h => .inl h) fun tick v hv => ?_
      -- the client is done; the rest of the loop is about the others
      refine ensures_bind (ensures_mono (ensures_of_keeps (runRules_untouched hrow _)
        (fun _ _ h h' => Ticked.untouched h' h) hv) (fun _ _ h => h) fun _ _ h => .inr h)
        fun _ _ h => ensures_pure h
    · have hdue : s.DueAmong id (row :: rows) ↔ s.DueAmong id rows := by
        refine exists_congr fun rule => and_congr_right fun _ => ?_
        rw [List.mem_cons, or_iff_right]
        rintro rfl
        exact hid rfl
      rw [hdue]
      refine ensures_bind (ensures_mono (ensures_of_keeps (runRule_untouched hid s.base.now row.2)
        (fun _ _ h h' => h'.trans _ _ _ h) hu) (fun _ _ h => h) fun _ _ h =>
          .inl h.renewalsOf) fun tick v hv => ?_
      exact ensures_bind (ih hnodup (fun r hr => hrows r (List.mem_cons_of_mem _ hr)) hv)
        fun _ _ h => ensures_pure h

/-- A tick. -/
theorem runAutoRenew_ensures (id : ClientId) (limit : ℕ) (s : Site) :
    Ensures (fun _ _ => True) (Whole id s)
      (fun _ => Ticked id s (s.DueAmong id (s.renewalBatch limit)))
        (fun _ => Halted id s (s.DueAmong id (s.renewalBatch limit))) (runAutoRenew limit) s := by
  have hnodup : ((s.renewalBatch limit).map Prod.fst).Nodup :=
    s.autoRenews.nodup_keys.sublist ((List.take_sublist _ _).map Prod.fst)
  unfold runAutoRenew
  refine ensures_bind (P := fun rows v => rows = s.renewalBatch limit ∧ v = s)
    (ensures_query (fun _ => ⟨rfl, rfl⟩) fun _ _ => .inl rfl) ?_
  rintro _ u ⟨rfl, rfl⟩
  refine ensures_bind (P := fun t v => t = (u.base.now : ℤ) ∧ v = u)
    (ensures_query (fun _ => ⟨rfl, rfl⟩) fun _ _ => .inl rfl) ?_
  rintro _ v ⟨rfl, rfl⟩
  exact runRules_ensures hnodup
    (fun r hr => (v.autoRenews.mem_rows_iff _ _).mp (List.mem_of_mem_take hr)) (.refl id v)

/-! ## Runs of ticks -/

/-- Whole cycles take effect, one for each tick that runs to its end and finds the rule due. -/
theorem cycles_of_ticks {done due : List ℤ} (h : Ticks (Whole id) id done due s u) :
    ∃ ts, Cycles ts (s.renewalsOf id) (u.renewalsOf id) ∧ done.Sublist ts ∧ ts.Sublist due := by
  induction h with
  | refl s => exact ⟨[], .none _, .refl _, .refl _⟩
  | elsewhere _ hsame ih =>
    rw [hsame]
    exact ih
  | @idle done due limit s s₁ s₂ r _ hnot hout ih =>
    obtain ⟨ts, hcycles, hdone, hdue⟩ := ih
    obtain ⟨hok, herror⟩ := (runAutoRenew_ensures id limit s₁).outcome hout
    refine ⟨ts, ?_, hdone, hdue⟩
    cases r with
    | ok tick => exact hcycles.idle ((hok tick rfl).2 hnot)
    | error e =>
      obtain hsame | hhandled := herror e rfl
      · rwa [hsame]
      · exact hcycles.idle (hhandled.2 hnot)
  | @done done due limit s s₁ s₂ tick _ hfound hout ih =>
    obtain ⟨ts, hcycles, hdone, hdue⟩ := ih
    have hhandled := ((runAutoRenew_ensures id limit s₁).outcome hout).1 tick rfl
    exact ⟨ts ++ [(s₁.base.now : ℤ)], hcycles.cycle (hhandled.1 hfound), hdone.append (.refl _),
      hdue.append (.refl _)⟩
  | @stopped done due limit s s₁ s₂ e _ hfound hout ih =>
    obtain ⟨ts, hcycles, hdone, hdue⟩ := ih
    obtain hsame | hhandled := ((runAutoRenew_ensures id limit s₁).outcome hout).2 e rfl
    · rw [hsame]
      exact ⟨ts, hcycles, hdone, hdue.trans (List.sublist_append_left _ _)⟩
    · exact ⟨ts ++ [(s₁.base.now : ℤ)], hcycles.cycle (hhandled.1 hfound),
        hdone.trans (List.sublist_append_left _ _), hdue.append (.refl _)⟩

/-- If no tick stops between the write of the client's expiry and that of its rule, each due cycle
of the client happens once. -/
theorem cycles_once {done due : List ℤ} (h : Ticks (Whole id) id done due s u) :
    ∃ ts, CycledOnce id done due s u ts := by
  obtain ⟨ts, hcycles, hdone, hdue⟩ := cycles_of_ticks h
  exact ⟨ts, hcycles, hdone, hdue, fun e rule hs => (hcycles.extends hs).1,
    fun rule rule' hs hu => (hcycles.counted hs hu).1, fun rule hs => hcycles.capped hs⟩

end

instance (id : ClientId) (s : Site) (m : Mark) (u : Site) : Decidable (Whole id s m u) :=
  inferInstanceAs (Decidable (_ ∨ _))

/-- A client of the owner whose only cycle, of thirty days, is due. -/
def cycleSite : Site :=
  { endlessSite with
    accounts := Table.empty.set 1 endlessOwner.account
    autoRenews := Table.empty.set 7 ⟨30, 1, 0, true, 0, none⟩ }

/-- A tick with a connection error at its step `n`. -/
def tickCut (n : ℕ) : Except AppError AutoRenewTick × Site :=
  (runAutoRenew 200).runFaults (badRequest "connection reset")
    (List.replicate n false ++ [true]) cycleSite

/-- The tick after it. -/
def tickAgain (n : ℕ) : Except AppError AutoRenewTick × Site := (runAutoRenew 200).run (tickCut n).2

theorem tickAgain_ticks {fails : Site → Mark → Site → Prop}
    [∀ m u, Decidable (fails cycleSite m u)] (n : ℕ)
      (hmay : (runAutoRenew 200).mayFail (fun m u => fails cycleSite m u)
        (badRequest "connection reset") (List.replicate n false ++ [true]) cycleSite)
    (hcut : (tickCut n).1 = .error (badRequest "connection reset")) (tick : AutoRenewTick)
    (hdone : (tickAgain n).1 = .ok tick) (hdue : cycleSite.DueAmong 7 (cycleSite.renewalBatch 200))
    (hagain : (tickCut n).2.DueAmong 7 ((tickCut n).2.renewalBatch 200))
      (hnow : (tickCut n).2.base.now = 0) :
    Ticks fails 7 [0] [0, 0] cycleSite (tickAgain n).2 := by
  have hstopped : Ticks fails 7 [] [0] cycleSite (tickCut n).2 := by
    have hout := Outcome.runFaults (badRequest "connection reset") _ hmay
    change Outcome _ _ _ _ (tickCut n).1 _ at hout
    rw [hcut] at hout
    exact (Ticks.refl cycleSite).stopped hdue hout
  have hout : Outcome (fun _ _ => True) (fails (tickCut n).2) (runAutoRenew 200) (tickCut n).2
    (tickAgain n).1 (tickAgain n).2 := .run_free _ _
  rw [hdone] at hout
  have hticks := hstopped.done hagain hout
  rwa [hnow] at hticks

theorem due_of_rule {s : Site} {id : ClientId} (rule : AutoRenewRule)
    (h : (id, rule) ∈ s.renewalBatch 200) (hdue : rule.nextAt ≤ (s.base.now : ℤ))
    (howned : (s.ownedExpiry id).isSome) :
    s.DueAmong id (s.renewalBatch 200) :=
  ⟨rule, ⟨(s.autoRenews.mem_rows_iff _ _).mp (List.mem_of_mem_take h), hdue, by
    rwa [← ownedExpiry_isSome]⟩, h⟩

/-- The tick fails where it writes the rule, and the client gets two cycles of the one that it may
have. -/
theorem cut_cycle_extends_twice :
    Ticks (fun _ _ _ => True) 7 [0] [0, 0] cycleSite (tickAgain 15).2 ∧
      ¬∃ ts, CycledOnce 7 [0] [0, 0] cycleSite (tickAgain 15).2 ts := by
  refine ⟨tickAgain_ticks 15 (by decide +kernel) (by decide +kernel) ⟨1, 1, 0⟩ (by decide +kernel)
    (due_of_rule ⟨30, 1, 0, true, 0, none⟩ (by decide +kernel) (by decide) (by decide +kernel))
    (due_of_rule ⟨30, 1, 0, true, 0, none⟩ (by decide +kernel) (by decide +kernel)
      (by decide +kernel))
    (by decide +kernel), ?_⟩
  rintro ⟨ts, h⟩
  have hlen := h.cap ⟨30, 1, 0, true, 0, none⟩ (by decide +kernel) (by decide) (by decide)
  obtain rfl : [0] = ts := h.served.eq_of_length_le (by simpa using hlen)
  have hexpiry := h.expiry none ⟨30, 1, 0, true, 0, none⟩ (by decide +kernel)
  have htwice : (tickAgain 15).2.ownedExpiry 7 = some (some (60 * DAY_MS)) := by decide +kernel
  rw [htwice] at hexpiry
  exact absurd hexpiry (by decide)

/-- The tick fails before it writes the expiry. -/
theorem cycles_once_early : ∃ ts, CycledOnce 7 [0] [0, 0] cycleSite (tickAgain 9).2 ts :=
  cycles_once (tickAgain_ticks 9 (by decide +kernel) (by decide +kernel) ⟨1, 1,
    0⟩ (by decide +kernel) (due_of_rule ⟨30, 1, 0, true, 0, none⟩ (by decide +kernel) (by decide)
      (by decide +kernel))
    (due_of_rule ⟨30, 1, 0, true, 0, none⟩ (by decide +kernel) (by decide +kernel)
      (by decide +kernel))
    (by decide +kernel))

end Site

end SRPanel
