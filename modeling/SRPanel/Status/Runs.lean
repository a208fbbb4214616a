import SRPanel.Lib.Pool
import SRPanel.Status.Current

/-!
# Runs of the operations on a client

After an operation the stored status of a client is the derived one, or the operation has not looked
at the client and the status lags. The two operations that write an expiry after their
recomputation, or without one, are the renewals and the delayed starts.
-/

namespace SRPanel

open Interleaving Prog

namespace Site

/-! ## Synchronisations -/

/-- A panel reports one of the emails of the client. -/
def Reported (id : ClientId) (serverId : ServerId) (report : PanelReport) (s : Site) : Prop :=
  ∃ l ∈ s.linksOf id, l.1.serverId = serverId ∧ (report.statOf l.2.remoteEmail).isSome

instance (id : ClientId) (serverId : ServerId) (report : PanelReport) (s : Site) :
    Decidable (Reported id serverId report s) := inferInstanceAs (Decidable (∃ l ∈ s.linksOf id, _))

/-- When a client was connected does not make a difference to its status. -/
theorem derivedAt_online {c : Client} {t : ℤ} (h : DerivedAt c t) (p : Prop) [Decidable p]
    (online : ℤ) : DerivedAt (if p then { c with lastOnlineAt := some online } else c) t := by
  split
  · exact h
  · exact h

/-- A synchronisation leaves the status of a client current if the client is reported, or was
current before. -/
theorem applyClientStats_current {id : ClientId} {s : Site} (serverId : ServerId)
    (report : PanelReport) (h : Reported id serverId report s ∨ Current id s) :
    Prog.wp (applyClientStats serverId report) (fun _ => Current id) (fun _ _ => False) s := by
  unfold applyClientStats
  simp only [read, now, write, wp_bind, wp_query, wp_modify]
  refine (applyGroups_wp fun g hg l hl => sharedGroups_there hg hl).mpr ?_
  refine wp_mono _ (@recomputeClients_wp id (Current id)
    (fun s₁ => ?_) (fun id' s₁ hid h₁ => ?_) _ _ ?_) (fun _ _ h => h.2) fun _ _ h => h
  · exact wp_mono _ (recomputeClient_rederives id s₁) (fun _ _ h => h.current) fun _ _ h => h
  · exact wp_mono _ (wp_and (wp_of_sameClient (recomputeClient_sameClient hid) s₁)
      (recomputeClient_wp id' s₁)) (fun _ _ h => h.1.current h₁) fun _ _ h => h.2
  · refine h.imp (fun hreported => ?_) fun hcurrent c hc => ?_
    · obtain ⟨l, hl, hserver, hstat⟩ := hreported
      exact List.mem_eraseDups.mpr (touched_of_reported hl hserver hstat)
    · rw [Table.get?_mapRows] at hc
      obtain ⟨c₀, hc₀, rfl⟩ := Option.map_eq_some_iff.mp hc
      exact derivedAt_online (hcurrent c₀ hc₀) _ _

theorem syncServer_current {id : ClientId} {s : Site} (serverId : ServerId)
    (answer : Option PanelReport) (hlag : Lagging id s)
    (h : (∃ report ∈ answer, Reported id serverId report s) ∨ Punctual id s) :
    Prog.wp (syncServer serverId answer) (fun _ => Current id) (fun _ => Lagging id) s := by
  simp only [syncServer, read, wp_bind, wp_query]
  cases s.servers.get? serverId with
  | none => exact hlag
  | some server =>
      cases answer with
      | none =>
          obtain ⟨report, hreport, -⟩ | hpunctual := h
          · cases hreport
          · exact hlag.current hpunctual
      | some report =>
          simp only [wp_attempt, write, wp_bind, wp_modify]
          refine wp_mono _ (applyClientStats_current serverId report ?_)
            (fun _ _ h => h) fun _ _ h => h.elim
          refine h.imp (fun hreported => ?_) fun hpunctual => hlag.current hpunctual
          obtain ⟨report', hreport', hreported⟩ := hreported
          obtain rfl := Option.some.inj hreport'
          exact hreported

/-! ## Operations -/

/-- An operation on a client, or on all of them. -/
inductive ClientOp
  | update (actor : Operator) (input : UpdateClientInput) (cause : Option OrderId)
  | reset (actor : Actor)
  | autoRenew (limit : ℕ)
  | activate (limit : ℕ)
  | sync (serverId : ServerId) (answer : Option PanelReport)

namespace ClientOp

/-- The procedure of an operation. -/
def task (id : ClientId) : ClientOp → Task Unit
  | .update actor input cause => do
      let _ ← updateClient actor id input cause
  | .reset actor => do
      let _ ← resetClientTraffic actor id
  | .autoRenew limit => do
      let _ ← runAutoRenew limit
  | .activate limit => do
      let _ ← activatePendingStarts limit
  | .sync serverId answer => syncServer serverId answer

/-- The operation does not write a date that changes what is derived after the recomputation, and if
it passes over the client no date has passed unnoticed. An update is made by an admin with a row. -/
def InTime (id : ClientId) : ClientOp → Site → Prop
  | .update actor _ _, s => (s.base.admins.get? actor.id).isSome
  | .reset _, _ => True
  | .autoRenew limit, s =>
      (∀ rule ∈ s.dueRule limit id, rule.extendExpiry → ∀ c ∈ s.clients.get? id,
        c.status = .disabled ∨ ¬c.expiresAt.any (· < (s.base.now : ℤ)) = true) ∧
      (s.dueRule limit id = none → Punctual id s)
  | .activate limit, s =>
      (∀ days ∈ s.dueStart limit id, ∀ c ∈ s.clients.get? id,
        c.status = .disabled ∨ ¬c.lastOnlineAt.getD s.base.now + days * DAY_MS < (s.base.now : ℤ)) ∧
      (s.dueStart limit id = none → Punctual id s)
  | .sync serverId answer, s => (∃ report ∈ answer, Reported id serverId report s) ∨ Punctual id s

instance (id : ClientId) (op : ClientOp) (s : Site) : Decidable (op.InTime id s) :=
  match op with
  | .update actor _ _ => inferInstanceAs (Decidable ((s.base.admins.get? actor.id).isSome = true))
  | .reset _ => instDecidableTrue
  | .autoRenew limit => inferInstanceAs
      (Decidable ((∀ rule ∈ s.dueRule limit id, rule.extendExpiry → ∀ c ∈ s.clients.get? id, _) ∧
        (s.dueRule limit id = none → Punctual id s)))
  | .activate limit => inferInstanceAs
      (Decidable ((∀ days ∈ s.dueStart limit id, ∀ c ∈ s.clients.get? id, _) ∧
        (s.dueStart limit id = none → Punctual id s)))
  | .sync serverId answer =>
      inferInstanceAs (Decidable ((∃ report ∈ answer, Reported id serverId report s) ∨
        Punctual id s))

end ClientOp

/-- Between the operations time passes, and the client is left alone. -/
structure Elapses (id : ClientId) (s s' : Site) : Prop where
  client : s'.clients.get? id = s.clients.get? id
  now : s.base.now ≤ s'.base.now

theorem Elapses.lagging {id : ClientId} {s s' : Site} (h : Elapses id s s') (hl : Lagging id s) :
    Lagging id s' := by
  intro c hget
  rw [h.client] at hget
  obtain ⟨t, ht, hderived⟩ := hl c hget
  exact ⟨t, ht.trans (Int.ofNat_le.mpr h.now), hderived⟩

/-- An operation that returns leaves a current status, and one that fails leaves a status that was
current. -/
theorem task_current {id : ClientId} {op : ClientOp} {s : Site} (hlag : Lagging id s)
    (hop : op.InTime id s) : Prog.wp (op.task id) (fun _ => Current id)
      (fun _ => Lagging id) s := by
  cases op with
  | update actor input cause =>
      refine (wp_bind _ _).mpr (wp_mono _ (wp_and (updateClient_current actor id input cause s)
        (updateClient_spec actor id input cause s hop)) (fun _ _ h => h.1) fun _ s' h => ?_)
      have hrefused : SameClient id s s' := by
        rcases h.2.2 with rfl | ⟨-, rfl⟩
        · exact .refl id _
        · exact ⟨by rw [startSettled_clients], by rw [startSettled_base], by
          rw [startSettled_base], by
            unfold startSettled
            split
            · rfl
            · rfl⟩
      exact hrefused.lagging hlag
  | reset actor =>
      refine (wp_bind _ _).mpr (wp_mono _ (resetClientTraffic_rederives actor id s)
        (fun _ _ h => h.2.current) fun _ s' h => ?_)
      rw [h.2]
      exact hlag
  | autoRenew limit => exact (wp_bind _ _).mpr (runAutoRenew_current limit hlag hop.1 hop.2)
  | activate limit => exact (wp_bind _ _).mpr (activatePendingStarts_current limit hlag hop.1 hop.2)
  | sync serverId answer => exact syncServer_current serverId answer hlag hop

/-- **Current statuses.** In every run of operations in time, the status of the client is the
derived one after each operation that has returned, unless the client is disabled. -/
theorem status_current_after_run {id : ClientId} {s₀ s : Site} {op : ClientOp}
    (hstart : Lagging id s₀)
    (hrun : Serial.Run (ClientOp.task id) (Elapses id) (ClientOp.InTime id) s₀ s)
    (hop : op.InTime id s)
    (hdone : ((op.task id).run s).1 = .ok ()) : Current id ((op.task id).run s).2 := by
  have hlag : Lagging id s := by
    refine hrun.invariant hstart (fun op s hlag hop => ?_) fun s s' hlag he => he.lagging hlag
    exact (wp_store_iff _).mp
      (wp_mono _ (task_current hlag hop) (fun _ _ h => h.lagging) fun _ _ h => h)
  have hcurrent := task_current hlag hop
  rw [Prog.wp] at hcurrent
  rcases hend : (op.task id).run s with ⟨r, s'⟩
  rw [hend] at hcurrent hdone
  obtain rfl : r = .ok () := hdone
  exact hcurrent

/-! ## Expiries written late -/

/-- A client of the owner with a period that is renewed every ten days, at a time after its expiry.
-/
def lapsedSite (now : ℕ) : Site :=
  { Site.blank with
    base := { World.blank with now := now, admins := Table.empty.set 1 ⟨.owner, 0, 0⟩ }
    accounts := Table.empty.set 1 endlessOwner.account
    clients := Table.empty.set 7
      ⟨1, "a", none, none, 8, 9, 0, 0, 0, some 5, 0, if now ≤ 5 then .active else .expired, none,
        none, none, none⟩
    autoRenews := Table.empty.set 7 ⟨10, 0, 0, true, 0, none⟩ }

/-- A client that was connected long ago and gets one day from then on. -/
def lateSite : Site :=
  { Site.blank with
    base := { World.blank with now := 10 * 86400000 }
    clients := Table.empty.set 7 ⟨1, "a", none, none, 8, 9, 0, 3, 4, none, 0, .active, none, none,
      none, some 0⟩
    pendingStarts := Table.empty.set 7 1 }

/-- A reset of the client, and a renewal before its expiry. -/
theorem status_current_after_run_reset : Current 7
    (((ClientOp.autoRenew 200).task 7).run
      (((ClientOp.reset ⟨1, .owner⟩).task 7).run (lapsedSite 4)).2).2 := by
  refine @status_current_after_run 7 (lapsedSite 4) _ (.autoRenew 200) (fun c hc =>
    ⟨4, by decide, ?_⟩) (.single (.call (ClientOp.reset ⟨1, .owner⟩) trivial)) (by decide +kernel)
      (by decide +kernel)
  obtain rfl := Option.some.inj hc
  show _ = _
  decide

/-- A renewed client stays expired, and a client whose day is over stays active. -/
theorem renewed_client_expired :
    (Current 7 (lapsedSite 6) ∧ (((ClientOp.autoRenew 200).task 7).run (lapsedSite 6)).1 = .ok () ∧
      ¬Current 7 (((ClientOp.autoRenew 200).task 7).run (lapsedSite 6)).2) ∧
    Current 7 lateSite ∧ (((ClientOp.activate 500).task 7).run lateSite).1 = .ok () ∧
      ¬Current 7 (((ClientOp.activate 500).task 7).run lateSite).2 := by
  have hcurrent : ∀ {s : Site} {c : Client}, s.clients.get? 7 = some c →
      (Current 7 s ↔ c.status = derivedStatus c (c.usedUp + c.usedDown) s.base.now) := fun hc =>
    ⟨fun h => h _ hc, fun h c' hc' => by
      obtain rfl := Option.some.inj (hc.symm.trans hc')
      exact h⟩
  refine ⟨⟨(hcurrent rfl).mpr (by decide), by decide +kernel, fun h => ?_⟩,
    (hcurrent rfl).mpr (by decide), by decide +kernel, fun h => ?_⟩
  · exact absurd ((hcurrent rfl).mp h) (by decide +kernel)
  · exact absurd ((hcurrent rfl).mp h) (by decide +kernel)

end Site

end SRPanel
