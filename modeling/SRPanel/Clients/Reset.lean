import SRPanel.Clients.Update

/-!
# What `resetClientTraffic` does

A reset zeroes the counters of the links whose panels answer, and then counts the client again. What
the other panels have counted stays on their links, and on the client.
-/

namespace SRPanel

open Interleaving Prog

/-- The links that a reset zeroes, given the panels' answers and the number of the next call. -/
def resetLinks (replies : ℕ → Reply) (servers : List (ServerId × Server)) : ℕ → List LinkGroup →
    List LinkKey
  | _, [] => []
  | n, group :: rest =>
      if (servers.find? fun s => s.1 = group.serverId).isSome then
        (if replies n = .done then group.linkIds else []) ++ resetLinks replies servers (n + 1) rest
      else resetLinks replies servers n rest

namespace Site

/-- The links of a client that a reset zeroes. -/
def zeroedLinks (s : Site) (id : ClientId) : List LinkKey :=
  resetLinks s.replies (s.servers.rows.filter fun r => (s.linksOf id).any fun l =>
    l.1.serverId = r.1) s.calls (groupLinks (s.linksOf id))

/-- The counters of some links have been zeroed. -/
def Zeroed (keys : List LinkKey) (s s' : Site) : Prop :=
  (s'.links.mapRows fun _ l => l.noted) = s.links.mapRows fun k l =>
    if k ∈ keys then l.settled else l.noted

theorem Zeroed.nil (s : Site) : Zeroed [] s s := by
  unfold Zeroed
  congr 1

theorem Zeroed.append {keys keys' : List LinkKey} {s s₁ s' : Site} (h : Zeroed keys s s₁)
    (h' : Zeroed keys' s₁ s') : Zeroed (keys ++ keys') s s' := by
  have hstep : (s₁.links.mapRows fun k l => if k ∈ keys' then l.settled else l.noted) =
      (s₁.links.mapRows fun _ l => l.noted).mapRows fun k l =>
        if k ∈ keys' then l.settled else l := by
    rw [Table.mapRows_mapRows]
    congr 1
  have hs : (s₁.links.mapRows fun _ l => l.noted) =
      s.links.mapRows fun k l => if k ∈ keys then l.settled else l.noted := h
  unfold Zeroed at h' ⊢
  rw [h', hstep, hs, Table.mapRows_mapRows]
  congr 1
  funext k l
  by_cases hk : k ∈ keys <;> by_cases hk' :
    k ∈ keys' <;> simp [hk, hk', ClientServer.settled, ClientServer.noted]

theorem Zeroed.pushed {keys : List LinkKey} {s s₁ s' : Site} (h : Zeroed keys s s₁)
    (h' : Pushed s₁ s') : Zeroed keys s s' := by
  have hlinks : (s'.links.mapRows fun _ l => l.noted) = s₁.links.mapRows fun _ l => l.noted :=
    congrArg Site.links h'.lasting
  unfold Zeroed at h ⊢
  rw [hlinks, h]

/-- What a client's links count after the reset. -/
theorem Zeroed.linksOf {keys : List LinkKey} {s s' : Site} (h : Zeroed keys s s') (id : ClientId)
    (g : ClientServer → ℤ) (hnote : ∀ l : ClientServer, g l.noted = g l)
    (hzero : ∀ l : ClientServer, g l.settled = 0) :
    ((s'.linksOf id).map fun l => g l.2) = (s.linksOf id).map fun l =>
      if l.1 ∈ keys then 0 else g l.2 := by
  have aux : ∀ l : List (LinkKey × ClientServer),
      ((l.filter fun r => r.1.clientId = id).map fun r => g r.2) =
        (((l.map fun r => (r.1, r.2.noted)).filter fun r => r.1.clientId = id).map fun r =>
          g r.2) := by
    intro l
    rw [List.filter_map, List.map_map]
    refine List.map_congr_left fun r _ => ?_
    exact (hnote r.2).symm
  have hrows := congrArg Table.rows h
  rw [Table.rows_mapRows, Table.rows_mapRows] at hrows
  rw [Site.linksOf, aux, hrows, List.filter_map, List.map_map, Site.linksOf]
  refine List.map_congr_left fun r _ => ?_
  simp only [Function.comp_apply]
  split
  · exact hzero r.2
  · exact hnote r.2

theorem updateLinks_zeroed (keys : List LinkKey) (s : Site) :
    Zeroed keys s { s with links := s.links.mapRows fun k r =>
      if k ∈ keys then { r with up := 0, down := 0, lastError := none } else r } := by
  unfold Zeroed
  rw [Table.mapRows_mapRows]
  congr 1
  funext k l
  split
  · rfl
  · rfl

/-- A panel that answers done has reset its group, and any other has changed nothing. -/
theorem resetGroup_wp (server : Server) (group : LinkGroup) (s : Site) :
    Prog.wp (resetGroup server group) (fun _ s' => s'.replies = s.replies ∧ s'.calls = s.calls + 1 ∧
      Zeroed (if s.replies s.calls = .done then group.linkIds else []) s s')
        (fun _ _ => False) s := by
  rw [resetGroup, wp_attempt, wp_bind, callPanel_wp]
  cases h : s.replies s.calls with
  | done =>
      simp only [updateLinks, write, wp_bind, wp_modify, wp_pure]
      exact ⟨trivial, trivial, updateLinks_zeroed group.linkIds s⟩
  | fails message => exact ⟨rfl, rfl, Zeroed.nil s⟩
  | missing => exact ⟨rfl, rfl, Zeroed.nil s⟩

theorem resetGroups_wp (servers : List (ServerId × Server)) (groups : List LinkGroup) (s : Site) :
    Prog.wp (resetGroups servers groups) (fun _ s' => Synced s s' ∧
      Zeroed (resetLinks s.replies servers s.calls groups) s s') (fun _ _ => False) s := by
  refine wp_mono _ (wp_and ((resetGroups_synced servers groups).wp Synced.refl Synced.trans s) ?_)
    (fun _ _ h => h) fun _ _ h => h.2
  induction groups generalizing s with
  | nil => exact Zeroed.nil s
  | cons group rest ih =>
      rw [resetGroups, wp_bind, resetLinks]
      cases hserver : servers.find? fun s => s.1 = group.serverId with
      | none =>
          rw [if_neg (by simp)]
          dsimp only
          rw [wp_pure, wp_bind]
          exact wp_mono _ (ih s) (fun _ _ h => h) fun _ _ h => h
      | some server =>
          rw [if_pos (by rfl)]
          refine wp_mono _ (resetGroup_wp server.2 group s) (fun error s₁ h₁ => ?_) fun _ _ h => h
          obtain ⟨hreplies, hcalls, hzeroed⟩ := h₁
          rw [wp_bind]
          refine wp_mono _ (ih s₁) (fun errors s₂ h₂ => ?_) fun _ _ h => h
          rw [hreplies, hcalls] at h₂
          exact hzeroed.append h₂

/-- A lone reset zeroes the links whose panels answer and counts the client again, or does not find
it. -/
theorem resetClientTraffic_spec (actor : Actor) (id : ClientId) (s : Site) :
    Prog.wp (resetClientTraffic actor id)
      (fun _ s' => (s.clientOf actor id).isSome ∧ Synced s s' ∧ Zeroed (s.zeroedLinks id) s s' ∧
        s'.Tallied id)
      (fun _ s' => s.clientOf actor id = none ∧ s' = s) s := by
  unfold resetClientTraffic
  rw [wp_bind, (getClientForActor_reads actor id).wp_iff]
  rw [getClientForActor_run]
  cases hfound : s.clientOf actor id with
  | none => exact ⟨rfl, rfl⟩
  | some client =>
      obtain ⟨c, -, rfl⟩ := Option.map_eq_some_iff.mp hfound
      simp only [serversOf, read, wp_bind, wp_query]
      refine wp_mono _ (resetGroups_wp _ _ s) (fun errors s₁ h₁ => ?_) fun _ _ h => h.elim
      refine wp_mono _ (recomputeClient_wp id s₁) (fun _ s₂ h₂ => ?_) fun _ _ h => h.elim
      have hsynced := h₁.1.trans _ _ _ h₂.1.synced
      have hkept : (s₂.clientOf actor id).isSome := by
        rw [clientOf_isSome, hsynced.client id, ← clientOf_isSome, hfound]
        rfl
      -- the push of a limited client finds it again
      have hpush : Prog.wp (pushIfLimited actor ⟨id, c, s.linksOf id⟩)
          (fun _ s₃ => Annotated s₂ s₃) (fun _ _ => False) s₂ := by
        unfold pushIfLimited
        split
        · rw [wp_bind]
          refine wp_mono _ (getClientForActor_found (Synced.refl s₂) hkept) (fun fresh s₃ h₃ => ?_)
            fun _ _ h => h
          subst h₃
          rw [wp_bind]
          exact wp_mono _ (wp_and ((pushClient_annotated fresh).wp Annotated.refl Annotated.trans _)
            ((pushClient_returns fresh).wp _)) (fun _ _ h => h.1) fun _ _ h => h.2
        · exact Annotated.refl s₂
      refine wp_mono _ hpush (fun _ s₃ h₃ => ?_) fun _ _ h => h.elim
      refine wp_mono _ (wp_and ((lift_annotated (audit_keeps_logged _ _)).wp Annotated.refl
        Annotated.trans _) ((audit_returns _ _).zoom.wp _))
          (fun _ s₄ h₄ => ?_) fun _ _ h => h.2.elim
      have hrest := h₃.trans _ _ _ h₄.1
      exact ⟨rfl, hsynced.trans _ _ _ hrest.pushed.synced,
        h₁.2.pushed (h₂.1.trans _ _ _ hrest.pushed), h₂.2.annotated hrest⟩

end Site

end SRPanel
