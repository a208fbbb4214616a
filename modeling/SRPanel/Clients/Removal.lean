import SRPanel.Clients.Update
import SRPanel.Model.Refunds

/-!
# What a deletion leaves on the panels

A deletion asks the panel of every link group to remove its remote client, collects what the panels
answer, and deletes the row whatever they say. So a link is served after it exactly if it was served
before and its removal was not answered, and there is no row left to try again with.
-/

namespace SRPanel

open Interleaving Prog

/-! ## Link groups -/

/-- The key of a panel's remote client for a link. -/
def remoteKey (l : LinkKey × ClientServer) : ServerId × String := (l.1.serverId, l.2.remoteEmail)

/-- The panel and the e-mail under which a group is kept there. -/
def LinkGroup.remoteKey (g : LinkGroup) : ServerId × String := (g.serverId, g.remoteEmail)

/-- The groups stand for the links: each group has the links of its remote client, with their
inbounds. -/
structure Grouped (links : List (LinkKey × ClientServer)) (groups : List LinkGroup) : Prop where
  keys : (groups.map LinkGroup.remoteKey).Nodup
  inbounds : ∀ g ∈ groups, g.inboundIds = g.linkIds.map LinkKey.inboundId
  mem : ∀ g ∈ groups, ∀ k, k ∈ g.linkIds ↔ ∃ r, (k, r) ∈ links ∧ remoteKey (k, r) = g.remoteKey

theorem insertLink_keys (l : LinkKey × ClientServer) (groups : List LinkGroup)
    (k : ServerId × String) : k ∈ (insertLink l groups).map LinkGroup.remoteKey ↔
      k = remoteKey l ∨ k ∈ groups.map LinkGroup.remoteKey := by
  induction groups with
  | nil => simp [insertLink, LinkGroup.remoteKey, remoteKey]
  | cons h rest ih =>
      unfold insertLink
      split
      · next hjoin =>
        have hkey : remoteKey l = h.remoteKey := by
          rw [remoteKey, LinkGroup.remoteKey, hjoin.1, hjoin.2]
        simp only [List.map_cons, List.mem_cons, hkey, LinkGroup.remoteKey, or_self_left]
      · simp only [List.map_cons, List.mem_cons, ih]
        exact or_left_comm

theorem Grouped.tail {links : List (LinkKey × ClientServer)} {g : LinkGroup}
    {groups : List LinkGroup} (h : Grouped links (g :: groups)) : Grouped links groups where
  keys := (List.nodup_cons.mp h.keys).2
  inbounds g' hg' := h.inbounds g' (List.mem_cons_of_mem g hg')
  mem g' hg' := h.mem g' (List.mem_cons_of_mem g hg')

/-- A link of another remote client does not count for a group. -/
private theorem exists_link_cons_iff {l : LinkKey × ClientServer}
    {links : List (LinkKey × ClientServer)} {key : ServerId × String} (hne : remoteKey l ≠ key)
    (k : LinkKey) :
    (∃ r, (k, r) ∈ l :: links ∧ remoteKey (k, r) = key) ↔ ∃ r, (k, r) ∈ links ∧ remoteKey
    (k, r) = key := by
  refine exists_congr fun r => and_congr_left fun hkey => ?_
  rw [List.mem_cons, or_iff_right]
  rintro rfl
  exact hne hkey

theorem Grouped.insertLink {links : List (LinkKey × ClientServer)} {groups : List LinkGroup}
    (h : Grouped links groups) (l : LinkKey × ClientServer)
    (hkey : remoteKey l ∉ groups.map LinkGroup.remoteKey →
      ∀ l' ∈ links, remoteKey l' ≠ remoteKey l) :
    Grouped (l :: links) (insertLink l groups) := by
  -- on the groups: the link joins the first with its key, or goes on to the rest
  induction groups with
  | nil =>
      refine ⟨List.nodup_singleton _, fun g hg => ?_, fun g hg k => ?_⟩
      · obtain rfl := List.mem_singleton.mp hg
        rfl
      · obtain rfl := List.mem_singleton.mp hg
        rw [List.mem_singleton]
        constructor
        · rintro rfl
          exact ⟨l.2, List.mem_cons_self, rfl⟩
        · rintro ⟨r, hmem, hr⟩
          rcases List.mem_cons.mp hmem with heq | hmem
          · rw [← heq]
          · exact absurd hr (hkey (by simp) _ hmem)
  | cons g rest ih =>
      obtain ⟨hg, hrest⟩ := List.nodup_cons.mp h.keys
      unfold SRPanel.insertLink
      by_cases hjoin : g.serverId = l.1.serverId ∧ g.remoteEmail = l.2.remoteEmail
      · have heq : remoteKey l = g.remoteKey := by
          rw [remoteKey, LinkGroup.remoteKey, hjoin.1, hjoin.2]
        rw [if_pos hjoin]
        refine ⟨h.keys, fun g' hg' => ?_, fun g' hg' k => ?_⟩
        · rcases List.mem_cons.mp hg' with rfl | hg'
          · rw [List.map_append, ← h.inbounds g List.mem_cons_self]
            rfl
          · exact h.inbounds g' (List.mem_cons_of_mem g hg')
        · rcases List.mem_cons.mp hg' with rfl | hg'
          · show k ∈ g.linkIds ++ [l.1] ↔ ∃ r, (k, r) ∈ l :: links ∧ remoteKey (k, r) = g.remoteKey
            rw [List.mem_append, List.mem_singleton, h.mem g List.mem_cons_self]
            constructor
            · rintro (⟨r, hmem, hr⟩ | rfl)
              · exact ⟨r, List.mem_cons_of_mem l hmem, hr⟩
              · exact ⟨l.2, List.mem_cons_self, heq⟩
            · rintro ⟨r, hmem, hr⟩
              rcases List.mem_cons.mp hmem with rfl | hmem
              · exact .inr rfl
              · exact .inl ⟨r, hmem, hr⟩
          · rw [exists_link_cons_iff, h.mem g' (List.mem_cons_of_mem g hg')]
            rintro hl
            exact hg (List.mem_map.mpr ⟨g', hg', hl.symm.trans heq⟩)
      · have hne : remoteKey l ≠ g.remoteKey := fun heq => hjoin
          ⟨(congrArg Prod.fst heq).symm, (congrArg Prod.snd heq).symm⟩
        rw [if_neg hjoin]
        have htail := ih h.tail fun hl => hkey (by
          rw [List.map_cons, List.mem_cons, not_or]
          exact ⟨hne, hl⟩)
        refine ⟨?_, fun g' hg' => ?_, fun g' hg' k => ?_⟩
        · rw [List.map_cons, List.nodup_cons, insertLink_keys, not_or]
          exact ⟨⟨hne.symm, hg⟩, htail.keys⟩
        · rcases List.mem_cons.mp hg' with rfl | hg'
          · exact h.inbounds g' List.mem_cons_self
          · exact htail.inbounds g' hg'
        · rcases List.mem_cons.mp hg' with rfl | hg'
          · rw [exists_link_cons_iff hne, h.mem g' List.mem_cons_self]
          · exact htail.mem g' hg' k

/-- `groupLinks` groups the links. -/
theorem groupLinks_grouped (links : List (LinkKey × ClientServer)) :
    Grouped links (groupLinks links) ∧
      ∀ l ∈ links, remoteKey l ∈ (groupLinks links).map LinkGroup.remoteKey := by
  have hfold : ∀ (todo done : List (LinkKey × ClientServer)) (groups : List LinkGroup),
      Grouped done groups → (∀ l ∈ done, remoteKey l ∈ groups.map LinkGroup.remoteKey) →
      Grouped (todo.reverse ++ done) (todo.foldl (fun gs l => SRPanel.insertLink l gs) groups) ∧
      ∀ l ∈ todo.reverse ++ done,
        remoteKey l ∈ (todo.foldl
          (fun gs l => SRPanel.insertLink l gs) groups).map LinkGroup.remoteKey := by
    intro todo
    induction todo with
    | nil => exact fun done groups h hkeys => ⟨h, hkeys⟩
    | cons l todo ih =>
        intro done groups h hkeys
        rw [List.foldl_cons, List.reverse_cons, List.append_assoc]
        refine ih (l :: done) _ (h.insertLink l fun hl l' hl' heq => hl (heq ▸ hkeys l' hl'))
          fun l' hl' => ?_
        rw [insertLink_keys]
        rcases List.mem_cons.mp hl' with rfl | hl'
        · exact .inl rfl
        · exact .inr (hkeys l' hl')
  obtain ⟨hgrouped, hkeys⟩ :=
    hfold (links.insertionSort fun a b => a.1.inboundId ≤ b.1.inboundId) [] [] ⟨List.nodup_nil,
      fun _ hg => absurd hg List.not_mem_nil, fun _ hg => absurd hg List.not_mem_nil⟩
    fun _ hl => absurd hl List.not_mem_nil
  rw [List.append_nil] at hgrouped hkeys
  have hperm := (List.reverse_perm _).trans (List.perm_insertionSort
    (fun a b => a.1.inboundId ≤ b.1.inboundId) links)
  refine ⟨⟨hgrouped.keys, hgrouped.inbounds, fun g hg k => ?_⟩, fun l hl =>
    hkeys l (hperm.mem_iff.mpr hl)⟩
  rw [hgrouped.mem g hg]
  exact exists_congr fun r => and_congr_left fun _ => hperm.mem_iff

/-! ## Removals -/

/-- The links that the legacy deletion takes off one by one, up to the first call that is not
answered, and the number of the next call. -/
def detached (replies : ℕ → Reply) : ℕ → List LinkKey → List LinkKey × ℕ
  | n, [] => ([], n)
  | n, k :: ks =>
      if replies n = .done then (k :: (detached replies (n + 1) ks).1,
        (detached replies (n + 1) ks).2)
      else ([], n + 1)

/-- The links that the deletion of a group takes off, and the number of the next call. -/
def removedBy (replies : ℕ → Reply) (n : ℕ) (group : LinkGroup) : List LinkKey × ℕ :=
  match replies n with
  | .done => (group.linkIds, n + 1)
  | .fails _ => ([], n + 1)
  | .missing => detached replies (n + 1) group.linkIds

/-- The links that a deletion takes off, given the panels' answers and the number of the next call.
-/
def removals (replies : ℕ → Reply) (servers : List (ServerId × Server)) : ℕ → List LinkGroup →
    List LinkKey
  | _, [] => []
  | n, group :: rest =>
      if (servers.find? fun s => s.1 = group.serverId).isSome then
        (removedBy replies n group).1 ++ removals replies servers (removedBy replies n group).2 rest
      else removals replies servers n rest

namespace Site

/-- The panel of a link serves it. -/
def Served (s : Site) (l : LinkKey × ClientServer) : Prop :=
  ∃ r, s.remote.get? (remoteKey l) = some r ∧ l.1.inboundId ∈ r.inboundIds

/-- The remote client of a link, if there is one, has the client's secret, and each inbound once. -/
def Owned (s : Site) (uuid : Draw) (l : LinkKey × ClientServer) : Prop :=
  ∀ r, s.remote.get? (remoteKey l) = some r → r.uuid = uuid ∧ r.inboundIds.Nodup

/-- Calls to panels after which the links that were served are served but for the removed ones. -/
structure Removing (uuid : Draw) (links : List (LinkKey × ClientServer))
    (removed : List LinkKey) (n : ℕ) (s s' : Site) : Prop where
  rest : s' = { s with remote := s'.remote, calls := n }
  owned : ∀ l ∈ links, s'.Owned uuid l
  served : ∀ l ∈ links, s'.Served l ↔ s.Served l ∧ l.1 ∉ removed

variable {uuid : Draw} {links : List (LinkKey × ClientServer)}

/-- A call alone removes no link. -/
theorem Removing.none {s : Site} (howned : ∀ l ∈ links, s.Owned uuid l) (n : ℕ) :
    Removing uuid links [] n s { s with calls := n } where
  rest := rfl
  owned := howned
  served l _ := by simp [Served]

/-- Removals after one another. -/
theorem Removing.append {removed removed' : List LinkKey} {n n' : ℕ} {s s₁ s' : Site}
    (h : Removing uuid links removed n s s₁) (h' : Removing uuid links removed' n' s₁ s') :
    Removing uuid links (removed ++ removed') n' s s' where
  rest := by rw [h'.rest, h.rest]
  owned := h'.owned
  served l hl := by rw [h'.served l hl, h.served l hl, List.mem_append, not_or, and_assoc]

theorem callRoute_wp (f : Remote → Remote) {Q : Bool → Site → Prop} {E : AppError → Site → Prop}
    {s : Site} : Prog.wp (callRoute f) Q E s ↔ match s.replies s.calls with
      | .done => Q true { s with remote := f s.remote, calls := s.calls + 1 }
      | .fails message => E ⟨message, 502, "panel_error"⟩ { s with calls := s.calls + 1 }
      | .missing => Q false { s with calls := s.calls + 1 } := by
  rw [callRoute, wp_step]
  cases s.replies s.calls with
  | done => exact Iff.rfl
  | fails message => exact Iff.rfl
  | missing => exact Iff.rfl

/-- The links are all links of one client. -/
def LinksOf (id : ClientId) (links : List (LinkKey × ClientServer)) : Prop :=
  ∀ l ∈ links, l.1.clientId = id

/-- The legacy route takes one inbound off. -/
theorem detach_removing {id : ClientId} (hlinks : LinksOf id links) {k : LinkKey}
    (hk : k.clientId = id) {s : Site} (howned : ∀ l ∈ links, s.Owned uuid l) :
    Removing uuid links [k] (s.calls + 1) s
      { s with remote := detach k.serverId uuid k.inboundId s.remote, calls := s.calls + 1 } := by
  have hget : ∀ l, (detach k.serverId uuid k.inboundId s.remote).get? (remoteKey l) =
      (s.remote.get? (remoteKey l)).map fun r => if l.1.serverId = k.serverId ∧ r.uuid = uuid then
        { r with inboundIds := r.inboundIds.erase k.inboundId } else r :=
          fun l => Table.get?_mapRows _ _ _
  refine ⟨rfl, fun l hl r hr => ?_, fun l hl => ?_⟩
  · obtain ⟨r₀, hr₀, rfl⟩ := Option.map_eq_some_iff.mp ((hget l).symm.trans hr)
    obtain ⟨huuid, hnodup⟩ := howned l hl r₀ hr₀
    split
    · exact ⟨huuid, hnodup.erase _⟩
    · exact ⟨huuid, hnodup⟩
  · unfold Served
    rw [List.mem_singleton]
    show (∃ r, (detach k.serverId uuid k.inboundId s.remote).get? (remoteKey l) = some r ∧ _) ↔ _
    rw [hget l]
    cases hr₀ : s.remote.get? (remoteKey l) with
    | none => simp
    | some r₀ =>
        obtain ⟨huuid, hnodup⟩ := howned l hl r₀ hr₀
        simp only [Option.map_some, Option.some.injEq, exists_eq_left', huuid, and_true]
        by_cases hserver : l.1.serverId = k.serverId
        · have heq : l.1 = k ↔ l.1.inboundId = k.inboundId := by
            refine ⟨fun h => by rw [h], fun h => ?_⟩
            calc l.1 = ⟨l.1.clientId, l.1.serverId, l.1.inboundId⟩ := rfl
              _ = ⟨k.clientId, k.serverId, k.inboundId⟩ := by rw [hlinks l hl, hk, hserver, h]
              _ = k := rfl
          rw [if_pos hserver, heq]
          exact (hnodup.mem_erase_iff).trans and_comm
        · rw [if_neg hserver]
          exact (and_iff_left fun h => hserver (by rw [h])).symm

theorem detachAll_wp {id : ClientId} (hlinks : LinksOf id links) (serverId : ServerId)
    (keys : List LinkKey) (hkeys : ∀ k ∈ keys, k.clientId = id ∧ k.serverId = serverId) (s : Site)
    (howned : ∀ l ∈ links, s.Owned uuid l) :
    Prog.wp (detachAll serverId uuid (keys.map LinkKey.inboundId))
      (fun _ => Removing uuid links (detached s.replies s.calls keys).1
        (detached s.replies s.calls keys).2 s)
      (fun _ => Removing uuid links (detached s.replies s.calls keys).1
        (detached s.replies s.calls keys).2 s)
      s := by
  induction keys generalizing s with
  | nil => exact Removing.none howned s.calls
  | cons k ks ih =>
      obtain ⟨hk, hserver⟩ := hkeys k List.mem_cons_self
      rw [List.map_cons, detachAll, wp_bind, callPanel_wp, detached]
      cases h : s.replies s.calls with
      | done =>
          dsimp only
          rw [if_pos rfl]
          have hstep := detach_removing hlinks hk howned
          rw [hserver] at hstep
          exact wp_mono _ (ih (fun k' hk' => hkeys k' (List.mem_cons_of_mem k hk')) _ hstep.owned)
            (fun _ _ h => hstep.append h) fun _ _ h => hstep.append h
      | fails message => exact Removing.none howned _
      | missing => exact Removing.none howned _

/-- The deletion of a group never throws, and takes off the links that are answered. -/
theorem deleteGroup_wp {id : ClientId} (hlinks : LinksOf id links) {c : Client} (server : Server)
    {groups : List LinkGroup} (hgroups : Grouped links groups) {group : LinkGroup}
    (hmem : group ∈ groups)
    (hunique : ∀ l ∈ links, l.1 ∈ group.linkIds ↔ remoteKey l = group.remoteKey)
    (s : Site) (howned : ∀ l ∈ links, s.Owned c.uuid l) :
    Prog.wp (deleteGroup c server group)
      (fun _ => Removing c.uuid links (removedBy s.replies s.calls group).1
        (removedBy s.replies s.calls group).2 s) (fun _ _ => False) s := by
  have hkeys : ∀ k ∈ group.linkIds, k.clientId = id ∧ k.serverId = group.serverId := by
    intro k hk
    obtain ⟨r, hr, hkey⟩ := (hgroups.mem group hmem k).mp hk
    exact ⟨hlinks _ hr, congrArg Prod.fst hkey⟩
  rw [deleteGroup, wp_attempt, deleteOnPanel, wp_bind, wp_bind, callRoute_wp, removedBy]
  -- the client is removed, the panel fails, or its inbounds are detached one by one
  cases h : s.replies s.calls with
  | done =>
      have hget : ∀ k, (s.remote.erase group.remoteKey).get? k =
          if k = group.remoteKey then none else s.remote.get? k := s.remote.get?_erase _
      refine ⟨rfl, fun l hl r hr => ?_, fun l hl => ?_⟩
      · change (s.remote.erase group.remoteKey).get? _ = _ at hr
        rw [hget] at hr
        split at hr
        · cases hr
        · exact howned l hl r hr
      · rw [hunique l hl]
        unfold Served
        show (∃ r, (s.remote.erase group.remoteKey).get? _ = some r ∧ _) ↔ _
        rw [hget]
        split
        · next heq => simp [heq]
        · next hne => simp [hne]
  | fails message =>
      dsimp only
      rw [wp_pure]
      exact Removing.none howned _
  | missing =>
      dsimp only
      rw [if_neg Bool.false_ne_true, hgroups.inbounds group hmem]
      have hstep := detachAll_wp
        (s := { s with calls := s.calls + 1 }) hlinks group.serverId group.linkIds hkeys howned
      refine wp_mono _ hstep (fun _ s' h => ?_) fun err s' h => ?_
      · exact (Removing.none howned (s.calls + 1)).append h
      · rw [wp_pure]
        exact (Removing.none howned (s.calls + 1)).append h

/-- The deletion of all groups. -/
theorem deleteGroups_wp {id : ClientId} (hlinks : LinksOf id links)
    (hnodup : (links.map Prod.fst).Nodup) {c : Client} (servers : List (ServerId × Server))
    {all groups : List LinkGroup} (hall : Grouped links all)
    (hsub : ∀ g ∈ groups, g ∈ all) (s : Site) (howned : ∀ l ∈ links, s.Owned c.uuid l) :
    Prog.wp (deleteGroups c servers groups)
      (fun _ s' => ∃ n, Removing c.uuid links (removals s.replies servers s.calls groups) n s s')
      (fun _ _ => False) s := by
  induction groups generalizing s with
  | nil => exact ⟨s.calls, Removing.none howned s.calls⟩
  | cons group rest ih =>
      rw [deleteGroups, wp_bind, removals]
      have hrest := fun g hg => hsub g (List.mem_cons_of_mem group hg)
      cases hserver : servers.find? fun s => s.1 = group.serverId with
      | none =>
          rw [if_neg (by simp)]
          dsimp only
          rw [wp_pure, wp_bind]
          exact wp_mono _ (ih hrest s howned) (fun _ _ h => h) fun _ _ h => h
      | some server =>
          rw [if_pos (by rfl)]
          have hunique : ∀ l ∈ links, l.1 ∈ group.linkIds ↔ remoteKey l = group.remoteKey := by
            intro l hl
            rw [hall.mem group (hsub group List.mem_cons_self)]
            constructor
            · rintro ⟨r, hr, hkey⟩
              have heq : (l.1, r) = l := List.inj_on_of_nodup_map hnodup hr hl rfl
              rwa [heq] at hkey
            · exact fun hkey => ⟨l.2, hl, hkey⟩
          refine wp_mono _ (deleteGroup_wp hlinks server.2 hall
            (hsub group List.mem_cons_self) hunique s howned) (fun error s₁ h₁ => ?_) fun _ _ h => h
          rw [wp_bind]
          refine wp_mono _ (ih hrest s₁ h₁.owned) (fun errors s₂ h₂ => ?_) fun _ _ h => h
          obtain ⟨n, h₂⟩ := h₂
          have hreplies : s₁.replies = s.replies := by rw [h₁.rest]
          have hcalls : s₁.calls = (removedBy s.replies s.calls group).2 := by rw [h₁.rest]
          rw [hreplies, hcalls] at h₂
          exact ⟨n, h₁.append h₂⟩

/-! ## The operation -/

/-- The links of a client that a deletion takes off. -/
def removedLinks (s : Site) (id : ClientId) : List LinkKey :=
  removals s.replies (s.servers.rows.filter fun r => (s.linksOf id).any fun l => l.1.serverId = r.1)
    s.calls (groupLinks (s.linksOf id))

/-- The state without a client, its links and its pending start. -/
def without (s : Site) (id : ClientId) : Site :=
  { s with
    clients := s.clients.erase id
    links := s.links.keep fun k => k.clientId ≠ id
    pendingStarts := s.pendingStarts.erase id }

theorem linksOf_linksOf (s : Site) (id : ClientId) : LinksOf id (s.linksOf id) := by
  intro l hl
  simpa using (List.mem_filter.mp hl).2

theorem linksOf_nodup (s : Site) (id : ClientId) : ((s.linksOf id).map Prod.fst).Nodup :=
  s.links.nodup_keys.sublist (List.filter_sublist.map Prod.fst)

/-- A site in which only the panels have been called. -/
def Panelled (s s' : Site) : Prop := s' = { s with remote := s'.remote, calls := s'.calls }

theorem Panelled.refl (s : Site) : Panelled s s := rfl

theorem Panelled.trans (s s' s'' : Site) (h : Panelled s s') (h' : Panelled s' s'') :
    Panelled s s'' := by
  unfold Panelled at h h' ⊢
  rw [h', h]

theorem callRoute_panelled (f : Remote → Remote) : (callRoute f).Keeps Panelled := by
  refine keeps_step fun s => ?_
  cases s.replies s.calls with
  | done => rfl
  | fails message => rfl
  | missing => rfl

theorem detachAll_panelled (serverId : ServerId) (uuid : Draw) (inbounds : List ℕ) :
    (detachAll serverId uuid inbounds).Keeps Panelled := by
  induction inbounds with
  | nil => exact keeps_pure ()
  | cons i inbounds ih =>
      exact keeps_bind (callPanel_keeps (fun _ => rfl) fun _ => rfl) fun _ => ih

theorem deleteGroups_panelled (c : Client) (servers : List (ServerId × Server))
    (groups : List LinkGroup) : (deleteGroups c servers groups).Keeps Panelled := by
  induction groups with
  | nil => exact keeps_pure []
  | cons group rest ih =>
      refine keeps_bind ?_ fun _ => keeps_bind ih fun _ => keeps_pure _
      cases servers.find? fun s => s.1 = group.serverId with
      | none => exact keeps_pure none
      | some server =>
          refine keeps_attempt (keeps_bind (keeps_bind (callRoute_panelled _) fun there =>
            keeps_ite (keeps_pure ()) (detachAll_panelled _ _ _)) fun _ => keeps_pure none)
            fun _ => keeps_pure _

theorem deleteGroups_returns (c : Client) (servers : List (ServerId × Server))
    (groups : List LinkGroup) : (deleteGroups c servers groups).Returns := by
  induction groups with
  | nil => exact returns_pure []
  | cons group rest ih =>
      refine returns_bind ?_ fun _ => returns_bind ih fun _ => returns_pure _
      cases servers.find? fun s => s.1 = group.serverId with
      | none => exact returns_pure none
      | some server => exact returns_attempt fun _ => returns_pure _

/-- What the panels are asked to remove for a client. -/
def unlinking (s : Site) (id : ClientId) (c : Client) : Task (List String) :=
  deleteGroups c (s.servers.rows.filter fun r => (s.linksOf id).any fun l => l.1.serverId = r.1)
    (groupLinks (s.linksOf id))

theorem unlinking_wp (s : Site) (id : ClientId) (c : Client) :
    Prog.wp (s.unlinking id c) (fun _ s₁ => Panelled s s₁) (fun _ _ => False) s :=
  wp_mono _ (wp_and ((deleteGroups_panelled _ _ _).wp Panelled.refl Panelled.trans s)
    ((deleteGroups_returns _ _ _).wp s)) (fun _ _ h => h.1) fun _ _ h => h.2

/-- A lone `deleteClient` of a client that is found deletes its row after the panels have been
asked. -/
theorem deleteClient_wp (actor : Operator) (id : ClientId) (s : Site) {client : FullClient}
    {P : Site → Prop} (hfound : s.clientOf actor.actor id = some client)
    (hpanels : Prog.wp (s.unlinking id client.row) (fun _ => P) (fun _ _ => False) s) :
    Prog.wp (deleteClient actor id)
      (fun _ s' => ∃ s₁, Panelled s s₁ ∧ P s₁ ∧ (s₁.without id).Logs s') (fun _ _ => False) s := by
  obtain ⟨c, hc, rfl⟩ := Option.map_eq_some_iff.mp hfound
  obtain ⟨-, hget, -⟩ := clientOf_id hfound
  unfold deleteClient
  rw [wp_bind, (getClientForActor_reads actor.actor id).wp_iff, getClientForActor_run, hfound]
  dsimp only
  rw [wp_bind, serversOf, read, wp_query, wp_bind]
  refine wp_mono _ (wp_and (s.unlinking_wp id c) hpanels) (fun errors s₁ h₁ => ?_) fun _ _ h => h.2
  have hrow : s₁.clients.get? id = some c := by
    rw [h₁.1]
    exact hget
  simp only [wp_bind, deleteRow, wp_step, hrow, clearPendingStart, write, wp_modify]
  refine wp_mono _ (wp_and ((lift_logs (audit_keeps_logged _ _)).wp Logs.refl Logs.trans _)
    ((audit_returns _ _).zoom.wp _)) (fun _ s₂ h₂ => ?_) fun _ _ h => h.2
  exact ⟨s₁, h₁.1, h₁.2, h₂.1⟩

/-- A lone `deleteClient` of a client that is found deletes its row, whatever the panels answer. -/
theorem deleteClient_spec (actor : Operator) (id : ClientId) (s : Site) {client : FullClient}
    (hfound : s.clientOf actor.actor id = some client)
    (howned : ∀ l ∈ s.linksOf id, s.Owned client.row.uuid l) :
    Prog.wp (deleteClient actor id)
      (fun _ s' => ∃ s₁ n, Removing client.row.uuid (s.linksOf id) (s.removedLinks id) n s s₁ ∧
        (s₁.without id).Logs s') (fun _ _ => False) s := by
  have hpanels := deleteGroups_wp (c := client.row) (s.linksOf_linksOf id) (s.linksOf_nodup id)
    (s.servers.rows.filter fun r => (s.linksOf id).any fun l => l.1.serverId = r.1)
    (groupLinks_grouped (s.linksOf id)).1 (fun _ hg => hg) s howned
  refine wp_mono _ (deleteClient_wp actor id s hfound hpanels) (fun errors s' h => ?_) fun _ _ h =>
    h
  obtain ⟨s₁, -, ⟨n, h₁⟩, hlogs⟩ := h
  exact ⟨s₁, n, h₁, hlogs⟩

end Site

/-- The refund of a quote is booked. -/
def World.repaid (w : World) (quote : RefundQuote) (byAdminId : AdminId) : World :=
  if 0 < quote.amount then
    { w with
      admins := w.admins.modify quote.adminId fun a =>
        { a with credit := w.balance quote.adminId + quote.amount }
      walletTxs := ⟨quote.adminId, .refund, quote.amount, w.balance quote.adminId + quote.amount,
        .client quote.clientId, some byAdminId⟩ :: w.walletTxs }
  else w

namespace Site

/-- The refund of a quote is paid. -/
def repaid (s : Site) (quote : RefundQuote) (byAdminId : AdminId) : Site :=
  { s with base := s.base.repaid quote byAdminId }

theorem Logs.repaid {s s' : Site} (h : s.Logs s') (quote : RefundQuote) (byAdminId : AdminId) :
    (s.repaid quote byAdminId).Logs (s'.repaid quote byAdminId) := by
  have hadmins : s'.base.admins = s.base.admins := h.base.same World.admins fun _ => rfl
  have htxs : s'.base.walletTxs = s.base.walletTxs := h.base.same World.walletTxs fun _ => rfl
  have hbalance : s'.base.balance quote.adminId = s.base.balance quote.adminId := by
    rw [World.balance, hadmins, World.balance]
  refine ⟨by rw [Site.repaid, h.rest]; rfl, ?_⟩
  show ({ s'.base.repaid quote byAdminId with journal := [] } : World) =
    { s.base.repaid quote byAdminId with journal := [] }
  have hbase : ({ s'.base with journal := [] } : World) = { s.base with journal := [] } := h.base
  unfold World.repaid
  split
  · rw [hadmins, htxs, hbalance]
    exact congrArg (fun w : World => ({ w with
      admins := s.base.admins.modify quote.adminId fun a =>
        { a with credit := s.base.balance quote.adminId + quote.amount }
      walletTxs := ⟨quote.adminId, .refund, quote.amount,
        s.base.balance quote.adminId + quote.amount, .client quote.clientId,
        some byAdminId⟩ :: s.base.walletTxs } : World)) hbase
  · exact hbase

theorem payRefund_spec (actor : Operator) (errors : List String) (quote : RefundQuote) (s : Site)
    (hpos : 0 < quote.amount) (hrow : (s.base.admins.get? quote.adminId).isSome) :
    Prog.wp (payRefund actor quote.clientId errors quote)
      (fun r s' => r.refund = quote.amount ∧ (s.repaid quote actor.id).Logs s')
        (fun _ _ => False) s := by
  obtain ⟨a, ha⟩ := Option.isSome_iff_exists.mp hrow
  have hbal : s.base.balance quote.adminId = a.credit := by
    rw [World.balance, ha]
    rfl
  have hcharge : (chargeWallet ⟨quote.adminId, .admin⟩ quote.amount .refund (.client quote.clientId)
      (some actor.id) true).run s.base = (.ok (some ⟨quote.adminId, .refund, quote.amount,
        a.credit + quote.amount, .client quote.clientId, some actor.id⟩),
        s.base.repaid quote actor.id) := by
    unfold chargeWallet
    rw [if_neg (by simp), if_neg (by omega), debitLimit, if_neg (by simp)]
    simp only [Db.read, run_bind, run_pure, run_query, ha, Option.any_none, Bool.false_eq_true,
      if_false, commitCharge, run_step, alertAfter]
    rw [if_neg (by omega), run_pure, World.repaid, if_pos hpos, hbal]
  have hlift : Prog.wp (lift
      (chargeWallet ⟨quote.adminId, .admin⟩ quote.amount .refund (.client quote.clientId)
        (some actor.id) true)) (fun _ s' => s' = s.repaid quote actor.id) (fun _ _ => False) s := by
    rw [lift, wp_zoom, Prog.wp, world_get, hcharge]
    rfl
  rw [payRefund, wp_attempt, wp_bind]
  refine wp_mono _ hlift (fun _ s₀ h₀ => ?_) fun _ _ h => h.elim
  subst h₀
  rw [wp_bind]
  refine wp_mono _ (wp_and ((lift_logs (audit_keeps_logged _ _)).wp Logs.refl Logs.trans _)
    ((audit_returns _ _).zoom.wp _)) (fun _ s₁ h₁ => ?_) fun _ _ h => h.2.elim
  rw [wp_bind]
  refine wp_mono _ (wp_and ((lift_logs (notify_keeps_logged _)).wp Logs.refl Logs.trans _)
    ((notify_returns _).zoom.wp _)) (fun _ s₂ h₂ => ?_) fun _ _ h => h.2.elim
  exact ⟨rfl, h₁.1.trans _ _ _ h₂.1⟩

/-- The refund quote of a client, as a figure of the state. -/
def quoteOf (s : Site) (id : ClientId) (x : RefundSubject) : RefundQuote :=
  let unit := unitPrices s.pricing x.account
  let txs := s.clientTxs x.client.adminId id
  let pending := if x.client.expiresAt.isSome then none else s.pendingStarts.get? id
  let days := remainingDays x.client pending s.base.now
  let gross := unusedGB x.client * unit.perGB + days * unit.perDay
  let result := refundAmount s.refund x.role unit.enabled (purchases txs - refunds txs) gross
  ⟨id, x.client.adminId, purchases txs, refunds txs, unusedGB x.client, days, unit.perGB,
    unit.perDay, s.refund.refundPercent, gross, result.1, result.2⟩

theorem pendingOf_run (c : Client) (id : ClientId) (s : Site) :
    (pendingOf c id).run s = (.ok (if c.expiresAt.isSome then none else s.pendingStarts.get? id),
      s) := by
  unfold pendingOf
  split <;> rfl

theorem quoteRefund_run (id : ClientId) (s : Site) :
    (quoteRefund id).run s = (match s.refundSubject id with
      | none => .error (notFoundError "کلاینت پیدا نشد")
      | some x => .ok (s.quoteOf id x), s) := by
  simp only [quoteRefund, read, run_bind, run_query]
  cases s.refundSubject id with
  | none => rfl
  | some x =>
      simp only [run_bind, run_query, pendingOf_run, read, now]
      rfl

/-- The quote that a deletion takes first. -/
theorem takenQuote_wp (id : ClientId) (s : Site) :
    Prog.wp (Prog.attempt (do
      let quote ← quoteRefund id
      pure (some quote)) fun _ => pure none)
      (fun quote s' => quote = (s.refundSubject id).map (s.quoteOf id) ∧ s' = s)
        (fun _ _ => False) s := by
  rw [wp_attempt, wp_bind]
  unfold Prog.wp
  rw [quoteRefund_run]
  cases s.refundSubject id with
  | none => exact ⟨rfl, rfl⟩
  | some x => exact ⟨rfl, rfl⟩

theorem refundSubject_some {s : Site} {id : ClientId} {x : RefundSubject}
    (h : s.refundSubject id = some x) : s.clients.get? id = some x.client ∧
      s.operator x.client.adminId = some ⟨x.client.adminId, x.role, x.account⟩ := by
  unfold refundSubject at h
  cases hc : s.clients.get? id with
  | none => rw [hc] at h; cases h
  | some c =>
      rw [hc] at h
      dsimp only [Option.bind_eq_bind, Option.bind_some] at h
      cases ho : s.operator c.adminId with
      | none => rw [ho] at h; cases h
      | some o =>
          rw [ho] at h
          obtain rfl := Option.some.inj h
          have hid := (operator_account ho).1
          exact ⟨rfl, by rw [ho, ← hid]⟩

/-- The state after the refund of a client, if there is a quote. -/
def refunded (s s₁ : Site) (id : ClientId) (byAdminId : AdminId) : Site :=
  match s.refundSubject id with
  | none => s₁.without id
  | some x => (s₁.without id).repaid (s.quoteOf id x) byAdminId

/-- The amount that a deletion refunds. -/
def refundDue (s : Site) (id : ClientId) : ℤ :=
  ((s.refundSubject id).map fun x => max 0 (s.quoteOf id x).amount).getD 0

/-- A lone `deleteClientWithRefund` of a client that is found deletes its row after the panels have
been asked, and pays the refund of the quote that was taken before. -/
theorem deleteClientWithRefund_wp (actor : Operator) (id : ClientId) (s : Site)
    {client : FullClient} {P : Site → Prop} (hfound : s.clientOf actor.actor id = some client)
    (hpanels : Prog.wp (s.unlinking id client.row) (fun _ => P) (fun _ _ => False) s) :
    Prog.wp (deleteClientWithRefund actor id)
      (fun r s' => r.refund = s.refundDue id ∧
        ∃ s₁, Panelled s s₁ ∧ P s₁ ∧ (refunded s s₁ id actor.id).Logs s') (fun _ _ => False) s := by
  unfold deleteClientWithRefund
  rw [wp_bind]
  refine wp_mono _ (takenQuote_wp id s) (fun quote s₀ h₀ => ?_) fun _ _ h => h
  obtain ⟨rfl, rfl⟩ := h₀
  rw [wp_bind]
  refine wp_mono _ (deleteClient_wp actor id s₀ hfound hpanels)
    (fun errors s₂ h₂ => ?_) fun _ _ h => h
  obtain ⟨s₁, h₁, hP, hlogs⟩ := h₂
  rw [wp_bind, wp_attempt, clearPendingStart, write, wp_modify]
  -- the pending start is cleared twice
  have hclear : ({ s₂ with pendingStarts := s₂.pendingStarts.erase id } : Site) = s₂ := by
    have hstarts : s₂.pendingStarts = s₁.pendingStarts.erase id := by rw [hlogs.rest]; rfl
    rw [hstarts, Table.erase_erase_self, ← hstarts]
  rw [hclear]
  cases hx : s₀.refundSubject id with
  | none =>
      refine ⟨?_, s₁, h₁, hP, ?_⟩
      · unfold refundDue
        rw [hx]
        rfl
      · unfold refunded
        rw [hx]
        exact hlogs
  | some x =>
      have hdue : s₀.refundDue id = max 0 (s₀.quoteOf id x).amount := by
        unfold refundDue
        rw [hx]
        rfl
      have hrefunded : ∀ t, refunded s₀ t id actor.id =
          (t.without id).repaid (s₀.quoteOf id x) actor.id := by
        intro t
        unfold refunded
        rw [hx]
      dsimp only [Option.map_some]
      simp only [hdue, hrefunded]
      by_cases hpos : 0 < (s₀.quoteOf id x).amount
      · rw [if_neg (by omega)]
        have hrow : (s₂.base.admins.get? (s₀.quoteOf id x).adminId).isSome := by
          obtain ⟨-, hoperator⟩ := refundSubject_some hx
          have hadmins : s₂.base.admins = s₀.base.admins := by
            rw [hlogs.base.same World.admins fun _ => rfl]
            show s₁.base.admins = _
            rw [h₁]
          rw [hadmins]
          exact operator_row hoperator
        refine wp_mono _ (payRefund_spec actor errors (s₀.quoteOf id x) s₂ hpos hrow)
          (fun r s' h => ?_) fun _ _ h => h
        refine ⟨by rw [h.1, max_eq_right hpos.le], s₁, h₁, hP, ?_⟩
        exact (hlogs.repaid (s₀.quoteOf id x) actor.id).trans _ _ _ h.2
      · rw [if_pos (by omega), wp_pure]
        refine ⟨(max_eq_left (not_lt.mp hpos)).symm, s₁, h₁, hP, ?_⟩
        rw [repaid, World.repaid, if_neg hpos]
        exact hlogs

/-- A lone `deleteClientWithRefund` takes the links off whose panels answer. -/
theorem deleteClientWithRefund_spec (actor : Operator) (id : ClientId) (s : Site)
    {client : FullClient} (hfound : s.clientOf actor.actor id = some client)
    (howned : ∀ l ∈ s.linksOf id, s.Owned client.row.uuid l) :
    Prog.wp (deleteClientWithRefund actor id)
      (fun r s' => r.refund = s.refundDue id ∧
        ∃ s₁ n, Removing client.row.uuid (s.linksOf id) (s.removedLinks id) n s s₁ ∧
          (refunded s s₁ id actor.id).Logs s') (fun _ _ => False) s := by
  have hpanels := deleteGroups_wp (c := client.row) (s.linksOf_linksOf id) (s.linksOf_nodup id)
    (s.servers.rows.filter fun r => (s.linksOf id).any fun l => l.1.serverId = r.1)
    (groupLinks_grouped (s.linksOf id)).1 (fun _ hg => hg) s howned
  refine wp_mono _ (deleteClientWithRefund_wp actor id s hfound hpanels)
    (fun r s' h => ?_) fun _ _ h => h
  obtain ⟨hdue, s₁, -, ⟨n, h₁⟩, hlogs⟩ := h
  exact ⟨hdue, s₁, n, h₁, hlogs⟩

/-- Between the two states a refund implies that no config is left, and what is left keeps its row.
-/
structure RemovedOrKept (s : Site) (id : ClientId) (refund : ℤ) (s' : Site) : Prop where
  credited : 0 < refund → ∀ l ∈ s.linksOf id, ¬s'.Served l
  kept : ∀ l ∈ s.linksOf id, s'.Served l → (s'.clients.get? id).isSome

/-- A refund implies removal exactly if the panel of every link that is served answers its removal.
-/
theorem refund_implies_removal_iff (actor : Operator) (id : ClientId) (s : Site)
    {client : FullClient} (hfound : s.clientOf actor.actor id = some client)
    (howned : ∀ l ∈ s.linksOf id, s.Owned client.row.uuid l) :
    Prog.wp (deleteClientWithRefund actor id)
      (fun r s' => s.RemovedOrKept id r.refund s' ↔
        ∀ l ∈ s.linksOf id, s.Served l → l.1 ∈ s.removedLinks id) (fun _ _ => False) s := by
  refine wp_mono _ (deleteClientWithRefund_spec actor id s hfound howned)
    (fun r s' h => ?_) fun _ _ h => h
  obtain ⟨-, s₁, n, hremoving, hlogs⟩ := h
  have hsame : s'.remote = s₁.remote ∧ s'.clients.get? id = none := by
    have hclients : (s₁.without id).clients.get? id = none := by
      show (s₁.clients.erase id).get? id = none
      rw [Table.get?_erase, if_pos rfl]
    rw [hlogs.rest]
    unfold refunded
    cases s.refundSubject id with
    | none => exact ⟨rfl, hclients⟩
    | some x => exact ⟨rfl, hclients⟩
  have hserved : ∀ l ∈ s.linksOf id, s'.Served l ↔ s.Served l ∧ l.1 ∉ s.removedLinks id := by
    intro l hl
    rw [← hremoving.served l hl, Served, hsame.1, Served]
  constructor
  · intro h l hl hs
    by_contra hleft
    have hrow := h.kept l hl ((hserved l hl).mpr ⟨hs, hleft⟩)
    rw [hsame.2] at hrow
    cases hrow
  · intro h
    have hnone : ∀ l ∈ s.linksOf id, ¬s'.Served l := fun l hl hs =>
      ((hserved l hl).mp hs).2 (h l hl ((hserved l hl).mp hs).1)
    exact ⟨fun _ => hnone, fun l hl hs => absurd hs (hnone l hl)⟩

/-- A reseller who has paid 10000 for a client of 10 GB, with one config on a panel that is down. -/
def downSite : Site :=
  { Site.blank with
    base := { World.blank with
      admins := Table.empty.set 2 ⟨.admin, 0, 0⟩
      walletTxs := [⟨2, .purchase, -10000, 0, .client 7, none⟩] }
    accounts := Table.empty.set 2 ⟨"r", 0, none, true, none, none, none, none, none, none, none, []⟩
    pricing := ⟨true, 1000, 0, true⟩
    clients := Table.empty.set 7
      ⟨2, "a", none, none, 8, 9, 10737418240, 0, 0, none, 0, .active, none, none, none, none⟩
    links := Table.empty.set ⟨7, 3, 1⟩ ⟨"a", 0, 0, none⟩
    servers := Table.empty.set 3 ⟨"s", true, [⟨1, "vless", true, "none", "tcp", []⟩]⟩
    remote := Table.empty.set (3, "a") ⟨8, [1], 10737418240, 0, 0, 0, true, ⟨9, 3, 1, 0⟩,
      "", "", 0, 0⟩
    replies := fun _ => .fails "connect ECONNREFUSED" }

/-- A reseller, for the example. -/
def downSeller : Operator :=
  ⟨2, .admin, ⟨"r", 0, none, true, none, none, none, none, none, none, none, []⟩⟩

/-- The whole price is refunded, the row is gone, and the config still works. -/
theorem refund_leaves_config :
    (((deleteClientWithRefund downSeller 7).run downSite).1.toOption.map DeleteWithRefund.refund) =
      some 10000 ∧ ¬downSite.RemovedOrKept 7 10000
        ((deleteClientWithRefund downSeller 7).run downSite).2 := by
  refine ⟨by decide +kernel, fun h => ?_⟩
  have hremote : ((deleteClientWithRefund downSeller 7).run downSite).2.remote.get? (3, "a") =
      some ⟨8, [1], 10737418240, 0, 0, 0, true, ⟨9, 3, 1, 0⟩, "", "", 0, 0⟩ := by decide +kernel
  refine h.credited (by decide) (⟨7, 3, 1⟩, ⟨"a", 0, 0, none⟩) (by decide) ⟨_, hremote, ?_⟩
  exact List.mem_singleton.mpr rfl

theorem refund_implies_removal_iff_down :
    Prog.wp (deleteClientWithRefund downSeller 7)
      (fun r s' => downSite.RemovedOrKept 7 r.refund s' ↔
        ∀ l ∈ downSite.linksOf 7, downSite.Served l →
        l.1 ∈ downSite.removedLinks 7) (fun _ _ => False)
      downSite := by
  have hfound : downSite.clientOf downSeller.actor 7 = some ⟨7,
      ⟨2, "a", none, none, 8, 9, 10737418240, 0, 0, none, 0, .active, none, none, none, none⟩,
      [(⟨7, 3, 1⟩, ⟨"a", 0, 0, none⟩)]⟩ := rfl
  refine refund_implies_removal_iff downSeller 7 downSite hfound fun l hl r hr => ?_
  obtain rfl : l = (⟨7, 3, 1⟩, ⟨"a", 0, 0, none⟩) :=
    List.mem_singleton.mp (show l ∈ [(⟨7, 3, 1⟩, ⟨"a", 0, 0, none⟩)] from hl)
  obtain rfl := Option.some.inj hr
  exact ⟨rfl, List.nodup_singleton 1⟩

end Site

end SRPanel
