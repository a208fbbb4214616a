import SRPanel.Clients.Removal
import SRPanel.Model.Sync

/-!
# Synchronised groups

A synchronisation handles the links of a server in groups of one client and one email each. The
groups have no link in common, so what it makes of a link depends on the group of the link only, and
it looks at every client again of whose emails the panel has reported one.
-/

namespace SRPanel

open Interleaving Prog Grouping

/-! ## One group -/

def ClientServer.counters (r : ClientServer) : ℤ × ℤ := (r.up, r.down)

def PanelClientStat.counters (stat : PanelClientStat) : ℤ × ℤ := (max 0 stat.up, max 0 stat.down)

def UsageRow.counters (r : UsageRow) : ℤ × ℤ := (r.up, r.down)

/-- The growth of two counters. -/
def countersDelta (value prev : ℤ × ℤ) : ℤ × ℤ :=
  (usageDelta value.1 prev.1, usageDelta value.2 prev.2)

namespace Site

/-- A link after one group has been synchronised. -/
def groupRow (report : PanelReport) (group : List (LinkKey × ClientServer)) (key : LinkKey)
    (r : ClientServer) : ClientServer :=
  match group with
  | [] => r
  | head :: links =>
      match report.statOf head.2.remoteEmail with
      | none =>
          if key ∈ (head :: links).map Prod.fst then
            { r with lastError := some "روی پنل پیدا نشد" } else r
      | some stat =>
          if key = (reportedLink stat head (head :: links)).1 then
            { r with up := max 0 stat.up, down := max 0 stat.down, lastError := none }
          else if key ∈ (head :: links).map Prod.fst then
            { r with up := 0, down := 0, lastError := none }
          else r

/-- What a group contributes to a synchronisation. -/
def syncedGroup (report : PanelReport) (group : List (LinkKey × ClientServer)) :
    Option SyncedGroup :=
  match group with
  | [] => none
  | head :: links =>
      (report.statOf head.2.remoteEmail).map fun stat =>
        let primary := reportedLink stat head (head :: links)
        let delta := countersDelta stat.counters primary.2.counters
        ⟨primary.1.clientId, if 0 < delta.1 + delta.2 then some ⟨primary.1.clientId, delta.1,
          delta.2⟩ else none, head.2.remoteEmail ∈ report.onlines⟩

theorem reportedLink_mem (stat : PanelClientStat) (head : LinkKey × ClientServer)
    (links : List (LinkKey × ClientServer)) :
    reportedLink stat head (head :: links) ∈ head :: links := by
  unfold reportedLink
  cases h : (head :: links).find? fun l => l.1.inboundId = stat.inboundId with
  | none => exact List.mem_cons_self
  | some l => exact List.mem_of_find?_eq_some h

theorem applyGroup_run (report : PanelReport) (head : LinkKey × ClientServer)
    (links : List (LinkKey × ClientServer)) (s : Site)
    (hkeys : ∀ l ∈ head :: links, (s.links.get? l.1).isSome) :
    (applyGroup report head (head :: links)).run s = (.ok (syncedGroup report (head :: links)),
      { s with links := s.links.mapRows (groupRow report (head :: links)) }) := by
  unfold applyGroup
  cases hstat : report.statOf head.2.remoteEmail with
  | none =>
      have hrow : groupRow report (head :: links) = fun key r =>
          if key ∈ (head :: links).map Prod.fst then
            { r with lastError := some "روی پنل پیدا نشد" } else r := by
        funext key r
        simp only [groupRow, hstat]
      simp only [syncedGroup, hstat, hrow]
      rfl
  | some stat =>
      obtain ⟨row, hget⟩ := Option.isSome_iff_exists.mp (hkeys _ (reportedLink_mem stat head links))
      -- the mirrors are set to zero in one write, if there are any
      have hmirrored : ∀ (t : Site) (keys : List LinkKey),
          ((if keys ≠ [] then updateLinks keys fun r =>
            { r with up := 0, down := 0, lastError := none }
            else pure ()).run t) = (.ok (), { t with links := t.links.mapRows fun k r =>
              if k ∈ keys then { r with up := 0, down := 0, lastError := none } else r }) := by
        intro t keys
        by_cases hkeys : keys = []
        · subst hkeys
          simp only [List.not_mem_nil, if_false, Table.mapRows_self]
          rfl
        · rw [if_pos hkeys]
          rfl
      have hrow : groupRow report (head :: links) = fun key r =>
          if key = (reportedLink stat head (head :: links)).1 then
            { r with up := max 0 stat.up, down := max 0 stat.down, lastError := none }
          else if key ∈ (head :: links).map Prod.fst then
            { r with up := 0, down := 0, lastError := none }
          else r := by
        funext key r
        simp only [groupRow, hstat]
      simp only [run_bind, updateLink, run_step, hget, hmirrored, run_pure, syncedGroup,
        hstat, hrow]
      refine Prod.ext rfl ?_
      simp only [Table.modify, Table.mapRows_mapRows]
      congr 1
      congr 1
      funext key r
      by_cases hkey : key = (reportedLink stat head (head :: links)).1
      · simp [hkey]
      · by_cases hmem : key ∈ (head :: links).map Prod.fst
        · rw [if_pos (List.mem_filter.mpr ⟨hmem, by simpa using hkey⟩), if_neg hkey, if_neg hkey,
          if_pos hmem]
        · rw [if_neg fun h => hmem (List.mem_filter.mp h).1, if_neg hkey, if_neg hkey, if_neg hmem]

/-- A link after all groups have been synchronised. -/
def groupsRow (report : PanelReport) (groups : List (List (LinkKey × ClientServer))) (key : LinkKey)
    (r : ClientServer) : ClientServer := groups.foldl (fun r group => groupRow report group key r) r

theorem applyGroups_run (report : PanelReport)
    (groups : List (List (LinkKey × ClientServer))) (s : Site) (hkeys : ∀ g ∈ groups, ∀ l ∈ g,
      (s.links.get? l.1).isSome) :
    (applyGroups report groups).run s = (.ok (groups.filterMap (syncedGroup report)),
      { s with links := s.links.mapRows (groupsRow report groups) }) := by
  induction groups generalizing s with
  | nil =>
      have hnil : groupsRow report [] = fun _ r => r := rfl
      rw [hnil, Table.mapRows_self]
      rfl
  | cons group rest ih =>
      have hrest := fun g hg => hkeys g (List.mem_cons_of_mem group hg)
      cases group with
      | nil => exact ih s hrest
      | cons head links =>
          have hkept : ∀ g ∈ rest, ∀ l ∈ g,
              ((s.links.mapRows (groupRow report (head :: links))).get? l.1).isSome := by
            intro g hg l hl
            rw [Table.get?_mapRows, Option.isSome_map]
            exact hrest g hg l hl
          rw [applyGroups, run_bind,
            applyGroup_run report head links s (hkeys _ List.mem_cons_self)]
          dsimp only
          rw [run_bind, ih _ hkept]
          refine Prod.ext ?_ ?_
          · cases h : syncedGroup report (head :: links) with
            | none => simp [h]
            | some g => simp [h]
          · show ({ s with links := (s.links.mapRows _).mapRows _ } : Site) = _
            rw [Table.mapRows_mapRows]
            rfl

/-- The links of a client that share an email, in the order of their inbounds. -/
def shared (s : Site) (id : ClientId) (k : ServerId × String) : List (LinkKey × ClientServer) :=
  byInbound (ofKey remoteKey (s.linksOf id) k)

/-- The links that a synchronisation looks at. -/
def linksOn (s : Site) (serverId : ServerId) : List (LinkKey × ClientServer) :=
  s.links.rows.filter fun r => r.1.serverId = serverId

theorem linksOn_nodup (s : Site) (serverId : ServerId) :
    ((s.linksOn serverId).map Prod.fst).Nodup :=
  s.links.nodup_keys.sublist (List.filter_sublist.map Prod.fst)

/-- The links of one client and one email on a server. -/
theorem ofKey_linksOn (s : Site) (serverId : ServerId) (κ : ClientId × String) :
    ofKey sharedKey (s.linksOn serverId) κ = ofKey remoteKey (s.linksOf κ.1) (serverId, κ.2) := by
  simp only [ofKey, linksOn, linksOf, List.filter_filter]
  refine List.filter_congr fun l _ => ?_
  rw [Bool.eq_iff_iff]
  simp only [Bool.and_eq_true, decide_eq_true_eq, sharedKey, remoteKey, Prod.ext_iff]
  tauto

/-- Links in the order of their inbounds are the same links. -/
theorem mem_byInbound {links : List (LinkKey × ClientServer)} {l : LinkKey × ClientServer} :
    l ∈ byInbound links ↔ l ∈ links := (List.perm_insertionSort _ _).mem_iff

/-- A link outside a group is left alone. -/
theorem groupRow_of_notMem {report : PanelReport} {group : List (LinkKey × ClientServer)}
    {key : LinkKey} (h : key ∉ group.map Prod.fst) (r : ClientServer) :
    groupRow report group key r = r := by
  unfold groupRow
  cases group with
  | nil => rfl
  | cons head links =>
      dsimp only
      split
      · rw [if_neg h]
      · next stat _ =>
          rw [if_neg, if_neg h]
          rintro rfl
          exact h (List.mem_map_of_mem (reportedLink_mem stat head links))

theorem groupsRow_of_notMem {report : PanelReport}
    {groups : List (List (LinkKey × ClientServer))} {key : LinkKey} (h : ∀ g ∈ groups,
      key ∉ g.map Prod.fst) (r : ClientServer) : groupsRow report groups key r = r := by
  unfold groupsRow
  induction groups generalizing r with
  | nil => rfl
  | cons g groups ih =>
      rw [List.foldl_cons, groupRow_of_notMem (h g List.mem_cons_self)]
      exact ih (fun g' hg' => h g' (List.mem_cons_of_mem g hg')) r

/-! ## All groups -/

/-- Two groups without a link in common. -/
def Disjunct (g h : List (LinkKey × ClientServer)) : Prop :=
  ∀ key ∈ g.map Prod.fst, key ∉ h.map Prod.fst

/-- A link of a group is changed by its group only. -/
theorem groupsRow_of_mem {report : PanelReport}
    {groups : List (List (LinkKey × ClientServer))} {key : LinkKey} {g :
      List (LinkKey × ClientServer)} (hapart : groups.Pairwise Disjunct) (hg : g ∈ groups)
    (hkey : key ∈ g.map Prod.fst) (r : ClientServer) :
    groupsRow report groups key r = groupRow report g key r := by
  induction groups generalizing r with
  | nil => cases hg
  | cons h groups ih =>
      obtain ⟨hhead, htail⟩ := List.pairwise_cons.mp hapart
      rcases List.mem_cons.mp hg with rfl | hg
      · exact groupsRow_of_notMem (fun g' hg' => hhead g' hg' key hkey) _
      · have hskip : key ∉ h.map Prod.fst := fun hmem => hhead g hg key hmem hkey
        show groupsRow report groups key (groupRow report h key r) = _
        rw [groupRow_of_notMem hskip]
        exact ih htail hg r

/-- The groups of a synchronisation have no link in common. -/
theorem sharedGroups_apart {links : List (LinkKey × ClientServer)}
    (hlinks : (links.map Prod.fst).Nodup) : (sharedGroups links).Pairwise Disjunct := by
  obtain ⟨ks, hks, -, heq⟩ := grouped_eq sharedKey links
  rw [sharedGroups, heq, List.map_map]
  refine List.Pairwise.map _ (fun κ κ' hne key hkey hkey' => hne ?_) hks
  obtain ⟨l, hl, rfl⟩ := List.mem_map.mp hkey
  obtain ⟨l', hl', hfst⟩ := List.mem_map.mp hkey'
  obtain ⟨hmem, rfl⟩ := mem_ofKey.mp (mem_byInbound.mp hl)
  obtain ⟨hmem', rfl⟩ := mem_ofKey.mp (mem_byInbound.mp hl')
  rw [List.inj_on_of_nodup_map hlinks hmem' hmem hfst]

/-- The links of an email of a client are a group of the synchronisation of their server. -/
theorem shared_mem {s : Site} {id : ClientId} {k : ServerId × String} {l : LinkKey × ClientServer}
    (hl : l ∈ s.linksOf id) (hk : remoteKey l = k) :
    s.shared id k ∈ sharedGroups (s.linksOn k.1) := by
  obtain ⟨ks, -, hmem, heq⟩ := grouped_eq sharedKey (s.linksOn k.1)
  subst hk
  obtain ⟨hrow, hid⟩ := List.mem_filter.mp hl
  rw [sharedGroups, heq, List.map_map]
  refine List.mem_map.mpr ⟨(id, l.2.remoteEmail),
    (hmem _).mpr ⟨l, List.mem_filter.mpr ⟨hrow, by simp [remoteKey]⟩, ?_⟩, ?_⟩
  · simpa [sharedKey] using hid
  · exact congrArg byInbound (s.ofKey_linksOn _ (id, l.2.remoteEmail))

/-- What a group of links counts after it has been synchronised. -/
theorem sum_groupRow {report : PanelReport} {links : List (LinkKey × ClientServer)} {e : String}
    (hlinks : (links.map Prod.fst).Nodup) (hne : links ≠ [])
    (hemail : ∀ l ∈ links, l.2.remoteEmail = e) :
    (links.map fun l => (groupRow report (byInbound links) l.1 l.2).counters).sum =
      ((report.statOf e).map PanelClientStat.counters).getD (links.map fun l =>
        l.2.counters).sum := by
  have hmem : ∀ l, l ∈ byInbound links ↔ l ∈ links := fun l => mem_byInbound
  cases hsorted : byInbound links with
  | nil =>
      obtain ⟨l, hl⟩ := List.exists_mem_of_ne_nil links hne
      have hnone := (hmem l).mpr hl
      rw [hsorted] at hnone
      cases hnone
  | cons head rest =>
      rw [hsorted] at hmem
      have hhead : head.2.remoteEmail = e := hemail head ((hmem head).mp List.mem_cons_self)
      cases hstat : report.statOf e with
      | none =>
          refine congrArg List.sum (List.map_congr_left fun l _ => ?_)
          simp only [groupRow, hhead, hstat]
          split
          · rfl
          · rfl
      | some stat =>
          have hprimary := (hmem _).mp (reportedLink_mem stat head rest)
          have hone : ∀ l ∈ links, l ≠ reportedLink stat head (head :: rest) →
              (groupRow report (head :: rest) l.1 l.2).counters = 0 := by
            intro l hl hne
            have hkey : l.1 ≠ (reportedLink stat head (head :: rest)).1 := fun heq =>
              hne (List.inj_on_of_nodup_map hlinks hl hprimary heq)
            simp only [groupRow, hhead, hstat]
            rw [if_neg hkey, if_pos (List.mem_map_of_mem ((hmem l).mpr hl))]
            rfl
          rw [List.sum_map_eq_nsmul_single (reportedLink stat head (head :: rest)) _ fun l hne hl =>
            hone l hl hne, @List.count_eq_one_of_mem _ instBEqOfDecidableEq _ _ _
              (List.Nodup.of_map _ hlinks) hprimary, one_nsmul]
          simp only [groupRow, hhead, hstat, if_true]
          rfl

theorem groupsRow_email (report : PanelReport)
    (groups : List (List (LinkKey × ClientServer))) (key : LinkKey) (r : ClientServer) :
    (groupsRow report groups key r).remoteEmail = r.remoteEmail := by
  unfold groupsRow
  induction groups generalizing r with
  | nil => rfl
  | cons g groups ih =>
      rw [List.foldl_cons, ih]
      unfold groupRow
      split
      · rfl
      · split
        · split
          · rfl
          · rfl
        · split
          · rfl
          · split
            · rfl
            · rfl

/-- A group records traffic for the client of one of its links. -/
theorem syncedGroup_client {report : PanelReport} {g : List (LinkKey × ClientServer)}
    {row : UsageRow} (h : (syncedGroup report g).bind SyncedGroup.usage = some row) :
    ∃ l ∈ g, row.clientId = l.1.clientId := by
  cases g with
  | nil => cases h
  | cons head links =>
      obtain ⟨synced, hsynced, husage⟩ := Option.bind_eq_some_iff.mp h
      obtain ⟨stat, -, rfl⟩ := Option.map_eq_some_iff.mp hsynced
      dsimp only at husage
      split at husage
      · obtain rfl := Option.some.inj husage
        exact ⟨_, reportedLink_mem stat head links, rfl⟩
      · cases husage

theorem applyGroups_wp {report : PanelReport}
    {groups : List (List (LinkKey × ClientServer))} {s : Site} (hkeys : ∀ g ∈ groups, ∀ l ∈ g,
      (s.links.get? l.1).isSome) {Q : List SyncedGroup → Site → Prop}
    {E : AppError → Site → Prop} : Prog.wp (applyGroups report groups) Q E s ↔
      Q (groups.filterMap (syncedGroup report)) { s
        with links := s.links.mapRows (groupsRow report groups) } := by
  rw [Prog.wp, applyGroups_run report groups s hkeys]

/-- The groups of a synchronisation consist of links that are there. -/
theorem sharedGroups_there {s : Site} {serverId : ServerId} {g : List (LinkKey × ClientServer)}
    (hg : g ∈ sharedGroups (s.linksOn serverId)) {l : LinkKey × ClientServer} (hl : l ∈ g) :
    (s.links.get? l.1).isSome := by
  obtain ⟨ks, -, -, heq⟩ := grouped_eq sharedKey (s.linksOn serverId)
  rw [sharedGroups, heq, List.map_map] at hg
  obtain ⟨κ, -, rfl⟩ := List.mem_map.mp hg
  have hrow := (List.mem_filter.mp (mem_ofKey.mp (mem_byInbound.mp hl)).1).1
  rw [(s.links.mem_rows_iff l.1 l.2).mp hrow]
  rfl

/-- A client of whose emails one is reported is looked at again. -/
theorem touched_of_reported {s : Site} {id : ClientId} {serverId : ServerId} {report : PanelReport}
    {l : LinkKey × ClientServer} (hl : l ∈ s.linksOf id) (hserver : l.1.serverId = serverId)
    (hstat : (report.statOf l.2.remoteEmail).isSome) :
    id ∈ ((sharedGroups (s.linksOn serverId)).filterMap
      (syncedGroup report)).map SyncedGroup.clientId := by
  subst hserver
  obtain ⟨stat, hstat⟩ := Option.isSome_iff_exists.mp hstat
  have hin : l ∈ s.shared id (remoteKey l) := mem_byInbound.mpr (mem_ofKey.mpr ⟨hl, rfl⟩)
  have hgroup := shared_mem hl rfl
  cases hshared : s.shared id (remoteKey l) with
  | nil =>
      rw [hshared] at hin
      cases hin
  | cons head links =>
      rw [hshared] at hgroup
      have hlinks : ∀ l' ∈ head :: links,
          l'.1.clientId = id ∧ l'.2.remoteEmail = l.2.remoteEmail := by
        intro l' hl'
        rw [← hshared] at hl'
        obtain ⟨hmem, hkey⟩ := mem_ofKey.mp (mem_byInbound.mp hl')
        exact ⟨s.linksOf_linksOf id l' hmem, congrArg Prod.snd hkey⟩
      have hid : (syncedGroup report (head :: links)).map SyncedGroup.clientId = some id := by
        simp only [syncedGroup, (hlinks head List.mem_cons_self).2, hstat, Option.map_some,
          (hlinks _ (reportedLink_mem stat head links)).1]
      obtain ⟨synced, hsynced, hid⟩ := Option.map_eq_some_iff.mp hid
      exact List.mem_map.mpr ⟨synced, List.mem_filterMap.mpr ⟨_, hgroup, hsynced⟩, hid⟩

/-! ## Recomputations -/

/-- What a recomputation of a client establishes, and those of the others keep, holds after a list
of them with the client. -/
theorem recomputeClients_wp {id : ClientId} {P : Site → Prop}
    (hown : ∀ s, Prog.wp (recomputeClient id) (fun _ => P) (fun _ _ => False) s)
    (hothers : ∀ id' s, id' ≠ id → P s →
      Prog.wp (recomputeClient id') (fun _ => P) (fun _ _ => False) s)
    (ids : List ClientId) (s : Site) (h : id ∈ ids ∨ P s) :
    Prog.wp (recomputeClients ids) (fun _ s' => Pushed s s' ∧ P s') (fun _ _ => False) s := by
  induction ids generalizing s with
  | nil => exact ⟨Pushed.refl s, h.resolve_left List.not_mem_nil⟩
  | cons id' ids ih =>
      have hfirst : Prog.wp (recomputeClient id') (fun _ s₁ => Pushed s s₁ ∧ (id ∈ ids ∨ P s₁))
          (fun _ _ => False) s := by
        have hpushed := recomputeClient_wp id' s
        by_cases hid : id' = id
        · subst hid
          exact wp_mono _ (wp_and hpushed (hown s)) (fun _ _ h => ⟨h.1.1, .inr h.2⟩) fun _ _ h =>
            h.1
        · rcases h with hmem | hP
          · have hrest : id ∈ ids := (List.mem_cons.mp hmem).resolve_left (Ne.symm hid)
            exact wp_mono _ hpushed (fun _ _ h => ⟨h.1, .inl hrest⟩) fun _ _ h => h
          · exact wp_mono _ (wp_and hpushed (hothers id' s hid hP)) (fun _ _ h => ⟨h.1.1, .inr h.2⟩)
              fun _ _ h => h.1
      rw [recomputeClients, wp_bind]
      refine wp_mono _ hfirst (fun _ s₁ h₁ => ?_) fun _ _ h => h
      exact wp_mono _ (ih s₁ h₁.2) (fun _ _ h₂ => ⟨h₁.1.trans _ _ _ h₂.1, h₂.2⟩) fun _ _ h => h

end Site

end SRPanel
