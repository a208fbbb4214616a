import SRPanel.Clients.Reset
import SRPanel.Sync.Groups

/-!
# Usage accounting

The links that share an email are one remote client with one counter, which a synchronisation stores
on one of them. The traffic of a client is the sum of the latest counters of its emails, whichever
links they are stored on. The recorded growth is right as long as the panel reports an email against
the link that holds its counter.
-/

namespace SRPanel

open Interleaving Prog Grouping

namespace Site

/-! ## One synchronisation -/

/-! ### The counter of one email -/

/-- The counter of an email of a client, as its links have it. -/
def held (s : Site) (id : ClientId) (k : ServerId × String) : ℤ × ℤ :=
  ((ofKey remoteKey (s.linksOf id) k).map fun l => l.2.counters).sum

/-- The links of an email after a change that keeps the emails. -/
theorem ofKey_mapRows (s : Site) {F : LinkKey → ClientServer → ClientServer}
    (hF : ∀ key r, (F key r).remoteEmail = r.remoteEmail) (id : ClientId) (k : ServerId × String) :
    ofKey remoteKey (({ s with links := s.links.mapRows F } : Site).linksOf id) k =
      (ofKey remoteKey (s.linksOf id) k).map fun l => (l.1, F l.1 l.2) := by
  simp only [ofKey, linksOf, Table.rows_mapRows, List.filter_map]
  refine congrArg _ (List.filter_congr fun l _ => ?_)
  simp only [Function.comp_apply, remoteKey, hF]
  rfl

/-- The emails of a client on the servers. -/
def emails (s : Site) (id : ClientId) : List (ServerId × String) :=
  ((s.linksOf id).map remoteKey).dedup

theorem mem_emails {s : Site} {id : ClientId} {k : ServerId × String} :
    k ∈ s.emails id ↔ ∃ l ∈ s.linksOf id, remoteKey l = k := by
  simp [emails]

/-- The counters of all links of a client, by their emails. -/
theorem sum_held (s : Site) (id : ClientId) :
    ((s.emails id).map (s.held id)).sum = ((s.linksOf id).map fun l => l.2.counters).sum :=
  sum_ofKey _ _ (List.nodup_dedup _) fun _ hl => mem_emails.mpr ⟨_, hl, rfl⟩

/-- The links after a synchronisation with a report. -/
def withCounters (s : Site) (serverId : ServerId) (report : PanelReport) : Site :=
  { s with links := s.links.mapRows (groupsRow report (sharedGroups (s.linksOn serverId))) }

/-- The latest counters after a report of a server. -/
def reading (latest : ServerId × String → ℤ × ℤ) (serverId : ServerId) (report : PanelReport)
    (k : ServerId × String) : ℤ × ℤ :=
  if k.1 = serverId then ((report.statOf k.2).map PanelClientStat.counters).getD
    (latest k) else latest k

/-- A synchronisation stores the reported counters. -/
theorem held_withCounters (s : Site) (serverId : ServerId) (report : PanelReport) {id : ClientId}
    {k : ServerId × String} (hk : k ∈ s.emails id) :
    (s.withCounters serverId report).held id k = reading (s.held id) serverId report k := by
  have hnodup : ((ofKey remoteKey (s.linksOf id) k).map Prod.fst).Nodup :=
    (s.linksOf_nodup id).sublist (List.filter_sublist.map Prod.fst)
  obtain ⟨l₀, hl₀, hk₀⟩ := mem_emails.mp hk
  unfold held withCounters
  rw [ofKey_mapRows s (groupsRow_email report _), List.map_map, reading]
  by_cases hserver : k.1 = serverId
  · subst hserver
    have hgroup := shared_mem hl₀ hk₀
    have hapart := sharedGroups_apart (s.linksOn_nodup k.1)
    rw [if_pos rfl, ← sum_groupRow hnodup
      (List.ne_nil_of_mem (mem_ofKey.mpr ⟨hl₀, hk₀⟩)) fun l hl =>
      congrArg Prod.snd (mem_ofKey.mp hl).2]
    refine congrArg List.sum (List.map_congr_left fun l hl => congrArg ClientServer.counters ?_)
    exact groupsRow_of_mem hapart hgroup (List.mem_map_of_mem (mem_byInbound.mpr hl)) l.2
  · rw [if_neg hserver]
    refine congrArg List.sum (List.map_congr_left fun l hl => congrArg ClientServer.counters ?_)
    refine groupsRow_of_notMem (fun g hg hmem => hserver ?_) l.2
    obtain ⟨ks, -, -, heq⟩ := grouped_eq sharedKey (s.linksOn serverId)
    rw [sharedGroups, heq, List.map_map] at hg
    obtain ⟨κ, -, rfl⟩ := List.mem_map.mp hg
    obtain ⟨l', hl', hfst⟩ := List.mem_map.mp hmem
    have hon := (List.mem_filter.mp (mem_ofKey.mp (mem_byInbound.mp hl')).1).2
    rw [← (mem_ofKey.mp hl).2]
    show l.1.serverId = serverId
    rw [← hfst]
    simpa using hon

/-! ### The recorded growth -/

/-- The traffic that some usage rows record for a client. -/
def usageSum (id : ClientId) (rows : List UsageRow) : ℤ × ℤ :=
  ((rows.filter fun r => r.clientId = id).map UsageRow.counters).sum

/-- The traffic that is recorded for a client. -/
def usageOf (s : Site) (id : ClientId) : ℤ × ℤ := usageSum id s.clientUsage

theorem usageSum_append (id : ClientId) (rows rows' : List UsageRow) :
    usageSum id (rows ++ rows') = usageSum id rows + usageSum id rows' := by
  simp [usageSum]

/-- What the rows of a synchronisation record for a client, by its groups. -/
theorem usageSum_synced (report : PanelReport) (id : ClientId)
    (groups : List (List (LinkKey × ClientServer))) :
      usageSum id ((groups.filterMap (syncedGroup report)).filterMap SyncedGroup.usage) =
      (groups.map fun g => usageSum id
        ((syncedGroup report g).bind SyncedGroup.usage).toList).sum := by
  induction groups with
  | nil => rfl
  | cons g groups ih =>
      rw [List.map_cons, List.sum_cons, ← ih, ← usageSum_append, List.filterMap_cons]
      cases syncedGroup report g with
      | none => rfl
      | some synced =>
          cases h : synced.usage with
          | none => simp [h]
          | some row => simp [h]

/-- The report of a server lists each email of the client against the link that holds its counter,
if it lists the email at all. -/
def Steady (id : ClientId) (serverId : ServerId) (report : PanelReport) (s : Site) : Prop :=
  ∀ k ∈ s.emails id, k.1 = serverId → ∀ stat ∈ report.statOf k.2, ∀ head ∈ (s.shared id k).head?,
    (reportedLink stat head (s.shared id k)).2.counters = s.held id k

instance (id : ClientId) (serverId : ServerId) (report : PanelReport) (s : Site) :
    Decidable (Steady id serverId report s) := inferInstanceAs (Decidable (∀ k ∈ s.emails id, _))

/-- The counters in the report of a server have not fallen below the latest ones. -/
def NoneFell (latest : ServerId × String → ℤ × ℤ) (id : ClientId) (serverId : ServerId)
    (report : PanelReport) (s : Site) : Prop :=
  ∀ k ∈ s.emails id, k.1 = serverId → ∀ stat ∈ report.statOf k.2, latest k ≤ stat.counters

instance (latest : ServerId × String → ℤ × ℤ) (id : ClientId) (serverId : ServerId)
    (report : PanelReport) (s : Site) : Decidable (NoneFell latest id serverId report s) :=
  inferInstanceAs (Decidable (∀ k ∈ s.emails id, _))

/-- A group of the client records the growth of its counter. -/
theorem usageSum_shared {s : Site} {id : ClientId} {serverId : ServerId} {report : PanelReport}
    {e : String} (hmem : (serverId, e) ∈ s.emails id) (hsteady : Steady id serverId report s)
    (hgrown : NoneFell (s.held id) id serverId report s) :
    usageSum id ((syncedGroup report (s.shared id (serverId, e))).bind SyncedGroup.usage).toList =
      reading (s.held id) serverId report (serverId, e) - s.held id (serverId, e) := by
  rw [reading, if_pos rfl]
  obtain ⟨l, hl, hkey⟩ := mem_emails.mp hmem
  have hin : l ∈ s.shared id (serverId, e) := mem_byInbound.mpr (mem_ofKey.mpr ⟨hl, hkey⟩)
  cases hshared : s.shared id (serverId, e) with
  | nil =>
      rw [hshared] at hin
      cases hin
  | cons head links =>
      have hlinks : ∀ l ∈ head :: links, l.1.clientId = id ∧ l.2.remoteEmail = e := by
        intro l hl
        rw [← hshared] at hl
        obtain ⟨hmem, hkey⟩ := mem_ofKey.mp (mem_byInbound.mp hl)
        exact ⟨s.linksOf_linksOf id l hmem, congrArg Prod.snd hkey⟩
      simp only [syncedGroup, (hlinks head List.mem_cons_self).2]
      cases hstat : report.statOf e with
      | none => exact (sub_self (s.held id (serverId, e))).symm
      | some stat =>
          -- the reported link is the one that holds the counter, so its growth is recorded
          have hprimary := hsteady (serverId, e) hmem rfl stat hstat head (by rw [hshared]; rfl)
          rw [hshared] at hprimary
          have hle := hgrown (serverId, e) hmem rfl stat hstat
          have hdelta : countersDelta stat.counters (s.held id (serverId, e)) =
              stat.counters - s.held id (serverId, e) :=
            Prod.ext (if_pos hle.1) (if_pos hle.2)
          have hid := (hlinks _ (reportedLink_mem stat head links)).1
          simp only [Option.map_some, Option.bind_some, Option.getD_some, hprimary, hdelta, hid]
          split
          · simp [usageSum, UsageRow.counters]
            rfl
          · next hnot =>
              have h1 : 0 ≤ stat.counters.1 - (s.held id (serverId, e)).1 := sub_nonneg.mpr hle.1
              have h2 : 0 ≤ stat.counters.2 - (s.held id (serverId, e)).2 := sub_nonneg.mpr hle.2
              have hzero : stat.counters - s.held id (serverId, e) = 0 := by
                simp only [Prod.fst_sub, Prod.snd_sub] at hnot
                refine Prod.ext ?_ ?_
                · simp only [Prod.fst_sub, Prod.fst_zero]
                  omega
                · simp only [Prod.snd_sub, Prod.snd_zero]
                  omega
              rw [hzero]
              rfl

/-- A synchronisation records the growth of the counters of the client. -/
theorem usageSum_reported {s : Site} {id : ClientId} {serverId : ServerId} {report : PanelReport}
    (hsteady : Steady id serverId report s) (hgrown : NoneFell (s.held id) id serverId report s) :
    usageSum id (((sharedGroups (s.linksOn serverId)).filterMap (syncedGroup report)).filterMap
        SyncedGroup.usage) =
      ((s.emails id).map fun k => reading (s.held id) serverId report k - s.held id k).sum := by
  obtain ⟨ks, hks, hmem, heq⟩ := grouped_eq sharedKey (s.linksOn serverId)
  -- the groups of the client are its emails on the server
  have hperm : ((ks.filter fun κ => κ.1 = id).map fun κ => (serverId, κ.2)).Perm
      ((s.emails id).filter fun k => k.1 = serverId) := by
    refine (List.perm_ext_iff_of_nodup ?_ ((List.nodup_dedup _).filter _)).mpr fun k => ?_
    · refine (hks.filter _).map_on fun κ hκ κ' hκ' heq => Prod.ext ?_ (Prod.ext_iff.mp heq).2
      have h1 := (List.mem_filter.mp hκ).2
      have h2 := (List.mem_filter.mp hκ').2
      rw [of_decide_eq_true h1, of_decide_eq_true h2]
    · simp only [List.mem_map, List.mem_filter, decide_eq_true_eq, hmem]
      constructor
      · rintro ⟨κ, ⟨⟨l, hl, rfl⟩, hid⟩, rfl⟩
        obtain ⟨hrow, hon⟩ := List.mem_filter.mp hl
        refine ⟨mem_emails.mpr ⟨l, List.mem_filter.mpr ⟨hrow, decide_eq_true hid⟩, ?_⟩, rfl⟩
        exact Prod.ext (of_decide_eq_true hon) rfl
      · rintro ⟨hk, rfl⟩
        obtain ⟨l, hl, rfl⟩ := mem_emails.mp hk
        obtain ⟨hrow, hid⟩ := List.mem_filter.mp hl
        exact ⟨sharedKey l, ⟨⟨l, List.mem_filter.mpr ⟨hrow, decide_eq_true rfl⟩, rfl⟩,
          of_decide_eq_true hid⟩, rfl⟩
  have hgroup : ∀ κ ∈ ks, usageSum id ((syncedGroup report
      (byInbound (ofKey sharedKey (s.linksOn serverId) κ))).bind SyncedGroup.usage).toList =
      if κ.1 = id then reading (s.held id) serverId report (serverId, κ.2) - s.held id (serverId,
        κ.2) else 0 := by
    intro κ hκ
    obtain ⟨l, hl, hkey⟩ := (hmem κ).mp hκ
    obtain ⟨hrow, hon⟩ := List.mem_filter.mp hl
    split
    · next hid =>
        subst hkey
        rw [ofKey_linksOn, hid]
        refine usageSum_shared (mem_emails.mpr ⟨l, List.mem_filter.mpr ⟨hrow, decide_eq_true hid⟩,
          ?_⟩) hsteady hgrown
        exact Prod.ext (of_decide_eq_true hon) rfl
    · next hid =>
        have hnone : ∀ row ∈ ((syncedGroup report
            (byInbound (ofKey sharedKey (s.linksOn serverId) κ))).bind SyncedGroup.usage).toList,
            row.clientId ≠ id := by
          intro row hrow heq
          obtain ⟨l', hl', hclient⟩ := syncedGroup_client (Option.mem_toList.mp hrow)
          have hκ' := (mem_ofKey.mp (mem_byInbound.mp hl')).2
          exact hid (by rw [← heq, hclient, ← hκ']; rfl)
        rw [usageSum, List.filter_eq_nil_iff.mpr fun row hrow => by simpa using hnone row hrow]
        rfl
  have hdelta : ∀ k, k.1 ≠ serverId → reading (s.held id) serverId report k - s.held id k = 0 :=
    fun k hk => by
    rw [reading, if_neg hk, sub_self]
  calc usageSum id (((sharedGroups (s.linksOn serverId)).filterMap
      (syncedGroup report)).filterMap SyncedGroup.usage) = (ks.map fun κ => if κ.1 = id then
          reading (s.held id) serverId report (serverId, κ.2) - s.held id (serverId,
            κ.2) else 0).sum := by
        rw [usageSum_synced, sharedGroups, heq, List.map_map, List.map_map]
        exact congrArg List.sum (List.map_congr_left hgroup)
    _ = (((ks.filter fun κ => κ.1 = id).map fun κ => (serverId, κ.2)).map fun k =>
          reading (s.held id) serverId report k - s.held id k).sum := by
        rw [List.map_map]
        exact (sum_filter _ _ _).symm
    _ = (((s.emails id).filter fun k => k.1 = serverId).map fun k =>
          reading (s.held id) serverId report k - s.held id k).sum := (hperm.map _).sum_eq
    _ = ((s.emails id).map fun k => reading (s.held id) serverId report k - s.held id k).sum := by
        rw [sum_filter]
        refine congrArg List.sum (List.map_congr_left fun k _ => ?_)
        split
        · rfl
        · next hk => exact (hdelta k hk).symm

/-! ### The whole synchronisation -/

/-- A recomputation of another client leaves the sums of a client alone. -/
theorem recomputeClient_tallied {id id' : ClientId} {s : Site} (hid : id' ≠ id) (h : s.Tallied id) :
    Prog.wp (recomputeClient id') (fun _ s' => s'.Tallied id) (fun _ _ => False) s := by
  have hother : (recomputeClient id').Keeps fun s s' => s.Tallied id → s'.Tallied id := by
    have hannotated : ∀ {α : Type} {p : Task α}, p.Keeps Annotated →
        p.Keeps fun s s' => s.Tallied id → s'.Tallied id := fun hp => hp.mono fun _ _ hs h =>
      h.annotated hs
    refine keeps_bind (hannotated (read_annotated _)) fun found => ?_
    rcases found with _ | ⟨c, links, t⟩
    · exact keeps_pure ()
    · refine keeps_bind (keeps_step fun s => ?_) fun _ =>
        keeps_ite (keeps_pure ()) (hannotated (onClientStatusChanged_annotated c _))
      split
      · exact fun h => h
      · intro h c' hc'
        rw [Table.get?_modify_of_ne _ _ (Ne.symm hid)] at hc'
        exact h c' hc'
  have hrun := hother.wp (fun _ h => h) (fun _ _ _ h h' hs => h' (h hs)) s
  exact wp_mono _ (wp_and (recomputeClient_wp id' s) hrun) (fun _ _ hs => hs.2 h) fun _ _ hs => hs.1

section Rows

variable {s s' : Site} {G : LinkKey → ClientServer → ClientServer}
  (hrows : (s'.links.mapRows fun _ l => l.noted) = s.links.mapRows G)
  (hemail : ∀ key r, (G key r).remoteEmail = r.remoteEmail)

include hrows

/-- The links of a client after a change of all links, but for their notes. -/
theorem linksOf_of_rows (id : ClientId) :
    (s'.linksOf id).map (fun l => (l.1, l.2.noted)) = (s.linksOf id).map fun l =>
      (l.1, G l.1 l.2) := by
  have hlist := congrArg (fun t => t.rows.filter fun r => r.1.clientId = id) hrows
  simp only [Table.rows_mapRows, List.filter_map] at hlist
  exact hlist

include hemail

theorem emails_of_rows (id : ClientId) : s'.emails id = s.emails id := by
  have hkeys := congrArg (List.map remoteKey) (linksOf_of_rows hrows id)
  rw [List.map_map, List.map_map] at hkeys
  unfold emails
  refine congrArg List.dedup (hkeys.trans (List.map_congr_left fun l _ => ?_))
  simp only [Function.comp_apply, remoteKey, hemail]

theorem held_of_rows (id : ClientId) (k : ServerId × String) :
    s'.held id k = ((ofKey remoteKey (s.linksOf id) k).map fun l => (G l.1 l.2).counters).sum := by
  have hlist := congrArg (fun ls => ((ofKey remoteKey ls k).map
    fun l => l.2.counters).sum) (linksOf_of_rows hrows id)
  simp only [ofKey, List.filter_map, List.map_map] at hlist
  refine hlist.trans (congrArg List.sum ?_)
  have hkey : (fun x => decide (remoteKey x = k)) ∘ (fun l : LinkKey × ClientServer =>
      (l.1, G l.1 l.2)) = fun x => decide (remoteKey x = k) := by
    funext l
    simp only [Function.comp_apply, remoteKey, hemail]
    rfl
  rw [hkey]
  rfl

end Rows

theorem emails_pushed {s s' : Site} (h : Pushed s s') (id : ClientId) :
    s'.emails id = s.emails id :=
  emails_of_rows (congrArg Site.links h.lasting) (fun _ _ => rfl) id

theorem held_pushed {s s' : Site} (h : Pushed s s') (id : ClientId) (k : ServerId × String) :
    s'.held id k = s.held id k := held_of_rows (congrArg Site.links h.lasting) (fun _ _ => rfl) id k

theorem usageOf_pushed {s s' : Site} (h : Pushed s s') (id : ClientId) :
    s'.usageOf id = s.usageOf id :=
  congrArg (usageSum id) (h.same Site.clientUsage fun _ => rfl)

/-- What a synchronisation makes of the counters of a client. -/
structure Syncs (id : ClientId) (serverId : ServerId) (report : PanelReport)
    (s s' : Site) : Prop where
  emails : s'.emails id = s.emails id
  held : ∀ k ∈ s.emails id, s'.held id k = reading (s.held id) serverId report k
  usage : s'.usageOf id = s.usageOf id + usageSum id (((sharedGroups (s.linksOn serverId)).filterMap
    (syncedGroup report)).filterMap SyncedGroup.usage)
  tallied : s'.Tallied id

/-- A client none of whose groups has been synchronised keeps its counters. -/
theorem reading_of_untouched {s : Site} {id : ClientId} {serverId : ServerId} {report : PanelReport}
    (h : id ∉ ((sharedGroups (s.linksOn serverId)).filterMap
      (syncedGroup report)).map SyncedGroup.clientId)
    {k : ServerId × String} (hk : k ∈ s.emails id) :
    reading (s.held id) serverId report k = s.held id k := by
  obtain ⟨l, hl, rfl⟩ := mem_emails.mp hk
  unfold reading
  split
  · next hserver =>
      cases hstat : report.statOf (remoteKey l).2 with
      | none => rfl
      | some stat => exact absurd (touched_of_reported hl hserver
        (Option.isSome_iff_exists.mpr ⟨stat, hstat⟩)) h
  · rfl

/-- The sums of a client are those of its emails. -/
theorem tallied_iff {s : Site} {id : ClientId} : s.Tallied id ↔
    ∀ c, s.clients.get? id = some c →
    (c.usedUp, c.usedDown) = ((s.emails id).map (s.held id)).sum := by
  have hpair : ((s.linksOf id).map fun l => l.2.counters).sum =
      (((s.linksOf id).map fun l => l.2.up).sum, ((s.linksOf id).map fun l => l.2.down).sum) := by
    induction s.linksOf id with
    | nil => rfl
    | cons l ls ih =>
        rw [List.map_cons, List.sum_cons, ih]
        rfl
  rw [sum_held, hpair]
  exact forall_congr' fun c => imp_congr_right fun _ => Prod.mk_inj.symm

theorem applyClientStats_wp {s : Site} (id : ClientId) (serverId : ServerId) (report : PanelReport)
    (htally : s.Tallied id) :
    Prog.wp (applyClientStats serverId report) (fun _ => Syncs id serverId report s)
      (fun _ _ => False) s := by
  have hemails : (s.withCounters serverId report).emails id = s.emails id :=
    emails_of_rows (G := fun key r =>
      (groupsRow report (sharedGroups (s.linksOn serverId)) key r).noted)
        (Table.mapRows_mapRows _ _ _) (fun key r => groupsRow_email report _ key r) id
  unfold applyClientStats
  simp only [read, now, write, wp_bind, wp_query, wp_modify]
  refine (applyGroups_wp fun g hg l hl => sharedGroups_there hg hl).mpr ?_
  refine wp_mono _ (@recomputeClients_wp id (fun s => s.Tallied id)
    (fun s => wp_mono _ (recomputeClient_wp id s) (fun _ _ h => h.2) fun _ _ h => h)
    (fun _ _ => recomputeClient_tallied) _ _ ?_) (fun _ s' h => ?_) fun _ _ h => h
  · rw [List.mem_eraseDups, or_iff_not_imp_left]
    intro huntouched
    rw [tallied_iff] at htally ⊢
    intro c hc
    rw [Table.get?_mapRows] at hc
    obtain ⟨c₀, hc₀, rfl⟩ := Option.map_eq_some_iff.mp hc
    have hused : ∀ p : Prop, ∀ [Decidable p], ∀ t :
        ℤ, ((if p then { c₀ with lastOnlineAt := some t } else c₀).usedUp,
          (if p then { c₀ with lastOnlineAt := some t } else c₀).usedDown) = (c₀.usedUp,
            c₀.usedDown) := by
      intro p _ t
      split
      · rfl
      · rfl
    refine (hused _ _).trans ((htally c₀ hc₀).trans ?_)
    show _ = (((s.withCounters serverId report).emails id).map
        ((s.withCounters serverId report).held id)).sum
    rw [hemails]
    refine congrArg List.sum (List.map_congr_left fun k hk => ?_)
    rw [s.held_withCounters serverId report hk, reading_of_untouched huntouched hk]
  · refine ⟨(emails_pushed h.1 id).trans hemails, fun k hk => ?_, ?_, h.2⟩
    · exact (held_pushed h.1 id k).trans (s.held_withCounters serverId report hk)
    · rw [usageOf_pushed h.1]
      exact (usageSum_append id _ _).trans (add_comm _ _)

theorem syncServer_wp {s : Site} (id : ClientId) (serverId : ServerId) (report : PanelReport)
    (hserver : (s.servers.get? serverId).isSome) (htally : s.Tallied id) :
    Prog.wp (syncServer serverId (some report)) (fun _ => Syncs id serverId report s)
      (fun _ _ => False) s := by
  obtain ⟨server, hserver⟩ := Option.isSome_iff_exists.mp hserver
  simp only [syncServer, read, wp_bind, wp_query, hserver, wp_attempt, write, wp_modify]
  refine wp_mono _ (applyClientStats_wp id serverId report ?_) (fun _ s' h => ?_) fun _ _ h =>
    h.elim
  · exact htally
  · exact ⟨h.emails, h.held, h.usage, h.tallied⟩

/-! ### A reset -/

/-- An email whose counter a reset has set to zero. -/
def ZeroedEmail (s : Site) (id : ClientId) (k : ServerId × String) : Prop :=
  ∃ l ∈ s.linksOf id, remoteKey l = k ∧ l.1 ∈ s.zeroedLinks id

instance (s : Site) (id : ClientId) (k : ServerId × String) : Decidable (s.ZeroedEmail id k) :=
  inferInstanceAs (Decidable (∃ l ∈ s.linksOf id, _))

/-- A reset takes the links of a group together. -/
theorem resetLinks_group {replies : ℕ → Reply} {servers : List (ServerId × Server)} {n : ℕ}
    {groups : List LinkGroup} {key : LinkKey} (h : key ∈ resetLinks replies servers n groups) :
    ∃ g ∈ groups, key ∈ g.linkIds ∧ ∀ key' ∈ g.linkIds,
    key' ∈ resetLinks replies servers n groups := by
  induction groups generalizing n with
  | nil => cases h
  | cons group rest ih =>
      unfold resetLinks at h ⊢
      split at h
      · next hserver =>
          rw [if_pos hserver]
          rcases List.mem_append.mp h with hhere | hrest
          · split at hhere
            · next hdone =>
                refine ⟨group, List.mem_cons_self, hhere, fun key' hkey' =>
                  List.mem_append_left _ ?_⟩
                rwa [if_pos hdone]
            · cases hhere
          · obtain ⟨g, hg, hkey, hall⟩ := ih hrest
            exact ⟨g, List.mem_cons_of_mem group hg, hkey,
              fun key' hkey' => List.mem_append_right _ (hall key' hkey')⟩
      · next hserver =>
          rw [if_neg hserver]
          obtain ⟨g, hg, hkey, hall⟩ := ih h
          exact ⟨g, List.mem_cons_of_mem group hg, hkey, hall⟩

/-- The links of an email are zeroed together. -/
theorem zeroedLinks_iff {s : Site} {id : ClientId} {l : LinkKey × ClientServer}
    (hl : l ∈ s.linksOf id) : l.1 ∈ s.zeroedLinks id ↔ s.ZeroedEmail id (remoteKey l) := by
  refine ⟨fun h => ⟨l, hl, rfl, h⟩, ?_⟩
  rintro ⟨l', hl', hkey, hzeroed⟩
  obtain ⟨g, hg, hmem, hall⟩ := resetLinks_group hzeroed
  have hgrouped := (groupLinks_grouped (s.linksOf id)).1
  obtain ⟨r, hr, hgkey⟩ := (hgrouped.mem g hg l'.1).mp hmem
  have hsame : (l'.1, r) = l' := List.inj_on_of_nodup_map (s.linksOf_nodup id) hr hl' rfl
  refine hall _ ((hgrouped.mem g hg l.1).mpr ⟨l.2, hl, ?_⟩)
  rw [← hgkey, hsame, hkey]

/-- A reset sets the counters of the emails whose panels answer to zero. -/
theorem held_zeroed {s s' : Site} {id : ClientId} (h : Zeroed (s.zeroedLinks id) s s')
    (k : ServerId × String) : s'.held id k = if s.ZeroedEmail id k then 0 else s.held id k := by
  have hemail : ∀ key (r : ClientServer),
      (if key ∈ s.zeroedLinks id then r.settled else r.noted).remoteEmail = r.remoteEmail := by
    intro key r
    split
    · rfl
    · rfl
  rw [held_of_rows h hemail]
  have hrow : ∀ l ∈ ofKey remoteKey (s.linksOf id) k,
      (if l.1 ∈ s.zeroedLinks id then l.2.settled else l.2.noted).counters =
        if s.ZeroedEmail id k then 0 else l.2.counters := by
    intro l hl
    obtain ⟨hmem, rfl⟩ := mem_ofKey.mp hl
    simp only [zeroedLinks_iff hmem]
    split
    · rfl
    · rfl
  rw [List.map_congr_left hrow]
  split
  · exact List.sum_map_zero
  · rfl

/-! ## Runs -/

/-- What has been reported about a client. -/
structure Meters where
  /-- the latest counter of each email -/
  latest : ServerId × String → ℤ × ℤ
  /-- the growth of the counters since the last reset -/
  growth : ℤ × ℤ
  /-- what had been recorded at the last reset -/
  recorded : ℤ × ℤ

/-- The meters at the beginning. -/
def metersOf (s : Site) (id : ClientId) : Meters := ⟨s.held id, 0, s.usageOf id⟩

namespace Meters

/-- The meters after a report of a server. -/
def sync (m : Meters) (s : Site) (id : ClientId) (serverId : ServerId) (report : PanelReport) :
    Meters where
  latest := reading m.latest serverId report
  growth := m.growth + ((s.emails id).map fun k =>
    reading m.latest serverId report k - m.latest k).sum
  recorded := m.recorded

/-- The meters after a reset. -/
def reset (m : Meters) (s : Site) (id : ClientId) : Meters where
  latest k := if s.ZeroedEmail id k then 0 else m.latest k
  growth := 0
  recorded := s.usageOf id

end Meters

/-- The counters of the client, its links and its usage rows are the same. -/
structure SameUsage (id : ClientId) (s s' : Site) : Prop where
  client : ((s'.clients.get? id).map fun c => (c.usedUp, c.usedDown)) =
    (s.clients.get? id).map fun c => (c.usedUp, c.usedDown)
  links : s'.linksOf id = s.linksOf id
  usage : s'.usageOf id = s.usageOf id

/-- Reports about a client and resets of its traffic, in any order, with what they have reported. No
counter in a report has fallen since the last report or reset, and every report satisfies `ok`. -/
inductive Metering (id : ClientId) (ok : ServerId → PanelReport → Site → Prop) (s₀ : Site) :
    Site → Meters → Prop
  | start : Metering id ok s₀ s₀ (s₀.metersOf id)
  | sync {s : Site} {m : Meters} (serverId : ServerId) (report : PanelReport) :
      Metering id ok s₀ s m → (s.servers.get? serverId).isSome →
      NoneFell m.latest id serverId report s → ok serverId report s →
      Metering id ok s₀ ((syncServer serverId (some report)).run s).2 (m.sync s id serverId report)
  | reset {s : Site} {m : Meters} (actor : Actor) : Metering id ok s₀ s m →
      (s.clientOf actor id).isSome →
      Metering id ok s₀ ((resetClientTraffic actor id).run s).2 (m.reset s id)
  | other {s s' : Site} {m : Meters} : Metering id ok s₀ s m → SameUsage id s s' →
  Metering id ok s₀ s' m

/-- The traffic of the client is what its meters say. -/
structure MetersAgree (id : ClientId) (s : Site) (m : Meters) : Prop where
  held : ∀ k ∈ s.emails id, s.held id k = m.latest k
  tallied : s.Tallied id
  usage : s.usageOf id = m.recorded + m.growth

theorem MetersAgree.sync {id : ClientId} {s s' : Site} {m : Meters} {serverId : ServerId}
    {report : PanelReport} (h : MetersAgree id s m)
    (hgrown : NoneFell m.latest id serverId report s)
    (hsteady : Steady id serverId report s)
    (hs : Syncs id serverId report s s') : MetersAgree id s' (m.sync s id serverId report) := by
  have hreading : ∀ k ∈ s.emails id,
      reading (s.held id) serverId report k = reading m.latest serverId report k :=
    fun k hk => by simp only [reading, h.held k hk]
  have hgrown' : NoneFell (s.held id) id serverId report s := fun k hk hserver stat hstat => by
    rw [h.held k hk]
    exact hgrown k hk hserver stat hstat
  refine ⟨fun k hk => ?_, hs.tallied, ?_⟩
  · rw [hs.emails] at hk
    rw [hs.held k hk, hreading k hk]
    rfl
  · rw [hs.usage, h.usage, usageSum_reported hsteady hgrown', add_assoc]
    refine congrArg (m.recorded + ·)
      (congrArg (m.growth + ·) (congrArg List.sum (List.map_congr_left fun k hk => ?_)))
    rw [hreading k hk, h.held k hk]

theorem MetersAgree.reset {id : ClientId} {s s' : Site} {m : Meters} (h : MetersAgree id s m)
    (hzeroed : Zeroed (s.zeroedLinks id) s s') (hsynced : Synced s s') (htally : s'.Tallied id) :
    MetersAgree id s' (m.reset s id) := by
  have hemails : s'.emails id = s.emails id :=
    emails_of_rows hzeroed (fun key r => by split <;> rfl) id
  refine ⟨fun k hk => ?_, htally, ?_⟩
  · rw [hemails] at hk
    rw [held_zeroed hzeroed, h.held k hk]
    rfl
  · show s'.usageOf id = s.usageOf id + 0
    rw [add_zero]
    exact congrArg (usageSum id) (hsynced.same Site.clientUsage fun _ => rfl)

theorem MetersAgree.other {id : ClientId} {s s' : Site} {m : Meters} (h : MetersAgree id s m)
    (hs : SameUsage id s s') : MetersAgree id s' m where
  held k hk := by
    rw [emails, hs.links] at hk
    rw [Site.held, hs.links]
    exact h.held k hk
  usage := hs.usage.trans h.usage
  tallied := by
    intro c hc
    have hclient := hs.client
    rw [hc] at hclient
    obtain ⟨c₀, hc₀, heq⟩ := Option.map_eq_some_iff.mp hclient.symm
    have hsame := h.tallied c₀ hc₀
    simp only [Prod.mk.injEq] at heq
    rw [hs.links, ← heq.1, ← heq.2]
    exact hsame

theorem Metering.agree {id : ClientId} {s₀ s : Site} {m : Meters}
    (h : Metering id (Steady id) s₀ s m) (htally : s₀.Tallied id) : MetersAgree id s m := by
  induction h with
  | start => exact ⟨fun _ _ => rfl, htally, (add_zero _).symm⟩
  | @sync s m serverId report _ hserver hgrown hsteady ih =>
      have hs := (wp_store_iff _).mp
        (wp_mono _ (syncServer_wp id serverId report hserver ih.tallied)
          (fun _ _ h => h) fun _ _ h => h.elim)
      exact ih.sync hgrown hsteady hs
  | @reset s m actor _ hfound ih =>
      refine (wp_store_iff (P := fun s' => MetersAgree id s' (m.reset s id)) _).mp (wp_mono _
        (resetClientTraffic_spec actor id s) (fun _ _ h => ih.reset h.2.2.1 h.2.1 h.2.2.2)
          fun _ _ h => ?_)
      rw [h.1] at hfound
      cases hfound
  | other _ hs ih => exact ih.other hs

/-- **Usage accounting.** In every run in which the panels report each email against the link that
holds its counter, the traffic of the client is the sum of the latest counters of its emails, and
the usage rows since the last reset record the growth of these counters since then. -/
theorem usage_is_counted {id : ClientId} {s₀ s : Site} {m : Meters} (htally : s₀.Tallied id)
    (hrun : Metering id (Steady id) s₀ s m) :
    (∀ c, s.clients.get? id = some c → (c.usedUp, c.usedDown) = ((s.emails id).map m.latest).sum) ∧
      s.usageOf id = m.recorded + m.growth := by
  have h := hrun.agree htally
  refine ⟨fun c hc => ?_, h.usage⟩
  rw [tallied_iff.mp h.tallied c hc]
  exact congrArg List.sum (List.map_congr_left h.held)

/-- A client on two inbounds of a server, which share a remote client. -/
def twoInbounds : Site :=
  { Site.blank with
    clients := Table.empty.set 7 ⟨1, "c", none, none, 8, 9, 0, 0, 0, none, 0, .active, none,
      none, none, none⟩
    servers := Table.empty.set 4 ⟨"s", true, []⟩
    links := (Table.empty.set ⟨7, 4, 1⟩ ⟨"c", 0, 0, none⟩).set ⟨7, 4, 2⟩ ⟨"c", 0, 0, none⟩ }

/-- The panel reports 10 bytes of the client against an inbound. -/
def tenBytes (inboundId : ℕ) : PanelReport :=
  ⟨[⟨⟨inboundId, "vless", true, "", "tcp", []⟩, [⟨"c", 10, 0, inboundId⟩]⟩], []⟩

/-- The site after the first report. -/
def reportedOnce : Site := ((syncServer 4 (some (tenBytes 1))).run twoInbounds).2

/-- The site after a second report, under an inbound of its own. -/
def reportedTwice (inboundId : ℕ) : Site :=
  ((syncServer 4 (some (tenBytes inboundId))).run reportedOnce).2

/-- The meters after the two reports. -/
def metersTwice (inboundId : ℕ) : Meters :=
  ((twoInbounds.metersOf 7).sync twoInbounds 7 4 (tenBytes 1)).sync reportedOnce 7 4
    (tenBytes inboundId)

/-- When the second report lists the client under its other inbound, 20 bytes are recorded for the
10 bytes that its counter has grown by. -/
theorem relisted_email_recorded_twice :
    Metering 7 (fun _ _ _ => True) twoInbounds (reportedTwice 2) (metersTwice 2) ∧
      (reportedTwice 2).usageOf 7 = (20, 0) ∧ (metersTwice 2).recorded + (metersTwice 2).growth =
      (10, 0) := by
  refine ⟨.sync 4 (tenBytes 2) (.sync 4 (tenBytes 1) .start ?_ ?_ trivial) ?_ ?_ trivial, ?_, ?_⟩
  all_goals decide +kernel

/-- When it stays under its inbound, what is recorded is right. -/
theorem usage_is_counted_twice :
    (∀ c, (reportedTwice 1).clients.get? 7 = some c →
      (c.usedUp, c.usedDown) = (((reportedTwice 1).emails 7).map (metersTwice 1).latest).sum) ∧
      (reportedTwice 1).usageOf 7 = (metersTwice 1).recorded + (metersTwice 1).growth := by
  refine @usage_is_counted 7 twoInbounds _ _ ?_
    (.sync 4 (tenBytes 1) (.sync 4 (tenBytes 1) .start ?_ ?_ ?_) ?_ ?_ ?_)
  · rintro c hc
    obtain rfl : c = _ := (Option.some.inj hc).symm
    exact ⟨by decide +kernel, by decide +kernel⟩
  all_goals decide +kernel

end Site

end SRPanel
