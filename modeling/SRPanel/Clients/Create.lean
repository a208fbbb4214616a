import SRPanel.Clients.Update
import Mathlib.Data.List.Dedup

/-!
# What `createClient` does

A call of `createClient` that runs alone either refuses by the verdict of its guards, and then it
has changed nothing, or it leaves the row of a new client, the bill for it, and its links. The
panels may fail in between; no link can be refused, because the ids of clients are not used twice
and no inbound occurs in two groups.
-/

namespace SRPanel

open Interleaving Prog

/-! ## Groups -/

/-- The inbounds of a group. -/
def PanelGroup.targets (g : PanelGroup) : List Target := g.inboundIds.map fun i => ⟨g.serverId, i⟩

theorem insertGroup_targets (g : PanelGroup) (gs : List PanelGroup) :
    ((insertGroup g gs).flatMap PanelGroup.targets).Perm
    (g.targets ++ gs.flatMap PanelGroup.targets) := by
  induction gs with
  | nil => exact List.Perm.of_eq (by simp [insertGroup])
  | cons h rest ih =>
      unfold insertGroup
      by_cases hjoin : h.joins g
      · have hserver : h.serverId = g.serverId := by
          simp only [PanelGroup.joins, Bool.and_eq_true, decide_eq_true_eq] at hjoin
          exact hjoin.1.1
        rw [if_pos hjoin, List.flatMap_cons, List.flatMap_cons]
        have hsplit : PanelGroup.targets { h with inboundIds := h.inboundIds ++ g.inboundIds } =
            h.targets ++ g.targets := by
          simp only [PanelGroup.targets, List.map_append, hserver]
        rw [hsplit, ← List.append_assoc]
        exact List.Perm.append_right _ List.perm_append_comm
      · rw [if_neg hjoin, List.flatMap_cons, List.flatMap_cons]
        refine (List.Perm.append_left _ ih).trans ?_
        rw [← List.append_assoc, ← List.append_assoc]
        exact List.Perm.append_right _ List.perm_append_comm

theorem foldl_insertGroup_targets (l gs : List PanelGroup) :
    ((l.foldl (fun gs g => insertGroup g gs) gs).flatMap PanelGroup.targets).Perm
      (l.flatMap PanelGroup.targets ++ gs.flatMap PanelGroup.targets) := by
  induction l generalizing gs with
  | nil => exact List.Perm.refl _
  | cons g l ih =>
      rw [List.foldl_cons, List.flatMap_cons]
      refine (ih (insertGroup g gs)).trans ?_
      refine (List.Perm.append_left _ (insertGroup_targets g gs)).trans ?_
      rw [← List.append_assoc]
      exact List.Perm.append_right _ List.perm_append_comm

/-- The group of a target stands for that target. -/
theorem groupOf_targets {servers : List (ServerId × Server)} {uuid : Draw} {t : Target}
    {g : PanelGroup} (h : groupOf servers uuid t = some g) : g.targets = [t] := by
  obtain ⟨server, -, rfl⟩ := Option.map_eq_some_iff.mp h
  rfl

/-- The groups of some targets stand for those of them that have a server. -/
theorem groupTargets_targets (targets : List Target) (servers : List (ServerId × Server))
    (uuid : Draw) : ((groupTargets targets servers uuid).flatMap PanelGroup.targets).Perm
      (targets.filter fun t => (groupOf servers uuid t).isSome) := by
  have hsort : ∀ gs : List PanelGroup, ((gs.map fun g : PanelGroup =>
      { g with inboundIds := g.inboundIds.insertionSort (· ≤ ·) }).flatMap PanelGroup.targets).Perm
      (gs.flatMap PanelGroup.targets) := by
    intro gs
    rw [List.flatMap_map]
    refine List.Perm.flatMap_left _ fun g _ => ?_
    exact (List.perm_insertionSort _ _).map _
  have hgroups : ∀ l : List Target,
      (l.filterMap (groupOf servers uuid)).flatMap PanelGroup.targets = l.filter fun t =>
        (groupOf servers uuid t).isSome := by
    intro l
    induction l with
    | nil => rfl
    | cons t l ih =>
        cases h : groupOf servers uuid t with
        | none => rw [List.filterMap_cons_none h, List.filter_cons_of_neg (by simp [h]), ih]
        | some g =>
            rw [List.filterMap_cons_some h, List.filter_cons_of_pos (by simp [h]),
              List.flatMap_cons, groupOf_targets h, ih, List.singleton_append]
  refine (hsort _).trans ((foldl_insertGroup_targets _ []).trans ?_)
  rw [hgroups, List.flatMap_nil, List.append_nil]

namespace Site

theorem groupKeys_eq (id : ClientId) (g : PanelGroup) :
    groupKeys id g = g.targets.map fun t => ⟨id, t.serverId, t.inboundId⟩ := by
  rw [PanelGroup.targets, List.map_map]
  rfl

/-- Different groups have different links. -/
theorem groupKeys_nodup (id : ClientId) {targets : List Target} (h : targets.Nodup)
    (servers : List (ServerId × Server)) (uuid : Draw) :
    ((groupTargets targets servers uuid).flatMap (groupKeys id)).Nodup := by
  have heq : (groupTargets targets servers uuid).flatMap (groupKeys id) =
      ((groupTargets targets servers uuid).flatMap PanelGroup.targets).map
        fun t => (⟨id, t.serverId, t.inboundId⟩ : LinkKey) := by
    rw [List.map_flatMap]
    congr 1
    funext g
    exact groupKeys_eq id g
  rw [heq]
  refine List.Nodup.map ?_ ((groupTargets_targets targets servers uuid).nodup_iff.mpr (h.filter _))
  rintro ⟨s, i⟩ ⟨s', i'⟩ h
  injection h with _ hs hi
  exact congrArg₂ Target.mk hs hi

/-- No target is left twice. -/
theorem normalizeTargets_nodup (list : List Target) : (normalizeTargets list).Nodup :=
  (List.perm_insertionSort _ _).nodup_iff.mpr (List.nodup_dedup list)

/-! ## Provisioning -/

/-- A site without its journal, its links and the panels. -/
def unlinked (s : Site) : Site :=
  { s with base := { s.base with journal := [] }, links := .empty, remote := .empty, calls := 0 }

/-- A change that the provisioning of client `id` may make: links of its own without traffic, and
more remote clients. -/
structure Provisioned (id : ClientId) (s s' : Site) : Prop where
  rest : s'.unlinked = s.unlinked
  others : ∀ k, k.clientId ≠ id → s'.links.get? k = s.links.get? k
  fresh : (∀ k l, k.clientId = id → s.links.get? k = some l → l.up = 0 ∧ l.down = 0) →
    ∀ k l, k.clientId = id → s'.links.get? k = some l → l.up = 0 ∧ l.down = 0
  remote : ∀ k, (s.remote.get? k).isSome → (s'.remote.get? k).isSome

namespace Provisioned

variable {id : ClientId}

theorem refl (s : Site) : Provisioned id s s := ⟨rfl, fun _ _ => rfl, fun h => h, fun _ h => h⟩

theorem trans (s s' s'' : Site) (h : Provisioned id s s') (h' : Provisioned id s' s'') :
    Provisioned id s s'' where
  rest := h'.rest.trans h.rest
  others k hk := (h'.others k hk).trans (h.others k hk)
  fresh hs := h'.fresh (h.fresh hs)
  remote k hk := h'.remote k (h.remote k hk)

theorem same_clients {s s' : Site} (h : Provisioned id s s') : s'.clients = s.clients := by
  have hrest := congrArg (fun t : Site => t.clients) h.rest
  exact hrest

end Provisioned

theorem addAttempts_provisioned (id : ClientId) (group : PanelGroup) (client : Client)
    (baseEmail : String) (expiry : Option ℤ) (n attempt : ℕ) (email : String) (last : AppError) :
    (addAttempts group client baseEmail expiry n attempt email last).Keeps (Provisioned id) := by
  refine addAttempts_keeps (fun _ => ⟨rfl, fun _ _ => rfl, fun h => h, fun _ h => h⟩) ?_
  refine fun s key c _ => ⟨rfl, fun _ _ => rfl, fun h => h, fun k hk => ?_⟩
  show ((s.remote.set key c).get? k).isSome
  rw [Table.get?_set]
  split
  · rfl
  · exact hk

theorem updateLinks_provisioned (id : ClientId) (keys : List LinkKey)
    (f : ClientServer → ClientServer) (hkeys : ∀ k ∈ keys, k.clientId = id)
    (hf : ∀ l, (f l).up = l.up ∧ (f l).down = l.down) :
    (updateLinks keys f).Keeps (Provisioned id) := by
  refine keeps_modify fun s => ⟨rfl, fun k hk => ?_, fun hs k l hk hl => ?_, fun _ h => h⟩
  · rw [Table.get?_mapRows]
    have hnot : k ∉ keys := fun h => hk (hkeys k h)
    cases s.links.get? k with
    | none => rfl
    | some l => simp only [Option.map_some, if_neg hnot]
  · rw [Table.get?_mapRows] at hl
    obtain ⟨l₀, hl₀, rfl⟩ := Option.map_eq_some_iff.mp hl
    have hzero := hs k l₀ hk hl₀
    split
    · rw [(hf l₀).1, (hf l₀).2]
      exact hzero
    · exact hzero

theorem groupKeys_client (id : ClientId) (group : PanelGroup) :
    ∀ k ∈ groupKeys id group, k.clientId = id := by
  intro k hk
  obtain ⟨i, -, rfl⟩ := List.mem_map.mp hk
  rfl

theorem provisionGroup_provisioned (id : ClientId) (client : Client) (group : PanelGroup)
    (baseEmail : String) (expiry : Option ℤ) :
    (provisionGroup id client group baseEmail expiry).Keeps (Provisioned id) := by
  have hlinks : ∀ f : ClientServer → ClientServer, (∀ l, (f l).up = l.up ∧ (f l).down = l.down) →
      (updateLinks (groupKeys id group) f).Keeps (Provisioned id) := fun f hf =>
    updateLinks_provisioned id _ f (groupKeys_client id group) hf
  refine keeps_attempt (keeps_bind
    (addAttempts_provisioned id group client baseEmail expiry _ _ _ _) fun remoteEmail => keeps_ite
    (keeps_pure _) ?_) fun err => ?_
  · exact keeps_bind (hlinks _ fun _ => ⟨rfl, rfl⟩) fun _ => keeps_pure _
  · exact keeps_bind (hlinks _ fun _ => ⟨rfl, rfl⟩) fun _ => keeps_pure _

theorem provisionGroup_returns (id : ClientId) (client : Client) (group : PanelGroup)
    (baseEmail : String) (expiry : Option ℤ) :
    (provisionGroup id client group baseEmail expiry).Returns :=
  returns_attempt fun _ => returns_bind (updateLinks_returns _ _) fun _ => returns_pure _

theorem createLink_provisioned {id : ClientId} (email : String) {key : LinkKey}
    (hkey : key.clientId = id) : (createLink email key).Keeps (Provisioned id) := by
  refine keeps_step fun s => ?_
  cases h : s.links.get? key with
  | some l => exact Provisioned.refl s
  | none =>
      refine ⟨rfl, fun k hk => ?_, fun hs k l hk hl => ?_, fun _ h => h⟩
      · have hne : k ≠ key := by
          rintro rfl
          exact hk hkey
        exact Table.get?_set_of_ne _ _ hne
      · dsimp only at hl
        rw [Table.get?_set] at hl
        split at hl
        · obtain rfl := Option.some.inj hl
          exact ⟨rfl, rfl⟩
        · exact hs k l hk hl

theorem createLinks_provisioned {id : ClientId} (email : String) (keys : List LinkKey)
    (hkeys : ∀ k ∈ keys, k.clientId = id) : (createLinks email keys).Keeps (Provisioned id) := by
  induction keys with
  | nil => exact keeps_pure ()
  | cons key keys ih =>
      exact keeps_bind (createLink_provisioned email (hkeys key List.mem_cons_self)) fun _ =>
        ih fun k hk => hkeys k (List.mem_cons_of_mem _ hk)

/-- Links that are not there yet can all be created, and no others change. -/
theorem createLinks_wp (email : String) (keys : List LinkKey) (s : Site) (hnodup : keys.Nodup)
    (hfree : ∀ k ∈ keys, s.links.get? k = none) :
    Prog.wp (createLinks email keys)
      (fun _ s' => (∀ k ∉ keys, s'.links.get? k = s.links.get? k) ∧
        ∀ k ∈ keys, s'.links.get? k = some ⟨email, 0, 0, none⟩)
      (fun _ _ => False) s := by
  induction keys generalizing s with
  | nil => exact ⟨fun _ _ => rfl, fun _ h => by cases h⟩
  | cons key keys ih =>
      obtain ⟨hkey, hnodup⟩ := List.nodup_cons.mp hnodup
      simp only [createLinks, wp_bind, createLink, wp_step, hfree key List.mem_cons_self]
      refine wp_mono _ (ih _ hnodup fun k hk => ?_) (fun _ s' h => ⟨fun k hk => ?_, fun k hk => ?_⟩)
        fun _ _ h => h
      · have hne : k ≠ key := by
          rintro rfl
          exact hkey hk
        rw [Table.get?_set_of_ne _ _ hne]
        exact hfree k (List.mem_cons_of_mem _ hk)
      · have hne : k ≠ key := by
          rintro rfl
          exact hk List.mem_cons_self
        rw [h.1 k fun hmem => hk (List.mem_cons_of_mem _ hmem)]
        exact Table.get?_set_of_ne _ _ hne
      · rcases List.mem_cons.mp hk with rfl | hk
        · rw [h.1 k hkey]
          exact Table.get?_set_self _ _ _
        · exact h.2 k hk

/-- The provisioning of a group changes no other links. -/
theorem provisionGroup_others (id : ClientId) (client : Client) (group : PanelGroup)
    (baseEmail : String) (expiry : Option ℤ) :
      (provisionGroup id client group baseEmail expiry).Keeps fun s s' => ∀ k ∉ groupKeys id group,
      s'.links.get? k = s.links.get? k := by
  have hlinks : ∀ f : ClientServer → ClientServer, (updateLinks (groupKeys id group) f).Keeps
      fun s s' => ∀ k ∉ groupKeys id group, s'.links.get? k = s.links.get? k := by
    refine fun f => keeps_modify fun s k hk => ?_
    rw [Table.get?_mapRows]
    cases s.links.get? k with
    | none => rfl
    | some l => simp only [Option.map_some, if_neg hk]
  refine keeps_attempt (keeps_bind (addAttempts_keeps (fun _ _ _ => rfl) fun _ _ _ _ _ _ =>
    rfl) fun _ =>
    keeps_ite (keeps_pure _) (keeps_bind (hlinks _) fun _ => keeps_pure _)) fun err => ?_
  exact keeps_bind (hlinks _) fun _ => keeps_pure _

theorem provisionGroups_provisioned (id : ClientId) (client : Client) (expiry : Option ℤ)
    (seen : List ServerId) (groups : List PanelGroup) :
    (provisionGroups id client expiry seen groups).Keeps (Provisioned id) := by
  induction groups generalizing seen with
  | nil => exact keeps_pure _
  | cons group rest ih =>
      exact keeps_bind (createLinks_provisioned _ _ (groupKeys_client id group)) fun _ =>
        keeps_bind (provisionGroup_provisioned _ _ _ _ _) fun _ =>
          keeps_bind (ih _) fun _ => keeps_pure _

/-- With links that are not there yet the provisioning of the groups does not fail. -/
theorem provisionGroups_wp (id : ClientId) (client : Client) (expiry : Option ℤ)
    (seen : List ServerId) (groups : List PanelGroup) (s : Site)
    (hnodup : (groups.flatMap (groupKeys id)).Nodup)
    (hfree : ∀ k ∈ groups.flatMap (groupKeys id), s.links.get? k = none) :
    Prog.wp (provisionGroups id client expiry seen groups)
      (fun _ s' => Provisioned id s s') (fun _ _ => False) s := by
  have hframe := (provisionGroups_provisioned id client expiry seen groups).wp Provisioned.refl
    Provisioned.trans s
  suffices h : Prog.wp (provisionGroups id client expiry seen groups) (fun _ _ =>
    True) (fun _ _ => False) s from wp_mono _ (wp_and hframe h) (fun _ _ h => h.1) fun _ _ h => h.2
  clear hframe
  induction groups generalizing seen s with
  | nil => trivial
  | cons group rest ih =>
      rw [List.flatMap_cons, List.nodup_append] at hnodup
      obtain ⟨hkeys, hrest, hdisjoint⟩ := hnodup
      have hapart : ∀ k ∈ rest.flatMap (groupKeys id), k ∉ groupKeys id group :=
        fun k hk hk' => hdisjoint k hk' k hk rfl
      simp only [provisionGroups, wp_bind]
      refine wp_mono _ (createLinks_wp _ _ s hkeys fun k hk => hfree k ?_) (fun _ s₁ h₁ => ?_)
        fun _ _ h => h
      · exact List.mem_flatMap.mpr ⟨group, List.mem_cons_self, hk⟩
      · have hother := (provisionGroup_others id client group
          (emailOf (configLabel client) seen group) expiry).wp (fun _ _ _ => rfl)
          (fun _ _ _ h h' k hk => (h' k hk).trans (h k hk)) s₁
        refine wp_mono _ (wp_and hother ((provisionGroup_returns _ _ _ _ _).wp s₁))
          (fun error s₂ h₂ => ?_) fun _ _ h => h.2
        refine wp_mono _ (ih _ s₂ hrest fun k hk => ?_) (fun _ _ _ => trivial) fun _ _ h => h
        rw [h₂.1 k (hapart k hk), h₁.1 k (hapart k hk)]
        exact hfree k (List.mem_flatMap.mpr (by
          obtain ⟨g, hg, hk⟩ := List.mem_flatMap.mp hk
          exact ⟨g, List.mem_cons_of_mem _ hg, hk⟩))

/-! ## The guards -/

section Offers

variable {V : Site → Site → Prop}
    (hV : ∀ s s', V s s' → s'.services = s.services ∧ s'.accounts = s.accounts)

include hV

/-- The look-up of a service only reads. -/
theorem getServiceForActor_reads (actor : Actor) (id : ServiceId) :
    (getServiceForActor actor id).Reads V := by
  refine reads_bind (reads_query fun s s' h => by rw [(hV s s' h).1]) fun service => ?_
  cases service with
  | none => exact reads_throw _
  | some service =>
      exact reads_bind (refuseIf_reads _ _) fun _ => reads_bind (refuseIf_reads _ _) fun _ =>
        reads_pure service

/-- So does that of an actor's access. -/
theorem accessOf_reads (actor : Actor) : (accessOf actor).Reads V :=
  reads_ite (reads_pure none) (reads_query fun s s' h => by
    unfold serverAccessOf
    rw [(hV s s' h).2])

/-- So does that of a service's targets. -/
theorem resolveServiceTargets_reads (actor : Actor) (id : ServiceId) :
    (resolveServiceTargets actor id).Reads V :=
  reads_bind (getServiceForActor_reads hV actor id) fun _ =>
    reads_bind (accessOf_reads hV actor)
      fun _ => reads_bind (refuseIf_reads _ _) fun _ => reads_pure _

/-- So does the choice of targets. -/
theorem chosenTargets_reads (actor : Actor) (input : CreateClientInput) :
    (chosenTargets actor input).Reads V := by
  unfold chosenTargets
  cases input.serviceId with
  | none => exact reads_pure _
  | some id => exact resolveServiceTargets_reads hV actor id

end Offers

/-- The same site offers the same. -/
theorem offers_of_eq (s s' : Site) (h : s = s') :
    s'.services = s.services ∧ s'.accounts = s.accounts := by
  rw [h]
  exact ⟨rfl, rfl⟩

/-- Guards that look at the terms read no more than the whole state. -/
theorem reads_of_terms {α : Type} {p : Task α} (hp : p.Reads SameTerms) : p.Reads (· = ·) :=
  hp.mono fun s s' h => by
    obtain rfl : s = s' := h
    exact SameTerms.of_synced (Synced.refl s)

/-- What the guards of `createClient` have found when they pass. -/
structure Admitted (s : Site) (actor : Operator) (input : CreateClientInput)
    (a : Admission) : Prop where
  targets : ((chosenTargets actor.actor input).run s).1 = .ok a.targets
  kind : ((assertClientKind actor.actor (kindFromGB (max 0 input.trafficGB)) input.serviceId
    (max 0 input.trafficGB) none).run s).1 = .ok ()
  quota : ((assertQuota actor (gbToBytes (max 0 input.trafficGB)) a.targets none).run s).1 = .ok ()
  cost : ((quoteClientCost actor input.trafficGB input.days).run s).1 = .ok a.cost
  affordable : ((assertAffordable actor a.cost).run s).1 = .ok ()
  limit : a.limitBytes = gbToBytes (max 0 input.trafficGB)

theorem admitClient_reads_state (actor : Operator) (input : CreateClientInput) :
    (admitClient actor input).Reads (· = ·) :=
  reads_bind (refuseIf_reads _ _) fun _ =>
    reads_bind (chosenTargets_reads offers_of_eq actor.actor input) fun targets =>
      reads_bind (refuseIf_reads _ _) fun _ =>
        reads_bind (reads_of_terms (assertClientKind_reads _ _ _ _ _)) fun _ =>
          reads_bind (reads_of_terms (assertQuota_reads _ _ _ _)) fun _ =>
            reads_bind (reads_of_terms (quoteClientCost_reads _ _ _)) fun cost =>
              reads_bind (reads_of_terms (assertAffordable_reads _ _)) fun _ =>
                reads_bind (reads_query fun s s' h => by rw [h]) fun servers =>
                  reads_bind (refuseIf_reads _ _) fun _ => reads_pure _

theorem admitClient_admitted {s : Site} {actor : Operator} {input : CreateClientInput}
    {a : Admission} (h : ((admitClient actor input).run s).1 = .ok a) :
    s.Admitted actor input a := by
  unfold admitClient at h
  obtain ⟨_, -, h⟩ := (refuseIf_reads (V := (· = ·)) _ _).bind_ok h
  obtain ⟨targets, htargets, h⟩ := (chosenTargets_reads offers_of_eq actor.actor input).bind_ok h
  obtain ⟨_, -, h⟩ := (refuseIf_reads (V := (· = ·)) _ _).bind_ok h
  obtain ⟨_, hkind, h⟩ := (assertClientKind_reads _ _ _ _ _).bind_ok h
  obtain ⟨_, hquota, h⟩ := (assertQuota_reads _ _ _ _).bind_ok h
  obtain ⟨cost, hcost, h⟩ := (quoteClientCost_reads _ _ _).bind_ok h
  obtain ⟨_, hafford, h⟩ := (assertAffordable_reads _ _).bind_ok h
  obtain ⟨servers, -, h⟩ := (reads_query (V := (· = ·)) fun s s' h => by rw [h]).bind_ok h
  obtain ⟨_, -, h⟩ := (refuseIf_reads (V := (· = ·)) _ _).bind_ok h
  obtain rfl := Except.ok.inj h
  exact ⟨htargets, hkind, hquota, hcost, hafford, rfl⟩

/-- No target is chosen twice, unless a service lists one twice. -/
theorem chosenTargets_nodup {s : Site} {actor : Actor} {input : CreateClientInput}
    {targets : List Target} (htargets : ((chosenTargets actor input).run s).1 = .ok targets)
    (hservices : ∀ id row, input.serviceId = some id → s.services.get? id = some row →
      row.targets.Nodup) :
    targets.Nodup := by
  unfold chosenTargets at htargets
  cases hid : input.serviceId with
  | none =>
      rw [hid] at htargets
      rw [← Except.ok.inj htargets]
      exact normalizeTargets_nodup _
  | some id =>
      rw [hid] at htargets
      obtain ⟨service, hservice, htargets⟩ :=
        (getServiceForActor_reads offers_of_eq actor id).bind_ok htargets
      have hrow : s.services.get? id = some service := by
        obtain ⟨found, hfound, hservice⟩ :=
          (reads_query (V := (· = ·)) fun s s' h => by rw [h]).bind_ok hservice
        obtain rfl := Except.ok.inj hfound
        dsimp only at hservice
        cases hget : s.services.get? id with
        | none => rw [hget] at hservice; cases hservice
        | some row =>
            rw [hget] at hservice
            obtain ⟨_, -, hservice⟩ := (refuseIf_reads (V := (· = ·)) _ _).bind_ok hservice
            obtain ⟨_, -, hservice⟩ := (refuseIf_reads (V := (· = ·)) _ _).bind_ok hservice
            rw [Except.ok.inj hservice]
      obtain ⟨access, -, htargets⟩ := (accessOf_reads offers_of_eq actor).bind_ok htargets
      obtain ⟨_, -, htargets⟩ := (refuseIf_reads (V := (· = ·)) _ _).bind_ok htargets
      rw [← Except.ok.inj htargets]
      exact (hservices id service hid hrow).filter _

theorem Admitted.nodup {s : Site} {actor : Operator} {input : CreateClientInput} {a : Admission}
    (h : s.Admitted actor input a)
    (hservices : ∀ id row, input.serviceId = some id → s.services.get? id = some row →
      row.targets.Nodup) :
    a.targets.Nodup := chosenTargets_nodup h.targets hservices

/-! ## The operation -/

/-- The state after the creation of a client, up to its links and the panels. -/
def created (s : Site) (actor : Operator) (input : CreateClientInput) (a : Admission)
    (cause : Option OrderId) : Site :=
  { s with
    base := ({ s.base with nextId := s.base.nextId + 3 } : World).bill actor a.cost s.base.nextId
    clients := s.clients.set s.base.nextId
      (newClient actor input a.limitBytes (s.base.nextId + 1) (s.base.nextId + 2) s.base.now)
    pendingStarts := if 0 < delayedDays input then s.pendingStarts.set s.base.nextId
      (delayedDays input)
      else s.pendingStarts
    deliveries := s.deliveries.deliver cause }

theorem Logs.provisioned {s s' : Site} (h : s.Logs s') (id : ClientId) : Provisioned id s s' := by
  rw [h.rest]
  refine ⟨?_, fun _ _ => rfl, fun h => h, fun _ h => h⟩
  show ({ s with base := { s'.base with journal := [] }, links := _, remote := _, calls := _ } :
    Site) = _
  rw [show ({ s'.base with journal := [] } : World) = { s.base with journal := [] } from h.base]
  rfl

/-- A pending start is one write. -/
theorem armPendingStart_wp (id : ClientId) (days : ℕ) {Q : Unit → Site → Prop}
    {E : AppError → Site → Prop} {s : Site} : Prog.wp (armPendingStart id days) Q E s ↔
      Q () { s with pendingStarts := if 0 <
        days then s.pendingStarts.set id days else s.pendingStarts } := by
  unfold armPendingStart
  split
  · exact wp_modify _ _
  · exact wp_pure _

/-- A lone `createClient` leaves the new client with its bill and its links, or refuses by its
guards: then it has changed nothing. -/
theorem createClient_spec (actor : Operator) (input : CreateClientInput)
    (cause : Option OrderId) (s : Site) (hrow : (s.base.admins.get? actor.id).isSome)
    (hfresh : ∀ k, k.clientId = s.base.nextId → s.links.get? k = none)
    (hservices : ∀ id row, input.serviceId = some id → s.services.get? id = some row →
      row.targets.Nodup) :
    Prog.wp (createClient actor input cause)
      (fun r s' => ∃ a, ((admitClient actor input).run s).1 = .ok a ∧ r.1.id = s.base.nextId ∧
        Provisioned s.base.nextId (s.created actor input a cause) s')
      (fun e s' => ((admitClient actor input).run s).1 = .error e ∧ s' = s) s := by
  unfold createClient
  rw [wp_bind, (admitClient_reads_state actor input).wp_iff]
  rcases hadmit : ((admitClient actor input).run s).1 with e | a
  · exact ⟨rfl, rfl⟩
  · have hadmitted := admitClient_admitted hadmit
    dsimp only
    simp only [openClient, wp_bind, insertClient, wp_step, armPendingStart_wp]
    refine wp_mono _ (chargeFor_spec actor a.cost s.base.nextId _ hrow) (fun _ s₁ h₁ => ?_)
      fun _ _ h => absurd (assertAffordable_covers hadmitted.affordable) h.1
    have hcreated : (s.created actor input a cause).Logs s₁ := h₁.2
    have hlinks : s₁.links = s.links := by rw [hcreated.rest]; rfl
    refine wp_mono _ (provisionGroups_wp _ _ _ _ _ s₁
      (groupKeys_nodup _ (hadmitted.nodup hservices) _ _) fun k hk => ?_) (fun errors s₂ h₂ => ?_)
      fun _ _ h => h.elim
    · rw [hlinks]
      obtain ⟨group, -, hk⟩ := List.mem_flatMap.mp hk
      exact hfresh k (groupKeys_client _ group k hk)
    · have hframe := (lift_logs (audit_keeps_logged (some actor.id) "client.create")).wp Logs.refl
        (fun _ _ _ h h' => ⟨by rw [h'.rest, h.rest], h'.base.trans h.base⟩) s₂
      refine wp_mono _ (wp_and hframe ((audit_returns _ _).zoom.wp s₂)) (fun _ s₃ h₃ => ?_)
        fun _ _ h => h.2.elim
      have hall := ((hcreated.provisioned s.base.nextId).trans _ _ _ h₂).trans _ _ _
        (h₃.1.provisioned _)
      have hclients : s₃.clients = (s.created actor input a cause).clients := hall.same_clients
      have hfound : s₃.clientOf actor.actor s.base.nextId = some ⟨s.base.nextId,
          newClient actor input a.limitBytes (s.base.nextId + 1) (s.base.nextId + 2) s.base.now,
          s₃.linksOf s.base.nextId⟩ := by
        rw [clientOf, hclients, created, Table.get?_set_self]
        simp [inScope, newClient, Operator.actor]
      simp only [Prog.wp, getClientForActor_run, hfound, run_pure]
      exact ⟨a, rfl, trivial, hall⟩

end Site

end SRPanel
