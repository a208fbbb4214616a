import SRPanel.Lib.Overtake
import SRPanel.Clients.Kinds
import SRPanel.Clients.Refusal
import SRPanel.Delivery.Repeats

/-!
# The caps of a reseller

`createClient` and `updateClient` compare what a reseller has allotted with the quota and the client
limit of his account, and write the client some steps later. As long as no call writes after another
call has changed the allotments since its own first step, the caps hold; two calls that pass the
guard together exceed them.
-/

namespace SRPanel

open Interleaving Prog

/-- Allotments within the caps of an account, where these are set. -/
structure Account.Fits (a : Account) (l : List (ClientId × ℤ)) : Prop where
  quota : ∀ q ∈ a.trafficQuota, (l.map Prod.snd).sum ≤ q
  clients : ∀ n ∈ a.clientLimit, l.length ≤ n

/-- The guard's room for an allotment of so many bytes: for a new client, or instead of what a
client has. -/
structure Account.Room (a : Account) (extraBytes : ℤ) (exclude : Option ClientId)
    (l : List (ClientId × ℤ)) : Prop where
  quota : ∀ q ∈ a.trafficQuota,
  ((l.filter fun r => exclude ≠ some r.1).map Prod.snd).sum + extraBytes ≤ q
  clients : exclude = none → ∀ n ∈ a.clientLimit, l.length < n

namespace Site

/-- What a reseller has allotted: his clients with their traffic limits. -/
def allotments (id : AdminId) (s : Site) : List (ClientId × ℤ) :=
  (s.clients.rows.filter fun r => r.2.adminId = id).map fun r => (r.1, r.2.trafficLimit)

/-- The clients of a reseller are within the caps of his account. -/
def WithinCaps (s : Site) (id : AdminId) : Prop :=
  ∀ a ∈ s.accounts.get? id, a.Fits (s.allotments id)

/-- The account of an actor is the stored one, and no client has an id that has not been drawn. -/
structure Enrolled (actor : Operator) (s : Site) : Prop where
  account : s.accounts.get? actor.id = some actor.account
  drawn : ∀ k, s.base.nextId ≤ k → s.clients.get? k = none

/-- A change that leaves alone who has which limits. -/
structure SameRoster (s s' : Site) : Prop where
  clients : (s'.clients.mapRows fun _ c => c.settled) = s.clients.mapRows fun _ c => c.settled
  accounts : s'.accounts = s.accounts
  nextId : s'.base.nextId = s.base.nextId

section

variable {s s' : Site} {actor : Operator}

/-! ## Frames -/

theorem SameRoster.refl (s : Site) : SameRoster s s := ⟨rfl, rfl, rfl⟩

theorem SameRoster.same (h : SameRoster s s') (id : AdminId) : Same (allotments id) s s' :=
  Table.filter_map_of_mapRows_eq h.clients (fun r => r.2.adminId = id)
    (fun r => (r.1, r.2.trafficLimit)) (fun _ => rfl) fun _ => rfl

/-- The account stays enrolled. -/
theorem SameRoster.enrolled (h : SameRoster s s') (hs : s.Enrolled actor) : s'.Enrolled actor := by
  refine ⟨by rw [h.accounts]; exact hs.account, fun k hk => ?_⟩
  have hget := congrArg (fun t : Table ClientId Client => t.get? k) h.clients
  rw [h.nextId] at hk
  simp only [Table.get?_mapRows, hs.drawn k hk, Option.map_none, Option.map_eq_none_iff] at hget
  exact hget

/-- A push leaves the roster. -/
theorem SameRoster.of_pushed (h : Pushed s s') : SameRoster s s' where
  clients := congrArg Site.clients h.synced.settled
  accounts := h.synced.same Site.accounts fun _ => rfl
  nextId := h.synced.same (fun s => s.base.nextId) fun _ => rfl

/-- A procedure that leaves the roster alone. -/
theorem roster_of_pushed {α : Type} {p : Task α} (h : p.Keeps Pushed) : p.Keeps SameRoster :=
  h.mono fun _ _ h => .of_pushed h

/-- So does a service that only reads. -/
theorem roster_of_reads {α : Type} {V : Site → Site → Prop} {p : Task α} (h : p.Reads V) :
    p.Keeps SameRoster :=
  h.keeps SameRoster.refl

/-- So does a pending start that is settled. -/
theorem settleStart_roster (id : ClientId) (input : UpdateClientInput) :
    (settleStart id input).Keeps SameRoster :=
  keeps_ite (keeps_modify fun _ => ⟨rfl, rfl, rfl⟩) (keeps_pure ())

/-- So does one that is armed. -/
theorem armPendingStart_roster (id : ClientId) (days : ℕ) :
    (armPendingStart id days).Keeps SameRoster :=
  keeps_ite (keeps_modify fun _ => ⟨rfl, rfl, rfl⟩) (keeps_pure ())

/-- So does a charge. -/
theorem chargeFor_roster (actor : Operator) (cost : ℤ) (id : ClientId) :
    (chargeFor actor cost id).Keeps SameRoster := by
  refine keeps_ite (keeps_bind (((chargeWallet_keeps_charged _ _ _ _ _ _).zoom world Mark.base).mono
    fun s s' h => ?_) fun _ => keeps_pure _) (keeps_pure _)
  obtain ⟨hcharged, hrest⟩ := h
  have hnext := congrArg World.nextId hcharged.rest
  refine ⟨?_, ?_, hnext⟩
  · rw [← hrest]
    rfl
  · rw [← hrest]
    rfl

/-- So does the provisioning on the panels. -/
theorem provisionGroups_roster (id : ClientId) (client : Client) (expiry : Option ℤ)
    (seen : List ServerId) (groups : List PanelGroup) :
    (provisionGroups id client expiry seen groups).Keeps SameRoster := by
  refine (provisionGroups_provisioned id client expiry seen groups).mono fun s s' h => ?_
  have haccounts := congrArg Site.accounts h.rest
  have hnext := congrArg (fun s : Site => s.base.nextId) h.rest
  exact ⟨by rw [h.same_clients], haccounts, hnext⟩

/-- What `createClient` does after the insertion. -/
theorem opened_roster (actor : Operator) (id : ClientId) (days : ℕ) (cost : ℤ) (row : Client)
    (expiry : Option ℤ) (groups : List PanelGroup) : Prog.Keeps SameRoster (do
      armPendingStart id days
      chargeFor actor cost id
      let errors ← provisionGroups id row expiry [] groups
      lift (audit (some actor.id) "client.create")
      let client ← getClientForActor actor.actor id
      pure (client, errors)) :=
  keeps_bind (armPendingStart_roster id days) fun _ =>
    keeps_bind (chargeFor_roster actor cost id) fun _ =>
      keeps_bind (provisionGroups_roster id row expiry [] groups) fun errors =>
        keeps_bind (roster_of_pushed (lift_pushed (audit_keeps_logged _ _))) fun _ =>
          keeps_bind (roster_of_reads (getClientForActor_reads actor.actor id)) fun client =>
            keeps_pure (client, errors)

/-- What `updateClient` does after the write of the row. -/
theorem pushed_roster (actor : Operator) (cost : ℤ) (id id' : ClientId) : Prog.Keeps SameRoster (do
      chargeFor actor cost id
      recomputeClient id
      let client ← getClientForActor actor.actor id'
      let errors ← pushClient client
      lift (audit (some actor.id) "client.update")
      pure (client, errors)) :=
  keeps_bind (chargeFor_roster actor cost id) fun _ =>
    keeps_bind (roster_of_pushed (recomputeClient_pushed id)) fun _ =>
      keeps_bind (roster_of_reads (getClientForActor_reads actor.actor id')) fun client =>
        keeps_bind (roster_of_pushed (pushClient_pushed client)) fun errors =>
          keeps_bind (roster_of_pushed (lift_pushed (audit_keeps_logged _ _))) fun _ =>
            keeps_pure (client, errors)

/-! ## The guards -/

/-- A part that leaves the roster alone, amid calls that leave the allotments alone. -/
theorem roster_amid {α : Type} {p : Task α} (h : p.Keeps SameRoster) (id : AdminId) (s : Site) :
    Amid (Same (allotments id)) (fun _ t => Same (allotments id) s t) (fun _ _ => True) p s :=
  amid_mono ((h.mono fun _ _ h => h.same id).amid (I := Same (allotments id) s)
    (fun _ _ h h' => h'.trans _ _ _ h) (fun _ _ h h' => h'.trans _ _ _ h)
    (Same.refl s)) (fun _ _ h => h)
    fun _ _ _ => trivial

theorem length_allotments (s : Site) (id : AdminId) :
    (s.clients.rows.filter fun r => r.2.adminId = id).length = (s.allotments id).length := by
  rw [allotments, List.length_map]

/-- What `assertTrafficQuota` adds up, of the allotments. -/
theorem sum_allotments (s : Site) (id : AdminId) (exclude : Option ClientId) :
    ((s.clients.rows.filter fun r => r.2.adminId = id && exclude ≠ some r.1).map fun r =>
      r.2.trafficLimit).sum = (((s.allotments id).filter fun r =>
        exclude ≠ some r.1).map Prod.snd).sum := by
  rw [allotments, List.filter_map, List.map_map, List.filter_filter]
  congr 2
  refine List.filter_congr fun r _ => ?_
  rw [Bool.and_comm]
  rfl

theorem assertClientLimit_counts (admin : Operator) (exclude : Option ClientId) :
    (assertClientLimit admin exclude).Reads (Same (allotments admin.id)) := by
  unfold assertClientLimit
  split
  · refine reads_bind (reads_query fun s s' h => ?_) fun _ => refuseIf_reads _ _
    rw [length_allotments, length_allotments,
      show s'.allotments admin.id = s.allotments admin.id from h]
  · exact reads_pure ()

theorem assertTrafficQuota_counts (admin : Operator) (extraBytes : ℤ) (exclude : Option ClientId) :
    (assertTrafficQuota admin extraBytes exclude).Reads (Same (allotments admin.id)) := by
  unfold assertTrafficQuota
  cases admin.account.trafficQuota with
  | none => exact reads_pure ()
  | some quota =>
      refine reads_bind (reads_query fun s s' h => ?_) fun _ => refuseIf_reads _ _
      rw [sum_allotments, sum_allotments,
        show s'.allotments admin.id = s.allotments admin.id from h]

theorem assertClientLimit_room {admin : Operator} {exclude : Option ClientId}
    (h : ((assertClientLimit admin exclude).run s).1 = .ok ()) (hnone : exclude = none) {n : ℕ}
    (hn : n ∈ admin.account.clientLimit) : (s.allotments admin.id).length < n := by
  subst hnone
  unfold assertClientLimit at h
  rw [Option.mem_def.mp hn] at h
  obtain ⟨count, hcount, h⟩ := (reads_query (V := (· = ·)) fun _ _ h => by rw [h]).bind_ok h
  obtain rfl := Except.ok.inj hcount
  have hlt := of_decide_eq_false (refuseIf_ok h)
  dsimp only at hlt
  rw [length_allotments] at hlt
  exact Nat.lt_of_not_le hlt

theorem assertTrafficQuota_room {admin : Operator} {extraBytes : ℤ} {exclude : Option ClientId}
    (h : ((assertTrafficQuota admin extraBytes exclude).run s).1 = .ok ()) {q : ℤ}
    (hq : q ∈ admin.account.trafficQuota) :
    (((s.allotments admin.id).filter fun r => exclude ≠ some r.1).map Prod.snd).sum +
    extraBytes ≤ q := by
  unfold assertTrafficQuota at h
  rw [Option.mem_def.mp hq] at h
  obtain ⟨allocated, hallocated, h⟩ := (reads_query (V := (· = ·)) fun _ _ h => by rw [h]).bind_ok h
  obtain rfl := Except.ok.inj hallocated
  have hle := of_decide_eq_false (refuseIf_ok h)
  dsimp only at hle
  rw [sum_allotments] at hle
  exact not_lt.mp hle

/-- If the quota lets an allotment pass, there is room for it. -/
theorem assertQuota_amid (hrole : actor.role ≠ .owner) (extraBytes : ℤ) (targets : List Target)
    (exclude : Option ClientId) (s : Site) :
    Amid (Same (allotments actor.id))
      (fun _ t => Same (allotments actor.id) s t ∧
        actor.account.Room extraBytes exclude (s.allotments actor.id))
      (fun _ _ => True) (assertQuota actor extraBytes targets exclude) s := by
  have htrans := @Same.trans Site _ (allotments actor.id)
  unfold assertQuota
  rw [if_neg hrole]
  refine amid_read fun t₁ h₁ => ?_
  refine (refuseIf_reads (V := Same (allotments actor.id)) _ _).amid_bind Same.refl htrans
    (fun _ _ _ => trivial) fun _ t₂ h₂ => ?_
  have hst₂ := htrans _ _ _ h₁ h₂
  refine amid_bind Same.refl (amid_mono ((assertClientLimit_counts actor exclude).amid_run
    (fun _ _ h => h) Same.refl
    htrans t₂) (fun _ t₃ h₃ => ?_) fun _ _ _ => trivial)
  refine amid_bind Same.refl
    (amid_mono ((assertTrafficQuota_counts actor extraBytes exclude).amid_run (fun _ _ h => h)
      Same.refl htrans t₃) (fun _ t₄ h₄ => ?_) fun _ _ _ => trivial)
  have hst₃ := htrans _ _ _ hst₂ h₃.1
  refine amid_mono (roster_amid (roster_of_reads (assertAccess_reads actor targets)) actor.id t₄)
    (fun _ t₅ h₅ => ?_)
    fun _ _ _ => trivial
  refine ⟨htrans _ _ _ hst₃ (htrans _ _ _ h₄.1 h₅), fun q hq => ?_, fun hnone n hn => ?_⟩
  · have hroom := assertTrafficQuota_room h₄.2 hq
    rwa [show t₃.allotments actor.id = s.allotments actor.id from hst₃] at hroom
  · have hroom := assertClientLimit_room h₃.2 hnone hn
    rwa [show t₂.allotments actor.id = s.allotments actor.id from hst₂] at hroom

/-- What a new client is given has room. -/
theorem admitClient_room (hrole : actor.role ≠ .owner) (input : CreateClientInput) (s : Site) :
    Amid (Same (allotments actor.id))
      (fun a t => Same (allotments actor.id) s t ∧
        actor.account.Room a.limitBytes none (s.allotments actor.id))
      (fun _ _ => True) (admitClient actor input) s := by
  have htrans := @Same.trans Site _ (allotments actor.id)
  unfold admitClient
  refine (refuseIf_reads (V := (· = ·)) _ _).amid_bind Same.refl htrans
    (fun _ _ _ => trivial) fun _ t₁ h₁ => ?_
  refine (chosenTargets_reads offers_of_eq actor.actor input).amid_bind Same.refl htrans
    (fun _ _ _ => trivial) fun targets t₂ h₂ => ?_
  refine (refuseIf_reads (V := (· = ·)) _ _).amid_bind Same.refl htrans
    (fun _ _ _ => trivial) fun _ t₃ h₃ => ?_
  refine (assertClientKind_reads _ _ _ _ _).amid_bind Same.refl htrans
    (fun _ _ _ => trivial) fun _ t₄ h₄ => ?_
  have hst₄ := htrans _ _ _ h₁ (htrans _ _ _ h₂ (htrans _ _ _ h₃ h₄))
  refine amid_bind Same.refl
    (amid_mono (assertQuota_amid hrole _ _ _ t₄) (fun _ t₅ h₅ => ?_) fun _ _ _ => trivial)
  obtain ⟨h₅, hroom⟩ := h₅
  rw [show t₄.allotments actor.id = s.allotments actor.id from hst₄] at hroom
  refine (quoteClientCost_reads _ _ _).amid_bind Same.refl htrans
    (fun _ _ _ => trivial) fun cost t₆ h₆ => ?_
  refine (assertAffordable_reads _ _).amid_bind Same.refl htrans
    (fun _ _ _ => trivial) fun _ t₇ h₇ => ?_
  refine amid_read fun t₈ h₈ => ?_
  refine (refuseIf_reads (V := (· = ·)) _ _).amid_bind Same.refl htrans
    (fun _ _ _ => trivial) fun _ t₉ h₉ => ?_
  refine amid_pure fun t h => ⟨?_, hroom⟩
  have hst₇ := htrans _ _ _ hst₄ (htrans _ _ _ h₅ (htrans _ _ _ h₆ h₇))
  exact htrans _ _ _ hst₇ (htrans _ _ _ h₈ (htrans _ _ _ h₉ h))

/-- What a patch sets as the limit of a client has room instead of the old one. -/
theorem updateData_room (hrole : actor.role ≠ .owner) (current : FullClient)
    (input : UpdateClientInput) (s : Site) : Amid (Same (allotments actor.id))
      (fun data t => Same (allotments actor.id) s t ∧ ∀ bytes ∈ data.trafficLimit,
        actor.account.Room bytes (some current.id) (s.allotments actor.id))
      (fun _ _ => True) (updateData actor current input) s := by
  have htrans := @Same.trans Site _ (allotments actor.id)
  have hlimit : ∀ s, Amid (Same (allotments actor.id))
      (fun limit t => Same (allotments actor.id) s t ∧ ∀ bytes ∈ limit,
        actor.account.Room bytes (some current.id) (s.allotments actor.id))
      (fun _ _ => True) (updateLimit actor current input.trafficGB) s := by
    intro s
    unfold updateLimit
    cases input.trafficGB with
    | none => exact amid_pure fun t h => ⟨h, fun _ hb => by cases hb⟩
    | some gb =>
        refine (assertClientKind_reads _ _ _ _ _).amid_bind Same.refl htrans (fun _ _ _ => trivial)
          fun _ t₁ h₁ => ?_
        refine amid_bind Same.refl (amid_mono (assertQuota_amid hrole _ _ _ t₁) (fun _ t₂ h₂ => ?_)
          fun _ _ _ => trivial)
        obtain ⟨h₂, hroom⟩ := h₂
        rw [show t₁.allotments actor.id = s.allotments actor.id from h₁] at hroom
        refine amid_pure fun t h => ⟨htrans _ _ _ h₁ (htrans _ _ _ h₂ h), fun bytes hb => ?_⟩
        rw [← Option.some.inj hb]
        exact hroom
  unfold updateData
  refine (refuseIf_reads (V := (· = ·)) _ _).amid_bind Same.refl htrans
    (fun _ _ _ => trivial) fun _ t₁ h₁ => ?_
  refine amid_bind Same.refl (amid_mono (hlimit t₁) (fun limit t₂ h₂ => ?_) fun _ _ _ => trivial)
  obtain ⟨h₂, hroom⟩ := h₂
  rw [show t₁.allotments actor.id = s.allotments actor.id from h₁] at hroom
  refine amid_read fun t₃ h₃ => amid_pure fun t h => ⟨?_, hroom⟩
  exact htrans _ _ _ (htrans _ _ _ h₁ h₂) (htrans _ _ _ h₃ h)

/-! ## The writes -/

/-- The allotments after a client has been put into the table. -/
theorem allotments_put {k : ClientId} {c : Client} {id : AdminId}
    (hothers : ∀ k', k' ≠ k → s'.clients.get? k' = s.clients.get? k')
    (hget : s'.clients.get? k = some c) (howner : c.adminId = id) :
    (s'.allotments id).Perm ((k, c.trafficLimit) :: (s.allotments id).filter fun r =>
      some k ≠ some r.1) := by
  have hperm := Table.filter_perm_of_agree hothers hget (fun r => r.2.adminId = id)
    (decide_eq_true howner)
  have hmap := hperm.map fun r : ClientId × Client => (r.1, r.2.trafficLimit)
  refine hmap.trans (.of_eq ?_)
  rw [List.map_cons, allotments, List.filter_map, List.filter_filter]
  congr 2
  refine List.filter_congr fun r _ => ?_
  rw [Bool.and_comm]
  congr 1
  simp [eq_comm]

/-- With an allotment for which there was room the account still fits. -/
theorem room_fits {a : Account} {bytes : ℤ} {exclude : Option ClientId} {k : ClientId}
    {l l' : List (ClientId × ℤ)} (hroom : a.Room bytes exclude l) (hfits : a.Fits l)
    (hl' : l'.Perm ((k, bytes) :: l.filter fun r => exclude ≠ some r.1))
    (hlength : exclude ≠ none → l'.length ≤ l.length) : a.Fits l' := by
  refine ⟨fun q hq => ?_, fun n hn => ?_⟩
  · rw [(hl'.map Prod.snd).sum_eq, List.map_cons, List.sum_cons, add_comm]
    exact hroom.quota q hq
  · by_cases hnone : exclude = none
    · have hlt := hroom.clients hnone n hn
      have hle := List.length_filter_le (fun r : ClientId × ℤ => exclude ≠ some r.1) l
      rw [hl'.length_eq, List.length_cons]
      omega
    · exact (hlength hnone).trans (hfits.clients n hn)

/-- A new client for which there was room. -/
theorem created_fits {bytes : ℤ} {c : Client} (hids : s.Enrolled actor)
    (howner : c.adminId = actor.id) (hlimit : c.trafficLimit = bytes)
    (hroom : actor.account.Room bytes none (s.allotments actor.id))
    (hfits : actor.account.Fits (s.allotments actor.id))
    (hclients : s'.clients = s.clients.set s.base.nextId c) :
    actor.account.Fits (s'.allotments actor.id) := by
  have hothers : ∀ k, k ≠ s.base.nextId → s'.clients.get? k = s.clients.get? k := by
    intro k hk
    rw [hclients]
    exact Table.get?_set_of_ne _ _ hk
  have hput := allotments_put hothers (by rw [hclients, Table.get?_set_self]) howner
  rw [hlimit] at hput
  refine room_fits (k := s.base.nextId) hroom hfits (hput.trans (.of_eq ?_)) fun h => absurd rfl h
  -- no client has the new id yet
  congr 1
  refine List.filter_congr fun r hr => ?_
  obtain ⟨row, hrow, rfl⟩ := List.mem_map.mp hr
  have hget := (s.clients.mem_rows_iff row.1 row.2).mp (List.mem_filter.mp hrow).1
  have hne : s.base.nextId ≠ row.1 := by
    intro heq
    rw [← heq, hids.drawn _ le_rfl] at hget
    cases hget
  simp [hne]

/-- A patched client whose limit, if it is a new one, had room. -/
theorem patched_fits {k : ClientId} {data : ClientData} (hroom : ∀ bytes ∈ data.trafficLimit,
      actor.account.Room bytes (some k) (s.allotments actor.id))
    (hfits : actor.account.Fits (s.allotments actor.id))
    (hclients : s'.clients = s.clients.modify k data.apply) :
    actor.account.Fits (s'.allotments actor.id) := by
  -- a patch without a limit, or of another's client, leaves the allotments
  have hkept : (∀ c, s.clients.get? k = some c → c.adminId = actor.id → data.trafficLimit = none) →
      s'.allotments actor.id = s.allotments actor.id := by
    intro hno
    unfold allotments
    rw [hclients, Table.modify, Table.rows_mapRows, List.filter_map, List.map_map]
    have hfilter : ((fun r : ClientId × Client => decide (r.2.adminId = actor.id)) ∘ fun r :
        ClientId × Client =>
        (r.1, if r.1 = k then data.apply r.2 else r.2)) = fun r =>
          decide (r.2.adminId = actor.id) := by
      funext r
      simp only [Function.comp_apply]
      split <;> rfl
    rw [hfilter]
    refine List.map_congr_left fun r hr => ?_
    obtain ⟨hmem, howner⟩ := List.mem_filter.mp hr
    simp only [Function.comp_apply]
    split
    · next hk =>
        have hnone := hno r.2 (hk ▸ (s.clients.mem_rows_iff r.1 r.2).mp hmem)
          (of_decide_eq_true howner)
        simp [ClientData.apply, hnone]
    · rfl
  cases hdata : data.trafficLimit with
  | none => rw [hkept fun _ _ _ => hdata]; exact hfits
  | some bytes =>
      by_cases hmine : ∃ c, s.clients.get? k = some c ∧ c.adminId = actor.id
      · obtain ⟨c, hc, howner⟩ := hmine
        have hothers : ∀ k', k' ≠ k → s'.clients.get? k' = s.clients.get? k' := by
          intro k' hk'
          rw [hclients]
          exact Table.get?_modify_of_ne _ _ hk'
        have hget : s'.clients.get? k = some (data.apply c) := by
          rw [hclients, Table.get?_modify_self, hc]
          rfl
        have hlimit : (data.apply c).trafficLimit = bytes := by
          show data.trafficLimit.getD _ = _
          rw [hdata]
          rfl
        have hput := allotments_put hothers hget howner
        have hold := allotments_put (fun _ _ => rfl) hc howner
        rw [hlimit] at hput
        refine room_fits (hroom bytes hdata) hfits hput fun _ => ?_
        rw [hput.length_eq, hold.length_eq, List.length_cons, List.length_cons]
      · rw [hkept fun c hc howner => absurd ⟨c, hc, howner⟩ hmine]
        exact hfits

/-! ## The calls -/

variable (hrole : actor.role ≠ .owner)

include hrole

theorem createClient_upright (input : CreateClientInput) (cause : Option OrderId) (s : Site) :
    Upright (allotments actor.id) (Enrolled actor) actor.account.Fits
      (createClient actor input cause) s := by
  unfold createClient
  refine upright_bind ((roster_of_reads (admitClient_reads_state actor input)).mono fun _ _ h =>
    h.same actor.id) (amid_mono (admitClient_room hrole input s) (fun a t ht => ?_) fun _ _ _ =>
      trivial)
  obtain ⟨hst, hroom⟩ := ht
  rw [← show t.allotments actor.id = s.allotments actor.id from hst] at hroom
  unfold openClient insertClient
  refine upright_change (fun t' ht' hids hfits => ?_) fun created =>
    (opened_roster actor created.1 _ _ created.2 _ _).mono fun _ _ h => h.same actor.id
  rw [← show t'.allotments actor.id = t.allotments actor.id from ht'] at hroom
  exact created_fits hids rfl rfl hroom hfits rfl

theorem updateClient_upright (id : ClientId) (input : UpdateClientInput) (cause : Option OrderId)
    (s : Site) : Upright (allotments actor.id) (Enrolled actor) actor.account.Fits
      (updateClient actor id input cause) s := by
  have hsame : ∀ {α : Type} {p : Task α}, p.Keeps SameRoster →
      p.Keeps (Same (allotments actor.id)) :=
    fun hp => hp.mono fun _ _ h => h.same actor.id
  have hterms : ∀ {α : Type} {V : Site → Site → Prop} {p : Task α}, p.Reads V →
    p.Keeps (Same (allotments actor.id)) :=
    fun hp => hsame (roster_of_reads hp)
  unfold updateClient
  refine upright_bind (hterms (getClientForActor_reads actor.actor id))
    (amid_mono (roster_amid (roster_of_reads (getClientForActor_reads actor.actor id)) actor.id s)
      (fun current t₁ h₁ => ?_) fun _ _ _ => trivial)
  refine upright_bind (hterms (updateData_reads actor current input))
    (amid_mono (updateData_room hrole current input t₁) (fun data t₂ h₂ => ?_) fun _ _ _ => trivial)
  obtain ⟨hst₂, hroom⟩ := h₂
  refine upright_bind (hsame (settleStart_roster current.id input))
    (amid_mono (roster_amid (settleStart_roster current.id input) actor.id t₂)
      (fun _ t₃ h₃ => ?_) fun _ _ _ => trivial)
  refine upright_bind (hterms (updateCost_reads actor current input))
    (amid_mono (roster_amid (roster_of_reads (updateCost_reads actor current input)) actor.id t₃)
      (fun cost t₄ h₄ => ?_) fun _ _ _ => trivial)
  have hst₄ := Same.trans _ _ _ hst₂ (Same.trans _ _ _ h₃ h₄)
  unfold updateRow writeRow
  refine upright_change (fun t ht hids hfits => ?_) fun _ =>
    hsame (pushed_roster actor cost current.id id)
  rw [← show t.allotments actor.id = t₁.allotments actor.id from Same.trans _ _ _ hst₄ ht] at hroom
  cases t.clients.get? current.id with
  | none => exact hfits
  | some c => exact patched_fits hroom hfits rfl

omit hrole

/-- A new row leaves the account enrolled. -/
theorem Enrolled.of_created {c : Client} {cause : Option OrderId} (hs : s.Enrolled actor) :
    ({ s with
      base := { s.base with nextId := s.base.nextId + 3 }
      clients := s.clients.set s.base.nextId c
      deliveries := s.deliveries.deliver cause } : Site).Enrolled actor := by
  refine ⟨hs.account, fun k hk => ?_⟩
  change s.base.nextId + 3 ≤ k at hk
  show (s.clients.set s.base.nextId c).get? k = none
  have hlt : s.base.nextId < k := by omega
  rw [Table.get?_set_of_ne _ _ (Nat.ne_of_gt hlt)]
  exact hs.drawn k hlt.le

/-- So does a new client. -/
theorem createClient_enrolled (input : CreateClientInput) (cause : Option OrderId) :
    (createClient actor input cause).Keeps fun s t => s.Enrolled actor → t.Enrolled actor :=
  keeps_bind ((roster_of_reads (admitClient_reads_state actor input)).mono fun _ _ h =>
    h.enrolled) fun _ =>
    keeps_bind (keeps_step fun _ hs => hs.of_created) fun created =>
      (opened_roster actor created.1 _ _ created.2 _ _).mono fun _ _ h => h.enrolled

/-- So does an update. -/
theorem updateClient_enrolled (id : ClientId) (input : UpdateClientInput) (cause : Option OrderId) :
    (updateClient actor id input cause).Keeps fun s t => s.Enrolled actor → t.Enrolled actor := by
  have hkeep : ∀ {α : Type} {p : Task α}, p.Keeps SameRoster → p.Keeps fun s t => s.Enrolled actor →
    t.Enrolled actor :=
    fun hp => hp.mono fun _ _ h => h.enrolled
  refine keeps_bind (hkeep (roster_of_reads (getClientForActor_reads actor.actor id)))
    fun current =>
    keeps_bind (hkeep (roster_of_reads (updateData_reads actor current input))) fun data =>
      keeps_bind (hkeep (settleStart_roster current.id input)) fun _ =>
        keeps_bind (hkeep (roster_of_reads (updateCost_reads actor current input))) fun cost =>
          keeps_bind (keeps_step fun s hs => ?_) fun _ =>
            hkeep (pushed_roster actor cost current.id id)
  cases hrow : s.clients.get? current.id with
  | none => exact hs
  | some c =>
      refine ⟨hs.account, fun k hk => ?_⟩
      show (s.clients.modify current.id _).get? k = none
      rw [Table.get?_modify, hs.drawn k hk, Option.map_none, ite_self]

/-- A call of the reseller, perhaps for an order. -/
def clientTask (actor : Operator) (call : ClientCall × Option OrderId) : Task Unit :=
  (call.1.task actor call.2).void

/-- So does every request. -/
theorem clientTask_enrolled (call : ClientCall × Option OrderId) :
    (clientTask actor call).Keeps fun s t => s.Enrolled actor → t.Enrolled actor := by
  obtain ⟨call, cause⟩ := call
  refine keeps_attempt (keeps_bind ?_ fun _ => keeps_pure ()) fun _ => keeps_pure ()
  cases call with
  | create input => exact createClient_enrolled input cause
  | update id input => exact updateClient_enrolled id input cause

theorem clientTask_upright (hrole : actor.role ≠ .owner) (call : ClientCall × Option OrderId)
    (s : Site) : Upright (allotments actor.id) (Enrolled actor) actor.account.Fits
      (clientTask actor call) s := by
  obtain ⟨call, cause⟩ := call
  refine upright_void ?_
  cases call with
  | create input => exact createClient_upright hrole input cause s
  | update id input => exact updateClient_upright hrole id input cause s

/-- In every run of creations and updates of one reseller in which no call changes his allotments
after another call has changed them since its own first step, his clients stay within the caps of
his account. -/
theorem caps_hold_run (actor : Operator) (hrole : actor.role ≠ .owner)
    (calls : List (ClientCall × Option OrderId)) (s₀ : Site) (hactor : s₀.Enrolled actor)
    (hcaps : s₀.WithinCaps actor.id) {c : Pool Mark Site AppError}
    {w : ℕ → Watch}
    (hrun : Pool.Undisturbed (allotments actor.id) TimePasses ⟨s₀,
      calls.map (clientTask actor)⟩ c w) :
    c.store.WithinCaps actor.id := by
  have hthreads : ∀ p ∈ calls.map (clientTask actor),
      (p.Keeps fun s t => s.Enrolled actor → t.Enrolled actor) ∧ ∀ s,
      Upright (allotments actor.id) (Enrolled actor) actor.account.Fits p s := by
    intro p hp
    obtain ⟨call, -, rfl⟩ := List.mem_map.mp hp
    exact ⟨clientTask_enrolled call, clientTask_upright hrole call⟩
  have htime : ∀ s s', TimePasses s s' →
      Same (allotments actor.id) s s' ∧ (s.Enrolled actor → s'.Enrolled actor) := by
    rintro s s' ⟨t, -, rfl⟩
    exact ⟨rfl, fun hs => ⟨hs.account, hs.drawn⟩⟩
  obtain ⟨hfits, henrolled⟩ := hrun.holds (hcaps _ hactor.account) hactor hthreads htime
  intro a ha
  obtain rfl : actor.account = a := Option.some.inj (henrolled.account.symm.trans ha)
  exact hfits

end

/-! ## Two creations at a time -/

/-- A reseller who may have one client and allot one GB, on the inbound of a server. -/
def cappedSite : Site :=
  { Site.blank with
    base := { World.blank with admins := Table.empty.set 2 ⟨.admin, 0, 0⟩ }
    accounts := Table.empty.set 2
      ⟨"r", 0, none, true, some 1073741824, some 1, none, none, none, none, none, [(3, [])]⟩
    servers := Table.empty.set 3 ⟨"s", true, [⟨1, "vless", true, "none", "tcp", []⟩]⟩ }

/-- A reseller with caps, for the example. -/
def cappedSeller : Operator :=
  ⟨2, .admin, ⟨"r", 0, none, true, some 1073741824, some 1, none, none, none, none,
    none, [(3, [])]⟩⟩

theorem cappedSite_starts : cappedSite.Enrolled cappedSeller ∧ cappedSite.WithinCaps 2 := by
  refine ⟨⟨by decide, fun k _ => rfl⟩, fun a ha => ?_⟩
  obtain rfl : cappedSeller.account = a := Option.some.inj ha
  refine ⟨fun q hq => ?_, fun n _ => Nat.zero_le n⟩
  obtain rfl : 1073741824 = q := Option.some.inj hq
  decide

/-- A client of a GB. -/
def oneGB : ClientCall × Option OrderId :=
  (.create ⟨"a", none, none, 1, 30, false, 0, none, none, none, [⟨3, 1⟩]⟩, none)

/-- Both creations pass the guard before one of them inserts its client. -/
def bothPass : Pool Mark Site AppError :=
  Pool.schedule (List.replicate 6 0 ++ List.replicate 20 1 ++ List.replicate 20 0)
    ⟨cappedSite, [oneGB, oneGB].map (clientTask cappedSeller)⟩

/-- The reseller has two clients and two GB then. -/
theorem creations_exceed_caps :
    Pool.Run TimePasses (fun _ _ => True) ⟨cappedSite,
      [oneGB, oneGB].map (clientTask cappedSeller)⟩ bothPass ∧ bothPass.Done ∧
      (cappedSite.Enrolled cappedSeller ∧ cappedSite.WithinCaps 2) ∧
      ¬bothPass.store.WithinCaps 2 := by
  refine ⟨Pool.schedule_run_free _ _ _, by decide +kernel, cappedSite_starts, fun h => ?_⟩
  have haccount : bothPass.store.accounts.get? 2 = some cappedSeller.account := by decide +kernel
  have hcount : (bothPass.store.allotments 2).length = 2 := by decide +kernel
  have hle := (h _ haccount).clients 1 rfl
  omega

/-- A creation that begins when the other one is over finds the cap reached and is refused. -/
theorem caps_hold_run_in_turn :
    ∃ c w, Pool.Undisturbed (allotments cappedSeller.id) TimePasses
        ⟨cappedSite, [oneGB, oneGB].map (clientTask cappedSeller)⟩ c w ∧ c.Done ∧
      (c.store.allotments cappedSeller.id).length = 1 ∧ c.store.WithinCaps cappedSeller.id := by
  have hstart : Pool.Undisturbed (allotments cappedSeller.id) TimePasses
      ⟨cappedSite, [oneGB, oneGB].map (clientTask cappedSeller)⟩ _ _ := .start
  obtain ⟨w, hfirst, hidle⟩ := hstart.turn (i := 0) (by simp) 20
  have hsecond : w 1 ≠ .overtaken := by
    rw [hidle 1 (by decide) rfl]
    decide
  obtain ⟨w', hrun, -⟩ := hfirst.turn hsecond 20
  exact ⟨_, w', hrun, by decide +kernel, by decide +kernel,
    caps_hold_run cappedSeller (by decide) [oneGB,
      oneGB] cappedSite cappedSite_starts.1 cappedSite_starts.2 hrun⟩

end Site

end SRPanel
