import SRPanel.Clients.Update
import SRPanel.Lib.Made
import SRPanel.Model.Renewals
import SRPanel.Model.Sync

/-!
# Disabled clients

The flag by which an admin disables a client is one of the values of its status, and the background
jobs write the status that they have derived from the row as they read it some steps earlier. They
leave a client that they see disabled as it is. So where no request disables a client between the
read of a job and its write, the client stays disabled from the moment on that the request returns.
-/

namespace SRPanel

open Interleaving Prog

namespace Site

/-! ## The status of one client -/

/-- The status in the row of a client. -/
def statusOf (s : Site) (id : ClientId) : Option ClientStatus :=
  (s.clients.get? id).map Client.status

/-- The status of the client is the same. -/
def SameStatus (id : ClientId) (s s' : Site) : Prop := s'.statusOf id = s.statusOf id

/-- The status of the client is the same, or the client has been disabled. -/
def Settles (id : ClientId) (s s' : Site) : Prop :=
  SameStatus id s s' ∨ s'.statusOf id = some .disabled

/-- The client has not been disabled since a job read it: where the job writes what it has derived
and finds the client disabled, it has read it as disabled. -/
def Timely (id : ClientId) : Mark → Site → Prop
  | .derives seen _, s => s.statusOf id = some .disabled → ∀ r ∈ seen, r.1 = id → r.2 = .disabled
  | _, _ => True

instance : ∀ (id : ClientId) (m : Mark) (s : Site), Decidable (Timely id m s)
  | id, .derives seen _, s =>
      inferInstanceAs (Decidable (s.statusOf id = some .disabled → ∀ r ∈ seen, r.1 = id →
        r.2 = .disabled))
  | _, .base _, _ => .isTrue trivial
  | _, .begins _, _ => .isTrue trivial
  | _, .grants _ _ _, _ => .isTrue trivial
  | _, .other, _ => .isTrue trivial

/-- The client is disabled once a request to disable it has succeeded; `n` is the number of those
that have. -/
def Holds (id : ClientId) (s : Site) (n : ℕ) : Prop := 0 < n → s.statusOf id = some .disabled

theorem Settles.refl (id : ClientId) (s : Site) : Settles id s s := .inl rfl

theorem Settles.of_clients {id : ClientId} {s s' : Site} (h : s'.clients = s.clients) :
    Settles id s s' :=
  .inl (by rw [SameStatus, statusOf, h, statusOf])

theorem Holds.settles {id : ClientId} {s s' : Site} {n : ℕ} (h : Holds id s n)
    (hs : Settles id s s') : Holds id s' n := by
  intro hn
  rcases hs with hsame | hdisabled
  · exact hsame.trans (h hn)
  · exact hdisabled

/-- A status derived from what was read of some clients keeps those disabled that were read so. -/
def Heeds (seen : List (ClientId × ClientStatus)) (status : ClientStatus) : Prop :=
  ∀ r ∈ seen, r.2 = .disabled → status = .disabled

/-- Writes of a status that was derived from what had been read before. -/
inductive Derives : ∀ {α : Type}, Task α → Prop
  | row {id : ClientId} {seen status : ClientStatus} {f : Client → Client} :
      Heeds [(id, seen)] status → (∀ c, (f c).status = status) →
      Derives (writeRow (.derives [(id, seen)] status) id f none)
  | rows {seen : List (ClientId × ClientStatus)} {status : ClientStatus} : Heeds seen status →
      Derives (markClients seen status)

/-- A procedure that changes the status of the client only by such writes or by disabling it. -/
abbrev Settling (id : ClientId) {α : Type} (p : Task α) : Prop := Made (Settles id) Derives p

/-- A derived status that is written in time keeps a disabled client disabled. -/
theorem holds_derived {id : ClientId} {s s' : Site} {n : ℕ} {seen : List (ClientId × ClientStatus)}
    {status : ClientStatus} (h : Holds id s n) (hok : Timely id (.derives seen status) s)
    (hheeds : Heeds seen status)
    (hs : s'.statusOf id = if id ∈ seen.map Prod.fst then (s.statusOf id).map fun _ =>
      status else s.statusOf id) :
    Holds id s' n := by
  intro hn
  have hdisabled := h hn
  rw [hs, hdisabled]
  split
  · next hid =>
      obtain ⟨r, hr, hrid⟩ := List.mem_map.mp hid
      exact congrArg some (hheeds r hr (hok hdisabled r hr hrid))
  · rfl

theorem Derives.safe {id : ClientId} {α : Type} {p : Task α} {g : ℕ} (hp : Derives p) :
    Safe (Timely id) (Holds id) (fun _ _ => True) (fun _ g' => g' = g)
      (fun _ g' => g' = g) p g := by
  cases hp with
  | @row id' seen status f hheeds hf =>
      refine safe_step fun s n hI hok => ⟨trivial, g, ?_, fun _ _ => rfl, fun _ _ => rfl⟩
      cases hc : s.clients.get? id' with
      | none => exact hI
      | some c =>
          refine holds_derived hI hok hheeds ?_
          show ((s.clients.modify id' f).get? id).map Client.status = _
          rw [Table.get?_modify]
          by_cases hid : id = id'
          · simp [hid, statusOf, hc, hf]
          · simp [hid, statusOf]
  | rows hheeds =>
      refine safe_step fun s n hI hok => ⟨trivial, g, ?_, fun _ _ => rfl, fun _ _ => rfl⟩
      refine holds_derived hI hok hheeds ?_
      show ((s.clients.mapRows _).get? id).map Client.status = _
      rw [Table.get?_mapRows, Option.map_map]
      split
      · simp [statusOf, Function.comp_def]
      · simp [statusOf, Function.comp_def]

theorem Settling.safe {id : ClientId} {α : Type} {p : Task α} {g : ℕ} (hp : Settling id p) :
    Safe (Timely id) (Holds id) (fun _ _ => True) (fun _ g' => g' = g) (fun _ g' => g' = g) p g :=
  Made.safe hp (fun _ _ _ hs hI => ⟨hI.settles hs, trivial⟩) Derives.safe

/-! ## Procedures -/

section Procedures

variable {id : ClientId}

/-- A push settles. -/
theorem settling_of_annotated {α : Type} {p : Task α} (hp : p.Keeps Annotated) : Settling id p :=
  .frame (hp.mono fun _ _ h => .of_clients (h.same Site.clients fun _ => rfl))

/-- A service on the books settles. -/
theorem lift_settling {α : Type} (p : Service α) : Settling id (lift p) :=
  .frame ((zoom_frame world Mark.base p).mono fun s s' h => by
    rw [← (h : world.put (world.get s') s = s')]
    exact .of_clients rfl)

/-- A read settles. -/
theorem read_settling {α : Type} (f : Site → α) : Settling id (read f) :=
  .frame (keeps_query (Settles.refl id) _ f)

/-- A write that leaves the clients alone. -/
theorem write_settling {f : Site → Site} (hf : ∀ s, (f s).clients = s.clients) :
    Settling id (write f) :=
  .frame (keeps_modify fun s => .of_clients (hf s))

/-- So does a service that only reads. -/
theorem reads_settling {α : Type} {V : Site → Site → Prop} {p : Task α} (hp : p.Reads V) :
    Settling id p :=
  .frame (hp.keeps (Settles.refl id))

/-- The status label of a client that is read as disabled is that it is disabled. -/
theorem derivedStatus_heeds (id' : ClientId) (c : Client) (used t : ℤ) :
    Heeds [(id', c.status)] (derivedStatus c used t) := by
  intro r hr hdisabled
  obtain rfl := List.mem_singleton.mp hr
  exact if_pos hdisabled

/-- A recomputation settles, of whichever client. -/
theorem recomputeClient_settling (id' : ClientId) : Settling id (recomputeClient id') := by
  refine .bind (read_settling _) fun found => ?_
  rcases found with _ | ⟨c, links, t⟩
  · exact .pure ()
  · exact .bind (.part (.row (derivedStatus_heeds id' c _ t) fun _ => rfl)) fun _ =>
      .ite (fun _ => .pure ()) fun _ => settling_of_annotated (onClientStatusChanged_annotated c _)

/-- What a patch says about the status. -/
theorem updateData_yields (actor : Operator) (current : FullClient) (input : UpdateClientInput) :
    (updateData actor current input).Yields fun data =>
      data.status = input.enabled.map fun b => if b then .active else .disabled :=
  yields_bind (yields_true _) fun _ _ => yields_bind (yields_true _) fun _ _ =>
    yields_bind (yields_true _) fun _ _ => yields_pure rfl

/-- So does the start of a pending client. -/
theorem settleStart_settling (id' : ClientId) (input : UpdateClientInput) :
    Settling id (settleStart id' input) :=
  .ite (fun _ => write_settling fun _ => rfl) fun _ => .pure ()

/-- So does the charge of an update. -/
theorem chargeFor_settling (actor : Operator) (cost : ℤ) (id' : ClientId) :
    Settling id (chargeFor actor cost id') :=
  .ite (fun _ => .bind (lift_settling _) fun _ => .pure _) fun _ => .pure ()

/-- So does the look-up of a client. -/
theorem getClientForActor_settling (actor : Actor) (id' : ClientId) :
    Settling id (getClientForActor actor id') := by
  refine .bind (read_settling _) fun client => ?_
  cases client with
  | none => exact .throw _
  | some client => exact .pure client

/-- So does a note on links. -/
theorem updateLinks_settling (keys : List LinkKey) (f : ClientServer → ClientServer) :
    Settling id (updateLinks keys f) := write_settling fun _ => rfl

/-- So does the reset of all panels. -/
theorem resetGroups_settling (servers : List (ServerId × Server)) (groups : List LinkGroup) :
    Settling id (resetGroups servers groups) := by
  induction groups with
  | nil => exact .pure _
  | cons group rest ih =>
      refine .bind ?_ fun _ => .bind ih fun _ => .pure _
      cases servers.find? fun s => s.1 = group.serverId with
      | none => exact .pure _
      | some server =>
          refine .attempt (.bind ?_ fun _ => .bind (updateLinks_settling _ _) fun _ =>
            .pure _) fun _ => .pure _
          exact settling_of_annotated (callPanel_annotated _ fun r => r.isSome_modify _ _)

/-- So does a reset of traffic. -/
theorem resetClientTraffic_settling (actor : Actor) (id' : ClientId) :
    Settling id (resetClientTraffic actor id') := by
  refine .bind (getClientForActor_settling _ _) fun client => .bind (read_settling _) fun servers =>
    .bind (resetGroups_settling _ _) fun errors => .bind (recomputeClient_settling _) fun _ =>
      .bind ?_ fun _ =>
      .bind (lift_settling _) fun _ => .pure errors
  exact .ite (fun _ => .bind (getClientForActor_settling _ _) fun fresh =>
    .bind (settling_of_annotated (pushClient_annotated fresh)) fun _ => .pure ()) fun _ => .pure ()

/-- A write of a row that leaves the status of the client alone or disables the client. -/
theorem updateRow_settling {id' : ClientId} {f : Client → Client} (cause : Option OrderId)
    (hf : id' = id → ∀ c, (f c).status = c.status ∨ (f c).status = .disabled) :
    Settling id (updateRow id' f cause) := by
  refine .frame (keeps_step fun s => ?_)
  cases hc : s.clients.get? id' with
  | none => exact .refl id s
  | some c =>
      by_cases hid : id = id'
      · subst hid
        have hrow : ((s.clients.modify id f).get? id).map Client.status = some (f c).status := by
          rw [Table.get?_modify_self, hc]
          rfl
        rcases hf rfl c with hsame | hdisabled
        · exact .inl (hrow.trans (by rw [hsame, statusOf, hc]; rfl))
        · exact .inr (hrow.trans (by rw [hdisabled]))
      · refine .inl ?_
        show ((s.clients.modify id' f).get? id).map Client.status = _
        rw [Table.get?_modify, if_neg hid]
        rfl

/-! ### Background jobs -/

/-- So does the report of one client. -/
theorem applyGroup_settling (report : PanelReport) (head : LinkKey × ClientServer)
    (group : List (LinkKey × ClientServer)) : Settling id (applyGroup report head group) := by
  unfold applyGroup
  split
  · exact .bind (updateLinks_settling _ _) fun _ => .pure _
  · refine .bind (.frame (keeps_step fun s => ?_)) fun _ =>
      .bind (.ite (fun _ => updateLinks_settling _ _) fun _ => .pure ()) fun _ => .pure _
    split
    · exact .refl id s
    · exact .of_clients rfl

/-- So do the reports of all. -/
theorem applyGroups_settling (report : PanelReport)
    (groups : List (List (LinkKey × ClientServer))) : Settling id (applyGroups report groups) := by
  induction groups with
  | nil => exact .pure _
  | cons group rest ih =>
      cases group with
      | nil => exact ih
      | cons head links =>
          exact .bind (applyGroup_settling report head _) fun _ => .bind ih fun _ => .pure _

/-- So does the recomputation of many clients. -/
theorem recomputeClients_settling (ids : List ClientId) : Settling id (recomputeClients ids) := by
  induction ids with
  | nil => exact .pure ()
  | cons id' ids ih => exact .bind (recomputeClient_settling id') fun _ => ih

/-- So does a panel's report. -/
theorem applyClientStats_settling (serverId : ServerId) (report : PanelReport) :
    Settling id (applyClientStats serverId report) := by
  refine .bind (read_settling _) fun links => .bind (read_settling _) fun t =>
    .bind (applyGroups_settling report _) fun groups => .bind (write_settling fun _ => rfl) fun _ =>
      .bind (.frame (keeps_modify fun s => .inl ?_)) fun _ => recomputeClients_settling _
  show ((s.clients.mapRows _).get? id).map Client.status = _
  rw [Table.get?_mapRows, Option.map_map]
  refine congrArg (fun f => Option.map f (s.clients.get? id)) (funext fun c => ?_)
  show (if _ then _ else c).status = c.status
  split
  · rfl
  · rfl

/-- So does the synchronisation of a panel. -/
theorem syncServer_settling (serverId : ServerId) (answer : Option PanelReport) :
    Settling id (syncServer serverId answer) := by
  refine .bind (read_settling _) fun server => ?_
  cases server with
  | none => exact .throw _
  | some server =>
      cases answer with
      | none => exact .pure ()
      | some report =>
          exact .attempt (.bind (write_settling fun _ => rfl) fun _ =>
            applyClientStats_settling serverId report) fun _ => .pure ()

/-- So does the announcement of new statuses. -/
theorem announceStatus_settling (status : ClientStatus) (ids : List ClientId) :
    Settling id (announceStatus status ids) := by
  induction ids with
  | nil => exact .pure ()
  | cons id' ids ih =>
      refine .bind (read_settling _) fun c => .bind ?_ fun _ => ih
      cases c with
      | none => exact .pure ()
      | some c => exact settling_of_annotated (onClientStatusChanged_annotated c status)

/-- The clients that are read as expired are active ones. -/
theorem expiredClients_heeds (s : Site) (status : ClientStatus) :
    Heeds s.expiredClients status := by
  intro r hr hdisabled
  obtain ⟨row, hrow, rfl⟩ := List.mem_map.mp (List.mem_of_mem_take hr)
  have hactive : row.2.status = .active := by
    have hkept := (List.mem_filter.mp hrow).2
    simp only [Bool.and_eq_true, decide_eq_true_eq] at hkept
    exact hkept.1
  exact absurd (hactive.symm.trans hdisabled) (by decide)

/-- So does the enforcement tick. -/
theorem enforceClientStatuses_settling : Settling id enforceClientStatuses :=
  .read (Settles.refl id) fun s => .ite (fun _ => .pure ()) fun _ =>
    .bind (.part (.rows (expiredClients_heeds s .expired))) fun _ =>
      announceStatus_settling .expired _

/-- So does the removal of a rule. -/
theorem dropRule_settling (id' : ClientId) : Settling id (dropRule id') :=
  write_settling fun _ => rfl

/-- So does one cycle of auto-renewal. -/
theorem runCycle_settling (t : ℤ) (id' : ClientId) (rule : AutoRenewRule) (client : Client)
    (admin : Operator) : Settling id (runCycle t id' rule client admin) := by
  refine .bind (.attempt (.bind (resetClientTraffic_settling _ _) fun _ => .pure _) fun _ =>
    .pure _) fun resetFailed => .bind (.ite (fun _ => ?_) fun _ => .pure _) fun pushFailed =>
      .bind (lift_settling _)
    fun _ =>
      .bind (.ite (fun _ => .bind (dropRule_settling id') fun _ => .pure _) fun _ =>
        .bind (write_settling fun _ => rfl) fun _ => .pure _) fun last => .pure _
  exact .bind (updateRow_settling none fun _ _ => .inl rfl) fun _ =>
    .attempt (.bind (getClientForActor_settling _ _) fun fresh =>
      .bind (settling_of_annotated (pushClient_annotated fresh)) fun _ => .pure _) fun _ => .pure _

/-- So does one rule. -/
theorem runRule_settling (t : ℤ) (id' : ClientId) (rule : AutoRenewRule) :
    Settling id (runRule t id' rule) := by
  refine .bind (read_settling _) fun client => ?_
  cases client with
  | none => exact .bind (dropRule_settling id') fun _ => .pure _
  | some client =>
      refine .ite (fun _ => .pure _) fun _ => .bind (read_settling _) fun admin => ?_
      cases admin with
      | none => exact .bind (dropRule_settling id') fun _ => .pure _
      | some admin => exact runCycle_settling t id' rule client admin

/-- So do all rules. -/
theorem runRules_settling (t : ℤ) (rows : List (ClientId × AutoRenewRule)) :
    Settling id (runRules t rows) := by
  induction rows with
  | nil => exact .pure _
  | cons row rows ih => exact .bind (runRule_settling t row.1 row.2) fun _ => .bind ih fun _ => .pure _

/-- So does the auto-renewal tick. -/
theorem runAutoRenew_settling (limit : ℕ) : Settling id (runAutoRenew limit) :=
  .bind (read_settling _) fun rows => .bind (read_settling _) fun t => runRules_settling t rows

/-! ### The request -/

/-- The write of a patch that does not enable the client; one that disables it counts. -/
theorem updateRow_holds {id' : ClientId} {data : ClientData} (cause : Option OrderId)
    (hdata : id' = id → data.status = none ∨ data.status = some .disabled) :
    Safe (Timely id) (Holds id) (fun _ _ => True)
      (fun _ g => id' = id → data.status = some .disabled → g = 1) (fun _ _ => True)
      (updateRow id' data.apply cause) 0 := by
  by_cases hdisables : id' = id ∧ data.status = some .disabled
  · obtain ⟨rfl, hstatus⟩ := hdisables
    refine safe_step fun s n hI _ => ⟨trivial, ?_⟩
    cases hc : s.clients.get? id' with
    | none => exact ⟨0, hI, by rintro a ⟨⟩, fun _ _ => trivial⟩
    | some c =>
        refine ⟨1, fun _ => ?_, fun _ _ _ _ => rfl, by rintro e ⟨⟩⟩
        show ((s.clients.modify id' data.apply).get? id').map Client.status = _
        rw [Table.get?_modify_self, hc]
        show some (data.status.getD c.status) = _
        rw [hstatus]
        rfl
  · have hrow : Settling id (updateRow id' data.apply cause) := by
      refine updateRow_settling cause fun hid c => ?_
      show data.status.getD c.status = _ ∨ data.status.getD c.status = _
      rcases hdata hid with hnone | hdisabled
      · rw [hnone]
        exact .inl rfl
      · rw [hdisabled]
        exact .inr rfl
    refine safe_mono hrow.safe (fun _ g _ hid hstatus => absurd ⟨hid, hstatus⟩ hdisables)
      fun _ _ _ => trivial

theorem updateClient_holds (actor : Operator) (id' : ClientId) (input : UpdateClientInput)
    (cause : Option OrderId) (henabled : id' = id → input.enabled ≠ some true) :
    Safe (Timely id) (Holds id) (fun _ _ => True)
      (fun _ g => id' = id → input.enabled = some false → g = 1) (fun _ _ => True)
      (updateClient actor id' input cause) 0 := by
  have hkept : ∀ {α : Type} {p : Task α}, Settling id p → ∀ {g : ℕ},
      Safe (Timely id) (Holds id) (fun _ _ => True) (fun _ g' => g' = g) (fun _ _ => True) p g :=
    fun hp =>
    safe_mono hp.safe (fun _ _ h => h) fun _ _ _ => trivial
  refine safe_bind (safe_yields (hkept (getClientForActor_settling actor.actor id'))
    (getClientForActor_yields actor.actor id')) ?_
  rintro current _ ⟨rfl, hcurrent⟩
  refine safe_bind (safe_yields (hkept (reads_settling (updateData_reads actor current input)))
    (updateData_yields actor current input)) ?_
  rintro data _ ⟨rfl, hdata⟩
  refine safe_bind (hkept (settleStart_settling current.id input)) ?_
  rintro _ _ rfl
  refine safe_bind (hkept (reads_settling (updateCost_reads actor current input))) ?_
  rintro deltaCost _ rfl
  refine safe_bind (updateRow_holds cause fun hid => ?_) fun _ g hg => ?_
  · have htrue := henabled (hcurrent ▸ hid)
    rw [hdata]
    cases hinput : input.enabled with
    | none => exact .inl rfl
    | some b =>
        cases b with
        | false => exact .inr rfl
        | true => exact absurd hinput htrue
  · refine safe_mono (hkept (.bind (chargeFor_settling actor deltaCost _) fun _ =>
      .bind (recomputeClient_settling _) fun _ =>
        .bind (getClientForActor_settling _ _) fun client =>
        .bind (settling_of_annotated (pushClient_annotated client)) fun _ =>
          .bind (lift_settling _) fun _ =>
          .pure _)) ?_ fun _ _ h => h
    rintro _ _ rfl hid hinput
    refine hg (hcurrent.trans hid) ?_
    rw [hdata, hinput]
    rfl

end Procedures

/-! ## Runs -/

/-- A request for a client or a background job. -/
inductive StatusCall
  | update (actor : Operator) (id : ClientId) (input : UpdateClientInput) (cause : Option OrderId)
  | reset (actor : Actor) (id : ClientId)
  | recompute (id : ClientId)
  | sync (serverId : ServerId) (answer : Option PanelReport)
  | enforce
  | autoRenew (limit : ℕ)

namespace StatusCall

/-- The procedure of a call. -/
def task : StatusCall → Task Unit
  | .update actor id input cause => do
      let _ ← updateClient actor id input cause
  | .reset actor id => do
      let _ ← resetClientTraffic actor id
  | .recompute id => recomputeClient id
  | .sync serverId answer => syncServer serverId answer
  | .enforce => enforceClientStatuses
  | .autoRenew limit => do
      let _ ← runAutoRenew limit

/-- The call enables the client. -/
def enables (id : ClientId) : StatusCall → Prop
  | .update _ id' input _ => id' = id ∧ input.enabled = some true
  | _ => False

/-- The call disables the client. -/
def disables (id : ClientId) : StatusCall → Prop
  | .update _ id' input _ => id' = id ∧ input.enabled = some false
  | _ => False

/-- A call that has disabled the client counts. -/
def promise (id : ClientId) (c : StatusCall) (r : Except AppError Unit) (n : ℕ) : Prop :=
  c.disables id → r = .ok () → n = 1

end StatusCall

theorem task_holds {id : ClientId} (c : StatusCall) (hc : ¬c.enables id) :
    Safe (Timely id) (Holds id) (fun _ _ => True) (fun a => c.promise id (.ok a))
      (fun e => c.promise id (.error e)) c.task 0 := by
  have hquiet : ∀ {p : Task Unit}, Settling id p → ¬c.disables id →
      Safe (Timely id) (Holds id) (fun _ _ => True) (fun a => c.promise id (.ok a))
        (fun e => c.promise id (.error e)) p 0 := fun hp hno =>
    safe_mono hp.safe (fun _ _ _ h => absurd h hno) fun _ _ _ h => absurd h hno
  cases c with
  | update actor id' input cause =>
      refine safe_bind (safe_mono (updateClient_holds actor id' input cause fun hid htrue =>
        hc ⟨hid, htrue⟩) (fun _ _ h => h) fun e n _ _ h => by cases h) fun _ n hn => ?_
      exact safe_pure fun hdisables _ => hn hdisables.1 hdisables.2
  | reset actor id' => exact hquiet (.bind (resetClientTraffic_settling actor id') fun _ => .pure ()) fun h => h
  | recompute id' => exact hquiet (recomputeClient_settling id') fun h => h
  | sync serverId answer => exact hquiet (syncServer_settling serverId answer) fun h => h
  | enforce => exact hquiet enforceClientStatuses_settling fun h => h
  | autoRenew limit => exact hquiet (.bind (runAutoRenew_settling limit) fun _ => .pure ()) fun h =>
    h

/-- **Disabling sticks.** Once a request that disables a client has returned, the client is disabled
in every state that is reached, in the runs without a request that enables it in which no request
disables it between the read of a job and its write. -/
theorem disabling_sticks {id : ClientId} {s₀ s s' : Site} {calls : List StatusCall}
    {T T' : List (Task Unit)} {i : ℕ} {c : StatusCall} {p : Task Unit}
    (hcalls : ∀ c ∈ calls, ¬c.enables id)
    (hrun : Pool.Run (SameStatus id) (Timely id) ⟨s₀, calls.map StatusCall.task⟩ ⟨s, T⟩)
    (hc : calls[i]? = some c) (hdisables : c.disables id) (hp : T[i]? = some p)
    (hok : p.outcome = some (.ok ()))
    (hrest : Pool.Run (SameStatus id) (Timely id) ⟨s, T⟩ ⟨s', T'⟩) :
    s'.statusOf id = some .disabled := by
  have hstart : (⟨s₀, calls.map StatusCall.task⟩ : Pool Mark Site AppError).Serves
      (Timely id) (Holds id) (fun _ _ => True) (StatusCall.promise id) calls :=
    .of_safe (fun h => absurd h (lt_irrefl 0)) fun c hc => task_holds c (hcalls c hc)
  have hend := hstart.run (fun _ _ _ h hs => h.settles (.inl hs)) (hrun.trans hrest)
  obtain ⟨n, f, hn, hholds⟩ := hend.ended hc (hrest.ended hp hok) hok
  exact hholds (by rw [hn hdisables rfl]; omega)

/-- A client without links. -/
def plainClient : Client :=
  ⟨1, "c", none, none, 8, 9, 0, 0, 0, none, 0, .active, none, none, none, none⟩

/-- An account without rights, for the example. -/
def plainAccount : Account := ⟨"o", 0, none, true, none, none, none, none, none, none, none, []⟩

/-- A recomputation of the client and a request of the owner that disables it. -/
def disablingCalls : List StatusCall :=
  [.recompute 7, .update ⟨1, .owner,
    plainAccount⟩ 7 { UpdateClientInput.none with enabled := some false } none]

/-- The two calls on a site with the client. -/
def disablingPool : Pool Mark Site AppError :=
  ⟨{ Site.blank with clients := Table.empty.set 7 plainClient }, disablingCalls.map StatusCall.task⟩

/-- The request runs between the read and the write of the recomputation. -/
def overtaken : Pool Mark Site AppError := Pool.schedule ([0] ++ List.replicate 20 1) disablingPool

/-- The recomputation writes the status that it has derived from the old row, and the client is
active. -/
theorem stale_status_enables_client :
    Pool.Run (SameStatus 7) (fun _ _ => True) disablingPool overtaken ∧
      (overtaken.threads[1]?).bind Prog.outcome = some (.ok ()) ∧
      Pool.Run (SameStatus 7) (fun _ _ => True) overtaken (overtaken.schedule [0]) ∧
      (overtaken.schedule [0]).store.statusOf 7 = some .active :=
  ⟨Pool.schedule_run_free _ _ _, by rfl, Pool.schedule_run_free _ _ _, by decide +kernel⟩

/-- The request runs first. -/
def undisturbed : Pool Mark Site AppError := Pool.schedule (List.replicate 20 1) disablingPool

/-- The client stays disabled. -/
theorem disabling_sticks_undisturbed :
    (undisturbed.schedule (List.replicate 4 0)).store.statusOf 7 = some .disabled := by
  obtain ⟨p, hp, hok⟩ : ∃ p, undisturbed.threads[1]? = some p ∧ p.outcome = some (.ok ()) :=
    ⟨_, rfl, rfl⟩
  refine @disabling_sticks 7 _ _ _ disablingCalls _ _ 1 _ _ ?_
    (Pool.schedule_run (SameStatus 7) (List.replicate 20 1) disablingPool (by decide +kernel)) rfl
      ⟨rfl, rfl⟩ hp hok
    (Pool.schedule_run (SameStatus 7) (List.replicate 4 0) undisturbed (by decide +kernel))
  simp [disablingCalls, StatusCall.enables, UpdateClientInput.none]

end Site

end SRPanel
