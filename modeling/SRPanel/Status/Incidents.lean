import SRPanel.Lib.Alternation
import SRPanel.Model.Monitoring

/-!
# The book of incidents

A server has at most one open incident of a kind, never one that it is offline and one that its
login fails, and the events of a kind announce by turns that an incident was opened and that it was
resolved. No order of checks, settings and manual resolves breaks that.
-/

namespace SRPanel

/-- The kind that a server cannot have at the same time. -/
def IncidentKind.rival : IncidentKind → Option IncidentKind
  | offline => some authError
  | authError => some offline
  | xrayDown => none
  | highCpu => none

/-- Rivals are rivals of each other. -/
theorem IncidentKind.rival_symm {k k' : IncidentKind} (h : k' ∈ k.rival) : k ∈ k'.rival := by
  cases k with
  | offline => cases h; rfl
  | authError => cases h; rfl
  | xrayDown => cases h
  | highCpu => cases h

/-- No kind is its own rival. -/
theorem IncidentKind.rival_ne {k k' : IncidentKind} (h : k' ∈ k.rival) : k' ≠ k := by
  rintro rfl
  cases k' with
  | offline => cases h
  | authError => cases h
  | xrayDown => cases h
  | highCpu => cases h

/-- An open incident of this server and kind. -/
def Incident.isOpen (s : ServerId) (k : IncidentKind) (i : Incident) : Bool :=
  i.serverId = s && i.kind = k && i.status = .open'

/-- An event about this server and kind. -/
def IncidentEvent.isAbout (s : ServerId) (k : IncidentKind) (e : IncidentEvent) : Bool :=
  e.incident.serverId = s && e.incident.kind = k

theorem Incident.isOpen_iff {s : ServerId} {k : IncidentKind} {i : Incident} :
    i.isOpen s k ↔ (i.serverId = s ∧ i.kind = k) ∧ i.status = .open' := by
  simp only [isOpen, Bool.and_eq_true, decide_eq_true_eq]

/-- What an event is about. -/
theorem IncidentEvent.isAbout_iff {s : ServerId} {k : IncidentKind} {e : IncidentEvent} :
    e.isAbout s k ↔ e.incident.serverId = s ∧ e.incident.kind = k := by
  simp only [isAbout, Bool.and_eq_true, decide_eq_true_eq]

namespace Monitor

/-- The open incidents of a server and a kind. -/
def openOf (m : Monitor) (s : ServerId) (k : IncidentKind) : List Incident :=
  m.incidents.filter (Incident.isOpen s k)

/-- The events of a server and a kind; `true` opens an incident, `false` resolves it. -/
def eventsOf (m : Monitor) (s : ServerId) (k : IncidentKind) : List Bool :=
  (m.events.filter (IncidentEvent.isAbout s k)).map IncidentEvent.isOpened

/-- The invariant of the book. -/
structure Sound (m : Monitor) : Prop where
  fresh : ∀ i ∈ m.incidents, i.id < m.nextId
  ids : ∀ i ∈ m.incidents, ∀ j ∈ m.incidents, i.id = j.id → i = j
  single : ∀ s k, (m.openOf s k).length ≤ 1
  exclusive : ∀ s k, ∀ k' ∈ k.rival, m.openOf s k = [] ∨ m.openOf s k' = []
  alternates : ∀ s k, Alternates (m.eventsOf s k)
  last : ∀ s k, lastOn (m.eventsOf s k) = !(m.openOf s k).isEmpty

/-- The open incident of a server and a kind, if there is one. -/
theorem Sound.openOf_eq {m : Monitor} (hs : m.Sound) {s : ServerId} {k : IncidentKind}
    {inc : Incident} (hinc : inc ∈ m.openOf s k) : m.openOf s k = [inc] := by
  have hone : (m.openOf s k).length = 1 := le_antisymm (hs.single s k) (List.length_pos_of_mem hinc)
  obtain ⟨i, hi⟩ := List.length_eq_one_iff.mp hone
  rw [hi] at hinc ⊢
  rw [List.mem_singleton.mp hinc]

/-- A change of the book that opens the incident of a server and a kind, or resolves it. -/
structure Turns (m m' : Monitor) (s : ServerId) (k : IncidentKind) (on : Bool) : Prop where
  openOf_self : (m'.openOf s k).length = if on then 1 else 0
  eventsOf_self : m'.eventsOf s k = m.eventsOf s k ++ [on]
  openOf_ne : ∀ s' k', ¬(s' = s ∧ k' = k) → m'.openOf s' k' = m.openOf s' k'
  eventsOf_ne : ∀ s' k', ¬(s' = s ∧ k' = k) → m'.eventsOf s' k' = m.eventsOf s' k'
  fresh : ∀ i ∈ m'.incidents, i.id < m'.nextId
  ids : ∀ i ∈ m'.incidents, ∀ j ∈ m'.incidents, i.id = j.id → i = j

variable {m m' : Monitor} {s s' : ServerId} {k k' : IncidentKind} {inc : Incident} {on : Bool}

theorem mem_openOf :
    inc ∈ m.openOf s k ↔ inc ∈ m.incidents ∧ (inc.serverId = s ∧ inc.kind = k) ∧
    inc.status = .open' := by
  rw [openOf, List.mem_filter, Incident.isOpen_iff]

/-- Of two rivals one has no incident after the change. -/
theorem Turns.clear (h : m.Turns m' s k on) (hfree : on → ∀ k' ∈ k.rival, m.openOf s k' = [])
    (hrival : k' ∈ k.rival) : m'.openOf s k = [] ∨ m'.openOf s k' = [] := by
  have hself := h.openOf_self
  cases on with
  | true =>
    rw [h.openOf_ne s k' fun hsk => IncidentKind.rival_ne hrival hsk.2]
    exact .inr (hfree rfl k' hrival)
  | false => exact .inl (List.length_eq_zero_iff.mp hself)

/-- The change keeps the invariant if it turns over what was there and finds no incident of the
rival. -/
theorem Turns.sound (h : m.Turns m' s k on) (hs : m.Sound) (hturn : m.openOf s k = [] ↔ on)
    (hfree : on → ∀ k' ∈ k.rival, m.openOf s k' = []) : m'.Sound where
  fresh := h.fresh
  ids := h.ids
  single s' k' := by
    by_cases hsk : s' = s ∧ k' = k
    · obtain ⟨rfl, rfl⟩ := hsk
      rw [h.openOf_self]
      split
      · exact le_refl 1
      · exact Nat.zero_le 1
    · rw [h.openOf_ne s' k' hsk]
      exact hs.single s' k'
  exclusive s' k₁ k₂ hrival := by
    by_cases h₁ : s' = s ∧ k₁ = k
    · obtain ⟨rfl, rfl⟩ := h₁
      exact h.clear hfree hrival
    by_cases h₂ : s' = s ∧ k₂ = k
    · obtain ⟨rfl, rfl⟩ := h₂
      exact (h.clear hfree (IncidentKind.rival_symm hrival)).symm
    rw [h.openOf_ne s' k₁ h₁, h.openOf_ne s' k₂ h₂]
    exact hs.exclusive s' k₁ k₂ hrival
  alternates s' k' := by
    by_cases hsk : s' = s ∧ k' = k
    · obtain ⟨rfl, rfl⟩ := hsk
      rw [h.eventsOf_self]
      -- the last event says whether an incident is open, so that the turn alternates
      apply (hs.alternates s' k').concat
      rw [hs.last]
      cases on with
      | true => simp [hturn.mpr rfl]
      | false => simpa using hturn
    · rw [h.eventsOf_ne s' k' hsk]
      exact hs.alternates s' k'
  last s' k' := by
    by_cases hsk : s' = s ∧ k' = k
    · obtain ⟨rfl, rfl⟩ := hsk
      have hself := h.openOf_self
      rw [h.eventsOf_self, lastOn_concat]
      cases on with
      | true =>
        obtain ⟨i, hi⟩ := List.length_eq_one_iff.mp hself
        rw [hi]
        rfl
      | false =>
        rw [List.length_eq_zero_iff.mp hself]
        rfl
    · rw [h.eventsOf_ne s' k' hsk, h.openOf_ne s' k' hsk]
      exact hs.last s' k'

/-! ## Opening and resolving -/

theorem openIncident_turns (hs : m.Sound) (hnone : m.openOf s k = []) (message : Option String) :
    m.Turns (m.openIncident s k message) s k true where
  openOf_self := by
    unfold openOf at hnone
    unfold openIncident openOf
    rw [List.filter_append, hnone, List.nil_append]
    simp [Incident.isOpen]
  eventsOf_self := by
    unfold openIncident eventsOf
    rw [List.filter_append, List.map_append]
    simp [IncidentEvent.isAbout, IncidentEvent.incident, IncidentEvent.isOpened]
  openOf_ne s' k' hne := by
    unfold openIncident openOf
    rw [List.filter_append, List.filter_cons_of_neg, List.filter_nil, List.append_nil]
    rw [Incident.isOpen_iff]
    rintro ⟨⟨rfl, rfl⟩, -⟩
    exact hne ⟨rfl, rfl⟩
  eventsOf_ne s' k' hne := by
    unfold openIncident eventsOf
    rw [List.filter_append, List.filter_cons_of_neg, List.filter_nil, List.append_nil]
    rw [IncidentEvent.isAbout_iff]
    rintro ⟨rfl, rfl⟩
    exact hne ⟨rfl, rfl⟩
  fresh i hi := by
    rcases List.mem_append.mp hi with hi | hi
    · exact Nat.lt_succ_of_lt (hs.fresh i hi)
    · obtain rfl := List.mem_singleton.mp hi
      exact Nat.lt_succ_self m.nextId
  ids i hi j hj hij := by
    rcases List.mem_append.mp hi with hi | hi <;> rcases List.mem_append.mp hj with hj | hj
    · exact hs.ids i hi j hj hij
    · obtain rfl := List.mem_singleton.mp hj
      exact absurd hij (hs.fresh i hi).ne
    · obtain rfl := List.mem_singleton.mp hi
      exact absurd hij (hs.fresh j hj).ne'
    · rw [List.mem_singleton.mp hi, List.mem_singleton.mp hj]

/-- A change that leaves the kept entries alone, and no other entry kept. -/
theorem filter_map_eq_filter {α : Type} {p : α → Bool} {f : α → α} {l : List α}
    (hf : ∀ a ∈ l, f a = a ∨ p a = false ∧ p (f a) = false) : (l.map f).filter p = l.filter p := by
  induction l with
  | nil => rfl
  | cons a l ih =>
    obtain ⟨ha, hl⟩ := List.forall_mem_cons.mp hf
    rw [List.map_cons, List.filter_cons, List.filter_cons, ih hl]
    rcases ha with ha | ⟨ha, hfa⟩
    · rw [ha]
    · rw [ha, hfa, if_neg Bool.false_ne_true, if_neg Bool.false_ne_true]

/-- A resolved one turns them off. -/
theorem resolveIncident_turns (hs : m.Sound) (hinc : inc ∈ m.openOf s k) (manual : Bool) :
    m.Turns (m.resolveIncident inc manual) s k false := by
  obtain ⟨hmem, ⟨rfl, rfl⟩, hopen⟩ := mem_openOf.mp hinc
  have hid : ∀ i : Incident, (if i.id = inc.id then i.resolve m.now else i).id = i.id := by
    intro i
    split
    · rfl
    · rfl
  refine ⟨?_, ?_, fun s' k' hne => ?_, fun s' k' hne => ?_, fun i hi => ?_, fun i hi j hj hij => ?_⟩
  -- the server has no other open incident of the kind
  · rw [if_neg (by decide), List.length_eq_zero_iff]
    refine List.filter_eq_nil_iff.mpr fun i hi hopen' => ?_
    obtain ⟨j, hj, rfl⟩ := List.mem_map.mp hi
    split at hopen'
    · exact absurd (Incident.isOpen_iff.mp hopen').2 (by simp [Incident.resolve])
    · next hne =>
      have hj : j ∈ m.openOf inc.serverId inc.kind := List.mem_filter.mpr ⟨hj, hopen'⟩
      rw [hs.openOf_eq hinc, List.mem_singleton] at hj
      exact hne (congrArg Incident.id hj)
  · unfold resolveIncident eventsOf
    rw [List.filter_append, List.map_append]
    simp [IncidentEvent.isAbout, IncidentEvent.incident, IncidentEvent.isOpened, Incident.resolve]
  · refine filter_map_eq_filter fun i hi => ?_
    by_cases hi' : i.id = inc.id
    · obtain rfl := hs.ids i hi inc hmem hi'
      refine .inr ⟨?_, ?_⟩
      · rw [Bool.eq_false_iff]
        exact fun h => hne ((Incident.isOpen_iff.mp h).1.imp Eq.symm Eq.symm)
      · rw [if_pos rfl, Bool.eq_false_iff]
        exact fun h => absurd (Incident.isOpen_iff.mp h).2 (by simp [Incident.resolve])
    · exact .inl (if_neg hi')
  · unfold resolveIncident eventsOf
    rw [List.filter_append, List.filter_cons_of_neg, List.filter_nil, List.append_nil]
    rw [IncidentEvent.isAbout_iff]
    exact fun h => hne (h.imp Eq.symm Eq.symm)
  · obtain ⟨j, hj, rfl⟩ := List.mem_map.mp hi
    rw [hid]
    exact hs.fresh j hj
  · obtain ⟨i', hi', rfl⟩ := List.mem_map.mp hi
    obtain ⟨j', hj', rfl⟩ := List.mem_map.mp hj
    rw [hid, hid] at hij
    rw [hs.ids i' hi' j' hj' hij]

/-! ## A round -/

/-- The invariant still holds, and of the open incidents only these may have changed. -/
structure Keeps (m m' : Monitor) (p : ServerId → IncidentKind → Prop) : Prop where
  sound : m'.Sound
  openOf_eq : ∀ s k, ¬p s k → m'.openOf s k = m.openOf s k

/-- Nothing happening keeps the book. -/
theorem Keeps.refl (hs : m.Sound) (p : ServerId → IncidentKind → Prop) : m.Keeps m p :=
  ⟨hs, fun _ _ _ => rfl⟩

theorem Keeps.trans {m'' : Monitor} {p q : ServerId → IncidentKind → Prop} (h : m.Keeps m' p)
    (h' : m'.Keeps m'' q) : m.Keeps m'' fun s k => p s k ∨ q s k where
  sound := h'.sound
  openOf_eq s k hne := by
    rw [h'.openOf_eq s k fun hq => hne (.inr hq), h.openOf_eq s k fun hp => hne (.inl hp)]

theorem Keeps.mono {p q : ServerId → IncidentKind → Prop} (h : m.Keeps m' p)
    (hpq : ∀ s k, p s k → q s k) : m.Keeps m' q :=
  ⟨h.sound, fun s k hne => h.openOf_eq s k fun hp => hne (hpq s k hp)⟩

theorem openIncident_keeps (hs : m.Sound) (hnone : m.openOf s k = [])
    (hfree : ∀ k' ∈ k.rival, m.openOf s k' = []) (message : Option String) :
    m.Keeps (m.openIncident s k message) fun s' k' => s' = s ∧ k' = k :=
  have hturns := openIncident_turns hs hnone message
  ⟨hturns.sound hs ⟨fun _ => rfl, fun _ => hnone⟩ fun _ => hfree, hturns.openOf_ne⟩

theorem resolveIncident_keeps (hs : m.Sound) (hinc : inc ∈ m.openOf s k) (manual : Bool) :
    m.Keeps (m.resolveIncident inc manual) fun s' k' => s' = s ∧ k' = k :=
  have hturns := resolveIncident_turns hs hinc manual
  have hturn : m.openOf s k = [] ↔ false = true :=
    ⟨fun hnone => absurd hinc (hnone ▸ List.not_mem_nil), fun h => nomatch h⟩
  ⟨hturns.sound hs hturn (fun h => nomatch h), hturns.openOf_ne⟩

/-- The book of a server as it was read: the first open incident of each kind. -/
theorem find?_openIncidents (m : Monitor) (s : ServerId) (k : IncidentKind) :
    ((m.openIncidents s).find? fun i => i.kind = k) = (m.openOf s k).head? := by
  unfold openIncidents openOf
  rw [← List.head?_filter, List.filter_filter]
  congr 2
  funext i
  rw [Incident.isOpen, Bool.and_left_comm, Bool.and_assoc]

end Monitor

namespace Round

open Monitor

variable {r : Round} {s : ServerId} {k : IncidentKind}

theorem resolveOpen_keeps (hs : r.monitor.Sound) {inc : Option Incident}
    (hinc : inc = (r.monitor.openOf s k).head?) :
    r.monitor.Keeps (r.resolveOpen inc).monitor fun s' k' => s' = s ∧ k' = k := by
  cases inc with
  | none => exact .refl hs _
  | some inc => exact resolveIncident_keeps hs (List.mem_of_head? hinc.symm) false

theorem evaluateReach_keeps (hs : r.monitor.Sound) {«open» : IncidentKind → Option Incident}
    (hopen : ∀ k, «open» k = (r.monitor.openOf s k).head?) (srv : MonitoredServer)
    (failThreshold : ℤ)
    (latest : ServerMetric) (recent : List ServerMetric) : r.monitor.Keeps
      (r.evaluateReach s srv «open» failThreshold latest recent).monitor
      fun s' k' => s' = s ∧ (k' = .offline ∨ k' = .authError) := by
  unfold evaluateReach
  dsimp only
  split
  · split
    · next hnone =>
      rw [Bool.and_eq_true, Option.isNone_iff_eq_none, Option.isNone_iff_eq_none, hopen, hopen,
        List.head?_eq_none_iff, List.head?_eq_none_iff] at hnone
      obtain ⟨hoffline, hauth⟩ := hnone
      by_cases hstatus : srv.status = .authError
      · rw [if_pos hstatus]
        refine (openIncident_keeps hs hauth (fun k' hk' => ?_) _).mono fun _ _ h => ⟨h.1, .inr h.2⟩
        cases hk'
        exact hoffline
      · rw [if_neg hstatus]
        refine (openIncident_keeps hs hoffline (fun k' hk' => ?_) _).mono fun _ _ h =>
          ⟨h.1, .inl h.2⟩
        cases hk'
        exact hauth
    · exact .refl hs _
  split
  · have hoffline := resolveOpen_keeps hs (hopen .offline)
    have hauth : «open» .authError =
        ((r.resolveOpen («open» .offline)).monitor.openOf s .authError).head? := by
      rw [hoffline.openOf_eq s .authError (by simp), hopen]
    exact (hoffline.trans (resolveOpen_keeps hoffline.sound hauth)).mono fun s' k' h =>
      h.elim (fun h => ⟨h.1, .inl h.2⟩) fun h => ⟨h.1, .inr h.2⟩
  · exact .refl hs _

theorem evaluateXray_keeps (hs : r.monitor.Sound) {xi : Option Incident}
    (hxi : xi = (r.monitor.openOf s .xrayDown).head?) (latest : ServerMetric) :
    r.monitor.Keeps (r.evaluateXray s xi latest).monitor fun s' k' => s' = s ∧ k' = .xrayDown := by
  unfold evaluateXray
  cases xi with
  | none =>
    dsimp only
    split
    · exact openIncident_keeps hs (List.head?_eq_none_iff.mp hxi.symm) (fun k' hk' => nomatch hk') _
    · exact .refl hs _
  | some inc =>
    dsimp only
    split
    · exact resolveIncident_keeps hs (List.mem_of_head? hxi.symm) false
    · exact .refl hs _

theorem evaluateCpu_keeps (hs : r.monitor.Sound) {ci : Option Incident}
    (hci : ci = (r.monitor.openOf s .highCpu).head?) (cpuThreshold : ℚ) (latest : ServerMetric)
    (recent : List ServerMetric) :
    r.monitor.Keeps (r.evaluateCpu s ci cpuThreshold latest recent).monitor fun s' k' =>
      s' = s ∧ k' = .highCpu := by
  unfold evaluateCpu
  cases ci with
  | none =>
    dsimp only
    split
    · exact openIncident_keeps hs (List.head?_eq_none_iff.mp hci.symm) (fun k' hk' => nomatch hk') _
    · exact .refl hs _
  | some inc =>
    dsimp only
    split
    · exact resolveIncident_keeps hs (List.mem_of_head? hci.symm) false
    · exact .refl hs _

/-- A turn of the loop changes the incidents of its server only. -/
theorem evaluateServer_keeps (hs : r.monitor.Sound) (srv : MonitoredServer)
    {incidents : List Incident}
    (hincidents : ∀ k, (incidents.find? fun i => i.kind = k) = (r.monitor.openOf s k).head?) :
    r.monitor.Keeps (r.evaluateServer s srv incidents).monitor fun s' _ => s' = s := by
  unfold evaluateServer
  dsimp only
  split
  · exact .refl hs _
  next latest _ _ =>
  have hreach := evaluateReach_keeps hs hincidents srv r.monitor.settings.failThreshold latest
    (r.monitor.recentMetrics s)
  split
  -- the first part leaves the other two kinds alone
  · have hxray := evaluateXray_keeps hreach.sound
      ((hincidents .xrayDown).trans (by rw [hreach.openOf_eq s .xrayDown (by simp)])) latest
    have hcpu := evaluateCpu_keeps hxray.sound
      ((hincidents .highCpu).trans (by
        rw [hxray.openOf_eq s .highCpu (by simp), hreach.openOf_eq s .highCpu (by simp)]))
      r.monitor.settings.cpuThreshold latest (r.monitor.recentMetrics s)
    exact ((hreach.trans hxray).trans hcpu).mono fun s' k' h =>
      h.elim (fun h => h.elim And.left And.left) And.left
  · exact hreach.mono fun _ _ => And.left

/-- The servers of a round are all different, and a turn does not disturb what was read for the
later ones. -/
theorem foldl_evaluateServer_sound {servers : List ((ServerId × MonitoredServer) × List Incident)}
    (hs : r.monitor.Sound) (hnodup : (servers.map fun row => row.1.1).Nodup)
    (hread : ∀ row ∈ servers, ∀ k,
      (row.2.find? fun i => i.kind = k) = (r.monitor.openOf row.1.1 k).head?) :
    (servers.foldl (fun r row => r.evaluateServer row.1.1 row.1.2 row.2) r).monitor.Sound := by
  induction servers generalizing r with
  | nil => exact hs
  | cons row servers ih =>
    rw [List.map_cons, List.nodup_cons] at hnodup
    have hturn := evaluateServer_keeps hs row.1.2 (hread row List.mem_cons_self)
    refine ih hturn.sound hnodup.2 fun row' hrow' k => ?_
    have hne : row'.1.1 ≠ row.1.1 := fun h => hnodup.1 (h ▸ List.mem_map_of_mem hrow')
    rw [hturn.openOf_eq row'.1.1 k hne]
    exact hread row' (List.mem_cons_of_mem row hrow') k

end Round

namespace Monitor

variable {m m' : Monitor}

/-- A whole tick keeps the book sound. -/
theorem evaluateIncidents_sound (hs : m.Sound) : m.evaluateIncidents.monitor.Sound := by
  refine Round.foldl_evaluateServer_sound (r := ⟨m, 0, 0⟩) hs ?_ fun row hrow k => ?_
  · rw [List.map_map]
    exact m.servers.nodup_keys.sublist (List.filter_sublist.map Prod.fst)
  · obtain ⟨row', -, rfl⟩ := List.mem_map.mp hrow
    exact m.find?_openIncidents row'.1 k

/-! ## Other calls -/

/-- So does a resolution by hand. -/
theorem resolveIncidentManually_sound (hs : m.Sound) {id : ℕ}
    (h : m.resolveIncidentManually id = .ok m') : m'.Sound := by
  unfold resolveIncidentManually at h
  split at h
  · cases h
  next inc hinc =>
  split at h
  · cases h
    exact hs
  · next hopen =>
    cases h
    have hstatus : inc.status = .open' := by
      cases hst : inc.status with
      | open' => rfl
      | resolved => exact absurd hst hopen
    exact (resolveIncident_keeps hs
      (mem_openOf.mpr ⟨List.mem_of_find?_eq_some hinc, ⟨rfl, rfl⟩, hstatus⟩) true).sound

/-- Old incidents are pruned when they are resolved; open ones stay. -/
theorem pruneHistory_sound (hs : m.Sound) : m.pruneHistory.Sound := by
  have hopenOf : ∀ s k, m.pruneHistory.openOf s k = m.openOf s k := by
    intro s k
    unfold openOf pruneHistory
    rw [List.filter_filter]
    refine List.filter_congr fun i _ => ?_
    by_cases hopen : i.isOpen s k
    · simp [hopen, (Incident.isOpen_iff.mp hopen).2]
    · simp [hopen]
  have hmem : ∀ i ∈ m.pruneHistory.incidents, i ∈ m.incidents :=
    fun i hi => List.mem_of_mem_filter hi
  exact {
    fresh i hi := hs.fresh i (hmem i hi)
    ids i hi j hj := hs.ids i (hmem i hi) j (hmem j hj)
    single s k := hopenOf s k ▸ hs.single s k
    exclusive s k k' hk := by
      rw [hopenOf, hopenOf]
      exact hs.exclusive s k k' hk
    alternates := hs.alternates
    last s k := by
      rw [hopenOf]
      exact hs.last s k }

/-- What is not about the book leaves the invariant alone. -/
theorem Sound.congr (hs : m.Sound) (hincidents : m'.incidents = m.incidents)
    (hevents : m'.events = m.events) (hnext : m'.nextId = m.nextId) : m'.Sound := by
  obtain ⟨now, nextId, servers, metrics, settings, incidents, events⟩ := m'
  subst hincidents hevents hnext
  exact ⟨hs.fresh, hs.ids, hs.single, hs.exclusive, hs.alternates, hs.last⟩

/-- So does every call. -/
theorem step_sound (hs : m.Sound) (call : MonitorCall) : (m.step call).Sound := by
  cases call with
  | wait ms => exact hs.congr rfl rfl rfl
  | metric r => exact hs.congr rfl rfl rfl
  | server id s => exact hs.congr rfl rfl rfl
  | settings s => exact hs.congr rfl rfl rfl
  | evaluateIncidents => exact evaluateIncidents_sound hs
  | resolveIncidentManually id =>
    unfold step
    dsimp only
    cases h : m.resolveIncidentManually id with
    | error e => exact hs
    | ok m' => exact resolveIncidentManually_sound hs h
  | pruneHistory => exact pruneHistory_sound hs

theorem start_sound (now : ℤ) (nextId : ℕ) (servers : Table ServerId MonitoredServer)
    (metrics : List ServerMetric) (settings : MonitoringSettings) :
    (start now nextId servers metrics settings).Sound where
  fresh _ hi := nomatch hi
  ids _ hi := nomatch hi
  single _ _ := Nat.zero_le 1
  exclusive _ _ _ _ := .inl rfl
  alternates _ _ := alternates_nil
  last _ _ := rfl

theorem run_sound (hs : m.Sound) (calls : List MonitorCall) : (m.run calls).Sound := by
  induction calls generalizing m with
  | nil => exact hs
  | cons call calls ih => exact ih (step_sound hs call)

/-- After any calls from an empty book every server has at most one open incident of each kind,
never both that it is offline and that its login fails, and the events of a kind alternate, with an
opening first. -/
theorem incident_book (now : ℤ) (nextId : ℕ) (servers : Table ServerId MonitoredServer)
    (metrics : List ServerMetric) (settings : MonitoringSettings) (calls : List MonitorCall)
    (s : ServerId) :
    let m := (start now nextId servers metrics settings).run calls
    (∀ k, (m.openOf s k).length ≤ 1) ∧ (m.openOf s .offline = [] ∨ m.openOf s .authError = []) ∧
      ∀ k, Alternates (m.eventsOf s k) := by
  have hs := run_sound (start_sound now nextId servers metrics settings) calls
  exact ⟨hs.single s, hs.exclusive s .offline .authError rfl, hs.alternates s⟩

example :
    let m := start 0 0 (.ofRows [(1, ⟨true, .offline, some "timeout"⟩)]) [] ⟨1, 90⟩
    let m := m.run [.metric ⟨1, 0, false, none, none⟩, .evaluateIncidents, .evaluateIncidents,
      .metric ⟨1, 60, true, some 5, some "stop"⟩, .evaluateIncidents, .resolveIncidentManually 1,
      .evaluateIncidents]
    m.eventsOf 1 .offline = [true, false] ∧ m.eventsOf 1 .xrayDown = [true, false, true] := by
  decide +kernel

end Monitor

end SRPanel
