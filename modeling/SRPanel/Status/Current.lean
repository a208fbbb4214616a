import SRPanel.Clients.Reset
import SRPanel.Expiry.Extend
import SRPanel.Sync.Groups

/-!
# Derived statuses

The status of a client is derived from its expiry, its limit and its usage, and stored. A
recomputation makes it current; the other operations that change what it is derived from are the
renewals, which write the expiry after the recomputation, and the starts, which do not look at the
client again.
-/

namespace SRPanel

open Interleaving Prog

namespace Site

/-! ## The derived status -/

/-- The stored status is the one that the row derives at a time. -/
def DerivedAt (c : Client) (t : ℤ) : Prop := c.status = derivedStatus c (c.usedUp + c.usedDown) t

/-- The status of the client is the derived one, unless the client is disabled. -/
def Current (id : ClientId) (s : Site) : Prop :=
  ∀ c, s.clients.get? id = some c → DerivedAt c s.base.now

/-- The status of the client has been the derived one at some time. -/
def Lagging (id : ClientId) (s : Site) : Prop :=
  ∀ c, s.clients.get? id = some c → ∃ t ≤ (s.base.now : ℤ), DerivedAt c t

/-- The expiry of the client has passed, and its status does not say so. -/
def Overdue (c : Client) (t : ℤ) : Prop :=
  c.status ≠ .disabled ∧ c.status ≠ .expired ∧ c.expiresAt.any (· < t)

instance (c : Client) (t : ℤ) : Decidable (Overdue c t) :=
  inferInstanceAs (Decidable (_ ∧ _ ∧ c.expiresAt.any (· < t) = true))

/-- The expiry of the client has not passed unnoticed. -/
def Punctual (id : ClientId) (s : Site) : Prop := ∀ c ∈ s.clients.get? id, ¬Overdue c s.base.now

instance (id : ClientId) (s : Site) : Decidable (Punctual id s) :=
  inferInstanceAs (Decidable (∀ c ∈ s.clients.get? id, _))

theorem Current.lagging {id : ClientId} {s : Site} (h : Current id s) : Lagging id s :=
  fun c hc => ⟨s.base.now, le_rfl, h c hc⟩

/-- An expiry that had passed earlier has passed now. -/
theorem Lagging.current {id : ClientId} {s : Site} (h : Lagging id s) (hp : Punctual id s) :
    Current id s := by
  intro c hc
  obtain ⟨t, ht, hderived⟩ := h c hc
  have hpunctual := hp c hc
  unfold DerivedAt derivedStatus at hderived ⊢
  by_cases hdisabled : c.status = .disabled
  · rw [if_pos hdisabled, hdisabled]
  · rw [if_neg hdisabled] at hderived ⊢
    by_cases hpast : c.expiresAt.any (· < t)
    · have hnow : c.expiresAt.any (· < (s.base.now : ℤ)) := by
        cases hexpiry : c.expiresAt with
        | none =>
            rw [hexpiry] at hpast
            cases hpast
        | some e =>
            rw [hexpiry] at hpast
            exact decide_eq_true (lt_of_lt_of_le (of_decide_eq_true hpast) ht)
      rw [if_pos hpast] at hderived
      rw [if_pos hnow]
      exact hderived
    · rw [if_neg hpast] at hderived
      have hnow : ¬c.expiresAt.any (· < (s.base.now : ℤ)) = true := by
        intro hnow
        refine hpunctual ⟨hdisabled, ?_, hnow⟩
        rw [hderived]
        split
        · simp
        · simp
      rw [if_neg hnow]
      exact hderived

/-- The client is disabled, if it is there. -/
def Disabled (id : ClientId) (s : Site) : Prop := ∀ c ∈ s.clients.get? id, c.status = .disabled

/-- The row of the client and the clock are the same, and so are the admins. -/
structure SameClient (id : ClientId) (s s' : Site) : Prop where
  client : s'.clients.get? id = s.clients.get? id
  now : s'.base.now = s.base.now
  admins : s'.base.admins = s.base.admins
  accounts : s'.accounts = s.accounts

theorem SameClient.refl (id : ClientId) (s : Site) : SameClient id s s := ⟨rfl, rfl, rfl, rfl⟩

theorem SameClient.trans {id : ClientId} (s s' s'' : Site) (h : SameClient id s s')
    (h' : SameClient id s' s'') : SameClient id s s'' :=
  ⟨h'.client.trans h.client, h'.now.trans h.now, h'.admins.trans h.admins,
    h'.accounts.trans h.accounts⟩

/-- The status of the same client stays current. -/
theorem SameClient.current {id : ClientId} {s s' : Site} (h : SameClient id s s')
    (hc : Current id s) : Current id s' := by
  intro c hget
  rw [h.client] at hget
  rw [h.now]
  exact hc c hget

/-- It lags as before. -/
theorem SameClient.lagging {id : ClientId} {s s' : Site} (h : SameClient id s s')
    (hl : Lagging id s) : Lagging id s' := by
  intro c hget
  rw [h.client] at hget
  rw [h.now]
  exact hl c hget

/-- It is disabled as before. -/
theorem SameClient.disabled {id : ClientId} {s s' : Site} (h : SameClient id s s')
    (hd : Disabled id s) : Disabled id s' := by
  unfold Disabled
  rw [h.client]
  exact hd

/-- Notes leave the client the same. -/
theorem SameClient.of_annotated {id : ClientId} {s s' : Site} (h : Annotated s s') :
    SameClient id s s' where
  client := by rw [h.same Site.clients fun _ => rfl]
  now := h.same (fun s => s.base.now) fun _ => rfl
  admins := h.same (fun s => s.base.admins) fun _ => rfl
  accounts := h.same Site.accounts fun _ => rfl

/-- So they leave the accounts. -/
theorem SameClient.operator {id : ClientId} {s s' : Site} (h : SameClient id s s')
    (admin : AdminId) : s'.operator admin = s.operator admin := by
  rw [Site.operator, Site.operator, h.admins, h.accounts]

/-- So does a call that only annotates. -/
theorem keeps_sameClient {id : ClientId} {α : Type} {p : Task α} (hp : p.Keeps Annotated) :
    p.Keeps (SameClient id) := hp.mono fun _ _ h => .of_annotated h

/-- The status of the client has been derived again; a disabled client stays disabled. -/
structure Rederived (id : ClientId) (s s' : Site) : Prop where
  current : Current id s'
  disabled : Disabled id s → Disabled id s'

/-- What leaves the client the same may come behind. -/
theorem Rederived.after {id : ClientId} {s s₁ s' : Site} (h : Rederived id s s₁)
    (hs : SameClient id s₁ s') : Rederived id s s' :=
  ⟨hs.current h.current, fun hd => hs.disabled (h.disabled hd)⟩

/-- Or before. -/
theorem Rederived.before {id : ClientId} {s s₁ s' : Site} (hs : SameClient id s s₁)
    (h : Rederived id s₁ s') : Rederived id s s' :=
  ⟨h.current, fun hd => h.disabled (hs.disabled hd)⟩

/-- What only calls panels, notes errors and logs leaves a current status current. -/
theorem wp_rederived_of_annotated {id : ClientId} {α : Type} {p : Task α} (hp : p.Keeps Annotated)
    {s s₁ : Site} (h : Rederived id s s₁) :
    Prog.wp p (fun _ => Rederived id s) (fun _ => Rederived id s) s₁ :=
  (wp_store_iff p).mpr (h.after
    ((keeps_sameClient hp).run (SameClient.refl id) SameClient.trans s₁))

/-! ## Recomputations -/

/-- Storing a derived status does not change what is derived. -/
theorem derivedStatus_stored {c c' : Client} {used t : ℤ} (hexpiry : c'.expiresAt = c.expiresAt)
    (hlimit : c'.trafficLimit = c.trafficLimit) (hstatus : c'.status = derivedStatus c used t) :
    derivedStatus c' used t = derivedStatus c used t := by
  by_cases hdisabled : c.status = .disabled
  · have hderived : derivedStatus c used t = .disabled := if_pos hdisabled
    rw [hderived] at hstatus ⊢
    exact if_pos hstatus
  · have hderived : derivedStatus c used t ≠ .disabled := by
      unfold derivedStatus
      rw [if_neg hdisabled]
      split
      · simp
      · split
        · simp
        · simp
    rw [← hstatus] at hderived
    unfold derivedStatus
    rw [if_neg hderived, if_neg hdisabled, hexpiry, hlimit]

/-- A recomputation makes the status of its client current. -/
theorem recomputeClient_rederives (id : ClientId) (s : Site) :
    Prog.wp (recomputeClient id) (fun _ => Rederived id s) (fun _ _ => False) s := by
  simp only [recomputeClient, read, wp_bind, wp_query]
  cases hc : s.clients.get? id with
  | none =>
      refine ⟨fun c h => ?_, fun h => h⟩
      rw [hc] at h
      cases h
  | some c =>
      simp only [Option.map_some, wp_bind, writeRow, wp_step, hc]
      refine wp_mono _ (wp_and (wp_rederived_of_annotated
        (keeps_ite (keeps_pure ()) (onClientStatusChanged_annotated c _)) ?_)
        ((returns_ite (returns_pure ()) (onClientStatusChanged_returns c _)).wp _))
        (fun _ _ h => h.1) fun _ _ h => h.2
      have hrow : ∀ {c'}, (s.clients.modify id fun c₀ => { c₀ with
            usedUp := ((s.linksOf id).map fun l => l.2.up).sum
            usedDown := ((s.linksOf id).map fun l => l.2.down).sum
            status := derivedStatus c (((s.linksOf id).map fun l => l.2.up).sum +
              ((s.linksOf id).map fun l => l.2.down).sum) s.base.now }).get? id = some c' →
          c' = { c with
            usedUp := ((s.linksOf id).map fun l => l.2.up).sum
            usedDown := ((s.linksOf id).map fun l => l.2.down).sum
            status := derivedStatus c (((s.linksOf id).map fun l => l.2.up).sum +
              ((s.linksOf id).map fun l => l.2.down).sum) s.base.now } := by
        intro c' hc'
        rw [Table.get?_modify_self, hc] at hc'
        exact (Option.some.inj hc').symm
      refine ⟨fun c' hc' => ?_, fun hdisabled c' hc' => ?_⟩
      · obtain rfl := hrow hc'
        -- what is written is derived from the columns that the write leaves alone
        refine Eq.symm (@derivedStatus_stored c _ _ _ ?_ ?_ ?_)
        · rfl
        · rfl
        · rfl
      · obtain rfl := hrow hc'
        exact if_pos (hdisabled c hc)

theorem writeRow_sameClient {id id' : ClientId} (hid : id' ≠ id) (mark : Mark) (f : Client → Client)
    (cause : Option OrderId) : (writeRow mark id' f cause).Keeps (SameClient id) := by
  refine keeps_step fun s => ?_
  split
  · exact .refl id s
  · exact ⟨Table.get?_modify_of_ne _ _ (Ne.symm hid), rfl, rfl, rfl⟩

theorem recomputeClient_sameClient {id id' : ClientId} (hid : id' ≠ id) :
    (recomputeClient id').Keeps (SameClient id) := by
  refine keeps_bind (keeps_sameClient (read_annotated _)) fun found => ?_
  rcases found with _ | ⟨c, links, t⟩
  · exact keeps_pure ()
  · exact keeps_bind (writeRow_sameClient hid _ _ _) fun _ =>
      keeps_ite (keeps_pure ()) (keeps_sameClient (onClientStatusChanged_annotated c _))

/-! ## Updates and resets -/

theorem getClientForActor_annotated (actor : Actor) (id : ClientId) :
    (getClientForActor actor id).Keeps Annotated :=
  (getClientForActor_reads actor id).keeps Annotated.refl

/-- Whatever comes before, a procedure that ends with a recomputation and what does not change the
row leaves a current status. -/
theorem wp_current_of_last {id : ClientId} {α β : Type} {p : Task β} {f : β → Task α} (s : Site)
    (hf : ∀ b s₁, Prog.wp (f b) (fun _ => Current id) (fun _ _ => True) s₁) :
    Prog.wp (p >>= f) (fun _ => Current id) (fun _ _ => True) s := by
  rw [wp_bind]
  have htrue : Prog.wp p (fun _ _ => True) (fun _ _ => True) s := (wp_store_iff p).mpr trivial
  exact wp_mono p htrue (fun b s₁ _ => hf b s₁) fun _ _ h => h

/-- An update that returns leaves the status of its client current. -/
theorem updateClient_current (actor : Operator) (id : ClientId) (input : UpdateClientInput)
    (cause : Option OrderId) (s : Site) :
    Prog.wp (updateClient actor id input cause) (fun _ => Current id) (fun _ _ => True) s := by
  unfold updateClient
  rw [wp_bind, (getClientForActor_reads actor.actor id).wp_iff, getClientForActor_run]
  cases hfound : s.clientOf actor.actor id with
  | none => trivial
  | some current =>
      obtain ⟨rfl, -, -⟩ := clientOf_id hfound
      refine wp_current_of_last s fun data s₁ => wp_current_of_last s₁ fun _ s₂ =>
        wp_current_of_last s₂ fun cost s₃ =>
        wp_current_of_last s₃ fun _ s₄ => wp_current_of_last s₄ fun _ s₅ => ?_
      rw [wp_bind]
      refine wp_mono _ (recomputeClient_rederives current.id s₅) (fun _ s₆ h₆ => ?_) fun _ _ _ =>
        trivial
      refine wp_mono _ (wp_rederived_of_annotated (keeps_bind (getClientForActor_annotated _ _)
        fun client =>
        keeps_bind (pushClient_annotated client) fun _ =>
          keeps_bind (lift_annotated (audit_keeps_logged _ _)) fun _ => keeps_pure _) h₆)
        (fun _ _ h => h.current) fun _ _ _ => trivial

theorem pushIfLimited_annotated (actor : Actor) (client : FullClient) :
    (pushIfLimited actor client).Keeps Annotated :=
  keeps_ite (keeps_bind (getClientForActor_annotated _ _) fun fresh =>
    keeps_bind (pushClient_annotated fresh) fun _ => keeps_pure ()) (keeps_pure ())

/-- The resets on the panels leave the client the same. -/
theorem resetGroups_sameClient {id : ClientId} (servers : List (ServerId × Server))
    (groups : List LinkGroup) : (resetGroups servers groups).Keeps (SameClient id) := by
  induction groups with
  | nil => exact keeps_pure _
  | cons group rest ih =>
      refine keeps_bind ?_ fun _ => keeps_bind ih fun _ => keeps_pure _
      cases servers.find? fun s => s.1 = group.serverId with
      | none => exact keeps_pure _
      | some server =>
          refine keeps_attempt (keeps_bind ?_ fun _ => keeps_bind ?_ fun _ => keeps_pure _)
            fun _ => keeps_pure _
          · exact callPanel_keeps (fun _ => ⟨rfl, rfl, rfl, rfl⟩) fun _ => ⟨rfl, rfl, rfl, rfl⟩
          · exact keeps_modify fun _ => ⟨rfl, rfl, rfl, rfl⟩

/-- A reset leaves the status of its client current, or does not find it. -/
theorem resetClientTraffic_rederives (actor : Actor) (id : ClientId) (s : Site) :
    Prog.wp (resetClientTraffic actor id) (fun _ s' => Synced s s' ∧ Rederived id s s')
      (fun _ s' => s.clientOf actor id = none ∧ s' = s) s := by
  have hspec := resetClientTraffic_spec actor id s
  have hcurrent : Prog.wp (resetClientTraffic actor id) (fun _ => Rederived id s) (fun _ _ =>
    True) s := by
    unfold resetClientTraffic
    rw [wp_bind, (getClientForActor_reads actor id).wp_iff, getClientForActor_run]
    cases hfound : s.clientOf actor id with
    | none => trivial
    | some client =>
        obtain ⟨rfl, -, -⟩ := clientOf_id hfound
        simp only [serversOf, read, wp_bind, wp_query]
        refine wp_mono _ ((resetGroups_sameClient _ _).wp
          (SameClient.refl client.id) SameClient.trans s)
            (fun errors s₁ h₁ => ?_) fun _ _ _ => trivial
        refine wp_mono _ (recomputeClient_rederives client.id s₁) (fun _ s₂ h₂ => ?_) fun _ _ _ =>
          trivial
        have hrest := wp_rederived_of_annotated
          (keeps_bind (pushIfLimited_annotated actor client) fun _ =>
            keeps_bind (lift_annotated (audit_keeps_logged (some actor.id) "client.reset_traffic"))
              fun _ => keeps_pure errors) (Rederived.before h₁ h₂)
        simp only [wp_bind] at hrest
        exact wp_mono _ hrest (fun _ _ h => h) fun _ _ _ => trivial
  exact wp_mono _ (wp_and hspec hcurrent) (fun _ _ h => ⟨h.1.2.1, h.2⟩) fun _ _ h => h.1

/-! ## Renewals -/

/-- So does a service that only logs. -/
theorem lift_sameClient {id : ClientId} {α : Type} {p : Service α} (hp : p.Keeps Logged) :
    (lift p).Keeps (SameClient id) := keeps_sameClient (lift_annotated hp)

/-- A write that leaves the clients and the admins alone. -/
theorem write_sameClient {id : ClientId} {f : Site → Site}
    (hclients : ∀ s, (f s).clients = s.clients) (hbase : ∀ s, (f s).base = s.base)
    (haccounts : ∀ s, (f s).accounts = s.accounts) :
    (write f).Keeps (SameClient id) :=
  keeps_modify fun s => ⟨by rw [hclients], by rw [hbase], by rw [hbase], haccounts s⟩

/-- So does the reset of another. -/
theorem resetClientTraffic_sameClient {id id' : ClientId} (hid : id' ≠ id) (actor : Actor) :
    (resetClientTraffic actor id').Keeps (SameClient id) := by
  refine keeps_seq (keeps_sameClient (getClientForActor_annotated actor id'))
    (getClientForActor_yields actor id') fun client hclient => keeps_bind
    (keeps_sameClient (read_annotated _)) fun servers =>
      keeps_bind (resetGroups_sameClient _ _) fun errors => keeps_bind ?_ fun _ =>
        keeps_bind (keeps_sameClient (pushIfLimited_annotated actor client)) fun _ =>
          keeps_bind (lift_sameClient (audit_keeps_logged _ _)) fun _ => keeps_pure errors
  rw [hclient]
  exact recomputeClient_sameClient hid

/-- The push of a cycle. -/
theorem pushOfCycle_annotated (admin : Operator) (id : ClientId) :
    (Prog.attempt (do
      let client ← getClientForActor admin.actor id
      let _ ← pushClient client
      pure false) fun _ => pure true : Task Bool).Keeps Annotated :=
  keeps_attempt (keeps_bind (getClientForActor_annotated _ _) fun client =>
    keeps_bind (pushClient_annotated client) fun _ => keeps_pure _) fun _ => keeps_pure _

/-- So does the removal of a rule. -/
theorem dropRule_sameClient {id : ClientId} (id' : ClientId) :
    (dropRule id').Keeps (SameClient id) :=
  write_sameClient (fun _ => rfl) (fun _ => rfl) fun _ => rfl

/-- So does the end of a cycle. -/
theorem endCycle_sameClient {id : ClientId} (id' : ClientId) (rule : AutoRenewRule) (t : ℤ) :
    (endCycle id' rule t).Keeps (SameClient id) :=
  keeps_ite (keeps_bind (dropRule_sameClient id') fun _ => keeps_pure _)
    (keeps_bind (write_sameClient (fun _ => rfl) (fun _ => rfl) fun _ => rfl) fun _ => keeps_pure _)

/-- So does the rule of another. -/
theorem runRule_sameClient {id id' : ClientId} (hid : id' ≠ id) (t : ℤ) (rule : AutoRenewRule) :
    (runRule t id' rule).Keeps (SameClient id) := by
  refine keeps_bind (keeps_sameClient (read_annotated _)) fun client => ?_
  cases client with
  | none => exact keeps_bind (dropRule_sameClient id') fun _ => keeps_pure _
  | some client =>
      refine keeps_ite (keeps_pure _) (keeps_bind (keeps_sameClient (read_annotated _))
        fun admin => ?_)
      cases admin with
      | none => exact keeps_bind (dropRule_sameClient id') fun _ => keeps_pure _
      | some admin =>
          refine keeps_bind (keeps_attempt (keeps_bind (resetClientTraffic_sameClient hid _)
            fun _ => keeps_pure _) fun _ => keeps_pure _) fun _ => keeps_bind ?_ fun _ =>
              keeps_bind (lift_sameClient (audit_keeps_logged _ _)) fun _ =>
                keeps_bind (endCycle_sameClient id' rule t) fun _ => keeps_pure _
          exact keeps_ite (keeps_bind (writeRow_sameClient hid _ _ _) fun _ =>
            keeps_sameClient (pushOfCycle_annotated admin id')) (keeps_pure _)

/-- A date that is not past does not make a difference to what is derived, if the old one was not
past. -/
theorem derivedAt_extended {c : Client} {t : ℤ} {e : Option ℤ} (h : DerivedAt c t)
    (hold : c.status = .disabled ∨ ¬c.expiresAt.any (· < t) = true)
    (hnew : c.status = .disabled ∨ ¬e.any (· < t) = true) :
    DerivedAt { c with expiresAt := e } t := by
  unfold DerivedAt derivedStatus at h ⊢
  by_cases hdisabled : c.status = .disabled
  · rw [if_pos hdisabled]
    exact hdisabled
  · rw [if_neg hdisabled, if_neg (hold.resolve_left hdisabled)] at h
    rw [if_neg hdisabled, if_neg (hnew.resolve_left hdisabled)]
    exact h

/-- A cycle leaves the status of its client current, unless it extends an expiry that has passed. -/
theorem runCycle_current {id : ClientId} {rule : AutoRenewRule} {c : Client}
    {admin : Operator} {s : Site} (hget : s.clients.get? id = some c)
    (hscope : inScope admin.actor c)
    (hdate : rule.extendExpiry →
      c.status = .disabled ∨ ¬c.expiresAt.any (· < (s.base.now : ℤ)) = true) :
    Prog.wp (runCycle s.base.now id rule c admin) (fun _ => Current id) (fun _ _ => False) s := by
  have hfound : s.clientOf admin.actor id ≠ none := by
    rw [clientOf, hget, Option.filter_some, if_pos hscope]
    simp
  -- the audit and the end of the cycle leave the row alone
  have hend : ∀ (s₁ : Site) (tick : Bool → AutoRenewTick), Current id s₁ → Prog.wp (do
      lift (audit (some admin.id) "client.auto_renew")
      let last ← endCycle id rule s.base.now
      pure (tick last)) (fun _ => Current id) (fun _ _ => False) s₁ := by
    intro s₁ tick h₁
    refine wp_mono _ (wp_and ((keeps_bind (lift_sameClient (audit_keeps_logged _ _)) fun _ =>
      keeps_bind (endCycle_sameClient id rule _) fun _ => keeps_pure _).wp (SameClient.refl id)
      SameClient.trans s₁) (Prog.Returns.wp (returns_bind (audit_returns _ _).zoom fun _ =>
        returns_bind (returns_ite ?_ ?_) fun _ => returns_pure _) s₁))
      (fun _ _ h => h.1.current h₁) fun _ _ h => h.2
    · exact returns_bind (returns_modify _ _) fun _ => returns_pure _
    · exact returns_bind (returns_modify _ _) fun _ => returns_pure _
  unfold runCycle
  rw [wp_bind, resetOfCycle, wp_attempt, wp_bind]
  refine wp_mono _ (resetClientTraffic_rederives admin.actor id s) (fun errors s₁ h₁ => ?_)
    fun _ _ h => absurd h.1 hfound
  obtain ⟨hsynced, hrederived⟩ := h₁
  have hsettled := hsynced.client id
  rw [hget] at hsettled
  obtain ⟨c₁, hc₁, hrow⟩ := Option.map_eq_some_iff.mp hsettled
  have hnow : s₁.base.now = s.base.now := hsynced.same (fun s => s.base.now) fun _ => rfl
  rw [wp_pure, wp_bind]
  by_cases hext : rule.extendExpiry = true
  · rw [if_pos hext, extendOfCycle, wp_bind, updateRow, writeRow, wp_step, hc₁]
    dsimp only
    refine wp_mono _ (wp_and ((keeps_sameClient (pushOfCycle_annotated admin id)).wp
      (SameClient.refl id) SameClient.trans _) (Prog.Returns.wp (returns_attempt fun _ =>
        returns_pure _) _))
      (fun pushFailed s₂ h₂ => hend s₂ _ (h₂.1.current ?_)) fun _ _ h => h.2
    intro c₂ hc₂
    rw [Table.get?_modify_self, hc₁] at hc₂
    obtain rfl := Option.some.inj hc₂
    have hexpiry : c₁.settled.expiresAt = c.settled.expiresAt := by rw [hrow]
    change c₁.expiresAt = c.expiresAt at hexpiry
    refine derivedAt_extended (hrederived.current c₁ hc₁) ?_ (.inr ?_)
    · rcases hdate hext with hdisabled | hfuture
      · refine .inl (hrederived.disabled (fun c' hc' => ?_) c₁ hc₁)
        obtain rfl : c' = c := Option.some.inj (hc'.symm.trans hget)
        exact hdisabled
      · rw [hexpiry, hnow]
        exact .inr hfuture
    · show ¬decide (cycleExpiry c.expiresAt rule.everyDays s.base.now < s₁.base.now) = true
      rw [hnow, decide_eq_true_eq, cycleExpiry]
      have hpos : 0 ≤ (rule.everyDays : ℤ) * DAY_MS := mul_nonneg (by omega) (by decide)
      have hmax := le_max_right (c.expiresAt.getD s.base.now) (s.base.now : ℤ)
      omega
  · rw [if_neg hext, wp_pure]
    exact hend s₁ _ hrederived.current

/-- The rule of the client that a tick runs because it is due. -/
def dueRule (s : Site) (limit : ℕ) (id : ClientId) : Option AutoRenewRule :=
  (((s.autoRenews.rows.take (max 1 limit)).find? fun r => r.1 = id).map Prod.snd).filter fun rule =>
    rule.nextAt ≤ (s.base.now : ℤ) &&
      ((s.clients.get? id).bind fun c => s.operator c.adminId).isSome

/-- What the operations on other clients leave behind. -/
theorem wp_of_sameClient {id : ClientId} {α : Type} {p : Task α} (hp : p.Keeps (SameClient id))
    (s : Site) : Prog.wp p (fun _ => SameClient id s) (fun _ => SameClient id s) s :=
  hp.wp (SameClient.refl id) SameClient.trans s

/-- A rule of the client that is not due leaves the client alone. -/
theorem runRule_idle {id : ClientId} {rule : AutoRenewRule} {s : Site}
    (h : (s.base.now : ℤ) < rule.nextAt ∨
      ((s.clients.get? id).bind fun c => s.operator c.adminId) = none) :
    Prog.wp (runRule s.base.now id rule) (fun _ => SameClient id s) (fun _ _ => False) s := by
  have hdrop : Prog.wp (do
      dropRule id
      pure (⟨0, 0, 0⟩ : AutoRenewTick)) (fun _ => SameClient id s) (fun _ _ => False) s :=
        ⟨rfl, rfl, rfl, rfl⟩
  simp only [runRule, read, wp_bind, wp_query]
  cases hget : s.clients.get? id with
  | none => exact hdrop
  | some c =>
      dsimp only
      split
      · exact .refl id s
      · next hdue =>
          simp only [wp_bind, wp_query]
          have hnone : s.operator c.adminId = none := by
            simpa [hget] using h.resolve_left hdue
          rw [hnone]
          exact hdrop

/-- A rule of the client leaves its status current, unless it extends an expiry that has passed. -/
theorem runRule_current {id : ClientId} {rule : AutoRenewRule} {s : Site}
    (hdue : rule.nextAt ≤ (s.base.now : ℤ))
    (hadmin : ((s.clients.get? id).bind fun c => s.operator c.adminId).isSome)
    (hdate : rule.extendExpiry → ∀ c ∈ s.clients.get? id,
      c.status = .disabled ∨ ¬c.expiresAt.any (· < (s.base.now : ℤ)) = true) :
    Prog.wp (runRule s.base.now id rule) (fun _ => Current id) (fun _ _ => False) s := by
  obtain ⟨admin, hadmin⟩ := Option.isSome_iff_exists.mp hadmin
  obtain ⟨c, hget, hadmin⟩ := Option.bind_eq_some_iff.mp hadmin
  simp only [runRule, read, wp_bind, wp_query, hget]
  rw [if_neg (by omega)]
  simp only [wp_bind, wp_query, hadmin]
  refine runCycle_current hget ?_ fun hext => hdate hext c hget
  obtain ⟨hid, -, -⟩ := operator_account hadmin
  simp [inScope, Operator.actor, hid]

/-- A loop over rows of which at most one is the client's. -/
theorem loop_current {id : ClientId} {ρ β γ : Type} {body : ClientId × ρ → Task β}
    {loop : List (ClientId × ρ) → Task γ} {join : β → γ → γ}
    (hnil : (loop []).Keeps (SameClient id))
    (hcons : ∀ row rows, loop (row :: rows) = body row >>= fun x => loop rows >>= fun y =>
      pure (join x y))
    (hothers : ∀ row, row.1 ≠ id → (body row).Keeps (SameClient id)) (rows : List (ClientId × ρ))
    (hnodup : (rows.map Prod.fst).Nodup) (s : Site) (hlag : Lagging id s)
    (hown : ∀ s₁, SameClient id s s₁ → ∀ row ∈ rows, row.1 = id →
      Prog.wp (body row) (fun _ => Current id) (fun _ _ => False) s₁)
    (hnone : id ∉ rows.map Prod.fst → Current id s) :
    Prog.wp (loop rows) (fun _ => Current id) (fun _ => Lagging id) s := by
  induction rows generalizing s with
  | nil =>
      exact wp_mono _ (wp_of_sameClient hnil s) (fun _ _ h => h.current (hnone List.not_mem_nil))
        fun _ _ h => h.lagging hlag
  | cons row rows ih =>
      obtain ⟨hrow, hnodup⟩ := List.nodup_cons.mp hnodup
      rw [hcons, wp_bind]
      by_cases hid : row.1 = id
      · subst hid
        refine wp_mono _ (hown s (.refl _ s) row List.mem_cons_self rfl) (fun tick s₁ h₁ => ?_)
          fun _ _ h => h.elim
        rw [wp_bind]
        refine wp_mono _ (ih hnodup s₁ h₁.lagging (fun s₂ _ row' hrow' hid => ?_) fun _ => h₁)
          (fun _ _ h => h) fun _ _ h => h
        exact absurd (List.mem_map.mpr ⟨row', hrow', hid⟩) hrow
      · refine wp_mono _ (wp_of_sameClient (hothers row hid) s) (fun tick s₁ h₁ => ?_)
          fun _ s₁ h₁ => h₁.lagging hlag
        rw [wp_bind]
        refine wp_mono _ (ih hnodup s₁ (h₁.lagging hlag)
          (fun s₂ h₂ row' hrow' hid' => ?_) fun hmem => ?_) (fun _ _ h => h) fun _ _ h => h
        · exact hown s₂ (h₁.trans _ _ _ h₂) row' (List.mem_cons_of_mem row hrow') hid'
        · refine h₁.current (hnone ?_)
          rw [List.map_cons, List.mem_cons, not_or]
          exact ⟨Ne.symm hid, hmem⟩

/-- The one row under a key is the one that is found. -/
theorem find_key {ρ : Type} {rows : List (ClientId × ρ)} (hnodup : (rows.map Prod.fst).Nodup)
    {row : ClientId × ρ} (hrow : row ∈ rows) : (rows.find? fun r => r.1 = row.1) = some row := by
  cases hfind : rows.find? fun r => r.1 = row.1 with
  | none => exact absurd (List.find?_eq_none.mp hfind row hrow) (by simp)
  | some found =>
      have hkey : found.1 = row.1 := by simpa using List.find?_some hfind
      rw [List.inj_on_of_nodup_map hnodup (List.mem_of_find?_eq_some hfind) hrow hkey]

/-- A tick leaves the status of a client current, unless it extends an expiry that has passed; a
client whose rule it does not run keeps its status. -/
theorem runAutoRenew_current {id : ClientId} (limit : ℕ) {s : Site} (hlag : Lagging id s)
    (hdue : ∀ rule, s.dueRule limit id = some rule → rule.extendExpiry → ∀ c ∈ s.clients.get? id,
      c.status = .disabled ∨ ¬c.expiresAt.any (· < (s.base.now : ℤ)) = true)
    (hidle : s.dueRule limit id = none → Punctual id s) :
    Prog.wp (runAutoRenew limit) (fun _ => Current id) (fun _ => Lagging id) s := by
  have hnodup : ((s.autoRenews.rows.take (max 1 limit)).map Prod.fst).Nodup :=
    s.autoRenews.nodup_keys.sublist ((List.take_sublist _ _).map Prod.fst)
  simp only [runAutoRenew, read, now, wp_bind, wp_query]
  refine @loop_current id _ _ _ (fun row => runRule s.base.now row.1 row.2)
    (runRules s.base.now) AutoRenewTick.add (keeps_pure _) (fun _ _ => rfl)
    (fun row hid => runRule_sameClient hid _ row.2) _ hnodup s hlag
    (fun s₁ h₁ row hrow hid => ?_) fun hmem => ?_
  · subst hid
    have hfind : ((s.autoRenews.rows.take (max 1 limit)).find? fun r => r.1 = row.1).map Prod.snd =
        some row.2 := by
      rw [find_key hnodup hrow]
      rfl
    have hoperator : ((s₁.clients.get? row.1).bind fun c => s₁.operator c.adminId) =
        (s.clients.get? row.1).bind fun c => s.operator c.adminId := by
      rw [h₁.client]
      exact congrArg _ (funext fun c => h₁.operator c.adminId)
    rw [← h₁.now]
    by_cases hrule : row.2.nextAt ≤ (s.base.now : ℤ) ∧
        ((s.clients.get? row.1).bind fun c => s.operator c.adminId).isSome
    · have hsome : s.dueRule limit row.1 = some row.2 := by
        rw [dueRule, hfind, Option.filter_some, if_pos (by simpa using hrule)]
      refine runRule_current (by rw [h₁.now]; exact hrule.1) (by rw [hoperator]; exact hrule.2)
        fun hext => ?_
      rw [h₁.client, h₁.now]
      exact hdue row.2 hsome hext
    · have hnone : s.dueRule limit row.1 = none := by
        rw [dueRule, hfind, Option.filter_some, if_neg (by simpa using hrule)]
      have hcurrent := h₁.current (hlag.current (hidle hnone))
      refine wp_mono _ (runRule_idle ?_) (fun _ _ h => h.current hcurrent) fun _ _ h => h
      rw [hoperator, h₁.now]
      rcases not_and_or.mp hrule with hlater | hnone
      · exact .inl (by omega)
      · exact .inr (by simpa using hnone)
  · refine hlag.current (hidle ?_)
    have hfind : ((s.autoRenews.rows.take (max 1 limit)).find? fun r => r.1 = id) = none := by
      rw [List.find?_eq_none]
      intro row hrow hid
      exact hmem (List.mem_map.mpr ⟨row, hrow, by simpa using hid⟩)
    rw [dueRule, hfind]
    rfl

/-! ## Delayed starts -/

/-- The days of the client that begin now because it has been connected. -/
def dueStart (s : Site) (limit : ℕ) (id : ClientId) : Option ℕ :=
  (((s.pendingStarts.rows.take (max 1 limit)).find? fun r => r.1 = id).map Prod.snd).filter fun _ =>
    (s.clients.get? id).any fun c =>
      c.expiresAt.isNone && !(c.usedUp + c.usedDown ≤ 0 && c.lastOnlineAt.isNone)

/-- So does the removal of a pending start. -/
theorem dropPendingStart_sameClient {id : ClientId} (id' : ClientId) :
    (dropPendingStart id').Keeps (SameClient id) :=
  write_sameClient (fun _ => rfl) (fun _ => rfl) fun _ => rfl

/-- So does the start of another. -/
theorem activateStart_sameClient {id id' : ClientId} (hid : id' ≠ id) (days : ℕ) :
    (activateStart id' days).Keeps (SameClient id) := by
  refine keeps_bind (keeps_sameClient (read_annotated _)) fun client => ?_
  cases client with
  | none => exact keeps_bind (dropPendingStart_sameClient id') fun _ => keeps_pure _
  | some client =>
      refine keeps_ite (keeps_bind (dropPendingStart_sameClient id') fun _ => keeps_pure _)
        (keeps_ite (keeps_pure _) (keeps_bind (keeps_sameClient (read_annotated _)) fun t => ?_))
      exact keeps_bind (writeRow_sameClient hid _ _ _) fun _ =>
        keeps_bind (dropPendingStart_sameClient id') fun _ => keeps_pure _

/-- A start that is not due leaves the client alone. -/
theorem activateStart_idle {id : ClientId} {days : ℕ} {s : Site}
    (h : ∀ c ∈ s.clients.get? id, c.expiresAt.isSome ∨
      (c.usedUp + c.usedDown ≤ 0 && c.lastOnlineAt.isNone) = true) :
    Prog.wp (activateStart id days) (fun _ => SameClient id s) (fun _ _ => False) s := by
  simp only [activateStart, read, wp_bind, wp_query]
  cases hget : s.clients.get? id with
  | none => exact ⟨rfl, rfl, rfl, rfl⟩
  | some c =>
      dsimp only
      split
      · exact ⟨rfl, rfl, rfl, rfl⟩
      · next hnone =>
          rw [if_pos ((h c hget).resolve_left hnone)]
          exact .refl id s

/-- A start that is due leaves the status of its client current, unless its date is past. -/
theorem activateStart_current {id : ClientId} {days : ℕ} {c : Client} {s : Site}
    (hget : s.clients.get? id = some c) (hnone : c.expiresAt.isNone)
    (hseen : ¬(c.usedUp + c.usedDown ≤ 0 && c.lastOnlineAt.isNone) = true)
    (hderived : DerivedAt c s.base.now)
    (hdate : c.status = .disabled ∨ ¬c.lastOnlineAt.getD s.base.now + days * DAY_MS <
      (s.base.now : ℤ)) :
    Prog.wp (activateStart id days) (fun _ => Current id) (fun _ _ => False) s := by
  rw [Option.isNone_iff_eq_none] at hnone
  simp only [activateStart, read, now, wp_bind, wp_query, hget]
  rw [if_neg (by simp [hnone]), if_neg hseen]
  simp only [updateRow, writeRow, wp_bind, wp_query, wp_step]
  rw [hget]
  dsimp only
  intro c' hc'
  simp only [Table.get?_modify_self, hget] at hc'
  obtain rfl := Option.some.inj hc'
  refine derivedAt_extended (c := { c with note := withoutPendingNote c.note }) hderived
    (.inr ?_) ?_
  · simp [hnone]
  · exact hdate.imp_right fun hlater hpast => hlater (of_decide_eq_true hpast)

/-- A tick leaves the status of a client current, unless it gives a client that is not disabled a
date that is past. -/
theorem activatePendingStarts_current {id : ClientId} (limit : ℕ) {s : Site} (hlag : Lagging id s)
    (hdue : ∀ days, s.dueStart limit id = some days → ∀ c ∈ s.clients.get? id,
      c.status = .disabled ∨ ¬c.lastOnlineAt.getD s.base.now + days * DAY_MS < (s.base.now : ℤ))
    (hidle : s.dueStart limit id = none → Punctual id s) :
    Prog.wp (activatePendingStarts limit) (fun _ => Current id) (fun _ => Lagging id) s := by
  have hnodup : ((s.pendingStarts.rows.take (max 1 limit)).map Prod.fst).Nodup :=
    s.pendingStarts.nodup_keys.sublist ((List.take_sublist _ _).map Prod.fst)
  simp only [activatePendingStarts, read, wp_bind, wp_query]
  -- the rows have different clients, so the loop comes to this one at most once
  refine @loop_current id _ _ _ (fun row => activateStart row.1 row.2) activateStarts
    (fun started n => started.toNat + n) (keeps_pure _) (fun _ _ => rfl)
    (fun row hid => activateStart_sameClient hid row.2) _ hnodup s hlag
    (fun s₁ h₁ row hrow hid => ?_) fun hmem => ?_
  · subst hid
    have hfind : ((s.pendingStarts.rows.take (max 1 limit)).find? fun r =>
        r.1 = row.1).map Prod.snd = some row.2 := by
      rw [find_key hnodup hrow]
      rfl
    by_cases hready : (s.clients.get? row.1).any (fun c =>
        c.expiresAt.isNone && !(c.usedUp + c.usedDown ≤ 0 && c.lastOnlineAt.isNone)) = true
    · have hsome : s.dueStart limit row.1 = some row.2 := by
        rw [dueStart, hfind, Option.filter_some, if_pos hready]
      obtain ⟨c, hget⟩ : ∃ c, s.clients.get? row.1 = some c := by
        cases hget : s.clients.get? row.1 with
        | none =>
            rw [hget] at hready
            cases hready
        | some c => exact ⟨c, rfl⟩
      have hwaits := hready
      rw [hget, Option.any_some] at hwaits
      rw [Bool.and_eq_true, Bool.not_eq_true', Bool.eq_false_iff] at hwaits
      obtain ⟨t, -, hderived⟩ := hlag c hget
      refine activateStart_current (h₁.client.trans hget) hwaits.1 hwaits.2 ?_ ?_
      -- without an expiry the derived status does not depend on the time
      · rw [Option.isNone_iff_eq_none] at hwaits
        unfold DerivedAt derivedStatus at hderived ⊢
        rw [hwaits.1] at hderived ⊢
        exact hderived
      · rw [h₁.now]
        exact hdue row.2 hsome c hget
    · have hnone : s.dueStart limit row.1 = none := by
        rw [dueStart, hfind, Option.filter_some, if_neg hready]
      refine wp_mono _ (activateStart_idle fun c hc => ?_)
        (fun _ _ h => h.current (h₁.current (hlag.current (hidle hnone)))) fun _ _ h => h
      rw [h₁.client] at hc
      rw [Option.mem_def.mp hc, Option.any_some, Bool.and_eq_true, Bool.not_eq_true', not_and_or,
        Bool.not_eq_false] at hready
      exact hready.imp_left fun h => by
        rwa [← Option.not_isSome, Bool.not_eq_true', Bool.not_eq_false] at h
  · refine hlag.current (hidle ?_)
    have hfind : ((s.pendingStarts.rows.take (max 1 limit)).find? fun r => r.1 = id) = none := by
      rw [List.find?_eq_none]
      intro row hrow hid
      exact hmem (List.mem_map.mpr ⟨row, hrow, by simpa using hid⟩)
    rw [dueStart, hfind]
    rfl

end Site

end SRPanel
