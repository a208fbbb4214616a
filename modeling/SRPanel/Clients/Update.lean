import SRPanel.Delivery.Frame

/-!
# What `updateClient` does

A call of `updateClient` that runs alone either refuses, by a verdict that its guards reach in the
state that it finds, or it leaves the state `Site.updated`, up to what a push to the panels writes.
A refusal by the last guard comes after the pending start has been cleared.
-/

namespace SRPanel

open Interleaving Prog

/-! ## Charging a wallet -/

/-- The seller pays for the client: owners and amounts of zero are free. -/
def Operator.pays (actor : Operator) (cost : ℤ) : Bool := 0 < cost && actor.role ≠ .owner

namespace World

/-- The balance that `walletBalance` reads. -/
def balance (w : World) (id : AdminId) : ℤ := ((w.admins.get? id).map Admin.credit).getD 0

/-- The purchase for a client is booked. -/
def bill (w : World) (actor : Operator) (cost : ℤ) (id : ClientId) : World :=
  if actor.pays cost then
    { w with
      admins := w.admins.modify actor.id fun a => { a with credit := w.balance actor.id + -cost }
      walletTxs := ⟨actor.id, .purchase, -cost, w.balance actor.id + -cost, .client id, none⟩ ::
        w.walletTxs }
  else w

/-- The wallet covers the cost, within the credit limit. -/
def Covers (w : World) (actor : Operator) (cost : ℤ) : Prop :=
  actor.pays cost → -(w.creditLimit : ℤ) ≤ w.balance actor.id - cost

instance (w : World) (actor : Operator) (cost : ℤ) : Decidable (w.Covers actor cost) :=
  inferInstanceAs (Decidable (_ → _))

@[simp] theorem bill_rest (w : World) (actor : Operator) (cost : ℤ) (id : ClientId) :
    ({ w.bill actor cost id with admins := w.admins, walletTxs := w.walletTxs } : World) = w := by
  unfold bill
  split <;> rfl

end World

namespace Site

/-- The store that a charge leaves. -/
def billed (s : Site) (actor : Operator) (cost : ℤ) (id : ClientId) : Site :=
  { s with base := s.base.bill actor cost id }

/-- What follows the commit of a charge only logs. -/
private theorem alertAfter_wp (row : WalletTx AdminId) (w : World) :
    Prog.wp (alertAfter row) (fun _ w' => Logged w w') (fun _ _ => False) w := by
  have hframe := (alertAfter_keeps_logged row).wp Logged.refl (fun _ _ _ h h' => h'.trans h) w
  have hreturns := (alertAfter_returns row).wp w
  exact wp_mono _ (wp_and hframe hreturns) (fun _ _ h => h.1) fun _ _ h => h.2

private theorem balance_eq_of_get? {w : World} {id : AdminId} {a : Admin}
    (ha : w.admins.get? id = some a) : w.balance id = a.credit := by
  rw [World.balance, ha]
  rfl

/-- A charge is booked if the wallet covers it, and refused otherwise. -/
theorem chargeFor_spec (actor : Operator) (cost : ℤ) (id : ClientId) (s : Site)
    (hrow : (s.base.admins.get? actor.id).isSome) :
    Prog.wp (chargeFor actor cost id)
      (fun _ s' => s.base.Covers actor cost ∧ (s.billed actor cost id).Logs s')
      (fun _ s' => ¬s.base.Covers actor cost ∧ s' = s) s := by
  obtain ⟨a, ha⟩ := Option.isSome_iff_exists.mp hrow
  have hbal := balance_eq_of_get? ha
  unfold chargeFor
  by_cases hcost : 0 < cost
  · rw [if_pos hcost]
    simp only [lift, wp_bind, wp_zoom, wp_pure, world_get, world_put]
    unfold chargeWallet
    -- the owner is not charged
    by_cases hfree : actor.role = .owner
    · have hpays : actor.pays cost = false := by simp [Operator.pays, hfree]
      rw [if_pos (by simp [Operator.actor, hfree]), wp_pure]
      have hcovers : s.base.Covers actor cost := fun h => by rw [hpays] at h; cases h
      have hbill : s.billed actor cost id = s := by simp [billed, World.bill, hpays]
      rw [hbill]
      exact ⟨hcovers, Logs.refl s⟩
    · have hpays : actor.pays cost = true := by simp [Operator.pays, hcost, hfree]
      rw [if_neg (by simp [Operator.actor, hfree]), if_neg (by omega)]
      simp only [wp_bind, debitLimit, Db.read]
      rw [if_pos (by simp; omega)]
      simp only [wp_query, Operator.actor]
      split
      · next hnone => exact absurd (ha.symm.trans hnone) (by simp)
      next b hb =>
      obtain rfl := Option.some.inj (ha.symm.trans hb)
      -- the test of the credit limit is the verdict on the charge
      by_cases hcredit : a.credit + -cost < -(s.base.creditLimit : ℤ)
      · rw [if_pos (by simpa using hcredit), wp_throw]
        refine ⟨fun h => ?_, rfl⟩
        have hle := h hpays
        rw [hbal] at hle
        omega
      · rw [if_neg (by simpa using hcredit)]
        simp only [wp_bind, commitCharge, wp_step]
        rw [ha]
        dsimp only
        refine wp_mono _ (alertAfter_wp _ _) (fun _ w' h => ?_) fun _ _ h => h.elim
        refine ⟨fun _ => by rw [hbal]; omega, ?_⟩
        have hbill : s.billed actor cost id = { s with base := s.base.bill actor cost id } := rfl
        rw [hbill, World.bill, if_pos hpays, hbal]
        exact ⟨rfl, h⟩
  · have hpays : actor.pays cost = false := by simp [Operator.pays, hcost]
    rw [if_neg hcost, wp_pure]
    have hcovers : s.base.Covers actor cost := fun h => by rw [hpays] at h; cases h
    have hbill : s.billed actor cost id = s := by simp [billed, World.bill, hpays]
    rw [hbill]
    exact ⟨hcovers, Logs.refl s⟩

end Site

/-! ## The guards -/

/-- The patch sets a date. -/
def UpdateClientInput.dates (input : UpdateClientInput) : Bool :=
  input.expiresAt.isSome || (input.addDays.filter (· ≠ 0)).isSome

/-- What `updateClient` has settled on when its guards have passed. -/
structure Change where
  current : FullClient
  data : ClientData
  cost : ℤ

namespace Site

/-- What the guards of `updateClient` come to. -/
def updateVerdict (s : Site) (actor : Operator) (id : ClientId) (input : UpdateClientInput) :
    Except AppError Change := do
  let current ← ((getClientForActor actor.actor id).run s).1
  let data ← ((updateData actor current input).run s).1
  let cost ← ((updateCost actor current input).run s).1
  pure ⟨current, data, cost⟩

/-- The pending start is cleared if the patch sets a date. -/
def startSettled (s : Site) (id : ClientId) (input : UpdateClientInput) : Site :=
  if input.dates then { s with pendingStarts := s.pendingStarts.erase id } else s

/-- The state after an update, up to the push to the panels. -/
def updated (s : Site) (actor : Operator) (input : UpdateClientInput) (cause : Option OrderId)
    (x : Change) : Site :=
  { (s.startSettled x.current.id input) with
    base := s.base.bill actor x.cost x.current.id
    clients := s.clients.modify x.current.id x.data.apply
    deliveries := s.deliveries.deliver cause }

/-- The counters of a client are the sums of those of its links. -/
def Tallied (s : Site) (id : ClientId) : Prop :=
  ∀ c, s.clients.get? id = some c → c.usedUp = ((s.linksOf id).map fun l => l.2.up).sum ∧
    c.usedDown = ((s.linksOf id).map fun l => l.2.down).sum

theorem Tallied.annotated {s s' : Site} {id : ClientId} (h : s.Tallied id) (hs : Annotated s s') :
    s'.Tallied id := by
  intro c hc
  rw [hs.same Site.clients fun _ => rfl] at hc
  rw [hs.linksOf id (fun l => l.2.up) fun _ => rfl, hs.linksOf id (fun l => l.2.down) fun _ => rfl]
  exact h c hc

theorem getClientForActor_reads (actor : Actor) (id : ClientId) :
    (getClientForActor actor id).Reads (· = ·) := by
  refine reads_bind (reads_query fun _ _ h => by rw [h]) fun client => ?_
  cases client with
  | none => exact reads_throw _
  | some client => exact reads_pure client

theorem getClientForActor_run (actor : Actor) (id : ClientId) (s : Site) :
    (getClientForActor actor id).run s = (match s.clientOf actor id with
      | none => .error (notFoundError "کلاینت پیدا نشد")
      | some client => .ok client, s) := by
  simp only [getClientForActor, read, run_bind, run_query]
  cases s.clientOf actor id with
  | none => rfl
  | some client => rfl

theorem getClientForActor_yields (actor : Actor) (id : ClientId) :
    (getClientForActor actor id).Yields fun client => client.id = id := by
  refine yields_bind (yields_step (Q := fun c : Option FullClient => ∀ client ∈ c, client.id = id)
    fun s a h => ?_) fun client hclient => ?_
  · obtain rfl := Except.ok.inj h
    rintro client hfound
    obtain ⟨c, -, rfl⟩ := Option.map_eq_some_iff.mp hfound
    rfl
  · cases client with
    | none => exact yields_throw _
    | some client => exact yields_pure (hclient client rfl)

theorem clientOf_isSome (s : Site) (actor : Actor) (id : ClientId) :
    (s.clientOf actor id).isSome = ((s.clients.get? id).map Client.settled).any
    (inScope actor) := by
  unfold clientOf
  cases s.clients.get? id with
  | none => rfl
  | some c =>
      show (Option.map _ (if inScope actor c then some c else none)).isSome =
          inScope actor c.settled
      have hscope : inScope actor c.settled = inScope actor c := rfl
      rw [hscope]
      split
      · next h => rw [h]; rfl
      · next h => simpa using h

/-- A client that is found before a push is found after it. -/
theorem getClientForActor_found {s s' : Site} {actor : Actor} {id : ClientId} (h : Synced s s')
    (hfound : (s.clientOf actor id).isSome) :
    Prog.wp (getClientForActor actor id) (fun _ t => t = s') (fun _ _ => False) s' := by
  have hsome : (s'.clientOf actor id).isSome := by
    rw [clientOf_isSome, h.client id, ← clientOf_isSome]
    exact hfound
  obtain ⟨client, hclient⟩ := Option.isSome_iff_exists.mp hsome
  simp only [Prog.wp, getClientForActor_run, hclient]

/-- A recomputation makes the counters of the client those of its links. -/
theorem recomputeClient_wp (id : ClientId) (s : Site) :
    Prog.wp (recomputeClient id) (fun _ s' => Pushed s s' ∧ s'.Tallied id)
      (fun _ _ => False) s := by
  have hframe := (recomputeClient_pushed id).wp Pushed.refl Pushed.trans s
  suffices htally : Prog.wp (recomputeClient id) (fun _ s' => s'.Tallied id)
      (fun _ _ => False) s from
    wp_mono _ (wp_and hframe htally) (fun _ _ h => h) fun _ _ h => h.2
  simp only [recomputeClient, read, wp_bind, wp_query]
  cases hc : s.clients.get? id with
  | none => exact fun c h => by rw [hc] at h; cases h
  | some c =>
      simp only [Option.map_some, wp_bind, writeRow, wp_step, hc]
      refine wp_mono _ (wp_and
        ((keeps_ite (keeps_pure ()) (onClientStatusChanged_annotated c _)).wp Annotated.refl
          Annotated.trans _)
        ((returns_ite (returns_pure ()) (onClientStatusChanged_returns c _)).wp _))
        (fun _ s' h => Tallied.annotated ?_ h.1) fun _ _ h => h.2
      intro c' hc'
      rw [Table.get?_modify_self, hc] at hc'
      obtain rfl := Option.some.inj hc'
      exact ⟨rfl, rfl⟩

theorem settleStart_wp (id : ClientId) (input : UpdateClientInput) {Q : Unit → Site → Prop}
    {E : AppError → Site → Prop} {s : Site} :
    Prog.wp (settleStart id input) Q E s ↔ Q () (s.startSettled id input) := by
  unfold settleStart startSettled UpdateClientInput.dates
  split
  · exact wp_modify _ _
  · exact wp_pure _

theorem clientOf_id {s : Site} {actor : Actor} {id : ClientId} {current : FullClient}
    (h : s.clientOf actor id = some current) :
    current.id = id ∧ s.clients.get? id = some current.row ∧ inScope actor current.row := by
  obtain ⟨c, hc, rfl⟩ := Option.map_eq_some_iff.mp h
  obtain ⟨hget, hscope⟩ := Option.filter_eq_some_iff.mp hc
  exact ⟨rfl, hget, hscope⟩

theorem refuseIf_run (c : Bool) (e : AppError) (s : Site) :
    (refuseIf c e).run s = (if c then .error e else .ok (), s) := by
  cases c <;> rfl

/-- A price that `assertAffordable` lets pass is covered by the wallet. -/
theorem assertAffordable_covers {s : Site} {actor : Operator} {cost : ℤ}
    (h : ((assertAffordable actor cost).run s).1 = .ok ()) : s.base.Covers actor cost := by
  intro hpays
  obtain ⟨hcost, hrole⟩ : 0 < cost ∧ actor.role ≠ .owner := by simpa [Operator.pays] using hpays
  unfold assertAffordable at h
  rw [if_neg (by simp [hrole]; omega)] at h
  by_contra hlt
  simp only [lift, run_bind, run_zoom, Db.read, run_query, walletBalance,
    Focus.put_get] at h
  simp only [world_get, refuseIf_run] at h
  have hrefuse : (s.base.balance actor.id - cost < -(s.base.creditLimit : ℤ)) := by omega
  unfold World.balance at hrefuse
  split at h
  · cases h
  · next hpass => exact hpass (decide_eq_true hrefuse)

/-- The price that `updateCost` asks is covered. -/
theorem updateCost_covers {s : Site} {actor : Operator} {current : FullClient}
    {input : UpdateClientInput} {cost : ℤ}
    (h : ((updateCost actor current input).run s).1 = .ok cost) : s.base.Covers actor cost := by
  unfold updateCost at h
  dsimp only at h
  split at h
  · rw [run_bind] at h
    rcases hrun : (renewCost actor _ _).run s with ⟨e | c, s'⟩
    · rw [hrun] at h
      cases h
    · rw [hrun] at h
      obtain rfl : s' = s := by
        exact (congrArg Prod.snd hrun).symm.trans ((renewCost_reads actor _ _).run_snd s)
      dsimp only at h
      rw [run_bind] at h
      rcases hafford : (assertAffordable actor c).run s' with ⟨e | u, t⟩
      · rw [hafford] at h
        cases h
      · rw [hafford] at h
        obtain rfl : c = cost := by injection h
        exact assertAffordable_covers (by rw [hafford])
  · obtain rfl : 0 = cost := by injection h
    intro hpays
    simp [Operator.pays] at hpays

/-- What the guards of `updateClient` have found when they pass. -/
structure Accepted (s : Site) (actor : Operator) (id : ClientId) (input : UpdateClientInput)
    (x : Change) : Prop where
  found : s.clientOf actor.actor id = some x.current
  limit : ((updateLimit actor x.current input.trafficGB).run s).1 = .ok x.data.trafficLimit
  expiry : x.data.expiresAt = newExpiry x.current.row input s.base.now
  status : x.data.status = input.enabled.map fun b => if b then .active else .disabled
  cost : ((updateCost actor x.current input).run s).1 = .ok x.cost

theorem clientOf_of_run {s : Site} {actor : Actor} {id : ClientId} {current : FullClient}
    (h : ((getClientForActor actor id).run s).1 = .ok current) :
    s.clientOf actor id = some current := by
  rw [getClientForActor_run] at h
  cases hfound : s.clientOf actor id with
  | none => rw [hfound] at h; cases h
  | some c => rw [hfound] at h; rw [Except.ok.inj h]

theorem updateVerdict_accepted {s : Site} {actor : Operator} {id : ClientId}
    {input : UpdateClientInput} {x : Change} (h : s.updateVerdict actor id input = .ok x) :
    s.Accepted actor id input x := by
  unfold updateVerdict at h
  rcases hclient : ((getClientForActor actor.actor id).run s).1 with e | current
  · rw [hclient] at h
    cases h
  · rw [hclient] at h
    change Except.bind ((updateData actor current input).run s).1 _ = _ at h
    rcases hdata : ((updateData actor current input).run s).1 with e | data
    · rw [hdata] at h
      cases h
    · rw [hdata] at h
      change Except.bind ((updateCost actor current input).run s).1 _ = _ at h
      rcases hcost : ((updateCost actor current input).run s).1 with e | cost
      · rw [hcost] at h
        cases h
      · rw [hcost] at h
        obtain rfl := Except.ok.inj h
        unfold updateData at hdata
        obtain ⟨_, -, hdata⟩ := (refuseIf_reads (V := (· = ·)) _ _).bind_ok hdata
        obtain ⟨limit, hlimit, hdata⟩ := (updateLimit_reads _ _ _).bind_ok hdata
        obtain ⟨t, ht, hdata⟩ := now_reads.bind_ok hdata
        obtain rfl := Except.ok.inj ht
        obtain rfl := Except.ok.inj hdata
        exact ⟨clientOf_of_run hclient, hlimit, rfl, rfl, hcost⟩

/-- The expiry of a patch with `addDays`. -/
theorem newExpiry_addDays (c : Client) {input : UpdateClientInput} (t : ℤ) {days : ℤ}
    (h : input.addDays = some days) :
    newExpiry c input t =
      if days = 0 then input.expiresAt else some (some (max (c.expiresAt.getD t) t +
        days * DAY_MS)) := by
  unfold newExpiry
  rw [h, Option.filter_some]
  by_cases hdays : days = 0
  · rw [if_neg (by simp [hdays]), if_pos hdays]
  · rw [if_pos (by simpa using hdays), if_neg hdays]

/-- A limit that a patch sets has passed the guards for it. -/
theorem updateLimit_some {s : Site} {actor : Operator} {current : FullClient} {gb : ℚ}
    {limit : Option ℤ} (h : ((updateLimit actor current (some gb)).run s).1 = .ok limit) :
    limit = some (gbToBytes (max 0 gb)) ∧
      ((assertClientKind actor.actor (kindFromGB (max 0 gb)) current.row.serviceId (max 0 gb)
        (some current.id)).run s).1 = .ok () ∧
      ((assertQuota actor (gbToBytes (max 0 gb)) [] (some current.id)).run s).1 = .ok () := by
  unfold updateLimit at h
  obtain ⟨_, hkind, h⟩ := (assertClientKind_reads _ _ _ _ _).bind_ok h
  obtain ⟨_, hquota, h⟩ := (assertQuota_reads _ _ _ _).bind_ok h
  exact ⟨(Except.ok.inj h).symm, hkind, hquota⟩

/-- The row that an accepted update leaves, up to the columns that are counted again. -/
theorem Accepted.row {s s' : Site} {actor : Operator} {id : ClientId} {input : UpdateClientInput}
    {cause : Option OrderId} {x : Change} (h : s.Accepted actor id input x)
    (hs : Synced (s.updated actor input cause x) s') :
    ∃ c, s'.clients.get? id = some c ∧ c.settled = (x.data.apply x.current.row).settled := by
  obtain ⟨hid, hget, -⟩ := clientOf_id h.found
  have hrow : (s.updated actor input cause x).clients.get? id =
      some (x.data.apply x.current.row) := by
    show (s.clients.modify x.current.id _).get? id = _
    rw [hid, Table.get?_modify_self, hget]
    rfl
  have hclient := hs.client id
  rw [hrow] at hclient
  exact Option.map_eq_some_iff.mp hclient

/-! ## The operation -/

theorem startSettled_terms (s : Site) (id : ClientId) (input : UpdateClientInput) :
    SameTerms s (s.startSettled id input) := by
  unfold startSettled
  split <;> exact ⟨rfl, rfl, fun _ => rfl, rfl, rfl, rfl, rfl, rfl⟩

@[simp] theorem startSettled_base (s : Site) (id : ClientId) (input : UpdateClientInput) :
    (s.startSettled id input).base = s.base := by
  unfold startSettled
  split <;> rfl

@[simp] theorem startSettled_clients (s : Site) (id : ClientId) (input : UpdateClientInput) :
    (s.startSettled id input).clients = s.clients := by
  unfold startSettled
  split <;> rfl

@[simp] theorem startSettled_deliveries (s : Site) (id : ClientId) (input : UpdateClientInput) :
    (s.startSettled id input).deliveries = s.deliveries := by
  unfold startSettled
  split <;> rfl

/-- A lone `updateClient` leaves the updated state, or refuses by its verdict: then the state is the
one it found, but for the pending start. -/
theorem updateClient_spec (actor : Operator) (id : ClientId) (input : UpdateClientInput)
    (cause : Option OrderId) (s : Site) (hrow : (s.base.admins.get? actor.id).isSome) :
    Prog.wp (updateClient actor id input cause)
      (fun _ s' => ∃ x, s.updateVerdict actor id input = .ok x ∧
        Pushed (s.updated actor input cause x) s' ∧ s'.Tallied id)
      (fun _ s' => (∃ e, s.updateVerdict actor id input = .error e) ∧
        (s' = s ∨ (s.clients.get? id).isSome ∧ s' = s.startSettled id input)) s := by
  unfold updateClient
  rw [wp_bind, (getClientForActor_reads actor.actor id).wp_iff]
  -- a client that is not found is refused before anything is written
  rcases hclient : ((getClientForActor actor.actor id).run s).1 with e | current
  · exact ⟨⟨e, by simp [updateVerdict, hclient]; rfl⟩, .inl rfl⟩
  · dsimp only
    have hfound := clientOf_of_run hclient
    obtain ⟨hid, hget, hscope⟩ := clientOf_id hfound
    rw [wp_bind, (updateData_reads actor current input).wp_iff]
    rcases hdata : ((updateData actor current input).run s).1 with e | data
    · refine ⟨⟨e, ?_⟩, .inl rfl⟩
      rw [updateVerdict, hclient]
      show Except.bind ((updateData actor current input).run s).1 _ = _
      rw [hdata]
      rfl
    · dsimp only
      rw [wp_bind, settleStart_wp, wp_bind, (updateCost_reads actor current input).wp_iff,
        (updateCost_reads actor current input).run_fst (startSettled_terms s _ _)]
      -- the pending start has gone by now, also where the price is refused
      rcases hcost : ((updateCost actor current input).run s).1 with e | cost
      · refine ⟨⟨e, ?_⟩, .inr ⟨by rw [hget]; rfl, by rw [hid]⟩⟩
        rw [updateVerdict, hclient]
        show Except.bind ((updateData actor current input).run s).1 _ = _
        rw [hdata]
        show Except.bind ((updateCost actor current input).run s).1 _ = _
        rw [hcost]
        rfl
      -- the guards have passed: from here on nothing can fail
      · have hverdict : s.updateVerdict actor id input = .ok ⟨current, data, cost⟩ := by
          rw [updateVerdict, hclient]
          show Except.bind ((updateData actor current input).run s).1 _ = _
          rw [hdata]
          show Except.bind ((updateCost actor current input).run s).1 _ = _
          rw [hcost]
          rfl
        simp only [wp_bind, updateRow, writeRow, wp_step, startSettled_clients, hid, hget]
        refine wp_mono _ (chargeFor_spec actor cost id _ (by simpa using hrow)) (fun _ s₁ h₁ => ?_)
          fun _ _ h => absurd (updateCost_covers hcost) (by simpa using h.1)
        have hpush : Pushed (s.updated actor input cause ⟨current, data, cost⟩) s₁ := by
          have h₁ := h₁.2.pushed
          simpa [updated, billed, hid] using h₁
        have hkept : ((s.updated actor input cause ⟨current, data,
            cost⟩).clientOf actor.actor id).isSome := by
          rw [clientOf_isSome]
          simp only [updated, hid, Table.get?_modify_self, hget]
          exact hscope
        refine wp_mono _ (recomputeClient_wp id s₁) (fun _ s₂ h₂ => ?_) fun _ _ h => h.elim
        have hpush₂ := hpush.trans _ _ _ h₂.1
        refine wp_mono _ (getClientForActor_found hpush₂.synced hkept) (fun client s₃ h₃ => ?_)
          fun _ _ h => h.elim
        subst h₃
        refine wp_mono _ (wp_and ((pushClient_annotated client).wp Annotated.refl Annotated.trans _)
          ((pushClient_returns client).wp _)) (fun errors s₄ h₄ => ?_) fun _ _ h => h.2.elim
        refine wp_mono _ (wp_and ((lift_annotated (audit_keeps_logged _ _)).wp Annotated.refl
          Annotated.trans _) ((audit_returns _ _).zoom.wp _))
            (fun _ s₅ h₅ => ?_) fun _ _ h => h.2.elim
        have hpushed := h₄.1.trans _ _ _ h₅.1
        exact ⟨_, hverdict, hpush₂.trans _ _ _ hpushed.pushed, h₂.2.annotated hpushed⟩

end Site

end SRPanel
