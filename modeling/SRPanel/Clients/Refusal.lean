import SRPanel.Lib.Amid
import SRPanel.Billing.Prices
import SRPanel.Clients.Create

/-!
# Refused calls

`createClient` and `updateClient` check, write, charge and push without a transaction, while the
wallets are moved by others. A call that ends with an error has left nothing behind, provided that
the others never take the credit away that covers its price, and that a pending start which the
patch would clear is not cleared in front of a price that the wallet does not cover: `updateClient`
erases the pending start before it looks at the wallet.
-/

namespace SRPanel

open Interleaving Prog

/-- A world without the clock, the credits and the ledgers. -/
def World.unledgered (w : World) : World :=
  { w with
    now := 0
    admins := w.admins.mapRows fun _ a => { a with credit := 0 }
    customers := w.customers.mapRows fun _ c => { c with credit := 0 }
    walletTxs := []
    customerTxs := []
    journal := [] }

namespace Site

/-- A site without the clock, the credits and the ledgers. -/
def unledgered (s : Site) : Site := { s with base := s.base.unledgered }

/-- What others may do meanwhile: time passes, and wallets are credited and debited. -/
def WalletsMove (s s' : Site) : Prop := s'.unledgered = s.unledgered

namespace WalletsMove

variable {s s' : Site}

/-- Reads of what the movement of wallets does not write. -/
theorem same {α : Type} (h : WalletsMove s s') (f : Site → α) (hf : ∀ s, f s.unledgered = f s) :
    f s' = f s := by
  rw [← hf s', h, hf s]

/-- Moves of wallets leave the clients. -/
theorem clients (h : WalletsMove s s') : s'.clients = s.clients := h.same Site.clients fun _ => rfl

/-- They leave the links. -/
theorem links (h : WalletsMove s s') : s'.links = s.links := h.same Site.links fun _ => rfl

/-- They leave the prices. -/
theorem pricing (h : WalletsMove s s') : s'.pricing = s.pricing := h.same Site.pricing fun _ => rfl

/-- They leave the credit limits. -/
theorem creditLimit (h : WalletsMove s s') : s'.base.creditLimit = s.base.creditLimit :=
  h.same (fun s => s.base.creditLimit) fun _ => rfl

/-- They draw no id. -/
theorem nextId (h : WalletsMove s s') : s'.base.nextId = s.base.nextId :=
  h.same (fun s => s.base.nextId) fun _ => rfl

/-- They leave what is on offer. -/
theorem offers (h : WalletsMove s s') : s'.services = s.services ∧ s'.accounts = s.accounts :=
  ⟨h.same Site.services fun _ => rfl, h.same Site.accounts fun _ => rfl⟩

/-- So the same client is found. -/
theorem clientOf (h : WalletsMove s s') (actor : Actor) (id : ClientId) :
    s'.clientOf actor id = s.clientOf actor id := h.same (fun s => s.clientOf actor id) fun _ => rfl

/-- It costs the same. -/
theorem clientCost (h : WalletsMove s s') (actor : Operator) (gb : ℚ) (days : ℤ) :
    s'.clientCost actor gb days = s.clientCost actor gb days :=
  h.same (fun s => s.clientCost actor gb days) fun _ => rfl

/-- The accounts are there as before. -/
theorem admin (h : WalletsMove s s') (id : AdminId) :
    (s'.base.admins.get? id).isSome = (s.base.admins.get? id).isSome := by
  have hget := h.same (fun s => (s.unledgered.base.admins.get? id).isSome) fun s => by
    simp [unledgered, World.unledgered]
  simpa [unledgered, World.unledgered] using hget

end WalletsMove

/-- The actor finds the client. -/
def Finds (s : Site) (actor : Operator) (id : ClientId) : Prop := (s.clientOf actor.actor id).isSome

theorem Finds.synced {s s' : Site} {actor : Operator} {id : ClientId} (h : Synced s s')
    (hs : s.Finds actor id) : s'.Finds actor id := by
  unfold Finds at hs ⊢
  rw [clientOf_isSome, h.client id, ← clientOf_isSome]
  exact hs

theorem Finds.moved {s s' : Site} {actor : Operator} {id : ClientId} (h : WalletsMove s s')
    (hs : s.Finds actor id) : s'.Finds actor id := by
  unfold Finds
  rw [h.clientOf]
  exact hs

theorem Finds.of_clients {s s' : Site} {actor : Operator} {id : ClientId}
    (h : s'.clients = s.clients) (hs : s.Finds actor id) : s'.Finds actor id := by
  unfold Finds at hs ⊢
  rw [clientOf_isSome, h, ← clientOf_isSome]
  exact hs

/-- A patch leaves a client with its seller. -/
theorem Finds.modify {s : Site} {actor : Operator} {id : ClientId} (hs : s.Finds actor id)
    (data : ClientData) (cause : Option OrderId) : ({ s with
      clients := s.clients.modify id data.apply
      deliveries := s.deliveries.deliver cause } : Site).Finds actor id := by
  obtain ⟨client, hclient⟩ := Option.isSome_iff_exists.mp hs
  obtain ⟨-, hget, hscope⟩ := clientOf_id hclient
  unfold Finds
  rw [clientOf_isSome]
  simp only [Table.get?_modify_self, hget]
  exact hscope

/-- A charge leaves the clients and their links alone. -/
theorem chargeFor_keeps (actor : Operator) (cost : ℤ) (id : ClientId) :
    (chargeFor actor cost id).Keeps fun s s' => s'.clients = s.clients ∧ s'.links = s.links := by
  refine keeps_ite (keeps_bind ((zoom_frame world Mark.base _).mono fun s s' h => ?_)
    fun _ => keeps_pure _) (keeps_pure _)
  rw [← (h : world.put (world.get s') s = s')]
  exact ⟨rfl, rfl⟩

theorem Finds.row {s : Site} {actor : Operator} {id : ClientId} (hs : s.Finds actor id) :
    ∃ c, s.clients.get? id = some c := by
  obtain ⟨client, hclient⟩ := Option.isSome_iff_exists.mp hs
  exact ⟨_, (clientOf_id hclient).2.1⟩

section Call

variable {R : Site → Site → Prop} (hrefl : ∀ s, R s s)
    (htrans : ∀ s₁ s₂ s₃, R s₁ s₂ → R s₂ s₃ → R s₁ s₃)
variable (hmoves : ∀ s s', R s s' → WalletsMove s s')

include hrefl hmoves

/-! ## Prices and charges -/

section Price

include htrans

theorem quoteClientCost_amid (actor : Operator) (gb : ℚ) (days : ℤ) (s : Site) :
    Amid R (fun cost t => R s t ∧ cost = s.clientCost actor gb days) (fun _ t => R s t)
      (quoteClientCost actor gb days) s := by
  have hreads : (quoteClientCost actor gb days).Reads WalletsMove :=
    reads_ite (reads_pure 0) (reads_query fun s s' h => by rw [h.pricing])
  refine amid_mono (hreads.amid_run hmoves hrefl htrans s) (fun cost t h => ⟨h.1, ?_⟩) fun _ _ h =>
    h.1
  rw [quoteClientCost_run] at h
  exact (Except.ok.inj h.2).symm

theorem renewCost_amid (actor : Operator) (gb : ℚ) (days : ℤ) (s : Site) :
    Amid R (fun cost t => R s t ∧ cost = if s.pricing.chargeOnRenew then
      s.clientCost actor gb days else 0) (fun _ _ => False) (renewCost actor gb days) s := by
  have hreads : (renewCost actor gb days).Reads WalletsMove :=
    reads_bind (reads_query fun s s' h => by rw [h.pricing]) fun _ => reads_ite
      (reads_ite (reads_pure 0) (reads_query fun s s' h => by rw [h.pricing])) (reads_pure 0)
  refine amid_mono (hreads.amid_run hmoves hrefl htrans s) (fun cost t h => ⟨h.1, ?_⟩) fun _ _ h =>
    ?_
  · rw [renewCost_run] at h
    exact (Except.ok.inj h.2).symm
  · rw [renewCost_run] at h
    cases h.2

end Price

variable {actor : Operator} {cost : ℤ} (hcovers : ∀ s s', R s s' → s.base.Covers actor cost →
    s'.base.Covers actor cost)

include hcovers

omit hrefl in
/-- A guard that passes has seen the price covered, and one that refuses has not. -/
theorem assertAffordable_amid (s : Site) :
    Amid R (fun _ t => t.base.Covers actor cost) (fun _ _ => ¬s.base.Covers actor cost)
      (assertAffordable actor cost) s := by
  unfold assertAffordable
  split
  · next hfree =>
    refine amid_pure fun t _ hpays => ?_
    have hnot : actor.pays cost = false := by
      simp only [Bool.or_eq_true, decide_eq_true_eq] at hfree
      unfold Operator.pays
      rcases hfree with hcost | hrole
      · simp [not_lt.mpr hcost]
      · simp [hrole]
    rw [hnot] at hpays
    cases hpays
  · next hpaid =>
    have hpays : actor.pays cost = true := by
      simp only [Bool.or_eq_true, decide_eq_true_eq, not_or, not_le] at hpaid
      simp [Operator.pays, hpaid.1, hpaid.2]
    rw [lift, lift, Db.read, walletBalance, Db.read, zoom_query, zoom_query]
    refine amid_read fun t₁ h₁ => amid_read fun t₂ h₂ => ?_
    have hlimit := (hmoves _ _ h₂).creditLimit
    unfold refuseIf
    split
    · next hlow =>
      refine amid_throw fun t₃ _ hs => ?_
      have hcover := hcovers _ _ h₂ (hcovers _ _ h₁ hs) hpays
      rw [hlimit] at hcover
      exact absurd hcover (not_le.mpr (of_decide_eq_true hlow))
    · next henough =>
      refine amid_pure fun t₃ h₃ => hcovers _ _ h₃ fun _ => ?_
      rw [hlimit]
      exact not_lt.mp fun h => henough (decide_eq_true h)

/-- A price that is covered can be charged. -/
theorem chargeFor_amid (id : ClientId) (s : Site) (hrow : (s.base.admins.get? actor.id).isSome)
    (hcover : s.base.Covers actor cost) :
    Amid R (fun _ _ => True) (fun _ _ => False) (chargeFor actor cost id) s := by
  unfold chargeFor
  split
  · next hcost =>
    refine amid_bind hrefl (amid_mono (Q := fun _ _ => True) ?_
      (fun _ _ _ => amid_pure fun _ _ => trivial) fun _ _ h => h)
    unfold lift chargeWallet
    by_cases hrole : actor.role = .owner
    · rw [if_pos (by simp [Operator.actor, hrole])]
      exact amid_pure fun _ _ => trivial
    · have hpays : actor.pays cost = true := by simp [Operator.pays, hcost, hrole]
      rw [if_neg (by simp [Operator.actor, hrole]), if_neg (by omega), debitLimit,
        if_pos (by simp; omega), zoom_bind, Db.read, zoom_query]
      refine amid_read fun t₁ h₁ => ?_
      rw [zoom_bind, Db.read, zoom_query]
      refine amid_read fun t₂ h₂ => ?_
      have hrow₂ : (t₂.base.admins.get? actor.id).isSome := by
        rw [(hmoves _ _ h₂).admin, (hmoves _ _ h₁).admin]
        exact hrow
      obtain ⟨a, ha⟩ := Option.isSome_iff_exists.mp hrow₂
      have hcredit := hcovers _ _ h₂ (hcovers _ _ h₁ hcover) hpays
      rw [(hmoves _ _ h₂).creditLimit, World.balance, ha] at hcredit
      change -(t₁.base.creditLimit : ℤ) ≤ a.credit - cost at hcredit
      split
      · next hnone => exact absurd (ha.symm.trans hnone) (by simp)
      next b hb =>
      obtain rfl := Option.some.inj (ha.symm.trans hb)
      rw [if_neg (by simp; omega), zoom_bind, commitCharge, zoom_step]
      refine amid_step_bind fun t₃ h₃ => ?_
      have hrow₃ : (t₃.base.admins.get? actor.id).isSome := by
        rw [(hmoves _ _ h₃).admin]
        exact hrow₂
      obtain ⟨a', ha'⟩ := Option.isSome_iff_exists.mp hrow₃
      have hget : (world.get t₃).admins.get? actor.actor.id = some a' := ha'
      simp only [hget]
      exact ⟨_, _, rfl, (returns_bind (alertAfter_returns _) fun _ => returns_pure _).zoom.amid _⟩
  · exact amid_pure fun _ _ => trivial

omit hcovers

/-! ## Updates -/

omit hrefl in
/-- A procedure that does not fail, and that only synchronises, leaves the client findable. -/
theorem finds_amid {α : Type} {p : Task α} (hkeeps : p.Keeps Synced) {s : Site} {actor : Operator}
    {id : ClientId} (hs : s.Finds actor id) (hp : Amid R (fun _ _ => True) (fun _ _ => False) p s) :
    Amid R (fun _ t => t.Finds actor id) (fun _ _ => False) p s :=
  amid_mono (amid_and hp (hkeeps.amid (fun _ _ h h' => h'.synced h)
    (fun _ _ h h' => h'.moved (hmoves _ _ h)) hs)) (fun _ _ h => h.2) fun _ _ h => h.1

omit hrefl in
theorem getClientForActor_amid {s : Site} {actor : Operator} {id : ClientId}
    (hs : s.Finds actor id) :
    Amid R (fun _ _ => True) (fun _ _ => False) (getClientForActor actor.actor id) s := by
  unfold getClientForActor
  refine amid_read fun t ht => ?_
  obtain ⟨client, hclient⟩ := Option.isSome_iff_exists.mp (hs.moved (hmoves _ _ ht))
  rw [hclient]
  exact amid_pure fun _ _ => trivial

omit hrefl in
theorem recomputeClient_amid {s : Site} {actor : Operator} {id : ClientId} (hs : s.Finds actor id) :
    Amid R (fun _ t => t.Finds actor id) (fun _ _ => False) (recomputeClient id) s := by
  refine finds_amid hmoves (synced_of_pushed (recomputeClient_pushed id)) hs ?_
  unfold recomputeClient
  refine amid_read fun t ht => ?_
  have hfinds := hs.moved (hmoves _ _ ht)
  obtain ⟨c, hc⟩ := hfinds.row
  rw [hc]
  refine amid_step_bind fun t₁ h₁ => ?_
  obtain ⟨c₁, hc₁⟩ := (hfinds.moved (hmoves _ _ h₁)).row
  rw [hc₁]
  exact ⟨_, _, rfl, (returns_ite (returns_pure ()) (onClientStatusChanged_returns c _)).amid _⟩

/-- What `updateClient` does after its charge does not fail. -/
theorem afterCharge_amid {s : Site} {actor : Operator} {id : ClientId} (hs : s.Finds actor id) :
    Amid R (fun _ _ => True) (fun _ _ => False) (do
      recomputeClient id
      let client ← getClientForActor actor.actor id
      let errors ← pushClient client
      lift (audit (some actor.id) "client.update")
      pure (client, errors)) s := by
  refine amid_bind hrefl (amid_mono (recomputeClient_amid hmoves hs) (fun _ t ht => ?_) fun _ _ h =>
    h)
  refine amid_bind hrefl (amid_mono (getClientForActor_amid hmoves ht)
    (fun client t' _ => ?_) fun _ _ h => h)
  exact (returns_bind (pushClient_returns client) fun _ =>
    returns_bind (audit_returns _ _).zoom fun _ => returns_pure _).amid t'

include htrans hcovers

/-- The price of an update is found and covered, or the update is refused because it is not. -/
theorem updateCost_amid {current : FullClient} {input : UpdateClientInput} {s : Site}
    (hcost : cost = if s.pricing.chargeOnRenew then
      s.clientCost actor (input.extraGB current.row) input.extraDays
      else 0) :
    Amid R (fun c t => R s t ∧ c = cost ∧ t.base.Covers actor cost)
      (fun _ t => R s t ∧ ¬s.base.Covers actor cost) (updateCost actor current input) s := by
  unfold updateCost
  show Amid R _ _ (if actor.role ≠ .owner &&
      (0 < input.extraGB current.row || 0 < input.extraDays) then _
    else _ : Task ℤ) s
  split
  · refine amid_bind hrefl (amid_mono (renewCost_amid hrefl htrans hmoves actor _ _ s)
      (fun c t ht => ?_) fun _ _ h => h.elim)
    obtain ⟨hst, hc⟩ := ht
    obtain rfl : c = cost := hc.trans hcost.symm
    refine amid_bind hrefl (amid_mono (amid_and (assertAffordable_amid hmoves hcovers t)
      ((assertAffordable_reads actor c).amid hrefl htrans t)) (fun _ t' h => ?_) fun _ t' h => ?_)
    · exact amid_pure fun t'' h'' =>
      ⟨htrans _ _ _ hst (htrans _ _ _ h.2 h''), rfl, hcovers _ _ h'' h.1⟩
    · exact ⟨htrans _ _ _ hst h.2, fun hs => h.1 (hcovers _ _ hst hs)⟩
  · next hfree =>
    have hzero : cost = 0 := by
      rw [hcost]
      exact extraCost_zero hfree
    refine amid_pure fun t ht => ⟨ht, hzero.symm, ?_⟩
    rw [hzero]
    exact covers_zero _ _

/-- From its look at the wallet on, `updateClient` fails only if the wallet does not cover the
price, and then it changes nothing more. -/
theorem pricedUpdate_amid {current : FullClient} {input : UpdateClientInput}
    {cause : Option OrderId} {id : ClientId} {data : ClientData} {s : Site} (hid : current.id = id)
    (hrow : (s.base.admins.get? actor.id).isSome)
    (hfinds : s.Finds actor id)
    (hcost : cost = if s.pricing.chargeOnRenew then
      s.clientCost actor (input.extraGB current.row) input.extraDays
      else 0) :
    Amid R (fun _ _ => True) (fun _ t => R s t ∧ ¬s.base.Covers actor cost) (do
      let deltaCost ← updateCost actor current input
      updateRow current.id data.apply cause
      chargeFor actor deltaCost current.id
      recomputeClient current.id
      let client ← getClientForActor actor.actor id
      let errors ← pushClient client
      lift (audit (some actor.id) "client.update")
      pure (client, errors)) s := by
  obtain rfl := hid
  refine amid_bind hrefl (amid_mono (updateCost_amid hrefl htrans hmoves hcovers hcost)
    (fun c t ht => ?_) fun _ _ h => h)
  obtain ⟨hst, rfl, hcover⟩ := ht
  -- the wallet has covered the price, so nothing below can fail
  refine amid_mono (Q := fun _ _ => True) (E := fun _ _ => False) ?_ (fun _ _ h => h) fun _ _ h =>
    h.elim
  have hfinds_t := hfinds.moved (hmoves _ _ hst)
  refine amid_step_bind fun t₁ h₁ => ?_
  have hfinds₁ := hfinds_t.moved (hmoves _ _ h₁)
  obtain ⟨row, hrow₁⟩ := hfinds₁.row
  rw [hrow₁]
  refine ⟨_, _, rfl, ?_⟩
  have hfinds₂ := hfinds₁.modify data cause
  have hcover₁ := hcovers _ _ h₁ hcover
  refine amid_bind hrefl (amid_mono (amid_and (chargeFor_amid hrefl hmoves hcovers current.id _ ?_
    hcover₁) ((chargeFor_keeps actor c current.id).amid (I := fun t => t.Finds actor current.id)
      (fun _ _ h h' => h'.of_clients h.1) (fun _ _ h h' => h'.moved (hmoves _ _ h)) hfinds₂))
      (fun _ t₂ h₂ => ?_) fun _ _ h => h.1)
  · show (t₁.base.admins.get? actor.id).isSome
    rw [(hmoves _ _ h₁).admin, (hmoves _ _ hst).admin]
    exact hrow
  · exact afterCharge_amid hrefl hmoves h₂.2

/-- A refused `updateClient` has changed nothing, unless it has cleared a pending start in front of
a price that the wallet does not cover. -/
theorem updateClient_amid {id : ClientId} {input : UpdateClientInput}
    {cause : Option OrderId} {s : Site} (hrow : (s.base.admins.get? actor.id).isSome)
      (hcost : ∀ row, s.clients.get? id = some row →
        cost = if s.pricing.chargeOnRenew then
          s.clientCost actor (input.extraGB row) input.extraDays else 0)
    (hstart : s.pendingStarts.get? id = none ∨ input.dates = false ∨ s.base.Covers actor cost) :
    Amid R (fun _ _ => True) (fun _ t => R s t) (updateClient actor id input cause) s := by
  unfold updateClient
  -- moves of wallets leave the row, so the look-up finds what it would in `s`
  have hclient : Amid R (fun current t => R s t ∧ s.clientOf actor.actor id = some current)
      (fun _ t => R s t) (getClientForActor actor.actor id) s := by
    unfold getClientForActor
    refine amid_read fun t ht => ?_
    rw [(hmoves _ _ ht).clientOf]
    cases hfound : s.clientOf actor.actor id with
    | none => exact amid_throw fun t' ht' => htrans _ _ _ ht ht'
    | some current => exact amid_pure fun t' ht' => ⟨htrans _ _ _ ht ht', rfl⟩
  refine amid_bind hrefl (amid_mono hclient (fun current t ht => ?_) fun _ _ h => h)
  obtain ⟨hst, hfound⟩ := ht
  obtain ⟨hid, hget, -⟩ := clientOf_id hfound
  have hprice := hcost current.row hget
  refine amid_bind hrefl (amid_mono ((updateData_reads actor current input).amid hrefl htrans t)
    (fun data t₁ h₁ => ?_)
    fun _ _ h => htrans _ _ _ hst h)
  have hst₁ := htrans _ _ _ hst h₁
  have hfinds : s.Finds actor id := by
    unfold Finds
    rw [hfound]
    rfl
  have hprice_at : ∀ u : Site, WalletsMove s u → cost = if u.pricing.chargeOnRenew then
      u.clientCost actor (input.extraGB current.row) input.extraDays else 0 := by
    intro u hu
    rw [hu.pricing, hu.clientCost]
    exact hprice
  have hrow_at : ∀ u : Site, WalletsMove s u → (u.base.admins.get? actor.id).isSome := by
    intro u hu
    rw [hu.admin]
    exact hrow
  unfold settleStart
  split
  · next hdates =>
    refine amid_step_bind fun t₂ h₂ => ⟨(), _, rfl, ?_⟩
    dsimp only
    have hst₂ := htrans _ _ _ hst₁ h₂
    have hmove₂ := hmoves _ _ hst₂
    rcases hstart with hnone | hno | hcover
    -- no start is pending, so there is nothing to clear
    · have hsame : ({ t₂ with pendingStarts := t₂.pendingStarts.erase current.id } : Site) =
        t₂ := by
        rw [Table.erase_of_get?_none]
        rw [hmove₂.same Site.pendingStarts fun _ => rfl, hid]
        exact hnone
      rw [hsame]
      exact amid_mono (pricedUpdate_amid hrefl htrans hmoves hcovers hid (hrow_at _ hmove₂)
        (hfinds.moved hmove₂) (hprice_at _ hmove₂)) (fun _ _ _ => trivial) fun _ t' h =>
          htrans _ _ _ hst₂ h.1
    · rw [UpdateClientInput.dates, hdates] at hno
      cases hno
    -- the price is covered, so nothing refuses any more
    · have hcover₂ : t₂.base.Covers actor cost := hcovers _ _ hst₂ hcover
      exact amid_mono (pricedUpdate_amid hrefl htrans hmoves hcovers hid (hrow_at t₂ hmove₂)
        ((hfinds.moved hmove₂).of_clients rfl) (hprice_at t₂ hmove₂)) (fun _ _ _ => trivial)
        fun _ t' h => absurd hcover₂ h.2
  · refine amid_mono (pricedUpdate_amid hrefl htrans hmoves hcovers hid
      (hrow_at _ (hmoves _ _ hst₁)) (hfinds.moved (hmoves _ _ hst₁))
        (hprice_at _ (hmoves _ _ hst₁))) (fun _ _ _ => trivial)
      fun _ t' h => htrans _ _ _ hst₁ h.1

/-! ## Creations -/

omit hrefl htrans hcovers in
/-- Links that are not there yet can be created. -/
theorem createLinks_amid (email : String) (keys rest : List LinkKey) (s : Site)
    (hnodup : (keys ++ rest).Nodup) (hfree : ∀ k ∈ keys ++ rest, s.links.get? k = none) :
    Amid R (fun _ t => ∀ k ∈ rest, t.links.get? k = none)
      (fun _ _ => False) (createLinks email keys) s := by
  induction keys generalizing s with
  | nil =>
      refine amid_pure fun t ht k hk => ?_
      rw [(hmoves _ _ ht).links]
      exact hfree k hk
  | cons key keys ih =>
      obtain ⟨hkey, hnodup⟩ := List.nodup_cons.mp hnodup
      unfold createLinks createLink
      refine amid_step_bind fun t ht => ?_
      have hlinks := (hmoves _ _ ht).links
      rw [hlinks, hfree key List.mem_cons_self]
      refine ⟨(), _, rfl, ih _ hnodup fun k hk => ?_⟩
      have hne : k ≠ key := by
        rintro rfl
        exact hkey hk
      dsimp only
      rw [Table.get?_set_of_ne _ _ hne]
      exact hfree k (List.mem_cons_of_mem _ hk)

omit htrans hcovers in
theorem provisionGroups_amid (id : ClientId) (client : Client) (expiry : Option ℤ)
    (seen : List ServerId) (groups : List PanelGroup) (s : Site)
    (hnodup : (groups.flatMap (groupKeys id)).Nodup)
    (hfree : ∀ k ∈ groups.flatMap (groupKeys id), s.links.get? k = none) :
    Amid R (fun _ _ => True)
      (fun _ _ => False) (provisionGroups id client expiry seen groups) s := by
  induction groups generalizing seen s with
  | nil => exact amid_pure fun _ _ => trivial
  | cons group rest ih =>
      rw [List.flatMap_cons] at hnodup hfree
      obtain ⟨-, hrest, hdisjoint⟩ := List.nodup_append.mp hnodup
      unfold provisionGroups
      refine amid_bind hrefl (amid_mono (createLinks_amid hmoves _ _ _ s hnodup hfree)
        (fun _ t ht => ?_) fun _ _ h => h)
      have hkeeps := (provisionGroup_others id client group
        (emailOf (configLabel client) seen group) expiry).amid (R := R)
        (I := fun u => ∀ k ∈ rest.flatMap (groupKeys id), u.links.get? k = none)
        (fun u u' h hu k hk => ?_) (fun u u' h hu k hk => ?_) ht
      · refine amid_bind hrefl (amid_mono
          (amid_and hkeeps ((provisionGroup_returns _ _ _ _ _).amid t))
            (fun error t₁ h₁ => ?_) fun _ _ h => h.2)
        exact amid_bind hrefl (amid_mono (ih _ t₁ hrest h₁.1)
          (fun _ _ _ => amid_pure fun _ _ => trivial) fun _ _ h => h)
      · rw [h k fun hk' => hdisjoint k hk' k hk rfl]
        exact hu k hk
      · rw [(hmoves _ _ h).links]
        exact hu k hk

/-- The guards of `createClient` change nothing; when they pass, the wallet covers the price, and no
target is chosen twice. -/
theorem admitClient_amid {input : CreateClientInput} {s : Site}
    (hcost : cost = s.clientCost actor input.trafficGB input.days)
    (hservices : ∀ id row, input.serviceId = some id → s.services.get? id = some row →
      row.targets.Nodup) :
    Amid R (fun a t => R s t ∧ a.cost = cost ∧ t.base.Covers actor cost ∧ a.targets.Nodup)
      (fun _ t => R s t) (admitClient actor input) s := by
  unfold admitClient
  refine (refuseIf_reads (V := WalletsMove) _ _).amid_bind hrefl htrans
    (fun _ _ h => h) fun _ t₁ h₁ => ?_
  refine amid_bind hrefl (amid_mono
    ((chosenTargets_reads (fun _ _ h =>
      h.offers) actor.actor input).amid_run hmoves hrefl htrans t₁)
        (fun targets t₂ h₂ => ?_) fun _ _ h => htrans _ _ _ h₁ h.1)
  have hnodup : targets.Nodup := by
    refine chosenTargets_nodup h₂.2 fun id row hid hrow => hservices id row hid ?_
    rw [← hrow, (hmoves _ _ h₁).offers.1]
  have hst₂ := htrans _ _ _ h₁ h₂.1
  refine (refuseIf_reads (V := WalletsMove) _ _).amid_bind hrefl htrans
    (fun _ _ h => htrans _ _ _ hst₂ h) fun _ t₃ h₃ => ?_
  have hst₃ := htrans _ _ _ hst₂ h₃
  refine (assertClientKind_reads _ _ _ _ _).amid_bind hrefl htrans
    (fun _ _ h => htrans _ _ _ hst₃ h) fun _ t₄ h₄ => ?_
  have hst₄ := htrans _ _ _ hst₃ h₄
  refine (assertQuota_reads _ _ _ _).amid_bind hrefl htrans (fun _ _ h => htrans _ _ _ hst₄ h)
    fun _ t₅ h₅ => ?_
  have hst₅ := htrans _ _ _ hst₄ h₅
  refine amid_bind hrefl (amid_mono (quoteClientCost_amid hrefl htrans hmoves actor _ _ t₅)
    (fun c t₆ h₆ => ?_) fun _ _ h => htrans _ _ _ hst₅ h)
  obtain ⟨hmove₆, hc⟩ := h₆
  obtain rfl : c = cost := by rw [hc, hcost, (hmoves _ _ hst₅).clientCost]
  have hst₆ := htrans _ _ _ hst₅ hmove₆
  refine amid_bind hrefl (amid_mono (amid_and (assertAffordable_amid hmoves hcovers t₆)
    ((assertAffordable_reads actor c).amid hrefl htrans t₆)) (fun _ t₇ h₇ => ?_)
    fun _ _ h => htrans _ _ _ hst₆ h.2)
  have hst₇ := htrans _ _ _ hst₆ h₇.2
  refine amid_read fun t₈ h₈ => ?_
  have hst₈ := htrans _ _ _ hst₇ h₈
  refine (refuseIf_reads (V := WalletsMove) _ _).amid_bind hrefl htrans
    (fun _ _ h => htrans _ _ _ hst₈ h) fun _ t₉ h₉ => amid_pure fun t h => ?_
  have hmove := htrans _ _ _ h₈ (htrans _ _ _ h₉ h)
  exact ⟨htrans _ _ _ hst₇ hmove, rfl, hcovers _ _ hmove h₇.1, hnodup⟩

/-- A new client is there, without links, and its price is covered. -/
structure Opening (s : Site) (actor : Operator) (cost : ℤ) (id : ClientId) : Prop where
  finds : s.Finds actor id
  free : ∀ k, k.clientId = id → s.links.get? k = none
  row : (s.base.admins.get? actor.id).isSome
  covers : s.base.Covers actor cost

omit hrefl htrans in
theorem Opening.moved {s s' : Site} {id : ClientId} (h : R s s') (hs : s.Opening actor cost id) :
    s'.Opening actor cost id where
  finds := hs.finds.moved (hmoves _ _ h)
  free k hk := by
    rw [(hmoves _ _ h).links]
    exact hs.free k hk
  row := by
    rw [(hmoves _ _ h).admin]
    exact hs.row
  covers := hcovers _ _ h hs.covers

omit htrans in
/-- From its first write on, `createClient` does not fail. -/
theorem opened_amid {input : CreateClientInput} {id : ClientId} {row : Client}
    {targets : List Target} {servers : List (ServerId × Server)} {s : Site}
    (hs : s.Opening actor cost id) (hnodup : targets.Nodup) :
    Amid R (fun _ _ => True) (fun _ _ => False) (do
      armPendingStart id (delayedDays input)
      chargeFor actor cost id
      let errors ← provisionGroups id row (delayedExpiry (delayedDays input)) []
        (groupTargets targets servers row.uuid)
      lift (audit (some actor.id) "client.create")
      let client ← getClientForActor actor.actor id
      pure (client, errors)) s := by
  have harm : (armPendingStart id (delayedDays input)).Keeps
      fun s s' => s'.clients = s.clients ∧ s'.links = s.links ∧ s'.base = s.base :=
    keeps_ite (keeps_modify fun _ => ⟨rfl, rfl, rfl⟩) (keeps_pure ())
  have hreturns : (armPendingStart id (delayedDays input)).Returns :=
    returns_ite (returns_modify _ _) (returns_pure ())
  refine amid_bind hrefl (amid_mono (amid_and (hreturns.amid s) (harm.amid
    (I := fun t => t.Opening actor cost id) (fun t t' h ht => ?_)
      (fun _ _ h ht => ht.moved hmoves hcovers h) hs))
    (fun _ t₁ h₁ => ?_) fun _ _ h => h.1)
  · exact ⟨ht.finds.of_clients h.1, by rw [h.2.1]; exact ht.free, by rw [h.2.2]; exact ht.row,
      by rw [h.2.2]; exact ht.covers⟩
  have hopening := h₁.2
  refine amid_bind hrefl (amid_mono
    (amid_and (chargeFor_amid hrefl hmoves hcovers id t₁ hopening.row hopening.covers)
      ((chargeFor_keeps actor cost id).amid (I := fun t => t.Finds actor id ∧ ∀ k, k.clientId = id →
        t.links.get? k = none) (fun t t' h ht => ?_) (fun t t' h ht => ?_)
      ⟨hopening.finds, hopening.free⟩)) (fun _ t₂ h₂ => ?_) fun _ _ h => h.1)
  · exact ⟨ht.1.of_clients h.1, by rw [h.2]; exact ht.2⟩
  · exact ⟨ht.1.moved (hmoves _ _ h), by rw [(hmoves _ _ h).links]; exact ht.2⟩
  obtain ⟨-, hfinds, hfree⟩ := h₂
  refine amid_bind hrefl (amid_mono (amid_and (provisionGroups_amid hrefl hmoves id row _ _ _ t₂
    (groupKeys_nodup id hnodup servers row.uuid) fun k hk => ?_)
    ((provisionGroups_provisioned id row _ _ _).amid (I := fun t => t.Finds actor id)
      (fun _ _ h ht => ht.of_clients h.same_clients)
        (fun _ _ h ht => ht.moved (hmoves _ _ h)) hfinds))
    (fun errors t₃ h₃ => ?_) fun _ _ h => h.1)
  · obtain ⟨group, -, hk⟩ := List.mem_flatMap.mp hk
    exact hfree k (groupKeys_client _ group k hk)
  refine amid_bind hrefl (amid_mono
    (finds_amid hmoves (synced_of_pushed (lift_pushed (audit_keeps_logged _ _))) h₃.2
      ((audit_returns _ _).zoom.amid t₃)) (fun _ t₄ h₄ => ?_) fun _ _ h => h)
  exact amid_bind hrefl (amid_mono (getClientForActor_amid hmoves h₄)
    (fun _ _ _ => amid_pure fun _ _ => trivial) fun _ _ h => h)

/-- A refused `createClient` has changed nothing. -/
theorem createClient_amid {input : CreateClientInput} {cause : Option OrderId} {s : Site}
    (hrow : (s.base.admins.get? actor.id).isSome)
    (hcost : cost = s.clientCost actor input.trafficGB input.days)
    (hfresh : ∀ k, k.clientId = s.base.nextId → s.links.get? k = none)
    (hservices : ∀ id row, input.serviceId = some id → s.services.get? id = some row →
      row.targets.Nodup) :
    Amid R (fun _ _ => True) (fun _ t => R s t) (createClient actor input cause) s := by
  unfold createClient
  refine amid_bind hrefl (amid_mono (admitClient_amid hrefl htrans hmoves hcovers hcost hservices)
    (fun a t ht => ?_) fun _ _ h => h)
  obtain ⟨hst, rfl, hcover, hnodup⟩ := ht
  -- the guards have passed, so nothing below can fail
  refine amid_mono (Q := fun _ _ => True) (E := fun _ _ => False) ?_ (fun _ _ h => h) fun _ _ h =>
    h.elim
  unfold openClient
  refine amid_step_bind fun t₁ h₁ => ⟨_, _, rfl, ?_⟩
  have hmove := hmoves _ _ (htrans _ _ _ hst h₁)
  have hcover₁ := hcovers _ _ h₁ hcover
  refine opened_amid hrefl hmoves hcovers ⟨?_, fun k hk => ?_, ?_, hcover₁⟩ hnodup
  · unfold Finds
    rw [clientOf_isSome, Table.get?_set_self]
    simp [inScope, newClient, Operator.actor, Client.settled]
  · rw [hmove.nextId] at hk
    show t₁.links.get? k = none
    rw [hmove.links]
    exact hfresh k hk
  · show (t₁.base.admins.get? actor.id).isSome
    rw [hmove.admin]
    exact hrow

end Call

/-! ## The calls -/

/-- A call that makes or changes a client. -/
inductive ClientCall
  | create (input : CreateClientInput)
  | update (id : ClientId) (input : UpdateClientInput)

/-- The service behind each call. -/
def ClientCall.task (actor : Operator) (cause : Option OrderId) :
    ClientCall → Task (FullClient × List String)
  | create input => createClient actor input cause
  | update id input => updateClient actor id input cause

/-- What the call would charge. -/
def ClientCall.price (s : Site) (actor : Operator) : ClientCall → ℤ
  | create input => s.clientCost actor input.trafficGB input.days
  | update id input =>
      if s.pricing.chargeOnRenew then
        s.clientCost actor (((s.clients.get? id).map input.extraGB).getD 0) input.extraDays
      else 0

/-- No pending start is cleared in front of a price that the wallet does not cover. -/
def ClientCall.Settled (s : Site) (actor : Operator) : ClientCall → Prop
  | create _ => True
  | update id input => s.pendingStarts.get? id = none ∨ input.dates = false ∨
      s.base.Covers actor ((update id input).price s actor)

/-- A call that is refused amid the movements of wallets leaves the state where the others have
moved it, if they do not take away the credit that covers its price, and if no pending start is
cleared in front of a price that is not covered. -/
theorem refused_call_changes_nothing (call : ClientCall) (actor : Operator)
    (cause : Option OrderId) (s : Site) (R : Site → Site → Prop) (hrefl : ∀ s, R s s)
    (htrans : ∀ s₁ s₂ s₃, R s₁ s₂ → R s₂ s₃ → R s₁ s₃)
    (hmoves : ∀ t t', R t t' → WalletsMove t t')
    (hcovers : ∀ t t', R t t' → t.base.Covers actor (call.price s actor) →
      t'.base.Covers actor (call.price s actor))
    (hrow : (s.base.admins.get? actor.id).isSome)
    (hfresh : ∀ k l, s.links.get? k = some l → k.clientId < s.base.nextId)
    (hservices : ∀ id row, s.services.get? id = some row → row.targets.Nodup)
    (hsettled : call.Settled s actor)
    {e : AppError} {s' : Site} (h : Ends R (call.task actor cause) s (.error e) s') : R s s' := by
  cases call with
  | create input =>
      refine ((createClient_amid hrefl htrans hmoves hcovers hrow rfl (fun k hk => ?_)
        fun id row _ => hservices id row).ends h).2 e rfl
      cases hlink : s.links.get? k with
      | none => rfl
      | some l => exact absurd (hfresh k l hlink) (by rw [hk]; exact lt_irrefl _)
  | update id input =>
      refine ((updateClient_amid hrefl htrans hmoves hcovers hrow
        (fun row hget => ?_) hsettled).ends h).2 e rfl
      rw [ClientCall.price, hget]
      rfl

/-- A client of a reseller with an empty wallet, whose 30 days start with the first use; a GB and a
day cost 1000 each. -/
def pendingSite : Site :=
  { Site.blank with
    base := { World.blank with admins := Table.empty.set 2 ⟨.admin, 0, 0⟩ }
    accounts := Table.empty.set 2 ⟨"r", 0, none, true, none, none, none, none, none, none, none, []⟩
    pricing := ⟨true, 1000, 1000, true⟩
    clients := Table.empty.set 7
      ⟨2, "a", none, none, 8, 9, 10737418240, 0, 0, none, 0, .active, none, none, none, none⟩
    pendingStarts := Table.empty.set 7 30 }

/-- A reseller whose client has yet to start, for the example. -/
def pendingSeller : Operator :=
  ⟨2, .admin, ⟨"r", 0, none, true, none, none, none, none, none, none, none, []⟩⟩

/-- A patch that adds a day. -/
def oneMoreDay : UpdateClientInput := { UpdateClientInput.none with addDays := some 1 }

/-- The update is refused for want of credit, and the pending start is gone. -/
theorem refused_update_clears_start :
    pendingSite.pendingStarts.get? 7 = some 30 ∧
      ∃ e s', Ends (· = ·) (updateClient pendingSeller 7 oneMoreDay none) pendingSite
        (.error e) s' ∧ e.status = 402 ∧ s'.pendingStarts.get? 7 = none := by
  refine ⟨rfl, ?_⟩
  have hends := ends_run (R := (· = ·)) (fun _ =>
    rfl) (updateClient pendingSeller 7 oneMoreDay none) pendingSite
  have hstatus : (match ((updateClient pendingSeller 7 oneMoreDay none).run pendingSite).1 with
      | .ok _ => 200
      | .error e => e.status) = 402 := by decide +kernel
  rcases hrun : ((updateClient pendingSeller 7 oneMoreDay none).run pendingSite).1 with e | r
  · rw [hrun] at hends hstatus
    exact ⟨e, _, hends, hstatus, by decide +kernel⟩
  · rw [hrun] at hstatus
    cases hstatus

/-- Twice the traffic, which the wallet does not cover; no date is set. -/
def twiceTheTraffic : ClientCall := .update 7 { UpdateClientInput.none with trafficGB := some 20 }

/-- The wallets move, and a price stays covered. -/
def CreditStays (actor : Operator) (cost : ℤ) (s s' : Site) : Prop :=
  WalletsMove s s' ∧ (s.base.Covers actor cost → s'.base.Covers actor cost)

theorem refused_call_changes_nothing_traffic :
    CreditStays pendingSeller (twiceTheTraffic.price pendingSite pendingSeller) pendingSite
      ((twiceTheTraffic.task pendingSeller none).run pendingSite).2 := by
  have hends := ends_run (R := CreditStays pendingSeller
    (twiceTheTraffic.price pendingSite pendingSeller))
      (fun _ => ⟨rfl, id⟩) (twiceTheTraffic.task pendingSeller none) pendingSite
  have hstatus : (match ((twiceTheTraffic.task pendingSeller none).run pendingSite).1 with
      | .ok _ => 200
      | .error e => e.status) = 402 := by decide +kernel
  rcases hrun : ((twiceTheTraffic.task pendingSeller none).run pendingSite).1 with e | r
  · rw [hrun] at hends
    exact refused_call_changes_nothing twiceTheTraffic pendingSeller none pendingSite _
      (fun _ => ⟨rfl, id⟩) (fun _ _ _ h h' => ⟨h'.1.trans h.1, h'.2 ∘ h.2⟩)
        (fun _ _ h => h.1) (fun _ _ h => h.2) rfl
      (fun _ _ h => by cases h) (fun _ _ h => by cases h) (.inr (.inl rfl)) hends
  · rw [hrun] at hstatus
    cases hstatus

end Site

end SRPanel
