import SRPanel.Delivery.Subscriptions
import SRPanel.Status.Current

/-!
# A renewal that fails

The renewal of a client is a reset of its counters and then an update, which has guards of its own.
A guard that refuses leaves the order paid with its error, but the reset has been done by then: the
module says exactly when nothing of the client has changed.
-/

namespace SRPanel

open Interleaving Prog

/-- What a client has used and may use: its counters, limit, expiry and status. -/
def Client.meter (c : Client) : ℤ × ℤ × ℤ × Option ℤ × ClientStatus :=
  (c.usedUp, c.usedDown, c.trafficLimit, c.expiresAt, c.status)

/-- The row of a client that is counted again. -/
def Client.recounted (c : Client) (up down t : ℤ) : Client :=
  { c with usedUp := up, usedDown := down, status := derivedStatus c (up + down) t }

namespace Site

/-! ## The property and its condition -/

/-- The client and its links count the same, and the client may use the same. -/
structure SameMeter (k : ClientId) (s s' : Site) : Prop where
  client : (s'.clients.get? k).map Client.meter = (s.clients.get? k).map Client.meter
  links : ∀ key, key.clientId = k →
    (s'.links.get? key).map ClientServer.counters = (s.links.get? key).map ClientServer.counters

/-- The order is still paid, with an error, and the client is as it was. -/
structure FailsCleanly (id : OrderId) (k : ClientId) (s s' : Site) : Prop where
  order : ∃ o, s'.base.orders.get? id = some o ∧ o.status = .paid ∧ o.error.isSome
  same : SameMeter k s s'

/-- The renewal's own guards refuse: the client is not the seller's, or a guard of the update says
no. -/
def RenewalRefused (s : Site) (f : FoundOrder) (k : ClientId) : Prop :=
  s.renewable f.seller.id k = none ∨ ∃ e,
    s.updateVerdict f.seller k (renewal f.info.planSnapshot) = .error e

/-- What the traffic of a client's links adds up to. -/
def upOf (s : Site) (k : ClientId) : ℤ := ((s.linksOf k).map fun l => l.2.up).sum

def downOf (s : Site) (k : ClientId) : ℤ := ((s.linksOf k).map fun l => l.2.down).sum

/-- A reset has nothing to change: the links that it would zero are at zero, and the row has the
counters and the status that follow from the links. -/
def Unused (s : Site) (k : ClientId) : Prop :=
  (∀ r ∈ s.linksOf k, r.1 ∈ s.zeroedLinks k → r.2.counters = (0, 0)) ∧
    ∀ c ∈ s.clients.get? k, c.meter = (c.recounted (s.upOf k) (s.downOf k) s.base.now).meter

instance (s : Site) (k : ClientId) : Decidable (s.Unused k) :=
  inferInstanceAs (Decidable ((∀ r ∈ s.linksOf k, r.1 ∈ s.zeroedLinks k → r.2.counters = (0, 0)) ∧
    ∀ c ∈ s.clients.get? k, c.meter = (c.recounted (s.upOf k) (s.downOf k) s.base.now).meter))

/-! ## The reset -/

section Reset

variable {s s' : Site} {k : ClientId}

/-- The row of the client is `c`, counted from the links at the time `t`. -/
def Counted (k : ClientId) (c : Client) (t : ℤ) (s : Site) : Prop :=
  s.clients.get? k = some (c.recounted (s.upOf k) (s.downOf k) t)

theorem Counted.annotated {c : Client} {t : ℤ} (h : Counted k c t s) (hs : Annotated s s') :
    Counted k c t s' := by
  have hup : s'.upOf k = s.upOf k := congrArg List.sum (hs.linksOf k (fun l => l.2.up) fun _ => rfl)
  have hdown : s'.downOf k = s.downOf k :=
    congrArg List.sum (hs.linksOf k (fun l => l.2.down) fun _ => rfl)
  rw [Counted, hs.same Site.clients fun _ => rfl, hup, hdown]
  exact h

/-- A recomputation writes the row that follows from the links. -/
theorem recomputeClient_row (s : Site) {c : Client} (hc : s.clients.get? k = some c) :
    Prog.wp (recomputeClient k) (fun _ => Counted k c s.base.now) (fun _ _ => False) s := by
  simp only [recomputeClient, read, wp_bind, wp_query, hc, Option.map_some, writeRow, wp_step]
  refine wp_mono _ (wp_and
    ((keeps_ite (keeps_pure ())
      (onClientStatusChanged_annotated c _)).wp Annotated.refl Annotated.trans _)
    ((returns_ite (returns_pure ()) (onClientStatusChanged_returns c _)).wp _))
    (fun _ s' h => Counted.annotated ?_ h.1) fun _ _ h => h.2
  show (s.clients.modify k _).get? k = _
  rw [Table.get?_modify_self, hc]
  rfl

/-- The counters of a link after some links have been zeroed. -/
theorem Zeroed.counters {keys : List LinkKey} (h : Zeroed keys s s') (key : LinkKey) :
    (s'.links.get? key).map ClientServer.counters =
      (s.links.get? key).map fun l => if key ∈ keys then (0, 0) else l.counters := by
  have hget := congrArg (fun t : Table LinkKey ClientServer =>
    (t.get? key).map ClientServer.counters) h
  simp only [Table.get?_mapRows, Option.map_map] at hget
  refine Eq.trans ?_ (hget.trans ?_)
  · rfl
  · congr 1
    funext l
    simp only [Function.comp_apply]
    split <;> rfl

/-- What a reset leaves of a client that is found: the links whose panels answer are at zero, and
the row follows from the links. -/
structure AfterReset (k : ClientId) (s s' : Site) : Prop where
  zeroed : Zeroed (s.zeroedLinks k) s s'
  client : ∀ c, s.clients.get? k = some c → Counted k c s.base.now s'

theorem resetClientTraffic_after (actor : Actor) (k : ClientId) (s : Site) :
    Prog.wp (resetClientTraffic actor k) (fun _ s' => Synced s s' ∧ AfterReset k s s')
      (fun _ s' => s.clientOf actor k = none ∧ s' = s) s := by
  have hspec := resetClientTraffic_spec actor k s
  suffices hrow : Prog.wp (resetClientTraffic actor k)
      (fun _ s' => ∀ c, s.clients.get? k = some c → Counted k c s.base.now s')
      (fun _ _ => True) s from
    wp_mono _ (wp_and hspec hrow) (fun _ s' h => ⟨h.1.2.1, h.1.2.2.1, h.2⟩) fun _ _ h => h.1
  unfold resetClientTraffic
  rw [wp_bind, (getClientForActor_reads actor k).wp_iff, getClientForActor_run]
  cases hfound : s.clientOf actor k with
  | none => trivial
  | some client =>
      obtain ⟨rfl, hget, -⟩ := clientOf_id hfound
      simp only [serversOf, read, wp_bind, wp_query]
      refine wp_mono _ ((resetGroups_sameClient _ _).wp
        (SameClient.refl client.id) SameClient.trans s)
          (fun errors s₁ h₁ => ?_) fun _ _ _ => trivial
      refine wp_mono _ (recomputeClient_row s₁ (h₁.client.trans hget))
        (fun _ s₂ h₂ => ?_) fun _ _ _ => trivial
      -- what follows calls panels and logs
      have hrest := (keeps_bind (pushIfLimited_annotated actor client) fun _ =>
        keeps_bind (lift_annotated (audit_keeps_logged (some actor.id) "client.reset_traffic"))
          fun _ =>
          keeps_pure errors).wp Annotated.refl Annotated.trans s₂
      simp only [wp_bind] at hrest
      refine wp_mono _ hrest (fun _ s₃ h₃ c hc => ?_) fun _ _ _ => trivial
      obtain rfl : client.row = c := Option.some.inj (hget.symm.trans hc)
      rw [h₁.now] at h₂
      exact h₂.annotated h₃

/-- What the links count after the reset, if the links that it zeroes were at zero. -/
private theorem AfterReset.sums (h : AfterReset k s s')
    (hzero : ∀ r ∈ s.linksOf k, r.1 ∈ s.zeroedLinks k → r.2.counters = (0, 0)) :
    s'.upOf k = s.upOf k ∧ s'.downOf k = s.downOf k := by
  refine ⟨?_, ?_⟩
  · refine congrArg List.sum ((h.zeroed.linksOf k ClientServer.up (fun _ => rfl) fun _ => rfl).trans ?_)
    refine List.map_congr_left fun r hr => ?_
    split
    · next hmem => exact (congrArg Prod.fst (hzero r hr hmem)).symm
    · rfl
  · refine congrArg List.sum ((h.zeroed.linksOf k ClientServer.down (fun _ => rfl) fun _ => rfl).trans ?_)
    refine List.map_congr_left fun r hr => ?_
    split
    · next hmem => exact (congrArg Prod.snd (hzero r hr hmem)).symm
    · rfl

/-- A reset changes nothing of the client if and only if there is nothing to change. -/
theorem AfterReset.same_iff (h : AfterReset k s s') (hfound : (s.clients.get? k).isSome) :
    SameMeter k s s' ↔ s.Unused k := by
  obtain ⟨c, hc⟩ := Option.isSome_iff_exists.mp hfound
  have hrow := h.client c hc
  constructor
  · intro hsame
    have hzero : ∀ r ∈ s.linksOf k, r.1 ∈ s.zeroedLinks k → r.2.counters = (0, 0) := by
      intro r hr hmem
      obtain ⟨hrow, hkey⟩ := List.mem_filter.mp hr
      have hget := (s.links.mem_rows_iff r.1 r.2).mp hrow
      have hlinks := hsame.links r.1 (of_decide_eq_true hkey)
      rw [h.zeroed.counters, hget, Option.map_some, Option.map_some, if_pos hmem] at hlinks
      exact (Option.some.inj hlinks).symm
    refine ⟨hzero, fun c' hc' => ?_⟩
    obtain rfl : c = c' := Option.some.inj (hc.symm.trans hc')
    have hmeter := hsame.client
    obtain ⟨hup, hdown⟩ := h.sums hzero
    rw [hrow, hc, hup, hdown, Option.map_some, Option.map_some] at hmeter
    exact (Option.some.inj hmeter).symm
  · rintro ⟨hzero, hmeter⟩
    obtain ⟨hup, hdown⟩ := h.sums hzero
    refine ⟨?_, fun key hkey => ?_⟩
    · rw [hrow, hc, hup, hdown, Option.map_some, Option.map_some, hmeter c hc]
    · rw [h.zeroed.counters]
      cases hl : s.links.get? key with
      | none => rfl
      | some l =>
          rw [Option.map_some, Option.map_some]
          split
          · next hmem =>
              have hr : (key, l) ∈ s.linksOf k :=
                List.mem_filter.mpr ⟨(s.links.mem_rows_iff key l).mpr hl, decide_eq_true hkey⟩
              rw [hzero (key, l) hr hmem]
          · rfl

end Reset

/-! ## The guards after the reset -/

section Guards

variable {s s' : Site} {actor : Operator} {k : ClientId} {input : UpdateClientInput}

/-- What the guards of an update read of a client that is found: its row up to the counted columns.
-/
def termsOf (s : Site) (actor : Operator) (k : ClientId) : Option FullClient :=
  (s.clientOf actor.actor k).map fun current => ⟨current.id, current.row.settled, []⟩

/-- The guards of an update, for what they read of the client. -/
def refusal (s : Site) (actor : Operator) (input : UpdateClientInput) (terms : FullClient) :
    Except AppError ℤ := do
  let _ ← ((updateData actor terms input).run s).1
  ((updateCost actor terms input).run s).1

theorem termsOf_congr (h : SameTerms s s') : s'.termsOf actor k = s.termsOf actor k := by
  have hclient := congrArg (fun t : Table ClientId Client => t.get? k) h.clients
  simp only [Table.get?_mapRows] at hclient
  -- the scope of an actor is that of the settled row
  have hterms : ∀ t : Site, t.termsOf actor k =
      ((t.clients.get? k).map Client.settled |>.filter (inScope actor.actor)).map fun c =>
        ⟨k, c, []⟩ := by
    intro t
    unfold termsOf clientOf
    cases t.clients.get? k with
    | none => rfl
    | some c =>
        simp only [Option.map_some, Option.filter_some]
        have hscope : inScope actor.actor c.settled = inScope actor.actor c := rfl
        rw [hscope]
        split <;> rfl
  rw [hterms, hterms]
  exact congrArg (fun o : Option Client => (o.filter (inScope actor.actor)).map fun c =>
    FullClient.mk k c []) hclient

theorem refusal_congr (h : SameTerms s s') (terms : FullClient) :
    s'.refusal actor input terms = s.refusal actor input terms := by
  unfold refusal
  rw [(updateData_reads actor terms input).run_fst h,
    (updateCost_reads actor terms input).run_fst h]

/-- An update is refused if the client is not found, or by its terms. -/
theorem updateVerdict_refused_iff :
    (∃ e, s.updateVerdict actor k input = .error e) ↔
      ∀ terms ∈ s.termsOf actor k, ∃ e, s.refusal actor input terms = .error e := by
  unfold updateVerdict termsOf
  rw [getClientForActor_run]
  cases s.clientOf actor.actor k with
  | none => exact ⟨fun _ _ h => (by cases h), fun _ => ⟨_, rfl⟩⟩
  | some current =>
      rw [Option.map_some]
      have hdata : updateData actor current input =
          updateData actor ⟨current.id, current.row.settled, []⟩ input := rfl
      have hcost : updateCost actor current input =
          updateCost actor ⟨current.id, current.row.settled, []⟩ input := rfl
      dsimp only
      change (∃ e, Except.bind ((updateData actor current input).run s).1 _ = .error e) ↔ _
      have hterms : ∀ P : FullClient → Prop,
          (∀ terms ∈ some (⟨current.id, current.row.settled, []⟩ : FullClient), P terms) ↔
            P ⟨current.id, current.row.settled, []⟩ := fun P =>
        ⟨fun h => h _ rfl, fun h terms hmem => by obtain rfl := Option.some.inj hmem; exact h⟩
      rw [hterms, hdata, hcost, refusal]
      change _ ↔ ∃ e, Except.bind ((updateData actor _ input).run s).1 _ = .error e
      rcases ((updateData actor ⟨current.id, current.row.settled, []⟩ input).run s).1 with e | data
      · exact ⟨fun _ => ⟨e, rfl⟩, fun _ => ⟨e, rfl⟩⟩
      · change (∃ e, Except.bind ((updateCost actor _ input).run s).1 _ = .error e) ↔
          ∃ e, ((updateCost actor _ input).run s).1 = .error e
        rcases ((updateCost actor ⟨current.id, current.row.settled, []⟩ input).run s).1
            with e | cost
        · exact ⟨fun _ => ⟨e, rfl⟩, fun _ => ⟨e, rfl⟩⟩
        · exact ⟨fun h => (by obtain ⟨e, h⟩ := h; cases h), fun h =>
          (by obtain ⟨e, h⟩ := h; cases h)⟩

/-- What the guards refuse they refuse in every state of the same terms. -/
theorem updateVerdict_refused (h : SameTerms s s')
    (hrefused : ∃ e, s.updateVerdict actor k input = .error e) :
    ∃ e, s'.updateVerdict actor k input = .error e := by
  rw [updateVerdict_refused_iff] at hrefused ⊢
  intro terms hterms
  rw [termsOf_congr h] at hterms
  rw [refusal_congr h]
  exact hrefused terms hterms

end Guards

/-! ## The renewal -/

section Renewals

variable {s s' : Site} {id : OrderId} {f : FoundOrder} {k : ClientId}

theorem SameMeter.refl (s : Site) (k : ClientId) : SameMeter k s s := ⟨rfl, fun _ _ => rfl⟩

/-- Rows that are left alone. -/
theorem SameMeter.congr {t : Site} (hclients : t.clients = s'.clients)
    (hlinks : t.links = s'.links) : SameMeter k s t ↔ SameMeter k s s' := by
  constructor
  · intro h
    refine ⟨?_, ?_⟩
    · rw [← hclients]
      exact h.client
    · rw [← hlinks]
      exact h.links
  · intro h
    refine ⟨?_, ?_⟩
    · rw [hclients]
      exact h.client
    · rw [hlinks]
      exact h.links

@[simp] theorem startSettled_links (s : Site) (id : ClientId) (input : UpdateClientInput) :
    (s.startSettled id input).links = s.links := by
  unfold startSettled
  split <;> rfl

/-- What a refused renewal leaves of the client: nothing has changed if it is not the seller's or if
a reset has nothing to change. -/
def RefusedMeter (f : FoundOrder) (k : ClientId) (s s' : Site) : Prop :=
  SameMeter k s s' ↔ s.renewable f.seller.id k = none ∨ s.Unused k

/-- A client that can be renewed is in the scope of its seller. -/
theorem renewable_some {links : List (LinkKey × ClientServer)}
    (h : s.renewable f.seller.id k = some links) :
    (s.clients.get? k).isSome ∧ (s.clientOf f.seller.actor k).isSome := by
  obtain ⟨c, hc, -⟩ := Option.map_eq_some_iff.mp h
  obtain ⟨hget, hseller⟩ := Option.filter_eq_some_iff.mp hc
  refine ⟨by rw [hget]; rfl, ?_⟩
  have howner : c.adminId = f.seller.id := of_decide_eq_true hseller
  rw [clientOf_isSome, hget]
  simp [inScope, Client.settled, Operator.actor, howner]

/-- A renewal that its guards refuse fails, after the reset unless the client is not the seller's.
-/
theorem renewConfig_refused (hrow : (s.base.admins.get? f.seller.id).isSome)
    (hrefused : s.RenewalRefused f k) :
    Prog.wp (renewConfig f k) (fun _ _ => False)
      (fun _ s' => SameOrders s s' ∧ RefusedMeter f k s s') s := by
  rw [renewConfig, wp_bind, read, wp_query]
  cases hrenewable : s.renewable f.seller.id k with
  | none =>
      refine ⟨rfl, ?_⟩
      exact ⟨fun _ => .inl hrenewable, fun _ => SameMeter.refl s k⟩
  | some links =>
      obtain ⟨hfound, hscope⟩ := renewable_some hrenewable
      -- a client that is found is refused by the guards, after its reset
      have hguards : ∃ e, s.updateVerdict f.seller k (renewal f.info.planSnapshot) = .error e := by
        rcases hrefused with h | h
        · rw [hrenewable] at h
          cases h
        · exact h
      dsimp only
      rw [wp_bind]
      refine wp_mono _ (resetClientTraffic_after f.seller.actor k s)
        (fun _ s₁ h₁ => ?_) fun _ s₁ h₁ => ?_
      · obtain ⟨hsynced, hafter⟩ := h₁
        have hrow₁ : (s₁.base.admins.get? f.seller.id).isSome := by
          rw [hsynced.same (fun s => s.base.admins) fun _ => rfl]
          exact hrow
        have horders := sameOrders_synced hsynced
        have hmeter : RefusedMeter f k s s₁ := by
          refine (hafter.same_iff hfound).trans ⟨.inr, ?_⟩
          rintro (h | h)
          · rw [hrenewable] at h
            cases h
          · exact h
        obtain ⟨e, hverdict⟩ := updateVerdict_refused (SameTerms.of_synced hsynced) hguards
        rw [wp_bind]
        refine wp_mono _ (updateClient_spec f.seller k (renewal f.info.planSnapshot)
          (some f.id) s₁ hrow₁) (fun _ s₂ h₂ => ?_) fun _ s₂ h₂ => ?_
        · obtain ⟨x, haccepted, -⟩ := h₂
          rw [hverdict] at haccepted
          cases haccepted
        · rcases h₂.2 with rfl | ⟨-, rfl⟩
          · exact ⟨horders, hmeter⟩
          · refine ⟨by rw [SameOrders, startSettled_base, horders], ?_⟩
            exact (SameMeter.congr (startSettled_clients _ _ _)
              (startSettled_links _ _ _)).trans hmeter
      · rw [h₁.1] at hscope
        cases hscope

/-- A failure leaves its message in the order, and the clients alone. -/
theorem failOrder_spec (id : OrderId) (err : AppError) (s : Site) {o : Order}
    (hrow : s.base.orders.get? id = some o) :
    Prog.wp (failOrder id err) (fun _ s' =>
      s'.base.orders.get? id = some { o with error := some (sliceTo 500 err.message) } ∧
        s'.clients = s.clients ∧ s'.links = s.links) (fun _ _ => False) s := by
  rw [failOrder, wp_bind, closeOrder, wp_step, hrow]
  dsimp only
  rw [wp_bind]
  refine wp_mono _ (wp_and ((lift_logs
    (notify_keeps_logged "order.failed")).wp Logs.refl Logs.trans _) ((notify_returns _).zoom.wp _))
      (fun _ s' h => ?_) fun _ _ h => h.2
  have hclients := congrArg Site.clients h.1.rest
  have hlinks := congrArg Site.links h.1.rest
  refine ⟨?_, hclients, hlinks⟩
  rw [h.1.base.same World.orders fun _ => rfl]
  show (s.base.orders.modify id _).get? id = _
  rw [Table.get?_modify_self, hrow]
  rfl

/-- A renewal that its guards refuse changes nothing of the client if and only if the client is no
longer one of the seller's, or the reset before the guards has nothing to change. -/
theorem refusedRenewal_clean_iff (hfound : s.findOrder id = some f) (hpaid : f.order.status = .paid)
    (hlink : s.linkOf f.info.planId = none) (hrenew : f.info.renewClientId = some k)
    (hrefused : s.RenewalRefused f k) :
    Prog.wp (fulfillOrder id)
      (fun _ s' => FailsCleanly id k s s' ↔ s.renewable f.seller.id k = none ∨ s.Unused k)
      (fun _ _ => False) s := by
  obtain ⟨hid, horder, -, -⟩ := findOrder_some hfound
  refine fulfillOrder_paid_wp hfound hpaid ?_
  rw [hlink]
  dsimp only
  have hterms : SameTerms s (s.begun id) := ⟨rfl, rfl, fun _ => rfl, rfl, rfl, rfl, rfl, rfl⟩
  have hguards : (s.begun id).RenewalRefused f k := by
    rcases hrefused with h | h
    · exact .inl h
    · exact .inr (updateVerdict_refused hterms h)
  rw [wp_attempt, provideConfig, wp_bind, orderConfig, hrenew]
  refine wp_mono _ (renewConfig_refused (findOrder_seller hfound).1 hguards) (fun _ _ h => h.elim)
    fun err s₁ h₁ => ?_
  obtain ⟨horders, hrefusedMeter⟩ := h₁
  change s₁.base.orders = s.base.orders at horders
  have hreset : SameMeter k s s₁ ↔ s.renewable f.seller.id k = none ∨ s.Unused k :=
    ⟨fun h => hrefusedMeter.mp ⟨h.client, h.links⟩, fun h =>
      have hmeter := hrefusedMeter.mpr h
      ⟨hmeter.client, hmeter.links⟩⟩
  have hrow : s₁.base.orders.get? f.id = some f.order := by rw [horders, hid, horder]
  refine wp_mono _ (failOrder_spec f.id err s₁ hrow) (fun _ s₂ h₂ => ?_) fun _ _ h => h
  obtain ⟨hfailed, hclients, hlinks⟩ := h₂
  rw [hid] at hfailed
  have hmeter : SameMeter k s s₂ ↔ s.renewable f.seller.id k = none ∨ s.Unused k :=
    (SameMeter.congr hclients hlinks).trans hreset
  exact ⟨fun h => hmeter.mp h.same, fun h => ⟨⟨_, hfailed, hpaid, rfl⟩, hmeter.mpr h⟩⟩

end Renewals

/-- A client of a reseller with an empty wallet that has used up its 10 GB, and a paid order that
renews it with 20 GB and thirty days. -/
def spentSite : Site :=
  { Site.blank with
    base := { World.blank with
      admins := Table.empty.set 2 ⟨.admin, 0, 0⟩
      orders := Table.empty.set 5 ⟨"t", 2, .paid, 0, none, none, some 0⟩ }
    accounts := Table.empty.set 2 ⟨"r", 0, none, true, none, none, none, none, none, none, none, []⟩
    pricing := ⟨true, 1000, 1000, true⟩
    clients := Table.empty.set 7
      ⟨2, "a", none, none, 8, 9, 10737418240, 10737418240, 0, none, 0, .limited, none,
        none, none, none⟩
    links := Table.empty.set ⟨7, 3, 1⟩ ⟨"a", 10737418240, 0, none⟩
    servers := Table.empty.set 3 ⟨"s", true, [⟨1, "vless", true, "none", "tcp", []⟩]⟩
    orderInfo := Table.empty.set 5
      ⟨none, none, none, some 7, none, none, none, none, ⟨"p", 20, 30, 0, []⟩, none⟩ }

/-- The same before anything is used. -/
def freshSite : Site :=
  { spentSite with
    clients := Table.empty.set 7
      ⟨2, "a", none, none, 8, 9, 10737418240, 0, 0, none, 0, .active, none, none, none, none⟩
    links := Table.empty.set ⟨7, 3, 1⟩ ⟨"a", 0, 0, none⟩ }

def spentOrder : FoundOrder :=
  ⟨5, ⟨"t", 2, .paid, 0, none, none, some 0⟩,
    ⟨none, none, none, some 7, none, none, none, none, ⟨"p", 20, 30, 0, []⟩, none⟩,
    ⟨2, .admin, ⟨"r", 0, none, true, none, none, none, none, none, none, none, []⟩⟩⟩

/-- The update is refused, as the code of an error. -/
def updateCode (s : Site) (f : FoundOrder) (k : ClientId) : Option String :=
  match s.updateVerdict f.seller k (renewal f.info.planSnapshot) with
  | .ok _ => none
  | .error e => some e.code

theorem renewalRefused_of_code {s : Site} {f : FoundOrder} {k : ClientId} (code : String)
    (h : updateCode s f k = some code) : s.RenewalRefused f k := by
  unfold updateCode at h
  cases hverdict : s.updateVerdict f.seller k (renewal f.info.planSnapshot) with
  | ok x => rw [hverdict] at h; cases h
  | error e => exact .inr ⟨e, hverdict⟩

/-- The wallet does not cover the renewal, which is refused; the client has its 10 GB again. -/
theorem refusedRenewal_resets :
    spentSite.findOrder 5 = some spentOrder ∧ spentSite.linkOf spentOrder.info.planId = none ∧
      spentSite.RenewalRefused spentOrder 7 ∧
      (spentSite.clients.get? 7).map Client.meter = some (10737418240, 0, 10737418240,
        none, .limited) ∧
      (((fulfillOrder 5).run spentSite).2.clients.get? 7).map Client.meter =
        some (0, 0, 10737418240, none, .active) ∧
      ¬FailsCleanly 5 7 spentSite ((fulfillOrder 5).run spentSite).2 := by
  have hbefore : (spentSite.clients.get? 7).map Client.meter =
      some (10737418240, 0, 10737418240, none, .limited) := by decide
  have hafter : (((fulfillOrder 5).run spentSite).2.clients.get? 7).map Client.meter =
      some (0, 0, 10737418240, none, .active) := by decide +kernel
  refine ⟨by decide, rfl, renewalRefused_of_code "insufficient_credit" (by decide +kernel), hbefore,
    hafter, fun h => ?_⟩
  have hsame := h.same.client
  rw [hbefore, hafter] at hsame
  exact absurd hsame (by decide)

theorem refusedRenewal_clean_iff_fresh :
    freshSite.Unused 7 ∧
      Prog.wp (fulfillOrder 5)
        (fun _ s' => FailsCleanly 5 7 freshSite s' ↔
          freshSite.renewable spentOrder.seller.id 7 = none ∨ freshSite.Unused 7)
        (fun _ _ => False) freshSite :=
  ⟨by decide, refusedRenewal_clean_iff (f := spentOrder) (by decide) rfl rfl rfl
    (renewalRefused_of_code "insufficient_credit" (by decide +kernel))⟩

end Site

end SRPanel
