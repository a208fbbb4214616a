import SRPanel.Delivery.Subscriptions
import SRPanel.Expiry.Extend

/-!
# What a renewal order delivers

A renewal resets the counters, sets the limit of the plan, and adds its days. Four things stand
between that and what was bought: a panel that does not answer the reset, an expiry of never, which
the days turn into a date, a start that is still pending, whose days are dropped, and a plan without
days, which leaves the old date. An order of a plan that sells a sub-panel does not touch the client
at all.
-/

namespace SRPanel

open Interleaving Prog

namespace Site

/-- The effective expiry: the date, or the days of a pending start from now on. -/
def effectiveExpiry (s : Site) (id : ClientId) (c : Client) : WithTop ℤ :=
  expiryOrder (c.expiresAt.or ((s.pendingStarts.get? id).map fun days : ℕ =>
    s.base.now + days * DAY_MS))

/-- The expiry that a renewal by some days owes: never for a plan without days. -/
def owedExpiry (s : Site) (id : ClientId) (c : Client) (days : ℕ) : WithTop ℤ :=
  if days = 0 then ⊤
  else max (expiryOrder (some s.base.now)) (s.effectiveExpiry id c) +
    ((days * DAY_MS : ℤ) : WithTop ℤ)

/-- Between the two states the client has got what the plan promises. -/
def DeliversRenewal (snap : PlanSnapshot) (id : ClientId) (s s' : Site) : Prop :=
  ∃ c c', s.clients.get? id = some c ∧ s'.clients.get? id = some c' ∧ c'.usedUp + c'.usedDown = 0 ∧
    c'.trafficLimit = gbToBytes snap.trafficGB ∧ s.owedExpiry id c snap.days ≤
      s'.effectiveExpiry id c'

/-- The traffic counted on the links whose panels do not answer the reset. -/
def unresetTraffic (s : Site) (id : ClientId) : ℤ :=
  ((s.linksOf id).map fun l => if l.1 ∈ s.zeroedLinks id then 0 else l.2.up + l.2.down).sum

/-- The days can be added to what the client has: it never expires if the plan has none, and
otherwise it has a date, or at most a pending start of no days. -/
def DaysCount (s : Site) (id : ClientId) (c : Client) (days : ℕ) : Prop :=
  if days = 0 then c.expiresAt = none ∧ s.pendingStarts.get? id = none
  else c.expiresAt.isSome ∨ s.pendingStarts.get? id = some 0

/-- What a renewal order needs of the state that it finds. -/
def RenewalFits (s : Site) (f : FoundOrder) (id : ClientId) : Prop :=
  if (s.linkOf f.info.planId).isSome then DeliversRenewal f.info.planSnapshot id s s
  else s.unresetTraffic id = 0 ∧
    ∀ c, s.clients.get? id = some c → s.DaysCount id c f.info.planSnapshot.days

/-! ## What the update makes of the expiry -/

private theorem expiryOrder_date_add (a b d : ℤ) :
    max (expiryOrder (some a)) (expiryOrder (some b)) + (d : WithTop ℤ) =
    expiryOrder (some (max a b + d)) := by
  show max (a : WithTop ℤ) (b : WithTop ℤ) + (d : WithTop ℤ) = ((max a b + d : ℤ) : WithTop ℤ)
  push_cast
  rfl

private theorem expiryOrder_never_add (e : Option ℤ) (d : ℤ) :
    max (expiryOrder e) (expiryOrder none) + (d : WithTop ℤ) = expiryOrder none := by
  show max _ (⊤ : WithTop ℤ) + _ = ⊤
  rw [max_top_right, top_add]

private theorem top_le_expiryOrder_iff (e : Option ℤ) : ⊤ ≤ expiryOrder e ↔ e = none := by
  cases e with
  | none => exact iff_of_true le_rfl rfl
  | some x => exact iff_of_false (not_expiryOrder_none_le x) (Option.some_ne_none x)

/-- The expiry that a renewal by some days gives the client is what it owes exactly if the days
count. -/
theorem owedExpiry_le_iff {s s' : Site} {id : ClientId} {c c' : Client} {days : ℕ}
    (hnow : s'.base.now = s.base.now)
    (hexpiry : c'.expiresAt = if days = 0 then c.expiresAt
      else some (max (c.expiresAt.getD s.base.now) s.base.now + days * DAY_MS))
    (hstart : s'.pendingStarts.get? id = if days = 0 then s.pendingStarts.get? id else none) :
    s.owedExpiry id c days ≤ s'.effectiveExpiry id c' ↔ s.DaysCount id c days := by
  unfold owedExpiry effectiveExpiry DaysCount
  rw [hexpiry, hstart, hnow]
  by_cases hdays : days = 0
  -- nothing is added: the expiry is what it was
  · rw [if_pos hdays, if_pos hdays, if_pos hdays, if_pos hdays, top_le_expiryOrder_iff,
      Option.or_eq_none_iff, Option.map_eq_none_iff]
  · rw [if_neg hdays, if_neg hdays, if_neg hdays, if_neg hdays, Option.some_or]
    cases c.expiresAt with
    | some e =>
        rw [Option.some_or, expiryOrder_date_add, expiryOrder_some_le]
        simp [max_comm]
    | none =>
        rw [Option.none_or]
        cases s.pendingStarts.get? id with
        | none =>
            rw [Option.map_none, expiryOrder_never_add]
            simp [not_expiryOrder_none_le]
        | some p =>
            -- the days of the pending start are gone
            rw [Option.map_some, expiryOrder_date_add, expiryOrder_some_le]
            have hday : (0 : ℤ) < DAY_MS := by decide
            simp only [Option.getD_none, max_self, Option.isSome_none, Bool.false_eq_true, false_or,
              Option.some.injEq]
            constructor
            · intro hle
              by_contra hne
              have hpos : (0 : ℤ) < p * DAY_MS := mul_pos (by omega) hday
              have hmax := le_max_right (s.base.now : ℤ) (s.base.now + p * DAY_MS)
              omega
            · rintro rfl
              simp

/-! ## Orders without a package -/

theorem DeliversRenewal.same {snap : PlanSnapshot} {id : ClientId} {s s₁ s₂ : Site}
    (hclients : s₂.clients = s₁.clients) (hstarts : s₂.pendingStarts = s₁.pendingStarts)
    (hnow : s₂.base.now = s₁.base.now) :
    DeliversRenewal snap id s s₂ ↔ DeliversRenewal snap id s s₁ := by
  unfold DeliversRenewal effectiveExpiry
  rw [hclients, hstarts, hnow]

/-- The traffic that a renewed client has used is what the reset has left. -/
theorem Renewed.used {s s' : Site} {f : FoundOrder} {id : ClientId} (h : s.Renewed f id s')
    {c : Client} (hc : s'.clients.get? id = some c) :
    c.usedUp + c.usedDown = s.unresetTraffic id := by
  obtain ⟨s₁, x, hsynced, hzeroed, -, hpushed⟩ := h.update
  have hlinks : (s₁.updated f.seller (renewal f.info.planSnapshot) (some f.id) x).links =
      s₁.links := by
    unfold updated startSettled
    split <;> rfl
  have hkept : Zeroed (s.zeroedLinks id) s
      (s₁.updated f.seller (renewal f.info.planSnapshot) (some f.id) x) := by
    unfold Zeroed at hzeroed ⊢
    rw [hlinks, hzeroed]
  have hall := hkept.pushed hpushed
  obtain ⟨hup, hdown⟩ := h.tallied c hc
  rw [hup, hdown, hall.linksOf id ClientServer.up (fun _ => rfl) fun _ => rfl,
    hall.linksOf id ClientServer.down (fun _ => rfl) fun _ => rfl, unresetTraffic,
    ← List.sum_map_add]
  congr 1
  refine List.map_congr_left fun l _ => ?_
  split <;> rfl

/-- A renewal delivers the plan exactly if all counters are reset and the days count. -/
theorem Renewed.delivers_iff {s s' : Site} {f : FoundOrder} {id : ClientId}
    (h : s.Renewed f id s') : DeliversRenewal f.info.planSnapshot id s s' ↔
      s.unresetTraffic id = 0 ∧ ∀ c, s.clients.get? id = some c →
      s.DaysCount id c f.info.planSnapshot.days := by
  obtain ⟨s₁, x, hsynced, -, hverdict, hpushed⟩ := h.update
  have hok := updateVerdict_accepted hverdict
  obtain ⟨hid, hget₁, -⟩ := clientOf_id hok.found
  have hsettled := hsynced.client id
  rw [hget₁] at hsettled
  obtain ⟨c, hc, hrow⟩ := Option.map_eq_some_iff.mp hsettled.symm
  obtain ⟨c', hc', hrow'⟩ := hok.row hpushed.synced
  have hnow₁ : s₁.base.now = s.base.now := hsynced.same (fun s => s.base.now) fun _ => rfl
  have hnow : s'.base.now = s.base.now := by
    rw [hpushed.same (fun s => s.base.now) fun _ => rfl, ← hnow₁]
    show (s₁.base.bill f.seller x.cost x.current.id).now = _
    unfold World.bill
    split <;> rfl
  -- what the renewal has written: the limit, the expiry and the pending start
  have hlimit : c'.trafficLimit = gbToBytes f.info.planSnapshot.trafficGB := by
    have hcol := congrArg Client.trafficLimit hrow'
    change c'.trafficLimit = (x.data.apply x.current.row).trafficLimit at hcol
    have hset := (updateLimit_some hok.limit).1
    rw [hcol, ClientData.apply, hset, max_eq_right (Nat.cast_nonneg _)]
    rfl
  have hexpiry : c'.expiresAt = if f.info.planSnapshot.days = 0 then c.expiresAt
      else some (max (c.expiresAt.getD s.base.now) s.base.now + f.info.planSnapshot.days *
        DAY_MS) := by
    have hcol := congrArg Client.expiresAt hrow'
    change c'.expiresAt = (x.data.apply x.current.row).expiresAt at hcol
    have hold : x.current.row.expiresAt = c.expiresAt := (congrArg Client.expiresAt hrow).symm
    have hadd : (renewal f.info.planSnapshot).addDays = some f.info.planSnapshot.days := rfl
    rw [hcol, ClientData.apply, hok.expiry, newExpiry_addDays _ _ hadd, hold, hnow₁]
    by_cases hdays : f.info.planSnapshot.days = 0
    · rw [if_pos hdays, if_pos (by exact_mod_cast hdays)]
      rfl
    · rw [if_neg hdays, if_neg (by exact_mod_cast hdays)]
      rfl
  have hstart : s'.pendingStarts.get? id =
      if f.info.planSnapshot.days = 0 then s.pendingStarts.get? id else none := by
    have hstarts₁ : s₁.pendingStarts = s.pendingStarts :=
      hsynced.same Site.pendingStarts fun _ => rfl
    rw [hpushed.same Site.pendingStarts fun _ => rfl]
    show (s₁.startSettled x.current.id _).pendingStarts.get? id = _
    unfold startSettled UpdateClientInput.dates
    by_cases hdays : f.info.planSnapshot.days = 0
    · simp [renewal, UpdateClientInput.none, hdays, hstarts₁]
    · simp [renewal, UpdateClientInput.none, hdays, hid, Table.get?_erase]
  have hused := h.used hc'
  have hdays := owedExpiry_le_iff hnow hexpiry hstart
  constructor
  · rintro ⟨c₀, c₀', hc₀, hc₀', hzero, -, hle⟩
    obtain rfl : c₀ = c := Option.some.inj (hc₀.symm.trans hc)
    obtain rfl : c₀' = c' := Option.some.inj (hc₀'.symm.trans hc')
    refine ⟨hused.symm.trans hzero, fun c₁ hc₁ => ?_⟩
    obtain rfl : c₁ = c₀ := Option.some.inj (hc₁.symm.trans hc)
    exact hdays.mp hle
  · rintro ⟨hzero, hcount⟩
    exact ⟨c, c', hc, hc', hused.trans hzero, hlimit, hdays.mpr (hcount c hc)⟩

/-! ## Orders of a package -/

/-- A change that leaves the subscriptions alone. -/
def SameSubscriptions (s s' : Site) : Prop :=
  s'.clients = s.clients ∧ s'.pendingStarts = s.pendingStarts ∧ s'.base.now = s.base.now

theorem SameSubscriptions.refl (s : Site) : SameSubscriptions s s := ⟨rfl, rfl, rfl⟩

theorem SameSubscriptions.trans (s s' s'' : Site) (h : SameSubscriptions s s')
    (h' : SameSubscriptions s' s'') : SameSubscriptions s s'' :=
  ⟨h'.1.trans h.1, h'.2.1.trans h.2.1, h'.2.2.trans h.2.2⟩

theorem SameSubscriptions.of_booked {s s' : Site} (h : Booked s s') : SameSubscriptions s s' :=
  ⟨h.same Site.clients fun _ => rfl, h.same Site.pendingStarts fun _ => rfl,
    h.same (fun s => s.base.now) fun _ => rfl⟩

theorem grantPanel_sameSubscriptions (f : FoundOrder) (link : PanelPlanLink)
    (pkg : PanelPackage) (now : ℤ) (key : AdminId × BuyerKey) :
    (grantPanel f link pkg now key).Keeps SameSubscriptions := by
  refine grantPanel_keeps SameSubscriptions.refl (keeps_step fun s => ⟨rfl, rfl, rfl⟩) f
    (fun account => keeps_step fun s => ?_) (fun seen figures g => keeps_step fun s => ?_)
    link pkg now key
  · split
    · exact SameSubscriptions.refl s
    · exact ⟨rfl, rfl, rfl⟩
  · cases s.operator seen.id with
    | none => exact SameSubscriptions.refl s
    | some o => exact ⟨rfl, rfl, rfl⟩

/-- An order of a package leaves the subscriptions alone. -/
theorem provisionPanelOrder_sameSubscriptions (f : FoundOrder) (link : PanelPlanLink) (s : Site) :
    Prog.wp (provisionPanelOrder f link) (fun _ => SameSubscriptions s)
      (fun _ => SameSubscriptions s) s :=
  provisionPanelOrder_wp f link s (fun _ _ h h₁ => h₁.trans _ _ _ (.of_booked h))
    (fun _ => SameSubscriptions.refl s) fun _ => (grantPanel_sameSubscriptions f link _ _ _).wp
      SameSubscriptions.refl SameSubscriptions.trans s

/-! ## All renewal orders -/

/-- A paid renewal order that is marked fulfilled has delivered the plan exactly if it fits the
state that it found. -/
theorem fulfilledRenewal_delivers_iff (s : Site) {id : OrderId} {f : FoundOrder} {client : ClientId}
    (hfound : s.findOrder id = some f) (hpaid : f.order.status = .paid)
    (hrenew : f.info.renewClientId = some client) :
    Prog.wp (fulfillOrder id) (fun _ s' => s'.orderStatus id = some .fulfilled →
        (DeliversRenewal f.info.planSnapshot client s s' ↔ s.RenewalFits f client))
      (fun _ _ => False) s := by
  unfold RenewalFits
  cases hlink : s.linkOf f.info.planId with
  | some link =>
      rw [if_pos (by rfl)]
      refine wp_mono _ (fulfillOrder_panel_wp hfound hpaid hlink (wp_and
        (provisionPanelOrder_sameSubscriptions f link _) (provisionPanelOrder_returns f link _ ?_)))
        (fun _ s' h _ => ?_) fun _ _ h => h.2
      · obtain ⟨hid, horder, -⟩ := findOrder_some hfound
        show (s.base.orders.get? f.id).isSome
        rw [hid, horder]
        rfl
      · obtain ⟨⟨hclients, hstarts, hnow⟩, -⟩ := h
        exact DeliversRenewal.same hclients hstarts hnow
  | none =>
      rw [if_neg (by simp)]
      refine fulfillOrder_wp hfound hpaid hlink (fun s₁ s₂ hbooked h => ?_) ?_
      · obtain ⟨hclients, hstarts, hnow⟩ := SameSubscriptions.of_booked hbooked
        exact (DeliversRenewal.same hclients hstarts hnow).trans h
      · unfold orderConfig
        rw [hrenew]
        exact wp_mono _ (renewConfig_spec f client (s.begun id) (findOrder_seller hfound).1)
          (fun r s' h => ⟨h.2.1.delivers_iff, h.2.2⟩) fun _ _ h => h

/-- A client of the owner whose thirty days start with its first connection, and a paid order that
renews it by a plan of thirty days. -/
def lateStartSite : Site :=
  { endlessSite with
    base := { endlessSite.base with orders := Table.empty.set 5 ⟨"t", 1, .paid, 0, none,
      none, some 0⟩ }
    accounts := Table.empty.set 1 endlessOwner.account
    pendingStarts := Table.empty.set 7 30
    orderInfo := Table.empty.set 5
      ⟨none, none, none, some 7, none, none, none, none, ⟨"p", 0, 30, 0, []⟩, none⟩ }

def lateStartOrder : FoundOrder :=
  ⟨5, ⟨"t", 1, .paid, 0, none, none, some 0⟩,
    ⟨none, none, none, some 7, none, none, none, none, ⟨"p", 0, 30, 0, []⟩, none⟩, endlessOwner⟩

/-- The order is fulfilled and the client has thirty days from now, not sixty. -/
theorem fulfilledRenewal_drops_start :
    lateStartSite.findOrder 5 = some lateStartOrder ∧
      ((fulfillOrder 5).run lateStartSite).2.orderStatus 5 = some .fulfilled ∧
      ¬DeliversRenewal lateStartOrder.info.planSnapshot 7 lateStartSite
        ((fulfillOrder 5).run lateStartSite).2 := by
  refine ⟨by decide, by decide +kernel, ?_⟩
  rintro ⟨c, c', hc, hc', -, -, hle⟩
  have hold : (lateStartSite.clients.get? 7).map Client.expiresAt = some none := by decide
  have hnew : (((fulfillOrder 5).run lateStartSite).2.clients.get? 7).map Client.expiresAt =
      some (some (30 * DAY_MS)) := by decide +kernel
  rw [hc] at hold
  rw [hc'] at hnew
  have howed : lateStartSite.owedExpiry 7 c 30 = expiryOrder (some (60 * DAY_MS)) := by
    rw [owedExpiry, effectiveExpiry, Option.some.inj hold]
    decide
  have hgot : ((fulfillOrder 5).run lateStartSite).2.effectiveExpiry 7 c' =
      expiryOrder (some (30 * DAY_MS)) := by
    rw [effectiveExpiry, Option.some.inj hnew]
    rfl
  have hdays : lateStartOrder.info.planSnapshot.days = 30 := rfl
  rw [hdays, howed, hgot, expiryOrder_some_le] at hle
  exact absurd hle (by decide)

theorem fulfilledRenewal_delivers_iff_lateStart :
    Prog.wp (fulfillOrder 5) (fun _ s' => s'.orderStatus 5 = some .fulfilled →
        (DeliversRenewal lateStartOrder.info.planSnapshot 7 lateStartSite s' ↔
          lateStartSite.RenewalFits lateStartOrder 7))
      (fun _ _ => False) lateStartSite :=
  fulfilledRenewal_delivers_iff lateStartSite (by decide) rfl rfl

end Site

end SRPanel
