import SRPanel.Clients.Update
import SRPanel.Model.Refunds

/-!
# Prices and charges

What `quoteClientCost` and the billing of `updateClient` come to, as figures of a state, and what
the ledger says that a seller has paid.
-/

namespace SRPanel

open Interleaving

/-- The prices of the account are not negative; the settings cannot hold negative ones. -/
def Account.Priced (a : Account) : Prop := (∀ p ∈ a.pricePerGB, 0 ≤ p) ∧ ∀ p ∈ a.pricePerDay, 0 ≤ p

theorem Account.Priced.perGB {a : Account} (h : a.Priced) (p : PricingSettings) :
    0 ≤ (Site.unitPrices p a).perGB := by
  show 0 ≤ a.pricePerGB.getD p.pricePerGB
  cases hprice : a.pricePerGB with
  | none => exact Int.natCast_nonneg _
  | some x => exact h.1 x hprice

theorem Account.Priced.perDay {a : Account} (h : a.Priced) (p : PricingSettings) :
    0 ≤ (Site.unitPrices p a).perDay := by
  show 0 ≤ a.pricePerDay.getD p.pricePerDay
  cases hprice : a.pricePerDay with
  | none => exact Int.natCast_nonneg _
  | some x => exact h.2 x hprice

/-- The GB that a patch adds, as `updateClient` counts them. -/
def UpdateClientInput.extraGB (input : UpdateClientInput) (c : Client) : ℚ :=
  (input.trafficGB.map fun gb => max 0 (Binary64.sub gb (bytesToGb c.trafficLimit))).getD 0

/-- The days that a patch adds, as `updateClient` counts them. -/
def UpdateClientInput.extraDays (input : UpdateClientInput) : ℤ := max 0 (input.addDays.getD 0)

theorem UpdateClientInput.extraGB_nonneg (input : UpdateClientInput) (c : Client) :
    0 ≤ input.extraGB c := by
  unfold extraGB
  cases input.trafficGB with
  | none => exact le_rfl
  | some gb => exact le_max_left _ _

theorem UpdateClientInput.extraDays_nonneg (input : UpdateClientInput) : 0 ≤ input.extraDays :=
  le_max_left _ _

namespace Site

theorem UnitPrices.cost_nonneg {u : UnitPrices} (hgb : 0 ≤ u.perGB) (hday : 0 ≤ u.perDay) (gb : ℚ)
    (days : ℤ) : 0 ≤ u.cost gb days := by
  unfold UnitPrices.cost
  split
  · exact add_nonneg (mul_nonneg (le_max_left _ _) hgb) (mul_nonneg (le_max_left _ _) hday)
  · exact le_rfl

theorem UnitPrices.cost_zero (u : UnitPrices) : u.cost 0 0 = 0 := by
  unfold UnitPrices.cost
  simp

/-- The price of some traffic and days for an actor. -/
def clientCost (s : Site) (actor : Operator) (gb : ℚ) (days : ℤ) : ℤ :=
  if actor.role = .owner then 0 else (unitPrices s.pricing actor.account).cost gb days

theorem quoteClientCost_run (actor : Operator) (gb : ℚ) (days : ℤ) (s : Site) :
    (quoteClientCost actor gb days).run s = (.ok (s.clientCost actor gb days), s) := by
  unfold quoteClientCost clientCost
  split
  · rfl
  · rfl

theorem clientCost_nonneg {actor : Operator} (hpriced : actor.account.Priced) (s : Site) (gb : ℚ)
    (days : ℤ) : 0 ≤ s.clientCost actor gb days := by
  unfold clientCost
  split
  · exact le_rfl
  · exact UnitPrices.cost_nonneg (hpriced.perGB _) (hpriced.perDay _) gb days

theorem clientCost_zero (s : Site) (actor : Operator) : s.clientCost actor 0 0 = 0 := by
  unfold clientCost
  split
  · rfl
  · exact UnitPrices.cost_zero _

theorem renewCost_run (actor : Operator) (gb : ℚ) (days : ℤ) (s : Site) :
    (renewCost actor gb days).run s =
      (.ok (if s.pricing.chargeOnRenew then s.clientCost actor gb days else 0), s) := by
  unfold renewCost
  rw [Prog.run_bind, read, Prog.run_query]
  dsimp only
  split
  · exact quoteClientCost_run actor gb days s
  · rfl

theorem covers_zero (w : World) (actor : Operator) : w.Covers actor 0 := by
  intro h
  simp [Operator.pays] at h

/-- An owner, or a patch that adds nothing, is charged nothing. -/
theorem extraCost_zero {s : Site} {actor : Operator} {c : Client} {input : UpdateClientInput}
    (hfree : ¬(actor.role ≠ .owner && (0 < input.extraGB c || 0 < input.extraDays)) = true) :
    (if s.pricing.chargeOnRenew then s.clientCost actor (input.extraGB c) input.extraDays else 0) =
    0 := by
  have hzero : s.clientCost actor (input.extraGB c) input.extraDays = 0 := by
    by_cases hrole : actor.role = .owner
    · unfold clientCost
      rw [if_pos hrole]
    · simp only [ne_eq, hrole, not_false_eq_true, decide_true, Bool.true_and, Bool.or_eq_true,
        decide_eq_true_eq, not_or, not_lt] at hfree
      rw [le_antisymm hfree.1 (input.extraGB_nonneg c), le_antisymm hfree.2 input.extraDays_nonneg,
        clientCost_zero]
  rw [hzero, ite_self]

/-- What `updateClient` charges when its guards pass. -/
theorem updateCost_eq {s : Site} {actor : Operator} {current : FullClient}
    {input : UpdateClientInput} {cost : ℤ}
    (h : ((updateCost actor current input).run s).1 = .ok cost) :
    cost = if s.pricing.chargeOnRenew then
      s.clientCost actor (input.extraGB current.row) input.extraDays else 0 := by
  unfold updateCost at h
  change ((if actor.role ≠ .owner && (0 < input.extraGB current.row || 0 < input.extraDays) then _
    else _ : Task ℤ).run s).1 = _ at h
  split at h
  · obtain ⟨c, hc, h⟩ := (renewCost_reads actor _ _).bind_ok h
    obtain ⟨_, -, h⟩ := (assertAffordable_reads actor c).bind_ok h
    change ((renewCost actor (input.extraGB current.row) input.extraDays).run s).1 = _ at hc
    rw [renewCost_run] at hc
    rw [← Except.ok.inj h, ← Except.ok.inj hc]
  · next hfree =>
    -- an owner, or nothing added
    obtain rfl := Except.ok.inj h
    exact (extraCost_zero hfree).symm

/-- With billing on, two amounts of traffic cost the same exactly if no GB is billed or they are as
many. -/
theorem clientCost_eq_iff {s : Site} (hbilling : s.pricing.billingEnabled) (actor : Operator)
    (gb gb' : ℚ) (days : ℤ) : s.clientCost actor gb days = s.clientCost actor gb' days ↔
      actor.role = .owner ∨ (unitPrices s.pricing actor.account).perGB = 0 ∨
      max 0 ⌈gb⌉ = max 0 ⌈gb'⌉ := by
  unfold clientCost UnitPrices.cost
  have henabled : (unitPrices s.pricing actor.account).enabled = true := hbilling
  by_cases hrole : actor.role = .owner
  · simp [hrole]
  · rw [if_neg hrole, if_neg hrole, henabled, if_pos rfl, if_pos rfl, add_left_inj, mul_eq_mul_right_iff]
    simp only [hrole, false_or]
    exact or_comm

/-! ## What a seller has paid -/

/-- The purchases that the ledger has for a seller. -/
def charged (s : Site) (adminId : AdminId) : ℤ :=
  purchases (s.base.walletTxs.filter fun t => t.holder = adminId)

/-- A bill adds its cost to what the seller has paid. -/
theorem charged_billed (s : Site) (actor : Operator) (cost : ℤ) (id : ClientId) :
    (s.billed actor cost id).charged actor.id =
      s.charged actor.id + if actor.pays cost then cost else 0 := by
  unfold charged billed World.bill
  split
  · simp only [List.filter_cons_of_pos, decide_true, purchases, List.map_cons, List.sum_cons, neg_neg]
    exact add_comm _ _
  · rw [add_zero]

theorem clientCost_pays {actor : Operator} (hpriced : actor.account.Priced) (s : Site) (gb : ℚ)
    (days : ℤ) : (if actor.pays (s.clientCost actor gb days) then
      s.clientCost actor gb days else 0) = s.clientCost actor gb days := by
  have hnonneg := clientCost_nonneg hpriced s gb days
  split
  · rfl
  · next hfree =>
    by_cases hrole : actor.role = .owner
    · unfold clientCost
      rw [if_pos hrole]
    · have hle : ¬0 < s.clientCost actor gb days := by simpa [Operator.pays, hrole] using hfree
      omega

end Site

end SRPanel
