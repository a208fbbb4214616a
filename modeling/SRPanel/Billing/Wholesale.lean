import SRPanel.Billing.Prices
import SRPanel.Delivery.Subscriptions

/-!
# The wholesale cost of an order

An order that creates a client is billed for the whole plan. A renewal resets the counters, so that
it hands out the whole plan too, but it is billed only for what the limit of the plan has over the
old limit: for a client that had a limit of 1 GB or more the seller pays for less.
-/

namespace SRPanel

open Interleaving

theorem bytesToGb_hundredths (bytes : ℤ) : ∃ k : ℤ, bytesToGb bytes = k / 100 := ⟨_, rfl⟩

/-- A number with seven binary digits after the point, of at most 46 in front of it. -/
theorem rep_seven {k : ℤ} (h : |k| ≤ 2 ^ 53) : Binary64.Rep ((k : ℚ) / 128) :=
  ⟨k, -7, h, by norm_num, by norm_num [div_eq_mul_inv]⟩

section

variable {gb : ℕ} {n : ℤ} {old : ℚ}

/-- Whole GB less some parts of 128 are a double. -/
private theorem rep_parts (hsize : gb ≤ 1000000) (hn : |n| ≤ 128) :
    Binary64.Rep ((gb : ℚ) - (n : ℚ) / 128) := by
  have hparts : (gb : ℚ) - (n : ℚ) / 128 = ((128 * gb - n : ℤ) : ℚ) / 128 := by
    push_cast
    ring
  obtain ⟨hlow, hhigh⟩ := abs_le.mp hn
  rw [hparts]
  exact rep_seven (abs_le.mpr ⟨by omega, by omega⟩)

private theorem sub_gb (hsize : gb ≤ 1000000) (old : ℚ) :
    Binary64.sub gb old = Binary64.round (gb - Binary64.round old) := by
  have hrep := rep_parts (n := 0) hsize (by norm_num)
  rw [Int.cast_zero, zero_div, sub_zero] at hrep
  rw [Binary64.sub, Binary64.round_eq hrep]

/-- An old limit of at most `n` parts of 128 takes away no more than these. -/
private theorem le_sub_parts (hsize : gb ≤ 1000000) (n : ℤ) (hn : |n| ≤ 128)
    (h : old ≤ (n : ℚ) / 128) :
    (gb : ℚ) - (n : ℚ) / 128 ≤ Binary64.sub gb old := by
  have hround := Binary64.round_le (rep_seven (hn.trans (by norm_num))) h
  rw [sub_gb hsize]
  exact Binary64.le_round (rep_parts hsize hn) (by linarith)

/-- An old limit of at least `n` parts of 128 takes away these. -/
private theorem sub_le_parts (hsize : gb ≤ 1000000) (n : ℤ) (hn : |n| ≤ 128)
    (h : (n : ℚ) / 128 ≤ old) :
    Binary64.sub gb old ≤ (gb : ℚ) - (n : ℚ) / 128 := by
  have hround := Binary64.le_round (rep_seven (hn.trans (by norm_num))) h
  rw [sub_gb hsize]
  exact Binary64.round_le (rep_parts hsize hn) (by linarith)

/-- A limit of `gb` GB has `gb` GB over an old one of `k` hundredths exactly if the old one is below
one GB. -/
theorem ceil_extra_eq_iff (hsize : gb ≤ 1000000) (k : ℤ) :
    max 0 ⌈max 0 (Binary64.sub gb ((k : ℚ) / 100))⌉ = max 0 ⌈(gb : ℚ)⌉ ↔
      0 ≤ (k : ℚ) / 100 ∧ (gb = 0 ∨ (k : ℚ) / 100 < 1) := by
  have hcast : (((gb : ℕ) : ℤ) : ℚ) = (gb : ℚ) := by push_cast; rfl
  have hceil : max 0 ⌈(gb : ℚ)⌉ = (gb : ℤ) := by
    rw [← hcast, Int.ceil_intCast]
    exact max_eq_right (Int.natCast_nonneg gb)
  rw [hceil, max_eq_right (Int.ceil_nonneg (le_max_left 0 _)), Int.ceil_eq_iff, hcast]
  rcases lt_or_ge k 0 with hneg | hnonneg
  -- a negative limit adds to the plan
  · have hk : (k : ℚ) ≤ -1 := by exact_mod_cast (by omega : k ≤ -1)
    have hlow : (k : ℚ) / 100 ≤ ((-1 : ℤ) : ℚ) / 128 := by push_cast; linarith
    have hmore := le_sub_parts hsize (-1) (by norm_num) hlow
    push_cast at hmore
    refine iff_of_false (fun h => ?_) fun h => by linarith [h.1]
    have hle := (le_max_right 0 _).trans h.2
    linarith
  have hk : (0 : ℚ) ≤ (k : ℚ) / 100 := by
    have : (0 : ℚ) ≤ k := by exact_mod_cast hnonneg
    positivity
  have hwhole := sub_le_parts hsize 0 (by norm_num) ((by simpa using hk) : _ ≤ (k : ℚ) / 100)
  rw [Int.cast_zero, zero_div, sub_zero] at hwhole
  rcases lt_or_ge k 100 with hsmall | hlarge
  -- at most 99 hundredths: 127 parts of 128 are more
  · have hk' : (k : ℚ) ≤ 99 := by exact_mod_cast (by omega : k ≤ 99)
    have hhigh : (k : ℚ) / 100 ≤ ((127 : ℤ) : ℚ) / 128 := by push_cast; linarith
    have hmore := le_sub_parts hsize 127 (by norm_num) hhigh
    push_cast at hmore
    refine iff_of_true ⟨lt_max_iff.mpr (.inr ?_), max_le (Nat.cast_nonneg gb) hwhole⟩
      ⟨hk, .inr ?_⟩
    · linarith
    · linarith
  · have hk' : (100 : ℚ) ≤ k := by exact_mod_cast hlarge
    have hlow : ((128 : ℤ) : ℚ) / 128 ≤ (k : ℚ) / 100 := by push_cast; linarith
    have hless := sub_le_parts hsize 128 (by norm_num) hlow
    push_cast at hless
    constructor
    · rintro ⟨hlt, -⟩
      refine ⟨hk, .inl ?_⟩
      by_contra hne
      have hge : (1 : ℚ) ≤ gb := by exact_mod_cast Nat.one_le_iff_ne_zero.mpr hne
      rcases lt_max_iff.mp hlt with h | h
      · linarith
      · linarith
    · rintro ⟨-, rfl | hlt⟩
      · exact ⟨lt_max_iff.mpr (.inl (by norm_num)), max_le (by norm_num) hwhole⟩
      · linarith

end

namespace Site

/-- A renewal is billed for the whole plan: nothing is charged for GB, or the old limit leaves none
out. -/
def BilledWhole (s : Site) (f : FoundOrder) : Prop :=
  ∀ id, f.info.renewClientId = some id → ∀ c, s.clients.get? id = some c →
    f.seller.role = .owner ∨ (unitPrices s.pricing f.seller.account).perGB = 0 ∨
      0 ≤ bytesToGb c.trafficLimit ∧
      (f.info.planSnapshot.trafficGB = 0 ∨ bytesToGb c.trafficLimit < 1)

theorem charged_same {s s' : Site} (h : s'.base.walletTxs = s.base.walletTxs) (id : AdminId) :
    s'.charged id = s.charged id := by
  rw [charged, h, charged]

/-- The state after the draws of a new row. -/
private def skipped (s : Site) : Site :=
  { s with base := { s.base with nextId := s.base.nextId + 3 } }

/-- A new client is billed by the price of the plan. -/
theorem Opened.charged {s s' : Site} {f : FoundOrder} (h : s.Opened f s')
    (hpriced : f.seller.account.Priced) :
    s'.charged f.seller.id = s.charged f.seller.id +
      s.clientCost f.seller f.info.planSnapshot.trafficGB f.info.planSnapshot.days := by
  obtain ⟨name, targets, via, a, hadmit, hprovisioned⟩ := h
  have hcost :
      a.cost = s.clientCost f.seller f.info.planSnapshot.trafficGB f.info.planSnapshot.days := by
    have hquote := (admitClient_admitted hadmit).cost
    rw [quoteClientCost_run] at hquote
    exact (Except.ok.inj hquote).symm
  have htxs : s'.base.walletTxs =
      (s.drawn.skipped.billed f.seller a.cost s.drawn.base.nextId).base.walletTxs :=
    congrArg (fun s => s.base.walletTxs) hprovisioned.rest
  rw [charged_same htxs, charged_billed, hcost, clientCost_pays hpriced]
  rfl

/-- A renewal is billed by the price of what the limit of the plan has over the old one. -/
theorem Renewed.charged {s s' : Site} {f : FoundOrder} {id : ClientId} (h : s.Renewed f id s')
    (hpriced : f.seller.account.Priced) (hrenewals : s.pricing.chargeOnRenew) {c : Client}
    (hc : s.clients.get? id = some c) :
    s'.charged f.seller.id = s.charged f.seller.id + s.clientCost f.seller
      (max 0 (Binary64.sub f.info.planSnapshot.trafficGB
        (bytesToGb c.trafficLimit))) f.info.planSnapshot.days := by
  obtain ⟨s₁, x, hsynced, -, hverdict, hpushed⟩ := h.update
  have hok := updateVerdict_accepted hverdict
  obtain ⟨hid, hget₁, -⟩ := clientOf_id hok.found
  have hlimit : x.current.row.trafficLimit = c.trafficLimit := by
    have hsettled := hsynced.client id
    rw [hget₁, hc, Option.map_some, Option.map_some] at hsettled
    have hcol := congrArg Client.trafficLimit (Option.some.inj hsettled)
    exact hcol
  have hpricing : s₁.pricing = s.pricing := hsynced.same Site.pricing fun _ => rfl
  have hcost : x.cost = s.clientCost f.seller
      (max 0 (Binary64.sub f.info.planSnapshot.trafficGB
        (bytesToGb c.trafficLimit))) f.info.planSnapshot.days := by
    have hextra : (renewal f.info.planSnapshot).extraDays = f.info.planSnapshot.days :=
      max_eq_right (Int.natCast_nonneg _)
    rw [updateCost_eq hok.cost, hpricing, hrenewals, if_pos rfl, hextra]
    unfold clientCost UpdateClientInput.extraGB
    rw [hpricing, hlimit]
    rfl
  have htxs₁ : s₁.base.walletTxs = s.base.walletTxs :=
    hsynced.same (fun s => s.base.walletTxs) fun _ => rfl
  have htxs : s'.base.walletTxs = (s₁.billed f.seller x.cost x.current.id).base.walletTxs :=
    hpushed.same (fun s => s.base.walletTxs) fun _ => rfl
  rw [charged_same htxs, charged_billed, charged_same htxs₁, hcost, clientCost_pays hpriced]

/-- A fulfilled subscription order charges its seller the price of the plan exactly if it is billed
for the whole plan. A plan has at most a million GB. -/
theorem fulfilledOrder_charges_iff (s : Site) {id : OrderId} {f : FoundOrder} {cost : ℤ}
    (hfound : s.findOrder id = some f) (hsize : f.info.planSnapshot.trafficGB ≤ 1000000)
    (hpaid : f.order.status = .paid)
    (hlink : s.linkOf f.info.planId = none) (hpriced : f.seller.account.Priced)
    (hbilling : s.pricing.billingEnabled) (hrenewals : s.pricing.chargeOnRenew)
    (hfresh : ∀ k l, s.links.get? k = some l → k.clientId < s.base.nextId)
    (hcost :
      ((quoteClientCost f.seller f.info.planSnapshot.trafficGB f.info.planSnapshot.days).run s).1 =
      .ok cost) :
    Prog.wp (fulfillOrder id) (fun _ s' => s'.orderStatus id = some .fulfilled →
        (s'.charged f.seller.id = s.charged f.seller.id + cost ↔ s.BilledWhole f))
      (fun _ _ => False) s := by
  rw [quoteClientCost_run] at hcost
  obtain rfl := Except.ok.inj hcost
  have hseller := (findOrder_seller hfound).1
  refine fulfillOrder_wp hfound hpaid hlink (fun s₁ s₂ hbooked h => ?_) ?_
  · have htxs : s₂.base.walletTxs = s₁.base.walletTxs := hbooked.same (fun s => s.base.walletTxs) fun _ => rfl
    rwa [charged_same htxs]
  · unfold orderConfig BilledWhole
    cases f.info.renewClientId with
    | none =>
        refine Prog.wp_mono _ (createConfig_spec f (s.begun id) hseller hfresh) (fun r s' h => ?_)
          fun _ _ h => h
        exact ⟨iff_of_true (h.2.1.charged hpriced) (fun _ h => by cases h), h.2.2⟩
    | some client =>
        refine Prog.wp_mono _ (renewConfig_spec f client (s.begun id) hseller)
          (fun r s' h => ⟨?_, h.2.2⟩) fun _ _ h => h
        obtain ⟨c, hc⟩ := h.2.1.client
        have hcharged := h.2.1.charged hpriced hrenewals hc
        rw [show (s.begun id).charged f.seller.id = s.charged f.seller.id from rfl] at hcharged
        rw [hcharged, add_right_inj]
        refine (clientCost_eq_iff hbilling f.seller _ _ _).trans ?_
        obtain ⟨k, hk⟩ := bytesToGb_hundredths c.trafficLimit
        rw [hk, ceil_extra_eq_iff hsize k, ← hk]
        simp only [Option.some.injEq, forall_eq', show s.clients.get? client = some c from hc]

/-- A reseller who pays 1000 per GB, a client with a limit of 30 GB, and a paid order that renews it
by a plan of 30 GB. -/
def wholesaleSite : Site :=
  { Site.blank with
    base := { World.blank with
      admins := Table.empty.set 2 ⟨.admin, 100000, 0⟩
      orders := Table.empty.set 5 ⟨"t", 2, .paid, 0, none, none, some 0⟩ }
    accounts := Table.empty.set 2 ⟨"r", 0, none, true, none, none, none, none, none, none, none, []⟩
    pricing := ⟨true, 1000, 0, true⟩
    clients := Table.empty.set 7
      ⟨2, "a", none, none, 8, 9, 32212254720, 0, 0, none, 0, .active, none, none, none, none⟩
    orderInfo := Table.empty.set 5
      ⟨none, none, none, some 7, none, none, none, none, ⟨"p", 30, 0, 0, []⟩, none⟩ }

def wholesaleSeller : Operator :=
  ⟨2, .admin, ⟨"r", 0, none, true, none, none, none, none, none, none, none, []⟩⟩

def wholesaleOrder : FoundOrder :=
  ⟨5, ⟨"t", 2, .paid, 0, none, none, some 0⟩,
    ⟨none, none, none, some 7, none, none, none, none, ⟨"p", 30, 0, 0, []⟩, none⟩, wholesaleSeller⟩

/-- The plan costs 30000, and the renewal is fulfilled for nothing. -/
theorem fulfilledRenewal_charges_nothing :
    wholesaleSite.findOrder 5 = some wholesaleOrder ∧
      ((quoteClientCost wholesaleSeller 30 0).run wholesaleSite).1 = .ok 30000 ∧
      ((fulfillOrder 5).run wholesaleSite).2.orderStatus 5 = some .fulfilled ∧
      ((fulfillOrder 5).run wholesaleSite).2.charged 2 = wholesaleSite.charged 2 := by
  refine ⟨by decide, by decide +kernel, by decide +kernel, by decide +kernel⟩

theorem fulfilledOrder_charges_iff_wholesale :
    Prog.wp (fulfillOrder 5) (fun _ s' => s'.orderStatus 5 = some .fulfilled →
        (s'.charged 2 = wholesaleSite.charged 2 + 30000 ↔ wholesaleSite.BilledWhole wholesaleOrder))
      (fun _ _ => False) wholesaleSite :=
  fulfilledOrder_charges_iff wholesaleSite (f := wholesaleOrder) (by decide) (by decide) rfl rfl
    ⟨fun _ h => by simp [wholesaleOrder, wholesaleSeller] at h, fun _ h => by
      simp [wholesaleOrder, wholesaleSeller] at h⟩
    rfl rfl (fun _ _ h => by cases h) (by decide +kernel)

end Site

end SRPanel
