import SRPanel.Billing.Prices
import SRPanel.Billing.Refunds
import SRPanel.Clients.Kinds

/-!
# Paid traffic

What a client may use is its limit, and what it has used is on its counters. Both are below a whole
number of GB that the seller has paid for: every lift of the limit is charged by whole GB, counted
from the old limit. A reset lowers the counters without a charge, so the traffic is paid for from
one reset to the next and not over the life of the client.
-/

namespace SRPanel

open Interleaving

namespace Site

/-- What the ledger of an admin has charged for a client. -/
def paidFor (s : Site) (adminId : AdminId) (id : ClientId) : ℤ := purchases (s.clientTxs adminId id)

theorem clientTxs_eq (s : Site) (adminId : AdminId) (id : ClientId) :
    s.clientTxs adminId id = (s.rowsOf id).filter fun t => t.holder = adminId := by
  rw [rowsOf, List.filter_filter]
  rfl

theorem paidFor_of_rows {s s' : Site} {id : ClientId} (h : s'.rowsOf id = s.rowsOf id)
    (adminId : AdminId) : s'.paidFor adminId id = s.paidFor adminId id := by
  rw [paidFor, clientTxs_eq, h, ← clientTxs_eq, paidFor]

/-- A bill adds its cost to what has been paid for its client. -/
theorem paidFor_bill {s t : Site} {actor : Operator} {cost : ℤ} {id : ClientId}
    (h : t.base.walletTxs = (s.base.bill actor cost id).walletTxs) :
    t.paidFor actor.id id = s.paidFor actor.id id + if actor.pays cost then cost else 0 := by
  rw [paidFor, clientTxs_eq, rowsOf_bill h, paidFor, clientTxs_eq]
  by_cases hpays : actor.pays cost = true
  · rw [if_pos ⟨hpays, rfl⟩, if_pos hpays, List.filter_cons_of_pos (by simp), purchases_cons,
      billRow_kind, billRow_amount, if_pos rfl, neg_neg, add_comm]
  · rw [if_neg fun hand => hpays hand.1, if_neg hpays, add_zero]

/-- What the price list says about an admin: the seller `a` pays `p` for a GB. -/
structure Terms (a : AdminId) (p : ℤ) (pricing : PricingSettings) (actor : Operator) : Prop where
  role : actor.role ≠ .owner
  priced : actor.account.Priced
  perGB : actor.id = a → (unitPrices pricing actor.account).perGB = p

/-- Billing is on, for renewals too. -/
def Bills (pricing : PricingSettings) : Prop := pricing.billingEnabled ∧ pricing.chargeOnRenew

/-- The cost of some traffic is at least the price of its whole GB, rounded up. -/
theorem le_clientCost {s : Site} {a : AdminId} {p : ℤ} {actor : Operator}
    (hterms : Terms a p s.pricing actor) (hbills : Bills s.pricing) (ha : actor.id = a) {gb : ℚ}
    (hgb : 0 ≤ gb) (days : ℤ) :
    p * ⌈gb⌉ ≤ s.clientCost actor gb days := by
  have hday := mul_nonneg (le_max_left 0 days) (hterms.priced.perDay s.pricing)
  have henabled : (unitPrices s.pricing actor.account).enabled = true := hbills.1
  rw [clientCost, if_neg hterms.role, UnitPrices.cost, if_pos henabled, hterms.perGB ha,
    max_eq_right (Int.ceil_nonneg hgb), mul_comm p]
  exact le_add_of_nonneg_right hday

/-- The GB of a client are paid: a whole number of them covers its limit and its counters. -/
def Funded (a : AdminId) (p : ℤ) (id : ClientId) (s : Site) : Prop :=
  ∀ c, s.clients.get? id = some c → c.adminId = a → 0 < c.trafficLimit ∧
    ∃ n : ℤ, p * n ≤ s.paidFor a id ∧ c.trafficLimit ≤ n * GB ∧ s.usage id ≤ n * GB

/-- Where the ledger has no rows for clients that are not there yet. -/
structure FreshBooks (s : Site) : Prop where
  ids : s.DrawnIds
  rows : ∀ k, s.base.nextId ≤ k → s.rowsOf k = []

/-- What the panels report, and whatever else happens between two requests: the counters of a client
with a limit stop at the limit. -/
structure Reports (s s' : Site) : Prop where
  clients : (s'.clients.mapRows fun _ c => c.settled) = s.clients.mapRows fun _ c => c.settled
  rows : ∀ id, s'.rowsOf id = s.rowsOf id
  links : s.SoundLinks → s'.SoundLinks
  nextId : s.base.nextId ≤ s'.base.nextId
  stops : ∀ id c, s.clients.get? id = some c → 0 < c.trafficLimit →
    s'.usage id ≤ max (s.usage id) c.trafficLimit

end Site

/-- A number of GB as requests and limits have it: up to a million, or whole hundredths of what a
column of bytes holds. -/
def Gauged (gb : ℚ) : Prop := gb ≤ 1000000 ∨ (∃ k : ℤ, gb = k / 100) ∧ gb ≤ 2 ^ 33

namespace Deal

open Site

/-- A deal on these terms that leaves the client `id` with a limit, where the ids below `drawn` are
taken. -/
def Sold (a : AdminId) (p : ℤ) (pricing : PricingSettings) (drawn : ℕ) (id : ClientId) : Deal → Prop
  | opened actor input _ => actor.id = a → drawn ≤ id →
      Terms a p pricing actor ∧ 0 < gbToBytes (max 0 input.trafficGB)
  | changed actor k input _ => k = id → Terms a p pricing actor ∧
      ∀ gb, input.trafficGB = some gb → 0 < gbToBytes (max 0 gb) ∧ Gauged gb
  | _ => True

end Deal

namespace Site

variable {a : AdminId} {p : ℤ} {id : ClientId} {s s' : Site}

theorem FreshBooks.same (h : s.FreshBooks) (hlinks : s'.SoundLinks)
    (hclients : (s'.clients.mapRows fun _ c => c.settled) = s.clients.mapRows fun _ c => c.settled)
    (hrows : ∀ id, s'.rowsOf id = s.rowsOf id) (hnext : s.base.nextId ≤ s'.base.nextId) :
    s'.FreshBooks :=
  ⟨h.ids.of_clients hlinks hclients hnext, fun k hk => by rw [hrows, h.rows k (hnext.trans hk)]⟩

/-- Funds are not lost when the books stay as they are and the counters are covered by the limit. -/
theorem Funded.same (h : s.Funded a p id)
    (hclients : (s'.clients.mapRows fun _ c => c.settled) = s.clients.mapRows fun _ c => c.settled)
    (hrows : s'.rowsOf id = s.rowsOf id)
    (husage : ∀ c, s.clients.get? id = some c → 0 < c.trafficLimit →
      s'.usage id ≤ max (s.usage id) c.trafficLimit) :
    s'.Funded a p id := by
  intro c' hc' howner
  have hget := congrArg (fun t : Table ClientId Client => t.get? id) hclients
  simp only [Table.get?_mapRows, hc', Option.map_some] at hget
  obtain ⟨c, hc, hsettled⟩ := Option.map_eq_some_iff.mp hget.symm
  have hadmin := congrArg Client.adminId hsettled
  have hlimit := congrArg Client.trafficLimit hsettled
  change c.adminId = c'.adminId at hadmin
  change c.trafficLimit = c'.trafficLimit at hlimit
  obtain ⟨hpos, n, hpaid, hle, hused⟩ := h c hc (hadmin.trans howner)
  refine ⟨hlimit ▸ hpos, n, ?_, hlimit ▸ hle, ?_⟩
  · rw [paidFor_of_rows hrows]
    exact hpaid
  · exact (husage c hc hpos).trans (max_le hused hle)

theorem usage_of_links {s s' : Site} (h : s'.links = s.links) (id : ClientId) :
    s'.usage id = s.usage id := by
  rw [usage, linksOf, h, ← linksOf, usage]

/-- A client without links has used nothing. -/
theorem usage_of_unlinked {s : Site} (h : ∀ k, k.clientId = id → s.links.get? k = none) :
    s.usage id = 0 := by
  have hnone : s.linksOf id = [] := by
    refine List.filter_eq_nil_iff.mpr fun l hl hclient => ?_
    have hget := (s.links.mem_rows_iff l.1 l.2).mp hl
    rw [h l.1 (of_decide_eq_true hclient)] at hget
    cases hget
  rw [usage, hnone]
  rfl

theorem usage_without_ne (s : Site) {k : ClientId} (hk : id ≠ k) :
    ((s.links.keep fun l => l.clientId ≠ k).rows.filter fun r => r.1.clientId = id).Perm
    (s.linksOf id) := by
  refine Table.filter_perm_of_get? (p := fun l : LinkKey => l.clientId = id) fun l hl => ?_
  rw [Table.get?_keep, if_pos]
  rw [of_decide_eq_true hl]
  exact decide_eq_true hk

/-- A new client is funded by its bill. -/
theorem Funded.opened (h : s.Funded a p id) (hfresh : s.FreshBooks) (hbills : Bills s.pricing)
    {actor : Operator} {input : CreateClientInput} {x : Admission}
    (hsold : actor.id = a → s.base.nextId = id →
      Terms a p s.pricing actor ∧ 0 < gbToBytes (max 0 input.trafficGB))
    (hadmitted : s.Admitted actor input x) :
    (s.created actor input x none).Funded a p id := by
  intro c hc howner
  rw [created_client] at hc
  split at hc
  · next hid =>
    obtain rfl := Option.some.inj hc
    have ha : actor.id = a := howner
    obtain ⟨hterms, hlimited⟩ := hsold ha hid.symm
    have hcost : x.cost = s.clientCost actor input.trafficGB input.days := by
      have hquote := hadmitted.cost
      rw [quoteClientCost_run] at hquote
      exact (Except.ok.inj hquote).symm
    -- a negative limit would store nothing
    have hgb : 0 ≤ input.trafficGB := by
      by_contra hneg
      rw [max_eq_left (not_le.mp hneg).le] at hlimited
      have hzero : gbToBytes 0 ≤ (0 : ℤ) * GB := gbToBytes_le (by simp)
      rw [zero_mul] at hzero
      exact absurd hlimited (not_lt.mpr hzero)
    refine ⟨hadmitted.limit ▸ hlimited, ⌈input.trafficGB⌉, ?_, ?_, ?_⟩
    · rw [hid, ← ha, paidFor_bill (created_walletTxs s actor input x none), hcost, clientCost_pays hterms.priced]
      have hnone : s.paidFor actor.id s.base.nextId = 0 := by
        rw [paidFor, clientTxs_eq, hfresh.rows _ le_rfl]
        rfl
      rw [hnone, zero_add]
      exact le_clientCost hterms hbills ha hgb input.days
    · show x.limitBytes ≤ _
      rw [hadmitted.limit, max_eq_right hgb]
      exact gbToBytes_le (Int.le_ceil _)
    · have hused : (s.created actor input x none).usage id = 0 := by
        refine usage_of_unlinked fun k hk => ?_
        exact hfresh.ids.links.unlinked (hk.trans hid)
      rw [hused]
      exact mul_nonneg (Int.ceil_nonneg hgb) (Int.natCast_nonneg GB)
  · next hid =>
    obtain ⟨hpos, n, hpaid, hle, hused⟩ := h c hc howner
    refine ⟨hpos, n, ?_, hle, hused⟩
    have hrows : (s.created actor input x none).rowsOf id = s.rowsOf id := by
      rw [rowsOf_bill (created_walletTxs s actor input x none), if_neg fun hand => hid hand.2.symm]
    rw [paidFor_of_rows hrows]
    exact hpaid

/-- A number of GB beyond a whole number `n + m` is more than `m` GB beyond `n`, as numbers are
subtracted. The distance has at most `t` binary digits. -/
theorem lt_sub {gb old : ℚ} {n m : ℤ} {t : ℕ} (hn : 0 ≤ n) (hm : 0 ≤ m)
    (hsize : (n + m + 1) * 2 ^ t ≤ 2 ^ 53) (ht : t ≤ 31) (hold : old ≤ n)
    (hgb : ((n + m : ℤ) : ℚ) + 1 / 2 ^ t ≤ gb) : (m : ℚ) < Binary64.sub gb old := by
  have hone : (1 : ℤ) ≤ 2 ^ t := one_le_pow₀ (by norm_num)
  have hpos : (0 : ℚ) < 1 / 2 ^ t := by positivity
  have hrep : ∀ k : ℤ, 0 ≤ k → (k + 1) * 2 ^ t ≤ 2 ^ 53 → Binary64.Rep ((k : ℚ) + 1 / 2 ^ t) := by
    intro k hk hle
    refine ⟨k * 2 ^ t + 1, -t, abs_le.mpr ⟨by nlinarith, by nlinarith⟩, by omega, ?_⟩
    push_cast
    rw [zpow_neg, zpow_natCast]
    field_simp
  have hhigh : ((n + m : ℤ) : ℚ) + 1 / 2 ^ t ≤ Binary64.round gb :=
    Binary64.le_round (hrep _ (by omega) hsize) hgb
  have hlow : Binary64.round old ≤ n :=
    Binary64.round_le (Binary64.rep_intCast (abs_le.mpr ⟨by omega, by nlinarith⟩)) hold
  have hdiff : (m : ℚ) + 1 / 2 ^ t ≤ Binary64.sub gb old := by
    refine Binary64.le_round (hrep m hm (by nlinarith)) ?_
    push_cast at hhigh
    linarith
  linarith

/-- What is stored of a number of GB is within the old whole number and the GB that are billed. -/
theorem gbToBytes_le_billed {gb old : ℚ} {n : ℤ} (hgauged : Gauged gb) (hn : 0 ≤ n)
    (hold : old ≤ n) : gbToBytes (max 0 gb) ≤ (n + ⌈max 0 (Binary64.sub gb old)⌉) * GB := by
  set m := ⌈max 0 (Binary64.sub gb old)⌉ with hm
  have hceil : Binary64.sub gb old ≤ m := (le_max_right 0 _).trans (Int.le_ceil _)
  have hm₀ : 0 ≤ m := Int.ceil_nonneg (le_max_left 0 _)
  by_contra hover
  -- more is stored than the whole number, so `gb` is above it by half a byte
  have hGB : (GB : ℚ) = 2 ^ 30 := by norm_num [GB]
  have hround : ((n + m : ℤ) : ℚ) * GB + 1 ≤ max 0 gb * GB + 1 / 2 := by
    have hlt : (n + m) * GB + 1 ≤ gbToBytes (max 0 gb) := by omega
    have hfloor := Int.floor_le (max 0 gb * GB + 1 / 2)
    have hcast : (((n + m) * GB + 1 : ℤ) : ℚ) ≤ (gbToBytes (max 0 gb) : ℚ) := by exact_mod_cast hlt
    push_cast at hcast ⊢
    exact hcast.trans hfloor
  have hnm : (0 : ℚ) ≤ ((n + m : ℤ) : ℚ) := by exact_mod_cast (by omega : 0 ≤ n + m)
  rw [hGB] at hround
  have hpos : 0 < gb := by
    by_contra hneg
    rw [max_eq_left (not_lt.mp hneg)] at hround
    linarith
  rw [max_eq_right hpos.le] at hround
  have hgb : ((n + m : ℤ) : ℚ) + 1 / 2 ^ 31 ≤ gb := by linarith
  refine absurd hceil (not_le.mpr ?_)
  rcases hgauged with hmillion | ⟨⟨k, rfl⟩, hcolumn⟩
  · refine lt_sub hn hm₀ ?_ le_rfl hold hgb
    have hle : n + m ≤ 1000000 := by
      have hle : ((n + m : ℤ) : ℚ) ≤ 1000000 := by linarith
      exact_mod_cast hle
    omega
  · have hhundredth : ((n + m : ℤ) : ℚ) + 1 / 100 ≤ (k : ℚ) / 100 := by
      have hlt : (100 * (n + m) : ℤ) < k := by
        have : ((100 * (n + m) : ℤ) : ℚ) < k := by
          push_cast at hgb ⊢
          linarith
        exact_mod_cast this
      have hle : ((100 * (n + m) + 1 : ℤ) : ℚ) ≤ k := by exact_mod_cast hlt
      push_cast at hle ⊢
      linarith
    refine lt_sub (t := 7) hn hm₀ ?_ (by norm_num) hold (by linarith)
    have hle : n + m ≤ 2 ^ 33 := by
      have hle : ((n + m : ℤ) : ℚ) ≤ 2 ^ 33 := by linarith
      exact_mod_cast hle
    omega

/-- A lift of the limit is funded by its bill: it is counted from the old limit, in whole GB. -/
theorem Funded.changed (h : s.Funded a p id) (hbills : Bills s.pricing) {actor : Operator}
    {k : ClientId} {input : UpdateClientInput} {x : Change}
    (hsold : k = id → Terms a p s.pricing actor ∧
      ∀ gb, input.trafficGB = some gb → 0 < gbToBytes (max 0 gb) ∧ Gauged gb)
    (haccepted : s.Accepted actor k input x) : (s.updated actor input none x).Funded a p id := by
  obtain ⟨hid, hget, hscope⟩ := clientOf_id haccepted.found
  have hlinks : (s.updated actor input none x).usage id = s.usage id :=
    usage_of_links (updated_links _ _ _ _ _) id
  intro c hc howner
  rw [updated_client, hid] at hc
  split at hc
  · next hk =>
    subst hk
    rw [hget] at hc
    obtain rfl := Option.some.inj hc
    obtain ⟨hterms, hlimited⟩ := hsold rfl
    have ha : actor.id = a := by
      rcases Bool.or_eq_true_iff.mp hscope with hrole | hown
      · exact absurd (of_decide_eq_true hrole) hterms.role
      · exact (of_decide_eq_true hown).symm.trans howner
    obtain ⟨hpos, n, hpaid, hle, hused⟩ := h x.current.row hget howner
    have hextra := input.extraGB_nonneg x.current.row
    have hcost : p * ⌈input.extraGB x.current.row⌉ ≤ if actor.pays x.cost then x.cost else 0 := by
      rw [updateCost_eq haccepted.cost, if_pos hbills.2, clientCost_pays hterms.priced]
      exact le_clientCost hterms hbills ha hextra _
    have hpaid' : p * (n + ⌈input.extraGB x.current.row⌉) ≤
        (s.updated actor input none x).paidFor a id := by
      have hbill := paidFor_bill (updated_walletTxs s actor input x)
      rw [hid, ha] at hbill
      rw [hbill, mul_add]
      exact add_le_add hpaid hcost
    have hceil : n ≤ n + ⌈input.extraGB x.current.row⌉ :=
      le_add_of_nonneg_right (Int.ceil_nonneg hextra)
    have hwider : n * GB ≤ (n + ⌈input.extraGB x.current.row⌉) * GB :=
      mul_le_mul_of_nonneg_right hceil (Int.natCast_nonneg GB)
    have hlimit := haccepted.limit
    -- without a new limit the old GB stand; a new one is billed for what it adds to them
    cases hgb : input.trafficGB with
    | none =>
        rw [hgb] at hlimit
        have hsame : (x.data.apply x.current.row).trafficLimit = x.current.row.trafficLimit := by
          show x.data.trafficLimit.getD _ = _
          rw [← Except.ok.inj hlimit]
          rfl
        rw [hsame, hlinks]
        exact ⟨hpos, _, hpaid', hle.trans hwider, hused.trans hwider⟩
    | some gb =>
        rw [hgb] at hlimit
        obtain ⟨hdata, -, -⟩ := updateLimit_some hlimit
        have hnew : (x.data.apply x.current.row).trafficLimit = gbToBytes (max 0 gb) := by
          show x.data.trafficLimit.getD _ = _
          rw [hdata]
          rfl
        have hold : bytesToGb x.current.row.trafficLimit ≤ n := bytesToGb_le hle
        have hextra_eq : input.extraGB x.current.row =
            max 0 (Binary64.sub gb (bytesToGb x.current.row.trafficLimit)) := by
          unfold UpdateClientInput.extraGB
          rw [hgb]
          rfl
        have hn : 0 ≤ n := by
          have hGB : (0 : ℤ) < GB := by decide
          have hmul : 0 < n * (GB : ℤ) := hpos.trans_le hle
          exact le_of_mul_le_mul_right ((zero_mul (GB : ℤ)).trans_le hmul.le) hGB
        obtain ⟨hstored, hgauged⟩ := hlimited gb hgb
        have hbound : gbToBytes (max 0 gb) ≤ (n + ⌈input.extraGB x.current.row⌉) * GB := by
          rw [hextra_eq]
          exact gbToBytes_le_billed hgauged hn hold
        rw [hnew, hlinks]
        exact ⟨hstored, _, hpaid', hbound, hused.trans hwider⟩
  · next hk =>
    have hrows : (s.updated actor input none x).rowsOf id = s.rowsOf id := by
      rw [rowsOf_bill (updated_walletTxs s actor input x),
        if_neg fun hand => hk (hand.2.symm.trans hid)]
    obtain ⟨hpos, n, hpaid, hle, hused⟩ := h c hc howner
    rw [hlinks, paidFor_of_rows hrows]
    exact ⟨hpos, n, hpaid, hle, hused⟩

theorem Funded.step (h : s.Funded a p id) (hfresh : s.FreshBooks)
    (hbills : Bills s.pricing) {d : Deal} {drawn : ℕ} (hdrawn : drawn ≤ s.base.nextId)
    (hd : d.Sold a p s.pricing drawn id) (hstep : d.Step s s') :
    s'.Funded a p id := by
  have hagreed := hstep.1
  have heffect : (d.effect s).Funded a p id := by
    cases d with
    | quiet => exact h
    | opened actor input x =>
        exact h.opened hfresh hbills (fun ha hid => hd ha (hdrawn.trans hid.le)) hagreed
    | changed actor k input x => exact h.changed hbills hd hagreed
    | cycled k expiry =>
        intro c hc howner
        change (s.clients.modify k _).get? id = _ at hc
        rw [Table.get?_modify] at hc
        split at hc
        · obtain ⟨c₀, hc₀, rfl⟩ := Option.map_eq_some_iff.mp hc
          exact h c₀ hc₀ howner
        · exact h c hc howner
    | dropped k =>
        intro c hc howner
        change (s.without k).clients.get? id = _ at hc
        rw [without_client] at hc
        split at hc
        · cases hc
        · next hk =>
          obtain ⟨hpos, n, hpaid, hle, hused⟩ := h c hc howner
          refine ⟨hpos, n, hpaid, hle, ?_⟩
          have hsum := ((usage_without_ne s hk).map fun l => l.2.up + l.2.down).sum_eq
          exact hsum.trans_le hused
    | refunded k byAdminId =>
        intro c hc howner
        change (refunded s s k byAdminId).clients.get? id = _ at hc
        rw [refunded_client] at hc
        split at hc
        · cases hc
        · next hk =>
          obtain ⟨hpos, n, hpaid, hle, hused⟩ := h c hc howner
          have hrows : (refunded s s k byAdminId).rowsOf id = s.rowsOf id := by
            unfold refunded
            cases hx : s.refundSubject k with
            | none => rfl
            | some subject =>
                exact (rowsOf_repaid (s := s.without k) rfl id).trans (if_neg fun hand =>
                  hk hand.2.symm)
          refine ⟨hpos, n, ?_, hle, ?_⟩
          · show p * n ≤ (refunded s s k byAdminId).paidFor a id
            rw [paidFor_of_rows hrows]
            exact hpaid
          · have hsum := ((usage_without_ne s hk).map fun l => l.2.up + l.2.down).sum_eq
            show (refunded s s k byAdminId).usage id ≤ _
            rw [usage, linksOf, refunded_links]
            exact hsum.trans_le hused
  -- beyond its effect a deal only lowers counters
  have husage := (hstep.2.links (d.effect_sound hfresh.ids.links)).2 id
  exact heffect.same hstep.2.clients (hstep.2.rows id) fun c _ _ => husage.trans (le_max_left _ _)

/-- The ids of the ledger rows of clients are drawn by their deals. -/
theorem FreshBooks.step (h : s.FreshBooks) {d : Deal} (hstep : d.Step s s') : s'.FreshBooks := by
  refine ⟨h.ids.step hstep, fun k hk => ?_⟩
  have hagreed := hstep.1
  have hnext := (d.effect_nextId s).trans hstep.2.nextId
  have hnone := h.rows k (hnext.trans hk)
  rw [hstep.2.rows]
  have hthere : ∀ id, (s.clients.get? id).isSome → id ≠ k := by
    rintro id hsome rfl
    rw [h.ids.clients id (hnext.trans hk)] at hsome
    cases hsome
  cases d with
  | quiet => exact hnone
  | opened actor input x =>
      have hdrawn : s.base.nextId < s'.base.nextId := by
        refine lt_of_lt_of_le ?_ hstep.2.nextId
        show s.base.nextId < (World.bill _ _ _ _).nextId
        rw [bill_nextId]
        exact Nat.lt_add_of_pos_right (Nat.succ_pos 2)
      show (s.created actor input x none).rowsOf k = []
      rw [rowsOf_bill (created_walletTxs s actor input x none), if_neg, hnone]
      rintro ⟨-, rfl⟩
      exact absurd hdrawn (Nat.not_lt.mpr hk)
  | changed actor id input x =>
      obtain ⟨hid, hget, -⟩ := clientOf_id hagreed.found
      show (s.updated actor input none x).rowsOf k = []
      rw [rowsOf_bill (updated_walletTxs s actor input x), if_neg, hnone]
      rintro ⟨-, heq⟩
      exact hthere id (by rw [hget]; rfl) (hid.symm.trans heq)
  | cycled id expiry => exact hnone
  | dropped id => exact hnone
  | refunded id byAdminId =>
      show (refunded s s id byAdminId).rowsOf k = []
      unfold refunded
      cases hx : s.refundSubject id with
      | none => exact hnone
      | some subject =>
          refine (rowsOf_repaid (s := s.without id) rfl k).trans ((if_neg ?_).trans hnone)
          rintro ⟨-, heq⟩
          exact hthere id hagreed heq

theorem effect_pricing (s : Site) (d : Deal) : (d.effect s).pricing = s.pricing := by
  cases d with
  | quiet => rfl
  | opened actor input a => rfl
  | changed actor id input x =>
      show (s.startSettled x.current.id input).pricing = _
      unfold startSettled
      split <;> rfl
  | cycled id expiry => rfl
  | dropped id => rfl
  | refunded id byAdminId =>
      show (refunded s s id byAdminId).pricing = _
      unfold refunded
      split <;> rfl

end Site

/-- A request on these terms that leaves the client `id` with a limit: billing is on, whoever
changes this client is no owner, and this client is not made or changed to one without a limit. -/
def Request.Sold (a : AdminId) (p : ℤ) (id : ClientId) (r : Request) (s : Site) : Prop :=
  Site.Bills s.pricing ∧ match r with
    | admin adminId r => ∀ actor, s.operator adminId = some actor →
        match r with
        | .create input => actor.id = a → s.base.nextId ≤ id →
            Site.Terms a p s.pricing actor ∧ 0 < gbToBytes (max 0 input.trafficGB)
        | .update k input => k = id → Site.Terms a p s.pricing actor ∧
            ∀ gb, input.trafficGB = some gb → 0 < gbToBytes (max 0 gb) ∧ gb ≤ 1000000
        | .bulk input => ∀ bytes, s.clientLimit id = some bytes → Site.Terms a p s.pricing actor ∧
            bytesToGb bytes + input.gb ≤ 2 ^ 33
        | _ => True
    | autoRenew _ => True
    | fulfill orderId => ∀ f, s.findOrder orderId = some f →
        (f.seller.id = a → s.base.nextId ≤ id →
          Site.Terms a p s.pricing f.seller ∧ 0 < f.info.planSnapshot.trafficGB) ∧
        (f.info.renewClientId = some id → Site.Terms a p s.pricing f.seller ∧
          0 < f.info.planSnapshot.trafficGB ∧ f.info.planSnapshot.trafficGB ≤ 1000000)

theorem bytes_pos_of_one_le {gb : ℚ} (h : 1 ≤ gb) : 0 < gbToBytes (max 0 gb) := by
  have hgb : (0 : ℚ) < gb := lt_of_lt_of_le one_pos h
  rw [max_eq_right hgb.le]
  exact stored_of_one_le h hgb

/-- What a bulk action sets a limit to is one GB or the old hundredths and a whole number. -/
theorem ClientBulkInput.Patch.gauged {input : ClientBulkInput} {bytes : ℤ}
    {patch : UpdateClientInput} (h : input.Patch bytes patch)
    (hsize : bytesToGb bytes + input.gb ≤ 2 ^ 33) {gb : ℚ}
    (hgb : patch.trafficGB = some gb) : Gauged gb := by
  unfold ClientBulkInput.Patch at h
  split at h
  · subst h
    cases hgb
  · subst h
    cases hgb
  · subst h
    cases hgb
  · subst h
    rw [← Option.some.inj hgb]
    rcases le_total (bytesToGb bytes + input.gb) 1 with hle | hle
    · rw [max_eq_left hle]
      exact .inl (by norm_num)
    · rw [max_eq_right hle]
      refine .inr ⟨⟨mathRound (bytes / GB * 100) + 100 * input.gb, ?_⟩, hsize⟩
      unfold bytesToGb
      push_cast
      ring
  · exact h.elim

/-- A request that is sold comes to deals that are. -/
theorem Request.sold_deals {a : AdminId} {p : ℤ} {id : ClientId} {r : Request} {s : Site}
    (h : r.Sold a p id s) {d : Deal} (hd : r.allows s d) :
    d.Sold a p s.pricing s.base.nextId id := by
  rcases hd with rfl | hd
  · trivial
  -- each request makes deals of its own kind, in the shape in which it was sold
  · have hbody := h.2
    cases r with
    | admin adminId r =>
        obtain ⟨actor, hactor, hd⟩ := hd
        have hshape := hbody actor hactor
        rcases hd with rfl | hd
        · trivial
        · cases r with
          | create input =>
              obtain ⟨x, rfl⟩ := hd
              exact hshape
          | update k input =>
              obtain ⟨x, rfl⟩ := hd
              intro hk
              obtain ⟨hterms, hgb⟩ := hshape hk
              exact ⟨hterms, fun gb heq => ⟨(hgb gb heq).1, .inl (hgb gb heq).2⟩⟩
          | resetTraffic k => exact hd.elim
          | delete k =>
              subst hd
              trivial
          | deleteWithRefund k =>
              subst hd
              trivial
          | bulk input =>
              rcases hd with ⟨k, -, bytes, patch, x, hbytes, hpatch, rfl⟩ | ⟨k, rfl⟩
              · rintro rfl
                obtain ⟨hterms, hsize⟩ := hshape bytes hbytes
                exact ⟨hterms, fun gb heq =>
                  ⟨bytes_pos_of_one_le (hpatch.one_le heq), hpatch.gauged hsize heq⟩⟩
              · trivial
          | setAutoRenew k input => exact hd.elim
    | autoRenew limit =>
        obtain ⟨row, -, -, -, expiry, rfl⟩ := hd
        trivial
    | fulfill orderId =>
        obtain ⟨f, hf, ⟨name, targets, via, x, rfl⟩ | ⟨k, x, hrenew, rfl⟩⟩ := hd
        · intro ha hdrawn
          obtain ⟨hterms, hgb⟩ := (hbody f hf).1 ha hdrawn
          have hone : (1 : ℚ) ≤ f.info.planSnapshot.trafficGB := by exact_mod_cast hgb
          exact ⟨hterms, bytes_pos_of_one_le hone⟩
        · rintro rfl
          obtain ⟨hterms, hgb, hmillion⟩ := (hbody f hf).2 hrenew
          refine ⟨hterms, fun gb heq => ?_⟩
          obtain rfl := Option.some.inj heq
          have hone : (1 : ℚ) ≤ f.info.planSnapshot.trafficGB := by exact_mod_cast hgb
          exact ⟨bytes_pos_of_one_le hone, .inl (by exact_mod_cast hmillion)⟩

namespace Site

/-- While a client keeps a limit, its seller has paid for every whole GB that its counters show and
that its limit allows. -/
theorem traffic_paid {a : AdminId} {p : ℤ} (hp : 0 < p) (id : ClientId) {s s' : Site}
    (hfresh : s.FreshBooks) (hnew : s.clients.get? id = none)
    (hrun : Serial.Run serve Reports (Request.Sold a p id) s s') {c : Client}
    (hc : s'.clients.get? id = some c) (howner : c.adminId = a) :
    p * (s'.usage id / GB) ≤ s'.paidFor a id ∧ p * (c.trafficLimit / GB) ≤ s'.paidFor a id := by
  have hstart : s.FreshBooks ∧ s.Funded a p id := by
    refine ⟨hfresh, fun c hc => ?_⟩
    rw [hnew] at hc
    cases hc
  have hend : s'.FreshBooks ∧ s'.Funded a p id := by
    refine hrun.invariant (I := fun t => t.FreshBooks ∧ t.Funded a p id) hstart (fun r t h hr => ?_)
      fun t t' h he => ?_
    · have hchain := (serve_deals r t h.1.ids.links).invariant
        (I := fun u => u.FreshBooks ∧ u.Funded a p id ∧ u.pricing = t.pricing ∧
          t.base.nextId ≤ u.base.nextId)
        ⟨h.1, h.2, rfl, le_rfl⟩ fun d t₁ t₂ hd h₁ hstep => ?_
      · exact ⟨hchain.1, hchain.2.1⟩
      · obtain ⟨hopen, hfunded, hpricing, hdrawn⟩ := h₁
        refine ⟨hopen.step hstep,
          hfunded.step hopen (hpricing ▸ hr.1) hdrawn (hpricing ▸ r.sold_deals hr hd) hstep, ?_,
          hdrawn.trans ((d.effect_nextId t₁).trans hstep.2.nextId)⟩
        rw [hstep.2.pricing, effect_pricing, hpricing]
    · exact ⟨h.1.same (he.links h.1.ids.links) he.clients he.rows he.nextId,
        h.2.same he.clients (he.rows id) (he.stops id)⟩
  obtain ⟨-, n, hpaid, hle, hused⟩ := hend.2 c hc howner
  have hGB : (0 : ℤ) < GB := by decide
  have hwhole : ∀ bytes : ℤ, bytes ≤ n * GB → p * (bytes / GB) ≤ s'.paidFor a id := fun bytes h =>
    le_trans (mul_le_mul_of_nonneg_left (Int.ediv_le_of_le_mul hGB h) hp.le) hpaid
  exact ⟨hwhole _ hused, hwhole _ hle⟩

/-! ## The life of a client -/

variable {a : AdminId} {p : ℤ} {s s' : Site}

/-- The bytes that the panels report for a client. -/
def consumed (id : ClientId) (r : Option Request) (s s' : Site) : ℤ :=
  match r with
  | some _ => 0
  | none => max 0 (s'.usage id - s.usage id)

/-- Every link reports some traffic. -/
def reported (s : Site) (bytes : ℤ) : Site :=
  { s with links := s.links.mapRows fun _ l => { l with up := bytes } }

/-- A report on the only client, within its limit. -/
theorem reports_reported {bytes : ℤ} (k : ClientId) (limit : ℤ) (hbytes : 0 ≤ bytes)
    (hclients : s.clients.rows.map (fun r => (r.1, r.2.trafficLimit)) = [(k, limit)])
    (husage : (s.reported bytes).usage k ≤ limit) : Reports s (s.reported bytes) where
  clients := rfl
  rows _ := rfl
  links h key l hl := by
    change (s.links.mapRows _).get? key = _ at hl
    rw [Table.get?_mapRows] at hl
    obtain ⟨l₀, hl₀, rfl⟩ := Option.map_eq_some_iff.mp hl
    exact ⟨(h key l₀ hl₀).1, hbytes, (h key l₀ hl₀).2.2⟩
  nextId := le_rfl
  stops id c hc _ := by
    have hmem := List.mem_map_of_mem (f := fun r : ClientId × Client => (r.1, r.2.trafficLimit))
      ((s.clients.mem_rows_iff id c).mpr hc)
    rw [hclients, List.mem_singleton] at hmem
    obtain ⟨hid, hlimit⟩ := Prod.mk.inj hmem
    dsimp only at hid hlimit
    rw [hid, hlimit]
    exact husage.trans (le_max_right _ _)

/-- The terms of an admin without prices of his own. -/
theorem Terms.of_settings {adminId : AdminId}
    (h : (s.operator adminId).map (fun o => (o.role, o.account.pricePerGB, o.account.pricePerDay)) =
      some (AdminRole.admin, none, none)) (hprice : (s.pricing.pricePerGB : ℤ) = p) :
    ∀ actor, s.operator adminId = some actor → Terms a p s.pricing actor := by
  intro actor hactor
  rw [hactor, Option.map_some] at h
  obtain ⟨hrole, hprices⟩ := Prod.mk.inj (Option.some.inj h)
  obtain ⟨hgb, hday⟩ := Prod.mk.inj hprices
  refine ⟨by rw [hrole]; decide, ⟨fun x hx => ?_, fun x hx => ?_⟩, fun _ => ?_⟩
  · rw [hgb] at hx
    cases hx
  · rw [hday] at hx
    cases hx
  · show actor.account.pricePerGB.getD _ = p
    rw [hgb]
    exact hprice

/-- A GB at 1000, for a new client. -/
def gigabyteRequest : Request :=
  .admin 2 (.create ⟨"a", none, none, 1, 0, false, 0, none, none, none, [⟨3, 1⟩]⟩)

/-- The client with its GB, used up. -/
def usedUpSite : Site := ((serve gigabyteRequest).run unopenedSite).2.reported 1073741824

/-- The same client, reset, and with its GB used up again. -/
def usedTwiceSite : Site :=
  ((serve (.admin 2 (.resetTraffic World.blank.nextId))).run usedUpSite).2.reported 1073741824

/-- The client has been able to consume two GB, and one has been charged. -/
theorem reset_hands_out_unpaid :
    Serial.Metered serve Reports (Request.Sold 2 1000 World.blank.nextId)
        (consumed World.blank.nextId) unopenedSite usedTwiceSite (2 * GB) ∧
      (usedTwiceSite.clients.get? World.blank.nextId).map (fun c => (c.adminId, c.trafficLimit)) =
        some (2, 1073741824) ∧
      ¬1000 * ((2 * GB : ℤ) / GB) ≤ usedTwiceSite.paidFor 2 World.blank.nextId := by
  have hcreate : gigabyteRequest.Sold 2 1000 World.blank.nextId unopenedSite :=
    ⟨⟨rfl, rfl⟩, fun actor hactor _ _ =>
      ⟨Terms.of_settings (by decide) rfl actor hactor, by decide +kernel⟩⟩
  have hreset : (Request.admin 2
      (.resetTraffic World.blank.nextId)).Sold 2 1000 World.blank.nextId usedUpSite :=
    ⟨⟨by decide +kernel, by decide +kernel⟩, fun _ _ => trivial⟩
  have hfirst : Reports ((serve gigabyteRequest).run unopenedSite).2 usedUpSite :=
    reports_reported World.blank.nextId 1073741824 (by decide) (by decide +kernel)
      (by decide +kernel)
  have hsecond : Reports ((serve
      (.admin 2 (.resetTraffic World.blank.nextId))).run usedUpSite).2 usedTwiceSite :=
    reports_reported World.blank.nextId 1073741824 (by decide) (by decide +kernel)
      (by decide +kernel)
  refine ⟨?_, by decide +kernel, by decide +kernel⟩
  have hrun := ((((Serial.Metered.refl (m := consumed World.blank.nextId) unopenedSite).call
    gigabyteRequest hcreate).env hfirst).call _ hreset).env hsecond
  have htotal : (0 + consumed World.blank.nextId (some gigabyteRequest) unopenedSite
      ((serve gigabyteRequest).run unopenedSite).2 +
      consumed World.blank.nextId none ((serve gigabyteRequest).run unopenedSite).2 usedUpSite +
      consumed World.blank.nextId (some (.admin 2 (.resetTraffic World.blank.nextId))) usedUpSite
        ((serve (.admin 2 (.resetTraffic World.blank.nextId))).run usedUpSite).2 +
      consumed World.blank.nextId none
        ((serve (.admin 2 (.resetTraffic World.blank.nextId))).run usedUpSite).2 usedTwiceSite) =
        2 * GB := by decide +kernel
  rw [← htotal]
  exact hrun

/-- The client with its GB used up once. -/
theorem traffic_paid_once :
    1000 * (usedUpSite.usage World.blank.nextId / GB) ≤
      usedUpSite.paidFor 2 World.blank.nextId := by
  have hrow : (usedUpSite.clients.get? World.blank.nextId).map Client.adminId = some 2 :=
    by decide +kernel
  obtain ⟨c, hc, howner⟩ := Option.map_eq_some_iff.mp hrow
  have hcreate : gigabyteRequest.Sold 2 1000 World.blank.nextId unopenedSite :=
    ⟨⟨rfl, rfl⟩, fun actor hactor _ _ =>
      ⟨Terms.of_settings (by decide) rfl actor hactor, by decide +kernel⟩⟩
  have hreport : Reports ((serve gigabyteRequest).run unopenedSite).2 usedUpSite :=
    reports_reported World.blank.nextId 1073741824 (by decide) (by decide +kernel)
      (by decide +kernel)
  have hnone : ∀ k, unopenedSite.links.get? k = none := fun k => Table.get?_empty k
  refine (traffic_paid (a := 2) (p := 1000) (by decide) World.blank.nextId (s := unopenedSite)
    ⟨⟨fun k l hl => ?_, fun k _ => Table.get?_empty k⟩, fun _ _ => rfl⟩ (Table.get?_empty _)
    (.tail (.single (.call gigabyteRequest hcreate)) (.env hreport)) hc howner).1
  rw [hnone k] at hl
  cases hl

end Site

end SRPanel
