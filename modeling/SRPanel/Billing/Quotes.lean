import SRPanel.Billing.Prices
import SRPanel.Clients.Create
import SRPanel.Model.Quotes

/-!
# Quotes against guards

`quoteForActor` is to show what `assertQuota` and `assertAffordable` are going to say. It says the
same of the account's expiry, of the number of clients and of the wallet. It differs in three
places: it does not know the targets, it books the added GB where the update books the difference of
two rounded limits and rejects every unlimited client of an account with a quota, and it prices the
added GB of a renewal, also when renewals are not charged or when the difference of the two totals,
as the update computes it, is not quite that many GB.
-/

namespace SRPanel

open Interleaving Prog

/-- What a seller wants to provision. -/
inductive Provision
  /-- a new client with some traffic and days -/
  | create (gb : ℚ) (days : ℤ) (targets : List Target)
  /-- more traffic and days for a client -/
  | renew (current : FullClient) (gb : ℚ) (days : ℤ)

namespace Provision

/-- The traffic that is asked for: all of it for a new client, and what is added otherwise. -/
def gb : Provision → ℚ
  | create gb _ _ => gb
  | renew _ gb _ => gb

def days : Provision → ℤ
  | create _ days _ => days
  | renew _ _ days => days

/-- The traffic of the client afterwards. -/
def total : Provision → ℚ
  | create gb _ _ => gb
  | renew current gb _ => Binary64.add (bytesToGb current.row.trafficLimit) gb

def renews : Provision → Bool
  | create _ _ _ => false
  | renew _ _ _ => true

def targets : Provision → List Target
  | create _ _ targets => targets
  | renew _ _ _ => []

/-- The quote that the client form asks for. -/
def quoteInput (p : Provision) : QuoteInput := ⟨p.gb, p.days, p.renews, some p.gb, p.total = 0⟩

/-- The patch of `updateClient` that adds this traffic and these days. -/
def patch (p : Provision) : UpdateClientInput :=
  { UpdateClientInput.none with trafficGB := some p.total, addDays := some p.days }

/-- The GB that the operation prices: an update those between the two totals. -/
def billedGB : Provision → ℚ
  | create gb _ _ => gb
  | renew current gb days => (renew current gb days).patch.extraGB current.row

/-- The calls of `assertQuota` and `assertAffordable` that the operation makes; the result is what
it charges. -/
def guards (actor : Operator) : Provision → Task ℤ
  | create gb days targets => do
      Site.assertQuota actor (gbToBytes (max 0 gb)) targets none
      let cost ← Site.quoteClientCost actor gb days
      Site.assertAffordable actor cost
      pure cost
  | renew current gb days => do
      Site.assertQuota actor (gbToBytes (max 0 (renew current gb days).total)) [] (some current.id)
      Site.updateCost actor current (renew current gb days).patch

end Provision

namespace Site

/-! ## The limits of an account -/

/-- The account has expired. -/
def Lapsed (s : Site) (actor : Operator) : Prop :=
  actor.account.expiresAt.any (· < (s.base.now : ℤ))

/-- The account has no room for another client. -/
def Crowded (s : Site) (actor : Operator) : Prop :=
  ∃ limit ∈ actor.account.clientLimit,
    limit ≤ (s.clients.rows.filter fun r => r.2.adminId = actor.id).length

/-- The traffic that the clients of an account are allowed, without that of one of them. -/
def allocatedBut (s : Site) (actor : Operator) (exclude : Option ClientId) : ℤ :=
  ((s.clients.rows.filter fun r => r.2.adminId = actor.id && exclude ≠ some r.1).map fun r =>
    r.2.trafficLimit).sum

/-- The traffic that the clients of an account are allowed. -/
def allocated (s : Site) (actor : Operator) : ℤ :=
  ((s.clients.rows.filter fun r => r.2.adminId = actor.id).map fun r => r.2.trafficLimit).sum

/-- The quota of the account, if it has one, takes an allocation. -/
def QuotaTakes (actor : Operator) (bytes : ℤ) : Prop :=
  ∀ quota ∈ actor.account.trafficQuota, bytes ≤ quota

/-- The account may use the targets. -/
def Accessible (s : Site) (actor : Operator) (targets : List Target) : Prop :=
  targets.all (canUse (some (s.serverAccessOf actor.id)))

theorem refuseIf_ok_iff (c : Bool) (e : AppError) (s : Site) : ((refuseIf c e).run s).1 = .ok () ↔
    c = false := by
  cases c <;> simp [refuseIf]

theorem allocatedBut_none (s : Site) (actor : Operator) :
    s.allocatedBut actor none = s.allocated actor := by
  simp [allocatedBut, allocated]

/-- Without a client of the account the rest is less by its limit. -/
theorem allocatedBut_some {s : Site} {actor : Operator} {id : ClientId} {c : Client}
    (hc : s.clients.get? id = some c) (howner : c.adminId = actor.id) :
    s.allocatedBut actor (some id) = s.allocated actor - c.trafficLimit := by
  have hperm := s.clients.filter_perm_cons hc (fun r => r.2.adminId = actor.id)
    (by simpa using howner)
  have hsum := (hperm.map fun r => r.2.trafficLimit).sum_eq
  rw [List.map_cons, List.sum_cons] at hsum
  have hrest : s.allocatedBut actor (some id) = ((s.clients.rows.filter fun e =>
      decide (e.2.adminId = actor.id) && decide (e.1 ≠ id)).map fun r => r.2.trafficLimit).sum := by
    unfold allocatedBut
    congr 2
    refine List.filter_congr fun r _ => ?_
    simp only [ne_eq, Option.some.injEq, eq_comm]
  rw [hrest, allocated, hsum]
  exact (add_sub_cancel_left _ _).symm

/-- What `assertQuota` checks. -/
theorem assertQuota_ok_iff (actor : Operator) (bytes : ℤ) (targets : List Target)
    (exclude : Option ClientId) (s : Site) :
      ((assertQuota actor bytes targets exclude).run s).1 = .ok () ↔
        actor.role = .owner ∨ ¬s.Lapsed actor ∧ (exclude = none → ¬s.Crowded actor) ∧
        QuotaTakes actor (s.allocatedBut actor exclude + bytes) ∧ s.Accessible actor targets := by
  unfold assertQuota
  by_cases hrole : actor.role = .owner
  · simp [hrole]
  · rw [if_neg hrole]
    have hcount : ((assertClientLimit actor exclude).run s).1 = .ok () ↔
        (exclude = none → ¬s.Crowded actor) := by
      unfold assertClientLimit Crowded
      cases actor.account.clientLimit with
      | none => simp
      | some limit =>
          cases exclude with
          | some id => simp
          | none => simp [read, run_bind, refuseIf_ok_iff]
    have hquota : ((assertTrafficQuota actor bytes exclude).run s).1 = .ok () ↔
        QuotaTakes actor (s.allocatedBut actor exclude + bytes) := by
      unfold assertTrafficQuota QuotaTakes allocatedBut
      cases actor.account.trafficQuota with
      | none => simp
      | some quota => simp [read, run_bind, refuseIf_ok_iff]
    have haccess : ((assertAccess actor targets).run s).1 = .ok () ↔
        s.Accessible actor targets := by
      unfold assertAccess Accessible
      cases targets with
      | nil => simp
      | cons t rest => simp [read, run_bind, refuseIf_ok_iff]
    have hlapsed : ((refuseIf (actor.account.expiresAt.any (· < (s.base.now : ℤ)))
        (forbiddenError "اعتبار حساب شما به پایان رسیده است")).run s).1 = .ok () ↔
        ¬s.Lapsed actor := by
      rw [refuseIf_ok_iff, Lapsed, Bool.not_eq_true]
    have hnow : ∀ f : ℤ → Task Unit, ((now >>= f).run s).1 = ((f s.base.now).run s).1 :=
      fun _ => rfl
    rw [hnow, (refuseIf_reads (V := SameTerms) _ _).seq_ok_iff, hlapsed,
      (assertClientLimit_reads actor exclude).seq_ok_iff, hcount,
      (assertTrafficQuota_reads actor bytes exclude).seq_ok_iff, hquota, haccess,
      or_iff_right hrole]

theorem lift_read {α : Type} (f : World → α) (s : Site) :
    (lift (Db.read f)).run s = (.ok (f s.base), s) := rfl

theorem lift_walletBalance (id : AdminId) (s : Site) :
    (lift (walletBalance id)).run s = (.ok (s.base.balance id), s) := rfl

/-- What `assertAffordable` checks. -/
theorem assertAffordable_ok_iff (actor : Operator) (cost : ℤ) (s : Site) :
    ((assertAffordable actor cost).run s).1 = .ok () ↔ s.base.Covers actor cost := by
  refine ⟨assertAffordable_covers, fun h => ?_⟩
  unfold assertAffordable
  by_cases hfree : cost ≤ 0 ∨ actor.role = .owner
  · rw [if_pos (by simpa using hfree)]
    rfl
  · rw [if_neg (by simpa using hfree)]
    have hpays : actor.pays cost = true := by
      obtain ⟨hcost, hrole⟩ := not_or.mp hfree
      simp [Operator.pays, hrole, not_le.mp hcost]
    have hle := h hpays
    simp only [run_bind, lift_walletBalance, lift_read, refuseIf_run]
    rw [if_neg fun hlt => absurd hle (not_le.mpr (of_decide_eq_true hlt))]

/-- What `updateCost` checks, and what it comes to. -/
theorem updateCost_ok_iff (actor : Operator) (current : FullClient)
    (input : UpdateClientInput) (cost : ℤ) (s : Site) :
      ((updateCost actor current input).run s).1 = .ok cost ↔
      s.base.Covers actor cost ∧ cost = if s.pricing.chargeOnRenew then
        s.clientCost actor (input.extraGB current.row) input.extraDays else 0 := by
  refine ⟨fun h => ⟨updateCost_covers h, updateCost_eq h⟩, ?_⟩
  rintro ⟨hcovers, hcost⟩
  unfold updateCost
  show ((if actor.role ≠ .owner && (0 < input.extraGB current.row || 0 < input.extraDays) then _
    else _ : Task ℤ).run s).1 = _
  split
  · rw [(renewCost_reads actor _ _).bind_ok_iff]
    change ∃ c, ((renewCost actor (input.extraGB current.row) input.extraDays).run s).1 = .ok c ∧ _
    rw [renewCost_run, ← hcost]
    refine ⟨cost, rfl, ?_⟩
    rw [(assertAffordable_reads actor cost).seq_ok_iff, assertAffordable_ok_iff]
    exact ⟨hcovers, rfl⟩
  · next hfree =>
    have hzero : cost = 0 := by
      rw [hcost]
      exact extraCost_zero hfree
    rw [hzero]
    rfl

/-! ## The guards of the operation -/

/-- What the operation books against the quota. -/
def bookedBytes : Provision → ℤ
  | .create gb _ _ => gbToBytes (max 0 gb)
  | .renew current gb days =>
      gbToBytes (max 0 (Provision.renew current gb days).total) - current.row.trafficLimit

/-- What the operation charges. -/
def chargeOf (s : Site) (actor : Operator) (p : Provision) : ℤ :=
  if p.renews && !s.pricing.chargeOnRenew then 0 else s.clientCost actor p.billedGB p.days

/-- The guards let the operation pass. -/
def GuardsPass (s : Site) (actor : Operator) (p : Provision) : Prop :=
  (actor.role = .owner ∨ ¬s.Lapsed actor ∧ (p.renews = false → ¬s.Crowded actor) ∧
    QuotaTakes actor (s.allocated actor + bookedBytes p) ∧ s.Accessible actor p.targets) ∧
  s.base.Covers actor (s.chargeOf actor p)

/-- The client that a renewal is for is one of the actor's, or the actor is the owner. -/
def Owns (s : Site) (actor : Operator) : Provision → Prop
  | .create _ _ _ => True
  | .renew current _ _ => s.clientOf actor.actor current.id = some current

theorem inScope_iff {actor : Actor} {c : Client} :
    inScope actor c = true ↔ actor.role = .owner ∨ c.adminId = actor.id := by
  unfold inScope
  rw [Bool.or_eq_true]
  exact or_congr decide_eq_true_iff decide_eq_true_iff

/-- The guards return what the operation charges if they let it pass. -/
theorem guards_ok_iff (actor : Operator) (p : Provision) (cost : ℤ) (s : Site)
    (howns : s.Owns actor p) :
    ((p.guards actor).run s).1 = .ok cost ↔ s.GuardsPass actor p ∧ cost = s.chargeOf actor p := by
  cases p with
  | create gb days targets =>
      have hcharge : s.chargeOf actor (.create gb days targets) = s.clientCost actor gb days := rfl
      unfold Provision.guards GuardsPass
      rw [(assertQuota_reads _ _ _ _).seq_ok_iff, assertQuota_ok_iff, allocatedBut_none, hcharge,
        (quoteClientCost_reads _ _ _).bind_ok_iff, quoteClientCost_run]
      simp only [Except.ok.injEq, exists_eq_left', (assertAffordable_reads actor _).seq_ok_iff,
        assertAffordable_ok_iff, run_pure]
      rw [and_assoc]
      refine and_congr ?_ (and_congr_right fun _ => eq_comm)
      simp [Provision.renews, bookedBytes, Provision.targets]
  | renew current gb days =>
      obtain ⟨-, hget, hscope⟩ := clientOf_id howns
      have hdays : s.clientCost actor (Provision.renew current gb days).billedGB
          (Provision.renew current gb days).patch.extraDays =
          s.clientCost actor (Provision.renew current gb days).billedGB days := by
        unfold clientCost UnitPrices.cost UpdateClientInput.extraDays
        simp [Provision.patch, Provision.days]
      have hcharge : (if s.pricing.chargeOnRenew then s.clientCost actor
          ((Provision.renew current gb days).patch.extraGB current.row)
          (Provision.renew current gb days).patch.extraDays else 0) =
          s.chargeOf actor (.renew current gb days) := by
        change (if s.pricing.chargeOnRenew then
          s.clientCost actor (Provision.renew current gb days).billedGB _
          else 0) = _
        rw [hdays, chargeOf]
        cases s.pricing.chargeOnRenew <;> rfl
      unfold Provision.guards
      rw [(assertQuota_reads _ _ _ _).seq_ok_iff, assertQuota_ok_iff, updateCost_ok_iff,
        hcharge, GuardsPass, and_assoc]
      refine and_congr ?_ (and_congr_left fun h => by rw [h])
      -- the owner has no quota; of others the client's own limit is left out and put back
      by_cases hrole : actor.role = .owner
      · simp [hrole]
      · have howner : current.row.adminId = actor.id := by
          exact (inScope_iff.mp hscope).resolve_left hrole
        rw [allocatedBut_some hget howner]
        have hbytes : s.allocated actor - current.row.trafficLimit +
            gbToBytes (max 0 (Provision.renew current gb days).total) =
            s.allocated actor + bookedBytes (.renew current gb days) := by
          show _ = s.allocated actor +
            (gbToBytes (max 0 (Provision.renew current gb days).total) - current.row.trafficLimit)
          ring
        rw [hbytes]
        simp [Provision.renews, Provision.targets]

/-! ## The quote -/

/-- What the quote books against the quota. -/
def quotedBytes (p : Provision) : ℤ := gbToBytes (max 0 p.gb)

/-- The quote has no blockers. -/
def QuotePasses (s : Site) (actor : Operator) (p : Provision) : Prop :=
  (actor.role = .owner ∨ ¬s.Lapsed actor ∧ (p.renews = false → ¬s.Crowded actor) ∧
    (p.total = 0 → actor.account.trafficQuota = none) ∧
    QuotaTakes actor (s.allocated actor + quotedBytes p)) ∧
  s.base.Covers actor (s.clientCost actor p.gb p.days)

theorem resellerLimits_run {s : Site} {actor : Operator} (hactor : s.operator actor.id = some actor)
    (hrole : actor.role ≠ .owner) :
    (resellerLimits actor.id).run s = (.ok (some ⟨actor.account.trafficQuota, s.allocated actor,
      actor.account.trafficQuota.map (· - s.allocated actor), actor.account.clientLimit,
      (s.clients.rows.filter fun r => r.2.adminId = actor.id).length,
      actor.account.clientLimit.map
        (· - (s.clients.rows.filter fun r => r.2.adminId = actor.id).length),
      actor.account.expiresAt, actor.account.expiresAt.any (· < (s.base.now : ℤ))⟩), s) := by
  unfold resellerLimits
  simp only [read, now, run_bind, run_query, hactor, if_neg hrole, run_pure]
  rfl

/-- What the blockers of a quote are about. -/
theorem quoteBlockers_eq_nil_iff (l : ResellerLimits) (affordable : Bool) (missing : ℤ)
    (input : QuoteInput) : quoteBlockers (some l) affordable missing input = [] ↔
      l.expired = false ∧ affordable = true ∧ (input.renew = false → l.clientsRemaining ≠ some 0) ∧
      quotaBlockers l input = [] := by
  unfold quoteBlockers
  simp only [Option.any_some, List.append_eq_nil_iff, Option.map_some, Option.getD_some, and_assoc]
  refine and_congr ?_ (and_congr ?_ (and_congr ?_ Iff.rfl))
  · by_cases h : l.expired = true <;> simp [h]
  · by_cases h : affordable = true <;> simp [h]
  · by_cases h : input.renew = true <;> simp [h]

/-- The price as the quote writes it. -/
theorem quotedCost_eq (s : Site) (actor : Operator) (gb : ℚ) (days : ℤ) :
    (if actor.role = .owner || !(unitPrices s.pricing actor.account).enabled then 0
      else max 0 ⌈gb⌉ * (unitPrices s.pricing actor.account).perGB +
        max 0 days * (unitPrices s.pricing actor.account).perDay) = s.clientCost actor gb days := by
  unfold clientCost UnitPrices.cost
  by_cases hrole : actor.role = .owner
  · simp [hrole]
  · by_cases henabled : (unitPrices s.pricing actor.account).enabled = true <;>
    simp [hrole, henabled]

/-- The wallet covers a price exactly if the quote finds it affordable. -/
theorem covers_iff_affordable {s : Site} {actor : Operator} (hrole : actor.role ≠ .owner)
    (cost : ℤ) : (cost ≤ 0 || -(s.base.creditLimit : ℤ) ≤ s.base.balance actor.id - cost) = true ↔
    s.base.Covers actor cost := by
  unfold World.Covers Operator.pays
  by_cases hcost : 0 < cost
  · simp [hcost, hrole, not_le.mpr hcost]
  · simp [hcost, not_lt.mp hcost]

/-- What the quota blockers are about. -/
theorem quotaBlockers_eq_nil_iff (actor : Operator) (p : Provision) (l : ResellerLimits)
    (allocated : ℤ) (hquota : l.trafficQuota = actor.account.trafficQuota)
    (hremaining : l.remaining = actor.account.trafficQuota.map (· - allocated)) :
    quotaBlockers l p.quoteInput = [] ↔ (p.total = 0 → actor.account.trafficQuota = none) ∧
      QuotaTakes actor (allocated + quotedBytes p) := by
  have hneed : mathRound (max 0 (p.quoteInput.quotaGB.getD p.quoteInput.trafficGB) * GB) =
      quotedBytes p := rfl
  unfold quotaBlockers QuotaTakes
  rw [hquota, hremaining, hneed]
  cases actor.account.trafficQuota with
  | none => simp
  | some quota =>
      by_cases htotal : p.total = 0
      · simp [Provision.quoteInput, htotal]
      · have hroom : quota - allocated < quotedBytes p ↔ ¬allocated + quotedBytes p ≤ quota := by omega
        simp [Provision.quoteInput, htotal, hroom]

/-- The quote shows the price, and no blockers exactly if it passes. -/
theorem quoteForActor_spec (actor : Operator) (p : Provision) (s : Site)
    (hactor : s.operator actor.id = some actor) :
    ∃ quote, ((quoteForActor actor p.quoteInput).run s).1 = .ok quote ∧
      quote.cost = s.clientCost actor p.gb p.days ∧
      (quote.blockers = [] ↔ s.QuotePasses actor p) := by
  unfold quoteForActor QuotePasses
  by_cases hrole : actor.role = .owner
  · have hcovers : s.base.Covers actor (s.clientCost actor p.gb p.days) := by
      intro hpays
      simp [Operator.pays, hrole] at hpays
    simp only [read, lift, Db.read, run_bind, run_query, run_zoom, hrole, if_true, run_pure]
    refine ⟨_, rfl, ?_, ?_⟩
    · simp [clientCost, hrole]
    · simp [hcovers]
  · simp only [read, run_bind, run_query, if_neg hrole, run_pure, lift_read, lift_walletBalance,
      resellerLimits_run hactor hrole]
    rw [quotedCost_eq s actor p.quoteInput.trafficGB p.quoteInput.days]
    refine ⟨_, rfl, rfl, ?_⟩
    dsimp only
    have hexpired : actor.account.expiresAt.any (· < (s.base.now : ℤ)) = false ↔
        ¬s.Lapsed actor := by
      rw [Lapsed, Bool.not_eq_true]
    rw [quoteBlockers_eq_nil_iff,
      quotaBlockers_eq_nil_iff actor p _ (s.allocated actor) rfl rfl, hexpired,
      covers_iff_affordable hrole, or_iff_right hrole]
    have hcrowded : (actor.account.clientLimit.map
        (· - (s.clients.rows.filter fun r => r.2.adminId = actor.id).length) ≠ some 0) ↔
        ¬s.Crowded actor := by
      unfold Crowded
      cases actor.account.clientLimit with
      | none => simp
      | some limit => simp [Nat.sub_eq_zero_iff_le]
    show _ ∧ _ ∧ (p.renews = false → _) ∧ _ ∧ _ ↔ _
    rw [hcrowded]
    exact ⟨fun h => ⟨⟨h.1, h.2.2⟩, h.2.1⟩, fun h => ⟨h.1.1, h.2, h.1.2⟩⟩

/-- The guards pass before `createClient` makes the client, and the charge is theirs. -/
theorem Admitted.guards {s : Site} {actor : Operator} {input : CreateClientInput} {a : Admission}
    (h : s.Admitted actor input a) :
    ((Provision.guards actor (.create input.trafficGB input.days a.targets)).run s).1 =
    .ok a.cost := by
  unfold Provision.guards
  rw [(assertQuota_reads _ _ _ _).seq_ok_iff, (quoteClientCost_reads _ _ _).bind_ok_iff]
  refine ⟨h.quota, a.cost, h.cost, ?_⟩
  rw [(assertAffordable_reads _ _).seq_ok_iff]
  exact ⟨h.affordable, rfl⟩

/-- The guards pass before `updateClient` writes, and the charge is theirs. -/
theorem Accepted.guards {s : Site} {actor : Operator} {id : ClientId} {current : FullClient}
    {gb : ℚ} {days : ℤ} {x : Change}
      (h : s.Accepted actor id (Provision.renew current gb days).patch x)
        (hcurrent : x.current = current) :
    ((Provision.guards actor (.renew current gb days)).run s).1 = .ok x.cost := by
  obtain rfl := hcurrent
  unfold Provision.guards
  rw [(assertQuota_reads _ _ _ _).seq_ok_iff]
  exact ⟨(updateLimit_some h.limit).2.2, h.cost⟩

/-! ## The mirror -/

/-- The quote has no blockers exactly if the guards let the operation pass, and then shows what it
charges. -/
def Mirrors (s : Site) (actor : Operator) (p : Provision) : Prop :=
  ∃ quote, ((quoteForActor actor p.quoteInput).run s).1 = .ok quote ∧
    (quote.blockers = [] ↔ ∃ cost, ((p.guards actor).run s).1 = .ok cost) ∧
    ∀ cost, quote.blockers = [] → ((p.guards actor).run s).1 = .ok cost → quote.cost = cost

/-- An update charges what the quote of the added GB shows: it is charged, and the GB between the
two totals are rounded up to as many as those that are asked for, or have no price; or it is not
charged, and the quote is free. -/
def PricedAlike (s : Site) (actor : Operator) (current : FullClient) (gb : ℚ) (days : ℤ) : Prop :=
  if s.pricing.chargeOnRenew then
    ¬(unitPrices s.pricing actor.account).enabled ∨ (unitPrices s.pricing actor.account).perGB = 0 ∨
      ⌈gb⌉ = ⌈(Provision.renew current gb days).billedGB⌉
  else s.clientCost actor gb days = 0

/-- The state does not reach a difference between the quote and the guards. -/
def QuotedAlike (s : Site) (actor : Operator) : Provision → Prop
  | .create gb days targets => actor.role = .owner ∨ s.Lapsed actor ∨ s.Crowded actor ∨
      ¬QuotaTakes actor (s.allocated actor + gbToBytes (max 0 gb)) ∨
      ¬s.base.Covers actor (s.clientCost actor gb days) ∨
      -- an unlimited client under a quota is only in the quote, the targets are only in the guards
      ((gb = 0 → actor.account.trafficQuota = none) ↔ s.Accessible actor targets)
  | .renew current gb days => actor.role = .owner ∨ s.Lapsed actor ∨
      -- priced as charged, not an unlimited client under a quota, and the quota takes both
      -- roundings or none
      (s.PricedAlike actor current gb days ∧
        ((Provision.renew current gb days).total = 0 → actor.account.trafficQuota = none) ∧
        (QuotaTakes actor (s.allocated actor + gbToBytes (max 0 gb)) ↔
          QuotaTakes actor (s.allocated actor +
            (gbToBytes (max 0 (Provision.renew current gb days).total) -
              current.row.trafficLimit)))) ∨
      -- or each of the two refuses
      ((¬((Provision.renew current gb days).total = 0 → actor.account.trafficQuota = none) ∨
          ¬QuotaTakes actor (s.allocated actor + gbToBytes (max 0 gb)) ∨
          ¬s.base.Covers actor (s.clientCost actor gb days)) ∧
        (¬QuotaTakes actor (s.allocated actor +
            (gbToBytes (max 0 (Provision.renew current gb days).total) -
              current.row.trafficLimit)) ∨
          s.pricing.chargeOnRenew ∧
            ¬s.base.Covers actor (s.clientCost actor
              (Provision.renew current gb days).billedGB days)))

theorem pricedAlike_iff {s : Site} {actor : Operator} (hrole : actor.role ≠ .owner)
    {current : FullClient} {gb : ℚ} (hgb : 0 ≤ gb) (days : ℤ) :
      s.PricedAlike actor current gb days ↔
      s.clientCost actor gb days = s.chargeOf actor (.renew current gb days) := by
  unfold PricedAlike chargeOf
  cases s.pricing.chargeOnRenew with
  | false => rfl
  | true =>
      have hbilled : 0 ≤ (Provision.renew current gb days).billedGB :=
        (Provision.renew current gb days).patch.extraGB_nonneg current.row
      unfold clientCost UnitPrices.cost
      simp only [if_true, hrole, if_false, Provision.days, Bool.not_true, Bool.and_false,
        Bool.false_eq_true, max_eq_right (Int.ceil_nonneg hgb),
        max_eq_right (Int.ceil_nonneg hbilled)]
      by_cases henabled : (unitPrices s.pricing actor.account).enabled = true
      · simp only [henabled, not_true_eq_false, false_or, if_true, add_left_inj, mul_eq_mul_right_iff]
        exact or_comm
      · simp [henabled]

/-- The mirror in terms of what the two check. -/
theorem mirrors_iff {s : Site} {actor : Operator} {p : Provision}
    (hactor : s.operator actor.id = some actor) (howns : s.Owns actor p) :
    s.Mirrors actor p ↔ (s.QuotePasses actor p ↔ s.GuardsPass actor p) ∧
      (s.QuotePasses actor p → s.GuardsPass actor p →
        s.clientCost actor p.gb p.days = s.chargeOf actor p) := by
  obtain ⟨quote, hrun, hcost, hblockers⟩ := quoteForActor_spec actor p s hactor
  have hguards := fun cost => guards_ok_iff actor p cost s howns
  have hpass : (∃ cost, ((p.guards actor).run s).1 = .ok cost) ↔ s.GuardsPass actor p :=
    ⟨fun h => ((hguards _).mp h.choose_spec).1, fun h => ⟨_, (hguards _).mpr ⟨h, rfl⟩⟩⟩
  constructor
  · rintro ⟨quote', hrun', hiff, hsame⟩
    obtain rfl := Except.ok.inj (hrun.symm.trans hrun')
    rw [hblockers, hpass] at hiff
    refine ⟨hiff, fun hquote hguard => ?_⟩
    rw [← hcost]
    exact hsame _ (hblockers.mpr hquote) ((hguards _).mpr ⟨hguard, rfl⟩)
  · rintro ⟨hiff, hsame⟩
    refine ⟨quote, hrun, by rw [hblockers, hpass, hiff], fun cost hquote hguard => ?_⟩
    obtain ⟨hguards, rfl⟩ := (hguards cost).mp hguard
    rw [hcost]
    exact hsame (hblockers.mp hquote) hguards

theorem covers_owner {w : World} {actor : Operator} (hrole : actor.role = .owner) (cost : ℤ) :
    w.Covers actor cost := by
  intro h
  simp [Operator.pays, hrole] at h

/-- Two tests with their prices agree: the account has lapsed, or both pass at one price, or both
refuse. -/
theorem agree_iff {lapsed unlimited quoted booked quoteCovered covered alike : Prop}
    (hcovered : alike → (quoteCovered ↔ covered)) :
    (((¬lapsed ∧ unlimited ∧ quoted) ∧ quoteCovered ↔ (¬lapsed ∧ booked) ∧ covered) ∧
      ((¬lapsed ∧ unlimited ∧ quoted) ∧ quoteCovered → (¬lapsed ∧ booked) ∧ covered → alike)) ↔
    lapsed ∨ (alike ∧ unlimited ∧ (quoted ↔ booked)) ∨
      ((¬unlimited ∨ ¬quoted ∨ ¬quoteCovered) ∧ (¬booked ∨ ¬covered)) := by
  by_cases halike : alike
  · have := hcovered halike
    tauto
  · tauto

/-- The quote mirrors the guards exactly if the state does not reach one of the differences. -/
theorem quote_mirrors_iff (s : Site) (actor : Operator) (p : Provision)
    (hactor : s.operator actor.id = some actor) (hgb : 0 ≤ p.gb) (howns : s.Owns actor p) :
    s.Mirrors actor p ↔ s.QuotedAlike actor p := by
  rw [mirrors_iff hactor howns]
  by_cases hrole : actor.role = .owner
  -- an owner passes both, and pays nothing
  · have hquote : s.QuotePasses actor p := ⟨.inl hrole, covers_owner hrole _⟩
    have hguard : s.GuardsPass actor p := ⟨.inl hrole, covers_owner hrole _⟩
    have hcost : s.clientCost actor p.gb p.days = s.chargeOf actor p := by
      unfold chargeOf clientCost
      rw [if_pos hrole, if_pos hrole, ite_self]
    have halike : s.QuotedAlike actor p := by cases p <;> exact .inl hrole
    exact iff_of_true ⟨iff_of_true hquote hguard, fun _ _ => hcost⟩ halike
  unfold QuotePasses GuardsPass
  rw [or_iff_right hrole, or_iff_right hrole]
  cases p with
  | create gb days targets =>
      have hcharge : s.chargeOf actor (.create gb days targets) = s.clientCost actor gb days := rfl
      rw [hcharge, QuotedAlike]
      simp only [Provision.renews, Provision.gb, Provision.days, Provision.total, Provision.targets,
        quotedBytes, bookedBytes, true_implies, hrole, false_or, implies_true, and_true]
      tauto
  | renew current gb days =>
      have hgb : 0 ≤ gb := hgb
      have haccess : s.Accessible actor [] := by
        unfold Accessible
        rfl
      -- the quote prices a renewal also where the guards charge nothing
      have hrefused : (s.pricing.chargeOnRenew ∧
          ¬s.base.Covers actor (s.clientCost actor
            (Provision.renew current gb days).billedGB days)) ↔
          ¬s.base.Covers actor (s.chargeOf actor (.renew current gb days)) := by
        unfold chargeOf
        cases s.pricing.chargeOnRenew with
        | true => simp [Provision.days]
        | false => simp [Provision.renews, covers_zero s.base actor]
      have hsame : s.clientCost actor gb days = s.chargeOf actor (.renew current gb days) →
          (s.base.Covers actor (s.clientCost actor gb days) ↔
            s.base.Covers actor (s.chargeOf actor (.renew current gb days))) := fun h => by rw [h]
      rw [QuotedAlike, pricedAlike_iff hrole hgb days, hrefused]
      simp only [Provision.renews, Provision.gb, Provision.days, Provision.targets, quotedBytes,
        bookedBytes, hrole, false_or, haccess, and_true, Bool.true_eq_false,
        false_implies, true_and]
      exact agree_iff hsame

/-- Renewals are free for a reseller with an empty wallet, who adds a GB to a client. -/
def freeRenewalSite : Site :=
  { Site.blank with
    base := { World.blank with admins := Table.empty.set 2 ⟨.admin, 0, 0⟩ }
    accounts := Table.empty.set 2 ⟨"r", 0, none, true, none, none, none, none, none, none, none, []⟩
    pricing := ⟨true, 1000, 0, false⟩
    clients := Table.empty.set 7
      ⟨2, "a", none, none, 8, 9, 10737418240, 0, 0, none, 0, .active, none, none, none, none⟩ }

def freeRenewalSeller : Operator :=
  ⟨2, .admin, ⟨"r", 0, none, true, none, none, none, none, none, none, none, []⟩⟩

def freeRenewal : Provision :=
  .renew ⟨7, ⟨2, "a", none, none, 8, 9, 10737418240, 0, 0, none, 0, .active, none, none, none,
    none⟩, []⟩ 1 0

/-- The quote asks 1000 and says that the wallet cannot pay; the update passes its guards and
charges nothing. -/
theorem quote_blocks_free_renewal :
    freeRenewalSite.Owns freeRenewalSeller freeRenewal ∧
      ((freeRenewal.guards freeRenewalSeller).run freeRenewalSite).1 = .ok 0 ∧
      ((quoteForActor freeRenewalSeller freeRenewal.quoteInput).run freeRenewalSite).1.toOption.map
        WalletQuote.cost = some 1000 ∧
      ((quoteForActor freeRenewalSeller freeRenewal.quoteInput).run freeRenewalSite).1.toOption.map
        (fun q => q.blockers.isEmpty) = some false ∧
      ¬freeRenewalSite.Mirrors freeRenewalSeller freeRenewal := by
  have howns : freeRenewalSite.Owns freeRenewalSeller freeRenewal := rfl
  have hguards : ((freeRenewal.guards freeRenewalSeller).run freeRenewalSite).1 = .ok 0 :=
    by decide +kernel
  have hblocked :
      ((quoteForActor freeRenewalSeller freeRenewal.quoteInput).run freeRenewalSite).1.toOption.map
        (fun q => q.blockers.isEmpty) = some false := by decide +kernel
  refine ⟨howns, hguards, by decide +kernel, hblocked, ?_⟩
  rintro ⟨quote, hrun, hiff, -⟩
  rw [hrun] at hblocked
  change some quote.blockers.isEmpty = some false at hblocked
  rw [hiff.mpr ⟨0, hguards⟩] at hblocked
  cases hblocked

theorem quote_mirrors_iff_freeRenewal :
    freeRenewalSite.Mirrors freeRenewalSeller freeRenewal ↔
      freeRenewalSite.QuotedAlike freeRenewalSeller freeRenewal :=
  quote_mirrors_iff freeRenewalSite freeRenewalSeller freeRenewal (by decide) (by decide)
    rfl

end Site

end SRPanel
