import SRPanel.Billing.Allowance

/-!
# Paid days

Days that a seller adds are charged one by one, and they count from the later of the expiry and now:
so what an expiry moves beyond that point is paid for. What it moves up to that point, for a client
that has expired, is not.
-/

namespace SRPanel

open Interleaving

namespace Site

/-- The later of the expiry of a client and now. -/
def lead (s : Site) (id : ClientId) : ℤ :=
  max (((s.clients.get? id).bind Client.expiresAt).getD s.base.now) s.base.now

theorem now_le_lead (s : Site) (id : ClientId) : (s.base.now : ℤ) ≤ s.lead id := le_max_right _ _

/-- What the price list says about the seller `a`: a day costs `q`. -/
def DayTerms (a : AdminId) (q : ℤ) (pricing : PricingSettings) (actor : Operator) : Prop :=
  actor.id = a → actor.role ≠ .owner ∧ actor.account.Priced ∧
    (unitPrices pricing actor.account).perDay = q

/-- The cost of some days is at least their price. -/
theorem le_clientCost_days {s : Site} {a : AdminId} {q : ℤ} {actor : Operator} (ha : actor.id = a)
    (hterms : DayTerms a q s.pricing actor) (hbills : Bills s.pricing) (gb : ℚ) (days : ℤ) :
    q * max 0 days ≤ s.clientCost actor gb days := by
  obtain ⟨hrole, hpriced, hday⟩ := hterms ha
  have henabled : (unitPrices s.pricing actor.account).enabled = true := hbills.1
  have hgb := mul_nonneg (le_max_left 0 ⌈gb⌉) (hpriced.perGB s.pricing)
  rw [clientCost, if_neg hrole, UnitPrices.cost, if_pos henabled, hday, mul_comm q]
  exact le_add_of_nonneg_left hgb

/-- Nothing that is paid for a client is taken back from its purchases. -/
theorem paidFor_mono_bill {s t : Site} {actor : Operator} {cost : ℤ} {k : ClientId}
    (h : t.base.walletTxs = (s.base.bill actor cost k).walletTxs) (a : AdminId) (id : ClientId) :
    s.paidFor a id ≤ t.paidFor a id := by
  by_cases hrow : actor.pays cost ∧ k = id
  · obtain ⟨hpays, rfl⟩ := hrow
    have hpos : 0 < cost := by
      simp only [Operator.pays, Bool.and_eq_true, decide_eq_true_eq] at hpays
      exact hpays.1
    rw [paidFor, paidFor, clientTxs_eq, clientTxs_eq, rowsOf_bill h, if_pos ⟨hpays, rfl⟩]
    rw [List.filter_cons]
    split
    · rw [purchases_cons, billRow_kind, billRow_amount, if_pos rfl]
      omega
    · exact le_rfl
  · rw [paidFor_of_rows]
    rw [rowsOf_bill h, if_neg hrow]

theorem paidFor_repaid {s t : Site} {quote : RefundQuote} {byAdminId : AdminId}
    (h : t.base.walletTxs = (s.base.repaid quote byAdminId).walletTxs) (a : AdminId)
    (id : ClientId) :
    t.paidFor a id = s.paidFor a id := by
  rw [paidFor, clientTxs_eq, rowsOf_repaid h, paidFor, clientTxs_eq]
  split
  · rw [List.filter_cons]
    split
    · rw [purchases_cons, if_neg (by simp), zero_add]
    · rfl
  · rfl

theorem paidFor_mono {s s' : Site} {d : Deal} (hstep : d.Step s s') (a : AdminId) (id : ClientId) :
    s.paidFor a id ≤ s'.paidFor a id := by
  rw [paidFor_of_rows (hstep.2.rows id)]
  cases d with
  | quiet => exact le_rfl
  | opened actor input x => exact paidFor_mono_bill (created_walletTxs s actor input x none) a id
  | changed actor k input x =>
      exact paidFor_mono_bill (updated_walletTxs s actor input x) a id
  | cycled k expiry => exact le_rfl
  | dropped k => exact le_rfl
  | refunded k byAdminId =>
      show _ ≤ (refunded s s k byAdminId).paidFor a id
      unfold refunded
      cases s.refundSubject k with
      | none => exact le_rfl
      | some x => exact (paidFor_repaid (s := s.without k) rfl a id).ge

theorem effect_now (s : Site) (d : Deal) : (d.effect s).base.now = s.base.now := by
  have hbill : ∀ (w : World) (actor : Operator) (cost : ℤ) (k : ClientId),
      (w.bill actor cost k).now = w.now := by
    intro w actor cost k
    unfold World.bill
    split <;> rfl
  cases d with
  | quiet => rfl
  | opened actor input a => exact hbill _ _ _ _
  | changed actor id input x => exact hbill _ _ _ _
  | cycled id expiry => rfl
  | dropped id => rfl
  | refunded id byAdminId =>
      show (refunded s s id byAdminId).base.now = _
      rw [refunded_base]
      split
      · rfl
      · unfold World.repaid
        split <;> rfl

theorem lead_sameBooks {s s' : Site} (h : SameBooks s s') (id : ClientId) :
    s'.lead id = s.lead id := by
  have hexpiry : (s'.clients.get? id).bind Client.expiresAt =
      (s.clients.get? id).bind Client.expiresAt := by
    have hclient := congrArg (fun o : Option Client => o.bind Client.expiresAt) (h.client id)
    rw [Option.bind_map, Option.bind_map] at hclient
    exact hclient
  rw [lead, hexpiry, h.now, lead]

end Site

namespace Deal

open Site

/-- A deal of the seller `a` that adds days, or one that moves no expiry. -/
def Extends (a : AdminId) : Deal → Prop
  | quiet => True
  | changed actor _ input _ => actor.id = a ∧ (input.addDays.filter (· ≠ 0)).isSome
  | refunded _ _ => True
  | _ => False

end Deal

namespace Site

variable {a : AdminId} {q : ℤ} {id : ClientId} {s s' : Site}

/-- An update moves its own client ahead by the days that its bill counts. -/
private theorem lead_paid_own (hq : 0 ≤ q) (hbills : Bills s.pricing) {actor : Operator}
    {input : UpdateClientInput} {x : Change} (ha : actor.id = a) {days : ℤ}
    (hadd : input.addDays = some days) (hne : days ≠ 0) (hterms : DayTerms a q s.pricing actor)
    (hstep : (Deal.changed actor id input x).Step s s') :
    q * (s'.lead id - s.lead id) ≤ DAY_MS * (s'.paidFor a id - s.paidFor a id) := by
  have hagreed := hstep.1
  have hlead := lead_sameBooks hstep.2 id
  obtain ⟨hid, hget, -⟩ := clientOf_id hagreed.found
  have hrow : (s.updated actor input none x).clients.get? id =
      some (x.data.apply x.current.row) := by
    rw [updated_client, if_pos hid.symm, hget]
    rfl
  have hnow : (s.updated actor input none x).base.now = s.base.now :=
    effect_now s (.changed actor id input x)
  have hexpiry : (x.data.apply x.current.row).expiresAt =
      some (s.lead id + days * DAY_MS) := by
    have hnew := hagreed.expiry
    rw [newExpiry_addDays _ _ hadd, if_neg hne] at hnew
    show x.data.expiresAt.getD _ = _
    rw [hnew, lead, hget]
    rfl
  have hmoved : s'.lead id = max (s.lead id + days * DAY_MS) s.base.now := by
    rw [hlead]
    show (s.updated actor input none x).lead id = _
    rw [lead, hrow, hnow, Option.bind_some, hexpiry, Option.getD_some]
  have hbound : s'.lead id - s.lead id ≤ max 0 days * DAY_MS := by
    have hnow_le := s.now_le_lead id
    have hle : days * DAY_MS ≤ max 0 days * DAY_MS :=
      mul_le_mul_of_nonneg_right (le_max_right 0 days) (by decide)
    have hzero : 0 ≤ max 0 days * DAY_MS := mul_nonneg (le_max_left 0 days) (by decide)
    rw [hmoved]
    rcases max_cases (s.lead id + days * DAY_MS) (s.base.now : ℤ) with ⟨h, -⟩ | ⟨h, -⟩
    · rw [h]
      omega
    · rw [h]
      omega
  have hcost : q * max 0 days ≤ if actor.pays x.cost then x.cost else 0 := by
    obtain ⟨-, hpriced, -⟩ := hterms ha
    have hextra : input.extraDays = max 0 days := by
      rw [UpdateClientInput.extraDays, hadd]
      rfl
    rw [updateCost_eq hagreed.cost, if_pos hbills.2, clientCost_pays hpriced]
    have hprice := le_clientCost_days ha hterms hbills
      (input.extraGB x.current.row) input.extraDays
    rw [hextra, max_eq_right (le_max_left 0 days)] at hprice
    rw [hextra]
    exact hprice
  have hpaid : s'.paidFor a id = s.paidFor a id + if actor.pays x.cost then
      x.cost else 0 := by
    have hbill := paidFor_bill (updated_walletTxs s actor input x)
    rw [hid, ha] at hbill
    rw [paidFor_of_rows (hstep.2.rows id)]
    exact hbill
  rw [hpaid, add_sub_cancel_left]
  calc q * (s'.lead id - s.lead id) ≤ q * (max 0 days * DAY_MS) :=
    mul_le_mul_of_nonneg_left hbound hq
    _ = DAY_MS * (q * max 0 days) := by ring
    _ ≤ DAY_MS * _ := mul_le_mul_of_nonneg_left hcost (by decide)

/-- Days that are added to a client beyond the later of its expiry and now are paid for. -/
theorem lead_paid (id : ClientId) (hq : 0 ≤ q) (hbills : Bills s.pricing) {d : Deal}
    (hd : d.Extends a) (hterms : ∀ actor k input x, d = .changed actor k input x →
      DayTerms a q s.pricing actor)
    (hstep : d.Step s s') :
    q * (s'.lead id - s.lead id) ≤ DAY_MS * (s'.paidFor a id - s.paidFor a id) := by
  have hagreed := hstep.1
  have hfree : s'.lead id ≤ s.lead id →
      q * (s'.lead id - s.lead id) ≤ DAY_MS * (s'.paidFor a id - s.paidFor a id) := by
    intro hle
    have hpaid := paidFor_mono hstep a id
    have hneg : q * (s'.lead id - s.lead id) ≤ 0 :=
      mul_nonpos_of_nonneg_of_nonpos hq (sub_nonpos.mpr hle)
    exact hneg.trans (mul_nonneg (by decide) (sub_nonneg.mpr hpaid))
  have hlead := lead_sameBooks hstep.2 id
  cases d with
  | quiet => exact hfree hlead.le
  | opened actor input x => exact hd.elim
  | changed actor k input x =>
      obtain ⟨ha, hdays⟩ := hd
      obtain ⟨days, hdays⟩ := Option.isSome_iff_exists.mp hdays
      obtain ⟨hadd, hne⟩ := Option.filter_eq_some_iff.mp hdays
      obtain ⟨hid, -, -⟩ := clientOf_id hagreed.found
      by_cases hk : id = k
      · subst hk
        exact lead_paid_own hq hbills ha hadd (by simpa using hne) (hterms _ _ _ _ rfl) hstep
      · refine hfree (hlead.trans ?_).le
        show (s.updated actor input none x).lead id = _
        have hnow : (s.updated actor input none x).base.now = s.base.now :=
          effect_now s (.changed actor k input x)
        rw [lead, updated_client, if_neg (by rw [hid]; exact hk), hnow, lead]
  | cycled k expiry => exact hd.elim
  | dropped k => exact hd.elim
  | refunded k byAdminId =>
      refine hfree (hlead.trans_le ?_)
      have hnow : (refunded s s k byAdminId).base.now = s.base.now :=
        effect_now s (.refunded k byAdminId)
      show (refunded s s k byAdminId).lead id ≤ _
      rw [lead, refunded_client, hnow]
      split
      · exact max_le (s.now_le_lead id) (s.now_le_lead id)
      · exact le_rfl

end Site

/-- The request adds days: an update with `addDays`, or the bulk action. -/
def Request.addsDays (a : AdminId) : Request → Bool
  | .admin adminId (.update _ input) => adminId = a && (input.addDays.filter (· ≠ 0)).isSome
  | .admin adminId (.bulk input) => adminId = a && input.action = .addDays && input.days ≠ 0
  | _ => false

/-- Billing is on for renewals too, and the seller `a` pays `q` for a day. -/
def Request.DaysSold (a : AdminId) (q : ℤ) (r : Request) (s : Site) : Prop :=
  Site.Bills s.pricing ∧ match r with
    | admin adminId _ => ∀ actor, s.operator adminId = some actor →
      Site.DayTerms a q s.pricing actor
    | _ => True

/-- A request of the seller that adds days comes to deals that do. -/
theorem Request.extends_deals {a : AdminId} {r : Request} (h : r.addsDays a) {s : Site} {d : Deal}
    (hd : r.allows s d) : d.Extends a ∧ ∀ actor k input x, d = .changed actor k input x →
      ∃ adminId c, r = .admin adminId c ∧ s.operator adminId = some actor := by
  rcases hd with rfl | hd
  · exact ⟨trivial, fun _ _ _ _ h => by cases h⟩
  · cases r with
    | admin adminId r =>
        obtain ⟨actor, hactor, hd⟩ := hd
        have hid := (Site.operator_account hactor).1
        rcases hd with rfl | hd
        · exact ⟨trivial, fun _ _ _ _ h => by cases h⟩
        · cases r with
          | update k input =>
              obtain ⟨x, rfl⟩ := hd
              simp only [addsDays, Bool.and_eq_true, decide_eq_true_eq] at h
              refine ⟨⟨hid.trans h.1, h.2⟩, fun _ _ _ _ heq => ?_⟩
              obtain ⟨rfl, -, -, -⟩ := Deal.changed.inj heq
              exact ⟨adminId, _, rfl, hactor⟩
          | bulk input =>
              rcases hd with ⟨k, -, bytes, patch, x, -, hpatch, rfl⟩ | ⟨k, rfl⟩
              · simp only [addsDays, Bool.and_eq_true, decide_eq_true_eq] at h
                obtain ⟨⟨ha, haction⟩, hdays⟩ := h
                unfold ClientBulkInput.Patch at hpatch
                rw [haction] at hpatch
                subst hpatch
                refine ⟨⟨hid.trans ha, ?_⟩, fun _ _ _ _ heq => ?_⟩
                · rw [Option.filter_some, if_pos (decide_eq_true hdays)]
                  rfl
                · obtain ⟨rfl, -, -, -⟩ := Deal.changed.inj heq
                  exact ⟨adminId, _, rfl, hactor⟩
              · exact ⟨trivial, fun _ _ _ _ h => by cases h⟩
          | create input => cases h
          | resetTraffic k => cases h
          | delete k => cases h
          | deleteWithRefund k => cases h
          | setAutoRenew k input => cases h
    | autoRenew limit => cases h
    | fulfill orderId => cases h

namespace Site

/-- What may happen between two requests, as far as the ledger rows of clients are concerned. -/
structure Apart (s s' : Site) : Prop where
  rows : ∀ id, s'.rowsOf id = s.rowsOf id
  links : s.SoundLinks → s'.SoundLinks

/-- The milliseconds by which the requests of a seller that add days move the expiry of a client
beyond the later of its old value and now. -/
def extended (a : AdminId) (id : ClientId) (r : Option Request) (s s' : Site) : ℤ :=
  match r with
  | some r => if r.addsDays a then max 0 (s'.lead id - s.lead id) else 0
  | none => 0

/-- In every run of requests the seller has paid for all days by which his requests have extended a
client. -/
theorem days_paid {a : AdminId} {q : ℤ} (hq : 0 ≤ q) (id : ClientId) {s s' : Site} {n : ℤ}
    (hlinks : s.SoundLinks)
    (hrun : Serial.Metered serve Apart (Request.DaysSold a q) (extended a id) s s' n) :
    q * n ≤ DAY_MS * (s'.paidFor a id - s.paidFor a id) := by
  have hinv : s'.SoundLinks ∧ q * n ≤ DAY_MS * (s'.paidFor a id - s.paidFor a id) := by
    refine hrun.invariant (I := fun t n =>
      t.SoundLinks ∧ q * n ≤ DAY_MS * (t.paidFor a id - s.paidFor a id)) ⟨hlinks, by
        simp⟩ (fun r t n h hr => ?_) fun t t' n h he => ?_
    · obtain ⟨hsound, hpaid⟩ := h
      -- along the deals of the request the lead is paid, and nothing paid is lost
      have hchain := (serve_deals r t hsound).invariant (I := fun u =>
        u.SoundLinks ∧ u.pricing = t.pricing ∧ t.paidFor a id ≤ u.paidFor a id ∧ (r.addsDays a →
          q * (u.lead id - t.lead id) ≤ DAY_MS * (u.paidFor a id - t.paidFor a id)))
        ⟨hsound, rfl, le_rfl, fun _ => by simp⟩ fun d u u' hd h hstep => ?_
      · obtain ⟨hsound', -, hmono, hlead⟩ := hchain
        refine ⟨hsound', ?_⟩
        have hmeter : q * extended a id (some r) t ((serve r).run t).2 ≤
            DAY_MS * (((serve r).run t).2.paidFor a id - t.paidFor a id) := by
          have hgain : 0 ≤ DAY_MS * (((serve r).run t).2.paidFor a id - t.paidFor a id) :=
            mul_nonneg (by decide) (sub_nonneg.mpr hmono)
          unfold extended
          dsimp only
          split
          · next hadds =>
            rcases max_cases 0 (((serve r).run t).2.lead id - t.lead id) with ⟨h, -⟩ | ⟨h, -⟩
            · rw [h, mul_zero]
              exact hgain
            · rw [h]
              exact hlead hadds
          · rw [mul_zero]
            exact hgain
        rw [mul_add]
        have hsum := add_le_add hpaid hmeter
        calc _ ≤ _ := hsum
          _ = DAY_MS * (((serve r).run t).2.paidFor a id - s.paidFor a id) := by ring
      · obtain ⟨hsound', hpricing, hmono, hlead⟩ := h
        refine ⟨(hstep.2.links (d.effect_sound hsound')).1, ?_,
          hmono.trans (paidFor_mono hstep a id), fun hadds => ?_⟩
        · rw [hstep.2.pricing, effect_pricing, hpricing]
        · obtain ⟨hext, hfrom⟩ := r.extends_deals hadds hd
          have hmore := lead_paid id hq (hpricing ▸ hr.1) hext (fun actor k input x heq => ?_) hstep
          · have hsum := add_le_add (hlead hadds) hmore
            calc q * (u'.lead id - t.lead id) = q * (u.lead id - t.lead id) +
            q * (u'.lead id - u.lead id) := by ring
              _ ≤ _ := hsum
              _ = DAY_MS * (u'.paidFor a id - t.paidFor a id) := by ring
          · obtain ⟨adminId, c, rfl, hactor⟩ := hfrom actor k input x heq
            rw [hpricing]
            exact hr.2 actor hactor
    · refine ⟨he.links h.1, ?_⟩
      rw [paidFor_of_rows (he.rows id)]
      show q * (n + 0) ≤ _
      rw [add_zero]
      exact h.2
  exact hinv.2

/-- A reseller who pays 100 for a day, and his client, which expired ten days ago. -/
def expiredSite : Site :=
  { Site.blank with
    base := { World.blank with
      now := 864000000
      admins := Table.empty.set 2 ⟨.admin, 100000, 0⟩ }
    accounts := Table.empty.set 2 ⟨"r", 0, none, true, none, none, none, none, none, none, none, []⟩
    pricing := ⟨true, 0, 100, true⟩
    clients := Table.empty.set 7
      ⟨2, "a", none, none, 8, 9, 1073741824, 0, 0, some 0, 0, .expired, none, none, none, none⟩ }

/-- One more day for the client; it counts from now. -/
def dayRequest : Request := .admin 2 (.update 7 { UpdateClientInput.none with addDays := some 1 })

example :
    (((serve dayRequest).run expiredSite).2.clients.get? 7).map Client.expiresAt = some
      (some (11 * DAY_MS)) ∧ ((serve dayRequest).run expiredSite).2.paidFor 2 7 -
        expiredSite.paidFor 2 7 = 100 :=
  ⟨by decide +kernel, by decide +kernel⟩

end Site

end SRPanel
