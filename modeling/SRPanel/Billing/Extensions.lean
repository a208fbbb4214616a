import SRPanel.Billing.Days

/-!
# Paid extensions

Four requests can move the expiry of a client: a patch, a bulk action, an automatic renewal and the
tick that runs it. The wallet is charged for the days that a patch adds, and for nothing else: a
date that a patch names, the cycles of a rule, and the days between a past expiry and now are free.
So a seller has paid for every extension in the runs in which an expiry moves later only by days
that the seller adds before it has passed.
-/

namespace SRPanel

open Interleaving

/-- A patch of a client that expires at `e` is paid for: the seller `a` adds days before the expiry
has passed, or what the patch adds or names does not lie beyond the expiry. -/
def UpdateClientInput.PaysMove (input : UpdateClientInput) (a adminId : AdminId) (e t : ℤ) : Prop :=
  match input.addDays.filter (· ≠ 0) with
  | some days => adminId = a ∧ t ≤ e ∨ max e t + days * DAY_MS ≤ e
  | .none => ∀ date, input.expiresAt = some date → ∃ e' ∈ date, e' ≤ e

/-- A request that may extend the client is paid for: it is a patch that is, or adds such days in
bulk; a tick finds no rule that would extend the client and is due. -/
def Request.PaysMove (a : AdminId) (id : ClientId) (r : Request) (s : Site) : Prop :=
  ∀ c e, s.clients.get? id = some c → c.expiresAt = some e → match r with
    | admin adminId (.update k input) => k = id → input.PaysMove a adminId e s.base.now
    | admin adminId (.bulk input) => ∀ actor, s.operator adminId = some actor →
        id ∈ (s.bulkTargets actor input).map Prod.fst → input.action = .addDays →
          { UpdateClientInput.none with addDays := some input.days }.PaysMove a adminId e s.base.now
    | autoRenew limit => ∀ row ∈ s.autoRenews.rows.take (max 1 limit), row.1 = id →
        row.2.extendExpiry → (s.base.now : ℤ) < row.2.nextAt
    | _ => True

/-- The request is one of the four. -/
def Request.extends : Request → Bool
  | admin _ (.update _ _) => true
  | admin _ (.bulk _) => true
  | admin _ (.setAutoRenew _ _) => true
  | autoRenew _ => true
  | _ => false

namespace Site

/-- The expiry of a client; one that is not there has none. -/
def expiryOf (s : Site) (id : ClientId) : Option ℤ := (s.clients.get? id).bind Client.expiresAt

/-- The milliseconds by which one of the four requests moves the expiry of a client later. -/
def moved (id : ClientId) (r : Option Request) (s s' : Site) : ℤ :=
  match r, s.expiryOf id, s'.expiryOf id with
  | some r, some e, some e' => if r.extends then max 0 (e' - e) else 0
  | _, _, _ => 0

theorem expiryOf_sameBooks {s s' : Site} (h : SameBooks s s') (id : ClientId) :
    s'.expiryOf id = s.expiryOf id := by
  have hclient := congrArg (fun o : Option Client => o.bind Client.expiresAt) (h.client id)
  rw [Option.bind_map, Option.bind_map] at hclient
  exact hclient

/-- The client expires by `e`, if it is there and expires at all. -/
def ExpiresBy (s : Site) (id : ClientId) (e : ℤ) : Prop := ∀ e' ∈ s.expiryOf id, e' ≤ e

end Site

/-- The patch leaves an expiry by `e` where it is, or puts another one by `e`. -/
def UpdateClientInput.StaysBy (input : UpdateClientInput) (e t : ℤ) : Prop :=
  match input.addDays.filter (· ≠ 0) with
  | some d => max e t + d * DAY_MS ≤ e
  | .none => ∀ e', input.expiresAt = some (some e') → e' ≤ e

/-- The deal leaves the expiry of a client by `e`. -/
def Deal.StaysBy (id : ClientId) (e t : ℤ) : Deal → Prop
  | quiet => True
  | changed _ k input _ => k = id → input.StaysBy e t
  | cycled k _ => k ≠ id
  | refunded _ _ => True
  | _ => False

section Deals

variable {a : AdminId} {id : ClientId} {e t : ℤ}

theorem UpdateClientInput.StaysBy.patched {input : UpdateClientInput} (h : input.StaysBy e t)
    {c : Client} (hc : ∀ e' ∈ c.expiresAt, e' ≤ e) :
    ∀ e' ∈ (Site.newExpiry c input t).getD c.expiresAt, e' ≤ e := by
  intro e' he'
  unfold StaysBy at h
  unfold Site.newExpiry at he'
  split at h
  · next d hd =>
      rw [hd] at he'
      obtain rfl : max (c.expiresAt.getD t) t + d * DAY_MS = e' := Option.some.inj he'
      cases hold : c.expiresAt with
      | none =>
          have hmax := le_max_right e t
          rw [Option.getD_none, max_self]
          omega
      | some e₀ =>
          have hmax := max_le_max_right t (hc e₀ hold)
          rw [Option.getD_some]
          omega
  · next hd =>
      rw [hd] at he'
      cases hinput : input.expiresAt with
      | none =>
          rw [hinput] at he'
          exact hc e' he'
      | some date =>
          rw [hinput] at he'
          exact h e' (by rw [hinput]; exact congrArg some he')

/-- What the deals of a request that moves the expiry no later do to it. -/
theorem Deal.StaysBy.step {d : Deal} {u u' : Site} (h : d.StaysBy id e u.base.now)
    (hstep : d.Step u u') (hu : u.ExpiresBy id e) : u'.ExpiresBy id e := by
  obtain ⟨hagreed, hbooks⟩ := hstep
  rw [Site.ExpiresBy, Site.expiryOf_sameBooks hbooks]
  cases d with
  | quiet => exact hu
  | opened actor input x => exact h.elim
  | changed actor k input x =>
      obtain ⟨hid, hget, -⟩ := Site.clientOf_id hagreed.found
      show ∀ e' ∈ ((u.updated actor input none x).clients.get? id).bind Client.expiresAt, e' ≤ e
      rw [Site.updated_client]
      split
      · next hk =>
          have hki : k = id := hid.symm.trans hk.symm
          rw [← hki, hget]
          show ∀ e' ∈ x.data.expiresAt.getD x.current.row.expiresAt, e' ≤ e
          rw [hagreed.expiry]
          refine (h hki).patched fun e' he' => hu e' ?_
          show e' ∈ (u.clients.get? id).bind Client.expiresAt
          rw [← hki, hget]
          exact he'
      · exact hu
  | cycled k expiry =>
      show ∀ e' ∈ ((u.clients.modify k _).get? id).bind Client.expiresAt, e' ≤ e
      rw [Table.get?_modify_of_ne _ _ (Ne.symm h)]
      exact hu
  | dropped k => exact h.elim
  | refunded k byAdminId =>
      show ∀ e' ∈ ((Site.refunded u u k byAdminId).clients.get? id).bind Client.expiresAt, e' ≤ e
      rw [Site.refunded_client]
      split
      · intro e' he'
        cases he'
      · exact hu

/-- A patch that is paid for adds days of the seller before the expiry, or leaves it by where it
was. -/
theorem UpdateClientInput.PaysMove.adds_or_stays {input : UpdateClientInput} {adminId : AdminId}
    (h : input.PaysMove a adminId e t) :
    (adminId = a ∧ (input.addDays.filter (· ≠ 0)).isSome) ∧ t ≤ e ∨ input.StaysBy e t := by
  unfold PaysMove at h
  unfold StaysBy
  split at h
  · next days hdays =>
      rw [hdays]
      exact h.imp (fun h => ⟨⟨h.1, rfl⟩, h.2⟩) fun h => h
  · next hdays =>
      rw [hdays]
      refine .inr fun e' hdate => ?_
      obtain ⟨e'', he'', hle⟩ := h _ hdate
      obtain rfl := Option.some.inj he''
      exact hle

/-- A patch without days and without a date leaves every expiry. -/
theorem UpdateClientInput.staysBy_of_none {input : UpdateClientInput}
    (hdays : input.addDays = .none) (hdate : input.expiresAt = .none) : input.StaysBy e t := by
  unfold StaysBy
  rw [hdays]
  intro e' he'
  rw [hdate] at he'
  cases he'

/-- A request that neither adds days nor breaks the condition comes to deals that leave the expiry.
-/
theorem Request.stays_deals {r : Request} {s : Site} (hr : r.extends) (hpays : r.PaysMove a id s)
    {c : Client} (hc : s.clients.get? id = some c) (he : c.expiresAt = some e)
    (hno : ¬(r.addsDays a ∧ (s.base.now : ℤ) ≤ e)) {d : Deal} (hd : r.allows s d) :
    d.StaysBy id e s.base.now := by
  have hbody := hpays c e hc he
  rcases hd with rfl | hd
  · trivial
  -- the other requests make no deal that moves an expiry
  cases r with
  | admin adminId r =>
      obtain ⟨actor, hactor, hd⟩ := hd
      rcases hd with rfl | hd
      · trivial
      cases r with
      | update k input =>
          obtain ⟨x, rfl⟩ := hd
          intro hk
          refine (hbody hk).adds_or_stays.resolve_left fun h => hno ⟨?_, h.2⟩
          simp only [addsDays, h.1.1, decide_true, h.1.2, Bool.and_self]
      | bulk input =>
          rcases hd with ⟨k, htarget, bytes, patch, x, -, hpatch, rfl⟩ | ⟨k, rfl⟩
          · rintro rfl
            unfold ClientBulkInput.Patch at hpatch
            split at hpatch
            · exact UpdateClientInput.staysBy_of_none (by rw [hpatch]; rfl) (by rw [hpatch]; rfl)
            · exact UpdateClientInput.staysBy_of_none (by rw [hpatch]; rfl) (by rw [hpatch]; rfl)
            · next haction =>
                rw [hpatch]
                refine (hbody actor hactor htarget haction).adds_or_stays.resolve_left fun h =>
                  hno ⟨?_, h.2⟩
                obtain ⟨⟨ha, hdays⟩, -⟩ := h
                have hne : input.days ≠ 0 := by
                  intro hzero
                  simp [hzero] at hdays
                simp [addsDays, ha, haction, hne]
            · exact UpdateClientInput.staysBy_of_none (by rw [hpatch]; rfl) (by rw [hpatch]; rfl)
            · exact hpatch.elim
          · trivial
      | setAutoRenew k input => exact hd.elim
      | create input => cases hr
      | resetTraffic k => cases hr
      | delete k => cases hr
      | deleteWithRefund k => cases hr
  | autoRenew limit =>
      obtain ⟨row, hrow, hextend, hdue, expiry, rfl⟩ := hd
      exact fun hk => absurd hdue (not_le.mpr (hbody row hrow hk hextend))
  | fulfill orderId => cases hr

end Deals

namespace Site

variable {a : AdminId} {q : ℤ} {id : ClientId}

theorem extended_nonneg (r : Option Request) (s s' : Site) : 0 ≤ extended a id r s s' := by
  unfold extended
  split
  · split
    · exact le_max_left _ _
    · exact le_rfl
  · exact le_rfl

/-- Under the condition, what a request moves the expiry by is what the days that it adds move it
by. -/
theorem moved_le_extended {r : Request} {s : Site} (hlinks : s.SoundLinks)
    (hpays : r.PaysMove a id s) :
    moved id (some r) s ((serve r).run s).2 ≤ extended a id (some r) s ((serve r).run s).2 := by
  unfold moved
  split
  · next r' e e' hr' he he' =>
      obtain rfl := Option.some.inj hr'
      split
      · next hr =>
          obtain ⟨c, hc, hexpiry⟩ := Option.bind_eq_some_iff.mp he
          by_cases hadds : r.addsDays a ∧ (s.base.now : ℤ) ≤ e
          -- an expiry that has not passed is where the added days count from
          · have hlead : s.lead id = e := by
              show max ((s.expiryOf id).getD s.base.now) s.base.now = e
              rw [he, Option.getD_some, max_eq_left hadds.2]
            have hlead' : e' ≤ (((serve r).run s).2).lead id := by
              show e' ≤ max ((((serve r).run s).2.expiryOf id).getD _) _
              rw [he', Option.getD_some]
              exact le_max_left _ _
            unfold extended
            dsimp only
            rw [if_pos hadds.1, hlead]
            exact max_le_max_left 0 (sub_le_sub_right hlead' e)
          · have hstays := (serve_deals r s hlinks).invariant
              (I := fun u => u.base.now = s.base.now ∧ u.ExpiresBy id e) ⟨rfl, fun x hx => ?_⟩
              fun d u u' hd h hstep => ?_
            · have hle := hstays.2 e' he'
              rw [max_eq_left (sub_nonpos.mpr hle)]
              exact extended_nonneg _ _ _
            · rw [he] at hx
              exact (Option.some.inj hx).ge
            · obtain ⟨hnow, hby⟩ := h
              have hd' := Request.stays_deals hr hpays hc hexpiry hadds hd
              rw [← hnow] at hd'
              exact ⟨(hstep.2.now.trans (effect_now u d)).trans hnow, hd'.step hstep hby⟩
      · exact extended_nonneg _ _ _
  · exact extended_nonneg _ _ _

/-- **Every extension is paid.** In every run in which the expiry of a client moves later only by
days that its seller adds before it has passed, the seller has paid the price of a day for all days
by which it has moved. -/
theorem extensions_paid (hq : 0 ≤ q) {s s' : Site} {n : ℤ} (hlinks : s.SoundLinks)
    (hrun : Serial.Metered serve Apart (fun r s => r.DaysSold a q s ∧ r.PaysMove a id s)
      (moved id) s s' n) :
    q * n ≤ DAY_MS * (s'.paidFor a id - s.paidFor a id) := by
  have hinv := hrun.invariant (I := fun t n => t.SoundLinks ∧ ∃ m, n ≤ m ∧
      Serial.Metered serve Apart (Request.DaysSold a q) (extended a id) s t m)
    ⟨hlinks, 0, le_rfl, .refl s⟩ (fun r t n h hr => ?_) fun t t' n h he => ?_
  · obtain ⟨-, m, hle, hmetered⟩ := hinv
    exact (mul_le_mul_of_nonneg_left hle hq).trans (days_paid hq id hlinks hmetered)
  · obtain ⟨hsound, m, hle, hmetered⟩ := h
    refine ⟨?_, _, add_le_add hle (moved_le_extended hsound hr.2), hmetered.call r hr.1⟩
    exact (serve_deals r t hsound).invariant (I := SoundLinks) hsound
      fun d u u' _ hu hstep => (hstep.2.links (d.effect_sound hu)).1
  · obtain ⟨hsound, m, hle, hmetered⟩ := h
    exact ⟨he.links hsound, _, add_le_add hle le_rfl, hmetered.env he⟩

/-- The client of the reseller, with one day left. -/
def runningSite : Site :=
  { expiredSite with
    clients := Table.empty.set 7
      ⟨2, "a", none, none, 8, 9, 1073741824, 0, 0, some (864000000 + DAY_MS), 0, .active, none,
        none, none, none⟩ }

/-- The reseller names a date ten years from now. -/
def dateRequest : Request :=
  .admin 2 (.update 7 { UpdateClientInput.none
    with expiresAt := some (some (864000000 + 3650 * DAY_MS)) })

theorem runningSite_sold (r : ClientRequest) : (Request.admin 2 r).DaysSold 2 100 runningSite := by
  refine ⟨⟨rfl, rfl⟩, fun actor hactor _ => ?_⟩
  obtain rfl := Option.some.inj hactor
  refine ⟨by decide, ⟨fun x hx => ?_, fun x hx => ?_⟩, rfl⟩
  · cases hx
  · cases hx

/-- The expiry moves by 3649 days, and nothing is charged. -/
theorem named_date_unpaid :
    Serial.Run serve Apart (Request.DaysSold 2 100) runningSite
      ((serve dateRequest).run runningSite).2 ∧
      moved 7 (some dateRequest) runningSite ((serve dateRequest).run runningSite).2 =
      3649 * DAY_MS ∧
      ¬100 * 3649 ≤ ((serve dateRequest).run runningSite).2.paidFor 2 7 - runningSite.paidFor 2 7 :=
  ⟨.single (.call dateRequest (runningSite_sold _)), by decide +kernel, by decide +kernel⟩

/-- One more day for the client is paid. -/
theorem extensions_paid_one :
    100 * moved 7 (some dayRequest) runningSite ((serve dayRequest).run runningSite).2 ≤
      DAY_MS * (((serve dayRequest).run runningSite).2.paidFor 2 7 - runningSite.paidFor 2 7) := by
  have hpays : dayRequest.PaysMove 2 7 runningSite := by
    intro c e hc he _
    obtain rfl := Option.some.inj hc
    obtain rfl := Option.some.inj he
    exact .inl ⟨rfl, by decide⟩
  have hnone : ∀ k, runningSite.links.get? k = none := fun k => Table.get?_empty k
  have hrun : Serial.Metered serve Apart (fun r s =>
      r.DaysSold 2 100 s ∧ r.PaysMove 2 7 s) (moved 7) runningSite
        ((serve dayRequest).run runningSite).2
      (0 + moved 7 (some dayRequest) runningSite ((serve dayRequest).run runningSite).2) :=
    .call dayRequest (.refl runningSite) ⟨runningSite_sold _, hpays⟩
  rw [zero_add] at hrun
  refine extensions_paid (by decide) (fun k l hl => ?_) hrun
  rw [hnone k] at hl
  cases hl

end Site

end SRPanel
