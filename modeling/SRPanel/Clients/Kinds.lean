import SRPanel.Clients.Requests

/-!
# Kinds of clients

What the owner allows a reseller (limited or unlimited clients, how many unlimited ones, how large a
limited one) is asserted of the GB that a request names, while the client is stored with whole
bytes. An amount above zero that rounds to no byte is asserted as limited and stored as unlimited;
without such an amount the rules are an invariant.
-/

namespace SRPanel

open Interleaving

/-- The amount is stored as the kind that it is asserted for: it is not a positive one of no byte.
-/
def Stored (gb : ℚ) : Prop := 0 < gb → 0 < gbToBytes gb

/-- A whole GB or more is not stored as nothing. -/
theorem stored_of_one_le {gb : ℚ} (h : 1 ≤ gb) : Stored gb := by
  refine fun _ => lt_of_lt_of_le one_pos (le_mathRound (n := 1) ?_)
  have hGB : (1 : ℚ) ≤ GB := by exact_mod_cast (by decide : 1 ≤ GB)
  push_cast
  nlinarith

/-- A bulk action that sets a limit sets one of a GB or more. -/
theorem ClientBulkInput.Patch.one_le {input : ClientBulkInput} {bytes : ℤ}
    {patch : UpdateClientInput} (h : input.Patch bytes patch)
    {gb : ℚ} (hgb : patch.trafficGB = some gb) : 1 ≤ gb := by
  unfold ClientBulkInput.Patch at h
  split at h
  · subst h
    cases hgb
  · subst h
    cases hgb
  · subst h
    cases hgb
  · subst h
    rw [← Option.some.inj hgb]
    exact le_max_left 1 _
  · exact h.elim

namespace Site

theorem refuseIf_ok {c : Bool} {e : AppError} {s : Site} (h : ((refuseIf c e).run s).1 = .ok ()) :
    c = false := by
  cases c with
  | false => rfl
  | true => cases h

/-- What `assertClientKind` has checked when it passes. -/
theorem assertClientKind_ok {s : Site} {actor : Actor} {kind : ClientKind}
    {serviceId : Option ServiceId} {gb : ℚ} {exclude : Option ClientId}
    (h : ((assertClientKind actor kind serviceId gb exclude).run s).1 = .ok ()) :
    (kind = .limited → 0 < (kindsOf s.clientTypes actor).limitedMaxGB →
      gb ≤ (kindsOf s.clientTypes actor).limitedMaxGB) ∧
    (kind = .unlimited → (kindsOf s.clientTypes actor).unlimited ∧
      (0 < (kindsOf s.clientTypes actor).unlimitedMax → (s.clients.rows.filter fun r =>
        inScope actor r.2 && r.2.trafficLimit = 0 && exclude ≠ some r.1).length <
          (kindsOf s.clientTypes actor).unlimitedMax)) := by
  unfold assertClientKind at h
  obtain ⟨settings, hsettings, h⟩ :=
    (Prog.reads_query (V := (· = ·)) fun _ _ h => by rw [h]).bind_ok h
  obtain rfl := Except.ok.inj hsettings
  obtain ⟨_, -, h⟩ := (refuseIf_reads (V := (· = ·)) _ _).bind_ok h
  obtain ⟨_, hunlimited, h⟩ := (refuseIf_reads (V := (· = ·)) _ _).bind_ok h
  obtain ⟨_, hsize, h⟩ := (refuseIf_reads (V := (· = ·)) _ _).bind_ok h
  obtain ⟨_, hmax, -⟩ := (assertUnlimitedMax_reads actor kind _ exclude).bind_ok h
  have hunlimited := refuseIf_ok hunlimited
  have hsize := refuseIf_ok hsize
  constructor
  · intro hkind hcap
    by_contra hgt
    simp only [hkind, decide_true, Bool.true_and, hcap, decide_eq_false_iff_not, not_lt] at hsize
    exact hgt hsize
  · intro hkind
    refine ⟨by simpa [hkind] using hunlimited, fun hcap => ?_⟩
    unfold assertUnlimitedMax at hmax
    rw [if_pos (by simp [hkind, hcap])] at hmax
    obtain ⟨used, hused, hmax⟩ :=
      (Prog.reads_query (V := (· = ·)) fun _ _ h => by rw [h]).bind_ok hmax
    obtain rfl := Except.ok.inj hused
    have hlt := refuseIf_ok hmax
    simpa using hlt

/-! ## The invariant -/

/-- What the settings allow a reseller. -/
def allowance (s : Site) (id : AdminId) : KindAccess :=
  (s.clientTypes.admins.get? id).getD s.clientTypes.default

/-- The unlimited clients of an admin. -/
def unlimitedClients (s : Site) (id : AdminId) : List (ClientId × Client) :=
  s.clients.rows.filter fun r => r.2.adminId = id && r.2.trafficLimit = 0

/-- The stored clients of a reseller are of the kinds that the settings allow. -/
structure KindsHold (s : Site) (id : AdminId) : Prop where
  unlimited : ∀ k c, s.clients.get? k = some c → c.adminId = id → c.trafficLimit = 0 →
    (s.allowance id).unlimited
  count : 0 < (s.allowance id).unlimitedMax →
    (s.unlimitedClients id).length ≤ (s.allowance id).unlimitedMax
  limited : 0 < (s.allowance id).limitedMaxGB → ∀ k c, s.clients.get? k = some c → c.adminId = id →
    c.trafficLimit ≤ (s.allowance id).limitedMaxGB * GB

/-- A change after which the clients have the same limits and the settings of the kinds are the
same. -/
structure SameKinds (s s' : Site) : Prop where
  clients : (s'.clients.mapRows fun _ c => c.settled) = s.clients.mapRows fun _ c => c.settled
  clientTypes : s'.clientTypes = s.clientTypes
  links : s.SoundLinks → s'.SoundLinks
  nextId : s.base.nextId ≤ s'.base.nextId

namespace KindsHold

variable {s s' : Site} {id : AdminId}

theorem same (h : s.KindsHold id) (hs : SameKinds s s') : s'.KindsHold id := by
  have hallow : s'.allowance id = s.allowance id := by rw [allowance, hs.clientTypes, allowance]
  have hrow : ∀ k c', s'.clients.get? k = some c' →
      ∃ c, s.clients.get? k = some c ∧ c'.adminId = c.adminId ∧ c'.trafficLimit =
      c.trafficLimit := by
    intro k c' hc'
    have hget := congrArg (fun t : Table ClientId Client => t.get? k) hs.clients
    simp only [Table.get?_mapRows, hc', Option.map_some] at hget
    obtain ⟨c, hc, hsettled⟩ := Option.map_eq_some_iff.mp hget.symm
    have howner := congrArg Client.adminId hsettled
    have hlimit := congrArg Client.trafficLimit hsettled
    exact ⟨c, hc, howner.symm, hlimit.symm⟩
  refine ⟨fun k c' hc' howner hzero => ?_, fun hcap => ?_, fun hcap k c' hc' howner => ?_⟩
  · obtain ⟨c, hc, h₁, h₂⟩ := hrow k c' hc'
    rw [hallow]
    exact h.unlimited k c hc (h₁ ▸ howner) (h₂ ▸ hzero)
  · rw [hallow] at hcap ⊢
    have hcount := congrArg List.length (Table.filter_map_of_mapRows_eq hs.clients
      (fun r => r.2.adminId = id && r.2.trafficLimit = 0) Prod.fst (fun _ => rfl) fun _ => rfl)
    rw [List.length_map, List.length_map] at hcount
    rw [unlimitedClients, hcount]
    exact h.count hcap
  · obtain ⟨c, hc, h₁, h₂⟩ := hrow k c' hc'
    rw [hallow] at hcap ⊢
    rw [h₂]
    exact h.limited hcap k c hc (h₁ ▸ howner)

theorem sameBooks (h : s.KindsHold id) (hs : SameBooks s s') : s'.KindsHold id :=
  h.same ⟨hs.clients, hs.clientTypes, fun hlinks => (hs.links hlinks).1, hs.nextId⟩

/-- One client of the reseller is stored with a limit that its kind was asserted for. -/
theorem put {actor : Operator} {k : ClientId} {c : Client} {gb : ℚ} {serviceId : Option ServiceId}
    {exclude : Option ClientId} (h : s.KindsHold id) (hrole : actor.role ≠ .owner)
    (howner : c.adminId = actor.id)
    (hlimit : c.trafficLimit = gbToBytes gb) (hgb : 0 ≤ gb) (hstored : Stored gb)
    (hkind : ((assertClientKind actor.actor (kindFromGB gb) serviceId gb exclude).run s).1 = .ok ())
    (hexclude : ∀ k', exclude = some k' → k' = k) (hnone : exclude = none → s.clients.get? k = none)
    (htypes : s'.clientTypes = s.clientTypes) (hget : s'.clients.get? k = some c)
    (hothers : ∀ k', k' ≠ k → s'.clients.get? k' = s.clients.get? k') : s'.KindsHold id := by
  have hallow : ∀ id, s'.allowance id = s.allowance id :=
    fun id => by rw [allowance, htypes, allowance]
  have hkinds : kindsOf s.clientTypes actor.actor = s.allowance actor.id := if_neg hrole
  obtain ⟨hlimited, hunlimited⟩ := assertClientKind_ok hkind
  rw [hkinds] at hlimited hunlimited
  -- the stored limit is zero exactly for an unlimited client
  have hzero : c.trafficLimit = 0 → kindFromGB gb = .unlimited := by
    intro hz
    refine if_neg fun hpos => ?_
    have hbytes := hstored hpos
    rw [← hlimit, hz] at hbytes
    exact absurd hbytes (lt_irrefl 0)
  refine ⟨fun k' c' hc' hid hz => ?_, fun hcap => ?_, fun hcap k' c' hc' hid => ?_⟩
  · rw [hallow]
    by_cases hk : k' = k
    · subst hk
      obtain rfl := Option.some.inj (hget.symm.trans hc')
      rw [← hid, howner]
      exact (hunlimited (hzero hz)).1
    · exact h.unlimited k' c' (hothers k' hk ▸ hc') hid hz
  · rw [hallow] at hcap ⊢
    rw [unlimitedClients, Table.length_filter_of_agree hothers, hget, Option.any_some]
    by_cases hmine : c.adminId = id ∧ c.trafficLimit = 0
    · rw [howner] at hmine
      obtain ⟨rfl, hz⟩ := hmine
      rw [if_pos (by simp [howner, hz])]
      refine lt_of_le_of_lt (List.Sublist.length_le ?_) ((hunlimited (hzero hz)).2 hcap)
      refine List.monotone_filter_right _ fun r hr => ?_
      simp only [Bool.and_eq_true, decide_eq_true_eq] at hr ⊢
      refine ⟨⟨?_, hr.1.2⟩, fun hex => hr.2 (hexclude _ hex)⟩
      exact Bool.or_eq_true_iff.mpr (.inr (decide_eq_true hr.1.1))
    · rw [if_neg (by simpa using hmine), Nat.add_zero]
      refine (List.Sublist.length_le ?_).trans (h.count hcap)
      exact List.monotone_filter_right _ fun r hr => (Bool.and_eq_true_iff.mp hr).1
  · rw [hallow] at hcap ⊢
    by_cases hk : k' = k
    · subst hk
      obtain rfl := Option.some.inj (hget.symm.trans hc')
      rw [howner] at hid
      subst hid
      rw [hlimit]
      by_cases hpos : 0 < gb
      · exact gbToBytes_le (by exact_mod_cast hlimited (if_pos hpos) hcap)
      · rw [le_antisymm (not_lt.mp hpos) hgb]
        exact gbToBytes_le (by exact_mod_cast Nat.zero_le _)
    · exact h.limited hcap k' c' (hothers k' hk ▸ hc') hid

/-- Fewer clients, none with another limit. -/
theorem fewer (h : s.KindsHold id) (k : ClientId) (htypes : s'.clientTypes = s.clientTypes)
    (hget : s'.clients.get? k = none ∨ ∃ c c',
      s.clients.get? k = some c ∧ s'.clients.get? k = some c' ∧ c'.adminId = c.adminId ∧
      c'.trafficLimit = c.trafficLimit)
    (hothers : ∀ k', k' ≠ k → s'.clients.get? k' = s.clients.get? k') : s'.KindsHold id := by
  have hallow : s'.allowance id = s.allowance id := by rw [allowance, htypes, allowance]
  have hrow : ∀ k' c', s'.clients.get? k' = some c' →
      ∃ c, s.clients.get? k' = some c ∧ c'.adminId = c.adminId ∧ c'.trafficLimit =
      c.trafficLimit := by
    intro k' c' hc'
    by_cases hk : k' = k
    · subst hk
      rcases hget with hnone | ⟨c, c'', hc, hc'', howner, hlimit⟩
      · rw [hnone] at hc'
        cases hc'
      · obtain rfl := Option.some.inj (hc''.symm.trans hc')
        exact ⟨c, hc, howner, hlimit⟩
    · exact ⟨c', hothers k' hk ▸ hc', rfl, rfl⟩
  refine ⟨fun k' c' hc' howner hzero => ?_, fun hcap => ?_, fun hcap k' c' hc' howner => ?_⟩
  · obtain ⟨c, hc, h₁, h₂⟩ := hrow k' c' hc'
    rw [hallow]
    exact h.unlimited k' c hc (h₁ ▸ howner) (h₂ ▸ hzero)
  · rw [hallow] at hcap ⊢
    refine le_trans ?_ (h.count hcap)
    have hold := Table.length_filter_of_agree (t := s.clients) (k := k) (fun _ _ => rfl)
      fun r => r.2.adminId = id && r.2.trafficLimit = 0
    rw [unlimitedClients, Table.length_filter_of_agree hothers]
    refine le_trans (Nat.add_le_add_left ?_ _) hold.ge
    rcases hget with hnone | ⟨c, c', hc, hc', howner, hlimit⟩
    · rw [hnone]
      exact Nat.zero_le _
    · rw [hc, hc', Option.any_some, Option.any_some, howner, hlimit]
  · obtain ⟨c, hc, h₁, h₂⟩ := hrow k' c' hc'
    rw [hallow] at hcap ⊢
    rw [h₂]
    exact h.limited hcap k' c hc (h₁ ▸ howner)

end KindsHold

/-! ## Runs -/

end Site

namespace Deal

/-- The deal is not one of the owner, and it names no amount that is stored as another kind. -/
def Honest : Deal → Prop
  | opened actor input _ => actor.role ≠ .owner ∧ Stored input.trafficGB
  | changed actor _ input _ => actor.role ≠ .owner ∧ ∀ gb, input.trafficGB = some gb → Stored gb
  | _ => True

end Deal

/-- A request of a reseller, or one for his orders, that names no amount that is stored as another
kind. -/
def Request.Honest (r : Request) (s : Site) : Prop :=
  match r with
  | admin adminId r => (∀ actor, s.operator adminId = some actor → actor.role ≠ .owner) ∧
      match r with
      | .create input => Stored input.trafficGB
      | .update _ input => ∀ gb, input.trafficGB = some gb → Stored gb
      | _ => True
  | autoRenew _ => True
  | fulfill orderId => ∀ f, s.findOrder orderId = some f → f.seller.role ≠ .owner

theorem stored_natCast (n : ℕ) : Stored n := by
  intro hpos
  exact stored_of_one_le (by exact_mod_cast hpos) hpos

/-- An honest request comes to honest deals. -/
theorem Request.honest_deals {r : Request} {s : Site} (h : r.Honest s) {d : Deal}
    (hd : r.allows s d) : d.Honest := by
  rcases hd with rfl | hd
  · trivial
  · cases r with
    | admin adminId r =>
        obtain ⟨actor, hactor, hd⟩ := hd
        have hrole := h.1 actor hactor
        have hbody := h.2
        rcases hd with rfl | hd
        · trivial
        · cases r with
          | create input =>
              obtain ⟨a, rfl⟩ := hd
              exact ⟨hrole, hbody⟩
          | update id input =>
              obtain ⟨x, rfl⟩ := hd
              exact ⟨hrole, hbody⟩
          | resetTraffic id => exact hd.elim
          | delete id =>
              subst hd
              trivial
          | deleteWithRefund id =>
              subst hd
              trivial
          | bulk input =>
              rcases hd with ⟨id, -, bytes, patch, x, -, hpatch, rfl⟩ | ⟨id, rfl⟩
              · exact ⟨hrole, fun gb hgb => stored_of_one_le (hpatch.one_le hgb)⟩
              · trivial
          | setAutoRenew id input => exact hd.elim
    | autoRenew limit =>
        obtain ⟨row, -, -, -, expiry, rfl⟩ := hd
        trivial
    | fulfill orderId =>
        obtain ⟨f, hf, ⟨name, targets, via, a, rfl⟩ | ⟨id, x, -, rfl⟩⟩ := hd
        · exact ⟨h f hf, stored_natCast _⟩
        · refine ⟨h f hf, fun gb hgb => ?_⟩
          obtain rfl := Option.some.inj hgb
          exact stored_natCast _

namespace Site

theorem stored_max {gb : ℚ} (h : Stored gb) : Stored (max 0 gb) := by
  intro hpos
  have hgb : 0 < gb := (lt_max_iff.mp hpos).resolve_left (lt_irrefl 0)
  rw [max_eq_right hgb.le]
  exact h hgb

/-- The ids of clients and of links have been drawn. -/
structure DrawnIds (s : Site) : Prop where
  links : s.SoundLinks
  clients : ∀ k, s.base.nextId ≤ k → s.clients.get? k = none

theorem DrawnIds.of_clients {s s' : Site} (h : s.DrawnIds) (hlinks : s'.SoundLinks)
    (hclients : (s'.clients.mapRows fun _ c => c.settled) = s.clients.mapRows fun _ c => c.settled)
    (hnext : s.base.nextId ≤ s'.base.nextId) : s'.DrawnIds := by
  refine ⟨hlinks, fun k hk => ?_⟩
  have hget := congrArg (fun t : Table ClientId Client => t.get? k) hclients
  simp only [Table.get?_mapRows, h.clients k (hnext.trans hk), Option.map_none,
    Option.map_eq_none_iff] at hget
  exact hget

theorem effect_clientTypes (s : Site) (d : Deal) : (d.effect s).clientTypes = s.clientTypes := by
  cases d with
  | quiet => rfl
  | opened actor input a => rfl
  | changed actor id input x =>
      show (s.startSettled x.current.id input).clientTypes = _
      unfold startSettled
      split <;> rfl
  | cycled id expiry => rfl
  | dropped id => rfl
  | refunded id byAdminId =>
      show (refunded s s id byAdminId).clientTypes = _
      unfold refunded
      split <;> rfl

/-- Deals draw the ids of their clients. -/
theorem DrawnIds.step {s s' : Site} (h : s.DrawnIds) {d : Deal} (hstep : d.Step s s') :
    s'.DrawnIds := by
  have heffect : (d.effect s).DrawnIds := by
    refine ⟨d.effect_sound h.links, fun k hk => ?_⟩
    have hnone := h.clients k ((d.effect_nextId s).trans hk)
    cases d with
    | quiet => exact hnone
    | opened actor input a =>
        show (s.created actor input a none).clients.get? k = none
        rw [created_client, if_neg, hnone]
        rintro rfl
        have hnext : (s.created actor input a none).base.nextId = s.base.nextId + 3 :=
          bill_nextId _ _ _ _
        change (s.created actor input a none).base.nextId ≤ s.base.nextId at hk
        rw [hnext] at hk
        exact absurd hk (Nat.not_le.mpr (Nat.lt_add_of_pos_right (Nat.succ_pos 2)))
    | changed actor id input x =>
        show (s.updated actor input none x).clients.get? k = none
        rw [updated_client, hnone, Option.map_none, ite_self]
    | cycled id expiry =>
        show (s.clients.modify id _).get? k = none
        rw [Table.get?_modify, hnone, Option.map_none, ite_self]
    | dropped id =>
        show (s.without id).clients.get? k = none
        rw [without_client, hnone, ite_self]
    | refunded id byAdminId =>
        show (refunded s s id byAdminId).clients.get? k = none
        rw [refunded_client, hnone, ite_self]
  exact heffect.of_clients (hstep.2.links heffect.links).1 hstep.2.clients hstep.2.nextId

/-- An honest deal keeps the kinds. -/
theorem KindsHold.step {s s' : Site} {id : AdminId} (h : s.KindsHold id)
    (hids : s.DrawnIds) {d : Deal} (hd : d.Honest) (hstep : d.Step s s') : s'.KindsHold id := by
  refine KindsHold.sameBooks ?_ hstep.2
  have hagreed := hstep.1
  cases d with
  | quiet => exact h
  | opened actor input a =>
      refine h.put (c := newClient actor input a.limitBytes (s.base.nextId + 1)
          (s.base.nextId + 2) s.base.now)
        (k := s.base.nextId) hd.1 rfl hagreed.limit (le_max_left 0 _) (stored_max hd.2)
        hagreed.kind (fun k' hk' => by cases hk') (fun _ => hids.clients _ le_rfl) rfl ?_
        fun k' hk' => ?_
      · show (s.created actor input a none).clients.get? _ = _
        rw [created_client, if_pos rfl]
      · show (s.created actor input a none).clients.get? _ = _
        rw [created_client, if_neg hk']
  | changed actor k input x =>
      obtain ⟨hid, hget, hscope⟩ := clientOf_id hagreed.found
      -- an honest actor is no owner, so the client is its own
      have hown : x.current.row.adminId = actor.id := by
        rcases Bool.or_eq_true_iff.mp hscope with howner | hown
        · exact absurd (of_decide_eq_true howner) hd.1
        · exact of_decide_eq_true hown
      have hrow : (s.updated actor input none x).clients.get? k =
          some (x.data.apply x.current.row) := by
        rw [updated_client, if_pos hid.symm, hget]
        rfl
      have hothers : ∀ k', k' ≠ k →
          (s.updated actor input none x).clients.get? k' = s.clients.get? k' := by
        intro k' hk'
        rw [updated_client, if_neg (by rw [hid]; exact hk')]
      -- an update without a limit leaves the kind; one with a limit has been checked
      cases hgb : input.trafficGB with
      | none =>
          have hdata := hagreed.limit
          rw [hgb] at hdata
          refine h.fewer (k := k) (effect_clientTypes s _)
            (.inr ⟨_, _, hget, hrow, rfl, ?_⟩) hothers
          show x.data.trafficLimit.getD _ = _
          rw [← Except.ok.inj hdata]
          rfl
      | some gb =>
          have hdata := hagreed.limit
          rw [hgb] at hdata
          obtain ⟨hlimit, hkind, -⟩ := updateLimit_some hdata
          refine h.put (c := x.data.apply x.current.row) (k := k) hd.1 hown ?_ (le_max_left 0 gb)
            (stored_max (hd.2 gb hgb)) hkind (fun k' hk' => ?_) (fun hnone => by
              cases hnone) (effect_clientTypes s _) hrow hothers
          · show x.data.trafficLimit.getD _ = _
            rw [hlimit]
            rfl
          · rw [← Option.some.inj hk', hid]
  | cycled k expiry =>
      obtain ⟨c, hc⟩ := Option.isSome_iff_exists.mp hagreed
      refine fewer h k rfl (.inr ⟨c, { c with expiresAt := some expiry }, hc, ?_, rfl, rfl⟩)
        fun k' hk' => ?_
      · show (s.clients.modify k _).get? k = _
        rw [Table.get?_modify_self, hc]
        rfl
      · exact Table.get?_modify_of_ne _ _ hk'
  | dropped k =>
      refine fewer h k rfl (.inl ?_) fun k' hk' => ?_
      · show (s.without k).clients.get? k = none
        rw [without_client, if_pos rfl]
      · show (s.without k).clients.get? k' = _
        rw [without_client, if_neg hk']
  | refunded k byAdminId =>
      refine fewer h k (effect_clientTypes s (.refunded k byAdminId))
        (.inl ?_) fun k' hk' => ?_
      · show (refunded s s k byAdminId).clients.get? k = none
        rw [refunded_client, if_pos rfl]
      · show (refunded s s k byAdminId).clients.get? k' = _
        rw [refunded_client, if_neg hk']

/-- The rules for the kinds of clients hold in every run of honest requests with one setting of the
kinds. -/
theorem kinds_hold {s s' : Site} (id : AdminId) (hclients : ∀ k, s.clients.get? k = none)
    (hlinks : s.SoundLinks) (hrun : Serial.Run serve SameKinds Request.Honest s s') :
    s'.KindsHold id := by
  have hstart : s.DrawnIds ∧ s.KindsHold id := by
    refine ⟨⟨hlinks, fun k _ => hclients k⟩, fun k c hc => ?_, fun _ => ?_, fun _ k c hc => ?_⟩
    · rw [hclients] at hc
      cases hc
    · have hnil : s.unlimitedClients id = [] := by
        refine List.filter_eq_nil_iff.mpr fun r hr => ?_
        have hget := (s.clients.mem_rows_iff r.1 r.2).mp hr
        rw [hclients] at hget
        cases hget
      rw [hnil]
      exact Nat.zero_le _
    · rw [hclients] at hc
      cases hc
  refine (hrun.invariant (I := fun t => t.DrawnIds ∧ t.KindsHold id) hstart (fun r t h hr => ?_)
    fun t t' h he => ?_).2
  · refine (serve_deals r t h.1.links).invariant (I := fun t => t.DrawnIds ∧ t.KindsHold id) h
      fun d t₁ t₂ hd h hstep => ⟨h.1.step hstep, h.2.step h.1 (r.honest_deals hr hd) hstep⟩
  · exact ⟨h.1.of_clients (he.links h.1.links) he.clients he.nextId, h.2.same he⟩

/-- A reseller who may not sell unlimited clients asks for a tenth of a byte. -/
def tinyRequest : Request :=
  .admin 2 (.create ⟨"a", none, none, 1 / 10737418240, 0, false, 0, none, none, none, [⟨3, 1⟩]⟩)

/-- The client is created, without a limit. -/
theorem tiny_limit_is_none :
    (((serve tinyRequest).run unopenedSite).2.clients.get? World.blank.nextId).map Client.trafficLimit = some 0 ∧
      ¬((serve tinyRequest).run unopenedSite).2.KindsHold 2 := by
  have hrow : (((serve tinyRequest).run unopenedSite).2.clients.get? World.blank.nextId).map
      (fun c => (c.adminId, c.trafficLimit)) = some (2, 0) := by decide +kernel
  refine ⟨by decide +kernel, fun h => ?_⟩
  obtain ⟨c, hc, heq⟩ := Option.map_eq_some_iff.mp hrow
  have hallowed := h.unlimited _ c hc (congrArg Prod.fst heq) (congrArg Prod.snd heq)
  have hnot : (((serve tinyRequest).run unopenedSite).2.allowance 2).unlimited = false :=
    by decide +kernel
  rw [hnot] at hallowed
  cases hallowed

/-- The reseller asks for half a GB. -/
def halfRequest : Request :=
  .admin 2 (.create ⟨"a", none, none, 1 / 2, 0, false, 0, none, none, none, [⟨3, 1⟩]⟩)

theorem kinds_hold_half :
    (((serve halfRequest).run unopenedSite).2.clients.get? World.blank.nextId).map Client.trafficLimit =
        some 536870912 ∧
      ((serve halfRequest).run unopenedSite).2.KindsHold 2 := by
  have hhonest : halfRequest.Honest unopenedSite := by
    refine ⟨fun actor hactor => ?_, fun _ => by decide +kernel⟩
    have hrole : (unopenedSite.operator 2).map Operator.role = some .admin := by decide
    rw [hactor] at hrole
    rw [Option.some.inj hrole]
    decide
  refine ⟨by decide +kernel,
    kinds_hold (s := unopenedSite) 2 (fun _ => Table.get?_empty _)
      (fun k l hl => ?_) (.single (.call halfRequest hhonest))⟩
  have hnone : unopenedSite.links.get? k = none := Table.get?_empty k
  rw [hnone] at hl
  cases hl

end Site

end SRPanel
