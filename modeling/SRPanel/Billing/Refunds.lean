import SRPanel.Clients.Requests

/-!
# Refunds stay within the charges

A refund is capped by what the ledger has charged for the client, less what it has given back, when
the quote is taken; the deletion that pays it removes the row of the client, so no second quote can
be taken. Prices and settings may change between the requests as they like, since the cap does not
look at them.
-/

namespace SRPanel

open Interleaving

/-- A refund stays within its cap. -/
theorem refundAmount_le (settings : RefundSettings) (role : AdminRole) (enabled : Bool)
    (cap gross : ℤ) (hpos : 0 < (refundAmount settings role enabled cap gross).1) :
    (refundAmount settings role enabled cap gross).1 ≤ cap := by
  have hmin : min ((gross * settings.refundPercent).tdiv 100) cap ≤ cap := min_le_right _ _
  unfold refundAmount at hpos ⊢
  dsimp only at hpos ⊢
  split_ifs at hpos ⊢
  all_goals first | exact absurd hpos (lt_irrefl 0) | exact hmin

theorem purchases_cons (row : WalletTx AdminId) (rows : List (WalletTx AdminId)) :
    purchases (row :: rows) = (if row.kind = .purchase then -row.amount else 0) +
    purchases rows := by
  unfold purchases
  by_cases hkind : row.kind = .purchase
  · simp [hkind]
  · simp [hkind]

theorem refunds_cons (row : WalletTx AdminId) (rows : List (WalletTx AdminId)) :
    refunds (row :: rows) = (if row.kind = .refund then row.amount else 0) + refunds rows := by
  unfold refunds
  by_cases hkind : row.kind = .refund
  · simp [hkind]
  · simp [hkind]

/-- The refunds among some ledger rows. -/
def refundRows (rows : List (WalletTx AdminId)) : List (WalletTx AdminId) :=
  rows.filter fun t => t.kind = .refund

namespace Site

/-- What may happen between two requests: settings, prices, accounts, credit and counters may
change, clients and their ledger rows stay. -/
structure Meanwhile (s s' : Site) : Prop where
  clients : (s'.clients.mapRows fun _ c => c.settled) = s.clients.mapRows fun _ c => c.settled
  rows : ∀ id, s'.rowsOf id = s.rowsOf id
  links : s.SoundLinks → s'.SoundLinks
  nextId : s.base.nextId ≤ s'.base.nextId

/-- There is no client yet, nor a trace of one. -/
structure NoClients (s : Site) : Prop where
  clients : ∀ id, s.clients.get? id = none
  rows : ∀ id, s.rowsOf id = []
  links : ∀ k, s.links.get? k = none

/-- The ledger rows of every client cover its refunds; those of a client that is there are purchases
of its owner. -/
structure Covered (s : Site) : Prop where
  links : s.SoundLinks
  drawn : ∀ id c, s.clients.get? id = some c → id < s.base.nextId
  fresh : ∀ id, s.base.nextId ≤ id → s.rowsOf id = []
  live : ∀ id c, s.clients.get? id = some c → ∀ t ∈ s.rowsOf id,
    t.holder = c.adminId ∧ t.kind ≠ .refund
  covered : ∀ id, refunds (s.rowsOf id) ≤ purchases (s.rowsOf id)
  once : ∀ id, (refundRows (s.rowsOf id)).length ≤ 1

namespace Covered

variable {s s' : Site}

theorem of_noClients (h : s.NoClients) : s.Covered where
  links k l hl := by
    rw [h.links k] at hl
    cases hl
  drawn id c hc := by
    rw [h.clients id] at hc
    cases hc
  fresh id _ := h.rows id
  live id c hc := by
    rw [h.clients id] at hc
    cases hc
  covered id := by
    rw [h.rows id]
    exact le_rfl
  once id := by
    rw [h.rows id]
    exact Nat.zero_le 1

theorem meanwhile (h : s.Covered) (hs : Meanwhile s s') : s'.Covered := by
  have hrow : ∀ id c', s'.clients.get? id = some c' →
      ∃ c, s.clients.get? id = some c ∧ c'.adminId = c.adminId := by
    intro id c' hc'
    have hget := congrArg (fun t : Table ClientId Client => t.get? id) hs.clients
    simp only [Table.get?_mapRows, hc', Option.map_some] at hget
    obtain ⟨c, hc, hsettled⟩ := Option.map_eq_some_iff.mp hget.symm
    have howner := congrArg Client.adminId hsettled
    exact ⟨c, hc, howner.symm⟩
  refine ⟨hs.links h.links, fun id c' hc' => ?_, fun id hid => ?_, fun id c' hc' t ht => ?_,
    fun id => ?_, fun id => ?_⟩
  · obtain ⟨c, hc, -⟩ := hrow id c' hc'
    exact (h.drawn id c hc).trans_le hs.nextId
  · rw [hs.rows]
    exact h.fresh id (hs.nextId.trans hid)
  · obtain ⟨c, hc, howner⟩ := hrow id c' hc'
    rw [hs.rows] at ht
    rw [howner]
    exact h.live id c hc t ht
  · rw [hs.rows]
    exact h.covered id
  · rw [hs.rows]
    exact h.once id

theorem sameBooks (h : s.Covered) (hs : SameBooks s s') : s'.Covered :=
  h.meanwhile ⟨hs.clients, hs.rows, fun hlinks => (hs.links hlinks).1, hs.nextId⟩

/-- A bill is covered: it adds a purchase of the actor to the rows of one client. -/
theorem billed (h : s.Covered) {t : Site} {actor : Operator} {cost : ℤ} {k : ClientId}
    (htxs : t.base.walletTxs = (s.base.bill actor cost k).walletTxs) (hlinks : t.SoundLinks)
    (hk : k < t.base.nextId) (hnext : s.base.nextId ≤ t.base.nextId)
    (hclients : ∀ id c', t.clients.get? id = some c' → id < t.base.nextId ∧
      (id = k ∧ s.rowsOf k = [] ∧ c'.adminId = actor.id ∨
        ∃ c, s.clients.get? id = some c ∧ c'.adminId = c.adminId ∧
          (id = k → actor.pays cost → c.adminId = actor.id))) : t.Covered := by
  have hrows := rowsOf_bill htxs
  have hcost : actor.pays cost → 0 < cost := fun hpays => by
    simp only [Operator.pays, Bool.and_eq_true, decide_eq_true_eq] at hpays
    exact hpays.1
  refine ⟨hlinks, fun id c hc => (hclients id c hc).1, fun id hid => ?_, fun id c' hc' row hrow =>
    ?_, fun id => ?_, fun id => ?_⟩
  · have hne : ¬(actor.pays cost ∧ k = id) := by
      rintro ⟨-, rfl⟩
      exact absurd hk (not_lt.mpr hid)
    rw [hrows, if_neg hne]
    exact h.fresh id (hnext.trans hid)
  · rw [hrows] at hrow
    rcases (hclients id c' hc').2 with ⟨rfl, hnone, howner⟩ | ⟨c, hc, howner, hpayer⟩
    · rw [hnone] at hrow
      split at hrow
      · obtain rfl := List.mem_singleton.mp hrow
        exact ⟨howner.symm, by simp⟩
      · cases hrow
    · rw [howner]
      split at hrow
      · next hand =>
        rcases List.mem_cons.mp hrow with rfl | hrow
        · exact ⟨(hpayer hand.2.symm hand.1).symm, by simp⟩
        · exact h.live id c hc row hrow
      · exact h.live id c hc row hrow
  · rw [hrows]
    split
    · next hand =>
      have hpos := hcost hand.1
      have hle := h.covered id
      rw [refunds_cons, purchases_cons, billRow_kind, billRow_amount,
        if_neg (by decide), if_pos rfl]
      omega
    · exact h.covered id
  · rw [hrows]
    split
    · exact h.once id
    · exact h.once id

/-- A deletion without a refund. -/
theorem without (h : s.Covered) (k : ClientId) : (s.without k).Covered := by
  refine ⟨fun key l hl => ?_, fun id c hc => ?_, h.fresh, fun id c hc => ?_, h.covered, h.once⟩
  · change (s.links.keep _).get? key = _ at hl
    rw [Table.get?_keep] at hl
    split at hl
    · exact h.links key l hl
    · cases hl
  · rw [without_client] at hc
    split at hc
    · cases hc
    · exact h.drawn id c hc
  · rw [without_client] at hc
    split at hc
    · cases hc
    · exact h.live id c hc

/-- A refund is covered, because it is taken from the quote of a client that was there. -/
theorem refunded (h : s.Covered) (k : ClientId) (byAdminId : AdminId) :
    (Site.refunded s s k byAdminId).Covered := by
  unfold Site.refunded
  cases hx : s.refundSubject k with
  | none => exact h.without k
  | some x =>
      have hsubject := (refundSubject_some hx).1
      have hwithout := h.without k
      have hrows := fun id => rowsOf_repaid (s := s.without k)
        (t := (s.without k).repaid (s.quoteOf k x) byAdminId) rfl id
      have hclient : (s.quoteOf k x).clientId = k := rfl
      -- the quote reads the rows of the admin, and these are all of the client
      have htxs : s.clientTxs x.client.adminId k = s.rowsOf k := by
        refine List.filter_congr fun row hrow => ?_
        by_cases href : row.ref = .client k
        · have hmem : row ∈ s.rowsOf k := List.mem_filter.mpr ⟨hrow, by simpa using href⟩
          simp [href, (h.live k x.client hsubject row hmem).1]
        · simp [href]
      have hamount : 0 < (s.quoteOf k x).amount →
          (s.quoteOf k x).amount ≤ purchases (s.rowsOf k) - refunds (s.rowsOf k) := by
        intro hpos
        rw [← htxs]
        exact refundAmount_le _ _ _ _ _ hpos
      -- a client that is still there has no refund yet
      have hnone : refundRows (s.rowsOf k) = [] := by
        refine List.filter_eq_nil_iff.mpr fun row hrow hkind => ?_
        exact (h.live k x.client hsubject row hrow).2 (by simpa using hkind)
      have hbase : ((s.without k).repaid (s.quoteOf k x) byAdminId).base.nextId = s.base.nextId :=
        repaid_nextId _ _ _
      have hgone : ((s.without k).repaid (s.quoteOf k x) byAdminId).clients.get? k = none := by
        show (s.without k).clients.get? k = none
        rw [without_client, if_pos rfl]
      show ((s.without k).repaid (s.quoteOf k x) byAdminId).Covered
      refine ⟨fun key l hl => ?_, fun id c hc => ?_, fun id hid => ?_, fun id c hc row hrow => ?_,
        fun id => ?_, fun id => ?_⟩
      · rw [hbase]
        exact hwithout.links key l hl
      · rw [hbase]
        exact hwithout.drawn id c hc
      · have hne : ¬(0 < (s.quoteOf k x).amount ∧ (s.quoteOf k x).clientId = id) := by
          rintro ⟨-, rfl⟩
          rw [hbase] at hid
          exact absurd (h.drawn k x.client hsubject) (not_lt.mpr hid)
        rw [hrows, if_neg hne]
        exact h.fresh id (hbase ▸ hid)
      · have hne : ¬(0 < (s.quoteOf k x).amount ∧ (s.quoteOf k x).clientId = id) := by
          rintro ⟨-, hid⟩
          rw [← hid, hclient, hgone] at hc
          cases hc
        rw [hrows, if_neg hne] at hrow
        exact hwithout.live id c hc row hrow
      · rw [hrows]
        split
        · next hand =>
          obtain ⟨hpos, rfl⟩ := hand
          have hle := hamount hpos
          rw [refunds_cons, purchases_cons, if_pos rfl, if_neg (by simp)]
          show (s.quoteOf k x).amount + refunds (s.rowsOf k) ≤ 0 + purchases (s.rowsOf k)
          omega
        · exact h.covered id
      · rw [hrows]
        split
        · next hand =>
          obtain ⟨-, rfl⟩ := hand
          show (refundRows (_ :: s.rowsOf k)).length ≤ 1
          rw [refundRows, List.filter_cons_of_pos (by simp), List.length_cons]
          show (refundRows (s.rowsOf k)).length + 1 ≤ 1
          rw [hnone]
          exact le_rfl
        · exact h.once id

/-- Every deal is covered. -/
theorem step (h : s.Covered) {d : Deal} (hstep : d.Step s s') : s'.Covered := by
  refine sameBooks ?_ hstep.2
  have hagreed := hstep.1
  cases d with
  | quiet => exact h
  | opened actor input a =>
      have hnext : (s.created actor input a none).base.nextId = s.base.nextId + 3 :=
        bill_nextId _ _ _ _
      -- the bill is the first row of an id that was drawn just now
      refine h.billed (created_walletTxs s actor input a none)
        ((Deal.opened actor input a).effect_sound h.links) ?_ ?_ fun id c' hc' => ?_
      · show s.base.nextId < (s.created actor input a none).base.nextId
        rw [hnext]
        exact Nat.lt_add_of_pos_right (Nat.succ_pos 2)
      · show s.base.nextId ≤ (s.created actor input a none).base.nextId
        rw [hnext]
        exact Nat.le_add_right _ _
      · change (s.created actor input a none).clients.get? id = some c' at hc'
        show id < (s.created actor input a none).base.nextId ∧ _
        rw [created_client] at hc'
        rw [hnext]
        split at hc'
        · next hid =>
          obtain rfl := Option.some.inj hc'
          exact ⟨by rw [hid]; exact Nat.lt_add_of_pos_right (Nat.succ_pos 2),
            .inl ⟨hid, h.fresh _ le_rfl, rfl⟩⟩
        · next hid =>
          exact ⟨(h.drawn id c' hc').trans_le (Nat.le_add_right _ _), .inr ⟨c', hc', rfl,
            fun heq => absurd heq hid⟩⟩
  | changed actor id input x =>
      obtain ⟨hid, hget, hscope⟩ := clientOf_id hagreed.found
      have hnext : (s.updated actor input none x).base.nextId = s.base.nextId := bill_nextId _ _ _ _
      have hdrawn := h.drawn id x.current.row hget
      -- who pays is no owner, so the bill is the client's own admin's
      refine h.billed (t := s.updated actor input none x) (k := x.current.id) rfl
        ((Deal.changed actor id input x).effect_sound h.links) ?_ hnext.ge fun k c' hc' => ?_
      · rw [hnext, hid]
        exact hdrawn
      · rw [updated_client] at hc'
        rw [hnext]
        split at hc'
        · next hk =>
          rw [hid] at hk
          subst hk
          rw [hget] at hc'
          obtain rfl := Option.some.inj hc'
          refine ⟨hdrawn, .inr ⟨x.current.row, hget, rfl, fun _ hpays => ?_⟩⟩
          simp only [Operator.pays, Bool.and_eq_true, decide_eq_true_eq] at hpays
          rcases Bool.or_eq_true_iff.mp hscope with howner | hown
          · exact absurd (of_decide_eq_true howner) hpays.2
          · exact of_decide_eq_true hown
        · next hk => exact ⟨h.drawn k c' hc', .inr ⟨c', hc', rfl, fun heq => absurd heq hk⟩⟩
  | cycled id expiry =>
      have hrow : ∀ k c', (s.cycled id expiry).clients.get? k = some c' →
          ∃ c, s.clients.get? k = some c ∧ c'.adminId = c.adminId := by
        intro k c' hc'
        change (s.clients.modify id _).get? k = _ at hc'
        rw [Table.get?_modify] at hc'
        split at hc'
        · obtain ⟨c, hc, rfl⟩ := Option.map_eq_some_iff.mp hc'
          exact ⟨c, hc, rfl⟩
        · exact ⟨c', hc', rfl⟩
      show (s.cycled id expiry).Covered
      refine ⟨h.links, fun k c' hc' => ?_, h.fresh, fun k c' hc' row hmem => ?_, h.covered, h.once⟩
      · obtain ⟨c, hc, -⟩ := hrow k c' hc'
        exact h.drawn k c hc
      · obtain ⟨c, hc, howner⟩ := hrow k c' hc'
        rw [howner]
        exact h.live k c hc row hmem
  | dropped id => exact h.without id
  | refunded id byAdminId => exact h.refunded id byAdminId

end Covered

/-- In every run of requests, whatever changes in between, the refunds for each client are covered
by its purchases, and no client is refunded twice. -/
theorem refunds_covered {s s' : Site} (hstart : s.NoClients)
    (hrun : Serial.Run serve Meanwhile (fun _ _ => True) s s') (id : ClientId) :
    refunds (s'.rowsOf id) ≤ purchases (s'.rowsOf id) ∧ (refundRows (s'.rowsOf id)).length ≤ 1 := by
  have hcovered : s'.Covered := by
    refine hrun.invariant (I := Site.Covered) (.of_noClients hstart) (fun r t h _ => ?_)
      fun t t' h he => h.meanwhile he
    exact (serve_deals r t h.links).invariant h fun _ _ _ _ h hstep => h.step hstep
  exact ⟨hcovered.covered id, hcovered.once id⟩

/-- A client of 10 GB is opened, raised to 30 GB and refunded. -/
def refundRequests : List Request :=
  [.admin 2 (.create ⟨"a", none, none, 10, 0, false, 0, none, none, none, [⟨3, 1⟩]⟩),
    .admin 2 (.update World.blank.nextId { UpdateClientInput.none with trafficGB := some 30 }),
    .admin 2 (.deleteWithRefund World.blank.nextId)]

theorem refunds_covered_whole :
    refunds ((Serial.calls serve refundRequests unopenedSite).rowsOf World.blank.nextId) = 30000 ∧
      refunds ((Serial.calls serve refundRequests unopenedSite).rowsOf World.blank.nextId) ≤
        purchases ((Serial.calls serve refundRequests unopenedSite).rowsOf World.blank.nextId) ∧
      (refundRows
        ((Serial.calls serve refundRequests unopenedSite).rowsOf World.blank.nextId)).length ≤ 1 :=
  ⟨by decide +kernel, refunds_covered ⟨fun _ => Table.get?_empty _, fun _ => rfl, fun _ =>
    Table.get?_empty _⟩ (Serial.calls_run Meanwhile refundRequests unopenedSite) World.blank.nextId⟩

end Site

end SRPanel
