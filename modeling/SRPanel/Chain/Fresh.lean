import SRPanel.Chain.Once

/-!
# No stale transfer

Both explorers report when a transfer was made, and no check uses it. So a payment can be confirmed
by a transfer that is older than itself, exactly by submitting the hash of one: in every run in
which no such hash is submitted, every transfer that confirms a payment was made after the payment.
-/

namespace SRPanel

open Interleaving

/-- No transfer that has confirmed a payment is older than the payment. -/
def World.NoStale (w : World) : Prop :=
  ∀ c ∈ w.history.confirmations, ∀ txid address amount timestamp,
    c.evidence = .transfer txid address amount timestamp → c.row.createdAt ≤ timestamp

/-! ## The condition -/

/-- A hash that is stored for a payment does not name a transaction from before it. -/
def NotOlder (chain : Chain) (w : World) (id : PaymentId) : Column → Prop
  | .txid txid => ∀ p ∈ w.payments.get? id, p.createdAt ≤ chain.blockTime (lower txid)
  | _ => True

/-- Every step of a run meets the condition. -/
def SubmitsFresh (chain : Chain) : Stmt → World → Prop
  | .update columns rows, w => ∀ r ∈ rows, ∀ c ∈ columns, NotOlder chain w r.1 c
  | _, _ => True

instance (chain : Chain) (w : World) (id : PaymentId) (c : Column) :
    Decidable (NotOlder chain w id c) :=
  match c with
  | .txid txid => inferInstanceAs (Decidable
      (∀ p ∈ w.payments.get? id, p.createdAt ≤ chain.blockTime (lower txid)))
  | .status => isTrue trivial
  | .info => isTrue trivial
  | .quote => isTrue trivial
  | .verdict _ => isTrue trivial

instance (chain : Chain) (l : Stmt) (w : World) : Decidable (SubmitsFresh chain l w) :=
  match l with
  | .update columns rows =>
      inferInstanceAs (Decidable (∀ r ∈ rows, ∀ c ∈ columns, NotOlder chain w r.1 c))
  | .other => isTrue trivial
  | .tag _ => isTrue trivial
  | .credit _ _ _ _ _ => isTrue trivial
  | .pay _ => isTrue trivial
  | .lookBack _ => isTrue trivial
  | .readPlugins _ => isTrue trivial
  | .savePlugins _ => isTrue trivial
  | .callback _ _ _ => isTrue trivial
  | .called _ _ => isTrue trivial
  | .receive _ _ _ => isTrue trivial
  | .look _ _ _ _ => isTrue trivial
  | .release _ _ _ => isTrue trivial
  | .saveBook _ _ => isTrue trivial

/-! ## The invariant -/

/-- The hashes stored for a payment are not older than it, and neither are the transfers so far. -/
structure FreshHashes (chain : Chain) (w : World) : Prop where
  keys : w.Keyed
  reports : chain.Reports w.outside
  stored : ∀ id p txid, w.payments.get? id = some p → p.txid = some txid →
    isTxid txid ∧ p.createdAt ≤ chain.blockTime (lower txid)
  noStale : w.NoStale

variable {chain : Chain}

/-- A change of a row whose hash is not older than the payment, with at most one new confirmation.
-/
private theorem FreshHashes.withRow {w w' : World} {id : PaymentId} {q q' : Payment}
    (hI : FreshHashes chain w) (hq : w.payments.get? id = some q)
    (htime : q'.createdAt = q.createdAt)
    (hstored : ∀ txid, q'.txid = some txid → q.txid = some txid ∨
      isTxid txid ∧ q.createdAt ≤ chain.blockTime (lower txid))
    (hp : w'.payments = (w.withRow id q').payments) (hn : w'.nextId = w.nextId)
    (ho : w'.outside = w.outside) (hc : w'.NoStale) : FreshHashes chain w' where
  keys := hI.keys.withRow hp hn
  reports := ho ▸ hI.reports
  stored i r txid hr ht := by
    rcases World.get?_withRow hq (hp ▸ hr) with ⟨rfl, rfl⟩ | ⟨-, hr⟩
    · rw [htime]
      exact (hstored txid ht).elim (hI.stored i q txid hq) fun h => h
    · exact hI.stored i r txid hr ht
  noStale := hc

private theorem createdAt_of_core {p q : Payment} (h : p.core = q.core) :
    p.createdAt = q.createdAt :=
  congrArg (fun t => t.2.2.2.2.2) (Payment.terms_of_core h)

private theorem keeps_stored {p q : Payment} (h : p.core = q.core) {txid : String} {P : Prop}
    (ht : p.txid = some txid) : q.txid = some txid ∨ P :=
  .inl (Payment.txid_of_core h ▸ ht)

private theorem freshHashes_accepts (chain : Chain) :
    AcceptsAll (SubmitsFresh chain) (FreshHashes chain) where
  upkeep hu hI := by
    refine ⟨hI.keys.upkeep hu, hu.outside ▸ hI.reports, fun id p txid hp ht => ?_, ?_⟩
    · obtain ⟨q, hq, hcore⟩ := hu.payment hp
      rw [createdAt_of_core hcore]
      exact hI.stored id q txid hq (Payment.txid_of_core hcore ▸ ht)
    · rw [World.NoStale, hu.confirmations]
      exact hI.noStale
  fresh hI := hI.keys.fresh
  hash hI hok _ _ hq htx _ _ hcore := by
    refine hI.withRow hq ((createdAt_of_core hcore).trans rfl) (fun t ht => .inr ?_) rfl rfl rfl
      hI.noStale
    obtain rfl : _ = t := Option.some.inj ((Payment.txid_of_core hcore).symm.trans ht)
    exact ⟨htx, hok _ List.mem_cons_self (.txid _) (by simp) _ hq⟩
  note hI _ _ hq _ hcore :=
    hI.withRow hq ((createdAt_of_core hcore).trans rfl) (fun _ ht => keeps_stored hcore ht) rfl rfl
      rfl hI.noStale
  review hI _ _ _ hq hcore := by
    refine hI.withRow hq (createdAt_of_core hcore)
      (fun _ ht => keeps_stored hcore ht) rfl rfl rfl ?_
    intro c hc txid address amount timestamp he
    rcases List.mem_cons.mp hc with rfl | hc
    · cases he
    · exact hI.noStale c hc _ _ _ _ he
  transfer {w id p q q' p₀ s txid address r} hI _ _ hchecked hq hcore := by
    refine hI.withRow hq (createdAt_of_core hcore)
      (fun _ ht => keeps_stored hcore ht) rfl rfl rfl ?_
    intro c hc txid' address' amount timestamp he
    rcases List.mem_cons.mp hc with rfl | hc
    -- the hash was fresh when it was stored, and the row is as old as it was then
    · obtain ⟨p', ⟨v, hv, hlast, hp'⟩, htxid⟩ := hchecked.stored
      obtain ⟨v', hv', hanswer⟩ := hchecked.answer
      have hbacks := hanswer.backs hv'.reports hchecked.accepted
      obtain ⟨htx, hle⟩ := hv.stored id p' txid hp' htxid
      have hrow : q.createdAt = p'.createdAt :=
        congrArg (fun t => t.2.2.2.2.2) (Seen.terms ⟨v, hv, hlast, hp'⟩ hq).1
      simp only [transferEvidence, hbacks.timestamp, Option.getD_some, Evidence.transfer.injEq,
        txHash_of_isTxid htx] at he
      show q.createdAt ≤ timestamp
      rw [hrow, ← he.2.2.2]
      exact hle
    · exact hI.noStale c hc _ _ _ _ he
  start hI := by
    refine ⟨hI.keys.withNew _, hI.reports, fun i p txid hp ht => ?_, hI.noStale⟩
    rcases World.get?_withNew hp with ⟨-, rfl⟩ | ⟨-, hp⟩
    · cases ht
    · exact hI.stored i p txid hp ht
  authority hI hq _ :=
    hI.withRow hq (by rfl) (by exact fun _ ht => .inl ht) rfl rfl rfl hI.noStale
  quote hI _ _ _ hq hcore :=
    hI.withRow hq ((createdAt_of_core hcore).trans rfl) (fun _ ht => keeps_stored hcore ht) rfl rfl
      rfl hI.noStale

/-! ## Runs -/

/-- Anything may happen besides the calls, as long as the explorers go on reporting the chain. -/
def Reporting (chain : Chain) (w w' : World) : Prop := Meanwhile w w' ∧ chain.Reports w'.outside

/-- In every run in which no submitted hash names a transaction from before its payment, no payment
is confirmed by a transfer that is older than itself. -/
theorem no_stale_transfer {chain : Chain} {w : World} {calls : List PaymentCall}
    {c : Pool Stmt World AppError} (h0 : FreshHashes chain w)
    (hrun : Pool.Run (Reporting chain) (SubmitsFresh chain) ⟨w, calls.map PaymentCall.prog⟩ c) :
    c.store.NoStale := by
  refine ((freshHashes_accepts chain).run h0 (fun v v' hI he => ⟨?_, he.1.lasting⟩) hrun).noStale
  refine ⟨he.1.keyed hI.keys, he.2, fun id p txid hp ht => ?_, ?_⟩
  · rw [he.1.payments] at hp
    exact hI.stored id p txid hp ht
  · rw [World.NoStale, he.1.confirmations]
    exact hI.noStale

/-! ## An old transfer

The reseller's top-up 7 is newer than the only transfer on the chain, which paid for something else.
-/

/-- The chain of that panel: one dollar was sent to the owner at time 900. -/
def someChain : Chain where
  blockTime h := if h = someHash then 900 else 0
  moves h address amount := h = someHash ∧ address = "T9owner" ∧ amount = 1

theorem someChain_reports : someChain.Reports usdtWorld.outside where
  tronscan h transfers confirmed contractRet timestamp hanswer := by
    simp only [usdtWorld] at hanswer
    split at hanswer
    · next hh =>
        simp only [someTransfer, TronscanAnswer.info.injEq] at hanswer
        obtain ⟨rfl, -, -, rfl⟩ := hanswer
        refine ⟨(if_pos hh).symm, fun x hx _ => ?_⟩
        obtain rfl : x = _ := List.mem_singleton.mp hx
        exact ⟨hh, rfl, by norm_num⟩
    · cases hanswer
  trongrid h data hanswer := by
    obtain rfl : [] = data := by simpa [usdtWorld, Outside.silent] using hanswer
    exact fun _ h => nomatch h

/-- The panel with the top-up 7 made at the given time. -/
def topupWorld (createdAt : Time) : World :=
  { usdtWorld with payments := .ofRows [(7, { usdtTopup with createdAt := createdAt })] }

/-- The submission of the hash of the transfer for that top-up. -/
def submissionAt (createdAt : Time) : Pool Stmt World AppError :=
  ⟨topupWorld createdAt, [submitsHash 7 someHash].map PaymentCall.prog⟩

theorem topupWorld_fresh (createdAt : Time) : FreshHashes someChain (topupWorld createdAt) := by
  have hrow : ∀ id p, (topupWorld createdAt).payments.get? id = some p →
      id = 7 ∧ p.txid = none := by
    intro id p hp
    have hmem := (Table.mem_rows_iff _ id p).mpr hp
    obtain ⟨rfl, rfl⟩ := Prod.mk.inj (List.mem_singleton.mp hmem)
    exact ⟨rfl, rfl⟩
  refine ⟨fun id p hp => ?_, someChain_reports, fun id p txid hp ht => ?_, ?_⟩
  · rw [(hrow id p hp).1]
    exact (by decide : 7 < 100)
  · rw [(hrow id p hp).2] at ht
    cases ht
  · exact fun c hc => nomatch hc

/-- Without the condition an old transfer can pay: the top-up made at time 950 is confirmed by it.
-/
theorem stale_transfer_pays :
    FreshHashes someChain (topupWorld 950) ∧ ∃ c, Pool.Run (Reporting someChain) (fun _ _ => True)
      (submissionAt 950) c ∧ ¬c.store.NoStale := by
  refine ⟨topupWorld_fresh 950, _, Pool.schedule_run_free _ (List.replicate 16 0) _, fun h => ?_⟩
  have hpaid : ∃ c ∈ (Pool.schedule (List.replicate 16 0)
      (submissionAt 950)).store.history.confirmations,
      c.row.createdAt = 950 ∧ c.evidence = .transfer someHash "T9owner" 1 900 := by decide +kernel
  obtain ⟨c, hc, htime, he⟩ := hpaid
  have hle := h c hc _ _ _ _ he
  rw [htime] at hle
  exact absurd hle (by decide)

/-- For the top-up made at time 800 the same submission meets the condition. -/
theorem no_stale_transfer_submitted :
    let c := Pool.schedule (List.replicate 16 0) (submissionAt 800)
    c.store.history.confirmations.map Confirmation.payment = [7] ∧ c.store.NoStale :=
  ⟨by decide +kernel, no_stale_transfer (topupWorld_fresh 800)
    (Pool.schedule_run (Reporting someChain) (List.replicate 16 0) _ (by decide +kernel))⟩

end SRPanel
