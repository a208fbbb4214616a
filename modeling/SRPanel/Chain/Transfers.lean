import SRPanel.Calls.Steps

/-!
# Transfers on the chain

What the explorers report, and the calls that act on payments while buyers pay in USDT. The three
modules on top of this one ask how often a transfer pays, how old it may be, and how much it has to
bring.
-/

namespace SRPanel

open Interleaving

/-! ## The chain -/

/-- The contents of the chain, by the lower-case text of a transaction's hash. -/
structure Chain where
  blockTime : String → Time
  /-- the transaction moves this amount of USDT to this address -/
  moves : String → String → ℚ → Prop

/-- Both explorers report what is on the chain, whatever the case of the letters in the question. -/
structure Chain.Reports (c : Chain) (o : Outside) : Prop where
  tronscan : ∀ h transfers confirmed contractRet timestamp,
    o.tronscan h = .info transfers confirmed contractRet timestamp →
      timestamp = c.blockTime (lower h) ∧
      ∀ x ∈ transfers.getD [], x.contract_address = USDT_TRC20 →
        c.moves (lower h) x.to_address (x.amount / 10 ^ x.decimals)
  trongrid : ∀ h data, o.trongrid h = .events data → ∀ ev ∈ data,
    ev.block_timestamp = c.blockTime (lower h) ∧
      (ev.event_name = "Transfer" → ev.contract_address = USDT_TRC20 →
        c.moves (lower h) (tronHexToBase58 o.sha256 ev.toHex) (ev.value / 1000000))

/-- What an accepted answer says about the chain. -/
structure Chain.Backs (c : Chain) (hash address : String) (minAmount : ℚ) (r : TronVerifyResult) :
    Prop where
  timestamp : r.timestamp = some (c.blockTime hash)
  amount : ∃ a, r.amount = some a ∧ c.moves hash address a ∧ minAmount ≤ a + usdtTolerance

private theorem backs_of_tronscan {c : Chain} {hash want : String} {minAmount : ℚ}
    {a : TronscanAnswer} {r : TronVerifyResult}
    (ha : ∀ transfers confirmed contractRet timestamp,
      a = .info transfers confirmed contractRet timestamp → timestamp = c.blockTime hash ∧
      ∀ x ∈ transfers.getD [], x.contract_address = USDT_TRC20 →
        c.moves hash x.to_address (x.amount / 10 ^ x.decimals))
    (hr : judgeTronscan want minAmount a = some r) (hok : r.ok) :
    c.Backs hash want minAmount r := by
  cases a with
  | unusable => cases hr
  | info transfers confirmed contractRet timestamp =>
      obtain ⟨htime, hmoves⟩ := ha _ _ _ _ rfl
      simp only [judgeTronscan] at hr
      split at hr
      · cases hr
        cases hok
      · next t ht =>
          have hmem := List.mem_of_find?_eq_some ht
          have hsat : t.contract_address = USDT_TRC20 ∧ t.to_address = want := by
            simpa using List.find?_some ht
          split at hr
          · cases hr
            cases hok
          · split at hr
            · cases hr
              cases hok
            · next hmin =>
                cases hr
                refine ⟨congrArg some htime, _, rfl, ?_, not_lt.mp hmin⟩
                rw [← hsat.2]
                exact hmoves t hmem hsat.1

private theorem backs_of_events {c : Chain} {sha256 : List ℕ → List ℕ} {hash want : String}
    {minAmount : ℚ} {data : List TronEvent} {r : TronVerifyResult}
    (ha : ∀ ev ∈ data, ev.block_timestamp = c.blockTime hash ∧
      (ev.event_name = "Transfer" → ev.contract_address = USDT_TRC20 →
        c.moves hash (tronHexToBase58 sha256 ev.toHex) (ev.value / 1000000)))
    (hr : judgeEvents sha256 want minAmount data = r) (hok : r.ok) :
    c.Backs hash want minAmount r := by
  induction data with
  | nil =>
      subst hr
      cases hok
  | cons ev rest ih =>
      obtain ⟨htime, hmoves⟩ := ha ev List.mem_cons_self
      simp only [judgeEvents] at hr
      split at hr
      · exact ih (fun e he => ha e (List.mem_cons_of_mem _ he)) hr
      · next hsat =>
          rw [not_or, not_or, not_not, not_not, not_not] at hsat
          split at hr
          · subst hr
            cases hok
          · next hmin =>
              subst hr
              refine ⟨congrArg some htime, _, rfl, ?_, not_lt.mp hmin⟩
              rw [← hsat.2.2]
              exact hmoves hsat.1 hsat.2.1

/-- An answer that is accepted is about a transfer on the chain. -/
theorem Answered.backs {c : Chain} {v : World} {txid address : String} {minAmount : ℚ}
    {r : TronVerifyResult} (hc : c.Reports v.outside) (h : Answered v txid address minAmount r)
    (hok : r.ok) : c.Backs (lower (txHash txid)) (trim address) minAmount r := by
  rcases h with h | h
  · exact backs_of_tronscan (hc.tronscan (txHash txid)) h hok
  · cases hg : v.outside.trongrid (txHash txid) with
    | failed e =>
        rw [hg] at h
        subst h
        cases hok
    | events data =>
        rw [hg] at h
        cases data with
        | nil =>
            subst h
            cases hok
        | cons ev rest => exact backs_of_events (hc.trongrid _ _ hg) h hok

/-! ## Hashes as they are stored -/

/-- A stored hash is asked about as it is. -/
theorem txHash_of_isTxid {txid : String} (h : isTxid txid) : txHash txid = txid := by
  simp only [isTxid, Bool.and_eq_true, List.all_eq_true] at h
  have hhex := h.2
  rw [txHash, trim_of_dense fun c hc => isWhite_of_isHexDigit (hhex c hc), dropHexMark]
  split
  · next rest hl =>
      have hx : isHexDigit 'x' := hhex 'x' (by rw [hl]; simp)
      exact absurd hx (by decide)
  · rfl

/-- The transaction that confirmed a payment. -/
def Evidence.hash : Evidence → Option String
  | .transfer txid _ _ _ => some (lower (txHash txid))
  | _ => none

/-! ## The calls -/

/-- The calls on payments while buyers pay in crypto. -/
inductive PaymentCall
  | begin (s : StoreSettings) (input : BeginPaymentInput)
  | submit (id : PaymentId) (proof : PaymentProof)
  | verify
  | select (token assetId : String)
  | review (actor : Actor) (id : PaymentId) (refId cardPan : Option String)
  | reject (actor : Actor) (id : PaymentId) (note : Option String)
  | expire

/-- The procedure of a call. -/
def PaymentCall.prog : PaymentCall → Service Unit
  | begin s input => (beginPayment s input).void
  | submit id proof => (submitProof id proof).void
  | verify => verifyPendingUsdt.void
  | select token assetId => (selectOrderAsset token assetId).void
  | review actor id refId cardPan =>
      (confirmPayment (.review actor) id ⟨some actor, refId, cardPan⟩).void
  | reject actor id note => (rejectPayment actor id note).void
  | expire => expirePayments.void

/-- What happens besides the calls: payments, their confirmations and their quotes stay as they are,
and so do the terms of all orders. -/
structure Meanwhile (w w' : World) : Prop where
  nextId : w.nextId ≤ w'.nextId
  payments : w'.payments = w.payments
  confirmations : w'.history.confirmations = w.history.confirmations
  quoted : w'.history.quoted = w.history.quoted
  orders : ∀ id o, w.orders.get? id = some o → (w'.orders.get? id).map Order.terms = some o.terms

theorem Meanwhile.keyed {w w' : World} (h : Meanwhile w w') (hI : w.Keyed) : w'.Keyed := by
  intro id p hp
  rw [h.payments] at hp
  exact lt_of_lt_of_le (hI id p hp) h.nextId

theorem Meanwhile.lasting {w w' : World} (h : Meanwhile w w') : Lasting w w' := by
  refine ⟨fun id p hp => ⟨p, ?_, rfl, fun h => h⟩, fun _ hq => ?_⟩
  · rw [h.payments]
    exact hp
  · rw [h.quoted]
    exact hq

/-- The invariant survives also the start of a payment and a change of its quote. -/
structure AcceptsAll (ok : Stmt → World → Prop) (I : World → Prop) : Prop extends Accepts ok I where
  start : ∀ {w input expiresAt q}, I w → I (w.withNew (newPayment input expiresAt q))
  authority : ∀ {w id q authority i}, I w → w.payments.get? id = some q → q.method = .zarinpal →
    I (w.withRow id { q with authority := some authority, info := some i, updatedAt := w.now })
  quote : ∀ {w id p q q' order s quote}, I w → ok (.update [.quote, .info] [(id, p)]) w →
    (∃ v orderId, I v ∧ Lasting v w ∧ v.payments.get? id = some p ∧ p.orderId = some orderId ∧
      v.orders.get? orderId = some order) →
    (∃ v, I v ∧ Offered v s order.amount quote) → w.payments.get? id = some q →
    q'.core = ({ q with
      amountUsdt := some quote.amount
      info := some { p.info.getD .empty with crypto := some quote } } : Payment).core →
    I (w.withQuote id q' quote)

theorem PaymentCall.maintains {ok : Stmt → World → Prop} {I : World → Prop} (h : AcceptsAll ok I)
    (c : PaymentCall) (w : World) : Maintains ok I c.prog w := by
  cases c with
  | begin s input =>
      exact upholds_void (beginPayment_maintains h.toAccepts (fun hI _ _ => h.start hI)
        fun _ hI _ hq hm _ => h.authority hI hq hm)
  | submit id proof => exact upholds_void (submitProof_maintains h.toAccepts proof)
  | verify => exact upholds_void (verifyPendingUsdt_maintains h.toAccepts)
  | select token assetId => exact upholds_void (selectOrderAsset_maintains token assetId h.quote)
  | review actor id refId cardPan =>
      exact upholds_void (reviewPayment_maintains h.toAccepts actor refId cardPan)
  | reject actor id note =>
      exact upholds_void (maintains_upkeep h.toAccepts (rejectPayment_keeps actor id note))
  | expire => exact upholds_void (maintains_upkeep h.toAccepts expirePayments_keeps)

/-- An accepted invariant holds in every state of every run of the calls. -/
theorem AcceptsAll.run {ok : Stmt → World → Prop} {I : World → Prop} {env : World → World → Prop}
    (h : AcceptsAll ok I) {w : World} {calls : List PaymentCall} {c : Pool Stmt World AppError}
    (h0 : I w) (henv : ∀ w w', I w → env w w' → I w' ∧ Lasting w w')
    (hrun : Pool.Run env ok ⟨w, calls.map PaymentCall.prog⟩ c) : I c.store := by
  refine (Pool.upheld_run h0 (fun p hp => ?_) henv hrun).1
  obtain ⟨call, -, rfl⟩ := List.mem_map.mp hp
  exact call.maintains h w

end SRPanel
