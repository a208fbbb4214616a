import SRPanel.Calls.Upkeep
import SRPanel.Model.Topups

/-!
# What the payment services do to payments

Every step of the payment services is upkeep or one of a few writes. `Accepts` says of an invariant
that it survives upkeep and each of these writes, given what the call has learned before it writes;
from that, this module derives once and for all that every procedure maintains the invariant in
every interleaving.
-/

namespace SRPanel

open Interleaving Prog

/-! ## What a call has learned -/

section Learned

variable {I : World → Prop} {id : PaymentId} {p q : Payment} {w w' : World}

/-- A payment as the call has read it at some earlier time. -/
def Seen (I : World → Prop) (id : PaymentId) (p : Payment) (w : World) : Prop :=
  ∃ v, I v ∧ Lasting v w ∧ v.payments.get? id = some p

/-- A row that is read now is seen. -/
theorem Seen.now (hI : I w) (hp : w.payments.get? id = some p) : Seen I id p w :=
  ⟨w, hI, refl_of Lasting w, hp⟩

/-- It is seen later too. -/
theorem Seen.later (h : Seen I id p w) (hw : Lasting w w') : Seen I id p w' :=
  let ⟨v, hv, hlast, hp⟩ := h
  ⟨v, hv, trans_of Lasting hlast hw, hp⟩

/-- The row has kept the terms of the copy. -/
theorem Seen.terms (h : Seen I id p w) (hq : w.payments.get? id = some q) :
    q.terms = p.terms ∧ (p.customerId.isSome → q.customerId.isSome) := by
  obtain ⟨v, -, hlast, hp⟩ := h
  obtain ⟨p', hp', ht, hc⟩ := hlast.payments id p hp
  obtain rfl : p' = q := by simpa [hp'] using hq
  exact ⟨ht, hc⟩

/-- The settings that `settingsForPayment` has found: the seller's or the owner's. -/
def Payee (I : World → Prop) (p : Payment) (s : StoreSettings) : Prop :=
  if p.kind = .order || p.customerId.isSome then ∃ v, I v ∧ v.shops.get? p.adminId = some s
  else ∃ v v' o a, I v ∧ v.admins.get? o = some a ∧ a.role = .owner ∧
    I v' ∧ v'.shops.get? o = some s

/-- The hash that the explorers are asked about. -/
def txHash (txid : String) : String := dropHexMark (trim txid)

/-- The result is what an explorer has answered. -/
def Answered (v : World) (txid address : String) (minAmount : ℚ) (r : TronVerifyResult) : Prop :=
  judgeTronscan (trim address) minAmount (v.outside.tronscan (txHash txid)) = some r ∨
    judgeTrongrid v.outside.sha256 (trim address) minAmount (v.outside.trongrid (txHash txid)) = r

/-- What a call knows when it confirms payment `id` by a transfer: the explorers accepted it for the
address and the amount of the copy `p`, and the payment has stored its hash. -/
structure Checked (I : World → Prop) (id : PaymentId) (p : Payment) (s : StoreSettings)
    (txid address : String) (r : TronVerifyResult) (w : World) : Prop where
  copy : Seen I id p w
  method : p.method = .usdt
  coin : isTrc20Usdt (cryptoMetaOf p)
  payee : Payee I p s
  target : payAddress (cryptoMetaOf p) (some s) = some address
  answer : ∃ v, I v ∧ Answered v txid address (payAmount p s) r
  accepted : r.ok
  stored : ∃ p', Seen I id p' w ∧ p'.txid = some txid

/-- The wallets that a seller offers. -/
def offeredAssets (v : World) (s : StoreSettings) : List CryptoAsset :=
  let list := (v.outside.cryptoAssets s.adminId).filter fun a => a.enabled && a.address != ""
  if list = [] then (legacyAsset s).toList else list

/-- A quote for an amount on one of the offered wallets. -/
structure Offered (v : World) (s : StoreSettings) (amount : ℤ) (q : CryptoQuote) : Prop where
  asset : ∃ a ∈ offeredAssets v s, q.address = a.address ∧ q.symbol = upper a.symbol ∧
    q.network = a.network
  rate : 1 ≤ q.rateIrt
  amount : q.amount = coinAmount amount q.rateIrt q.decimals

end Learned

/-! ## The writes -/

/-- The world with a changed row. -/
def World.withRow (w : World) (id : PaymentId) (p : Payment) : World :=
  { w with payments := w.payments.modify id fun _ => p }

/-- The world after a confirmation of the row `q`, which becomes `q'`. -/
def World.withVerdict (w : World) (e : Evidence) (id : PaymentId) (q q' : Payment) : World :=
  { w.withRow id q' with history := w.history.confirm ⟨id, q, e⟩ }

/-- The world after a change of the quote. -/
def World.withQuote (w : World) (id : PaymentId) (q' : Payment) (quote : CryptoQuote) : World :=
  { w.withRow id q' with history := w.history.quote id (some quote) }

/-- The world with a new payment. -/
def World.withNew (w : World) (p : Payment) : World :=
  { w with
    payments := w.payments.set w.nextId { p with createdAt := w.now, updatedAt := w.now }
    nextId := w.nextId + 1
    history := w.history.quote w.nextId (p.info.bind Meta.crypto) }

/-- A write of a row adds no payment. -/
theorem World.withRow_exists {w : World} {id i : PaymentId} {p r : Payment}
    (h : (w.withRow id p).payments.get? i = some r) : ∃ q, w.payments.get? i = some q := by
  simp only [World.withRow, Table.get?_modify] at h
  split at h
  · obtain ⟨q, hq, -⟩ := Option.map_eq_some_iff.mp h
    exact ⟨q, hq⟩
  · exact ⟨r, h⟩

/-- Identifiers are drawn in order. -/
def World.Keyed (w : World) : Prop := ∀ id p, w.payments.get? id = some p → id < w.nextId

/-- The next id is free. -/
theorem World.Keyed.fresh {w : World} (h : w.Keyed) : w.payments.get? w.nextId = none := by
  cases hp : w.payments.get? w.nextId with
  | none => rfl
  | some p => exact absurd (h _ p hp) (lt_irrefl _)

/-- Upkeep keeps the ids below the next one. -/
theorem World.Keyed.upkeep {w w' : World} (h : w.Keyed) (hu : Upkeep w w') : w'.Keyed := by
  intro id p hp
  obtain ⟨q, hq, -⟩ := hu.payment hp
  exact lt_of_lt_of_le (h id q hq) hu.nextId

/-- So does the write of a row. -/
theorem World.Keyed.withRow {w w' : World} {id : PaymentId} {q : Payment} (h : w.Keyed)
    (hp : w'.payments = (w.withRow id q).payments) (hn : w'.nextId = w.nextId) : w'.Keyed := by
  intro i p hi
  obtain ⟨r, hr⟩ := World.withRow_exists (hp ▸ hi)
  exact hn ▸ h i r hr

/-- So does a new payment. -/
theorem World.Keyed.withNew {w : World} (h : w.Keyed) (p : Payment) : (w.withNew p).Keyed := by
  intro i r hr
  simp only [World.withNew, Table.get?_set] at hr ⊢
  split at hr
  · next hi => exact hi ▸ Nat.lt_succ_self _
  · exact Nat.lt_succ_of_lt (h i r hr)

/-- A change of a row leaves every other row, and shows itself under its own key. -/
theorem World.get?_withRow {w : World} {id i : PaymentId} {q p r : Payment}
    (hq : w.payments.get? id = some q) (h : (w.withRow id p).payments.get? i = some r) :
    i = id ∧ r = p ∨ i ≠ id ∧ w.payments.get? i = some r := by
  simp only [World.withRow, Table.get?_modify] at h
  split at h
  · next hi =>
      subst hi
      rw [hq, Option.map_some] at h
      exact .inl ⟨rfl, (Option.some.inj h).symm⟩
  · next hi => exact .inr ⟨hi, h⟩

/-- So does a new row. -/
theorem World.get?_withNew {w : World} {i : PaymentId} {p r : Payment}
    (h : (w.withNew p).payments.get? i = some r) :
    i = w.nextId ∧ r = { p with createdAt := w.now, updatedAt := w.now } ∨
      i ≠ w.nextId ∧ w.payments.get? i = some r := by
  simp only [World.withNew, Table.get?_set] at h
  split at h
  · next hi => exact .inl ⟨hi, (Option.some.inj h).symm⟩
  · next hi => exact .inr ⟨hi, h⟩

/-- The invariant `I` survives the steps of the payment services that find the promise `ok` kept. -/
structure Accepts (ok : Stmt → World → Prop) (I : World → Prop) : Prop where
  upkeep : ∀ {w w'}, Upkeep w w' → I w → I w'
  fresh : ∀ {w}, I w → w.payments.get? w.nextId = none
  /-- `submitProof` stores a hash and writes the JSON value back from its copy. -/
  hash : ∀ {w id p q q' txid i}, I w → ok (.update [.status, .info, .txid txid] [(id, p)]) w →
    Seen I id p w → p.method = .usdt → w.payments.get? id = some q → isTxid txid →
    Db.txidTaken w id txid = false → i.crypto = p.info.bind Meta.crypto →
    q'.core = ({ q with info := some i, txid := some txid } : Payment).core → I (w.withRow id q')
  /-- A verification writes the JSON value back from its copy. -/
  note : ∀ {w id p q q' i}, I w → ok (.update [.info] [(id, p)]) w → Seen I id p w →
    w.payments.get? id = some q → i.crypto = p.info.bind Meta.crypto →
    q'.core = ({ q with info := some i } : Payment).core → I (w.withRow id q')
  review : ∀ {w id p q q' actor}, I w →
    ok (.update [.status, .verdict (.review actor)] [(id, p)]) w → Seen I id p w →
    canReview actor p → w.payments.get? id = some q → q'.core = q.core →
    I (w.withVerdict (.review actor) id q q')
  transfer : ∀ {w id p q q' p₀ s txid address r}, I w →
    ok (.update [.status, .verdict (transferEvidence txid address r)] [(id, p)]) w → Seen I id p w →
    Checked I id p₀ s txid address r w → w.payments.get? id = some q → q'.core = q.core →
    I (w.withVerdict (transferEvidence txid address r) id q q')

/-- In every interleaving with procedures that guarantee `Lasting`, every step of this one keeps
`I`. -/
abbrev Maintains {α : Type} (ok : Stmt → World → Prop) (I : World → Prop) (p : Service α)
    (w : World) : Prop :=
  Upholds ok I Lasting (fun _ _ => True) (fun _ _ => True) p w

/-- And a result satisfies `Q`. -/
abbrev Provides {α : Type} (ok : Stmt → World → Prop) (I : World → Prop) (Q : α → World → Prop)
    (p : Service α) (w : World) : Prop :=
  Upholds ok I Lasting Q (fun _ _ => True) p w

section Walks

variable {ok : Stmt → World → Prop} {I : World → Prop} {w : World} {id : PaymentId}

/-- A value maintains anything. -/
theorem maintains_pure {α : Type} (a : α) : Maintains ok I (pure a : Service α) w :=
  upholds_pure trivial

/-- So does a refusal. -/
theorem maintains_throw {α : Type} (e : AppError) : Maintains ok I (throw e : Service α) w :=
  upholds_throw trivial

/-- Sequencing after a result with a property. -/
theorem Provides.bind {α β : Type} {Q : β → World → Prop} {p : Service β} {f : β → Service α}
    (hp : Provides ok I Q p w) (hf : ∀ b t, Lasting w t → Q b t → Maintains ok I (f b) t) :
    Maintains ok I (p >>= f) w := upholds_bind hp hf

/-- Both halves maintain what the whole does. -/
theorem Maintains.bind {α β : Type} {p : Service β} {f : β → Service α} (hp : Maintains ok I p w)
    (hf : ∀ b t, Lasting w t → Maintains ok I (f b) t) : Maintains ok I (p >>= f) w :=
  upholds_bind hp fun b t ht _ => hf b t ht

theorem maintains_upkeep {α : Type} (h : Accepts ok I) {p : Service α} (hp : p.Keeps Upkeep) :
    Maintains ok I p w :=
  upholds_of_keeps hp fun _ _ hu hI => ⟨h.upkeep hu hI, hu.lasting⟩

theorem maintains_aside {α : Type} (h : Accepts ok I) {p : Service α} (hp : p.Keeps Aside) :
    Maintains ok I p w := maintains_upkeep h (hp.mono fun _ _ => Aside.upkeep)

/-! ## Settings and explorers -/

theorem ownerAdmin_provides :
    Provides ok I (fun o _ => ∃ v, I v ∧ v.admins.get? o.1 = some o.2 ∧ o.2.role = .owner)
      ownerAdmin w := by
  refine upholds_read fun t _ hI _ => ?_
  cases ho : ((t.admins.rows.filter fun r => r.2.role = .owner).insertionSort
      fun a b => a.2.createdAt ≤ b.2.createdAt).head? with
  | none => exact upholds_throw trivial
  | some o =>
      have hmem := List.mem_of_mem_head? ho
      rw [List.mem_insertionSort, List.mem_filter] at hmem
      exact upholds_pure ⟨t, hI, (t.admins.mem_rows_iff o.1 o.2).mp hmem.1, by simpa using hmem.2⟩

theorem settingsForPayment_provides (p : Payment) :
    Provides ok I (fun s _ => ∀ s', s = some s' → Payee I p s') (settingsForPayment p) w := by
  unfold settingsForPayment Payee
  refine upholds_ite (fun h => ?_) fun h => ?_
  · refine upholds_query fun t _ hI _ s hs => ?_
    rw [if_pos h]
    exact ⟨t, hI, hs⟩
  · refine upholds_bind ownerAdmin_provides fun o t _ ⟨v, hv, ho, hr⟩ => ?_
    refine upholds_query fun t' _ hI _ s hs => ?_
    rw [if_neg h]
    exact ⟨v, t', o.1, o.2, hv, ho, hr, hI, hs⟩

theorem verifyTrc20Payment_provides (txid address : String) (minAmount : ℚ) :
    Provides ok I (fun r _ => r.ok → ∃ v, I v ∧ Answered v txid address minAmount r)
      (verifyTrc20Payment txid address minAmount) w := by
  unfold verifyTrc20Payment
  dsimp only
  refine upholds_ite (fun _ => upholds_pure fun h => by cases h) fun _ => ?_
  refine upholds_read fun t _ hI _ => ?_
  cases hr : judgeTronscan (trim address) minAmount
      (t.outside.tronscan (dropHexMark (trim txid))) with
  | some r => exact upholds_pure fun _ => ⟨t, hI, .inl hr⟩
  | none => exact upholds_query fun t' _ hI' _ _ => ⟨t', hI', .inr rfl⟩

/-! ## Confirmation -/

/-- `confirmPayment` upholds what its status write does, under any guarantee that upkeep gives. -/
theorem confirmPayment_upholds {G : World → World → Prop} [IsPreorder World G]
    (hupkeep : ∀ {t t'}, Upkeep t t' → I t → I t' ∧ G t t') {e : Evidence} {opts : ConfirmOpts}
    (hwrite : ∀ {t p q q'}, G w t → I t → ok (.update [.status, .verdict e] [(id, p)]) t →
      (∃ v, I v ∧ G v t ∧ v.payments.get? id = some p) →
      (∀ a, opts.reviewer = some a → canReview a p) → t.payments.get? id = some q →
      q'.core = q.core → I (t.withVerdict e id q q') ∧ G t (t.withVerdict e id q q')) :
    Upholds ok I G (fun _ _ => True) (fun _ _ => True) (confirmPayment e id opts) w := by
  have aside : ∀ {α : Type} {p : Service α} {t}, p.Keeps Aside →
      Upholds ok I G (fun _ _ => True) (fun _ _ => True) p t := fun hp =>
    upholds_of_keeps hp fun _ _ h => hupkeep h.upkeep
  refine upholds_read fun v hv hI _ => ?_
  cases hp : v.payments.get? id with
  | none => exact upholds_throw trivial
  | some p =>
      refine upholds_ite (fun _ => upholds_throw trivial) fun hreview => ?_
      refine upholds_ite (fun _ => upholds_pure trivial) fun _ => ?_
      refine upholds_ite (fun _ => upholds_throw trivial) fun _ => ?_
      have hcan : ∀ a, opts.reviewer = some a → canReview a p := by
        intro a ha
        simpa [ha] using hreview
      have hstep : Upholds ok I G (fun _ _ => True) (fun _ _ =>
        True) (confirmRow e id p opts) v := by
        refine upholds_step fun t ht hIt hok => ?_
        cases hq : t.payments.get? id with
        | none => exact ⟨hIt, refl_of G t, fun _ _ => trivial, fun _ _ => trivial⟩
        | some q =>
            have hcore : ({ confirmedRow p opts q with updatedAt := t.now } : Payment).core =
                q.core := rfl
            obtain ⟨hI', hG⟩ := hwrite (trans_of G hv ht) hIt hok ⟨v, hI, ht, hp⟩ hcan hq hcore
            exact ⟨hI', hG, fun _ _ => trivial, fun _ _ => trivial⟩
      refine upholds_bind hstep fun updated t _ _ => ?_
      refine upholds_bind (aside (audit_keeps _ _)) fun _ t _ _ => ?_
      exact upholds_bind (upholds_of_keeps (applyConfirmation_keeps _ _ _) fun _ _ => hupkeep)
        fun _ _ _ _ => upholds_pure trivial

/-- `confirmPayment` maintains what its status write does. -/
theorem confirmPayment_maintains (h : Accepts ok I) {e : Evidence} {opts : ConfirmOpts}
    (hwrite : ∀ {t p q q'}, Lasting w t → I t → ok (.update [.status, .verdict e] [(id, p)]) t →
      Seen I id p t → (∀ a, opts.reviewer = some a → canReview a p) →
      t.payments.get? id = some q → q'.core = q.core → I (t.withVerdict e id q q')) :
    Maintains ok I (confirmPayment e id opts) w := by
  refine confirmPayment_upholds (fun hu hI => ⟨h.upkeep hu hI, hu.lasting⟩) ?_
  intro t p q q' ht hI hok hseen hcan hq hcore
  refine ⟨hwrite ht hI hok hseen hcan hq hcore, ?_⟩
  have hc : q'.core.customerId = q.core.customerId := by rw [hcore]
  exact Lasting.of_row hq rfl (fun _ h => h) (Payment.terms_of_core hcore)
    fun hs => by rwa [show q'.customerId = _ from hc]

theorem wp_updatePayment {l : Stmt} {p : Payment} {f : Payment → Payment}
    {record : Payment → History → History} {Q : Payment → World → Prop}
    {E : AppError → World → Prop} (hp : w.payments.get? id = some p)
    (hQ : Q { f p with updatedAt := w.now } { w with
      payments := w.payments.modify id fun _ => { f p with updatedAt := w.now }
      history := record p w.history }) : Prog.wp (Db.updatePayment l id f record) Q E w := by
  rw [Db.updatePayment, wp_step, hp]
  exact hQ

/-- A new payment takes the next id. -/
theorem wp_createPayment {p : Payment} {Q : PaymentId × Payment → World → Prop}
    {E : AppError → World → Prop}
    (hQ : Q (w.nextId, { p with createdAt := w.now, updatedAt := w.now }) (w.withNew p)) :
    Prog.wp (Db.createPayment p) Q E w := by
  rw [Db.createPayment, wp_step]
  exact hQ

/-- A lone call of `confirmPayment` without a reviewer leaves a confirmed or expired payment alone;
any other it confirms, and settles, though it may throw while settling. -/
theorem wp_confirmPayment_auto {e : Evidence} {p : Payment} {refId cardPan : Option String}
    {P : World → Prop} (hp : w.payments.get? id = some p)
    (hidle : p.status = .confirmed ∨ p.status = .expired → P w)
    (hdone : p.status ≠ .confirmed → p.status ≠ .expired → ∀ q t, q.status = .confirmed →
      q.core = p.core → Settling (w.withVerdict e id p q) t → P t) :
    Prog.wp (confirmPayment e id (.auto refId cardPan)) (fun _ => P) (fun _ => P) w := by
  simp only [confirmPayment, Db.findPayment, Db.read, wp_bind, wp_query, hp]
  rw [if_neg (by simp [ConfirmOpts.auto])]
  split
  · next h => exact hidle (.inl h)
  · next hconfirmed =>
      split
      · next h =>
          simp only [ConfirmOpts.auto, Option.isNone_none, Bool.and_true, decide_eq_true_eq] at h
          exact hidle (.inr h)
      · next h =>
          simp only [ConfirmOpts.auto, Option.isNone_none, Bool.and_true, decide_eq_true_eq] at h
          have hrest : ∀ updated : Payment, (do
              audit none "payment.confirm"
              applyConfirmation id p (.auto refId cardPan)
              pure updated : Service Payment).Keeps Settling := fun updated =>
            keeps_bind ((audit_keeps _ _).mono fun _ _ => Aside.settling) fun _ =>
              keeps_bind (applyConfirmation_settles _ _ _) fun _ => keeps_pure _
          unfold writeConfirmation
          rw [wp_bind]
          refine wp_updatePayment hp ((wp_store_iff (P := P) _).mpr (hdone hconfirmed h
            { confirmedRow p (.auto refId cardPan) p with updatedAt := w.now } _ rfl rfl ?_))
          exact (hrest _).run Settling.refl (fun _ _ _ => Settling.trans) _

/-- A review. -/
theorem reviewPayment_maintains (h : Accepts ok I) (actor : Actor) (refId cardPan : Option String) :
    Maintains ok I (confirmPayment (.review actor) id ⟨some actor, refId, cardPan⟩) w :=
  confirmPayment_maintains h fun _ hI hok hseen hcan hq hcore =>
    h.review hI hok hseen (hcan actor rfl) hq hcore

/-- What was checked stays checked. -/
private theorem Checked.later {p : Payment} {s : StoreSettings} {txid address : String}
    {r : TronVerifyResult} {w' : World} (hc : Checked I id p s txid address r w)
    (hw : Lasting w w') : Checked I id p s txid address r w' :=
  let ⟨p', hp', ht⟩ := hc.stored
  ⟨hc.copy.later hw, hc.method, hc.coin, hc.payee, hc.target, hc.answer, hc.accepted,
    p', hp'.later hw, ht⟩

/-- The confirmation by an accepted transfer. -/
private theorem settleTransfer_maintains (h : Accepts ok I) {p : Payment} {s : StoreSettings}
    {txid address : String} {r : TronVerifyResult} (hc : Checked I id p s txid address r w) :
    Maintains ok I (confirmPayment (transferEvidence txid address r) id (.auto none none)) w :=
  confirmPayment_maintains h fun ht hI hok hseen _ hq hcore =>
    h.transfer hI hok hseen (hc.later ht) hq hcore

/-! ## Proofs of payment -/

/-- No note has no quote. -/
theorem crypto_getD (i : Option Meta) : (i.getD .empty).crypto = i.bind Meta.crypto := by
  cases i <;> rfl

private theorem storeHash_provides (h : Accepts ok I) {p : Payment} {txid : String}
    (hp : Seen I id p w) (hm : p.method = .usdt) (htx : isTxid txid) :
    Provides ok I (fun u t => Seen I id u t ∧ u.txid = some txid)
      (Db.updateTxid (.update [.status, .info, .txid txid] [(id, p)]) id txid fun row =>
        { row with
          status := .review
          error := none
          info := some { p.info.getD .empty
            with verify := some .pending, tries := some 0 } }) w := by
  refine upholds_step fun t ht hI hok => ?_
  cases hq : t.payments.get? id with
  | none => exact ⟨hI, refl_of Lasting t, fun _ h => (nomatch h), fun _ _ => trivial⟩
  | some q =>
      dsimp only
      cases htaken : Db.txidTaken t id txid with
      | true => exact ⟨hI, refl_of Lasting t, fun _ h => (nomatch h), fun _ _ => trivial⟩
      | false =>
          have hI' : I (t.withRow id { q with
              status := .review
              error := none
              info := some { p.info.getD .empty with verify := some .pending, tries := some 0 }
              txid := some txid
              updatedAt := t.now }) :=
            h.hash (i := { p.info.getD .empty with verify := some .pending, tries := some 0 })
              hI hok (hp.later ht) hm hq htx htaken (crypto_getD p.info) rfl
          refine ⟨hI', ?_, ?_, fun _ _ => trivial⟩
          · exact Lasting.of_row hq rfl (fun _ h => h) rfl fun h => h
          · rintro u ⟨⟩
            refine ⟨.now hI' ?_, rfl⟩
            show (t.payments.modify id fun _ => _).get? id = _
            rw [Table.get?_modify_self, hq, Option.map_some]

private theorem writeNote_maintains (h : Accepts ok I) {p : Payment} {i : Meta}
    {f : Payment → Payment} (hp : Seen I id p w) (hi : i.crypto = p.info.bind Meta.crypto)
    (hf : ∀ q t, ({ f q with updatedAt := t } : Payment).core = ({ q with info := some i }).core) :
    Maintains ok I (Db.updatePayment (.update [.info] [(id, p)]) id f fun _ h => h) w := by
  refine upholds_step fun t ht hI hok => ?_
  cases hq : t.payments.get? id with
  | none => exact ⟨hI, refl_of Lasting t, fun _ _ => trivial, fun _ _ => trivial⟩
  | some q =>
      refine ⟨h.note hI hok (hp.later ht) hq hi (hf q t.now), ?_, fun _ _ => trivial,
        fun _ _ => trivial⟩
      refine Lasting.of_row hq rfl
        (fun _ h => h) ((Payment.terms_of_core (hf q t.now)).trans rfl) ?_
      have hc := congrArg Payment.customerId (hf q t.now)
      exact fun hs => by
        rwa [show ({ f q with updatedAt := t.now } : Payment).customerId = _ from hc]

private theorem submitTxid_maintains (h : Accepts ok I) {p : Payment} {s : Option StoreSettings}
    (hp : Seen I id p w) (hm : p.method = .usdt) (hs : ∀ s', s = some s' → Payee I p s')
    (proof : PaymentProof) : Maintains ok I (submitTxid id p s proof) w := by
  have review : ∀ (updated : Payment) t, Maintains ok I (do
      announceReview updated
      pure updated) t := fun updated t =>
    maintains_aside h (keeps_bind (announceReview_keeps _) fun _ => keeps_pure _)
  unfold submitTxid
  dsimp only
  refine upholds_ite (fun _ => maintains_throw _) fun htx => ?_
  refine upholds_read fun t ht hI _ => upholds_ite (fun _ => maintains_throw _) fun _ => ?_
  have htxid : isTxid (dropHexMark (trim (proof.txid.getD ""))) := by simpa using htx
  refine (storeHash_provides h (hp.later ht) hm htxid).bind fun updated u hu hseen => ?_
  split
  · next s' address haddr =>
      refine upholds_ite (fun hverify => ?_) fun _ => review updated u
      refine (verifyTrc20Payment_provides _ _ _).bind fun r v hv hr => ?_
      refine upholds_ite (fun hok => ?_) fun _ => ?_
      · simp only [Bool.and_eq_true] at hverify
        refine settleTransfer_maintains (p := p) (s := s') h ⟨hp.later ?_, hm, hverify.2, hs _ rfl,
          haddr, hr hok, hok, updated, hseen.1.later hv, hseen.2⟩
        exact trans_of Lasting ht (trans_of Lasting hu hv)
      · refine Maintains.bind (writeNote_maintains (i := { updated.info.getD .empty with
          verify := some r.status, tries := some 1, amountSeen := r.amount }) h (hseen.1.later hv)
          (crypto_getD _) fun _ _ => rfl) fun updated v _ => review updated v
  · exact review updated u

theorem submitProof_maintains (h : Accepts ok I) (proof : PaymentProof) :
    Maintains ok I (submitProof id proof) w := by
  refine upholds_read fun v hv hI _ => ?_
  cases hp : v.payments.get? id with
  | none => exact maintains_throw _
  | some p =>
      refine upholds_ite (fun _ => maintains_pure _) fun _ => ?_
      refine upholds_read fun v' hv' _ _ => upholds_ite (fun _ => maintains_throw _) fun _ => ?_
      refine (settingsForPayment_provides p).bind fun s t ht hs => ?_
      have hseen : Seen I id p t := (Seen.now hI hp).later (trans_of Lasting hv' ht)
      cases hm : p.method with
      | usdt => exact submitTxid_maintains h hseen hm hs proof
      | card => exact maintains_upkeep h (submitReceipt_keeps _ _ _)
      | zarinpal => exact maintains_throw _
      | wallet => exact maintains_throw _
      | manual => exact maintains_throw _

/-! ## The worker's verification -/

private theorem verifyOne_maintains (h : Accepts ok I) {p : Payment} (hp : Seen I id p w)
    (hm : p.method = .usdt) (htx : p.txid.isSome) : Maintains ok I (verifyOne id p) w := by
  obtain ⟨txid, htx⟩ := Option.isSome_iff_exists.mp htx
  unfold verifyOne
  dsimp only
  refine upholds_ite (fun _ => maintains_pure _) fun _ => ?_
  refine upholds_ite (fun _ => maintains_pure _) fun hcoin => ?_
  refine (settingsForPayment_provides p).bind fun s t ht hs => ?_
  split
  · next s' address haddr =>
      refine upholds_ite (fun _ => ?_) fun _ => maintains_pure _
      refine (verifyTrc20Payment_provides _ _ _).bind fun r v hv hr => ?_
      refine upholds_ite (fun hok => ?_) fun _ => ?_
      · have hseen := hp.later (trans_of Lasting ht hv)
        refine (settleTransfer_maintains (p := p) (s := s') h ⟨hseen, hm, by simpa using hcoin,
          hs _ rfl, haddr, hr hok, hok, p, hseen, ?_⟩).bind fun _ _ _ => maintains_pure _
        rw [htx, Option.getD_some]
      · refine Maintains.bind (writeNote_maintains (i := { p.info.getD .empty with
          verify := some r.status, tries := some ((p.info.getD .empty).tries.getD 0 + 1),
          amountSeen := r.amount }) h (hp.later (trans_of Lasting ht hv)) (crypto_getD _)
          fun _ _ => rfl) fun _ _ _ => maintains_pure _
  · exact maintains_pure _

private theorem verifyAll_maintains (h : Accepts ok I) (items : List (PaymentId × Payment))
    (hitems : ∀ r ∈ items, Seen I r.1 r.2 w ∧ r.2.method = .usdt ∧ r.2.txid.isSome) :
    Maintains ok I (verifyAll items) w := by
  induction items generalizing w with
  | nil => exact maintains_pure _
  | cons r rest ih =>
      obtain ⟨hseen, hm, htx⟩ := hitems r List.mem_cons_self
      refine (verifyOne_maintains h hseen hm htx).bind fun confirmed t ht => ?_
      refine Maintains.bind (ih fun r hr => ?_) fun _ _ _ => maintains_pure _
      obtain ⟨hseen, hrest⟩ := hitems r (List.mem_cons_of_mem _ hr)
      exact ⟨hseen.later ht, hrest⟩

theorem verifyPendingUsdt_maintains (h : Accepts ok I) : Maintains ok I verifyPendingUsdt w := by
  refine upholds_read fun now _ _ _ => upholds_read fun t _ hI _ => ?_
  refine verifyAll_maintains h _ fun r hr => ?_
  have hmem := List.mem_of_mem_take hr
  rw [List.mem_insertionSort, List.mem_filter] at hmem
  have hcond := hmem.2
  simp only [Bool.and_eq_true, decide_eq_true_eq] at hcond
  exact ⟨.now hI ((t.payments.mem_rows_iff r.1 r.2).mp hmem.1), hcond.1.1.2, hcond.1.2⟩

/-! ## Quotes -/

/-- A rate is at least one. -/
private theorem assetRate_provides (s : StoreSettings) (asset : CryptoAsset) :
    Provides ok I (fun r _ => 1 ≤ r.rate) (assetRate s asset) w := by
  unfold assetRate
  cases effectiveRateMode asset with
  | fixed =>
      exact upholds_ite (fun _ => upholds_throw trivial) fun _ =>
        upholds_pure (one_le_withMargin _ _)
  | market =>
      have hmarket : Maintains ok I (marketRate asset.symbol) w := by
        refine upholds_read fun t _ _ _ => ?_
        cases t.outside.marketRate (upper asset.symbol) with
        | none => exact upholds_throw trivial
        | some r => exact upholds_pure trivial
      exact upholds_bind hmarket fun m t _ _ => upholds_pure (one_le_withMargin _ _)
  | usdt =>
      exact upholds_read fun t _ _ _ => upholds_ite (fun _ => upholds_throw trivial) fun _ =>
        upholds_pure (one_le_withMargin _ _)

/-- Every quote is for the full amount, on a wallet offered at some time before. -/
theorem quoteCrypto_provides (s : StoreSettings) (amount : ℤ) (assetId : Option String) :
    Provides ok I (fun q _ => ∃ v, I v ∧ Offered v s amount q)
      (quoteCrypto s amount assetId) w := by
  have havailable : Provides ok I (fun list _ => ∃ v, I v ∧ list = offeredAssets v s)
      (availableAssets s) w := by
    refine upholds_read fun t _ hI _ => upholds_ite (fun h => ?_) fun h => ?_
    · exact upholds_pure ⟨t, hI, (if_pos h).symm⟩
    · exact upholds_pure ⟨t, hI, (if_neg h).symm⟩
  refine upholds_bind havailable fun list t _ ⟨v, hv, hlist⟩ => ?_
  cases list with
  | nil => exact upholds_throw trivial
  | cons first rest =>
      have hquote : ∀ a ∈ first :: rest, Provides ok I (fun q _ => ∃ v, I v ∧ Offered v s amount q)
          (quoteAsset s amount a) t := by
        intro a ha
        refine upholds_bind (assetRate_provides s a) fun r t' _ hr => upholds_read fun _ _ _ _ => ?_
        exact upholds_pure ⟨v, hv, ⟨a, hlist ▸ ha, rfl, rfl, rfl⟩, hr, rfl⟩
      refine hquote _ ?_
      cases hpick : (assetId.bind orNull).bind fun i => (first :: rest).find? fun a => a.id = i with
      | none => exact List.mem_cons_self
      | some a =>
          obtain ⟨i, -, hfind⟩ := Option.bind_eq_some_iff.mp hpick
          exact List.mem_of_find?_eq_some hfind

/-! ## Starting a payment -/

/-- `beginPayment` maintains what the creation of its row and the storing of an authority do. -/
theorem beginPayment_maintains (h : Accepts ok I) {s : StoreSettings} {input : BeginPaymentInput}
    (hnew : ∀ {t expiresAt q}, I t → (∀ q', q = some q' → input.method = .usdt ∧
      ∃ v, I v ∧ Offered v s input.amount q') → (input.method = .usdt → q.isSome) →
      I (t.withNew (newPayment input expiresAt q)))
    (hauthority : ∀ {t i q authority m}, Lasting w t → I t → input.method = .zarinpal →
      t.payments.get? i = some q → q.method = .zarinpal → m.crypto = none →
      I (t.withRow i { q with authority := some authority, info := some m, updatedAt := t.now })) :
    Maintains ok I (beginPayment s input) w := by
  -- the new row gets an id that no payment has
  have create : ∀ {u : World} expiresAt q, Lasting w u → (∀ q', q = some q' → input.method = .usdt ∧
      ∃ v, I v ∧ Offered v s input.amount q') → (input.method = .usdt → q.isSome) →
      Provides ok I (fun r t => t.payments.get? r.1 = some r.2 ∧ r.2.method = input.method ∧ I t)
        (Db.createPayment (newPayment input expiresAt q)) u := by
    intro u expiresAt q hu hq hsome
    refine upholds_step fun t ht hI _ => ⟨hnew hI hq hsome, ⟨fun i p hp => ?_, fun c hc => ?_⟩, ?_,
      fun _ _ => trivial⟩
    · refine ⟨p, ?_, rfl, fun h => h⟩
      rw [Table.get?_set_of_ne _ _ ?_]
      · exact hp
      · rintro rfl
        rw [h.fresh hI] at hp
        cases hp
    · exact List.mem_append_right _ hc
    · rintro r ⟨⟩
      exact ⟨Table.get?_set_self _ _ _, rfl, hnew hI hq hsome⟩
  refine upholds_ite (fun _ => maintains_throw _) fun _ => ?_
  refine upholds_ite (fun _ => maintains_throw _) fun _ => ?_
  refine upholds_read fun u hu _ _ => ?_
  -- as the source branches; only a gateway writes to the row again
  cases hm : input.method with
  | usdt =>
      refine (quoteCrypto_provides s input.amount input.assetId).bind fun q t ht ⟨v, hv, hq⟩ => ?_
      refine upholds_mono (create _ (some q) (trans_of Lasting hu ht) ?_ fun _ => rfl)
        (fun _ _ _ => trivial) fun _ _ _ => trivial
      rintro q' ⟨⟩
      exact ⟨hm, v, hv, hq⟩
  | card =>
      exact upholds_mono (create _ none hu (fun _ h => nomatch h) fun h => nomatch hm.symm.trans h)
        (fun _ _ _ => trivial) fun _ _ _ => trivial
  | zarinpal =>
      refine upholds_read fun t ht _ _ => ?_
      cases merchantOf t.outside.decryptSecret s with
      | none => exact maintains_throw _
      | some merchant =>
          refine (create _ none (trans_of Lasting hu ht) (fun _ h => nomatch h)
            fun h => nomatch hm.symm.trans h).bind fun payment t' ht' ⟨hp, hpm, hI'⟩ => ?_
          refine (maintains_upkeep h (zarinpalRequest_keeps _ _ _)).bind fun r t'' ht'' => ?_
          cases r with
          | error e =>
              refine Maintains.bind (maintains_upkeep h (updatePayment_keeps fun _ _ => rfl))
                fun _ _ _ => maintains_throw _
          | ok r =>
              refine Maintains.bind (upholds_step fun x hx hI _ => ?_) fun _ _ _ => maintains_pure _
              cases hq : x.payments.get? payment.1 with
              | none => exact ⟨hI, refl_of Lasting x, fun _ _ => trivial, fun _ _ => trivial⟩
              | some q =>
                  have hseen : Seen I payment.1 payment.2 x :=
                    (Seen.now hI' hp).later (trans_of Lasting ht'' hx)
                  have hqm : q.method = .zarinpal := by
                    rw [← hm, ← hpm]
                    exact congrArg (fun t => t.2.1) (hseen.terms hq).1
                  have hlast : Lasting w x :=
                    trans_of Lasting (trans_of Lasting hu ht) (trans_of Lasting ht'
                      (trans_of Lasting ht'' hx))
                  dsimp only
                  cases x.payments.rows.any fun row =>
                      row.1 != payment.1 && row.2.authority == some r.1 with
                  | true => exact ⟨hI, refl_of Lasting x, fun _ _ => trivial, fun _ _ => trivial⟩
                  | false =>
                      refine ⟨hauthority (m := { Meta.empty
                        with startUrl := some r.2 }) hlast hI hm hq hqm rfl, ?_, fun _ _ => trivial,
                          fun _ _ => trivial⟩
                      exact Lasting.of_row hq rfl (fun _ h => h) rfl fun h => h
  | wallet => exact maintains_throw _
  | manual => exact maintains_throw _

/-! ## Switching the coin -/

/-- `selectOrderAsset` maintains what its write of a new quote does: the quote is for the amount of
the order that the payment was read with. -/
theorem selectOrderAsset_maintains (token assetId : String)
    (hquote : ∀ {t id p q q' order s quote}, I t → ok (.update [.quote, .info] [(id, p)]) t →
      (∃ v orderId, I v ∧ Lasting v t ∧ v.payments.get? id = some p ∧ p.orderId = some orderId ∧
        v.orders.get? orderId = some order) →
      (∃ v, I v ∧ Offered v s order.amount quote) → t.payments.get? id = some q →
      q'.core = ({ q with
        amountUsdt := some quote.amount
        info := some { p.info.getD .empty with crypto := some quote } } : Payment).core →
      I (t.withQuote id q' quote)) :
    Maintains ok I (selectOrderAsset token assetId) w := by
  have hopen : Provides ok I (fun r t => ∀ id p, r.2.1 = some (id, p) → ∃ v orderId, I v ∧
      Lasting v t ∧ v.payments.get? id = some p ∧ p.orderId = some orderId ∧
      v.orders.get? orderId = some r.1) (openCryptoPayment token) w := by
    refine upholds_read fun t _ hI _ => ?_
    cases hfind : t.orders.rows.find? fun r => r.2.token = token with
    | none => exact upholds_throw trivial
    | some r =>
        refine upholds_read fun u hu _ _ => ?_
        cases u.shops.get? r.2.adminId with
        | none => exact upholds_throw trivial
        | some s =>
            refine upholds_pure fun id p hp => ?_
            have hmem := List.mem_of_mem_head? hp
            rw [List.mem_insertionSort, List.mem_filter] at hmem
            have hcond := hmem.2
            simp only [Bool.and_eq_true, decide_eq_true_eq] at hcond
            exact ⟨t, r.1, hI, hu, (t.payments.mem_rows_iff id p).mp hmem.1, hcond.2,
              (t.orders.mem_rows_iff r.1 r.2).mp (List.mem_of_find?_eq_some hfind)⟩
  refine hopen.bind fun r t _ hr => ?_
  obtain ⟨order, payment, s⟩ := r
  cases payment with
  | none => exact maintains_throw _
  | some r =>
      obtain ⟨id, p⟩ := r
      obtain ⟨v, orderId, hv, hvt, hp, ho, hord⟩ := hr id p rfl
      refine upholds_ite (fun _ => maintains_throw _) fun _ => upholds_read fun u hu _ _ => ?_
      refine upholds_ite (fun _ => maintains_throw _) fun _ => ?_
      refine (quoteCrypto_provides s order.amount (some assetId)).bind fun quote x hx hoffer => ?_
      refine Maintains.bind (upholds_step fun y hy hI hok => ?_) fun _ _ _ => maintains_pure _
      cases hq : y.payments.get? id with
      | none => exact ⟨hI, refl_of Lasting y, fun _ _ => trivial, fun _ _ => trivial⟩
      | some q =>
          have hlast : Lasting v y :=
            trans_of Lasting hvt (trans_of Lasting hu (trans_of Lasting hx hy))
          refine ⟨hquote hI hok ⟨v, orderId, hv, hlast, hp, ho, hord⟩ hoffer hq rfl, ?_,
            fun _ _ => trivial, fun _ _ => trivial⟩
          exact Lasting.of_row hq rfl (fun _ h => List.mem_append_right _ h) rfl fun h => h

end Walks

end SRPanel
