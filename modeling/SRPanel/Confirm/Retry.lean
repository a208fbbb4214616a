import SRPanel.Confirm.Once

/-!
# Confirming again after a failure

A call of `confirmPayment` may stop between any two of its steps, because the process dies or
because the next database call throws. The status write and the effect are different steps, and a
later call finds the payment confirmed and returns at once. So the effect is lost exactly when the
call stops between the two, which `confirm_again_iff` states for every kind of payment and every
point.
-/

namespace SRPanel

open Interleaving Prog

/-! ## The rows that a payment refers to -/

/-- The rows that the foreign keys of a payment point to exist, and an order payment has its order.
-/
structure World.Intact (w : World) (p : Payment) : Prop where
  admin : ∃ a, w.admins.get? p.adminId = some a
  customer : ∀ c, p.customerId = some c → ∃ cu, w.customers.get? c = some cu
  order : p.kind = .order → ∃ o ord, p.orderId = some o ∧ w.orders.get? o = some ord

/-- The ledger rows of a payment. -/
def entriesOf {ι : Type} (txs : List (WalletTx ι)) (id : PaymentId) : List (WalletTx ι) :=
  txs.filter fun t => t.ref = .payment id

/-- The payment has had no effect yet: no ledger has a row for it, and its order is not paid. -/
structure World.NoEffect (w : World) (id : PaymentId) (p : Payment) : Prop where
  walletTxs : entriesOf w.walletTxs id = []
  customerTxs : entriesOf w.customerTxs id = []
  order : ∀ o ord, p.orderId = some o → w.orders.get? o = some ord →
    ord.status ≠ .paid ∧ ord.status ≠ .fulfilled

/-- The effect of payment `p`, compared with the world `w` before: one top-up row with the matching
credit, or the order paid or further. -/
def EffectOnce (w : World) (id : PaymentId) (p : Payment) (w' : World) : Prop :=
  match p.kind, p.customerId with
  | .topup, none => ∃ a a' row, w.admins.get? p.adminId = some a ∧
      w'.admins.get? p.adminId = some a' ∧ entriesOf w'.walletTxs id = [row] ∧
      row.holder = p.adminId ∧ row.kind = .topup ∧ row.amount = p.amount ∧
      a'.credit = a.credit + row.amount
  | .topup, some c => ∃ cu cu' row, w.customers.get? c = some cu ∧
      w'.customers.get? c = some cu' ∧ entriesOf w'.customerTxs id = [row] ∧
      row.holder = c ∧ row.kind = .topup ∧
      row.amount = p.amount + topupBonus (w.shops.get? p.adminId) p.amount ∧
      cu'.credit = cu.credit + row.amount
  | .order, _ => ∃ o ord, p.orderId = some o ∧ w'.orders.get? o = some ord ∧
      (ord.status = .paid ∨ ord.status = .fulfilled)

/-- The payment is confirmed. -/
def World.Confirmed (w : World) (id : PaymentId) : Prop :=
  ∃ p, w.payments.get? id = some p ∧ p.status = .confirmed

/-! ## Stopping and calling again -/

/-- Calls of `confirmPayment`, one after the other, until one returns normally. -/
inductive Retried (evidence : Evidence) (id : PaymentId) (opts : ConfirmOpts) : World → World → Prop
  | returns {w w' : World} {p : Payment} :
      (confirmPayment evidence id opts).run w = (.ok p, w') → Retried evidence id opts w w'
  | throws {w w' : World} {e : AppError} :
      ((confirmPayment evidence id opts).run w).1 = .error e →
      Retried evidence id opts ((confirmPayment evidence id opts).run w).2 w' →
      Retried evidence id opts w w'

/-- The call is refused before it writes anything. -/
def Refused (p : Payment) (opts : ConfirmOpts) : Prop :=
  (opts.reviewer.any fun a => !canReview a p) = true ∨ p.status = .expired ∧ opts.reviewer = none

/-- The number of database calls from the beginning of the effect up to the write that makes it. -/
def effectSteps (p : Payment) : ℕ :=
  match p.kind, p.customerId with
  | .topup, none => 2
  | .topup, some _ => 4
  | .order, _ => 1

/-- The call stops after its status write and before its effect. An exception of the audit line, the
step after the status write, is caught and does not stop the call. -/
def CutOff (p : Payment) (n : ℕ) (st : Prog.Stop AppError) : Prop :=
  (match st with
    | .dies => 2
    | .throws _ => 3) ≤ n ∧ n < 3 + effectSteps p

/-! ## The effect -/

section Effect

variable {id : PaymentId} {opts : ConfirmOpts} {w v : World} {p : Payment}

/-- The world `v` has the payment `p` confirmed and is otherwise as `w`, as far as the effect reads.
-/
structure Ready (w : World) (id : PaymentId) (p : Payment) (v : World) : Prop where
  row : ∃ q, v.payments.get? id = some q ∧ q.status = .confirmed ∧ q.kind = p.kind ∧
    q.customerId = p.customerId ∧ q.adminId = p.adminId ∧ q.amount = p.amount
  admins : v.admins = w.admins
  customers : v.customers = w.customers
  orders : v.orders = w.orders
  shops : v.shops = w.shops
  walletTxs : v.walletTxs = w.walletTxs
  customerTxs : v.customerTxs = w.customerTxs

theorem Ready.confirmed (h : Ready w id p v) : v.Confirmed id :=
  let ⟨q, hq, hs, _⟩ := h.row
  ⟨q, hq, hs⟩

/-- The payment is confirmed and its effect is there. -/
def Done (w : World) (id : PaymentId) (p : Payment) (w' : World) : Prop :=
  w'.Confirmed id ∧ EffectOnce w id p w'

/-- Nothing that the helper services do takes the effect back. -/
theorem Done.aside {s s' : World} (hk : p.kind = .topup) (h : Aside s s') (hs : Done w id p s) :
    Done w id p s' := by
  refine ⟨by simpa only [World.Confirmed, h.payments] using hs.1, ?_⟩
  have he := hs.2
  simp only [EffectOnce, hk] at he ⊢
  cases hc : p.customerId <;> simp only [hc] at he ⊢
  · simpa only [h.admins, h.walletTxs] using he
  · simpa only [h.customers, h.customerTxs] using he

private theorem done_of_aside {α : Type} {q : Service α} (hk : p.kind = .topup)
    (hq : q.Keeps Aside) : q.Keeps fun s s' => Done w id p s → Done w id p s' :=
  hq.mono fun _ _ h => Done.aside hk h

/-- The messages after the effect of a top-up. -/
private theorem tell_keeps {α : Type} (kind name : String) (a : Option AdminId) (x : α) :
    (do notify kind; emitEvent a name; pure x : Service α).Keeps Aside :=
  keeps_bind (notify_keeps _) fun _ => keeps_bind (emitEvent_keeps _ _) fun _ =>
    keeps_pure _

/-- The wallet of a reseller is charged by the second step. -/
theorem pivot_reseller (hv : Ready w id p v) (hw : w.Intact p) (hnew : w.NoEffect id p)
    (hamount : 0 < p.amount) (hk : p.kind = .topup) (hc : p.customerId = none) {α : Type} (x : α) :
    Prog.Pivot (Done w id p) (do applyConfirmation id p opts; pure x : Service α) v 2 := by
  obtain ⟨a, ha⟩ := hw.admin
  have hne : p.amount ≠ 0 := by omega
  have hneg : ¬p.amount < 0 := by omega
  simp only [applyConfirmation, hk, hc, chargeWallet, debitLimit, hne, hneg, Db.read,
    Option.isSome_none, Bool.and_false, decide_true, Bool.false_eq_true, if_false, if_true,
    decide_false, Bool.and_self, bind_assoc, pure_bind, reduceCtorEq, Bool.false_and,
    Option.any_none]
  refine .query_bind ?_
  simp only [hv.admins, ha, bind_assoc, pure_bind]
  let row : WalletTx AdminId :=
    ⟨p.adminId, .topup, p.amount, a.credit + p.amount, .payment id, opts.reviewer.map Actor.id⟩
  let v' : World := { v with
    admins := v.admins.modify p.adminId fun a => { a with credit := row.balanceAfter }
    walletTxs := row :: v.walletTxs }
  refine .step_bind (show _ = (Except.ok row, v') by simp [hv.admins, ha, row, v']) ?_ ?_
  · refine ⟨hv.confirmed, ?_⟩
    simp only [EffectOnce, hk, hc]
    refine ⟨a, { a with credit := a.credit + p.amount }, row, ha, ?_, ?_, rfl, rfl, rfl, rfl⟩
    · simp [v', hv.admins, ha, row]
    · have hold : entriesOf v.walletTxs id = [] := hv.walletTxs ▸ hnew.walletTxs
      simpa [entriesOf, v', row] using hold
  · refine done_of_aside hk (keeps_bind (alertAfter_keeps row) fun _ => ?_)
    exact tell_keeps _ _ _ _

/-- The bonus on a positive amount is not negative. -/
theorem topupBonus_nonneg (store : Option StoreSettings) {amount : ℤ} (h : 0 < amount) :
    0 ≤ topupBonus store amount := by
  simp only [topupBonus]
  split
  · next hb => exact Int.tdiv_nonneg (Int.mul_nonneg (by omega) (by omega)) (by omega)
  · exact le_refl 0

/-- A customer's wallet is credited by the fourth step. -/
theorem pivot_customer (hv : Ready w id p v) (hw : w.Intact p) (hnew : w.NoEffect id p)
    (hamount : 0 < p.amount) (hk : p.kind = .topup) {c : CustomerId} (hc : p.customerId = some c)
    {α : Type} (x : α) :
    Prog.Pivot (Done w id p) (do applyConfirmation id p opts; pure x : Service α) v 4 := by
  obtain ⟨cu, hcu⟩ := hw.customer c hc
  obtain ⟨q, hq, hqs, hqk, hqc, hqa, hqm⟩ := hv.row
  have hpos : ¬p.amount + topupBonus (w.shops.get? p.adminId) p.amount ≤ 0 := by
    have := topupBonus_nonneg (w.shops.get? p.adminId) hamount
    omega
  have hold : entriesOf v.customerTxs id = [] := hv.customerTxs ▸ hnew.customerTxs
  have hnone : v.customerTxs.find? (fun t => t.ref = .payment id) = none := by
    rw [List.find?_eq_none]
    exact fun t ht => by simpa using List.filter_eq_nil_iff.mp hold t ht
  simp only [applyConfirmation, hk, hc, settleCustomerTopup, Db.findPayment, Db.read,
    Option.isSome_some, decide_true, Bool.and_self, if_true, bind_assoc]
  refine .query_bind ?_
  simp only [hq, hqc, hc, hqk, hk, hqs, ne_eq, not_true_eq_false, decide_false, Bool.or_self,
    Bool.false_eq_true, if_false, bind_assoc]
  refine .query_bind ?_
  simp only [hnone, storeSettingsByAdminId, Db.read, bind_assoc]
  refine .query_bind ?_
  simp only [hqa, hqm, hv.shops, creditCustomerWallet, hpos, if_false]
  let amount := p.amount + topupBonus (w.shops.get? p.adminId) p.amount
  let row : WalletTx CustomerId := ⟨c, .topup, amount, cu.credit + amount, .payment id, none⟩
  let v' : World := { v with
    customers := v.customers.modify c fun cu => { cu with credit := cu.credit + amount }
    customerTxs := row :: v.customerTxs }
  refine .step_bind (show _ = (Except.ok (cu.credit + amount), v') by
    simp [hv.customers, hcu, row, v', amount]) ?_ ?_
  · refine ⟨hv.confirmed, ?_⟩
    simp only [EffectOnce, hk, hc]
    refine ⟨cu, { cu with credit := cu.credit + amount }, row, hcu, ?_, ?_, rfl, rfl, rfl, rfl⟩
    · simp [v', hv.customers, hcu]
    · simpa [entriesOf, v', row] using hold
  · refine done_of_aside hk (keeps_bind (audit_keeps _ _) fun _ => ?_)
    exact tell_keeps _ _ _ _

/-- Fulfilment keeps the payment confirmed and the order paid or further. -/
private theorem fulfillOrder_done {o : OrderId} (hk : p.kind = .order) (ho : p.orderId = some o) :
    (fulfillOrder id o).Keeps fun s s' => Done w id p s → Done w id p s' := by
  -- the order's row is replaced by one that is no less far
  have hrow : ∀ (s : World) (ord ord' : Order) (h : History), s.orders.get? o = some ord →
      (ord.status = .paid ∨ ord.status = .fulfilled →
        ord'.status = .paid ∨ ord'.status = .fulfilled) →
      Done w id p s →
      Done w id p { s with orders := s.orders.modify o fun _ => ord', history := h } := by
    rintro s ord ord' h hord hst ⟨hc, he⟩
    refine ⟨hc, ?_⟩
    simp only [EffectOnce, hk] at he ⊢
    obtain ⟨o', ord₀, ho', hord₀, hfar⟩ := he
    obtain rfl : o = o' := Option.some.inj (ho.symm.trans ho')
    obtain rfl : ord₀ = ord := Option.some.inj (hord₀.symm.trans hord)
    exact ⟨o, ord', ho, by rw [Table.get?_modify_self, hord]; rfl, hst hfar⟩
  refine fulfillOrderBy_keeps (fun _ h => h) (fun s hs => ?_)
    (fun s ord hord => ?_) fun s ord e hord => ?_
  · simpa only [Done, World.Confirmed, EffectOnce, hk] using hs
  · exact hrow s ord _ _ hord fun _ => .inr rfl
  · exact hrow s ord _ _ hord fun h => h

/-- An order is paid by the first step. -/
theorem pivot_order (hv : Ready w id p v) (hw : w.Intact p) (hk : p.kind = .order) {α : Type}
    (x : α) : Prog.Pivot (Done w id p) (do applyConfirmation id p opts; pure x :
      Service α) v 1 := by
  obtain ⟨o, ord, ho, hord⟩ := hw.order hk
  simp only [applyConfirmation, hk, ho, reduceCtorEq, decide_false, Bool.false_and,
    Bool.false_eq_true, if_false, bind_assoc]
  let ord' : Order := { ord with status := .paid, paidAt := some v.now, error := none }
  let v' : World := { v with
    orders := v.orders.modify o fun _ => ord'
    history := { v.history with moved := (o, id) :: v.history.moved } }
  refine .step_bind (show _ = (Except.ok ord', v') by simp [hv.orders, hord, ord', v']) ?_ ?_
  · refine ⟨hv.confirmed, ?_⟩
    simp only [EffectOnce, hk]
    exact ⟨o, ord', ho, by simp [v', hv.orders, hord], .inl rfl⟩
  · refine keeps_bind (keeps_modify fun s hs => ?_) fun _ =>
      keeps_bind (fulfillOrder_done hk ho) fun _ => keeps_pure _
    simpa only [Done, World.Confirmed, EffectOnce, hk] using hs

/-- In every case the effect is made by the step `effectSteps`. -/
theorem pivot_effect (hv : Ready w id p v) (hw : w.Intact p) (hnew : w.NoEffect id p)
    (hamount : 0 < p.amount) {α : Type} (x : α) :
    Prog.Pivot (Done w id p) (do applyConfirmation id p opts; pure x : Service α) v
      (effectSteps p) := by
  cases hk : p.kind with
  | order => simpa only [effectSteps, hk] using pivot_order hv hw hk x
  | topup =>
      cases hc : p.customerId with
      | none => simpa only [effectSteps, hk, hc] using pivot_reseller hv hw hnew hamount hk hc x
      | some c => simpa only [effectSteps, hk, hc] using pivot_customer hv hw hnew hamount hk hc x

end Effect

/-! ## The call -/

section Call

variable {evidence : Evidence} {id : PaymentId} {opts : ConfirmOpts} {w : World} {p : Payment}

/-- The row of payment `p` after the status write. -/
def rowConfirmed (opts : ConfirmOpts) (p : Payment) (w : World) : Payment :=
  { confirmedRow p opts p with updatedAt := w.now }

/-- The world after the status write. -/
def afterStatusWrite (evidence : Evidence) (id : PaymentId) (opts : ConfirmOpts) (p : Payment)
    (w : World) : World :=
  { w with
    payments := w.payments.modify id fun _ => rowConfirmed opts p w
    history := w.history.confirm ⟨id, p, evidence⟩ }

/-- The world after an audit line. -/
def World.logged (w : World) (a : Option AdminId) (action : String) : World :=
  { w with journal := .audit a action :: w.journal }

/-- The world after the status write and its audit line. -/
def afterAudit (evidence : Evidence) (id : PaymentId) (opts : ConfirmOpts) (p : Payment)
    (w : World) : World :=
  (afterStatusWrite evidence id opts p w).logged (opts.reviewer.map Actor.id) "payment.confirm"

theorem ready_afterStatusWrite (hp : w.payments.get? id = some p) :
    Ready w id p (afterStatusWrite evidence id opts p w) :=
  ⟨⟨rowConfirmed opts p w, by simp [afterStatusWrite, hp], rfl, rfl, rfl, rfl, rfl⟩,
    rfl, rfl, rfl, rfl, rfl, rfl⟩

theorem ready_afterAudit (hp : w.payments.get? id = some p) :
    Ready w id p (afterAudit evidence id opts p w) :=
  ⟨⟨rowConfirmed opts p w, by simp [afterAudit, World.logged, afterStatusWrite, hp], rfl, rfl,
    rfl, rfl, rfl⟩, rfl, rfl, rfl, rfl, rfl, rfl⟩

/-- A confirmed payment is returned as it is. -/
theorem confirmPayment_run_confirmed (hp : w.payments.get? id = some p) (hc : p.status = .confirmed)
    (hr : (opts.reviewer.any fun a => !canReview a p) = false) :
    (confirmPayment evidence id opts).run w = (.ok p, w) := by
  simp [confirmPayment, Db.findPayment, Db.read, run_bind, hp, hr, hc]

/-- A refused call throws and leaves the world as it is. -/
theorem confirmPayment_run_refused (hp : w.payments.get? id = some p) (hc : p.status ≠ .confirmed)
    (hr : Refused p opts) : ∃ e, (confirmPayment evidence id opts).run w = (.error e, w) := by
  simp only [confirmPayment, Db.findPayment, Db.read, run_bind, run_query, hp]
  by_cases hrev : (opts.reviewer.any fun a => !canReview a p) = true
  · exact ⟨_, by rw [if_pos hrev]; rfl⟩
  · obtain ⟨he, hn⟩ := hr.resolve_left hrev
    exact ⟨_, by rw [if_neg hrev, if_neg hc, if_pos (by simp [he, hn])]; rfl⟩

/-- So it leaves the world as it is wherever it stops. -/
theorem confirmPayment_stopped_refused (hp : w.payments.get? id = some p)
    (hc : p.status ≠ .confirmed) (hr : Refused p opts) (n : ℕ) (st : Prog.Stop AppError) :
    (confirmPayment evidence id opts).stopped n st w = w := by
  simp only [confirmPayment, Db.findPayment, Db.read]
  cases n with
  | zero => exact stopped_query_bind_zero _ _ _ _ _
  | succ n =>
      simp only [stopped_query_bind_succ, hp]
      by_cases hrev : (opts.reviewer.any fun a => !canReview a p) = true
      · rw [if_pos hrev, stopped_throw]
      · obtain ⟨he, hn⟩ := hr.resolve_left hrev
        rw [if_neg hrev, if_neg hc, if_pos (by simp [he, hn]), stopped_throw]

/-- A call that is not refused writes, after the read of the row. -/
theorem confirmPayment_stopped_succ (hp : w.payments.get? id = some p) (hc : p.status ≠ .confirmed)
    (hr : ¬Refused p opts) (n : ℕ) (st : Prog.Stop AppError) :
    (confirmPayment evidence id opts).stopped (n + 1) st w =
      (writeConfirmation evidence id p opts).stopped n st w := by
  obtain ⟨hrev, hexp⟩ := not_or.mp hr
  have hexp' : ¬(p.status = .expired && opts.reviewer.isNone) = true := by
    simpa using hexp
  simp only [confirmPayment, Db.findPayment, Db.read, stopped_query_bind_succ, hp]
  rw [if_neg hrev, if_neg hc, if_neg hexp']

theorem confirmPayment_stopped_zero (st : Prog.Stop AppError) :
    (confirmPayment evidence id opts).stopped 0 st w = w := by
  simp only [confirmPayment, Db.findPayment, Db.read, stopped_query_bind_zero]

/-- What the writing part leaves when it stops after the status write. -/
theorem writeConfirmation_stopped_succ (hp : w.payments.get? id = some p) (n : ℕ)
    (st : Prog.Stop AppError) :
    (writeConfirmation evidence id p opts).stopped (n + 1) st w =
      (do
        audit (opts.reviewer.map Actor.id) "payment.confirm"
        applyConfirmation id p opts
        pure (rowConfirmed opts p w) : Service Payment).stopped n st
          (afterStatusWrite evidence id opts p w) := by
  simp only [writeConfirmation, confirmRow, Db.updatePayment, stopped_step_bind_succ, hp]
  rfl

/-- The audit line catches its exception. -/
theorem audit_stopped {α : Type} (a : Option AdminId) (action : String) (f : Unit → Service α)
    (v : World) :
    (audit a action >>= f).stopped 0 .dies v = v ∧
      (∀ e, (audit a action >>= f).stopped 0 (.throws e) v = ((f ()).run v).2) ∧
      ∀ n st, (audit a action >>= f).stopped (n + 1) st v =
        (f ()).stopped n st (v.logged a action) :=
  ⟨rfl, fun _ => rfl, fun _ _ => rfl⟩

variable (hp : w.payments.get? id = some p) (hc : p.status ≠ .confirmed) (hr : ¬Refused p opts)
include hp hc hr

/-- Before the status write nothing has happened. -/
theorem stopped_before {n : ℕ} (st : Prog.Stop AppError) (hn : n < 2) :
    (confirmPayment evidence id opts).stopped n st w = w := by
  match n, hn with
  | 0, _ => exact confirmPayment_stopped_zero st
  | 1, _ =>
      rw [confirmPayment_stopped_succ hp hc hr]
      simp only [writeConfirmation, confirmRow, Db.updatePayment, stopped_step_bind_zero]

variable (hw : w.Intact p) (hnew : w.NoEffect id p) (hamount : 0 < p.amount)
include hw hnew hamount

/-- A call that is cut off leaves the payment confirmed and nothing else. -/
theorem stopped_cutOff {n : ℕ} {st : Prog.Stop AppError} (h : CutOff p n st) :
    Ready w id p ((confirmPayment evidence id opts).stopped n st w) := by
  obtain ⟨hlo, hhi⟩ := h
  obtain ⟨n, rfl⟩ : ∃ m, n = m + 2 := ⟨n - 2, by cases st <;> dsimp only at hlo <;> omega⟩
  rw [confirmPayment_stopped_succ hp hc hr, writeConfirmation_stopped_succ hp]
  obtain ⟨hdies, -, hsucc⟩ := audit_stopped (opts.reviewer.map Actor.id) "payment.confirm"
    (fun _ => do applyConfirmation id p opts; pure (rowConfirmed opts p w))
    (afterStatusWrite evidence id opts p w)
  cases n with
  | zero =>
      cases st with
      | dies => rw [hdies]; exact ready_afterStatusWrite hp
      | throws e => dsimp only at hlo; omega
  | succ n =>
      rw [hsucc]
      have hready : Ready w id p (afterAudit evidence id opts p w) := ready_afterAudit hp
      exact ((pivot_effect hready hw hnew hamount _).before n st (by omega)).symm ▸ hready

/-- A call that gets to its effect leaves it done. -/
theorem stopped_after {n : ℕ} {st : Prog.Stop AppError} (hn : 2 ≤ n) (h : ¬CutOff p n st) :
    Done w id p ((confirmPayment evidence id opts).stopped n st w) := by
  obtain ⟨n, rfl⟩ : ∃ m, n = m + 2 := ⟨n - 2, by omega⟩
  rw [confirmPayment_stopped_succ hp hc hr, writeConfirmation_stopped_succ hp]
  obtain ⟨-, hthrows, hsucc⟩ := audit_stopped (opts.reviewer.map Actor.id) "payment.confirm"
    (fun _ => do applyConfirmation id p opts; pure (rowConfirmed opts p w))
    (afterStatusWrite evidence id opts p w)
  cases n with
  | zero =>
      cases st with
      | dies => exact absurd ⟨le_refl 2, by omega⟩ h
      | throws e =>
          rw [hthrows]
          exact (pivot_effect (ready_afterStatusWrite hp) hw hnew hamount _).run
  | succ n =>
      rw [hsucc]
      refine (pivot_effect (ready_afterAudit hp) hw hnew hamount _).after n st ?_
      by_contra hlt
      exact h ⟨by cases st <;> dsimp only <;> omega, by omega⟩

/-- A call that runs to its end leaves its effect done. -/
theorem run_done : Done w id p ((confirmPayment evidence id opts).run w).2 := by
  let n := max ((confirmPayment evidence id opts).length w) (3 + effectSteps p)
  rw [← stopped_of_length_le _ _ n .dies (Nat.le_max_left _ _)]
  have hn : 3 + effectSteps p ≤ n := Nat.le_max_right _ _
  exact stopped_after hp hc hr hw hnew hamount (by omega) fun h => absurd h.2 (by omega)

end Call

/-! ## Calling again -/

section Again

variable {evidence : Evidence} {id : PaymentId} {opts : ConfirmOpts} {w w' : World} {p : Payment}

/-- Once the payment is confirmed, calls change nothing. -/
theorem Retried.of_confirmed (h : Retried evidence id opts w w') (hc : w.Confirmed id) :
    w' = w := by
  have hrun : ∀ {w : World}, w.Confirmed id → ((confirmPayment evidence id opts).run w).2 = w := by
    rintro w ⟨q, hq, hqs⟩
    by_cases hr : (opts.reviewer.any fun a => !canReview a q) = true
    · simp [confirmPayment, Db.findPayment, Db.read, run_bind, hq, hr]
    · rw [confirmPayment_run_confirmed hq hqs (by simpa using hr)]
  induction h with
  | returns hret =>
      have := hrun hc
      rw [hret] at this
      exact this
  | throws _ _ ih =>
      rw [hrun hc] at ih
      exact ih hc

/-- A refused payment is never confirmed by calling again. -/
theorem Retried.not_refused (h : Retried evidence id opts w w') (hp : w.payments.get? id = some p)
    (hc : p.status ≠ .confirmed) : ¬Refused p opts := by
  intro hr
  induction h with
  | returns hret =>
      obtain ⟨e, he⟩ := confirmPayment_run_refused hp hc hr
      rw [he] at hret
      cases hret
  | throws _ _ ih =>
      obtain ⟨e, he⟩ := confirmPayment_run_refused hp hc hr
      rw [he] at ih
      exact ih hp

/-- Whatever the number of calls, they leave the effect done once. -/
theorem Retried.done (h : Retried evidence id opts w w') (hp : w.payments.get? id = some p)
    (hc : p.status ≠ .confirmed) (hr : ¬Refused p opts) (hw : w.Intact p) (hnew : w.NoEffect id p)
    (hamount : 0 < p.amount) : Done w id p w' := by
  have hdone : Done w id p ((confirmPayment evidence id opts).run w).2 :=
    run_done hp hc hr hw hnew hamount
  cases h with
  | returns hret => rw [hret] at hdone; exact hdone
  | throws _ hrest => rw [hrest.of_confirmed hdone.1]; exact hdone

/-- Without its effect a payment is not done. -/
theorem Ready.not_done {v : World} (hv : Ready w id p v) (hnew : w.NoEffect id p) :
    ¬EffectOnce w id p v := by
  intro he
  cases hk : p.kind with
  | topup =>
      cases hcust : p.customerId with
      | none =>
          simp only [EffectOnce, hk, hcust, hv.walletTxs, hnew.walletTxs] at he
          obtain ⟨_, _, _, _, _, hnil, _⟩ := he
          cases hnil
      | some c =>
          simp only [EffectOnce, hk, hcust, hv.customerTxs, hnew.customerTxs] at he
          obtain ⟨_, _, _, _, _, hnil, _⟩ := he
          cases hnil
  | order =>
      simp only [EffectOnce, hk, hv.orders] at he
      obtain ⟨o, ord, ho, hord, hst⟩ := he
      obtain ⟨hpaid, hful⟩ := hnew.order o ord ho hord
      exact hst.elim hpaid hful

/-- For an open payment, calling `confirmPayment` again until a call returns normally leaves the
payment confirmed with its effect present once, if and only if the call that stopped was refused or
was not cut off between its status write and its effect. -/
theorem confirm_again_iff (hp : w.payments.get? id = some p) (hc : p.status ≠ .confirmed)
    (hw : w.Intact p) (hnew : w.NoEffect id p) (hamount : 0 < p.amount) (n : ℕ)
    (st : Prog.Stop AppError) :
    (∀ w', Retried evidence id opts ((confirmPayment evidence id opts).stopped n st w) w' →
      w'.Confirmed id ∧ EffectOnce w id p w') ↔ (Refused p opts ∨ ¬CutOff p n st) := by
  constructor
  · intro h
    by_contra hcon
    obtain ⟨hr, hcut⟩ := not_or.mp hcon
    have hv : Ready w id p ((confirmPayment evidence id opts).stopped n st w) :=
      stopped_cutOff hp hc hr hw hnew hamount (not_not.mp hcut)
    obtain ⟨q, hq, hqs, hqk, hqc, hqa, -⟩ := hv.row
    -- the next call finds the payment confirmed and returns it
    have hrev : (opts.reviewer.any fun a => !canReview a q) = false := by
      have := (not_or.mp hr).1
      simpa only [canReview, hqk, hqc, hqa, Bool.not_eq_true] using this
    exact hv.not_done hnew (h _ (.returns (confirmPayment_run_confirmed hq hqs hrev))).2
  · rintro h w' hret
    by_cases hr : Refused p opts
    · rw [confirmPayment_stopped_refused hp hc hr] at hret
      exact absurd hr (hret.not_refused hp hc)
    · have hcut := h.resolve_left hr
      by_cases hn : n < 2
      · rw [stopped_before hp hc hr st hn] at hret
        exact hret.done hp hc hr hw hnew hamount
      · have hdone : Done w id p ((confirmPayment evidence id opts).stopped n st w) :=
          stopped_after hp hc hr hw hnew hamount (by omega) hcut
        rw [hret.of_confirmed hdone.1]
        exact hdone

end Again

/-! ## A lost charge

The owner confirms the top-up of `reviewWorld`, and the process dies after the status write.
-/

/-- The options of the owner's review. -/
def ownerReview : ConfirmOpts := ⟨some ⟨1, .owner⟩, none, none⟩

/-- The call that died after its second step is followed by one that returns at once, and the wallet
of the reseller is never charged. -/
theorem confirm_again_loses_charge :
    ¬∀ n st w', Retried (.review ⟨1, .owner⟩) 7 ownerReview
        ((confirmPayment (.review ⟨1, .owner⟩) 7 ownerReview).stopped n st reviewWorld) w' →
      w'.Confirmed 7 ∧ EffectOnce reviewWorld 7 reviewedTopup w' := by
  intro h
  obtain ⟨-, _, _, row, _, _, hrow, _⟩ := h 2 .dies _ (.returns rfl)
  have hnil : ([] : List (WalletTx AdminId)) = [row] := hrow
  cases hnil

/-- A call of the same review that died after its fifth step is not cut off, and has done its work.
-/
theorem confirm_again_iff_charged : ¬CutOff reviewedTopup 5 .dies ∧
    ∀ w', Retried (.review ⟨1, .owner⟩) 7 ownerReview
        ((confirmPayment (.review ⟨1, .owner⟩) 7 ownerReview).stopped 5 .dies reviewWorld) w' →
      w'.Confirmed 7 ∧ EffectOnce reviewWorld 7 reviewedTopup w' := by
  have hcut : ¬CutOff reviewedTopup 5 .dies := fun h => absurd h.2 (by decide)
  refine ⟨hcut, (@confirm_again_iff _ _ _ _ reviewedTopup rfl (by decide) ?_ ?_
    (by decide) 5 .dies).mpr (.inr hcut)⟩
  · exact ⟨⟨_, rfl⟩, fun _ h => (nomatch h), fun h => (nomatch h)⟩
  · exact ⟨rfl, rfl, fun _ _ h => (nomatch h)⟩

end SRPanel
