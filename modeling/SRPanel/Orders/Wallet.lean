import SRPanel.Orders.Frame
import SRPanel.Confirm.Once

/-!
# The money of a wallet order

The debit of a customer wallet, the status of the order and the refund are writes of different
services. The module proves that after every call, whichever of its database calls failed, the
wallet rows of an order come to minus its amount while the order is paid or fulfilled, and to zero
otherwise, provided that three particular writes and reads do not fail and that the seller does not
overrule a wallet order: `cancelOrder` does not know how an order was paid, and gives nothing back.

In the middle of a purchase the rows are off by the amount; the offset is a parameter of the
invariant.
-/

namespace SRPanel

open Interleaving Interleaving.Serial

/-! ## The property and its conditions -/

/-- The sum of the customer wallet rows of an order. -/
def World.walletSum (w : World) (id : OrderId) : ℤ :=
  ((w.customerTxs.filter fun t => t.ref = .order id).map WalletTx.amount).sum

/-- The order has a payment from a customer wallet. -/
def World.walletPaid (w : World) (id : OrderId) : Prop :=
  ∃ pid p, w.payments.get? pid = some p ∧ p.method = .wallet ∧ p.orderId = some id

instance (w : World) (id : OrderId) : Decidable (w.walletPaid id) :=
  decidable_of_iff (∃ r ∈ w.payments.rows, r.2.method = .wallet ∧ r.2.orderId = some id) <| by
    constructor
    · rintro ⟨⟨pid, p⟩, hr, h⟩
      exact ⟨pid, p, (Table.mem_rows_iff _ _ _).mp hr, h⟩
    · rintro ⟨pid, p, hp, h⟩
      exact ⟨(pid, p), (Table.mem_rows_iff _ _ _).mpr hp, h⟩

/-- What the wallet rows of the order have to come to. -/
def Order.walletShare (o : Order) : ℤ :=
  if o.status = .paid ∨ o.status = .fulfilled then -o.amount else 0

/-- The steps that may fail: all but the order update of a wallet order, the refund, and the look at
the payment after a failed confirmation while the order is neither paid nor fulfilled. -/
def MayFail : Stmt → World → Prop
  | .pay id, w => ¬w.walletPaid id
  | .credit _ _ .refund (.order _) _, _ => False
  | .lookBack pid, w => ∀ p ∈ w.payments.get? pid, ∀ id ∈ p.orderId, ∀ o ∈ w.orders.get? id,
      o.status = .paid ∨ o.status = .fulfilled
  | _, _ => True

/-- A call on orders that customers pay from their wallets. -/
inductive WalletCall
  /-- `createOrder` with the method `WALLET` -/
  | place (x : Proc) (s : StoreSettings) (input : NewOrder)
  | fulfill (orderId : OrderId)
  | retry (actor : Actor) (orderId : OrderId)
  | cancel (actor : Actor) (orderId : OrderId)

/-- The procedure of a call. -/
def WalletCall.prog : WalletCall → Service Unit
  | place x s input => (createOrder x s { input with method := .wallet }).void
  | fulfill orderId => (fulfillAgain orderId).void
  | retry actor orderId => (retryFulfill actor orderId).void
  | cancel actor orderId => (cancelOrder actor orderId).void

/-- The admin may decide about the order. -/
def Order.ruledBy (o : Order) (actor : Actor) : Prop := actor.role = .owner ∨ o.adminId = actor.id

/-- No wallet order is confirmed by hand while it waits, and none is canceled once it is paid. -/
def WalletCall.respectful : WalletCall → World → Prop
  | retry actor id, w => ∀ o ∈ w.orders.get? id, o.ruledBy actor → o.status = .pending →
  ¬w.walletPaid id
  | cancel actor id, w => ∀ o ∈ w.orders.get? id, o.ruledBy actor → o.status = .paid →
  ¬w.walletPaid id
  | _, _ => True

/-! ## The invariant -/

/-- The wallet rows of order `id` are off by `δ`. -/
structure Balanced (id : OrderId) (δ : ℤ) (w : World) : Prop where
  keyed : ∀ o, w.orders.get? id = some o → id < w.nextId
  paymentsKeyed : ∀ pid p, w.payments.get? pid = some p → pid < w.nextId
  absent : w.orders.get? id = none → ¬w.walletPaid id
  unpaid : ¬w.walletPaid id → w.walletSum id = δ
  paid : w.walletPaid id → ∀ o, w.orders.get? id = some o → w.walletSum id = o.walletShare + δ

/-- How a payment is paid, and for which order. -/
def Payment.bill (p : Payment) : PaymentMethod × Option OrderId := (p.method, p.orderId)

section Invariant

variable {id oid : OrderId} {δ : ℤ} {w w' : World}

theorem walletPaid_congr (h : ∀ pid, (w'.payments.get? pid).map Payment.bill =
    (w.payments.get? pid).map Payment.bill) (id : OrderId) : w'.walletPaid id ↔
    w.walletPaid id := by
  have aux : ∀ {v v' : World}, (∀ pid, (v'.payments.get? pid).map Payment.bill =
      (v.payments.get? pid).map Payment.bill) → v'.walletPaid id → v.walletPaid id := by
    rintro v v' h ⟨pid, p', hp', hm, ho⟩
    have hbill := h pid
    rw [hp', Option.map_some] at hbill
    obtain ⟨p, hp, hb⟩ := Option.map_eq_some_iff.mp hbill.symm
    rw [Payment.bill, Payment.bill, Prod.mk.injEq] at hb
    exact ⟨pid, p, hp, hb.1.trans hm, hb.2.trans ho⟩
  exact ⟨aux h, aux fun pid => (h pid).symm⟩

/-- A change that leaves the order's share, the bills and the rows of the order as they are. -/
theorem Balanced.frame (h : Balanced id δ w) (hnext : w.nextId ≤ w'.nextId)
    (hshare : (w'.orders.get? id).map Order.walletShare = (w.orders.get? id).map Order.walletShare)
    (hpay : ∀ pid, (w'.payments.get? pid).map Payment.bill = (w.payments.get? pid).map Payment.bill)
    (hsum : w'.walletSum id = w.walletSum id) : Balanced id δ w' where
  keyed o' ho' := by
    rw [ho', Option.map_some] at hshare
    obtain ⟨o, ho, -⟩ := Option.map_eq_some_iff.mp hshare.symm
    exact lt_of_lt_of_le (h.keyed o ho) hnext
  paymentsKeyed pid p' hp' := by
    have hbill := hpay pid
    rw [hp', Option.map_some] at hbill
    obtain ⟨p, hp, -⟩ := Option.map_eq_some_iff.mp hbill.symm
    exact lt_of_lt_of_le (h.paymentsKeyed pid p hp) hnext
  absent hnone := by
    rw [walletPaid_congr hpay]
    refine h.absent ?_
    simpa [hnone] using hshare
  unpaid hno := by
    rw [hsum]
    exact h.unpaid fun hp => hno ((walletPaid_congr hpay id).mpr hp)
  paid hp o' ho' := by
    rw [ho', Option.map_some] at hshare
    obtain ⟨o, ho, hs⟩ := Option.map_eq_some_iff.mp hshare.symm
    rw [hsum, h.paid ((walletPaid_congr hpay id).mp hp) o ho, hs]

/-- An order that stands keeps its share. -/
theorem Order.Stands.walletShare {o o' : Order} (h : o.Stands o') (hterms : o'.terms = o.terms) :
    o'.walletShare = o.walletShare := by
  have hamount : o'.amount = o.amount := congrArg (fun t => t.2.2) hterms
  rw [Order.walletShare, Order.walletShare, hamount]
  rcases h with hs | ⟨hs, hs'⟩
  · rw [hs]
  · simp [hs, hs']

theorem Aside.walletShare (h : Aside w w') (id : OrderId) :
    (w'.orders.get? id).map Order.walletShare = (w.orders.get? id).map Order.walletShare := by
  have hterms := h.orders id
  cases ho : w.orders.get? id with
  | none =>
      rw [ho, Option.map_none, Option.map_eq_none_iff] at hterms
      rw [hterms]
  | some o =>
      obtain ⟨o', ho', hs⟩ := h.standing id o ho
      rw [ho, ho', Option.map_some, Option.map_some, Option.some.injEq] at hterms
      rw [ho', Option.map_some, Option.map_some, hs.walletShare hterms]

theorem Balanced.aside (h : Balanced id δ w) (ha : Aside w w') : Balanced id δ w' :=
  h.frame ha.nextId.ge (ha.walletShare id) (fun pid => by rw [ha.payments])
    (by rw [World.walletSum, ha.customerTxs, World.walletSum])

/-- The rows of an order after a new row. -/
theorem walletSum_cons (t : WalletTx CustomerId) (oid : OrderId) (ht : t.ref = .order oid)
    (htxs : w'.customerTxs = t :: w.customerTxs) :
    w'.walletSum id = w.walletSum id + if oid = id then t.amount else 0 := by
  rw [World.walletSum, World.walletSum, htxs, List.filter_cons, ht]
  by_cases hid : oid = id
  · simp [hid, add_comm]
  · simp [hid]

/-- A new row moves the offset. -/
theorem Balanced.row (h : Balanced id δ w) {t : WalletTx CustomerId} (ht : t.ref = .order oid)
    (htxs : w'.customerTxs = t :: w.customerTxs) (hnext : w'.nextId = w.nextId)
    (horders : w'.orders = w.orders) (hpay : w'.payments = w.payments) :
    Balanced id (δ + if oid = id then t.amount else 0) w' := by
  have hsum : w'.walletSum id = w.walletSum id + if oid = id then t.amount else 0 :=
    walletSum_cons t oid ht htxs
  have hpaid : w'.walletPaid id ↔ w.walletPaid id := walletPaid_congr (fun pid => by rw [hpay]) id
  refine ⟨fun o ho => ?_, fun pid p hp => ?_, fun hnone => ?_, fun hno => ?_, fun hp o ho => ?_⟩
  · rw [hnext]
    exact h.keyed o (horders ▸ ho)
  · rw [hnext]
    exact h.paymentsKeyed pid p (hpay ▸ hp)
  · rw [hpaid]
    exact h.absent (horders ▸ hnone)
  · rw [hsum, h.unpaid fun hp => hno (hpaid.mpr hp)]
  · rw [hsum, h.paid (hpaid.mp hp) o (horders ▸ ho), add_assoc]

/-- A write to order `oid` moves the offset against the change of its share. -/
theorem Balanced.move {δ' : ℤ} (h : Balanced id δ w) {o o' : Order}
    (ho : w.orders.get? oid = some o) (hnext : w'.nextId = w.nextId)
    (horders : w'.orders = w.orders.modify oid fun _ => o')
    (hpay : w'.payments = w.payments) (htxs : w'.customerTxs = w.customerTxs)
    (hshare : oid = id → w.walletPaid id → o'.walletShare + δ' = o.walletShare + δ)
    (hother : ¬(oid = id ∧ w.walletPaid id) → δ' = δ) : Balanced id δ' w' := by
  have hpaid : w'.walletPaid id ↔ w.walletPaid id := walletPaid_congr (fun pid => by rw [hpay]) id
  have hsum : w'.walletSum id = w.walletSum id := by rw [World.walletSum, htxs, World.walletSum]
  have hget : ∀ q', w'.orders.get? id = some q' → ∃ q, w.orders.get? id = some q ∧
      (w.walletPaid id → q'.walletShare + δ' = q.walletShare + δ) := by
    intro q' hq'
    rw [horders] at hq'
    by_cases hid : id = oid
    · subst hid
      rw [Table.get?_modify_self, ho] at hq'
      obtain rfl := Option.some.inj hq'
      exact ⟨o, ho, hshare rfl⟩
    · rw [Table.get?_modify_of_ne _ _ hid] at hq'
      exact ⟨q', hq', fun _ => by rw [hother fun h => hid h.1.symm]⟩
  refine ⟨fun q' hq' => ?_, fun pid p hp => ?_, fun hnone => ?_, fun hno => ?_, fun hp q' hq' => ?_⟩
  · obtain ⟨q, hq, -⟩ := hget q' hq'
    rw [hnext]
    exact h.keyed q hq
  · rw [hnext]
    exact h.paymentsKeyed pid p (hpay ▸ hp)
  · rw [hpaid]
    refine h.absent ?_
    by_contra hsome
    obtain ⟨q, hq⟩ := Option.ne_none_iff_exists'.mp hsome
    rw [horders, Table.get?_modify, hq] at hnone
    split at hnone <;> cases hnone
  · have hno' : ¬w.walletPaid id := fun hp => hno (hpaid.mpr hp)
    rw [hsum, h.unpaid hno', hother fun h => hno' h.2]
  · obtain ⟨q, hq, hs⟩ := hget q' hq'
    have hp' := hpaid.mp hp
    rw [hsum, h.paid hp' q hq, hs hp']

/-- A write to order `oid` that keeps its share, if it is a wallet order. -/
theorem Balanced.update (h : Balanced id δ w) {o o' : Order} (ho : w.orders.get? oid = some o)
    (hnext : w'.nextId = w.nextId) (horders : w'.orders = w.orders.modify oid fun _ => o')
    (hpay : w'.payments = w.payments) (htxs : w'.customerTxs = w.customerTxs)
    (hshare : oid = id → w.walletPaid id → o'.walletShare = o.walletShare) : Balanced id δ w' :=
  h.move ho hnext horders hpay htxs (fun hid hp => by rw [hshare hid hp]) fun _ => rfl

/-- A payment from the wallet for an order whose share is zero. -/
theorem Balanced.bill (h : Balanced id 0 w) {p : Payment}
    (horder : p.orderId = some oid) {o : Order} (ho : w.orders.get? oid = some o)
    (hshare : o.walletShare = 0)
    (hfirst : oid = id → ¬w.walletPaid id) (hpay : w'.payments = w.payments.set w.nextId p)
    (hnext : w'.nextId = w.nextId + 1) (horders : w'.orders = w.orders)
    (htxs : w'.customerTxs = w.customerTxs) : Balanced id 0 w' := by
  have hsum : w'.walletSum id = w.walletSum id := by rw [World.walletSum, htxs, World.walletSum]
  have hpaid : w'.walletPaid id → w.walletPaid id ∨ oid = id := by
    rintro ⟨pid, q, hq, hm, hb⟩
    rw [hpay, Table.get?_set] at hq
    split at hq
    · obtain rfl := Option.some.inj hq
      exact .inr (Option.some.inj (horder.symm.trans hb))
    · exact .inl ⟨pid, q, hq, hm, hb⟩
  have hpaid' : w.walletPaid id → w'.walletPaid id := by
    rintro ⟨pid, q, hq, hb⟩
    exact ⟨pid, q, by rw [hpay, Table.get?_set_of_ne _ _ (h.paymentsKeyed pid q hq).ne, hq], hb⟩
  refine ⟨fun q hq => ?_, fun pid q hq => ?_, fun hnone => ?_, fun hno => ?_, fun hp q hq => ?_⟩
  · rw [hnext]
    exact (h.keyed q (horders ▸ hq)).trans (Nat.lt_succ_self _)
  · rw [hnext]
    rw [hpay, Table.get?_set] at hq
    split at hq
    · next hid => exact hid ▸ Nat.lt_succ_self _
    · exact (h.paymentsKeyed pid q hq).trans (Nat.lt_succ_self _)
  · intro hp
    rw [horders] at hnone
    rcases hpaid hp with hp | rfl
    · exact h.absent hnone hp
    · rw [ho] at hnone
      cases hnone
  · rw [hsum, h.unpaid fun hp => hno (hpaid' hp)]
  · rw [horders] at hq
    rcases hpaid hp with hp | rfl
    · rw [hsum, h.paid hp q hq]
    · obtain rfl := Option.some.inj (ho.symm.trans hq)
      rw [hsum, h.unpaid (hfirst rfl), hshare, add_zero]

/-- A new order. -/
theorem Balanced.place (h : Balanced id 0 w) (o : Order) :
    Balanced id 0 { w with orders := w.orders.set w.nextId o, nextId := w.nextId + 1 } := by
  refine ⟨fun q hq => ?_, fun pid q hq => (h.paymentsKeyed pid q hq).trans (Nat.lt_succ_self _),
    fun hnone => ?_, h.unpaid, fun hp q hq => ?_⟩
  · rw [Table.get?_set] at hq
    split at hq
    · next hid => exact hid ▸ Nat.lt_succ_self _
    · exact (h.keyed q hq).trans (Nat.lt_succ_self _)
  · rw [Table.get?_set] at hnone
    split at hnone
    · cases hnone
    · exact h.absent hnone
  · rw [Table.get?_set] at hq
    split at hq
    · next hid =>
        refine absurd hp (h.absent ?_)
        cases hget : w.orders.get? id with
        | none => rfl
        | some q' => exact absurd (h.keyed q' hget) (hid ▸ lt_irrefl _)
    · exact h.paid hp q hq

end Invariant

/-! ## The calls -/

section Calls

variable {α : Type} {id oid : OrderId} {pid : PaymentId} {cid : CustomerId} {a δ : ℤ} {w : World}

/-- From the world `w` the procedure ensures the outcome, whichever of the steps fail that may. -/
abbrev Survives (Q : α → World → Prop) (E : AppError → World → Prop) (p : Service α)
    (w : World) : Prop :=
  Ensures (fun _ _ => True) MayFail Q E p w

private theorem survives_aside {P : World → Prop} {p : Service α} (hp : p.Keeps Aside)
    (hP : ∀ w w', Aside w w' → P w → P w') (h : P w) : Survives (fun _ => P) (fun _ => P) p w :=
  ensures_of_keeps hp hP h

private theorem aside_balanced {p : Service α} (hp : p.Keeps Aside) (h : Balanced id δ w) :
    Survives (fun _ => Balanced id δ) (fun _ => Balanced id δ) p w :=
  survives_aside hp (fun _ _ ha h => h.aside ha) h

/-- A write to a payment that keeps its bill. -/
private theorem Balanced.payment (h : Balanced id δ w) {i : PaymentId} {p p' : Payment}
    {hist : History} (hp : w.payments.get? i = some p) (hb : p'.bill = p.bill) :
    Balanced id δ { w with payments := w.payments.modify i fun _ => p', history := hist } :=
  h.frame le_rfl rfl (w.payments.map_get?_modify Payment.bill hp hb) rfl

theorem fulfillOrderBy_balanced {N : World → Prop} {start : History → History} (orderId : OrderId)
    (hN : ∀ w w', w'.payments = w.payments → N w → N w') (h : Balanced id δ w ∧ N w) :
    Survives (fun _ w => Balanced id δ w ∧ N w) (fun _ w => Balanced id δ w ∧ N w)
      (fulfillOrderBy start orderId) w := by
  refine fulfillOrderBy_ensures orderId (fun w h => ?_)
    (fun w o ho hpaid h => ?_) (fun w o e ho h => ?_) h
  · exact ⟨h.1.frame le_rfl rfl (fun _ => rfl) rfl, hN w _ rfl h.2⟩
  · refine ⟨h.1.update ho rfl rfl rfl rfl fun _ _ => ?_, hN w _ rfl h.2⟩
    simp [Order.walletShare, hpaid]
  · exact ⟨h.1.update ho rfl rfl rfl rfl fun _ _ => rfl, hN w _ rfl h.2⟩

private theorem fulfillAgain_balanced (orderId : OrderId) (h : Balanced id δ w) :
    Survives (fun _ => Balanced id δ) (fun _ => Balanced id δ) (fulfillAgain orderId) w :=
  ensures_mono (fulfillOrderBy_balanced (N := fun _ => True) orderId
    (fun _ _ _ h => h) ⟨h, trivial⟩) (fun _ _ h => h.1) fun _ _ h => h.1

/-! ### The purchase -/

/-- The order of a purchase, which has no share yet. -/
def Waiting (oid : OrderId) (a : ℤ) (w : World) : Prop :=
  ∃ o, w.orders.get? oid = some o ∧ o.walletShare = 0 ∧ o.amount = a

/-- The payment of a purchase, which is not confirmed yet. -/
def Unconfirmed (oid : OrderId) (pid : PaymentId) (w : World) : Prop :=
  ∃ p, w.payments.get? pid = some p ∧ p.kind = .order ∧ p.method = .wallet ∧ p.orderId = some oid ∧
    p.status ≠ .confirmed

/-- A purchase between the debit and the confirmation: the rows of its order are off by the amount.
-/
structure Debited (id oid : OrderId) (a : ℤ) (pid : PaymentId) (cid : CustomerId)
    (w : World) : Prop where
  balanced : Balanced id (if oid = id then -a else 0) w
  waiting : Waiting oid a w
  unconfirmed : Unconfirmed oid pid w
  buyer : ∃ c, w.customers.get? cid = some c

theorem Waiting.aside {w' : World} (h : Waiting oid a w) (ha : Aside w w') : Waiting oid a w' := by
  obtain ⟨o, ho, hs, hamount⟩ := h
  obtain ⟨o', ho', hstand⟩ := ha.standing oid o ho
  have hterms := ha.orders oid
  rw [ho, ho', Option.map_some, Option.map_some, Option.some.injEq] at hterms
  exact ⟨o', ho', (hstand.walletShare hterms).trans hs,
    (congrArg (fun t => t.2.2) hterms).trans hamount⟩

/-- Giving up a purchase whose money is where it was. -/
private theorem abandon_balanced (payment : PaymentId × Payment) (msg : String)
    (h : Balanced id 0 w ∧ Waiting oid a w) :
    Survives (fun _ => Balanced id 0) (fun _ => Balanced id 0) (abandon payment oid msg) w := by
  refine ensures_bind (P := fun _ v => Balanced id 0 v ∧ Waiting oid a v)
    (ensures_step (fun _ => ?_) fun _ _ => h.1) fun _ w h => ?_
  · cases hp : w.payments.get? payment.1 with
    | none => exact ⟨fun _ h => (by cases h), fun _ _ => h.1⟩
    | some p => exact ⟨fun _ _ => ⟨h.1.payment hp rfl, h.2⟩, fun _ h => by cases h⟩
  · refine ensures_bind (ensures_step (fun _ => ?_) fun _ _ => h.1) fun _ _ h => ensures_pure h
    obtain ⟨o, ho, hs, -⟩ := h.2
    simp only [ho]
    refine ⟨fun _ _ => h.1.update ho rfl rfl rfl rfl fun _ _ => ?_, fun _ h => by cases h⟩
    rw [hs]
    simp [Order.walletShare]

private theorem debitCustomerWallet_balanced (h : Balanced id 0 w) (hw : Waiting oid a w)
    (hu : Unconfirmed oid pid w) :
    Survives (fun _ => Debited id oid a pid cid) (fun _ v => Balanced id 0 v ∧ Waiting oid a v)
      (debitCustomerWallet cid a .purchase (.order oid)) w := by
  refine ensures_ite (fun _ => ensures_throw ⟨h, hw⟩) fun _ => ?_
  refine ensures_bind (P := fun _ v => w = v) (ensures_query (fun _ => rfl) fun _ _ => ⟨h, hw⟩) ?_
  rintro current _ rfl
  cases current with
  | none => exact ensures_throw ⟨h, hw⟩
  | some c =>
      refine ensures_ite (fun _ => ensures_throw ⟨h, hw⟩) fun _ =>
        ensures_step (fun _ => ?_) fun _ _ => ⟨h, hw⟩
      cases hc : w.customers.get? cid with
      | none => exact ⟨fun _ h => (nomatch h), fun _ _ => ⟨h, hw⟩⟩
      | some c =>
          refine ⟨fun _ _ => ⟨?_, hw, hu, ?_⟩, fun _ h => nomatch h⟩
          · have hrow : Balanced id (0 + if oid = id then -a else 0) { w with
                customers := w.customers.modify cid fun c => { c with credit := c.credit - a }
                customerTxs := ⟨cid, .purchase, -a, c.credit - a, .order oid, none⟩ ::
                  w.customerTxs } :=
              h.row (t := ⟨cid, .purchase, -a, c.credit - a, .order oid, none⟩) rfl rfl rfl rfl rfl
            rwa [zero_add] at hrow
          · exact ⟨_, by rw [Table.get?_modify_self, hc]; rfl⟩

/-- The confirmation of a purchase either settles it, or leaves it unconfirmed. -/
theorem confirmPurchase_balanced (h : Debited id oid a pid cid w) (evidence : Evidence) :
    Survives (fun _ v => Balanced id 0 v ∧ v.isConfirmed pid)
      (fun _ v => Debited id oid a pid cid v ∨ Balanced id 0 v ∧ v.isConfirmed pid)
      (confirmPayment evidence pid (.auto none none)) w := by
  refine ensures_bind (P := fun found v => Debited id oid a pid cid v ∧ found = v.payments.get? pid)
    (ensures_query (fun _ => ⟨h, rfl⟩) fun _ _ => .inl h) fun found w h => ?_
  obtain ⟨h, hfound⟩ := h
  obtain ⟨p, hp, hkind, hmethod, horder, hs⟩ := h.unconfirmed
  obtain rfl : found = some p := hfound.trans hp
  refine ensures_ite (fun _ => ensures_throw (.inl h)) fun _ => ensures_ite (fun hc => absurd hc hs)
    fun _ => ensures_ite (fun _ => ensures_throw (.inl h)) fun _ => ?_
  -- the status write; from here on the payment is confirmed
  refine ensures_bind (P := fun _ v => Balanced id (if oid = id then -a else 0) v ∧
      Waiting oid a v ∧ v.walletPaid oid ∧ v.isConfirmed pid) (ensures_step (fun _ => ?_) fun _ _ =>
        .inl h) fun _ w hw => ?_
  · simp only [hp]
    refine ⟨fun _ _ => ⟨h.balanced.payment hp rfl, h.waiting, ?_, ?_⟩, fun _ h => by cases h⟩
    · refine (walletPaid_congr (w.payments.map_get?_modify Payment.bill hp ?_) oid).mpr
        ⟨pid, p, hp, hmethod, horder⟩
      rfl
    · simp [World.isConfirmed, Table.get?_modify_self, hp, confirmedRow]
  · have hmessage : Survives (fun _ v => Balanced id (if oid = id then -a else 0) v ∧
        Waiting oid a v ∧ v.walletPaid oid ∧ v.isConfirmed pid) (fun _ _ => False)
        (audit ((ConfirmOpts.auto none none).reviewer.map Actor.id) "payment.confirm") w :=
      ensures_attempt (survives_aside (journal_keeps _) (fun w w' ha h =>
        ⟨h.1.aside ha, h.2.1.aside ha,
          (walletPaid_congr (fun pid => by rw [ha.payments]) oid).mpr h.2.2.1, by
          rw [World.isConfirmed, ha.payments]; exact h.2.2.2⟩) hw) fun _ _ h => ensures_pure h
    refine ensures_bind (ensures_mono hmessage (fun _ _ h => h) fun _ _ h => h.elim) fun _ w hw =>
      ?_
    obtain ⟨hb, ⟨o, ho, hshare, hamount⟩, hpaid, hc⟩ := hw
    refine ensures_bind (P := fun _ v => Balanced id 0 v ∧ v.isConfirmed pid) ?_ fun _ _ h =>
      ensures_pure h
    simp only [applyConfirmation, hkind, horder, reduceCtorEq, decide_false, Bool.false_and,
      Bool.false_eq_true, if_false]
    refine ensures_bind (P := fun _ v => Balanced id 0 v ∧ v.isConfirmed pid)
      (ensures_step (fun _ => ?_) fun _ hf => absurd hpaid hf) fun _ w h => ?_
    · simp only [ho]
      refine ⟨fun _ _ => ⟨hb.move ho rfl rfl rfl rfl (fun hid _ => ?_) fun hid => ?_, hc⟩,
        fun _ h => by cases h⟩
      · rw [hshare]
        simp [Order.walletShare, hid, hamount]
      · rw [if_neg]
        rintro rfl
        exact hid ⟨rfl, hpaid⟩
    · have hN : ∀ w w' : World, w'.payments = w.payments → w.isConfirmed pid →
      w'.isConfirmed pid := by
        intro w w' hp hc
        rwa [World.isConfirmed, hp]
      refine ensures_bind (ensures_mono (survives_aside (emitEvent_keeps _ _)
        (fun w w' ha h => ⟨h.1.aside ha, hN w w' ha.payments h.2⟩) h)
          (fun _ _ h => h) fun _ _ h => .inr h)
        fun _ w h => ?_
      exact ensures_bind (ensures_mono (fulfillOrderBy_balanced oid hN h) (fun _ _ h => h)
        fun _ _ h => .inr h) fun _ _ h => ensures_pure h

/-- After an error the money is given back, unless the payment was confirmed. -/
theorem recoverPurchase_balanced (ha : 0 < a) (payment : PaymentId × Payment) (sellerId : AdminId)
    (err : AppError)
    (h : Debited id oid a payment.1 cid w ∨ Balanced id 0 w ∧ w.isConfirmed payment.1) :
    Survives (fun _ => Balanced id 0) (fun _ => Balanced id 0)
      (recoverPurchase payment oid a cid sellerId err) w := by
  rcases h with h | ⟨h, hc⟩
  · obtain ⟨p, hp, -, -, horder, hs⟩ := h.unconfirmed
    obtain ⟨o, ho, hshare, hamount⟩ := h.waiting
    have hopen : ¬(o.status = .paid ∨ o.status = .fulfilled) := by
      intro hst
      rw [Order.walletShare, if_pos hst, hamount] at hshare
      omega
    refine ensures_bind (P := fun current v => w = v ∧ current = some p)
      (ensures_query (fun _ => ⟨rfl, hp⟩) fun _ hf => absurd (hf p hp oid horder o ho) hopen) ?_
    rintro _ _ ⟨rfl, rfl⟩
    refine ensures_ite (fun _ => ?_) fun hany => absurd (by simp [hs]) hany
    refine ensures_bind (P := fun _ v => Balanced id 0 v ∧ Waiting oid a v) ?_ fun _ w h =>
      ensures_bind (abandon_balanced payment err.message h) fun _ w h =>
        ensures_bind (aside_balanced (audit_keeps _ _) h) fun _ _ h => ensures_throw h
    -- the refund cannot fail
    refine ensures_attempt (H := fun _ _ => False) ?_ fun _ _ h => h.elim
    refine ensures_bind (P := fun _ v => Balanced id 0 v ∧ Waiting oid a v)
      (ensures_ite (fun hle => absurd ha (not_lt.mpr hle)) fun _ => ensures_step (fun _ => ?_)
        fun _ hf => hf.elim) fun _ _ h => ensures_pure h
    obtain ⟨c, hcust⟩ := h.buyer
    simp only [hcust]
    refine ⟨fun _ _ => ⟨?_, ⟨o, ho, hshare, hamount⟩⟩, fun _ h => by cases h⟩
    have hrow : Balanced id ((if oid = id then -a else 0) + if oid = id then a else 0) { w with
        customers := w.customers.modify cid fun c => { c with credit := c.credit + a }
        customerTxs := ⟨cid, .refund, a, c.credit + a, .order oid, none⟩ :: w.customerTxs } :=
      h.balanced.row (t := ⟨cid, .refund, a, c.credit + a, .order oid, none⟩) rfl rfl rfl rfl rfl
    have hzero : ((if oid = id then -a else 0) + if oid = id then a else 0 : ℤ) = 0 := by
      split <;> simp
    rwa [hzero] at hrow
  · refine ensures_bind (P := fun current v => w = v ∧ current = w.payments.get? payment.1)
      (ensures_query (fun _ => ⟨rfl, rfl⟩) fun _ _ => h) ?_
    rintro _ _ ⟨rfl, rfl⟩
    refine ensures_ite (fun hany => ?_) fun _ =>
      ensures_bind (aside_balanced (read_keeps _) h) fun _ _ h => ensures_pure h
    cases hp : w.payments.get? payment.1 with
    | none => simp [hp] at hany
    | some p =>
        simp only [World.isConfirmed, hp, Option.any_some, decide_eq_true_eq] at hc
        simp [hp, hc] at hany

theorem payOrderWithWallet_balanced (ha : 0 < a) (sellerId : AdminId) (h : Balanced id 0 w)
    (hw : Waiting oid a w) (hfirst : oid = id → ¬w.walletPaid id) :
    Survives (fun _ => Balanced id 0)
      (fun _ => Balanced id 0) (payOrderWithWallet oid a cid sellerId) w := by
  refine ensures_bind (P := fun payment v => Balanced id 0 v ∧ Waiting oid a v ∧
    Unconfirmed oid payment.1 v) (ensures_step (fun _ => ⟨?_, fun _ h => nomatch h⟩) fun _ _ => h)
    fun payment w h => ?_
  · rintro _ ⟨⟩
    obtain ⟨o, ho, hshare, hamount⟩ := hw
    refine ⟨h.bill rfl ho hshare hfirst rfl rfl rfl rfl, ⟨o, ho, hshare, hamount⟩, _,
      Table.get?_set_self _ _ _, rfl, rfl, rfl, by simp [walletPayment, newPayment]⟩
  · obtain ⟨h, hw, hu⟩ := h
    refine ensures_bind (P := fun _ => Debited id oid a payment.1 cid)
      (ensures_attempt (ensures_bind (debitCustomerWallet_balanced h hw hu) fun _ _ h =>
        ensures_pure h) fun err w h => ?_) fun _ w h => ?_
    · exact ensures_bind (abandon_balanced payment err.message h) fun _ _ h => ensures_throw h
    · refine ensures_attempt ?_ fun err w h => recoverPurchase_balanced ha payment sellerId err h
      refine ensures_bind (confirmPurchase_balanced h _) fun _ w h => ?_
      refine ensures_mono (P := fun _ v => Balanced id 0 v ∧ v.isConfirmed payment.1)
        (H := fun _ v => Balanced id 0 v ∧ v.isConfirmed payment.1) ?_
          (fun _ _ h => h.1) fun _ _ h => .inr h
      refine survives_aside (Prog.keeps_bind (read_keeps _) fun _ =>
        notify_keeps _) (fun w w' ha h => ?_) h
      exact ⟨h.1.aside ha, by rw [World.isConfirmed, ha.payments]; exact h.2⟩

/-! ### The calls of the shop and of the seller -/

private theorem createOrder_balanced (x : Proc) (s : StoreSettings) (input : NewOrder)
    (hmethod : input.method = .wallet) (h : Balanced id 0 w) :
    Survives (fun _ => Balanced id 0) (fun _ => Balanced id 0) (createOrder x s input) w := by
  refine ensures_bind (aside_balanced (signedIn_keeps input) h) fun account w h => ?_
  dsimp only
  refine ensures_bind (P := fun buyer v => Balanced id 0 v ∧ (0 < input.amount → buyer.isSome)) ?_
    fun buyer w h => ?_
  · refine ensures_ite (fun _ => ?_) fun hno => ?_
    · cases walletBuyer s account input with
      | error e => exact ensures_throw h
      | ok id => exact ensures_pure ⟨h, fun _ => rfl⟩
    · have hfree : ¬0 < input.amount := by simpa [hmethod] using hno
      exact ensures_ite (fun _ => ensures_throw h) fun _ =>
        ensures_pure ⟨h, fun hpos => absurd hpos hfree⟩
  obtain ⟨h, hbuyer⟩ := h
  -- the order is placed under a new id, so no payment has paid it
  refine ensures_bind (P := fun oid v => Balanced id 0 v ∧ (0 < input.amount →
    Waiting oid input.amount v ∧ (oid = id → ¬v.walletPaid id)))
    (ensures_step (fun _ => ⟨?_, fun _ h => nomatch h⟩) fun _ _ => h) fun oid w h => ?_
  · rintro _ ⟨⟩
    refine ⟨h.place _, fun hpos => ⟨⟨_, Table.get?_set_self _ _ _, ?_, rfl⟩, fun hid hpaid => ?_⟩⟩
    · simp [Order.walletShare, not_le.mpr hpos]
    · refine h.absent ?_ hpaid
      cases hget : w.orders.get? id with
      | none => rfl
      | some o => exact absurd (h.keyed o hget) (hid ▸ lt_irrefl _)
  -- messages come between the order and its payment
  have told : ∀ {q : Service Unit} {w}, q.Keeps Aside → (Balanced id 0 w ∧ (0 < input.amount →
      Waiting oid input.amount w ∧ (oid = id → ¬w.walletPaid id))) →
      Survives (fun _ v => Balanced id 0 v ∧ (0 < input.amount →
        Waiting oid input.amount v ∧ (oid = id → ¬v.walletPaid id)))
          (fun _ => Balanced id 0) q w := by
    intro q w hq h
    refine ensures_mono (survives_aside hq (fun w w' ha h => ⟨h.1.aside ha, fun hpos => ?_⟩) h)
      (fun _ _ h => h) fun _ _ h => h.1
    refine ⟨(h.2 hpos).1.aside ha, fun hid hpaid => (h.2 hpos).2 hid ?_⟩
    exact (walletPaid_congr (fun pid => by rw [ha.payments]) id).mp hpaid
  refine ensures_bind (told (audit_keeps _ _) h) fun _ w h => ?_
  refine ensures_bind (told (emitEvent_keeps _ _) h) fun _ w h => ?_
  refine ensures_ite (fun _ => ensures_bind (fulfillAgain_balanced oid h.1) fun _ _ h =>
    ensures_pure h) fun hpos => ?_
  rw [not_le] at hpos
  obtain ⟨customerId, rfl⟩ := Option.isSome_iff_exists.mp (hbuyer hpos)
  obtain ⟨hw, hfirst⟩ := h.2 hpos
  exact ensures_bind (payOrderWithWallet_balanced hpos _ h.1 hw hfirst) fun _ _ h => ensures_pure h

/-- A write to an order that is no wallet order, or that keeps the order's share. -/
private theorem updateOrder_balanced {f : Time → Order → Order} (h : Balanced id 0 w)
    (hf : ∀ o, w.orders.get? oid = some o → w.walletPaid oid →
      (f w.now o).walletShare = o.walletShare) :
    Survives (fun _ => Balanced id 0) (fun _ => Balanced id 0) (updateOrder oid f) w := by
  refine ensures_step (fun _ => ?_) fun _ _ => h
  cases ho : w.orders.get? oid with
  | none => exact ⟨fun _ h => (nomatch h), fun _ _ => h⟩
  | some o =>
      refine ⟨fun _ _ => h.update ho rfl rfl rfl rfl fun hid hp => ?_, fun _ h => nomatch h⟩
      exact hf o ho (hid ▸ hp)

private theorem closePayments_bill {f : Payment → Payment} (hf : ∀ p, (f p).bill = p.bill)
    (pid : PaymentId) :
    ((w.payments.mapRows fun _ p =>
      if p.orderId = some oid ∧ (p.status = .pending ∨ p.status = .review) then
        { f p with updatedAt := w.now }
      else p).get? pid).map Payment.bill = (w.payments.get? pid).map Payment.bill := by
  rw [Table.get?_mapRows, Option.map_map]
  refine congrArg (fun g => Option.map g _) (funext fun p => ?_)
  dsimp only [Function.comp]
  split
  · exact hf p
  · rfl

private theorem closePayments_balanced {f : Payment → Payment} (hf : ∀ p, (f p).bill = p.bill)
    {N : World → Prop} (hN : ∀ w w' : World, w'.orders = w.orders →
      (w'.walletPaid oid ↔ w.walletPaid oid) → N w → N w') (h : Balanced id 0 w ∧ N w) :
    Survives (fun _ v => Balanced id 0 v ∧ N v) (fun _ v => Balanced id 0 v ∧ N v)
      (closePayments oid f) w := by
  refine ensures_step (fun _ => ⟨fun _ _ => ⟨?_, ?_⟩, fun _ h => nomatch h⟩) fun _ _ => h
  · exact h.1.frame le_rfl rfl (closePayments_bill hf) rfl
  · exact hN w _ rfl (walletPaid_congr (closePayments_bill hf) oid) h.2

theorem WalletCall.balanced (call : WalletCall) (h : Balanced id 0 w) (hcall : call.respectful w) :
    Survives (fun _ => Balanced id 0) (fun _ => Balanced id 0) call.prog w := by
  cases call with
  | place x s input => exact ensures_void (createOrder_balanced x s _ rfl h)
  | fulfill oid => exact ensures_void (fulfillAgain_balanced oid h)
  | retry actor oid =>
      refine ensures_void (ensures_bind (P := fun order v => w = v ∧ order = w.orders.get? oid)
        (ensures_query (fun _ => ⟨rfl, rfl⟩) fun _ _ => h) ?_)
      rintro order _ ⟨rfl, horder⟩
      cases order with
      | none => exact ensures_throw h
      | some order =>
          refine ensures_ite (fun _ => ensures_throw h) fun hrole => ensures_bind
            (P := fun _ => Balanced id 0) (ensures_ite (fun hpending => ?_) fun _ => ensures_pure h)
            fun _ _ h => fulfillAgain_balanced oid h
          have hruled : order.ruledBy actor := by
            simp only [Bool.and_eq_true, decide_eq_true_eq, not_and, not_not] at hrole
            exact or_iff_not_imp_left.mpr hrole
          have hno := hcall order horder.symm hruled hpending
          refine ensures_bind (updateOrder_balanced h fun _ _ hp => absurd hp hno) fun _ w h => ?_
          refine ensures_bind (ensures_mono (closePayments_balanced (N := fun _ => True)
            (fun _ => by rfl) (fun _ _ _ _ h => h) ⟨h, trivial⟩)
              (fun _ _ h => h.1) fun _ _ h => h.1)
            fun _ w h => ?_
          exact aside_balanced (audit_keeps _ _) h
  | cancel actor oid =>
      refine ensures_void (ensures_bind (P := fun order v => w = v ∧ order = w.orders.get? oid)
        (ensures_query (fun _ => ⟨rfl, rfl⟩) fun _ _ => h) ?_)
      rintro order _ ⟨rfl, horder⟩
      cases order with
      | none => exact ensures_throw h
      | some order =>
          refine ensures_ite (fun _ => ensures_throw h) fun hrole =>
            ensures_ite (fun _ => ensures_throw h) fun hful => ?_
          have hruled : order.ruledBy actor := by
            simp only [Bool.and_eq_true, decide_eq_true_eq, not_and, not_not] at hrole
            exact or_iff_not_imp_left.mpr hrole
          -- a wallet order that may be canceled has no share
          have hzero : ∀ o, w.orders.get? oid = some o → w.walletPaid oid → o.walletShare = 0 := by
            intro o ho hp
            obtain rfl : order = o := Option.some.inj (horder.trans ho)
            have hnot : order.status ≠ .paid := fun hs => hcall order ho hruled hs hp
            simp [Order.walletShare, hnot, hful]
          refine ensures_bind (ensures_mono (closePayments_balanced
            (N := fun v => ∀ o, v.orders.get? oid = some o → v.walletPaid oid → o.walletShare = 0)
            (fun _ => by rfl)
              (fun w w' ho hp hz o hget hpaid => hz o (ho ▸ hget) (hp.mp hpaid)) ⟨h, hzero⟩)
            (fun _ _ h => h) fun _ _ h => h.1) fun _ w h => ?_
          refine ensures_bind (updateOrder_balanced h.1 fun o ho hp => ?_) fun o w h => ?_
          · rw [h.2 o ho hp]
            simp [Order.walletShare]
          · refine ensures_bind (aside_balanced (audit_keeps _ _) h) fun _ w h => ?_
            exact ensures_bind (aside_balanced (emitEvent_keeps _ _) h) fun _ _ h => ensures_pure h

end Calls

/-! ## Runs -/

/-- What happens between the calls: no order changes its share, no payment its bill, and the wallet
rows of orders stay. -/
structure Interim (w w' : World) : Prop where
  nextId : w.nextId ≤ w'.nextId
  shares : ∀ id, (w'.orders.get? id).map Order.walletShare =
    (w.orders.get? id).map Order.walletShare
  bills : ∀ pid, (w'.payments.get? pid).map Payment.bill = (w.payments.get? pid).map Payment.bill
  rows : ∀ id, w'.walletSum id = w.walletSum id

/-- After every run of the calls, any of whose database calls may fail that `MayFail` lets, the
wallet rows of a wallet order come to minus its amount if it is paid or fulfilled, and to zero if it
is not. -/
theorem wallet_follows_order {w₀ w : World} (hstart : ∀ id, Balanced id 0 w₀)
    (hrun : Trials WalletCall.prog Interim (fun _ _ => True) MayFail WalletCall.respectful w₀ w)
    {id : OrderId} {o : Order} (ho : w.orders.get? id = some o) (hpaid : w.walletPaid id) :
    w.walletSum id = if o.status = .paid ∨ o.status = .fulfilled then -o.amount else 0 := by
  have h : Balanced id 0 w := Trials.invariant hrun (hstart id)
    (fun call _ h hcall => call.balanced h hcall) fun _ _ h hm =>
      h.frame hm.nextId (hm.shares id) hm.bills (hm.rows id)
  rw [h.paid hpaid o ho, add_zero, Order.walletShare]

/-! ## A paid order that is canceled

Customer 5 buys for 50000 toman from the wallet while the servers of the seller do not answer, so
the order stays paid, and the seller cancels it.
-/

/-- The shop and the customer. -/
def walletWorld : World :=
  { World.blank with
    admins := .ofRows [(1, ⟨.owner, 0, 0⟩), (2, ⟨.admin, 0, 0⟩)]
    customers := .ofRows [(5, ⟨2, 60000⟩)]
    outside := { Outside.silent with provisioning := fun _ => some "timeout" } }

/-- The purchase. -/
def walletPurchase : WalletCall :=
  .place .web (StoreSettings.blank 2) ⟨"token", 2, 50000, .wallet, none, some 5, true⟩

/-- The status of an order and the sum of its wallet rows. -/
def orderBalance (w : World) (id : OrderId) : Option OrderStatus × ℤ :=
  ((w.orders.get? id).map Order.status, w.walletSum id)

/-- The order update of a confirmation. -/
def isPay : Stmt → Bool
  | .pay _ => true
  | _ => false

/-- The money of a canceled order stays with the seller, and so does the money of an order whose
update to `paid` fails. -/
theorem canceled_order_keeps_money :
    (∃ w, Trials WalletCall.prog Interim (fun _ _ => True) (fun _ _ => True) (fun _ _ => True)
        walletWorld w ∧ w.walletPaid 100 ∧ orderBalance w 100 = (some .canceled, -50000)) ∧
      ∃ w, Trials WalletCall.prog Interim (fun _ _ => True) (fun _ _ => True) (fun _ _ => True)
        walletWorld w ∧ w.walletPaid 100 ∧ orderBalance w 100 = (some .pending, -50000) := by
  refine ⟨⟨_, calls_trials_free Interim [walletPurchase, .cancel ⟨2, .admin⟩ 100] _, by decide,
    by decide⟩, ?_⟩
  exact ⟨_, .single (.call walletPurchase trivial (.runFailing isPay recordNotFound _ _)), by
    decide, by decide⟩

theorem walletWorld_balanced (id : OrderId) : Balanced id 0 walletWorld where
  keyed _ h := nomatch h
  paymentsKeyed _ _ h := nomatch h
  absent _ := by rintro ⟨_, _, h, -⟩; cases h
  unpaid _ := rfl
  paid := by rintro ⟨_, _, h, -⟩; cases h

/-- The panel after the purchase, when the servers of the seller answer again. -/
def servedWorld : World :=
  { (walletPurchase.prog.run walletWorld).2 with outside := Outside.silent }

/-- The seller's retry of the paid order. -/
def walletRetry : WalletCall := .retry ⟨2, .admin⟩ 100

/-- A retry of the purchase that was left paid delivers it, and the order costs its amount once. -/
theorem wallet_follows_order_retried :
    ∃ w : World, w.walletPaid 100 ∧ (w.orders.get? 100).map Order.status = some .fulfilled ∧
      w.walletSum 100 = -50000 := by
  have hretry : walletRetry.respectful servedWorld := by
    intro o ho _ hpending
    obtain rfl : _ = o := Option.some.inj ho
    cases hpending
  have hserved : Interim (walletPurchase.prog.run walletWorld).2 servedWorld :=
    ⟨le_rfl, fun _ => rfl, fun _ => rfl, fun _ => rfl⟩
  have hrun : Trials WalletCall.prog Interim (fun _ _ => True) MayFail WalletCall.respectful
      walletWorld (walletRetry.prog.run servedWorld).2 :=
    .head (.call walletPurchase trivial (.run_free _ _)) (.head (.env hserved)
      (.single (.call walletRetry hretry (.run_free _ servedWorld))))
  obtain ⟨o, ho, hs, hamount⟩ : ∃ o ∈ (walletRetry.prog.run servedWorld).2.orders.get? 100,
      o.status = .fulfilled ∧ o.amount = 50000 := by decide
  have hpaid : (walletRetry.prog.run servedWorld).2.walletPaid 100 := by decide
  have hsum := wallet_follows_order walletWorld_balanced hrun ho hpaid
  rw [if_pos (.inr hs), hamount] at hsum
  exact ⟨_, hpaid, by rw [ho, Option.map_some, hs], hsum⟩

end SRPanel
