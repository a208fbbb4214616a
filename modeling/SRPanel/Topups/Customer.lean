import SRPanel.Calls.Walk
import SRPanel.Confirm.Retry
import SRPanel.Deposits.Once
import Mathlib.Algebra.Order.Group.Multiset

/-!
# Customer top-ups reach the customer

`createCustomerTopup` starts a payment and tags it with the customer in a second write; a
confirmation decides from the tag of the copy that it has read which wallet it credits, and writes
the ledger row some steps after the status. The module proves that in every interleaving that keeps
three orders (the tag before the first confirmation, the confirmation's copy as the row is tagged,
one credit at a time) a confirmed top-up of a customer has credited that customer exactly once, with
the bonus of the shop, and no admin.

The invariant is about one payment. A confirmation that has written the status owes the credit, and
the ghost value is the multiset of these duties.
-/

namespace SRPanel

open Interleaving Prog

/-! ## The order of the steps -/

/-- The payment has been confirmed at some time. -/
def World.everConfirmed (w : World) (id : PaymentId) : Prop :=
  ∃ c ∈ w.history.confirmations, c.payment = id

instance (w : World) (id : PaymentId) : Decidable (w.everConfirmed id) :=
  inferInstanceAs (Decidable (∃ c ∈ w.history.confirmations, _))

/-- The payment is a customer's top-up that has become `confirmed` and has not been credited. -/
def World.awaitsCredit (w : World) (id : PaymentId) (p : Payment) : Prop :=
  p.kind = .topup ∧ p.customerId.isSome ∧ p.status = .confirmed ∧ entriesOf w.customerTxs id = []

instance (w : World) (id : PaymentId) (p : Payment) : Decidable (w.awaitsCredit id p) :=
  inferInstanceAs (Decidable (_ ∧ _ ∧ _ ∧ _))

/-- A payment is tagged before it is first confirmed, a verdict goes by a copy that describes the
payment as the row does, no other status is written over a verdict whose credit is still to come,
and no other credit for a payment commits between the look-up of a settlement and its own credit. -/
def TaggedFirst : Stmt → World → Prop
  | .tag id, w => ¬w.everConfirmed id
  | .update columns rows, w => ∀ r ∈ rows, ∀ q, w.payments.get? r.1 = some q →
      (columns.any Column.isVerdict → r.2.deal = q.deal) ∧
      (.status ∈ columns → ¬columns.any Column.isVerdict → ¬w.awaitsCredit r.1 q)
  | .credit _ _ _ (.payment id) seen, w => (w.customerTxs.find? fun t => t.ref = .payment id) = seen
  | _, _ => True

instance (l : Stmt) (w : World) : Decidable (TaggedFirst l w) :=
  match l with
  | .tag id => inferInstanceAs (Decidable (¬w.everConfirmed id))
  | .update columns rows =>
      inferInstanceAs (Decidable (∀ r ∈ rows, ∀ q ∈ w.payments.get? r.1,
        (columns.any Column.isVerdict → r.2.deal = q.deal) ∧
        (.status ∈ columns → ¬columns.any Column.isVerdict → ¬w.awaitsCredit r.1 q)))
  | .credit _ _ _ (.payment id) seen =>
      inferInstanceAs (Decidable ((w.customerTxs.find? fun t => t.ref = .payment id) = seen))
  | .credit _ _ _ (.order _) _ => isTrue trivial
  | .credit _ _ _ (.client _) _ => isTrue trivial
  | .credit _ _ _ (.other _ _) _ => isTrue trivial
  | .other => isTrue trivial
  | .callback _ _ _ => isTrue trivial
  | .called _ _ => isTrue trivial
  | .receive _ _ _ => isTrue trivial
  | .look _ _ _ _ => isTrue trivial
  | .release _ _ _ => isTrue trivial
  | .saveBook _ _ => isTrue trivial
  | .pay _ => isTrue trivial
  | .lookBack _ => isTrue trivial
  | .readPlugins _ => isTrue trivial
  | .savePlugins _ => isTrue trivial

/-! ## The invariant -/

/-- What a top-up of `p` brings the customer: its amount and the bonus of the shop. -/
def World.topupValue (w : World) (p : Payment) : ℤ :=
  p.amount + topupBonus (w.shops.get? p.adminId) p.amount

/-- The payment `p` is a top-up of customer `c`. -/
def Payment.toppedUpBy (p : Payment) (c : CustomerId) : Prop :=
  p.kind = .topup ∧ p.customerId = some c

/-- The rows credit customer `c` with the top-up `p`, at most once. -/
def World.Credits (w : World) (p : Payment) (c : CustomerId)
    (rows : List (WalletTx CustomerId)) : Prop :=
  rows = [] ∨ ∃ t, rows = [t] ∧ t.holder = c ∧ t.amount = w.topupValue p

/-- What a confirmation owes after its status write. -/
inductive Duty
  | seller
  | customer (id : CustomerId) (seller : AdminId) (amount : ℤ)
  deriving DecidableEq

/-- What a confirmation of `p` owes. -/
def Payment.duty (p : Payment) : Option Duty :=
  match p.kind, p.customerId with
  | .order, _ => none
  | .topup, none => some .seller
  | .topup, some c => some (.customer c p.adminId p.amount)

theorem Payment.duty_eq_customer {p : Payment} {c : CustomerId} {a : AdminId} {x : ℤ} :
    p.duty = some (.customer c a x) ↔ p.toppedUpBy c ∧ p.adminId = a ∧ p.amount = x := by
  unfold duty toppedUpBy
  split <;> simp_all

theorem Payment.duty_eq_seller {p : Payment} :
    p.duty = some .seller ↔ p.kind = .topup ∧ p.customerId = none := by
  unfold duty
  split <;> simp_all

theorem Payment.duty_of_top {p : Payment} {c : CustomerId} (h : p.toppedUpBy c) :
    p.duty = some (.customer c p.adminId p.amount) := duty_eq_customer.mpr ⟨h, rfl, rfl⟩

theorem Payment.duty_of_deal {p q : Payment} (h : p.deal = q.deal) : p.duty = q.duty := by
  simp only [deal, Prod.mk.injEq] at h
  obtain ⟨hkind, hcustomer, hadmin, hamount⟩ := h
  rw [duty, duty, hkind, hcustomer, hadmin, hamount]

/-- The duties of a confirmation of `p`, right after its status write. -/
def Payment.duties (p : Payment) : Multiset Duty :=
  match p.duty with
  | none => 0
  | some d => {d}

theorem Payment.mem_duties {p : Payment} {d : Duty} : d ∈ p.duties ↔ p.duty = some d := by
  unfold duties
  cases p.duty with
  | none => simp
  | some e => rw [Multiset.mem_singleton, Option.some.injEq, eq_comm]

/-- The state of payment `id` while confirmations in progress owe the duties `g`. -/
structure TopupOwed (id : PaymentId) (w : World) (g : Multiset Duty) : Prop where
  absent : w.payments.get? id = none →
    g = 0 ∧ entriesOf w.walletTxs id = [] ∧ entriesOf w.customerTxs id = [] ∧ ¬w.everConfirmed id
  keyed : ∀ p, w.payments.get? id = some p → id < w.nextId
  positive : ∀ p, w.payments.get? id = some p → 0 < p.amount
  recorded : w.isConfirmed id → w.everConfirmed id
  owed : ∀ p, w.payments.get? id = some p → ∀ d ∈ g, p.duty = some d
  untouched : ∀ p, w.payments.get? id = some p → ¬w.everConfirmed id →
    g = 0 ∧ entriesOf w.walletTxs id = [] ∧ entriesOf w.customerTxs id = []
  exists_customer : ∀ p c, w.payments.get? id = some p → p.toppedUpBy c →
    ∃ r, w.customers.get? c = some r
  no_admin : ∀ p c, w.payments.get? id = some p → p.toppedUpBy c → entriesOf w.walletTxs id = []
  rows : ∀ p c, w.payments.get? id = some p → p.toppedUpBy c →
    w.Credits p c (entriesOf w.customerTxs id)
  held : ∀ p c, w.payments.get? id = some p → p.toppedUpBy c → w.everConfirmed id →
    entriesOf w.customerTxs id = [] → p.status = .confirmed
  credited : ∀ p c, w.payments.get? id = some p → p.toppedUpBy c → w.everConfirmed id →
    g = 0 → entriesOf w.customerTxs id ≠ []

/-- A change that leaves payment `id` and its effects alone. -/
structure Apart (id : PaymentId) (w w' : World) : Prop where
  nextId : w.nextId ≤ w'.nextId
  payment : w'.payments.get? id = w.payments.get? id
  walletTxs : entriesOf w'.walletTxs id = entriesOf w.walletTxs id
  customerTxs : entriesOf w'.customerTxs id = entriesOf w.customerTxs id
  everConfirmed : w'.everConfirmed id ↔ w.everConfirmed id
  customers : ∀ c r, w.customers.get? c = some r → ∃ r', w'.customers.get? c = some r'
  bonus : ∀ a, (w'.shops.get? a).map StoreSettings.topupBonusPct =
    (w.shops.get? a).map StoreSettings.topupBonusPct

theorem Apart.refl (id : PaymentId) (w : World) : Apart id w w :=
  ⟨le_rfl, rfl, rfl, rfl, Iff.rfl, fun _ r h => ⟨r, h⟩, fun _ => rfl⟩

theorem Quiet.apart {w w' : World} (id : PaymentId) (h : Quiet w w') : Apart id w w' where
  nextId := h.nextId
  payment := by rw [h.payments]
  walletTxs := by rw [h.walletTxs]
  customerTxs := by rw [h.customerTxs]
  everConfirmed := by rw [World.everConfirmed, h.history.confirmations, World.everConfirmed]
  customers c r hr := ⟨r, by rw [h.customers, hr]⟩
  bonus a := by rw [h.shops]

section Invariant

variable {id : PaymentId} {w w' : World} {g : Multiset Duty}

theorem topupValue_of_bonus (h : ∀ a, (w'.shops.get? a).map StoreSettings.topupBonusPct =
    (w.shops.get? a).map StoreSettings.topupBonusPct) (p : Payment) :
    w'.topupValue p = w.topupValue p := by
  simp only [World.topupValue, topupBonus, h]

/-- The row changes in its status and notes only, is not confirmed by that, and stays confirmed
while its credit is still to come. -/
theorem TopupOwed.row (h : TopupOwed id w g) {p p' : Payment} (hp : w.payments.get? id = some p)
    (hp' : w'.payments.get? id = some p') (hdeal : p'.deal = p.deal)
    (hstatus : p'.status = .confirmed → p.status = .confirmed)
    (hheld : w.awaitsCredit id p → p'.status = .confirmed)
    (hnext : w.nextId ≤ w'.nextId) (hwallet : entriesOf w'.walletTxs id = entriesOf w.walletTxs id)
    (hcustomer : entriesOf w'.customerTxs id = entriesOf w.customerTxs id)
    (hever : w'.everConfirmed id ↔ w.everConfirmed id)
    (hcustomers : ∀ c r, w.customers.get? c = some r → ∃ r', w'.customers.get? c = some r')
    (hbonus : ∀ a, (w'.shops.get? a).map StoreSettings.topupBonusPct =
      (w.shops.get? a).map StoreSettings.topupBonusPct) : TopupOwed id w' g := by
  have hdeal' := hdeal
  simp only [Payment.deal, Prod.mk.injEq] at hdeal'
  obtain ⟨hkind, hcust, hadmin, hamount⟩ := hdeal'
  have htop : ∀ c, p'.toppedUpBy c → p.toppedUpBy c := by
    intro c hc
    rwa [Payment.toppedUpBy, ← hkind, ← hcust]
  have hvalue : w'.topupValue p' = w.topupValue p := by
    rw [topupValue_of_bonus hbonus, World.topupValue, hadmin, hamount, World.topupValue]
  have only : ∀ q, w'.payments.get? id = some q → q = p' := fun q hq =>
    Option.some.inj (hq.symm.trans hp')
  -- field by field: the row is as before but for its status, which `hheld` keeps
  refine ⟨fun h => ?_, fun q _ => ?_, fun q hq => ?_, fun hc => ?_, fun q hq d hd => ?_,
    fun q _ hne => ?_, fun q c hq hc => ?_, fun q c hq hc => ?_, fun q c hq hc => ?_,
    fun q c hq hc he hnil => ?_,
    fun q c hq hc he hg => ?_⟩
  · rw [hp'] at h
    cases h
  · exact lt_of_lt_of_le (h.keyed p hp) hnext
  · rw [only q hq, hamount]
    exact h.positive p hp
  · refine hever.mpr (h.recorded ?_)
    simp only [World.isConfirmed, hp', Option.any_some, decide_eq_true_eq] at hc
    simp [World.isConfirmed, hp, hstatus hc]
  · rw [only q hq, Payment.duty_of_deal hdeal]
    exact h.owed p hp d hd
  · rw [hwallet, hcustomer]
    exact h.untouched p hp fun he => hne (hever.mpr he)
  · obtain ⟨r, hr⟩ := h.exists_customer p c hp (htop c (only q hq ▸ hc))
    exact hcustomers c r hr
  · rw [hwallet]
    exact h.no_admin p c hp (htop c (only q hq ▸ hc))
  · rw [hcustomer, World.Credits, only q hq, hvalue]
    exact h.rows p c hp (htop c (only q hq ▸ hc))
  · rw [hcustomer] at hnil
    have hc' := htop c (only q hq ▸ hc)
    rw [only q hq]
    exact hheld ⟨hc'.1, by rw [hc'.2]; rfl, h.held p c hp hc' (hever.mp he) hnil, hnil⟩
  · rw [hcustomer]
    exact h.credited p c hp (htop c (only q hq ▸ hc)) (hever.mp he) hg

theorem TopupOwed.apart (h : TopupOwed id w g) (ha : Apart id w w') : TopupOwed id w' g := by
  cases hp : w.payments.get? id with
  | some p =>
      exact h.row hp (ha.payment.trans hp) rfl (fun h => h) (fun h =>
        h.2.2.1) ha.nextId ha.walletTxs ha.customerTxs ha.everConfirmed ha.customers ha.bonus
  | none =>
      have hp' : w'.payments.get? id = none := ha.payment.trans hp
      have hno : ∀ q, w'.payments.get? id ≠ some q := fun q hq => by rw [hp'] at hq; cases hq
      obtain ⟨hg, hwallet, hcustomer, hever⟩ := h.absent hp
      refine ⟨fun _ => ⟨hg, ?_, ?_, ?_⟩, fun q hq => absurd hq (hno q), fun q hq =>
        absurd hq (hno q), fun hc => ?_, fun q hq => absurd hq (hno q), fun q hq =>
          absurd hq (hno q),
        fun q _ hq => absurd hq (hno q), fun q _ hq => absurd hq (hno q), fun q _ hq =>
          absurd hq (hno q),
        fun q _ hq => absurd hq (hno q), fun q _ hq => absurd hq (hno q)⟩
      · rw [ha.walletTxs, hwallet]
      · rw [ha.customerTxs, hcustomer]
      · exact fun he => hever (ha.everConfirmed.mp he)
      · simp [World.isConfirmed, hp'] at hc

/-- The row is confirmed by a copy that describes it as it is, which earns the duties of the copy.
-/
theorem TopupOwed.confirm (h : TopupOwed id w g) {p q q' : Payment}
    (hq : w.payments.get? id = some q) (hq' : w'.payments.get? id = some q')
    (hcopy : p.deal = q.deal) (hdeal : q'.deal = q.deal)
    (hstatus : q'.status = .confirmed) (hnext : w'.nextId = w.nextId)
    (hshops : w'.shops = w.shops) (hcustomers : w'.customers = w.customers)
    (hwallet : w'.walletTxs = w.walletTxs) (hcustomer : w'.customerTxs = w.customerTxs)
    (hever : w'.everConfirmed id) : TopupOwed id w' (p.duties + g) := by
  have only : ∀ r, w'.payments.get? id = some r → r = q' :=
    fun r hr => Option.some.inj (hr.symm.trans hq')
  have hdeal' := hdeal
  simp only [Payment.deal, Prod.mk.injEq] at hdeal'
  obtain ⟨hkind, hcust, hadmin, hamount⟩ := hdeal'
  have htop : ∀ c r, w'.payments.get? id = some r → r.toppedUpBy c → q.toppedUpBy c := by
    intro c r hr hc
    rw [only r hr] at hc
    rwa [Payment.toppedUpBy, ← hkind, ← hcust]
  have hvalue : w'.topupValue q' = w.topupValue q := by
    rw [World.topupValue, World.topupValue, hshops, hadmin, hamount]
  -- field by field; the copy has the duties of the row, as both have one deal
  refine ⟨fun h => ?_, fun r _ => ?_, fun r hr => ?_, fun _ => hever, fun r hr d hd => ?_,
    fun _ _ hne => absurd hever hne, fun r c hr hc => ?_, fun r c hr hc => ?_, fun r c hr hc => ?_,
    fun r c hr _ _ _ => ?_, fun r c hr hc _ hg => ?_⟩
  · rw [hq'] at h
    cases h
  · rw [hnext]
    exact h.keyed q hq
  · rw [only r hr, hamount]
    exact h.positive q hq
  · rw [only r hr, Payment.duty_of_deal hdeal]
    rcases Multiset.mem_add.mp hd with hd | hd
    · rw [← Payment.duty_of_deal hcopy]
      exact Payment.mem_duties.mp hd
    · exact h.owed q hq d hd
  · rw [hcustomers]
    exact h.exists_customer q c hq (htop c r hr hc)
  · rw [hwallet]
    exact h.no_admin q c hq (htop c r hr hc)
  · rw [hcustomer, World.Credits, only r hr, hvalue]
    exact h.rows q c hq (htop c r hr hc)
  · rw [only r hr, hstatus]
  -- a customer's top-up has a duty, so the ghost value is not empty
  · have hduty := Payment.duty_of_top (htop c r hr hc)
    rw [← Payment.duty_of_deal hcopy] at hduty
    have hzero : p.duties = 0 := Multiset.le_zero.mp (hg ▸ Multiset.le_add_right _ _)
    have hmem := Payment.mem_duties.mpr hduty
    rw [hzero] at hmem
    exact absurd hmem (Multiset.notMem_zero _)

/-- A new payment that is open and belongs to no customer. -/
theorem TopupOwed.create (h : TopupOwed id w g) (hid : w.nextId ≤ id) {p : Payment}
    (hp : w'.payments.get? id = some p) (hnext : id < w'.nextId) (hpos : 0 < p.amount)
    (hopen : p.status ≠ .confirmed) (hcust : p.customerId = none)
    (hwallet : w'.walletTxs = w.walletTxs) (hcustomer : w'.customerTxs = w.customerTxs) :
    TopupOwed id w' g := by
  have habsent : w.payments.get? id = none := by
    cases hq : w.payments.get? id with
    | none => rfl
    | some q => exact absurd (h.keyed q hq) (not_lt.mpr hid)
  obtain ⟨rfl, hnil, hnil', -⟩ := h.absent habsent
  have only : ∀ r, w'.payments.get? id = some r → r = p :=
    fun r hr => Option.some.inj (hr.symm.trans hp)
  have hno : ∀ r c, w'.payments.get? id = some r → ¬r.toppedUpBy c := by
    intro r c hr hc
    rw [only r hr] at hc
    rw [hc.2] at hcust
    cases hcust
  refine ⟨fun h => ?_, fun _ _ => hnext, fun r hr => only r hr ▸ hpos, fun hc => ?_,
    fun _ _ d hd => absurd hd (Multiset.notMem_zero d), fun _ _ _ => ?_,
    fun r c hr hc => absurd hc (hno r c hr), fun r c hr hc => absurd hc (hno r c hr),
    fun r c hr hc => absurd hc (hno r c hr), fun r c hr hc => absurd hc (hno r c hr),
    fun r c hr hc => absurd hc (hno r c hr)⟩
  · rw [hp] at h
    cases h
  · simp [World.isConfirmed, hp, hopen] at hc
  · exact ⟨rfl, by rw [hwallet, hnil], by rw [hcustomer, hnil']⟩

/-- A payment that was never confirmed is tagged with an existing customer. -/
theorem TopupOwed.tag (h : TopupOwed id w g) {p p' : Payment} {c : CustomerId} {r : Customer}
    (hnot : ¬w.everConfirmed id) (hp : w.payments.get? id = some p)
    (hp' : w'.payments.get? id = some p')
    (hc : w.customers.get? c = some r) (hcust : p'.customerId = some c)
    (hamount : p'.amount = p.amount) (hstatus : p'.status = p.status) (hnext : w'.nextId = w.nextId)
    (hcustomers : w'.customers = w.customers) (hwallet : w'.walletTxs = w.walletTxs)
    (hcustomer : w'.customerTxs = w.customerTxs)
    (hever : w'.everConfirmed id ↔ w.everConfirmed id) : TopupOwed id w' g := by
  obtain ⟨rfl, hnil, hnil'⟩ := h.untouched p hp hnot
  have hnot' : ¬w'.everConfirmed id := fun he => hnot (hever.mp he)
  have only : ∀ r, w'.payments.get? id = some r → r = p' := fun r hr =>
    Option.some.inj (hr.symm.trans hp')
  refine ⟨fun h => ?_, fun _ _ => ?_, fun q hq => ?_, fun hconf => ?_,
    fun _ _ d hd => absurd hd (Multiset.notMem_zero d), fun _ _ _ => ?_, fun q c' hq hc' => ?_,
    fun q c' hq hc' => ?_, fun q c' hq hc' => ?_, fun _ _ _ _ he => absurd he hnot',
    fun _ _ _ _ he => absurd he hnot'⟩
  · rw [hp'] at h
    cases h
  · rw [hnext]
    exact h.keyed p hp
  · rw [only q hq, hamount]
    exact h.positive p hp
  · refine absurd (h.recorded ?_) hnot
    simp only [World.isConfirmed, hp', Option.any_some, decide_eq_true_eq] at hconf
    simp [World.isConfirmed, hp, ← hstatus, hconf]
  · exact ⟨rfl, by rw [hwallet, hnil], by rw [hcustomer, hnil']⟩
  · rw [only q hq] at hc'
    obtain rfl : c = c' := Option.some.inj (hcust.symm.trans hc'.2)
    exact ⟨r, by rw [hcustomers, hc]⟩
  · rw [hwallet, hnil]
  · rw [hcustomer, hnil']
    exact .inl rfl

private theorem rest_eq_zero {g f : Multiset Duty} (h : g + f = 0) : f = 0 :=
  Multiset.le_zero.mp (h ▸ Multiset.le_add_left f g)

/-- A duty may be dropped once the customer, if there is one, has been credited. -/
theorem TopupOwed.drop {f : Multiset Duty} (h : TopupOwed id w (g + f))
    (hdone : ∀ p c, w.payments.get? id = some p → p.toppedUpBy c →
      entriesOf w.customerTxs id ≠ []) : TopupOwed id w f where
  absent hp := ⟨rest_eq_zero (h.absent hp).1, (h.absent hp).2⟩
  keyed := h.keyed
  positive := h.positive
  recorded := h.recorded
  owed p hp d hd := h.owed p hp d (Multiset.mem_add.mpr (.inr hd))
  untouched p hp he := ⟨rest_eq_zero (h.untouched p hp he).1, (h.untouched p hp he).2⟩
  exists_customer := h.exists_customer
  no_admin := h.no_admin
  rows := h.rows
  held := h.held
  credited p c hp hc _ _ := hdone p c hp hc

end Invariant

/-! ## Other payments -/

section Others

variable {id : PaymentId}

private theorem apart_aside {α : Type} {p : Service α} (hp : p.Keeps Aside) : p.Keeps (Apart id) :=
  hp.mono fun _ _ h => h.quiet.apart id

private theorem apart_ledger {w w' : World} (hnext : w'.nextId = w.nextId)
    (hpayments : w'.payments = w.payments) (hshops : w'.shops = w.shops)
    (hconfirm : w'.history.confirmations = w.history.confirmations)
    (hwallet : entriesOf w'.walletTxs id = entriesOf w.walletTxs id)
    (hcustomer : entriesOf w'.customerTxs id = entriesOf w.customerTxs id)
    (hcustomers : ∀ c r, w.customers.get? c = some r → ∃ r', w'.customers.get? c = some r') :
    Apart id w w' where
  nextId := hnext.ge
  payment := by rw [hpayments]
  walletTxs := hwallet
  customerTxs := hcustomer
  everConfirmed := by rw [World.everConfirmed, hconfirm, World.everConfirmed]
  customers := hcustomers
  bonus a := by rw [hshops]

private theorem customers_modify {t : Table CustomerId Customer} {c₀ : CustomerId}
    {f : Customer → Customer} (c : CustomerId) (r : Customer) (h : t.get? c = some r) :
    ∃ r', (t.modify c₀ f).get? c = some r' := by
  rw [Table.get?_modify, h]
  split
  · exact ⟨f r, rfl⟩
  · exact ⟨r, rfl⟩

/-- The payment of an order is apart from a top-up. -/
private theorem payOrder_apart (i : PaymentId) (orderId : OrderId) :
    (payOrder i orderId).Keeps (Apart id) := by
  refine keeps_step fun w => ?_
  cases w.orders.get? orderId with
  | none => exact Apart.refl id w
  | some o => exact apart_ledger rfl rfl rfl rfl rfl rfl fun _ r h => ⟨r, h⟩

/-- So is its delivery. -/
private theorem fulfillOrder_apart (i : PaymentId) (orderId : OrderId) :
    (fulfillOrder i orderId).Keeps (Apart id) :=
  fulfillOrderBy_keeps (Apart.refl id)
    (fun _ => apart_ledger rfl rfl rfl rfl rfl rfl fun _ r h => ⟨r, h⟩)
    (fun _ _ _ => apart_ledger rfl rfl rfl rfl rfl rfl fun _ r h => ⟨r, h⟩)
    fun _ _ _ _ => apart_ledger rfl rfl rfl rfl rfl rfl fun _ r h => ⟨r, h⟩

/-- The effect on an order, with its messages. -/
private theorem orderEffect_apart (i : PaymentId) (adminId : AdminId) (orderId : OrderId) :
    (do
      let _ ← payOrder i orderId
      emitEvent (some adminId) "order.paid"
      let _ ← fulfillOrder i orderId
      pure () : Service Unit).Keeps (Apart id) :=
  keeps_bind (payOrder_apart i orderId) fun _ =>
    keeps_bind (apart_aside (emitEvent_keeps _ _)) fun _ =>
      keeps_bind (fulfillOrder_apart i orderId) fun _ => keeps_pure ()

/-- So are messages. -/
private theorem tell_apart (kind name : String) (adminId : AdminId) :
    (do notify kind; emitEvent (some adminId) name : Service Unit).Keeps (Apart id) :=
  keeps_bind (apart_aside (notify_keeps _)) fun _ => apart_aside (emitEvent_keeps _ _)

variable {i : PaymentId} (hi : i ≠ id)

include hi

private theorem chargeWallet_apart (target : Actor) (amount : ℤ) (kind : WalletTxKind)
    (byAdminId : Option AdminId) (allowNegative : Bool) :
    (chargeWallet target amount kind (.payment i) byAdminId allowNegative).Keeps (Apart id) := by
  refine keeps_ite (keeps_pure _) (keeps_ite (keeps_pure _) ?_)
  refine keeps_bind (apart_aside (keeps_ite (read_keeps _) (keeps_pure _))) fun _ => ?_
  refine keeps_bind (apart_aside (read_keeps _)) fun a => ?_
  cases a with
  | none => exact keeps_throw _
  | some a =>
      refine keeps_ite (keeps_throw _) (keeps_bind (keeps_step fun w => ?_) fun row =>
        keeps_bind (apart_aside (alertAfter_keeps row)) fun _ => keeps_pure _)
      dsimp only
      cases w.admins.get? target.id with
      | none => exact Apart.refl id w
      | some _ =>
          exact apart_ledger rfl rfl rfl rfl (by simp [entriesOf, hi]) rfl fun _ r h => ⟨r, h⟩

private theorem settleCustomerTopup_apart : (settleCustomerTopup i).Keeps (Apart id) := by
  refine keeps_bind (apart_aside (findPayment_keeps i)) fun payment => ?_
  cases payment with
  | none => exact keeps_pure _
  | some payment =>
      cases hc : payment.customerId with
      | none => simp only [hc]; exact keeps_pure _
      | some customerId =>
          simp only [hc]
          refine keeps_ite (keeps_pure _) (keeps_bind (apart_aside (read_keeps _)) ?_)
          intro already
          cases already with
          | some t => exact keeps_pure _
          | none =>
              refine keeps_bind (apart_aside (storeSettingsByAdminId_keeps _)) fun store => ?_
              refine keeps_bind (keeps_ite (keeps_throw _) (keeps_step fun w => ?_))
                fun _ => keeps_bind (apart_aside (audit_keeps _ _)) fun _ => keeps_pure _
              cases w.customers.get? customerId with
              | none => exact Apart.refl id w
              | some c =>
                  exact apart_ledger rfl rfl rfl rfl rfl (by simp [entriesOf, hi]) customers_modify

theorem confirmPayment_apart (evidence : Evidence) (opts : ConfirmOpts) :
    (confirmPayment evidence i opts).Keeps (Apart id) := by
  refine keeps_bind (apart_aside (findPayment_keeps i)) fun p => ?_
  cases p with
  | none => exact keeps_throw _
  | some p =>
      refine keeps_ite (keeps_throw _) (keeps_ite (keeps_pure _)
        (keeps_ite (keeps_throw _) ?_))
      refine keeps_bind (keeps_step fun w => ?_) fun updated =>
        keeps_bind (apart_aside (audit_keeps _ _)) fun _ => keeps_bind ?_ fun _ =>
          keeps_pure _
      · cases w.payments.get? i with
        | none => exact Apart.refl id w
        | some q =>
            refine ⟨le_rfl, Table.get?_modify_of_ne _ _ (Ne.symm hi), rfl, rfl, ?_,
              fun _ r h => ⟨r, h⟩, fun _ => rfl⟩
            simp [World.everConfirmed, History.confirm, hi]
      · refine keeps_ite ?_ (keeps_ite ?_ ?_)
        · exact keeps_bind (settleCustomerTopup_apart hi) fun _ => tell_apart _ _ _
        · exact keeps_bind (chargeWallet_apart hi _ _ _ _ _) fun _ => tell_apart _ _ _
        · cases p.orderId with
          | none => exact keeps_pure _
          | some orderId => exact orderEffect_apart i _ orderId

end Others

/-! ## Confirmations -/

/-- The invariant of the runs: the bonus of every shop, the customers who top up, and the duties for
payment `id`. -/
structure TopupInv (β : AdminId → Option ℤ) (T : CustomerId → Prop) (id : PaymentId) (w : World)
    (g : Multiset Duty) : Prop where
  bonus : ∀ a, (w.shops.get? a).map StoreSettings.topupBonusPct = β a
  customers : ∀ c, T c → ∃ r, w.customers.get? c = some r
  owed : TopupOwed id w g

/-- From the duties `g` the procedure keeps the invariant and fulfils the duties. -/
abbrev Fulfils (β : AdminId → Option ℤ) (T : CustomerId → Prop) (id : PaymentId) {α : Type}
    (p : Service α) (g : Multiset Duty) : Prop :=
  Safe TaggedFirst (TopupInv β T id) (fun _ _ => True) (fun _ g => g = 0) (fun _ g => g = 0) p g

section Confirmations

variable {β : AdminId → Option ℤ} {T : CustomerId → Prop} {id : PaymentId} {w : World}
  {f g : Multiset Duty}

theorem TopupInv.apart {w' : World} (h : TopupInv β T id w g) (ha : Apart id w w') :
    TopupInv β T id w' g where
  bonus a := (ha.bonus a).trans (h.bonus a)
  customers c hc := by
    obtain ⟨r, hr⟩ := h.customers c hc
    exact ha.customers c r hr
  owed := h.owed.apart ha

/-- A procedure that has nothing to do with the payment keeps the duties. -/
private theorem safe_apart {α : Type} {p : Service α} (hp : p.Keeps (Apart id)) :
    Safe TaggedFirst (TopupInv β T id) (fun _ _ => True) (fun _ g' => g' = g)
      (fun _ g' => g' = g) p g :=
  safe_of_keeps hp fun _ _ _ ha hI => ⟨hI.apart ha, trivial⟩

/-- Such steps fulfil no duty. -/
private theorem fulfils_apart {α : Type} {p : Service α} (hp : p.Keeps (Apart id)) :
    Fulfils β T id p 0 := safe_apart hp

private theorem Fulfils.bind {α γ : Type} {p : Service γ} {q : γ → Service α}
    (hp : Fulfils β T id p g) (hq : ∀ b, Fulfils β T id (q b) 0) : Fulfils β T id (p >>= q) g := by
  refine safe_bind hp ?_
  rintro b _ rfl
  exact hq b

/-- The row of a payment for which a duty is open. -/
private theorem TopupOwed.payment {d : Duty} (h : TopupOwed id w ({d} + f)) :
    ∃ p, w.payments.get? id = some p ∧ p.duty = some d ∧ w.everConfirmed id := by
  have hd : d ∈ ({d} + f : Multiset Duty) :=
    Multiset.mem_add.mpr (.inl (Multiset.mem_singleton_self d))
  have hne : ({d} + f : Multiset Duty) ≠ 0 :=
    fun h0 => by rw [h0] at hd; exact Multiset.notMem_zero d hd
  cases hp : w.payments.get? id with
  | none => exact absurd (h.absent hp).1 hne
  | some p =>
      refine ⟨p, rfl, h.owed p hp d hd, ?_⟩
      by_contra hever
      exact hne (h.untouched p hp hever).1

theorem entriesOf_eq_nil {ι : Type} {txs : List (WalletTx ι)} :
    entriesOf txs id = [] ↔ (txs.find? fun t => t.ref = .payment id) = none := by
  rw [entriesOf, List.filter_eq_nil_iff, List.find?_eq_none]

private theorem commitCredit_fulfils {c : CustomerId} {a : AdminId} {x bonus : ℤ}
    (hbonus : ∀ w : World, (∀ a, (w.shops.get? a).map StoreSettings.topupBonusPct = β a) →
      bonus = topupBonus (w.shops.get? a) x) :
    Fulfils β T id (commitCredit c (x + bonus) .topup (.payment id) none) {.customer c a x} := by
  refine safe_step fun w f ⟨hβ, hT, hI⟩ hok => ⟨trivial, 0, ?_, fun _ _ => rfl, fun _ _ => rfl⟩
  obtain ⟨p, hp, hduty, hever⟩ := hI.payment
  obtain ⟨htop, ha, hx⟩ := Payment.duty_eq_customer.mp hduty
  obtain ⟨r, hr⟩ := hI.exists_customer p c hp htop
  have hT' : ∀ c', T c' → ∃ r', (w.customers.modify c fun c => { c with
      credit := c.credit + (x + bonus) }).get? c' = some r' := fun c' hc' =>
    let ⟨r', hr'⟩ := hT c' hc'
    customers_modify c' r' hr'
  -- the settlement has found no row of the payment, and there is none still
  have hnew : entriesOf w.customerTxs id = [] := entriesOf_eq_nil.mpr hok
  rw [zero_add]
  simp only [hr]
  have only : ∀ q, w.payments.get? id = some q → q = p :=
    fun q hq => Option.some.inj (hq.symm.trans hp)
  generalize hrow : (⟨c, .topup, x + bonus, r.credit + (x + bonus), .payment id, none⟩ :
    WalletTx CustomerId) = row
  have hentries : entriesOf (row :: w.customerTxs) id = [row] := by
    rw [entriesOf, List.filter_cons, if_pos (by simp [← hrow]), ← entriesOf, hnew]
  have howed : ∀ q, w.payments.get? id = some q → ∀ d ∈ f, q.duty = some d := fun q hq d hd =>
    hI.owed q hq d (Multiset.mem_add.mpr (.inr hd))
  refine ⟨hβ, hT', fun h => ?_, hI.keyed, hI.positive, hI.recorded, howed, fun q _ he =>
    absurd hever he, fun q c' hq hc' => ?_, hI.no_admin, fun q c' hq hc' => ?_,
      fun q _ _ _ _ hnil => ?_,
    fun q _ _ _ _ _ => ?_⟩
  · rw [hp] at h
    cases h
  · obtain ⟨r', hr'⟩ := hI.exists_customer q c' hq hc'
    exact customers_modify c' r' hr'
  · rw [only q hq] at hc' ⊢
    have hcc : c = c' := Option.some.inj (htop.2.symm.trans hc'.2)
    refine .inr ⟨row, hentries, by rw [← hrow, hcc], ?_⟩
    rw [← hrow, World.topupValue, hx, ha]
    exact congrArg (x + ·) (hbonus w hβ)
  · rw [hentries] at hnil
    cases hnil
  · rw [hentries]
    exact List.cons_ne_nil _ _

/-- The payment as it is read again: a verdict that has gone takes the duty with it. -/
private theorem findPayment_fulfils {c : CustomerId} {a : AdminId} {x : ℤ} :
    Safe TaggedFirst (TopupInv β T id) (fun _ _ => True)
      (fun payment g => g = 0 ∧ (∀ p, payment = some p → p.status ≠ .confirmed) ∨
        g = {.customer c a x} ∧ ∃ p, payment = some p ∧ p.toppedUpBy c ∧ p.adminId = a ∧
          p.amount = x ∧ p.status = .confirmed ∧ 0 < x)
      (fun _ g => g = 0) (Db.findPayment id) {.customer c a x} := by
  refine safe_step fun w f ⟨hβ, hT, hI⟩ _ => ⟨trivial, ?_⟩
  obtain ⟨p, hp, hduty, hever⟩ := hI.payment
  obtain ⟨htop, ha, hx⟩ := Payment.duty_eq_customer.mp hduty
  by_cases hs : p.status = .confirmed
  · refine ⟨{.customer c a x}, ⟨hβ, hT, hI⟩, ?_, fun _ h => nomatch h⟩
    rintro _ ⟨⟩
    exact .inr ⟨rfl, p, hp, htop, ha, hx, hs, hx ▸ hI.positive p hp⟩
  · refine ⟨0, ⟨hβ, hT, ?_⟩, ?_, fun _ h => nomatch h⟩
    · rw [zero_add]
      refine hI.drop fun q c' hq hc' hnil => hs ?_
      rw [← Option.some.inj (hq.symm.trans hp)]
      exact hI.held q c' hq hc' hever hnil
    · rintro _ ⟨⟩
      refine .inl ⟨rfl, fun q hq => ?_⟩
      rwa [Option.some.inj (hq.symm.trans hp)]

/-- The look-up of an earlier credit: one that is found has fulfilled the duty. -/
private theorem earlier_credit_fulfils {c : CustomerId} {p : Payment} :
    Safe TaggedFirst (TopupInv β T id) (fun _ _ => True)
      (fun already g => g = 0 ∧ already.isSome ∨
        g = {.customer c p.adminId p.amount} ∧ already = none)
      (fun _ g => g = 0) (Db.read fun w => w.customerTxs.find? fun t => t.ref = .payment id)
      {.customer c p.adminId p.amount} := by
  refine safe_step fun w f ⟨hβ, hT, hI⟩ _ => ⟨trivial, ?_⟩
  cases hfind : w.customerTxs.find? fun t => t.ref = .payment id with
  | none =>
      refine ⟨{.customer c p.adminId p.amount}, ⟨hβ, hT, hI⟩, ?_, fun _ h => nomatch h⟩
      rintro _ ⟨⟩
      exact .inr ⟨rfl, hfind⟩
  | some t =>
      refine ⟨0, ⟨hβ, hT, ?_⟩, ?_, fun _ h => nomatch h⟩
      · rw [zero_add]
        refine hI.drop fun _ _ _ _ h => ?_
        rw [entriesOf_eq_nil.mp h] at hfind
        cases hfind
      · rintro _ ⟨⟩
        exact .inl ⟨rfl, congrArg Option.isSome hfind⟩

/-- The settlement of a customer's top-up fulfils the duty to the customer. -/
private theorem settleCustomerTopup_fulfils {c : CustomerId} {a : AdminId} {x : ℤ} :
    Fulfils β T id (settleCustomerTopup id) {.customer c a x} := by
  refine safe_bind findPayment_fulfils fun payment g' hpayment => ?_
  rcases hpayment with ⟨rfl, hopen⟩ | ⟨rfl, p, rfl, htop, rfl, rfl, hs, hpos⟩
  -- the row is no longer confirmed, and nothing more is credited
  · cases payment with
    | none => exact safe_pure rfl
    | some p =>
        cases hc : p.customerId with
        | none => simp only [hc]; exact safe_pure rfl
        | some c' =>
            simp only [hc]
            refine safe_ite (fun _ => safe_pure rfl) fun hno => absurd (hopen p rfl) ?_
            simp only [Bool.or_eq_true, decide_eq_true_eq, not_or, not_not] at hno
            exact not_not.mpr hno.2
  · simp only [htop.2]
    refine safe_ite (fun h => absurd h (by simp [htop.1, hs])) fun _ =>
      safe_bind earlier_credit_fulfils fun already g' h => ?_
    rcases h with ⟨rfl, hsome⟩ | ⟨rfl, rfl⟩
    · obtain ⟨t, rfl⟩ := Option.isSome_iff_exists.mp hsome
      exact safe_pure rfl
    · have hstore : Safe TaggedFirst (TopupInv β T id) (fun _ _ => True)
          (fun store g => g = {.customer c p.adminId p.amount} ∧
            store.map StoreSettings.topupBonusPct = β p.adminId)
          (fun _ g => g = 0) (storeSettingsByAdminId p.adminId)
          {.customer c p.adminId p.amount} :=
        safe_query (fun _ => trivial) fun w _ hI _ => ⟨rfl, hI.bonus p.adminId⟩
      refine safe_bind hstore ?_
      rintro store _ ⟨rfl, hpct⟩
      have hbonus := topupBonus_nonneg store hpos
      refine Fulfils.bind (safe_ite (fun h => by omega) fun _ =>
        commitCredit_fulfils fun w hβ => ?_) fun balance => ?_
      · rw [topupBonus, topupBonus, hpct, hβ]
      · exact Fulfils.bind (fulfils_apart (apart_aside (audit_keeps _ _))) fun _ => safe_pure rfl

/-- `chargeWallet` for a confirmed top-up of the seller fulfils the duty to the seller. -/
private theorem chargeWallet_fulfils {a : AdminId} {x : ℤ} (hx : 0 < x)
    (byAdminId : Option AdminId) :
    Fulfils β T id (chargeWallet ⟨a, .admin⟩ x .topup (.payment id) byAdminId false) {.seller} := by
  refine safe_ite (fun h => absurd h (by simp)) fun _ => safe_ite (fun h => by omega) fun _ => ?_
  have hlimit : debitLimit x false = pure none := by
    rw [debitLimit, if_neg]
    simp only [Bool.not_false, Bool.and_true, decide_eq_true_eq]
    omega
  rw [hlimit]
  -- without the admin there is nothing to credit, and the duty is dropped
  have hread : Safe TaggedFirst (TopupInv β T id) (fun _ _ => True)
      (fun found g => found = none ∧ g = 0 ∨ (∃ r, found = some r) ∧ g = {.seller})
      (fun _ g => g = 0) (Db.read fun w => w.admins.get? a) {.seller} := by
    refine safe_step fun w f hinv _ => ⟨trivial, ?_⟩
    obtain ⟨hβ, hT, hI⟩ := hinv
    obtain ⟨p, hp, hduty, -⟩ := hI.payment
    cases hfind : w.admins.get? a with
    | some r =>
        refine ⟨{.seller}, ⟨hβ, hT, hI⟩, ?_, fun _ h => by cases h⟩
        rintro _ ⟨⟩
        exact .inr ⟨⟨r, hfind⟩, rfl⟩
    | none =>
        refine ⟨0, ⟨hβ, hT, ?_⟩, ?_, fun _ h => by cases h⟩
        · rw [zero_add]
          refine hI.drop fun q c hq hc => ?_
          rw [Option.some.inj (hq.symm.trans hp)] at hc
          have hnone := (Payment.duty_eq_seller.mp hduty).2
          rw [hc.2] at hnone
          cases hnone
        · rintro _ ⟨⟩
          exact .inl ⟨hfind, rfl⟩
  refine safe_bind (safe_pure (Q := fun b g => b = none ∧ g = {.seller}) ⟨rfl, rfl⟩) ?_
  rintro _ _ ⟨rfl, rfl⟩
  refine safe_bind hread ?_
  rintro _ _ (⟨rfl, rfl⟩ | ⟨⟨r, rfl⟩, rfl⟩)
  · exact safe_throw rfl
  · refine safe_ite (fun h => absurd h (by simp)) fun _ => Fulfils.bind ?_ fun row =>
      Fulfils.bind (fulfils_apart (apart_aside (alertAfter_keeps row))) fun _ => safe_pure rfl
    refine safe_step fun w f hinv _ => ⟨trivial, 0, ?_, fun _ _ => rfl, fun _ _ => rfl⟩
    obtain ⟨hβ, hT, hI⟩ := hinv
    obtain ⟨p, hp, hduty, hever⟩ := hI.payment
    have hseller := Payment.duty_eq_seller.mp hduty
    -- the top-up is the seller's, so the fields about customers say nothing
    have hnot : ∀ q c, w.payments.get? id = some q → ¬q.toppedUpBy c := by
      intro q c hq hc
      rw [Option.some.inj (hq.symm.trans hp)] at hc
      have hnone := hseller.2
      rw [hc.2] at hnone
      cases hnone
    have hdrop : TopupOwed id w f := hI.drop fun q c hq hc => absurd hc (hnot q c hq)
    rw [zero_add]
    dsimp only
    cases w.admins.get? a with
    | none => exact ⟨hβ, hT, hdrop⟩
    | some r =>
        refine ⟨hβ, hT, fun h => ?_, hI.keyed, hI.positive, hI.recorded, hdrop.owed,
          fun _ _ he => absurd hever he, fun q c hq hc => absurd hc (hnot q c hq),
          fun q c hq hc => absurd hc (hnot q c hq), fun q c hq hc => absurd hc (hnot q c hq),
          fun q c hq hc => absurd hc (hnot q c hq), fun q c hq hc => absurd hc (hnot q c hq)⟩
        rw [hp] at h
        cases h

/-- The status write of a confirmation earns its duties. -/
private theorem confirmedRow_safe (evidence : Evidence) (p : Payment) (opts : ConfirmOpts) :
    Safe TaggedFirst (TopupInv β T id) (fun _ _ => True) (fun _ g => g = p.duties ∧ 0 < p.amount)
      (fun _ g => g = 0) (confirmRow evidence id p opts) 0 := by
  refine safe_step fun w f ⟨hβ, hT, hI⟩ hok => ⟨trivial, ?_⟩
  rw [zero_add] at hI
  cases hp : w.payments.get? id with
  | none =>
      refine ⟨0, ?_, fun _ h => (nomatch h), fun _ _ => rfl⟩
      rw [zero_add]
      exact ⟨hβ, hT, hI⟩
  | some q =>
      have hdeal : p.deal = q.deal := (hok (id, p) (List.mem_singleton.mpr rfl) q hp).1 rfl
      have hamount : p.amount = q.amount := congrArg (fun d => d.2.2.2) hdeal
      refine ⟨p.duties, ⟨hβ, hT, ?_⟩, fun _ _ => ⟨rfl, hamount ▸ hI.positive q hp⟩,
        fun _ h => nomatch h⟩
      have hrow := Table.get?_modify_self w.payments id fun _ =>
        { confirmedRow p opts q with updatedAt := w.now }
      rw [hp] at hrow
      exact hI.confirm hp hrow hdeal rfl rfl rfl rfl rfl rfl rfl ⟨_, List.mem_cons_self, rfl⟩

/-- A message keeps the duties, and nothing of it fails. -/
private theorem audit_safe (adminId : Option AdminId) (action : String) :
    Safe TaggedFirst (TopupInv β T id) (fun _ _ => True) (fun _ g' => g' = g) (fun _ _ => False)
      (audit adminId action) g :=
  safe_attempt (safe_apart (apart_aside (journal_keeps _)))
    fun _ _ h => safe_pure h

private theorem applyConfirmation_fulfils (p : Payment) (opts : ConfirmOpts) (hpos : 0 < p.amount) :
    Fulfils β T id (applyConfirmation id p opts) p.duties := by
  unfold applyConfirmation
  refine safe_ite (fun h => ?_) fun hno => safe_ite (fun h => ?_) fun hkind => ?_
  · simp only [Bool.and_eq_true, decide_eq_true_eq, Option.isSome_iff_exists] at h
    obtain ⟨hkind, c, hc⟩ := h
    have hduties : p.duties = {.customer c p.adminId p.amount} := by
      rw [Payment.duties, Payment.duty_of_top ⟨hkind, hc⟩]
    rw [hduties]
    exact Fulfils.bind settleCustomerTopup_fulfils fun _ => fulfils_apart (tell_apart _ _ _)
  · have hnone : p.customerId = none := by simpa [h] using hno
    have hduties : p.duties = {.seller} := by
      rw [Payment.duties, Payment.duty_eq_seller.mpr ⟨h, hnone⟩]
    rw [hduties]
    exact Fulfils.bind (chargeWallet_fulfils hpos _) fun _ => fulfils_apart (tell_apart _ _ _)
  · have hduties : p.duties = 0 := by
      rw [Payment.duties, Payment.duty]
      cases hk : p.kind with
      | topup => exact absurd hk hkind
      | order => rfl
    rw [hduties]
    cases p.orderId with
    | none => exact safe_pure rfl
    | some orderId => exact fulfils_apart (orderEffect_apart id _ orderId)

theorem confirmPayment_fulfils (evidence : Evidence) (i : PaymentId) (opts : ConfirmOpts) :
    Fulfils β T id (confirmPayment evidence i opts) 0 := by
  by_cases hi : i = id
  · subst hi
    refine Fulfils.bind (fulfils_apart (apart_aside (findPayment_keeps i))) fun p => ?_
    cases p with
    | none => exact safe_throw rfl
    | some p =>
        refine safe_ite (fun _ => safe_throw rfl) fun _ =>
          safe_ite (fun _ => safe_pure rfl) fun _ =>
          safe_ite (fun _ => safe_throw rfl) fun _ => ?_
        refine safe_bind (confirmedRow_safe evidence p opts) ?_
        rintro updated _ ⟨rfl, hpos⟩
        refine safe_bind (safe_mono (audit_safe _ _) (fun _ _ h => h) fun _ _ h => h.elim) ?_
        rintro _ _ rfl
        exact Fulfils.bind (applyConfirmation_fulfils p opts hpos) fun _ => safe_pure rfl
  · exact fulfils_apart (confirmPayment_apart hi evidence opts)

/-! ## The other writes -/

/-- A step that changes one row of the payments, which is none of payment `id`. -/
private theorem apart_row {i : PaymentId} {w : World} {f : Payment → Payment} {h : History}
    (hi : i ≠ id) (hh : Noted w.history h) :
    Apart id w { w with payments := w.payments.modify i f, history := h } where
  nextId := le_rfl
  payment := Table.get?_modify_of_ne _ _ (Ne.symm hi)
  walletTxs := rfl
  customerTxs := rfl
  everConfirmed := by rw [World.everConfirmed, hh.confirmations, World.everConfirmed]
  customers _ r hr := ⟨r, hr⟩
  bonus _ := rfl

/-- A row keeps its duties in a write that confirms nothing and undoes no verdict that waits for its
credit. -/
private theorem TopupInv.row (h : TopupInv β T id w g) {i : PaymentId} {p p' : Payment}
    {hist : History} (hp : w.payments.get? i = some p) (hdeal : p'.deal = p.deal)
    (hstatus : p'.status = .confirmed → p.status = .confirmed)
    (hheld : w.awaitsCredit i p → p'.status = .confirmed) (hh : Noted w.history hist) :
    TopupInv β T id { w with payments := w.payments.modify i fun _ => p', history := hist } g := by
  by_cases hi : i = id
  · subst hi
    refine ⟨h.bonus, h.customers,
      h.owed.row hp (by rw [Table.get?_modify_self, hp]; rfl) hdeal hstatus hheld le_rfl rfl rfl ?_
        (fun _ r hr => ⟨r, hr⟩) fun _ => rfl⟩
    rw [World.everConfirmed, hh.confirmations, World.everConfirmed]
  · exact h.apart (apart_row hi hh)

private theorem expireRows_inv (h : TopupInv β T id w g) {stale : List (PaymentId × Payment)}
    (hok : TaggedFirst (.update [.status] stale) w) :
    TopupInv β T id { w with
      payments := w.payments.mapRows fun i p =>
        if i ∈ stale.map Prod.fst then
          { p with status := .expired, updatedAt := w.now } else p } g := by
  refine ⟨h.bonus, h.customers, ?_⟩
  cases hp : w.payments.get? id with
  | none =>
      refine h.owed.apart ⟨le_rfl, ?_, rfl, rfl, Iff.rfl, fun _ r hr => ⟨r, hr⟩, fun _ => rfl⟩
      rw [Table.get?_mapRows, hp]
      rfl
  | some p =>
      have hp' := Table.get?_mapRows w.payments (fun i p => if i ∈ stale.map Prod.fst then
        { p with status := .expired, updatedAt := w.now } else p) id
      rw [hp] at hp'
      refine h.owed.row hp hp' ?_ ?_ ?_ le_rfl rfl rfl Iff.rfl (fun _ r hr => ⟨r, hr⟩) fun _ => rfl
      · dsimp only
        split <;> rfl
      · dsimp only
        split
        · exact fun h => nomatch h
        · exact fun h => h
      · intro hawait
        dsimp only
        split
        · next hmem =>
            obtain ⟨r, hr, rfl⟩ := List.mem_map.mp hmem
            exact absurd hawait ((hok r hr p hp).2 (by simp) (by simp [Column.isVerdict]))
        · exact hawait.2.2.1

theorem Part.fulfils {α : Type} {p : Service α} (hp : Part T p) : Fulfils β T id p 0 := by
  -- another status over a verdict would take a credit that is to come, and is excluded
  cases hp with
  | confirm evidence i opts => exact confirmPayment_fulfils evidence i opts
  | @status columns i p f hcol hver hp hf =>
      refine safe_step fun w r hI hok => ⟨trivial, 0, ?_, fun _ _ => rfl, fun _ _ => rfl⟩
      cases hq : w.payments.get? i with
      | none => exact hI
      | some q =>
          have hwait := (hok (i, p) (List.mem_singleton.mpr rfl) q hq).2 hcol (by
            simp [Column.isVerdict_iff, hver])
          exact hI.row hq (hf q).2 (fun h => absurd h (hf q).1) (fun h => absurd h hwait) (.refl _)
  | @hash columns i p txid f hcol hver hp hf =>
      refine safe_step fun w r hI hok => ⟨trivial, 0, ?_, fun _ _ => rfl, fun _ _ => rfl⟩
      cases hq : w.payments.get? i with
      | none => exact hI
      | some q =>
          have hwait := (hok (i, p) (List.mem_singleton.mpr rfl) q hq).2 hcol (by
            simp [Column.isVerdict_iff, hver])
          dsimp only
          split
          · exact hI
          · exact hI.row hq (hf q).2 (fun h => absurd h (hf q).1)
              (fun h => absurd h hwait) (.refl _)
  | @note columns rows i f record hf hcol hrecord =>
      refine safe_step fun w r hI _ => ⟨trivial, 0, ?_, fun _ _ => rfl, fun _ _ => rfl⟩
      cases hq : w.payments.get? i with
      | none => exact hI
      | some q =>
          exact hI.row hq (hf q).2 (fun h => (hf q).1 ▸ h) (fun h => (hf q).1.trans h.2.2.1)
            (hrecord _ _)
  | authority i authority url =>
      refine safe_step fun w r hI _ => ⟨trivial, 0, ?_, fun _ _ => rfl, fun _ _ => rfl⟩
      cases hq : w.payments.get? i with
      | none => exact hI
      | some q =>
          dsimp only
          split
          · exact hI
          · exact hI.row hq rfl (fun h => h) (fun h => h.2.2.1) (.refl _)
  | expire hstale =>
      refine safe_step fun w r hI hok => ⟨trivial, 0, ?_, fun _ _ => rfl, fun _ _ => rfl⟩
      exact expireRows_inv hI hok
  | @create input expiresAt q hpos =>
      refine safe_step fun w r hI _ => ⟨trivial, 0, ⟨hI.bonus, hI.customers, ?_⟩, fun _ _ => rfl,
        fun _ _ => rfl⟩
      dsimp only
      by_cases hid : id = w.nextId
      · exact hI.owed.create hid.ge (by rw [hid, Table.get?_set_self])
          (hid ▸ Nat.lt_succ_self _) hpos (by simp [newPayment]) rfl rfl rfl
      · exact hI.owed.apart ⟨Nat.le_succ _, Table.get?_set_of_ne _ _ hid, rfl, rfl, Iff.rfl,
          fun _ r hr => ⟨r, hr⟩, fun _ => rfl⟩
  | @tag i c hc =>
      refine safe_step fun w r hI hok => ⟨trivial, 0, ?_, fun _ _ => rfl, fun _ _ => rfl⟩
      cases hq : w.payments.get? i with
      | none => exact hI
      | some q =>
          obtain ⟨row, hrow⟩ := hI.customers c hc
          by_cases hi : i = id
          · subst hi
            have htagged := Table.get?_modify_self w.payments i fun _ =>
              { q with customerId := some c, updatedAt := w.now }
            rw [hq] at htagged
            exact ⟨hI.bonus, hI.customers,
              hI.owed.tag hok hq htagged hrow rfl rfl rfl rfl rfl rfl rfl Iff.rfl⟩
          · exact hI.apart (apart_row hi (.refl _))

/-- Every call on payments fulfils the duties that it takes on. -/
theorem Walk.fulfils {α : Type} {p : Service α} (hp : Walk T p) : Fulfils β T id p 0 :=
  hp.safe (fun _ _ _ hq hI => ⟨hI.apart (hq.apart id), trivial⟩) Part.fulfils

end Confirmations

/-! ## Runs -/

/-- A call of a run in which customers top up while payments are made and confirmed on every path.
-/
inductive TopupCall
  /-- `createCustomerTopup`, for the customer of the session -/
  | customer (id : CustomerId) (row : Customer) (amount : ℤ) (method : PaymentMethod)
      (assetId : Option String)
  | reseller (actor : Actor) (amount : ℤ) (method : PaymentMethod) (assetId : Option String)
  | payment (call : PaymentCall)
  | deposits (box : AdminId) (call : BoxCall)
  | plugin (x : Proc) (id : PluginId) (rawBody : String) (signature : Option String)
  | gateway (id : PaymentId) (authority : Authority) (status : String)

/-- The procedure of a call. -/
def TopupCall.prog : TopupCall → Service Unit
  | customer id row amount method assetId =>
      (createCustomerTopup id row amount method assetId).void
  | reseller actor amount method assetId => (createTopup actor amount method assetId).void
  | payment call => call.prog
  | deposits box call => call.prog (settlePlainly box) box
  | plugin x id rawBody signature => (handlePaymentPluginCallback x id rawBody signature).void
  | gateway id authority status => (handleZarinpalCallback id authority status).void

/-- The customer who makes the call. -/
def TopupCall.caller : TopupCall → Option CustomerId
  | customer id _ _ _ _ => some id
  | _ => none

/-- Every call is made of such parts. -/
theorem TopupCall.walk {T : CustomerId → Prop} (call : TopupCall) (h : ∀ c ∈ call.caller, T c) :
    Walk T call.prog := by
  cases call with
  | customer id row amount method assetId =>
      exact .void (createCustomerTopup_walk id row amount method assetId (h id rfl))
  | reseller actor amount method assetId =>
    exact .void (createTopup_walk actor amount method assetId)
  | payment call => exact call.walk
  | deposits box call => exact call.walk box
  | plugin x id rawBody signature =>
    exact .void (handlePaymentPluginCallback_walk x id rawBody signature)
  | gateway id authority status => exact .void (handleZarinpalCallback_walk id authority status)

/-- What happens besides the calls: no payment and none of its effects changes, no customer goes,
and every shop keeps its bonus. -/
def EachApart (w w' : World) : Prop := ∀ id, Apart id w w'

/-- The credit of a top-up by customer `c` in the ledgers: none of it on an admin wallet, and on
customer wallets at most the one row that credits `c` with the amount and the bonus. -/
structure CreditedTo (w : World) (id : PaymentId) (p : Payment) (c : CustomerId) : Prop where
  no_admin : entriesOf w.walletTxs id = []
  rows : w.Credits p c (entriesOf w.customerTxs id)

/-- In every interleaving of calls whose steps keep to `TaggedFirst`, a top-up of a customer credits
no admin, and that customer at most once, with the amount and the bonus. When all calls have ended,
each of these top-ups that was ever confirmed has done so. -/
theorem customer_topup_credits {w : World} {calls : List TopupCall}
    (hcallers : ∀ call ∈ calls, ∀ c ∈ call.caller, ∃ r, w.customers.get? c = some r)
    (hstart : ∀ id, TopupOwed id w 0) {c : Pool Stmt World AppError}
    (hrun : Pool.Run EachApart TaggedFirst ⟨w, calls.map TopupCall.prog⟩ c) {id : PaymentId}
    {p : Payment}
    {customer : CustomerId} (hp : c.store.payments.get? id = some p)
    (htop : p.toppedUpBy customer) :
    CreditedTo c.store id p customer ∧ (p.status = .confirmed → c.store.everConfirmed id) ∧
      (c.Done → c.store.everConfirmed id → ∃ t, entriesOf c.store.customerTxs id = [t] ∧
        t.holder = customer ∧ t.amount = c.store.topupValue p) := by
  have hclears : (⟨w, calls.map TopupCall.prog⟩ : Pool Stmt World AppError).Clears TaggedFirst
      (TopupInv (fun a => (w.shops.get? a).map StoreSettings.topupBonusPct)
        (fun c => ∃ r, w.customers.get? c = some r) id) fun _ _ => True := by
    refine Pool.Clears.of_safe ⟨fun _ => rfl, fun _ h => h, hstart id⟩ fun q hq => ?_
    obtain ⟨call, hcall, rfl⟩ := List.mem_map.mp hq
    exact (call.walk fun c hc => hcallers call hcall c hc).fulfils
  have hend := hclears.run (fun _ _ _ hI henv => ⟨hI.apart (henv id), trivial⟩) hrun
  obtain ⟨g, -, -, hI⟩ := hend.inv
  refine ⟨⟨hI.no_admin p customer hp htop, hI.rows p customer hp htop⟩, fun hs => hI.recorded ?_,
    fun hdone hever => ?_⟩
  · simp [World.isConfirmed, hp, hs]
  · obtain ⟨-, -, hI⟩ := hend.done hdone
    rcases hI.rows p customer hp htop with hnil | h
    · exact absurd hnil (hI.credited p customer hp htop hever rfl)
    · exact h

/-! ## A deposit before the tag

Customer 5 starts a top-up by card transfer in shop 2, and the bank reports a deposit of that amount
while the row is not tagged yet.
-/

/-- The shop with card transfers. -/
def cardShop : StoreSettings :=
  { StoreSettings.blank 2 with enabled := true, cardEnabled := true, cardNumber := some "6037" }

/-- The panel with that shop and no payments. -/
def cardShopWorld : World :=
  { cardWorld [] with shops := .ofRows [(2, cardShop)] }

/-- The customer's top-up and the deposit. -/
def topupPool : Pool Stmt World AppError :=
  ⟨cardShopWorld, [TopupCall.customer 5 ⟨2, 0⟩ 50000 .card none,
    .deposits 2 (.ingest .web (reportedTransfer .sms))].map TopupCall.prog⟩

/-- The credit of the confirmed top-up goes to the seller, and the customer gets nothing. -/
theorem customer_topup_credits_seller :
    ∃ c, Pool.Run EachApart (fun _ _ => True) topupPool c ∧ c.Done ∧
      ((c.store.payments.get? 100).map fun p => (p.status, p.customerId)) =
        some (.confirmed, some 5) ∧
      entriesOf c.store.customerTxs 100 = [] ∧
      (entriesOf c.store.walletTxs 100).map (fun t => (t.holder, t.amount)) = [(2, 50000)] :=
  ⟨_, Pool.schedule_run_free _ ([0, 0, 0] ++ List.replicate 14 1 ++ [0, 0]) _, by decide +kernel⟩

theorem cardShopWorld_owed (id : PaymentId) : TopupOwed id cardShopWorld 0 where
  absent _ := ⟨rfl, rfl, rfl, by rintro ⟨c, hc, -⟩; cases hc⟩
  keyed _ h := nomatch h
  positive _ h := nomatch h
  recorded h := nomatch h
  owed _ h := nomatch h
  untouched _ h := nomatch h
  exists_customer _ _ h := nomatch h
  no_admin _ _ h := nomatch h
  rows _ _ h := nomatch h
  held _ _ h := nomatch h
  credited _ _ h := nomatch h

/-- A deposit after the tag credits the customer. -/
theorem customer_topup_credits_customer :
    ∃ c, Pool.Run EachApart TaggedFirst topupPool c ∧ c.Done ∧ c.store.everConfirmed 100 ∧
      ∃ t, entriesOf c.store.customerTxs 100 = [t] ∧ t.holder = 5 := by
  have hend : (topupPool.schedule ([0, 0, 0, 0, 0] ++ List.replicate 20 1)).Done ∧
      (topupPool.schedule ([0, 0, 0, 0, 0] ++ List.replicate 20 1)).store.everConfirmed 100 ∧
      ∃ p ∈ (topupPool.schedule ([0, 0, 0, 0, 0] ++ List.replicate 20 1)).store.payments.get? 100,
        p.kind = .topup ∧ p.customerId = some 5 := by
    decide +kernel
  obtain ⟨hdone, hever, p, hp, htop⟩ := hend
  have hrun : Pool.Run EachApart TaggedFirst topupPool _ :=
    Pool.schedule_run EachApart ([0, 0, 0, 0, 0] ++ List.replicate 20 1) topupPool
      (by decide +kernel)
  have hcallers : ∀ call ∈ [TopupCall.customer 5 ⟨2, 0⟩ 50000 .card none,
      .deposits 2 (.ingest .web (reportedTransfer .sms))], ∀ c ∈ call.caller,
      ∃ r, cardShopWorld.customers.get? c = some r := by
    intro call hcall c hc
    rcases List.mem_cons.mp hcall with rfl | hcall
    · obtain rfl := Option.mem_some_iff.mp hc
      exact ⟨⟨2, 0⟩, rfl⟩
    · obtain rfl := List.mem_singleton.mp hcall
      cases hc
  obtain ⟨t, ht, hholder, -⟩ :=
    (customer_topup_credits hcallers cardShopWorld_owed hrun hp htop).2.2 hdone hever
  exact ⟨_, hrun, hdone, hever, t, ht, hholder⟩

end SRPanel
