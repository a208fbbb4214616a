import SRPanel.Model.CardAmounts
import SRPanel.Deposits.Match
import SRPanel.Orders.Lifecycle

/-!
# Invoices that a deposit can tell apart

A deposit names its invoice by the amount alone, so the open card invoices of a seller have to lie
further apart than the matcher's tolerance. The module proves when a call of `createOrder` or
`createCustomerTopup` keeps them apart, and that they then stay apart in every run.
`uniqueCardAmount` looks for a free amount among the invoices of the window, and only for orders:
two top-ups of one amount are open together.
-/

namespace SRPanel

open Interleaving Prog

/-! ## The property -/

/-- The row is an open card invoice of the seller. -/
def World.OpenInvoice (w : World) (box : AdminId) (id : PaymentId) (p : Payment) : Prop :=
  w.payments.get? id = some p ∧ p.isOpenCard box

/-- Any two open invoices of the seller differ by more than the tolerance. -/
def World.Apart (w : World) (box : AdminId) (tol : ℕ) : Prop :=
  ∀ i p j q, w.OpenInvoice box i p → w.OpenInvoice box j q → i ≠ j →
    tol < (p.amount - q.amount).natAbs

/-- Every open invoice of the seller is further than the tolerance from the amount. -/
def World.Clear (w : World) (box : AdminId) (tol : ℕ) (a : ℤ) : Prop :=
  ∀ i p, w.OpenInvoice box i p → tol < (p.amount - a).natAbs

/-- The deposit of exactly an open invoice's amount has that invoice as its only candidate, unless
another one that is looked at carries its reference number. -/
def World.Attributes (w : World) (box : AdminId) (s : CardAuto) : Prop :=
  ∀ (i : PaymentId) (p : Payment) (dep : Deposit), w.OpenInvoice box i p →
    (dep.amount : ℤ) = p.amount →
    (∀ r ∈ w.lookedAt box s, sameRef r.2 dep.refId → dep.refId ≠ "" → r.1 = i) →
    ∀ r ∈ narrow s dep (amountOrRef s dep (w.lookedAt box s)), r.1 = i

/-! ## Frames -/

/-- No card invoice opens, and none changes its amount. -/
def NoneOpens (w w' : World) : Prop :=
  ∀ box id p, w'.OpenInvoice box id p → ∃ q, w.OpenInvoice box id q ∧ q.amount = p.amount

/-- At most one card invoice opens, and none unless `may` holds; it is the seller's, and it has the
amount. -/
def Opens (may : Prop) (box : AdminId) (a : ℤ) (w w' : World) : Prop :=
  ∃ new, ∀ b id p, w'.OpenInvoice b id p →
    (∃ q, w.OpenInvoice b id q ∧ q.amount = p.amount) ∨ may ∧ id = new ∧ b = box ∧ p.amount = a

section Frames

variable {w w₁ w₂ : World} {may : Prop} {box : AdminId} {a : ℤ} {tol : ℕ}

theorem NoneOpens.refl (w : World) : NoneOpens w w := fun _ _ p h => ⟨p, h, rfl⟩

theorem NoneOpens.trans (h : NoneOpens w w₁) (h' : NoneOpens w₁ w₂) : NoneOpens w w₂ := by
  intro b id p hp
  obtain ⟨q, hq, ha⟩ := h' b id p hp
  obtain ⟨r, hr, ha'⟩ := h b id q hq
  exact ⟨r, hr, ha'.trans ha⟩

theorem noneOpens_of_payments (h : w₁.payments = w.payments) : NoneOpens w w₁ :=
  fun _ _ p hp => ⟨p, ⟨h ▸ hp.1, hp.2⟩, rfl⟩

/-- A write to one payment that opens no invoice. -/
theorem noneOpens_modify {id : PaymentId} {p p' : Payment} (hp : w.payments.get? id = some p)
    (hpay : w₁.payments = w.payments.modify id fun _ => p')
    (hopen : ∀ b, p'.isOpenCard b → p.isOpenCard b ∧ p.amount = p'.amount) : NoneOpens w w₁ := by
  rintro b i q ⟨hq, hqopen⟩
  rw [hpay] at hq
  by_cases hid : i = id
  · subst hid
    rw [Table.get?_modify_self, hp] at hq
    obtain rfl : p' = q := Option.some.inj hq
    exact ⟨p, ⟨hp, (hopen b hqopen).1⟩, (hopen b hqopen).2⟩
  · rw [Table.get?_modify_of_ne _ _ hid] at hq
    exact ⟨q, ⟨hq, hqopen⟩, rfl⟩

theorem Opens.mono {may' : Prop} (h : Opens may box a w w₁) (hmay : may → may') :
    Opens may' box a w w₁ := by
  obtain ⟨new, h⟩ := h
  exact ⟨new, fun b id p hp => (h b id p hp).imp_right (And.imp_left hmay)⟩

theorem NoneOpens.opens (h : NoneOpens w w₁) : Opens may box a w w₁ :=
  ⟨0, fun b id p hp => .inl (h b id p hp)⟩

theorem NoneOpens.then (h : NoneOpens w w₁) (h' : Opens may box a w₁ w₂) :
    Opens may box a w w₂ := by
  obtain ⟨new, h'⟩ := h'
  refine ⟨new, fun b id p hp => ?_⟩
  rcases h' b id p hp with ⟨q, hq, ha⟩ | hnew
  · obtain ⟨r, hr, ha'⟩ := h b id q hq
    exact .inl ⟨r, hr, ha'.trans ha⟩
  · exact .inr hnew

/-- At most one opened, and then none. -/
theorem Opens.then (h : Opens may box a w w₁) (h' : NoneOpens w₁ w₂) : Opens may box a w w₂ := by
  obtain ⟨new, h⟩ := h
  refine ⟨new, fun b id p hp => ?_⟩
  obtain ⟨q, hq, ha⟩ := h' b id p hp
  rcases h b id q hq with ⟨r, hr, ha'⟩ | ⟨hmay, hid, hb, hamount⟩
  · exact .inl ⟨r, hr, ha'.trans ha⟩
  · exact .inr ⟨hmay, hid, hb, ha ▸ hamount⟩

/-- A new payment. -/
theorem opens_withNew (w : World) {p : Payment}
    (hp : ∀ b, p.isOpenCard b → may ∧ b = box ∧ p.amount = a) :
    Opens may box a w (w.withNew p) := by
  refine ⟨w.nextId, fun b id q hq => ?_⟩
  obtain ⟨hget, hopen⟩ := hq
  rw [World.withNew, Table.get?_set] at hget
  split at hget
  · next hid =>
      obtain rfl := Option.some.inj hget
      obtain ⟨hmay, hb⟩ := hp b hopen
      exact .inr ⟨hmay, hid, hb⟩
  · exact .inl ⟨q, ⟨hget, hopen⟩, rfl⟩

/-- Invoices that are apart stay apart when none opens. -/
theorem World.Apart.noneOpens (h : w.Apart box tol) (hw : NoneOpens w w₁) : w₁.Apart box tol := by
  intro i p j q hp hq hij
  obtain ⟨p', hp', hap⟩ := hw box i p hp
  obtain ⟨q', hq', haq⟩ := hw box j q hq
  rw [← hap, ← haq]
  exact h i p' j q' hp' hq' hij

/-- They stay apart when an invoice opens whose amount is clear of them, or another seller's. -/
theorem World.Apart.opens {box' : AdminId} (h : w.Apart box tol) (hw : Opens may box' a w w₁)
    (hclear : may → box' = box → w.Clear box tol a) : w₁.Apart box tol := by
  obtain ⟨new, hw⟩ := hw
  intro i p j q hp hq hij
  rcases hw box i p hp with ⟨p', hp', hap⟩ | ⟨hmay, hi, hb, hap⟩
  · rcases hw box j q hq with ⟨q', hq', haq⟩ | ⟨hmay, -, hb, haq⟩
    · rw [← hap, ← haq]
      exact h i p' j q' hp' hq' hij
    · rw [← hap, haq]
      exact hclear hmay hb.symm i p' hp'
  · rcases hw box j q hq with ⟨q', hq', haq⟩ | ⟨-, hj, -, -⟩
    · rw [hap, ← haq, ← Int.natAbs_neg, neg_sub]
      exact hclear hmay hb.symm j q' hq'
    · exact absurd (hi.trans hj.symm) hij

end Frames

/-! ## What opens no invoice -/

section Keeps

variable {α : Type}

/-- A still call opens none. -/
private theorem opensNone_still {p : Service α} (hp : p.Keeps Still) : p.Keeps NoneOpens :=
  hp.mono fun _ _ h => noneOpens_of_payments h.payments

/-- Nor does one beside the payments. -/
private theorem opensNone_aside {p : Service α} (hp : p.Keeps Aside) : p.Keeps NoneOpens :=
  opensNone_still (still_aside hp)

/-- Nor does one that settles payments. -/
private theorem opensNone_settling {p : Service α} (hp : p.Keeps Settling) : p.Keeps NoneOpens :=
  hp.mono fun _ _ h => noneOpens_of_payments h.payments

/-- A write to a payment that leaves it closed, or as open as it was. -/
private theorem updatePayment_opensNone {l : Stmt} {id : PaymentId} {f : Payment → Payment}
    {record : Payment → History → History}
    (hf : ∀ b row, (f row).isOpenCard b → row.isOpenCard b ∧ row.amount = (f row).amount) :
    (Db.updatePayment l id f record).Keeps NoneOpens := by
  refine keeps_step fun w => ?_
  cases hp : w.payments.get? id with
  | none => exact .refl w
  | some p => exact noneOpens_modify hp rfl fun b => hf b p

/-- Nor does a rejection. -/
private theorem rejectRow_opensNone {l : Stmt} {id : PaymentId} (e : Option String) :
    (Db.updatePayment l id (fun p => { p with status := .rejected, error := e })
      fun _ h => h).Keeps NoneOpens :=
  updatePayment_opensNone fun b row h => by simp [Payment.isOpenCard] at h

/-- Nor does a confirmation. -/
theorem confirmPayment_opensNone (evidence : Evidence) (id : PaymentId) (opts : ConfirmOpts) :
    (confirmPayment evidence id opts).Keeps NoneOpens := by
  refine keeps_bind (opensNone_aside (findPayment_keeps id)) fun p => ?_
  cases p with
  | none => exact keeps_throw _
  | some p =>
      refine keeps_ite (keeps_throw _) (keeps_ite (keeps_pure _) ?_)
      refine keeps_ite (keeps_throw _) (keeps_bind ?_ fun updated => ?_)
      · exact updatePayment_opensNone fun b row h => by simp [confirmedRow, Payment.isOpenCard] at h
      · exact keeps_bind (opensNone_aside (audit_keeps _ _)) fun _ =>
          keeps_bind (opensNone_settling (applyConfirmation_settles _ _ _)) fun _ => keeps_pure _

/-- Nor does the match of a deposit. -/
private theorem matchDeposit_opensNone (box : AdminId) (s : CardAuto) (dep : Deposit) :
    (matchDeposit (settlePlainly box) box s dep).Keeps NoneOpens := by
  refine keeps_ite (keeps_pure _) (keeps_bind (opensNone_aside clock_keeps) fun now => ?_)
  refine keeps_bind (opensNone_aside (query_keeps _ _)) fun rows => ?_
  refine keeps_ite (keeps_pure _) ?_
  unfold settleMatch
  split
  · exact keeps_pure _
  · exact keeps_ite (keeps_pure _) (keeps_attempt
      (keeps_bind (confirmPayment_opensNone _ _ _) fun _ => keeps_pure _) fun _ => keeps_pure _)
  · exact keeps_pure _

/-- Nor do the matches of all waiting deposits. -/
private theorem rematchAll_opensNone (box : AdminId) (s : CardAuto) (ds next : List Deposit) :
    (rematchAll (settlePlainly box) box s ds next).Keeps NoneOpens := by
  induction ds generalizing next with
  | nil => exact keeps_pure _
  | cons d ds ih =>
      exact keeps_bind (matchDeposit_opensNone box s d) fun _ =>
        keeps_bind (ih _) fun _ => keeps_pure _

/-- Nor does reading the settings. -/
private theorem settingsStep_opensNone (x : Proc) (box : AdminId) :
    (cardAutoSettings x box).Keeps NoneOpens :=
  keeps_step fun _ => noneOpens_of_payments rfl

/-- Nor does the whole rematch. -/
private theorem rematchDeposits_opensNone (x : Proc) (box : AdminId) :
    (rematchDeposits (settlePlainly box) x box).Keeps NoneOpens := by
  refine keeps_bind (settingsStep_opensNone x box) fun r => keeps_ite (keeps_pure _) ?_
  refine keeps_bind (rematchAll_opensNone box _ _ _) fun _ => keeps_bind ?_ fun _ => keeps_pure _
  refine keeps_bind (settingsStep_opensNone x box) fun r => keeps_step fun w => ?_
  split
  · exact noneOpens_of_payments rfl
  · exact .refl w

private theorem createPayment_opensNone {p : Payment} (hp : p.method ≠ .card) :
    (Db.createPayment p).Keeps NoneOpens := by
  refine keeps_step fun w b id q hq => ?_
  obtain ⟨hget, hopen⟩ := hq
  rw [Table.get?_set] at hget
  split at hget
  · obtain rfl := Option.some.inj hget
    simp [Payment.isOpenCard, hp] at hopen
  · exact ⟨q, ⟨hget, hopen⟩, rfl⟩

/-- A payment by another method is no card invoice. -/
private theorem beginPayment_opensNone (s : StoreSettings) {input : BeginPaymentInput}
    (hmethod : input.method ≠ .card) : (beginPayment s input).Keeps NoneOpens := by
  have hcreate : ∀ expiresAt q, (Db.createPayment (newPayment input expiresAt q)).Keeps NoneOpens :=
    fun _ _ => createPayment_opensNone hmethod
  refine keeps_ite (keeps_throw _) (keeps_ite (keeps_throw _) ?_)
  refine keeps_bind (opensNone_aside clock_keeps) fun now => ?_
  dsimp only
  split
  · exact keeps_bind (opensNone_aside (quoteCrypto_aside _ _ _)) fun q => hcreate _ _
  · exact hcreate _ _
  · refine keeps_bind (opensNone_aside (read_keeps _)) fun merchant => ?_
    cases merchant with
    | none => exact keeps_throw _
    | some merchant =>
        refine keeps_bind (hcreate _ _) fun payment => keeps_bind ?_ fun r => ?_
        · refine keeps_step fun w => ?_
          split
          · exact .refl w
          · exact noneOpens_of_payments rfl
        · cases r with
          | error e => exact keeps_bind (rejectRow_opensNone _) fun _ => keeps_throw _
          | ok r =>
              refine keeps_bind (keeps_step fun w => ?_) fun _ => keeps_pure _
              cases hp : w.payments.get? payment.1 with
              | none => exact .refl w
              | some p =>
                  dsimp only
                  split
                  · exact .refl w
                  · exact noneOpens_modify hp rfl fun _ h => ⟨h, rfl⟩
  · exact keeps_throw _

/-- A change of an order opens none. -/
private theorem updateOrder_opensNone (orderId : OrderId) (f : Time → Order → Order) :
    (updateOrder orderId f).Keeps NoneOpens := by
  refine keeps_step fun w => ?_
  cases w.orders.get? orderId with
  | none => exact .refl w
  | some o => exact noneOpens_of_payments rfl

/-- Nor does another delivery. -/
private theorem fulfillAgain_opensNone (orderId : OrderId) :
    (fulfillAgain orderId).Keeps NoneOpens :=
  fulfillOrderBy_keeps .refl (fun _ => noneOpens_of_payments rfl)
    (fun _ _ _ => noneOpens_of_payments rfl) fun _ _ _ _ => noneOpens_of_payments rfl

/-- Nor does a payment from the wallet. -/
private theorem payOrderWithWallet_opensNone (orderId : OrderId) (amount : ℤ)
    (customerId : CustomerId) (sellerId : AdminId) :
    (payOrderWithWallet orderId amount customerId sellerId).Keeps NoneOpens := by
  have habandon : ∀ payment msg, (abandon payment orderId msg).Keeps NoneOpens := fun _ _ =>
    keeps_bind (rejectRow_opensNone _) fun _ =>
      keeps_bind (updateOrder_opensNone _ _) fun _ => keeps_pure _
  have hread : ∀ {β : Type} (f : World → β), (Db.read f).Keeps NoneOpens := fun f =>
    opensNone_aside (read_keeps f)
  refine keeps_bind (createPayment_opensNone (by simp [walletPayment, newPayment])) fun payment =>
    ?_
  refine keeps_bind (keeps_attempt ?_ fun err => ?_) fun _ => keeps_attempt ?_ fun err => ?_
  · exact keeps_bind (opensNone_still (debitCustomerWallet_still _ _ _ _)) fun _ => keeps_pure _
  · exact keeps_bind (habandon _ _) fun _ => keeps_throw _
  · exact keeps_bind (confirmPayment_opensNone _ _ _) fun _ =>
      keeps_bind (hread _) fun _ => opensNone_aside (notify_keeps _)
  · refine keeps_bind (opensNone_aside (query_keeps _ _)) fun current => keeps_ite ?_ ?_
    · refine keeps_bind (keeps_attempt (keeps_bind
        (opensNone_still (creditCustomerWallet_still _ _ _ _ _)) fun _ => keeps_pure _)
        fun _ => keeps_pure _) fun _ => ?_
      exact keeps_bind (habandon _ _) fun _ =>
        keeps_bind (opensNone_aside (audit_keeps _ _)) fun _ => keeps_throw _
    · exact keeps_bind (hread _) fun _ => keeps_pure _

end Keeps

/-! ## The calls -/

section Calls

variable {α β : Type} {may : Prop} {box : AdminId} {a : ℤ}

/-- A lone run opens at most one card invoice, of the seller and with the amount. -/
def Invoices (may : Prop) (box : AdminId) (a : ℤ) (p : Service α) : Prop :=
  ∀ w, Opens may box a w (p.run w).2

private theorem invoices_none {p : Service α} (hp : p.Keeps NoneOpens) :
    Invoices may box a p := fun w =>
  (hp.run .refl (fun _ _ _ => .trans) w).opens

/-- What opens none may come first. -/
private theorem invoices_seq {p : Service β} {f : β → Service α} (hp : p.Keeps NoneOpens)
    (hf : ∀ b, Invoices may box a (f b)) : Invoices may box a (p >>= f) := by
  intro w
  have hfirst := hp.run .refl (fun _ _ _ => .trans) w
  rw [run_bind]
  rcases hrun : p.run w with ⟨e | b, w₁⟩
  · rw [hrun] at hfirst
    exact hfirst.opens
  · rw [hrun] at hfirst
    exact hfirst.then (hf b w₁)

/-- Or last. -/
private theorem invoices_then {p : Service β} {f : β → Service α} (hp : Invoices may box a p)
    (hf : ∀ b, (f b).Keeps NoneOpens) : Invoices may box a (p >>= f) := by
  intro w
  have hfirst := hp w
  rw [run_bind]
  rcases hrun : p.run w with ⟨e | b, w₁⟩
  · rw [hrun] at hfirst
    exact hfirst
  · rw [hrun] at hfirst
    exact hfirst.then ((hf b).run .refl (fun _ _ _ => .trans) w₁)

private theorem invoices_ite {c : Prop} [Decidable c] {p q : Service α} (hp : Invoices may box a p)
    (hq : Invoices may box a q) : Invoices may box a (if c then p else q) := by
  split
  · exact hp
  · exact hq

private theorem beginPayment_invoices (s : StoreSettings) (input : BeginPaymentInput) :
    Invoices (input.method = .card ∧ 0 < input.amount) input.adminId input.amount
      (beginPayment s input) := by
  by_cases hmethod : input.method = .card
  · refine invoices_ite (invoices_none (keeps_throw _)) fun w => ?_
    split
    · exact (NoneOpens.refl w).opens
    · next hamount =>
        refine invoices_seq (opensNone_aside clock_keeps) (fun now w => ?_) w
        simp only [hmethod]
        refine opens_withNew w fun b h => ?_
        simp only [Payment.isOpenCard, newPayment, Bool.and_eq_true] at h
        exact ⟨⟨trivial, not_le.mp hamount⟩, (of_decide_eq_true h.1.1).symm, rfl⟩
  · exact invoices_none (beginPayment_opensNone s hmethod)

private theorem createOrder_invoices (x : Proc) (s : StoreSettings) (input : NewOrder) :
    Invoices (input.method = .card ∧ 0 < input.amount) input.adminId input.amount
      (createOrder x s input) := by
  refine invoices_seq (opensNone_aside (signedIn_keeps input)) fun account => ?_
  refine invoices_seq ?_ fun buyer => invoices_seq (keeps_step fun w => noneOpens_of_payments rfl)
    fun orderId => ?_
  · refine keeps_ite ?_ (keeps_ite (keeps_throw _) (keeps_pure _))
    cases walletBuyer s account input with
    | error e => exact keeps_throw _
    | ok id => exact keeps_pure _
  · refine invoices_seq (opensNone_aside (audit_keeps _ _)) fun _ =>
      invoices_seq (opensNone_aside (emitEvent_keeps _ _)) fun _ =>
        invoices_ite (invoices_none ?_) ?_
    · exact keeps_bind (fulfillAgain_opensNone orderId) fun _ => keeps_pure _
    · cases buyer with
      | some customerId =>
          exact invoices_none (keeps_bind (payOrderWithWallet_opensNone _ _ _ _) fun _ =>
            keeps_pure _)
      | none =>
          refine invoices_then (beginPayment_invoices s _) fun _ =>
            keeps_bind (opensNone_aside (notify_keeps _)) fun _ => keeps_bind ?_
              fun _ => keeps_pure _
          refine keeps_ite (keeps_attempt (keeps_bind (rematchDeposits_opensNone _ _)
            fun _ => keeps_pure _) fun _ => keeps_pure _) (keeps_pure _)

private theorem createCustomerTopup_invoices (customerId : CustomerId) (customer : Customer)
    (amount : ℤ) (method : PaymentMethod) (assetId : Option String) :
    Invoices (method = .card) customer.adminId amount
      (createCustomerTopup customerId customer amount method assetId) := by
  refine invoices_seq (opensNone_aside (storeSettingsByAdminId_keeps _)) fun s => ?_
  have hthrow : ∀ e, Invoices (method = .card) customer.adminId amount
      (throw e : Service (PaymentId × Payment)) := fun e => invoices_none (keeps_throw e)
  cases s with
  | none => exact hthrow _
  | some s =>
      dsimp only
      refine invoices_ite (hthrow _)
        (invoices_ite (hthrow _) (invoices_ite (hthrow _) (invoices_ite (hthrow _) ?_)))
      refine invoices_then (fun w => ?_) fun r => keeps_bind ?_ fun payment => ?_
      · refine (beginPayment_invoices s ⟨.topup, method, amount, customer.adminId, none, assetId⟩ w).mono ?_
        exact fun h => h.1
      · exact updatePayment_opensNone fun _ row h => ⟨h, rfl⟩
      · exact keeps_bind (opensNone_aside (audit_keeps _ _)) fun _ => keeps_pure _

end Calls

/-! ## The amount of an order -/

section Amount

variable {s : CardAmounts} {box : AdminId} {w : World}

/-- The offsets are tried in increasing order. -/
theorem CardAmounts.offsets_sorted (s : CardAmounts) : s.offsets.Pairwise (· < ·) := by
  refine List.pairwise_map.mpr (List.pairwise_lt_range.imp fun {j k} hjk => ?_)
  exact_mod_cast Nat.mul_lt_mul_of_pos_right hjk (by omega)

/-- The amount itself is tried first. -/
theorem CardAmounts.zero_mem_offsets (s : CardAmounts) : (0 : ℤ) ∈ s.offsets :=
  List.mem_map.mpr ⟨0, List.mem_range.mpr (Nat.succ_pos _), by simp⟩

/-- No offset lowers an amount. -/
theorem CardAmounts.offsets_nonneg {i : ℤ} (hi : i ∈ s.offsets) : 0 ≤ i := by
  obtain ⟨k, -, rfl⟩ := List.mem_map.mp hi
  exact Int.natCast_nonneg _

/-- The loop ends with an offset that is free while all before it are taken. -/
private theorem CardAmounts.firstFree_eq {taken : List ℤ} {base i : ℤ} {is : List ℤ}
    (hsorted : is.Pairwise (· < ·)) (hi : i ∈ is) (hfree : ∀ t ∈ taken, s.near t (base + i) = false)
    (hbefore : ∀ j ∈ is, j < i → ∃ t ∈ taken, s.near t (base + j)) :
    s.firstFree taken base is = base + i := by
  induction is with
  | nil => cases hi
  | cons j is ih =>
      rw [CardAmounts.firstFree]
      rcases List.mem_cons.mp hi with rfl | hmem
      · rw [if_neg (by simpa using hfree)]
      · have hlt : j < i := List.rel_of_pairwise_cons hsorted hmem
        rw [if_pos (by simpa using hbefore j List.mem_cons_self hlt)]
        exact ih hsorted.of_cons hmem fun k hk => hbefore k (List.mem_cons_of_mem j hk)

/-- Some offset is clear of all open invoices of the seller, and the code gets to it: each smaller
one is taken by an invoice of the rows that it reads. -/
def World.FindsFree (w : World) (s : CardAmounts) (box : AdminId) (base : ℤ) : Prop :=
  ∃ i ∈ s.offsets, w.Clear box s.toleranceIrt (base + i) ∧
    ∀ j ∈ s.offsets, j < i → ∃ t ∈ takenAmounts w box (s.since w.now), s.near t (base + j)

/-- The rows that the code reads are open invoices. -/
private theorem takenAmounts_open {since : Time} {t : ℤ} (ht : t ∈ takenAmounts w box since) :
    ∃ i p, w.OpenInvoice box i p ∧ p.amount = t := by
  obtain ⟨r, hr, rfl⟩ := List.mem_map.mp ht
  obtain ⟨hrow, hcond⟩ := List.mem_filter.mp (List.mem_of_mem_take hr)
  simp only [Bool.and_eq_true] at hcond
  refine ⟨r.1, r.2, ⟨(w.payments.mem_rows_iff _ _).mp hrow, ?_⟩, rfl⟩
  simp only [Payment.isOpenCard, Bool.and_eq_true]
  exact hcond.1

private theorem invoiceAmount_opensNone (s : CardAmounts) (input : NewOrder) :
    (invoiceAmount s input).Keeps NoneOpens := by
  refine keeps_ite (keeps_bind ?_ fun _ => keeps_pure _) (keeps_pure _)
  refine keeps_ite (keeps_pure _) (keeps_ite (keeps_pure _) ?_)
  refine keeps_bind (keeps_query .refl _ _) fun now =>
    keeps_bind (keeps_query .refl _ _) fun taken => ?_
  exact keeps_ite (keeps_pure _) (keeps_pure _)

/-- The amount that an order is charged is clear of the open invoices. -/
private theorem invoiceAmount_clear {input : NewOrder} (hmode : s.mode ≠ .manual)
    (hunique : s.uniqueAmount = true) (hcard : input.method = .card) (hpos : 0 < input.amount)
    (hfree : w.FindsFree s input.adminId input.amount) :
    ∃ a, (invoiceAmount s input).run w = (.ok a, w) ∧ w.Clear input.adminId s.toleranceIrt a := by
  obtain ⟨i, hi, hclear, hbefore⟩ := hfree
  have hnear : ∀ t ∈ takenAmounts w input.adminId (s.since w.now),
      s.near t (input.amount + i) = false := by
    intro t ht
    obtain ⟨j, p, hp, rfl⟩ := takenAmounts_open ht
    exact decide_eq_false (not_le.mpr (hclear j p hp))
  have hloop := CardAmounts.firstFree_eq s.offsets_sorted hi hnear hbefore
  have hnonneg := CardAmounts.offsets_nonneg hi
  refine ⟨input.amount + i, ?_, hclear⟩
  have hunique' : (uniqueCardAmount s input.adminId input.amount).run w =
      (.ok (input.amount + i), w) := by
    unfold uniqueCardAmount
    rw [if_neg (not_le.mpr hpos), if_neg (by simp [hunique, hmode])]
    simp only [clock, Db.read, run_bind, run_query]
    split
    · next hnone =>
        -- with nothing taken no offset is skipped
        have hzero : i = 0 := by
          by_contra hne
          obtain ⟨t, ht, -⟩ := hbefore 0 s.zero_mem_offsets (lt_of_le_of_ne hnonneg (Ne.symm hne))
          rw [hnone] at ht
          cases ht
        rw [hzero, add_zero, run_pure]
    · rw [hloop, run_pure]
  unfold invoiceAmount
  rw [if_pos (by simp [hcard, hpos]), run_bind, hunique']
  simp only [run_pure]
  split
  · rfl
  · next hle =>
      obtain rfl : i = 0 := by omega
      rw [add_zero]

end Amount

/-! ## Runs -/

/-- A call that may open a card invoice. -/
inductive InvoiceCall
  | order (x : Proc) (shop : StoreSettings) (input : NewOrder)
  | topup (customerId : CustomerId) (customer : Customer) (amount : ℤ) (method : PaymentMethod)
      (assetId : Option String)

namespace InvoiceCall

/-- The procedure of a call. -/
def prog (s : CardAmounts) : InvoiceCall → Service Unit
  | order x shop input => (createCardOrder x shop s input).void
  | topup customerId customer amount method assetId =>
      (createCustomerTopup customerId customer amount method assetId).void

/-- An order finds a free amount, and a top-up asks for one. -/
def fits (s : CardAmounts) (box : AdminId) : InvoiceCall → World → Prop
  | order _ _ input, w => input.method = .card → 0 < input.amount → input.adminId = box →
      w.FindsFree s box input.amount
  | topup _ customer amount method _, w => method = .card → customer.adminId = box →
      w.Clear box s.toleranceIrt amount

end InvoiceCall

section Runs

variable {s : CardAmounts} {c : CardAuto} {box : AdminId} {w₀ w : World}

/-- A call that fits keeps the invoices apart. -/
theorem InvoiceCall.apart (call : InvoiceCall) (hmode : s.mode ≠ .manual)
    (hunique : s.uniqueAmount = true) (h : w.Apart box s.toleranceIrt) (hfits : call.fits s box w) :
    ((call.prog s).run w).2.Apart box s.toleranceIrt := by
  cases call with
  | topup customerId customer amount method assetId =>
      rw [prog, run_void]
      exact h.opens (createCustomerTopup_invoices customerId customer amount method assetId w) hfits
  | order x shop input =>
      rw [prog, run_void, createCardOrder, run_bind]
      by_cases hbox : input.adminId = box
      · subst hbox
        by_cases hcard : input.method = .card ∧ 0 < input.amount
        · obtain ⟨a, hrun, hclear⟩ :=
            invoiceAmount_clear hmode hunique hcard.1 hcard.2 (hfits hcard.1 hcard.2 rfl)
          rw [hrun]
          exact h.opens (createOrder_invoices x shop { input with amount := a } w) fun _ _ => hclear
        · rw [invoiceAmount, if_neg (by simpa using hcard)]
          exact h.opens (createOrder_invoices x shop input w) fun hmay => absurd hmay hcard
      -- an invoice of another seller
      · have hfirst := (invoiceAmount_opensNone s input).run .refl (fun _ _ _ => .trans) w
        rcases hrun : (invoiceAmount s input).run w with ⟨e | a, w₁⟩
        · rw [hrun] at hfirst
          exact h.noneOpens hfirst
        · rw [hrun] at hfirst
          exact (h.noneOpens hfirst).opens
            (createOrder_invoices x shop { input with amount := a } w₁) fun _ hb => absurd hb hbox

/-- Where invoices are apart, a deposit of an invoice's amount has no other candidate. -/
theorem World.Apart.attributes (h : w.Apart box c.toleranceIrt) : w.Attributes box c := by
  intro i p dep hp hamount href r hr
  have hcand : r ∈ amountOrRef c dep (w.lookedAt box c) := by
    unfold narrow at hr
    split at hr
    · exact (List.mem_filter.mp hr).1
    · exact hr
  obtain ⟨hget, hfresh⟩ := mem_lookedAt (amountOrRef_subset hcand)
  have hopen : w.OpenInvoice box r.1 r.2 := ⟨hget, by
    simp only [World.fresh, Bool.and_eq_true] at hfresh
    exact hfresh.1⟩
  have byAmount : r ∈ (w.lookedAt box c).filter (fun r =>
      withinTolerance c.toleranceIrt r.2 dep.amount) → r.1 = i := by
    intro hmem
    by_contra hne
    have hfar := h r.1 r.2 i p hopen hp hne
    have hnear := of_decide_eq_true (List.mem_filter.mp hmem).2
    rw [hamount] at hnear
    omega
  unfold amountOrRef at hcand
  dsimp only at hcand
  by_cases hempty : dep.refId = ""
  · rw [if_pos hempty, if_neg (by decide)] at hcand
    exact byAmount hcand
  · rw [if_neg hempty] at hcand
    split at hcand
    · obtain ⟨hrow, hsame⟩ := List.mem_filter.mp hcand
      exact href r hrow hsame hempty
    · exact byAmount hcand

/-- In every run whose orders find a free amount and whose top-ups ask for one, the open invoices of
the seller stay apart, and a deposit of an invoice's amount is attributed to it. -/
theorem invoices_apart_run (hmode : s.mode ≠ .manual) (hunique : s.uniqueAmount = true)
    (htol : c.toleranceIrt = s.toleranceIrt) (hstart : w₀.Apart box s.toleranceIrt)
    (hrun : Serial.Run (InvoiceCall.prog s) NoneOpens (InvoiceCall.fits s box) w₀ w) :
    w.Apart box s.toleranceIrt ∧ w.Attributes box c := by
  have hapart : w.Apart box s.toleranceIrt :=
    hrun.invariant hstart (fun call _ h hfits => call.apart hmode hunique h hfits) fun _ _ h hw =>
      h.noneOpens hw
  exact ⟨hapart, World.Apart.attributes (by rw [htol]; exact hapart)⟩

end Runs

/-! ## Two top-ups -/

section Decidable

variable (w : World) (box : AdminId)

instance (tol : ℕ) (a : ℤ) : Decidable (w.Clear box tol a) :=
  decidable_of_iff (∀ r ∈ w.payments.rows, r.2.isOpenCard box → tol < (r.2.amount - a).natAbs) <| by
    constructor
    · rintro h i p ⟨hp, hopen⟩
      exact h (i, p) ((w.payments.mem_rows_iff i p).mpr hp) hopen
    · intro h r hr hopen
      exact h r.1 r.2 ⟨(w.payments.mem_rows_iff r.1 r.2).mp hr, hopen⟩

instance (tol : ℕ) : Decidable (w.Apart box tol) :=
  decidable_of_iff (∀ r ∈ w.payments.rows, r.2.isOpenCard box → ∀ q ∈ w.payments.rows,
      q.2.isOpenCard box → r.1 ≠ q.1 → tol < (r.2.amount - q.2.amount).natAbs) <| by
    constructor
    · rintro h i p j q ⟨hp, hopen⟩ ⟨hq, hopen'⟩ hij
      exact h (i, p) ((w.payments.mem_rows_iff i p).mpr hp) hopen (j, q)
        ((w.payments.mem_rows_iff j q).mpr hq) hopen' hij
    · intro h r hr hopen q hq hopen' hij
      exact h r.1 r.2 q.1 q.2 ⟨(w.payments.mem_rows_iff r.1 r.2).mp hr, hopen⟩
        ⟨(w.payments.mem_rows_iff q.1 q.2).mp hq, hopen'⟩ hij

instance (s : CardAmounts) (base : ℤ) : Decidable (w.FindsFree s box base) :=
  inferInstanceAs (Decidable (∃ i ∈ s.offsets, w.Clear box s.toleranceIrt (base + i) ∧
    ∀ j ∈ s.offsets, j < i → ∃ t ∈ takenAmounts w box (s.since w.now), s.near t (base + j)))

end Decidable

/-- The settings of a seller whose card invoices are matched by SMS. -/
def smsAmounts : CardAmounts := ⟨.sms, true, 120, 0⟩

/-- A shop that takes cards. -/
def cardInvoiceShop : StoreSettings :=
  { StoreSettings.blank 2 with enabled := true, cardEnabled := true, cardNumber := some "6037" }

/-- A panel with that shop and no payments. -/
def cardInvoiceWorld : World := { World.blank with shops := .ofRows [(2, cardInvoiceShop)] }

/-- A top-up of a customer of the shop. -/
def invoiceTopup (customerId : CustomerId) (amount : ℤ) : InvoiceCall :=
  .topup customerId ⟨2, 0⟩ amount .card none

/-- A guest's order. -/
def invoiceOrder (token : String) (amount : ℤ) : InvoiceCall :=
  .order .web cardInvoiceShop ⟨token, 2, amount, .card, none, none, false⟩

/-- Two customers top up the same amount: both invoices are open with one amount. -/
theorem twin_topups_collide :
      ∃ w, Serial.Run (InvoiceCall.prog smsAmounts) NoneOpens (fun _ _ => True) cardInvoiceWorld w ∧
      cardInvoiceWorld.Apart 2 smsAmounts.toleranceIrt ∧
      ¬w.Apart 2 smsAmounts.toleranceIrt :=
  ⟨_, Serial.calls_run _ [invoiceTopup 5 50000, invoiceTopup 6 50000] _, by decide +kernel, by
    decide +kernel⟩

/-- The panel after two orders of one amount and a top-up of another. -/
def settledInvoices : World :=
  Serial.calls (InvoiceCall.prog smsAmounts)
    [invoiceOrder "a" 50000, invoiceOrder "b" 50000, invoiceTopup 5 60000] cardInvoiceWorld

/-- The second of two orders of one amount is moved by one toman. -/
theorem invoices_apart_run_orders :
    (settledInvoices.payments.rows.map fun r => r.2.amount) = [60000, 50001, 50000] ∧
      settledInvoices.Apart 2 smsAmounts.toleranceIrt ∧ settledInvoices.Attributes 2 .default :=
  ⟨by decide +kernel, invoices_apart_run (by decide) rfl rfl (by decide +kernel)
    (.head (.call (invoiceOrder "a" 50000) fun _ _ _ => by decide +kernel)
      (.head (.call (invoiceOrder "b" 50000) fun _ _ _ => by decide +kernel)
        (.single (.call (invoiceTopup 5 60000) fun _ _ => by decide +kernel))))⟩

end SRPanel
