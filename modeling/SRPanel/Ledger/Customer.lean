import SRPanel.Ledger.Admin

/-!
# The customer ledger

Credits and debits of customer wallets that interleave statement by statement. The database itself
adds the amount, so no movement is lost and the credit is always the sum of the ledger. What can go
wrong is the test for sufficient funds, which is another statement: the credit stays non-negative as
long as no other debit takes money between the test of a debit and its update.
-/

namespace SRPanel

open Interleaving ReadCommitted

namespace Sql

/-- The wallet of every customer holds the sum of its ledger rows. -/
def Summed (w : World) : Prop :=
  ∀ id c, creditOf w (.customer id) = some c → c = moved w.customerTxs id

/-- No customer wallet is overdrawn. -/
def Solvent (w : World) : Prop := ∀ id c, creditOf w (.customer id) = some c → 0 ≤ c

/-! ## One movement -/

/-- The credit and the ledger row that a movement commits. -/
def added (row : WalletTx CustomerId) (w : World) : World :=
  { w with
    customers := w.customers.modify row.holder fun c => { c with credit := c.credit + row.amount }
    customerTxs := row :: w.customerTxs }

theorem creditOf_added (row : WalletTx CustomerId) (w : World) (id : CustomerId) :
    creditOf (added row w) (.customer id) =
      (creditOf w (.customer id)).map (· + if row.holder = id then row.amount else 0) := by
  simp only [creditOf, added, Table.get?_modify, Option.map_map]
  by_cases hid : id = row.holder
  · rw [if_pos hid, if_pos hid.symm, Option.map_map]
    rfl
  · rw [if_neg hid, if_neg (Ne.symm hid)]
    simp [Function.comp_def]

theorem creditOf_added_of_ne (row : WalletTx CustomerId) (w : World) {k : Row}
    (hk : k ≠ .customer row.holder) : creditOf (added row w) k = creditOf w k := by
  cases k with
  | admin id => rfl
  | customer id =>
      rw [creditOf_added, if_neg fun h => hk (by rw [h])]
      simp

theorem Summed.added {w : World} (h : Summed w) (row : WalletTx CustomerId) :
    Summed (added row w) := by
  intro id c hc
  rw [creditOf_added] at hc
  obtain ⟨c₀, hc₀, rfl⟩ := Option.map_eq_some_iff.mp hc
  rw [Sql.added, moved_cons, h id c₀ hc₀, add_comm]

theorem Solvent.added {w : World} (h : Solvent w) {row : WalletTx CustomerId}
    (hrow : ∀ c, creditOf w (.customer row.holder) = some c → 0 ≤ c + row.amount) :
    Solvent (added row w) := by
  intro id c hc
  rw [creditOf_added] at hc
  obtain ⟨c₀, hc₀, rfl⟩ := Option.map_eq_some_iff.mp hc
  split
  · next hid => exact hrow c₀ (by rw [hid, hc₀])
  · rw [add_zero]
    exact h id c₀ hc₀

/-- What the code has tested in front of an update: a credit adds money, and a debit takes no more
than the credit that it has read. -/
def Tested (amount : ℤ) : Option ℤ → Prop
  | none => 0 ≤ amount
  | some seen => 0 ≤ seen + amount

/-- When the update of a debit runs, the committed credit is not below the one that its test has
read: no other debit has been committed in between. -/
def Untaken : Stmt → Db → Prop
  | .lock (.customer id) (.add _ (some seen)), s =>
      ∀ c, creditOf s.data (.customer id) = some c → seen ≤ c
  | _, _ => True

instance : ∀ (l : Stmt) (s : Db), Decidable (Untaken l s)
  | .lock (.customer id) (.add _ (some seen)), s =>
      decidable_of_iff (∀ c ∈ creditOf s.data (.customer id), seen ≤ c) (by simp [Untaken])
  | .lock (.customer _) (.add _ none), _ => isTrue trivial
  | .lock (.customer _) (.set _), _ => isTrue trivial
  | .lock (.admin _) _, _ => isTrue trivial
  | .plain, _ => isTrue trivial

/-- The statements run as the locks allow, and no debit comes between the test and the update of
another. -/
def Apart (l : Stmt) (s : Db) : Prop := l.Ready s ∧ Untaken l s

instance (l : Stmt) (s : Db) : Decidable (Apart l s) := inferInstanceAs (Decidable (_ ∧ _))

/-- A tested movement that nothing has come in front of leaves the credit non-negative. -/
theorem Tested.covered {amount : ℤ} {seen : Option ℤ} {customerId : CustomerId} {s : Db}
    (h : Tested amount seen) (hs : Untaken (.lock (.customer customerId) (.add amount seen)) s)
    (hsolvent : Solvent s.data) :
    ∀ c, creditOf s.data (.customer customerId) = some c → 0 ≤ c + amount := by
  intro c hc
  cases seen with
  | none =>
      have hadd : 0 ≤ amount := h
      have hcredit := hsolvent customerId c hc
      omega
  | some seen =>
      have htest : 0 ≤ seen + amount := h
      have hread : seen ≤ c := hs c hc
      omega

section Movement

variable {ok : Stmt → Db → Prop} {J : World → Prop}

/-- A tested movement that runs its update from a credit that `ok` allows may be committed as long
as that credit lasts. -/
def Commits (ok : Stmt → Db → Prop) (J : World → Prop) : Prop :=
  ∀ (row : WalletTx CustomerId) seen s w, J s.data → Tested row.amount seen →
    ok (.lock (.customer row.holder) (.add row.amount seen)) s → J w →
    creditOf w (.customer row.holder) = creditOf s.data (.customer row.holder) → J (added row w)

variable (hready : ∀ k x s, ok (.lock k x) s → k ∉ s.locks) (hJ : Commits ok J)

include hready hJ

private theorem moveCredit_safe (customerId : CustomerId) (amount : ℤ) (kind : WalletTxKind)
    (ref : TxRef) (byAdminId : Option AdminId) {seen : Option ℤ} (htested : Tested amount seen) :
    Tx.Safe ok creditOf J (fun _ b g => b.Sound creditOf J g) (fun b g => b.keys = g.map Prod.fst)
      (moveCredit customerId amount kind ref byAdminId seen) .empty 0 := by
  refine Tx.safe_bind (R := fun _ b g => ∃ c, g = {(.customer customerId, c)} ∧
    b = ⟨{.customer customerId}, fun w =>
      { w with customers := w.customers.modify customerId fun r =>
        { r with credit := r.credit + amount } }⟩ ∧
    ∀ row : WalletTx CustomerId, row.holder = customerId → row.amount = amount →
      ∀ w, J w → creditOf w (.customer customerId) = c → J (added row w)) ?_ ?_
  · refine Tx.safe_update (hready _ _) (fun s credit w hs hok hF => ?_) rfl
    rcases hc : s.data.customers.get? customerId with _ | r
    · rw [show Draft.empty.apply s.data = s.data from rfl, hc] at hF
      exact nomatch hF
    · rw [show Draft.empty.apply s.data = s.data from rfl, hc] at hF
      obtain rfl := (Prod.mk.inj (Except.ok.inj hF)).2
      refine ⟨_, rfl, rfl, ?_⟩
      rintro row rfl rfl w hw hsame
      exact hJ row seen s w hs htested hok hw hsame
  · rintro credit _ _ ⟨c, rfl, rfl, hadd⟩
    generalize hrow : (⟨customerId, kind, amount, credit, ref, byAdminId⟩ : WalletTx CustomerId) =
    row
    have hholder : row.holder = customerId := by rw [← hrow]
    have hamount : row.amount = amount := by rw [← hrow]
    refine Tx.safe_bind (R := fun _ b g => g = {(.customer customerId, c)} ∧
      b = ⟨{.customer customerId}, added row⟩) (Tx.safe_insert ⟨rfl, ?_⟩) ?_
    · refine congrArg _ (funext fun w => ?_)
      rw [added, hholder, hamount]
    · rintro _ _ _ ⟨rfl, rfl⟩
      refine Tx.safe_pure ⟨rfl, fun w hw hfixed => ?_, fun w k hk => ?_⟩
      · exact hadd row hholder hamount w hw (by simpa using hfixed)
      · exact creditOf_added_of_ne _ _ (by simpa [hholder] using hk)

private theorem creditCustomerWallet_safe (customerId : CustomerId) (amount : ℤ)
    (kind : WalletTxKind) (ref : TxRef) (byAdminId : Option AdminId) :
    Interleaving.Safe ok (Inv creditOf J) (fun _ _ => True) (fun _ g => g = 0) (fun _ g => g = 0)
      (creditCustomerWallet customerId amount kind ref byAdminId) 0 :=
  safe_ite (fun _ => safe_throw rfl) fun hpos =>
    safe_transaction (moveCredit_safe hready hJ customerId amount kind ref byAdminId
      (show 0 ≤ amount from (not_le.mp hpos).le))

private theorem debitCustomerWallet_safe (customerId : CustomerId) (amount : ℤ)
    (kind : WalletTxKind) (ref : TxRef) (byAdminId : Option AdminId) :
    Interleaving.Safe ok (Inv creditOf J) (fun _ _ => True) (fun _ g => g = 0) (fun _ g => g = 0)
      (debitCustomerWallet customerId amount kind ref byAdminId) 0 := by
  refine safe_ite (fun _ => safe_throw rfl) fun _ => safe_transaction ?_
  refine Tx.safe_bind (R := fun _ b g => b = .empty ∧ g = 0) (Tx.safe_select fun _ => ⟨rfl, rfl⟩) ?_
  rintro (_ | current) _ _ ⟨rfl, rfl⟩
  · exact Tx.safe_fail rfl
  · dsimp only
    split
    · exact Tx.safe_fail rfl
    · next henough =>
      have htested : Tested (-amount) (some current.credit) := by
        show 0 ≤ current.credit + -amount
        omega
      exact moveCredit_safe hready hJ customerId (-amount) kind ref byAdminId htested

end Movement

/-! ## The calls -/

/-- A call that moves money on customer wallets. -/
inductive MoveCall
  | creditCustomerWallet (customerId : CustomerId) (amount : ℤ) (kind : WalletTxKind) (ref : TxRef)
      (byAdminId : Option AdminId)
  | debitCustomerWallet (customerId : CustomerId) (amount : ℤ) (kind : WalletTxKind) (ref : TxRef)
      (byAdminId : Option AdminId)

def MoveCall.run : MoveCall → Prog Stmt Db AppError Unit
  | .creditCustomerWallet customerId amount kind ref byAdminId =>
      (Sql.creditCustomerWallet customerId amount kind ref byAdminId).void
  | .debitCustomerWallet customerId amount kind ref byAdminId =>
      (Sql.debitCustomerWallet customerId amount kind ref byAdminId).void

private theorem movements_keep {ok : Stmt → Db → Prop} {J : World → Prop}
    (hready : ∀ k x s, ok (.lock k x) s → k ∉ s.locks) (hJ : Commits ok J)
    (henv : ∀ w w', J w → (∀ k, creditOf w' k = creditOf w k) →
      w'.customerTxs = w.customerTxs → J w')
    {w₀ : World} (h₀ : J w₀) {calls : List MoveCall} {c : Pool Stmt Db AppError}
    (h : Pool.Run Elsewhere ok ⟨⟨w₀, 0⟩, calls.map MoveCall.run⟩ c) : J c.store.data := by
  have hgood : (⟨⟨w₀, 0⟩, calls.map MoveCall.run⟩ : Pool Stmt Db AppError).Good ok
      (Inv creditOf J) fun _ _ => True := by
    refine .of_safe ⟨h₀, .zero⟩ fun p hp => ?_
    obtain ⟨call, -, rfl⟩ := List.mem_map.mp hp
    cases call with
    | creditCustomerWallet customerId amount kind ref byAdminId =>
        exact safe_void (safe_mono (creditCustomerWallet_safe hready hJ _ _ _ _ _)
          (fun _ _ _ => trivial) fun _ _ _ => trivial)
    | debitCustomerWallet customerId amount kind ref byAdminId =>
        exact safe_void (safe_mono (debitCustomerWallet_safe hready hJ _ _ _ _ _)
          (fun _ _ _ => trivial) fun _ _ _ => trivial)
  have helse : ∀ s s' g, Inv creditOf J s g → Elsewhere s s' → Inv creditOf J s' g ∧ True := by
    rintro s s' g ⟨hs, hP⟩ he
    exact ⟨⟨henv _ _ hs he.credit he.customerTxs, he.pinned hP⟩, trivial⟩
  obtain ⟨g, hI⟩ := (hgood.run helse h).inv
  exact hI.1

/-- No movement is lost, whatever the order of the statements. -/
theorem customer_credit_summed {w₀ : World} (h₀ : Summed w₀) {calls : List MoveCall}
    {c : Pool Stmt Db AppError}
    (h : Pool.Run Elsewhere Stmt.Ready ⟨⟨w₀, 0⟩, calls.map MoveCall.run⟩ c) :
    Summed c.store.data := by
  refine movements_keep (fun _ _ _ h => h) (fun row _ _ w _ _ _ hw _ => hw.added row) ?_ h₀ h
  intro w w' hw hcredit htxs id c hc
  rw [htxs]
  exact hw id c (by rw [← hcredit, hc])

/-- **Customer wallets.** In every run of credits and debits in which no debit is committed between
the test and the update of another debit of that customer, every committed state has each customer's
credit non-negative and equal to the sum of the customer's ledger rows. -/
theorem customer_credit_solvent {w₀ : World} (hsum : Summed w₀) (hsolvent : Solvent w₀)
    {calls : List MoveCall} {c : Pool Stmt Db AppError}
    (h : Pool.Run Elsewhere Apart ⟨⟨w₀, 0⟩, calls.map MoveCall.run⟩ c) :
    Solvent c.store.data ∧ Summed c.store.data := by
  have hkeep : Commits Apart fun w => Solvent w ∧ Summed w := by
    rintro row seen s w ⟨hs, -⟩ htested hok ⟨hw, hws⟩ hsame
    exact ⟨hw.added fun c hc => htested.covered hok.2 hs c (by rw [← hsame, hc]), hws.added row⟩
  refine movements_keep (fun _ _ _ h => h.1) hkeep ?_ ⟨hsolvent, hsum⟩ h
  rintro w w' ⟨hw, hws⟩ hcredit htxs
  refine ⟨fun id c hc => hw id c (by rw [← hcredit, hc]), fun id c hc => ?_⟩
  rw [htxs]
  exact hws id c (by rw [← hcredit, hc])

/-- A customer who has paid in a hundred toman. -/
def walletWorld : World :=
  { World.blank with
    customers := .ofRows [(1, ⟨2, 100⟩)]
    customerTxs := [⟨1, .topup, 100, 100, .payment 50, none⟩] }

/-- An order paid from the wallet. -/
def purchase (amount : ℤ) (order : String) : MoveCall :=
  .debitCustomerWallet 1 amount .purchase (.other (some "order") (some order)) none

def twoPurchases : Pool Stmt Db AppError :=
  ⟨⟨walletWorld, 0⟩, [purchase 80 "a", purchase 60 "b"].map MoveCall.run⟩

private theorem walletWorld_summed : Summed walletWorld ∧ Solvent walletWorld := by
  have hone : ∀ id c, creditOf walletWorld (.customer id) = some c → id = 1 ∧ c = 100 := by
    intro id c hc
    by_cases hid : id = 1
    · subst hid
      exact ⟨rfl, (Option.some.inj hc).symm⟩
    · rw [creditOf, walletWorld, Table.ofRows] at hc
      simp [Table.get?_set_of_ne _ _ hid] at hc
  constructor
  · intro id c hc
    obtain ⟨rfl, rfl⟩ := hone id c hc
    rfl
  · intro id c hc
    obtain ⟨rfl, rfl⟩ := hone id c hc
    decide

/-- The second purchase starts after the first one's commit, and is refused. -/
theorem customer_credit_solvent_purchases : ∃ c,
    Pool.Run Elsewhere Apart twoPurchases c ∧ c.Done ∧
      (Solvent c.store.data ∧ Summed c.store.data) ∧
      creditOf c.store.data (.customer 1) = some 20 := by
  have hrun : Pool.Run Elsewhere Apart twoPurchases
      (twoPurchases.schedule [0, 0, 0, 0, 1, 1]) := Pool.schedule_run _ _ _ (by decide)
  exact ⟨_, hrun, by decide,
    customer_credit_solvent walletWorld_summed.1 walletWorld_summed.2 hrun, by decide⟩

/-- Both purchases find the money before either takes it. -/
theorem debitCustomerWallet_overdraws : ∃ c,
    Pool.Run (fun _ _ => False) Stmt.Ready twoPurchases c ∧ c.Done ∧ ¬ Solvent c.store.data := by
  refine ⟨twoPurchases.schedule [0, 1, 0, 0, 0, 1, 1, 1],
    Pool.schedule_run _ _ _ (by decide), by decide, fun h => ?_⟩
  exact absurd (h 1 (-40) (by decide)) (by decide)

end Sql

end SRPanel
