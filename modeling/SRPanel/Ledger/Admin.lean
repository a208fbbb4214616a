import SRPanel.Model.Sql

/-!
# The admin ledger

Charges of admin wallets that interleave statement by statement. A charge reads the credit, computes
the new one, and writes it as a value; it is right to do so as long as no other charge of the same
admin is committed in between. Then the credit is the initial credit plus all rows of the ledger,
every row carries the balance right after it, and no purchase goes below the credit limit.
-/

namespace SRPanel

open Interleaving Prog ReadCommitted

/-! ## The agreement -/

/-- What the rows of a ledger move on the wallet of `id`. -/
def moved {ι : Type} [DecidableEq ι] (rows : List (WalletTx ι)) (id : ι) : ℤ :=
  ((rows.filter fun r => r.holder = id).map WalletTx.amount).sum

section Moved

variable {ι : Type} [DecidableEq ι]

@[simp] theorem moved_nil (id : ι) : moved [] id = 0 := rfl

theorem moved_cons (r : WalletTx ι) (rows : List (WalletTx ι)) (id : ι) :
    moved (r :: rows) id = (if r.holder = id then r.amount else 0) + moved rows id := by
  unfold moved
  by_cases h : r.holder = id <;> simp [h]

end Moved

namespace Sql

/-- The admin wallets of `w` against those of `w₀`, with the ledger rows written since, newest
first. -/
structure AdminLedger (w₀ : World) (rows : List (WalletTx AdminId)) (w : World) : Prop where
  written : w.walletTxs = rows ++ w₀.walletTxs
  credit : ∀ id, creditOf w (.admin id) = (creditOf w₀ (.admin id)).map (· + moved rows id)
  balanceAfter : ∀ later r earlier, rows = later ++ r :: earlier →
    some r.balanceAfter = (creditOf w₀ (.admin r.holder)).map (· + moved (r :: earlier) r.holder)
  purchase : ∀ r ∈ rows, r.kind = .purchase → -(w₀.creditLimit : ℤ) ≤ r.balanceAfter

theorem AdminLedger.start (w₀ : World) : AdminLedger w₀ [] w₀ where
  written := rfl
  credit id := by
    rcases creditOf w₀ (.admin id) with _ | c
    · rfl
    · simp
  balanceAfter later r earlier h := absurd h (by simp)
  purchase := nofun

/-- Some rows make the wallets agree with the ledger. -/
def Agrees (w₀ w : World) : Prop :=
  (∃ rows, AdminLedger w₀ rows w) ∧ w.creditLimit = w₀.creditLimit

/-! ## One charge -/

/-- The credit and the ledger row that a charge commits. -/
def booked (row : WalletTx AdminId) (w : World) : World :=
  { w with
    admins := w.admins.modify row.holder fun a => { a with credit := row.balanceAfter }
    walletTxs := row :: w.walletTxs }

theorem creditOf_booked_of_ne (row : WalletTx AdminId) (w : World) {k : Row}
    (hk : k ≠ .admin row.holder) : creditOf (booked row w) k = creditOf w k := by
  cases k with
  | admin id =>
      have hid : id ≠ row.holder := fun h => hk (by rw [h])
      simp only [creditOf, booked, Table.get?_modify_of_ne _ _ hid]
  | customer id => rfl

/-- A row that starts from the committed credit continues the ledger. -/
theorem AdminLedger.book {w₀ w : World} {rows : List (WalletTx AdminId)} (h : AdminLedger w₀ rows w)
    {row : WalletTx AdminId} {seen : ℤ} (hseen : creditOf w (.admin row.holder) = some seen)
    (hafter : row.balanceAfter = seen + row.amount)
    (hpurchase : row.kind = .purchase → -(w₀.creditLimit : ℤ) ≤ row.balanceAfter) :
    AdminLedger w₀ (row :: rows) (booked row w) := by
  obtain ⟨c₀, hc₀, hsum⟩ : ∃ c₀, creditOf w₀ (.admin row.holder) = some c₀ ∧
      c₀ + moved rows row.holder = seen := by
    rw [h.credit, Option.map_eq_some_iff] at hseen
    exact hseen
  have hrow : some row.balanceAfter =
      (creditOf w₀ (.admin row.holder)).map (· + moved (row :: rows) row.holder) := by
    rw [hc₀, Option.map_some, moved_cons, if_pos rfl, hafter, ← hsum]
    congr 1
    omega
  refine ⟨by rw [booked, h.written, List.cons_append], fun id => ?_, ?_, ?_⟩
  · by_cases hid : id = row.holder
    · rw [hid, ← hrow]
      obtain ⟨a, ha, -⟩ := Option.map_eq_some_iff.mp hseen
      simp only [creditOf, booked, Table.get?_modify_self, ha, Option.map_some]
    · rw [creditOf_booked_of_ne _ _ (by simpa using hid), h.credit, moved_cons,
        if_neg (Ne.symm hid), zero_add]
  · intro later r earlier heq
    cases later with
    | nil =>
        obtain ⟨rfl, rfl⟩ : row = r ∧ rows = earlier := by simpa using heq
        exact hrow
    | cons r' later =>
        obtain ⟨-, hrows⟩ : row = r' ∧ rows = later ++ r :: earlier := by simpa using heq
        exact h.balanceAfter later r earlier hrows
  · intro r hr
    rcases List.mem_cons.mp hr with rfl | hr
    · exact hpurchase
    · exact h.purchase r hr

/-- At every update of an admin's credit, the committed credit is still the one that the new value
was computed from. -/
def Undisturbed : Stmt → Db → Prop
  | .lock (.admin id) (.set seen), s => ∀ c, creditOf s.data (.admin id) = some c → c = seen
  | _, _ => True

instance : ∀ (l : Stmt) (s : Db), Decidable (Undisturbed l s)
  | .lock (.admin id) (.set seen), s =>
      decidable_of_iff (∀ c ∈ creditOf s.data (.admin id), c = seen) (by simp [Undisturbed])
  | .lock (.admin _) (.add _ _), _ => isTrue trivial
  | .lock (.customer _) _, _ => isTrue trivial
  | .plain, _ => isTrue trivial

/-- The statements run as the locks allow, and no charge of the same admin comes between the read
and the update of another. -/
def Orderly (l : Stmt) (s : Db) : Prop := l.Ready s ∧ Undisturbed l s

instance (l : Stmt) (s : Db) : Decidable (Orderly l s) := inferInstanceAs (Decidable (_ ∧ _))

variable {w₀ : World}

private theorem chargeTx_safe (id : AdminId) (amount : ℤ) (kind : WalletTxKind) (ref : TxRef)
    (byAdminId : Option AdminId) (limit : Option ℕ)
    (hlimit : kind = .purchase → limit = some w₀.creditLimit) :
    Tx.Safe Orderly creditOf (Agrees w₀) (fun _ b g => b.Sound creditOf (Agrees w₀) g)
      (fun b g => b.keys = g.map Prod.fst)
      (chargeTx id amount kind ref byAdminId limit) .empty 0 := by
  refine Tx.safe_bind (R := fun _ b g => b = .empty ∧ g = 0) (Tx.safe_select fun _ => ⟨rfl, rfl⟩) ?_
  rintro (_ | a) _ _ ⟨rfl, rfl⟩
  · exact Tx.safe_fail rfl
  · dsimp only
    split
    · exact Tx.safe_fail rfl
    · next hfunds =>
        -- the row that is inserted has the balance that the update writes
        generalize hrow : (⟨id, kind, amount, a.credit + amount, ref, byAdminId⟩ :
          WalletTx AdminId) = row
        refine Tx.safe_bind (R := fun _ b g => g = {(.admin id, some a.credit)} ∧
          b = ⟨{.admin id}, fun w => { w with admins := w.admins.modify id fun r =>
            { r with credit := a.credit + amount } }⟩) ?_ ?_
        · refine Tx.safe_update (fun _ h => h.1) (fun s _ w _ hok hF => ?_) rfl
          rcases ha : s.data.admins.get? id with _ | a'
          · rw [show Draft.empty.apply s.data = s.data from rfl, ha] at hF
            exact nomatch hF
          -- the credit has not moved since the read
          · have hsame : creditOf s.data (.admin id) = some a'.credit := by rw [creditOf, ha]; rfl
            rw [show Draft.empty.apply s.data = s.data from rfl, ha] at hF
            obtain rfl := (Prod.mk.inj (Except.ok.inj hF)).2
            rw [hsame, hok.2 _ hsame]
            exact ⟨rfl, rfl⟩
        · rintro _ _ _ ⟨rfl, rfl⟩
          refine Tx.safe_bind (R := fun _ b g => g = {(.admin id, some a.credit)} ∧
            b = ⟨{.admin id}, booked row⟩) (Tx.safe_insert ⟨rfl, ?_⟩) ?_
          · subst hrow
            rfl
          · rintro _ _ _ ⟨rfl, rfl⟩
            refine Tx.safe_pure ⟨rfl, ?_, ?_⟩
            · rintro w ⟨⟨rows, hw⟩, hcap⟩ hfixed
              have hseen : creditOf w (.admin id) = some a.credit := by simpa using hfixed
              refine ⟨⟨row :: rows, ?_⟩, hcap⟩
              subst hrow
              refine hw.book hseen rfl fun hkind => ?_
              rw [hlimit hkind] at hfunds
              simpa using hfunds
            · intro w k hk
              subst hrow
              exact creditOf_booked_of_ne _ _ (by simpa using hk)

/-! ## A charge alone on the database -/

private theorem run_chargeTx (id : AdminId) (amount : ℤ) (kind : WalletTxKind) (ref : TxRef)
    (byAdminId : Option AdminId) (limit : Option ℕ) (w : World) (locks : Multiset Row) :
    (transaction (chargeTx id amount kind ref byAdminId limit)).run ⟨w, locks⟩ =
      match w.admins.get? id with
      | none => (.error (notFoundError "نماینده یافت نشد"), ⟨w, locks⟩)
      | some a =>
          if limit.any fun (c : ℕ) => a.credit + amount < -(c : ℤ) then
            (.error ⟨"اعتبار کافی نیست", 402, "insufficient_credit"⟩, ⟨w, locks⟩)
          else
            let row := ⟨id, kind, amount, a.credit + amount, ref, byAdminId⟩
            (.ok row, ⟨booked row w, locks⟩) := by
  rw [run_transaction, chargeTx, Tx.run_bind, Tx.run_select]
  rcases ha : w.admins.get? id with _ | a
  · simp [Draft.empty, ha]
  · by_cases hfunds : (limit.any fun (c : ℕ) => a.credit + amount < -(c : ℤ)) = true
    · simp [Draft.empty, ha, hfunds]
    · simp [Draft.empty, ha, hfunds, setCredit, Tx.run_update, booked]

/-- A charge that is alone on the database does what the model of whole transactions says. -/
theorem chargeWallet_run (target : Actor) (amount : ℤ) (kind : WalletTxKind) (ref : TxRef)
    (byAdminId : Option AdminId) (allowNegative : Bool) (w : World) (locks : Multiset Row) :
    (chargeWallet target amount kind ref byAdminId allowNegative).run ⟨w, locks⟩ =
      let r := (SRPanel.chargeWallet target amount kind ref byAdminId allowNegative).run w
      (r.1, ⟨r.2, locks⟩) := by
  unfold chargeWallet SRPanel.chargeWallet
  split
  · rfl
  split
  · rfl
  rw [run_bind, run_bind, run_auto]
  rcases (debitLimit amount allowNegative).run w with ⟨_ | limit, w'⟩
  · rfl
  dsimp only
  rw [run_bind, run_bind, run_chargeTx, Db.read, run_query]
  rcases ha : w'.admins.get? target.id with _ | a
  · rfl
  · by_cases hfunds : (limit.any fun (c : ℕ) => a.credit + amount < -(c : ℤ)) = true
    · simp [hfunds]
    · have hcommit : ∀ row : WalletTx AdminId, row.holder = target.id →
          (commitCharge row).run w' = (.ok row, booked row w') := by
        intro row hrow
        rw [commitCharge, run_step, booked, hrow, ha]
      simp only [hfunds, Bool.false_eq_true, ↓reduceIte, run_bind, hcommit, run_auto]
      rcases (alertAfter _).run _ with ⟨_ | _, _⟩ <;> rfl

/-! ## The calls -/

/-- A message or a line of the audit log changes nothing else. -/
def Told (w w' : World) : Prop := ∃ entries, w' = { w with journal := entries }

private theorem told_refl (w : World) : Told w w := ⟨w.journal, rfl⟩

theorem audit_told (adminId : Option AdminId) (action : String) :
    (audit adminId action).Keeps Told :=
  keeps_attempt (keeps_modify fun _ => ⟨_, rfl⟩) fun _ => keeps_pure ()

theorem alertAfter_told (row : WalletTx AdminId) : (alertAfter row).Keeps Told := by
  refine keeps_ite (keeps_attempt ?_ fun _ => keeps_pure ()) (keeps_pure ())
  refine keeps_bind (keeps_query told_refl _ _) fun limit =>
    keeps_ite (keeps_pure ()) ?_
  refine keeps_bind (keeps_query told_refl _ _) fun a => ?_
  cases a with
  | none => exact keeps_pure ()
  | some a =>
      exact keeps_ite (keeps_pure ())
        (keeps_attempt (keeps_modify fun _ => ⟨_, rfl⟩) fun _ => keeps_pure ())

theorem Agrees.told {w w' : World} (h : Told w w') (hw : Agrees w₀ w) :
    Agrees w₀ w' ∧ ∀ k, creditOf w' k = creditOf w k := by
  obtain ⟨entries, rfl⟩ := h
  obtain ⟨⟨rows, hrows⟩, hcap⟩ := hw
  exact ⟨⟨⟨rows, ⟨hrows.written, hrows.credit, hrows.balanceAfter, hrows.purchase⟩⟩, hcap⟩,
    fun k => by cases k <;> rfl⟩

/-- Between its transactions a call of the wallet services holds no lock. -/
abbrev KeepsLedger {α : Type} (w₀ : World) (p : Session α) : Prop :=
  Interleaving.Safe Orderly (Inv creditOf (Agrees w₀)) (fun _ _ => True) (fun _ g => g = 0)
    (fun _ g => g = 0) p 0

private theorem auto_keepsLedger {α : Type} {p : Service α} (hp : p.Keeps Told) :
    KeepsLedger w₀ (auto p) :=
  safe_auto hp fun _ _ => Agrees.told

/-- A purchase is a debit that respects the credit limit. -/
def Debit (amount : ℤ) (kind : WalletTxKind) (allowNegative : Bool) : Prop :=
  kind = .purchase → amount < 0 ∧ allowNegative = false

theorem chargeWallet_keepsLedger (target : Actor) {amount : ℤ} {kind : WalletTxKind} (ref : TxRef)
    (byAdminId : Option AdminId) {allowNegative : Bool} (hkind : Debit amount kind allowNegative) :
    KeepsLedger w₀ (chargeWallet target amount kind ref byAdminId allowNegative) := by
  refine safe_ite (fun _ => safe_pure rfl) fun _ => safe_ite (fun _ => safe_pure rfl) fun _ => ?_
  refine safe_bind (R := fun limit g => g = 0 ∧
    (kind = .purchase → limit = some w₀.creditLimit)) ?_ ?_
  · unfold debitLimit
    split
    · rw [Db.read, auto_query]
      refine safe_query (fun _ => trivial) fun s r hI _ => ⟨rfl, fun _ => ?_⟩
      exact congrArg some hI.1.2
    · next hlimit =>
        refine safe_pure ⟨rfl, fun h => absurd ?_ hlimit⟩
        obtain ⟨hneg, hallow⟩ := hkind h
        simp [hneg, hallow]
  · rintro limit _ ⟨rfl, hlimit⟩
    refine safe_bind (safe_transaction
      (chargeTx_safe target.id amount kind ref byAdminId limit hlimit)) ?_
    · rintro row _ rfl
      refine safe_bind (auto_keepsLedger (alertAfter_told row)) ?_
      rintro _ _ rfl
      exact safe_pure rfl

theorem adjustCredit_keepsLedger (actor : Actor) (adminId : AdminId) (amount : ℤ) :
    KeepsLedger w₀ (adjustCredit actor adminId amount) := by
  refine safe_ite (fun _ => safe_throw rfl) fun _ => safe_ite (fun _ => safe_throw rfl) fun _ => ?_
  refine safe_bind (R := fun _ g => g = 0) (auto_keepsLedger (keeps_query told_refl _ _)) ?_
  rintro (_ | a) _ rfl
  · exact safe_throw rfl
  · refine safe_bind (chargeWallet_keepsLedger _ _ _ fun h => nomatch h) ?_
    rintro tx _ rfl
    refine safe_bind (auto_keepsLedger (audit_told _ _)) ?_
    rintro _ _ rfl
    exact safe_pure rfl

/-- A call that moves money on admin wallets. -/
inductive ChargeCall
  | chargeWallet (target : Actor) (amount : ℤ) (kind : WalletTxKind) (ref : TxRef)
      (byAdminId : Option AdminId) (allowNegative : Bool)
  | adjustCredit (actor : Actor) (adminId : AdminId) (amount : ℤ)

def ChargeCall.run : ChargeCall → Prog Stmt Db AppError Unit
  | .chargeWallet target amount kind ref byAdminId allowNegative =>
      (Sql.chargeWallet target amount kind ref byAdminId allowNegative).void
  | .adjustCredit actor adminId amount => (Sql.adjustCredit actor adminId amount).void

/-- Purchases are debits that respect the credit limit, as they are at every caller. -/
def ChargeCall.Debits : ChargeCall → Prop
  | .chargeWallet _ amount kind _ _ allowNegative => Debit amount kind allowNegative
  | .adjustCredit _ _ _ => True

/-- A change of the database that leaves wallets, ledgers and the credit limit alone. -/
structure Elsewhere (s s' : Db) : Prop where
  locks : s'.locks = s.locks
  credit : ∀ k, creditOf s'.data k = creditOf s.data k
  walletTxs : s'.data.walletTxs = s.data.walletTxs
  customerTxs : s'.data.customerTxs = s.data.customerTxs
  creditLimit : s'.data.creditLimit = s.data.creditLimit

theorem Elsewhere.pinned {s s' : Db} {g : Multiset (Row × Option ℤ)} (he : Elsewhere s s')
    (hP : Pinned creditOf s g) : Pinned creditOf s' g := by
  have hchange := hP.change fun k _ => he.credit k
  rwa [show (⟨s'.data, s.locks⟩ : Db) = s' by rw [← he.locks]] at hchange

/-- **Ledger agreement.** In every run of charges in which no charge of the same admin comes between
the read and the update of another, the credit is the initial credit plus the rows written, each
row's `balanceAfter` is the balance right after it in commit order, and no purchase goes below the
credit limit. -/
theorem chargeWallet_ledger_agrees {w₀ : World} {calls : List ChargeCall}
    {c : Pool Stmt Db AppError} (hcalls : ∀ call ∈ calls, call.Debits)
    (h : Pool.Run Elsewhere Orderly ⟨⟨w₀, 0⟩, calls.map ChargeCall.run⟩ c) :
    ∃ rows, AdminLedger w₀ rows c.store.data := by
  have hgood : (⟨⟨w₀, 0⟩, calls.map ChargeCall.run⟩ : Pool Stmt Db AppError).Good Orderly
      (Inv creditOf (Agrees w₀)) fun _ _ => True := by
    refine .of_safe ⟨⟨⟨[], .start w₀⟩, rfl⟩, .zero⟩ fun p hp => ?_
    obtain ⟨call, hmem, rfl⟩ := List.mem_map.mp hp
    cases call with
    | chargeWallet target amount kind ref byAdminId allowNegative =>
        exact safe_void (safe_mono (chargeWallet_keepsLedger target ref byAdminId (hcalls _ hmem))
          (fun _ _ _ => trivial) fun _ _ _ => trivial)
    | adjustCredit actor adminId amount =>
        exact safe_void (safe_mono (adjustCredit_keepsLedger actor adminId amount)
          (fun _ _ _ => trivial) fun _ _ _ => trivial)
  have henv : ∀ s s' g, Inv creditOf (Agrees w₀) s g → Elsewhere s s' →
      Inv creditOf (Agrees w₀) s' g ∧ True := by
    rintro s s' g ⟨⟨⟨rows, hrows⟩, hcap⟩, hP⟩ he
    refine ⟨⟨⟨⟨rows, ?_, ?_, hrows.balanceAfter, hrows.purchase⟩, he.creditLimit.trans hcap⟩, ?_⟩,
      trivial⟩
    · rw [he.walletTxs, hrows.written]
    · exact fun id => (he.credit _).trans (hrows.credit id)
    · exact he.pinned hP
  obtain ⟨g, hI⟩ := (hgood.run henv h).inv
  exact hI.1.1

/-- A reseller with a credit of a hundred toman. -/
def resellerWorld : World :=
  { World.blank with admins := .ofRows [(1, ⟨.owner, 0, 0⟩), (2, ⟨.admin, 100, 0⟩)] }

/-- A sale to the reseller. -/
def sale (amount : ℤ) (client : String) : ChargeCall :=
  .chargeWallet ⟨2, .admin⟩ amount .purchase (.other (some "client") (some client)) none false

def twoSales : Pool Stmt Db AppError :=
  ⟨⟨resellerWorld, 0⟩, [sale (-30) "a", sale (-50) "b"].map ChargeCall.run⟩

/-- Two sales whose transactions do not overlap. -/
theorem chargeWallet_ledger_agrees_sales : ∃ c,
    Pool.Run Elsewhere Orderly twoSales c ∧ c.Done ∧
      (∃ rows, AdminLedger resellerWorld rows c.store.data) ∧
      creditOf c.store.data (.admin 2) = some 20 := by
  have hrun : Pool.Run Elsewhere Orderly twoSales
      (twoSales.schedule [0, 1, 0, 0, 0, 0, 1, 1, 1, 1, 0, 1]) :=
    Pool.schedule_run _ _ _ (by decide)
  refine ⟨_, hrun, by decide, ?_, by decide⟩
  refine chargeWallet_ledger_agrees (fun call hcall => ?_) hrun
  rcases List.mem_pair.mp hcall with rfl | rfl <;> exact fun _ => ⟨by decide, rfl⟩

/-- Both sales read the credit before either of them updates it: the second update, which has waited
for the first one's commit, overwrites it, and one sale stays in the ledger without being paid. -/
theorem chargeWallet_lost_update : ∃ c,
    Pool.Run (fun _ _ => False) Stmt.Ready twoSales c ∧ c.Done ∧
      ¬ ∃ rows, AdminLedger resellerWorld rows c.store.data := by
  refine ⟨twoSales.schedule [0, 0, 1, 1, 0, 0, 0, 1, 1, 1, 0, 1],
    Pool.schedule_run _ _ _ (by decide), by decide, ?_⟩
  rintro ⟨rows, h⟩
  have hwritten := h.written
  rw [show resellerWorld.walletTxs = [] from rfl, List.append_nil] at hwritten
  have hcredit := h.credit 2
  rw [← hwritten] at hcredit
  exact absurd hcredit (by decide)

end Sql

end SRPanel
