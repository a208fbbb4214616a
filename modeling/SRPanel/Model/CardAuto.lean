import SRPanel.Model.Payments
import SRPanel.Model.Plugins
import Mathlib.Data.Nat.Dist

/-!
# Automatic confirmation of card payments

Deposits arrive by SMS, from a bank bridge or by hand, are matched against the open card payments of
the seller, and are kept in a ring buffer. The buffer is part of one cached setting of the seller
that is read, changed and written back whole.
-/

namespace SRPanel

open Interleaving

/-- `RING`. -/
def RING : ℕ := 40

/-- `cardAutoSettings`, with the time of the read. -/
def cardAutoSettings (x : Proc) (box : AdminId) : Service (CardAuto × Time) :=
  .step .other fun w =>
    (.ok ((w.cards box).get x SETTING_TTL w.now, w.now),
      { w with cards := Function.update w.cards box ((w.cards box).touch x SETTING_TTL w.now) })

/-- The lengths that `depositSchema` accepts. -/
def Deposit.valid (d : Deposit) : Bool :=
  d.refId.length ≤ 60 && d.last4.length ≤ 8 && d.sender.length ≤ 60 && d.raw.length ≤ 400 &&
    d.note.length ≤ 200

/-- `cardAutoSchema` accepts the settings. -/
def CardAuto.valid (s : CardAuto) : Bool :=
  5 ≤ s.windowMin && s.windowMin ≤ 1440 && s.toleranceIrt ≤ 100000 && s.bankApiUrl.length ≤ 500 &&
    s.lastError.length ≤ 400 && s.deposits.length ≤ 60 && s.deposits.all Deposit.valid

/-- The settings that a call of `saveCardAuto` changes; absent fields keep their value. -/
structure CardAutoPatch where
  autoConfirm : Option Bool
  windowMin : Option ℕ
  toleranceIrt : Option ℕ
  requireLast4 : Option Bool
  bankProvider : Option BankProvider
  bankApiUrl : Option String
  bankLastSyncAt : Option Time
  lastError : Option String
  deposits : Option (List Deposit)

/-- `{}`. -/
def CardAutoPatch.empty : CardAutoPatch := ⟨none, none, none, none, none, none, none, none, none⟩

/-- `{ ...current, ...patch }`. -/
def CardAuto.patched (current : CardAuto) (patch : CardAutoPatch) : CardAuto where
  autoConfirm := patch.autoConfirm.getD current.autoConfirm
  windowMin := patch.windowMin.getD current.windowMin
  toleranceIrt := patch.toleranceIrt.getD current.toleranceIrt
  requireLast4 := patch.requireLast4.getD current.requireLast4
  bankProvider := patch.bankProvider.getD current.bankProvider
  bankApiUrl := patch.bankApiUrl.getD current.bankApiUrl
  bankLastSyncAt := patch.bankLastSyncAt.or current.bankLastSyncAt
  lastError := patch.lastError.getD current.lastError
  deposits := patch.deposits.getD current.deposits

/-- Record which deposits enter the stored book of a box, and which of its records say that they
have paid. -/
def History.save (h : History) (box : AdminId) (old new : List Deposit) : History :=
  { h with
    accepted := Function.update h.accepted box
      ((new.map Deposit.id).filter (· ∉ old.map Deposit.id) ++ h.accepted box)
    matched := Function.update h.matched box
      ((new.filter fun d => d.status = .matched) ++ h.matched box) }

/-- `setSetting` of a seller's card settings; the deposits go back to the copy `seen`. -/
def setCardAuto (x : Proc) (box : AdminId) (seen s : CardAuto) : Service CardAuto :=
  .step (.saveBook box seen) fun w =>
    if s.valid then
      (.ok s, { w with
        cards := Function.update w.cards box ((w.cards box).put x w.now s)
        history := w.history.save box (w.cards box).stored.deposits s.deposits })
    else (.error zodError, w)

/-- `saveCardAuto`. A patch with deposits was made from the copy `seen`, any other changes the
settings that are read here. -/
def saveCardAuto (x : Proc) (box : AdminId) (seen : Option CardAuto) (patch : CardAutoPatch) :
    Service CardAuto := do
  let (current, _) ← cardAutoSettings x box
  setCardAuto x box (seen.getD current) (current.patched patch)

/-! ## Matching -/

structure MatchResult where
  status : DepositStatus
  paymentId : Option PaymentId
  note : String
  deriving DecidableEq

/-- The amounts of a payment and a deposit differ by at most the tolerance. -/
def withinTolerance (tol : ℕ) (p : Payment) (amount : ℕ) : Bool := (p.amount - amount).natAbs ≤ tol

/-- The payment carries the deposit's reference number. -/
def sameRef (p : Payment) (refId : String) : Bool :=
  match p.receiptRef with
  | none => false
  | some r => r != "" && digitsOnly r = digitsOnly refId

/-- The open card payments that `matchDeposit` looks at. -/
def openCardPayments (w : World) (box : AdminId) (since : Time) : List (PaymentId × Payment) :=
  ((w.payments.rows.filter fun r => r.2.adminId = box && r.2.method = .card &&
      (r.2.status = .pending || r.2.status = .review) && since ≤ r.2.createdAt).insertionSort
    fun a b => b.2.createdAt ≤ a.2.createdAt).take 200

/-- The candidates by amount, or the one payment that carries the reference. -/
def amountOrRef (s : CardAuto) (dep : Deposit) (rows : List (PaymentId × Payment)) :
    List (PaymentId × Payment) :=
  let byRef := if dep.refId = "" then [] else rows.filter fun r => sameRef r.2 dep.refId
  if byRef.length = 1 then byRef
  else rows.filter fun r => withinTolerance s.toleranceIrt r.2 dep.amount

/-- Several candidates may be told apart by the last four digits of the card. -/
def narrow (s : CardAuto) (dep : Deposit) (cands : List (PaymentId × Payment)) :
    List (PaymentId × Payment) :=
  if s.requireLast4 && dep.last4 != "" && 1 < cands.length then
    cands.filter fun r => sliceLast 4 (r.2.cardPan.getD "") = dep.last4
  else cands

/-- How a matched payment is confirmed: from the settings and the deposit that the match is about.
-/
abbrev Settle := CardAuto → Deposit → PaymentId → ConfirmOpts → Service Payment

/-- `confirmPayment`, step by step. -/
def settlePlainly (box : AdminId) : Settle := fun _ dep id opts =>
  confirmPayment (.deposit box dep) id opts

/-- `confirmPayment` as one step. -/
def settleAtOnce (box : AdminId) : Settle := fun s dep id opts =>
  .atomically (.release box s dep) (confirmPayment (.deposit box dep) id opts)

/-- What `matchDeposit` does with its candidates. -/
def settleMatch (settle : Settle) (s : CardAuto) (dep : Deposit) :
    List (PaymentId × Payment) → Service MatchResult
  | [] => pure ⟨.unmatched, none,
    "مبلغ " ++ localeString dep.amount ++ " با هیچ سفارشی مطابقت نداشت"⟩
  | [target] =>
      if !s.autoConfirm then
        pure ⟨.unmatched, some target.1, "سفارش متناظر پیدا شد اما تأیید خودکار خاموش است"⟩
      else
        Prog.attempt (do
          let _ ← settle s dep target.1 (.auto (orNull dep.refId) (orNull dep.last4))
          pure ⟨.matched, some target.1, "پرداخت به‌صورت خودکار تأیید شد"⟩)
          fun err => pure ⟨.unmatched, some target.1, err.message⟩
  | cands => pure ⟨.ambiguous, none,
      toString cands.length ++ " سفارش با این مبلغ در انتظار است؛ تأیید دستی لازم است"⟩

/-- `matchDeposit`. -/
def matchDeposit (settle : Settle) (box : AdminId) (s : CardAuto) (dep : Deposit) :
    Service MatchResult :=
  if dep.amount = 0 then pure ⟨.ignored, none, "مبلغ نامعتبر"⟩
  else do
    let now ← clock
    let since := now - max 5 s.windowMin * 60000
    let rows ← .query (.look box s dep since) fun w => openCardPayments w box since
    if rows = [] then
      pure ⟨.unmatched, none, "پرداخت کارت‌به‌کارتی در انتظار وجود ندارد"⟩
    else settleMatch settle s dep (narrow s dep (amountOrRef s dep rows))

/-! ## Ingestion -/

structure IngestResult where
  status : DepositStatus
  paymentId : Option PaymentId
  message : String
  deposit : Option Deposit

/-- `fingerprint(d)`: the reference number, or the amount with the text of the message. -/
def fingerprint (d : Deposit) : String :=
  if d.refId = "" then "a:" ++ toString d.amount ++ ":" ++
    sliceTo 60 (.ofList (d.raw.toList.filter fun c => !Unicode.isWhite c))
  else "r:" ++ digitsOnly d.refId

/-- The duplicate test: one fingerprint, or one amount within two minutes. -/
def isDuplicate (dep d : Deposit) : Bool :=
  fingerprint d = fingerprint dep || (d.amount = dep.amount && Nat.dist d.date dep.date < 120000)

/-- The record that `ingestDeposit` makes of a report, before it is matched. -/
def newDeposit (id : DepositId) (now : Time) (amount : ℕ) (input : DepositInput) : Deposit where
  id := id
  date := input.date.getD now
  amount := amount
  refId := sliceTo 40 (digitsOnly (input.refId.getD ""))
  last4 := sliceLast 4 (digitsOnly (input.last4.getD ""))
  sender := sliceTo 60 (input.sender.getD "")
  raw := sliceTo 400 (input.raw.getD "")
  source := input.source
  status := .unmatched
  paymentId := none
  note := ""

/-- The settings read of `ingestDeposit`, with the id drawn for the deposit and the time. -/
def receiveDeposit (x : Proc) (box : AdminId) (amount : ℕ) (input : DepositInput) :
    Service (CardAuto × Deposit) :=
  .step (.receive box x input) fun w =>
    let dep := newDeposit w.nextId w.now amount input
    (.ok ((w.cards box).get x SETTING_TTL w.now, dep),
      { w with
        cards := Function.update w.cards box ((w.cards box).touch x SETTING_TTL w.now)
        nextId := w.nextId + 1
        history := { w.history with
          received := (dep, digitsOnly (input.refId.getD "")) :: w.history.received } })

/-- Record that a deposit was dismissed as a duplicate of `dup`. -/
def dismiss (dep dup : Deposit) : Service Unit :=
  Db.write fun w =>
    { w with history := { w.history with dismissed := (dep.id, dup.id) :: w.history.dismissed } }

/-- `ingestDeposit`. -/
def ingestDeposit (settle : Settle) (x : Proc) (box : AdminId) (input : DepositInput) :
    Service IngestResult :=
  let amount := mathRound input.amount
  if amount ≤ 0 then pure ⟨.ignored, none, "مبلغ واریز نامعتبر است", none⟩
  else do
    let (s, dep) ← receiveDeposit x box amount.toNat input
    match s.deposits.find? (isDuplicate dep) with
    | some dup => do
        dismiss dep dup
        pure ⟨.duplicate, dup.paymentId, "این واریز قبلاً ثبت شده است", some dup⟩
    | none => do
        let m ← matchDeposit settle box s dep
        let dep := { dep with status := m.status, paymentId := m.paymentId, note := m.note }
        let _ ← saveCardAuto x box (some s)
          { CardAutoPatch.empty with
            deposits := some ((dep :: s.deposits).take RING), lastError := some "" }
        pure ⟨m.status, m.paymentId, m.note, some dep⟩

/-! ## Later matching -/

/-- A deposit of the book is still open. -/
def Deposit.isOpen (d : Deposit) : Bool := d.status = .unmatched || d.status = .ambiguous

/-- Replace the first record with the id of `d`. -/
def replaceDeposit (d : Deposit) : List Deposit → List Deposit
  | [] => []
  | x :: rest => if x.id = d.id then d :: rest else x :: replaceDeposit d rest

/-- The loop of `rematchDeposits`: the new book and the number of matches. -/
def rematchAll (settle : Settle) (box : AdminId) (s : CardAuto) :
    List Deposit → List Deposit → Service (List Deposit × ℕ)
  | [], next => pure (next, 0)
  | d :: rest, next => do
      let m ← matchDeposit settle box s d
      let d' := { d with status := m.status, paymentId := m.paymentId, note := m.note }
      let (next, n) ← rematchAll settle box s rest (replaceDeposit d' next)
      pure (next, if m.status = .matched then n + 1 else n)

/-- `rematchDeposits`. -/
def rematchDeposits (settle : Settle) (x : Proc) (box : AdminId) : Service ℕ := do
  let (s, _) ← cardAutoSettings x box
  let openDeposits := s.deposits.filter Deposit.isOpen
  if openDeposits = [] then pure 0
  else do
    let (next, n) ← rematchAll settle box s (openDeposits.take 15) s.deposits
    let _ ← saveCardAuto x box (some s) { CardAutoPatch.empty with deposits := some next }
    pure n

/-! ## The bank bridge -/

/-- `WITHDRAW_WORDS`. -/
def WITHDRAW_WORDS : List String :=
  ["برداشت", "بدهکار", "بدهكار", "خرید", "خريد", "انتقال از", "کاهش", "debit", "withdraw", "قسط"]

/-- The row is a withdrawal. -/
def BankRow.isWithdrawal (r : BankRow) : Bool :=
  (WITHDRAW_WORDS.any fun w => includes r.desc w) || includes (lower r.desc) "debit" ||
    includes (lower r.desc) "withdraw"

/-- The amounts of the row are in rial. -/
def BankRow.inRial (r : BankRow) : Bool :=
  includes (lower r.unit) "irr" || includes (lower r.unit) "rial" || includes r.unit "ریال" ||
    includes r.unit "ريال"

/-- The deposit that a row of the statement reports, if any. -/
def BankRow.deposit (provider : BankProvider) (r : BankRow) : Option DepositInput :=
  if r.isWithdrawal then none
  else match r.amount with
    | none => none
    | some amount =>
        if amount ≤ 0 then none
        else some {
          amount := if r.inRial then mathRound (amount / 10) else amount
          refId := some r.refId
          last4 := some r.last4
          sender := some (if provider = .hamrahbank then "همراه‌بانک" else "بانک")
          raw := some r.raw
          date := r.date
          source := .bank }

structure BankSyncResult where
  ok : Bool
  fetched : ℕ
  imported : ℕ
  matched : ℕ
  error : Option String

/-- The loop of `syncBankDeposits`: the numbers of imported and of matched deposits. -/
def importRows (settle : Settle) (x : Proc) (box : AdminId) : List DepositInput → Service (ℕ × ℕ)
  | [] => pure (0, 0)
  | input :: rest => do
      let r ← ingestDeposit settle x box input
      let (imported, matched) ← importRows settle x box rest
      pure (if r.deposit.isSome && r.status ≠ .duplicate then imported + 1 else imported,
        if r.status = .matched then matched + 1 else matched)

/-- `"پاسخ سرویس بانک هیچ تراکنشی نداشت"`, for a statement without rows. -/
def emptyStatement (rows : List BankRow) : Option String :=
  if rows = [] then some "پاسخ سرویس بانک هیچ تراکنشی نداشت" else none

/-- `syncBankDeposits`. The request to the bank is one step; its headers are left out. -/
def syncBankDeposits (settle : Settle) (x : Proc) (box : AdminId) : Service BankSyncResult := do
  let (s, _) ← cardAutoSettings x box
  if s.bankProvider = .none || s.bankApiUrl = "" then
    pure ⟨false, 0, 0, 0, some "آدرس سرویس بانک تنظیم نشده است"⟩
  else if !("http://".toList.isPrefixOf (lower s.bankApiUrl).toList ||
      "https://".toList.isPrefixOf (lower s.bankApiUrl).toList) then
    pure ⟨false, 0, 0, 0, some "آدرس سرویس بانک باید با http(s) شروع شود"⟩
  else do
    let (answer, now) ← Db.read fun w => (w.outside.bankFeed box, w.now)
    match answer with
    | .error e => do
        let _ ← saveCardAuto x box none
          { CardAutoPatch.empty with lastError := some e, bankLastSyncAt := some now }
        pure ⟨false, 0, 0, 0, some e⟩
    | .ok rows => do
        let inputs := (rows.take 30).filterMap (BankRow.deposit s.bankProvider)
        let (imported, matched) ← importRows settle x box inputs
        let now ← clock
        let _ ← saveCardAuto x box none { CardAutoPatch.empty with
          bankLastSyncAt := some now, lastError := some ((emptyStatement rows).getD "") }
        pure ⟨true, rows.length, imported, matched, emptyStatement rows⟩

end SRPanel
