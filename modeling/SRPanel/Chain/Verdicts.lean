import SRPanel.Model.Explorers
import Mathlib.Tactic.Linarith

/-!
# Verdicts of the explorers

A payment is accepted on the word of one explorer. Tronscan's answer is checked for a confirmation,
TronGrid's is not, and neither for an amount: a text that is no number, and a transfer of nothing,
pass where the quote is within the tolerance. So the two paths agree on a transaction exactly if it
has an event, and is confirmed if it pays the address.
-/

namespace SRPanel

namespace Explorer

/-! ## What an answer shows -/

/-- The answer shows a confirmed and successful transfer of the amount to the address. -/
def TronscanJson.Shows (rt : Runtime) (want : String) (j : TronscanJson) (q : ℚ) : Prop :=
  j.confirmed.truthy ∧ j.contractRet = some "SUCCESS" ∧
    ∃ t, .ok t ∈ j.transfers ∧ t.matches' want ∧ t.usdt rt = .finite q

/-- The answer shows a confirmed transfer of the amount to the address; only a transaction that
succeeded has events. -/
def TrongridJson.Shows (rt : Runtime) (want : String) (grid : TrongridJson) (q : ℚ) : Prop :=
  ∃ data, grid = .events false data ∧ ∃ ev, .ok ev ∈ data ∧ ev.matches' rt want ∧
    ev.usdt = .finite q

/-- Tronscan gives no answer, or one that throws when it is read. -/
def Unreadable (want : String) (scan : Option TronscanJson) : Prop :=
  ∀ j ∈ scan, ∃ e, findEntry (TransferJson.matches' want) j.transfers = .error e

/-- The explorer that decides shows the transfer. -/
def Shown (rt : Runtime) (want : String) (scan : Option TronscanJson) (grid : TrongridJson)
    (q : ℚ) : Prop :=
  (∃ j ∈ scan, ¬Unreadable want (some j) ∧ j.Shows rt want q) ∨
  (Unreadable want scan ∧ grid.Shows rt want q)

/-- A payment is accepted only for a transfer of a positive amount that is shown and enough. -/
def VerifySound (rt : Runtime) (txid toAddress : String) (minAmount : ℚ)
    (scan : Option TronscanJson) (grid : TrongridJson) : Prop :=
  (verifyTrc20Payment rt txid toAddress minAmount scan grid).ok → ∃ q,
    (verifyTrc20Payment rt txid toAddress minAmount scan grid).amount = some (.finite q) ∧ 0 < q ∧
      minAmount ≤ q + usdtTolerance ∧ Shown rt (trim toAddress) scan grid q

/-! ## When it is sound -/

/-- A positive number. -/
def JsNumber.isPositive : JsNumber → Bool
  | .finite q => 0 < q
  | _ => false

/-- Where Tronscan's first transfer to the address is enough and passes, the answer names a result
and the amount is a positive number. -/
def TronscanJson.Clear (rt : Runtime) (want : String) (minAmount : ℚ) (j : TronscanJson) : Prop :=
  ∀ t, findEntry (TransferJson.matches' want) j.transfers = .ok (some t) → j.passes →
    (t.usdt rt).fallsShort minAmount = false → j.contractRet.isSome ∧ (t.usdt rt).isPositive

/-- Where TronGrid's first transfer to the address is enough, it is not flagged and the amount is a
positive number. -/
def TrongridJson.Clear (rt : Runtime) (want : String) (minAmount : ℚ)
    (grid : TrongridJson) : Prop :=
  ∀ unconfirmed data, grid = .events unconfirmed data →
    ∀ ev, findEntry (EventJson.matches' rt want) data = .ok (some ev) →
      ev.usdt.fallsShort minAmount = false → unconfirmed = false ∧ ev.usdt.isPositive

section

variable {rt : Runtime} {want : String} {minAmount : ℚ}

theorem findEntry_ok {α : Type} {p : α → Bool} {entries : List (Except String α)} {x : α}
    (h : findEntry p entries = .ok (some x)) : .ok x ∈ entries ∧ p x := by
  induction entries with
  | nil => cases h
  | cons entry rest ih =>
    cases entry with
    | error e => cases h
    | ok y =>
      rw [findEntry] at h
      split at h
      · next hp =>
        obtain rfl := Option.some.inj (Except.ok.inj h)
        exact ⟨List.mem_cons_self, hp⟩
      · exact ⟨List.mem_cons_of_mem _ (ih h).1, (ih h).2⟩

/-- Where no entry throws, `find` finds what it should. -/
theorem findEntry_map {α β : Type} (p : α → Bool) (f : β → α) (entries : List β) :
    findEntry p (entries.map fun x => .ok (f x)) =
    .ok ((entries.find? fun x => p (f x)).map f) := by
  induction entries with
  | nil => rfl
  | cons x rest ih =>
    rw [List.map_cons, findEntry, List.find?_cons, ih]
    cases p (f x) <;> rfl

/-- The loop over the events decides on the first one that matches. -/
theorem eventsVerdict_eq (data : List (Except String EventJson)) :
    eventsVerdict rt want minAmount data = match findEntry (EventJson.matches' rt want) data with
    | .error e => .refused .error none e
    | .ok none => .refused .mismatch none "انتقال USDT به آدرس فروشگاه در این تراکنش یافت نشد"
    | .ok (some ev) =>
        if ev.usdt.fallsShort minAmount then
          .refused .mismatch (some ev.usdt) "مبلغ تراکنش کمتر از مبلغ سفارش است"
        else ⟨true, .confirmed, some ev.usdt,
          some (tronHexToBase58 rt.sha256 ev.from'.text), some want,
          some (JsonField.number 0 ev.block_timestamp), none⟩ := by
  induction data with
  | nil => rfl
  | cons entry rest ih =>
    cases entry with
    | error e => rfl
    | ok ev =>
      rw [eventsVerdict, findEntry]
      cases ev.matches' rt want with
      | false => exact ih
      | true => rfl

/-- An amount that is enough and positive is a rational number that is. -/
theorem positive_enough {x : JsNumber} (hshort : x.fallsShort minAmount = false) :
    x.isPositive ↔ ∃ q, x = .finite q ∧ 0 < q ∧ minAmount ≤ q + usdtTolerance := by
  cases x with
  | nan => simp [JsNumber.isPositive]
  | infinity negative => simp [JsNumber.isPositive]
  | finite q =>
    have henough : minAmount ≤ q + usdtTolerance := by simpa [JsNumber.fallsShort] using hshort
    simp [JsNumber.isPositive, henough]

/-- What a verdict of Tronscan rests on. -/
theorem tronscan_sound_iff {j : TronscanJson} {v : Verdict}
    (hv : tronscanVerdict rt want minAmount j = some v) :
      (v.ok → ∃ q, v.amount = some (.finite q) ∧ 0 < q ∧ minAmount ≤ q + usdtTolerance ∧
        j.Shows rt want q) ↔ j.Clear rt want minAmount := by
  unfold tronscanVerdict at hv
  unfold TronscanJson.Clear
  cases hfind : findEntry (TransferJson.matches' want) j.transfers with
  | error e =>
    rw [hfind] at hv
    cases hv
  | ok found =>
    rw [hfind] at hv
    cases found with
    | none =>
      cases hv
      exact iff_of_true (fun h => by cases h) fun t ht => by cases ht
    | some t =>
      obtain ⟨hmem, hmatch⟩ := findEntry_ok hfind
      simp only [Except.ok.injEq, Option.some.injEq, forall_eq']
      by_cases hpass : j.passes = true
      · cases hshort : (t.usdt rt).fallsShort minAmount with
        | true =>
          simp only [hpass, hshort] at hv
          cases hv
          exact iff_of_true (fun h => by cases h) fun _ h => by cases h
        | false =>
          simp only [hpass, hshort] at hv
          cases hv
          -- the verdict is an acceptance
          obtain ⟨hconfirmed, hret⟩ : j.confirmed.truthy = true ∧
            (j.contractRet = none ∨ j.contractRet = some "SUCCESS") := by
            simpa [TronscanJson.passes] using hpass
          simp only [forall_const, Option.some.injEq, hpass]
          rw [positive_enough hshort]
          constructor
          · rintro ⟨q, hq, hpos, henough, -, hsuccess, -⟩
            exact ⟨by rw [hsuccess]; rfl, q, hq, hpos, henough⟩
          · rintro ⟨hsome, q, hq, hpos, henough⟩
            refine ⟨q, hq, hpos, henough, hconfirmed, hret.resolve_left fun hnone => ?_, t,
              hmem, hmatch, hq⟩
            rw [hnone] at hsome
            cases hsome
      · rw [Bool.not_eq_true] at hpass
        simp only [hpass] at hv
        cases hv
        exact iff_of_true (fun h => by cases h) fun h => by rw [hpass] at h; cases h

/-- What a verdict of TronGrid rests on. -/
theorem trongrid_sound_iff (grid : TrongridJson) :
    ((trongridVerdict rt want minAmount grid).ok →
      ∃ q, (trongridVerdict rt want minAmount grid).amount = some (.finite q) ∧ 0 < q ∧
      minAmount ≤ q + usdtTolerance ∧ grid.Shows rt want q) ↔ grid.Clear rt want minAmount := by
  cases grid with
  | failed error => exact iff_of_true (fun h => by cases h) fun unconfirmed data h => by cases h
  | events unconfirmed data =>
    cases data with
    | nil =>
      refine iff_of_true (fun h => by cases h) fun unconfirmed' data h ev hev => ?_
      obtain ⟨-, rfl⟩ := TrongridJson.events.inj h
      cases hev
    | cons entry rest =>
      have hverdict : trongridVerdict rt want minAmount (.events unconfirmed (entry :: rest)) =
        eventsVerdict rt want minAmount (entry :: rest) := rfl
      rw [hverdict, eventsVerdict_eq]
      unfold TrongridJson.Clear
      simp only [TrongridJson.events.injEq, and_imp, forall_eq', forall_apply_eq_imp_iff]
      cases hfind : findEntry (EventJson.matches' rt want) (entry :: rest) with
      | error e => exact iff_of_true (fun h => by cases h) fun ev h => by cases h
      | ok found =>
        cases found with
        | none => exact iff_of_true (fun h => by cases h) fun ev h => by cases h
        | some ev =>
          obtain ⟨hmem, hmatch⟩ := findEntry_ok hfind
          simp only [Except.ok.injEq, Option.some.injEq, forall_eq']
          cases hshort : ev.usdt.fallsShort minAmount with
          | true => exact iff_of_true (fun h => by cases h) fun h => by cases h
          | false =>
            simp only [forall_const, Option.some.injEq, Bool.false_eq_true, if_false]
            rw [positive_enough hshort]
            constructor
            · rintro ⟨q, hq, hpos, henough, data, heq, -⟩
              exact ⟨(TrongridJson.events.inj heq).1, q, hq, hpos, henough⟩
            · rintro ⟨rfl, q, hq, hpos, henough⟩
              exact ⟨q, hq, hpos, henough, _, rfl, ev, hmem, hmatch, hq⟩

/-- Tronscan gives a verdict exactly if its answer can be read. -/
theorem tronscan_none_iff (scan : Option TronscanJson) :
    scan.bind (tronscanVerdict rt want minAmount) = none ↔ Unreadable want scan := by
  rw [Option.bind_eq_none_iff]
  refine forall₂_congr fun j _ => ?_
  unfold tronscanVerdict
  cases findEntry (TransferJson.matches' want) j.transfers with
  | error e => simp
  | ok found =>
    cases found with
    | none => simp
    | some t =>
      simp only [reduceCtorEq, exists_false, iff_false]
      split
      · simp
      · split <;> simp

end

/-- What the explorer that decides has to answer. -/
structure Clear (rt : Runtime) (want : String) (minAmount : ℚ) (scan : Option TronscanJson)
    (grid : TrongridJson) : Prop where
  tronscan : ∀ j ∈ scan, j.Clear rt want minAmount
  trongrid : Unreadable want scan → grid.Clear rt want minAmount

theorem verifySound_iff (rt : Runtime) (txid toAddress : String) (minAmount : ℚ)
    (scan : Option TronscanJson) (grid : TrongridJson) :
      VerifySound rt txid toAddress minAmount scan grid ↔
      (isTxid (dropHexMark (trim txid)) → Clear rt (trim toAddress) minAmount scan grid) := by
  unfold VerifySound verifyTrc20Payment
  cases isTxid (dropHexMark (trim txid)) with
  | false => exact iff_of_true (fun h => by cases h) fun h => by cases h
  | true =>
    simp only [Bool.not_true, Bool.false_eq_true, if_false, forall_const]
    -- the first explorer decides when it can be read, the second otherwise
    cases hverdict : scan.bind (tronscanVerdict rt (trim toAddress) minAmount) with
    | some v =>
      obtain ⟨j, rfl, hv⟩ := Option.bind_eq_some_iff.mp hverdict
      have hread : ¬Unreadable (trim toAddress) (some j) := by
        intro hunread
        rw [(tronscan_none_iff _).mpr hunread] at hverdict
        cases hverdict
      have hshown : ∀ q, Shown rt (trim toAddress) (some j) grid q ↔
          j.Shows rt (trim toAddress) q := by
        intro q
        simp [Shown, hread]
      simp only [Option.getD_some, hshown]
      rw [tronscan_sound_iff hv]
      constructor
      · intro hclear
        refine ⟨fun j' hj' => ?_, fun h => absurd h hread⟩
        rwa [← Option.some.inj hj']
      · exact fun hclear => hclear.tronscan j rfl
    | none =>
      have hunread := (tronscan_none_iff scan).mp hverdict
      have hshown : ∀ q, Shown rt (trim toAddress) scan grid q ↔
          grid.Shows rt (trim toAddress) q := by
        intro q
        refine ⟨?_, fun h => .inr ⟨hunread, h⟩⟩
        rintro (⟨j, hj, hread, -⟩ | ⟨-, h⟩)
        · exact absurd (fun j' hj' => hunread j' (by rwa [← Option.some.inj hj'])) hread
        · exact h
      simp only [Option.getD_none, hshown]
      rw [trongrid_sound_iff]
      constructor
      · refine fun hclear => ⟨fun j hj t ht => ?_, fun _ => hclear⟩
        obtain ⟨e, he⟩ := hunread j hj
        rw [he] at ht
        cases ht
      · exact fun hclear => hclear.trongrid hunread

/-! ## Well-formed answers -/

def JsonValue.ofText (text : String) (number : JsNumber) : JsonValue := ⟨text, number, text ≠ ""⟩

def JsonValue.ofNat (n : ℕ) : JsonValue := ⟨toString n, .finite n, n ≠ 0⟩

def JsonValue.ofBool (b : Bool) : JsonValue := ⟨toString b, .finite b.toNat, b⟩

/-- A well-formed entry. -/
def TransferJson.of (t : Trc20Transfer) : TransferJson :=
  ⟨some (.ofText t.contract_address .nan), some (.ofText t.to_address .nan),
    some (.ofText t.from_address .nan), some (.ofNat t.decimals),
    some (.ofText (toString t.amount) (.finite t.amount)), none⟩

/-- A well-formed answer of Tronscan. -/
def TronscanJson.of : TronscanAnswer → Option TronscanJson
  | .unusable => none
  | .info transfers confirmed contractRet timestamp =>
      some ⟨transfers.map fun ts => ts.map fun t => .ok (.of t), transfers.isNone,
        some (.ofBool confirmed), contractRet, some (.ofNat timestamp)⟩

/-- A well-formed event. -/
def EventJson.of (ev : TronEvent) : EventJson :=
  ⟨some ev.event_name, some (.ofText ev.contract_address .nan), some (.ofText ev.toHex .nan),
    some (.ofText ev.fromHex .nan), some (.ofText (toString ev.value) (.finite ev.value)),
    some (.ofNat ev.block_timestamp)⟩

/-- A well-formed answer of TronGrid. -/
def TrongridJson.of (unconfirmed : Bool) : TrongridAnswer → TrongridJson
  | .failed error => .failed error
  | .events data => .events unconfirmed (data.map fun ev => .ok (.of ev))

/-- The verdict is the result of the typed model, with the sender besides. -/
def Verdict.Reads (v : Verdict) (r : TronVerifyResult) : Prop :=
  v.ok = r.ok ∧ v.status = r.status ∧ v.amount = r.amount.map .finite ∧ v.toAddress = r.toAddress ∧
    v.timestamp = r.timestamp.map (fun t : ℕ => .finite t) ∧ v.error = r.error

section

variable {rt : Runtime} {want : String} {minAmount : ℚ}

theorem TransferJson.of_matches (t : Trc20Transfer) :
    (TransferJson.of t).matches' want = decide
    (t.contract_address = USDT_TRC20 ∧ t.to_address = want) := by
  rw [Bool.decide_and]
  rfl

theorem TransferJson.of_usdt (hpow : ∀ n : ℕ, rt.pow10 (.finite n) = .finite (10 ^ n))
    (t : Trc20Transfer) : (TransferJson.of t).usdt rt = .finite (t.amount / 10 ^ t.decimals) := by
  have hdecimals : rt.pow10 (JsonField.number 6 (TransferJson.of t).decimals) =
      .finite (10 ^ t.decimals) :=
    hpow t.decimals
  have hne : (10 : ℚ) ^ t.decimals ≠ 0 := pow_ne_zero _ (by norm_num)
  rw [TransferJson.usdt, hdecimals]
  exact if_neg hne

/-- A well-formed answer of Tronscan, with and without transfers. -/
theorem findTransfer_typed (transfers : Option (List Trc20Transfer)) (confirmed : JsonField)
    (contractRet : Option String) (timestamp : JsonField) :
    findEntry (TransferJson.matches' want) (TronscanJson.transfers ⟨transfers.map fun ts => ts.map
      fun t => .ok (.of t),
        transfers.isNone, confirmed, contractRet, timestamp⟩) =
      .ok (((transfers.getD []).find? fun t => t.contract_address = USDT_TRC20 ∧
        t.to_address = want).map .of) := by
  cases transfers with
  | none => rfl
  | some ts =>
    show findEntry (TransferJson.matches' want) (ts.map fun t => .ok (TransferJson.of t)) = _
    rw [findEntry_map]
    congr 3
    funext t
    exact TransferJson.of_matches t

/-- On well-formed answers of Tronscan, the typed model has the verdict. -/
theorem judgeTronscan_reads (hpow : ∀ n : ℕ, rt.pow10 (.finite n) = .finite (10 ^ n))
    (a : TronscanAnswer) : Option.Rel Verdict.Reads
      ((TronscanJson.of a).bind (tronscanVerdict rt want minAmount))
        (judgeTronscan want minAmount a) := by
  cases a with
  | unusable => exact .none
  | info transfers confirmed contractRet timestamp =>
    rw [TronscanJson.of, Option.bind_some, tronscanVerdict, findTransfer_typed]
    simp only [judgeTronscan]
    cases (transfers.getD []).find? fun t => t.contract_address = USDT_TRC20 ∧
      t.to_address = want with
    | none => exact .some ⟨rfl, rfl, rfl, rfl, rfl, rfl⟩
    | some t =>
      simp only [Option.map_some, TransferJson.of_usdt hpow]
      simp only [TronscanJson.passes, JsonField.truthy, JsonValue.ofBool, Option.map_some,
        Option.getD_some, JsNumber.fallsShort, decide_eq_true_eq]
      split
      · exact .some ⟨rfl, rfl, rfl, rfl, rfl, rfl⟩
      · split
        · exact .some ⟨rfl, rfl, rfl, rfl, rfl, rfl⟩
        · exact .some ⟨rfl, rfl, rfl, rfl, rfl, rfl⟩

/-- The loop over well-formed events. -/
theorem judgeEvents_reads (data : List TronEvent) :
    (eventsVerdict rt want minAmount (data.map fun ev => .ok (.of ev))).Reads
      (judgeEvents rt.sha256 want minAmount data) := by
  induction data with
  | nil => exact ⟨rfl, rfl, rfl, rfl, rfl, rfl⟩
  | cons ev rest ih =>
    have hmillion : (1000000 : ℚ) ≠ 0 := by norm_num
    have husdt : (EventJson.of ev).usdt = .finite (ev.value / 1000000) := by
      show JsNumber.div (.finite ev.value) (.finite 1000000) = _
      rw [JsNumber.div, if_neg hmillion]
    rw [List.map_cons, eventsVerdict, judgeEvents, husdt]
    by_cases hmatch : (EventJson.of ev).matches' rt want = true
    · have htyped : ¬(ev.event_name ≠ "Transfer" ∨ ev.contract_address ≠ USDT_TRC20 ∨
          tronHexToBase58 rt.sha256 ev.toHex ≠ want) := by
        simp only [EventJson.matches', Bool.and_eq_true, decide_eq_true_eq] at hmatch
        obtain ⟨⟨hname, hcontract⟩, hto⟩ := hmatch
        rw [not_or, not_or, not_not, not_not, not_not]
        exact ⟨Option.some.inj hname, hcontract, hto⟩
      rw [if_neg (by simp [hmatch]), if_neg htyped]
      simp only [JsNumber.fallsShort, decide_eq_true_eq]
      split
      · exact ⟨rfl, rfl, rfl, rfl, rfl, rfl⟩
      · exact ⟨rfl, rfl, rfl, rfl, rfl, rfl⟩
    · have htyped : ev.event_name ≠ "Transfer" ∨ ev.contract_address ≠ USDT_TRC20 ∨
          tronHexToBase58 rt.sha256 ev.toHex ≠ want := by
        by_contra hall
        rw [not_or, not_or, not_not, not_not, not_not] at hall
        refine hmatch ?_
        simp only [EventJson.matches', Bool.and_eq_true, decide_eq_true_eq]
        exact ⟨⟨congrArg some hall.1, hall.2.1⟩, hall.2.2⟩
      rw [if_pos (by simp [hmatch]), if_pos htyped]
      exact ih

/-- On well-formed answers of TronGrid, the typed model has the verdict. -/
theorem judgeTrongrid_reads (unconfirmed : Bool) (a : TrongridAnswer) :
    (trongridVerdict rt want minAmount (.of unconfirmed a)).Reads
    (judgeTrongrid rt.sha256 want minAmount a) := by
  cases a with
  | failed error => exact ⟨rfl, rfl, rfl, rfl, rfl, rfl⟩
  | events data =>
    cases data with
    | nil => exact ⟨rfl, rfl, rfl, rfl, rfl, rfl⟩
    | cons ev rest => exact judgeEvents_reads (ev :: rest)

end

/-! ## One transaction, two explorers -/

/-- An event of a transaction; the addresses of the parties are in hex. -/
structure ChainLog where
  name : String
  contract : String
  toHex : String
  fromHex : String
  value : ℕ
  /-- of the token -/
  decimals : ℕ

/-- A transaction on the chain. One that failed has no events, and USDT has six decimals. -/
structure ChainTx where
  confirmed : Bool
  success : Bool
  logs : List ChainLog
  timestamp : ℕ
  silent : success = false → logs = []
  usdt : ∀ l ∈ logs, l.contract = USDT_TRC20 → l.decimals = 6

/-- The transaction's event among the transfers that Tronscan reports. -/
def ChainLog.transfer (rt : Runtime) (l : ChainLog) : TransferJson :=
  ⟨some (.ofText l.contract .nan), some (.ofText (tronHexToBase58 rt.sha256 l.toHex) .nan),
    some (.ofText (tronHexToBase58 rt.sha256 l.fromHex) .nan), some (.ofNat l.decimals),
    some (.ofText (toString l.value) (.finite l.value)), none⟩

/-- The transaction's event as TronGrid reports it. -/
def ChainLog.event (l : ChainLog) (timestamp : ℕ) : EventJson :=
  ⟨some l.name, some (.ofText l.contract .nan), some (.ofText l.toHex .nan),
    some (.ofText l.fromHex .nan), some (.ofText (toString l.value) (.finite l.value)),
    some (.ofNat timestamp)⟩

/-- What Tronscan answers about a transaction. -/
def tronscanOf (rt : Runtime) (tx : ChainTx) : TronscanJson :=
  ⟨some ((tx.logs.filter fun l => l.name = "Transfer").map fun l => .ok (l.transfer rt)), false,
    some (.ofBool tx.confirmed), some (if tx.success then "SUCCESS" else "REVERT"),
    some (.ofNat tx.timestamp)⟩

/-- What TronGrid answers about it. -/
def trongridOf (tx : ChainTx) : TrongridJson :=
  .events (!tx.confirmed) (tx.logs.map fun l => .ok (l.event tx.timestamp))

/-- The event pays USDT to the address. -/
def ChainLog.pays (rt : Runtime) (want : String) (l : ChainLog) : Bool :=
  l.name = "Transfer" && l.contract = USDT_TRC20 && tronHexToBase58 rt.sha256 l.toHex = want

/-- Both paths come to the same verdict on the transaction. -/
def SameVerdict (rt : Runtime) (want : String) (minAmount : ℚ) (tx : ChainTx) : Prop :=
  (tronscanVerdict rt want minAmount (tronscanOf rt tx)).map Verdict.status =
    some (trongridVerdict rt want minAmount (trongridOf tx)).status

section

variable {rt : Runtime} {want : String} {minAmount : ℚ} {tx : ChainTx}

theorem findTransfer_of (tx : ChainTx) :
    findEntry (TransferJson.matches' want) (tronscanOf rt tx).transfers =
    .ok ((tx.logs.find? (ChainLog.pays rt want)).map (ChainLog.transfer rt)) := by
  have hlist : (tronscanOf rt tx).transfers = (tx.logs.filter fun l => l.name = "Transfer").map
    fun l => .ok (l.transfer rt) := rfl
  rw [hlist, findEntry_map, List.find?_filter]
  congr 3
  funext l
  simp [ChainLog.pays, TransferJson.matches', ChainLog.transfer, JsonField.text, JsonValue.ofText,
    Bool.and_assoc]

theorem findEvent_of (tx : ChainTx) :
    findEntry (EventJson.matches' rt want) (tx.logs.map fun l => .ok (l.event tx.timestamp)) =
      .ok ((tx.logs.find? (ChainLog.pays rt want)).map fun l => l.event tx.timestamp) := by
  rw [findEntry_map]
  congr 3
  funext l
  simp [ChainLog.pays, EventJson.matches', ChainLog.event, JsonField.text, JsonValue.ofText]

/-- Both explorers report the same amount. -/
theorem usdt_transfer_event (hpow : rt.pow10 (.finite 6) = .finite 1000000) {l : ChainLog}
    (hl : l.decimals = 6) (timestamp : ℕ) : (l.transfer rt).usdt rt = (l.event timestamp).usdt := by
  have hdecimals : JsonField.number 6 (l.transfer rt).decimals = .finite 6 := by
    show JsNumber.finite (l.decimals : ℚ) = _
    rw [hl]
    rfl
  rw [TransferJson.usdt, hdecimals, hpow]
  rfl

/-- The two paths agree on a transaction exactly if it has an event, and is confirmed if it pays the
address. -/
theorem sameVerdict_iff (hpow : rt.pow10 (.finite 6) = .finite 1000000) (want : String)
    (minAmount : ℚ) (tx : ChainTx) : SameVerdict rt want minAmount tx ↔
    tx.logs ≠ [] ∧ ((∃ l ∈ tx.logs, l.pays rt want) → tx.confirmed) := by
  unfold SameVerdict tronscanVerdict
  rw [findTransfer_of]
  by_cases hempty : tx.logs = []
  · simp [trongridOf, hempty, trongridVerdict, Verdict.refused]
  · have hgrid : trongridVerdict rt want minAmount (trongridOf tx) =
        eventsVerdict rt want minAmount (tx.logs.map fun l => .ok (l.event tx.timestamp)) := by
      unfold trongridOf
      cases hlogs : tx.logs with
      | nil => exact absurd hlogs hempty
      | cons first rest => rfl
    have hsuccess : tx.success = true := by
      by_contra hfail
      exact hempty (tx.silent (by simpa using hfail))
    rw [hgrid, eventsVerdict_eq, findEvent_of]
    cases hfind : tx.logs.find? (ChainLog.pays rt want) with
    | none =>
      have hnone : ¬∃ l ∈ tx.logs, l.pays rt want := by
        rintro ⟨l, hl, hpays⟩
        exact List.find?_eq_none.mp hfind l hl hpays
      exact iff_of_true rfl ⟨hempty, fun h => absurd h hnone⟩
    | some l =>
      have hmem := List.mem_of_find?_eq_some hfind
      have hpays : l.pays rt want := List.find?_some hfind
      have husdt : l.contract = USDT_TRC20 := by
        simp only [ChainLog.pays, Bool.and_eq_true, decide_eq_true_eq] at hpays
        exact hpays.1.2
      have hamount := usdt_transfer_event hpow (tx.usdt l hmem husdt) tx.timestamp
      have hpasses : (tronscanOf rt tx).passes = tx.confirmed := by
        simp [TronscanJson.passes, tronscanOf, hsuccess, JsonField.truthy, JsonValue.ofBool]
      have hiff : tx.logs ≠ [] ∧ ((∃ l ∈ tx.logs, l.pays rt want) → tx.confirmed) ↔ tx.confirmed :=
        ⟨fun h => h.2 ⟨l, hmem, hpays⟩, fun h => ⟨hempty, fun _ => h⟩⟩
      rw [hiff]
      simp only [Option.map_some, hamount, hpasses]
      -- a transfer that is not confirmed is pending for Tronscan only
      cases tx.confirmed with
      | true => cases (l.event tx.timestamp).usdt.fallsShort minAmount <;> exact iff_of_true rfl rfl
      | false =>
        cases (l.event tx.timestamp).usdt.fallsShort minAmount <;>
          exact iff_of_false (fun h => by cases h) fun h => by cases h

/-- Verification is sound exactly for answers that are clear, and both explorers come to the same
verdict exactly on transactions that have an event and are confirmed if they pay the address. -/
theorem explorers_iff (hpow : rt.pow10 (.finite 6) = .finite 1000000) (txid toAddress : String)
    (minAmount : ℚ) (scan : Option TronscanJson) (grid : TrongridJson) (tx : ChainTx) :
    (VerifySound rt txid toAddress minAmount scan grid ↔
        (isTxid (dropHexMark (trim txid)) → Clear rt (trim toAddress) minAmount scan grid)) ∧
      (SameVerdict rt (trim toAddress) minAmount tx ↔
        tx.logs ≠ [] ∧ ((∃ l ∈ tx.logs, l.pays rt (trim toAddress)) → tx.confirmed)) :=
  ⟨verifySound_iff rt txid toAddress minAmount scan grid, sameVerdict_iff hpow _ _ _⟩

end

/-! ## A transfer that is not confirmed -/

/-- The shop's address in hex, and its digests. -/
def shopHex : String := "0x5c7f3a1e0b9d2c4f6a8e1d3b5f7092a4c6e81b3d"

def shopDigest : List ℕ :=
  [102, 197, 12, 101, 3, 229, 228, 212, 56, 151, 144, 135, 104, 209, 249, 219, 128, 138, 9, 207, 84,
    84, 116, 52, 200, 199, 211, 114, 205, 13, 39, 228]

def shopCheck : List ℕ :=
  [229, 144, 243, 89, 148, 138, 106, 183, 114, 73, 121, 31, 191, 157, 71, 102, 28, 172, 183, 38, 62,
    74, 173, 107, 105, 139, 220, 205, 99, 255, 158, 104]

/-- SHA-256 on the address and on its digest, and powers of ten. -/
def shopRuntime : Runtime where
  sha256 bytes := if bytes = shopDigest then shopCheck else shopDigest
  pow10
    | .finite q => .finite (10 ^ q.num.toNat)
    | n => n

/-- A transfer of ten USDT to the shop, in a block that is or is not confirmed. -/
def shopTx (confirmed : Bool) : ChainTx where
  confirmed := confirmed
  success := true
  logs := [⟨"Transfer", USDT_TRC20, shopHex, shopHex, 10000000, 6⟩]
  timestamp := 1700000000000
  silent h := by cases h
  usdt l hl _ := by rw [List.mem_singleton.mp hl]

/-- The shop's address in base 58. -/
def shopAddress : String := "TJQHabWUz7uULJHUwbx2mHyVqgGjYoH3L4"

theorem shopTx_pays : ChainLog.pays shopRuntime shopAddress ⟨"Transfer", USDT_TRC20, shopHex,
    shopHex, 10000000, 6⟩ := by
  decide +kernel

theorem trim_shopAddress : trim shopAddress = shopAddress := by decide +kernel

theorem shopTx_found (confirmed : Bool) :
    findEntry (EventJson.matches' shopRuntime shopAddress) ((shopTx confirmed).logs.map fun l =>
        .ok (l.event (shopTx confirmed).timestamp)) =
      .ok (some (ChainLog.event ⟨"Transfer", USDT_TRC20, shopHex, shopHex, 10000000,
        6⟩ 1700000000000)) := by
  rw [findEvent_of]
  show Except.ok (Option.map _ (List.find? _ [_])) = _
  rw [List.find?_cons_of_pos shopTx_pays]
  rfl

/-- While Tronscan does not answer, a transfer that is not confirmed is accepted; with Tronscan it
is pending. -/
theorem unconfirmed_accepted :
    ¬VerifySound shopRuntime (.ofList (List.replicate 64 'a')) shopAddress 10 none
      (trongridOf (shopTx false)) ∧ ¬SameVerdict shopRuntime shopAddress 10 (shopTx false) := by
  constructor
  · rw [verifySound_iff, trim_shopAddress]
    intro hclear
    obtain ⟨hflag, -⟩ := (hclear (by decide +kernel)).trongrid (fun j hj => by
      cases hj) true _ rfl _
      (shopTx_found false) (by decide +kernel)
    cases hflag
  · rw [sameVerdict_iff rfl]
    rintro ⟨-, hconfirmed⟩
    cases hconfirmed ⟨_, List.mem_singleton.mpr rfl, shopTx_pays⟩

/-- Once it is confirmed, both explorers accept it. -/
theorem explorers_confirmed :
    VerifySound shopRuntime (.ofList (List.replicate 64 'a')) shopAddress 10 none
      (trongridOf (shopTx true)) ∧ SameVerdict shopRuntime (trim shopAddress) 10 (shopTx true) := by
  have hpow : shopRuntime.pow10 (.finite 6) = .finite 1000000 := rfl
  obtain ⟨hsound, hsame⟩ := explorers_iff hpow (.ofList (List.replicate 64 'a')) shopAddress 10 none
    (trongridOf (shopTx true)) (shopTx true)
  have hnone : ∀ j ∈ (none : Option TronscanJson), j.Clear shopRuntime (trim shopAddress) 10 := by
    intro j hj
    cases hj
  refine ⟨hsound.mpr fun _ => ⟨hnone, fun _ unconfirmed data hdata ev hev _ => ?_⟩,
    hsame.mpr ⟨List.cons_ne_nil _ _, fun _ => rfl⟩⟩
  obtain ⟨rfl, rfl⟩ := TrongridJson.events.inj hdata
  rw [trim_shopAddress] at hev
  obtain rfl := Option.some.inj (Except.ok.inj ((shopTx_found true).symm.trans hev))
  exact ⟨rfl, by decide +kernel⟩

end Explorer

end SRPanel
