import SRPanel.Chain.Fresh

/-!
# A crypto quote stays whole

The quote of a payment lives in two columns, `amountUsdt` and a key of the JSON value `meta`. The
verification of a transfer writes that value back whole, from a copy that it has read before a slow
request, so it can restore a wallet that the buyer has left for another coin in the meantime, next
to the amount in the new coin. In every run in which no call writes back a quote that has changed
since it was read, the two columns agree, and a payment is confirmed only by a transfer that is
worth a quote for the full price.
-/

namespace SRPanel

open Interleaving

/-! ## Whole quotes -/

/-- The payment holds a quote, and its amount is the quote's. -/
def World.QuoteIntact (w : World) (id : PaymentId) : Prop :=
  ∃ p q, w.payments.get? id = some p ∧ p.info.bind Meta.crypto = some q ∧
    p.amountUsdt = some q.amount

/-- Every transfer that has confirmed the payment is on the chain, and it is worth, up to the
tolerance, an amount in USDT that the buyer was quoted for the full price. -/
def World.PaidInFull (chain : Chain) (w : World) (id : PaymentId) (price : ℤ) : Prop :=
  ∀ c ∈ w.history.confirmations, c.payment = id → ∀ txid address amount timestamp,
    c.evidence = .transfer txid address amount timestamp →
      chain.moves (lower (txHash txid)) address amount ∧
      ∃ q, (id, q) ∈ w.history.quoted ∧ upper q.symbol = "USDT" ∧
        q.amount = coinAmount price q.rateIrt q.decimals ∧ q.amount.value ≤ amount + usdtTolerance

/-! ## The condition -/

/-- A write that brings the JSON value back from a copy finds the quote of that copy still stored.
-/
def CopiesQuote : Stmt → World → Prop
  | .update columns rows, w => .info ∈ columns → .quote ∉ columns →
      ∀ r ∈ rows, ∀ q ∈ w.payments.get? r.1, q.info.bind Meta.crypto = r.2.info.bind Meta.crypto
  | _, _ => True

instance (l : Stmt) (w : World) : Decidable (CopiesQuote l w) :=
  match l with
  | .update columns rows => inferInstanceAs (Decidable (.info ∈ columns → .quote ∉ columns →
      ∀ r ∈ rows, ∀ q ∈ w.payments.get? r.1, q.info.bind Meta.crypto = r.2.info.bind Meta.crypto))
  | .other => isTrue trivial
  | .tag _ => isTrue trivial
  | .credit _ _ _ _ _ => isTrue trivial
  | .pay _ => isTrue trivial
  | .lookBack _ => isTrue trivial
  | .readPlugins _ => isTrue trivial
  | .savePlugins _ => isTrue trivial
  | .callback _ _ _ => isTrue trivial
  | .called _ _ => isTrue trivial
  | .receive _ _ _ => isTrue trivial
  | .look _ _ _ _ => isTrue trivial
  | .release _ _ _ => isTrue trivial
  | .saveBook _ _ => isTrue trivial

/-! ## The invariant -/

/-- The quote is for the full price; only the single wallet of a shop may lack an address. -/
structure FullPrice (price : ℤ) (q : CryptoQuote) : Prop where
  amount : q.amount = coinAmount price q.rateIrt q.decimals
  symbol : q.symbol ≠ ""
  address : q.address = "" → q.symbol = "USDT"

/-- The wallets that sellers list are saved with a coin. -/
def Tidy (o : Outside) : Prop := ∀ seller, ∀ a ∈ o.cryptoAssets seller, a.symbol ≠ ""

private theorem upper_ne {s : String} (h : s ≠ "") : upper s ≠ "" := by
  intro he
  have hl : (upper s).toList = [] := by rw [he]; rfl
  rw [upper, String.toList_ofList, List.map_eq_nil_iff] at hl
  exact h (String.toList_eq_nil_iff.mp hl)

theorem Offered.fullPrice {v : World} {s : StoreSettings} {price : ℤ} {q : CryptoQuote}
    (hv : Tidy v.outside) (h : Offered v s price q) : FullPrice price q := by
  obtain ⟨a, ha, haddr, hsym, -⟩ := h.asset
  suffices hs : upper a.symbol ≠ "" ∧ (a.address = "" → upper a.symbol = "USDT") by
    exact ⟨h.amount, hsym ▸ hs.1, fun he => hsym.trans (hs.2 (haddr.symm.trans he))⟩
  unfold offeredAssets at ha
  dsimp only at ha
  split at ha
  -- the single wallet of the shop
  · have hlegacy : a.symbol = "USDT" := by
      unfold legacyAsset at ha
      split at ha
      · cases ha
      · split at ha
        · cases ha
        · rw [List.mem_singleton.mp ha]
    rw [hlegacy]
    exact ⟨by decide, fun _ => by decide⟩
  · simp only [List.mem_filter, Bool.and_eq_true, bne_iff_ne] at ha
    exact ⟨upper_ne (hv _ a ha.1), fun h => absurd h ha.2.2⟩

/-- The payment `id` of the order `orderId` over `price` holds a quote for the full price, and so
did it whenever a transfer has confirmed it. -/
structure Whole (chain : Chain) (id : PaymentId) (orderId : OrderId) (price : ℤ) (w : World) :
    Prop where
  keys : w.Keyed
  reports : chain.Reports w.outside
  tidy : Tidy w.outside
  order : ∃ o, w.orders.get? orderId = some o ∧ o.amount = price
  row : ∃ p q, w.payments.get? id = some p ∧ p.method = .usdt ∧ p.orderId = some orderId ∧
    p.info.bind Meta.crypto = some q ∧ p.amountUsdt = some q.amount ∧
    (id, q) ∈ w.history.quoted ∧ FullPrice price q
  paid : w.PaidInFull chain id price

theorem Whole.intact {chain : Chain} {id : PaymentId} {orderId : OrderId} {price : ℤ} {w : World}
    (h : Whole chain id orderId price w) : w.QuoteIntact id :=
  let ⟨p, q, hp, _, _, hq, ha, _⟩ := h.row
  ⟨p, q, hp, hq, ha⟩

section Accepts

variable {chain : Chain} {id : PaymentId} {orderId : OrderId} {price : ℤ}

/-- What a row says about its quote. -/
private def Payment.quoting (p : Payment) :
    PaymentMethod × Option OrderId × Option CryptoQuote × Option Decimal :=
  (p.method, p.orderId, p.info.bind Meta.crypto, p.amountUsdt)

private theorem quoting_of_core {p q : Payment} (h : p.core = q.core) : p.quoting = q.quoting := by
  have hq : p.core.quoting = q.core.quoting := by rw [h]
  exact hq

/-- A change of a row that keeps its quote, with at most one new confirmation. -/
private theorem Whole.withRow {w w' : World} {i : PaymentId} {q q' : Payment}
    (hI : Whole chain id orderId price w) (hq : w.payments.get? i = some q)
    (hkeep : i = id → q'.quoting = q.quoting) (hp : w'.payments = (w.withRow i q').payments)
    (hn : w'.nextId = w.nextId) (ho : w'.outside = w.outside) (hord : w'.orders = w.orders)
    (hquoted : w.history.quoted ⊆ w'.history.quoted) (hc : w'.PaidInFull chain id price) :
    Whole chain id orderId price w' := by
  refine ⟨hI.keys.withRow hp hn, ho ▸ hI.reports, ho ▸ hI.tidy, hord ▸ hI.order, ?_, hc⟩
  obtain ⟨p, quote, hrow, hm, hpo, hcrypto, ha, hmem, hfull⟩ := hI.row
  rw [hp, World.withRow, Table.get?_modify]
  split
  · next hi =>
      subst hi
      obtain rfl : q = p := by simpa [hq] using hrow
      have hk := hkeep rfl
      simp only [Payment.quoting, Prod.mk.injEq] at hk
      exact ⟨q', quote, by rw [hq, Option.map_some], hk.1.trans hm, hk.2.1.trans hpo,
        hk.2.2.1.trans hcrypto, hk.2.2.2.trans ha, hquoted hmem, hfull⟩
  · exact ⟨p, quote, hrow, hm, hpo, hcrypto, ha, hquoted hmem, hfull⟩

private theorem World.PaidInFull.mono {w w' : World} (h : w.PaidInFull chain id price)
    (hc : w'.history.confirmations = w.history.confirmations)
    (hquoted : w.history.quoted ⊆ w'.history.quoted) : w'.PaidInFull chain id price := by
  intro c hmem hid txid address amount timestamp he
  obtain ⟨hmoves, q, hq, hrest⟩ := h c (hc ▸ hmem) hid txid address amount timestamp he
  exact ⟨hmoves, q, hquoted hq, hrest⟩

/-- A write of the JSON value that brings the stored quote back. -/
private theorem quoting_of_copy {p q q' : Payment} {i : Meta} {t : Option String}
    (hcopy : q.info.bind Meta.crypto = p.info.bind Meta.crypto)
    (hi : i.crypto = p.info.bind Meta.crypto)
    (hcore : q'.core = ({ q with info := some i, txid := t } : Payment).core) :
    q'.quoting = q.quoting := by
  rw [quoting_of_core hcore]
  simp only [Payment.quoting, Option.bind_some, hi, hcopy]

/-- The quote that a verification has gone by. -/
private theorem whole_of_checked {w : World} {p₀ : Payment} {s : StoreSettings}
    {txid address : String} {r : TronVerifyResult}
    (h : Checked (Whole chain id orderId price) id p₀ s txid address r w) :
    chain.moves (lower (txHash txid)) (trim address) (r.amount.getD 0) ∧
      ∃ q, (id, q) ∈ w.history.quoted ∧ upper q.symbol = "USDT" ∧
        q.amount = coinAmount price q.rateIrt q.decimals ∧
        q.amount.value ≤ r.amount.getD 0 + usdtTolerance := by
  obtain ⟨v, hv, hlast, hp₀⟩ := h.copy
  obtain ⟨p, q, hp, -, -, hcrypto, hamount, hmem, hfull⟩ := hv.row
  obtain rfl : p = p₀ := by simpa [hp₀] using hp.symm
  obtain ⟨v', hv', hanswer⟩ := h.answer
  obtain ⟨a, ha, hmoves, hle⟩ := (hanswer.backs hv'.reports h.accepted).amount
  rw [ha, Option.getD_some]
  refine ⟨hmoves, q, hlast.quoted hmem, ?_, hfull.amount, ?_⟩
  · have hcoin := h.coin
    simp only [cryptoMetaOf, hcrypto] at hcoin
    split at hcoin
    · next hblank =>
        simp only [Bool.or_eq_true, decide_eq_true_eq, hfull.symbol, or_false] at hblank
        rw [hfull.address hblank]
        decide
    · simp only [isTrc20Usdt, Bool.and_eq_true, decide_eq_true_eq] at hcoin
      exact hcoin.1
  · rw [payAmount, hamount, Option.getD_some] at hle
    exact hle

private theorem whole_accepts : AcceptsAll CopiesQuote (Whole chain id orderId price) where
  upkeep hu hI := by
    refine ⟨hI.keys.upkeep hu, hu.outside ▸ hI.reports, hu.outside ▸ hI.tidy, ?_, ?_,
      hI.paid.mono hu.confirmations (hu.quoted ▸ fun _ h => h)⟩
    · obtain ⟨o, ho, hprice⟩ := hI.order
      have hmap := hu.orders orderId
      rw [ho, Option.map_some] at hmap
      obtain ⟨o', ho', hterms⟩ := Option.map_eq_some_iff.mp hmap
      exact ⟨o', ho', (congrArg (fun t => t.2.2) hterms).trans hprice⟩
    · obtain ⟨p, quote, hrow, hm, hpo, hcrypto, ha, hmem, hfull⟩ := hI.row
      obtain ⟨p', hp', hcore⟩ := hu.payment' hrow
      have hk := quoting_of_core hcore
      simp only [Payment.quoting, Prod.mk.injEq] at hk
      exact ⟨p', quote, hp', hk.1.trans hm, hk.2.1.trans hpo, hk.2.2.1.trans hcrypto,
        hk.2.2.2.trans ha, hu.quoted ▸ hmem, hfull⟩
  fresh hI := hI.keys.fresh
  hash {w i p q q' txid m} hI hok _ _ hq _ _ hm hcore := by
    have hcopy := hok (by simp) (by simp) _ List.mem_cons_self q hq
    exact hI.withRow hq (fun _ => quoting_of_copy hcopy hm hcore) rfl rfl rfl rfl (fun _ h => h)
      hI.paid
  note {w i p q q' m} hI hok _ hq hm hcore := by
    have hcopy := hok (by simp) (by simp) _ List.mem_cons_self q hq
    exact hI.withRow hq (fun _ => quoting_of_copy (t := q.txid) hcopy hm hcore) rfl rfl rfl rfl
      (fun _ h => h) hI.paid
  review hI _ _ _ hq hcore := by
    refine hI.withRow hq (fun _ => quoting_of_core hcore) rfl rfl rfl rfl (fun _ h => h) ?_
    intro c hc hid txid address amount timestamp he
    rcases List.mem_cons.mp hc with rfl | hc
    · cases he
    · exact hI.paid c hc hid txid address amount timestamp he
  transfer {w i p q q' p₀ s txid address r} hI _ _ hchecked hq hcore := by
    refine hI.withRow hq (fun _ => quoting_of_core hcore) rfl rfl rfl rfl (fun _ h => h) ?_
    intro c hc hid txid' address' amount timestamp he
    rcases List.mem_cons.mp hc with rfl | hc
    · obtain rfl : i = id := hid
      simp only [transferEvidence, Evidence.transfer.injEq] at he
      obtain ⟨rfl, rfl, rfl, -⟩ := he
      have hfull := whole_of_checked hchecked
      exact hfull
    · exact hI.paid c hc hid txid' address' amount timestamp he
  start {w input expiresAt quote} hI := by
    obtain ⟨p, q, hrow, hrest⟩ := hI.row
    have hne : id ≠ w.nextId := (hI.keys id p hrow).ne
    have hquoted : w.history.quoted ⊆
        (w.withNew (newPayment input expiresAt quote)).history.quoted :=
      fun _ h => List.mem_append_right _ h
    refine ⟨hI.keys.withNew _, hI.reports, hI.tidy, hI.order, ⟨p, q, ?_, ?_⟩,
      hI.paid.mono rfl hquoted⟩
    · rw [World.withNew, Table.get?_set_of_ne _ _ hne]
      exact hrow
    · obtain ⟨hm, hpo, hcrypto, ha, hmem, hfull⟩ := hrest
      exact ⟨hm, hpo, hcrypto, ha, hquoted hmem, hfull⟩
  authority {w i q authority m} hI hq hm := by
    refine hI.withRow hq (fun hi => ?_) rfl rfl rfl rfl (fun _ h => h) hI.paid
    subst hi
    obtain ⟨p, -, hrow, hpm, -⟩ := hI.row
    obtain rfl : q = p := by simpa [hq] using hrow
    exact absurd (hm.symm.trans hpm) (by decide)
  quote {w i p q q' order s quote} hI _ hread hoffer hq hcore := by
    have hquoted : w.history.quoted ⊆ (w.withQuote i q' quote).history.quoted :=
      fun _ h => List.mem_append_right _ h
    have hpaid : (w.withQuote i q' quote).PaidInFull chain id price := hI.paid.mono rfl hquoted
    by_cases hi : i = id
    · subst hi
      -- the order that the payment was read with is the one of the invariant
      obtain ⟨v, orderId', hv, -, hpv, hpo, hord⟩ := hread
      obtain ⟨v', hv', hoffer⟩ := hoffer
      obtain ⟨p', -, hp', -, hpo', -⟩ := hv.row
      obtain rfl : p = p' := by simpa [hpv] using hp'
      obtain rfl : orderId' = orderId := by simpa [hpo] using hpo'
      obtain ⟨o, ho, hprice⟩ := hv.order
      obtain rfl : order = o := by simpa [hord] using ho
      obtain ⟨p', -, hrow, hm, hqo, -⟩ := hI.row
      obtain rfl : q = p' := by simpa [hq] using hrow
      have hk := quoting_of_core hcore
      simp only [Payment.quoting, Prod.mk.injEq, Option.bind_some] at hk
      refine ⟨hI.keys.withRow rfl rfl, hI.reports, hI.tidy, hI.order, ⟨q', quote, ?_, hk.1.trans hm,
        hk.2.1.trans hqo, hk.2.2.1, hk.2.2.2, List.mem_cons_self, ?_⟩, hpaid⟩
      · simp only [World.withQuote, World.withRow, Table.get?_modify_self, hq, Option.map_some]
      · exact hprice ▸ hoffer.fullPrice hv'.tidy
    · exact hI.withRow hq (fun h => absurd h hi) rfl rfl rfl rfl hquoted hpaid

end Accepts

/-! ## Runs -/

/-- Anything may happen besides the calls, as long as the explorers go on reporting the chain and
sellers save their wallets with a coin. -/
def Selling (chain : Chain) (w w' : World) : Prop := Reporting chain w w' ∧ Tidy w'.outside

/-- In every run in which no call writes back a quote that has changed since it was read, the
payment's amount is the amount of its quote, and only a transfer worth a full quote confirms it. -/
theorem quote_stays_whole {chain : Chain} {id : PaymentId} {orderId : OrderId}
    {price : ℤ} {w : World} {calls : List PaymentCall} {c : Pool Stmt World AppError}
    (h0 : Whole chain id orderId price w)
    (hrun : Pool.Run (Selling chain) CopiesQuote ⟨w, calls.map PaymentCall.prog⟩ c) :
    c.store.QuoteIntact id ∧ c.store.PaidInFull chain id price := by
  have hI : Whole chain id orderId price c.store := by
    refine whole_accepts.run h0 (fun v v' hI he => ⟨?_, he.1.1.lasting⟩) hrun
    have hquoted : v.history.quoted ⊆ v'.history.quoted := he.1.1.quoted ▸ fun _ h => h
    obtain ⟨o, ho, hprice⟩ := hI.order
    obtain ⟨o', ho', hterms⟩ := Option.map_eq_some_iff.mp (he.1.1.orders orderId o ho)
    refine ⟨he.1.1.keyed hI.keys, he.1.2, he.2,
      ⟨o', ho', (congrArg (fun t => t.2.2) hterms).trans hprice⟩, ?_,
      hI.paid.mono he.1.1.confirmations hquoted⟩
    rw [he.1.1.payments, he.1.1.quoted]
    exact hI.row
  exact ⟨hI.intact, hI.paid⟩

/-! ## A cheap coin on another wallet

Order 3 costs five million toman, and its payment 7 is quoted at 100 USDT. The buyer switches to
bitcoin, of which a thousandth is enough, while `submitProof` holds a copy of the payment.
-/

/-- The seller's USDT wallet. -/
def usdtAsset : CryptoAsset :=
  ⟨"usdt-trc20", "USDT", .trc20, "T9owner", "", "", true, .usdt, 0, 0, 2⟩

/-- The seller's bitcoin wallet, at a fixed rate of five billion toman. -/
def btcAsset : CryptoAsset :=
  ⟨"btc-btc", "BTC", .btc, "bc1owner", "", "", true, .fixed, 5000000000, 0, 8⟩

/-- The first quote: 100 USDT. -/
def firstQuote : CryptoQuote where
  assetId := "usdt-trc20"
  symbol := "USDT"
  network := .trc20
  networkLabel := "TRC20"
  address := "T9owner"
  memo := none
  label := none
  rateIrt := 50000
  amount := ⟨10000, 2⟩
  decimals := 2
  source := "MANUAL"
  auto := false
  stale := false
  quotedAt := 0

/-- A chain with one transfer to the seller, in millionths of a dollar. -/
def dollarChain (units : ℕ) : Chain where
  blockTime h := if h = someHash then 900 else 0
  moves h address amount := h = someHash ∧ address = "T9owner" ∧ amount = units / 10 ^ 6

/-- The shop with order 3 and its payment 7, when that transfer is on the chain. -/
def quoteWorld (units : ℕ) : World :=
  { usdtWorld with
    orders := .ofRows [(3, ⟨"o3", 1, .pending, 5000000, none, none, none⟩)]
    payments := .ofRows
      [(7, newPayment ⟨.order, .usdt, 5000000, 1, some 3, none⟩ 3600000 (some firstQuote))]
    outside := { Outside.silent with
      cryptoAssets _ := [usdtAsset, btcAsset]
      tronscan h := if lower h = someHash then
          .info (some [⟨USDT_TRC20, "T9owner", "T9payer", 6, units⟩]) true (some "SUCCESS") 900
        else .unusable }
    history := { History.nil with quoted := [(7, firstQuote)] } }

theorem quoteWorld_whole (units : ℕ) :
    Whole (dollarChain units) 7 3 5000000 (quoteWorld units) where
  keys id p hp := by
    have hmem := (Table.mem_rows_iff _ id p).mpr hp
    obtain ⟨rfl, -⟩ := Prod.mk.inj (List.mem_singleton.mp hmem)
    exact (by decide : 7 < 100)
  reports := by
    refine ⟨fun h transfers confirmed contractRet timestamp hanswer => ?_,
      fun h data hanswer ev hev => ?_⟩
    · simp only [quoteWorld] at hanswer
      split at hanswer
      · next hh =>
          simp only [TronscanAnswer.info.injEq] at hanswer
          obtain ⟨rfl, -, -, rfl⟩ := hanswer
          refine ⟨(if_pos hh).symm, fun x hx _ => ?_⟩
          obtain rfl : x = _ := List.mem_singleton.mp hx
          exact ⟨hh, rfl, rfl⟩
      · cases hanswer
    · obtain rfl : [] = data := by simpa [quoteWorld, Outside.silent] using hanswer
      cases hev
  tidy seller a ha := by
    have hmem : a ∈ [usdtAsset, btcAsset] := ha
    simp only [List.mem_cons, List.not_mem_nil, or_false] at hmem
    rcases hmem with rfl | rfl <;> decide
  order := ⟨_, rfl, rfl⟩
  row := ⟨_, firstQuote, rfl, rfl, rfl, rfl, rfl, List.mem_singleton.mpr rfl, by decide +kernel,
    by decide, by decide⟩
  paid c hc := nomatch hc

/-- The submission of a hash, a switch to bitcoin and a run of the worker. -/
def switching (units : ℕ) : Pool Stmt World AppError :=
  ⟨quoteWorld units, [submitsHash 7 someHash, .select "o3" "btc-btc", .verify].map PaymentCall.prog⟩

/-- The order of steps that leads there: the submission reads, the buyer switches, the submission
writes its copy back, the worker polls. -/
def tornRun : List ℕ := 0 :: List.replicate 8 1 ++ List.replicate 4 0 ++ List.replicate 16 2

/-- Without the condition a cent can pay for everything: the submission restores the USDT wallet
next to the amount in bitcoin, and the worker accepts a transfer of one cent. -/
theorem quote_torn :
    Whole (dollarChain 10000) 7 3 5000000 (quoteWorld 10000) ∧
      ∃ c, Pool.Run (Selling (dollarChain 10000)) (fun _ _ => True) (switching 10000) c ∧
        ¬c.store.QuoteIntact 7 ∧ ¬c.store.PaidInFull (dollarChain 10000) 7 5000000 := by
  refine ⟨quoteWorld_whole _, Pool.schedule tornRun (switching 10000),
    Pool.schedule_run_free _ _ _, ?_, ?_⟩
  · rintro ⟨p, q, hp, hq, ha⟩
    have htorn : ((Pool.schedule tornRun (switching 10000)).store.payments.get? 7).bind
        (fun p => (p.info.bind Meta.crypto).map CryptoQuote.amount) ≠
        ((Pool.schedule tornRun
          (switching 10000)).store.payments.get? 7).bind Payment.amountUsdt := by
      decide +kernel
    refine htorn ?_
    rw [hp, Option.bind_some, Option.bind_some, hq, ha, Option.map_some]
  · intro h
    have hpaid : ∃ c ∈ (Pool.schedule tornRun (switching 10000)).store.history.confirmations,
        c.payment = 7 ∧ c.evidence = .transfer someHash "T9owner" (1 / 100) 900 := by
      decide +kernel
    have hquoted : ∀ r ∈ (Pool.schedule tornRun (switching 10000)).store.history.quoted,
        upper r.2.symbol = "USDT" → 1 ≤ r.2.amount.value := by
      decide +kernel
    obtain ⟨c, hc, hid, he⟩ := hpaid
    obtain ⟨-, q, hq, hsym, -, hle⟩ := h c hc hid _ _ _ _ he
    have hone : (1 : ℚ) ≤ 1 / 100 + usdtTolerance := (hquoted (7, q) hq hsym).trans hle
    rw [usdtTolerance] at hone
    norm_num at hone

/-- A switch and a run of the worker after the submission is over meet the condition. The transfer
of 100 USDT pays, and the switch is refused. -/
theorem quote_stays_whole_in_turn :
    let c := Pool.schedule (List.replicate 16 0 ++ List.replicate 16 1 ++ List.replicate 16 2)
      (switching 100000000)
    c.Done ∧ c.store.history.confirmations.map Confirmation.payment = [7] ∧
      c.store.QuoteIntact 7 ∧ c.store.PaidInFull (dollarChain 100000000) 7 5000000 :=
  ⟨by decide +kernel, by decide +kernel, quote_stays_whole (quoteWorld_whole _)
    (Pool.schedule_run (Selling (dollarChain 100000000))
      (List.replicate 16 0 ++ List.replicate 16 1 ++ List.replicate 16 2) _ (by decide +kernel))⟩

end SRPanel
