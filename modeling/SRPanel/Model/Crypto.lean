import SRPanel.Model.World
import Mathlib.Data.Rat.Floor

/-!
# Crypto quotes

A quote fixes the wallet, the rate and the coin amount of a crypto payment. Amounts are exact
rationals here; the code computes them in floating point.
-/

namespace SRPanel

open Interleaving

/-- `STABLE_SYMBOLS`. -/
def STABLE_SYMBOLS : List String := ["USDT", "USDC", "DAI", "FDUSD", "TUSD", "BUSD"]

/-- `withMargin`. -/
def withMargin (rate marginPct : ℚ) : ℤ := max 1 (mathRound (rate * (1 + marginPct / 100)))

theorem one_le_withMargin (rate marginPct : ℚ) : 1 ≤ withMargin rate marginPct := le_max_left _ _

/-- `effectiveRateMode`. -/
def effectiveRateMode (a : CryptoAsset) : RateMode :=
  if a.rateMode = .fixed then .fixed
  else if upper a.symbol ∈ STABLE_SYMBOLS then .usdt else .market

/-- A priced coin. -/
structure AssetRate where
  rate : ℤ
  source : String
  auto : Bool
  stale : Bool

/-- `marketRate`, whose look-up of public prices is outside this model. -/
def marketRate (symbol : String) : Service (ℚ × String) := do
  let r ← Db.read fun w => w.outside.marketRate (upper symbol)
  match r with
  | none => throw (badRequest
      ("قیمت لحظه‌ای " ++ upper symbol ++ " در دسترس نیست؛ برای این ارز نرخ ثابت وارد کنید"))
  | some r => pure r

/-- `assetRate`. -/
def assetRate (s : StoreSettings) (asset : CryptoAsset) : Service AssetRate :=
  match effectiveRateMode asset with
  | .fixed =>
      if asset.fixedRate ≤ 0 then
        throw (badRequest ("نرخ ثابت " ++ asset.symbol ++ " تعیین نشده است"))
      else pure ⟨withMargin asset.fixedRate asset.marginPct, "FIXED", false, false⟩
  | .market => do
      let m ← marketRate asset.symbol
      pure ⟨withMargin m.1 asset.marginPct, m.2, true, false⟩
  | .usdt => do
      let fx ← Db.read fun w => w.outside.effectiveUsdtRate s.adminId s.usdtRate
      if fx.rate ≤ 0 then
        throw (badRequest "نرخ تتر تنظیم نشده و از منابع خودکار هم دریافت نشد")
      else pure ⟨withMargin fx.rate asset.marginPct, fx.source, fx.auto, fx.stale⟩

/-- `decimalsFor`. -/
def decimalsFor (asset : CryptoAsset) (rate : ℤ) : ℕ :=
  if 0 < asset.decimals then asset.decimals
  else if 50000000 ≤ rate then 6
  else if 1000000 ≤ rate then 4
  else 2

/-- `coinAmount`: the price at the rate, rounded up to the coin's decimals, and at least one unit.
-/
def coinAmount (amountIrt rate : ℤ) (decimals : ℕ) : Decimal :=
  if rate ≤ 0 then ⟨0, 0⟩
  else ⟨max 1 (⌈(amountIrt * 10 ^ decimals : ℚ) / rate⌉).toNat, decimals⟩

/-- `usdtAmountFor`: the amount of a payment without a quote, at the shop's dollar rate. -/
def usdtAmountFor (amountIrt rate : ℤ) : Decimal :=
  if rate ≤ 0 then ⟨0, 0⟩ else ⟨max 1 (⌈(amountIrt * 100 : ℚ) / rate⌉).toNat, 2⟩

/-- `legacyAsset`: sellers without a wallet list keep their single USDT wallet. -/
def legacyAsset (s : StoreSettings) : Option CryptoAsset :=
  match s.usdtAddress with
  | none => none
  | some address =>
      if address = "" then none
      else
        let network := (CryptoNetwork.all.find? fun n => n.name = s.usdtNetwork).getD .trc20
        some ⟨"legacy", "USDT", network, trim address, "", "", true, .usdt, 0, 0, 0⟩

/-- `availableAssets`, in one step with the read of the seller's crypto settings. -/
def availableAssets (s : StoreSettings) : Service (List CryptoAsset) := do
  let assets ← Db.read fun w => w.outside.cryptoAssets s.adminId
  let list := assets.filter fun a => a.enabled && a.address != ""
  if list = [] then pure (legacyAsset s).toList else pure list

/-- `quoteAsset`. -/
def quoteAsset (s : StoreSettings) (amountIrt : ℤ) (asset : CryptoAsset) : Service CryptoQuote := do
  let r ← assetRate s asset
  let decimals := decimalsFor asset r.rate
  let now ← clock
  pure {
    assetId := asset.id
    symbol := upper asset.symbol
    network := asset.network
    networkLabel := asset.network.label
    address := asset.address
    memo := orNull asset.memo
    label := orNull asset.label
    rateIrt := r.rate
    amount := coinAmount amountIrt r.rate decimals
    decimals := decimals
    source := r.source
    auto := r.auto
    stale := r.stale
    quotedAt := now }

/-- `quoteCrypto`: a quote for the wallet that the buyer picked, or for the first one. -/
def quoteCrypto (s : StoreSettings) (amountIrt : ℤ) (assetId : Option String) :
    Service CryptoQuote := do
  let assets ← availableAssets s
  match assets with
  | [] => throw (badRequest "کیف‌پول ارز دیجیتال تنظیم نشده است")
  | first :: rest =>
      let picked := (assetId.bind orNull).bind fun i => (first :: rest).find? fun a => a.id = i
      quoteAsset s amountIrt (picked.getD first)

/-- `cryptoMetaOf`: the quote stored on a payment. -/
def cryptoMetaOf (p : Payment) : Option CryptoQuote :=
  match p.info.bind Meta.crypto with
  | none => none
  | some c => if c.address = "" ||
    c.symbol = "" then none else some { c with symbol := upper c.symbol }

/-- `isTrc20Usdt`: only USDT on Tron can be checked on the chain. -/
def isTrc20Usdt (q : Option CryptoQuote) : Bool :=
  match q with
  | none => true
  | some q => q.symbol = "USDT" && q.network = .trc20

/-! ## Switching the coin of an open order -/

/-- The newest USDT payment of an order. -/
def newestCryptoPayment (w : World) (orderId : OrderId) : Option (PaymentId × Payment) :=
  ((w.payments.rows.filter fun r => r.2.method = .usdt && r.2.orderId = some orderId).insertionSort
    fun a b => b.2.createdAt ≤ a.2.createdAt).head?

/-- `openCryptoPayment`. -/
def openCryptoPayment (token : String) :
    Service (Order × Option (PaymentId × Payment) × StoreSettings) := do
  let found ← Db.read fun w => (w.orders.rows.find? fun r => r.2.token = token).map fun r =>
    (r.2, newestCryptoPayment w r.1)
  match found with
  | none => throw (notFoundError "سفارش پیدا نشد")
  | some (order, payment) => do
      let s ← storeSettingsByAdminId order.adminId
      match s with
      | none => throw (badRequest "تنظیمات فروشگاه پیدا نشد")
      | some s => pure (order, payment, s)

/-- The deadline of a payment has passed. -/
def Payment.overdue (p : Payment) (now : Time) : Bool := p.expiresAt.any fun t => t < now

/-- `selectOrderAsset`: quote an open crypto payment anew, on another coin or network. -/
def selectOrderAsset (token assetId : String) : Service CryptoQuote := do
  let (order, payment, s) ← openCryptoPayment token
  match payment with
  | none => throw (badRequest "پرداخت ارزی بازی برای این سفارش وجود ندارد")
  | some (id, p) =>
      if p.status ≠ .pending then throw (badRequest "این پرداخت دیگر قابل تغییر نیست")
      else do
        let now ← clock
        if p.overdue now then throw (badRequest "مهلت پرداخت تمام شده است")
        else do
          let quote ← quoteCrypto s order.amount (some assetId)
          let _ ← Db.updatePayment (.update [.quote, .info] [(id, p)]) id (fun row =>
            { row with
              amountUsdt := some quote.amount
              error := none
              info := some { p.info.getD .empty with crypto := some quote } })
            fun _ h => h.quote id (some quote)
          pure quote

end SRPanel
