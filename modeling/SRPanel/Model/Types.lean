import SRPanel.Model.Text
import Mathlib.Data.Rat.Defs

/-!
# Rows and values

The data of the payment services: the enumerations and rows of the database schema, the JSON values
kept in `Payment.meta` and in the settings table, and the errors that the services throw.
Identifiers are opaque numbers, times are milliseconds, amounts of money are whole toman.
-/

namespace SRPanel

/-- The id of an admin account. -/
abbrev AdminId := ℕ

/-- The id of an order. -/
abbrev OrderId := ℕ

/-- The id of a customer of a shop. -/
abbrev CustomerId := ℕ

/-- The id of a payment. -/
abbrev PaymentId := ℕ

/-- The id of a payment plugin. -/
abbrev PluginId := ℕ

/-- The id of a reported deposit. -/
abbrev DepositId := ℕ

/-- The handle of a gateway for one payment. -/
abbrev Authority := ℕ

/-- The id of a client. -/
abbrev ClientId := ℕ

/-- A time of the clock. -/
abbrev Time := ℕ

/-! ## Errors -/

/-- An exception: the `AppError` of the services, or one that the database client throws. -/
structure AppError where
  message : String
  status : ℕ
  code : String
  deriving DecidableEq

/-- A request that is refused as it stands. -/
def badRequest (message : String) : AppError := ⟨message, 400, "bad_request"⟩

/-- A request that this actor may not make. -/
def forbiddenError (message : String) : AppError := ⟨message, 403, "forbidden"⟩

/-- A request for something that is not there. -/
def notFoundError (message : String) : AppError := ⟨message, 404, "not_found"⟩

/-- The client's P2025: the row to change does not exist. -/
def recordNotFound : AppError := ⟨"Record to update not found.", 500, "P2025"⟩

/-- The client's P2002: a unique column would hold one value twice. -/
def uniqueViolation : AppError := ⟨"Unique constraint failed", 500, "P2002"⟩

/-! ## Admins, shops, customers, orders -/

/-- The roles of accounts. -/
inductive AdminRole
  | owner
  | admin
  deriving DecidableEq

/-- The acting admin of a request. -/
structure Actor where
  id : AdminId
  role : AdminRole
  deriving DecidableEq

/-- The columns of an account that payments read and write. -/
structure Admin where
  role : AdminRole
  credit : ℤ
  createdAt : Time
  deriving DecidableEq

/-- The settings of a shop that payments go by. -/
structure StoreSettings where
  adminId : AdminId
  enabled : Bool
  slug : String
  usdtEnabled : Bool
  usdtAddress : Option String
  usdtNetwork : String
  usdtRate : ℤ
  usdtAutoVerify : Bool
  cardEnabled : Bool
  cardNumber : Option String
  cardHolder : Option String
  cardBank : Option String
  zarinpalEnabled : Bool
  /-- the encrypted merchant id -/
  zarinpalMerchant : Option String
  zarinpalSandbox : Bool
  paymentTtlMin : ℕ
  walletEnabled : Bool
  minTopup : ℤ
  topupBonusPct : ℤ
  deriving DecidableEq

/-- A customer's row. -/
structure Customer where
  adminId : AdminId
  credit : ℤ
  deriving DecidableEq

/-- The status of an order. -/
inductive OrderStatus
  | pending
  | paid
  | fulfilled
  | canceled
  | expired
  deriving DecidableEq

/-- An order's row. -/
structure Order where
  token : String
  adminId : AdminId
  status : OrderStatus
  amount : ℤ
  customerTelegramId : Option String
  error : Option String
  paidAt : Option Time
  deriving DecidableEq

/-! ## Crypto quotes -/

/-- The networks that an asset may live on. -/
inductive CryptoNetwork
  | trc20 | bep20 | erc20 | ton | sol | polygon | arbitrum | avax | btc | ltc | doge | xmr | other
  deriving DecidableEq

namespace CryptoNetwork

/-- The name under which a network is stored. -/
def name : CryptoNetwork → String
  | trc20 => "TRC20"
  | bep20 => "BEP20"
  | erc20 => "ERC20"
  | ton => "TON"
  | sol => "SOL"
  | polygon => "POLYGON"
  | arbitrum => "ARBITRUM"
  | avax => "AVAX"
  | btc => "BTC"
  | ltc => "LTC"
  | doge => "DOGE"
  | xmr => "XMR"
  | other => "OTHER"

/-- `CRYPTO_NETWORK_LABELS`. -/
def label : CryptoNetwork → String
  | trc20 => "ترون (TRC20)"
  | bep20 => "BNB Smart Chain (BEP20)"
  | erc20 => "اتریوم (ERC20)"
  | ton => "تون (TON)"
  | sol => "سولانا (SOL)"
  | polygon => "پالیگان (Polygon)"
  | arbitrum => "آربیتروم (Arbitrum)"
  | avax => "آوالانچ (C-Chain)"
  | btc => "بیت‌کوین"
  | ltc => "لایت‌کوین"
  | doge => "دوج‌کوین"
  | xmr => "مونرو"
  | other => "شبکه‌ی دیگر"

/-- `CRYPTO_NETWORKS`. -/
def all : List CryptoNetwork :=
  [trc20, bep20, erc20, ton, sol, polygon, arbitrum, avax, btc, ltc, doge, xmr, other]

end CryptoNetwork

/-- How the rate of an asset is found. -/
inductive RateMode
  | usdt
  | market
  | fixed
  deriving DecidableEq

/-- An asset that a shop accepts. -/
structure CryptoAsset where
  id : String
  symbol : String
  network : CryptoNetwork
  address : String
  memo : String
  label : String
  enabled : Bool
  rateMode : RateMode
  fixedRate : ℚ
  marginPct : ℚ
  decimals : ℕ
  deriving DecidableEq

/-- A decimal text with a fixed number of digits after the point, as `toFixed` writes it. -/
structure Decimal where
  units : ℕ
  digits : ℕ
  deriving DecidableEq

/-- `Number(text)`. -/
def Decimal.value (d : Decimal) : ℚ := d.units / 10 ^ d.digits

/-- The price of an order in an asset. -/
structure CryptoQuote where
  assetId : String
  symbol : String
  network : CryptoNetwork
  networkLabel : String
  address : String
  memo : Option String
  label : Option String
  /-- IRT per 1 coin -/
  rateIrt : ℤ
  /-- the coin amount the buyer has to send -/
  amount : Decimal
  decimals : ℕ
  source : String
  auto : Bool
  stale : Bool
  quotedAt : Time
  deriving DecidableEq

/-! ## Payments -/

/-- What a payment is for. -/
inductive PaymentKind
  | order
  | topup
  deriving DecidableEq

/-- How a payment is made. -/
inductive PaymentMethod
  | usdt
  | card
  | zarinpal
  | wallet
  | manual
  deriving DecidableEq

/-- The status of a payment. -/
inductive PaymentStatus
  | pending
  | review
  | confirmed
  | rejected
  | expired
  deriving DecidableEq

/-- The verdict on a transfer. -/
inductive TronVerifyStatus
  | confirmed
  | pending
  | not_found
  | mismatch
  | error
  deriving DecidableEq

/-- The JSON object in `Payment.meta`; absent keys are `none`. -/
structure Meta where
  crypto : Option CryptoQuote
  verify : Option TronVerifyStatus
  tries : Option ℕ
  amountSeen : Option ℚ
  startUrl : Option String
  deriving DecidableEq

/-- `{}`. -/
def Meta.empty : Meta := ⟨none, none, none, none, none⟩

/-- A payment's row. -/
structure Payment where
  kind : PaymentKind
  method : PaymentMethod
  status : PaymentStatus
  orderId : Option OrderId
  adminId : AdminId
  customerId : Option CustomerId
  amount : ℤ
  amountUsdt : Option Decimal
  txid : Option String
  receiptRef : Option String
  receiptFile : Option String
  cardPan : Option String
  authority : Option Authority
  refId : Option String
  reviewedById : Option AdminId
  error : Option String
  expiresAt : Option Time
  /-- the column `meta` -/
  info : Option Meta
  createdAt : Time
  updatedAt : Time
  deriving DecidableEq

/-- A reseller top-up: money that the reseller owes the panel owner. -/
def Payment.isResellerTopup (p : Payment) : Bool := p.kind = .topup && p.customerId.isNone

/-! ## Ledgers -/

/-- Why a wallet was moved. -/
inductive WalletTxKind
  | topup
  | purchase
  | refund
  | adjust
  deriving DecidableEq

/-- What a ledger row refers to: `refType` and `refId`. -/
inductive TxRef
  | payment (id : PaymentId)
  | order (id : OrderId)
  | client (id : ClientId)
  | other (refType refId : Option String)
  deriving DecidableEq

/-- A row of the admin wallet ledger or, with a customer for holder, of the customer wallet ledger.
-/
structure WalletTx (ι : Type) where
  holder : ι
  kind : WalletTxKind
  amount : ℤ
  balanceAfter : ℤ
  ref : TxRef
  byAdminId : Option AdminId
  deriving DecidableEq

/-! ## Payment plugins -/

/-- A payment plugin of a shop. -/
structure PaymentPlugin where
  adminId : AdminId
  /-- created by the owner: may confirm a payment that belongs to any admin -/
  master : Bool
  name : String
  enabled : Bool
  secret : String
  methods : List PaymentMethod
  autoConfirm : Bool
  /-- 0 = no ceiling -/
  maxAmount : ℕ
  lastCallAt : Option Time
  lastStatus : Option String
  lastError : Option String
  calls : ℕ
  confirmed : ℕ
  deriving DecidableEq

/-- The JSON body of a plugin callback. An id key is absent (`none`), blank (`some none`) or names a
payment; the amount is the text `String(body.amount)`. -/
structure CallbackBody where
  paymentId : Option (Option PaymentId)
  payment : Option (Option PaymentId)
  id : Option (Option PaymentId)
  status : Option String
  amount : Option String
  refId : Option String
  ref : Option String
  deriving DecidableEq

/-- `(body.paymentId ?? body.payment ?? body.id ?? "").trim()`, with `none` for the empty text. -/
def CallbackBody.target (b : CallbackBody) : Option PaymentId :=
  ((b.paymentId.or b.payment).or b.id).join

/-! ## Card deposits -/

/-- The status of a deposit in the box. -/
inductive DepositStatus
  | matched
  | unmatched
  | ambiguous
  | duplicate
  | ignored
  deriving DecidableEq

/-- Where a deposit was reported from. -/
inductive DepositSource
  | sms
  | bank
  | manual
  deriving DecidableEq

/-- A deposit as the box keeps it. -/
structure Deposit where
  id : DepositId
  date : Time
  amount : ℕ
  refId : String
  last4 : String
  sender : String
  raw : String
  source : DepositSource
  status : DepositStatus
  paymentId : Option PaymentId
  note : String
  deriving DecidableEq

/-- What a feed reports about one deposit; `date` is the parsed `at`, when there is a valid one. -/
structure DepositInput where
  amount : ℚ
  refId : Option String
  last4 : Option String
  sender : Option String
  raw : Option String
  date : Option Time
  source : DepositSource
  deriving DecidableEq

/-- A row of a bank statement, after the look-up of its columns under their possible names. -/
structure BankRow where
  desc : String
  /-- `toNumber(...)`, `none` when that is not finite -/
  amount : Option ℚ
  unit : String
  refId : String
  last4 : String
  raw : String
  date : Option Time
  deriving DecidableEq

/-- The bank whose statements are fetched. -/
inductive BankProvider
  | none
  | hamrahbank
  | custom
  deriving DecidableEq

/-- The settings and the deposit book of a seller's automatic card confirmation. Settings that none
of the modelled procedures reads are left out. -/
structure CardAuto where
  autoConfirm : Bool
  windowMin : ℕ
  toleranceIrt : ℕ
  requireLast4 : Bool
  bankProvider : BankProvider
  bankApiUrl : String
  bankLastSyncAt : Option Time
  lastError : String
  deposits : List Deposit
  deriving DecidableEq

end SRPanel
