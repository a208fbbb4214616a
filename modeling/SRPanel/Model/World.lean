import SRPanel.Lib.Prog
import SRPanel.Lib.Table
import SRPanel.Lib.Cell
import SRPanel.Model.Types
import Mathlib.Data.List.Sort

/-!
# The state of the panel

`World` is everything that the payment services read or write: the database, the settings table with
its caches, the Zarinpal gateway, and what the outside world would answer right now. `History`
records for the statements of this development what has happened; no service reads it.

A service is a procedure of atomic steps on the world (`Service`). One step is one call of the
database client, one settings read or write, or one request to an explorer, a gateway or a bank.
-/

namespace SRPanel

open Interleaving

/-! ## The outside world -/

/-- A process of the panel with its own settings cache. -/
inductive Proc
  | web
  | worker
  deriving DecidableEq

/-- An entry of `trc20TransferInfo`. -/
structure Trc20Transfer where
  contract_address : String
  to_address : String
  from_address : String
  decimals : ℕ
  amount : ℕ
  deriving DecidableEq

/-- Tronscan's answer about a hash. -/
inductive TronscanAnswer
  /-- no answer, an error status or an empty object -/
  | unusable
  | info (trc20TransferInfo : Option (List Trc20Transfer)) (confirmed : Bool)
      (contractRet : Option String) (timestamp : Time)
  deriving DecidableEq

/-- An event of a TronGrid answer; the addresses are in hex. -/
structure TronEvent where
  event_name : String
  contract_address : String
  toHex : String
  fromHex : String
  value : ℕ
  block_timestamp : Time
  deriving DecidableEq

/-- TronGrid's answer about a hash. -/
inductive TrongridAnswer
  | failed (error : String)
  | events (data : List TronEvent)
  deriving DecidableEq

/-- An invoice at the Zarinpal gateway. -/
structure Invoice where
  merchantId : String
  amount : ℤ
  paid : Bool
  verified : Bool
  refId : String
  cardPan : Option String
  deriving DecidableEq

/-- The dollar rate of a seller. -/
structure FxRate where
  rate : ℚ
  source : String
  auto : Bool
  stale : Bool

/-- What the services would learn right now from outside the modelled code. -/
structure Outside where
  tronscan : String → TronscanAnswer
  trongrid : String → TrongridAnswer
  sha256 : List ℕ → List ℕ
  /-- hex HMAC-SHA256 of a body under a secret -/
  hmac : String → String → String
  /-- the body of a callback, when it is JSON of the expected shape -/
  callbackJson : String → Option CallbackBody
  decryptSecret : String → Option String
  effectiveUsdtRate : AdminId → ℤ → FxRate
  marketRate : String → Option (ℚ × String)
  /-- the wallets in a seller's crypto settings -/
  cryptoAssets : AdminId → List CryptoAsset
  /-- why the gateway cannot be reached, if it cannot -/
  zarinpalDown : Option String
  /-- the error text of a refused request -/
  zarinpalRefusal : String
  bankFeed : AdminId → Except String (List BankRow)
  /-- why the provisioning of an order would fail, if it would -/
  provisioning : OrderId → Option String
  /-- a random secret, by the number drawn for it -/
  randomHex : ℕ → String

/-! ## History -/

/-- Why a payment was confirmed. -/
inductive Evidence
  /-- an admin's review -/
  | review (reviewer : Actor)
  /-- a signed callback to a plugin -/
  | plugin (plugin : PaymentPlugin)
  /-- a deposit in the box of a seller -/
  | deposit (box : AdminId) (dep : Deposit)
  /-- the gateway account of a seller reported the invoice paid -/
  | gateway (seller : AdminId) (authority : Authority)
  /-- a transfer on the chain -/
  | transfer (txid : String) (toAddress : String) (amount : ℚ) (timestamp : Time)
  /-- the wallet of a customer was debited -/
  | wallet (customer : CustomerId)
  deriving DecidableEq

/-- A write of the status `confirmed`, with the row as it was before. -/
structure Confirmation where
  payment : PaymentId
  row : Payment
  evidence : Evidence
  deriving DecidableEq

/-- What has happened so far. -/
structure History where
  confirmations : List Confirmation
  /-- the orders set to `paid`, with the payment that did it -/
  moved : List (OrderId × PaymentId)
  /-- the orders handed to fulfilment, with the payment that did it -/
  handedOver : List (OrderId × PaymentId)
  /-- the orders whose product was provisioned, once for each time -/
  provisioned : List OrderId
  /-- the quotes stored on payments -/
  quoted : List (PaymentId × CryptoQuote)
  /-- the records made of the deposits received, each with the digits of the reported reference -/
  received : List (Deposit × String)
  /-- the deposits that entered the stored book of a box, newest first -/
  accepted : AdminId → List DepositId
  /-- the deposits dismissed as duplicates, each with the record it was taken for -/
  dismissed : List (DepositId × DepositId)
  /-- the records of paid deposits, as they were written into the book of a box -/
  matched : AdminId → List Deposit

/-! ## The world -/

/-- A line of the audit log, a webhook event or a notification. -/
inductive Entry
  | audit (adminId : Option AdminId) (action : String)
  | event (adminId : Option AdminId) (name : String)
  | notice (kind : String)
  deriving DecidableEq

structure World where
  now : Time
  nextId : ℕ
  admins : Table AdminId Admin
  shops : Table AdminId StoreSettings
  customers : Table CustomerId Customer
  orders : Table OrderId Order
  payments : Table PaymentId Payment
  walletTxs : List (WalletTx AdminId)
  customerTxs : List (WalletTx CustomerId)
  creditLimit : ℕ
  lowBalance : ℤ
  plugins : Cell Proc (Table PluginId PaymentPlugin)
  cards : AdminId → Cell Proc CardAuto
  gateway : Table Authority Invoice
  journal : List Entry
  outside : Outside
  history : History

/-- Nothing outside answers. -/
def Outside.silent : Outside where
  tronscan _ := .unusable
  trongrid _ := .events []
  sha256 bytes := bytes
  hmac secret body := secret ++ body
  callbackJson _ := none
  decryptSecret s := some s
  effectiveUsdtRate _ manual := ⟨manual, "MANUAL", false, false⟩
  marketRate _ := none
  cryptoAssets _ := []
  zarinpalDown := none
  zarinpalRefusal := "خطای زرین‌پال"
  bankFeed _ := .ok []
  provisioning _ := none
  randomHex n := toString n

/-- Record the quote stored on a payment, if there is one. -/
def History.quote (h : History) (id : PaymentId) (q : Option CryptoQuote) : History :=
  { h with quoted := (q.map fun q => (id, q)).toList ++ h.quoted }

/-- Nothing has happened. -/
def History.nil : History := ⟨[], [], [], [], [], [], fun _ => [], [], fun _ => []⟩

/-- The card settings of a seller who never saved any: the defaults of `cardAutoSchema`. -/
def CardAuto.default : CardAuto where
  autoConfirm := true
  windowMin := 120
  toleranceIrt := 0
  requireLast4 := false
  bankProvider := .none
  bankApiUrl := ""
  bankLastSyncAt := none
  lastError := ""
  deposits := []

/-- A shop that offers nothing yet: the column defaults. -/
def StoreSettings.blank (adminId : AdminId) : StoreSettings where
  adminId := adminId
  enabled := false
  slug := ""
  usdtEnabled := false
  usdtAddress := none
  usdtNetwork := "TRC20"
  usdtRate := 0
  usdtAutoVerify := true
  cardEnabled := false
  cardNumber := none
  cardHolder := none
  cardBank := none
  zarinpalEnabled := false
  zarinpalMerchant := none
  zarinpalSandbox := false
  paymentTtlMin := 60
  walletEnabled := true
  minTopup := 0
  topupBonusPct := 0

/-- A panel without data. -/
def World.blank : World where
  now := 0
  nextId := 100
  admins := .empty
  shops := .empty
  customers := .empty
  orders := .empty
  payments := .empty
  walletTxs := []
  customerTxs := []
  creditLimit := 0
  lowBalance := 0
  plugins := .fresh .empty
  cards _ := .fresh .default
  gateway := .empty
  journal := []
  outside := .silent
  history := .nil

/-! ## Services -/

/-- A group of columns of the payment table. -/
inductive Column
  | status
  | info
  /-- `amountUsdt` and `meta.crypto` -/
  | quote
  | txid (value : String)
  /-- `status`, set to `confirmed` on this evidence -/
  | verdict (evidence : Evidence)
  deriving DecidableEq

/-- What a step does, as far as statements about runs distinguish it. The rows that it writes and
the books that it goes by are given as the copies that the call has read earlier. -/
inductive Stmt
  | other
  | update (columns : List Column) (rows : List (PaymentId × Payment))
  /-- the gateway's callback looks up its payment -/
  | callback (id : PaymentId) (authority : Authority) (status : String)
  /-- a signed callback to a plugin looks up its payment -/
  | called (plugin : PaymentPlugin) (id : PaymentId)
  | receive (box : AdminId) (x : Proc) (input : DepositInput)
  /-- a deposit is compared with the open card payments since a time -/
  | look (box : AdminId) (seen : CardAuto) (dep : Deposit) (since : Time)
  | release (box : AdminId) (seen : CardAuto) (dep : Deposit)
  | saveBook (box : AdminId) (seen : CardAuto)
  /-- a payment is tagged with the customer who makes it -/
  | tag (id : PaymentId)
  /-- money is added to a customer wallet; `seen` is the row that the call has found under the
  reference -/
  | credit (customerId : CustomerId) (amount : ℤ) (kind : WalletTxKind) (ref : TxRef)
      (seen : Option (WalletTx CustomerId))
  /-- an order is set to `paid` -/
  | pay (orderId : OrderId)
  /-- a failed wallet purchase looks whether its payment was confirmed -/
  | lookBack (id : PaymentId)
  /-- a process reads the book of payment plugins -/
  | readPlugins (x : Proc)
  /-- a call that has read the book `seen` writes the book of payment plugins -/
  | savePlugins (seen : Table PluginId PaymentPlugin)

abbrev Service := Prog Stmt World AppError

namespace Db

/-- A read. -/
def read {α : Type} (f : World → α) : Service α := .query .other f

/-- A write that no statement about runs distinguishes and that cannot be refused. -/
def write (f : World → World) : Service Unit := .modify .other f

/-- `prisma.payment.findUnique`. -/
def findPayment (id : PaymentId) : Service (Option Payment) := read fun w => w.payments.get? id

/-- `prisma.payment.update` on columns that are not unique; the client sets `updatedAt`. -/
def updatePayment (l : Stmt) (id : PaymentId) (f : Payment → Payment)
    (record : Payment → History → History) : Service Payment :=
  .step l fun w =>
    match w.payments.get? id with
    | none => (.error recordNotFound, w)
    | some p =>
        let p' := { f p with updatedAt := w.now }
        (.ok p', { w with
          payments := w.payments.modify id fun _ => p'
          history := record p w.history })

/-- Some other payment holds the hash. -/
def txidTaken (w : World) (id : PaymentId) (txid : String) : Bool :=
  w.payments.rows.any fun r => r.1 != id && r.2.txid == some txid

/-- `prisma.payment.update` of the unique column `txid` and others. -/
def updateTxid (l : Stmt) (id : PaymentId) (txid : String) (f : Payment → Payment) :
    Service Payment :=
  .step l fun w =>
    match w.payments.get? id with
    | none => (.error recordNotFound, w)
    | some p =>
        if txidTaken w id txid then (.error uniqueViolation, w)
        else
          let p' := { f p with txid := some txid, updatedAt := w.now }
          (.ok p', { w with payments := w.payments.modify id fun _ => p' })

/-- `prisma.payment.create`. -/
def createPayment (p : Payment) : Service (PaymentId × Payment) :=
  .step .other fun w =>
    let p' := { p with createdAt := w.now, updatedAt := w.now }
    (.ok (w.nextId, p'), { w with
      payments := w.payments.set w.nextId p'
      nextId := w.nextId + 1
      history := w.history.quote w.nextId (p.info.bind Meta.crypto) })

/-- `prisma.payment.findMany`: the rows that satisfy `cond`, the first `take` in the given order. -/
def findPayments (cond : Payment → Bool) (before : Payment → Payment → Bool) (take : ℕ) :
    Service (List (PaymentId × Payment)) :=
  read fun w =>
    ((w.payments.rows.filter fun r => cond r.2).insertionSort fun a b => before a.2 b.2).take take

end Db

/-- `new Date()`. -/
def clock : Service Time := Db.read World.now

/-- `audit`: never throws. -/
def audit (adminId : Option AdminId) (action : String) : Service Unit :=
  (Db.write fun w => { w with journal := .audit adminId action :: w.journal }).attempt
    fun _ => pure ()

/-- `notify`: never throws. -/
def notify (kind : String) : Service Unit :=
  (Db.write fun w => { w with journal := .notice kind :: w.journal }).attempt fun _ => pure ()

/-- `emitEvent`: queues the event for the webhooks. -/
def emitEvent (adminId : Option AdminId) (name : String) : Service Unit :=
  Db.write fun w => { w with journal := .event adminId name :: w.journal }

/-- `storeSettingsByAdminId`. -/
def storeSettingsByAdminId (adminId : AdminId) : Service (Option StoreSettings) :=
  Db.read fun w => w.shops.get? adminId

/-- `merchantOf`, given the decryption of secrets; the empty text counts as no merchant. -/
def merchantOf (decryptSecret : String → Option String) (s : StoreSettings) : Option String :=
  ((s.zarinpalMerchant.bind orNull).bind decryptSecret).bind orNull

/-- `enabledMethods`. -/
def enabledMethods (s : StoreSettings) : List PaymentMethod :=
  (if s.usdtEnabled && (s.usdtAddress.getD "") != "" && 0 < s.usdtRate then [.usdt] else []) ++
  (if s.cardEnabled && (s.cardNumber.getD "") != "" then [.card] else []) ++
  (if s.zarinpalEnabled && (s.zarinpalMerchant.getD "") != "" then [.zarinpal] else [])

end SRPanel
