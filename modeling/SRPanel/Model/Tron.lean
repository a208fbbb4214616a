import SRPanel.Model.World
import Mathlib.Data.Nat.Digits.Defs

/-!
# USDT transfers on Tron

`verifyTrc20Payment` asks Tronscan about a hash and falls back to TronGrid.
-/

namespace SRPanel

open Interleaving

/-- The USDT contract on the Tron mainnet. -/
def USDT_TRC20 : String := "TR7NHqjeKQxGTCi8q8ZY4pL8otSzgjLj6t"

/-- The base 58 alphabet. -/
def B58 : List Char := "123456789ABCDEFGHJKLMNPQRSTUVWXYZabcdefghijkmnopqrstuvwxyz".toList

/-- `base58`: the bytes as one big-endian number in base 58, with a 1 for every leading zero byte.
-/
def base58 (bytes : List ℕ) : String :=
  let n := bytes.foldl (fun n b => n * 256 + b) 0
  .ofList ((bytes.takeWhile (· = 0)).map (fun _ => '1') ++
    ((Nat.digits 58 n).map fun d => B58.getD d '1').reverse)

/-- The value of a hex digit; other characters count as 0. -/
def hexValue (c : Char) : ℕ :=
  if c.isDigit then c.toNat - '0'.toNat
  else if 'a' ≤ c ∧ c ≤ 'f' then c.toNat - 'a'.toNat + 10
  else 0

/-- `Buffer.from(h, "hex")`: the bytes up to the first pair that is not hex. -/
def bytesOfHex : List Char → List ℕ
  | a :: b :: rest =>
      if isHexDigit a && isHexDigit b then (16 * hexValue a + hexValue b) :: bytesOfHex rest else []
  | _ => []

/-- `tronHexToBase58`. -/
def tronHexToBase58 (sha256 : List ℕ → List ℕ) (hex : String) : String :=
  let h := dropHexMark (lower hex)
  let h := if h.length = 40 then "41" ++ h else h
  if h.length ≠ 42 then hex
  else
    let payload := bytesOfHex h.toList
    base58 (payload ++ (sha256 (sha256 payload)).take 4)

/-- The outcome of a check of a transfer. -/
structure TronVerifyResult where
  ok : Bool
  status : TronVerifyStatus
  amount : Option ℚ
  toAddress : Option String
  timestamp : Option Time
  error : Option String

/-- The tolerance of 0.02 USDT. -/
def usdtTolerance : ℚ := 1 / 50

def TronVerifyResult.refused (status : TronVerifyStatus) (amount : Option ℚ) (error : String) :
    TronVerifyResult :=
  ⟨false, status, amount, none, none, some error⟩

def TronVerifyResult.accepted (amount : ℚ) (toAddress : String) (timestamp : Time) :
    TronVerifyResult :=
  ⟨true, .confirmed, some amount, some toAddress, some timestamp, none⟩

/-- What Tronscan's answer says about a transfer to `want` of at least `minAmount`; `none` when the
answer is unusable. -/
def judgeTronscan (want : String) (minAmount : ℚ) : TronscanAnswer → Option TronVerifyResult
  | .unusable => none
  | .info trc20TransferInfo confirmed contractRet timestamp =>
      -- the fallback on `tokenTransferInfo` wraps an array into an array and finds no transfer
      let transfers := trc20TransferInfo.getD []
      match transfers.find? fun x => x.contract_address = USDT_TRC20 ∧ x.to_address = want with
      | none => some (.refused .mismatch none "این تراکنش انتقال USDT به آدرس فروشگاه نیست")
      | some t =>
          let amount : ℚ := t.amount / 10 ^ t.decimals
          if !(confirmed && (contractRet.isNone || contractRet = some "SUCCESS")) then
            some (.refused .pending (some amount) "تراکنش هنوز تأیید نشده است")
          else if amount + usdtTolerance < minAmount then
            some (.refused .mismatch (some amount) "مبلغ تراکنش کمتر از مبلغ سفارش است")
          else some (.accepted amount want timestamp)

/-- The loop over TronGrid's events. -/
def judgeEvents (sha256 : List ℕ → List ℕ) (want : String) (minAmount : ℚ) :
    List TronEvent → TronVerifyResult
  | [] => .refused .mismatch none "انتقال USDT به آدرس فروشگاه در این تراکنش یافت نشد"
  | ev :: rest =>
      if ev.event_name ≠ "Transfer" ∨ ev.contract_address ≠ USDT_TRC20 ∨
          tronHexToBase58 sha256 ev.toHex ≠ want then judgeEvents sha256 want minAmount rest
      else
        let amount : ℚ := ev.value / 1000000
        if amount + usdtTolerance < minAmount then
          .refused .mismatch (some amount) "مبلغ تراکنش کمتر از مبلغ سفارش است"
        else .accepted amount want ev.block_timestamp

/-- What TronGrid's answer says about a transfer to `want` of at least `minAmount`. -/
def judgeTrongrid (sha256 : List ℕ → List ℕ) (want : String) (minAmount : ℚ) :
    TrongridAnswer → TronVerifyResult
  | .failed error => .refused .error none error
  | .events [] => .refused .not_found none "تراکنش پیدا نشد (یا هنوز ثبت نشده)"
  | .events (ev :: rest) => judgeEvents sha256 want minAmount (ev :: rest)

/-- `verifyTrc20Payment`. Each request to an explorer is one step. -/
def verifyTrc20Payment (txid toAddress : String) (minAmount : ℚ) : Service TronVerifyResult :=
  let id := dropHexMark (trim txid)
  if !isTxid id then pure (.refused .mismatch none "TXID نامعتبر است")
  else do
    let want := trim toAddress
    let answer ← Db.read fun w => judgeTronscan want minAmount (w.outside.tronscan id)
    match answer with
    | some r => pure r
    | none => Db.read fun w => judgeTrongrid w.outside.sha256 want minAmount (w.outside.trongrid id)

end SRPanel
