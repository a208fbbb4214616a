import SRPanel.Model.Logins

/-!
# The mailer

The SMTP client of `services/mailer.ts`. A conversation is a list of exchanges: what the client
writes, and the reply codes with which it goes on. Only a mail that the server takes runs through to
the end.
-/

namespace SRPanel

/-! ## Base64 -/

/-- A digit of base64. -/
def b64Digit (n : ℕ) : Char :=
  if n < 26 then .ofNat (65 + n)
  else if n < 52 then .ofNat (71 + n)
  else if n < 62 then .ofNat (n - 4)
  else if n = 62 then '+'
  else '/'

/-- Bytes in base64, three at a time. -/
def b64Bytes : List UInt8 → List Char
  | a :: b :: c :: rest =>
      let n := a.toNat * 65536 + b.toNat * 256 + c.toNat
      b64Digit (n / 262144) :: b64Digit (n / 4096 % 64) :: b64Digit (n / 64 % 64) ::
        b64Digit (n % 64) :: b64Bytes rest
  | [a, b] =>
      let n := a.toNat * 65536 + b.toNat * 256
      [b64Digit (n / 262144), b64Digit (n / 4096 % 64), b64Digit (n / 64 % 64), '=']
  | [a] =>
      let n := a.toNat * 65536
      [b64Digit (n / 262144), b64Digit (n / 4096 % 64), '=', '=']
  | [] => []

/-- `b64`: the UTF-8 bytes of a text in base64. -/
def b64 (v : String) : String := .ofList (b64Bytes (v.toList.flatMap String.utf8EncodeChar))

/-- A line break after every 76 characters, of which `n` have passed since the last one. -/
def foldLines : (n : ℕ) → List Char → List Char
  | _, [] => []
  | n, c :: cs => if n = 75 then c :: '\r' :: '\n' :: foldLines 0 cs else c :: foldLines (n + 1) cs

/-- `b64(text).replace(/(.{76})/g, "$1\r\n")`. -/
def b64Lines (text : String) : String := .ofList (foldLines 0 (b64 text).toList)

/-! ## Dates -/

/-- A number below 100 in two digits. -/
def twoDigits (n : ℕ) : String := if n < 10 then "0" ++ toString n else toString n

/-- The year, month and day of a day that is given by its number since the epoch: years start in
March, so that the leap day is the last one. -/
def civilDate (day : ℕ) : ℕ × ℕ × ℕ :=
  let z := day + 719468
  let era := z / 146097
  let doe := z % 146097
  let yoe := (doe - doe / 1460 + doe / 36524 - doe / 146096) / 365
  let doy := doe - (365 * yoe + yoe / 4 - yoe / 100)
  let mp := (5 * doy + 2) / 153
  let month := if mp < 10 then mp + 3 else mp - 9
  (yoe + era * 400 + if month ≤ 2 then 1 else 0, month, doy - (153 * mp + 2) / 5 + 1)

/-- The names of the days of the week, from the day of the epoch. -/
def WEEKDAYS : List String := ["Thu", "Fri", "Sat", "Sun", "Mon", "Tue", "Wed"]

/-- The names of the months. -/
def MONTHS : List String :=
  ["Jan", "Feb", "Mar", "Apr", "May", "Jun", "Jul", "Aug", "Sep", "Oct", "Nov", "Dec"]

/-- `new Date().toUTCString()`. -/
def toUTCString (now : Time) : String :=
  let sec := now / 1000
  let date := civilDate (sec / 86400)
  WEEKDAYS.getD (sec / 86400 % 7) "" ++ ", " ++ twoDigits date.2.2 ++ " " ++
    MONTHS.getD (date.2.1 - 1) "" ++ " " ++ toString date.1 ++ " " ++ twoDigits (sec / 3600 % 24) ++
    ":" ++ twoDigits (sec / 60 % 60) ++ ":" ++
    twoDigits (sec % 60) ++ " GMT"

/-! ## Messages -/

/-- `MailSettings` with the columns that only the mailer reads. -/
structure SmtpSettings extends MailSettings where
  pass : String
  fromName : String

/-- `s.from || s.user`. -/
def envelopeSender (s : SmtpSettings) : String := if s.from' ≠ "" then s.from' else s.user

/-- The characters of the class `[\x20-\x7E]`. -/
def isPrintableAscii (c : Char) : Bool := 0x20 ≤ c.toNat && c.toNat ≤ 0x7E

/-- `headerValue`. -/
def headerValue (v : String) : String :=
  if v.toList.all isPrintableAscii then v else "=?UTF-8?B?" ++ b64 v ++ "?="

/-- The header lines of `buildMessage`. -/
def mailHeaders (s : SmtpSettings) (to' subject : String) (now : Time) : List String :=
  let sender := envelopeSender s
  let from' := if s.fromName ≠ "" then headerValue s.fromName ++ " <" ++ sender ++ ">" else sender
  ["From: " ++ from',
    "To: " ++ to',
    "Subject: " ++ headerValue subject,
    "Date: " ++ toUTCString now,
    "MIME-Version: 1.0",
    "Content-Type: text/plain; charset=utf-8",
    "Content-Transfer-Encoding: base64"]

/-- `"\r\n"`. -/
def CRLF : String := "\r\n"

/-- `buildMessage`. -/
def buildMessage (s : SmtpSettings) (to' subject text : String) (now : Time) : String :=
  CRLF.intercalate (mailHeaders s to' subject now ++ ["", b64Lines text])

/-! ## The conversation -/

/-- A finished reply: its code and its last line. -/
structure SmtpReply where
  code : ℕ
  line : String
  deriving DecidableEq

/-- What the client writes before it waits for a reply, and the codes that it goes on with. -/
structure Exchange where
  command : Option String
  expected : List ℕ
  deriving DecidableEq

/-- The exchange of a command. -/
def Exchange.of (command : String) (expected : List ℕ) : Exchange :=
  ⟨some (command ++ CRLF), expected⟩

/-- The exchanges of `sendMail` before `QUIT`. -/
def exchanges (s : SmtpSettings) (to' subject text : String) (now : Time) : List Exchange :=
  ⟨none, [220]⟩ :: .of ("EHLO " ++ s.host) [250] ::
    (if s.user ≠ "" then [.of "AUTH LOGIN" [334], .of (b64 s.user) [334],
      .of (b64 s.pass) [235]] else []) ++
    [.of ("MAIL FROM:<" ++ envelopeSender s ++ ">") [250],
      .of ("RCPT TO:<" ++ to' ++ ">") [250, 251],
      .of "DATA" [354],
      ⟨some (buildMessage s to' subject text now ++ "\r\n.\r\n"), [250]⟩]

/-- What the client has written, and how the mail has ended. -/
structure Sent where
  written : List String
  result : Except String Unit

/-- `step` for exchanges one after the other; a server that stops answering closes the connection.
After the last one comes `QUIT`, whatever its reply is. -/
def converse : List Exchange → List SmtpReply → Sent
  | [], _ => ⟨["QUIT" ++ CRLF], .ok ()⟩
  | x :: _, [] => ⟨x.command.toList, .error "SMTP connection closed"⟩
  | x :: rest, reply :: replies =>
      if reply.code ∈ x.expected then
        let sent := converse rest replies
        { sent with written := x.command.toList ++ sent.written }
      else ⟨x.command.toList, .error ("SMTP: " ++ sliceTo 160 reply.line)⟩

/-- The recipient of a mail: the one given, or the inbox of the login codes. -/
def mailTarget (s : SmtpSettings) (to' : Option String) : String :=
  trim ((orElse (to'.getD "") (some (loginCodeTarget s.toMailSettings))).getD "")

/-- `sendMail`, with the replies of the server. -/
def sendMail (s : SmtpSettings) (to' : Option String) (subject text : String) (now : Time)
    (replies : List SmtpReply) : Sent :=
  if !mailReady s.toMailSettings then ⟨[], .error "ارسال ایمیل هنوز تنطیم نشده است"⟩
  else if mailTarget s to' = "" then ⟨[], .error "آدرس ایمیل مقصد خالی است"⟩
  else converse (exchanges s (mailTarget s to') subject text now) replies

/-- The e-mail address that `createOrder` stores: the one typed, or that of the account. -/
def orderEmail (typed account : Option String) : Option String :=
  orElse (sliceTo 120 (trim (typed.getD ""))) account

end SRPanel
