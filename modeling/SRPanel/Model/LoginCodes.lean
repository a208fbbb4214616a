import SRPanel.Lib.Prog
import SRPanel.Lib.Table
import SRPanel.Model.Logins

/-!
# Login codes by e-mail

`requestLoginCode` and `consumeLoginCode` of `services/mailer.ts` as procedures. All pending codes
are one value of the settings, which is never cached: a call reads the whole value in one step and
writes it back in another. Every stored code carries the number of its mailing, and a trail tells
what has become of each; both are there for statements only.
-/

namespace SRPanel

open Interleaving

/-! ## Rows -/

deriving instance DecidableEq for LoginCode

/-- A stored code, with the number of its mailing. -/
structure MailedCode extends LoginCode where
  issue : ℕ
  deriving DecidableEq

/-- What happens to a mailed code. -/
inductive CodeEvent
  | mailed (issue : ℕ) (username hash : String) (exp : ℤ)
  /-- a wrong code was given for it -/
  | wrong (issue : ℕ)
  /-- it was accepted, on a look at the clock -/
  | accepted (issue : ℕ) (checkedAt : ℤ)
  deriving DecidableEq

/-- What the message with a code tells. -/
structure CodeMail where
  to' : String
  code : String
  ttlMin : ℕ
  username : String
  ip : Option String

/-- What the two procedures read and write. The trail has the latest event first. -/
structure CodeDesk where
  now : ℤ
  nextId : ℕ
  mail : MailSettings
  admins : Table String LoginAdmin
  codes : Table String MailedCode
  inbox : List CodeMail
  auditLog : List AuditLog
  trail : List CodeEvent

/-- What a step does, as far as statements about runs distinguish it. -/
inductive CodeMark
  | other
  /-- the codes are written by a call that has read these -/
  | putCodes (seen : Table String MailedCode)

abbrev CodeTask := Prog CodeMark CodeDesk AppError

namespace CodeDesk

/-- Throw the error if the condition holds. -/
def refuseIf (c : Bool) (e : AppError) : CodeTask Unit := if c then throw e else pure ()

/-- `getMailSettings`. -/
def getMailSettings : CodeTask MailSettings := .query .other CodeDesk.mail

/-- `getCodes`, with the time at which the answer arrives. -/
def getCodes : CodeTask (Table String MailedCode × ℤ) := .query .other fun d => (d.codes, d.now)

/-- `putCodes`, by a call that has read the codes `seen`. -/
def putCodes (seen codes : Table String MailedCode) (events : List CodeEvent) : CodeTask Unit :=
  .modify (.putCodes seen) fun d => { d with codes := codes, trail := events ++ d.trail }

/-- `putCodes` with one code that is new and gets its number. -/
def putFresh (seen kept : Table String MailedCode) (username : String) (code : LoginCode) :
    CodeTask Unit :=
  .modify (.putCodes seen) fun d =>
    { d with
      codes := kept.set username ⟨code, d.nextId⟩
      trail := .mailed d.nextId username code.hash code.exp :: d.trail
      nextId := d.nextId + 1 }

/-- `audit`, without the details of the row: never throws. -/
def audit (adminId : Option AdminId) (action target : String) (ip : Option String) :
    CodeTask Unit :=
  (Prog.modify .other fun d : CodeDesk =>
    { d with
      auditLog := ⟨d.nextId, d.now, adminId, action, some target, none, ip⟩ :: d.auditLog
      nextId := d.nextId + 1 }).attempt fun _ => pure ()

/-- `sendMail`, which throws if the server does not take the message. -/
def sendMail (taken : Bool) (mail : CodeMail) : CodeTask Unit :=
  .step .other fun d =>
    if taken then (.ok (), { d with inbox := mail :: d.inbox }) else
      (.error (badRequest "SMTP connection closed"), d)

/-- `mask`. -/
def mask (address : String) : String :=
  match address.toList.splitOn '@' with
  | name :: domain :: _ =>
    if domain = [] then address else .ofList (name.take 2 ++ "***@".toList ++ domain)
  | _ => address

/-- `String(n).padStart(6, "0")`. -/
def sixDigits (n : ℕ) : String :=
  let digits := (toString n).toList
  .ofList (List.replicate (6 - digits.length) '0' ++ digits)

/-- `requestLoginCode`, with the number it draws and whether the mail server takes the message. -/
def requestLoginCode (env : LoginEnv) (usernameRaw password : String) (ip : Option String)
    (draw : Fin 1000000) (taken : Bool) : CodeTask (String × ℕ) := do
  let s ← getMailSettings
  refuseIf (!mailReady s) (badRequest "ارسال ایمیل هنوز تنطیم نشده است")
  let target := loginCodeTarget s
  refuseIf (target = "") (badRequest "آدرس ایمیل دریافت کد تنطیم نشده است")
  let username := normUser usernameRaw
  let admin ← Prog.query .other fun d : CodeDesk => d.admins.get? username
  match admin.filter fun admin => env.verifyPassword password admin.passwordHash with
  | none => do
      audit none "auth.login_failed" username ip
      throw (forbiddenError "نام کاربری یا گذرواژه درست نیست")
  | some admin => do
      refuseIf (!admin.isActive) (forbiddenError "حساب غیرفعال است")
      let code := sixDigits draw
      let (store, now) ← getCodes
      putFresh store (store.keep fun key => (store.get? key).any fun value =>
        now < value.exp) username ⟨env.sha256 code, now + LoginStore.minutes s.ttlMin, 0⟩
      sendMail taken ⟨target, code, s.ttlMin, username, ip⟩
      audit (some admin.id) "auth.email_code" username ip
      pure (mask target, s.ttlMin)

/-- `consumeLoginCode`. -/
def consumeLoginCode (env : LoginEnv) (usernameRaw code : String) : CodeTask Bool := do
  let username := normUser usernameRaw
  let (store, now) ← getCodes
  match (store.get? username).filter fun row => row.hash ≠ "" with
  | none => pure false
  | some row =>
      if row.exp < now ∨ 5 ≤ row.tries then do
        putCodes store (store.erase username) []
        pure false
      else if row.hash ≠ env.sha256 (trim code) then do
        putCodes store (store.set username { row with tries := row.tries + 1 }) [.wrong row.issue]
        pure false
      else do
        putCodes store (store.erase username) [.accepted row.issue now]
        pure true

/-! ## Calls -/

/-- A call of one of the two procedures. -/
inductive Call
  | request (username password : String) (ip : Option String) (draw : Fin 1000000) (taken : Bool)
  | consume (username code : String)

/-- The procedure of a call. -/
def task (env : LoginEnv) : Call → CodeTask Unit
  | .request username password ip draw taken =>
    (requestLoginCode env username password ip draw taken).void
  | .consume username code => (consumeLoginCode env username code).void

end CodeDesk

end SRPanel
