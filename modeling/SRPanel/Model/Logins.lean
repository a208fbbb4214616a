import SRPanel.Model.Access
import SRPanel.Model.Logs

/-!
# Logging in

The route `POST /api/auth/login` with what it calls: the brute-force guard of
`services/loginGuard.ts`, which counts the audit rows of failed logins, `loginWithPassword` of
`services/auth.ts`, and the code by e-mail of `services/mailer.ts`. One attempt is one step; alerts
and cookies are left out.
-/

namespace SRPanel

/-! ## Settings and rows -/

/-- `securitySettingsSchema`, with its bounds. -/
structure SecuritySettings where
  lockEnabled : Bool
  maxFailures : ℕ
  windowMin : ℕ
  lockMin : ℕ
  perIp : Bool
  maxFailures_bounds : 3 ≤ maxFailures ∧ maxFailures ≤ 50
  windowMin_bounds : 1 ≤ windowMin ∧ windowMin ≤ 1440
  lockMin_bounds : 1 ≤ lockMin ∧ lockMin ≤ 1440

/-- What the login needs of `mailSettingsSchema`. -/
structure MailSettings where
  enabled : Bool
  host : String
  user : String
  from' : String
  to' : String
  loginCode : Bool
  ttlMin : ℕ

/-- `mailReady`. -/
def mailReady (s : MailSettings) : Bool := s.enabled && s.host ≠ "" && (s.from' ≠ "" || s.user ≠ "")

/-- `loginCodeTarget`. -/
def loginCodeTarget (s : MailSettings) : String :=
  if s.to' ≠ "" then s.to' else if s.from' ≠ "" then s.from' else s.user

/-- The columns of an admin that the login reads and writes. -/
structure LoginAdmin where
  id : AdminId
  passwordHash : String
  isActive : Bool
  expiresAt : Option ℤ
  totpEnabled : Bool
  totpSecret : Option String
  lastLoginAt : Option ℤ
  lastLoginIp : Option String

/-- A code that has been sent by e-mail. -/
structure LoginCode where
  hash : String
  exp : ℤ
  tries : ℕ

structure Session where
  adminId : AdminId
  ip : Option String
  expiresAt : ℤ

/-- What the login reads and writes. Admins are found by their usernames, sessions by their tokens;
the audit log has the latest row first. -/
structure LoginStore where
  now : ℤ
  security : SecuritySettings
  mail : MailSettings
  admins : Table String LoginAdmin
  codes : Table String LoginCode
  sessions : Table ℕ Session
  auditLog : List AuditLog
  nextId : ℕ

/-- The functions that check the factors: passwords against their hashes, codes of the authenticator
against their secret at a time, and the hash of a code. -/
structure LoginEnv where
  verifyPassword : String → String → Bool
  verifyTotp : String → String → ℤ → Bool
  sha256 : String → String

/-- The body of the request, as the schema of the route accepts it. -/
structure LoginBody where
  username : String
  password : String
  totp : Option String
  emailCode : Option String
  username_le : username.toList.length ≤ 64

/-! ## The guard -/

/-- `normUser`. -/
def normUser (v : String) : String := sliceTo 64 (lower (trim v))

/-- `streak`: the failures newer than the latest successful login, and the time of the last one. -/
def streak : List AuditLog → ℕ × ℤ
  | [] => (0, 0)
  | r :: rows => if r.action ≠ "auth.login_failed" then (0, 0) else ((streak rows).1 + 1, r.at')

inductive LoginGuardScope
  | user | ip
  deriving DecidableEq

structure LoginGuardState where
  locked : Bool
  retryAfterSec : ℤ
  failures : ℕ
  maxFailures : ℕ
  scope : Option LoginGuardScope
  deriving DecidableEq

namespace LoginStore

/-- Minutes in milliseconds. -/
def minutes (n : ℕ) : ℤ := n * 60000

/-- The rows that `loginGuardState` asks for: logins and failed logins in the window, of the
username or, if that is switched on, of the address. -/
def recent (s : LoginStore) (username : String) (ip : Option String) : List AuditLog :=
  s.auditLog.filter fun r =>
    (r.action = "auth.login_failed" || r.action = "auth.login") &&
      s.now - minutes s.security.windowMin ≤ r.at' &&
        (r.target = some username || s.security.perIp && (ip.bind orNull).any fun a =>
          r.ip = some a)

/-- An order in which the database may list these rows: the latest first, rows of one time as it
likes. -/
structure Lists (s : LoginStore) (username : String) (ip : Option String)
    (rows : List AuditLog) : Prop where
  perm : rows.Perm (s.recent username ip)
  sorted : rows.Pairwise fun a b => b.at' ≤ a.at'

/-- The state of the guard for the streaks of the username and of the address. -/
def stateOf (s : LoginStore) (byUser byIp : ℕ × ℤ) : LoginGuardState :=
  let useIp := decide (byUser.1 < byIp.1)
  let hit := if useIp then byIp else byUser
  let scope := if useIp then LoginGuardScope.ip else .user
  let retryAfterSec := ⌈((hit.2 + minutes s.security.lockMin - s.now : ℤ) : ℚ) / 1000⌉
  if hit.1 < s.security.maxFailures then ⟨false, 0, hit.1, s.security.maxFailures, some scope⟩
  else if 0 < retryAfterSec then ⟨true, retryAfterSec, hit.1, s.security.maxFailures, some scope⟩
  else ⟨false, 0, hit.1, s.security.maxFailures, some scope⟩

/-- `loginGuardState`, with the rows as the database lists them. -/
def loginGuardState (s : LoginStore) (usernameRaw : String) (ip : Option String)
    (rows : List AuditLog) : LoginGuardState :=
  let idle : LoginGuardState := ⟨false, 0, 0, s.security.maxFailures, none⟩
  let username := normUser usernameRaw
  let rows := rows.take 300
  if !s.security.lockEnabled then idle
  else if rows.isEmpty then idle
  else
    let byUser := streak (rows.filter fun r => r.target = some username)
    let byIp := match ip.bind orNull with
      | some a => if s.security.perIp then streak (rows.filter fun r => r.ip = some a) else (0, 0)
      | none => (0, 0)
    s.stateOf byUser byIp

/-- `audit`: a row of the audit log. -/
def audit (s : LoginStore) (adminId : Option AdminId) (action target : String)
    (ip : Option String) : LoginStore :=
  { s with
    auditLog := ⟨s.nextId, s.now, adminId, action, some target, none, ip⟩ :: s.auditLog
    nextId := s.nextId + 1 }

/-- What a lock is noted for: the address, or the username. -/
def lockTarget (username : String) (ip : Option String) (state : LoginGuardState) : String :=
  match state.scope, ip.bind orNull with
  | some .ip, some a => a
  | _, _ => username

/-- `noteLoginLocked`: one row in each lock window. -/
def noteLoginLocked (s : LoginStore) (usernameRaw : String) (ip : Option String)
    (state : LoginGuardState) : LoginStore :=
  let target := lockTarget (normUser usernameRaw) ip state
  let already := s.auditLog.any fun r =>
    r.action = "auth.login_locked" && r.target = some target &&
      s.now - minutes s.security.lockMin ≤ r.at'
  if already then s else s.audit none "auth.login_locked" target ip

/-! ## The factors -/

/-- What the route answers. -/
inductive Reply
  | locked (retryAfterSec : ℤ)
  | invalid | disabled | totpRequired | totpInvalid | emailCodeRequired | emailCodeInvalid
  | ok (adminId : AdminId)
  deriving DecidableEq

/-- The password is the admin's. -/
def passwordFits (env : LoginEnv) (s : LoginStore) (username password : String) :
    Option LoginAdmin :=
  (s.admins.get? username).filter fun admin => env.verifyPassword password admin.passwordHash

/-- `SESSION_DAYS`. -/
def SESSION_DAYS : ℤ := 30

/-- The secret that the authenticator of an admin is checked with. -/
def totpSecretOf (admin : LoginAdmin) : Option String :=
  if admin.totpEnabled then admin.totpSecret.bind orNull else none

/-- The refusal for the code of the authenticator. -/
def totpRefusal (env : LoginEnv) (s : LoginStore) (admin : LoginAdmin) (totp : Option String) :
    Option Reply :=
  match totpSecretOf admin with
  | none => none
  | some secret =>
      match totp with
      | none => some .totpRequired
      | some code => if env.verifyTotp secret code s.now then none else some .totpInvalid

/-- The session, the marks of the login and its row. -/
def signIn (s : LoginStore) (username : String) (admin : LoginAdmin) (ip : Option String) :
    LoginStore :=
  { s with
    sessions := s.sessions.set s.nextId ⟨admin.id, ip, s.now + SESSION_DAYS * DAY_MS⟩
    admins := s.admins.set username { admin with lastLoginAt := some s.now, lastLoginIp := ip }
    nextId := s.nextId + 1 }.audit (some admin.id) "auth.login" username ip

/-- `loginWithPassword`: the refusal, or the token of the new session and the admin. -/
def loginWithPassword (env : LoginEnv) (s : LoginStore) (body : LoginBody) (ip : Option String) :
    Except Reply (ℕ × LoginAdmin) × LoginStore :=
  let username := lower (trim body.username)
  match s.passwordFits env username body.password with
  | none => (.error .invalid, s.audit none "auth.login_failed" username ip)
  | some admin =>
      if !admin.isActive || admin.expiresAt.any (· < s.now) then (.error .disabled, s)
      else
        match s.totpRefusal env admin body.totp with
        | some reason => (.error reason, s)
        | none => (.ok (s.nextId, admin), s.signIn username admin ip)

/-- `revokeSession`. -/
def revokeSession (s : LoginStore) (token : ℕ) : LoginStore :=
  { s with sessions := s.sessions.erase token }

/-- `loginCodeRequired`. -/
def loginCodeRequired (s : LoginStore) : Bool :=
  mailReady s.mail && s.mail.loginCode && loginCodeTarget s.mail ≠ ""

/-- `consumeLoginCode`. -/
def consumeLoginCode (env : LoginEnv) (s : LoginStore) (usernameRaw code : String) :
    Bool × LoginStore :=
  let username := normUser usernameRaw
  match (s.codes.get? username).filter fun row => row.hash ≠ "" with
  | none => (false, s)
  | some row =>
      if row.exp < s.now ∨ 5 ≤ row.tries then (false, { s with codes := s.codes.erase username })
      else if row.hash ≠ env.sha256 (trim code) then
        (false, { s with codes := s.codes.set username { row with tries := row.tries + 1 } })
      else (true, { s with codes := s.codes.erase username })

/-- `POST /api/auth/login`, with the rows as the database lists them for the guard. -/
def login (env : LoginEnv) (s : LoginStore) (body : LoginBody) (ip : Option String)
    (rows : List AuditLog) : Reply × LoginStore :=
  let guard := s.loginGuardState body.username ip rows
  if guard.locked then (.locked guard.retryAfterSec, s.noteLoginLocked body.username ip guard)
  else
    match s.loginWithPassword env body ip with
    | (.error reason, s) => (reason, s)
    | (.ok (token, admin), s) =>
        if s.loginCodeRequired then
          match body.emailCode with
          | none => (.emailCodeRequired, s.revokeSession token)
          | some code =>
              match s.consumeLoginCode env body.username code with
              | (true, s) => (.ok admin.id, s)
              | (false, s) => (.emailCodeInvalid, s.revokeSession token)
        else (.ok admin.id, s)

end LoginStore

end SRPanel
