import SRPanel.Lib.Pool
import SRPanel.Model.Bulk
import SRPanel.Model.Logins
import SRPanel.Model.Webhooks

/-!
# Who gets in

The accounts of the panel with their sessions and API keys: `services/auth.ts`,
`services/admins.ts`, `services/apikeys.ts`, and what else writes these rows (`bulkAdminAction`,
`resetPanelAccountPassword`, `revokeOtherSessions`, the session part of `pruneHistory` and
`apps/worker/src/cli.ts`). A request of the panel starts with the session of its cookie, as the
routes do. The guard against guessing and the code by e-mail go by tables of their own
(`Model/Logins`, `Model/LoginCodes`): here an attempt comes with what they answer. Audit rows are
left out.
-/

namespace SRPanel

open Interleaving

abbrev ApiKeyId := ℕ

/-- `ApiScope`. -/
inductive ApiScope
  | read | write
  deriving DecidableEq

/-- A row of `Admin`. Credit, prices and the creator are left out. -/
structure AdminStore.Admin where
  username : String
  passwordHash : String
  role : AdminRole
  displayName : Option String
  isActive : Bool
  trafficQuota : Option ℤ
  clientLimit : Option ℕ
  expiresAt : Option ℤ
  totpSecret : Option String
  totpEnabled : Bool
  telegramId : Option String
  lastLoginAt : Option ℤ
  lastLoginIp : Option String
  deriving DecidableEq

/-- A row of `Session`, under its `tokenHash`. -/
structure AdminStore.Session where
  adminId : AdminId
  ip : Option String
  userAgent : Option String
  expiresAt : ℤ
  deriving DecidableEq

/-- A row of `ApiKey`. -/
structure AdminStore.ApiKey where
  adminId : AdminId
  name : String
  prefix' : String
  keyHash : String
  scopes : List ApiScope
  lastUsedAt : Option ℤ
  expiresAt : Option ℤ
  revokedAt : Option ℤ
  deriving DecidableEq

/-- The accounts, and what they depend on. Each process has a flag of its own that the owner exists.
-/
structure AdminStore where
  now : ℤ
  admins : Table AdminId AdminStore.Admin
  /-- `AdminServerAccess`, by admin -/
  access : Table AdminId (List (ServerId × List ℕ))
  sessions : Table String AdminStore.Session
  apiKeys : Table ApiKeyId AdminStore.ApiKey
  nextAdmin : AdminId
  nextKey : ApiKeyId
  /-- how many values have been drawn at random -/
  drawn : ℕ
  ensured : ℕ → Bool
  /-- the servers that exist -/
  servers : ServerId → Bool
  /-- how many clients an admin has -/
  clients : AdminId → ℕ
  /-- the accounts of the book of sold sub-panels, as `Object.values` lists them -/
  sold : List PanelAccount

/-- The functions of the runtime, those that draw with the number of the draw. -/
structure AdminEnv where
  randomToken : ℕ → ℕ → String
  sha256 : String → String
  hashPassword : String → ℕ → String
  verifyPassword : String → String → Bool
  verifyTotp : String → String → ℤ → Bool
  generateTotpSecret : ℕ → String
  newPanelPassword : ℕ → String
  /-- `SRP_OWNER_USERNAME` and `SRP_OWNER_PASSWORD` -/
  ownerUsername : String
  ownerPassword : String

/-- A process on the accounts. -/
abbrev AdminProg := Prog Unit AdminStore AppError

/-- `USERNAME_RE`. -/
def isUsername (s : String) : Bool :=
  3 ≤ s.toList.length && s.toList.length ≤ 32 &&
    s.toList.all fun c => ('a' ≤ c && c ≤ 'z') || c.isDigit || c = '_' || c = '.' || c = '-'

/-- A letter of the class `[A-Za-z0-9_-]`. -/
def isKeyChar (c : Char) : Bool := c.isAlphanum || c = '_' || c = '-'

/-- The key in `Bearer <key>`, by the expression of `authenticateApiKey`. -/
def bearerKey (authorization : String) : Option String :=
  let cs := authorization.toList
  let rest := cs.drop 6
  let key := rest.dropWhile Unicode.isWhite
  if (cs.take 6).map Char.toLower = "bearer".toList && rest.length ≠ key.length &&
      (key.take 4).map Char.toLower = "srp_".toList && 20 ≤ (key.drop 4).length &&
        (key.drop 4).all isKeyChar then
    some (.ofList key)
  else none

namespace AdminStore

/-- `UnauthorizedError`. -/
def unauthorized (message : String) : AppError := ⟨message, 401, "unauthorized"⟩

/-- `fail` of the command line tool: it ends with exit code 1. -/
def cliFailure (message : String) : AppError := ⟨message, 1, "exit"⟩

def refuseIf (c : Bool) (e : AppError) : AdminProg Unit := if c then throw e else pure ()

def clock : AdminProg ℤ := .query () AdminStore.now

/-! ## Rows -/

/-- `findUnique` by the username. -/
def byUsername (s : AdminStore) (username : String) : Option (AdminId × Admin) :=
  s.admins.rows.find? fun r => r.2.username = username

/-- `admin.create`, with the row for the number of the draw; `grants` is the access that is created
with it. -/
def create (row : ℕ → Admin) (grants : List (ServerId × List ℕ)) : AdminProg AdminId :=
  .step () fun s =>
    let a := row s.drawn
    if (s.byUsername a.username).isSome then (.error uniqueViolation, s)
    else if grants.any fun g => !s.servers g.1 then (.error foreignKeyViolation, s)
    else if !decide (grants.map Prod.fst).Nodup then (.error uniqueViolation, s)
    else (.ok s.nextAdmin, { s with
      admins := s.admins.set s.nextAdmin a
      access := s.access.set s.nextAdmin grants
      nextAdmin := s.nextAdmin + 1
      drawn := s.drawn + 1 })

/-- `admin.update`, with the row for the number of the draw. -/
def edit (id : AdminId) (f : ℕ → Admin → Admin) : AdminProg Unit :=
  .step () fun s =>
    match s.admins.get? id with
    | none => (.error recordNotFound, s)
    | some a => (.ok (), { s with admins := s.admins.set id (f s.drawn a), drawn := s.drawn + 1 })

/-- Sessions are deleted. -/
def signOut (gone : String → Session → Bool) (s : AdminStore) : AdminStore :=
  { s with sessions := s.sessions.keep fun h => !((s.sessions.get? h).any (gone h)) }

/-- `revokeAllSessions`. -/
def revokeAllSessions (id : AdminId) : AdminProg Unit :=
  .modify () (signOut fun _ row => row.adminId = id)

/-- `revokeSession`. -/
def revokeSession (env : AdminEnv) (token : String) : AdminProg Unit :=
  .modify () (signOut fun h _ => h = env.sha256 token)

/-- `revokeOtherSessions`. -/
def revokeOtherSessions (env : AdminEnv) (id : AdminId) (keepToken : Option String) :
    AdminProg Unit :=
  .modify () (signOut fun h row =>
    row.adminId = id && !((keepToken.bind orNull).any fun t => h = env.sha256 t))

/-- `ensureOwner`, in process `proc`. -/
def ensureOwner (env : AdminEnv) (proc : ℕ) : AdminProg Unit := do
  let ensured ← .query () fun s => s.ensured proc
  if ensured then pure ()
  else do
    let count ← .query () fun s => s.admins.rows.length
    if count = 0 then
      let _ ← create (fun n => ⟨lower (trim env.ownerUsername),
        env.hashPassword env.ownerPassword n, .owner, some "Owner", true, none, none, none, none,
        false, none, none, none⟩) []
    .modify () fun s => { s with ensured := Function.update s.ensured proc true }

/-! ## Sessions -/

/-- `getSessionAdmin`, at one moment. -/
def sessionAdmin (env : AdminEnv) (s : AdminStore) (token : String) : Option (AdminId × Admin) :=
  if token = "" then none
  else
    match s.sessions.get? (env.sha256 token) with
    | none => none
    | some session =>
        match s.admins.get? session.adminId with
        | none => none
        | some admin =>
            if session.expiresAt < s.now ||
              !admin.isActive then none else some (session.adminId, admin)

/-- `requireAdmin`: the account that the cookie opens. -/
def requireAdmin (env : AdminEnv) (cookie : Option String) : AdminProg (AdminId × Admin) := do
  let found ← .query () fun s => cookie.bind fun token => s.sessionAdmin env token
  match found with
  | none => throw (unauthorized "ورود لازم است")
  | some admin => pure admin

/-- `requireOwner`. -/
def requireOwner (env : AdminEnv) (cookie : Option String) : AdminProg (AdminId × Admin) := do
  let admin ← requireAdmin env cookie
  refuseIf (admin.2.role ≠ .owner) (forbiddenError "دسترسی غیرمجاز")
  pure admin

/-- The secret that the authenticator of an admin is checked with. -/
def Admin.secret (a : Admin) : Option String :=
  if a.totpEnabled then a.totpSecret.bind orNull else none

/-- Why the factors that were typed do not open the account, if they do not. -/
def Admin.refusal (env : AdminEnv) (a : Admin) (body : LoginBody) (now : ℤ) :
    Option LoginStore.Reply :=
  if !env.verifyPassword body.password a.passwordHash then some .invalid
  else if !a.isActive || a.expiresAt.any (· < now) then some .disabled
  else
    match a.secret with
    | none => none
    | some secret =>
        match body.totp.bind orNull with
        | none => some .totpRequired
        | some code => if env.verifyTotp secret code now then none else some .totpInvalid

/-- `session.create` with a token that is drawn. -/
def createSession (env : AdminEnv) (id : AdminId) (ip userAgent : Option String) (now : ℤ) :
    AdminProg String :=
  .step () fun s =>
    let token := env.randomToken 32 s.drawn
    if (s.admins.get? id).isNone then (.error foreignKeyViolation, s)
    else if (s.sessions.get? (env.sha256 token)).isSome then (.error uniqueViolation, s)
    else (.ok token, { s with
      sessions := s.sessions.set (env.sha256 token)
        ⟨id, ip, userAgent.map (sliceTo 300), now + LoginStore.SESSION_DAYS * DAY_MS⟩
      drawn := s.drawn + 1 })

/-- `loginWithPassword`, in process `proc`: the refusal, or the token of the new session with the
account. -/
def loginWithPassword (env : AdminEnv) (proc : ℕ) (body : LoginBody)
    (ip userAgent : Option String) : AdminProg (Except LoginStore.Reply (String × AdminId)) := do
  ensureOwner env proc
  let found ← .query () fun s => s.byUsername (lower (trim body.username))
  let now ← clock
  match found with
  | none => pure (.error .invalid)
  | some admin =>
      match admin.2.refusal env body now with
      | some reason => pure (.error reason)
      | none => do
          let token ← createSession env admin.1 ip userAgent now
          let now ← clock
          edit admin.1 fun _ a => { a with lastLoginAt := some now, lastLoginIp := ip }
          pure (.ok (token, admin.1))

/-- What the guard and the code by e-mail have to say about an attempt. -/
structure LoginGate where
  /-- the seconds that are left, if `loginGuardState` finds a lock -/
  locked : Option ℤ
  /-- `loginCodeRequired` -/
  codeRequired : Bool
  /-- whether `consumeLoginCode` takes the code that was typed -/
  codeFits : Bool
  deriving DecidableEq

/-- The answer of the route if it asks for a code by e-mail that is not there or not right. -/
def LoginGate.refusal (gate : LoginGate) (body : LoginBody) : Option LoginStore.Reply :=
  if gate.codeRequired then
    match body.emailCode with
    | none => some .emailCodeRequired
    | some _ => if gate.codeFits then none else some .emailCodeInvalid
  else none

/-- The guard lets the attempt through, and the code by e-mail, where one is asked for, is right. -/
def LoginGate.Passes (gate : LoginGate) (body : LoginBody) : Prop :=
  gate.locked = none ∧ gate.refusal body = none

/-- `POST /api/auth/login`: the refusal, or the token of the cookie with the account. -/
def login (env : AdminEnv) (proc : ℕ) (body : LoginBody) (ip userAgent : Option String)
    (gate : LoginGate) : AdminProg (Except LoginStore.Reply (String × AdminId)) := do
  Prog.attempt (ensureOwner env proc) fun _ => pure ()
  match gate.locked with
  | some retryAfterSec => pure (.error (.locked retryAfterSec))
  | none => do
      let r ← loginWithPassword env proc body ip userAgent
      match r with
      | .error reason => pure (.error reason)
      | .ok opened =>
          match gate.refusal body with
          | none => pure (.ok opened)
          | some reason => do
              revokeSession env opened.1
              pure (.error reason)

/-- `POST /api/auth/logout`. -/
def logout (env : AdminEnv) (cookie : Option String) : AdminProg Unit :=
  match cookie.bind orNull with
  | none => pure ()
  | some token => revokeSession env token

/-! ## Self-service -/

/-- `changeOwnPassword`, with the row that opened the request. -/
def changeOwnPassword (env : AdminEnv) (actor : AdminId × Admin) (current next : String) :
    AdminProg Unit := do
  refuseIf (!env.verifyPassword current actor.2.passwordHash) (badRequest "رمز فعلی نادرست است")
  refuseIf (textLength next < 8) (badRequest "رمز جدید حداقل ۸ کاراکتر باشد")
  edit actor.1 fun n a => { a with passwordHash := env.hashPassword next n }

/-- `POST /api/auth/password`; `revokeOnPasswordChange` is the setting of that name. -/
def changePassword (env : AdminEnv) (cookie : Option String) (current next : String)
    (revokeOnPasswordChange : Bool) : AdminProg Unit := do
  let actor ← requireAdmin env cookie
  changeOwnPassword env actor current next
  if revokeOnPasswordChange then revokeOtherSessions env actor.1 cookie else pure ()

/-- `beginTotpSetup`. -/
def beginTotpSetup (env : AdminEnv) (actor : AdminId × Admin) : AdminProg Unit :=
  edit actor.1 fun n a => { a
    with totpSecret := some (env.generateTotpSecret n), totpEnabled := false }

/-- `confirmTotp`. -/
def confirmTotp (env : AdminEnv) (actor : AdminId × Admin) (code : String) : AdminProg Unit := do
  let fresh ← .query () fun s => s.admins.get? actor.1
  let now ← clock
  match fresh.bind fun a => a.totpSecret.bind orNull with
  | none => throw (badRequest "ابتدا راه‌اندازی ۲ مرحله‌ای را شروع کنید")
  | some secret => do
      refuseIf (!env.verifyTotp secret code now) (badRequest "کد نادرست است")
      edit actor.1 fun _ a => { a with totpEnabled := true }

/-- `disableTotp`. -/
def disableTotp (env : AdminEnv) (actor : AdminId × Admin) (code : String) : AdminProg Unit := do
  let now ← clock
  refuseIf (!(actor.2.totpSecret.bind orNull).any fun secret => env.verifyTotp secret code now)
    (badRequest "کد نادرست است")
  edit actor.1 fun _ a => { a with totpEnabled := false, totpSecret := none }

/-! ## The owner's side -/

/-- `AdminInput` of a new account. -/
structure AdminInput where
  username : String
  password : Option String
  displayName : Option String
  isActive : Option Bool
  trafficQuotaGB : Option ℚ
  clientLimit : Option ℕ
  expiresAt : Option ℤ
  telegramId : Option String
  serverAccess : List (ServerId × List ℕ)

/-- `assertOwner`. -/
def assertOwner (actor : AdminId × Admin) : AdminProg Unit :=
  refuseIf (actor.2.role ≠ .owner) (forbiddenError "فقط مالک پنل مجاز است")

/-- `createAdmin`. -/
def createAdmin (env : AdminEnv) (actor : AdminId × Admin) (input : AdminInput) :
    AdminProg AdminId := do
  assertOwner actor
  let username := lower (trim input.username)
  refuseIf (!isUsername username) (badRequest "نام کاربری باید ۳ تا ۳۲ کاراکتر لاتین باشد")
  match input.password.bind orNull with
  | none => throw (badRequest "رمز عبور حداقل ۸ کاراکتر باشد")
  | some password => do
      refuseIf (textLength password < 8) (badRequest "رمز عبور حداقل ۸ کاراکتر باشد")
      let taken ← .query () fun s => (s.byUsername username).isSome
      refuseIf taken (badRequest "این نام کاربری قبلاً گرفته شده")
      create (fun n => ⟨username, env.hashPassword password n, .admin, trimmed input.displayName,
        input.isActive.getD true, input.trafficQuotaGB.map gbToBytes, input.clientLimit,
        input.expiresAt, none, false,
        trimmed input.telegramId, none, none⟩) input.serverAccess

/-- A new password is typed. -/
def newPassword (p : AdminPatch) : Option String := p.password.bind orNull

/-- The row after an update, for the role that was read and the number of the draw. -/
def patched (env : AdminEnv) (p : AdminPatch) (role : AdminRole) (n : ℕ) (a : Admin) : Admin :=
  let a := { a with
    displayName := (p.displayName.map trimmed).getD a.displayName
    telegramId := (p.telegramId.map trimmed).getD a.telegramId
    passwordHash := ((newPassword p).map fun password =>
      env.hashPassword password n).getD a.passwordHash }
  if role = .owner then a
  else { a with
    isActive := p.isActive.getD a.isActive
    trafficQuota := (p.trafficQuotaGB.map fun q => q.map gbToBytes).getD a.trafficQuota
    clientLimit := p.clientLimit.getD a.clientLimit
    expiresAt := p.expiresAt.getD a.expiresAt }

/-- The transaction of `updateAdmin`. -/
def saveAdmin (env : AdminEnv) (id : AdminId) (role : AdminRole) (p : AdminPatch) :
    AdminProg Unit :=
  .step () fun s =>
    let grants := if role = .owner then none else p.serverAccess
    if grants.any fun g => g ≠ [] &&
      ((s.admins.get? id).isNone || g.any fun r => !s.servers r.1) then
      (.error foreignKeyViolation, s)
    else if grants.any fun g => !decide (g.map Prod.fst).Nodup then (.error uniqueViolation, s)
    else
      match s.admins.get? id with
      | none => (.error recordNotFound, s)
      | some a => (.ok (), { s with
          admins := s.admins.set id (patched env p role s.drawn a)
          access := match grants with
            | none => s.access
            | some g => s.access.set id g
          drawn := s.drawn + 1 })

/-- `updateAdmin`. -/
def updateAdmin (env : AdminEnv) (actor : AdminId × Admin) (id : AdminId) (p : AdminPatch) :
    AdminProg Unit := do
  assertOwner actor
  let target ← .query () fun s => s.admins.get? id
  match target with
  | none => throw (notFoundError "ادمین پیدا نشد")
  | some target => do
      refuseIf ((newPassword p).any fun password => textLength password < 8)
        (badRequest "رمز عبور حداقل ۸ کاراکتر باشد")
      saveAdmin env id target.role p
      if p.isActive = some false || (newPassword p).isSome then revokeAllSessions id else pure ()

/-- An admin is deleted, with the sessions, keys, grants and clients. -/
def dropAdmin (id : AdminId) (s : AdminStore) : AdminStore :=
  { s.signOut fun _ row => row.adminId = id with
    admins := s.admins.erase id
    access := s.access.erase id
    apiKeys := s.apiKeys.keep fun k => !((s.apiKeys.get? k).any fun key => key.adminId = id)
    clients := Function.update s.clients id 0 }

/-- `deleteAdmin`. -/
def deleteAdmin (actor : AdminId × Admin) (id : AdminId) : AdminProg Unit := do
  assertOwner actor
  let target ← .query () fun s => (s.admins.get? id, s.clients id)
  match target.1 with
  | none => throw (notFoundError "ادمین پیدا نشد")
  | some a => do
      refuseIf (a.role = .owner) (forbiddenError "مالک پنل قابل حذف نیست")
      refuseIf (0 < target.2) (badRequest "اول کلاینت‌های این ادمین را حذف یا منتقل کنید")
      .step () fun s => if (s.admins.get? id).isNone then (.error recordNotFound, s) else (.ok (),
        s.dropAdmin id)

/-- `bulkAdminAction` on one admin, with the row that was read first; the result is why it was
skipped, if it was. -/
def bulkOne (env : AdminEnv) (actor : AdminId × Admin) (action : AdminBulkAction) (id : AdminId)
    (target : Option Admin) : AdminProg (Option String) :=
  match target with
  | none => pure (some "not_found")
  | some target =>
      if target.role = .owner then pure (some "owner")
      else do
        let now ← clock
        Prog.attempt (do
          updateAdmin env actor id (Site.bulkPatch action target.expiresAt now)
          pure none) fun err => pure (some err.message)

/-- The loop of `bulkAdminAction`. -/
def bulkEach (env : AdminEnv) (actor : AdminId × Admin) (action : AdminBulkAction) :
    List (AdminId × Option Admin) → AdminProg (List (AdminId × Option String))
  | [] => pure []
  | target :: rest => do
      let skipped ← bulkOne env actor action target.1 target.2
      let others ← bulkEach env actor action rest
      pure ((target.1, skipped) :: others)

/-- `bulkAdminAction`: what became of each of the admins. -/
def bulkAdminAction (env : AdminEnv) (actor : AdminId × Admin) (list : List AdminId)
    (action : AdminBulkAction) : AdminProg (List (AdminId × Option String)) := do
  assertOwner actor
  let ids := list.eraseDups
  refuseIf ids.isEmpty (badRequest "هیچ ادمینی انتخاب نشده است")
  refuseIf (100 < ids.length) (badRequest "حداکثر ۱۰۰ ادمین در هر عملیات")
  refuseIf (!Site.validDays action) (badRequest "تعداد روز معتبر نیست")
  let targets ← .query () fun s => ids.map fun id => (id, s.admins.get? id)
  bulkEach env actor action targets

/-! ## Sub-panels -/

/-- `resetPanelAccountPassword`. -/
def resetPanelAccountPassword (env : AdminEnv) (actor : AdminId × Admin) (id : AdminId) :
    AdminProg Unit := do
  let account ← .query () fun s => s.sold.find? fun a => a.adminId = id
  match account with
  | none => throw (notFoundError "این زیرپنل در فهرست فروش شما نیست")
  | some account => do
      refuseIf (actor.2.role ≠ .owner && account.sellerId ≠ actor.1)
        (forbiddenError "دسترسی غیرمجاز")
      let target ← .query () fun s => s.admins.get? id
      match target with
      | none => throw (notFoundError "حساب این زیرپنل پیدا نشد")
      | some target => do
          refuseIf (target.role = .owner) (forbiddenError "دسترسی غیرمجاز")
          edit id fun n a => { a with passwordHash := env.hashPassword (env.newPanelPassword n) n }
          revokeAllSessions id

/-! ## API keys -/

/-- What `createApiKey` is given. -/
structure ApiKeyInput where
  name : String
  scopes : List ApiScope
  expiresAt : Option ℤ

/-- The keys of an admin that are not revoked. -/
def activeKeys (s : AdminStore) (id : AdminId) : ℕ :=
  (s.apiKeys.rows.filter fun r => r.2.adminId = id && r.2.revokedAt.isNone).length

/-- The row of a new key. -/
def ApiKeyInput.row (env : AdminEnv) (input : ApiKeyInput) (id : AdminId)
    (plaintext : String) : ApiKey :=
  ⟨id, (orNull (sliceTo 60 (trim input.name))).getD "API key", sliceTo 12 plaintext,
    env.sha256 plaintext, if input.scopes.isEmpty then [.read] else input.scopes.eraseDups, none,
    input.expiresAt, none⟩

/-- `createApiKey`: the key with its plaintext. -/
def createApiKey (env : AdminEnv) (actor : AdminId × Admin) (input : ApiKeyInput) :
    AdminProg (ApiKeyId × String) := do
  let count ← .query () fun s => s.activeKeys actor.1
  refuseIf (20 ≤ count) (forbiddenError "حداکثر ۲۰ کلید فعال مجاز است")
  .step () fun s =>
    let plaintext := "srp_" ++ env.randomToken 30 s.drawn
    if (s.admins.get? actor.1).isNone then (.error foreignKeyViolation, s)
    else if s.apiKeys.rows.any fun r =>
      r.2.keyHash = env.sha256 plaintext then (.error uniqueViolation, s)
    else (.ok (s.nextKey, plaintext), { s with
      apiKeys := s.apiKeys.set s.nextKey (input.row env actor.1 plaintext)
      nextKey := s.nextKey + 1
      drawn := s.drawn + 1 })

/-- `apiKey.update`. -/
def editKey (id : ApiKeyId) (f : ApiKey → ApiKey) : AdminProg Unit :=
  .step () fun s =>
    match s.apiKeys.get? id with
    | none => (.error recordNotFound, s)
    | some k => (.ok (), { s with apiKeys := s.apiKeys.set id (f k) })

/-- `revokeApiKey`. -/
def revokeApiKey (actor : AdminId × Admin) (id : ApiKeyId) : AdminProg Unit := do
  let key ← .query () fun s => (s.apiKeys.get? id).filter fun k => k.adminId = actor.1
  match key with
  | none => throw (notFoundError "کلید پیدا نشد")
  | some _ => do
      let now ← clock
      editKey id fun k => { k with revokedAt := some now }

/-- A key with its admin, by its hash. -/
def byKeyHash (s : AdminStore) (hash : String) : Option (ApiKeyId × ApiKey × Admin) :=
  (s.apiKeys.rows.find? fun r => r.2.keyHash = hash).bind fun r =>
    (s.admins.get? r.2.adminId).map fun a => (r.1, r.2, a)

/-- Why the key does not open the account, if it does not. -/
def ApiKey.refusal (key : ApiKey) (admin : Admin) (scope : ApiScope) (now : ℤ) : Option AppError :=
  if key.revokedAt.isSome then some (unauthorized "invalid API key")
  else if key.expiresAt.any (· < now) then some (unauthorized "API key expired")
  else if !admin.isActive then some (forbiddenError "admin disabled")
  else if admin.expiresAt.any (· < now) then some (forbiddenError "admin expired")
  else if scope = .write &&
    !key.scopes.contains .write then some (forbiddenError "write scope required")
  else none

/-- `authenticateApiKey`: the account that the key opens. -/
def authenticateApiKey (env : AdminEnv) (authorization : Option String) (scope : ApiScope) :
    AdminProg (AdminId × ApiKeyId) :=
  match bearerKey (authorization.getD "") with
  | none => throw (unauthorized "API key required")
  | some text => do
      let found ← .query () fun s => s.byKeyHash (env.sha256 text)
      let now ← clock
      match found with
      | none => throw (unauthorized "invalid API key")
      | some (id, key, admin) =>
          match key.refusal admin scope now with
          | some e => throw e
          | none => do
              if key.lastUsedAt.all fun t => 60000 < now - t then
                Prog.attempt (editKey id fun k => { k with lastUsedAt := some now }) fun _ =>
                  pure ()
              pure (key.adminId, id)

/-! ## The command line and the worker -/

/-- The transaction of `reset-password`. -/
def cliReset (env : AdminEnv) (id : AdminId) (password : String) : AdminProg Unit :=
  .step () fun s =>
    match s.admins.get? id with
    | none => (.error recordNotFound, s)
    | some a => (.ok (), { s.signOut fun _ row => row.adminId = id with
        admins := s.admins.set id { a
          with passwordHash := env.hashPassword password s.drawn, isActive := true }
        drawn := s.drawn + 1 })

/-- `reset-password` of the command line tool. -/
def cliResetPassword (env : AdminEnv) (username password : String) : AdminProg Unit := do
  let username := lower (trim username)
  refuseIf (username = "") (cliFailure "usage: reset-password <username> <password>")
  refuseIf (textLength password < 6) (cliFailure "password must be at least 6 characters")
  let existing ← .query () fun s => s.byUsername username
  match existing with
  | some (id, _) => cliReset env id password
  | none => do
      let count ← .query () fun s => s.admins.rows.length
      refuseIf (0 < count) (cliFailure "admin not found")
      let _ ← create (fun n => ⟨username, env.hashPassword password n, .owner, some "Owner", true,
        none, none, none, none, false, none, none, none⟩) []

/-- The commands that change an account: `disable-2fa` and `unlock`. -/
def cliEdit (username : String) (f : Admin → Admin) : AdminProg Unit := do
  let username := lower (trim username)
  refuseIf (username = "") (cliFailure "usage")
  let existing ← .query () fun s => s.byUsername username
  match existing with
  | none => throw (cliFailure "admin not found")
  | some (id, _) => edit id fun _ a => f a

/-- `disable-2fa`. -/
def cliDisable2fa (username : String) : AdminProg Unit :=
  cliEdit username fun a => { a with totpEnabled := false, totpSecret := none }

/-- `unlock`. -/
def cliUnlock (username : String) : AdminProg Unit :=
  cliEdit username fun a => { a with isActive := true }

/-- The part of `pruneHistory` about sessions. -/
def pruneSessions : AdminProg Unit := do
  let now ← clock
  .modify () (signOut fun _ row => row.expiresAt < now)

/-! ## Runs -/

/-- What reaches the panel: requests with their cookies, calls of the API, commands, and the worker.
-/
inductive Request
  | login (proc : ℕ) (body : LoginBody) (ip userAgent : Option String) (gate : LoginGate)
  | logout (cookie : Option String)
  | changePassword (cookie : Option String) (current next : String) (revokeOnPasswordChange : Bool)
  | beginTotp (cookie : Option String)
  | confirmTotp (cookie : Option String) (code : String)
  | disableTotp (cookie : Option String) (code : String)
  | createAdmin (cookie : Option String) (input : AdminInput)
  | updateAdmin (cookie : Option String) (id : AdminId) (p : AdminPatch)
  | deleteAdmin (cookie : Option String) (id : AdminId)
  | bulkAdmins (cookie : Option String) (ids : List AdminId) (action : AdminBulkAction)
  | resetPanelPassword (cookie : Option String) (id : AdminId)
  | createApiKey (cookie : Option String) (input : ApiKeyInput)
  | revokeApiKey (cookie : Option String) (id : ApiKeyId)
  | apiCall (authorization : Option String) (scope : ApiScope)
  | cliResetPassword (username password : String)
  | cliDisable2fa (username : String)
  | cliUnlock (username : String)
  | pruneSessions

/-- The procedure behind a request. -/
def Request.task (env : AdminEnv) : Request → AdminProg Unit
  | login proc body ip userAgent gate => do
      let _ ← AdminStore.login env proc body ip userAgent gate
  | logout cookie => AdminStore.logout env cookie
  | changePassword cookie current next revoke =>
    AdminStore.changePassword env cookie current next revoke
  | beginTotp cookie => do
      let actor ← requireAdmin env cookie
      beginTotpSetup env actor
  | confirmTotp cookie code => do
      let actor ← requireAdmin env cookie
      AdminStore.confirmTotp env actor code
  | disableTotp cookie code => do
      let actor ← requireAdmin env cookie
      AdminStore.disableTotp env actor code
  | createAdmin cookie input => do
      let actor ← requireOwner env cookie
      let _ ← AdminStore.createAdmin env actor input
  | updateAdmin cookie id p => do
      let actor ← requireOwner env cookie
      AdminStore.updateAdmin env actor id p
  | deleteAdmin cookie id => do
      let actor ← requireOwner env cookie
      AdminStore.deleteAdmin actor id
  | bulkAdmins cookie ids action => do
      let actor ← requireOwner env cookie
      let _ ← bulkAdminAction env actor ids action
  | resetPanelPassword cookie id => do
      let actor ← requireAdmin env cookie
      resetPanelAccountPassword env actor id
  | createApiKey cookie input => do
      let actor ← requireAdmin env cookie
      let _ ← AdminStore.createApiKey env actor input
  | revokeApiKey cookie id => do
      let actor ← requireAdmin env cookie
      AdminStore.revokeApiKey actor id
  | apiCall authorization scope => do
      let _ ← authenticateApiKey env authorization scope
  | cliResetPassword username password => AdminStore.cliResetPassword env username password
  | cliDisable2fa username => AdminStore.cliDisable2fa username
  | cliUnlock username => AdminStore.cliUnlock username
  | pruneSessions => AdminStore.pruneSessions

/-- What others do: time passes, a process starts again, servers, clients and the book of sold
sub-panels change, and an order sells a sub-panel or tops one up (`provisionPanelOrder`). -/
inductive World : AdminStore → AdminStore → Prop
  | wait (s : AdminStore) (ms : ℕ) : World s { s with now := s.now + ms }
  | restart (s : AdminStore) (proc : ℕ) :
  World s { s with ensured := Function.update s.ensured proc false }
  | servers (s : AdminStore) (f : ServerId → Bool)
      (access : Table AdminId (List (ServerId × List ℕ))) :
      World s { s with servers := f, access := access }
  | clients (s : AdminStore) (f : AdminId → ℕ) : World s { s with clients := f }
  | sold (s : AdminStore) (accounts : List PanelAccount) : World s { s with sold := accounts }
  | sell (s : AdminStore) (a : Admin) (grants : List (ServerId × List ℕ)) :
      a.role = .admin → s.byUsername a.username = none →
      World s { s with
        admins := s.admins.set s.nextAdmin a
        access := s.access.set s.nextAdmin grants
        nextAdmin := s.nextAdmin + 1 }
  | topUp (s : AdminStore) (id : AdminId) (a : Admin) (quota : Option ℤ) (limit : Option ℕ)
      (expiresAt : Option ℤ) (telegramId : Option String) :
      s.admins.get? id = some a → a.role ≠ .owner →
      World s { s with admins := s.admins.set id { a with
        trafficQuota := quota, clientLimit := limit, expiresAt := expiresAt, isActive := true
        telegramId := telegramId } }

/-- A new install. -/
def start (now : ℤ) : AdminStore where
  now := now
  admins := .empty
  access := .empty
  sessions := .empty
  apiKeys := .empty
  nextAdmin := 0
  nextKey := 0
  drawn := 0
  ensured := fun _ => false
  servers := fun _ => false
  clients := fun _ => 0
  sold := []

/-- The runs of requests that overlap at will. -/
abbrev Run : Pool Unit AdminStore AppError → Pool Unit AdminStore AppError → Prop :=
  Pool.Run World fun _ _ => True

/-- A new install with the requests that will reach it. -/
def install (env : AdminEnv) (now : ℤ) (requests : List Request) : Pool Unit AdminStore AppError :=
  ⟨start now, requests.map (Request.task env)⟩

end AdminStore

end SRPanel
