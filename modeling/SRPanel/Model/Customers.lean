import SRPanel.Lib.Prog
import SRPanel.Lib.Table
import SRPanel.Model.Access

/-!
# Customer accounts

The accounts of a shop's customers: `signupCustomer`, `loginCustomer`, and `updateCustomerProfile`
as the profile route calls it, with the customer of the session. One step is one call of the
database client, which keeps the e-mail addresses and the phone numbers of a seller's customers
unique.
-/

namespace SRPanel

open Interleaving

/-! ## Rows -/

inductive CustomerStatus
  | active
  | blocked
  deriving DecidableEq

/-- The columns of a customer that belong to the account. -/
structure CustomerAccount where
  adminId : AdminId
  name : Option String
  email : Option String
  phone : Option String
  telegramId : Option String
  /-- the password, for its hash -/
  passwordHash : String
  status : CustomerStatus
  lastLoginAt : Option ℤ
  lastLoginIp : Option String
  deriving DecidableEq

structure CustomerSession where
  customerId : CustomerId
  ip : Option String
  userAgent : Option String
  createdAt : ℤ
  expiresAt : ℤ
  deriving DecidableEq

/-- What the accounts read and write. Sessions are found by their tokens. -/
structure AccountStore where
  now : ℤ
  nextId : ℕ
  customers : Table CustomerId CustomerAccount
  sessions : Table ℕ CustomerSession
  journal : List (AdminId × String × String)

/-- The settings of a shop that the accounts go by. -/
structure AccountRules where
  adminId : AdminId
  accountsEnabled : Bool
  requireEmail : Bool
  requirePhone : Bool
  requireTelegram : Bool
  deriving DecidableEq

/-! ## Inputs -/

structure CustomerSignupInput where
  name : Option String
  email : Option String
  phone : Option String
  telegramId : Option String
  password : String

structure CustomerLoginInput where
  identity : String
  password : String

/-- `CustomerProfileInput`; a field that is absent is `none`, and one that is null is `some none`.
-/
structure CustomerProfileInput where
  name : Option (Option String)
  phone : Option (Option String)
  telegramId : Option (Option String)

structure CustomerSessionMeta where
  ip : Option String
  userAgent : Option String

/-- `cleanEmail`. -/
def cleanEmail (v : Option String) : Option String :=
  orNull (sliceTo 120 (lower (trim (v.getD ""))))

/-- `cleanDigits`. -/
def cleanDigits (v : Option String) : Option String := orNull (sliceTo 20 (digitsOnly (v.getD "")))

/-- `cleanName`. -/
def cleanName (v : Option String) : Option String := orNull (sliceTo 60 (trim (v.getD "")))

/-- The class `[^\s@]`. -/
def isAddressChar (c : Char) : Bool := !Unicode.isWhite c && c ≠ '@'

/-- The end `\.[a-zA-Z]{2,}$` of a domain, whose characters are given from the last to the first. -/
def endsInDomain (reversed : List Char) : Bool :=
  let tld := reversed.takeWhile Char.isAlpha
  let rest := reversed.dropWhile Char.isAlpha
  2 ≤ tld.length && rest.head? = some '.' && 2 ≤ rest.length

/-- `EMAIL_RE.test(v)`. -/
def isEmail (v : String) : Bool :=
  match v.toList.splitOn '@' with
  | [name, domain] =>
      !name.isEmpty && name.all isAddressChar && domain.all isAddressChar &&
        endsInDomain domain.reverse
  | _ => false

/-! ## Steps -/

/-- What a step does, as far as statements about runs distinguish it. -/
inductive AccountMark
  | other
  /-- a profile is saved, with the phone number that it gets, if it gets one -/
  | profile (id : CustomerId) (phone : Option (Option String))
  deriving DecidableEq

abbrev AccountTask := Prog AccountMark AccountStore AppError

namespace AccountStore

/-- A read. -/
def read {α : Type} (f : AccountStore → α) : AccountTask α := .query .other f

/-- `audit`: never throws. -/
def audit (adminId : AdminId) (action target : String) : AccountTask Unit :=
  (Prog.modify .other fun s : AccountStore =>
    { s with journal := (adminId, action, target) :: s.journal }).attempt fun _ => pure ()

/-- The customers of a seller that satisfy a condition. -/
def ofSeller (s : AccountStore) (adminId : AdminId) (p : CustomerAccount → Bool) :
    List (CustomerId × CustomerAccount) :=
  s.customers.rows.filter fun r => r.2.adminId = adminId && p r.2

/-- A customer of a seller other than `self` holds the e-mail address or the phone number. -/
def taken (s : AccountStore) (self : Option CustomerId) (c : CustomerAccount) : Bool :=
  s.customers.rows.any fun r => self ≠ some r.1 && r.2.adminId = c.adminId &&
    (c.email.isSome && r.2.email = c.email || c.phone.isSome && r.2.phone = c.phone)

/-- `prisma.customer.create`. -/
def createCustomer (c : ℤ → CustomerAccount) : AccountTask (CustomerId × CustomerAccount) :=
  .step .other fun s =>
    let row := c s.now
    if s.taken none row then (.error uniqueViolation, s)
    else (.ok (s.nextId, row),
      { s with customers := s.customers.set s.nextId row, nextId := s.nextId + 1 })

/-- `prisma.customer.update`. -/
def updateCustomer (mark : AccountMark) (id : CustomerId) (f : CustomerAccount → CustomerAccount) :
    AccountTask CustomerAccount :=
  .step mark fun s =>
    match s.customers.get? id with
    | none => (.error recordNotFound, s)
    | some c =>
        if s.taken (some id) (f c) then (.error uniqueViolation, s)
        else (.ok (f c), { s with customers := s.customers.modify id fun _ => f c })

/-- `CUSTOMER_SESSION_DAYS`. -/
def CUSTOMER_SESSION_DAYS : ℤ := 60

/-- `startCustomerSession`, which returns the token. -/
def startCustomerSession (customerId : CustomerId) (meta' : CustomerSessionMeta) : AccountTask ℕ :=
  .step .other fun s =>
    (.ok s.nextId, { s with
      sessions := s.sessions.set s.nextId
        ⟨customerId, meta'.ip, meta'.userAgent.map (sliceTo 300), s.now,
          s.now + CUSTOMER_SESSION_DAYS * DAY_MS⟩
      nextId := s.nextId + 1 })

/-- Throw the error if the condition holds. -/
def refuseIf (c : Bool) (e : AppError) : AccountTask Unit := if c then throw e else pure ()

/-! ## Signing up -/

/-- `SIGNUPS_PER_IP_PER_HOUR`. -/
def SIGNUPS_PER_IP_PER_HOUR : ℕ := 10

/-- The limit on the signups of an address. -/
def assertSignupRate (ip : Option String) : AccountTask Unit :=
  match ip.bind orNull with
  | none => pure ()
  | some ip => do
      let recent ← read fun s =>
        (s.sessions.rows.filter fun r => r.2.ip = some ip && s.now - 3600000 ≤ r.2.createdAt).length
      refuseIf (SIGNUPS_PER_IP_PER_HOUR ≤ recent)
        ⟨"تعداد درخواست‌ها از این آی‌پی زیاد است؛ کمی بعد تلاش کنید", 429, "rate_limited"⟩

/-- No customer of the seller has the value in a column. -/
def assertFree (adminId : AdminId) (column : CustomerAccount → Option String)
    (value : Option String) (e : AppError) : AccountTask Unit :=
  match value with
  | none => pure ()
  | some v => do
      let found ← read fun s => s.ofSeller adminId fun c => column c = some v
      refuseIf (!found.isEmpty) e

/-- `signupCustomer`. -/
def signupCustomer (rules : AccountRules) (input : CustomerSignupInput)
    (meta' : CustomerSessionMeta) : AccountTask (ℕ × CustomerId × CustomerAccount) := do
  refuseIf (!rules.accountsEnabled) ⟨"ثبت‌نام در این فروشگاه فعال نیست", 403, "accounts_disabled"⟩
  let email := cleanEmail input.email
  let phone := cleanDigits input.phone
  let telegramId := cleanDigits input.telegramId
  refuseIf (email.any fun e => !isEmail e) (badRequest "ایمیل معتبر نیست")
  refuseIf (email.isNone && phone.isNone) (badRequest "ایمیل یا شماره موبایل لازم است")
  refuseIf (rules.requireEmail && email.isNone) (badRequest "ثبت ایمیل الزامی است")
  refuseIf (rules.requirePhone && phone.isNone) (badRequest "ثبت شماره موبایل الزامی است")
  refuseIf (rules.requireTelegram && telegramId.isNone)
    (badRequest "ثبت شناسه عددی تلگرام الزامی است")
  assertSignupRate meta'.ip
  assertFree rules.adminId CustomerAccount.email email (badRequest "این ایمیل قبلاً ثبت شده است")
  assertFree rules.adminId CustomerAccount.phone phone
    (badRequest "این شماره موبایل قبلاً ثبت شده است")
  let customer ← createCustomer fun now =>
    { adminId := rules.adminId
      name := cleanName input.name
      email := email
      phone := phone
      telegramId := telegramId
      passwordHash := input.password
      status := .active
      lastLoginAt := some now
      lastLoginIp := meta'.ip }
  let token ← startCustomerSession customer.1 meta'
  audit rules.adminId "customer.signup" (if email.isSome then "email" else "phone")
  pure (token, customer)

/-! ## Logging in -/

/-- The e-mail address that an identity stands for. -/
def loginEmail (identity : String) : Option String :=
  if '@' ∈ (trim identity).toList then cleanEmail (some (trim identity)) else none

/-- The phone number that an identity stands for. -/
def loginPhone (identity : String) : Option String :=
  if '@' ∈ (trim identity).toList then none else cleanDigits (some (trim identity))

/-- The customers that `loginCustomer` may find for an identity, of which it takes the first. -/
def loginRows (s : AccountStore) (adminId : AdminId) (identity : String) :
    List (CustomerId × CustomerAccount) :=
  match loginEmail identity with
  | some email => s.ofSeller adminId fun c => c.email = some email
  | none => s.ofSeller adminId fun c => c.phone = loginPhone identity

/-- `loginCustomer`. -/
def loginCustomer (rules : AccountRules) (input : CustomerLoginInput)
    (meta' : CustomerSessionMeta) : AccountTask (ℕ × CustomerId × CustomerAccount) := do
  refuseIf (!rules.accountsEnabled) ⟨"ورود مشتری در این فروشگاه فعال نیست", 403,
    "accounts_disabled"⟩
  let bad : AppError := ⟨"ایمیل/شماره یا رمز عبور درست نیست", 401, "bad_credentials"⟩
  refuseIf ((loginEmail input.identity).isNone && (loginPhone input.identity).isNone) bad
  let found ← read fun s => (s.loginRows rules.adminId input.identity).head?
  match found.filter fun c => c.2.passwordHash = input.password with
  | none => do
      audit rules.adminId "customer.login_failed" (sliceTo 60 (trim input.identity))
      throw bad
  | some customer => do
      refuseIf (customer.2.status ≠ .active)
        ⟨"این حساب غیرفعال شده است؛ با پشتیبانی تماس بگیرید", 403, "blocked"⟩
      let token ← startCustomerSession customer.1 meta'
      let t ← read AccountStore.now
      let _ ← updateCustomer .other customer.1 fun c =>
        { c with lastLoginAt := some t, lastLoginIp := meta'.ip }
      audit rules.adminId "customer.login" ""
      pure (token, customer)

/-! ## The profile -/

/-- `customerFromToken`. -/
def customerFromToken (token : ℕ) : AccountTask (Option (CustomerId × CustomerAccount)) :=
  read fun s =>
    match s.sessions.get? token with
    | none => none
    | some session =>
        if session.expiresAt < s.now then none
        else ((s.customers.get? session.customerId).filter fun c => c.status = .active).map
          fun c => (session.customerId, c)

/-- The clash test of `updateCustomerProfile`, for a number that the customer does not have. -/
def assertPhone (customer : CustomerAccount) (phone : Option String) : AccountTask Unit :=
  if phone ≠ none && phone ≠ customer.phone then
    assertFree customer.adminId CustomerAccount.phone phone
      (badRequest "این شماره موبایل برای حساب دیگری ثبت شده است")
  else pure ()

/-- `updateCustomerProfile`. -/
def updateCustomerProfile (customer : CustomerId × CustomerAccount) (input : CustomerProfileInput) :
    AccountTask CustomerAccount := do
  let phone := input.phone.map cleanDigits
  (match phone with
    | none => pure ()
    | some phone => assertPhone customer.2 phone)
  updateCustomer (.profile customer.1 phone) customer.1 fun c =>
    { c with
      name := (input.name.map cleanName).getD c.name
      telegramId := (input.telegramId.map cleanDigits).getD c.telegramId
      phone := phone.getD c.phone }

/-- The profile route. -/
def saveProfile (token : ℕ) (input : CustomerProfileInput) : AccountTask CustomerAccount := do
  let customer ← customerFromToken token
  match customer with
  | none => throw ⟨"Unauthorized", 401, "unauthorized"⟩
  | some customer => updateCustomerProfile customer input

/-! ## Calls -/

/-- A call of the accounts. -/
inductive Call
  | signup (rules : AccountRules) (input : CustomerSignupInput) (meta' : CustomerSessionMeta)
  | login (rules : AccountRules) (input : CustomerLoginInput) (meta' : CustomerSessionMeta)
  | profile (token : ℕ) (input : CustomerProfileInput)
  /-- `updateCustomerProfile` with a customer that was read at some time -/
  | update (customer : CustomerId × CustomerAccount) (input : CustomerProfileInput)

/-- The procedure of a call. -/
def task : Call → AccountTask Unit
  | .signup rules input meta' => (signupCustomer rules input meta').void
  | .login rules input meta' => (loginCustomer rules input meta').void
  | .profile token input => (saveProfile token input).void
  | .update customer input => (updateCustomerProfile customer input).void

end AccountStore

end SRPanel
