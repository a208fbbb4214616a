import SRPanel.Model.Access

/-!
# Licences

Premium is licensed to a whole install. The vendor's panel keeps all codes in one settings book and
binds a code to the install that redeems it first. A customer's panel keeps one record of its own
licence, which it verifies with the vendor now and then. Two gates go by that record, the older
`assertFeature` and the newer `requirePremium`.
-/

namespace SRPanel

open Interleaving

/-! ## Features and plans -/

inductive LicenseFeature
  | store
  | branding
  | domain
  | salesBot
  | monitoring
  | backupCenter
  | wallet
  | discounts
  | paymentPlugin
  | stars
  | clientTemplates
  | sharedPanel
  deriving DecidableEq

/-- `LICENSE_FEATURES`. -/
def LICENSE_FEATURES : List LicenseFeature :=
  [.store, .branding, .domain, .salesBot, .monitoring, .backupCenter, .wallet, .discounts,
    .paymentPlugin, .stars, .clientTemplates, .sharedPanel]

/-- The name of a feature in the settings. -/
def LicenseFeature.word : LicenseFeature → String
  | .store => "store"
  | .branding => "branding"
  | .domain => "domain"
  | .salesBot => "salesBot"
  | .monitoring => "monitoring"
  | .backupCenter => "backupCenter"
  | .wallet => "wallet"
  | .discounts => "discounts"
  | .paymentPlugin => "paymentPlugin"
  | .stars => "stars"
  | .clientTemplates => "clientTemplates"
  | .sharedPanel => "sharedPanel"

/-- `LICENSE_FEATURE_LABELS`. -/
def LICENSE_FEATURE_LABELS : LicenseFeature → String
  | .store => "فروشگاه وب و مینی‌اپ"
  | .branding => "برندینگ اختصاصی"
  | .domain => "دامنهٔ اختصاصی"
  | .salesBot => "ربات فروش تلگرام"
  | .monitoring => "مانیتورینگ و Incident"
  | .backupCenter => "بکاپ‌سنتر زمان‌بندی‌شده"
  | .wallet => "کیف پول و پرداخت"
  | .discounts => "کد تخفیف و افزونهٔ محصول"
  | .paymentPlugin => "افزونهٔ پرداخت"
  | .stars => "Telegram Stars"
  | .clientTemplates => "قالب کلاینت"
  | .sharedPanel => "پنل اشتراکی"

inductive LicensePlan
  | free
  | plus
  | pro
  deriving DecidableEq

/-- `PLAN_FEATURES`. -/
def planFeatures : LicensePlan → List LicenseFeature
  | .free => []
  | .plus => [.store, .branding, .salesBot, .wallet, .discounts]
  | .pro => LICENSE_FEATURES

/-- The feature of a name, if `isFeature` accepts it. -/
def featureOf (v : String) : Option LicenseFeature := LICENSE_FEATURES.find? fun f => f.word = v

/-- The plan of a name, if `isPlan` accepts it. -/
def planOf (v : String) : Option LicensePlan :=
  if v = "FREE" then some .free else if v = "PLUS" then some .plus else if v =
    "PRO" then some .pro else none

/-- `licenseFeatures`: explicit features win over those of the plan. -/
def licenseFeatures (plan : LicensePlan) (features : List String) : List LicenseFeature :=
  let explicit := features.filterMap featureOf
  if explicit = [] then planFeatures plan else explicit

/-! ## Codes and dates -/

def CODE_LENGTH : ℕ := 12

/-- `normalizeCode`: spaces, dashes and the old prefix do not count. -/
def normalizeCode (raw : String) : String :=
  let s := (upper raw).toList.filter fun c => c.isUpper || c.isDigit
  .ofList (if s.length = CODE_LENGTH + 3 && s.take 3 = ['S', 'R', 'P'] then s.drop 3 else s)

/-- A date in the settings, by what the code reads off its text: that it is empty, or the time that
`new Date` makes of it. -/
inductive DateText
  | empty
  | at (t : ℤ)
  /-- a text that is no date -/
  | unreadable (text : String)
  deriving DecidableEq

namespace DateText

/-- The text is a date before `now`. -/
def past (d : DateText) (now : Time) : Bool :=
  match d with
  | .at t => t < now
  | _ => false

/-- `now` minus the date, for a text that is one. -/
def age (d : DateText) (now : Time) : Option ℤ :=
  match d with
  | .at t => some (now - t)
  | _ => none

/-- `a || b`. -/
def orElse (a b : DateText) : DateText := if a = .empty then b else a

end DateText

/-! ## Stored shapes -/

/-- `licenseSchema`: a code of the vendor. -/
structure License where
  code : String
  plan : LicensePlan
  features : List String
  /-- validity after activation in days, 0 for ever -/
  days : ℕ
  note : String
  createdAt : DateText
  /-- the install that the code is bound to, empty while it is unused -/
  instanceId : String
  instanceUrl : String
  activatedAt : DateText
  expiresAt : DateText
  revoked : Bool
  deriving DecidableEq

/-- `licensingSchema`: the vendor's book. -/
structure Licensing where
  enforced : Bool
  keys : Table String License
  deriving DecidableEq

instance : Inhabited Licensing := ⟨⟨false, .empty⟩⟩

inductive LicenseSource
  | remote
  | local
  | env
  deriving DecidableEq

/-- `instanceLicenseSchema`: the licence that an install runs on. -/
structure InstanceLicense where
  code : String
  plan : LicensePlan
  features : List String
  activatedAt : DateText
  expiresAt : DateText
  lastCheck : DateText
  source : LicenseSource
  note : String
  deriving DecidableEq

/-- The record of an install without a licence: the defaults of the schema. -/
def InstanceLicense.blank : InstanceLicense := ⟨"", .free, [], .empty, .empty, .empty, .local, ""⟩

inductive LicenseStatus
  | unused
  | active
  | expired
  | revoked
  | free
  deriving DecidableEq

/-- `licenseStatus`. -/
def licenseStatus (now : Time) (l : License) : LicenseStatus :=
  if l.revoked then .revoked
  else if l.instanceId = "" then .unused
  else if l.expiresAt.past now then .expired
  else .active

/-- `panelStatus`. -/
def panelStatus (now : Time) (l : InstanceLicense) : LicenseStatus :=
  if l.code = "" then .free else if l.expiresAt.past now then .expired else .active

/-! ## The install -/

/-- What an install posts to redeem a code. -/
structure RedeemInput where
  code : String
  instanceId : String
  url : Option String
  deriving DecidableEq

/-- What redeeming a code answers. -/
structure RedeemResult where
  code : String
  plan : LicensePlan
  features : List LicenseFeature
  expiresAt : DateText
  activatedAt : DateText
  deriving DecidableEq

/-- The fields of a JSON answer of the license server. -/
structure VerifyPayload where
  code : Option String
  plan : String
  features : List String
  activatedAt : DateText
  expiresAt : DateText
  error : Option String

/-- What the license server does with a request. -/
inductive RemoteReply
  | unreachable
  | response (status : ℕ) (payload : VerifyPayload)

/-- The environment of the processes of an install. -/
structure InstallEnv where
  /-- `SRP_VENDOR_KEY` -/
  vendorKey : String
  /-- `SRP_LICENSE_REQUIRED` -/
  licenseRequired : String
  /-- `panelUrl()` -/
  panelUrl : String
  sha256 : String → String

/-- A success answer of the public license endpoint, with the time at which the call looked at the
clock. -/
structure VerifyAnswer where
  instanceId : String
  result : RedeemResult
  time : Time
  deriving DecidableEq

/-- What has happened to the licence of an install. -/
inductive LicenseEvent
  /-- the vendor has accepted the code and given it an expiry -/
  | verified (code : String) (time : Time) (expiresAt : DateText)
  /-- a call whose code the vendor rejected has ended, or has stored so -/
  | rejected (code : String)
  /-- the licence has been dropped -/
  | dropped
  deriving DecidableEq

/-- The settings of the licences, and what is around them. `answers` and `events` record for the
statements of this development what has happened, newest first. -/
structure Install where
  now : Time
  nextId : ℕ
  env : InstallEnv
  licensing : Cell Proc Licensing
  license : Cell Proc InstanceLicense
  instanceId : Cell Proc String
  /-- what the license server would do now with a request -/
  vendor : RedeemInput → RemoteReply
  /-- a random id or code, by the number drawn for it -/
  draw : ℕ → String
  journal : List Entry
  answers : List VerifyAnswer
  events : List LicenseEvent

/-- An install on which nothing is set, whose license server does not answer. -/
def Install.blank : Install where
  now := 0
  nextId := 0
  env := ⟨"", "", "", id⟩
  licensing := .fresh default
  license := .fresh .blank
  instanceId := .fresh ""
  vendor _ := .unreachable
  draw n := toString n
  journal := []
  answers := []
  events := []

/-- Time goes on, and the license server may change its mind. -/
def Install.Passes (s t : Install) : Prop :=
  s.now ≤ t.now ∧ t = { s with now := t.now, vendor := t.vendor }

/-- What a step does, as far as statements about runs distinguish it. A write names the copy that
its call goes by, if it goes by one. -/
inductive LicenseStmt
  | other
  | readBook (x : Proc)
  | saveBook (seen : Licensing)
  /-- an activation asks the vendor about a code -/
  | activate (input : RedeemInput)
  /-- an activation stores a licence; `since` is what had happened when it was granted -/
  | saveActivation (since : List LicenseEvent)
  /-- a recheck stores what it has learned about the record that it has read -/
  | saveRecheck (seen : InstanceLicense) (since : List LicenseEvent)

abbrev LicenseService := Prog LicenseStmt Install AppError

namespace Install

/-- The time to live of `getSetting`, unless the caller gives another. -/
def TTL_MS : ℕ := 30000

/-- The time to live of `getInstanceLicense`. -/
def RECORD_TTL : ℕ := 10000

/-- The time to live of the instance id. -/
def ID_TTL : ℕ := 300000

/-- The book that process `x` reads. -/
def book (s : Install) (x : Proc) : Licensing := s.licensing.get x TTL_MS s.now

/-- The record that process `x` reads. -/
def record (s : Install) (x : Proc) : InstanceLicense := s.license.get x RECORD_TTL s.now

end Install

/-- A line of the audit log. -/
def auditLicense (actor : AdminId) (action : String) : LicenseService Unit :=
  .modify .other fun s => { s with journal := .audit (some actor) action :: s.journal }

/-- `getLicensing`, with the time at which the caller goes on. -/
def getLicensing (x : Proc) : LicenseService (Licensing × Time) :=
  .step (.readBook x) fun s =>
    (.ok (s.book x, s.now), { s with licensing := s.licensing.touch x Install.TTL_MS s.now })

/-- `persist` of the book, by a call that has read `seen`. -/
def persistBook (x : Proc) (seen v : Licensing) : LicenseService Unit :=
  .modify (.saveBook seen) fun s => { s with licensing := s.licensing.put x s.now v }

/-- `getInstanceLicense`, with the time at which the caller goes on. -/
def getInstanceLicense (x : Proc) : LicenseService (InstanceLicense × Time) :=
  .step .other fun s =>
    (.ok (s.record x, s.now), { s with license := s.license.touch x Install.RECORD_TTL s.now })

/-- `persist` of the record, with the event that the write completes. -/
def persistRecord (x : Proc) (l : LicenseStmt) (v : InstanceLicense) (event : List LicenseEvent) :
    LicenseService Unit :=
  .modify l fun s => { s with license := s.license.put x s.now v, events := event ++ s.events }

/-- `panelInstanceId`: drawn on first use. -/
def panelInstanceId (x : Proc) : LicenseService String := do
  let id ← .step .other fun s =>
    (.ok (s.instanceId.get x Install.ID_TTL s.now),
      { s with instanceId := s.instanceId.touch x Install.ID_TTL s.now })
  if id ≠ "" then pure id
  else .step .other fun s =>
    let id := s.draw s.nextId
    (.ok id, { s with nextId := s.nextId + 1, instanceId := s.instanceId.put x s.now id })

/-! ## The older gate -/

/-- `licenseForced`. -/
def InstallEnv.licenseForced (e : InstallEnv) : Bool :=
  lower (trim e.licenseRequired) ∈ ["1", "true", "yes", "on"]

/-- `enforcementOn`. -/
def enforcementOn (x : Proc) : LicenseService Bool := do
  let forced ← .query .other fun s => s.env.licenseForced
  if forced then pure true
  else do
    let (cfg, _) ← getLicensing x
    pure cfg.enforced

/-- The features of `entitlements`. -/
def entitledFeatures (x : Proc) : LicenseService (List LicenseFeature) := do
  let (lic, now) ← getInstanceLicense x
  let live := panelStatus now lic = .active
  let enforced ← enforcementOn x
  if !enforced then pure LICENSE_FEATURES
  else pure (if live then licenseFeatures lic.plan lic.features else [])

/-- The refusal of both gates. -/
def premiumError (feature : LicenseFeature) : AppError :=
  forbiddenError ("این بخش نیازمند لایسنس پرمیوم است: " ++ LICENSE_FEATURE_LABELS feature)

/-- `assertFeature`. -/
def assertFeature (x : Proc) (feature : LicenseFeature) : LicenseService Unit := do
  let features ← entitledFeatures x
  if feature ∈ features then pure () else throw (premiumError feature)

/-! ## The newer gate -/

def HOUR_MS : ℤ := 3600000

/-- Days a customer install keeps premium while the license server is unreachable. -/
def LICENSE_GRACE_DAYS : ℤ := 7

/-- `RECHECK_HOURS`. -/
def RECHECK_HOURS : ℤ := 6

def VENDOR_KEY_HASH : String := "1f827d3a0528da6664d83e28d1dbc1df526e04f2cad50b475a37ed4ba1622e7b"

/-- `isVendorInstall`. -/
def InstallEnv.isVendorInstall (e : InstallEnv) : Bool :=
  trim e.vendorKey ≠ "" && e.sha256 (trim e.vendorKey) = VENDOR_KEY_HASH

/-- The record was verified within the grace window. -/
def InstanceLicense.fresh (l : InstanceLicense) (now : Time) : Bool :=
  match l.lastCheck.age now with
  | some age => age ≤ LICENSE_GRACE_DAYS * DAY_MS
  | none => false

/-- The record unlocks its features: `live` in `panelEntitlements`. -/
def InstanceLicense.live (l : InstanceLicense) (now : Time) : Bool :=
  panelStatus now l = .active && l.fresh now

/-- The features of `panelEntitlements`. -/
def panelEntitlements (x : Proc) : LicenseService (List LicenseFeature) := do
  let (lic, _) ← getInstanceLicense x
  let _ ← panelInstanceId x
  .query .other fun s =>
    if s.env.isVendorInstall then LICENSE_FEATURES
    else if lic.live s.now then licenseFeatures lic.plan lic.features
    else []

/-- `requirePremium`. -/
def requirePremium (x : Proc) (feature : LicenseFeature) : LicenseService Unit := do
  let features ← panelEntitlements x
  if feature ∈ features then pure () else throw (premiumError feature)

/-! ## The vendor's codes -/

/-- The end of a licence of so many days that starts at `t`. -/
def expiryOf (days : ℕ) (t : ℤ) : DateText := if 0 < days then .at (t + days * DAY_MS) else .empty

/-- The binding of an unused code to an install. -/
def License.bind (l : License) (instanceId url : String) (now : Time) : License :=
  { l with
    instanceId := instanceId
    instanceUrl := sliceTo 200 url
    activatedAt := .at now
    expiresAt := expiryOf l.days now }

/-- The code after the install `instanceId` has redeemed it. -/
def License.redeemed (l : License) (instanceId : String) (url : Option String)
    (now : Time) : License :=
  if l.instanceId = instanceId then { l with instanceUrl := sliceTo 200 (url.getD l.instanceUrl) }
  else l.bind instanceId (url.getD "") now

/-- The instance id that a redemption goes by. -/
def RedeemInput.instanceKey (i : RedeemInput) : String := sliceTo 80 (trim i.instanceId)

/-- `redeemLicense`: binds a minted code to an install, with the time at which it looked at the
clock. -/
def redeemLicense (x : Proc) (input : RedeemInput) : LicenseService (RedeemResult × Time) :=
  let key := normalizeCode input.code
  let instanceId := input.instanceKey
  if key.toList.length ≠ CODE_LENGTH then throw (badRequest "کد لایسنس باید ۱۲ کاراکتر باشد")
  else if instanceId = "" then throw (badRequest "شناسهٔ نصب ارسال نشده است")
  else do
    let (cfg, now) ← getLicensing x
    match cfg.keys.get? key with
    | none => throw (notFoundError "کد لایسنس پیدا نشد")
    | some current =>
        if current.revoked then throw (forbiddenError "این لایسنس لغو شده است")
        else if current.instanceId ≠ "" && current.instanceId ≠ instanceId then
          throw (badRequest "این لایسنس قبلاً روی نصب دیگری فعال شده است")
        else
          let next := current.redeemed instanceId input.url now
          if licenseStatus now next =
            .expired then throw (badRequest "مدت این لایسنس به پایان رسیده است")
          else do
            persistBook x cfg { cfg with keys := cfg.keys.set key next }
            pure (⟨key, next.plan, licenseFeatures next.plan next.features, next.expiresAt,
              next.activatedAt⟩, now)

/-- The body of a request to the public license endpoint passes its schema, which trims the texts.
-/
def RedeemInput.valid (i : RedeemInput) : Bool :=
  let code := (trim i.code).toList.length
  let id := (trim i.instanceId).toList.length
  8 ≤ code && code ≤ 40 && 4 ≤ id && id ≤ 80 && i.url.all fun u => (trim u).toList.length ≤ 200

/-- `POST` of the public license endpoint, less its budget for each address. -/
def verifyEndpoint (x : Proc) (body : RedeemInput) : LicenseService Unit :=
  if !body.valid then throw ⟨"Invalid input", 400, "validation"⟩
  else do
    let input : RedeemInput := ⟨trim body.code, trim body.instanceId, body.url.map trim⟩
    let (result, time) ← redeemLicense x input
    .modify .other fun s => { s with answers := ⟨input.instanceKey, result, time⟩ :: s.answers }

/-- Change a code that the book has, on behalf of the owner. -/
def changeLicense (x : Proc) (actor : Actor) (code action : String)
    (change : Table String License → String → License → Table String License) :
    LicenseService Unit :=
  if actor.role ≠ .owner then throw (forbiddenError "دسترسی غیرمجاز")
  else do
    let (cfg, _) ← getLicensing x
    let key := normalizeCode code
    match cfg.keys.get? key with
    | none => throw (notFoundError "کد لایسنس پیدا نشد")
    | some l => do
        persistBook x cfg { cfg with keys := change cfg.keys key l }
        auditLicense actor.id action

/-- `setLicenseRevoked`. -/
def setLicenseRevoked (x : Proc) (actor : Actor) (code : String) (revoked : Bool) :
    LicenseService Unit :=
  changeLicense x actor code "license.revoke" fun keys key l =>
    keys.set key { l with revoked := revoked }

/-- `setLicensingEnforced`. -/
def setLicensingEnforced (x : Proc) (actor : Actor) (enforced : Bool) : LicenseService Unit :=
  if actor.role ≠ .owner then throw (forbiddenError "دسترسی غیرمجاز")
  else do
    let (cfg, _) ← getLicensing x
    persistBook x cfg { cfg with enforced := enforced }
    auditLicense actor.id "license.enforce"

/-- What `createLicenses` is asked for, after rounding. -/
structure MintInput where
  plan : LicensePlan
  features : List String
  days : ℕ
  note : String

/-- A minted code, not yet bound to an install. -/
def MintInput.license (i : MintInput) (code : String) (now : Time) : License where
  code := code
  plan := i.plan
  features := i.features.filter fun v => (featureOf v).isSome
  days := min 3650 i.days
  note := sliceTo 200 i.note
  createdAt := .at now
  instanceId := ""
  instanceUrl := ""
  activatedAt := .empty
  expiresAt := .empty
  revoked := false

/-- The book after one more code is drawn; one that is taken already does not count. -/
def mintOne (i : MintInput) (now : Time) (keys : Table String License) (code : String) :
    Table String License :=
  if (keys.get? code).isSome then keys else keys.set code (i.license code now)

/-- The book with new codes, given the codes drawn. -/
def mint (i : MintInput) (now : Time) (codes : List String) (keys : Table String License) :
    Table String License :=
  codes.foldl (mintOne i now) keys

/-- `createLicenses`, given the codes that it draws until it has enough new ones. -/
def createLicenses (x : Proc) (actor : Actor) (i : MintInput) (codes : List String) :
    LicenseService Unit :=
  if actor.role ≠ .owner then throw (forbiddenError "دسترسی غیرمجاز")
  else do
    let (cfg, now) ← getLicensing x
    persistBook x cfg { cfg with keys := mint i now codes cfg.keys }
    auditLicense actor.id "license.create"

/-! ## Verification by the vendor -/

/-- What the vendor's answer grants. -/
structure VerifyValue where
  code : String
  plan : LicensePlan
  features : List LicenseFeature
  activatedAt : DateText
  expiresAt : DateText

/-- `VerifyOutcome`. -/
inductive VerifyOutcome
  | ok (value : VerifyValue)
  | refused (error : String)
  | unreachable (error : String)

/-- The outcome of a request for `code`, read off the server's reply at time `now`. -/
def RemoteReply.outcome (r : RemoteReply) (code : String) (now : Time) : VerifyOutcome :=
  match r with
  | .unreachable => .unreachable "سرور لایسنس در دسترس نیست"
  | .response status payload =>
      if 500 ≤ status then .unreachable "سرور لایسنس در دسترس نیست"
      else if status < 200 || 300 ≤ status then
        .refused (payload.error.getD "سرور لایسنس این کد را تایید نکرد")
      else .ok {
        code := normalizeCode (payload.code.getD code)
        plan := (planOf payload.plan).getD .pro
        features := payload.features.filterMap featureOf
        activatedAt := payload.activatedAt.orElse (.at now)
        expiresAt := payload.expiresAt }

/-- What a call goes on with after its request to the vendor: the outcome, the time, and what has
happened by then. -/
structure Verification where
  outcome : VerifyOutcome
  now : Time
  since : List LicenseEvent

/-- `verifyRemote`: one request; `onOutcome` is the event that its answer completes. -/
def verifyRemote (l : RedeemInput → LicenseStmt) (code instanceId : String)
    (onOutcome : VerifyOutcome → Time → List LicenseEvent) : LicenseService Verification := do
  let url ← .query .other fun s => s.env.panelUrl
  .step (l ⟨code, instanceId, some url⟩) fun s =>
    let outcome := (s.vendor ⟨code, instanceId, some url⟩).outcome code s.now
    let events := onOutcome outcome s.now ++ s.events
    (.ok ⟨outcome, s.now, events⟩, { s with events := events })

/-- The event of an answer to an activation, which ends if the vendor rejects the code. -/
def activationEvent (code : String) (outcome : VerifyOutcome) (now : Time) : List LicenseEvent :=
  match outcome with
  | .ok value => [.verified value.code now value.expiresAt]
  | .refused _ => [.rejected code]
  | .unreachable _ => []

/-- The event of an answer to a recheck, which goes on if the vendor rejects the code. -/
def recheckEvent (code : String) (outcome : VerifyOutcome) (now : Time) : List LicenseEvent :=
  match outcome with
  | .ok value => [.verified code now value.expiresAt]
  | .refused _ => []
  | .unreachable _ => []

/-- `value` in `activateLicense`: the vendor redeems the code itself, every other install asks the
vendor. -/
def activationValue (x : Proc) (vendor : Bool) (code instanceId : String) :
    LicenseService (VerifyValue × Time × List LicenseEvent) :=
  if vendor then do
    let url ← .query .other fun s => s.env.panelUrl
    let (r, now) ← redeemLicense x ⟨code, instanceId, some url⟩
    pure (⟨r.code, r.plan, r.features, r.activatedAt, r.expiresAt⟩, now, [])
  else do
    let v ← verifyRemote .activate code instanceId (activationEvent code)
    match v.outcome with
    | .ok value => pure (value, v.now, v.since)
    | .refused error => throw (badRequest error)
    | .unreachable error => throw (badRequest error)

/-- `activateLicense`. -/
def activateLicense (x : Proc) (actor : Actor) (rawCode : String) :
    LicenseService (List LicenseFeature) :=
  if actor.role ≠ .owner then throw (forbiddenError "دسترسی غیرمجاز")
  else
    let code := normalizeCode rawCode
    if code.toList.length ≠ CODE_LENGTH then throw (badRequest "کد لایسنس باید ۱۲ کاراکتر باشد")
    else do
      let instanceId ← panelInstanceId x
      let vendor ← .query .other fun s => s.env.isVendorInstall
      let (value, now, since) ← activationValue x vendor code instanceId
      persistRecord x (.saveActivation since)
        { code := value.code
          plan := value.plan
          features := value.features.map LicenseFeature.word
          activatedAt := value.activatedAt.orElse (.at now)
          expiresAt := value.expiresAt
          lastCheck := .at now
          source := if vendor then .local else .remote
          note := "" } []
      auditLicense actor.id "license.activate"
      panelEntitlements x

/-- The record after a recheck, and the event that its write completes. -/
def InstanceLicense.rechecked (current : InstanceLicense) (now : Time) :
    VerifyOutcome → InstanceLicense × List LicenseEvent
  | .ok value =>
      ({ current with
        plan := value.plan
        features := value.features.map LicenseFeature.word
        expiresAt := value.expiresAt
        activatedAt := current.activatedAt.orElse value.activatedAt
        lastCheck := .at now
        source := .remote
        note := "" }, [])
  | .refused error =>
      -- the vendor answered «no»: drop the entitlement, keep the code for the log
      ({ current with
        plan := .free
        features := []
        expiresAt := .empty
        lastCheck := .empty
        note := sliceTo 200 error }, [.rejected current.code])
  | .unreachable error => ({ current with note := sliceTo 200 error }, [])

/-- `recheckLicense`; the worker has no actor. -/
def recheckLicense (x : Proc) (actor : Option Actor) : LicenseService (List LicenseFeature) :=
  if actor.any fun a => a.role ≠ .owner then throw (forbiddenError "دسترسی غیرمجاز")
  else do
    let (current, _) ← getInstanceLicense x
    if current.code = "" then throw (badRequest "هنوز لایسنسی روی این پنل فعال نشده است")
    else do
      let vendor ← .query .other fun s => s.env.isVendorInstall
      if vendor then panelEntitlements x
      else do
        let instanceId ← panelInstanceId x
        let v ← verifyRemote (fun _ => .other) current.code instanceId (recheckEvent current.code)
        let next := current.rechecked v.now v.outcome
        persistRecord x (.saveRecheck current v.since) next.1 next.2
        panelEntitlements x

/-- `autoRecheckLicense`: whether a check ran. -/
def autoRecheckLicense (x : Proc) : LicenseService Bool := do
  let vendor ← .query .other fun s => s.env.isVendorInstall
  if vendor then pure false
  else do
    let (lic, now) ← getInstanceLicense x
    if lic.code = "" then pure false
    else if (lic.lastCheck.age now).any fun age => age < RECHECK_HOURS * HOUR_MS then pure false
    else do
      let _ ← recheckLicense x none
      pure true

/-- `dropLicense`. -/
def dropLicense (x : Proc) (actor : Actor) : LicenseService (List LicenseFeature) :=
  if actor.role ≠ .owner then throw (forbiddenError "دسترسی غیرمجاز")
  else do
    let _ ← getInstanceLicense x
    persistRecord x .other { InstanceLicense.blank with source := .remote } [.dropped]
    auditLicense actor.id "license.clear"
    let _ ← panelInstanceId x
    panelEntitlements x

end SRPanel
