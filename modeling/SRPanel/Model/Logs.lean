import SRPanel.Lib.Table
import SRPanel.Model.Types
import Mathlib.Data.Rat.Floor

/-!
# The unified log

`services/logs.ts` merges the audit, notification, webhook, incident and backup rows into one
timeline. Every source keeps its own table, is read with its own conditions, and the rows read are
sorted together in memory. The order of rows of one time is up to the database, which may answer
differently each time.
-/

namespace SRPanel

/-- The tables that the log is put together from. -/
inductive LogSource
  | audit | notification | webhook | incident | backup
  deriving DecidableEq

/-- `LOG_SOURCES`. -/
def LOG_SOURCES : List LogSource := [.audit, .notification, .webhook, .incident, .backup]

/-- The levels of an entry. -/
inductive LogLevel
  | error | warning | success | info
  deriving DecidableEq

/-- `LOG_LEVELS`. -/
def LOG_LEVELS : List LogLevel := [.error, .warning, .success, .info]

/-! ## Rows -/

/-- A row of the audit log. -/
structure AuditLog where
  id : ℕ
  at' : ℤ
  adminId : Option AdminId
  action : String
  target : Option String
  /-- the JSON text -/
  meta' : Option String
  ip : Option String
  deriving DecidableEq

/-- A row of the notification log. -/
structure NotificationLog where
  id : ℕ
  at' : ℤ
  channel : String
  kind : String
  targetId : Option String
  adminId : Option AdminId
  dedupeKey : String
  ok : Bool
  error : Option String
  deriving DecidableEq

/-- The columns of a webhook that the log shows. -/
structure Webhook where
  adminId : AdminId
  url : String
  deriving DecidableEq

/-- The columns of a delivery that it shows. -/
structure WebhookDelivery where
  id : ℕ
  webhookId : ℕ
  event : String
  status : Option ℤ
  error : Option String
  attempts : ℕ
  doneAt : Option ℤ
  createdAt : ℤ
  deriving DecidableEq

/-- The kinds of incident. -/
inductive IncidentKind
  | offline | authError | xrayDown | highCpu
  deriving DecidableEq

/-- The name of a kind in lower case. -/
def IncidentKind.lower : IncidentKind → String
  | offline => "offline"
  | authError => "auth_error"
  | xrayDown => "xray_down"
  | highCpu => "high_cpu"

/-- The status of an incident. -/
inductive IncidentStatus
  | open' | resolved
  deriving DecidableEq

/-- A row of the incidents. -/
structure Incident where
  id : ℕ
  serverId : ℕ
  kind : IncidentKind
  status : IncidentStatus
  message : Option String
  startedAt : ℤ
  resolvedAt : Option ℤ
  deriving DecidableEq

/-- The status of a backup. -/
inductive BackupStatus
  | running | ok | failed
  deriving DecidableEq

/-- A row of the backups. -/
structure Backup where
  id : ℕ
  at' : ℤ
  status : BackupStatus
  fileName : String
  sizeBytes : Option ℕ
  sentToTelegram : Bool
  trigger : String
  error : Option String
  finishedAt : Option ℤ
  deriving DecidableEq

/-- The tables that the log is read from. -/
structure LogTables where
  auditLog : List AuditLog
  notificationLog : List NotificationLog
  webhookDelivery : List WebhookDelivery
  incident : List Incident
  backup : List Backup
  /-- `Admin.username` -/
  usernames : Table AdminId String
  webhooks : Table ℕ Webhook
  /-- `Server.name` -/
  servers : Table ℕ String

/-- A row of a source. -/
abbrev LogSource.Row : LogSource → Type
  | .audit => AuditLog
  | .notification => NotificationLog
  | .webhook => WebhookDelivery
  | .incident => Incident
  | .backup => Backup

namespace LogTables

/-- The table of a source. -/
def rows (db : LogTables) : (s : LogSource) → List s.Row
  | .audit => db.auditLog
  | .notification => db.notificationLog
  | .webhook => db.webhookDelivery
  | .incident => db.incident
  | .backup => db.backup

end LogTables

namespace LogSource

/-- The primary key. -/
def rowId : (s : LogSource) → s.Row → ℕ
  | .audit => AuditLog.id
  | .notification => NotificationLog.id
  | .webhook => WebhookDelivery.id
  | .incident => Incident.id
  | .backup => Backup.id

/-- The column that the source is ordered by. -/
def rowAt : (s : LogSource) → s.Row → ℤ
  | .audit => AuditLog.at'
  | .notification => NotificationLog.at'
  | .webhook => WebhookDelivery.createdAt
  | .incident => Incident.startedAt
  | .backup => Backup.at'

end LogSource

/-! ## Levels -/

/-- The verbs of a successful action. -/
def SUCCESS_VERBS : List String :=
  ["create", "approve", "fulfill", "enable", "login", "renew", "totp_enabled", "verify", "restore"]

/-- The verbs of an action that is a warning. -/
def WARNING_VERBS : List String :=
  ["delete", "disable", "cancel", "reset_traffic", "prune", "cleanup", "logout"]

/-- The verbs of an action that failed. -/
def ERROR_VERBS : List String := ["login_failed", "failed", "error", "reject"]

/-- `auditLevelOf`. -/
def auditLevelOf (action : String) : LogLevel :=
  let verb := if action.toList.contains '.' then
    .ofList ((action.toList.dropWhile (· ≠ '.')).drop 1) else action
  if ERROR_VERBS.contains verb then .error
  else if WARNING_VERBS.contains verb then .warning
  else if SUCCESS_VERBS.contains verb then .success
  else .info

/-- `SOURCE_LEVELS`. -/
def SOURCE_LEVELS : LogSource → List LogLevel
  | .audit => [.error, .warning, .success, .info]
  | .notification => [.error, .info]
  | .webhook => [.error, .success, .info]
  | .incident => [.error, .success]
  | .backup => [.error, .success, .info]

/-! ## Conditions -/

/-- The filters that the query hands to the sources. -/
structure SourceFilter where
  q : String
  levels : List LogLevel
  /-- the empty text is `none` -/
  adminId : Option AdminId
  from' : String
  to' : String
  deriving DecidableEq

/-- The text comparisons of the database, and the date parser of the language. -/
structure LogEnv where
  /-- `value ILIKE '%q%'`, as `contains value q` -/
  contains : String → String → Bool
  /-- `value LIKE '%suffix'` -/
  endsWith : String → String → Bool
  /-- `new Date(text).getTime()`; `none` is an invalid date -/
  parseDate : String → Option ℤ

/-- `isActive`: incidents and backups are system-wide, so an admin filter excludes them. -/
def isActive (source : LogSource) (f : SourceFilter) : Bool :=
  if f.adminId.isSome ∧ (source = .incident ∨ source = .backup) then false
  else (SOURCE_LEVELS source).any f.levels.contains

/-- `/^\d{4}-\d{2}-\d{2}$/.test(s)`. -/
def isDay (s : String) : Bool :=
  match s.toList with
  | [a, b, c, d, '-', e, f, '-', g, h] => [a, b, c, d, e, f, g, h].all Char.isDigit
  | _ => false

/-- The bounds of `dateFilter`: `gte` and `lte`. -/
def dateFilter (env : LogEnv) (f : SourceFilter) : Option ℤ × Option ℤ :=
  (if f.from' = "" then none else env.parseDate
    (if isDay f.from' then f.from' ++ "T00:00:00" else f.from'),
    if f.to' = "" then none else env.parseDate
      (if isDay f.to' then f.to' ++ "T23:59:59.999" else f.to'))

/-- The time lies in the bounds of the filter. -/
def inDates (env : LogEnv) (f : SourceFilter) (time : ℤ) : Bool :=
  (∀ gte ∈ (dateFilter env f).1, gte ≤ time) ∧ ∀ lte ∈ (dateFilter env f).2, time ≤ lte

/-- A condition `{ column: like }` on a column that may be null. -/
def LogEnv.like (env : LogEnv) (f : SourceFilter) (column : Option String) : Bool :=
  column.any fun value => env.contains value f.q

/-- The condition that an action has one of the verbs. -/
def verbWhere (env : LogEnv) (verbs : List String) (action : String) : Bool :=
  verbs.any fun v => env.endsWith action ("." ++ v)

/-- The condition on audit rows. -/
def auditWhere (env : LogEnv) (db : LogTables) (f : SourceFilter) (r : AuditLog) : Bool :=
  inDates env f r.at' &&
  (f.adminId.isNone || r.adminId = f.adminId) &&
  (f.q = "" || env.like f (some r.action) || env.like f r.target || env.like f r.ip ||
    env.like f (r.adminId.bind db.usernames.get?)) &&
  (LOG_LEVELS.length ≤ f.levels.length ||
    f.levels.contains .error && verbWhere env ERROR_VERBS r.action ||
    f.levels.contains .warning && verbWhere env WARNING_VERBS r.action ||
    f.levels.contains .success && verbWhere env SUCCESS_VERBS r.action ||
    f.levels.contains .info &&
      !verbWhere env (ERROR_VERBS ++ WARNING_VERBS ++ SUCCESS_VERBS) r.action)

/-- The condition on notifications. -/
def notifyWhere (env : LogEnv) (f : SourceFilter) (r : NotificationLog) : Bool :=
  inDates env f r.at' &&
  (f.adminId.isNone || r.adminId = f.adminId) &&
  (f.q = "" || env.like f (some r.kind) || env.like f r.targetId || env.like f r.error) &&
  (f.levels.contains .info = f.levels.contains .error || r.ok = f.levels.contains .info)

/-- `WH_ERROR`. -/
def webhookFailed (r : WebhookDelivery) : Bool := r.error.isSome || r.status.any (400 ≤ ·)

/-- `{ OR: [{ status: null }, { status: { lt: 400 } }] }`. -/
def webhookStatusFine (r : WebhookDelivery) : Bool := r.status.isNone || r.status.any (· < 400)

/-- `WH_OK`. -/
def webhookDone (r : WebhookDelivery) : Bool :=
  r.error.isNone && r.doneAt.isSome && webhookStatusFine r

/-- `WH_PENDING`. -/
def webhookPending (r : WebhookDelivery) : Bool :=
  r.error.isNone && r.doneAt.isNone && webhookStatusFine r

/-- The condition on deliveries. -/
def webhookWhere (env : LogEnv) (db : LogTables) (f : SourceFilter) (r : WebhookDelivery) : Bool :=
  let hook := db.webhooks.get? r.webhookId
  inDates env f r.createdAt &&
  (f.adminId.isNone || hook.map Webhook.adminId = f.adminId) &&
  (f.q = "" || env.like f (some r.event) || env.like f r.error ||
    env.like f (hook.map Webhook.url)) &&
  (f.levels.contains .error && f.levels.contains .success && f.levels.contains .info ||
    f.levels.contains .error && webhookFailed r ||
    f.levels.contains .success && webhookDone r ||
    f.levels.contains .info && webhookPending r)

/-- The condition on incidents. -/
def incidentWhere (env : LogEnv) (db : LogTables) (f : SourceFilter) (r : Incident) : Bool :=
  inDates env f r.startedAt &&
  (f.q = "" || env.like f r.message || env.like f (db.servers.get? r.serverId)) &&
  (f.levels.contains .error = f.levels.contains .success ||
    r.status = if f.levels.contains .error then .open' else .resolved)

/-- The condition on backups. -/
def backupWhere (env : LogEnv) (f : SourceFilter) (r : Backup) : Bool :=
  inDates env f r.at' &&
  (f.q = "" || env.like f (some r.fileName) || env.like f (some r.trigger) || env.like f r.error) &&
  match r.status with
  | .ok => f.levels.contains .success
  | .failed => f.levels.contains .error
  | .running => f.levels.contains .info

/-- The condition that a source is counted and read with. -/
def LogSource.where' (env : LogEnv) (db : LogTables) (f : SourceFilter) : (s : LogSource) →
    s.Row → Bool
  | .audit => auditWhere env db f
  | .notification => notifyWhere env f
  | .webhook => webhookWhere env db f
  | .incident => incidentWhere env db f
  | .backup => backupWhere env f

/-! ## Entries -/

/-- The `meta` of an entry. -/
inductive LogMeta
  | stored (json : Option String)
  | notification (channel kind : String) (ok : Bool) (error : Option String) (dedupeKey : String)
  | webhook (event : String) (status : Option ℤ) (attempts : ℕ) (doneAt : Option ℤ)
    (error : Option String)
  | incident (kind : IncidentKind) (status : IncidentStatus) (serverId : ℕ) (resolvedAt : Option ℤ)
  | backup (status : BackupStatus) (trigger : String) (sizeBytes : Option ℕ) (sentToTelegram : Bool)
      (finishedAt : Option ℤ)
  deriving DecidableEq

/-- An entry of the log. -/
structure UnifiedLogEntry where
  /-- `<source>:<rowId>` -/
  id : LogSource × ℕ
  source : LogSource
  level : LogLevel
  /-- ISO timestamps are compared as texts, which is the order of the times -/
  at' : ℤ
  action : String
  actor : Option String
  adminId : Option AdminId
  target : Option String
  text : Option String
  ip : Option String
  meta' : LogMeta
  deriving DecidableEq

/-- `webhookLevel`. -/
def webhookLevel (d : WebhookDelivery) : LogLevel :=
  if (d.error.bind orNull).isSome || d.status.any (400 ≤ ·) then .error
  else if d.doneAt.isSome then .success else .info

/-- The entry that `fetchOf` makes of a row. -/
def LogSource.entry (db : LogTables) : (s : LogSource) → s.Row → UnifiedLogEntry
  | .audit, r =>
      ⟨(.audit, r.id), .audit, auditLevelOf r.action, r.at', r.action,
        r.adminId.bind db.usernames.get?, r.adminId, r.target, none, r.ip, .stored r.meta'⟩
  | .notification, r =>
      ⟨(.notification, r.id), .notification, if r.ok then .info else .error, r.at',
        "notify." ++ r.kind, none, r.adminId, r.targetId, r.error, none,
        .notification r.channel r.kind r.ok r.error r.dedupeKey⟩
  | .webhook, r =>
      let hook := db.webhooks.get? r.webhookId
      ⟨(.webhook, r.id), .webhook, webhookLevel r, r.createdAt, "webhook." ++ r.event,
        hook.bind fun w => db.usernames.get? w.adminId, hook.map Webhook.adminId,
        some ((hook.map Webhook.url).getD (toString r.webhookId)),
        r.error.or (r.status.map fun status => "HTTP " ++ toString status), none,
        .webhook r.event r.status r.attempts r.doneAt r.error⟩
  | .incident, r =>
      ⟨(.incident, r.id), .incident, if r.status = .open' then .error else .success, r.startedAt,
        "incident." ++ r.kind.lower, none, none,
        some ((db.servers.get? r.serverId).getD (toString r.serverId)), r.message, none,
        .incident r.kind r.status r.serverId r.resolvedAt⟩
  | .backup, r =>
      ⟨(.backup, r.id), .backup,
        if r.status = .ok then .success else if r.status = .failed then .error else .info, r.at',
        "backup." ++ r.trigger, none, none, some r.fileName, r.error, none,
        .backup r.status r.trigger r.sizeBytes r.sentToTelegram r.finishedAt⟩

/-- The rows of each source that satisfy the filter, in an order in which the database may list
them: the latest first, rows of one time as it likes. -/
structure LogAnswers (env : LogEnv) (db : LogTables) (f : SourceFilter) where
  rows : (s : LogSource) → List s.Row
  perm : ∀ s, (rows s).Perm ((db.rows s).filter (s.where' env db f))
  sorted : ∀ s, (rows s).Pairwise fun a b => s.rowAt b ≤ s.rowAt a

/-- `countOf`. -/
def countOf (env : LogEnv) (db : LogTables) (source : LogSource) (f : SourceFilter) : ℕ :=
  ((db.rows source).filter (source.where' env db f)).length

/-- `fetchOf`, with the rows that the database answers. -/
def fetchOf {env : LogEnv} {db : LogTables} {f : SourceFilter} (answers : LogAnswers env db f)
    (source : LogSource) (take : ℕ) : List UnifiedLogEntry :=
  ((answers.rows source).take take).map (source.entry db)

/-- `patchActors`, on one entry. -/
def patchActor (db : LogTables) (e : UnifiedLogEntry) : UnifiedLogEntry :=
  match e.actor.bind orNull, e.adminId with
  | none, some adminId => { e with actor := db.usernames.get? adminId }
  | _, _ => e

/-- `clampInt`; `none` is a value that is not a finite number. -/
def clampInt (value : Option ℚ) (dflt min' max' : ℕ) : ℕ :=
  match value with
  | none => dflt
  | some n => (min (max' : ℤ) (max (min' : ℤ) (if 0 ≤ n then ⌊n⌋ else ⌈n⌉))).toNat

/-- A query of the log. -/
structure UnifiedLogQuery where
  sources : List LogSource
  levels : List LogLevel
  q : String
  adminId : Option AdminId
  from' : String
  to' : String
  skip : Option ℚ
  take : Option ℚ

/-- The filter of a query. -/
def UnifiedLogQuery.filter (query : UnifiedLogQuery) : SourceFilter where
  q := trim query.q
  levels := if query.levels.isEmpty then LOG_LEVELS else query.levels
  adminId := query.adminId
  from' := query.from'
  to' := query.to'

/-- The sources that a query wants. -/
def UnifiedLogQuery.wanted (query : UnifiedLogQuery) : List LogSource :=
  if query.sources.isEmpty then LOG_SOURCES else query.sources

/-- A page of the log. -/
structure UnifiedLogPage where
  items : List UnifiedLogEntry
  total : ℕ
  facets : List (LogSource × ℕ)

/-- The sources that a page is read from. -/
def UnifiedLogQuery.picked (query : UnifiedLogQuery) : List LogSource :=
  LOG_SOURCES.filter fun s => query.wanted.contains s && isActive s query.filter

/-- `a.at < b.at ? 1 : a.at > b.at ? -1 : 0`: `a` does not come after `b`. -/
def laterFirst (a b : UnifiedLogEntry) : Bool := b.at' ≤ a.at'

/-- The chips of the page: the counts of all sources. -/
def facetsOf (env : LogEnv) (db : LogTables) (f : SourceFilter) : List (LogSource × ℕ) :=
  LOG_SOURCES.map fun s => (s, if isActive s f then countOf env db s f else 0)

/-- `unifiedLog`, with the rows that the database answers. -/
def unifiedLog (env : LogEnv) (db : LogTables) (query : UnifiedLogQuery)
    (answers : LogAnswers env db query.filter) (defaultTake : ℕ) : UnifiedLogPage :=
  let take := clampInt query.take defaultTake 1 5000
  let skip := clampInt query.skip 0 0 100000
  let facets := facetsOf env db query.filter
  let window := min 5000 (skip + take)
  let merged := (query.picked.flatMap fun s => fetchOf answers s window).mergeSort laterFirst
  { items := ((merged.drop skip).take take).map (patchActor db)
    total := ((facets.filter fun x => query.wanted.contains x.1).map Prod.snd).sum
    facets := facets }

end SRPanel
