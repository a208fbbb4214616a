import SRPanel.Model.Logs
import SRPanel.Lib.Prog
import Mathlib.Data.List.Sort

/-!
# Backups

The operations of `services/backup.ts` and `services/backupOps.ts`: dumps of the database in a
directory, the rows that name them, retention, housekeeping and the replay of a dump. What
`pg_dump`, `psql` and `gunzip` do is a parameter.
-/

namespace SRPanel.Backups

open Interleaving

abbrev Bytes := List ℕ

/-- A dump in the backup directory. -/
structure DumpFile where
  bytes : Bytes
  mtime : ℤ

/-- `BackupMeta`: the sidecar of a dump. -/
structure BackupMeta where
  sha256 : String
  sizeBytes : ℕ
  createdAt : ℤ
  trigger : String
  tables : ℕ
  copyBlocks : ℕ
  lastCheckAt : Option ℤ
  lastCheckOk : Option Bool

/-- `BackupCheck`. -/
structure BackupCheck where
  fileName : String
  ok : Bool
  sizeBytes : ℕ
  sha256 : String
  tables : ℕ
  copyBlocks : ℕ
  gzipOk : Bool
  /-- `none` if there is no stored checksum to compare with -/
  sha256Match : Option Bool
  error : Option String

/-- `BackupSettings`, as far as runs go by it. -/
structure BackupSettings where
  keepLast : ℕ
  keepDays : ℕ
  verify : Bool
  autoCleanup : Bool
  sendToTelegram : Bool

/-- `TelegramSettings`, as far as backups go by it. -/
structure BackupTelegram where
  enabled : Bool
  notifyBackups : Bool
  botToken : String
  chatId : String

/-- A time in the zone of the server. -/
structure LocalTime where
  year : ℕ
  month : ℕ
  day : ℕ
  hours : ℕ
  minutes : ℕ

/-- What the stream through `gunzip` finds: the landmarks of SQL, and an error if it does not
decompress. -/
structure DumpScan where
  tables : ℕ
  copyBlocks : ℕ
  error : Option String

/-- What the backups use besides their rows and files. -/
structure BackupEnv where
  /-- `DATABASE_URL` -/
  databaseUrl : String
  localTime : ℤ → LocalTime
  /-- what `pg_dump | gzip` writes, and its error if it fails -/
  pgDump : List Backup → Bytes × Option String
  /-- the rows of backups after `gunzip | psql` has replayed a dump, and its error if it fails -/
  psql : Bytes → List Backup → List Backup × Option String
  scan : Bytes → DumpScan
  sha256 : Bytes → String
  /-- `tgSendDocument` succeeds -/
  sendDocument : Bytes → Bool

/-- A replay of a dump, with the content that its check was about, and what the check found. -/
structure Replay where
  fileName : String
  verified : Bytes
  check : BackupCheck
  replayed : Bytes

/-- The backups of a panel. -/
structure BackupStore where
  now : ℤ
  nextId : ℕ
  /-- `state` -/
  running : Bool
  restoring : Bool
  rows : List Backup
  files : Table String DumpFile
  metas : Table String BackupMeta
  settings : BackupSettings
  telegram : BackupTelegram
  env : BackupEnv
  /-- what the run of a row has dumped -/
  dumped : Table ℕ Bytes
  replays : List Replay

abbrev BackupTask := Prog Unit BackupStore AppError

/-- An exception without a status. -/
def plainError (message : String) : AppError := ⟨message, 500, "error"⟩

/-! ## Names -/

def DUMP_EXT : String := ".sql.gz"

/-- `s.endsWith(suffix)`. -/
def endsWith (suffix s : String) : Bool := suffix.toList.isSuffixOf s.toList

/-- `safeName`: `/^[a-zA-Z0-9._-]+$/`. -/
def isSafeName (s : String) : Bool :=
  s ≠ "" && s.toList.all fun c => c.isAlphanum || c = '.' || c = '_' || c = '-'

/-- `padStart(2, "0")`. -/
def pad2 (n : ℕ) : String := if n < 10 then "0" ++ toString n else toString n

/-- `stamp`: the local time down to the minute. -/
def stamp (t : LocalTime) : String :=
  toString t.year ++ pad2 t.month ++ pad2 t.day ++ "-" ++ pad2 t.hours ++ pad2 t.minutes

/-- `(process.env.DATABASE_URL || "").replace(/\?.*$/, "")`. -/
def withoutQuery (url : String) : String := .ofList (url.toList.takeWhile (· ≠ '?'))

namespace BackupStore

/-- The name of a dump that begins now. -/
def dumpName (s : BackupStore) : String := "srpanel-" ++ stamp (s.env.localTime s.now) ++ DUMP_EXT

/-- The dumps of the backup directory. -/
def dumps (s : BackupStore) : List String := (s.files.rows.map Prod.fst).filter (endsWith DUMP_EXT)

/-- `readMeta`. -/
def readMeta (s : BackupStore) (fileName : String) : Option BackupMeta :=
  if isSafeName fileName then s.metas.get? fileName else none

/-- `inspectFile` of a file with this content. -/
def checkOf (s : BackupStore) (fileName : String) (bytes : Bytes) : BackupCheck :=
  let scan := s.env.scan bytes
  let gzipOk := scan.error.isNone
  let sha256 := if gzipOk then s.env.sha256 bytes else ""
  let sha256Match := (s.readMeta fileName).bind fun m =>
    if m.sha256 ≠ "" then some (m.sha256 == sha256) else none
  { fileName, sha256, gzipOk, sha256Match
    ok := gzipOk && decide (0 < scan.tables) && sha256Match ≠ some false
    sizeBytes := bytes.length
    tables := scan.tables
    copyBlocks := scan.copyBlocks
    error :=
      if scan.error.isSome then scan.error
      else if sha256Match = some false then some "sha256 mismatch"
      else if scan.tables = 0 then some "no CREATE TABLE statement found"
      else none }

end BackupStore

/-! ## Rows and files -/

/-- A read. -/
def look {α : Type} (f : BackupStore → α) : BackupTask α := .query () f

/-- A write that cannot be refused. -/
def change (f : BackupStore → BackupStore) : BackupTask Unit := .modify () f

/-- `prisma.backup.create`. -/
def createBackup (fileName trigger : String) : BackupTask Backup :=
  .step () fun s =>
    let row : Backup := ⟨s.nextId, s.now, .running, fileName, none, false, trigger, none, none⟩
    (.ok row, { s with nextId := s.nextId + 1, rows := s.rows ++ [row] })

/-- `prisma.backup.update`. -/
def updateBackup (id : ℕ) (f : Backup → Backup) : BackupTask Backup :=
  .step () fun s =>
    match s.rows.find? (·.id = id) with
    | none => (.error recordNotFound, s)
    | some row => (.ok (f row), { s with rows := s.rows.map fun r => if r.id = id then f r else r })

/-- `unlink` of a dump and of its sidecar; a file that is not there is passed over. -/
def unlinkDump (fileName : String) : BackupTask Unit :=
  change fun s => { s with files := s.files.erase fileName, metas := s.metas.erase fileName }

/-- `writeMeta`. -/
def writeMeta (fileName : String) (m : BackupMeta) : BackupTask Unit :=
  change fun s => { s with metas := s.metas.set fileName m }

/-- `pgDumpToGzip`, for the run of a row: a run that fails leaves a file, too. -/
def pgDumpToGzip (row : Backup) : BackupTask Bytes :=
  .step () fun s =>
    let out := s.env.pgDump s.rows
    let s' := { s with files := s.files.set row.fileName ⟨out.1, s.now⟩ }
    match out.2 with
    | some e => (.error (plainError e), s')
    | none => (.ok out.1, { s' with dumped := s.dumped.set row.id out.1 })

/-- `inspectFile`. -/
def inspectFile (fileName : String) : BackupTask BackupCheck := do
  let s ← look id
  match s.files.get? fileName with
  | none => throw (plainError "ENOENT")
  | some file => pure (s.checkOf fileName file.bytes)

/-- `backupFilePath`. -/
def backupFilePath (id : ℕ) : BackupTask Backup := do
  let s ← look fun s => s
  match s.rows.find? (·.id = id) with
  | none => throw (notFoundError "بکاپ پیدا نشد")
  | some b =>
      if b.status ≠ .ok || !isSafeName b.fileName then throw (notFoundError "بکاپ پیدا نشد")
      else if (s.files.get? b.fileName).isNone then
        throw (notFoundError "فایل بکاپ روی دیسک موجود نیست")
      else pure b

/-! ## Retention and housekeeping -/

/-- `deleteBackup`. -/
def deleteBackup (id : ℕ) : BackupTask Unit := do
  let found ← look fun s => s.rows.find? (·.id = id)
  match found with
  | none => throw (notFoundError "بکاپ پیدا نشد")
  | some b => do
      if isSafeName b.fileName then unlinkDump b.fileName else pure ()
      change fun s => { s with rows := s.rows.filter (·.id ≠ id) }

/-- Old failures are dropped after thirty days. -/
def dropOldFailures : BackupTask Unit :=
  change fun s => { s with rows := s.rows.filter fun r =>
    !(r.status = .failed && r.at' < s.now - 30 * 86400000) }

/-- The loop of `applyRetention` over the backups that are in order, from the index `i` on. -/
def retain (s : BackupSettings) (protect : List ℕ) (cutoff : ℤ) : (i : ℕ) → List Backup →
    BackupTask Unit
  | _, [] => pure ()
  | i, b :: rest => do
      if i = 0 || b.id ∈ protect then pure ()
      else if s.keepLast ≤ i || (0 < cutoff && b.at' < cutoff) then
        (deleteBackup b.id).attempt fun _ => pure ()
      else pure ()
      retain s protect cutoff (i + 1) rest

/-- `applyRetention`. -/
def applyRetention (s : BackupSettings) (protectIds : List ℕ) : BackupTask Unit := do
  let ok ← look fun t => (t.rows.filter (·.status = .ok)).insertionSort fun a b => b.at' ≤ a.at'
  let now ← look BackupStore.now
  retain s protectIds (if 0 < s.keepDays then now - s.keepDays * 86400000 else 0) 0 ok
  dropOldFailures

/-- `cleanupBackups`: runs that were interrupted, rows without a file, old failures, sidecars
without a dump. -/
def cleanupBackups : BackupTask Unit := do
  let dumps ← look BackupStore.dumps
  change fun s => { s with rows := s.rows.map fun r =>
    if r.status = .running && r.at' < s.now - 6 * 3600000 then
      { r with status := .failed, error := some "interrupted", finishedAt := some s.now }
    else r }
  change fun s => { s with rows := s.rows.filter fun r => !(r.status = .ok && r.fileName ∉ dumps) }
  dropOldFailures
  change fun s => { s with metas := s.metas.keep (· ∈ dumps) }

/-- The row for a dump that has none. -/
def BackupStore.importedRow (s : BackupStore) (fileName : String) (file : DumpFile) : Backup where
  id := s.nextId
  at' := ((s.readMeta fileName).map BackupMeta.createdAt).getD file.mtime
  status := .ok
  fileName := fileName
  sizeBytes := some file.bytes.length
  sentToTelegram := false
  trigger := "imported"
  error := none
  finishedAt := some file.mtime

/-- The loop of `reindexBackups`, which counts the rows that it adds. -/
def importDumps (known : List String) : List String → (imported : ℕ) → BackupTask ℕ
  | [], imported => pure imported
  | f :: rest, imported =>
      if f ∈ known then importDumps known rest imported
      else do
        let added ← .step () fun s =>
          match s.files.get? f with
          | none => (.ok 0, s)
          | some file => (.ok 1, { s with nextId := s.nextId + 1, rows := s.rows ++
            [s.importedRow f file] })
        importDumps known rest (imported + added)

/-- `reindexBackups`. -/
def reindexBackups : BackupTask ℕ := do
  let dumps ← look fun s => s.dumps.filter isSafeName
  let known ← look fun s => s.rows.map Backup.fileName
  importDumps known dumps 0

/-! ## Runs -/

/-- The sidecar of a new dump. -/
def newMeta (s : BackupStore) (bytes : Bytes) (trigger : String) (check : Option BackupCheck) :
    BackupMeta where
  sha256 := s.env.sha256 bytes
  sizeBytes := bytes.length
  createdAt := s.now
  trigger := trigger
  tables := (check.map BackupCheck.tables).getD 0
  copyBlocks := (check.map BackupCheck.copyBlocks).getD 0
  lastCheckAt := check.map fun _ => s.now
  lastCheckOk := check.map BackupCheck.ok

/-- The dump goes to the chat of the owner. -/
def BackupStore.sends (s : BackupStore) (bytes : Bytes) : Bool :=
  s.settings.sendToTelegram && s.telegram.enabled && s.telegram.notifyBackups &&
    s.telegram.botToken ≠ "" && s.telegram.chatId ≠ "" && s.env.sendDocument bytes

/-- The check of a new dump, if the settings ask for it. -/
def verifyDump (verify : Bool) (fileName : String) : BackupTask (Option BackupCheck) :=
  if verify then do
    let check ← inspectFile fileName
    if !check.ok then throw (plainError
      ("verify failed: " ++ (check.error.bind orNull).getD "invalid dump"))
    else pure (some check)
  else pure none

/-- The run of a row, inside the `try` of `runBackup`. -/
def dumpRow (row : Backup) (trigger : String) (protectIds : List ℕ) : BackupTask Backup := do
  let url ← look fun s => withoutQuery s.env.databaseUrl
  if url = "" then throw (plainError "DATABASE_URL not set")
  else do
    let bytes ← pgDumpToGzip row
    let bs ← look BackupStore.settings
    let check ← verifyDump bs.verify row.fileName
    let m ← look fun s => newMeta s bytes trigger check
    writeMeta row.fileName m
    let sent ← look fun s => s.sends bytes
    let now ← look BackupStore.now
    let done ← updateBackup row.id fun r =>
      { r with status := .ok, sizeBytes := some bytes.length, sentToTelegram := sent, finishedAt := some now }
    applyRetention bs (row.id :: protectIds)
    if bs.autoCleanup then cleanupBackups else pure ()
    pure done

/-- The `catch` of `runBackup`. -/
def failRow (row : Backup) (e : AppError) : BackupTask Backup := do
  unlinkDump row.fileName
  let now ← look BackupStore.now
  updateBackup row.id fun r =>
    { r with status := .failed, error := some (sliceTo 1000 e.message), finishedAt := some now }

/-- `runBackup`. -/
def runBackup (trigger : String) (protectIds : List ℕ) : BackupTask Backup := do
  let s ← look fun s => s
  if s.running then throw (plainError "backup already running")
  else if s.restoring then throw (plainError "restore in progress")
  else do
    change fun s => { s with running := true }
    let row ← createBackup s.dumpName trigger
    let done ← ((dumpRow row trigger protectIds).attempt (failRow row)).attempt fun e => do
      change fun s => { s with running := false }
      throw e
    change fun s => { s with running := false }
    pure done

/-! ## Restore -/

/-- `RestoreResult`. -/
structure RestoreResult where
  fileName : String
  safetyBackupId : Option ℕ
  imported : ℕ

/-- `psqlRestore`, of the file whose content was `verified`. -/
def psqlRestore (fileName : String) (verified : Bytes) (check : BackupCheck) : BackupTask Unit :=
  .step () fun s =>
    match s.files.get? fileName with
    | none => (.error (plainError "ENOENT"), s)
    | some file =>
        let out := s.env.psql file.bytes s.rows
        let s' := { s with rows := out.1, replays := ⟨fileName, verified, check,
          file.bytes⟩ :: s.replays }
        match out.2 with
        | some e => (.error (plainError e), s')
        | none => (.ok (), s')

/-- The safety backup before a restore, if it is wanted. -/
def safetyRun (id : ℕ) (safetyBackup : Bool) : BackupTask (Option ℕ) :=
  if safetyBackup then do
    let safety ← runBackup "pre-restore" [id]
    if safety.status ≠ .ok then
      throw ⟨trim ("بکاپ ایمنی پیش از بازگردانی ناموفق بود: " ++ safety.error.getD ""), 500,
        "safety_failed"⟩
    else pure (some safety.id)
  else pure none

/-- The part of `restoreBackup` after the check and the safety backup. -/
def replay (fileName : String) (verified : Bytes) (check : BackupCheck)
    (safetyBackupId : Option ℕ) : BackupTask RestoreResult := do
  change fun s => { s with restoring := true }
  (psqlRestore fileName verified check).attempt fun e => do
    change fun s => { s with restoring := false }
    throw ⟨"بازگردانی ناموفق بود: " ++ sliceTo 300 e.message, 500, "restore_failed"⟩
  change fun s => { s with restoring := false }
  let imported ← reindexBackups
  pure ⟨fileName, safetyBackupId, imported⟩

/-- `restoreBackup`. -/
def restoreBackup (id : ℕ) (confirmFileName : String) (safetyBackup : Bool) :
    BackupTask RestoreResult := do
  let s ← look fun s => s
  if s.restoring then throw ⟨"یک بازگردانی در جریان است", 409, "restore_running"⟩
  else if s.running then throw ⟨"بکاپ‌گیری در جریان است؛ پس از پایان آن دوباره تلاش کنید", 409,
    "backup_running"⟩
  else do
    let backup ← backupFilePath id
    if trim confirmFileName ≠ backup.fileName then
      throw ⟨"نام فایل واردشده با بکاپ انتخابی یکسان نیست", 400, "confirm_mismatch"⟩
    else if withoutQuery s.env.databaseUrl = "" then throw ⟨"DATABASE_URL تنظیم نشده است", 500,
      "no_database_url"⟩
    else do
      let verified ← look fun s => ((s.files.get? backup.fileName).map DumpFile.bytes).getD []
      let check ← inspectFile backup.fileName
      if !check.ok then
        throw ⟨"این بکاپ سالم نیست و بازگردانی نشد: " ++
          (check.error.bind orNull).getD "invalid dump", 400, "backup_invalid"⟩
      else do
        let safetyBackupId ← safetyRun id safetyBackup
        replay backup.fileName verified check safetyBackupId

end SRPanel.Backups
