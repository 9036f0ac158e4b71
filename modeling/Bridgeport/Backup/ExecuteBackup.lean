import Bridgeport.Backup.Rotation
import Bridgeport.Foundation.TextScan
import Bridgeport.Foundation.Threads

/-!
# The execution of a backup

`services/database-backup.ts` executes a backup in the background: it sets the row to in progress,
connects, dumps, uploads, and sets the row to completed, or to failed from the `catch` block of
`executeBackup`. `markStuckBackupsFailed` is the sweep of the scheduler, which gives up the rows
that have been in progress for too long.

What a stage throws becomes a `BackupError` with the stage's step (`atStep`). Timestamps, durations
and logs are left out; so are the contents of the dumps.
-/

namespace Bridgeport.Backup

open Foundation Program

/-- `backupStorageType`. -/
inductive StorageType
  | local
  | spaces
  deriving DecidableEq

/-- `backupFormat`. -/
inductive BackupFormat
  | plain
  | custom
  | tar
  deriving DecidableEq

/-- `backupCompression`. -/
inductive BackupCompression
  | none
  | gzip
  deriving DecidableEq

structure PgDumpOptions where
  (noOwner clean ifExists schemaOnly dataOnly : Bool)

/-- What `executeBackup` reads of a database, its server and its type. -/
structure Database where
  (id name type : String)
  host : Option String
  port : Option ℕ
  (databaseName encryptedCredentials credentialsNonce filePath serverHostname backupCommand
    : Option String)
  backupStorageType : StorageType
  backupSpacesBucket : Option String
  backupFormat : BackupFormat
  backupCompression : BackupCompression
  backupCompressionLevel : ℕ
  pgOpts : PgDumpOptions
  pgDumpTimeoutMs : ℕ
  environmentId : String

/-- What `executeBackup` reads of a backup row. -/
structure BackupWithDatabase where
  (id storagePath : String)
  database : Database

/-- `BackupStep`. -/
inductive BackupStep
  | connect
  | dump
  | upload

structure BackupError where
  message : String
  step : BackupStep
  stderr : Option String
  exitCode : Option ℤ

inductive BackupUpdate
  | inProgress
  | progress (percent : ℕ)
  | completed (size : ℕ)
  | failed (error : BackupError)

def BackupUpdate.status : BackupUpdate → Option BackupStatus
  | .inProgress => some .inProgress
  | .progress _ => none
  | .completed _ => some .completed
  | .failed _ => some .failed

/-- What the sweep reads of a backup that is in progress. -/
structure InProgressBackup where
  id : String
  (createdAt pgDumpTimeoutMs : ℕ)

/-- `CommandClient`. -/
inductive Client
  | local
  | ssh (hostname username privateKey : String)
  deriving DecidableEq

/-- `LocalExecOptions`. -/
structure ExecOptions where
  env : List (String × String)
  timeout : ℕ

/-- `SSHExecResult`. -/
structure ExecResult where
  (stdout stderr : String)
  code : ℤ

/-- The result of `getEnvironmentSshKey`. -/
structure SshCredentials where
  (privateKey username : String)

/-- The result of `getEnvironmentSpacesConfig`. -/
structure SpacesConfig where
  (endpoint region accessKey secretKey : String)

/-- `NOTIFICATION_TYPES` of a backup. -/
inductive BackupNotification
  | success (databaseName : String)
  | failed (databaseName error : String) (step : BackupStep)

inductive Call
  | updateBackup (id : String) (data : BackupUpdate)
  | decrypt (ciphertext nonce : String)
  | getEnvironmentSshKey (environmentId : String)
  | getEnvironmentSpacesConfig (environmentId : String)
  | connect (client : Client)
  | exec (client : Client) (command : String) (options : Option ExecOptions)
  | disconnect (client : Client)
  | writeFile (path base64 : String)
  | readFile (path : String)
  | putObject (config : SpacesConfig) (bucket key content contentType : String)
  | unlink (path : String)
  | sendSystemNotification (environmentId : String) (notification : BackupNotification)
  | emitWebhookEvent (event environmentId backupId : String) (error : Option String)
  | now
  | getSystemSettings
  | findInProgress
  | markFailed (id : String)

abbrev Answer : Call → Type
  | .updateBackup _ _ => BackupWithDatabase
  | .decrypt _ _ => String
  | .getEnvironmentSshKey _ => Option SshCredentials
  | .getEnvironmentSpacesConfig _ => Option SpacesConfig
  | .connect _ => Unit
  | .exec _ _ _ => ExecResult
  | .disconnect _ => Unit
  | .writeFile _ _ => Unit
  | .readFile _ => String
  | .putObject _ _ _ _ _ => Unit
  | .unlink _ => Unit
  | .sendSystemNotification _ _ => Unit
  | .emitWebhookEvent _ _ _ _ => Unit
  | .now => ℕ
  | .getSystemSettings => ℕ
  | .findInProgress => List InProgressBackup
  | .markFailed _ => ℕ

abbrev Async := Program Answer

abbrev await (request : Call) : Async (Answer request) := perform request

/-- `value || fallback` for a text that may be missing. -/
def orElse (value : Option String) (fallback : String) : String :=
  (value.filter (· ≠ "")).getD fallback

/-- `value || fallback` for a number. -/
def orNumber (value fallback : ℕ) : ℕ :=
  if value = 0 then fallback else value

def apostrophe : String := String.singleton (Char.ofNat 39)

def shellEscape (value : String) : String :=
  let escaped := replaceAll apostrophe.toList
    (apostrophe ++ "\\" ++ apostrophe ++ apostrophe).toList value.toList
  apostrophe ++ String.ofList escaped ++ apostrophe

/-- `text.includes(part)`. -/
def includes (text part : String) : Prop :=
  part.toList <:+: text.toList

instance (text part : String) : Decidable (includes text part) :=
  inferInstanceAs (Decidable (_ <:+: _))

/-- `isLocalhost`; the addresses of the host gateway are not among the names compared with. -/
def isLocalhost (hostname : String) : Bool :=
  hostname = "127.0.0.1" || hostname = "localhost" || hostname = "::1"

/-- The characters `\w`. -/
def isWordCharacter (character : Char) : Bool :=
  character.isAlphanum || character = '_'

/-- A variable in double braces at the front of a text, with its escaped value. -/
def recogniseVariable (vars : List (String × String)) : List Char → Option (List Char × ℕ)
  | '{' :: '{' :: rest =>
    let key := rest.takeWhile isWordCharacter
    if key ≠ [] ∧ ['}', '}'] <+: rest.drop key.length then
      some ((shellEscape ((vars.lookup (String.ofList key)).getD "")).toList, key.length + 4)
    else none
  | _ => none

/-- The backup command of a database type with its variables substituted. -/
def substituteTemplate (template : String) (vars : List (String × String)) : String :=
  String.ofList (scan (recogniseVariable vars) (fun character ↦ [character]) template.toList).flatten

variable (db : Database)

def tempExtension : String :=
  let extension := match db.backupFormat with
    | .plain => ".sql"
    | .custom => ".dump"
    | .tar => ".tar"
  if db.backupCompression = .gzip ∧ db.backupFormat = .plain then extension ++ ".gz" else extension

/-- The `pg_dump` command. -/
def pgDumpCommand (username targetPath : String) : String :=
  let format := match db.backupFormat with
    | .custom => "-Fc"
    | .tar => "-Ft"
    | .plain => "-Fp"
  let options := [(db.pgOpts.noOwner, "--no-owner"), (db.pgOpts.clean, "--clean"),
    (db.pgOpts.ifExists, "--if-exists"), (db.pgOpts.schemaOnly, "--schema-only"),
    (db.pgOpts.dataOnly, "--data-only")]
  let output :=
    if db.backupCompression = .gzip ∧ db.backupFormat = .plain then
      "| gzip -" ++ toString db.backupCompressionLevel ++ " > " ++ shellEscape targetPath
    else "-f " ++ shellEscape targetPath
  " ".intercalate (["pg_dump", "--no-password", format] ++
    (options.filter Prod.fst).map Prod.snd ++
    ["-h " ++ shellEscape (db.host.getD ""),
      "-p " ++ toString (orNumber (db.port.getD 0) 5432),
      "-U " ++ shellEscape username,
      "-d " ++ shellEscape (db.databaseName.getD "null"), output]) ++ " 2>&1"

/-- The SQLite dump command; `sqlite3` would create a missing database file. -/
def sqliteDumpCommand (filePath dumpPath : String) : String :=
  let file := shellEscape filePath
  let compress :=
    if db.backupCompression = .gzip then " | gzip -" ++ toString db.backupCompressionLevel else ""
  "test -f " ++ file ++ " && sqlite3 " ++ file ++ " \".dump\"" ++ compress ++ " > " ++
    shellEscape dumpPath ++ " || (echo \"Database file not found:\" " ++ file ++ " >&2 && exit 1)"

def directoryOf (path : String) : String :=
  String.ofList ((path.toList.reverse.dropWhile (· ≠ '/')).drop 1).reverse

/-- `parseInt(text.trim()) || 0` of the output of `stat`. -/
def parseSize (text : String) : ℕ :=
  (String.ofList ((text.toList.dropWhile Char.isWhitespace).takeWhile Char.isDigit)).toNat?.getD 0

def contentTypeOf : String :=
  match db.backupFormat, db.backupCompression with
  | .custom, _ => "application/octet-stream"
  | .tar, _ => "application/x-tar"
  | .plain, .gzip => "application/gzip"
  | .plain, .none => "application/sql"

variable {α β : Type}

/-- What a stage throws, as an error with the current step; an error that has a step already is
kept. -/
def atStep (step : BackupStep) (program : Async (Except BackupError α)) :
    Async (Except BackupError α) :=
  program.tryCatch fun message ↦ pure (.error ⟨message, step, none, none⟩)

/-- The next stage of the `try` block. -/
def andThen (program : Async (Except BackupError α)) (next : α → Async (Except BackupError β)) :
    Async (Except BackupError β) := do
  let result ← program
  match result with
  | .ok value => next value
  | .error error => pure (.error error)

/-- A client with the dump command that it will run. -/
structure Connection where
  client : Client
  dumpCommand : String
  execOptions : Option ExecOptions
  sqliteServerTempPath : Option String

def clientOf (environmentId : String) (hostname : Option String) : Async Client :=
  match hostname with
  | none => pure .local
  | some hostname =>
    if isLocalhost hostname then pure .local
    else do
      let sshCreds ← await (.getEnvironmentSshKey environmentId)
      match sshCreds with
      | none => throw "SSH key not configured for this environment"
      | some creds => pure (.ssh hostname creds.username creds.privateKey)

/-- The user name and the password of a database. -/
def credentialsOf : Async (String × String) :=
  match db.encryptedCredentials.filter (· ≠ ""), db.credentialsNonce.filter (· ≠ "") with
  | some ciphertext, some nonce => do
    let creds ← await (.decrypt ciphertext nonce)
    let parts := creds.splitOn ":"
    pure (parts.getD 0 "", parts.getD 1 "")
  | _, _ => pure ("", "")

/-- `DEFAULT_PG_DUMP_TIMEOUT_MS`. -/
def defaultPgDumpTimeoutMs : ℕ := 300000

/-- The environment and the timeout of `pg_dump`. -/
def pgOptions (password : String) : ExecOptions :=
  ⟨[("PGPASSWORD", password), ("PGSSLMODE", "require")],
    orNumber db.pgDumpTimeoutMs defaultPgDumpTimeoutMs⟩

variable (backupId : String)

/-- The dump command of a database and the client that runs it. -/
def prepareDump (db : Database) (useSpaces : Bool) (targetPath : String) : Async Connection := do
  let (username, password) ← credentialsOf db
  match db.backupCommand.filter (· ≠ "") with
  | some template =>
    let vars := [("host", orElse db.host "localhost"),
      ("port", if db.port.getD 0 = 0 then "" else toString (db.port.getD 0)),
      ("databaseName", orElse db.databaseName ""), ("username", username), ("password", password),
      ("filePath", orElse db.filePath ""), ("outputFile", targetPath)]
    let dumpCommand := substituteTemplate template vars
    let client ← clientOf db.environmentId db.serverHostname
    let postgres := db.type = "postgres" ∨ includes dumpCommand "pg_dump" ∨ includes dumpCommand "psql"
    let execOptions := if password ≠ "" ∧ postgres then some (pgOptions db password) else none
    pure ⟨client, dumpCommand, execOptions, none⟩
  | none =>
    if db.type = "postgres" ∧ orElse db.host "" ≠ "" then
      pure ⟨.local, pgDumpCommand db username targetPath, some (pgOptions db password), none⟩
    else if db.type = "sqlite" ∧ orElse db.filePath "" ≠ "" then
      match db.serverHostname with
      | none => throw "SQLite databases require a server to be configured"
      | some hostname => do
        let client ← clientOf db.environmentId (some hostname)
        let serverTempPath :=
          if useSpaces then some ("/tmp/backup-" ++ backupId ++ tempExtension db) else none
        let dumpCommand := sqliteDumpCommand db (orElse db.filePath "")
          (serverTempPath.getD targetPath)
        pure ⟨client, dumpCommand, none, serverTempPath⟩
    else throw ("Unsupported database type or missing configuration: " ++ db.type)

def connectStage (db : Database) (useSpaces : Bool) (targetPath : String) :
    Async (Except BackupError Connection) := do
  let connection ← prepareDump backupId db useSpaces targetPath
  await (.connect connection.client)
  pure (.ok connection)

variable (connection : Connection)

def downloadDump (serverTempPath tempPath : String) : Async Unit :=
  if connection.client = .local ∧ serverTempPath = tempPath then pure ()
  else do
    let download ← await (.exec connection.client ("cat " ++ shellEscape serverTempPath ++
      " | base64") none)
    if download.code ≠ 0 then throw ("Failed to download backup from server: " ++ download.stderr)
    else do
      await (.writeFile tempPath download.stdout.trimAscii.toString)
      let _ ← await (.exec connection.client ("rm -f " ++ shellEscape serverTempPath) none)
      pure ()

/-- The file for the upload, when the dump has been written on the server. -/
def fetchDump (tempPath : Option String) : Async Unit :=
  match connection.sqliteServerTempPath, tempPath with
  | some serverTempPath, some temp => downloadDump connection serverTempPath temp
  | _, _ => pure ()

/-- What follows a dump that has succeeded: its size, and the file for the upload. -/
def collectDump (targetPath : String) (tempPath : Option String) : Async ℕ := do
  let _ ← await (.updateBackup backupId (.progress 70))
  let path := shellEscape (orElse connection.sqliteServerTempPath targetPath)
  let sizeResult ← await (.exec connection.client
    ("stat -c %s " ++ path ++ " 2>/dev/null || stat -f %z " ++ path) none)
  fetchDump connection tempPath
  await (.disconnect connection.client)
  pure (parseSize sizeResult.stdout)

def dumpStage (targetPath : String) (tempPath : Option String) : Async (Except BackupError ℕ) := do
  let _ ← await (.updateBackup backupId (.progress 30))
  when tempPath.isNone do
    let _ ← await (.exec connection.client ("mkdir -p " ++ shellEscape (directoryOf targetPath)) none)
    pure ()
  let result ← await (.exec connection.client connection.dumpCommand connection.execOptions)
  if result.code ≠ 0 then
    let errorOutput := orElse (some result.stdout)
      (orElse (some result.stderr) "Backup command failed (no output)")
    pure (.error ⟨errorOutput, .dump, some errorOutput, some result.code⟩)
  else do
    let size ← collectDump backupId connection targetPath tempPath
    pure (.ok size)

def uploadDump (storagePath : String) (db : Database) (tempPath : String) : Async Unit := do
  let _ ← await (.updateBackup backupId (.progress 80))
  let spacesConfig ← await (.getEnvironmentSpacesConfig db.environmentId)
  match spacesConfig, db.backupSpacesBucket.filter (· ≠ "") with
  | none, _ => throw ("Spaces not configured for this environment. " ++
      "Go to Settings > Spaces to configure.")
  | some _, none => throw "No Spaces bucket configured for this database"
  | some config, some bucket => do
    let fileContent ← await (.readFile tempPath)
    await (.putObject config bucket storagePath fileContent (contentTypeOf db))
    emit (.unlink tempPath)

def completeBackup (db : Database) (size : ℕ) : Async (Except BackupError Unit) := do
  let _ ← await (.updateBackup backupId (.completed size))
  emit (.sendSystemNotification db.environmentId (.success db.name))
  emit (.emitWebhookEvent "backup.completed" db.environmentId backupId none)
  pure (.ok ())

/-- The last stage, whose step is the dump unless there is an upload. -/
def finishStage (storagePath : String) (db : Database) (tempPath : Option String) (size : ℕ) :
    Async (Except BackupError Unit) :=
  match tempPath with
  | none => atStep .dump (completeBackup backupId db size)
  | some temp => atStep .upload do
    uploadDump backupId storagePath db temp
    completeBackup backupId db size

/-- The `try` block of `executeBackup`. -/
def runBackup (backup : BackupWithDatabase) (backupId : String) (tempPath : Option String) :
    Async (Except BackupError Unit) :=
  let db := backup.database
  let targetPath := orElse tempPath backup.storagePath
  andThen (atStep .connect (connectStage backupId db tempPath.isSome targetPath)) fun connection ↦
    andThen (atStep .dump (dumpStage backupId connection targetPath tempPath)) fun size ↦
      finishStage backupId backup.storagePath db tempPath size

/-- The temporary file is removed, if there is one. -/
def unlinkTemp (tempPath : Option String) : Async Unit :=
  match tempPath with
  | some temp => emit (.unlink temp)
  | none => pure ()

/-- The `catch` block of `executeBackup`. -/
def failBackup (db : Database) (tempPath : Option String) (error : BackupError) : Async Unit := do
  unlinkTemp tempPath
  let _ ← await (.updateBackup backupId (.failed error))
  emit (.sendSystemNotification db.environmentId (.failed db.name error.message error.step))
  emit (.emitWebhookEvent "backup.failed" db.environmentId backupId (some error.message))
  throw error.message

def executeBackup (tmpdir backupId : String) : Async Unit := do
  let backup ← await (.updateBackup backupId .inProgress)
  let db := backup.database
  let tempPath :=
    if db.backupStorageType = .spaces then
      some (tmpdir ++ "/backup-" ++ backupId ++ tempExtension db)
    else none
  let result ← runBackup backup backupId tempPath
  match result with
  | .ok () => pure ()
  | .error error => failBackup backupId db tempPath error

/-- `STUCK_BACKUP_GRACE_MS`. -/
def stuckBackupGraceMs : ℕ := 5 * 60 * 1000

/-- `stuckAfter` of a backup. -/
def stuckAfter (fallbackTimeout : ℕ) (backup : InProgressBackup) : ℕ :=
  backup.createdAt + orNumber backup.pgDumpTimeoutMs fallbackTimeout + stuckBackupGraceMs

/-- The loop of the sweep; the update of a backup matches its row only while it is in progress. -/
def markStuck (now fallbackTimeout : ℕ) : List InProgressBackup → ℕ → Async ℕ
  | [], marked => pure marked
  | backup :: rest, marked =>
    if now ≤ stuckAfter fallbackTimeout backup then markStuck now fallbackTimeout rest marked
    else do
      let count ← await (.markFailed backup.id)
      markStuck now fallbackTimeout rest (if 0 < count then marked + 1 else marked)

def markStuckBackupsFailed : Async ℕ := do
  let now ← await .now
  let timeout ← await .getSystemSettings
  let inProgress ← await .findInProgress
  markStuck now (orNumber timeout defaultPgDumpTimeoutMs) inProgress 0

/-- A SQLite database where BRIDGEPORT runs. -/
def localDatabase : Database where
  id := "database"
  name := "app"
  type := "sqlite"
  host := none
  port := none
  databaseName := none
  encryptedCredentials := none
  credentialsNonce := none
  filePath := some "/data/app.db"
  serverHostname := some "localhost"
  backupCommand := none
  backupStorageType := .local
  backupSpacesBucket := none
  backupFormat := .plain
  backupCompression := .none
  backupCompressionLevel := 6
  pgOpts := ⟨false, false, false, false, false⟩
  pgDumpTimeoutMs := 300000
  environmentId := "production"

end Bridgeport.Backup
