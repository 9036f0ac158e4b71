import Bridgeport.Backup.DumpScripts
import Bridgeport.Backup.TerminalStatus
import Bridgeport.Foundation.Interpretation

/-!
# Whole backups

An execution runs its commands in a shell, against programs that do whatever they do. It sets its
backup to completed only when the dump program has ended with status 0 and the place of the backup
holds its output (`CompletesWhole`), as long as nothing stands between the dump program and the
status that `executeBackup` looks at (`Unpiped`): the dump is not piped through `gzip`, the file of
a SQLite database need not be fetched for an upload, a template is one program that writes to the
target, and the server that the dump runs on does not lose the status of a command.
-/

namespace Bridgeport.Backup.Dumps

open Foundation Program Shell List Option Function

/-! ### The world of an execution -/

/-- The files of the machines and the objects of the buckets, what the commands to come do, and the
programs that have run. -/
structure World (Host : Type) where
  files : Host → Files
  objects : String → String → String → Option String
  pending : List Result
  runs : List ProgramRun

variable {Host : Type} [DecidableEq Host]

/-- The world after the next command, which runs on a machine. -/
def World.executed (machine : Host) (world : World Host) : World Host :=
  match world.pending with
  | [] => world
  | result :: rest =>
    { world with
      files := Function.update world.files machine result.files
      pending := rest
      runs := world.runs ++ result.runs }

def World.withFile (machine : Host) (path : String) (content : Option String) (world : World Host) :
    World Host :=
  { world with
    files := Function.update world.files machine
      (Function.update (world.files machine) path content) }

def World.withObject (endpoint bucket key content : String) (world : World Host) : World Host :=
  { world with
    objects := fun place name path ↦
      if place = endpoint ∧ name = bucket ∧ path = key then some content
      else world.objects place name path }

/-- Where commands run, how the shell reads them, what programs can do, how base64 is decoded, and
which servers can lose the status of a command: it is killed, or its channel is closed. -/
structure Setting (Host : Type) where
  sites : Sites Host
  shell : String → Script
  programs : Programs
  decode : String → String
  gzip : ℕ → String → String
  losesStatus : String → Prop

variable (setting : Setting Host) (backup : BackupWithDatabase)

/-- What the calls answer, and leave. `SSHClient.exec` answers 0 where there is no status. -/
def semantics : Semantics Answer (World Host) where
  allows world event :=
    match event with
    | ⟨.updateBackup _ .inProgress, .ok row⟩ => row = backup
    | ⟨.exec client command _, .ok answer⟩ => ∃ result rest, world.pending = result :: rest ∧
        Runs setting.programs.can (setting.shell command) ""
          (world.files (setting.sites.machine client.host)) result ∧
        (answer = ⟨result.stdout, result.stderr, result.status⟩ ∨
          answer.code = 0 ∧ ∃ hostname ∈ client.host, setting.losesStatus hostname)
    | ⟨.readFile path, .ok content⟩ =>
      world.files (setting.sites.machine none) path = some content
    | ⟨.getEnvironmentSpacesConfig id, .ok (some config)⟩ =>
      config.endpoint = setting.sites.endpoint id
    | _ => True
  after world event :=
    match event with
    | ⟨.exec client _ _, _⟩ => world.executed (setting.sites.machine client.host)
    | ⟨.writeFile path base64, .ok _⟩ =>
      world.withFile (setting.sites.machine none) path (some (setting.decode base64))
    | ⟨.putObject config bucket key content _, .ok _⟩ =>
      world.withObject config.endpoint bucket key content
    | ⟨.unlink path, .ok _⟩ => world.withFile (setting.sites.machine none) path none
    | _ => world

variable (db : Database)

/-- `pg_dump` dumps the database. -/
def runsPgDump : Prop :=
  db.backupCommand.filter (· ≠ "") = none ∧ db.type = "postgres" ∧ orElse db.host "" ≠ ""

instance : Decidable (runsPgDump db) :=
  inferInstanceAs (Decidable (_ ∧ _))

/-- The output of the dump program is to be compressed by `gzip`. -/
def compressed : Prop :=
  db.backupCompression = .gzip ∧ (runsPgDump db ∧ db.backupFormat = .plain ∨ dumpsOnServer db)

instance : Decidable (compressed db) :=
  inferInstanceAs (Decidable (_ ∧ _))

def stored (backupId : String) (world : World Host) : Option String :=
  match writerPlace setting.sites backupId backup.storagePath backup.database with
  | some (.file machine path) => world.files machine path
  | some (.object endpoint bucket key) => world.objects endpoint bucket key
  | none => none

/-- The dump program has ended with status 0, and its output, compressed where that is configured,
is at the place of the backup. -/
def Whole (backupId : String) (world : World Host) : Prop :=
  ∃ content, Dumped backup.database world.runs content ∧
    stored setting backup backupId world = some (if compressed backup.database then
      setting.gzip backup.database.backupCompressionLevel content else content)

/-- The call sets a backup to completed. -/
def Completing (request : Call) : Prop :=
  match request with
  | .updateBackup _ (.completed _) => True
  | _ => False

/-- The execution sets the backup to completed only when it is whole, whatever the commands do. -/
def CompletesWhole (tmpdir backupId : String) : Prop :=
  ∀ (files : Host → Files) (objects : String → String → String → Option String)
    (pending : List Result) (log before after : List (Event Answer)) (event : Event Answer)
    (outcome : Option (Except String Unit)),
    Traces (executeBackup tmpdir backupId) log outcome →
    (semantics setting backup).Consistent ⟨files, objects, pending, []⟩ log →
    log = before ++ event :: after → Completing event.call →
      Whole setting backup backupId ((semantics setting backup).final ⟨files, objects, pending, []⟩
        before)

def tempPath (tmpdir backupId : String) : Option String :=
  if backup.database.backupStorageType = .spaces then
    some (tmpdir ++ "/backup-" ++ backupId ++ tempExtension backup.database)
  else none

def targetPath (tmpdir backupId : String) : String :=
  orElse (tempPath backup tmpdir backupId) backup.storagePath

def templateVars (username password targetPath : String) : List (String × String) :=
  [("host", orElse db.host "localhost"),
    ("port", if db.port.getD 0 = 0 then "" else toString (db.port.getD 0)),
    ("databaseName", orElse db.databaseName ""), ("username", username), ("password", password),
    ("filePath", orElse db.filePath ""), ("outputFile", targetPath)]

/-- No pipeline stands between the dump program and the status of the dump command, and none between
the dump and the upload; and the status is not lost. -/
structure Unpiped (tmpdir backupId : String) : Prop where
  template : ∀ template, backup.database.backupCommand.filter (· ≠ "") = some template →
    (∀ username password, ∃ command, setting.shell (substituteTemplate template
      (templateVars backup.database username password (targetPath backup tmpdir backupId))) =
        .run command ∧ IsDump backup.database command.argv ∧
        Direct (targetPath backup tmpdir backupId) command) ∧
    (backup.database.backupStorageType = .spaces →
      setting.sites.machine (sshHost backup.database.serverHostname) = setting.sites.machine none)
  pgDump : runsPgDump backup.database →
    ¬ (backup.database.backupCompression = .gzip ∧ backup.database.backupFormat = .plain)
  sqlite : dumpsOnServer backup.database → backup.database.backupCompression ≠ .gzip ∧
    (backup.database.backupStorageType = .spaces → sshHost backup.database.serverHostname = none ∧
      some (serverTempPath backupId backup.database) = tempPath backup tmpdir backupId)
  status : ∀ hostname, dumpHost backup.database = some (some hostname) →
    ¬ setting.losesStatus hostname

/-- A user name that the credentials of a database can have; without credentials there is none. -/
def HasUsername (username : String) : Prop :=
  db.encryptedCredentials = none → username = ""

/-- How a shell reads the commands of the execution. -/
structure Reads (tmpdir backupId : String) : Prop where
  pgDump : runsPgDump backup.database → ∀ username, HasUsername backup.database username →
    setting.shell (pgDumpCommand backup.database username (targetPath backup tmpdir backupId)) =
      pgDumpScript backup.database username (targetPath backup tmpdir backupId)
  sqlite : dumpsOnServer backup.database →
    setting.shell (sqliteDumpCommand backup.database (orElse backup.database.filePath "")
      (targetPath backup tmpdir backupId)) =
        sqliteDumpScript backup.database (orElse backup.database.filePath "")
          (targetPath backup tmpdir backupId)
  stat : setting.shell (statCommand (targetPath backup tmpdir backupId)) =
    statScript (targetPath backup tmpdir backupId)

section Stages

variable {setting backup} {tmpdir backupId : String} {α β : Type}

def succeeding (post : α → World Host → Prop) :
    Except String (Except BackupError α) → World Host → Prop
  | .ok (.ok value), world => post value world
  | _, _ => True

/-- The call does not complete a backup that is not whole. -/
def safeCall (setting : Setting Host) (backup : BackupWithDatabase) (backupId : String)
    (world : World Host) (request : Call) : Prop :=
  Completing request → Whole setting backup backupId world

abbrev RunsSafely (setting : Setting Host) (backup : BackupWithDatabase) (backupId : String)
    (program : Async α) (post : Except String α → World Host → Prop) (world : World Host) : Prop :=
  program.Safely (semantics setting backup) (safeCall setting backup backupId) post world

variable {world : World Host} {program : Async (Except BackupError α)}

theorem safely_atStep {step : BackupStep} {post : α → World Host → Prop}
    (h : RunsSafely setting backup backupId program (succeeding post) world) :
    RunsSafely setting backup backupId (atStep step program) (succeeding post) world := by
  refine safely_tryCatch (h.mono fun result world hresult ↦ ?_)
  cases result with
  | ok value => exact hresult
  | error message => exact safely_pure trivial

theorem safely_andThen {next : α → Async (Except BackupError β)} {middle : α → World Host → Prop}
    {post : β → World Host → Prop}
    (h : RunsSafely setting backup backupId program (succeeding middle) world)
    (hnext : ∀ value world, middle value world →
      RunsSafely setting backup backupId (next value) (succeeding post) world) :
    RunsSafely setting backup backupId (andThen program next) (succeeding post) world := by
  refine safely_bind (h.mono fun result world hresult ↦ ?_)
  match result with
  | .ok (.ok value) => exact hnext value world hresult
  | .ok (.error error) => exact safely_pure trivial
  | .error message => exact trivial

def returning (post : α → Prop) : Except String α → World Host → Prop
  | .ok value, _ => post value
  | .error _, _ => True

theorem safely_credentialsOf (world : World Host) :
    RunsSafely setting backup backupId (credentialsOf db)
      (returning fun credentials ↦ HasUsername db credentials.1) world := by
  unfold credentialsOf
  split
  · next hciphertext _ =>
    refine safely_perform_bind (·.elim) (fun _ _ ↦ safely_pure fun hnone ↦ ?_) fun _ _ ↦ trivial
    rw [hnone] at hciphertext
    nomatch hciphertext
  · exact safely_pure fun _ ↦ rfl

theorem safely_clientOf (environmentId : String) (hostname : Option String) (world : World Host) :
    RunsSafely setting backup backupId (clientOf environmentId hostname)
      (returning (·.host = sshHost hostname)) world := by
  unfold clientOf sshHost
  cases hostname with
  | none => exact safely_pure rfl
  | some name =>
    refine Safely.ite (fun hlocal ↦ safely_pure ?_) fun hremote ↦ ?_
    · simp [returning, Option.filter, hlocal, Client.host]
    · refine safely_perform_bind (·.elim) (fun creds _ ↦ ?_) fun _ _ ↦ trivial
      cases creds with
      | none => exact safely_throw _ trivial
      | some creds =>
        refine safely_pure ?_
        simp [returning, Option.filter, hremote, Client.host]

/-- The command of the connection delivers, on the machine that the upload reads from. -/
structure Ready (setting : Setting Host) (backup : BackupWithDatabase) (tmpdir backupId : String)
    (connection : Connection) : Prop where
  delivers : Delivers setting.programs backup.database (targetPath backup tmpdir backupId)
    (setting.shell connection.dumpCommand)
  path : connection.sqliteServerTempPath = none ∨ connection.client = .local ∧
    connection.sqliteServerTempPath = tempPath backup tmpdir backupId
  machine : backup.database.backupStorageType = .spaces →
    setting.sites.machine connection.client.host = setting.sites.machine none
  host : dumpHost backup.database = some connection.client.host

/-- A path with a first character is no missing value. -/
theorem orElse_serverTempPath (id fallback : String) (db : Database) :
    orElse (some (serverTempPath id db)) fallback = serverTempPath id db := by
  have hne : serverTempPath id db ≠ "" := by
    simp [serverTempPath]
  simp [orElse, Option.filter, hne]

variable {client : Client}

theorem eq_local_of_host (h : client.host = none) : client = .local := by
  cases client with
  | «local» => rfl
  | ssh hostname username privateKey => nomatch h

omit [DecidableEq Host] in
/-- The connection for a SQLite file on a server. The upload reads the dump where the server has
written it, which is the temporary file of BRIDGEPORT itself. -/
theorem ready_sqlite (hunpiped : Unpiped setting backup tmpdir backupId)
    (hreads : Reads setting backup tmpdir backupId) (hserverDump : dumpsOnServer backup.database)
    {hostname : String} (hserver : backup.database.serverHostname = some hostname)
    (hclient : client.host = sshHost (some hostname)) :
    Ready setting backup tmpdir backupId
      ⟨client, sqliteDumpCommand backup.database (orElse backup.database.filePath "")
        ((if (tempPath backup tmpdir backupId).isSome then
          some (serverTempPath backupId backup.database) else none).getD
            (targetPath backup tmpdir backupId)), none,
        if (tempPath backup tmpdir backupId).isSome then
          some (serverTempPath backupId backup.database) else none⟩ := by
  obtain ⟨hplain, hspaces⟩ := hunpiped.sqlite hserverDump
  have hhost : dumpHost backup.database = some client.host := by
    rw [dumpHost_of_dumpsOnServer hserverDump, hserver]
    exact congrArg some hclient.symm
  by_cases hstorage : backup.database.backupStorageType = .spaces
  · obtain ⟨hlocal, htemp⟩ := hspaces hstorage
    rw [hserver] at hlocal
    have hnone : client.host = none := hclient.trans hlocal
    have htarget : targetPath backup tmpdir backupId = serverTempPath backupId backup.database := by
      unfold targetPath
      rw [← htemp]
      exact orElse_serverTempPath _ _ _
    refine ⟨?_, .inr ⟨eq_local_of_host hnone, ?_⟩, fun _ ↦ ?_, hhost⟩
    · have hread := hreads.sqlite hserverDump
      rw [← htemp, htarget] at *
      exact hread.symm ▸ delivers_sqliteDump hplain _ _
    · rw [← htemp]
      rfl
    · exact congrArg setting.sites.machine hnone
  · have htemp : tempPath backup tmpdir backupId = none := if_neg hstorage
    refine ⟨?_, .inl ?_, fun h ↦ absurd h hstorage, hhost⟩
    · rw [htemp]
      exact (hreads.sqlite hserverDump).symm ▸ delivers_sqliteDump hplain _ _
    · rw [htemp]
      rfl

theorem safely_prepareDump (hunpiped : Unpiped setting backup tmpdir backupId)
    (hreads : Reads setting backup tmpdir backupId) (world : World Host) :
    RunsSafely setting backup backupId (prepareDump backupId backup.database
        (tempPath backup tmpdir backupId).isSome (targetPath backup tmpdir backupId))
      (returning (Ready setting backup tmpdir backupId)) world := by
  refine safely_bind ((safely_credentialsOf _ _).mono fun result world husername ↦ ?_)
  match result with
  | .error message => exact trivial
  | .ok (username, password) =>
  rcases eq_none_or_eq_some (backup.database.backupCommand.filter (· ≠ "")) with
    htemplate | ⟨template, htemplate⟩
  · simp only [htemplate]
    by_cases hpostgres : backup.database.type = "postgres" ∧ orElse backup.database.host "" ≠ ""
    · simp only [if_pos hpostgres]
      have hruns : runsPgDump backup.database := ⟨htemplate, hpostgres⟩
      refine safely_pure ⟨?_, .inl rfl, fun _ ↦ rfl, ?_⟩
      · rw [hreads.pgDump hruns username husername]
        exact delivers_pgDump (hunpiped.pgDump hruns) _ _
      · rw [dumpHost, htemplate]
        exact if_pos hpostgres
    · simp only [if_neg hpostgres]
      by_cases hsqlite : backup.database.type = "sqlite" ∧ orElse backup.database.filePath "" ≠ ""
      · simp only [if_pos hsqlite]
        have hserverDump : dumpsOnServer backup.database := ⟨htemplate, hpostgres, hsqlite⟩
        cases hserver : backup.database.serverHostname with
        | none => exact safely_throw _ trivial
        | some hostname =>
          refine safely_bind ((safely_clientOf _ _ _).mono fun result world hclient ↦ ?_)
          match result with
          | .error message => exact trivial
          | .ok client =>
          exact safely_pure (ready_sqlite hunpiped hreads hserverDump hserver hclient)
      · simp only [if_neg hsqlite]
        exact safely_throw _ trivial
  · simp only [htemplate]
    obtain ⟨hdirect, hmachine⟩ := hunpiped.template template htemplate
    refine safely_bind ((safely_clientOf _ _ _).mono fun result world hclient ↦ ?_)
    match result with
    | .error message => exact trivial
    | .ok client =>
    obtain ⟨command, hcommand, hdump, htarget⟩ := hdirect username password
    have hhost : client.host = sshHost backup.database.serverHostname := hclient
    refine safely_pure ⟨?_, .inl rfl, fun hspaces ↦ ?_, ?_⟩
    · exact hcommand ▸ delivers_of_direct hdump htarget
    · rw [hhost]
      exact hmachine hspaces
    · simp only [dumpHost, htemplate, hhost]

/-- The target of a machine holds the output of the dump program. -/
def Held (backup : BackupWithDatabase) (tmpdir backupId : String) (machine : Host)
    (world : World Host) : Prop :=
  ∃ content, Dumped backup.database world.runs content ∧
    world.files machine (targetPath backup tmpdir backupId) = some content

theorem executed_of_pending {result : Result} {rest : List Result}
    (h : world.pending = result :: rest) (machine : Host) :
    world.executed machine = { world with
      files := Function.update world.files machine result.files
      pending := rest
      runs := world.runs ++ result.runs } := by
  unfold World.executed
  rw [h]

omit [DecidableEq Host] in
theorem Dumped.mono {db : Database} {runs more : List ProgramRun} {content : String}
    (h : Dumped db runs content) (hsubset : runs ⊆ more) : Dumped db more content := by
  obtain ⟨run, hrun, hdump⟩ := h
  exact ⟨run, hsubset hrun, hdump⟩

variable {connection : Connection} {answer : ExecResult}

/-- A dump command that ends with status 0 leaves its output at the target. -/
theorem held_of_dump (hunpiped : Unpiped setting backup tmpdir backupId)
    (hready : Ready setting backup tmpdir backupId connection)
    (hallowed : (semantics setting backup).allows world
      ⟨.exec connection.client connection.dumpCommand connection.execOptions, .ok answer⟩)
    (hzero : answer.code = 0) :
    Held backup tmpdir backupId (setting.sites.machine connection.client.host)
      (world.executed (setting.sites.machine connection.client.host)) := by
  obtain ⟨result, rest, hpending, hruns, hanswer⟩ := hallowed
  have hstatus : result.status = 0 := by
    rcases hanswer with rfl | ⟨-, hostname, hhost, hloses⟩
    · simpa using hzero
    · exact absurd hloses (hunpiped.status hostname (hready.host.trans (congrArg some hhost)))
  obtain ⟨content, hdumped, hcontent⟩ := hready.delivers _ _ _ hruns hstatus
  rw [executed_of_pending hpending]
  refine ⟨content, hdumped.mono (subset_append_right _ _), ?_⟩
  exact (congrFun (update_self _ _ _) _).trans hcontent

/-- The size of the dump is taken without a change. -/
theorem held_of_stat (hreads : Reads setting backup tmpdir backupId)
    (hallowed : (semantics setting backup).allows world
      ⟨.exec client (statCommand (targetPath backup tmpdir backupId)) none, .ok answer⟩)
    (h : Held backup tmpdir backupId (setting.sites.machine client.host) world) :
    Held backup tmpdir backupId (setting.sites.machine client.host)
      (world.executed (setting.sites.machine client.host)) := by
  obtain ⟨result, rest, hpending, hruns, -⟩ := hallowed
  obtain ⟨content, hdumped, hcontent⟩ := h
  rw [hreads.stat] at hruns
  rw [executed_of_pending hpending]
  refine ⟨content, hdumped.mono (subset_append_left _ _), ?_⟩
  rw [← files_statScript hruns] at hcontent
  exact (congrFun (update_self _ _ _) _).trans hcontent

omit [DecidableEq Host] in
theorem orElse_path {setting : Setting Host}
    (hready : Ready setting backup tmpdir backupId connection) :
    orElse connection.sqliteServerTempPath (targetPath backup tmpdir backupId) =
      targetPath backup tmpdir backupId := by
  rcases hready.path with hnone | ⟨-, hsame⟩
  · rw [hnone]
    rfl
  · rw [hsame]
    unfold targetPath orElse
    cases (tempPath backup tmpdir backupId).filter (· ≠ "") with
    | none | some _ => rfl

/-- The file of the dump is where the upload reads it. -/
theorem safely_fetchDump {post : Except String Unit → World Host → Prop}
    (hready : Ready setting backup tmpdir backupId connection) (h : post (.ok ()) world) :
    RunsSafely setting backup backupId (fetchDump connection (tempPath backup tmpdir backupId))
      post world := by
  unfold fetchDump
  rcases hready.path with hnone | ⟨hlocal, hsame⟩
  · rw [hnone]
    exact safely_pure h
  · rw [hsame]
    cases tempPath backup tmpdir backupId with
    | none => exact safely_pure h
    | some temp =>
      exact Safely.ite (fun _ ↦ safely_pure h) fun hother ↦ absurd ⟨hlocal, rfl⟩ hother

/-- What is known behind a dump that has succeeded. -/
def Collected (setting : Setting Host) (backup : BackupWithDatabase) (tmpdir backupId : String)
    (world : World Host) : Prop :=
  ∃ host, dumpHost backup.database = some host ∧
    (backup.database.backupStorageType = .spaces →
      setting.sites.machine host = setting.sites.machine none) ∧
    Held backup tmpdir backupId (setting.sites.machine host) world

section

variable (hready : Ready setting backup tmpdir backupId connection)
  (hreads : Reads setting backup tmpdir backupId)
include hready hreads

theorem safely_collectDump
    (h : Held backup tmpdir backupId (setting.sites.machine connection.client.host) world) :
    RunsSafely setting backup backupId (collectDump backupId connection
        (targetPath backup tmpdir backupId) (tempPath backup tmpdir backupId))
      (fun result world ↦ match result with
        | .ok _ => Collected setting backup tmpdir backupId world
        | .error _ => True) world := by
  refine safely_perform_bind (·.elim) (fun _ _ ↦ ?_) fun _ _ ↦ trivial
  rw [orElse_path hready]
  refine safely_perform_bind (·.elim) (fun answer hallowed ↦ ?_) fun _ _ ↦ trivial
  have hheld := held_of_stat hreads hallowed h
  refine safely_bind (safely_fetchDump hready ?_)
  refine safely_perform_bind (·.elim) (fun _ _ ↦ ?_) fun _ _ ↦ trivial
  exact safely_pure ⟨_, hready.host, hready.machine, hheld⟩

theorem safely_dumpStage (hunpiped : Unpiped setting backup tmpdir backupId) :
    RunsSafely setting backup backupId (dumpStage backupId connection
        (targetPath backup tmpdir backupId) (tempPath backup tmpdir backupId))
      (succeeding fun _ ↦ Collected setting backup tmpdir backupId) world := by
  unfold dumpStage
  refine safely_perform_bind (·.elim) (fun _ _ ↦ ?_) fun _ _ ↦ trivial
  have hmkdir : ∀ world, RunsSafely setting backup backupId
      (when ((tempPath backup tmpdir backupId).isNone) do
        let _ ← await (.exec connection.client
          ("mkdir -p " ++ shellEscape (directoryOf (targetPath backup tmpdir backupId))) none)
        pure ()) (fun _ _ ↦ True) world := by
    intro world
    refine Safely.ite (fun _ ↦ ?_) fun _ ↦ safely_pure trivial
    exact safely_perform_bind (·.elim) (fun _ _ ↦ safely_pure trivial) fun _ _ ↦ trivial
  refine safely_bind ((hmkdir _).mono fun result world _ ↦ ?_)
  cases result with
  | error message => exact trivial
  | ok _ =>
    refine safely_perform_bind (·.elim) (fun answer hallowed ↦ ?_) fun _ _ ↦ trivial
    refine Safely.ite (fun _ ↦ safely_pure trivial) fun hzero ↦ ?_
    have hheld := held_of_dump hunpiped hready hallowed (not_not.mp hzero)
    refine safely_bind ((safely_collectDump hready hreads hheld).mono fun result world hresult ↦ ?_)
    cases result with
    | error message => exact trivial
    | ok size => exact safely_pure hresult

end

omit [DecidableEq Host] in
section

variable (hunpiped : Unpiped setting backup tmpdir backupId)
include hunpiped

theorem not_compressed : ¬ compressed backup.database := by
  rintro ⟨hgzip, ⟨hruns, hplain⟩ | hserver⟩
  · exact hunpiped.pgDump hruns ⟨hgzip, hplain⟩
  · exact (hunpiped.sqlite hserver).1 hgzip

omit [DecidableEq Host] in
theorem whole_of_local (hlocal : backup.database.backupStorageType ≠ .spaces)
    (h : Collected setting backup tmpdir backupId world) : Whole setting backup backupId world := by
  obtain ⟨host, hhost, -, content, hdumped, hcontent⟩ := h
  refine ⟨content, hdumped, ?_⟩
  have hplace : writerPlace setting.sites backupId backup.storagePath backup.database =
      some (.file (setting.sites.machine host) backup.storagePath) := by
    unfold writerPlace dumpPlace dumpPath
    rw [if_neg hlocal, hhost, if_neg hlocal]
    rfl
  have htarget : targetPath backup tmpdir backupId = backup.storagePath := by
    unfold targetPath tempPath
    rw [if_neg hlocal]
    rfl
  rw [htarget] at hcontent
  unfold stored
  rw [if_neg (not_compressed hunpiped)]
  simp only [hplace]
  exact hcontent

omit [DecidableEq Host] in
theorem whole_of_upload (hspaces : backup.database.backupStorageType = .spaces) (content : String)
    {bucket : String} (hbucket : backup.database.backupSpacesBucket.filter (· ≠ "") = some bucket)
    (hdumped : Dumped backup.database world.runs content)
    (hobject : world.objects (setting.sites.endpoint backup.database.environmentId) bucket
      backup.storagePath = some content) : Whole setting backup backupId world := by
  refine ⟨content, hdumped, ?_⟩
  have hplace : writerPlace setting.sites backupId backup.storagePath backup.database =
      some (.object (setting.sites.endpoint backup.database.environmentId) bucket
        backup.storagePath) := by
    unfold writerPlace objectPlace
    rw [if_pos hspaces, hbucket]
    rfl
  unfold stored
  rw [if_neg (not_compressed hunpiped)]
  simp only [hplace]
  exact hobject

end

theorem safely_completeBackup {size : ℕ} (h : Whole setting backup backupId world) :
    RunsSafely setting backup backupId (completeBackup backupId backup.database size)
      (succeeding fun _ _ ↦ True) world := by
  refine safely_perform_bind (fun _ ↦ h) (fun _ _ ↦ ?_) fun _ _ ↦ trivial
  refine safely_emit_bind (·.elim) fun _ _ ↦ ?_
  refine safely_emit_bind (·.elim) fun _ _ ↦ ?_
  exact safely_pure trivial

section

variable (hunpiped : Unpiped setting backup tmpdir backupId)
include hunpiped

theorem safely_uploadDump (hspaces : backup.database.backupStorageType = .spaces) {temp : String}
    (htemp : temp = targetPath backup tmpdir backupId)
    (h : Collected setting backup tmpdir backupId world) :
    RunsSafely setting backup backupId
      (uploadDump backupId backup.storagePath backup.database temp)
      (fun result world ↦ match result with
        | .ok _ => Whole setting backup backupId world
        | .error _ => True) world := by
  obtain ⟨host, hhost, hmachine, content, hdumped, hcontent⟩ := h
  refine safely_perform_bind (·.elim) (fun _ _ ↦ ?_) fun _ _ ↦ trivial
  refine safely_perform_bind (·.elim) (fun config hconfig ↦ ?_) fun _ _ ↦ trivial
  cases config with
  | none => exact safely_throw _ trivial
  | some config =>
    rcases eq_none_or_eq_some (backup.database.backupSpacesBucket.filter (· ≠ "")) with
      hbucket | ⟨bucket, hbucket⟩
    · simp only [hbucket]
      exact safely_throw _ trivial
    · simp only [hbucket]
      refine safely_perform_bind (·.elim) (fun read hread ↦ ?_) fun _ _ ↦ trivial
      have hsame : read = content := by
        have hlocal : world.files (setting.sites.machine none) temp = some read := hread
        rw [htemp, ← hmachine hspaces] at hlocal
        exact some.inj (hlocal.symm.trans hcontent)
      refine safely_perform_bind (·.elim) (fun _ _ ↦ ?_) fun _ _ ↦ trivial
      refine ⟨fun h ↦ h.elim, fun answer _ ↦ ?_⟩
      refine whole_of_upload hunpiped hspaces content hbucket ?_ ?_
      · cases answer with
        | ok _ | error _ => exact hdumped
      · have hendpoint : config.endpoint = setting.sites.endpoint backup.database.environmentId :=
          hconfig
        cases answer with
        | ok _ => simp [semantics, World.withObject, World.withFile, hendpoint, hsame]
        | error _ => simp [semantics, World.withObject, hendpoint, hsame]

theorem safely_finishStage {size : ℕ} (h : Collected setting backup tmpdir backupId world) :
    RunsSafely setting backup backupId
      (finishStage backupId backup.storagePath backup.database (tempPath backup tmpdir backupId) size)
      (succeeding fun _ _ ↦ True) world := by
  by_cases hspaces : backup.database.backupStorageType = .spaces
  · have htemp : tempPath backup tmpdir backupId =
        some (tmpdir ++ "/backup-" ++ backupId ++ tempExtension backup.database) := if_pos hspaces
    rw [htemp]
    refine safely_atStep (safely_bind ?_)
    refine (safely_uploadDump hunpiped hspaces ?_ h).mono fun result world hresult ↦ ?_
    · unfold targetPath
      rw [htemp]
      simp [orElse, Option.filter]
    · cases result with
      | error message => exact trivial
      | ok _ => exact safely_completeBackup hresult
  · have htemp : tempPath backup tmpdir backupId = none := if_neg hspaces
    rw [htemp]
    exact safely_atStep (safely_completeBackup (whole_of_local hunpiped hspaces h))

theorem safely_runBackup (hreads : Reads setting backup tmpdir backupId) (world : World Host) :
    RunsSafely setting backup backupId (runBackup backup backupId (tempPath backup tmpdir backupId))
      (succeeding fun _ _ ↦ True) world := by
  have hconnect : ∀ world, RunsSafely setting backup backupId (connectStage backupId backup.database
      (tempPath backup tmpdir backupId).isSome (targetPath backup tmpdir backupId))
        (succeeding fun connection _ ↦ Ready setting backup tmpdir backupId connection) world := by
    intro world
    refine safely_bind ((safely_prepareDump hunpiped hreads world).mono fun result world hready ↦ ?_)
    cases result with
    | error message => exact trivial
    | ok connection =>
      exact safely_perform_bind (·.elim) (fun _ _ ↦ safely_pure hready) fun _ _ ↦ trivial
  refine safely_andThen (safely_atStep (hconnect world)) fun connection world hready ↦ ?_
  refine safely_andThen (safely_atStep (safely_dumpStage hready hreads hunpiped))
    fun size world hheld ↦ ?_
  exact safely_finishStage hunpiped hheld

end

theorem safely_failBackup (tempPath : Option String) (error : BackupError) (world : World Host) :
    RunsSafely setting backup backupId (failBackup backupId backup.database tempPath error)
      (fun _ _ ↦ True) world := by
  have hunlink : ∀ world,
      RunsSafely setting backup backupId (unlinkTemp tempPath) (fun _ _ ↦ True) world := by
    intro world
    cases tempPath with
    | none => exact safely_pure trivial
    | some temp => exact ⟨fun h ↦ h.elim, fun _ _ ↦ trivial⟩
  refine safely_bind ((hunlink world).mono fun result world _ ↦ ?_)
  cases result with
  | error message => exact trivial
  | ok _ =>
    refine safely_perform_bind (·.elim) (fun _ _ ↦ ?_) fun _ _ ↦ trivial
    refine safely_emit_bind (·.elim) fun _ _ ↦ ?_
    refine safely_emit_bind (·.elim) fun _ _ ↦ ?_
    exact safely_throw _ trivial

theorem safely_executeBackup (hunpiped : Unpiped setting backup tmpdir backupId)
    (hreads : Reads setting backup tmpdir backupId) (world : World Host) :
    RunsSafely setting backup backupId (executeBackup tmpdir backupId) (fun _ _ ↦ True) world := by
  refine safely_perform_bind (·.elim) (fun row hrow ↦ ?_) fun _ _ ↦ trivial
  obtain rfl : row = backup := hrow
  refine safely_bind ((safely_runBackup hunpiped hreads world).mono fun result world _ ↦ ?_)
  match result with
  | .error message => exact trivial
  | .ok (.ok _) => exact safely_pure trivial
  | .ok (.error error) => exact safely_failBackup _ error world

end Stages

/-- Without a pipeline behind the dump program, a completed backup is a whole backup. -/
theorem completesWhole {tmpdir backupId : String} (hreads : Reads setting backup tmpdir backupId)
    (hunpiped : Unpiped setting backup tmpdir backupId) :
    CompletesWhole setting backup tmpdir backupId := by
  intro files objects pending log before after event outcome htraces hconsistent hlog hcompleting
  exact (safely_executeBackup hunpiped hreads _).sound htraces hconsistent hlog hcompleting

/-! ### A dump that fails -/

/-- Programs that leave all files alone: `pg_dump` cannot connect, and `sqlite3` prints a dump. -/
def behaviour (argv : List String) (files : Files) : Outcome :=
  if argv.head? = some "pg_dump" then ⟨1, "", "connection refused", files⟩
  else if argv.head? = some "exit" then ⟨1, "", "", files⟩
  else if argv.head? = some "sqlite3" then ⟨0, "CREATE TABLE app;", "", files⟩
  else ⟨0, "", "", files⟩

def fixedPrograms : Programs where
  can argv _ files outcome := outcome = behaviour argv files
  pgDump := by
    rintro argv stdin files outcome path rfl hzero hfile
    unfold dumpFile at hfile
    split_ifs at hfile with hdump
    unfold behaviour at hzero
    rw [if_pos hdump.1] at hzero
    nomatch hzero
  stat := by
    rintro arguments stdin files outcome rfl
    unfold behaviour
    split_ifs <;> rfl
  exit := by
    rintro stdin files outcome rfl
    rfl

def fixedShell (backup : BackupWithDatabase) (text : String) : Script :=
  let db := backup.database
  let target := targetPath backup "/tmp" "backup"
  if text = pgDumpCommand db "" target then pgDumpScript db "" target
  else if text = sqliteDumpCommand db (orElse db.filePath "") target then
    sqliteDumpScript db (orElse db.filePath "") target
  else if text = statCommand target then statScript target
  else .run ⟨["mkdir", "-p", directoryOf target], .out, .err⟩

/-- Every host name is a machine of its own. -/
def fixedSetting (backup : BackupWithDatabase) : Setting (Option String) where
  sites := ⟨id, fun _ ↦ "nyc3.digitaloceanspaces.com", "/tmp"⟩
  shell := fixedShell backup
  programs := fixedPrograms
  decode := id
  gzip _ content := "gzip " ++ content
  losesStatus _ := True

theorem reads_localDatabase : Reads (fixedSetting backupRow) backupRow "/tmp" "backup" where
  pgDump h := absurd h (by decide)
  sqlite _ := by decide +kernel
  stat := by decide +kernel

/-- A SQLite database without compression, whose backups are kept in files, is backed up as a
whole. -/
theorem completesWhole_localDatabase :
    CompletesWhole (fixedSetting backupRow) backupRow "/tmp" "backup" := by
  refine completesWhole _ _ reads_localDatabase ⟨?_, ?_, ?_, ?_⟩
  · intro template htemplate
    nomatch htemplate
  · intro hruns
    exact absurd hruns (by decide)
  · intro _
    exact ⟨nofun, fun hspaces ↦ absurd hspaces nofun⟩
  · have hlocal : dumpHost backupRow.database = some none := by
      decide
    rw [hlocal]
    exact fun _ ↦ nofun

/-- The backup of a PostgreSQL database, compressed by `gzip`. -/
def compressedRow : BackupWithDatabase where
  id := "backup"
  storagePath := "/var/backups/app.sql.gz"
  database :=
    { localDatabase with
      type := "postgres"
      host := some "db.internal"
      databaseName := some "app"
      filePath := none
      backupCompression := .gzip }

def compressedConnection : Connection where
  client := .local
  dumpCommand := pgDumpCommand compressedRow.database "" compressedRow.storagePath
  execOptions := some (pgOptions compressedRow.database "")
  sqliteServerTempPath := none

def compressedCalls : List (Event Answer) :=
  [⟨.updateBackup "backup" .inProgress, .ok compressedRow⟩,
    ⟨.connect .local, .ok ()⟩,
    ⟨.updateBackup "backup" (.progress 30), .ok compressedRow⟩,
    ⟨.exec .local ("mkdir -p " ++ shellEscape (directoryOf compressedRow.storagePath)) none,
      .ok ⟨"", "", 0⟩⟩,
    ⟨.exec .local compressedConnection.dumpCommand compressedConnection.execOptions,
      .ok ⟨"", "connection refused", 0⟩⟩,
    ⟨.updateBackup "backup" (.progress 70), .ok compressedRow⟩,
    ⟨.exec .local (statCommand compressedRow.storagePath) none, .ok ⟨"", "", 0⟩⟩,
    ⟨.disconnect .local, .ok ()⟩]

def compressedCompletion : Event Answer :=
  ⟨.updateBackup "backup" (.completed (parseSize "")), .ok compressedRow⟩

theorem traces_compressed :
    Traces (executeBackup "/tmp" "backup") (compressedCalls ++ [compressedCompletion]) none := by
  iterate 9 apply Traces.call
  exact .start _

def ranOn (files : Files) (command : Simple) : Result :=
  command.result (behaviour command.argv (command.opened files))

def compressedPending : List Result :=
  let target := compressedRow.storagePath
  let made := ranOn (fun _ ↦ none) ⟨["mkdir", "-p", directoryOf target], .out, .err⟩
  let dumped := ranOn made.files ⟨pgDumpArguments compressedRow.database "", .out, .err⟩
  let zipped := ranOn dumped.files ⟨gzipArguments compressedRow.database, .file target, .file target⟩
  let sized := ranOn zipped.files ⟨["stat", "-c", "%s", target], .out, .err⟩
  [made, dumped.behind zipped zipped.stdout, sized]

theorem reads_compressed : Reads (fixedSetting compressedRow) compressedRow "/tmp" "backup" where
  pgDump _ username husername := by
    obtain rfl := husername rfl
    decide +kernel
  sqlite h := absurd h (by decide)
  stat := by decide +kernel

/-- A program that runs does what its behaviour says. -/
theorem runs_ranOn (files : Files) (command : Simple) (stdin : String) :
    Runs fixedPrograms.can (.run command) stdin files (ranOn files command) :=
  .run rfl

theorem consistent_compressed : (semantics (fixedSetting compressedRow) compressedRow).Consistent
    ⟨fun _ _ ↦ none, fun _ _ _ ↦ none, compressedPending, []⟩
    (compressedCalls ++ [compressedCompletion]) := by
  have hdump := reads_compressed.pgDump (by decide) "" fun _ ↦ rfl
  refine ⟨rfl, trivial, trivial, ⟨_, _, rfl, ?_, .inl rfl⟩, ⟨_, _, rfl, ?_, .inl rfl⟩,
    trivial, ⟨_, _, rfl, ?_, .inl rfl⟩, trivial, trivial, trivial⟩
  · exact runs_ranOn _ _ _
  · exact hdump ▸ Runs.pipe (runs_ranOn _ _ _) (runs_ranOn _ _ _)
  · exact reads_compressed.stat ▸ Runs.orStop (runs_ranOn _ _ _) rfl

/-- A `pg_dump` that fails is a completed backup, when its output is piped through `gzip`. -/
theorem not_completesWhole_compressed :
    Reads (fixedSetting compressedRow) compressedRow "/tmp" "backup" ∧
      ¬ CompletesWhole (fixedSetting compressedRow) compressedRow "/tmp" "backup" := by
  refine ⟨reads_compressed, fun h ↦ ?_⟩
  obtain ⟨content, ⟨run, hrun, hdump, hzero, -⟩, -⟩ := h (fun _ _ ↦ none) (fun _ _ _ ↦ none)
    compressedPending _ compressedCalls [] compressedCompletion none traces_compressed
    consistent_compressed rfl trivial
  have hprograms : ∀ run ∈ compressedPending.flatMap Result.runs,
      run.argv.head? = some "pg_dump" ∧ run.status = 1 ∨
        run.argv.head? ≠ some "pg_dump" ∧ run.argv.head? ≠ some "sqlite3" := by
    intro run hrun
    simp only [compressedPending, flatMap_cons, flatMap_nil, ranOn, Simple.result, Result.behind,
      mem_append, mem_singleton, not_mem_nil, or_false] at hrun
    rcases hrun with rfl | (rfl | rfl) | rfl
    · exact .inr ⟨by decide, by decide⟩
    · exact .inl ⟨rfl, rfl⟩
    · exact .inr ⟨by simp [gzipArguments], by simp [gzipArguments]⟩
    · exact .inr ⟨by decide, by decide⟩
  have hmem : run ∈ compressedPending.flatMap Result.runs := hrun
  rcases hprograms run hmem with ⟨-, hone⟩ | ⟨hpgDump, hsqlite⟩
  · nomatch hone.symm.trans hzero
  · exact (hdump.1 rfl).elim hpgDump hsqlite

end Bridgeport.Backup.Dumps
