import Bridgeport.Backup.ArtifactPlaces
import Bridgeport.Foundation.Shell

/-!
# The commands of a dump

The commands that `executeBackup` hands to a shell, as the shell reads them. `pg_dump` writes its
file by itself, unless its output is piped through `gzip`; `sqlite3` writes to its output, which is
redirected or piped. A command `Delivers` when its status can only be 0 if the dump program has
ended with 0 and the target holds its output: those without a pipeline do, and a pipeline does not.
-/

namespace Bridgeport.Backup.Dumps

open Foundation Shell Option

/-! ### What the shell reads -/

variable (db : Database)

/-- The arguments of `pg_dump` up to its file. -/
def pgDumpArguments (username : String) : List String :=
  let format := match db.backupFormat with
    | .custom => "-Fc"
    | .tar => "-Ft"
    | .plain => "-Fp"
  let options := [(db.pgOpts.noOwner, "--no-owner"), (db.pgOpts.clean, "--clean"),
    (db.pgOpts.ifExists, "--if-exists"), (db.pgOpts.schemaOnly, "--schema-only"),
    (db.pgOpts.dataOnly, "--data-only")]
  ["pg_dump", "--no-password", format] ++ (options.filter Prod.fst).map Prod.snd ++
    ["-h", db.host.getD "", "-p", toString (orNumber (db.port.getD 0) 5432), "-U", username,
      "-d", db.databaseName.getD "null"]

/-- `gzip` with the level of a database. -/
def gzipArguments : List String :=
  ["gzip", "-" ++ toString db.backupCompressionLevel]

/-- The `pg_dump` command: `2>&1` behind a redirection goes to the file too. -/
def pgDumpScript (username targetPath : String) : Script :=
  if db.backupCompression = .gzip ∧ db.backupFormat = .plain then
    .pipe (.run ⟨pgDumpArguments db username, .out, .err⟩)
      (.run ⟨gzipArguments db, .file targetPath, .file targetPath⟩)
  else .run ⟨pgDumpArguments db username ++ ["-f", targetPath], .out, .out⟩

def sqliteDumpScript (filePath dumpPath : String) : Script :=
  let dump : Script :=
    if db.backupCompression = .gzip then
      .pipe (.run ⟨["sqlite3", filePath, ".dump"], .out, .err⟩)
        (.run ⟨gzipArguments db, .file dumpPath, .err⟩)
    else .run ⟨["sqlite3", filePath, ".dump"], .file dumpPath, .err⟩
  .or (.and (.run ⟨["test", "-f", filePath], .out, .err⟩) dump)
    (.and (.run ⟨["echo", "Database file not found:", filePath], .err, .err⟩)
      (.run ⟨["exit", "1"], .out, .err⟩))

/-- The command for the size of a dump. -/
def statScript (path : String) : Script :=
  .or (.run ⟨["stat", "-c", "%s", path], .out, .err⟩) (.run ⟨["stat", "-f", "%z", path], .out, .err⟩)

/-- The text of the command for the size of a dump. -/
def statCommand (path : String) : String :=
  "stat -c %s " ++ shellEscape path ++ " 2>/dev/null || stat -f %z " ++ shellEscape path

/-! ### The dump program -/

/-- The file that `pg_dump` writes by itself, which is its last argument. -/
def dumpFile (argv : List String) : Option String :=
  if argv.head? = some "pg_dump" ∧ argv.dropLast.getLast? = some "-f" then argv.getLast? else none

def output (run : ProgramRun) : Option String :=
  match dumpFile run.argv with
  | some path => run.files path
  | none => some run.stdout

/-- The programs that the execution runs besides the dump. -/
def otherPrograms : List String :=
  ["mkdir", "stat", "cat", "base64", "rm"]

/-- The program is the dump program of a database; that of a template can be any other program. -/
def IsDump (argv : List String) : Prop :=
  (db.backupCommand.filter (· ≠ "") = none →
    argv.head? = some "pg_dump" ∨ argv.head? = some "sqlite3") ∧
  ∀ program ∈ argv.head?, program ∉ otherPrograms

/-- The output of a dump program that has ended with status 0. -/
def Dumped (runs : List ProgramRun) (content : String) : Prop :=
  ∃ run ∈ runs, IsDump db run.argv ∧ run.status = 0 ∧ output run = some content

/-- What is relied on of the programs: `pg_dump` has written its file when it ends with status 0,
`stat` writes nothing, and `exit 1` ends with status 1. -/
structure Programs where
  can : List String → String → Files → Outcome → Prop
  pgDump : ∀ argv stdin files outcome path, can argv stdin files outcome → outcome.status = 0 →
    dumpFile argv = some path → (outcome.files path).isSome
  stat : ∀ arguments stdin files outcome, can ("stat" :: arguments) stdin files outcome →
    outcome.files = files
  exit : ∀ stdin files outcome, can ["exit", "1"] stdin files outcome → outcome.status = 1

variable (programs : Programs)

/-- The command ends with status 0 only if the dump program has, and the target holds its output. -/
def Delivers (db : Database) (targetPath : String) (script : Script) : Prop :=
  ∀ stdin files result, Runs programs.can script stdin files result → result.status = 0 →
    ∃ content, Dumped db result.runs content ∧ result.files targetPath = some content

/-- A single program that writes to the target, by itself or by a redirection. -/
def Direct (targetPath : String) (command : Simple) : Prop :=
  (dumpFile command.argv = some targetPath ∧ (∀ path, command.stdout ≠ .file path) ∧
    ∀ path, command.stderr ≠ .file path) ∨
  (dumpFile command.argv = none ∧ command.stdout = .file targetPath ∧
    command.stderr ≠ .file targetPath)

variable {programs} {db : Database}

theorem delivers_of_direct {targetPath : String} {command : Simple}
    (hdump : IsDump db command.argv) (hdirect : Direct targetPath command) :
    Delivers programs db targetPath (.run command) := by
  intro stdin files result hruns hzero
  obtain ⟨outcome, hcan, rfl⟩ := hruns.exists_outcome
  rcases hdirect with ⟨hfile, hstdout, hstderr⟩ | ⟨hfile, hstdout, hstderr⟩
  · obtain ⟨content, hcontent⟩ :=
      isSome_iff_exists.mp (programs.pgDump _ _ _ _ _ hcan hzero hfile)
    refine ⟨content, ⟨_, List.mem_singleton.mpr rfl, hdump, hzero, ?_⟩, ?_⟩
    · simp only [output, hfile]
      exact hcontent
    · exact (congrFun (command.delivered_of_streams hstdout hstderr outcome) targetPath).trans hcontent
  · refine ⟨outcome.stdout, ⟨_, List.mem_singleton.mpr rfl, hdump, hzero, ?_⟩, ?_⟩
    · simp only [output, hfile]
    · exact command.delivered_stdout hstdout hstderr outcome

theorem dumpFile_pgDump (db : Database) (username targetPath : String) :
    dumpFile (pgDumpArguments db username ++ ["-f", targetPath]) = some targetPath := by
  have hhead : (pgDumpArguments db username ++ ["-f", targetPath]).head? = some "pg_dump" := rfl
  have hlast : (pgDumpArguments db username ++ ["-f", targetPath]).dropLast.getLast? =
    some "-f" := by
    simp
  unfold dumpFile
  rw [if_pos ⟨hhead, hlast⟩]
  simp

/-- Without a pipeline through `gzip` the `pg_dump` command delivers. -/
theorem delivers_pgDump (hplain : ¬ (db.backupCompression = .gzip ∧
    db.backupFormat = .plain)) (username targetPath : String) :
    Delivers programs db targetPath (pgDumpScript db username targetPath) := by
  unfold pgDumpScript
  rw [if_neg hplain]
  have hdump : IsDump db (pgDumpArguments db username ++ ["-f", targetPath]) :=
    ⟨fun _ ↦ .inl rfl, fun program hprogram ↦ some.inj hprogram ▸ by decide⟩
  refine delivers_of_direct hdump (.inl ⟨?_, fun _ ↦ nofun, fun _ ↦ nofun⟩)
  exact dumpFile_pgDump db username targetPath

/-- Without a pipeline through `gzip` the SQLite dump command delivers. -/
theorem delivers_sqliteDump (hplain : db.backupCompression ≠ .gzip) (filePath dumpPath : String) :
    Delivers programs db dumpPath (sqliteDumpScript db filePath dumpPath) := by
  intro stdin files result hruns hzero
  unfold sqliteDumpScript at hruns
  rw [if_neg hplain] at hruns
  have hleft := hruns.or_zero hzero fun middle right hright hrightZero ↦ by
    obtain ⟨_, last, -, -, hlast, hlastZero, -⟩ := hright.and_zero hrightZero
    obtain ⟨outcome, hcan, rfl⟩ := hlast.exists_outcome
    nomatch (programs.exit _ _ _ hcan).symm.trans hlastZero
  obtain ⟨_, right, -, -, hright, hrightZero, hfiles, hsubset⟩ := hleft.and_zero hzero
  have hdirect : Direct dumpPath ⟨["sqlite3", filePath, ".dump"], .file dumpPath, .err⟩ :=
    .inr ⟨if_neg fun h ↦ absurd h.1 (by simp), rfl, nofun⟩
  have hsqlite : IsDump db ["sqlite3", filePath, ".dump"] :=
    ⟨fun _ ↦ .inr rfl, fun program hprogram ↦ some.inj hprogram ▸ by decide⟩
  obtain ⟨content, ⟨run, hrun, hdump⟩, hcontent⟩ :=
    delivers_of_direct hsqlite hdirect stdin _ right hright hrightZero
  exact ⟨content, ⟨run, hsubset hrun, hdump⟩, hfiles ▸ hcontent⟩

/-- The command for the size of a dump writes nothing. -/
theorem files_statScript {path stdin : String} {files : Files} {result : Result}
    (h : Runs programs.can (statScript path) stdin files result) : result.files = files :=
  h.or_keeps (fun files outcome hcan ↦ programs.stat _ _ files outcome hcan)
    fun files outcome hcan ↦ programs.stat _ _ files outcome hcan

end Bridgeport.Backup.Dumps
