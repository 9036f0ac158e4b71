import Bridgeport.Backup.ArtifactPlaces
import Bridgeport.Foundation.Machine

/-!
# Artifacts over runs

Databases are created, changed and deleted, backups are created, executed, pruned, deleted and
cleaned up, in any order and with any failures. A deletion that ends without an error has removed
what the execution has written, and nothing of another backup; and the download of a completed
backup yields what the execution has written (`ArtifactsFollow`), as long as every step is
`Settled`:

* a database with completed backups is only changed so that their places stay the same,
* a backup completes only if its artifact is where the database row now says,
* no step writes or removes what another backup has at its place, and
* no removal takes place that ends with an error, and none is lost that ends without one.
-/

namespace Bridgeport.Backup.Artifacts

open Foundation Option Function

/-- How far an execution has come: the dump, and the artifact at its place. -/
inductive Stage
  | started
  | dumped
  | stored

/-- The background execution of a backup, with the database row that it has started with. -/
inductive Execution
  | launched
  | running (storagePath : String) (db : StoredDatabase) (stage : Stage)

/-- What an execution has written as its artifact. -/
structure Written (Host : Type) where
  place : Place Host
  content : String

variable {Host : Type}

/-- The rows, the executions, the files and objects, and what has been written. -/
structure State (Host : Type) where
  databases : Table StoredDatabase
  backups : Table StoredBackup
  executions : String → Option Execution
  store : Place Host → Option Artifact
  written : String → Option (Written Host)

def State.start : State Host :=
  ⟨Table.empty, Table.empty, fun _ ↦ none, fun _ ↦ none, fun _ ↦ none⟩

def setStatus (backups : Table StoredBackup) (id : String) (status : BackupStatus) :
    Table StoredBackup :=
  backups.update id (fun backup ↦ { backup with status := status }) fun _ ↦ rfl

/-- The row of a database after a change, which has no say in its key and its environment. -/
def changed (db row : StoredDatabase) : StoredDatabase :=
  { db with id := row.id, environmentId := row.environmentId }

inductive Label
  | createDatabase (db : StoredDatabase)
  | updateDatabase (id : String) (db : StoredDatabase)
  | deleteDatabase (id : String)
  | createBackup (databaseId backupId timestamp : String)
  | executeBackup (backupId : String)
  | dump (backupId content : String)
  | dumpFails (backupId : String) (part : Option String)
  | upload (backupId downloaded : String) (removed unlinked : Bool)
  | complete (backupId : String)
  | fail (backupId : String) (unlinked : Bool)
  | markStuck (backupId : String)
  | pruneBackup (backupId : String) (calls : DeleteCalls)
  | deleteBackup (backupId : String) (calls : DeleteCalls)
  | cleanupFailedBackup (backupId : String) (calls : DeleteCalls)

/-- `filename` of a backup. -/
def backupFilename (db : Database) (timestamp : String) : String :=
  db.name ++ "-" ++ timestamp ++ tempExtension db

/-- `storagePath` of a backup. -/
def storagePathOf (db : StoredDatabase) (timestamp : String) : String :=
  match db.backupStorageType with
  | .local => orElse db.backupLocalPath "/var/backups" ++ "/" ++ backupFilename db.toDatabase timestamp
  | .spaces => orElse db.backupSpacesPrefix "" ++ backupFilename db.toDatabase timestamp

variable (state : State Host)

/-- The identifier has never been used for a backup. -/
def State.Unused (id : String) : Prop :=
  state.backups.Fresh id ∧ (state.executions id).isNone ∧ (state.written id).isNone

instance (id : String) : Decidable (state.Unused id) :=
  inferInstanceAs (Decidable (_ ∧ _))

def createBackup (databaseId backupId timestamp : String) (state : State Host) :
    Option (State Host) := do
  let db ← state.databases.find? databaseId
  if state.Unused backupId then
    some { state with
      backups := state.backups.insert ⟨backupId, databaseId, backupFilename db.toDatabase timestamp,
        db.backupStorageType, storagePathOf db timestamp, .pending⟩
      executions := Function.update state.executions backupId (some .launched) }
  else none

/-- The execution of a backup has come to an end, or to a stage. -/
def State.execution (id : String) (execution : Option Execution) : State Host :=
  { state with executions := Function.update state.executions id execution }

def startExecution (id : String) (state : State Host) : Option (State Host) :=
  match state.executions id with
  | some .launched =>
    match state.backups.find? id with
    | none => some (state.execution id none)
    | some backup => (state.databases.find? backup.databaseId).map fun db ↦
        { state.execution id (some (.running backup.storagePath db .started)) with
          backups := setStatus state.backups id .inProgress }
  | _ => none

variable [DecidableEq Host]

/-- A file or an object with what a backup has written to it. -/
def writeAt (place : Place Host) (id content : String) (store : Place Host → Option Artifact) :
    Place Host → Option Artifact :=
  Function.update store place (some ⟨id, content⟩)

variable (sites : Sites Host)

/-- A dump that succeeds: it is the artifact, unless it has to be uploaded. The content is what has
come of the dump: nothing, if it is reported to have succeeded and has not been run. -/
def dump (id content : String) (state : State Host) : Option (State Host) :=
  match state.executions id with
  | some (.running storagePath db .started) =>
    (dumpPlace sites id storagePath db.toDatabase).map fun place ↦
      let store := writeAt place id content state.store
      if db.backupStorageType = .spaces then
        { state.execution id (some (.running storagePath db .dumped)) with store := store }
      else
        { state.execution id (some (.running storagePath db .stored)) with
          store := store
          written := Function.update state.written id (some ⟨place, content⟩) }
  | _ => none

/-- A dump that fails may have written a part of its output; the `catch` block is left to `fail`. -/
def dumpFails (id : String) (part : Option String) (state : State Host) : Option (State Host) :=
  match state.executions id with
  | some (.running storagePath db .started) =>
    (dumpPlace sites id storagePath db.toDatabase).map fun place ↦
      match part with
      | none => state
      | some content => { state with store := writeAt place id content state.store }
  | _ => none

section

variable (id : String)

/-- The temporary file where BRIDGEPORT runs. -/
def tempPlace (db : Database) : Place Host :=
  .file (sites.machine none) (tempPathOf sites.tmpdir id db)

def serverTempPlace (db : Database) : Place Host :=
  .file (sites.machine (sshHost db.serverHostname)) (serverTempPath id db)

/-- The file for the upload of a SQLite dump, which is on the server. -/
def fetchDump (downloaded : String) (removed : Bool) (db : Database)
    (store : Place Host → Option Artifact) : Place Host → Option Artifact :=
  if dumpsOnServer db then
    if sshHost db.serverHostname = none ∧ serverTempPath id db = tempPathOf sites.tmpdir id db then store
    else
      let store := writeAt (tempPlace sites id db) id downloaded store
      if removed then Function.update store (serverTempPlace sites id db) none else store
  else store

/-- The temporary file is removed, if the call works. -/
def unlinkTemp (unlinked : Bool) (db : Database) (store : Place Host → Option Artifact) :
    Place Host → Option Artifact :=
  if unlinked then Function.update store (tempPlace sites id db) none else store

def upload (id downloaded : String) (removed unlinked : Bool) (state : State Host) :
    Option (State Host) :=
  match state.executions id with
  | some (.running storagePath db .dumped) =>
    if db.backupStorageType = .spaces then do
      let place ← objectPlace sites storagePath db.toDatabase
      let store := fetchDump sites id downloaded removed db.toDatabase state.store
      let temp ← store (tempPlace sites id db.toDatabase)
      some { state.execution id (some (.running storagePath db .stored)) with
        store := unlinkTemp sites id unlinked db.toDatabase (writeAt place id temp.content store)
        written := Function.update state.written id (some ⟨place, temp.content⟩) }
    else none
  | _ => none

/-- The end of an execution whose artifact is at its place; without its row nothing is updated. -/
def complete (id : String) (state : State Host) : Option (State Host) :=
  match state.executions id with
  | some (.running _ _ .stored) =>
    some { state.execution id none with backups := setStatus state.backups id .completed }
  | _ => none

/-- The `catch` block of an execution, which anything can lead to. -/
def fail (id : String) (unlinked : Bool) (state : State Host) : Option (State Host) :=
  match state.executions id with
  | some (.running _ db _) => some { state.execution id none with
      backups := setStatus state.backups id .failed
      store := if db.backupStorageType = .spaces then
        unlinkTemp sites id unlinked db.toDatabase state.store else state.store }
  | _ => none

/-- What a caller of `deleteBackupArtifact` does: the row goes when the deletion has succeeded, and
in any case when a user has asked for it. -/
def deleteWith (always : Bool) (id : String) (calls : DeleteCalls) (state : State Host) :
    Option (State Host) :=
  match state.backups.find? id with
  | none => some state
  | some backup => (state.databases.find? backup.databaseId).map fun db ↦
      let result := deleteBackupArtifact sites db.toDatabase backup calls state.store
      if always ∨ result.2.isOk then
        { state with backups := state.backups.erase id, store := result.1 }
      else { state with store := result.1 }

def pruneBackup (id : String) (calls : DeleteCalls) (state : State Host) : Option (State Host) :=
  deleteWith sites false id calls state

def deleteBackup (id : String) (calls : DeleteCalls) (state : State Host) : Option (State Host) :=
  deleteWith sites true id calls state

/-- The turn of `cleanupFailedBackups` for a failed backup. -/
def cleanupFailedBackup (id : String) (calls : DeleteCalls) (state : State Host) :
    Option (State Host) :=
  match state.backups.find? id with
  | some backup => if backup.status = .failed then deleteWith sites false id calls state else none
  | none => none

def next (state : State Host) : Label → Option (State Host)
  | .createDatabase db =>
    if state.databases.Fresh db.id then some { state with databases := state.databases.insert db }
    else none
  | .updateDatabase id db => (state.databases.find? id).map fun _ ↦
      { state with databases := state.databases.update id (changed db) fun _ ↦ rfl }
  | .deleteDatabase id =>
    if state.backups.rows.all (·.databaseId ≠ id) then
      some { state with databases := state.databases.erase id }
    else none
  | .createBackup databaseId backupId timestamp => createBackup databaseId backupId timestamp state
  | .executeBackup id => startExecution id state
  | .dump id content => dump sites id content state
  | .dumpFails id part => dumpFails sites id part state
  | .upload id downloaded removed unlinked => upload sites id downloaded removed unlinked state
  | .complete id => complete id state
  | .fail id unlinked => fail sites id unlinked state
  | .markStuck id => (state.backups.find? id).bind fun backup ↦
      if backup.status = .inProgress then
        some { state with backups := setStatus state.backups id .failed }
      else none
  | .pruneBackup id calls => pruneBackup sites id calls state
  | .deleteBackup id calls => deleteBackup sites id calls state
  | .cleanupFailedBackup id calls => cleanupFailedBackup sites id calls state

def machine : Machine (State Host) Label :=
  ⟨next sites⟩

def Label.deletion : Label → Option (String × DeleteCalls)
  | .pruneBackup id calls | .deleteBackup id calls | .cleanupFailedBackup id calls =>
    some (id, calls)
  | _ => none

/-- A deletion that ends without an error has removed what the execution of a completed backup has
written, and nothing of another backup. -/
def DeletesWritten (state : State Host) (label : Label) : Prop :=
  ∀ id calls backup db written store, label.deletion = some (id, calls) →
    state.backups.find? id = some backup → backup.status = .completed →
    state.databases.find? backup.databaseId = some db → state.written id = some written →
    deleteBackupArtifact sites db.toDatabase backup calls state.store = (store, .ok ()) →
    (∀ artifact, store written.place = some artifact → artifact.owner ≠ id) ∧
      ∀ place artifact, state.store place = some artifact → artifact.owner ≠ id →
        store place = some artifact

/-- The download of a completed backup yields what its execution has written. -/
def YieldsWritten (state : State Host) : Prop :=
  ∀ id backup, state.backups.find? id = some backup → backup.status = .completed →
    ∃ written db, state.written id = some written ∧
      state.databases.find? backup.databaseId = some db ∧
      ∀ calls, calls.Work → ∃ download,
        getBackupDownload sites db.toDatabase backup calls state.store = .ok download ∧
          download.yields state.store = some written.content

/-- Every deletion of the run removes what has been written, and in every state of it the downloads
yield what has been written. -/
structure ArtifactsFollow (labels : List Label) : Prop where
  deletes : ∀ before label state, before ++ [label] <+: labels →
    (machine sites).run State.start before = some state → DeletesWritten sites state label
  yields : ∀ before state, before <+: labels →
    (machine sites).run State.start before = some state → YieldsWritten sites state

/-- The backup is completed, or its execution has not come to an end. -/
def State.Live (state : State Host) (id : String) : Prop :=
  ∃ backup, state.backups.find? id = some backup ∧
    (backup.status = .completed ∨ (state.executions id).isSome)

/-- Another backup has its artifact at the place. -/
def State.HeldByOther (state : State Host) (id : String) (place : Place Host) : Prop :=
  ∃ other written, other ≠ id ∧ state.Live other ∧ state.written other = some written ∧
    written.place = place

/-- The places that a step of the execution of a backup writes, or may remove. -/
def executionPlaces (state : State Host) : List (Place Host) :=
  match state.executions id with
  | some (.running storagePath db _) =>
    (dumpPlace sites id storagePath db.toDatabase).toList ++
      if db.backupStorageType = .spaces then
        [tempPlace sites id db.toDatabase, serverTempPlace sites id db.toDatabase] ++
          (objectPlace sites storagePath db.toDatabase).toList
      else []
  | _ => []

/-- A deletion removes nothing of another backup, and it ends without an error exactly when it
removes something. -/
def DeletesSafely (state : State Host) (id : String) (calls : DeleteCalls) : Prop :=
  (∀ backup db place, state.backups.find? id = some backup →
    state.databases.find? backup.databaseId = some db → backup.status ≠ .completed →
    artifactPlace sites db.toDatabase backup = some place → ¬ state.HeldByOther id place) ∧
  calls.removal ≠ .lost ∧ ∀ message, calls.removal ≠ .fails message true

def Settled (state : State Host) : Label → Prop
  | .updateDatabase id db => ∀ row, state.databases.find? id = some row →
      ∀ backup ∈ state.backups.rows, backup.databaseId = id → backup.status = .completed →
        artifactPlace sites (changed db row).toDatabase backup =
          artifactPlace sites row.toDatabase backup
  | .dump id _ | .dumpFails id _ | .upload id _ _ _ | .fail id _ =>
      ∀ place ∈ executionPlaces sites id state, ¬ state.HeldByOther id place
  | .complete id => ∀ storagePath db backup row,
      state.executions id = some (.running storagePath db .stored) →
      state.backups.find? id = some backup → state.databases.find? backup.databaseId = some row →
        artifactPlace sites row.toDatabase backup = writerPlace sites id storagePath db.toDatabase
  | .pruneBackup id calls | .deleteBackup id calls | .cleanupFailedBackup id calls =>
      DeletesSafely sites state id calls
  | _ => True

def Execution.Matches (written : Option (Written Host)) : Execution → Prop
  | .launched => written = none
  | .running storagePath db .stored => ∃ entry, written = some entry ∧
      writerPlace sites id storagePath db.toDatabase = some entry.place
  | .running _ _ _ => written = none

end

/-- The artifact of a backup is where its row says, and its content is what has been written. -/
structure Placed (state : State Host) (id : String) : Prop where
  located : ∀ backup, state.backups.find? id = some backup → backup.status = .completed →
    ∃ written db, state.written id = some written ∧
      state.databases.find? backup.databaseId = some db ∧
      artifactPlace sites db.toDatabase backup = some written.place
  kept : state.Live id → ∀ written, state.written id = some written →
    state.store written.place = some ⟨id, written.content⟩
  executing : ∀ execution, state.executions id = some execution →
    execution.Matches sites id (state.written id) ∧
      ∀ backup, state.backups.find? id = some backup → backup.status ≠ .completed
  housed : ∀ backup, state.backups.find? id = some backup →
    (state.databases.find? backup.databaseId).isSome

variable {sites} {state : State Host}

theorem deletesWritten_of_placed {label : Label} (h : ∀ id, Placed sites state id)
    (hsettled : Settled sites state label) : DeletesWritten sites state label := by
  intro id calls backup db written store hlabel hbackup hcompleted hdb hwritten hdelete
  have hlost : calls.removal ≠ .lost := by
    cases label with
    | pruneBackup _ _ | deleteBackup _ _ | cleanupFailedBackup _ _ =>
      obtain ⟨rfl, rfl⟩ := Prod.mk.inj (some.inj hlabel)
      exact hsettled.2.1
    | _ => cases hlabel
  obtain ⟨entry, row, hentry, hrow, hplace⟩ := (h id).located backup hbackup hcompleted
  obtain rfl : written = entry := some.inj (hwritten.symm.trans hentry)
  obtain rfl : db = row := some.inj (hdb.symm.trans hrow)
  have hkept := (h id).kept ⟨backup, hbackup, .inl hcompleted⟩ written hwritten
  have hstore : store = Function.update state.store written.place none := by
    rcases deleteBackupArtifact_cases sites db.toDatabase backup calls state.store with
      ⟨hnone, -⟩ | ⟨place, hsome, hresult⟩ | ⟨message, hresult⟩
    · rw [hplace] at hnone
      nomatch hnone
    · obtain rfl : written.place = place := some.inj (hplace.symm.trans hsome)
      rw [hdelete] at hresult
      cases hremoval : calls.removal with
      | succeeds => rw [hremoval] at hresult; exact (Prod.mk.inj hresult).1
      | fails message removed =>
        rw [hremoval] at hresult
        cases removed with
        | true | false => exact absurd (Prod.mk.inj hresult).2 nofun
      | lost => exact absurd hremoval hlost
    · rw [hdelete] at hresult
      exact absurd (Prod.mk.inj hresult).2 nofun
  subst hstore
  constructor
  · intro artifact hartifact
    rw [update_self] at hartifact
    nomatch hartifact
  · intro place artifact hartifact howner
    rw [update_of_ne, hartifact]
    rintro rfl
    rw [hkept] at hartifact
    exact howner (some.inj hartifact ▸ rfl)

variable {status : BackupStatus} {execution : Execution}

section

omit [DecidableEq Host]

theorem yieldsWritten_of_placed (h : ∀ id, Placed sites state id) : YieldsWritten sites state := by
  intro id backup hbackup hcompleted
  obtain ⟨written, db, hwritten, hdb, hplace⟩ := (h id).located backup hbackup hcompleted
  refine ⟨written, db, hwritten, hdb, fun calls hcalls ↦ ?_⟩
  have hkept := (h id).kept ⟨backup, hbackup, .inl hcompleted⟩ written hwritten
  exact getBackupDownload_yields hcompleted hplace hkept hcalls

/-! ### Steps about one backup -/

/-- A step about one backup leaves the other backups as they are. -/
structure Frame (id : String) (before after : State Host) : Prop where
  databases : after.databases = before.databases
  backups : ∀ other, other ≠ id → after.backups.find? other = before.backups.find? other
  executions : ∀ other, other ≠ id → after.executions other = before.executions other
  written : ∀ other, other ≠ id → after.written other = before.written other
  store : ∀ place, after.store place = before.store place ∨ ¬ before.HeldByOther id place

variable {before after : State Host} {id other : String}

theorem Placed.frame (h : Placed sites before other) (hframe : Frame id before after)
    (hother : other ≠ id) : Placed sites after other := by
  have hbackups := hframe.backups other hother
  have hexecutions := hframe.executions other hother
  have hwritten := hframe.written other hother
  constructor
  · intro backup hbackup hcompleted
    rw [hwritten, hframe.databases]
    exact h.located backup (hbackups ▸ hbackup) hcompleted
  · intro hlive written hsome
    have hlive : before.Live other := by
      unfold State.Live at hlive ⊢
      rwa [hbackups, hexecutions] at hlive
    rw [hwritten] at hsome
    rcases hframe.store written.place with hsame | hheld
    · rw [hsame]
      exact h.kept hlive written hsome
    · exact absurd ⟨other, written, hother, hlive, hsome, rfl⟩ hheld
  · intro execution hexecution
    rw [hexecutions] at hexecution
    rw [hwritten, hbackups]
    exact h.executing execution hexecution
  · intro backup hbackup
    rw [hframe.databases]
    exact h.housed backup (hbackups ▸ hbackup)

theorem execution_self {entry : Option Execution}
    (h : (before.execution id entry).executions id = some execution) : entry = some execution := by
  simpa [State.execution] using h

/-- The rows of a backup that is not completed. -/
def State.Open (state : State Host) (id : String) : Prop :=
  ∀ row, state.backups.find? id = some row → row.status ≠ .completed ∧
    (state.databases.find? row.databaseId).isSome

theorem Placed.isOpen (h : Placed sites before id)
    (hexecution : before.executions id = some execution) : before.Open id :=
  fun row hrow ↦ ⟨(h.executing execution hexecution).2 row hrow, h.housed row hrow⟩

/-- A backup that is not completed is placed with what its execution has written. -/
theorem placed_of_open (hopen : after.Open id) (hkept : after.Live id → ∀ written,
      after.written id = some written → after.store written.place = some ⟨id, written.content⟩)
    (hexecution : ∀ execution, after.executions id = some execution →
      execution.Matches sites id (after.written id)) : Placed sites after id where
  located row hrow hcompleted := absurd hcompleted (hopen row hrow).1
  kept := hkept
  executing execution hsome := ⟨hexecution execution hsome, fun row hrow ↦ (hopen row hrow).1⟩
  housed row hrow := (hopen row hrow).2

theorem kept_of_unwritten (hunwritten : state.written id = none) : state.Live id → ∀ written,
    state.written id = some written → state.store written.place = some ⟨id, written.content⟩ := by
  intro _ written hsome
  nomatch hunwritten.symm.trans hsome

theorem find?_setStatus (backups : Table StoredBackup) (id : String) (status : BackupStatus)
    (other : String) : (setStatus backups id status).find? other =
      if id = other then (backups.find? other).map fun backup ↦ { backup with status := status }
      else backups.find? other :=
  Table.find?_update _ _ _ _ _

variable {backups : Table StoredBackup} {backup : StoredBackup}

@[simp]
theorem find?_setStatus_of_ne (h : other ≠ id) (status : BackupStatus) :
    (setStatus backups id status).find? other = backups.find? other := by
  rw [find?_setStatus, if_neg h.symm]

theorem exists_of_setStatus (h : (setStatus backups id status).find? id = some backup) :
    ∃ row, backups.find? id = some row ∧ backup = { row with status := status } := by
  rw [find?_setStatus, if_pos rfl] at h
  obtain ⟨row, hrow, rfl⟩ := map_eq_some_iff.mp h
  exact ⟨row, hrow, rfl⟩

variable {store : Place Host → Option Artifact}

theorem setStatus_frame (entry : Option Execution)
    (hstore : ∀ place, store place = before.store place ∨ ¬ before.HeldByOther id place) :
    Frame id before { before.execution id entry with
      backups := setStatus before.backups id status, store := store } :=
  ⟨rfl, fun _ hkey ↦ find?_setStatus_of_ne hkey _, fun _ hkey ↦ update_of_ne hkey _ _,
    fun _ _ ↦ rfl, hstore⟩

/-- A backup whose status is set to another one than completed. -/
theorem open_of_setStatus (h : Placed sites before id)
    (hbackups : after.backups = setStatus before.backups id status)
    (hdatabases : after.databases = before.databases) (hstatus : status ≠ .completed) :
    after.Open id := by
  intro row hrow
  rw [hbackups] at hrow
  obtain ⟨old, hold, rfl⟩ := exists_of_setStatus hrow
  rw [hdatabases]
  exact ⟨hstatus, h.housed old hold⟩

section

variable (h : ∀ other, Placed sites before other)
include h

theorem placed_of_frame (id : String) (hframe : Frame id before after)
    (hself : Placed sites after id) (other : String) : Placed sites after other := by
  by_cases hother : other = id
  · exact hother ▸ hself
  · exact (h other).frame hframe hother

/-- What a completed backup has at its place belongs to no other one. -/
theorem not_heldByOther {written : Written Host} (hlive : before.Live id)
    (hwritten : before.written id = some written) : ¬ before.HeldByOther id written.place := by
  rintro ⟨other, entry, hother, hotherLive, hentry, hplace⟩
  have hkept := (h other).kept hotherLive entry hentry
  rw [hplace, (h id).kept hlive written hwritten] at hkept
  exact hother (congrArg Artifact.owner (some.inj hkept)).symm

theorem placed_createBackup {databaseId timestamp : String}
    (hnext : createBackup databaseId id timestamp before = some after) :
    ∀ other, Placed sites after other := by
  obtain ⟨db, hdb, hnext⟩ := bind_eq_some_iff.mp hnext
  by_cases hunused : before.Unused id
  · rw [if_pos hunused] at hnext
    obtain rfl := some.inj hnext
    obtain ⟨hfresh, -, hwritten⟩ := hunused
    rw [isNone_iff_eq_none] at hwritten
    set row : StoredBackup := ⟨id, databaseId, backupFilename db.toDatabase timestamp,
      db.backupStorageType, storagePathOf db timestamp, .pending⟩
    have hfound : ∀ key, (before.backups.insert row).find? key =
        if id = key then some row else before.backups.find? key :=
      fun key ↦ Table.find?_insert hfresh key
    refine placed_of_frame h id ?_ (placed_of_open ?_ (kept_of_unwritten hwritten) ?_)
    · exact ⟨rfl, fun key hkey ↦ (hfound key).trans (if_neg (Ne.symm hkey)),
        fun key hkey ↦ update_of_ne hkey _ _, fun _ _ ↦ rfl, fun _ ↦ .inl rfl⟩
    · intro backup hbackup
      obtain rfl := some.inj (((hfound id).trans (if_pos rfl)).symm.trans hbackup)
      exact ⟨nofun, isSome_iff_exists.mpr ⟨db, hdb⟩⟩
    · intro execution hexecution
      obtain rfl := some.inj (execution_self hexecution)
      exact hwritten
  · rw [if_neg hunused] at hnext
    nomatch hnext

theorem placed_startExecution (hnext : startExecution id before = some after) :
    ∀ other, Placed sites after other := by
  unfold startExecution at hnext
  split at hnext
  · next hlaunched =>
    have hunwritten : before.written id = none := ((h id).executing _ hlaunched).1
    cases hfound : before.backups.find? id with
    | none =>
      rw [hfound] at hnext
      obtain rfl := some.inj hnext
      refine placed_of_frame h id ?_ (placed_of_open ?_ (kept_of_unwritten hunwritten) ?_)
      · exact ⟨rfl, fun _ _ ↦ rfl, fun key hkey ↦ update_of_ne hkey _ _, fun _ _ ↦ rfl,
          fun _ ↦ .inl rfl⟩
      · intro backup hbackup
        nomatch hfound.symm.trans hbackup
      · intro execution hexecution
        nomatch execution_self hexecution
    | some backup =>
      rw [hfound] at hnext
      obtain ⟨db, hdb, rfl⟩ := map_eq_some_iff.mp hnext
      refine placed_of_frame h id (setStatus_frame _ fun _ ↦ .inl rfl) (placed_of_open
        (open_of_setStatus (h id) rfl rfl nofun) (kept_of_unwritten hunwritten) ?_)
      intro execution hexecution
      obtain rfl := some.inj (execution_self hexecution)
      exact hunwritten
  · nomatch hnext

theorem placed_complete (hsettled : Settled sites before (.complete id))
    (hnext : complete id before = some after) : ∀ other, Placed sites after other := by
  unfold complete at hnext
  split at hnext
  · next storagePath db hexecution =>
    obtain rfl := some.inj hnext
    obtain ⟨⟨written, hwritten, hplace⟩, -⟩ := (h id).executing _ hexecution
    refine placed_of_frame h id (setStatus_frame none fun _ ↦ .inl rfl) ⟨?_, ?_, ?_, ?_⟩
    · intro backup hbackup _
      obtain ⟨row, hrow, rfl⟩ := exists_of_setStatus hbackup
      obtain ⟨current, hcurrent⟩ := isSome_iff_exists.mp ((h id).housed row hrow)
      refine ⟨written, current, hwritten, hcurrent, ?_⟩
      rw [← hplace]
      exact hsettled storagePath db row current hexecution hrow hcurrent
    · rintro ⟨backup, hbackup, -⟩ entry hentry
      obtain ⟨row, hrow, -⟩ := exists_of_setStatus hbackup
      refine (h id).kept ⟨row, hrow, .inr ?_⟩ entry hentry
      rw [hexecution]
      rfl
    · intro execution hsome
      nomatch execution_self hsome
    · intro backup hbackup
      obtain ⟨row, hrow, rfl⟩ := exists_of_setStatus hbackup
      exact (h id).housed row hrow
  · nomatch hnext

theorem placed_markStuck (hbackup : before.backups.find? id = some backup) : ∀ other,
    Placed sites { before with backups := setStatus before.backups id .failed } other := by
  refine placed_of_frame h id ?_ (placed_of_open (open_of_setStatus (h id) rfl rfl nofun) ?_
    fun execution hexecution ↦ ((h id).executing execution hexecution).1)
  · exact ⟨rfl, fun _ hkey ↦ find?_setStatus_of_ne hkey _, fun _ _ ↦ rfl, fun _ _ ↦ rfl,
      fun _ ↦ .inl rfl⟩
  · rintro ⟨row, hrow, hlive⟩ written hwritten
    obtain ⟨_, -, rfl⟩ := exists_of_setStatus hrow
    exact (h id).kept ⟨backup, hbackup, .inr (hlive.resolve_left nofun)⟩ written hwritten

end

variable {place : Place Host} {storagePath : String} {db : StoredDatabase} {stage : Stage}
  (hexecution : state.executions id = some (.running storagePath db stage))
include hexecution

theorem mem_executionPlaces_dump
    (hplace : dumpPlace sites id storagePath db.toDatabase = some place) :
    place ∈ executionPlaces sites id state := by
  simp [executionPlaces, hexecution, hplace]

theorem mem_executionPlaces_spaces (hspaces : db.backupStorageType = .spaces)
    (hplace : place = tempPlace sites id db.toDatabase ∨
      place = serverTempPlace sites id db.toDatabase ∨
      objectPlace sites storagePath db.toDatabase = some place) :
    place ∈ executionPlaces sites id state := by
  rcases hplace with rfl | rfl | hobject
  · simp [executionPlaces, hexecution, hspaces]
  · simp [executionPlaces, hexecution, hspaces]
  · simp [executionPlaces, hexecution, hspaces, hobject]

end

section

variable {before after : State Host} {id : String} {backup : StoredBackup} {db : StoredDatabase}
  {unlinked : Bool}

section

variable {other place : Place Host} {store : Place Host → Option Artifact} {content : String}
  (hstore : store other = before.store other ∨ ¬ before.HeldByOther id other)
include hstore

theorem removed_frame (hfree : ¬ before.HeldByOther id place) :
    Function.update store place none other = before.store other ∨
      ¬ before.HeldByOther id other := by
  by_cases hother : other = place
  · exact .inr (hother ▸ hfree)
  · rwa [update_of_ne hother]

theorem written_frame (hfree : ¬ before.HeldByOther id place) :
    writeAt place id content store other = before.store other ∨ ¬ before.HeldByOther id other := by
  unfold writeAt
  by_cases hother : other = place
  · exact .inr (hother ▸ hfree)
  · rwa [update_of_ne hother]

/-- The removal of the temporary file, in the `catch` block and behind an upload. -/
theorem unlinkTemp_frame {db : Database} (hfree : ¬ before.HeldByOther id (tempPlace sites id db)) :
    unlinkTemp sites id unlinked db store other = before.store other ∨
      ¬ before.HeldByOther id other := by
  unfold unlinkTemp
  split_ifs
  · exact removed_frame hstore hfree
  · exact hstore

end

theorem unlinkTemp_object {endpoint bucket key : String} {db : Database}
    {store : Place Host → Option Artifact} :
    unlinkTemp sites id unlinked db store (.object endpoint bucket key) =
      store (.object endpoint bucket key) := by
  unfold unlinkTemp
  split_ifs
  · simp [update_of_ne, tempPlace]
  · rfl

theorem fetchDump_frame {downloaded : String} {removed : Bool} {db : Database}
    (hfree : ¬ before.HeldByOther id (tempPlace sites id db))
    (hserver : ¬ before.HeldByOther id (serverTempPlace sites id db)) (other : Place Host) :
    fetchDump sites id downloaded removed db before.store other = before.store other ∨
      ¬ before.HeldByOther id other := by
  unfold fetchDump
  split_ifs
  · exact .inl rfl
  · exact removed_frame (written_frame (.inl rfl) hfree) hserver
  · exact written_frame (.inl rfl) hfree
  · exact .inl rfl

section

variable (h : ∀ other, Placed sites before other)
  (hfree : ∀ place ∈ executionPlaces sites id before, ¬ before.HeldByOther id place)
include h hfree

theorem placed_dump {content : String} (hnext : dump sites id content before = some after) :
    ∀ other, Placed sites after other := by
  unfold dump at hnext
  split at hnext
  · next storagePath db hexecution =>
    obtain ⟨place, hplace, rfl⟩ := map_eq_some_iff.mp hnext
    have hunwritten : before.written id = none := ((h id).executing _ hexecution).1
    have hheld := hfree place (mem_executionPlaces_dump hexecution hplace)
    by_cases hspaces : db.backupStorageType = .spaces
    · simp only [if_pos hspaces]
      refine placed_of_frame h id ?_ (placed_of_open ((h id).isOpen hexecution)
        (kept_of_unwritten hunwritten) ?_)
      · exact ⟨rfl, fun _ _ ↦ rfl, fun key hkey ↦ update_of_ne hkey _ _, fun _ _ ↦ rfl,
          fun _ ↦ written_frame (.inl rfl) hheld⟩
      · intro execution hexecution
        obtain rfl := some.inj (execution_self hexecution)
        exact hunwritten
    · simp only [if_neg hspaces]
      have hself : Function.update before.written id (some ⟨place, content⟩) id =
          some ⟨place, content⟩ := update_self id _ _
      refine placed_of_frame h id ?_ (placed_of_open ((h id).isOpen hexecution) ?_ ?_)
      · exact ⟨rfl, fun _ _ ↦ rfl, fun key hkey ↦ update_of_ne hkey _ _,
          fun key hkey ↦ update_of_ne hkey _ _, fun _ ↦ written_frame (.inl rfl) hheld⟩
      · intro _ written hsome
        obtain rfl := some.inj (hself.symm.trans hsome)
        exact update_self place _ _
      · intro execution hexecution
        obtain rfl := some.inj (execution_self hexecution)
        exact ⟨_, hself, (if_neg hspaces).trans hplace⟩
  · nomatch hnext

theorem placed_dumpFails {part : Option String} (hnext : dumpFails sites id part before = some after) :
    ∀ other, Placed sites after other := by
  unfold dumpFails at hnext
  split at hnext
  · next storagePath db hexecution =>
    obtain ⟨place, hplace, rfl⟩ := map_eq_some_iff.mp hnext
    have hheld := hfree place (mem_executionPlaces_dump hexecution hplace)
    cases part with
    | none => exact h
    | some content =>
      refine placed_of_frame h id ?_ (placed_of_open ((h id).isOpen hexecution)
        (kept_of_unwritten ((h id).executing _ hexecution).1)
        fun execution hsome ↦ ((h id).executing execution hsome).1)
      exact ⟨rfl, fun _ _ ↦ rfl, fun _ _ ↦ rfl, fun _ _ ↦ rfl, fun _ ↦
        written_frame (.inl rfl) hheld⟩
  · nomatch hnext

theorem placed_upload {downloaded : String} {removed : Bool}
    (hnext : upload sites id downloaded removed unlinked before = some after) :
    ∀ other, Placed sites after other := by
  unfold upload at hnext
  split at hnext
  · next storagePath db hexecution =>
    by_cases hspaces : db.backupStorageType = .spaces
    · rw [if_pos hspaces] at hnext
      obtain ⟨place, hplace, hnext⟩ := bind_eq_some_iff.mp hnext
      obtain ⟨temp, -, hnext⟩ := bind_eq_some_iff.mp hnext
      obtain rfl := some.inj hnext
      have hplaces := fun place hwhere ↦
        hfree place (mem_executionPlaces_spaces hexecution hspaces hwhere)
      have htemp := hplaces _ (.inl rfl)
      have hself : Function.update before.written id (some ⟨place, temp.content⟩) id =
          some ⟨place, temp.content⟩ := update_self id _ _
      refine placed_of_frame h id ?_ (placed_of_open ((h id).isOpen hexecution) ?_ ?_)
      · exact ⟨rfl, fun _ _ ↦ rfl, fun key hkey ↦ update_of_ne hkey _ _,
          fun key hkey ↦ update_of_ne hkey _ _, fun key ↦ unlinkTemp_frame (written_frame
            (fetchDump_frame htemp (hplaces _ (.inr (.inl rfl))) key)
            (hplaces _ (.inr (.inr hplace)))) htemp⟩
      · intro _ written hsome
        obtain rfl := some.inj (hself.symm.trans hsome)
        obtain ⟨bucket, -, rfl⟩ := map_eq_some_iff.mp hplace
        exact unlinkTemp_object.trans (update_self _ _ _)
      · intro execution hexecution
        obtain rfl := some.inj (execution_self hexecution)
        exact ⟨_, hself, (if_pos hspaces).trans hplace⟩
    · rw [if_neg hspaces] at hnext
      nomatch hnext
  · nomatch hnext

theorem placed_fail (hnext : fail sites id unlinked before = some after) :
    ∀ other, Placed sites after other := by
  unfold fail at hnext
  split at hnext
  · next storagePath db stage hexecution =>
    obtain rfl := some.inj hnext
    refine placed_of_frame h id (setStatus_frame none fun place ↦ ?_) (placed_of_open
      (open_of_setStatus (h id) rfl rfl nofun) ?_ ?_)
    · split_ifs with hspaces
      · have htemp := hfree _ (mem_executionPlaces_spaces hexecution hspaces (.inl rfl))
        exact unlinkTemp_frame (.inl rfl) htemp
      · exact .inl rfl
    · rintro ⟨backup, hbackup, hlive⟩
      obtain ⟨row, -, rfl⟩ := exists_of_setStatus hbackup
      rcases hlive with hcompleted | hexecuting
      · nomatch hcompleted
      · obtain ⟨execution, hsome⟩ := isSome_iff_exists.mp hexecuting
        nomatch execution_self hsome
    · intro execution hsome
      nomatch execution_self hsome
  · nomatch hnext

end

variable {calls : DeleteCalls}

theorem deleteBackupArtifact_safe (h : ∀ other, Placed sites before other)
    (hsafe : DeletesSafely sites before id calls) (hbackup : before.backups.find? id = some backup)
    (hdb : before.databases.find? backup.databaseId = some db) :
    (∀ place, (deleteBackupArtifact sites db.toDatabase backup calls before.store).1 place =
      before.store place ∨ ¬ before.HeldByOther id place) ∧
    ((deleteBackupArtifact sites db.toDatabase backup calls before.store).2.isOk ∨
      (deleteBackupArtifact sites db.toDatabase backup calls before.store).1 = before.store) := by
  rcases deleteBackupArtifact_cases sites db.toDatabase backup calls before.store with
    ⟨-, hresult⟩ | ⟨place, hplace, hresult⟩ | ⟨message, hresult⟩
  · rw [hresult]
    exact ⟨fun _ ↦ .inl rfl, .inl rfl⟩
  · have hfree : ¬ before.HeldByOther id place := by
      by_cases hcompleted : backup.status = .completed
      · obtain ⟨written, row, hwritten, hrow, hwhere⟩ := (h id).located backup hbackup hcompleted
        obtain rfl := some.inj (hdb.symm.trans hrow)
        obtain rfl := some.inj (hplace.symm.trans hwhere)
        exact not_heldByOther h ⟨backup, hbackup, .inl hcompleted⟩ hwritten
      · exact hsafe.1 backup db place hbackup hdb hcompleted hplace
    rw [hresult]
    cases hremoval : calls.removal with
    | succeeds => exact ⟨fun _ ↦ removed_frame (.inl rfl) hfree, .inl rfl⟩
    | fails message removed =>
      cases removed with
      | true => exact absurd hremoval (hsafe.2.2 message)
      | false => exact ⟨fun _ ↦ .inl rfl, .inr rfl⟩
    | lost => exact ⟨fun _ ↦ .inl rfl, .inl rfl⟩
  · rw [hresult]
    exact ⟨fun _ ↦ .inl rfl, .inr rfl⟩

theorem placed_deleteWith {always : Bool} (h : ∀ other, Placed sites before other)
    (hsafe : DeletesSafely sites before id calls)
    (hnext : deleteWith sites always id calls before = some after) :
    ∀ other, Placed sites after other := by
  unfold deleteWith at hnext
  cases hbackup : before.backups.find? id with
  | none =>
    rw [hbackup] at hnext
    exact some.inj hnext ▸ h
  | some backup =>
    rw [hbackup] at hnext
    obtain ⟨db, hdb, rfl⟩ := map_eq_some_iff.mp hnext
    obtain ⟨hstore, hdone⟩ := deleteBackupArtifact_safe h hsafe hbackup hdb
    simp only
    split_ifs with herased
    · have hgone : ∀ row, (before.backups.erase id).find? id ≠ some row := by simp
      refine placed_of_frame h id ?_ ⟨?_, ?_, ?_, ?_⟩
      · exact ⟨rfl, fun key hkey ↦ by simp [Ne.symm hkey], fun _ _ ↦ rfl, fun _ _ ↦ rfl, hstore⟩
      · exact fun row hrow ↦ absurd hrow (hgone row)
      · exact fun ⟨row, hrow, _⟩ ↦ absurd hrow (hgone row)
      · exact fun execution hexecution ↦ ⟨((h id).executing execution hexecution).1,
          fun row hrow ↦ absurd hrow (hgone row)⟩
      · exact fun row hrow ↦ absurd hrow (hgone row)
    · have hsame := hdone.resolve_left (not_or.mp herased).2
      rw [hsame]
      exact h

/-! ### Steps about a database -/

theorem find?_changed (databases : Table StoredDatabase) (id : String) (db : StoredDatabase)
    (other : String) : (databases.update id (changed db) fun _ ↦ rfl).find? other =
      if id = other then (databases.find? other).map (changed db) else databases.find? other :=
  Table.find?_update _ _ _ _ _

omit [DecidableEq Host] in
theorem Placed.databases {databases : Table StoredDatabase}
    (h : Placed sites before id) (hhoused : ∀ backup, before.backups.find? id = some backup →
      (databases.find? backup.databaseId).isSome)
    (hplaces : ∀ backup db row, before.backups.find? id = some backup → backup.status = .completed →
      before.databases.find? backup.databaseId = some db →
      databases.find? backup.databaseId = some row →
        artifactPlace sites row.toDatabase backup = artifactPlace sites db.toDatabase backup) :
    Placed sites { before with databases := databases } id := by
  refine ⟨fun backup hbackup hcompleted ↦ ?_, h.kept, h.executing, hhoused⟩
  obtain ⟨written, db, hwritten, hdb, hplace⟩ := h.located backup hbackup hcompleted
  obtain ⟨row, hrow⟩ := isSome_iff_exists.mp (hhoused backup hbackup)
  refine ⟨written, row, hwritten, hrow, ?_⟩
  rw [hplaces backup db row hbackup hcompleted hdb hrow, hplace]

/-- Every settled step keeps the artifacts at their places. -/
theorem placed_next {label : Label} (h : ∀ id, Placed sites before id)
    (hsettled : Settled sites before label) (hnext : next sites before label = some after)
    (id : String) : Placed sites after id := by
  cases label with
  | createDatabase db =>
    change (if before.databases.Fresh db.id then
      some { before with databases := before.databases.insert db } else none) = some after at hnext
    split_ifs at hnext
    obtain rfl := some.inj hnext
    have hkept : ∀ key row, before.databases.find? key = some row →
        (before.databases.insert db).find? key = some row := fun key row hrow ↦
      (Table.extends_insert _ _).find?_eq hrow
    refine (h id).databases (fun backup hbackup ↦ ?_) fun backup old row _ _ hold hrow ↦ ?_
    · obtain ⟨row, hrow⟩ := isSome_iff_exists.mp ((h id).housed backup hbackup)
      rw [hkept _ row hrow]
      rfl
    · rw [hkept _ old hold] at hrow
      rw [some.inj hrow]
  | updateDatabase key db =>
    obtain ⟨old, hold, rfl⟩ := map_eq_some_iff.mp hnext
    refine (h id).databases (fun backup hbackup ↦ ?_)
      fun backup row new hbackup hcompleted hrow hnew ↦ ?_
    · rw [find?_changed]
      split_ifs
      · rw [isSome_map]
        exact (h id).housed backup hbackup
      · exact (h id).housed backup hbackup
    · rw [find?_changed, hrow] at hnew
      split_ifs at hnew with hkey
      · subst hkey
        obtain rfl := some.inj (hold.symm.trans hrow)
        obtain rfl := some.inj hnew
        exact hsettled old hold backup (Table.find?_eq_some_iff.mp hbackup).1 rfl hcompleted
      · rw [some.inj hnew]
  | deleteDatabase key =>
    change (if before.backups.rows.all (·.databaseId ≠ key) then
      some { before with databases := before.databases.erase key } else none) = some after at hnext
    split_ifs at hnext with hempty
    obtain rfl := some.inj hnext
    have hother : ∀ backup, before.backups.find? id = some backup → ¬ key = backup.databaseId := by
      intro backup hbackup
      have hmem := (Table.find?_eq_some_iff.mp hbackup).1
      exact Ne.symm (of_decide_eq_true (List.all_eq_true.mp hempty backup hmem))
    refine (h id).databases (fun backup hbackup ↦ ?_) fun backup old row hbackup _ hold hrow ↦ ?_
    · rw [Table.find?_erase, if_neg (hother backup hbackup)]
      exact (h id).housed backup hbackup
    · rw [Table.find?_erase, if_neg (hother backup hbackup), hold] at hrow
      rw [some.inj hrow]
  | createBackup databaseId key timestamp => exact placed_createBackup h hnext id
  | executeBackup key => exact placed_startExecution h hnext id
  | dump key content => exact placed_dump h hsettled hnext id
  | dumpFails key part => exact placed_dumpFails h hsettled hnext id
  | upload key downloaded removed unlinked => exact placed_upload h hsettled hnext id
  | complete key => exact placed_complete h hsettled hnext id
  | fail key unlinked => exact placed_fail h hsettled hnext id
  | markStuck key =>
    obtain ⟨backup, hbackup, hnext⟩ := bind_eq_some_iff.mp hnext
    split_ifs at hnext
    obtain rfl := some.inj hnext
    exact placed_markStuck h hbackup id
  | pruneBackup _ _ | deleteBackup _ _ => exact placed_deleteWith h hsettled hnext id
  | cleanupFailedBackup key calls =>
    change cleanupFailedBackup sites key calls before = some after at hnext
    unfold cleanupFailedBackup at hnext
    split at hnext
    · split_ifs at hnext
      exact placed_deleteWith h hsettled hnext id
    · nomatch hnext

end

theorem placed_run {labels : List Label} {final : State Host}
    (hrun : (machine sites).run State.start labels = some final)
    (hsettled : (machine sites).Meets (Settled sites) State.start labels) (id : String) :
    Placed sites final id :=
  Machine.induction_of_meets (motive := fun _ state ↦ ∀ id, Placed sites state id)
    (fun _ ↦ by
      exact ⟨fun _ ↦ nofun, fun ⟨_, h, _⟩ ↦ absurd h nofun, fun _ ↦ nofun, fun _ ↦ nofun⟩)
    (fun _ _ _ _ _ hbefore hlabel hnext ↦ placed_next hbefore hlabel hnext) hrun hsettled id

/-- In every run of settled steps, deletions remove what has been written and downloads yield it. -/
theorem artifactsFollow {labels : List Label}
    (hsettled : (machine sites).Meets (Settled sites) State.start labels) :
    ArtifactsFollow sites labels := by
  constructor
  · rintro before label state ⟨rest, rfl⟩ hrun
    obtain ⟨hbefore, hlabel⟩ := Machine.meets_concat.mp (Machine.meets_append.mp hsettled).1
    exact deletesWritten_of_placed (placed_run hrun hbefore) (hlabel state hrun)
  · rintro before state ⟨rest, rfl⟩ hrun
    exact yieldsWritten_of_placed (placed_run hrun (Machine.meets_append.mp hsettled).1)

/-! ### A database with a server -/

/-- A PostgreSQL database on a server, whose backups are kept in files. -/
def postgresDatabase (hostname : String) : StoredDatabase :=
  { localDatabase with
    id := "db"
    type := "postgres"
    host := some "db.internal"
    port := some 5432
    databaseName := some "app"
    filePath := none
    serverHostname := some hostname
    backupLocalPath := none
    backupSpacesPrefix := none }

/-- Every host name is a machine of its own. -/
def plainSites : Sites (Option String) :=
  ⟨id, fun _ ↦ "nyc3.digitaloceanspaces.com", "/tmp"⟩

def deletion : DeleteCalls :=
  ⟨true, true, .succeeds⟩

def backupLabels (hostname : String) : List Label :=
  [.createDatabase (postgresDatabase hostname), .createBackup "db" "backup" "2026-01-01",
    .executeBackup "backup", .dump "backup" "CREATE TABLE app;", .complete "backup"]

/-- A sufficient check of a step. -/
def settles (state : State (Option String)) : Label → Bool
  | .createDatabase _ | .createBackup _ _ _ | .executeBackup _ => true
  | .dump id _ => state.backups.rows.all (·.id = id)
  | .complete id =>
    match state.executions id, state.backups.find? id with
    | some (.running storagePath db .stored), some backup =>
      match state.databases.find? backup.databaseId with
      | some row => artifactPlace plainSites row.toDatabase backup =
          writerPlace plainSites id storagePath db.toDatabase
      | none => true
    | _, _ => true
  | .pruneBackup _ calls =>
    match calls.removal with
    | .succeeds => state.backups.rows.all (·.status = .completed)
    | _ => false
  | _ => false

theorem settled_of_settles (state : State (Option String)) (label : Label)
    (h : settles state label) : Settled plainSites state label := by
  cases label with
  | createDatabase _ | createBackup _ _ _ | executeBackup _ => exact trivial
  | dump id content =>
    rintro place - ⟨other, written, hother, ⟨backup, hbackup, -⟩, -⟩
    obtain ⟨hmem, rfl⟩ := Table.find?_eq_some_iff.mp hbackup
    exact hother (of_decide_eq_true (List.all_eq_true.mp h backup hmem))
  | complete id =>
    intro storagePath db backup row hexecution hbackup hrow
    simp only [settles, hexecution, hbackup, hrow] at h
    exact of_decide_eq_true h
  | pruneBackup id calls =>
    obtain ⟨sshKey, spacesConfig, removal⟩ := calls
    cases removal with
    | succeeds =>
      refine ⟨fun backup _ _ hbackup _ hnot ↦ absurd ?_ hnot, nofun, fun _ ↦ nofun⟩
      exact of_decide_eq_true (List.all_eq_true.mp h backup (Table.find?_eq_some_iff.mp hbackup).1)
    | _ => cases h
  | _ => nomatch h

/-- Where the server of the database is BRIDGEPORT's own machine, the dump is on it. -/
theorem artifactsFollow_localPostgres :
    ((machine plainSites).run State.start
        (backupLabels "localhost" ++ [.pruneBackup "backup" deletion])).isSome ∧
      ArtifactsFollow plainSites
        (backupLabels "localhost" ++ [.pruneBackup "backup" deletion]) := by
  refine ⟨by decide +kernel, artifactsFollow ?_⟩
  refine Machine.meets_of_checks settled_of_settles ?_
  decide +kernel

def leftBehind (state : State (Option String)) : Option Artifact := do
  let backup ← state.backups.find? "backup"
  let db ← state.databases.find? backup.databaseId
  let written ← state.written "backup"
  let result := deleteBackupArtifact plainSites db.toDatabase backup deletion state.store
  if backup.status = .completed ∧ result.2.isOk then result.1 written.place else none

theorem leftBehind_of_deletesWritten {state : State (Option String)} {artifact : Artifact}
    (h : DeletesWritten plainSites state (.pruneBackup "backup" deletion))
    (hleft : leftBehind state = some artifact) :
    artifact.owner ≠ "backup" := by
  obtain ⟨backup, hbackup, hleft⟩ := bind_eq_some_iff.mp hleft
  obtain ⟨db, hdb, hleft⟩ := bind_eq_some_iff.mp hleft
  obtain ⟨written, hwritten, hleft⟩ := bind_eq_some_iff.mp hleft
  dsimp only at hleft
  split_ifs at hleft with hdone
  obtain ⟨hcompleted, hok⟩ := hdone
  set result := deleteBackupArtifact plainSites db.toDatabase backup deletion state.store
    with hresult
  have hsame : deleteBackupArtifact plainSites db.toDatabase backup deletion state.store =
      (result.1, .ok ()) := by
    refine Prod.ext rfl ?_
    cases houtcome : result.2 with
    | ok value => rfl
    | error message => rw [houtcome] at hok; nomatch hok
  exact (h "backup" deletion backup db written result.1 rfl hbackup hcompleted hdb hwritten
    hsame).1 artifact hleft

/-- The dump of a PostgreSQL database on a remote server stays where BRIDGEPORT runs, when its
deletion has succeeded on the server. -/
theorem not_artifactsFollow_remotePostgres :
    ((machine plainSites).run State.start
        (backupLabels "app.internal" ++ [.pruneBackup "backup" deletion])).isSome ∧
      ¬ ArtifactsFollow plainSites
        (backupLabels "app.internal" ++ [.pruneBackup "backup" deletion]) := by
  refine ⟨by decide +kernel, fun h ↦ ?_⟩
  have hleft : ((machine plainSites).run State.start (backupLabels "app.internal")).bind leftBehind =
      some ⟨"backup", "CREATE TABLE app;"⟩ := by
    decide +kernel
  obtain ⟨state, hrun, hleft⟩ := bind_eq_some_iff.mp hleft
  exact leftBehind_of_deletesWritten (h.deletes _ _ state List.prefix_rfl hrun) hleft rfl

end Bridgeport.Backup.Artifacts
