import Bridgeport.Backup.ExecuteBackup
import Bridgeport.Foundation.Tables

/-!
# The places of a backup

`services/database-backup.ts` has no record of where a backup has been written. The execution takes
the place from the database row that it starts with (`writerPlace`); the deletion and the download
take it from the database row at the time, and from the storage type and path of the backup
(`artifactPlace`).

A place is a file of a machine or an object of a bucket. `Sites` says which machine a host name
stands for, where BRIDGEPORT itself runs, and which Spaces endpoint an environment has.
-/

namespace Bridgeport.Backup

open Foundation Program

inductive Place (Host : Type)
  | file (machine : Host) (path : String)
  | object (endpoint bucket key : String)
  deriving DecidableEq

/-- The machines of the host names; commands without a host run where BRIDGEPORT does. -/
structure Sites (Host : Type) where
  machine : Option String → Host
  endpoint : String → String
  tmpdir : String

/-- A database row, with the fields that `createBackup` reads. -/
structure StoredDatabase extends Database where
  (backupLocalPath backupSpacesPrefix : Option String)

structure StoredBackup where
  (id databaseId filename : String)
  storageType : StorageType
  storagePath : String
  status : BackupStatus

instance : Keyed StoredDatabase :=
  ⟨fun row ↦ row.id⟩

instance : Keyed StoredBackup :=
  ⟨StoredBackup.id⟩

variable {Host : Type}

/-! ### The execution -/

def Client.host : Client → Option String
  | .local => none
  | .ssh hostname _ _ => some hostname

/-- The host of the client of a server: a local name is where BRIDGEPORT runs. -/
def sshHost (hostname : Option String) : Option String :=
  hostname.filter fun name ↦ ¬ isLocalhost name

variable (db : Database)

def dumpsOnServer : Prop :=
  db.backupCommand.filter (· ≠ "") = none ∧ ¬ (db.type = "postgres" ∧ orElse db.host "" ≠ "") ∧
    db.type = "sqlite" ∧ orElse db.filePath "" ≠ ""

instance : Decidable (dumpsOnServer db) :=
  inferInstanceAs (Decidable (_ ∧ _))

/-- The host that the dump of a database runs on, if it has a configuration that can be dumped:
`pg_dump` runs where BRIDGEPORT does. -/
def dumpHost : Option (Option String) :=
  match db.backupCommand.filter (· ≠ "") with
  | some _ => some (sshHost db.serverHostname)
  | none =>
    if db.type = "postgres" ∧ orElse db.host "" ≠ "" then some none
    else if db.type = "sqlite" ∧ orElse db.filePath "" ≠ "" then
      db.serverHostname.map fun hostname ↦ sshHost (some hostname)
    else none

variable {db : Database}

theorem dumpHost_of_dumpsOnServer (h : dumpsOnServer db) :
    dumpHost db = db.serverHostname.map fun hostname ↦ sshHost (some hostname) := by
  obtain ⟨htemplate, hpostgres, hsqlite⟩ := h
  unfold dumpHost
  simp only [htemplate, if_neg hpostgres, if_pos hsqlite]

/-- `tempPath` of a backup to Spaces. -/
def tempPathOf (tmpdir backupId : String) (db : Database) : String :=
  tmpdir ++ "/backup-" ++ backupId ++ tempExtension db

/-- `sqliteServerTempPath`. -/
def serverTempPath (backupId : String) (db : Database) : String :=
  "/tmp/backup-" ++ backupId ++ tempExtension db

def dumpPath (tmpdir backupId storagePath : String) (db : Database) : String :=
  if db.backupStorageType = .spaces then
    if dumpsOnServer db then serverTempPath backupId db else tempPathOf tmpdir backupId db
  else storagePath

variable (sites : Sites Host)

def dumpPlace (backupId storagePath : String) (db : Database) : Option (Place Host) :=
  (dumpHost db).map fun host ↦
    .file (sites.machine host) (dumpPath sites.tmpdir backupId storagePath db)

def objectPlace (storagePath : String) (db : Database) : Option (Place Host) :=
  (db.backupSpacesBucket.filter (· ≠ "")).map fun bucket ↦
    .object (sites.endpoint db.environmentId) bucket storagePath

/-- Where the execution of a backup writes its artifact. -/
def writerPlace (backupId storagePath : String) (db : Database) : Option (Place Host) :=
  if db.backupStorageType = .spaces then objectPlace sites storagePath db
  else dumpPlace sites backupId storagePath db

/-! ### The deletion and the download -/

/-- Where the deletion and the download of a backup look for its artifact. -/
def artifactPlace (db : Database) (backup : StoredBackup) : Option (Place Host) :=
  match backup.storageType with
  | .local => db.serverHostname.map fun hostname ↦
      .file (sites.machine (sshHost (some hostname))) backup.storagePath
  | .spaces => objectPlace sites backup.storagePath db

/-- A file or an object that the execution of a backup has written. -/
structure Artifact where
  (owner content : String)
  deriving DecidableEq

/-- How the call ends that removes a file or an object: one that is missing is no failure, and a
removal that fails may still have taken place. One that is lost has not, and is no failure either:
`SSHClient.exec` answers 0 for a command that is killed and for a channel that is closed. -/
inductive Removal
  | succeeds
  | fails (message : String) (removed : Bool)
  | lost

/-- How the calls of a deletion end. -/
structure DeleteCalls where
  (sshKey spacesConfig : Bool)
  removal : Removal

section

variable [DecidableEq Host]

def removeAt (place : Place Host) (removal : Removal) (store : Place Host → Option Artifact) :
    (Place Host → Option Artifact) × Except String Unit :=
  match removal with
  | .succeeds => (Function.update store place none, .ok ())
  | .fails message true => (Function.update store place none, .error message)
  | .fails message false => (store, .error message)
  | .lost => (store, .ok ())

def deleteBackupArtifact (sites : Sites Host) (db : Database) (backup : StoredBackup)
    (calls : DeleteCalls) (store : Place Host → Option Artifact) :
    (Place Host → Option Artifact) × Except String Unit :=
  match backup.storageType with
  | .local =>
    match db.serverHostname with
    | none => (store, .ok ())
    | some hostname =>
      if ¬ isLocalhost hostname ∧ ¬ calls.sshKey then
        (store, .error "SSH key not configured for this environment")
      else removeAt (.file (sites.machine (sshHost (some hostname))) backup.storagePath)
        calls.removal store
  | .spaces =>
    match db.backupSpacesBucket.filter (· ≠ "") with
    | none => (store, .ok ())
    | some bucket =>
      if ¬ calls.spacesConfig then (store, .error "Spaces not configured for this environment")
      else removeAt (.object (sites.endpoint db.environmentId) bucket backup.storagePath)
        calls.removal store

/-- What a deletion can do: it finds no place to look at, it removes what is at the place, or it
fails without an attempt. -/
theorem deleteBackupArtifact_cases (db : Database) (backup : StoredBackup) (calls : DeleteCalls)
    (store : Place Host → Option Artifact) : (artifactPlace sites db backup = none ∧
      deleteBackupArtifact sites db backup calls store = (store, .ok ())) ∨
    (∃ place, artifactPlace sites db backup = some place ∧
      deleteBackupArtifact sites db backup calls store = removeAt place calls.removal store) ∨
    ∃ message, deleteBackupArtifact sites db backup calls store = (store, .error message) := by
  unfold deleteBackupArtifact artifactPlace objectPlace
  cases backup.storageType with
  | «local» =>
    cases db.serverHostname with
    | none => exact .inl ⟨rfl, rfl⟩
    | some hostname =>
      by_cases hkey : ¬ isLocalhost hostname ∧ ¬ calls.sshKey
      · exact .inr (.inr ⟨_, if_pos hkey⟩)
      · exact .inr (.inl ⟨_, rfl, if_neg hkey⟩)
  | spaces =>
    cases db.backupSpacesBucket.filter (· ≠ "") with
    | none => exact .inl ⟨rfl, rfl⟩
    | some bucket =>
      by_cases hconfig : ¬ calls.spacesConfig
      · exact .inr (.inr ⟨_, if_pos hconfig⟩)
      · exact .inr (.inl ⟨_, rfl, if_neg hconfig⟩)

end

/-- What the download of a backup hands out: a link to an object, or the content of a file. -/
inductive Download (Host : Type)
  | url (place : Place Host)
  | stream (filename content : String)

/-- How the calls of a download end, with what has arrived of a file when they are cut off. -/
structure DownloadCalls where
  (allowBackupDownload sshKey spacesConfig : Bool)
  (failure cut : Option String)

def DownloadCalls.Work (calls : DownloadCalls) : Prop :=
  calls.allowBackupDownload ∧ calls.sshKey ∧ calls.spacesConfig ∧ calls.failure = none ∧
    calls.cut = none

/-- `getBackupDownload` of a backup that has been found. -/
def getBackupDownload (db : Database) (backup : StoredBackup) (calls : DownloadCalls)
    (store : Place Host → Option Artifact) : Except String (Download Host) :=
  if backup.status ≠ .completed then .error "Backup is not completed"
  else if ¬ calls.allowBackupDownload then
    .error "Backup downloads are not allowed for this environment"
  else match backup.storageType with
  | .spaces =>
    if ¬ calls.spacesConfig then .error "Spaces not configured for this environment"
    else match db.backupSpacesBucket.filter (· ≠ "") with
    | none => .error "No Spaces bucket configured for this database"
    | some bucket => .ok (.url (.object (sites.endpoint db.environmentId) bucket backup.storagePath))
  | .local =>
    match db.serverHostname with
    | none => .error "Database server is not configured"
    | some hostname =>
      if ¬ isLocalhost hostname ∧ ¬ calls.sshKey then
        .error "SSH key not configured for this environment"
      else match calls.failure with
      | some message => .error message
      | none =>
        -- `cat … | base64` ends with the status of `base64`, so that a missing file is empty.
        let content := (store (.file (sites.machine (sshHost (some hostname)))
          backup.storagePath)).map (·.content)
        .ok (.stream backup.filename (calls.cut.getD (content.getD "")))

def Download.yields (store : Place Host → Option Artifact) : Download Host → Option String
  | .url place => (store place).map (·.content)
  | .stream _ content => some content

theorem getBackupDownload_yields {sites : Sites Host} {backup : StoredBackup}
    {calls : DownloadCalls} {store : Place Host → Option Artifact} {place : Place Host}
    {artifact : Artifact} (hcompleted : backup.status = .completed)
    (hplace : artifactPlace sites db backup = some place) (hstored : store place = some artifact)
    (hcalls : calls.Work) : ∃ download,
    getBackupDownload sites db backup calls store = .ok download ∧
      download.yields store = some artifact.content := by
  obtain ⟨hallowed, hkey, hconfig, hfailure, hcut⟩ := hcalls
  unfold artifactPlace objectPlace at hplace
  unfold getBackupDownload
  rw [if_neg (not_not.mpr hcompleted), if_neg (not_not.mpr hallowed)]
  cases hstorage : backup.storageType with
  | «local» =>
    rw [hstorage] at hplace
    obtain ⟨hostname, hserver, rfl⟩ := Option.map_eq_some_iff.mp hplace
    simp [hserver, hkey, hfailure, hcut, hstored, Download.yields]
  | spaces =>
    rw [hstorage] at hplace
    obtain ⟨bucket, hbucket, rfl⟩ := Option.map_eq_some_iff.mp hplace
    simp only [hconfig, not_true_eq_false, if_false, hbucket]
    exact ⟨_, rfl, by simp [Download.yields, hstored]⟩

end Bridgeport.Backup
