import Bridgeport.Backup.ArtifactRuns
import Bridgeport.Backup.PolicyRoutes

/-!
# The upgrade to backup rotation

The migration `20260624145904_add_backup_rotation_policy` and what runs after it without an
operator: the sweep of the scheduler, scheduled and manual backups with the rotations behind the
scheduled ones, and the clean-ups of stuck and failed backups, while the instance-wide defaults may
change.

A rotation decides in one step what it prunes, and a clean-up what it looks at; the backups are then
taken one by one, with anything in between. A rotation that an error ends leaves the rest of its
backups. The background execution of a backup is the one of `Artifacts`; no execution survives the
restart of an upgrade.
-/

namespace Bridgeport.Backup.Upgrade

open Foundation Artifacts List

deriving instance DecidableEq for StoredBackup

variable {Host : Type}

/-- What the rotation and the clean-ups read of a backup row, beside the columns in
`StoredBackup`. -/
structure Details where
  type : BackupType
  (createdAt size : ℤ)
  isPinned : Bool

/-- A `BackupSchedule` row. -/
structure BackupSchedule where
  databaseId : String
  retentionDays : ℤ

/-- `databaseId` is unique. -/
instance : Keyed BackupSchedule :=
  ⟨BackupSchedule.databaseId⟩

/-- The database of an instance before the migration, with the artifacts of its backups; every
backup has its database. -/
structure Legacy (Host : Type) where
  databases : Table StoredDatabase
  backups : Table StoredBackup
  details : String → Details
  schedules : Table BackupSchedule
  pgDumpTimeoutMs : ℕ
  store : Place Host → Option Artifact
  housed : ∀ backup ∈ backups.rows, (databases.find? backup.databaseId).isSome

/-! ### The migration -/

/-- A `BackupRetentionPolicy` row with the database that it belongs to. -/
structure StoredPolicy where
  databaseId : String
  policy : PolicyRow

instance : Keyed StoredPolicy :=
  ⟨StoredPolicy.databaseId⟩

/-- The first `INSERT`, for a row of `BackupSchedule`. -/
def policyOfSchedule (schedule : BackupSchedule) : StoredPolicy :=
  ⟨schedule.databaseId,
    { keepLast := 12, daily := min schedule.retentionDays 366, weekly := 0, monthly := 0,
      yearly := 0, minFloor := 2, maxTotalBytes := none, autoApplied := true,
      inheritGlobal := false, preset := .custom }⟩

/-- The second `INSERT`, for a database. -/
def balancedPolicy (db : StoredDatabase) : StoredPolicy :=
  ⟨db.id,
    { keepLast := 24, daily := 7, weekly := 4, monthly := 6, yearly := 0, minFloor := 2,
      maxTotalBytes := none, autoApplied := true, inheritGlobal := false, preset := .custom }⟩

/-- The databases that the second `INSERT` selects: there is a backup, and no policy yet. -/
def Legacy.unscheduled (legacy : Legacy Host) : List StoredDatabase :=
  legacy.databases.rows.filter fun db ↦
    (∃ backup ∈ legacy.backups.rows, backup.databaseId = db.id) ∧
      ¬ ∃ schedule ∈ legacy.schedules.rows, schedule.databaseId = db.id

/-- The policies that the two `INSERT`s leave. -/
def Legacy.policies (legacy : Legacy Host) : Table StoredPolicy where
  rows := legacy.schedules.rows.map policyOfSchedule ++ legacy.unscheduled.map balancedPolicy
  nodup_ids := by
    rw [map_append, map_map, map_map]
    refine List.Nodup.append legacy.schedules.nodup_ids ?_ ?_
    · exact legacy.databases.nodup_ids.sublist (filter_sublist.map Keyed.id)
    · intro id hscheduled hunscheduled
      obtain ⟨schedule, hschedule, rfl⟩ := mem_map.mp hscheduled
      obtain ⟨db, hdb, hid⟩ := mem_map.mp hunscheduled
      have hselected := of_decide_eq_true (mem_filter.mp hdb).2
      exact hselected.2 ⟨schedule, hschedule, Eq.symm hid⟩

structure Settings extends RetentionSettings where
  failedBackupRetentionDays : ℤ
  pgDumpTimeoutMs : ℕ

/-- The settings of the migrated instance: the new columns have their defaults. -/
def migratedSettings (utc : TimeZone) (pgDumpTimeoutMs : ℕ) : Settings :=
  { keepLast := 24, daily := 7, weekly := 4, monthly := 6, yearly := 0, minFloor := 2,
    maxTotalBytes := none, timezone := utc, preset := .balanced, confirmThreshold := 5,
    failedBackupRetentionDays := 3, pgDumpTimeoutMs }

/-- The instance behind the migration; the lists are what running rotations and clean-ups have yet
to take. -/
structure State (Host : Type) where
  artifacts : Artifacts.State Host
  details : String → Details
  policies : Table StoredPolicy
  settings : Settings
  (pruning stuck : List String)
  failed : List StoredBackup

/-- The migration: the new columns of a backup have their defaults, too. -/
def Legacy.migrate (utc : TimeZone) (legacy : Legacy Host) : State Host where
  artifacts := ⟨legacy.databases, legacy.backups, fun _ ↦ none, legacy.store, fun _ ↦ none⟩
  details id := { legacy.details id with isPinned := false }
  policies := legacy.policies
  settings := migratedSettings utc legacy.pgDumpTimeoutMs
  pruning := []
  stuck := []
  failed := []

inductive ExecutionStep
  | execute
  | dump (content : String)
  | dumpFails (part : Option String)
  | upload (downloaded : String) (removed unlinked : Bool)
  | complete (size : ℤ)
  | fail (unlinked : Bool)

inductive Label
  | createBackup (databaseId backupId timestamp : String) (type : BackupType) (createdAt : ℤ)
  | execution (backupId : String) (step : ExecutionStep)
  | postBackup (databaseId : String)
  | sweep (databaseId : String)
  | prune (backupId : String) (calls : DeleteCalls)
  | findStuck (now : ℤ)
  | markStuck (backupId : String)
  | findFailed (now : ℤ)
  | cleanup (backup : StoredBackup) (calls : DeleteCalls)
  | changeDefaults (settings : Settings)

variable (state : State Host) (databaseId : String)

def State.policyOf : Option PolicyRow :=
  (state.policies.find? databaseId).map StoredPolicy.policy

def State.rows : List DatabaseBackup :=
  state.artifacts.backups.rows.map fun backup ↦
    let details := state.details backup.id
    { id := backup.id, createdAt := details.createdAt, size := details.size,
      databaseId := backup.databaseId, type := details.type, status := backup.status,
      isPinned := details.isPinned }

/-- The beginning of `rotateDatabase` with an automatic trigger, up to what it prunes. -/
def rotateDatabase (state : State Host) : State Host :=
  let policy := resolveRetentionPolicy state.settings.toRetentionSettings
    (state.policyOf databaseId)
  if policy.autoApplied then state
  else
    let plan := planRotation state.settings.timezone policy.toRetentionPolicy state.rows databaseId
    { state with pruning := state.pruning ++ plan.prune }

/-- `STUCK_BACKUP_GRACE_MS`. -/
def stuckBackupGraceMs : ℤ :=
  5 * 60 * 1000

/-- `DEFAULT_PG_DUMP_TIMEOUT_MS`. -/
def defaultPgDumpTimeoutMs : ℕ :=
  300000

/-- The backup is in progress for longer than the timeout of its database. -/
def State.Stuck (now : ℤ) (backup : StoredBackup) : Prop :=
  backup.status = .inProgress ∧ ∃ db ∈ state.artifacts.databases.find? backup.databaseId,
    let fallback := if state.settings.pgDumpTimeoutMs = 0 then defaultPgDumpTimeoutMs
      else state.settings.pgDumpTimeoutMs
    let timeout := if db.pgDumpTimeoutMs = 0 then fallback else db.pgDumpTimeoutMs
    (state.details backup.id).createdAt + timeout + stuckBackupGraceMs < now

instance (now : ℤ) (backup : StoredBackup) : Decidable (state.Stuck now backup) :=
  inferInstanceAs (Decidable (_ ∧ _))

/-- The backups that `cleanupFailedBackups` looks at. -/
def State.oldFailed (now : ℤ) : List StoredBackup :=
  if state.settings.failedBackupRetentionDays ≤ 0 then []
  else
    let cutoff := now - state.settings.failedBackupRetentionDays * 24 * 60 * 60 * 1000
    state.artifacts.backups.rows.filter fun backup ↦
      backup.status = .failed ∧ (state.details backup.id).createdAt < cutoff

/-- A row of `createBackup` has no size yet. -/
def newDetails (type : BackupType) (createdAt : ℤ) : Details :=
  ⟨type, createdAt, 0, false⟩

def ExecutionStep.details (id : String) (details : String → Details) :
    ExecutionStep → String → Details
  | .complete size => Function.update details id { details id with size }
  | _ => details

variable [DecidableEq Host] (sites : Sites Host)

def advance (id : String) (state : Artifacts.State Host) :
    ExecutionStep → Option (Artifacts.State Host)
  | .execute => startExecution id state
  | .dump content => dump sites id content state
  | .dumpFails part => dumpFails sites id part state
  | .upload downloaded removed unlinked => upload sites id downloaded removed unlinked state
  | .complete _ => complete id state
  | .fail unlinked => fail sites id unlinked state

/-- The turn of `cleanupFailedBackups` for a row that it has read. -/
def cleanup (backup : StoredBackup) (calls : DeleteCalls) (state : Artifacts.State Host) :
    Option (Artifacts.State Host) :=
  (state.databases.find? backup.databaseId).map fun db ↦
    let result := deleteBackupArtifact sites db.toDatabase backup calls state.store
    if result.2.isOk then
      { state with backups := state.backups.erase backup.id, store := result.1 }
    else { state with store := result.1 }

def next (state : State Host) : Label → Option (State Host)
  | .createBackup databaseId backupId timestamp type createdAt =>
    (createBackup databaseId backupId timestamp state.artifacts).map fun artifacts ↦
      { state with
        artifacts
        details := Function.update state.details backupId (newDetails type createdAt) }
  | .execution id step => (advance sites id state.artifacts step).map fun artifacts ↦
      { state with artifacts, details := step.details id state.details }
  | .postBackup databaseId => some (rotateDatabase databaseId state)
  | .sweep databaseId =>
    if ∃ backup ∈ state.artifacts.backups.rows, backup.databaseId = databaseId then
      some (rotateDatabase databaseId state)
    else none
  | .prune id calls =>
    if id ∈ state.pruning then
      (pruneBackup sites id calls state.artifacts).map fun artifacts ↦
        { state with artifacts, pruning := state.pruning.erase id }
    else none
  | .findStuck now => some { state with
      stuck := state.stuck ++ (state.artifacts.backups.rows.filter (state.Stuck now)).map (·.id) }
  | .markStuck id =>
    if id ∈ state.stuck then
      match state.artifacts.backups.find? id with
      | some backup =>
        if backup.status = .inProgress then some { state with
          artifacts := { state.artifacts with
            backups := setStatus state.artifacts.backups id .failed }
          stuck := state.stuck.erase id }
        else some { state with stuck := state.stuck.erase id }
      | none => some { state with stuck := state.stuck.erase id }
    else none
  | .findFailed now => some { state with failed := state.failed ++ state.oldFailed now }
  | .cleanup backup calls =>
    if backup ∈ state.failed then
      (cleanup sites backup calls state.artifacts).map fun artifacts ↦
        { state with artifacts, failed := state.failed.erase backup }
    else none
  | .changeDefaults settings => some { state with settings }

def machine : Machine (State Host) Label :=
  ⟨next sites⟩

end Bridgeport.Backup.Upgrade
