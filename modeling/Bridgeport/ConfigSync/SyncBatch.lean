import Bridgeport.ConfigSync.SyncConfigFile

/-!
# Sync batches

`executeBatch` syncs a list of config files in order. With `rollbackOnFailure` it stops at the first
operation that does not end `ok`, marks the operations behind it as skipped and walks back over the
operations that did: it restores the snapshot of the config file row and syncs the file again.

A `BatchFaults` chooses what goes wrong in every sync of the forward pass and of the rollback, and
in the rollback's transactions. The writes of the batch's own rows succeed: `executeBatch` throws
otherwise and has no status.

The hosts and the config file rows are separate parts of the state, so that what the batch restores
can be told from what it leaves behind.
-/

namespace Bridgeport.ConfigSync

open Foundation Secrets

/-- The config file rows, with their primary key. -/
@[ext]
structure ConfigFileTable where
  rows : List ConfigFile
  nodup_ids : (rows.map (·.id)).Nodup

/-- `configFile.findUnique`. -/
def ConfigFileTable.find (table : ConfigFileTable) (id : String) : Option ConfigFile :=
  table.rows.find? (·.id = id)

def restoreRow (id : String) (snapshot row : ConfigFile) : ConfigFile :=
  if row.id = id then { row with content := snapshot.content, isBinary := snapshot.isBinary }
  else row

theorem id_restoreRow (id : String) (snapshot row : ConfigFile) :
    (restoreRow id snapshot row).id = row.id := by
  unfold restoreRow
  split_ifs <;> rfl

/-- `configFile.update` with the content of a snapshot. -/
def ConfigFileTable.restore (table : ConfigFileTable) (id : String) (snapshot : ConfigFile) :
    ConfigFileTable where
  rows := table.rows.map (restoreRow id snapshot)
  nodup_ids := by
    rw [List.map_map]
    have hids : (fun row : ConfigFile ↦ row.id) ∘ restoreRow id snapshot = fun row ↦ row.id :=
      funext fun row ↦ id_restoreRow id snapshot row
    rw [hids]
    exact table.nodup_ids

/-- A `FileHistory` row. -/
structure FileHistory where
  content : Text
  configFileId : String

/-- `BatchStatus`. -/
inductive BatchStatus
  | ok
  | partialFailure
  | rolledBack
  | failed
  deriving DecidableEq

/-- `BatchOperationStatus`. -/
inductive BatchOperationStatus
  | pending
  | ok
  | failed
  | skipped
  | rolledBack
  | rollbackFailed
  deriving DecidableEq

structure OperationError where
  (code message : String)

/-- The entries of `opStatus` and `opErrors` for one operation. -/
structure OperationReport where
  status : BatchOperationStatus
  error : Option OperationError

/-- `SyncStatus`, in capitals. -/
def SyncStatus.code : SyncStatus → String
  | .ok => "OK"
  | .noTargets => "NO_TARGETS"
  | .partialFailure => "PARTIAL"
  | .failed => "FAILED"

def summarizeSyncFailure (outcome : SyncOutcome) : String :=
  let firstErr := ((outcome.results.find? fun result ↦
    ¬ result.success ∧ result.error.any (· ≠ "")).bind (·.error)).filter (· ≠ "")
  match outcome.status with
  | .noTargets => "Config file \"" ++ outcome.configFileName ++ "\" is not attached to any service"
  | .failed =>
    match firstErr with
    | some message => "All targets failed: " ++ message
    | none => "All " ++ toString outcome.targetsAttempted ++ " targets failed"
  | _ =>
    let count := toString outcome.targetsFailed ++ "/" ++ toString outcome.targetsAttempted
    match firstErr with
    | some message => count ++ " targets failed: " ++ message
    | none => count ++ " targets failed"

/-- What goes wrong in a batch, by the index of the operation. -/
structure BatchFaults (Blob : Type*) where
  forward : ℕ → SyncFaults Blob
  undoTransaction : ℕ → Option String
  undo : ℕ → SyncFaults Blob

section

variable {Blob Host : Type*} [DecidableEq Host] (rendering : Rendering Blob)
  (hostOf : Server → Host) (faults : BatchFaults Blob) (table : ConfigFileTable)

/-- One operation of the forward pass: what is recorded for it, and the writes of its sync. The
config file is looked up in the rows loaded before the first operation. -/
def attemptOperation (index : ℕ) (configFileId : String) :
    OperationReport × List (HostWrite Host Blob) :=
  match table.find configFileId with
  | none => (⟨.failed, some ⟨"NOT_FOUND", "Config file not found"⟩⟩, [])
  | some configFile =>
    let run := syncConfigFile rendering hostOf (faults.forward index) (some configFile)
    match run.answer with
    | .threw message => (⟨.failed, some ⟨"INTERNAL", message⟩⟩, run.writes)
    | .missing => (⟨.failed, some ⟨"NOT_FOUND", "Config file not found"⟩⟩, run.writes)
    | .outcome outcome =>
      if outcome.status ≠ .ok then
        (⟨.failed, some ⟨outcome.status.code, summarizeSyncFailure outcome⟩⟩, run.writes)
      else (⟨.ok, none⟩, run.writes)

/-- The variables of the forward pass. -/
structure ForwardState (Host Blob : Type*) where
  hosts : Hosts Host Blob
  reports : List OperationReport
  succeededOps : List ℕ
  firstFailureIndex : Option ℕ

/-- The forward pass over the operations from `index` on. -/
def forwardPass (table : ConfigFileTable) (rollbackOnFailure : Bool) :
    ℕ → List String → ForwardState Host Blob → ForwardState Host Blob
  | _, [], state => state
  | index, configFileId :: rest, state =>
    let (report, writes) := attemptOperation rendering hostOf faults table index configFileId
    let hosts := applyWrites writes state.hosts
    let reports := state.reports ++ [report]
    if report.status = .ok then
      forwardPass table rollbackOnFailure (index + 1) rest
        ⟨hosts, reports, state.succeededOps ++ [index], state.firstFailureIndex⟩
    else
      let failed := ⟨hosts, reports, state.succeededOps, state.firstFailureIndex.or (some index)⟩
      if rollbackOnFailure then failed
      else forwardPass table rollbackOnFailure (index + 1) rest failed

structure UndoState (Host Blob : Type*) where
  hosts : Hosts Host Blob
  table : ConfigFileTable
  history : List FileHistory
  reports : List OperationReport
  anyRollbackFailed : Bool

def UndoState.mark (state : UndoState Host Blob) (index : ℕ) (status : BatchOperationStatus) :
    UndoState Host Blob :=
  { state with
    reports := state.reports.modify index fun report ↦ { report with status := status }
    anyRollbackFailed := state.anyRollbackFailed || status = .rollbackFailed }

/-- The rollback of one operation, with the rows loaded before the first operation as snapshots. -/
def undoOperation (preload : ConfigFileTable) (operations : List String)
    (state : UndoState Host Blob) (index : ℕ) : UndoState Host Blob :=
  let configFileId := operations.getD index ""
  match preload.find configFileId with
  | none => state.mark index .rollbackFailed
  | some snapshot =>
    match faults.undoTransaction index with
    | some _ => state.mark index .rollbackFailed
    | none =>
      -- the transaction records the current content and restores the snapshot
      let history := state.history ++
        ((state.table.find configFileId).map fun current ↦ ⟨current.content, configFileId⟩).toList
      let table := state.table.restore configFileId snapshot
      let run := syncConfigFile rendering hostOf (faults.undo index) (table.find configFileId)
      let pushed := { state with
        hosts := applyWrites run.writes state.hosts
        table := table
        history := history }
      match run.answer with
      | .outcome outcome =>
        if outcome.status ≠ .ok then pushed.mark index .rollbackFailed
        else pushed.mark index .rolledBack
      | _ => pushed.mark index .rollbackFailed

/-- The input of `executeBatch`. -/
structure BatchExecuteInput where
  operations : List String
  rollbackOnFailure : Bool

structure BatchRun (Host Blob : Type*) where
  status : BatchStatus
  reports : List OperationReport
  hosts : Hosts Host Blob
  table : ConfigFileTable
  history : List FileHistory

/-- The loaded config files of the operations do not all lie in one environment. -/
def spansEnvironments (operations : List String) : Bool :=
  let environments := (operations.filterMap table.find).map (·.environmentId)
  environments.any fun environmentId ↦ environments.head? ≠ some environmentId

def executeBatch (history : List FileHistory) (hosts : Hosts Host Blob) (input : BatchExecuteInput) :
    BatchRun Host Blob :=
  if spansEnvironments table input.operations then
    let rejected := ⟨.failed, some ⟨"VALIDATION_ERROR", "Batch spans multiple environments"⟩⟩
    ⟨.failed, input.operations.map fun _ ↦ rejected, hosts, table, history⟩
  else
    let forward := forwardPass rendering hostOf faults table input.rollbackOnFailure 0
      input.operations ⟨hosts, [], [], none⟩
    match forward.firstFailureIndex with
    | none => ⟨.ok, forward.reports, forward.hosts, table, history⟩
    | some _ =>
      if input.rollbackOnFailure then
        let skipped := List.replicate (input.operations.length - forward.reports.length)
          (⟨.skipped, none⟩ : OperationReport)
        let undone := forward.succeededOps.reverse.foldl
          (undoOperation rendering hostOf faults table input.operations)
          ⟨forward.hosts, table, history, forward.reports ++ skipped, false⟩
        ⟨if undone.anyRollbackFailed then .partialFailure else .rolledBack, undone.reports,
          undone.hosts, undone.table, undone.history⟩
      else
        let okCount := forward.reports.countP (·.status = .ok)
        ⟨if okCount = 0 then .failed else .partialFailure, forward.reports, forward.hosts, table,
          history⟩

end

end Bridgeport.ConfigSync
