import Bridgeport.ConfigSync.SyncBatch
import Bridgeport.Foundation.JsonText
import Bridgeport.Foundation.Threads

/-!
# The execution of a sync batch

`services/sync-batch.ts` keeps a batch twice while it executes it: in the rows of the database,
which a replay answers with (`batchRowToResult`), and in the arrays from which `executeBatch` builds
its own answer. Here `executeBatch` is the program of its database statements and syncs, with the
route that calls it; `ConfigSync.SyncBatch` has the effects of the syncs on the hosts.

The code of a database error is not part of its message, so that whether it is a unique violation is
given by a predicate. Timestamps are left out.

Every statement of an execution keeps the rows those of the arrays (`Recorded`), and the result that
is built from the arrays is the one that is read back from the rows.
-/

namespace Bridgeport.SyncBatch

open Foundation Program
open Secrets (Text)
open ConfigSync (AutoResyncResult BatchOperationStatus BatchStatus OperationError OperationReport
  SyncOutcome SyncStatus summarizeSyncFailure)

/-- What is loaded of a config file before the first operation. -/
structure PreloadedFile where
  (id environmentId name : String)
  content : Text
  isBinary : Bool

structure BatchActor where
  (userId apiTokenId serviceAccountId : Option String)

inductive BatchRowStatus
  | pending
  | terminal (status : BatchStatus)

/-- The data of a new operation row. -/
structure OperationData where
  index : ℕ
  configFileId : String
  status : BatchOperationStatus
  error : Option String

structure OperationRow extends OperationData where
  id : String

structure BatchData where
  status : BatchRowStatus
  rollbackOnFailure : Bool
  (idempotencyKey idempotencyBodyHash : Option String)
  actor : BatchActor
  environmentId : Option String

structure BatchRow extends BatchData where
  id : String
  operations : List OperationRow

inductive OperationUpdate
  | snapshot (content : Text) (isBinary : Bool)
  | failed (error : String) (results : Option (List AutoResyncResult))
  | ok (results : List AutoResyncResult)
  | skipped
  | rolledBack
  | rollbackFailed (rollbackError : String)

/-- What an execution and a lookup await. -/
inductive Call
  | findConfigFiles (ids : List String)
  | createBatch (data : BatchData) (operations : List OperationData)
  | findBatch (idempotencyKey bodyHash : String)
  | findOtherBatch (idempotencyKey bodyHash : String)
  | updateOperation (id : String) (update : OperationUpdate)
  | updateBatch (id : String) (status : BatchStatus)
  | syncConfigFile (configFileId : String)
  | restoreConfigFile (configFileId : String) (content : Text) (isBinary : Bool)
      (editedById : Option String)
  | createAuditLog (action resourceId batchId : String) (success : Bool)
  | emitWebhookEvent (environmentId batchId : String) (status : BatchStatus) (operationCount : ℕ)

abbrev Answer : Call → Type
  | .findConfigFiles _ => List PreloadedFile
  | .createBatch _ _ => BatchRow
  | .findBatch _ _ => Option BatchRow
  | .findOtherBatch _ _ => Option String
  | .updateOperation _ _ => Unit
  | .updateBatch _ _ => Unit
  | .syncConfigFile _ => Option SyncOutcome
  | .restoreConfigFile _ _ _ _ => Unit
  | .createAuditLog _ _ _ _ => Unit
  | .emitWebhookEvent _ _ _ _ => Unit

abbrev Async := Program Answer

abbrev await (request : Call) : Async (Answer request) := perform request

/-- `logAudit`: a log that cannot be written does not fail the operation. -/
def logAudit (action resourceId batchId : String) (success : Bool) : Async Unit :=
  emit (.createAuditLog action resourceId batchId success)

structure ResultError where
  code : Option String
  message : String

structure BatchOperationResult where
  index : ℕ
  status : BatchOperationStatus
  error : Option ResultError

/-- `BatchExecuteResult`; a row that is read too early has no terminal status. -/
structure BatchExecuteResult where
  batchId : String
  status : BatchRowStatus
  operations : List BatchOperationResult

/-- `JSON.stringify` of an error. -/
def stringifyError (error : OperationError) : String :=
  String.ofList (Json.stringifyRecord [("code".toList, error.code.toList),
    ("message".toList, error.message.toList)])

def textOf : Json → Option String
  | .string characters => some (String.ofList characters)
  | _ => none

/-- `parseErrorJson`; other texts become the message. -/
def parseErrorJson (raw : Option String) : Option ResultError :=
  match raw with
  | none => none
  | some text =>
    if text = "" then none
    else
      match Json.parse text.toList with
      | none => some ⟨none, text⟩
      | some json =>
        match (json.member "message".toList).bind textOf with
        | some message => some ⟨(json.member "code".toList).bind textOf, message⟩
        | none => some ⟨none, text⟩

def operationResult (row : OperationRow) : BatchOperationResult :=
  ⟨row.index, row.status, parseErrorJson row.error⟩

def batchRowToResult (row : BatchRow) : BatchExecuteResult :=
  ⟨row.id, row.status, row.operations.map operationResult⟩

/-- The answer of `lookupIdempotentBatch`; a conflict is an exception of its own class. -/
inductive Lookup
  | replay (result : BatchExecuteResult)
  | conflict
  | fresh

def lookupIdempotentBatch (idempotencyKey bodyHash : String) : Async Lookup := do
  let sameBody ← await (.findBatch idempotencyKey bodyHash)
  match sameBody with
  | some row => pure (.replay (batchRowToResult row))
  | none => do
    let differentBody ← await (.findOtherBatch idempotencyKey bodyHash)
    pure (if differentBody.isSome then .conflict else .fresh)

/-! ### The forward pass -/

/-- The input of `executeBatch`. -/
structure BatchExecuteInput where
  operations : List String
  rollbackOnFailure : Bool
  actor : BatchActor
  (idempotencyKey idempotencyBodyHash : Option String)

structure OpRow where
  id : String
  index : ℕ
  configFileId : String

/-- What an execution keeps fixed. -/
structure Execution where
  input : BatchExecuteInput
  preload : List PreloadedFile
  batchId : String
  opRows : List OpRow

namespace Execution

variable (execution : Execution)

/-- `operations[i]`. -/
def configFileIdAt (i : ℕ) : String := execution.input.operations.getD i ""

/-- `opRows[i].id`. -/
def opIdAt (i : ℕ) : String := (execution.opRows.map (·.id)).getD i ""

/-- `preloadById.get`. -/
def preloaded (configFileId : String) : Option PreloadedFile :=
  execution.preload.find? (·.id = configFileId)

end Execution

/-- `markOpFailed`, with what is recorded for the operation. -/
def markOpFailed (opId code message : String) : Async OperationReport := do
  await (.updateOperation opId (.failed (stringifyError ⟨code, message⟩) none))
  pure ⟨.failed, some ⟨code, message⟩⟩

variable (execution : Execution)

/-- The end of an operation whose sync has answered. -/
def recordOutcome (i : ℕ) (outcome : SyncOutcome) : Async OperationReport :=
  let configFileId := execution.configFileIdAt i
  if outcome.status ≠ .ok then do
    let opError : OperationError := ⟨outcome.status.code, summarizeSyncFailure outcome⟩
    await (.updateOperation (execution.opIdAt i)
      (.failed (stringifyError opError) (some outcome.results)))
    logAudit "sync_files" configFileId execution.batchId false
    pure ⟨.failed, some opError⟩
  else do
    await (.updateOperation (execution.opIdAt i) (.ok outcome.results))
    logAudit "sync_files" configFileId execution.batchId true
    pure ⟨.ok, none⟩

/-- What a sync has done: it is caught if it throws. -/
def attemptSync (configFileId : String) : Async (Except String (Option SyncOutcome)) :=
  Program.tryCatch (do
    let outcome ← await (.syncConfigFile configFileId)
    pure (.ok outcome))
  fun message ↦ pure (.error message)

def attemptOperation (i : ℕ) : Async OperationReport :=
  let configFileId := execution.configFileIdAt i
  let opId := execution.opIdAt i
  match execution.preloaded configFileId with
  | none => markOpFailed opId "NOT_FOUND" "Config file not found"
  | some cf => do
    await (.updateOperation opId (.snapshot cf.content cf.isBinary))
    let attempt ← attemptSync configFileId
    match attempt with
    | .error message => markOpFailed opId "INTERNAL" message
    | .ok none => markOpFailed opId "NOT_FOUND" "Config file not found"
    | .ok (some outcome) => recordOutcome execution i outcome

/-- `opStatus` and `opErrors`, `succeededOps` and `firstFailureIndex`. -/
structure Progress where
  reports : List OperationReport
  succeededOps : List ℕ
  firstFailureIndex : Option ℕ

def Progress.record (progress : Progress) (i : ℕ) (report : OperationReport) : Progress where
  reports := progress.reports.set i report
  succeededOps :=
    if report.status = .ok then progress.succeededOps ++ [i] else progress.succeededOps
  firstFailureIndex :=
    if report.status = .ok then progress.firstFailureIndex
    else progress.firstFailureIndex.or (some i)

def forwardPass (execution : Execution) : List ℕ → Progress → Async Progress
  | [], progress => pure progress
  | i :: rest, progress => do
    let report ← attemptOperation execution i
    let next := progress.record i report
    if report.status ≠ .ok ∧ execution.input.rollbackOnFailure then pure next
    else forwardPass execution rest next

/-- An array entry with another status. -/
def setStatus (reports : List OperationReport) (i : ℕ) (status : BatchOperationStatus) :
    List OperationReport :=
  reports.modify i fun report ↦ { report with status := status }

def skipPending (execution : Execution) :
    List ℕ → List OperationReport → Async (List OperationReport)
  | [], reports => pure reports
  | i :: rest, reports =>
    if reports[i]?.map (·.status) = some .pending then do
      await (.updateOperation (execution.opIdAt i) .skipped)
      skipPending execution rest (setStatus reports i .skipped)
    else skipPending execution rest reports

def failRollback (opId reason : String) : Async BatchOperationStatus := do
  await (.updateOperation opId (.rollbackFailed reason))
  pure .rollbackFailed

/-- The `try` block of a rollback: the content is restored in a transaction, and pushed. -/
def restoreOperation (i : ℕ) (cf : PreloadedFile) : Async BatchOperationStatus := do
  let configFileId := execution.configFileIdAt i
  let opId := execution.opIdAt i
  await (.restoreConfigFile configFileId cf.content cf.isBinary execution.input.actor.userId)
  let restoreOutcome ← await (.syncConfigFile configFileId)
  match restoreOutcome with
  | none => do
    let status ← failRollback opId "Config file not found during rollback"
    logAudit "sync_files_rollback" configFileId execution.batchId false
    pure status
  | some outcome =>
    if outcome.status ≠ .ok then do
      let status ← failRollback opId (summarizeSyncFailure outcome)
      logAudit "sync_files_rollback" configFileId execution.batchId false
      pure status
    else do
      await (.updateOperation opId .rolledBack)
      logAudit "sync_files_rollback" configFileId execution.batchId true
      pure .rolledBack

def undoOperation (i : ℕ) : Async BatchOperationStatus :=
  match execution.preloaded (execution.configFileIdAt i) with
  | none => failRollback (execution.opIdAt i) "Config file vanished before rollback"
  | some cf => (restoreOperation execution i cf).tryCatch fun message ↦
    failRollback (execution.opIdAt i) message

/-- The rollback of the operations with the indices; the flag is `anyRollbackFailed`. -/
def rollback (execution : Execution) :
    List ℕ → List OperationReport → Bool → Async (List OperationReport × Bool)
  | [], reports, anyRollbackFailed => pure (reports, anyRollbackFailed)
  | i :: rest, reports, anyRollbackFailed => do
    let status ← undoOperation execution i
    rollback execution rest (setStatus reports i status)
      (anyRollbackFailed || decide (status = .rollbackFailed))

/-! ### The batch -/

/-- What `executeBatch` does after the forward pass, with the final status. -/
def settle (progress : Progress) : Async (List OperationReport × BatchStatus) :=
  match progress.firstFailureIndex with
  | none => pure (progress.reports, .ok)
  | some first =>
    if execution.input.rollbackOnFailure then do
      let later := (List.range execution.input.operations.length).drop (first + 1)
      let skipped ← skipPending execution later progress.reports
      let (reports, anyRollbackFailed) ←
        rollback execution progress.succeededOps.reverse skipped false
      pure (reports, if anyRollbackFailed then .partialFailure else .rolledBack)
    else
      let okCount := progress.reports.countP (·.status = .ok)
      pure (progress.reports, if okCount = 0 then .failed else .partialFailure)

def reportResult (index : ℕ) (report : OperationReport) : BatchOperationResult :=
  ⟨index, report.status, report.error.map fun error ↦ ⟨some error.code, error.message⟩⟩

/-- `executeBatch` from its batch row on. -/
def runBatch (environmentId : Option String) : Async BatchExecuteResult := do
  let count := execution.input.operations.length
  let progress ← forwardPass execution (List.range count)
    ⟨execution.opRows.map fun _ ↦ ⟨.pending, none⟩, [], none⟩
  let (reports, finalStatus) ← settle execution progress
  await (.updateBatch execution.batchId finalStatus)
  match environmentId with
  | some environmentId =>
    emit (.emitWebhookEvent environmentId execution.batchId finalStatus reports.length)
  | none => pure ()
  pure ⟨execution.batchId, .terminal finalStatus, reports.mapIdx reportResult⟩

/-- The environment of the loaded config files; `none` when there are several. -/
def resolveEnvironment (preload : List PreloadedFile) :
    List String → Option String → Option (Option String)
  | [], environmentId => some environmentId
  | configFileId :: rest, environmentId =>
    match preload.find? (·.id = configFileId), environmentId with
    | none, _ => resolveEnvironment preload rest environmentId
    | some cf, none => resolveEnvironment preload rest (some cf.environmentId)
    | some cf, some environmentId =>
      if environmentId ≠ cf.environmentId then none
      else resolveEnvironment preload rest (some environmentId)

/-- `persistRejectedBatch`; the key of a rejected batch is not stored. -/
def persistRejectedBatch (input : BatchExecuteInput) (reason : String)
    (preload : List PreloadedFile) : Async BatchExecuteResult := do
  let firstFile := preload.find? (·.id = input.operations.getD 0 "")
  let batch ← await (.createBatch
    ⟨.terminal .failed, input.rollbackOnFailure, none, none, input.actor,
      firstFile.map (·.environmentId)⟩
    (input.operations.mapIdx fun index configFileId ↦
      ⟨index, configFileId, .failed, some (stringifyError ⟨"VALIDATION_ERROR", reason⟩)⟩))
  logAudit "sync_batch_rejected" batch.id batch.id false
  pure (batchRowToResult batch)

variable (isUniqueViolation : String → Bool)

def openBatch (input : BatchExecuteInput) (environmentId : Option String) :
    Async (BatchExecuteResult ⊕ BatchRow) :=
  Program.tryCatch (do
    let batch ← await (.createBatch
      ⟨.pending, input.rollbackOnFailure, input.idempotencyKey, input.idempotencyBodyHash,
        input.actor, environmentId⟩
      (input.operations.mapIdx fun index configFileId ↦ ⟨index, configFileId, .pending, none⟩))
    pure (.inr batch))
  fun message ↦
    match isUniqueViolation message, input.idempotencyKey, input.idempotencyBodyHash with
    | true, some idempotencyKey, some bodyHash => do
      let replay ← lookupIdempotentBatch idempotencyKey bodyHash
      match replay with
      | .replay result => pure (.inl result)
      | .conflict => throw "Idempotency-Key reuse with a different request body"
      | .fresh => throw message
    | _, _, _ => throw message

def executeBatch (input : BatchExecuteInput) : Async BatchExecuteResult := do
  let preload ← await (.findConfigFiles input.operations)
  match resolveEnvironment preload input.operations none with
  | none => persistRejectedBatch input "Batch spans multiple environments" preload
  | some environmentId => do
    let batch ← openBatch isUniqueViolation input environmentId
    match batch with
    | .inl replay => pure replay
    | .inr row =>
      runBatch ⟨input, preload, row.id,
        row.operations.map fun operation ↦ ⟨operation.id, operation.index, operation.configFileId⟩⟩
        environmentId

/-! ### The rows and the arrays of a batch -/

variable (data : BatchData) {id : String} {update : OperationUpdate} (batch : BatchRow)

section

def OperationUpdate.apply (update : OperationUpdate) (row : OperationRow) : OperationRow :=
  match update with
  | .snapshot _ _ => row
  | .failed error _ => { row with status := .failed, error := some error }
  | .ok _ => { row with status := .ok }
  | .skipped => { row with status := .skipped }
  | .rolledBack => { row with status := .rolledBack }
  | .rollbackFailed _ => { row with status := .rollbackFailed }

def updateRows (id : String) (update : OperationUpdate) (rows : List OperationRow) :
    List OperationRow :=
  rows.map fun row ↦ if row.id = id then update.apply row else row

def BatchRow.updateOperation (id : String) (update : OperationUpdate) : BatchRow :=
  { batch with operations := updateRows id update batch.operations }

def BatchRow.setStatus (id : String) (status : BatchRowStatus) : BatchRow :=
  if batch.id = id then { batch with status := status } else batch

variable {batch : BatchRow}

theorem BatchRow.updateOperation_of_notMem (h : id ∉ batch.operations.map (·.id)) :
    batch.updateOperation id update = batch := by
  unfold BatchRow.updateOperation updateRows
  have hrows : ∀ row ∈ batch.operations, (if row.id = id then update.apply row else row) = row :=
    fun row hrow ↦ if_neg fun hid ↦ h (List.mem_map.mpr ⟨row, hrow, hid⟩)
  rw [List.map_congr_left hrows, List.map_id']

def BatchData.HasKey (idempotencyKey bodyHash : String) : Prop :=
  data.idempotencyKey = some idempotencyKey ∧ data.idempotencyBodyHash = some bodyHash

instance (idempotencyKey bodyHash : String) : Decidable (data.HasKey idempotencyKey bodyHash) :=
  inferInstanceAs (Decidable (_ ∧ _))

/-- The batch has the key with another body hash. -/
def BatchData.HasOtherBody (idempotencyKey bodyHash : String) : Prop :=
  data.idempotencyKey = some idempotencyKey ∧ ∃ other ≠ bodyHash, data.idempotencyBodyHash = some other

structure World where
  configFiles : List PreloadedFile
  batches : List BatchRow
  syncs : List String
  syncAnswers : ℕ → Except String (Option SyncOutcome)
  databaseThrew : Bool

/-- What `findConfigFiles` answers. -/
def World.preload (world : World) (ids : List String) : List PreloadedFile :=
  world.configFiles.filter (·.id ∈ ids)

/-- The unique constraint does not allow a batch with the data. -/
def World.Taken (world : World) (data : BatchData) : Prop :=
  ∃ idempotencyKey bodyHash, data.HasKey idempotencyKey bodyHash ∧
    ∃ batch ∈ world.batches, batch.HasKey idempotencyKey bodyHash

/-- The row of a new batch, with fresh ids. -/
structure Created (world : World) (data : BatchData) (operations : List OperationData)
    (row : BatchRow) : Prop where
  data_eq : row.toBatchData = data
  operations_eq : row.operations.map (·.toOperationData) = operations
  nodup_ids : (row.operations.map (·.id)).Nodup
  fresh_id : ∀ batch ∈ world.batches, batch.id ≠ row.id
  fresh_ids : ∀ batch ∈ world.batches, ∀ operation ∈ row.operations,
    operation.id ∉ batch.operations.map (·.id)
  not_taken : ¬ world.Taken data

def threwInDatabase (event : Event Answer) : Bool :=
  match event with
  | ⟨.findConfigFiles _, .error _⟩ | ⟨.createBatch _ _, .error _⟩ | ⟨.findBatch _ _, .error _⟩
  | ⟨.findOtherBatch _ _, .error _⟩ | ⟨.updateOperation _ _, .error _⟩
  | ⟨.updateBatch _ _, .error _⟩ => true
  | _ => false

def batchesAfter (batches : List BatchRow) (event : Event Answer) : List BatchRow :=
  match event with
  | ⟨.createBatch _ _, .ok row⟩ => batches ++ [row]
  | ⟨.updateOperation id update, .ok _⟩ => batches.map (·.updateOperation id update)
  | ⟨.updateBatch id status, .ok _⟩ => batches.map (·.setStatus id (.terminal status))
  | _ => batches

def syncsAfter (syncs : List String) (event : Event Answer) : List String :=
  match event with
  | ⟨.syncConfigFile configFileId, _⟩ => syncs ++ [configFileId]
  | _ => syncs

/-- The world under the calls of a batch. -/
def storeSemantics : Semantics Answer World where
  allows world event :=
    match event with
    | ⟨.findConfigFiles ids, .ok files⟩ => files = world.preload ids
    | ⟨.createBatch data operations, .ok row⟩ => Created world data operations row
    | ⟨.createBatch data _, .error message⟩ => isUniqueViolation message = true → world.Taken data
    | ⟨.findBatch idempotencyKey bodyHash, .ok found⟩ =>
      found = world.batches.find? fun batch ↦ batch.HasKey idempotencyKey bodyHash
    | ⟨.findOtherBatch idempotencyKey bodyHash, .ok found⟩ =>
      found.isSome ↔ ∃ batch ∈ world.batches, batch.HasOtherBody idempotencyKey bodyHash
    | ⟨.syncConfigFile _, answer⟩ => answer = world.syncAnswers world.syncs.length
    | _ => True
  after world event :=
    { world with
      batches := batchesAfter world.batches event
      syncs := syncsAfter world.syncs event
      databaseThrew := world.databaseThrew || threwInDatabase event }

end

open List

def errorJson (error : OperationError) : Json :=
  .object [("code".toList, .string error.code.toList),
    ("message".toList, .string error.message.toList)]

variable (error : OperationError)

theorem parse_stringifyError :
    Json.parse (stringifyError error).toList = some (errorJson error) := by
  unfold stringifyError
  rw [String.toList_ofList]
  exact Json.parse_stringifyRecord _ _

theorem stringifyError_ne_empty : stringifyError error ≠ "" := by
  intro hempty
  have hparse := parse_stringifyError error
  rw [hempty] at hparse
  have hnone : Json.parse "".toList = none := rfl
  nomatch hnone.symm.trans hparse

theorem parseErrorJson_stringifyError :
    parseErrorJson (some (stringifyError error)) = some ⟨some error.code, error.message⟩ := by
  have hcode : ((errorJson error).member "code".toList).bind textOf = some error.code :=
    congrArg some String.ofList_toList
  have hmessage : ((errorJson error).member "message".toList).bind textOf = some error.message :=
    congrArg some String.ofList_toList
  unfold parseErrorJson
  dsimp only
  rw [if_neg (stringifyError_ne_empty error), parse_stringifyError]
  dsimp only
  rw [hmessage, hcode]

/-! ### Rows and array entries -/

def rowOf (opRow : OpRow) (report : OperationReport) : OperationRow :=
  ⟨⟨opRow.index, opRow.configFileId, report.status, report.error.map stringifyError⟩, opRow.id⟩

theorem operationResult_rowOf (opRow : OpRow) (report : OperationReport) :
    operationResult (rowOf opRow report) = reportResult opRow.index report := by
  unfold operationResult reportResult rowOf
  cases report.error with
  | none => rfl
  | some error => rw [Option.map_some, parseErrorJson_stringifyError, Option.map_some]

variable {i : ℕ} {change : OperationReport → OperationReport} {reports : List OperationReport}

theorem updateRows_zipWith {opRows : List OpRow} (hnodup : (opRows.map (·.id)).Nodup)
    (hid : (opRows.map (·.id))[i]? = some id)
    (happly : ∀ report, reports[i]? = some report → ∀ opRow,
      update.apply (rowOf opRow report) = rowOf opRow (change report)) :
    updateRows id update (opRows.zipWith rowOf reports) =
      opRows.zipWith rowOf (reports.modify i change) := by
  unfold updateRows
  apply ext_getElem?
  intro j
  rw [List.getElem?_map, List.getElem?_zipWith, List.getElem?_zipWith, List.getElem?_modify]
  cases hrow : opRows[j]? with
  | none => rfl
  | some opRow =>
    have hj : (opRows.map (·.id))[j]? = some opRow.id := by rw [List.getElem?_map, hrow]; rfl
    cases hreport : reports[j]? with
    | none => rfl
    | some report =>
      show some (if opRow.id = id then _ else _) = some (rowOf opRow _)
      by_cases hji : i = j
      · subst hji
        have hsame : opRow.id = id := Option.some.inj (hj.symm.trans hid)
        rw [if_pos hsame, happly report hreport]
        simp
      · have hother : opRow.id ≠ id := by
          intro hsame
          have hlt := (List.getElem?_eq_some_iff.mp hj).1
          have heq := hj.trans ((congrArg some hsame).trans hid.symm)
          exact hji ((List.getElem?_inj hlt hnodup).mp heq).symm
        rw [if_neg hother]
        simp [hji]

/-- An execution and the batch that it has created. -/
structure Opened (start : World) (execution : Execution) : Prop where
  count : execution.opRows.length = execution.input.operations.length
  indices : execution.opRows.map (·.index) = List.range execution.opRows.length
  nodup_ids : (execution.opRows.map (·.id)).Nodup
  fresh_id : ∀ batch ∈ start.batches, batch.id ≠ execution.batchId
  fresh_ids : ∀ batch ∈ start.batches, ∀ opRow ∈ execution.opRows,
    opRow.id ∉ batch.operations.map (·.id)

def Execution.row (execution : Execution) (data : BatchData) (reports : List OperationReport) :
    BatchRow :=
  ⟨data, execution.batchId, execution.opRows.zipWith rowOf reports⟩

/-- The rows are those of the array entries, after the syncs of the files. -/
structure Recorded (start : World) (execution : Execution) (data : BatchData)
    (synced : List String) (reports : List OperationReport) (world : World) : Prop where
  batches : world.batches = start.batches ++ [execution.row data reports]
  syncs : world.syncs = start.syncs ++ synced
  answers : world.syncAnswers = start.syncAnswers
  length : reports.length = execution.opRows.length

theorem batchRowToResult_recorded {start : World} {execution : Execution} {data : BatchData}
    (hopened : Opened start execution) (hlength : reports.length = execution.opRows.length) :
    batchRowToResult (execution.row data reports) =
      ⟨execution.batchId, data.status, reports.mapIdx reportResult⟩ := by
  unfold batchRowToResult Execution.row
  congr 1
  apply ext_getElem
  · rw [length_map, length_zipWith, length_mapIdx, hlength, min_self]
  · intro i hleft hright
    have hi : i < execution.opRows.length := by
      rw [length_mapIdx, hlength] at hright
      exact hright
    have hindex : (execution.opRows[i]).index = i := by
      have hget := congrArg (fun indices ↦ indices[i]?) hopened.indices
      rw [List.getElem?_map, List.getElem?_range hi, List.getElem?_eq_getElem hi] at hget
      exact Option.some.inj hget
    rw [getElem_map, getElem_zipWith, operationResult_rowOf, getElem_mapIdx, hindex]

/-- An exception that a statement of the database has thrown. -/
def Threw (_ : String) (world : World) : Prop :=
  world.databaseThrew = true

section

variable {isUniqueViolation : String → Bool} {start : World} {execution : Execution}
  {data : BatchData} {synced : List String} {reports : List OperationReport} {world : World}
  {thrown : String → World → Prop} {α : Type} {post : α → World → Prop}

theorem Recorded.after_neutral (h : Recorded start execution data synced reports world)
    {event : Event Answer} (hbatches : batchesAfter world.batches event = world.batches)
    (hsyncs : syncsAfter world.syncs event = world.syncs) :
    Recorded start execution data synced reports
      ((storeSemantics isUniqueViolation).after world event) :=
  ⟨hbatches.trans h.batches, hsyncs.trans h.syncs, h.answers, h.length⟩

theorem getElem?_opIdAt (hi : i < execution.opRows.length) :
    (execution.opRows.map (·.id))[i]? = some (execution.opIdAt i) := by
  unfold Execution.opIdAt
  rw [getD_eq_getElem?_getD, List.getElem?_map, List.getElem?_eq_getElem hi]
  rfl

section

variable (h : Recorded start execution data synced reports world) (hopened : Opened start execution)
  (hi : i < reports.length) {update : OperationUpdate}
include h hopened hi

theorem Recorded.after_update (happly : ∀ report, reports[i]? = some report → ∀ opRow,
      update.apply (rowOf opRow report) = rowOf opRow (change report)) (answer : Unit) :
    Recorded start execution data synced (reports.modify i change)
      ((storeSemantics isUniqueViolation).after world
        ⟨.updateOperation (execution.opIdAt i) update, .ok answer⟩) where
  batches := by
    show world.batches.map (·.updateOperation (execution.opIdAt i) update) = _
    rw [h.length] at hi
    obtain ⟨opRow, hopRow, hid⟩ := mem_map.mp (mem_of_getElem? (getElem?_opIdAt hi))
    have hothers : ∀ batch ∈ start.batches,
        batch.updateOperation (execution.opIdAt i) update = batch := fun batch hbatch ↦
      BatchRow.updateOperation_of_notMem (hid ▸ hopened.fresh_ids batch hbatch opRow hopRow)
    rw [h.batches, map_append, map_congr_left hothers, map_id', map_singleton]
    congr 2
    unfold BatchRow.updateOperation Execution.row
    rw [updateRows_zipWith hopened.nodup_ids (getElem?_opIdAt hi) happly]
  syncs := h.syncs
  answers := h.answers
  length := (length_modify _ _ _).trans h.length

theorem delivers_update (change : OperationReport → OperationReport)
    (happly : ∀ report, reports[i]? = some report → ∀ opRow,
      update.apply (rowOf opRow report) = rowOf opRow (change report)) {next : Unit → Async α}
    (hnext : ∀ after, Recorded start execution data synced (reports.modify i change) after →
      (next ()).Delivers (storeSemantics isUniqueViolation) thrown post after)
    (herror : ∀ message after, Recorded start execution data synced reports after →
      Threw message after → thrown message after) :
    (await (.updateOperation (execution.opIdAt i) update) >>= next).Delivers
      (storeSemantics isUniqueViolation) thrown post world := by
  refine delivers_perform_bind (fun answer _ ↦ ?_) fun message _ ↦ ?_
  · exact hnext _ (h.after_update hopened hi happly answer)
  · exact herror message _ (h.after_neutral rfl rfl) (Bool.or_true _)

end

theorem delivers_logAudit (h : Recorded start execution data synced reports world)
    {action resourceId batchId : String} {success : Bool} {next : Unit → Async α}
    (hnext : ∀ after, Recorded start execution data synced reports after →
      (next ()).Delivers (storeSemantics isUniqueViolation) thrown post after) :
    (logAudit action resourceId batchId success >>= next).Delivers
      (storeSemantics isUniqueViolation) thrown post world :=
  delivers_emit_bind fun _ _ ↦ hnext _ (h.after_neutral rfl rfl)

end

end Bridgeport.SyncBatch
