import Bridgeport.SyncBatch.BatchPasses

/-!
# The replay of a sync batch

The result of `executeBatch` is the one that is read back from its rows, every operation ends in a
terminal status, and with `rollbackOnFailure` nothing is attempted after the first failure.
`batchAnswered_iff` says when the status of the batch is also the documented one. It is not when
`rollbackOnFailure` is set and the first operation fails: nothing has succeeded then, and the batch
is rolled back instead of failed.
-/

namespace Bridgeport.SyncBatch

open Foundation Program List
open ConfigSync (BatchOperationStatus BatchStatus OperationReport)

/-! ### The statuses of a batch -/

/-- The statuses of an executed batch and of its operations. -/
inductive Settled (rollbackOnFailure : Bool) : List BatchOperationStatus → BatchStatus → Prop
  | completed {statuses : List BatchOperationStatus} (h : ∀ status ∈ statuses, status = .ok) :
      Settled rollbackOnFailure statuses .ok
  | attempted {statuses : List BatchOperationStatus} (hrollback : rollbackOnFailure = false)
      (h : ∀ status ∈ statuses, status = .ok ∨ status = .failed) (hfailed : .failed ∈ statuses) :
      Settled rollbackOnFailure statuses (if .ok ∈ statuses then .partialFailure else .failed)
  | undone {before after : List BatchOperationStatus} (hrollback : rollbackOnFailure = true)
      (hbefore : ∀ status ∈ before, Undone status) (hafter : ∀ status ∈ after, status = .skipped) :
      Settled rollbackOnFailure (before ++ .failed :: after)
        (if .rollbackFailed ∈ before then .partialFailure else .rolledBack)

def firstFailure (statuses : List BatchOperationStatus) : ℕ :=
  statuses.findIdx fun status ↦ status = .failed

/-- The operations of which the files have been synced: none after the first failure, and none but
those before it a second time. -/
def SyncedAsAttempted (operations : List String) (statuses : List BatchOperationStatus)
    (synced : List String) : Prop :=
  ∃ forward undone, synced = forward ++ undone ∧
    forward.Sublist (operations.take (firstFailure statuses + 1)) ∧
    undone.Sublist (operations.take (firstFailure statuses)).reverse

/-- The first operation of a batch fails. -/
def FirstOperationFails (world : World) (preload : List PreloadedFile) (operations : List String) :
    Prop :=
  ∃ configFileId, operations.head? = some configFileId ∧
    OperationFails world preload configFileId world.syncs.length

/-- What an execution leaves before its batch row is updated. -/
structure SettleLeaves (start : World) (execution : Execution) (data : BatchData)
    (answer : List OperationReport × BatchStatus) (world : World) : Prop where
  settled : Settled execution.input.rollbackOnFailure (answer.1.map (·.status)) answer.2
  first : (answer.1.map (·.status)).head? = some .failed ↔
    FirstOperationFails start execution.preload execution.input.operations
  recorded : ∃ synced, (execution.input.rollbackOnFailure = true → SyncedAsAttempted
      execution.input.operations (answer.1.map (·.status)) synced) ∧
    Recorded start execution data synced answer.1 world

theorem firstFailure_eq_length {statuses : List BatchOperationStatus}
    (h : ∀ status ∈ statuses, status ≠ .failed) : firstFailure statuses = statuses.length :=
  findIdx_eq_length.mpr fun status hstatus ↦ decide_eq_false (h status hstatus)

theorem firstFailure_append {before after : List BatchOperationStatus}
    (h : ∀ status ∈ before, status ≠ .failed) :
    firstFailure (before ++ .failed :: after) = before.length := by
  unfold firstFailure
  rw [findIdx_append, findIdx_eq_length.mpr fun status hstatus ↦ decide_eq_false (h status hstatus),
    if_neg (Nat.lt_irrefl _), findIdx_cons]
  simp

theorem Undone.ne_failed {status : BatchOperationStatus} (h : Undone status) :
    status ≠ .failed := by
  rcases h with rfl | rfl
  · exact nofun
  · exact nofun

variable {status : BatchStatus}

theorem Settled.skipped {statuses : List BatchOperationStatus} (h : Settled true statuses status) :
    ∀ later ∈ statuses.drop (firstFailure statuses + 1), later = .skipped := by
  cases h with
  | completed h =>
    have hnone : firstFailure statuses = statuses.length :=
      firstFailure_eq_length fun other hother ↦ by rw [h other hother]; exact nofun
    rw [hnone, drop_of_length_le (Nat.le_succ _)]
    exact nofun
  | attempted hrollback => nomatch hrollback
  | undone _ hbefore hafter =>
    rw [firstFailure_append fun status hstatus ↦ (hbefore status hstatus).ne_failed, drop_append,
      drop_of_length_le (Nat.le_succ _)]
    simpa using hafter

variable {rollbackOnFailure : Bool} {world : World}

section

variable {isUniqueViolation : String → Bool} {start : World} {execution : Execution}
  {data : BatchData} {done : List OperationReport} {remaining : ℕ}

theorem FirstAttempt.head_iff (h : FirstAttempt start execution done)
    (hcount : done.length + remaining = execution.input.operations.length)
    (hdone : done ≠ [] ∨ remaining = 0) :
    (done.map (·.status)).head? = some .failed ↔
      FirstOperationFails start execution.preload execution.input.operations := by
  cases done with
  | nil =>
    have hempty : execution.input.operations = [] := by
      rw [← length_eq_zero_iff, ← hcount, hdone.resolve_left (not_not.mpr rfl)]
      rfl
    unfold FirstOperationFails
    rw [hempty]
    exact iff_of_false nofun fun ⟨_, hhead, _⟩ ↦ absurd hhead nofun
  | cons report rest =>
    have hhead : execution.input.operations.head? = some (execution.configFileIdAt 0) := by
      rw [List.head?_eq_getElem?]
      exact configFileIdAt_eq (by rw [← hcount, length_cons]; omega)
    have hreport := h report rfl
    unfold FirstOperationFails
    rw [hhead]
    constructor
    · exact fun hfailed ↦ ⟨_, rfl, hreport.mp (Option.some.inj hfailed)⟩
    · rintro ⟨_, hsame, hfails⟩
      rw [← Option.some.inj hsame] at hfails
      exact congrArg some (hreport.mpr hfails)

variable {progress : Progress}

theorem settled_of_forward (h : Forward rollbackOnFailure done 0 progress)
    (hrollback : rollbackOnFailure = false)
    (hfailed : ∃ first, progress.firstFailureIndex = some first) :
    Settled rollbackOnFailure (progress.reports.map (·.status))
      (if (progress.reports.countP (·.status = .ok)) = 0 then .failed else .partialFailure) := by
  have hreports : progress.reports = done := by rw [h.reports, replicate_zero, append_nil]
  obtain ⟨first, hfirst⟩ := hfailed
  have hmem : .failed ∈ done.map (·.status) := by
    rw [h.firstFailureIndex, List.findIdx?_eq_some_iff_getElem] at hfirst
    obtain ⟨hlt, hne, -⟩ := hfirst
    refine mem_map.mpr ⟨done[first], getElem_mem hlt, ?_⟩
    exact (h.attempted _ (getElem_mem hlt)).resolve_left (of_decide_eq_true hne)
  have hattempted : ∀ status ∈ done.map (·.status), status = .ok ∨ status = .failed := by
    intro status hstatus
    obtain ⟨report, hreport, rfl⟩ := mem_map.mp hstatus
    exact h.attempted report hreport
  have hcount : (done.countP fun report ↦ decide (report.status = .ok)) = 0 ↔
      .ok ∉ done.map (·.status) := by
    rw [countP_eq_zero, mem_map, not_exists]
    exact forall_congr' fun report ↦ by simp
  rw [hreports]
  have hsettled := Settled.attempted hrollback hattempted hmem
  by_cases hok : .ok ∈ done.map (·.status)
  · rw [if_pos hok] at hsettled
    rw [if_neg fun hzero ↦ hcount.mp hzero hok]
    exact hsettled
  · rw [if_neg hok] at hsettled
    rw [if_pos (hcount.mpr hok)]
    exact hsettled

theorem delivers_walkBack (hopened : Opened start execution)
    (hrollback : execution.input.rollbackOnFailure = true) {before : List OperationReport}
    {failure : OperationReport} {synced : List String}
    (hbefore : ∀ report ∈ before, report.status = .ok) (hfailure : failure.status = .failed)
    (hfirst : FirstAttempt start execution (before ++ [failure]))
    (hcount : (before ++ [failure]).length + remaining = execution.input.operations.length)
    (hsynced : synced.Sublist (execution.input.operations.take (before ++ [failure]).length))
    (h : Recorded start execution data synced
      (before ++ failure :: List.replicate remaining pendingReport) world) :
    (settle execution ⟨before ++ failure :: List.replicate remaining pendingReport,
      List.range before.length, some before.length⟩).Delivers (storeSemantics isUniqueViolation)
      Threw (SettleLeaves start execution data) world := by
  have hlength : (before ++ [failure]).length = before.length + 1 := length_append
  have hfront : before ++ failure :: List.replicate remaining pendingReport =
      (before ++ [failure]) ++ List.replicate remaining pendingReport := by
    rw [append_assoc]
    rfl
  have hlater : (List.range execution.input.operations.length).drop (before.length + 1) =
      List.range' (before ++ [failure]).length remaining := by
    rw [range_eq_range', drop_range', hlength, Nat.zero_add, Nat.mul_one]
    congr 1
    omega
  refine Delivers.ite (fun _ ↦ ?_) fun hnot ↦ absurd hrollback hnot
  dsimp only
  rw [hlater, hfront]
  rw [hfront] at h
  refine delivers_bind ((delivers_skipPending hopened remaining _ world h).mono
    fun skipped after hskipped ↦ ?_)
  obtain ⟨rfl, hafter⟩ := hskipped
  rw [append_assoc] at hafter ⊢
  refine delivers_bind ((delivers_rollback hopened before _ false synced after hafter).mono
    fun answer final hleaves ↦ ?_)
  obtain ⟨reports, anyRollbackFailed⟩ := answer
  obtain ⟨⟨undone, hundoneLength, hreports, hundone, hany⟩, more, hmore, hfinal⟩ := hleaves
  dsimp only at hreports hany hfinal
  have hstatuses : reports.map (·.status) = undone.map (·.status) ++
      .failed :: List.replicate remaining .skipped := by
    rw [hreports, map_append, map_append, map_singleton, hfailure, map_replicate]
    rfl
  have hundone' : ∀ status ∈ undone.map (·.status), Undone status := by
    intro status hstatus
    obtain ⟨report, hreport, rfl⟩ := mem_map.mp hstatus
    exact hundone report hreport
  have hfirstFailure : firstFailure (reports.map (·.status)) = before.length := by
    rw [hstatuses, firstFailure_append fun status hstatus ↦ (hundone' status hstatus).ne_failed,
      length_map, hundoneLength]
  refine delivers_pure ⟨?_, ?_, synced ++ more, fun _ ↦ ⟨synced, more, rfl, ?_, ?_⟩, hfinal⟩
  · have hsettled := Settled.undone hrollback hundone'
      (fun status hstatus ↦ eq_of_mem_replicate hstatus : ∀ status ∈
        List.replicate remaining BatchOperationStatus.skipped, status = .skipped)
    show Settled _ (reports.map (·.status)) _
    rw [hstatuses]
    have hflag : anyRollbackFailed = true ↔ .rollbackFailed ∈ undone.map (·.status) := by
      rw [hany, Bool.false_or, any_eq_true, mem_map]
      simp
    by_cases hmem : .rollbackFailed ∈ undone.map (·.status)
    · rw [if_pos hmem] at hsettled
      rw [if_pos (hflag.mpr hmem)]
      exact hsettled
    · rw [if_neg hmem] at hsettled
      rw [if_neg fun hflagged ↦ hmem (hflag.mp hflagged)]
      exact hsettled
  · rw [← hfirst.head_iff hcount (.inl (by simp))]
    show (reports.map (·.status)).head? = _ ↔ _
    rw [hstatuses]
    cases before with
    | nil =>
      rw [length_eq_zero_iff.mp hundoneLength, nil_append, map_singleton, hfailure]
      exact Iff.rfl
    | cons report rest =>
      cases undone with
      | nil => nomatch hundoneLength
      | cons first others =>
        refine iff_of_false (fun hhead ↦ ?_) fun hhead ↦ ?_
        · exact (hundone' _ mem_cons_self).ne_failed (Option.some.inj hhead)
        · have hok := hbefore report mem_cons_self
          nomatch hok.symm.trans (Option.some.inj hhead)
  · rw [hfirstFailure, ← hlength]
    exact hsynced
  · rw [hfirstFailure]
    exact hmore

theorem delivers_settle (hopened : Opened start execution)
    (h : PassLeaves start execution data progress world) :
    (settle execution progress).Delivers (storeSemantics isUniqueViolation) Threw
      (SettleLeaves start execution data) world := by
  obtain ⟨done, remaining, synced, hpass, hfirst, hcount, hsynced, hrecorded⟩ := h
  cases hpass with
  | stopped hrollback hbefore hfailure =>
    exact delivers_walkBack hopened hrollback hbefore hfailure hfirst hcount hsynced hrecorded
  | completed hforward =>
    have hreports : progress.reports = done := by
      rw [hforward.reports, replicate_zero, append_nil]
    have hhead : (progress.reports.map (·.status)).head? = some .failed ↔
        FirstOperationFails start execution.preload execution.input.operations := by
      rw [hreports]
      exact hfirst.head_iff hcount (.inr rfl)
    unfold settle
    cases hfailure : progress.firstFailureIndex with
    | none =>
      have hok : ∀ status ∈ progress.reports.map (·.status), status = .ok := by
        rw [hforward.firstFailureIndex, List.findIdx?_eq_none_iff] at hfailure
        intro status hstatus
        rw [hreports] at hstatus
        obtain ⟨report, hreport, rfl⟩ := mem_map.mp hstatus
        exact not_not.mp (of_decide_eq_false (hfailure report hreport))
      refine delivers_pure ⟨.completed hok, hhead, synced, fun _ ↦ ⟨synced, [], ?_, ?_, ?_⟩,
        hrecorded⟩
      · exact (append_nil _).symm
      · refine hsynced.trans (take_sublist_take_left ?_)
        show done.length ≤ firstFailure (progress.reports.map (·.status)) + 1
        rw [firstFailure_eq_length fun status hstatus ↦ by rw [hok status hstatus]; exact nofun,
          length_map, hreports]
        exact Nat.le_succ _
      · exact nil_sublist _
    | some first =>
      have hrollback : execution.input.rollbackOnFailure = false := by
        refine Bool.eq_false_iff.mpr fun hrollback ↦ ?_
        rw [hforward.firstFailureIndex, List.findIdx?_eq_some_iff_getElem] at hfailure
        obtain ⟨hlt, hne, -⟩ := hfailure
        exact of_decide_eq_true hne ((hforward.undoable hrollback).1 _ (getElem_mem hlt))
      refine Delivers.ite (fun htrue ↦ absurd (htrue.symm.trans hrollback) nofun) fun _ ↦ ?_
      refine delivers_pure ⟨settled_of_forward hforward hrollback ⟨first, hfailure⟩, hhead, synced,
        fun htrue ↦ absurd (htrue.symm.trans hrollback) nofun, hrecorded⟩

end

/-! ### The documented statuses -/

/-- The operation has succeeded at first. -/
def Succeeded (status : BatchOperationStatus) : Prop :=
  status = .ok ∨ Undone status

section

variable (statuses : List BatchOperationStatus)

/-- Every operation has succeeded. -/
def AllOk : Prop :=
  ∀ status ∈ statuses, status = .ok

/-- At least one operation has failed, and none has succeeded. -/
def NoneSucceeded : Prop :=
  .failed ∈ statuses ∧ ∀ status ∈ statuses, ¬ Succeeded status

/-- An operation has failed, and every one that had succeeded was rolled back, at least one. -/
def AllReverted : Prop :=
  .failed ∈ statuses ∧ (∀ status ∈ statuses, Succeeded status → status = .rolledBack) ∧
    .rolledBack ∈ statuses

end

/-- What a batch status says about the operations. -/
def Means (status : BatchStatus) (statuses : List BatchOperationStatus) : Prop :=
  match status with
  | .ok => AllOk statuses
  | .failed => NoneSucceeded statuses
  | .rolledBack => AllReverted statuses
  | .partialFailure => ¬ AllOk statuses ∧ ¬ NoneSucceeded statuses ∧ ¬ AllReverted statuses

/-- A batch has the status that says what its operations have become. -/
def StatusAsDocumented (status : BatchRowStatus) (statuses : List BatchOperationStatus) : Prop :=
  ∀ terminal, status = .terminal terminal ↔ Means terminal statuses

section

variable {statuses : List BatchOperationStatus}

theorem not_allOk (h : .failed ∈ statuses) : ¬ AllOk statuses :=
  fun hok ↦ absurd (hok _ h) nofun

theorem not_noneSucceeded (h : .rolledBack ∈ statuses) : ¬ NoneSucceeded statuses :=
  fun hnone ↦ hnone.2 _ h (.inr (.inl rfl))

theorem Means.unique {other : BatchStatus} (h : Means status statuses)
    (hother : Means other statuses) : status = other := by
  cases status with
  | ok =>
    cases other with
    | ok => rfl
    | failed | rolledBack => exact absurd h (not_allOk hother.1)
    | partialFailure => exact absurd h hother.1
  | failed =>
    cases other with
    | ok => exact absurd hother (not_allOk h.1)
    | failed => rfl
    | rolledBack => exact absurd h (not_noneSucceeded hother.2.2)
    | partialFailure => exact absurd h hother.2.1
  | rolledBack =>
    cases other with
    | ok => exact absurd hother (not_allOk h.1)
    | failed => exact absurd hother (not_noneSucceeded h.2.2)
    | rolledBack => rfl
    | partialFailure => exact absurd h hother.2.2
  | partialFailure =>
    cases other with
    | ok => exact absurd hother h.1
    | failed => exact absurd hother h.2.1
    | rolledBack => exact absurd hother h.2.2
    | partialFailure => rfl

theorem statusAsDocumented_iff :
    StatusAsDocumented (.terminal status) statuses ↔ Means status statuses := by
  refine ⟨fun h ↦ (h status).mp rfl, fun h terminal ↦ ⟨fun hsame ↦ ?_, fun hmeans ↦ ?_⟩⟩
  · rw [← BatchRowStatus.terminal.inj hsame]
    exact h
  · rw [h.unique hmeans]

theorem not_succeeded_skipped : ¬ Succeeded .skipped := by
  rintro (h | h | h) <;> nomatch h

theorem not_succeeded_failed : ¬ Succeeded .failed := by
  rintro (h | h | h) <;> nomatch h

/-- The status is the documented one unless the rollback is set and the first operation fails. -/
theorem Settled.means_iff (h : Settled rollbackOnFailure statuses status) :
    Means status statuses ↔ ¬ (rollbackOnFailure = true ∧ statuses.head? = some .failed) := by
  cases h with
  | completed h =>
    refine iff_of_true h fun hfirst ↦ ?_
    nomatch h _ (mem_of_mem_head? hfirst.2)
  | attempted hrollback h hfailed =>
    refine iff_of_true ?_ fun hfirst ↦ absurd (hfirst.1.symm.trans hrollback) nofun
    by_cases hok : .ok ∈ statuses
    · rw [if_pos hok]
      refine ⟨not_allOk hfailed, fun hnone ↦ hnone.2 _ hok (.inl rfl), fun hreverted ↦ ?_⟩
      rcases h _ hreverted.2.2 with hstatus | hstatus
      · nomatch hstatus
      · nomatch hstatus
    · rw [if_neg hok]
      refine ⟨hfailed, fun status hstatus hsucceeded ↦ ?_⟩
      rcases h _ hstatus with rfl | rfl
      · exact hok hstatus
      · exact not_succeeded_failed hsucceeded
  | @undone before after hrollback hbefore hafter =>
    have hmem : .failed ∈ before ++ .failed :: after :=
      mem_append_right _ mem_cons_self
    cases before with
    | nil =>
      -- nothing has succeeded, so that the batch has failed
      refine iff_of_false (fun hmeans ↦ ?_) (not_not.mpr ⟨hrollback, rfl⟩)
      have hreverted : AllReverted (.failed :: after) := hmeans
      rcases mem_cons.mp hreverted.2.2 with hstatus | hstatus
      · nomatch hstatus
      · nomatch hafter _ hstatus
    | cons first rest =>
      refine iff_of_true ?_ fun hfirst ↦
        (hbefore first mem_cons_self).ne_failed (Option.some.inj hfirst.2)
      have hsucceeded : ∀ status ∈ (first :: rest) ++ .failed :: after, Succeeded status →
          status ∈ first :: rest := by
        intro status hstatus hsucceeded
        rcases mem_append.mp hstatus with hfront | htail
        · exact hfront
        · rcases mem_cons.mp htail with rfl | hlater
          · exact absurd hsucceeded not_succeeded_failed
          · rw [hafter status hlater] at hsucceeded
            exact absurd hsucceeded not_succeeded_skipped
      by_cases hfailed : .rollbackFailed ∈ first :: rest
      · rw [if_pos hfailed]
        have hfailed' := mem_append_left (.failed :: after) hfailed
        refine ⟨not_allOk hmem, fun hnone ↦ hnone.2 _ hfailed' (.inr (.inr rfl)),
          fun hreverted ↦ ?_⟩
        nomatch hreverted.2.1 _ hfailed' (.inr (.inr rfl))
      · rw [if_neg hfailed]
        have hrolledBack : ∀ status ∈ first :: rest, status = .rolledBack := fun status hstatus ↦
          (hbefore status hstatus).resolve_right fun hsame ↦ hfailed (hsame ▸ hstatus)
        refine ⟨hmem, fun status hstatus hdone ↦ hrolledBack _ (hsucceeded _ hstatus hdone), ?_⟩
        rw [← hrolledBack first mem_cons_self]
        exact mem_append_left _ mem_cons_self

theorem Settled.rolledBack_of_first (h : Settled rollbackOnFailure statuses status)
    (hfirst : rollbackOnFailure = true ∧ statuses.head? = some .failed) : status = .rolledBack := by
  cases h with
  | completed h => nomatch h _ (mem_of_mem_head? hfirst.2)
  | attempted hrollback => nomatch hfirst.1.symm.trans hrollback
  | @undone before after _ hbefore =>
    cases before with
    | nil => rfl
    | cons first rest =>
      exact absurd (Option.some.inj hfirst.2) (hbefore first mem_cons_self).ne_failed

theorem Settled.ne_pending {terminal : BatchStatus}
    (h : Settled rollbackOnFailure statuses terminal) : .pending ∉ statuses := by
  intro hpending
  cases h with
  | completed h => nomatch h _ hpending
  | attempted _ h =>
    rcases h _ hpending with hstatus | hstatus
    · nomatch hstatus
    · nomatch hstatus
  | undone _ hbefore hafter =>
    rcases mem_append.mp hpending with hfront | htail
    · rcases hbefore _ hfront with hstatus | hstatus
      · nomatch hstatus
      · nomatch hstatus
    · rcases mem_cons.mp htail with hstatus | hlater
      · nomatch hstatus
      · nomatch hafter _ hlater

end

/-! ### The answer of a batch -/

def BatchRow.statuses (row : BatchRow) : List BatchOperationStatus :=
  row.operations.map (·.status)

/-- The config files of the operations are of several environments. -/
def Rejected (world : World) (operations : List String) : Prop :=
  resolveEnvironment (world.preload operations) operations none = none

/-- The rollback is set, the batch is executed, and its first operation fails. -/
def FailsAtFirst (start : World) (input : BatchExecuteInput) : Prop :=
  input.rollbackOnFailure = true ∧ ¬ Rejected start input.operations ∧
    FirstOperationFails start (start.preload input.operations) input.operations

/-- The answer of a batch is what is read back from its rows, of operations that have ended. -/
structure BatchReplayed (start : World) (input : BatchExecuteInput) (result : BatchExecuteResult)
    (row : BatchRow) (world : World) : Prop where
  replay : result = batchRowToResult row
  complete : row.operations.map (·.index) = List.range input.operations.length
  settled : .pending ∉ row.statuses
  attempted : input.rollbackOnFailure = true → ∃ synced, world.syncs = start.syncs ++ synced ∧
    SyncedAsAttempted input.operations row.statuses synced
  skipped : input.rollbackOnFailure = true → ¬ Rejected start input.operations →
    ∀ status ∈ row.statuses.drop (firstFailure row.statuses + 1), status = .skipped

/-- What the claim says of the answer of a batch that has been persisted. -/
structure BatchAnswered (start : World) (input : BatchExecuteInput) (result : BatchExecuteResult)
    (row : BatchRow) (world : World) : Prop extends
    BatchReplayed start input result row world where
  documented : StatusAsDocumented row.status row.statuses

/-- What the code answers: a failure at the first operation counts as rolled back. -/
structure BatchSettled (start : World) (input : BatchExecuteInput) (result : BatchExecuteResult)
    (row : BatchRow) (world : World) : Prop extends
    BatchReplayed start input result row world where
  documented_iff : StatusAsDocumented row.status row.statuses ↔ ¬ FailsAtFirst start input
  rolledBack : FailsAtFirst start input → row.status = .terminal .rolledBack

section

variable {isUniqueViolation : String → Bool} {start : World} {execution : Execution}
  {data : BatchData} {world : World}

theorem statuses_row {reports : List OperationReport}
    (hlength : reports.length = execution.opRows.length) :
    (execution.row data reports).statuses = reports.map (·.status) := by
  unfold BatchRow.statuses Execution.row
  rw [map_zipWith]
  apply ext_getElem
  · rw [length_zipWith, length_map, hlength, min_self]
  · intro i hleft hright
    rw [getElem_zipWith, getElem_map]
    rfl

def BatchLeaves (start : World) (execution : Execution) (data : BatchData)
    (result : BatchExecuteResult) (world : World) : Prop :=
  ∃ answer : List OperationReport × BatchStatus,
    SettleLeaves start execution { data with status := .terminal answer.2 } answer world ∧
    result = ⟨execution.batchId, .terminal answer.2, answer.1.mapIdx reportResult⟩

theorem SettleLeaves.after_updateBatch {answer : List OperationReport × BatchStatus}
    (h : SettleLeaves start execution data answer world) (hopened : Opened start execution)
    (done : Unit) :
    SettleLeaves start execution { data with status := .terminal answer.2 } answer
      ((storeSemantics isUniqueViolation).after world
        ⟨.updateBatch execution.batchId answer.2, .ok done⟩) := by
  obtain ⟨synced, hsynced, hrecorded⟩ := h.recorded
  refine ⟨h.settled, h.first, synced, hsynced, ?_, hrecorded.syncs, hrecorded.answers,
    hrecorded.length⟩
  show world.batches.map (·.setStatus execution.batchId (.terminal answer.2)) = _
  have hothers : ∀ batch ∈ start.batches,
      batch.setStatus execution.batchId (.terminal answer.2) = batch := fun batch hbatch ↦
    if_neg (hopened.fresh_id batch hbatch)
  rw [hrecorded.batches, map_append, map_congr_left hothers, map_id', map_singleton]
  congr 2
  exact if_pos rfl

theorem delivers_runBatch (hopened : Opened start execution) (environmentId : Option String)
    (h : Recorded start execution data [] (execution.opRows.map fun _ ↦ pendingReport) world) :
    (runBatch execution environmentId).Delivers (storeSemantics isUniqueViolation) Threw
      (BatchLeaves start execution data) world := by
  have hcount := hopened.count
  have hreports : (execution.opRows.map fun _ ↦ pendingReport) =
      [] ++ List.replicate execution.input.operations.length pendingReport := by
    rw [map_const', hcount, nil_append]
  have hforward : Forward execution.input.rollbackOnFailure []
      execution.input.operations.length ⟨execution.opRows.map fun _ ↦ pendingReport, [], none⟩ :=
    ⟨hreports, nofun, rfl, fun _ ↦ ⟨nofun, rfl⟩⟩
  unfold runBatch
  dsimp only
  rw [range_eq_range']
  refine delivers_bind ((delivers_forwardPass hopened _ [] _ [] world hforward nofun
    (Nat.zero_add _) (nil_sublist _) h).mono fun progress passed hpass ↦ ?_)
  refine delivers_bind ((delivers_settle hopened hpass).mono fun answer settled hsettle ↦ ?_)
  obtain ⟨reports, finalStatus⟩ := answer
  refine delivers_perform_bind (fun done _ ↦ ?_) fun _ _ ↦ Bool.or_true _
  have hleaves : SettleLeaves start execution { data with status := .terminal finalStatus }
      (reports, finalStatus) ((storeSemantics isUniqueViolation).after settled
        ⟨.updateBatch execution.batchId finalStatus, .ok done⟩) :=
    hsettle.after_updateBatch hopened done
  cases environmentId with
  | none => exact delivers_pure ⟨_, hleaves, rfl⟩
  | some environmentId =>
    refine delivers_emit_bind fun _ _ ↦ delivers_pure ⟨(reports, finalStatus), ?_, rfl⟩
    obtain ⟨synced, hsynced, hrecorded⟩ := hleaves.recorded
    exact ⟨hleaves.settled, hleaves.first, synced, hsynced, hrecorded.after_neutral rfl rfl⟩

theorem BatchLeaves.batchSettled {result : BatchExecuteResult}
    (h : BatchLeaves start execution data result world) (hopened : Opened start execution)
    (hpreload : execution.preload = start.preload execution.input.operations)
    (hrejected : ¬ Rejected start execution.input.operations) :
    ∃ row, world.batches = start.batches ++ [row] ∧
      BatchSettled start execution.input result row world := by
  obtain ⟨answer, hleaves, rfl⟩ := h
  obtain ⟨synced, hsynced, hrecorded⟩ := hleaves.recorded
  set terminalData : BatchData := { data with status := .terminal answer.2 }
  have hstatuses : (execution.row terminalData answer.1).statuses = answer.1.map (·.status) :=
    statuses_row hrecorded.length
  have hreplay : batchRowToResult (execution.row terminalData answer.1) =
      ⟨execution.batchId, .terminal answer.2, answer.1.mapIdx reportResult⟩ :=
    batchRowToResult_recorded hopened hrecorded.length
  have hfails : FailsAtFirst start execution.input ↔
      execution.input.rollbackOnFailure = true ∧ (answer.1.map (·.status)).head? = some .failed := by
    unfold FailsAtFirst
    rw [← hpreload, ← hleaves.first]
    exact and_congr_right fun _ ↦ and_iff_right hrejected
  refine ⟨_, hrecorded.batches, ⟨hreplay.symm, ?_, ?_, fun hrollback ↦ ?_,
    fun hrollback _ ↦ ?_⟩, ?_, fun hfirst ↦ ?_⟩
  · show (execution.opRows.zipWith rowOf answer.1).map (·.index) = _
    rw [← hopened.count, ← hopened.indices, map_zipWith]
    apply ext_getElem
    · rw [length_zipWith, length_map, hrecorded.length, min_self]
    · intro i hleft hright
      rw [getElem_zipWith, getElem_map]
      rfl
  · rw [hstatuses]
    exact hleaves.settled.ne_pending
  · refine ⟨synced, hrecorded.syncs, ?_⟩
    rw [hstatuses]
    exact hsynced hrollback
  · rw [hstatuses]
    have hsettled := hleaves.settled
    rw [hrollback] at hsettled
    exact hsettled.skipped
  · rw [hstatuses, hfails]
    exact statusAsDocumented_iff.trans hleaves.settled.means_iff
  · exact congrArg BatchRowStatus.terminal (hleaves.settled.rolledBack_of_first (hfails.mp hfirst))

/-! ### The creation of a batch -/

def operationData (operations : List String) (status : BatchOperationStatus)
    (error : Option String) : List OperationData :=
  operations.mapIdx fun index configFileId ↦ ⟨index, configFileId, status, error⟩

variable {input : BatchExecuteInput} {preload : List PreloadedFile} {row : BatchRow}
  {status : BatchOperationStatus} {error : Option String}
  (h : Created start data (operationData input.operations status error) row)

include h

theorem Created.length : row.operations.length = input.operations.length := by
  have hlength := congrArg List.length h.operations_eq
  unfold operationData at hlength
  rw [length_map, length_mapIdx] at hlength
  exact hlength

theorem Created.indices : row.operations.map (·.index) = List.range input.operations.length := by
  calc row.operations.map (·.index)
      = (row.operations.map (·.toOperationData)).map (·.index) := map_map.symm
    _ = (operationData input.operations status error).map (·.index) := by rw [h.operations_eq]
    _ = List.range input.operations.length := by
      unfold operationData
      apply ext_getElem
      · simp
      · intro i hleft hright
        simp

theorem Created.status_eq {operation : OperationRow} (hoperation : operation ∈ row.operations) :
    operation.status = status ∧ operation.error = error := by
  have hmem : operation.toOperationData ∈ operationData input.operations status error := by
    rw [← h.operations_eq]
    exact mem_map_of_mem hoperation
  obtain ⟨index, hindex, hdata⟩ := mem_mapIdx.mp hmem
  rw [← hdata]
  exact ⟨rfl, rfl⟩

theorem Created.opened :
    Opened start ⟨input, preload, row.id, row.operations.map fun operation ↦
      ⟨operation.id, operation.index, operation.configFileId⟩⟩ where
  count := (length_map _).trans h.length
  indices := by
    dsimp only
    rw [map_map, length_map, h.length, ← h.indices]
    rfl
  nodup_ids := by
    dsimp only
    rw [map_map]
    exact h.nodup_ids
  fresh_id := h.fresh_id
  fresh_ids := by
    intro batch hbatch opRow hopRow
    obtain ⟨operation, hoperation, rfl⟩ := mem_map.mp hopRow
    exact h.fresh_ids batch hbatch operation hoperation

theorem Created.statuses_eq : row.statuses = List.replicate input.operations.length status := by
  refine eq_replicate_iff.mpr ⟨(length_map _).trans h.length, fun other hother ↦ ?_⟩
  obtain ⟨operation, hoperation, rfl⟩ := mem_map.mp hother
  exact (h.status_eq hoperation).1

omit h in
theorem zipWith_rowOf_pending (operations : List OperationRow)
    (h : ∀ operation ∈ operations, operation.status = .pending ∧ operation.error = none) :
    (operations.map fun operation ↦ OpRow.mk operation.id operation.index
      operation.configFileId).zipWith rowOf (operations.map fun _ ↦ pendingReport) =
    operations := by
  induction operations with
  | nil => rfl
  | cons operation rest ih =>
    obtain ⟨hstatus, herror⟩ := h operation mem_cons_self
    rw [map_cons, map_cons, zipWith_cons_cons,
      ih fun other hother ↦ h other (mem_cons_of_mem _ hother)]
    congr 1
    obtain ⟨⟨index, configFileId, status, error⟩, id⟩ := operation
    obtain rfl : status = .pending := hstatus
    obtain rfl : error = none := herror
    rfl

end

section

variable {isUniqueViolation : String → Bool} {start : World} {input : BatchExecuteInput}

/-- The answer is that of a persisted batch, or the replay of another one. -/
def ExecutionLeaves (start : World) (input : BatchExecuteInput) (result : BatchExecuteResult)
    (world : World) : Prop :=
  (∃ row, world.batches = start.batches ++ [row] ∧ BatchSettled start input result row world) ∨
  (world.batches = start.batches ∧ world.databaseThrew = true)

theorem ne_nil_of_rejected (hrejected : Rejected start input.operations) :
    input.operations ≠ [] := by
  intro hempty
  unfold Rejected at hrejected
  rw [hempty] at hrejected
  nomatch hrejected

theorem delivers_persistRejectedBatch (hrejected : Rejected start input.operations)
    (hbatches : world.batches = start.batches) (hsyncs : world.syncs = start.syncs)
    (reason : String) (preload : List PreloadedFile) :
    (persistRejectedBatch input reason preload).Delivers (storeSemantics isUniqueViolation) Threw
      (ExecutionLeaves start input) world := by
  refine delivers_perform_bind (fun row hcreated ↦ ?_) fun _ _ ↦ Bool.or_true _
  refine delivers_emit_bind fun _ _ ↦ delivers_pure (.inl ⟨row, ?_, ?_⟩)
  · show world.batches ++ [row] = _
    rw [hbatches]
  · have hcreated : Created world _ (operationData input.operations .failed _) row := hcreated
    have hstatuses := hcreated.statuses_eq
    have hstatus : row.status = .terminal .failed := congrArg (·.status) hcreated.data_eq
    refine ⟨⟨rfl, hcreated.indices, ?_, fun _ ↦ ⟨[], ?_, [], [], rfl, nil_sublist _,
      nil_sublist _⟩, fun _ hnot ↦ absurd hrejected hnot⟩,
      iff_of_true ?_ fun hnot ↦ hnot.2.1 hrejected, fun hnot ↦ absurd hrejected hnot.2.1⟩
    · rw [hstatuses]
      exact fun hpending ↦ absurd (eq_of_mem_replicate hpending) nofun
    · show world.syncs = _
      rw [hsyncs, append_nil]
    · rw [hstatus, statusAsDocumented_iff, hstatuses]
      refine ⟨mem_replicate.mpr ⟨?_, rfl⟩, fun status hmem ↦ ?_⟩
      · exact fun hzero ↦ ne_nil_of_rejected hrejected (length_eq_zero_iff.mp hzero)
      · rw [eq_of_mem_replicate hmem]
        exact not_succeeded_failed

/-- The creation of a row has failed, and no other row has been written. -/
def CreateFailed (start world : World) : Prop :=
  world.batches = start.batches ∧ world.databaseThrew = true

theorem CreateFailed.after_find (h : CreateFailed start world) {event : Event Answer}
    (hbatches : batchesAfter world.batches event = world.batches) :
    CreateFailed start ((storeSemantics isUniqueViolation).after world event) := by
  refine ⟨hbatches.trans h.1, ?_⟩
  show (world.databaseThrew || _) = true
  rw [h.2, Bool.true_or]

theorem delivers_lookupIdempotentBatch (h : CreateFailed start world)
    (idempotencyKey bodyHash : String) :
    (lookupIdempotentBatch idempotencyKey bodyHash).Delivers (storeSemantics isUniqueViolation)
      Threw (fun _ after ↦ CreateFailed start after) world := by
  refine delivers_perform_bind (fun sameBody _ ↦ ?_) fun _ _ ↦ (h.after_find rfl).2
  cases sameBody with
  | some row => exact delivers_pure (h.after_find rfl)
  | none =>
    refine delivers_perform_bind (fun _ _ ↦ ?_) fun _ _ ↦ ((h.after_find rfl).after_find rfl).2
    exact delivers_pure ((h.after_find rfl).after_find rfl)

def newBatch (input : BatchExecuteInput) (environmentId : Option String) : BatchData :=
  ⟨.pending, input.rollbackOnFailure, input.idempotencyKey, input.idempotencyBodyHash, input.actor,
    environmentId⟩

def OpenLeaves (start : World) (input : BatchExecuteInput) (environmentId : Option String)
    (answer : BatchExecuteResult ⊕ BatchRow) (world : World) : Prop :=
  match answer with
  | .inl _ => CreateFailed start world
  | .inr row => Created start (newBatch input environmentId)
      (operationData input.operations .pending none) row ∧
    world.batches = start.batches ++ [row] ∧ world.syncs = start.syncs ∧
    world.syncAnswers = start.syncAnswers

theorem delivers_openBatch (hbatches : world.batches = start.batches)
    (hsyncs : world.syncs = start.syncs) (hanswers : world.syncAnswers = start.syncAnswers)
    (environmentId : Option String) :
    (openBatch isUniqueViolation input environmentId).Delivers (storeSemantics isUniqueViolation)
      Threw (OpenLeaves start input environmentId) world := by
  refine delivers_tryCatch (delivers_perform_bind (fun row hcreated ↦ ?_) fun message _ ↦ ?_)
    fun message after (hcaught : CreateFailed start after) ↦ ?_
  · have hcreated : Created world (newBatch input environmentId)
      (operationData input.operations .pending none) row := hcreated
    refine delivers_pure
      ⟨⟨hcreated.data_eq, hcreated.operations_eq, hcreated.nodup_ids, ?_, ?_, ?_⟩,
      ?_, hsyncs, hanswers⟩
    · rw [← hbatches]
      exact hcreated.fresh_id
    · rw [← hbatches]
      exact hcreated.fresh_ids
    · unfold World.Taken
      rw [← hbatches]
      exact hcreated.not_taken
    · show world.batches ++ [row] = _
      rw [hbatches]
  · exact ⟨hbatches, Bool.or_true _⟩
  · split
    · rename_i idempotencyKey bodyHash _ _ _
      refine delivers_bind ((delivers_lookupIdempotentBatch hcaught _ _).mono
        fun replay looked hlooked ↦ ?_)
      cases replay with
      | replay result => exact delivers_pure hlooked
      | conflict | fresh => exact delivers_throw _ hlooked.2
    · exact delivers_throw _ hcaught.2

theorem delivers_executeBatch :
    (executeBatch isUniqueViolation input).Delivers (storeSemantics isUniqueViolation) Threw
      (ExecutionLeaves start input) start := by
  refine delivers_perform_bind (fun preload hpreload ↦ ?_) fun _ _ ↦ Bool.or_true _
  obtain rfl : preload = start.preload input.operations := hpreload
  set loaded := (storeSemantics isUniqueViolation).after start
    ⟨.findConfigFiles input.operations, .ok (start.preload input.operations)⟩
  have hloaded : loaded.batches = start.batches ∧ loaded.syncs = start.syncs ∧
    loaded.syncAnswers = start.syncAnswers := ⟨rfl, rfl, rfl⟩
  cases henvironment :
    resolveEnvironment (start.preload input.operations) input.operations none with
  | none => exact delivers_persistRejectedBatch henvironment hloaded.1 hloaded.2.1 _ _
  | some environmentId =>
    have hrejected : ¬ Rejected start input.operations :=
      fun hrejected ↦ absurd (hrejected.symm.trans henvironment) nofun
    dsimp only
    refine delivers_bind ((delivers_openBatch hloaded.1 hloaded.2.1 hloaded.2.2 environmentId).mono
      fun answer opened hopen ↦ ?_)
    cases answer with
    | inl replay => exact delivers_pure (.inr hopen)
    | inr row =>
      obtain ⟨hcreated, hbatches, hsyncs, hanswers⟩ := hopen
      dsimp only
      set execution : Execution := ⟨input, start.preload input.operations, row.id,
        row.operations.map fun operation ↦
          ⟨operation.id, operation.index, operation.configFileId⟩⟩ with hexecution
      have hrow : row = execution.row (newBatch input environmentId)
          (execution.opRows.map fun _ ↦ pendingReport) := by
        have hoperations := zipWith_rowOf_pending row.operations fun _ ↦ hcreated.status_eq
        unfold Execution.row
        rw [hexecution]
        dsimp only
        rw [map_map, ← hcreated.data_eq]
        exact (congrArg (BatchRow.mk row.toBatchData row.id) hoperations).symm
      have hopened : Opened start execution := hcreated.opened
      have hrecorded : Recorded start execution (newBatch input environmentId) []
          (execution.opRows.map fun _ ↦ pendingReport) opened := by
        refine ⟨?_, ?_, hanswers, length_map _⟩
        · rw [hbatches, ← hrow]
        · rw [hsyncs, append_nil]
      refine (delivers_runBatch hopened environmentId hrecorded).mono fun result final hleaves ↦ ?_
      exact .inl (hleaves.batchSettled hopened rfl hrejected)

/-- The answer of `executeBatch` is the replay of the batch that it has persisted. Its status is as
documented exactly if it is not the first operation that fails with `rollbackOnFailure`; there it is
`rolled_back`. Without an exception of the database there is an answer. Assumes: a run that has
ended. -/
theorem batchAnswered_iff (start : World) (input : BatchExecuteInput)
    (log : List (Event Answer)) (outcome : Except String BatchExecuteResult)
    (htraces : Traces (executeBatch isUniqueViolation input) log (some outcome))
    (hconsistent : (storeSemantics isUniqueViolation).Consistent start log) :
    (((storeSemantics isUniqueViolation).final start log).databaseThrew = false →
      ∃ result row, outcome = .ok result ∧
        ((storeSemantics isUniqueViolation).final start log).batches = start.batches ++ [row]) ∧
    ∀ result row, outcome = .ok result →
      ((storeSemantics isUniqueViolation).final start log).batches = start.batches ++ [row] →
      BatchSettled start input result row ((storeSemantics isUniqueViolation).final start log) := by
  have hdelivers := Meets.sound delivers_executeBatch htraces hconsistent
  set final := (storeSemantics isUniqueViolation).final start log
  constructor
  · intro hquiet
    cases outcome with
    | error message => nomatch hquiet.symm.trans hdelivers
    | ok result =>
      rcases hdelivers with ⟨row, hbatches, -⟩ | ⟨-, hthrew⟩
      · exact ⟨result, row, rfl, hbatches⟩
      · nomatch hquiet.symm.trans hthrew
  · rintro result row rfl hrow
    rcases hdelivers with ⟨other, hbatches, hanswered⟩ | ⟨hbatches, -⟩
    · have hsame : row = other := by
        have hlast := hrow.symm.trans hbatches
        exact singleton_inj.mp (append_cancel_left hlast)
      rw [hsame]
      exact hanswered
    · have hlength := congrArg List.length (hrow.symm.trans hbatches)
      rw [length_append, length_singleton] at hlength
      omega

end

/-! ### A batch of one operation -/

/-- A database without config files. -/
def bareWorld : World := ⟨[], [], [], fun _ ↦ .ok none, false⟩

/-- A batch with one operation, on a file that does not exist. -/
def missingFileInput (rollbackOnFailure : Bool) : BatchExecuteInput :=
  ⟨["file"], rollbackOnFailure, ⟨none, none, none⟩, none, none⟩

def missingFileRow (rollbackOnFailure : Bool) (status : BatchRowStatus)
    (operation : BatchOperationStatus) (error : Option String) : BatchRow :=
  ⟨⟨status, rollbackOnFailure, none, none, ⟨none, none, none⟩, none⟩, "batch",
    [⟨⟨0, "file", operation, error⟩, "operation"⟩]⟩

def missingFileError : ConfigSync.OperationError := ⟨"NOT_FOUND", "Config file not found"⟩

def missingFileLog (rollbackOnFailure : Bool) (status : BatchStatus) : List (Event Answer) :=
  [⟨.findConfigFiles ["file"], .ok []⟩,
    ⟨.createBatch ⟨.pending, rollbackOnFailure, none, none, ⟨none, none, none⟩, none⟩
        [⟨0, "file", .pending, none⟩], .ok (missingFileRow rollbackOnFailure .pending .pending none)⟩,
    ⟨.updateOperation "operation" (.failed (stringifyError missingFileError) none), .ok ()⟩,
    ⟨.updateBatch "batch" status, .ok ()⟩]

def missingFileResult (status : BatchStatus) : BatchExecuteResult :=
  ⟨"batch", .terminal status, [⟨0, .failed, some ⟨some "NOT_FOUND", "Config file not found"⟩⟩]⟩

def missingFileStatus (rollbackOnFailure : Bool) : BatchStatus :=
  if rollbackOnFailure then .rolledBack else .failed

section

variable (isUniqueViolation : String → Bool) (rollbackOnFailure : Bool)

theorem traces_missingFile :
    Traces (executeBatch isUniqueViolation (missingFileInput rollbackOnFailure))
      (missingFileLog rollbackOnFailure (missingFileStatus rollbackOnFailure))
      (some (.ok (missingFileResult (missingFileStatus rollbackOnFailure)))) := by
  cases rollbackOnFailure with
  | false | true => exact .call _ (.call _ (.call _ (.call _ (.done _))))

theorem consistent_missingFile (status : BatchStatus) :
    (storeSemantics isUniqueViolation).Consistent bareWorld
      (missingFileLog rollbackOnFailure status) := by
  unfold missingFileLog
  refine ⟨rfl, ⟨rfl, rfl, nodup_singleton _, fun _ hbatch ↦ absurd hbatch not_mem_nil,
    fun _ hbatch ↦ absurd hbatch not_mem_nil, ?_⟩, trivial, trivial, trivial⟩
  rintro ⟨_, _, ⟨hkey, _⟩, _⟩
  nomatch hkey

theorem final_missingFile (status : BatchStatus) :
    ((storeSemantics isUniqueViolation).final bareWorld
      (missingFileLog rollbackOnFailure status)).batches =
      bareWorld.batches ++ [missingFileRow rollbackOnFailure (.terminal status) .failed
        (some (stringifyError missingFileError))] := by
  show [((missingFileRow rollbackOnFailure .pending .pending none).updateOperation "operation"
    (.failed (stringifyError missingFileError) none)).setStatus "batch" (.terminal status)] = _
  generalize stringifyError missingFileError = error
  unfold missingFileRow BatchRow.updateOperation updateRows
  rw [map_singleton, if_pos rfl]
  exact congrArg (fun row ↦ [row]) (if_pos rfl)

end

/-- The batch of which the file does not exist is answered as documented without the rollback. -/
theorem batchAnswered_missingFile :
    BatchAnswered bareWorld (missingFileInput false) (missingFileResult .failed)
      (missingFileRow false (.terminal .failed) .failed (some (stringifyError missingFileError)))
      ((storeSemantics fun _ ↦ false).final bareWorld (missingFileLog false .failed)) := by
  have hsettled := (batchAnswered_iff bareWorld (missingFileInput false)
    (missingFileLog false .failed) _ (traces_missingFile (fun _ ↦ false) false)
    (consistent_missingFile _ false .failed)).2 _ _ rfl (final_missingFile _ false .failed)
  exact ⟨hsettled.toBatchReplayed, hsettled.documented_iff.mpr fun hfirst ↦ absurd hfirst.1 nofun⟩

/-- With the rollback it counts as rolled back, although nothing has succeeded before. -/
theorem not_batchAnswered_missingFile :
    ¬ ∀ (start : World) (input : BatchExecuteInput) (log : List (Event Answer))
      (result : BatchExecuteResult) (row : BatchRow),
      Traces (executeBatch (fun _ ↦ false) input) log (some (.ok result)) →
      (storeSemantics fun _ ↦ false).Consistent start log →
      ((storeSemantics fun _ ↦ false).final start log).batches = start.batches ++ [row] →
      BatchAnswered start input result row ((storeSemantics fun _ ↦ false).final start log) := by
  intro h
  have hanswered := h bareWorld (missingFileInput true) (missingFileLog true .rolledBack) _ _
    (traces_missingFile _ true) (consistent_missingFile _ true .rolledBack)
    (final_missingFile _ true .rolledBack)
  have hmeans : Means .rolledBack [.failed] := (hanswered.documented .rolledBack).mp rfl
  have hreverted : BatchOperationStatus.rolledBack ∈ [.failed] := hmeans.2.2
  nomatch mem_singleton.mp hreverted

end Bridgeport.SyncBatch
