import Bridgeport.SyncBatch.ExecuteBatch

/-!
# The passes of a batch over its operations

Two loops of `executeBatch` go over the operations: the forward pass attempts them in order, and the
rollback restores those that have succeeded, in the reverse order. `delivers_forwardPass` and
`delivers_rollback` say what each of them leaves in the arrays, in the rows and in the syncs.
-/

namespace Bridgeport.SyncBatch

open Foundation Program List Option
open ConfigSync (BatchOperationStatus OperationReport SyncOutcome)

/-! ### The forward pass -/

/-- The sync with the number is no success. -/
def SyncFails (world : World) (number : ℕ) : Prop :=
  ∀ outcome, world.syncAnswers number = .ok (some outcome) → outcome.status ≠ .ok

/-- The operation on a file fails: the file is not there, or its sync is no success. -/
def OperationFails (world : World) (preload : List PreloadedFile) (configFileId : String)
    (number : ℕ) : Prop :=
  preload.find? (·.id = configFileId) = none ∨ SyncFails world number

/-- What the attempt of an operation leaves. -/
structure Attempted (start : World) (execution : Execution) (data : BatchData)
    (synced : List String) (reports : List OperationReport) (i : ℕ) (report : OperationReport)
    (world : World) : Prop where
  status : report.status = .ok ∨ report.status = .failed
  failed_iff : report.status = .failed ↔ OperationFails start execution.preload
    (execution.configFileIdAt i) (start.syncs.length + synced.length)
  recorded : ∃ more, more.Sublist [execution.configFileIdAt i] ∧
    Recorded start execution data (synced ++ more) (reports.set i report) world

section

variable {isUniqueViolation : String → Bool} {start : World} {execution : Execution}
  {data : BatchData} {synced : List String} {reports : List OperationReport} {world : World}
  {i : ℕ}

section

variable (h : Recorded start execution data synced reports world) (hopened : Opened start execution)
include h hopened

theorem delivers_markOpFailed (hi : i < reports.length) (code message : String) :
    (markOpFailed (execution.opIdAt i) code message).Delivers
    (storeSemantics isUniqueViolation) Threw
      (fun report after ↦ report = ⟨.failed, some ⟨code, message⟩⟩ ∧
        Recorded start execution data synced (reports.set i report) after) world := by
  refine delivers_update h hopened hi (fun _ ↦ ⟨.failed, some ⟨code, message⟩⟩)
    (fun _ _ _ ↦ rfl) (fun after hafter ↦ ?_) fun _ _ _ hthrew ↦ hthrew
  rw [← set_eq_modify] at hafter
  exact delivers_pure ⟨rfl, hafter⟩

theorem delivers_recordOutcome (hpending : reports[i]? = some ⟨.pending, none⟩)
    (outcome : SyncOutcome) :
    (recordOutcome execution i outcome).Delivers (storeSemantics isUniqueViolation) Threw
      (fun report after ↦ (report.status = if outcome.status = .ok then .ok else .failed) ∧
        Recorded start execution data synced (reports.set i report) after) world := by
  have hi : i < reports.length := (List.getElem?_eq_some_iff.mp hpending).1
  refine Delivers.ite (fun hstatus ↦ ?_) fun hstatus ↦ ?_
  · rw [if_neg hstatus]
    refine delivers_update h hopened hi (fun _ ↦ ⟨.failed, some _⟩) (fun _ _ _ ↦ rfl)
      (fun after hafter ↦ ?_) fun _ _ _ hthrew ↦ hthrew
    rw [← set_eq_modify] at hafter
    exact delivers_logAudit hafter fun _ hlogged ↦ delivers_pure ⟨rfl, hlogged⟩
  · rw [if_pos (not_not.mp hstatus)]
    refine delivers_update h hopened hi (fun _ ↦ ⟨.ok, none⟩) (fun report hreport _ ↦ ?_)
      (fun after hafter ↦ ?_) fun _ _ _ hthrew ↦ hthrew
    · rw [← some.inj (hpending.symm.trans hreport)]
      rfl
    · rw [← set_eq_modify] at hafter
      exact delivers_logAudit hafter fun _ hlogged ↦ delivers_pure ⟨rfl, hlogged⟩

end

variable (h : Recorded start execution data synced reports world)
include h

theorem delivers_attemptSync {thrown : String → World → Prop} (configFileId : String) :
    (attemptSync configFileId).Delivers (storeSemantics isUniqueViolation) thrown
      (fun attempt after ↦ attempt = start.syncAnswers (start.syncs.length + synced.length) ∧
        Recorded start execution data (synced ++ [configFileId]) reports after) world := by
  have hanswer : ∀ answer, (storeSemantics isUniqueViolation).allows world
      ⟨.syncConfigFile configFileId, answer⟩ →
      answer = start.syncAnswers (start.syncs.length + synced.length) ∧
        Recorded start execution data (synced ++ [configFileId]) reports
          ((storeSemantics isUniqueViolation).after world
            ⟨.syncConfigFile configFileId, answer⟩) := by
    intro answer hallows
    refine ⟨?_, h.batches, ?_, h.answers, h.length⟩
    · have hallowed : answer = world.syncAnswers world.syncs.length := hallows
      rw [hallowed, h.answers, h.syncs, length_append]
    · show world.syncs ++ [configFileId] = _
      rw [h.syncs, append_assoc]
  refine delivers_tryCatch (delivers_perform_bind (fun outcome hallows ↦ ?_) ?_)
    fun message after hcaught ↦ delivers_pure hcaught
  · exact delivers_pure (hanswer _ hallows)
  · exact fun message hallows ↦ hanswer _ hallows

theorem delivers_attemptOperation (hopened : Opened start execution)
    (hpending : reports[i]? = some ⟨.pending, none⟩) :
    (attemptOperation execution i).Delivers (storeSemantics isUniqueViolation) Threw
      (Attempted start execution data synced reports i) world := by
  have hi : i < reports.length := (List.getElem?_eq_some_iff.mp hpending).1
  unfold attemptOperation
  dsimp only
  cases hfile : execution.preloaded (execution.configFileIdAt i) with
  | none =>
    refine (delivers_markOpFailed h hopened hi _ _).mono fun report after hmarked ↦ ?_
    refine ⟨by rw [hmarked.1]; exact .inr rfl, by rw [hmarked.1]; exact iff_of_true rfl (.inl hfile),
      [], nil_sublist _, ?_⟩
    rw [append_nil]
    exact hmarked.2
  | some cf =>
    have hfails : ∀ number, OperationFails start execution.preload (execution.configFileIdAt i)
        number ↔ SyncFails start number := fun number ↦
      or_iff_right fun hnone ↦ absurd (hnone.symm.trans hfile) nofun
    refine delivers_update h hopened hi id (fun _ _ _ ↦ rfl) (fun after hafter ↦ ?_)
      fun _ _ _ hthrew ↦ hthrew
    rw [modify_id] at hafter
    refine delivers_bind ((delivers_attemptSync hafter _).mono fun attempt synced' hattempt ↦ ?_)
    obtain ⟨hanswer, hsynced⟩ := hattempt
    have hfailed : ∀ code message, SyncFails start (start.syncs.length + synced.length) →
        (markOpFailed (execution.opIdAt i) code message).Delivers (storeSemantics isUniqueViolation)
          Threw (Attempted start execution data synced reports i) synced' := by
      intro code message hsync
      refine (delivers_markOpFailed hsynced hopened hi _ _).mono fun report after hmarked ↦ ?_
      refine ⟨by rw [hmarked.1]; exact .inr rfl, ?_, _, List.Sublist.refl _, hmarked.2⟩
      rw [hmarked.1]
      exact iff_of_true rfl ((hfails _).mpr hsync)
    cases attempt with
    | error message =>
      exact hfailed _ _ fun outcome hok ↦ absurd (hanswer.trans hok) nofun
    | ok answer =>
      cases answer with
      | none => exact hfailed _ _ fun outcome hok ↦ absurd (hanswer.trans hok) nofun
      | some outcome =>
        refine (delivers_recordOutcome hsynced hopened hpending outcome).mono
          fun report after hrecorded ↦ ?_
        obtain ⟨hstatus, hrecorded⟩ := hrecorded
        have hsync : SyncFails start (start.syncs.length + synced.length) ↔
          outcome.status ≠ .ok := by
          refine ⟨fun hsync ↦ hsync outcome hanswer.symm, fun hne other hok ↦ ?_⟩
          obtain rfl := some.inj (Except.ok.inj (hanswer.trans hok))
          exact hne
        refine ⟨?_, ?_, _, List.Sublist.refl _, hrecorded⟩
        · rw [hstatus]
          split_ifs
          · exact .inl rfl
          · exact .inr rfl
        · rw [hfails, hsync, hstatus]
          by_cases hok : outcome.status = .ok
          · rw [if_pos hok]
            exact iff_of_false nofun (not_not.mpr hok)
          · rw [if_neg hok]
            exact iff_of_true rfl hok

end

/-- The array entry of an operation that has not been attempted. -/
def pendingReport : OperationReport := ⟨.pending, none⟩

/-- The arrays between two operations of the forward pass, when those with the reports are done. -/
structure Forward (rollbackOnFailure : Bool) (done : List OperationReport) (remaining : ℕ)
    (progress : Progress) : Prop where
  reports : progress.reports = done ++ List.replicate remaining pendingReport
  attempted : ∀ report ∈ done, report.status = .ok ∨ report.status = .failed
  firstFailureIndex : progress.firstFailureIndex = done.findIdx? (·.status ≠ .ok)
  undoable : rollbackOnFailure = true →
    (∀ report ∈ done, report.status = .ok) ∧ progress.succeededOps = List.range done.length

/-- The arrays after the forward pass. -/
inductive PassEnded (rollbackOnFailure : Bool) : List OperationReport → ℕ → Progress → Prop
  | completed {done : List OperationReport} {progress : Progress}
      (h : Forward rollbackOnFailure done 0 progress) : PassEnded rollbackOnFailure done 0 progress
  | stopped {before : List OperationReport} {failure : OperationReport} {remaining : ℕ}
      (hrollback : rollbackOnFailure = true) (hbefore : ∀ report ∈ before, report.status = .ok)
      (hfailure : failure.status = .failed) :
      PassEnded rollbackOnFailure (before ++ [failure]) remaining
        ⟨before ++ failure :: List.replicate remaining pendingReport, List.range before.length,
          some before.length⟩

/-- The first operation that is done has failed exactly if it had to. -/
def FirstAttempt (start : World) (execution : Execution) (done : List OperationReport) : Prop :=
  ∀ report, done.head? = some report → (report.status = .failed ↔
    OperationFails start execution.preload (execution.configFileIdAt 0) start.syncs.length)

/-- What the forward pass leaves. -/
def PassLeaves (start : World) (execution : Execution) (data : BatchData) (progress : Progress)
    (world : World) : Prop :=
  ∃ done remaining synced, PassEnded execution.input.rollbackOnFailure done remaining progress ∧
    FirstAttempt start execution done ∧
    done.length + remaining = execution.input.operations.length ∧
    synced.Sublist (execution.input.operations.take done.length) ∧
    Recorded start execution data synced progress.reports world

section

variable {rollbackOnFailure : Bool} {done : List OperationReport} {remaining : ℕ}
  {progress : Progress} {report : OperationReport}

section

variable (h : Forward rollbackOnFailure done (remaining + 1) progress)
include h

theorem Forward.getElem? : progress.reports[done.length]? = some pendingReport := by
  rw [h.reports, List.getElem?_append_right (Nat.le_refl _), Nat.sub_self]
  rfl

theorem Forward.set :
    progress.reports.set done.length report =
      done ++ report :: List.replicate remaining pendingReport := by
  rw [h.reports, set_append_right _ _ (Nat.le_refl _), Nat.sub_self]
  rfl

theorem Forward.record (hstatus : report.status = .ok ∨ report.status = .failed)
    (hcontinue : ¬ (report.status ≠ .ok ∧ rollbackOnFailure = true)) :
    Forward rollbackOnFailure (done ++ [report]) remaining
      (progress.record done.length report) where
  reports := by
    rw [append_assoc]
    exact h.set
  attempted := by
    intro other hother
    rcases mem_append.mp hother with hdone | hlast
    · exact h.attempted other hdone
    · rw [mem_singleton.mp hlast]
      exact hstatus
  firstFailureIndex := by
    unfold Progress.record
    dsimp only
    rw [h.firstFailureIndex, List.findIdx?_append]
    by_cases hok : report.status = .ok
    · simp [hok]
    · simp [hok]
  undoable := by
    intro hrollback
    have hok : report.status = .ok := not_not.mp fun hne ↦ hcontinue ⟨hne, hrollback⟩
    obtain ⟨hbefore, hops⟩ := h.undoable hrollback
    constructor
    · intro other hother
      rcases mem_append.mp hother with hdone | hlast
      · exact hbefore other hdone
      · rw [mem_singleton.mp hlast]
        exact hok
    · unfold Progress.record
      dsimp only
      rw [if_pos hok, hops, length_append, length_singleton, range_succ]

theorem Forward.stopped (hfailed : report.status = .failed) (hrollback : rollbackOnFailure = true) :
    PassEnded rollbackOnFailure (done ++ [report]) remaining
      (progress.record done.length report) := by
  obtain ⟨hbefore, hops⟩ := h.undoable hrollback
  have hne : report.status ≠ .ok := by rw [hfailed]; exact nofun
  have hnone : progress.firstFailureIndex = none := by
    rw [h.firstFailureIndex, List.findIdx?_eq_none_iff]
    exact fun other hother ↦ by simp [hbefore other hother]
  have hrecord : progress.record done.length report =
      ⟨done ++ report :: List.replicate remaining pendingReport, List.range done.length,
        some done.length⟩ := by
    unfold Progress.record
    rw [h.set, if_neg hne, if_neg hne, hops, hnone]
    rfl
  rw [hrecord]
  exact .stopped hrollback hbefore hfailed

end

end

section

variable {isUniqueViolation : String → Bool} {start : World} {execution : Execution}
  {data : BatchData}

theorem configFileIdAt_eq {i : ℕ} (hi : i < execution.input.operations.length) :
    execution.input.operations[i]? = some (execution.configFileIdAt i) := by
  unfold Execution.configFileIdAt
  rw [getD_eq_getElem?_getD, List.getElem?_eq_getElem hi]
  rfl

theorem delivers_forwardPass (hopened : Opened start execution) (remaining : ℕ)
    (done : List OperationReport) (progress : Progress) (synced : List String) (world : World)
    (hforward : Forward execution.input.rollbackOnFailure done remaining progress)
    (hfirst : FirstAttempt start execution done)
    (hcount : done.length + remaining = execution.input.operations.length)
    (hsynced : synced.Sublist (execution.input.operations.take done.length))
    (h : Recorded start execution data synced progress.reports world) :
    (forwardPass execution (List.range' done.length remaining) progress).Delivers
      (storeSemantics isUniqueViolation) Threw (PassLeaves start execution data) world := by
  induction remaining generalizing done progress synced world with
  | zero =>
    exact delivers_pure ⟨done, 0, synced, .completed hforward, hfirst, hcount, hsynced, h⟩
  | succ remaining ih =>
    rw [range'_succ]
    refine delivers_bind ((delivers_attemptOperation h hopened hforward.getElem?).mono
      fun report after hattempt ↦ ?_)
    obtain ⟨more, hmore, hrecorded⟩ := hattempt.recorded
    have hlength : (done ++ [report]).length = done.length + 1 := length_append
    have hnext : (done ++ [report]).length + remaining = execution.input.operations.length := by
      omega
    have hfirst' : FirstAttempt start execution (done ++ [report]) := by
      cases done with
      | nil =>
        intro other hother
        have hnil : synced = [] := sublist_nil.mp hsynced
        rw [← some.inj hother, hattempt.failed_iff, hnil]
        exact Iff.rfl
      | cons head rest => exact hfirst
    have htake : (synced ++ more).Sublist
        (execution.input.operations.take (done ++ [report]).length) := by
      rw [hlength, take_add_one, configFileIdAt_eq (by omega)]
      exact hsynced.append hmore
    refine Delivers.ite (fun hstop ↦ ?_) fun hcontinue ↦ ?_
    · have hfailed : report.status = .failed := hattempt.status.resolve_left hstop.1
      exact delivers_pure ⟨done ++ [report], remaining, _, hforward.stopped hfailed hstop.2,
        hfirst',
        hnext, htake, hrecorded⟩
    · rw [← hlength]
      exact ih (done ++ [report]) _ _ after (hforward.record hattempt.status hcontinue) hfirst'
        hnext htake hrecorded

end

/-! ### The rollback -/

/-- The array entry of an operation that is never attempted. -/
def skippedReport : OperationReport := ⟨.skipped, none⟩

/-- The rollback of an operation has ended. -/
def Undone (status : BatchOperationStatus) : Prop :=
  status = .rolledBack ∨ status = .rollbackFailed

/-- What the rollback of the first operations leaves. -/
structure RollbackLeaves (start : World) (execution : Execution) (data : BatchData)
    (synced : List String) (tail : List OperationReport) (count : ℕ) (anyRollbackFailed : Bool)
    (answer : List OperationReport × Bool) (world : World) : Prop where
  reports : ∃ undone, undone.length = count ∧ answer.1 = undone ++ tail ∧
    (∀ report ∈ undone, Undone report.status) ∧
    answer.2 = (anyRollbackFailed || undone.any (·.status = .rollbackFailed))
  recorded : ∃ more, more.Sublist (execution.input.operations.take count).reverse ∧
    Recorded start execution data (synced ++ more) answer.1 world

section

variable {isUniqueViolation : String → Bool} {start : World} {execution : Execution}
  {data : BatchData} {synced : List String} {reports : List OperationReport} {world : World}
  {thrown : String → World → Prop} {i : ℕ}

theorem setStatus_append (front : List OperationReport) (report : OperationReport)
    (tail : List OperationReport) (status : BatchOperationStatus) :
    setStatus (front ++ report :: tail) front.length status =
      front ++ { report with status := status } :: tail := by
  unfold setStatus
  induction front with
  | nil => rfl
  | cons head front ih => exact congrArg (head :: ·) ih

theorem delivers_skipPending (hopened : Opened start execution) (remaining : ℕ)
    (front : List OperationReport) (world : World)
    (h : Recorded start execution data synced
      (front ++ List.replicate remaining pendingReport) world) :
    (skipPending execution (List.range' front.length remaining)
      (front ++ List.replicate remaining pendingReport)).Delivers (storeSemantics isUniqueViolation)
      Threw (fun reports after ↦ reports = front ++ List.replicate remaining skippedReport ∧
        Recorded start execution data synced reports after) world := by
  induction remaining generalizing front world with
  | zero => exact delivers_pure ⟨rfl, h⟩
  | succ remaining ih =>
    have hpending : (front ++ List.replicate (remaining + 1) pendingReport)[front.length]? =
        some pendingReport := by
      rw [List.getElem?_append_right (Nat.le_refl _), Nat.sub_self]
      rfl
    have hset : setStatus (front ++ List.replicate (remaining + 1) pendingReport) front.length
        .skipped = (front ++ [skippedReport]) ++ List.replicate remaining pendingReport := by
      rw [append_assoc]
      exact setStatus_append front pendingReport _ _
    have hlength : (front ++ [skippedReport]).length = front.length + 1 := length_append
    rw [range'_succ]
    unfold skipPending
    rw [hpending]
    refine Delivers.ite (fun _ ↦ ?_) fun hne ↦ absurd rfl hne
    refine delivers_update h hopened (List.getElem?_eq_some_iff.mp hpending).1
      (fun report ↦ { report with status := .skipped }) (fun _ _ _ ↦ rfl)
        (fun after hafter ↦ ?_) fun _ _ _ hthrew ↦ hthrew
    have hafter' : Recorded start execution data synced (setStatus _ front.length .skipped) after :=
      hafter
    rw [hset] at hafter' ⊢
    rw [← hlength]
    refine (ih _ after hafter').mono fun reports after hreports ↦ ?_
    rw [hreports.1]
    refine ⟨?_, hreports.1 ▸ hreports.2⟩
    rw [append_assoc]
    rfl

section

variable (h : Recorded start execution data synced reports world) (hopened : Opened start execution)
  (hi : i < reports.length) (reason : String)
include h hopened hi reason

theorem delivers_failRollback
    (herror : ∀ message after, Recorded start execution data synced reports after →
      Threw message after → thrown message after) :
    (failRollback (execution.opIdAt i) reason).Delivers (storeSemantics isUniqueViolation) thrown
      (fun status after ↦ status = .rollbackFailed ∧
        Recorded start execution data synced (setStatus reports i status) after) world :=
  delivers_update h hopened hi (fun report ↦ { report with status := .rollbackFailed })
    (fun _ _ _ ↦ rfl) (fun _ hafter ↦ delivers_pure ⟨rfl, hafter⟩) herror

theorem delivers_failRollback_logAudit (action resourceId batchId : String)
    (herror : ∀ message after, Recorded start execution data synced reports after →
      Threw message after → thrown message after) :
    (failRollback (execution.opIdAt i) reason >>= fun status ↦
      logAudit action resourceId batchId false >>= fun _ ↦ pure status).Delivers
      (storeSemantics isUniqueViolation) thrown
      (fun status after ↦ Undone status ∧
        Recorded start execution data synced (setStatus reports i status) after) world := by
  refine delivers_bind ((delivers_failRollback h hopened hi reason herror).mono
    fun status after hfailed ↦ ?_)
  refine delivers_logAudit hfailed.2 fun _ hlogged ↦ delivers_pure ⟨.inr hfailed.1, hlogged⟩

end

/-- The syncs of the rollback of an operation, before its status is written. -/
def UndoCaught (start : World) (execution : Execution) (data : BatchData) (synced : List String)
    (reports : List OperationReport) (i : ℕ) (_ : String) (world : World) : Prop :=
  ∃ more, more.Sublist [execution.configFileIdAt i] ∧
    Recorded start execution data (synced ++ more) reports world

/-- What the rollback of an operation leaves. -/
def UndoLeaves (start : World) (execution : Execution) (data : BatchData) (synced : List String)
    (reports : List OperationReport) (i : ℕ) (status : BatchOperationStatus) (world : World) :
    Prop :=
  Undone status ∧ ∃ more, more.Sublist [execution.configFileIdAt i] ∧
    Recorded start execution data (synced ++ more) (setStatus reports i status) world

section

variable (h : Recorded start execution data synced reports world) (hopened : Opened start execution)
  (hi : i < reports.length)
include h hopened hi

theorem delivers_restoreOperation (cf : PreloadedFile) :
    (restoreOperation execution i cf).Delivers (storeSemantics isUniqueViolation)
      (UndoCaught start execution data synced reports i)
      (UndoLeaves start execution data synced reports i) world := by
  refine delivers_perform_bind (fun answer _ ↦ ?_) fun _ _ ↦ ?_
  · set restored := (storeSemantics isUniqueViolation).after world ⟨.restoreConfigFile
      (execution.configFileIdAt i) cf.content cf.isBinary execution.input.actor.userId, .ok answer⟩
    have hrestored : Recorded start execution data synced reports restored :=
      h.after_neutral rfl rfl
    have hsync : ∀ answer, Recorded start execution data (synced ++ [execution.configFileIdAt i])
        reports ((storeSemantics isUniqueViolation).after restored
          ⟨.syncConfigFile (execution.configFileIdAt i), answer⟩) := fun answer ↦ by
      refine ⟨hrestored.batches, ?_, hrestored.answers, hrestored.length⟩
      show restored.syncs ++ [execution.configFileIdAt i] = _
      rw [hrestored.syncs, append_assoc]
    have hcaught : ∀ message after, Recorded start execution data
        (synced ++ [execution.configFileIdAt i]) reports after → Threw message after →
        UndoCaught start execution data synced reports i message after :=
      fun _ _ hafter _ ↦ ⟨_, List.Sublist.refl _, hafter⟩
    refine delivers_perform_bind (fun restoreOutcome _ ↦ ?_) fun message _ ↦
      ⟨_, List.Sublist.refl _, hsync (.error message)⟩
    cases restoreOutcome with
    | none =>
      exact (delivers_failRollback_logAudit (hsync (.ok none)) hopened hi _ _ _ _ hcaught).mono
        fun status after hfailed ↦ ⟨hfailed.1, _, List.Sublist.refl _, hfailed.2⟩
    | some outcome =>
      refine Delivers.ite (fun _ ↦ ?_) fun _ ↦ ?_
      · exact (delivers_failRollback_logAudit (hsync (.ok (some outcome))) hopened hi _ _ _ _
          hcaught).mono fun status after hfailed ↦ ⟨hfailed.1, _, List.Sublist.refl _, hfailed.2⟩
      · refine delivers_update (hsync (.ok (some outcome))) hopened hi
          (fun report ↦ { report with status := .rolledBack }) (fun _ _ _ ↦ rfl)
          (fun after hafter ↦ ?_) hcaught
        exact delivers_logAudit hafter fun _ hlogged ↦
          delivers_pure ⟨.inl rfl, _, List.Sublist.refl _, hlogged⟩
  · refine ⟨[], nil_sublist _, ?_⟩
    rw [append_nil]
    exact h.after_neutral rfl rfl

theorem delivers_undoOperation :
    (undoOperation execution i).Delivers (storeSemantics isUniqueViolation) Threw
      (UndoLeaves start execution data synced reports i) world := by
  unfold undoOperation
  cases execution.preloaded (execution.configFileIdAt i) with
  | none =>
    refine (delivers_failRollback h hopened hi _ fun _ _ _ hthrew ↦ hthrew).mono
      fun status after hfailed ↦ ⟨.inr hfailed.1, [], nil_sublist _, ?_⟩
    rw [append_nil]
    exact hfailed.2
  | some cf =>
    refine delivers_tryCatch
      (delivers_restoreOperation h hopened hi cf) fun message after hcaught ↦ ?_
    obtain ⟨more, hmore, hafter⟩ := hcaught
    exact (delivers_failRollback hafter hopened hi message fun _ _ _ hthrew ↦ hthrew).mono
      fun status after hfailed ↦ ⟨.inr hfailed.1, more, hmore, hfailed.2⟩

end

theorem delivers_rollback (hopened : Opened start execution) (before tail : List OperationReport)
    (anyRollbackFailed : Bool) (synced : List String) (world : World)
    (h : Recorded start execution data synced (before ++ tail) world) :
    (rollback execution (List.range before.length).reverse (before ++ tail)
      anyRollbackFailed).Delivers (storeSemantics isUniqueViolation) Threw
      (RollbackLeaves start execution data synced tail before.length anyRollbackFailed) world := by
  induction before using List.reverseRecOn generalizing tail anyRollbackFailed synced world with
  | nil =>
    refine delivers_pure ⟨⟨[], rfl, rfl, nofun, (Bool.or_false _).symm⟩, [], nil_sublist _, ?_⟩
    rw [append_nil]
    exact h
  | append_singleton front report ih =>
    have hlength : (front ++ [report]).length = front.length + 1 := length_append
    rw [append_assoc] at h ⊢
    rw [hlength, range_succ, reverse_append]
    have hi : front.length < (front ++ ([report] ++ tail)).length := by
      rw [length_append, length_append, length_singleton]
      omega
    refine delivers_bind ((delivers_undoOperation h hopened hi).mono fun status after hundo ↦ ?_)
    obtain ⟨hstatus, more, hmore, hafter⟩ := hundo
    have hset : setStatus (front ++ ([report] ++ tail)) front.length status =
        front ++ ({ report with status := status } :: tail) := setStatus_append front report tail _
    rw [hset] at hafter ⊢
    refine (ih _ (anyRollbackFailed || decide (status = .rollbackFailed)) _ after hafter).mono
      fun answer final hleaves ↦ ?_
    obtain ⟨⟨undone, hcount, hreports, hundone, hany⟩, later, hlater, hfinal⟩ := hleaves
    refine ⟨⟨undone ++ [{ report with status := status }], ?_, ?_, ?_, ?_⟩, more ++ later, ?_, ?_⟩
    · rw [length_append, hcount, length_singleton]
    · rw [hreports, append_assoc]
      rfl
    · intro other hother
      rcases mem_append.mp hother with hfront | hlast
      · exact hundone other hfront
      · rw [mem_singleton.mp hlast]
        exact hstatus
    · rw [hany, any_append, Bool.or_assoc]
      congr 1
      rw [Bool.or_comm]
      simp
    · have hcountle : front.length < execution.input.operations.length := by
        rw [← hopened.count, ← h.length]
        exact hi
      rw [take_add_one, configFileIdAt_eq hcountle, reverse_append]
      exact hmore.append hlater
    · rw [← append_assoc]
      exact hfinal

end

end Bridgeport.SyncBatch
