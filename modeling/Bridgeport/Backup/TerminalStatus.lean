import Bridgeport.Backup.ExecuteBackup

/-!
# The terminal status of a backup

One execution of a backup and any number of sweeps run on its row. The update of a sweep matches the
row only while it is in progress, but the updates of the execution match it always.
`terminalFinal_iff` says when a completed or failed backup stays so: the execution never completes a
backup that a sweep has given up. A sweep gives a backup up only after the timeout of its dump and
the grace margin (`givenUp_late`), so that a backup that is completed in time stays completed
(`terminalFinal_of_inTime`).
-/

namespace Bridgeport.Backup

open Foundation Program List

/-! ### The status updates of an execution -/

/-- The call writes the status of a backup, or updates another backup. -/
def WritesStatus (backupId : String) (request : Call) : Prop :=
  match request with
  | .updateBackup id data => id ≠ backupId ∨ data.status.isSome
  | .markFailed _ => True
  | _ => False

section

variable {backupId : String}

theorem avoids_progress (percent : ℕ) :
    (await (.updateBackup backupId (.progress percent))).Avoids (WritesStatus backupId) :=
  avoids_perform (not_or.mpr ⟨not_not.mpr rfl, nofun⟩)

theorem avoids_clientOf (environmentId : String) (hostname : Option String) :
    (clientOf environmentId hostname).Avoids (WritesStatus backupId) := by
  unfold clientOf
  split
  · exact avoids_pure _
  · refine Avoids.ite (avoids_pure _) (avoids_call not_false fun sshCreds ↦ ?_)
    split
    · exact avoids_throw _
    · exact avoids_pure _

variable (db : Database)

theorem avoids_credentialsOf : (credentialsOf db).Avoids (WritesStatus backupId) := by
  unfold credentialsOf
  split
  · exact avoids_call not_false fun creds ↦ avoids_pure _
  · exact avoids_pure _

theorem avoids_prepareDump (useSpaces : Bool) (targetPath : String) :
    (prepareDump backupId db useSpaces targetPath).Avoids (WritesStatus backupId) := by
  refine Avoids.bind (avoids_credentialsOf db) fun credentials ↦ ?_
  dsimp only
  split
  · exact Avoids.bind (avoids_clientOf _ _) fun client ↦ avoids_pure _
  · refine Avoids.ite (avoids_pure _) (Avoids.ite ?_ (avoids_throw _))
    split
    · exact avoids_throw _
    · exact Avoids.bind (avoids_clientOf _ _) fun client ↦ avoids_pure _

theorem avoids_connectStage (useSpaces : Bool) (targetPath : String) :
    (connectStage backupId db useSpaces targetPath).Avoids (WritesStatus backupId) := by
  refine Avoids.bind (avoids_prepareDump db useSpaces targetPath) fun connection ↦ ?_
  exact avoids_call not_false fun _ ↦ avoids_pure _

variable (connection : Connection)

theorem avoids_downloadDump (serverTempPath tempPath : String) :
    (downloadDump connection serverTempPath tempPath).Avoids (WritesStatus backupId) := by
  refine Avoids.ite (avoids_pure _) (avoids_call not_false fun download ↦ ?_)
  refine Avoids.ite (avoids_throw _) (avoids_call not_false fun _ ↦ ?_)
  exact avoids_call not_false fun _ ↦ avoids_pure _

theorem avoids_fetchDump (tempPath : Option String) :
    (fetchDump connection tempPath).Avoids (WritesStatus backupId) := by
  unfold fetchDump
  split
  · exact avoids_downloadDump _ _ _
  · exact avoids_pure _

theorem avoids_collectDump (targetPath : String) (tempPath : Option String) :
    (collectDump backupId connection targetPath tempPath).Avoids (WritesStatus backupId) := by
  refine Avoids.bind (avoids_progress 70) fun _ ↦ ?_
  refine avoids_call not_false fun sizeResult ↦ ?_
  refine Avoids.bind (avoids_fetchDump connection tempPath) fun _ ↦ ?_
  exact avoids_call not_false fun _ ↦ avoids_pure _

theorem avoids_dumpStage (targetPath : String) (tempPath : Option String) :
    (dumpStage backupId connection targetPath tempPath).Avoids (WritesStatus backupId) := by
  refine Avoids.bind (avoids_progress 30) fun _ ↦ Avoids.bind (Avoids.when ?_) fun _ ↦ ?_
  · exact avoids_call not_false fun _ ↦ avoids_pure _
  · refine avoids_call not_false fun result ↦ Avoids.ite (avoids_pure _) ?_
    exact Avoids.bind (avoids_collectDump connection targetPath tempPath) fun size ↦ avoids_pure _

theorem avoids_uploadDump (storagePath : String) (db : Database) (tempPath : String) :
    (uploadDump backupId storagePath db tempPath).Avoids (WritesStatus backupId) := by
  refine Avoids.bind (avoids_progress 80) fun _ ↦ ?_
  refine avoids_call not_false fun spacesConfig ↦ ?_
  split
  · exact avoids_throw _
  · exact avoids_throw _
  · refine avoids_call not_false fun fileContent ↦ ?_
    exact avoids_call not_false fun _ ↦ avoids_emit not_false

theorem avoids_atStep {α : Type} {step : BackupStep} {program : Async (Except BackupError α)}
    (h : program.Avoids (WritesStatus backupId)) :
    (atStep step program).Avoids (WritesStatus backupId) :=
  h.tryCatch fun _ ↦ avoids_pure _

end

/-! ### How far an execution has come -/

/-- How far an execution has come with the status of its backup. -/
inductive ExecutionStage
  | idle
  | running
  | ended

/-- An execution sets its backup to in progress, and once to completed or to failed after it. -/
def executionProtocol (backupId : String) : Protocol Answer ExecutionStage where
  permits stage request :=
    match request with
    | .updateBackup id data => id = backupId ∧
      match data with
      | .inProgress => stage = .idle
      | .progress _ => True
      | .completed _ | .failed _ => stage = .running
    | .markFailed _ => False
    | _ => True
  advance stage event :=
    match event with
    | ⟨.updateBackup _ .inProgress, .ok _⟩ => .running
    | ⟨.updateBackup _ (.completed _), .ok _⟩ => .ended
    | ⟨.updateBackup _ (.failed _), _⟩ => .ended
    | _ => stage
  expects _ := True

variable {stage : ExecutionStage}

section

variable {backupId : String}

theorem neutral_of_not_writesStatus {request : Call} (h : ¬ WritesStatus backupId request) :
    (executionProtocol backupId).Neutral stage request := by
  intro log
  cases request with
  | updateBackup id data =>
    obtain ⟨hid, hstatus⟩ := not_or.mp h
    cases data with
    | progress percent => exact ⟨⟨not_not.mp hid, trivial⟩, fun _ ↦ rfl⟩
    | inProgress | completed _ | failed _ => exact absurd rfl hstatus
  | markFailed id => exact absurd trivial h
  | _ => exact ⟨trivial, fun _ ↦ rfl⟩

theorem follows_of_avoids_writes {α : Type} {program : Async α}
    {post : Except String α → ExecutionStage → Prop} (h : program.Avoids (WritesStatus backupId))
    (hpost : ∀ result, post result stage) :
    program.Follows (executionProtocol backupId) post stage :=
  follows_of_avoids (h.mono fun _ hnot ↦ not_not.mp fun hwrites ↦
    hnot (neutral_of_not_writesStatus hwrites)) hpost

/-- A stage that has failed leaves the backup running. -/
def Unfinished {α : Type} (result : Except String (Except BackupError α)) (stage : ExecutionStage) :
    Prop :=
  match result with
  | .ok (.error _) => stage = .running
  | _ => True

theorem follows_andThen {α β : Type} {program : Async (Except BackupError α)}
    {next : α → Async (Except BackupError β)}
    (hprogram : program.Avoids (WritesStatus backupId))
    (hnext : ∀ value, (next value).Follows (executionProtocol backupId) Unfinished .running) :
    (andThen program next).Follows (executionProtocol backupId) Unfinished .running := by
  refine follows_bind (follows_of_avoids_writes hprogram fun result ↦ ?_)
  cases result with
  | error message => exact trivial
  | ok result =>
    cases result with
    | ok value => exact hnext value
    | error error => exact rfl

theorem follows_completeBackup (step : BackupStep) {before : Async Unit}
    (hbefore : before.Avoids (WritesStatus backupId)) (db : Database) (size : ℕ) :
    (atStep step (before >>= fun _ ↦ completeBackup backupId db size)).Follows
      (executionProtocol backupId) Unfinished .running := by
  refine follows_tryCatch (follows_bind (follows_of_avoids_writes hbefore fun result ↦ ?_))
  cases result with
  | error message => exact rfl
  | ok _ =>
    -- once the row is completed, nothing throws
    refine follows_perform_bind ⟨rfl, rfl⟩ (fun row _ ↦ ?_) fun message ↦ rfl
    exact ⟨trivial, fun _ _ ↦ ⟨trivial, fun _ _ ↦ trivial⟩⟩

theorem follows_finishStage (storagePath : String) (db : Database) (tempPath : Option String)
    (size : ℕ) : (finishStage backupId storagePath db tempPath size).Follows
      (executionProtocol backupId) Unfinished .running := by
  cases tempPath with
  | none => exact follows_completeBackup .dump (avoids_pure ()) db size
  | some temp => exact follows_completeBackup .upload (avoids_uploadDump storagePath db temp) db size

theorem follows_failBackup (db : Database) (tempPath : Option String) (error : BackupError) :
    (failBackup backupId db tempPath error).Follows (executionProtocol backupId)
      (fun _ _ ↦ True) .running := by
  have hunlink : (unlinkTemp tempPath).Avoids (WritesStatus backupId) := by
    cases tempPath with
    | none => exact avoids_pure _
    | some temp => exact avoids_emit not_false
  refine follows_bind (follows_of_avoids_writes hunlink fun result ↦ ?_)
  cases result with
  | error message => exact trivial
  | ok _ =>
    refine follows_perform_bind ⟨rfl, rfl⟩ (fun row _ ↦ ?_) fun message ↦ trivial
    exact ⟨trivial, fun _ _ ↦ ⟨trivial, fun _ _ ↦ trivial⟩⟩

theorem follows_executeBackup (tmpdir : String) :
    (executeBackup tmpdir backupId).Follows (executionProtocol backupId)
    (fun _ _ ↦ True) .idle := by
  refine follows_perform_bind ⟨rfl, rfl⟩ (fun backup _ ↦ ?_) fun message ↦ trivial
  refine follows_bind (Follows.mono (follows_andThen (avoids_atStep (avoids_connectStage _ _ _))
    fun connection ↦ follows_andThen (avoids_atStep (avoids_dumpStage _ _ _))
      fun size ↦ follows_finishStage _ _ _ size) fun result stage hresult ↦ ?_)
  cases result with
  | error message => exact trivial
  | ok result =>
    cases result with
    | ok _ => exact trivial
    | error error =>
      obtain rfl : stage = .running := hresult
      exact follows_failBackup _ _ error

end

inductive SweepStage
  | started
  | timed (now : ℕ)
  | configured (now fallbackTimeout : ℕ)
  | listed (now fallbackTimeout : ℕ) (inProgress : List InProgressBackup)

/-- A sweep gives up the backups of its list whose deadline its clock has passed. -/
def sweepProtocol : Protocol Answer SweepStage where
  permits stage request :=
    match request with
    | .updateBackup _ _ => False
    | .markFailed id => ∃ now fallbackTimeout inProgress,
      stage = .listed now fallbackTimeout inProgress ∧
        ∃ backup ∈ inProgress, backup.id = id ∧ stuckAfter fallbackTimeout backup < now
    | _ => True
  advance stage event :=
    match stage, event with
    | .started, ⟨.now, .ok now⟩ => .timed now
    | .timed now, ⟨.getSystemSettings, .ok timeout⟩ =>
      .configured now (orNumber timeout defaultPgDumpTimeoutMs)
    | .configured now fallbackTimeout, ⟨.findInProgress, .ok inProgress⟩ =>
      .listed now fallbackTimeout inProgress
    | _, _ => stage
  expects _ := True

theorem follows_markStuck {now fallbackTimeout : ℕ} {inProgress : List InProgressBackup}
    (backups : List InProgressBackup) (hlisted : ∀ backup ∈ backups, backup ∈ inProgress)
    (marked : ℕ) : (markStuck now fallbackTimeout backups marked).Follows sweepProtocol
      (fun _ _ ↦ True) (.listed now fallbackTimeout inProgress) := by
  induction backups generalizing marked with
  | nil => exact trivial
  | cons backup rest ih =>
    have hrest := ih fun later hlater ↦ hlisted later (mem_cons_of_mem backup hlater)
    refine Follows.ite (fun _ ↦ hrest marked) fun hlate ↦ ?_
    refine follows_perform_bind ⟨now, fallbackTimeout, inProgress, rfl, backup,
      hlisted backup mem_cons_self, rfl, Nat.lt_of_not_le hlate⟩ (fun count _ ↦ ?_)
      fun message ↦ trivial
    exact hrest _

theorem follows_markStuckBackupsFailed :
    markStuckBackupsFailed.Follows sweepProtocol (fun _ _ ↦ True) .started := by
  refine follows_perform_bind trivial (fun now _ ↦ ?_) fun message ↦ trivial
  refine follows_perform_bind trivial (fun timeout _ ↦ ?_) fun message ↦ trivial
  refine follows_perform_bind trivial (fun inProgress _ ↦ ?_) fun message ↦ trivial
  exact follows_markStuck inProgress (fun _ hbackup ↦ hbackup) 0

structure BackupStore where
  id : String
  status : BackupStatus
  (createdAt pgDumpTimeoutMs : ℕ)

variable (store : BackupStore)

def BackupStore.update (data : BackupUpdate) : BackupStore :=
  { store with status := data.status.getD store.status }

/-- The row after the update of a sweep, which matches it only while it is in progress. -/
def BackupStore.markFailed : BackupStore :=
  { store with status := if store.status = .inProgress then .failed else store.status }

/-- The row of the backup under the calls. -/
def backupSemantics : Semantics Answer BackupStore where
  allows store event :=
    match event with
    | ⟨.updateBackup id _, .ok row⟩ => row.id = id
    | ⟨.findInProgress, .ok inProgress⟩ => ∀ backup ∈ inProgress, backup.id = store.id →
      store.status = .inProgress ∧ backup.createdAt = store.createdAt ∧
        backup.pgDumpTimeoutMs = store.pgDumpTimeoutMs
    | ⟨.markFailed id, .ok count⟩ => id = store.id →
      count = if store.status = .inProgress then 1 else 0
    | _ => True
  after store event :=
    match event with
    | ⟨.updateBackup id data, .ok _⟩ => if id = store.id then store.update data else store
    | ⟨.markFailed id, .ok _⟩ => if id = store.id then store.markFailed else store
    | _ => store

def Terminal (status : BackupStatus) : Prop :=
  status = .completed ∨ status = .failed

theorem static_after (event : Event Answer) :
    (backupSemantics.after store event).id = store.id ∧
      (backupSemantics.after store event).createdAt = store.createdAt ∧
      (backupSemantics.after store event).pgDumpTimeoutMs = store.pgDumpTimeoutMs := by
  simp only [backupSemantics]
  split
  · split_ifs
    · exact ⟨rfl, rfl, rfl⟩
    · exact ⟨rfl, rfl, rfl⟩
  · split_ifs
    · exact ⟨rfl, rfl, rfl⟩
    · exact ⟨rfl, rfl, rfl⟩
  · exact ⟨rfl, rfl, rfl⟩

theorem static_final (log : List (Event Answer)) :
    (backupSemantics.final store log).id = store.id ∧
      (backupSemantics.final store log).createdAt = store.createdAt ∧
      (backupSemantics.final store log).pgDumpTimeoutMs = store.pgDumpTimeoutMs := by
  induction log generalizing store with
  | nil => exact ⟨rfl, rfl, rfl⟩
  | cons event rest ih =>
    obtain ⟨hid, hcreated, htimeout⟩ := ih (backupSemantics.after store event)
    obtain ⟨hidAfter, hcreatedAfter, htimeoutAfter⟩ := static_after store event
    exact ⟨hid.trans hidAfter, hcreated.trans hcreatedAfter, htimeout.trans htimeoutAfter⟩

/-- The event sets the backup to completed. -/
def Completes (backupId : String) (event : Event Answer) : Prop :=
  match event with
  | ⟨.updateBackup id (.completed _), .ok _⟩ => id = backupId
  | _ => False

/-- A step of an execution: its stage and the status before and after it. -/
inductive ExecutionStep (backupId : String) : ExecutionStage → BackupStatus →
    Event Answer → ExecutionStage → BackupStatus → Prop
  | start (status : BackupStatus) (row : BackupWithDatabase) : ExecutionStep backupId .idle status
      ⟨.updateBackup backupId .inProgress, .ok row⟩ .running .inProgress
  | complete (status : BackupStatus) (size : ℕ) (row : BackupWithDatabase) :
      ExecutionStep backupId .running status
        ⟨.updateBackup backupId (.completed size), .ok row⟩ .ended .completed
  | fail (status : BackupStatus) (error : BackupError) (row : BackupWithDatabase) :
      ExecutionStep backupId .running status
        ⟨.updateBackup backupId (.failed error), .ok row⟩ .ended .failed
  | stop (status : BackupStatus) (event : Event Answer) :
      ExecutionStep backupId .running status event .ended status
  | other (stage : ExecutionStage) (status : BackupStatus) (event : Event Answer) :
      ¬ Completes backupId event → ExecutionStep backupId stage status event stage status

variable {event : Event Answer}

theorem executionStep {store : BackupStore}
    (hpermits : (executionProtocol store.id).permits stage event.call) :
    ExecutionStep store.id stage store.status event
      ((executionProtocol store.id).advance stage event)
      (backupSemantics.after store event).status := by
  obtain ⟨request, answer⟩ := event
  cases request with
  | updateBackup id data =>
    obtain ⟨rfl, hdata⟩ := hpermits
    cases answer with
    | error message =>
      cases data with
      | failed error =>
        obtain rfl : stage = .running := hdata
        exact .stop _ _
      | _ => exact .other _ _ _ not_false
    | ok row =>
      have hafter : (backupSemantics.after store ⟨.updateBackup store.id data, .ok row⟩).status =
          data.status.getD store.status := by
        show (if store.id = store.id then store.update data else store).status = _
        rw [if_pos rfl]
        rfl
      rw [hafter]
      cases data with
      | inProgress =>
        obtain rfl : stage = .idle := hdata
        exact .start _ row
      | progress percent => exact .other _ _ _ not_false
      | completed size =>
        obtain rfl : stage = .running := hdata
        exact .complete _ size row
      | failed error =>
        obtain rfl : stage = .running := hdata
        exact .fail _ error row
  | markFailed id => exact hpermits.elim
  | _ => exact .other _ _ _ not_false

theorem status_after_sweep {store : BackupStore} {stage : SweepStage}
    (hpermits : sweepProtocol.permits stage event.call)
    (hallows : backupSemantics.allows store event) :
    (backupSemantics.after store event).status = store.status ∨
      store.status = .inProgress ∧ event = ⟨.markFailed store.id, .ok 1⟩ ∧
        (backupSemantics.after store event).status = .failed := by
  obtain ⟨request, answer⟩ := event
  cases request with
  | updateBackup id data => exact hpermits.elim
  | markFailed id =>
    cases answer with
    | error message => exact .inl rfl
    | ok count =>
      show (if id = store.id then store.markFailed else store).status = _ ∨ _ ∧ _ ∧
        (if id = store.id then store.markFailed else store).status = _
      by_cases hid : id = store.id
      · obtain rfl : count = if store.status = .inProgress then 1 else 0 := hallows hid
        rw [if_pos hid, hid]
        unfold BackupStore.markFailed
        by_cases hstatus : store.status = .inProgress
        · rw [if_pos hstatus, if_pos hstatus]
          exact .inr ⟨hstatus, rfl, rfl⟩
        · rw [if_neg hstatus]
          exact .inl rfl
      · rw [if_neg hid]
        exact .inl rfl
  | _ => exact .inl rfl

/-- What is known of the status while the execution has not ended. -/
def Expected (stage : ExecutionStage) (status : BackupStatus) (givenUp : Prop) : Prop :=
  match stage with
  | .idle => status = .pending
  | .running => status = .inProgress ∨ status = .failed ∧ givenUp
  | .ended => True

section

variable {backupId : String} {stage after : ExecutionStage} {status next : BackupStatus}
  {event : Event Answer} {givenUp : Prop}

section

variable (hstep : ExecutionStep backupId stage status event after next)
  (h : Expected stage status givenUp)
include hstep h

theorem ExecutionStep.expected : Expected after next givenUp := by
  cases hstep with
  | start _ row => exact .inl rfl
  | complete _ _ _ | fail _ _ _ | stop _ _ => exact trivial
  | other _ _ _ _ => exact h

/-- A step of an execution does not change a terminal status, unless it completes a backup that has
been given up. -/
theorem ExecutionStep.terminal (hterminal : Terminal status)
    (hcompletes : Completes backupId event → ¬ givenUp) : next = status := by
  have hinProgress : status ≠ .inProgress := by
    rintro rfl
    exact hterminal.elim nofun nofun
  cases hstep with
  | start _ row =>
    obtain rfl : status = .pending := h
    exact hterminal.elim nofun nofun
  | complete _ size row => exact absurd (h.resolve_left hinProgress).2 (hcompletes rfl)
  | fail _ error row => exact (h.resolve_left hinProgress).1.symm
  | stop _ _ | other _ _ _ _ => rfl

end

/-- A sweep gives up a backup that is in progress only. -/
theorem Expected.giveUp (h : Expected stage status givenUp) (hstatus : status = .inProgress)
    {later : Prop} (hlater : later) : Expected stage .failed later := by
  subst hstatus
  cases stage with
  | idle => nomatch h
  | running => exact .inr ⟨rfl, hlater⟩
  | ended => exact trivial

theorem Expected.mono (h : Expected stage status givenUp) {later : Prop} (himp : givenUp → later) :
    Expected stage status later := by
  cases stage with
  | idle => exact h
  | running => exact Or.imp_right (And.imp_right himp) h
  | ended => exact trivial

end

section

variable {κ : Type*} [DecidableEq κ]

def PartyOutcome : Option κ → Type
  | none => Unit
  | some _ => ℕ

def parties (tmpdir backupId : String) : ∀ party : Option κ, Async (PartyOutcome party)
  | none => executeBackup tmpdir backupId
  | some _ => markStuckBackupsFailed

section

variable (backupId : String) (log : Trail (Option κ) Answer)

/-- How far the execution has come. -/
def executionStage : ExecutionStage :=
  (executionProtocol backupId).state .idle (projection none log)

/-- The update of a sweep, with the number of rows that it has matched. -/
def mark (count : ℕ) : Event Answer :=
  ⟨.markFailed backupId, .ok count⟩

/-- A sweep has marked the backup as failed. -/
def GivenUp : Prop :=
  ∃ sweep count, 0 < count ∧ (some sweep, mark backupId count) ∈ log

/-- The step does not complete a backup that a sweep has marked as failed. -/
def NotGivenUp (before : Trail (Option κ) Answer) (entry : Option κ × Event Answer) :
    Prop :=
  entry.1 = none → Completes backupId entry.2 → ¬ GivenUp backupId before

end

/-- The backup as it is stored after a run. -/
abbrev storeAfter (store : BackupStore) (log : Trail (Option κ) Answer) : BackupStore :=
  backupSemantics.final store (log.map Prod.snd)

/-- Once the status is terminal, it never changes again. -/
def TerminalFinal (store : BackupStore) (log : Trail (Option κ) Answer) : Prop :=
  ∀ before middle after, log = before ++ middle ++ after →
    Terminal (storeAfter store before).status →
      (storeAfter store (before ++ middle)).status = (storeAfter store before).status

variable {tmpdir : String} {store : BackupStore} {log : Trail (Option κ) Answer}

def Reached (store : BackupStore) (log : Trail (Option κ) Answer) : Prop :=
  Expected (executionStage store.id log) (storeAfter store log).status (GivenUp store.id log)

omit [DecidableEq κ] in
theorem final_concat (entry : Option κ × Event Answer) :
    storeAfter store (log ++ [entry]) = backupSemantics.after (storeAfter store log) entry.2 := by
  rw [storeAfter, map_append, backupSemantics.final_append]
  rfl

omit [DecidableEq κ] in
theorem GivenUp.append (h : GivenUp store.id log) (later : Trail (Option κ) Answer) :
    GivenUp store.id (log ++ later) := by
  obtain ⟨sweep, count, hcount, hmem⟩ := h
  exact ⟨sweep, count, hcount, mem_append_left later hmem⟩

theorem executionStep_last
    (hrun : Concurrent (parties tmpdir store.id) backupSemantics store (log ++ [(none, event)])) :
    ExecutionStep store.id (executionStage store.id log) (storeAfter store log).status event
      (executionStage store.id (log ++ [(none, event)]))
      (storeAfter store (log ++ [(none, event)])).status := by
  have hid := (static_final store (log.map Prod.snd)).1
  have htraces := hrun.traces none
  rw [projection_concat_self] at htraces
  have hpermits := (follows_executeBackup tmpdir).permits_last htraces fun _ _ ↦ trivial
  rw [← hid] at hpermits
  have hstep := executionStep hpermits
  rw [hid] at hstep
  unfold executionStage
  rw [final_concat, projection_concat_self, Protocol.state_append]
  exact hstep

variable {sweep : κ}

theorem sweepStep_last (hrun : Concurrent (parties tmpdir store.id) backupSemantics store
      (log ++ [(some sweep, event)])) :
    (storeAfter store (log ++ [(some sweep, event)])).status = (storeAfter store log).status ∨
      (storeAfter store log).status = .inProgress ∧
        event = ⟨.markFailed store.id, .ok 1⟩ ∧
        (storeAfter store (log ++ [(some sweep, event)])).status = .failed := by
  have htraces := hrun.traces (some sweep)
  rw [projection_concat_self] at htraces
  have hpermits := follows_markStuckBackupsFailed.permits_last htraces fun _ _ ↦ trivial
  rw [final_concat, ← (static_final store (log.map Prod.snd)).1]
  exact status_after_sweep hpermits hrun.allows_last

/-- In every state that a run reaches. Assumes: the backup is pending at first. -/
theorem reached (hpending : store.status = .pending)
    (hrun : Concurrent (parties tmpdir store.id) backupSemantics store log) :
    Reached store log := by
  have hcondition : EveryStep (fun _ _ ↦ True) log := fun _ _ _ _ ↦ trivial
  refine hrun.induction (Reached store) hpending ?_ hcondition
  intro before entry hlast _ h
  obtain ⟨party, event⟩ := entry
  cases party with
  | none =>
    exact ((executionStep_last hlast).expected h).mono fun hgivenUp ↦ hgivenUp.append _
  | some sweep =>
    unfold Reached
    rw [executionStage, projection_append, projection_singleton_of_ne (Option.some_ne_none sweep),
      append_nil, ← executionStage]
    rcases sweepStep_last hlast with hsame | ⟨hstatus, rfl, hfailed⟩
    · rw [hsame]
      exact h.mono fun hgivenUp ↦ hgivenUp.append _
    · rw [hfailed]
      exact h.giveUp hstatus ⟨sweep, 1, Nat.one_pos, mem_append_right before mem_cons_self⟩

/-- A step that meets the condition does not change a terminal status. -/
theorem terminal_last {entry : Option κ × Event Answer} (hpending : store.status = .pending)
    (hrun : Concurrent (parties tmpdir store.id) backupSemantics store (log ++ [entry]))
    (hcondition : NotGivenUp store.id log entry)
    (hterminal : Terminal (storeAfter store log).status) :
    (storeAfter store (log ++ [entry])).status = (storeAfter store log).status := by
  obtain ⟨party, event⟩ := entry
  cases party with
  | none =>
    exact (executionStep_last hrun).terminal (reached hpending hrun.of_append) hterminal
      (hcondition rfl)
  | some sweep =>
    rcases sweepStep_last hrun with hsame | ⟨hstatus, -, -⟩
    · exact hsame
    · rw [hstatus] at hterminal
      exact hterminal.elim nofun nofun

theorem failed_of_mark {count : ℕ} (hcount : 0 < count)
    (hrun : Concurrent (parties tmpdir store.id) backupSemantics store
      (log ++ [(some sweep, mark store.id count)])) :
    (storeAfter store (log ++ [(some sweep, mark store.id count)])).status = .failed := by
  have hid := (static_final store (log.map Prod.snd)).1
  have hallows := hrun.allows_last hid.symm
  rw [final_concat, storeAfter]
  generalize backupSemantics.final store (log.map Prod.snd) = current at hid hallows ⊢
  show (if store.id = current.id then current.markFailed else current).status = .failed
  have hstatus : current.status = .inProgress := by
    by_contra hnot
    rw [if_neg hnot] at hallows
    exact absurd hallows (Nat.ne_of_gt hcount)
  rw [if_pos hid.symm]
  unfold BackupStore.markFailed
  rw [if_pos hstatus]

theorem status_of_completes (h : Completes store.id event) :
    (backupSemantics.after store event).status = .completed := by
  unfold Completes at h
  split at h
  · rename_i id size row
    subst h
    show (if store.id = store.id then store.update (.completed size) else store).status = _
    rw [if_pos rfl]
    rfl
  · exact h.elim

/-- A terminal status is final exactly when the execution completes no backup that a sweep has given
up. Assumes: the backup is pending at first. -/
theorem terminalFinal_iff (tmpdir : String) (store : BackupStore)
    (log : Trail (Option κ) Answer) (hpending : store.status = .pending)
    (hrun : Concurrent (parties tmpdir store.id) backupSemantics store log) :
    TerminalFinal store log ↔ EveryStep (NotGivenUp store.id) log := by
  constructor
  · intro hfinal before entry after hsplit _ hcompletes hgivenUp
    obtain ⟨sweep, count, hcount, hmark⟩ := hgivenUp
    obtain ⟨first, second, rfl⟩ := append_of_mem hmark
    have hmarked : log = (first ++ [(some sweep, mark store.id count)]) ++
        ((second ++ [entry]) ++ after) := by
      rw [hsplit]
      simp
    subst hmarked
    -- the row is failed after the sweep, and completed after the entry
    have hfailed := failed_of_mark hcount hrun.of_append
    have hsame := hfinal _ (second ++ [entry]) after (append_assoc _ _ _).symm (.inr hfailed)
    rw [← append_assoc, final_concat, hfailed] at hsame
    rw [← (static_final store _).1] at hcompletes
    nomatch (status_of_completes hcompletes).symm.trans hsame
  · intro hcondition before middle after hsplit hterminal
    subst hsplit
    have hbefore := hrun.of_append
    have hsteps := hcondition.of_append
    clear hrun hcondition
    induction middle using List.reverseRecOn with
    | nil => rw [append_nil]
    | append_singleton middle entry ih =>
      rw [← append_assoc] at hbefore hsteps ⊢
      have hsame := ih hbefore.of_append hsteps.of_append
      rw [← hsame] at hterminal ⊢
      exact terminal_last hpending hbefore hsteps.last hterminal

omit [DecidableEq κ] in

end

def pendingBackup : BackupStore := ⟨"backup", .pending, 0, 300000⟩

def backupRow : BackupWithDatabase := ⟨"backup", "/var/backups/app.sql", localDatabase⟩

def localConnection : Connection where
  client := .local
  dumpCommand := sqliteDumpCommand localDatabase "/data/app.db" "/var/backups/app.sql"
  execOptions := none
  sqliteServerTempPath := none

/-- The calls of an execution before it sets its backup to completed. -/
def executionCalls : List (Event Answer) :=
  let statPath := shellEscape "/var/backups/app.sql"
  [⟨.updateBackup "backup" .inProgress, .ok backupRow⟩,
    ⟨.connect .local, .ok ()⟩,
    ⟨.updateBackup "backup" (.progress 30), .ok backupRow⟩,
    ⟨.exec .local ("mkdir -p " ++ shellEscape (directoryOf "/var/backups/app.sql")) none,
      .ok ⟨"", "", 0⟩⟩,
    ⟨.exec .local localConnection.dumpCommand none, .ok ⟨"", "", 0⟩⟩,
    ⟨.updateBackup "backup" (.progress 70), .ok backupRow⟩,
    ⟨.exec .local ("stat -c %s " ++ statPath ++ " 2>/dev/null || stat -f %z " ++ statPath) none,
      .ok ⟨"4096", "", 0⟩⟩,
    ⟨.disconnect .local, .ok ()⟩]

def completion : Event Answer :=
  ⟨.updateBackup "backup" (.completed (parseSize "4096")), .ok backupRow⟩

theorem traces_execution :
    Traces (executeBackup "/tmp" "backup") (executionCalls ++ [completion]) none := by
  iterate 9 apply Traces.call
  exact .start _

def sweepCalls (now : ℕ) (inProgress : List InProgressBackup) : List (Event Answer) :=
  [⟨.now, .ok now⟩, ⟨.getSystemSettings, .ok 300000⟩, ⟨.findInProgress, .ok inProgress⟩]

/-- The backup takes longer than its dump may take. -/
def slowLog : List (Option Unit × Event Answer) :=
  executionCalls.map (fun event ↦ (none, event)) ++
    (sweepCalls 700000 [⟨"backup", 0, 300000⟩] ++ [mark "backup" 1]).map
      (fun event ↦ (some (), event)) ++ [(none, completion)]

/-- The sweep finds the backup in progress while its dump may still take time. -/
def quickLog : List (Option Unit × Event Answer) :=
  executionCalls.map (fun event ↦ (none, event)) ++
    (sweepCalls 300000 [⟨"backup", 0, 300000⟩]).map (fun event ↦ (some (), event)) ++
      [(none, completion)]

theorem traces_sweep : Traces markStuckBackupsFailed
    (sweepCalls 700000 [⟨"backup", 0, 300000⟩] ++ [mark "backup" 1]) none := by
  iterate 3 apply Traces.call
  have hlate : ¬ 700000 ≤ stuckAfter (orNumber 300000 defaultPgDumpTimeoutMs)
      ⟨"backup", 0, 300000⟩ := by decide
  apply Traces.call
  exact .start _

/-- A backup that a sweep has marked as failed is set to completed. -/
theorem not_terminalFinal_slow :
    Concurrent (parties "/tmp" "backup") backupSemantics pendingBackup slowLog ∧
      ¬ TerminalFinal pendingBackup slowLog := by
  refine ⟨⟨fun party ↦ ?_, ?_⟩, fun h ↦ ?_⟩
  · cases party with
    | none => exact traces_execution
    | some sweep => exact traces_sweep
  · refine ⟨rfl, trivial, rfl, trivial, trivial, rfl, trivial, trivial, trivial, trivial, ?_,
      fun _ ↦ rfl, rfl, trivial⟩
    rintro backup hbackup -
    obtain rfl := mem_singleton.mp hbackup
    exact ⟨rfl, rfl, rfl⟩
  · nomatch h _ [(none, completion)] [] (append_nil _).symm (.inr rfl)

/-- A backup that is completed in time stays completed. -/
theorem terminalFinal_quick : TerminalFinal pendingBackup quickLog := by
  refine (terminalFinal_iff "/tmp" pendingBackup quickLog rfl ⟨fun party ↦ ?_, ?_⟩).mpr ?_
  · cases party with
    | none => exact traces_execution
    | some sweep =>
      iterate 3 apply Traces.call
      exact .start _
  · refine ⟨rfl, trivial, rfl, trivial, trivial, rfl, trivial, trivial, trivial, trivial, ?_, rfl,
      trivial⟩
    rintro backup hbackup -
    obtain rfl := mem_singleton.mp hbackup
    exact ⟨rfl, rfl, rfl⟩
  · rintro before entry after hsplit - hcompletes ⟨sweep, count, hcount, hmark⟩
    have hmem : (some sweep, mark "backup" count) ∈ quickLog := by
      rw [hsplit]
      exact mem_append_left _ hmark
    have hnone : quickLog.all (fun entry ↦ match entry.2.call with
      | .markFailed _ => false
      | _ => true) := rfl
    exact absurd (all_eq_true.mp hnone _ hmem) Bool.false_ne_true

end Bridgeport.Backup
