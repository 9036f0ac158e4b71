import Bridgeport.Backup.ExecuteBackup
import Bridgeport.Backup.PolicyRoutes
import Bridgeport.Foundation.Tables

/-!
# Due backups

`setBackupSchedule`, `checkDueBackups` and `createBackup` of `services/database-backup.ts`, and the
rotation that a tick runs behind the creation of a backup. The execution of a backup is started by
its creation and not awaited, so that it is a program of its own: `executeBackup`, with its calls
among the ones here. The calendar and the reading of cron expressions are parameters;
`Schedules.Cron` has those of a fixed offset.

There is one schedule a database and none is deleted here, so that a schedule is named by its
database. File names, the last error of a rotation and the texts of messages are left out.
-/

namespace Bridgeport.Schedules

/-! ### The next run of a schedule -/

section

/-- The local calendar of the process: the fields of an instant, and the instants to which the
setters of `Date` move it. -/
structure LocalCalendar where
  (month date day hours minutes : ℕ → ℕ)
  /-- `setMonth(getMonth() + 1, 1)` at midnight. -/
  nextMonth : ℕ → ℕ
  /-- `setDate(getDate() + 1)` at midnight. -/
  nextDay : ℕ → ℕ
  /-- `setHours(getHours() + 1, 0, 0, 0)`. -/
  nextHour : ℕ → ℕ
  /-- `setMinutes(getMinutes() + 1, 0, 0)`. -/
  nextMinute : ℕ → ℕ
  /-- `setDate(getDate() + 1)`. -/
  addDay : ℕ → ℕ
  lt_nextMonth (instant : ℕ) : instant < nextMonth instant
  lt_nextDay (instant : ℕ) : instant < nextDay instant
  lt_nextHour (instant : ℕ) : instant < nextHour instant
  lt_nextMinute (instant : ℕ) : instant < nextMinute instant
  lt_addDay (instant : ℕ) : instant < addDay instant

/-- The five fields of a cron expression as `parseCronField` reads them. -/
structure CronFields where
  (minutes hours daysOfMonth months daysOfWeek : List ℕ)
  (hasDomConstraint hasDowConstraint : Bool)

/-- What the next run depends on: the calendar, and the fields of an expression, if it has five. -/
structure CronRules where
  calendar : LocalCalendar
  parse : String → Option CronFields

section

variable (calendar : LocalCalendar) (fields : CronFields)

def dayMatch (instant : ℕ) : Bool :=
  let domMatch : Bool := calendar.date instant ∈ fields.daysOfMonth
  let dowMatch : Bool := calendar.day instant ∈ fields.daysOfWeek ∨
    (calendar.day instant = 0 ∧ 7 ∈ fields.daysOfWeek)
  if fields.hasDomConstraint ∧ fields.hasDowConstraint then domMatch || dowMatch
  else domMatch && dowMatch

/-- The loop of `getNextRunTime`, for a number of turns. -/
def searchNextRun : ℕ → ℕ → Option ℕ
  | 0, _ => none
  | turns + 1, next =>
    if calendar.month next ∉ fields.months then searchNextRun turns (calendar.nextMonth next)
    else if ¬ dayMatch calendar fields next then searchNextRun turns (calendar.nextDay next)
    else if calendar.hours next ∉ fields.hours then searchNextRun turns (calendar.nextHour next)
    else if calendar.minutes next ∉ fields.minutes then
      searchNextRun turns (calendar.nextMinute next)
    else some next

end

variable (rules : CronRules) (cronExpression : String)

def getNextRunTime (start : ℕ) : ℕ :=
  match rules.parse cronExpression with
  | none => rules.calendar.addDay start
  | some fields =>
    (searchNextRun rules.calendar fields (366 * 24 * 60) (rules.calendar.nextMinute start)).getD
      (rules.calendar.addDay start)

def isScheduleDue (lastRunAt : Option ℕ) (now : ℕ) : Bool :=
  match lastRunAt with
  | none => true
  | some lastRunAt => getNextRunTime rules cronExpression lastRunAt ≤ now

theorem le_searchNextRun {calendar : LocalCalendar} {fields : CronFields} {turns next found : ℕ}
    (h : searchNextRun calendar fields turns next = some found) : next ≤ found := by
  induction turns generalizing next with
  | zero => nomatch h
  | succ turns ih =>
    unfold searchNextRun at h
    split_ifs at h
    · exact Nat.le_of_eq (Option.some.inj h)
    · exact Nat.le_trans (Nat.le_of_lt (calendar.lt_nextMinute next)) (ih h)
    · exact Nat.le_trans (Nat.le_of_lt (calendar.lt_nextHour next)) (ih h)
    · exact Nat.le_trans (Nat.le_of_lt (calendar.lt_nextDay next)) (ih h)
    · exact Nat.le_trans (Nat.le_of_lt (calendar.lt_nextMonth next)) (ih h)

/-- The next run is later than the instant from which it is computed. -/
theorem lt_getNextRunTime (start : ℕ) : start < getNextRunTime rules cronExpression start := by
  unfold getNextRunTime
  cases rules.parse cronExpression with
  | none => exact rules.calendar.lt_addDay start
  | some fields =>
    dsimp only
    cases hsearch : searchNextRun rules.calendar fields (366 * 24 * 60)
        (rules.calendar.nextMinute start) with
    | none => exact rules.calendar.lt_addDay start
    | some found =>
      have hlater := le_searchNextRun hsearch
      exact Nat.lt_of_lt_of_le (rules.calendar.lt_nextMinute start) hlater

end

open Backup (BackupType DatabaseBackup EffectivePolicy RotationCandidate RotationTrigger TimeZone
  candidatesOf exemptOf retain)
open Foundation Program

/-- A `BackupSchedule` row. -/
structure ScheduleRow where
  (databaseId cronExpression : String)
  retentionDays : ℕ
  enabled : Bool
  (lastRunAt nextRunAt : Option ℕ)

instance : Keyed ScheduleRow :=
  ⟨ScheduleRow.databaseId⟩

instance : Keyed DatabaseBackup :=
  ⟨fun row ↦ row.id⟩

/-- What `setBackupSchedule` writes. -/
structure ScheduleData where
  cronExpression : String
  retentionDays : ℕ
  enabled : Bool
  nextRunAt : Option ℕ

variable (data : ScheduleData)

def ScheduleData.apply (row : ScheduleRow) : ScheduleRow :=
  { row with
    cronExpression := data.cronExpression, retentionDays := data.retentionDays
    enabled := data.enabled, nextRunAt := data.nextRunAt }

variable (databaseId : String)

def ScheduleData.create : ScheduleRow :=
  { databaseId, cronExpression := data.cronExpression, retentionDays := data.retentionDays,
    enabled := data.enabled, lastRunAt := none, nextRunAt := data.nextRunAt }

theorem ScheduleData.id_apply (row : ScheduleRow) : Keyed.id (data.apply row) = Keyed.id row :=
  rfl

/-- The row after a tick has taken it. -/
def ScheduleRow.ran (lastRunAt nextRunAt : ℕ) (row : ScheduleRow) : ScheduleRow :=
  { row with lastRunAt := some lastRunAt, nextRunAt := some nextRunAt }

theorem ScheduleRow.id_ran (lastRunAt nextRunAt : ℕ) (row : ScheduleRow) :
    Keyed.id (row.ran lastRunAt nextRunAt) = Keyed.id row :=
  rfl

inductive Call
  | now
  | upsertSchedule (databaseId : String) (data : ScheduleData)
  | findEnabledSchedules
  | updateSchedule (databaseId : String) (lastRunAt nextRunAt : ℕ)
  | findDatabase (id : String)
  | insertBackup (databaseId : String) (type : BackupType) (triggeredById : Option String)
  | startExecution (backupId : String)
  | resolveRetentionPolicy (databaseId : String)
  | getTimezone
  | findCandidates (databaseId : String)
  | findExempt (databaseId : String)
  | pruneBackup (id : String)
  | logAudit (databaseId : String) (prunedIds : List String)
  | notifyRotationError (databaseId : String)
  | execution (request : Backup.Call)

@[reducible]
def Answer : Call → Type
  | .now => ℕ
  | .upsertSchedule _ _ => Unit
  | .findEnabledSchedules => List ScheduleRow
  | .updateSchedule _ _ _ => Unit
  | .findDatabase _ => Bool
  | .insertBackup _ _ _ => DatabaseBackup
  | .startExecution _ => Unit
  | .resolveRetentionPolicy _ => EffectivePolicy
  | .getTimezone => TimeZone
  | .findCandidates _ => List RotationCandidate
  | .findExempt _ => List DatabaseBackup
  | .pruneBackup _ => Bool
  | .logAudit _ _ => Unit
  | .notifyRotationError _ => Unit
  | .execution request => Backup.Answer request

/-- Asynchronous code over these calls. -/
abbrev Async := Program Answer

def await (request : Call) : Async (Answer request) :=
  perform request

def createBackup (triggeredById : Option String) (type : BackupType) : Async String := do
  let found ← await (.findDatabase databaseId)
  if ¬ found then throw "Database not found"
  else
    let backup ← await (.insertBackup databaseId type triggeredById)
    emit (.startExecution backup.id)
    return backup.id

/-- The loop of `rotateDatabase` over the backups to prune, with the ids that have been pruned. -/
def pruneBackups : List RotationCandidate → Async (List String)
  | [] => pure []
  | candidate :: rest => do
    let pruned ← await (.pruneBackup candidate.id)
    let prunedIds ← pruneBackups rest
    return if pruned then candidate.id :: prunedIds else prunedIds

/-- `rotateDatabase` with the stored policy. -/
def rotateDatabase (trigger : RotationTrigger) : Async Unit := do
  let policy ← await (.resolveRetentionPolicy databaseId)
  let tz ← await .getTimezone
  let candidates ← await (.findCandidates databaseId)
  if (trigger = .sweep ∨ trigger = .postBackup) ∧ policy.autoApplied then return ()
  else
    let exempt ← await (.findExempt databaseId)
    let result := retain tz policy.toRetentionPolicy candidates exempt.length
      (exempt.map (·.size)).sum
    let pruneList := candidates.filter (·.id ∉ result.keep)
    let prunedIds ← pruneBackups pruneList
    when (prunedIds ≠ []) (await (.logAudit databaseId prunedIds))
    when (prunedIds.length < pruneList.length ∨ result.cappedButUnreachable)
      (await (.notifyRotationError databaseId))

section

variable (rules : CronRules)

def setBackupSchedule (databaseId cronExpression : String) (retentionDays : ℕ) (enabled : Bool) :
    Async Unit :=
  if enabled then do
    let now ← await .now
    await (.upsertSchedule databaseId
      ⟨cronExpression, retentionDays, true, some (getNextRunTime rules cronExpression now)⟩)
  else await (.upsertSchedule databaseId ⟨cronExpression, retentionDays, false, none⟩)

def runDue (now : ℕ) (schedule : ScheduleRow) : Async Unit := do
  await (.updateSchedule schedule.databaseId now (getNextRunTime rules schedule.cronExpression now))
  let _ ← createBackup schedule.databaseId none .scheduled
  rotateDatabase schedule.databaseId .postBackup

/-- One turn of the loop of `checkDueBackups`; an error ends the turn. -/
def runSchedule (now : ℕ) (schedule : ScheduleRow) : Async Unit :=
  (when (isScheduleDue rules schedule.cronExpression schedule.lastRunAt now)
    (runDue rules now schedule)).tryCatch fun _ ↦ pure ()

/-- The loop of `checkDueBackups`. -/
def runSchedules (now : ℕ) : List ScheduleRow → Async Unit
  | [] => pure ()
  | schedule :: rest => do
    runSchedule rules now schedule
    runSchedules now rest

def checkDueBackups : Async Unit := do
  let now ← await .now
  let schedules ← await .findEnabledSchedules
  runSchedules rules now schedules

inductive Task
  | tick
  | setSchedule (databaseId cronExpression : String) (retentionDays : ℕ) (enabled : Bool)
  | manualBackup (databaseId : String) (triggeredById : String)
  | execute (tmpdir backupId : String)

def Task.program : Task → Async Unit
  | .tick => checkDueBackups rules
  | .setSchedule databaseId cronExpression retentionDays enabled =>
    setBackupSchedule rules databaseId cronExpression retentionDays enabled
  | .manualBackup databaseId triggeredById => do
    let _ ← createBackup databaseId (some triggeredById) .manual
    return ()
  | .execute tmpdir backupId => (Backup.executeBackup tmpdir backupId).lift Call.execution

end

structure ScheduleStore where
  schedules : Table ScheduleRow
  backups : Table DatabaseBackup

def updatedBackup (data : Backup.BackupUpdate) (row : DatabaseBackup) : DatabaseBackup :=
  { row with
    status := data.status.getD row.status
    size := match data with
      | .completed size => size
      | _ => row.size }

theorem id_updatedBackup (data : Backup.BackupUpdate) (row : DatabaseBackup) :
    Keyed.id (updatedBackup data row) = Keyed.id row :=
  rfl

namespace ScheduleStore

variable (store : ScheduleStore)

/-- The schedules after `upsert`. -/
def upsertSchedule (databaseId : String) (data : ScheduleData) : ScheduleStore :=
  { store with
    schedules :=
      if (store.schedules.find? databaseId).isSome then
        store.schedules.update databaseId data.apply data.id_apply
      else store.schedules.insert (data.create databaseId) }

end ScheduleStore

/-- The schedules and the backups under the calls. -/
def scheduleSemantics : Semantics Answer ScheduleStore where
  allows store event :=
    match event with
    | ⟨.findEnabledSchedules, .ok found⟩ => found.Perm (store.schedules.rows.filter (·.enabled))
    | ⟨.updateSchedule databaseId _ _, .ok _⟩ => (store.schedules.find? databaseId).isSome
    | ⟨.insertBackup databaseId type _, .ok row⟩ =>
      store.backups.Fresh row.id ∧ row.databaseId = databaseId ∧ row.type = type ∧
        row.status = .pending ∧ row.isPinned = false ∧ row.size = 0
    | ⟨.findCandidates databaseId, .ok found⟩ => found = candidatesOf store.backups.rows databaseId
    | ⟨.findExempt databaseId, .ok found⟩ => found = exemptOf store.backups.rows databaseId
    | ⟨.execution (.updateBackup id _), .ok found⟩ =>
      found.id = id ∧ (store.backups.find? id).isSome
    | _ => True
  after store event :=
    match event with
    | ⟨.upsertSchedule databaseId data, .ok _⟩ => store.upsertSchedule databaseId data
    | ⟨.updateSchedule databaseId lastRunAt nextRunAt, .ok _⟩ =>
      { store with
        schedules := store.schedules.update databaseId (.ran lastRunAt nextRunAt)
          (ScheduleRow.id_ran lastRunAt nextRunAt) }
    | ⟨.insertBackup _ _ _, .ok row⟩ => { store with backups := store.backups.insert row }
    | ⟨.pruneBackup id, .ok true⟩ => { store with backups := store.backups.erase id }
    | ⟨.execution (.updateBackup id data), .ok _⟩ =>
      { store with backups := store.backups.update id (updatedBackup data) (id_updatedBackup data) }
    | _ => store

section

variable {ι : Type*} [DecidableEq ι]

/-- A run of tasks over a store. -/
def Runs (rules : CronRules) (tasks : ι → Task) (store : ScheduleStore)
    (log : Trail ι Answer) : Prop :=
  Concurrent (fun thread ↦ (tasks thread).program rules) scheduleSemantics store log

def storeAfter (store : ScheduleStore) (log : Trail ι Answer) : ScheduleStore :=
  scheduleSemantics.final store (log.map Prod.snd)

omit [DecidableEq ι] in
theorem storeAfter_concat (store : ScheduleStore) (before : Trail ι Answer)
    (entry : ι × Event Answer) : storeAfter store (before ++ [entry]) =
      scheduleSemantics.after (storeAfter store before) entry.2 := by
  rw [storeAfter, List.map_append, Semantics.final_append]
  rfl

end

end Bridgeport.Schedules
