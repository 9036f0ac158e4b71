import Bridgeport.Schedules.DueBackups

/-!
# Backups run when announced

A tick starts a scheduled backup of a database if and only if the schedule that it reads is enabled
and its `nextRunAt` has come, and one value of `nextRunAt` starts at most one scheduled backup
(`runsAsAnnounced`), as long as

* a schedule that has not run since it was set is read by a tick only when its `nextRunAt` has come
  and it is due by its last run as well (`ReadWhenAgreed`),
* a schedule is set to a `nextRunAt` behind its last run (`SetAhead`),
* a tick takes a schedule only while it is as the tick has read it (`TakenAsRead`), and
* no query fails between the reading of a schedule and the start of its backup (`Fails`).
-/

namespace Bridgeport.Schedules

open Foundation Program List Option Function

/-! ### A tick as the others see it -/

/-- What a tick has read and done: its time, the schedules, the databases whose schedules it has
tried to take, the schedules that it has taken, the one for which it is about to start a backup, and
the databases of the backups that it has started. -/
structure TickState where
  time : Option ℕ
  rows : Option (List ScheduleRow)
  attempted : List String
  updated : List ScheduleRow
  taken : Option ScheduleRow
  started : List String
  failed : Bool

/-- The state before the first call. -/
def TickState.start : TickState :=
  ⟨none, none, [], [], none, [], false⟩

def TickState.row (state : TickState) (databaseId : String) : Option ScheduleRow :=
  (state.rows.getD []).find? (·.databaseId = databaseId)

variable (rules : CronRules)

def Due (row : ScheduleRow) (time : ℕ) : Prop :=
  isScheduleDue rules row.cronExpression row.lastRunAt time

/-- A tick takes the due schedules that it has read, each at most once, and starts a scheduled
backup only behind that. -/
def tickProtocol : Protocol Answer TickState where
  permits state request :=
    match request with
    | .now => state.time = none ∧ state.rows = none
    | .findEnabledSchedules => state.rows = none ∧ state.time.isSome
    | .updateSchedule databaseId lastRunAt nextRunAt =>
      databaseId ∉ state.attempted ∧ state.time = some lastRunAt ∧
        ∃ row, state.row databaseId = some row ∧ Due rules row lastRunAt ∧
          nextRunAt = getNextRunTime rules row.cronExpression lastRunAt
    | .insertBackup databaseId .scheduled _ => ∃ row, state.taken = some row ∧ row.databaseId = databaseId
    | _ => True
  advance state event :=
    match event with
    | ⟨.now, .ok time⟩ => { state with time := some time }
    | ⟨.findEnabledSchedules, .ok rows⟩ => { state with rows := some rows }
    | ⟨.updateSchedule databaseId _ _, .ok _⟩ =>
      { state with
        attempted := databaseId :: state.attempted, taken := state.row databaseId
        updated := (state.row databaseId).toList ++ state.updated }
    | ⟨.updateSchedule databaseId _ _, .error _⟩ =>
      { state with attempted := databaseId :: state.attempted, failed := true }
    | ⟨.findDatabase _, .ok true⟩ => state
    | ⟨.findDatabase _, _⟩ => { state with failed := true }
    | ⟨.insertBackup databaseId .scheduled _, .ok _⟩ =>
      { state with taken := none, started := databaseId :: state.started }
    | ⟨.insertBackup _ .scheduled _, .error _⟩ => { state with taken := none, failed := true }
    | _ => state
  expects event :=
    match event with
    | ⟨.findEnabledSchedules, .ok rows⟩ => (rows.map (·.databaseId)).Nodup
    | _ => True

/-- A call that is no part of the choice and the start of scheduled backups. -/
def Plain (request : Call) : Prop :=
  match request with
  | .now | .findEnabledSchedules | .updateSchedule _ _ _ | .findDatabase _
  | .insertBackup _ .scheduled _ => False
  | _ => True

variable {databaseId : String} {rows : List ScheduleRow} {now : ℕ}

section

variable {rules : CronRules} {state : TickState}

theorem neutral_of_plain {request : Call} (h : Plain request) :
    (tickProtocol rules).Neutral state request := by
  intro log
  cases request with
  | now | findEnabledSchedules | updateSchedule _ _ _ | findDatabase _ => exact h.elim
  | insertBackup databaseId type triggeredById =>
    cases type with
    | scheduled => exact h.elim
    | manual => exact ⟨trivial, fun _ ↦ rfl⟩
  | _ => exact ⟨trivial, fun _ ↦ rfl⟩

theorem avoids_await (request : Call) (h : Plain request) :
    (await request).Avoids fun request ↦ ¬ (tickProtocol rules).Neutral state request :=
  avoids_perform (not_not.mpr (neutral_of_plain h))

theorem avoids_pruneBackups (candidates : List Backup.RotationCandidate) :
    (pruneBackups candidates).Avoids fun request ↦
      ¬ (tickProtocol rules).Neutral state request := by
  induction candidates with
  | nil => exact avoids_pure _
  | cons candidate rest ih =>
    refine (avoids_await (.pruneBackup candidate.id) trivial).bind fun _ ↦ ?_
    exact ih.bind fun _ ↦ avoids_pure _

theorem avoids_rotateDatabase (databaseId : String) (trigger : Backup.RotationTrigger) :
    (rotateDatabase databaseId trigger).Avoids fun request ↦
      ¬ (tickProtocol rules).Neutral state request := by
  refine (avoids_await (.resolveRetentionPolicy databaseId) trivial).bind fun policy ↦ ?_
  refine (avoids_await .getTimezone trivial).bind fun tz ↦ ?_
  refine (avoids_await (.findCandidates databaseId) trivial).bind fun candidates ↦ ?_
  refine Avoids.ite (avoids_pure _) ?_
  refine (avoids_await (.findExempt databaseId) trivial).bind fun exempt ↦ ?_
  refine (avoids_pruneBackups _).bind fun prunedIds ↦ ?_
  refine Avoids.bind (Avoids.when
    (avoids_await (.logAudit databaseId prunedIds) trivial)) fun _ ↦ ?_
  exact Avoids.when (avoids_await (.notifyRotationError databaseId) trivial)

/-- What a turn of the loop leaves of the state, and that it starts the backup of a due schedule
unless a query fails. -/
structure Turn (rules : CronRules) (now : ℕ) (schedule : ScheduleRow) (before after : TickState) :
    Prop where
  time : after.time = before.time
  rows : after.rows = before.rows
  attempted : ∀ databaseId ∈ after.attempted,
    databaseId = schedule.databaseId ∨ databaseId ∈ before.attempted
  started : before.started ⊆ after.started
  failed : before.failed → after.failed
  starts : Due rules schedule now → schedule.databaseId ∈ after.started ∨ after.failed

variable {schedule : ScheduleRow}

theorem follows_startBackup {before : TickState} (htaken : state.taken = some schedule)
    (hturn : ∀ (started : List String) (failed : Bool) (taken : Option ScheduleRow),
      state.started ⊆ started → (state.failed → failed) →
        (schedule.databaseId ∈ started ∨ failed) →
        Turn rules now schedule before { state with started, failed, taken }) :
    (createBackup schedule.databaseId none .scheduled >>= fun _ ↦
      rotateDatabase schedule.databaseId .postBackup).Follows (tickProtocol rules)
        (fun _ ↦ Turn rules now schedule before) state := by
  have hfailed : ∀ taken, Turn rules now schedule before { state with failed := true, taken } :=
    fun taken ↦ hturn state.started true taken (List.Subset.refl _) (fun _ ↦ rfl) (.inr rfl)
  refine follows_bind (follows_perform_bind trivial (fun found _ ↦ ?_) fun message ↦
    hfailed state.taken)
  cases found with
  | false => exact hfailed state.taken
  | true =>
    refine follows_perform_bind ⟨schedule, htaken, rfl⟩ (fun row _ ↦ ?_) fun message ↦ hfailed none
    refine ⟨trivial, fun answer _ ↦ ?_⟩
    have hstarted := hturn _ state.failed none (subset_cons_self _ _) id (.inl mem_cons_self)
    exact (follows_of_avoids (avoids_rotateDatabase _ _) fun _ ↦ hstarted :)

theorem follows_runSchedule (htime : state.time = some now)
    (hrow : state.row schedule.databaseId = some schedule)
    (hnew : schedule.databaseId ∉ state.attempted) :
    (runSchedule rules now schedule).Follows (tickProtocol rules)
      (fun result after ↦ result = .ok () ∧ Turn rules now schedule state after) state := by
  have hturn : (when (isScheduleDue rules schedule.cronExpression schedule.lastRunAt now)
      (runDue rules now schedule)).Follows (tickProtocol rules)
        (fun _ ↦ Turn rules now schedule state) state := by
    refine Follows.ite (fun hdue ↦ ?_) fun hdue ↦ ?_
    · refine follows_perform_bind ⟨hnew, htime, schedule, hrow, hdue, rfl⟩
        (fun _ _ ↦ ?_) fun message ↦ ?_
      · refine follows_startBackup hrow fun started failed taken hstarted hfailed hstarts ↦ ?_
        exact ⟨rfl, rfl, fun _ ↦ mem_cons.mp, hstarted, hfailed, fun _ ↦ hstarts⟩
      · exact ⟨rfl, rfl, fun _ ↦ mem_cons.mp, List.Subset.refl _, fun _ ↦ rfl, fun _ ↦
          .inr rfl⟩
    · exact ⟨rfl, rfl, fun _ ↦ Or.inr, List.Subset.refl _, id, fun h ↦ absurd h hdue⟩
  refine follows_tryCatch (hturn.mono fun result after h ↦ ?_)
  cases result with
  | ok _ | error _ => exact ⟨rfl, h⟩

/-- The schedules have been handled: the backups of those that are due have been started, unless a
query has failed. -/
def Handled (rules : CronRules) (now : ℕ) (schedules : List ScheduleRow) (state : TickState) : Prop :=
  ∀ schedule ∈ schedules, Due rules schedule now →
    schedule.databaseId ∈ state.started ∨ state.failed

/-- The loop of a tick over schedules that it has read and not yet tried to take. -/
theorem follows_runSchedules {schedules : List ScheduleRow} (htime : state.time = some now)
    (hrows : ∀ schedule ∈ schedules, state.row schedule.databaseId = some schedule)
    (hnodup : (schedules.map (·.databaseId)).Nodup)
    (hnew : ∀ schedule ∈ schedules, schedule.databaseId ∉ state.attempted) :
    (runSchedules rules now schedules).Follows (tickProtocol rules)
      (fun _ after ↦ after.time = state.time ∧ after.rows = state.rows ∧
        state.started ⊆ after.started ∧ (state.failed → after.failed) ∧
          Handled rules now schedules after) state := by
  induction schedules generalizing state with
  | nil => exact ⟨rfl, rfl, List.Subset.refl _, id, fun _ h ↦ absurd h not_mem_nil⟩
  | cons schedule rest ih =>
    rw [map_cons, nodup_cons] at hnodup
    refine follows_bind ((follows_runSchedule htime (hrows schedule mem_cons_self)
      (hnew schedule mem_cons_self)).mono fun result after h ↦ ?_)
    obtain ⟨rfl, hturn⟩ := h
    have hother : ∀ other ∈ rest, other.databaseId ∉ after.attempted := by
      intro other hother hattempted
      rcases hturn.attempted _ hattempted with hsame | hbefore
      · exact hnodup.1 (hsame ▸ mem_map_of_mem hother)
      · exact hnew other (mem_cons_of_mem _ hother) hbefore
    have hrest := ih (hturn.time.trans htime) (fun other hmem ↦ by
      rw [TickState.row, hturn.rows]
      exact hrows other (mem_cons_of_mem _ hmem)) hnodup.2 hother
    refine hrest.mono fun result later h ↦ ?_
    obtain ⟨hlaterTime, hlaterRows, hstarted, hfailed, hhandled⟩ := h
    refine ⟨hlaterTime.trans hturn.time, hlaterRows.trans hturn.rows,
      List.Subset.trans hturn.started hstarted, fun h ↦ hfailed (hturn.failed h), ?_⟩
    intro other hmem hdue
    rcases mem_cons.mp hmem with rfl | hmem
    · exact (hturn.starts hdue).imp (fun h ↦ hstarted h) hfailed
    · exact hhandled other hmem hdue

/-- The schedules that have been read are handled when the task ends. -/
def Finished (rules : CronRules) (state : TickState) : Prop :=
  ∀ rows time, state.rows = some rows → state.time = some time → Handled rules time rows state

theorem find?_of_mem_rows (hnodup : (rows.map (·.databaseId)).Nodup) (hmem : schedule ∈ rows) :
    rows.find? (·.databaseId = schedule.databaseId) = some schedule := by
  have hfound : (Table.mk rows hnodup).find? (Keyed.id schedule) = some schedule :=
    Table.find?_of_mem hmem
  exact hfound

theorem follows_checkDueBackups :
    (checkDueBackups rules).Follows (tickProtocol rules) (fun _ ↦ Finished rules) .start := by
  refine follows_perform_bind ⟨rfl, rfl⟩ (fun now _ ↦ ?_) fun message rows time hrows ↦
    absurd hrows nofun
  refine follows_perform_bind ⟨rfl, rfl⟩ (fun schedules hnodup ↦ ?_) fun message rows time hrows ↦
    absurd hrows nofun
  refine Follows.mono (follows_runSchedules rfl (fun schedule hmem ↦ find?_of_mem_rows hnodup hmem)
    hnodup fun _ _ ↦ not_mem_nil) fun result after h ↦ ?_
  obtain ⟨htime, hrows, -, -, hhandled⟩ := h
  intro rows time hafter hafterTime
  obtain rfl := some.inj (hafter.symm.trans hrows)
  obtain rfl := some.inj (hafterTime.symm.trans htime)
  exact hhandled

theorem follows_setBackupSchedule (databaseId cronExpression : String) (retentionDays : ℕ)
    (enabled : Bool) :
    (setBackupSchedule rules databaseId cronExpression retentionDays enabled).Follows
      (tickProtocol rules) (fun _ ↦ Finished rules) .start := by
  have hunread : ∀ state : TickState, state.rows = none → Finished rules state :=
    fun state h rows time hrows ↦ absurd (h.symm.trans hrows) nofun
  refine Follows.ite (fun _ ↦ ?_) fun _ ↦ ?_
  · refine follows_perform_bind ⟨rfl, rfl⟩ (fun now _ ↦ ?_) fun message ↦ hunread _ rfl
    exact follows_of_avoids (avoids_await (.upsertSchedule _ _) trivial) fun _ ↦ hunread _ rfl
  · exact follows_of_avoids (avoids_await (.upsertSchedule _ _) trivial) fun _ ↦ hunread _ rfl

theorem follows_manualBackup (databaseId triggeredById : String) :
    (createBackup databaseId (some triggeredById) .manual >>= fun _ ↦ pure ()).Follows
      (tickProtocol rules) (fun _ ↦ Finished rules) .start := by
  have hunread : ∀ state : TickState, state.rows = none → Finished rules state :=
    fun state h rows time hrows ↦ absurd (h.symm.trans hrows) nofun
  refine follows_bind (follows_perform_bind trivial (fun found _ ↦ ?_) fun message ↦ hunread _ rfl)
  cases found with
  | false => exact hunread _ rfl
  | true =>
    refine follows_perform_bind trivial (fun row _ ↦ ?_) fun message ↦ hunread _ rfl
    exact ⟨trivial, fun _ _ ↦ hunread _ rfl⟩

theorem follows_program (task : Task) :
    (task.program rules).Follows (tickProtocol rules) (fun _ ↦ Finished rules) .start := by
  cases task with
  | tick => exact follows_checkDueBackups
  | setSchedule databaseId cronExpression retentionDays enabled =>
    exact follows_setBackupSchedule databaseId cronExpression retentionDays enabled
  | manualBackup databaseId triggeredById => exact follows_manualBackup databaseId triggeredById
  | execute tmpdir backupId =>
    refine follows_of_avoids (avoids_lift fun request ↦ not_not.mpr ?_) fun _ rows time hrows ↦
      absurd hrows nofun
    exact neutral_of_plain trivial

end

/-! ### What a tick has done -/

def startsBackup (databaseId : String) (event : Event Answer) : Bool :=
  match event with
  | ⟨.insertBackup id .scheduled _, .ok _⟩ => id = databaseId
  | _ => false

/-- A query between the reading of a schedule and the start of its backup fails. -/
def Fails (event : Event Answer) : Prop :=
  match event with
  | ⟨.updateSchedule _ _ _, .error _⟩ => True
  | ⟨.findDatabase _, .ok found⟩ => found = false
  | ⟨.findDatabase _, .error _⟩ => True
  | ⟨.insertBackup _ .scheduled _, .error _⟩ => True
  | _ => False

/-- How the parts of the state of a tick belong together. -/
structure TickState.Consistent (rules : CronRules) (state : TickState) : Prop where
  nodup : state.started.Nodup
  attempted : ∀ databaseId ∈ state.started, databaseId ∈ state.attempted
  takenAttempted : ∀ row, state.taken = some row → row.databaseId ∈ state.attempted
  takenNew : ∀ row, state.taken = some row → row.databaseId ∉ state.started
  takenUpdated : ∀ row, state.taken = some row → row ∈ state.updated
  startedUpdated : ∀ databaseId ∈ state.started, ∃ row ∈ state.updated, row.databaseId = databaseId
  updatedRead : ∀ row ∈ state.updated, state.row row.databaseId = some row
  updatedDue : ∀ row ∈ state.updated, ∃ time, state.time = some time ∧ Due rules row time

variable {row : ScheduleRow} {event : Event Answer} {time : ℕ}

section

variable {rules : CronRules} {state : TickState}

theorem TickState.databaseId_of_row (h : state.row databaseId = some row) :
    row.databaseId = databaseId :=
  by simpa using List.find?_some h

section

variable (h : state.Consistent rules)

include h

/-- Nothing has been taken before the schedules have been read. -/
theorem TickState.Consistent.updated_eq_nil (hrows : state.rows = none) : state.updated = [] := by
  refine eq_nil_iff_forall_not_mem.mpr fun row hrow ↦ ?_
  have hread := h.updatedRead row hrow
  rw [TickState.row, hrows] at hread
  nomatch hread

theorem TickState.Consistent.take (hnew : databaseId ∉ state.attempted)
    (htime : state.time = some time) (hrow : state.row databaseId = some row)
    (hdue : Due rules row time) : TickState.Consistent rules { state with
      attempted := databaseId :: state.attempted, taken := state.row databaseId
      updated := (state.row databaseId).toList ++ state.updated } := by
  have hid := TickState.databaseId_of_row hrow
  have hupdated : (state.row databaseId).toList ++ state.updated = row :: state.updated := by
    rw [hrow]
    rfl
  rw [hupdated, hrow]
  refine ⟨h.nodup, fun id hid ↦ mem_cons_of_mem _ (h.attempted id hid), ?_, ?_, ?_, ?_, ?_, ?_⟩
  · intro other hother
    obtain rfl := some.inj hother
    exact hid ▸ mem_cons_self
  · intro other hother hstarted
    obtain rfl := some.inj hother
    exact hnew (hid ▸ h.attempted _ hstarted)
  · intro other hother
    obtain rfl := some.inj hother
    exact mem_cons_self
  · intro id hstarted
    obtain ⟨other, hother, hsame⟩ := h.startedUpdated id hstarted
    exact ⟨other, mem_cons_of_mem _ hother, hsame⟩
  · intro other hother
    rcases mem_cons.mp hother with rfl | hother
    · exact hid.symm ▸ hrow
    · exact h.updatedRead other hother
  · intro other hother
    rcases mem_cons.mp hother with rfl | hother
    · exact ⟨time, htime, hdue⟩
    · exact h.updatedDue other hother

theorem TickState.Consistent.start (htaken : state.taken = some row) : TickState.Consistent rules
      { state with taken := none, started := row.databaseId :: state.started } := by
  refine ⟨nodup_cons.mpr ⟨h.takenNew row htaken, h.nodup⟩, ?_, nofun, nofun, nofun, ?_,
    h.updatedRead, h.updatedDue⟩
  · intro id hid
    rcases mem_cons.mp hid with rfl | hid
    · exact h.takenAttempted row htaken
    · exact h.attempted id hid
  · intro id hid
    rcases mem_cons.mp hid with rfl | hid
    · exact ⟨row, h.takenUpdated row htaken, rfl⟩
    · exact h.startedUpdated id hid

theorem TickState.Consistent.advance (hpermits : (tickProtocol rules).permits state event.call) :
    TickState.Consistent rules ((tickProtocol rules).advance state event) := by
  have hdropped : ∀ failed, TickState.Consistent rules { state with taken := none, failed } :=
    fun _ ↦ { h with takenAttempted := nofun, takenNew := nofun, takenUpdated := nofun }
  have hfailed : TickState.Consistent rules { state with failed := true } := { h with }
  obtain ⟨request, answer⟩ := event
  cases request with
  | now =>
    have hempty := h.updated_eq_nil hpermits.2
    cases answer with
    | error message => exact h
    | ok time =>
      refine { h with updatedDue := fun row hrow ↦ ?_ }
      exact absurd (hempty ▸ hrow) not_mem_nil
  | findEnabledSchedules =>
    have hempty := h.updated_eq_nil hpermits.1
    cases answer with
    | error message => exact h
    | ok rows =>
      refine { h with updatedRead := fun row hrow ↦ ?_ }
      exact absurd (hempty ▸ hrow) not_mem_nil
  | updateSchedule databaseId lastRunAt nextRunAt =>
    obtain ⟨hnew, htime, row, hrow, hdue, -⟩ := hpermits
    cases answer with
    | error message =>
      exact { h with
        attempted := fun id hid ↦ mem_cons_of_mem _ (h.attempted id hid)
        takenAttempted := fun other hother ↦ mem_cons_of_mem _ (h.takenAttempted other hother) }
    | ok value => exact h.take hnew htime hrow hdue
  | findDatabase id =>
    cases answer with
    | error message => exact hfailed
    | ok found =>
      cases found with
      | false => exact hfailed
      | true => exact h
  | insertBackup databaseId type triggeredById =>
    cases type with
    | manual => exact h
    | scheduled =>
      obtain ⟨row, htaken, rfl⟩ := hpermits
      cases answer with
      | error message => exact hdropped true
      | ok inserted => exact h.start htaken
  | _ => exact h

end

/-! ### The calls of a tick -/

/-- The state of a tick tells what it has called. -/
structure Told (rules : CronRules) (events : List (Event Answer)) (state : TickState) : Prop where
  consistent : state.Consistent rules
  time : ∀ time, state.time = some time ↔ ⟨.now, .ok time⟩ ∈ events
  rows : ∀ rows, state.rows = some rows ↔ ⟨.findEnabledSchedules, .ok rows⟩ ∈ events
  started : ∀ databaseId, events.countP (startsBackup databaseId) = state.started.count databaseId
  failed : state.failed → ∃ event ∈ events, Fails event

section

variable {events : List (Event Answer)} {event : Event Answer}

theorem time_advance (hpermits : (tickProtocol rules).permits state event.call) (time : ℕ) :
    ((tickProtocol rules).advance state event).time = some time ↔
      state.time = some time ∨ event = ⟨.now, .ok time⟩ := by
  unfold tickProtocol at hpermits ⊢
  dsimp only at hpermits ⊢
  split <;> simp_all

theorem rows_advance (hpermits : (tickProtocol rules).permits state event.call)
    (rows : List ScheduleRow) :
    ((tickProtocol rules).advance state event).rows = some rows ↔
      state.rows = some rows ∨ event = ⟨.findEnabledSchedules, .ok rows⟩ := by
  unfold tickProtocol at hpermits ⊢
  dsimp only at hpermits ⊢
  split <;> simp_all

theorem started_advance (databaseId : String) :
    ((tickProtocol rules).advance state event).started.count databaseId =
      state.started.count databaseId + if startsBackup databaseId event then 1 else 0 := by
  unfold tickProtocol startsBackup
  dsimp only
  split <;> simp_all [count_cons]

theorem failed_advance (h : ((tickProtocol rules).advance state event).failed) :
    state.failed ∨ Fails event := by
  unfold tickProtocol at h
  dsimp only at h
  split at h
  case h_6 id answer hne =>
    right
    cases answer with
    | error message => exact trivial
    | ok found =>
      cases found with
      | false => exact rfl
      | true => exact absurd rfl hne
  all_goals first
    | exact .inl h
    | exact .inr trivial

theorem told_concat (h : Told rules events state)
    (hpermits : (tickProtocol rules).permits state event.call) :
    Told rules (events ++ [event]) ((tickProtocol rules).advance state event) := by
  refine ⟨h.consistent.advance hpermits, fun time ↦ ?_, fun rows ↦ ?_, fun databaseId ↦ ?_,
    fun hfailed ↦ ?_⟩
  · rw [time_advance hpermits, h.time, mem_append, mem_singleton, eq_comm (a := event)]
  · rw [rows_advance hpermits, h.rows, mem_append, mem_singleton, eq_comm (a := event)]
  · rw [started_advance, ← h.started, countP_append, countP_singleton]
  · rcases failed_advance hfailed with hbefore | hlast
    · obtain ⟨other, hother, hfails⟩ := h.failed hbefore
      exact ⟨other, mem_append_left _ hother, hfails⟩
    · exact ⟨event, mem_append_right _ (mem_singleton_self _), hlast⟩

theorem told_of_accepts (h : (tickProtocol rules).Accepts .start events) :
    Told rules events ((tickProtocol rules).state .start events) := by
  induction events using List.reverseRecOn with
  | nil =>
    refine ⟨⟨nodup_nil, nofun, nofun, nofun, nofun, nofun, nofun, nofun⟩,
      fun _ ↦ ⟨nofun, nofun⟩, fun _ ↦ ⟨nofun, nofun⟩, fun _ ↦ rfl, nofun⟩
  | append_singleton before event ih =>
    rw [Protocol.accepts_append] at h
    rw [Protocol.state_append]
    exact told_concat (ih h.1) h.2.1

end

end

/-! ### The schedules -/

namespace ScheduleStore

variable (store : ScheduleStore)

def lastRun (databaseId : String) : Option ℕ :=
  (store.schedules.find? databaseId).bind (·.lastRunAt)

def nextRun (databaseId : String) : Option ℕ :=
  (store.schedules.find? databaseId).bind (·.nextRunAt)

/-- Every next run that is shown is later than the last run. -/
def Ahead : Prop :=
  ∀ databaseId last next, store.lastRun databaseId = some last →
    store.nextRun databaseId = some next → last < next

variable {store}

section

variable (databaseId : String) (data : ScheduleData) (id : String)

theorem find?_upsertSchedule :
    (store.upsertSchedule databaseId data).schedules.find? id =
      if databaseId = id then
        some (((store.schedules.find? id).map data.apply).getD (data.create databaseId))
      else store.schedules.find? id := by
  unfold upsertSchedule
  dsimp only
  cases hfound : store.schedules.find? databaseId with
  | some row =>
    rw [isSome_some, if_pos rfl, Table.find?_update]
    by_cases hid : databaseId = id
    · subst hid
      simp [hfound]
    · simp [hid]
  | none =>
    have hfresh : store.schedules.Fresh databaseId := by
      intro hmem
      obtain ⟨row, hrow, hid⟩ := mem_map.mp hmem
      have hkey : store.schedules.find? databaseId = some row := hid ▸ Table.find?_of_mem hrow
      nomatch hfound.symm.trans hkey
    have hcreate : store.schedules.Fresh (Keyed.id (data.create databaseId)) := hfresh
    rw [isSome_none, if_neg nofun, Table.find?_insert hcreate]
    by_cases hid : databaseId = id
    · subst hid
      have hkey : Keyed.id (data.create databaseId) = databaseId := rfl
      rw [if_pos hkey, if_pos rfl, hfound]
      rfl
    · have hkey : Keyed.id (data.create databaseId) ≠ id := hid
      rw [if_neg hkey, if_neg hid]

theorem lastRun_upsertSchedule :
    (store.upsertSchedule databaseId data).lastRun id = store.lastRun id := by
  rw [lastRun, lastRun, find?_upsertSchedule]
  by_cases hid : databaseId = id
  · rw [if_pos hid]
    cases store.schedules.find? id with
    | none | some _ => rfl
  · rw [if_neg hid]

theorem nextRun_upsertSchedule :
    (store.upsertSchedule databaseId data).nextRun id =
      if databaseId = id then data.nextRunAt else store.nextRun id := by
  rw [nextRun, nextRun, find?_upsertSchedule]
  by_cases hid : databaseId = id
  · rw [if_pos hid, if_pos hid]
    cases store.schedules.find? id with
    | none | some _ => rfl
  · rw [if_neg hid, if_neg hid]

end

end ScheduleStore

theorem runs_updateSchedule {store : ScheduleStore} (last next : ℕ) (answer : Unit)
    (hfound : (store.schedules.find? databaseId).isSome) (id : String) :
    (scheduleSemantics.after store ⟨.updateSchedule databaseId last next, .ok answer⟩).lastRun id =
        (if databaseId = id then some last else store.lastRun id) ∧
      (scheduleSemantics.after store
        ⟨.updateSchedule databaseId last next, .ok answer⟩).nextRun id =
        if databaseId = id then some next else store.nextRun id := by
  obtain ⟨row, hrow⟩ := isSome_iff_exists.mp hfound
  unfold ScheduleStore.lastRun ScheduleStore.nextRun scheduleSemantics
  dsimp only
  rw [Table.find?_update]
  by_cases hid : databaseId = id
  · subst hid
    simp [hrow, ScheduleRow.ran]
  · simp [hid]

section

variable {ι : Type*} [DecidableEq ι]

def tickStates (rules : CronRules) (log : Trail ι Answer) : ι → TickState :=
  (tickProtocol rules).states (fun _ ↦ .start) log

/-- The task has read that a backup of the database is announced for its time or before. -/
def Announced (store : ScheduleStore) (log : Trail ι Answer) (thread : ι)
    (databaseId : String) : Prop :=
  ∃ before after rows time row, log = before ++ (thread, ⟨.findEnabledSchedules, .ok rows⟩) :: after ∧
    (thread, ⟨.now, .ok time⟩) ∈ before ∧
      (storeAfter store before).schedules.find? databaseId = some row ∧ row.enabled ∧
        ∃ next, row.nextRunAt = some next ∧ next ≤ time

variable (log : Trail ι Answer)

/-- The number of scheduled backups of the database that the task has started. -/
def startsOf (thread : ι) (databaseId : String) : ℕ :=
  (projection thread log).countP (startsBackup databaseId)

/-- The task has read the value of `nextRunAt` for the database. -/
def ReadsNextRun (thread : ι) (databaseId : String) (next : ℕ) : Prop :=
  ∃ rows row, (thread, ⟨.findEnabledSchedules, .ok rows⟩) ∈ log ∧ row ∈ rows ∧
    row.databaseId = databaseId ∧ row.nextRunAt = some next

def Returned (rules : CronRules) (tasks : ι → Task) (log : Trail ι Answer) (thread : ι) :
    Prop :=
  ∃ result, Traces ((tasks thread).program rules) (projection thread log) (some result)

/-- Backups run when announced, once for each value of `nextRunAt`. -/
structure RunsAsAnnounced (rules : CronRules) (tasks : ι → Task) (store : ScheduleStore)
    (log : Trail ι Answer) : Prop where
  announced : ∀ thread databaseId, 0 < startsOf log thread databaseId →
    Announced store log thread databaseId
  started : ∀ thread databaseId, Returned rules tasks log thread →
    Announced store log thread databaseId → 0 < startsOf log thread databaseId
  once : ∀ thread databaseId, startsOf log thread databaseId ≤ 1
  distinct : ∀ thread other databaseId next, 0 < startsOf log thread databaseId →
    ReadsNextRun log thread databaseId next → 0 < startsOf log other databaseId →
      ReadsNextRun log other databaseId next → thread = other

/-- The schedule has run since it was set: the next run that is shown is the one behind its last
run. -/
def Settled (row : ScheduleRow) : Prop :=
  ∃ last, row.lastRunAt = some last ∧
    row.nextRunAt = some (getNextRunTime rules row.cronExpression last)

/-- The next run that is shown has come, and the schedule is due by its last run. -/
def Overdue (row : ScheduleRow) (time : ℕ) : Prop :=
  (∃ next, row.nextRunAt = some next ∧ next ≤ time) ∧ Due rules row time

/-- A schedule that has not run since it was set is read only when it is overdue. -/
def ReadWhenAgreed (state : TickState) (event : Event Answer) : Prop :=
  ∀ rows time, event = ⟨.findEnabledSchedules, .ok rows⟩ → state.time = some time →
    ∀ row ∈ rows, Settled rules row ∨ Overdue rules row time

/-- A schedule is set to a next run behind its last run. -/
def SetAhead (store : ScheduleStore) (event : Event Answer) : Prop :=
  ∀ databaseId data last next, event.call = .upsertSchedule databaseId data →
    store.lastRun databaseId = some last → data.nextRunAt = some next → last < next

def TakenAsRead (store : ScheduleStore) (state : TickState) (event : Event Answer) : Prop :=
  ∀ databaseId last next, event.call = .updateSchedule databaseId last next →
    store.schedules.find? databaseId = state.row databaseId

/-- The conditions on a step of a run. -/
structure Orderly (rules : CronRules) (tasks : ι → Task) (store : ScheduleStore)
    (before : Trail ι Answer) (entry : ι × Event Answer) : Prop where
  readWhenAgreed : ReadWhenAgreed rules (tickStates rules before entry.1) entry.2
  setAhead : SetAhead (storeAfter store before) entry.2
  takenAsRead : TakenAsRead (storeAfter store before) (tickStates rules before entry.1) entry.2
  succeeds : ¬ (tasks entry.1 = .tick ∧ Fails entry.2)

/-- The schedules that the ticks have taken were announced for times before the last runs, and no
two ticks have taken one for the same announcement. -/
structure TakenInvariant (store : ScheduleStore) (states : ι → TickState) : Prop where
  ahead : store.Ahead
  ran : ∀ thread, ∀ row ∈ (states thread).updated, ∀ next, row.nextRunAt = some next →
    ∃ last, store.lastRun row.databaseId = some last ∧ next ≤ last
  distinct : ∀ thread other, ∀ row ∈ (states thread).updated, ∀ otherRow ∈ (states other).updated,
    ∀ next, row.databaseId = otherRow.databaseId → row.nextRunAt = some next →
      otherRow.nextRunAt = some next → thread = other

section

variable {rules : CronRules} {row : ScheduleRow} {time : ℕ}

/-- For a schedule that has run since it was set, what is shown agrees with what is computed. -/
theorem agrees_of_settled (h : Settled rules row) :
    Due rules row time ↔ ∃ next, row.nextRunAt = some next ∧ next ≤ time := by
  obtain ⟨last, hlast, hnext⟩ := h
  simp [Due, isScheduleDue, hlast, hnext]

theorem agrees_of_read (h : Settled rules row ∨ Overdue rules row time) :
    Due rules row time ↔ ∃ next, row.nextRunAt = some next ∧ next ≤ time := by
  rcases h with hsettled | hoverdue
  · exact agrees_of_settled hsettled
  · exact ⟨fun _ ↦ hoverdue.1, fun _ ↦ hoverdue.2⟩

end

variable {rules : CronRules} {tasks : ι → Task} {store : ScheduleStore}
  {before log : Trail ι Answer} {entry : ι × Event Answer}

theorem expects_run (hrun : Runs rules tasks store log) :
    ∀ entry ∈ log, (tickProtocol rules).expects entry.2 := by
  refine Concurrent.expects hrun (fun _ ↦ True) trivial fun world event _ hallows ↦ ⟨trivial, ?_⟩
  unfold tickProtocol
  dsimp only
  split
  · refine (List.Perm.map _ hallows).nodup_iff.mpr ?_
    exact world.schedules.nodup_ids.sublist (filter_sublist.map _)
  · trivial

theorem permits_step (hrun : Runs rules tasks store (before ++ [entry])) :
    (tickProtocol rules).permits (tickStates rules before entry.1) entry.2.call :=
  Concurrent.permits_last (fun thread ↦ follows_program (tasks thread)) hrun (expects_run hrun)

theorem told_run (hrun : Runs rules tasks store log) (thread : ι) :
    Told rules (projection thread log) (tickStates rules log thread) := by
  refine told_of_accepts ((follows_program (tasks thread)).sound (hrun.traces thread) ?_).1
  intro event hevent
  exact expects_run hrun (thread, event) (mem_projection_iff.mp hevent)

theorem startsOf_eq (hrun : Runs rules tasks store log) (thread : ι) (databaseId : String) :
    startsOf log thread databaseId = (tickStates rules log thread).started.count databaseId :=
  (told_run hrun thread).started databaseId

variable {thread : ι}

section

variable (hrun : Runs rules tasks store log)

include hrun

/-- A backup that has been started is one for a schedule that has been taken. -/
theorem exists_updated (hstarts : 0 < startsOf log thread databaseId) :
    ∃ row ∈ (tickStates rules log thread).updated, row.databaseId = databaseId := by
  rw [startsOf_eq hrun, count_pos_iff] at hstarts
  exact (told_run hrun thread).consistent.startedUpdated databaseId hstarts

theorem read_at {after : Trail ι Answer}
    (hsplit : log = before ++ (thread, ⟨.findEnabledSchedules, .ok rows⟩) :: after) :
    ∃ time, (tickStates rules before thread).time = some time ∧
      (thread, ⟨.now, .ok time⟩) ∈ before ∧
      (tickStates rules log thread).time = some time ∧
        (tickStates rules log thread).rows = some rows ∧
        rows.Perm ((storeAfter store before).schedules.rows.filter (·.enabled)) := by
  have hprefix : Runs rules tasks store
      (before ++ [(thread, ⟨.findEnabledSchedules, .ok rows⟩)]) := by
    rw [append_cons] at hsplit
    subst hsplit
    exact hrun.of_append
  obtain ⟨-, hsome⟩ := permits_step hprefix
  obtain ⟨time, htime⟩ := isSome_iff_exists.mp hsome
  have hnow : (thread, ⟨.now, .ok time⟩) ∈ before :=
    mem_projection_iff.mp (((told_run hprefix.of_append thread).time time).mp htime)
  have hmem : ∀ event, (thread, event) ∈ log → event ∈ projection thread log :=
    fun event ↦ mem_projection_iff.mpr
  refine ⟨time, htime, hnow, ?_, ?_, hprefix.allows_last⟩
  · refine ((told_run hrun thread).time time).mpr (hmem _ ?_)
    rw [hsplit]
    exact mem_append_left _ hnow
  · refine ((told_run hrun thread).rows rows).mpr (hmem _ ?_)
    rw [hsplit]
    exact mem_append_right _ mem_cons_self

theorem exists_read (hrows : (tickStates rules log thread).rows = some rows) :
    ∃ before after, log = before ++ (thread, ⟨.findEnabledSchedules, .ok rows⟩) :: after :=
  append_of_mem (mem_projection_iff.mp (((told_run hrun thread).rows rows).mp hrows))

end

theorem TickState.exists_rows {state : TickState} (h : state.row databaseId = some row) :
    ∃ rows, state.rows = some rows ∧ row ∈ rows := by
  unfold TickState.row at h
  cases hrows : state.rows with
  | none =>
    rw [hrows] at h
    nomatch h
  | some rows =>
    rw [hrows] at h
    exact ⟨rows, rfl, mem_of_find?_eq_some h⟩

section

variable (hrun : Runs rules tasks store log)
  (hcondition : EveryStep (Orderly rules tasks store) log)

include hrun hcondition

theorem agreed_run (hrows : (tickStates rules log thread).rows = some rows)
    (htime : (tickStates rules log thread).time = some time) (hrow : row ∈ rows) :
    Due rules row time ↔ ∃ next, row.nextRunAt = some next ∧ next ≤ time := by
  obtain ⟨before, after, hsplit⟩ := exists_read hrun hrows
  obtain ⟨read, hread, -, hfinal, -, -⟩ := read_at hrun hsplit
  obtain rfl := some.inj (hfinal.symm.trans htime)
  exact agrees_of_read
    ((hcondition before _ after hsplit).readWhenAgreed rows read rfl hread row hrow)

theorem announced_of_updated (hrow : row ∈ (tickStates rules log thread).updated) :
    Announced store log thread row.databaseId := by
  have hconsistent := (told_run hrun thread).consistent
  have hread := hconsistent.updatedRead row hrow
  obtain ⟨time, htime, hdue⟩ := hconsistent.updatedDue row hrow
  obtain ⟨rows, hrows, hmem⟩ := TickState.exists_rows hread
  have hnext := (agreed_run hrun hcondition hrows htime hmem).mp hdue
  obtain ⟨before, after, hsplit⟩ := exists_read hrun hrows
  obtain ⟨read, -, hnow, hfinal, -, hperm⟩ := read_at hrun hsplit
  obtain rfl := some.inj (hfinal.symm.trans htime)
  obtain ⟨htable, henabled⟩ := mem_filter.mp (hperm.mem_iff.mp hmem)
  exact ⟨before, after, rows, read, row, hsplit, hnow, Table.find?_of_mem htable, henabled, hnext⟩

end

def ReadsSchedules (request : Call) : Prop :=
  match request with
  | .findEnabledSchedules => True
  | _ => False

theorem avoids_createBackup (databaseId : String) (triggeredById : Option String)
    (type : Backup.BackupType) :
    (createBackup databaseId triggeredById type).Avoids ReadsSchedules := by
  refine avoids_call not_false fun found ↦ Avoids.ite (avoids_throw _) ?_
  refine avoids_call not_false fun row ↦ ?_
  exact Avoids.bind (avoids_emit not_false) fun _ ↦ avoids_pure _

theorem tick_of_read (hrun : Runs rules tasks store log)
    (hread : (thread, ⟨.findEnabledSchedules, .ok rows⟩) ∈ log) : tasks thread = .tick := by
  have havoids : ¬ ((tasks thread).program rules).Avoids ReadsSchedules := fun h ↦
    (hrun.traces thread).not_of_avoids h _ (mem_projection_iff.mpr hread) trivial
  cases htask : tasks thread with
  | tick => rfl
  | setSchedule databaseId cronExpression retentionDays enabled =>
    rw [htask] at havoids
    exact (havoids (Avoids.ite (avoids_call not_false fun _ ↦ avoids_perform not_false)
      (avoids_perform not_false))).elim
  | manualBackup databaseId triggeredById =>
    rw [htask] at havoids
    exact absurd (Avoids.bind (avoids_createBackup _ _ _) fun _ ↦ avoids_pure _) havoids
  | execute tmpdir backupId =>
    rw [htask] at havoids
    exact absurd (avoids_lift fun _ ↦ not_false) havoids

theorem started_of_announced (hrun : Runs rules tasks store log)
    (hcondition : EveryStep (Orderly rules tasks store) log)
    (hreturned : Returned rules tasks log thread) (h : Announced store log thread databaseId) :
    0 < startsOf log thread databaseId := by
  obtain ⟨before, after, rows, time, row, hsplit, hnow, hfind, henabled, hnext⟩ := h
  obtain ⟨read, -, -, hfinal, hrows, hperm⟩ := read_at hrun hsplit
  have htime : (tickStates rules log thread).time = some time := by
    refine ((told_run hrun thread).time time).mpr (mem_projection_iff.mpr ?_)
    rw [hsplit]
    exact mem_append_left _ hnow
  obtain ⟨htable, rfl⟩ := Table.find?_eq_some_iff.mp hfind
  have hmem : row ∈ rows := hperm.mem_iff.mpr (mem_filter.mpr ⟨htable, henabled⟩)
  have hdue := (agreed_run hrun hcondition hrows htime hmem).mpr hnext
  obtain ⟨result, htraces⟩ := hreturned
  have hhandled := Concurrent.ends (fun thread ↦ follows_program (tasks thread)) (expects_run hrun)
    htraces rows time hrows htime row hmem hdue
  rw [startsOf_eq hrun, count_pos_iff]
  refine hhandled.resolve_right fun hfailed ↦ ?_
  -- only a tick reads the schedules, and its queries do not fail
  obtain ⟨event, hevent, hfails⟩ := (told_run hrun thread).failed hfailed
  obtain ⟨earlier, later, hstep⟩ := append_of_mem (mem_projection_iff.mp hevent)
  have hread : (thread, ⟨.findEnabledSchedules, .ok rows⟩) ∈ log := by
    rw [hsplit]
    exact mem_append_right _ mem_cons_self
  exact (hcondition earlier _ later hstep).succeeds ⟨tick_of_read hrun hread, hfails⟩

/-! ### No announcement is used twice -/

/-- A call that takes a schedule. -/
def Takes (event : Event Answer) : Prop :=
  ∃ databaseId last next answer, event = ⟨.updateSchedule databaseId last next, .ok answer⟩

/-- A schedule that a call adds to those that have been taken is the one that it takes. -/
theorem mem_updated_advance {state : TickState}
    (h : row ∈ ((tickProtocol rules).advance state event).updated) :
    row ∈ state.updated ∨ (∃ databaseId last next answer,
      event = ⟨.updateSchedule databaseId last next, .ok answer⟩ ∧
        state.row databaseId = some row) := by
  unfold tickProtocol at h
  dsimp only at h
  split at h
  case h_3 databaseId last next answer =>
    refine (mem_append.mp h).symm.imp_right fun hrow ↦ ?_
    exact ⟨databaseId, last, next, answer, rfl, Option.mem_toList.mp hrow⟩
  all_goals exact .inl h

section

variable {event : Event Answer}

/-- A call that neither sets nor takes a schedule. -/
theorem schedules_after
    (hset : ∀ databaseId data answer, event ≠ ⟨.upsertSchedule databaseId data, .ok answer⟩)
    (htake : ¬ Takes event) : (scheduleSemantics.after store event).schedules = store.schedules := by
  unfold scheduleSemantics
  dsimp only
  split
  case h_1 databaseId data answer => exact absurd rfl (hset databaseId data answer)
  case h_2 databaseId last next answer => exact absurd ⟨_, _, _, _, rfl⟩ htake
  all_goals rfl

/-- What is set or left alone keeps the last runs. -/
theorem lastRun_after (htake : ¬ Takes event) (id : String) :
    (scheduleSemantics.after store event).lastRun id = store.lastRun id := by
  by_cases hset : ∃ databaseId data answer, event = ⟨.upsertSchedule databaseId data, .ok answer⟩
  · obtain ⟨databaseId, data, answer, rfl⟩ := hset
    exact ScheduleStore.lastRun_upsertSchedule databaseId data id
  · have hsame : (scheduleSemantics.after store event).schedules = store.schedules :=
      schedules_after (fun _ _ _ h ↦ hset ⟨_, _, _, h⟩) htake
    rw [ScheduleStore.lastRun, ScheduleStore.lastRun, hsame]

theorem ahead_after (hahead : store.Ahead) (hset : SetAhead store event) (htake : ¬ Takes event) :
    (scheduleSemantics.after store event).Ahead := by
  intro id last next hlast hnext
  rw [lastRun_after htake] at hlast
  by_cases hupsert : ∃ databaseId data answer, event = ⟨.upsertSchedule databaseId data, .ok answer⟩
  · obtain ⟨databaseId, data, answer, rfl⟩ := hupsert
    have hshown : (store.upsertSchedule databaseId data).nextRun id = some next := hnext
    rw [ScheduleStore.nextRun_upsertSchedule] at hshown
    split_ifs at hshown with hid
    · subst hid
      exact hset databaseId data last next rfl hlast hshown
    · exact hahead id last next hlast hshown
  · have hsame : (scheduleSemantics.after store event).schedules = store.schedules :=
      schedules_after (fun _ _ _ h ↦ hupsert ⟨_, _, _, h⟩) htake
    rw [ScheduleStore.nextRun, hsame] at hnext
    exact hahead id last next hlast hnext

end

variable {states : ι → TickState}

theorem TakenInvariant.frame (h : TakenInvariant store states) (hset : SetAhead store entry.2)
    (htake : ¬ Takes entry.2) :
    TakenInvariant (scheduleSemantics.after store entry.2) (Function.update states entry.1
      ((tickProtocol rules).advance (states entry.1) entry.2)) := by
  have hupdated : ∀ thread, ∀ row ∈ (Function.update states entry.1
      ((tickProtocol rules).advance (states entry.1) entry.2) thread).updated,
        row ∈ (states thread).updated := by
    intro thread row hrow
    by_cases hthread : thread = entry.1
    · subst hthread
      rw [update_self] at hrow
      refine (mem_updated_advance hrow).resolve_right ?_
      exact fun ⟨_, _, _, _, hevent, _⟩ ↦ htake ⟨_, _, _, _, hevent⟩
    · rw [update_of_ne hthread] at hrow
      exact hrow
  refine ⟨ahead_after h.ahead hset htake, fun thread row hrow next hnext ↦ ?_,
    fun thread other row hrow otherRow hother ↦
      h.distinct thread other row (hupdated thread row hrow) otherRow
        (hupdated other otherRow hother)⟩
  rw [lastRun_after htake]
  exact h.ran thread row (hupdated thread row hrow) next hnext

/-- A step that takes a schedule as it has been read, when it is announced. -/
theorem TakenInvariant.take (h : TakenInvariant store states) {last next announced : ℕ}
    {answer : Unit} (hfind : store.schedules.find? databaseId = some row)
    (hread : (states thread).row databaseId = some row)
    (hannounced : row.nextRunAt = some announced) (hle : announced ≤ last) (hlt : last < next) :
    TakenInvariant (scheduleSemantics.after store
      ⟨.updateSchedule databaseId last next, .ok answer⟩)
      (Function.update states thread ((tickProtocol rules).advance (states thread)
        ⟨.updateSchedule databaseId last next, .ok answer⟩)) := by
  have hfound : (store.schedules.find? databaseId).isSome :=
    isSome_iff_exists.mpr ⟨row, hfind⟩
  have hruns := runs_updateSchedule last next answer hfound
  have hid : row.databaseId = databaseId := TickState.databaseId_of_row hread
  have hshown : store.nextRun databaseId = some announced := by
    rw [ScheduleStore.nextRun, hfind]
    exact hannounced
  -- a schedule that another tick has taken was announced before the last run
  have hearlier : ∀ other, ∀ otherRow ∈ (states other).updated, ∀ value,
      otherRow.databaseId = databaseId → otherRow.nextRunAt = some value → value < announced := by
    intro other otherRow hother value hsame hvalue
    obtain ⟨ran, hran, hle⟩ := h.ran other otherRow hother value hvalue
    rw [hsame] at hran
    exact hle.trans_lt (h.ahead databaseId ran announced hran hshown)
  have hupdated : ∀ other, ∀ otherRow ∈ (Function.update states thread
      ((tickProtocol rules).advance (states thread)
        ⟨.updateSchedule databaseId last next, .ok answer⟩) other).updated,
        otherRow ∈ (states other).updated ∨ other = thread ∧ otherRow = row := by
    intro other otherRow hother
    by_cases hthread : other = thread
    · subst hthread
      rw [update_self] at hother
      refine (mem_updated_advance hother).imp_right ?_
      rintro ⟨_, _, _, _, hevent, hotherRow⟩
      obtain ⟨rfl, -, -⟩ := Call.updateSchedule.inj (congrArg Event.call hevent)
      exact ⟨rfl, some.inj (hotherRow.symm.trans hread)⟩
    · rw [update_of_ne hthread] at hother
      exact .inl hother
  refine ⟨fun id ran shown hran hnext ↦ ?_, fun other otherRow hother value hvalue ↦ ?_,
    fun first second firstRow hfirst secondRow hsecond value hsame hvalue hsecondValue ↦ ?_⟩
  · rw [(hruns id).1] at hran
    rw [(hruns id).2] at hnext
    split_ifs at hran hnext
    · obtain rfl := some.inj hran
      obtain rfl := some.inj hnext
      exact hlt
    · exact h.ahead id ran shown hran hnext
  · rw [(hruns otherRow.databaseId).1]
    split_ifs with hsame
    · refine ⟨last, rfl, ?_⟩
      rcases hupdated other otherRow hother with hbefore | ⟨-, rfl⟩
      · exact (hearlier other otherRow hbefore value hsame.symm hvalue).le.trans hle
      · obtain rfl := some.inj (hvalue.symm.trans hannounced)
        exact hle
    · refine h.ran other otherRow ((hupdated other otherRow hother).resolve_right ?_) value hvalue
      rintro ⟨-, rfl⟩
      exact hsame hid.symm
  · rcases hupdated first firstRow hfirst with hbefore | ⟨rfl, rfl⟩
    · rcases hupdated second secondRow hsecond with hsecondBefore | ⟨rfl, rfl⟩
      · exact h.distinct first second firstRow hbefore secondRow hsecondBefore value hsame hvalue
          hsecondValue
      · obtain rfl := some.inj (hsecondValue.symm.trans hannounced)
        exact absurd (hearlier first firstRow hbefore _ (hsame.trans hid) hvalue) (lt_irrefl _)
    · rcases hupdated second secondRow hsecond with hbefore | ⟨rfl, -⟩
      · obtain rfl := some.inj (hvalue.symm.trans hannounced)
        exact absurd (hearlier second secondRow hbefore _ (hsame.symm.trans hid) hsecondValue)
          (lt_irrefl _)
      · rfl

/-- What has been taken after a run whose steps meet the conditions. -/
theorem takenInvariant_run (hrun : Runs rules tasks store log) (hahead : store.Ahead)
    (hcondition : EveryStep (Orderly rules tasks store) log) :
    TakenInvariant (storeAfter store log) (tickStates rules log) := by
  induction log using List.reverseRecOn with
  | nil =>
    exact ⟨hahead, fun _ _ h ↦ absurd h not_mem_nil, fun _ _ _ h ↦ absurd h not_mem_nil⟩
  | append_singleton before entry ih =>
    have hbefore := ih hrun.of_append hcondition.of_append
    have horderly := hcondition.last
    rw [storeAfter_concat, tickStates, Protocol.states_concat]
    by_cases htake : Takes entry.2
    · obtain ⟨databaseId, last, next, answer, hevent⟩ := htake
      have hcall : entry.2.call = .updateSchedule databaseId last next := congrArg Event.call hevent
      have hpermits := permits_step hrun
      rw [hcall] at hpermits
      obtain ⟨-, htime, row, hrow, hdue, rfl⟩ := hpermits
      have hfind := horderly.takenAsRead databaseId last _ hcall
      obtain ⟨rows, hrows, hmem⟩ := TickState.exists_rows hrow
      obtain ⟨announced, hannounced, hle⟩ :=
        (agreed_run hrun.of_append hcondition.of_append hrows htime hmem).mp hdue
      rw [hevent]
      exact hbefore.take (hfind.trans hrow) hrow hannounced hle (lt_getNextRunTime rules _ last)
    · exact hbefore.frame horderly.setAhead htake

theorem nextRunAt_of_reads (hrun : Runs rules tasks store log) {next : ℕ}
    (hrow : row ∈ (tickStates rules log thread).updated)
    (hreads : ReadsNextRun log thread row.databaseId next) : row.nextRunAt = some next := by
  obtain ⟨rows, other, hread, hother, hsame, hnext⟩ := hreads
  have hrows : (tickStates rules log thread).rows = some rows :=
    ((told_run hrun thread).rows rows).mpr (mem_projection_iff.mpr hread)
  have hnodup : (rows.map (·.databaseId)).Nodup := expects_run hrun _ hread
  obtain ⟨_, hfound, hmem⟩ :=
    TickState.exists_rows ((told_run hrun thread).consistent.updatedRead row hrow)
  cases hfound.symm.trans hrows
  rw [inj_on_of_nodup_map hnodup hmem hother hsame.symm, hnext]

/-- A tick starts a backup if and only if it is announced for its time or before, and no
announcement starts two. Assumes: every next run that is shown at first is behind the last run, and
every step meets the conditions. -/
theorem runsAsAnnounced (rules : CronRules) (tasks : ι → Task) (store : ScheduleStore)
    (log : Trail ι Answer) (hrun : Runs rules tasks store log) (hahead : store.Ahead)
    (hcondition : EveryStep (Orderly rules tasks store) log) :
    RunsAsAnnounced rules tasks store log where
  announced thread databaseId hstarts := by
    obtain ⟨row, hrow, rfl⟩ := exists_updated hrun hstarts
    exact announced_of_updated hrun hcondition hrow
  started thread databaseId hreturned hannounced :=
    started_of_announced hrun hcondition hreturned hannounced
  once thread databaseId := by
    rw [startsOf_eq hrun]
    exact nodup_iff_count_le_one.mp (told_run hrun thread).consistent.nodup databaseId
  distinct thread other databaseId next hstarts hreads hotherStarts hotherReads := by
    obtain ⟨row, hrow, rfl⟩ := exists_updated hrun hstarts
    obtain ⟨otherRow, hotherRow, hsame⟩ := exists_updated hrun hotherStarts
    refine (takenInvariant_run hrun hahead hcondition).distinct thread other row hrow otherRow hotherRow
      next hsame.symm (nextRunAt_of_reads hrun hrow hreads) ?_
    exact nextRunAt_of_reads hrun hotherRow (hsame ▸ hotherReads)

end

/-! ### A new schedule and one that has run -/

def dayMs : ℕ := 24 * 60 * 60 * 1000

def nextPeriod (length : ℕ) (instant : ℕ) : ℕ :=
  (instant / (length + 1) + 1) * (length + 1)

theorem lt_nextPeriod (length instant : ℕ) : instant < nextPeriod length instant := by
  have hdivision := Nat.div_add_mod instant (length + 1)
  have hremainder : instant % (length + 1) < length + 1 := Nat.mod_lt _ (Nat.succ_pos length)
  unfold nextPeriod
  rw [Nat.add_mul, Nat.one_mul, Nat.mul_comm]
  omega

def firstMonth : LocalCalendar where
  month _ := 1
  date instant := instant / dayMs + 1
  day instant := (instant / dayMs + 4) % 7
  hours instant := instant / (60 * 60 * 1000) % 24
  minutes instant := instant / (60 * 1000) % 60
  nextMonth := nextPeriod (31 * dayMs - 1)
  nextDay := nextPeriod (dayMs - 1)
  nextHour := nextPeriod (60 * 60 * 1000 - 1)
  nextMinute := nextPeriod (60 * 1000 - 1)
  addDay instant := instant + dayMs
  lt_nextMonth := lt_nextPeriod _
  lt_nextDay := lt_nextPeriod _
  lt_nextHour := lt_nextPeriod _
  lt_nextMinute := lt_nextPeriod _
  lt_addDay instant := Nat.lt_add_of_pos_right (by decide)

/-- The rules for an expression that has fewer than five fields. -/
def dailyRules : CronRules :=
  ⟨firstMonth, fun _ ↦ none⟩

def dailyRow (lastRunAt : Option ℕ) (nextRunAt : ℕ) : ScheduleRow :=
  ⟨"db", "@daily", 7, true, lastRunAt, some nextRunAt⟩

def createdBackup : Backup.DatabaseBackup :=
  { id := "backup", createdAt := 0, size := 0, databaseId := "db", type := .scheduled,
    status := .pending, isPinned := false }

def tickCalls (row : ScheduleRow) (time : ℕ) : List (Event Answer) :=
  [⟨.now, .ok time⟩, ⟨.findEnabledSchedules, .ok [row]⟩,
    ⟨.updateSchedule "db" time (time + dayMs), .ok ()⟩, ⟨.findDatabase "db", .ok true⟩,
    ⟨.insertBackup "db" .scheduled none, .ok createdBackup⟩]

theorem traces_tickCalls {lastRunAt : Option ℕ} {nextRunAt : ℕ}
    (hdue : isScheduleDue dailyRules "@daily" lastRunAt time) :
    Traces (checkDueBackups dailyRules) (tickCalls (dailyRow lastRunAt nextRunAt) time) none := by
  have hrun : Traces (runSchedules dailyRules time [dailyRow lastRunAt nextRunAt])
      [⟨.updateSchedule "db" time (time + dayMs), .ok ()⟩, ⟨.findDatabase "db", .ok true⟩,
        ⟨.insertBackup "db" .scheduled none, .ok createdBackup⟩] none := by
    have hdueRow : isScheduleDue dailyRules (dailyRow lastRunAt nextRunAt).cronExpression
        (dailyRow lastRunAt nextRunAt).lastRunAt time = true := hdue
    unfold runSchedules runSchedule when
    rw [if_pos hdueRow]
    exact .call _ (.call _ (.call _ (.start _)))
  exact .call _ (.call _ hrun)

/-- A schedule is set, and a tick runs a minute later. -/
def newScheduleTasks : Bool → Task
  | false => .setSchedule "db" "@daily" 7 true
  | true => .tick

/-- The schedule is set at the beginning of the first day, and the tick starts a backup. -/
def newScheduleLog : Trail Bool Answer :=
  [(false, ⟨.now, .ok (0 : ℕ)⟩),
    (false, ⟨.upsertSchedule "db" ⟨"@daily", 7, true, some dayMs⟩, .ok ()⟩)] ++
    (tickCalls (dailyRow none dayMs) 60000).map (true, ·)

def noSchedules : ScheduleStore :=
  ⟨.empty, .empty⟩

theorem runs_newScheduleLog : Runs dailyRules newScheduleTasks noSchedules newScheduleLog where
  traces thread := by
    cases thread with
    | false => exact .call _ (.call _ (.start _))
    | true => exact traces_tickCalls rfl
  consistent := by
    refine ⟨trivial, trivial, trivial, .refl _, rfl, trivial, ⟨?_, rfl, rfl, rfl, rfl, rfl⟩,
      trivial⟩
    exact not_mem_nil

/-- The backup of a new schedule is started a day before it is announced. -/
theorem not_runsAsAnnounced_new :
    Runs dailyRules newScheduleTasks noSchedules newScheduleLog ∧ noSchedules.Ahead ∧
      ¬ RunsAsAnnounced dailyRules newScheduleTasks noSchedules newScheduleLog := by
  refine ⟨runs_newScheduleLog, fun _ _ _ h ↦ absurd h nofun, fun h ↦ ?_⟩
  obtain ⟨before, after, rows, time, row, hsplit, hnow, hfind, henabled, next, hnext, hle⟩ :=
    h.announced true "db" (by decide)
  obtain ⟨read, -, -, hfinal, hrows, hperm⟩ := read_at runs_newScheduleLog hsplit
  have htime : (tickStates dailyRules newScheduleLog true).time = some time := by
    refine ((told_run runs_newScheduleLog true).time time).mpr (mem_projection_iff.mpr ?_)
    rw [hsplit]
    exact mem_append_left _ hnow
  have hminute : (tickStates dailyRules newScheduleLog true).time = some 60000 := rfl
  have hread : (tickStates dailyRules newScheduleLog true).rows = some [dailyRow none dayMs] := rfl
  obtain rfl := some.inj (hminute.symm.trans htime)
  obtain rfl := some.inj (hread.symm.trans hrows)
  have hmem := hperm.mem_iff.mpr (mem_filter.mpr ⟨(Table.find?_eq_some_iff.mp hfind).1, henabled⟩)
  obtain rfl := mem_singleton.mp hmem
  obtain rfl := some.inj hnext
  exact absurd hle (by decide)

/-- A schedule that has run, with its next run a day later. -/
def settledStore : ScheduleStore :=
  ⟨⟨[dailyRow (some 0) dayMs], by decide⟩, .empty⟩

theorem runsAsAnnounced_settled : RunsAsAnnounced dailyRules (fun _ : Unit ↦ .tick) settledStore
    ((tickCalls (dailyRow (some 0) dayMs) dayMs).map ((), ·)) := by
  have hdue : isScheduleDue dailyRules "@daily" (some 0) dayMs := decide_eq_true (Nat.le_refl dayMs)
  have hrun : Runs dailyRules (fun _ : Unit ↦ .tick) settledStore
      ((tickCalls (dailyRow (some 0) dayMs) dayMs).map ((), ·)) := by
    refine ⟨fun _ ↦ traces_tickCalls hdue, trivial, .refl _, rfl, trivial,
      ⟨?_, rfl, rfl, rfl, rfl, rfl⟩, trivial⟩
    exact not_mem_nil
  have hahead : settledStore.Ahead := by
    intro databaseId last next hlast hnext
    rw [ScheduleStore.lastRun, bind_eq_some_iff] at hlast
    rw [ScheduleStore.nextRun, bind_eq_some_iff] at hnext
    obtain ⟨row, hrow, hlast⟩ := hlast
    obtain ⟨other, hother, hnext⟩ := hnext
    obtain rfl := some.inj (hrow.symm.trans hother)
    obtain rfl := mem_singleton.mp (Table.find?_eq_some_iff.mp hrow).1
    obtain rfl := some.inj hlast
    obtain rfl := some.inj hnext
    decide
  refine runsAsAnnounced dailyRules _ settledStore _ hrun hahead
    (everyStep_of_stepsAfter ⟨?_, ?_, ?_, ?_, ?_, trivial⟩)
  · exact ⟨nofun, nofun, nofun, fun h ↦ h.2⟩
  · refine ⟨fun rows time hevent htime row hrow ↦ .inl ?_, nofun, nofun, fun h ↦ h.2⟩
    obtain ⟨-, hanswer⟩ := Event.mk.inj hevent
    obtain rfl := Except.ok.inj (eq_of_heq hanswer)
    obtain rfl := mem_singleton.mp hrow
    exact ⟨0, rfl, rfl⟩
  · refine ⟨nofun, nofun, fun databaseId last next hcall ↦ ?_, fun h ↦ h.2⟩
    obtain ⟨rfl, -, -⟩ := Call.updateSchedule.inj hcall
    rfl
  · exact ⟨nofun, nofun, nofun, fun h ↦ nomatch h.2⟩
  · exact ⟨nofun, nofun, nofun, fun h ↦ h.2⟩

end Bridgeport.Schedules
