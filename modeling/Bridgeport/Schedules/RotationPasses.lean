import Bridgeport.Backup.TerminalStatus
import Bridgeport.Schedules.AnnouncedRuns

/-!
# Rotation passes behind backups

A tick rotates a database behind the creation of a scheduled backup; an execution that completes a
backup rotates nothing, and neither does a manual backup. A backup of a database starts only when a
pass that began behind the completion of every completed one has considered them
(`rotationFollows`), as long as

* a backup completes only while a tick that has started one of the database has not begun its pass
  (`completesFirst`),
* no backup of the database is started while a tick, in its turn for the database, is between the
  start of a backup and the last reading of its pass (`startsBehind`), and
* no query of a pass fails (`PassFails`).
-/

namespace Bridgeport.Schedules

open Foundation Program Backup List

/-! ### The turn of a tick for a database -/

/-- Where a tick is between the start of a backup of a database and the end of the pass behind
it. -/
inductive Phase
  | idle
  | started
  | passing
  deriving DecidableEq

/-- The database of the turn of a tick, and its phase for the database in question. -/
structure TurnState where
  turn : Option String
  phase : Phase

/-- The state before the first call. -/
def TurnState.start : TurnState :=
  ⟨none, .idle⟩

variable (databaseId : String) (event : Event Answer)

/-- A query of a rotation pass of the database fails. -/
def PassFails : Prop :=
  match event with
  | ⟨.resolveRetentionPolicy id, .error _⟩ => id = databaseId
  | ⟨.getTimezone, .error _⟩ => True
  | ⟨.findCandidates id, .error _⟩ => id = databaseId
  | ⟨.findExempt id, .error _⟩ => id = databaseId
  | _ => False

/-- The policy of the database is not one that no one has confirmed: such a policy is not
applied. -/
def Enabled : Prop :=
  match event with
  | ⟨.resolveRetentionPolicy id, .ok policy⟩ => id = databaseId → policy.autoApplied = false
  | _ => True

/-- A tick starts a scheduled backup in the turn for its database, and goes on only when the pass
behind the backup has read what there is to consider. -/
def turnProtocol : Protocol Answer TurnState where
  permits state request :=
    match request with
    | .updateSchedule _ _ _ => state.phase = .idle
    | .insertBackup id type _ => state.phase = .idle ∧ (type = .scheduled → state.turn = some id)
    | .resolveRetentionPolicy id => id = databaseId → state.phase = .started
    | .findExempt id => id = databaseId → state.phase = .passing
    | _ => True
  advance state event :=
    match event with
    | ⟨.updateSchedule id _ _, _⟩ => { state with turn := some id }
    | ⟨.insertBackup id .scheduled _, .ok _⟩ =>
      if id = databaseId then { state with phase := .started } else state
    | ⟨.resolveRetentionPolicy id, .ok _⟩ =>
      if id = databaseId then { state with phase := .passing } else state
    | ⟨.findExempt id, .ok _⟩ => if id = databaseId then { state with phase := .idle } else state
    | _ => state
  expects event := ¬ PassFails databaseId event ∧ Enabled databaseId event

variable (request : Call)

/-- A call that is no part of a turn for the database. -/
def Aside : Prop :=
  match request with
  | .updateSchedule _ _ _ => False
  | .insertBackup _ _ _ => False
  | .resolveRetentionPolicy id => id ≠ databaseId
  | .findExempt id => id ≠ databaseId
  | _ => True

variable {id : String} (rules : CronRules)

section

variable {databaseId : String} {state : TurnState}

theorem neutral_of_aside {request : Call} (h : Aside databaseId request) :
    (turnProtocol databaseId).Neutral state request := by
  intro log
  cases request with
  | updateSchedule _ _ _ | insertBackup _ _ _ => exact h.elim
  | resolveRetentionPolicy id =>
    refine ⟨fun hid ↦ absurd hid h, fun answer ↦ ?_⟩
    cases answer with
    | ok policy => exact if_neg h
    | error message => rfl
  | findExempt id =>
    refine ⟨fun hid ↦ absurd hid h, fun answer ↦ ?_⟩
    cases answer with
    | ok exempt => exact if_neg h
    | error message => rfl
  | _ => exact ⟨trivial, fun _ ↦ rfl⟩

theorem avoids_aside (h : Aside databaseId request) :
    (await request).Avoids fun request ↦ ¬ (turnProtocol databaseId).Neutral state request :=
  avoids_perform (not_not.mpr (neutral_of_aside h))

theorem avoids_prune (candidates : List RotationCandidate) :
    (pruneBackups candidates).Avoids fun request ↦
      ¬ (turnProtocol databaseId).Neutral state request := by
  induction candidates with
  | nil => exact avoids_pure _
  | cons candidate rest ih =>
    refine (avoids_aside (.pruneBackup candidate.id) trivial).bind fun _ ↦ ?_
    exact ih.bind fun _ ↦ avoids_pure _

/-- The pruning behind the readings of a pass. -/
theorem avoids_pruning (id : String) (prunedIds : List String) (notified : Prop)
    [Decidable notified] :
    (do
      when (prunedIds ≠ []) (await (.logAudit id prunedIds))
      when notified (await (.notifyRotationError id)) : Async Unit).Avoids fun request ↦
        ¬ (turnProtocol databaseId).Neutral state request := by
  refine Avoids.bind (Avoids.when (avoids_aside (.logAudit id prunedIds) trivial)) fun _ ↦ ?_
  exact Avoids.when (avoids_aside (.notifyRotationError id) trivial)

theorem avoids_rotateOther (hid : id ≠ databaseId) (trigger : RotationTrigger) :
    (rotateDatabase id trigger).Avoids fun request ↦
      ¬ (turnProtocol databaseId).Neutral state request := by
  refine (avoids_aside (.resolveRetentionPolicy id) hid).bind fun policy ↦ ?_
  refine (avoids_aside .getTimezone trivial).bind fun tz ↦ ?_
  refine (avoids_aside (.findCandidates id) trivial).bind fun candidates ↦ ?_
  refine Avoids.ite (avoids_pure _) ?_
  refine (avoids_aside (.findExempt id) hid).bind fun exempt ↦ ?_
  exact (avoids_prune _).bind fun prunedIds ↦ avoids_pruning _ _ _

/-- The pass behind the start of a backup of the database is not left before its last reading. -/
theorem follows_rotateDatabase_started (hstarted : state.phase = .started)
    (trigger : RotationTrigger) :
    (rotateDatabase databaseId trigger).Follows (turnProtocol databaseId)
      (fun _ after ↦ after.phase = .idle) state := by
  have hpolicy : ∀ policy, (turnProtocol databaseId).advance state
      ⟨.resolveRetentionPolicy databaseId, .ok policy⟩ = { state with phase := .passing } :=
    fun policy ↦ if_pos rfl
  refine ⟨fun _ ↦ hstarted, fun policy hpolicyExpected ↦ ?_⟩
  cases policy with
  | error message => exact absurd rfl hpolicyExpected.1
  | ok policy =>
    rw [hpolicy]
    refine ⟨trivial, fun tz htz ↦ ?_⟩
    cases tz with
    | error message => exact absurd trivial htz.1
    | ok tz =>
      refine ⟨trivial, fun candidates hcandidates ↦ ?_⟩
      cases candidates with
      | error message => exact absurd rfl hcandidates.1
      | ok candidates =>
        refine Follows.ite (fun hskipped ↦ ?_) fun _ ↦ ?_
        · exact absurd hskipped.2 (Bool.eq_false_iff.mp (hpolicyExpected.2 rfl))
        · refine ⟨fun _ ↦ rfl, fun exempt hexempt ↦ ?_⟩
          cases exempt with
          | error message => exact absurd rfl hexempt.1
          | ok exempt =>
            refine follows_of_avoids ((avoids_prune _).bind fun prunedIds ↦ avoids_pruning _ _ _)
              fun _ ↦ ?_
            exact congrArg TurnState.phase (if_pos rfl)

theorem follows_rotateOther (hid : id ≠ databaseId) (hidle : state.phase = .idle)
    (trigger : RotationTrigger) :
    (rotateDatabase id trigger).Follows (turnProtocol databaseId)
      (fun _ after ↦ after.phase = .idle) state :=
  follows_of_avoids (avoids_rotateOther hid trigger) fun _ ↦ hidle

theorem follows_turn (hidle : state.phase = .idle) (hturn : state.turn = some id) :
    (createBackup id none .scheduled >>= fun _ ↦ rotateDatabase id .postBackup).Follows
      (turnProtocol databaseId) (fun _ after ↦ after.phase = .idle) state := by
  refine follows_bind (follows_perform_bind trivial (fun found _ ↦ ?_) fun message ↦ hidle)
  cases found with
  | false => exact hidle
  | true =>
    refine follows_perform_bind ⟨hidle, fun _ ↦ hturn⟩ (fun row _ ↦ ?_) fun message ↦ hidle
    refine ⟨trivial, fun answer _ ↦ ?_⟩
    by_cases hid : id = databaseId
    · subst hid
      exact follows_rotateDatabase_started (congrArg TurnState.phase (if_pos rfl)) _
    · exact follows_rotateOther hid ((congrArg TurnState.phase (if_neg hid)).trans hidle) _

theorem follows_turns (now : ℕ) (schedules : List ScheduleRow) (hidle : state.phase = .idle) :
    (runSchedules rules now schedules).Follows (turnProtocol databaseId)
      (fun _ after ↦ after.phase = .idle) state := by
  induction schedules generalizing state with
  | nil => exact hidle
  | cons schedule rest ih =>
    have hturn : (runSchedule rules now schedule).Follows (turnProtocol databaseId)
        (fun result after ↦ result = .ok () ∧ after.phase = .idle) state := by
      have hdue : (when (isScheduleDue rules schedule.cronExpression schedule.lastRunAt now)
          (runDue rules now schedule)).Follows (turnProtocol databaseId)
            (fun _ after ↦ after.phase = .idle) state := by
        refine Follows.ite (fun _ ↦ ?_) fun _ ↦ hidle
        refine follows_perform_bind hidle (fun _ _ ↦ ?_) fun message ↦ hidle
        exact follows_turn hidle rfl
      refine follows_tryCatch (hdue.mono fun result after h ↦ ?_)
      cases result with
      | ok _ | error _ => exact ⟨rfl, h⟩
    refine follows_bind (hturn.mono fun result after h ↦ ?_)
    obtain ⟨rfl, hafter⟩ := h
    exact ih hafter

theorem follows_task (task : Task) :
    (task.program rules).Follows (turnProtocol databaseId) (fun _ after ↦ after.phase = .idle)
      .start := by
  cases task with
  | tick =>
    refine follows_perform_bind trivial (fun now _ ↦ ?_) fun message ↦ rfl
    refine follows_perform_bind trivial (fun schedules _ ↦ ?_) fun message ↦ rfl
    exact follows_turns rules now schedules rfl
  | setSchedule id cronExpression retentionDays enabled =>
    refine follows_of_avoids
      (Avoids.ite ?_ (avoids_aside (.upsertSchedule _ _) trivial)) fun _ ↦ rfl
    exact (avoids_aside .now trivial).bind fun _ ↦ avoids_aside (.upsertSchedule _ _) trivial
  | manualBackup id triggeredById =>
    refine follows_bind (follows_perform_bind trivial (fun found _ ↦ ?_) fun message ↦ rfl)
    cases found with
    | false => exact rfl
    | true =>
      refine follows_perform_bind ⟨rfl, nofun⟩ (fun row _ ↦ ?_) fun message ↦ rfl
      exact ⟨trivial, fun _ _ ↦ rfl⟩
  | execute tmpdir backupId =>
    exact follows_of_avoids (avoids_lift fun request ↦ not_not.mpr (neutral_of_aside trivial))
      fun _ ↦ rfl

variable {event : Event Answer}

theorem phase_advance (hpermits : (turnProtocol databaseId).permits state event.call)
    (hphase : state.phase ≠ .idle) :
    ((turnProtocol databaseId).advance state event).phase = state.phase ∨
      (∃ policy, event = ⟨.resolveRetentionPolicy databaseId, .ok policy⟩ ∧
        ((turnProtocol databaseId).advance state event).phase = .passing) ∨
      ∃ exempt, event = ⟨.findExempt databaseId, .ok exempt⟩ ∧ state.phase = .passing := by
  obtain ⟨request, answer⟩ := event
  cases request with
  | insertBackup id type triggeredById => exact absurd hpermits.1 hphase
  | resolveRetentionPolicy id =>
    cases answer with
    | error message => exact .inl rfl
    | ok policy =>
      by_cases hid : id = databaseId
      · subst hid
        exact .inr (.inl ⟨policy, rfl, congrArg TurnState.phase (if_pos rfl)⟩)
      · exact .inl (congrArg TurnState.phase (if_neg hid))
  | findExempt id =>
    cases answer with
    | error message => exact .inl rfl
    | ok exempt =>
      by_cases hid : id = databaseId
      · subst hid
        exact .inr (.inr ⟨exempt, rfl, hpermits rfl⟩)
      · exact .inl (congrArg TurnState.phase (if_neg hid))
  | _ => exact .inl rfl

theorem turn_advance (hpermits : (turnProtocol databaseId).permits state event.call)
    (hturn : state.phase ≠ .idle → state.turn = some databaseId)
    (hphase : ((turnProtocol databaseId).advance state event).phase ≠ .idle) :
    ((turnProtocol databaseId).advance state event).turn = some databaseId := by
  obtain ⟨request, answer⟩ := event
  cases request with
  | updateSchedule id lastRunAt nextRunAt => exact absurd hpermits hphase
  | insertBackup id type triggeredById =>
    cases type with
    | manual => exact hturn hphase
    | scheduled =>
      cases answer with
      | error message => exact hturn hphase
      | ok row =>
        by_cases hid : id = databaseId
        · subst hid
          exact (congrArg TurnState.turn (if_pos rfl)).trans (hpermits.2 rfl)
        · have hsame : (turnProtocol databaseId).advance state
              ⟨.insertBackup id .scheduled triggeredById, .ok row⟩ = state := if_neg hid
          rw [hsame] at hphase ⊢
          exact hturn hphase
  | resolveRetentionPolicy id =>
    cases answer with
    | error message => exact hturn hphase
    | ok policy =>
      by_cases hid : id = databaseId
      · refine (congrArg TurnState.turn (if_pos hid)).trans (hturn ?_)
        rw [hpermits hid]
        exact nofun
      · have hsame : (turnProtocol databaseId).advance state
            ⟨.resolveRetentionPolicy id, .ok policy⟩ = state := if_neg hid
        rw [hsame] at hphase ⊢
        exact hturn hphase
  | findExempt id =>
    cases answer with
    | error message => exact hturn hphase
    | ok exempt =>
      by_cases hid : id = databaseId
      · exact absurd (congrArg TurnState.phase (if_pos hid)) hphase
      · have hsame : (turnProtocol databaseId).advance state ⟨.findExempt id, .ok exempt⟩ = state :=
          if_neg hid
        rw [hsame] at hphase ⊢
        exact hturn hphase
  | _ => exact hturn hphase

theorem turn_of_accepts {events : List (Event Answer)}
    (h : (turnProtocol databaseId).Accepts .start events)
    (hphase : ((turnProtocol databaseId).state .start events).phase ≠ .idle) :
    ((turnProtocol databaseId).state .start events).turn = some databaseId := by
  induction events using List.reverseRecOn with
  | nil => exact absurd rfl hphase
  | append_singleton before event ih =>
    rw [Protocol.accepts_append] at h
    rw [Protocol.state_append] at hphase ⊢
    exact turn_advance h.2.1 (fun hbefore ↦ ih h.1 hbefore) hphase

end

/-! ### What passes have considered -/

section

variable {ι : Type*} [DecidableEq ι]

def turnStates (databaseId : String) (log : Trail ι Answer) : ι → TurnState :=
  (turnProtocol databaseId).states (fun _ ↦ .start) log

def CompletesBackup (store : ScheduleStore) (databaseId backupId : String)
    (event : Event Answer) : Prop :=
  ∃ size answer row, event = ⟨.execution (.updateBackup backupId (.completed size)), .ok answer⟩ ∧
    store.backups.find? backupId = some row ∧ row.databaseId = databaseId

def StartsBackup : Prop :=
  ∃ type triggeredById row, event = ⟨.insertBackup databaseId type triggeredById, .ok row⟩

def passCalls (policy : EffectivePolicy) (exempt : List DatabaseBackup) : List (Event Answer) :=
  [⟨.resolveRetentionPolicy databaseId, .ok policy⟩, ⟨.findExempt databaseId, .ok exempt⟩]

/-- A rotation pass of the database starts in the log and reads what there is to consider. -/
def Passes (databaseId : String) (log : Trail ι Answer) : Prop :=
  ∃ thread policy exempt, (passCalls databaseId policy exempt).Sublist (projection thread log)

/-- A pass that started behind the completion of the backup has considered it. A backup that was
complete before the log counts as considered. -/
def Considered (store : ScheduleStore) (databaseId backupId : String)
    (log : Trail ι Answer) : Prop :=
  ∀ before entry after, log = before ++ entry :: after →
    CompletesBackup (storeAfter store before) databaseId backupId entry.2 → Passes databaseId after

/-- No backup of the database is started while there is a completed one that no pass has
considered. -/
def RotationFollows (store : ScheduleStore) (databaseId : String) (log : Trail ι Answer) : Prop :=
  ∀ before entry after, log = before ++ entry :: after → StartsBackup databaseId entry.2 →
    ∀ row ∈ (storeAfter store before).backups.rows, row.databaseId = databaseId →
      row.status = .completed → Considered store databaseId row.id before

/-- The conditions on a step of a run. -/
structure RotatesInTurn (rules : CronRules) (tasks : ι → Task) (store : ScheduleStore)
    (databaseId : String) (before : Trail ι Answer) (entry : ι × Event Answer) :
    Prop where
  completesFirst : ∀ backupId,
    CompletesBackup (storeAfter store before) databaseId backupId entry.2 →
      ∃ thread, (turnStates databaseId before thread).phase = .started
  startsBehind : StartsBackup databaseId entry.2 → ∀ thread ≠ entry.1,
    (turnStates databaseId before thread).turn = some databaseId →
      Returned rules tasks before thread ∨ (turnStates databaseId before thread).phase = .idle
  succeeds : ¬ PassFails databaseId entry.2

/-- A pass that will consider what was complete before the log is to come, or has started. -/
def Pending (databaseId : String) (log : Trail ι Answer) (thread : ι) (state : TurnState) : Prop :=
  state.phase = .started ∨ state.phase = .passing ∧
    ∃ policy, (⟨.resolveRetentionPolicy databaseId, .ok policy⟩ : Event Answer) ∈
      projection thread log

variable {rules : CronRules} {tasks : ι → Task} {store : ScheduleStore} {databaseId : String}
  {before after log : Trail ι Answer} {entry : ι × Event Answer}

theorem Passes.append (h : Passes databaseId log) (after : Trail ι Answer) :
    Passes databaseId (log ++ after) := by
  obtain ⟨thread, policy, exempt, hsublist⟩ := h
  refine ⟨thread, policy, exempt, ?_⟩
  rw [projection_append]
  exact hsublist.trans (sublist_append_left _ _)

/-- A pass that will consider a backup goes on, or has considered it. -/
theorem Pending.concat {states : ι → TurnState} {thread : ι}
    (h : Pending databaseId after thread (states thread))
    (hpermits : (turnProtocol databaseId).permits (states entry.1) entry.2.call) :
    Passes databaseId (after ++ [entry]) ∨ Pending databaseId (after ++ [entry]) thread
      (Function.update states entry.1
        ((turnProtocol databaseId).advance (states entry.1) entry.2) thread) := by
  have hkept : ∀ policy, (⟨.resolveRetentionPolicy databaseId, .ok policy⟩ : Event Answer) ∈
      projection thread after → (⟨.resolveRetentionPolicy databaseId, .ok policy⟩ :
        Event Answer) ∈ projection thread (after ++ [entry]) := by
    intro policy hpolicy
    rw [projection_append]
    exact mem_append_left _ hpolicy
  by_cases hthread : thread = entry.1
  · subst hthread
    rw [Function.update_self]
    have hphase : (states entry.1).phase ≠ .idle := by
      rcases h with h | ⟨h, -⟩
      · simp [h]
      · simp [h]
    rcases phase_advance hpermits hphase with hsame | ⟨policy, hevent, hpassing⟩ |
      ⟨exempt, hevent, hpassing⟩
    · refine .inr ?_
      unfold Pending
      rw [hsame]
      exact h.imp id fun ⟨hpassing, policy, hpolicy⟩ ↦ ⟨hpassing, policy, hkept policy hpolicy⟩
    · refine .inr (.inr ⟨hpassing, policy, ?_⟩)
      rw [projection_concat_self, hevent]
      exact mem_append_right _ (mem_singleton_self _)
    · rcases h with h | ⟨-, policy, hpolicy⟩
      · nomatch h.symm.trans hpassing
      · refine .inl ⟨entry.1, policy, exempt, ?_⟩
        rw [projection_concat_self, hevent]
        exact (singleton_sublist.mpr hpolicy).append (List.Sublist.refl _)
  · rw [Function.update_of_ne hthread]
    exact .inr (h.imp id fun ⟨hpassing, policy, hpolicy⟩ ↦
      ⟨hpassing, policy, hkept policy hpolicy⟩)

theorem expects_passes (henabled : ∀ entry ∈ log, Enabled databaseId entry.2)
    (hcondition : EveryStep (RotatesInTurn rules tasks store databaseId) log) :
    ∀ entry ∈ log, (turnProtocol databaseId).expects entry.2 := by
  intro entry hentry
  obtain ⟨before, after, hsplit⟩ := append_of_mem hentry
  exact ⟨(hcondition before entry after hsplit).succeeds, henabled entry hentry⟩

/-- Behind the completion of a backup there is a pass, or one that will consider it. -/
theorem passes_or_pending (hrun : Runs rules tasks store log)
    (henabled : ∀ entry ∈ log, Enabled databaseId entry.2)
    (hcondition : EveryStep (RotatesInTurn rules tasks store databaseId) log) {backupId : String}
    (hsplit : log = before ++ entry :: after)
    (hcompletes : CompletesBackup (storeAfter store before) databaseId backupId entry.2) :
    Passes databaseId after ∨
      ∃ thread, Pending databaseId after thread (turnStates databaseId log thread) := by
  induction after using List.reverseRecOn generalizing log with
  | nil =>
    subst hsplit
    obtain ⟨thread, hstarted⟩ := hcondition.last.completesFirst backupId hcompletes
    obtain ⟨size, answer, row, hevent, -, -⟩ := hcompletes
    refine .inr ⟨thread, .inl ?_⟩
    rw [turnStates, Protocol.states_concat, hevent]
    exact (congrFun (Function.update_eq_self entry.1
      (turnStates databaseId before)) thread).symm ▸ hstarted
  | append_singleton after last ih =>
    rw [← cons_append, ← append_assoc] at hsplit
    subst hsplit
    have hpermits := Concurrent.permits_last (fun thread ↦ follows_task rules (tasks thread)) hrun
      (expects_passes henabled hcondition)
    rcases ih hrun.of_append (fun entry hentry ↦ henabled entry (mem_append_left _ hentry))
      hcondition.of_append rfl with hpasses | ⟨thread, hpending⟩
    · exact .inl (hpasses.append [last])
    · rw [turnStates, Protocol.states_concat]
      exact (hpending.concat hpermits).imp id fun h ↦ ⟨thread, h⟩

/-- A task between the start of a backup and the end of its pass is in its turn for the database. -/
theorem turn_run (hrun : Runs rules tasks store log)
    (hexpects : ∀ entry ∈ log, (turnProtocol databaseId).expects entry.2) {thread : ι}
    (hphase : (turnStates databaseId log thread).phase ≠ .idle) :
    (turnStates databaseId log thread).turn = some databaseId := by
  refine turn_of_accepts
    ((follows_task rules (tasks thread)).sound (hrun.traces thread) ?_).1 hphase
  intro event hevent
  exact hexpects (thread, event) (mem_projection_iff.mp hevent)

theorem idle_of_starts (hrun : Runs rules tasks store (before ++ [entry]))
    (hexpects : ∀ other ∈ before ++ [entry], (turnProtocol databaseId).expects other.2)
    (hstarts : StartsBackup databaseId entry.2)
    (hbehind : ∀ thread ≠ entry.1, (turnStates databaseId before thread).turn = some databaseId →
      Returned rules tasks before thread ∨ (turnStates databaseId before thread).phase = .idle)
    (thread : ι) : (turnStates databaseId before thread).phase = .idle := by
  have hfollows : ∀ thread, ((tasks thread).program rules).Follows (turnProtocol databaseId)
      (fun _ after ↦ after.phase = .idle) .start := fun thread ↦ follows_task rules (tasks thread)
  by_contra hphase
  by_cases hthread : thread = entry.1
  · have hpermits := Concurrent.permits_last hfollows hrun hexpects
    obtain ⟨type, triggeredById, row, hevent⟩ := hstarts
    rw [congrArg Event.call hevent] at hpermits
    exact hphase (hthread ▸ hpermits.1)
  · have hbefore : ∀ other ∈ before, (turnProtocol databaseId).expects other.2 :=
      fun other hother ↦ hexpects other (mem_append_left _ hother)
    rcases hbehind thread hthread (turn_run hrun.of_append hbefore hphase) with
      ⟨result, htraces⟩ | hidle
    · exact hphase (Concurrent.ends hfollows hbefore htraces)
    · exact hphase hidle

/-- Rotation follows every backup that succeeds. Assumes: the policies of the database are applied,
and every step meets the conditions. -/
theorem rotationFollows (rules : CronRules) (tasks : ι → Task) (store : ScheduleStore)
    (databaseId : String) (log : Trail ι Answer) (hrun : Runs rules tasks store log)
    (henabled : ∀ entry ∈ log, Enabled databaseId entry.2)
    (hcondition : EveryStep (RotatesInTurn rules tasks store databaseId) log) :
    RotationFollows store databaseId log := by
  intro before entry after hsplit hstarts row hrow hdatabase hcompleted
  rw [append_cons] at hsplit
  subst hsplit
  have hprefix := hrun.of_append
  have henabledPrefix : ∀ other ∈ before ++ [entry], Enabled databaseId other.2 :=
    fun other hother ↦ henabled other (mem_append_left _ hother)
  have hconditionPrefix := hcondition.of_append
  have hidle := idle_of_starts hprefix (expects_passes henabledPrefix hconditionPrefix) hstarts
    (hconditionPrefix.last.startsBehind hstarts)
  intro earlier completion later hlater hcompletes
  rcases passes_or_pending hprefix.of_append
    (fun other hother ↦ henabledPrefix other (mem_append_left _ hother))
    hconditionPrefix.of_append hlater hcompletes with hpasses | ⟨thread, hstarted | ⟨hpassing, -⟩⟩
  · exact hpasses
  · nomatch (hidle thread).symm.trans hstarted
  · nomatch (hidle thread).symm.trans hpassing

end

/-! ### Two manual backups, and a backup that completes before its pass -/

def executed (event : Event Backup.Answer) : Event Answer :=
  ⟨.execution event.call, event.answer⟩

theorem traces_executed : Traces ((executeBackup "/tmp" "backup").lift Call.execution)
    ((executionCalls ++ [completion]).map executed) none := by
  iterate 9 apply Traces.call
  exact .start _

/-- The start of a backup, its execution, and the start of another one. -/
inductive Party
  | first
  | execution
  | second
  deriving DecidableEq

def manualCalls (id : String) : List (Event Answer) :=
  [⟨.findDatabase "db", .ok true⟩,
    ⟨.insertBackup "db" .manual (some "operator"), .ok { createdBackup with id, type := .manual }⟩]

theorem traces_manualCalls (id : String) :
    Traces (createBackup "db" (some "operator") .manual >>= fun _ ↦ pure ())
      (manualCalls id) none :=
  .call _ (.call _ (.start _))

def manualTasks : Party → Task
  | .first => .manualBackup "db" "operator"
  | .execution => .execute "/tmp" "backup"
  | .second => .manualBackup "db" "operator"

def manualStart : Trail Party Answer :=
  (manualCalls "backup").map (.first, ·) ++ executionCalls.map fun event ↦ (.execution, executed event)

/-- The second backup is started behind the completion of the first. -/
def manualLog : Trail Party Answer :=
  manualStart ++ (.execution, executed completion) :: (manualCalls "other").map (.second, ·)

theorem runs_manualLog : Runs dailyRules manualTasks noSchedules manualLog where
  traces party := by
    cases party with
    | first => exact traces_manualCalls "backup"
    | execution => exact traces_executed
    | second => exact traces_manualCalls "other"
  consistent := by
    refine ⟨trivial, ⟨not_mem_nil, rfl, rfl, rfl, rfl, rfl⟩, ⟨rfl, rfl⟩, trivial, ⟨rfl, rfl⟩,
      trivial, trivial, ⟨rfl, rfl⟩, trivial, trivial, ⟨rfl, rfl⟩, trivial,
      ⟨?_, rfl, rfl, rfl, rfl, rfl⟩, trivial⟩
    intro hmem
    exact absurd (mem_singleton.mp hmem) (by decide)

/-- No pass considers the first backup before the second is started. -/
theorem not_rotationFollows_manual :
    Runs dailyRules manualTasks noSchedules manualLog ∧
      (∀ entry ∈ manualLog, Enabled "db" entry.2) ∧ ¬ RotationFollows noSchedules "db" manualLog := by
  refine ⟨runs_manualLog, by simp [manualLog, manualStart, manualCalls, executionCalls, executed,
    completion, Enabled], fun h ↦ ?_⟩
  have hconsidered := h
    (manualStart ++ [(.execution, executed completion), (.second, ⟨.findDatabase "db", .ok true⟩)])
    (.second, ⟨.insertBackup "db" .manual (some "operator"),
      .ok { createdBackup with id := "other", type := .manual }⟩) [] rfl ⟨_, _, _, rfl⟩
    _ (mem_singleton_self _) rfl rfl
  obtain ⟨thread, policy, exempt, hsublist⟩ := hconsidered manualStart
    (.execution, executed completion) [(.second, ⟨.findDatabase "db", .ok true⟩)] rfl
    ⟨_, _, _, rfl, rfl, rfl⟩
  have hlength : 2 ≤ (projection thread
      [(Party.second, (⟨.findDatabase "db", .ok true⟩ : Event Answer))]).length := hsublist.length_le
  cases thread with
  | first | execution | second => exact absurd hlength (by decide)

def keepsLast : EffectivePolicy :=
  { keepLast := 1, daily := 0, weekly := 0, monthly := 0, yearly := 0, minFloor := 1,
    maxTotalBytes := none, preset := .custom, source := .override, autoApplied := false }

def turnTasks : Party → Task
  | .first => .tick
  | .execution => .execute "/tmp" "backup"
  | .second => .manualBackup "db" "operator"

/-- The row of the scheduled backup after its completion. -/
def completedBackup : DatabaseBackup :=
  { createdBackup with status := .completed, size := parseSize "4096" }

def turnStart : Trail Party Answer :=
  (tickCalls (dailyRow (some 0) dayMs) dayMs).map (.first, ·)

def turnLog : Trail Party Answer :=
  turnStart ++ (executionCalls ++ [completion]).map (fun event ↦ (.execution, executed event)) ++
    [(.first, ⟨.startExecution "backup", .ok ()⟩),
      (.first, ⟨.resolveRetentionPolicy "db", .ok keepsLast⟩),
      (.first, ⟨.getTimezone, .ok fun _ ↦ ⟨1970, 1, 1⟩⟩),
      (.first, ⟨.findCandidates "db", .ok (candidatesOf [completedBackup] "db")⟩),
      (.first, ⟨.findExempt "db", .ok []⟩)] ++ (manualCalls "other").map (.second, ·)

theorem traces_turn : Traces (checkDueBackups dailyRules) (projection .first turnLog) none := by
  have hdue : isScheduleDue dailyRules (dailyRow (some 0) dayMs).cronExpression
      (dailyRow (some 0) dayMs).lastRunAt dayMs = true := decide_eq_true (Nat.le_refl dayMs)
  have hrun : Traces (runSchedules dailyRules dayMs [dailyRow (some 0) dayMs])
      ((projection .first turnLog).drop 2) none := by
    unfold runSchedules runSchedule when
    rw [if_pos hdue]
    iterate 8 apply Traces.call
    exact .start _
  exact .call _ (.call _ hrun)

/-- A schedule that is due, and a backup that completes before its pass. -/
theorem runs_turnLog : Runs dailyRules turnTasks settledStore turnLog where
  traces party := by
    cases party with
    | first => exact traces_turn
    | execution => exact traces_executed
    | second => exact traces_manualCalls "other"
  consistent := by
    refine ⟨trivial, .refl _, rfl, trivial, ⟨not_mem_nil, rfl, rfl, rfl, rfl, rfl⟩, ⟨rfl, rfl⟩,
      trivial, ⟨rfl, rfl⟩, trivial, trivial, ⟨rfl, rfl⟩, trivial, trivial, ⟨rfl, rfl⟩, trivial,
      trivial, trivial, rfl, rfl, trivial, ⟨?_, rfl, rfl, rfl, rfl, rfl⟩, trivial⟩
    intro hmem
    exact absurd (mem_singleton.mp hmem) (by decide)

/-- A call that starts and completes no backup. -/
def Ordinary : Prop :=
  match request with
  | .execution (.updateBackup _ (.completed _)) => False
  | .insertBackup _ _ _ => False
  | _ => True

section

variable {rules : CronRules} {tasks : Party → Task} {store : ScheduleStore} {databaseId : String}
  {before : Trail Party Answer} {entry : Party × Event Answer}

theorem rotatesInTurn_of_ordinary (hcall : Ordinary entry.2.call)
    (hsucceeds : ¬ PassFails databaseId entry.2) :
    RotatesInTurn rules tasks store databaseId before entry := by
  refine ⟨fun id h ↦ ?_, fun h ↦ ?_, hsucceeds⟩
  · obtain ⟨size, answer, row, hevent, -, -⟩ := h
    rw [congrArg Event.call hevent] at hcall
    exact hcall.elim
  · obtain ⟨type, triggeredById, row, hevent⟩ := h
    rw [congrArg Event.call hevent] at hcall
    exact hcall.elim

theorem rotatesInTurn_of_idle {type : BackupType} {triggeredById : Option String}
    (hcall : entry.2.call = .insertBackup id type triggeredById)
    (hsucceeds : ¬ PassFails databaseId entry.2)
    (hidle : ∀ thread, (turnStates databaseId before thread).phase = .idle) :
    RotatesInTurn rules tasks store databaseId before entry := by
  refine ⟨fun id h ↦ ?_, fun _ thread _ _ ↦ .inr (hidle thread), hsucceeds⟩
  obtain ⟨size, answer, row, hevent, -, -⟩ := h
  nomatch (congrArg Event.call hevent).symm.trans hcall

end

/-- The manual backup is started when the pass has considered the scheduled one. -/
theorem rotationFollows_turn : RotationFollows settledStore "db" turnLog := by
  refine rotationFollows dailyRules turnTasks settledStore "db" turnLog runs_turnLog ?_
    (everyStep_of_stepsAfter ⟨?_, ?_, ?_, ?_, ?_, ?_, ?_, ?_, ?_, ?_, ?_, ?_, ?_, ?_, ?_, ?_, ?_, ?_,
      ?_, ?_, ?_, trivial⟩)
  · simp [turnLog, turnStart, tickCalls, manualCalls, executionCalls, executed, completion, Enabled,
      keepsLast]
  all_goals try exact rotatesInTurn_of_ordinary trivial not_false
  · refine rotatesInTurn_of_idle rfl not_false fun thread ↦ ?_
    cases thread with
    | first | execution | second => rfl
  · exact ⟨fun _ _ ↦ ⟨.first, rfl⟩, fun ⟨_, _, _, h⟩ ↦ absurd (congrArg Event.call h) nofun, not_false⟩
  · refine rotatesInTurn_of_idle rfl not_false fun thread ↦ ?_
    cases thread with
    | first | execution | second => rfl

end Bridgeport.Schedules
