import Bridgeport.Foundation.Threads
import Mathlib.Data.List.DropRight

/-!
# The settings cache and the row

Any number of calls run at once over the row and the variable that caches it. A call that has
written or read the row holds the settings until they are delivered, and then assigns them to the
variable, whatever has been assigned since. Points of a run are its beginnings, so that one is
before another if it is a prefix of it.
-/

namespace Bridgeport.Settings

/-! ### System settings -/

section

open Foundation Program

/-- The columns of the row, but for its id and the time of its last write. -/
inductive Setting
  | sshCommandTimeoutMs
  | sshReadyTimeoutMs
  | webhookMaxRetries
  | webhookTimeoutMs
  | webhookRetryDelaysMs
  | pgDumpTimeoutMs
  | maxUploadSizeMb
  | activeUserWindowMin
  | registryMaxTags
  | defaultLogLines
  | publicUrl
  | agentCallbackUrl
  | agentStaleThresholdMs
  | agentOfflineThresholdMs
  | auditLogRetentionDays
  | databaseMetricsRetentionDays
  | notificationRetentionDays
  | healthLogRetentionDays
  | webhookDeliveryRetentionDays
  | imageDigestRetentionDays
  | timezone
  | backupRetentionPreset
  | backupRetentionKeepLast
  | backupRetentionDaily
  | backupRetentionWeekly
  | backupRetentionMonthly
  | backupRetentionYearly
  | backupRetentionMinFloor
  | backupRetentionMaxTotalBytes
  | failedBackupRetentionDays
  | backupRotationConfirmThreshold

inductive SettingValue
  | int (value : ℤ)
  | text (value : String)
  | null
  deriving DecidableEq

abbrev SystemSettings := Setting → SettingValue

/-- The columns that a write sets. -/
abbrev SettingsData := Setting → Option SettingValue

def SystemSettings.write (settings : SystemSettings) (data : SettingsData) : SystemSettings :=
  fun setting ↦ (data setting).getD (settings setting)

/-- `SYSTEM_SETTINGS_DEFAULTS`. -/
def systemSettingsDefaults : SettingsData
  | .sshCommandTimeoutMs => some (.int 60000)
  | .sshReadyTimeoutMs => some (.int 10000)
  | .webhookMaxRetries => some (.int 3)
  | .webhookTimeoutMs => some (.int 30000)
  | .webhookRetryDelaysMs => some (.text "[1000,5000,15000]")
  | .pgDumpTimeoutMs => some (.int 300000)
  | .maxUploadSizeMb => some (.int 50)
  | .activeUserWindowMin => some (.int 15)
  | .registryMaxTags => some (.int 50)
  | .defaultLogLines => some (.int 50)
  | .publicUrl => none
  | .agentCallbackUrl => none
  | .agentStaleThresholdMs => some (.int 180000)
  | .agentOfflineThresholdMs => some (.int 300000)
  | .auditLogRetentionDays => some (.int 90)
  | .databaseMetricsRetentionDays => some (.int 30)
  | .notificationRetentionDays => some (.int 30)
  | .healthLogRetentionDays => some (.int 30)
  | .webhookDeliveryRetentionDays => some (.int 30)
  | .imageDigestRetentionDays => some (.int 90)
  | .timezone => some (.text "UTC")
  | .backupRetentionPreset => some (.text "balanced")
  | .backupRetentionKeepLast => some (.int 24)
  | .backupRetentionDaily => some (.int 7)
  | .backupRetentionWeekly => some (.int 4)
  | .backupRetentionMonthly => some (.int 6)
  | .backupRetentionYearly => some (.int 0)
  | .backupRetentionMinFloor => some (.int 2)
  | .backupRetentionMaxTotalBytes => some .null
  | .failedBackupRetentionDays => some (.int 3)
  | .backupRotationConfirmThreshold => some (.int 5)

/-- The row that a write creates: the defaults of the columns are the same, and null elsewhere. -/
def createdSettings : SystemSettings :=
  fun setting ↦ (systemSettingsDefaults setting).getD .null

def resetData : SettingsData
  | .publicUrl => some .null
  | .agentCallbackUrl => some .null
  | setting => systemSettingsDefaults setting

/-- The calls of the functions: on the variable, and on the row. `upsertSingleton` creates the row
if it is missing, and `upsertReset` writes what a reset writes if it is there. -/
inductive Call
  | readCache
  | assignCache (settings : SystemSettings)
  | clearCache
  | upsertSingleton
  | updateRow (data : SettingsData)
  | upsertReset

@[reducible]
def Answer : Call → Type
  | .readCache => Option SystemSettings
  | .assignCache _ => Unit
  | .clearCache => Unit
  | .upsertSingleton => SystemSettings
  | .updateRow _ => SystemSettings
  | .upsertReset => SystemSettings

/-- Asynchronous code over these calls. -/
abbrev Async := Program Answer

def await (request : Call) : Async (Answer request) :=
  perform request

def getSystemSettings : Async SystemSettings := do
  let cachedSettings ← await .readCache
  match cachedSettings with
  | some settings => return settings
  | none =>
    let settings ← await .upsertSingleton
    await (.assignCache settings)
    return settings

def updateSystemSettings (data : SettingsData) : Async SystemSettings := do
  let _ ← await .upsertSingleton
  let settings ← await (.updateRow data)
  await (.assignCache settings)
  return settings

def resetSystemSettings : Async SystemSettings := do
  let settings ← await .upsertReset
  await (.assignCache settings)
  return settings

def invalidateSettingsCache : Async Unit :=
  await .clearCache

end

open Foundation Program Option Function

/-- The row, if it has been created, and the variable. -/
structure World where
  (row cachedSettings : Option SystemSettings)

/-- The variable and the row under the calls. -/
def settingsSemantics : Semantics Answer World where
  allows world event :=
    match event with
    | ⟨.readCache, .ok cached⟩ => cached = world.cachedSettings
    | ⟨.upsertSingleton, .ok settings⟩ => settings = world.row.getD createdSettings
    | ⟨.updateRow data, .ok settings⟩ => world.row.map (·.write data) = some settings
    | ⟨.upsertReset, .ok settings⟩ =>
      settings = (world.row.map (·.write resetData)).getD createdSettings
    | ⟨.readCache, .error _⟩ | ⟨.assignCache _, .error _⟩ | ⟨.clearCache, .error _⟩ => False
    | _ => True
  after world event :=
    match event with
    | ⟨.assignCache settings, _⟩ => { world with cachedSettings := some settings }
    | ⟨.clearCache, _⟩ => { world with cachedSettings := none }
    | ⟨.upsertSingleton, .ok settings⟩ | ⟨.updateRow _, .ok settings⟩
    | ⟨.upsertReset, .ok settings⟩ => { world with row := some settings }
    | _ => world

/-- The calls that run at once. -/
inductive Task
  | get
  | update (data : SettingsData)
  | reset
  | invalidate

variable (task : Task) (log : List (Event Answer))

namespace Task

@[reducible]
def Outcome : Task → Type
  | .get | .update _ | .reset => SystemSettings
  | .invalidate => Unit

def program : (task : Task) → Async task.Outcome
  | .get => getSystemSettings
  | .update data => updateSystemSettings data
  | .reset => resetSystemSettings
  | .invalidate => invalidateSettingsCache

/-- The task has not begun, or has come to its end. -/
def Settled : Prop :=
  log = [] ∨ ∃ result, Traces task.program log (some result)

end Task

section

variable {ι : Type*} [DecidableEq ι] (row : Option SystemSettings) (tasks : ι → Task)
  (log : Trail ι Answer)

/-- A run of tasks; at first the variable is empty. -/
def Runs : Prop :=
  Concurrent (fun thread ↦ (tasks thread).program) settingsSemantics ⟨row, none⟩ log

def worldAfter : World :=
  settingsSemantics.final ⟨row, none⟩ (log.map Prod.snd)

/-- No call is in flight. -/
def Quiescent : Prop :=
  ∀ thread, (tasks thread).Settled (projection thread log)

/-- The run up to the last call of a thread: for a thread that is about to deliver, up to its call
on the row. -/
def upTo (thread : ι) (log : Trail ι Answer) : Trail ι Answer :=
  log.rdropWhile (·.1 ≠ thread)

/-- A thread has assigned settings to the variable, and has returned, after part of the run. -/
def Delivered (log earlier : Trail ι Answer) (thread : ι) (settings : SystemSettings) : Prop :=
  earlier ++ [(thread, ⟨.assignCache settings, .ok ()⟩)] <+: log

/-- The settings that a call gives to a reader. -/
def given : Event Answer → Option SystemSettings
  | ⟨.readCache, .ok cached⟩ => cached
  | ⟨.upsertSingleton, .ok settings⟩ => some settings
  | _ => none

/-- When no call is in flight, the cached settings are those of the row; and at any time, a reader
is given the row as it was when a call that has returned had written or read it, or later. -/
structure CacheFresh (row : Option SystemSettings) (tasks : ι → Task)
    (log : Trail ι Answer) : Prop where
  fresh : Quiescent tasks log → ∀ settings, (worldAfter row log).cachedSettings = some settings →
    (worldAfter row log).row = some settings
  seen : ∀ before entry settings, before ++ [entry] <+: log → given entry.2 = some settings →
    ∀ earlier returned delivered, Delivered before earlier returned delivered →
      ∃ point, upTo returned earlier <+: point ∧ point <+: before ++ [entry] ∧
        (worldAfter row point).row = some settings

/-- A call delivers after every call that wrote or read the row before it, unless both deliver the
same settings. -/
def Orderly (before : Trail ι Answer) (entry : ι × Event Answer) : Prop :=
  match entry with
  | (thread, ⟨.assignCache settings, _⟩) => ∀ earlier other delivered,
    Delivered before earlier other delivered →
      delivered = settings ∨ upTo other earlier <+: upTo thread before
  | _ => True

end

/-- What a task does next. -/
inductive Stage
  | reading
  | missing
  | updating (data : SettingsData)
  | ensured (data : SettingsData)
  | resetting
  | invalidating
  | delivering (settings : SystemSettings)
  | done

namespace Stage

def permits : Stage → Call → Prop
  | reading, .readCache => True
  | missing, .upsertSingleton => True
  | updating _, .upsertSingleton => True
  | ensured data, .updateRow other => other = data
  | resetting, .upsertReset => True
  | invalidating, .clearCache => True
  | delivering settings, .assignCache other => other = settings
  | _, _ => False

def advance : Stage → Event Answer → Stage
  | reading, ⟨.readCache, .ok none⟩ => missing
  | missing, ⟨.upsertSingleton, .ok settings⟩ => delivering settings
  | updating data, ⟨.upsertSingleton, .ok _⟩ => ensured data
  | ensured _, ⟨.updateRow _, .ok settings⟩ => delivering settings
  | resetting, ⟨.upsertReset, .ok settings⟩ => delivering settings
  | _, _ => done

def held : Stage → Option SystemSettings
  | delivering settings => some settings
  | _ => none

end Stage

def settingsProtocol : Protocol Answer Stage where
  permits := Stage.permits
  advance := Stage.advance
  expects event :=
    match event with
    | ⟨.readCache, .error _⟩ | ⟨.assignCache _, .error _⟩ | ⟨.clearCache, .error _⟩ => False
    | _ => True

def Task.stage : Task → Stage
  | .get => .reading
  | .update data => .updating data
  | .reset => .resetting
  | .invalidate => .invalidating

theorem Task.held_stage : task.stage.held = none := by
  cases task <;> rfl

/-- A task holds nothing when it has ended. -/
theorem Task.follows :
    task.program.Follows settingsProtocol (fun _ stage ↦ stage.held = none) task.stage := by
  have hdeliver : ∀ settings, (await (.assignCache settings) >>= fun _ ↦ pure settings :
      Async SystemSettings).Follows settingsProtocol (fun _ stage ↦ stage.held = none)
        (.delivering settings) :=
    fun settings ↦ follows_perform_bind rfl (fun _ _ ↦ rfl) fun _ ↦ rfl
  cases task with
  | get =>
    refine follows_perform_bind trivial (fun cached _ ↦ ?_) fun _ ↦ rfl
    cases cached with
    | some settings => exact rfl
    | none => exact follows_perform_bind trivial (fun settings _ ↦ hdeliver settings) fun _ ↦ rfl
  | update data =>
    refine follows_perform_bind trivial (fun _ _ ↦ ?_) fun _ ↦ rfl
    exact follows_perform_bind rfl (fun settings _ ↦ hdeliver settings) fun _ ↦ rfl
  | reset => exact follows_perform_bind trivial (fun settings _ ↦ hdeliver settings) fun _ ↦ rfl
  | invalidate => exact ⟨trivial, fun _ _ ↦ rfl⟩

section

variable {world : World} {stage : Stage} {event : Event Answer}

theorem Stage.eq_delivering_of_permits {settings : SystemSettings}
    (h : stage.permits (.assignCache settings)) : stage = .delivering settings := by
  cases stage with
  | delivering held => exact congrArg Stage.delivering (show settings = held from h).symm
  | _ => exact h.elim

/-- A step does not touch the settings that are to be delivered, and neither replaces nor removes
those of the row or the variable, but for a row that it creates and a variable that it clears. -/
structure Idle (world : World) (stage : Stage) (event : Event Answer) : Prop where
  before : stage.held = none
  after : (stage.advance event).held = none
  row : world.row = none ∨ (settingsSemantics.after world event).row = world.row
  cached : ∀ settings, (settingsSemantics.after world event).cachedSettings = some settings →
    world.cachedSettings = some settings

/-- What a step of a task can do: deliver the settings that it holds, get those of the row, or
neither. -/
theorem Stage.step_cases (hpermits : stage.permits event.call)
    (hallows : settingsSemantics.allows world event) :
    (∃ settings, stage = .delivering settings ∧ event = ⟨.assignCache settings, .ok ()⟩) ∨
      (∃ settings, stage.held = none ∧ stage.advance event = .delivering settings ∧
        settingsSemantics.after world event = { world with row := some settings }) ∨
      Idle world stage event := by
  obtain ⟨request, answer⟩ := event
  cases stage <;> cases request <;> first | exact hpermits.elim | skip
  case reading.readCache =>
    cases answer with
    | error message => exact .inr (.inr ⟨rfl, rfl, .inr rfl, fun _ ↦ id⟩)
    | ok cached => cases cached <;> exact .inr (.inr ⟨rfl, rfl, .inr rfl, fun _ ↦ id⟩)
  case invalidating.clearCache =>
    exact .inr (.inr ⟨rfl, rfl, .inr rfl, fun _ hcached ↦ nomatch hcached⟩)
  case delivering.assignCache held settings =>
    obtain rfl : settings = held := hpermits
    cases answer with
    | error message => exact hallows.elim
    | ok _ => exact .inl ⟨settings, rfl, rfl⟩
  case updating.upsertSingleton data =>
    cases answer with
    | error message => exact .inr (.inr ⟨rfl, rfl, .inr rfl, fun _ ↦ id⟩)
    | ok settings =>
      -- the row is created, or written as it is
      refine .inr (.inr ⟨rfl, rfl, ?_, fun _ ↦ id⟩)
      obtain rfl : settings = world.row.getD createdSettings := hallows
      obtain ⟨_ | current, cached⟩ := world
      · exact .inl rfl
      · exact .inr rfl
  all_goals
    cases answer with
    | error message => exact .inr (.inr ⟨rfl, rfl, .inr rfl, fun _ ↦ id⟩)
    | ok settings => exact .inr (.inl ⟨settings, rfl, rfl, rfl⟩)

end

/-! ### The invariant -/

section

variable {ι : Type*} {log : Trail ι Answer} {thread other : ι}
  {event : Event Answer} {settings : SystemSettings} {row : Option SystemSettings}

theorem worldAfter_concat : worldAfter row (log ++ [(thread, event)]) =
    settingsSemantics.after (worldAfter row log) event := by
  unfold worldAfter
  rw [List.map_append, settingsSemantics.final_append]
  rfl

theorem delivered_concat {earlier : Trail ι Answer} :
    Delivered (log ++ [(other, event)]) earlier thread settings ↔
      Delivered log earlier thread settings ∨
        earlier = log ∧ thread = other ∧ event = ⟨.assignCache settings, .ok ()⟩ := by
  unfold Delivered
  rw [List.prefix_concat_iff, or_comm]
  refine or_congr_right ⟨fun h ↦ ?_, ?_⟩
  · obtain ⟨hearlier, hentry⟩ := List.append_inj' h rfl
    obtain ⟨hthread, hevent⟩ := Prod.mk.inj (List.cons.inj hentry).1
    exact ⟨hearlier, hthread, hevent.symm⟩
  · rintro ⟨rfl, rfl, rfl⟩
    rfl

variable [DecidableEq ι]

theorem upTo_concat_self : upTo thread (log ++ [(thread, event)]) = log ++ [(thread, event)] :=
  List.rdropWhile_concat_neg _ _ _ (by simp)

theorem upTo_concat_of_ne (hne : other ≠ thread) :
    upTo thread (log ++ [(other, event)]) = upTo thread log :=
  List.rdropWhile_concat_pos _ _ _ (decide_eq_true hne)

def stagesAfter (tasks : ι → Task) (log : Trail ι Answer) : ι → Stage :=
  settingsProtocol.states (fun thread ↦ (tasks thread).stage) log

/-- At a point of the run a call has got settings from the row, which it has delivered or holds. -/
inductive Accessed (tasks : ι → Task) (log : Trail ι Answer) :
    Trail ι Answer → SystemSettings → Prop
  | holding {thread : ι} {settings : SystemSettings}
    (h : stagesAfter tasks log thread = .delivering settings) :
    Accessed tasks log (upTo thread log) settings
  | delivered {earlier : Trail ι Answer} {thread : ι} {settings : SystemSettings}
    (h : Delivered log earlier thread settings) : Accessed tasks log (upTo thread earlier) settings

/-- The row is as it was at a point at which a call has got it, or before all of these. -/
def Unchanged (row : Option SystemSettings) (tasks : ι → Task) (log : Trail ι Answer) : Prop :=
  ∃ since, since <+: log ∧ (∀ point, since <+: point → point <+: log →
      (worldAfter row point).row = (worldAfter row log).row) ∧
    ((∃ settings, Accessed tasks log since settings) ∨
      ∀ point settings, Accessed tasks log point settings → since <+: point)

/-- What a run in order preserves: settings that have been got were those of the row, and the cached
ones have been got no earlier than others that have been delivered. -/
structure CacheInvariant (row : Option SystemSettings) (tasks : ι → Task)
    (log : Trail ι Answer) : Prop where
  accessed : ∀ point settings, Accessed tasks log point settings →
    point <+: log ∧ (worldAfter row point).row = some settings
  unchanged : Unchanged row tasks log
  cached : ∀ settings, (worldAfter row log).cachedSettings = some settings →
    ∃ point, Accessed tasks log point settings ∧ ∀ earlier other delivered,
      Delivered log earlier other delivered → delivered = settings ∨ upTo other earlier <+: point

variable {tasks : ι → Task} {point : Trail ι Answer}

theorem stagesAfter_concat : stagesAfter tasks (log ++ [(thread, event)]) =
    update (stagesAfter tasks log) thread ((stagesAfter tasks log thread).advance event) :=
  settingsProtocol.states_concat _ log (thread, event)

/-- A step keeps what has been got, and may get the settings of the row. -/
theorem accessed_concat (hpermits : (stagesAfter tasks log thread).permits event.call)
    (hallows : settingsSemantics.allows (worldAfter row log) event) :
    Accessed tasks (log ++ [(thread, event)]) point settings ↔ Accessed tasks log point settings ∨
      (stagesAfter tasks log thread).advance event = .delivering settings ∧
        point = log ++ [(thread, event)] := by
  constructor
  · intro h
    cases h with
    | @holding other _ hstage =>
      rw [stagesAfter_concat] at hstage
      by_cases hother : other = thread
      · rw [hother, update_self] at hstage
        exact .inr ⟨hstage, hother ▸ upTo_concat_self⟩
      · rw [update_of_ne hother] at hstage
        rw [upTo_concat_of_ne (Ne.symm hother)]
        exact .inl (.holding hstage)
    | @delivered earlier other _ hdelivered =>
      rcases delivered_concat.mp hdelivered with hbefore | ⟨rfl, rfl, rfl⟩
      · exact .inl (.delivered hbefore)
      · exact .inl (.holding (Stage.eq_delivering_of_permits hpermits))
  · rintro (h | ⟨hstage, rfl⟩)
    · cases h with
      | @holding other _ hstage =>
        by_cases hother : other = thread
        · obtain rfl := hother
          have hheld := congrArg Stage.held hstage
          rcases Stage.step_cases hpermits hallows with ⟨held, hsame, rfl⟩ | ⟨_, hnone, _⟩ | hidle
          · obtain rfl : settings = held := Stage.delivering.inj (hstage.symm.trans hsame)
            exact .delivered (delivered_concat.mpr (.inr ⟨rfl, rfl, rfl⟩))
          · exact nomatch hheld.symm.trans hnone
          · exact nomatch hheld.symm.trans hidle.before
        · have hpoint : Accessed tasks (log ++ [(thread, event)]) _ settings :=
            .holding (by rw [stagesAfter_concat, update_of_ne hother, hstage])
          rw [upTo_concat_of_ne (Ne.symm hother)] at hpoint
          exact hpoint
      | delivered hdelivered => exact .delivered (delivered_concat.mpr (.inl hdelivered))
    · have hpoint : Accessed tasks (log ++ [(thread, event)]) _ settings :=
        .holding (by rw [stagesAfter_concat, update_self, hstage])
      rw [upTo_concat_self] at hpoint
      exact hpoint

/-- The row is as it was, if a step does not write it. -/
theorem CacheInvariant.unchanged_concat (h : CacheInvariant row tasks log)
    (hpermits : (stagesAfter tasks log thread).permits event.call)
    (hallows : settingsSemantics.allows (worldAfter row log) event)
    (hrow : (worldAfter row (log ++ [(thread, event)])).row = (worldAfter row log).row) :
    Unchanged row tasks (log ++ [(thread, event)]) := by
  obtain ⟨since, hsince, hsame, haccessed⟩ := h.unchanged
  have hlog : since <+: log ++ [(thread, event)] := hsince.trans (List.prefix_append _ _)
  refine ⟨since, hlog, fun point hpoint hafter ↦ ?_, haccessed.imp ?_ ?_⟩
  · rcases List.prefix_concat_iff.mp hafter with rfl | hbefore
    · rfl
    · rw [hrow, hsame point hpoint hbefore]
  · rintro ⟨settings, hsettings⟩
    exact ⟨settings, (accessed_concat hpermits hallows).mpr (.inl hsettings)⟩
  · intro hfirst point settings hpoint
    rcases (accessed_concat hpermits hallows).mp hpoint with hbefore | ⟨-, rfl⟩
    · exact hfirst point settings hbefore
    · exact hlog

theorem unchanged_here (h : (∃ settings, Accessed tasks log log settings) ∨
    ∀ point settings, Accessed tasks log point settings → log <+: point) :
    Unchanged row tasks log := by
  refine ⟨log, List.prefix_rfl, fun point hpoint hafter ↦ ?_, h⟩
  rw [hafter.eq_of_length_le hpoint.length_le]

/-- While there is no row, no call has got its settings. -/
theorem CacheInvariant.not_accessed (h : CacheInvariant row tasks log)
    (hnone : (worldAfter row log).row = none) : ¬ Accessed tasks log point settings := by
  intro hpoint
  have hrow := h.accessed point settings hpoint
  obtain ⟨since, hsince, hsame, ⟨other, hother⟩ | hfirst⟩ := h.unchanged
  · have hsome := (h.accessed since other hother).2
    rw [hsame since List.prefix_rfl hsince, hnone] at hsome
    exact nomatch hsome
  · rw [hsame point (hfirst point settings hpoint) hrow.1, hnone] at hrow
    exact nomatch hrow.2

section

variable (h : CacheInvariant row tasks log)
  (hpermits : (stagesAfter tasks log thread).permits event.call)
  (hallows : settingsSemantics.allows (worldAfter row log) event)
include h hpermits hallows

/-- A step that holds nothing keeps the cached settings. -/
theorem CacheInvariant.cached_concat (hheld : (stagesAfter tasks log thread).held = none)
    (hcached : (worldAfter row log).cachedSettings = some settings) :
    ∃ point, Accessed tasks (log ++ [(thread, event)]) point settings ∧
      ∀ earlier other delivered, Delivered (log ++ [(thread, event)]) earlier other delivered →
        delivered = settings ∨ upTo other earlier <+: point := by
  obtain ⟨point, hpoint, hlast⟩ := h.cached settings hcached
  refine ⟨point, (accessed_concat hpermits hallows).mpr (.inl hpoint),
    fun earlier other delivered hdelivered ↦ ?_⟩
  rcases delivered_concat.mp hdelivered with hbefore | ⟨-, -, rfl⟩
  · exact hlast earlier other delivered hbefore
  · rw [Stage.eq_delivering_of_permits hpermits] at hheld
    exact nomatch hheld

theorem CacheInvariant.concat (horderly : Orderly log (thread, event)) :
    CacheInvariant row tasks (log ++ [(thread, event)]) := by
  have hafter : worldAfter row (log ++ [(thread, event)]) = _ := worldAfter_concat
  rcases Stage.step_cases hpermits hallows with
    ⟨held, hheld, rfl⟩ | ⟨got, hnone, hgot, hrow⟩ | hidle
  · have hpoint : Accessed tasks (log ++ [(thread, ⟨.assignCache held, .ok ()⟩)])
        (upTo thread log) held :=
      .delivered (delivered_concat.mpr (.inr ⟨rfl, rfl, rfl⟩))
    refine ⟨fun point settings hsettings ↦ ?_, h.unchanged_concat hpermits hallows ?_,
      fun settings hcached ↦ ?_⟩
    · rcases (accessed_concat hpermits hallows).mp hsettings with hbefore | ⟨hstage, -⟩
      · exact (h.accessed point settings hbefore).imp_left (·.trans (List.prefix_append _ _))
      · rw [hheld] at hstage
        exact nomatch hstage
    · rw [hafter]
      rfl
    · rw [hafter] at hcached
      obtain rfl : held = settings := some.inj hcached
      refine ⟨_, hpoint, fun earlier other delivered hdelivered ↦ ?_⟩
      rcases delivered_concat.mp hdelivered with hbefore | ⟨rfl, rfl, -⟩
      · exact horderly earlier other delivered hbefore
      · exact .inr List.prefix_rfl
  · refine ⟨fun point settings hsettings ↦ ?_, unchanged_here
      (.inl ⟨got, (accessed_concat hpermits hallows).mpr (.inr ⟨hgot, rfl⟩)⟩),
      fun settings hcached ↦ h.cached_concat hpermits hallows hnone ?_⟩
    · rcases (accessed_concat hpermits hallows).mp hsettings with hbefore | ⟨hstage, rfl⟩
      · exact (h.accessed point settings hbefore).imp_left (·.trans (List.prefix_append _ _))
      · obtain rfl := Stage.delivering.inj (hgot.symm.trans hstage)
        exact ⟨List.prefix_rfl, by rw [hafter, hrow]⟩
    · rw [hafter, hrow] at hcached
      exact hcached
  · have haccessed : ∀ point settings, Accessed tasks (log ++ [(thread, event)]) point settings →
        Accessed tasks log point settings := by
      intro point settings hsettings
      rcases (accessed_concat hpermits hallows).mp hsettings with hbefore | ⟨hstage, -⟩
      · exact hbefore
      · exact nomatch (congrArg Stage.held hstage).symm.trans hidle.after
    refine ⟨fun point settings hsettings ↦ ?_, ?_,
      fun settings hcached ↦ h.cached_concat hpermits hallows hidle.before ?_⟩
    · exact (h.accessed point settings (haccessed point settings hsettings)).imp_left
        (·.trans (List.prefix_append _ _))
    · rcases hidle.row with hnone | hsame
      · exact unchanged_here (.inr fun point settings hsettings ↦
          (h.not_accessed hnone (haccessed point settings hsettings)).elim)
      · exact h.unchanged_concat hpermits hallows (by rw [hafter, hsame])
    · exact hidle.cached settings (by rw [← hafter, hcached])

end

/-! ### The cache is fresh -/

section

variable (h : Runs row tasks log)
include h

/-- The calls on the variable do not throw. -/
theorem Runs.expects : ∀ entry ∈ log, settingsProtocol.expects entry.2 := by
  refine Concurrent.expects h (fun _ ↦ True) trivial fun world event _ hallows ↦ ⟨trivial, ?_⟩
  obtain ⟨request, answer⟩ := event
  cases request <;> cases answer <;> first | exact trivial | exact hallows

theorem Runs.cacheInvariant (horderly : EveryStep Orderly log) : CacheInvariant row tasks log := by
  refine Concurrent.induction (CacheInvariant row tasks) ⟨?_, ?_, nofun⟩ ?_ h horderly
  · intro point settings hpoint
    cases hpoint with
    | @holding thread _ hstage =>
      exact nomatch (congrArg Stage.held hstage).symm.trans (tasks thread).held_stage
    | delivered hdelivered => exact absurd (List.eq_nil_of_prefix_nil hdelivered) (by simp)
  · exact unchanged_here (.inr fun point _ _ ↦ List.nil_prefix)
  · rintro before ⟨thread, event⟩ hrun horderly hbefore
    exact hbefore.concat
      (hrun.permits_last (fun thread ↦ (tasks thread).follows) (Runs.expects hrun))
      hrun.allows_last horderly

theorem Runs.held_of_settled (hsettled : (tasks thread).Settled (projection thread log)) :
    (stagesAfter tasks log thread).held = none := by
  rcases hsettled with hempty | ⟨result, htraces⟩
  · unfold stagesAfter Protocol.states
    rw [hempty]
    exact (tasks thread).held_stage
  · exact Concurrent.ends (fun thread ↦ (tasks thread).follows) h.expects htraces

theorem Runs.fresh (horderly : EveryStep Orderly log) (hquiescent : Quiescent tasks log)
    (hcached : (worldAfter row log).cachedSettings = some settings) :
    (worldAfter row log).row = some settings := by
  have hinvariant := h.cacheInvariant horderly
  obtain ⟨point, hpoint, hlast⟩ := hinvariant.cached settings hcached
  obtain ⟨hbegins, hrow⟩ := hinvariant.accessed point settings hpoint
  obtain ⟨since, hsince, hsame, ⟨current, hcurrent⟩ | hfirst⟩ := hinvariant.unchanged
  · have hstored := (hinvariant.accessed since current hcurrent).2
    cases hcurrent with
    | @holding thread _ hstage =>
      exact nomatch (congrArg Stage.held hstage).symm.trans (h.held_of_settled (hquiescent thread))
    | @delivered earlier other _ hdelivered =>
      rcases hlast earlier other current hdelivered with rfl | hafter
      · rw [← hsame _ List.prefix_rfl hsince, hstored]
      · rw [← hsame point hafter hbegins, hrow]
  · rw [← hsame point (hfirst point settings hpoint) hbegins, hrow]

end

theorem cached_or_row_of_given {world : World} (hallows : settingsSemantics.allows world event)
    (hgiven : given event = some settings) : world.cachedSettings = some settings ∨
      (settingsSemantics.after world event).row = some settings := by
  obtain ⟨request, answer⟩ := event
  cases request with
  | readCache =>
    cases answer with
    | error message => exact hallows.elim
    | ok cached => exact .inl (hallows.symm.trans hgiven)
  | upsertSingleton =>
    cases answer with
    | error message => exact absurd hgiven (by simp [given])
    | ok stored => exact .inr hgiven
  | _ => exact absurd hgiven (by simp [given])

theorem Runs.seen {entry : ι × Event Answer} {earlier : Trail ι Answer}
    {returned : ι} {delivered : SystemSettings} (h : Runs row tasks (log ++ [entry]))
    (horderly : EveryStep Orderly log) (hgiven : given entry.2 = some settings)
    (hreturned : Delivered log earlier returned delivered) :
    ∃ point, upTo returned earlier <+: point ∧ point <+: log ++ [entry] ∧
      (worldAfter row point).row = some settings := by
  have hinvariant := Runs.cacheInvariant h.of_append horderly
  obtain ⟨hearlier, hdelivered⟩ := hinvariant.accessed _ delivered (.delivered hreturned)
  have hlog : log <+: log ++ [entry] := List.prefix_append _ _
  rcases cached_or_row_of_given h.allows_last hgiven with hcached | hrow
  · obtain ⟨point, hpoint, hlast⟩ := hinvariant.cached settings hcached
    rcases hlast earlier returned delivered hreturned with rfl | hafter
    · exact ⟨_, List.prefix_rfl, hearlier.trans hlog, hdelivered⟩
    · obtain ⟨hbegins, hgot⟩ := hinvariant.accessed point settings hpoint
      exact ⟨point, hafter, hbegins.trans hlog, hgot⟩
  · refine ⟨_, hearlier.trans hlog, List.prefix_rfl, ?_⟩
    obtain ⟨thread, event⟩ := entry
    rwa [worldAfter_concat]

/-- The cache does not go stale, and a reader sees every update that has returned. Assumes: the
calls deliver in the order in which they have written or read the row. -/
theorem cacheFresh (row : Option SystemSettings) (tasks : ι → Task)
    (log : Trail ι Answer) (hruns : Runs row tasks log)
    (horderly : EveryStep Orderly log) : CacheFresh row tasks log where
  fresh hquiescent _ hcached := hruns.fresh horderly hquiescent hcached
  seen before entry settings hbegins hgiven earlier returned delivered hreturned := by
    obtain ⟨after, rfl⟩ := hbegins
    exact Runs.seen (Concurrent.of_append hruns) horderly.of_append.of_append hgiven hreturned

end

def lisbon : SettingsData
  | .timezone => some (.text "Europe/Lisbon")
  | _ => none

def readerAndUpdate : Bool → Task
  | false => .get
  | true => .update lisbon

def replacedLog : Trail Bool Answer :=
  [(false, ⟨.readCache, .ok none⟩), (false, ⟨.upsertSingleton, .ok createdSettings⟩),
    (true, ⟨.upsertSingleton, .ok createdSettings⟩),
    (true, ⟨.updateRow lisbon, .ok (createdSettings.write lisbon)⟩)]

def deliveredInOrder : Trail Bool Answer :=
  replacedLog ++ [(false, ⟨.assignCache createdSettings, .ok ()⟩),
    (true, ⟨.assignCache (createdSettings.write lisbon), .ok ()⟩)]

def deliveredLate : Trail Bool Answer :=
  replacedLog ++ [(true, ⟨.assignCache (createdSettings.write lisbon), .ok ()⟩),
    (false, ⟨.assignCache createdSettings, .ok ()⟩)]

theorem cacheFresh_deliveredInOrder : CacheFresh none readerAndUpdate deliveredInOrder := by
  refine cacheFresh none readerAndUpdate deliveredInOrder ⟨fun thread ↦ ?_, ?_⟩
    (everyStep_of_stepsAfter ?_)
  · cases thread with
    | false | true => exact .call _ (.call _ (.call _ (.start _)))
  · exact ⟨rfl, rfl, rfl, rfl, trivial, trivial, trivial⟩
  · have hnone : ∀ earlier other settings, ¬ Delivered replacedLog earlier other settings := by
      intro earlier other settings hdelivered
      have hmem := hdelivered.subset (List.mem_append_right _ List.mem_cons_self)
      simp [replacedLog] at hmem
    refine ⟨trivial, trivial, trivial, trivial, fun earlier other settings hdelivered ↦ ?_,
      fun earlier other settings hdelivered ↦ ?_, trivial⟩
    · exact (hnone earlier other settings hdelivered).elim
    · rcases delivered_concat.mp hdelivered with hbefore | ⟨rfl, rfl, -⟩
      · exact (hnone earlier other settings hbefore).elim
      · exact .inr ⟨replacedLog.drop 2, rfl⟩

/-- Both calls have settled, and the cache holds the row that has been replaced. -/
theorem not_cacheFresh : Runs none readerAndUpdate deliveredLate ∧
    ¬ CacheFresh none readerAndUpdate deliveredLate := by
  refine ⟨⟨fun thread ↦ ?_, rfl, rfl, rfl, rfl, trivial, trivial, trivial⟩, fun h ↦ ?_⟩
  · cases thread with
    | false | true => exact .call _ (.call _ (.call _ (.start _)))
  · have hquiescent : Quiescent readerAndUpdate deliveredLate := fun thread ↦ by
      cases thread with
      | false => exact .inr ⟨.ok createdSettings, .call _ (.call _ (.call _ (.done _)))⟩
      | true =>
        exact .inr ⟨.ok (createdSettings.write lisbon), .call _ (.call _ (.call _ (.done _)))⟩
    have hrow : some (createdSettings.write lisbon) = some createdSettings :=
      h.fresh hquiescent createdSettings rfl
    exact absurd (congrFun (some.inj hrow) .timezone) (by decide)

end Bridgeport.Settings
