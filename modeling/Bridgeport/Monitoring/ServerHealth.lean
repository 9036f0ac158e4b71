import Mathlib.Algebra.Order.Ring.Int
import Mathlib.Data.List.Induction

/-!
# The server health loop

On every tick the scheduler checks a server, which sets its status, and compares the status with the
one before the check. Only a change feeds the bounce tracker: becoming unhealthy is recorded as a
failure and becoming healthy again as a success, and each may raise a notification.

`alertsOnOutages_iff` says what this means for an outage: its later ticks are never counted, so an
alert is raised only with a threshold of one, and not for the first outage of a server, which only
creates the row of the tracker.
-/

namespace Bridgeport.Monitoring

/-! ### Bounce tracking -/

section

/-- A row of the `BounceTracker` table, as far as it is read. -/
structure BounceTracker where
  consecutiveFailures : ℤ
  alertSentAt : Option ℤ

structure NotificationType where
  bounceEnabled : Bool
  (bounceThreshold bounceCooldown : ℤ)

/-- `BounceResult`; an absent `wasRecovered` is false. -/
structure BounceResult where
  shouldAlert : Bool
  consecutiveFailures : ℤ
  wasRecovered : Bool

variable (notifType : Option NotificationType)

/-- The notification type that sets the threshold and the cooldown, if there is one. -/
def bouncing : Option NotificationType :=
  notifType.filter (·.bounceEnabled)

/-- The number of failures before the first alert. -/
def threshold (notifType : Option NotificationType) : ℤ :=
  ((bouncing notifType).map (·.bounceThreshold)).getD 3

/-- The time before the next alert. -/
def cooldown : ℤ :=
  ((bouncing notifType).map (·.bounceCooldown)).getD 900

/-- `recordFailure`, at a time and with the answer of `getNotificationType`. -/
def recordFailure (now : ℤ) (notifType : Option NotificationType) :
    Option BounceTracker → BounceTracker × BounceResult
  | none => (⟨1, none⟩, ⟨false, 1, false⟩)
  | some tracker =>
    let newCount := tracker.consecutiveFailures + 1
    let shouldAlert : Bool := threshold notifType ≤ newCount ∧
      ∀ alertSentAt ∈ tracker.alertSentAt, cooldown notifType * 1000 < now - alertSentAt
    (⟨newCount, if shouldAlert then some now else tracker.alertSentAt⟩,
      ⟨shouldAlert, newCount, false⟩)

def recordSuccess : Option BounceTracker → Option BounceTracker × BounceResult
  | none => (none, ⟨false, 0, false⟩)
  | some tracker =>
    let wasInFailedState : Bool := 0 < tracker.consecutiveFailures ∧ tracker.alertSentAt.isSome
    (some ⟨0, none⟩, ⟨false, 0, wasInFailedState⟩)

/-- The row after a success, if there is one. -/
def BounceTracker.reset : BounceTracker :=
  ⟨0, none⟩

/-- The first failure after a success is alerted on only with a threshold of at most one. -/
theorem recordFailure_reset (now : ℤ) (notifType : Option NotificationType) :
    recordFailure now notifType (some BounceTracker.reset) =
      if threshold notifType ≤ 1 then (⟨1, some now⟩, ⟨true, 1, false⟩)
      else (⟨1, none⟩, ⟨false, 1, false⟩) := by
  unfold recordFailure BounceTracker.reset
  by_cases hthreshold : threshold notifType ≤ 1
  · simp [hthreshold]
  · simp [hthreshold]

end

open List

/-! ### One tick -/

/-- `SERVER_STATUS`. -/
inductive ServerStatus
  | healthy
  | unhealthy
  | unknown
  deriving DecidableEq

/-- The notification types that the loop raises. -/
inductive NotificationCode
  | systemServerOffline
  | systemServerOnline
  deriving DecidableEq

structure Notification where
  code : NotificationCode
  (environmentId serverName : String)
  deriving DecidableEq

/-- What the loop reads of a server, apart from its status. -/
structure ServerRow where
  (name environmentId : String)

/-- The status of a server and the row of its `offline` tracker. -/
structure ServerState where
  status : ServerStatus
  tracker : Option BounceTracker

/-- A check: when it is done and whether it finds the server healthy. -/
structure HealthCheck where
  now : ℤ
  healthy : Bool

def HealthCheck.status (check : HealthCheck) : ServerStatus :=
  if check.healthy then .healthy else .unhealthy

def ServerRow.notification (server : ServerRow) (code : NotificationCode) : Notification :=
  ⟨code, server.environmentId, server.name⟩

/-- `runServerHealthChecks`, for one server. -/
def runServerHealthCheck (notifType : Option NotificationType) (server : ServerRow)
    (state : ServerState) (check : HealthCheck) : ServerState × List Notification :=
  let prevStatus := state.status
  let status := check.status
  if status = .unhealthy ∧ prevStatus ≠ .unhealthy then
    let (tracker, bounce) := recordFailure check.now notifType state.tracker
    (⟨status, some tracker⟩,
      if bounce.shouldAlert then [server.notification .systemServerOffline] else [])
  else if status = .healthy ∧ prevStatus = .unhealthy then
    let (tracker, bounce) := recordSuccess state.tracker
    (⟨status, tracker⟩,
      if bounce.wasRecovered then [server.notification .systemServerOnline] else [])
  else (⟨status, state.tracker⟩, [])

section

variable (notifType : Option NotificationType) (server : ServerRow)

def stateAfter (state : ServerState) (checks : List HealthCheck) : ServerState :=
  checks.foldl (fun state check ↦ (runServerHealthCheck notifType server state check).1) state

def raised (state : ServerState) : List HealthCheck → List Notification
  | [] => []
  | check :: checks =>
    (runServerHealthCheck notifType server state check).2 ++
      raised (runServerHealthCheck notifType server state check).1 checks

def statusAfter (status : ServerStatus) (checks : List HealthCheck) : ServerStatus :=
  (checks.getLast?.map HealthCheck.status).getD status

section

variable (state : ServerState)

/-- The row of a server that is not unhealthy has been reset. Every tick keeps this. -/
def Settled : Prop :=
  state.status ≠ .unhealthy → ∀ tracker ∈ state.tracker, tracker = BounceTracker.reset

variable (checks : List HealthCheck)

/-- The server has a row for its failures, or some tick has made it unhealthy. -/
def HasFailed : Prop :=
  state.tracker.isSome ∨ ∃ earlier check later, checks = earlier ++ check :: later ∧
    check.healthy = false ∧ statusAfter state.status earlier ≠ .unhealthy

theorem status_runServerHealthCheck (check : HealthCheck) :
    (runServerHealthCheck notifType server state check).1.status = check.status := by
  unfold runServerHealthCheck
  dsimp only
  split_ifs <;> rfl

theorem status_stateAfter :
    (stateAfter notifType server state checks).status = statusAfter state.status checks := by
  induction checks using List.reverseRecOn with
  | nil => rfl
  | append_singleton checks check ih =>
    unfold stateAfter statusAfter
    rw [foldl_append, List.getLast?_concat]
    exact status_runServerHealthCheck _ _ _ _

end

variable {check : HealthCheck}

section

variable {state : ServerState}

/-- A check that changes nothing about the health of the server raises nothing. -/
theorem runServerHealthCheck_of_unhealthy (hstatus : state.status = .unhealthy)
    (hcheck : check.healthy = false) :
    runServerHealthCheck notifType server state check = (state, []) := by
  obtain ⟨status, tracker⟩ := state
  subst hstatus
  simp [runServerHealthCheck, HealthCheck.status, hcheck]

theorem runServerHealthCheck_of_healthy (hstatus : state.status ≠ .unhealthy)
    (hcheck : check.healthy = true) :
    runServerHealthCheck notifType server state check = (⟨.healthy, state.tracker⟩, []) := by
  simp [runServerHealthCheck, HealthCheck.status, hcheck, hstatus]

theorem runServerHealthCheck_of_failure (hstatus : state.status ≠ .unhealthy)
    (hcheck : check.healthy = false) :
    runServerHealthCheck notifType server state check =
      (⟨.unhealthy, some (recordFailure check.now notifType state.tracker).1⟩,
        if (recordFailure check.now notifType state.tracker).2.shouldAlert then
          [server.notification .systemServerOffline] else []) := by
  simp [runServerHealthCheck, HealthCheck.status, hcheck, hstatus]

theorem runServerHealthCheck_of_recovery (hstatus : state.status = .unhealthy)
    (hcheck : check.healthy = true) :
    runServerHealthCheck notifType server state check =
      (⟨.healthy, (recordSuccess state.tracker).1⟩,
        if (recordSuccess state.tracker).2.wasRecovered then
          [server.notification .systemServerOnline] else []) := by
  simp [runServerHealthCheck, HealthCheck.status, hcheck, hstatus]

/-- One tick keeps the row of a server that is not unhealthy reset. -/
theorem Settled.runServerHealthCheck (h : Settled state) (check : HealthCheck) :
    Settled (runServerHealthCheck notifType server state check).1 := by
  intro hstatus tracker htracker
  rw [status_runServerHealthCheck] at hstatus
  have hcheck : check.healthy = true := by
    by_contra hunhealthy
    exact hstatus (if_neg hunhealthy)
  by_cases hprev : state.status = .unhealthy
  · rw [runServerHealthCheck_of_recovery notifType server hprev hcheck] at htracker
    unfold recordSuccess at htracker
    cases hrow : state.tracker with
    | none =>
      rw [hrow] at htracker
      nomatch htracker
    | some row =>
      rw [hrow] at htracker
      exact (Option.some.inj htracker).symm
  · rw [runServerHealthCheck_of_healthy notifType server hprev hcheck] at htracker
    exact h hprev tracker htracker

/-- Every run keeps the row of a server that is not unhealthy reset. -/
theorem Settled.stateAfter (h : Settled state) (checks : List HealthCheck) :
    Settled (stateAfter notifType server state checks) := by
  induction checks using List.reverseRecOn with
  | nil => exact h
  | append_singleton checks check ih =>
    unfold Monitoring.stateAfter
    rw [foldl_append]
    exact ih.runServerHealthCheck notifType server check

end

/-- One tick creates the row of a server when it becomes unhealthy, and no tick deletes it. -/
theorem isSome_tracker_runServerHealthCheck (state : ServerState) (check : HealthCheck) :
    (Monitoring.runServerHealthCheck notifType server state check).1.tracker.isSome ↔
      state.tracker.isSome ∨ check.healthy = false ∧ state.status ≠ .unhealthy := by
  by_cases hstatus : state.status = .unhealthy
  · cases hcheck : check.healthy with
    | true =>
      rw [runServerHealthCheck_of_recovery notifType server hstatus hcheck]
      cases htracker : state.tracker <;> simp [recordSuccess]
    | false =>
      rw [runServerHealthCheck_of_unhealthy notifType server hstatus hcheck]
      simp [hstatus]
  · cases hcheck : check.healthy with
    | true =>
      rw [runServerHealthCheck_of_healthy notifType server hstatus hcheck]
      simp
    | false =>
      rw [runServerHealthCheck_of_failure notifType server hstatus hcheck]
      simp [hstatus]

/-- The row exists from the first failure on. -/
theorem isSome_tracker_stateAfter_iff (state : ServerState) (checks : List HealthCheck) :
    (stateAfter notifType server state checks).tracker.isSome ↔ HasFailed state checks := by
  induction checks using List.reverseRecOn with
  | nil => simp [stateAfter, HasFailed]
  | append_singleton checks check ih =>
    have hlast : stateAfter notifType server state (checks ++ [check]) =
        (runServerHealthCheck notifType server (stateAfter notifType server state checks)
          check).1 := by
      unfold stateAfter
      rw [foldl_append]
      rfl
    rw [hlast, isSome_tracker_runServerHealthCheck, ih, status_stateAfter]
    unfold HasFailed
    constructor
    · rintro ((htracker | ⟨earlier, failed, later, hsplit, hfailed⟩) | hcheck)
      · exact .inl htracker
      · refine .inr ⟨earlier, failed, later ++ [check], ?_, hfailed⟩
        rw [hsplit, append_assoc, cons_append]
      · exact .inr ⟨checks, check, [], rfl, hcheck⟩
    · rintro (htracker | ⟨earlier, failed, later, hsplit, hfailed⟩)
      · exact .inl (.inl htracker)
      · cases later using List.reverseRecOn with
        | nil =>
          obtain ⟨hearlier, hsame⟩ := append_inj' hsplit rfl
          rw [hearlier, (List.cons.inj hsame).1]
          exact .inr hfailed
        | append_singleton later last =>
          rw [← cons_append, ← append_assoc] at hsplit
          obtain ⟨hchecks, -⟩ := append_inj' hsplit rfl
          exact .inl (.inr ⟨earlier, failed, later, hchecks, hfailed⟩)

/-! ### Outages -/

/-- The ticks of an outage after the first one change nothing. -/
theorem unhealthy_run {state : ServerState} (hstatus : state.status = .unhealthy)
    {checks : List HealthCheck} (hchecks : ∀ check ∈ checks, check.healthy = false) :
    stateAfter notifType server state checks = state ∧
      raised notifType server state checks = [] := by
  induction checks with
  | nil => exact ⟨rfl, rfl⟩
  | cons check checks ih =>
    have hcheck := runServerHealthCheck_of_unhealthy notifType server hstatus
      (hchecks check mem_cons_self)
    obtain ⟨hstate, hraised⟩ := ih fun other hother ↦
      hchecks other (mem_cons_of_mem _ hother)
    constructor
    · unfold stateAfter at hstate ⊢
      rw [foldl_cons, hcheck]
      exact hstate
    · rw [raised, hcheck, hraised]
      rfl

section

variable {state : ServerState} (hsettled : Settled state) (hstatus : state.status = .healthy)

include hsettled hstatus

/-- An outage is alerted on at its first tick or never. -/
theorem outage_run {first : HealthCheck} {rest : List HealthCheck}
    (hchecks : ∀ check ∈ first :: rest, check.healthy = false) :
    if state.tracker.isSome ∧ threshold notifType ≤ 1 then
      stateAfter notifType server state (first :: rest) = ⟨.unhealthy, some ⟨1, some first.now⟩⟩ ∧
        raised notifType server state (first :: rest) = [server.notification .systemServerOffline]
    else
      stateAfter notifType server state (first :: rest) = ⟨.unhealthy, some ⟨1, none⟩⟩ ∧
        raised notifType server state (first :: rest) = [] := by
  have hprev : state.status ≠ .unhealthy := by
    rw [hstatus]
    exact nofun
  have hfirst := runServerHealthCheck_of_failure notifType server hprev
    (hchecks first mem_cons_self)
  have hrest : ∀ check ∈ rest, check.healthy = false := fun check hcheck ↦
    hchecks check (mem_cons_of_mem _ hcheck)
  have hunhealthy : (runServerHealthCheck notifType server state first).1.status =
      .unhealthy := by rw [hfirst]
  obtain ⟨hstate, hraised⟩ := unhealthy_run notifType server hunhealthy hrest
  have hstate' : stateAfter notifType server state (first :: rest) =
      (runServerHealthCheck notifType server state first).1 := hstate
  rw [raised, hraised, hstate', hfirst, append_nil]
  cases htracker : state.tracker with
  | none => exact ⟨rfl, rfl⟩
  | some row =>
    rw [hsettled hprev row htracker, recordFailure_reset]
    by_cases hthreshold : threshold notifType ≤ 1
    · simp [hthreshold]
    · simp [hthreshold]

/-- An outage that has been alerted on, and only such an outage, ends with a recovery
notification. -/
theorem recovery_raised_iff {outage : List HealthCheck} (hne : outage ≠ [])
    (hchecks : ∀ check ∈ outage, check.healthy = false) {recovery : HealthCheck}
    (hrecovery : recovery.healthy = true) :
    server.notification .systemServerOnline ∈
        raised notifType server (stateAfter notifType server state outage) [recovery] ↔
      server.notification .systemServerOffline ∈ raised notifType server state outage := by
  cases outage with
  | nil => exact absurd rfl hne
  | cons first rest =>
    have hrun := outage_run notifType server hsettled hstatus hchecks
    split_ifs at hrun with halert
    · obtain ⟨hstate, hraised⟩ := hrun
      rw [hstate, hraised, raised, runServerHealthCheck_of_recovery notifType server rfl hrecovery]
      simp [recordSuccess]
    · obtain ⟨hstate, hraised⟩ := hrun
      rw [hstate, hraised, raised, runServerHealthCheck_of_recovery notifType server rfl hrecovery]
      simp [recordSuccess, raised]

end

/-- In a run, every outage of as many ticks as the threshold raises an alert, and a server that
becomes healthy raises a recovery notification exactly if the outage raised an alert. -/
def AlertsOnOutages (initial : ServerState) (checks : List HealthCheck) : Prop :=
  (∀ before outage after, checks = before ++ outage ++ after →
    statusAfter initial.status before = .healthy →
    (∀ check ∈ outage, check.healthy = false) → (outage.length : ℤ) = threshold notifType →
    server.notification .systemServerOffline ∈
      raised notifType server (stateAfter notifType server initial before) outage) ∧
  ∀ before outage recovery after, checks = before ++ outage ++ recovery :: after →
    statusAfter initial.status before = .healthy → outage ≠ [] →
    (∀ check ∈ outage, check.healthy = false) → recovery.healthy = true →
    (server.notification .systemServerOnline ∈
        raised notifType server (stateAfter notifType server initial (before ++ outage))
          [recovery] ↔
      server.notification .systemServerOffline ∈
        raised notifType server (stateAfter notifType server initial before) outage)

/-- Alerts come in time exactly if every outage that reaches the threshold reaches it at its first
tick and finds the row of an earlier failure. Assumes: the row of a server that is not unhealthy is
reset initially. -/
theorem alertsOnOutages_iff (initial : ServerState) (hsettled : Settled initial)
    (hthreshold : 1 ≤ threshold notifType) (checks : List HealthCheck) :
    AlertsOnOutages notifType server initial checks ↔
      ∀ before outage after, checks = before ++ outage ++ after →
        statusAfter initial.status before = .healthy →
        (∀ check ∈ outage, check.healthy = false) → (outage.length : ℤ) = threshold notifType →
        threshold notifType = 1 ∧ HasFailed initial before := by
  have hoffline : ∀ before outage, statusAfter initial.status before = .healthy →
      (∀ check ∈ outage, check.healthy = false) → (outage.length : ℤ) = threshold notifType →
      (server.notification .systemServerOffline ∈
        raised notifType server (stateAfter notifType server initial before) outage ↔
      threshold notifType = 1 ∧ HasFailed initial before) := by
    intro before outage hhealthy hunhealthy hlength
    rw [← status_stateAfter notifType server] at hhealthy
    rw [← isSome_tracker_stateAfter_iff notifType server]
    cases outage with
    | nil =>
      rw [length_nil] at hlength
      omega
    | cons first rest =>
      have hrun := outage_run notifType server (hsettled.stateAfter notifType server before)
        hhealthy hunhealthy
      split_ifs at hrun with halert
      · rw [hrun.2]
        exact iff_of_true mem_cons_self ⟨le_antisymm halert.2 hthreshold, halert.1⟩
      · rw [hrun.2]
        exact iff_of_false not_mem_nil fun h ↦ halert ⟨h.2, h.1.le⟩
  constructor
  · rintro ⟨hintime, -⟩ before outage after hsplit hhealthy hunhealthy hlength
    exact (hoffline before outage hhealthy hunhealthy hlength).mp
      (hintime before outage after hsplit hhealthy hunhealthy hlength)
  · intro hreached
    refine ⟨fun before outage after hsplit hhealthy hunhealthy hlength ↦
      (hoffline before outage hhealthy hunhealthy hlength).mpr
        (hreached before outage after hsplit hhealthy hunhealthy hlength), ?_⟩
    intro before outage recovery after _ hhealthy hne hunhealthy hrecovery
    rw [← status_stateAfter notifType server] at hhealthy
    have happend : stateAfter notifType server initial (before ++ outage) =
        stateAfter notifType server (stateAfter notifType server initial before) outage :=
      foldl_append
    rw [happend]
    exact recovery_raised_iff notifType server (hsettled.stateAfter notifType server before)
      hhealthy hne hunhealthy hrecovery

end

/-- The notification type for a server that goes offline, with its default settings. -/
def serverOfflineType : NotificationType :=
  ⟨true, 2, 900⟩

/-- A server that is found healthy once and then unhealthy twice raises no alert. -/
theorem not_alertsOnOutages_new_server :
    ¬ AlertsOnOutages (some serverOfflineType) ⟨"web1", "production"⟩ ⟨.unknown, none⟩
      [⟨0, true⟩, ⟨60000, false⟩, ⟨120000, false⟩] := by
  intro h
  have hraised := h.1 [⟨0, true⟩] [⟨60000, false⟩, ⟨120000, false⟩] [] rfl rfl (by decide) rfl
  exact absurd hraised (by decide)

/-- With a threshold of one, the second outage of a server raises an alert. -/
theorem alertsOnOutages_second_outage :
    AlertsOnOutages (some ⟨true, 1, 900⟩) ⟨"web1", "production"⟩
      ⟨.healthy, some BounceTracker.reset⟩ [⟨0, false⟩, ⟨60000, true⟩] := by
  refine (alertsOnOutages_iff _ _ _ (fun _ tracker htracker ↦ ?_) (by decide) _).mpr ?_
  · exact (Option.some.inj htracker).symm
  · exact fun before outage after _ _ _ _ ↦ ⟨by decide, .inl rfl⟩

end Bridgeport.Monitoring
