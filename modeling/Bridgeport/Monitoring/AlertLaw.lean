import Bridgeport.Foundation.Threads
import Bridgeport.Monitoring.ServerHealth

/-!
# The law of bounce alerts

The calls of `recordFailure` and `recordSuccess` on one tracker, with a threshold and a cooldown that
do not change, should answer by what has been returned before: a failure asks for an alert when it
is the threshold-th since the last success at least and the cooldown has passed since every alert,
and a success reports a recovery when there was an alert since the one before it (`Lawful`).
-/

namespace Bridgeport.Monitoring

open Foundation List

/-! ### Calls on a tracker -/

inductive TrackerCall
  | failure (now : ℤ)
  | success (now : ℤ)

def TrackerCall.now : TrackerCall → ℤ
  | failure now => now
  | success now => now

/-- The call is `recordFailure`. -/
def TrackerCall.isFailure : TrackerCall → Bool
  | failure _ => true
  | success _ => false

structure Returned where
  call : TrackerCall
  result : BounceResult

def Returned.alerts (returned : Returned) : Bool :=
  returned.result.shouldAlert

def TrackerCall.perform (notifType : Option NotificationType) (row : Option BounceTracker) :
    TrackerCall → Option BounceTracker × BounceResult
  | failure now =>
    let (tracker, result) := recordFailure now notifType row
    (some tracker, result)
  | success _ => recordSuccess row

def returns (notifType : Option NotificationType) :
    Option BounceTracker → List TrackerCall → List Returned
  | _, [] => []
  | row, call :: calls =>
    let (after, result) := call.perform notifType row
    ⟨call, result⟩ :: returns notifType after calls

variable (before : List Returned)

/-- The failures since the last success, the latest first. -/
def sinceSuccess : List Returned :=
  before.reverse.takeWhile (·.call.isFailure)

/-- What a call should return after the calls before it. -/
structure Lawful (threshold cooldown : ℤ) (before : List Returned) (entry : Returned) : Prop where
  alerts_iff : ∀ now, entry.call = .failure now → (entry.alerts = true ↔
    threshold ≤ (sinceSuccess before).length + 1 ∧
      ∀ earlier ∈ sinceSuccess before, earlier.alerts = true →
        cooldown * 1000 < now - earlier.call.now)
  recovered_iff : ∀ now, entry.call = .success now → (entry.result.wasRecovered = true ↔
    ∃ earlier ∈ sinceSuccess before, earlier.alerts = true)

@[simp]
theorem sinceSuccess_nil : sinceSuccess [] = [] :=
  rfl

@[simp]
theorem sinceSuccess_concat_failure (now : ℤ) (result : BounceResult) :
    sinceSuccess (before ++ [⟨.failure now, result⟩]) =
      ⟨.failure now, result⟩ :: sinceSuccess before := by
  simp [sinceSuccess, TrackerCall.isFailure]

@[simp]
theorem sinceSuccess_concat_success (now : ℤ) (result : BounceResult) :
    sinceSuccess (before ++ [⟨.success now, result⟩]) = [] := by
  simp [sinceSuccess, TrackerCall.isFailure]

variable {entry : Returned}

theorem mem_of_mem_sinceSuccess {before : List Returned} (h : entry ∈ sinceSuccess before) :
    entry ∈ before :=
  have hbegins := takeWhile_prefix (l := before.reverse) fun entry ↦ entry.call.isFailure
  mem_reverse.mp (hbegins.subset h)

/-! ### What the row says -/

/-- The time of the last alert. -/
def LastAlert (alertSentAt : Option ℤ) (since : List Returned) : Prop :=
  match alertSentAt with
  | none => ∀ earlier ∈ since, earlier.alerts = false
  | some last => (∃ alert ∈ since, alert.alerts = true ∧ alert.call.now = last) ∧
    ∀ earlier ∈ since, earlier.alerts = true → earlier.call.now ≤ last

/-- What a row says about the calls before. -/
structure BounceTracker.Counts (tracker : BounceTracker) (since : List Returned) : Prop where
  consecutiveFailures_eq : tracker.consecutiveFailures = since.length
  lastAlert : LastAlert tracker.alertSentAt since

/-- The row after some calls: it is missing as long as there was no failure. -/
def Tracks : Option BounceTracker → Prop
  | none => sinceSuccess before = []
  | some tracker => tracker.Counts (sinceSuccess before)

variable {alertSentAt : Option ℤ} {since : List Returned}

section

variable (h : LastAlert alertSentAt since)

include h

theorem LastAlert.exists_iff :
    alertSentAt.isSome = true ↔ ∃ earlier ∈ since, earlier.alerts = true := by
  cases alertSentAt with
  | none =>
    refine ⟨nofun, fun ⟨earlier, hmem, halerts⟩ ↦ ?_⟩
    nomatch (h earlier hmem).symm.trans halerts
  | some last =>
    obtain ⟨⟨alert, hmem, halerts, -⟩, -⟩ := h
    exact ⟨fun _ ↦ ⟨alert, hmem, halerts⟩, fun _ ↦ rfl⟩

theorem LastAlert.forall_iff (wait now : ℤ) :
    (∀ last ∈ alertSentAt, wait < now - last) ↔
      ∀ earlier ∈ since, earlier.alerts = true → wait < now - earlier.call.now := by
  cases alertSentAt with
  | none =>
    refine ⟨fun _ earlier hmem halerts ↦ ?_, fun _ ↦ nofun⟩
    nomatch (h earlier hmem).symm.trans halerts
  | some last =>
    obtain ⟨⟨alert, hmem, halerts, hlast⟩, hlatest⟩ := h
    constructor
    · intro hwait earlier hearlier hsent
      have hpassed := hwait last rfl
      have hbefore := hlatest earlier hearlier hsent
      omega
    · rintro hpassed _ ⟨⟩
      rw [← hlast]
      exact hpassed alert hmem halerts

theorem LastAlert.cons_quiet (hentry : entry.alerts = false) :
    LastAlert alertSentAt (entry :: since) := by
  cases alertSentAt with
  | none => exact forall_mem_cons.mpr ⟨hentry, h⟩
  | some last =>
    obtain ⟨⟨alert, hmem, halert⟩, hlatest⟩ := h
    refine ⟨⟨alert, mem_cons_of_mem _ hmem, halert⟩, forall_mem_cons.mpr ⟨?_, hlatest⟩⟩
    exact fun halerts ↦ absurd (hentry.symm.trans halerts) nofun

end

/-- An alert is the last one. Assumes: the calls before were not later. -/
theorem lastAlert_cons (hentry : entry.alerts = true)
    (hbefore : ∀ earlier ∈ since, earlier.call.now ≤ entry.call.now) :
    LastAlert (some entry.call.now) (entry :: since) :=
  ⟨⟨entry, mem_cons_self, hentry, rfl⟩,
    forall_mem_cons.mpr ⟨fun _ ↦ le_refl _, fun earlier hmem _ ↦ hbefore earlier hmem⟩⟩

/-! ### One call -/

section

variable {bounceThreshold bounceCooldown : ℤ} {before : List Returned} {tracker : BounceTracker}

def enabledType (bounceThreshold bounceCooldown : ℤ) : Option NotificationType :=
  some ⟨true, bounceThreshold, bounceCooldown⟩

@[simp]
theorem threshold_enabledType : threshold (enabledType bounceThreshold bounceCooldown) =
    bounceThreshold :=
  rfl

@[simp]
theorem cooldown_enabledType : cooldown (enabledType bounceThreshold bounceCooldown) =
    bounceCooldown :=
  rfl

section

variable (h : tracker.Counts (sinceSuccess before))
include h

/-- A failure of a tracked resource is answered by the law. -/
theorem BounceTracker.Counts.lawful_failure (now : ℤ) :
    Lawful bounceThreshold bounceCooldown before ⟨.failure now,
      (recordFailure now (enabledType bounceThreshold bounceCooldown) (some tracker)).2⟩ where
  alerts_iff := by
    rintro _ ⟨⟩
    rw [← h.lastAlert.forall_iff, ← h.consecutiveFailures_eq]
    simp [recordFailure, Returned.alerts]
  recovered_iff := nofun

/-- A success after failures is answered by the law. -/
theorem BounceTracker.Counts.lawful_success (now : ℤ) :
    Lawful bounceThreshold bounceCooldown before
      ⟨.success now, (recordSuccess (some tracker)).2⟩ where
  alerts_iff := nofun
  recovered_iff := by
    intro _ _
    rw [← h.lastAlert.exists_iff]
    simp only [recordSuccess, Bool.decide_and, Bool.decide_eq_true, Bool.and_eq_true,
      decide_eq_true_eq, and_iff_right_iff_imp]
    -- an alert is one of the failures that the row has counted
    intro hsent
    obtain ⟨alert, hmem, -⟩ := h.lastAlert.exists_iff.mp hsent
    rw [h.consecutiveFailures_eq]
    exact Int.natCast_pos.mpr (length_pos_of_mem hmem)

theorem BounceTracker.Counts.tracks_failure {now : ℤ}
    (hbefore : ∀ earlier ∈ before, earlier.call.now ≤ now) (notifType : Option NotificationType) :
    Tracks (before ++ [⟨.failure now, (recordFailure now notifType (some tracker)).2⟩])
      (some (recordFailure now notifType (some tracker)).1) := by
  unfold Tracks
  rw [sinceSuccess_concat_failure]
  have hcount : tracker.consecutiveFailures + 1 = ((sinceSuccess before).length + 1 : ℕ) := by
    rw [h.consecutiveFailures_eq]
    rfl
  refine ⟨hcount, ?_⟩
  cases halert : (recordFailure now notifType (some tracker)).2.shouldAlert with
  | true =>
    have hsent : (recordFailure now notifType (some tracker)).1.alertSentAt = some now :=
      if_pos halert
    rw [hsent]
    exact lastAlert_cons halert fun earlier hmem ↦ hbefore earlier (mem_of_mem_sinceSuccess hmem)
  | false =>
    have hkept : (recordFailure now notifType (some tracker)).1.alertSentAt =
        tracker.alertSentAt := if_neg (Bool.eq_false_iff.mp halert)
    rw [hkept]
    exact h.lastAlert.cons_quiet halert

end

end

variable {row : Option BounceTracker}

/-- A call of the law but for the failure that creates the row, which it never answers with an
alert. -/
theorem lawful_perform_iff {bounceThreshold bounceCooldown : ℤ} {before : List Returned}
    (h : Tracks before row) (call : TrackerCall) : Lawful bounceThreshold bounceCooldown before
        ⟨call, (call.perform (enabledType bounceThreshold bounceCooldown) row).2⟩ ↔
      2 ≤ bounceThreshold ∨ row ≠ none ∨ call.isFailure = false := by
  cases row with
  | some tracker =>
    refine iff_of_true ?_ (.inr (.inl (Option.some_ne_none tracker)))
    cases call with
    | failure now => exact BounceTracker.Counts.lawful_failure h now
    | success now => exact BounceTracker.Counts.lawful_success h now
  | none =>
    have hsince : sinceSuccess before = [] := h
    cases call with
    | failure now =>
      have hquiet : ¬ (2 ≤ bounceThreshold ∨ (none : Option BounceTracker) ≠ none ∨
          (TrackerCall.failure now).isFailure = false) ↔ bounceThreshold ≤ 1 := by
        refine ⟨fun hnot ↦ not_lt.mp fun htwo ↦ hnot (.inl htwo), fun hle ↦ ?_⟩
        rintro (htwo | hrow | hcall)
        · exact absurd hle (not_le.mpr htwo)
        · exact hrow rfl
        · exact absurd hcall (Bool.true_eq_false.mp)
      refine ⟨fun hlawful ↦ ?_, fun hcondition ↦ ⟨?_, nofun⟩⟩
      · have halerts := hlawful.alerts_iff now rfl
        by_contra hcontra
        have hone := hquiet.mp hcontra
        refine absurd (halerts.mpr ?_) nofun
        simp [hsince, hone]
      · rintro _ ⟨⟩
        have hone : ¬ bounceThreshold ≤ 1 := fun hle ↦ hquiet.mpr hle hcondition
        simp [hsince, hone, Returned.alerts, TrackerCall.perform, recordFailure]
    | success now =>
      refine iff_of_true ⟨nofun, ?_⟩ (.inr (.inr rfl))
      intro _ _
      simp [hsince, TrackerCall.perform, recordSuccess]

/-- The row after a call. Assumes: the calls before were not later. -/
theorem Tracks.perform {before : List Returned} (h : Tracks before row)
    (notifType : Option NotificationType) (call : TrackerCall)
    (hbefore : ∀ earlier ∈ before, earlier.call.now ≤ call.now) :
    Tracks (before ++ [⟨call, (call.perform notifType row).2⟩]) (call.perform notifType row).1 := by
  cases call with
  | failure now =>
    cases row with
    | some tracker => exact BounceTracker.Counts.tracks_failure h hbefore notifType
    | none =>
      have hsince : sinceSuccess before = [] := h
      refine ⟨?_, ?_⟩
      · simp [hsince, TrackerCall.perform, recordFailure]
      · simp [LastAlert, hsince, TrackerCall.perform, recordFailure, Returned.alerts]
  | success now =>
    cases row with
    | some tracker =>
      refine ⟨?_, ?_⟩
      · rw [sinceSuccess_concat_success]
        rfl
      · rw [sinceSuccess_concat_success]
        exact fun earlier hmem ↦ absurd hmem not_mem_nil
    | none => exact sinceSuccess_concat_success before now _

theorem perform_ne_none_iff (notifType : Option NotificationType) (row : Option BounceTracker)
    (call : TrackerCall) : (call.perform notifType row).1 ≠ none ↔
      row ≠ none ∨ call.isFailure = true := by
  cases call with
  | failure now => simp [TrackerCall.perform, TrackerCall.isFailure]
  | success now => cases row <;> simp [TrackerCall.perform, recordSuccess, TrackerCall.isFailure]

/-- The calls after others answer by the law when no failure of them creates the row, or one alone
is not to be alerted on. -/
theorem stepsAfter_lawful_iff {bounceThreshold bounceCooldown : ℤ} {before : List Returned}
    {row : Option BounceTracker} {calls : List TrackerCall} (h : Tracks before row)
    (hbefore : ∀ earlier ∈ before, ∀ call ∈ calls, earlier.call.now ≤ call.now)
    (hordered : calls.Pairwise (·.now ≤ ·.now)) :
    StepsAfter (Lawful bounceThreshold bounceCooldown) before
        (returns (enabledType bounceThreshold bounceCooldown) row calls) ↔
      2 ≤ bounceThreshold ∨ row ≠ none ∨ ∀ call ∈ calls, call.isFailure = false := by
  induction calls generalizing before row with
  | nil => simp [returns, StepsAfter]
  | cons call calls ih =>
    obtain ⟨hnow, hlater⟩ := pairwise_cons.mp hordered
    have hafter := h.perform (enabledType bounceThreshold bounceCooldown) call
      fun earlier hmem ↦ hbefore earlier hmem call mem_cons_self
    have hrest := ih hafter (fun earlier hmem other hother ↦ by
      rcases mem_append.mp hmem with hmem | hmem
      · exact hbefore earlier hmem other (mem_cons_of_mem _ hother)
      · rw [mem_singleton.mp hmem]
        exact hnow other hother) hlater
    simp only [returns, StepsAfter]
    rw [lawful_perform_iff h, hrest, perform_ne_none_iff, forall_mem_cons]
    -- a failure that passes has created the row, so that the calls after it pass
    cases call.isFailure with
    | false => simp [← or_assoc]
    | true => simp

/-- The calls on a tracker that starts without a row answer by the law if and only if the threshold
is not one or there is no failure. Assumes: the times do not decrease. -/
theorem everyStep_lawful_iff (bounceThreshold bounceCooldown : ℤ) (calls : List TrackerCall)
    (hordered : calls.Pairwise (·.now ≤ ·.now)) :
    EveryStep (Lawful bounceThreshold bounceCooldown)
        (returns (enabledType bounceThreshold bounceCooldown) none calls) ↔
      2 ≤ bounceThreshold ∨ ∀ call ∈ calls, call.isFailure = false := by
  have hsteps : StepsAfter (Lawful bounceThreshold bounceCooldown) []
      (returns (enabledType bounceThreshold bounceCooldown) none calls) ↔ _ :=
    stepsAfter_lawful_iff rfl (fun _ hmem ↦ absurd hmem not_mem_nil) hordered
  rw [← stepsAfter_nil_iff, hsteps]
  simp

/-- Two failures, the second one with an alert, and a recovery. -/
theorem everyStep_lawful_recovery :
    EveryStep (Lawful 2 900) (returns (enabledType 2 900) none
      [.failure 0, .failure 1000, .failure 2000, .success 3000]) :=
  (everyStep_lawful_iff 2 900 _ (by decide)).mpr (.inl (le_refl 2))

/-- With a threshold of one the first failure should ask for an alert. -/
theorem not_everyStep_lawful_first :
    ¬ EveryStep (Lawful 1 900) (returns (enabledType 1 900) none [.failure 0]) := by
  intro h
  have hlawful := h [] ⟨.failure 0, ⟨false, 1, false⟩⟩ [] rfl
  nomatch (hlawful.alerts_iff 0 rfl).mpr ⟨by decide, nofun⟩

end Bridgeport.Monitoring
