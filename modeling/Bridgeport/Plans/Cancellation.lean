import Bridgeport.Plans.ConcurrentExecutions
import Bridgeport.Plans.StepCauses

/-!
# Cancelling a plan while it is executed

One `executePlan` call and any number of `cancelPlan` calls run on one plan. The executor works on
the plan as it has read it, and its updates do not look at what the plan has become; a cancellation
marks the pending steps and sets the plan to cancelled without asking the executor to stop.

`cancellationFinal` says when a cancellation is final nevertheless: when it writes only while the
executor is not past its status gate or has no write left that would undo it, and when the executor
does not start on a plan with steps that a cancellation has marked.
-/

namespace Bridgeport.Plans

open Foundation Orchestration Deploy Program List Option

/-! ### What a call does to the steps of the plan -/

theorem steps_after (store : PlanStore) (event : Event Answer) :
    ∃ status : DeploymentPlanStep → StepStatus,
      (planSemantics.after store event).plan.steps =
          store.plan.steps.map (fun step ↦ { step with status := status step }) ∧
        ∀ step, status step = step.status ∨
          (∃ new error, event = ⟨.updateStep step.id new error, .ok ()⟩ ∧ status step = new) ∨
          ((∃ id, event = ⟨.skipPendingSteps id, .ok ()⟩) ∧ step.status = .pending ∧
            status step = .skipped) := by
  have hsame : ∀ steps : List DeploymentPlanStep,
      steps = steps.map fun step ↦ { step with status := step.status } :=
    fun steps ↦ (map_id steps).symm
  simp only [planSemantics]
  split
  · refine ⟨fun step ↦ step.status, ?_, fun step ↦ .inl rfl⟩
    split_ifs
    · exact hsame _
    · exact hsame _
  · rename_i id new error _
    refine ⟨PlanStore.setStepStatus id new, rfl, fun step ↦ ?_⟩
    by_cases hid : step.id = id
    · rw [hid]
      exact .inr (.inl ⟨new, error, rfl, if_pos hid⟩)
    · exact .inl (if_neg hid)
  · rename_i id _
    split_ifs
    · refine ⟨PlanStore.skipPending, rfl, fun step ↦ ?_⟩
      by_cases hpending : step.status = .pending
      · exact .inr (.inr ⟨⟨id, rfl⟩, hpending, if_pos hpending⟩)
      · exact .inl (if_neg hpending)
    · exact ⟨fun step ↦ step.status, hsame _, fun step ↦ .inl rfl⟩
  · exact ⟨fun step ↦ step.status, hsame _, fun step ↦ .inl rfl⟩

/-- The step has been started. -/
def HasBegun (step : DeploymentPlanStep) : Prop :=
  step.status ≠ .pending ∧ step.status ≠ .skipped

/-- The stored step with the id has been started. -/
def Begun (store : PlanStore) (stepId : String) : Prop :=
  ∀ step ∈ store.plan.steps, step.id = stepId → HasBegun step

/-- The call sets a step back. -/
def Resets (request : Call) : Prop :=
  match request with
  | .updateStep _ status _ => status = .pending ∨ status = .skipped
  | _ => False

variable {store : PlanStore} {row : DeploymentPlanStep}

theorem exists_row_after (event : Event Answer) (hrow : row ∈ store.plan.steps) :
    ∃ status, { row with status := status } ∈ (planSemantics.after store event).plan.steps := by
  obtain ⟨status, hsteps, -⟩ := steps_after store event
  refine ⟨status row, ?_⟩
  rw [hsteps]
  exact mem_map_of_mem hrow

theorem exists_row_final (log : Log) (hrow : row ∈ store.plan.steps) :
    ∃ status, { row with status := status } ∈ (planSemantics.final store log).plan.steps := by
  induction log generalizing store row with
  | nil => exact ⟨row.status, hrow⟩
  | cons event rest ih =>
    obtain ⟨status, hafter⟩ := exists_row_after event hrow
    obtain ⟨later, hlater⟩ := ih hafter
    exact ⟨later, hlater⟩

variable {stepId : String} {event : Event Answer}

theorem begun_after (h : Begun store stepId) (hcall : ¬ Resets event.call) :
    Begun (planSemantics.after store event) stepId := by
  intro step hstep hid
  obtain ⟨status, hsteps, hstatus⟩ := steps_after store event
  rw [hsteps] at hstep
  obtain ⟨row, hrow, rfl⟩ := mem_map.mp hstep
  have hbegun := h row hrow hid
  show status row ≠ .pending ∧ status row ≠ .skipped
  rcases hstatus row with hsame | ⟨new, error, rfl, hnew⟩ | ⟨-, hpending, -⟩
  · rw [hsame]
    exact hbegun
  · rw [hnew]
    exact not_or.mp hcall
  · exact absurd hpending hbegun.1

theorem begun_final (h : Begun store stepId) {log : Log} (hlog : ∀ event ∈ log, ¬ Resets event.call) :
    Begun (planSemantics.final store log) stepId := by
  induction log generalizing store with
  | nil => exact h
  | cons event rest ih =>
    exact ih (begun_after h (hlog event mem_cons_self))
      fun later hlater ↦ hlog later (mem_cons_of_mem event hlater)

theorem PlanStore.eq_of_id_eq (store : PlanStore) {first second : DeploymentPlanStep}
    (hfirst : first ∈ store.plan.steps) (hsecond : second ∈ store.plan.steps)
    (hid : first.id = second.id) : first = second :=
  inj_on_of_nodup_map store.nodup_ids hfirst hsecond hid

theorem begun_of_begins (hallows : planSemantics.allows store event)
    (hbegins : Begins store.plan.id stepId event) :
    Begun (planSemantics.after store event) stepId := by
  intro step hstep hid
  rcases hbegins with rfl | ⟨read, rfl, other, hother, hotherId, hstatus⟩
  · obtain ⟨row, hrow, rfl⟩ := mem_map.mp hstep
    have hrunning : PlanStore.setStepStatus stepId .running row = .running := if_pos hid
    show PlanStore.setStepStatus stepId .running row ≠ .pending ∧ _ ≠ _
    rw [hrunning]
    exact ⟨nofun, nofun⟩
  · have hshows : Shows store.plan read := hallows rfl
    have hrow : other.toDeploymentPlanStep ∈ store.plan.steps := by
      rw [← hshows.steps]
      exact mem_map_of_mem hother
    rw [store.eq_of_id_eq hstep hrow (hid.trans hotherId.symm)]
    show other.status ≠ .pending ∧ other.status ≠ .skipped
    rcases hstatus with hsuccess | hrunning
    · rw [hsuccess]
      exact ⟨nofun, nofun⟩
    · rw [hrunning]
      exact ⟨nofun, nofun⟩

theorem avoids_resets_executePlan (yaml : Yaml) (planId : String) :
    (executePlan yaml planId).Avoids Resets := by
  refine avoids_call not_false fun plan ↦ Avoids.ite (avoids_throw _) ?_
  refine avoids_call not_false fun _ ↦ ?_
  refine (avoids_runPlan yaml planId plan).mono fun request hresets hexecution ↦ ?_
  unfold Resets at hresets
  split at hresets
  · rcases hresets with hpending | hskipped
    · exact hexecution.1 hpending
    · exact hexecution.2 hskipped
  · exact hresets

/-! ### Runs with cancellations -/

variable (planId : String) {kind : Call → Prop}

section

variable {κ : Type*} [DecidableEq κ]

def parties (yaml : Yaml) (planId : String) : Option κ → Async Unit
  | none => executePlan yaml planId
  | some _ => cancelPlan planId

/-- How far the executor has come. -/
def executorStage (planId : String) (log : Trail (Option κ) Answer) : ExecutorStage :=
  (gateProtocol planId).state .idle (projection none log)

def StatusWrite (request : Call) : Prop :=
  match request with
  | .updatePlan _ _ _ => True
  | _ => False

def setCancelled : Event Answer :=
  ⟨.updatePlan planId .cancelled none, .ok ()⟩

def markPending : Event Answer :=
  ⟨.skipPendingSteps planId, .ok ()⟩

/-- The plan as it is stored after a run. -/
abbrev storeAfter (store : PlanStore) (log : Trail (Option κ) Answer) : PlanStore :=
  planSemantics.final store (log.map Prod.snd)

structure Undisturbed (yaml : Yaml) (store : PlanStore)
    (before : Trail (Option κ) Answer) (entry : Option κ × Event Answer) :
    Prop where
  /-- The executor reads the plan as pending only without skipped steps. -/
  gate : entry.1 = none → executorStage store.plan.id before = .idle →
    ∀ read, entry.2 = ⟨.findPlan store.plan.id, .ok read⟩ → read.status = .pending →
      ∀ step ∈ (storeAfter store before).plan.steps, step.status ≠ .skipped
  /-- A cancellation marks only steps that the executor does not start any more. -/
  mark : ∀ canceller, entry = (some canceller, markPending store.plan.id) →
    (executorStage store.plan.id before).PastGate →
      ∀ step ∈ (storeAfter store before).plan.steps, step.status = .pending →
        ¬ (executePlan yaml store.plan.id).CanStill (Starts step.id) (projection none before)
  /-- A cancellation sets the plan to cancelled only when the executor writes no status any more. -/
  set : ∀ canceller, entry = (some canceller, setCancelled store.plan.id) →
    (executorStage store.plan.id before).PastGate →
      ¬ (executePlan yaml store.plan.id).CanStill StatusWrite (projection none before)

variable {canceller : κ}

/-- A cancellation may write as long as the executor is not past the gate. -/
theorem undisturbed_of_not_pastGate {yaml : Yaml} {before : Trail (Option κ) Answer}
    (h : ¬ (executorStage store.plan.id before).PastGate) :
    Undisturbed yaml store before (some canceller, event) :=
  ⟨nofun, fun _ _ hpast ↦ absurd hpast h, fun _ _ hpast ↦ absurd hpast h⟩

/-- A call of `cancelPlan`. -/
def CancelCall (request : Call) : Prop :=
  match request with
  | .findPlan _ => True
  | .skipPendingSteps id => id = planId
  | .updatePlan id status error => id = planId ∧ status = .cancelled ∧ error = none
  | _ => False

theorem avoids_cancelPlan :
    (cancelPlan planId).Avoids fun request ↦ ¬ CancelCall planId request := by
  refine avoids_call (not_not.mpr trivial) fun plan ↦ ?_
  refine Avoids.ite (avoids_throw _) (avoids_call (not_not.mpr rfl) fun _ ↦ ?_)
  exact avoids_perform (not_not.mpr ⟨rfl, rfl, rfl⟩)

variable {yaml : Yaml} {store : PlanStore} {log : Trail (Option κ) Answer}

theorem gateStep_last
    (hrun : Concurrent (parties yaml store.plan.id) planSemantics store (log ++ [(none, event)])) :
    GateStep store.plan.id (executorStage store.plan.id log) event
      (executorStage store.plan.id (log ++ [(none, event)])) := by
  have htraces := hrun.traces none
  rw [projection_concat_self] at htraces
  have haccepts := ((follows_executePlan yaml store.plan.id).sound htraces fun _ _ ↦ trivial).1
  rw [(gateProtocol store.plan.id).accepts_append] at haccepts
  unfold executorStage
  rw [projection_concat_self, (gateProtocol store.plan.id).state_append]
  exact gateStep_advance haccepts.2.1

/-- The executor stays where it is in a step of a cancellation. -/
theorem executorStage_concat_some (canceller : κ) (event : Event Answer) :
    executorStage planId (log ++ [(some canceller, event)]) = executorStage planId log := by
  unfold executorStage
  rw [projection_append, projection_singleton_of_ne (some_ne_none canceller), append_nil]

theorem cancelCall_of_mem (hrun : Concurrent (parties yaml store.plan.id) planSemantics store log)
    (hmem : (some canceller, event) ∈ log) : CancelCall store.plan.id event.call :=
  not_not.mp ((hrun.traces (some canceller)).not_of_avoids (avoids_cancelPlan store.plan.id) event
    (mem_projection_of_mem hmem))

variable {entry : Option κ × Event Answer}

section

variable (hrun : Concurrent (parties yaml store.plan.id) planSemantics store log)

include hrun

/-- No call of a run sets a step back. -/
theorem not_resets_of_mem (hmem : entry ∈ log) : ¬ Resets entry.2.call := by
  obtain ⟨party, request, answer⟩ := entry
  cases party with
  | none =>
    exact (hrun.traces none).not_of_avoids (avoids_resets_executePlan yaml _) _
      (mem_projection_of_mem hmem)
  | some canceller =>
    intro hresets
    have hcall := cancelCall_of_mem hrun hmem
    cases request <;> first | exact hresets | exact hcall

theorem begun_of_mem (hevent : event ∈ log.map Prod.snd)
    (hbegins : Begins store.plan.id stepId event) :
    Begun (storeAfter store log) stepId := by
  obtain ⟨before, after, hsplit, hallows⟩ := hrun.consistent.exists_allows hevent
  have hafter : ∀ later ∈ after, ¬ Resets later.call := by
    intro later hlater
    have hmem : later ∈ log.map Prod.snd := by
      rw [hsplit]
      exact mem_append_right _ (mem_cons_of_mem event hlater)
    obtain ⟨entry, hentry, rfl⟩ := mem_map.mp hmem
    exact not_resets_of_mem hrun hentry
  rw [← id_final store before] at hbegins
  rw [storeAfter, hsplit, planSemantics.final_append]
  exact begun_final (begun_of_begins hallows hbegins) hafter

end

variable {planId : String}

section

variable {stage next : ExecutorStage} (hgate : GateStep planId stage event next)
include hgate

theorem pastGate_before (hpast : next.PastGate) :
    stage.PastGate ∨ stage = .idle ∧ ∃ read, event = ⟨.findPlan planId, .ok read⟩ ∧
      read.status = .pending := by
  cases hgate with
  | read hpending => exact .inr ⟨rfl, _, rfl, hpending⟩
  | refuse => exact absurd hpast (not_or.mpr ⟨nofun, nofun⟩)
  | write | abort => exact .inl (.inl rfl)
  | execute => exact .inl (.inr rfl)

theorem pastGate_of_write (hwrite : StatusWrite event.call ∨ StepStart event.call) :
    stage.PastGate := by
  cases hgate with
  | read | refuse => exact absurd hwrite (not_or.mpr ⟨not_false, not_false⟩)
  | write | abort => exact .inl rfl
  | execute => exact .inr rfl

theorem ne_skip_of_gateStep (id : String) : event.call ≠ .skipPendingSteps id := by
  cases hgate with
  | read | refuse | write | abort => nofun
  | execute hcall =>
    intro hskip
    rw [hskip] at hcall
    exact hcall

end

/-- What holds of the plan and the executor in every state that a run reaches. -/
structure CancellationInvariant (yaml : Yaml) (store : PlanStore)
    (log : Trail (Option κ) Answer) : Prop where
  cancelled : (∃ canceller, (some canceller, setCancelled store.plan.id) ∈ log) →
    (storeAfter store log).plan.status = .cancelled ∧
      ((executorStage store.plan.id log).PastGate →
        ¬ (executePlan yaml store.plan.id).CanStill StatusWrite (projection none log))
  skipped : ∀ step ∈ (storeAfter store log).plan.steps, step.status = .skipped →
    (executorStage store.plan.id log).PastGate →
      ¬ (executePlan yaml store.plan.id).CanStill (Starts step.id) (projection none log)

omit [DecidableEq κ] in
theorem final_concat (store : PlanStore) (log : Trail (Option κ) Answer)
    (entry : Option κ × Event Answer) :
    storeAfter store (log ++ [entry]) = planSemantics.after (storeAfter store log) entry.2 := by
  rw [storeAfter, map_append, planSemantics.final_append]
  rfl

theorem CancellationInvariant.execute (h : CancellationInvariant yaml store log)
    (hrun : Concurrent (parties yaml store.plan.id) planSemantics store (log ++ [(none, event)]))
    (hcondition : Undisturbed yaml store log (none, event)) :
    CancellationInvariant yaml store (log ++ [(none, event)]) := by
  have hgate := gateStep_last hrun
  have htraces := hrun.traces none
  rw [projection_concat_self] at htraces
  have hallows := hrun.allows_last
  have hid := id_final store (log.map Prod.snd)
  constructor
  · rintro ⟨canceller, hmem⟩
    rw [final_concat, projection_concat_self]
    have hbefore : (some canceller, setCancelled store.plan.id) ∈ log := by
      rcases mem_append.mp hmem with hbefore | hlast
      · exact hbefore
      · exact absurd (congrArg Prod.fst (mem_singleton.mp hlast)) (some_ne_none canceller)
    obtain ⟨hstatus, hwrites⟩ := h.cancelled ⟨canceller, hbefore⟩
    constructor
    · rcases status_after (storeAfter store log) event with hsame | ⟨status, error, rfl, -⟩
      · exact hsame.trans hstatus
      · have hpast := pastGate_of_write hgate (.inl trivial)
        exact absurd (htraces.canStill trivial) (hwrites hpast)
    · intro hpast hcan
      rcases pastGate_before hgate hpast with hpastBefore | ⟨-, read, rfl, hpending⟩
      · exact hwrites hpastBefore hcan.of_append
      · have hshows : Shows _ read := hallows hid.symm
        have hcontra := hshows.status.symm.trans hpending
        rw [hstatus] at hcontra
        nomatch hcontra
  · rw [final_concat, projection_concat_self]
    intro step hstep hskipped hpast hcan
    obtain ⟨status, hsteps, hstatus⟩ := steps_after (storeAfter store log) event
    rw [hsteps] at hstep
    obtain ⟨row, hrow, rfl⟩ := mem_map.mp hstep
    have hrowSkipped : row.status = .skipped := by
      rcases hstatus row with hsame | ⟨new, error, rfl, hnew⟩ | ⟨⟨id, rfl⟩, -, -⟩
      · exact hsame.symm.trans hskipped
      · have hresets : Resets (.updateStep row.id new error) := .inr (hnew.symm.trans hskipped)
        exact absurd hresets (not_resets_of_mem hrun (mem_append_right log mem_cons_self))
      · exact absurd rfl (ne_skip_of_gateStep hgate id)
    rcases pastGate_before hgate hpast with hpastBefore | ⟨hidle, read, hread, hpending⟩
    · exact h.skipped row hrow hrowSkipped hpastBefore hcan.of_append
    · exact hcondition.gate rfl hidle read hread hpending row hrow hrowSkipped

theorem CancellationInvariant.cancel (h : CancellationInvariant yaml store log)
    (hrun : Concurrent (parties yaml store.plan.id) planSemantics store
      (log ++ [(some canceller, event)]))
    (hcondition : Undisturbed yaml store log (some canceller, event)) :
    CancellationInvariant yaml store (log ++ [(some canceller, event)]) := by
  have hcall := cancelCall_of_mem hrun (mem_append_right log mem_cons_self)
  have hid := id_final store (log.map Prod.snd)
  constructor
  · rintro ⟨other, hmem⟩
    rw [final_concat, executorStage_concat_some, projection_append,
      projection_singleton_of_ne (some_ne_none canceller), append_nil]
    have hset : event = setCancelled store.plan.id ∨
        (some other, setCancelled store.plan.id) ∈ log := by
      rcases mem_append.mp hmem with hbefore | hlast
      · exact .inr hbefore
      · exact .inl (congrArg Prod.snd (mem_singleton.mp hlast)).symm
    constructor
    · rcases status_after (storeAfter store log) event with hsame | ⟨status, error, rfl, hstatus⟩
      · rcases hset with rfl | hbefore
        · show (if store.plan.id = (storeAfter store log).plan.id
            then (storeAfter store log).setStatus .cancelled
            else storeAfter store log).plan.status = .cancelled
          rw [if_pos hid.symm]
          rfl
        · exact hsame.trans (h.cancelled ⟨other, hbefore⟩).1
      · exact hstatus.trans hcall.2.1
    · intro hpast
      rcases hset with rfl | hbefore
      · exact hcondition.set canceller rfl hpast
      · exact (h.cancelled ⟨other, hbefore⟩).2 hpast
  · rw [final_concat, executorStage_concat_some, projection_append,
      projection_singleton_of_ne (some_ne_none canceller), append_nil]
    intro step hstep hskipped hpast
    obtain ⟨status, hsteps, hstatus⟩ := steps_after (storeAfter store log) event
    rw [hsteps] at hstep
    obtain ⟨row, hrow, rfl⟩ := mem_map.mp hstep
    rcases hstatus row with hsame | ⟨new, error, rfl, hnew⟩ | ⟨⟨id, rfl⟩, hpending, -⟩
    · exact h.skipped row hrow (hsame.symm.trans hskipped) hpast
    · exact absurd hcall not_false
    · obtain rfl : id = store.plan.id := hcall
      exact hcondition.mark canceller rfl hpast row hrow hpending

/-- In every state that a run reaches. -/
theorem cancellationInvariant
    (hrun : Concurrent (parties yaml store.plan.id) planSemantics store log)
    (hcondition : EveryStep (Undisturbed yaml store) log) :
    CancellationInvariant yaml store log := by
  refine hrun.induction (CancellationInvariant yaml store) ?_ ?_ hcondition
  · exact ⟨fun hmem ↦ absurd hmem.choose_spec not_mem_nil,
      fun _ _ _ hpast ↦ absurd hpast (not_or.mpr ⟨nofun, nofun⟩)⟩
  · rintro before ⟨party, event⟩ hrun hstep h
    cases party with
    | none => exact h.execute hrun hstep
    | some canceller => exact h.cancel hrun hstep

/-! ### Marked steps -/

/-- A call of the executor that is preceded by an event, which may depend on the plan as read. -/
theorem exists_opening {opens : PlanWithSteps → Event Answer → Prop}
    (hguarded : ∀ read, (executePending yaml planId read).Guarded (opens read) kind)
    (hfind : ¬ kind (.findPlan planId)) {before : Log}
    (htraces : Traces (executePlan yaml planId) (before ++ [event]) none) (hkind : kind event.call) :
    ∃ read earlier, (⟨.findPlan planId, .ok read⟩ : Event Answer) ∈ before ∧
      earlier ∈ before ∧ opens read earlier := by
  have hfirst : before ≠ [] := by
    rintro rfl
    cases htraces with
    | call answer _ => exact hfind hkind
  rcases exists_of_traces_executePlan htraces with hshort | ⟨read, rest, hlog, -, hrest⟩
  · rw [length_append, length_singleton] at hshort
    exact absurd (length_pos_of_ne_nil hfirst) (by omega)
  · obtain ⟨head, tail, rfl⟩ := exists_cons_of_ne_nil hfirst
    obtain ⟨rfl, rfl⟩ := List.cons.inj hlog
    obtain ⟨earlier, hearlier, hopens⟩ := (hguarded read).sound hrest tail event [] rfl hkind
    exact ⟨read, earlier, mem_cons_self, mem_cons_of_mem _ hearlier, hopens⟩

/-- A skipped step stays skipped, and the executor does not start it. -/
theorem skipped_concat
    (hrun : Concurrent (parties yaml store.plan.id) planSemantics store (log ++ [entry]))
    (h : CancellationInvariant yaml store log)
    (hrow : row ∈ (storeAfter store log).plan.steps)
    (hskipped : row.status = .skipped) :
    row ∈ (storeAfter store (log ++ [entry])).plan.steps ∧
      (entry.1 = none → ¬ Starts row.id entry.2.call) := by
  obtain ⟨party, event⟩ := entry
  have hstart : party = none → ¬ Starts row.id event.call := by
    rintro rfl hstarts
    have htraces := hrun.traces none
    rw [projection_concat_self] at htraces
    have hpast := pastGate_of_write (gateStep_last hrun) (.inr (stepStart_of_starts hstarts))
    exact h.skipped row hrow hskipped hpast (htraces.canStill hstarts)
  refine ⟨?_, hstart⟩
  obtain ⟨status, hsteps, hstatus⟩ := steps_after (storeAfter store log) event
  rw [final_concat, hsteps]
  refine mem_map.mpr ⟨row, hrow, ?_⟩
  rcases hstatus row with hsame | ⟨new, error, rfl, -⟩ | ⟨-, hpending, -⟩
  · rw [hsame]
  · cases party with
    | some canceller =>
      exact absurd (cancelCall_of_mem hrun (mem_append_right log mem_cons_self)) not_false
    | none =>
      have hnew : new ≠ .running := by
        rintro rfl
        exact hstart rfl rfl
      have htraces := hrun.traces none
      rw [projection_concat_self] at htraces
      obtain ⟨-, earlier, -, hearlier, hbegins⟩ := exists_opening
        (fun read ↦ guarded_updates yaml store.plan.id read row.id) not_false htraces ⟨rfl, hnew⟩
      exact absurd hskipped (begun_of_mem hrun.of_append (mem_of_mem_projection hearlier) hbegins
        row hrow rfl).2
  · nomatch hskipped.symm.trans hpending

variable {action : StepAction} {serviceDeploymentId : String}

theorem exists_begun_step (hrun : Concurrent (parties yaml store.plan.id) planSemantics store log)
    {read : PlanWithSteps}
    (hread : (⟨.findPlan store.plan.id, .ok read⟩ : Event Answer) ∈ log.map Prod.snd)
    {step : StepWithDeployment} (hstep : step ∈ read.steps)
    (hacts : ActsOn action serviceDeploymentId step)
    (hbegun : Begun (storeAfter store log) step.id) :
    ∃ row ∈ (storeAfter store log).plan.steps,
      row.action = action ∧ row.serviceDeploymentId = serviceDeploymentId ∧ HasBegun row := by
  obtain ⟨before, after, hsplit, hallows⟩ := hrun.consistent.exists_allows hread
  have hshows : Shows (planSemantics.final store before).plan read :=
    hallows (id_final store before).symm
  have hrow : step.toDeploymentPlanStep ∈ (planSemantics.final store before).plan.steps := by
    rw [← hshows.steps]
    exact mem_map_of_mem hstep
  obtain ⟨status, hfinal⟩ := exists_row_final (_ :: after) hrow
  rw [← planSemantics.final_append, ← hsplit] at hfinal
  obtain ⟨haction, deployment, hpresent, hid⟩ := hacts
  refine ⟨_, hfinal, haction, ?_, hbegun _ hfinal rfl⟩
  exact (hshows.deployments step hstep deployment hpresent).symm.trans hid

structure CancellationFinal (store : PlanStore) (log : Trail (Option κ) Answer) :
    Prop where
  /-- The plan stays cancelled. -/
  status : (∃ canceller, (some canceller, setCancelled store.plan.id) ∈ log) →
    (storeAfter store log).plan.status = .cancelled
  /-- A step that has been marked stays skipped, and is not started. -/
  skipped : ∀ before canceller after,
    log = before ++ (some canceller, markPending store.plan.id) :: after →
      ∀ step ∈ (storeAfter store before).plan.steps, step.status = .pending →
          { step with status := .skipped } ∈ (storeAfter store log).plan.steps ∧
            ∀ event, (none, event) ∈ after → ¬ Starts step.id event.call
  /-- What the executor deploys is the service deployment of a step that has been started, and that
  is not skipped. -/
  deployed : ∀ before event after serviceDeploymentId, log = before ++ (none, event) :: after →
    Deploys serviceDeploymentId event.call →
      ∃ step ∈ (storeAfter store before).plan.steps,
        step.action = .deploy ∧ step.serviceDeploymentId = serviceDeploymentId ∧ HasBegun step
  /-- What the executor checks is the service deployment of a step that has been started, and that
  is not skipped. -/
  checked : ∀ before event after serviceDeploymentId, log = before ++ (none, event) :: after →
    Checks serviceDeploymentId event.call →
      ∃ step ∈ (storeAfter store before).plan.steps,
        step.action = .healthCheck ∧ step.serviceDeploymentId = serviceDeploymentId ∧ HasBegun step

theorem skipped_of_marked {before after : Trail (Option κ) Answer}
    (hrun : Concurrent (parties yaml store.plan.id) planSemantics store
      (before ++ (some canceller, markPending store.plan.id) :: after))
    (hcondition : EveryStep (Undisturbed yaml store)
      (before ++ (some canceller, markPending store.plan.id) :: after))
    {step : DeploymentPlanStep}
    (hstep : step ∈ (storeAfter store before).plan.steps)
    (hpending : step.status = .pending) :
    { step with status := .skipped } ∈ (storeAfter store (before ++ (some canceller,
          markPending store.plan.id) :: after)).plan.steps ∧
      ∀ event, (none, event) ∈ after → ¬ Starts step.id event.call := by
  induction after using List.reverseRecOn with
  | nil =>
    refine ⟨?_, fun event hevent ↦ absurd hevent not_mem_nil⟩
    rw [final_concat]
    show _ ∈ (if store.plan.id = (storeAfter store before).plan.id
      then (storeAfter store before).setStepStatuses PlanStore.skipPending
      else storeAfter store before).plan.steps
    rw [if_pos (id_final store _).symm]
    refine mem_map.mpr ⟨step, hstep, ?_⟩
    unfold PlanStore.skipPending
    rw [if_pos hpending]
  | append_singleton after entry ih =>
    rw [← cons_append, ← append_assoc] at hrun hcondition ⊢
    obtain ⟨hrow, hstarts⟩ := ih hrun.of_append hcondition.of_append
    have hinvariant := cancellationInvariant hrun.of_append hcondition.of_append
    obtain ⟨hlater, hlast⟩ := skipped_concat hrun hinvariant hrow rfl
    refine ⟨hlater, fun event hevent ↦ ?_⟩
    rcases mem_append.mp hevent with hbefore | hsame
    · exact hstarts event hbefore
    · obtain rfl := mem_singleton.mp hsame
      exact hlast rfl

/-- What the executor acts on belongs to a step that has been started. -/
theorem exists_step_of_action (hguarded : ∀ read, (executePending yaml store.plan.id read).Guarded
      (BeginsAction store.plan.id read action serviceDeploymentId) kind)
    (hfind : ¬ kind (.findPlan store.plan.id))
    (hrun : Concurrent (parties yaml store.plan.id) planSemantics store (log ++ [(none, event)]))
    (hkind : kind event.call) : ∃ row ∈ (storeAfter store log).plan.steps,
      row.action = action ∧ row.serviceDeploymentId = serviceDeploymentId ∧ HasBegun row := by
  have htraces := hrun.traces none
  rw [projection_concat_self] at htraces
  obtain ⟨read, earlier, hread, hearlier, hbegins⟩ := exists_opening hguarded hfind htraces hkind
  have hmem := mem_of_mem_projection hearlier
  rcases hbegins with ⟨step, hstep, hacts, rfl⟩ | ⟨later, rfl, step, hstep, hacts, hstatus⟩
  · exact exists_begun_step hrun.of_append (mem_of_mem_projection hread) hstep hacts
      (begun_of_mem hrun.of_append hmem (.inl rfl))
  · exact exists_begun_step hrun.of_append hmem hstep hacts
      (begun_of_mem hrun.of_append hmem (.inr ⟨later, rfl, step, hstep, rfl, hstatus⟩))

/-- A cancellation is final. Assumes: no step of the run sets the executor and a cancellation
against each other. -/
theorem cancellationFinal (yaml : Yaml) (store : PlanStore) (log : Trail (Option κ) Answer)
    (hrun : Concurrent (parties yaml store.plan.id) planSemantics store log)
    (hcondition : EveryStep (Undisturbed yaml store) log) : CancellationFinal store log where
  status hmem := ((cancellationInvariant hrun hcondition).cancelled hmem).1
  skipped before canceller after hsplit step hstep hpending := by
    subst hsplit
    exact skipped_of_marked hrun hcondition hstep hpending
  deployed before event after serviceDeploymentId hsplit hdeploys := by
    rw [hsplit, append_cons] at hrun
    exact exists_step_of_action
      (fun read ↦ guarded_deploys yaml store.plan.id read serviceDeploymentId) not_false
      hrun.of_append hdeploys
  checked before event after serviceDeploymentId hsplit hchecks := by
    rw [hsplit, append_cons] at hrun
    exact exists_step_of_action
      (fun read ↦ guarded_checks yaml store.plan.id read serviceDeploymentId) not_false
      hrun.of_append hchecks

end

def lateCancelLog : List (Option Unit × Event Answer) :=
  [(none, ⟨.findPlan "plan", .ok (readBack pendingPlan.plan)⟩),
    (some (), ⟨.findPlan "plan", .ok (readBack pendingPlan.plan)⟩),
    (some (), markPending "plan"),
    (some (), setCancelled "plan"),
    (none, ⟨.updatePlan "plan" .running none, .ok ()⟩),
    (none, ⟨.updateStep "step-0" .running none, .ok ()⟩)]

def earlyCancelLog : List (Option Unit × Event Answer) :=
  [(some (), ⟨.findPlan "plan", .ok (readBack pendingPlan.plan)⟩),
    (some (), markPending "plan"),
    (some (), setCancelled "plan"),
    (none, ⟨.findPlan "plan", .ok (readBack
      ((pendingPlan.setStepStatuses PlanStore.skipPending).setStatus .cancelled).plan)⟩)]

theorem traces_cancelPlan : Traces (cancelPlan "plan")
    [⟨.findPlan "plan", .ok (readBack pendingPlan.plan)⟩, markPending "plan",
      setCancelled "plan"] none := by
  apply Traces.call
  show Traces (if (readBack pendingPlan.plan).status ≠ .pending ∧
      (readBack pendingPlan.plan).status ≠ .running
    then throw ("Cannot cancel plan with status: " ++ statusText (readBack pendingPlan.plan).status)
    else do
      await (.skipPendingSteps "plan")
      await (.updatePlan "plan" .cancelled none)) _ _
  rw [if_neg fun h ↦ h.1 rfl]
  apply Traces.call
  apply Traces.call
  exact .start _

/-- The executor sets a cancelled plan to running and starts a skipped step. -/
theorem not_cancellationFinal_late :
    Concurrent (parties anyYaml "plan") planSemantics pendingPlan lateCancelLog ∧
      ¬ CancellationFinal pendingPlan lateCancelLog := by
  refine ⟨⟨fun party ↦ ?_, ?_⟩, fun h ↦ ?_⟩
  · cases party with
    | none => exact traces_started
    | some canceller => exact traces_cancelPlan
  · exact ⟨fun _ ↦ shows_readBack _, fun _ ↦ shows_readBack _, trivial, trivial, trivial, trivial,
      trivial⟩
  · have hstatus := h.status ⟨(), by simp [lateCancelLog, pendingPlan]⟩
    nomatch hstatus

/-- A plan that is cancelled before it is executed stays so. -/
theorem cancellationFinal_early : CancellationFinal pendingPlan earlyCancelLog := by
  refine cancellationFinal anyYaml pendingPlan earlyCancelLog ⟨fun party ↦ ?_, ?_⟩ ?_
  · cases party with
    | none =>
      apply Traces.call
      exact .start _
    | some canceller => exact traces_cancelPlan
  · exact ⟨fun _ ↦ shows_readBack _, trivial, trivial, fun _ ↦ shows_readBack _, trivial⟩
  · have hidle : ¬ ExecutorStage.idle.PastGate := not_or.mpr ⟨nofun, nofun⟩
    refine everyStep_of_stepsAfter ⟨undisturbed_of_not_pastGate hidle,
      undisturbed_of_not_pastGate hidle, undisturbed_of_not_pastGate hidle, ⟨?_, nofun, nofun⟩,
      trivial⟩
    rintro - - read hevent hpending
    obtain rfl : readBack _ = read := Except.ok.inj (eq_of_heq (Event.mk.inj hevent).2)
    nomatch hpending

end Bridgeport.Plans
