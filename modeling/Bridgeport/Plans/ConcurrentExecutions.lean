import Bridgeport.Deploy.Outcome
import Bridgeport.Plans.PlanStore

/-!
# Concurrent executions of a plan

Any number of `executePlan` calls run on one plan. The status gate reads the plan and sets it to
running later, so that two executors can both read it as pending. `atMostOneExecution` says that
this is the only way to fail: when no executor reads the plan as pending while another one stands
between its own read and write, at most one executor is past the gate and every step is started at
most once.
-/

namespace Bridgeport.Plans

open Foundation Orchestration Deploy Program List Function

/-! ### How often an execution starts a step -/

def countId (stepId : String) (steps : List StepWithDeployment) : ℕ :=
  (steps.map (·.id)).count stepId

theorem countId_cons (stepId : String) (step : StepWithDeployment)
    (steps : List StepWithDeployment) :
    countId stepId (step :: steps) =
      (if step.id = stepId then 1 else 0) + countId stepId steps := by
  unfold countId
  rw [map_cons, count_cons, Nat.add_comm]
  simp only [beq_iff_eq]

theorem countId_append (stepId : String) (first second : List StepWithDeployment) :
    countId stepId (first ++ second) = countId stepId first + countId stepId second := by
  unfold countId
  rw [map_append, count_append]

theorem sum_map_eq_countId (stepId : String) (steps : List StepWithDeployment) :
    (steps.map fun step ↦ if step.id = stepId then 1 else 0).sum = countId stepId steps := by
  induction steps with
  | nil => rfl
  | cons step steps ih => rw [map_cons, sum_cons, ih, countId_cons]

section

open scoped Classical

variable (yaml : Yaml) (planId : String) (plan : PlanWithSteps) (stepId : String)

theorem atMost_of_avoids_stepStart {α : Type} {program : Async α} (h : program.Avoids StepStart) :
    program.AtMost (Starts stepId) 0 :=
  (h.mono fun _ ↦ stepStart_of_starts).atMost

theorem atMost_runStep (row : PlanRow) (step : StepWithDeployment) :
    (runStep yaml row step).AtMost (Starts stepId) (if step.id = stepId then 1 else 0) := by
  by_cases hid : step.id = stepId
  · rw [if_pos hid]
    have hstart : (await (.updateStep step.id .running none)).AtMost (Starts stepId) 1 := by
      refine ⟨0, ?_, fun _ ↦ trivial⟩
      split_ifs
      · exact le_rfl
      · exact Nat.zero_le 1
    refine hstart.bind fun _ ↦ atMost_of_avoids_stepStart stepId (Avoids.bind ?_ fun _ ↦ ?_)
    · cases step.action with
      | deploy => exact avoids_executeDeployStep yaml step row
      | healthCheck => exact avoids_executeHealthCheckStep step
    · exact avoids_perform not_false
  · rw [if_neg hid]
    exact (avoids_runStep yaml row hid).atMost

theorem atMost_runLevels (levels : List (List StepWithDeployment)) :
    (runLevels yaml planId plan levels).AtMost (Starts stepId)
      (countId stepId (levels.flatMap validSteps)) := by
  induction levels with
  | nil => exact trivial
  | cons level levels ih =>
    rw [runLevels, flatMap_cons, countId_append]
    refine AtMost.ite (ih.mono (Nat.le_add_left _ _)) (AtMost.bind ?_ fun results ↦ ?_)
    · rw [← sum_map_eq_countId]
      exact atMost_promiseAll _ _ _ fun step _ ↦ atMost_runStep yaml stepId _ step
    · split
      · refine (atMost_of_avoids_stepStart stepId ?_).mono (Nat.zero_le _)
        exact (avoids_endExecution yaml planId plan _ _ _).bind fun _ ↦ avoids_pure _
      · exact ih

theorem atMost_runSequential (steps : List StepWithDeployment) :
    (runSequential yaml planId plan steps).AtMost (Starts stepId) (countId stepId steps) := by
  induction steps with
  | nil => exact trivial
  | cons step steps ih =>
    rw [runSequential, countId_cons]
    split
    · exact ih.mono (Nat.le_add_left _ _)
    · refine (atMost_runStep yaml stepId _ step).bind fun updated ↦ AtMost.ite ?_ ih
      refine (atMost_of_avoids_stepStart stepId ?_).mono (Nat.zero_le _)
      exact (avoids_endExecution yaml planId plan _ _ _).bind fun _ ↦ avoids_pure _

theorem atMost_executePending :
    (executePending yaml planId plan).AtMost (Starts stepId) (countId stepId plan.steps) := by
  have hsteps : (runSteps yaml planId plan).AtMost (Starts stepId) (countId stepId plan.steps) := by
    refine AtMost.ite ((atMost_runLevels yaml planId plan stepId _).mono ?_)
      (atMost_runSequential yaml planId plan stepId _)
    have hsublist : ((sortedLevels plan.steps).flatMap validSteps).Sublist
        (sortedLevels plan.steps).flatten := by
      rw [flatten_eq_flatMap]
      exact List.Sublist.flatMap_right _ fun level _ ↦ filter_sublist
    refine (List.Sublist.count_le stepId (hsublist.map _)).trans ?_
    exact le_of_eq (((flatten_sortedLevels_perm plan.steps).map _).count_eq stepId)
  have hupdate : (await (.updatePlan planId .running none)).AtMost (Starts stepId) 0 :=
    atMost_of_avoids_stepStart stepId (avoids_perform not_false)
  have hcomplete : ∀ ended : Bool,
      (when (¬ ended) (completePlan planId plan)).AtMost (Starts stepId) 0 :=
    fun ended ↦ atMost_of_avoids_stepStart stepId (Avoids.when (avoids_completePlan planId plan))
  have hpending := hupdate.bind fun _ ↦ (hsteps.bind hcomplete).tryCatch fun message ↦
    atMost_of_avoids_stepStart stepId (avoids_failPlan yaml planId plan message)
  rw [Nat.zero_add] at hpending
  exact hpending

end

/-! ### The gate -/

section

variable {ι : Type*} [DecidableEq ι]

/-- How far the executors have come. -/
def stages (planId : String) (log : Trail ι Answer) : ι → ExecutorStage :=
  (gateProtocol planId).states (fun _ ↦ .idle) log

/-- The step is not an executor's reading the plan as pending while another executor stands between
its own read and write. -/
def NoReadBehindGate (planId : String) (before : Trail ι Answer)
    (entry : ι × Event Answer) : Prop :=
  ∀ read, stages planId before entry.1 = .idle → entry.2 = ⟨.findPlan planId, .ok read⟩ →
    read.status = .pending → ∀ other, stages planId before other ≠ .gated

/-- At most one executor is past the gate, and none is in an execution of a pending plan. -/
structure GateInvariant (planId : String) (store : PlanStore) (stages : ι → ExecutorStage) :
    Prop where
  id : store.plan.id = planId
  unique : ∀ first second, (stages first).PastGate → (stages second).PastGate → first = second
  closed : ∀ thread, stages thread = .executing → store.plan.status ≠ .pending

/-- Another executor passes the gate only when none is past it. -/
theorem unique_update {stages : ι → ExecutorStage}
    (hunique : ∀ first second, (stages first).PastGate → (stages second).PastGate →
      first = second) {thread : ι} {stage : ExecutorStage}
    (hstage : stage.PastGate → (stages thread).PastGate ∨ ∀ other, ¬ (stages other).PastGate) :
    ∀ first second, (Function.update stages thread stage first).PastGate →
      (Function.update stages thread stage second).PastGate → first = second := by
  have hother : ∀ other, (Function.update stages thread stage other).PastGate →
      other = thread ∨ (stages other).PastGate := by
    intro other hpast
    by_cases hsame : other = thread
    · exact .inl hsame
    · rw [update_of_ne hsame] at hpast
      exact .inr hpast
  have hthread : ∀ other, (Function.update stages thread stage thread).PastGate →
      (stages other).PastGate → thread = other := by
    intro other hpast hotherPast
    rw [update_self] at hpast
    rcases hstage hpast with hbefore | hnone
    · exact hunique thread other hbefore hotherPast
    · exact absurd hotherPast (hnone other)
  intro first second hfirst hsecond
  rcases hother first hfirst with rfl | hfirstBefore
  · rcases hother second hsecond with rfl | hsecondBefore
    · rfl
    · exact hthread second hfirst hsecondBefore
  · rcases hother second hsecond with rfl | hsecondBefore
    · exact (hthread first hsecond hfirstBefore).symm
    · exact hunique first second hfirstBefore hsecondBefore

variable {store : PlanStore}

theorem GateInvariant.step {planId : String} {stages : ι → ExecutorStage} {thread : ι}
    {event : Event Answer} (h : GateInvariant planId store stages)
    (hpermits : (gateProtocol planId).permits (stages thread) event.call)
    (hallows : planSemantics.allows store event)
    (hcondition : ∀ read, stages thread = .idle → event = ⟨.findPlan planId, .ok read⟩ →
      read.status = .pending → ∀ other, stages other ≠ .gated) :
    GateInvariant planId (planSemantics.after store event)
      (Function.update stages thread ((gateProtocol planId).advance (stages thread) event)) := by
  have hid : (planSemantics.after store event).plan.id = planId := (id_after store event).trans h.id
  generalize hnext : (gateProtocol planId).advance (stages thread) event = next
  have hgate := gateStep_advance hpermits
  rw [hnext] at hgate
  generalize hstage : stages thread = stage at hgate hcondition
  -- the executors that are executing afterwards
  have hclosed : ∀ other, Function.update stages thread next other = .executing →
      next = .executing ∨ stages other = .executing := by
    intro other hother
    by_cases hsame : other = thread
    · rw [hsame, update_self] at hother
      exact .inl hother
    · rw [update_of_ne hsame] at hother
      exact .inr hother
  cases hgate with
  | read hpending =>
    have hstore : store.plan.status = .pending :=
      (hallows h.id.symm).status.symm.trans hpending
    refine ⟨hid, unique_update h.unique fun _ ↦ .inr fun other hpast ↦ ?_, fun other hother ↦ ?_⟩
    · rcases hpast with hgated | hexecuting
      · exact hcondition _ rfl rfl hpending other hgated
      · exact h.closed other hexecuting hstore
    · exact h.closed other ((hclosed other hother).resolve_left nofun)
  | refuse _ _ | abort _ =>
    refine ⟨hid, unique_update h.unique fun hpast ↦ ?_, fun other hother ↦ ?_⟩
    · exact absurd hpast (not_or.mpr ⟨nofun, nofun⟩)
    · exact h.closed other ((hclosed other hother).resolve_left nofun)
  | write =>
    refine ⟨hid, unique_update h.unique fun _ ↦ .inl (.inl hstage), fun other _ ↦ ?_⟩
    show (if planId = store.plan.id then store.setStatus .running else store).plan.status ≠ _
    rw [if_pos h.id.symm]
    nofun
  | execute hcall =>
    refine ⟨hid, unique_update h.unique fun _ ↦ .inl (.inr hstage), fun other _ ↦ ?_⟩
    rcases status_after store event with hsame | ⟨status, error, rfl, hstatus⟩
    · rw [hsame]
      exact h.closed thread hstage
    · rw [hstatus]
      rcases hcall.2 with rfl | rfl | rfl
      · nofun
      · nofun
      · nofun

open scoped Classical in
theorem countP_starts_le {yaml : Yaml} {log : Trail ι Answer}
    (hrun : Concurrent (fun _ : ι ↦ executePlan yaml store.plan.id) planSemantics store log)
    (thread : ι) (stepId : String) :
    (projection thread log).countP (fun event ↦ Starts stepId event.call) ≤ 1 := by
  rcases exists_of_traces_executePlan (hrun.traces thread) with hshort |
    ⟨read, rest, hlog, -, hrest⟩
  · exact countP_le_length.trans hshort
  · have hmem : (⟨.findPlan store.plan.id, .ok read⟩ : Event Answer) ∈ projection thread log := by
      rw [hlog]
      exact mem_cons_self
    obtain ⟨before, after, -, hallows⟩ :=
      hrun.consistent.exists_allows (mem_of_mem_projection hmem)
    have hshows : Shows (planSemantics.final store before).plan read :=
      hallows (id_final store before).symm
    have hfirst : decide (Starts stepId (.findPlan store.plan.id)) = false :=
      decide_eq_false not_false
    rw [hlog, countP_cons, hfirst]
    refine (hrest.countP_le (atMost_executePending yaml store.plan.id read stepId)).trans ?_
    exact nodup_iff_count_le_one.mp hshows.nodup_ids stepId

open scoped Classical in
/-- At most one executor is past the status gate, and every step has been started at most once. -/
def AtMostOneExecution (planId : String) (log : Trail ι Answer) : Prop :=
  (∀ first second, (stages planId log first).PastGate → (stages planId log second).PastGate →
    first = second) ∧
  ∀ stepId, (log.map Prod.snd).countP (fun event ↦ Starts stepId event.call) ≤ 1

open scoped Classical in
/-- At most one executor gets past the status gate, and every step is started at most once. Assumes:
no executor reads the plan as pending between the read and the write of another one. -/
theorem atMostOneExecution (yaml : Yaml) (store : PlanStore) (log : Trail ι Answer)
    (hrun : Concurrent (fun _ : ι ↦ executePlan yaml store.plan.id) planSemantics store log)
    (hcondition : EveryStep (NoReadBehindGate store.plan.id) log) :
    AtMostOneExecution store.plan.id log := by
  have hfollows := fun _ : ι ↦ follows_executePlan yaml store.plan.id
  have hinitial : GateInvariant store.plan.id store fun _ : ι ↦ .idle :=
    ⟨rfl, fun _ _ hpast ↦ absurd hpast (not_or.mpr ⟨nofun, nofun⟩), fun _ ↦ nofun⟩
  have hinvariant := hrun.invariant hfollows (GateInvariant store.plan.id)
    (fun _ stages thread event ↦ ∀ read, stages thread = .idle →
      event = ⟨.findPlan store.plan.id, .ok read⟩ → read.status = .pending →
        ∀ other, stages other ≠ .gated) hinitial
    (fun _ _ _ _ h hpermits hallows hstep ↦ h.step hpermits hallows hstep)
    (fun _ _ ↦ trivial) hcondition
  refine ⟨hinvariant.unique, fun stepId ↦ ?_⟩
  have hexecuting : ∀ entry ∈ log, StepStart entry.2.call →
      stages store.plan.id log entry.1 = .executing := by
    intro entry hentry hstart
    have haccepts := ((hfollows entry.1).sound (hrun.traces entry.1) fun _ _ ↦ trivial).1
    exact state_eq_executing haccepts (mem_projection_of_mem hentry) hstart
  by_cases hstarted : ∃ entry ∈ log, Starts stepId entry.2.call
  · obtain ⟨entry, hentry, hstart⟩ := hstarted
    have hpast : (stages store.plan.id log entry.1).PastGate :=
      .inr (hexecuting entry hentry (stepStart_of_starts hstart))
    rw [countP_map_snd fun other hother hholds ↦ hinvariant.unique other.1 entry.1
      (.inr (hexecuting other hother (stepStart_of_starts (of_decide_eq_true hholds)))) hpast]
    exact countP_starts_le hrun entry.1 stepId
  · have hnone : (log.map Prod.snd).countP (fun event ↦ Starts stepId event.call) = 0 := by
      refine countP_eq_zero.mpr fun event hevent hholds ↦ ?_
      obtain ⟨entry, hentry, rfl⟩ := mem_map.mp hevent
      exact hstarted ⟨entry, hentry, of_decide_eq_true hholds⟩
    rw [hnone]
    exact Nat.zero_le 1

end

/-! ### Two executors -/

def pendingPlan : PlanStore where
  plan :=
    { id := "plan"
      name := "Deploy v2"
      status := .pending
      imageTag := "v2"
      triggerType := .manual
      triggeredBy := "operator"
      autoRollback := false
      parallelExecution := false
      environmentId := "production"
      containerImageId := none
      userId := none
      steps := [⟨"step-0", "plan", "api", "api-1", 0, .deploy, "v2", some "v1", .pending⟩] }
  nodup_ids := nodup_singleton _

/-- Both executors read the plan before one of them has set it to running. -/
def raceLog : Trail Bool Answer :=
  let read : Event Answer := ⟨.findPlan "plan", .ok (readBack pendingPlan.plan)⟩
  let write : Event Answer := ⟨.updatePlan "plan" .running none, .ok ()⟩
  let start : Event Answer := ⟨.updateStep "step-0" .running none, .ok ()⟩
  [(false, read), (true, read), (false, write), (true, write), (false, start), (true, start)]

/-- One executor after the other: the second one finds the plan running. -/
def inTurnLog : Trail Bool Answer :=
  [(false, ⟨.findPlan "plan", .ok (readBack pendingPlan.plan)⟩),
    (false, ⟨.updatePlan "plan" .running none, .ok ()⟩),
    (false, ⟨.updateStep "step-0" .running none, .ok ()⟩),
    (true, ⟨.findPlan "plan", .ok (readBack
      ((pendingPlan.setStatus .running).setStepStatuses
        (PlanStore.setStepStatus "step-0" .running)).plan)⟩)]

theorem traces_started : Traces (executePlan anyYaml "plan")
    [⟨.findPlan "plan", .ok (readBack pendingPlan.plan)⟩,
      ⟨.updatePlan "plan" .running none, .ok ()⟩,
      ⟨.updateStep "step-0" .running none, .ok ()⟩] none := by
  apply traces_executePlan rfl
  apply Traces.call
  apply Traces.call
  exact .start _

/-- Both executors start the step. -/
theorem not_atMostOneExecution_race :
    Concurrent (fun _ ↦ executePlan anyYaml "plan") planSemantics pendingPlan raceLog ∧
      ¬ AtMostOneExecution "plan" raceLog := by
  refine ⟨⟨fun thread ↦ ?_, ?_⟩, fun h ↦ ?_⟩
  · cases thread with
    | false | true => exact traces_started
  · exact ⟨fun _ ↦ shows_readBack _, fun _ ↦ shows_readBack _, trivial, trivial, trivial, trivial,
      trivial⟩
  · exact Bool.noConfusion (h.1 false true (.inr rfl) (.inr rfl))

theorem atMostOneExecution_inTurn : AtMostOneExecution "plan" inTurnLog := by
  refine atMostOneExecution anyYaml pendingPlan inTurnLog ⟨fun thread ↦ ?_, ?_⟩ ?_
  · cases thread with
    | false => exact traces_started
    | true => exact .call _ (.start _)
  · exact ⟨fun _ ↦ shows_readBack _, trivial, trivial, fun _ ↦ shows_readBack _, trivial⟩
  · refine everyStep_of_stepsAfter ⟨fun _ _ _ _ _ ↦ nofun, ?_, ?_, ?_, trivial⟩
    · exact fun _ _ hevent ↦ nomatch hevent
    · exact fun _ _ hevent ↦ nomatch hevent
    · rintro read - hevent hpending
      obtain rfl : readBack _ = read := Except.ok.inj (eq_of_heq (Event.mk.inj hevent).2)
      nofun

end Bridgeport.Plans
