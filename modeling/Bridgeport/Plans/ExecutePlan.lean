import Bridgeport.Deploy.Phases
import Bridgeport.Foundation.ProgramOrder

/-!
# Executing a deployment plan

`executePlan` reads a plan, refuses it unless it is pending, sets it to running and runs its steps:
one after the other, or the steps of one level at a time in parallel. The first failed step ends the
execution with a rollback or with a failed plan. `rollbackPlan` deploys the previous tag of the
steps that were deployed, and `cancelPlan` skips the pending steps of a plan and sets it to
cancelled. In parallel mode a step of a group does not start before the steps of the groups before
it have finished, whatever the groups are (`guarded_runLevels`).

Logs, timestamps and event bus messages are left out.
-/

namespace Bridgeport.Plans

open Foundation Orchestration Deploy Program

/-- The text of a `PLAN_STATUS`. -/
def statusText : PlanStatus → String
  | .pending => "pending"
  | .running => "running"
  | .completed => "completed"
  | .failed => "failed"
  | .cancelled => "cancelled"
  | .rolledBack => "rolled_back"

variable (yaml : Yaml) (step : StepWithDeployment)

def executeDeployStep (plan : PlanRow) : Async Unit :=
  match step.serviceDeployment, decide (step.targetTag ≠ "") with
  | some serviceDeployment, true =>
    tryCatch (do
      let result ← deployService yaml serviceDeployment.id
        (orElse (some plan.triggeredBy) "deployment-plan") plan.userId
        ⟨some step.targetTag, some true, some true, none⟩
      if result.deployment.status = .success then await (.updateStep step.id .success none)
      else await (.updateStep step.id .failed (some "Deployment failed")))
      fun errorMessage ↦ await (.updateStep step.id .failed (some errorMessage))
  | _, _ => throw "Invalid deploy step: missing service deployment or target tag"

def executeHealthCheckStep : Async Unit :=
  match step.serviceDeployment with
  | some serviceDeployment =>
    tryCatch (do
      let result : HealthReport ← await (.verifyServiceHealth serviceDeployment.id)
      if result.healthy then await (.updateStep step.id .success none)
      else await (.updateStep step.id .failed
        (some ("Health check failed after " ++ toString result.attempts ++ " attempts"))))
      fun errorMessage ↦ await (.updateStep step.id .failed (some errorMessage))
  | none => throw "Invalid health check step: missing service deployment"

variable (plan : PlanRow)

/-- What the executor does with one step; returns the step as it is read back. -/
def runStep (step : StepWithDeployment) : Async StepWithDeployment := do
  await (.updateStep step.id .running none)
  (match step.action with
    | .deploy => executeDeployStep yaml step plan
    | .healthCheck => executeHealthCheckStep step)
  await (.findStep step.id)

/-! ### Rollback and cancellation -/

def needsRollback (step : StepWithDeployment) : Bool :=
  step.action = .deploy && step.serviceDeployment.isSome &&
    (step.status = .success || step.status = .running) && truthy step.previousTag

def rollbackStep (step : StepWithDeployment) : Async Unit :=
  match step.serviceDeployment, step.previousTag.filter (· ≠ "") with
  | some serviceDeployment, some previousTag =>
    tryCatch (do
      let result ← deployService yaml serviceDeployment.id "rollback" plan.userId
        ⟨some previousTag, some true, some true, none⟩
      when (result.deployment.status = .success) (await (.updateStep step.id .rolledBack none)))
      fun _ ↦ pure ()
  | _, _ => pure ()

def rollbackSteps (yaml : Yaml) (plan : PlanRow) : List StepWithDeployment → Async Unit
  | [] => pure ()
  | step :: steps => do
    rollbackStep yaml plan step
    rollbackSteps yaml plan steps

def failedService (step : StepWithDeployment) : Option Service :=
  (step.serviceDeployment.map (·.service)).or step.service

def planPayload (status : PlanStatus) : EventPayload :=
  { planId := some plan.id, planName := some plan.name, status := some status }

def failurePayload (plan : PlanWithSteps) (service : Option Service)
    (failedStep : Option StepWithDeployment) : EventPayload :=
  { planName := some plan.name
    serviceName := service.map (·.name)
    serviceId := service.map (·.id)
    imageName := plan.containerImage.map (·.imageName)
    serverName := (failedStep.bind (·.serviceDeployment)).map (·.server.name)
    imageTag := failedStep.map (·.targetTag) }

def rollbackPlan (planId : String) : Async Unit := do
  let plan : PlanWithSteps ← await (.findPlan planId)
  -- the query of the rollback has `orderBy: { order: 'desc' }`
  let steps := plan.steps.reverse
  rollbackSteps yaml plan.toPlanRow (steps.filter needsRollback)
  let _ ← await (.findPlan planId)
  await (.updatePlan planId .rolledBack none)
  let failedStep := steps.find? (·.status = .failed)
  let failedSvc := failedStep.bind failedService
  emit (.emitWebhookEvent .planRolledBack plan.environmentId
    { planPayload plan.toPlanRow .rolledBack with
      serviceName := failedSvc.map (·.name)
      error := failedStep.bind (·.error) })
  await (.sendSystemNotification .deploymentFailed plan.environmentId
    { failurePayload plan failedSvc failedStep with
      error := some "Deployment rolled back due to failure"
      rollback := true })

def cancelPlan (planId : String) : Async Unit := do
  let plan : PlanWithSteps ← await (.findPlan planId)
  if plan.status ≠ .pending ∧ plan.status ≠ .running then
    throw ("Cannot cancel plan with status: " ++ statusText plan.status)
  else do
    await (.skipPendingSteps planId)
    await (.updatePlan planId .cancelled none)

/-! ### The executor -/

/-- A failed step ends the execution. It is given as the snapshot has it, or as it is read back,
with the service and the error that are reported. -/
def endExecution (planId : String) (plan : PlanWithSteps) (failedStep : StepWithDeployment)
    (service : Option Service) (error : Option String) : Async Unit :=
  if plan.autoRollback then rollbackPlan yaml planId
  else do
    await (.updatePlan planId .failed error)
    await (.sendSystemNotification .deploymentFailed plan.environmentId
      { failurePayload plan service (some failedStep) with error := error })
    emit (.emitWebhookEvent .planFailed plan.environmentId
      { planPayload plan.toPlanRow .failed with
        serviceName := service.map (·.name)
        error := error })

variable (steps : List StepWithDeployment)

def groupStepsByLevel : OrderedMap ℕ (List StepWithDeployment) :=
  steps.foldl (fun levels step ↦
    levels.set step.order ((levels.get step.order).getD [] ++ [step])) OrderedMap.empty

def sortedLevels : List (List StepWithDeployment) :=
  let levelGroups := groupStepsByLevel steps
  (levelGroups.keys.mergeSort (· ≤ ·)).map fun level ↦ (levelGroups.get level).getD []

/-- The loop over the levels: whether a failed step has ended the execution. -/
def runLevels (yaml : Yaml) (planId : String) (plan : PlanWithSteps) :
    List (List StepWithDeployment) → Async Bool
  | [] => pure false
  | levelSteps :: levels =>
    let validSteps := levelSteps.filter (·.serviceDeployment.isSome)
    if validSteps.length = 0 then runLevels yaml planId plan levels
    else do
      let results ← promiseAll (validSteps.map (runStep yaml plan.toPlanRow))
      match results.find? (·.status = .failed) with
      | some failedStep => do
        endExecution yaml planId plan failedStep (failedService failedStep) failedStep.error
        pure true
      | none => runLevels yaml planId plan levels

/-- The loop over the steps: whether a failed step has ended the execution. -/
def runSequential (yaml : Yaml) (planId : String) (plan : PlanWithSteps) :
    List StepWithDeployment → Async Bool
  | [] => pure false
  | step :: steps =>
    match step.serviceDeployment with
    | none => runSequential yaml planId plan steps
    | some serviceDeployment => do
      let updatedStep ← runStep yaml plan.toPlanRow step
      if updatedStep.status = .failed then do
        endExecution yaml planId plan step (some serviceDeployment.service) updatedStep.error
        pure true
      else runSequential yaml planId plan steps

/-- The steps of a plan: whether a failed step has ended the execution. -/
def runSteps (yaml : Yaml) (planId : String) (plan : PlanWithSteps) : Async Bool :=
  if plan.parallelExecution then runLevels yaml planId plan (sortedLevels plan.steps)
  else runSequential yaml planId plan plan.steps

def completePlan (planId : String) (plan : PlanWithSteps) : Async Unit := do
  await (.updatePlan planId .completed none)
  emit (.emitWebhookEvent .planCompleted plan.environmentId (planPayload plan.toPlanRow .completed))

/-- The `catch` block. -/
def failPlan (yaml : Yaml) (planId : String) (plan : PlanWithSteps) (errorMessage : String) :
    Async Unit := do
  await (.updatePlan planId .failed (some errorMessage))
  when (¬ plan.autoRollback) (emit (.emitWebhookEvent .planFailed plan.environmentId
    { planPayload plan.toPlanRow .failed with error := some errorMessage }))
  when plan.autoRollback (rollbackPlan yaml planId)

/-- The `try` block and the `catch` block. -/
def runPlan (yaml : Yaml) (planId : String) (plan : PlanWithSteps) : Async Unit :=
  tryCatch (do
    let ended ← runSteps yaml planId plan
    when (¬ ended) (completePlan planId plan))
    (failPlan yaml planId plan)

/-- `executePlan` after the status gate. -/
def executePending (yaml : Yaml) (planId : String) (plan : PlanWithSteps) : Async Unit := do
  await (.updatePlan planId .running none)
  runPlan yaml planId plan

def executePlan (yaml : Yaml) (planId : String) : Async Unit := do
  let plan : PlanWithSteps ← await (.findPlan planId)
  if plan.status ≠ .pending then throw ("Plan is already " ++ statusText plan.status)
  else executePending yaml planId plan

/-! ### The order of the steps of an execution -/

section

open List OrderedMap

def StepStart (request : Call) : Prop :=
  match request with
  | .updateStep _ .running _ => True
  | _ => False

def Starts (stepId : String) (request : Call) : Prop :=
  match request with
  | .updateStep id .running _ => id = stepId
  | _ => False

def Finishes (stepId : String) (event : Event Answer) : Prop :=
  ∃ status error, (status = .success ∨ status = .failed) ∧
    event = ⟨.updateStep stepId status error, .ok ()⟩

variable {stepId : String}

theorem stepStart_of_starts {request : Call} (h : Starts stepId request) : StepStart request := by
  unfold Starts at h
  split at h
  · exact trivial
  · exact h.elim

theorem planCall_of_stepStart {request : Call} (h : StepStart request) : PlanCall request := by
  unfold StepStart at h
  split at h
  · exact trivial
  · exact h.elim

/-! ### What starts no step -/

variable (yaml : Yaml)

theorem avoids_deployService (serviceDeploymentId triggeredBy : String) (userId : Option String)
    (options : DeployOptions) :
    (deployService yaml serviceDeploymentId triggeredBy userId options).Avoids StepStart :=
  (quiet_deployService yaml serviceDeploymentId triggeredBy userId options).avoids.mono
    fun _ ↦ planCall_of_stepStart

theorem avoids_executeDeployStep (step : StepWithDeployment) (plan : PlanRow) :
    (executeDeployStep yaml step plan).Avoids StepStart := by
  unfold executeDeployStep
  split
  · refine Avoids.tryCatch ((avoids_deployService yaml _ _ _ _).bind fun result ↦ ?_)
      fun message ↦ avoids_perform not_false
    exact Avoids.ite (avoids_perform not_false) (avoids_perform not_false)
  · exact avoids_throw _

theorem avoids_executeHealthCheckStep (step : StepWithDeployment) :
    (executeHealthCheckStep step).Avoids StepStart := by
  unfold executeHealthCheckStep
  split
  · refine Avoids.tryCatch (avoids_call not_false fun result ↦ ?_)
      fun message ↦ avoids_perform not_false
    exact Avoids.ite (avoids_perform not_false) (avoids_perform not_false)
  · exact avoids_throw _

variable (plan : PlanRow)

theorem avoids_runStep {step : StepWithDeployment} (h : step.id ≠ stepId) :
    (runStep yaml plan step).Avoids (Starts stepId) := by
  refine avoids_call h fun _ ↦ Avoids.bind ?_ fun _ ↦ avoids_perform not_false
  cases step.action with
  | deploy => exact (avoids_executeDeployStep yaml step plan).mono fun _ ↦ stepStart_of_starts
  | healthCheck => exact (avoids_executeHealthCheckStep step).mono fun _ ↦ stepStart_of_starts

theorem avoids_rollbackStep (step : StepWithDeployment) :
    (rollbackStep yaml plan step).Avoids StepStart := by
  unfold rollbackStep
  split
  · refine Avoids.tryCatch ((avoids_deployService yaml _ _ _ _).bind fun result ↦ ?_)
      fun _ ↦ avoids_pure _
    exact Avoids.when (avoids_perform not_false)
  · exact avoids_pure _

theorem avoids_rollbackSteps (steps : List StepWithDeployment) :
    (rollbackSteps yaml plan steps).Avoids StepStart := by
  induction steps with
  | nil => exact avoids_pure _
  | cons step steps ih => exact (avoids_rollbackStep yaml plan step).bind fun _ ↦ ih

variable (planId : String)

theorem avoids_rollbackPlan : (rollbackPlan yaml planId).Avoids StepStart := by
  refine avoids_call not_false fun plan ↦ ?_
  refine Avoids.bind (avoids_rollbackSteps yaml _ _) fun _ ↦ ?_
  refine avoids_call not_false fun _ ↦ ?_
  refine avoids_call not_false fun _ ↦ ?_
  exact Avoids.bind (avoids_emit not_false) fun _ ↦ avoids_perform not_false

variable (plan : PlanWithSteps)

theorem avoids_endExecution (failedStep : StepWithDeployment) (service : Option Service)
    (error : Option String) :
    (endExecution yaml planId plan failedStep service error).Avoids StepStart := by
  refine Avoids.ite (avoids_rollbackPlan yaml planId) ?_
  refine avoids_call not_false fun _ ↦ ?_
  exact avoids_call not_false fun _ ↦ avoids_emit not_false

theorem avoids_completePlan : (completePlan planId plan).Avoids StepStart :=
  avoids_call not_false fun _ ↦ avoids_emit not_false

theorem avoids_failPlan (errorMessage : String) :
    (failPlan yaml planId plan errorMessage).Avoids StepStart := by
  refine avoids_call not_false fun _ ↦ ?_
  refine Avoids.bind (Avoids.when (avoids_emit not_false)) fun _ ↦ ?_
  exact Avoids.when (avoids_rollbackPlan yaml planId)

theorem passes_updateStep {status : StepStatus} {error : Option String}
    (h : status = .success ∨ status = .failed) :
    (await (.updateStep stepId status error)).Passes (Finishes stepId) :=
  passes_perform fun _ ↦ ⟨status, error, h, rfl⟩

theorem passes_runStep (plan : PlanRow) (step : StepWithDeployment) :
    (runStep yaml plan step).Passes (Finishes step.id) := by
  have hfailed : ∀ error, (await (.updateStep step.id .failed error)).Passes (Finishes step.id) :=
    fun error ↦ passes_updateStep (.inr rfl)
  have hsuccess : (await (.updateStep step.id .success none)).Passes (Finishes step.id) :=
    passes_updateStep (.inl rfl)
  refine Passes.bind_right fun _ ↦ Passes.bind_left ?_
  cases step.action with
  | deploy =>
    show (executeDeployStep yaml step plan).Passes (Finishes step.id)
    unfold executeDeployStep
    split
    · exact Passes.tryCatch (Passes.bind_right fun result ↦ Passes.ite hsuccess (hfailed _))
        fun message ↦ hfailed _
    · exact passes_throw _
  | healthCheck =>
    show (executeHealthCheckStep step).Passes (Finishes step.id)
    unfold executeHealthCheckStep
    split
    · exact Passes.tryCatch (Passes.bind_right fun result ↦ Passes.ite hsuccess (hfailed _))
        fun message ↦ hfailed _
    · exact passes_throw _

theorem flatten_sortedLevels_perm (steps : List StepWithDeployment) :
    (sortedLevels steps).flatten.Perm steps := by
  have hkeys : (sortedLevels steps).Perm ((groupStepsByLevel steps).entries.map Prod.snd) := by
    rw [← map_getD_keys _ []]
    exact (mergeSort_perm _ _).map _
  refine hkeys.flatten.trans ?_
  rw [← flatMap_def]
  exact flatMap_groupBy_perm (·.order) steps

def validSteps (levelSteps : List StepWithDeployment) : List StepWithDeployment :=
  levelSteps.filter (·.serviceDeployment.isSome)

/-- A step of a group does not start before the steps of the groups before it have finished. -/
theorem guarded_runLevels {earlier : StepWithDeployment} {laterId : String}
    (levels : List (List StepWithDeployment))
    (h : ∀ before level after, levels = before ++ level :: after →
      laterId ∈ (validSteps level).map (·.id) → ∃ first ∈ before, earlier ∈ validSteps first) :
    (runLevels yaml planId plan levels).Guarded (Finishes earlier.id) (Starts laterId) := by
  induction levels with
  | nil => exact trivial
  | cons level levels ih =>
    have hnone : ∀ step ∈ validSteps level, step.id ≠ laterId := by
      intro step hstep hid
      obtain ⟨first, hfirst, -⟩ := h [] level levels rfl (hid ▸ mem_map_of_mem hstep)
      exact absurd hfirst not_mem_nil
    have hrest : earlier ∈ validSteps level ∨
        (runLevels yaml planId plan levels).Guarded (Finishes earlier.id) (Starts laterId) := by
      by_cases hearlier : earlier ∈ validSteps level
      · exact .inl hearlier
      · refine .inr (ih fun before other after hsplit hlater ↦ ?_)
        obtain ⟨first, hfirst, hmem⟩ := h (level :: before) other after (by rw [hsplit]; rfl) hlater
        rcases mem_cons.mp hfirst with hsame | hbefore
        · exact absurd (hsame ▸ hmem) hearlier
        · exact ⟨first, hbefore, hmem⟩
    rw [runLevels]
    split_ifs with hempty
    · refine hrest.resolve_left fun hearlier ↦ ?_
      have hnil : validSteps level = [] := length_eq_zero_iff.mp hempty
      rw [hnil] at hearlier
      exact absurd hearlier not_mem_nil
    · refine Guarded.bind ?_ fun results ↦ ?_
      · refine (avoids_promiseAll fun program hprogram ↦ ?_).guarded
        obtain ⟨step, hstep, rfl⟩ := mem_map.mp hprogram
        exact avoids_runStep yaml _ (hnone step hstep)
      · rcases hrest with hearlier | hguarded
        · exact .inl (passes_promiseAll (mem_map_of_mem hearlier) (passes_runStep yaml _ _))
        · refine .inr ?_
          split
          · refine Guarded.bind ?_ fun _ ↦ .inr trivial
            exact ((avoids_endExecution yaml _ _ _ _ _).mono fun _ ↦ stepStart_of_starts).guarded
          · exact hguarded

end

end Bridgeport.Plans
