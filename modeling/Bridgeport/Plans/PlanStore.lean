import Bridgeport.Foundation.Threads
import Bridgeport.Plans.ExecutePlan

/-!
# The stored plan

A plan row with its steps as the database keeps them. `planSemantics` says what the calls of an
execution and of a cancellation read and write: a query of the plan shows the row at that moment, an
update that throws changes nothing.
-/

namespace Bridgeport.Plans

open Foundation Orchestration Deploy Program List

structure PlanStore where
  plan : DeploymentPlan
  /-- The primary key of the steps. -/
  nodup_ids : (plan.steps.map (·.id)).Nodup

namespace PlanStore

def setStepStatus (id : String) (status : StepStatus) (step : DeploymentPlanStep) : StepStatus :=
  if step.id = id then status else step.status

/-- `updateMany` of the pending steps. -/
def skipPending (step : DeploymentPlanStep) : StepStatus :=
  if step.status = .pending then .skipped else step.status

def setStepStatuses (store : PlanStore) (status : DeploymentPlanStep → StepStatus) : PlanStore where
  plan := { store.plan with
    steps := store.plan.steps.map fun step ↦ { step with status := status step } }
  nodup_ids := by
    rw [map_map]
    exact store.nodup_ids

def setStatus (store : PlanStore) (status : PlanStatus) : PlanStore where
  plan := { store.plan with status := status }
  nodup_ids := store.nodup_ids

end PlanStore

/-- A query of the plan returns its row and its steps; the rows that it includes are not fixed. -/
structure Shows (plan : DeploymentPlan) (read : PlanWithSteps) : Prop where
  id : read.id = plan.id
  status : read.status = plan.status
  autoRollback : read.autoRollback = plan.autoRollback
  parallelExecution : read.parallelExecution = plan.parallelExecution
  steps : read.steps.map (·.toDeploymentPlanStep) = plan.steps
  deployments : ∀ step ∈ read.steps, ∀ deployment, step.serviceDeployment = some deployment →
    deployment.id = step.serviceDeploymentId

def readStep (environmentId : String) (step : DeploymentPlanStep) : StepWithDeployment :=
  { step with
    error := none
    service := none
    serviceDeployment := some
      { id := step.serviceDeploymentId
        containerName := "app"
        composePath := none
        server := ⟨"s1", "web1", "10.0.0.1", .ssh, "remote", environmentId⟩
        service := ⟨step.serviceId, "app", "v1", ⟨"app-image", "app", none⟩⟩ } }

def readBack (plan : DeploymentPlan) : PlanWithSteps :=
  { plan with steps := plan.steps.map (readStep plan.environmentId), containerImage := none }

theorem shows_readBack (plan : DeploymentPlan) : Shows plan (readBack plan) where
  id := rfl
  status := rfl
  autoRollback := rfl
  parallelExecution := rfl
  steps := by
    unfold readBack
    rw [map_map]
    exact map_id _
  deployments step hstep deployment hdeployment := by
    obtain ⟨row, -, rfl⟩ := mem_map.mp hstep
    exact Option.some.inj hdeployment ▸ rfl

/-- The stored plan under the calls. -/
def planSemantics : Semantics Answer PlanStore where
  allows store event :=
    match event with
    | ⟨.findPlan id, .ok read⟩ => id = store.plan.id → Shows store.plan read
    | ⟨.findStep id, .ok read⟩ => ∀ step ∈ store.plan.steps, step.id = id →
        read.toDeploymentPlanStep = step
    | ⟨.findServiceDeployment id, .ok row⟩ => row.id = id
    | _ => True
  after store event :=
    match event with
    | ⟨.updatePlan id status _, .ok _⟩ =>
      if id = store.plan.id then store.setStatus status else store
    | ⟨.updateStep id status _, .ok _⟩ => store.setStepStatuses (PlanStore.setStepStatus id status)
    | ⟨.skipPendingSteps id, .ok _⟩ =>
      if id = store.plan.id then store.setStepStatuses PlanStore.skipPending else store
    | _ => store

variable (store : PlanStore) (event : Event Answer)

theorem id_after : (planSemantics.after store event).plan.id = store.plan.id := by
  simp only [planSemantics]
  split
  · split_ifs
    · rfl
    · rfl
  · rfl
  · split_ifs
    · rfl
    · rfl
  · rfl

theorem id_final (log : Log) : (planSemantics.final store log).plan.id = store.plan.id := by
  induction log generalizing store with
  | nil => rfl
  | cons event rest ih => exact (ih _).trans (id_after store event)

/-- The steps that a query returns have different ids. -/
theorem Shows.nodup_ids {store : PlanStore} {read : PlanWithSteps} (h : Shows store.plan read) :
    (read.steps.map (·.id)).Nodup := by
  have hids : read.steps.map (·.id) = store.plan.steps.map (·.id) := by
    rw [← h.steps, map_map]
    rfl
  rw [hids]
  exact store.nodup_ids

theorem status_after : (planSemantics.after store event).plan.status = store.plan.status ∨
      ∃ status error, event = ⟨.updatePlan store.plan.id status error, .ok ()⟩ ∧
        (planSemantics.after store event).plan.status = status := by
  simp only [planSemantics]
  split
  · rename_i id status error _
    by_cases hid : id = store.plan.id
    · rw [if_pos hid, hid]
      exact .inr ⟨status, error, rfl, rfl⟩
    · rw [if_neg hid]
      exact .inl rfl
  · exact .inl rfl
  · split_ifs
    · exact .inl rfl
    · exact .inl rfl
  · exact .inl rfl

/-! ### What an execution calls -/

/-- A plan call that an execution makes after the gate. -/
def ExecutionCall (planId : String) (request : Call) : Prop :=
  match request with
  | .findPlan id => id = planId
  | .updatePlan id status _ =>
    id = planId ∧ (status = .completed ∨ status = .failed ∨ status = .rolledBack)
  | .updateStep _ status _ => status ≠ .pending ∧ status ≠ .skipped
  | .skipPendingSteps _ => False
  | _ => True

/-- Not such a call. -/
def ForeignCall (planId : String) (request : Call) : Prop :=
  ¬ ExecutionCall planId request

variable {planId : String} {request : Call}

theorem planCall_of_foreignCall (h : ForeignCall planId request) : PlanCall request := by
  cases request <;> first | exact trivial | exact absurd trivial h

section

variable (yaml : Yaml) (planId : String)

theorem avoids_foreign (h : ExecutionCall planId request) :
    (await request).Avoids (ForeignCall planId) :=
  avoids_perform (not_not.mpr h)

theorem avoids_foreign_emit (h : ExecutionCall planId request) :
    (emit request : Async Unit).Avoids (ForeignCall planId) :=
  avoids_emit (not_not.mpr h)

theorem avoids_foreign_updateStep (stepId : String) (status : StepStatus) (error : Option String)
    (h : status ≠ .pending ∧ status ≠ .skipped) :
    (await (.updateStep stepId status error)).Avoids (ForeignCall planId) :=
  avoids_foreign planId h

theorem avoids_foreign_deployService (serviceDeploymentId triggeredBy : String)
    (userId : Option String) (options : DeployOptions) :
    (deployService yaml serviceDeploymentId triggeredBy userId options).Avoids
      (ForeignCall planId) :=
  (quiet_deployService yaml serviceDeploymentId triggeredBy userId options).avoids.mono
    fun _ ↦ planCall_of_foreignCall

theorem avoids_foreign_runStep (plan : PlanRow) (step : StepWithDeployment) :
    (runStep yaml plan step).Avoids (ForeignCall planId) := by
  have hsuccess := avoids_foreign_updateStep planId step.id .success none ⟨nofun, nofun⟩
  have hfailed := fun error ↦
    avoids_foreign_updateStep planId step.id .failed error ⟨nofun, nofun⟩
  refine Avoids.bind (avoids_foreign_updateStep planId _ _ _ ⟨nofun, nofun⟩) fun _ ↦ ?_
  refine Avoids.bind ?_ fun _ ↦ avoids_foreign planId trivial
  cases step.action with
  | deploy =>
    show (executeDeployStep yaml step plan).Avoids (ForeignCall planId)
    unfold executeDeployStep
    split
    · refine Avoids.tryCatch ?_ fun message ↦ hfailed _
      exact (avoids_foreign_deployService yaml planId _ _ _ _).bind fun _ ↦
        Avoids.ite hsuccess (hfailed _)
    · exact avoids_throw _
  | healthCheck =>
    show (executeHealthCheckStep step).Avoids (ForeignCall planId)
    unfold executeHealthCheckStep
    split
    · refine Avoids.tryCatch ?_ fun message ↦ hfailed _
      exact Avoids.bind (avoids_foreign planId trivial) fun _ ↦
        Avoids.ite hsuccess (hfailed _)
    · exact avoids_throw _

theorem avoids_foreign_rollbackPlan : (rollbackPlan yaml planId).Avoids (ForeignCall planId) := by
  have hstep : ∀ (plan : PlanRow) (step : StepWithDeployment),
      (rollbackStep yaml plan step).Avoids (ForeignCall planId) := by
    intro plan step
    unfold rollbackStep
    split
    · refine Avoids.tryCatch ?_ fun _ ↦ avoids_pure _
      exact (avoids_foreign_deployService yaml planId _ _ _ _).bind fun _ ↦
        Avoids.when (avoids_foreign_updateStep planId _ _ _ ⟨nofun, nofun⟩)
    · exact avoids_pure _
  have hsteps : ∀ (plan : PlanRow) (steps : List StepWithDeployment),
      (rollbackSteps yaml plan steps).Avoids (ForeignCall planId) := by
    intro plan steps
    induction steps with
    | nil => exact avoids_pure _
    | cons step steps ih => exact (hstep plan step).bind fun _ ↦ ih
  refine Avoids.bind (avoids_foreign planId rfl) fun plan ↦ ?_
  refine (hsteps _ _).bind fun _ ↦ ?_
  refine Avoids.bind (avoids_foreign planId rfl) fun _ ↦ ?_
  refine Avoids.bind (avoids_foreign planId ⟨rfl, .inr (.inr rfl)⟩) fun _ ↦ ?_
  exact Avoids.bind (avoids_foreign_emit planId trivial) fun _ ↦ avoids_foreign planId trivial

variable (plan : PlanWithSteps)

theorem avoids_foreign_endExecution (failedStep : StepWithDeployment) (service : Option Service)
    (error : Option String) :
    (endExecution yaml planId plan failedStep service error).Avoids (ForeignCall planId) := by
  refine Avoids.ite (avoids_foreign_rollbackPlan yaml planId) ?_
  refine Avoids.bind (avoids_foreign planId ⟨rfl, .inr (.inl rfl)⟩) fun _ ↦ ?_
  exact Avoids.bind (avoids_foreign planId trivial) fun _ ↦ avoids_foreign_emit planId trivial

theorem avoids_foreign_runLevels (levels : List (List StepWithDeployment)) :
    (runLevels yaml planId plan levels).Avoids (ForeignCall planId) := by
  induction levels with
  | nil => exact avoids_pure _
  | cons level levels ih =>
    rw [runLevels]
    refine Avoids.ite ih ((avoids_promiseAll fun program hprogram ↦ ?_).bind fun results ↦ ?_)
    · obtain ⟨step, -, rfl⟩ := mem_map.mp hprogram
      exact avoids_foreign_runStep yaml planId _ step
    · split
      · exact (avoids_foreign_endExecution yaml planId plan _ _ _).bind fun _ ↦ avoids_pure _
      · exact ih

theorem avoids_foreign_runSequential (steps : List StepWithDeployment) :
    (runSequential yaml planId plan steps).Avoids (ForeignCall planId) := by
  induction steps with
  | nil => exact avoids_pure _
  | cons step steps ih =>
    rw [runSequential]
    split
    · exact ih
    · refine (avoids_foreign_runStep yaml planId _ step).bind fun updated ↦ Avoids.ite ?_ ih
      exact (avoids_foreign_endExecution yaml planId plan _ _ _).bind fun _ ↦ avoids_pure _

/-- The plan calls of an execution after it has set the plan to running. -/
theorem avoids_runPlan : (runPlan yaml planId plan).Avoids (ForeignCall planId) := by
  refine Avoids.tryCatch (Avoids.bind ?_ fun ended ↦ Avoids.when ?_) fun message ↦ ?_
  · exact Avoids.ite (avoids_foreign_runLevels yaml planId plan _)
      (avoids_foreign_runSequential yaml planId plan _)
  · exact Avoids.bind (avoids_foreign planId ⟨rfl, .inl rfl⟩) fun _ ↦
      avoids_foreign_emit planId trivial
  · refine Avoids.bind (avoids_foreign planId ⟨rfl, .inr (.inl rfl)⟩) fun _ ↦ ?_
    refine Avoids.bind (Avoids.when (avoids_foreign_emit planId trivial)) fun _ ↦ ?_
    exact Avoids.when (avoids_foreign_rollbackPlan yaml planId)

end

/-! ### The status gate -/

/-- How far an executor has come. -/
inductive ExecutorStage
  | idle
  /-- The plan has been read as pending. -/
  | gated
  /-- The plan has been set to running. -/
  | executing
  /-- The plan has been refused, or a call of the gate has thrown. -/
  | stopped

/-- The executor is past the status gate. -/
def ExecutorStage.PastGate (stage : ExecutorStage) : Prop :=
  stage = .gated ∨ stage = .executing

/-- The executor passes the status gate before it works. -/
def gateProtocol (planId : String) : Protocol Answer ExecutorStage where
  permits stage request :=
    match stage with
    | .idle => request = .findPlan planId
    | .gated => request = .updatePlan planId .running none
    | .executing => ExecutionCall planId request
    | .stopped => False
  advance stage event :=
    match stage, event with
    | .idle, ⟨.findPlan _, .ok read⟩ => if read.status = .pending then .gated else .stopped
    | .idle, _ => .stopped
    | .gated, ⟨_, .ok _⟩ => .executing
    | .gated, ⟨_, .error _⟩ => .stopped
    | .executing, _ => .executing
    | .stopped, _ => .stopped
  expects _ := True

inductive GateStep (planId : String) : ExecutorStage → Event Answer → ExecutorStage → Prop
  | read {plan : PlanWithSteps} : plan.status = .pending →
      GateStep planId .idle ⟨.findPlan planId, .ok plan⟩ .gated
  | refuse (answer : Except String PlanWithSteps) :
      (∀ plan, answer = .ok plan → plan.status ≠ .pending) →
      GateStep planId .idle ⟨.findPlan planId, answer⟩ .stopped
  | write : GateStep planId .gated ⟨.updatePlan planId .running none, .ok ()⟩ .executing
  | abort (message : String) :
      GateStep planId .gated ⟨.updatePlan planId .running none, .error message⟩ .stopped
  | execute {event : Event Answer} : ExecutionCall planId event.call →
      GateStep planId .executing event .executing

variable {event : Event Answer} {stage : ExecutorStage}

theorem gateStep_advance (hpermits : (gateProtocol planId).permits stage event.call) :
    GateStep planId stage event ((gateProtocol planId).advance stage event) := by
  obtain ⟨request, answer⟩ := event
  cases stage with
  | idle =>
    obtain rfl : request = .findPlan planId := hpermits
    cases answer with
    | error message => exact .refuse _ nofun
    | ok plan =>
      by_cases hpending : plan.status = .pending
      · show GateStep planId .idle _ (if plan.status = .pending then .gated else .stopped)
        rw [if_pos hpending]
        exact .read hpending
      · show GateStep planId .idle _ (if plan.status = .pending then .gated else .stopped)
        rw [if_neg hpending]
        exact .refuse _ fun other hother ↦ Except.ok.inj hother ▸ hpending
  | gated =>
    obtain rfl : request = .updatePlan planId .running none := hpermits
    cases answer with
    | error message => exact .abort message
    | ok _ => exact .write
  | executing => exact .execute hpermits
  | stopped => exact absurd hpermits not_false

theorem state_executing (planId : String) (log : Log) :
    (gateProtocol planId).state .executing log = .executing := by
  induction log with
  | nil => rfl
  | cons event rest ih => exact ih

theorem neutral_executing (h : ExecutionCall planId request) :
    (gateProtocol planId).Neutral .executing request := by
  intro log
  rw [state_executing]
  exact ⟨h, fun _ ↦ rfl⟩

theorem state_eq_executing {log : Log} (haccepts : (gateProtocol planId).Accepts stage log)
    (hevent : event ∈ log) (hstart : StepStart event.call) :
    (gateProtocol planId).state stage log = .executing := by
  induction log generalizing stage with
  | nil => exact absurd hevent not_mem_nil
  | cons first rest ih =>
    rcases mem_cons.mp hevent with rfl | hrest
    · cases stage with
      | idle =>
        have hcall : event.call = .findPlan planId := haccepts.1
        rw [hcall] at hstart
        exact absurd hstart not_false
      | gated =>
        have hcall : event.call = .updatePlan planId .running none := haccepts.1
        rw [hcall] at hstart
        exact absurd hstart not_false
      | executing => exact state_executing planId rest
      | stopped => exact absurd haccepts.1 not_false
    · exact ih haccepts.2 hrest

theorem follows_executePlan (yaml : Yaml) (planId : String) :
    (executePlan yaml planId).Follows (gateProtocol planId) (fun _ _ ↦ True) .idle := by
  refine follows_perform_bind rfl (fun read _ ↦ Follows.ite (fun _ ↦ trivial) fun hpending ↦ ?_)
    fun _ ↦ trivial
  have hgated : (gateProtocol planId).advance .idle ⟨.findPlan planId, .ok read⟩ = .gated :=
    if_pos (not_not.mp hpending)
  rw [hgated]
  refine follows_perform_bind rfl (fun _ _ ↦ ?_) fun _ ↦ trivial
  refine follows_of_avoids ((avoids_runPlan yaml planId read).mono fun request hrequest ↦ ?_)
    fun _ ↦ trivial
  exact fun hexecution ↦ hrequest (neutral_executing hexecution)

variable {outcome : Option (Except String Unit)}

theorem exists_of_traces_executePlan {yaml : Yaml} {log : Log}
    (htraces : Traces (executePlan yaml planId) log outcome) :
    log.length ≤ 1 ∨ ∃ read rest, log = ⟨.findPlan planId, .ok read⟩ :: rest ∧
      read.status = .pending ∧ Traces (executePending yaml planId read) rest outcome := by
  cases htraces with
  | start => exact .inl (Nat.zero_le 1)
  | @call _ _ _ answer rest _ hrest =>
    cases answer with
    | error message =>
      cases hrest with
      | start | done => exact .inl le_rfl
    | ok read =>
      by_cases hpending : read.status = .pending
      · refine .inr ⟨read, rest, rfl, hpending, ?_⟩
        have hnext : Traces (if read.status ≠ .pending
            then throw ("Plan is already " ++ statusText read.status)
            else executePending yaml planId read) rest outcome := hrest
        rw [if_neg (not_not.mpr hpending)] at hnext
        exact hnext
      · have hnext : Traces (if read.status ≠ .pending
            then throw ("Plan is already " ++ statusText read.status)
            else executePending yaml planId read) rest outcome := hrest
        rw [if_pos hpending] at hnext
        cases hnext with
        | start | done => exact .inl le_rfl

theorem traces_executePlan {yaml : Yaml} {read : PlanWithSteps} (hpending : read.status = .pending)
    {rest : Log} (h : Traces (executePending yaml planId read) rest outcome) :
    Traces (executePlan yaml planId) (⟨.findPlan planId, .ok read⟩ :: rest) outcome := by
  apply Traces.call
  show Traces (if read.status ≠ .pending then throw ("Plan is already " ++ statusText read.status)
    else executePending yaml planId read) rest outcome
  rw [if_neg (not_not.mpr hpending)]
  exact h

end Bridgeport.Plans
