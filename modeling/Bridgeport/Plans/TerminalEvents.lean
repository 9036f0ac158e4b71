import Bridgeport.Deploy.Outcome
import Bridgeport.Notifications.NotificationQueue
import Bridgeport.Plans.StepCauses

/-!
# The terminal event of an execution

A `PlanRecord` is what an execution leaves behind of its plan: the status, and the terminal webhook
events. The exits of `executePlan` share a `try` block, so that an exception behind a status write
starts another exit. `Settled` is what makes this harmless: an exit that throws has emitted nothing,
because behind the event there is only a notification, and a notification is only enqueued.

`oneTerminalEvent` holds of every run that ends normally, with any outcomes of its steps and with
any other call throwing at any point.
-/

namespace Bridgeport.Plans

open Foundation Orchestration Deploy Program

/-! ### What an execution leaves behind -/

def announcedStatus : WebhookEvent → Option PlanStatus
  | .planCompleted => some .completed
  | .planFailed => some .failed
  | .planRolledBack => some .rolledBack
  | .deploymentCompleted => none
  | .deploymentFailed => none

/-- The status of the plan and the terminal events so far. -/
structure PlanRecord where
  status : PlanStatus
  events : List WebhookEvent

/-- The record after a call. An update that throws changes nothing; an event is not awaited. -/
def PlanRecord.after (record : PlanRecord) (event : Event Answer) : PlanRecord :=
  match event with
  | ⟨.updatePlan _ status _, .ok _⟩ => { record with status := status }
  | ⟨.emitWebhookEvent webhook _ _, _⟩ =>
    if (announcedStatus webhook).isSome then { record with events := record.events ++ [webhook] }
    else record
  | _ => record

def recordOf (status : PlanStatus) (log : Log) : PlanRecord :=
  log.foldl PlanRecord.after ⟨status, []⟩

/-- A notification is answered as the queue answers it; any other call may throw. -/
def AnsweredByQueue (event : Event Answer) : Prop :=
  match event with
  | ⟨.sendSystemNotification type environmentId payload, answer⟩ =>
    ∃ (queue : Notifications.NotificationQueue NotificationType EventPayload) (id : String) (now : ℕ),
      answer = (Notifications.sendSystemNotification queue id now type (some environmentId)
        payload).map fun _ ↦ ()
  | _ => True

/-- Exactly one terminal event has been emitted, and it announces the status of the plan. -/
def OneTerminalEvent (record : PlanRecord) : Prop :=
  ∃ event, record.events = [event] ∧ announcedStatus event = some record.status

/-! ### What leaves the record alone -/

/-- The calls that change the record. -/
def RecordCall (request : Call) : Prop :=
  match request with
  | .updatePlan _ _ _ => True
  | .emitWebhookEvent webhook _ _ => (announcedStatus webhook).isSome
  | _ => False

def recordProtocol : Protocol Answer PlanRecord where
  permits _ _ := True
  advance := PlanRecord.after
  expects := AnsweredByQueue

theorem neutral_of_not_recordCall {record : PlanRecord} {request : Call}
    (h : ¬ RecordCall request) : recordProtocol.Neutral record request := by
  intro log
  refine ⟨trivial, fun answer ↦ ?_⟩
  cases request with
  | updatePlan id status error => exact absurd trivial h
  | emitWebhookEvent webhook environmentId payload => exact if_neg h
  | _ => rfl

theorem settlingCall_of_recordCall {request : Call} (h : RecordCall request) :
    SettlingCall request := by
  unfold RecordCall at h
  split at h
  · exact trivial
  · exact trivial
  · exact h.elim

theorem outsideDeployment_recordCall : OutsideDeployment RecordCall where
  settling _ := settlingCall_of_recordCall
  updateDeployment _ _ _ := not_false
  createContainerImageHistory _ := not_false
  findImageDigest _ := not_false
  sendSystemNotification _ _ _ := not_false
  deploymentCompleted _ _ := nofun
  deploymentFailed _ _ := nofun

/-- A deployment neither changes the plan nor announces it. -/
theorem avoids_recordCall_deployService (yaml : Yaml) (serviceDeploymentId triggeredBy : String)
    (userId : Option String) (options : DeployOptions) :
    (deployService yaml serviceDeploymentId triggeredBy userId options).Avoids RecordCall :=
  avoids_deployService_of outsideDeployment_recordCall yaml _ _ _ _ fun _ _ ↦ not_false

theorem avoids_recordCall_runStep (yaml : Yaml) (plan : PlanRow) (step : StepWithDeployment) :
    (runStep yaml plan step).Avoids RecordCall := by
  refine avoids_call not_false fun _ ↦
    Avoids.bind (?_ : (stepBody yaml plan step).Avoids RecordCall) fun _ ↦ avoids_perform not_false
  unfold stepBody
  split
  · exact avoids_deployBody yaml plan step
      (fun _ _ _ _ ↦ avoids_recordCall_deployService yaml _ _ _ _) fun _ _ _ ↦ not_false
  · exact avoids_checkBody step (fun _ _ _ ↦ not_false) fun _ _ ↦ not_false

theorem avoids_recordCall_rollbackSteps (yaml : Yaml) (plan : PlanRow)
    (steps : List StepWithDeployment) : (rollbackSteps yaml plan steps).Avoids RecordCall := by
  induction steps with
  | nil => exact avoids_pure _
  | cons step steps ih =>
    refine Avoids.bind ?_ fun _ ↦ ih
    exact avoids_rollbackBody yaml plan step
      (fun _ _ _ _ ↦ avoids_recordCall_deployService yaml _ _ _ _) fun _ _ _ ↦ not_false

/-! ### The exits -/

/-- An exit: once it has ended there is one event, and when it throws there is none. -/
def Settled {α : Type} (result : Except String α) (record : PlanRecord) : Prop :=
  match result with
  | .ok _ => OneTerminalEvent record
  | .error _ => record.events = []

/-- The steps: a failed step has led to an exit, and nothing else has been announced. -/
def EndedOrUnannounced (result : Except String Bool) (record : PlanRecord) : Prop :=
  match result with
  | .ok true => OneTerminalEvent record
  | .ok false | .error _ => record.events = []

theorem follows_bind_of_avoids {α β : Type} {program : Async α} {next : α → Async β}
    {post : Except String β → PlanRecord → Prop} {record : PlanRecord}
    (hprogram : program.Avoids RecordCall)
    (hnext : ∀ value, (next value).Follows recordProtocol post
      record) (herror : ∀ message, post (.error message) record) :
    (program >>= next).Follows recordProtocol post record := by
  refine follows_bind (follows_of_avoids (hprogram.mono fun request hneutral ↦ ?_) fun result ↦ ?_)
  · exact not_not.mp (mt neutral_of_not_recordCall hneutral)
  · cases result with
    | ok value => exact hnext value
    | error message => exact herror message

/-- A notification is enqueued, and cannot throw. -/
theorem follows_sendSystemNotification_bind {type : NotificationType} {environmentId : String}
    {payload : EventPayload} {β : Type} {next : Unit → Async β}
    {post : Except String β → PlanRecord → Prop} {record : PlanRecord}
    (hnext : (next ()).Follows recordProtocol post record) :
    (await (.sendSystemNotification type environmentId payload) >>= next).Follows recordProtocol
      post record := by
  refine ⟨trivial, fun answer hanswer ↦ ?_⟩
  obtain ⟨queue, id, now, rfl⟩ := hanswer
  exact hnext

section

variable (yaml : Yaml) (planId : String)
include yaml planId

theorem follows_rollbackPlan {record : PlanRecord} (hrecord : record.events = []) :
    (rollbackPlan yaml planId).Follows recordProtocol Settled record := by
  refine follows_bind_of_avoids (avoids_perform not_false) (fun plan ↦ ?_) fun _ ↦ hrecord
  refine follows_bind_of_avoids (avoids_recordCall_rollbackSteps yaml _ _) (fun _ ↦ ?_)
    fun _ ↦ hrecord
  refine follows_bind_of_avoids (avoids_perform not_false) (fun _ ↦ ?_) fun _ ↦ hrecord
  refine follows_perform_bind trivial (fun _ _ ↦ ?_) fun _ ↦ hrecord
  refine ⟨trivial, fun _ _ ↦ ⟨trivial, fun answer hanswer ↦ ?_⟩⟩
  obtain ⟨queue, id, now, rfl⟩ := hanswer
  exact ⟨.planRolledBack, congrArg (· ++ [WebhookEvent.planRolledBack]) hrecord, rfl⟩

section

variable (plan : PlanWithSteps) (failedStep : StepWithDeployment) (service : Option Service)
  (error : Option String) {record : PlanRecord} (hrecord : record.events = [])
include plan failedStep service error hrecord

theorem follows_endExecution :
    (endExecution yaml planId plan failedStep service error).Follows recordProtocol Settled
      record := by
  refine Follows.ite (fun _ ↦ follows_rollbackPlan yaml planId hrecord) fun _ ↦ ?_
  refine follows_perform_bind trivial (fun _ _ ↦ ?_) fun _ ↦ hrecord
  refine follows_sendSystemNotification_bind ⟨trivial, fun _ _ ↦ ?_⟩
  exact ⟨.planFailed, congrArg (· ++ [WebhookEvent.planFailed]) hrecord, rfl⟩

theorem follows_endExecution_bind :
    (do
      endExecution yaml planId plan failedStep service error
      pure true : Async Bool).Follows recordProtocol EndedOrUnannounced record := by
  refine follows_bind ((follows_endExecution yaml planId plan failedStep service error hrecord).mono
    fun result record hresult ↦ ?_)
  cases result with
  | ok _ | error _ => exact hresult

end

variable (plan : PlanWithSteps) {record : PlanRecord}

theorem follows_runLevels (levels : List (List StepWithDeployment)) (hrecord : record.events = []) :
    (runLevels yaml planId plan levels).Follows recordProtocol EndedOrUnannounced record := by
  induction levels with
  | nil => exact hrecord
  | cons level levels ih =>
    rw [runLevels]
    refine Follows.ite (fun _ ↦ ih) fun _ ↦ follows_bind ?_
    refine follows_promiseAll (fun program hprogram ↦ ?_) (fun results _ ↦ ?_) fun _ ↦ hrecord
    · obtain ⟨step, -, rfl⟩ := List.mem_map.mp hprogram
      exact (avoids_recordCall_runStep yaml _ step).mono fun request hneutral ↦
        not_not.mp (mt neutral_of_not_recordCall hneutral)
    · simp only
      split
      · exact follows_endExecution_bind yaml planId plan _ _ _ hrecord
      · exact ih

theorem follows_runSequential (steps : List StepWithDeployment) (hrecord : record.events = []) :
    (runSequential yaml planId plan steps).Follows recordProtocol EndedOrUnannounced record := by
  induction steps with
  | nil => exact hrecord
  | cons step steps ih =>
    rw [runSequential]
    split
    · exact ih
    · refine follows_bind_of_avoids (avoids_recordCall_runStep yaml _ step) (fun updatedStep ↦ ?_)
        fun _ ↦ hrecord
      exact Follows.ite
        (fun _ ↦ follows_endExecution_bind yaml planId plan step _ _ hrecord) fun _ ↦ ih

theorem follows_runSteps (hrecord : record.events = []) :
    (runSteps yaml planId plan).Follows recordProtocol EndedOrUnannounced record :=
  Follows.ite (fun _ ↦ follows_runLevels yaml planId plan _ hrecord)
    fun _ ↦ follows_runSequential yaml planId plan _ hrecord

end

theorem follows_completePlan (planId : String) (plan : PlanWithSteps) {record : PlanRecord}
    (hrecord : record.events = []) :
    (completePlan planId plan).Follows recordProtocol Settled record := by
  refine follows_perform_bind trivial (fun _ _ ↦ ⟨trivial, fun _ _ ↦ ?_⟩) fun _ ↦ hrecord
  exact ⟨.planCompleted, congrArg (· ++ [WebhookEvent.planCompleted]) hrecord, rfl⟩

section

variable (yaml : Yaml) (planId : String) {record : PlanRecord} (plan : PlanWithSteps)

/-- The `catch` block announces the failure only where no rollback follows. -/
theorem follows_failPlan (errorMessage : String) (hrecord : record.events = []) :
    (failPlan yaml planId plan errorMessage).Follows recordProtocol Settled record := by
  refine follows_perform_bind trivial (fun _ _ ↦ ?_) fun _ ↦ hrecord
  by_cases hrollback : plan.autoRollback
  · rw [when, if_neg (not_not.mpr hrollback), when, if_pos hrollback]
    exact follows_rollbackPlan yaml planId hrecord
  · rw [when, if_pos hrollback, when, if_neg hrollback]
    refine ⟨trivial, fun _ _ ↦ ?_⟩
    exact ⟨.planFailed, congrArg (· ++ [WebhookEvent.planFailed]) hrecord, rfl⟩

theorem follows_runPlan (hrecord : record.events = []) :
    (runPlan yaml planId plan).Follows recordProtocol Settled record := by
  have hcaught : ∀ record : PlanRecord, record.events = [] → ∀ message,
      (failPlan yaml planId plan message).Follows recordProtocol Settled record :=
    fun _ hrecord _ ↦ follows_failPlan yaml planId plan _ hrecord
  refine follows_tryCatch (follows_bind ((follows_runSteps yaml planId plan hrecord).mono
    fun result record hresult ↦ ?_))
  match result with
  | .ok true => exact hresult
  | .ok false =>
    refine (follows_completePlan planId plan hresult).mono fun result record hresult ↦ ?_
    cases result with
    | ok _ => exact hresult
    | error message => exact hcaught record hresult message
  | .error message => exact hcaught record hresult message

theorem follows_executePlan_settled (hrecord : record.events = []) :
    (executePlan yaml planId).Follows recordProtocol Settled record := by
  refine follows_bind_of_avoids (avoids_perform not_false) (fun plan ↦ ?_) fun _ ↦ hrecord
  refine Follows.ite (fun _ ↦ hrecord) fun _ ↦ ?_
  exact follows_perform_bind trivial (fun _ _ ↦ follows_runPlan yaml planId plan hrecord)
    fun _ ↦ hrecord

end

/-- An execution that ends normally has emitted exactly one terminal event, and it announces the
status that the execution has left the plan in. -/
theorem oneTerminalEvent (yaml : Yaml) (planId : String) (status : PlanStatus) {log : Log}
    (htraces : Traces (executePlan yaml planId) log (some (.ok ())))
    (hanswers : ∀ event ∈ log, AnsweredByQueue event) :
    OneTerminalEvent (recordOf status log) :=
  ((follows_executePlan_settled yaml planId rfl).sound htraces hanswers).2 (.ok ()) rfl

def checkPlan : PlanWithSteps where
  id := "plan"
  name := "Deploy v2"
  status := .pending
  triggeredBy := "operator"
  autoRollback := true
  parallelExecution := false
  environmentId := "production"
  userId := none
  steps := [⟨⟨"step-0", "plan", "api", "api-web", 0, .healthCheck, "v2", none, .pending⟩, none, none,
    some restartedDeployment⟩]
  containerImage := none

/-- The start of the step throws; the `catch` block sets the plan to failed and rolls it back. -/
def rolledBackLog : Log :=
  [⟨.findPlan "plan", .ok checkPlan⟩,
    ⟨.updatePlan "plan" .running none, .ok ()⟩,
    ⟨.updateStep "step-0" .running none, .error "Database is locked"⟩,
    ⟨.updatePlan "plan" .failed (some "Database is locked"), .ok ()⟩,
    ⟨.findPlan "plan", .ok checkPlan⟩,
    ⟨.findPlan "plan", .ok checkPlan⟩,
    ⟨.updatePlan "plan" .rolledBack none, .ok ()⟩,
    ⟨.emitWebhookEvent .planRolledBack "production" (planPayload checkPlan.toPlanRow .rolledBack),
      .ok ()⟩,
    ⟨.sendSystemNotification .deploymentFailed "production"
      { planName := some "Deploy v2"
        error := some "Deployment rolled back due to failure"
        rollback := true }, .ok ()⟩]

/-- The plan is first set to failed and then rolled back, and only the rollback is announced. -/
theorem oneTerminalEvent_rolledBack : OneTerminalEvent (recordOf .pending rolledBackLog) := by
  refine oneTerminalEvent anyYaml "plan" .pending ?_ ?_
  · apply traces_executePlan rfl
    repeat apply Traces.call
    exact .done _
  · simp only [rolledBackLog, List.forall_mem_cons, AnsweredByQueue, true_and]
    exact ⟨⟨Notifications.NotificationQueue.initial true, "job", 0, rfl⟩, List.forall_mem_nil _⟩

end Bridgeport.Plans
