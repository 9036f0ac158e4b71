import Bridgeport.Plans.PlanStore

/-!
# What comes before the calls of a step

An executor touches a step only after it has set the step to running, or after it has read it as
succeeded or running for a rollback. `guarded_of_acts` reduces such a fact about a kind of call to
the bodies of the steps; it is used for the updates of a step (`guarded_updates`), its
deployments (`guarded_deploys`) and its health checks (`guarded_checks`).
-/

namespace Bridgeport.Plans

open Foundation Orchestration Deploy Program List

/-! ### The rule -/

variable (yaml : Yaml)

/-- What an executor does with a step between its start and its reading back. -/
def stepBody (plan : PlanRow) (step : StepWithDeployment) : Async Unit :=
  match step.action with
  | .deploy => executeDeployStep yaml step plan
  | .healthCheck => executeHealthCheckStep step

/-- The calls that an executor makes outside the bodies of its steps. -/
def FrameCall (request : Call) : Prop :=
  match request with
  | .updateStep _ .running _ | .findStep _ | .findPlan _ | .updatePlan _ _ _
  | .sendSystemNotification _ _ _ | .emitWebhookEvent _ _ _ => True
  | _ => False

variable {request : Call}

section

variable (yaml : Yaml) (planId : String) (plan : PlanWithSteps)
  {opens : Event Answer → Prop} {kind : Call → Prop}
  (hframe : ∀ request, FrameCall request → ¬ kind request)

include hframe

theorem guarded_frame (h : FrameCall request) : (await request).Guarded opens kind :=
  (avoids_perform (hframe request h)).guarded

theorem guarded_frame_emit (h : FrameCall request) :
    (emit request : Async Unit).Guarded opens kind :=
  (avoids_emit (hframe request h)).guarded

theorem guarded_runStep (row : PlanRow) (step : StepWithDeployment)
    (hstep : opens ⟨.updateStep step.id .running none, .ok ()⟩ ∨
      (stepBody yaml row step).Guarded opens kind) :
    (runStep yaml row step).Guarded opens kind := by
  refine guarded_perform_bind (hframe _ trivial) fun _ ↦ hstep.imp_right fun hbody ↦ ?_
  exact Guarded.bind hbody fun _ ↦ .inr (guarded_frame hframe trivial)

theorem guarded_rollbackPlan
    (hrollback : ∀ read : PlanWithSteps, opens ⟨.findPlan planId, .ok read⟩ ∨
      ∀ step ∈ read.steps, needsRollback step →
        (rollbackStep yaml read.toPlanRow step).Guarded opens kind) :
    (rollbackPlan yaml planId).Guarded opens kind := by
  refine guarded_perform_bind (hframe _ trivial) fun read ↦ (hrollback read).imp_right fun h ↦ ?_
  have hsteps : ∀ steps : List StepWithDeployment,
      (∀ step ∈ steps, (rollbackStep yaml read.toPlanRow step).Guarded opens kind) →
      (rollbackSteps yaml read.toPlanRow steps).Guarded opens kind := by
    intro steps hall
    induction steps with
    | nil => exact trivial
    | cons step steps ih =>
      exact Guarded.bind (hall step mem_cons_self) fun _ ↦
        .inr (ih fun later hlater ↦ hall later (mem_cons_of_mem step hlater))
  refine Guarded.bind (hsteps _ fun step hstep ↦ ?_) fun _ ↦ .inr ?_
  · obtain ⟨hmem, hneeds⟩ := mem_filter.mp hstep
    exact h step (mem_reverse.mp hmem) hneeds
  · refine guarded_perform_bind (hframe _ trivial) fun _ ↦ .inr ?_
    refine guarded_perform_bind (hframe _ trivial) fun _ ↦ .inr ?_
    exact Guarded.bind (guarded_frame_emit hframe trivial) fun _ ↦
      .inr (guarded_frame hframe trivial)

variable (hrollback : (rollbackPlan yaml planId).Guarded opens kind)

include hrollback

theorem guarded_endExecution (failedStep : StepWithDeployment) (service : Option Service)
    (error : Option String) :
    (endExecution yaml planId plan failedStep service error).Guarded opens kind := by
  refine Guarded.ite hrollback ?_
  refine guarded_perform_bind (hframe _ trivial) fun _ ↦ .inr ?_
  exact guarded_perform_bind (hframe _ trivial) fun _ ↦ .inr (guarded_frame_emit hframe trivial)

theorem guarded_levels (levels : List (List StepWithDeployment))
    (hsteps : ∀ level ∈ levels, ∀ step ∈ level,
      (runStep yaml plan.toPlanRow step).Guarded opens kind) :
    (runLevels yaml planId plan levels).Guarded opens kind := by
  induction levels with
  | nil => exact trivial
  | cons level levels ih =>
    have hrest := ih fun later hlater ↦ hsteps later (mem_cons_of_mem level hlater)
    rw [runLevels]
    refine Guarded.ite hrest (Guarded.bind ?_ fun results ↦ .inr ?_)
    · refine guarded_promiseAll fun program hprogram ↦ ?_
      obtain ⟨step, hstep, rfl⟩ := mem_map.mp hprogram
      exact hsteps level mem_cons_self step (mem_of_mem_filter hstep)
    · split
      · exact Guarded.bind (guarded_endExecution yaml planId plan hframe hrollback _ _ _)
          fun _ ↦ .inr trivial
      · exact hrest

theorem guarded_runSequential (steps : List StepWithDeployment)
    (hsteps : ∀ step ∈ steps, (runStep yaml plan.toPlanRow step).Guarded opens kind) :
    (runSequential yaml planId plan steps).Guarded opens kind := by
  induction steps with
  | nil => exact trivial
  | cons step steps ih =>
    have hrest := ih fun later hlater ↦ hsteps later (mem_cons_of_mem step hlater)
    rw [runSequential]
    split
    · exact hrest
    · refine Guarded.bind (hsteps step mem_cons_self) fun updated ↦ .inr ?_
      refine Guarded.ite ?_ hrest
      exact Guarded.bind (guarded_endExecution yaml planId plan hframe hrollback _ _ _)
        fun _ ↦ .inr trivial

theorem guarded_executePending
    (hsteps : ∀ step ∈ plan.steps, opens ⟨.updateStep step.id .running none, .ok ()⟩ ∨
      (stepBody yaml plan.toPlanRow step).Guarded opens kind) :
    (executePending yaml planId plan).Guarded opens kind := by
  have hrun : ∀ step ∈ plan.steps, (runStep yaml plan.toPlanRow step).Guarded opens kind :=
    fun step hstep ↦ guarded_runStep yaml hframe _ step (hsteps step hstep)
  refine guarded_perform_bind (hframe _ trivial) fun _ ↦ .inr ?_
  refine Guarded.tryCatch (Guarded.bind (Guarded.ite ?_ ?_) fun ended ↦ .inr ?_) fun message ↦ ?_
  · refine guarded_levels yaml planId plan hframe hrollback _ fun level hlevel step hstep ↦ ?_
    exact hrun step ((flatten_sortedLevels_perm plan.steps).mem_iff.mp
      (mem_flatten_of_mem hlevel hstep))
  · exact guarded_runSequential yaml planId plan hframe hrollback _ hrun
  · refine Guarded.ite ?_ trivial
    exact guarded_perform_bind (hframe _ trivial) fun _ ↦
      .inr (guarded_frame_emit hframe trivial)
  · refine guarded_perform_bind (hframe _ trivial) fun _ ↦ .inr ?_
    refine Guarded.bind (Guarded.ite (guarded_frame_emit hframe trivial) trivial) fun _ ↦ .inr ?_
    exact Guarded.ite hrollback trivial

end

section

variable (yaml : Yaml) (row : PlanRow) (step : StepWithDeployment) {kind : Call → Prop}
  (hdeploy : ∀ serviceDeployment, step.serviceDeployment = some serviceDeployment →
    ∀ triggeredBy options, (deployService yaml serviceDeployment.id triggeredBy row.userId
      options).Avoids kind)
  (hupdate : ∀ status error, status ≠ .running → ¬ kind (.updateStep step.id status error))

include hdeploy hupdate

theorem avoids_deployBody : (executeDeployStep yaml step row).Avoids kind := by
  unfold executeDeployStep
  split
  · rename_i serviceDeployment hpresent _
    refine Avoids.tryCatch ((hdeploy _ hpresent _ _).bind fun result ↦ ?_)
      fun message ↦ avoids_perform (hupdate _ _ nofun)
    exact Avoids.ite (avoids_perform (hupdate _ _ nofun)) (avoids_perform (hupdate _ _ nofun))
  · exact avoids_throw _

theorem avoids_rollbackBody : (rollbackStep yaml row step).Avoids kind := by
  unfold rollbackStep
  split
  · rename_i serviceDeployment _ hpresent _
    refine Avoids.tryCatch ((hdeploy _ hpresent _ _).bind fun result ↦ ?_) fun _ ↦ avoids_pure _
    exact Avoids.when (avoids_perform (hupdate _ _ nofun))
  · exact avoids_pure _

omit hdeploy in
theorem avoids_checkBody (hcheck : ∀ serviceDeployment,
    step.serviceDeployment = some serviceDeployment →
      ¬ kind (.verifyServiceHealth serviceDeployment.id)) :
    (executeHealthCheckStep step).Avoids kind := by
  unfold executeHealthCheckStep
  split
  · rename_i serviceDeployment hpresent
    refine Avoids.tryCatch (avoids_call (hcheck _ hpresent) fun result ↦ ?_)
      fun message ↦ avoids_perform (hupdate _ _ nofun)
    exact Avoids.ite (avoids_perform (hupdate _ _ nofun)) (avoids_perform (hupdate _ _ nofun))
  · exact avoids_throw _

end

/-- The call updates the step otherwise than by starting it. -/
def Updates (stepId : String) (request : Call) : Prop :=
  match request with
  | .updateStep id status _ => id = stepId ∧ status ≠ .running
  | _ => False

variable (planId : String)

/-- The event starts the step, or reads it as succeeded or running. -/
def Begins (stepId : String) (event : Event Answer) : Prop :=
  event = ⟨.updateStep stepId .running none, .ok ()⟩ ∨
    ∃ read, event = ⟨.findPlan planId, .ok read⟩ ∧
      ∃ step ∈ read.steps, step.id = stepId ∧ (step.status = .success ∨ step.status = .running)

theorem planCall_of_updates {stepId : String} (h : Updates stepId request) : PlanCall request := by
  unfold Updates at h
  split at h
  · exact trivial
  · exact h.elim

theorem status_of_needsRollback {step : StepWithDeployment} (h : needsRollback step) :
    step.action = .deploy ∧ (step.status = .success ∨ step.status = .running) := by
  unfold needsRollback at h
  simp only [Bool.and_eq_true, Bool.or_eq_true, decide_eq_true_eq] at h
  exact ⟨h.1.1.1, h.1.2⟩

variable (plan : PlanWithSteps)

/-- The steps that act make calls of a kind, and an event opens this for them: they are started, or
they are read as succeeded or running. -/
theorem guarded_of_acts {opens : Event Answer → Prop} {kind : Call → Prop}
    (acts : StepWithDeployment → Prop) (hframe : ∀ request, FrameCall request → ¬ kind request)
    (hstart : ∀ step ∈ plan.steps, acts step → opens ⟨.updateStep step.id .running none, .ok ()⟩)
    (hread : ∀ read : PlanWithSteps, ∀ step ∈ read.steps, acts step →
      (step.status = .success ∨ step.status = .running) → opens ⟨.findPlan planId, .ok read⟩)
    (hdeploy : ∀ (row : PlanRow) (step : StepWithDeployment), step.action = .deploy → ¬ acts step →
      ∀ serviceDeployment, step.serviceDeployment = some serviceDeployment →
        ∀ triggeredBy options, (deployService yaml serviceDeployment.id triggeredBy row.userId
          options).Avoids kind)
    (hcheck : ∀ step : StepWithDeployment, step.action = .healthCheck → ¬ acts step →
      ∀ serviceDeployment, step.serviceDeployment = some serviceDeployment →
        ¬ kind (.verifyServiceHealth serviceDeployment.id))
    (hupdate : ∀ step : StepWithDeployment, ¬ acts step → ∀ status error, status ≠ .running →
      ¬ kind (.updateStep step.id status error)) :
    (executePending yaml planId plan).Guarded opens kind := by
  refine guarded_executePending yaml planId plan hframe ?_ fun step hstep ↦ ?_
  · refine guarded_rollbackPlan yaml planId hframe fun read ↦ ?_
    by_cases hbegun : ∃ step ∈ read.steps, acts step ∧
        (step.status = .success ∨ step.status = .running)
    · obtain ⟨step, hstep, hacts, hstatus⟩ := hbegun
      exact .inl (hread read step hstep hacts hstatus)
    · refine .inr fun step hstep hneeds ↦ ?_
      obtain ⟨haction, hstatus⟩ := status_of_needsRollback hneeds
      have hnot : ¬ acts step := fun hacts ↦ hbegun ⟨step, hstep, hacts, hstatus⟩
      exact (avoids_rollbackBody yaml _ step (hdeploy _ step haction hnot) (hupdate step hnot)).guarded
  · by_cases hacts : acts step
    · exact .inl (hstart step hstep hacts)
    · refine .inr (Avoids.guarded ?_)
      unfold stepBody
      split
      · rename_i haction
        exact avoids_deployBody yaml _ step (hdeploy _ step haction hacts) (hupdate step hacts)
      · rename_i haction
        exact avoids_checkBody step (hupdate step hacts) (hcheck step haction hacts)

theorem guarded_updates (stepId : String) :
    (executePending yaml planId plan).Guarded (Begins planId stepId) (Updates stepId) := by
  refine guarded_of_acts yaml planId plan (·.id = stepId) (fun request hrequest ↦ ?_) ?_ ?_ ?_ ?_ ?_
  · cases request <;> first | exact not_false | exact absurd hrequest not_false | skip
    rename_i id status error
    cases status <;> first | exact absurd hrequest not_false | exact fun h ↦ h.2 rfl
  · rintro step - rfl
    exact .inl rfl
  · exact fun read step hstep hid hstatus ↦ .inr ⟨read, rfl, step, hstep, hid, hstatus⟩
  · exact fun _ _ _ _ _ _ _ _ ↦
      (quiet_deployService yaml _ _ _ _).avoids.mono fun _ ↦ planCall_of_updates
  · exact fun _ _ _ _ _ ↦ not_false
  · exact fun step hid status error _ h ↦ hid h.1

/-! ### Deployments and health checks -/

def Checks (serviceDeploymentId : String) (request : Call) : Prop :=
  match request with
  | .verifyServiceHealth id => id = serviceDeploymentId
  | _ => False

def ActsOn (action : StepAction) (serviceDeploymentId : String) (step : StepWithDeployment) : Prop :=
  step.action = action ∧ ∃ serviceDeployment, step.serviceDeployment = some serviceDeployment ∧
    serviceDeployment.id = serviceDeploymentId

/-- The event starts a step of the plan that acts on the service deployment, or reads one as
succeeded or running. -/
def BeginsAction (action : StepAction) (serviceDeploymentId : String) (event : Event Answer) :
    Prop :=
  (∃ step ∈ plan.steps, ActsOn action serviceDeploymentId step ∧
    event = ⟨.updateStep step.id .running none, .ok ()⟩) ∨
  ∃ read, event = ⟨.findPlan planId, .ok read⟩ ∧ ∃ step ∈ read.steps,
    ActsOn action serviceDeploymentId step ∧ (step.status = .success ∨ step.status = .running)

section

variable (yaml : Yaml) (planId : String) (plan : PlanWithSteps) (serviceDeploymentId : String)

theorem guarded_deploys :
    (executePending yaml planId plan).Guarded
      (BeginsAction planId plan .deploy serviceDeploymentId) (Deploys serviceDeploymentId) := by
  refine guarded_of_acts yaml planId plan (ActsOn .deploy serviceDeploymentId)
    (fun request hrequest ↦ ?_) (fun step hstep hacts ↦ .inl ⟨step, hstep, hacts, rfl⟩)
    (fun read step hstep hacts hstatus ↦ .inr ⟨read, rfl, step, hstep, hacts, hstatus⟩) ?_ ?_ ?_
  · cases request <;> first | exact not_false | exact absurd hrequest not_false
  · intro row step haction hnot serviceDeployment hpresent triggeredBy options
    exact avoids_deploys_deployService _ yaml
      (fun hsame ↦ hnot ⟨haction, serviceDeployment, hpresent, hsame⟩) _ _ _
  · exact fun _ _ _ _ _ ↦ not_false
  · exact fun _ _ _ _ _ ↦ not_false

theorem guarded_checks :
    (executePending yaml planId plan).Guarded
      (BeginsAction planId plan .healthCheck serviceDeploymentId) (Checks serviceDeploymentId) := by
  refine guarded_of_acts yaml planId plan (ActsOn .healthCheck serviceDeploymentId)
    (fun request hrequest ↦ ?_) (fun step hstep hacts ↦ .inl ⟨step, hstep, hacts, rfl⟩)
    (fun read step hstep hacts hstatus ↦ .inr ⟨read, rfl, step, hstep, hacts, hstatus⟩)
    (fun _ _ _ _ _ _ _ _ ↦ ?_) ?_ ?_
  · cases request <;> first | exact not_false | exact absurd hrequest not_false
  · refine (quiet_deployService yaml _ _ _ _).avoids.mono fun request hchecks ↦ ?_
    unfold Checks at hchecks
    split at hchecks
    · exact trivial
    · exact hchecks.elim
  · exact fun step haction hnot serviceDeployment hpresent hsame ↦
      hnot ⟨haction, serviceDeployment, hpresent, hsame⟩
  · exact fun _ _ _ _ _ ↦ not_false

end

end Bridgeport.Plans
