import Bridgeport.Deploy.DeployService

/-!
# What the phases of a deployment call

The phases of `deployService` up to the running container prepare the deployment and change its
host, and make no other call: `quiet_containerPhase`. No phase touches a plan:
`quiet_deployService`.
-/

namespace Bridgeport.Deploy

open Foundation Program

section

variable (request : Call)

def PlanCall : Prop :=
  match request with
  | .findPlan _ | .findStep _ | .updatePlan _ _ _ | .updateStep _ _ _ | .skipPendingSteps _
  | .verifyServiceHealth _ => True
  | _ => False

/-- The calls that settle a deployment, and those on plans. -/
def SettlingCall : Prop :=
  match request with
  | .createDeployment _ | .updateDeployment _ _ _ | .createContainerImageHistory _
  | .findImageDigest _ | .sendSystemNotification _ _ _ | .emitWebhookEvent _ _ _ => True
  | request => PlanCall request

def HostChange : Prop :=
  match request with
  | .updateServiceImageTag _ _ | .updateComposePath _ _ | .writeFile _ _ | .exec (.move _ _)
  | .composeUp _ _ _ _ => True
  | _ => False

/-- The calls that change the host, and those on plans. -/
def HostOrPlanCall : Prop :=
  HostChange request ∨ PlanCall request

/-- The calls of all these kinds. -/
def EffectCall : Prop :=
  HostChange request ∨ SettlingCall request

/-- The calls up to the running container that do not change the host. -/
def PreparingCall : Prop :=
  match request with
  | .createClientForServer _ _ _ | .getSystemSettings | .getContainerLogs _ _ | .connect
  | .findArtifactSource _ | .resolveSecretPlaceholders _ _ | .countServiceDeployments _ _
  | .exec (.mkdir _) | .exec (.cat _) | .exec (.chmod _) | .saveDeploymentArtifacts _ _
  | .findAutoManageCompose _ | .logAudit _ _ _ | .ensureRegistryLogin _ _
  | .getSocketAuthConfig _ | .pullImage _ _ | .composePull _ _ | .restartContainer _
  | .listContainers => True
  | _ => False

end

theorem not_false_or_false : ¬ (False ∨ False) :=
  not_or.mpr ⟨not_false, not_false⟩

section

variable (request : Call) (h : PreparingCall request)
include request h

theorem not_effectCall_of_preparingCall : ¬ EffectCall request := by
  cases request with
  | exec command => cases command <;> first | exact not_false_or_false | exact absurd h id
  | _ => first | exact not_false_or_false | exact absurd h id

theorem not_hostChange_of_preparingCall : ¬ HostChange request :=
  fun hchange ↦ not_effectCall_of_preparingCall request h (.inl hchange)

theorem not_settlingCall_of_preparingCall : ¬ SettlingCall request :=
  fun hsettling ↦ not_effectCall_of_preparingCall request h (.inr hsettling)

end

theorem not_settlingCall_of_hostChange (request : Call) (h : HostChange request) :
    ¬ SettlingCall request := by
  cases request <;> first | exact not_false | exact absurd h id

variable {request : Call}

theorem settlingCall_of_planCall (h : PlanCall request) : SettlingCall request := by
  cases request <;> first | exact trivial | exact h

theorem effectCall_of_hostOrPlanCall (h : HostOrPlanCall request) : EffectCall request :=
  h.imp_right settlingCall_of_planCall

/-! ### Clients and artifacts -/

theorem captureContainerLogs_ok {World : Type*} {sem : Semantics Answer World}
    (run : DeployRun) (dockerClient captured : Bool) (world : World) :
    (captureContainerLogs run dockerClient captured).Meets sem
      (fun result _ ↦ ∃ captured, result = .ok captured) world := by
  refine Meets.ite (fun _ ↦ ⟨_, rfl⟩) fun _ ↦ Meets.ite (fun _ ↦ ⟨_, rfl⟩) fun _ ↦ ?_
  refine meets_tryCatch.mpr (meets_perform_bind.mpr ⟨fun tail _ ↦ ?_, fun _ _ ↦ ⟨_, rfl⟩⟩)
  exact meets_perform_bind.mpr ⟨fun _ _ ↦ ⟨_, rfl⟩, fun _ _ ↦ ⟨_, rfl⟩⟩

section

variable {kind : Call → Prop} (hprepares : ∀ request, PreparingCall request → ¬ kind request)

include hprepares

theorem quiet_createDockerClientForServer (server : Server) :
    (createDockerClientForServer server).Quiet kind := by
  refine quiet_call (hprepares _ trivial) fun answer ↦ ?_
  cases server.dockerMode with
  | ssh => exact Quiet.ite (quiet_pure _) (quiet_pure _)
  | socket => exact quiet_pure _

theorem quiet_captureContainerLogs (run : DeployRun) (dockerClient captured : Bool) :
    (captureContainerLogs run dockerClient captured).Quiet kind := by
  refine Quiet.ite (quiet_pure _)
    (Quiet.ite (quiet_pure _) (Quiet.tryCatch ?_ fun _ ↦ quiet_pure _))
  refine quiet_call (hprepares _ trivial) fun tail ↦ ?_
  exact quiet_call (hprepares _ trivial) fun _ ↦ quiet_pure _

theorem quiet_configArtifact (environmentId : String) (file : SourceFile) :
    (configArtifact environmentId file).Quiet kind := by
  refine Quiet.ite (quiet_pure _) ?_
  refine quiet_call (hprepares _ trivial) fun resolution ↦ ?_
  exact Quiet.ite (quiet_throw _) (quiet_pure _)

theorem quiet_configArtifacts (environmentId : String) (files : List SourceFile) :
    (configArtifacts environmentId files).Quiet kind := by
  induction files with
  | nil => exact quiet_pure _
  | cons file files ih =>
    exact (quiet_configArtifact hprepares environmentId file).bind fun _ ↦
      ih.bind fun _ ↦ quiet_pure _

theorem quiet_generateDeploymentArtifacts (yaml : Yaml) (serviceDeploymentId : String) :
    (generateDeploymentArtifacts yaml serviceDeploymentId).Quiet kind := by
  refine quiet_call (hprepares _ trivial) fun source ↦ ?_
  exact (quiet_configArtifacts hprepares _ _).bind fun _ ↦ quiet_pure _

variable (run : DeployRun)

theorem quiet_isSharedOperatorFile (composePath : String) :
    (isSharedOperatorFile run composePath).Quiet kind := by
  unfold isSharedOperatorFile
  cases run.deployment.composePath with
  | none => exact quiet_pure _
  | some _ => exact quiet_call (hprepares _ trivial) fun _ ↦ quiet_pure _

theorem quiet_composeToValidate (sharedOperatorFile : Bool) (composePath : String)
    (artifacts : GeneratedArtifacts) :
    (composeToValidate sharedOperatorFile composePath artifacts).Quiet kind := by
  refine Quiet.ite (quiet_call (hprepares _ trivial) fun existing ↦ ?_) (quiet_pure _)
  exact Quiet.ite (quiet_throw _) (quiet_pure _)

theorem quiet_registryAuth (dockerSSH : Bool) : (registryAuth run dockerSSH).Quiet kind := by
  unfold registryAuth
  split
  · exact quiet_pure _
  · exact Quiet.ite (quiet_call (hprepares _ trivial) fun _ ↦ quiet_pure _)
      (quiet_perform (hprepares _ trivial))

theorem quiet_verifyContainer : (verifyContainer run).Quiet kind := by
  refine quiet_call (hprepares _ trivial) fun containers ↦ ?_
  split
  · exact quiet_pure _
  · exact quiet_throw _

/-! ### The host -/

variable (hchanges : ∀ request, HostChange request → ¬ kind request)

include hchanges

theorem quiet_writeConfigFile (file : ConfigArtifact) : (writeConfigFile file).Quiet kind := by
  refine quiet_call (hprepares _ trivial) fun _ ↦ ?_
  refine quiet_call (hchanges _ trivial) fun _ ↦ ?_
  exact Quiet.when (quiet_call (hprepares _ trivial) fun _ ↦ quiet_pure _)

theorem quiet_writeConfigFiles (files : List ConfigArtifact) :
    (writeConfigFiles files).Quiet kind := by
  induction files with
  | nil => exact quiet_pure _
  | cons file files ih => exact (quiet_writeConfigFile hprepares hchanges file).bind fun _ ↦ ih

omit hprepares in
theorem quiet_writeComposeFile (run : DeployRun) (composePath : String)
    (artifacts : GeneratedArtifacts) :
    (writeComposeFile run composePath artifacts).Quiet kind := by
  refine quiet_call (hchanges _ trivial) fun _ ↦ ?_
  exact quiet_call (hchanges _ trivial) fun _ ↦ quiet_pure _

theorem quiet_manageComposePath (run : DeployRun) (composePath : String) :
    (manageComposePath run composePath).Quiet kind := by
  refine Quiet.ite (quiet_pure _) ?_
  refine quiet_call (hprepares _ trivial) fun autoManageCompose ↦ ?_
  refine Quiet.ite (quiet_call (hchanges _ trivial) fun _ ↦ ?_) (quiet_pure _)
  exact quiet_call (hprepares _ trivial) fun _ ↦ quiet_pure _

theorem quiet_artifactsPhase (yaml : Yaml) (run : DeployRun) (deployDir : String) :
    (artifactsPhase yaml run deployDir).Quiet kind := by
  refine Quiet.bind (Quiet.when (quiet_perform (hchanges _ trivial))) fun _ ↦ ?_
  refine (quiet_generateDeploymentArtifacts hprepares _ _).bind fun artifacts ↦ ?_
  refine (quiet_isSharedOperatorFile hprepares _ _).bind fun sharedOperatorFile ↦ ?_
  refine (quiet_composeToValidate hprepares _ _ _).bind fun content ↦ ?_
  split
  · exact quiet_throw _
  · refine Quiet.bind (Quiet.when (quiet_writeComposeFile hchanges _ _ _)) fun _ ↦ ?_
    refine (quiet_writeConfigFiles hprepares hchanges _).bind fun _ ↦ ?_
    refine quiet_call (hprepares _ trivial) fun _ ↦ ?_
    exact quiet_manageComposePath hprepares hchanges _ _

theorem quiet_startContainer (run : DeployRun) (composePath : Option String) (dockerSSH : Bool) :
    (startContainer run composePath dockerSSH).Quiet kind := by
  unfold startContainer
  dsimp only
  split
  · refine quiet_call (hprepares _ trivial) fun _ ↦ ?_
    refine quiet_call (hprepares _ trivial) fun _ ↦ ?_
    exact quiet_perform (hchanges _ trivial)
  · exact quiet_perform (hprepares _ trivial)

theorem quiet_containerPhase (yaml : Yaml) (run : DeployRun) (clients : DockerClientForServer) :
    (containerPhase yaml run clients).Quiet kind := by
  refine Quiet.ite (quiet_throw _) ?_
  refine Quiet.bind (Quiet.when (quiet_perform (hprepares _ trivial))) fun _ ↦ ?_
  refine Quiet.bind (Quiet.when ?_) fun _ ↦ ?_
  · exact quiet_call (hprepares _ trivial) fun _ ↦ quiet_pure _
  · refine Quiet.bind (Quiet.ite (quiet_artifactsPhase hprepares hchanges _ _ _) (quiet_pure _))
      fun _ ↦ ?_
    refine (quiet_registryAuth hprepares _ _).bind fun socketAuth ↦ ?_
    refine Quiet.bind (Quiet.when (quiet_perform (hprepares _ trivial))) fun _ ↦ ?_
    refine (quiet_startContainer hprepares hchanges _ _ _).bind fun _ ↦ ?_
    exact (quiet_verifyContainer hprepares _).bind fun _ ↦
      quiet_captureContainerLogs hprepares _ _ _

end

/-! ### The whole deployment -/

theorem quiet_linkDigest (containerImageId : String) (found : Option ImageDigest) :
    (linkDigest containerImageId found).Quiet EffectCall := by
  cases found with
  | none => exact quiet_pure _
  | some digest => exact quiet_perform not_false_or_false

theorem quiet_imageTagsOf (historyEntry : ContainerImageHistory) :
    (imageTagsOf historyEntry).Quiet HostOrPlanCall := by
  unfold imageTagsOf
  split
  · exact quiet_call not_false_or_false fun _ ↦ quiet_pure _
  · exact quiet_pure _

theorem quiet_recordTagDeployment (containerImageId tag deployedBy : String)
    (status : HistoryStatus) :
    (recordTagDeployment containerImageId tag deployedBy status).Quiet HostOrPlanCall := by
  refine Quiet.ite (quiet_call not_false_or_false fun recentDigests ↦ ?_)
    (quiet_perform not_false_or_false)
  refine quiet_call not_false_or_false fun _ ↦ ?_
  refine ((quiet_linkDigest _ _).mono fun _ ↦ effectCall_of_hostOrPlanCall).bind fun _ ↦ ?_
  exact quiet_perform not_false_or_false

theorem quiet_successPhase (run : DeployRun) : (successPhase run).Quiet HostOrPlanCall := by
  refine quiet_call not_false_or_false fun _ ↦ ?_
  refine (quiet_recordTagDeployment _ _ _ _).bind fun historyEntry ↦ ?_
  refine quiet_call not_false_or_false fun finalDeployment ↦ ?_
  refine (quiet_imageTagsOf _).bind fun imageTags ↦ ?_
  refine quiet_call not_false_or_false fun _ ↦ ?_
  exact Quiet.bind (quiet_emit not_false_or_false) fun _ ↦ quiet_pure _

theorem quiet_failDeployment (run : DeployRun) (dockerClient captured : Bool)
    (errorMessage : String) :
    (failDeployment run dockerClient captured errorMessage).Quiet HostOrPlanCall := by
  refine ((quiet_captureContainerLogs not_effectCall_of_preparingCall _ _ _).mono
    fun _ ↦ effectCall_of_hostOrPlanCall).bind fun _ ↦ ?_
  refine (quiet_recordTagDeployment _ _ _ _).bind fun historyEntry ↦ ?_
  refine quiet_call not_false_or_false fun failedDeployment ↦ ?_
  refine quiet_call not_false_or_false fun _ ↦ ?_
  exact Quiet.bind (quiet_emit not_false_or_false) fun _ ↦ quiet_pure _

/-- A run makes no call on plans, and never runs two calls at once. -/
theorem quiet_runDeployment (yaml : Yaml) (run : DeployRun) :
    (runDeployment yaml run).Quiet PlanCall := by
  refine Quiet.resume (quiet_call not_false fun _ ↦
    (quiet_createDockerClientForServer not_effectCall_of_preparingCall _).mono fun _ hplan ↦
      .inr (settlingCall_of_planCall hplan)) fun connected ↦ ?_
  cases connected with
  | error message => exact (quiet_failDeployment _ _ _ _).mono fun _ ↦ .inr
  | ok clients =>
    refine Quiet.resume ((quiet_containerPhase not_settlingCall_of_preparingCall
      not_settlingCall_of_hostChange _ _ _).mono fun _ ↦ settlingCall_of_planCall) fun started ↦ ?_
    cases started with
    | error message => exact (quiet_failDeployment _ _ _ _).mono fun _ ↦ .inr
    | ok captured =>
      exact ((quiet_successPhase _).mono fun _ ↦ .inr).tryCatch fun _ ↦
        (quiet_failDeployment _ _ _ _).mono fun _ ↦ Or.inr

/-- A deployment makes no call on plans, and never runs two calls at once. -/
theorem quiet_deployService (yaml : Yaml) (serviceDeploymentId triggeredBy : String)
    (userId : Option String) (options : DeployOptions) :
    (deployService yaml serviceDeploymentId triggeredBy userId options).Quiet PlanCall := by
  refine quiet_call not_false fun deployment ↦ ?_
  refine quiet_call not_false fun deploymentRow ↦ ?_
  exact quiet_runDeployment yaml _

/-! ### The deployment row -/

variable (serviceDeploymentId : String)

/-- The call creates a deployment row for the service deployment. -/
def Deploys (request : Call) : Prop :=
  match request with
  | .createDeployment data => data.serviceDeploymentId = serviceDeploymentId
  | _ => False

theorem settlingCall_of_deploys {serviceDeploymentId : String}
    (h : Deploys serviceDeploymentId request) : SettlingCall request := by
  unfold Deploys at h
  split at h
  · exact trivial
  · exact h.elim

/-- A kind of settling calls that a run makes none of once it has its deployment row. -/
structure OutsideDeployment (kind : Call → Prop) : Prop where
  settling : ∀ request, kind request → SettlingCall request
  updateDeployment : ∀ id status historyId, ¬ kind (.updateDeployment id status historyId)
  createContainerImageHistory : ∀ data, ¬ kind (.createContainerImageHistory data)
  findImageDigest : ∀ id, ¬ kind (.findImageDigest id)
  sendSystemNotification : ∀ type environmentId payload,
    ¬ kind (.sendSystemNotification type environmentId payload)
  deploymentCompleted : ∀ environmentId payload,
    ¬ kind (.emitWebhookEvent .deploymentCompleted environmentId payload)
  deploymentFailed : ∀ environmentId payload,
    ¬ kind (.emitWebhookEvent .deploymentFailed environmentId payload)

section

variable {kind : Call → Prop} (hkind : OutsideDeployment kind)

include hkind

theorem avoids_recordTagDeployment (containerImageId tag deployedBy : String)
    (status : HistoryStatus) :
    (recordTagDeployment containerImageId tag deployedBy status).Avoids kind := by
  have hhistory (data : HistoryData) : (await (.createContainerImageHistory data)).Avoids kind :=
    avoids_perform (hkind.createContainerImageHistory data)
  refine Avoids.ite (Avoids.bind ?_ fun recentDigests ↦ ?_) (hhistory _)
  · exact avoids_perform fun hcall ↦ absurd (hkind.settling _ hcall) not_false
  · refine Avoids.bind ?_ fun _ ↦ Avoids.bind ?_ fun _ ↦ hhistory _
    · exact avoids_perform fun hcall ↦ absurd (hkind.settling _ hcall) not_false
    · exact (quiet_linkDigest _ _).avoids.mono fun _ hcall ↦ .inr (hkind.settling _ hcall)

theorem avoids_successPhase (run : DeployRun) : (successPhase run).Avoids kind := by
  refine Avoids.bind ?_ fun _ ↦ ?_
  · exact avoids_perform fun hcall ↦ absurd (hkind.settling _ hcall) not_false
  refine (avoids_recordTagDeployment hkind _ _ _ _).bind fun historyEntry ↦ ?_
  refine avoids_call (hkind.updateDeployment _ _ _) fun finalDeployment ↦ ?_
  refine Avoids.bind ?_ fun imageTags ↦ ?_
  · unfold imageTagsOf
    split
    · exact avoids_call (hkind.findImageDigest _) fun _ ↦ avoids_pure _
    · exact avoids_pure _
  · refine avoids_call (hkind.sendSystemNotification _ _ _) fun _ ↦ ?_
    exact Avoids.bind (avoids_emit (hkind.deploymentCompleted _ _)) fun _ ↦ avoids_pure _

theorem avoids_failDeployment (run : DeployRun) (dockerClient captured : Bool)
    (errorMessage : String) :
    (failDeployment run dockerClient captured errorMessage).Avoids kind := by
  refine Avoids.bind ?_ fun _ ↦ ?_
  · exact (quiet_captureContainerLogs not_settlingCall_of_preparingCall _ _ _).avoids.mono
      hkind.settling
  · refine (avoids_recordTagDeployment hkind _ _ _ _).bind fun _ ↦ ?_
    refine avoids_call (hkind.updateDeployment _ _ _) fun failedDeployment ↦ ?_
    refine avoids_call (hkind.sendSystemNotification _ _ _) fun _ ↦ ?_
    exact Avoids.bind (avoids_emit (hkind.deploymentFailed _ _)) fun _ ↦ avoids_pure _

theorem avoids_runDeployment (yaml : Yaml) (run : DeployRun) :
    (runDeployment yaml run).Avoids kind := by
  refine Avoids.resume (Avoids.bind ?_ fun _ ↦ ?_) fun connected ↦ ?_
  · exact avoids_perform (hkind.updateDeployment _ _ _)
  · exact (quiet_createDockerClientForServer not_settlingCall_of_preparingCall _).avoids.mono
      hkind.settling
  · cases connected with
    | error message => exact avoids_failDeployment hkind _ _ _ _
    | ok clients =>
      refine Avoids.resume ((quiet_containerPhase not_settlingCall_of_preparingCall
        not_settlingCall_of_hostChange _ _ _).avoids.mono hkind.settling) fun started ↦ ?_
      cases started with
      | error message => exact avoids_failDeployment hkind _ _ _ _
      | ok captured =>
        exact (avoids_successPhase hkind _).tryCatch fun _ ↦ avoids_failDeployment hkind _ _ _ _

theorem avoids_deployService_of (yaml : Yaml) (serviceDeploymentId triggeredBy : String)
    (userId : Option String) (options : DeployOptions)
    (hcreate : ∀ data : DeploymentData, data.serviceDeploymentId = serviceDeploymentId →
      ¬ kind (.createDeployment data)) :
    (deployService yaml serviceDeploymentId triggeredBy userId options).Avoids kind := by
  refine Avoids.bind ?_ fun deployment ↦ avoids_call (hcreate _ rfl) fun row ↦ ?_
  · exact avoids_perform fun hcall ↦ absurd (hkind.settling _ hcall) not_false
  · exact avoids_runDeployment hkind yaml _

end

/-- A deployment creates no row for another service deployment. -/
theorem avoids_deploys_deployService (yaml : Yaml) {other : String}
    (h : other ≠ serviceDeploymentId) (triggeredBy : String) (userId : Option String)
    (options : DeployOptions) :
    (deployService yaml other triggeredBy userId options).Avoids (Deploys serviceDeploymentId) := by
  refine avoids_deployService_of ⟨fun _ ↦ settlingCall_of_deploys, fun _ _ _ ↦ not_false,
    fun _ ↦ not_false, fun _ ↦ not_false, fun _ _ _ ↦ not_false, fun _ _ ↦ not_false,
    fun _ _ ↦ not_false⟩ yaml other triggeredBy userId options fun data hdata hdeploys ↦ h ?_
  exact hdata.symm.trans hdeploys

end Bridgeport.Deploy
