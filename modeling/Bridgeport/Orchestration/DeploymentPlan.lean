import Bridgeport.Orchestration.DependencyOrder

/-!
# Building a deployment plan

`buildDeploymentPlan` selects services by container image or by id, refuses a selection without
services or with a service that has no deployment, orders the services by dependency and fans every
service out to one deploy step per deployment, with a health check step behind it when the service
asks for one.

A `ServiceTable` is the set of service rows with what the query includes; its fields are the primary
keys. The query returns rows in the order of the table, which is arbitrary. The ids of the new rows
come from a `FreshIds`.
-/

namespace Bridgeport.Orchestration

/-- `ServiceDependency.type`. -/
inductive DependencyType
  | healthBefore
  | deployAfter
  deriving DecidableEq

structure ServiceDependency where
  type : DependencyType
  dependsOnId : String

structure ServiceDeployment where
  id : String

structure ServiceWithDeps where
  (id name imageTag containerImageId : String)
  healthCheckUrl : Option String
  dependencies : List ServiceDependency
  serviceDeployments : List ServiceDeployment

instance : ExtendsServiceOrderInput ServiceWithDeps where
  toOrderInput service := ⟨service.id, service.name, service.dependencies.map (·.dependsOnId)⟩

/-- The service rows, with the primary keys of services and of service deployments. -/
structure ServiceTable where
  services : List ServiceWithDeps
  nodup_ids : (serviceIds services).Nodup
  nodup_deploymentIds : (services.flatMap fun service ↦ service.serviceDeployments.map (·.id)).Nodup

/-- `PLAN_STATUS`. -/
inductive PlanStatus
  | pending
  | running
  | completed
  | failed
  | cancelled
  | rolledBack
  deriving DecidableEq

/-- `STEP_STATUS`. -/
inductive StepStatus
  | pending
  | running
  | success
  | failed
  | skipped
  | rolledBack
  deriving DecidableEq

/-- `DeploymentPlanStep.action`, as far as plans are built with it. -/
inductive StepAction
  | deploy
  | healthCheck
  deriving DecidableEq

/-- `DeploymentPlan.triggerType`. -/
inductive TriggerType
  | manual
  | webhook
  | autoUpdate

structure DeploymentPlanStep where
  (id deploymentPlanId serviceId serviceDeploymentId : String)
  order : ℕ
  action : StepAction
  targetTag : String
  previousTag : Option String
  status : StepStatus

structure DeploymentPlan where
  (id name : String)
  status : PlanStatus
  imageTag : String
  triggerType : TriggerType
  triggeredBy : String
  (autoRollback parallelExecution : Bool)
  environmentId : String
  (containerImageId userId : Option String)
  steps : List DeploymentPlanStep

/-- The primary keys that the database assigns to a new plan and to its steps. -/
structure FreshIds where
  planId : String
  stepId : ℕ → String
  stepId_injective : Function.Injective stepId

/-! ### The builder -/

/-- The options of `buildDeploymentPlan`. -/
structure BuildPlanOptions where
  environmentId : String
  containerImageId : Option String
  serviceIds : Option (List String)
  imageTag : String
  triggerType : TriggerType
  triggeredBy : String
  userId : Option String
  (autoRollback parallelExecution : Option Bool)

/-- An optional string as a condition: present and not empty. -/
def truthy (text : Option String) : Bool :=
  text.any (· ≠ "")

def selectServices (table : ServiceTable) (options : BuildPlanOptions) :
    Except String (List ServiceWithDeps) :=
  if truthy options.containerImageId then
    .ok (table.services.filter fun service ↦
      some service.containerImageId = options.containerImageId)
  else if options.serviceIds.any (· ≠ []) then
    .ok (table.services.filter (·.id ∈ options.serviceIds.getD []))
  else .error "Either containerImageId or serviceIds must be provided"

def planName (options : BuildPlanOptions) (services : List ServiceWithDeps) : String :=
  if truthy options.containerImageId then "Deploy " ++ options.imageTag
  else
    "Deploy " ++ ", ".intercalate ((services.map (·.name)).take 3) ++
      if services.length > 3 then "..." else ""

/-- The service has a dependency of type `health_before`. -/
def hasHealthDependency (service : ServiceWithDeps) : Bool :=
  service.dependencies.any (·.type = .healthBefore)

/-- The two variables of the fan-out loop. -/
structure StepDrafts where
  stepOrder : ℕ
  stepsToCreate : List DeploymentPlanStep

section

variable (ids : FreshIds) (options : BuildPlanOptions)

/-- The row that `createMany` writes for one draft. -/
def stepRow (order : ℕ) (service : ServiceWithDeps) (deployment : ServiceDeployment)
    (action : StepAction) : DeploymentPlanStep where
  id := ids.stepId order
  deploymentPlanId := ids.planId
  serviceId := service.id
  serviceDeploymentId := deployment.id
  order := order
  action := action
  targetTag := options.imageTag
  previousTag := some service.imageTag
  status := .pending

variable (service : ServiceWithDeps)

/-- `stepsToCreate.push` with `order: stepOrder++`. -/
def pushStep (deployment : ServiceDeployment) (action : StepAction) (drafts : StepDrafts) :
    StepDrafts :=
  ⟨drafts.stepOrder + 1,
    drafts.stepsToCreate ++ [stepRow ids options drafts.stepOrder service deployment action]⟩

def pushDeployment (drafts : StepDrafts) (deployment : ServiceDeployment) : StepDrafts :=
  let deployed := pushStep ids options service deployment .deploy drafts
  if hasHealthDependency service || truthy service.healthCheckUrl then
    pushStep ids options service deployment .healthCheck deployed
  else deployed

def pushService (drafts : StepDrafts) (service : ServiceWithDeps) : StepDrafts :=
  service.serviceDeployments.foldl (pushDeployment ids options service) drafts

/-- The fan-out loop over the levels. -/
def draftSteps (orderedLevels : List (List ServiceWithDeps)) : StepDrafts :=
  orderedLevels.foldl (fun drafts level ↦ level.foldl (pushService ids options) drafts) ⟨0, []⟩

def createPlan (services : List ServiceWithDeps) (orderedLevels : List (List ServiceWithDeps)) :
    DeploymentPlan :=
  { options with
    id := ids.planId
    name := planName options services
    status := .pending
    autoRollback := options.autoRollback.getD true
    parallelExecution := options.parallelExecution.getD false
    -- the steps are read back with `orderBy: { order: 'asc' }`
    steps := (draftSteps ids options orderedLevels).stepsToCreate.mergeSort (·.order ≤ ·.order) }

end

def emptyNames (services : List ServiceWithDeps) : List String :=
  (services.filter (·.serviceDeployments.length = 0)).map (·.name)

/-- `buildDeploymentPlan`: the created plan, or the error it throws. -/
def buildDeploymentPlan (table : ServiceTable) (ids : FreshIds) (options : BuildPlanOptions) :
    Option (Except String DeploymentPlan) :=
  match selectServices table options with
  | .error message => some (.error message)
  | .ok services =>
    if services.length = 0 then some (.error "No services found for deployment")
    else if (emptyNames services).length > 0 then
      some (.error ("Cannot build deployment plan — the following services have no deployments " ++
        "attached: " ++ ", ".intercalate (emptyNames services) ++
        ". Add at least one server before deploying."))
    else
      match resolveDependencyOrder services with
      | none => none
      | some (.error message) => some (.error message)
      | some (.ok orderedLevels) => some (.ok (createPlan ids options services orderedLevels))

end Bridgeport.Orchestration
