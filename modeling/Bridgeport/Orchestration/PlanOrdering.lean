import Bridgeport.Orchestration.CycleCheck
import Bridgeport.Orchestration.DeploymentPlan

/-!
# Ordering and health gating of a built plan

The fan-out loop writes its steps in the order of the planned actions: `plannedActions` lists them
per service and per deployment, and `draftSteps_eq` says that the rows are these actions numbered
from 0. Every ordering fact about the steps is then a `List.Pairwise` fact about the planned
actions, which comes from the levels of `resolveDependencyOrder`.
-/

namespace Bridgeport.Orchestration

structure PlannedAction where
  service : ServiceWithDeps
  deployment : ServiceDeployment
  action : StepAction

variable (service : ServiceWithDeps)

def isHealthChecked : Bool :=
  hasHealthDependency service || truthy service.healthCheckUrl

def deploymentActions (deployment : ServiceDeployment) : List PlannedAction :=
  ⟨service, deployment, .deploy⟩ ::
    if isHealthChecked service then [⟨service, deployment, .healthCheck⟩] else []

variable (services : List ServiceWithDeps)

def plannedActions : List PlannedAction :=
  services.flatMap fun service ↦ service.serviceDeployments.flatMap (deploymentActions service)

/-- `dependent` has a dependency entry of the given type on `dependency`. -/
def DependsOnWith (type : DependencyType) (dependent dependency : ServiceWithDeps) : Prop :=
  ∃ entry ∈ dependent.dependencies, entry.type = type ∧ entry.dependsOnId = dependency.id

/-- What the steps of a plan for the services promise: one deploy step for every deployment,
distinct orders, every step of a dependency before every deploy step of its dependents, and a health
check between the deploy step of a `health_before` dependency and its dependents. -/
structure PlanOrdered (services : List ServiceWithDeps) (steps : List DeploymentPlanStep) :
    Prop where
  deploys : ∀ service ∈ services, ∀ deployment ∈ service.serviceDeployments, ∃! step,
    step ∈ steps ∧ step.action = .deploy ∧ step.serviceId = service.id ∧
      step.serviceDeploymentId = deployment.id
  orders : (steps.map (·.order)).Nodup
  precedes : ∀ dependent ∈ services, ∀ dependency ∈ services,
    (∃ type, DependsOnWith type dependent dependency) →
      ∀ before ∈ steps, before.serviceId = dependency.id →
        ∀ after ∈ steps, after.serviceId = dependent.id → after.action = .deploy →
          before.order < after.order
  gated : ∀ dependent ∈ services, ∀ dependency ∈ services,
    DependsOnWith .healthBefore dependent dependency →
      ∀ deployment ∈ dependency.serviceDeployments, ∃ check ∈ steps,
        check.action = .healthCheck ∧ check.serviceDeploymentId = deployment.id ∧
          (∀ before ∈ steps, before.action = .deploy →
            before.serviceDeploymentId = deployment.id → before.order < check.order) ∧
          ∀ after ∈ steps, after.serviceId = dependent.id → after.action = .deploy →
            check.order < after.order

/-- The builder creates a plan with the promised steps for the services. -/
def PlanBuilt (table : ServiceTable) (ids : FreshIds) (options : BuildPlanOptions)
    (services : List ServiceWithDeps) : Prop :=
  ∃ plan, buildDeploymentPlan table ids options = some (.ok plan) ∧ PlanOrdered services plan.steps

/-- Every selected service that a selected service depends on with `health_before` gets health check
steps. -/
def GatesCovered : Prop :=
  ∀ dependent ∈ services, ∀ dependency ∈ services,
    DependsOnWith .healthBefore dependent dependency → isHealthChecked dependency = true

/-! ### The fan-out loop -/

section

variable (ids : FreshIds) (options : BuildPlanOptions) (stepOrder : ℕ)
  (actions : List PlannedAction)

/-- The rows of planned actions numbered from `stepOrder`. -/
def stepRows : List DeploymentPlanStep :=
  actions.mapIdx fun index planned ↦
    stepRow ids options (stepOrder + index) planned.service planned.deployment planned.action

variable (drafts : StepDrafts)

/-- The drafts after some further actions. -/
def StepDrafts.extend (actions : List PlannedAction) : StepDrafts :=
  ⟨drafts.stepOrder + actions.length,
    drafts.stepsToCreate ++ stepRows ids options drafts.stepOrder actions⟩

@[simp]
theorem stepRows_nil : stepRows ids options stepOrder [] = [] := rfl

theorem stepRows_append (first second : List PlannedAction) :
    stepRows ids options stepOrder (first ++ second) =
      stepRows ids options stepOrder first ++
        stepRows ids options (stepOrder + first.length) second := by
  rw [stepRows, List.mapIdx_append]
  refine congrArg (stepRows ids options stepOrder first ++ ·) ?_
  rw [stepRows]
  congr 1
  funext index planned
  rw [Nat.add_comm index, Nat.add_assoc]

@[simp]
theorem extend_nil : drafts.extend ids options [] = drafts := by
  simp [StepDrafts.extend]

@[simp]
theorem extend_extend (first second : List PlannedAction) :
    (drafts.extend ids options first).extend ids options second =
      drafts.extend ids options (first ++ second) := by
  simp only [StepDrafts.extend, List.length_append, stepRows_append, List.append_assoc,
    Nat.add_assoc]

/-- A loop whose body appends the actions of its item appends the actions of all items. -/
theorem foldl_extend {α : Type*} (body : StepDrafts → α → StepDrafts)
    (actions : α → List PlannedAction)
    (hbody : ∀ drafts item, body drafts item = drafts.extend ids options (actions item))
    (items : List α) (drafts : StepDrafts) :
    items.foldl body drafts = drafts.extend ids options (items.flatMap actions) := by
  induction items generalizing drafts with
  | nil => simp
  | cons item items ih => rw [List.foldl_cons, ih, hbody, extend_extend, List.flatMap_cons]

theorem pushDeployment_eq (service : ServiceWithDeps) (drafts : StepDrafts)
    (deployment : ServiceDeployment) :
    pushDeployment ids options service drafts deployment =
      drafts.extend ids options (deploymentActions service deployment) := by
  unfold pushDeployment deploymentActions isHealthChecked
  split_ifs with hcheck
  · simp [pushStep, StepDrafts.extend, stepRows]
  · simp [pushStep, StepDrafts.extend, stepRows]

/-- The fan-out loop writes the planned actions of the flattened levels, numbered from 0. -/
theorem draftSteps_eq (orderedLevels : List (List ServiceWithDeps)) :
    (draftSteps ids options orderedLevels).stepsToCreate =
      stepRows ids options 0 (plannedActions orderedLevels.flatten) := by
  have hservice : ∀ drafts service, pushService ids options drafts service =
      drafts.extend ids options (service.serviceDeployments.flatMap (deploymentActions service)) :=
    fun drafts service ↦ foldl_extend ids options _ _ (pushDeployment_eq ids options service) _ _
  have hlevel : ∀ drafts level, List.foldl (pushService ids options) drafts level =
      drafts.extend ids options (plannedActions level) :=
    fun drafts level ↦ foldl_extend ids options _ _ hservice _ _
  rw [draftSteps, foldl_extend ids options _ _ hlevel, StepDrafts.extend, List.nil_append]
  rw [plannedActions, List.flatten_eq_flatMap, List.flatMap_assoc]
  rfl

theorem mem_stepRows_iff (step : DeploymentPlanStep) :
    step ∈ stepRows ids options 0 actions ↔ ∃ (index : ℕ) (planned : PlannedAction),
      actions[index]? = some planned ∧
        stepRow ids options index planned.service planned.deployment planned.action = step := by
  simp only [stepRows, List.mem_mapIdx, List.getElem?_eq_some_iff, Nat.zero_add]
  constructor
  · rintro ⟨index, hindex, hstep⟩
    exact ⟨index, actions[index], ⟨hindex, rfl⟩, hstep⟩
  · rintro ⟨index, planned, ⟨hindex, rfl⟩, hstep⟩
    exact ⟨index, hindex, hstep⟩

theorem map_order_stepRows :
    (stepRows ids options 0 actions).map (·.order) = List.range actions.length := by
  refine List.ext_getElem (by simp [stepRows]) fun index hleft hright ↦ ?_
  simp [stepRows, stepRow]

/-- The rows are already in the order in which they are read back. -/
theorem steps_createPlan (services : List ServiceWithDeps)
    (orderedLevels : List (List ServiceWithDeps)) :
    (createPlan ids options services orderedLevels).steps =
      stepRows ids options 0 (plannedActions orderedLevels.flatten) := by
  have hsorted : (stepRows ids options 0 (plannedActions orderedLevels.flatten)).Pairwise
      fun first second ↦ first.order < second.order := by
    rw [← List.pairwise_map (f := fun step : DeploymentPlanStep ↦ step.order), map_order_stepRows]
    exact List.pairwise_lt_range
  rw [createPlan, draftSteps_eq]
  refine List.mergeSort_of_pairwise (hsorted.imp fun hlt ↦ ?_)
  exact decide_eq_true hlt.le

end

/-! ### The order of the planned actions -/

theorem mem_plannedActions_iff (planned : PlannedAction) :
    planned ∈ plannedActions services ↔ planned.service ∈ services ∧
      planned.deployment ∈ planned.service.serviceDeployments ∧
      (planned.action = .healthCheck → isHealthChecked planned.service = true) := by
  obtain ⟨service, deployment, action⟩ := planned
  simp only [plannedActions, deploymentActions, List.mem_flatMap, List.mem_cons]
  constructor
  · rintro ⟨other, hother, otherDeployment, hdeployment, hplanned | hplanned⟩
    · obtain ⟨rfl, rfl, rfl⟩ := PlannedAction.mk.inj hplanned
      exact ⟨hother, hdeployment, nofun⟩
    · split_ifs at hplanned with hcheck
      · obtain ⟨rfl, rfl, rfl⟩ := PlannedAction.mk.inj (List.mem_singleton.mp hplanned)
        exact ⟨hother, hdeployment, fun _ ↦ hcheck⟩
      · exact absurd hplanned List.not_mem_nil
  · rintro ⟨hservice, hdeployment, hcheck⟩
    refine ⟨service, hservice, deployment, hdeployment, ?_⟩
    cases action with
    | deploy => exact .inl rfl
    | healthCheck => exact .inr (by rw [if_pos (hcheck rfl)]; exact List.mem_singleton_self _)

/-- The first of two planned actions does not belong to a dependent of the second, and on one
deployment it is the deploy action and the second is the health check. -/
structure MayPrecede (first second : PlannedAction) : Prop where
  independent : second.service.id ∉ dependsOnIds first.service
  deployFirst : first.deployment.id = second.deployment.id →
    first.action = .deploy ∧ second.action = .healthCheck

def deploymentIds : List String :=
  services.flatMap fun service ↦ service.serviceDeployments.map (·.id)

variable {services : List ServiceWithDeps}

/-- Assumes: the services are in dependency order, none depends on itself, and deployment ids are
distinct. -/
theorem pairwise_plannedActions
    (hordered : services.Pairwise fun first second ↦ second.id ∉ dependsOnIds first)
    (hself : ∀ service ∈ services, service.id ∉ dependsOnIds service)
    (hdeployments : (deploymentIds services).Nodup) :
    (plannedActions services).Pairwise MayPrecede := by
  obtain ⟨hwithin, hdisjoint⟩ := List.nodup_flatMap.mp hdeployments
  have hmem : ∀ (service : ServiceWithDeps) (deployment : ServiceDeployment)
      (planned : PlannedAction), planned ∈ deploymentActions service deployment →
        planned.service = service ∧ planned.deployment = deployment := by
    intro service deployment planned hplanned
    rcases List.mem_cons.mp hplanned with rfl | hplanned
    · exact ⟨rfl, rfl⟩
    · split_ifs at hplanned
      · rw [List.mem_singleton.mp hplanned]
        exact ⟨rfl, rfl⟩
      · exact absurd hplanned List.not_mem_nil
  refine List.pairwise_flatMap.mpr ⟨fun service hservice ↦ ?_, ?_⟩
  · refine List.pairwise_flatMap.mpr ⟨fun deployment _ ↦ ?_, ?_⟩
    · unfold deploymentActions
      split_ifs
      · refine List.pairwise_pair.mpr ⟨hself service hservice, fun _ ↦ ⟨rfl, rfl⟩⟩
      · exact List.pairwise_singleton _ _
    · refine (List.pairwise_map.mp (hwithin service hservice)).imp ?_
      intro deployment other hne first hfirst second hsecond
      obtain ⟨hfirst, hfirst'⟩ := hmem _ _ _ hfirst
      obtain ⟨hsecond, hsecond'⟩ := hmem _ _ _ hsecond
      refine ⟨?_, fun hsame ↦ absurd ?_ hne⟩
      · rw [hfirst, hsecond]
        exact hself service hservice
      · rw [← hfirst', ← hsecond', hsame]
  · refine (hordered.and hdisjoint).imp ?_
    rintro service other ⟨hindependent, hdisjoint⟩ first hfirst second hsecond
    obtain ⟨deployment, hdeployment, hfirst⟩ := List.mem_flatMap.mp hfirst
    obtain ⟨otherDeployment, hother, hsecond⟩ := List.mem_flatMap.mp hsecond
    obtain ⟨hfirst, hfirst'⟩ := hmem _ _ _ hfirst
    obtain ⟨hsecond, hsecond'⟩ := hmem _ _ _ hsecond
    refine ⟨by rwa [hfirst, hsecond], fun hsame ↦ ?_⟩
    refine absurd (List.mem_map_of_mem hother) (hdisjoint (a := otherDeployment.id) ?_)
    rw [← hsecond', ← hsame, hfirst']
    exact List.mem_map_of_mem hdeployment

theorem OrderedLevels.pairwise_flatten {levels : List (List ServiceWithDeps)}
    (h : OrderedLevels services levels) :
    levels.flatten.Pairwise fun first second ↦ second.id ∉ dependsOnIds first := by
  refine List.pairwise_flatten.mpr ⟨fun level hlevel ↦ ?_, ?_⟩
  · obtain ⟨i, hi⟩ := List.mem_iff_getElem?.mp hlevel
    exact List.pairwise_of_forall_mem_list fun first hfirst second hsecond hdepends ↦
      lt_irrefl i (h.earlier i i level level hi hi first hfirst second hsecond hdepends)
  · refine List.pairwise_iff_getElem.mpr fun i j hi hj hlt first hfirst second hsecond hdepends ↦ ?_
    exact lt_asymm hlt (h.earlier i j _ _ (List.getElem?_eq_getElem hi)
      (List.getElem?_eq_getElem hj) first hfirst second hsecond hdepends)

/-! ### The steps of a built plan -/

section

variable {ids : FreshIds} {options : BuildPlanOptions} {services : List ServiceWithDeps}
  {actions : List PlannedAction}

/-- Two steps of distinct planned actions stand in the order of their actions. -/
theorem order_trichotomy (hpairwise : actions.Pairwise MayPrecede) {i j : ℕ}
    {first second : PlannedAction} (hfirst : actions[i]? = some first)
    (hsecond : actions[j]? = some second) :
    (i < j ∧ MayPrecede first second) ∨ (i = j ∧ first = second) ∨
      (j < i ∧ MayPrecede second first) := by
  obtain ⟨hi, rfl⟩ := List.getElem?_eq_some_iff.mp hfirst
  obtain ⟨hj, rfl⟩ := List.getElem?_eq_some_iff.mp hsecond
  rcases lt_trichotomy i j with hlt | heq | hlt
  · exact .inl ⟨hlt, List.pairwise_iff_getElem.mp hpairwise i j hi hj hlt⟩
  · exact .inr (.inl ⟨heq, by simp only [heq]⟩)
  · exact .inr (.inr ⟨hlt, List.pairwise_iff_getElem.mp hpairwise j i hj hi hlt⟩)

/-- Every step of a dependency stands before every step of its dependents. -/
theorem order_lt_of_dependsOn (hpairwise : actions.Pairwise MayPrecede) {i j : ℕ}
    {before after : PlannedAction} (hbefore : actions[i]? = some before)
    (hafter : actions[j]? = some after)
    (hdepends : before.service.id ∈ dependsOnIds after.service)
    (hself : after.service.id ∉ dependsOnIds after.service) : i < j := by
  rcases order_trichotomy hpairwise hbefore hafter with ⟨hlt, -⟩ | ⟨-, heq⟩ | ⟨-, hmay⟩
  · exact hlt
  · exact absurd (heq ▸ hdepends) hself
  · exact absurd hdepends hmay.independent

/-- What the steps of a plan inherit from the planned actions: `ordered` is a dependency order of
the services, whose ids and deployment ids are distinct. -/
structure PlanOrder (services ordered : List ServiceWithDeps) : Prop where
  nodup_ids : (serviceIds services).Nodup
  nodup_deploymentIds : (deploymentIds services).Nodup
  perm : ordered.Perm services
  pairwise : ordered.Pairwise fun first second ↦ second.id ∉ dependsOnIds first
  irreflexive : ∀ service ∈ services, service.id ∉ dependsOnIds service

namespace PlanOrder

variable {ordered : List ServiceWithDeps} (h : PlanOrder services ordered)

include h

theorem pairwise_mayPrecede : (plannedActions ordered).Pairwise MayPrecede :=
  pairwise_plannedActions h.pairwise (fun service hservice ↦
    h.irreflexive service (h.perm.mem_iff.mp hservice))
    ((h.perm.flatMap_right _).nodup_iff.mpr h.nodup_deploymentIds)

variable {service : ServiceWithDeps}

theorem service_unique {other : ServiceWithDeps} {deployment otherDeployment : ServiceDeployment}
    (hservice : service ∈ services) (hother : other ∈ services)
    (hdeployment : deployment ∈ service.serviceDeployments)
    (hotherDeployment : otherDeployment ∈ other.serviceDeployments)
    (hsame : deployment.id = otherDeployment.id) : service = other := by
  by_contra hne
  have hdisjoint := (List.nodup_flatMap.mp h.nodup_deploymentIds).2
  have hsymm : Std.Symm (Function.onFun List.Disjoint fun service : ServiceWithDeps ↦
      service.serviceDeployments.map (·.id)) := ⟨fun _ _ hdisjoint ↦ hdisjoint.symm⟩
  refine (hdisjoint.forall hservice hother hne) (List.mem_map_of_mem hdeployment) ?_
  rw [hsame]
  exact List.mem_map_of_mem hotherDeployment

theorem exists_planned {step : DeploymentPlanStep}
    (hstep : step ∈ stepRows ids options 0 (plannedActions ordered)) :
    ∃ planned, (plannedActions ordered)[step.order]? = some planned ∧
      planned.service ∈ services ∧ planned.service.id = step.serviceId ∧
      planned.deployment.id = step.serviceDeploymentId ∧ planned.action = step.action := by
  obtain ⟨index, planned, hplanned, rfl⟩ := (mem_stepRows_iff ids options _ step).mp hstep
  have hservice := ((mem_plannedActions_iff ordered planned).mp (List.mem_of_getElem? hplanned)).1
  exact ⟨planned, hplanned, h.perm.mem_iff.mp hservice, rfl, rfl, rfl⟩

theorem exists_step (ids : FreshIds) (options : BuildPlanOptions) {deployment : ServiceDeployment}
    (action : StepAction) (hservice : service ∈ services)
    (hdeployment : deployment ∈ service.serviceDeployments)
    (hcheck : action = .healthCheck → isHealthChecked service = true) :
    ∃ step ∈ stepRows ids options 0 (plannedActions ordered), step.action = action ∧
      step.serviceId = service.id ∧ step.serviceDeploymentId = deployment.id := by
  have hplanned : (⟨service, deployment, action⟩ : PlannedAction) ∈ plannedActions ordered :=
    (mem_plannedActions_iff ordered _).mpr ⟨h.perm.mem_iff.mpr hservice, hdeployment, hcheck⟩
  obtain ⟨index, hindex⟩ := List.mem_iff_getElem?.mp hplanned
  exact ⟨_, (mem_stepRows_iff ids options _ _).mpr ⟨index, _, hindex, rfl⟩, rfl, rfl, rfl⟩

theorem deploy_lt_check {deploy check : DeploymentPlanStep}
    (hdeploy : deploy ∈ stepRows ids options 0 (plannedActions ordered))
    (hcheck : check ∈ stepRows ids options 0 (plannedActions ordered))
    (hdeployAction : deploy.action = .deploy) (hcheckAction : check.action = .healthCheck)
    (hsame : deploy.serviceDeploymentId = check.serviceDeploymentId) :
    deploy.order < check.order := by
  obtain ⟨planned, hplanned, -, -, hdeployment, haction⟩ := h.exists_planned hdeploy
  obtain ⟨other, hother, -, -, hdeployment', haction'⟩ := h.exists_planned hcheck
  rw [hdeployAction] at haction
  rw [hcheckAction] at haction'
  rcases order_trichotomy h.pairwise_mayPrecede hplanned hother with
    ⟨hlt, -⟩ | ⟨-, heq⟩ | ⟨-, hmay⟩
  · exact hlt
  · rw [heq, haction'] at haction
    nomatch haction
  · have hfirst := (hmay.deployFirst (by rw [hdeployment', ← hsame, hdeployment])).1
    rw [haction'] at hfirst
    nomatch hfirst

theorem deploy_unique {step other : DeploymentPlanStep}
    (hstep : step ∈ stepRows ids options 0 (plannedActions ordered))
    (hother : other ∈ stepRows ids options 0 (plannedActions ordered))
    (haction : step.action = .deploy) (haction' : other.action = .deploy)
    (hsame : step.serviceDeploymentId = other.serviceDeploymentId) : step = other := by
  obtain ⟨index, planned, hplanned, rfl⟩ := (mem_stepRows_iff ids options _ step).mp hstep
  obtain ⟨index', planned', hplanned', rfl⟩ := (mem_stepRows_iff ids options _ other).mp hother
  replace haction : planned.action = .deploy := haction
  replace haction' : planned'.action = .deploy := haction'
  rcases order_trichotomy h.pairwise_mayPrecede hplanned hplanned' with
    ⟨-, hmay⟩ | ⟨heq, heq'⟩ | ⟨-, hmay⟩
  · have hsecond := (hmay.deployFirst hsame).2
    rw [haction'] at hsecond
    nomatch hsecond
  · rw [heq, heq']
  · have hsecond := (hmay.deployFirst hsame.symm).2
    rw [haction] at hsecond
    nomatch hsecond

theorem order_lt {dependent dependency : ServiceWithDeps} (hdependent : dependent ∈ services)
    (hdepends : dependency.id ∈ dependsOnIds dependent) {before after : DeploymentPlanStep}
    (hbefore : before ∈ stepRows ids options 0 (plannedActions ordered))
    (hafter : after ∈ stepRows ids options 0 (plannedActions ordered))
    (hbeforeId : before.serviceId = dependency.id) (hafterId : after.serviceId = dependent.id) :
    before.order < after.order := by
  obtain ⟨planned, hplanned, -, hid, -⟩ := h.exists_planned hbefore
  obtain ⟨other, hother, hservice, hid', -⟩ := h.exists_planned hafter
  have hsame : other.service = dependent :=
    List.inj_on_of_nodup_map h.nodup_ids hservice hdependent (hid'.trans hafterId)
  refine order_lt_of_dependsOn h.pairwise_mayPrecede hplanned hother ?_ ?_
  · rwa [hid, hbeforeId, hsame]
  · exact h.irreflexive _ hservice

theorem order_lt_of_append {earlier later : List ServiceWithDeps}
    (hsplit : ordered = earlier ++ later) {before after : DeploymentPlanStep}
    (hbefore : before ∈ stepRows ids options 0 (plannedActions ordered))
    (hafter : after ∈ stepRows ids options 0 (plannedActions ordered))
    {first second : ServiceWithDeps} (hfirst : first ∈ earlier) (hsecond : second ∈ later)
    (hbeforeId : before.serviceId = first.id) (hafterId : after.serviceId = second.id) :
    before.order < after.order := by
  have hids : (serviceIds ordered).Nodup := (h.perm.map _).nodup_iff.mpr h.nodup_ids
  have hdisjoint : earlier.Disjoint later := by
    rw [hsplit] at hids
    exact List.disjoint_of_nodup_append (List.Nodup.of_map _ hids)
  have hactions : plannedActions ordered = plannedActions earlier ++ plannedActions later := by
    rw [hsplit]
    exact List.flatMap_append
  -- the action of a step is an action of its service
  have hservice : ∀ {step : DeploymentPlanStep} {service : ServiceWithDeps},
      step ∈ stepRows ids options 0 (plannedActions ordered) → service ∈ ordered →
      step.serviceId = service.id → ∃ planned,
        (plannedActions ordered)[step.order]? = some planned ∧ planned.service = service := by
    intro step service hstep hmem hid
    obtain ⟨planned, hplanned, hplannedService, hplannedId, -⟩ := h.exists_planned hstep
    refine ⟨planned, hplanned, ?_⟩
    exact List.inj_on_of_nodup_map h.nodup_ids hplannedService (h.perm.mem_iff.mp hmem)
      (hplannedId.trans hid)
  obtain ⟨planned, hplanned, rfl⟩ :=
    hservice hbefore (hsplit ▸ List.mem_append_left _ hfirst) hbeforeId
  obtain ⟨other, hother, rfl⟩ :=
    hservice hafter (hsplit ▸ List.mem_append_right _ hsecond) hafterId
  rw [hactions] at hplanned hother
  have hbound : before.order < (plannedActions earlier).length := by
    by_contra hge
    rw [List.getElem?_append_right (not_lt.mp hge)] at hplanned
    exact hdisjoint hfirst ((mem_plannedActions_iff _ _).mp (List.mem_of_getElem? hplanned)).1
  have hbeyond : (plannedActions earlier).length ≤ after.order := by
    by_contra hlt
    rw [List.getElem?_append_left (not_le.mp hlt)] at hother
    exact hdisjoint ((mem_plannedActions_iff _ _).mp (List.mem_of_getElem? hother)).1 hsecond
  exact hbound.trans_le hbeyond

/-- The steps of an ordered plan keep every promise exactly when the gates are covered. Assumes:
every service has a deployment. -/
theorem planOrdered_iff (ids : FreshIds) (options : BuildPlanOptions)
    (hdeployed : ∀ service ∈ services, service.serviceDeployments ≠ []) :
    PlanOrdered services (stepRows ids options 0 (plannedActions ordered)) ↔
      GatesCovered services := by
  have hdependsOn : ∀ {type dependent dependency}, DependsOnWith type dependent dependency →
      dependency.id ∈ dependsOnIds dependent := by
    rintro type dependent dependency ⟨entry, hentry, -, hid⟩
    exact List.mem_map.mpr ⟨entry, hentry, hid⟩
  constructor
  · intro hplan dependent hdependent dependency hdependency hdepends
    obtain ⟨deployment, hdeployment⟩ := List.exists_mem_of_ne_nil _ (hdeployed _ hdependency)
    obtain ⟨check, hcheck, haction, hid, -⟩ :=
      hplan.gated _ hdependent _ hdependency hdepends _ hdeployment
    obtain ⟨index, planned, hplanned, rfl⟩ := (mem_stepRows_iff ids options _ check).mp hcheck
    obtain ⟨hservice, hplannedDeployment, hchecked⟩ :=
      (mem_plannedActions_iff ordered planned).mp (List.mem_of_getElem? hplanned)
    rw [← h.service_unique (h.perm.mem_iff.mp hservice) hdependency hplannedDeployment hdeployment
      hid]
    exact hchecked haction
  · intro hcovered
    refine ⟨fun service hservice deployment hdeployment ↦ ?_, ?_, ?_, ?_⟩
    · obtain ⟨step, hstep, haction, hid, hdeploymentId⟩ :=
        h.exists_step ids options .deploy hservice hdeployment nofun
      refine ⟨step, ⟨hstep, haction, hid, hdeploymentId⟩, ?_⟩
      rintro other ⟨hother, haction', -, hdeploymentId'⟩
      exact h.deploy_unique hother hstep haction' haction (hdeploymentId'.trans hdeploymentId.symm)
    · rw [map_order_stepRows]
      exact List.nodup_range
    · rintro dependent hdependent dependency -
        ⟨type, hdepends⟩ before hbefore hid after hafter hid' -
      exact h.order_lt hdependent (hdependsOn hdepends) hbefore hafter hid hid'
    · intro dependent hdependent dependency hdependency hdepends deployment hdeployment
      obtain ⟨check, hcheck, haction, hid, hdeploymentId⟩ :=
        h.exists_step ids options .healthCheck hdependency hdeployment
          fun _ ↦ hcovered _ hdependent _ hdependency hdepends
      refine ⟨check, hcheck, haction, hdeploymentId, ?_, ?_⟩
      · intro before hbefore hbeforeAction hbeforeId
        exact h.deploy_lt_check hbefore hcheck hbeforeAction haction
          (hbeforeId.trans hdeploymentId.symm)
      · intro after hafter hafterId _
        exact h.order_lt hdependent (hdependsOn hdepends) hcheck hafter hid hafterId

end PlanOrder

end

/-! ### The plans that are built -/

variable {table : ServiceTable} {options : BuildPlanOptions}

theorem sublist_of_selectServices (h : selectServices table options = .ok services) :
    services.Sublist table.services := by
  unfold selectServices at h
  split_ifs at h
  · rw [← Except.ok.inj h]
    exact List.filter_sublist
  · rw [← Except.ok.inj h]
    exact List.filter_sublist

theorem not_mem_dependsOnIds_of_not_hasCycle (hacyclic : ¬ HasCycle services)
    (service : ServiceWithDeps) (hservice : service ∈ services) :
    service.id ∉ dependsOnIds service := fun hself ↦
  hacyclic ⟨service.id, Relation.TransGen.single
    ⟨(mem_edges_iff _ _ _).mpr ⟨service, hservice, rfl, hself⟩, List.mem_map_of_mem hservice⟩⟩

theorem emptyNames_eq_nil (hdeployed : ∀ service ∈ services, service.serviceDeployments ≠ []) :
    emptyNames services = [] := by
  rw [emptyNames, List.map_eq_nil_iff, List.filter_eq_nil_iff]
  intro service hservice hlength
  exact hdeployed service hservice (List.length_eq_zero_iff.mp (of_decide_eq_true hlength))

/-- A selection that passes the checks gives the plan of its levels, or the error of
`resolveDependencyOrder`. -/
theorem buildDeploymentPlan_of_selected (ids : FreshIds)
    (hselected : selectServices table options = .ok services) (hnonempty : services ≠ [])
    (hdeployed : ∀ service ∈ services, service.serviceDeployments ≠ []) :
    buildDeploymentPlan table ids options =
      (resolveDependencyOrder services).map (Except.map (createPlan ids options services)) := by
  have hempty := emptyNames_eq_nil hdeployed
  rcases hlevels : resolveDependencyOrder services with _ | message | levels
  · simp [buildDeploymentPlan, hselected, hnonempty, hempty, hlevels]
  · simp [buildDeploymentPlan, hselected, hnonempty, hempty, hlevels, Except.map]
  · simp [buildDeploymentPlan, hselected, hnonempty, hempty, hlevels, Except.map]

/-- For a non-empty acyclic selection whose services all have a deployment, the builder creates a
plan with the promised steps exactly when no unlisted service is the target of two dependency
entries of the selection and every selected `health_before` dependency gets health check steps of
its own. -/
theorem planBuilt_iff (table : ServiceTable) (ids : FreshIds) (options : BuildPlanOptions)
    (services : List ServiceWithDeps) (hselected : selectServices table options = .ok services)
    (hnonempty : services ≠ []) (hacyclic : ¬ HasCycle services)
    (hdeployed : ∀ service ∈ services, service.serviceDeployments ≠ []) :
    PlanBuilt table ids options services ↔
      (unlistedTargets services).Nodup ∧ GatesCovered services := by
  have hsublist := sublist_of_selectServices hselected
  have hids : (serviceIds services).Nodup := (hsublist.map _).nodup table.nodup_ids
  have hdeployments : (deploymentIds services).Nodup :=
    (hsublist.flatMap _).nodup table.nodup_deploymentIds
  have hrun := buildDeploymentPlan_of_selected ids hselected hnonempty hdeployed
  rcases resolveDependencyOrder_cases hids with ⟨hcause, message, hmessage⟩ |
    ⟨-, hdistinct, levels, hlevels, hordered⟩
  · rw [hmessage] at hrun
    refine iff_of_false ?_ fun hcondition ↦ ?_
    · rintro ⟨plan, hplan, -⟩
      rw [hrun] at hplan
      nomatch Option.some.inj hplan
    · exact hcause.elim hacyclic (absurd hcondition.1)
  · rw [hlevels] at hrun
    have horder : PlanOrder services levels.flatten :=
      ⟨hids, hdeployments, hordered.perm, hordered.pairwise_flatten,
        not_mem_dependsOnIds_of_not_hasCycle hacyclic⟩
    have hsteps := horder.planOrdered_iff ids options hdeployed
    rw [← steps_createPlan ids options services levels] at hsteps
    constructor
    · rintro ⟨plan, hplan, hpromised⟩
      rw [hrun] at hplan
      rw [← Except.ok.inj (Option.some.inj hplan)] at hpromised
      exact ⟨hdistinct, hsteps.mp hpromised⟩
    · rintro ⟨-, hcovered⟩
      exact ⟨_, hrun, hsteps.mpr hcovered⟩

/-- A frontend that waits for the health of an api without a health check URL. -/
def healthGate : ServiceTable where
  services :=
    [⟨"api", "api", "v1", "api-image", none, [], [⟨"api-1"⟩]⟩,
      ⟨"frontend", "frontend", "v1", "frontend-image", none, [⟨.healthBefore, "api"⟩],
        [⟨"frontend-1"⟩]⟩]
  nodup_ids := by decide
  nodup_deploymentIds := by decide

def healthGateOptions : BuildPlanOptions where
  environmentId := "production"
  containerImageId := none
  serviceIds := some ["api", "frontend"]
  imageTag := "v2"
  triggerType := .manual
  triggeredBy := "operator"
  userId := none
  autoRollback := none
  parallelExecution := none

/-- The ids of a new plan whose steps are numbered in unary. -/
def countedIds : FreshIds where
  planId := "plan"
  stepId order := String.ofList (List.replicate order 's')
  stepId_injective first second hsame := by
    simpa using congrArg String.length hsame

theorem not_hasCycle_healthGate : ¬ HasCycle healthGate.services := by
  have hedges : ∀ entry ∈ edges healthGate.services, entry = ("frontend", "api") := by decide
  rintro ⟨serviceId, hcycle⟩
  obtain ⟨next, hfirst, hrest⟩ := Relation.TransGen.head'_iff.mp hcycle
  obtain ⟨rfl, rfl⟩ := Prod.mk.inj (hedges _ hfirst.1)
  rcases Relation.ReflTransGen.cases_head hrest with hsame | ⟨after, hsecond, -⟩
  · exact absurd hsame (by decide)
  · exact absurd (Prod.mk.inj (hedges _ hsecond.1)).1 (by decide)

/-- The plan is built with a health check on the frontend only: the api is not verified before the
frontend is deployed. -/
theorem not_planBuilt_healthGate :
    selectServices healthGate healthGateOptions = .ok healthGate.services ∧
      ¬ HasCycle healthGate.services ∧
      (∀ service ∈ healthGate.services, service.serviceDeployments ≠ []) ∧
      ¬ PlanBuilt healthGate countedIds healthGateOptions healthGate.services := by
  have hdeployed : ∀ service ∈ healthGate.services, service.serviceDeployments ≠ [] := by
    simp [healthGate]
  refine ⟨rfl, not_hasCycle_healthGate, hdeployed, ?_⟩
  rintro ⟨plan, hplan, hpromised⟩
  have hlevels : resolveDependencyOrder healthGate.services =
      some (.ok (healthGate.services.map fun service ↦ [service])) := rfl
  have hselected : selectServices healthGate healthGateOptions = .ok healthGate.services := rfl
  rw [buildDeploymentPlan_of_selected countedIds hselected (by simp [healthGate]) hdeployed,
    hlevels] at hplan
  rw [← Except.ok.inj (Option.some.inj hplan), steps_createPlan] at hpromised
  obtain ⟨check, hcheck, haction, hdeployment, -⟩ := hpromised.gated _
    (List.mem_cons_of_mem _ (List.mem_singleton_self _)) _ List.mem_cons_self
    ⟨_, List.mem_singleton_self _, rfl, rfl⟩ _ (List.mem_singleton_self _)
  have hchecks : ∀ step ∈ stepRows countedIds healthGateOptions 0
      (plannedActions (healthGate.services.map fun service ↦ [service]).flatten),
      step.action = .healthCheck → step.serviceDeploymentId = "frontend-1" := by decide
  rw [hchecks check hcheck haction] at hdeployment
  exact absurd hdeployment (by decide)

def checkedGate : ServiceTable where
  services :=
    [⟨"api", "api", "v1", "api-image", some "http://api/health", [], [⟨"api-1"⟩]⟩,
      ⟨"frontend", "frontend", "v1", "frontend-image", none, [⟨.healthBefore, "api"⟩],
        [⟨"frontend-1"⟩]⟩]
  nodup_ids := by decide
  nodup_deploymentIds := by decide

/-- With the URL the api is verified before the frontend is deployed. -/
theorem planBuilt_checkedGate :
    PlanBuilt checkedGate countedIds healthGateOptions checkedGate.services := by
  refine (planBuilt_iff checkedGate countedIds healthGateOptions checkedGate.services rfl
    (by simp [checkedGate]) not_hasCycle_healthGate (by simp [checkedGate])).mpr ⟨by decide, ?_⟩
  intro dependent hdependent dependency hdependency hdepends
  rcases List.mem_cons.mp hdependency with rfl | hdependency
  · decide
  · rw [List.mem_singleton.mp hdependency]
    decide

end Bridgeport.Orchestration
