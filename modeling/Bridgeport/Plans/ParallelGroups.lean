import Bridgeport.Deploy.Outcome
import Bridgeport.Orchestration.PlanOrdering
import Bridgeport.Plans.PlanStore

/-!
# Dependency levels and concurrent groups

In parallel mode `executePlan` runs the steps with the same order at once. The orders that
`buildDeploymentPlan` gives are all different, so every group has one step: the levels of
`resolveDependencyOrder` are kept in order, but the services of a level do not run together.
-/

namespace Bridgeport.Plans

open Foundation Orchestration Deploy Program List

variable (steps : List StepWithDeployment)

theorem groupStepsByLevel_eq : groupStepsByLevel steps = OrderedMap.groupBy (·.order) steps :=
  rfl

theorem sortedLevels_eq :
    sortedLevels steps = ((groupStepsByLevel steps).keys.mergeSort (· ≤ ·)).map fun level ↦
      steps.filter (·.order = level) := by
  unfold sortedLevels
  refine map_congr_left fun level _ ↦ ?_
  rw [groupStepsByLevel_eq]
  exact OrderedMap.getD_groupBy _ _ _

variable {steps group : List StepWithDeployment}

theorem order_eq_of_mem_group (hgroup : group ∈ sortedLevels steps)
    {step other : StepWithDeployment} (hstep : step ∈ group) (hother : other ∈ group) :
    step.order = other.order := by
  rw [sortedLevels_eq] at hgroup
  obtain ⟨level, -, rfl⟩ := mem_map.mp hgroup
  rw [mem_filter, decide_eq_true_eq] at hstep hother
  exact hstep.2.trans hother.2.symm

theorem exists_earlier_group {before after : List (List StepWithDeployment)}
    (hsplit : sortedLevels steps = before ++ group :: after) {earlier later : StepWithDeployment}
    (hlater : later ∈ group) (hearlier : earlier ∈ steps) (hlt : earlier.order < later.order) :
    ∃ first ∈ before, earlier ∈ first := by
  rw [sortedLevels_eq] at hsplit
  obtain ⟨keys, rest, hkeys, hbefore, hrest⟩ := map_eq_append_iff.mp hsplit
  obtain ⟨level, remaining, hlevel, hgroup, -⟩ := map_eq_cons_iff.mp hrest
  have hsorted : (keys ++ level :: remaining).Pairwise (· ≤ ·) := by
    rw [← hlevel, ← hkeys]
    exact pairwise_mergeSort' (· ≤ ·) _
  have hkey : earlier.order ∈ keys ++ level :: remaining := by
    rw [← hlevel, ← hkeys, mem_mergeSort, groupStepsByLevel_eq, OrderedMap.mem_keys_groupBy]
    exact ⟨earlier, hearlier, rfl⟩
  rw [← hgroup, mem_filter, decide_eq_true_eq] at hlater
  rw [hlater.2] at hlt
  have hin : earlier.order ∈ keys := by
    refine (mem_append.mp hkey).resolve_right fun hlast ↦ ?_
    rcases mem_cons.mp hlast with hsame | hbeyond
    · exact absurd hsame hlt.ne
    · have hle := (pairwise_cons.mp (pairwise_append.mp hsorted).2.1).1 _ hbeyond
      exact absurd hlt (not_lt.mpr hle)
  refine ⟨_, hbefore ▸ mem_map_of_mem hin, ?_⟩
  rw [mem_filter, decide_eq_true_eq]
  exact ⟨hearlier, rfl⟩

/-! ### Levels -/

/-- What `executePlan` reads of a plan as it was built. -/
structure ReadsPlan (plan : DeploymentPlan) (read : PlanWithSteps) : Prop where
  id : read.id = plan.id
  status : read.status = plan.status
  triggeredBy : read.triggeredBy = plan.triggeredBy
  autoRollback : read.autoRollback = plan.autoRollback
  parallelExecution : read.parallelExecution = plan.parallelExecution
  steps : read.steps.map (·.toDeploymentPlanStep) = plan.steps
  deployments : ∀ step ∈ read.steps, ∃ deployment, step.serviceDeployment = some deployment ∧
    deployment.id = step.serviceDeploymentId

def OfLevel (level : List ServiceWithDeps) (step : StepWithDeployment) : Prop :=
  ∃ service ∈ level, step.serviceId = service.id

variable (levels : List (List ServiceWithDeps))

/-- The deploy steps of two services of a level are in one group. -/
def LevelsTogether (steps : List StepWithDeployment) : Prop :=
  ∀ level ∈ levels, ∀ first ∈ level, ∀ second ∈ level, first.id ≠ second.id →
    ∀ step ∈ steps, step.action = .deploy → step.serviceId = first.id →
      ∀ other ∈ steps, other.action = .deploy → other.serviceId = second.id →
        ∃ group ∈ sortedLevels steps, step ∈ group ∧ other ∈ group

/-- In the log, no step of a level starts before all steps of earlier levels have finished. -/
def LevelsInOrder (steps : List StepWithDeployment) (log : Log) : Prop :=
  ∀ (i j : ℕ) (earlierLevel laterLevel : List ServiceWithDeps),
    levels[i]? = some earlierLevel → levels[j]? = some laterLevel → i < j →
      ∀ earlier ∈ steps, OfLevel earlierLevel earlier →
        ∀ later ∈ steps, OfLevel laterLevel later →
          Opened (Finishes earlier.id) (Starts later.id) log

/-- The groups of an execution agree with the levels. -/
def LevelsAgree (yaml : Yaml) (planId : String) (levels : List (List ServiceWithDeps))
    (read : PlanWithSteps) : Prop :=
  LevelsTogether levels read.steps ∧
    ∀ log outcome, Traces (executePlan yaml planId) log outcome →
      log.head? = some ⟨.findPlan planId, .ok read⟩ → LevelsInOrder levels read.steps log

/-- A step does not start before the steps with smaller orders have finished. Assumes: distinct step
ids, and the plan is run in parallel mode. -/
theorem opened_of_order_lt {yaml : Yaml} {planId : String} {read : PlanWithSteps}
    (hparallel : read.parallelExecution = true) (hids : (read.steps.map (·.id)).Nodup)
    {earlier later : StepWithDeployment} (hearlier : earlier ∈ read.steps)
    (hpresent : earlier.serviceDeployment.isSome) (hlater : later ∈ read.steps)
    (hlt : earlier.order < later.order) {log : Log} {outcome : Option (Except String Unit)}
    (htraces : Traces (executePlan yaml planId) log outcome)
    (hread : log.head? = some ⟨.findPlan planId, .ok read⟩) :
    Opened (Finishes earlier.id) (Starts later.id) log := by
  have hlevels : (runLevels yaml planId read (sortedLevels read.steps)).Guarded
      (Finishes earlier.id) (Starts later.id) := by
    refine guarded_runLevels yaml planId read _ fun before level after hsplit hmem ↦ ?_
    obtain ⟨step, hstep, hid⟩ := mem_map.mp hmem
    have hlevel := mem_of_mem_filter hstep
    have hstepMem : step ∈ read.steps := by
      have hgroup : level ∈ sortedLevels read.steps := by
        rw [hsplit]
        exact mem_append_right _ mem_cons_self
      rw [sortedLevels_eq] at hgroup
      obtain ⟨_, -, rfl⟩ := mem_map.mp hgroup
      exact mem_of_mem_filter hlevel
    rw [inj_on_of_nodup_map hids hstepMem hlater hid] at hlevel
    obtain ⟨first, hfirst, hin⟩ := exists_earlier_group hsplit hlevel hearlier hlt
    exact ⟨first, hfirst, mem_filter.mpr ⟨hin, hpresent⟩⟩
  have hpending : (executePending yaml planId read).Guarded
      (Finishes earlier.id) (Starts later.id) := by
    refine Guarded.bind (avoids_perform not_false).guarded fun _ ↦ .inr ?_
    refine Guarded.tryCatch (Guarded.bind ?_ fun ended ↦ .inr ?_) fun message ↦ ?_
    · unfold runSteps
      rw [if_pos hparallel]
      exact hlevels
    · exact ((avoids_completePlan planId read).mono fun _ ↦ stepStart_of_starts).when.guarded
    · exact ((avoids_failPlan yaml planId read message).mono fun _ ↦ stepStart_of_starts).guarded
  cases htraces with
  | start => exact opened_nil
  | call answer htraces =>
    obtain ⟨⟩ := hread
    refine opened_cons not_false (.inr (Guarded.sound ?_ htraces))
    exact Guarded.ite trivial hpending

/-! ### Built plans -/

theorem exists_of_buildDeploymentPlan {table : ServiceTable} {ids : FreshIds}
    {options : BuildPlanOptions} {services : List ServiceWithDeps} {plan : DeploymentPlan}
    {levels : List (List ServiceWithDeps)}
    (hselected : selectServices table options = .ok services)
    (hlevels : resolveDependencyOrder services = some (.ok levels))
    (hplan : buildDeploymentPlan table ids options = some (.ok plan)) :
    PlanOrder services levels.flatten ∧
      (∀ service ∈ services, service.serviceDeployments ≠ []) ∧
      plan = createPlan ids options services levels := by
  have hsublist := sublist_of_selectServices hselected
  have hids : (serviceIds services).Nodup := (hsublist.map _).nodup table.nodup_ids
  have hdeployments : (deploymentIds services).Nodup :=
    (hsublist.flatMap _).nodup table.nodup_deploymentIds
  unfold buildDeploymentPlan at hplan
  simp only [hselected, hlevels] at hplan
  split_ifs at hplan with hempty hnames
  · nomatch Option.some.inj hplan
  · nomatch Option.some.inj hplan
  · refine ⟨?_, fun service hservice hnone ↦ ?_, (Except.ok.inj (Option.some.inj hplan)).symm⟩
    · rcases resolveDependencyOrder_cases hids with ⟨-, message, hmessage⟩ |
        ⟨hacyclic, -, resolved, hresolved, hordered⟩
      · rw [hlevels] at hmessage
        nomatch Option.some.inj hmessage
      · rw [hlevels] at hresolved
        rw [Except.ok.inj (Option.some.inj hresolved)]
        exact ⟨hids, hdeployments, hordered.perm, hordered.pairwise_flatten,
          not_mem_dependsOnIds_of_not_hasCycle hacyclic⟩
    · refine hnames (length_pos_of_mem (a := service.name) ?_)
      exact mem_map_of_mem (mem_filter.mpr ⟨hservice, by simp [hnone]⟩)

variable {level : List ServiceWithDeps}

section

variable {ids : FreshIds} {options : BuildPlanOptions} {services : List ServiceWithDeps}
  {levels : List (List ServiceWithDeps)} {read : PlanWithSteps}
  {actions : List PlannedAction}

section

variable (hrows : read.steps.map (·.toDeploymentPlanStep) = stepRows ids options 0 actions)
include hrows

theorem mem_stepRows_of_read {step : StepWithDeployment} (hstep : step ∈ read.steps) :
    step.toDeploymentPlanStep ∈ stepRows ids options 0 actions := by
  rw [← hrows]
  exact mem_map_of_mem hstep

theorem nodup_orders_of_read : (read.steps.map (·.order)).Nodup := by
  have hmap : read.steps.map (·.order) =
      (read.steps.map (·.toDeploymentPlanStep)).map (·.order) := by
    rw [map_map]
    rfl
  rw [hmap, hrows, map_order_stepRows]
  exact nodup_range

theorem nodup_stepIds_of_read : (read.steps.map (·.id)).Nodup := by
  have hid : ∀ step ∈ read.steps, step.id = ids.stepId step.order := by
    intro step hstep
    obtain ⟨index, planned, -, hrow⟩ :=
      (mem_stepRows_iff ids options _ _).mp (mem_stepRows_of_read hrows hstep)
    rw [← hrow]
    rfl
  have hmap := (nodup_orders_of_read hrows).map ids.stepId_injective
  rw [map_map] at hmap
  rw [map_congr_left hid]
  exact hmap

end

section

variable (horder : PlanOrder services levels.flatten)
include horder

theorem exists_deployStep (hdeployed : ∀ service ∈ services, service.serviceDeployments ≠ [])
    (hrows : read.steps.map (·.toDeploymentPlanStep) =
      stepRows ids options 0 (plannedActions levels.flatten)) (hlevel : level ∈ levels)
    {service : ServiceWithDeps} (hservice : service ∈ level) :
    ∃ step ∈ read.steps, step.action = .deploy ∧ step.serviceId = service.id := by
  have hin := horder.perm.mem_iff.mp (mem_flatten_of_mem hlevel hservice)
  obtain ⟨deployment, hdeployment⟩ := exists_mem_of_ne_nil _ (hdeployed service hin)
  obtain ⟨row, hrow, haction, hid, -⟩ := horder.exists_step ids options .deploy hin hdeployment
    nofun
  rw [← hrows] at hrow
  obtain ⟨step, hstep, rfl⟩ := mem_map.mp hrow
  exact ⟨step, hstep, haction, hid⟩

theorem exists_two_of_level (hlevel : level ∈ levels) (hlong : ¬ level.length ≤ 1) :
    ∃ first ∈ level, ∃ second ∈ level, first.id ≠ second.id := by
  have hids : (serviceIds levels.flatten).Nodup :=
    (horder.perm.map _).nodup_iff.mpr horder.nodup_ids
  have hlevelIds := hids.sublist ((sublist_flatten_of_mem hlevel).map _)
  match level, hlong with
  | [], hlong => exact absurd (Nat.zero_le 1) hlong
  | [_], hlong => exact absurd le_rfl hlong
  | first :: second :: rest, _ =>
    refine ⟨first, mem_cons_self, second, mem_cons_of_mem _ mem_cons_self, ?_⟩
    exact fun hsame ↦ (nodup_cons.mp hlevelIds).1 (mem_map.mpr ⟨second, mem_cons_self, hsame.symm⟩)

theorem order_lt_of_levels (hrows : read.steps.map (·.toDeploymentPlanStep) =
      stepRows ids options 0 (plannedActions levels.flatten)) {i j : ℕ}
    {earlierLevel laterLevel : List ServiceWithDeps} (hi : levels[i]? = some earlierLevel)
    (hj : levels[j]? = some laterLevel) (hlt : i < j) {earlier later : StepWithDeployment}
    (hearlier : earlier ∈ read.steps) (hlater : later ∈ read.steps)
    (hearlierLevel : ∃ service ∈ earlierLevel, earlier.serviceId = service.id)
    (hlaterLevel : ∃ service ∈ laterLevel, later.serviceId = service.id) :
    earlier.order < later.order := by
  obtain ⟨first, hfirst, hfirstId⟩ := hearlierLevel
  obtain ⟨second, hsecond, hsecondId⟩ := hlaterLevel
  have hsplit : levels.flatten = (levels.take (i + 1)).flatten ++
      (levels.drop (i + 1)).flatten := by
    rw [← flatten_append, take_append_drop]
  have hbefore : earlierLevel ∈ levels.take (i + 1) :=
    mem_of_getElem? ((List.getElem?_take_of_lt (Nat.lt_succ_self i)).trans hi)
  have hafter : laterLevel ∈ levels.drop (i + 1) := by
    refine mem_of_getElem? (i := j - (i + 1)) ?_
    rw [List.getElem?_drop, Nat.add_sub_cancel' hlt]
    exact hj
  exact horder.order_lt_of_append hsplit (mem_stepRows_of_read hrows hearlier)
    (mem_stepRows_of_read hrows hlater) (mem_flatten_of_mem hbefore hfirst)
    (mem_flatten_of_mem hafter hsecond) hfirstId hsecondId

end

end

theorem levelsAgree_iff (yaml : Yaml) (table : ServiceTable) (ids : FreshIds)
    (options : BuildPlanOptions) (services : List ServiceWithDeps) (plan : DeploymentPlan)
    (levels : List (List ServiceWithDeps))
    (hselected : selectServices table options = .ok services)
    (hlevels : resolveDependencyOrder services = some (.ok levels))
    (hplan : buildDeploymentPlan table ids options = some (.ok plan))
    (hparallel : plan.parallelExecution = true) (read : PlanWithSteps)
    (hread : ReadsPlan plan read) :
    LevelsAgree yaml plan.id levels read ↔ ∀ level ∈ levels, level.length ≤ 1 := by
  obtain ⟨horder, hdeployed, rfl⟩ := exists_of_buildDeploymentPlan hselected hlevels hplan
  have hrows := hread.steps
  rw [steps_createPlan] at hrows
  constructor
  · rintro ⟨htogether, -⟩ level hlevel
    by_contra hlong
    obtain ⟨first, hfirst, second, hsecond, hne⟩ := exists_two_of_level horder hlevel hlong
    obtain ⟨step, hstep, haction, hid⟩ :=
      exists_deployStep horder hdeployed hrows hlevel hfirst
    obtain ⟨other, hother, haction', hid'⟩ :=
      exists_deployStep horder hdeployed hrows hlevel hsecond
    obtain ⟨group, hgroup, hin, hin'⟩ := htogether level hlevel first hfirst second hsecond hne
      step hstep haction hid other hother haction' hid'
    have hsame := inj_on_of_nodup_map (nodup_orders_of_read hrows) hstep hother
      (order_eq_of_mem_group hgroup hin hin')
    exact hne (hid.symm.trans ((congrArg (fun step : StepWithDeployment ↦ step.serviceId)
      hsame).trans hid'))
  · intro hsingle
    refine ⟨fun level hlevel first hfirst second hsecond hne ↦ ?_, ?_⟩
    · refine absurd ?_ hne
      obtain ⟨only, hlevelOnly⟩ : ∃ only, level = [only] :=
        length_eq_one_iff.mp (le_antisymm (hsingle level hlevel) (length_pos_of_mem hfirst))
      rw [hlevelOnly] at hfirst hsecond
      rw [mem_singleton.mp hfirst, mem_singleton.mp hsecond]
    · intro log outcome htraces hhead i j earlierLevel laterLevel hi hj hlt earlier hearlier
        hearlierLevel later hlater hlaterLevel
      obtain ⟨deployment, hpresent, -⟩ := hread.deployments earlier hearlier
      refine opened_of_order_lt (hread.parallelExecution.trans hparallel)
        (nodup_stepIds_of_read hrows) hearlier (by rw [hpresent]; rfl) hlater ?_ htraces hhead
      exact order_lt_of_levels horder hrows hi hj hlt hearlier hlater hearlierLevel hlaterLevel

/-! ### Two plans -/

theorem readsPlan_readBack (plan : DeploymentPlan) : ReadsPlan plan (readBack plan) where
  id := rfl
  status := rfl
  triggeredBy := rfl
  autoRollback := rfl
  parallelExecution := rfl
  steps := by
    unfold readBack
    rw [map_map]
    exact map_id _
  deployments step hstep := by
    obtain ⟨row, -, rfl⟩ := mem_map.mp hstep
    exact ⟨_, rfl, rfl⟩

theorem steps_readBack (ids : FreshIds) (options : BuildPlanOptions)
    (services : List ServiceWithDeps) (levels : List (List ServiceWithDeps)) :
    (readBack (createPlan ids options services levels)).steps =
      (stepRows ids options 0 (plannedActions levels.flatten)).map
        (readStep options.environmentId) := by
  rw [← steps_createPlan ids options services levels]
  rfl

/-- Two services without dependencies. -/
def independentPair : ServiceTable where
  services :=
    [⟨"api", "api", "v1", "api-image", none, [], [⟨"api-1"⟩]⟩,
      ⟨"worker", "worker", "v1", "worker-image", none, [], [⟨"worker-1"⟩]⟩]
  nodup_ids := by decide
  nodup_deploymentIds := by decide

def parallelOptions (serviceIds : List String) : BuildPlanOptions where
  environmentId := "production"
  containerImageId := none
  serviceIds := some serviceIds
  imageTag := "v2"
  triggerType := .manual
  triggeredBy := "operator"
  userId := none
  autoRollback := none
  parallelExecution := some true

/-- Two services of one level are deployed one after the other. -/
theorem not_levelsAgree_independentPair :
    resolveDependencyOrder independentPair.services = some (.ok [independentPair.services]) ∧
      buildDeploymentPlan independentPair countedIds (parallelOptions ["api", "worker"]) =
        some (.ok (createPlan countedIds (parallelOptions ["api", "worker"])
          independentPair.services [independentPair.services])) ∧
      ¬ LevelsAgree anyYaml "plan" [independentPair.services]
        (readBack (createPlan countedIds (parallelOptions ["api", "worker"])
          independentPair.services [independentPair.services])) := by
  have hlevels : resolveDependencyOrder independentPair.services =
      some (.ok [independentPair.services]) := rfl
  have hselected : selectServices independentPair (parallelOptions ["api", "worker"]) =
      .ok independentPair.services := rfl
  refine ⟨hlevels, ?_, ?_⟩
  · rw [buildDeploymentPlan_of_selected countedIds hselected (by simp [independentPair])
      (by simp [independentPair]), hlevels]
    rfl
  · rintro ⟨htogether, -⟩
    obtain ⟨api, worker, hsteps, ⟨hapi, hapiId, hapiOrder⟩, hworker, hworkerId, hworkerOrder⟩ :
        ∃ api worker, (readBack (createPlan countedIds (parallelOptions ["api", "worker"])
            independentPair.services [independentPair.services])).steps = [api, worker] ∧
          (api.action = .deploy ∧ api.serviceId = "api" ∧ api.order = 0) ∧
            worker.action = .deploy ∧ worker.serviceId = "worker" ∧ worker.order = 1 := by
      rw [steps_readBack]
      refine ⟨_, _, rfl, ?_, ?_⟩
      · exact ⟨rfl, rfl, rfl⟩
      · exact ⟨rfl, rfl, rfl⟩
    rw [hsteps] at htogether
    obtain ⟨group, hgroup, hin, hin'⟩ := htogether _ mem_cons_self _ mem_cons_self
      _ (mem_cons_of_mem _ mem_cons_self) (by decide)
      api mem_cons_self hapi hapiId
      worker (mem_cons_of_mem _ mem_cons_self) hworker hworkerId
    have hsame := order_eq_of_mem_group hgroup hin hin'
    rw [hapiOrder, hworkerOrder] at hsame
    exact Nat.zero_ne_one hsame

/-- In a chain of two services the groups are the levels. -/
theorem levelsAgree_chain :
    LevelsAgree anyYaml "plan" (healthGate.services.map fun service ↦ [service])
      (readBack (createPlan countedIds (parallelOptions ["api", "frontend"]) healthGate.services
        (healthGate.services.map fun service ↦ [service]))) := by
  have hlevels : resolveDependencyOrder healthGate.services =
      some (.ok (healthGate.services.map fun service ↦ [service])) := rfl
  have hselected : selectServices healthGate (parallelOptions ["api", "frontend"]) =
      .ok healthGate.services := rfl
  refine (levelsAgree_iff anyYaml healthGate countedIds (parallelOptions ["api", "frontend"])
    healthGate.services _ _ hselected hlevels ?_ rfl _ (readsPlan_readBack _)).mpr (by simp)
  rw [buildDeploymentPlan_of_selected countedIds hselected (by simp [healthGate])
    (by simp [healthGate]), hlevels]
  rfl

end Bridgeport.Plans
