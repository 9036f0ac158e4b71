import Bridgeport.Migrations.ServiceTemplates

/-!
# What the migration to service templates preserves

Without two services of one name in an environment, the script completes and preserves every row:
each service becomes one deployment and one template, and the rows that refer to it get the
deployment (`Preserved`).
-/

namespace Bridgeport.Migrations

open Foundation List

/-- Two services of one environment share a name. -/
def Collide (old : OldDatabase) : Prop :=
  ∃ first ∈ old.services.rows, ∃ second ∈ old.services.rows, first.id ≠ second.id ∧
    first.name = second.name ∧ ∃ one ∈ old.servers.rows, ∃ other ∈ old.servers.rows,
      one.id = first.serverId ∧ other.id = second.serverId ∧ one.environmentId = other.environmentId

/-- The deployment of a service carries its server, container name and runtime columns. -/
structure Deployed (service : OldService) (sd : ServiceDeployment) : Prop where
  serviceId : sd.serviceId = service.id
  serverId : sd.serverId = service.serverId
  columns : sd.toRuntimeColumns = service.toRuntimeColumns

/-- The template of a service carries its other columns and the environment of its server. -/
structure Templated (old : OldDatabase) (service : OldService) (template : Service) : Prop where
  id : template.id = service.id
  columns : template.toTemplateColumns = service.toTemplateColumns
  environment : ∃ server ∈ old.servers.rows, server.id = service.serverId ∧
    template.environmentId = server.environmentId

/-- The identifier of the deployment of a service. -/
def RefersTo (sds : List ServiceDeployment) (serviceId deploymentId : String) : Prop :=
  ∃ sd ∈ sds, sd.serviceId = serviceId ∧ deploymentId = sd.id

structure Preserved (old : OldDatabase) (sds : List ServiceDeployment) (final : Database) :
    Prop where
  serviceDeployments : final.serviceDeployments = some sds
  deployed : List.Forall₂ Deployed old.services.rows sds
  services : ∃ rows, final.services = .rebuilt rows ∧
    List.Forall₂ (Templated old) old.services.rows rows
  deployments : ∃ rows, final.deployments = .rebuilt rows ∧ List.Forall₂ (fun before after ↦
    after.toOldDeployment = before ∧
      ∃ id, after.serviceDeploymentId = some id ∧ RefersTo sds before.serviceId id)
    old.deployments.rows rows
  metrics : ∃ rows, final.metrics = .rebuilt rows ∧ List.Forall₂ (fun before after ↦
    after.toMetricsColumns = before.toMetricsColumns ∧
      RefersTo sds before.serviceId after.serviceDeploymentId) old.metrics.rows rows
  steps : ∃ rows, final.steps = .rebuilt rows ∧ List.Forall₂ (fun before after ↦
    after.toOldDeploymentPlanStep = before ∧ ∀ serviceId ∈ before.serviceId,
      ∃ id, after.serviceDeploymentId = some id ∧ RefersTo sds serviceId id) old.steps.rows rows
  files : ∃ rows, final.files = .rebuilt rows ∧ List.Forall₂ (fun before after ↦
    after.toOldServiceFile = before) old.files.rows rows

/-- Random ids of the migration: different services get different ones. -/
structure RandomIds where
  id : String → String
  injective : Function.Injective id

/-- The script stops at the pre-check, and has changed no table but the temporary one. -/
def RefusesUpFront (random : RandomIds) (old : OldDatabase) : Prop :=
  ∃ final, ∃ statement ∈ preCheck, ∃ error,
    runScript (exec random.id) script old.start = (final, some (statement, error)) ∧
      { final with dupCheck := none } = old.start

/-- The migration preserves every row, or refuses up front when names collide. -/
structure MigratesSafely (random : RandomIds) (old : OldDatabase) : Prop where
  refuses : Collide old → RefusesUpFront random old
  preserves : ¬ Collide old → ∃ final sds,
    runScript (exec random.id) script old.start = (final, none) ∧ Preserved old sds final

/-! ### Queries -/

variable {services : List OldService}

theorem forall₂_joinServers (servers : Table Server)
    (h : ∀ service ∈ services, ∃ server ∈ servers.rows, server.id = service.serverId) :
    List.Forall₂ (fun service joined ↦ joined.1 = service ∧ joined.2 ∈ servers.rows ∧
      joined.2.id = service.serverId) services (joinServers servers.rows services) := by
  induction services with
  | nil => exact List.Forall₂.nil
  | cons service services ih =>
    obtain ⟨server, hserver, hid⟩ := h service mem_cons_self
    have hfilter : (servers.rows.filter (·.id = service.serverId)) = [server] :=
      hid ▸ Table.filter_id_eq hserver
    unfold joinServers
    rw [flatMap_cons, hfilter]
    refine List.Forall₂.cons ⟨rfl, hserver, hid⟩ (ih fun other hother ↦ ?_)
    exact h other (mem_cons_of_mem _ hother)

theorem mem_joinServers_iff {servers : List Server} {joined : OldService × Server} :
    joined ∈ joinServers servers services ↔
      joined.1 ∈ services ∧ joined.2 ∈ servers ∧ joined.2.id = joined.1.serverId := by
  obtain ⟨service, server⟩ := joined
  simp [joinServers, and_assoc]

variable (old : OldDatabase)

theorem map_fst_joinServers :
    (joinServers old.servers.rows old.services.rows).map Prod.fst = old.services.rows := by
  have hjoined := forall₂_joinServers old.servers old.service_server
  generalize joinServers old.servers.rows old.services.rows = joined at hjoined ⊢
  generalize old.services.rows = services at hjoined ⊢
  induction hjoined with
  | nil => rfl
  | cons hfirst _ ih => rw [map_cons, hfirst.1, ih]

/-- The services of an environment have different names unless two of them collide. -/
theorem nodup_templateKeys_iff :
    ((joinServers old.servers.rows old.services.rows).map templateKey).Nodup ↔ ¬ Collide old := by
  have hnodup : (joinServers old.servers.rows old.services.rows).Nodup := by
    refine List.Nodup.of_map Prod.fst ?_
    rw [map_fst_joinServers]
    exact old.services.nodup_ids.of_map
  rw [nodup_map_iff_inj_on hnodup]
  constructor
  · rintro hinjective ⟨first, hfirst, second, hsecond, hne, hname, one, hone, other, hother, hids⟩
    have hsame := hinjective (first, one) (mem_joinServers_iff.mpr ⟨hfirst, hone, hids.1⟩)
      (second, other) (mem_joinServers_iff.mpr ⟨hsecond, hother, hids.2.1⟩)
      (Prod.ext hids.2.2 hname)
    exact hne (congrArg (·.1.id) hsame)
  · rintro hcollide ⟨first, one⟩ hfirst ⟨second, other⟩ hsecond hkeys
    obtain ⟨hfirst, hone, honeId⟩ := mem_joinServers_iff.mp hfirst
    obtain ⟨hsecond, hother, hotherId⟩ := mem_joinServers_iff.mp hsecond
    obtain ⟨henvironment, hname⟩ := Prod.mk.inj hkeys
    by_cases hid : first.id = second.id
    · obtain rfl := Table.eq_of_id_eq hfirst hsecond hid
      obtain rfl := Table.eq_of_id_eq hone hother (honeId.trans hotherId.symm)
      rfl
    · exact absurd ⟨first, hfirst, second, hsecond, hid, hname, one, hone, other, hother, honeId,
        hotherId, henvironment⟩ hcollide

theorem insertRows_of_nodup {Row : Type} {table : String} {id : Row → String} {rows : List Row}
    (h : (rows.map id).Nodup) : insertRows table id rows = .ok rows := by
  rw [insertRows, checkUnique_of_nodup h]
  rfl

/-! ### The script up to the new services -/

/-- The groups of the pre-check are different, so that its index never fails. -/
theorem nodup_selectDuplicates (servers : List Server) (services : List OldService) :
    ((selectDuplicates servers services).map fun row ↦ (row.environmentId, row.name)).Nodup := by
  unfold selectDuplicates
  rw [map_map]
  exact ((nodup_dedup _).filter _).map fun _ _ h ↦ h

theorem runScript_preCheck (randomId : String → String) :
    runScript (exec randomId) preCheck old.start = (old.start, none) := by
  set checked : Database := { old.start with
    dupCheck := some (selectDuplicates old.servers.rows old.services.rows) }
  have hindex : exec randomId .createDupCheckIndex checked = .ok checked := by
    simp only [exec, checked, Option.getD_some]
    rw [checkUnique_of_nodup (nodup_selectDuplicates _ _)]
    rfl
  unfold preCheck
  calc runScript (exec randomId) [.createDupCheck, .insertDupCheck, .createDupCheckIndex,
        .dropDupCheckIndex, .dropDupCheck] old.start
    _ = runScript (exec randomId) [.createDupCheckIndex, .dropDupCheckIndex, .dropDupCheck]
        checked := rfl
    _ = runScript (exec randomId) [.dropDupCheckIndex, .dropDupCheck] checked :=
      runScript_cons_of_ok hindex
    _ = (old.start, none) := rfl

variable (random : RandomIds)

/-- The rows of `ServiceDeployment` that the script makes. -/
def newDeployments : List ServiceDeployment :=
  old.services.rows.map (selectServiceDeployment random.id)

/-- The rows of the new `Service`. -/
def newTemplates : List Service :=
  (joinServers old.servers.rows old.services.rows).map selectService

def servicesRebuilt : Database :=
  { old.start with
    serviceDeployments := some (newDeployments old random)
    services := .rebuilt (newTemplates old) }

theorem nodup_newDeployments : ((newDeployments old random).map (·.id)).Nodup := by
  unfold newDeployments
  rw [map_map]
  refine (nodup_map_iff_inj_on old.services.nodup_ids.of_map).mpr ?_
  intro first hfirst second hsecond hids
  have hsame := random.injective ((String.append_right_inj "sd_").mp hids)
  exact Table.eq_of_id_eq hfirst hsecond hsame

theorem nodup_newTemplates : ((newTemplates old).map (·.id)).Nodup := by
  have hids : (newTemplates old).map (·.id) = old.services.rows.map (·.id) := by
    rw [← map_fst_joinServers old]
    simp [newTemplates, selectService, Function.comp_def]
  rw [hids]
  exact old.services.nodup_ids

/-- The rebuild of a table, whose steps look at nothing but what is copied. -/
theorem runScript_rebuildOf {randomId : String → String} {table : RebuiltTable} {name : String}
    {Old New : Type} (select : List Old → Except SqlError (List New))
    (put : Rebuild Old New → Database) {rows : List Old} {copy : List New}
    (hexec : ∀ step state,
      exec randomId (.rebuild table step) (put state) = (step.exec name select state).map put)
    (hselect : select rows = .ok copy) :
    runScript (exec randomId) (rebuildOf table) (put (.original rows)) =
      (put (.rebuilt copy), none) := by
  have hcreate : exec randomId (.rebuild table .create) (put (.original rows)) =
      .ok (put (.copying rows [])) :=
    hexec _ _
  have hinsert : exec randomId (.rebuild table .insert) (put (.copying rows [])) =
      .ok (put (.copying rows copy)) := by
    rw [hexec, RebuildStep.exec, Rebuild.fillCopy, hselect]
    rfl
  have hdrop : exec randomId (.rebuild table .drop) (put (.copying rows copy)) =
      .ok (put (.dropped copy)) :=
    hexec _ _
  have hrename : exec randomId (.rebuild table .rename) (put (.dropped copy)) =
      .ok (put (.rebuilt copy)) :=
    hexec _ _
  rw [rebuildOf, runScript_cons_of_ok hcreate, runScript_cons_of_ok hinsert,
    runScript_cons_of_ok hdrop, runScript_cons_of_ok hrename]
  rfl

theorem runScript_newServices :
    runScript (exec random.id) newServices old.start = (servicesRebuilt old random, none) := by
  set created : Database := { old.start with serviceDeployments := some [] }
  set backfilled : Database := { old.start with
    serviceDeployments := some (newDeployments old random) }
  have hinsert : insertRows "ServiceDeployment.id" (·.id)
      (old.services.rows.map (selectServiceDeployment random.id)) =
        .ok (newDeployments old random) :=
    insertRows_of_nodup (nodup_newDeployments old random)
  have hbackfill : exec random.id .insertServiceDeployment created = .ok backfilled := by
    simp only [exec, created, OldDatabase.start, hinsert]
    rfl
  have hcreates : runScript (exec random.id) [.createServiceDeployment, .insertServiceDeployment]
      old.start = (backfilled, none) :=
    runScript_cons_of_ok hbackfill
  refine (runScript_append hcreates).trans ?_
  exact runScript_rebuildOf (fun rows ↦ insertRows "Service.id" (·.id)
      ((joinServers old.servers.rows rows).map selectService))
    (fun services ↦ { backfilled with services }) (fun _ _ ↦ rfl)
    (insertRows_of_nodup (nodup_newTemplates old))

/-! ### The references -/

theorem deploymentOf_eq {serviceId : String}
    (h : ∃ service ∈ old.services.rows, service.id = serviceId) :
    ∃ id, deploymentOf (newDeployments old random) (some serviceId) = some id ∧
      RefersTo (newDeployments old random) serviceId id := by
  obtain ⟨service, hservice, rfl⟩ := h
  have hsome : ((newDeployments old random).find? fun sd ↦
      some sd.serviceId = some service.id).isSome := by
    rw [List.find?_isSome]
    exact ⟨_, mem_map_of_mem hservice, decide_eq_true rfl⟩
  obtain ⟨sd, hsd⟩ := Option.isSome_iff_exists.mp hsome
  have hid : some sd.serviceId = some service.id := by simpa using List.find?_some hsd
  refine ⟨sd.id, ?_, sd, mem_of_find?_eq_some hsd, Option.some.inj hid, rfl⟩
  rw [deploymentOf, hsd]
  rfl

theorem mapM_eq_ok_map {α β : Type} {turn : α → Except SqlError β} {value : α → β} {items : List α}
    (h : ∀ item ∈ items, turn item = .ok (value item)) :
    items.mapM turn = .ok (items.map value) := by
  induction items with
  | nil => rfl
  | cons first rest ih =>
    rw [mapM_cons, h first mem_cons_self, ih fun item hitem ↦ h item (mem_cons_of_mem _ hitem)]
    rfl

/-- The new row for a row of `ServiceMetrics`. -/
def newMetricsRow (sm : OldServiceMetrics) : ServiceMetrics where
  toMetricsColumns := sm.toMetricsColumns
  serviceDeploymentId := (deploymentOf (newDeployments old random) (some sm.serviceId)).getD ""

/-- The new rows of `ServiceMetrics`. -/
def newMetrics : List ServiceMetrics :=
  old.metrics.rows.map (newMetricsRow old random)

/-- No row of `ServiceMetrics` is left out, and none is without a deployment. -/
theorem mapM_selectMetrics : (old.metrics.rows.filter fun sm ↦
    ∃ sd ∈ newDeployments old random, sd.serviceId = sm.serviceId).mapM
      (selectMetrics (newDeployments old random)) = .ok (newMetrics old random) := by
  have hall : (old.metrics.rows.filter fun sm ↦
      ∃ sd ∈ newDeployments old random, sd.serviceId = sm.serviceId) = old.metrics.rows := by
    refine filter_eq_self.mpr fun sm hsm ↦ decide_eq_true ?_
    obtain ⟨_, -, sd, hsd, hservice, -⟩ := deploymentOf_eq old random (old.metrics_service sm hsm)
    exact ⟨sd, hsd, hservice⟩
  rw [hall]
  refine mapM_eq_ok_map fun sm hsm ↦ ?_
  obtain ⟨id, hid, -⟩ := deploymentOf_eq old random (old.metrics_service sm hsm)
  simp only [selectMetrics, newMetricsRow, hid, Option.getD_some]

def migrated : Database :=
  { servicesRebuilt old random with
    deployments :=
      .rebuilt (old.deployments.rows.map (selectDeployment (newDeployments old random)))
    metrics := .rebuilt (newMetrics old random)
    steps := .rebuilt (old.steps.rows.map (selectStep (newDeployments old random)))
    files := .rebuilt (old.files.rows.map selectFile) }

variable {old random}

theorem runScript_completes {first second : List Statement} {state middle final : Database}
    (hfirst : runScript (exec random.id) first state = (middle, none))
    (hsecond : runScript (exec random.id) second middle = (final, none)) :
    runScript (exec random.id) (first ++ second) state = (final, none) :=
  (runScript_append hfirst).trans hsecond

variable (old random)

/-- The indexes at the end fail for no database. -/
theorem runScript_lastIndexes : runScript (exec random.id)
    [.createIndex "ServiceFile_serviceDeploymentId_idx", .createServiceFileIndex,
      .createIndex "ServiceDeployment_serverId_idx", .createIndex "ServiceDeployment_serviceId_idx",
      .createDeploymentServerIndex, .createDeploymentContainerIndex] (migrated old random) =
      (migrated old random, none) := by
  have hfiles : exec random.id .createServiceFileIndex (migrated old random) =
      .ok (migrated old random) := by
    have hnull : (old.files.rows.map selectFile).filterMap fileKey = [] := by
      simp [fileKey, selectFile]
    simp only [exec, migrated, Rebuild.newRows, hnull]
    rw [checkUnique_of_nodup nodup_nil]
    rfl
  have hservers : exec random.id .createDeploymentServerIndex (migrated old random) =
      .ok (migrated old random) := by
    have hnodup : ((newDeployments old random).map fun row ↦
        (row.serviceId, row.serverId)).Nodup := by
      refine List.Nodup.of_map Prod.fst ?_
      simp only [newDeployments, map_map]
      exact old.services.nodup_ids
    simp only [exec, migrated, servicesRebuilt, Option.getD_some]
    rw [checkUnique_of_nodup hnodup]
    rfl
  have hcontainers : exec random.id .createDeploymentContainerIndex (migrated old random) =
      .ok (migrated old random) := by
    have hnodup : ((newDeployments old random).map fun row ↦
        (row.serverId, row.containerName)).Nodup := by
      simp only [newDeployments, map_map]
      exact old.service_containerName
    simp only [exec, migrated, servicesRebuilt, Option.getD_some]
    rw [checkUnique_of_nodup hnodup]
    rfl
  rw [runScript_cons_of_ok rfl, runScript_cons_of_ok hfiles, runScript_cons_of_ok rfl,
    runScript_cons_of_ok rfl, runScript_cons_of_ok hservers, runScript_cons_of_ok hcontainers]
  rfl

theorem runScript_newReferences : runScript (exec random.id) newReferences
    (servicesRebuilt old random) = (migrated old random, none) := by
  set sds := newDeployments old random with hsds
  set rebuilt := servicesRebuilt old random with hrebuilt
  set first : Database := { rebuilt with
    deployments := .rebuilt (old.deployments.rows.map (selectDeployment sds)) }
  set second : Database := { first with metrics := .rebuilt (newMetrics old random) }
  set third : Database := { second with
    steps := .rebuilt (old.steps.rows.map (selectStep sds)) }
  have hdeployments : runScript (exec random.id) (rebuildOf .deployment) rebuilt = (first, none) :=
    runScript_rebuildOf (fun rows ↦ insertRows "Deployment.id" (·.id)
        (rows.map (selectDeployment sds)))
      (fun deployments ↦ { rebuilt with deployments }) (fun _ _ ↦ rfl)
      (insertRows_of_nodup (by
        rw [map_map]
        exact old.deployments.nodup_ids))
  have hmetrics : runScript (exec random.id) (rebuildOf .serviceMetrics) first =
      (second, none) := by
    refine runScript_rebuildOf (fun rows ↦ do
        let selected := rows.filter fun sm ↦ ∃ sd ∈ sds, sd.serviceId = sm.serviceId
        insertRows "ServiceMetrics.id" (·.id) (← selected.mapM (selectMetrics sds)))
      (fun metrics ↦ { first with metrics }) (fun _ _ ↦ rfl) ?_
    have hids : ((newMetrics old random).map (·.id)).Nodup := by
      unfold newMetrics
      rw [map_map]
      exact old.metrics.nodup_ids
    simp only [mapM_selectMetrics, hsds]
    exact insertRows_of_nodup hids
  have hsteps : runScript (exec random.id) (rebuildOf .deploymentPlanStep) second = (third, none) :=
    runScript_rebuildOf (fun rows ↦ insertRows "DeploymentPlanStep.id" (·.id)
        (rows.map (selectStep sds)))
      (fun steps ↦ { second with steps }) (fun _ _ ↦ rfl)
      (insertRows_of_nodup (by
        rw [map_map]
        exact old.steps.nodup_ids))
  have hfiles : runScript (exec random.id) (rebuildOf .serviceFile) third =
      (migrated old random, none) :=
    runScript_rebuildOf (fun rows ↦ insertRows "ServiceFile.id" (·.id) (rows.map selectFile))
      (fun files ↦ { third with files }) (fun _ _ ↦ rfl)
      (insertRows_of_nodup (by
        rw [map_map]
        exact old.files.nodup_ids))
  have hindex : ∀ index db, runScript (exec random.id) [.createIndex index] db = (db, none) :=
    fun _ _ ↦ rfl
  have hindexes : ∀ index other db, runScript (exec random.id)
      [.createIndex index, .createIndex other] db = (db, none) :=
    fun _ _ _ ↦ rfl
  unfold newReferences
  refine runScript_completes ?_ (runScript_lastIndexes old random)
  refine runScript_completes ?_ hfiles
  refine runScript_completes ?_ (hindex _ _)
  refine runScript_completes ?_ hsteps
  refine runScript_completes ?_ (hindex _ _)
  refine runScript_completes ?_ hmetrics
  exact runScript_completes hdeployments (hindexes _ _ _)

/-! ### The whole script -/

theorem runScript_beginning : runScript (exec random.id) (preCheck ++ newServices) old.start =
    (servicesRebuilt old random, none) :=
  runScript_completes (runScript_preCheck old random.id) (runScript_newServices old random)

theorem map_newTemplates : ((newTemplates old).map fun row ↦ (row.environmentId, row.name)) =
    (joinServers old.servers.rows old.services.rows).map templateKey := by
  rw [newTemplates, map_map]
  rfl

theorem preserved_migrated : Preserved old (newDeployments old random) (migrated old random) where
  serviceDeployments := rfl
  deployed := by
    refine forall₂_map_right_iff.mpr (forall₂_same.mpr fun service _ ↦ ?_)
    exact ⟨rfl, rfl, rfl⟩
  services := by
    refine ⟨newTemplates old, rfl, forall₂_map_right_iff.mpr ?_⟩
    refine (forall₂_joinServers old.servers old.service_server).imp fun service joined h ↦ ?_
    obtain ⟨rfl, hserver, hid⟩ := h
    exact ⟨rfl, rfl, joined.2, hserver, hid, rfl⟩
  deployments := by
    refine ⟨_, rfl, forall₂_map_right_iff.mpr (forall₂_same.mpr fun row hrow ↦ ?_)⟩
    obtain ⟨id, hid, hrefers⟩ := deploymentOf_eq old random (old.deployment_service row hrow)
    exact ⟨rfl, id, hid, hrefers⟩
  metrics := by
    refine ⟨_, rfl, forall₂_map_right_iff.mpr (forall₂_same.mpr fun row hrow ↦ ?_)⟩
    obtain ⟨id, hid, hrefers⟩ := deploymentOf_eq old random (old.metrics_service row hrow)
    refine ⟨rfl, ?_⟩
    simpa only [newMetricsRow, hid, Option.getD_some] using hrefers
  steps := by
    refine ⟨_, rfl, forall₂_map_right_iff.mpr (forall₂_same.mpr fun row hrow ↦ ?_)⟩
    refine ⟨rfl, fun serviceId hservice ↦ ?_⟩
    obtain ⟨id, hid, hrefers⟩ := deploymentOf_eq old random
      (old.step_service row hrow serviceId hservice)
    have hsome : row.serviceId = some serviceId := hservice
    exact ⟨id, (congrArg (deploymentOf _) hsome).trans hid, hrefers⟩
  files := by
    refine ⟨_, rfl, forall₂_map_right_iff.mpr (forall₂_same.mpr fun row _ ↦ ?_)⟩
    rfl

theorem runScript_of_not_collide (h : ¬ Collide old) :
    runScript (exec random.id) script old.start = (migrated old random, none) := by
  have hindex : exec random.id .createServiceNameIndex (servicesRebuilt old random) =
      .ok (servicesRebuilt old random) := by
    simp only [exec, servicesRebuilt, Rebuild.newRows, map_newTemplates]
    rw [checkUnique_of_nodup ((nodup_templateKeys_iff old).mpr h)]
    rfl
  refine (runScript_append (runScript_beginning old random)).trans ?_
  rw [runScript_cons_of_ok hindex]
  exact runScript_newReferences old random

/-- With a collision the script fails when the new services have taken the place of the old ones. -/
theorem runScript_of_collide (h : Collide old) : runScript (exec random.id) script old.start =
    (servicesRebuilt old random,
      some (.createServiceNameIndex, .unique "Service_environmentId_name_key")) := by
  have hindex : exec random.id .createServiceNameIndex (servicesRebuilt old random) =
      .error (.unique "Service_environmentId_name_key") := by
    simp only [exec, servicesRebuilt, Rebuild.newRows, map_newTemplates]
    rw [checkUnique, if_neg fun hnodup ↦ (nodup_templateKeys_iff old).mp hnodup h]
    rfl
  refine (runScript_append (runScript_beginning old random)).trans ?_
  exact runScript_cons_of_error hindex

theorem not_refusesUpFront_of_collide (h : Collide old) : ¬ RefusesUpFront random old := by
  rintro ⟨final, statement, hstatement, error, hrun, -⟩
  rw [runScript_of_collide old random h] at hrun
  obtain ⟨-, hstopped⟩ := Prod.mk.inj hrun
  obtain ⟨rfl, -⟩ := Prod.mk.inj (Option.some.inj hstopped)
  exact absurd hstatement (by decide)

/-- The migration does what it is to do exactly for the databases without a collision. -/
theorem migratesSafely_iff : MigratesSafely random old ↔ ¬ Collide old := by
  constructor
  · intro hsafe hcollide
    exact not_refusesUpFront_of_collide old random hcollide (hsafe.refuses hcollide)
  · intro h
    exact ⟨fun hcollide ↦ absurd hcollide h, fun _ ↦ ⟨migrated old random,
      newDeployments old random, runScript_of_not_collide old random h,
      preserved_migrated old random⟩⟩

/-- A service of the name `sidecar` on a server. -/
def sidecarOn (serverId id : String) : OldService where
  id := id
  serverId := serverId
  containerName := "sidecar"
  composePath := none
  exposedPorts := none
  status := "unknown"
  containerStatus := "unknown"
  healthStatus := "unknown"
  discoveryStatus := "found"
  lastCheckedAt := none
  lastDiscoveredAt := none
  imageDigestId := none
  agentHealthSuccess := none
  agentHealthStatusCode := none
  agentHealthDurationMs := none
  agentHealthCheckedAt := none
  agentTcpCheckResults := none
  agentTcpCheckedAt := none
  agentCertCheckResults := none
  agentCertCheckedAt := none
  createdAt := "2026-05-01"
  updatedAt := "2026-05-01"
  name := "sidecar"
  imageTag := "latest"
  composeTemplate := none
  healthCheckUrl := none
  healthWaitMs := 30000
  healthRetries := 3
  healthIntervalMs := 5000
  tcpChecks := none
  certChecks := none
  serviceTypeId := none
  containerImageId := "image"

def twoSidecars : OldDatabase where
  servers := ⟨[⟨"web", "production"⟩, ⟨"worker", "production"⟩], by decide⟩
  services := ⟨[sidecarOn "web" "first", sidecarOn "worker" "second"], by decide⟩
  deployments := Table.empty
  metrics := Table.empty
  steps := Table.empty
  files := Table.empty
  service_server := by decide
  service_name := by decide
  service_containerName := by decide
  deployment_service _ h := absurd h not_mem_nil
  metrics_service _ h := absurd h not_mem_nil
  step_service _ h := absurd h not_mem_nil
  file_service _ h := absurd h not_mem_nil
  file_configFile := by decide

theorem not_migratesSafely_twoSidecars :
    ¬ MigratesSafely ⟨fun id ↦ id, Function.injective_id⟩ twoSidecars := by
  have hcollide : Collide twoSidecars := by
    refine ⟨sidecarOn "web" "first", mem_cons_self, sidecarOn "worker" "second",
      mem_cons_of_mem _ mem_cons_self, by decide, rfl, ⟨"web", "production"⟩,
      mem_cons_self, ⟨"worker", "production"⟩, mem_cons_of_mem _ mem_cons_self,
      rfl, rfl, rfl⟩
  intro hsafe
  exact not_refusesUpFront_of_collide twoSidecars _ hcollide (hsafe.refuses hcollide)

end Bridgeport.Migrations
