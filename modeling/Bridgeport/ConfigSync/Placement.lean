import Bridgeport.Deploy.Artifacts

/-!
# Where a config file goes

A sync starts from a config file and expands its attachments to deployments; a deploy starts from a
deployment and picks an attachment for each of its config files. Both read the same rows, here a
`FileTables`, whose fields are the constraints on them.
-/

namespace Bridgeport.ConfigSync

open Foundation Secrets Deploy List

structure ServiceRow where
  (name imageTag imageName : String)
  composeTemplate : Option Text
  baseEnv : List (String × String)

/-- A config file row with its fragments in ascending position. -/
structure ConfigFileRow where
  (name filename environmentId : String)
  content : Text
  isBinary : Bool
  language : Option String
  includedFragments : List FragmentInput

structure DeploymentRow where
  (id serviceId serverId containerName : String)
  envOverrides : List (String × String)
  ports : List String

structure ServiceFileRow where
  (id targetPath serviceId configFileId : String)
  serviceDeploymentId : Option String
  deriving DecidableEq

def ServiceFileRow.key (row : ServiceFileRow) : String × String × Option String :=
  (row.serviceId, row.configFileId, row.serviceDeploymentId)

/-- The tables that a sync and a deploy read, with what holds of their rows: a service has at most
one base row for a config file, and at most one override row for each deployment; overrides are on
deployments of their own service. A row that another one refers to is there. -/
structure FileTables where
  server : String → Server
  service : String → ServiceRow
  configFile : String → ConfigFileRow
  deployments : List DeploymentRow
  serviceFiles : List ServiceFileRow
  server_id : ∀ id, (server id).id = id
  deployments_nodup : (deployments.map (·.id)).Nodup
  serviceFiles_nodup : (serviceFiles.map (·.key)).Nodup
  override_service : ∀ row ∈ serviceFiles, ∀ deploymentId ∈ row.serviceDeploymentId,
    ∃ deployment ∈ deployments, deployment.id = deploymentId ∧ deployment.serviceId = row.serviceId

namespace FileTables

variable (tables : FileTables)

/-- The tables have the same rows, listed in any order. -/
structure Reorders (tables other : FileTables) : Prop where
  server : tables.server = other.server
  service : tables.service = other.service
  configFile : tables.configFile = other.configFile
  deployments : tables.deployments.Perm other.deployments
  serviceFiles : tables.serviceFiles.Perm other.serviceFiles

section

variable (deployment : DeploymentRow)

def attachedDeployment : AttachedDeployment :=
  ⟨deployment.id, tables.server deployment.serverId⟩

def serviceFile (row : ServiceFileRow) : ServiceFile :=
  { row with
    serviceName := (tables.service row.serviceId).name
    serviceDeployments := (tables.deployments.filter (·.serviceId = row.serviceId)).map
      tables.attachedDeployment
    serviceDeployment := row.serviceDeploymentId.bind fun deploymentId ↦
      (tables.deployments.find? (·.id = deploymentId)).map tables.attachedDeployment }

/-- The config file that `syncConfigFileToAttachedServices` reads. -/
def syncSource (configFileId : String) : ConfigFile :=
  let row := tables.configFile configFileId
  { row with
    id := configFileId
    services := (tables.serviceFiles.filter (·.configFileId = configFileId)).map
      tables.serviceFile }

def sourceFile (row : ServiceFileRow) : SourceFile :=
  let file := tables.configFile row.configFileId
  { row with configFile := { file with id := row.configFileId } }

/-- The deployment that `generateDeploymentArtifacts` reads. -/
def artifactSource : ArtifactSource :=
  let service := tables.service deployment.serviceId
  { deployment, service with
    deploymentId := deployment.id
    environmentId := (tables.server deployment.serverId).environmentId
    serviceName := service.name
    files := (tables.serviceFiles.filter (·.serviceId = deployment.serviceId)).map
      tables.sourceFile }

end

/-! ### The row that applies -/

def rowsAt (key : String × String × Option String) : List ServiceFileRow :=
  tables.serviceFiles.filter (·.key = key)

/-- The row through which a config file goes to a deployment: the override row of the deployment, or
else the base row of the service. -/
def placedRow (configFileId : String) (deployment : DeploymentRow) : Option ServiceFileRow :=
  (tables.rowsAt (deployment.serviceId, configFileId, some deployment.id)).head?.or
    (tables.rowsAt (deployment.serviceId, configFileId, none)).head?

variable {tables}

theorem rowsAt_eq_toList (key : String × String × Option String) :
    tables.rowsAt key = (tables.rowsAt key).head?.toList := by
  cases hrows : tables.rowsAt key with
  | nil => rfl
  | cons row rest =>
    have hrow : row ∈ tables.rowsAt key := by
      rw [hrows]
      exact mem_cons_self
    unfold rowsAt at hrow
    rw [mem_filter, decide_eq_true_eq] at hrow
    have hsingle := OrderedMap.filter_key_eq ServiceFileRow.key tables.serviceFiles_nodup hrow.1
    rw [hrow.2] at hsingle
    rw [← hrows]
    unfold rowsAt
    rw [hsingle]
    rfl

section

variable {deployment : DeploymentRow} (hdeployment : deployment ∈ tables.deployments)

include hdeployment

theorem filter_deployments : tables.deployments.filter (·.id = deployment.id) = [deployment] :=
  OrderedMap.filter_key_eq DeploymentRow.id tables.deployments_nodup hdeployment

theorem find?_deployments : tables.deployments.find? (·.id = deployment.id) = some deployment := by
  rw [← List.head?_filter, filter_deployments hdeployment]
  rfl

end

/-- The row that applies does not depend on the order of the rows. -/
theorem Reorders.placedRow {other : FileTables} (h : tables.Reorders other)
    (configFileId : String) (deployment : DeploymentRow) :
    other.placedRow configFileId deployment = tables.placedRow configFileId deployment := by
  have hrows : ∀ key, (other.rowsAt key).head? = (tables.rowsAt key).head? := by
    intro key
    have hperm : (tables.rowsAt key).Perm (other.rowsAt key) := h.serviceFiles.filter _
    rw [rowsAt_eq_toList, other.rowsAt_eq_toList] at hperm
    cases hfirst : (tables.rowsAt key).head? with
    | none =>
      rw [hfirst] at hperm
      exact Option.toList_eq_nil_iff.mp hperm.symm.eq_nil
    | some row =>
      rw [hfirst] at hperm
      exact Option.toList_eq_singleton_iff.mp (perm_singleton.mp hperm.symm)
  unfold FileTables.placedRow
  rw [hrows, hrows]

/-! ### The targets of a sync -/

def target (tables : FileTables) (deployment : DeploymentRow) (row : ServiceFileRow) : Pair :=
  ⟨tables.serviceFile row, deployment.id, tables.server deployment.serverId⟩

theorem serviceDeployment_serviceFile {row : ServiceFileRow} (hrow : row ∈ tables.serviceFiles) :
    (row.serviceDeploymentId = none ∧ (tables.serviceFile row).serviceDeployment = none) ∨
      ∃ deployment ∈ tables.deployments, row.serviceDeploymentId = some deployment.id ∧
        (tables.serviceFile row).serviceDeployment =
          some (tables.attachedDeployment deployment) := by
  unfold serviceFile
  dsimp only
  cases hid : row.serviceDeploymentId with
  | none => exact .inl ⟨rfl, rfl⟩
  | some deploymentId =>
    obtain ⟨deployment, hdeployment, hsame, -⟩ := tables.override_service row hrow _ hid
    subst hsame
    refine .inr ⟨deployment, hdeployment, rfl, ?_⟩
    rw [Option.bind_some, find?_deployments hdeployment]
    rfl

theorem flatMap_eq_map_filter {ι κ : Type*} {expand : ι → List κ} (selects : ι → Prop)
    [DecidablePred selects] (value : ι → κ) {items : List ι}
    (hexpand : ∀ item ∈ items, expand item = if selects item then [value item] else []) :
    items.flatMap expand = (items.filter fun item ↦ selects item).map value := by
  induction items with
  | nil => rfl
  | cons item rest ih =>
    rw [flatMap_cons, hexpand item mem_cons_self,
      ih fun other hother ↦ hexpand other (mem_cons_of_mem _ hother)]
    by_cases hitem : selects item
    · simp [hitem]
    · simp [hitem]

section

variable (configFileId : String) {deployment : DeploymentRow}
  (hdeployment : deployment ∈ tables.deployments)
include configFileId hdeployment

theorem filter_overrides :
    ((tables.syncSource configFileId).services.filterMap fun sf ↦
      sf.serviceDeployment.map fun attached ↦
        (⟨sf, attached.id, attached.server⟩ : Pair)).filter
          (·.serviceDeploymentId = deployment.id) =
      (tables.rowsAt (deployment.serviceId, configFileId, some deployment.id)).map
        (tables.target deployment) := by
  unfold syncSource rowsAt
  dsimp only
  rw [filterMap_map, filterMap_eq_flatMap_toList, filter_flatMap,
    flatMap_eq_map_filter (·.serviceDeploymentId = some deployment.id)
      (tables.target deployment), filter_filter]
  · congr 1
    refine filter_congr fun row hrow ↦ ?_
    have hservice : row.serviceDeploymentId = some deployment.id →
        row.serviceId = deployment.serviceId := by
      intro hoverride
      obtain ⟨other, hother, hid, hservice⟩ := tables.override_service row hrow _ hoverride
      rw [← hservice, inj_on_of_nodup_map tables.deployments_nodup hother hdeployment hid]
    unfold ServiceFileRow.key
    simp only [Prod.mk.injEq, ← Bool.decide_and, decide_eq_decide]
    tauto
  · intro row hrow
    have hrow := mem_of_mem_filter hrow
    rcases serviceDeployment_serviceFile hrow with ⟨hid, hnone⟩ | ⟨other, hother, hid, hsome⟩
    · simp [hnone, hid]
    · by_cases hsame : other.id = deployment.id
      · have heq := inj_on_of_nodup_map tables.deployments_nodup hother hdeployment hsame
        simp [hsome, hid, heq, attachedDeployment, target]
      · simp [hsome, hid, hsame, attachedDeployment]

theorem mem_covered_iff :
    deployment.id ∈ ((tables.syncSource configFileId).services.filterMap fun sf ↦
      sf.serviceDeployment.map (·.id)) ↔
      tables.rowsAt (deployment.serviceId, configFileId, some deployment.id) ≠ [] := by
  have hcovered : ((tables.syncSource configFileId).services.filterMap fun sf ↦
      sf.serviceDeployment.map (·.id)) =
      ((tables.syncSource configFileId).services.filterMap fun sf ↦
        sf.serviceDeployment.map fun attached ↦
          (⟨sf, attached.id, attached.server⟩ : Pair)).map (·.serviceDeploymentId) := by
    rw [map_filterMap]
    simp only [Option.map_map, Function.comp_def]
  have hfilter := filter_overrides configFileId hdeployment
  rw [hcovered, mem_map, Ne, ← map_eq_nil_iff (f := tables.target deployment), ← hfilter,
    filter_eq_nil_iff]
  simp only [decide_eq_true_eq, not_forall, not_not, exists_prop]

theorem filter_bases (covered : List String) :
    ((tables.syncSource configFileId).services.flatMap fun sf ↦
      if sf.serviceDeployment.isSome then []
      else (sf.serviceDeployments.filter (·.id ∉ covered)).map
        fun attached ↦ (⟨sf, attached.id, attached.server⟩ : Pair)).filter
          (·.serviceDeploymentId = deployment.id) =
      if deployment.id ∈ covered then []
      else (tables.rowsAt (deployment.serviceId, configFileId, none)).map
        (tables.target deployment) := by
  unfold syncSource rowsAt
  dsimp only
  rw [flatMap_map, filter_flatMap]
  by_cases hcovered : deployment.id ∈ covered
  · rw [if_pos hcovered, flatMap_eq_nil_iff]
    intro row hrow
    rw [filter_eq_nil_iff]
    intro pair hpair
    split_ifs at hpair with hoverride
    · exact absurd hpair not_mem_nil
    · obtain ⟨attached, hattached, rfl⟩ := mem_map.mp hpair
      have hnew : attached.id ∉ covered := by simpa using (mem_filter.mp hattached).2
      have hne : attached.id ≠ deployment.id := fun h ↦ hnew (h ▸ hcovered)
      simpa using hne
  · rw [if_neg hcovered, flatMap_eq_map_filter (fun row ↦ row.serviceDeploymentId = none ∧
      row.serviceId = deployment.serviceId) (tables.target deployment), filter_filter]
    · congr 1
      refine filter_congr fun row hrow ↦ ?_
      unfold ServiceFileRow.key
      simp only [Prod.mk.injEq, ← Bool.decide_and, decide_eq_decide]
      tauto
    · intro row hrow
      have hrow := mem_of_mem_filter hrow
      rcases serviceDeployment_serviceFile hrow with ⟨hid, hnone⟩ | ⟨other, hother, hid, hsome⟩
      · have hdeployments : (tables.deployments.filter (·.serviceId = row.serviceId)).filter
            (·.id = deployment.id) =
            if row.serviceId = deployment.serviceId then [deployment] else [] := by
          rw [filter_comm, filter_deployments hdeployment]
          by_cases hservice : deployment.serviceId = row.serviceId
          · simp [hservice]
          · simp [hservice, Ne.symm hservice]
        have hserviceDeployments : (tables.serviceFile row).serviceDeployments =
            (tables.deployments.filter (·.serviceId = row.serviceId)).map
              tables.attachedDeployment := rfl
        rw [hnone, hserviceDeployments, Option.isSome_none, if_neg Bool.false_ne_true, filter_map,
          filter_map, filter_map, filter_comm]
        change List.map _ (List.map tables.attachedDeployment
          (((tables.deployments.filter (·.serviceId = row.serviceId)).filter
            (·.id = deployment.id)).filter (·.id ∉ covered))) = _
        rw [hdeployments]
        by_cases hservice : row.serviceId = deployment.serviceId
        · simp [hservice, hid, hcovered, target, attachedDeployment]
        · simp [hservice]
      · simp [hsome, hid]

theorem filter_expandPairs :
    (expandPairs (tables.syncSource configFileId)).filter
        (·.serviceDeploymentId = deployment.id) =
      (tables.placedRow configFileId deployment).toList.map (tables.target deployment) := by
  unfold expandPairs expandRows
  dsimp only
  rw [filter_append, filter_overrides configFileId hdeployment,
    filter_bases configFileId hdeployment]
  unfold placedRow
  cases hoverride : (tables.rowsAt (deployment.serviceId, configFileId,
      some deployment.id)).head? with
  | none =>
    have hnone := List.head?_eq_none_iff.mp hoverride
    have huncovered := (mem_covered_iff configFileId hdeployment).not_left.mpr hnone
    rw [if_neg huncovered, hnone, map_nil, nil_append, Option.none_or, ← rowsAt_eq_toList]
  | some row =>
    have hsome : tables.rowsAt (deployment.serviceId, configFileId, some deployment.id) =
      [row] := by
      rw [rowsAt_eq_toList, hoverride]
      rfl
    have hcovered := (mem_covered_iff configFileId hdeployment).mpr (by rw [hsome]; exact nofun)
    rw [if_pos hcovered, hsome, append_nil]
    rfl

end

theorem server_expandPairs (configFileId : String) :
    ∀ pair ∈ expandPairs (tables.syncSource configFileId),
      tables.server pair.server.id = pair.server := by
  intro pair hpair
  have hattached : ∀ deployment : DeploymentRow,
      tables.server (tables.attachedDeployment deployment).server.id =
        (tables.attachedDeployment deployment).server := by
    intro deployment
    unfold attachedDeployment
    rw [tables.server_id]
  unfold expandPairs expandRows syncSource at hpair
  rcases mem_append.mp hpair with hoverride | hbase
  · obtain ⟨sf, hsf, hmapped⟩ := mem_filterMap.mp hoverride
    obtain ⟨row, hrow, rfl⟩ := mem_map.mp hsf
    rcases serviceDeployment_serviceFile (mem_of_mem_filter hrow) with
      ⟨-, hnone⟩ | ⟨deployment, -, -, hsome⟩
    · rw [hnone] at hmapped
      nomatch hmapped
    · rw [hsome] at hmapped
      rw [← Option.some.inj hmapped]
      exact hattached deployment
  · obtain ⟨sf, hsf, hmapped⟩ := mem_flatMap.mp hbase
    obtain ⟨row, hrow, rfl⟩ := mem_map.mp hsf
    split_ifs at hmapped with hisSome
    · exact absurd hmapped not_mem_nil
    · obtain ⟨attached, hmem, rfl⟩ := mem_map.mp hmapped
      obtain ⟨deployment, -, rfl⟩ := mem_map.mp (mem_of_mem_filter hmem)
      exact hattached deployment

end FileTables

def groupTargets : List Pair → List (Server × Pair)
  | [] => []
  | first :: rest => (first :: rest).map fun pair ↦ (first.server, pair)

/-- The targets of a sync in its order, each with the server of the client that reaches it. -/
def syncTargets (configFile : ConfigFile) : List (Server × Pair) :=
  (serverGroups configFile).flatMap groupTargets

variable {configFile : ConfigFile}

/-- A sync reaches each of its targets once, with the client of its own server. Assumes: servers
with the same id are the same. -/
theorem syncTargets_perm
    (hservers : ∀ first ∈ expandPairs configFile, ∀ second ∈ expandPairs configFile,
      first.server.id = second.server.id → first.server = second.server) :
    (syncTargets configFile).Perm
      ((expandPairs configFile).map fun pair ↦ (pair.server, pair)) := by
  have hgroups : (syncTargets configFile) =
      ((OrderedMap.groupBy (·.server.id) (expandPairs configFile)).entries.flatMap Prod.snd).map
        fun pair ↦ (pair.server, pair) := by
    unfold syncTargets
    rw [serverGroups, flatMap_map, map_flatMap]
    refine flatMap_congr fun entry hentry ↦ ?_
    have hget := (OrderedMap.mem_entries_iff _ entry.1 entry.2).mp hentry
    have hgroup := OrderedMap.getD_groupBy (·.server.id) (expandPairs configFile) entry.1
    rw [hget, Option.getD_some] at hgroup
    have hmem : ∀ pair ∈ entry.2, pair ∈ expandPairs configFile ∧ pair.server.id = entry.1 := by
      intro pair hpair
      rw [hgroup, mem_filter, decide_eq_true_eq] at hpair
      exact hpair
    cases hpairs : entry.2 with
    | nil => rfl
    | cons first rest =>
      refine map_congr_left fun pair hpair ↦ ?_
      have hfirst := hmem first (hpairs ▸ mem_cons_self)
      have hother := hmem pair (hpairs ▸ hpair)
      rw [hservers first hfirst.1 pair hother.1 (hfirst.2.trans hother.2.symm)]
  rw [hgroups]
  exact (OrderedMap.flatMap_groupBy_perm _ _).map _

/-! ### What a sync writes -/

section

variable {Blob Host : Type*} (rendering : Rendering Blob) (hostOf : Server → Host)

theorem fst_writes_sublist {report : Pair → TargetReport Host Blob} {file : Pair → HostFile Host}
    (hfile : ∀ pair write, (report pair).write = some write → write.1 = file pair)
    (pairs : List Pair) :
    (((pairs.map report).filterMap (·.write)).map Prod.fst).Sublist (pairs.map file) := by
  induction pairs with
  | nil => exact List.Sublist.refl _
  | cons pair rest ih =>
    cases hwrite : (report pair).write with
    | none =>
      rw [map_cons, filterMap_cons_none hwrite, map_cons]
      exact ih.cons _
    | some write =>
      rw [map_cons, filterMap_cons_some hwrite, map_cons, map_cons, hfile pair write hwrite]
      exact ih.cons_cons _

theorem fst_writes_pushGroup_sublist {faults : SyncFaults Blob} {group : List Pair}
    {reports : List (TargetReport Host Blob)}
    (hpush : pushGroup rendering hostOf faults configFile group = .ok reports) :
    ((reports.filterMap (·.write)).map Prod.fst).Sublist
      ((groupTargets group).map fun target ↦ targetFile hostOf target.1 target.2) := by
  cases group with
  | nil =>
    rw [← Except.ok.inj hpush]
    exact List.Sublist.refl _
  | cons first rest =>
    have htargets : (groupTargets (first :: rest)).map
        (fun target ↦ targetFile hostOf target.1 target.2) =
        (first :: rest).map (targetFile hostOf first.server) := by
      unfold groupTargets
      rw [map_map]
      rfl
    rw [htargets]
    unfold pushGroup at hpush
    cases hclient : faults.clientFor first.server.id with
    | client =>
      cases hconnect : faults.connectThrows first.server.id with
      | none =>
        simp only [hclient, hconnect, Except.ok.injEq] at hpush
        rw [← hpush]
        exact fst_writes_sublist (fun pair write hwrite ↦ fst_write_pushPair hwrite) _
      | some message =>
        simp only [hclient, hconnect, Except.ok.injEq] at hpush
        rw [← hpush]
        refine fst_writes_sublist ?_ _
        intro pair write hwrite
        nomatch hwrite
    | unavailable error =>
      simp only [hclient, Except.ok.injEq] at hpush
      rw [← hpush]
      refine fst_writes_sublist ?_ _
      intro pair write hwrite
      nomatch hwrite
    | throws message =>
      simp only [hclient] at hpush
      nomatch hpush

/-- Whatever goes wrong, the loop writes to each of its targets at most once, in their order. -/
theorem fst_writes_pushGroups_sublist (faults : SyncFaults Blob) (configFile : ConfigFile)
    (groups : List (List Pair)) :
    (((pushGroups rendering hostOf faults configFile groups).1.filterMap (·.write)).map
      Prod.fst).Sublist
      ((groups.flatMap groupTargets).map fun target ↦ targetFile hostOf target.1 target.2) := by
  induction groups with
  | nil => exact List.Sublist.refl _
  | cons group groups ih =>
    unfold pushGroups
    cases hpush : pushGroup rendering hostOf faults configFile group with
    | error message => exact nil_sublist _
    | ok reports =>
      dsimp only
      rw [filterMap_append, map_append, flatMap_cons, map_append]
      exact (fst_writes_pushGroup_sublist rendering hostOf hpush).append ih

/-- Whatever goes wrong, a sync writes to each of its targets at most once, in their order. -/
theorem fst_writes_sync_sublist (faults : SyncFaults Blob) (configFile : ConfigFile) :
    ((syncConfigFile rendering hostOf faults (some configFile)).writes.map Prod.fst).Sublist
      ((syncTargets configFile).map fun target ↦ targetFile hostOf target.1 target.2) := by
  have hgroups := fst_writes_pushGroups_sublist rendering hostOf faults configFile
    (serverGroups configFile)
  unfold syncConfigFile syncTargets
  cases hread : faults.readThrows with
  | some message => exact nil_sublist _
  | none =>
    dsimp only
    split_ifs with hempty
    · exact nil_sublist _
    · cases hthrown : (pushGroups rendering hostOf faults configFile
          (serverGroups configFile)).2 with
      | none => simpa only [hthrown] using hgroups
      | some message => simpa only [hthrown] using hgroups

end

/-- The row through which a deploy takes a config file, in any order of the rows. -/
theorem FileTables.filter_pickedFiles (tables : FileTables) (configFileId : String)
    (deployment : DeploymentRow) :
    (pickedFiles (tables.artifactSource deployment)).filter
        (·.configFile.id = configFileId) =
      (tables.placedRow configFileId deployment).toList.map tables.sourceFile := by
  have hrows : ∀ serviceDeploymentId : Option String,
      (tables.artifactSource deployment).files.filter (fun file ↦
        file.configFile.id = configFileId ∧ file.serviceDeploymentId = serviceDeploymentId) =
      (tables.rowsAt (deployment.serviceId, configFileId, serviceDeploymentId)).map
        tables.sourceFile := by
    intro serviceDeploymentId
    unfold FileTables.artifactSource FileTables.rowsAt
    dsimp only
    rw [filter_map, filter_filter]
    congr 1
    refine filter_congr fun row _ ↦ ?_
    unfold FileTables.sourceFile ServiceFileRow.key
    simp only [Function.comp_def, Prod.mk.injEq, ← Bool.decide_and, decide_eq_decide]
    tauto
  have hid : (tables.artifactSource deployment).deploymentId = deployment.id := rfl
  obtain ⟨override, hoverride⟩ : ∃ override : Option ServiceFileRow,
      tables.rowsAt (deployment.serviceId, configFileId, some deployment.id) = override.toList :=
    ⟨_, FileTables.rowsAt_eq_toList _⟩
  obtain ⟨base, hbase⟩ : ∃ base : Option ServiceFileRow,
      tables.rowsAt (deployment.serviceId, configFileId, none) = base.toList :=
    ⟨_, FileTables.rowsAt_eq_toList _⟩
  rw [Deploy.filter_pickedFiles, hrows, hrows, hid]
  unfold FileTables.placedRow
  rw [hoverride, hbase]
  cases override with
  | none => cases base <;> rfl
  | some row => rfl

/-- The target of a sync on a deployment is that of the row that applies, reached with the client of
the server of the deployment. -/
theorem FileTables.filter_syncTargets (tables : FileTables) (configFileId : String)
    {deployment : DeploymentRow} (hdeployment : deployment ∈ tables.deployments) :
    (syncTargets (tables.syncSource configFileId)).filter (fun target ↦
        target.2.serviceDeploymentId = deployment.id) =
      (tables.placedRow configFileId deployment).toList.map fun row ↦
        (tables.server deployment.serverId, tables.target deployment row) := by
  have hservers := @FileTables.server_expandPairs tables configFileId
  have hperm := (syncTargets_perm fun first hfirst second hsecond hid ↦ by
    rw [← hservers first hfirst, ← hservers second hsecond, hid]).filter fun target ↦
      target.2.serviceDeploymentId = deployment.id
  rw [filter_map] at hperm
  simp only [Function.comp_def] at hperm
  rw [FileTables.filter_expandPairs configFileId hdeployment, map_map] at hperm
  cases hplaced : tables.placedRow configFileId deployment with
  | none =>
    rw [hplaced] at hperm
    exact perm_nil.mp hperm
  | some row =>
    rw [hplaced] at hperm
    exact perm_singleton.mp hperm

end Bridgeport.ConfigSync
