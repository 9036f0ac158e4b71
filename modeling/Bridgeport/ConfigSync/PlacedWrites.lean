import Bridgeport.ConfigSync.SyncPreview

/-!
# What a sync writes and a deploy includes

A sync and a deploy find the same row for a config file on a deployment (`ConfigSync.Placement`),
but they do not refuse the same files. A sync refuses a text that cannot be rendered or is left with
a placeholder, and goes on with its next target. A deploy writes such a placeholder as it is, and it
stops at any picked text that cannot be rendered. Behind a sync that reaches every target they place
a file alike if and only if the one refuses where the other stops (`placesAlike_iff`); they do
whenever every picked text is rendered without a missing key.
-/

namespace Bridgeport.ConfigSync

open Foundation Secrets Deploy List

section

variable {Blob Host : Type*} (state : SyncState Blob)

/-- The database that a deploy reads. -/
def FileTables.artifactState (tables : FileTables) : ArtifactState where
  sources id := (tables.deployments.find? (·.id = id)).map tables.artifactSource
  renderTemplate := state.renderTemplate
  environment := state.environment

section

variable (environmentId : String) (file : SourceFile)

/-- A text that cannot be rendered: the secrets cannot be decrypted, or its template has errors. -/
def Unrendered : Prop :=
  file.configFile.isBinary = false ∧ ∀ environment,
    state.environment environmentId = .ok environment →
      (resolveSecretPlaceholders (state.renderTemplate environmentId) environment
        (composedSource file)).templateErrors ≠ []

/-- A text that is left with a placeholder. -/
def Unresolved : Prop :=
  file.configFile.isBinary = false ∧ ∃ environment,
    state.environment environmentId = .ok environment ∧
      (resolveSecretPlaceholders (state.renderTemplate environmentId) environment
        (composedSource file)).missing ≠ []

end

/-- The writes of a sync, each with its target. -/
def targetWrites (hostOf : Server → Host) (faults : SyncFaults Blob) (configFile : ConfigFile) :
    List (Pair × HostWrite Host Blob) :=
  (syncTargets configFile).filterMap fun target ↦
    (pushPair state.rendering hostOf faults configFile target.1 target.2).write.map (target.2, ·)

variable (hostOf : Server → Host) (faults : SyncFaults Blob) (yaml : Yaml)
  (tables other : FileTables) (configFileId : String) (deployment : DeploymentRow)

/-- What a sync of the config file writes for the deployment: through which attachment, and
where. -/
def writtenFor : List (ServiceFile × HostFile Host) :=
  ((targetWrites state hostOf faults (tables.syncSource configFileId)).filter fun write ↦
    write.1.serviceDeploymentId = deployment.id).map fun write ↦ (write.1.sf, write.2.1)

/-- What a deploy includes of the config file: the attachment, and the path. -/
def includedFor (result : Except String GeneratedArtifacts) : List (SourceFile × String) :=
  match result with
  | .ok artifacts =>
    (((pickedFiles (tables.artifactSource deployment)).zip artifacts.configFiles).filter
      (·.1.configFile.id = configFileId)).map
        fun included ↦ (included.1, included.2.mountPath)
  | .error _ => []

/-- The sync writes the config file for the deployment once, on its server, through the row through
which a deploy includes it, or the one does not write it and the other does not include it. -/
def PlacesAlike : Prop :=
  ∃ placed : Option ServiceFileRow, (∀ row ∈ placed, row ∈ tables.serviceFiles) ∧
    writtenFor state hostOf faults tables configFileId deployment =
      placed.toList.map (fun row ↦ (tables.serviceFile row,
        (hostOf (tables.server deployment.serverId), row.targetPath))) ∧
    ∀ result, Generates yaml (other.artifactState state) deployment.id result →
      includedFor other configFileId deployment result =
        placed.toList.map fun row ↦ (other.sourceFile row, row.targetPath)

/-- A sync does not write the file of the row. -/
def Refuses (server : Server) (row : ServiceFileRow) : Prop :=
  Unrendered state server.environmentId (tables.sourceFile row) ∨
    Unresolved state server.environmentId (tables.sourceFile row)

/-- A picked file of the deployment cannot be rendered. -/
def Stops : Prop :=
  ∃ file ∈ pickedFiles (tables.artifactSource deployment),
    Unrendered state (tables.server deployment.serverId).environmentId file

/-- A sync refuses the config file for the deployment exactly when a deploy stops. -/
def RefusedAlike : Prop :=
  ∀ row ∈ tables.placedRow configFileId deployment,
    Refuses state tables (tables.server deployment.serverId) row ↔ Stops state tables deployment

end

section

variable {Blob Host : Type*} {state : SyncState Blob} {hostOf : Server → Host}
  {faults : SyncFaults Blob} {yaml : Yaml} {tables other : FileTables} {configFileId : String}
  {deployment : DeploymentRow}

/-! ### What a deploy includes -/

section

variable {environmentId : String} {file : SourceFile}

theorem writtenFile_of_unrendered (h : Unrendered state environmentId file) :
    ∃ message, writtenFile (tables.artifactState state) environmentId file = .error message := by
  cases henvironment : (tables.artifactState state).environment environmentId with
  | ok environment =>
    exact writtenFile_of_hasErrors henvironment ⟨h.1, h.2 environment henvironment⟩
  | error message =>
    refine ⟨message, ?_⟩
    unfold writtenFile ArtifactState.resolve
    rw [h.1, henvironment]
    rfl

theorem writtenFile_of_not_unrendered (h : ¬ Unrendered state environmentId file) :
    ∃ artifact, writtenFile (tables.artifactState state) environmentId file = .ok artifact ∧
      artifact.mountPath = file.targetPath := by
  cases hbinary : file.configFile.isBinary with
  | true =>
    unfold writtenFile
    rw [if_pos hbinary]
    exact ⟨_, rfl, rfl⟩
  | false =>
    unfold Unrendered at h
    push Not at h
    obtain ⟨environment, henvironment, hrendered⟩ := h hbinary
    have hread : (tables.artifactState state).environment environmentId = .ok environment :=
      henvironment
    exact ⟨_, writtenFile_of_not_hasErrors hread fun herrors ↦ herrors.2 hrendered, rfl⟩

end

section

variable {result : Except String GeneratedArtifacts} (hdeployment : deployment ∈ tables.deployments)
  (hresult : Generates yaml (tables.artifactState state) deployment.id result)

include hdeployment hresult

theorem result_eq : result =
    ((pickedFiles (tables.artifactSource deployment)).mapM (writtenFile (tables.artifactState state)
      (tables.server deployment.serverId).environmentId)).map fun configFiles ↦
        ⟨composeArtifact yaml (tables.artifactSource deployment) configFiles, configFiles⟩ := by
  have hsource : (tables.artifactState state).findSource deployment.id =
      .ok (tables.artifactSource deployment) := by
    unfold ArtifactState.findSource FileTables.artifactState
    dsimp only
    rw [FileTables.find?_deployments hdeployment]
    rfl
  rw [generates_iff.mp hresult, generatedArtifacts, hsource]
  rfl

theorem includedFor_of_stops (hstops : Stops state tables deployment) :
    includedFor tables configFileId deployment result = [] := by
  obtain ⟨file, hfile, hunrendered⟩ := hstops
  obtain ⟨message, hmessage⟩ := writtenFile_of_unrendered hunrendered
  obtain ⟨thrown, hthrown⟩ := exists_mapM_eq_error hfile hmessage
  rw [result_eq hdeployment hresult, hthrown]
  rfl

theorem includedFor_of_not_stops (hstops : ¬ Stops state tables deployment) :
    includedFor tables configFileId deployment result =
      (tables.placedRow configFileId deployment).toList.map fun row ↦
        (tables.sourceFile row, row.targetPath) := by
  have hwritten : ∀ file ∈ pickedFiles (tables.artifactSource deployment), ∃ artifact,
      writtenFile (tables.artifactState state) (tables.server deployment.serverId).environmentId
        file = .ok artifact ∧ artifact.mountPath = file.targetPath := fun file hfile ↦
    writtenFile_of_not_unrendered fun hunrendered ↦ hstops ⟨file, hfile, hunrendered⟩
  have : Nonempty ConfigArtifact := ⟨⟨"", [], "", false⟩⟩
  choose! artifact hartifact hmountPath using hwritten
  rw [result_eq hdeployment hresult, mapM_eq_ok hartifact]
  show (((pickedFiles (tables.artifactSource deployment)).zip _).filter _).map _ = _
  rw [← map_prod_left_eq_zip, filter_map, map_map]
  refine (map_congr_left fun file hfile ↦ congrArg (Prod.mk file)
    (hmountPath file (mem_of_mem_filter hfile))).trans ?_
  show ((pickedFiles (tables.artifactSource deployment)).filter fun file ↦
    file.configFile.id = configFileId).map _ = _
  rw [FileTables.filter_pickedFiles, map_map]
  rfl

end

/-! ### What a sync writes -/

theorem hardError_eq_none_iff (resolution : Resolution) :
    hardError resolution = none ↔ resolution.templateErrors = [] ∧ resolution.missing = [] := by
  unfold hardError
  dsimp only
  rw [← length_eq_zero_iff, ← length_eq_zero_iff]
  split_ifs with herrors hmissing hmissing
  · exact iff_of_false nofun fun h ↦ herrors.ne' h.1
  · exact iff_of_false nofun fun h ↦ herrors.ne' h.1
  · exact iff_of_false nofun fun h ↦ hmissing.ne' h.2
  · exact iff_of_true rfl ⟨Nat.eq_zero_of_not_pos herrors, Nat.eq_zero_of_not_pos hmissing⟩

section

variable {row : ServiceFileRow} (hconfigFile : row.configFileId = configFileId) {server : Server}

include hconfigFile

theorem renderedText_eq_none_iff (htext : ¬ (tables.syncSource configFileId).isBinary) :
    renderedText state (tables.syncSource configFileId) server = none ↔
      Refuses state tables server row := by
  subst hconfigFile
  have hbinary : (tables.sourceFile row).configFile.isBinary = false := Bool.eq_false_iff.mpr htext
  unfold renderedText Refuses Unrendered Unresolved
  rw [if_neg htext]
  cases henvironment : state.environment server.environmentId with
  | error message => exact iff_of_true rfl (.inl ⟨hbinary, nofun⟩)
  | ok environment =>
    set resolution := state.resolution (tables.syncSource row.configFileId) server.environmentId
    have hresolution : resolution =
        resolveSecretPlaceholders (state.renderTemplate server.environmentId) environment
          (composedSource (tables.sourceFile row)) := by
      unfold resolution SyncState.resolution SyncState.environmentOf
      rw [henvironment]
      rfl
    simp only [Except.ok.injEq, forall_eq', exists_eq_left', hbinary, true_and, ne_eq,
      ← not_and_or, ← hresolution, ← hardError_eq_none_iff]
    cases hardError resolution with
    | none => exact iff_of_false nofun (not_not.mpr rfl)
    | some error => exact iff_of_true rfl nofun

/-- A target is written, at its path, unless its file is refused. -/
theorem write_pushPair {pair : Pair}
    (hfault : faults.pairFault pair.sf.id pair.serviceDeploymentId =
      resolveFault state (tables.syncSource configFileId) server) :
    (Refuses state tables server row ∧ (pushPair state.rendering hostOf faults
      (tables.syncSource configFileId) server pair).write = none) ∨
    (¬ Refuses state tables server row ∧ ∃ content, (pushPair state.rendering hostOf faults
      (tables.syncSource configFileId) server pair).write =
        some (targetFile hostOf server pair, content)) := by
  by_cases htext : (tables.syncSource configFileId).isBinary
  · have hbinary : (tables.sourceFile row).configFile.isBinary = true := by
      subst hconfigFile
      exact htext
    refine .inr ⟨?_, some (state.decodeBase64 (tables.syncSource configFileId).content), ?_⟩
    · rintro (⟨hnot, -⟩ | ⟨hnot, -⟩)
      · cases hbinary.symm.trans hnot
      · cases hbinary.symm.trans hnot
    · unfold pushPair renderFor
      rw [hfault, resolveFault, if_pos htext, if_pos htext]
      rfl
  · rw [(pushPair_text htext hfault).1, ← renderedText_eq_none_iff hconfigFile htext]
    cases renderedText state (tables.syncSource configFileId) server with
    | none => exact .inl ⟨rfl, rfl⟩
    | some text => exact .inr ⟨Option.some_ne_none text, _, rfl⟩

end

theorem FileTables.mem_placedRow {row : ServiceFileRow}
    (hrow : tables.placedRow configFileId deployment = some row) :
    row ∈ tables.serviceFiles ∧ row.configFileId = configFileId := by
  have hat : ∀ key, (tables.rowsAt key).head? = some row →
      row ∈ tables.serviceFiles ∧ row.key = key := fun key hhead ↦ by
    have hmem := mem_filter.mp (mem_of_mem_head? hhead)
    exact ⟨hmem.1, of_decide_eq_true hmem.2⟩
  rcases Option.or_eq_some_iff.mp hrow with hoverride | ⟨-, hbase⟩
  · exact (hat _ hoverride).imp_right fun hkey ↦ congrArg (·.2.1) hkey
  · exact (hat _ hbase).imp_right fun hkey ↦ congrArg (·.2.1) hkey

section

variable (hdeployment : deployment ∈ tables.deployments)

include hdeployment

/-- What a sync writes for a deployment is what it writes to the target there, if there is one. -/
theorem writtenFor_eq : writtenFor state hostOf faults tables configFileId deployment =
    (((tables.placedRow configFileId deployment).toList.map fun row ↦
      (tables.server deployment.serverId, tables.target deployment row)).filterMap fun target ↦
        (pushPair state.rendering hostOf faults (tables.syncSource configFileId) target.1
          target.2).write.map fun write ↦ (target.2.sf, write.1)) := by
  rw [← FileTables.filter_syncTargets tables configFileId hdeployment, filterMap_filter]
  unfold writtenFor targetWrites
  rw [filter_filterMap, map_filterMap]
  refine filterMap_congr fun target _ ↦ ?_
  cases (pushPair state.rendering hostOf faults (tables.syncSource configFileId) target.1
    target.2).write with
  | none => simp
  | some write =>
    obtain ⟨file, content⟩ := write
    by_cases h : target.2.serviceDeploymentId = deployment.id
    · simp [h]
    · simp [h]

theorem writtenFor_eq_of_placedRow {row : ServiceFileRow}
    (hrow : tables.placedRow configFileId deployment = some row)
    (hreaches : ReachesAll state faults (tables.syncSource configFileId)) :
    (Refuses state tables (tables.server deployment.serverId) row ∧
      writtenFor state hostOf faults tables configFileId deployment = []) ∨
    (¬ Refuses state tables (tables.server deployment.serverId) row ∧
      writtenFor state hostOf faults tables configFileId deployment = [(tables.serviceFile row,
        (hostOf (tables.server deployment.serverId), row.targetPath))]) := by
  have htarget : (tables.server deployment.serverId, tables.target deployment row) ∈
      syncTargets (tables.syncSource configFileId) := by
    have hmem : (tables.server deployment.serverId, tables.target deployment row) ∈
        (syncTargets (tables.syncSource configFileId)).filter fun target ↦
          target.2.serviceDeploymentId = deployment.id := by
      rw [tables.filter_syncTargets configFileId hdeployment, hrow]
      exact mem_singleton_self _
    exact mem_of_mem_filter hmem
  rw [writtenFor_eq hdeployment, hrow, Option.toList_some, map_singleton]
  rcases write_pushPair (FileTables.mem_placedRow hrow).2 (hreaches.resolves _ htarget) with
    ⟨hrefused, hwrite⟩ | ⟨hwritten, content, hwrite⟩
  · exact .inl ⟨hrefused, filterMap_cons_none (by rw [hwrite]; rfl)⟩
  · exact .inr ⟨hwritten, filterMap_cons_some (by rw [hwrite]; rfl)⟩

end

/-- What stops a deploy does not depend on the order of the rows. -/
theorem FileTables.Reorders.stops_iff (hreorders : tables.Reorders other) :
    Stops state other deployment ↔ Stops state tables deployment := by
  have hmem : ∀ (any : FileTables) (file : SourceFile),
      file ∈ pickedFiles (any.artifactSource deployment) ↔
        ∃ row, any.placedRow file.configFile.id deployment = some row ∧
          any.sourceFile row = file := by
    intro any file
    have hfilter := any.filter_pickedFiles file.configFile.id deployment
    have hsame : file ∈ pickedFiles (any.artifactSource deployment) ↔
        file ∈ (pickedFiles (any.artifactSource deployment)).filter
          (·.configFile.id = file.configFile.id) := by
      rw [mem_filter, and_iff_left (decide_eq_true rfl)]
    rw [hsame, hfilter, List.mem_map]
    simp only [Option.mem_toList]
  unfold Stops
  simp only [hmem, hreorders.placedRow]
  unfold FileTables.sourceFile
  rw [hreorders.configFile, hreorders.server]

theorem placesAlike_iff_refusedAlike (hreorders : tables.Reorders other)
    (hdeployment : deployment ∈ tables.deployments)
    (hreaches : ReachesAll state faults (tables.syncSource configFileId)) :
    PlacesAlike state hostOf faults yaml tables other configFileId deployment ↔
      RefusedAlike state tables configFileId deployment := by
  have hother : deployment ∈ other.deployments := hreorders.deployments.mem_iff.mp hdeployment
  have hgenerates : Generates yaml (other.artifactState state) deployment.id
      (generatedArtifacts yaml (other.artifactState state) deployment.id) := generates_iff.mpr rfl
  unfold PlacesAlike RefusedAlike
  rw [← hreorders.stops_iff]
  cases hplaced : tables.placedRow configFileId deployment with
  | none =>
    refine iff_of_true ⟨none, nofun, ?_, fun result hresult ↦ ?_⟩ nofun
    · rw [writtenFor_eq hdeployment, hplaced]
      rfl
    · by_cases hstops : Stops state other deployment
      · exact includedFor_of_stops hother hresult hstops
      · rw [includedFor_of_not_stops hother hresult hstops, hreorders.placedRow, hplaced]
  | some row =>
    have hplacedRow : other.placedRow configFileId deployment = some row :=
      (hreorders.placedRow configFileId deployment).trans hplaced
    simp only [Option.mem_some_iff, forall_eq']
    by_cases hstops : Stops state other deployment
    · rcases writtenFor_eq_of_placedRow hdeployment hplaced hreaches with
        ⟨hrefused, hwritten⟩ | ⟨hgoes, hwritten⟩
      · exact iff_of_true ⟨none, nofun, hwritten, fun result hresult ↦
          includedFor_of_stops hother hresult hstops⟩ (iff_of_true hrefused hstops)
      · refine iff_of_false ?_ fun hsame ↦ hgoes (hsame.mpr hstops)
        rintro ⟨placed, -, hwrites, hincludes⟩
        have hempty := hincludes _ hgenerates
        rw [includedFor_of_stops hother hgenerates hstops] at hempty
        rw [hwritten] at hwrites
        cases placed with
        | none => cases hwrites
        | some _ => cases hempty
    · have hincluded : ∀ result, Generates yaml (other.artifactState state) deployment.id result →
          includedFor other configFileId deployment result =
            [(other.sourceFile row, row.targetPath)] := fun result hresult ↦ by
        rw [includedFor_of_not_stops hother hresult hstops, hplacedRow]
        rfl
      rcases writtenFor_eq_of_placedRow hdeployment hplaced hreaches with
        ⟨hrefused, hwritten⟩ | ⟨hgoes, hwritten⟩
      · refine iff_of_false ?_ fun hsame ↦ hstops (hsame.mp hrefused)
        rintro ⟨placed, -, hwrites, hincludes⟩
        have hfull := hincludes _ hgenerates
        rw [hincluded _ hgenerates] at hfull
        rw [hwritten] at hwrites
        cases placed with
        | none => cases hfull
        | some _ => cases hwrites
      · refine iff_of_true ⟨some row, fun applies happlies ↦ ?_, hwritten, hincluded⟩
          (iff_of_false hgoes hstops)
        rw [← Option.mem_some_iff.mp happlies]
        exact (FileTables.mem_placedRow hplaced).1

end

/-- A sync that reaches every target writes what it writes to its targets, and with a deploy it
places a config file alike on a deployment, however each of them lists the rows, if and only if it
refuses the file exactly when the deploy stops. Whatever goes wrong, it writes to no target
twice. -/
theorem placesAlike_iff {Blob Host : Type*} (state : SyncState Blob) (hostOf : Server → Host)
    (faults : SyncFaults Blob) (yaml : Yaml) (tables other : FileTables) (configFileId : String)
    (deployment : DeploymentRow) (hreorders : tables.Reorders other)
    (hdeployment : deployment ∈ tables.deployments)
    (hreaches : ReachesAll state faults (tables.syncSource configFileId)) :
    (syncConfigFile state.rendering hostOf faults (some (tables.syncSource configFileId))).writes =
      (targetWrites state hostOf faults (tables.syncSource configFileId)).map Prod.snd ∧
    (PlacesAlike state hostOf faults yaml tables other configFileId deployment ↔
      RefusedAlike state tables configFileId deployment) ∧
    ∀ anyFaults, ((syncConfigFile state.rendering hostOf anyFaults
        (some (tables.syncSource configFileId))).writes.map Prod.fst).Sublist
      ((syncTargets (tables.syncSource configFileId)).map fun target ↦
        targetFile hostOf target.1 target.2) := by
  refine ⟨?_, placesAlike_iff_refusedAlike hreorders hdeployment hreaches,
    fun anyFaults ↦ fst_writes_sync_sublist state.rendering hostOf anyFaults _⟩
  rw [syncConfigFile_reached state.rendering hostOf hreaches, filterMap_map]
  unfold targetWrites
  rw [map_filterMap]
  refine filterMap_congr fun target _ ↦ ?_
  rw [Option.map_map]
  exact Option.map_id'.symm

/-! ### A placeholder without a value -/

/-- Two deployments of one service, with a base row of a text, and an override row on the first of
them. -/
def overriddenTables (content : Text) : FileTables where
  server id := ⟨id, id, id, "remote", "production"⟩
  service _ := ⟨"api", "v1", "acme/api", none, []⟩
  configFile _ := ⟨"settings", "settings.env", "production", content, false, none, []⟩
  deployments := [⟨"d1", "s1", "web1", "api", [], []⟩, ⟨"d2", "s1", "web2", "api", [], []⟩]
  serviceFiles := [⟨"base", "/opt/api/.env", "s1", "c1", none⟩,
    ⟨"override", "/srv/api/.env", "s1", "c1", some "d1"⟩]
  server_id _ := rfl
  deployments_nodup := by decide
  serviceFiles_nodup := by decide
  override_service := by decide

section

variable (content : Text)

theorem reorders_self (tables : FileTables) : tables.Reorders tables :=
  ⟨rfl, rfl, rfl, List.Perm.refl _, List.Perm.refl _⟩

theorem reachesAll_overridden : ReachesAll (previewState (.ok emptyEnvironment)) SyncFaults.none
    ((overriddenTables content).syncSource "c1") :=
  ⟨rfl, fun _ _ ↦ rfl, fun _ _ ↦ rfl, fun _ _ ↦ rfl⟩

theorem not_stops_overridden (deployment : DeploymentRow) :
    ¬ Stops (previewState (.ok emptyEnvironment)) (overriddenTables content) deployment := by
  rintro ⟨file, -, -, herrors⟩
  exact herrors emptyEnvironment rfl rfl

end

/-- The sync refuses a placeholder without a value, and the deploy includes it. -/
theorem not_placesAlike_missingSecret :
    ReachesAll (previewState (.ok emptyEnvironment)) SyncFaults.none
        ((overriddenTables "TOKEN=${TOKEN}".toList).syncSource "c1") ∧
      ¬ PlacesAlike (previewState (.ok emptyEnvironment)) Server.hostname SyncFaults.none
        silentYaml (overriddenTables "TOKEN=${TOKEN}".toList)
        (overriddenTables "TOKEN=${TOKEN}".toList) "c1" ⟨"d1", "s1", "web1", "api", [], []⟩ := by
  refine ⟨reachesAll_overridden _, fun h ↦ not_stops_overridden "TOKEN=${TOKEN}".toList
    ⟨"d1", "s1", "web1", "api", [], []⟩ ?_⟩
  refine ((placesAlike_iff_refusedAlike (reorders_self _) mem_cons_self
    (reachesAll_overridden _)).mp h _ rfl).mp (.inr ⟨rfl, emptyEnvironment, rfl, ?_⟩)
  decide

theorem placesAlike_plain :
    PlacesAlike (previewState (.ok emptyEnvironment)) Server.hostname SyncFaults.none silentYaml
      (overriddenTables "PORT=80".toList) (overriddenTables "PORT=80".toList) "c1"
      ⟨"d1", "s1", "web1", "api", [], []⟩ := by
  refine (placesAlike_iff _ _ _ _ _ _ _ _ (reorders_self _) mem_cons_self
    (reachesAll_overridden _)).2.1.mpr fun row hrow ↦
      iff_of_false ?_ (not_stops_overridden "PORT=80".toList _)
  rintro (⟨-, herrors⟩ | ⟨-, environment, henvironment, hmissing⟩)
  · exact herrors emptyEnvironment rfl rfl
  · obtain rfl : emptyEnvironment = environment := Except.ok.inj henvironment
    exact hmissing rfl

end Bridgeport.ConfigSync
