import Bridgeport.Deploy.Drift
import Bridgeport.Deploy.RunningImage

/-!
# What a deployment leaves for drift detection

`inspectSemantics` adds two things to the host of a deployment: placeholders are resolved from rows
that the deployment leaves as they are, and `compose up` creates a container that `docker inspect`
reports. What Docker creates from a compose file is a parameter.
-/

namespace Bridgeport.Deploy

open Foundation Secrets Orchestration Program List Function

/-- What `docker inspect` reports about a container and its image. -/
structure InspectedContainer where
  state : String
  env : List Text
  networkPorts : List NetworkPort
  repoDigests : List String

/-- Docker on a host: how `docker compose` reads a port entry, the ports that an image exposes and
its repository digests once it has been pulled, and the container that `docker compose up` creates
for a service of a compose file. -/
structure Docker where
  readPort : String → Option (ℤ × ℤ × String)
  exposes : String → List (ℤ × String)
  repoDigests : String → List String
  create : Text → String → Option InspectedContainer

/-- What the placeholders of an environment are resolved from. -/
structure RenderingRows where
  environment : Except String Environment
  renderTemplate : Text → Text × List String

def RenderingRows.state (rows : RenderingRows) (host : HostWorld) : ArtifactState where
  sources _ := some host.artifactSource
  renderTemplate _ := rows.renderTemplate
  environment _ := rows.environment

/-- A host with the containers that Docker reports. -/
structure InspectedWorld where
  host : HostWorld
  inspected : String → Option InspectedContainer

def Docker.createFrom (docker : Docker) (files : String → Option Text)
    (composePath serviceKey : String) : Option InspectedContainer :=
  (files composePath).bind fun content ↦ docker.create content serviceKey

section

variable (yaml : Yaml) (decodeBase64 : Text → Text) (docker : Docker) (rows : RenderingRows)

def inspectSemantics : Semantics Answer InspectedWorld where
  allows world event :=
    (hostSemantics yaml decodeBase64).allows world.host event ∧
    match event with
    | ⟨.resolveSecretPlaceholders environmentId content, .ok resolution⟩ =>
      (rows.state world.host).resolve environmentId content = .ok resolution
    | ⟨.composeUp composePath serviceKey _ _, .ok _⟩ =>
      (docker.createFrom world.host.files composePath serviceKey).isSome
    | _ => True
  after world event :=
    { host := (hostSemantics yaml decodeBase64).after world.host event
      inspected := match event with
        | ⟨.composeUp composePath serviceKey _ _, .ok _⟩ =>
          Function.update world.inspected serviceKey
            (docker.createFrom world.host.files composePath serviceKey)
        | _ => world.inspected }

variable {yaml decodeBase64 docker rows}

theorem views_host : (inspectSemantics yaml decodeBase64 docker rows).Views
    (hostSemantics yaml decodeBase64) (fun _ ↦ False) InspectedWorld.host :=
  ⟨fun _ _ _ h ↦ h.1, fun _ _ _ ↦ rfl⟩

theorem inspected_after_of_not_hostChange (world : InspectedWorld) (event : Event Answer)
    (h : ¬ HostChange event.call) :
    (inspectSemantics yaml decodeBase64 docker rows).after world event = world := by
  obtain ⟨call, answer⟩ := event
  cases call with
  | exec command => cases command <;> first | rfl | exact absurd trivial h
  | _ => first | rfl | exact absurd trivial h

theorem ensures_same_of_quiet {α : Type} {program : Async α} (hquiet : program.Quiet HostChange)
    (world : InspectedWorld) :
    program.Ensures (inspectSemantics yaml decodeBase64 docker rows) (fun _ after ↦ after = world)
      world := by
  have hmeets : program.Meets (inspectSemantics yaml decodeBase64 docker rows)
      (fun _ after ↦ after = world) world := by
    refine meets_of_quiet (fun event before hnot hbefore _ ↦ ?_) hquiet rfl
    rw [inspected_after_of_not_hostChange before event hnot, hbefore]
  exact hmeets.ensures

variable {world : InspectedWorld}

/-- What follows a phase that does not change the host starts in the same world. -/
theorem ensures_bind_same {α β : Type} {program : Async α} {next : α → Async β}
    {post : β → InspectedWorld → Prop} (hquiet : program.Quiet HostChange)
    (h : ∀ value, (next value).Ensures
      (inspectSemantics yaml decodeBase64 docker rows) post world) :
    (program >>= next).Ensures (inspectSemantics yaml decodeBase64 docker rows) post world := by
  refine ensures_bind ((ensures_same_of_quiet hquiet world).mono fun value after hafter ↦ ?_)
  rw [hafter]
  exact h value

/-- A phase that changes nothing but the host does what it does on a host without inspection. -/
theorem ensures_host {α : Type} {program : Async α} (hquiet : program.Quiet fun _ ↦ False)
    {post : α → HostWorld → Prop}
    (h : program.Ensures (hostSemantics yaml decodeBase64) post world.host) :
    program.Ensures (inspectSemantics yaml decodeBase64 docker rows)
      (fun value after ↦ post value after.host) world :=
  h.comap views_host hquiet

/-! ### Generated files -/

theorem configArtifact_written (environmentId : String) (file : SourceFile)
    (world : InspectedWorld) :
    (configArtifact environmentId file).Ensures (inspectSemantics yaml decodeBase64 docker rows)
      (fun artifact after ↦ after = world ∧
        writtenFile (rows.state world.host) environmentId file = .ok artifact) world := by
  refine (ensures_same_of_quiet
    (quiet_configArtifact not_hostChange_of_preparingCall environmentId file) world).and ?_
  unfold configArtifact writtenFile
  by_cases hbinary : file.configFile.isBinary
  · simp only [if_pos hbinary]
    exact ensures_pure.mpr rfl
  · simp only [if_neg hbinary]
    refine ensures_perform_bind fun resolution hresolution ↦ ?_
    have hresolve : (rows.state world.host).resolve environmentId (composedSource file) =
        .ok resolution := hresolution.2
    rw [hresolve]
    refine Ensures.ite (fun _ ↦ ensures_throw _ _ _) fun herrors ↦ ensures_pure.mpr ?_
    exact if_neg herrors

theorem configArtifacts_written (environmentId : String) (files : List SourceFile)
    (world : InspectedWorld) :
    (configArtifacts environmentId files).Ensures (inspectSemantics yaml decodeBase64 docker rows)
      (fun artifacts after ↦ after = world ∧
        files.mapM (writtenFile (rows.state world.host) environmentId) = .ok artifacts) world := by
  induction files with
  | nil => exact ensures_pure.mpr ⟨rfl, rfl⟩
  | cons file files ih =>
    refine ensures_bind ((configArtifact_written environmentId file world).mono ?_)
    rintro artifact after ⟨rfl, hartifact⟩
    refine ensures_bind (ih.mono ?_)
    rintro artifacts final ⟨rfl, hartifacts⟩
    refine ensures_pure.mpr ⟨rfl, ?_⟩
    rw [mapM_cons, hartifact, hartifacts]
    rfl

theorem generateDeploymentArtifacts_written (serviceDeploymentId : String)
    (world : InspectedWorld) :
    (generateDeploymentArtifacts yaml serviceDeploymentId).Ensures
      (inspectSemantics yaml decodeBase64 docker rows) (fun artifacts after ↦ after = world ∧
        generatedArtifacts yaml (rows.state world.host) serviceDeploymentId = .ok artifacts)
      world := by
  refine ensures_perform_bind fun source hsource ↦ ?_
  rw [show source = world.host.artifactSource from hsource.1]
  refine ensures_bind ((configArtifacts_written _ _ world).mono ?_)
  rintro configFiles after ⟨rfl, hconfigFiles⟩
  refine ensures_pure.mpr ⟨rfl, ?_⟩
  show (pickedFiles after.host.artifactSource).mapM
    (writtenFile (rows.state after.host) after.host.artifactSource.environmentId) >>= _ = _
  rw [hconfigFiles]
  rfl

def ConfigArtifact.stored (decodeBase64 : Text → Text) (artifact : ConfigArtifact) : Text :=
  (if artifact.isBinary then FileContent.base64 artifact.content
    else .utf8 artifact.content).stored decodeBase64

def writtenFiles (decodeBase64 : Text → Text) (configFiles : List ConfigArtifact)
    (files : String → Option Text) : String → Option Text :=
  configFiles.foldl (fun files configFile ↦
    Function.update files configFile.mountPath (some (configFile.stored decodeBase64))) files

variable (configFiles : List ConfigArtifact)

/-- A file that is written holds the last config file with its path. -/
theorem writtenFiles_apply (files : String → Option Text) (path : String) :
    writtenFiles decodeBase64 configFiles files path =
      match (expectedByPath configFiles).get path with
      | some artifact => some (artifact.stored decodeBase64)
      | none => files path := by
  unfold writtenFiles expectedByPath
  induction configFiles using List.reverseRecOn with
  | nil => rfl
  | append_singleton configFiles last ih =>
    rw [foldl_append, foldl_cons, foldl_nil, foldl_append, foldl_cons,
      foldl_nil, OrderedMap.get_set]
    by_cases hpath : path = last.mountPath
    · rw [hpath, update_self, if_pos rfl]
    · rw [update_of_ne hpath, if_neg hpath, ih]

theorem writeConfigFile_written (file : ConfigArtifact) (world : HostWorld) :
    (writeConfigFile file).Ensures (hostSemantics yaml decodeBase64)
      (fun _ after ↦ after =
        world.setFile file.mountPath (some (file.stored decodeBase64))) world := by
  refine ensures_perform_bind fun _ _ ↦ ensures_perform_bind fun _ _ ↦ ?_
  refine (ensures_of_quiet (Quiet.when ?_) _).mono fun _ after hafter ↦ hafter
  exact quiet_call not_false fun _ ↦ quiet_pure _

theorem writeConfigFiles_written (world : HostWorld) :
    (writeConfigFiles configFiles).Ensures (hostSemantics yaml decodeBase64)
      (fun _ after ↦ after =
        { world with files := writtenFiles decodeBase64 configFiles world.files }) world := by
  induction configFiles generalizing world with
  | nil => exact ensures_pure.mpr rfl
  | cons file files ih =>
    refine ensures_bind ((writeConfigFile_written file world).mono fun _ after hafter ↦ ?_)
    rw [hafter]
    exact ih (world.setFile file.mountPath (some (file.stored decodeBase64)))

theorem writeConfigFiles_inspected (world : InspectedWorld) :
    (writeConfigFiles configFiles).Ensures (inspectSemantics yaml decodeBase64 docker rows)
      (fun _ after ↦ after.host = { world.host with
        files := writtenFiles decodeBase64 configFiles world.host.files }) world :=
  ensures_host (quiet_writeConfigFiles (fun _ _ ↦ not_false) (fun _ _ ↦ not_false) configFiles)
    (writeConfigFiles_written configFiles world.host)

/-! ### The phases -/

/-- A deployment that writes its artifacts to a compose path of its own. -/
structure OwnsComposePath (deployment : ServiceDeployment) (host : HostWorld) (path : String) :
    Prop where
  composePath : deployment.composePath = some path
  nonempty : path ≠ ""
  exclusive : host.deploymentsOn path ≤ 1

/-- What the artifacts phase of a deployment of a tag leaves on its host: the rows with the tag, and
the generated files. -/
def LeavesFiles (yaml : Yaml) (decodeBase64 : Text → Text) (rows : RenderingRows)
    (before after : HostWorld) (tag path : String) : Prop :=
  ∃ artifacts files,
    generatedArtifacts yaml (rows.state (before.setImageTag tag)) before.deployment.id =
      .ok artifacts ∧
    (after.moveFailed = false → files path = some artifacts.compose.content) ∧
    after = { before.setImageTag tag with
      files := writtenFiles decodeBase64 artifacts.configFiles files
      moveFailed := after.moveFailed }

variable {path : String} (run : DeployRun)

theorem manageComposePath_own (hown : run.deployment.composePath = some path) (hpath : path ≠ "")
    (composePath : String) (world : InspectedWorld) :
    (manageComposePath run composePath).Ensures (inspectSemantics yaml decodeBase64 docker rows)
      (fun managed after ↦ managed = some path ∧ after = world) world := by
  have htruthy : truthy run.deployment.composePath = true := by
    rw [truthy_eq_isSome, hown]
    simp [Option.filter, hpath]
  refine Ensures.ite (fun _ ↦ ensures_pure.mpr ⟨hown, rfl⟩) fun hfalsy ↦ absurd htruthy hfalsy

theorem isSharedOperatorFile_own (hown : OwnsComposePath run.deployment world.host path) :
    (isSharedOperatorFile run path).Ensures (inspectSemantics yaml decodeBase64 docker rows)
      (fun shared after ↦ shared = false ∧ after = world) world := by
  unfold isSharedOperatorFile
  rw [hown.composePath]
  refine ensures_perform_bind fun siblingCount hcount ↦ ensures_pure.mpr ⟨?_, rfl⟩
  rw [show siblingCount = world.host.deploymentsOn path from hcount.1]
  exact decide_eq_false (Nat.not_lt.mpr hown.exclusive)

theorem artifactsPhase_leaves (deployDir : String) (world : InspectedWorld)
    (hrun : run.deployment = world.host.deployment)
    (hown : OwnsComposePath run.deployment world.host path) :
    (artifactsPhase yaml run deployDir).Ensures (inspectSemantics yaml decodeBase64 docker rows)
      (fun composePath after ↦ composePath = some path ∧
        LeavesFiles yaml decodeBase64 rows world.host after.host run.imageTag path) world := by
  have htagged : (when (run.imageTag ≠ run.deployment.service.imageTag)
      (await (.updateServiceImageTag run.deployment.service.id run.imageTag))).Ensures
        (inspectSemantics yaml decodeBase64 docker rows)
        (fun _ after ↦ after.host = world.host.setImageTag run.imageTag) world :=
    ensures_host (Quiet.when (quiet_perform not_false)) (updateImageTag_spec run world.host hrun)
  refine ensures_bind (htagged.mono fun _ tagged htag ↦ ?_)
  refine ensures_bind ((generateDeploymentArtifacts_written _ tagged).mono ?_)
  rintro artifacts after ⟨rfl, hartifacts⟩
  have hpath : composePathFor run deployDir artifacts = path := by
    unfold composePathFor
    rw [hown.composePath, orElse_of_ne hown.nonempty]
  rw [hpath]
  have howntagged : OwnsComposePath run.deployment after.host path :=
    ⟨hown.composePath, hown.nonempty, by rw [htag]; exact hown.exclusive⟩
  refine ensures_bind ((isSharedOperatorFile_own run howntagged).mono ?_)
  rintro shared after ⟨rfl, rfl⟩
  refine ensures_bind_same (quiet_composeToValidate not_hostChange_of_preparingCall _ _ _)
    fun content ↦ ?_
  split
  · exact ensures_throw _ _ _
  · have hcompose : (when (¬ (false : Bool) = true) (writeComposeFile run path artifacts)).Ensures
        (inspectSemantics yaml decodeBase64 docker rows) (fun _ written ↦
          SameButFiles after.host written.host ∧ (written.host.moveFailed = false →
            written.host.files path = some artifacts.compose.content)) after :=
      ensures_host (Quiet.when (quiet_writeComposeFile (fun _ _ ↦ not_false) _ _ _))
        (Ensures.ite (fun _ ↦ writeComposeFile_spec run path artifacts after.host)
          fun hshared ↦ absurd nofun hshared)
    refine ensures_bind (hcompose.mono fun _ written hwritten ↦ ?_)
    refine ensures_bind ((writeConfigFiles_inspected _ written).mono fun _ uploaded huploaded ↦ ?_)
    refine ensures_perform_bind fun _ _ ↦ ?_
    refine (manageComposePath_own run hown.composePath hown.nonempty path uploaded).mono ?_
    rintro composePath final ⟨rfl, rfl⟩
    obtain ⟨hrows, hcontent⟩ := hwritten
    have hmoved : final.host.moveFailed = written.host.moveFailed := by rw [huploaded]
    refine ⟨rfl, artifacts, written.host.files, ?_, fun hfalse ↦ hcontent (hmoved ▸ hfalse), ?_⟩
    · rw [← htag, ← hrun]
      exact hartifacts
    · rw [hmoved, huploaded, ← htag, hrows]

/-- What a deployment of a tag leaves on its host: besides the generated files, a container that has
been created from the compose file on disk. -/
structure Leaves (yaml : Yaml) (decodeBase64 : Text → Text) (docker : Docker) (rows : RenderingRows)
    (before : HostWorld) (after : InspectedWorld) (tag path : String) : Prop where
  files : ∃ prepared, LeavesFiles yaml decodeBase64 rows before prepared tag path ∧
    after.host = { prepared with containers := after.host.containers }
  created : after.inspected before.deployment.containerName =
    docker.createFrom after.host.files path before.deployment.containerName
  present : (after.inspected before.deployment.containerName).isSome

theorem startContainer_creates (hpath : path ≠ "") (world : InspectedWorld) :
    (startContainer run (some path) true).Ensures (inspectSemantics yaml decodeBase64 docker rows)
      (fun _ after ↦ after.host = { world.host with containers := after.host.containers } ∧
        after.inspected run.deployment.containerName =
          docker.createFrom world.host.files path run.deployment.containerName ∧
        (docker.createFrom world.host.files path run.deployment.containerName).isSome) world := by
  have hfilter : (some path).filter (· ≠ "") = some path := by simp [Option.filter, hpath]
  unfold startContainer
  dsimp only
  rw [hfilter]
  refine ensures_perform_bind fun _ _ ↦ ensures_perform_bind fun _ _ ↦ ensures_perform ?_
  rintro _ ⟨-, hcreated⟩
  exact ⟨rfl, update_self _ _ _, hcreated⟩

theorem containerPhase_leaves (clients : DockerClientForServer) (world : InspectedWorld)
    (hrun : run.deployment = world.host.deployment)
    (hown : OwnsComposePath run.deployment world.host path)
    (hgenerates : run.options.generateArtifacts ≠ some false)
    (hclients : clients.dockerClient = true → clients.sshClient = true) :
    (containerPhase yaml run clients).Ensures (inspectSemantics yaml decodeBase64 docker rows)
      (fun _ after ↦ Leaves yaml decodeBase64 docker rows world.host after run.imageTag path)
      world := by
  refine Ensures.ite (fun _ ↦ ensures_throw _ _ _) fun hdocker ↦ ?_
  have hclient : clients.sshClient = true := hclients (not_not.mp hdocker)
  refine ensures_bind_same (Quiet.when (quiet_perform not_false)) fun _ ↦ ?_
  dsimp only
  refine ensures_bind_same (Quiet.when (quiet_call not_false fun _ ↦ quiet_pure _)) fun _ ↦ ?_
  have hwrites : (decide (run.options.generateArtifacts ≠ some false) && clients.sshClient) =
      true := by simp [hgenerates, hclient]
  rw [if_pos hwrites, hclient]
  refine ensures_bind ((artifactsPhase_leaves run _ world hrun hown).mono ?_)
  rintro composePath prepared ⟨rfl, hprepared⟩
  refine ensures_bind_same (quiet_registryAuth not_hostChange_of_preparingCall _ _) fun auth ↦ ?_
  refine ensures_bind_same (Quiet.when (quiet_perform not_false)) fun _ ↦ ?_
  refine ensures_bind ((startContainer_creates run hown.nonempty prepared).mono ?_)
  rintro _ started ⟨hrows, hcreated, hpresent⟩
  refine ensures_bind_same (quiet_verifyContainer not_hostChange_of_preparingCall run) fun _ ↦ ?_
  refine (ensures_same_of_quiet
    (quiet_captureContainerLogs not_hostChange_of_preparingCall _ _ _) started).mono ?_
  rintro _ after rfl
  have hfiles : after.host.files = prepared.host.files := by rw [hrows]
  rw [hrun] at hcreated hpresent
  refine ⟨⟨prepared.host, hprepared, hrows⟩, ?_, ?_⟩
  · rw [hcreated, hfiles]
  · rw [hcreated]
    exact hpresent

theorem runDeployment_leaves (world : InspectedWorld)
    (hrun : run.deployment = world.host.deployment)
    (hown : OwnsComposePath run.deployment world.host path)
    (hgenerates : run.options.generateArtifacts ≠ some false)
    (hclient : world.host.commandClient = true) :
    (runDeployment yaml run).Ensures (inspectSemantics yaml decodeBase64 docker rows)
      (fun result after ↦ result.deployment.status = .success →
        Leaves yaml decodeBase64 docker rows world.host after run.imageTag path) world := by
  have hfailed : ∀ dockerClient captured message failed,
      (failDeployment run dockerClient captured message).Ensures
        (inspectSemantics yaml decodeBase64 docker rows)
        (fun result after ↦ result.deployment.status = .success →
          Leaves yaml decodeBase64 docker rows world.host after run.imageTag path) failed := by
    intro dockerClient captured message failed
    refine (ensures_host ((quiet_failDeployment _ _ _ _).mono fun _ ↦ False.elim)
      (failDeployment_failed run dockerClient captured message failed.host)).mono ?_
    intro result after hstatus hsuccess
    nomatch hstatus.symm.trans hsuccess
  have hquiet : (createDockerClientForServer run.deployment.server).Quiet HostChange :=
    quiet_createDockerClientForServer not_hostChange_of_preparingCall _
  have hconnect : (connectPhase run).Ensures (inspectSemantics yaml decodeBase64 docker rows)
      (fun clients after ↦ after = world ∧
        (clients.dockerClient = true → clients.sshClient = true)) world := by
    refine ensures_perform_bind fun _ _ ↦ (ensures_same_of_quiet hquiet world).and ?_
    refine (ensures_host (hquiet.mono fun _ ↦ False.elim)
      (createDockerClientForServer_spec _ world.host)).mono fun clients after hclients hdocker ↦ ?_
    exact (hclients.2 hdocker).trans hclient
  refine ensures_resume hconnect ?_ fun message ↦ hfailed _ _ message
  rintro clients after ⟨rfl, hclients⟩
  refine ensures_resume (containerPhase_leaves run clients after hrun hown hgenerates hclients)
    (fun captured deployed hleaves ↦ ?_) fun message ↦ hfailed _ _ message
  refine ensures_tryCatch ?_ fun message ↦ hfailed _ _ message
  refine (ensures_same_of_quiet ((quiet_successPhase run).mono fun _ ↦ Or.inl) deployed).mono ?_
  rintro result final rfl _
  exact hleaves

end

end Bridgeport.Deploy
