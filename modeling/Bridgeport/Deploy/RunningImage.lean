import Bridgeport.Deploy.Host
import Bridgeport.Deploy.Outcome

/-!
# The image of the running container

`DeployedOn` says what a successful deployment has done to its host. The container is created anew
from the image that the compose file on disk names, if a compose path is used over a command client;
without one the container is restarted and keeps its image. The compose file is the generated one,
except that a file of an operator that several deployments share is left as it is.
-/

namespace Bridgeport.Deploy

open Foundation Secrets Orchestration Program Option Bool

/-! ### What is asked for -/

def ServiceDeployment.writtenPath (deployment : ServiceDeployment) : String :=
  orElse deployment.composePath ("/opt/" ++ deployment.service.name ++ "/" ++
    ("docker-compose." ++ deployment.service.name ++ ".yml"))

variable (world : HostWorld) (options : DeployOptions)

namespace HostWorld

def requestedTag : String :=
  orElse options.imageTag world.deployment.service.imageTag

/-- The artifacts are written: they are not switched off, and there is a client that writes them. -/
def writesArtifacts : Bool :=
  decide (options.generateArtifacts ≠ some false) && world.commandClient

/-- The compose file is set by an operator and used by several deployments of the server. -/
def sharesOperatorFile : Bool :=
  world.deployment.composePath.isSome &&
    decide (world.deploymentsOn world.deployment.writtenPath > 1)

/-- The compose path that the container is started with: the one of the deployment, or the generated
one if the environment manages compose files. -/
def usedPath : Option String :=
  match world.deployment.composePath.filter (· ≠ "") with
  | some path => some path
  | none =>
    if world.writesArtifacts options && world.autoManageCompose then
      some world.deployment.writtenPath
    else none

/-- The paths that the config files of the deployment are written to. -/
def targetPaths : List String :=
  (pickedFiles world.artifactSource).map (·.targetPath)

end HostWorld

/-- What a successful deployment has done to its host. -/
structure DeployedOn (yaml : Yaml) (options : DeployOptions) (before after : HostWorld) : Prop where
  imageTag : after.deployment.service.imageTag =
    if before.writesArtifacts options then before.requestedTag options
    else before.deployment.service.imageTag
  present : (after.containers before.deployment.containerName).isSome = true
  restarted : before.usedPath options = none ∨ before.commandClient = false →
    after.containers before.deployment.containerName =
      before.containers before.deployment.containerName
  recreated : ∀ path, before.usedPath options = some path → before.commandClient = true →
    after.containers before.deployment.containerName = some ((after.files path).bind
      fun content ↦ yaml.imageOf content before.deployment.containerName)
  kept : before.writesArtifacts options = false ∨ before.sharesOperatorFile = true →
    ∀ path ∉ before.targetPaths, after.files path = before.files path
  written : before.writesArtifacts options = true → before.sharesOperatorFile = false →
    after.moveFailed = false → before.deployment.writtenPath ∉ before.targetPaths →
    ∃ configFiles : List ConfigArtifact,
      configFiles.map (·.mountPath) = before.targetPaths ∧
      after.files before.deployment.writtenPath = some (composeContent yaml
        { before.artifactSource with imageTag := before.requestedTag options } configFiles)

/-! ### The phases -/

variable {options : DeployOptions} {world : HostWorld} (run : DeployRun) (deployDir : String)

section

variable {yaml : Yaml} {decodeBase64 : Text → Text}

/-- What the artifacts phase has done to the host of a deployment of a tag. -/
structure ArtifactsWritten (yaml : Yaml) (tag : String) (before after : HostWorld) : Prop where
  containers : after.containers = before.containers
  imageTag : after.deployment.service.imageTag = tag
  kept : before.sharesOperatorFile = true →
    ∀ path ∉ before.targetPaths, after.files path = before.files path
  written : before.sharesOperatorFile = false → after.moveFailed = false →
    before.deployment.writtenPath ∉ before.targetPaths →
    ∃ configFiles : List ConfigArtifact,
      configFiles.map (·.mountPath) = before.targetPaths ∧
      after.files before.deployment.writtenPath = some (composeContent yaml
        { before.artifactSource with imageTag := tag } configFiles)

theorem updateImageTag_spec (world : HostWorld) (hrun : run.deployment = world.deployment) :
    (when (run.imageTag ≠ run.deployment.service.imageTag)
      (await (.updateServiceImageTag run.deployment.service.id run.imageTag))).Ensures
        (hostSemantics yaml decodeBase64) (fun _ after ↦ after = world.setImageTag run.imageTag)
        world := by
  refine Ensures.ite (fun _ ↦ ensures_perform fun _ _ ↦ rfl) fun hsame ↦ ensures_pure.mpr ?_
  rw [not_not.mp hsame, hrun]
  rfl

theorem writeUnlessShared_spec (shared : Bool) (composePath : String)
    (artifacts : GeneratedArtifacts) (world : HostWorld) :
    (when (¬ shared) (writeComposeFile run composePath artifacts)).Ensures
      (hostSemantics yaml decodeBase64) (fun _ after ↦ SameButFiles world after ∧
        (shared = true → after.files = world.files) ∧
        (shared = false → after.moveFailed = false →
          after.files composePath = some artifacts.compose.content)) world := by
  refine Ensures.ite (fun hshared ↦ ?_) fun hshared ↦ ensures_pure.mpr ⟨rfl, fun _ ↦ rfl, ?_⟩
  · refine (writeComposeFile_spec run composePath artifacts world).mono fun _ after hafter ↦ ?_
    exact ⟨hafter.1, fun htrue ↦ absurd htrue hshared, fun _ ↦ hafter.2⟩
  · exact fun hfalse ↦ absurd (hfalse ▸ Bool.false_ne_true) hshared

/-- Assumes: the run has read the deployment row, and its directory is the one of the row. -/
theorem artifactsPhase_spec (world : HostWorld) (hrun : run.deployment = world.deployment)
    (hpath : ∀ artifacts : GeneratedArtifacts,
      artifacts.compose.name = "docker-compose." ++ world.deployment.service.name ++ ".yml" →
      composePathFor run deployDir artifacts = world.deployment.writtenPath) :
    (artifactsPhase yaml run deployDir).Ensures (hostSemantics yaml decodeBase64)
      (fun composePath after ↦ ArtifactsWritten yaml run.imageTag world after ∧ composePath =
        if truthy world.deployment.composePath then world.deployment.composePath
        else if world.autoManageCompose then some world.deployment.writtenPath
        else world.deployment.composePath) world := by
  refine ensures_bind ((updateImageTag_spec run world hrun).mono fun _ tagged htagged ↦ ?_)
  rw [htagged]
  refine ensures_bind ((generateDeploymentArtifacts_spec _ _).mono fun artifacts _ hartifacts ↦ ?_)
  obtain ⟨hafter, hcompose, hconfigFiles⟩ := hartifacts
  rw [hafter]
  dsimp only
  rw [hpath artifacts (by rw [hcompose]; rfl)]
  refine ensures_bind ((isSharedOperatorFile_spec run _ _).mono fun shared _ hshared ↦ ?_)
  rw [hshared.1]
  have hshares : shared = world.sharesOperatorFile := by
    rw [hshared.2, hrun]
    rfl
  refine ensures_bind_of_quiet (quiet_composeToValidate not_hostChange_of_preparingCall _ _ _)
    fun content ↦ ?_
  split
  · exact ensures_throw _ _ _
  · refine ensures_bind ((writeUnlessShared_spec run shared _ artifacts _).mono
      fun _ written hwritten ↦ ?_)
    refine ensures_bind ((writeConfigFiles_spec _ _).mono fun _ uploaded huploaded ↦ ?_)
    refine ensures_perform_bind fun _ _ ↦ ?_
    refine (manageComposePath_spec run _ uploaded).mono fun composePath after hmanaged ↦ ?_
    obtain ⟨hafter, hservice, hcomposePath⟩ := hmanaged
    obtain ⟨hrows, hunchanged, hcontent⟩ := hwritten
    have htargets : artifacts.configFiles.map (·.mountPath) = world.targetPaths := hconfigFiles
    rw [htargets] at huploaded
    have hfiles : ∀ path ∉ world.targetPaths, after.files path = written.files path := by
      intro path houtside
      rw [hafter]
      exact huploaded.files path houtside
    refine ⟨⟨?_, ?_, fun htrue path houtside ↦ ?_, fun hfalse hmoved houtside ↦ ?_⟩, ?_⟩
    · rw [hafter, huploaded.rows, hrows]
      rfl
    · rw [hservice, huploaded.rows, hrows]
      rfl
    · rw [hfiles path houtside, hunchanged (hshares.trans htrue)]
      rfl
    · rw [hafter, huploaded.rows] at hmoved
      refine ⟨artifacts.configFiles, htargets, ?_⟩
      rw [hfiles _ houtside, hcontent (hshares.trans hfalse) hmoved, hcompose]
      rfl
    · rw [hcomposePath, huploaded.rows, hrows, hrun]
      rfl

theorem truthy_eq_isSome (text : Option String) : truthy text = (text.filter (· ≠ "")).isSome := by
  rw [isSome_filter]
  rfl

theorem writtenPath_ne {deployment : ServiceDeployment}
    (hunset : deployment.composePath.filter (· ≠ "") = none) : deployment.writtenPath ≠ "" := by
  unfold ServiceDeployment.writtenPath orElse
  rw [hunset]
  simp

theorem filter_managedPath (hwrites : world.writesArtifacts options = true) :
    (if truthy world.deployment.composePath then world.deployment.composePath
      else if world.autoManageCompose then some world.deployment.writtenPath
      else world.deployment.composePath).filter (· ≠ "") = world.usedPath options := by
  unfold HostWorld.usedPath
  rw [hwrites, Bool.true_and, truthy_eq_isSome]
  cases hown : world.deployment.composePath.filter (· ≠ "") with
  | some path => exact hown
  | none =>
    cases world.autoManageCompose with
    | false => exact hown
    | true => exact filter_eq_some_iff.mpr ⟨rfl, decide_eq_true (writtenPath_ne hown)⟩

theorem filter_composePath (hwrites : world.writesArtifacts options = false) :
    world.deployment.composePath.filter (· ≠ "") = world.usedPath options := by
  unfold HostWorld.usedPath
  rw [hwrites, Bool.false_and]
  cases world.deployment.composePath.filter (· ≠ "") with
  | none | some _ => rfl

/-- What has been done to the host before the container is started. -/
structure Prepared (yaml : Yaml) (options : DeployOptions) (before after : HostWorld)
    (composePath : Option String) : Prop where
  usedPath : composePath.filter (· ≠ "") = before.usedPath options
  unwritten : before.writesArtifacts options = false → after = before
  written : before.writesArtifacts options = true →
    ArtifactsWritten yaml (before.requestedTag options) before after

theorem prepare_spec (commandClient : Bool) (world : HostWorld)
    (hrun : run.deployment = world.deployment)
    (htag : run.imageTag = world.requestedTag run.options)
    (hclient : commandClient = world.commandClient) (hpath : ∀ artifacts : GeneratedArtifacts,
      artifacts.compose.name = "docker-compose." ++ world.deployment.service.name ++ ".yml" →
      composePathFor run deployDir artifacts = world.deployment.writtenPath) :
    (if run.options.generateArtifacts ≠ some false && commandClient then
      artifactsPhase yaml run deployDir else pure run.deployment.composePath).Ensures
        (hostSemantics yaml decodeBase64)
        (fun composePath after ↦ Prepared yaml run.options world after composePath) world := by
  have hcondition : (decide (run.options.generateArtifacts ≠ some false) && commandClient) =
      world.writesArtifacts run.options := by
    rw [hclient]
    rfl
  rw [hcondition]
  refine Ensures.ite (fun hwrites ↦ ?_) fun hwrites ↦ ensures_pure.mpr ?_
  · refine (artifactsPhase_spec run deployDir world hrun hpath).mono fun composePath after h ↦ ?_
    rw [htag] at h
    refine ⟨?_, fun hfalse ↦ absurd hwrites (hfalse ▸ Bool.false_ne_true), fun _ ↦ h.1⟩
    rw [h.2]
    exact filter_managedPath hwrites
  · rw [not_eq_true] at hwrites
    rw [hrun]
    exact ⟨filter_composePath hwrites, fun _ ↦ rfl,
      fun htrue ↦ absurd htrue (hwrites ▸ Bool.false_ne_true)⟩

theorem Prepared.deployedOn {before prepared after : HostWorld} {composePath : Option String}
    (hprepared : Prepared yaml options before prepared composePath)
    (hafter : after = { prepared with containers := after.containers })
    (hstarted : after.containers before.deployment.containerName =
      prepared.started yaml before.deployment.containerName composePath before.commandClient)
    (hpresent : (after.containers before.deployment.containerName).isSome = true) :
    DeployedOn yaml options before after := by
  have hcontainers : prepared.containers = before.containers := by
    cases hwrites : before.writesArtifacts options with
    | false => rw [hprepared.unwritten hwrites]
    | true => exact (hprepared.written hwrites).containers
  unfold HostWorld.started at hstarted
  rw [hprepared.usedPath, hcontainers] at hstarted
  refine ⟨?_, hpresent, fun hrestarted ↦ ?_, fun path hpath hclient ↦ ?_, ?_, ?_⟩
  · rw [hafter]
    cases hwrites : before.writesArtifacts options with
    | false => rw [hprepared.unwritten hwrites]; rfl
    | true => exact (hprepared.written hwrites).imageTag
  · rw [hstarted]
    rcases hrestarted with hnone | hnoclient
    · rw [hnone]
    · rw [hnoclient]
      cases before.usedPath options <;> rfl
  · rw [hstarted, hpath, hclient, hafter]
  · intro hkept path houtside
    rw [hafter]
    cases hwrites : before.writesArtifacts options with
    | false => rw [hprepared.unwritten hwrites]
    | true =>
      refine (hprepared.written hwrites).kept (hkept.resolve_left ?_) path houtside
      rw [hwrites]
      exact true_eq_false.mp
  · intro hwrites hshared hmoved houtside
    rw [hafter] at hmoved ⊢
    exact (hprepared.written hwrites).written hshared hmoved houtside

theorem containerPhase_spec (clients : DockerClientForServer) (world : HostWorld)
    (hrun : run.deployment = world.deployment)
    (htag : run.imageTag = world.requestedTag run.options)
    (hclients : clients.dockerClient = true → clients.sshClient = world.commandClient) :
    (containerPhase yaml run clients).Ensures (hostSemantics yaml decodeBase64)
      (fun _ ↦ DeployedOn yaml run.options world) world := by
  refine Ensures.ite (fun _ ↦ ensures_throw _ _ _) fun hdocker ↦ ?_
  have hclient : clients.sshClient = world.commandClient := hclients (not_not.mp hdocker)
  refine ensures_bind_of_quiet (Quiet.when (quiet_perform not_false)) fun _ ↦ ?_
  dsimp only
  refine ensures_bind_of_quiet (Quiet.when (quiet_call not_false fun _ ↦ quiet_pure _)) fun _ ↦ ?_
  refine ensures_bind ((prepare_spec run _ clients.sshClient world hrun htag hclient ?_).mono
    fun composePath prepared hprepared ↦ ?_)
  · intro artifacts hname
    unfold composePathFor ServiceDeployment.writtenPath orElse
    rw [hname, hrun]
    cases world.deployment.composePath.filter (· ≠ "") with
    | none | some _ => rfl
  refine ensures_bind_of_quiet
    (quiet_registryAuth not_hostChange_of_preparingCall _ _) fun socketAuth ↦ ?_
  refine ensures_bind_of_quiet (Quiet.when (quiet_perform not_false)) fun _ ↦ ?_
  refine ensures_bind ((startContainer_spec run composePath clients.sshClient prepared).mono
    fun _ started hstarted ↦ ?_)
  refine ensures_bind ((verifyContainer_spec run started).mono fun _ verified hverified ↦ ?_)
  rw [hverified.1]
  refine (ensures_of_quiet
    (quiet_captureContainerLogs not_hostChange_of_preparingCall _ _ _) started).mono
    fun _ after hafter ↦ ?_
  rw [hafter]
  rw [hrun] at hstarted hverified
  rw [hclient] at hstarted
  exact hprepared.deployedOn hstarted.1 hstarted.2 hverified.2

/-- The `catch` block returns a failure. -/
theorem failDeployment_failed (dockerClient captured : Bool) (message : String) (world : HostWorld) :
    (failDeployment run dockerClient captured message).Ensures (hostSemantics yaml decodeBase64)
      (fun result _ ↦ result.deployment.status = .failed) world := by
  refine ensures_bind_of_quiet
    (quiet_captureContainerLogs not_hostChange_of_preparingCall _ _ _) fun _ ↦ ?_
  refine ensures_bind_of_quiet ((quiet_recordTagDeployment _ _ _ _).mono fun _ ↦ .inl)
    fun historyEntry ↦ ?_
  refine ensures_perform_bind fun failedDeployment hfailed ↦ ?_
  refine ensures_perform_bind fun _ _ ↦ ?_
  exact meets_emit_bind.mpr fun _ _ ↦ ensures_pure.mpr hfailed

theorem runDeployment_deployedOn (world : HostWorld) (hrun : run.deployment = world.deployment)
    (htag : run.imageTag = world.requestedTag run.options) :
    (runDeployment yaml run).Ensures (hostSemantics yaml decodeBase64)
      (fun result after ↦ result.deployment.status = .success →
        DeployedOn yaml run.options world after) world := by
  have hfailed : ∀ dockerClient captured message failed,
      (failDeployment run dockerClient captured message).Ensures (hostSemantics yaml decodeBase64)
        (fun result after ↦ result.deployment.status = .success →
          DeployedOn yaml run.options world after) failed := by
    intro dockerClient captured message failed
    refine (failDeployment_failed run dockerClient captured message failed).mono ?_
    intro result after hstatus hsuccess
    nomatch hstatus.symm.trans hsuccess
  have hconnect : (connectPhase run).Ensures (hostSemantics yaml decodeBase64)
      (fun clients after ↦ after = world ∧
        (clients.dockerClient = true → clients.sshClient = world.commandClient)) world :=
    ensures_perform_bind fun _ _ ↦ createDockerClientForServer_spec _ world
  refine ensures_resume hconnect (fun clients after hclients ↦ ?_) fun message ↦ hfailed _ _ message
  rw [hclients.1]
  refine ensures_resume (containerPhase_spec run clients world hrun htag hclients.2)
    (fun captured after hdeployed ↦ ?_) fun message ↦ hfailed _ _ message
  refine ensures_tryCatch ?_ fun message ↦ hfailed _ _ message
  refine (ensures_of_quiet ((quiet_successPhase run).mono fun _ ↦ .inl) after).mono ?_
  intro result final hfinal _
  rw [hfinal]
  exact hdeployed

theorem deployService_deployedOn (serviceDeploymentId triggeredBy : String)
    (userId : Option String) (options : DeployOptions) (world : HostWorld) :
    (deployService yaml serviceDeploymentId triggeredBy userId options).Ensures
      (hostSemantics yaml decodeBase64) (fun result after ↦ result.deployment.status = .success →
        DeployedOn yaml options world after) world := by
  refine ensures_perform_bind fun deployment hdeployment ↦ ensures_perform_bind fun row _ ↦ ?_
  have hread : deployment = world.deployment := hdeployment
  rw [hread]
  exact runDeployment_deployedOn _ world rfl rfl

end

/-! ### The image of a successful deployment -/

/-- The YAML library reads back the documents that are generated for the deployment of a tag. -/
def Yaml.RoundTrips (yaml : Yaml) (source : ArtifactSource) : Prop :=
  ∀ configFiles, yaml.parse (yaml.stringify (defaultCompose source configFiles)) =
    .ok (defaultCompose source configFiles).parsed

/-- A document generated without a template names the image of the service. -/
theorem imageOf_composeContent {yaml : Yaml} {source : ArtifactSource}
    (hyaml : yaml.RoundTrips source) (htemplate : source.composeTemplate.filter (· ≠ []) = none)
    (configFiles : List ConfigArtifact) :
    yaml.imageOf (composeContent yaml source configFiles) source.containerName =
      some (fullImage source.imageName source.imageTag) := by
  unfold composeContent Yaml.imageOf
  rw [htemplate]
  dsimp only
  rw [hyaml configFiles]
  simp [ComposeConfig.parsed, defaultCompose]

theorem usedPath_eq {path : String} (hpath : world.usedPath options = some path) :
    path = world.deployment.writtenPath := by
  unfold HostWorld.usedPath at hpath
  cases hown : world.deployment.composePath.filter (· ≠ "") with
  | some own =>
    rw [hown] at hpath
    unfold ServiceDeployment.writtenPath orElse
    rw [hown]
    exact (some.inj hpath).symm
  | none =>
    rw [hown] at hpath
    exact (some.inj (ite_none_right_eq_some.mp hpath).2).symm

/-- The container is started with a compose file that has been generated for this deployment. -/
structure UsesGeneratedFile (options : DeployOptions) (before after : HostWorld) : Prop where
  writes : before.writesArtifacts options = true
  exclusive : before.sharesOperatorFile = false
  used : (before.usedPath options).isSome = true
  moved : after.moveFailed = false
  untouched : before.deployment.writtenPath ∉ before.targetPaths
  generated : before.source.composeTemplate.filter (· ≠ []) = none

/-- The container was created from the requested image, and the service has the requested tag. -/
def RunsRequestedImage (options : DeployOptions) (before after : HostWorld) : Prop :=
  after.containers before.deployment.containerName = some (some (fullImage
      before.deployment.service.containerImage.imageName (before.requestedTag options))) ∧
    after.deployment.service.imageTag = before.requestedTag options

theorem DeployedOn.runsRequestedImage {yaml : Yaml} {before after : HostWorld}
    (hdeployed : DeployedOn yaml options before after) (hyaml : yaml.RoundTrips
      { before.artifactSource with imageTag := before.requestedTag options })
    (hfile : UsesGeneratedFile options before after) : RunsRequestedImage options before after := by
  have hclient : before.commandClient = true := (and_eq_true_iff.mp hfile.writes).2
  obtain ⟨path, hpath⟩ := isSome_iff_exists.mp hfile.used
  obtain ⟨configFiles, -, hcontent⟩ :=
    hdeployed.written hfile.writes hfile.exclusive hfile.moved hfile.untouched
  constructor
  · rw [hdeployed.recreated path hpath hclient, usedPath_eq hpath, hcontent, bind_some]
    exact congrArg some (imageOf_composeContent hyaml hfile.generated configFiles)
  · rw [hdeployed.imageTag, if_pos hfile.writes]

/-- What a deployment that returns a success has done to its host; it runs the requested image if
its container is started with a compose file that was generated for it. Assumes: the YAML library
reads back what it prints. -/
theorem deployedOn_of_success {yaml : Yaml} {decodeBase64 : Text → Text}
    {serviceDeploymentId triggeredBy : String} {userId : Option String} {options : DeployOptions}
    {before : HostWorld} {log : Log} {result : DeployResult}
    (htraces : Traces (deployService yaml serviceDeploymentId triggeredBy userId options) log
      (some (.ok result)))
    (hconsistent : (hostSemantics yaml decodeBase64).Consistent before log)
    (hsuccess : result.deployment.status = .success)
    (hyaml : yaml.RoundTrips
      { before.artifactSource with imageTag := before.requestedTag options }) :
    DeployedOn yaml options before ((hostSemantics yaml decodeBase64).final before log) ∧
      (UsesGeneratedFile options before ((hostSemantics yaml decodeBase64).final before log) →
        RunsRequestedImage options before
          ((hostSemantics yaml decodeBase64).final before log)) := by
  have hdeployed := (deployService_deployedOn serviceDeploymentId triggeredBy userId options
    before).sound htraces hconsistent result rfl hsuccess
  exact ⟨hdeployed, hdeployed.runsRequestedImage hyaml⟩

/-! ### A service without a compose path -/

/-- The compose file that is generated for the tag `v2`. -/
def apiComposeFile : Text :=
  ("services:\n  api:\n    image: registry/api:v2\n    container_name: api\n" ++
    "    restart: unless-stopped\n").toList

def apiYaml : Yaml where
  stringify _ := apiComposeFile
  parse text :=
    if text = apiComposeFile then .ok (.services [("api", some "registry/api:v2")])
    else .ok .noServices

variable (autoManageCompose : Bool)

/-- A host that runs the tag `v1` of a service whose deployment has no compose path. -/
def apiHost : HostWorld where
  deployment := restartedDeployment
  source := ⟨"api-web", "api", "production", "api", "v1", "registry/api", none, [], [], [], []⟩
  deploymentsOn _ := 1
  autoManageCompose := autoManageCompose
  commandClient := true
  files _ := none
  containers := Function.update (fun _ ↦ none) "api" (some (some "registry/api:v1"))
  moveFailed := false

def catAnswer : Option Text → CommandResult
  | some content => ⟨0, content, ""⟩
  | none => ⟨1, [], "No such file or directory"⟩

def hostAnswer (world : HostWorld) : (request : Call) → Answer request
  | .findServiceDeployment _ => world.deployment
  | .findArtifactSource _ => world.artifactSource
  | .countServiceDeployments _ composePath => world.deploymentsOn composePath
  | .findAutoManageCompose _ => world.autoManageCompose
  | .createClientForServer _ _ _ => ⟨world.commandClient, none⟩
  | .exec (.cat path) => catAnswer (world.files path)
  | .listContainers => if (world.containers "api").isSome then [⟨"api", .running⟩] else []
  | request => healthyAnswer request

theorem allows_hostAnswer (world : HostWorld) (request : Call) :
    (hostSemantics apiYaml id).allows world ⟨request, .ok (hostAnswer world request)⟩ := by
  cases request with
  | exec command =>
    cases command with
    | cat path =>
      show (catAnswer (world.files path)).code = 0 →
        world.files path = some (catAnswer (world.files path)).stdout
      cases world.files path with
      | some content => exact fun _ ↦ rfl
      | none => exact nofun
    | _ => exact trivial
  | listContainers =>
    show ∀ container ∈ hostAnswer world .listContainers, (world.containers container.name).isSome
    unfold hostAnswer
    split_ifs with hpresent
    · intro container hcontainer
      rw [List.mem_singleton.mp hcontainer]
      exact hpresent
    · exact nofun
  | _ => first | exact trivial | exact rfl

/-- A deployment of the tag `v2`. -/
def apiOptions : DeployOptions :=
  ⟨some "v2", none, none, none⟩

def apiRun : Log × Except String DeployResult :=
  (deployService apiYaml "api-web" "operator" none apiOptions).run (hostSemantics apiYaml id)
    (fun world request ↦ .ok (hostAnswer world request)) (apiHost autoManageCompose)

def apiHostAfter : HostWorld :=
  (hostSemantics apiYaml id).final (apiHost autoManageCompose) (apiRun autoManageCompose).1

theorem success_apiRun :
    ∃ result, (apiRun autoManageCompose).2 = .ok result ∧ result.deployment.status = .success := by
  cases autoManageCompose with
  | false | true => exact ⟨_, rfl, rfl⟩

theorem traces_apiRun : Traces (deployService apiYaml "api-web" "operator" none apiOptions)
        (apiRun autoManageCompose).1 (some (apiRun autoManageCompose).2) ∧
      (hostSemantics apiYaml id).Consistent (apiHost autoManageCompose)
        (apiRun autoManageCompose).1 :=
  run_sound allows_hostAnswer (quiet_deployService _ _ _ _ _).sequential _

/-- The deployment of `v2` returns a success and the container still runs `v1`, if the environment
does not manage compose files. -/
theorem not_runsRequestedImage_restart :
    ∃ result, Traces (deployService apiYaml "api-web" "operator" none apiOptions)
        (apiRun false).1 (some (.ok result)) ∧
      (hostSemantics apiYaml id).Consistent (apiHost false) (apiRun false).1 ∧
      result.deployment.status = .success ∧
      (apiHost false).requestedTag apiOptions = "v2" ∧
      (apiHostAfter false).containers "api" = some (some "registry/api:v1") ∧
      ¬ RunsRequestedImage apiOptions (apiHost false) (apiHostAfter false) := by
  obtain ⟨result, hresult, hsuccess⟩ := success_apiRun false
  obtain ⟨htraces, hconsistent⟩ := traces_apiRun false
  rw [hresult] at htraces
  have hcontainer : (apiHostAfter false).containers "api" = some (some "registry/api:v1") := by
    decide
  refine ⟨result, htraces, hconsistent, hsuccess, rfl, hcontainer, fun hruns ↦ ?_⟩
  have hrequested := hcontainer.symm.trans hruns.1
  revert hrequested
  decide

/-- The container runs `v2` if the environment manages compose files. -/
theorem runsRequestedImage_managed :
    RunsRequestedImage apiOptions (apiHost true) (apiHostAfter true) := by
  obtain ⟨result, hresult, hsuccess⟩ := success_apiRun true
  obtain ⟨htraces, hconsistent⟩ := traces_apiRun true
  rw [hresult] at htraces
  refine (deployedOn_of_success htraces hconsistent hsuccess fun _ ↦ rfl).2 ⟨?_, ?_, ?_, ?_, ?_, ?_⟩
  · decide
  · decide
  · decide
  · decide
  · decide
  · rfl

end Bridgeport.Deploy
