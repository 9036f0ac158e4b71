import Bridgeport.Deploy.Phases

/-!
# The host of a deployment

A `HostWorld` has the rows that a deployment reads and changes, the files of its host, and the
containers of the Docker daemon with the image reference that each was created from. `hostSemantics`
says what the calls of `deployService` do to it: `compose up` recreates a container from the image
that the compose file on disk names for it, and a restart keeps the image of the container.

The specifications below say what each phase of a deployment does to this world.
-/

namespace Bridgeport.Deploy

open Foundation Secrets Orchestration Program List Function

/-- The rows that a deployment reads and changes, and its host. A container has the image reference
that it was created from, if its compose file named one. -/
structure HostWorld where
  deployment : ServiceDeployment
  source : ArtifactSource
  deploymentsOn : String → ℕ
  (autoManageCompose commandClient : Bool)
  files : String → Option Text
  containers : String → Option (Option String)
  moveFailed : Bool

variable (world : HostWorld)

/-- The rows that the artifacts are generated from, with the current image tag. -/
def HostWorld.artifactSource : ArtifactSource :=
  { world.source with
    deploymentId := world.deployment.id
    containerName := world.deployment.containerName
    environmentId := world.deployment.server.environmentId
    serviceName := world.deployment.service.name
    imageTag := world.deployment.service.imageTag
    imageName := world.deployment.service.containerImage.imageName }

def HostWorld.setImageTag (imageTag : String) : HostWorld :=
  { world with
    deployment :=
      { world.deployment with service := { world.deployment.service with imageTag := imageTag } } }

def HostWorld.setComposePath (composePath : String) : HostWorld :=
  { world with deployment := { world.deployment with composePath := some composePath } }

def HostWorld.setFile (path : String) (content : Option Text) : HostWorld :=
  { world with files := Function.update world.files path content }

@[simp]
theorem HostWorld.setFile_self (path : String) (content : Option Text) :
    (world.setFile path content).files path = content :=
  update_self _ _ _

variable {path : String}

theorem HostWorld.setFile_of_ne {other : String} (h : other ≠ path) (content : Option Text) :
    (world.setFile path content).files other = world.files other :=
  update_of_ne h _ _

/-- `docker compose up --force-recreate` of a service. -/
def HostWorld.recreate (yaml : Yaml) (world : HostWorld) (composePath serviceKey : String) :
    HostWorld :=
  let image := (world.files composePath).bind fun content ↦ yaml.imageOf content serviceKey
  { world with containers := Function.update world.containers serviceKey (some image) }

section

variable (yaml : Yaml) (decodeBase64 : Text → Text)

def FileContent.stored : FileContent → Text
  | .utf8 text => text
  | .base64 text => decodeBase64 text

/-- The answers and the effects of the calls of a deployment. What is not named here answers
anything and changes nothing that matters to the container. -/
def hostSemantics : Semantics Answer HostWorld where
  allows world event :=
    match event with
    | ⟨.findServiceDeployment _, .ok deployment⟩ => deployment = world.deployment
    | ⟨.findArtifactSource _, .ok source⟩ => source = world.artifactSource
    | ⟨.countServiceDeployments _ composePath, .ok count⟩ =>
      count = world.deploymentsOn composePath
    | ⟨.findAutoManageCompose _, .ok autoManageCompose⟩ =>
      autoManageCompose = world.autoManageCompose
    | ⟨.createClientForServer _ _ _, .ok answer⟩ => answer.client = world.commandClient
    | ⟨.exec (.cat path), .ok result⟩ => result.code = 0 → world.files path = some result.stdout
    | ⟨.listContainers, .ok containers⟩ =>
      ∀ container ∈ containers, (world.containers container.name).isSome
    | ⟨.updateDeployment _ status _, .ok deployment⟩ => deployment.status = status
    | _ => True
  after world event :=
    match event with
    | ⟨.updateServiceImageTag _ imageTag, .ok _⟩ => world.setImageTag imageTag
    | ⟨.updateComposePath _ composePath, .ok _⟩ => world.setComposePath composePath
    | ⟨.writeFile path content, .ok _⟩ =>
      world.setFile path (some (content.stored decodeBase64))
    | ⟨.exec (.move source target), .ok result⟩ =>
      if result.code = 0 then (world.setFile target (world.files source)).setFile source none
      else { world with moveFailed := true }
    | ⟨.composeUp composePath serviceKey _ _, .ok _⟩ => world.recreate yaml composePath serviceKey
    | _ => world

variable {yaml decodeBase64}

theorem after_of_not_hostChange (world : HostWorld) (event : Event Answer)
    (h : ¬ HostChange event.call) :
    (hostSemantics yaml decodeBase64).after world event = world := by
  obtain ⟨call, answer⟩ := event
  cases call with
  | exec command => cases command <;> first | rfl | exact absurd trivial h
  | _ => first | rfl | exact absurd trivial h

theorem ensures_of_quiet {α : Type} {program : Async α} (hquiet : program.Quiet HostChange)
    (world : HostWorld) :
    program.Ensures (hostSemantics yaml decodeBase64) (fun _ after ↦ after = world) world := by
  have hmeets : program.Meets (hostSemantics yaml decodeBase64) (fun _ after ↦ after = world)
      world := by
    refine meets_of_quiet (fun event before hnot hbefore _ ↦ ?_) hquiet rfl
    rw [after_of_not_hostChange before event hnot, hbefore]
  exact hmeets.ensures

/-- What follows a phase without effects starts in the same world. -/
theorem ensures_bind_of_quiet {α β : Type} {program : Async α} {next : α → Async β}
    {post : β → HostWorld → Prop} {world : HostWorld} (hquiet : program.Quiet HostChange)
    (h : ∀ value, (next value).Ensures (hostSemantics yaml decodeBase64) post world) :
    (program >>= next).Ensures (hostSemantics yaml decodeBase64) post world := by
  refine ensures_bind ((ensures_of_quiet hquiet world).mono fun value after hafter ↦ ?_)
  rw [hafter]
  exact h value

/-! ### Clients and artifacts -/

theorem createDockerClientForServer_spec (server : Server) (world : HostWorld) :
    (createDockerClientForServer server).Ensures (hostSemantics yaml decodeBase64)
      (fun clients after ↦ after = world ∧
        (clients.dockerClient = true → clients.sshClient = world.commandClient)) world := by
  refine ensures_perform_bind fun answer hanswer ↦ ?_
  rw [show answer.client = world.commandClient from hanswer]
  cases server.dockerMode with
  | socket => exact ensures_pure.mpr ⟨rfl, fun _ ↦ rfl⟩
  | ssh =>
    refine Ensures.ite (fun hclient ↦ ?_) fun _ ↦ ensures_pure.mpr ⟨rfl, nofun⟩
    exact ensures_pure.mpr ⟨rfl, fun _ ↦ hclient.symm⟩

section

variable {World : Type*} {sem : Semantics Answer World} (environmentId : String)

theorem configArtifact_spec (file : SourceFile) (world : World) :
    (configArtifact environmentId file).Ensures sem
      (fun artifact _ ↦ artifact.mountPath = file.targetPath) world := by
  refine Ensures.ite (fun _ ↦ ensures_pure.mpr rfl) fun _ ↦ ?_
  refine ensures_perform_bind fun resolution _ ↦ ?_
  exact Ensures.ite (fun _ ↦ ensures_throw _ _ _) fun _ ↦ ensures_pure.mpr rfl

theorem configArtifacts_spec (files : List SourceFile) (world : World) :
    (configArtifacts environmentId files).Ensures sem
      (fun artifacts _ ↦ artifacts.map (·.mountPath) = files.map (·.targetPath)) world := by
  induction files generalizing world with
  | nil => exact ensures_pure.mpr rfl
  | cons file files ih =>
    refine ensures_bind ((configArtifact_spec environmentId file world).mono ?_)
    intro artifact after hartifact
    refine ensures_bind ((ih after).mono fun artifacts final hartifacts ↦ ?_)
    refine ensures_pure.mpr ?_
    rw [map_cons, map_cons, hartifact, hartifacts]

end

/-- The artifacts are generated from the rows, and the config files are those that apply to the
deployment. -/
theorem generateDeploymentArtifacts_spec (serviceDeploymentId : String) (world : HostWorld) :
    (generateDeploymentArtifacts yaml serviceDeploymentId).Ensures (hostSemantics yaml decodeBase64)
      (fun artifacts after ↦ after = world ∧
        artifacts.compose = composeArtifact yaml world.artifactSource artifacts.configFiles ∧
        artifacts.configFiles.map (·.mountPath) =
          (pickedFiles world.artifactSource).map (·.targetPath)) world := by
  refine (ensures_of_quiet (quiet_generateDeploymentArtifacts not_hostChange_of_preparingCall
    yaml serviceDeploymentId) world).and ?_
  refine ensures_perform_bind fun source hsource ↦ ?_
  rw [show source = world.artifactSource from hsource]
  refine ensures_bind ((configArtifacts_spec _ _ _).mono fun configFiles after hconfigFiles ↦ ?_)
  exact ensures_pure.mpr ⟨rfl, hconfigFiles⟩

variable (run : DeployRun) (composePath : String)

theorem isSharedOperatorFile_spec (world : HostWorld) :
    (isSharedOperatorFile run composePath).Ensures (hostSemantics yaml decodeBase64)
      (fun shared after ↦ after = world ∧ shared =
        (run.deployment.composePath.isSome && decide (world.deploymentsOn composePath > 1)))
      world := by
  refine (ensures_of_quiet (quiet_isSharedOperatorFile not_hostChange_of_preparingCall
    run composePath) world).and ?_
  unfold isSharedOperatorFile
  cases run.deployment.composePath with
  | none => exact ensures_pure.mpr rfl
  | some _ =>
    refine ensures_perform_bind fun siblingCount hcount ↦ ensures_pure.mpr ?_
    rw [show siblingCount = world.deploymentsOn composePath from hcount]
    rfl

/-! ### The files that are written -/

/-- The world is the same except for the files. -/
def SameButFiles (before after : HostWorld) : Prop :=
  after = { before with files := after.files, moveFailed := after.moveFailed }

theorem after_move (world : HostWorld) (source target : String) (result : CommandResult) :
    (hostSemantics yaml decodeBase64).after world ⟨.exec (.move source target), .ok result⟩ =
      if result.code = 0 then (world.setFile target (world.files source)).setFile source none
      else { world with moveFailed := true } :=
  rfl

theorem files_after_move (world : HostWorld) {source target : String} (hne : target ≠ source)
    (content : Text) (result : CommandResult) :
    let after := (hostSemantics yaml decodeBase64).after (world.setFile source (some content))
      ⟨.exec (.move source target), .ok result⟩
    SameButFiles world after ∧ (after.moveFailed = false → after.files target = some content) := by
  dsimp only
  rw [after_move]
  split_ifs
  · refine ⟨rfl, fun _ ↦ ?_⟩
    rw [HostWorld.setFile_of_ne _ hne, HostWorld.setFile_self, HostWorld.setFile_self]
  · exact ⟨rfl, nofun⟩

theorem writeComposeFile_spec (artifacts : GeneratedArtifacts) (world : HostWorld) :
    (writeComposeFile run composePath artifacts).Ensures (hostSemantics yaml decodeBase64)
      (fun _ after ↦ SameButFiles world after ∧ (after.moveFailed = false →
        after.files composePath = some artifacts.compose.content)) world := by
  have htmp : composePath ≠ composePath ++ ".tmp." ++ run.deploymentId := by
    intro hsame
    have hlength := congrArg String.length hsame
    rw [String.length_append, String.length_append] at hlength
    have hsuffix : ".tmp.".length = 5 := rfl
    omega
  refine ensures_perform_bind fun _ _ ↦ ensures_perform_bind fun result _ ↦ ensures_pure.mpr ?_
  exact files_after_move world htmp artifacts.compose.content result

/-- Only the files at some paths have changed. -/
structure SameOutside (paths : List String) (before after : HostWorld) : Prop where
  rows : after = { before with files := after.files }
  files : ∀ path ∉ paths, after.files path = before.files path

theorem SameOutside.cons {paths : List String} {first second third : HostWorld}
    (hfirst : SameOutside [path] first second) (hsecond : SameOutside paths second third) :
    SameOutside (path :: paths) first third := by
  refine ⟨?_, fun other hother ↦ ?_⟩
  · rw [hsecond.rows, hfirst.rows]
  · rw [mem_cons, not_or] at hother
    rw [hsecond.files other hother.2, hfirst.files other (mem_singleton.not.mpr hother.1)]

theorem writeConfigFile_spec (file : ConfigArtifact) (world : HostWorld) :
    (writeConfigFile file).Ensures (hostSemantics yaml decodeBase64)
      (fun _ ↦ SameOutside [file.mountPath] world) world := by
  refine ensures_perform_bind fun _ _ ↦ ensures_perform_bind fun _ _ ↦ ?_
  refine (ensures_of_quiet (Quiet.when ?_) _).mono fun _ after hafter ↦ ?_
  · exact quiet_call not_false fun _ ↦ quiet_pure _
  · rw [hafter]
    exact ⟨rfl, fun path hpath ↦ world.setFile_of_ne (mem_singleton.not.mp hpath) _⟩

theorem writeConfigFiles_spec (files : List ConfigArtifact) (world : HostWorld) :
    (writeConfigFiles files).Ensures (hostSemantics yaml decodeBase64)
      (fun _ ↦ SameOutside (files.map (·.mountPath)) world) world := by
  induction files generalizing world with
  | nil => exact ensures_pure.mpr ⟨rfl, fun _ _ ↦ rfl⟩
  | cons file files ih =>
    refine ensures_bind ((writeConfigFile_spec file world).mono fun _ after hfirst ↦ ?_)
    exact (ih after).mono fun _ _ hrest ↦ hfirst.cons hrest

theorem manageComposePath_spec (world : HostWorld) :
    (manageComposePath run composePath).Ensures (hostSemantics yaml decodeBase64)
      (fun managed after ↦
        after = { world with deployment := after.deployment } ∧
        after.deployment.service = world.deployment.service ∧
        managed = if truthy run.deployment.composePath then run.deployment.composePath
          else if world.autoManageCompose then some composePath
          else run.deployment.composePath) world := by
  refine Ensures.ite (fun htruthy ↦ ?_) fun hfalsy ↦ ?_
  · rw [if_pos htruthy]
    exact ensures_pure.mpr ⟨rfl, rfl, rfl⟩
  · rw [if_neg hfalsy]
    refine ensures_perform_bind fun autoManageCompose hauto ↦ ?_
    have hmanages : autoManageCompose = world.autoManageCompose := hauto
    refine Ensures.ite (fun hmanaged ↦ ?_) fun hunmanaged ↦ ?_
    · rw [if_pos (hmanages ▸ hmanaged)]
      refine ensures_perform_bind fun _ _ ↦ ensures_perform_bind fun _ _ ↦ ?_
      exact ensures_pure.mpr ⟨rfl, rfl, rfl⟩
    · rw [if_neg (hmanages ▸ hunmanaged)]
      exact ensures_pure.mpr ⟨rfl, rfl, rfl⟩

/-- The image of a container after `docker compose up` on a compose path over a command client, or a
restart. -/
def HostWorld.started (yaml : Yaml) (world : HostWorld) (containerName : String)
    (composePath : Option String) (commandClient : Bool) : Option (Option String) :=
  match composePath.filter (· ≠ ""), commandClient with
  | some path, true =>
    some ((world.files path).bind fun content ↦ yaml.imageOf content containerName)
  | _, _ => world.containers containerName

theorem startContainer_spec (composePath : Option String) (dockerSSH : Bool) (world : HostWorld) :
    (startContainer run composePath dockerSSH).Ensures (hostSemantics yaml decodeBase64)
      (fun _ after ↦ after = { world with containers := after.containers } ∧
        after.containers run.deployment.containerName =
          world.started yaml run.deployment.containerName composePath dockerSSH) world := by
  unfold startContainer HostWorld.started
  dsimp only
  generalize composePath.filter (· ≠ "") = usedPath
  have hrestart : (await (.restartContainer run.deployment.containerName)).Ensures
      (hostSemantics yaml decodeBase64) (fun _ after ↦ after = world) world :=
    ensures_perform fun _ _ ↦ rfl
  cases usedPath with
  | none => exact hrestart.mono fun _ after hafter ↦ hafter ▸ ⟨rfl, rfl⟩
  | some path =>
    cases dockerSSH with
    | false => exact hrestart.mono fun _ after hafter ↦ hafter ▸ ⟨rfl, rfl⟩
    | true =>
      refine ensures_perform_bind fun _ _ ↦ ensures_perform_bind fun _ _ ↦ ?_
      exact ensures_perform fun _ _ ↦ ⟨rfl, update_self _ _ _⟩

theorem verifyContainer_spec (world : HostWorld) :
    (verifyContainer run).Ensures (hostSemantics yaml decodeBase64)
      (fun _ after ↦ after = world ∧
        (world.containers run.deployment.containerName).isSome = true) world := by
  refine (ensures_of_quiet (quiet_verifyContainer not_hostChange_of_preparingCall run) world).and ?_
  refine ensures_perform_bind fun containers hcontainers ↦ ?_
  split
  · next container hfound =>
    have hlisted := hcontainers _ (mem_of_find?_eq_some hfound)
    have hname : container = run.deployment.containerName := by
      simpa using List.find?_some hfound
    rw [← hname]
    exact ensures_pure.mpr hlisted
  · exact ensures_throw _ _ _

end

end Bridgeport.Deploy
