import Bridgeport.Deploy.Artifacts
import Bridgeport.Foundation.ProgramLogic
import Bridgeport.Orchestration.DeploymentPlan

/-!
# Deploying a service

`deployService` deploys one service deployment: it creates a deployment row, writes the artifacts on
the host, pulls the image, runs `docker compose up` or restarts the container, checks that the
container is running and records the outcome.

The `try` block of the source is split where it assigns a variable that the `catch` block reads: the
clients, and whether the container logs have been captured. `failDeployment` is the `catch` block.
-/

namespace Bridgeport.Deploy

/-! ### The calls of deployments and plans -/

section

open Foundation Secrets Orchestration

/-- `DOCKER_MODE`. -/
inductive DockerMode
  | ssh
  | socket

structure Server where
  (id name hostname : String)
  dockerMode : DockerMode
  (serverType environmentId : String)

structure ContainerImage where
  (id imageName : String)
  registryConnectionId : Option String

structure Service where
  (id name imageTag : String)
  containerImage : ContainerImage

structure ServiceDeployment where
  (id containerName : String)
  composePath : Option String
  server : Server
  service : Service

/-- `DEPLOYMENT_STATUS`. -/
inductive DeploymentStatus
  | pending
  | deploying
  | success
  | failed
  deriving DecidableEq

/-- The data of a new deployment row. -/
structure DeploymentData where
  imageTag : String
  previousTag : Option String
  status : DeploymentStatus
  (triggeredBy serviceId serviceDeploymentId : String)
  userId : Option String

structure Deployment extends DeploymentData where
  id : String
  containerImageHistoryId : Option String

/-- `HISTORY_STATUS`. -/
inductive HistoryStatus
  | success
  | failed
  | rolledBack
  deriving DecidableEq

structure HistoryData where
  (containerImageId tag : String)
  (digest deployedBy : Option String)
  status : HistoryStatus
  imageDigestId : Option String

structure ContainerImageHistory extends HistoryData where
  id : String

/-- An image digest row; `tags` is decoded. -/
structure ImageDigest where
  (id manifestDigest : String)
  tags : List String

/-! ### Hosts -/

/-- The answer of `createClientForServer`: whether there is a client, and the error. -/
structure ClientForServer where
  client : Bool
  error : Option String

inductive HostCommand
  | mkdir (directory : String)
  | cat (path : String)
  | move (source target : String)
  | chmod (path : String)

structure CommandResult where
  code : ℤ
  stdout : Text
  stderr : String

inductive FileContent
  | utf8 (text : Text)
  | base64 (text : Text)

/-- `CONTAINER_STATUS`, as far as the deployment reads it. -/
inductive ContainerState
  | running
  | other (state : String)

structure ContainerInfo where
  name : String
  state : ContainerState

/-- The answer of `ensureRegistryLogin`. -/
structure RegistryLogin where
  loggedIn : Bool
  registryHost : Option String

/-- `NOTIFICATION_TYPES`, as far as deployments send them. -/
inductive NotificationType
  | deploymentSuccess
  | deploymentFailed

inductive WebhookEvent
  | deploymentCompleted
  | deploymentFailed
  | planCompleted
  | planFailed
  | planRolledBack

/-- The data of a notification or a webhook event. -/
structure EventPayload where
  deploymentId : Option String := none
  planId : Option String := none
  planName : Option String := none
  status : Option PlanStatus := none
  serviceId : Option String := none
  serviceName : Option String := none
  serverName : Option String := none
  imageName : Option String := none
  imageTag : Option String := none
  imageTags : List String := []
  error : Option String := none
  rollback : Bool := false

/-- A step row with its error and what the queries include: its service, and its service deployment
with the server and the service. -/
structure StepWithDeployment extends DeploymentPlanStep where
  error : Option String
  service : Option Service
  serviceDeployment : Option ServiceDeployment

structure PlanRow where
  (id name : String)
  status : PlanStatus
  triggeredBy : String
  (autoRollback parallelExecution : Bool)
  environmentId : String
  userId : Option String

/-- A plan row with what the queries include. -/
structure PlanWithSteps extends PlanRow where
  steps : List StepWithDeployment
  containerImage : Option ContainerImage

structure HealthReport where
  healthy : Bool
  attempts : ℕ

inductive Call
  -- service deployments and services
  | findServiceDeployment (id : String)
  | countServiceDeployments (serverId composePath : String)
  | updateComposePath (id composePath : String)
  | markServiceDeploymentRunning (id : String)
  | updateServiceImageTag (serviceId imageTag : String)
  | findAutoManageCompose (environmentId : String)
  -- deployment rows
  | createDeployment (data : DeploymentData)
  | updateDeployment (id : String) (status : DeploymentStatus) (historyId : Option String)
  -- artifacts
  | findArtifactSource (serviceDeploymentId : String)
  | resolveSecretPlaceholders (environmentId : String) (content : Text)
  | saveDeploymentArtifacts (deploymentId : String) (artifacts : GeneratedArtifacts)
  | logAudit (action resourceId : String) (environmentId : String)
  -- images
  | findRecentDigests (containerImageId : String)
  | findImageDigest (id : String)
  | updateContainerImage (id : String) (deployedDigestId : Option String)
  | updateImageDigests (containerImageId imageDigestId : String)
  | createContainerImageHistory (data : HistoryData)
  | getSocketAuthConfig (registryConnectionId : String)
  | ensureRegistryLogin (serverId registryConnectionId : String)
  -- the host
  | createClientForServer (hostname environmentId serverType : String)
  | connect
  | exec (command : HostCommand)
  | writeFile (path : String) (content : FileContent)
  | getSystemSettings
  | getContainerLogs (containerName : String) (tail : ℕ)
  | pullImage (image : String) (auth : Option String)
  | composePull (composePath serviceKey : String)
  | composeUp (composePath serviceKey : String) (forceRecreate noDeps : Bool)
  | restartContainer (containerName : String)
  | listContainers
  -- notifications
  | sendSystemNotification (type : NotificationType) (environmentId : String)
      (payload : EventPayload)
  | emitWebhookEvent (event : WebhookEvent) (environmentId : String) (payload : EventPayload)
  -- plans
  | findPlan (id : String)
  | findStep (id : String)
  | updatePlan (id : String) (status : PlanStatus) (error : Option String)
  | updateStep (id : String) (status : StepStatus) (error : Option String)
  | skipPendingSteps (planId : String)
  | verifyServiceHealth (serviceDeploymentId : String)

@[reducible]
def Answer : Call → Type
  | .findServiceDeployment _ => ServiceDeployment
  | .countServiceDeployments _ _ => ℕ
  | .findAutoManageCompose _ => Bool
  | .createDeployment _ => Deployment
  | .updateDeployment _ _ _ => Deployment
  | .findArtifactSource _ => ArtifactSource
  | .resolveSecretPlaceholders _ _ => Resolution
  | .findRecentDigests _ => List ImageDigest
  | .findImageDigest _ => Option ImageDigest
  | .createContainerImageHistory _ => ContainerImageHistory
  | .getSocketAuthConfig _ => Option String
  | .ensureRegistryLogin _ _ => RegistryLogin
  | .createClientForServer _ _ _ => ClientForServer
  | .exec _ => CommandResult
  | .getSystemSettings => ℕ
  | .getContainerLogs _ _ => String
  | .listContainers => List ContainerInfo
  | .findPlan _ => PlanWithSteps
  | .findStep _ => StepWithDeployment
  | .verifyServiceHealth _ => HealthReport
  | _ => Unit

abbrev Async (α : Type) : Type 1 :=
  Program Answer α

abbrev await (request : Call) : Async (Answer request) :=
  Program.perform request

abbrev Log := List (Event Answer)

end

open Foundation Secrets Orchestration Program

/-- `DeployOptions`; a `previousTagOverride` may be present and `null`. -/
structure DeployOptions where
  imageTag : Option String
  (generateArtifacts pullImage : Option Bool)
  previousTagOverride : Option (Option String)

structure DeployResult where
  deployment : Deployment
  previousTag : Option String

/-- `a || b` on strings. -/
def orElse (text : Option String) (default : String) : String :=
  (text.filter (· ≠ "")).getD default

/-- What a run of `deployService` has looked up and created before its `try` block. -/
structure DeployRun where
  deployment : ServiceDeployment
  options : DeployOptions
  triggeredBy : String
  userId : Option String
  imageTag : String
  previousTag : Option String
  deploymentId : String

/-- The directory of a path, `path.dirname`, for a path with a directory part. -/
def dirname (path : String) : String :=
  "/".intercalate ((path.splitOn "/").dropLast)

/-- The answer of `createDockerClientForServer`: which clients there are. -/
structure DockerClientForServer where
  (dockerClient sshClient : Bool)
  error : Option String
  needsConnect : Bool

def createDockerClientForServer (server : Server) : Async DockerClientForServer := do
  let answer : ClientForServer ← await
    (.createClientForServer server.hostname server.environmentId server.serverType)
  match server.dockerMode with
  | .socket => pure ⟨true, answer.client, answer.error, answer.client && answer.error.isNone⟩
  | .ssh =>
    if answer.client then pure ⟨true, true, none, true⟩
    else pure ⟨false, false, some (orElse answer.error "Failed to create SSH client"), false⟩

variable (run : DeployRun)

/-- `captureContainerLogs`: whether the logs have been captured. -/
def captureContainerLogs (dockerClient captured : Bool) : Async Bool :=
  if ¬ dockerClient then pure captured
  else if captured then pure captured
  else
    tryCatch (do
      let tail : ℕ ← await .getSystemSettings
      let _ ← await (.getContainerLogs run.deployment.containerName tail)
      pure true)
      fun _ ↦ pure false

/-! ### Artifacts -/

def configArtifact (environmentId : String) (file : SourceFile) : Async ConfigArtifact := do
  if file.configFile.isBinary then
    pure ⟨file.configFile.filename, file.configFile.content, file.targetPath, true⟩
  else
    let composedSource := ConfigSync.composeFragmentedContent file.configFile.includedFragments
      file.configFile.content file.configFile.language
    let resolution : Resolution ← await (.resolveSecretPlaceholders environmentId composedSource)
    if resolution.templateErrors.length > 0 then
      throw ("Config file \"" ++ file.configFile.filename ++ "\" has template errors: " ++
        "; ".intercalate resolution.templateErrors)
    else
      pure ⟨file.configFile.filename, ConfigSync.trimEnd resolution.content, file.targetPath, false⟩

def configArtifacts (environmentId : String) : List SourceFile → Async (List ConfigArtifact)
  | [] => pure []
  | file :: files => do
    let artifact ← configArtifact environmentId file
    let artifacts ← configArtifacts environmentId files
    pure (artifact :: artifacts)

variable (yaml : Yaml)

def generateDeploymentArtifacts (serviceDeploymentId : String) : Async GeneratedArtifacts := do
  let source : ArtifactSource ← await (.findArtifactSource serviceDeploymentId)
  let configFiles ← configArtifacts source.environmentId (pickedFiles source)
  pure ⟨composeArtifact yaml source configFiles, configFiles⟩

def writeConfigFile (file : ConfigArtifact) : Async Unit := do
  let _ ← await (.exec (.mkdir (dirname file.mountPath)))
  await (.writeFile file.mountPath
    (if file.isBinary then .base64 file.content else .utf8 file.content))
  when (file.name.endsWith ".env") do
    let _ ← await (.exec (.chmod file.mountPath))
    pure ()

/-- The loop over the config files to upload. -/
def writeConfigFiles : List ConfigArtifact → Async Unit
  | [] => pure ()
  | file :: files => do
    writeConfigFile file
    writeConfigFiles files

/-- The compose file of the deployment, as it is set or as it would be generated. -/
def composePathFor (deployDir : String) (artifacts : GeneratedArtifacts) : String :=
  orElse run.deployment.composePath (deployDir ++ "/" ++ artifacts.compose.name)

variable (composePath : String)

/-- The compose file is set by an operator and used by several deployments of the server. -/
def isSharedOperatorFile : Async Bool :=
  match run.deployment.composePath with
  | none => pure false
  | some _ => do
    let siblingCount : ℕ ←
      await (.countServiceDeployments run.deployment.server.id composePath)
    pure (siblingCount > 1)

def composeToValidate (sharedOperatorFile : Bool) (composePath : String)
    (artifacts : GeneratedArtifacts) : Async Text :=
  if sharedOperatorFile then do
    let existing : CommandResult ← await (.exec (.cat composePath))
    if existing.code ≠ 0 then
      throw ("Failed to read shared compose file at " ++ composePath ++ ": " ++
        orElse (some existing.stderr.trimAscii.toString) "file not found")
    else pure existing.stdout
  else pure artifacts.compose.content

/-- The upload of the compose file, through a temporary file of the deployment. -/
def writeComposeFile (artifacts : GeneratedArtifacts) : Async Unit := do
  let composeTmp := composePath ++ ".tmp." ++ run.deploymentId
  await (.writeFile composeTmp (.utf8 artifacts.compose.content))
  let _ ← await (.exec (.move composeTmp composePath))
  pure ()

/-- The compose path after the artifacts have been written: a deployment without one is given the
generated one if the environment manages compose files. -/
def manageComposePath : Async (Option String) :=
  if truthy run.deployment.composePath then pure run.deployment.composePath
  else do
    let environmentId := run.deployment.server.environmentId
    let autoManageCompose : Bool ← await (.findAutoManageCompose environmentId)
    if autoManageCompose then
      await (.updateComposePath run.deployment.id composePath)
      await (.logAudit "service_deployment_compose_path_set" run.deployment.id environmentId)
      pure (some composePath)
    else pure run.deployment.composePath

/-- The compose file and the config files are written. -/
def artifactsPhase (run : DeployRun) (deployDir : String) : Async (Option String) := do
  when (run.imageTag ≠ run.deployment.service.imageTag)
    (await (.updateServiceImageTag run.deployment.service.id run.imageTag))
  let artifacts ← generateDeploymentArtifacts yaml run.deployment.id
  let composePath := composePathFor run deployDir artifacts
  let sharedOperatorFile ← isSharedOperatorFile run composePath
  let content ← composeToValidate sharedOperatorFile composePath artifacts
  match validateGeneratedCompose yaml content run.deployment.containerName with
  | some message => throw message
  | none =>
    when (¬ sharedOperatorFile) (writeComposeFile run composePath artifacts)
    writeConfigFiles artifacts.configFiles
    await (.saveDeploymentArtifacts run.deploymentId artifacts)
    manageComposePath run composePath

def registryAuth (dockerSSH : Bool) : Async (Option String) :=
  match run.deployment.service.containerImage.registryConnectionId.filter (· ≠ "") with
  | none => pure none
  | some registryConnectionId =>
    if dockerSSH then do
      let _ ← await (.ensureRegistryLogin run.deployment.server.id registryConnectionId)
      pure none
    else await (.getSocketAuthConfig registryConnectionId)

/-- `docker compose pull` and `up` on a compose file, or a restart of the container. -/
def startContainer (composePath : Option String) (dockerSSH : Bool) : Async Unit :=
  let containerName := run.deployment.containerName
  match composePath.filter (· ≠ ""), dockerSSH with
  | some composePath, true => do
    let deploymentsOnComposeFile : ℕ ←
      await (.countServiceDeployments run.deployment.server.id composePath)
    let sharedCompose := deploymentsOnComposeFile > 1
    await (.composePull composePath containerName)
    await (.composeUp composePath containerName true sharedCompose)
  | _, _ => await (.restartContainer containerName)

def verifyContainer : Async Unit := do
  let containerName := run.deployment.containerName
  let containers : List ContainerInfo ← await .listContainers
  match containers.find? (·.name = containerName) with
  | some ⟨_, .running⟩ => pure ()
  | _ => throw ("Container " ++ containerName ++ " is not running after deploy")

/-- The `try` block from the clients to the captured container logs. -/
def containerPhase (run : DeployRun) (clients : DockerClientForServer) : Async Bool := do
  if ¬ clients.dockerClient then
    throw (orElse clients.error "Failed to create Docker client")
  else
    when (clients.needsConnect && clients.sshClient) (await .connect)
    let deployDir := match run.deployment.composePath.filter (· ≠ "") with
      | some composePath => dirname composePath
      | none => "/opt/" ++ run.deployment.service.name
    when clients.sshClient do
      let _ ← await (.exec (.mkdir deployDir))
      pure ()
    let composePath ← (if run.options.generateArtifacts ≠ some false && clients.sshClient then
      artifactsPhase yaml run deployDir else pure run.deployment.composePath)
    let socketAuth ← registryAuth run clients.sshClient
    when (run.options.pullImage ≠ some false)
      (await (.pullImage (fullImage run.deployment.service.containerImage.imageName run.imageTag)
        socketAuth))
    startContainer run composePath clients.sshClient
    verifyContainer run
    captureContainerLogs run true false

/-! ### The outcome -/

def digestOfTag (digests : List ImageDigest) (tag : String) : Option ImageDigest :=
  digests.find? fun digest ↦ tag ∈ digest.tags

def linkDigest (containerImageId : String) (found : Option ImageDigest) : Async Unit :=
  match found with
  | some digest => await (.updateImageDigests containerImageId digest.id)
  | none => pure ()

/-- `recordTagDeployment` without a digest. -/
def recordTagDeployment (containerImageId tag deployedBy : String) (status : HistoryStatus) :
    Async ContainerImageHistory := do
  if status = .success then
    let recentDigests : List ImageDigest ← await (.findRecentDigests containerImageId)
    let found := digestOfTag recentDigests tag
    await (.updateContainerImage containerImageId (found.map (·.id)))
    linkDigest containerImageId found
    await (.createContainerImageHistory ⟨containerImageId, tag, found.map (·.manifestDigest),
      some deployedBy, status, found.map (·.id)⟩)
  else
    await (.createContainerImageHistory ⟨containerImageId, tag, none, some deployedBy, status,
      none⟩)

def DeployRun.payload : EventPayload :=
  { serviceId := some run.deployment.service.id
    serviceName := some run.deployment.service.name
    serverName := some run.deployment.server.name
    imageName := some run.deployment.service.containerImage.imageName
    imageTag := some run.imageTag }

def imageTagsOf (historyEntry : ContainerImageHistory) : Async (List String) :=
  match historyEntry.imageDigestId.filter (· ≠ "") with
  | some imageDigestId => do
    let digest : Option ImageDigest ← await (.findImageDigest imageDigestId)
    pure ((digest.map (·.tags)).getD [])
  | none => pure []

/-- The `try` block after the captured container logs. -/
def successPhase : Async DeployResult := do
  let service := run.deployment.service
  let environmentId := run.deployment.server.environmentId
  await (.markServiceDeploymentRunning run.deployment.id)
  let historyEntry ←
    recordTagDeployment service.containerImage.id run.imageTag run.triggeredBy .success
  let finalDeployment : Deployment ←
    await (.updateDeployment run.deploymentId .success (some historyEntry.id))
  let imageTags ← imageTagsOf historyEntry
  await (.sendSystemNotification .deploymentSuccess environmentId
    { run.payload with imageTags := imageTags })
  emit (.emitWebhookEvent .deploymentCompleted environmentId
    { run.payload with deploymentId := some finalDeployment.id })
  pure ⟨finalDeployment, run.previousTag⟩

/-- The `catch` block. -/
def failDeployment (dockerClient captured : Bool) (errorMessage : String) : Async DeployResult := do
  let service := run.deployment.service
  let environmentId := run.deployment.server.environmentId
  let _ ← captureContainerLogs run dockerClient captured
  let historyEntry ←
    recordTagDeployment service.containerImage.id run.imageTag run.triggeredBy .failed
  let failedDeployment : Deployment ←
    await (.updateDeployment run.deploymentId .failed (some historyEntry.id))
  await (.sendSystemNotification .deploymentFailed environmentId
    { run.payload with error := some errorMessage })
  emit (.emitWebhookEvent .deploymentFailed environmentId
    { run.payload with
      deploymentId := some failedDeployment.id
      error := some errorMessage })
  pure ⟨failedDeployment, run.previousTag⟩

/-- The `try` block up to the clients. -/
def connectPhase : Async DockerClientForServer := do
  let _ ← await (.updateDeployment run.deploymentId .deploying none)
  createDockerClientForServer run.deployment.server

/-- The `try` block and the `catch` block. -/
def runDeployment (run : DeployRun) : Async DeployResult :=
  (connectPhase run).resume fun
    | .error message => failDeployment run false false message
    | .ok clients => (containerPhase yaml run clients).resume fun
      | .error message => failDeployment run clients.dockerClient false message
      | .ok captured =>
        (successPhase run).tryCatch (failDeployment run clients.dockerClient captured)

def deployService (serviceDeploymentId triggeredBy : String) (userId : Option String)
    (options : DeployOptions) : Async DeployResult := do
  let deployment : ServiceDeployment ← await (.findServiceDeployment serviceDeploymentId)
  let service := deployment.service
  let imageTag := orElse options.imageTag service.imageTag
  let previousTag := options.previousTagOverride.getD (some service.imageTag)
  let deploymentRow : Deployment ← await (.createDeployment
    { imageTag := imageTag
      previousTag := previousTag
      status := .pending
      triggeredBy := triggeredBy
      serviceId := service.id
      serviceDeploymentId := serviceDeploymentId
      userId := userId })
  runDeployment yaml ⟨deployment, options, triggeredBy, userId, imageTag, previousTag,
    deploymentRow.id⟩

end Bridgeport.Deploy
