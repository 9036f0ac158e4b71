import Bridgeport.Docker.Inspect
import Bridgeport.Foundation.Tables

/-!
# Discovery

`discoverContainers` of a server: every listed container is inspected and recorded, and the
deployments whose container is not listed are marked as missing. A call that throws leaves what has
been written before.

The test of a registry's pattern is a parameter, which is `none` for a pattern that is not a regular
expression. The update check, which nobody waits for, is left out.
-/

namespace Bridgeport.Discovery

/-! ### The inventory of an installation -/

section

open Foundation Secrets Docker

/-- A row of `RegistryConnection`. -/
structure Registry where
  id : String
  (name type registryUrl : Text)
  autoLinkPattern : Option Text
  environmentId : String
  deriving DecidableEq

/-- A row of `ContainerImage`. -/
structure ContainerImage where
  id : String
  (name imageName tagFilter : Text)
  environmentId : String
  registryConnectionId : Option String
  deriving DecidableEq

/-- A row of `Service`. -/
structure Service where
  id : String
  (name imageTag : Text)
  (environmentId containerImageId : String)
  deriving DecidableEq

/-- A row of `Server`. -/
structure Server where
  id : String
  name : Text
  environmentId : String
  deriving DecidableEq

/-- `DISCOVERY_STATUS`. -/
inductive DiscoveryStatus
  | found
  | missing
  | pending
  deriving DecidableEq

/-- A row of `ServiceDeployment`. -/
structure ServiceDeployment where
  (id serviceId serverId : String)
  (containerName status containerStatus healthStatus : Text)
  exposedPorts : Option (List Port)
  discoveryStatus : DiscoveryStatus
  deriving DecidableEq

instance : Keyed Registry := ⟨Registry.id⟩
instance : Keyed ContainerImage := ⟨ContainerImage.id⟩
instance : Keyed Service := ⟨Service.id⟩
instance : Keyed Server := ⟨Server.id⟩
instance : Keyed ServiceDeployment := ⟨ServiceDeployment.id⟩

/-! ### Unique keys -/

/-- `environmentId_name` of a registry connection. -/
def Registry.environmentName (registry : Registry) : String × Text :=
  (registry.environmentId, registry.name)

/-- `environmentId_imageName` of an image. -/
def ContainerImage.environmentImage (image : ContainerImage) : String × Text :=
  (image.environmentId, image.imageName)

/-- `environmentId_name` of a service. -/
def Service.environmentName (service : Service) : String × Text :=
  (service.environmentId, service.name)

variable (deployment : ServiceDeployment)

/-- `serviceId_serverId` of a deployment. -/
def ServiceDeployment.serviceServer : String × String :=
  (deployment.serviceId, deployment.serverId)

/-- `serverId_containerName` of a deployment. -/
def ServiceDeployment.serverContainer : String × Text :=
  (deployment.serverId, deployment.containerName)

structure Inventory where
  registries : Table Registry
  images : Table ContainerImage
  services : Table Service
  servers : Table Server
  deployments : Table ServiceDeployment

/-- The unique constraints of the schema, and the references that may not dangle. -/
structure Inventory.Constrained (inventory : Inventory) : Prop where
  registries : inventory.registries.Unique Registry.environmentName
  images : inventory.images.Unique ContainerImage.environmentImage
  services : inventory.services.Unique Service.environmentName
  serviceServers : inventory.deployments.Unique ServiceDeployment.serviceServer
  serverContainers : inventory.deployments.Unique ServiceDeployment.serverContainer
  serviceImages : ∀ service ∈ inventory.services.rows,
    (inventory.images.find? service.containerImageId).isSome
  deploymentServices : ∀ deployment ∈ inventory.deployments.rows,
    (inventory.services.find? deployment.serviceId).isSome

variable (inventory : Inventory)

def Inventory.deploymentOf (serverId : String) (containerName : Text) : Option ServiceDeployment :=
  inventory.deployments.findBy? ServiceDeployment.serverContainer (serverId, containerName)

/-- `environmentId_name` looks a service up. -/
def Inventory.serviceNamed (environmentId : String) (name : Text) : Option Service :=
  inventory.services.findBy? Service.environmentName (environmentId, name)

/-- `findContainerImageByImageName`. -/
def Inventory.imageNamed (environmentId : String) (imageName : Text) : Option ContainerImage :=
  inventory.images.findBy? ContainerImage.environmentImage (environmentId, imageName)

end

open Foundation Secrets Docker

/-- What `discoverContainers` throws. -/
inductive Failure
  | serverNotFound
  /-- No Docker client, no connection or no listing. -/
  | docker
  /-- `getContainerInfo` has thrown. -/
  | inspection
  /-- A pattern is not a regular expression. -/
  | pattern
  | uniqueConstraint
  deriving DecidableEq

/-- What discovery uses of the runtime. -/
structure Runtime where
  ids : KeySupply
  /-- `new RegExp(pattern).test(imageName)`. -/
  test : Text → Text → Option Bool

/-- An element of the listing, with the answer of `getContainerInfo`. -/
structure Listed where
  (name image state : Text)
  info : Option ContainerDetails

/-- `determineHealthStatus` without a URL check. -/
def determineHealthStatus (containerHealth : Option Text) (running : Bool) : Text :=
  if ¬ running then "unknown".toList
  else if containerHealth = some "healthy".toList then "healthy".toList
  else if containerHealth = some "unhealthy".toList then "unhealthy".toList
  else if containerHealth.bind nonempty = none then "none".toList
  else "unknown".toList

structure Observation where
  (name imageName imageTag containerStatus healthStatus : Text)
  exposedPorts : Option (List Port)

def fullImagePath (listed : Listed) (info : ContainerDetails) : Text :=
  (nonempty info.image).getD listed.image

def observe (listed : Listed) (info : ContainerDetails) : Observation where
  name := listed.name
  imageName := ((fullImagePath listed info).splitOn ':').getD 0 []
  imageTag := ((fullImagePath listed info).splitOn ':').getD 1 "latest".toList
  containerStatus := (nonempty info.state).getD listed.state
  healthStatus := determineHealthStatus info.health info.running
  exposedPorts := if info.ports = [] then none else some info.ports

/-- `parseRegistryFromImage`: the URL, and whether it is Docker Hub. -/
def parseRegistryFromImage (imageName : Text) : Text × Bool :=
  let parts := ((imageName.splitOn ':').getD 0 []).splitOn '/'
  if parts.length = 1 ∨ (parts.length = 2 ∧ '.' ∉ parts.getD 0 []) then ("docker.io".toList, true)
  else (parts.getD 0 [], false)

section

variable (runtime : Runtime)

/-- The loop of `findOrCreateRegistry`. -/
def matchRegistry (registryUrl imageName : Text) : List Registry → Except Failure (Option String)
  | [] => .ok none
  | registry :: registries =>
    if registryUrl <:+: registry.registryUrl ∨ registry.registryUrl <:+: registryUrl then
      .ok (some registry.id)
    else
      match registry.autoLinkPattern.bind nonempty with
      | none => matchRegistry registryUrl imageName registries
      | some pattern =>
        match runtime.test pattern imageName with
        | none => .error .pattern
        | some true => .ok (some registry.id)
        | some false => matchRegistry registryUrl imageName registries

variable (inventory : Inventory) (environmentId : String)

/-- The row that `findOrCreateRegistry` creates. -/
def newRegistry (registryUrl : Text) : Registry where
  id := runtime.ids.next inventory.registries.ids
  name := registryUrl.map fun character ↦ if character = '.' then '-' else character
  type := if "digitalocean".toList <:+: registryUrl then "digitalocean".toList else "generic".toList
  registryUrl := "https://".toList ++ registryUrl
  autoLinkPattern := none
  environmentId := environmentId

def Inventory.registriesOf : List Registry :=
  inventory.registries.rows.filter (·.environmentId = environmentId)

def findOrCreateRegistry (imageName : Text) (inventory : Inventory) :
    Except Failure (Inventory × Option String) :=
  let (registryUrl, isDockerHub) := parseRegistryFromImage imageName
  match matchRegistry runtime registryUrl imageName (inventory.registriesOf environmentId) with
  | .error failure => .error failure
  | .ok (some id) => .ok (inventory, some id)
  | .ok none =>
    if isDockerHub then .ok (inventory, none)
    else
      let registry := newRegistry runtime inventory environmentId registryUrl
      if (inventory.registries.findBy? Registry.environmentName registry.environmentName).isSome then
        .error .uniqueConstraint
      else .ok ({ inventory with registries := inventory.registries.insert registry }, some registry.id)

/-! ### Images and templates -/

/-- The row that `findOrCreateContainerImage` creates. -/
def newImage (imageName imageTag : Text) (registryConnectionId : Option String) :
    ContainerImage where
  id := runtime.ids.next inventory.images.ids
  name := (nonempty ((imageName.splitOn '/').getLastD [])).getD imageName
  imageName := imageName
  tagFilter := imageTag
  environmentId := environmentId
  registryConnectionId := registryConnectionId

def findOrCreateContainerImage (imageName imageTag : Text) (registryConnectionId : Option String)
    (inventory : Inventory) : Inventory × ContainerImage :=
  match inventory.imageNamed environmentId imageName with
  | some existing => (inventory, existing)
  | none =>
    let image := newImage runtime inventory environmentId imageName imageTag registryConnectionId
    ({ inventory with images := inventory.images.insert image }, image)

/-- `name-server`, `name-server-2`, `name-server-3` and so on. -/
def candidate (name serverName : Text) (count : ℕ) : Text :=
  name ++ '-' :: serverName ++ if count = 0 then [] else '-' :: Nat.toDigits 10 (count + 1)

/-- The first candidate that is free or belongs to a template of the image; there is one among these
(`exists_stops`). -/
def probe (stops : ℕ → Bool) (services : ℕ) : ℕ :=
  ((List.range (services + 1)).find? stops).getD 0

def newService (name imageTag : Text) (containerImageId : String) : Service where
  id := runtime.ids.next inventory.services.ids
  name := name
  imageTag := imageTag
  environmentId := environmentId
  containerImageId := containerImageId

variable (server : Server)

/-- The candidate is free, or belongs to a template of the image. -/
def candidateStops (name : Text) (containerImageId : String) (inventory : Inventory) (count : ℕ) :
    Bool :=
  (inventory.serviceNamed server.environmentId (candidate name server.name count)).all fun service ↦
    service.containerImageId = containerImageId

def templateName (name : Text) (containerImageId : String) (inventory : Inventory) : Text :=
  match inventory.serviceNamed server.environmentId name with
  | none => name
  | some existing =>
    if existing.containerImageId = containerImageId then name
    else candidate name server.name
      (probe (candidateStops server name containerImageId inventory) inventory.services.rows.length)

variable (observed : Observation) (containerImageId : String)

/-- The template for a new deployment: one of the same image is used again. -/
def findOrCreateTemplate (inventory : Inventory) : Inventory × Service :=
  let name := templateName server observed.name containerImageId inventory
  match inventory.serviceNamed server.environmentId name with
  | some template => (inventory, template)
  | none =>
    let service := newService runtime inventory server.environmentId name observed.imageTag
      containerImageId
    ({ inventory with services := inventory.services.insert service }, service)

/-! ### One container -/

/-- The update of the template of a deployment. -/
def Service.synced (service : Service) : Service :=
  { service with imageTag := observed.imageTag, containerImageId := containerImageId }

variable (deployment : ServiceDeployment)

def ServiceDeployment.found : ServiceDeployment :=
  { deployment with
    status := observed.containerStatus
    containerStatus := observed.containerStatus
    healthStatus := observed.healthStatus
    exposedPorts := observed.exposedPorts
    discoveryStatus := .found }

def newDeployment (serviceId : String) (inventory : Inventory) : ServiceDeployment where
  id := runtime.ids.next inventory.deployments.ids
  serviceId := serviceId
  serverId := server.id
  containerName := observed.name
  status := observed.containerStatus
  containerStatus := observed.containerStatus
  healthStatus := observed.healthStatus
  exposedPorts := observed.exposedPorts
  discoveryStatus := .found

def recordExisting (existing : ServiceDeployment) (inventory : Inventory) : Inventory :=
  { inventory with
    services := inventory.services.update existing.serviceId (Service.synced observed containerImageId)
      fun _ ↦ rfl
    deployments := inventory.deployments.update existing.id (ServiceDeployment.found observed)
      fun _ ↦ rfl }

def recordNew (inventory : Inventory) : Inventory × Except Failure ServiceDeployment :=
  let (inventory, service) := findOrCreateTemplate runtime server observed containerImageId inventory
  let created := newDeployment runtime server observed service.id inventory
  if (inventory.deployments.findBy? ServiceDeployment.serviceServer created.serviceServer).isSome then
    (inventory, .error .uniqueConstraint)
  else ({ inventory with deployments := inventory.deployments.insert created }, .ok created)

def recordContainer (inventory : Inventory) : Inventory × Except Failure ServiceDeployment :=
  match findOrCreateRegistry runtime server.environmentId observed.imageName inventory with
  | .error failure => (inventory, .error failure)
  | .ok (inventory, registryConnectionId) =>
    let (inventory, image) := findOrCreateContainerImage runtime server.environmentId
      observed.imageName observed.imageTag registryConnectionId inventory
    match inventory.deploymentOf server.id observed.name with
    | some existing => (recordExisting observed image.id existing inventory, .ok (existing.found observed))
    | none => recordNew runtime server observed image.id inventory

def discoverContainer (listed : Listed) (inventory : Inventory) :
    Inventory × Except Failure ServiceDeployment :=
  match listed.info with
  | none => (inventory, .error .inspection)
  | some info => recordContainer runtime server (observe listed info) inventory

/-! ### All containers -/

/-- Where the loop is: the rows, the deployments that it has recorded, and what it has thrown. -/
structure Progress where
  inventory : Inventory
  discovered : List ServiceDeployment
  failure : Option Failure

/-- The loop goes on until something is thrown. -/
def Progress.advance (progress : Progress) (listed : Listed) : Progress :=
  match progress.failure with
  | some _ => progress
  | none =>
    match discoverContainer runtime server listed progress.inventory with
    | (inventory, .ok deployment) => ⟨inventory, progress.discovered ++ [deployment], none⟩
    | (inventory, .error failure) => ⟨inventory, progress.discovered, some failure⟩

def discoverAll (containers : List Listed) (inventory : Inventory) : Progress :=
  containers.foldl (Progress.advance runtime server) ⟨inventory, [], none⟩

def ServiceDeployment.gone : ServiceDeployment :=
  { deployment with
    discoveryStatus := .missing
    status := "stopped".toList
    containerStatus := "not_found".toList
    healthStatus := "unknown".toList }

def Inventory.deploymentsOn (inventory : Inventory) (serverId : String) : List ServiceDeployment :=
  inventory.deployments.rows.filter (·.serverId = serverId)

def unlisted (containers : List Listed) (deployments : List ServiceDeployment) :
    List ServiceDeployment :=
  deployments.filter fun deployment ↦ deployment.containerName ∉ containers.map (·.name)

def markMissing (missing : List ServiceDeployment) (inventory : Inventory) : Inventory :=
  { inventory with
    deployments := missing.foldl (fun deployments deployment ↦
      deployments.update deployment.id ServiceDeployment.gone fun _ ↦ rfl) inventory.deployments }

/-- `DiscoverResult`: the deployments, and the names of the services whose container is missing. -/
structure DiscoverResult where
  serviceDeployments : List ServiceDeployment
  missing : List Text

/-- `discoverContainers`, with what the Docker client lists, if it does. -/
def discoverContainers (serverId : String) (listing : Option (List Listed)) (inventory : Inventory) :
    Inventory × Except Failure DiscoverResult :=
  match inventory.servers.find? serverId with
  | none => (inventory, .error .serverNotFound)
  | some server =>
    match listing with
    | none => (inventory, .error .docker)
    | some containers =>
      let progress := discoverAll runtime server containers inventory
      match progress.failure with
      | some failure => (progress.inventory, .error failure)
      | none =>
        let missing := unlisted containers (inventory.deploymentsOn serverId)
        (markMissing missing progress.inventory,
          .ok ⟨progress.discovered, missing.map fun deployment ↦
            ((inventory.services.find? deployment.serviceId).map (·.name)).getD []⟩)

end

end Bridgeport.Discovery
