import Bridgeport.Discovery.DiscoverContainers
import Bridgeport.Foundation.Machine

/-!
# The requests that create and re-point references

The templates, deployments, config files and attachments of an installation, and the requests that
create them or point them elsewhere, with the checks that the handlers make of the ids in a body. A
body that its schema refuses changes nothing and is left out; so are the fields that no check reads,
the audit log, the history and the usage rows.
-/

namespace Bridgeport.Environments

open Foundation Secrets Discovery

/-- A row of `ConfigFile`. -/
structure ConfigFile where
  id : String
  (name content : Text)
  isBinary : Bool
  environmentId : String

/-- A row of `ConfigFragment`. -/
structure ConfigFragment where
  id : String
  name : Text
  environmentId : String

/-- A row of `ConfigFileFragment`. -/
structure ConfigFileFragment where
  (configFileId fragmentId : String)
  position : ℕ

/-- A row of `ServiceFile`. -/
structure ServiceFile where
  (id serviceId configFileId : String)
  targetPath : Text
  serviceDeploymentId : Option String

instance : Keyed ConfigFile := ⟨ConfigFile.id⟩
instance : Keyed ConfigFragment := ⟨ConfigFragment.id⟩
instance : Keyed ServiceFile := ⟨ServiceFile.id⟩

/-- `environmentId_name` of a config file. -/
def ConfigFile.environmentName (configFile : ConfigFile) : String × Text :=
  (configFile.environmentId, configFile.name)

structure Estate where
  environments : List String
  inventory : Inventory
  configFiles : Table ConfigFile
  fragments : Table ConfigFragment
  includedFragments : List ConfigFileFragment
  serviceFiles : Table ServiceFile

/-- `createServiceSchema`. -/
structure ServiceBody where
  name : Text
  containerImageId : String
  imageTag : Text

/-- `updateServiceSchema`. -/
structure ServicePatch where
  name : Option Text := none
  containerImageId : Option String := none
  imageTag : Option Text := none

/-- `createConfigFileSchema`. -/
structure ConfigFileBody where
  (name content : Text)
  isBinary : Bool
  fragmentIds : List String

/-- `updateConfigFileSchema`. -/
structure ConfigFilePatch where
  name : Option Text := none
  content : Option Text := none
  isBinary : Option Bool := none
  fragmentIds : Option (List String) := none

inductive EstateRequest
  | createService (envId : String) (body : ServiceBody)
  | createUnderServer (serverId : String) (body : ServiceBody) (containerName : Option Text)
  | updateService (id : String) (body : ServicePatch)
  | addDeployment (id : String) (serverId : String) (containerName : Text)
  | attachFile (id : String) (configFileId : String) (targetPath : Text)
  | createConfigFile (envId : String) (body : ConfigFileBody)
  | updateConfigFile (id : String) (body : ConfigFilePatch)
  | discoverContainers (serverId : String) (listing : Option (List Listed))

/-- What is replied to a request that is refused, or that throws half-way. -/
structure Refusal where
  status : ℕ
  error : String

/-- The reply to an error that no handler expects. -/
def unexpected : Refusal :=
  ⟨500, "Internal Server Error"⟩

section

variable (runtime : Runtime)

/-! ### Services -/

/-- The row of `prisma.service.create`. -/
def ServiceBody.toService (body : ServiceBody) (environmentId : String) (inventory : Inventory) :
    Service :=
  newService runtime inventory environmentId body.name body.imageTag body.containerImageId

def checkImage (containerImageId environmentId : String) (inventory : Inventory) : Except Refusal Unit :=
  match inventory.images.find? containerImageId with
  | none => .error ⟨400, "Container image not found"⟩
  | some image =>
    if image.environmentId = environmentId then .ok ()
    else .error ⟨400, "Container image must be in the same environment"⟩

/-- `POST /api/environments/:envId/services`. -/
def createService (envId : String) (body : ServiceBody) (inventory : Inventory) :
    Inventory × Option Refusal :=
  match checkImage body.containerImageId envId inventory with
  | .error refusal => (inventory, some refusal)
  | .ok () =>
    if (inventory.serviceNamed envId body.name).isSome then
      (inventory, some ⟨409, "Service already exists"⟩)
    else
      ({ inventory with
          services := inventory.services.insert (body.toService runtime envId inventory) }, none)

def pendingDeployment (serviceId serverId : String) (containerName : Text) (inventory : Inventory) :
    ServiceDeployment where
  id := runtime.ids.next inventory.deployments.ids
  serviceId := serviceId
  serverId := serverId
  containerName := containerName
  status := "unknown".toList
  containerStatus := "unknown".toList
  healthStatus := "unknown".toList
  exposedPorts := none
  discoveryStatus := .pending

/-- The creation of a deployment, and the reply when one of its unique keys is taken. -/
def createDeployment (serviceId serverId : String) (containerName : Text) (taken : Refusal)
    (inventory : Inventory) : Inventory × Option Refusal :=
  let deployment := pendingDeployment runtime serviceId serverId containerName inventory
  if (inventory.deployments.findBy? ServiceDeployment.serviceServer deployment.serviceServer).isSome ∨
      (inventory.deploymentOf serverId containerName).isSome then
    (inventory, some taken)
  else ({ inventory with deployments := inventory.deployments.insert deployment }, none)

/-- `POST /api/servers/:serverId/services`: a template of the same name and image is used again. -/
def createUnderServer (serverId : String) (body : ServiceBody) (containerName : Option Text)
    (inventory : Inventory) : Inventory × Option Refusal :=
  match inventory.servers.find? serverId with
  | none => (inventory, some ⟨404, "Server not found"⟩)
  | some server =>
    match checkImage body.containerImageId server.environmentId inventory with
    | .error refusal => (inventory, some refusal)
    | .ok () =>
      match inventory.serviceNamed server.environmentId body.name with
      | some existing =>
        if existing.containerImageId ≠ body.containerImageId then
          (inventory, some ⟨409, "A service named \"" ++ String.ofList body.name ++
            "\" already exists in this environment with a different container image. " ++
            "Use a different name or update the existing service."⟩)
        else createDeployment runtime existing.id server.id (containerName.getD body.name)
          ⟨409, "Service already exists"⟩ inventory
      | none =>
        let service := body.toService runtime server.environmentId inventory
        createDeployment runtime service.id server.id (containerName.getD body.name)
          ⟨409, "Service already exists"⟩
          { inventory with services := inventory.services.insert service }

def ServicePatch.apply (body : ServicePatch) (service : Service) : Service :=
  { service with
    name := body.name.getD service.name
    containerImageId := body.containerImageId.getD service.containerImageId
    imageTag := body.imageTag.getD service.imageTag }

/-- Another row has the unique key that a row is about to get. -/
def nameTaken {Row Key : Type} [Keyed Row] [DecidableEq Key] (table : Table Row) (key : Row → Key)
    (row : Row) : Prop :=
  ∃ other ∈ table.rows, Keyed.id other ≠ Keyed.id row ∧ key other = key row

instance {Row Key : Type} [Keyed Row] [DecidableEq Key] (table : Table Row) (key : Row → Key) (row : Row) :
    Decidable (nameTaken table key row) :=
  inferInstanceAs (Decidable (∃ _ ∈ _, _))

/-- `PATCH /api/services/:id`. The database refuses the id of an image that is not there, and a name
that is taken; nothing checks the environment of the image. -/
def updateService (id : String) (body : ServicePatch) (inventory : Inventory) :
    Inventory × Option Refusal :=
  match inventory.services.find? id with
  | none => (inventory, some ⟨404, "Service not found"⟩)
  | some existing =>
    if (inventory.images.find? (body.apply existing).containerImageId).isNone ∨
        nameTaken inventory.services Service.environmentName (body.apply existing) then
      (inventory, some unexpected)
    else ({ inventory with services := inventory.services.update id body.apply fun _ ↦ rfl }, none)

/-- `POST /api/services/:id/deployments`. -/
def addDeployment (id serverId : String) (containerName : Text) (inventory : Inventory) :
    Inventory × Option Refusal :=
  match inventory.services.find? id with
  | none => (inventory, some ⟨404, "Service not found"⟩)
  | some service =>
    match inventory.servers.find? serverId with
    | none => (inventory, some ⟨400, "Server not found"⟩)
    | some server =>
      if server.environmentId ≠ service.environmentId then
        (inventory, some ⟨400, "Server must be in the same environment as the service"⟩)
      else createDeployment runtime id serverId containerName
        ⟨409, "Deployment for that server or container name already exists"⟩ inventory

/-! ### Config files -/

variable (estate : Estate)

/-- The file has a base attachment to the service. -/
def Estate.attached (serviceId configFileId : String) : Prop :=
  ∃ file ∈ estate.serviceFiles.rows, file.serviceId = serviceId ∧ file.configFileId = configFileId ∧
    file.serviceDeploymentId = none

instance (serviceId configFileId : String) : Decidable (estate.attached serviceId configFileId) :=
  inferInstanceAs (Decidable (∃ _ ∈ _, _))

/-- `POST /api/services/:id/files`. The database refuses ids that are not there; nothing compares
the environments of the service and of the file. -/
def attachFile (id configFileId : String) (targetPath : Text) (estate : Estate) :
    Estate × Option Refusal :=
  if estate.attached id configFileId then
    (estate, some ⟨409, "File already attached to this service"⟩)
  else if (estate.inventory.services.find? id).isNone ∨ (estate.configFiles.find? configFileId).isNone then
    (estate, some unexpected)
  else
    let file : ServiceFile :=
      ⟨runtime.ids.next estate.serviceFiles.ids, id, configFileId, targetPath, none⟩
    ({ estate with serviceFiles := estate.serviceFiles.insert file }, none)

/-- `rejectInvalidFragmentIds`, which is asked for a list that is not empty. -/
def rejectInvalidFragmentIds (fragmentIds : List String) (environmentId : String) (estate : Estate) :
    Option Refusal :=
  if ¬ fragmentIds.Nodup then some ⟨400, "fragmentIds must not contain duplicates"⟩
  else
    let found := estate.fragments.rows.filter fun fragment ↦
      fragment.id ∈ fragmentIds ∧ fragment.environmentId = environmentId
    if found.length ≠ fragmentIds.length then
      some ⟨400, "One or more fragmentIds are invalid or belong to a different environment"⟩
    else none

def includesOf (configFileId : String) (fragmentIds : List String) : List ConfigFileFragment :=
  fragmentIds.zipIdx.map fun (fragmentId, position) ↦ ⟨configFileId, fragmentId, position⟩

/-- `POST /api/environments/:envId/config-files`. -/
def createConfigFile (envId : String) (body : ConfigFileBody) (estate : Estate) :
    Estate × Option Refusal :=
  if body.isBinary ∧ body.fragmentIds ≠ [] then
    (estate, some ⟨400, "Binary ConfigFiles cannot include fragments"⟩)
  else
    match rejectInvalidFragmentIds body.fragmentIds envId estate with
    | some refusal => (estate, some refusal)
    | none =>
      if envId ∉ estate.environments then (estate, some unexpected)
      else
        let configFile : ConfigFile :=
          ⟨runtime.ids.next estate.configFiles.ids, body.name, body.content, body.isBinary, envId⟩
        if (estate.configFiles.findBy? ConfigFile.environmentName configFile.environmentName).isSome then
          (estate, some ⟨409, "Config file with this name already exists"⟩)
        else
          ({ estate with
              configFiles := estate.configFiles.insert configFile
              includedFragments :=
                estate.includedFragments ++ includesOf configFile.id body.fragmentIds }, none)

def ConfigFilePatch.apply (body : ConfigFilePatch) (configFile : ConfigFile) : ConfigFile :=
  { configFile with
    name := body.name.getD configFile.name
    content := body.content.getD configFile.content
    isBinary := body.isBinary.getD configFile.isBinary }

/-- The fragments of the file after a PATCH: those of the body, if it has some. -/
def replaceIncludes (id : String) (fragmentIds : Option (List String))
    (includedFragments : List ConfigFileFragment) : List ConfigFileFragment :=
  match fragmentIds with
  | none => includedFragments
  | some fragmentIds => (includedFragments.filter (·.configFileId ≠ id)) ++ includesOf id fragmentIds

/-- `PATCH /api/config-files/:id`. -/
def updateConfigFile (id : String) (body : ConfigFilePatch) (estate : Estate) :
    Estate × Option Refusal :=
  match estate.configFiles.find? id with
  | none => (estate, some ⟨404, "Config file not found"⟩)
  | some existing =>
    let effectiveIsBinary := body.isBinary.getD existing.isBinary
    if effectiveIsBinary ∧ body.fragmentIds.getD [] ≠ [] then
      (estate, some ⟨400, "Binary ConfigFiles cannot include fragments"⟩)
    else if effectiveIsBinary ∧ body.content = some [] then
      (estate, some ⟨400, "Binary file content cannot be cleared. " ++
        "Use the asset replace upload to change it."⟩)
    else
      match rejectInvalidFragmentIds (body.fragmentIds.getD []) existing.environmentId estate with
      | some refusal => (estate, some refusal)
      | none =>
        if nameTaken estate.configFiles ConfigFile.environmentName (body.apply existing) then
          (estate, some unexpected)
        else
          ({ estate with
              configFiles := estate.configFiles.update id body.apply fun _ ↦ rfl
              includedFragments := replaceIncludes id body.fragmentIds estate.includedFragments }, none)

def Estate.onInventory (result : Inventory × Option Refusal) : Estate × Option Refusal :=
  ({ estate with inventory := result.1 }, result.2)

def Estate.serve : EstateRequest → Estate × Option Refusal
  | .createService envId body => estate.onInventory (createService runtime envId body estate.inventory)
  | .createUnderServer serverId body containerName =>
    estate.onInventory (createUnderServer runtime serverId body containerName estate.inventory)
  | .updateService id body => estate.onInventory (updateService id body estate.inventory)
  | .addDeployment id serverId containerName =>
    estate.onInventory (addDeployment runtime id serverId containerName estate.inventory)
  | .attachFile id configFileId targetPath => attachFile runtime id configFileId targetPath estate
  | .createConfigFile envId body => createConfigFile runtime envId body estate
  | .updateConfigFile id body => updateConfigFile id body estate
  | .discoverContainers serverId listing =>
    let (inventory, result) := discoverContainers runtime serverId listing estate.inventory
    estate.onInventory (inventory, match result with
      | .ok _ => none
      | .error _ => some unexpected)

def estateMachine : Machine Estate EstateRequest where
  next estate request := some (estate.serve runtime request).1

end

end Bridgeport.Environments
