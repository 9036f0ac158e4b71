import Bridgeport.ConfigSync.SyncConfigFile
import Bridgeport.Foundation.JsonValues
import Bridgeport.Foundation.StoppedRuns
import Bridgeport.Foundation.Trimming
import Bridgeport.Foundation.Upserts

/-!
# The import of Terraform outputs

`importFromTerraform` of `services/servers.ts`. Each of its statements looks a row up by a unique key
and then updates the row or creates it; there is no transaction around them. The import does not
change the keys, so a row is known by its unique key: the primary keys are left out, and what refers
to a row has its key. `upsert` is the lookup and the write behind it.

A statement throws when a unique constraint is violated, or when the database cannot be reached
(`outage`), and has then changed nothing. `logAudit` does not throw. Timestamps are left out, and so
are the fields that the import neither reads nor writes.

An import is the list of its statements, run until one of them throws (`run_importFromTerraform`);
after a list of them a table has the upserts of the list that concern it.
-/

namespace Bridgeport.Terraform

open Foundation
open ConfigSync (isTrimmed)
open Secrets (Text)

/-- The unique key `environmentId_name` of a server or a service, or `environmentId_imageName` of an
image. -/
structure UniqueName where
  environmentId : String
  name : Text
  deriving DecidableEq

/-- The unique key `serviceId_serverId` of a deployment. -/
structure ServiceServer where
  (service server : UniqueName)
  deriving DecidableEq

/-- A row of `OperationsSettings`. -/
structure OperationsSettings where
  autoManageCompose : Bool

/-- A row of `Server`; `tags` is a JSON text. -/
structure Server where
  hostname : Text
  publicIp : Option Text
  tags : Text
  deriving DecidableEq

/-- A row of `ContainerImage`. -/
structure ContainerImage where
  (name tagFilter : Text)

/-- A row of `Service`. -/
@[ext]
structure Service where
  containerImage : UniqueName
  imageTag : Text
  healthCheckUrl : Option Text

/-- A row of `ServiceDeployment`. -/
@[ext]
structure ServiceDeployment where
  containerName : Text
  composePath : Option Text

/-- A row of `AuditLog` with the action `service_deployment_compose_path_set`. -/
structure AuditEntry where
  resource : ServiceServer
  resourceName : Text
  environmentId : String
  composePath : Option Text

@[ext]
structure Estate where
  operationsSettings : OrderedMap String OperationsSettings
  servers : OrderedMap UniqueName Server
  images : OrderedMap UniqueName ContainerImage
  services : OrderedMap UniqueName Service
  deployments : OrderedMap ServiceServer ServiceDeployment
  auditLogs : List AuditEntry

/-- The unique key `serverId_containerName` of a deployment; the other unique keys of the schema are
those of the tables. -/
def Estate.ContainersUnique (estate : Estate) : Prop :=
  ∀ first second firstRow secondRow, estate.deployments.get first = some firstRow →
    estate.deployments.get second = some secondRow → first.server = second.server →
      firstRow.containerName = secondRow.containerName → first = second

theorem containersUnique_iff {estate : Estate} : estate.ContainersUnique ↔
    ∀ first ∈ estate.deployments.entries, ∀ second ∈ estate.deployments.entries,
      first.1.server = second.1.server → first.2.containerName = second.2.containerName →
        first.1 = second.1 := by
  constructor
  · intro h first hfirst second hsecond
    exact h first.1 second.1 first.2 second.2 ((estate.deployments.mem_entries_iff _ _).mp hfirst)
      ((estate.deployments.mem_entries_iff _ _).mp hsecond)
  · intro h first second firstRow secondRow hfirst hsecond
    exact h (first, firstRow) ((estate.deployments.mem_entries_iff _ _).mpr hfirst)
      (second, secondRow) ((estate.deployments.mem_entries_iff _ _).mpr hsecond)

instance (estate : Estate) : Decidable estate.ContainersUnique :=
  decidable_of_iff' _ containersUnique_iff

/-- A service of a server. A member that is left out is `none`; `health_check_url` can be left out,
or be `null`, which is `some none`. -/
structure ServiceData where
  (name containerName imageName : Text)
  (imageTag composePath : Option Text)
  healthCheckUrl : Option (Option Text)

structure ServerData where
  (name privateIp : Text)
  publicIp : Option Text
  tags : List Text
  services : Option (List ServiceData)

structure TerraformOutput where
  servers : List ServerData

/-- The tables, and how many statements have been run. -/
structure Progress where
  estate : Estate
  statements : ℕ

/-- A part of the import: what has been written stays when it throws. -/
abbrev Import := ExceptT String (StateM Progress)

/-- What the import finds around it: `toUpperCase` of an initial, and which of the statements do not
reach the database. -/
structure Runtime where
  toUpperCase : Char → Text
  outage : ℕ → Bool

variable (runtime : Runtime) (environmentId : String)

/-- A lookup and the write behind it. -/
def statement (change : Estate → Except String Estate) : Import Unit := fun progress ↦
  if runtime.outage progress.statements then
    (.error "Can't reach database server", progress)
  else
    match change progress.estate with
    | .error message => (.error message, progress)
    | .ok estate => (.ok (), ⟨estate, progress.statements + 1⟩)

/-! ### Servers, images and templates -/

def tagsText (tags : List Text) : Text :=
  Json.stringify (.array (tags.map .string))

def serverRow (serverData : ServerData) : Option Server → Server
  | some existing => { existing with
    hostname := serverData.privateIp
    publicIp := serverData.publicIp
    tags := tagsText serverData.tags }
  | none => ⟨serverData.privateIp, serverData.publicIp, tagsText serverData.tags⟩

def serverUpsert (serverData : ServerData) : Upsert UniqueName Server :=
  ⟨⟨environmentId, serverData.name⟩, serverRow serverData⟩

def capitalize : Text → Text
  | [] => []
  | initial :: rest => runtime.toUpperCase initial ++ rest

def displayName (imageName : Text) : Text :=
  let lastPart := (imageName.splitOn '/').getLastD []
  let name := (lastPart.splitOn ':').headD []
  [' '].intercalate ((name.splitOn '-').map (capitalize runtime))

variable (serviceData : ServiceData)

/-- `image_tag ?? 'latest'`. -/
def ServiceData.tag : Text :=
  serviceData.imageTag.getD "latest".toList

def imageRow : Option ContainerImage → ContainerImage
  | some existing => existing
  | none => ⟨displayName runtime serviceData.imageName, serviceData.tag⟩

def imageUpsert : Upsert UniqueName ContainerImage :=
  ⟨⟨environmentId, serviceData.imageName⟩, imageRow runtime serviceData⟩

/-- The update of a template, or the new row. An update with an undefined URL leaves the URL. -/
def serviceRow : Option Service → Service
  | some existing => { existing with
    containerImage := ⟨environmentId, serviceData.imageName⟩
    imageTag := serviceData.tag
    healthCheckUrl := serviceData.healthCheckUrl.getD existing.healthCheckUrl }
  | none => ⟨⟨environmentId, serviceData.imageName⟩, serviceData.tag, serviceData.healthCheckUrl.getD none⟩

def serviceUpsert : Upsert UniqueName Service :=
  ⟨⟨environmentId, serviceData.name⟩, serviceRow environmentId serviceData⟩

/-! ### Deployments -/

/-- `incomingComposePath`: a blank path is no path. -/
def incomingComposePath : Option Text :=
  serviceData.composePath.filter fun path ↦ trimBoth isTrimmed path ≠ []

variable (autoManageCompose : Bool)

/-- The path that the import may set: only where it is managed. -/
def settablePath (serviceData : ServiceData) : Option Text :=
  if autoManageCompose then incomingComposePath serviceData else none

/-- The update of a deployment, which keeps a path that is there, or the new row. -/
def deploymentRow (serviceData : ServiceData) : Option ServiceDeployment → ServiceDeployment
  | some existing => { existing with
    containerName := serviceData.containerName
    composePath := existing.composePath.or (settablePath autoManageCompose serviceData) }
  | none => ⟨serviceData.containerName, settablePath autoManageCompose serviceData⟩

variable (serverName : Text)

def deploymentKey (serviceData : ServiceData) : ServiceServer :=
  ⟨⟨environmentId, serviceData.name⟩, ⟨environmentId, serverName⟩⟩

def deploymentUpsert (serviceData : ServiceData) : Upsert ServiceServer ServiceDeployment :=
  ⟨deploymentKey environmentId serverName serviceData, deploymentRow autoManageCompose serviceData⟩

/-- Another deployment on the server has the container name. -/
def Estate.Taken (estate : Estate) (key : ServiceServer) (containerName : Text) : Prop :=
  ∃ entry ∈ estate.deployments.entries, entry.1 ≠ key ∧ entry.1.server = key.server ∧
    entry.2.containerName = containerName

instance (estate : Estate) (key : ServiceServer) (containerName : Text) :
    Decidable (estate.Taken key containerName) :=
  inferInstanceAs (Decidable (∃ entry ∈ _, _))

/-- The path was `null`, and the import sets it. -/
def setsPath (serviceData : ServiceData) (existing : Option ServiceDeployment) : Bool :=
  (existing.bind (·.composePath)).isNone && (settablePath autoManageCompose serviceData).isSome

/-- The deployment of a listed service, and the audit entry if the import has set the path. -/
def writeDeployment (serviceData : ServiceData) (estate : Estate) : Estate :=
  let key := deploymentKey environmentId serverName serviceData
  { estate with
    deployments := estate.deployments.upsert
      (deploymentUpsert environmentId autoManageCompose serverName serviceData)
    auditLogs := estate.auditLogs ++
      if setsPath autoManageCompose serviceData (estate.deployments.get key) then
        [⟨key, serviceData.containerName, environmentId, incomingComposePath serviceData⟩]
      else [] }

/-- The statement of a deployment, under the unique constraint on container names. -/
def importDeployment (serviceData : ServiceData) (estate : Estate) : Except String Estate :=
  if estate.Taken (deploymentKey environmentId serverName serviceData) serviceData.containerName then
    .error "Unique constraint failed on the fields: (`serverId`,`containerName`)"
  else .ok (writeDeployment environmentId autoManageCompose serverName serviceData estate)

/-- The body of the loop over the services of a server. -/
def importService (serviceData : ServiceData) : Import Unit := do
  statement runtime fun estate ↦ .ok { estate with
    images := estate.images.upsert (imageUpsert runtime environmentId serviceData) }
  statement runtime fun estate ↦ .ok { estate with
    services := estate.services.upsert (serviceUpsert environmentId serviceData) }
  statement runtime (importDeployment environmentId autoManageCompose serverName serviceData)

/-- The body of the loop over the servers. -/
def importServer (serverData : ServerData) : Import Unit := do
  statement runtime fun estate ↦ .ok { estate with
    servers := estate.servers.upsert (serverUpsert environmentId serverData) }
  (serverData.services.getD []).forM (importService runtime environmentId autoManageCompose
    serverData.name)

variable (tfOutput : TerraformOutput)

/-- `importFromTerraform`, which returns the keys of the servers. -/
def importFromTerraform : Import (List UniqueName) := do
  let progress ← get
  statement runtime .ok
  let autoManageCompose := ((progress.estate.operationsSettings.get environmentId).map
    (·.autoManageCompose)).getD false
  tfOutput.servers.forM (importServer runtime environmentId autoManageCompose)
  pure (tfOutput.servers.map fun serverData ↦ ⟨environmentId, serverData.name⟩)

/-! ### The statements of an import -/

section

open List

inductive ImportStep
  | settings
  | server (serverData : ServerData)
  | image (serviceData : ServiceData)
  | service (serviceData : ServiceData)
  | deployment (serverName : Text) (serviceData : ServiceData)

def serviceSteps (serviceData : ServiceData) : List ImportStep :=
  [.image serviceData, .service serviceData, .deployment serverName serviceData]

def serverSteps (serverData : ServerData) : List ImportStep :=
  .server serverData :: (serverData.services.getD []).flatMap (serviceSteps serverData.name)

def importSteps : List ImportStep :=
  .settings :: tfOutput.servers.flatMap serverSteps

variable (runtime : Runtime) (environmentId : String) (autoManageCompose : Bool) (step : ImportStep)
  (estate : Estate)

/-- What a statement does to the tables, if the constraint on container names allows it. -/
def applyStep : Estate :=
  match step with
  | .settings => estate
  | .server serverData =>
    { estate with servers := estate.servers.upsert (serverUpsert environmentId serverData) }
  | .image serviceData =>
    { estate with images := estate.images.upsert (imageUpsert runtime environmentId serviceData) }
  | .service serviceData =>
    { estate with services := estate.services.upsert (serviceUpsert environmentId serviceData) }
  | .deployment serverName serviceData =>
    writeDeployment environmentId autoManageCompose serverName serviceData estate

/-- The tables after a statement, or its exception. -/
def changeOf : Except String Estate :=
  match step with
  | .deployment serverName serviceData =>
    importDeployment environmentId autoManageCompose serverName serviceData estate
  | step => .ok (applyStep runtime environmentId autoManageCompose step estate)

variable (steps : List ImportStep)

/-- The tables after statements that do not throw. -/
def applySteps (estate : Estate) : Estate :=
  steps.foldl (fun estate step ↦ applyStep runtime environmentId autoManageCompose step estate) estate

def performStep (step : ImportStep) : Import Unit :=
  statement runtime (changeOf runtime environmentId autoManageCompose step)

def refusesStep (step : ImportStep) (progress : Progress) : Option String :=
  if runtime.outage progress.statements then some "Can't reach database server"
  else match changeOf runtime environmentId autoManageCompose step progress.estate with
    | .error message => some message
    | .ok _ => none

def nextStep (step : ImportStep) (progress : Progress) : Progress :=
  ⟨applyStep runtime environmentId autoManageCompose step progress.estate, progress.statements + 1⟩

theorem changeOf_eq {step : ImportStep} {estate after : Estate}
    (h : changeOf runtime environmentId autoManageCompose step estate = .ok after) :
    after = applyStep runtime environmentId autoManageCompose step estate := by
  cases step with
  | deployment serverName serviceData =>
    rw [changeOf, importDeployment] at h
    split_ifs at h
    exact (Except.ok.inj h).symm
  | _ => exact (Except.ok.inj h).symm

theorem performs_performStep : Performs (performStep runtime environmentId autoManageCompose)
    (refusesStep runtime environmentId autoManageCompose)
    (nextStep runtime environmentId autoManageCompose) := by
  intro step progress
  show statement runtime _ progress = _
  unfold statement refusesStep
  split_ifs
  · rfl
  · cases hchange : changeOf runtime environmentId autoManageCompose step progress.estate with
    | error message => rfl
    | ok after =>
      rw [changeOf_eq runtime environmentId autoManageCompose hchange]
      rfl

theorem stateAfter_nextStep (progress : Progress) :
    stateAfter (nextStep runtime environmentId autoManageCompose) steps progress =
      ⟨applySteps runtime environmentId autoManageCompose steps progress.estate,
        progress.statements + steps.length⟩ := by
  induction steps generalizing progress with
  | nil => rfl
  | cons step steps ih =>
    rw [stateAfter_cons, ih, nextStep, length_cons, Nat.add_assoc, Nat.add_comm 1]
    rfl

theorem forM_flatMap {α β : Type} (list : List α) (expand : α → List β) (body : β → Import Unit) :
    (list.flatMap expand).forM body = list.forM fun element ↦ (expand element).forM body := by
  induction list with
  | nil => rfl
  | cons first rest ih =>
    show forM (expand first ++ rest.flatMap expand) body = _
    rw [forM_append]
    exact congrArg (fun (after : Import Unit) ↦ (do (expand first).forM body; after)) ih

theorem importService_eq (serverName : Text) (serviceData : ServiceData) :
    importService runtime environmentId autoManageCompose serverName serviceData =
      (serviceSteps serverName serviceData).forM
        (performStep runtime environmentId autoManageCompose) := by
  have hlast : (do
      performStep runtime environmentId autoManageCompose (.deployment serverName serviceData)
      pure () : Import Unit) =
        performStep runtime environmentId autoManageCompose (.deployment serverName serviceData) :=
    bind_pure _
  show _ = (do
    performStep runtime environmentId autoManageCompose (.image serviceData)
    performStep runtime environmentId autoManageCompose (.service serviceData)
    performStep runtime environmentId autoManageCompose (.deployment serverName serviceData)
    pure () : Import Unit)
  rw [hlast]
  rfl

theorem importServer_eq (serverData : ServerData) :
    importServer runtime environmentId autoManageCompose serverData =
      (serverSteps serverData).forM (performStep runtime environmentId autoManageCompose) := by
  have hservices : (serverData.services.getD []).forM
      (importService runtime environmentId autoManageCompose serverData.name) =
        ((serverData.services.getD []).flatMap (serviceSteps serverData.name)).forM
          (performStep runtime environmentId autoManageCompose) := by
    rw [forM_flatMap]
    exact congrArg _ (funext fun serviceData ↦ importService_eq _ _ _ _ serviceData)
  unfold importServer
  rw [hservices]
  rfl

def Estate.managesCompose (estate : Estate) : Bool :=
  ((estate.operationsSettings.get environmentId).map (·.autoManageCompose)).getD false

theorem run_get_bind {α : Type} (rest : Progress → Import α) (progress : Progress) :
    (get >>= rest).run progress = (rest progress).run progress :=
  rfl

theorem run_importFromTerraform (tfOutput : TerraformOutput) (progress : Progress) :
    (importFromTerraform runtime environmentId tfOutput).run progress =
      match ((importSteps tfOutput).forM (performStep runtime environmentId
        (progress.estate.managesCompose environmentId))).run progress with
      | (.ok _, after) => (.ok (tfOutput.servers.map fun serverData ↦
          ⟨environmentId, serverData.name⟩), after)
      | (.error message, after) => (.error message, after) := by
  have hservers : tfOutput.servers.forM (importServer runtime environmentId
      (progress.estate.managesCompose environmentId)) =
        (tfOutput.servers.flatMap serverSteps).forM (performStep runtime environmentId
          (progress.estate.managesCompose environmentId)) := by
    rw [forM_flatMap]
    exact congrArg _ (funext fun serverData ↦ importServer_eq _ _ _ serverData)
  have hsteps : (do
      statement runtime .ok
      (tfOutput.servers.flatMap serverSteps).forM (performStep runtime environmentId
        (progress.estate.managesCompose environmentId)) : Import Unit) =
          (importSteps tfOutput).forM (performStep runtime environmentId
            (progress.estate.managesCompose environmentId)) :=
    rfl
  unfold importFromTerraform
  rw [run_get_bind]
  dsimp only
  rw [← Estate.managesCompose, hservers, ← bind_assoc, hsteps, run_bind]
  rcases ((importSteps tfOutput).forM (performStep runtime environmentId
    (progress.estate.managesCompose environmentId))).run progress with ⟨_ | _, _⟩
  · rfl
  · rfl

/-! ### Tables after statements -/

def listedServers : List ServerData :=
  steps.filterMap fun | .server serverData => some serverData | _ => none

/-- The services whose images are looked up. -/
def listedImages : List ServiceData :=
  steps.filterMap fun | .image serviceData => some serviceData | _ => none

def listedServices : List ServiceData :=
  steps.filterMap fun | .service serviceData => some serviceData | _ => none

def listedDeployments : List (Text × ServiceData) :=
  steps.filterMap fun
    | .deployment serverName serviceData => some (serverName, serviceData)
    | _ => none

section

variable {steps : List ImportStep}

theorem mem_listedServers {serverData : ServerData} :
    serverData ∈ listedServers steps ↔ .server serverData ∈ steps := by
  refine mem_filterMap.trans ⟨?_, fun hstep ↦ ⟨_, hstep, rfl⟩⟩
  rintro ⟨step, hstep, hlisted⟩
  cases step with
  | server other => exact Option.some.inj hlisted ▸ hstep
  | _ => nomatch hlisted

variable {serviceData : ServiceData}

theorem mem_listedImages : serviceData ∈ listedImages steps ↔ .image serviceData ∈ steps := by
  refine mem_filterMap.trans ⟨?_, fun hstep ↦ ⟨_, hstep, rfl⟩⟩
  rintro ⟨step, hstep, hlisted⟩
  cases step with
  | image other => exact Option.some.inj hlisted ▸ hstep
  | _ => nomatch hlisted

theorem mem_listedServices : serviceData ∈ listedServices steps ↔ .service serviceData ∈ steps := by
  refine mem_filterMap.trans ⟨?_, fun hstep ↦ ⟨_, hstep, rfl⟩⟩
  rintro ⟨step, hstep, hlisted⟩
  cases step with
  | service other => exact Option.some.inj hlisted ▸ hstep
  | _ => nomatch hlisted

theorem mem_listedDeployments {serverName : Text} :
    (serverName, serviceData) ∈ listedDeployments steps ↔
      .deployment serverName serviceData ∈ steps := by
  refine mem_filterMap.trans ⟨?_, fun hstep ↦ ⟨_, hstep, rfl⟩⟩
  rintro ⟨step, hstep, hlisted⟩
  cases step with
  | deployment otherName other =>
    obtain ⟨rfl, rfl⟩ := Prod.mk.inj (Option.some.inj hlisted)
    exact hstep
  | _ => nomatch hlisted

end

section

variable {runtime environmentId autoManageCompose} (steps : List ImportStep) (estate : Estate)

theorem applySteps_concat (step : ImportStep) :
    applySteps runtime environmentId autoManageCompose (steps ++ [step]) estate =
      applyStep runtime environmentId autoManageCompose step
        (applySteps runtime environmentId autoManageCompose steps estate) :=
  foldl_append

theorem servers_applySteps :
    (applySteps runtime environmentId autoManageCompose steps estate).servers =
      estate.servers.upsertAll ((listedServers steps).map (serverUpsert environmentId)) := by
  induction steps generalizing estate with
  | nil => rfl
  | cons step steps ih =>
    refine (ih _).trans ?_
    cases step <;> rfl

theorem images_applySteps :
    (applySteps runtime environmentId autoManageCompose steps estate).images =
      estate.images.upsertAll ((listedImages steps).map (imageUpsert runtime environmentId)) := by
  induction steps generalizing estate with
  | nil => rfl
  | cons step steps ih =>
    refine (ih _).trans ?_
    cases step <;> rfl

theorem services_applySteps :
    (applySteps runtime environmentId autoManageCompose steps estate).services =
      estate.services.upsertAll ((listedServices steps).map (serviceUpsert environmentId)) := by
  induction steps generalizing estate with
  | nil => rfl
  | cons step steps ih =>
    refine (ih _).trans ?_
    cases step <;> rfl

def listedUpsert (environmentId : String) (autoManageCompose : Bool) (listed : Text × ServiceData) :
    Upsert ServiceServer ServiceDeployment :=
  deploymentUpsert environmentId autoManageCompose listed.1 listed.2

theorem deployments_applySteps :
    (applySteps runtime environmentId autoManageCompose steps estate).deployments =
      estate.deployments.upsertAll ((listedDeployments steps).map
        (listedUpsert environmentId autoManageCompose)) := by
  induction steps generalizing estate with
  | nil => rfl
  | cons step steps ih =>
    refine (ih _).trans ?_
    cases step <;> rfl

theorem operationsSettings_applySteps :
    (applySteps runtime environmentId autoManageCompose steps estate).operationsSettings =
      estate.operationsSettings := by
  induction steps generalizing estate with
  | nil => rfl
  | cons step steps ih =>
    refine (ih _).trans ?_
    cases step <;> rfl

def containerWrites (environmentId : String) (steps : List ImportStep) :
    List (ServiceServer × Text) :=
  (listedDeployments steps).map fun listed ↦
    (deploymentKey environmentId listed.1 listed.2, listed.2.containerName)

def containerAfter (environmentId : String) (estate : Estate) (steps : List ImportStep)
    (key : ServiceServer) : Option Text :=
  (lastWrite key (containerWrites environmentId steps)).or
    ((estate.deployments.get key).map (·.containerName))

theorem containerName_applySteps (key : ServiceServer) :
    ((applySteps runtime environmentId autoManageCompose steps estate).deployments.get key).map
      (·.containerName) = containerAfter environmentId estate steps key := by
  rw [deployments_applySteps, OrderedMap.get_upsertAll]
  refine map_replay fun listed start ↦ ?_
  cases start <;> rfl

/-- The container name of a listed deployment belongs to another deployment on the server when its
turn comes. -/
def Clashes (environmentId : String) (estate : Estate) (steps : List ImportStep) (index : ℕ) : Prop :=
  ∃ serverName serviceData, steps[index]? = some (.deployment serverName serviceData) ∧
    ∃ other, other ≠ deploymentKey environmentId serverName serviceData ∧
      other.server = (deploymentKey environmentId serverName serviceData).server ∧
        containerAfter environmentId estate (steps.take index) other = some serviceData.containerName

/-- The statement with a number throws. -/
def Throws (runtime : Runtime) (environmentId : String) (estate : Estate) (steps : List ImportStep)
    (index : ℕ) : Prop :=
  (index < steps.length ∧ runtime.outage index) ∨ Clashes environmentId estate steps index

theorem taken_iff {key : ServiceServer} {containerName : Text} :
    estate.Taken key containerName ↔ ∃ other, other ≠ key ∧ other.server = key.server ∧
      (estate.deployments.get other).map (·.containerName) = some containerName := by
  constructor
  · rintro ⟨entry, hentry, hother, hserver, hname⟩
    refine ⟨entry.1, hother, hserver, ?_⟩
    rw [(estate.deployments.mem_entries_iff entry.1 entry.2).mp hentry, Option.map_some, hname]
  · rintro ⟨other, hother, hserver, hname⟩
    obtain ⟨row, hrow, rfl⟩ := Option.map_eq_some_iff.mp hname
    exact ⟨(other, row), (estate.deployments.mem_entries_iff other row).mpr hrow, hother, hserver, rfl⟩

theorem exists_refusesStep_iff {step : ImportStep} {progress : Progress} :
    (∃ message, refusesStep runtime environmentId autoManageCompose step progress = some message) ↔
      runtime.outage progress.statements ∨ ∃ serverName serviceData,
        step = .deployment serverName serviceData ∧ progress.estate.Taken
          (deploymentKey environmentId serverName serviceData) serviceData.containerName := by
  unfold refusesStep
  by_cases houtage : runtime.outage progress.statements
  · rw [if_pos houtage]
    exact iff_of_true ⟨_, rfl⟩ (.inl houtage)
  · rw [if_neg houtage]
    cases step with
    | deployment serverName serviceData =>
      unfold changeOf importDeployment
      dsimp only
      by_cases htaken : progress.estate.Taken (deploymentKey environmentId serverName serviceData)
        serviceData.containerName
      · rw [if_pos htaken]
        exact iff_of_true ⟨_, rfl⟩ (.inr ⟨serverName, serviceData, rfl, htaken⟩)
      · rw [if_neg htaken]
        refine iff_of_false (fun ⟨_, h⟩ ↦ absurd h nofun) ?_
        rintro (h | ⟨_, _, hstep, h⟩)
        · exact houtage h
        · obtain ⟨rfl, rfl⟩ := ImportStep.deployment.inj hstep
          exact htaken h
    | _ =>
      refine iff_of_false (fun ⟨_, h⟩ ↦ absurd h nofun) ?_
      rintro (h | ⟨_, _, hstep, _⟩)
      · exact houtage h
      · nomatch hstep

theorem stopsAt_iff {index : ℕ} :
    StopsAt (refusesStep runtime environmentId autoManageCompose)
      (nextStep runtime environmentId autoManageCompose) steps ⟨estate, 0⟩ index ↔
        Throws runtime environmentId estate steps index := by
  have hlength : index < steps.length → (steps.take index).length = index := fun h ↦ by
    rw [length_take, Nat.min_eq_left h.le]
  simp only [StopsAt, exists_and_left, stateAfter_nextStep, exists_refusesStep_iff, Throws, Clashes,
    taken_iff, containerName_applySteps, Nat.zero_add]
  constructor
  · rintro ⟨step, hstep, houtage | ⟨serverName, serviceData, rfl, htaken⟩⟩
    · obtain ⟨hindex, -⟩ := List.getElem?_eq_some_iff.mp hstep
      rw [hlength hindex] at houtage
      exact .inl ⟨hindex, houtage⟩
    · exact .inr ⟨serverName, serviceData, hstep, htaken⟩
  · rintro (⟨hindex, houtage⟩ | ⟨serverName, serviceData, hstep, htaken⟩)
    · refine ⟨steps[index], List.getElem?_eq_getElem hindex, .inl ?_⟩
      rwa [hlength hindex]
    · exact ⟨_, hstep, .inr ⟨serverName, serviceData, rfl, htaken⟩⟩

end

end

end Bridgeport.Terraform
