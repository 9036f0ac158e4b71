import Bridgeport.Foundation.SqlScripts
import Bridgeport.Foundation.Tables
import Mathlib.Data.List.Dedup

/-!
# The migration to service templates

The migration `20260525225231_service_templates_per_server_deployments` as a script: its statements
in their order, on the tables that they read and write. A service was a row for its server; it
becomes a template of its environment, and what belongs to the server moves to a new row of
`ServiceDeployment`.

Columns that are copied under their names are grouped into structures that the old and the new row
share. `foreign_keys` is off during the script, so that a `DROP TABLE` deletes nothing else, and
indexes that are not unique change no rows. The random ids are a parameter: different services get
different ones.
-/

namespace Bridgeport.Migrations

open Foundation

/-- A `REAL` column, as the bits of the number. -/
abbrev RealBits := UInt64

/-- A `DATETIME` column. -/
abbrev DateTime := String

/-- The columns of a service that belong to its server. -/
structure RuntimeColumns where
  containerName : String
  (composePath exposedPorts : Option String)
  (status containerStatus healthStatus discoveryStatus : String)
  (lastCheckedAt lastDiscoveredAt : Option DateTime)
  imageDigestId : Option String
  agentHealthSuccess : Option Bool
  (agentHealthStatusCode agentHealthDurationMs : Option ℤ)
  agentHealthCheckedAt : Option DateTime
  agentTcpCheckResults : Option String
  agentTcpCheckedAt : Option DateTime
  agentCertCheckResults : Option String
  agentCertCheckedAt : Option DateTime
  (createdAt updatedAt : DateTime)

structure TemplateColumns where
  (name imageTag : String)
  (composeTemplate healthCheckUrl : Option String)
  (healthWaitMs healthRetries healthIntervalMs : ℤ)
  (tcpChecks certChecks serviceTypeId : Option String)
  containerImageId : String
  (createdAt updatedAt : DateTime)

/-- A `Server` row. -/
structure Server where
  (id environmentId : String)

/-- A `Service` row of the previous schema. -/
structure OldService extends RuntimeColumns, TemplateColumns where
  (id serverId : String)

/-- A `ServiceDeployment` row. -/
structure ServiceDeployment extends RuntimeColumns where
  (id serviceId serverId : String)
  envOverrides : Option String
  lastDeployedAt : Option DateTime

/-- A `Service` row. -/
structure Service extends TemplateColumns where
  id : String
  baseEnv : Option String
  (deployStrategy environmentId : String)

/-- A `Deployment` row of the previous schema. -/
structure OldDeployment where
  (id imageTag : String)
  previousTag : Option String
  status : String
  logs : Option String
  triggeredBy : String
  startedAt : DateTime
  completedAt : Option DateTime
  durationMs : Option ℤ
  serviceId : String
  (userId containerImageHistoryId : Option String)

/-- A `Deployment` row. -/
structure Deployment extends OldDeployment where
  serviceDeploymentId : Option String

/-- The columns of `ServiceMetrics` but the reference. -/
structure MetricsColumns where
  id : String
  (cpuPercent memoryUsedMb memoryLimitMb networkRxMb networkTxMb blockReadMb blockWriteMb
    : Option RealBits)
  restartCount : Option ℤ
  collectedAt : DateTime

/-- A `ServiceMetrics` row of the previous schema. -/
structure OldServiceMetrics extends MetricsColumns where
  serviceId : String

/-- A `ServiceMetrics` row. -/
structure ServiceMetrics extends MetricsColumns where
  serviceDeploymentId : String

/-- A `DeploymentPlanStep` row of the previous schema. -/
structure OldDeploymentPlanStep where
  id : String
  order : ℤ
  (status action : String)
  (targetTag previousTag : Option String)
  healthPassed : Option Bool
  healthDetails : Option String
  (startedAt completedAt : Option DateTime)
  (error logs : Option String)
  deploymentPlanId : String
  (serviceId deploymentId : Option String)

/-- A `DeploymentPlanStep` row. -/
structure DeploymentPlanStep extends OldDeploymentPlanStep where
  serviceDeploymentId : Option String

/-- A `ServiceFile` row of the previous schema. -/
structure OldServiceFile where
  (id targetPath : String)
  lastSyncedAt : Option DateTime
  (serviceId configFileId : String)

/-- A `ServiceFile` row. -/
structure ServiceFile extends OldServiceFile where
  kind : String
  serviceDeploymentId : Option String

instance : Keyed Server :=
  ⟨Server.id⟩

instance : Keyed OldService :=
  ⟨OldService.id⟩

instance : Keyed OldDeployment :=
  ⟨OldDeployment.id⟩

instance : Keyed OldServiceMetrics :=
  ⟨fun row ↦ row.id⟩

instance : Keyed OldDeploymentPlanStep :=
  ⟨OldDeploymentPlanStep.id⟩

instance : Keyed OldServiceFile :=
  ⟨OldServiceFile.id⟩

/-- A database that satisfies the constraints of the previous schema. -/
structure OldDatabase where
  servers : Table Server
  services : Table OldService
  deployments : Table OldDeployment
  metrics : Table OldServiceMetrics
  steps : Table OldDeploymentPlanStep
  files : Table OldServiceFile
  service_server : ∀ service ∈ services.rows, ∃ server ∈ servers.rows, server.id = service.serverId
  service_name : (services.rows.map fun service ↦ (service.serverId, service.name)).Nodup
  service_containerName :
    (services.rows.map fun service ↦ (service.serverId, service.containerName)).Nodup
  deployment_service : ∀ row ∈ deployments.rows, ∃ service ∈ services.rows,
    service.id = row.serviceId
  metrics_service : ∀ row ∈ metrics.rows, ∃ service ∈ services.rows, service.id = row.serviceId
  step_service : ∀ row ∈ steps.rows, ∀ id ∈ row.serviceId, ∃ service ∈ services.rows,
    service.id = id
  file_service : ∀ row ∈ files.rows, ∃ service ∈ services.rows, service.id = row.serviceId
  file_configFile : (files.rows.map fun file ↦ (file.serviceId, file.configFileId)).Nodup

/-- A row of `_service_dup_check`. -/
structure DupCheckRow where
  (environmentId name : String)
  n : ℕ

/-- The tables in the course of the script. -/
structure Database where
  dupCheck : Option (List DupCheckRow)
  servers : List Server
  serviceDeployments : Option (List ServiceDeployment)
  services : Rebuild OldService Service
  deployments : Rebuild OldDeployment Deployment
  metrics : Rebuild OldServiceMetrics ServiceMetrics
  steps : Rebuild OldDeploymentPlanStep DeploymentPlanStep
  files : Rebuild OldServiceFile ServiceFile

/-- The tables before the script. -/
def OldDatabase.start (old : OldDatabase) : Database where
  dupCheck := none
  servers := old.servers.rows
  serviceDeployments := none
  services := .original old.services.rows
  deployments := .original old.deployments.rows
  metrics := .original old.metrics.rows
  steps := .original old.steps.rows
  files := .original old.files.rows

/-! ### Queries -/

/-- `"Service" s JOIN "Server" srv ON srv."id" = s."serverId"`. -/
def joinServers (servers : List Server) (services : List OldService) : List (OldService × Server) :=
  services.flatMap fun service ↦
    (servers.filter (·.id = service.serverId)).map fun server ↦ (service, server)

variable (joined : OldService × Server)

def templateKey : String × String :=
  (joined.2.environmentId, joined.1.name)

/-- The groups of the pre-check with more than one service. -/
def selectDuplicates (servers : List Server) (services : List OldService) : List DupCheckRow :=
  let keys := (joinServers servers services).map templateKey
  (keys.dedup.filter fun key ↦ 1 < keys.count key).map fun key ↦ ⟨key.1, key.2, keys.count key⟩

/-- The row of `ServiceDeployment` for a service. -/
def selectServiceDeployment (randomId : String → String) (s : OldService) : ServiceDeployment :=
  { toRuntimeColumns := s.toRuntimeColumns, id := "sd_" ++ randomId s.id, serviceId := s.id,
    serverId := s.serverId, envOverrides := none, lastDeployedAt := s.lastCheckedAt }

/-- The row of the new `Service` for a service and its server. -/
def selectService : Service :=
  { toTemplateColumns := joined.1.toTemplateColumns, id := joined.1.id, baseEnv := none,
    deployStrategy := "sequential", environmentId := joined.2.environmentId }

variable (serviceDeployments : List ServiceDeployment)

/-- `(SELECT sd."id" FROM "ServiceDeployment" sd WHERE sd."serviceId" = … LIMIT 1)`. -/
def deploymentOf (serviceId : Option String) : Option String :=
  (serviceDeployments.find? fun sd ↦ some sd.serviceId = serviceId).map (·.id)

/-- The new row for a row of `Deployment`. -/
def selectDeployment (d : OldDeployment) : Deployment :=
  { d with serviceDeploymentId := deploymentOf serviceDeployments (some d.serviceId) }

/-- The new row for a row of `ServiceMetrics`, whose reference is not null. -/
def selectMetrics (sm : OldServiceMetrics) : Except SqlError ServiceMetrics :=
  match deploymentOf serviceDeployments (some sm.serviceId) with
  | some id => .ok { toMetricsColumns := sm.toMetricsColumns, serviceDeploymentId := id }
  | none => .error (.notNull "ServiceMetrics.serviceDeploymentId")

/-- The new row for a row of `DeploymentPlanStep`. -/
def selectStep (dps : OldDeploymentPlanStep) : DeploymentPlanStep :=
  { dps with serviceDeploymentId := deploymentOf serviceDeployments dps.serviceId }

/-- The new row for a row of `ServiceFile`. -/
def selectFile (sf : OldServiceFile) : ServiceFile :=
  { sf with kind := "base", serviceDeploymentId := none }

def insertRows {Row : Type} (table : String) (id : Row → String) (rows : List Row) :
    Except SqlError (List Row) :=
  (checkUnique table (rows.map id)).map fun _ ↦ rows

inductive RebuiltTable
  | service
  | deployment
  | serviceMetrics
  | deploymentPlanStep
  | serviceFile
  deriving DecidableEq

inductive RebuildStep
  | create
  | insert
  | drop
  | rename
  deriving DecidableEq

inductive Statement
  | createDupCheck
  | insertDupCheck
  | createDupCheckIndex
  | dropDupCheckIndex
  | dropDupCheck
  | createServiceDeployment
  | insertServiceDeployment
  | rebuild (table : RebuiltTable) (step : RebuildStep)
  | createIndex (index : String)
  | createServiceNameIndex
  | createServiceFileIndex
  | createDeploymentServerIndex
  | createDeploymentContainerIndex
  deriving DecidableEq

def RebuildStep.exec {Old New : Type} (table : String)
    (select : List Old → Except SqlError (List New)) (rows : Rebuild Old New) :
    RebuildStep → Except SqlError (Rebuild Old New)
  | .create => rows.createCopy table
  | .insert => rows.fillCopy table select
  | .drop => rows.dropOriginal table
  | .rename => rows.renameCopy table

/-- The rows of `ServiceDeployment`, once it has been created. -/
def Database.deploymentRows (db : Database) : Except SqlError (List ServiceDeployment) :=
  match db.serviceDeployments with
  | some rows => .ok rows
  | none => .error (.noSuchTable "ServiceDeployment")

def execRebuild (table : RebuiltTable) (step : RebuildStep) (db : Database) :
    Except SqlError Database :=
  match table with
  | .service => (step.exec "Service" (fun rows ↦ insertRows "Service.id" (·.id)
      ((joinServers db.servers rows).map selectService)) db.services).map
        fun services ↦ { db with services }
  | .deployment => do
    let sds ← db.deploymentRows
    (step.exec "Deployment" (fun rows ↦ insertRows "Deployment.id" (·.id)
      (rows.map (selectDeployment sds))) db.deployments).map
        fun deployments ↦ { db with deployments }
  | .serviceMetrics => do
    let sds ← db.deploymentRows
    (step.exec "ServiceMetrics" (fun rows ↦ do
      let selected := rows.filter fun sm ↦ ∃ sd ∈ sds, sd.serviceId = sm.serviceId
      insertRows "ServiceMetrics.id" (·.id) (← selected.mapM (selectMetrics sds))) db.metrics).map
        fun metrics ↦ { db with metrics }
  | .deploymentPlanStep => do
    let sds ← db.deploymentRows
    (step.exec "DeploymentPlanStep" (fun rows ↦ insertRows "DeploymentPlanStep.id" (·.id)
      (rows.map (selectStep sds))) db.steps).map fun steps ↦ { db with steps }
  | .serviceFile => (step.exec "ServiceFile" (fun rows ↦ insertRows "ServiceFile.id" (·.id)
      (rows.map selectFile)) db.files).map fun files ↦ { db with files }

/-- What a unique index compares; rows with a null in it are never equal. -/
def fileKey (file : ServiceFile) : Option (String × String × String) :=
  file.serviceDeploymentId.map fun id ↦ (file.serviceId, file.configFileId, id)

/-- SQLite runs a statement, or reports why it cannot. -/
def exec (randomId : String → String) (statement : Statement) (db : Database) :
    Except SqlError Database :=
  match statement with
  | .createDupCheck => .ok { db with dupCheck := some [] }
  | .insertDupCheck =>
    match db.services with
    | .original services =>
      .ok { db with dupCheck := some (selectDuplicates db.servers services) }
    | _ => .error (.noSuchTable "Service")
  | .createDupCheckIndex =>
    (checkUnique "_service_dup_check_must_be_empty"
      ((db.dupCheck.getD []).map fun row ↦ (row.environmentId, row.name))).map fun _ ↦ db
  | .dropDupCheckIndex => .ok db
  | .dropDupCheck => .ok { db with dupCheck := none }
  | .createServiceDeployment =>
    match db.serviceDeployments with
    | none => .ok { db with serviceDeployments := some [] }
    | some _ => .error (.tableExists "ServiceDeployment")
  | .insertServiceDeployment =>
    match db.services with
    | .original services =>
      (insertRows "ServiceDeployment.id" (·.id)
        (services.map (selectServiceDeployment randomId))).map fun rows ↦
          { db with serviceDeployments := some rows }
    | _ => .error (.noSuchTable "Service")
  | .rebuild table step => execRebuild table step db
  | .createIndex _ => .ok db
  | .createServiceNameIndex => (checkUnique "Service_environmentId_name_key"
      (db.services.newRows.map fun row ↦ (row.environmentId, row.name))).map fun _ ↦ db
  | .createServiceFileIndex =>
    (checkUnique "ServiceFile_serviceId_configFileId_serviceDeploymentId_key"
      (db.files.newRows.filterMap fileKey)).map fun _ ↦ db
  | .createDeploymentServerIndex => (checkUnique "ServiceDeployment_serviceId_serverId_key"
      ((db.serviceDeployments.getD []).map fun row ↦ (row.serviceId, row.serverId))).map fun _ ↦ db
  | .createDeploymentContainerIndex =>
    (checkUnique "ServiceDeployment_serverId_containerName_key"
      ((db.serviceDeployments.getD []).map fun row ↦ (row.serverId, row.containerName))).map
        fun _ ↦ db

/-! ### The script -/

def preCheck : List Statement :=
  [.createDupCheck, .insertDupCheck, .createDupCheckIndex, .dropDupCheckIndex, .dropDupCheck]

def rebuildOf (table : RebuiltTable) : List Statement :=
  [.rebuild table .create, .rebuild table .insert, .rebuild table .drop, .rebuild table .rename]

/-- The statements behind the check, up to the index that needs different names. -/
def newServices : List Statement :=
  [.createServiceDeployment, .insertServiceDeployment] ++ rebuildOf .service

def newReferences : List Statement :=
  rebuildOf .deployment ++
    [.createIndex "Deployment_serviceId_startedAt_idx",
      .createIndex "Deployment_serviceDeploymentId_startedAt_idx"] ++
    rebuildOf .serviceMetrics ++
    [.createIndex "ServiceMetrics_serviceDeploymentId_collectedAt_idx"] ++
    rebuildOf .deploymentPlanStep ++
    [.createIndex "DeploymentPlanStep_deploymentPlanId_order_idx"] ++
    rebuildOf .serviceFile ++
    [.createIndex "ServiceFile_serviceDeploymentId_idx", .createServiceFileIndex,
      .createIndex "ServiceDeployment_serverId_idx", .createIndex "ServiceDeployment_serviceId_idx",
      .createDeploymentServerIndex, .createDeploymentContainerIndex]

def script : List Statement :=
  preCheck ++ newServices ++ .createServiceNameIndex :: newReferences

end Bridgeport.Migrations
