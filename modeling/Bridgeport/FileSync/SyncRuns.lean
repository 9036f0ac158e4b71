import Bridgeport.ConfigSync.Placement
import Bridgeport.FileHistory.ContentWriters

/-!
# Runs of file syncs

Three routes write config files to the hosts: the sync of a service, the sync of a server, and
`syncConfigFileToAttachedServices`. Each of them reads the files with its first query, picks for
every deployment the attachments that apply, and then pushes one target after the other: it makes
the directory, renders the file, writes it, and records the time in the row of the attachment
(`pushFile`). `ConfigSync` has the last sync as a function of what goes wrong in it; here the edits
of other requests go on between its steps.

The edits of config files are those of `FileHistory`; a PATCH of a fragment does not touch the files
that include it. `fileSyncStatus` is what the list of config files reports.
-/

namespace Bridgeport.FileSync

open ConfigSync (FragmentInput Server ServiceFileRow composeFragmentedContent trimEnd)
open Foundation Program
open Secrets (Resolution Text)

structure FragmentRow where
  id : String
  (name content : Text)

instance : Keyed FragmentRow :=
  ⟨FragmentRow.id⟩

structure FragmentBody where
  (name content : Option Text)

def FragmentBody.apply (body : FragmentBody) (row : FragmentRow) : FragmentRow :=
  { row with name := body.name.getD row.name, content := body.content.getD row.content }

structure Deployment where
  (id serviceId : String)
  server : Server

/-- A config file with its fragments, as the queries of the syncs read it. -/
structure IncludedFile where
  name : String
  content : Text
  isBinary : Bool
  language : Option String
  includedFragments : List FragmentInput

structure AttachedFile where
  row : ServiceFileRow
  configFile : IncludedFile

/-- What a write is made from: the own content of a file and the contents of its fragments. -/
structure Source where
  content : Text
  fragments : List Text
  deriving DecidableEq

def AttachedFile.source (file : AttachedFile) : Source :=
  ⟨file.configFile.content, file.configFile.includedFragments.map (·.content)⟩

/-- What the sync of a service reads. -/
structure ServiceSnapshot where
  name : String
  files : List AttachedFile
  serviceDeployments : List Deployment

structure PlacedService where
  deployment : Deployment
  serviceName : String
  files : List AttachedFile

/-- What the sync of a server reads. -/
structure ServerSnapshot where
  server : Server
  serviceDeployments : List PlacedService

structure AttachedService where
  row : ServiceFileRow
  serviceName : String
  serviceDeployments : List Deployment
  serviceDeployment : Option Deployment

/-- What `syncConfigFileToAttachedServices` reads. -/
structure FileSnapshot where
  configFile : IncludedFile
  services : List AttachedService

/-- The answer of `createClientForServer`. -/
inductive ClientAnswer
  | client
  | unavailable (error : Option String)

/-- What is written to a host file: the bytes of a base64 text, or a text. -/
inductive HostContent
  | base64 (content : Text)
  | utf8 (content : Text)

/-- What the routes await. A write goes to the target path of the attachment; the deployment and the
file that it is made from are not part of what the host sees. -/
inductive Call
  | edit (request : FileHistory.Call)
  | findFragment (id : String)
  | updateFragment (id : String) (body : FragmentBody)
  | findService (id : String)
  | findServer (id : String)
  | findFileTargets (id : String)
  | createClient (serverId : String)
  | connect (serverId : String)
  | makeDirectory (serverId targetPath : String)
  | resolvePlaceholders (environmentId : String) (content : Text)
  | writeFile (serverId deploymentId : String) (file : AttachedFile) (content : HostContent)
  | now
  | recordSync (row : ServiceFileRow) (time : ℕ)
  | disconnect (serverId : String)
  | createAuditLog (action resourceId : String)

def Answer : Call → Type
  | .edit request => FileHistory.Answer request
  | .findFragment _ => Option FragmentRow
  | .updateFragment _ _ => FragmentRow
  | .findService _ => Option ServiceSnapshot
  | .findServer _ => Option ServerSnapshot
  | .findFileTargets _ => Option FileSnapshot
  | .createClient _ => ClientAnswer
  | .connect _ => Unit
  | .makeDirectory _ _ => Unit
  | .resolvePlaceholders _ _ => Resolution
  | .writeFile _ _ _ _ => Unit
  | .now => ℕ
  | .recordSync _ _ => Unit
  | .disconnect _ => Unit
  | .createAuditLog _ _ => Unit

abbrev Async := Program Answer

abbrev await (request : Call) : Async (Answer request) := perform request

/-- `logAudit`: a log that cannot be written does not fail the request. -/
def logAudit (action resourceId : String) : Async Unit :=
  (await (.createAuditLog action resourceId)).tryCatch fun _ ↦ pure ()

/-! ### One target -/

structure Target where
  (serviceName deploymentId : String)
  file : AttachedFile

structure SyncResult where
  (serviceName serverName fileName targetPath : String)
  success : Bool
  error : Option String

variable (server : Server) (target : Target)

def resultFor (error : Option String) : SyncResult where
  serviceName := target.serviceName
  serverName := server.name
  fileName := target.file.configFile.name
  targetPath := target.file.row.targetPath
  success := error.isNone
  error := error

def renderFile (configFile : IncludedFile) : Async (Except String HostContent) :=
  if configFile.isBinary then pure (.ok (.base64 configFile.content))
  else do
    let resolution ← await (.resolvePlaceholders server.environmentId
      (composeFragmentedContent configFile.includedFragments configFile.content configFile.language))
    if resolution.templateErrors.length > 0 then
      pure (.error ("Template errors: " ++ "; ".intercalate resolution.templateErrors))
    else if resolution.missing.length > 0 then
      pure (.error ("Missing secrets: " ++ ", ".intercalate (resolution.missing.map String.ofList)))
    else pure (.ok (.utf8 (trimEnd resolution.content)))

def writeTarget (content : HostContent) : Async SyncResult := do
  let failure ← Program.tryCatch (do
      await (.writeFile server.id target.deploymentId target.file content)
      pure none)
    fun message ↦ pure (some message)
  match failure with
  | some message =>
    pure (resultFor server target (some (if message = "" then "Failed to write file" else message)))
  | none =>
    let time ← await .now
    await (.recordSync target.file.row time)
    pure (resultFor server target none)

def pushFile : Async SyncResult :=
  Program.tryCatch (do
    await (.makeDirectory server.id target.file.row.targetPath)
    let rendered ← renderFile server target.file.configFile
    match rendered with
    | .error message => pure (resultFor server target (some message))
    | .ok content => writeTarget server target content)
  fun message ↦ pure (resultFor server target (some message))

def pushFiles (server : Server) : List Target → Async (List SyncResult)
  | [] => pure []
  | target :: rest => do
    let result ← pushFile server target
    let results ← pushFiles server rest
    pure (result :: results)

def pushGroup (noClient : String) (server : Server) (targets : List Target) :
    Async (List SyncResult) := do
  let answer ← await (.createClient server.id)
  match answer with
  | .unavailable error =>
    pure (targets.map fun target ↦
      resultFor server target (some ((error.filter (· ≠ "")).getD noClient)))
  | .client =>
    let results ← Program.tryCatch (do
        await (.connect server.id)
        pushFiles server targets)
      fun message ↦ pure (targets.map fun target ↦ resultFor server target (some message))
    await (.disconnect server.id)
    pure results

def pushGroups (noClient : String) : List (Server × List Target) → Async (List SyncResult)
  | [] => pure []
  | (server, targets) :: rest => do
    let results ← pushGroup noClient server targets
    let more ← pushGroups noClient rest
    pure (results ++ more)

/-! ### Targets -/

/-- One attachment enters the map of the files of a deployment: an override row of the deployment
replaces what is there, and a base row is taken if nothing is there. -/
def pickFile (deploymentId : String) (filesByConfig : OrderedMap String AttachedFile)
    (file : AttachedFile) : OrderedMap String AttachedFile :=
  if file.row.serviceDeploymentId = some deploymentId then
    filesByConfig.set file.row.configFileId file
  else if file.row.serviceDeploymentId = none ∧
      (filesByConfig.get file.row.configFileId).isNone then
    filesByConfig.set file.row.configFileId file
  else filesByConfig

def filesByConfig (deploymentId : String) (files : List AttachedFile) : List AttachedFile :=
  (files.foldl (pickFile deploymentId) OrderedMap.empty).entries.map Prod.snd

def targetsOf (serviceName : String) (deploymentId : String) (files : List AttachedFile) :
    List Target :=
  (filesByConfig deploymentId files).map fun file ↦ ⟨serviceName, deploymentId, file⟩

def expandPairs (snapshot : FileSnapshot) : List (Server × Target) :=
  ConfigSync.expandRows AttachedService.serviceDeployment AttachedService.serviceDeployments
    Deployment.id (fun sf deployment ↦
      (deployment.server, ⟨sf.serviceName, deployment.id, ⟨sf.row, snapshot.configFile⟩⟩))
    snapshot.services

def groupOf (group : List (Server × Target)) : Option (Server × List Target) :=
  group.head?.map fun first ↦ (first.1, group.map Prod.snd)

def serverGroups (snapshot : FileSnapshot) : List (Server × List Target) :=
  ((OrderedMap.groupBy (·.1.id) (expandPairs snapshot)).entries.map Prod.snd).filterMap groupOf

/-! ### Routes -/

inductive Reply
  | edited (reply : FileHistory.Reply)
  | fragment (row : FragmentRow)
  | noTargets
  | synced (results : List SyncResult)
  | error (code : ℕ) (message : String)

/-- `POST /api/services/:id/sync-files`. -/
def syncServiceFiles (id : String) : Async Reply := do
  let found ← await (.findService id)
  match found with
  | none => pure (.error 404 "Service not found")
  | some service =>
    if service.files = [] ∨ service.serviceDeployments = [] then do
      logAudit "sync_files" id
      pure .noTargets
    else do
      let results ← pushGroups "Failed to create client" (service.serviceDeployments.map
        fun deployment ↦ (deployment.server, targetsOf service.name deployment.id service.files))
      logAudit "sync_files" id
      pure (.synced results)

/-- `POST /api/servers/:serverId/sync-all-files`. -/
def syncAllFiles (serverId : String) : Async Reply := do
  let found ← await (.findServer serverId)
  match found with
  | none => pure (.error 404 "Server not found")
  | some snapshot =>
    let serviceFilesToSync := snapshot.serviceDeployments.flatMap fun placed ↦
      targetsOf placed.serviceName placed.deployment.id placed.files
    if serviceFilesToSync = [] then do
      logAudit "sync_files" serverId
      pure .noTargets
    else do
      let answer ← await (.createClient serverId)
      match answer with
      | .unavailable error =>
        pure (.error 400 ((error.filter (· ≠ "")).getD "Failed to create SSH client"))
      | .client =>
        let results ← Program.tryCatch (do
            await (.connect serverId)
            let results ← pushFiles snapshot.server serviceFilesToSync
            pure (Except.ok results))
          fun message ↦ pure (.error message)
        await (.disconnect serverId)
        match results with
        | .error message => pure (.error 500 message)
        | .ok results =>
          logAudit "sync_files" serverId
          pure (.synced results)

def syncConfigFileToAttachedServices (id : String) : Async Reply := do
  let found ← await (.findFileTargets id)
  match found with
  | none => pure (.error 404 "Config file not found")
  | some snapshot =>
    if snapshot.services = [] then pure .noTargets
    else do
      let results ← pushGroups "Failed to create SSH client" (serverGroups snapshot)
      pure (.synced results)

/-- `PATCH /api/config-fragments/:id`; the resync that it starts is a run of its own. -/
def patchFragment (isUniqueConstraintError isPrismaNotFoundError : String → Bool) (id : String)
    (body : FragmentBody) : Async Reply :=
  Program.tryCatch (do
    let existing ← await (.findFragment id)
    match existing with
    | none => pure (.error 404 "Config fragment not found")
    | some _ =>
      let fragment ← await (.updateFragment id body)
      logAudit "update" fragment.id
      pure (.fragment fragment))
  fun message ↦
    if isUniqueConstraintError message then
      pure (.error 409 "Fragment with this name already exists")
    else if isPrismaNotFoundError message then pure (.error 404 "Config fragment not found")
    else throw message

inductive Request
  | edit (request : FileHistory.Request) (editedById : Option String)
  | patchFragment (id : String) (body : FragmentBody)
  | syncService (id : String)
  | syncServer (id : String)
  | syncConfigFile (id : String)

def handle (isUniqueConstraintError isPrismaNotFoundError : String → Bool) : Request → Async Reply
  | .edit request editedById => do
    let reply ← (FileHistory.handle isPrismaNotFoundError editedById request).lift Call.edit
    pure (.edited reply)
  | .patchFragment id body =>
    FileSync.patchFragment isUniqueConstraintError isPrismaNotFoundError id body
  | .syncService id => syncServiceFiles id
  | .syncServer id => syncAllFiles id
  | .syncConfigFile id => syncConfigFileToAttachedServices id

/-- `syncStatus` in the list of config files. -/
inductive FileSyncStatus
  | synced
  | pending
  | never
  | notAttached

/-- The status of a file from the times of its attachments and its own time. -/
def fileSyncStatus (lastSyncedAts : List (Option ℕ)) (updatedAt : ℕ) : FileSyncStatus :=
  if lastSyncedAts.length > 0 then
    let neverSyncedCount := lastSyncedAts.countP (·.isNone)
    let pendingCount := lastSyncedAts.countP fun lastSyncedAt ↦ lastSyncedAt.any (· < updatedAt)
    if neverSyncedCount = lastSyncedAts.length then .never
    else if pendingCount > 0 ∨ neverSyncedCount > 0 then .pending
    else .synced
  else .notAttached

end Bridgeport.FileSync
