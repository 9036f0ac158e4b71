import Bridgeport.ConfigSync.SyncConfigFile
import Bridgeport.Foundation.Program
import Bridgeport.Foundation.Trimming

/-!
# Bootstrapping a server

`runBootstrap` of `services/bootstrap.ts` with its installers, the lock that it takes and gives
back, and the `POST /api/servers/:id/bootstrap` route of `routes/servers.ts`, which takes the lock
before it starts a run in the background.

The set of running bootstraps is read and written by calls of their own: what stands between two
calls runs without interruption. Scripts are named by what they do. Progress lines, the time of a
write and the check of a request's body are left out; a size is an integer, as that check demands.
-/

namespace Bridgeport.Bootstrap

open ConfigSync (isTrimmed)
open Foundation Program

/-! ### Data -/

/-- What is read of a server row. -/
structure Server where
  (id name hostname environmentId serverType : String)
  bootstrapDistro : Option String

/-- `BootstrapComponents`; a component that is absent is not requested. -/
structure BootstrapComponents where
  (docker sysctl agent swap : Bool)

/-- The actor of an audit entry. -/
structure Actor where
  (userId apiTokenId serviceAccountId : Option String)

/-- `BootstrapOptions` without `_lockHeldByCaller`. -/
structure BootstrapOptions where
  components : BootstrapComponents
  swapSizeMb : Option ℤ
  actor : Actor

structure ComponentResult where
  success : Bool
  error : Option String

/-- The components of a `BootstrapResult`. -/
structure ComponentResults where
  (docker sysctl agent swap : Option ComponentResult)

/-- `{}`. -/
def ComponentResults.none : ComponentResults :=
  ⟨.none, .none, .none, .none⟩

def ComponentResults.values (results : ComponentResults) : List ComponentResult :=
  [results.docker, results.sysctl, results.agent, results.swap].filterMap id

structure BootstrapResult where
  success : Bool
  error : Option String
  components : ComponentResults

/-- A run that ends before the components. -/
def BootstrapResult.failed (error : Option String) : BootstrapResult :=
  ⟨false, error, .none⟩

/-- `BOOTSTRAP_STATE`, without the state of a row that no run has written. -/
inductive BootstrapState
  | bootstrapped
  | error

inductive ServerUpdate
  | bootstrapState (state : BootstrapState)
  | bootstrapDistro (raw : String)
  | dockerInstalled
  | sysctlApplied
  | swapConfigured (swapSizeMb : Option ℤ)
  | agentInstalled

inductive AuditDetails
  | start (components : BootstrapComponents) (swapSizeMb : Option ℤ)
  | error (components : BootstrapComponents) (message : String)
  | distro (raw : String) (components : BootstrapComponents)
  | sudo (components : BootstrapComponents) (sudoError : Option String)
  | finished (components : BootstrapComponents) (results : ComponentResults)
      (distro : Option String) (swapSizeMb : Option ℤ)

/-- What is written to the audit log of a server. -/
structure AuditEntry where
  (action resourceId resourceName : String)
  details : AuditDetails
  success : Bool
  error : Option String
  environmentId : String
  actor : Actor

/-- A script of `lib/bootstrap-scripts.ts`, or the command that lists the swap files. -/
inductive Script
  | distroDetect
  | sudoPreflight
  | dockerInstall
  | sysctl
  | swap (sizeMb : ℤ)
  | swapon

/-- What a command returns. -/
structure ExecResult where
  (stdout stderr : String)
  code : ℤ

/-- The calls of the functions. `addRunning` is the entry of `runBootstrap`: it reads whether the
server is in `runningBootstraps` and adds it. `deleteRunning` is `runningBootstraps.delete` in
`runBootstrap`, and `releaseBootstrapLock` the same in the route. -/
inductive Call
  | addRunning (serverId : String)
  | deleteRunning (serverId : String)
  | tryAcquireBootstrapLock (serverId : String)
  | releaseBootstrapLock (serverId : String)
  | findServer (id : String)
  | updateServer (id : String) (data : ServerUpdate)
  | createAuditLog (entry : AuditEntry)
  | createClientForServer (hostname environmentId serverType : String)
  | connect
  | exec (script : Script)
  | execStream (script : Script)
  | disconnect
  | deployAgent (serverId : String)

/-- The answers to the calls: `addRunning` whether it has added the server, and
`createClientForServer` the error if there is no client. -/
@[reducible]
def Answer : Call → Type
  | .addRunning _ => Bool
  | .deleteRunning _ => Unit
  | .tryAcquireBootstrapLock _ => Bool
  | .releaseBootstrapLock _ => Unit
  | .findServer _ => Option Server
  | .updateServer _ _ => Unit
  | .createAuditLog _ => Unit
  | .createClientForServer _ _ _ => Except (Option String) Unit
  | .connect => Unit
  | .exec _ => ExecResult
  | .execStream _ => ℤ
  | .disconnect => Unit
  | .deployAgent _ => ComponentResult

/-- Asynchronous code over these calls. -/
abbrev Async := Program Answer

def await (request : Call) : Async (Answer request) :=
  perform request

/-- `logAudit`: a service account that is given as a user is named as what it is, and a log that
cannot be written does not fail the operation. -/
def logAudit (entry : AuditEntry) : Async Unit :=
  let userId := entry.actor.userId.filter fun id ↦ ¬ "sa:".toList <+: id.toList
  let accountId := (entry.actor.userId.filter fun id ↦ "sa:".toList <+: id.toList).map
    fun id ↦ String.ofList (id.toList.drop 3)
  let actor := { entry.actor with
    userId, serviceAccountId := entry.actor.serviceAccountId.or accountId }
  (await (.createAuditLog { entry with actor })).tryCatch fun _ ↦ pure ()

/-! ### Inspectors -/

/-- `SUPPORTED_DISTROS`. -/
def supportedDistros : List String :=
  ["ubuntu", "debian"]

/-- What `detectDistro` returns. -/
structure DistroResult where
  distro : Option String
  supported : Bool
  raw : String

/-- `text.trim()`. -/
def trim (text : String) : String :=
  String.ofList (trimBoth isTrimmed text.toList)

variable (serverId : String)

def detectDistro (cachedDistro : Option String) : Async DistroResult := do
  let result ← await (.exec .distroDetect)
  let raw := trim result.stdout
  if raw = "" then return ⟨none, false, raw⟩
  else
    let id := String.ofList (raw.toList.takeWhile (· ≠ ':'))
    when (some raw ≠ cachedDistro) (await (.updateServer serverId (.bootstrapDistro raw)))
    return ⟨some id, id ∈ supportedDistros, raw⟩

/-- The text contains the pattern, whatever the case of the Latin letters. -/
def includesIgnoringCase (pattern text : String) : Bool :=
  pattern.toList <:+: text.toList.map Char.toLower

/-- The error of `preflightSudo` for the output of the command. -/
def sudoError (combined : String) : String :=
  if includesIgnoringCase "password is required" combined ∨
      includesIgnoringCase "terminal is required" combined then
    "Passwordless sudo is required. Configure the SSH user with NOPASSWD in /etc/sudoers, " ++
      "or use the root account."
  else if combined = "" then "sudo preflight failed"
  else combined

/-- `preflightSudo`, with the error if there is one. -/
def preflightSudo : Async (Option String) := do
  let result ← await (.exec .sudoPreflight)
  if result.code = 0 then return none
  else return some (sudoError (trim (result.stderr ++ result.stdout)))

/-! ### Component installers -/

/-- A script whose output is streamed, with the name of what it does. -/
def runScript (script : Script) (name : String) : Async ComponentResult := do
  let code ← await (.execStream script)
  if code ≠ 0 then return ⟨false, some (name ++ " exited with code " ++ toString code)⟩
  else return ⟨true, none⟩

def installDocker : Async ComponentResult :=
  runScript .dockerInstall "Docker install"

def applySysctl : Async ComponentResult :=
  runScript .sysctl "sysctl apply"

/-- `SWAP_MIN_MB`. -/
def swapMinMb : ℤ :=
  128

/-- `SWAP_MAX_MB`. -/
def swapMaxMb : ℤ :=
  65536

def configureSwap (sizeMb : ℤ) : Async ComponentResult :=
  if sizeMb < swapMinMb ∨ sizeMb > swapMaxMb then
    pure ⟨false, some ("swap size " ++ toString sizeMb ++ "MB outside allowed range " ++
      toString swapMinMb ++ "-" ++ toString swapMaxMb ++ "MB")⟩
  else runScript (.swap sizeMb) "swap configure"

def endsLine (character : Char) : Bool :=
  character.toNat ∈ [0xa, 0xd, 0x2028, 0x2029]

/-- `/^\/swapfile\s/m.test(text)`: `begins` says whether the text stands at the beginning of a
line. -/
def listsSwapfile (begins : Bool) : List Char → Bool
  | [] => false
  | first :: rest =>
    (begins && "/swapfile".toList.isPrefixOf (first :: rest) &&
      ((first :: rest)[9]?).any isTrimmed) || listsSwapfile (endsLine first) rest

/-! ### The orchestrator -/

/-- How the block that uses the client ends: with a result, with an exception and the results of the
components so far, or with all of their results. -/
inductive ClientEnd
  | returned (result : BootstrapResult)
  | threw (message : String) (results : ComponentResults)
  | finished (results : ComponentResults)

/-- A part of the block, and what follows it. -/
def attempt {α : Type} (results : ComponentResults) (program : Async α)
    (next : α → Async ClientEnd) : Async ClientEnd :=
  program.resume fun
    | .ok value => next value
    | .error message => pure (.threw message results)

def unsupportedDistro (raw : String) : String :=
  "Unsupported distro: " ++ (if raw = "" then "unknown" else raw) ++
    ". Bootstrap supports Ubuntu and Debian only. See docs/guides/server-bootstrap.md."

section

variable (serverId : String) (server : Server) (opts : BootstrapOptions)

/-- The end of a run that has failed: the state of the server and the audit entry. -/
def finalizeError (message : String) (details : AuditDetails) : Async Unit := do
  await (.updateServer serverId (.bootstrapState .error))
  logAudit
    { action := "bootstrap", resourceId := server.id, resourceName := server.name, details
      success := false, error := some message, environmentId := server.environmentId
      actor := opts.actor }

/-- The checks before the components, with the result if the run ends there. -/
def checkServer : Async (Option BootstrapResult) := do
  await .connect
  let distroResult ← detectDistro serverId server.bootstrapDistro
  if ¬ distroResult.supported then
    let msg := unsupportedDistro distroResult.raw
    finalizeError serverId server opts msg (.distro distroResult.raw opts.components)
    return some (.failed (some msg))
  else
    let sudoError ← preflightSudo
    match sudoError with
    | none => return none
    | some error =>
      finalizeError serverId server opts error (.sudo opts.components (some error))
      return some (.failed (some error))

/-- A component: it is installed, `record` writes its result, and the row tells that it has
succeeded. -/
def runComponent (install : Async ComponentResult) (data : ServerUpdate)
    (record : ComponentResult → ComponentResults) (results : ComponentResults)
    (next : ComponentResults → Async ClientEnd) : Async ClientEnd :=
  attempt results install fun result ↦
    attempt (record result) (when result.success (await (.updateServer serverId data))) fun _ ↦
      next (record result)

variable (results : ComponentResults) (next : ComponentResults → Async ClientEnd)

def runDocker : Async ClientEnd :=
  if opts.components.docker then
    runComponent serverId installDocker .dockerInstalled
      (fun result ↦ { results with docker := some result }) results next
  else next results

def runSysctl : Async ClientEnd :=
  if opts.components.sysctl then
    runComponent serverId applySysctl .sysctlApplied
      (fun result ↦ { results with sysctl := some result }) results next
  else next results

def runSwap : Async ClientEnd :=
  if opts.components.swap then
    match opts.swapSizeMb.filter (· ≠ 0) with
    | none =>
      next { results with
        swap := some ⟨false, some "swapSizeMb is required when swap is enabled"⟩ }
    | some swapSizeMb =>
      attempt results (await (.exec .swapon)) fun swaponRes ↦
        -- a swap file that is already there keeps its size
        let swapAlreadyOn := listsSwapfile true swaponRes.stdout.toList
        runComponent serverId (configureSwap swapSizeMb)
          (.swapConfigured (if swapAlreadyOn then none else some swapSizeMb))
          (fun result ↦ { results with swap := some result }) results next
  else next results

def runOnClient : Async ClientEnd :=
  attempt .none (checkServer serverId server opts) fun
    | some result => pure (.returned result)
    | none =>
      runDocker serverId opts .none fun results ↦
        runSysctl serverId opts results fun results ↦
          runSwap serverId opts results fun results ↦ pure (.finished results)

/-- The `catch` block behind it. -/
def catchClient : ClientEnd → Async (BootstrapResult ⊕ ComponentResults)
  | .returned result => pure (.inl result)
  | .finished results => pure (.inr results)
  | .threw message results => do
    finalizeError serverId server opts message (.error opts.components message)
    return .inl ⟨false, some message, results⟩

def runAgent : Async ComponentResults :=
  if opts.components.agent then do
    let result ← await (.deployAgent serverId)
    when result.success (await (.updateServer serverId .agentInstalled))
    return { results with agent := some result }
  else pure results

/-- The end of a run whose components have all been run. -/
def finishBootstrap : Async BootstrapResult := do
  let failed := results.values.any fun result ↦ ¬ result.success
  await (.updateServer serverId (.bootstrapState (if failed then .error else .bootstrapped)))
  logAudit
    { action := "bootstrap", resourceId := server.id, resourceName := server.name
      details := .finished opts.components results server.bootstrapDistro opts.swapSizeMb
      success := ¬ failed
      error := if failed then some "one or more components failed" else none
      environmentId := server.environmentId, actor := opts.actor }
  return ⟨¬ failed, none, results⟩

/-- The block of `runBootstrap` behind which the lock is released. -/
def bootstrapServer : Async BootstrapResult := do
  let client ← await (.createClientForServer server.hostname server.environmentId server.serverType)
  match client with
  | .error clientError =>
    let msg := clientError.getD "no client"
    finalizeError serverId server opts msg (.error opts.components msg)
    return .failed clientError
  | .ok _ =>
    let ended ← (do
      let clientEnd ← runOnClient serverId server opts
      catchClient serverId server opts clientEnd).tryFinally (await .disconnect)
    match ended with
    | .inl result => return result
    | .inr results =>
      let results ← runAgent serverId opts results
      finishBootstrap serverId server opts results

end

/-- `runBootstrap` behind its entry. -/
def runAdmitted (opts : BootstrapOptions) : Async BootstrapResult := do
  let server ← await (.findServer serverId)
  match server with
  | none =>
    await (.deleteRunning serverId)
    return .failed (some "Server not found")
  | some server =>
    (bootstrapServer serverId server opts).tryFinally (await (.deleteRunning serverId))

def runBootstrap (opts : BootstrapOptions) (lockHeldByCaller : Bool) : Async BootstrapResult := do
  let acquiredHere ← await (.addRunning serverId)
  if ¬ acquiredHere ∧ ¬ lockHeldByCaller then
    return .failed (some "Bootstrap already running for this server")
  else runAdmitted serverId opts

inductive Reply
  | started
  | conflict (message : String)
  | notFound (message : String)

/-- `POST /api/servers/:id/bootstrap`, with the run that it starts in the background. -/
def startBootstrap (id : String) (opts : BootstrapOptions) : Async Reply := do
  let server ← await (.findServer id)
  match server with
  | none => return .notFound "Server not found"
  | some server =>
    let acquired ← await (.tryAcquireBootstrapLock id)
    if ¬ acquired then return .conflict "Bootstrap already running for this server"
    else
      (logAudit
        { action := "bootstrap_start", resourceId := server.id, resourceName := server.name
          details := .start opts.components opts.swapSizeMb, success := true, error := none
          environmentId := server.environmentId, actor := opts.actor }).tryCatch fun err ↦ do
        await (.releaseBootstrapLock id)
        throw err
      (do
        let _ ← runBootstrap id opts true
        return ()).tryCatch fun _ ↦ await (.releaseBootstrapLock id)
      return .started

end Bridgeport.Bootstrap
