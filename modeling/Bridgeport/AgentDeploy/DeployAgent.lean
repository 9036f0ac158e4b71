import Bridgeport.Bootstrap.BootstrapService
import Bridgeport.Registries.RegistryLogin
import Bridgeport.Ssh.ConnectionPool

/-!
# Installing and removing the monitoring agent

`deployAgent` and `removeAgent` of `services/agent-deploy.ts` for one server. The token that the agent
pushes with is in the row of the server and in the unit file that `deployAgent` writes on its host;
`deployAgent` reads the row once, at first.

A call on the database that throws has no effect. A command or a file transfer that throws may have
had its effect or not: `lands` tells the two apart by the message. Commands are named by what they
run; the times of the status and the `disconnect` of the client are left out.

A deployment that settles has logged its end and left the status (`DeployEnds`), unless it has been
cut off: by a missing key or binary, which `deployAgent` answers without an event, or by a log or a
status that cannot be written.
-/

namespace Bridgeport.AgentDeploy

open Bootstrap (ExecResult trim)
open Foundation Program
open Registries (truthy)
open Secrets (Text)
open Ssh (isLocalhost)

/-! ### Data -/

/-- `AGENT_STATUS`. -/
inductive AgentStatus
  | unknown
  | deploying
  | waiting
  | active
  | stale
  | offline

/-- `METRICS_MODE`. -/
inductive MetricsMode
  | ssh
  | agent
  | disabled

/-- What is read and written of a server row. -/
structure Server where
  (hostname environmentId : String)
  agentToken : Option String
  agentStatus : AgentStatus
  metricsMode : MetricsMode

/-- The events of a deployment among those of `AgentEventType`. -/
inductive AgentEventType
  | deployStarted
  | deploySuccess
  | deployFailed
  deriving DecidableEq

/-- An event in the log of the agent; its details are the callback URL. -/
structure AgentEvent where
  eventType : AgentEventType
  (message serverUrl : String)

/-- The unit file, as the values that are put into its text. -/
structure ServiceFile where
  (serverUrl agentToken : String)

/-- The result of `getEnvironmentSshKey`. -/
structure SshCredentials where
  (privateKey username : String)

/-- `CommandClient`. -/
inductive CommandClient
  | local
  | ssh (hostname username privateKey : String)

inductive Command
  /-- `systemctl stop bridgeport-agent`, whatever its outcome. -/
  | stopService
  /-- `rm -f` of the temporary file. -/
  | clearTemp
  /-- `printf` of a chunk to the temporary file. -/
  | appendChunk (chunk : Text)
  /-- `base64 -d` of the temporary file to the binary, `chmod`, and `rm -f` of it. -/
  | install
  /-- `systemctl daemon-reload`, `enable` and `restart`. -/
  | startService
  /-- `systemctl is-active bridgeport-agent`. -/
  | isActive
  /-- `journalctl -u bridgeport-agent -n 20 --no-pager`. -/
  | journal
  /-- `systemctl disable bridgeport-agent`, whatever its outcome. -/
  | disableService
  /-- `rm -f` of the unit file. -/
  | removeService
  /-- `rm -f` of the binary. -/
  | removeBinary
  /-- `systemctl daemon-reload`. -/
  | daemonReload

/-- What both functions return. -/
structure DeployResult where
  success : Bool
  error : Option String

def DeployResult.failure (error : String) : DeployResult :=
  ⟨false, some error⟩

/-- The calls of the two functions. `markDeployed` sets the agent mode and the status `waiting`;
`markRemoved` disables metrics and clears the token. -/
inductive Call
  | findServer
  | agentCallbackUrl
  | generateAgentToken
  | updateToken (agentToken : String)
  | updateStatus (agentStatus : AgentStatus)
  | logAgentEvent (event : AgentEvent)
  | getEnvironmentSshKey (environmentId : String)
  | readAgentBinary
  | connect (client : CommandClient)
  | exec (client : CommandClient) (command : Command)
  | writeFile (client : CommandClient) (file : ServiceFile)
  | markDeployed
  | markRemoved

/-- What the calls return. The binary is read as the text of its base64 encoding. -/
@[reducible]
def Answer : Call → Type
  | .findServer => Option Server
  | .agentCallbackUrl => Option String
  | .generateAgentToken => String
  | .getEnvironmentSshKey _ => Option SshCredentials
  | .readAgentBinary => Text
  | .exec _ _ => ExecResult
  | .updateToken _ | .updateStatus _ | .logAgentEvent _ | .connect _ | .writeFile _ _
  | .markDeployed | .markRemoved => Unit

/-- Asynchronous code over these calls. -/
abbrev Async := Program Answer

abbrev await (request : Call) : Async (Answer request) := perform request

/-! ### Deployment -/

variable (bridgeportUrl : Option String)

/-- The URL that is given, or that of the system settings. -/
def callbackUrl : Async (Option String) :=
  match truthy bridgeportUrl with
  | some url => pure (some url)
  | none => do
    let url ← await .agentCallbackUrl
    pure (truthy url)

/-- The token of the row, or a new one that is written to it. -/
def ensureToken (agentToken : Option String) : Async String :=
  match truthy agentToken with
  | some token => pure token
  | none => do
    let token ← await .generateAgentToken
    await (.updateToken token)
    pure token

def createClient (server : Server) : Async (Option CommandClient) :=
  if isLocalhost server.hostname then pure (some .local)
  else do
    let sshCreds ← await (.getEnvironmentSshKey server.environmentId)
    pure (sshCreds.map fun creds ↦ .ssh server.hostname creds.username creds.privateKey)

variable (client : CommandClient)

def execOrThrow (command : Command) (failure : String) : Async Unit := do
  let result ← await (.exec client command)
  Program.when (result.code ≠ 0) (throw (failure ++ result.stderr))

def transfer (client : CommandClient) : List Text → Async Unit
  | [] => pure ()
  | chunk :: rest => do
    execOrThrow client (.appendChunk chunk) "Failed to transfer agent: "
    transfer client rest

/-- The unit file, whose transfer throws an error of its own. -/
def writeServiceFile (file : ServiceFile) : Async Unit :=
  (await (.writeFile client file)).tryCatch fun message ↦
    throw ("Failed to create service file: " ++ message)

/-- The service has to be active; else the error is its journal. -/
def verifyRunning : Async Unit := do
  let statusResult ← await (.exec client .isActive)
  Program.when (trim statusResult.stdout ≠ "active") do
    let logsResult ← await (.exec client .journal)
    throw ("Agent failed to start. Logs:\n" ++ logsResult.stdout)

def installAgent (agentBase64 : Text) (file : ServiceFile) : Async Unit := do
  await (.connect client)
  let _ ← await (.exec client .stopService)
  let _ ← await (.exec client .clearTemp)
  transfer client (agentBase64.toChunks 65000)
  execOrThrow client .install "Failed to install agent: "
  writeServiceFile client file
  execOrThrow client .startService "Failed to start agent service: "
  verifyRunning client

/-- The block of the `try`. -/
def attemptInstall (file : ServiceFile) : Async DeployResult := do
  let agentBinary ← (do
    let agentBase64 ← await .readAgentBinary
    pure (some agentBase64)).tryCatch fun _ ↦ pure none
  match agentBinary with
  | none => pure (.failure "Agent binary not found. Is this a production build?")
  | some agentBase64 => do
    installAgent client agentBase64 file
    await .markDeployed
    await (.logAgentEvent ⟨.deploySuccess, "Agent deployed successfully", file.serverUrl⟩)
    pure ⟨true, none⟩

/-- The block of the `catch`. -/
def reportFailure (serverUrl errorMessage : String) : Async DeployResult := do
  await (.logAgentEvent ⟨.deployFailed, errorMessage, serverUrl⟩)
  await (.updateStatus .unknown)
  pure (.failure errorMessage)

def deployAgent : Async DeployResult := do
  let server ← await .findServer
  match server with
  | none => pure (.failure "Server not found")
  | some server => do
    let serverUrl ← callbackUrl bridgeportUrl
    match serverUrl with
    | none =>
      pure (.failure
        "Agent Callback URL must be configured in System Settings before deploying agents")
    | some serverUrl => do
      let agentToken ← ensureToken server.agentToken
      await (.updateStatus .deploying)
      await (.logAgentEvent ⟨.deployStarted, "Agent deployment initiated", serverUrl⟩)
      let client ← createClient server
      match client with
      | none => pure (.failure "SSH key not configured for this environment")
      | some client =>
        (attemptInstall client ⟨serverUrl, agentToken⟩).tryCatch (reportFailure serverUrl)

def removeAgent : Async DeployResult := do
  let server ← await .findServer
  match server with
  | none => pure (.failure "Server not found")
  | some server => do
    let client ← createClient server
    match client with
    | none => pure (.failure "SSH key not configured for this environment")
    | some client =>
      Program.tryCatch (do
        await (.connect client)
        let _ ← await (.exec client .stopService)
        let _ ← await (.exec client .disableService)
        let _ ← await (.exec client .removeService)
        let _ ← await (.exec client .removeBinary)
        let _ ← await (.exec client .daemonReload)
        await .markRemoved
        pure ⟨true, none⟩) fun message ↦ pure (.failure message)

/-! ### The row and the host -/

/-- The row of the server, and the unit file on its host. -/
structure AgentWorld where
  server : Option Server
  serviceFile : Option ServiceFile

def rowChange : Event Answer → Server → Server
  | ⟨.updateToken token, .ok _⟩, server => { server with agentToken := some token }
  | ⟨.updateStatus status, .ok _⟩, server => { server with agentStatus := status }
  | ⟨.markDeployed, .ok _⟩, server =>
    { server with metricsMode := .agent, agentStatus := .waiting }
  | ⟨.markRemoved, .ok _⟩, server => { server with metricsMode := .disabled, agentToken := none }
  | _, server => server

def fileChange (lands : String → Bool) : Event Answer → Option ServiceFile → Option ServiceFile
  | ⟨.writeFile _ file, .ok _⟩, _ => some file
  | ⟨.writeFile _ file, .error message⟩, before => if lands message then some file else before
  | ⟨.exec _ .removeService, .ok result⟩, before => if result.code = 0 then none else before
  | ⟨.exec _ .removeService, .error message⟩, before => if lands message then none else before
  | _, before => before

def agentSemantics (lands : String → Bool) : Semantics Answer AgentWorld where
  allows world event :=
    match event with
    | ⟨.findServer, .ok server⟩ => server = world.server
    | ⟨.generateAgentToken, .ok token⟩ => token.length = 43
    | ⟨.updateToken _, .ok _⟩ | ⟨.updateStatus _, .ok _⟩ | ⟨.logAgentEvent _, .ok _⟩
    | ⟨.markDeployed, .ok _⟩ | ⟨.markRemoved, .ok _⟩ => world.server.isSome = true
    | _ => True
  after world event :=
    { server := world.server.map (rowChange event)
      serviceFile := fileChange lands event world.serviceFile }

/-- The calls for the server that run at once. -/
inductive AgentTask
  | deploy (bridgeportUrl : Option String)
  | remove

namespace AgentTask

def program : AgentTask → Async DeployResult
  | deploy bridgeportUrl => deployAgent bridgeportUrl
  | remove => removeAgent

def deploys : AgentTask → Bool
  | deploy _ => true
  | remove => false

end AgentTask

/-! ### The log of a call -/

/-- What the log of a call says. -/
structure AgentProgress where
  deploys : Bool
  /-- The token as the row has it, of a deployment that may still write the unit file. -/
  held : Option (Option String)
  /-- The unit file has been removed, and the token may still be cleared. -/
  removing : Bool
  events : List AgentEventType
  /-- The status that has been written last. -/
  status : Option AgentStatus
  (deployed cut : Bool)

variable (deploys : Bool)

def AgentProgress.start : AgentProgress :=
  ⟨deploys, none, false, [], none, false, false⟩

/-- The answers after which a deployment returns or throws without having settled. -/
def Cuts : Event Answer → Prop
  | ⟨.getEnvironmentSshKey _, .ok none⟩ | ⟨.getEnvironmentSshKey _, .error _⟩
  | ⟨.readAgentBinary, .error _⟩ | ⟨.logAgentEvent _, .error _⟩
  | ⟨.updateStatus .unknown, .error _⟩ => True
  | _ => False

variable (progress : AgentProgress)

def AgentProgress.thrown : AgentProgress :=
  { progress with held := none, removing := false }

def AgentProgress.cutOff : AgentProgress :=
  { progress.thrown with cut := true }

/-- What a call tells of how far the task has come. -/
def AgentProgress.next : Event Answer → AgentProgress
  | ⟨.findServer, .ok (some server)⟩ =>
    if progress.deploys then { progress with held := some server.agentToken } else progress
  | ⟨.agentCallbackUrl, .ok url⟩ =>
    if truthy url = none then { progress with held := none } else progress
  | ⟨.updateToken token, .ok _⟩ => { progress with held := some (some token) }
  | ⟨.updateStatus status, .ok _⟩ => { progress with status := some status }
  | ⟨.updateStatus .unknown, .error _⟩ => progress.cutOff
  | ⟨.logAgentEvent event, .ok _⟩ => { progress with
      events := progress.events ++ [event.eventType]
      held := if event.eventType = .deployFailed then none else progress.held }
  | ⟨.logAgentEvent _, .error _⟩ | ⟨.getEnvironmentSshKey _, .ok none⟩
  | ⟨.getEnvironmentSshKey _, .error _⟩ | ⟨.readAgentBinary, .error _⟩ => progress.cutOff
  | ⟨.exec _ .removeService, .ok _⟩ => { progress with removing := true }
  | ⟨.writeFile _ _, .ok _⟩ => { progress with held := none }
  | ⟨.markDeployed, .ok _⟩ => { progress with status := some .waiting, deployed := true }
  | ⟨.markRemoved, .ok _⟩ => { progress with removing := false }
  | ⟨_, .error _⟩ => progress.thrown
  | _ => progress

def mayCall : Call → Prop
  | .updateToken token =>
    ∃ read, progress.held = some read ∧ truthy read = none ∧ token ≠ ""
  | .writeFile _ file => progress.held = some (some file.agentToken) ∧ file.agentToken ≠ ""
  | .markRemoved => progress.removing = true ∧ progress.held = none
  | .updateStatus _ => progress.deploys = true
  | _ => True

def expected : Event Answer → Prop
  | ⟨.generateAgentToken, .ok token⟩ => token.length = 43
  | _ => True

def agentProtocol : Protocol Answer AgentProgress where
  permits := mayCall
  advance := AgentProgress.next
  expects := expected

/-- The events, the status and the mode that a deployment leaves. -/
structure DeployEnds (result : Except String DeployResult) (progress : AgentProgress) : Prop where
  events : progress.events = [] ∨ progress.events = [.deployStarted, .deploySuccess] ∨
    progress.events = [.deployStarted, .deployFailed]
  status : progress.status ≠ some .deploying
  deployed : progress.deployed = true → result = .ok ⟨true, none⟩

variable (result : Except String DeployResult)

/-- What a call leaves: a token is held no more, and a deployment that has not been cut off has
settled. -/
def TaskEnds (progress : AgentProgress) : Prop :=
  progress.held = none ∧ progress.removing = false ∧
    (deploys = true → progress.cut = false → DeployEnds result progress)

/-! ### Deployments -/

section

variable (held : Option (Option String))

/-- A deployment that has read the row, and has not written the status. -/
def AgentProgress.reading : AgentProgress :=
  ⟨true, held, false, [], none, false, false⟩

def AgentProgress.working : AgentProgress :=
  ⟨true, held, false, [.deployStarted], some .deploying, false, false⟩

/-- What the `catch` block begins with. -/
def AgentProgress.Caught (progress : AgentProgress) : Prop :=
  (∃ held, progress = .working held) ∨
    progress.cut = true ∧ progress.removing = false ∧ progress.deploys = true

/-- What a step of the work on the host leaves: an exception is caught. -/
def Leaves {α : Type} (after : AgentProgress) : Except String α → AgentProgress → Prop
  | .ok _, progress => progress = after
  | .error _, progress => progress.Caught

theorem taskEnds_cutOff (progress : AgentProgress) : TaskEnds deploys result progress.cutOff :=
  ⟨rfl, rfl, fun _ hcut ↦ absurd hcut Bool.true_eq_false.mp⟩

theorem taskEnds_reading : TaskEnds true result (.reading none) :=
  ⟨rfl, rfl, fun _ _ ↦ ⟨.inl rfl, nofun, nofun⟩⟩

theorem follows_execOrThrow {client : CommandClient} {command : Command} {failure : String}
    (hcommand : command ≠ .removeService) :
    (execOrThrow client command failure).Follows agentProtocol (Leaves (.working held))
      (.working held) := by
  refine ⟨trivial, fun answer _ ↦ ?_⟩
  cases answer with
  | error message => exact .inl ⟨none, by cases command <;> rfl⟩
  | ok result =>
    have hstays : agentProtocol.advance (.working held) ⟨.exec client command, .ok result⟩ =
        .working held := by
      cases command with
      | removeService => exact absurd rfl hcommand
      | _ => rfl
    rw [hstays]
    change (Program.when _ _).Follows agentProtocol _ _
    unfold Program.when
    split_ifs
    · exact .inl ⟨held, rfl⟩
    · exact rfl

end

variable (client : CommandClient)

theorem follows_transfer (chunks : List Text) (held : Option (Option String)) :
    (transfer client chunks).Follows agentProtocol (Leaves (.working held)) (.working held) := by
  induction chunks with
  | nil => exact rfl
  | cons chunk rest ih =>
    refine follows_bind ((follows_execOrThrow held (by nofun)).mono fun result progress hleaves ↦ ?_)
    cases result with
    | error message => exact hleaves
    | ok _ =>
      obtain rfl : progress = .working held := hleaves
      exact ih

variable {file : ServiceFile}

theorem follows_writeServiceFile (htoken : file.agentToken ≠ "") :
    (writeServiceFile client file).Follows agentProtocol (Leaves (.working none))
      (.working (some (some file.agentToken))) := by
  refine follows_tryCatch ⟨⟨rfl, htoken⟩, fun answer _ ↦ ?_⟩
  cases answer with
  | ok _ => exact rfl
  | error message => exact .inl ⟨none, rfl⟩

theorem follows_verifyRunning :
    (verifyRunning client).Follows agentProtocol (Leaves (.working none)) (.working none) := by
  refine follows_perform_bind trivial (fun statusResult _ ↦ ?_) fun message ↦ .inl ⟨none, rfl⟩
  unfold Program.when
  split_ifs
  · exact follows_perform_bind trivial (fun _ _ ↦ .inl ⟨none, rfl⟩) fun _ ↦ .inl ⟨none, rfl⟩
  · exact rfl

theorem follows_installAgent (agentBase64 : Text) (htoken : file.agentToken ≠ "") :
    (installAgent client agentBase64 file).Follows agentProtocol (Leaves (.working none))
      (.working (some (some file.agentToken))) := by
  refine follows_perform_bind trivial (fun _ _ ↦ ?_) fun message ↦ .inl ⟨none, rfl⟩
  refine follows_perform_bind trivial (fun _ _ ↦ ?_) fun message ↦ .inl ⟨none, rfl⟩
  refine follows_perform_bind trivial (fun _ _ ↦ ?_) fun message ↦ .inl ⟨none, rfl⟩
  refine follows_bind ((follows_transfer client _ _).mono fun transferred progress hleaves ↦ ?_)
  cases transferred with
  | error message => exact hleaves
  | ok _ =>
    obtain rfl : progress = .working (some (some file.agentToken)) := hleaves
    refine follows_bind ((follows_execOrThrow _ (by nofun)).mono fun installed progress hleaves ↦ ?_)
    cases installed with
    | error message => exact hleaves
    | ok _ =>
      obtain rfl : progress = .working (some (some file.agentToken)) := hleaves
      refine follows_bind ((follows_writeServiceFile client htoken).mono
        fun written progress hleaves ↦ ?_)
      cases written with
      | error message => exact hleaves
      | ok _ =>
        obtain rfl : progress = .working none := hleaves
        refine follows_bind ((follows_execOrThrow _ (by nofun)).mono fun started progress hleaves ↦ ?_)
        cases started with
        | error message => exact hleaves
        | ok _ =>
          obtain rfl : progress = .working none := hleaves
          exact follows_verifyRunning client

/-- The `catch` block settles the deployment. -/
theorem follows_reportFailure (serverUrl message : String) {progress : AgentProgress}
    (hcaught : progress.Caught) : (reportFailure serverUrl message).Follows agentProtocol
      (TaskEnds true) progress := by
  have hdeploys : progress.deploys = true := by
    rcases hcaught with ⟨held, rfl⟩ | ⟨-, -, hdeploys⟩
    · rfl
    · exact hdeploys
  refine follows_perform_bind trivial (fun _ _ ↦ ?_) fun _ ↦ taskEnds_cutOff true _ progress
  refine follows_perform_bind hdeploys (fun _ _ ↦ ?_) fun _ ↦ taskEnds_cutOff true _ _
  rcases hcaught with ⟨held, rfl⟩ | ⟨hcut, hremoving, -⟩
  · exact ⟨rfl, rfl, fun _ _ ↦ ⟨.inr (.inr rfl), nofun, nofun⟩⟩
  · exact ⟨rfl, hremoving, fun _ hnot ↦ absurd (hcut.symm.trans hnot) Bool.true_eq_false.mp⟩

theorem follows_attemptInstall (htoken : file.agentToken ≠ "") :
    ((attemptInstall client file).tryCatch (reportFailure file.serverUrl)).Follows agentProtocol
      (TaskEnds true) (.working (some (some file.agentToken))) := by
  refine follows_tryCatch (follows_bind (follows_tryCatch ⟨trivial, fun binary _ ↦ ?_⟩))
  cases binary with
  | error message => exact taskEnds_cutOff true _ (.working (some (some file.agentToken)))
  | ok agentBase64 =>
    refine follows_bind ((follows_installAgent client agentBase64 htoken).mono
      fun installed progress hleaves ↦ ?_)
    cases installed with
    | error message => exact follows_reportFailure _ _ hleaves
    | ok _ =>
      obtain rfl : progress = .working none := hleaves
      refine follows_perform_bind trivial (fun _ _ ↦ ?_)
        fun message ↦ follows_reportFailure _ _ (.inl ⟨none, rfl⟩)
      refine follows_perform_bind trivial (fun _ _ ↦ ?_)
        fun message ↦ follows_reportFailure _ _ (.inr ⟨rfl, rfl, rfl⟩)
      exact ⟨rfl, rfl, fun _ _ ↦ ⟨.inr (.inl rfl), nofun, fun _ ↦ rfl⟩⟩

/-- A deployment has the token of the row, or has written a new one to it. -/
theorem follows_ensureToken (agentToken : Option String) :
    (ensureToken agentToken).Follows agentProtocol (fun result progress ↦ match result with
      | .ok token => progress = .reading (some (some token)) ∧ token ≠ ""
      | .error _ => progress = .reading none) (.reading (some agentToken)) := by
  unfold ensureToken
  cases htruthy : truthy agentToken with
  | some token =>
    obtain ⟨rfl, hne⟩ := Option.filter_eq_some_iff.mp htruthy
    exact ⟨rfl, of_decide_eq_true hne⟩
  | none =>
    refine follows_perform_bind trivial (fun token hlength ↦ ?_) fun message ↦ rfl
    have hne : token ≠ "" := by
      rintro rfl
      exact absurd (show "".length = 43 from hlength) (by decide)
    exact follows_perform_bind ⟨agentToken, rfl, htruthy, hne⟩ (fun _ _ ↦ ⟨rfl, hne⟩)
      fun message ↦ rfl

variable (bridgeportUrl : Option String)

theorem follows_callbackUrl (held : Option (Option String)) :
    (callbackUrl bridgeportUrl).Follows agentProtocol (fun result progress ↦ match result with
      | .ok (some _) => progress = .reading held
      | .ok none | .error _ => progress = .reading none) (.reading held) := by
  unfold callbackUrl
  cases truthy bridgeportUrl with
  | some url => exact rfl
  | none =>
    refine follows_perform_bind trivial (fun url _ ↦ ?_) fun message ↦ rfl
    cases htruthy : truthy url with
    | none => exact if_pos htruthy
    | some text => exact if_neg (htruthy ▸ Option.some_ne_none text)

/-- What a client leaves of a deployment: it is there, or the deployment has been cut off. -/
theorem follows_createClient (server : Server) (progress : AgentProgress) :
    (createClient server).Follows agentProtocol (fun result after ↦ match result with
      | .ok (some _) => after = progress
      | .ok none | .error _ => after = progress.cutOff) progress := by
  unfold createClient
  split_ifs
  · exact rfl
  · refine follows_perform_bind trivial (fun creds _ ↦ ?_) fun message ↦ rfl
    cases creds with
    | none | some _ => exact rfl

theorem follows_deployAgent :
    (deployAgent bridgeportUrl).Follows agentProtocol (TaskEnds true) (.start true) := by
  refine follows_perform_bind trivial (fun server _ ↦ ?_) fun message ↦ taskEnds_reading _
  cases server with
  | none => exact taskEnds_reading _
  | some server =>
    refine follows_bind ((follows_callbackUrl bridgeportUrl (some server.agentToken)).mono
      fun url progress hurl ↦ ?_)
    match url, hurl with
    | .error message, hreading | .ok none, hreading =>
      obtain rfl : progress = .reading none := hreading
      exact taskEnds_reading _
    | .ok (some serverUrl), hreading =>
      obtain rfl : progress = .reading (some server.agentToken) := hreading
      refine follows_bind ((follows_ensureToken server.agentToken).mono
        fun token progress htoken ↦ ?_)
      cases token with
      | error message =>
        obtain rfl : progress = .reading none := htoken
        exact taskEnds_reading _
      | ok agentToken =>
        obtain ⟨rfl, hne⟩ := htoken
        refine follows_perform_bind rfl (fun _ _ ↦ ?_) fun message ↦ taskEnds_reading _
        refine follows_perform_bind trivial (fun _ _ ↦ ?_) fun message ↦ taskEnds_cutOff true _ _
        refine follows_bind ((follows_createClient server (.working (some (some agentToken)))).mono
          fun client progress hclient ↦ ?_)
        match client, hclient with
        | .error message, hcut | .ok none, hcut =>
          obtain rfl : progress = AgentProgress.cutOff _ := hcut
          exact taskEnds_cutOff true _ _
        | .ok (some client), hworking =>
          obtain rfl : progress = .working (some (some agentToken)) := hworking
          exact follows_attemptInstall client hne

theorem follows_removeAgent :
    removeAgent.Follows agentProtocol (TaskEnds false) (.start false) := by
  refine follows_perform_bind trivial (fun server _ ↦ ?_) fun message ↦ ⟨rfl, rfl, nofun⟩
  cases server with
  | none => exact ⟨rfl, rfl, nofun⟩
  | some server =>
    refine follows_bind ((follows_createClient server (.start false)).mono
      fun client progress hclient ↦ ?_)
    match client, hclient with
    | .error message, hcut | .ok none, hcut =>
      obtain rfl : progress = AgentProgress.cutOff _ := hcut
      exact taskEnds_cutOff false _ _
    | .ok (some client), hstart =>
      obtain rfl : progress = .start false := hstart
      refine follows_tryCatch ?_
      iterate 6 refine follows_perform_bind trivial (fun _ _ ↦ ?_) fun message ↦ ⟨rfl, rfl, nofun⟩
      exact follows_perform_bind ⟨rfl, rfl⟩ (fun _ _ ↦ ⟨rfl, rfl, nofun⟩)
        fun message ↦ ⟨rfl, rfl, nofun⟩

theorem AgentTask.follows (task : AgentTask) :
    task.program.Follows agentProtocol (TaskEnds task.deploys) (.start task.deploys) := by
  cases task with
  | deploy bridgeportUrl => exact follows_deployAgent bridgeportUrl
  | remove => exact follows_removeAgent

end Bridgeport.AgentDeploy
