import Bridgeport.Foundation.Tables
import Bridgeport.Foundation.Threads
import Bridgeport.Secrets.Placeholders
import Mathlib.Data.List.DropRight

/-!
# Registry logins

`services/registry-login.ts` logs a server into a registry before a pull: `ensureRegistryLogin`
reads the registry connection and its credentials, skips the login if one has been recorded since
the last update of the connection, and records it otherwise. `updateRegistryConnection` of
`services/registries.ts` writes the connection and drops the recorded logins if the credentials are
among what it has been given.

Encryption draws a nonce, so that it is a call; decryption is a parameter. The columns that nothing
here reads or writes are left out.
-/

namespace Bridgeport.Registries

open Foundation Program
open Secrets (Text)

structure Encrypted where
  (ciphertext nonce : String)

structure RegistryConnection where
  (id environmentId name type : String)
  registryUrl : Text
  repositoryPrefix : Option String
  encryptedToken : Option Encrypted
  username : Option String
  encryptedPassword : Option Encrypted
  isDefault : Bool
  refreshIntervalMinutes : ℕ
  autoLinkPattern : Option String
  updatedAt : ℕ

instance : Keyed RegistryConnection :=
  ⟨RegistryConnection.id⟩

structure ConnectionData where
  (name type : Option String)
  registryUrl : Option Text
  repositoryPrefix : Option (Option String)
  encryptedToken : Option (Option Encrypted)
  username : Option (Option String)
  encryptedPassword : Option (Option Encrypted)
  isDefault : Option Bool
  refreshIntervalMinutes : Option ℕ
  autoLinkPattern : Option (Option String)

def ConnectionData.apply (data : ConnectionData) (updatedAt : ℕ) (row : RegistryConnection) :
    RegistryConnection :=
  { row with
    name := data.name.getD row.name
    type := data.type.getD row.type
    registryUrl := data.registryUrl.getD row.registryUrl
    repositoryPrefix := data.repositoryPrefix.getD row.repositoryPrefix
    encryptedToken := data.encryptedToken.getD row.encryptedToken
    username := data.username.getD row.username
    encryptedPassword := data.encryptedPassword.getD row.encryptedPassword
    isDefault := data.isDefault.getD row.isDefault
    refreshIntervalMinutes := data.refreshIntervalMinutes.getD row.refreshIntervalMinutes
    autoLinkPattern := data.autoLinkPattern.getD row.autoLinkPattern
    updatedAt := updatedAt }

theorem ConnectionData.id_apply (data : ConnectionData) (updatedAt : ℕ) (row : RegistryConnection) :
    Keyed.id (data.apply updatedAt row) = Keyed.id row :=
  rfl

/-- The row after another connection of its environment has become the default. -/
def RegistryConnection.unsetDefault (environmentId id : String) (updatedAt : ℕ)
    (row : RegistryConnection) : RegistryConnection :=
  if row.environmentId = environmentId ∧ row.isDefault ∧ row.id ≠ id then
    { row with isDefault := false, updatedAt }
  else row

theorem RegistryConnection.id_unsetDefault (environmentId id : String) (updatedAt : ℕ)
    (row : RegistryConnection) : Keyed.id (row.unsetDefault environmentId id updatedAt) =
      Keyed.id row := by
  unfold unsetDefault
  split_ifs <;> rfl

/-! ### Credentials -/

structure RegistryCredentials where
  type : String
  registryUrl : Text
  (repositoryPrefix token username password : Option String)

/-- `DockerLoginArgs`; an empty host is Docker Hub. -/
structure DockerLoginArgs where
  registryHost : Text
  (username password : String)
  deriving DecidableEq

/-- A string that is neither missing nor empty. -/
def truthy (value : Option String) : Option String :=
  value.filter (· ≠ "")

def withoutScheme (url : Text) : Text :=
  if "https://".toList <+: url then url.drop 8
  else if "http://".toList <+: url then url.drop 7
  else url

/-- The URL without a trailing `/v2`. -/
def withoutVersion (url : Text) : Text :=
  if "/v2".toList <:+ url then url.take (url.length - 3) else url

def normalizeRegistryHost (registryUrl : Text) : Text :=
  withoutVersion ((withoutScheme registryUrl).rdropWhile (· = '/'))

def toDockerLoginArgs (creds : RegistryCredentials) : Option DockerLoginArgs :=
  if creds.type = "digitalocean" then
    (truthy creds.token).map fun token ↦ ⟨"registry.digitalocean.com".toList, token, token⟩
  else if creds.type = "dockerhub" then
    match truthy creds.username, (truthy creds.token).or (truthy creds.password) with
    | some username, some password => some ⟨[], username, password⟩
    | _, _ => none
  else if creds.type = "generic" then
    match truthy creds.username, (truthy creds.password).or (truthy creds.token) with
    | some username, some password =>
      some ⟨normalizeRegistryHost creds.registryUrl, username, password⟩
    | _, _ => none
  else none

section

variable (decrypt : Encrypted → Except String String)

/-- A value that may be missing, decrypted. -/
def decryptGiven : Option Encrypted → Except String (Option String)
  | none => .ok none
  | some encrypted => (decrypt encrypted).map some

variable (conn : RegistryConnection)

def credentialsOf : Except String RegistryCredentials :=
  match decryptGiven decrypt conn.encryptedToken, decryptGiven decrypt conn.encryptedPassword with
  | .ok token, .ok password => .ok
    { conn with token, username := truthy conn.username, password }
  | _, _ => .error ("Failed to decrypt credentials for registry connection " ++ conn.id)

/-- What `docker login` is given for a row. -/
def loginArgsOf : Option DockerLoginArgs :=
  match credentialsOf decrypt conn with
  | .ok creds => toDockerLoginArgs creds
  | .error _ => none

end

/-- What the two functions await. The updates of a connection are answered with what they write:
`unsetDefaults` with the time. -/
inductive Call
  | findUpdatedAt (id : String)
  | findConnection (id : String)
  | findLogin (serverId registryConnectionId : String)
  | login (serverId : String) (args : DockerLoginArgs)
  | now
  | upsertLogin (serverId registryConnectionId : String) (created updated : ℕ)
  | unsetDefaults (environmentId id : String)
  | encrypt (value : String)
  | updateConnection (id : String) (data : ConnectionData)
  | deleteLogins (registryConnectionId : String)

def Answer : Call → Type
  | .findUpdatedAt _ => Option ℕ
  | .findConnection _ => Option RegistryConnection
  | .findLogin _ _ => Option ℕ
  | .login _ _ => Unit
  | .now => ℕ
  | .upsertLogin _ _ _ _ => Unit
  | .unsetDefaults _ _ => ℕ
  | .encrypt _ => Encrypted
  | .updateConnection _ _ => RegistryConnection
  | .deleteLogins _ => Unit

abbrev Async := Program Answer

abbrev await (request : Call) : Async (Answer request) := perform request

/-- `EnsureLoginResult`. -/
inductive EnsureLoginResult
  | fresh
  | noCredentials
  | registryNotFound
  | loggedIn (registryHost : Text)

variable (decrypt : Encrypted → Except String String)

def getRegistryCredentials (id : String) : Async (Option RegistryCredentials) := do
  let conn ← await (.findConnection id)
  match conn with
  | none => pure none
  | some conn =>
    match credentialsOf decrypt conn with
    | .ok creds => pure (some creds)
    | .error message => throw message

def ensureRegistryLogin (serverId registryConnectionId : String) : Async EnsureLoginResult := do
  let connection ← await (.findUpdatedAt registryConnectionId)
  match connection with
  | none => pure .registryNotFound
  | some updatedAt =>
    let credentials ← getRegistryCredentials decrypt registryConnectionId
    match credentials with
    | none => pure .registryNotFound
    | some creds =>
      match toDockerLoginArgs creds with
      | none => pure .noCredentials
      | some loginArgs =>
        let existing ← await (.findLogin serverId registryConnectionId)
        if existing.any (updatedAt ≤ ·) then pure .fresh
        else do
          await (.login serverId loginArgs)
          let created ← await .now
          let updated ← await .now
          await (.upsertLogin serverId registryConnectionId created updated)
          pure (.loggedIn loginArgs.registryHost)

/-- `Partial<RegistryConnectionInput>`; a nullable field can be given as `null`. -/
structure ConnectionInput where
  (name type : Option String)
  registryUrl : Option Text
  (repositoryPrefix token username password : Option (Option String))
  isDefault : Option Bool
  refreshIntervalMinutes : Option ℕ
  autoLinkPattern : Option (Option String)

/-- A secret that may be given, encrypted; an empty one removes what is stored. -/
def encryptGiven : Option (Option String) → Async (Option (Option Encrypted))
  | none => pure none
  | some value =>
    match truthy value with
    | none => pure (some none)
    | some value => do
      let encrypted ← await (.encrypt value)
      pure (some (some encrypted))

/-- `credsChanged`: a field that takes part in the login has been given. -/
def ConnectionInput.CredsChanged (input : ConnectionInput) : Prop :=
  input.token.isSome ∨ input.password.isSome ∨ input.username.isSome ∨ input.registryUrl.isSome ∨
    input.type.isSome

instance (input : ConnectionInput) : Decidable input.CredsChanged :=
  inferInstanceAs (Decidable (_ ∨ _))

def updateRegistryConnection (id : String) (input : ConnectionInput) : Async RegistryConnection := do
  let existing ← await (.findConnection id)
  match existing with
  | none => throw "Registry connection not found"
  | some existing =>
    Program.when (input.isDefault = some true) do
      let _ ← await (.unsetDefaults existing.environmentId id)
      pure ()
    let encryptedToken ← encryptGiven input.token
    let encryptedPassword ← encryptGiven input.password
    let conn ← await (.updateConnection id
      { input with
        encryptedToken
        username := input.username.map truthy
        encryptedPassword })
    Program.when input.CredsChanged (await (.deleteLogins id))
    pure conn

/-- A run of one of the two functions. -/
inductive Request
  | ensure (serverId registryConnectionId : String)
  | update (id : String) (input : ConnectionInput)

inductive Reply
  | ensured (result : EnsureLoginResult)
  | updated (conn : RegistryConnection)

def handle : Request → Async Reply
  | .ensure serverId registryConnectionId => do
    let result ← ensureRegistryLogin decrypt serverId registryConnectionId
    pure (.ensured result)
  | .update id input => do
    let conn ← updateRegistryConnection id input
    pure (.updated conn)

end Bridgeport.Registries
