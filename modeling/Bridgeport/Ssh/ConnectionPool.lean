import Bridgeport.Foundation.Machine
import Bridgeport.Foundation.OrderedMap

/-!
# The pool of SSH connections

`SSHConnectionPool` of `lib/ssh.ts` keeps one `SSHClient` for each host, port and user. `acquire`
reuses it, or makes a new one and awaits its `connect`; a `PooledClient` is the wrapper that the
caller gets, and `release`, `evict` and `cleanup` find an entry by its key alone.

An `SSHClient` has the ssh2 connection in its field `client`, which is set when a connection is
dialed and cleared when one reports an error; `exec` connects again when the field is empty. Clients
and ssh2 connections are numbered in the order in which they are made. `PoolState.machine` takes one
step for what runs between two awaits.
-/

namespace Bridgeport.Ssh

open Foundation

/-! ### Options -/

structure SSHClientOptions where
  hostname : String
  port : Option ℕ
  (username privateKeyPath privateKey : Option String)

/-- `SSH_USER` and `SSH_KEY_PATH`. -/
structure SshConfig where
  sshUser : String
  sshKeyPath : Option String

/-- `HOST_GATEWAY_IPS`. -/
def hostGatewayIps : List String :=
  ["172.17.0.1", "host.docker.internal"]

/-- The names of this machine, but not those of a Docker host. -/
def isLocalhost (hostname : String) : Bool :=
  hostname ∉ hostGatewayIps &&
    (hostname = "127.0.0.1" || hostname = "localhost" || hostname = "::1")

def getKey (options : SSHClientOptions) : String :=
  options.hostname ++ ":" ++ toString (options.port.getD 22) ++ ":" ++ options.username.getD "root"

inductive PrivateKey
  | content (key : String)
  | file (path : String)
  | missing
  deriving DecidableEq

def privateKeyOf (config : SshConfig) (options : SSHClientOptions) : PrivateKey :=
  match options.privateKey.filter (· ≠ "") with
  | some key => .content key
  | none =>
    match (options.privateKeyPath.or config.sshKeyPath).filter (· ≠ "") with
    | some path => .file path
    | none => .missing

/-- The user name and the key that `connect` authenticates with. -/
def credentialsOf (config : SshConfig) (options : SSHClientOptions) : String × PrivateKey :=
  (options.username.getD config.sshUser, privateKeyOf config options)

/-! ### Clients -/

/-- What has become of an ssh2 connection. -/
inductive Phase
  | dialing
  | opened
  | closed
  deriving DecidableEq

/-- The `SSHClient`s: their options and their field `client`, and the ssh2 connections with the
client whose `connect` has made them. -/
structure Clients where
  made : ℕ
  options : ℕ → SSHClientOptions
  client : ℕ → Option ℕ
  dialed : ℕ
  owner : ℕ → ℕ
  phase : ℕ → Phase

namespace Clients

def initial : Clients :=
  ⟨0, fun _ ↦ ⟨"", none, none, none, none⟩, fun _ ↦ none, 0, fun _ ↦ 0, fun _ ↦ .closed⟩

section

variable (clients : Clients) (id : ℕ)

def isConnected : Bool :=
  (clients.client id).isSome

/-- `new SSHClient`. -/
def make (options : SSHClientOptions) : Clients :=
  { clients with
    made := clients.made + 1
    options := Function.update clients.options clients.made options
    client := Function.update clients.client clients.made none }

/-- `connect` makes its ssh2 connection. -/
def dial : Clients :=
  { clients with
    client := Function.update clients.client id (some clients.dialed)
    dialed := clients.dialed + 1
    owner := Function.update clients.owner clients.dialed id
    phase := Function.update clients.phase clients.dialed .dialing }

def ready (link : ℕ) : Clients :=
  { clients with phase := Function.update clients.phase link .opened }

/-- An ssh2 connection is closed by the other side. -/
def closeLink (link : ℕ) : Clients :=
  { clients with phase := Function.update clients.phase link .closed }

/-- An ssh2 connection reports an error, and its handler clears the field. -/
def fail (link : ℕ) : Clients :=
  { clients.closeLink link with
    client := Function.update clients.client (clients.owner link) none }

/-- `disconnect` of an `SSHClient`. -/
def disconnect : Clients :=
  match clients.client id with
  | none => clients
  | some link =>
    { clients.closeLink link with client := Function.update clients.client id none }

end

section Disconnect

variable (clients : Clients) (id : ℕ)

@[simp]
theorem made_disconnect : (clients.disconnect id).made = clients.made := by
  unfold disconnect
  split <;> rfl

@[simp]
theorem options_disconnect : (clients.disconnect id).options = clients.options := by
  unfold disconnect
  split <;> rfl

@[simp]
theorem dialed_disconnect : (clients.disconnect id).dialed = clients.dialed := by
  unfold disconnect
  split <;> rfl

@[simp]
theorem owner_disconnect : (clients.disconnect id).owner = clients.owner := by
  unfold disconnect
  split <;> rfl

theorem client_disconnect :
    (clients.disconnect id).client = Function.update clients.client id none := by
  unfold disconnect
  split
  · next hnone => rw [← hnone, Function.update_eq_self]
  · rfl

theorem phase_disconnect (link : ℕ) : (clients.disconnect id).phase link =
    if clients.client id = some link then .closed else clients.phase link := by
  unfold disconnect
  split
  · next hnone => simp [hnone]
  · next other hother => simp [closeLink, hother, Function.update_apply, eq_comm]

end Disconnect

end Clients

/-! ### The pool -/

structure PoolEntry where
  client : ℕ
  options : SSHClientOptions
  (lastUsedAt refCount : ℕ)

structure PooledClient where
  client : ℕ
  key : String
  released : Bool

/-- The clients, the map `connections`, the wrappers, the calls of `acquire` that await `connect`,
and the calls of `connect` that have not made their ssh2 connection. -/
structure PoolState where
  clients : Clients
  connections : OrderedMap String PoolEntry
  wrappers : List PooledClient
  (acquiring connecting : List ℕ)

def maxIdleMs : ℕ :=
  5 * 60 * 1000

variable (state : PoolState) (key : String) (entry : PoolEntry) (now : ℕ)

namespace PoolState

def initial : PoolState :=
  ⟨Clients.initial, OrderedMap.empty, [], [], []⟩

/-- A borrower takes the entry and gets a wrapper. -/
def retain : PoolState :=
  { state with
    connections := state.connections.set key
      { entry with lastUsedAt := now, refCount := entry.refCount + 1 }
    wrappers := state.wrappers ++ [⟨entry.client, key, false⟩] }

/-- The entry is deleted, and its client disconnected. -/
def close : PoolState :=
  { state with
    clients := state.clients.disconnect entry.client
    connections := state.connections.delete key }

def connect (options : SSHClientOptions) : PoolState :=
  { state with
    clients := state.clients.make options
    acquiring := state.acquiring ++ [state.clients.made]
    connecting := state.connecting ++ [state.clients.made] }

/-- `acquire` up to its `await`. -/
def acquire (state : PoolState) (options : SSHClientOptions) (now : ℕ) : PoolState :=
  if isLocalhost options.hostname then state
  else
    match state.connections.get (getKey options) with
    | some existing =>
      if state.clients.isConnected existing.client then state.retain (getKey options) existing now
      else (state.close (getKey options) existing).connect options
    | none => state.connect options

/-- `acquire` behind its `await`: the new entry, and its first wrapper. -/
def acquired (id now : ℕ) : PoolState :=
  { state with
    connections := state.connections.set (getKey (state.clients.options id))
      ⟨id, state.clients.options id, now, 1⟩
    wrappers := state.wrappers ++ [⟨id, getKey (state.clients.options id), false⟩]
    acquiring := state.acquiring.erase id }

def release : PoolState :=
  match state.connections.get key with
  | some entry =>
    { state with
      connections := state.connections.set key
        { entry with lastUsedAt := now, refCount := entry.refCount - 1 } }
  | none => state

def evict : PoolState :=
  match state.connections.get key with
  | some entry => state.close key entry
  | none => state

/-- `released = true`. -/
def markReleased (index : ℕ) (wrapper : PooledClient) : PoolState :=
  { state with wrappers := state.wrappers.set index { wrapper with released := true } }

/-- One entry of the loop of `cleanup`. -/
def reap (state : PoolState) (entry : String × PoolEntry) : PoolState :=
  if ¬ state.clients.isConnected entry.2.client then
    { state with connections := state.connections.delete entry.1 }
  else if entry.2.refCount = 0 ∧ now - entry.2.lastUsedAt > maxIdleMs then
    state.close entry.1 entry.2
  else state

def cleanup (state : PoolState) (now : ℕ) : PoolState :=
  state.connections.entries.foldl (reap now) state

/-- A step: a part of `acquire`, `connect` or a method of a wrapper, a tick of the timer, or an
event of an ssh2 connection. -/
inductive Step
  | acquire (options : SSHClientOptions) (now : ℕ)
  | reconnect (wrapper : ℕ)
  | dial (client : ℕ)
  | connectThrows (client : ℕ)
  | ready (link now : ℕ)
  | error (link : ℕ)
  | ends (link : ℕ)
  | execFails (wrapper : ℕ)
  | disconnect (wrapper now : ℕ)
  | cleanup (now : ℕ)

/-- An ssh2 connection is ready: if `acquire` awaits it, it goes on. -/
def linkReady (state : PoolState) (link now : ℕ) : PoolState :=
  let after := { state with clients := state.clients.ready link }
  if state.clients.owner link ∈ state.acquiring then after.acquired (state.clients.owner link) now
  else after

/-- An ssh2 connection reports an error: if it was being dialed, `connect` is rejected, and with it
the `acquire` that awaits it. -/
def linkFails (state : PoolState) (link : ℕ) : PoolState :=
  { state with
    clients := state.clients.fail link
    acquiring := if state.clients.phase link = .dialing then
      state.acquiring.erase (state.clients.owner link) else state.acquiring }

/-- `exec`, `execStream` or `writeFile` of a wrapper is rejected. -/
def execFails (state : PoolState) (index : ℕ) (wrapper : PooledClient) : PoolState :=
  if state.clients.isConnected wrapper.client then state
  else (state.evict wrapper.key).markReleased index wrapper

/-- `disconnect` of a wrapper. -/
def disconnect (state : PoolState) (index : ℕ) (wrapper : PooledClient) (now : ℕ) : PoolState :=
  if wrapper.released then state else (state.release wrapper.key now).markReleased index wrapper

/-- A step of the pool, unless it is not possible in the state. -/
def next (state : PoolState) : Step → Option PoolState
  | .acquire options now => some (state.acquire options now)
  | .reconnect index => do
    let wrapper ← state.wrappers[index]?
    if state.clients.isConnected wrapper.client then none
    else some { state with connecting := state.connecting ++ [wrapper.client] }
  | .dial id =>
    if id ∈ state.connecting then
      some { state with
        clients := state.clients.dial id
        connecting := state.connecting.erase id }
    else none
  | .connectThrows id =>
    if id ∈ state.connecting then
      some { state with
        connecting := state.connecting.erase id
        acquiring := state.acquiring.erase id }
    else none
  | .ready link now =>
    if link < state.clients.dialed ∧ state.clients.phase link = .dialing then
      some (state.linkReady link now)
    else none
  | .error link => if link < state.clients.dialed then some (state.linkFails link) else none
  | .ends link =>
    if link < state.clients.dialed ∧ state.clients.phase link = .opened then
      some { state with clients := state.clients.closeLink link }
    else none
  | .execFails index => (state.wrappers[index]?).map (state.execFails index)
  | .disconnect index now => (state.wrappers[index]?).map (state.disconnect index · now)
  | .cleanup now => some (state.cleanup now)

def machine : Machine PoolState Step :=
  ⟨next⟩

end PoolState

end Bridgeport.Ssh
