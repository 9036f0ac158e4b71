import Bridgeport.ConfigSync.SyncConfigFile
import Bridgeport.Foundation.JsonValues
import Bridgeport.Foundation.Trimming

/-!
# Inspecting a container

What the two Docker clients report of a container. `DockerSocketClient` reads the inspect record as
the daemon answers it; `DockerSSHClient` runs `docker inspect --format`, whose line of fields with
`|` between them it takes apart again. For a container that is not there the shell prints a line of
its own, which begins with `not_found`.

`infoLine` and `healthLine` are the lines that the command prints for a record. The number that
`parseInt` reads is an integer, or `none` for `NaN`.
-/

namespace Bridgeport.Docker

open Foundation Secrets ConfigSync

/-- A binding of a container port, `HostIp` and `HostPort`. -/
structure PortBinding where
  (hostIp hostPort : Text)

/-- The fields of an inspect record that the clients ask for. A port without bindings has `null`,
and the ports are in the order of `Object.entries`. -/
structure InspectRecord where
  /-- `.State.Status` -/
  status : Text
  /-- `.State.Running` -/
  running : Bool
  /-- `.State.Health.Status` -/
  health : Option Text
  /-- `.Config.Image` -/
  image : Text
  /-- `.NetworkSettings.Ports` -/
  ports : Option (List (Text × Option (List PortBinding)))

def PortBinding.toJson (binding : PortBinding) : Json :=
  .object [("HostIp".toList, .string binding.hostIp), ("HostPort".toList, .string binding.hostPort)]

def bindingsJson : Option (List PortBinding) → Json
  | none => .null
  | some bindings => .array (bindings.map PortBinding.toJson)

def portsJson : Option (List (Text × Option (List PortBinding))) → Json
  | none => .null
  | some ports => .object (ports.map fun entry ↦ (entry.1, bindingsJson entry.2))

/-! ### What the clients report -/

/-- `CONTAINER_STATUS.NOT_FOUND`. -/
def notFound : Text :=
  "not_found".toList

/-- `CONTAINER_STATUS.RUNNING`. -/
def runningState : Text :=
  "running".toList

/-- An element of `ContainerDetails.ports`; a number may be `NaN`. -/
structure Port where
  host : Option (Option ℤ)
  container : Option ℤ
  protocol : Text
  hostIp : Option Text
  deriving DecidableEq

structure ContainerDetails where
  state : Text
  running : Bool
  health : Option Text
  ports : List Port
  image : Text

structure ContainerHealth where
  (state status : Text)
  health : Option Text
  running : Bool

/-- `text || 'unknown'`. -/
def orUnknown (text : Text) : Text :=
  if text = [] then "unknown".toList else text

/-- `text || null`, `text || undefined`. -/
def nonempty (text : Text) : Option Text :=
  if text = [] then none else some text

def leadingNumber (text : Text) : Option ℤ :=
  match text.takeWhile Char.isDigit with
  | [] => none
  | digits => some (digits.foldl (fun value digit ↦ 10 * value + (digit.toNat - '0'.toNat : ℕ)) 0)

/-- `parseInt(text, 10)`. -/
def parseInt (text : Text) : Option ℤ :=
  match text.dropWhile isTrimmed with
  | '-' :: rest => (leadingNumber rest).map (- ·)
  | '+' :: rest => leadingNumber rest
  | rest => leadingNumber rest

/-- The container port and the protocol of a key of the port map. -/
def portKey (key : Text) : Option ℤ × Text :=
  let pieces := key.splitOn '/'
  (parseInt (pieces.getD 0 []), (nonempty (pieces.getD 1 [])).getD "tcp".toList)

/-- The element for a port without bindings. -/
def unboundPort (key : Text) : Port :=
  ⟨none, (portKey key).1, (portKey key).2, none⟩

def boundPort (key : Text) (binding : PortBinding) : Port :=
  ⟨(nonempty binding.hostPort).map parseInt, (portKey key).1, (portKey key).2, nonempty binding.hostIp⟩

namespace DockerSocketClient

def portsOf (entry : Text × Option (List PortBinding)) : List Port :=
  match entry.2 with
  | none | some [] => [unboundPort entry.1]
  | some bindings => bindings.map (boundPort entry.1)

/-- `DockerSocketClient.getContainerInfo` of a container that is there. -/
def getContainerInfo (info : InspectRecord) : ContainerDetails where
  state := orUnknown info.status
  running := info.running
  health := info.health.bind nonempty
  ports := (info.ports.getD []).flatMap portsOf
  image := info.image

/-- `DockerSocketClient.getContainerHealth` of a container that is there. -/
def getContainerHealth (info : InspectRecord) : ContainerHealth where
  state := orUnknown info.status
  status := if info.running then "Running".toList else "Container is ".toList ++ orUnknown info.status
  health := info.health.bind nonempty
  running := info.running

end DockerSocketClient

/-! ### The command line -/

/-- What the command prints for an absent health status. -/
inductive AbsentHealth
  | empty
  | noValue

def noValueText : Text :=
  "<no value>".toList

def AbsentHealth.text : AbsentHealth → Text
  | .empty => []
  | .noValue => noValueText

def boolText (value : Bool) : Text :=
  if value then "true".toList else "false".toList

variable (absent : AbsentHealth)

/-- `{{.State.Health.Status}}`. -/
def healthText (info : InspectRecord) : Text :=
  info.health.getD absent.text

/-- `{{.State.Status}}|{{.State.Running}}|{{.State.Health.Status}}`, with the end of the line. -/
def healthLine (info : InspectRecord) : Text :=
  info.status ++ '|' :: (boolText info.running ++ '|' :: (healthText absent info ++ ['\n']))

/-- `{{.State.Status}}|{{.State.Running}}|{{.State.Health.Status}}|{{.Config.Image}}|` and
`{{json .NetworkSettings.Ports}}`, with the end of the line. -/
def infoLine (info : InspectRecord) : Text :=
  info.status ++ '|' :: (boolText info.running ++ '|' :: (healthText absent info ++
    '|' :: (info.image ++ '|' :: ((portsJson info.ports).stringify ++ ['\n']))))

/-! ### The SSH client -/

namespace DockerSSHClient

/-- The text contains `not_found`. -/
def reportsNotFound (stdout : Text) : Prop :=
  notFound <:+: stdout

instance (stdout : Text) : Decidable (reportsNotFound stdout) :=
  inferInstanceAs (Decidable (_ <:+: _))

def healthOf (raw : Text) : Option Text :=
  (nonempty raw).filter (· ≠ noValueText)

def stringMember (name : String) (value : Json) : Text :=
  match value.member name.toList with
  | some (.string characters) => characters
  | _ => []

def portsOf (entry : Text × Json) : List Port :=
  match entry.2 with
  | .array (first :: bindings) => (first :: bindings).map fun binding ↦
      boundPort entry.1 ⟨stringMember "HostIp" binding, stringMember "HostPort" binding⟩
  | _ => [unboundPort entry.1]

/-- `safeJsonParse(portsJson, {})` and the loop over its entries; `Object.entries` of `null`
throws. -/
def readPorts (portsText : Text) : List Port :=
  match Json.parse portsText with
  | some (.object entries) => entries.flatMap portsOf
  | _ => []

/-- `DockerSSHClient.getContainerInfo`, with the exit code and the output of the command. -/
def getContainerInfo (code : ℤ) (stdout : Text) : ContainerDetails :=
  if code ≠ 0 ∨ reportsNotFound stdout then ⟨notFound, false, none, [], []⟩
  else
    let parts := (trimBoth isTrimmed stdout).splitOn '|'
    { state := orUnknown (parts.getD 0 [])
      running := parts.getD 1 [] = "true".toList
      health := healthOf (parts.getD 2 [])
      ports := readPorts (['|'].intercalate (parts.drop 4))
      image := parts.getD 3 [] }

/-- `DockerSSHClient.getContainerHealth`, with the exit code and the output of the command. -/
def getContainerHealth (code : ℤ) (stdout : Text) : ContainerHealth :=
  if code ≠ 0 ∨ reportsNotFound stdout then
    ⟨notFound, "Container not found".toList, none, false⟩
  else
    let parts := (trimBoth isTrimmed stdout).splitOn '|'
    let state := parts.getD 0 []
    { state := orUnknown state
      status := if state = runningState then "Running".toList else "Container is ".toList ++ state
      health := healthOf (parts.getD 2 [])
      running := parts.getD 1 [] = "true".toList }

end DockerSSHClient

end Bridgeport.Docker
