import Bridgeport.Foundation.JsonSchema
import Mathlib.Data.Int.Notation

/-!
# The payload of a push

`collectAndSend` of `bridgeport-agent/main.go`: the payload that it fills from what the agent
measures, and the JSON value that the server reads. Go leaves a member out if it is tagged with
`omitempty` and is `nil`, zero or empty, writes a `nil` map as `null`, and writes the members in the
order of the fields.

A finite floating-point number is read as it was written. `read` is what a JavaScript number makes
of an integer: the integer itself up to 2^53. The configuration does not change during a push.
-/

namespace Bridgeport.Agent

section

variable (Double : Type)

/-! ### The docker daemon -/

/-- `dockerPort`. -/
structure DockerPort where
  (privatePort publicPort : ℤ)
  (type ip : String)

/-- `dockerMount`. -/
structure DockerMount where
  (source destination mode type : String)

structure ContainerStats where
  (cpuPercent memoryUsedMb memoryLimitMb networkRxMb networkTxMb blockReadMb blockWriteMb : Double)

/-- `dockerInspect`; the health is there if the container has a health check. -/
structure DockerInspect where
  status : String
  restartCount : ℤ
  health : Option String

/-- `dockerContainer`, with the answers to the queries for its statistics and its inspection, unless
they fail. Labels that are missing or `null` are `none`. -/
structure DockerContainer where
  id : String
  names : List String
  (image imageId state status : String)
  created : ℤ
  ports : List DockerPort
  labels : Option (List (String × String))
  mounts : List DockerMount
  networkMode : String
  stats : Option (ContainerStats Double)
  inspect : Option DockerInspect

structure ContainerMetrics where
  name : String
  stats : ContainerStats Double
  restartCount : ℤ
  (state health : String)

structure ContainerInfo where
  (id name image imageId state status : String)
  created : ℤ
  ports : List DockerPort
  labels : Option (List (String × String))
  mounts : List DockerMount
  networkMode : String

/-- The answers of the daemon to the two listings, unless they fail. -/
structure DockerAnswers where
  (running all : Option (List (DockerContainer Double)))

variable {Double}

/-- The name of a container: its first name without a leading slash, or the beginning of its id. -/
def containerName (id : String) (names : List String) : String :=
  match names with
  | [] => String.ofList (id.toList.take 12)
  | name :: _ =>
    match name.toList with
    | '/' :: rest => String.ofList rest
    | _ => name

variable (container : DockerContainer Double)

def getContainerMetrics : Option (ContainerMetrics Double) :=
  match container.stats, container.inspect with
  | some stats, some inspect => some
    { name := containerName container.id container.names
      stats
      restartCount := inspect.restartCount
      state := inspect.status
      health := inspect.health.getD "none" }
  | _, _ => none

variable (docker : DockerAnswers Double)

/-- `CollectDockerMetrics`. -/
def collectDockerMetrics : Option (List (ContainerMetrics Double)) :=
  docker.running.map fun containers ↦
    (containers.filter (·.state = "running")).filterMap getContainerMetrics

/-- An entry of `CollectContainerList`. -/
def containerInfo : ContainerInfo :=
  { container with name := containerName container.id container.names }

/-- `CollectContainerList`. -/
def collectContainerList : Option (List ContainerInfo) :=
  docker.all.map (·.map containerInfo)

/-- A configured port and what the connection to it gave: an error, unless it succeeded. -/
structure TcpCheck where
  host : String
  port : ℤ
  name : String
  durationMs : ℤ
  error : Option String

/-- `TCPCheckResult` of the collector; an empty error is none. -/
structure PortResult where
  host : String
  port : ℤ
  name : String
  success : Bool
  durationMs : ℤ
  error : String

/-- A turn of the loop of `CheckTCPPorts`. -/
def checkTcpPort (check : TcpCheck) : PortResult :=
  { check with success := check.error.isNone, error := check.error.getD "" }

/-- `CheckTCPPorts`. -/
def checkTcpPorts (checks : List TcpCheck) : List PortResult :=
  checks.map checkTcpPort

/-- What the connection to a TLS endpoint gave. -/
inductive CertOutcome
  | failed (message : String)
  | noCertificates
  | certificate (expiresAt : String) (daysUntilExpiry : ℤ) (issuer subject : String)

/-- A configured endpoint and what the connection to it gave. -/
structure CertCheck where
  host : String
  port : ℤ
  name : String
  durationMs : ℤ
  outcome : CertOutcome

/-- `CertCheckResult` of the collector; an empty text is none. -/
structure CertificateResult where
  host : String
  port : ℤ
  name : String
  success : Bool
  durationMs : ℤ
  expiresAt : String
  daysUntilExpiry : ℤ
  (issuer subject error : String)

/-- A turn of the loop of `CheckCertificates`. -/
def checkCertificate (check : CertCheck) : CertificateResult :=
  let result : CertificateResult :=
    { host := check.host, port := check.port, name := check.name, success := false
      durationMs := check.durationMs, expiresAt := "", daysUntilExpiry := 0, issuer := ""
      subject := "", error := "" }
  match check.outcome with
  | .failed message => { result with error := message }
  | .noCertificates => { result with error := "no certificates found" }
  | .certificate expiresAt daysUntilExpiry issuer subject =>
    let read := { result with success := true, expiresAt, daysUntilExpiry, issuer, subject }
    if daysUntilExpiry < 0 then { read with success := false, error := "certificate has expired" }
    else read

/-- `CheckCertificates`. -/
def checkCertificates (checks : List CertCheck) : List CertificateResult :=
  checks.map checkCertificate

end

open Foundation

variable (Double : Type)

/-! ### Measurements -/

def daysInMonth (year month : ℕ) : ℕ :=
  if month = 2 then
    if year % 4 = 0 ∧ (year % 100 ≠ 0 ∨ year % 400 = 0) then 29 else 28
  else if month ∈ [4, 6, 9, 11] then 30
  else 31

structure UtcTime where
  (year month day hour minute second : ℕ)
  year_le : year ≤ 9999
  month_mem : 1 ≤ month ∧ month ≤ 12
  day_mem : 1 ≤ day ∧ day ≤ daysInMonth year month
  hour_lt : hour < 24
  minute_lt : minute < 60
  second_lt : second < 60

def padded (width number : ℕ) : String :=
  String.ofList ((Nat.toDigits 10 number).leftpad width '0')

/-- `Format(time.RFC3339)` of a time in UTC. -/
def formatRfc3339 (time : UtcTime) : String :=
  padded 4 time.year ++ "-" ++ padded 2 time.month ++ "-" ++ padded 2 time.day ++ "T" ++
    padded 2 time.hour ++ ":" ++ padded 2 time.minute ++ ":" ++ padded 2 time.second ++ "Z"

/-- What an HTTP health check gave. -/
inductive HttpOutcome
  | failed (message : String)
  | response (statusCode : ℤ)

/-- `ServiceHealthConfig`, with what the checks of the service gave. -/
structure ServiceChecks where
  (containerName healthCheckUrl : String)
  checkedAt : UtcTime
  durationMs : ℤ
  outcome : HttpOutcome
  tcpChecks : List TcpCheck
  certChecks : List CertCheck

structure MetricsConfig where
  (collectCpu collectMemory collectSwap collectDisk collectLoad collectFds collectTcp
    collectProcesses collectTcpChecks collectCertChecks : Bool)

structure AgentConfig where
  services : List ServiceChecks
  metricsConfig : MetricsConfig

/-- `TCPConnections`. -/
structure TcpConnections where
  (established listen timeWait closeWait total : ℤ)

structure SystemMetrics where
  (cpuPercent memoryUsedMb memoryTotalMb swapUsedMb swapTotalMb diskUsedGb diskTotalGb loadAvg1
    loadAvg5 loadAvg15 : Double)
  (uptime openFds maxFds : ℤ)
  tcpConns : TcpConnections

structure ProcessInfo where
  pid : ℤ
  (name state : String)
  (cpuPercent memoryMb : Double)
  threads : ℤ

structure ProcessStats where
  (total running sleeping stopped zombie : ℤ)

structure TopProcesses where
  (byCpu byMemory : List (ProcessInfo Double))
  stats : ProcessStats

/-- What the agent measures for a push; a collector that fails gives nothing. -/
structure Measurement where
  version : String
  config : Option AgentConfig
  system : Option (SystemMetrics Double)
  docker : DockerAnswers Double
  processes : Option (TopProcesses Double)

structure ServiceHealthResult where
  (containerName healthCheckUrl : String)
  success : Bool
  (statusCode durationMs : Option ℤ)
  checkedAt : String
  error : Option String

/-- `TCPCheckResult`. -/
structure TcpCheckResult where
  (containerName host : String)
  port : ℤ
  name : String
  success : Bool
  durationMs : ℤ
  error : Option String

structure CertCheckResult where
  (containerName host : String)
  port : ℤ
  name : String
  success : Bool
  durationMs : ℤ
  expiresAt : Option String
  daysUntilExpiry : Option ℤ
  (issuer subject error : Option String)

/-- `MetricsPayload`; the metrics of the containers are those of the collector. -/
structure MetricsPayload where
  (cpuPercent memoryUsedMb memoryTotalMb swapUsedMb swapTotalMb diskUsedGb diskTotalGb loadAvg1
    loadAvg5 loadAvg15 : Option Double)
  (uptime openFds maxFds tcpEstablished tcpListen tcpTimeWait tcpCloseWait tcpTotal : Option ℤ)
  serverHealthy : Option Bool
  agentVersion : Option String
  services : List (ContainerMetrics Double)
  serviceHealthChecks : List ServiceHealthResult
  tcpCheckResults : List TcpCheckResult
  certCheckResults : List CertCheckResult
  containers : List ContainerInfo
  topProcesses : Option (TopProcesses Double)

variable {Double}

/-! ### Filling it -/

def nonEmpty (text : String) : Option String :=
  if text ≠ "" then some text else none

variable (config : AgentConfig)

def performHealthChecks : List ServiceHealthResult :=
  (config.services.filter (·.healthCheckUrl ≠ "")).map fun service ↦
    { containerName := service.containerName
      healthCheckUrl := service.healthCheckUrl
      success := match service.outcome with
        | .failed _ => false
        | .response statusCode => 200 ≤ statusCode ∧ statusCode < 400
      statusCode := match service.outcome with
        | .failed _ => none
        | .response statusCode => some statusCode
      durationMs := some service.durationMs
      checkedAt := formatRfc3339 service.checkedAt
      error := match service.outcome with
        | .failed message => some message
        | .response _ => none }

/-- A result of `performTCPChecks`. -/
def tcpCheckResult (containerName : String) (result : PortResult) : TcpCheckResult :=
  { result with containerName, error := nonEmpty result.error }

/-- `performTCPChecks`. -/
def performTcpChecks : List TcpCheckResult :=
  config.services.flatMap fun service ↦
    (checkTcpPorts service.tcpChecks).map (tcpCheckResult service.containerName)

/-- A result of `performCertChecks`. -/
def certCheckResult (containerName : String) (result : CertificateResult) : CertCheckResult :=
  { result with
    containerName
    expiresAt := nonEmpty result.expiresAt
    daysUntilExpiry := if result.daysUntilExpiry ≠ 0 then some result.daysUntilExpiry else none
    issuer := nonEmpty result.issuer
    subject := nonEmpty result.subject
    error := nonEmpty result.error }

def performCertChecks : List CertCheckResult :=
  config.services.flatMap fun service ↦
    (checkCertificates service.certChecks).map (certCheckResult service.containerName)

def MetricsConfig.default : MetricsConfig :=
  ⟨true, true, true, true, true, true, true, true, true, true⟩

section

variable (measured : Measurement Double)

def Measurement.metricsConfig : MetricsConfig :=
  match measured.config with
  | some config => config.metricsConfig
  | none => .default

def Measurement.checked {α : Type} (perform : AgentConfig → List α) : List α :=
  match measured.config with
  | some config => perform config
  | none => []

def Measurement.systemMetric {α : Type} (collect : MetricsConfig → Bool)
    (metric : SystemMetrics Double → α) : Option α :=
  if collect measured.metricsConfig then measured.system.map metric else none

/-- The entries that the loop over the metrics of the containers makes. The loop has one variable for
all of its turns (the module is of Go 1.21), so that the pointers to its fields are those of the last
container; the name is copied, and so are the state and the health before their pointers are
taken. -/
def serviceEntries (containers : List (ContainerMetrics Double)) : List (ContainerMetrics Double) :=
  match containers.getLast? with
  | none => []
  | some last => containers.map fun metrics ↦
    { metrics with stats := last.stats, restartCount := last.restartCount }

/-- The payload that `collectAndSend` fills. -/
def collectAndSend : MetricsPayload Double where
  cpuPercent := measured.systemMetric (·.collectCpu) (·.cpuPercent)
  memoryUsedMb := measured.systemMetric (·.collectMemory) (·.memoryUsedMb)
  memoryTotalMb := measured.systemMetric (·.collectMemory) (·.memoryTotalMb)
  swapUsedMb := measured.systemMetric (·.collectSwap) (·.swapUsedMb)
  swapTotalMb := measured.systemMetric (·.collectSwap) (·.swapTotalMb)
  diskUsedGb := measured.systemMetric (·.collectDisk) (·.diskUsedGb)
  diskTotalGb := measured.systemMetric (·.collectDisk) (·.diskTotalGb)
  loadAvg1 := measured.systemMetric (·.collectLoad) (·.loadAvg1)
  loadAvg5 := measured.systemMetric (·.collectLoad) (·.loadAvg5)
  loadAvg15 := measured.systemMetric (·.collectLoad) (·.loadAvg15)
  uptime := measured.system.map (·.uptime)
  openFds := measured.systemMetric (·.collectFds) (·.openFds)
  maxFds := measured.systemMetric (·.collectFds) (·.maxFds)
  tcpEstablished := measured.systemMetric (·.collectTcp) (·.tcpConns.established)
  tcpListen := measured.systemMetric (·.collectTcp) (·.tcpConns.listen)
  tcpTimeWait := measured.systemMetric (·.collectTcp) (·.tcpConns.timeWait)
  tcpCloseWait := measured.systemMetric (·.collectTcp) (·.tcpConns.closeWait)
  tcpTotal := measured.systemMetric (·.collectTcp) (·.tcpConns.total)
  serverHealthy := some true
  agentVersion := some measured.version
  services := serviceEntries ((collectDockerMetrics measured.docker).getD [])
  serviceHealthChecks := measured.checked performHealthChecks
  tcpCheckResults :=
    if measured.metricsConfig.collectTcpChecks then measured.checked performTcpChecks else []
  certCheckResults :=
    if measured.metricsConfig.collectCertChecks then measured.checked performCertChecks else []
  containers := (collectContainerList measured.docker).getD []
  topProcesses := if measured.metricsConfig.collectProcesses then measured.processes else none

end

/-! ### Encoding it -/

variable (Double) in
inductive JsonNumber
  | integer (value : ℤ)
  | double (value : Double)

variable (Double) in
abbrev Json :=
  JsonData (JsonNumber Double)

def omitEmpty (text : String) : Option (Json Double) :=
  (nonEmpty text).map .string

def omitEmptySlice {α : Type} (encode : α → Json Double) (elements : List α) :
    Option (Json Double) :=
  if elements = [] then none else some (.array (elements.map encode))

def double (value : Double) : Json Double :=
  .number (.double value)

section

variable (read : ℤ → ℤ)

def integer (value : ℤ) : Json Double :=
  .number (.integer (read value))

/-- `ServiceMetrics`, whose pointers are all set. -/
def serviceMetricsJson (metrics : ContainerMetrics Double) : Json Double :=
  .object (present
    [("containerName", some (.string metrics.name)),
      ("cpuPercent", some (double metrics.stats.cpuPercent)),
      ("memoryUsedMb", some (double metrics.stats.memoryUsedMb)),
      ("memoryLimitMb", some (double metrics.stats.memoryLimitMb)),
      ("networkRxMb", some (double metrics.stats.networkRxMb)),
      ("networkTxMb", some (double metrics.stats.networkTxMb)),
      ("blockReadMb", some (double metrics.stats.blockReadMb)),
      ("blockWriteMb", some (double metrics.stats.blockWriteMb)),
      ("restartCount", some (integer read metrics.restartCount)),
      ("state", some (.string metrics.state)), ("health", some (.string metrics.health))])

/-- A `ServiceHealthResult`. -/
def serviceHealthJson (result : ServiceHealthResult) : Json Double :=
  .object (present
    [("containerName", some (.string result.containerName)),
      ("healthCheckUrl", some (.string result.healthCheckUrl)),
      ("success", some (.bool result.success)),
      ("statusCode", result.statusCode.map (integer read)),
      ("durationMs", result.durationMs.map (integer read)),
      ("checkedAt", some (.string result.checkedAt)), ("error", result.error.map .string)])

/-- A `TCPCheckResult`. -/
def tcpCheckJson (result : TcpCheckResult) : Json Double :=
  .object (present
    [("containerName", some (.string result.containerName)), ("host", some (.string result.host)),
      ("port", some (integer read result.port)), ("name", omitEmpty result.name),
      ("success", some (.bool result.success)),
      ("durationMs", some (integer read result.durationMs)), ("error", result.error.map .string)])

/-- A `CertCheckResult`. -/
def certCheckJson (result : CertCheckResult) : Json Double :=
  .object (present
    [("containerName", some (.string result.containerName)), ("host", some (.string result.host)),
      ("port", some (integer read result.port)), ("name", omitEmpty result.name),
      ("success", some (.bool result.success)),
      ("durationMs", some (integer read result.durationMs)),
      ("expiresAt", result.expiresAt.map .string),
      ("daysUntilExpiry", result.daysUntilExpiry.map (integer read)),
      ("issuer", result.issuer.map .string), ("subject", result.subject.map .string),
      ("error", result.error.map .string)])

/-- A `ContainerPort`. -/
def portJson (port : DockerPort) : Json Double :=
  .object (present
    [("privatePort", some (integer read port.privatePort)),
      ("publicPort", if port.publicPort = 0 then none else some (integer read port.publicPort)),
      ("type", some (.string port.type)), ("ip", omitEmpty port.ip)])

/-- A `ContainerMount`. -/
def mountJson (mount : DockerMount) : Json Double :=
  .object (present
    [("source", some (.string mount.source)), ("destination", some (.string mount.destination)),
      ("mode", some (.string mount.mode)), ("type", some (.string mount.type))])

def labelsJson : Option (List (String × String)) → Json Double
  | none => .null
  | some labels => .object (labels.map fun label ↦ (label.1, .string label.2))

/-- A `ContainerInfo`. -/
def containerJson (container : ContainerInfo) : Json Double :=
  .object (present
    [("id", some (.string container.id)), ("name", some (.string container.name)),
      ("image", some (.string container.image)), ("imageId", some (.string container.imageId)),
      ("state", some (.string container.state)), ("status", some (.string container.status)),
      ("created", some (integer read container.created)),
      ("ports", some (.array (container.ports.map (portJson read)))),
      ("labels", some (labelsJson container.labels)),
      ("mounts", some (.array (container.mounts.map mountJson))),
      ("networkMode", some (.string container.networkMode))])

/-- A `ProcessInfoPayload`. -/
def processJson (process : ProcessInfo Double) : Json Double :=
  .object (present
    [("pid", some (integer read process.pid)), ("name", some (.string process.name)),
      ("state", some (.string process.state)), ("cpuPercent", some (double process.cpuPercent)),
      ("memoryMb", some (double process.memoryMb)),
      ("threads", some (integer read process.threads))])

/-- A `ProcessStatsPayload`. -/
def processStatsJson (stats : ProcessStats) : Json Double :=
  .object (present
    [("total", some (integer read stats.total)), ("running", some (integer read stats.running)),
      ("sleeping", some (integer read stats.sleeping)),
      ("stopped", some (integer read stats.stopped)),
      ("zombie", some (integer read stats.zombie))])

/-- A `TopProcessesPayload`. -/
def topProcessesJson (processes : TopProcesses Double) : Json Double :=
  .object (present
    [("byCpu", some (.array (processes.byCpu.map (processJson read)))),
      ("byMemory", some (.array (processes.byMemory.map (processJson read)))),
      ("stats", some (processStatsJson read processes.stats))])

/-- The members of a `MetricsPayload`. -/
def payloadEntries (payload : MetricsPayload Double) : List (String × Option (Json Double)) :=
  [("cpuPercent", payload.cpuPercent.map double),
    ("memoryUsedMb", payload.memoryUsedMb.map double),
    ("memoryTotalMb", payload.memoryTotalMb.map double),
    ("swapUsedMb", payload.swapUsedMb.map double),
    ("swapTotalMb", payload.swapTotalMb.map double),
    ("diskUsedGb", payload.diskUsedGb.map double),
    ("diskTotalGb", payload.diskTotalGb.map double),
    ("loadAvg1", payload.loadAvg1.map double), ("loadAvg5", payload.loadAvg5.map double),
    ("loadAvg15", payload.loadAvg15.map double),
    ("uptime", payload.uptime.map (integer read)),
    ("openFds", payload.openFds.map (integer read)),
    ("maxFds", payload.maxFds.map (integer read)),
    ("tcpEstablished", payload.tcpEstablished.map (integer read)),
    ("tcpListen", payload.tcpListen.map (integer read)),
    ("tcpTimeWait", payload.tcpTimeWait.map (integer read)),
    ("tcpCloseWait", payload.tcpCloseWait.map (integer read)),
    ("tcpTotal", payload.tcpTotal.map (integer read)),
    ("serverHealthy", payload.serverHealthy.map .bool),
    ("agentVersion", payload.agentVersion.map .string),
    ("services", omitEmptySlice (serviceMetricsJson read) payload.services),
    ("serviceHealthChecks", omitEmptySlice (serviceHealthJson read) payload.serviceHealthChecks),
    ("tcpCheckResults", omitEmptySlice (tcpCheckJson read) payload.tcpCheckResults),
    ("certCheckResults", omitEmptySlice (certCheckJson read) payload.certCheckResults),
    ("containers", omitEmptySlice (containerJson read) payload.containers),
    ("topProcesses", payload.topProcesses.map (topProcessesJson read))]

def pushBody (measured : Measurement Double) : Json Double :=
  .object (present (payloadEntries read (collectAndSend measured)))

end

end Bridgeport.Agent
