import Bridgeport.Agent.Ingest

/-!
# The check results that are stored

A push is accepted, and what is stored of its TCP and certificate checks reads as what the agent
measured, if and only if every container that it lists has labels, no certificate that it has read
expires within a day, and the integers of the checks are those that a JavaScript number holds
(`storesMeasured_iff`).

The readers of the stored results take an empty text for one that is not there, and tell a number of
days that is not there from zero. The check of a date and time is a parameter.
-/

namespace Bridgeport.Agent

section

open Foundation Schema

/-! ### Schemas -/

section

variable (isDatetime : String → Bool)

def serviceHealthCheckSchema : Schema :=
  .object
    [required "containerName" .string, required "healthCheckUrl" .string,
      required "success" .boolean, optional "statusCode" .number, optional "durationMs" .number,
      optional "checkedAt" (.text isDatetime), optional "error" .string]

def portSchema : Schema :=
  .object
    [required "privatePort" .number, optional "publicPort" .number, required "type" .string,
      optional "ip" .string]

def mountSchema : Schema :=
  .object
    [required "source" .string, required "destination" .string, required "mode" .string,
      required "type" .string]

/-- The fields of `containerInfoSchema`. -/
def containerInfoFields : List (String × Bool × Schema) :=
  [required "id" .string, required "name" .string, required "image" .string,
    required "imageId" .string, required "state" .string, required "status" .string,
    required "created" .number, optional "ports" (.array portSchema),
    optional "labels" (.record .string), optional "mounts" (.array mountSchema),
    optional "networkMode" .string]

def containerInfoSchema : Schema :=
  .object containerInfoFields

def processInfoSchema : Schema :=
  .object
    [required "pid" .number, required "name" .string, required "state" .string,
      required "cpuPercent" .number, required "memoryMb" .number, required "threads" .number]

def processStatsSchema : Schema :=
  .object
    [required "total" .number, required "running" .number, required "sleeping" .number,
      required "stopped" .number, required "zombie" .number]

def topProcessesSchema : Schema :=
  .object
    [required "byCpu" (.array processInfoSchema), required "byMemory" (.array processInfoSchema),
      required "stats" processStatsSchema]

def tcpCheckResultSchema : Schema :=
  .object
    [required "containerName" .string, required "host" .string, required "port" .number,
      optional "name" .string, required "success" .boolean, required "durationMs" .number,
      optional "error" .string]

def certCheckResultSchema : Schema :=
  .object
    [required "containerName" .string, required "host" .string, required "port" .number,
      optional "name" .string, required "success" .boolean, required "durationMs" .number,
      optional "expiresAt" .string, optional "daysUntilExpiry" .number, optional "issuer" .string,
      optional "subject" .string, optional "error" .string]

def serviceMetricsSchema : Schema :=
  .object
    [required "containerName" .string, optional "cpuPercent" .number,
      optional "memoryUsedMb" .number, optional "memoryLimitMb" .number,
      optional "networkRxMb" .number, optional "networkTxMb" .number,
      optional "blockReadMb" .number, optional "blockWriteMb" .number,
      optional "restartCount" .number, optional "state" .string, optional "health" .string]

/-- The fields of `serverMetricsIngestSchema`. -/
def serverMetricsIngestFields : List (String × Bool × Schema) :=
  [optional "cpuPercent" .number, optional "memoryUsedMb" .number,
    optional "memoryTotalMb" .number, optional "swapUsedMb" .number,
    optional "swapTotalMb" .number, optional "diskUsedGb" .number, optional "diskTotalGb" .number,
    optional "loadAvg1" .number, optional "loadAvg5" .number, optional "loadAvg15" .number,
    optional "uptime" .number, optional "openFds" .number, optional "maxFds" .number,
    optional "tcpEstablished" .number, optional "tcpListen" .number,
    optional "tcpTimeWait" .number, optional "tcpCloseWait" .number, optional "tcpTotal" .number,
    optional "serverHealthy" .boolean, optional "agentVersion" .string,
    optional "services" (.array serviceMetricsSchema),
    optional "serviceHealthChecks" (.array (serviceHealthCheckSchema isDatetime)),
    optional "tcpCheckResults" (.array tcpCheckResultSchema),
    optional "certCheckResults" (.array certCheckResultSchema),
    optional "containers" (.array containerInfoSchema),
    optional "topProcesses" topProcessesSchema]

def serverMetricsIngestSchema : Schema :=
  .object (serverMetricsIngestFields isDatetime)

end

/-! ### The parts of a payload -/

variable {Double : Type}

@[simp]
theorem accepts_string (value : String) : Schema.string.Accepts (.string value : Json Double) := by
  simp [Accepts, parse]

@[simp]
theorem accepts_boolean (value : Bool) : Schema.boolean.Accepts (.bool value : Json Double) := by
  simp [Accepts, parse]

@[simp]
theorem accepts_double (value : Double) : Schema.number.Accepts (double value) := by
  simp [Accepts, parse, double]

@[simp]
theorem accepts_integer (read : ℤ → ℤ) (value : ℤ) :
    Schema.number.Accepts (integer read value : Json Double) := by
  simp [Accepts, parse, integer]

variable {given : Json Double}

@[simp]
theorem omitEmpty_eq_some {text : String} :
    omitEmpty text = some given ↔ text ≠ "" ∧ .string text = given := by
  unfold omitEmpty nonEmpty
  by_cases h : text = ""
  · simp [h]
  · simp [h]

@[simp]
theorem omitEmptySlice_eq_some {α : Type} {encode : α → Json Double} {elements : List α} :
    omitEmptySlice encode elements = some given ↔
      elements ≠ [] ∧ .array (elements.map encode) = given := by
  unfold omitEmptySlice
  by_cases h : elements = []
  · simp [h]
  · simp [h]

variable {payload : MetricsPayload Double} {result : ServiceHealthResult}

section

variable (read : ℤ → ℤ)

@[simp]
theorem accepts_serviceMetricsJson (metrics : ContainerMetrics Double) :
    serviceMetricsSchema.Accepts (serviceMetricsJson read metrics) :=
  accepts_present (by simp) (by simp)

@[simp]
theorem accepts_tcpCheckJson (result : TcpCheckResult) :
    tcpCheckResultSchema.Accepts (tcpCheckJson read result : Json Double) :=
  accepts_present (by simp) (by simp)

@[simp]
theorem accepts_certCheckJson (result : CertCheckResult) :
    certCheckResultSchema.Accepts (certCheckJson read result : Json Double) :=
  accepts_present (by simp) (by simp)

theorem accepts_serviceHealthJson {isDatetime : String → Bool} (h : isDatetime result.checkedAt) :
    (serviceHealthCheckSchema isDatetime).Accepts (serviceHealthJson read result : Json Double) := by
  have hchecked : (Schema.text isDatetime).Accepts (.string result.checkedAt : Json Double) := by
    simp [Accepts, parse, h]
  exact accepts_present (by simp [hchecked]) (by simp)

@[simp]
theorem accepts_portJson (port : DockerPort) :
    portSchema.Accepts (portJson read port : Json Double) :=
  accepts_present (by simp) (by simp)

@[simp]
theorem accepts_mountJson (mount : DockerMount) :
    mountSchema.Accepts (mountJson mount : Json Double) :=
  accepts_present (by simp) (by simp)

@[simp]
theorem accepts_processJson (process : ProcessInfo Double) :
    processInfoSchema.Accepts (processJson read process) :=
  accepts_present (by simp) (by simp)

@[simp]
theorem accepts_processStatsJson (stats : ProcessStats) :
    processStatsSchema.Accepts (processStatsJson read stats : Json Double) :=
  accepts_present (by simp) (by simp)

@[simp]
theorem accepts_topProcessesJson (processes : TopProcesses Double) :
    topProcessesSchema.Accepts (topProcessesJson read processes) :=
  accepts_present (by simp) (by simp)

theorem accepts_labelsJson {labels : Option (List (String × String))} (h : labels ≠ none) :
    (Schema.record .string).Accepts (labelsJson labels : Json Double) := by
  obtain ⟨labels, rfl⟩ := Option.ne_none_iff_exists'.mp h
  refine accepts_record fun member hmember ↦ ?_
  obtain ⟨label, -, rfl⟩ := List.mem_map.mp hmember
  exact accepts_string label.2

variable {container : ContainerInfo}

/-- A container whose labels are a `nil` map is rejected. -/
theorem parse_containerJson_eq_none (h : container.labels = none) :
    containerInfoSchema.parse (containerJson read container : Json Double) = none := by
  have hfield : ("labels", false, Schema.record .string) ∈ containerInfoFields := by
    simp [containerInfoFields, Foundation.optional]
  have hnull : (Schema.record .string).parse (.null : Json Double) = none := by
    simp [parse]
  refine parse_object_eq_none hfield (lookup_present (by simp) ?_) hnull
  simp [h, labelsJson]

/-! ### The payload -/

variable {isDatetime : String → Bool}

theorem nodup_payloadEntries (payload : MetricsPayload Double) :
    ((payloadEntries read payload).map Prod.fst).Nodup := by
  simp [payloadEntries]

/-- The containers of a push have labels. -/
def LabelsPresent (containers : List ContainerInfo) : Prop :=
  ∀ container ∈ containers, container.labels ≠ none

/-- A payload is accepted if its containers have labels and its times are dates and times. -/
theorem accepts_payload (hlabels : LabelsPresent payload.containers)
    (hchecks : ∀ result ∈ payload.serviceHealthChecks, isDatetime result.checkedAt) :
    (serverMetricsIngestSchema isDatetime).Accepts
      (.object (present (payloadEntries read payload))) := by
  have hhealth : ∀ result ∈ payload.serviceHealthChecks,
      (serviceHealthCheckSchema isDatetime).Accepts (serviceHealthJson read result : Json Double) :=
    fun result hresult ↦ accepts_serviceHealthJson read (hchecks result hresult)
  have hcontainers : ∀ container ∈ payload.containers,
      containerInfoSchema.Accepts (containerJson read container : Json Double) :=
    fun container hcontainer ↦ accepts_present
      (by simp [containerInfoFields, accepts_labelsJson (hlabels container hcontainer)]) (by simp)
  refine accepts_present ?_ (nodup_payloadEntries read payload)
  simpa [serverMetricsIngestFields, payloadEntries, -Bool.exists_bool, -Bool.forall_bool] using
    ⟨fun _ ↦ hhealth, fun _ ↦ hcontainers⟩

theorem parse_payload_eq_none (hcontainer : container ∈ payload.containers)
    (hlabels : container.labels = none) : (serverMetricsIngestSchema isDatetime).parse
      (.object (present (payloadEntries read payload))) = none := by
  have hfield : ("containers", false, Schema.array containerInfoSchema) ∈
      serverMetricsIngestFields isDatetime := by
    simp [serverMetricsIngestFields, Foundation.optional]
  have hne : payload.containers ≠ [] := List.ne_nil_of_mem hcontainer
  have hentry : ("containers", some (.array (payload.containers.map (containerJson read)))) ∈
      payloadEntries read payload := by
    simp [payloadEntries, omitEmptySlice, hne]
  refine parse_object_eq_none hfield (lookup_present (nodup_payloadEntries read payload) hentry) ?_
  exact parse_array_eq_none (List.mem_map_of_mem hcontainer)
    (parse_containerJson_eq_none read hlabels)

variable {measured : Measurement Double}

theorem parse_pushBody (hdatetime : ∀ time, isDatetime (formatRfc3339 time) = true)
    (hlabels : LabelsPresent (collectAndSend measured).containers) :
    (serverMetricsIngestSchema isDatetime).parse (pushBody read measured) =
      some (pushBody read measured) := by
  refine accepts_payload read hlabels fun result hresult ↦ ?_
  cases hconfig : measured.config with
  | none => simp [collectAndSend, Measurement.checked, hconfig] at hresult
  | some config =>
    have hmem : result ∈ performHealthChecks config := by
      simpa [collectAndSend, Measurement.checked, hconfig] using hresult
    obtain ⟨service, -, rfl⟩ := List.mem_map.mp hmem
    exact hdatetime service.checkedAt

theorem parse_pushBody_eq_none (hlabels : ¬ LabelsPresent (collectAndSend measured).containers) :
    (serverMetricsIngestSchema isDatetime).parse (pushBody read measured) = none := by
  obtain ⟨container, hcontainer, hnone⟩ := by simpa [LabelsPresent] using hlabels
  exact parse_payload_eq_none read hcontainer hnone

end

end

open Foundation Schema List Function

variable {Double : Type}

/-! ### What is measured and what is read -/

/-- A TCP check, as a reader of its result sees it. -/
structure TcpReading where
  (containerName host : String)
  port : ℤ
  name : Option String
  success : Bool
  durationMs : ℤ
  error : Option String

/-- A certificate check, as a reader of its result sees it. -/
structure CertReading where
  (containerName host : String)
  port : ℤ
  name : Option String
  success : Bool
  durationMs : ℤ
  expiresAt : Option String
  daysUntilExpiry : Option ℤ
  (issuer subject error : Option String)

def measuredTcp (check : String × TcpCheck) : TcpReading where
  containerName := check.1
  host := check.2.host
  port := check.2.port
  name := nonEmpty check.2.name
  success := check.2.error.isNone
  durationMs := check.2.durationMs
  error := check.2.error.bind nonEmpty

def measuredCert (check : String × CertCheck) : CertReading :=
  let result : CertReading :=
    { containerName := check.1, host := check.2.host, port := check.2.port
      name := nonEmpty check.2.name, success := false, durationMs := check.2.durationMs
      expiresAt := none, daysUntilExpiry := none, issuer := none, subject := none, error := none }
  match check.2.outcome with
  | .failed message => { result with error := nonEmpty message }
  | .noCertificates => { result with error := some "no certificates found" }
  | .certificate expiresAt daysUntilExpiry issuer subject =>
    { result with
      success := 0 ≤ daysUntilExpiry, expiresAt := nonEmpty expiresAt
      daysUntilExpiry := some daysUntilExpiry, issuer := nonEmpty issuer
      subject := nonEmpty subject
      error := if daysUntilExpiry < 0 then some "certificate has expired" else none }

section

variable (measured : Measurement Double)

def Measurement.performed {α : Type} (collect : MetricsConfig → Bool)
    (checks : ServiceChecks → List α) : List (String × α) :=
  if collect measured.metricsConfig then
    measured.checked fun config ↦
      config.services.flatMap fun service ↦ (checks service).map (service.containerName, ·)
  else []

def Measurement.tcpChecks : List (String × TcpCheck) :=
  measured.performed (·.collectTcpChecks) (·.tcpChecks)

def Measurement.certChecks : List (String × CertCheck) :=
  measured.performed (·.collectCertChecks) (·.certChecks)

end

def readText (name : String) (value : Json Double) : Option String :=
  (textMember name value).bind nonEmpty

/-- A stored result of a TCP check. -/
def readTcp (value : Json Double) : Option TcpReading := do
  let containerName ← textMember "containerName" value
  let host ← textMember "host" value
  let port ← integerMember "port" value
  let success ← boolMember "success" value
  let durationMs ← integerMember "durationMs" value
  return { containerName, host, port, name := readText "name" value, success, durationMs
           error := readText "error" value }

/-- A stored result of a certificate check. -/
def readCert (value : Json Double) : Option CertReading := do
  let containerName ← textMember "containerName" value
  let host ← textMember "host" value
  let port ← integerMember "port" value
  let success ← boolMember "success" value
  let durationMs ← integerMember "durationMs" value
  return { containerName, host, port, name := readText "name" value, success, durationMs
           expiresAt := readText "expiresAt" value
           daysUntilExpiry := integerMember "daysUntilExpiry" value
           issuer := readText "issuer" value, subject := readText "subject" value
           error := readText "error" value }

def decodeStored {ρ : Type} (readResult : Json Double → Option ρ) :
    Option (Json Double) → Option (List ρ)
  | some (.array elements) => elements.mapM readResult
  | _ => none

def checksOf {α : Type} (name : String) (checks : List (String × α)) : List (String × α) :=
  checks.filter (·.1 = name)

section

variable (isDatetime : String → Bool) (read : ℤ → ℤ) (measured : Measurement Double)
  (deployments : Deployments Double)

/-- The push is accepted, and what it stores of the checks of a deployment reads as what they have
measured. -/
def StoresMeasured : Prop :=
  ∃ body, (serverMetricsIngestSchema isDatetime).parse (pushBody read measured) = some body ∧
    ∀ row ∈ (ingest deployments body).rows,
      (checksOf row.containerName measured.tcpChecks ≠ [] →
        decodeStored readTcp row.agentTcpCheckResults =
          some ((checksOf row.containerName measured.tcpChecks).map measuredTcp)) ∧
      (checksOf row.containerName measured.certChecks ≠ [] →
        decodeStored readCert row.agentCertCheckResults =
          some ((checksOf row.containerName measured.certChecks).map measuredCert))

/-- A container name belongs to a deployment. -/
def Deployed (name : String) : Prop :=
  ∃ row ∈ deployments.rows, row.containerName = name

/-- No certificate that has been read expires within a day, and its days are exact. -/
def CertOutcome.DaysCarried (outcome : CertOutcome) : Prop :=
  match outcome with
  | .certificate _ daysUntilExpiry _ _ => daysUntilExpiry ≠ 0 ∧ read daysUntilExpiry = daysUntilExpiry
  | _ => True

/-- Every container has labels, the integers of the checks are exact, and no certificate that has
been read has zero days left. -/
structure Carried : Prop where
  labels : ∀ containers, measured.docker.all = some containers →
    ∀ container ∈ containers, container.labels ≠ none
  tcp : ∀ check ∈ measured.tcpChecks, Deployed deployments check.1 →
    read check.2.port = check.2.port ∧ read check.2.durationMs = check.2.durationMs
  cert : ∀ check ∈ measured.certChecks, Deployed deployments check.1 →
    read check.2.port = check.2.port ∧ read check.2.durationMs = check.2.durationMs ∧
      check.2.outcome.DaysCarried read

end

/-! ### Reading what is written -/

variable {name : String} {value : Json Double}

section

variable {read : ℤ → ℤ}

@[simp]
theorem nonEmpty_empty : nonEmpty "" = none :=
  rfl

theorem nonEmpty_bind_nonEmpty (text : String) : (nonEmpty text).bind nonEmpty = nonEmpty text := by
  unfold nonEmpty
  by_cases h : text = ""
  · simp [h]
  · simp [h]

theorem readText_of_member {text : Option String} (h : member name value = text.map .string) :
    readText name value = text.bind nonEmpty := by
  unfold readText textMember
  rw [h]
  cases text <;> rfl

theorem readText_of_omitEmpty {text : String} (h : member name value = omitEmpty text) :
    readText name value = nonEmpty text := by
  rw [readText_of_member h, nonEmpty_bind_nonEmpty]

theorem integerMember_of_member {number : Option ℤ}
    (h : member name value = number.map (integer read)) :
    integerMember name value = number.map read := by
  unfold integerMember
  rw [h]
  cases number <;> rfl

theorem readTcp_tcpCheckJson (result : TcpCheckResult) :
    readTcp (tcpCheckJson read result : Json Double) = some
      { containerName := result.containerName, host := result.host, port := read result.port
        name := nonEmpty result.name, success := result.success
        durationMs := read result.durationMs, error := result.error.bind nonEmpty } := by
  have hname : readText "name" (tcpCheckJson read result : Json Double) = nonEmpty result.name :=
    readText_of_omitEmpty (by simp [tcpCheckJson, member])
  have herror : readText "error" (tcpCheckJson read result : Json Double) =
      result.error.bind nonEmpty := readText_of_member (by simp [tcpCheckJson, member])
  rw [readTcp, hname, herror]
  simp [tcpCheckJson, member, textMember, boolMember, integerMember, integer]

theorem readCert_certCheckJson (result : CertCheckResult) :
    readCert (certCheckJson read result : Json Double) = some
      { containerName := result.containerName, host := result.host, port := read result.port
        name := nonEmpty result.name, success := result.success
        durationMs := read result.durationMs, expiresAt := result.expiresAt.bind nonEmpty
        daysUntilExpiry := result.daysUntilExpiry.map read
        issuer := result.issuer.bind nonEmpty, subject := result.subject.bind nonEmpty
        error := result.error.bind nonEmpty } := by
  have hname : readText "name" (certCheckJson read result : Json Double) = nonEmpty result.name :=
    readText_of_omitEmpty (by simp [certCheckJson, member])
  have hexpires : readText "expiresAt" (certCheckJson read result : Json Double) =
      result.expiresAt.bind nonEmpty := readText_of_member (by simp [certCheckJson, member])
  have hdays : integerMember "daysUntilExpiry" (certCheckJson read result : Json Double) =
      result.daysUntilExpiry.map read := integerMember_of_member (by simp [certCheckJson, member])
  have hissuer : readText "issuer" (certCheckJson read result : Json Double) =
      result.issuer.bind nonEmpty := readText_of_member (by simp [certCheckJson, member])
  have hsubject : readText "subject" (certCheckJson read result : Json Double) =
      result.subject.bind nonEmpty := readText_of_member (by simp [certCheckJson, member])
  have herror : readText "error" (certCheckJson read result : Json Double) =
      result.error.bind nonEmpty := readText_of_member (by simp [certCheckJson, member])
  rw [readCert, hname, hexpires, hdays, hissuer, hsubject, herror]
  simp [certCheckJson, member, textMember, boolMember, integerMember, integer]

theorem readTcp_tcpCheckResult (check : String × TcpCheck) :
    readTcp (tcpCheckJson read (tcpCheckResult check.1 (checkTcpPort check.2)) : Json Double) =
      some { measuredTcp check with
        port := read check.2.port, durationMs := read check.2.durationMs } := by
  rw [readTcp_tcpCheckJson]
  have herror : (nonEmpty (check.2.error.getD "")).bind nonEmpty = check.2.error.bind nonEmpty := by
    rw [nonEmpty_bind_nonEmpty]
    cases check.2.error <;> rfl
  simp [tcpCheckResult, checkTcpPort, measuredTcp, herror]

def writtenDays (read : ℤ → ℤ) : CertOutcome → Option ℤ
  | .certificate _ daysUntilExpiry _ _ =>
    if daysUntilExpiry ≠ 0 then some (read daysUntilExpiry) else none
  | _ => none

theorem readCert_certCheckResult (check : String × CertCheck) :
    readCert (certCheckJson read (certCheckResult check.1 (checkCertificate check.2)) :
      Json Double) =
      some { measuredCert check with
        port := read check.2.port, durationMs := read check.2.durationMs
        daysUntilExpiry := writtenDays read check.2.outcome } := by
  rw [readCert_certCheckJson]
  simp only [certCheckResult, nonEmpty_bind_nonEmpty]
  obtain ⟨name, host, port, label, durationMs, outcome⟩ := check
  cases outcome with
  | failed message => simp [checkCertificate, measuredCert, writtenDays]
  | noCertificates =>
    have herror : nonEmpty "no certificates found" = some "no certificates found" := rfl
    simp [checkCertificate, measuredCert, writtenDays, herror]
  | certificate expiresAt daysUntilExpiry issuer subject =>
    by_cases hdays : daysUntilExpiry < 0
    · have herror : nonEmpty "certificate has expired" = some "certificate has expired" := rfl
      have hne : daysUntilExpiry ≠ 0 := by omega
      simp [checkCertificate, measuredCert, writtenDays, hdays, hne, herror]
    · have hle : 0 ≤ daysUntilExpiry := by omega
      by_cases hzero : daysUntilExpiry = 0
      · simp [checkCertificate, measuredCert, writtenDays, hzero]
      · simp [checkCertificate, measuredCert, writtenDays, hdays, hle, hzero]

end

/-! ### What is stored -/

section

variable {isDatetime : String → Bool} {read : ℤ → ℤ} {measured : Measurement Double}
  {deployments : Deployments Double}

theorem tcpCheckResults_collectAndSend :
    (collectAndSend measured).tcpCheckResults =
      measured.tcpChecks.map fun check ↦ tcpCheckResult check.1 (checkTcpPort check.2) := by
  unfold collectAndSend Measurement.tcpChecks Measurement.performed Measurement.checked
  cases hconfig : measured.config with
  | none => simp
  | some config =>
    by_cases hcollect : measured.metricsConfig.collectTcpChecks
    · simp [hcollect, performTcpChecks, checkTcpPorts, map_flatMap, comp_def]
    · simp [hcollect]

theorem certCheckResults_collectAndSend :
    (collectAndSend measured).certCheckResults =
      measured.certChecks.map fun check ↦ certCheckResult check.1 (checkCertificate check.2) := by
  unfold collectAndSend Measurement.certChecks Measurement.performed Measurement.checked
  cases hconfig : measured.config with
  | none => simp
  | some config =>
    by_cases hcollect : measured.metricsConfig.collectCertChecks
    · simp [hcollect, performCertChecks, checkCertificates, map_flatMap, comp_def]
    · simp [hcollect]

theorem sliceMember_of_member {α : Type} {encode : α → Json Double} {elements : List α}
    (h : member name value = omitEmptySlice encode elements) :
    sliceMember name value = elements.map encode := by
  unfold sliceMember
  rw [h]
  by_cases hempty : elements = []
  · simp [omitEmptySlice, hempty]
  · simp [omitEmptySlice, hempty]

theorem sliceMember_tcpCheckResults :
    sliceMember "tcpCheckResults" (pushBody read measured) = measured.tcpChecks.map fun check ↦
      tcpCheckJson read (tcpCheckResult check.1 (checkTcpPort check.2)) := by
  have hmember : member "tcpCheckResults" (pushBody read measured) =
      omitEmptySlice (tcpCheckJson read) (collectAndSend measured).tcpCheckResults :=
    by simp [member, pushBody, payloadEntries]
  rw [sliceMember_of_member hmember, tcpCheckResults_collectAndSend, map_map]
  rfl

theorem sliceMember_certCheckResults :
    sliceMember "certCheckResults" (pushBody read measured) = measured.certChecks.map fun check ↦
      certCheckJson read (certCheckResult check.1 (checkCertificate check.2)) := by
  have hmember : member "certCheckResults" (pushBody read measured) =
      omitEmptySlice (certCheckJson read) (collectAndSend measured).certCheckResults :=
    by simp [member, pushBody, payloadEntries]
  rw [sliceMember_of_member hmember, certCheckResults_collectAndSend, map_map]
  rfl

theorem get_groupByContainer {α : Type} {checks : List (String × α)}
    {encode : String × α → Json Double} (hname : ∀ check, elementName (encode check) = check.1)
    (hne : checksOf name checks ≠ []) :
    (groupByContainer (checks.map encode)).get name = some ((checksOf name checks).map encode) := by
  have hfilter : (checks.map encode).filter (elementName · = name) =
      (checksOf name checks).map encode := by
    rw [filter_map, checksOf]
    simp [comp_def, hname]
  have hmap : (checksOf name checks).map encode ≠ [] := by simpa using hne
  rw [groupByContainer, OrderedMap.get_groupBy, hfilter, if_neg hmap]

/-- The column that holds the results of the checks of a kind reads as they are measured if and only
if each of them does. -/
theorem decodeStored_eq_iff {α ρ : Type} {readResult : Json Double → Option ρ}
    {encode : α → Json Double} {written meant : α → ρ}
    (hread : ∀ check, readResult (encode check) = some (written check)) (checks : List α) :
    decodeStored readResult (some (.array (checks.map encode))) = some (checks.map meant) ↔
      ∀ check ∈ checks, written check = meant check := by
  have hwritten : (checks.map encode).mapM readResult = some (checks.map written) := by
    induction checks with
    | nil => rfl
    | cons check rest ih => simp [hread, ih]
  simp [decodeStored, hwritten]

variable {row : ServiceDeployment Double}

theorem decodeStored_tcp_iff :
    (checksOf row.containerName measured.tcpChecks ≠ [] → decodeStored readTcp
        (row.apply (said row.containerName (pushBody read measured))).agentTcpCheckResults =
      some ((checksOf row.containerName measured.tcpChecks).map measuredTcp)) ↔
    ∀ check ∈ checksOf row.containerName measured.tcpChecks,
      read check.2.port = check.2.port ∧ read check.2.durationMs = check.2.durationMs := by
  by_cases hne : checksOf row.containerName measured.tcpChecks = []
  · simp [hne]
  have hstored : (row.apply (said row.containerName (pushBody read measured))).agentTcpCheckResults =
      some (.array ((checksOf row.containerName measured.tcpChecks).map fun check ↦
        tcpCheckJson read (tcpCheckResult check.1 (checkTcpPort check.2)))) := by
    rw [ServiceDeployment.apply, tcpCheckResults_said, sliceMember_tcpCheckResults,
      get_groupByContainer (fun _ ↦ by
        simp [elementName, textMember, member, tcpCheckJson, tcpCheckResult]) hne]
    rfl
  rw [forall_prop_of_true hne, hstored, decodeStored_eq_iff readTcp_tcpCheckResult]
  simp [measuredTcp]

/-- The certificate checks of a deployment read as they are measured if and only if their integers
are exact and no certificate has zero days left. -/
theorem decodeStored_cert_iff :
    (checksOf row.containerName measured.certChecks ≠ [] → decodeStored readCert
        (row.apply (said row.containerName (pushBody read measured))).agentCertCheckResults =
      some ((checksOf row.containerName measured.certChecks).map measuredCert)) ↔
    ∀ check ∈ checksOf row.containerName measured.certChecks,
      read check.2.port = check.2.port ∧ read check.2.durationMs = check.2.durationMs ∧
        check.2.outcome.DaysCarried read := by
  by_cases hne : checksOf row.containerName measured.certChecks = []
  · simp [hne]
  have hstored :
      (row.apply (said row.containerName (pushBody read measured))).agentCertCheckResults =
      some (.array ((checksOf row.containerName measured.certChecks).map fun check ↦
        certCheckJson read (certCheckResult check.1 (checkCertificate check.2)))) := by
    rw [ServiceDeployment.apply, certCheckResults_said, sliceMember_certCheckResults,
      get_groupByContainer (fun _ ↦ by
        simp [elementName, textMember, member, certCheckJson, certCheckResult]) hne]
    rfl
  rw [forall_prop_of_true hne, hstored, decodeStored_eq_iff readCert_certCheckResult]
  refine forall₂_congr fun check _ ↦ ?_
  obtain ⟨name, host, port, label, durationMs, outcome⟩ := check
  cases outcome with
  | failed _ | noCertificates => simp [measuredCert, writtenDays, CertOutcome.DaysCarried]
  | certificate expiresAt daysUntilExpiry issuer subject =>
    by_cases hdays : daysUntilExpiry = 0
    · simp [measuredCert, writtenDays, CertOutcome.DaysCarried, hdays]
    · simp [measuredCert, writtenDays, CertOutcome.DaysCarried, hdays]

/-- The containers of a push have labels if those of the daemon have. -/
theorem labelsPresent_iff : LabelsPresent (collectAndSend measured).containers ↔
    ∀ containers, measured.docker.all = some containers →
      ∀ container ∈ containers, container.labels ≠ none := by
  unfold LabelsPresent collectAndSend collectContainerList
  cases measured.docker.all with
  | none => simp
  | some containers => simp [containerInfo]

theorem forall_checksOf_iff {α : Type} {checks : List (String × α)} {good : String × α → Prop} :
    (∀ row ∈ deployments.rows, ∀ check ∈ checksOf row.containerName checks, good check) ↔
      ∀ check ∈ checks, Deployed deployments check.1 → good check := by
  constructor
  · rintro h check hcheck ⟨row, hrow, hname⟩
    exact h row hrow check (mem_filter.mpr ⟨hcheck, decide_eq_true hname.symm⟩)
  · intro h row hrow check hcheck
    obtain ⟨hmem, hname⟩ := mem_filter.mp hcheck
    exact h check hmem ⟨row, hrow, (of_decide_eq_true hname).symm⟩

theorem labels_of_storesMeasured (h : StoresMeasured isDatetime read measured deployments) :
    LabelsPresent (collectAndSend measured).containers := by
  by_contra hlabels
  obtain ⟨body, hbody, -⟩ := h
  rw [parse_pushBody_eq_none read hlabels] at hbody
  nomatch hbody

variable (hdatetime : ∀ time, isDatetime (formatRfc3339 time) = true)
include hdatetime

theorem storesMeasured_iff_of_labels (hlabels : LabelsPresent (collectAndSend measured).containers) :
    StoresMeasured isDatetime read measured deployments ↔
      (∀ check ∈ measured.tcpChecks, Deployed deployments check.1 →
        read check.2.port = check.2.port ∧ read check.2.durationMs = check.2.durationMs) ∧
      ∀ check ∈ measured.certChecks, Deployed deployments check.1 →
        read check.2.port = check.2.port ∧ read check.2.durationMs = check.2.durationMs ∧
          check.2.outcome.DaysCarried read := by
  rw [← forall_checksOf_iff, ← forall_checksOf_iff, ← forall₂_and]
  unfold StoresMeasured
  simp only [parse_pushBody read hdatetime hlabels, Option.some.injEq, exists_eq_left', ingest,
    forall_mem_map]
  refine forall₂_congr fun row hrow ↦ ?_
  have hname : (row.apply (said row.containerName (pushBody read measured))).containerName =
      row.containerName := rfl
  rw [Deployments.ingestRow_eq hrow, hname]
  exact and_congr decodeStored_tcp_iff decodeStored_cert_iff

/-- A push is accepted and its checks are stored as they were measured if and only if what it
carries can be written. -/
theorem storesMeasured_iff :
    StoresMeasured isDatetime read measured deployments ↔ Carried read measured deployments := by
  constructor
  · intro h
    have hlabels := labels_of_storesMeasured h
    obtain ⟨htcp, hcert⟩ := (storesMeasured_iff_of_labels hdatetime hlabels).mp h
    exact ⟨labelsPresent_iff.mp hlabels, htcp, hcert⟩
  · intro h
    exact (storesMeasured_iff_of_labels hdatetime (labelsPresent_iff.mpr h.labels)).mpr
      ⟨h.tcp, h.cert⟩

end

/-! ### A certificate that expires within a day -/

/-- Whether a date and time is in UTC. -/
def endsInZ (text : String) : Bool :=
  text.toList.getLast? = some 'Z'

theorem endsInZ_formatRfc3339 (time : UtcTime) : endsInZ (formatRfc3339 time) = true := by
  rw [endsInZ, formatRfc3339, String.toList_append]
  exact decide_eq_true List.getLast?_concat

def certMeasurement (days : ℤ) : Measurement Rat where
  version := "1.0.0"
  config := some
    { services :=
        [{ containerName := "web", healthCheckUrl := "http://localhost/health"
           checkedAt := ⟨2026, 6, 1, 12, 0, 0, by decide, by decide, by decide, by decide,
             by decide, by decide⟩
           durationMs := 3, outcome := .response 200
           tcpChecks := [{ host := "localhost", port := 80, name := "", durationMs := 1,
                           error := some "connection refused" }]
           certChecks := [{ host := "example.com", port := 443, name := "site", durationMs := 12
                            outcome := .certificate "2026-06-02T00:00:00Z" days "R3"
                              "example.com" }] }]
      metricsConfig := .default }
  system := none
  docker :=
    { running := some []
      all := some
        [{ id := "4f1c9a2b7d3e", names := ["/web"], image := "web:1", imageId := "sha256:1"
           state := "exited", status := "Exited (0) 2 hours ago", created := 1780000000
           ports := [], labels := some [], mounts := [], networkMode := "bridge"
           stats := none, inspect := none }] }
  processes := none

def webDeployments : Deployments Rat where
  rows :=
    [{ id := "d1", containerName := "web", container := ⟨"stopped", "exited", "unknown"⟩
       agentHealth := none, agentTcpCheckResults := none, agentCertCheckResults := none }]
  nodup_id := by decide
  nodup_name := by decide

/-- A certificate that expires within a day is stored without its days. -/
theorem not_storesMeasured : ¬ StoresMeasured endsInZ id (certMeasurement 0) webDeployments := by
  intro h
  have hlabels := labels_of_storesMeasured h
  obtain ⟨-, hcert⟩ := (storesMeasured_iff_of_labels endsInZ_formatRfc3339 hlabels).mp h
  obtain ⟨-, -, hdays⟩ := hcert _ (mem_singleton_self _) ⟨_, mem_singleton_self _, rfl⟩
  exact hdays.1 rfl

/-- One that expires later is stored as it is. -/
theorem storesMeasured_certMeasurement :
    StoresMeasured endsInZ id (certMeasurement 30) webDeployments := by
  refine (storesMeasured_iff endsInZ_formatRfc3339).mpr ⟨?_, ?_, ?_⟩
  · intro containers hcontainers container hcontainer
    obtain rfl := Option.some.inj hcontainers
    obtain rfl := mem_singleton.mp hcontainer
    simp
  · intro check _ _
    exact ⟨rfl, rfl⟩
  · intro check hcheck _
    obtain rfl := mem_singleton.mp hcheck
    exact ⟨rfl, rfl, by decide, rfl⟩

end Bridgeport.Agent
