import Bridgeport.Deploy.FreshHost
import Bridgeport.Deploy.RecordedDigest

/-!
# Drift right after a deployment

`driftFree_iff` is about a deployment that has just succeeded: its service has no compose template,
its config files are text files, the values of its environment have no dollar sign, and its compose
path is its own. Such a deployment leaves a fresh host, so drift detection reports no drift if and
only if the container reports what is stored.
-/

namespace Bridgeport.Deploy

open Foundation Secrets Orchestration Program List Option

section

variable {yaml : Yaml} {decodeBase64 : Text → Text} {docker : Docker} {rows : RenderingRows}
  {stored : StoredRows} (tables : ImageTables) (recorded : String → Option String)

/-- The digest that a success of a tag leaves a service deployment with: that of the tag, or the one
it has had. -/
def linkedDigest (serviceDeploymentId tag : String) : Option String :=
  ((digestOfTag (tables.digests (tables.imageOf serviceDeploymentId)) tag).map (·.id)).or
    (recorded serviceDeploymentId)

theorem runDeployment_records (yaml : Yaml) (tables : ImageTables) (run : DeployRun)
    (ledger : DigestLedger) (serviceDeploymentId : String)
    (himage : run.deployment.service.containerImage.id = tables.imageOf serviceDeploymentId) :
    (runDeployment yaml run).Ensures (digestSemantics tables)
      (fun result after ↦ result.deployment.status = .success →
        after.recorded serviceDeploymentId =
          linkedDigest tables ledger.recorded serviceDeploymentId run.imageTag) ledger := by
  refine (runDeployment_ended yaml run ledger).ensures.mono fun result after hended hsuccess ↦ ?_
  rcases hended with hlinked | ⟨hfailed, -⟩
  · rw [hlinked, himage]
    unfold linkedDigest LinkedTo
    cases digestOfTag (tables.digests (tables.imageOf serviceDeploymentId)) run.imageTag with
    | none => rfl
    | some digest =>
      unfold ImageTables.link
      exact if_pos rfl
  · exact absurd hfailed (by simp [Succeeded, hsuccess])

theorem deployService_leaves (serviceDeploymentId triggeredBy : String) (userId : Option String)
    (options : DeployOptions) {path : String} (world : InspectedWorld)
    (hown : OwnsComposePath world.host.deployment world.host path)
    (hgenerates : options.generateArtifacts ≠ some false)
    (hclient : world.host.commandClient = true) :
    (deployService yaml serviceDeploymentId triggeredBy userId options).Ensures
      ((inspectSemantics yaml decodeBase64 docker rows).prod (digestSemantics tables))
      (fun result after ↦ result.deployment.status = .success →
        Leaves yaml decodeBase64 docker rows world.host after.1 (world.host.requestedTag options)
          path ∧
        after.2.recorded serviceDeploymentId =
          linkedDigest tables recorded serviceDeploymentId (world.host.requestedTag options))
      (world, ⟨recorded, none, none⟩) := by
  refine ensures_perform_bind fun deployment hdeployment ↦ ensures_perform_bind fun row _ ↦ ?_
  obtain rfl : deployment = world.host.deployment := hdeployment.1.1
  have himage : world.host.deployment.service.containerImage.id =
    tables.imageOf serviceDeploymentId := hdeployment.2
  set run : DeployRun := ⟨world.host.deployment, options, triggeredBy, userId,
    world.host.requestedTag options, options.previousTagOverride.getD
      (some world.host.deployment.service.imageTag), row.id⟩ with hrun
  set data : DeploymentData :=
    { imageTag := world.host.requestedTag options
      previousTag := options.previousTagOverride.getD (some world.host.deployment.service.imageTag)
      status := .pending
      triggeredBy := triggeredBy
      serviceId := world.host.deployment.service.id
      serviceDeploymentId := serviceDeploymentId
      userId := userId }
  have hquiet : (runDeployment yaml run).Quiet fun _ ↦ False :=
    (quiet_runDeployment yaml run).mono fun _ ↦ False.elim
  have hleaves : (runDeployment yaml run).Ensures (inspectSemantics yaml decodeBase64 docker rows)
      (fun result after ↦ result.deployment.status = .success →
        Leaves yaml decodeBase64 docker rows world.host after run.imageTag path) world :=
    runDeployment_leaves run world rfl hown hgenerates hclient
  set ledger : DigestLedger := ⟨recorded, some data, none⟩
  have hrecords := runDeployment_records yaml tables run ledger serviceDeploymentId himage
  exact ((hleaves.fst hquiet ledger).and (hrecords.snd hquiet world)).mono
    fun result after h hsuccess ↦ ⟨h.1 hsuccess, h.2 hsuccess⟩

/-- A successful deployment of the kind that drift detection is asked about: it writes its artifacts
to a compose path of its own, from a service without a compose template whose files are text files
and whose environment has no value with a dollar sign, and Docker creates what the compose file
describes. -/
structure Deployment.Succeeded (yaml : Yaml) (decodeBase64 : Text → Text) (docker : Docker)
    (rows : RenderingRows) (stored : StoredRows) (tables : ImageTables)
    (recorded : String → Option String) (options : DeployOptions) (before : InspectedWorld)
    (path : String) (log : Log) : Prop where
  run : ∃ triggeredBy userId result,
    Traces (deployService yaml before.host.deployment.id triggeredBy userId options) log
      (some (.ok result)) ∧ result.deployment.status = .success
  host : (inspectSemantics yaml decodeBase64 docker rows).Consistent before log
  ledger : (digestSemantics tables).Consistent ⟨recorded, none, none⟩ log
  generates : options.generateArtifacts ≠ some false
  client : before.host.commandClient = true
  own : OwnsComposePath before.host.deployment before.host path
  template : before.host.source.composeTemplate.filter (· ≠ []) = none
  text : ∀ file ∈ pickedFiles before.host.artifactSource, file.configFile.isBinary = false
  dollar : ∀ entry ∈ mergedEnv before.host.artifactSource, '$' ∉ entry.2.toList
  ports : before.host.source.ports = serializeExposedPorts stored.exposedPorts
  docker : docker.Faithful yaml
    { before.host.artifactSource with imageTag := before.host.requestedTag options }

section

variable {tables : ImageTables} {recorded : String → Option String} {options : DeployOptions}
  {before : InspectedWorld} {path : String} {log : Log}

variable (h : Deployment.Succeeded yaml decodeBase64 docker rows stored tables recorded options
  before path log)
include h

variable (hmoved : ((inspectSemantics yaml decodeBase64 docker rows).final before
  log).host.moveFailed = false)
include hmoved

variable (htarget : path ∉ before.host.targetPaths)
include htarget

/-- Such a deployment leaves a fresh host, if its compose file has been moved into place and no
config file takes its path. -/
theorem Deployment.Succeeded.fresh :
    ((inspectSemantics yaml decodeBase64 docker rows).final before log).host.artifactSource =
        { before.host.artifactSource with imageTag := before.host.requestedTag options } ∧
      ((digestSemantics tables).final ⟨recorded, none, none⟩ log).recorded
          before.host.deployment.id =
        linkedDigest tables recorded before.host.deployment.id (before.host.requestedTag options) ∧
      ∃ artifacts container, Fresh yaml decodeBase64 docker rows
        ((inspectSemantics yaml decodeBase64 docker rows).final before log) path artifacts
          container := by
  obtain ⟨triggeredBy, userId, result, htraces, hsuccess⟩ := h.run
  have hconsistent := (Semantics.consistent_prod (inspectSemantics yaml decodeBase64 docker rows)
    (digestSemantics tables) (before, ⟨recorded, none, none⟩) log).mpr ⟨h.host, h.ledger⟩
  have hafter := (deployService_leaves tables recorded before.host.deployment.id triggeredBy userId
    options before h.own h.generates h.client).sound htraces hconsistent result rfl hsuccess
  rw [Semantics.final_prod] at hafter
  obtain ⟨hleaves, hrecorded⟩ := hafter
  obtain ⟨hsource, hfresh⟩ :=
    hleaves.fresh h.own.composePath h.template h.docker hmoved htarget
  exact ⟨hsource, hrecorded, hfresh⟩

/-- Drift detection right after a deployment that has succeeded: if the compose file has been moved
into place and no config file takes its path, no drift is reported if and only if what the container
reports agrees with the rows, as far as their secrets can be read. -/
theorem driftFree_iff {checksum : Text → String} : DriftFree checksum yaml rows stored
        ((inspectSemantics yaml decodeBase64 docker rows).final before log)
        (((digestSemantics tables).final ⟨recorded, none, none⟩ log).recorded
          before.host.deployment.id) ↔
      ∀ environment, rows.environment = .ok environment →
        ReportsDeployed docker stored
          { before.host.artifactSource with imageTag := before.host.requestedTag options }
          (linkedDigest tables recorded before.host.deployment.id
            (before.host.requestedTag options)) := by
  obtain ⟨hsource, hrecorded, artifacts, container, hfresh⟩ := h.fresh hmoved htarget
  set after := (inspectSemantics yaml decodeBase64 docker rows).final before log
  have hdocker := h.docker
  rw [← hsource] at hdocker
  rw [hrecorded, ← hsource]
  have hports : after.host.artifactSource.ports = serializeExposedPorts stored.exposedPorts := by
    rw [hsource]
    exact h.ports
  have hdollar : ∀ entry ∈ mergedEnv after.host.artifactSource, '$' ∉ entry.2.toList := by
    rw [hsource]
    exact h.dollar
  have htext : ∀ file ∈ pickedFiles after.host.artifactSource,
      file.configFile.isBinary = false := by
    rw [hsource]
    exact h.text
  constructor
  · intro hfree environment hsecrets
    exact hfresh.reports_of_driftFree hdocker hports hdollar hsecrets hfree
  · intro hreports reads hreads report hreport
    -- a report has been made, so the secrets could be read
    obtain ⟨secretValues, hread, -⟩ := drift_of_computeDeploymentDrift hreport
    have hsecrets : rows.environment.map (fun environment ↦ environment.secrets.map (·.value)) =
        .ok secretValues := hreads.secretValues.symm.trans hread
    cases henvironment : rows.environment with
    | error message =>
      rw [henvironment] at hsecrets
      nomatch hsecrets
    | ok environment =>
      exact hfresh.driftFree hdocker hports hdollar htext (hreports environment henvironment)
        checksum reads hreads report hreport

end

end

/-! ### A stored port without a host port -/

def webHost : HostWorld where
  deployment := { restartedDeployment with composePath := some "/opt/api/docker-compose.yml" }
  source := ⟨"api-web", "api", "production", "api", "v1", "registry/api", none, [],
    [("MODE", "web")], [], ["80:80"]⟩
  deploymentsOn _ := 1
  autoManageCompose := false
  commandClient := true
  files _ := none
  containers := Function.update (fun _ ↦ none) "api" (some (some "registry/api:v1"))
  moveFailed := false

def webContainer : InspectedContainer where
  state := "running"
  env := ["PATH=/bin".toList, "MODE=web".toList]
  networkPorts := [⟨80, "tcp", [(some 80, none)]⟩]
  repoDigests := ["registry/api@sha256:2"]

/-- A Docker that knows this container and its port entry. -/
def webDocker : Docker where
  readPort text := if text = "80:80" then some (80, 80, "tcp") else none
  exposes _ := [(80, "tcp")]
  repoDigests _ := ["registry/api@sha256:2"]
  create _ _ := some webContainer

/-- An environment without vars and secrets. -/
def webRows : RenderingRows where
  environment := .ok ⟨[], [], nodup_nil, nodup_nil, valid_nil, valid_nil⟩
  renderTemplate text := (text, [])

def webStored (host : Option ℤ) : StoredRows where
  exposedPorts := [⟨host, 80, some "tcp", none⟩]
  manifestDigest _ := some "sha256:2"

theorem eq_of_toString_eq {number : ℤ} (hpos : 0 < number)
    (h : (toString number).toList = ['8', '0']) : number = 80 := by
  obtain ⟨count, rfl⟩ := Int.eq_ofNat_of_zero_le hpos.le
  have hdigits : Nat.toDigits 10 count = ['8', '0'] := by
    rw [← Nat.toList_repr]
    exact h
  have hcount := Nat.ofDigitChars_ten_toDigits (n := count)
  rw [hdigits] at hcount
  rw [← hcount]
  rfl

theorem formatHostIpPrefix_eq (hostIp : Option String) :
    formatHostIpPrefix hostIp = "" ∨ ':' ∈ (formatHostIpPrefix hostIp).toList := by
  unfold formatHostIpPrefix
  split_ifs
  · exact .inl rfl
  · right
    dsimp only
    split_ifs <;> simp

/-- Only one port is written as this entry. -/
theorem eq_of_portString_eq {hostIp : Option String} {port : ℤ × ℤ × String} (hhost : 0 < port.1)
    (hcontainer : 0 < port.2.1) (h : portString hostIp port = "80:80") :
    port = (80, 80, "tcp") := by
  obtain ⟨host, container, protocol⟩ := port
  dsimp only at hhost hcontainer
  have htext := congrArg String.toList h
  have hexpected : "80:80".toList = ['8', '0', ':', '8', '0'] := rfl
  have hcolon : ":".toList = [':'] := rfl
  rw [hexpected] at htext
  simp only [portString, String.toList_append, hcolon] at htext
  have hcount := congrArg (List.count ':') htext
  have hone : List.count ':' ['8', '0', ':', '8', '0'] = 1 := rfl
  have hself : List.count ':' [':'] = 1 := rfl
  simp only [count_append, hself, hone] at hcount
  -- the only colon is the separator, so there is no prefix
  have hunbound : formatHostIpPrefix hostIp = "" := by
    refine (formatHostIpPrefix_eq hostIp).resolve_right fun hmem ↦ ?_
    have hpos := count_pos_iff.mpr hmem
    omega
  have hprotocol : protocol = "tcp" := by
    by_contra hother
    have hslash : '/' ∈ ['8', '0', ':', '8', '0'] := by
      rw [← htext, if_neg hother]
      simp
    exact absurd hslash (by decide)
  have hnone : ':' ∉ (toString host).toList ∧ ':' ∉ (toString container).toList := by
    rw [← count_eq_zero, ← count_eq_zero]
    omega
  rw [hunbound, if_pos hprotocol] at htext
  have hsplit : (toString host).toList ++ ':' :: (toString container).toList =
      ['8', '0'] ++ ':' :: ['8', '0'] := by
    simpa using htext
  obtain ⟨hhostText, -, hcontainerText⟩ :=
    (append_cons_inj_of_notMem hnone.1 hnone.2).mp hsplit
  rw [eq_of_toString_eq hhost hhostText, eq_of_toString_eq hcontainer hcontainerText, hprotocol]

theorem readsPorts_webDocker : ReadsPorts webDocker.readPort := by
  intro hostIp port hhost hcontainer _
  simp only [webDocker]
  by_cases htext : portString hostIp port = "80:80"
  · obtain rfl := eq_of_portString_eq hhost.1 hcontainer.1 htext
    rw [if_pos htext]
    exact .inr rfl
  · rw [if_neg htext]
    exact .inl rfl

theorem publishesPorts_webContainer :
    PublishesPorts webDocker.readPort [(80, "tcp")] ["80:80"] webContainer.networkPorts := by
  have hread : webDocker.readPort "80:80" = some (80, 80, "tcp") := rfl
  constructor
  · intro text htext
    rw [mem_singleton.mp htext, hread]
    rfl
  · intro host container protocol
    simp only [webContainer, mem_singleton, exists_eq_left]
    constructor
    · rintro ⟨rfl, rfl, hostIp, hbinding⟩
      exact ⟨80, (Prod.mk.inj hbinding).1, rfl⟩
    · rintro ⟨number, rfl, hport⟩
      obtain ⟨rfl, hrest⟩ := Prod.mk.inj (some.inj hport)
      obtain ⟨rfl, rfl⟩ := Prod.mk.inj hrest
      exact ⟨rfl, rfl, none, rfl⟩
  · intro container protocol
    simp only [webContainer, mem_singleton, exists_eq_left]
    constructor
    · rintro ⟨-, -, hbindings⟩
      nomatch hbindings
    · rintro ⟨hexposed, hunread⟩
      obtain ⟨rfl, rfl⟩ := Prod.mk.inj hexposed
      exact absurd rfl (hunread 80 _ rfl)

theorem faithful_webDocker : webDocker.Faithful apiYaml
    { webHost.artifactSource with imageTag := webHost.requestedTag apiOptions } := by
  refine ⟨readsPorts_webDocker, ?_, ?_⟩
  · intro image port hport
    obtain rfl := mem_singleton.mp hport
    decide
  · intro configFiles container hcreate service hservice
    obtain rfl := some.inj hcreate
    obtain rfl := (Prod.mk.inj (mem_singleton.mp hservice)).2
    refine ⟨by decide, fun _ _ entry hentry ↦ ?_, ?_, rfl⟩
    · obtain rfl : entry = ("MODE", "web") := mem_singleton.mp hentry
      decide
    · exact publishesPorts_webContainer

variable (world : InspectedWorld × DigestLedger)

/-- The answers of this host, on which no command fails. -/
def webAnswer : (request : Call) → Except String (Answer request)
  | .findServiceDeployment id =>
    if world.1.host.deployment.service.containerImage.id = sharedImage.imageOf id then
      .ok world.1.host.deployment
    else .error "No ServiceDeployment found"
  | .resolveSecretPlaceholders environmentId content =>
    (webRows.state world.1.host).resolve environmentId content
  | .findRecentDigests image => .ok (sharedImage.digests image)
  | .composeUp composePath serviceKey _ _ =>
    if (webDocker.createFrom world.1.host.files composePath serviceKey).isSome then .ok ()
    else .error "no configuration file provided"
  | request => .ok (hostAnswer world.1.host request)

def webSemantics : Semantics Answer (InspectedWorld × DigestLedger) :=
  (inspectSemantics apiYaml id webDocker webRows).prod (digestSemantics sharedImage)

theorem allows_webAnswer (request : Call) :
    webSemantics.allows world ⟨request, webAnswer world request⟩ := by
  have hhost := allows_hostAnswer world.1.host request
  cases request with
  | findServiceDeployment id =>
    unfold webAnswer
    dsimp only
    split_ifs with himage
    · exact ⟨⟨rfl, trivial⟩, himage⟩
    · exact ⟨⟨trivial, trivial⟩, trivial⟩
  | resolveSecretPlaceholders environmentId content => exact ⟨⟨trivial, rfl⟩, trivial⟩
  | findRecentDigests image => exact ⟨⟨trivial, trivial⟩, rfl⟩
  | composeUp composePath serviceKey forceRecreate noDeps =>
    unfold webAnswer
    dsimp only
    split_ifs with hcreated
    · exact ⟨⟨trivial, hcreated⟩, trivial⟩
    · exact ⟨⟨trivial, trivial⟩, trivial⟩
  | updateDeployment id status historyId => exact ⟨⟨hhost, trivial⟩, rfl⟩
  | _ => exact ⟨⟨hhost, trivial⟩, trivial⟩

def webWorld : InspectedWorld :=
  ⟨webHost, fun _ ↦ none⟩

/-- The run of a deployment of `v2`. -/
def webRun : Log × Except String DeployResult :=
  (deployService apiYaml "api-web" "operator" none apiOptions).run webSemantics webAnswer
    (webWorld, ⟨fun _ ↦ none, none, none⟩)

theorem succeeded_webRun (host : Option ℤ)
    (hports : serializeExposedPorts (webStored host).exposedPorts = ["80:80"]) :
    Deployment.Succeeded apiYaml id webDocker webRows (webStored host) sharedImage (fun _ ↦ none)
      apiOptions webWorld "/opt/api/docker-compose.yml" webRun.1 := by
  obtain ⟨htraces, hconsistent⟩ := run_sound allows_webAnswer
    (quiet_deployService apiYaml "api-web" "operator" none apiOptions).sequential
    (webWorld, ⟨fun _ ↦ none, none, none⟩)
  obtain ⟨hhost, hledger⟩ := (Semantics.consistent_prod _ _ _ _).mp hconsistent
  have hsuccess : ∃ result, webRun.2 = .ok result ∧ result.deployment.status = .success :=
    ⟨_, rfl, rfl⟩
  obtain ⟨result, hresult, hstatus⟩ := hsuccess
  refine ⟨⟨"operator", none, result, ?_, hstatus⟩, hhost, hledger, nofun, rfl,
    ⟨rfl, by decide, by decide⟩, rfl, ?_, ?_, hports.symm, faithful_webDocker⟩
  · rw [← hresult]
    exact htraces
  · decide
  · decide

/-- The compose file has been moved into place. -/
theorem moveFailed_webRun :
    ((inspectSemantics apiYaml id webDocker webRows).final webWorld webRun.1).host.moveFailed =
      false := by
  decide

/-- The rows agree with the container if the stored port has a host port. -/
theorem reportsDeployed_web (imageDigestId : Option String) :
    ReportsDeployed webDocker (webStored (some 80))
      { webHost.artifactSource with imageTag := webHost.requestedTag apiOptions }
        imageDigestId := by
  refine ⟨⟨fun entry hentry ↦ ?_, fun port hport ↦ ?_⟩, by decide, fun digest hdigest ↦ .inr ?_⟩
  · obtain rfl := mem_singleton.mp hentry
    exact ⟨80, rfl, by decide⟩
  · obtain rfl := mem_singleton.mp hport
    exact ⟨_, mem_singleton_self _, by decide⟩
  · obtain ⟨digestId, -, hmanifest⟩ :=
      bind_eq_some_iff.mp (filter_eq_some_iff.mp hdigest).1
    obtain rfl := some.inj hmanifest
    decide

/-- A stored port with a host port leaves no drift. -/
theorem driftFree_webRun : DriftFree String.ofList apiYaml webRows (webStored (some 80))
    ((inspectSemantics apiYaml id webDocker webRows).final webWorld webRun.1)
    (((digestSemantics sharedImage).final ⟨fun _ ↦ none, none, none⟩ webRun.1).recorded
      webWorld.host.deployment.id) :=
  (driftFree_iff (succeeded_webRun (some 80) (by decide)) moveFailed_webRun (by decide)).mpr
    fun _ _ ↦ reportsDeployed_web _

/-- A stored port without a host port is reported as drift, right after a deployment that has
published it under its container port. -/
theorem not_driftFree : ¬ ∀ (checksum : Text → String) (yaml : Yaml) (decodeBase64 : Text → Text)
    (docker : Docker) (rows : RenderingRows) (stored : StoredRows) (tables : ImageTables)
    (recorded : String → Option String) (options : DeployOptions) (before : InspectedWorld)
    (path : String) (log : Log),
    Deployment.Succeeded yaml decodeBase64 docker rows stored tables recorded options before path
      log →
    DriftFree checksum yaml rows stored
      ((inspectSemantics yaml decodeBase64 docker rows).final before log)
      (((digestSemantics tables).final ⟨recorded, none, none⟩ log).recorded
        before.host.deployment.id) := by
  intro h
  have hsucceeded := succeeded_webRun none (by decide)
  have hfree := h String.ofList _ _ _ _ _ _ _ _ _ _ _ hsucceeded
  have hfresh := hsucceeded.fresh moveFailed_webRun (by decide)
  generalize (inspectSemantics apiYaml id webDocker webRows).final webWorld webRun.1 = after
    at hfree hfresh
  obtain ⟨hsource, -, artifacts, container, hfresh⟩ := hfresh
  have hdocker := hsucceeded.docker
  have hports : after.host.artifactSource.ports = serializeExposedPorts
      (webStored none).exposedPorts := by
    rw [hsource]
    exact hsucceeded.ports
  have hdollar : ∀ entry ∈ mergedEnv after.host.artifactSource, '$' ∉ entry.2.toList := by
    rw [hsource]
    exact hsucceeded.dollar
  rw [← hsource] at hdocker
  have hreports := hfresh.reports_of_driftFree hdocker hports hdollar rfl hfree
  obtain ⟨host, hhost, -⟩ := hreports.ports.valid _ (mem_singleton_self _)
  nomatch hhost

end Bridgeport.Deploy
