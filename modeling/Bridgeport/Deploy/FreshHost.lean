import Bridgeport.Deploy.DriftHost

/-!
# Drift detection on a fresh host

A host is `Fresh` if it holds what is generated from the rows of a service deployment and runs the
container of the generated compose file. Docker is assumed to create what this file describes
(`Docker.Faithful`), and to report it as it is (`DriftReads.Faithful`).
-/

namespace Bridgeport.Deploy

open Foundation Secrets Orchestration Program List Option OrderedMap

/-! ### Docker -/

/-- A container is as its service in a compose file describes it. A value without a dollar sign is
taken as it stands. -/
structure Docker.Runs (docker : Docker) (service : ComposeService) (container : InspectedContainer) :
    Prop where
  state : container.state ≠ "not_found"
  environment : (∀ entry ∈ service.environment, '$' ∉ entry.2.toList) →
    (∀ entry ∈ service.environment, '=' ∉ entry.1.toList) →
    ∀ entry ∈ service.environment,
      container.env.filter (fun text ↦ envName text = entry.1.toList) =
        [entry.1.toList ++ '=' :: entry.2.toList]
  ports : PublishesPorts docker.readPort (docker.exposes service.image) service.ports
    container.networkPorts
  repoDigests : container.repoDigests = docker.repoDigests service.image

/-- `docker compose up` creates what the generated compose files of a service describe. -/
structure Docker.Faithful (docker : Docker) (yaml : Yaml) (source : ArtifactSource) : Prop where
  readsPorts : ReadsPorts docker.readPort
  exposesPorts : ∀ image, ExposesPorts (docker.exposes image)
  creates : ∀ configFiles container,
    docker.create (yaml.stringify (defaultCompose source configFiles)) source.containerName =
      some container →
    ∀ service, (source.containerName, service) ∈ (defaultCompose source configFiles).services →
      docker.Runs service container

/-- `getContainerImageDigests`. -/
def imageDigestsOf : Option InspectedContainer → ContainerImageDigests
  | some container => ⟨true, container.repoDigests⟩
  | none => ⟨false, []⟩

/-- `getContainerInfo`. -/
def containerInfoOf : Option InspectedContainer → ContainerDetails
  | some container => ⟨container.state, portsOf container.networkPorts⟩
  | none => ⟨"not_found", []⟩

/-- `getContainerEnv`. -/
def containerEnvOf (container : Option InspectedContainer) : Option (OrderedMap String String) :=
  container.map fun container ↦ parseEnvArray container.env

/-! ### What drift detection reads -/

/-- The rows that a deployment leaves as they are, besides those that placeholders are resolved
from: the stored ports of the deployment, and the column `manifestDigest` of the image digests. -/
structure StoredRows where
  exposedPorts : List ExposedPort
  manifestDigest : String → Option String

/-- Drift detection reads the rows, and what it reaches of the host is reported as it is. -/
structure DriftReads.Faithful (reads : DriftReads) (yaml : Yaml) (rows : RenderingRows)
    (stored : StoredRows) (world : InspectedWorld) (imageDigestId : Option String) : Prop where
  deployment : reads.deployment = world.host.deployment
  source : reads.source = world.host.artifactSource
  exposedPorts : reads.exposedPorts = stored.exposedPorts
  manifestDigest : reads.manifestDigest = imageDigestId.bind stored.manifestDigest
  secretValues : reads.secretValues =
    (rows.state world.host).secretValues world.host.artifactSource.environmentId
  siblingCount : ∀ path, world.host.deployment.composePath = some path →
    reads.siblingCount = world.host.deploymentsOn path
  artifacts : reads.artifacts =
    generatedArtifacts yaml (rows.state world.host) world.host.deployment.id
  resolve : reads.resolve = (rows.state world.host).resolve world.host.artifactSource.environmentId
  digests : ∀ digests, reads.digests = .ok digests →
    digests = imageDigestsOf (world.inspected world.host.deployment.containerName)
  info : ∀ info, reads.info = .ok info →
    info = containerInfoOf (world.inspected world.host.deployment.containerName)
  env : ∀ env, reads.env = .ok env →
    env = containerEnvOf (world.inspected world.host.deployment.containerName)
  cat : ∀ path result, reads.cat path = .ok result →
    (result.code = 0 ↔ (world.host.files path).isSome) ∧
      (result.code = 0 → world.host.files path = some result.stdout)

variable {path : String} {world : InspectedWorld} {rows : RenderingRows}

theorem DriftReads.Faithful.read {reads : DriftReads} {yaml : Yaml} {stored : StoredRows}
    {imageDigestId : Option String} (hreads : reads.Faithful yaml rows stored world imageDigestId)
    {content : Text} (hfile : world.host.files path = some content) {result : CommandResult}
    (hcat : reads.cat path = .ok result) : result.code = 0 ∧ result.stdout = content := by
  obtain ⟨hcode, hstdout⟩ := hreads.cat path result hcat
  have hzero : result.code = 0 := hcode.mpr (by rw [hfile]; rfl)
  exact ⟨hzero, some.inj ((hstdout hzero).symm.trans hfile)⟩

def InspectedWorld.reads (world : InspectedWorld) (yaml : Yaml) (rows : RenderingRows)
    (stored : StoredRows) (imageDigestId : Option String) : DriftReads where
  deployment := world.host.deployment
  source := world.host.artifactSource
  exposedPorts := stored.exposedPorts
  manifestDigest := imageDigestId.bind stored.manifestDigest
  configFileName := id
  secretValues := (rows.state world.host).secretValues world.host.artifactSource.environmentId
  siblingCount := (world.host.deployment.composePath.map world.host.deploymentsOn).getD 0
  artifacts := generatedArtifacts yaml (rows.state world.host) world.host.deployment.id
  resolve := (rows.state world.host).resolve world.host.artifactSource.environmentId
  dockerClient := true
  fileClient := true
  clientError := none
  connected := .ok ()
  digests := .ok (imageDigestsOf (world.inspected world.host.deployment.containerName))
  info := .ok (containerInfoOf (world.inspected world.host.deployment.containerName))
  env := .ok (containerEnvOf (world.inspected world.host.deployment.containerName))
  cat path := .ok (catAnswer (world.host.files path))

theorem faithful_reads (world : InspectedWorld) (yaml : Yaml) (rows : RenderingRows)
    (stored : StoredRows) (imageDigestId : Option String) :
    (world.reads yaml rows stored imageDigestId).Faithful yaml rows stored world imageDigestId := by
  refine ⟨rfl, rfl, rfl, rfl, rfl, fun path hpath ↦ ?_, rfl, rfl, fun _ h ↦ (Except.ok.inj h).symm,
    fun _ h ↦ (Except.ok.inj h).symm, fun _ h ↦ (Except.ok.inj h).symm, fun path result h ↦ ?_⟩
  · unfold InspectedWorld.reads
    rw [hpath]
    rfl
  · rw [← Except.ok.inj h]
    cases world.host.files path with
    | none | some _ => simp [catAnswer]

/-- Drift detection reports no drift, whatever it reaches of the host. -/
def DriftFree (checksum : Text → String) (yaml : Yaml) (rows : RenderingRows) (stored : StoredRows)
    (world : InspectedWorld) (imageDigestId : Option String) : Prop :=
  ∀ reads : DriftReads, reads.Faithful yaml rows stored world imageDigestId →
    ∀ report, computeDeploymentDrift checksum reads = .ok report → report.drift.Free

/-- The container of an image is reported as the rows say: the stored ports are published as they
are stored and include the exposed ones, no variable has a name with an equals sign, and the
recorded digest is one of the image, if the image has any. -/
structure ReportsDeployed (docker : Docker) (stored : StoredRows) (source : ArtifactSource)
    (imageDigestId : Option String) : Prop where
  ports : PortsAgree stored.exposedPorts
    (docker.exposes (fullImage source.imageName source.imageTag))
  environment : ∀ entry ∈ mergedEnv source, '=' ∉ entry.1.toList
  digest : DigestReported (imageDigestId.bind stored.manifestDigest)
    (docker.repoDigests (fullImage source.imageName source.imageTag))

/-! ### The generated artifacts -/

theorem forall₂_of_mapM_eq_ok {α β : Type} {turn : α → Except String β} {items : List α}
    {values : List β} (h : items.mapM turn = .ok values) :
    List.Forall₂ (fun item value ↦ turn item = .ok value) items values := by
  induction items generalizing values with
  | nil =>
    obtain rfl := Except.ok.inj h
    exact List.Forall₂.nil
  | cons item rest ih =>
    rw [mapM_cons] at h
    cases hitem : turn item with
    | error message =>
      rw [hitem] at h
      nomatch h
    | ok value =>
      rw [hitem] at h
      cases hrest : rest.mapM turn with
      | error message =>
        rw [hrest] at h
        nomatch h
      | ok others =>
        rw [hrest] at h
        obtain rfl := Except.ok.inj h
        exact List.Forall₂.cons hitem (ih hrest)

theorem writtenFile_ok {state : ArtifactState} {environmentId : String} {file : SourceFile}
    {artifact : ConfigArtifact} (h : writtenFile state environmentId file = .ok artifact) :
    artifact.mountPath = file.targetPath ∧ artifact.isBinary = file.configFile.isBinary := by
  unfold writtenFile at h
  by_cases hbinary : file.configFile.isBinary = true
  · rw [if_pos hbinary] at h
    obtain rfl := Except.ok.inj h
    exact ⟨rfl, hbinary.symm⟩
  · rw [if_neg hbinary] at h
    cases hresolve : state.resolve environmentId (composedSource file) with
    | error message =>
      rw [hresolve] at h
      nomatch h
    | ok resolution =>
      rw [hresolve] at h
      by_cases herrors : resolution.templateErrors.length > 0
      · nomatch (if_pos herrors).symm.trans h
      · obtain rfl := Except.ok.inj ((if_neg herrors).symm.trans h)
        exact ⟨rfl, (Bool.not_eq_true _ ▸ hbinary : file.configFile.isBinary = false).symm⟩

variable {artifacts : GeneratedArtifacts}

theorem generatedArtifacts_ok {yaml : Yaml} {host : HostWorld} {serviceDeploymentId : String}
    (h : generatedArtifacts yaml (rows.state host) serviceDeploymentId = .ok artifacts) :
    artifacts.compose = composeArtifact yaml host.artifactSource artifacts.configFiles ∧
      List.Forall₂ (fun file artifact ↦ artifact.mountPath = file.targetPath ∧
        artifact.isBinary = file.configFile.isBinary) (pickedFiles host.artifactSource)
          artifacts.configFiles := by
  have hmapM : (pickedFiles host.artifactSource).mapM
      (writtenFile (rows.state host) host.artifactSource.environmentId) >>=
        (fun configFiles ↦ .ok
          ⟨composeArtifact yaml host.artifactSource configFiles, configFiles⟩) = .ok artifacts := h
  cases hfiles : (pickedFiles host.artifactSource).mapM
      (writtenFile (rows.state host) host.artifactSource.environmentId) with
  | error message =>
    rw [hfiles] at hmapM
    nomatch hmapM
  | ok configFiles =>
    rw [hfiles] at hmapM
    obtain rfl := Except.ok.inj hmapM
    exact ⟨rfl, (forall₂_of_mapM_eq_ok hfiles).imp fun _ _ ↦ writtenFile_ok⟩

variable {configFiles : List ConfigArtifact}

section

variable {files : List SourceFile}
  (h : List.Forall₂ (fun file artifact ↦ artifact.mountPath = file.targetPath ∧
    artifact.isBinary = file.configFile.isBinary) files configFiles)
include h

theorem map_mountPath_eq : configFiles.map (·.mountPath) = files.map (·.targetPath) := by
  induction h with
  | nil => rfl
  | cons hfile _ ih => rw [map_cons, map_cons, hfile.1, ih]

theorem isBinary_eq_false (htext : ∀ file ∈ files, file.configFile.isBinary = false) :
    ∀ artifact ∈ configFiles, artifact.isBinary = false := by
  induction h with
  | nil => exact nofun
  | cons hfile _ ih =>
    intro artifact hartifact
    rcases mem_cons.mp hartifact with rfl | hrest
    · exact hfile.2.trans (htext _ mem_cons_self)
    · exact ih (fun file hmem ↦ htext file (mem_cons_of_mem _ hmem)) artifact hrest

end

theorem exists_expectedByPath (h : path ∈ configFiles.map (·.mountPath)) :
    ∃ artifact ∈ configFiles, (expectedByPath configFiles).get path = some artifact := by
  unfold expectedByPath
  induction configFiles using List.reverseRecOn with
  | nil => exact absurd h not_mem_nil
  | append_singleton configFiles last ih =>
    rw [foldl_append, foldl_cons, foldl_nil, get_set]
    by_cases hlast : path = last.mountPath
    · exact ⟨last, by simp, if_pos hlast⟩
    · rw [map_append, mem_append] at h
      obtain ⟨artifact, hmem, hget⟩ := ih (h.resolve_right (by simpa using hlast))
      exact ⟨artifact, mem_append_left _ hmem, by rw [if_neg hlast, hget]⟩

theorem expectedByPath_eq_none (h : path ∉ configFiles.map (·.mountPath)) :
    (expectedByPath configFiles).get path = none := by
  unfold expectedByPath
  induction configFiles using List.reverseRecOn with
  | nil => rfl
  | append_singleton configFiles last ih =>
    rw [map_append, mem_append, not_or] at h
    rw [foldl_append, foldl_cons, foldl_nil, get_set, if_neg (by simpa using h.2), ih h.1]

/-! ### A deployment that has just succeeded -/

/-- The host holds what is generated from the rows, and the container runs it. -/
structure Fresh (yaml : Yaml) (decodeBase64 : Text → Text) (docker : Docker) (rows : RenderingRows)
    (world : InspectedWorld) (path : String) (artifacts : GeneratedArtifacts)
    (container : InspectedContainer) : Prop where
  composePath : world.host.deployment.composePath = some path
  generated : generatedArtifacts yaml (rows.state world.host) world.host.deployment.id =
    .ok artifacts
  compose : world.host.files path = some artifacts.compose.content
  configFiles : ∀ target artifact,
    (expectedByPath artifacts.configFiles).get target = some artifact →
      world.host.files target = some (artifact.stored decodeBase64)
  inspected : world.inspected world.host.deployment.containerName = some container
  runs : ∀ service, (world.host.artifactSource.containerName, service) ∈
    (defaultCompose world.host.artifactSource artifacts.configFiles).services →
      docker.Runs service container

variable {container : InspectedContainer}

section

variable {yaml : Yaml} {decodeBase64 : Text → Text} {docker : Docker} {rows : RenderingRows}
  {stored : StoredRows}

/-- A deployment without a compose template leaves a fresh host, if its compose file has been moved
into place and no config file takes its path. -/
theorem Leaves.fresh {before : HostWorld} {after : InspectedWorld} {tag : String}
    (hleaves : Leaves yaml decodeBase64 docker rows before after tag path)
    (hpath : before.deployment.composePath = some path)
    (htemplate : before.source.composeTemplate.filter (· ≠ []) = none)
    (hdocker : docker.Faithful yaml { before.artifactSource with imageTag := tag })
    (hmoved : after.host.moveFailed = false) (htarget : path ∉ before.targetPaths) :
    after.host.artifactSource = { before.artifactSource with imageTag := tag } ∧
      ∃ artifacts container,
        Fresh yaml decodeBase64 docker rows after path artifacts container := by
  obtain ⟨⟨prepared, ⟨artifacts, files, hgenerated, hcompose, hprepared⟩, hrows⟩, hcreated,
    hpresent⟩ := hleaves
  have hsource : after.host.artifactSource = { before.artifactSource with imageTag := tag } := by
    rw [hrows, hprepared]
    rfl
  have hdeployment : after.host.deployment = (before.setImageTag tag).deployment := by
    rw [hrows, hprepared]
  have hstate : rows.state after.host = rows.state (before.setImageTag tag) := by
    unfold RenderingRows.state
    rw [hsource]
    rfl
  have hfiles : after.host.files = writtenFiles decodeBase64 artifacts.configFiles files := by
    rw [hrows, hprepared]
  have hmove : prepared.moveFailed = false := by
    rw [hrows] at hmoved
    exact hmoved
  obtain ⟨hcontent, hwritten⟩ := generatedArtifacts_ok hgenerated
  have hmounts : artifacts.configFiles.map (·.mountPath) = before.targetPaths :=
    map_mountPath_eq hwritten
  obtain ⟨container, hcontainer⟩ := isSome_iff_exists.mp hpresent
  have hfile : after.host.files path = some artifacts.compose.content := by
    rw [hfiles, writtenFiles_apply, expectedByPath_eq_none (hmounts ▸ htarget)]
    exact hcompose hmove
  refine ⟨hsource, artifacts, container, ?_, ?_, hfile, ?_, ?_, ?_⟩
  · rw [hdeployment]
    exact hpath
  · rw [hstate, hdeployment]
    exact hgenerated
  · intro target artifact hget
    rw [hfiles, writtenFiles_apply, hget]
  · rw [hdeployment]
    exact hcontainer
  · intro service hservice
    rw [hsource] at hservice
    refine hdocker.creates artifacts.configFiles container ?_ service hservice
    have hcreate := hcreated.symm.trans hcontainer
    unfold Docker.createFrom at hcreate
    rw [hfile, bind_some, hcontent] at hcreate
    have hdefault : composeContent yaml (before.setImageTag tag).artifactSource
        artifacts.configFiles = yaml.stringify (defaultCompose
          { before.artifactSource with imageTag := tag } artifacts.configFiles) := by
      unfold composeContent
      rw [show (before.setImageTag tag).artifactSource.composeTemplate.filter (· ≠ []) = none from
        htemplate]
      rfl
    rw [← hdefault]
    exact hcreate

def generatedService (source : ArtifactSource) (configFiles : List ConfigArtifact) :
    ComposeService where
  image := fullImage source.imageName source.imageTag
  containerName := source.containerName
  restart := "unless-stopped"
  environment := mergedEnv source
  volumes := configFiles.map fun configFile ↦
    configFile.mountPath ++ ":" ++ configFile.mountPath ++ ":ro"
  ports := source.ports

theorem Fresh.runs_generatedService
    (hfresh : Fresh yaml decodeBase64 docker rows world path artifacts container) :
    docker.Runs (generatedService world.host.artifactSource artifacts.configFiles) container :=
  hfresh.runs _ (mem_singleton_self _)

/-- The variables of a fresh container are those that are managed, if their names have no equals
sign, and only then. -/
theorem Docker.Runs.environment_iff {service : ComposeService}
    (hruns : docker.Runs service container)
    (hdollar : ∀ entry ∈ service.environment, '$' ∉ entry.2.toList) :
    (∀ entry ∈ service.environment, (parseEnvArray container.env).get entry.1 = some entry.2) ↔
      ∀ entry ∈ service.environment, '=' ∉ entry.1.toList := by
  constructor
  · intro hsame entry hentry hequals
    have hget := hsame entry hentry
    rw [get_parseEnvArray_of_mem hequals] at hget
    nomatch hget
  · intro hnames entry hentry
    exact get_parseEnvArray_of_filter (hnames entry hentry)
      (hruns.environment hdollar hnames entry hentry)

section

variable {world : InspectedWorld} {path : String} {artifacts : GeneratedArtifacts}
  {container : InspectedContainer} {imageDigestId : Option String}
  (hfresh : Fresh yaml decodeBase64 docker rows world path artifacts container)
  (hdocker : docker.Faithful yaml world.host.artifactSource)
  (hports : world.host.artifactSource.ports = serializeExposedPorts stored.exposedPorts)
  (hdollar : ∀ entry ∈ mergedEnv world.host.artifactSource, '$' ∉ entry.2.toList)
  (htext : ∀ file ∈ pickedFiles world.host.artifactSource, file.configFile.isBinary = false)

include hfresh hdocker hports hdollar

/-- What a fresh host reports agrees with the rows if the three items do, and only then. -/
theorem Fresh.reports_iff :
    (setsEqual (portKeySet (expectedPortsFor stored.exposedPorts))
        (portKeySet (portsOf container.networkPorts)) = true ∧
      (∀ entry ∈ mergedEnv world.host.artifactSource,
        (parseEnvArray container.env).get entry.1 = some entry.2) ∧
      DigestReported (imageDigestId.bind stored.manifestDigest) container.repoDigests) ↔
    ReportsDeployed docker stored world.host.artifactSource imageDigestId := by
  have hruns := hfresh.runs_generatedService
  have hpublishes := hruns.ports
  rw [show (generatedService world.host.artifactSource artifacts.configFiles).ports =
    serializeExposedPorts stored.exposedPorts from hports] at hpublishes
  have hmatch := portsMatch_iff hdocker.readsPorts (hdocker.exposesPorts _) hpublishes
  have henvironment := hruns.environment_iff hdollar
  have hdigests := hruns.repoDigests
  rw [hmatch, hdigests]
  constructor
  · rintro ⟨hagree, hentries, hdigest⟩
    exact ⟨hagree, henvironment.mp hentries, hdigest⟩
  · rintro ⟨hagree, hnames, hdigest⟩
    exact ⟨hagree, henvironment.mpr hnames, hdigest⟩

include htext

theorem Fresh.driftFree (hreports : ReportsDeployed docker stored world.host.artifactSource
    imageDigestId) (checksum : Text → String) :
    DriftFree checksum yaml rows stored world imageDigestId := by
  intro reads hreads report hreport
  obtain ⟨secretValues, -, hdrift⟩ := drift_of_computeDeploymentDrift hreport
  obtain ⟨hmatch, hentries, hdigest⟩ :=
    (hfresh.reports_iff hdocker hports hdollar).mpr hreports
  rw [hdrift]
  cases reads.connected with
  | error message => exact free_unreachedItems reads
  | ok _ =>
    refine (free_iff _).mpr ⟨composePathDrift_isMatch_ne reads, ?_, ?_, ?_, ?_, ?_⟩
    · refine composeContentDrift_isMatch_ne fun target expected result htarget hexpected hcat ↦ ?_
      rw [hreads.deployment, hfresh.composePath] at htarget
      obtain rfl := some.inj (filter_eq_some_iff.mp htarget).1
      rw [hreads.artifacts, hfresh.generated] at hexpected
      obtain rfl := Except.ok.inj hexpected
      exact hreads.read hfresh.compose hcat
    · refine imageDigestDrift_isMatch_ne_iff.mpr fun _ digests hdigests ↦ ?_
      rw [hreads.digests digests hdigests, hfresh.inspected, hreads.manifestDigest]
      exact ⟨rfl, hdigest⟩
    · refine portsDrift_isMatch_ne_iff.mpr fun _ info hinfo ↦ ?_
      rw [hreads.info info hinfo, hfresh.inspected, hreads.exposedPorts]
      exact ⟨hfresh.runs_generatedService.state, hmatch⟩
    · refine envVarsDrift_isMatch_ne_iff.mpr fun _ env henv ↦ ?_
      rw [hreads.env env henv, hfresh.inspected, hreads.source]
      exact ⟨_, rfl, hentries⟩
    · intro item hitem
      obtain ⟨file, hfile, rfl⟩ := mem_map.mp hitem
      rw [hreads.source] at hfile
      have hwritten := (generatedArtifacts_ok hfresh.generated).2
      have htarget : file.targetPath ∈ artifacts.configFiles.map (·.mountPath) := by
        rw [map_mountPath_eq hwritten]
        exact mem_map_of_mem hfile
      obtain ⟨artifact, hartifact, hget⟩ := exists_expectedByPath htarget
      have hplain := isBinary_eq_false hwritten htext artifact hartifact
      refine configFileDrift_isMatch_ne ?_ hplain fun result hcat ↦ ?_
      · unfold DriftReads.expectedConfigFiles
        rw [hreads.artifacts, hfresh.generated]
        exact hget
      · have hstored := hfresh.configFiles file.targetPath artifact hget
        rw [ConfigArtifact.stored, hplain] at hstored
        exact hreads.read hstored hcat

omit htext in
/-- The three items agree if no drift is reported on a fresh host whose secrets can be read. -/
theorem Fresh.reports_of_driftFree {environment : Environment}
    (hsecrets : rows.environment = .ok environment) {checksum : Text → String}
    (hfree : DriftFree checksum yaml rows stored world imageDigestId) :
    ReportsDeployed docker stored world.host.artifactSource imageDigestId := by
  refine (hfresh.reports_iff hdocker hports hdollar).mp ?_
  set reads := world.reads yaml rows stored imageDigestId with hreads
  have hread : reads.secretValues = .ok (environment.secrets.map (·.value)) := by
    show rows.environment.map _ = _
    rw [hsecrets]
    rfl
  have hreport : ∃ report, computeDeploymentDrift checksum reads = .ok report := by
    unfold computeDeploymentDrift
    rw [hread]
    exact ⟨_, rfl⟩
  obtain ⟨report, hreport⟩ := hreport
  obtain ⟨secretValues, -, hdrift⟩ := drift_of_computeDeploymentDrift hreport
  have hitems := hfree reads (faithful_reads world yaml rows stored imageDigestId) report hreport
  rw [hdrift] at hitems
  obtain ⟨-, -, hdigest, hmatch, hentries, -⟩ := (free_iff _).mp hitems
  have hcontainer := hfresh.inspected
  refine ⟨?_, ?_, ?_⟩
  · have hinfo := portsDrift_isMatch_ne_iff.mp hmatch rfl _ rfl
    rw [hcontainer] at hinfo
    exact hinfo.2
  · obtain ⟨hostEnv, henv, hsame⟩ := envVarsDrift_isMatch_ne_iff.mp hentries rfl _ rfl
    rw [hcontainer] at henv
    obtain rfl := some.inj henv
    exact hsame
  · have hreported := imageDigestDrift_isMatch_ne_iff.mp hdigest rfl _ rfl
    rw [hcontainer] at hreported
    exact hreported.2

end

end

end Bridgeport.Deploy
