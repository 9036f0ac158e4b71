import Bridgeport.Deploy.PublishedPorts
import Bridgeport.Deploy.DryRun

/-!
# Drift detection

`computeDeploymentDrift` compares what is stored about a service deployment with its host: the
compose file, the image digest, the published ports, the config files and the managed environment.
It is a function of what it reads (`DriftReads`): rows, regenerated artifacts, and the answers of
the host, each of which may be an error. An item that cannot be compared has no match;
`countDriftItems` counts the matches that are `false`.
-/

namespace Bridgeport.Deploy

open Foundation Secrets ConfigSync List OrderedMap

/-- `ScalarDrift`; the column `match` is `isMatch`. -/
structure ScalarDrift where
  (expected actual : Option String)
  isMatch : Option Bool
  reason : Option String

structure ContentDrift where
  isMatch : Option Bool
  reason : Option String

structure PortsDrift where
  (expected actual : List PortMapping)
  isMatch : Option Bool
  reason : Option String

structure ConfigFileDrift where
  (targetPath configFileName : String)
  isMatch : Option Bool
  reason : Option String

structure EnvVarsDrift where
  (missing unexpected : List String)
  isMatch : Option Bool
  reason : Option String

/-- The items of a `DeploymentDrift`. -/
structure DriftItems where
  composePath : ScalarDrift
  composeContent : ContentDrift
  imageDigest : ScalarDrift
  exposedPorts : PortsDrift
  configFiles : List ConfigFileDrift
  envVars : EnvVarsDrift

structure DeploymentDrift where
  (serviceDeploymentId serverId serverName containerName : String)
  drift : DriftItems
  summary : String
  warnings : List String

variable (drift : DriftItems)

def DriftItems.matches : List (Option Bool) :=
  [drift.composePath.isMatch, drift.composeContent.isMatch, drift.imageDigest.isMatch,
    drift.exposedPorts.isMatch, drift.envVars.isMatch] ++ drift.configFiles.map (·.isMatch)

def countDriftItems : ℕ :=
  drift.matches.count (some false)

def pluralizeDrift (count : ℕ) : String :=
  if count = 1 then "1 drift item detected" else toString count ++ " drift items detected"

/-! ### What is read -/

/-- `ContainerDetails`, as far as drift detection reads it. -/
structure ContainerDetails where
  state : String
  ports : List PortMapping

/-- `ContainerImageDigests`, as far as drift detection reads it. -/
structure ContainerImageDigests where
  found : Bool
  repoDigests : List String

/-- What precedes the first `=` of an entry of `.Config.Env`. -/
def envName (entry : Text) : Text :=
  entry.takeWhile (· ≠ '=')

variable (result : OrderedMap String String)

/-- One entry of `.Config.Env` enters the map, unless it has no `=`. -/
def addEnvEntry (entry : Text) : OrderedMap String String :=
  match entry.dropWhile (· ≠ '=') with
  | [] => result
  | _ :: value => result.set (String.ofList (envName entry)) (String.ofList value)

def parseEnvArray (env : List Text) : OrderedMap String String :=
  env.foldl addEnvEntry OrderedMap.empty

/-- What `computeDeploymentDrift` reads: the deployment with what its query includes, the secrets of
the environment, the number of deployments on the compose path, the regenerated artifacts; the
clients, and whether they connect; the answers of the host. -/
structure DriftReads where
  deployment : ServiceDeployment
  source : ArtifactSource
  exposedPorts : List ExposedPort
  manifestDigest : Option String
  configFileName : String → String
  secretValues : Except String (List Text)
  siblingCount : ℕ
  artifacts : Except String GeneratedArtifacts
  resolve : Text → Except String Resolution
  (dockerClient fileClient : Bool)
  clientError : Option String
  connected : Except String Unit
  digests : Except String ContainerImageDigests
  info : Except String ContainerDetails
  env : Except String (Option (OrderedMap String String))
  cat : String → Except String CommandResult

/-! ### The items -/

section

variable (checksum : Text → String) (secretValues : List Text) (reads : DriftReads)

def composePathDrift : ScalarDrift :=
  match reads.deployment.composePath.filter (· ≠ "") with
  | some storedComposePath => ⟨some storedComposePath, some storedComposePath, some true, none⟩
  | none => ⟨none, none, none, some ("No compose path is set for this deployment (auto-managed " ++
      "compose is off or it was never deployed via compose); nothing to compare.")⟩

/-- What follows the last `@` of a repository digest. -/
def shaOf (repoDigest : String) : String :=
  String.ofList ((repoDigest.toList.reverse.takeWhile (· ≠ '@')).reverse)

def imageDigestDrift : ScalarDrift :=
  let expected := reads.manifestDigest
  if ¬ reads.dockerClient then
    ⟨expected, none, none, some (orElse reads.clientError
      "Could not connect to host to inspect image.")⟩
  else match reads.digests with
    | .error message => ⟨expected, none, none, some ("Could not inspect image digest: " ++ message)⟩
    | .ok digests =>
      if ¬ digests.found then ⟨expected, none, some false, some "Container not found on host."⟩
      else match expected.filter (· ≠ "") with
        | none => ⟨none, digests.repoDigests.head?, none, some ("BRIDGEPORT has no recorded " ++
            "deployed digest for this deployment; cannot compare.")⟩
        | some manifestDigest =>
          if digests.repoDigests.length = 0 then
            ⟨expected, none, none, some ("Host image has no registry digest (locally built or " ++
              "never pulled by digest); cannot compare reliably.")⟩
          else
            let hostShas := digests.repoDigests.map shaOf
            let matched := decide (manifestDigest ∈ hostShas)
            ⟨expected, hostShas.head?, some matched,
              if matched then none
              else some "Host image digest does not match the recorded deployed digest."⟩

def portsDrift : PortsDrift :=
  let expected := expectedPortsFor reads.exposedPorts
  if ¬ reads.dockerClient then
    ⟨expected, [], none, some (orElse reads.clientError
      "Could not connect to host to inspect ports.")⟩
  else match reads.info with
    | .error message => ⟨expected, [], none, some ("Could not inspect ports: " ++ message)⟩
    | .ok info =>
      if info.state = "not_found" then
        ⟨expected, [], some false, some "Container not found on host."⟩
      else
        let isMatch := setsEqual (portKeySet expected) (portKeySet info.ports)
        ⟨expected, info.ports, some isMatch,
          if isMatch then none else some "Published ports differ from the stored mapping."⟩

def envVarsDrift : EnvVarsDrift :=
  if ¬ reads.dockerClient then
    ⟨[], [], none, some (orElse reads.clientError "Could not connect to host to inspect env.")⟩
  else match reads.env with
    | .error message => ⟨[], [], none, some ("Could not inspect env: " ++ message)⟩
    | .ok none => ⟨[], [], some false, some "Container not found on host."⟩
    | .ok (some hostEnv) =>
      let managedEnv := mergedEnv reads.source
      let missing := (managedEnv.filter fun entry ↦ (hostEnv.get entry.1).isNone).map (·.1)
      let unexpected := (managedEnv.filter fun entry ↦ (hostEnv.get entry.1).isSome &&
        decide (hostEnv.get entry.1 ≠ some entry.2)).map (·.1)
      ⟨missing, unexpected, some (missing.length = 0 && unexpected.length = 0), none⟩

def redactedContent (content : Text) : Text :=
  redactSecretValues (trimEnd content) secretValues

/-- The compose file on the host against the one rendered now. -/
def composeContentDrift : ContentDrift :=
  match reads.deployment.composePath.filter (· ≠ "") with
  | none => ⟨none, some "No compose path set; compose content not compared."⟩
  | some storedComposePath =>
    if reads.siblingCount > 1 then
      ⟨none, some ("Compose file is shared by multiple deployments and operator-maintained; " ++
        "BRIDGEPORT does not rewrite it, so content drift is expected and not flagged.")⟩
    else match reads.artifacts with
      | .error _ =>
        ⟨none, some "Expected compose content unavailable (artifact regeneration failed)."⟩
      | .ok artifacts =>
        if ¬ reads.fileClient then
          ⟨none, some (orElse reads.clientError "Could not connect to host to read compose file.")⟩
        else match reads.cat storedComposePath with
          | .error message => ⟨none, some ("Could not read compose file: " ++ message)⟩
          | .ok result =>
            if result.code ≠ 0 then ⟨some false, some "Compose file not found on host."⟩
            else
              let isMatch := decide (checksum (redactedContent secretValues result.stdout) =
                checksum (redactedContent secretValues artifacts.compose.content))
              ⟨some isMatch, if isMatch then none
                else some "Host compose file content differs from the regenerated compose."⟩

def expectedByPath (configFiles : List ConfigArtifact) : OrderedMap String ConfigArtifact :=
  configFiles.foldl (fun expected configFile ↦ expected.set configFile.mountPath configFile)
    OrderedMap.empty

def DriftReads.expectedConfigFiles : List ConfigArtifact :=
  match reads.artifacts with
  | .ok artifacts => artifacts.configFiles
  | .error _ => []

variable (file : SourceFile)

/-- The content that is rendered if there is no artifact to compare with, or a reason why not. -/
def renderDirectly : Except String Text :=
  match reads.resolve (composedSource file) with
  | .error message => .error ("Could not render expected content: " ++ message)
  | .ok resolution =>
    if resolution.templateErrors.length > 0 then
      .error ("Template errors prevent comparison: " ++ "; ".intercalate resolution.templateErrors)
    else .ok (redactedContent secretValues resolution.content)

def expectedRendered : Except String Text :=
  match (expectedByPath reads.expectedConfigFiles).get file.targetPath with
  | some artifact =>
    if ¬ artifact.isBinary then .ok (redactedContent secretValues artifact.content)
    else renderDirectly secretValues reads file
  | none => renderDirectly secretValues reads file

def configFileDrift : ConfigFileDrift :=
  let drift (isMatch : Option Bool) (reason : Option String) : ConfigFileDrift :=
    ⟨file.targetPath, reads.configFileName file.configFile.id, isMatch, reason⟩
  if file.configFile.isBinary then drift none (some "Binary file; content drift not compared.")
  else if ¬ reads.fileClient then
    drift none (some (orElse reads.clientError "Could not connect to host to read config file."))
  else match expectedRendered secretValues reads file with
    | .error reason => drift none (some reason)
    | .ok expected => match reads.cat file.targetPath with
      | .error message => drift none (some ("Could not read host file: " ++ message))
      | .ok result =>
        if result.code ≠ 0 then drift (some false) (some "Config file not found on host.")
        else
          let isMatch := decide (checksum (redactedContent secretValues result.stdout) = checksum expected)
          drift (some isMatch) (if isMatch then none
            else some "Host file content differs from the rendered config.")

def unreachedItems : DriftItems where
  composePath := composePathDrift reads
  composeContent := ⟨none, some "Host not reached; compose content not compared."⟩
  imageDigest := ⟨reads.manifestDigest, none, none,
    some "Host not reached; image digest not compared."⟩
  exposedPorts := ⟨expectedPortsFor reads.exposedPorts, [], none,
    some "Host not reached; ports not compared."⟩
  configFiles := []
  envVars := ⟨[], [], none, some "Host not reached; env vars not compared."⟩

def reachedItems : DriftItems where
  composePath := composePathDrift reads
  composeContent := composeContentDrift checksum secretValues reads
  imageDigest := imageDigestDrift reads
  exposedPorts := portsDrift reads
  configFiles := (pickedFiles reads.source).map (configFileDrift checksum secretValues reads)
  envVars := envVarsDrift reads

/-- `computeDeploymentDrift`, which throws if the secrets cannot be read. -/
def computeDeploymentDrift : Except String DeploymentDrift :=
  reads.secretValues.map fun secretValues ↦
    let drift := match reads.connected with
      | .ok () => reachedItems checksum secretValues reads
      | .error _ => unreachedItems reads
    { serviceDeploymentId := reads.deployment.id
      serverId := reads.deployment.server.id
      serverName := reads.deployment.server.name
      containerName := reads.deployment.containerName
      drift := drift
      summary := pluralizeDrift (countDriftItems drift)
      warnings :=
        (match reads.artifacts with
          | .error message => ["Could not regenerate expected artifacts: " ++ message]
          | .ok _ => []) ++
        (match reads.connected with
          | .error message => ["Host inspection failed: " ++ message]
          | .ok () => []) }

end

theorem get_addEnvEntry (entry : Text) (key : String) : (addEnvEntry result entry).get key =
      if envName entry = key.toList then
        match entry.dropWhile (· ≠ '=') with
        | [] => result.get key
        | _ :: value => some (String.ofList value)
      else result.get key := by
  unfold addEnvEntry
  cases entry.dropWhile (· ≠ '=') with
  | nil => simp
  | cons separator value =>
    rw [get_set]
    by_cases hkey : envName entry = key.toList
    · rw [if_pos hkey, hkey, String.ofList_toList, if_pos rfl]
    · rw [if_neg hkey, if_neg]
      rintro rfl
      exact hkey String.toList_ofList.symm

/-- Only the entries with its name decide about a variable. -/
theorem get_foldl_addEnvEntry (env : List Text) (result : OrderedMap String String) (key : String) :
    (env.foldl addEnvEntry result).get key =
      ((env.filter fun entry ↦ envName entry = key.toList).foldl addEnvEntry result).get key := by
  induction env using List.reverseRecOn with
  | nil => rfl
  | append_singleton env last ih =>
    rw [foldl_append, foldl_cons, foldl_nil, get_addEnvEntry, filter_append]
    by_cases hkey : envName last = key.toList
    · have hlast : [last].filter (fun entry ↦ envName entry = key.toList) = [last] := by
        simp [hkey]
      rw [hlast, foldl_append, foldl_cons, foldl_nil, get_addEnvEntry, ih]
    · have hlast : [last].filter (fun entry ↦ envName entry = key.toList) = [] := by
        simp [hkey]
      rw [hlast, append_nil, if_neg hkey, ih]

variable {env : List Text}

/-- A variable that the environment of a container has once. -/
theorem get_parseEnvArray_of_filter {key value : String} (hkey : '=' ∉ key.toList)
    (hfilter : env.filter (fun entry ↦ envName entry = key.toList) =
      [key.toList ++ '=' :: value.toList]) : (parseEnvArray env).get key = some value := by
  have hall : ∀ character ∈ key.toList, (decide (character ≠ '=')) = true := by
    intro character hcharacter
    exact decide_eq_true fun h ↦ hkey (h ▸ hcharacter)
  unfold parseEnvArray
  rw [get_foldl_addEnvEntry, hfilter, foldl_cons, foldl_nil, get_addEnvEntry, envName,
    takeWhile_append_of_pos hall, dropWhile_append_of_pos hall]
  simp

/-- No variable has a name with an equals sign. -/
theorem get_parseEnvArray_of_mem {key : String} (hkey : '=' ∈ key.toList) :
    (parseEnvArray env).get key = none := by
  have hnone : env.filter (fun entry ↦ envName entry = key.toList) = [] := by
    refine filter_eq_nil_iff.mpr fun entry _ hentry ↦ ?_
    have hname : '=' ∈ envName entry := (of_decide_eq_true hentry).symm ▸ hkey
    simpa using mem_takeWhile_imp hname
  unfold parseEnvArray
  rw [get_foldl_addEnvEntry, hnone]
  exact get_empty key

/-! ### Items that have no drift -/

/-- No item has a match that is `false`. -/
def DriftItems.Free : Prop :=
  some false ∉ drift.matches

theorem free_iff : drift.Free ↔
    drift.composePath.isMatch ≠ some false ∧ drift.composeContent.isMatch ≠ some false ∧
      drift.imageDigest.isMatch ≠ some false ∧ drift.exposedPorts.isMatch ≠ some false ∧
        drift.envVars.isMatch ≠ some false ∧
          ∀ file ∈ drift.configFiles, file.isMatch ≠ some false := by
  simp [DriftItems.Free, DriftItems.matches, not_or, eq_comm]

section

variable {checksum : Text → String} {secretValues : List Text} {reads : DriftReads}

theorem composePathDrift_isMatch_ne (reads : DriftReads) :
    (composePathDrift reads).isMatch ≠ some false := by
  unfold composePathDrift
  split <;> simp

/-- A recorded digest is among the repository digests of an image, if it has any. -/
def DigestReported (manifestDigest : Option String) (repoDigests : List String) : Prop :=
  ∀ digest, manifestDigest.filter (· ≠ "") = some digest →
    repoDigests = [] ∨ digest ∈ repoDigests.map shaOf

theorem imageDigestDrift_isMatch_ne_iff : (imageDigestDrift reads).isMatch ≠ some false ↔
    (reads.dockerClient = true → ∀ digests, reads.digests = .ok digests →
      digests.found = true ∧ DigestReported reads.manifestDigest digests.repoDigests) := by
  unfold imageDigestDrift DigestReported
  by_cases hdocker : reads.dockerClient = true
  · rw [if_neg (not_not.mpr hdocker)]
    cases hdigests : reads.digests with
    | error message => simp
    | ok digests =>
      generalize reads.manifestDigest.filter (· ≠ "") = manifestDigest
      by_cases hfound : digests.found = true
      · cases manifestDigest with
        | none => simp [hdocker, hfound]
        | some manifestDigest =>
          by_cases hempty : digests.repoDigests = []
          · simp [hdocker, hfound, hempty]
          · simp [hdocker, hfound, hempty]
      · simp [hdocker, hfound]
  · simp [hdocker]

theorem portsDrift_isMatch_ne_iff : (portsDrift reads).isMatch ≠ some false ↔
    (reads.dockerClient = true → ∀ info, reads.info = .ok info → info.state ≠ "not_found" ∧
      setsEqual (portKeySet (expectedPortsFor reads.exposedPorts)) (portKeySet info.ports) =
        true) := by
  unfold portsDrift
  by_cases hdocker : reads.dockerClient = true
  · rw [if_neg (not_not.mpr hdocker)]
    cases hinfo : reads.info with
    | error message => simp
    | ok info =>
      by_cases hstate : info.state = "not_found"
      · simp [hdocker, hstate]
      · simp [hdocker, hstate]
  · simp [hdocker]

theorem envVarsDrift_isMatch_ne_iff : (envVarsDrift reads).isMatch ≠ some false ↔
    (reads.dockerClient = true → ∀ env, reads.env = .ok env → ∃ hostEnv, env = some hostEnv ∧
      ∀ entry ∈ mergedEnv reads.source, hostEnv.get entry.1 = some entry.2) := by
  unfold envVarsDrift
  by_cases hdocker : reads.dockerClient = true
  · rw [if_neg (not_not.mpr hdocker)]
    cases henv : reads.env with
    | error message => simp
    | ok env =>
      cases env with
      | none => simp [hdocker]
      | some hostEnv =>
        have hsplit : (∀ key value, (key, value) ∈ mergedEnv reads.source →
            hostEnv.get key = some value) ↔
            (∀ key value, (key, value) ∈ mergedEnv reads.source → ¬ hostEnv.get key = none) ∧
            ∀ key value, (key, value) ∈ mergedEnv reads.source → (hostEnv.get key).isSome = true →
              hostEnv.get key = some value := by
          constructor
          · exact fun h ↦ ⟨fun key value hentry ↦ by simp [h key value hentry],
              fun key value hentry _ ↦ h key value hentry⟩
          · rintro ⟨hpresent, hsame⟩ key value hentry
            exact hsame key value hentry (Option.isSome_iff_ne_none.mpr (hpresent key value hentry))
        simp [hdocker, filter_eq_nil_iff, hsplit]
  · simp [hdocker]

theorem composeContentDrift_isMatch_ne (h : ∀ path artifacts result,
    reads.deployment.composePath.filter (· ≠ "") = some path → reads.artifacts = .ok artifacts →
      reads.cat path = .ok result → result.code = 0 ∧ result.stdout = artifacts.compose.content) :
    (composeContentDrift checksum secretValues reads).isMatch ≠ some false := by
  unfold composeContentDrift
  cases hpath : reads.deployment.composePath.filter (· ≠ "") with
  | none => simp
  | some path =>
    by_cases hshared : reads.siblingCount > 1
    · simp [hshared]
    · cases hartifacts : reads.artifacts with
      | error message => simp [hshared]
      | ok artifacts =>
        by_cases hclient : reads.fileClient = true
        · cases hcat : reads.cat path with
          | error message => simp [hshared, hclient, hcat]
          | ok result =>
            obtain ⟨hcode, hstdout⟩ := h path artifacts result hpath hartifacts hcat
            simp [hshared, hclient, hcat, hcode, hstdout]
        · simp [hshared, hclient]

/-- A text file on the host is the regenerated one. -/
theorem configFileDrift_isMatch_ne {file : SourceFile} {artifact : ConfigArtifact}
    (hartifact : (expectedByPath reads.expectedConfigFiles).get file.targetPath = some artifact)
    (htext : artifact.isBinary = false) (hcat : ∀ result, reads.cat file.targetPath = .ok result →
      result.code = 0 ∧ result.stdout = artifact.content) :
    (configFileDrift checksum secretValues reads file).isMatch ≠ some false := by
  have hexpected : expectedRendered secretValues reads file = .ok
    (redactedContent secretValues artifact.content) := by
    unfold expectedRendered
    rw [hartifact]
    simp [htext]
  unfold configFileDrift
  rw [hexpected]
  by_cases hbinary : file.configFile.isBinary = true
  · simp [hbinary]
  · by_cases hclient : reads.fileClient = true
    · cases hread : reads.cat file.targetPath with
      | error message => simp [hbinary, hclient]
      | ok result =>
        obtain ⟨hcode, hstdout⟩ := hcat result hread
        simp [hbinary, hclient, hcode, hstdout]
    · simp [hbinary, hclient]

/-- What is reported are the items of the host, or those of a host that is not reached. -/
theorem drift_of_computeDeploymentDrift {report : DeploymentDrift}
    (h : computeDeploymentDrift checksum reads = .ok report) :
    ∃ secretValues, reads.secretValues = .ok secretValues ∧
      report.drift = match reads.connected with
        | .ok () => reachedItems checksum secretValues reads
        | .error _ => unreachedItems reads := by
  unfold computeDeploymentDrift at h
  cases hsecrets : reads.secretValues with
  | error message =>
    rw [hsecrets] at h
    nomatch h
  | ok secretValues =>
    rw [hsecrets] at h
    obtain rfl := Except.ok.inj h
    exact ⟨secretValues, rfl, rfl⟩

theorem free_unreachedItems (reads : DriftReads) : (unreachedItems reads).Free := by
  rw [free_iff]
  refine ⟨composePathDrift_isMatch_ne reads, ?_⟩
  simp [unreachedItems]

end

end Bridgeport.Deploy
