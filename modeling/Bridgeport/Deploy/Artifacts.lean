import Bridgeport.ConfigSync.SyncConfigFile

/-!
# Deployment artifacts

The compose file and the config files that a deployment writes on its host. `composeContent` fills
the compose template of a service, or generates a document with one service that is keyed on the
container name; `validateGeneratedCompose` refuses a document without this key.

The YAML library is a parameter: `Yaml` prints a generated document and reads the services of any
text.
-/

namespace Bridgeport.Deploy

open Foundation Secrets List OrderedMap

/-! ### Compose documents -/

/-- A service of a compose file, as far as the generator writes it. -/
structure ComposeService where
  (image containerName restart : String)
  environment : List (String × String)
  (volumes ports : List String)

/-- A generated compose document, by service key. -/
structure ComposeConfig where
  services : List (String × ComposeService)

/-- A parsed text: not an object, an object without a `services` object, or the services with the
images that they name. -/
inductive ParsedCompose
  | notAnObject
  | noServices
  | services (entries : List (String × Option String))

structure Yaml where
  stringify : ComposeConfig → Text
  parse : Text → Except String ParsedCompose

def ComposeConfig.parsed (config : ComposeConfig) : ParsedCompose :=
  .services (config.services.map fun entry ↦ (entry.1, some entry.2.image))

/-- The image that a compose file names for a service. -/
def Yaml.imageOf (yaml : Yaml) (content : Text) (serviceKey : String) : Option String :=
  match yaml.parse content with
  | .ok (.services entries) => (entries.lookup serviceKey).join
  | _ => none

/-- `validateGeneratedCompose`: the error message, unless the document is valid. -/
def validateGeneratedCompose (yaml : Yaml) (composeContent : Text) (containerName : String) :
    Option String :=
  match yaml.parse composeContent with
  | .error message =>
    some ("Generated compose for \"" ++ containerName ++ "\" is not valid YAML: " ++ message)
  | .ok .notAnObject =>
    some ("Generated compose for \"" ++ containerName ++ "\" did not parse to a compose document")
  | .ok .noServices =>
    some ("Generated compose for \"" ++ containerName ++ "\" has no \"services:\" section")
  | .ok (.services entries) =>
    let serviceKeys := entries.map Prod.fst
    if containerName ∈ serviceKeys then none
    else
      let listed := ", ".intercalate serviceKeys
      some ("Compose service key mismatch: deploy targets \"" ++ containerName ++
        "\" but the compose file defines service(s) [" ++ (if listed = "" then "none" else listed) ++
        "]. The compose file must contain a service keyed exactly on \"" ++ containerName ++
        "\". If you maintain this compose file by hand, rename the service to \"" ++
        containerName ++ "\".")

/-! ### The rows that artifacts are generated from -/

/-- A config file with its fragments in ascending position. -/
structure SourceConfigFile where
  (id filename : String)
  content : Text
  isBinary : Bool
  language : Option String
  includedFragments : List ConfigSync.FragmentInput

structure SourceFile where
  targetPath : String
  serviceDeploymentId : Option String
  configFile : SourceConfigFile

/-- A service deployment with what the query of `generateDeploymentArtifacts` includes. The JSON
columns for the environment and the ports are decoded. -/
structure ArtifactSource where
  (deploymentId containerName environmentId serviceName imageTag imageName : String)
  composeTemplate : Option Text
  files : List SourceFile
  (baseEnv envOverrides : List (String × String))
  ports : List String

/-- A config file that is written on the host; a binary one as base64. -/
structure ConfigArtifact where
  name : String
  content : Text
  mountPath : String
  isBinary : Bool

/-- A generated compose file. -/
structure ComposeArtifact where
  name : String
  content : Text

structure GeneratedArtifacts where
  compose : ComposeArtifact
  configFiles : List ConfigArtifact

/-- One attachment enters `filesByConfigId`: an override of the deployment always, a base row unless
the config file has an entry. -/
def pickFile (deploymentId : String) (filesByConfigId : OrderedMap String SourceFile)
    (file : SourceFile) : OrderedMap String SourceFile :=
  if file.serviceDeploymentId = some deploymentId then
    filesByConfigId.set file.configFile.id file
  else if file.serviceDeploymentId = none ∧ (filesByConfigId.get file.configFile.id).isNone then
    filesByConfigId.set file.configFile.id file
  else filesByConfigId

variable (source : ArtifactSource)

def pickedFiles : List SourceFile :=
  ((source.files.foldl (pickFile source.deploymentId) OrderedMap.empty).entries.map Prod.snd)

theorem get_pickFile (deploymentId configFileId : String)
    (filesByConfigId : OrderedMap String SourceFile) (file : SourceFile) :
    (pickFile deploymentId filesByConfigId file).get configFileId =
      if file.configFile.id = configFileId ∧ file.serviceDeploymentId = some deploymentId then
        some file
      else if file.configFile.id = configFileId ∧ file.serviceDeploymentId = none then
        (filesByConfigId.get configFileId).or (some file)
      else filesByConfigId.get configFileId := by
  unfold pickFile
  by_cases hfile : file.configFile.id = configFileId
  · by_cases hoverride : file.serviceDeploymentId = some deploymentId
    · simp [hfile, hoverride]
    · by_cases hbase : file.serviceDeploymentId = none
      · cases hget : filesByConfigId.get configFileId with
        | none | some _ => simp [hfile, hbase, hget]
      · simp [hoverride, hbase]
  · have hother : configFileId ≠ file.configFile.id := Ne.symm hfile
    split_ifs <;> simp_all [get_set]

/-- Picking prefers the last override of the deployment, and else takes the first base row. -/
theorem get_foldl_pickFile (deploymentId configFileId : String) (files : List SourceFile) :
    (files.foldl (pickFile deploymentId) OrderedMap.empty).get configFileId =
      (files.filter fun file ↦ file.configFile.id = configFileId ∧
        file.serviceDeploymentId = some deploymentId).getLast?.or
      (files.filter fun file ↦ file.configFile.id = configFileId ∧
        file.serviceDeploymentId = none).head? := by
  induction files using List.reverseRecOn with
  | nil => rfl
  | append_singleton files file ih =>
    rw [foldl_append, foldl_cons, foldl_nil, get_pickFile, ih, filter_append, filter_append]
    by_cases hoverride : file.configFile.id = configFileId ∧
        file.serviceDeploymentId = some deploymentId
    · simp [hoverride]
    · by_cases hbase : file.configFile.id = configFileId ∧ file.serviceDeploymentId = none
      · simp [hbase, List.head?_append]
      · simp [hoverride, hbase]

theorem filter_pickedFiles (configFileId : String) :
    (pickedFiles source).filter (·.configFile.id = configFileId) =
      ((source.files.filter fun file ↦ file.configFile.id = configFileId ∧
        file.serviceDeploymentId = some source.deploymentId).getLast?.or
      (source.files.filter fun file ↦ file.configFile.id = configFileId ∧
        file.serviceDeploymentId = none).head?).toList := by
  set picked := source.files.foldl (pickFile source.deploymentId) OrderedMap.empty with hpicked
  have hkey : ∀ entry ∈ picked.entries, entry.2.configFile.id = entry.1 := by
    intro entry hentry
    have hget := (picked.mem_entries_iff entry.1 entry.2).mp hentry
    rw [hpicked, get_foldl_pickFile, Option.or_eq_some_iff] at hget
    rcases hget with hlast | ⟨-, hfirst⟩
    · have hmem := mem_of_getLast? hlast
      simp only [mem_filter, decide_eq_true_eq] at hmem
      exact hmem.2.1
    · have hmem := mem_of_head? hfirst
      simp only [mem_filter, decide_eq_true_eq] at hmem
      exact hmem.2.1
  have hfilter : picked.entries.filter (·.2.configFile.id = configFileId) =
      picked.entries.filter (·.1 = configFileId) :=
    filter_congr fun entry hentry ↦ by rw [hkey entry hentry]
  unfold pickedFiles
  rw [← hpicked, filter_map, ← get_foldl_pickFile, ← hpicked]
  simp only [Function.comp_def]
  rw [hfilter, filter_entries, map_map]
  exact map_id' _

def mergedEnv : List (String × String) :=
  ((source.baseEnv ++ source.envOverrides).foldl
    (fun environment entry ↦ environment.set entry.1 entry.2)
    (OrderedMap.empty : OrderedMap String String)).entries

/-- `${imageName}:${imageTag}`. -/
def fullImage (imageName imageTag : String) : String :=
  imageName ++ ":" ++ imageTag

variable (configFiles : List ConfigArtifact)

/-- The variables of a compose template, in order. -/
def templateVars : List (String × String) :=
  [("SERVICE_NAME", source.serviceName), ("CONTAINER_NAME", source.containerName),
    ("IMAGE_NAME", source.imageName), ("IMAGE_TAG", source.imageTag),
    ("FULL_IMAGE", fullImage source.imageName source.imageTag)] ++
  configFiles.zipIdx.flatMap fun (configFile, index) ↦
    [("CONFIG_FILE_" ++ toString index, configFile.mountPath),
      ("CONFIG_FILE_" ++ toString index ++ "_NAME", configFile.name)]

/-- The document that is generated without a template. -/
def defaultCompose : ComposeConfig :=
  ⟨[(source.containerName,
    { image := fullImage source.imageName source.imageTag
      containerName := source.containerName
      restart := "unless-stopped"
      environment := mergedEnv source
      volumes := configFiles.map fun configFile ↦
        configFile.mountPath ++ ":" ++ configFile.mountPath ++ ":ro"
      ports := source.ports })]⟩

def composeContent (yaml : Yaml) (source : ArtifactSource) (configFiles : List ConfigArtifact) :
    Text :=
  match source.composeTemplate.filter (· ≠ []) with
  | some template =>
    (templateVars source configFiles).foldl
      (fun content entry ↦ replaceAll (placeholder entry.1.toList) entry.2.toList content) template
  | none => yaml.stringify (defaultCompose source configFiles)

def composeArtifact (yaml : Yaml) (source : ArtifactSource) (configFiles : List ConfigArtifact) :
    ComposeArtifact where
  name := "docker-compose." ++ source.serviceName ++ ".yml"
  content := composeContent yaml source configFiles

end Bridgeport.Deploy
