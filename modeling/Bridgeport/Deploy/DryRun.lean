import Bridgeport.Deploy.Phases

/-!
# The dry run of a deployment

`previewDryRunArtifacts` renders the artifacts of a deployment for a report, with the values of
secrets redacted. It repeats the rendering of `generateDeploymentArtifacts` with an image tag of its
own, and it collects the reasons for which a deployment is reported to fail instead of throwing.
-/

namespace Bridgeport.Deploy

open ConfigSync (composeFragmentedContent trimEnd)
open Foundation Program Secrets List

def utf16Length (text : Text) : ℕ :=
  (text.map fun character ↦ if character.toNat < 0x10000 then 1 else 2).sum

/-- `redactSecretValues`: longer values are replaced first. -/
def redactSecretValues (content : Text) (secretValues : List Text) : Text :=
  ((secretValues.filter fun value ↦ utf16Length value > 0).insertionSort fun first second ↦
    utf16Length second ≤ utf16Length first).foldl
      (fun result value ↦ replaceAll value "***".toList result) content

def redactEnvSecrets (environment : List (String × String)) (secretValues : List Text) :
    List (String × String) :=
  environment.map fun entry ↦
    (entry.1, String.ofList (redactSecretValues entry.2.toList secretValues))

/-! ### The state of the database -/

/-- What both functions read: the deployments with their services, the servers that the template
stage lists, and the vars and secrets of every environment, or the error of a secret that cannot be
decrypted. -/
structure ArtifactState where
  sources : String → Option ArtifactSource
  renderTemplate : String → Text → Text × List String
  environment : String → Except String Environment

namespace ArtifactState

variable (state : ArtifactState) (serviceDeploymentId : String)

/-- The query of both functions, which throws unless the deployment is there. -/
def findSource : Except String ArtifactSource :=
  match state.sources serviceDeploymentId with
  | some source => .ok source
  | none => .error "No ServiceDeployment found"

/-- `getSecretsForEnv`, without the keys. -/
def secretValues (environmentId : String) : Except String (List Text) :=
  (state.environment environmentId).map fun environment ↦ environment.secrets.map (·.value)

/-- `resolveSecretPlaceholders`. -/
def resolve (environmentId : String) (content : Text) : Except String Resolution :=
  (state.environment environmentId).map fun environment ↦
    resolveSecretPlaceholders (state.renderTemplate environmentId) environment content

def withImageTag (imageTag : String) : ArtifactState :=
  { state with
    sources := Function.update state.sources serviceDeploymentId
      ((state.sources serviceDeploymentId).map fun source ↦ { source with imageTag }) }

end ArtifactState

/-! ### The preview -/

structure DryRunArtifactsPreview where
  composeContent : Text
  env : List (String × String)
  configFiles : List ConfigArtifact
  warnings : List String
  wouldFail : Bool
  failureReason : Option String

/-- What the loop over the config files collects. -/
structure PreviewProgress where
  configFiles : List ConfigArtifact
  (warnings failureReasons : List String)

def composedSource (file : SourceFile) : Text :=
  composeFragmentedContent file.configFile.includedFragments file.configFile.content
    file.configFile.language

def previewMessages (file : SourceFile) (resolution : Resolution) : List String :=
  (if resolution.templateErrors.length > 0 then
    ["Config file \"" ++ file.configFile.filename ++ "\" template errors: " ++
      "; ".intercalate resolution.templateErrors] else []) ++
  (if resolution.missing.length > 0 then
    ["Config file \"" ++ file.configFile.filename ++ "\" missing secrets: " ++
      ", ".intercalate (resolution.missing.map String.ofList)] else [])

variable (state : ArtifactState)

def previewFile (environmentId : String) (secretValues : List Text) (progress : PreviewProgress)
    (file : SourceFile) : Except String PreviewProgress :=
  if file.configFile.isBinary then
    .ok { progress with
      configFiles := progress.configFiles ++ [⟨file.configFile.filename,
        "<binary content omitted from dry-run>".toList, file.targetPath, true⟩] }
  else do
    let resolution ← state.resolve environmentId (composedSource file)
    let messages := previewMessages file resolution
    .ok ⟨progress.configFiles ++ [⟨file.configFile.filename,
        redactSecretValues (trimEnd resolution.content) secretValues, file.targetPath, false⟩],
      progress.warnings ++ messages, progress.failureReasons ++ messages⟩

variable (yaml : Yaml) (source : ArtifactSource) (redactedEnv : List (String × String))

def previewCompose (configFiles : List ConfigArtifact) : Text :=
  match source.composeTemplate.filter (· ≠ []) with
  | some template =>
    (templateVars source configFiles).foldl
      (fun content entry ↦ replaceAll (placeholder entry.1.toList) entry.2.toList content) template
  | none => yaml.stringify ⟨[(source.containerName,
    { image := fullImage source.imageName source.imageTag
      containerName := source.containerName
      restart := "unless-stopped"
      environment := redactedEnv
      volumes := configFiles.map fun configFile ↦
        configFile.mountPath ++ ":" ++ configFile.mountPath ++ ":ro"
      ports := source.ports })]⟩

def previewDryRunArtifacts (state : ArtifactState) (serviceDeploymentId : String)
    (imageTag : Option String) : Except String DryRunArtifactsPreview := do
  let deployment ← state.findSource serviceDeploymentId
  let source := { deployment with imageTag := imageTag.getD deployment.imageTag }
  let secretValues ← state.secretValues source.environmentId
  let progress ← (pickedFiles source).foldlM
    (previewFile state source.environmentId secretValues) ⟨[], [], []⟩
  let redactedEnv := redactEnvSecrets (mergedEnv source) secretValues
  let composeContent := previewCompose yaml source redactedEnv progress.configFiles
  let wouldFail := progress.failureReasons.length > 0
  .ok
    { composeContent := redactSecretValues composeContent secretValues
      env := redactedEnv
      configFiles := progress.configFiles
      warnings := progress.warnings
      wouldFail := wouldFail
      failureReason := if wouldFail then some ("; ".intercalate progress.failureReasons) else none }

/-! ### The deployment -/

def artifactSemantics : Semantics Answer ArtifactState where
  allows state event :=
    match event with
    | ⟨.findArtifactSource id, answer⟩ => answer = state.findSource id
    | ⟨.resolveSecretPlaceholders environmentId content, answer⟩ =>
      answer = state.resolve environmentId content
    | _ => True
  after state _ := state

/-- `generateDeploymentArtifacts` ends like this in a state. -/
def Generates (state : ArtifactState) (serviceDeploymentId : String)
    (result : Except String GeneratedArtifacts) : Prop :=
  ∃ log, Traces (generateDeploymentArtifacts yaml serviceDeploymentId) log (some result) ∧
    artifactSemantics.Consistent state log

def writtenFile (environmentId : String) (file : SourceFile) : Except String ConfigArtifact :=
  if file.configFile.isBinary then
    .ok ⟨file.configFile.filename, file.configFile.content, file.targetPath, true⟩
  else do
    let resolution ← state.resolve environmentId (composedSource file)
    if resolution.templateErrors.length > 0 then
      .error ("Config file \"" ++ file.configFile.filename ++ "\" has template errors: " ++
        "; ".intercalate resolution.templateErrors)
    else .ok ⟨file.configFile.filename, trimEnd resolution.content, file.targetPath, false⟩

def generatedArtifacts (state : ArtifactState) (serviceDeploymentId : String) :
    Except String GeneratedArtifacts := do
  let source ← state.findSource serviceDeploymentId
  let configFiles ← (pickedFiles source).mapM (writtenFile state source.environmentId)
  .ok ⟨composeArtifact yaml source configFiles, configFiles⟩

section

variable (yaml : Yaml) (state : ArtifactState) (environmentId : String)

theorem meets_configArtifact (file : SourceFile) :
    (configArtifact environmentId file).Meets artifactSemantics (fun result after ↦
      result = writtenFile state environmentId file ∧ after = state) state := by
  unfold configArtifact writtenFile
  by_cases hbinary : file.configFile.isBinary
  · simp only [if_pos hbinary]
    exact ⟨rfl, rfl⟩
  · simp only [if_neg hbinary]
    refine meets_perform_bind.mpr ⟨fun resolution hresolution ↦ ?_, fun message hmessage ↦ ?_⟩
    · have hresolve : state.resolve environmentId (composedSource file) = .ok resolution :=
        Eq.symm hresolution
      rw [hresolve]
      by_cases herrors : resolution.templateErrors.length > 0
      · simp only [if_pos herrors]
        exact ⟨(if_pos herrors).symm, rfl⟩
      · simp only [if_neg herrors]
        exact ⟨(if_neg herrors).symm, rfl⟩
    · have hresolve : state.resolve environmentId (composedSource file) = .error message :=
        Eq.symm hmessage
      rw [hresolve]
      exact ⟨rfl, rfl⟩

theorem meets_configArtifacts (files : List SourceFile) :
    (configArtifacts environmentId files).Meets artifactSemantics (fun result after ↦
      result = files.mapM (writtenFile state environmentId) ∧ after = state) state := by
  induction files with
  | nil => exact ⟨rfl, rfl⟩
  | cons file rest ih =>
    refine meets_bind.mpr ((meets_configArtifact state environmentId file).mono ?_)
    rintro (message | artifact) after ⟨hfile, rfl⟩
    · rw [mapM_cons, ← hfile]
      exact ⟨rfl, rfl⟩
    · refine meets_bind.mpr (ih.mono ?_)
      rintro (message | artifacts) later ⟨hrest, rfl⟩
      · rw [mapM_cons, ← hfile, ← hrest]
        exact ⟨rfl, rfl⟩
      · rw [mapM_cons, ← hfile, ← hrest]
        exact ⟨rfl, rfl⟩

theorem meets_generateDeploymentArtifacts (serviceDeploymentId : String) :
    (generateDeploymentArtifacts yaml serviceDeploymentId).Meets artifactSemantics (fun result _ ↦
      result = generatedArtifacts yaml state serviceDeploymentId) state := by
  unfold generatedArtifacts
  refine meets_perform_bind.mpr ⟨fun source hsource ↦ ?_, fun message hmessage ↦ ?_⟩
  · have hfound : state.findSource serviceDeploymentId = .ok source := Eq.symm hsource
    rw [hfound]
    refine meets_bind.mpr ((meets_configArtifacts state source.environmentId _).mono ?_)
    rintro (message | configFiles) after ⟨hfiles, -⟩
    · show _ = (pickedFiles source).mapM (writtenFile state source.environmentId) >>= _
      rw [← hfiles]
      rfl
    · show _ = (pickedFiles source).mapM (writtenFile state source.environmentId) >>= _
      rw [← hfiles]
      rfl
  · have hfound : state.findSource serviceDeploymentId = .error message := Eq.symm hmessage
    rw [hfound]
    rfl

end

def ArtifactState.answer : (request : Call) → Except String (Answer request)
  | .findArtifactSource id => state.findSource id
  | .resolveSecretPlaceholders environmentId content => state.resolve environmentId content
  | _ => .error "Not answered"

theorem allows_answer (request : Call) :
    artifactSemantics.allows state ⟨request, state.answer request⟩ := by
  cases request with
  | findArtifactSource _ | resolveSecretPlaceholders _ _ => exact rfl
  | _ => exact trivial

/-- `generateDeploymentArtifacts` ends in one way. -/
theorem generates_iff {yaml : Yaml} {state : ArtifactState} {serviceDeploymentId : String}
    {result : Except String GeneratedArtifacts} : Generates yaml state serviceDeploymentId result ↔
      result = generatedArtifacts yaml state serviceDeploymentId := by
  have hmeets := meets_generateDeploymentArtifacts yaml state serviceDeploymentId
  constructor
  · rintro ⟨log, htraces, hconsistent⟩
    exact hmeets.sound htraces hconsistent
  · rintro rfl
    have hquiet : (generateDeploymentArtifacts yaml serviceDeploymentId).Quiet fun _ ↦ False :=
      quiet_generateDeploymentArtifacts (fun _ _ ↦ not_false) yaml serviceDeploymentId
    obtain ⟨htraces, hconsistent⟩ := run_sound allows_answer hquiet.sequential state
    refine ⟨_, ?_, hconsistent⟩
    rw [← hmeets.sound htraces hconsistent]
    exact htraces

/-! ### The two loops -/

/-- A loop none of whose turns throws. -/
theorem mapM_eq_ok {α β : Type} {turn : α → Except String β} {value : α → β} {items : List α}
    (h : ∀ item ∈ items, turn item = .ok (value item)) :
    items.mapM turn = .ok (items.map value) := by
  induction items with
  | nil => rfl
  | cons item rest ih =>
    rw [mapM_cons, h item mem_cons_self, ih fun other hother ↦ h other (mem_cons_of_mem _ hother)]
    rfl

theorem exists_mapM_eq_error {α β : Type} {turn : α → Except String β} {items : List α} {item : α}
    {message : String} (hitem : item ∈ items) (h : turn item = .error message) :
    ∃ thrown, items.mapM turn = .error thrown := by
  induction items with
  | nil => exact absurd hitem not_mem_nil
  | cons first rest ih =>
    rw [mapM_cons]
    cases hfirst : turn first with
    | error thrown => exact ⟨thrown, rfl⟩
    | ok value =>
      have hrest : item ∈ rest := by
        rcases mem_cons.mp hitem with rfl | hrest
        · rw [h] at hfirst
          nomatch hfirst
        · exact hrest
      obtain ⟨thrown, hthrown⟩ := ih hrest
      rw [hthrown]
      exact ⟨thrown, rfl⟩

section

variable (state : ArtifactState) (environmentId : String) (environment : Environment)
  (file : SourceFile)

def resolutionOf : Resolution :=
  resolveSecretPlaceholders (state.renderTemplate environmentId) environment (composedSource file)

def shownFile (secretValues : List Text) (file : SourceFile) : ConfigArtifact where
  name := file.configFile.filename
  content :=
    if file.configFile.isBinary then "<binary content omitted from dry-run>".toList
    else redactSecretValues (trimEnd (resolutionOf state environmentId environment file).content)
      secretValues
  mountPath := file.targetPath
  isBinary := file.configFile.isBinary

/-- The file that a deployment writes when its template has no errors. -/
def plainFile : ConfigArtifact where
  name := file.configFile.filename
  content :=
    if file.configFile.isBinary then file.configFile.content
    else trimEnd (resolutionOf state environmentId environment file).content
  mountPath := file.targetPath
  isBinary := file.configFile.isBinary

def messagesOf : List String :=
  if file.configFile.isBinary then []
  else previewMessages file (resolutionOf state environmentId environment file)

/-- The template of a text file has errors. -/
def HasErrors : Prop :=
  file.configFile.isBinary = false ∧
    (resolutionOf state environmentId environment file).templateErrors ≠ []

/-- A text file is left with a placeholder. -/
def HasMissing : Prop :=
  file.configFile.isBinary = false ∧
    (resolutionOf state environmentId environment file).missing ≠ []

variable {state environmentId environment}

theorem messagesOf_eq_nil_iff : messagesOf state environmentId environment file = [] ↔
      ¬ HasErrors state environmentId environment file ∧
        ¬ HasMissing state environmentId environment file := by
  unfold messagesOf HasErrors HasMissing previewMessages
  by_cases hbinary : file.configFile.isBinary
  · simp [hbinary]
  · simp [hbinary, length_pos_iff]

variable (henvironment : state.environment environmentId = .ok environment)

include henvironment

theorem resolve_eq (file : SourceFile) : state.resolve environmentId (composedSource file) =
    .ok (resolutionOf state environmentId environment file) := by
  rw [ArtifactState.resolve, henvironment]
  rfl

theorem foldlM_previewFile (secretValues : List Text) (progress : PreviewProgress)
    (files : List SourceFile) :
    files.foldlM (previewFile state environmentId secretValues) progress =
      .ok ⟨progress.configFiles ++ files.map
        (shownFile state environmentId environment secretValues),
        progress.warnings ++ files.flatMap (messagesOf state environmentId environment),
        progress.failureReasons ++ files.flatMap (messagesOf state environmentId environment)⟩ := by
  induction files generalizing progress with
  | nil => simp [pure, Except.pure]
  | cons file rest ih =>
    have hfile : previewFile state environmentId secretValues progress file =
        .ok ⟨progress.configFiles ++ [shownFile state environmentId environment secretValues file],
          progress.warnings ++ messagesOf state environmentId environment file,
          progress.failureReasons ++ messagesOf state environmentId environment file⟩ := by
      unfold previewFile messagesOf shownFile
      by_cases hbinary : file.configFile.isBinary
      · simp [hbinary]
      · simp only [hbinary, Bool.false_eq_true, if_false, resolve_eq henvironment file]
        rfl
    rw [foldlM_cons, hfile]
    show rest.foldlM _ _ = _
    rw [ih]
    simp

variable {file : SourceFile}

theorem writtenFile_of_not_hasErrors (h : ¬ HasErrors state environmentId environment file) :
    writtenFile state environmentId file = .ok
      (plainFile state environmentId environment file) := by
  unfold writtenFile plainFile
  by_cases hbinary : file.configFile.isBinary
  · simp [hbinary]
  · have herrors : (resolutionOf state environmentId environment file).templateErrors = [] := by
      by_contra hne
      exact h ⟨by simpa using hbinary, hne⟩
    simp only [hbinary, Bool.false_eq_true, if_false, resolve_eq henvironment file]
    show (if (resolutionOf state environmentId environment file).templateErrors.length > 0
      then _ else _) = _
    rw [if_neg (by simp [herrors])]

theorem writtenFile_of_hasErrors (h : HasErrors state environmentId environment file) :
    ∃ message, writtenFile state environmentId file = .error message := by
  obtain ⟨hbinary, herrors⟩ := h
  unfold writtenFile
  simp only [hbinary, Bool.false_eq_true, if_false, resolve_eq henvironment file]
  exact ⟨_, if_pos (length_pos_iff.mpr herrors)⟩

end

theorem templateVars_map {first second : SourceFile → ConfigArtifact}
    (hname : ∀ file, (first file).name = (second file).name)
    (hmountPath : ∀ file, (first file).mountPath = (second file).mountPath)
    (files : List SourceFile) :
    templateVars source (files.map first) = templateVars source (files.map second) := by
  unfold templateVars
  simp [zipIdx_map, flatMap_map, hname, hmountPath]

/-- With a template, the variables are all that the two compose files are made from. -/
theorem previewCompose_eq_composeContent {shown written : List ConfigArtifact}
    (hvars : templateVars source shown = templateVars source written)
    (htemplate : source.composeTemplate.filter (· ≠ []) ≠ none) :
    previewCompose yaml source redactedEnv shown = composeContent yaml source written := by
  unfold previewCompose composeContent
  cases hfilter : source.composeTemplate.filter (· ≠ []) with
  | none => exact absurd hfilter htemplate
  | some template =>
    dsimp only
    rw [hvars]

/-! ### The comparison -/

/-- The previewed file is the one that is written, with the values of secrets redacted. -/
structure Previews (secretValues : List Text) (shown written : ConfigArtifact) : Prop where
  name : shown.name = written.name
  mountPath : shown.mountPath = written.mountPath
  isBinary : shown.isBinary = written.isBinary
  content : written.isBinary = false →
    shown.content = redactSecretValues written.content secretValues

/-- The report lists the files that a deployment writes, and its compose file for a service with a
template. -/
structure Lists (source : ArtifactSource) (secretValues : List Text)
    (report : DryRunArtifactsPreview) (artifacts : GeneratedArtifacts) : Prop where
  configFiles : List.Forall₂ (Previews secretValues) report.configFiles artifacts.configFiles
  compose : source.composeTemplate.filter (· ≠ []) ≠ none →
    report.composeContent = redactSecretValues artifacts.compose.content secretValues

section

variable (yaml : Yaml) (state : ArtifactState) (serviceDeploymentId imageTag : String)

def DeployThrows : Prop :=
  ∃ message, Generates yaml (state.withImageTag serviceDeploymentId imageTag) serviceDeploymentId
    (.error message)

def ReportsFailure : Prop :=
  ∃ report, previewDryRunArtifacts yaml state serviceDeploymentId (some imageTag) = .ok report ∧
    report.wouldFail = true

def ListsDeploy (source : ArtifactSource) : Prop :=
  ∃ secretValues report artifacts, state.secretValues source.environmentId = .ok secretValues ∧
    previewDryRunArtifacts yaml state serviceDeploymentId (some imageTag) = .ok report ∧
    Generates yaml (state.withImageTag serviceDeploymentId imageTag) serviceDeploymentId
      (.ok artifacts) ∧ Lists source secretValues report artifacts

/-- The preview reports a failure exactly when the deployment throws, and lists what it generates
otherwise. -/
def Foretells (source : ArtifactSource) : Prop :=
  (ReportsFailure yaml state serviceDeploymentId imageTag ↔
    DeployThrows yaml state serviceDeploymentId imageTag) ∧
  (¬ ReportsFailure yaml state serviceDeploymentId imageTag →
    ListsDeploy yaml state serviceDeploymentId imageTag source)

variable {state} {serviceDeploymentId} {source : ArtifactSource} {environment : Environment}
  (hsource : state.sources serviceDeploymentId = some source)
  (henvironment : state.environment source.environmentId = .ok environment)

include hsource

theorem findSource_withImageTag :
    (state.withImageTag serviceDeploymentId imageTag).findSource serviceDeploymentId =
      .ok { source with imageTag } := by
  simp [ArtifactState.findSource, ArtifactState.withImageTag, hsource]

include henvironment

theorem previewDryRunArtifacts_eq :
    previewDryRunArtifacts yaml state serviceDeploymentId (some imageTag) =
      (let secretValues := environment.secrets.map (·.value)
      let configFiles := (pickedFiles source).map
        (shownFile state source.environmentId environment secretValues)
      let messages := (pickedFiles source).flatMap
        (messagesOf state source.environmentId environment)
      let redactedEnv := redactEnvSecrets (mergedEnv source) secretValues
      .ok
        { composeContent := redactSecretValues
            (previewCompose yaml { source with imageTag } redactedEnv configFiles) secretValues
          env := redactedEnv
          configFiles
          warnings := messages
          wouldFail := messages.length > 0
          failureReason := if messages.length > 0 then some ("; ".intercalate messages) else none }) := by
  have hfound : state.findSource serviceDeploymentId = .ok source := by
    simp [ArtifactState.findSource, hsource]
  have hsecrets : state.secretValues source.environmentId =
      .ok (environment.secrets.map (·.value)) := by
    rw [ArtifactState.secretValues, henvironment]
    rfl
  have hloop := foldlM_previewFile henvironment (environment.secrets.map (·.value)) ⟨[], [], []⟩
    (pickedFiles source)
  unfold previewDryRunArtifacts
  rw [hfound]
  show (state.secretValues source.environmentId >>= _) = _
  rw [hsecrets]
  show ((pickedFiles source).foldlM _ _ >>= _ : Except String DryRunArtifactsPreview) = _
  rw [hloop]
  simp only [nil_append]
  rfl

theorem deployThrows_iff : DeployThrows yaml state serviceDeploymentId imageTag ↔
    ∃ file ∈ pickedFiles source, HasErrors state source.environmentId environment file := by
  have hgenerated : generatedArtifacts yaml (state.withImageTag serviceDeploymentId imageTag)
      serviceDeploymentId = (pickedFiles source).mapM (writtenFile state source.environmentId) >>=
        fun configFiles ↦ .ok
          ⟨composeArtifact yaml { source with imageTag } configFiles, configFiles⟩ := by
    rw [generatedArtifacts, findSource_withImageTag imageTag hsource]
    rfl
  unfold DeployThrows
  simp only [generates_iff, hgenerated]
  constructor
  · rintro ⟨message, hthrown⟩
    by_contra hnone
    push Not at hnone
    rw [mapM_eq_ok fun file hfile ↦ writtenFile_of_not_hasErrors henvironment (hnone file hfile)]
      at hthrown
    nomatch hthrown
  · rintro ⟨file, hfile, herrors⟩
    obtain ⟨message, hmessage⟩ := writtenFile_of_hasErrors henvironment herrors
    obtain ⟨thrown, hthrown⟩ := exists_mapM_eq_error hfile hmessage
    rw [hthrown]
    exact ⟨thrown, rfl⟩

theorem generates_of_not_hasErrors
    (h : ∀ file ∈ pickedFiles source, ¬ HasErrors state source.environmentId environment file) :
    let configFiles := (pickedFiles source).map (plainFile state source.environmentId environment)
    Generates yaml (state.withImageTag serviceDeploymentId imageTag) serviceDeploymentId
      (.ok ⟨composeArtifact yaml { source with imageTag } configFiles, configFiles⟩) := by
  rw [generates_iff, generatedArtifacts, findSource_withImageTag imageTag hsource]
  show _ = (pickedFiles source).mapM (writtenFile state source.environmentId) >>= _
  rw [mapM_eq_ok fun file hfile ↦ writtenFile_of_not_hasErrors henvironment (h file hfile)]
  rfl

theorem reportsFailure_iff : ReportsFailure yaml state serviceDeploymentId imageTag ↔
    DeployThrows yaml state serviceDeploymentId imageTag ∨
      ∃ file ∈ pickedFiles source, HasMissing state source.environmentId environment file := by
  rw [deployThrows_iff yaml imageTag hsource henvironment]
  unfold ReportsFailure
  rw [previewDryRunArtifacts_eq yaml imageTag hsource henvironment]
  simp only [Except.ok.injEq, exists_eq_left', decide_eq_true_eq, gt_iff_lt, length_pos_iff, ne_eq,
    flatMap_eq_nil_iff, messagesOf_eq_nil_iff]
  push Not
  constructor
  · rintro ⟨file, hfile, hmessages⟩
    by_cases herrors : HasErrors state source.environmentId environment file
    · exact .inl ⟨file, hfile, herrors⟩
    · exact .inr ⟨file, hfile, hmessages herrors⟩
  · rintro (⟨file, hfile, herrors⟩ | ⟨file, hfile, hmissing⟩)
    · exact ⟨file, hfile, fun h ↦ absurd herrors h⟩
    · exact ⟨file, hfile, fun _ ↦ hmissing⟩

theorem listsDeploy_of_not_reportsFailure
    (h : ¬ ReportsFailure yaml state serviceDeploymentId imageTag) :
    ListsDeploy yaml state serviceDeploymentId imageTag source := by
  rw [reportsFailure_iff yaml imageTag hsource henvironment, not_or,
    deployThrows_iff yaml imageTag hsource henvironment] at h
  have herrors : ∀ file ∈ pickedFiles source,
      ¬ HasErrors state source.environmentId environment file :=
    fun file hfile hfails ↦ h.1 ⟨file, hfile, hfails⟩
  refine ⟨environment.secrets.map (·.value), _, _, ?_,
    previewDryRunArtifacts_eq yaml imageTag hsource henvironment,
    generates_of_not_hasErrors yaml imageTag hsource henvironment herrors, ?_, fun htemplate ↦ ?_⟩
  · rw [ArtifactState.secretValues, henvironment]
    rfl
  · dsimp only
    rw [forall₂_map_left_iff, forall₂_map_right_iff, forall₂_same]
    intro file _
    refine ⟨rfl, rfl, rfl, fun hbinary ↦ ?_⟩
    have htext : file.configFile.isBinary = false := hbinary
    simp [shownFile, plainFile, htext]
  · refine congrArg (redactSecretValues · _)
      (previewCompose_eq_composeContent yaml _ _ ?_ htemplate)
    refine templateVars_map _ (fun file ↦ ?_) (fun file ↦ ?_) _
    · rfl
    · rfl

omit henvironment in
/-- Without the secrets of the environment the preview throws, and reports nothing. -/
theorem previewDryRunArtifacts_eq_error {message : String}
    (herror : state.environment source.environmentId = .error message) :
    previewDryRunArtifacts yaml state serviceDeploymentId (some imageTag) = .error message := by
  have hfound : state.findSource serviceDeploymentId = .ok source := by
    simp [ArtifactState.findSource, hsource]
  have hsecrets : state.secretValues source.environmentId = .error message := by
    rw [ArtifactState.secretValues, herror]
    rfl
  unfold previewDryRunArtifacts
  rw [hfound]
  show (state.secretValues source.environmentId >>= _) = _
  rw [hsecrets]
  rfl

omit henvironment in
theorem not_foretells_of_error {message : String}
    (herror : state.environment source.environmentId = .error message) :
    ¬ Foretells yaml state serviceDeploymentId imageTag source := by
  have hthrows := previewDryRunArtifacts_eq_error yaml imageTag hsource herror
  intro hforetells
  obtain ⟨_, report, _, _, hreport, -⟩ := hforetells.2 fun ⟨report, hreport, _⟩ ↦ by
    rw [hthrows] at hreport
    cases hreport
  rw [hthrows] at hreport
  cases hreport

theorem foretells_iff_of_ok : Foretells yaml state serviceDeploymentId imageTag source ↔
    ((∃ file ∈ pickedFiles source, HasMissing state source.environmentId environment file) →
      ∃ file ∈ pickedFiles source, HasErrors state source.environmentId environment file) := by
  unfold Foretells
  rw [and_iff_left (listsDeploy_of_not_reportsFailure yaml imageTag hsource henvironment),
    reportsFailure_iff yaml imageTag hsource henvironment, or_iff_left_iff_imp,
    deployThrows_iff yaml imageTag hsource henvironment]

end

/-- The preview foretells a deployment if and only if the secrets can be decrypted, and a picked
text file is left with a placeholder only where the template of one has errors: the deployment
writes the placeholder, which the preview reports as a failure. -/
theorem foretells_iff (state : ArtifactState) (serviceDeploymentId imageTag : String)
    (source : ArtifactSource) (hsource : state.sources serviceDeploymentId = some source) :
    Foretells yaml state serviceDeploymentId imageTag source ↔
      ∃ environment, state.environment source.environmentId = .ok environment ∧
        ((∃ file ∈ pickedFiles source, HasMissing state source.environmentId environment file) →
          ∃ file ∈ pickedFiles source, HasErrors state source.environmentId environment file) := by
  cases henvironment : state.environment source.environmentId with
  | error message =>
    refine iff_of_false (not_foretells_of_error yaml imageTag hsource henvironment) ?_
    rintro ⟨environment, hfound, -⟩
    cases hfound
  | ok environment =>
    rw [foretells_iff_of_ok yaml imageTag hsource henvironment]
    exact ⟨fun h ↦ ⟨environment, rfl, h⟩, fun ⟨_, hfound, h⟩ ↦ (Except.ok.inj hfound) ▸ h⟩

/-! ### A placeholder without a value -/

/-- An environment without vars and secrets. -/
def noEntries : Environment :=
  ⟨[], [], nodup_nil, nodup_nil, valid_nil, valid_nil⟩

def templatedSource (content : Text) : ArtifactSource where
  deploymentId := "api-web"
  containerName := "api"
  environmentId := "production"
  serviceName := "api"
  imageTag := "v1"
  imageName := "registry/api"
  composeTemplate := some "services:\n  api:\n    image: ${FULL_IMAGE}\n".toList
  files := [⟨"/etc/api.env", none, ⟨"file", "api.env", content, false, none, []⟩⟩]
  baseEnv := []
  envOverrides := []
  ports := []

/-- The deployment in an environment, with a content that has no range blocks. -/
def templatedState (content : Text) (environment : Except String Environment) : ArtifactState where
  sources id := if id = "api-web" then some (templatedSource content) else none
  renderTemplate _ content := (content, [])
  environment _ := environment

/-- A YAML library; a service with a template does not ask it. -/
def silentYaml : Yaml :=
  ⟨fun _ ↦ [], fun _ ↦ .ok .notAnObject⟩

/-- The preview reports a failure of a deployment that writes the placeholder, and it throws itself
when a secret cannot be decrypted. -/
theorem not_foretells_missingSecret :
    ¬ Foretells silentYaml (templatedState "TOKEN=${TOKEN}".toList (.ok noEntries)) "api-web" "v2"
        (templatedSource "TOKEN=${TOKEN}".toList) ∧
      ¬ Foretells silentYaml (templatedState "PORT=80".toList (.error "Unable to authenticate data"))
        "api-web" "v2" (templatedSource "PORT=80".toList) := by
  refine ⟨fun h ↦ ?_, not_foretells_of_error silentYaml "v2" rfl rfl⟩
  obtain ⟨file, hfile, -, herrors⟩ :=
    (foretells_iff_of_ok silentYaml "v2" rfl rfl).mp h ⟨_, mem_singleton_self _, rfl, by decide⟩
  exact herrors rfl

/-- A file without placeholders is rendered as the preview lists it. -/
theorem foretells_plain : Foretells silentYaml (templatedState "PORT=80".toList (.ok noEntries))
    "api-web" "v2" (templatedSource "PORT=80".toList) := by
  refine (foretells_iff silentYaml (templatedState "PORT=80".toList (.ok noEntries)) "api-web" "v2"
    (templatedSource "PORT=80".toList) rfl).mpr ⟨noEntries, rfl, ?_⟩
  rintro ⟨file, hfile, -, hmissing⟩
  rw [mem_singleton.mp hfile] at hmissing
  exact absurd rfl hmissing

end Bridgeport.Deploy
