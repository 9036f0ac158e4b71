import Bridgeport.ConfigSync.Placement
import Bridgeport.Deploy.DryRun

/-!
# The preview of a sync

`syncConfigFileToAttachedServicesDryRun` repeats the fan-out and the rendering of a sync and
compares what it would write with the host files, both redacted. Behind a sync that reaches every
target it shows no change if and only if (`showsNoChange_iff`)

* the secrets of the environment of every target can be decrypted, and
* two targets that are one file on one host are rendered to the same content, as far as the preview
  of the first shows it: what counts is the last of them.
-/

namespace Bridgeport.ConfigSync

open Foundation Secrets List
open Deploy (redactSecretValues)

/-- The entries of the LCS table: the length of a longest common subsequence of two lists of
lines. -/
def lcsLength (aLines bLines : List Text) : ℕ :=
  match aLines, bLines with
  | a :: as, b :: bs =>
    if a = b then lcsLength as bs + 1 else max (lcsLength as (b :: bs)) (lcsLength (a :: as) bs)
  | _, _ => 0
termination_by aLines.length + bLines.length

def diffOps (aLines bLines : List Text) : List (Char × Text) :=
  match aLines, bLines with
  | a :: as, b :: bs =>
    if a = b then (' ', a) :: diffOps as bs
    else if lcsLength as (b :: bs) ≥ lcsLength (a :: as) bs then ('-', a) :: diffOps as (b :: bs)
    else ('+', b) :: diffOps (a :: as) bs
  | as, [] => as.map fun line ↦ ('-', line)
  | [], bs => bs.map fun line ↦ ('+', line)
termination_by aLines.length + bLines.length

def unifiedDiff (before after : Text) (fromLabel toLabel : Text) : Text :=
  if before = after then []
  else
    let aLines := before.splitOn '\n'
    let bLines := after.splitOn '\n'
    let range := "@@ -1,".toList ++ (toString aLines.length).toList ++ " +1,".toList ++
      (toString bLines.length).toList ++ " @@".toList
    ['\n'].intercalate (["--- ".toList ++ fromLabel, "+++ ".toList ++ toLabel, range] ++
      (diffOps aLines bLines).map fun op ↦ op.1 :: op.2)

theorem unifiedDiff_eq_nil_iff (before after fromLabel toLabel : Text) :
    unifiedDiff before after fromLabel toLabel = [] ↔ before = after := by
  unfold unifiedDiff
  by_cases h : before = after
  · simp [h]
  · simp [h, List.intercalate]

/-! ### The state of the database -/

/-- What a sync and its preview read: the template stage, the vars and secrets of every environment,
or the error of a secret that cannot be decrypted, and the encodings of a text as bytes. -/
structure SyncState (Blob : Type*) where
  renderTemplate : String → Text → Text × List String
  environment : String → Except String Environment
  encodeUtf8 : Text → Blob
  decodeUtf8 : Blob → Text
  decodeBase64 : Text → Blob

def emptyEnvironment : Environment :=
  ⟨[], [], nodup_nil, nodup_nil, valid_nil, valid_nil⟩

section

variable {Blob : Type*} (state : SyncState Blob) (environmentId : String)

/-- The vars and secrets, where they can be read. -/
def SyncState.environmentOf : Environment :=
  match state.environment environmentId with
  | .ok environment => environment
  | .error _ => emptyEnvironment

def SyncState.rendering : Rendering Blob :=
  { state with environment := state.environmentOf }

def SyncState.secretValues : List Text :=
  (state.environmentOf environmentId).secrets.map (·.value)

variable (configFile : ConfigFile)

def SyncState.resolution (environmentId : String) : Resolution :=
  resolveSecretPlaceholders (state.renderTemplate environmentId) (state.environmentOf environmentId)
    (composeFragmentedContent configFile.includedFragments configFile.content configFile.language)

/-- What goes wrong on a target of a sync that reaches it: the secrets for a text cannot be
decrypted. -/
def resolveFault (server : Server) : PairFault Blob :=
  if configFile.isBinary then .none
  else
    match state.environment server.environmentId with
    | .ok _ => .none
    | .error message => .beforeWrite message

/-- All connections and writes of a sync succeed. -/
structure ReachesAll (faults : SyncFaults Blob) (configFile : ConfigFile) : Prop where
  reads : faults.readThrows = none
  client : ∀ target ∈ syncTargets configFile, faults.clientFor target.1.id = .client
  connects : ∀ target ∈ syncTargets configFile, faults.connectThrows target.1.id = none
  resolves : ∀ target ∈ syncTargets configFile,
    faults.pairFault target.2.sf.id target.2.serviceDeploymentId = resolveFault state configFile target.1

/-! ### The preview -/

structure ConfigSyncTarget where
  (serverName serviceName configFileName hostPath : String)
  diff : Text
  fileExists : Bool
  (referencingServices warnings : List String)
  error : Option String

/-- What goes wrong in a preview. -/
structure PreviewFaults where
  readThrows : Option String
  clientFor : String → ClientAnswer
  connectThrows : String → Option String
  catThrows : String → String → Option String

/-- Nothing goes wrong. -/
def PreviewFaults.none : PreviewFaults :=
  ⟨.none, fun _ ↦ .client, fun _ ↦ .none, fun _ _ ↦ .none⟩

/-- `listReferencingServiceNames`, on the attachments of the config file. -/
def listReferencingServiceNames (serverId : String) : List String :=
  let rows := configFile.services.filter fun sf ↦
    match sf.serviceDeployment with
    | some deployment => deployment.server.id = serverId
    | none => sf.serviceDeployments.any (·.server.id = serverId)
  ((rows.map (·.serviceName)).filter (· ≠ "")).eraseDups.mergeSort fun first second ↦ first ≤ second

/-- `hardError`: the reason for which a sync would refuse a target. -/
def hardError (resolution : Resolution) : Option String :=
  let templateError := "Template errors: " ++ "; ".intercalate resolution.templateErrors
  let missingError := "Missing secrets: " ++ ", ".intercalate (resolution.missing.map String.ofList)
  if resolution.templateErrors.length > 0 then
    if resolution.missing.length > 0 then some (templateError ++ "; " ++ missingError)
    else some templateError
  else if resolution.missing.length > 0 then some missingError
  else none

/-- The warnings that go with `hardError`. -/
def hardWarnings (resolution : Resolution) : List String :=
  (if resolution.templateErrors.length > 0 then
      ["Template errors: " ++ "; ".intercalate resolution.templateErrors] else []) ++
    if resolution.missing.length > 0 then
      ["Missing secrets: " ++ ", ".intercalate (resolution.missing.map String.ofList)] else []

/-- `replace(/\\n$/, '')`. -/
def dropNewline (text : Text) : Text :=
  if text.getLast? = some '\n' then text.dropLast else text

variable {Host : Type*} (hostOf : Server → Host) (faults : PreviewFaults) (hosts : Hosts Host Blob)

/-- What `cat` reads of a host file, redacted, whether it exists, and the warning of an
exception. -/
def readHostFile (server : Server) (pair : Pair) : Text × Bool × List String :=
  match faults.catThrows pair.sf.id pair.serviceDeploymentId with
  | some message => ([], false, ["Could not read host file: " ++ message])
  | none =>
    match hosts (targetFile hostOf server pair) with
    | some content =>
      (redactSecretValues (dropNewline (state.decodeUtf8 content))
        (state.secretValues server.environmentId), true, [])
    | none => ([], false, [])

def previewPair (faults : PreviewFaults) (hosts : Hosts Host Blob) (configFile : ConfigFile)
    (server : Server) (pair : Pair) : ConfigSyncTarget :=
  let target : ConfigSyncTarget :=
    { serverName := server.name
      serviceName := pair.sf.serviceName
      configFileName := configFile.name
      hostPath := pair.sf.targetPath
      diff := []
      fileExists := false
      referencingServices := listReferencingServiceNames configFile server.id
      warnings := ["Binary file — diff omitted"]
      error := none }
  if configFile.isBinary then target
  else
    let resolution := state.resolution configFile server.environmentId
    match hardError resolution with
    | some error => { target with warnings := hardWarnings resolution, error := some error }
    | none =>
      let renderedContent := redactSecretValues (trimEnd resolution.content)
        (state.secretValues server.environmentId)
      let (currentContent, fileExists, warnings) := readHostFile state hostOf faults hosts server pair
      let path := pair.sf.targetPath.toList
      { target with
        diff := unifiedDiff currentContent renderedContent ('a' :: path) ('b' :: path)
        fileExists := fileExists
        warnings := warnings }

/-- The preview of a target whose server is not reached. -/
def unreachedTarget (configFile : ConfigFile) (server : Server) (warning : String) (pair : Pair) :
    ConfigSyncTarget where
  serverName := server.name
  serviceName := pair.sf.serviceName
  configFileName := configFile.name
  hostPath := pair.sf.targetPath
  diff := []
  fileExists := false
  referencingServices := [pair.sf.serviceName]
  warnings := [warning]
  error := none

def previewGroup (faults : PreviewFaults) (hosts : Hosts Host Blob) (configFile : ConfigFile)
    (group : List Pair) : Except String (List ConfigSyncTarget) :=
  match group with
  | [] => .ok []
  | first :: _ =>
    let server := first.server
    match state.environment server.environmentId with
    | .error message => .error message
    | .ok _ =>
      match faults.clientFor server.id with
      | .throws message => .error message
      | .unavailable error =>
        let warning := (error.filter (· ≠ "")).getD "Failed to create SSH client"
        .ok (group.map (unreachedTarget configFile server warning))
      | .client =>
        match faults.connectThrows server.id with
        | some message => .ok (group.map (unreachedTarget configFile server message))
        | none => .ok (group.map (previewPair state hostOf faults hosts configFile server))

def previewGroups (faults : PreviewFaults) (hosts : Hosts Host Blob) (configFile : ConfigFile) :
    List (List Pair) → Except String (List ConfigSyncTarget)
  | [] => .ok []
  | group :: rest =>
    match previewGroup state hostOf faults hosts configFile group with
    | .error message => .error message
    | .ok targets => (previewGroups faults hosts configFile rest).map (targets ++ ·)

/-- `syncConfigFileToAttachedServicesDryRun`, on the row that its query finds. -/
def syncDryRun (configFile : Option ConfigFile) : Except String (Option (List ConfigSyncTarget)) :=
  match faults.readThrows with
  | some message => .error message
  | none =>
    match configFile with
    | none => .ok none
    | some configFile =>
      if (expandPairs configFile).length = 0 then .ok (some [])
      else (previewGroups state hostOf faults hosts configFile (serverGroups configFile)).map some

end

/-! ### What a sync that reaches every target does -/

variable {text : Text} {target : Server × Pair}

section

variable {Blob Host : Type*} {state : SyncState Blob} {hostOf : Server → Host}
  {configFile : ConfigFile} {faults : SyncFaults Blob}

/-- The secrets of the environment of a server can be decrypted. -/
def Decrypts (state : SyncState Blob) (server : Server) : Prop :=
  ∃ environment, state.environment server.environmentId = .ok environment

/-- The text that a sync writes on a server, unless it writes a binary file or refuses the
target. -/
def renderedText (state : SyncState Blob) (configFile : ConfigFile) (server : Server) : Option Text :=
  if configFile.isBinary then none
  else
    match state.environment server.environmentId with
    | .error _ => none
    | .ok _ =>
      match hardError (state.resolution configFile server.environmentId) with
      | some _ => none
      | none => some (trimEnd (state.resolution configFile server.environmentId).content)

variable {groups : List (List Pair)} (rendering : Rendering Blob)

theorem pushGroups_reached (hostOf : Server → Host)
    (hclient : ∀ target ∈ groups.flatMap groupTargets, faults.clientFor target.1.id = .client)
    (hconnects : ∀ target ∈ groups.flatMap groupTargets, faults.connectThrows target.1.id = none) :
    pushGroups rendering hostOf faults configFile groups =
      ((groups.flatMap groupTargets).map fun target ↦
        pushPair rendering hostOf faults configFile target.1 target.2, none) := by
  induction groups with
  | nil => rfl
  | cons group groups ih =>
    rw [flatMap_cons, forall_mem_append] at hclient hconnects
    rw [flatMap_cons, map_append]
    cases group with
    | nil => simpa [pushGroups, pushGroup, groupTargets] using ih hclient.2 hconnects.2
    | cons first rest =>
      have hfirst : (first.server, first) ∈ groupTargets (first :: rest) := mem_cons_self
      have hgroup : pushGroup rendering hostOf faults configFile (first :: rest) =
          .ok ((first :: rest).map (pushPair rendering hostOf faults configFile first.server)) := by
        have hfirstClient : faults.clientFor first.server.id = .client := hclient.1 _ hfirst
        have hfirstConnects : faults.connectThrows first.server.id = none := hconnects.1 _ hfirst
        simp only [pushGroup, hfirstClient, hfirstConnects]
      unfold pushGroups
      rw [hgroup, ih hclient.2 hconnects.2]
      rw [groupTargets, map_map]
      rfl

theorem syncTargets_eq_nil (h : expandPairs configFile = []) : syncTargets configFile = [] := by
  unfold syncTargets serverGroups
  rw [h]
  rfl

theorem syncConfigFile_reached (hostOf : Server → Host)
    (hreaches : ReachesAll state faults configFile) :
    syncConfigFile rendering hostOf faults (some configFile) =
      ⟨((syncTargets configFile).map fun target ↦
          pushPair rendering hostOf faults configFile target.1 target.2).filterMap (·.write),
        .outcome (outcomeOf configFile ((syncTargets configFile).map fun target ↦
          (pushPair rendering hostOf faults configFile target.1 target.2).result))⟩ := by
  unfold syncConfigFile
  rw [hreaches.reads]
  dsimp only
  split_ifs with hempty
  · have hpairs : expandPairs configFile = [] := by
      unfold expandPairs
      rw [length_eq_zero_iff.mp hempty]
      rfl
    rw [syncTargets_eq_nil hpairs]
    rfl
  · rw [pushGroups_reached rendering hostOf hreaches.client hreaches.connects]
    rw [map_map]
    rfl

theorem renderFor_rendering (htext : ¬ configFile.isBinary) (environmentId : String) :
    (renderFor state.rendering configFile environmentId).toOption =
      match hardError (state.resolution configFile environmentId) with
      | some _ => none
      | none => some (state.encodeUtf8 (trimEnd (state.resolution configFile environmentId).content)) := by
  unfold renderFor hardError
  rw [if_neg htext]
  change (if (state.resolution configFile environmentId).templateErrors.length > 0 then
      (Except.error _ : Except String Blob)
    else if (state.resolution configFile environmentId).missing.length > 0 then Except.error _
    else Except.ok _).toOption = _
  split_ifs
  · rfl
  · rfl
  · rfl
  · rfl

variable {server : Server} {pair : Pair}

theorem pushPair_text (htext : ¬ configFile.isBinary)
    (hfault : faults.pairFault pair.sf.id pair.serviceDeploymentId =
      resolveFault state configFile server) :
    (pushPair state.rendering hostOf faults configFile server pair).write =
        ((renderedText state configFile server).map fun text ↦
          (targetFile hostOf server pair, some (state.encodeUtf8 text))) ∧
      (pushPair state.rendering hostOf faults configFile server pair).result.success =
        (renderedText state configFile server).isSome := by
  unfold pushPair renderedText
  rw [hfault, resolveFault, if_neg htext, if_neg htext]
  cases state.environment server.environmentId with
  | error message => exact ⟨rfl, rfl⟩
  | ok environment =>
    have hrender : (renderFor state.rendering configFile server.environmentId).toOption =
        match hardError (state.resolution configFile server.environmentId) with
        | some _ => none
        | none => some (state.encodeUtf8
            (trimEnd (state.resolution configFile server.environmentId).content)) :=
      renderFor_rendering htext server.environmentId
    cases herror : hardError (state.resolution configFile server.environmentId) with
    | some error =>
      rw [herror] at hrender
      cases hanswer : renderFor state.rendering configFile server.environmentId with
      | error message => exact ⟨rfl, rfl⟩
      | ok content =>
        rw [hanswer] at hrender
        nomatch hrender
    | none =>
      rw [herror] at hrender
      cases hanswer : renderFor state.rendering configFile server.environmentId with
      | error message =>
        rw [hanswer] at hrender
        nomatch hrender
      | ok content =>
        rw [hanswer] at hrender
        obtain rfl := Option.some.inj hrender
        exact ⟨rfl, rfl⟩

theorem previewGroups_none (hosts : Hosts Host Blob)
    (hdecrypts : ∀ target ∈ groups.flatMap groupTargets, Decrypts state target.1) :
    previewGroups state hostOf PreviewFaults.none hosts configFile groups =
      .ok ((groups.flatMap groupTargets).map fun target ↦
        previewPair state hostOf PreviewFaults.none hosts configFile target.1 target.2) := by
  induction groups with
  | nil => rfl
  | cons group groups ih =>
    rw [flatMap_cons, forall_mem_append] at hdecrypts
    unfold previewGroups
    rw [ih hdecrypts.2, flatMap_cons, map_append]
    cases group with
    | nil => rfl
    | cons first rest =>
      have hfirst : Decrypts state first.server := hdecrypts.1 _ mem_cons_self
      obtain ⟨environment, henvironment⟩ := hfirst
      simp only [previewGroup, henvironment, groupTargets, map_map]
      rfl

variable {hosts : Hosts Host Blob}

/-- A preview that returns has read the secrets of every target. -/
theorem decrypts_of_previewGroups {previewFaults : PreviewFaults} {targets : List ConfigSyncTarget}
    (h : previewGroups state hostOf previewFaults hosts configFile groups = .ok targets) :
    ∀ target ∈ groups.flatMap groupTargets, Decrypts state target.1 := by
  induction groups generalizing targets with
  | nil => exact fun _ hmem ↦ absurd hmem not_mem_nil
  | cons group groups ih =>
    unfold previewGroups at h
    cases hgroup : previewGroup state hostOf previewFaults hosts configFile group with
    | error message =>
      rw [hgroup] at h
      nomatch h
    | ok first =>
      rw [hgroup] at h
      cases hrest : previewGroups state hostOf previewFaults hosts configFile groups with
      | error message =>
        rw [hrest] at h
        nomatch h
      | ok rest =>
        rw [flatMap_cons, forall_mem_append]
        refine ⟨?_, ih hrest⟩
        cases group with
        | nil => exact fun _ hmem ↦ absurd hmem not_mem_nil
        | cons head tail =>
          intro target htarget
          obtain ⟨pair, -, rfl⟩ := mem_map.mp htarget
          cases henvironment : state.environment head.server.environmentId with
          | ok environment => exact ⟨environment, henvironment⟩
          | error message =>
            simp only [previewGroup, henvironment] at hgroup
            nomatch hgroup

/-! ### The host files behind a sync -/

variable [DecidableEq Host]

def lastText (state : SyncState Blob) (hostOf : Server → Host) (configFile : ConfigFile)
    (file : HostFile Host) : Option Text :=
  ((syncTargets configFile).filterMap fun target ↦
    if targetFile hostOf target.1 target.2 = file then renderedText state configFile target.1
    else none).getLast?

theorem lastWrite_filterMap {ι κ ν : Type*} [DecidableEq κ] (key : ι → κ) (value : ι → Option ν)
    (file : κ) (targets : List ι) :
    lastWrite file (targets.filterMap fun target ↦ (value target).map fun text ↦
      (key target, text)) =
      (targets.filterMap fun target ↦
        if key target = file then value target else none).getLast? := by
  induction targets using List.reverseRecOn with
  | nil => rfl
  | append_singleton targets target ih =>
    cases hvalue : value target with
    | none => simpa [hvalue] using ih
    | some text =>
      by_cases hkey : key target = file
      · simp [hvalue, hkey, lastWrite_concat]
      · simp [hvalue, hkey, lastWrite_concat, ih]

theorem hosts_after_sync (hostOf : Server → Host) (htext : ¬ configFile.isBinary)
    (hreaches : ReachesAll state faults configFile)
    (hosts : Hosts Host Blob) (file : HostFile Host) :
    applyWrites (syncConfigFile state.rendering hostOf faults (some configFile)).writes hosts file =
      match lastText state hostOf configFile file with
      | some text => some (state.encodeUtf8 text)
      | none => hosts file := by
  rw [syncConfigFile_reached state.rendering hostOf hreaches, applyWrites_apply, filterMap_map]
  have hwrites : (syncTargets configFile).filterMap (TargetReport.write ∘ fun target ↦
      pushPair state.rendering hostOf faults configFile target.1 target.2) =
      (syncTargets configFile).filterMap fun target ↦
        ((renderedText state configFile target.1).map fun text ↦ some (state.encodeUtf8 text)).map
          fun content ↦ (targetFile hostOf target.1 target.2, content) := by
    refine filterMap_congr fun target htarget ↦ ?_
    rw [Option.map_map]
    exact (pushPair_text htext (hreaches.resolves target htarget)).1
  have hlast : ((syncTargets configFile).filterMap fun target ↦
      if targetFile hostOf target.1 target.2 = file then
        (renderedText state configFile target.1).map fun text ↦ some (state.encodeUtf8 text)
      else none).getLast? =
      (lastText state hostOf configFile file).map fun text ↦ some (state.encodeUtf8 text) := by
    rw [lastText, ← List.getLast?_map, map_filterMap]
    refine congrArg List.getLast? (filterMap_congr fun target _ ↦ ?_)
    split_ifs
    · rfl
    · rfl
  rw [hwrites, lastWrite_filterMap
    (fun target : Server × Pair ↦ targetFile hostOf target.1 target.2),
    hlast]
  cases lastText state hostOf configFile file with
  | some _ | none => rfl

theorem exists_lastText (hostOf : Server → Host) (htarget : target ∈ syncTargets configFile)
    (hrendered : renderedText state configFile target.1 = some text) :
    ∃ last, lastText state hostOf configFile (targetFile hostOf target.1 target.2) = some last := by
  have hmem : text ∈ (syncTargets configFile).filterMap fun other ↦
      if targetFile hostOf other.1 other.2 = targetFile hostOf target.1 target.2 then
        renderedText state configFile other.1 else none :=
    mem_filterMap.mpr ⟨target, htarget, by rw [if_pos rfl, hrendered]⟩
  exact ⟨_, List.getLast?_eq_some_getLast (ne_nil_of_mem hmem)⟩

theorem dropNewline_of_renderedText (h : renderedText state configFile server = some text) :
    dropNewline text = text := by
  unfold renderedText at h
  split_ifs at h with hbinary
  cases henvironment : state.environment server.environmentId with
  | error message =>
    rw [henvironment] at h
    nomatch h
  | ok environment =>
    rw [henvironment] at h
    cases herror : hardError (state.resolution configFile server.environmentId) with
    | some error =>
      rw [herror] at h
      nomatch h
    | none =>
      rw [herror] at h
      obtain rfl := Option.some.inj h
      refine if_neg fun hlast ↦ ?_
      have hne : trimEnd (state.resolution configFile server.environmentId).content ≠ [] := by
        intro hempty
        rw [hempty] at hlast
        nomatch hlast
      rw [List.getLast?_eq_some_getLast hne] at hlast
      have hkept := rdropWhile_last_not isTrimmed
        (state.resolution configFile server.environmentId).content hne
      exact hkept (Option.some.inj hlast ▸ by decide)

/-! ### The two paths compared -/

structure Agrees (configFile : ConfigFile) (result : AutoResyncResult) (target : ConfigSyncTarget) :
    Prop where
  server : result.serverName = target.serverName
  service : result.serviceName = target.serviceName
  path : result.targetPath = target.hostPath
  error : target.error.isSome ↔ result.success = false
  unchanged : result.success → ¬ configFile.isBinary → target.fileExists ∧ target.diff = []

/-- A preview behind a sync has the targets of the sync and shows no change. -/
def ShowsNoChange (state : SyncState Blob) (hostOf : Server → Host) (faults : SyncFaults Blob)
    (hosts : Hosts Host Blob) (configFile : ConfigFile) : Prop :=
  ∃ outcome report,
    (syncConfigFile state.rendering hostOf faults (some configFile)).answer = .outcome outcome ∧
      syncDryRun state hostOf PreviewFaults.none
        (applyWrites (syncConfigFile state.rendering hostOf faults (some configFile)).writes hosts)
        (some configFile) = .ok (some report) ∧
      List.Forall₂ (Agrees configFile) outcome.results report

/-- What the last target on a host file is rendered to is what the others on it are rendered to, as
their previews show it. -/
def SharedFilesAgree (state : SyncState Blob) (hostOf : Server → Host) (configFile : ConfigFile) : Prop :=
  ∀ target ∈ syncTargets configFile, ∀ text last,
    renderedText state configFile target.1 = some text →
      lastText state hostOf configFile (targetFile hostOf target.1 target.2) = some last →
        redactSecretValues last (state.secretValues target.1.environmentId) =
          redactSecretValues text (state.secretValues target.1.environmentId)

omit [DecidableEq Host] in
theorem exists_result_pushPair (hostOf : Server → Host) (faults : SyncFaults Blob)
    (configFile : ConfigFile) (server : Server) (pair : Pair) :
    ∃ error, (pushPair rendering hostOf faults configFile server pair).result =
      resultFor server pair error := by
  unfold pushPair
  cases faults.pairFault pair.sf.id pair.serviceDeploymentId with
  | beforeWrite message => exact ⟨_, rfl⟩
  | none | write _ _ | record _ =>
    cases renderFor rendering configFile server.environmentId with
    | error _ | ok _ => exact ⟨_, rfl⟩

theorem dropNewline_of_lastText {file : HostFile Host} {last : Text}
    (h : lastText state hostOf configFile file = some last) : dropNewline last = last := by
  obtain ⟨target, -, htarget⟩ := mem_filterMap.mp (mem_of_getLast? h)
  split_ifs at htarget
  exact dropNewline_of_renderedText htarget

omit [DecidableEq Host] in
/-- The preview of a target that a sync refuses or writes as a binary file. -/
theorem previewPair_of_none (hostOf : Server → Host) (hosts : Hosts Host Blob) (pair : Pair)
    (hdecrypts : Decrypts state server) (hnone : renderedText state configFile server = none) :
    (previewPair state hostOf PreviewFaults.none hosts configFile server pair).serverName =
    server.name ∧
      (previewPair state hostOf PreviewFaults.none hosts configFile server pair).serviceName =
        pair.sf.serviceName ∧
      (previewPair state hostOf PreviewFaults.none hosts configFile server pair).hostPath =
        pair.sf.targetPath ∧
      ((previewPair state hostOf PreviewFaults.none hosts configFile server pair).error.isSome ↔
        ¬ configFile.isBinary) := by
  obtain ⟨environment, henvironment⟩ := hdecrypts
  unfold renderedText at hnone
  unfold previewPair
  by_cases hbinary : configFile.isBinary
  · rw [if_pos hbinary]
    exact ⟨rfl, rfl, rfl, by simp [hbinary]⟩
  · rw [if_neg hbinary, henvironment] at hnone
    rw [if_neg hbinary]
    dsimp only at hnone ⊢
    cases herror : hardError (state.resolution configFile server.environmentId) with
    | some error => exact ⟨rfl, rfl, rfl, by simp [hbinary]⟩
    | none =>
      rw [herror] at hnone
      nomatch hnone

omit [DecidableEq Host] in
theorem previewPair_of_some (hrendered : renderedText state configFile server = some text)
    {content : Blob} (hcontent : hosts (targetFile hostOf server pair) = some content) :
    previewPair state hostOf PreviewFaults.none hosts configFile server pair =
      { serverName := server.name
        serviceName := pair.sf.serviceName
        configFileName := configFile.name
        hostPath := pair.sf.targetPath
        diff := unifiedDiff
          (redactSecretValues (dropNewline (state.decodeUtf8 content))
            (state.secretValues server.environmentId))
          (redactSecretValues text (state.secretValues server.environmentId))
          ('a' :: pair.sf.targetPath.toList) ('b' :: pair.sf.targetPath.toList)
        fileExists := true
        referencingServices := listReferencingServiceNames configFile server.id
        warnings := []
        error := none } := by
  have hread : readHostFile state hostOf PreviewFaults.none hosts server pair =
      (redactSecretValues (dropNewline (state.decodeUtf8 content))
        (state.secretValues server.environmentId), true, []) := by
    unfold readHostFile PreviewFaults.none
    rw [hcontent]
  unfold renderedText at hrendered
  unfold previewPair
  split_ifs at hrendered ⊢ with hbinary
  cases henvironment : state.environment server.environmentId with
  | error message =>
    rw [henvironment] at hrendered
    nomatch hrendered
  | ok environment =>
    rw [henvironment] at hrendered
    dsimp only at hrendered ⊢
    cases herror : hardError (state.resolution configFile server.environmentId) with
    | some error =>
      rw [herror] at hrendered
      nomatch hrendered
    | none =>
      rw [herror] at hrendered
      obtain rfl := Option.some.inj hrendered
      rw [hread]

omit [DecidableEq Host] in
theorem agrees_of_renderedText_none (hreaches : ReachesAll state faults configFile)
    (hosts : Hosts Host Blob) (htarget : target ∈ syncTargets configFile)
    (hdecrypts : Decrypts state target.1)
    (hrendered : renderedText state configFile target.1 = none) :
    Agrees configFile (pushPair state.rendering hostOf faults configFile target.1 target.2).result
      (previewPair state hostOf PreviewFaults.none hosts configFile target.1 target.2) := by
  obtain ⟨error, hresult⟩ :=
    exists_result_pushPair state.rendering hostOf faults configFile target.1 target.2
  obtain ⟨hserver, hservice, hpath, herror⟩ :=
    previewPair_of_none hostOf hosts target.2 hdecrypts hrendered
  have hfault := hreaches.resolves target htarget
  have hsuccess : (pushPair state.rendering hostOf faults configFile target.1
      target.2).result.success = configFile.isBinary := by
    by_cases hbinary : configFile.isBinary
    · rw [hbinary]
      unfold pushPair
      rw [hfault, resolveFault, if_pos hbinary]
      unfold renderFor
      rw [if_pos hbinary]
      rfl
    · rw [(pushPair_text hbinary hfault).2, hrendered, Bool.eq_false_iff.mpr hbinary]
      rfl
  refine ⟨?_, ?_, ?_, ?_, fun h hbinary ↦ ?_⟩
  · rw [hresult, hserver]
    rfl
  · rw [hresult, hservice]
    rfl
  · rw [hresult, hpath]
    rfl
  · rw [herror, hsuccess, Bool.not_eq_true]
  · rw [hsuccess] at h
    exact absurd h hbinary

theorem agrees_iff (hreaches : ReachesAll state faults configFile)
    (hdecode : ∀ text, state.decodeUtf8 (state.encodeUtf8 text) = text) (hosts : Hosts Host Blob)
    (htarget : target ∈ syncTargets configFile) (hdecrypts : Decrypts state target.1) :
    Agrees configFile (pushPair state.rendering hostOf faults configFile target.1 target.2).result
        (previewPair state hostOf PreviewFaults.none
          (applyWrites (syncConfigFile state.rendering hostOf faults
            (some configFile)).writes hosts)
          configFile target.1 target.2) ↔
      ∀ text last, renderedText state configFile target.1 = some text →
        lastText state hostOf configFile (targetFile hostOf target.1 target.2) = some last →
          redactSecretValues last (state.secretValues target.1.environmentId) =
            redactSecretValues text (state.secretValues target.1.environmentId) := by
  obtain ⟨error, hresult⟩ :=
    exists_result_pushPair state.rendering hostOf faults configFile target.1 target.2
  have hfault := hreaches.resolves target htarget
  cases hrendered : renderedText state configFile target.1 with
  | none =>
    exact iff_of_true (agrees_of_renderedText_none hreaches _ htarget hdecrypts hrendered)
      fun _ _ h ↦ absurd h nofun
  | some text =>
    have htext : ¬ configFile.isBinary := by
      intro hbinary
      rw [renderedText, if_pos hbinary] at hrendered
      nomatch hrendered
    obtain ⟨last, hlast⟩ := exists_lastText hostOf htarget hrendered
    have hcontent := hosts_after_sync hostOf htext hreaches hosts
      (targetFile hostOf target.1 target.2)
    rw [hlast] at hcontent
    have hsuccess :
        (pushPair state.rendering hostOf faults configFile target.1 target.2).result.success =
          true := by
      rw [(pushPair_text htext hfault).2, hrendered]
      rfl
    rw [previewPair_of_some hrendered hcontent, hdecode, dropNewline_of_lastText hlast]
    constructor
    · intro hagrees other final hother hfinal
      obtain rfl := Option.some.inj hother
      obtain rfl := Option.some.inj (hlast.symm.trans hfinal)
      exact (unifiedDiff_eq_nil_iff _ _ _ _).mp (hagrees.unchanged hsuccess htext).2
    · intro hsame
      refine ⟨?_, ?_, ?_, ?_, fun _ _ ↦ ⟨rfl, ?_⟩⟩
      · rw [hresult]
        rfl
      · rw [hresult]
        rfl
      · rw [hresult]
        rfl
      · rw [hsuccess]
        exact ⟨nofun, nofun⟩
      · exact (unifiedDiff_eq_nil_iff _ _ _ _).mpr (hsame text last rfl hlast)

/-- A preview behind a sync that reaches every target shows no change if and only if the secrets of
every target can be decrypted and the targets on one host file agree. Assumes: UTF-8 is decoded to
what has been encoded. -/
theorem showsNoChange_iff (state : SyncState Blob) (hostOf : Server → Host) (faults : SyncFaults Blob)
    (hosts : Hosts Host Blob) (configFile : ConfigFile) (hreaches : ReachesAll state faults configFile)
    (hdecode : ∀ text, state.decodeUtf8 (state.encodeUtf8 text) = text) :
    ShowsNoChange state hostOf faults hosts configFile ↔
      (∀ target ∈ syncTargets configFile, Decrypts state target.1) ∧
        SharedFilesAgree state hostOf configFile := by
  have hresults : ∀ outcome, (syncConfigFile state.rendering hostOf faults (some configFile)).answer =
      .outcome outcome ↔ outcomeOf configFile ((syncTargets configFile).map fun target ↦
        (pushPair state.rendering hostOf faults configFile target.1 target.2).result) = outcome := by
    intro outcome
    rw [syncConfigFile_reached state.rendering hostOf hreaches]
    exact ⟨SyncAnswer.outcome.inj, congrArg SyncAnswer.outcome⟩
  -- a preview that returns has read all secrets, and its targets are those of the sync
  have hreport : ∀ report, syncDryRun state hostOf PreviewFaults.none
      (applyWrites (syncConfigFile state.rendering hostOf faults (some configFile)).writes hosts)
      (some configFile) = .ok (some report) ↔
        (∀ target ∈ syncTargets configFile, Decrypts state target.1) ∧
          (syncTargets configFile).map (fun target ↦ previewPair state hostOf PreviewFaults.none
            (applyWrites (syncConfigFile state.rendering hostOf faults (some configFile)).writes hosts)
            configFile target.1 target.2) = report := by
    intro report
    change (if (expandPairs configFile).length = 0 then _ else _) = _ ↔ _
    split_ifs with hempty
    · rw [syncTargets_eq_nil (length_eq_zero_iff.mp hempty)]
      constructor
      · intro h
        exact ⟨fun _ hmem ↦ absurd hmem not_mem_nil, Option.some.inj (Except.ok.inj h)⟩
      · rintro ⟨-, rfl⟩
        rfl
    · constructor
      · intro h
        cases hgroups : previewGroups state hostOf PreviewFaults.none
            (applyWrites (syncConfigFile state.rendering hostOf faults (some configFile)).writes hosts)
            configFile (serverGroups configFile) with
        | error message =>
          rw [hgroups] at h
          nomatch h
        | ok targets =>
          have hdecrypts := decrypts_of_previewGroups hgroups
          rw [previewGroups_none _ hdecrypts] at h
          exact ⟨hdecrypts, Option.some.inj (Except.ok.inj h)⟩
      · rintro ⟨hdecrypts, rfl⟩
        rw [previewGroups_none _ hdecrypts]
        rfl
  constructor
  · rintro ⟨outcome, report, houtcome, hpreview, hagrees⟩
    obtain ⟨hdecrypts, rfl⟩ := (hreport report).mp hpreview
    obtain rfl := (hresults outcome).mp houtcome
    refine ⟨hdecrypts, fun target htarget ↦ ?_⟩
    refine (agrees_iff hreaches hdecode hosts htarget (hdecrypts target htarget)).mp ?_
    exact forall₂_same.mp
      (forall₂_map_left_iff.mp (forall₂_map_right_iff.mp hagrees)) target htarget
  · rintro ⟨hdecrypts, hshared⟩
    refine ⟨_, _, (hresults _).mpr rfl, (hreport _).mpr ⟨hdecrypts, rfl⟩, ?_⟩
    refine forall₂_map_left_iff.mpr (forall₂_map_right_iff.mpr
      (forall₂_same.mpr fun target htarget ↦ ?_))
    exact (agrees_iff hreaches hdecode hosts htarget (hdecrypts target htarget)).mpr
      (hshared target htarget)

end

/-! ### A binary file and a text -/

def previewServer : Server :=
  ⟨"server", "web", "10.0.0.1", "host", "production"⟩

variable (isBinary : Bool)

def previewFile : ConfigFile where
  id := "file"
  name := "app"
  environmentId := "production"
  content := "cG9ydA==".toList
  isBinary := isBinary
  language := none
  includedFragments := []
  services := [⟨"attachment", "/etc/app", "service", "app", [⟨"deployment", previewServer⟩], none⟩]

def previewState (environment : Except String Environment) : SyncState Text where
  renderTemplate _ content := (content, [])
  environment _ := environment
  encodeUtf8 := id
  decodeUtf8 := id
  decodeBase64 := id

def noHosts : Hosts String Text :=
  fun _ ↦ none

theorem reachesAll_previewFile {environment : Except String Environment}
    (hresolves : isBinary = true ∨ ∃ found, environment = .ok found) :
    ReachesAll (previewState environment) SyncFaults.none (previewFile isBinary) := by
  refine ⟨rfl, fun _ _ ↦ rfl, fun _ _ ↦ rfl, fun target _ ↦ ?_⟩
  rcases hresolves with rfl | ⟨found, rfl⟩
  · rfl
  · unfold resolveFault
    split_ifs
    · rfl
    · rfl

/-- A binary file is synced although a secret cannot be decrypted, and its preview throws. -/
theorem not_showsNoChange_undecryptable :
    ReachesAll (previewState (.error "Unable to authenticate data")) SyncFaults.none (previewFile true) ∧
      ¬ ShowsNoChange (previewState (.error "Unable to authenticate data")) Server.hostname
        SyncFaults.none noHosts (previewFile true) := by
  refine ⟨reachesAll_previewFile true (Or.inl rfl), ?_⟩
  rintro ⟨outcome, report, -, hpreview, -⟩
  nomatch hpreview

theorem showsNoChange_text : ShowsNoChange (previewState (.ok emptyEnvironment)) Server.hostname
    SyncFaults.none noHosts (previewFile false) := by
  have hsyncs : ∃ pair : Pair, syncTargets (previewFile false) = [(previewServer, pair)] := ⟨_, rfl⟩
  obtain ⟨pair, htargets⟩ := hsyncs
  refine (showsNoChange_iff _ _ _ _ _ (reachesAll_previewFile false (Or.inr ⟨_, rfl⟩))
    fun _ ↦ rfl).mpr ⟨fun _ _ ↦ ⟨emptyEnvironment, rfl⟩, fun target htarget text last htext hlast ↦ ?_⟩
  rw [htargets] at htarget
  obtain rfl := mem_singleton.mp htarget
  rw [lastText, htargets, filterMap_cons_some (by rw [if_pos rfl, htext])] at hlast
  obtain rfl : text = last := Option.some.inj hlast
  rfl

end Bridgeport.ConfigSync
