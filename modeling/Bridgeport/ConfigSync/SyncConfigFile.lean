import Bridgeport.Foundation.OrderedMap
import Bridgeport.Foundation.WriteLog
import Bridgeport.Secrets.Placeholders
import Mathlib.Data.List.DropRight

/-!
# Syncing one config file

`syncConfigFileToAttachedServices` pushes a config file to every deployment of every service it is
attached to. Everything that can go wrong on the way is chosen by a `SyncFaults`: the client of a
server, its connection, and for every target the step that fails. A write that fails may leave
anything in the file.

The function never reads a host file, so a sync is the list of its target reports, each with the
write it made, if any; the hosts after a sync are the hosts before it with these writes applied.
-/

namespace Bridgeport.ConfigSync

/-! ### Config files and their rendered contents -/

section

open Secrets

structure Server where
  (id name hostname serverType environmentId : String)

structure AttachedDeployment where
  id : String
  server : Server

/-- An attachment of a config file to a service; `serviceDeployment` is set on an override row. -/
structure ServiceFile where
  (id targetPath serviceId serviceName : String)
  serviceDeployments : List AttachedDeployment
  serviceDeployment : Option AttachedDeployment

/-- A fragment that a config file includes. -/
structure FragmentInput where
  (name content : Text)

/-- A config file row with its fragments in ascending position and its attachments. -/
structure ConfigFile where
  (id name environmentId : String)
  content : Text
  isBinary : Bool
  language : Option String
  includedFragments : List FragmentInput
  services : List ServiceFile

def languageSupportsHashHeaders (language : Option String) : Bool :=
  match language with
  | none => true
  | some language => language = "" ∨ language.toLower ∉ ["json", "xml", "html"]

def composeFragmentedContent (fragments : List FragmentInput) (ownContent : Text)
    (language : Option String) : Text :=
  if fragments.length = 0 then ownContent
  else
    let useHeaders := languageSupportsHashHeaders language
    let sections := fragments.map fun fragment ↦
      (if useHeaders then "# === fragment: ".toList ++ fragment.name ++ " ===\n".toList else []) ++
        fragment.content
    let ownHeader := if useHeaders then "# === service-specific ===\n".toList else []
    "\n\n".toList.intercalate (sections ++ [ownHeader ++ ownContent])

/-- The white space and line terminators that `trimEnd` removes. -/
def isTrimmed (character : Char) : Bool :=
  character.toNat ∈ [0x9, 0xa, 0xb, 0xc, 0xd, 0x20, 0xa0, 0x1680, 0x2028, 0x2029, 0x202f, 0x205f,
    0x3000, 0xfeff] ∨ (0x2000 ≤ character.toNat ∧ character.toNat ≤ 0x200a)

def trimEnd (text : Text) : Text :=
  text.rdropWhile isTrimmed

/-- What rendering reads outside the config file: the template stage and the entries of every
environment, and the two encodings of a text as bytes. -/
structure Rendering (Blob : Type*) where
  renderTemplate : String → Text → Text × List String
  environment : String → Environment
  (encodeUtf8 decodeBase64 : Text → Blob)

/-- The content that a sync writes on the hosts of an environment, or the error it reports. -/
def renderFor {Blob : Type*} (rendering : Rendering Blob) (configFile : ConfigFile)
    (environmentId : String) : Except String Blob :=
  if configFile.isBinary then .ok (rendering.decodeBase64 configFile.content)
  else
    let composedSource := composeFragmentedContent configFile.includedFragments configFile.content
      configFile.language
    let resolution := resolveSecretPlaceholders (rendering.renderTemplate environmentId)
      (rendering.environment environmentId) composedSource
    let resolvedContent := trimEnd resolution.content
    if resolution.templateErrors.length > 0 then
      .error ("Template errors: " ++ "; ".intercalate resolution.templateErrors)
    else if resolution.missing.length > 0 then
      .error ("Missing secrets: " ++ ", ".intercalate (resolution.missing.map String.ofList))
    else .ok (rendering.encodeUtf8 resolvedContent)

/-- A rendering without vars and secrets, on hosts that hold texts. -/
def plainRendering : Rendering Text where
  renderTemplate := fun _ content ↦ (content, [])
  environment := fun _ ↦ ⟨[], [], List.nodup_nil, List.nodup_nil, valid_nil, valid_nil⟩
  encodeUtf8 := id
  decodeBase64 := id

end

open Foundation List Option

structure AutoResyncResult where
  (serviceId serviceName serverName targetPath : String)
  success : Bool
  error : Option String

/-- `SyncStatus`. -/
inductive SyncStatus
  | ok
  | noTargets
  | partialFailure
  | failed
  deriving DecidableEq

def deriveSyncStatus (results : List AutoResyncResult) : SyncStatus :=
  if results.length = 0 then .noTargets
  else
    let succeeded := results.countP (·.success)
    if succeeded = results.length then .ok
    else if succeeded = 0 then .failed
    else .partialFailure

structure SyncOutcome where
  results : List AutoResyncResult
  success : Bool
  status : SyncStatus
  (targetsAttempted targetsSucceeded targetsFailed : ℕ)
  (configFileName environmentId : String)

/-- The answer of `createClientForServer`. -/
inductive ClientAnswer
  | client
  | unavailable (error : Option String)
  | throws (message : String)

/-- What goes wrong on one target: nothing; something before the write; the write, which leaves the
file as it was or with some content; or the update of the row after the write. -/
inductive PairFault (Blob : Type*)
  | none
  | beforeWrite (message : String)
  | write (message : String) (left : Option (Option Blob))
  | record (message : String)

/-- What goes wrong in a sync: the query, the client and the connection of every server, and every
target, by the ids of its attachment and deployment. -/
structure SyncFaults (Blob : Type*) where
  readThrows : Option String
  clientFor : String → ClientAnswer
  connectThrows : String → Option String
  pairFault : String → String → PairFault Blob

/-- Nothing goes wrong. -/
def SyncFaults.none {Blob : Type*} : SyncFaults Blob :=
  ⟨.none, fun _ ↦ .client, fun _ ↦ .none, fun _ _ ↦ .none⟩

/-- A target: an attachment and the deployment it applies to. -/
structure Pair where
  sf : ServiceFile
  serviceDeploymentId : String
  server : Server

/-- The targets of the rows of a config file: its override rows, then its base rows on every
deployment of their service that no override row covers. -/
def expandRows {Row Deployment Target : Type} (serviceDeployment : Row → Option Deployment)
    (serviceDeployments : Row → List Deployment) (id : Deployment → String)
    (target : Row → Deployment → Target) (services : List Row) : List Target :=
  let overrides := services.filterMap fun sf ↦ (serviceDeployment sf).map (target sf)
  let covered := services.filterMap fun sf ↦ (serviceDeployment sf).map id
  let bases := services.flatMap fun sf ↦
    if (serviceDeployment sf).isSome then []
    else ((serviceDeployments sf).filter fun deployment ↦ id deployment ∉ covered).map (target sf)
  overrides ++ bases

def expandPairs (configFile : ConfigFile) : List Pair :=
  expandRows ServiceFile.serviceDeployment ServiceFile.serviceDeployments AttachedDeployment.id
    (fun sf deployment ↦ ⟨sf, deployment.id, deployment.server⟩) configFile.services

def serverGroups (configFile : ConfigFile) : List (List Pair) :=
  (OrderedMap.groupBy (·.server.id) (expandPairs configFile)).entries.map Prod.snd

/-! ### The sync -/

section

variable {Blob Host : Type*} (rendering : Rendering Blob) (hostOf : Server → Host)

abbrev HostFile (Host : Type*) := Host × String

/-- The contents of all host files; a file may be missing. -/
abbrev Hosts (Host Blob : Type*) := HostFile Host → Option Blob

abbrev HostWrite (Host Blob : Type*) := HostFile Host × Option Blob

/-- The host file of a target; the client of a group is that of its first server. -/
def targetFile (server : Server) (pair : Pair) : HostFile Host :=
  (hostOf server, pair.sf.targetPath)

structure TargetReport (Host Blob : Type*) where
  result : AutoResyncResult
  write : Option (HostWrite Host Blob)

def resultFor (server : Server) (pair : Pair) (error : Option String) : AutoResyncResult where
  serviceId := pair.sf.serviceId
  serviceName := pair.sf.serviceName
  serverName := server.name
  targetPath := pair.sf.targetPath
  success := error.isNone
  error := error

def pushPair (faults : SyncFaults Blob) (configFile : ConfigFile) (server : Server) (pair : Pair) :
    TargetReport Host Blob :=
  let file := targetFile hostOf server pair
  match faults.pairFault pair.sf.id pair.serviceDeploymentId with
  | .beforeWrite message => ⟨resultFor server pair (some message), none⟩
  | fault =>
    match renderFor rendering configFile server.environmentId with
    | .error message => ⟨resultFor server pair (some message), none⟩
    | .ok content =>
      match fault with
      | .write message left =>
        let stderr := if message = "" then "Failed to write file" else message
        ⟨resultFor server pair (some stderr), left.map fun content ↦ (file, content)⟩
      | .record message => ⟨resultFor server pair (some message), some (file, some content)⟩
      | _ => ⟨resultFor server pair none, some (file, some content)⟩

def pushGroup (faults : SyncFaults Blob) (configFile : ConfigFile) (group : List Pair) :
    Except String (List (TargetReport Host Blob)) :=
  match group with
  | [] => .ok []
  | first :: _ =>
    let server := first.server
    match faults.clientFor server.id with
    | .throws message => .error message
    | .unavailable error =>
      let message := (error.filter (· ≠ "")).getD "Failed to create SSH client"
      .ok (group.map fun pair ↦ ⟨resultFor server pair (some message), none⟩)
    | .client =>
      match faults.connectThrows server.id with
      | some message => .ok (group.map fun pair ↦ ⟨resultFor server pair (some message), none⟩)
      | none => .ok (group.map (pushPair rendering hostOf faults configFile server))

/-- The loop over the groups, with the message of the exception that ended it, if any. -/
def pushGroups (faults : SyncFaults Blob) (configFile : ConfigFile) :
    List (List Pair) → List (TargetReport Host Blob) × Option String
  | [] => ([], none)
  | group :: rest =>
    match pushGroup rendering hostOf faults configFile group with
    | .error message => ([], some message)
    | .ok reports =>
      let (more, thrown) := pushGroups faults configFile rest
      (reports ++ more, thrown)

variable (configFile : ConfigFile)

def outcomeOf (results : List AutoResyncResult) : SyncOutcome :=
  let status := deriveSyncStatus results
  let targetsSucceeded := results.countP (·.success)
  { results := results
    success := status = .ok
    status := status
    targetsAttempted := results.length
    targetsSucceeded := targetsSucceeded
    targetsFailed := results.length - targetsSucceeded
    configFileName := configFile.name
    environmentId := configFile.environmentId }

/-- How a sync ends: with an exception, without the config file, or with an outcome. -/
inductive SyncAnswer
  | threw (message : String)
  | missing
  | outcome (outcome : SyncOutcome)

/-- A sync: its writes, oldest first, and how it ends. -/
structure SyncRun (Host Blob : Type*) where
  writes : List (HostWrite Host Blob)
  answer : SyncAnswer

/-- `syncConfigFileToAttachedServices`, on the row that its query finds. -/
def syncConfigFile (faults : SyncFaults Blob) (configFile : Option ConfigFile) :
    SyncRun Host Blob :=
  match faults.readThrows with
  | some message => ⟨[], .threw message⟩
  | none =>
    match configFile with
    | none => ⟨[], .missing⟩
    | some configFile =>
      if configFile.services.length = 0 then ⟨[], .outcome (outcomeOf configFile [])⟩
      else
        let (reports, thrown) :=
          pushGroups rendering hostOf faults configFile (serverGroups configFile)
        let writes := reports.filterMap (·.write)
        match thrown with
        | some message => ⟨writes, .threw message⟩
        | none => ⟨writes, .outcome (outcomeOf configFile (reports.map (·.result)))⟩

/-! ### What a sync writes -/

/-- The host files that a sync of the config file may write. -/
def targetFiles : List (HostFile Host) :=
  (serverGroups configFile).flatMap fun group ↦
    match group with
    | [] => []
    | first :: _ => group.map (targetFile hostOf first.server)

def renderedWrite (configFile : ConfigFile) (server : Server) (pair : Pair) : HostWrite Host Blob :=
  (targetFile hostOf server pair, (renderFor rendering configFile server.environmentId).toOption)

/-- The writes of a sync that reaches every target. -/
def fullPush : List (HostWrite Host Blob) :=
  (serverGroups configFile).flatMap fun group ↦
    match group with
    | [] => []
    | first :: _ => group.map (renderedWrite rendering hostOf configFile first.server)

variable {rendering hostOf} {faults : SyncFaults Blob} {configFile : ConfigFile} {server : Server}

theorem write_pushPair_of_success {pair : Pair}
    (h : (pushPair rendering hostOf faults configFile server pair).result.success = true) :
    (pushPair rendering hostOf faults configFile server pair).write =
      some (renderedWrite rendering hostOf configFile server pair) := by
  unfold pushPair at h ⊢
  unfold renderedWrite
  rcases hrender : renderFor rendering configFile server.environmentId with message | content
  · cases hfault : faults.pairFault pair.sf.id pair.serviceDeploymentId with
    | none | write _ _ | record _ => simp [hfault, hrender, resultFor] at h
    | beforeWrite message => simp [hfault, resultFor] at h
  · cases hfault : faults.pairFault pair.sf.id pair.serviceDeploymentId with
    | none => simp [Except.toOption]
    | beforeWrite message => simp [hfault, resultFor] at h
    | write _ _ | record _ => simp [hfault, hrender, resultFor] at h

variable {write : HostWrite Host Blob}

theorem fst_write_pushPair {pair : Pair}
    (h : (pushPair rendering hostOf faults configFile server pair).write = some write) :
    write.1 = targetFile hostOf server pair := by
  unfold pushPair at h
  rcases hrender : renderFor rendering configFile server.environmentId with message | content
  · cases hfault : faults.pairFault pair.sf.id pair.serviceDeploymentId with
    | none | write _ _ | record _ => simp [hfault, hrender] at h
    | beforeWrite message => simp [hfault] at h
  · cases hfault : faults.pairFault pair.sf.id pair.serviceDeploymentId with
    | none | record _ =>
      simp only [hfault, hrender, some.injEq] at h
      rw [← h]
    | beforeWrite message => simp [hfault] at h
    | write message left =>
      simp only [hfault, hrender, map_eq_some_iff] at h
      obtain ⟨content, -, hwrite⟩ := h
      rw [← hwrite]

section

variable {first : Pair} {rest : List Pair} {reports : List (TargetReport Host Blob)}
  (hpush : pushGroup rendering hostOf faults configFile (first :: rest) = .ok reports)
include hpush

theorem writes_pushGroup_of_success (hsuccess : ∀ report ∈ reports, report.result.success = true) :
    reports.filterMap (·.write) =
      (first :: rest).map (renderedWrite rendering hostOf configFile first.server) := by
  unfold pushGroup at hpush
  -- the first target of a group without a connection is reported as failed
  have hfailed : ∀ message : String, reports =
      (first :: rest).map (fun pair ↦
        ⟨resultFor first.server pair (some message), none⟩) → False := by
    intro message hreports
    have hfirst := hsuccess _ (hreports ▸ mem_map_of_mem mem_cons_self)
    nomatch hfirst
  rcases hclient : faults.clientFor first.server.id with _ | error | message
  · rcases hconnect : faults.connectThrows first.server.id with _ | message
    · simp only [hclient, hconnect, Except.ok.injEq] at hpush
      rw [← hpush] at hsuccess ⊢
      rw [filterMap_map]
      have hwrite : ∀ pair ∈ first :: rest,
          (pushPair rendering hostOf faults configFile first.server pair).write =
            some (renderedWrite rendering hostOf configFile first.server pair) :=
        fun pair hpair ↦ write_pushPair_of_success (hsuccess _ (mem_map_of_mem hpair))
      exact (filterMap_congr hwrite).trans (congrFun filterMap_eq_map' _)
    · simp only [hclient, hconnect, Except.ok.injEq] at hpush
      exact (hfailed message hpush.symm).elim
  · simp only [hclient, Except.ok.injEq] at hpush
    exact (hfailed _ hpush.symm).elim
  · simp [hclient] at hpush

theorem fst_write_pushGroup {write : HostWrite Host Blob}
    (hwrite : write ∈ reports.filterMap (·.write)) :
    write.1 ∈ (first :: rest).map (targetFile hostOf first.server) := by
  obtain ⟨report, hreport, hwrite⟩ := mem_filterMap.mp hwrite
  unfold pushGroup at hpush
  rcases hclient : faults.clientFor first.server.id with _ | error | message
  · rcases hconnect : faults.connectThrows first.server.id with _ | message
    · simp only [hclient, hconnect, Except.ok.injEq] at hpush
      rw [← hpush] at hreport
      obtain ⟨pair, hpair, rfl⟩ := mem_map.mp hreport
      rw [fst_write_pushPair hwrite]
      exact mem_map_of_mem hpair
    · simp only [hclient, hconnect, Except.ok.injEq] at hpush
      rw [← hpush] at hreport
      obtain ⟨pair, -, rfl⟩ := mem_map.mp hreport
      nomatch hwrite
  · simp only [hclient, Except.ok.injEq] at hpush
    rw [← hpush] at hreport
    obtain ⟨pair, -, rfl⟩ := mem_map.mp hreport
    nomatch hwrite
  · simp [hclient] at hpush

end

/-- The loop over the groups writes to targets only, and everything it should when all succeed. -/
theorem pushGroups_spec (rendering : Rendering Blob) (hostOf : Server → Host)
    (faults : SyncFaults Blob)
    (configFile : ConfigFile) (groups : List (List Pair)) :
    (∀ write ∈ (pushGroups rendering hostOf faults configFile groups).1.filterMap (·.write),
      write.1 ∈ groups.flatMap fun group ↦
        match group with
        | [] => []
        | first :: _ => group.map (targetFile hostOf first.server)) ∧
    ((pushGroups rendering hostOf faults configFile groups).2 = none →
      (∀ report ∈ (pushGroups rendering hostOf faults configFile groups).1,
        report.result.success = true) →
      (pushGroups rendering hostOf faults configFile groups).1.filterMap (·.write) =
        groups.flatMap fun group ↦
          match group with
          | [] => []
          | first :: _ => group.map (renderedWrite rendering hostOf configFile first.server)) := by
  induction groups with
  | nil => exact ⟨nofun, fun _ _ ↦ rfl⟩
  | cons group groups ih =>
    obtain ⟨htargets, hall⟩ := ih
    rcases hpush : pushGroup rendering hostOf faults configFile group with message | reports
    · simp only [pushGroups, hpush]
      exact ⟨nofun, nofun⟩
    · simp only [pushGroups, hpush, filterMap_append, flatMap_cons, mem_append]
      cases group with
      | nil =>
        have hreports : reports = [] := (Except.ok.inj hpush).symm
        rw [hreports]
        exact ⟨fun write hwrite ↦ .inr (htargets write (hwrite.resolve_left nofun)),
          fun hnone hsuccess ↦ hall hnone fun report hreport ↦ hsuccess report (.inr hreport)⟩
      | cons first rest =>
        refine ⟨fun write hwrite ↦ hwrite.imp (fst_write_pushGroup hpush) (htargets write),
          fun hnone hsuccess ↦ ?_⟩
        rw [writes_pushGroup_of_success hpush fun report hreport ↦ hsuccess report (.inl hreport),
          hall hnone fun report hreport ↦ hsuccess report (.inr hreport)]

theorem success_of_deriveSyncStatus_ok {results : List AutoResyncResult}
    (h : deriveSyncStatus results = .ok) : ∀ result ∈ results, result.success = true := by
  unfold deriveSyncStatus at h
  dsimp only at h
  split_ifs at h with hempty hall
  exact countP_eq_length.mp hall

theorem fst_mem_targetFiles (rendering : Rendering Blob) (faults : SyncFaults Blob)
    (configFile : ConfigFile)
    (hwrite : write ∈ (syncConfigFile rendering hostOf faults (some configFile)).writes) :
    write.1 ∈ targetFiles hostOf configFile := by
  unfold syncConfigFile at hwrite
  rcases hread : faults.readThrows with _ | message
  · simp only [hread] at hwrite
    split_ifs at hwrite with hempty
    · nomatch hwrite
    · refine (pushGroups_spec rendering hostOf faults configFile
        (serverGroups configFile)).1 write ?_
      rcases hthrown : (pushGroups rendering hostOf faults configFile
          (serverGroups configFile)).2 with _ | message
      · simpa only [hthrown] using hwrite
      · simpa only [hthrown] using hwrite
  · simp only [hread] at hwrite
    nomatch hwrite

/-- A sync that ends `ok` has written the rendered content to every target. -/
theorem writes_of_ok {outcome : SyncOutcome}
    (hanswer : (syncConfigFile rendering hostOf faults (some configFile)).answer =
      .outcome outcome) (hok : outcome.status = .ok) :
    (syncConfigFile rendering hostOf faults (some configFile)).writes =
      fullPush rendering hostOf configFile := by
  unfold syncConfigFile at hanswer ⊢
  rcases hread : faults.readThrows with _ | message
  · simp only [hread] at hanswer ⊢
    split_ifs at hanswer ⊢ with hempty
    · rw [← SyncAnswer.outcome.inj hanswer] at hok
      nomatch hok
    · rcases hthrown : (pushGroups rendering hostOf faults configFile
          (serverGroups configFile)).2 with _ | message
      · simp only [hthrown] at hanswer ⊢
        rw [← SyncAnswer.outcome.inj hanswer] at hok
        refine (pushGroups_spec rendering hostOf faults configFile
          (serverGroups configFile)).2 hthrown
          fun report hreport ↦ ?_
        exact success_of_deriveSyncStatus_ok hok _ (mem_map_of_mem hreport)
      · simp only [hthrown] at hanswer
        nomatch hanswer
  · simp only [hread] at hanswer
    nomatch hanswer

end

end Bridgeport.ConfigSync
