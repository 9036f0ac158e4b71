import Bridgeport.FileHistory.NoVersionLost
import Bridgeport.FileSync.SyncRuns

/-!
# A file that is reported as synced

Any number of edits and syncs run at once. A file that is reported as synced has been written last,
on every deployment of every service that it is attached to, from its current content and fragments
(`syncedFilesCurrent`), as long as

* the contents of a file change only while no sync that has read it can still write or record it
  (`NotWhileSyncing`),
* a change of the contents of a file leaves the file newer than its recorded syncs, and no step
  makes a file older (`Touches`),
* a row that serves several deployments is recorded only once all of them have the current contents
  (`NotPartial`), and
* every deployment of an attached service is served by a row of the file (`Topology.Covers`).
-/

namespace Bridgeport.FileSync

open ConfigSync (FragmentInput Server ServiceFileRow composeFragmentedContent trimEnd)
open Foundation Program List Option Function OrderedMap
open Secrets (Resolution Text)

/-- The attachments and the deployments, which no request here changes. -/
structure Topology where
  attachments : List ServiceFileRow
  deployments : List Deployment
  nodup_attachments : (attachments.map (·.id)).Nodup

namespace Topology

variable (topology : Topology)

def rowsOf (configFileId : String) : List ServiceFileRow :=
  topology.attachments.filter (·.configFileId = configFileId)

/-- The row is the one whose file a sync writes to the deployment: an override row of the
deployment, or a base row when no override row of the same file is on the deployment. -/
def Serves (row : ServiceFileRow) (deployment : Deployment) : Prop :=
  deployment.serviceId = row.serviceId ∧ (row.serviceDeploymentId = some deployment.id ∨
    row.serviceDeploymentId = none ∧ ∀ other ∈ topology.rowsOf row.configFileId,
      other.serviceDeploymentId ≠ some deployment.id)

def Covers : Prop :=
  ∀ row ∈ topology.attachments, ∀ deployment ∈ topology.deployments,
    deployment.serviceId = row.serviceId →
      ∃ other ∈ topology.rowsOf row.configFileId, topology.Serves other deployment

variable {topology}

theorem mem_rowsOf {row : ServiceFileRow} {configFileId : String} :
    row ∈ topology.rowsOf configFileId ↔
      row ∈ topology.attachments ∧ row.configFileId = configFileId := by
  simp [rowsOf]

theorem eq_of_id_eq {first second : ServiceFileRow} (hfirst : first ∈ topology.attachments)
    (hsecond : second ∈ topology.attachments) (hid : first.id = second.id) : first = second :=
  inj_on_of_nodup_map topology.nodup_attachments hfirst hsecond hid

end Topology

/-- The files with their fragments, the times of the syncs by attachment, and what the file has been
written from last by deployment and file. -/
structure SyncStore where
  fileStore : FileHistory.FileStore
  fragmentIds : String → List String
  fragments : Table FragmentRow
  lastSyncedAt : String → Option ℕ
  lastWrite : String × String → Option Source

namespace SyncStore

variable (store : SyncStore)

def sourceOf (id : String) : Option Source :=
  (store.fileStore.files.find? id).map fun file ↦
    ⟨file.content, (store.fragmentIds id).filterMap fun fragmentId ↦
      (store.fragments.find? fragmentId).map (·.content)⟩

def updatedAt (id : String) : Option ℕ :=
  (store.fileStore.files.find? id).map (·.updatedAt)

/-- The file has been written last on the deployment from its current content and fragments. -/
def UpToDate (deploymentId configFileId : String) : Prop :=
  ∃ source, store.sourceOf configFileId = some source ∧
    store.lastWrite (deploymentId, configFileId) = some source

variable (topology : Topology)

def status (file : FileHistory.ConfigFileRow) : FileSyncStatus :=
  fileSyncStatus ((topology.rowsOf file.id).map fun row ↦ store.lastSyncedAt row.id) file.updatedAt

/-- The recorded rows that are not older than their file have its current contents on every
deployment that they serve. -/
def Sound : Prop :=
  ∀ row ∈ topology.attachments, ∀ updatedAt time, store.updatedAt row.configFileId = some updatedAt →
    store.lastSyncedAt row.id = some time → updatedAt ≤ time →
      ∀ deployment ∈ topology.deployments, topology.Serves row deployment →
        store.UpToDate deployment.id row.configFileId

def afterEdit (event : Event FileHistory.Answer) : SyncStore :=
  { store with
    fileStore := FileHistory.fileSemantics.after store.fileStore event
    fragmentIds := match event with
      | ⟨.updateConfigFile id _ (some fragmentIds), .ok _⟩ =>
        Function.update store.fragmentIds id fragmentIds
      | _ => store.fragmentIds }

/-- A query shows an attachment with the current contents of its file. -/
def Shows (file : AttachedFile) : Prop :=
  file.row ∈ topology.attachments ∧ store.sourceOf file.row.configFileId = some file.source

structure ShowsFiles (topology : Topology) (serviceId : String) (files : List AttachedFile) : Prop
    where
  rows : (files.map (·.row)).Perm (topology.attachments.filter (·.serviceId = serviceId))
  shows : ∀ file ∈ files, store.Shows topology file

/-- What the sync of a service reads. -/
structure ShowsService (topology : Topology) (id : String) (service : ServiceSnapshot) : Prop where
  files : store.ShowsFiles topology id service.files
  deployments : service.serviceDeployments.Perm (topology.deployments.filter (·.serviceId = id))

/-- What the sync of a server reads. -/
structure ShowsServer (topology : Topology) (id : String) (snapshot : ServerSnapshot) : Prop where
  deployments : (snapshot.serviceDeployments.map (·.deployment)).Perm
    (topology.deployments.filter (·.server.id = id))
  files : ∀ placed ∈ snapshot.serviceDeployments,
    store.ShowsFiles topology placed.deployment.serviceId placed.files

/-- What the sync of a config file reads. -/
structure ShowsTargets (topology : Topology) (id : String) (snapshot : FileSnapshot) : Prop where
  rows : (snapshot.services.map (·.row)).Perm (topology.rowsOf id)
  shows : ∀ sf ∈ snapshot.services, store.Shows topology ⟨sf.row, snapshot.configFile⟩
  deployments : ∀ sf ∈ snapshot.services, sf.serviceDeployments.Perm
    (topology.deployments.filter (·.serviceId = sf.row.serviceId))
  deployment : ∀ sf ∈ snapshot.services, sf.serviceDeployment =
    sf.row.serviceDeploymentId.bind fun deploymentId ↦
      topology.deployments.find? (·.id = deploymentId)

end SyncStore

/-- The row of a fragment after a PATCH keeps its id. -/
theorem FragmentBody.id_apply (body : FragmentBody) (row : FragmentRow) :
    Keyed.id (body.apply row) = Keyed.id row :=
  rfl

variable (topology : Topology)

/-- The files, the rows and the hosts under the calls. -/
def syncSemantics : Semantics Answer SyncStore where
  allows store event :=
    match event with
    | ⟨.edit request, answer⟩ => FileHistory.fileSemantics.allows store.fileStore ⟨request, answer⟩
    | ⟨.findFragment id, .ok found⟩ => found = store.fragments.find? id
    | ⟨.updateFragment id body, .ok row⟩ => (store.fragments.find? id).map body.apply = some row
    | ⟨.findService id, .ok (some service)⟩ => store.ShowsService topology id service
    | ⟨.findServer id, .ok (some snapshot)⟩ => store.ShowsServer topology id snapshot
    | ⟨.findFileTargets id, .ok (some snapshot)⟩ => store.ShowsTargets topology id snapshot
    | _ => True
  after store event :=
    match event with
    | ⟨.edit request, answer⟩ => store.afterEdit ⟨request, answer⟩
    | ⟨.updateFragment id body, .ok _⟩ =>
      { store with fragments := store.fragments.update id body.apply body.id_apply }
    | ⟨.writeFile _ deploymentId file _, .ok _⟩ =>
      { store with
        lastWrite := Function.update store.lastWrite (deploymentId, file.row.configFileId)
          (some file.source) }
    | ⟨.recordSync row time, .ok _⟩ =>
      { store with lastSyncedAt := Function.update store.lastSyncedAt row.id (some time) }
    | _ => store

/-! ### A sync as the others see it -/

/-- The attachments with their files that a sync has read, and the rows that it has written with
their deployments. -/
structure SyncState where
  read : List AttachedFile
  written : List (String × ServiceFileRow)

def FileSnapshot.files (snapshot : FileSnapshot) : List AttachedFile :=
  snapshot.services.map fun sf ↦ ⟨sf.row, snapshot.configFile⟩

/-- What a sync has read and written before a call. -/
def syncProtocol : Protocol Answer SyncState where
  permits state request :=
    match request with
    | .writeFile _ _ file _ => file ∈ state.read
    | .recordSync row _ => ∃ deploymentId, (deploymentId, row) ∈ state.written
    | _ => True
  advance state event :=
    match event with
    | ⟨.findService _, .ok (some service)⟩ => ⟨service.files, []⟩
    | ⟨.findServer _, .ok (some snapshot)⟩ =>
      ⟨snapshot.serviceDeployments.flatMap (·.files), []⟩
    | ⟨.findFileTargets _, .ok (some snapshot)⟩ => ⟨snapshot.files, []⟩
    | ⟨.writeFile _ deploymentId file _, .ok _⟩ =>
      { state with written := (deploymentId, file.row) :: state.written }
    | _ => state
  expects _ := True

variable (request : Call)

/-- A call that neither reads, writes nor records a file. -/
def Plain : Prop :=
  match request with
  | .findService _ | .findServer _ | .findFileTargets _ | .writeFile _ _ _ _
  | .recordSync _ _ => False
  | _ => True

variable {α β : Type} {program : Async α}

section

variable {state : SyncState}

theorem neutral_of_plain {request : Call} (h : Plain request) :
    syncProtocol.Neutral state request := by
  intro log
  cases request with
  | findService _ | findServer _ | findFileTargets _ | writeFile _ _ _ _
  | recordSync _ _ => exact h.elim
  | _ => exact ⟨trivial, fun _ ↦ rfl⟩

theorem avoids_await (h : Plain request) :
    (await request).Avoids fun request ↦ ¬ syncProtocol.Neutral state request :=
  avoids_perform (not_not.mpr (neutral_of_plain h))

theorem avoids_logAudit (action resourceId : String) :
    (logAudit action resourceId).Avoids fun request ↦ ¬ syncProtocol.Neutral state request :=
  (avoids_await (.createAuditLog action resourceId) trivial).tryCatch fun _ ↦ avoids_pure _

theorem follows_await_bind {next : Answer request → Async β}
    {post : Except String β → SyncState → Prop} (hplain : Plain request)
    (hnext : ∀ value, (next value).Follows syncProtocol post state)
    (herror : ∀ message, post (.error message) state) :
    (await request >>= next).Follows syncProtocol post state := by
  obtain ⟨hpermits, hadvance⟩ := neutral_of_plain hplain []
  refine follows_perform_bind hpermits (fun value _ ↦ ?_) fun message ↦ ?_
  · have hsame : syncProtocol.advance state ⟨request, .ok value⟩ = state := hadvance _
    rw [hsame]
    exact hnext value
  · have hsame : syncProtocol.advance state ⟨request, .error message⟩ = state := hadvance _
    rw [hsame]
    exact herror message

/-- A program after which a sync has still read the same. -/
def Keeps (state : SyncState) (program : Async α) : Prop :=
  program.Follows syncProtocol (fun _ after ↦ after.read = state.read) state

theorem keeps_of_avoids (h : program.Avoids fun request ↦ ¬ syncProtocol.Neutral state request) :
    Keeps state program :=
  follows_of_avoids h fun _ ↦ rfl

theorem keeps_pure (value : α) : Keeps state (pure value) :=
  rfl

theorem Keeps.bind {next : α → Async β} (h : Keeps state program)
    (hnext : ∀ value after, after.read = state.read → Keeps after (next value)) :
    Keeps state (program >>= next) := by
  refine follows_bind (h.mono fun result after hafter ↦ ?_)
  cases result with
  | ok value => exact (hnext value after hafter).mono fun _ _ hlater ↦ hlater.trans hafter
  | error message => exact hafter

theorem Keeps.tryCatch {handler : String → Async α} (h : Keeps state program)
    (hhandler : ∀ message after, after.read = state.read → Keeps after (handler message)) :
    Keeps state (program.tryCatch handler) := by
  refine follows_tryCatch (h.mono fun result after hafter ↦ ?_)
  cases result with
  | ok value => exact hafter
  | error message => exact (hhandler message after hafter).mono fun _ _ hlater ↦ hlater.trans hafter

end

/-! ### The targets of a sync -/

variable {deploymentId key : String} {map : OrderedMap String AttachedFile}
  {file value : AttachedFile}

theorem get_pickFile (h : (pickFile deploymentId map file).get key = some value) :
    value = file ∨ map.get key = some value := by
  have hset : (map.set file.row.configFileId file).get key = some value →
      value = file ∨ map.get key = some value := by
    intro hget
    rw [get_set] at hget
    split_ifs at hget
    · exact .inl (some.inj hget).symm
    · exact .inr hget
  unfold pickFile at h
  split_ifs at h
  · exact hset h
  · exact hset h
  · exact .inr h

variable {files : List AttachedFile}

theorem get_foldl_pickFile (h : (files.foldl (pickFile deploymentId) map).get key = some value) :
    value ∈ files ∨ map.get key = some value := by
  induction files generalizing map with
  | nil => exact .inr h
  | cons first rest ih =>
    rcases ih h with hrest | hpicked
    · exact .inl (mem_cons_of_mem _ hrest)
    · rcases get_pickFile hpicked with rfl | hold
      · exact .inl mem_cons_self
      · exact .inr hold

/-- The attachments that are picked for a deployment are among those that have been read. -/
theorem mem_of_mem_filesByConfig (h : file ∈ filesByConfig deploymentId files) : file ∈ files := by
  obtain ⟨⟨key, value⟩, hentry, rfl⟩ := mem_map.mp h
  rw [mem_entries_iff] at hentry
  rcases get_foldl_pickFile hentry with hmem | hempty
  · exact hmem
  · rw [get_empty] at hempty
    nomatch hempty

variable {target : Target}

theorem file_mem_of_mem_targetsOf {serviceName : String}
    (h : target ∈ targetsOf serviceName deploymentId files) : target.file ∈ files := by
  obtain ⟨file, hfile, rfl⟩ := mem_map.mp h
  exact mem_of_mem_filesByConfig hfile

variable {snapshot : FileSnapshot}

theorem file_mem_of_mem_expandPairs {pair : Server × Target} (h : pair ∈ expandPairs snapshot) :
    pair.2.file ∈ snapshot.files := by
  rcases mem_append.mp h with hoverride | hbase
  · obtain ⟨sf, hsf, hpair⟩ := mem_filterMap.mp hoverride
    obtain ⟨deployment, -, rfl⟩ := map_eq_some_iff.mp hpair
    exact mem_map_of_mem hsf
  · obtain ⟨sf, hsf, hpair⟩ := mem_flatMap.mp hbase
    split_ifs at hpair
    · exact absurd hpair not_mem_nil
    · obtain ⟨deployment, -, rfl⟩ := mem_map.mp hpair
      exact mem_map_of_mem hsf

theorem file_mem_of_mem_serverGroups {group : Server × List Target}
    (hgroup : group ∈ serverGroups snapshot) (h : target ∈ group.2) :
    target.file ∈ snapshot.files := by
  obtain ⟨pairs, hpairs, hgroupOf⟩ := mem_filterMap.mp hgroup
  obtain ⟨first, -, rfl⟩ := map_eq_some_iff.mp hgroupOf
  obtain ⟨pair, hpair, rfl⟩ := mem_map.mp h
  obtain ⟨entry, hentry, rfl⟩ := mem_map.mp hpairs
  have hperm := flatMap_groupBy_perm (fun pair : Server × Target ↦ pair.1.id) (expandPairs snapshot)
  exact file_mem_of_mem_expandPairs (hperm.mem_iff.mp (mem_flatMap.mpr ⟨entry, hentry, hpair⟩))

/-! ### The handlers -/

section

variable {state : SyncState} (server : Server)

theorem keeps_renderFile (configFile : IncludedFile) :
    Keeps state (renderFile server configFile) := by
  refine keeps_of_avoids (Avoids.ite (avoids_pure _) ?_)
  refine (avoids_await (.resolvePlaceholders _ _) trivial).bind fun resolution ↦ ?_
  exact Avoids.ite (avoids_pure _) (Avoids.ite (avoids_pure _) (avoids_pure _))

theorem keeps_writeTarget (content : HostContent) (hread : target.file ∈ state.read) :
    Keeps state (writeTarget server target content) := by
  refine follows_bind (follows_tryCatch (follows_perform_bind hread (fun _ _ ↦ ?_) fun _ ↦ ?_))
  · -- the write has succeeded, so its row may be recorded
    refine follows_await_bind .now trivial (fun time ↦ ?_) fun _ ↦ rfl
    exact follows_perform_bind ⟨target.deploymentId, mem_cons_self⟩ (fun _ _ ↦ rfl) fun _ ↦ rfl
  · exact rfl

theorem keeps_pushFile (hread : target.file ∈ state.read) :
    Keeps state (pushFile server target) := by
  refine Keeps.tryCatch (follows_await_bind (.makeDirectory _ _) trivial (fun _ ↦ ?_)
    fun _ ↦ rfl) fun _ _ _ ↦ keeps_pure _
  refine (keeps_renderFile server target.file.configFile).bind fun rendered after hafter ↦ ?_
  cases rendered with
  | error message => exact rfl
  | ok content =>
    rw [← hafter] at hread
    exact keeps_writeTarget server content hread

variable {targets : List Target}

theorem keeps_pushFiles (hread : ∀ target ∈ targets, target.file ∈ state.read) :
    Keeps state (pushFiles server targets) := by
  induction targets generalizing state with
  | nil => exact rfl
  | cons target rest ih =>
    have htarget := keeps_pushFile server (hread target mem_cons_self)
    refine htarget.bind fun result after hafter ↦ ?_
    refine (ih fun other hother ↦ ?_).bind fun _ _ _ ↦ keeps_pure _
    rw [hafter]
    exact hread other (mem_cons_of_mem _ hother)

theorem keeps_pushGroup (noClient : String) (server : Server)
    (hread : ∀ target ∈ targets, target.file ∈ state.read) :
    Keeps state (pushGroup noClient server targets) := by
  refine follows_await_bind (.createClient _) trivial (fun answer ↦ ?_) fun _ ↦ rfl
  cases answer with
  | unavailable error => exact rfl
  | client =>
    refine Keeps.bind (Keeps.tryCatch (follows_await_bind (.connect _) trivial
      (fun _ ↦ keeps_pushFiles server hread) fun _ ↦ rfl) fun _ _ _ ↦
        keeps_pure _) fun results after _ ↦ ?_
    exact follows_await_bind (.disconnect _) trivial (fun _ ↦ rfl) fun _ ↦ rfl

theorem keeps_pushGroups (noClient : String) {groups : List (Server × List Target)}
    (hread : ∀ group ∈ groups, ∀ target ∈ group.2, target.file ∈ state.read) :
    Keeps state (pushGroups noClient groups) := by
  induction groups generalizing state with
  | nil => exact rfl
  | cons group rest ih =>
    have hgroup := keeps_pushGroup noClient group.1 (hread group mem_cons_self)
    refine hgroup.bind fun results after hafter ↦ ?_
    refine (ih fun other hother ↦ ?_).bind fun _ _ _ ↦ keeps_pure _
    rw [hafter]
    exact hread other (mem_cons_of_mem _ hother)

theorem keeps_logAudit (action resourceId : String) : Keeps state (logAudit action resourceId) :=
  keeps_of_avoids (avoids_logAudit action resourceId)

/-- A program that follows the protocol, whatever it has read at its end. -/
def Obeys (state : SyncState) (program : Async α) : Prop :=
  program.Follows syncProtocol (fun _ _ ↦ True) state

theorem Keeps.obeys (h : Keeps state program) : Obeys state program :=
  h.mono fun _ _ _ ↦ trivial

theorem obeys_syncServiceFiles (id : String) : Obeys state (syncServiceFiles id) := by
  refine follows_perform_bind trivial (fun found _ ↦ ?_) fun _ ↦ trivial
  cases found with
  | none => exact trivial
  | some service =>
    refine Follows.ite (fun _ ↦ ?_) fun _ ↦ ?_
    · exact (Keeps.bind (keeps_logAudit _ _) fun _ _ _ ↦ keeps_pure _).obeys
    · refine (Keeps.bind (keeps_pushGroups _ fun group hgroup target htarget ↦ ?_)
        fun _ _ _ ↦ (keeps_logAudit _ _).bind fun _ _ _ ↦ keeps_pure _).obeys
      obtain ⟨deployment, -, rfl⟩ := mem_map.mp hgroup
      exact file_mem_of_mem_targetsOf htarget

theorem obeys_syncAllFiles (serverId : String) : Obeys state (syncAllFiles serverId) := by
  refine follows_perform_bind trivial (fun found _ ↦ ?_) fun _ ↦ trivial
  cases found with
  | none => exact trivial
  | some snapshot =>
    refine Follows.ite (fun _ ↦ ?_) fun _ ↦ ?_
    · exact (Keeps.bind (keeps_logAudit _ _) fun _ _ _ ↦ keeps_pure _).obeys
    · refine follows_await_bind (.createClient _) trivial (fun answer ↦ ?_) fun _ ↦ trivial
      cases answer with
      | unavailable error => exact trivial
      | client =>
        refine (Keeps.bind (Keeps.tryCatch (follows_await_bind (.connect _) trivial
          (fun _ ↦ (keeps_pushFiles snapshot.server fun target htarget ↦ ?_).bind fun _ _ _ ↦
            keeps_pure _)
          fun _ ↦ rfl) fun _ _ _ ↦ keeps_pure _) fun results after _ ↦ ?_).obeys
        · obtain ⟨placed, hplaced, hfile⟩ := mem_flatMap.mp htarget
          exact mem_flatMap.mpr ⟨placed, hplaced, file_mem_of_mem_targetsOf hfile⟩
        · refine follows_await_bind (.disconnect _) trivial (fun _ ↦ ?_) fun _ ↦ rfl
          cases results with
          | error message => exact rfl
          | ok results => exact (keeps_logAudit _ _).bind fun _ _ _ ↦ keeps_pure _

theorem obeys_syncConfigFile (id : String) : Obeys state (syncConfigFileToAttachedServices id) := by
  refine follows_perform_bind trivial (fun found _ ↦ ?_) fun _ ↦ trivial
  cases found with
  | none => exact trivial
  | some snapshot =>
    refine Follows.ite (fun _ ↦ trivial) fun _ ↦ ?_
    refine (Keeps.bind (keeps_pushGroups _ fun group hgroup target htarget ↦ ?_)
      fun _ _ _ ↦ keeps_pure _).obeys
    exact file_mem_of_mem_serverGroups hgroup htarget

variable (isUniqueConstraintError isPrismaNotFoundError : String → Bool)

theorem obeys_patchFragment (id : String) (body : FragmentBody) :
    Obeys state (patchFragment isUniqueConstraintError isPrismaNotFoundError id body) := by
  refine follows_of_avoids (Avoids.tryCatch ?_ fun message ↦
    Avoids.ite (avoids_pure _) (Avoids.ite (avoids_pure _) (avoids_throw _))) fun _ ↦ trivial
  refine (avoids_await (.findFragment id) trivial).bind fun existing ↦ ?_
  cases existing with
  | none => exact avoids_pure _
  | some existing =>
    refine (avoids_await (.updateFragment id body) trivial).bind fun fragment ↦ ?_
    exact (avoids_logAudit "update" fragment.id).bind fun _ ↦ avoids_pure _

/-- A request writes what it has read, and records what it has written. -/
theorem obeys_handle (request : Request) :
    Obeys state (handle isUniqueConstraintError isPrismaNotFoundError request) := by
  cases request with
  | edit request editedById =>
    refine follows_of_avoids (Avoids.bind (avoids_lift fun call ↦ ?_) fun _ ↦ avoids_pure _)
      fun _ ↦ trivial
    exact not_not.mpr (neutral_of_plain trivial)
  | patchFragment id body =>
    exact obeys_patchFragment isUniqueConstraintError isPrismaNotFoundError id body
  | syncService id => exact obeys_syncServiceFiles id
  | syncServer id => exact obeys_syncAllFiles id
  | syncConfigFile id => exact obeys_syncConfigFile id

end

def Pushes (configFileId : String) (request : Call) : Prop :=
  match request with
  | .writeFile _ _ file _ => file.row.configFileId = configFileId
  | .recordSync row _ => row.configFileId = configFileId
  | _ => False

/-- What a sync can rely on about the files that it can still write or record. -/
structure SyncStore.Knows (store : SyncStore) (topology : Topology) (state : SyncState)
    (still : String → Prop) : Prop where
  attached : ∀ file ∈ state.read, file.row ∈ topology.attachments
  current : ∀ file ∈ state.read, still file.row.configFileId →
    store.sourceOf file.row.configFileId = some file.source
  hasRead : ∀ deploymentId row, (deploymentId, row) ∈ state.written →
    ∃ file ∈ state.read, file.row = row
  upToDate : ∀ deploymentId row, (deploymentId, row) ∈ state.written → still row.configFileId →
    store.UpToDate deploymentId row.configFileId

variable (store : SyncStore)

/-- The step changes the contents of a file only while the sync, if it has read the file, can no
longer write or record it. -/
def KeepsRead (state : SyncState) (still : String → Prop) (event : Event Answer) : Prop :=
  ∀ file ∈ state.read, still file.row.configFileId →
    ((syncSemantics topology).after store event).sourceOf file.row.configFileId =
      store.sourceOf file.row.configFileId

/-- The step leaves the contents of a file alone and does not make it older, or it leaves the file
newer than its recorded syncs. -/
def Touches (event : Event Answer) : Prop :=
  ∀ id updatedAt, ((syncSemantics topology).after store event).updatedAt id = some updatedAt →
    (((syncSemantics topology).after store event).sourceOf id = store.sourceOf id ∧
      ∃ earlier ≤ updatedAt, store.updatedAt id = some earlier) ∨
    ∀ row ∈ topology.rowsOf id, ∀ time, store.lastSyncedAt row.id = some time → time < updatedAt

/-- When the step records a row, the deployments that the row serves and that the sync has not
written have the current contents. -/
def NotPartial (state : SyncState) (event : Event Answer) : Prop :=
  ∀ row time, event.call = .recordSync row time → ∀ deployment ∈ topology.deployments,
    topology.Serves row deployment → (deployment.id, row) ∉ state.written →
      store.UpToDate deployment.id row.configFileId

variable {id : String}

section

variable {topology : Topology} {store : SyncStore} {state : SyncState} {still : String → Prop}
  {event : Event Answer}

theorem SyncStore.Knows.mono {fewer : String → Prop} (h : store.Knows topology state still)
    (himp : ∀ id, fewer id → still id) : store.Knows topology state fewer where
  attached := h.attached
  current file hfile hstill := h.current file hfile (himp _ hstill)
  hasRead := h.hasRead
  upToDate deploymentId row hwritten hstill := h.upToDate deploymentId row hwritten (himp _ hstill)

theorem lastWrite_after (event : Event Answer) (deploymentId id : String) :
    ((syncSemantics topology).after store event).lastWrite (deploymentId, id) =
        store.lastWrite (deploymentId, id) ∨
      ∃ serverId file content, event.call = .writeFile serverId deploymentId file content ∧
        file.row.configFileId = id ∧
        ((syncSemantics topology).after store event).lastWrite (deploymentId, id) =
          some file.source := by
  simp only [syncSemantics]
  split
  · exact .inl rfl
  · exact .inl rfl
  · rename_i serverId other file content answer
    dsimp only
    by_cases hkey : (deploymentId, id) = (other, file.row.configFileId)
    · obtain ⟨rfl, rfl⟩ := Prod.mk.inj hkey
      exact .inr ⟨serverId, file, content, rfl, rfl, update_self ..⟩
    · exact .inl (update_of_ne hkey ..)
  · exact .inl rfl
  · exact .inl rfl

/-- A recorded time is recorded by a step, which leaves the contents alone, or it was there. -/
theorem lastSyncedAt_after {rowId : String} {time : ℕ}
    (h : ((syncSemantics topology).after store event).lastSyncedAt rowId = some time) :
    store.lastSyncedAt rowId = some time ∨ ∃ row, row.id = rowId ∧
      event.call = .recordSync row time ∧ (∀ id,
        ((syncSemantics topology).after store event).sourceOf id = store.sourceOf id) := by
  simp only [syncSemantics] at h ⊢
  split at h
  · exact .inl h
  · exact .inl h
  · exact .inl h
  · rename_i row recorded answer
    dsimp only at h
    by_cases hkey : rowId = row.id
    · rw [hkey, update_self] at h
      obtain rfl := some.inj h
      exact .inr ⟨row, hkey.symm, rfl, fun _ ↦ rfl⟩
    · rw [update_of_ne hkey] at h
      exact .inl h
  · exact .inl h

/-- What a call writes is the content of the file as it is stored. -/
def WritesCurrent (store : SyncStore) (event : Event Answer) : Prop :=
  ∀ serverId deploymentId file content, event.call = .writeFile serverId deploymentId file content →
    store.sourceOf file.row.configFileId = some file.source

/-- A deployment that is up to date stays so while the contents of the file are left alone. -/
theorem upToDate_after (h : store.UpToDate deploymentId id)
    (hsame : ((syncSemantics topology).after store event).sourceOf id = store.sourceOf id)
    (hwrite : WritesCurrent store event) :
    ((syncSemantics topology).after store event).UpToDate deploymentId id := by
  obtain ⟨source, hsource, hlast⟩ := h
  refine ⟨source, hsame.trans hsource, ?_⟩
  rcases lastWrite_after event deploymentId id with hold |
    ⟨serverId, file, content, hcall, hid, hnew⟩
  · exact hold.trans hlast
  · have hcurrent := hwrite serverId deploymentId file content hcall
    rw [hid, hsource] at hcurrent
    exact hnew.trans hcurrent.symm

theorem knows_after (h : store.Knows topology state still)
    (hkeeps : KeepsRead topology store state still event)
    (hwrite : WritesCurrent store event) :
    ((syncSemantics topology).after store event).Knows topology state still where
  attached := h.attached
  current file hfile hstill := (hkeeps file hfile hstill).trans (h.current file hfile hstill)
  hasRead := h.hasRead
  upToDate deploymentId row hwritten hstill := by
    obtain ⟨file, hfile, rfl⟩ := h.hasRead deploymentId row hwritten
    exact upToDate_after (h.upToDate deploymentId file.row hwritten hstill)
      (hkeeps file hfile hstill) hwrite

theorem knows_of_shows (h : ∀ file ∈ files, store.Shows topology file) :
    store.Knows topology ⟨files, []⟩ still where
  attached file hfile := (h file hfile).1
  current file hfile _ := (h file hfile).2
  hasRead _ _ hwritten := absurd hwritten not_mem_nil
  upToDate _ _ hwritten := absurd hwritten not_mem_nil

/-- What a sync knows after its own step, from what it would know after a step of another one. -/
theorem knows_advance (hbefore : store.Knows topology state still)
    (h : ((syncSemantics topology).after store event).Knows topology state still)
    (hpermits : syncProtocol.permits state event.call)
    (hallows : (syncSemantics topology).allows store event)
    (hstill : ∀ id, Pushes id event.call → still id) :
    ((syncSemantics topology).after store event).Knows topology (syncProtocol.advance state event)
      still := by
  simp only [syncProtocol]
  split
  · rename_i id service
    exact knows_of_shows (SyncStore.ShowsService.files hallows).shows
  · rename_i id snapshot
    refine knows_of_shows fun file hfile ↦ ?_
    obtain ⟨placed, hplaced, hmem⟩ := mem_flatMap.mp hfile
    exact (SyncStore.ShowsServer.files hallows placed hplaced).shows file hmem
  · rename_i id snapshot
    refine knows_of_shows fun file hfile ↦ ?_
    obtain ⟨sf, hsf, rfl⟩ := mem_map.mp hfile
    exact SyncStore.ShowsTargets.shows hallows sf hsf
  · rename_i serverId deploymentId file content answer
    have hread : file ∈ state.read := hpermits
    have hcurrent := hbefore.current file hread (hstill _ rfl)
    refine ⟨h.attached, h.current, fun other row hwritten ↦ ?_, fun other row hwritten hrow ↦ ?_⟩
    · rcases mem_cons.mp hwritten with hnew | hold
      · exact ⟨file, hread, (Prod.mk.inj hnew).2.symm⟩
      · exact h.hasRead other row hold
    · rcases mem_cons.mp hwritten with hnew | hold
      · obtain ⟨rfl, rfl⟩ := Prod.mk.inj hnew
        exact ⟨file.source, hcurrent, update_self ..⟩
      · exact h.upToDate other row hold hrow
  · exact h

section

variable (h : store.Knows topology state still) (hpermits : syncProtocol.permits state event.call)
  (hstill : ∀ id, Pushes id event.call → still id)
include h hpermits hstill

theorem sourceOf_of_writeFile {serverId : String} {content : HostContent}
    (hcall : event.call = .writeFile serverId deploymentId file content) :
    store.sourceOf file.row.configFileId = some file.source := by
  rw [hcall] at hpermits hstill
  exact h.current file hpermits (hstill _ rfl)

theorem upToDate_of_recordSync (hrest : NotPartial topology store state event)
    {row : ServiceFileRow} {time : ℕ} (hcall : event.call = .recordSync row time) :
    row ∈ topology.attachments ∧ ∀ deployment ∈ topology.deployments,
      topology.Serves row deployment → store.UpToDate deployment.id row.configFileId := by
  have hrow := hrest row time hcall
  rw [hcall] at hpermits hstill
  obtain ⟨deploymentId, hwritten⟩ := hpermits
  obtain ⟨file, hfile, rfl⟩ := h.hasRead deploymentId row hwritten
  refine ⟨h.attached file hfile, fun deployment hdeployment hserves ↦ ?_⟩
  by_cases hmem : (deployment.id, file.row) ∈ state.written
  · exact h.upToDate deployment.id file.row hmem (hstill _ rfl)
  · exact hrow deployment hdeployment hserves hmem

end

theorem sound_after (h : store.Sound topology) (htouches : Touches topology store event)
    (hwrite : WritesCurrent store event)
    (hrecord : ∀ row time, event.call = .recordSync row time → row ∈ topology.attachments ∧
      ∀ deployment ∈ topology.deployments, topology.Serves row deployment →
        store.UpToDate deployment.id row.configFileId) :
    ((syncSemantics topology).after store event).Sound topology := by
  intro row hrow updatedAt time hupdatedAt hsynced htime deployment hdeployment hserves
  rcases lastSyncedAt_after hsynced with hold | ⟨other, hid, hcall, hsame⟩
  · rcases htouches row.configFileId updatedAt hupdatedAt with
      ⟨hsame, earlier, hle, hearlier⟩ | hpast
    · have hbefore := h row hrow earlier time hearlier hold (hle.trans htime) deployment hdeployment
        hserves
      exact upToDate_after hbefore hsame hwrite
    · have hlt := hpast row (Topology.mem_rowsOf.mpr ⟨hrow, rfl⟩) time hold
      exact absurd htime (not_le.mpr hlt)
  · obtain ⟨hother, hcurrent⟩ := hrecord other time hcall
    obtain rfl := Topology.eq_of_id_eq hother hrow hid
    exact upToDate_after (hcurrent deployment hdeployment hserves) (hsame _) hwrite

end

/-- A file is reported as synced when every attachment has a time that is not older than the
file. -/
theorem le_of_fileSyncStatus {lastSyncedAts : List (Option ℕ)} {updatedAt : ℕ}
    (h : fileSyncStatus lastSyncedAts updatedAt = .synced) {lastSyncedAt : Option ℕ}
    (hmem : lastSyncedAt ∈ lastSyncedAts) : ∃ time, lastSyncedAt = some time ∧
    updatedAt ≤ time := by
  unfold fileSyncStatus at h
  dsimp only at h
  split_ifs at h with _ _ hpending
  rw [not_or, not_lt, not_lt, Nat.le_zero, Nat.le_zero, countP_eq_zero, countP_eq_zero]
    at hpending
  cases lastSyncedAt with
  | none => exact absurd rfl (hpending.2 none hmem)
  | some time =>
    refine ⟨time, rfl, ?_⟩
    have hlater := hpending.1 (some time) hmem
    simpa using hlater

/-- Every file that is reported as synced has been written last from its current content and
fragments, on every deployment of every service that it is attached to. -/
def SyncStore.SyncedFilesCurrent (topology : Topology) : Prop :=
  ∀ file ∈ store.fileStore.files.rows, store.status topology file = .synced →
    ∀ row ∈ topology.rowsOf file.id, ∀ deployment ∈ topology.deployments,
      deployment.serviceId = row.serviceId → store.UpToDate deployment.id file.id

variable {store : SyncStore}

theorem SyncStore.Sound.filesCurrent {topology : Topology} (h : store.Sound topology)
    (hcovers : topology.Covers) : store.SyncedFilesCurrent topology := by
  intro file hfile hstatus row hrow deployment hdeployment hservice
  obtain ⟨hattached, hid⟩ := Topology.mem_rowsOf.mp hrow
  obtain ⟨other, hother, hserves⟩ := hcovers row hattached deployment hdeployment hservice
  rw [hid] at hother
  obtain ⟨time, hsynced, hle⟩ := le_of_fileSyncStatus hstatus (mem_map_of_mem hother)
  obtain ⟨hothers, hfileId⟩ := Topology.mem_rowsOf.mp hother
  have hupdatedAt : store.updatedAt other.configFileId = some file.updatedAt := by
    have hfound : store.fileStore.files.find? file.id = some file := Table.find?_of_mem hfile
    rw [hfileId, SyncStore.updatedAt, hfound]
    rfl
  have hcurrent := h other hothers file.updatedAt time hupdatedAt hsynced hle deployment hdeployment
    hserves
  rw [hfileId] at hcurrent
  exact hcurrent

section

variable {ι : Type*} [DecidableEq ι] (isUniqueConstraintError isPrismaNotFoundError : String → Bool)
  (topology : Topology) (requests : ι → Request)

abbrev handlers (thread : ι) : Async Reply :=
  handle isUniqueConstraintError isPrismaNotFoundError (requests thread)

abbrev Runs (store : SyncStore) (log : Trail ι Answer) : Prop :=
  Concurrent (handlers isUniqueConstraintError isPrismaNotFoundError requests) (syncSemantics topology)
    store log

def storeAfter (store : SyncStore) (log : Trail ι Answer) : SyncStore :=
  (syncSemantics topology).final store (log.map Prod.snd)

variable (log : Trail ι Answer)

def syncStates : ι → SyncState :=
  syncProtocol.states (fun _ ↦ ⟨[], []⟩) log

/-- The files that a sync can still write or record. -/
def StillPushes (thread : ι) (configFileId : String) : Prop :=
  (handlers isUniqueConstraintError isPrismaNotFoundError requests thread).CanStill
    (Pushes configFileId) (projection thread log)

/-- The conditions on a step of a run. -/
structure Undisturbed (requests : ι → Request) (store : SyncStore)
    (before : Trail ι Answer) (entry : ι × Event Answer) : Prop where
  notWhileSyncing : ∀ thread, KeepsRead topology (storeAfter topology store before)
    (syncStates before thread)
    (StillPushes isUniqueConstraintError isPrismaNotFoundError requests before thread) entry.2
  touches : Touches topology (storeAfter topology store before) entry.2
  notPartial : NotPartial topology (storeAfter topology store before) (syncStates before entry.1)
    entry.2

variable {isUniqueConstraintError isPrismaNotFoundError topology} {requests : ι → Request}
  {entry : ι × Event Answer}

/-- What a sync can still push after a step, it could before. -/
theorem StillPushes.before {before : Trail ι Answer} {thread : ι}
    (h : StillPushes isUniqueConstraintError isPrismaNotFoundError requests
      (before ++ [entry]) thread
      id) :
    StillPushes isUniqueConstraintError isPrismaNotFoundError requests before thread id := by
  unfold StillPushes at h
  rw [projection_append] at h
  exact h.of_append

/-- The recorded rows, and what the syncs rely on, after a run whose steps meet the conditions. -/
theorem sound_run {log : Trail ι Answer}
    (hrun : Runs isUniqueConstraintError isPrismaNotFoundError topology requests store log)
    (hsound : store.Sound topology)
    (hcondition : EveryStep (Undisturbed isUniqueConstraintError isPrismaNotFoundError topology
      requests store) log) : (storeAfter topology store log).Sound topology ∧ ∀ thread,
      (storeAfter topology store log).Knows topology (syncStates log thread)
        (StillPushes isUniqueConstraintError isPrismaNotFoundError requests log thread) := by
  refine hrun.induction (fun log ↦ (storeAfter topology store log).Sound topology ∧ ∀ thread,
    (storeAfter topology store log).Knows topology (syncStates log thread)
      (StillPushes isUniqueConstraintError isPrismaNotFoundError requests log thread))
    ⟨hsound, fun _ ↦ knows_of_shows fun _ hfile ↦ absurd hfile not_mem_nil⟩ ?_ hcondition
  intro before entry hlonger hundisturbed ⟨hbefore, hknows⟩
  have hobeys : ∀ thread, Obeys ⟨[], []⟩
      (handlers isUniqueConstraintError isPrismaNotFoundError requests thread) :=
    fun thread ↦ obeys_handle isUniqueConstraintError isPrismaNotFoundError (requests thread)
  have hpermits := hlonger.permits_last hobeys fun _ _ ↦ trivial
  have hallows := hlonger.allows_last
  have hstill : ∀ id, Pushes id entry.2.call →
      StillPushes isUniqueConstraintError isPrismaNotFoundError requests before entry.1 id := by
    intro id hpushes
    have htraces := hlonger.traces entry.1
    rw [projection_append, ← Prod.mk.eta (p := entry), projection_singleton_self] at htraces
    exact htraces.canStill hpushes
  have hwrite : WritesCurrent (storeAfter topology store before) entry.2 :=
    fun _ _ _ _ hcall ↦ sourceOf_of_writeFile (hknows entry.1) hpermits hstill hcall
  have hothers : ∀ thread, ((syncSemantics topology).after (storeAfter topology store before)
      entry.2).Knows topology (syncStates before thread)
        (StillPushes isUniqueConstraintError isPrismaNotFoundError requests before thread) :=
    fun thread ↦ knows_after (hknows thread) (hundisturbed.notWhileSyncing thread) hwrite
  rw [storeAfter, map_append, Semantics.final_append]
  refine ⟨sound_after hbefore hundisturbed.touches hwrite fun _ _ hcall ↦
    upToDate_of_recordSync (hknows entry.1) hpermits hstill hundisturbed.notPartial hcall,
    fun thread ↦ ?_⟩
  rw [syncStates, Protocol.states_concat]
  by_cases hthread : thread = entry.1
  · subst hthread
    rw [update_self]
    exact (knows_advance (hknows entry.1) (hothers entry.1) hpermits hallows hstill).mono
      fun _ ↦ StillPushes.before
  · rw [update_of_ne hthread]
    exact (hothers thread).mono fun _ ↦ StillPushes.before

variable (isUniqueConstraintError isPrismaNotFoundError topology)

/-- A file that is reported as synced has been written last from its current content and fragments,
on every deployment of every service that it is attached to. Assumes: every deployment of an
attached service is served by a row of the file, this holds of the recorded rows at first, and every
step meets the conditions. -/
theorem syncedFilesCurrent (requests : ι → Request) (store : SyncStore) (log : Trail ι Answer)
    (hrun : Runs isUniqueConstraintError isPrismaNotFoundError topology requests store log)
    (hcovers : topology.Covers) (hsound : store.Sound topology)
    (hcondition : EveryStep (Undisturbed isUniqueConstraintError isPrismaNotFoundError topology
      requests store) log) :
    (storeAfter topology store log).SyncedFilesCurrent topology :=
  (sound_run hrun hsound hcondition).1.filesCurrent hcovers

end

/-! ### A sync and a PATCH of a fragment -/

/-- A step that changes neither files nor fragments. -/
theorem undisturbed_of_same {ι : Type*} [DecidableEq ι]
    {isUniqueConstraintError isPrismaNotFoundError : String → Bool} {topology : Topology}
    {requests : ι → Request} {before : Trail ι Answer} {entry : ι × Event Answer}
    (hsame : ((syncSemantics topology).after (storeAfter topology store before) entry.2).fileStore =
        (storeAfter topology store before).fileStore ∧
      ((syncSemantics topology).after (storeAfter topology store before) entry.2).fragmentIds =
        (storeAfter topology store before).fragmentIds ∧
      ((syncSemantics topology).after (storeAfter topology store before) entry.2).fragments =
        (storeAfter topology store before).fragments)
    (hrest : NotPartial topology (storeAfter topology store before)
      (syncStates before entry.1) entry.2) :
    Undisturbed isUniqueConstraintError isPrismaNotFoundError topology requests store before entry := by
  obtain ⟨hfiles, hids, hfragments⟩ := hsame
  have hsource : ∀ id, ((syncSemantics topology).after (storeAfter topology store before)
      entry.2).sourceOf id = (storeAfter topology store before).sourceOf id := by
    intro id
    rw [SyncStore.sourceOf, SyncStore.sourceOf, hfiles, hids, hfragments]
  refine ⟨fun _ _ _ _ ↦ hsource _, fun id updatedAt hupdatedAt ↦ .inl ⟨hsource id, updatedAt,
    le_rfl, ?_⟩, hrest⟩
  rw [SyncStore.updatedAt, hfiles] at hupdatedAt
  exact hupdatedAt

def appRow : ServiceFileRow :=
  ⟨"row", "/etc/app.conf", "web", "app", none⟩

def webDeployment : Deployment :=
  ⟨"deployment", "web", ⟨"host", "host", "10.0.0.1", "linux", "production"⟩⟩

def oneService : Topology :=
  ⟨[appRow], [webDeployment], by decide⟩

def baseFragment : FragmentRow :=
  ⟨"fragment", "base".toList, "LEVEL=info".toList⟩

def neverSynced : SyncStore where
  fileStore := ⟨⟨[⟨"app", "app.conf", "production", "PORT=80".toList, false, 1⟩], by decide⟩, .empty⟩
  fragmentIds _ := ["fragment"]
  fragments := ⟨[baseFragment], by decide⟩
  lastSyncedAt _ := none
  lastWrite _ := none

/-- The file as the sync of the service reads it. -/
def appFile : AttachedFile :=
  ⟨appRow, "app.conf", "PORT=80".toList, false, none, [⟨"base".toList, "LEVEL=info".toList⟩]⟩

def syncAndPatch : Bool → Request
  | false => .syncService "web"
  | true => .patchFragment "fragment" ⟨none, some "LEVEL=debug".toList⟩

def composed : Text :=
  composeFragmentedContent appFile.configFile.includedFragments appFile.configFile.content
    appFile.configFile.language

def syncLog : Trail Bool Answer :=
  [(false, ⟨.findService "web", .ok (some ⟨"web", [appFile], [webDeployment]⟩)⟩),
    (false, ⟨.createClient "host", .ok .client⟩), (false, ⟨.connect "host", .ok ()⟩),
    (false, ⟨.makeDirectory "host" "/etc/app.conf", .ok ()⟩),
    (false, ⟨.resolvePlaceholders "production" composed, .ok ⟨composed, [], []⟩⟩),
    (false, ⟨.writeFile "host" "deployment" appFile (.utf8 (trimEnd composed)), .ok ()⟩),
    (false, ⟨.now, .ok (2 : ℕ)⟩), (false, ⟨.recordSync appRow 2, .ok ()⟩)]

def patchLog : Trail Bool Answer :=
  [(true, ⟨.findFragment "fragment", .ok (some baseFragment)⟩),
    (true, ⟨.updateFragment "fragment" ⟨none, some "LEVEL=debug".toList⟩,
      .ok { baseFragment with content := "LEVEL=debug".toList }⟩)]

theorem runs_syncLog : Runs (fun _ ↦ false) (fun _ ↦ false) oneService syncAndPatch neverSynced
    (syncLog ++ patchLog) where
  traces thread := by
    cases thread with
    | false =>
      exact .call _ (.call _ (.call _ (.call _ (.call _ (.call _ (.call _ (.call _ (.start _))))))))
    | true => exact .call _ (.call _ (.start _))
  consistent := by
    refine ⟨⟨⟨.refl _, fun file hfile ↦ ?_⟩, .refl _⟩, trivial, trivial, trivial, trivial, trivial,
      trivial, trivial, rfl, rfl, trivial⟩
    obtain rfl := mem_singleton.mp hfile
    exact ⟨mem_singleton_self _, rfl⟩

/-- The file is still reported as synced after the PATCH of its fragment. -/
theorem not_syncedFilesCurrent_fragment :
    Runs (fun _ ↦ false) (fun _ ↦ false) oneService syncAndPatch neverSynced (syncLog ++ patchLog) ∧
      ¬ (storeAfter oneService neverSynced (syncLog ++ patchLog)).SyncedFilesCurrent oneService := by
  refine ⟨runs_syncLog, fun h ↦ ?_⟩
  obtain ⟨source, hsource, hlast⟩ := h _ (mem_singleton_self _) rfl appRow
    (mem_singleton_self _) webDeployment (mem_singleton_self _) rfl
  have hstale : some appFile.source = some source := hlast
  rw [← hsource] at hstale
  exact absurd hstale (by decide)

/-- The sync on its own. -/
theorem syncedFilesCurrent_syncLog :
    (storeAfter oneService neverSynced syncLog).SyncedFilesCurrent oneService := by
  refine syncedFilesCurrent (fun _ ↦ false) (fun _ ↦ false) oneService syncAndPatch neverSynced
    syncLog runs_syncLog.of_append ?_ (fun _ _ _ _ _ h ↦ absurd h nofun) (everyStep_of_stepsAfter ?_)
  · intro row hrow deployment hdeployment _
    obtain rfl := mem_singleton.mp hrow
    obtain rfl := mem_singleton.mp hdeployment
    refine ⟨appRow, mem_singleton_self _, rfl, .inr ⟨rfl, fun other hother ↦ ?_⟩⟩
    obtain rfl := mem_singleton.mp (Topology.mem_rowsOf.mp hother).1
    exact nofun
  · have hother : ∀ (before : Trail Bool Answer) (entry : Bool × Event Answer),
        (∀ row time, entry.2.call ≠ .recordSync row time) → NotPartial oneService
          (storeAfter oneService neverSynced before) (syncStates before entry.1) entry.2 :=
      fun _ _ hcall row time h ↦ absurd h (hcall row time)
    refine ⟨?_, ?_, ?_, ?_, ?_, ?_, ?_, undisturbed_of_same ⟨rfl, rfl, rfl⟩ ?_, trivial⟩
    iterate 7 exact undisturbed_of_same ⟨rfl, rfl, rfl⟩ (hother _ _ nofun)
    -- the only deployment of the row is the one that has been written
    intro row time hcall deployment hdeployment _ hwritten
    obtain ⟨rfl, -⟩ := Call.recordSync.inj hcall
    obtain rfl := mem_singleton.mp hdeployment
    exact absurd (mem_singleton_self _) hwritten

end Bridgeport.FileSync
