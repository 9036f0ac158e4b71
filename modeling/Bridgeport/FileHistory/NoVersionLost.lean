import Bridgeport.FileHistory.ContentWriters

/-!
# No version of a config file is lost

Any number of requests write the contents of config files at once. Each of them saves what it has
read before it writes (`writerProtocol`, `follows_handle`), so that what it overwrites is saved as
long as the content is still what it has read. `fileHistoryComplete` says that this is enough: when
no step changes a content that its request has not read, every content that a file has held is its
current one or in its history.
-/

namespace Bridgeport.FileHistory

open Foundation Program List Option Function
open Secrets (Text)

structure FileStore where
  files : Table ConfigFileRow
  history : Table HistoryRow

namespace FileStore

variable (store : FileStore) (id : String)

def updateFile (data : UpdateData) (updatedAt : ℕ) : FileStore :=
  { store with files := store.files.update id (data.apply updatedAt) (data.id_apply updatedAt) }

def addHistory (row : HistoryRow) : FileStore :=
  { store with history := store.history.insert row }

def InHistory (content : Text) : Prop :=
  ∃ row ∈ store.history.rows, row.configFileId = id ∧ row.content = content

def contentOf : Option Text :=
  (store.files.find? id).map (·.content)

/-- The content is the current one of the file, or in its history. -/
def Kept (content : Text) : Prop :=
  store.contentOf id = some content ∨ store.InHistory id content

end FileStore

variable {id : String} {data : UpdateData} {content : Text}

namespace FileStore

variable {store : FileStore}

@[simp]
theorem contentOf_updateFile (id : String) (data : UpdateData) (updatedAt : ℕ) (other : String) :
    (store.updateFile id data updatedAt).contentOf other =
      if id = other then (store.contentOf other).map fun old ↦ data.content.getD old
      else store.contentOf other := by
  unfold contentOf updateFile
  rw [Table.find?_update]
  by_cases h : id = other
  · simp [h, UpdateData.apply, comp_def]
  · simp [h]

@[simp]
theorem contentOf_addHistory (row : HistoryRow) (id : String) :
    (store.addHistory row).contentOf id = store.contentOf id :=
  rfl

theorem InHistory.addHistory (h : store.InHistory id content) (row : HistoryRow) :
    (store.addHistory row).InHistory id content := by
  obtain ⟨entry, hentry, hrow⟩ := h
  exact ⟨entry, Table.extends_insert store.history row hentry, hrow⟩

theorem inHistory_addHistory {row : HistoryRow} {data : HistoryData}
    (hdata : row.toHistoryData = data) (hfresh : store.history.Fresh row.id) :
    (store.addHistory row).InHistory data.configFileId data.content := by
  subst hdata
  refine ⟨row, ?_, rfl, rfl⟩
  rw [addHistory, Table.rows_insert hfresh]
  exact mem_append_right _ (mem_singleton.mpr rfl)

end FileStore

/-- What a query of the text files of an environment returns. -/
structure ShowsTextFiles (store : FileStore) (ids : List String) (environmentId : String)
    (read : List ConfigFileRow) : Prop where
  nodup : (read.map (·.id)).Nodup
  mem_iff : ∀ row, row ∈ read ↔ row ∈ store.files.rows ∧ row.id ∈ ids ∧
    row.environmentId = environmentId ∧ row.isBinary = false

/-- The files and their history under the calls. -/
def fileSemantics : Semantics Answer FileStore where
  allows store event :=
    match event with
    | ⟨.findConfigFile id, .ok found⟩ => found = store.files.find? id
    | ⟨.findTextFiles ids environmentId, .ok read⟩ => ShowsTextFiles store ids environmentId read
    | ⟨.findHistory id, .ok found⟩ => found = store.history.find? id
    | ⟨.createHistory data, .ok row⟩ => row.toHistoryData = data ∧ store.history.Fresh row.id
    | ⟨.updateConfigFile id data _, .ok row⟩ =>
      ∃ before, store.files.find? id = some before ∧ row = data.apply row.updatedAt before
    | ⟨.replaceContent id data content, .ok (entry, row)⟩ =>
      entry.toHistoryData = data ∧ store.history.Fresh entry.id ∧
        ∃ before, store.files.find? id = some before ∧
          row = (UpdateData.onlyContent content).apply row.updatedAt before
    | _ => True
  after store event :=
    match event with
    | ⟨.createHistory _, .ok row⟩ => store.addHistory row
    | ⟨.updateConfigFile id data _, .ok row⟩ => store.updateFile id data row.updatedAt
    | ⟨.replaceContent id _ content, .ok (entry, row)⟩ =>
      (store.addHistory entry).updateFile id (.onlyContent content) row.updatedAt
    | _ => store

/-! ### A writer as the others see it -/

/-- The contents that a request has read, and those that it has saved. -/
structure WriterState where
  read : String → Option Text
  saved : List (String × Text)

/-- A request that has read nothing yet. -/
def WriterState.initial : WriterState :=
  ⟨fun _ ↦ none, []⟩

/-- The content is what the request has read, which it has saved unless it writes it back. -/
def WriterState.Covers (state : WriterState) (id : String) (content : Text) : Prop :=
  ∃ old, state.read id = some old ∧ (old = content ∨ (id, old) ∈ state.saved)

/-- A writer saves the content that it has read. -/
def writerProtocol : Protocol Answer WriterState where
  permits state request :=
    match request with
    | .updateConfigFile id data _ => ∀ content, data.content = some content → state.Covers id content
    | .replaceContent id data _ => data.configFileId = id ∧ state.read id = some data.content
    | _ => True
  advance state event :=
    match event with
    | ⟨.findConfigFile id, .ok (some row)⟩ =>
      { state with read := Function.update state.read id (some row.content) }
    | ⟨.findTextFiles _ _, .ok rows⟩ =>
      { state with read := fun id ↦
          ((rows.find? (·.id = id)).map (·.content)).or (state.read id) }
    | ⟨.createHistory data, .ok _⟩ =>
      { state with saved := (data.configFileId, data.content) :: state.saved }
    | _ => state
  expects event :=
    match event with
    | ⟨.findTextFiles _ _, .ok rows⟩ => (rows.map (·.id)).Nodup
    | _ => True

/-- A call that neither reads, saves nor writes a content. -/
def Plain (request : Call) : Prop :=
  match request with
  | .findConfigFile _ | .findTextFiles _ _ | .createHistory _ | .updateConfigFile _ _ _
  | .replaceContent _ _ _ => False
  | _ => True

variable {state : WriterState}

theorem neutral_of_plain {request : Call} (h : Plain request) :
    writerProtocol.Neutral state request := by
  intro log
  cases request with
  | findConfigFile _ | findTextFiles _ _ | createHistory _ | updateConfigFile _ _ _
  | replaceContent _ _ _ => exact h.elim
  | _ => exact ⟨trivial, fun _ ↦ rfl⟩

theorem avoids_await (request : Call) (h : Plain request) :
    (await request).Avoids fun request ↦ ¬ writerProtocol.Neutral state request :=
  avoids_perform (not_not.mpr (neutral_of_plain h))

theorem avoids_logAudit (action resourceId : String) :
    (logAudit action resourceId).Avoids fun request ↦ ¬ writerProtocol.Neutral state request :=
  (avoids_await (.createAuditLog action resourceId) trivial).tryCatch fun _ ↦ avoids_pure _

variable {action : String}

theorem follows_logAudit_pure {α : Type} {resourceId : String} {value : α}
    {post : Except String α → WriterState → Prop} (hpost : ∀ result, post result state) :
    (logAudit action resourceId >>= fun _ ↦ pure value).Follows writerProtocol post state :=
  follows_of_avoids ((avoids_logAudit action resourceId).bind fun _ ↦ avoids_pure _) hpost

variable {environmentId : String}

theorem follows_rejectInvalidFragmentIds {fragmentIds : List String}
    {post : Except String (Option Reply) → WriterState → Prop} (hpost : ∀ result, post result state) :
    (rejectInvalidFragmentIds fragmentIds environmentId).Follows writerProtocol post state := by
  refine follows_of_avoids (Avoids.ite (avoids_pure _) ?_) hpost
  exact (avoids_await (.findFragmentIds fragmentIds environmentId) trivial).bind fun _ ↦
    Avoids.ite (avoids_pure _) (avoids_pure _)

def WriterState.save (state : WriterState) (id : String) (content : Text) : WriterState :=
  { state with saved := (id, content) :: state.saved }

theorem follows_saveHistory {editedById : Option String}
    {post : Except String Unit → WriterState → Prop}
    (hvalue : post (.ok ()) (state.save id content))
    (herror : ∀ message, post (.error message) state) :
    (saveHistory id content editedById).Follows writerProtocol post state :=
  follows_perform_bind trivial (fun _ _ ↦ hvalue) herror

/-- An update of the content of a file whose read content has been saved. -/
theorem covers_save {old : Text} (h : state.read id = some old) :
    (state.save id old).Covers id content :=
  ⟨old, h, .inr mem_cons_self⟩

/-! ### The handlers -/

theorem follows_caught {program : Async Reply} {handler : String → Async Reply}
    (h : program.Follows writerProtocol (fun _ _ ↦ True) state)
    (hhandler : ∀ message after, (handler message).Follows writerProtocol (fun _ _ ↦ True) after) :
    (program.tryCatch handler).Follows writerProtocol (fun _ _ ↦ True) state := by
  refine follows_tryCatch (h.mono fun result after _ ↦ ?_)
  cases result with
  | ok reply => exact trivial
  | error message => exact hhandler message after

theorem follows_updateConfigFile {fragmentIds : Option (List String)}
    {resource : ConfigFileRow → String}
    (hcovers : ∀ content, data.content = some content → state.Covers id content) :
    ((await (.updateConfigFile id data fragmentIds) >>= fun configFile ↦
      logAudit action (resource configFile) >>= fun _ ↦ pure (.configFile configFile)) :
        Async Reply).Follows writerProtocol (fun _ _ ↦ True) state :=
  follows_perform_bind hcovers (fun _ _ ↦ follows_logAudit_pure fun _ ↦ trivial) fun _ ↦ trivial

variable (isPrismaNotFoundError : String → Bool)

theorem follows_writePatch {existing : ConfigFileRow} (body : PatchBody)
    (editedById : Option String) (hread : state.read id = some existing.content) :
    (writePatch isPrismaNotFoundError existing id body editedById).Follows writerProtocol
      (fun _ _ ↦ True) state := by
  refine follows_caught (follows_bind ?_) fun message after ↦
    Follows.ite (fun _ ↦ trivial) fun _ ↦ trivial
  by_cases hchanges : body.Changes existing
  · rw [Program.when, if_pos hchanges]
    refine follows_saveHistory (follows_updateConfigFile fun content _ ↦ ?_) fun _ ↦ trivial
    exact covers_save hread
  · rw [Program.when, if_neg hchanges]
    -- without a history row, the update writes back what has been read
    refine follows_updateConfigFile fun content hcontent ↦ ⟨existing.content, hread, .inl ?_⟩
    have hsame : body.content = some existing.content := by
      by_contra hne
      exact hchanges ⟨isSome_iff_exists.mpr ⟨content, hcontent⟩, hne⟩
    exact some.inj (hsame.symm.trans hcontent)

theorem read_found (state : WriterState) (id : String) (row : ConfigFileRow) :
    (writerProtocol.advance state ⟨.findConfigFile id, .ok (some row)⟩).read id =
      some row.content := by
  simp [writerProtocol]

theorem follows_patchConfigFile (id : String) (body : PatchBody) (editedById : Option String)
    (state : WriterState) :
    (patchConfigFile isPrismaNotFoundError id body editedById).Follows writerProtocol
      (fun _ _ ↦ True) state := by
  refine follows_perform_bind trivial (fun found _ ↦ ?_) fun _ ↦ trivial
  cases found with
  | none => exact trivial
  | some existing =>
    have hwrite := follows_writePatch isPrismaNotFoundError body editedById
      (read_found state id existing)
    refine Follows.ite (fun _ ↦ trivial) fun _ ↦ Follows.ite (fun _ ↦ trivial) fun _ ↦
      Follows.ite (fun _ ↦ ?_) fun _ ↦ hwrite
    refine follows_bind (follows_rejectInvalidFragmentIds fun refused ↦ ?_)
    cases refused with
    | error message => exact trivial
    | ok refused =>
      cases refused with
      | some reply => exact trivial
      | none => exact hwrite

theorem follows_restoreConfigFile (id historyId : String) (editedById : Option String)
    (state : WriterState) :
    (restoreConfigFile id historyId editedById).Follows writerProtocol (fun _ _ ↦ True) state := by
  refine follows_perform_bind trivial (fun found _ ↦ ?_) fun _ ↦ trivial
  cases found with
  | none => exact trivial
  | some configFile =>
    refine follows_perform_bind trivial (fun entry _ ↦ ?_) fun _ ↦ trivial
    cases entry with
    | none => exact trivial
    | some historyEntry =>
      refine Follows.ite (fun _ ↦ trivial) fun _ ↦ follows_bind ?_
      refine follows_saveHistory (follows_perform_bind ?_ ?_ fun _ ↦ trivial) fun _ ↦ trivial
      · exact fun _ _ ↦ covers_save (read_found state id configFile)
      · exact fun row _ ↦ follows_logAudit_pure fun _ ↦ trivial

theorem follows_replaceAsset (id : String) (editedById : Option String) (state : WriterState) :
    (replaceAsset id editedById).Follows writerProtocol (fun _ _ ↦ True) state := by
  refine follows_perform_bind trivial (fun found _ ↦ ?_) fun _ ↦ trivial
  cases found with
  | none => exact trivial
  | some existing =>
    refine Follows.ite (fun _ ↦ trivial) fun _ ↦
      follows_perform_bind trivial (fun data _ ↦ ?_) fun _ ↦ trivial
    cases data with
    | none => exact trivial
    | some content =>
      refine follows_perform_bind ⟨rfl, read_found state id existing⟩ (fun written _ ↦ ?_)
        fun _ ↦ trivial
      exact follows_logAudit_pure fun _ ↦ trivial

theorem follows_applyToFile (value substitute : Text) (editedById : Option String)
    {file : ConfigFileRow} (hread : state.read file.id = some file.content) :
    (applyToFile value substitute editedById file).Follows writerProtocol
      (fun _ after ↦ after.read = state.read) state := by
  refine follows_tryCatch (Follows.ite (fun _ ↦ rfl) fun _ ↦ follows_bind ?_)
  refine follows_saveHistory (follows_perform_bind ?_ ?_ fun _ ↦ rfl) fun _ ↦ rfl
  · exact fun _ _ ↦ covers_save hread
  · exact fun row _ ↦ follows_logAudit_pure fun result ↦ by cases result <;> rfl

theorem follows_applyToFiles (value substitute : Text) (editedById : Option String)
    {files : List ConfigFileRow} (hread : ∀ file ∈ files, state.read file.id = some file.content) :
    (applyToFiles value substitute editedById files).Follows writerProtocol (fun _ _ ↦ True)
      state := by
  induction files generalizing state with
  | nil => exact trivial
  | cons file rest ih =>
    refine follows_bind ((follows_applyToFile value substitute editedById
      (hread file mem_cons_self)).mono fun result after hsame ↦ ?_)
    cases result with
    | error message => exact trivial
    | ok result =>
      refine follows_bind ((ih fun other hother ↦ ?_).mono fun results later _ ↦ ?_)
      · rw [hsame]
        exact hread other (mem_cons_of_mem file hother)
      · cases results with
        | ok _ | error _ => exact trivial

theorem read_textFiles (state : WriterState) {ids : List String} {rows : List ConfigFileRow}
    (hnodup : (rows.map (·.id)).Nodup) {row : ConfigFileRow} (hrow : row ∈ rows) :
    (writerProtocol.advance state
      ⟨.findTextFiles ids environmentId, .ok rows⟩).read row.id = some row.content := by
  have hfound : (⟨rows, hnodup⟩ : Table ConfigFileRow).find? row.id = some row :=
    Table.find?_of_mem hrow
  have hread : rows.find? (·.id = row.id) = some row := hfound
  show ((rows.find? (·.id = row.id)).map (·.content)).or (state.read row.id) = _
  rw [hread]
  rfl

theorem follows_secretOrVarOf {body : ApplyBody}
    {post : Except String (Except Reply String) → WriterState → Prop}
    (hpost : ∀ result, post result state) :
    (secretOrVarOf environmentId body).Follows writerProtocol post state := by
  refine follows_of_avoids ?_ hpost
  unfold secretOrVarOf
  cases body.existingSecretId.filter (· ≠ "") with
  | some existing => exact avoids_pure _
  | none =>
    refine Avoids.tryCatch ((avoids_await (.createSecretOrVar _ _ _ _) trivial).bind
      fun created ↦ ?_) fun _ ↦ avoids_pure _
    exact (avoids_logAudit "create" created).bind fun _ ↦ avoids_pure _

theorem follows_applyScan (environmentId : String) (body : ApplyBody) (editedById : Option String)
    (state : WriterState) : (applyScan environmentId body editedById).Follows writerProtocol
      (fun _ _ ↦ True) state := by
  refine follows_bind (follows_secretOrVarOf fun created ↦ ?_)
  cases created with
  | error message => exact trivial
  | ok created =>
    cases created with
    | error reply => exact trivial
    | ok secretOrVarId =>
      refine follows_perform_bind trivial (fun rows hrows ↦ ?_) fun _ ↦ trivial
      refine follows_bind ((follows_applyToFiles _ _ _ fun file hfile ↦
        read_textFiles state hrows hfile).mono fun results later _ ↦ ?_)
      cases results with
      | ok _ | error _ => exact trivial

/-- A request saves what it has read before it writes. -/
theorem follows_handle (editedById : Option String) (request : Request) (state : WriterState) :
    (handle isPrismaNotFoundError editedById request).Follows writerProtocol (fun _ _ ↦ True)
      state := by
  cases request with
  | patch id body => exact follows_patchConfigFile isPrismaNotFoundError id body editedById state
  | restore id historyId => exact follows_restoreConfigFile id historyId editedById state
  | replaceAsset id => exact follows_replaceAsset id editedById state
  | applyScan environmentId body => exact follows_applyScan environmentId body editedById state

def written (event : Event Answer) : Option (String × Text) :=
  match event with
  | ⟨.updateConfigFile id data _, .ok _⟩ => data.content.map fun content ↦ (id, content)
  | ⟨.replaceContent id _ content, .ok _⟩ => some (id, content)
  | _ => none

/-- The step changes no content that its request has not read. -/
def NotStale (store : FileStore) (state : WriterState) (event : Event Answer) : Prop :=
  ∀ id content current, written event = some (id, content) → store.contentOf id = some current →
    current = content ∨ state.read id = some current

/-- What a request has saved is in the history. -/
def SavedKept (store : FileStore) (state : WriterState) : Prop :=
  ∀ id content, (id, content) ∈ state.saved → store.InHistory id content

section

variable {store : FileStore} {state : WriterState} {event : Event Answer}

theorem contentOf_after (store : FileStore) (event : Event Answer) (id : String) :
    (fileSemantics.after store event).contentOf id = store.contentOf id ∨
      ∃ content, written event = some (id, content) ∧
        (fileSemantics.after store event).contentOf id = (store.contentOf id).map fun _ ↦
          content := by
  simp only [fileSemantics]
  split
  · exact .inl rfl
  · rename_i other data fragmentIds row
    rw [FileStore.contentOf_updateFile]
    cases hcontent : data.content with
    | none => simp
    | some content =>
      by_cases h : other = id
      · subst h
        exact .inr ⟨content, by simp [written, hcontent], by simp⟩
      · simp [h]
  · rename_i other data content entry row
    rw [FileStore.contentOf_updateFile]
    by_cases h : other = id
    · subst h
      exact .inr ⟨content, by simp [written], by simp [UpdateData.onlyContent]⟩
    · simp [h]
  · exact .inl rfl

/-- No step removes a row of the history. -/
theorem inHistory_after (h : store.InHistory id content) (event : Event Answer) :
    (fileSemantics.after store event).InHistory id content := by
  simp only [fileSemantics]
  split
  · exact h.addHistory _
  · exact h
  · exact h.addHistory _
  · exact h

theorem SavedKept.after (h : SavedKept store state) (event : Event Answer) :
    SavedKept (fileSemantics.after store event) state :=
  fun id content hsaved ↦ inHistory_after (h id content hsaved) event

theorem savedKept_advance (hallows : fileSemantics.allows store event) (h : SavedKept store state) :
    SavedKept (fileSemantics.after store event) (writerProtocol.advance state event) := by
  intro id content hsaved
  simp only [writerProtocol] at hsaved
  split at hsaved
  · exact h.after _ id content hsaved
  · exact h.after _ id content hsaved
  · rename_i data row
    rcases mem_cons.mp hsaved with hnew | hold
    · obtain ⟨rfl, rfl⟩ := Prod.mk.inj hnew
      exact FileStore.inHistory_addHistory hallows.1 hallows.2
    · exact h.after _ id content hold
  · exact h.after _ id content hsaved

/-- What a step overwrites is in the history after it, if its request has read it. -/
theorem inHistory_of_written {old : Text} (hwritten : written event = some (id, content))
    (hread : state.read id = some old) (hne : old ≠ content)
    (hpermits : writerProtocol.permits state event.call)
    (hallows : fileSemantics.allows store event) (hsaved : SavedKept store state) :
    (fileSemantics.after store event).InHistory id old := by
  unfold written at hwritten
  split at hwritten
  · rename_i other data fragmentIds row
    obtain ⟨value, hvalue, hpair⟩ := map_eq_some_iff.mp hwritten
    obtain ⟨rfl, rfl⟩ := Prod.mk.inj hpair
    obtain ⟨seen, hseen, hcases⟩ := hpermits value hvalue
    obtain rfl : seen = old := some.inj (hseen.symm.trans hread)
    exact hsaved other seen (hcases.resolve_left hne)
  · rename_i other data value answer
    obtain ⟨rfl, rfl⟩ := Prod.mk.inj (some.inj hwritten)
    obtain ⟨hfile, hseen⟩ := hpermits
    obtain ⟨entry, row⟩ := answer
    obtain ⟨hdata, hfresh, -⟩ := hallows
    obtain rfl : data.content = old := some.inj (hseen.symm.trans hread)
    rw [← hfile]
    exact FileStore.inHistory_addHistory hdata hfresh
  · nomatch hwritten

theorem kept_after (h : store.Kept id content) (hpermits : writerProtocol.permits state event.call)
    (hallows : fileSemantics.allows store event) (hsaved : SavedKept store state)
    (hcondition : NotStale store state event) :
    (fileSemantics.after store event).Kept id content := by
  rcases h with hcurrent | hhistory
  · rcases contentOf_after store event id with hsame | ⟨value, hwritten, hafter⟩
    · exact .inl (hsame.trans hcurrent)
    · by_cases hne : content = value
      · left
        rw [hafter, hcurrent, hne]
        rfl
      · have hread := (hcondition id value content hwritten hcurrent).resolve_left hne
        exact .inr (inHistory_of_written hwritten hread hne hpermits hallows hsaved)
  · exact .inr (inHistory_after hhistory event)

end

variable {event : Event Answer} {store : FileStore}

theorem expects_of_allows (hallows : fileSemantics.allows store event) :
    writerProtocol.expects event := by
  simp only [writerProtocol]
  split
  · exact hallows.nodup
  · exact trivial

section

variable {ι : Type*} [DecidableEq ι]

/-- What the requests have read and saved. -/
def writerStates (log : Trail ι Answer) : ι → WriterState :=
  writerProtocol.states (fun _ ↦ .initial) log

/-- The file has had the content at some point of the run. -/
def Held (store : FileStore) (log : Trail ι Answer) (id : String) (content : Text) :
    Prop :=
  ∃ before, before <+: log ∧
    (fileSemantics.final store (before.map Prod.snd)).contentOf id = some content

/-- Every content that a file has held is its current one or in its history. Assumes: no step of the
run changes a content that its request has not read. -/
theorem fileHistoryComplete (isPrismaNotFoundError : String → Bool) (editedBy : ι → Option String)
    (requests : ι → Request) (store : FileStore) (log : Trail ι Answer)
    (hrun : Concurrent (fun thread ↦ handle isPrismaNotFoundError (editedBy thread)
      (requests thread)) fileSemantics store log)
    (hcondition : EveryStep (fun before entry ↦
      NotStale (fileSemantics.final store (before.map Prod.snd)) (writerStates before entry.1)
        entry.2) log) (id : String) (content : Text) (hheld : Held store log id content) :
    (fileSemantics.final store (log.map Prod.snd)).Kept id content := by
  have hfollows := fun thread ↦ follows_handle isPrismaNotFoundError (editedBy thread)
    (requests thread) .initial
  have hexpects : ∀ entry ∈ log, writerProtocol.expects entry.2 :=
    hrun.expects (fun _ ↦ True) trivial fun _ _ _ hallows ↦ ⟨trivial, expects_of_allows hallows⟩
  have hinvariant := hrun.induction (fun before ↦ (∀ entry ∈ before, writerProtocol.expects entry.2) →
    (∀ thread, SavedKept (fileSemantics.final store (before.map Prod.snd))
      (writerStates before thread)) ∧
    ∀ id content, Held store before id content →
      (fileSemantics.final store (before.map Prod.snd)).Kept id content) ?_ ?_ hcondition
  · exact (hinvariant hexpects).2 id content hheld
  · intro _
    refine ⟨fun _ _ _ hsaved ↦ absurd hsaved not_mem_nil, fun id content ⟨before, hbegins, h⟩ ↦ ?_⟩
    obtain rfl := prefix_nil.mp hbegins
    exact .inl h
  · intro before entry hlonger hnotStale ih hanswers
    obtain ⟨hsaved, hkept⟩ := ih fun other hother ↦ hanswers other (mem_append_left _ hother)
    have hpermits := hlonger.permits_last hfollows hanswers
    have hallows := hlonger.allows_last
    rw [map_append, Semantics.final_append]
    refine ⟨fun thread ↦ ?_, fun id content ⟨first, hbegins, h⟩ ↦ ?_⟩
    · have hstates := writerProtocol.states_concat (fun _ : ι ↦ WriterState.initial) before entry
      rw [writerStates, hstates]
      by_cases hthread : thread = entry.1
      · rw [hthread, update_self]
        exact savedKept_advance hallows (hsaved entry.1)
      · rw [update_of_ne hthread]
        exact (hsaved thread).after entry.2
    · rcases prefix_concat_iff.mp hbegins with rfl | hshorter
      · left
        rw [map_append, Semantics.final_append] at h
        exact h
      · exact kept_after (hkept id content ⟨first, hshorter, h⟩) hpermits hallows (hsaved entry.1)
          hnotStale

end

theorem notStale_of_not_written (h : written event = none) : NotStale store state event := by
  intro id content current hwritten
  rw [h] at hwritten
  nomatch hwritten

/-- A step whose request has read the current content. -/
theorem notStale_of_read (hwritten : written event = some (id, content))
    (hread : state.read id = store.contentOf id) : NotStale store state event := by
  intro other value current hother hcurrent
  rw [hwritten] at hother
  obtain ⟨rfl, rfl⟩ := Prod.mk.inj (some.inj hother)
  exact .inr (hread.trans hcurrent)

def appEnv : ConfigFileRow :=
  ⟨"app-env", "app.env", "production", "PORT=80".toList, false, 1⟩

/-- The file alone, without history. -/
def oneFile : FileStore :=
  ⟨⟨[appEnv], by decide⟩, .empty⟩

def patchContent (content : Text) : Request :=
  .patch "app-env" ⟨.onlyContent content, none⟩

/-- The content that each of two requests writes. -/
def newContent : Bool → Text
  | false => "PORT=81".toList
  | true => "PORT=82".toList

def readStep (current : ConfigFileRow) : Event Answer :=
  ⟨.findConfigFile "app-env", .ok (some current)⟩

/-- The writing of a PATCH after it has read the file. -/
def writeSteps (current : ConfigFileRow) (historyId : String) (content : Text) :
    List (Event Answer) :=
  [⟨.createHistory ⟨current.content, "app-env", none⟩,
      .ok ⟨⟨current.content, "app-env", none⟩, historyId⟩⟩,
    ⟨.updateConfigFile "app-env" (.onlyContent content) none,
      .ok { current with content, updatedAt := 2 }⟩]

/-- The file after the first of the two requests. -/
def patchedEnv : ConfigFileRow :=
  { appEnv with content := newContent false, updatedAt := 2 }

def twoPatches (thread : Bool) : Async Reply :=
  handle (fun _ ↦ false) none (patchContent (newContent thread))

/-- Both requests read the file before one of them writes it. -/
def staleLog : Trail Bool Answer :=
  (false, readStep appEnv) :: (true, readStep appEnv) ::
    (writeSteps appEnv "history-0" (newContent false)).map (fun event ↦ (false, event)) ++
    (writeSteps appEnv "history-1" (newContent true)).map (fun event ↦ (true, event))

/-- The second request reads the file after the first one has written it. -/
def freshLog : Trail Bool Answer :=
  (false, readStep appEnv) ::
    (writeSteps appEnv "history-0" (newContent false)).map (fun event ↦ (false, event)) ++
    (true, readStep patchedEnv) ::
    (writeSteps patchedEnv "history-1" (newContent true)).map (fun event ↦ (true, event))

theorem concurrent_staleLog : Concurrent twoPatches fileSemantics oneFile staleLog where
  traces thread := by
    cases thread with
    | false | true => exact .call _ (.call _ (.call _ (.start _)))
  consistent := by
    refine ⟨rfl, rfl, ⟨rfl, by decide⟩, ⟨appEnv, rfl, rfl⟩, ⟨rfl, by decide⟩,
      ⟨patchedEnv, rfl, rfl⟩,
      trivial⟩

theorem concurrent_freshLog : Concurrent twoPatches fileSemantics oneFile freshLog where
  traces thread := by
    cases thread with
    | false | true => exact .call _ (.call _ (.call _ (.start _)))
  consistent := by
    refine ⟨rfl, ⟨rfl, by decide⟩, ⟨appEnv, rfl, rfl⟩, rfl, ⟨rfl, by decide⟩,
      ⟨patchedEnv, rfl, rfl⟩,
      trivial⟩

/-- The content of the first request is neither in the file nor in its history. -/
theorem not_fileHistoryComplete_stale :
    Concurrent twoPatches fileSemantics oneFile staleLog ∧
      Held oneFile staleLog "app-env" (newContent false) ∧
      ¬ (fileSemantics.final oneFile (staleLog.map Prod.snd)).Kept "app-env" (newContent false) := by
  refine ⟨concurrent_staleLog, ⟨staleLog.take 4, take_prefix 4 staleLog, rfl⟩, ?_⟩
  rintro (hcurrent | ⟨row, hrow, -, hcontent⟩)
  · exact absurd hcurrent (by decide)
  · have hsaved : ∀ row ∈ (fileSemantics.final oneFile (staleLog.map Prod.snd)).history.rows,
        row.content ≠ newContent false := by decide
    exact hsaved row hrow hcontent

/-- One request after the other. -/
theorem fileHistoryComplete_fresh :
    (fileSemantics.final oneFile (freshLog.map Prod.snd)).Kept "app-env" (newContent false) := by
  refine fileHistoryComplete (fun _ ↦ false) (fun _ ↦ none)
    (fun thread : Bool ↦ patchContent (newContent thread)) oneFile freshLog concurrent_freshLog
    (everyStep_of_stepsAfter ?_) "app-env" (newContent false)
    ⟨freshLog.take 3, take_prefix 3 freshLog, rfl⟩
  refine ⟨notStale_of_not_written rfl, notStale_of_not_written rfl, notStale_of_read rfl rfl,
    notStale_of_not_written rfl, notStale_of_not_written rfl, notStale_of_read rfl rfl, trivial⟩

end Bridgeport.FileHistory
