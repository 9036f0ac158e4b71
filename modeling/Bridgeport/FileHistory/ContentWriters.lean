import Bridgeport.ConfigScan.Parsing
import Bridgeport.Foundation.Tables
import Bridgeport.Foundation.Threads

/-!
# The writers of a config file's content

Four requests write the content of a config file, and each of them saves what it has read before it
writes. A PATCH and a restore write the history row on its own, then update the file
(`patchConfigFile`, `restoreConfigFile`); a replacement of an asset writes both in one transaction,
after the upload (`replaceAsset`); the apply step of a config scan reads all its files at once and
then writes them one after the other (`applyScan`).

Usage rows, fragments and the fields of a file that nothing here reads are left out; so are the
answers' files, which the client gets without binary content.
-/

namespace Bridgeport.FileHistory

open ConfigScan (substituteFullValue)
open Foundation Program
open Secrets (Text placeholder)

structure ConfigFileRow where
  (id name environmentId : String)
  content : Text
  isBinary : Bool
  updatedAt : ℕ

instance : Keyed ConfigFileRow :=
  ⟨ConfigFileRow.id⟩

/-- The data of a new history row. -/
structure HistoryData where
  content : Text
  configFileId : String
  editedById : Option String

structure HistoryRow extends HistoryData where
  id : String

instance : Keyed HistoryRow :=
  ⟨HistoryRow.id⟩

/-- The data of an update of a config file. -/
structure UpdateData where
  name : Option String
  content : Option Text
  isBinary : Option Bool

def UpdateData.apply (data : UpdateData) (updatedAt : ℕ) (row : ConfigFileRow) : ConfigFileRow :=
  { row with
    name := data.name.getD row.name
    content := data.content.getD row.content
    isBinary := data.isBinary.getD row.isBinary
    updatedAt }

theorem UpdateData.id_apply (data : UpdateData) (updatedAt : ℕ) (row : ConfigFileRow) :
    Keyed.id (data.apply updatedAt row) = Keyed.id row :=
  rfl

def UpdateData.onlyContent (content : Text) : UpdateData :=
  ⟨none, some content, none⟩

inductive CreatedType
  | secret
  | var

/-- What the handlers await. The update of a file replaces its fragments in the same transaction;
`replaceContent` is the transaction of a history row and an update. -/
inductive Call
  | findConfigFile (id : String)
  | findTextFiles (ids : List String) (environmentId : String)
  | findFragmentIds (ids : List String) (environmentId : String)
  | findHistory (id : String)
  | receiveUpload
  | createHistory (data : HistoryData)
  | updateConfigFile (id : String) (data : UpdateData) (fragmentIds : Option (List String))
  | replaceContent (id : String) (history : HistoryData) (content : Text)
  | createSecretOrVar (type : CreatedType) (key value : Text) (environmentId : String)
  | createAuditLog (action resourceId : String)

def Answer : Call → Type
  | .findConfigFile _ => Option ConfigFileRow
  | .findTextFiles _ _ => List ConfigFileRow
  | .findFragmentIds _ _ => List String
  | .findHistory _ => Option HistoryRow
  | .receiveUpload => Option Text
  | .createHistory _ => HistoryRow
  | .updateConfigFile _ _ _ => ConfigFileRow
  | .replaceContent _ _ _ => HistoryRow × ConfigFileRow
  | .createSecretOrVar _ _ _ _ => String
  | .createAuditLog _ _ => Unit

abbrev Async := Program Answer

abbrev await (request : Call) : Async (Answer request) := perform request

/-- The body of a PATCH, as its schema accepts it. -/
structure PatchBody extends UpdateData where
  fragmentIds : Option (List String)

structure ApplyBody where
  (value key : Text)
  type : CreatedType
  fileIds : List String
  existingSecretId : Option String

structure ApplyResult where
  (fileId fileName : String)
  success : Bool
  replacements : ℕ
  error : Option String

inductive Reply
  | configFile (row : ConfigFileRow)
  | applied (secretOrVarId : String) (results : List ApplyResult)
  | error (code : ℕ) (message : String)

/-- `logAudit`: a log that cannot be written does not fail the request. -/
def logAudit (action resourceId : String) : Async Unit :=
  (await (.createAuditLog action resourceId)).tryCatch fun _ ↦ pure ()

/-- `rejectInvalidFragmentIds`: the reply that refuses the fragments. -/
def rejectInvalidFragmentIds (fragmentIds : List String) (environmentId : String) :
    Async (Option Reply) :=
  if ¬ fragmentIds.Nodup then
    pure (some (.error 400 "fragmentIds must not contain duplicates"))
  else do
    let found ← await (.findFragmentIds fragmentIds environmentId)
    if found.length ≠ fragmentIds.length then
      pure (some (.error 400
        "One or more fragmentIds are invalid or belong to a different environment"))
    else pure none

/-- The content of a PATCH differs from what has been read. -/
def PatchBody.Changes (body : PatchBody) (existing : ConfigFileRow) : Prop :=
  body.content.isSome ∧ body.content ≠ some existing.content

instance (body : PatchBody) (existing : ConfigFileRow) : Decidable (body.Changes existing) :=
  inferInstanceAs (Decidable (_ ∧ _))

def saveHistory (id : String) (content : Text) (editedById : Option String) : Async Unit := do
  let _ ← await (.createHistory ⟨content, id, editedById⟩)
  pure ()

variable (isPrismaNotFoundError : String → Bool)

def writePatch (existing : ConfigFileRow) (id : String) (body : PatchBody)
    (editedById : Option String) : Async Reply :=
  Program.tryCatch (do
    Program.when (body.Changes existing) (saveHistory id existing.content editedById)
    let configFile ← await (.updateConfigFile id body.toUpdateData body.fragmentIds)
    logAudit "update" configFile.id
    pure (.configFile configFile))
  fun message ↦
    if isPrismaNotFoundError message then pure (.error 404 "Config file not found")
    else throw message

/-- `PATCH /api/config-files/:id`. -/
def patchConfigFile (id : String) (body : PatchBody) (editedById : Option String) :
    Async Reply := do
  let found ← await (.findConfigFile id)
  match found with
  | none => pure (.error 404 "Config file not found")
  | some existing =>
    let effectiveIsBinary := body.isBinary.getD existing.isBinary
    let fragmentIds := body.fragmentIds.getD []
    if effectiveIsBinary ∧ fragmentIds ≠ [] then
      pure (.error 400 "Binary ConfigFiles cannot include fragments")
    else if effectiveIsBinary ∧ body.content = some [] then
      pure (.error 400
        "Binary file content cannot be cleared. Use the asset replace upload to change it.")
    else if fragmentIds ≠ [] then do
      let refused ← rejectInvalidFragmentIds fragmentIds existing.environmentId
      match refused with
      | some reply => pure reply
      | none => writePatch isPrismaNotFoundError existing id body editedById
    else writePatch isPrismaNotFoundError existing id body editedById

/-- `POST /api/config-files/:id/restore/:historyId`. -/
def restoreConfigFile (id historyId : String) (editedById : Option String) : Async Reply := do
  let found ← await (.findConfigFile id)
  match found with
  | none => pure (.error 404 "Config file not found")
  | some configFile =>
    let entry ← await (.findHistory historyId)
    match entry with
    | none => pure (.error 404 "History entry not found")
    | some historyEntry =>
      if historyEntry.configFileId ≠ id then pure (.error 404 "History entry not found")
      else do
        saveHistory id configFile.content editedById
        let updated ← await (.updateConfigFile id (.onlyContent historyEntry.content) none)
        logAudit "restore" configFile.id
        pure (.configFile updated)

/-- `POST /api/config-files/:id/replace-asset`. -/
def replaceAsset (id : String) (editedById : Option String) : Async Reply := do
  let found ← await (.findConfigFile id)
  match found with
  | none => pure (.error 404 "Config file not found")
  | some existing =>
    if existing.isBinary = false then
      pure (.error 400
        "Only binary asset files can be replaced via upload. Edit text files directly.")
    else do
      let data ← await .receiveUpload
      match data with
      | none => pure (.error 400 "No file uploaded")
      | some content =>
        let written ← await (.replaceContent id ⟨existing.content, id, editedById⟩ content)
        logAudit "update" written.2.id
        pure (.configFile written.2)

def applyToFile (value substitute : Text) (editedById : Option String) (file : ConfigFileRow) :
    Async ApplyResult :=
  Program.tryCatch (
    let substitution := substituteFullValue file.content value substitute
    if substitution.replacements = 0 then pure ⟨file.id, file.name, true, 0, none⟩
    else do
      saveHistory file.id file.content editedById
      let _ ← await (.updateConfigFile file.id (.onlyContent substitution.newContent) none)
      logAudit "update" file.id
      pure ⟨file.id, file.name, true, substitution.replacements, none⟩)
  fun message ↦ pure ⟨file.id, file.name, false, 0, some message⟩

/-- The apply step of a config scan on its files, one after the other. -/
def applyToFiles (value substitute : Text) (editedById : Option String) :
    List ConfigFileRow → Async (List ApplyResult)
  | [] => pure []
  | file :: rest => do
    let result ← applyToFile value substitute editedById file
    let results ← applyToFiles value substitute editedById rest
    pure (result :: results)

/-- The secret or variable of an apply request, or the reply that refuses it; an empty id counts as
none. -/
def secretOrVarOf (environmentId : String) (body : ApplyBody) : Async (Except Reply String) :=
  match body.existingSecretId.filter (· ≠ "") with
  | some existing => pure (.ok existing)
  | none => Program.tryCatch (do
      let created ← await (.createSecretOrVar body.type body.key body.value environmentId)
      logAudit "create" created
      pure (.ok created))
    fun message ↦ pure (.error (.error 409 message))

/-- `POST /api/environments/:envId/config-scan/apply`. -/
def applyScan (environmentId : String) (body : ApplyBody) (editedById : Option String) :
    Async Reply := do
  let created ← secretOrVarOf environmentId body
  match created with
  | .error reply => pure reply
  | .ok secretOrVarId =>
    let configFiles ← await (.findTextFiles body.fileIds environmentId)
    let results ← applyToFiles body.value (placeholder body.key) editedById configFiles
    pure (.applied secretOrVarId results)

/-- A request that writes the content of config files. -/
inductive Request
  | patch (id : String) (body : PatchBody)
  | restore (id historyId : String)
  | replaceAsset (id : String)
  | applyScan (environmentId : String) (body : ApplyBody)

def handle (editedById : Option String) : Request → Async Reply
  | .patch id body => patchConfigFile isPrismaNotFoundError id body editedById
  | .restore id historyId => restoreConfigFile id historyId editedById
  | .replaceAsset id => FileHistory.replaceAsset id editedById
  | .applyScan environmentId body => FileHistory.applyScan environmentId body editedById

end Bridgeport.FileHistory
