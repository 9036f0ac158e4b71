import Bridgeport.ConfigScan.Parsing
import Bridgeport.Foundation.Machine
import Bridgeport.Foundation.Tables
import Mathlib.Data.List.Dedup

/-!
# The usage rows of secrets and vars

`lib/key-usage-extraction.ts` keeps two tables that say which config file refers to which key.
`extractReferencedKeys` finds the keys of a text, and `syncUsageForConfigFile` brings the rows of
one file in line with the text that it is given: the file's content, behind the contents of the
fragments that the caller passes.

The requests that write config files, fragments, secrets and vars run one after another here, so
that each of them is a function on the store and the retry after a race never happens; in
`FileHistory` those that write contents are cut at their queries. A request that is refused changes
nothing; names and their unique constraints are left out.
-/

namespace Bridgeport.KeyUsage

open ConfigScan (isTerminator substituteFullValue)
open Foundation
open Secrets (Text isKeyChar isKeyStart placeholder readPlaceholder validKey)

def readKey (text : Text) : Option Text :=
  let key := text.takeWhile isKeyChar
  if key.head?.any isKeyStart then some key else none

/-- The key of `$KEY` at the front of a text. -/
def readBareKey : Text → Option Text
  | '$' :: rest => readKey rest
  | _ => none

/-- The key of `{{KEY}}` at the front of a text. -/
def readDoubleBraceKey : Text → Option Text
  | '{' :: '{' :: rest =>
    (readKey rest).filter fun key ↦ ['}', '}'].isPrefixOf (rest.drop key.length)
  | _ => none

/-- The key of `KEY=` at the front of a line. -/
def readAssignedKey (line : Text) : Option Text :=
  (readKey line).filter fun key ↦ (line.drop key.length).head? = some '='

/-- `extractReferencedKeys`. No two matches of one of its patterns overlap, so that a global search
finds every place at which a pattern matches. -/
def extractReferencedKeys (content : Text) : List Text :=
  ((content.tails.filterMap (readPlaceholder isKeyStart) ++ content.tails.filterMap readBareKey ++
    content.tails.filterMap readDoubleBraceKey ++
    (content.splitOnP isTerminator).filterMap readAssignedKey).filter (validKey ·)).dedup

/-- `buildScanContent`, for the contents of the fragments that the caller passes. -/
def buildScanContent (fragments : List Text) (content : Text) : Text :=
  let fragmentContent := ['\n'].intercalate fragments
  if fragmentContent = [] then content else fragmentContent ++ '\n' :: content

structure ConfigFileRow where
  (id environmentId : String)
  content : Text
  isBinary : Bool
  fragmentIds : List String

instance : Keyed ConfigFileRow :=
  ⟨ConfigFileRow.id⟩

structure FragmentRow where
  (id environmentId : String)
  content : Text

instance : Keyed FragmentRow :=
  ⟨FragmentRow.id⟩

/-- A secret or a var. -/
structure KeyRow where
  (id environmentId : String)
  key : Text

instance : Keyed KeyRow :=
  ⟨KeyRow.id⟩

/-- A history row; the id of a row is its place in the table. -/
structure HistoryRow where
  configFileId : String
  content : Text

/-- A row of `SecretUsage` or `VarUsage`. -/
structure UsageRow where
  environmentId : String
  key : Text
  configFileId : String
  deriving DecidableEq

structure UsageStore where
  files : Table ConfigFileRow
  fragments : Table FragmentRow
  history : List HistoryRow
  (secrets vars : Table KeyRow)
  (secretUsage varUsage : List UsageRow)

inductive KeyType
  | secret
  | var

/-- `syncSecretUsageForConfigFile` and `syncVarUsageForConfigFile`, on the rows of their table. -/
def syncUsage (usage : List UsageRow) (file : ConfigFileRow) (referencedKeys : List Text) :
    List UsageRow :=
  let existingKeys := (usage.filter (·.configFileId = file.id)).map (·.key)
  let toCreate := referencedKeys.filter (· ∉ existingKeys)
  let toDelete := existingKeys.filter (· ∉ referencedKeys)
  usage.filter (fun row ↦ ¬ (row.configFileId = file.id ∧ row.key ∈ toDelete)) ++
    toCreate.map fun key ↦ ⟨file.environmentId, key, file.id⟩

def referencedKeys (file : ConfigFileRow) (includedFragments : List Text) : List Text :=
  if file.isBinary then []
  else extractReferencedKeys (buildScanContent includedFragments file.content)

namespace UsageStore

variable (store : UsageStore) (file : ConfigFileRow)

def syncUsageForConfigFile (includedFragments : List Text) : UsageStore :=
  { store with
    secretUsage := syncUsage store.secretUsage file (referencedKeys file includedFragments)
    varUsage := syncUsage store.varUsage file (referencedKeys file includedFragments) }

def includedFragments : List Text :=
  file.fragmentIds.filterMap fun id ↦ (store.fragments.find? id).map (·.content)

/-- `rejectInvalidFragmentIds`: whether the ids are accepted. -/
def validFragmentIds (fragmentIds : List String) (environmentId : String) : Bool :=
  fragmentIds.Nodup ∧ ∀ id ∈ fragmentIds,
    (store.fragments.find? id).any (·.environmentId = environmentId)

def saveHistory : UsageStore :=
  { store with history := store.history ++ [⟨file.id, file.content⟩] }

end UsageStore

/-! ### Config files -/

/-- The body of a request that creates a config file. -/
structure CreateFileBody where
  content : Text
  isBinary : Bool
  fragmentIds : List String

/-- The body of a PATCH, as far as it is about contents. -/
structure PatchFileBody where
  content : Option Text
  isBinary : Option Bool
  fragmentIds : Option (List String)

def PatchFileBody.apply (body : PatchFileBody) (row : ConfigFileRow) : ConfigFileRow :=
  { row with
    content := body.content.getD row.content
    isBinary := body.isBinary.getD row.isBinary
    fragmentIds := body.fragmentIds.getD row.fragmentIds }

def ConfigFileRow.withContent (content : Text) (row : ConfigFileRow) : ConfigFileRow :=
  { row with content }

namespace UsageStore

variable (store : UsageStore) (environmentId id : String)

/-- `POST /api/environments/:envId/config-files`, with the id of the new row. -/
def createFile (body : CreateFileBody) : UsageStore :=
  if body.isBinary ∧ body.fragmentIds ≠ [] then store
  else if body.fragmentIds ≠ [] ∧ ¬ store.validFragmentIds body.fragmentIds environmentId then store
  else if ¬ store.files.Fresh id then store
  else
    let file : ConfigFileRow := ⟨id, environmentId, body.content, body.isBinary, body.fragmentIds⟩
    let fragmentContents := body.fragmentIds.filterMap fun id ↦
      ((store.fragments.find? id).filter (·.environmentId = environmentId)).map (·.content)
    { store with files := store.files.insert file }.syncUsageForConfigFile file fragmentContents

def writeFile (change : ConfigFileRow → ConfigFileRow)
    (hid : ∀ row, Keyed.id (change row) = Keyed.id row) (file : ConfigFileRow)
    (includedFragments : List Text) : UsageStore :=
  { store with files := store.files.update id change hid }.syncUsageForConfigFile (change file)
    includedFragments

/-- `PATCH /api/config-files/:id`. -/
def patchFile (body : PatchFileBody) : UsageStore :=
  match store.files.find? id with
  | none => store
  | some existing =>
    let effectiveIsBinary := body.isBinary.getD existing.isBinary
    let fragmentIds := body.fragmentIds.getD []
    if effectiveIsBinary ∧ fragmentIds ≠ [] then store
    else if effectiveIsBinary ∧ body.content = some [] then store
    else if fragmentIds ≠ [] ∧ ¬ store.validFragmentIds fragmentIds existing.environmentId then store
    else
      let saved := if body.content.isSome ∧ body.content ≠ some existing.content then
        store.saveHistory existing else store
      if body.content.isSome ∨ body.isBinary.isSome ∨ body.fragmentIds.isSome then
        saved.writeFile id body.apply (fun _ ↦ rfl) existing
          (saved.includedFragments (body.apply existing))
      else saved

/-- `POST /api/config-files/:id/restore/:historyId`. -/
def restoreFile (historyId : ℕ) : UsageStore :=
  match store.files.find? id, store.history[historyId]? with
  | some configFile, some historyEntry =>
    if historyEntry.configFileId ≠ id then store
    else (store.saveHistory configFile).writeFile id (.withContent historyEntry.content)
      (fun _ ↦ rfl) configFile []
  | _, _ => store

variable (content : Text)

/-- `POST /api/config-files/:id/replace-asset`, with the upload in base64. -/
def replaceAsset : UsageStore :=
  match store.files.find? id with
  | none => store
  | some existing =>
    if existing.isBinary = false then store
    else (store.saveHistory existing).writeFile id (.withContent content) (fun _ ↦ rfl) existing []

/-! ### Keys and fragments -/

def keys : KeyType → Table KeyRow
  | .secret => store.secrets
  | .var => store.vars

def usage : KeyType → List UsageRow
  | .secret => store.secretUsage
  | .var => store.varUsage

variable (type : KeyType)

def createKey (environmentId id : String) (key : Text) : Option UsageStore :=
  if ¬ validKey key ∨ ((store.keys type).rows.any fun row ↦
      row.environmentId = environmentId ∧ row.key = key) ∨ ¬ (store.keys type).Fresh id then none
  else match type with
    | .secret => some { store with secrets := store.secrets.insert ⟨id, environmentId, key⟩ }
    | .var => some { store with vars := store.vars.insert ⟨id, environmentId, key⟩ }

def withoutKey (row : KeyRow) (usage : List UsageRow) : List UsageRow :=
  usage.filter fun entry ↦ ¬ (entry.environmentId = row.environmentId ∧ entry.key = row.key)

/-- `deleteSecret`, and the deletion of a var. -/
def deleteKey (id : String) : UsageStore :=
  match (store.keys type).find? id, type with
  | none, _ => store
  | some row, .secret =>
    { store with
      secretUsage := withoutKey row store.secretUsage
      secrets := store.secrets.erase id }
  | some row, .var =>
    { store with
      varUsage := withoutKey row store.varUsage
      vars := store.vars.erase id }

/-- `POST /api/environments/:envId/config-fragments`, with the id of the new row. -/
def createFragment : UsageStore :=
  { store with fragments := store.fragments.insert ⟨id, environmentId, content⟩ }

/-- `PATCH /api/config-fragments/:id` of the content. -/
def patchFragment : UsageStore :=
  { store with fragments := store.fragments.update id ({ · with content }) fun _ ↦ rfl }

def applyToFile (value substitute : Text) (file : ConfigFileRow) : UsageStore :=
  let substitution := substituteFullValue file.content value substitute
  if substitution.replacements = 0 then store
  else (store.saveHistory file).writeFile file.id (.withContent substitution.newContent)
    (fun _ ↦ rfl) file []

def textFiles (fileIds : List String) : List ConfigFileRow :=
  store.files.rows.filter fun file ↦
    file.id ∈ fileIds ∧ file.environmentId = environmentId ∧ file.isBinary = false

/-- The apply step of a config scan on the files that have been read. -/
def applyToFiles (value substitute : Text) (files : List ConfigFileRow) : UsageStore :=
  files.foldl (fun store file ↦ store.applyToFile value substitute file) store

/-- `POST /api/environments/:envId/config-scan/apply`; a new secret or var gets the id. -/
def applyScan (key value : Text) (fileIds : List String) (existingSecretId : Option String)
    (id : String) : UsageStore :=
  let created := if existingSecretId.any (· ≠ "") then some store
    else store.createKey type environmentId id key
  match created with
  | none => store
  | some created =>
    created.applyToFiles value (placeholder key) (created.textFiles environmentId fileIds)

end UsageStore

inductive Request
  | createFile (environmentId id : String) (body : CreateFileBody)
  | patchFile (id : String) (body : PatchFileBody)
  | restoreFile (id : String) (historyId : ℕ)
  | replaceAsset (id : String) (content : Text)
  | applyScan (environmentId : String) (type : KeyType) (key value : Text) (fileIds : List String)
      (existingSecretId : Option String) (id : String)
  | createFragment (environmentId id : String) (content : Text)
  | patchFragment (id : String) (content : Text)
  | createKey (type : KeyType) (environmentId id : String) (key : Text)
  | deleteKey (type : KeyType) (id : String)

def UsageStore.handle (store : UsageStore) : Request → UsageStore
  | .createFile environmentId id body => store.createFile environmentId id body
  | .patchFile id body => store.patchFile id body
  | .restoreFile id historyId => store.restoreFile id historyId
  | .replaceAsset id content => store.replaceAsset id content
  | .applyScan environmentId type key value fileIds existingSecretId id =>
    store.applyScan environmentId type key value fileIds existingSecretId id
  | .createFragment environmentId id content => store.createFragment environmentId id content
  | .patchFragment id content => store.patchFragment id content
  | .createKey type environmentId id key => (store.createKey type environmentId id key).getD store
  | .deleteKey type id => store.deleteKey type id

def usageMachine : Machine UsageStore Request where
  next store request := some (store.handle request)

def UsageStore.empty : UsageStore :=
  ⟨.empty, .empty, [], .empty, .empty, [], []⟩

end Bridgeport.KeyUsage
