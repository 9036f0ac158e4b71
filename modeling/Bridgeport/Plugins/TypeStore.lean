import Bridgeport.Foundation.Machine
import Bridgeport.Foundation.OrderedMap
import Bridgeport.Foundation.Tables
import Mathlib.Data.List.Sort

/-!
# Service types and database types

The types of `services/plugin-loader.ts` and the admin routes of `routes/settings.ts`. A type has
fields and commands. `syncPlugins` creates it from its plugin file, replaces it, or, once it is
customized, adds the commands that it does not have; the routes change it and mark it as customized
if it comes from a plugin. The two kinds of types have tables and directories of their own, and what
they differ in is a `TypeKind` (`serviceTypes`, `databaseTypes`).

A request that its schema rejects changes nothing and is left out. A definition with two commands of
one name violates a unique key, so that the transaction that writes it changes nothing. The services
and databases of a type are left out, except for whether a type that is deleted has any.
-/

namespace Bridgeport.Plugins

open Foundation

/-! ### Types and files -/

/-- `source` of a type. -/
inductive TypeSource
  | plugin
  | user
  deriving DecidableEq

/-- A row of `ServiceTypeCommand` or `DatabaseTypeCommand`. -/
structure TypeCommand where
  id : ℕ
  (name displayName command : String)
  description : Option String
  sortOrder : ℤ
  deriving DecidableEq

/-- A row of `ServiceType` or `DatabaseType`, with its commands. -/
structure TypeRow (F : Type) where
  (id name : String)
  source : TypeSource
  isCustomized : Bool
  fields : F
  commands : List TypeCommand

instance {F : Type} : Keyed (TypeRow F) where
  id := TypeRow.id

/-- A command of a plugin file. -/
structure CommandJson where
  (name displayName command : String)
  description : Option String
  sortOrder : Option ℤ

/-- A plugin file, with the members of its kind as the definition. -/
structure TypeJson (D : Type) where
  name : String
  definition : D
  commands : List CommandJson

/-- What the kinds of types differ in: the fields of a new type, what a patch makes of them, how
they are read from a definition and written to one, and whether commands can be reordered. -/
structure TypeKind (F B P D : Type) where
  create : B → F
  patch : P → F → F
  displayName : D → String
  ofJson : D → F
  toJson : F → D
  reorders : Bool

def orNull (text : Option String) : Option String :=
  text.filter fun text ↦ text ≠ ""

/-- The fields of a `ServiceType`, the body that creates one and the members of its file. -/
structure ServiceTypeFields where
  displayName : String

/-- `updateServiceTypeSchema`. -/
structure ServiceTypePatch where
  displayName : Option String

def serviceTypes :
    TypeKind ServiceTypeFields ServiceTypeFields ServiceTypePatch ServiceTypeFields where
  create body := body
  patch body fields := { displayName := body.displayName.getD fields.displayName }
  displayName definition := definition.displayName
  ofJson definition := definition
  toJson fields := fields
  reorders := true

/-- The fields of a `DatabaseType`; connection fields and monitoring are JSON texts. -/
structure DatabaseTypeFields where
  (displayName connectionFields : String)
  (backupCommand restoreCommand : Option String)
  defaultPort : Option ℤ
  monitoringConfig : Option String

/-- `createDatabaseTypeSchema`. -/
structure DatabaseTypeBody where
  (displayName connectionFields : String)
  (backupCommand restoreCommand : Option String)
  defaultPort : Option ℤ

/-- `updateDatabaseTypeSchema`; `some none` is `null`. -/
structure DatabaseTypePatch where
  (displayName connectionFields : Option String)
  (backupCommand restoreCommand : Option (Option String))
  defaultPort : Option (Option ℤ)

/-- The members of `DatabaseTypeJson`. -/
structure DatabaseTypeJson extends DatabaseTypeBody where
  monitoring : Option String

def createDatabaseType (body : DatabaseTypeBody) : DatabaseTypeFields where
  displayName := body.displayName
  connectionFields := body.connectionFields
  backupCommand := orNull body.backupCommand
  restoreCommand := orNull body.restoreCommand
  defaultPort := body.defaultPort.filter fun port ↦ port ≠ 0
  monitoringConfig := none

def databaseTypes :
    TypeKind DatabaseTypeFields DatabaseTypeBody DatabaseTypePatch DatabaseTypeJson where
  create := createDatabaseType
  patch body fields :=
    { displayName := body.displayName.getD fields.displayName
      connectionFields := body.connectionFields.getD fields.connectionFields
      backupCommand := body.backupCommand.getD fields.backupCommand
      restoreCommand := body.restoreCommand.getD fields.restoreCommand
      defaultPort := body.defaultPort.getD fields.defaultPort
      monitoringConfig := fields.monitoringConfig }
  displayName definition := definition.displayName
  ofJson definition :=
    { createDatabaseType definition.toDatabaseTypeBody with
      monitoringConfig := definition.monitoring }
  toJson fields :=
    { displayName := fields.displayName
      connectionFields := fields.connectionFields
      backupCommand := orNull fields.backupCommand
      restoreCommand := orNull fields.restoreCommand
      defaultPort := fields.defaultPort.filter fun port ↦ port ≠ 0
      monitoring := orNull fields.monitoringConfig }
  reorders := false

/-- The types of a kind, the plugin files by name (`none` is a file that holds no definition), the
id of the next command, and the edits of each type since it was reset: whether they mark it. -/
structure TypeStore (F D : Type) where
  types : Table (TypeRow F)
  files : OrderedMap String (Option (TypeJson D))
  minted : ℕ
  edits : List (String × Bool)

def TypeStore.initial {F D : Type} (types : Table (TypeRow F))
    (files : OrderedMap String (Option (TypeJson D))) (minted : ℕ) : TypeStore F D where
  types := types
  files := files
  minted := minted
  edits := []

variable {F B P D : Type} (kind : TypeKind F B P D) (supply : KeySupply)

/-! ### Plugin files -/

/-- `validateServiceTypeJson` and `validateDatabaseTypeJson`. -/
def validateTypeJson (data : TypeJson D) : Bool :=
  data.name ≠ "" && data.name.toList.all (fun c ↦ c.isLower || c.isDigit || c = '-') &&
    kind.displayName data.definition ≠ ""

def loadJsonFiles (files : OrderedMap String (Option (TypeJson D))) : List (TypeJson D) :=
  (files.entries.insertionSort fun first second ↦ first.1 ≤ second.1).filterMap fun entry ↦
    entry.2.filter (validateTypeJson kind)

variable (minted : ℕ)

def commandRows (sortOrder : CommandJson → ℕ → ℤ) (commands : List CommandJson) :
    List TypeCommand :=
  commands.zipIdx.map fun entry ↦
    { id := minted + entry.2
      name := entry.1.name
      displayName := entry.1.displayName
      command := entry.1.command
      description := orNull entry.1.description
      sortOrder := sortOrder entry.1 entry.2 }

def definedCommands (data : TypeJson D) : List TypeCommand :=
  commandRows minted (fun cmd index ↦ cmd.sortOrder.getD index) data.commands

def newCommands (existing : TypeRow F) (data : TypeJson D) : List TypeCommand :=
  commandRows minted (fun _ index ↦ (existing.commands.length + index) * 10)
    (data.commands.filter (·.name ∉ existing.commands.map TypeCommand.name))

namespace TypeStore

variable (store : TypeStore F D) (commands : List TypeCommand)

/-- Commands of which no two have one name. -/
def Distinct : Prop :=
  (commands.map TypeCommand.name).Nodup

instance : Decidable (Distinct commands) :=
  inferInstanceAs (Decidable (List.Nodup _))

variable (existing : TypeRow F)

def change (row : TypeRow F → TypeRow F) (hid : ∀ type, (row type).id = type.id) : TypeStore F D :=
  { store with types := store.types.update existing.id row hid }

variable (data : TypeJson D)

def createFromFile : TypeStore F D :=
  let commands := definedCommands store.minted data
  if Distinct commands then
    { store with
      types := store.types.insert
        { id := supply.next store.types.ids, name := data.name, source := .plugin
          isCustomized := false, fields := kind.ofJson data.definition, commands }
      minted := store.minted + commands.length }
  else store

def replaceFromFile : TypeStore F D :=
  let commands := definedCommands store.minted data
  if Distinct commands then
    { store.change existing (fun row ↦
        { row with source := .plugin, fields := kind.ofJson data.definition, commands })
        (fun _ ↦ rfl) with
      minted := store.minted + commands.length }
  else store

def addFromFile : TypeStore F D :=
  let commands := newCommands store.minted existing data
  if Distinct commands then
    { store.change existing (fun row ↦ { row with commands := row.commands ++ commands })
        (fun _ ↦ rfl) with
      minted := store.minted + commands.length }
  else store

/-- A turn of the loops of `syncServiceTypes` and `syncDatabaseTypes`. -/
def syncType : TypeStore F D :=
  match store.types.findBy? TypeRow.name data.name with
  | none => store.createFromFile kind supply data
  | some existing =>
    if existing.isCustomized then store.addFromFile existing data
    else store.replaceFromFile kind existing data

/-- `syncServiceTypes` and `syncDatabaseTypes`. -/
def syncTypes : TypeStore F D :=
  (loadJsonFiles kind store.files).foldl (syncType kind supply) store

variable (id : String)

def resetTypeToDefaults : TypeStore F D :=
  match store.types.find? id with
  | none => store
  | some existing =>
    match (store.files.get (existing.name ++ ".json")).join.filter (validateTypeJson kind) with
    | none => store
    | some data =>
      let commands := definedCommands store.minted data
      if Distinct commands then
        { store.change existing (fun row ↦
            { row with isCustomized := false, fields := kind.ofJson data.definition, commands })
            (fun _ ↦ rfl) with
          minted := store.minted + commands.length
          edits := store.edits.filter (·.1 ≠ id) }
      else store

def commandJson (command : TypeCommand) : CommandJson :=
  { command with
    description := orNull command.description
    sortOrder := some command.sortOrder }

def exportTypeAsJson : TypeStore F D :=
  match store.types.find? id with
  | none => store
  | some existing =>
    let data : TypeJson D :=
      { name := existing.name
        definition := kind.toJson existing.fields
        commands := (existing.commands.insertionSort fun first second ↦
          first.sortOrder ≤ second.sortOrder).map commandJson }
    { store with files := store.files.set (existing.name ++ ".json") (some data) }

/-! ### Routes -/

/-- `markServiceTypeCustomized` and `markDatabaseTypeCustomized`. -/
def markCustomized : TypeStore F D :=
  store.change existing (fun row ↦
    { row with isCustomized := row.isCustomized || row.source = .plugin }) (fun _ ↦ rfl)

def markedEdit (row : TypeRow F → TypeRow F) (hid : ∀ type, (row type).id = type.id) :
    TypeStore F D :=
  { (store.change existing row hid).markCustomized existing with
    edits := (existing.id, existing.source = .plugin) :: store.edits }

/-- An edit of a type by a route that does not mark it. -/
def unmarkedEdit (row : TypeRow F → TypeRow F) (hid : ∀ type, (row type).id = type.id) :
    TypeStore F D :=
  { store.change existing row hid with edits := (existing.id, false) :: store.edits }

/-- `POST /api/settings/service-types` and its sibling. -/
def createType (name : String) (body : B) : TypeStore F D :=
  match store.types.findBy? TypeRow.name name with
  | some _ => store
  | none =>
    { store with
      types := store.types.insert
        { id := supply.next store.types.ids, name, source := .user, isCustomized := false
          fields := kind.create body, commands := [] } }

/-- `PATCH /api/settings/service-types/:id` and its sibling. -/
def patchType (body : P) : TypeStore F D :=
  match store.types.find? id with
  | none => store
  | some existing => store.markedEdit existing
    (fun row ↦ { row with fields := kind.patch body row.fields }) (fun _ ↦ rfl)

/-- `DELETE /api/settings/service-types/:id` and its sibling. -/
def deleteType (inUse : Bool) : TypeStore F D :=
  if inUse then store
  else { store with
    types := store.types.erase id
    edits := store.edits.filter (·.1 ≠ id) }

/-- `createCommandSchema`. -/
structure CommandBody where
  (name displayName command : String)
  description : Option String
  sortOrder : Option ℤ

/-- `POST /api/settings/service-types/:id/commands` and its sibling. -/
def addCommand (body : CommandBody) : TypeStore F D :=
  match store.types.find? id with
  | none => store
  | some existing =>
    if body.name ∈ existing.commands.map TypeCommand.name then store
    else
      let sortOrder := body.sortOrder.getD
        (((existing.commands.map TypeCommand.sortOrder).max?.getD (-1)) + 1)
      let command : TypeCommand :=
        { id := store.minted, name := body.name, displayName := body.displayName
          command := body.command, description := body.description, sortOrder }
      { store.markedEdit existing (fun row ↦ { row with commands := row.commands ++ [command] })
          (fun _ ↦ rfl) with
        minted := store.minted + 1 }

/-- `updateCommandSchema`. -/
structure CommandPatch where
  (displayName command description : Option String)
  sortOrder : Option ℤ

def CommandPatch.apply (body : CommandPatch) (command : TypeCommand) : TypeCommand where
  id := command.id
  name := command.name
  displayName := body.displayName.getD command.displayName
  command := body.command.getD command.command
  description := body.description.or command.description
  sortOrder := body.sortOrder.getD command.sortOrder

variable (commandId : ℕ)

def findCommand : Option (TypeRow F) :=
  (store.types.find? id).filter fun row ↦ commandId ∈ row.commands.map TypeCommand.id

/-- `PATCH /api/settings/service-types/:id/commands/:commandId` and its sibling. -/
def updateCommand (body : CommandPatch) : TypeStore F D :=
  match store.findCommand id commandId with
  | none => store
  | some existing => store.markedEdit existing
    (fun row ↦
      { row with
        commands := row.commands.map fun command ↦
          if command.id = commandId then body.apply command else command }) (fun _ ↦ rfl)

/-- `DELETE /api/settings/service-types/:id/commands/:commandId` and its sibling. -/
def deleteCommand : TypeStore F D :=
  match store.findCommand id commandId with
  | none => store
  | some existing => store.markedEdit existing
    (fun row ↦ { row with commands := row.commands.filter (·.id ≠ commandId) })
    (fun _ ↦ rfl)

def reordered (commands : List TypeCommand) (commandIds : List ℕ) : List TypeCommand :=
  commandIds.zipIdx.foldl (fun commands entry ↦ commands.map fun command ↦
    if command.id = entry.1 then { command with sortOrder := entry.2 } else command) commands

/-- `PUT /api/settings/service-types/:id/commands/reorder`, which does not mark the type. -/
def reorderCommands (commandIds : List ℕ) : TypeStore F D :=
  match store.types.find? id with
  | none => store
  | some existing => store.unmarkedEdit existing
    (fun row ↦ { row with commands := reordered row.commands commandIds }) (fun _ ↦ rfl)

end TypeStore

/-- A request of an admin, a change of the plugin directory or a sync. -/
inductive TypeStep (B P D : Type)
  | create (name : String) (body : B)
  | patch (id : String) (body : P)
  | delete (id : String) (inUse : Bool)
  | reset (id : String)
  | exportJson (id : String)
  | addCommand (id : String) (body : TypeStore.CommandBody)
  | updateCommand (id : String) (commandId : ℕ) (body : TypeStore.CommandPatch)
  | deleteCommand (id : String) (commandId : ℕ)
  | reorder (id : String) (commandIds : List ℕ)
  | install (files : OrderedMap String (Option (TypeJson D)))
  | sync

def typeMachine : Machine (TypeStore F D) (TypeStep B P D) where
  next store
    | .create name body => some (store.createType kind supply name body)
    | .patch id body => some (store.patchType kind id body)
    | .delete id inUse => some (store.deleteType id inUse)
    | .reset id => some (store.resetTypeToDefaults kind id)
    | .exportJson id => some (store.exportTypeAsJson kind id)
    | .addCommand id body => some (store.addCommand id body)
    | .updateCommand id commandId body => some (store.updateCommand id commandId body)
    | .deleteCommand id commandId => some (store.deleteCommand id commandId)
    | .reorder id commandIds =>
      if kind.reorders then some (store.reorderCommands id commandIds) else none
    | .install files => some { store with files }
    | .sync => some (store.syncTypes kind supply)

end Bridgeport.Plugins
