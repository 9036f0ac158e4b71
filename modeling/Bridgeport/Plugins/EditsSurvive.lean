import Bridgeport.Plugins.TypeStore

/-!
# Edits survive syncs

A sync keeps a type if it leaves the row as it is, but for commands with new names behind its own.
In every run in which no sync finds a file for a type that has been edited since its last reset, but
only by reorders or while it was not a plugin's, every sync keeps every type that has been edited
(`meets_editsSurvive`). A type that a plugin has created and whose commands an admin reorders is
replaced by the next sync (`not_meets_editsSurvive`).
-/

namespace Bridgeport.Plugins

open Foundation List

variable {F B P D : Type} {kind : TypeKind F B P D} {supply : KeySupply}

/-! ### The property and the condition -/

/-- A row after it has got commands with new names. -/
def Extends (before after : TypeRow F) : Prop :=
  ∃ added, after = { before with commands := before.commands ++ added } ∧
    ∀ command ∈ added, command.name ∉ before.commands.map TypeCommand.name

namespace TypeStore

/-- A type has been edited since its last reset. -/
def Edited (store : TypeStore F D) (id : String) : Prop :=
  ∃ marks, (id, marks) ∈ store.edits

/-- An edit since the last reset has marked the type. -/
def Marked (store : TypeStore F D) (id : String) : Prop :=
  (id, true) ∈ store.edits

end TypeStore

variable (kind supply) in
def EditsSurvive (store : TypeStore F D) : TypeStep B P D → Prop
  | .sync => ∀ row ∈ store.types.rows, store.Edited row.id →
      ∃ after ∈ (store.syncTypes kind supply).types.rows, Extends row after
  | _ => True

variable (kind) in
def FindsMarked (store : TypeStore F D) : TypeStep B P D → Prop
  | .sync => ∀ row ∈ store.types.rows, store.Edited row.id → ¬ store.Marked row.id →
      ∀ data ∈ loadJsonFiles kind store.files, data.name ≠ row.name
  | _ => True

/-! ### What a sync does to a row -/

theorem Extends.refl (row : TypeRow F) : Extends row row :=
  ⟨[], by simp, nofun⟩

theorem Extends.trans {first middle last : TypeRow F} (hfirst : Extends first middle)
    (hlast : Extends middle last) : Extends first last := by
  obtain ⟨added, rfl, hadded⟩ := hfirst
  obtain ⟨more, rfl, hmore⟩ := hlast
  refine ⟨added ++ more, by simp, fun command hcommand hname ↦ ?_⟩
  rcases mem_append.mp hcommand with hold | hnew
  · exact hadded command hold hname
  · refine hmore command hnew ?_
    rw [map_append]
    exact mem_append_left _ hname

variable {existing : TypeRow F} {data : TypeJson D}

theorem name_notMem_of_mem_newCommands {minted : ℕ} {command : TypeCommand}
    (h : command ∈ newCommands minted existing data) :
    command.name ∉ existing.commands.map TypeCommand.name := by
  obtain ⟨entry, hentry, rfl⟩ := mem_map.mp h
  have hmem := fst_mem_of_mem_zipIdx hentry
  simpa using (mem_filter.mp hmem).2

namespace TypeStore

variable {store : TypeStore F D} {row : TypeRow F} {new : TypeRow F → TypeRow F} {other : TypeRow F}
  {hid : ∀ type, (new type).id = type.id}

theorem mem_change :
    other ∈ (store.change existing new hid).types.rows ↔
      ∃ row ∈ store.types.rows, other = if row.id = existing.id then new row else row :=
  Table.mem_update_iff hid

theorem id_ite (hid : ∀ type, (new type).id = type.id) (type : TypeRow F) :
    (if type.id = existing.id then new type else type).id = type.id := by
  split_ifs
  · exact hid type
  · rfl

theorem exists_of_mem_change (h : other ∈ (store.change existing new hid).types.rows) :
    ∃ row ∈ store.types.rows, other.id = row.id ∧
      other = if row.id = existing.id then new row else row := by
  obtain ⟨row, hrow, rfl⟩ := mem_change.mp h
  exact ⟨row, hrow, id_ite hid row, rfl⟩

theorem ids_change : (store.change existing new hid).types.ids = store.types.ids :=
  (map_map ..).trans (map_congr_left fun type _ ↦ id_ite hid type)

theorem mem_change_of_ne (hother : other.id ≠ existing.id) :
    other ∈ (store.change existing new hid).types.rows ↔ other ∈ store.types.rows := by
  rw [mem_change]
  constructor
  · rintro ⟨row, hrow, rfl⟩
    rw [id_ite hid] at hother
    rwa [if_neg hother]
  · intro hmem
    exact ⟨other, hmem, (if_neg hother).symm⟩

theorem exists_change (existing : TypeRow F) (new : TypeRow F → TypeRow F)
    (hid : ∀ type, (new type).id = type.id) (hrow : row ∈ store.types.rows)
    (h : row.id = existing.id → Extends row (new row)) :
    ∃ after ∈ (store.change existing new hid).types.rows, Extends row after := by
  refine ⟨_, mem_change.mpr ⟨row, hrow, rfl⟩, ?_⟩
  split_ifs with hsame
  · exact h hsame
  · exact Extends.refl row

theorem exists_createFromFile (hrow : row ∈ store.types.rows) (data : TypeJson D) :
    ∃ after ∈ (store.createFromFile kind supply data).types.rows, Extends row after := by
  refine ⟨row, ?_, Extends.refl row⟩
  unfold createFromFile
  dsimp only
  split_ifs
  · exact (Table.mem_insert_iff (Table.fresh_next supply store.types)).mpr (.inl hrow)
  · exact hrow

theorem exists_addFromFile (hexisting : existing ∈ store.types.rows)
    (hrow : row ∈ store.types.rows) (data : TypeJson D) :
    ∃ after ∈ (store.addFromFile existing data).types.rows, Extends row after := by
  unfold addFromFile
  dsimp only
  split_ifs
  · refine exists_change existing (fun row ↦
      { row with commands := row.commands ++ newCommands store.minted existing data })
      (fun _ ↦ rfl) hrow fun hid ↦ ?_
    obtain rfl := Table.eq_of_id_eq hrow hexisting hid
    exact ⟨_, rfl, fun command hcommand ↦ name_notMem_of_mem_newCommands hcommand⟩
  · exact ⟨row, hrow, Extends.refl row⟩

theorem exists_replaceFromFile (hid : row.id ≠ existing.id) (hrow : row ∈ store.types.rows)
    (data : TypeJson D) :
    ∃ after ∈ (store.replaceFromFile kind existing data).types.rows, Extends row after := by
  unfold replaceFromFile
  dsimp only
  split_ifs
  · exact exists_change existing (fun row ↦
      { row with
        source := .plugin, fields := kind.ofJson data.definition
        commands := definedCommands store.minted data })
      (fun _ ↦ rfl) hrow fun hsame ↦ absurd hsame hid
  · exact ⟨row, hrow, Extends.refl row⟩

theorem exists_syncType (hrow : row ∈ store.types.rows)
    (h : row.isCustomized ∨ data.name ≠ row.name) :
    ∃ after ∈ (store.syncType kind supply data).types.rows, Extends row after := by
  unfold syncType
  cases hfound : store.types.findBy? TypeRow.name data.name with
  | none => exact exists_createFromFile hrow data
  | some existing =>
    obtain ⟨hexisting, hname⟩ := Table.mem_of_findBy? hfound
    dsimp only
    split_ifs with hcustomized
    · exact exists_addFromFile hexisting hrow data
    · refine exists_replaceFromFile (fun hid ↦ ?_) hrow data
      obtain rfl := Table.eq_of_id_eq hrow hexisting hid
      exact absurd hname.symm (h.resolve_left hcustomized)

theorem exists_foldl_syncType {files : List (TypeJson D)} (hrow : row ∈ store.types.rows)
    (h : row.isCustomized ∨ ∀ data ∈ files, data.name ≠ row.name) :
    ∃ after ∈ (files.foldl (syncType kind supply) store).types.rows, Extends row after := by
  induction files generalizing store row with
  | nil => exact ⟨row, hrow, Extends.refl row⟩
  | cons data rest ih =>
    obtain ⟨middle, hmiddle, hextends⟩ :
        ∃ middle ∈ (store.syncType kind supply data).types.rows, Extends row middle :=
      exists_syncType hrow (h.imp_right fun hnames ↦ hnames data mem_cons_self)
    have hlater : middle.isCustomized ∨ ∀ data ∈ rest, data.name ≠ middle.name := by
      obtain ⟨added, rfl, -⟩ := hextends
      exact h.imp_right fun hnames data hdata ↦ hnames data (mem_cons_of_mem _ hdata)
    obtain ⟨after, hafter, hrest⟩ := ih hmiddle hlater
    exact ⟨after, hafter, hextends.trans hrest⟩

/-! ### Marked types are customized -/

/-- A type that has been marked is customized, and only types of the table have been edited. -/
structure Sound (store : TypeStore F D) : Prop where
  customized : ∀ row ∈ store.types.rows, store.Marked row.id → row.isCustomized
  known : ∀ edit ∈ store.edits, edit.1 ∈ store.types.ids

section

variable (h : store.Sound)
include h

/-- The plugin files and the next id do not matter. -/
theorem Sound.update (files : OrderedMap String (Option (TypeJson D))) (minted : ℕ) :
    Sound { store with files, minted } where
  customized := h.customized
  known := h.known

/-- A change that does not take the mark from a type. -/
theorem Sound.change (hnew : ∀ type, type.isCustomized → (new type).isCustomized) :
    (store.change existing new hid).Sound where
  customized row hrow hmarked := by
    obtain ⟨before, hbefore, rfl⟩ := mem_change.mp hrow
    split_ifs at hmarked ⊢ with hsame
    · rw [hid before] at hmarked
      exact hnew before (h.customized before hbefore hmarked)
    · exact h.customized before hbefore hmarked
  known edit hedit := by
    rw [ids_change]
    exact h.known edit hedit

theorem Sound.insert (hfresh : store.types.Fresh row.id) :
    Sound { store with types := store.types.insert row } where
  customized other hother hmarked := by
    rcases (Table.mem_insert_iff hfresh).mp hother with hold | rfl
    · exact h.customized other hold hmarked
    · exact absurd (h.known _ hmarked) hfresh
  known edit hedit := by
    have hknown := h.known edit hedit
    simp only [Table.ids, Table.rows_insert hfresh, map_append]
    exact mem_append_left _ hknown

theorem Sound.note {id : String} (hid : id ∈ store.types.ids) {marks : Bool}
    (hmarks : marks → ∀ row ∈ store.types.rows, row.id = id → row.isCustomized) :
    Sound { store with edits := (id, marks) :: store.edits } where
  customized row hrow hmarked := by
    rcases mem_cons.mp hmarked with hnew | hold
    · obtain ⟨hsame, hmark⟩ := Prod.mk.inj hnew
      exact hmarks hmark.symm row hrow hsame
    · exact h.customized row hrow hold
  known edit hedit := by
    rcases mem_cons.mp hedit with rfl | hold
    · exact hid
    · exact h.known edit hold

theorem Sound.forget (id : String) (types : Table (TypeRow F))
    (hrows : ∀ row, row.id ≠ id → (row ∈ types.rows ↔ row ∈ store.types.rows)) :
    Sound { store with types, edits := store.edits.filter (·.1 ≠ id) } where
  customized other hother hmarked := by
    obtain ⟨hmarked, hid⟩ := mem_filter.mp hmarked
    exact h.customized other ((hrows other (of_decide_eq_true hid)).mp hother) hmarked
  known edit hedit := by
    obtain ⟨hedit, hid⟩ := mem_filter.mp hedit
    obtain ⟨row, hrow, hrowid⟩ := mem_map.mp (h.known edit hedit)
    have hne : row.id ≠ id := fun hsame ↦ of_decide_eq_true hid (hrowid.symm.trans hsame)
    exact hrowid ▸ mem_map_of_mem ((hrows row hne).mpr hrow)

section

variable (hexisting : existing ∈ store.types.rows) (hid : ∀ type, (new type).id = type.id)

include hexisting

/-- An edit by a route that does not mark its type. -/
theorem Sound.unmarkedEdit (hnew : ∀ type, (new type).isCustomized = type.isCustomized) :
    (store.unmarkedEdit existing new hid).Sound := by
  refine (h.change fun type htype ↦ (hnew type).trans htype).note ?_ nofun
  rw [ids_change]
  exact mem_map_of_mem hexisting

theorem Sound.markedEdit
    (hnew : ∀ type, (new type).isCustomized = type.isCustomized ∧ (new type).source = type.source) :
    (store.markedEdit existing new hid).Sound := by
  have hchanged : ((store.change existing new hid).markCustomized existing).Sound :=
    (h.change fun type htype ↦ (hnew type).1.trans htype).change
      fun type htype ↦ Bool.or_eq_true_iff.mpr (.inl htype)
  refine hchanged.note ?_ fun hplugin row hrow hrowid ↦ ?_
  · rw [markCustomized, ids_change, ids_change]
    exact mem_map_of_mem hexisting
  · obtain ⟨middle, hmiddle, hmiddleid, rfl⟩ := exists_of_mem_change hrow
    obtain ⟨before, hbefore, hbeforeid, rfl⟩ := exists_of_mem_change hmiddle
    obtain rfl := Table.eq_of_id_eq hbefore hexisting
      (hbeforeid.symm.trans (hmiddleid.symm.trans hrowid))
    simp [hid, hnew, of_decide_eq_true hplugin]

end

end

/-! ### Every step -/

section

variable (h : store.Sound)
include h

theorem Sound.createFromFile (data : TypeJson D) :
    (store.createFromFile kind supply data).Sound := by
  unfold TypeStore.createFromFile
  dsimp only
  split_ifs
  · exact (h.insert (Table.fresh_next supply store.types)).update store.files _
  · exact h

theorem Sound.addFromFile (existing : TypeRow F) (data : TypeJson D) :
    (store.addFromFile existing data).Sound := by
  unfold TypeStore.addFromFile
  dsimp only
  split_ifs
  · refine Sound.update ?_ _ _
    exact h.change fun _ htype ↦ htype
  · exact h

theorem Sound.replaceFromFile (existing : TypeRow F) (data : TypeJson D) :
    (store.replaceFromFile kind existing data).Sound := by
  unfold TypeStore.replaceFromFile
  dsimp only
  split_ifs
  · refine Sound.update ?_ _ _
    exact h.change fun _ htype ↦ htype
  · exact h

theorem Sound.syncType (data : TypeJson D) : (store.syncType kind supply data).Sound := by
  unfold TypeStore.syncType
  split
  · exact h.createFromFile data
  · split_ifs
    · exact h.addFromFile _ data
    · exact h.replaceFromFile _ data

theorem Sound.foldl_syncType (files : List (TypeJson D)) :
    (files.foldl (TypeStore.syncType kind supply) store).Sound := by
  induction files generalizing store with
  | nil => exact h
  | cons data rest ih => exact ih (h.syncType data)

variable (id : String)

theorem Sound.resetTypeToDefaults : (store.resetTypeToDefaults kind id).Sound := by
  unfold TypeStore.resetTypeToDefaults
  split
  · exact h
  · next existing hfound =>
    obtain ⟨-, rfl⟩ := Table.find?_eq_some_iff.mp hfound
    split
    · exact h
    · dsimp only
      split_ifs
      · exact (h.forget existing.id (store.change existing _ (by exact fun _ ↦ rfl)).types
          fun row hrow ↦ mem_change_of_ne hrow).update store.files _
      · exact h

theorem Sound.deleteType (inUse : Bool) : (store.deleteType id inUse).Sound := by
  unfold TypeStore.deleteType
  split_ifs
  · exact h
  · refine h.forget id _ fun row hrow ↦ ?_
    simp only [Table.erase, mem_filter]
    exact and_iff_left (decide_eq_true hrow)

theorem Sound.createType (name : String) (body : B) :
    (store.createType kind supply name body).Sound := by
  unfold TypeStore.createType
  split
  · exact h
  · exact h.insert (Table.fresh_next supply store.types)

theorem Sound.exportTypeAsJson : (store.exportTypeAsJson kind id).Sound := by
  unfold TypeStore.exportTypeAsJson
  split
  · exact h
  · exact h.update _ store.minted

theorem Sound.patchType (body : P) : (store.patchType kind id body).Sound := by
  unfold TypeStore.patchType
  split
  · exact h
  · next existing hfound =>
    exact h.markedEdit (Table.find?_eq_some_iff.mp hfound).1 _ fun _ ↦ ⟨rfl, rfl⟩

theorem Sound.addCommand (body : CommandBody) : (store.addCommand id body).Sound := by
  unfold TypeStore.addCommand
  split
  · exact h
  · next existing hfound =>
    split_ifs
    · exact h
    · refine Sound.update ?_ _ _
      exact h.markedEdit (Table.find?_eq_some_iff.mp hfound).1 _ fun _ ↦ ⟨rfl, rfl⟩

end

theorem mem_of_findCommand {id : String} {commandId : ℕ}
    (h : store.findCommand id commandId = some row) : row ∈ store.types.rows :=
  (Table.find?_eq_some_iff.mp (Option.filter_eq_some_iff.mp h).1).1

section

variable (h : store.Sound) (id : String) (commandId : ℕ)
include h

theorem Sound.updateCommand (body : CommandPatch) :
    (store.updateCommand id commandId body).Sound := by
  unfold TypeStore.updateCommand
  split
  · exact h
  · next existing hfound =>
    exact h.markedEdit (mem_of_findCommand hfound) _ fun _ ↦ ⟨rfl, rfl⟩

theorem Sound.deleteCommand : (store.deleteCommand id commandId).Sound := by
  unfold TypeStore.deleteCommand
  split
  · exact h
  · next existing hfound =>
    exact h.markedEdit (mem_of_findCommand hfound) _ fun _ ↦ ⟨rfl, rfl⟩

theorem Sound.reorderCommands (commandIds : List ℕ) :
    (store.reorderCommands id commandIds).Sound := by
  unfold TypeStore.reorderCommands
  split
  · exact h
  · next existing hfound =>
    exact h.unmarkedEdit (Table.find?_eq_some_iff.mp hfound).1 _ fun _ ↦ rfl

end

theorem Sound.next {before after : TypeStore F D} (h : before.Sound) {step : TypeStep B P D}
    (hnext : (typeMachine kind supply).next before step = some after) : after.Sound := by
  cases step with
  | create name body => exact Option.some.inj hnext ▸ h.createType name body
  | patch id body => exact Option.some.inj hnext ▸ h.patchType id body
  | delete id inUse => exact Option.some.inj hnext ▸ h.deleteType id inUse
  | reset id => exact Option.some.inj hnext ▸ h.resetTypeToDefaults id
  | exportJson id => exact Option.some.inj hnext ▸ h.exportTypeAsJson id
  | addCommand id body => exact Option.some.inj hnext ▸ h.addCommand id body
  | updateCommand id commandId body =>
    exact Option.some.inj hnext ▸ h.updateCommand id commandId body
  | deleteCommand id commandId => exact Option.some.inj hnext ▸ h.deleteCommand id commandId
  | reorder id commandIds =>
    obtain ⟨-, rfl⟩ := by simpa [typeMachine] using hnext
    exact h.reorderCommands id commandIds
  | install files => exact Option.some.inj hnext ▸ h.update files before.minted
  | sync => exact Option.some.inj hnext ▸ h.foldl_syncType _

theorem Sound.editsSurvive (h : store.Sound) {step : TypeStep B P D}
    (hstep : FindsMarked kind store step) : EditsSurvive kind supply store step := by
  cases step with
  | sync =>
    intro row hrow hedited
    refine exists_foldl_syncType hrow ?_
    by_cases hmarked : store.Marked row.id
    · exact .inl (h.customized row hrow hmarked)
    · exact .inr (hstep row hrow hedited hmarked)
  | _ => trivial

end TypeStore

variable (kind) in
/-- A check that a sync finds no file for a type that has been edited without a mark. -/
def isFindsMarked (store : TypeStore F D) : TypeStep B P D → Bool
  | .sync => store.types.rows.all fun row ↦
      !(store.edits.map Prod.fst).contains row.id || store.edits.contains (row.id, true) ||
        (loadJsonFiles kind store.files).all (·.name ≠ row.name)
  | _ => true

theorem findsMarked_of_isFindsMarked (store : TypeStore F D) (step : TypeStep B P D)
    (h : isFindsMarked kind store step) : FindsMarked kind store step := by
  cases step with
  | sync =>
    intro row hrow ⟨marks, hedited⟩ hmarked data hdata
    have hcheck := all_eq_true.mp h row hrow
    have hmem : row.id ∈ store.edits.map Prod.fst := mem_map_of_mem hedited
    have hnot : (row.id, true) ∉ store.edits := hmarked
    simp only [contains_iff_mem.mpr hmem, Bool.not_true, Bool.false_or, Bool.or_eq_true,
      contains_iff_mem, hnot, false_or, all_eq_true] at hcheck
    exact of_decide_eq_true (hcheck data hdata)
  | _ => trivial

/-- In every run in which no sync finds a file for a type that has been edited without a mark, every
sync keeps every type that has been edited. -/
theorem meets_editsSurvive (types : Table (TypeRow F))
    (files : OrderedMap String (Option (TypeJson D))) (minted : ℕ) {steps : List (TypeStep B P D)}
    (h : (typeMachine kind supply).Meets (FindsMarked kind) (.initial types files minted) steps) :
    (typeMachine kind supply).Meets (EditsSurvive kind supply) (.initial types files minted) steps :=
  Machine.meets_of_invariant (fun _ _ hsound hstep ↦ TypeStore.Sound.editsSurvive hsound hstep)
    (fun _ _ _ hsound _ hnext ↦ TypeStore.Sound.next hsound hnext)
    ⟨fun _ _ hmarked ↦ absurd hmarked not_mem_nil, nofun⟩ h

/-! ### A type whose commands are reordered -/

def djangoFile : TypeJson ServiceTypeFields where
  name := "django"
  definition := { displayName := "Django" }
  commands :=
    [{ name := "shell", displayName := "Shell", command := "python manage.py shell"
       description := none, sortOrder := none },
      { name := "migrate", displayName := "Migrate", command := "python manage.py migrate"
        description := none, sortOrder := none }]

def djangoType : TypeRow ServiceTypeFields where
  id := "t1"
  name := "django"
  source := .plugin
  isCustomized := false
  fields := { displayName := "Django" }
  commands := definedCommands 0 djangoFile

def djangoStore : TypeStore ServiceTypeFields ServiceTypeFields :=
  .initial ⟨[djangoType], nodup_singleton _⟩ (OrderedMap.empty.set "django.json" djangoFile) 2

/-- A sync replaces commands that an admin has reordered. -/
theorem not_meets_editsSurvive :
    ¬ (typeMachine serviceTypes .longer).Meets (EditsSurvive serviceTypes .longer) djangoStore
      [.reorder "t1" [1, 0], .sync] := by
  intro ⟨_, hreorder⟩
  obtain ⟨hsync, -⟩ := hreorder _ rfl
  obtain ⟨after, hafter, added, rfl, -⟩ := hsync
    { djangoType with commands := TypeStore.reordered djangoType.commands [1, 0] }
    (mem_singleton_self _) ⟨false, mem_singleton_self _⟩
  have hreplaced : ∀ row ∈ ((djangoStore.reorderCommands "t1" [1, 0]).syncTypes serviceTypes
      .longer).types.rows, ¬ TypeStore.reordered djangoType.commands [1, 0] <+: row.commands := by
    decide +kernel
  exact hreplaced _ hafter (prefix_append _ _)

def postgresFile : TypeJson DatabaseTypeJson where
  name := "postgres"
  definition := ⟨⟨"PostgreSQL", "[]", some "pg_dump", none, some 5432⟩, none⟩
  commands := []

def postgresType : TypeRow DatabaseTypeFields where
  id := "t2"
  name := "postgres"
  source := .plugin
  isCustomized := false
  fields := databaseTypes.ofJson postgresFile.definition
  commands := []

def postgresStore : TypeStore DatabaseTypeFields DatabaseTypeJson :=
  .initial ⟨[postgresType], nodup_singleton _⟩ (OrderedMap.empty.set "postgres.json" postgresFile) 0

/-- A sync keeps the types of either kind whose names an admin has changed. -/
theorem meets_editsSurvive_patched :
    (typeMachine serviceTypes .longer).Meets (EditsSurvive serviceTypes .longer) djangoStore
        [.patch "t1" { displayName := some "Django app" }, .reorder "t1" [1, 0], .sync] ∧
      (typeMachine databaseTypes .longer).Meets (EditsSurvive databaseTypes .longer) postgresStore
        [.patch "t2" ⟨some "Postgres", none, some none, none, none⟩, .sync] := by
  constructor
  · refine meets_editsSurvive ⟨[djangoType], nodup_singleton _⟩ _ 2 ?_
    exact Machine.meets_of_checks findsMarked_of_isFindsMarked (by decide +kernel)
  · refine meets_editsSurvive ⟨[postgresType], nodup_singleton _⟩ _ 0 ?_
    exact Machine.meets_of_checks findsMarked_of_isFindsMarked (by decide +kernel)

end Bridgeport.Plugins
