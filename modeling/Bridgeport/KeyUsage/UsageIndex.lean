import Bridgeport.KeyUsage.UsageRoutes

/-!
# Usage rows in step with the files

A config file refers to the keys of its content and of its fragments (`RefersTo`). The usage rows
are in step with the files in every state that requests reach one after another (`usageRowsInStep`),
as long as each of them meets `KeepsUsage`: a restore and a config scan, which look at the own
content only, write files whose fragments refer to no other key; a PATCH of a fragment changes no
key of a file that includes it; and a secret or var is deleted while no file refers to it.
-/

namespace Bridgeport.KeyUsage

open ConfigScan (isTerminator substituteFullValue)
open Foundation List Option
open Secrets (Text isKeyChar isKeyStart placeholder readPlaceholder validKey)

variable {file : ConfigFileRow} {fragments : List Text}

theorem mem_referencedKeys {key : Text} :
    key ∈ referencedKeys file fragments ↔ file.isBinary = false ∧
      key ∈ extractReferencedKeys (buildScanContent fragments file.content) := by
  unfold referencedKeys
  cases file.isBinary with
  | true | false => simp

/-- What stands behind a line break keeps its keys. -/
theorem extractReferencedKeys_append (before content : Text) :
    extractReferencedKeys content ⊆ extractReferencedKeys (before ++ '\n' :: content) := by
  intro key hkey
  unfold extractReferencedKeys at hkey ⊢
  rw [mem_dedup, mem_filter] at hkey ⊢
  refine ⟨?_, hkey.2⟩
  have htails : ∀ read : Text → Option Text, key ∈ content.tails.filterMap read →
      key ∈ (before ++ '\n' :: content).tails.filterMap read := by
    intro read h
    obtain ⟨tail, htail, hread⟩ := mem_filterMap.mp h
    refine mem_filterMap.mpr ⟨tail, (mem_tails _ _).mpr ?_, hread⟩
    exact ((mem_tails _ _).mp htail).trans ⟨before ++ ['\n'], by simp⟩
  have hlines : key ∈ (content.splitOnP isTerminator).filterMap readAssignedKey →
      key ∈ ((before ++ '\n' :: content).splitOnP isTerminator).filterMap readAssignedKey := by
    rw [splitOnP_append_cons before content (by decide), filterMap_append, mem_append]
    exact .inr
  simp only [mem_append] at hkey ⊢
  exact hkey.1.imp (Or.imp (Or.imp (htails _) (htails _)) (htails _)) hlines

theorem subset_buildScanContent (fragments : List Text) (content : Text) :
    extractReferencedKeys content ⊆ extractReferencedKeys (buildScanContent fragments content) := by
  unfold buildScanContent
  dsimp only
  split_ifs
  · exact List.Subset.refl _
  · exact extractReferencedKeys_append _ content

variable {usage : List UsageRow} {keys : List Text}

/-- The rows after a sync: those of the file are its keys, and the others stay as they are. -/
theorem mem_syncUsage
    (howner : ∀ row ∈ usage, row.configFileId = file.id → row.environmentId = file.environmentId)
    (row : UsageRow) : row ∈ syncUsage usage file keys ↔
      if row.configFileId = file.id then row.environmentId = file.environmentId ∧ row.key ∈ keys
      else row ∈ usage := by
  -- a key has a row of the file before the sync or it does not
  have hexisting : ∀ key, key ∈ (usage.filter (·.configFileId = file.id)).map (·.key) ↔
      ⟨file.environmentId, key, file.id⟩ ∈ usage := by
    intro key
    rw [List.mem_map]
    constructor
    · intro ⟨other, hother, hkey⟩
      obtain ⟨hmem, hfile⟩ := mem_filter.mp hother
      rw [decide_eq_true_eq] at hfile
      rw [← hkey, ← howner other hmem hfile, ← hfile]
      exact hmem
    · intro hmem
      exact ⟨_, mem_filter.mpr ⟨hmem, decide_eq_true rfl⟩, rfl⟩
  obtain ⟨environmentId, key, configFileId⟩ := row
  simp only [syncUsage, mem_append, mem_filter, List.mem_map, hexisting, decide_eq_true_eq,
    UsageRow.mk.injEq]
  split_ifs with hfile
  · subst hfile
    constructor
    · rintro (⟨hmem, hkept⟩ | ⟨created, ⟨hkey, -⟩, rfl, rfl, -⟩)
      · have henvironment : environmentId = file.environmentId := howner _ hmem rfl
        subst henvironment
        refine ⟨rfl, ?_⟩
        by_contra hkey
        exact hkept ⟨rfl, hmem, hkey⟩
      · exact ⟨rfl, hkey⟩
    · rintro ⟨rfl, hkey⟩
      by_cases hmem : ⟨file.environmentId, key, file.id⟩ ∈ usage
      · exact .inl ⟨hmem, fun hdelete ↦ hdelete.2.2 hkey⟩
      · exact .inr ⟨key, ⟨hkey, hmem⟩, rfl, rfl, rfl⟩
  · constructor
    · rintro (⟨hmem, -⟩ | ⟨created, -, -, -, hid⟩)
      · exact hmem
      · exact absurd hid.symm hfile
    · intro hmem
      exact .inl ⟨hmem, fun hdelete ↦ hfile hdelete.1⟩

/-! ### The invariant -/

namespace UsageStore

variable (store : UsageStore)

/-- The file is text, and the key occurs in its content or in the current contents of its
fragments. -/
def RefersTo (file : ConfigFileRow) (key : Text) : Prop :=
  file.isBinary = false ∧
    key ∈ extractReferencedKeys (buildScanContent (store.includedFragments file) file.content)

/-- The rows belong to stored files, and a file has the rows of its keys. -/
structure InStep (usage : List UsageRow) : Prop where
  owner : ∀ row ∈ usage, ∃ file, store.files.find? row.configFileId = some file ∧
    row.environmentId = file.environmentId
  mem_iff : ∀ id file key, store.files.find? id = some file →
    (⟨file.environmentId, key, id⟩ ∈ usage ↔ store.RefersTo file key)

def Included : Prop :=
  ∀ id file, store.files.find? id = some file → ∀ fragmentId ∈ file.fragmentIds,
    (store.fragments.find? fragmentId).isSome

/-- The usage rows of both types are in step with the files. -/
structure Indexed : Prop where
  inStep : ∀ type, store.InStep (store.usage type)
  included : store.Included

end UsageStore

section

variable {store after : UsageStore}

theorem refersTo_congr (hfragments : after.fragments = store.fragments) (file : ConfigFileRow)
    (key : Text) : after.RefersTo file key ↔ store.RefersTo file key := by
  unfold UsageStore.RefersTo UsageStore.includedFragments
  rw [hfragments]

/-- The rows of a table after the rows of one file have been brought in line with its keys. -/
theorem inStep_sync (h : store.InStep usage) (hfiles : ∀ id, after.files.find? id =
      if file.id = id then some file else store.files.find? id)
    (hfragments : after.fragments = store.fragments)
    (hsame : ∀ old, store.files.find? file.id = some old → old.environmentId = file.environmentId)
    (hkeys : ∀ key, key ∈ keys ↔ after.RefersTo file key) :
    after.InStep (syncUsage usage file keys) := by
  have howner : ∀ row ∈ usage, row.configFileId = file.id →
      row.environmentId = file.environmentId := by
    intro row hrow hid
    obtain ⟨old, hold, henvironment⟩ := h.owner row hrow
    rw [hid] at hold
    exact henvironment.trans (hsame old hold)
  constructor
  · intro row hrow
    rw [mem_syncUsage howner] at hrow
    rw [hfiles]
    by_cases hid : row.configFileId = file.id
    · rw [if_pos hid] at hrow
      rw [if_pos hid.symm]
      exact ⟨file, rfl, hrow.1⟩
    · rw [if_neg hid] at hrow
      rw [if_neg (Ne.symm hid)]
      exact h.owner row hrow
  · intro id found key hfound
    rw [hfiles] at hfound
    rw [mem_syncUsage howner]
    dsimp only
    by_cases hid : file.id = id
    · rw [if_pos hid] at hfound
      obtain rfl := some.inj hfound
      rw [if_pos hid.symm, ← hkeys]
      simp
    · rw [if_neg hid] at hfound
      rw [if_neg (Ne.symm hid), refersTo_congr hfragments]
      exact h.mem_iff id found key hfound

/-- Both tables after the rows of one file have been brought in line with its keys. -/
theorem indexed_sync (h : store.Indexed) {written : UsageStore}
    (hfiles : ∀ id, written.files.find? id =
      if file.id = id then some file else store.files.find? id)
    (hfragments : written.fragments = store.fragments)
    (husage : ∀ type, written.usage type = store.usage type)
    (hsame : ∀ old, store.files.find? file.id = some old → old.environmentId = file.environmentId)
    (hincluded : ∀ id ∈ file.fragmentIds, (store.fragments.find? id).isSome)
    (hkeys : ∀ key, key ∈ referencedKeys file fragments ↔ store.RefersTo file key) :
    (written.syncUsageForConfigFile file fragments).Indexed := by
  constructor
  · intro type
    have hsync : (written.syncUsageForConfigFile file fragments).usage type =
        syncUsage (store.usage type) file (referencedKeys file fragments) := by
      rw [← husage]
      cases type with
      | secret | var => rfl
    rw [hsync]
    exact inStep_sync (h.inStep type) hfiles hfragments hsame fun key ↦
      (hkeys key).trans (refersTo_congr hfragments file key).symm
  · intro id found hfound fragmentId hfragment
    have hfound : written.files.find? id = some found := hfound
    rw [hfiles] at hfound
    show (written.fragments.find? fragmentId).isSome
    rw [hfragments]
    split_ifs at hfound with hid
    · obtain rfl := some.inj hfound
      exact hincluded fragmentId hfragment
    · exact h.included id found hfound fragmentId hfragment

variable {id : String}

theorem indexed_writeFile {change : ConfigFileRow → ConfigFileRow}
    {hid : ∀ row, Keyed.id (change row) = Keyed.id row} (h : store.Indexed)
    (hfound : store.files.find? id = some file)
    (henvironment : (change file).environmentId = file.environmentId)
    (hincluded : ∀ fragmentId ∈ (change file).fragmentIds,
      (store.fragments.find? fragmentId).isSome)
    (hkeys : ∀ key, key ∈ referencedKeys (change file) fragments ↔
      store.RefersTo (change file) key) :
    (store.writeFile id change hid file fragments).Indexed := by
  have hfile : (change file).id = id := (hid file).trans (Table.find?_eq_some_iff.mp hfound).2
  refine indexed_sync h (fun other ↦ ?_) rfl (fun _ ↦ rfl) (fun old hold ↦ ?_) hincluded hkeys
  · rw [hfile, Table.find?_update]
    by_cases hother : id = other
    · rw [if_pos hother, if_pos hother, ← hother, hfound]
      rfl
    · rw [if_neg hother, if_neg hother]
  · rw [hfile, hfound] at hold
    rw [henvironment, some.inj hold]

theorem UsageStore.InStep.congr (h : store.InStep usage) (hfiles : after.files = store.files)
    (hrefers : ∀ id file, store.files.find? id = some file → ∀ key,
      (after.RefersTo file key ↔ store.RefersTo file key)) : after.InStep usage := by
  constructor
  · rw [hfiles]
    exact h.owner
  · intro id file key hfile
    rw [hfiles] at hfile
    rw [hrefers id file hfile]
    exact h.mem_iff id file key hfile

/-- A change that leaves the files, the rows and the keys of the files as they are. -/
theorem UsageStore.Indexed.congr (h : store.Indexed) (hfiles : after.files = store.files)
    (husage : ∀ type, after.usage type = store.usage type)
    (hrefers : ∀ id file, store.files.find? id = some file → ∀ key,
      (after.RefersTo file key ↔ store.RefersTo file key))
    (hincluded : after.Included) : after.Indexed := by
  refine ⟨fun type ↦ ?_, hincluded⟩
  rw [husage]
  exact (h.inStep type).congr hfiles hrefers

theorem UsageStore.Indexed.saveHistory (h : store.Indexed) (file : ConfigFileRow) :
    (store.saveHistory file).Indexed :=
  h.congr rfl (fun _ ↦ rfl) (fun _ _ _ _ ↦ Iff.rfl) h.included

variable {fragmentIds : List String} {environmentId : String}

theorem isSome_of_validFragmentIds (h : store.validFragmentIds fragmentIds environmentId) :
    ∀ id ∈ fragmentIds, (store.fragments.find? id).isSome := by
  intro id hid
  have hvalid := (of_decide_eq_true h).2 id hid
  obtain ⟨fragment, hfragment, -⟩ := (Option.any_eq_true _ _).mp hvalid
  rw [hfragment]
  rfl

theorem indexed_createFile (h : store.Indexed) (environmentId id : String) (body : CreateFileBody) :
    (store.createFile environmentId id body).Indexed := by
  unfold UsageStore.createFile
  split_ifs with hbinary hinvalid hused
  · exact h
  · exact h
  · have hfresh : store.files.Fresh id := hused
    -- the fragments are stored and belong to the environment
    have hvalid : body.fragmentIds = [] ∨
      store.validFragmentIds body.fragmentIds environmentId := by
      by_cases hnone : body.fragmentIds = []
      · exact .inl hnone
      · exact .inr (by simpa [hnone] using hinvalid)
    refine indexed_sync h (fun other ↦ Table.find?_insert hfresh other) rfl (fun _ ↦ rfl)
      (fun old hold ↦ absurd hfresh (Table.not_fresh_of_find? hold)) ?_ fun key ↦ ?_
    · rcases hvalid with hnone | hvalid
      · simp [hnone]
      · exact isSome_of_validFragmentIds hvalid
    · have hfragments : (body.fragmentIds.filterMap fun id ↦ ((store.fragments.find? id).filter
          (·.environmentId = environmentId)).map (·.content)) =
          body.fragmentIds.filterMap fun id ↦ (store.fragments.find? id).map (·.content) := by
        rcases hvalid with hnone | hvalid
        · simp [hnone]
        · refine filterMap_congr fun id hid ↦ ?_
          obtain ⟨fragment, hfragment, henvironment⟩ :=
            (Option.any_eq_true _ _).mp ((of_decide_eq_true hvalid).2 id hid)
          rw [hfragment, filter_some, if_pos henvironment]
      rw [hfragments]
      exact mem_referencedKeys
  · exact h

theorem indexed_writePatch {existing : ConfigFileRow} {body : PatchFileBody} (h : store.Indexed)
    (hfound : store.files.find? id = some existing)
    (hstored : ∀ fragmentId ∈ body.fragmentIds.getD [], (store.fragments.find? fragmentId).isSome) :
    (store.writeFile id body.apply (fun _ ↦ rfl) existing
      (store.includedFragments (body.apply existing))).Indexed := by
  refine indexed_writeFile h hfound rfl (fun fragmentId hfragment ↦ ?_) fun key ↦ mem_referencedKeys
  cases hgiven : body.fragmentIds with
  | none =>
    rw [PatchFileBody.apply, hgiven] at hfragment
    exact h.included id existing hfound fragmentId hfragment
  | some fragmentIds =>
    rw [PatchFileBody.apply, hgiven] at hfragment
    rw [hgiven] at hstored
    exact hstored fragmentId hfragment

theorem indexed_patchFile (h : store.Indexed) (id : String) (body : PatchFileBody) :
    (store.patchFile id body).Indexed := by
  unfold UsageStore.patchFile
  cases hfound : store.files.find? id with
  | none => exact h
  | some existing =>
    dsimp only
    have hstored : ¬ (body.fragmentIds.getD [] ≠ [] ∧
        ¬ store.validFragmentIds (body.fragmentIds.getD []) existing.environmentId) →
        ∀ fragmentId ∈ body.fragmentIds.getD [], (store.fragments.find? fragmentId).isSome := by
      intro hinvalid
      by_cases hnone : body.fragmentIds.getD [] = []
      · simp [hnone]
      · exact isSome_of_validFragmentIds (by simpa [hnone] using hinvalid)
    split_ifs with hbinary hempty hinvalid hchanges hgiven hgiven
    · exact h
    · exact h
    · exact h
    · exact indexed_writePatch (h.saveHistory existing) hfound (hstored hinvalid)
    · exact indexed_writePatch h hfound (hstored hinvalid)
    · exact h.saveHistory existing
    · exact h

/-- The fragments refer to no key to which the content does not refer. -/
def UsageStore.OwnKeysOnly (store : UsageStore) (file : ConfigFileRow) : Prop :=
  ∀ key, store.RefersTo file key → key ∈ extractReferencedKeys file.content

theorem mem_referencedKeys_of_ownKeysOnly (h : store.OwnKeysOnly file) (key : Text) :
    key ∈ referencedKeys file [] ↔ store.RefersTo file key := by
  rw [mem_referencedKeys]
  constructor
  · intro ⟨htext, hkey⟩
    exact ⟨htext, subset_buildScanContent _ file.content hkey⟩
  · intro hrefers
    exact ⟨hrefers.1, h key hrefers⟩

variable {content : Text}

/-- A file whose fragments do not count gets another content. -/
theorem indexed_withContent (h : store.Indexed) (hfound : store.files.find? id = some file)
    (hkeys : store.OwnKeysOnly (file.withContent content)) :
    (store.writeFile id (.withContent content) (fun _ ↦ rfl) file []).Indexed :=
  indexed_writeFile h hfound rfl (h.included id file hfound)
    (mem_referencedKeys_of_ownKeysOnly hkeys)

theorem indexed_restoreFile (h : store.Indexed) {historyId : ℕ}
    (hkeys : ∀ file entry, store.files.find? id = some file →
      store.history[historyId]? = some entry →
      entry.configFileId = id → store.OwnKeysOnly (file.withContent entry.content)) :
    (store.restoreFile id historyId).Indexed := by
  unfold UsageStore.restoreFile
  cases hfound : store.files.find? id with
  | none => exact h
  | some file =>
    cases hentry : store.history[historyId]? with
    | none => exact h
    | some entry =>
      dsimp only
      split_ifs with hfile
      · exact h
      · exact indexed_withContent (h.saveHistory file) hfound
          (hkeys file entry hfound hentry (not_not.mp hfile))

theorem indexed_replaceAsset (h : store.Indexed) (id : String) (content : Text) :
    (store.replaceAsset id content).Indexed := by
  unfold UsageStore.replaceAsset
  cases hfound : store.files.find? id with
  | none => exact h
  | some file =>
    dsimp only
    split_ifs with htext
    · exact h
    · exact indexed_withContent (h.saveHistory file) hfound fun key hrefers ↦ absurd hrefers.1 htext

/-! ### Keys, fragments and scans -/

variable {type : KeyType}

theorem indexed_createKey (h : store.Indexed) {key : Text}
    (hcreated : store.createKey type environmentId id key = some after) :
    after.Indexed ∧ after.files = store.files ∧ after.fragments = store.fragments := by
  unfold UsageStore.createKey at hcreated
  split_ifs at hcreated
  cases type with
  | secret | var =>
    obtain rfl := some.inj hcreated
    exact ⟨h.congr rfl (fun type ↦ by cases type <;> rfl) (fun _ _ _ _ ↦ Iff.rfl) h.included, rfl, rfl⟩

theorem indexed_createFragment (h : store.Indexed) (environmentId id : String) (content : Text) :
    (store.createFragment environmentId id content).Indexed := by
  have hkeeps : ∀ fragmentId, (store.fragments.find? fragmentId).isSome →
      (store.createFragment environmentId id content).fragments.find? fragmentId =
        store.fragments.find? fragmentId := by
    intro fragmentId hstored
    obtain ⟨fragment, hfragment⟩ := isSome_iff_exists.mp hstored
    rw [hfragment]
    exact (Table.extends_insert store.fragments _).find?_eq hfragment
  refine h.congr rfl (fun _ ↦ rfl) (fun fileId file hfile key ↦ ?_) fun fileId file hfile fragmentId
    hfragment ↦ ?_
  · have hcontents : (store.createFragment environmentId id content).includedFragments file =
        store.includedFragments file := by
      refine filterMap_congr fun fragmentId hfragment ↦ ?_
      rw [hkeeps fragmentId (h.included fileId file hfile fragmentId hfragment)]
    unfold UsageStore.RefersTo
    rw [hcontents]
  · have hstored := h.included fileId file hfile fragmentId hfragment
    rw [hkeeps fragmentId hstored]
    exact hstored

theorem indexed_patchFragment (h : store.Indexed)
    (hkeys : ∀ fileId file, store.files.find? fileId = some file → ∀ key,
      ((store.patchFragment id content).RefersTo file key ↔ store.RefersTo file key)) :
    (store.patchFragment id content).Indexed := by
  refine h.congr rfl (fun _ ↦ rfl) hkeys fun fileId file hfile fragmentId hfragment ↦ ?_
  have hstored := h.included fileId file hfile fragmentId hfragment
  have hupdate : (store.patchFragment id content).fragments.find? fragmentId = _ :=
    Table.find?_update store.fragments id ({ · with content }) (fun _ ↦ rfl) fragmentId
  rw [hupdate]
  split_ifs
  · rw [isSome_map]
    exact hstored
  · exact hstored

theorem inStep_withoutKey {row : KeyRow} (h : store.InStep usage)
    (hunused : ∀ id file, store.files.find? id = some file →
      file.environmentId = row.environmentId → ¬ store.RefersTo file row.key) :
    store.InStep (UsageStore.withoutKey row usage) := by
  unfold UsageStore.withoutKey
  constructor
  · intro entry hentry
    exact h.owner entry (mem_filter.mp hentry).1
  · intro id file key hfile
    rw [mem_filter, h.mem_iff id file key hfile]
    refine and_iff_left_of_imp fun hrefers ↦ decide_eq_true ?_
    rintro ⟨henvironment, rfl⟩
    exact hunused id file hfile henvironment hrefers

theorem indexed_deleteKey (h : store.Indexed)
    (hunused : ∀ row, (store.keys type).find? id = some row → ∀ fileId file,
      store.files.find? fileId = some file → file.environmentId = row.environmentId →
        ¬ store.RefersTo file row.key) : (store.deleteKey type id).Indexed := by
  unfold UsageStore.deleteKey
  cases hrow : (store.keys type).find? id with
  | none => exact h
  | some row =>
    have hrows : ∀ other, store.InStep (UsageStore.withoutKey row (store.usage other)) :=
      fun other ↦ inStep_withoutKey (h.inStep other) (hunused row hrow)
    cases type with
    | secret =>
      refine ⟨fun other ↦ ?_, h.included⟩
      cases other with
      | secret => exact (hrows .secret).congr rfl fun _ _ _ _ ↦ Iff.rfl
      | var => exact (h.inStep .var).congr rfl fun _ _ _ _ ↦ Iff.rfl
    | var =>
      refine ⟨fun other ↦ ?_, h.included⟩
      cases other with
      | secret => exact (h.inStep .secret).congr rfl fun _ _ _ _ ↦ Iff.rfl
      | var => exact (hrows .var).congr rfl fun _ _ _ _ ↦ Iff.rfl

/-- A config scan leaves the fragments alone, and all files but one. -/
theorem applyToFile_frame (store : UsageStore) (value substitute : Text) (file : ConfigFileRow) :
    (store.applyToFile value substitute file).fragments = store.fragments ∧
      ∀ id, file.id ≠ id →
        (store.applyToFile value substitute file).files.find? id = store.files.find? id := by
  unfold UsageStore.applyToFile
  dsimp only
  split_ifs
  · exact ⟨rfl, fun _ _ ↦ rfl⟩
  · refine ⟨rfl, fun id hid ↦ ?_⟩
    exact (Table.find?_update store.files file.id (.withContent _) (fun _ ↦ rfl) id).trans
      (if_neg hid)

theorem indexed_applyToFiles {value substitute : Text} {files : List ConfigFileRow}
    (h : store.Indexed) (hnodup : (files.map (·.id)).Nodup)
    (hfound : ∀ file ∈ files, store.files.find? file.id = some file)
    (hkeys : ∀ file ∈ files, (substituteFullValue file.content value substitute).replacements ≠ 0 →
      store.OwnKeysOnly (file.withContent
        (substituteFullValue file.content value substitute).newContent)) :
    (store.applyToFiles value substitute files).Indexed := by
  induction files generalizing store with
  | nil => exact h
  | cons file rest ih =>
    obtain ⟨hfragments, hothers⟩ := applyToFile_frame store value substitute file
    obtain ⟨hnew, hrest⟩ := nodup_cons.mp hnodup
    show ((store.applyToFile value substitute file).applyToFiles value substitute rest).Indexed
    refine ih ?_ hrest (fun other hother ↦ ?_) fun other hother hreplaced key hrefers ↦ ?_
    · unfold UsageStore.applyToFile
      dsimp only
      split_ifs with hnone
      · exact h
      · exact indexed_withContent (h.saveHistory file) (hfound file mem_cons_self)
          (hkeys file mem_cons_self hnone)
    · have hne : file.id ≠ other.id := fun hsame ↦
        hnew (mem_map.mpr ⟨other, hother, hsame.symm⟩)
      rw [hothers other.id hne]
      exact hfound other (mem_cons_of_mem file hother)
    · rw [refersTo_congr hfragments] at hrefers
      exact hkeys other (mem_cons_of_mem file hother) hreplaced key hrefers

/-- What a request must meet: the writers that look at the own content only find no other key in the
fragments, a fragment changes no key of a file, and a key that is deleted is not in use. -/
def KeepsUsage (store : UsageStore) : Request → Prop
  | .restoreFile id historyId => ∀ file entry, store.files.find? id = some file →
      store.history[historyId]? = some entry → entry.configFileId = id →
        store.OwnKeysOnly (file.withContent entry.content)
  | .applyScan environmentId _ key value fileIds _ _ =>
    ∀ file ∈ store.textFiles environmentId fileIds,
      (substituteFullValue file.content value (placeholder key)).replacements ≠ 0 →
        store.OwnKeysOnly (file.withContent
          (substituteFullValue file.content value (placeholder key)).newContent)
  | .patchFragment id content => ∀ fileId file, store.files.find? fileId = some file → ∀ key,
      ((store.patchFragment id content).RefersTo file key ↔ store.RefersTo file key)
  | .deleteKey type id => ∀ row, (store.keys type).find? id = some row → ∀ fileId file,
      store.files.find? fileId = some file → file.environmentId = row.environmentId →
        ¬ store.RefersTo file row.key
  | _ => True

theorem indexed_applyScan (h : store.Indexed) {key value : Text} {fileIds : List String}
    {existingSecretId : Option String} (hkeys : KeepsUsage store
      (.applyScan environmentId type key value fileIds existingSecretId id)) :
    (store.applyScan environmentId type key value fileIds existingSecretId id).Indexed := by
  unfold UsageStore.applyScan
  cases hcreated : (if existingSecretId.any (· ≠ "") then some store
      else store.createKey type environmentId id key) with
  | none => exact h
  | some created =>
    have hsame : created.Indexed ∧ created.files = store.files ∧
        created.fragments = store.fragments := by
      split_ifs at hcreated
      · obtain rfl := some.inj hcreated
        exact ⟨h, rfl, rfl⟩
      · exact indexed_createKey h hcreated
    obtain ⟨hindexed, hfiles, hfragments⟩ := hsame
    have htext : created.textFiles environmentId fileIds =
        store.textFiles environmentId fileIds := by
      rw [UsageStore.textFiles, hfiles]
      rfl
    dsimp only
    rw [htext]
    refine indexed_applyToFiles hindexed ?_ (fun file hfile ↦ ?_) fun file hfile hreplaced other
      hrefers ↦ ?_
    · exact store.files.nodup_ids.sublist (filter_sublist.map _)
    · rw [hfiles]
      exact Table.find?_of_mem (mem_filter.mp hfile).1
    · rw [refersTo_congr hfragments] at hrefers
      exact hkeys file hfile hreplaced other hrefers

/-- A request that meets the condition keeps the rows in step. -/
theorem indexed_handle (h : store.Indexed) {request : Request} (hkeeps : KeepsUsage store request) :
    (store.handle request).Indexed := by
  cases request with
  | createFile environmentId id body => exact indexed_createFile h environmentId id body
  | patchFile id body => exact indexed_patchFile h id body
  | restoreFile id historyId => exact indexed_restoreFile h hkeeps
  | replaceAsset id content => exact indexed_replaceAsset h id content
  | applyScan environmentId type key value fileIds existingSecretId id =>
    exact indexed_applyScan h hkeeps
  | createFragment environmentId id content =>
    exact indexed_createFragment h environmentId id content
  | patchFragment id content => exact indexed_patchFragment h hkeeps
  | createKey type environmentId id key =>
    cases hcreated : store.createKey type environmentId id key with
    | none =>
      rw [UsageStore.handle, hcreated]
      exact h
    | some created =>
      rw [UsageStore.handle, hcreated]
      exact (indexed_createKey h hcreated).1
  | deleteKey type id => exact indexed_deleteKey h hkeeps

theorem indexed_empty : UsageStore.empty.Indexed where
  inStep type := by
    cases type <;> exact ⟨fun row hrow ↦ absurd hrow not_mem_nil, fun id file key hfile ↦
      absurd hfile nofun⟩
  included id file hfile := absurd hfile nofun

end

/-- Every key of a type and every config file of its environment: there is a usage row if and only
if the file refers to the key. -/
def UsageRowsInStep (store : UsageStore) : Prop :=
  ∀ type, ∀ row ∈ (store.keys type).rows, ∀ file ∈ store.files.rows,
    file.environmentId = row.environmentId →
      (⟨row.environmentId, row.key, file.id⟩ ∈ store.usage type ↔ file.isBinary = false ∧
        row.key ∈ extractReferencedKeys
          (buildScanContent (store.includedFragments file) file.content))

/-- The usage rows are in step with the files in every state that is reached from the empty store by
requests one after another. Assumes: every request meets the condition. -/
theorem usageRowsInStep (requests : List Request) (store : UsageStore)
    (hrun : usageMachine.run .empty requests = some store)
    (hmeets : usageMachine.Meets KeepsUsage .empty requests) : UsageRowsInStep store := by
  have hindexed : store.Indexed := by
    refine Machine.induction_of_meets (motive := fun _ store ↦ store.Indexed) indexed_empty
      (fun _ before request after _ h hkeeps hnext ↦ ?_) hrun hmeets
    obtain rfl := some.inj hnext
    exact indexed_handle h hkeeps
  intro type row _ file hfile henvironment
  rw [← henvironment]
  exact (hindexed.inStep type).mem_iff file.id file row.key (Table.find?_of_mem hfile)

def fragmentRequests : List Request :=
  [.createFragment "production" "fragment" "token=${TOKEN}".toList,
    .createKey .secret "production" "secret" "TOKEN".toList,
    .createFile "production" "file" ⟨"port=80".toList, false, ["fragment"]⟩]

def patchRequests : List Request :=
  fragmentRequests ++ [.patchFile "file" ⟨some "port=81".toList, none, none⟩]

def restoreRequests : List Request :=
  patchRequests ++ [.restoreFile "file" 0]

def tokenSecret : KeyRow :=
  ⟨"secret", "production", "TOKEN".toList⟩

def fileWithFragment (content : Text) : ConfigFileRow :=
  ⟨"file", "production", content, false, ["fragment"]⟩

/-- The file refers to the secret through its fragment, but its usage row is gone. -/
theorem not_usageRowsInStep_restore : ∃ store,
    usageMachine.run .empty restoreRequests = some store ∧ ¬ UsageRowsInStep store := by
  refine ⟨_, rfl, fun h ↦ ?_⟩
  have hrow := h .secret tokenSecret (mem_singleton.mpr rfl)
    (fileWithFragment "port=80".toList) (mem_singleton.mpr rfl) rfl
  exact absurd (hrow.mpr ⟨rfl, by decide⟩) (by decide)

/-- The content of a file with a fragment is changed. -/
theorem usageRowsInStep_patch : ∃ store, usageMachine.run .empty patchRequests = some store ∧
    UsageRowsInStep store := by
  refine ⟨_, rfl, usageRowsInStep patchRequests _ rfl ?_⟩
  exact ⟨trivial, fun _ _ ↦ ⟨trivial, fun _ _ ↦ ⟨trivial, fun _ _ ↦ ⟨trivial, fun _ _ ↦ trivial⟩⟩⟩⟩

end Bridgeport.KeyUsage
