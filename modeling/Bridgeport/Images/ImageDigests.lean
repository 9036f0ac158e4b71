import Bridgeport.ConfigSync.SyncConfigFile
import Bridgeport.Foundation.SortedPrefix
import Bridgeport.Foundation.Trimming

/-!
# The digests of an image

`syncDigestsFromRegistry` groups the tags that the registry lists by digest, keeps the digests with
a tag that matches the tag filter of the image, and updates or creates their rows. It does not touch
the rows of other digests. `recordTagDeployment` looks a tag up in the rows that were pushed last.

The rows of one image are a map from manifest digests to rows, as the pair of the image and the
manifest digest is unique in the table. A column `tags` that holds no JSON is read as an empty list
and stands for one. What no code of this module reads (`lastCheckedAt`, `configDigest`) is left out.

A listed tag belongs to its digest alone after a sync (`PointsToOne`) exactly if no row that the sync
leaves alone has a tag that the registry now lists for another digest, and no tracked digest is
behind 50 others (`pointsToOne_iff`).
-/

namespace Bridgeport.Images

open Foundation ConfigSync List OrderedMap

def parseTagFilter (tagFilter : String) : List (List Char) :=
  ((tagFilter.toList.splitOn ',').map (trimBoth isTrimmed)).filter (·.length > 0)

/-- The class `[a-zA-Z0-9._-]`. -/
def isTagChar (character : Char) : Bool :=
  ('a' ≤ character ∧ character ≤ 'z') ∨ ('A' ≤ character ∧ character ≤ 'Z') ∨
    ('0' ≤ character ∧ character ≤ '9') ∨ character ∈ ['.', '_', '-']

/-- The regular expression of a pattern: `*` is any sequence of the class, and every other character
stands for itself. -/
def matchesPattern : List Char → List Char → Bool
  | [], text => text.isEmpty
  | '*' :: pattern, text => (List.range (text.length + 1)).any fun length ↦
      (text.take length).all isTagChar && matchesPattern pattern (text.drop length)
  | _ :: _, [] => false
  | literal :: pattern, first :: text => literal == first && matchesPattern pattern text

def matchesTagFilter (tag : String) (patterns : List (List Char)) : Bool :=
  patterns.any fun pattern ↦ matchesPattern pattern tag.toList

structure RegistryTag where
  (tag digest : String)
  size : ℕ
  updatedAt : String

/-- What is collected about a digest of the registry. -/
structure DigestInfo where
  tags : List String
  size : ℕ
  updatedAt : String

/-- A row of `ImageDigest`. -/
structure ImageDigest where
  tags : List String
  (size pushedAt : Option ℕ)
  deriving DecidableEq

structure ContainerImage where
  tagFilter : String
  deployedDigest : Option String
  updateAvailable : Bool
  digests : OrderedMap String ImageDigest

/-- The rows of an image with their manifest digests, as a query returns them. -/
abbrev DigestRows : Type :=
  List (String × ImageDigest)

/-! ### The sync -/

def addTag (groups : OrderedMap String DigestInfo) (tag : RegistryTag) :
    OrderedMap String DigestInfo :=
  if tag.digest = "" then groups
  else match groups.get tag.digest with
    | some existing =>
      let tags := existing.tags ++ [tag.tag]
      if tag.updatedAt > existing.updatedAt then
        groups.set tag.digest ⟨tags, if tag.size ≠ 0 then tag.size else existing.size, tag.updatedAt⟩
      else groups.set tag.digest { existing with tags := tags }
    | none => groups.set tag.digest ⟨[tag.tag], tag.size, tag.updatedAt⟩

variable (registryTags : List RegistryTag)

/-- `allByDigest`. -/
def groupByDigest : OrderedMap String DigestInfo :=
  registryTags.foldl addTag OrderedMap.empty

/-- `byDigest`: the digests with a tag that matches the filter. -/
def trackedDigests (patterns : List (List Char)) : List (String × DigestInfo) :=
  (groupByDigest registryTags).entries.filter fun entry ↦
    entry.2.tags.any fun tag ↦ matchesTagFilter tag patterns

/-- `sort()` on a list of tags. -/
def sortTags (tags : List String) : List String :=
  tags.mergeSort fun first second ↦ decide (first ≤ second)

/-- The rows and the counters of the second loop. -/
structure SyncState where
  digests : OrderedMap String ImageDigest
  (newDigests updatedDigests : ℕ)

/-- One digest of the second loop. A date that cannot be parsed makes the `create` throw. -/
def upsertDigest (date : String → Option ℕ) (state : SyncState) (digest : String) (info : DigestInfo) :
    Option SyncState :=
  match state.digests.get digest with
  | some existing =>
    -- both lists are sorted in place
    let tags := sortTags info.tags
    if sortTags existing.tags ≠ tags then
      some { state with
        digests := state.digests.set digest { existing with tags := tags }
        updatedDigests := state.updatedDigests + 1 }
    else some state
  | none => (date info.updatedAt).map fun pushedAt ↦
    { state with
      digests := state.digests.set digest
        ⟨info.tags, if info.size ≠ 0 then some info.size else none, some pushedAt⟩
      newDigests := state.newDigests + 1 }

def upsertDigests (date : String → Option ℕ) : SyncState → List (String × DigestInfo) → Option SyncState
  | state, [] => some state
  | state, (digest, info) :: rest =>
    (upsertDigest date state digest info).bind fun state ↦ upsertDigests date state rest

structure SyncDigestsResult where
  (newDigests updatedDigests : ℕ)
  hasUpdate : Bool
  newestDigest : Option String

/-- `syncDigestsFromRegistry`, with the parser of dates and the order in which the database returns
rows by `pushedAt`. -/
def syncDigestsFromRegistry (date : String → Option ℕ) (byPushedAt : DigestRows → DigestRows)
    (image : ContainerImage) (registryTags : List RegistryTag) :
    Option (ContainerImage × SyncDigestsResult) :=
  let tracked := trackedDigests registryTags (parseTagFilter image.tagFilter)
  (upsertDigests date ⟨image.digests, 0, 0⟩ tracked).map fun state ↦
    let newestDigest := (byPushedAt state.digests.entries).head?.map Prod.fst
    let hasUpdate := newestDigest ≠ none ∧ newestDigest ≠ image.deployedDigest
    ({ image with digests := state.digests, updateAvailable := hasUpdate },
      ⟨state.newDigests, state.updatedDigests, hasUpdate, newestDigest⟩)

/-- A push date is not older than another one; a row without a date is older than all with one. -/
def notOlder : Option ℕ → Option ℕ → Bool
  | _, none => true
  | none, some _ => false
  | some first, some second => second ≤ first

/-- An answer to a query with `orderBy: { pushedAt: 'desc' }`; rows with one date can stand in any
order. -/
def IsByPushedAt (answer rows : DigestRows) : Prop :=
  answer.Perm rows ∧ answer.Pairwise fun first second ↦ notOlder first.2.pushedAt second.2.pushedAt

/-- The digest of a tag in `recordTagDeployment`, from the answer of its query. -/
def resolveTag (answer : DigestRows) (tag : String) : Option String :=
  ((answer.take 50).find? fun row ↦ tag ∈ row.2.tags).map Prod.fst

/-! ### What is collected about a digest -/

def laterDate (newest updatedAt : String) : String :=
  if updatedAt > newest then updatedAt else newest

def listedFor (digest : String) : List RegistryTag :=
  registryTags.filter (·.digest = digest)

def newestUpdate (digest : String) : Option String :=
  match listedFor registryTags digest with
  | [] => none
  | first :: rest => some ((rest.map (·.updatedAt)).foldl laterDate first.updatedAt)

variable {digest : String}

theorem newestUpdate_eq_none_iff {registryTags : List RegistryTag} :
    newestUpdate registryTags digest = none ↔ listedFor registryTags digest = [] := by
  unfold newestUpdate
  cases listedFor registryTags digest with
  | nil | cons _ _ => simp

variable (registryTags : List RegistryTag) (tag : RegistryTag)

theorem newestUpdate_concat (digest : String) : newestUpdate (registryTags ++ [tag]) digest =
      if tag.digest = digest then
        some ((newestUpdate registryTags digest).elim tag.updatedAt (laterDate · tag.updatedAt))
      else newestUpdate registryTags digest := by
  unfold newestUpdate listedFor
  rw [filter_append]
  split_ifs with hdigest
  · simp only [filter_cons, hdigest, decide_true, if_true, filter_nil]
    cases registryTags.filter (·.digest = digest) with
    | nil => rfl
    | cons first rest => simp
  · simp [hdigest]

def DigestInfo.collected (info : DigestInfo) : List String × String :=
  (info.tags, info.updatedAt)

def addCollected (collected : Option (List String × String)) : List String × String :=
  collected.elim ([tag.tag], tag.updatedAt) fun (tags, newest) ↦
    (tags ++ [tag.tag], laterDate newest tag.updatedAt)

theorem get_addTag (groups : OrderedMap String DigestInfo) {tag : RegistryTag}
    (htag : tag.digest ≠ "")
    (digest : String) : ((addTag groups tag).get digest).map DigestInfo.collected =
      if digest = tag.digest then
        some (addCollected tag ((groups.get digest).map DigestInfo.collected))
      else (groups.get digest).map DigestInfo.collected := by
  rw [addTag, if_neg htag]
  cases hexisting : groups.get tag.digest with
  | none =>
    simp only [get_set]
    split_ifs with hdigest
    · rw [hdigest, hexisting]
      rfl
    · rfl
  | some existing =>
    by_cases hlater : tag.updatedAt > existing.updatedAt
    · have hdate : laterDate existing.updatedAt tag.updatedAt = tag.updatedAt := if_pos hlater
      simp only [if_pos hlater, get_set]
      by_cases hdigest : digest = tag.digest
      · simp [hdigest, hexisting, DigestInfo.collected, addCollected, hdate]
      · simp [hdigest]
    · have hdate : laterDate existing.updatedAt tag.updatedAt = existing.updatedAt := if_neg hlater
      simp only [if_neg hlater, get_set]
      by_cases hdigest : digest = tag.digest
      · simp [hdigest, hexisting, DigestInfo.collected, addCollected, hdate]
      · simp [hdigest]

theorem groupByDigest_concat :
    groupByDigest (registryTags ++ [tag]) = addTag (groupByDigest registryTags) tag := by
  rw [groupByDigest, foldl_concat]
  rfl

/-- What the first loop has collected about a digest. -/
theorem get_groupByDigest (hdigest : digest ≠ "") :
    ((groupByDigest registryTags).get digest).map DigestInfo.collected =
      (newestUpdate registryTags digest).map fun updatedAt ↦
        ((listedFor registryTags digest).map (·.tag), updatedAt) := by
  induction registryTags using List.reverseRecOn with
  | nil => rfl
  | append_singleton registryTags tag ih =>
    have hlisted : listedFor (registryTags ++ [tag]) digest =
        listedFor registryTags digest ++ if tag.digest = digest then [tag] else [] := by
      simp only [listedFor, filter_append, filter_cons, filter_nil, decide_eq_true_eq]
    rw [newestUpdate_concat, groupByDigest_concat, hlisted]
    by_cases hempty : tag.digest = ""
    · have hother : tag.digest ≠ digest := fun hsame ↦ hdigest (hsame.symm.trans hempty)
      rw [addTag, if_pos hempty, if_neg hother, if_neg hother, append_nil, ih]
    · rw [get_addTag _ hempty, ih]
      by_cases hsame : tag.digest = digest
      · rw [if_pos hsame.symm, if_pos hsame, if_pos hsame, Option.map_some]
        cases hnewest : newestUpdate registryTags digest with
        | none =>
          have hnone := newestUpdate_eq_none_iff.mp hnewest
          simp [addCollected, hnone]
        | some newest => simp [addCollected]
      · rw [if_neg fun h ↦ hsame h.symm, if_neg hsame, if_neg hsame, append_nil]

theorem get_groupByDigest_empty : (groupByDigest registryTags).get "" = none := by
  induction registryTags using List.reverseRecOn with
  | nil => rfl
  | append_singleton registryTags tag ih =>
    rw [groupByDigest_concat]
    by_cases hempty : tag.digest = ""
    · rw [addTag, if_pos hempty, ih]
    · have hget := get_addTag (groupByDigest registryTags) hempty ""
      rw [if_neg fun h ↦ hempty h.symm, ih] at hget
      exact Option.map_eq_none_iff.mp hget

/-! ### Tags after a sync -/

def Tracked (registryTags : List RegistryTag) (patterns : List (List Char)) (digest : String) : Prop :=
  digest ≠ "" ∧ ∃ tag ∈ registryTags, tag.digest = digest ∧ matchesTagFilter tag.tag patterns

def pushedOn (date : String → Option ℕ) (digests : OrderedMap String ImageDigest)
    (registryTags : List RegistryTag) (digest : String) : Option ℕ :=
  match digests.get digest with
  | some row => row.pushedAt
  | none => (newestUpdate registryTags digest).bind date

section

variable {registryTags : List RegistryTag} {patterns : List (List Char)} {digest : String}
  {info : DigestInfo}

theorem mem_trackedDigests : (digest, info) ∈ trackedDigests registryTags patterns ↔
    (groupByDigest registryTags).get digest = some info ∧
      ∃ tag ∈ info.tags, matchesTagFilter tag patterns := by
  rw [trackedDigests, mem_filter, OrderedMap.mem_entries_iff, any_eq_true]

theorem collected_of_mem (h : (digest, info) ∈ trackedDigests registryTags patterns) :
    digest ≠ "" ∧ info.tags = (listedFor registryTags digest).map (·.tag) ∧
      newestUpdate registryTags digest = some info.updatedAt := by
  obtain ⟨hget, -⟩ := mem_trackedDigests.mp h
  have hdigest : digest ≠ "" := by
    rintro rfl
    nomatch hget.symm.trans (get_groupByDigest_empty registryTags)
  have hcollected := get_groupByDigest registryTags hdigest
  rw [hget, Option.map_some, eq_comm, Option.map_eq_some_iff] at hcollected
  obtain ⟨updatedAt, hupdatedAt, hsame⟩ := hcollected
  obtain ⟨htags, hlatest⟩ := Prod.mk.inj hsame
  exact ⟨hdigest, htags.symm, by rw [hupdatedAt, hlatest]⟩

theorem tracked_iff : Tracked registryTags patterns digest ↔
    ∃ info, (digest, info) ∈ trackedDigests registryTags patterns := by
  constructor
  · rintro ⟨hdigest, tag, htag, rfl, hmatches⟩
    have hlisted : tag ∈ listedFor registryTags tag.digest :=
      mem_filter.mpr ⟨htag, by simp⟩
    have hcollected := get_groupByDigest registryTags hdigest
    cases hnewest : newestUpdate registryTags tag.digest with
    | none => exact absurd (newestUpdate_eq_none_iff.mp hnewest) (ne_nil_of_mem hlisted)
    | some updatedAt =>
      rw [hnewest, Option.map_some, Option.map_eq_some_iff] at hcollected
      obtain ⟨info, hget, hsame⟩ := hcollected
      refine ⟨info, mem_trackedDigests.mpr ⟨hget, tag.tag, ?_, hmatches⟩⟩
      rw [show info.tags = _ from (Prod.mk.inj hsame).1]
      exact mem_map_of_mem hlisted
  · rintro ⟨info, hinfo⟩
    obtain ⟨hdigest, htags, -⟩ := collected_of_mem hinfo
    obtain ⟨-, tag, htag, hmatches⟩ := mem_trackedDigests.mp hinfo
    rw [htags] at htag
    obtain ⟨listed, hlisted, rfl⟩ := mem_map.mp htag
    obtain ⟨hmem, hsame⟩ := mem_filter.mp hlisted
    exact ⟨hdigest, listed, hmem, of_decide_eq_true hsame, hmatches⟩

theorem nodup_trackedDigests (registryTags : List RegistryTag) (patterns : List (List Char)) :
    ((trackedDigests registryTags patterns).map Prod.fst).Nodup :=
  (groupByDigest registryTags).nodup_keys.sublist (filter_sublist.map Prod.fst)

end

section

variable {date : String → Option ℕ}

/-- The row that the loop leaves for a digest. -/
structure Upserted (date : String → Option ℕ) (before : Option ImageDigest) (info : DigestInfo)
    (row : ImageDigest) : Prop where
  tags : row.tags.Perm info.tags
  pushedAt : row.pushedAt = before.elim (date info.updatedAt) (·.pushedAt)

theorem sortTags_perm (tags : List String) : (sortTags tags).Perm tags :=
  mergeSort_perm tags _

theorem upsertDigest_eq_some {before after : SyncState} {digest : String} {info : DigestInfo}
    (h : upsertDigest date before digest info = some after) :
    (∃ row, after.digests.get digest = some row ∧
      Upserted date (before.digests.get digest) info row) ∧
      ∀ other ≠ digest, after.digests.get other = before.digests.get other := by
  unfold upsertDigest at h
  cases hexisting : before.digests.get digest with
  | none =>
    rw [hexisting] at h
    obtain ⟨pushedAt, hdate, rfl⟩ := Option.map_eq_some_iff.mp h
    refine ⟨⟨_, OrderedMap.get_set_self .., ⟨List.Perm.refl _, hdate.symm⟩⟩, fun other hother ↦ ?_⟩
    rw [OrderedMap.get_set, if_neg hother]
  | some existing =>
    rw [hexisting] at h
    simp only at h
    split_ifs at h with hchanged
    · obtain rfl := Option.some.inj h
      refine ⟨⟨_, OrderedMap.get_set_self .., ⟨sortTags_perm _, rfl⟩⟩, fun other hother ↦ ?_⟩
      rw [OrderedMap.get_set, if_neg hother]
    · obtain rfl := Option.some.inj h
      have hperm : existing.tags.Perm info.tags := by
        have hsorted := sortTags_perm existing.tags
        rw [not_not.mp hchanged] at hsorted
        exact hsorted.symm.trans (sortTags_perm info.tags)
      exact ⟨⟨existing, hexisting, ⟨hperm, rfl⟩⟩, fun other _ ↦ rfl⟩

/-- The rows after the loop: those of the digests that it runs over, and the others as before. -/
theorem get_upsertDigests {entries : List (String × DigestInfo)}
    (hnodup : (entries.map Prod.fst).Nodup) {before after : SyncState}
    (h : upsertDigests date before entries = some after) :
    (∀ digest info, (digest, info) ∈ entries → ∃ row, after.digests.get digest = some row ∧
      Upserted date (before.digests.get digest) info row) ∧
      ∀ digest, digest ∉ entries.map Prod.fst →
        after.digests.get digest = before.digests.get digest := by
  induction entries generalizing before with
  | nil =>
    obtain rfl := Option.some.inj h
    exact ⟨fun _ _ hmem ↦ absurd hmem not_mem_nil, fun _ _ ↦ rfl⟩
  | cons entry rest ih =>
    obtain ⟨middle, hmiddle, hrest⟩ := Option.bind_eq_some_iff.mp h
    rw [map_cons, nodup_cons] at hnodup
    obtain ⟨hupserted, hothers⟩ := ih hnodup.2 hrest
    obtain ⟨⟨row, hrow, hfirst⟩, hkept⟩ := upsertDigest_eq_some hmiddle
    refine ⟨fun digest info hmem ↦ ?_, fun digest hmem ↦ ?_⟩
    · rcases mem_cons.mp hmem with rfl | hmem
      · exact ⟨row, (hothers _ hnodup.1).trans hrow, hfirst⟩
      · have hne : digest ≠ entry.1 := fun hsame ↦
          hnodup.1 (hsame ▸ mem_map_of_mem hmem)
        rw [← hkept digest hne]
        exact hupserted digest info hmem
    · rw [map_cons, mem_cons, not_or] at hmem
      rw [hothers digest hmem.2, hkept digest hmem.1]

end

section

variable {date : String → Option ℕ} {byPushedAt : DigestRows → DigestRows}
  {image after : ContainerImage} {registryTags : List RegistryTag} {result : SyncDigestsResult}
  {digest : String}

section

variable (h : syncDigestsFromRegistry date byPushedAt image registryTags = some (after, result))
include h

theorem get_of_tracked (htracked : Tracked registryTags (parseTagFilter image.tagFilter) digest) :
    ∃ row, after.digests.get digest = some row ∧
      row.tags.Perm ((listedFor registryTags digest).map (·.tag)) ∧
      row.pushedAt = pushedOn date image.digests registryTags digest := by
  obtain ⟨state, hstate, hafter⟩ := Option.map_eq_some_iff.mp h
  obtain ⟨info, hinfo⟩ := tracked_iff.mp htracked
  obtain ⟨-, htags, hnewest⟩ := collected_of_mem hinfo
  have hupserts := (get_upsertDigests (nodup_trackedDigests _ _) hstate).1
  obtain ⟨row, hrow, hupserted⟩ := hupserts digest info hinfo
  have hdigests : after.digests = state.digests := by rw [← (Prod.mk.inj hafter).1]
  refine ⟨row, by rw [hdigests, hrow], htags ▸ hupserted.tags, hupserted.pushedAt.trans ?_⟩
  unfold pushedOn
  cases image.digests.get digest with
  | none => rw [hnewest]; rfl
  | some row => rfl

/-- The other rows are left alone. -/
theorem get_of_not_tracked
    (htracked : ¬ Tracked registryTags (parseTagFilter image.tagFilter) digest) :
    after.digests.get digest = image.digests.get digest := by
  obtain ⟨state, hstate, hafter⟩ := Option.map_eq_some_iff.mp h
  have hdigests : after.digests = state.digests := by rw [← (Prod.mk.inj hafter).1]
  rw [hdigests]
  refine (get_upsertDigests (nodup_trackedDigests _ _) hstate).2 digest fun hmem ↦ htracked ?_
  obtain ⟨⟨found, info⟩, hinfo, rfl⟩ := mem_map.mp hmem
  exact tracked_iff.mpr ⟨info, hinfo⟩

theorem known_of_get {row : ImageDigest} (hrow : after.digests.get digest = some row) :
    (Tracked registryTags (parseTagFilter image.tagFilter) digest ∨
      image.digests.get digest ≠ none) ∧
      row.pushedAt = pushedOn date image.digests registryTags digest := by
  by_cases htracked : Tracked registryTags (parseTagFilter image.tagFilter) digest
  · obtain ⟨found, hfound, -, hpushed⟩ := get_of_tracked h htracked
    obtain rfl := Option.some.inj (hrow.symm.trans hfound)
    exact ⟨.inl htracked, hpushed⟩
  · rw [get_of_not_tracked h htracked] at hrow
    exact ⟨.inr (by rw [hrow]; exact nofun), by rw [pushedOn, hrow]⟩

theorem exists_get_of_known (hknown : Tracked registryTags (parseTagFilter image.tagFilter) digest ∨
      image.digests.get digest ≠ none) :
    ∃ row, after.digests.get digest = some row ∧
      row.pushedAt = pushedOn date image.digests registryTags digest := by
  by_cases htracked : Tracked registryTags (parseTagFilter image.tagFilter) digest
  · obtain ⟨row, hrow, -, hpushed⟩ := get_of_tracked h htracked
    exact ⟨row, hrow, hpushed⟩
  · obtain ⟨row, hrow⟩ := Option.ne_none_iff_exists'.mp (hknown.resolve_left htracked)
    exact ⟨row, by rw [get_of_not_tracked h htracked, hrow], by rw [pushedOn, hrow]⟩

end

end

/-! ### The newest rows -/

theorem notOlder_trans {first second third : Option ℕ} (hfirst : notOlder first second)
    (hsecond : notOlder second third) : notOlder first third := by
  cases first <;> cases second <;> cases third <;> simp_all [notOlder]
  omega

theorem notOlder_total (first second : Option ℕ) :
    notOlder first second || notOlder second first := by
  cases first <;> cases second <;> simp [notOlder]
  omega

section

variable {answer : DigestRows} {digests : OrderedMap String ImageDigest} {digest tag : String}
  {row : ImageDigest}

section

variable (hanswer : IsByPushedAt answer digests.entries)
include hanswer

theorem mem_answer_iff : (digest, row) ∈ answer ↔ digests.get digest = some row := by
  rw [hanswer.1.mem_iff, OrderedMap.mem_entries_iff]

theorem nodup_answer : (answer.map Prod.fst).Nodup :=
  (hanswer.1.map Prod.fst).nodup_iff.mpr digests.nodup_keys

theorem resolveTag_eq_some (hrow : digests.get digest = some row) (htag : tag ∈ row.tags)
    (hunique : ∀ other found, digests.get other = some found → tag ∈ found.tags → other = digest)
    (hnewest : ∀ others : List String, others.Nodup →
      (∀ other ∈ others, other ≠ digest ∧ ∃ found, digests.get other = some found ∧
        notOlder found.pushedAt row.pushedAt) → others.length < 50) :
    resolveTag answer tag = some digest := by
  have hmem : (digest, row) ∈ answer := (mem_answer_iff hanswer).mpr hrow
  set before : String × ImageDigest → Bool := fun entry ↦ notOlder entry.2.pushedAt row.pushedAt
    with hbefore
  have hself : before (digest, row) = true :=
    by simpa using notOlder_total row.pushedAt row.pushedAt
  have hcount : answer.countP before ≤ 50 := by
    have hnodup : ((answer.filter before).map Prod.fst).Nodup :=
      (nodup_answer hanswer).sublist (filter_sublist.map Prod.fst)
    have hdigest : digest ∈ (answer.filter before).map Prod.fst :=
      mem_map.mpr ⟨_, mem_filter.mpr ⟨hmem, hself⟩, rfl⟩
    have hlength := hnewest (((answer.filter before).map Prod.fst).erase digest)
      (hnodup.erase digest)
      fun other hother ↦ by
        obtain ⟨hne, hother⟩ := hnodup.mem_erase_iff.mp hother
        obtain ⟨⟨name, found⟩, hfound, rfl⟩ := mem_map.mp hother
        obtain ⟨hfound, hnotOlder⟩ := mem_filter.mp hfound
        exact ⟨hne, found, (mem_answer_iff hanswer).mp hfound, hnotOlder⟩
    rw [length_erase_of_mem hdigest, length_map] at hlength
    rw [countP_eq_length_filter]
    omega
  have htake := mem_take_of_countP_le hanswer.2 hmem before hself (fun other hother ↦ hother) hcount
  cases hfind : (answer.take 50).find? fun entry ↦ tag ∈ entry.2.tags with
  | none => exact absurd htag (by simpa using List.find?_eq_none.mp hfind _ htake)
  | some entry =>
    have hfound := (mem_answer_iff hanswer).mp (mem_of_mem_take (mem_of_find?_eq_some hfind))
    have hlists := List.find?_some hfind
    rw [resolveTag, hfind, Option.map_some,
      hunique entry.1 entry.2 hfound (of_decide_eq_true hlists)]

end

theorem length_lt_of_resolveTag (hrow : digests.get digest = some row)
    (hresolves : ∀ answer, IsByPushedAt answer digests.entries →
      resolveTag answer tag = some digest)
    {others : List String} (hnodup : others.Nodup)
    (hothers : ∀ other ∈ others, other ≠ digest ∧ ∃ found, digests.get other = some found ∧
      notOlder found.pushedAt row.pushedAt) : others.length < 50 := by
  -- the row of the digest is the last one of those with its date
  set entry : String × ImageDigest := (digest, row) with hentry
  set entries := digests.entries.erase entry ++ [entry] with hentries
  set le : String × ImageDigest → String × ImageDigest → Bool := fun first second ↦
    notOlder first.2.pushedAt second.2.pushedAt with hle
  have htrans : ∀ a b c, le a b → le b c → le a c := fun _ _ _ ↦ notOlder_trans
  have htotal : ∀ a b, le a b || le b a := fun _ _ ↦ notOlder_total _ _
  have hmem : entry ∈ digests.entries := (digests.mem_entries_iff digest row).mpr hrow
  have hperm : entries.Perm digests.entries :=
    (perm_append_singleton _ _).trans (perm_cons_erase hmem).symm
  have hanswer : IsByPushedAt (entries.mergeSort le) digests.entries :=
    ⟨(mergeSort_perm _ _).trans hperm, pairwise_mergeSort htrans htotal entries⟩
  have hentriesNodup : digests.entries.Nodup := List.Nodup.of_map _ digests.nodup_keys
  have htake : entry ∈ (entries.mergeSort le).take 50 := by
    obtain ⟨found, hfound, hdigest⟩ := Option.map_eq_some_iff.mp (hresolves _ hanswer)
    have hfoundTake := mem_of_find?_eq_some hfound
    have hfoundRow := (mem_answer_iff hanswer).mp (mem_of_mem_take hfoundTake)
    rw [hdigest, hrow, Option.some.injEq] at hfoundRow
    rwa [hentry, ← hdigest, hfoundRow]
  have hsubset : digest :: others ⊆ ((entries.mergeSort le).take 50).map Prod.fst := by
    intro other hother
    rcases mem_cons.mp hother with rfl | hother
    · exact mem_map.mpr ⟨entry, htake, rfl⟩
    · obtain ⟨hne, found, hfound, hnotOlder⟩ := hothers other hother
      have hfirst : (other, found) ∈ digests.entries.erase entry := by
        rw [hentriesNodup.mem_erase_iff]
        exact ⟨fun hsame ↦ hne (Prod.mk.inj hsame).1,
          (digests.mem_entries_iff other found).mpr hfound⟩
      have hpair : [(other, found), entry].Sublist entries :=
        (singleton_sublist.mpr hfirst).append (List.Sublist.refl [entry])
      exact mem_map.mpr ⟨_, mem_take_of_stable htrans htotal
        (hperm.nodup_iff.mpr hentriesNodup) hnotOlder hpair htake, rfl⟩
  have hlength := (subperm_of_subset (nodup_cons.mpr
    ⟨fun hmem ↦ (hothers digest hmem).1 rfl, hnodup⟩) hsubset).length_le
  rw [length_map, length_take, length_cons] at hlength
  omega

end

/-! ### The property and its condition -/

/-- Every listed tag of a tracked digest is in the row of this digest and in no other one, and it is
resolved to the digest. -/
structure PointsToOne (image after : ContainerImage) (registryTags : List RegistryTag) : Prop where
  own : ∀ tag ∈ registryTags, Tracked registryTags (parseTagFilter image.tagFilter) tag.digest →
    ∃ row, after.digests.get tag.digest = some row ∧ tag.tag ∈ row.tags
  noOther : ∀ tag ∈ registryTags, Tracked registryTags (parseTagFilter image.tagFilter) tag.digest →
    ∀ other row, after.digests.get other = some row → tag.tag ∈ row.tags → other = tag.digest
  resolved : ∀ tag ∈ registryTags, Tracked registryTags (parseTagFilter image.tagFilter) tag.digest →
    ∀ answer, IsByPushedAt answer after.digests.entries →
      resolveTag answer tag.tag = some tag.digest

/-- No row that the sync leaves alone has a tag that the registry lists for a tracked digest, and
fewer than 50 other digests of the image were pushed when a tracked digest was, or later. -/
structure Resolvable (date : String → Option ℕ) (image : ContainerImage)
    (registryTags : List RegistryTag) : Prop where
  noStaleTag : ∀ digest row, image.digests.get digest = some row →
    ¬ Tracked registryTags (parseTagFilter image.tagFilter) digest → ∀ tag ∈ registryTags,
      Tracked registryTags (parseTagFilter image.tagFilter) tag.digest → tag.tag ∉ row.tags
  amongNewest : ∀ digest, Tracked registryTags (parseTagFilter image.tagFilter) digest →
    ∀ others : List String, others.Nodup → (∀ other ∈ others, other ≠ digest ∧
      (Tracked registryTags (parseTagFilter image.tagFilter) other ∨
        image.digests.get other ≠ none) ∧
      notOlder (pushedOn date image.digests registryTags other)
        (pushedOn date image.digests registryTags digest)) → others.length < 50

section

variable {date : String → Option ℕ} {byPushedAt : DigestRows → DigestRows}
  {image after : ContainerImage} {registryTags : List RegistryTag} {result : SyncDigestsResult}

theorem mem_tags_of_listed {row : ImageDigest} {tag : RegistryTag} (htag : tag ∈ registryTags)
    (hperm : row.tags.Perm ((listedFor registryTags tag.digest).map (·.tag))) :
    tag.tag ∈ row.tags :=
  hperm.mem_iff.mpr (mem_map_of_mem (mem_filter.mpr ⟨htag, by simp⟩))

/-- After a sync of a listing in which no tag appears twice, the listed tags of the tracked digests
belong to one row each, and are resolved to it, exactly if no stale row and no older than 50 others
stand in the way. -/
theorem pointsToOne_iff (hlisted : (registryTags.map (·.tag)).Nodup)
    (h : syncDigestsFromRegistry date byPushedAt image registryTags = some (after, result)) :
    PointsToOne image after registryTags ↔ Resolvable date image registryTags := by
  constructor
  · intro hpoints
    refine ⟨fun digest row hrow htracked tag htag htagTracked hmem ↦ ?_,
      fun digest htracked others hnodup hothers ↦ ?_⟩
    · have hkept := (get_of_not_tracked h htracked).trans hrow
      have hsame := hpoints.noOther tag htag htagTracked digest row hkept hmem
      exact htracked (hsame ▸ htagTracked)
    · have hexists := htracked.2
      obtain ⟨tag, htag, rfl, -⟩ := hexists
      obtain ⟨row, hrow, -, hpushed⟩ := get_of_tracked h htracked
      refine length_lt_of_resolveTag hrow (hpoints.resolved tag htag htracked) hnodup
        fun other hother ↦ ?_
      obtain ⟨hne, hknown, hnotOlder⟩ := hothers other hother
      obtain ⟨found, hfound, hfoundPushed⟩ := exists_get_of_known h hknown
      exact ⟨hne, found, hfound, by rwa [hfoundPushed, hpushed]⟩
  · intro hresolvable
    have hown : ∀ tag ∈ registryTags,
        Tracked registryTags (parseTagFilter image.tagFilter) tag.digest →
          ∃ row, after.digests.get tag.digest = some row ∧ tag.tag ∈ row.tags := by
      intro tag htag htracked
      obtain ⟨row, hrow, hperm, -⟩ := get_of_tracked h htracked
      exact ⟨row, hrow, mem_tags_of_listed htag hperm⟩
    have hnoOther : ∀ tag ∈ registryTags,
        Tracked registryTags (parseTagFilter image.tagFilter) tag.digest →
          ∀ other row, after.digests.get other = some row → tag.tag ∈ row.tags →
            other = tag.digest := by
      intro tag htag htracked other row hrow hmem
      by_cases hother : Tracked registryTags (parseTagFilter image.tagFilter) other
      · -- the registry lists the tag for the other digest, and lists it once
        obtain ⟨found, hfound, hperm, -⟩ := get_of_tracked h hother
        obtain rfl := Option.some.inj (hrow.symm.trans hfound)
        obtain ⟨listed, hlistedFor, hsame⟩ := mem_map.mp (hperm.mem_iff.mp hmem)
        obtain ⟨hlistedMem, hdigest⟩ := mem_filter.mp hlistedFor
        obtain rfl := inj_on_of_nodup_map hlisted hlistedMem htag hsame
        exact (of_decide_eq_true hdigest).symm
      · rw [get_of_not_tracked h hother] at hrow
        exact absurd hmem (hresolvable.noStaleTag other row hrow hother tag htag htracked)
    refine ⟨hown, hnoOther, fun tag htag htracked answer hanswer ↦ ?_⟩
    obtain ⟨row, hrow, hperm, hpushed⟩ := get_of_tracked h htracked
    refine resolveTag_eq_some hanswer hrow (mem_tags_of_listed htag hperm)
      (hnoOther tag htag htracked) fun others hnodup hothers ↦ ?_
    refine hresolvable.amongNewest tag.digest htracked others hnodup fun other hother ↦ ?_
    obtain ⟨hne, found, hfound, hnotOlder⟩ := hothers other hother
    obtain ⟨hknown, hfoundPushed⟩ := known_of_get h hfound
    exact ⟨hne, hknown, by rwa [← hfoundPushed, ← hpushed]⟩

end

/-- An image with one digest, which was `latest` when it was pushed. -/
def imageBefore : ContainerImage where
  tagFilter := "latest, v*"
  deployedDigest := none
  updateAvailable := false
  digests := OrderedMap.empty.set "sha256:old" ⟨["latest"], none, some 1⟩

def movedTag : List RegistryTag :=
  [⟨"latest", "sha256:new", 100, "2025-01-02T00:00:00Z"⟩]

/-- The registry with the digest still listed under another tag. -/
def movedTagKept : List RegistryTag :=
  [⟨"latest", "sha256:new", 100, "2025-01-02T00:00:00Z"⟩,
    ⟨"v1", "sha256:old", 100, "2025-01-01T00:00:00Z"⟩]

theorem pointsToOne_iff_movedTagKept : ∃ after result,
    syncDigestsFromRegistry (fun _ ↦ some 2) List.reverse imageBefore movedTagKept =
      some (after, result) ∧
    (PointsToOne imageBefore after movedTagKept ↔
      Resolvable (fun _ ↦ some 2) imageBefore movedTagKept) := by
  have hsome : (syncDigestsFromRegistry (fun _ ↦ some 2) List.reverse imageBefore
      movedTagKept).isSome := by
    decide +kernel
  obtain ⟨⟨after, result⟩, hsync⟩ := Option.isSome_iff_exists.mp hsome
  exact ⟨after, result, hsync, pointsToOne_iff (by decide) hsync⟩

/-- A digest that the registry no longer lists keeps the tag that has been moved to another one. -/
theorem not_pointsToOne : ¬ ∀ (date : String → Option ℕ) (byPushedAt : DigestRows → DigestRows)
    (image after : ContainerImage) (registryTags : List RegistryTag) (result : SyncDigestsResult),
    (registryTags.map (·.tag)).Nodup →
      syncDigestsFromRegistry date byPushedAt image registryTags = some (after, result) →
        PointsToOne image after registryTags := by
  intro h
  have hsome : (syncDigestsFromRegistry (fun _ ↦ some 2) List.reverse imageBefore
      movedTag).isSome := by
    decide +kernel
  obtain ⟨⟨after, result⟩, hsync⟩ := Option.isSome_iff_exists.mp hsome
  have hpoints := h (fun _ ↦ some 2) List.reverse imageBefore after movedTag result (by decide) hsync
  have htracked : Tracked movedTag (parseTagFilter imageBefore.tagFilter) "sha256:new" :=
    ⟨by decide, _, mem_singleton_self _, rfl, by decide +kernel⟩
  have hold : ¬ Tracked movedTag (parseTagFilter imageBefore.tagFilter) "sha256:old" := by
    rintro ⟨-, tag, htag, hdigest, -⟩
    obtain rfl := mem_singleton.mp htag
    exact absurd hdigest (by decide)
  have hrow : after.digests.get "sha256:old" = some ⟨["latest"], none, some 1⟩ := by
    rw [get_of_not_tracked hsync hold]
    decide
  have hsame := hpoints.noOther _ (mem_singleton_self _) htracked "sha256:old" _ hrow mem_cons_self
  exact absurd hsame (by decide)

end Bridgeport.Images
