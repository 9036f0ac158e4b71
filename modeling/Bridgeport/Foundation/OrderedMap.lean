import Mathlib.Data.List.Induction
import Mathlib.Data.List.Nodup

/-!
# Maps that remember insertion order

A finite map kept as the list of its entries in the order in which their keys were first set.
Setting a key that is present replaces its value in place, setting a new key appends an entry, and
the keys never repeat, so an entry list with a duplicate key cannot be built (`nodup_keys`).
-/

namespace Bridgeport.Foundation

open List

/-- A finite map as its entries in insertion order, no key listed twice. -/
structure OrderedMap (κ ν : Type*) where
  entries : List (κ × ν)
  nodup_keys : (entries.map Prod.fst).Nodup

namespace OrderedMap

variable {κ ν : Type*} [DecidableEq κ]

/-- The entries after binding `key` to `value`: in place when the key is present, at the end
otherwise. -/
def setEntries (key : κ) (value : ν) : List (κ × ν) → List (κ × ν)
  | [] => [(key, value)]
  | entry :: rest =>
    if entry.1 = key then (key, value) :: rest else entry :: setEntries key value rest

theorem map_fst_setEntries (key : κ) (value : ν) (entries : List (κ × ν)) :
    (setEntries key value entries).map Prod.fst =
      if key ∈ entries.map Prod.fst then entries.map Prod.fst
      else entries.map Prod.fst ++ [key] := by
  induction entries with
  | nil => simp [setEntries]
  | cons entry rest ih =>
    by_cases hkey : entry.1 = key
    · simp [setEntries, hkey]
    · have hkey' : ¬ key = entry.1 := fun h ↦ hkey h.symm
      simp only [setEntries, if_neg hkey, map_cons, ih, mem_cons, hkey', false_or]
      split_ifs <;> simp

def empty : OrderedMap κ ν := ⟨[], nodup_nil⟩

variable (map : OrderedMap κ ν)

/-- Binding `key` to `value`. -/
def set (key : κ) (value : ν) : OrderedMap κ ν where
  entries := setEntries key value map.entries
  nodup_keys := by
    rw [map_fst_setEntries]
    split_ifs with hmem
    · exact map.nodup_keys
    · exact nodup_append.mpr ⟨map.nodup_keys, nodup_singleton key, fun a ha b hb ↦ by
        rw [mem_singleton.mp hb]
        exact fun h ↦ hmem (h ▸ ha)⟩

def get (key : κ) : Option ν :=
  map.entries.lookup key

def keys : List κ :=
  map.entries.map Prod.fst

@[simp] theorem get_empty (key : κ) : (empty : OrderedMap κ ν).get key = none :=
  rfl

omit [DecidableEq κ] in
@[simp] theorem keys_empty : (empty : OrderedMap κ ν).keys = [] :=
  rfl

omit [DecidableEq κ] in
theorem keys_nodup : map.keys.Nodup :=
  map.nodup_keys

theorem lookup_setEntries (key other : κ) (value : ν) (entries : List (κ × ν)) :
    (setEntries key value entries).lookup other =
      if other = key then some value else entries.lookup other := by
  induction entries with
  | nil =>
    by_cases hother : other = key
    · simp [setEntries, hother]
    · have hbeq : (other == key) = false := by simpa using hother
      simp [setEntries, lookup_cons, hother, hbeq]
  | cons entry rest ih =>
    obtain ⟨first, second⟩ := entry
    by_cases hkey : first = key
    · by_cases hother : other = key
      · simp [setEntries, hkey, hother]
      · have hbeq : (other == key) = false := by simpa using hother
        simp [setEntries, hkey, lookup_cons, hother, hbeq]
    · by_cases hentry : other = first
      · have hother : ¬ other = key := fun h ↦ hkey (hentry.symm.trans h)
        simp [setEntries, hkey, hentry]
      · have hbeq : (other == first) = false := by simpa using hentry
        simp only [setEntries, if_neg hkey, lookup_cons, hbeq, ih]

/-- The lookup law: the key just set has the new value, every other key the value it had. -/
theorem get_set (key other : κ) (value : ν) :
    (map.set key value).get other = if other = key then some value else map.get other :=
  lookup_setEntries key other value map.entries

@[simp] theorem get_set_self (key : κ) (value : ν) : (map.set key value).get key = some value := by
  rw [get_set, if_pos rfl]

theorem keys_set (key : κ) (value : ν) :
    (map.set key value).keys = if key ∈ map.keys then map.keys else map.keys ++ [key] :=
  map_fst_setEntries key value map.entries

variable {entries : List (κ × ν)}

theorem lookup_eq_some_iff (hnodup : (entries.map Prod.fst).Nodup) (key : κ) (value : ν) :
    entries.lookup key = some value ↔ (key, value) ∈ entries := by
  induction entries with
  | nil => simp
  | cons entry rest ih =>
    obtain ⟨first, second⟩ := entry
    rw [map_cons, nodup_cons] at hnodup
    by_cases hkey : key = first
    · subst hkey
      have habsent : (key, value) ∉ rest := fun hmem ↦
        hnodup.1 (mem_map.mpr ⟨(key, value), hmem, rfl⟩)
      simp [habsent, eq_comm]
    · have hbeq : (key == first) = false := by simpa using hkey
      simp only [lookup_cons, hbeq, ih hnodup.2, mem_cons, Prod.mk.injEq, hkey, false_and, false_or]

theorem mem_entries_iff (key : κ) (value : ν) :
    (key, value) ∈ map.entries ↔ map.get key = some value :=
  (lookup_eq_some_iff map.nodup_keys key value).symm

/-- The values under the keys are the values of the entries. -/
theorem map_getD_keys (default : ν) :
    (map.keys.map fun key ↦ (map.get key).getD default) = map.entries.map Prod.snd := by
  show (map.entries.map Prod.fst).map _ = _
  rw [map_map]
  refine map_congr_left fun entry hentry ↦ ?_
  show (map.get entry.1).getD default = entry.2
  rw [(map.mem_entries_iff entry.1 entry.2).mp hentry]
  rfl

/-- A key is listed exactly when it is bound. -/
theorem mem_keys_iff (key : κ) : key ∈ map.keys ↔ ∃ value, map.get key = some value := by
  simp only [keys, mem_map, Prod.exists, exists_and_right, exists_eq_right, mem_entries_iff]

/-! ### Deletion and values -/

def delete (key : κ) : OrderedMap κ ν where
  entries := map.entries.filter (·.1 ≠ key)
  nodup_keys := map.nodup_keys.sublist (filter_sublist.map Prod.fst)

def values : List ν :=
  map.entries.map Prod.snd

theorem get_delete (key other : κ) :
    (map.delete key).get other = if other = key then none else map.get other := by
  by_cases hother : other = key
  · rw [if_pos hother]
    refine Option.eq_none_iff_forall_not_mem.mpr fun value hvalue ↦ ?_
    have hentry := ((map.delete key).mem_entries_iff other value).mpr hvalue
    exact absurd hother (of_decide_eq_true (mem_filter.mp hentry).2)
  · rw [if_neg hother]
    refine Option.ext fun value ↦ ?_
    show (map.delete key).get other = some value ↔ map.get other = some value
    rw [← mem_entries_iff, ← mem_entries_iff]
    exact mem_filter.trans (and_iff_left (decide_eq_true hother))

theorem setEntries_of_notMem {key : κ} (value : ν) (h : key ∉ entries.map Prod.fst) :
    setEntries key value entries = entries ++ [(key, value)] := by
  induction entries with
  | nil => rfl
  | cons entry rest ih =>
    rw [map_cons, mem_cons, not_or] at h
    rw [setEntries, if_neg (Ne.symm h.1), ih h.2, cons_append]

theorem values_set_of_notMem {map : OrderedMap κ ν} {key : κ} (value : ν) (h : key ∉ map.keys) :
    (map.set key value).values = map.values ++ [value] := by
  show (setEntries key value map.entries).map Prod.snd = map.entries.map Prod.snd ++ [value]
  rw [setEntries_of_notMem value h, map_append, map_singleton]

/-- A map filled from items reads back the value of each of them. Assumes: the keys of the items are
distinct. -/
theorem get_foldl_set {ι : Type*} (key : ι → κ) (value : ι → ν) (items : List ι)
    (hnodup : (items.map key).Nodup) (map : OrderedMap κ ν) {item : ι} (hitem : item ∈ items) :
    (items.foldl (fun map item ↦ map.set (key item) (value item)) map).get (key item) =
      some (value item) := by
  induction items using List.reverseRecOn with
  | nil => exact absurd hitem not_mem_nil
  | append_singleton items last ih =>
    rw [map_append, map_singleton, nodup_append] at hnodup
    rw [foldl_append, foldl_cons, foldl_nil, get_set]
    rcases mem_append.mp hitem with hmem | hmem
    · rw [if_neg (hnodup.2.2 _ (mem_map_of_mem hmem) _ (mem_singleton_self _))]
      exact ih hnodup.1 hmem
    · rw [mem_singleton.mp hmem, if_pos rfl]

theorem filter_key_eq {ι : Type*} (key : ι → κ) {items : List ι}
    (hnodup : (items.map key).Nodup) {item : ι} (hitem : item ∈ items) :
    items.filter (fun other ↦ key other = key item) = [item] := by
  induction items with
  | nil => exact absurd hitem not_mem_nil
  | cons first rest ih =>
    rw [map_cons, nodup_cons] at hnodup
    by_cases hfirst : first = item
    · have hrest : rest.filter (fun other ↦ key other = key item) = [] := by
        refine filter_eq_nil_iff.mpr fun other hother ↦ ?_
        have hne : key other ≠ key item := fun h ↦
          hnodup.1 (mem_map.mpr ⟨other, hother, h.trans (congrArg key hfirst.symm)⟩)
        simpa using hne
      rw [filter_cons_of_pos (by simpa using congrArg key hfirst), hrest, hfirst]
    · have hmem := (mem_cons.mp hitem).resolve_left (Ne.symm hfirst)
      have hne : key first ≠ key item := fun h ↦
        hnodup.1 (mem_map.mpr ⟨item, hmem, h.symm⟩)
      rw [filter_cons_of_neg (by simpa using hne)]
      exact ih hnodup.2 hmem

theorem filter_entries (key : κ) : map.entries.filter (·.1 = key) =
      (map.get key).toList.map fun value ↦ (key, value) := by
  cases hget : map.get key with
  | none =>
    refine filter_eq_nil_iff.mpr fun entry hentry ↦ ?_
    have hne : entry.1 ≠ key := by
      intro hkey
      have hbound := (map.mem_entries_iff entry.1 entry.2).mp hentry
      rw [hkey, hget] at hbound
      nomatch hbound
    simpa using hne
  | some value =>
    exact filter_key_eq Prod.fst map.nodup_keys ((map.mem_entries_iff key value).mpr hget)

/-! ### Groups -/

def addToGroup {ι : Type*} (key : ι → κ) (groups : OrderedMap κ (List ι)) (item : ι) :
    OrderedMap κ (List ι) :=
  groups.set (key item) ((groups.get (key item)).getD [] ++ [item])

def groupBy {ι : Type*} (key : ι → κ) (items : List ι) : OrderedMap κ (List ι) :=
  items.foldl (addToGroup key) empty

section

variable {ι : Type*} (key : ι → κ) (items : List ι)
include key items

theorem groupBy_append_singleton (item : ι) :
    groupBy key (items ++ [item]) = addToGroup key (groupBy key items) item := by
  unfold groupBy
  rw [foldl_append]
  rfl

variable (wanted : κ)

/-- The group of a key: the items with this key, in their order; no group is empty. -/
theorem get_groupBy : (groupBy key items).get wanted =
      if items.filter (fun item ↦ key item = wanted) = [] then none
      else some (items.filter fun item ↦ key item = wanted) := by
  induction items using List.reverseRecOn with
  | nil => rfl
  | append_singleton items item ih =>
    have hgroup : ((groupBy key items).get (key item)).getD [] =
        if key item = wanted then items.filter (fun item ↦ key item = wanted)
        else ((groupBy key items).get (key item)).getD [] := by
      split_ifs with hkey
      · rw [hkey, ih]
        split_ifs with hempty
        · exact hempty.symm
        · rfl
      · rfl
    rw [groupBy_append_singleton, addToGroup, get_set, filter_append]
    by_cases hkey : key item = wanted
    · rw [if_pos hkey.symm, hgroup, if_pos hkey]
      simp [hkey]
    · rw [if_neg (Ne.symm hkey), ih]
      simp [hkey]

/-- The group of a key, empty when there is none. -/
theorem getD_groupBy :
    ((groupBy key items).get wanted).getD [] = items.filter fun item ↦ key item = wanted := by
  rw [get_groupBy]
  split_ifs with hempty
  · exact hempty.symm
  · rfl

theorem mem_keys_groupBy :
    wanted ∈ (groupBy key items).keys ↔ ∃ item ∈ items, key item = wanted := by
  rw [mem_keys_iff, get_groupBy]
  by_cases hempty : items.filter (fun item ↦ key item = wanted) = []
  · rw [if_pos hempty]
    have hnone := filter_eq_nil_iff.mp hempty
    simpa using hnone
  · rw [if_neg hempty]
    obtain ⟨item, hitem⟩ := exists_mem_of_ne_nil _ hempty
    rw [mem_filter] at hitem
    exact iff_of_true ⟨_, rfl⟩ ⟨item, hitem.1, by simpa using hitem.2⟩

end

theorem flatMap_setEntries_perm {ι : Type*} (key : κ) (item : ι) (entries : List (κ × List ι)) :
    ((setEntries key ((entries.lookup key).getD [] ++ [item]) entries).flatMap Prod.snd).Perm
      (entries.flatMap Prod.snd ++ [item]) := by
  induction entries with
  | nil => exact List.Perm.refl _
  | cons entry rest ih =>
    obtain ⟨first, group⟩ := entry
    by_cases hkey : first = key
    · rw [setEntries, if_pos hkey]
      simp only [hkey, lookup_cons_self, Option.getD_some, flatMap_cons, append_assoc]
      exact (perm_append_comm).append_left group
    · have hbeq : (key == first) = false := by simpa using Ne.symm hkey
      rw [setEntries, if_neg hkey]
      simp only [lookup_cons, hbeq, flatMap_cons, append_assoc]
      exact ih.append_left group

/-- Grouping neither loses nor repeats an item. -/
theorem flatMap_groupBy_perm {ι : Type*} (key : ι → κ) (items : List ι) :
    ((groupBy key items).entries.flatMap Prod.snd).Perm items := by
  induction items using List.reverseRecOn with
  | nil => exact List.Perm.refl _
  | append_singleton items item ih =>
    rw [groupBy_append_singleton]
    exact (flatMap_setEntries_perm _ _ _).trans (ih.append_right [item])

end OrderedMap

end Bridgeport.Foundation
