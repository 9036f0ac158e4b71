import Bridgeport.Foundation.OrderedMap
import Bridgeport.Foundation.WriteLog

/-!
# Upserts

An `Upsert` writes the value of a key, be it new or not; what it writes may depend on the value that
is there. After a list of upserts a key holds what its own upserts have made of it, one after the
other (`get_upsertAll`), and the map is as it was if and only if this is so for every key that is
written (`upsertAll_eq_self_iff`).
-/

namespace Bridgeport.Foundation

open List

/-- A write to a key, given the value that is there. -/
structure Upsert (κ ν : Type*) where
  key : κ
  write : Option ν → ν

variable {κ ν : Type*} [DecidableEq κ]

def replay (key : κ) (upserts : List (Upsert κ ν)) (start : Option ν) : Option ν :=
  upserts.foldl (fun value upsert ↦ if upsert.key = key then some (upsert.write value) else value)
    start

namespace OrderedMap

def upsert (map : OrderedMap κ ν) (upsert : Upsert κ ν) : OrderedMap κ ν :=
  map.set upsert.key (upsert.write (map.get upsert.key))

def upsertAll (map : OrderedMap κ ν) (upserts : List (Upsert κ ν)) : OrderedMap κ ν :=
  upserts.foldl OrderedMap.upsert map

end OrderedMap

/-! ### One key -/

section

variable {key : κ} {upserts : List (Upsert κ ν)} {start : Option ν}

theorem replay_append (first second : List (Upsert κ ν)) :
    replay key (first ++ second) start = replay key second (replay key first start) :=
  foldl_append

theorem replay_concat (upserts : List (Upsert κ ν)) (last : Upsert κ ν) :
    replay key (upserts ++ [last]) start =
      if last.key = key then some (last.write (replay key upserts start))
      else replay key upserts start :=
  replay_append upserts [last]

theorem replay_of_notMem (h : ∀ upsert ∈ upserts, upsert.key ≠ key) :
    replay key upserts start = start := by
  induction upserts using List.reverseRecOn with
  | nil => rfl
  | append_singleton upserts last ih =>
    rw [replay_concat, if_neg (h last (mem_append_right _ (mem_singleton.mpr rfl)))]
    exact ih fun upsert hmem ↦ h upsert (mem_append_left _ hmem)

/-- A value stays, and a key that is written has one. -/
theorem isSome_replay : (replay key upserts start).isSome ↔
    start.isSome ∨ ∃ upsert ∈ upserts, upsert.key = key := by
  induction upserts using List.reverseRecOn with
  | nil => exact ⟨Or.inl, fun h ↦ h.resolve_right fun ⟨_, hmem, _⟩ ↦ absurd hmem not_mem_nil⟩
  | append_singleton upserts last ih =>
    rw [replay_concat]
    simp only [mem_append, mem_singleton, or_and_right, exists_or, exists_eq_left]
    by_cases hkey : last.key = key
    · rw [if_pos hkey]
      exact iff_of_true rfl (.inr (.inr hkey))
    · rw [if_neg hkey, ih, or_iff_left hkey]

theorem exists_replay_of_mem (start : Option ν) {upsert : Upsert κ ν} (hmem : upsert ∈ upserts)
    (hkey : upsert.key = key) : ∃ value, replay key upserts start = some value :=
  Option.isSome_iff_exists.mp (isSome_replay.mpr (.inr ⟨upsert, hmem, hkey⟩))

theorem exists_replay_some (key : κ) (upserts : List (Upsert κ ν)) (first : ν) :
    ∃ value, replay key upserts (some first) = some value :=
  Option.isSome_iff_exists.mp (isSome_replay.mpr (.inl rfl))

section Fields

variable {ι φ : Type*} {field : ν → φ} {upsert : ι → Upsert κ ν} {items : List ι} {P : ν → Prop}
  {row : ν}

section

variable
  (hkeep : ∀ item ∈ items, (upsert item).key = key → ∀ row, P row → P ((upsert item).write (some row)))
include hkeep

/-- What the upserts of a key keep holds after them. -/
theorem replay_invariant {first row : ν} (hfirst : P first)
    (hrow : replay key (items.map upsert) (some first) = some row) : P row := by
  induction items using List.reverseRecOn generalizing row with
  | nil => exact Option.some.inj hrow ▸ hfirst
  | append_singleton items last ih =>
    rw [map_append, map_singleton, replay_concat] at hrow
    have hbefore := @ih fun item hmem ↦ hkeep item (mem_append_left _ hmem)
    obtain ⟨before, hreplay⟩ := exists_replay_some key (items.map upsert) first
    split_ifs at hrow with hkey
    · rw [← Option.some.inj hrow, hreplay]
      exact hkeep last (mem_append_right _ (mem_singleton.mpr rfl)) hkey before (hbefore hreplay)
    · exact hbefore hrow

/-- What an upsert establishes and the others keep holds after them. -/
theorem replay_of_mem {item : ι} (hitem : item ∈ items) (hkey : (upsert item).key = key)
    (hset : ∀ start, P ((upsert item).write start))
    (hrow : replay key (items.map upsert) start = some row) : P row := by
  obtain ⟨before, after, rfl⟩ := append_of_mem hitem
  rw [map_append, replay_append, map_cons, ← singleton_append, replay_append] at hrow
  have hwritten : replay key [upsert item] (replay key (before.map upsert) start) =
      some ((upsert item).write (replay key (before.map upsert) start)) := if_pos hkey
  rw [hwritten] at hrow
  refine replay_invariant (fun other hmem ↦ hkeep other ?_) (hset _) hrow
  exact mem_append_right _ (mem_cons_of_mem _ hmem)

end

section

variable {value : ι → φ} (hfield : ∀ item start, field ((upsert item).write start) = value item)
include hfield

theorem map_replay :
    (replay key (items.map upsert) start).map field =
      (lastWrite key (items.map fun item ↦ ((upsert item).key, value item))).or
        (start.map field) := by
  induction items using List.reverseRecOn with
  | nil => exact (Option.none_or).symm
  | append_singleton items last ih =>
    rw [map_append, map_singleton, replay_concat, map_append, map_singleton, lastWrite_concat]
    by_cases hkey : (upsert last).key = key
    · rw [if_pos hkey, if_pos hkey, Option.some_or, Option.map_some, hfield]
    · rw [if_neg hkey, if_neg hkey]
      exact ih

theorem lastWrite_of_replay {item : ι} (hitem : item ∈ items) (hkey : (upsert item).key = key)
    (hrow : replay key (items.map upsert) start = some row) :
    lastWrite key (items.map fun item ↦ ((upsert item).key, value item)) = some (field row) := by
  have hreplay : (replay key (items.map upsert) start).map field = _ := map_replay hfield
  rw [hrow, Option.map_some] at hreplay
  cases hlast : lastWrite key (items.map fun item ↦ ((upsert item).key, value item)) with
  | none =>
    rw [lastWrite_eq_none_iff, map_map] at hlast
    exact absurd (mem_map.mpr ⟨item, hitem, hkey⟩) hlast
  | some last =>
    rw [hlast, Option.some_or] at hreplay
    exact hreplay.symm

end

def fieldWrites (upsert : ι → Upsert κ ν) (value : ι → Option φ) (items : List ι) : List (κ × φ) :=
  items.filterMap fun item ↦ (value item).map ((upsert item).key, ·)

variable {value : ι → Option φ}

omit [DecidableEq κ] in
theorem fieldWrites_concat (items : List ι) (last : ι) :
    fieldWrites upsert value (items ++ [last]) =
      fieldWrites upsert value items ++ ((value last).map ((upsert last).key, ·)).toList := by
  rw [fieldWrites, filterMap_append, ← fieldWrites]
  cases hvalue : value last with
  | none | some _ => simp [hvalue]

theorem lastWrite_fieldWrites_eq_none (h : replay key (items.map upsert) start = none) :
    lastWrite key (fieldWrites upsert value items) = none := by
  rw [lastWrite_eq_none_iff]
  intro hmem
  obtain ⟨write, hwrite, rfl⟩ := mem_map.mp hmem
  obtain ⟨item, hitem, hvalue⟩ := mem_filterMap.mp hwrite
  obtain ⟨written, -, rfl⟩ := Option.map_eq_some_iff.mp hvalue
  have hmapped : upsert item ∈ items.map upsert := mem_map_of_mem hitem
  obtain ⟨row, hrow⟩ := exists_replay_of_mem start hmapped rfl
  nomatch h.symm.trans hrow

/-- A field that upserts may leave as it is has the value of the last one that does not, or else the
one that it had. -/
theorem field_replay (hwritten : ∀ item start written, value item = some written →
      field ((upsert item).write start) = written)
    (hleft : ∀ item row, value item = none → field ((upsert item).write (some row)) = field row)
    (hrow : replay key (items.map upsert) start = some row) {expected : φ}
    (hexpected : (lastWrite key (fieldWrites upsert value items)).or (start.map field) =
      some expected) : field row = expected := by
  induction items using List.reverseRecOn generalizing row with
  | nil =>
    obtain rfl : start = some row := hrow
    exact Option.some.inj hexpected
  | append_singleton items last ih =>
    rw [map_append, map_singleton, replay_concat] at hrow
    rw [fieldWrites_concat] at hexpected
    cases hvalue : value last with
    | none =>
      rw [hvalue, Option.map_none, Option.toList_none, append_nil] at hexpected
      split_ifs at hrow with hkey
      · cases hreplay : replay key (items.map upsert) start with
        | none =>
          rw [lastWrite_fieldWrites_eq_none hreplay, Option.none_or] at hexpected
          obtain ⟨first, rfl, -⟩ := Option.map_eq_some_iff.mp hexpected
          obtain ⟨before, hbefore⟩ := exists_replay_some key (items.map upsert) first
          nomatch hreplay.symm.trans hbefore
        | some before =>
          rw [← Option.some.inj hrow, hreplay, hleft last before hvalue]
          exact ih hreplay hexpected
      · exact ih hrow hexpected
    | some value =>
      rw [hvalue, Option.map_some, Option.toList_some, lastWrite_concat] at hexpected
      dsimp only at hexpected
      split_ifs at hrow hexpected with hkey
      · rw [← Option.some.inj hrow, ← Option.some.inj hexpected]
        exact hwritten last _ value hvalue
      · exact ih hrow hexpected

end Fields

end

/-! ### All keys -/

variable {upserts : List (Upsert κ ν)}

/-- The keys that are not a writer's own have their values, and no key is gone. -/
structure KeepsOthers (own : κ → Prop) (before after : OrderedMap κ ν) : Prop where
  others : ∀ key, ¬ own key → after.get key = before.get key
  stays : ∀ key, (before.get key).isSome → (after.get key).isSome

namespace OrderedMap

variable {map : OrderedMap κ ν}

theorem get_upsert (map : OrderedMap κ ν) (upsert : Upsert κ ν) (key : κ) :
    (map.upsert upsert).get key = replay key [upsert] (map.get key) := by
  rw [OrderedMap.upsert, get_set]
  show _ = if upsert.key = key then some (upsert.write (map.get key)) else map.get key
  by_cases hkey : upsert.key = key
  · rw [if_pos hkey.symm, if_pos hkey, hkey]
  · rw [if_neg (Ne.symm hkey), if_neg hkey]

section

variable (map : OrderedMap κ ν) (upserts : List (Upsert κ ν))

theorem get_upsertAll (key : κ) :
    (map.upsertAll upserts).get key = replay key upserts (map.get key) := by
  induction upserts generalizing map with
  | nil => rfl
  | cons first rest ih =>
    show ((map.upsert first).upsertAll rest).get key = _
    rw [ih, get_upsert]
    rfl

theorem upsertAll_concat (last : Upsert κ ν) :
    map.upsertAll (upserts ++ [last]) = (map.upsertAll upserts).upsert last :=
  foldl_append

end

theorem entries_eq_of_get {first second : List (κ × ν)} (hnodup : (first.map Prod.fst).Nodup)
    (hkeys : first.map Prod.fst = second.map Prod.fst)
    (hget : ∀ key, first.lookup key = second.lookup key) : first = second := by
  have hlength : first.length = second.length := by
    simpa only [length_map] using congrArg List.length hkeys
  refine ext_getElem hlength fun index hfirst hsecond ↦ ?_
  have hkey := getElem_of_eq hkeys (by rwa [length_map])
  rw [getElem_map, getElem_map] at hkey
  have hmem : (first[index].1, first[index].2) ∈ first := getElem_mem hfirst
  have hother : (first[index].1, second[index].2) ∈ second := hkey ▸ getElem_mem hsecond
  have hvalue := hget first[index].1
  rw [(lookup_eq_some_iff hnodup _ _).mpr hmem,
    (lookup_eq_some_iff (hkeys ▸ hnodup) _ _).mpr hother] at hvalue
  exact Prod.ext hkey (Option.some.inj hvalue)

theorem ext_get {other : OrderedMap κ ν} (hkeys : map.keys = other.keys)
    (hget : ∀ key, map.get key = other.get key) : map = other := by
  obtain ⟨entries, hnodup⟩ := map
  obtain ⟨others, _⟩ := other
  obtain rfl : entries = others := entries_eq_of_get hnodup hkeys hget
  rfl

theorem keys_upsertAll (h : ∀ upsert ∈ upserts, upsert.key ∈ map.keys) :
    (map.upsertAll upserts).keys = map.keys := by
  induction upserts using List.reverseRecOn with
  | nil => rfl
  | append_singleton upserts last ih =>
    have hbefore := ih fun upsert hmem ↦ h upsert (mem_append_left _ hmem)
    rw [upsertAll_concat, OrderedMap.upsert, keys_set, hbefore, if_pos]
    exact h last (mem_append_right _ (mem_singleton.mpr rfl))

theorem upsertAll_eq_self_iff : map.upsertAll upserts = map ↔
    ∀ upsert ∈ upserts, replay upsert.key upserts (map.get upsert.key) = map.get upsert.key := by
  constructor
  · intro h upsert _
    rw [← get_upsertAll, h]
  · intro h
    refine ext_get (keys_upsertAll fun upsert hmem ↦ ?_) fun key ↦ ?_
    · obtain ⟨value, hvalue⟩ := exists_replay_of_mem (map.get upsert.key) hmem rfl
      exact (map.mem_keys_iff _).mpr ⟨value, (h upsert hmem).symm.trans hvalue⟩
    · rw [get_upsertAll]
      by_cases hwritten : ∃ upsert ∈ upserts, upsert.key = key
      · obtain ⟨upsert, hmem, rfl⟩ := hwritten
        exact h upsert hmem
      · exact replay_of_notMem fun upsert hmem hkey ↦ hwritten ⟨upsert, hmem, hkey⟩

theorem upsertAll_map_eq_self {ι : Type*} {upsert : ι → Upsert κ ν} {items : List ι}
    (h : ∀ item ∈ items, ∃ first, map.get (upsert item).key = some first ∧
      ∀ row, replay (upsert item).key (items.map upsert) (some first) = some row → row = first) :
    map.upsertAll (items.map upsert) = map := by
  rw [upsertAll_eq_self_iff]
  intro written hmem
  obtain ⟨item, hitem, rfl⟩ := mem_map.mp hmem
  obtain ⟨first, hfirst, hsame⟩ := h item hitem
  obtain ⟨row, hrow⟩ := exists_replay_some (upsert item).key (items.map upsert) first
  rw [hfirst, hrow, hsame row hrow]

theorem keepsOthers_upsertAll {ι : Type*} {own : κ → Prop} {upsert : ι → Upsert κ ν}
    (map : OrderedMap κ ν) (items : List ι) (h : ∀ item, own (upsert item).key) :
    KeepsOthers own map (map.upsertAll (items.map upsert)) where
  others key hkey := by
    rw [get_upsertAll, replay_of_notMem]
    rintro _ hmem rfl
    obtain ⟨item, -, rfl⟩ := List.mem_map.mp hmem
    exact hkey (h item)
  stays key hkey := by
    rw [get_upsertAll]
    exact isSome_replay.mpr (.inl hkey)

end OrderedMap

end Bridgeport.Foundation
