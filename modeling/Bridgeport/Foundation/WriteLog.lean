import Mathlib.Data.List.Induction

/-!
# Logs of writes

A log is a list of writes of values to keys, oldest first. `applyWrites` is the store after a log,
and `lastWrite` the last value that a log gives a key. `applyWrites_apply` reads one through the
other: a key holds its last write, or what it held before.
-/

namespace Bridgeport.Foundation

open List Option

variable {κ ν : Type*} [DecidableEq κ]

def applyWrites (writes : List (κ × ν)) (store : κ → ν) : κ → ν :=
  writes.foldl (fun store write ↦ Function.update store write.1 write.2) store

variable (key : κ)

section

variable (writes : List (κ × ν))

/-- The last value that a log gives a key. -/
def lastWrite : Option ν :=
  writes.foldl (fun last write ↦ if write.1 = key then some write.2 else last) none

theorem applyWrites_append (first second : List (κ × ν)) (store : κ → ν) :
    applyWrites (first ++ second) store = applyWrites second (applyWrites first store) :=
  foldl_append

@[simp]
theorem lastWrite_nil : lastWrite key ([] : List (κ × ν)) = none :=
  rfl

theorem lastWrite_concat (write : κ × ν) : lastWrite key (writes ++ [write]) =
      if write.1 = key then some write.2 else lastWrite key writes := by
  rw [lastWrite, foldl_append, foldl_cons, foldl_nil, lastWrite]

/-- A key holds its last write, or what it held before the log. -/
theorem applyWrites_apply (store : κ → ν) (key : κ) :
    applyWrites writes store key = (lastWrite key writes).getD (store key) := by
  induction writes using List.reverseRecOn with
  | nil => rfl
  | append_singleton writes write ih =>
    rw [applyWrites_append, lastWrite_concat]
    show Function.update (applyWrites writes store) write.1 write.2 key = _
    rw [Function.update_apply, ih]
    by_cases hkey : write.1 = key
    · rw [if_pos hkey.symm, if_pos hkey, getD_some]
    · rw [if_neg (Ne.symm hkey), if_neg hkey]

theorem lastWrite_append (first second : List (κ × ν)) :
    lastWrite key (first ++ second) = (lastWrite key second).or (lastWrite key first) := by
  induction second using List.reverseRecOn with
  | nil => rw [append_nil, lastWrite_nil, none_or]
  | append_singleton second write ih =>
    rw [← append_assoc, lastWrite_concat, lastWrite_concat, ih]
    split_ifs
    · rfl
    · rfl

theorem lastWrite_eq_none_iff : lastWrite key writes = none ↔ key ∉ writes.map Prod.fst := by
  induction writes using List.reverseRecOn with
  | nil => simp
  | append_singleton writes write ih =>
    rw [lastWrite_concat, map_append, map_singleton, mem_append, mem_singleton, not_or, ← ih]
    by_cases hkey : write.1 = key
    · simp [hkey]
    · simp [hkey, Ne.symm hkey]

end

variable {writes : List (κ × ν)}

theorem mem_of_lastWrite {key : κ} {value : ν} (h : lastWrite key writes = some value) :
    (key, value) ∈ writes := by
  induction writes using List.reverseRecOn with
  | nil => nomatch h
  | append_singleton writes write ih =>
    rw [lastWrite_concat] at h
    split_ifs at h with hkey
    · obtain rfl := some.inj h
      exact mem_append_right _ (mem_singleton.mpr (Prod.ext hkey.symm rfl))
    · exact mem_append_left _ (ih h)

theorem lastWrite_eq_some {key : κ} {value : ν} (hmem : (key, value) ∈ writes)
    (hsame : ∀ other, (key, other) ∈ writes → other = value) :
    lastWrite key writes = some value := by
  cases hlast : lastWrite key writes with
  | none =>
    rw [lastWrite_eq_none_iff] at hlast
    exact absurd (mem_map_of_mem hmem) hlast
  | some last => rw [hsame last (mem_of_lastWrite hlast)]

variable (logs : List (List (κ × ν)))

/-- In logs that are replayed from the last to the first, the first log that writes a key wins. -/
theorem lastWrite_flatten_reverse :
    lastWrite key logs.reverse.flatten = logs.findSome? (lastWrite key) := by
  induction logs with
  | nil => rfl
  | cons log logs ih =>
    rw [reverse_cons, flatten_append, flatten_singleton, lastWrite_append, ih, List.findSome?_cons]
    cases lastWrite key log <;> rfl

theorem lastWrite_flatten_eq_none {logs : List (List (κ × ν))}
    (h : logs.findSome? (lastWrite key) = none) : lastWrite key logs.flatten = none := by
  rw [lastWrite_eq_none_iff]
  intro hmem
  obtain ⟨write, hwrite, hkey⟩ := mem_map.mp hmem
  obtain ⟨log, hlog, hwrite⟩ := mem_flatten.mp hwrite
  have hnone := List.findSome?_eq_none_iff.mp h log hlog
  exact (lastWrite_eq_none_iff key log).mp hnone (hkey ▸ mem_map_of_mem hwrite)

theorem findSome?_lastWrite_range (logs : ℕ → List (κ × ν)) (count : ℕ) (key : κ) (value : ν) :
    ((List.range count).map logs).findSome? (lastWrite key) = some value ↔
      ∃ index < count, lastWrite key (logs index) = some value ∧
        ∀ earlier < index, lastWrite key (logs earlier) = none := by
  induction count with
  | zero => simp
  | succ count ih =>
    rw [range_succ, map_append, map_singleton, List.findSome?_append, List.findSome?_singleton,
      or_eq_some_iff, ih, List.findSome?_eq_none_iff]
    constructor
    · rintro (⟨index, hindex, hwrite⟩ | ⟨hnone, hwrite⟩)
      · exact ⟨index, Nat.lt_succ_of_lt hindex, hwrite⟩
      · refine ⟨count, Nat.lt_succ_self count, hwrite, fun earlier hearlier ↦ ?_⟩
        exact hnone _ (mem_map_of_mem (mem_range.mpr hearlier))
    · rintro ⟨index, hindex, hwrite, hfirst⟩
      rcases Nat.lt_succ_iff_lt_or_eq.mp hindex with hlt | heq
      · exact .inl ⟨index, hlt, hwrite, hfirst⟩
      · rw [heq] at hwrite hfirst
        refine .inr ⟨fun log hlog ↦ ?_, hwrite⟩
        obtain ⟨earlier, hearlier, hsame⟩ := mem_map.mp hlog
        rw [← hsame]
        exact hfirst earlier (mem_range.mp hearlier)

/-- Logs applied in order, then one more, then the logs again from the last to the first: a key
holds the last write of the first of these logs that writes it. -/
theorem applyWrites_replay (log : List (κ × ν)) (store : κ → ν) (key : κ) :
    applyWrites (logs.flatten ++ log ++ logs.reverse.flatten) store key =
      ((logs ++ [log]).findSome? (lastWrite key)).getD (store key) := by
  rw [applyWrites_apply, lastWrite_append, lastWrite_append, lastWrite_flatten_reverse,
    List.findSome?_append]
  rcases hfirst : logs.findSome? (lastWrite key) with _ | value
  · rw [lastWrite_flatten_eq_none key hfirst, none_or, none_or, or_none, List.findSome?_singleton]
  · rfl

end Bridgeport.Foundation
