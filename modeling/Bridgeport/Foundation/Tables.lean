import Mathlib.Algebra.Order.BigOperators.Group.List
import Mathlib.Algebra.Order.Ring.Nat
import Mathlib.Data.List.Nodup

/-!
# Tables with a primary key

A `Table` is a list of rows with different primary keys, in the order in which a query returns them.
A row is found by its key, `insert` adds a row whose key is new, `update` changes the row of a key
and `erase` removes it (`find?_insert`, `find?_update`, `find?_erase`).

`Table.Extends` says that no row has been lost. As keys are unique, what is found in a table is
found in every table that extends it (`Extends.find?_eq`).
-/

namespace Bridgeport.Foundation

open List Function

/-- The rows with another key than a removed one are found as before. -/
theorem find?_filter_ne {α κ : Type*} [DecidableEq κ] (key : α → κ) (rows : List α)
    (removed wanted : κ) : (rows.filter (key · ≠ removed)).find? (key · = wanted) =
      if removed = wanted then none else rows.find? (key · = wanted) := by
  rw [find?_filter]
  split_ifs with h
  · simp [h]
  · congr 1
    funext row
    by_cases hrow : key row = wanted <;> simp [hrow, Ne.symm h]

/-- Rows that have a primary key. -/
class Keyed (Row : Type) where
  id : Row → String

structure Table (Row : Type) [Keyed Row] where
  rows : List Row
  nodup_ids : (rows.map Keyed.id).Nodup

namespace Table

variable {Row : Type} [Keyed Row]

def empty : Table Row :=
  ⟨[], nodup_nil⟩

variable (table : Table Row) (id : String)

def find? : Option Row :=
  table.rows.find? fun row ↦ Keyed.id row = id

/-- The key is not in use. -/
def Fresh : Prop :=
  id ∉ table.rows.map Keyed.id

instance : Decidable (table.Fresh id) :=
  inferInstanceAs (Decidable (¬ _))

def insert (row : Row) : Table Row :=
  if h : table.Fresh (Keyed.id row) then
    ⟨table.rows ++ [row], by
      rw [map_append, nodup_append]
      refine ⟨table.nodup_ids, nodup_singleton _, fun first hfirst second hsecond ↦ ?_⟩
      rw [mem_singleton.mp hsecond]
      exact ne_of_mem_of_not_mem hfirst h⟩
  else table

def update (change : Row → Row) (hid : ∀ row, Keyed.id (change row) = Keyed.id row) : Table Row :=
  ⟨table.rows.map fun row ↦ if Keyed.id row = id then change row else row, by
    have hsame : Keyed.id ∘ (fun row ↦ if Keyed.id row = id then change row else row) =
        (Keyed.id : Row → String) := by
      refine funext fun row ↦ ?_
      rw [comp_apply]
      split_ifs
      · exact hid row
      · rfl
    rw [map_map, hsame]
    exact table.nodup_ids⟩

def updateAll (change : Row → Row) (hid : ∀ row, Keyed.id (change row) = Keyed.id row) :
    Table Row :=
  ⟨table.rows.map change, by
    have hsame : Keyed.id ∘ change = (Keyed.id : Row → String) := funext hid
    rw [map_map, hsame]
    exact table.nodup_ids⟩

def erase : Table Row :=
  ⟨table.rows.filter fun row ↦ Keyed.id row ≠ id,
    table.nodup_ids.sublist (filter_sublist.map Keyed.id)⟩

variable {table : Table Row} {id : String} {row : Row}

theorem find?_eq_some_iff : table.find? id = some row ↔ row ∈ table.rows ∧ Keyed.id row = id := by
  constructor
  · intro h
    exact ⟨mem_of_find?_eq_some h, by simpa using List.find?_some h⟩
  · rintro ⟨hmem, rfl⟩
    have hfound : (table.find? (Keyed.id row)).isSome := by
      rw [find?, List.find?_isSome]
      exact ⟨row, hmem, decide_eq_true rfl⟩
    obtain ⟨other, hother⟩ := Option.isSome_iff_exists.mp hfound
    have hkey : Keyed.id other = Keyed.id row := by simpa using List.find?_some hother
    rw [hother, inj_on_of_nodup_map table.nodup_ids (mem_of_find?_eq_some hother) hmem hkey]

theorem find?_of_mem (h : row ∈ table.rows) : table.find? (Keyed.id row) = some row :=
  find?_eq_some_iff.mpr ⟨h, rfl⟩

theorem eq_of_id_eq {first second : Row} (hfirst : first ∈ table.rows)
    (hsecond : second ∈ table.rows) (h : Keyed.id first = Keyed.id second) : first = second :=
  inj_on_of_nodup_map table.nodup_ids hfirst hsecond h

theorem not_fresh_of_find? (h : table.find? id = some row) : ¬ table.Fresh id := by
  obtain ⟨hmem, rfl⟩ := find?_eq_some_iff.mp h
  exact not_not.mpr (mem_map_of_mem hmem)

theorem rows_insert (h : table.Fresh (Keyed.id row)) :
    (table.insert row).rows = table.rows ++ [row] := by
  rw [insert, dif_pos h]

theorem mem_insert {other : Row} (h : other ∈ (table.insert row).rows) :
    other ∈ table.rows ∨ other = row := by
  unfold insert at h
  split_ifs at h
  · exact (mem_append.mp h).imp_right mem_singleton.mp
  · exact .inl h

theorem find?_insert_self (h : table.Fresh (Keyed.id row)) :
    (table.insert row).find? (Keyed.id row) = some row := by
  refine find?_of_mem ?_
  rw [rows_insert h]
  exact mem_append_right _ (mem_singleton.mpr rfl)

theorem find?_insert (h : table.Fresh (Keyed.id row)) (id : String) :
    (table.insert row).find? id = if Keyed.id row = id then some row else table.find? id := by
  split_ifs with hid
  · rw [← hid]
    exact find?_insert_self h
  · rw [find?, rows_insert h]
    simp [find?, hid]

@[simp]
theorem find?_update (table : Table Row) (id : String) (change : Row → Row)
    (hid : ∀ row, Keyed.id (change row) = Keyed.id row) (other : String) :
    (table.update id change hid).find? other =
      if id = other then (table.find? other).map change else table.find? other := by
  have hkey : ∀ row, Keyed.id (if Keyed.id row = id then change row else row) = Keyed.id row := by
    intro row
    split_ifs
    · exact hid row
    · rfl
  have hchanged : (table.update id change hid).find? other =
      (table.find? other).map fun row ↦ if Keyed.id row = id then change row else row := by
    rw [find?, update, List.find?_map]
    simp only [comp_def, hkey]
    rfl
  rw [hchanged]
  cases hfound : table.find? other with
  | none => simp
  | some row =>
    have hrow : Keyed.id row = other := (find?_eq_some_iff.mp hfound).2
    by_cases h : id = other
    · simp [h, hrow]
    · simp [h, hrow, Ne.symm h]

@[simp]
theorem find?_updateAll (table : Table Row) (change : Row → Row)
    (hid : ∀ row, Keyed.id (change row) = Keyed.id row) (id : String) :
    (table.updateAll change hid).find? id = (table.find? id).map change := by
  rw [find?, updateAll, List.find?_map]
  simp only [comp_def, hid]
  rfl

@[simp]
theorem find?_erase (table : Table Row) (id other : String) :
    (table.erase id).find? other = if id = other then none else table.find? other :=
  find?_filter_ne Keyed.id table.rows id other

/-- Every row is still there. -/
def Extends (earlier later : Table Row) : Prop :=
  earlier.rows ⊆ later.rows

theorem Extends.refl (table : Table Row) : table.Extends table :=
  List.Subset.refl _

theorem extends_insert (table : Table Row) (row : Row) : table.Extends (table.insert row) := by
  unfold insert
  split_ifs
  · exact subset_append_left _ _
  · exact Extends.refl table

theorem Extends.find?_eq {earlier later : Table Row} (h : earlier.Extends later)
    (hfound : earlier.find? id = some row) : later.find? id = some row := by
  obtain ⟨hmem, hid⟩ := find?_eq_some_iff.mp hfound
  exact find?_eq_some_iff.mpr ⟨h hmem, hid⟩

section Fields

variable {Value : Type*} {field : Row → Value}

/-- Every row is still there, with the same value of a field. -/
def Keeps (field : Row → Value) (earlier later : Table Row) : Prop :=
  ∀ id row, earlier.find? id = some row →
    ∃ other, later.find? id = some other ∧ field other = field row

theorem Keeps.trans {first second third : Table Row} (hfirst : first.Keeps field second)
    (hsecond : second.Keeps field third) : first.Keeps field third := by
  intro id row hrow
  obtain ⟨middle, hmiddle, hsame⟩ := hfirst id row hrow
  obtain ⟨other, hother, hkept⟩ := hsecond id middle hmiddle
  exact ⟨other, hother, hkept.trans hsame⟩

theorem Extends.keeps {earlier later : Table Row} (h : earlier.Extends later) :
    earlier.Keeps field later :=
  fun _ row hrow ↦ ⟨row, h.find?_eq hrow, rfl⟩

theorem Keeps.refl (table : Table Row) : table.Keeps field table :=
  (Extends.refl table).keeps

theorem keeps_update (table : Table Row) (id : String) {change : Row → Row}
    (hid : ∀ row, Keyed.id (change row) = Keyed.id row)
    (hfield : ∀ row, field (change row) = field row) :
    table.Keeps field (table.update id change hid) := by
  intro other row hrow
  rw [find?_update, hrow]
  split_ifs
  · exact ⟨change row, rfl, hfield row⟩
  · exact ⟨row, rfl, rfl⟩

end Fields

end Table

/-! ### Unique keys of tables -/

section

open List

structure KeySupply where
  next : List String → String
  next_not_mem (used : List String) : next used ∉ used

def KeySupply.longer : KeySupply where
  next used := String.ofList (List.replicate ((used.map String.length).sum + 1) 'c')
  next_not_mem used := by
    intro hmem
    have hle := single_le_sum (by simp) _ (mem_map_of_mem (f := String.length) hmem)
    simp at hle

namespace Table

variable {Row : Type} [Keyed Row] {Key : Type*} [DecidableEq Key] {table : Table Row} {key : Row → Key}

def ids (table : Table Row) : List String :=
  table.rows.map Keyed.id

theorem fresh_next (supply : KeySupply) (table : Table Row) : table.Fresh (supply.next table.ids) :=
  supply.next_not_mem table.ids

/-- No two rows have the same key. -/
def Unique (table : Table Row) (key : Row → Key) : Prop :=
  ∀ first ∈ table.rows, ∀ second ∈ table.rows, key first = key second → first = second

instance [DecidableEq Row] (table : Table Row) (key : Row → Key) : Decidable (table.Unique key) :=
  inferInstanceAs (Decidable (∀ first ∈ table.rows, ∀ second ∈ table.rows,
    key first = key second → first = second))

def findBy? (table : Table Row) (key : Row → Key) (value : Key) : Option Row :=
  table.rows.find? fun row ↦ key row = value

variable {row : Row}

omit [DecidableEq Key] in
/-- A query by primary key has at most one row. -/
theorem filter_id_eq (h : row ∈ table.rows) :
    (table.rows.filter fun other ↦ Keyed.id other = Keyed.id row) = [row] := by
  have hnodup := table.nodup_ids.of_map
  refine perm_singleton.mp ?_
  refine (perm_ext_iff_of_nodup (hnodup.filter _) (nodup_singleton _)).mpr fun other ↦ ?_
  rw [mem_filter, mem_singleton, decide_eq_true_eq]
  constructor
  · rintro ⟨hother, hid⟩
    exact eq_of_id_eq hother h hid
  · rintro rfl
    exact ⟨h, rfl⟩

variable {value : Key}

theorem mem_of_findBy? (h : table.findBy? key value = some row) :
    row ∈ table.rows ∧ key row = value :=
  ⟨mem_of_find?_eq_some h, by simpa using List.find?_some h⟩

theorem findBy?_eq_none_iff :
    table.findBy? key value = none ↔ ∀ row ∈ table.rows, key row ≠ value := by
  simp [findBy?]

theorem findBy?_eq_some_iff (h : table.Unique key) :
    table.findBy? key value = some row ↔ row ∈ table.rows ∧ key row = value := by
  refine ⟨mem_of_findBy?, fun ⟨hmem, hkey⟩ ↦ ?_⟩
  cases hfound : table.findBy? key value with
  | none => exact absurd hkey (findBy?_eq_none_iff.mp hfound row hmem)
  | some other =>
    obtain ⟨hother, hvalue⟩ := mem_of_findBy? hfound
    rw [h other hother row hmem (hvalue.trans hkey.symm)]

variable {other : Row}

theorem mem_insert_iff (h : table.Fresh (Keyed.id row)) :
    other ∈ (table.insert row).rows ↔ other ∈ table.rows ∨ other = row := by
  rw [rows_insert h, mem_append, mem_singleton]

theorem findBy?_insert (h : table.Fresh (Keyed.id row)) (value : Key) :
    (table.insert row).findBy? key value =
      (table.findBy? key value).or (if key row = value then some row else none) := by
  rw [findBy?, rows_insert h, List.find?_append, List.find?_singleton, findBy?]
  simp

theorem findBy?_insert_of_some {found : Row} (h : table.findBy? key value = some found) :
    (table.insert row).findBy? key value = some found := by
  by_cases hfresh : table.Fresh (Keyed.id row)
  · rw [findBy?_insert hfresh, h, Option.some_or]
  · rwa [insert, dif_neg hfresh]

omit [DecidableEq Key] in
theorem unique_insert (h : table.Unique key) (hnew : ∀ other ∈ table.rows, key other ≠ key row) :
    (table.insert row).Unique key := by
  intro first hfirst second hsecond hkey
  rcases mem_insert hfirst with hold | hfirst <;> rcases mem_insert hsecond with hother | hsecond
  · exact h first hold second hother hkey
  · exact absurd (hsecond ▸ hkey) (hnew first hold)
  · exact absurd (hfirst ▸ hkey.symm) (hnew second hother)
  · rw [hfirst, hsecond]

variable {id : String} {change : Row → Row}

omit [DecidableEq Key] in
theorem mem_update_iff (hid : ∀ row, Keyed.id (change row) = Keyed.id row) :
    other ∈ (table.update id change hid).rows ↔
    ∃ row ∈ table.rows, other = if Keyed.id row = id then change row else row := by
  simp [update, eq_comm]

omit [DecidableEq Key] in
theorem mem_update_of_key_ne (hid : ∀ row, Keyed.id (change row) = Keyed.id row)
    (hkey : ∀ row, key (change row) = key row) {existing : Row}
    (hexisting : existing ∈ table.rows) (hother : key other ≠ key existing) :
    other ∈ (table.update (Keyed.id existing) change hid).rows ↔ other ∈ table.rows := by
  rw [mem_update_iff]
  constructor
  · intro ⟨row, hrow, hsame⟩
    split_ifs at hsame with h
    · rw [hsame, hkey, eq_of_id_eq hrow hexisting h] at hother
      exact absurd rfl hother
    · exact hsame ▸ hrow
  · intro hmem
    refine ⟨other, hmem, (if_neg fun h ↦ hother ?_).symm⟩
    rw [eq_of_id_eq hmem hexisting h]

theorem findBy?_update (hid : ∀ row, Keyed.id (change row) = Keyed.id row)
    (hkey : ∀ row, key (change row) = key row) (value : Key) :
    (table.update id change hid).findBy? key value =
      (table.findBy? key value).map fun row ↦ if Keyed.id row = id then change row else row := by
  have hsame : ∀ row, key (if Keyed.id row = id then change row else row) = key row := by
    intro row
    split_ifs
    · exact hkey row
    · rfl
  rw [findBy?, update, List.find?_map]
  simp only [Function.comp_def, hsame]
  rfl

omit [DecidableEq Key] in
theorem unique_update (hid : ∀ row, Keyed.id (change row) = Keyed.id row) (h : table.Unique key)
    (hkey : ∀ row, key (change row) = key row) :
    (table.update id change hid).Unique key := by
  intro first hfirst second hsecond hsame
  obtain ⟨before, hbefore, rfl⟩ := (mem_update_iff hid).mp hfirst
  obtain ⟨other, hother, rfl⟩ := (mem_update_iff hid).mp hsecond
  have hkeys : ∀ row, key (if Keyed.id row = id then change row else row) = key row := by
    intro row
    split_ifs
    · exact hkey row
    · rfl
  rw [hkeys, hkeys] at hsame
  rw [h before hbefore other hother hsame]

theorem update_eq_self (hid : ∀ row, Keyed.id (change row) = Keyed.id row)
    (h : ∀ row ∈ table.rows, Keyed.id row = id → change row = row) :
    table.update id change hid = table := by
  have hrows : (table.update id change hid).rows = table.rows := by
    refine (map_congr_left fun row hmem ↦ ?_).trans (map_id' table.rows)
    split_ifs with hrow
    · exact h row hmem hrow
    · rfl
  cases table
  simpa [update] using hrows

end Table

end

end Bridgeport.Foundation
