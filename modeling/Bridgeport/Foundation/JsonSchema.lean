import Mathlib.Data.List.Nodup

/-!
# JSON values and schemas

A `JsonData` is a JSON value over some type of numbers. A `Schema` checks one and returns it with
the known members of its objects, in the order of the schema.
-/

namespace Bridgeport.Foundation

open List

inductive JsonData (ν : Type)
  | null
  | bool (value : Bool)
  | number (value : ν)
  | string (value : String)
  | array (elements : List (JsonData ν))
  | object (members : List (String × JsonData ν))

inductive Schema
  | string
  | text (check : String → Bool)
  | number
  | boolean
  | array (elements : Schema)
  | record (values : Schema)
  | object (fields : List (String × Bool × Schema))

def required (name : String) (schema : Schema) : String × Bool × Schema :=
  (name, true, schema)

/-- A field that may be left out. -/
def optional (name : String) (schema : Schema) : String × Bool × Schema :=
  (name, false, schema)

variable {ν : Type}

namespace Schema

mutual

def parse : Schema → JsonData ν → Option (JsonData ν)
  | .string, .string value => some (.string value)
  | .text check, .string value => if check value then some (.string value) else none
  | .number, .number value => some (.number value)
  | .boolean, .bool value => some (.bool value)
  | .array schema, .array elements => (elements.mapM (parse schema)).map .array
  | .record schema, .object members =>
    (members.mapM fun member ↦ (parse schema member.2).map (member.1, ·)).map .object
  | .object fields, .object members => (parseFields fields members).map .object
  | _, _ => none

def parseFields : List (String × Bool × Schema) → List (String × JsonData ν) →
    Option (List (String × JsonData ν))
  | [], _ => some []
  | (name, isRequired, schema) :: fields, members =>
    match members.lookup name with
    | none => if isRequired then none else parseFields fields members
    | some value =>
      match parse schema value with
      | none => none
      | some checked => (parseFields fields members).map ((name, checked) :: ·)

end

/-- The schema accepts the value and returns it as it is. -/
def Accepts (schema : Schema) (value : JsonData ν) : Prop :=
  schema.parse value = some value

end Schema

/-! ### Lists and records -/

theorem mapM_eq_some_self_iff {α : Type*} {check : α → Option α} {values : List α} :
    values.mapM check = some values ↔ ∀ value ∈ values, check value = some value := by
  induction values with
  | nil => simp
  | cons value rest ih =>
    rw [mapM_cons, forall_mem_cons, ← ih]
    cases check value with
    | none => simp
    | some checked =>
      cases rest.mapM check with
      | none | some _ => simp

theorem mapM_eq_none_of_mem {α β : Type*} {check : α → Option β} {values : List α} {value : α}
    (hvalue : value ∈ values) (h : check value = none) : values.mapM check = none := by
  induction values with
  | nil => exact absurd hvalue not_mem_nil
  | cons first rest ih =>
    rw [mapM_cons]
    rcases mem_cons.mp hvalue with rfl | hrest
    · rw [h]
      rfl
    · rw [ih hrest]
      cases check first with
      | none | some _ => rfl

variable {schema : Schema} {members : List (String × JsonData ν)}

namespace Schema

variable {elements : List (JsonData ν)}

@[simp]
theorem accepts_array :
    (Schema.array schema).Accepts (.array elements) ↔
      ∀ element ∈ elements, schema.Accepts element := by
  unfold Accepts
  rw [parse, ← mapM_eq_some_self_iff]
  simp

theorem accepts_record (h : ∀ member ∈ members, schema.Accepts member.2) :
    (Schema.record schema).Accepts (.object members) := by
  unfold Accepts
  rw [parse, mapM_eq_some_self_iff.mpr]
  · rfl
  · intro member hmember
    rw [h member hmember]
    rfl

theorem parse_array_eq_none {element : JsonData ν} (helement : element ∈ elements)
    (h : schema.parse element = none) : (Schema.array schema).parse (.array elements) = none := by
  rw [parse, mapM_eq_none_of_mem helement h]
  rfl

end Schema

/-! ### Objects -/

/-- The members that are not left out. -/
def present (entries : List (String × Option (JsonData ν))) : List (String × JsonData ν) :=
  entries.filterMap fun entry ↦ entry.2.map (entry.1, ·)

variable {entries : List (String × Option (JsonData ν))} {name : String}

/-- The first entry of a name that is there is what is read. -/
@[simp]
theorem lookup_present_cons (key : String) (value : Option (JsonData ν)) :
    (present ((key, value) :: entries)).lookup name =
      (if name = key then value else none).or ((present entries).lookup name) := by
  cases value with
  | none => simp [present]
  | some value =>
    show ((key, value) :: present entries).lookup name = _
    by_cases h : name = key
    · simp [h]
    · simp [h, lookup_cons, beq_eq_false_iff_ne.mpr h]

@[simp]
theorem lookup_present_nil : (present ([] : List (String × Option (JsonData ν)))).lookup name = none :=
  rfl

/-- What is read of a record: the member, or nothing if it is left out. -/
theorem lookup_present (hnodup : (entries.map Prod.fst).Nodup) {value : Option (JsonData ν)}
    (h : (name, value) ∈ entries) : (present entries).lookup name = value := by
  have habsent {rest : List (String × Option (JsonData ν))} (hname : name ∉ rest.map Prod.fst) :
      (present rest).lookup name = none := by
    induction rest with
    | nil => rfl
    | cons first rest ih =>
      rw [map_cons, mem_cons, not_or] at hname
      rw [lookup_present_cons, if_neg hname.1, ih hname.2, Option.or_none]
  induction entries with
  | nil => exact absurd h not_mem_nil
  | cons first rest ih =>
    obtain ⟨hfirst, hrest⟩ := nodup_cons.mp hnodup
    rw [lookup_present_cons]
    rcases mem_cons.mp h with rfl | htail
    · rw [if_pos rfl, habsent hfirst, Option.or_none]
    · have hne : name ≠ first.1 := fun hsame ↦ hfirst (hsame ▸ mem_map_of_mem htail)
      rw [if_neg hne, Option.none_or, ih hrest htail]

structure FieldFits (field : String × Bool × Schema) (entry : String × Option (JsonData ν)) :
    Prop where
  name : field.1 = entry.1
  isThere : entry.2 = none → field.2.1 = false
  accepted : ∀ value, entry.2 = some value → field.2.2.Accepts value

variable {other : String} {value : JsonData ν}

@[simp]
theorem fieldFits_required :
    FieldFits (required name schema) (other, some value) ↔ name = other ∧ schema.Accepts value := by
  constructor
  · intro h
    exact ⟨h.name, h.accepted value rfl⟩
  · intro ⟨hname, hvalue⟩
    exact ⟨hname, nofun, fun _ hsame ↦ Option.some.inj hsame ▸ hvalue⟩

@[simp]
theorem fieldFits_optional {value : Option (JsonData ν)} :
    FieldFits (optional name schema) (other, value) ↔
      name = other ∧ ∀ given, value = some given → schema.Accepts given := by
  constructor
  · intro h
    exact ⟨h.name, h.accepted⟩
  · intro ⟨hname, hvalue⟩
    exact ⟨hname, fun _ ↦ rfl, hvalue⟩

namespace Schema

variable {fields : List (String × Bool × Schema)}

theorem parseFields_present (hfits : List.Forall₂ FieldFits fields entries)
    (hlookup : ∀ name value, (name, value) ∈ entries → members.lookup name = value) :
    parseFields fields members = some (present entries) := by
  induction hfits with
  | nil => rfl
  | @cons field entry fields entries hfield _ ih =>
    have hrest := ih fun name value hmem ↦ hlookup name value (mem_cons_of_mem _ hmem)
    obtain ⟨name, isRequired, schema⟩ := field
    obtain ⟨other, given⟩ := entry
    obtain rfl : name = other := hfield.name
    have hfirst := hlookup name given mem_cons_self
    cases given with
    | none =>
      have hoptional : isRequired = false := hfield.isThere rfl
      rw [parseFields, hfirst, hoptional]
      exact hrest
    | some value =>
      have haccepts : schema.parse value = some value := hfield.accepted value rfl
      rw [parseFields, hfirst]
      simp only [haccepts, hrest]
      rfl

theorem accepts_present (hfits : List.Forall₂ FieldFits fields entries)
    (hnodup : (entries.map Prod.fst).Nodup) :
    (Schema.object fields).Accepts (.object (present entries)) := by
  unfold Accepts
  rw [parse, parseFields_present hfits fun _ _ hmem ↦ lookup_present hnodup hmem]
  rfl

theorem parse_object_eq_none {isRequired : Bool} (hfield : (name, isRequired, schema) ∈ fields)
    (hvalue : members.lookup name = some value) (h : schema.parse value = none) :
    (Schema.object fields).parse (.object members) = none := by
  have hfields : parseFields fields members = none := by
    induction fields with
    | nil => exact absurd hfield not_mem_nil
    | cons first rest ih =>
      obtain ⟨other, otherRequired, otherSchema⟩ := first
      rcases mem_cons.mp hfield with hsame | hrest
      · obtain ⟨rfl, rfl, rfl⟩ : name = other ∧ isRequired = otherRequired ∧
          schema = otherSchema := by simpa using hsame
        rw [parseFields, hvalue]
        simp only [h]
      · rw [parseFields, ih hrest]
        split
        · split_ifs <;> rfl
        · split <;> rfl
  rw [parse, hfields]
  rfl

end Schema

end Bridgeport.Foundation
