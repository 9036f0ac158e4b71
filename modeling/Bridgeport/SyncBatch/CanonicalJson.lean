import Mathlib
import Bridgeport.Foundation.JsonSchema
import Bridgeport.Foundation.JsonValues

/-!
# Canonical JSON

`canonicalizeJson` writes a JSON value with the keys of its objects sorted, by the code units that
`sort` compares. The text of a number is a parameter.
-/

namespace Bridgeport.SyncBatch

open Foundation List
open Foundation.Json (quote stringify)

variable {ν α β : Type}

/-! ### Sorted keys -/

def characterUnits (character : Char) : List ℕ :=
  if character.toNat < 65536 then [character.toNat]
  else [55296 + (character.toNat - 65536) / 1024, 56320 + (character.toNat - 65536) % 1024]

/-- The code units that `sort` compares. -/
def codeUnits (key : String) : List ℕ :=
  key.toList.flatMap characterUnits

variable (entries : List (String × α))

def sortByKey : List (String × α) :=
  entries.mergeSort fun first second ↦ codeUnits first.1 ≤ codeUnits second.1

theorem decodeUnits_characterUnits_append (character : Char) (units : List ℕ) :
    Json.decodeUnits (characterUnits character ++ units) = character :: Json.decodeUnits units := by
  by_cases h : character.toNat < 65536
  · have hunit := Json.not_isSurrogate_toNat character
    rw [characterUnits, if_pos h, singleton_append]
    cases units with
    | nil => exact congrArg (fun character ↦ [character]) (Json.unitCharacter_toNat character)
    | cons unit units =>
      rw [Json.decodeUnits, if_neg fun hpair ↦ hunit hpair.1.1, Json.unitCharacter_toNat]
  · have hvalid : character.toNat < 55296 ∨
        57343 < character.toNat ∧ character.toNat < 1114112 := character.valid
    have hback : 65536 + (55296 + (character.toNat - 65536) / 1024 - 55296) * 1024 +
        (56320 + (character.toNat - 65536) % 1024 - 56320) = character.toNat := by
      omega
    rw [characterUnits, if_neg h, cons_append, singleton_append, Json.decodeUnits, if_pos, hback,
      Char.ofNat_toNat]
    unfold Json.IsSurrogate
    omega

theorem codeUnits_injective : Function.Injective codeUnits := by
  have hread (characters : List Char) :
      Json.decodeUnits (characters.flatMap characterUnits) = characters := by
    induction characters with
    | nil => rfl
    | cons character characters ih =>
      rw [flatMap_cons, decodeUnits_characterUnits_append, ih]
  intro key other h
  rw [← String.toList_inj, ← hread key.toList, ← hread other.toList]
  exact congrArg Json.decodeUnits h

theorem pairwise_sortByKey :
    (sortByKey entries).Pairwise fun first second ↦ codeUnits first.1 ≤ codeUnits second.1 := by
  have htrans : ∀ first second third : String × α,
      decide (codeUnits first.1 ≤ codeUnits second.1) →
      decide (codeUnits second.1 ≤ codeUnits third.1) →
      decide (codeUnits first.1 ≤ codeUnits third.1) := fun _ _ _ hfirst hsecond ↦
    decide_eq_true (le_trans (of_decide_eq_true hfirst) (of_decide_eq_true hsecond))
  have h := pairwise_mergeSort htrans
    (fun first second ↦ by simpa using le_total (codeUnits first.1) (codeUnits second.1)) entries
  exact h.imp of_decide_eq_true

/-- Entries with distinct keys are sorted alike exactly if they differ in their order only. -/
theorem sortByKey_eq_iff {entries others : List (String × α)}
    (hkeys : (entries.map Prod.fst).Nodup) :
    sortByKey entries = sortByKey others ↔ entries.Perm others := by
  have hentries := mergeSort_perm entries
    fun first second ↦ decide (codeUnits first.1 ≤ codeUnits second.1)
  have hothers := mergeSort_perm others
    fun first second ↦ decide (codeUnits first.1 ≤ codeUnits second.1)
  constructor
  · intro h
    exact hentries.symm.trans ((List.Perm.of_eq h).trans hothers)
  · intro h
    refine List.Perm.eq_of_pairwise ?_ (pairwise_sortByKey entries) (pairwise_sortByKey others)
      (hentries.trans (h.trans hothers.symm))
    intro first second hfirst hsecond hle hge
    have hsame : first.1 = second.1 := codeUnits_injective (le_antisymm hle hge)
    exact inj_on_of_nodup_map hkeys (hentries.mem_iff.mp hfirst)
      (h.mem_iff.mpr (hothers.mem_iff.mp hsecond)) hsame

theorem map_sortByKey (f : α → β) (entries : List (String × α)) :
    (sortByKey entries).map (Prod.map id f) = sortByKey (entries.map (Prod.map id f)) :=
  map_mergeSort fun _ _ _ _ ↦ rfl

/-! ### Canonical texts -/

mutual

def canonicalizeJson (numberText : ν → List Char) : JsonData ν → List Char
  | .null => Json.null.stringify
  | .bool value => (Json.bool value).stringify
  | .number value => numberText value
  | .string value => quote value.toList
  | .array elements => '[' :: ([','].intercalate (elementTexts numberText elements) ++ [']'])
  | .object members =>
    let entries := (sortByKey (memberTexts numberText members)).map fun entry ↦
      quote entry.1.toList ++ ':' :: entry.2
    '{' :: ([','].intercalate entries ++ ['}'])

def elementTexts (numberText : ν → List Char) : List (JsonData ν) → List (List Char)
  | [] => []
  | element :: elements =>
    canonicalizeJson numberText element :: elementTexts numberText elements

def memberTexts (numberText : ν → List Char) :
    List (String × JsonData ν) → List (String × List Char)
  | [] => []
  | (key, value) :: members =>
    (key, canonicalizeJson numberText value) :: memberTexts numberText members

end

mutual

def canonical (numberText : ν → List Char) : JsonData ν → Json
  | .null => .null
  | .bool value => .bool value
  | .number value => .number (numberText value)
  | .string value => .string value.toList
  | .array elements => .array (canonicalElements numberText elements)
  | .object members =>
    .object ((sortByKey (canonicalMembers numberText members)).map (Prod.map String.toList id))

def canonicalElements (numberText : ν → List Char) : List (JsonData ν) → List Json
  | [] => []
  | element :: elements => canonical numberText element :: canonicalElements numberText elements

def canonicalMembers (numberText : ν → List Char) :
    List (String × JsonData ν) → List (String × Json)
  | [] => []
  | (key, value) :: members =>
    (key, canonical numberText value) :: canonicalMembers numberText members

end

/-- The values have distinct keys in each object, at every depth. -/
inductive DistinctKeys : JsonData ν → Prop
  | null : DistinctKeys .null
  | bool (value : Bool) : DistinctKeys (.bool value)
  | number (value : ν) : DistinctKeys (.number value)
  | string (value : String) : DistinctKeys (.string value)
  | array {elements : List (JsonData ν)} (h : ∀ element ∈ elements, DistinctKeys element) :
    DistinctKeys (.array elements)
  | object {members : List (String × JsonData ν)} (hkeys : (members.map Prod.fst).Nodup)
    (h : ∀ member ∈ members, DistinctKeys member.2) : DistinctKeys (.object members)

mutual

/-- The values are equal up to the order of the keys of their objects, at every depth. -/
inductive EqualUpToOrder (same : ν → ν → Prop) : JsonData ν → JsonData ν → Prop
  | null : EqualUpToOrder same .null .null
  | bool (value : Bool) : EqualUpToOrder same (.bool value) (.bool value)
  | number {value other : ν} (h : same value other) :
    EqualUpToOrder same (.number value) (.number other)
  | string (value : String) : EqualUpToOrder same (.string value) (.string value)
  | array {elements others : List (JsonData ν)}
    (h : List.Forall₂ (EqualUpToOrder same) elements others) :
    EqualUpToOrder same (.array elements) (.array others)
  | object {members reordered others : List (String × JsonData ν)}
    (h : EqualMembers same members reordered) (hperm : reordered.Perm others) :
    EqualUpToOrder same (.object members) (.object others)

inductive EqualMembers (same : ν → ν → Prop) :
    List (String × JsonData ν) → List (String × JsonData ν) → Prop
  | nil : EqualMembers same [] []
  | cons (key : String) {value other : JsonData ν} {members others : List (String × JsonData ν)}
    (hvalue : EqualUpToOrder same value other) (h : EqualMembers same members others) :
    EqualMembers same ((key, value) :: members) ((key, other) :: others)

end

/-! ### Equal canonical values -/

section CanonicalValues

variable {numberText : ν → List Char} {same : ν → ν → Prop}

variable (members : List (String × JsonData ν))

theorem canonicalMembers_eq_map :
    canonicalMembers numberText members = members.map (Prod.map id (canonical numberText)) := by
  induction members with
  | nil => rfl
  | cons member members ih => exact congrArg _ ih

theorem map_fst_canonicalMembers :
    (canonicalMembers numberText members).map Prod.fst = members.map Prod.fst := by
  rw [canonicalMembers_eq_map, map_map]
  rfl

theorem perm_canonicalMembers_iff {entries : List (String × Json)}
    {others : List (String × JsonData ν)} :
    entries.Perm (canonicalMembers numberText others) ↔
      ∃ reordered, reordered.Perm others ∧ entries = canonicalMembers numberText reordered := by
  simp only [canonicalMembers_eq_map]
  constructor
  · intro h
    obtain ⟨reordered, heach, hperm⟩ := perm_comp_forall₂ h
      (forall₂_map_left_iff.mpr (forall₂_same.mpr fun _ _ ↦ rfl) :
        List.Forall₂ (· = Prod.map id (canonical numberText) ·) (others.map _) others)
    rw [← forall₂_map_right_iff, forall₂_eq_eq_eq] at heach
    exact ⟨reordered, hperm, heach⟩
  · rintro ⟨reordered, hperm, rfl⟩
    exact hperm.map _

mutual

theorem canonical_eq_iff
    (hsame : ∀ value other, numberText value = numberText other ↔ same value other) :
    ∀ value other : JsonData ν, DistinctKeys value →
      (canonical numberText value = canonical numberText other ↔ EqualUpToOrder same value other)
  | .null, other, _ => by
    constructor
    · intro h
      match other with
      | .null => exact .null
    · rintro ⟨⟩
      rfl
  | .bool value, other, _ => by
    constructor
    · intro h
      match other with
      | .bool _ => exact Json.bool.inj h ▸ .bool value
    · rintro ⟨⟩
      rfl
  | .number value, other, _ => by
    constructor
    · intro h
      match other with
      | .number other => exact .number ((hsame value other).mp (Json.number.inj h))
    · rintro ⟨⟩
      rename_i other h
      exact congrArg Json.number ((hsame value other).mpr h)
  | .string value, other, _ => by
    constructor
    · intro h
      match other with
      | .string _ => exact String.toList_inj.mp (Json.string.inj h) ▸ .string value
    · rintro ⟨⟩
      rfl
  | .array elements, other, hvalue => by
    have hiff := canonicalElements_eq_iff hsame elements
    cases hvalue with
    | array hvalue =>
    constructor
    · intro h
      match other with
      | .array others => exact .array ((hiff others hvalue).mp (Json.array.inj h))
    · rintro ⟨⟩
      rename_i others h
      exact congrArg Json.array ((hiff others hvalue).mpr h)
  | .object members, other, hvalue => by
    have hiff := canonicalMembers_eq_iff hsame members
    cases hvalue with
    | object hkeys hvalue =>
    have hsort (others : List (String × JsonData ν)) :
        canonical numberText (.object members) = canonical numberText (.object others) ↔
          ∃ reordered, reordered.Perm others ∧ EqualMembers same members reordered := by
      have hnames : Function.Injective (Prod.map String.toList (id : Json → Json)) :=
        Function.Injective.prodMap (fun _ _ ↦ String.toList_inj.mp) Function.injective_id
      rw [canonical, canonical, Json.object.injEq, hnames.list_map.eq_iff,
        sortByKey_eq_iff ((map_fst_canonicalMembers members).symm ▸ hkeys),
        perm_canonicalMembers_iff]
      exact exists_congr fun reordered ↦ and_congr_right fun _ ↦ hiff reordered hvalue
    constructor
    · intro h
      match other with
      | .object others =>
        obtain ⟨reordered, hperm, h⟩ := (hsort others).mp h
        exact .object h hperm
    · rintro ⟨⟩
      rename_i reordered others hperm h
      exact (hsort others).mpr ⟨reordered, hperm, h⟩

theorem canonicalElements_eq_iff
    (hsame : ∀ value other, numberText value = numberText other ↔ same value other) :
    ∀ elements others : List (JsonData ν), (∀ element ∈ elements, DistinctKeys element) →
      (canonicalElements numberText elements = canonicalElements numberText others ↔
        List.Forall₂ (EqualUpToOrder same) elements others)
  | [], [], _ => iff_of_true rfl .nil
  | [], _ :: _, _ => iff_of_false nofun nofun
  | _ :: _, [], _ => iff_of_false nofun nofun
  | element :: elements, next :: others, h => by
    rw [canonicalElements, canonicalElements, List.cons.injEq, forall₂_cons,
      canonical_eq_iff hsame element next (h element mem_cons_self),
      canonicalElements_eq_iff hsame elements others fun element hmem ↦
        h element (mem_cons_of_mem _ hmem)]

theorem canonicalMembers_eq_iff
    (hsame : ∀ value other, numberText value = numberText other ↔ same value other) :
    ∀ members others : List (String × JsonData ν),
      (∀ member ∈ members, DistinctKeys member.2) →
      (canonicalMembers numberText members = canonicalMembers numberText others ↔
        EqualMembers same members others)
  | [], [], _ => iff_of_true rfl .nil
  | [], _ :: _, _ => iff_of_false nofun nofun
  | _ :: _, [], _ => iff_of_false nofun nofun
  | (key, value) :: members, (name, next) :: others, h => by
    rw [canonicalMembers, canonicalMembers, List.cons.injEq, Prod.mk.injEq,
      canonical_eq_iff hsame value next (h _ mem_cons_self),
      canonicalMembers_eq_iff hsame members others fun member hmem ↦
        h member (mem_cons_of_mem _ hmem)]
    constructor
    · rintro ⟨⟨rfl, hvalue⟩, hmembers⟩
      exact .cons key hvalue hmembers
    · rintro ⟨⟩
      rename_i hvalue hmembers
      exact ⟨⟨rfl, hvalue⟩, hmembers⟩

end

/-! ### The text of the canonical value -/

theorem stringify_array (elements : List Json) :
    (Json.array elements).stringify =
      '[' :: ([','].intercalate (elements.map stringify) ++ [']']) := by
  have hmore (elements : List Json) (element : Json) :
      element.stringify ++ Json.moreElements elements =
        [','].intercalate ((element :: elements).map stringify) ++ [']'] := by
    induction elements generalizing element with
    | nil => simp [Json.moreElements]
    | cons next elements ih =>
      rw [Json.moreElements, ih, map_cons, map_cons, map_cons, intercalate_cons_cons]
      simp
  match elements with
  | [] => rfl
  | element :: elements => exact congrArg ('[' :: ·) (hmore elements element)

def memberText (member : List Char × Json) : List Char :=
  quote member.1 ++ ':' :: member.2.stringify

theorem stringify_object (members : List (List Char × Json)) :
    (Json.object members).stringify =
      '{' :: ([','].intercalate (members.map memberText) ++ ['}']) := by
  have hmore (members : List (List Char × Json)) (member : List Char × Json) :
      memberText member ++ Json.moreMembers members =
        [','].intercalate ((member :: members).map memberText) ++ ['}'] := by
    induction members generalizing member with
    | nil => simp [Json.moreMembers]
    | cons next members ih =>
      have hnext : Json.moreMembers (next :: members) =
          ',' :: (memberText next ++ Json.moreMembers members) := by
        simp [Json.moreMembers, memberText]
      rw [hnext, ih, map_cons, map_cons, map_cons, intercalate_cons_cons]
      simp
  match members with
  | [] => rfl
  | (key, value) :: members =>
    rw [← hmore]
    simp [stringify, memberText]

mutual

theorem canonicalizeJson_eq_stringify : ∀ value : JsonData ν,
    canonicalizeJson numberText value = (canonical numberText value).stringify
  | .null | .bool _ | .number _ | .string _ => rfl
  | .array elements => by
    rw [canonicalizeJson, canonical, stringify_array, elementTexts_eq_map]
  | .object members => by
    have htexts : memberTexts numberText members =
        (canonicalMembers numberText members).map (Prod.map id stringify) :=
      memberTexts_eq_map members
    rw [canonicalizeJson, canonical, stringify_object, htexts, ← map_sortByKey, map_map, map_map]
    rfl

theorem elementTexts_eq_map : ∀ elements : List (JsonData ν),
    elementTexts numberText elements = (canonicalElements numberText elements).map stringify
  | [] => rfl
  | element :: elements => by
    rw [elementTexts, canonicalElements, map_cons, canonicalizeJson_eq_stringify element,
      elementTexts_eq_map elements]

theorem memberTexts_eq_map : ∀ members : List (String × JsonData ν),
    memberTexts numberText members =
      (canonicalMembers numberText members).map (Prod.map id stringify)
  | [] => rfl
  | (key, value) :: members => by
    rw [memberTexts, canonicalMembers, map_cons, canonicalizeJson_eq_stringify value,
      memberTexts_eq_map members]
    rfl

end

mutual

theorem wellFormed_canonical (hnumeral : ∀ value, Json.IsNumeral (numberText value)) :
    ∀ value : JsonData ν, (canonical numberText value).WellFormed
  | .null | .bool _ | .string _ => trivial
  | .number value => hnumeral value
  | .array elements => wellFormed_canonicalElements hnumeral elements
  | .object members => by
    have hmembers := wellFormed_canonicalMembers hnumeral members
    have hall (members : List (List Char × Json)) :
        Json.MembersWellFormed members ↔ ∀ member ∈ members, member.2.WellFormed := by
      induction members with
      | nil => exact iff_of_true trivial nofun
      | cons member members ih => rw [forall_mem_cons, ← ih]; rfl
    refine (hall _).mpr fun member hmem ↦ ?_
    obtain ⟨entry, hentry, rfl⟩ := mem_map.mp hmem
    exact hmembers entry ((mergeSort_perm _ _).mem_iff.mp hentry)

theorem wellFormed_canonicalElements (hnumeral : ∀ value, Json.IsNumeral (numberText value)) :
    ∀ elements : List (JsonData ν), Json.AllWellFormed (canonicalElements numberText elements)
  | [] => trivial
  | element :: elements =>
    ⟨wellFormed_canonical hnumeral element, wellFormed_canonicalElements hnumeral elements⟩

theorem wellFormed_canonicalMembers (hnumeral : ∀ value, Json.IsNumeral (numberText value)) :
    ∀ members : List (String × JsonData ν),
      ∀ entry ∈ canonicalMembers numberText members, entry.2.WellFormed
  | [] => nofun
  | (_, value) :: members => forall_mem_cons.mpr
    ⟨wellFormed_canonical hnumeral value, wellFormed_canonicalMembers hnumeral members⟩

end

/-- Two bodies have one canonical text exactly if they are equal up to the order of their keys. -/
theorem canonicalizeJson_eq_iff (hnumeral : ∀ value, Json.IsNumeral (numberText value))
    (hsame : ∀ value other, numberText value = numberText other ↔ same value other)
    {value other : JsonData ν} (hvalue : DistinctKeys value) :
    canonicalizeJson numberText value = canonicalizeJson numberText other ↔
      EqualUpToOrder same value other := by
  rw [← canonical_eq_iff hsame value other hvalue, canonicalizeJson_eq_stringify,
    canonicalizeJson_eq_stringify]
  constructor
  · exact Json.stringify_injective (wellFormed_canonical hnumeral value)
      (wellFormed_canonical hnumeral other)
  · exact congrArg stringify

theorem canonicalizeJson_swapped :
    canonicalizeJson (Nat.toDigits 10) (.object [("b", .array [.number 1]), ("a", .null)]) =
      canonicalizeJson (Nat.toDigits 10) (.object [("a", .null), ("b", .array [.number 1])]) := by
  refine (canonicalizeJson_eq_iff (fun value ↦ ⟨Nat.toDigits_ne_nil, fun character hmem ↦ ?_⟩)
    (fun value other ↦ ⟨fun h ↦ ?_, congrArg _⟩) (.object (by decide) ?_)).mpr
    (.object (.cons "b" (.array (forall₂_same.mpr ?_)) (.cons "a" .null .nil)) (.swap _ _ _))
  · exact .inl (Nat.isDigit_of_mem_toDigits (by decide) (by decide) hmem)
  · have hread := congrArg (Nat.ofDigitChars 10 · 0) h
    rwa [Nat.ofDigitChars_toDigits (by decide) (by decide),
      Nat.ofDigitChars_toDigits (by decide) (by decide)] at hread
  · exact forall_mem_cons.mpr ⟨.array (forall_mem_singleton.mpr (.number 1)),
      forall_mem_singleton.mpr .null⟩
  · exact forall_mem_singleton.mpr (.number rfl)

end CanonicalValues

end Bridgeport.SyncBatch
