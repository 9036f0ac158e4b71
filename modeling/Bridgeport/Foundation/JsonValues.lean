import Bridgeport.Foundation.JsonText

/-!
# The text of a JSON value

`Json.stringify` writes any JSON value. A number is kept as its text, so the texts of numbers are
the numerals of a `WellFormed` value.
-/

namespace Bridgeport.Foundation.Json

open List

/-! ### Numerals -/

def IsNumeralCharacter (character : Char) : Prop :=
  character.isDigit ∨ character ∈ ['-', '+', '.', 'e', 'E']

instance (character : Char) : Decidable (IsNumeralCharacter character) :=
  inferInstanceAs (Decidable (_ ∨ _))

/-- The text of a number. -/
def IsNumeral (text : List Char) : Prop :=
  text ≠ [] ∧ ∀ character ∈ text, IsNumeralCharacter character

mutual

def WellFormed : Json → Prop
  | .number text => IsNumeral text
  | .array elements => AllWellFormed elements
  | .object members => MembersWellFormed members
  | _ => True

def AllWellFormed : List Json → Prop
  | [] => True
  | element :: elements => element.WellFormed ∧ AllWellFormed elements

def MembersWellFormed : List (List Char × Json) → Prop
  | [] => True
  | (_, value) :: members => value.WellFormed ∧ MembersWellFormed members

end

mutual

def stringify : Json → List Char
  | .null => ['n', 'u', 'l', 'l']
  | .bool true => ['t', 'r', 'u', 'e']
  | .bool false => ['f', 'a', 'l', 's', 'e']
  | .number text => text
  | .string characters => quote characters
  | .array [] => ['[', ']']
  | .array (element :: elements) => '[' :: (stringify element ++ moreElements elements)
  | .object [] => ['{', '}']
  | .object ((key, value) :: members) =>
    '{' :: (quote key ++ ':' :: (stringify value ++ moreMembers members))

/-- The elements behind another one, and the end of the array. -/
def moreElements : List Json → List Char
  | [] => [']']
  | element :: elements => ',' :: (stringify element ++ moreElements elements)

/-- The members behind another one, and the end of the object. -/
def moreMembers : List (List Char × Json) → List Char
  | [] => ['}']
  | (key, value) :: members => ',' :: (quote key ++ ':' :: (stringify value ++ moreMembers members))

end

/-- No numeral goes on in the text. -/
def Delimited (rest : List Char) : Prop :=
  ∀ character ∈ rest.head?, ¬ IsNumeralCharacter character

theorem delimited_moreElements (elements : List Json) (rest : List Char) :
    Delimited (moreElements elements ++ rest) := by
  cases elements <;> simp [moreElements, Delimited, IsNumeralCharacter]

theorem delimited_moreMembers (members : List (List Char × Json)) (rest : List Char) :
    Delimited (moreMembers members ++ rest) := by
  cases members <;> simp [moreMembers, Delimited, IsNumeralCharacter]

/-- The kinds of values that the first character of a text tells apart. -/
inductive Kind
  | null
  | true
  | false
  | number
  | string
  | array
  | object
  | other
  deriving DecidableEq

/-- The kind of the values whose text begins with the character. -/
def kindOf (first : Char) : Kind :=
  if IsNumeralCharacter first then .number
  else if first = 'n' then .null
  else if first = 't' then .true
  else if first = 'f' then .false
  else if first = '"' then .string
  else if first = '[' then .array
  else if first = '{' then .object
  else .other

def kind : Json → Kind
  | .null => .null
  | .bool true => .true
  | .bool false => .false
  | .number _ => .number
  | .string _ => .string
  | .array _ => .array
  | .object _ => .object

variable {value : Json}

theorem exists_cons_stringify (hvalue : value.WellFormed) :
    ∃ first text, value.stringify = first :: text ∧ kindOf first = value.kind := by
  match value, hvalue with
  | .null, _ => exact ⟨_, _, rfl, rfl⟩
  | .bool true, _ => exact ⟨_, _, rfl, rfl⟩
  | .bool false, _ => exact ⟨_, _, rfl, rfl⟩
  | .number text, hnumeral =>
    obtain ⟨hne, hall⟩ := hnumeral
    obtain ⟨first, rest, rfl⟩ := exists_cons_of_ne_nil hne
    exact ⟨first, rest, rfl, if_pos (hall first mem_cons_self)⟩
  | .string characters, _ => exact ⟨_, _, rfl, rfl⟩
  | .array [], _ => exact ⟨_, _, rfl, rfl⟩
  | .array (_ :: _), _ => exact ⟨_, _, rfl, rfl⟩
  | .object [], _ => exact ⟨_, _, rfl, rfl⟩
  | .object (_ :: _), _ => exact ⟨_, _, rfl, rfl⟩

theorem kind_eq_of_stringify_append {other : Json} (hvalue : value.WellFormed)
    (hother : other.WellFormed) {rest tail : List Char}
    (h : value.stringify ++ rest = other.stringify ++ tail) : value.kind = other.kind := by
  obtain ⟨first, _, htext, hfirst⟩ := exists_cons_stringify hvalue
  obtain ⟨second, _, hwritten, hsecond⟩ := exists_cons_stringify hother
  rw [htext, hwritten] at h
  rw [← hfirst, ← hsecond, (List.cons.inj h).1]

/-- The text of a value does not begin with the end of an array. -/
theorem stringify_append_ne_cons (hvalue : value.WellFormed) {close : Char}
    (hclose : kindOf close = .other) (rest tail : List Char) :
    value.stringify ++ rest ≠ close :: tail := by
  obtain ⟨first, _, htext, hfirst⟩ := exists_cons_stringify hvalue
  rw [htext]
  intro h
  rw [(List.cons.inj h).1, hclose] at hfirst
  match value with
  | .bool true => nomatch hfirst
  | .bool false => nomatch hfirst
  | .null | .number _ | .string _ | .array _ | .object _ => nomatch hfirst

theorem takeWhile_numeral_append {text rest : List Char} (htext : IsNumeral text)
    (hrest : Delimited rest) :
    (text ++ rest).takeWhile (IsNumeralCharacter ·) = text := by
  have hstop : rest.takeWhile (IsNumeralCharacter ·) = [] := by
    cases rest with
    | nil => rfl
    | cons first rest => exact takeWhile_cons_of_neg (by simpa using hrest first rfl)
  rw [takeWhile_append_of_pos fun character hmem ↦ decide_eq_true (htext.2 character hmem),
    hstop, append_nil]

theorem quote_append_inj {characters others rest tail : List Char}
    (h : quote characters ++ rest = quote others ++ tail) : characters = others ∧ rest = tail := by
  have hread := parseString_quoted characters rest
  have htext : characters.flatMap escape ++ '"' :: rest = others.flatMap escape ++ '"' :: tail := by
    simpa [quote] using h
  rw [htext, parseString_quoted] at hread
  simpa using hread.symm

mutual

theorem eq_of_stringify_append : ∀ (value other : Json), value.WellFormed → other.WellFormed →
    ∀ rest tail, Delimited rest → Delimited tail →
      value.stringify ++ rest = other.stringify ++ tail → value = other ∧ rest = tail
  | .null, other, hvalue, hother, rest, tail, _, _, h => by
    have hkind := kind_eq_of_stringify_append hvalue hother h
    match other with
    | .null => exact ⟨rfl, append_cancel_left h⟩
    | .bool true | .bool false | .number _ | .string _ | .array _ | .object _ =>
      nomatch hkind
  | .bool true, other, hvalue, hother, rest, tail, _, _, h => by
    have hkind := kind_eq_of_stringify_append hvalue hother h
    match other with
    | .bool true => exact ⟨rfl, append_cancel_left h⟩
    | .null | .bool false | .number _ | .string _ | .array _ | .object _ =>
      nomatch hkind
  | .bool false, other, hvalue, hother, rest, tail, _, _, h => by
    have hkind := kind_eq_of_stringify_append hvalue hother h
    match other with
    | .bool false => exact ⟨rfl, append_cancel_left h⟩
    | .null | .bool true | .number _ | .string _ | .array _ | .object _ =>
      nomatch hkind
  | .number text, other, hvalue, hother, rest, tail, hrest, htail, h => by
    have hkind := kind_eq_of_stringify_append hvalue hother h
    match other with
    | .number written =>
      have hsame : text = written := by
        rw [← takeWhile_numeral_append hvalue hrest, ← takeWhile_numeral_append hother htail]
        exact congrArg _ h
      subst hsame
      exact ⟨rfl, append_cancel_left h⟩
    | .null | .bool true | .bool false | .string _ | .array _ | .object _ =>
      nomatch hkind
  | .string characters, other, hvalue, hother, rest, tail, _, _, h => by
    have hkind := kind_eq_of_stringify_append hvalue hother h
    match other with
    | .string others =>
      obtain ⟨rfl, htail⟩ := quote_append_inj h
      exact ⟨rfl, htail⟩
    | .null | .bool true | .bool false | .number _ | .array _ | .object _ =>
      nomatch hkind
  | .array elements, other, hvalue, hother, rest, tail, hrest, htail, h => by
    have hkind := kind_eq_of_stringify_append hvalue hother h
    match elements, other with
    | [], .array [] => exact ⟨rfl, append_cancel_left h⟩
    | [], .array (element :: elements) =>
      have htext : ']' :: rest = element.stringify ++ (moreElements elements ++ tail) := by
        simpa [stringify] using h
      exact absurd htext.symm (stringify_append_ne_cons hother.1 (by decide) _ _)
    | element :: elements, .array [] =>
      have htext : element.stringify ++ (moreElements elements ++ rest) = ']' :: tail := by
        simpa [stringify] using h
      exact absurd htext (stringify_append_ne_cons hvalue.1 (by decide) _ _)
    | element :: elements, .array (next :: others) =>
      have hmore : moreElements (element :: elements) ++ rest =
          moreElements (next :: others) ++ tail := by
        simpa [stringify, moreElements] using h
      obtain ⟨hsame, hend⟩ := eq_of_moreElements_append _ _ hvalue hother _ _ hmore
      exact ⟨congrArg Json.array hsame, hend⟩
    | _, .null | _, .bool true | _, .bool false | _, .number _ | _, .string _ | _, .object _ =>
      nomatch hkind
  | .object members, other, hvalue, hother, rest, tail, hrest, htail, h => by
    have hkind := kind_eq_of_stringify_append hvalue hother h
    match members, other with
    | [], .object [] => exact ⟨rfl, append_cancel_left h⟩
    | [], .object ((key, value) :: members) =>
      exact absurd (List.cons.inj (List.cons.inj h).2).1 nofun
    | (key, value) :: members, .object [] =>
      exact absurd (List.cons.inj (List.cons.inj h).2).1 nofun
    | member :: members, .object (next :: others) =>
      have hmore : moreMembers (member :: members) ++ rest = moreMembers (next :: others) ++ tail := by
        simpa [stringify, moreMembers] using h
      obtain ⟨hsame, hend⟩ := eq_of_moreMembers_append _ _ hvalue hother _ _ hmore
      exact ⟨congrArg Json.object hsame, hend⟩
    | _, .null | _, .bool true | _, .bool false | _, .number _ | _, .string _ | _, .array _ =>
      nomatch hkind

theorem eq_of_moreElements_append : ∀ (elements others : List Json), AllWellFormed elements →
    AllWellFormed others → ∀ rest tail,
      moreElements elements ++ rest = moreElements others ++ tail → elements = others ∧ rest = tail
  | [], [], _, _, rest, tail, h => ⟨rfl, append_cancel_left h⟩
  | [], _ :: _, _, _, _, _, h => absurd (List.cons.inj h).1 nofun
  | _ :: _, [], _, _, _, _, h => absurd (List.cons.inj h).1 nofun
  | element :: elements, next :: others, hvalue, hother, rest, tail, h => by
    have htext : element.stringify ++ (moreElements elements ++ rest) =
        next.stringify ++ (moreElements others ++ tail) := by
      simpa [moreElements] using h
    obtain ⟨rfl, hmore⟩ := eq_of_stringify_append element next hvalue.1 hother.1 _ _
      (delimited_moreElements elements rest) (delimited_moreElements others tail) htext
    obtain ⟨rfl, hend⟩ := eq_of_moreElements_append elements others hvalue.2 hother.2 _ _ hmore
    exact ⟨rfl, hend⟩

theorem eq_of_moreMembers_append : ∀ (members others : List (List Char × Json)),
    MembersWellFormed members → MembersWellFormed others → ∀ rest tail,
      moreMembers members ++ rest = moreMembers others ++ tail → members = others ∧ rest = tail
  | [], [], _, _, rest, tail, h => ⟨rfl, append_cancel_left h⟩
  | [], _ :: _, _, _, _, _, h => absurd (List.cons.inj h).1 nofun
  | _ :: _, [], _, _, _, _, h => absurd (List.cons.inj h).1 nofun
  | (key, value) :: members, (name, next) :: others, hvalue, hother, rest, tail, h => by
    have htext : quote key ++ ':' :: (value.stringify ++ (moreMembers members ++ rest)) =
        quote name ++ ':' :: (next.stringify ++ (moreMembers others ++ tail)) := by
      simpa [moreMembers] using h
    obtain ⟨rfl, hcolon⟩ := quote_append_inj htext
    obtain ⟨rfl, hmore⟩ := eq_of_stringify_append value next hvalue.1 hother.1 _ _
      (delimited_moreMembers members rest) (delimited_moreMembers others tail)
      (List.cons.inj hcolon).2
    obtain ⟨rfl, hend⟩ := eq_of_moreMembers_append members others hvalue.2 hother.2 _ _ hmore
    exact ⟨rfl, hend⟩

end

theorem stringify_injective {other : Json} (hvalue : value.WellFormed) (hother : other.WellFormed)
    (h : value.stringify = other.stringify) : value = other := by
  refine (eq_of_stringify_append value other hvalue hother [] [] nofun nofun ?_).1
  rw [h]

/-! ### Reading a JSON text back -/

section

open List

mutual

def NumberFree : Json → Prop
  | .number _ => False
  | .array elements => AllNumberFree elements
  | .object members => MembersNumberFree members
  | _ => True

def AllNumberFree : List Json → Prop
  | [] => True
  | element :: elements => element.NumberFree ∧ AllNumberFree elements

def MembersNumberFree : List (List Char × Json) → Prop
  | [] => True
  | (_, value) :: members => value.NumberFree ∧ MembersNumberFree members

end

/-- The text begins with a value that the parser does not skip or take for an end. -/
theorem exists_head_stringify (h : value.NumberFree) :
    ∃ first text, value.stringify = first :: text ∧ first ∉ [' ', '\t', '\n', '\r', ']'] := by
  match value, h with
  | .null, _ => exact ⟨_, _, rfl, by decide⟩
  | .bool true, _ => exact ⟨_, _, rfl, by decide⟩
  | .bool false, _ => exact ⟨_, _, rfl, by decide⟩
  | .string _, _ => exact ⟨_, _, rfl, by decide⟩
  | .array [], _ => exact ⟨_, _, rfl, by decide⟩
  | .array (_ :: _), _ => exact ⟨_, _, rfl, by decide⟩
  | .object [], _ => exact ⟨_, _, rfl, by decide⟩
  | .object (_ :: _), _ => exact ⟨_, _, rfl, by decide⟩

theorem parseValue_array {element : Json} (h : element.NumberFree) (fuel : ℕ) (rest : List Char) :
    parseValue (fuel + 1) ('[' :: (element.stringify ++ rest)) =
      (parseElements fuel (element.stringify ++ rest)).map fun parsed ↦
        (.array parsed.1, parsed.2) := by
  obtain ⟨first, text, htext, hfirst⟩ := exists_head_stringify h
  simp only [mem_cons, not_or, not_mem_nil, not_false_eq_true, and_true] at hfirst
  obtain ⟨hspace, htab, hline, hreturn, hclose⟩ := hfirst
  have hskip : skipSpace (first :: (text ++ rest)) = first :: (text ++ rest) := by
    simp [skipSpace, hspace, htab, hline, hreturn]
  have hopen : skipSpace ('[' :: first :: (text ++ rest)) = '[' :: first :: (text ++ rest) := by
    simp [skipSpace]
  rw [htext, cons_append, parseValue, hopen]
  simp only [hskip]
  split
  · rename_i hmatch
    exact absurd (List.cons.inj hmatch).1 hclose
  · rfl

mutual

theorem parseValue_stringify : ∀ (value : Json), value.NumberFree → ∀ (fuel : ℕ) (rest : List Char),
    2 * value.stringify.length + 1 ≤ fuel →
      parseValue fuel (value.stringify ++ rest) = some (value, rest)
  | _, _, 0, _, hfuel => absurd hfuel (by omega)
  | .null, _, _ + 1, _, _ => rfl
  | .bool true, _, _ + 1, _, _ => rfl
  | .bool false, _, _ + 1, _, _ => rfl
  | .string characters, _, fuel + 1, rest, _ => parseValue_quote fuel characters rest
  | .array [], _, _ + 1, _, _ => rfl
  | .object [], _, _ + 1, _, _ => rfl
  | .array (element :: elements), hfree, fuel + 1, rest, hfuel => by
    have helements := parseElements_stringify element elements hfree.1 hfree.2 fuel rest
      (by simp only [stringify, length_cons] at hfuel; omega)
    rw [stringify, cons_append, append_assoc, parseValue_array hfree.1, ← append_assoc, helements]
    rfl
  | .object ((key, value) :: members), hfree, fuel + 1, rest, hfuel => by
    have hmembers := parseMembers_stringify_append key value members hfree.1 hfree.2 fuel rest
      (by simp only [stringify, length_cons] at hfuel; omega)
    have hquote : quote key ++ ':' :: (value.stringify ++ moreMembers members) ++ rest =
        '"' :: (key.flatMap escape ++ '"' :: ':' ::
          (value.stringify ++ moreMembers members ++ rest)) := by
      simp [quote]
    rw [hquote] at hmembers
    rw [stringify, cons_append, hquote, parseValue]
    generalize key.flatMap escape ++ '"' :: ':' :: (value.stringify ++ moreMembers members ++ rest) =
      text at hmembers
    simp [skipSpace, hmembers]

/-- The parser reads the elements of an array, with its end. -/
theorem parseElements_stringify : ∀ (element : Json) (elements : List Json), element.NumberFree →
    AllNumberFree elements → ∀ (fuel : ℕ) (rest : List Char),
      2 * (element.stringify ++ moreElements elements).length + 2 ≤ fuel →
        parseElements fuel (element.stringify ++ moreElements elements ++ rest) =
          some (element :: elements, rest)
  | _, _, _, _, 0, _, hfuel => absurd hfuel (by omega)
  | element, [], hfree, _, fuel + 1, rest, hfuel => by
    have helement := parseValue_stringify element hfree fuel (']' :: rest)
      (by simp only [length_append] at hfuel; omega)
    have hsplit : element.stringify ++ moreElements [] ++ rest =
      element.stringify ++ ']' :: rest := by
      simp [moreElements]
    rw [hsplit, parseElements, helement]
    simp [skipSpace]
  | element, next :: elements, hfree, hrest, fuel + 1, rest, hfuel => by
    simp only [moreElements, length_append, length_cons] at hfuel
    set text := next.stringify ++ moreElements elements ++ rest with htext
    have helement := parseValue_stringify element hfree fuel (',' :: text) (by omega)
    have helements := parseElements_stringify next elements hrest.1 hrest.2 fuel rest
      (by simp only [length_append]; omega)
    have hsplit : element.stringify ++ moreElements (next :: elements) ++ rest =
        element.stringify ++ ',' :: text := by
      simp [moreElements, htext]
    rw [← htext] at helements
    rw [hsplit, parseElements, helement]
    simp [skipSpace, helements]

/-- The parser reads the members of an object, with its end. -/
theorem parseMembers_stringify_append : ∀ (key : List Char) (value : Json)
    (members : List (List Char × Json)), value.NumberFree → MembersNumberFree members →
      ∀ (fuel : ℕ) (rest : List Char),
        2 * (quote key ++ ':' :: (value.stringify ++ moreMembers members)).length + 2 ≤ fuel →
          parseMembers fuel (quote key ++ ':' :: (value.stringify ++ moreMembers members) ++ rest) =
            some ((key, value) :: members, rest)
  | _, _, _, _, _, 0, _, hfuel => absurd hfuel (by omega)
  | key, value, [], hfree, _, fuel + 1, rest, hfuel => by
    simp only [length_append, length_cons] at hfuel
    have hvalue := parseValue_stringify value hfree fuel ('}' :: rest) (by omega)
    have hsplit : quote key ++ ':' :: (value.stringify ++ moreMembers []) ++ rest =
        '"' :: (key.flatMap escape ++ '"' :: ':' :: (value.stringify ++ '}' :: rest)) := by
      simp [moreMembers, quote]
    rw [hsplit, parseMembers]
    simp [skipSpace, parseString_quoted, hvalue]
  | key, value, (name, next) :: members, hfree, hrest, fuel + 1, rest, hfuel => by
    simp only [moreMembers, length_append, length_cons] at hfuel
    set text := quote name ++ ':' :: (next.stringify ++ moreMembers members) ++ rest with htext
    have hvalue := parseValue_stringify value hfree fuel (',' :: text) (by omega)
    have hmembers := parseMembers_stringify_append name next members hrest.1 hrest.2 fuel rest
      (by simp only [length_append, length_cons]; omega)
    have hsplit : quote key ++ ':' ::
      (value.stringify ++ moreMembers ((name, next) :: members)) ++ rest =
        '"' :: (key.flatMap escape ++ '"' :: ':' :: (value.stringify ++ ',' :: text)) := by
      simp [moreMembers, quote, htext]
    rw [← htext] at hmembers
    rw [hsplit, parseMembers]
    simp [skipSpace, parseString_quoted, hvalue, hmembers]

end

/-- A value without numbers is read back from its text. -/
theorem parse_stringify (h : value.NumberFree) : parse value.stringify = some value := by
  have hparsed := parseValue_stringify value h (2 * value.stringify.length + 2) [] (by omega)
  rw [append_nil] at hparsed
  unfold parse
  rw [hparsed]
  rfl

end

end Bridgeport.Foundation.Json
