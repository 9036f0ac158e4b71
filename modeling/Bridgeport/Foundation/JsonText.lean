import Mathlib.Data.List.Basic

/-!
# JSON texts

A JSON parser, and the text of an object whose members are strings. `parse` reads a whole text:
white space, literals, numbers, strings with their escapes, arrays and objects. A number is kept as
its text, and a surrogate that is not half of a pair becomes the replacement character.
-/

namespace Bridgeport.Foundation

open List

inductive Json
  | null
  | bool (value : Bool)
  | number (text : List Char)
  | string (characters : List Char)
  | array (elements : List Json)
  | object (members : List (List Char × Json))

variable (text : List Char) (character : Char) (unit : ℕ)

namespace Json

/-! ### Strings -/

def hexValue : Option ℕ :=
  if character.isDigit then some (character.toNat - 48)
  else if 97 ≤ character.toNat ∧ character.toNat ≤ 102 then some (character.toNat - 87)
  else if 65 ≤ character.toNat ∧ character.toNat ≤ 70 then some (character.toNat - 55)
  else none

/-- The value of four hexadecimal digits. -/
def hexCode (a b c d : Char) : Option ℕ :=
  match hexValue a, hexValue b, hexValue c, hexValue d with
  | some a, some b, some c, some d => some (a * 4096 + b * 256 + c * 16 + d)
  | _, _, _, _ => none

def unescape : Option ℕ :=
  if character = '"' ∨ character = '\\' ∨ character = '/' then some character.toNat
  else if character = 'b' then some 8
  else if character = 'f' then some 12
  else if character = 'n' then some 10
  else if character = 'r' then some 13
  else if character = 't' then some 9
  else none

/-- The code units of a string up to its closing quotation mark, and the text behind it. -/
def parseUnits : List Char → Option (List ℕ × List Char)
  | [] => none
  | '"' :: rest => some ([], rest)
  | '\\' :: 'u' :: a :: b :: c :: d :: rest =>
    (hexCode a b c d).bind fun unit ↦
      (parseUnits rest).map fun parsed ↦ (unit :: parsed.1, parsed.2)
  | '\\' :: escaped :: rest =>
    (unescape escaped).bind fun unit ↦
      (parseUnits rest).map fun parsed ↦ (unit :: parsed.1, parsed.2)
  | character :: rest =>
    if character.toNat < 32 then none
    else (parseUnits rest).map fun parsed ↦ (character.toNat :: parsed.1, parsed.2)

def IsSurrogate : Prop := 55296 ≤ unit ∧ unit < 57344

instance : Decidable (IsSurrogate unit) :=
  inferInstanceAs (Decidable (_ ∧ _))

def unitCharacter : Char :=
  if IsSurrogate unit then Char.ofNat 65533 else Char.ofNat unit

def decodeUnits : List ℕ → List Char
  | [] => []
  | [unit] => [unitCharacter unit]
  | high :: low :: rest =>
    if (IsSurrogate high ∧ high < 56320) ∧ (IsSurrogate low ∧ 56320 ≤ low) then
      Char.ofNat (65536 + (high - 55296) * 1024 + (low - 56320)) :: decodeUnits rest
    else unitCharacter high :: decodeUnits (low :: rest)

/-- A string behind its opening quotation mark. -/
def parseString : Option (List Char × List Char) :=
  (parseUnits text).map fun parsed ↦ (decodeUnits parsed.1, parsed.2)

/-- The text without white space in front. -/
def skipSpace : List Char :=
  text.dropWhile fun character ↦
    character = ' ' ∨ character = '\t' ∨ character = '\n' ∨ character = '\r'

def parseDigits : Option (List Char) :=
  match text.takeWhile Char.isDigit with
  | [] => none
  | digits => some (text.drop digits.length)

def parseFraction : Option (List Char) :=
  match text with
  | '.' :: rest => parseDigits rest
  | _ => some text

def parseExponent : Option (List Char) :=
  match text with
  | 'e' :: rest | 'E' :: rest =>
    match rest with
    | '+' :: digits | '-' :: digits => parseDigits digits
    | digits => parseDigits digits
  | _ => some text

/-- The text behind the digits before the fraction, which have no zero in front. -/
def parseWhole : Option (List Char) :=
  match text with
  | '0' :: rest => some rest
  | _ => parseDigits text

def parseNumber : Option (Json × List Char) :=
  let unsigned := match text with
    | '-' :: rest => rest
    | _ => text
  ((parseWhole unsigned).bind parseFraction |>.bind parseExponent).map fun rest ↦
    (.number (text.take (text.length - rest.length)), rest)

mutual

def parseValue : ℕ → List Char → Option (Json × List Char)
  | 0, _ => none
  | fuel + 1, text =>
    match skipSpace text with
    | 'n' :: 'u' :: 'l' :: 'l' :: rest => some (.null, rest)
    | 't' :: 'r' :: 'u' :: 'e' :: rest => some (.bool true, rest)
    | 'f' :: 'a' :: 'l' :: 's' :: 'e' :: rest => some (.bool false, rest)
    | '"' :: rest => (parseString rest).map fun parsed ↦ (.string parsed.1, parsed.2)
    | '[' :: rest =>
      match skipSpace rest with
      | ']' :: rest => some (.array [], rest)
      | rest => (parseElements fuel rest).map fun parsed ↦ (.array parsed.1, parsed.2)
    | '{' :: rest =>
      match skipSpace rest with
      | '}' :: rest => some (.object [], rest)
      | rest => (parseMembers fuel rest).map fun parsed ↦ (.object parsed.1, parsed.2)
    | other => parseNumber other

/-- The elements of an array, up to its closing bracket. -/
def parseElements : ℕ → List Char → Option (List Json × List Char)
  | 0, _ => none
  | fuel + 1, text =>
    (parseValue fuel text).bind fun element ↦
      match skipSpace element.2 with
      | ',' :: rest =>
        (parseElements fuel rest).map fun parsed ↦ (element.1 :: parsed.1, parsed.2)
      | ']' :: rest => some ([element.1], rest)
      | _ => none

/-- The members of an object, up to its closing brace. -/
def parseMembers : ℕ → List Char → Option (List (List Char × Json) × List Char)
  | 0, _ => none
  | fuel + 1, text =>
    match skipSpace text with
    | '"' :: rest =>
      (parseString rest).bind fun key ↦
        match skipSpace key.2 with
        | ':' :: rest =>
          (parseValue fuel rest).bind fun value ↦
            match skipSpace value.2 with
            | ',' :: rest =>
              (parseMembers fuel rest).map fun parsed ↦ ((key.1, value.1) :: parsed.1, parsed.2)
            | '}' :: rest => some ([(key.1, value.1)], rest)
            | _ => none
        | _ => none
    | _ => none

end

/-- `JSON.parse`: every step of the parser but the last two reads a character. -/
def parse : Option Json :=
  match parseValue (2 * text.length + 2) text with
  | some (value, rest) => if skipSpace rest = [] then some value else none
  | none => none

/-- The value of a member; the last one of a name counts. -/
def member (name : List Char) : Json → Option Json
  | .object members => (members.reverse.find? (·.1 = name)).map Prod.snd
  | _ => none

/-! ### The text of a record -/

def hexDigit (value : ℕ) : Char :=
  if value < 10 then Char.ofNat (48 + value) else Char.ofNat (87 + value)

def escape : List Char :=
  if character = '"' ∨ character = '\\' then ['\\', character]
  else if character.toNat = 8 then ['\\', 'b']
  else if character.toNat = 12 then ['\\', 'f']
  else if character.toNat = 10 then ['\\', 'n']
  else if character.toNat = 13 then ['\\', 'r']
  else if character.toNat = 9 then ['\\', 't']
  else if character.toNat < 32 then
    ['\\', 'u', '0', '0', hexDigit (character.toNat / 16), hexDigit (character.toNat % 16)]
  else [character]

def quote (characters : List Char) : List Char :=
  '"' :: (characters.flatMap escape ++ ['"'])

def stringifyMember (entry : List Char × List Char) : List Char :=
  quote entry.1 ++ ':' :: quote entry.2

/-- `JSON.stringify` of an object whose members are strings. -/
def stringifyRecord (members : List (List Char × List Char)) : List Char :=
  '{' :: ([','].intercalate (members.map stringifyMember) ++ ['}'])

/-! ### The round trip -/

theorem toNat_of_digit : ∀ value < 32,
    hexCode '0' '0' (hexDigit (value / 16)) (hexDigit (value % 16)) = some value := by
  decide

variable (character : Char)

theorem parseUnits_escape_append (text : List Char) :
    parseUnits (escape character ++ text) =
      (parseUnits text).map fun parsed ↦ (character.toNat :: parsed.1, parsed.2) := by
  unfold escape
  split_ifs with hquote hback hform hline hreturn htab hcontrol
  · rcases hquote with rfl | rfl
    · rfl
    · rfl
  · rw [hback]
    rfl
  · rw [hform]
    rfl
  · rw [hline]
    rfl
  · rw [hreturn]
    rfl
  · rw [htab]
    rfl
  · show (hexCode _ _ _ _).bind _ = _
    rw [toNat_of_digit _ hcontrol]
    rfl
  · obtain ⟨hnotQuote, hnotBack⟩ := not_or.mp hquote
    rw [singleton_append, parseUnits]
    · rw [if_neg hcontrol]
    · exact hnotQuote
    · exact fun _ _ _ _ _ h _ ↦ hnotBack h
    · exact fun _ _ h _ ↦ hnotBack h

variable (characters rest : List Char)

theorem parseUnits_flatMap_escape : parseUnits (characters.flatMap escape ++ '"' :: rest) =
      some (characters.map Char.toNat, rest) := by
  induction characters with
  | nil => rfl
  | cons character characters ih =>
    rw [flatMap_cons, append_assoc, parseUnits_escape_append, ih]
    rfl

theorem not_isSurrogate_toNat : ¬ IsSurrogate character.toNat := by
  intro h
  have hvalid : character.toNat < 55296 ∨ 57343 < character.toNat ∧ character.toNat < 1114112 :=
    character.valid
  unfold IsSurrogate at h
  omega

theorem unitCharacter_toNat : unitCharacter character.toNat = character := by
  unfold unitCharacter
  rw [if_neg (not_isSurrogate_toNat character)]
  exact Char.ofNat_toNat character

theorem decodeUnits_map_toNat : decodeUnits (characters.map Char.toNat) = characters := by
  induction characters with
  | nil => rfl
  | cons first rest ih =>
    cases rest with
    | nil => exact congrArg (fun character ↦ [character]) (unitCharacter_toNat first)
    | cons second rest =>
      rw [map_cons, map_cons, decodeUnits, if_neg fun h ↦ not_isSurrogate_toNat first h.1.1,
        unitCharacter_toNat]
      exact congrArg (first :: ·) ih

theorem parseString_quoted :
    parseString (characters.flatMap escape ++ '"' :: rest) = some (characters, rest) := by
  unfold parseString
  rw [parseUnits_flatMap_escape, Option.map_some, decodeUnits_map_toNat]

theorem parseValue_quote (fuel : ℕ) (characters rest : List Char) :
    parseValue (fuel + 1) (quote characters ++ rest) = some (.string characters, rest) := by
  have hquote : quote characters ++ rest = '"' :: (characters.flatMap escape ++ '"' :: rest) := by
    simp [quote]
  rw [hquote, parseValue]
  simp [skipSpace, parseString_quoted]

theorem stringifyMember_append (entry : List Char × List Char) (rest : List Char) :
    stringifyMember entry ++ rest =
      '"' :: (entry.1.flatMap escape ++ '"' :: (':' :: (quote entry.2 ++ rest))) := by
  simp [stringifyMember, quote]

/-- The members of a record with its closing brace. -/
theorem parseMembers_stringify (entry : List Char × List Char)
    (members : List (List Char × List Char)) (fuel : ℕ) (rest : List Char) :
    parseMembers (fuel + members.length + 2)
        ([','].intercalate ((entry :: members).map stringifyMember) ++ '}' :: rest) =
      some ((entry :: members).map fun entry ↦ (entry.1, .string entry.2), rest) := by
  induction members generalizing entry with
  | nil =>
    rw [map_cons, map_nil, intercalate_singleton, stringifyMember_append, parseMembers]
    simp [skipSpace, parseString_quoted, parseValue_quote]
  | cons next members ih =>
    rw [map_cons, map_cons, intercalate_cons_cons, append_assoc, append_assoc,
      stringifyMember_append, ← map_cons, length_cons, parseMembers]
    have hmembers := ih next
    generalize [','].intercalate ((next :: members).map stringifyMember) ++ '}' :: rest = text
      at hmembers ⊢
    have hvalue := parseValue_quote (fuel + members.length + 1) entry.2 (',' :: text)
    have hfuel : fuel + (members.length + 1) + 1 = fuel + members.length + 2 := by omega
    rw [hfuel]
    simp [skipSpace, parseString_quoted, hvalue, hmembers]

section

variable (entry : List Char × List Char) (members : List (List Char × List Char))

theorem length_le_intercalate :
    members.length ≤ ([','].intercalate ((entry :: members).map stringifyMember)).length := by
  induction members generalizing entry with
  | nil => exact Nat.zero_le _
  | cons next members ih =>
    rw [map_cons, map_cons, intercalate_cons_cons, ← map_cons, length_append, length_append,
      length_cons]
    have hnext := ih next
    simp only [length_cons, length_nil]
    omega

theorem parse_stringifyRecord :
    parse (stringifyRecord (entry :: members)) =
      some (.object ((entry :: members).map fun entry ↦ (entry.1, .string entry.2))) := by
  set text := [','].intercalate ((entry :: members).map stringifyMember) ++ ['}'] with htext
  have hlength := length_le_intercalate entry members
  obtain ⟨fuel, hfuel⟩ : ∃ fuel, 2 * ('{' :: text).length + 1 = fuel + members.length + 2 := by
    refine ⟨2 * ('{' :: text).length + 1 - (members.length + 2), ?_⟩
    rw [htext, length_cons, length_append]
    omega
  have hmembers := parseMembers_stringify entry members fuel []
  have hquote : ∃ rest, text = '"' :: rest := by
    rw [htext]
    cases members with
    | nil =>
      rw [map_cons, map_nil, intercalate_singleton]
      exact ⟨_, stringifyMember_append entry _⟩
    | cons next members =>
      rw [map_cons, map_cons, intercalate_cons_cons, append_assoc, append_assoc]
      exact ⟨_, stringifyMember_append entry _⟩
  obtain ⟨rest, hrest⟩ := hquote
  show parse ('{' :: text) = _
  unfold parse
  rw [parseValue, hfuel]
  rw [← htext] at hmembers
  rw [hrest] at hmembers ⊢
  simp [skipSpace, hmembers]

end

end Json

end Bridgeport.Foundation
