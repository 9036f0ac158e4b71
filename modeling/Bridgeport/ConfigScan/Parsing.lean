import Bridgeport.ConfigSync.SyncConfigFile
import Bridgeport.Foundation.Trimming

/-!
# Parsing config files for the scanner

`extractKeyValues` reports the `key=value` and `KEY: value` pairs of a config file, and
`substituteFullValue` rewrites the lines on which a value stands alone. The two parse a line with
different regular expressions: the scanner trims the line first, and the rewriter keeps what stands
before the value. Both find the same key and the same right-hand side (`extractLine_eq`,
`rewriteLine_eq`).
-/

namespace Bridgeport.ConfigScan

open Foundation Secrets ConfigSync List

variable (character : Char)

/-- The line terminators, which `.` does not match. -/
def isTerminator : Bool :=
  character.toNat ∈ [0xa, 0xd, 0x2028, 0x2029]

/-- The class `[A-Za-z_]`. -/
def isNameStart : Bool :=
  isKeyStart character ∨ ('a' ≤ character ∧ character ≤ 'z') ∨ character = '_'

/-- The class `[A-Za-z0-9_]`. -/
def isNameChar : Bool :=
  isNameStart character ∨ ('0' ≤ character ∧ character ≤ '9')

variable (text : Text)

def trim : Text :=
  trimBoth isTrimmed text

/-- `.*$` and `.+$` match the text. -/
def reachesEnd : Bool :=
  text.all (!isTerminator ·)

/-- The text begins and ends with one kind of quotation mark. -/
def isQuoted : Bool :=
  (text.head? = some '"' ∧ text.getLast? = some '"') ∨
    (text.head? = some '\'' ∧ text.getLast? = some '\'')

/-- `slice(1, -1)`. -/
def inside : Text :=
  text.tail.dropLast

/-- A value as the scanner reads it: without the quotation marks around it. -/
def unquote : Text :=
  if isQuoted text then inside text else text

/-- The quotation mark around a value as the rewriter reads it. -/
def quoteOf : Text :=
  if text.length ≥ 2 ∧ isQuoted text then text.take 1 else []

/-- The value between these marks. -/
def innerOf : Text :=
  if quoteOf text ≠ [] then inside text else text

/-! ### The scanner -/

/-- A pair that the scanner reports. -/
structure KeyValue where
  (key value : Text)
  deriving DecidableEq

/-- A key at the front of a text that a separator follows, and what stands behind the separator. The
separator is not in the character class of the key. -/
def readKey (isStart isChar : Char → Bool) (separator : Char) (text : Text) : Option (Text × Text) :=
  match text.dropWhile isChar with
  | next :: rest =>
    if (text.takeWhile isChar).head?.any isStart ∧ next = separator then
      some (text.takeWhile isChar, rest)
    else none
  | [] => none

/-- `([A-Za-z_][A-Za-z0-9_]*)=` at the front of a text, and the rest. -/
def readEnv : Option (Text × Text) :=
  readKey isNameStart isNameChar '=' text

/-- `([A-Z][A-Z0-9_]*):(\s+)` at the front of a text, and the rest. -/
def readYaml : Option (Text × Text × Text) :=
  match readKey isKeyStart isKeyChar ':' text with
  | some (key, rest) =>
    if rest.takeWhile isTrimmed = [] then none
    else some (key, rest.takeWhile isTrimmed, rest.dropWhile isTrimmed)
  | none => none

/-- The pair of a key and the text behind it, unless the value is empty. -/
def pairOf (key rhs : Text) : Option KeyValue :=
  let value := unquote (trim rhs)
  if value = [] then none else some ⟨key, value⟩

/-- The body of the loop of `extractKeyValues`. -/
def extractLine (rawLine : Text) : Option KeyValue :=
  let line := trim rawLine
  if line = [] ∨ ['#'] <+: line ∨ ['/', '/'] <+: line then none
  else match (readEnv line).filter fun found ↦ found.2 ≠ [] && reachesEnd found.2 with
    | some (key, rhs) => pairOf key rhs
    | none =>
      -- behind all the white space: giving some of it back does not make `.+$` match a trimmed line
      match (readYaml line).filter fun found ↦ found.2.2 ≠ [] && reachesEnd found.2.2 with
      | some (key, _, rhs) => pairOf key rhs
      | none => none

/-- `split('\n')`. -/
def linesOf (content : Text) : List Text :=
  content.splitOn '\n'

def extractKeyValues (content : Text) : List KeyValue :=
  (linesOf content).filterMap extractLine

/-- A right-hand side with the placeholder in place of the value, behind what stands before it. -/
def rewriteRhs (before rhs value placeholder : Text) : Option Text :=
  let trimmedRhs := trim rhs
  let quote := quoteOf trimmedRhs
  if innerOf trimmedRhs ≠ value then none else some (before ++ (quote ++ placeholder ++ quote))

def rewriteLine (rawLine value placeholder : Text) : Option Text :=
  let indent := rawLine.takeWhile isTrimmed
  let line := rawLine.dropWhile isTrimmed
  match (readEnv line).filter fun found ↦ reachesEnd found.2 with
  | some (key, rhs) => rewriteRhs (indent ++ key ++ ['=']) rhs value placeholder
  | none =>
    match (readYaml line).filter fun found ↦ reachesEnd found.2.2 with
    | some (key, sep, rhs) => rewriteRhs (indent ++ key ++ [':'] ++ sep) rhs value placeholder
    | none => none

/-- The answer of `substituteFullValue`. -/
structure Substitution where
  newContent : Text
  replacements : ℕ

def substituteFullValue (content value placeholder : Text) : Substitution :=
  let rewritten := (linesOf content).map fun line ↦ rewriteLine line value placeholder
  { newContent := ['\n'].intercalate
      ((linesOf content).map fun line ↦ (rewriteLine line value placeholder).getD line)
    replacements := rewritten.countP (·.isSome) }

/-- A line with a key: what stands before the right-hand side, the key, and the right-hand side. -/
structure KeyLine where
  (before key rhs : Text)

/-- The line as `key=rhs` or `KEY: rhs`. -/
def keyLine (rawLine : Text) : Option KeyLine :=
  let indent := rawLine.takeWhile isTrimmed
  let line := rawLine.dropWhile isTrimmed
  match readEnv line with
  | some (key, rhs) => some ⟨indent ++ key ++ ['='], key, rhs⟩
  | none => (readYaml line).map fun (key, sep, rhs) ↦ ⟨indent ++ key ++ [':'] ++ sep, key, rhs⟩

section

variable {isStart isChar : Char → Bool} {separator : Char} (hseparator : isChar separator = false)
include hseparator

theorem readKey_eq_some_iff {text key rest : Text} :
    readKey isStart isChar separator text = some (key, rest) ↔
      text = key ++ separator :: rest ∧ (∀ character ∈ key, isChar character) ∧
        key.head?.any isStart := by
  constructor
  · intro h
    unfold readKey at h
    split at h
    case h_2 => nomatch h
    case h_1 next tail htail =>
      split_ifs at h with hkey
      obtain ⟨rfl, rfl⟩ := Prod.mk.inj (Option.some.inj h)
      refine ⟨?_, fun character hcharacter ↦ mem_takeWhile_imp hcharacter, hkey.1⟩
      rw [← hkey.2, ← htail, takeWhile_append_dropWhile]
  · rintro ⟨rfl, hall, hstart⟩
    have htake : (key ++ separator :: rest).takeWhile isChar = key := by
      rw [takeWhile_append_of_pos hall, takeWhile_cons_of_neg (by simp [hseparator]), append_nil]
    have hdrop : (key ++ separator :: rest).dropWhile isChar = separator :: rest := by
      rw [dropWhile_append_of_pos hall, dropWhile_cons_of_neg (by simp [hseparator])]
    rw [readKey, hdrop, htake]
    exact if_pos ⟨hstart, rfl⟩

/-- A key in a line without the white space at its end. -/
theorem readKey_rdropWhile (hblank : isTrimmed separator = false) (text : Text) :
    readKey isStart isChar separator (text.rdropWhile isTrimmed) =
      (readKey isStart isChar separator text).map fun found ↦
        (found.1, found.2.rdropWhile isTrimmed) := by
  cases h : readKey isStart isChar separator text with
  | some found =>
    obtain ⟨rfl, hkey⟩ := (readKey_eq_some_iff hseparator).mp h
    refine (readKey_eq_some_iff hseparator).mpr ⟨?_, hkey⟩
    exact rdropWhile_append_cons _ (by simp [hblank]) _
  | none =>
    cases htrimmed : readKey isStart isChar separator (text.rdropWhile isTrimmed) with
    | none => rfl
    | some found =>
      obtain ⟨htext, hkey⟩ := (readKey_eq_some_iff hseparator).mp htrimmed
      obtain ⟨tail, -, happend⟩ := exists_rdropWhile_append isTrimmed text
      have hwhole : readKey isStart isChar separator text = some (found.1, found.2 ++ tail) := by
        refine (readKey_eq_some_iff hseparator).mpr ⟨?_, hkey⟩
        rw [← happend, htext]
        simp
      nomatch h.symm.trans hwhole

end

variable {character : Char}

theorem isNameChar_of_isKeyChar (h : isKeyChar character) : isNameChar character := by
  simp only [isKeyChar, isNameChar, isNameStart, Bool.decide_or, Bool.decide_eq_true,
    Bool.or_eq_true, decide_eq_true_eq] at h ⊢
  tauto

theorem toNat_of_isNameChar (h : isNameChar character) :
    48 ≤ character.toNat ∧ character.toNat ≤ 122 := by
  simp only [isNameChar, isNameStart, isKeyStart, Char.le_def, UInt32.le_iff_toNat_le,
    Bool.decide_or, Bool.or_eq_true, decide_eq_true_eq] at h
  have htoNat : character.val.toNat = character.toNat := rfl
  rw [htoNat] at h
  rcases h with ((⟨hlow, hhigh⟩ | ⟨hlow, hhigh⟩ | rfl) | ⟨hlow, hhigh⟩)
  all_goals first | decide | exact ⟨le_trans (by decide) hlow, le_trans hhigh (by decide)⟩

/-- The code points of white space. -/
theorem toNat_of_isTrimmed (h : isTrimmed character) :
    character.toNat ≤ 32 ∨ 160 ≤ character.toNat := by
  simp only [isTrimmed, mem_cons, not_mem_nil, or_false, Bool.decide_or, Bool.or_eq_true,
    decide_eq_true_eq] at h
  omega

theorem not_isTrimmed_of_isNameChar (h : isNameChar character) : ¬ isTrimmed character := by
  intro hblank
  have hkey := toNat_of_isNameChar h
  have hspace := toNat_of_isTrimmed hblank
  omega

section

open Foundation Secrets ConfigSync List Option

variable {text rawLine key sep rhs other value : Text} {line : KeyLine}

/-! ### The two forms -/

theorem readEnv_eq_some_iff : readEnv text = some (key, rhs) ↔ text = key ++ '=' :: rhs ∧
    (∀ character ∈ key, isNameChar character) ∧ key.head?.any isNameStart :=
  readKey_eq_some_iff (by decide)

theorem readYaml_eq_some_iff : readYaml text = some (key, sep, rhs) ↔
    (text = key ++ ':' :: (sep ++ rhs) ∧ (∀ character ∈ key, isKeyChar character) ∧
      key.head?.any isKeyStart) ∧ sep ≠ [] ∧ (∀ character ∈ sep, isTrimmed character) ∧
      ∀ first ∈ rhs.head?, ¬ isTrimmed first := by
  have hcolon : isKeyChar ':' = false := by decide
  constructor
  · intro h
    unfold readYaml at h
    split at h
    case h_2 => nomatch h
    case h_1 found rest hfound =>
      split_ifs at h with hsep
      simp only [some.injEq, Prod.mk.injEq] at h
      obtain ⟨rfl, rfl, rfl⟩ := h
      refine ⟨?_, hsep, fun _ ↦ mem_takeWhile_imp, fun first hfirst ↦ ?_⟩
      · rw [takeWhile_append_dropWhile]
        exact (readKey_eq_some_iff hcolon).mp hfound
      · have hnot := List.head?_dropWhile_not isTrimmed rest
        rw [hfirst] at hnot
        simpa using hnot
  · rintro ⟨hkey, hsep, hall, hrhs⟩
    have htake : (sep ++ rhs).takeWhile isTrimmed = sep := by
      rw [takeWhile_append_of_pos hall]
      cases rhs with
      | nil => simp
      | cons first rest =>
        rw [takeWhile_cons_of_neg (hrhs first rfl), append_nil]
    have hdrop : (sep ++ rhs).dropWhile isTrimmed = rhs := by
      rw [dropWhile_append_of_pos hall]
      cases rhs with
      | nil => rfl
      | cons first rest => exact dropWhile_cons_of_neg (hrhs first rfl)
    rw [readYaml, (readKey_eq_some_iff hcolon).mpr hkey]
    simp only [htake, hdrop, if_neg hsep]

/-- A line is not of both forms. -/
theorem readEnv_eq_none_of_readYaml (h : readYaml text = some (key, sep, rhs)) :
    readEnv text = none := by
  obtain ⟨⟨rfl, hkey, -⟩, -⟩ := readYaml_eq_some_iff.mp h
  have hname : ∀ character ∈ key, isNameChar character :=
    fun character hcharacter ↦ isNameChar_of_isKeyChar (hkey character hcharacter)
  have hdrop : (key ++ ':' :: (sep ++ rhs)).dropWhile isNameChar = ':' :: (sep ++ rhs) := by
    rw [dropWhile_append_of_pos hname]
    exact dropWhile_cons_of_neg (by decide)
  rw [readEnv, readKey, hdrop]
  exact if_neg fun h ↦ absurd h.2 (by decide)

theorem keyLine_eq_some_iff : keyLine rawLine = some line ↔
    (readEnv (rawLine.dropWhile isTrimmed) = some (line.key, line.rhs) ∧
      line.before = rawLine.takeWhile isTrimmed ++ line.key ++ ['=']) ∨
    ∃ sep, readYaml (rawLine.dropWhile isTrimmed) = some (line.key, sep, line.rhs) ∧
      line.before = rawLine.takeWhile isTrimmed ++ line.key ++ [':'] ++ sep := by
  simp only [keyLine]
  constructor
  · intro h
    split at h
    case h_1 found rest hfound =>
      obtain rfl := some.inj h
      exact .inl ⟨hfound, rfl⟩
    case h_2 =>
      obtain ⟨⟨found, sep, rest⟩, hfound, rfl⟩ := map_eq_some_iff.mp h
      exact .inr ⟨sep, hfound, rfl⟩
  · rintro (⟨henv, hbefore⟩ | ⟨sep, hyaml, hbefore⟩)
    · rw [henv]
      simp only [← hbefore]
    · rw [readEnv_eq_none_of_readYaml hyaml, hyaml]
      simp only [map_some, ← hbefore]

/-- A line is what stands before the right-hand side, and the right-hand side. -/
theorem append_of_keyLine (h : keyLine rawLine = some line) :
    line.before ++ line.rhs = rawLine := by
  have hindent : rawLine.takeWhile isTrimmed ++ rawLine.dropWhile isTrimmed = rawLine :=
    takeWhile_append_dropWhile
  rcases keyLine_eq_some_iff.mp h with ⟨henv, hbefore⟩ | ⟨sep, hyaml, hbefore⟩
  · obtain ⟨hbody, -⟩ := readEnv_eq_some_iff.mp henv
    refine Eq.trans ?_ hindent
    rw [hbefore, hbody]
    simp
  · obtain ⟨⟨hbody, -⟩, -⟩ := readYaml_eq_some_iff.mp hyaml
    refine Eq.trans ?_ hindent
    rw [hbefore, hbody]
    simp

/-- Another right-hand side behind the same key. -/
theorem keyLine_append (h : keyLine rawLine = some line)
    (hother : ∀ first ∈ other.head?, ¬ isTrimmed first) :
    keyLine (line.before ++ other) = some ⟨line.before, line.key, other⟩ := by
  have hindent : ∀ character ∈ rawLine.takeWhile isTrimmed, isTrimmed character :=
    fun _ ↦ mem_takeWhile_imp
  have hbody : ∀ rest : Text, (∀ first ∈ rest.head?, ¬ isTrimmed first) →
      (rawLine.takeWhile isTrimmed ++ rest).takeWhile isTrimmed = rawLine.takeWhile isTrimmed ∧
      (rawLine.takeWhile isTrimmed ++ rest).dropWhile isTrimmed = rest := by
    intro rest hrest
    rw [takeWhile_append_of_pos hindent, dropWhile_append_of_pos hindent]
    cases rest with
    | nil => simp
    | cons first rest =>
      rw [takeWhile_cons_of_neg (hrest first rfl), dropWhile_cons_of_neg (hrest first rfl),
        append_nil]
      exact ⟨rfl, rfl⟩
  refine keyLine_eq_some_iff.mpr ?_
  rcases keyLine_eq_some_iff.mp h with ⟨henv, hbefore⟩ | ⟨sep, hyaml, hbefore⟩
  · obtain ⟨-, hkey, hstart⟩ := readEnv_eq_some_iff.mp henv
    have hhead : ∀ first ∈ (line.key ++ '=' :: other).head?, ¬ isTrimmed first := by
      intro first hfirst
      cases hline : line.key with
      | nil => simp [hline] at hstart
      | cons head tail =>
        rw [hline] at hfirst hkey
        obtain rfl : head = first := some.inj hfirst
        exact not_isTrimmed_of_isNameChar (hkey head mem_cons_self)
    obtain ⟨htake, hdrop⟩ := hbody _ hhead
    have hwhole : line.before ++ other =
        rawLine.takeWhile isTrimmed ++ (line.key ++ '=' :: other) := by
      rw [hbefore]
      simp
    rw [hwhole, htake, hdrop]
    exact .inl ⟨readEnv_eq_some_iff.mpr ⟨rfl, hkey, hstart⟩, hbefore⟩
  · obtain ⟨⟨-, hkey, hstart⟩, hsep, hall, -⟩ := readYaml_eq_some_iff.mp hyaml
    have hhead : ∀ first ∈ (line.key ++ ':' :: (sep ++ other)).head?, ¬ isTrimmed first := by
      intro first hfirst
      cases hline : line.key with
      | nil => simp [hline] at hstart
      | cons head tail =>
        rw [hline] at hfirst hkey
        obtain rfl : head = first := some.inj hfirst
        exact not_isTrimmed_of_isNameChar (isNameChar_of_isKeyChar (hkey head mem_cons_self))
    obtain ⟨htake, hdrop⟩ := hbody _ hhead
    have hwhole : line.before ++ other =
        rawLine.takeWhile isTrimmed ++ (line.key ++ ':' :: (sep ++ other)) := by
      rw [hbefore]
      simp
    rw [hwhole, htake, hdrop]
    exact .inr ⟨sep, readYaml_eq_some_iff.mpr ⟨⟨rfl, hkey, hstart⟩, hsep, hall, hother⟩, hbefore⟩

/-! ### The two readers -/

theorem rewriteLine_eq (rawLine value placeholder : Text) :
    rewriteLine rawLine value placeholder = (keyLine rawLine).bind fun line ↦
      if reachesEnd line.rhs then rewriteRhs line.before line.rhs value placeholder else none := by
  simp only [rewriteLine, keyLine]
  cases henv : readEnv (rawLine.dropWhile isTrimmed) with
  | some found =>
    by_cases hend : reachesEnd found.2
    · simp only [filter_some, hend, if_true, bind_some]
    · have hyaml : readYaml (rawLine.dropWhile isTrimmed) = none := by
        by_contra hsome
        obtain ⟨⟨key, sep, rhs⟩, hyaml⟩ := ne_none_iff_exists'.mp hsome
        nomatch henv.symm.trans (readEnv_eq_none_of_readYaml hyaml)
      simp only [filter_some, hend, hyaml, filter_none, bind_some]
      simp
  | none =>
    cases hyaml : readYaml (rawLine.dropWhile isTrimmed) with
    | none => rfl
    | some found =>
      by_cases hend : reachesEnd found.2.2
      · simp only [filter_none, filter_some, hend, if_true, map_some, bind_some]
      · simp only [filter_none, filter_some, hend, map_some, bind_some]
        simp

/-- The value in a right-hand side does not depend on the white space at its end. -/
theorem pairOf_rdropWhile (key rhs : Text) :
    pairOf key (rhs.rdropWhile isTrimmed) = pairOf key rhs := by
  rw [pairOf, trim, trimBoth_rdropWhile]
  rfl

theorem pairOf_eq_none_of_blank (key : Text) (h : rhs.rdropWhile isTrimmed = []) :
    pairOf key rhs = none := by
  rw [← pairOf_rdropWhile, h]
  rfl

theorem readYaml_rdropWhile (text : Text) : readYaml (text.rdropWhile isTrimmed) =
    (readYaml text).bind fun found ↦ if found.2.2 = [] then none
      else some (found.1, found.2.1, found.2.2.rdropWhile isTrimmed) := by
  have hkey : readKey isKeyStart isKeyChar ':' (text.rdropWhile isTrimmed) = _ :=
    readKey_rdropWhile (by decide) (by decide) text
  rw [readYaml, readYaml, hkey]
  cases readKey isKeyStart isKeyChar ':' text with
  | none => rfl
  | some found =>
    simp only [map_some]
    by_cases hrhs : found.2.dropWhile isTrimmed = []
    · have hblank : found.2.rdropWhile isTrimmed = [] :=
        rdropWhile_eq_nil_iff.mpr (dropWhile_eq_nil_iff.mp hrhs)
      simp only [hblank, hrhs, takeWhile_nil, if_true]
      split_ifs <;> rfl
    · rw [takeWhile_rdropWhile hrhs, dropWhile_rdropWhile]
      split_ifs with hsep
      · rfl
      · simp [hrhs]

/-- A line with a key is neither blank nor a comment. -/
theorem not_comment (hkey : ∀ character ∈ key, isNameChar character) {isStart : Char → Bool}
    (hstart : key.head?.any isStart) (rest : Text) :
    ¬ (key ++ rest = [] ∨ ['#'] <+: key ++ rest ∨ ['/', '/'] <+: key ++ rest) := by
  obtain ⟨first, tail, rfl⟩ : ∃ first tail, key = first :: tail := by
    cases key with
    | nil => nomatch hstart
    | cons first tail => exact ⟨first, tail, rfl⟩
  have hrange := toNat_of_isNameChar (hkey first mem_cons_self)
  rintro (hnil | hhash | hslash)
  · nomatch hnil
  · obtain rfl := (cons_prefix_cons.mp hhash).1
    exact absurd hrange.1 (by decide)
  · obtain rfl := (cons_prefix_cons.mp hslash).1
    exact absurd hrange.1 (by decide)

theorem extractLine_eq (rawLine : Text) :
    extractLine rawLine = (keyLine rawLine).bind fun line ↦
      if reachesEnd (line.rhs.rdropWhile isTrimmed) then pairOf line.key line.rhs else none := by
  have htrim : trim rawLine = (rawLine.dropWhile isTrimmed).rdropWhile isTrimmed := rfl
  simp only [extractLine, keyLine, htrim]
  generalize rawLine.dropWhile isTrimmed = body
  have henvTrim : readEnv (body.rdropWhile isTrimmed) = (readEnv body).map fun found ↦
      (found.1, found.2.rdropWhile isTrimmed) := readKey_rdropWhile (by decide) (by decide) body
  rw [henvTrim, readYaml_rdropWhile]
  cases henv : readEnv body with
  | some found =>
    obtain ⟨hbody, hkey, hstart⟩ := readEnv_eq_some_iff.mp henv
    have hline : body.rdropWhile isTrimmed = found.1 ++ '=' :: found.2.rdropWhile isTrimmed := by
      rw [hbody]
      exact rdropWhile_append_cons _ (by decide) _
    have hyaml : readYaml body = none := by
      by_contra hsome
      obtain ⟨⟨key, sep, rhs⟩, hyaml⟩ := ne_none_iff_exists'.mp hsome
      nomatch henv.symm.trans (readEnv_eq_none_of_readYaml hyaml)
    rw [hline, if_neg (not_comment hkey hstart _), hyaml]
    simp only [map_some, bind_some, bind_none, filter_some, filter_none]
    by_cases hblank : found.2.rdropWhile isTrimmed = []
    · rw [pairOf_eq_none_of_blank _ hblank]
      simp [hblank]
    · by_cases hend : reachesEnd (found.2.rdropWhile isTrimmed)
      · simp [hblank, hend, pairOf_rdropWhile]
      · simp [hend]
  | none =>
    cases hyaml : readYaml body with
    | none => simp
    | some found =>
      obtain ⟨⟨hbody, hkey, hstart⟩, -⟩ := readYaml_eq_some_iff.mp hyaml
      have hline : body.rdropWhile isTrimmed =
          found.1 ++ ':' :: (found.2.1 ++ found.2.2).rdropWhile isTrimmed := by
        rw [hbody]
        exact rdropWhile_append_cons _ (by decide) _
      have hname : ∀ character ∈ found.1, isNameChar character :=
        fun character hcharacter ↦ isNameChar_of_isKeyChar (hkey character hcharacter)
      rw [hline, if_neg (not_comment hname hstart _)]
      simp only [map_none, map_some, bind_some, filter_none]
      by_cases hblank : found.2.2.rdropWhile isTrimmed = []
      · rw [pairOf_eq_none_of_blank _ hblank]
        by_cases hrhs : found.2.2 = []
        · simp [hrhs]
        · simp [hrhs, hblank, filter_some]
      · have hrhs : found.2.2 ≠ [] := by
          rintro hnil
          exact hblank (by rw [hnil]; rfl)
        by_cases hend : reachesEnd (found.2.2.rdropWhile isTrimmed)
        · simp [hrhs, hblank, hend, pairOf_rdropWhile, filter_some]
        · simp [hrhs, hend, filter_some]

end

end Bridgeport.ConfigScan
