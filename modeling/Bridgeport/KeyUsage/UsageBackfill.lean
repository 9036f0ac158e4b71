import Bridgeport.ConfigSync.AutoResync
import Bridgeport.Foundation.SqlText
import Bridgeport.KeyUsage.UsageIndex

/-!
# The backfill of the usage rows

The migration `20260526165012_add_secret_var_usage` fills the new tables by two queries, which are
to find the keys of a content as `extractReferencedKeys` does. All of their conditions do but one:
the one on `$KEY` is written with `[!A-Z0-9_]`, where `GLOB` inverts a list that begins with `^`. So
the character behind the key has to be `!` or one that goes on with a longer key: `$KEY` in front of
a space is missed, and `$KEYBOARD` is taken for `$KEY`.
-/

namespace Bridgeport.KeyUsage

open ConfigScan (isNameChar_of_isKeyChar isTerminator toNat_of_isNameChar)
open Foundation List
open Secrets

/-- The reference `{{KEY}}`. -/
def doubleBraces (key : Text) : Text :=
  '{' :: '{' :: key ++ ['}', '}']

/-- The list of characters behind `$KEY`. -/
def boundaryList : Text :=
  "[!A-Z0-9_]".toList

def selects (content key : Text) : Bool :=
  glob content ('*' :: placeholder key ++ ['*']) ||
  glob content ('*' :: ('$' :: key) ++ boundaryList ++ ['*']) ||
  substr content (textLength content - textLength key) none = '$' :: key ||
  glob content ('*' :: doubleBraces key ++ ['*']) ||
  substr content 1 (some (textLength key + 1)) = key ++ ['='] ||
  0 < instr content ('\n' :: key ++ ['='])

/-- The rows of one of the queries; `INSERT OR IGNORE` keeps one row for each file and key. -/
def backfill (files : Table ConfigFileRow) (keys : Table KeyRow) : List UsageRow :=
  (files.rows.flatMap fun file ↦
    (keys.rows.filter fun row ↦ row.environmentId = file.environmentId ∧
      file.isBinary = false ∧ selects file.content row.key).map fun row ↦
        ⟨file.environmentId, row.key, file.id⟩).dedup

/-! ### The extractor -/

variable {key text : Text}

theorem readKey_eq_some_iff : readKey text = some key ↔
    validKey key = true ∧ ∃ rest, text = key ++ rest ∧ rest.head?.any isKeyChar = false := by
  rw [validKey_iff]
  constructor
  · intro h
    unfold readKey at h
    dsimp only at h
    split_ifs at h with hstart
    obtain rfl := Option.some.inj h
    refine ⟨⟨hstart, all_takeWhile⟩, text.dropWhile isKeyChar,
      (takeWhile_append_dropWhile).symm, ?_⟩
    cases hrest : text.dropWhile isKeyChar with
    | nil => rfl
    | cons first rest =>
      have hfirst := List.head?_dropWhile_not isKeyChar text
      rw [hrest] at hfirst
      simpa using hfirst
  · rintro ⟨⟨hstart, hall⟩, rest, rfl, hrest⟩
    have htake : (key ++ rest).takeWhile isKeyChar = key := by
      rw [takeWhile_append_of_pos (all_eq_true.mp hall)]
      cases rest with
      | nil => simp
      | cons first rest => simpa using hrest
    unfold readKey
    simp only [htake, if_pos hstart]

variable {content : Text}

theorem mem_filterMap_tails {read : Text → Option Text} : key ∈ content.tails.filterMap read ↔
      ∃ before rest, content = before ++ rest ∧ read rest = some key := by
  rw [mem_filterMap]
  constructor
  · rintro ⟨rest, hrest, hread⟩
    obtain ⟨before, rfl⟩ := (mem_tails _ _).mp hrest
    exact ⟨before, rest, rfl, hread⟩
  · rintro ⟨before, rest, rfl, hread⟩
    exact ⟨rest, (mem_tails _ _).mpr (suffix_append _ _), hread⟩

section

variable {content key : Text}

section

variable (hkey : validKey key = true)
include hkey

theorem mem_placeholders_iff :
    key ∈ content.tails.filterMap (readPlaceholder isKeyStart) ↔ placeholder key <:+: content := by
  rw [mem_filterMap_tails]
  constructor
  · rintro ⟨before, rest, rfl, hread⟩
    obtain ⟨-, -, after, rfl⟩ := exists_of_readPlaceholder hread
    exact ⟨before, after, append_assoc _ _ _⟩
  · rintro ⟨before, after, rfl⟩
    exact ⟨before, placeholder key ++ after, append_assoc _ _ _,
      readPlaceholder_placeholder_append hkey after⟩

theorem mem_bareKeys_iff :
    key ∈ content.tails.filterMap readBareKey ↔ ∃ before after,
      content = before ++ '$' :: key ++ after ∧ after.head?.any isKeyChar = false := by
  rw [mem_filterMap_tails]
  constructor
  · rintro ⟨before, rest, rfl, hread⟩
    unfold readBareKey at hread
    split at hread
    · obtain ⟨-, after, rfl, hafter⟩ := readKey_eq_some_iff.mp hread
      exact ⟨before, after, by simp, hafter⟩
    · nomatch hread
  · rintro ⟨before, after, rfl, hafter⟩
    exact ⟨before, '$' :: (key ++ after), by simp,
      readKey_eq_some_iff.mpr ⟨hkey, after, rfl, hafter⟩⟩

theorem mem_doubleBraceKeys_iff :
    key ∈ content.tails.filterMap readDoubleBraceKey ↔ doubleBraces key <:+: content := by
  rw [mem_filterMap_tails]
  constructor
  · rintro ⟨before, rest, rfl, hread⟩
    unfold readDoubleBraceKey at hread
    split at hread
    · obtain ⟨hread, hclosed⟩ := Option.filter_eq_some_iff.mp hread
      obtain ⟨-, after, rfl, -⟩ := readKey_eq_some_iff.mp hread
      rw [drop_left, isPrefixOf_iff_prefix] at hclosed
      obtain ⟨after, rfl⟩ := hclosed
      exact ⟨before, after, by simp [doubleBraces]⟩
    · nomatch hread
  · rintro ⟨before, after, rfl⟩
    refine ⟨before, doubleBraces key ++ after, append_assoc _ _ _, ?_⟩
    have hread : readKey (key ++ '}' :: '}' :: after) = some key :=
      readKey_eq_some_iff.mpr ⟨hkey, '}' :: '}' :: after, rfl, by
        simpa using closing_not_isKeyChar⟩
    have htext : doubleBraces key ++ after = '{' :: '{' :: (key ++ '}' :: '}' :: after) := by
      simp [doubleBraces]
    rw [htext]
    exact Option.filter_eq_some_iff.mpr ⟨hread, by simp⟩

theorem mem_assignedKeys_iff :
    key ∈ (content.splitOnP isTerminator).filterMap readAssignedKey ↔
      ∃ line ∈ content.splitOnP isTerminator, key ++ ['='] <+: line := by
  rw [mem_filterMap]
  refine exists_congr fun line ↦ and_congr_right fun _ ↦ ?_
  unfold readAssignedKey
  constructor
  · intro hread
    obtain ⟨hread, hassigned⟩ := Option.filter_eq_some_iff.mp hread
    obtain ⟨-, rest, rfl, -⟩ := readKey_eq_some_iff.mp hread
    rw [drop_left, decide_eq_true_eq] at hassigned
    obtain ⟨value, rfl⟩ := List.head?_eq_some_iff.mp hassigned
    exact ⟨value, by simp⟩
  · rintro ⟨value, rfl⟩
    have hread : readKey (key ++ ['='] ++ value) = some key :=
      readKey_eq_some_iff.mpr ⟨hkey, '=' :: value, by simp, rfl⟩
    exact Option.filter_eq_some_iff.mpr ⟨hread, by simp⟩

end

end

theorem exists_place_cons_iff {first : Char} {holds : Char → Text → Prop} :
    (∃ before found after, first :: text = before ++ found :: after ∧ holds found after) ↔
      holds first text ∨ ∃ before found after, text = before ++ found :: after ∧
        holds found after := by
  constructor
  · rintro ⟨before, found, after, htext, hholds⟩
    cases before with
    | nil =>
      obtain ⟨rfl, rfl⟩ := List.cons.inj htext
      exact .inl hholds
    | cons head before =>
      obtain ⟨rfl, rfl⟩ := List.cons.inj htext
      exact .inr ⟨before, found, after, rfl, hholds⟩
  · rintro (hholds | ⟨before, found, after, rfl, hholds⟩)
    · exact ⟨[], first, text, rfl, hholds⟩
    · exact ⟨first :: before, found, after, rfl, hholds⟩

variable {separates : Char → Bool}

/-- A part without separators begins the first line if it begins the text, and another line if it
stands behind a separator. -/
theorem prefix_line_iff {line : Text} {lines : List Text}
    (hlines : text.splitOnP separates = line :: lines) {part : Text}
    (hpart : ∀ character ∈ part, separates character = false) : (part <+: line ↔ part <+: text) ∧
      ((∃ other ∈ lines, part <+: other) ↔ ∃ before found after,
        text = before ++ found :: after ∧ separates found = true ∧ part <+: after) := by
  induction text generalizing line lines part with
  | nil =>
    rw [splitOnP_nil] at hlines
    obtain ⟨rfl, rfl⟩ := List.cons.inj hlines
    simp
  | cons first text ih =>
    rw [splitOnP_cons_eq_if_modifyHead] at hlines
    rw [exists_place_cons_iff]
    obtain ⟨next, rest, hnext⟩ := exists_cons_of_ne_nil (splitOnP_ne_nil separates text)
    rw [hnext] at hlines
    by_cases hfirst : separates first = true
    · rw [if_pos hfirst] at hlines
      obtain ⟨rfl, rfl⟩ := List.cons.inj hlines
      obtain ⟨hbegins, hlater⟩ := ih hnext hpart
      constructor
      · cases part with
        | nil => simp
        | cons head part =>
          have hhead : separates head = false := hpart head mem_cons_self
          refine iff_of_false (by simp) fun h ↦ ?_
          rw [(cons_prefix_cons.mp h).1, hfirst] at hhead
          nomatch hhead
      · simp only [mem_cons, exists_eq_or_imp, hbegins, hlater, hfirst, true_and]
    · rw [if_neg hfirst, modifyHead_cons] at hlines
      obtain ⟨rfl, rfl⟩ := List.cons.inj hlines
      constructor
      · cases part with
        | nil => simp
        | cons head part =>
          have hrest := fun character hcharacter ↦
            hpart character (mem_cons_of_mem head hcharacter)
          rw [cons_prefix_cons, cons_prefix_cons, (ih hnext hrest).1]
      · rw [(ih hnext hpart).2]
        simp only [hfirst, false_and, false_or, Bool.false_eq_true]

theorem exists_line_iff {part : Text} (hpart : ∀ character ∈ part, separates character = false) :
    (∃ line ∈ text.splitOnP separates, part <+: line) ↔ part <+: text ∨
      ∃ before found after, text = before ++ found :: after ∧ separates found = true ∧
        part <+: after := by
  obtain ⟨line, lines, hlines⟩ := exists_cons_of_ne_nil (splitOnP_ne_nil separates text)
  obtain ⟨hbegins, hlater⟩ := prefix_line_iff hlines hpart
  rw [hlines, ← hbegins, ← hlater]
  simp

/-! ### The contents -/

/-- A content without NUL characters whose line breaks are `\n` or `\r\n`. -/
structure PlainText (content : Text) : Prop where
  noNul : nul ∉ content
  breaks : ∀ before found after, content = before ++ found :: after →
    isTerminator found = true → found = '\n' ∨ found = '\r' ∧ after.head? = some '\n'

/-- A line of the content begins with `KEY=`. -/
def StartsLine (content key : Text) : Prop :=
  key ++ ['='] <+: content ∨ '\n' :: key ++ ['='] <:+: content

/-- A character behind `$KEY`, somewhere in the content. -/
def FollowedBy (accepts : Char → Prop) (content key : Text) : Prop :=
  ∃ before found after, content = before ++ '$' :: key ++ found :: after ∧ accepts found

/-- A reference that the queries find as the extractor does. -/
def FoundByBoth (content key : Text) : Prop :=
  placeholder key <:+: content ∨ doubleBraces key <:+: content ∨ StartsLine content key ∨
    '$' :: key <:+ content

variable {character : Char}

theorem isKeyChar_of_mem (hkey : validKey key = true) (h : character ∈ key) :
    isKeyChar character = true :=
  all_eq_true.mp ((validKey_iff key).mp hkey).2 character h

theorem isTerminator_of_isKeyChar (h : isKeyChar character = true) :
    isTerminator character = false := by
  obtain ⟨hlow, hhigh⟩ := toNat_of_isNameChar (isNameChar_of_isKeyChar h)
  simp only [isTerminator, mem_cons, not_mem_nil, or_false, decide_eq_false_iff_not]
  omega

theorem startsLine_iff (hplain : PlainText content) (hkey : validKey key = true) :
    (∃ line ∈ content.splitOnP isTerminator, key ++ ['='] <+: line) ↔ StartsLine content key := by
  have hpart : ∀ character ∈ key ++ ['='], isTerminator character = false := by
    intro character hcharacter
    rcases mem_append.mp hcharacter with hmem | hmem
    · exact isTerminator_of_isKeyChar (isKeyChar_of_mem hkey hmem)
    · rw [mem_singleton.mp hmem]
      rfl
  rw [exists_line_iff hpart]
  refine or_congr_right ⟨?_, ?_⟩
  · rintro ⟨before, found, after, rfl, hfound, rest, rfl⟩
    rcases hplain.breaks before found _ rfl hfound with rfl | ⟨rfl, hbreak⟩
    · exact ⟨before, rest, by simp⟩
    · -- a `\r` is in front of `\n`, which begins no key
      have hmem : '\n' ∈ key ++ ['='] := by
        rw [List.head?_append_of_ne_nil _ (by simp)] at hbreak
        exact mem_of_mem_head? hbreak
      nomatch hpart '\n' hmem
  · rintro ⟨before, after, rfl⟩
    exact ⟨before, '\n', key ++ ['='] ++ after, by simp, rfl, prefix_append _ _⟩

/-! ### What the queries and the extractor find -/

theorem mem_extractReferencedKeys_iff (hplain : PlainText content) (hkey : validKey key = true) :
    key ∈ extractReferencedKeys content ↔
      FoundByBoth content key ∨ FollowedBy (isKeyChar · = false) content key := by
  have hbare : key ∈ content.tails.filterMap readBareKey ↔
      '$' :: key <:+ content ∨ FollowedBy (isKeyChar · = false) content key := by
    rw [mem_bareKeys_iff hkey]
    constructor
    · rintro ⟨before, after, rfl, hafter⟩
      cases after with
      | nil => exact .inl ⟨before, (append_nil _).symm⟩
      | cons found after => exact .inr ⟨before, found, after, rfl, hafter⟩
    · rintro (⟨before, rfl⟩ | ⟨before, found, after, rfl, hfound⟩)
      · exact ⟨before, [], (append_nil _).symm, rfl⟩
      · exact ⟨before, found :: after, rfl, hfound⟩
  unfold extractReferencedKeys FoundByBoth
  rw [mem_dedup, mem_filter]
  simp only [mem_append, mem_placeholders_iff hkey, hbare, mem_doubleBraceKeys_iff hkey,
    mem_assignedKeys_iff hkey, startsLine_iff hplain hkey, hkey, and_true]
  tauto

theorem readGlob_boundaryList : readGlob .outside (boundaryList ++ ['*']) =
    [.oneOf false [('_', '_'), ('0', '9'), ('0', '0'), ('A', 'Z'), ('A', 'A'), ('!', '!')],
      .many] := by
  decide

/-- The list behind `$KEY` is not inverted: it holds `!` and what a key consists of. -/
theorem accepts_boundaryList (found : Char) :
    (GlobItem.oneOf false [('_', '_'), ('0', '9'), ('0', '0'), ('A', 'Z'), ('A', 'A'),
      ('!', '!')]).accepts found = true ↔ found = '!' ∨ isKeyChar found = true := by
  have hsingle : ∀ low : Char, low ≤ found ∧ found ≤ low ↔ found = low := fun low ↦
    ⟨fun h ↦ Char.le_antisymm h.2 h.1, fun h ↦ h ▸ ⟨Char.le_refl _, Char.le_refl _⟩⟩
  have hstart : found = 'A' → 'A' ≤ found ∧ found ≤ 'Z' := by
    rintro rfl
    decide
  have hdigit : found = '0' → '0' ≤ found ∧ found ≤ '9' := by
    rintro rfl
    decide
  simp only [GlobItem.accepts, any_cons, any_nil, hsingle, isKeyChar, isKeyStart, Bool.bne_false,
    Bool.or_eq_true, decide_eq_true_eq, Bool.or_false]
  tauto

theorem isPlain_of_isKeyChar (h : isKeyChar character = true) : isPlain character := by
  simp only [isPlain, mem_cons, not_mem_nil, or_false, not_or]
  refine ⟨?_, ?_, ?_, ?_⟩
  all_goals
    rintro rfl
    exact absurd h (by decide)

theorem isPlain_of_mem (signs : Text) (hkey : validKey key = true)
    (hsigns : ∀ character ∈ signs, isPlain character) (h : character ∈ signs ∨ character ∈ key) :
    isPlain character :=
  h.elim (hsigns character) fun hmem ↦ isPlain_of_isKeyChar (isKeyChar_of_mem hkey hmem)

theorem selects_iff (hplain : PlainText content) (hkey : validKey key = true) :
    selects content key = true ↔ FoundByBoth content key ∨
      FollowedBy (fun found ↦ found = '!' ∨ isKeyChar found = true) content key := by
  have hwhole : ∀ character ∈ key, isPlain character := fun character hcharacter ↦
    isPlain_of_isKeyChar (isKeyChar_of_mem hkey hcharacter)
  have hlength : textLength key = key.length := by
    rw [textLength, untilNul_eq_self (nul_notMem_of_isPlain hwhole)]
  have hplaceholder : glob content ('*' :: placeholder key ++ ['*']) = true ↔
      placeholder key <:+: content := by
    refine glob_contains hplain.noNul fun character hcharacter ↦ ?_
    refine isPlain_of_mem ['$', '{', '}'] hkey (by simp [isPlain, nul]) ?_
    simpa [placeholder, or_assoc, or_comm, or_left_comm] using hcharacter
  have hbraces : glob content ('*' :: doubleBraces key ++ ['*']) = true ↔
      doubleBraces key <:+: content := by
    refine glob_contains hplain.noNul fun character hcharacter ↦ ?_
    refine isPlain_of_mem ['{', '}'] hkey (by simp [isPlain, nul]) ?_
    simpa [doubleBraces, or_assoc, or_comm, or_left_comm] using hcharacter
  have hfollowed : glob content ('*' :: ('$' :: key) ++ boundaryList ++ ['*']) = true ↔
      FollowedBy (fun found ↦ found = '!' ∨ isKeyChar found = true) content key := by
    refine (glob_followed hplain.noNul ?_ (by decide) readGlob_boundaryList).trans ?_
    · intro character hcharacter
      refine isPlain_of_mem ['$'] hkey (by simp [isPlain, nul]) ?_
      simpa using hcharacter
    · simp only [accepts_boundaryList, FollowedBy]
  have hends : substr content (textLength content - textLength key) none = '$' :: key ↔
      '$' :: key <:+ content := by
    rw [hlength]
    exact substr_eq_iff_suffix hplain.noNul rfl
  have hbegins : substr content 1 (some (textLength key + 1)) = key ++ ['='] ↔
      key ++ ['='] <+: content := by
    have hpart : textLength key + 1 = (key ++ ['=']).length := by simp [hlength]
    rw [hpart]
    exact substr_eq_iff_prefix hplain.noNul
  have hline : 0 < instr content ('\n' :: key ++ ['=']) ↔ '\n' :: key ++ ['='] <:+: content :=
    instr_pos_iff
  unfold selects FoundByBoth StartsLine
  simp only [Bool.or_eq_true, decide_eq_true_eq, hplaceholder, hfollowed, hends, hbraces, hbegins,
    hline, or_assoc, or_comm, or_left_comm]

/-- The queries and the extractor agree on a content and a key: both find a reference in another
form, or `$KEY!` occurs, or `$KEY` is followed by a character that ends the key in one place if and
only if it is followed by one that goes on with it in another. -/
def Alike (content key : Text) : Prop :=
  FoundByBoth content key ∨ FollowedBy (· = '!') content key ∨
    (FollowedBy (isKeyChar · = false) content key ↔ FollowedBy (isKeyChar · = true) content key)

theorem followedBy_or {first second : Char → Prop} :
    FollowedBy (fun found ↦ first found ∨ second found) content key ↔
      FollowedBy first content key ∨ FollowedBy second content key := by
  constructor
  · rintro ⟨before, found, after, rfl, hfirst | hsecond⟩
    · exact .inl ⟨before, found, after, rfl, hfirst⟩
    · exact .inr ⟨before, found, after, rfl, hsecond⟩
  · rintro (⟨before, found, after, rfl, hfirst⟩ | ⟨before, found, after, rfl, hsecond⟩)
    · exact ⟨before, found, after, rfl, .inl hfirst⟩
    · exact ⟨before, found, after, rfl, .inr hsecond⟩

theorem selects_iff_mem_iff (hplain : PlainText content) (hkey : validKey key = true) :
    (selects content key = true ↔ key ∈ extractReferencedKeys content) ↔ Alike content key := by
  have hends : FollowedBy (· = '!') content key → FollowedBy (isKeyChar · = false) content key := by
    rintro ⟨before, found, after, rfl, rfl⟩
    exact ⟨before, '!', after, rfl, rfl⟩
  rw [selects_iff hplain hkey, mem_extractReferencedKeys_iff hplain hkey, followedBy_or]
  unfold Alike
  by_cases hboth : FoundByBoth content key
  · simp [hboth]
  · by_cases hsign : FollowedBy (· = '!') content key
    · simp [hsign, hends hsign]
    · simp only [hboth, hsign, false_or]
      exact ⟨Iff.symm, Iff.symm⟩

/-- The tables that the queries read; the contents of text files are plain, and keys are valid. -/
structure UsageSource where
  files : Table ConfigFileRow
  (secrets vars : Table KeyRow)
  plain : ∀ file ∈ files.rows, file.isBinary = false → PlainText file.content
  valid_secrets : ∀ row ∈ secrets.rows, validKey row.key = true
  valid_vars : ∀ row ∈ vars.rows, validKey row.key = true

namespace UsageSource

variable (source : UsageSource)

def keys : KeyType → Table KeyRow
  | .secret => source.secrets
  | .var => source.vars

/-- The table that the migration fills. -/
def usage (type : KeyType) : List UsageRow :=
  backfill source.files (source.keys type)

theorem valid {type : KeyType} {row : KeyRow} (h : row ∈ (source.keys type).rows) :
    validKey row.key = true := by
  cases type with
  | secret => exact source.valid_secrets row h
  | var => exact source.valid_vars row h

end UsageSource

/-- Every existing key of the environment of a file has a row with it if and only if the file is
text and refers to the key. -/
def RowsAgree (source : UsageSource) : Prop :=
  ∀ type, ∀ file ∈ source.files.rows, ∀ row ∈ (source.keys type).rows,
    row.environmentId = file.environmentId →
      (⟨file.environmentId, row.key, file.id⟩ ∈ source.usage type ↔
        file.isBinary = false ∧ row.key ∈ extractReferencedKeys file.content)

theorem mem_backfill_iff {files : Table ConfigFileRow} {keys : Table KeyRow} {file : ConfigFileRow}
    {row : KeyRow} (hfile : file ∈ files.rows) (hrow : row ∈ keys.rows)
    (henvironment : row.environmentId = file.environmentId) :
    ⟨file.environmentId, row.key, file.id⟩ ∈ backfill files keys ↔
      file.isBinary = false ∧ selects file.content row.key = true := by
  simp only [backfill, mem_dedup, mem_flatMap, mem_map, mem_filter, decide_eq_true_eq,
    UsageRow.mk.injEq]
  constructor
  · rintro ⟨other, hother, source, ⟨-, -, hbinary, hselects⟩, -, hkey, hid⟩
    obtain rfl := Table.eq_of_id_eq hother hfile hid
    exact ⟨hbinary, hkey ▸ hselects⟩
  · rintro ⟨hbinary, hselects⟩
    exact ⟨file, hfile, row, ⟨hrow, henvironment, hbinary, hselects⟩, rfl, rfl, rfl⟩

/-- The rows of the backfill are those of the extractor if and only if all text files are `Alike` to
it for the keys of their environments. -/
theorem rows_agree_iff (source : UsageSource) : RowsAgree source ↔
    ∀ type, ∀ file ∈ source.files.rows, ∀ row ∈ (source.keys type).rows,
      row.environmentId = file.environmentId → file.isBinary = false →
        Alike file.content row.key := by
  refine forall_congr' fun type ↦ forall₂_congr fun file hfile ↦ forall₂_congr fun row hrow ↦
    forall_congr' fun henvironment ↦ ?_
  rw [UsageSource.usage, mem_backfill_iff hfile hrow henvironment]
  cases hbinary : file.isBinary with
  | true => simp
  | false =>
    simp only [true_and, forall_const]
    exact selects_iff_mem_iff (source.plain file hfile hbinary) (source.valid hrow)

/-- A shell script that refers to a host, with a space behind it. -/
def hostScript : ConfigFileRow where
  id := "file"
  environmentId := "environment"
  content := "ping $HOST -c 1\n".toList
  isBinary := false
  fragmentIds := []

def hostSource : UsageSource where
  files := ⟨[hostScript], nodup_singleton _⟩
  secrets := ⟨[⟨"secret", "environment", "HOST".toList⟩], nodup_singleton _⟩
  vars := Table.empty
  plain file hfile _ := by
    obtain rfl := mem_singleton.mp hfile
    have hbreaks : hostScript.content.all fun found ↦ ! isTerminator found || found = '\n' := by
      decide
    refine ⟨by decide, fun before found after hcontent hfound ↦ Or.inl ?_⟩
    have hbreak := all_eq_true.mp hbreaks found (hcontent ▸ mem_append_right _ mem_cons_self)
    simpa [hfound] using hbreak
  valid_secrets := by decide
  valid_vars _ h := absurd h not_mem_nil

/-- `$HOST` in front of a space is missed. -/
theorem not_rowsAgree_hostSource : ¬ RowsAgree hostSource := by
  intro h
  have hagree := h .secret hostScript (mem_singleton.mpr rfl)
    ⟨"secret", "environment", "HOST".toList⟩ (mem_singleton.mpr rfl) rfl
  rw [UsageSource.usage, mem_backfill_iff (mem_singleton.mpr rfl) (mem_singleton.mpr rfl) rfl] at hagree
  exact absurd hagree (by decide +kernel)

/-! ### What is substituted and what is scanned -/

section

open ConfigScan (isTerminator)
open ConfigSync Foundation List Secrets

/-- A text refers to a key in one of the four ways that are scanned for. -/
def Refers (content key : Text) : Prop :=
  placeholder key <:+: content ∨
    (∃ before after, content = before ++ '$' :: key ++ after ∧ after.head?.any isKeyChar = false) ∨
    doubleBraces key <:+: content ∨
    ∃ line ∈ content.splitOnP isTerminator, key ++ ['='] <+: line

def scanContent (file : ConfigFile) : Text :=
  buildScanContent (file.includedFragments.map (·.content)) file.content

/-- The keys of all placeholders that rendering meets are extracted. -/
def Covered (file : ConfigFile) : Prop :=
  ∀ key, validKey key = true → placeholder key <:+: composedSource file →
    key ∈ extractReferencedKeys (scanContent file)

variable {file : ConfigFile} {key : Text}

theorem mem_extractReferencedKeys_iff_refers (hkey : validKey key = true) :
    key ∈ extractReferencedKeys content ↔ Refers content key := by
  unfold extractReferencedKeys Refers
  rw [mem_dedup, mem_filter]
  simp only [mem_append, mem_placeholders_iff hkey, mem_bareKeys_iff hkey,
    mem_doubleBraceKeys_iff hkey, mem_assignedKeys_iff hkey, hkey, and_true, or_assoc]

theorem infix_scanContent (h : Mentions file key) : placeholder key <:+: scanContent file := by
  unfold scanContent buildScanContent
  dsimp only
  rcases h with hown | ⟨fragment, hfragment, hinfix⟩
  · split_ifs
    · exact hown
    · exact hown.trans ((suffix_cons _ _).trans (suffix_append _ _)).isInfix
  · have hjoined : placeholder key <:+:
        ['\n'].intercalate (file.includedFragments.map (·.content)) :=
      hinfix.trans (infix_intercalate_of_mem (mem_map_of_mem hfragment))
    have hne : ['\n'].intercalate (file.includedFragments.map (·.content)) ≠ [] := fun hempty ↦
      placeholder_ne_nil key (infix_nil.mp (hempty ▸ hjoined))
    rw [if_neg hne]
    exact hjoined.trans (prefix_append _ _).isInfix

/-- A header puts the name of its fragment into the composed source. -/
theorem infix_composedSource (h : HeaderMentions file key) :
    placeholder key <:+: composedSource file := by
  obtain ⟨hheaders, fragment, hfragment, hname⟩ := h
  have hlength : file.includedFragments.length ≠ 0 := (length_pos_of_mem hfragment).ne'
  unfold composedSource composeFragmentedContent
  rw [if_neg hlength]
  refine hname.trans (IsInfix.trans ?_ (infix_intercalate_of_mem
    (mem_append_left _ (mem_map_of_mem hfragment))))
  rw [hheaders, if_pos rfl]
  exact ⟨"# === fragment: ".toList, " ===\n".toList ++ fragment.content, by simp⟩

/-- The extracted keys cover what rendering substitutes exactly if the contents refer to every key
with a placeholder in a header. -/
theorem covered_iff : Covered file ↔
    ∀ key, validKey key = true → HeaderMentions file key → Refers (scanContent file) key := by
  refine forall_congr' fun key ↦ forall_congr' fun hkey ↦ ?_
  rw [mem_extractReferencedKeys_iff_refers hkey]
  refine ⟨fun h hheader ↦ h (infix_composedSource hheader), fun h hcomposed ↦ ?_⟩
  rcases mentions_of_infix_composedSource hkey file hcomposed with hmentions | hheader
  · exact .inl (infix_scanContent hmentions)
  · exact h hheader

theorem not_covered_fragmentName :
    ¬ Covered ⟨"file", "app.env", "production", [], false, none,
      [⟨"${TOKEN}".toList, "DEBUG=1".toList⟩], []⟩ := by
  intro h
  have hkey := h "TOKEN".toList (by decide) (by decide)
  exact absurd hkey (by decide)

end

end Bridgeport.KeyUsage
