import Mathlib.Data.List.Infix
import Mathlib.Data.List.TakeWhile

/-!
# Functions of SQLite on texts

`GLOB`, `substr`, `instr` and `length`, as SQLite documents them, on texts as lists of characters.

A pattern of `GLOB` is read into items (`readGlob`): `*` stands for any characters, `?` for one
character, and a list in brackets for one of its characters, or for one that is not among them when
the list begins with `^`. All other characters stand for themselves, so that a pattern without these
characters between two `*` is looked for anywhere in the text (`glob_contains`).
-/

namespace Bridgeport.Foundation

open List

/-- The end of a text in C. -/
def nul : Char :=
  Char.ofNat 0

/-- What a function sees of a text that it reads up to the first NUL. -/
def untilNul (text : List Char) : List Char :=
  text.takeWhile (· ≠ nul)

variable {text : List Char}

theorem untilNul_eq_self (h : nul ∉ text) : untilNul text = text := by
  have hall : ∀ character ∈ text, decide (character ≠ nul) = true := fun character hcharacter ↦
    decide_eq_true (ne_of_mem_of_not_mem hcharacter h)
  exact takeWhile_eq_self_iff.mpr hall

/-! ### Patterns -/

/-- An item of a pattern; a list that is not closed matches nothing. -/
inductive GlobItem
  | many
  | one
  | oneOf (inverted : Bool) (ranges : List (Char × Char))
  | character (expected : Char)
  | unclosed
  deriving DecidableEq

def GlobItem.accepts (found : Char) : GlobItem → Bool
  | .many | .one => true
  | .oneOf inverted ranges => (ranges.any fun (low, high) ↦ low ≤ found ∧ found ≤ high) != inverted
  | .character expected => found = expected
  | .unclosed => false

/-- Where the reader of a pattern is: outside of a list, behind `[`, behind `[^`, in a list with the
character before, or behind the `-` of a range. -/
inductive GlobReader
  | outside
  | opened
  | inverted
  | list (inverted : Bool) (ranges : List (Char × Char)) (prior : Option Char)
  | range (inverted : Bool) (ranges : List (Char × Char)) (low : Char)

/-- The reader behind the first character of a list; `]` is an ordinary one here. -/
def GlobReader.first (inverted : Bool) (found : Char) : GlobReader :=
  .list inverted [(found, found)] (if found = ']' then none else some found)

def readGlob : GlobReader → List Char → List GlobItem
  | .outside, [] => []
  | _, [] => [.unclosed]
  | .outside, found :: rest =>
    if found = '*' then .many :: readGlob .outside rest
    else if found = '?' then .one :: readGlob .outside rest
    else if found = '[' then readGlob .opened rest
    else .character found :: readGlob .outside rest
  | .opened, found :: rest =>
    if found = '^' then readGlob .inverted rest else readGlob (.first false found) rest
  | .inverted, found :: rest => readGlob (.first true found) rest
  | .list inverted ranges prior, found :: rest =>
    if found = ']' then .oneOf inverted ranges :: readGlob .outside rest
    else
      match prior with
      | some low =>
        if found = '-' then readGlob (.range inverted ranges low) rest
        else readGlob (.list inverted ((found, found) :: ranges) (some found)) rest
      | none => readGlob (.list inverted ((found, found) :: ranges) (some found)) rest
  | .range inverted ranges low, found :: rest =>
    if found = ']' then .oneOf inverted (('-', '-') :: ranges) :: readGlob .outside rest
    else readGlob (.list inverted ((low, found) :: ranges) none) rest

def globMatches : List GlobItem → List Char → Bool
  | [], text => text.isEmpty
  | item :: items, text =>
    match item, text with
    | .many, text => text.tails.any (globMatches items)
    | _, [] => false
    | item, found :: text => item.accepts found && globMatches items text

/-- `text GLOB pattern`. -/
def glob (text pattern : List Char) : Bool :=
  globMatches (readGlob .outside (untilNul pattern)) (untilNul text)

/-- The character stands for itself in a pattern. -/
def isPlain (character : Char) : Prop :=
  character ∉ ['*', '?', '[', nul]

/-! ### Matching -/

variable {items : List GlobItem}

theorem globMatches_many : globMatches (.many :: items) text = true ↔
      ∃ before after, text = before ++ after ∧ globMatches items after = true := by
  simp only [globMatches, any_eq_true, mem_tails]
  constructor
  · rintro ⟨after, ⟨before, rfl⟩, hmatches⟩
    exact ⟨before, after, rfl, hmatches⟩
  · rintro ⟨before, after, rfl, hmatches⟩
    exact ⟨after, suffix_append _ _, hmatches⟩

@[simp]
theorem globMatches_many_nil (text : List Char) : globMatches [.many] text = true :=
  globMatches_many.mpr ⟨text, [], (append_nil text).symm, rfl⟩

variable {inverted : Bool} {ranges : List (Char × Char)}

theorem globMatches_oneOf : globMatches (.oneOf inverted ranges :: items) text = true ↔
      ∃ found rest, text = found :: rest ∧ (GlobItem.oneOf inverted ranges).accepts found = true ∧
        globMatches items rest = true := by
  cases text with
  | nil | cons _ _ => simp [globMatches]

variable {literal : List Char}

theorem globMatches_characters : globMatches (literal.map .character ++ items) text = true ↔
      ∃ rest, text = literal ++ rest ∧ globMatches items rest = true := by
  induction literal generalizing text with
  | nil => simp
  | cons first literal ih =>
    cases text with
    | nil => simp [globMatches]
    | cons found text =>
      simp only [map_cons, cons_append, globMatches, GlobItem.accepts,
        Bool.and_eq_true, decide_eq_true_eq, ih, List.cons.injEq]
      constructor
      · rintro ⟨rfl, rest, rfl, hmatches⟩
        exact ⟨rest, ⟨rfl, rfl⟩, hmatches⟩
      · rintro ⟨rest, ⟨rfl, rfl⟩, hmatches⟩
        exact ⟨rfl, rest, rfl, hmatches⟩

theorem readGlob_append (h : ∀ character ∈ literal, isPlain character) (rest : List Char) :
    readGlob .outside (literal ++ rest) = literal.map .character ++ readGlob .outside rest := by
  induction literal with
  | nil => rfl
  | cons first literal ih =>
    have hfirst := h first mem_cons_self
    simp only [isPlain, mem_cons, not_or] at hfirst
    rw [cons_append, readGlob, if_neg hfirst.1, if_neg hfirst.2.1, if_neg hfirst.2.2.1,
      ih fun character hcharacter ↦ h character (mem_cons_of_mem _ hcharacter)]
    rfl

theorem nul_notMem_of_isPlain (h : ∀ character ∈ literal, isPlain character) : nul ∉ literal := by
  intro hmem
  exact h nul hmem (by simp)

theorem nul_ne_star : nul ≠ '*' := by
  decide

/-- A plain text between two `*`. -/
theorem glob_contains (htext : nul ∉ text) (hliteral : ∀ character ∈ literal, isPlain character) :
    glob text ('*' :: literal ++ ['*']) = true ↔ literal <:+: text := by
  have hpattern : nul ∉ '*' :: literal ++ ['*'] := by
    simp [nul_notMem_of_isPlain hliteral, nul_ne_star]
  have hitems : readGlob .outside ('*' :: literal ++ ['*']) =
      .many :: (literal.map .character ++ [.many]) := by
    rw [cons_append, readGlob, if_pos rfl, readGlob_append hliteral]
    rfl
  rw [glob, untilNul_eq_self htext, untilNul_eq_self hpattern, hitems, globMatches_many]
  simp only [globMatches_characters, globMatches_many_nil, and_true]
  constructor
  · rintro ⟨before, _, rfl, rest, rfl⟩
    exact ⟨before, rest, append_assoc _ _ _⟩
  · rintro ⟨before, rest, rfl⟩
    exact ⟨before, literal ++ rest, append_assoc _ _ _, rest, rfl⟩

/-- A plain text and a list behind it, between two `*`. -/
theorem glob_followed {list : List Char} (htext : nul ∉ text)
    (hliteral : ∀ character ∈ literal, isPlain character) (hlist : nul ∉ list)
    (hread : readGlob .outside (list ++ ['*']) = [.oneOf inverted ranges, .many]) :
    glob text ('*' :: literal ++ list ++ ['*']) = true ↔
      ∃ before found after, text = before ++ literal ++ found :: after ∧
        (GlobItem.oneOf inverted ranges).accepts found = true := by
  have hpattern : nul ∉ '*' :: literal ++ list ++ ['*'] := by
    simp [nul_notMem_of_isPlain hliteral, hlist, nul_ne_star]
  have hitems : readGlob .outside ('*' :: literal ++ list ++ ['*']) =
      .many :: (literal.map .character ++ [.oneOf inverted ranges, .many]) := by
    rw [cons_append, cons_append, readGlob, if_pos rfl, append_assoc,
      readGlob_append hliteral, hread]
  rw [glob, untilNul_eq_self htext, untilNul_eq_self hpattern, hitems, globMatches_many]
  simp only [globMatches_characters, globMatches_oneOf, globMatches_many_nil, and_true]
  constructor
  · rintro ⟨before, _, rfl, _, rfl, found, after, rfl, haccepts⟩
    exact ⟨before, found, after, (append_assoc _ _ _).symm, haccepts⟩
  · rintro ⟨before, found, after, rfl, haccepts⟩
    exact ⟨before, literal ++ found :: after, append_assoc _ _ _, found :: after, rfl, found,
      after, rfl, haccepts⟩

/-! ### Parts of a text -/

/-- `length(text)`. -/
def textLength (text : List Char) : ℕ :=
  (untilNul text).length

/-- `substr(text, start, count)`, without a count up to the end. A start from the end may lie in
front of the text, and 0 is the place in front of its first character; what lies there takes its
part of the count. -/
def substr (text : List Char) (start : ℤ) (count : Option ℕ) : List Char :=
  let text := untilNul text
  let skipped : ℤ := if start < 0 then text.length + start else if start = 0 then 0 else start - 1
  let lost : ℕ := if start = 0 then 1 else (-skipped).toNat
  let rest := text.drop skipped.toNat
  match count with
  | none => rest
  | some count => rest.take (count - lost)

/-- `instr(text, part)`. -/
def instr (text part : List Char) : ℕ :=
  match text.tails.findIdx? (part.isPrefixOf ·) with
  | some index => index + 1
  | none => 0

variable {part : List Char}

theorem instr_pos_iff : 0 < instr text part ↔ part <:+: text := by
  unfold instr
  cases hfound : text.tails.findIdx? (part.isPrefixOf ·) with
  | none =>
    rw [List.findIdx?_eq_none_iff] at hfound
    refine iff_of_false (lt_irrefl 0) fun ⟨before, after, htext⟩ ↦ ?_
    have htail : part ++ after ∈ text.tails :=
      (mem_tails _ _).mpr ⟨before, (append_assoc _ _ _).symm.trans htext⟩
    have hbegins : part.isPrefixOf (part ++ after) = true :=
      isPrefixOf_iff_prefix.mpr (prefix_append _ _)
    exact absurd (hfound _ htail) (by simp [hbegins])
  | some index =>
    refine iff_of_true (Nat.succ_pos index) ?_
    obtain ⟨hindex, hbegins, -⟩ := List.findIdx?_eq_some_iff_getElem.mp hfound
    have htail := (mem_tails _ _).mp (getElem_mem hindex)
    exact ( isPrefixOf_iff_prefix.mp hbegins).isInfix.trans htail.isInfix

theorem substr_eq_iff_prefix (htext : nul ∉ text) :
    substr text 1 (some part.length) = part ↔ part <+: text := by
  have hsubstr : substr text 1 (some part.length) = text.take part.length := by
    simp [substr, untilNul_eq_self htext]
  rw [hsubstr]
  constructor
  · intro h
    exact h ▸ take_prefix _ _
  · intro h
    exact (prefix_iff_eq_take.mp h).symm

/-- The end of a text, for a part that is longer by one than what is counted back from the end. -/
theorem substr_eq_iff_suffix {count : ℕ} (htext : nul ∉ text) (hpart : part.length = count + 1) :
    substr text (textLength text - count) none = part ↔ part <:+ text := by
  simp only [substr, textLength, untilNul_eq_self htext]
  by_cases hlong : count < text.length
  · have hskipped : (text.length : ℤ) - count - 1 = (text.length - part.length : ℕ) := by omega
    rw [if_neg (by omega), if_neg (by omega), hskipped, Int.toNat_natCast, eq_comm]
    exact suffix_iff_eq_drop.symm
  · refine iff_of_false (fun h ↦ ?_) fun h ↦ ?_
    · have hlength := congrArg List.length h
      rw [length_drop] at hlength
      omega
    · have hlength := h.length_le
      omega

end Bridgeport.Foundation
