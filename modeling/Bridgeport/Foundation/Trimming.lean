import Mathlib.Data.List.DropRight
import Mathlib.Data.String.Basic

/-!
# Trimming a text at both ends

`trimBoth` removes the blank characters at both ends of a text, in either order
(`dropWhile_rdropWhile`). Behind a character that is not blank, trimming the whole is trimming the
rest (`rdropWhile_append_cons`).

The alphabet and the blank characters are arbitrary.
-/

namespace Bridgeport.Foundation

/-! ### Splitting a string at a character -/

section

open List String

variable {separator : Char}

/-- The pieces from a position on: `front` is what has been split, `piece` is the begun piece. -/
theorem splitOnAux_singleton (front piece rest : List Char) (pieces : List String) :
    splitOnAux (ofList (front ++ piece ++ rest)) (String.singleton separator) ⟨utf8Len front⟩
        ⟨utf8Len front + utf8Len piece⟩ 0 pieces =
      pieces.reverse ++ (splitOnPPrepend (· == separator) rest piece.reverse).map ofList := by
  induction rest generalizing front piece pieces with
  | nil =>
    have hend := atEnd_of_valid (front ++ piece) []
    have hpiece := extract_of_valid front piece []
    rw [utf8Len_append] at hend
    rw [splitOnAux, if_pos (hend.mpr rfl), hpiece]
    simp
  | cons first rest ih =>
    have hend := atEnd_of_valid (front ++ piece) (first :: rest)
    have hget := get_of_valid (front ++ piece) (first :: rest)
    have hnext := next_of_valid (front ++ piece) first rest
    have hseparator : Pos.Raw.get (String.singleton separator) 0 = separator :=
      get_of_valid [] [separator]
    rw [utf8Len_append] at hend hget hnext
    rw [splitOnAux, if_neg (fun h ↦ nomatch hend.mp h), hget, hnext, hseparator,
      splitOnPPrepend_cons_eq_if]
    by_cases hfirst : first = separator
    · subst hfirst
      have hlast : Pos.Raw.next (String.singleton first) 0 = ⟨first.utf8Size⟩ := by
        simpa using next_of_valid [] first []
      have hclosed : Pos.Raw.atEnd (String.singleton first) ⟨first.utf8Size⟩ = true := by
        simpa using (atEnd_of_valid [first] []).mpr rfl
      have hpiece := extract_of_valid front piece (first :: rest)
      have hih := ih (front ++ piece ++ [first]) [] (ofList piece :: pieces)
      simp only [utf8Len_append, utf8Len_cons, utf8Len_nil, append_nil, List.append_assoc,
        singleton_append, Nat.add_zero, Nat.zero_add, reverse_nil] at hih
      simp only [headD_cons, beq_self_eq_true, if_true, hlast, hclosed, Pos.Raw.unoffsetBy,
        Nat.add_sub_cancel, hpiece]
      simp only [List.append_assoc, Nat.add_assoc, hih]
      simp
    · have hih := ih front (piece ++ [first]) pieces
      have hback (position : Pos.Raw) : position.unoffsetBy 0 = position := rfl
      simp only [utf8Len_append, utf8Len_cons, utf8Len_nil, List.append_assoc, singleton_append,
        Nat.zero_add, reverse_append, reverse_singleton] at hih
      simp only [headD_cons, beq_iff_eq, hfirst, if_false, hback, hnext]
      simp only [List.append_assoc, Nat.add_assoc, hih]

theorem splitOn_singleton {joint : String} (h : joint.toList = [separator]) (text : String) :
    text.splitOn joint = (text.toList.splitOn separator).map ofList := by
  obtain rfl : joint = String.singleton separator := by rw [← toList_inj, h, toList_singleton]
  rw [String.splitOn, if_neg (by simp), splitOn_eq_splitOnP]
  simpa using splitOnAux_singleton [] [] text.toList []

end

open List

variable {α : Type*} (blank : α → Bool) (text : List α)

/-- The text without the blank characters at its ends. -/
def trimBoth : List α :=
  (text.dropWhile blank).rdropWhile blank

variable {blank}

theorem rdropWhile_cons (first : α) (rest : List α) :
    (first :: rest).rdropWhile blank =
      if rest.rdropWhile blank = [] ∧ blank first then [] else first :: rest.rdropWhile blank := by
  induction rest using List.reverseRecOn with
  | nil =>
    rw [rdropWhile_nil, rdropWhile_singleton]
    simp
  | append_singleton rest last ih =>
    rw [← cons_append]
    by_cases hlast : blank last
    · rw [rdropWhile_concat_pos _ _ _ hlast, rdropWhile_concat_pos _ _ _ hlast, ih]
    · rw [rdropWhile_concat_neg _ _ _ hlast, rdropWhile_concat_neg _ _ _ hlast]
      simp

theorem rdropWhile_append_cons (before : List α) {first : α} (hfirst : ¬ blank first)
    (rest : List α) : (before ++ first :: rest).rdropWhile blank =
      before ++ first :: rest.rdropWhile blank := by
  induction before with
  | nil => simp [rdropWhile_cons, hfirst]
  | cons head before ih => rw [cons_append, rdropWhile_cons, ih]; simp

/-- The ends are trimmed in either order. -/
theorem dropWhile_rdropWhile :
    (text.rdropWhile blank).dropWhile blank = (text.dropWhile blank).rdropWhile blank := by
  induction text with
  | nil => rfl
  | cons first rest ih =>
    by_cases hfirst : blank first
    · rw [dropWhile_cons_of_pos hfirst, ← ih, rdropWhile_cons]
      split_ifs with hrest
      · simp [hrest.1]
      · exact dropWhile_cons_of_pos hfirst
    · simp [rdropWhile_cons, hfirst]

theorem takeWhile_rdropWhile {text : List α} (h : text.dropWhile blank ≠ []) :
    (text.rdropWhile blank).takeWhile blank = text.takeWhile blank := by
  have hall : ∀ character ∈ text.takeWhile blank, blank character := fun _ ↦ mem_takeWhile_imp
  have hsplit : text.takeWhile blank ++ text.dropWhile blank = text :=
    takeWhile_append_dropWhile
  obtain ⟨first, rest, hrest⟩ := exists_cons_of_ne_nil h
  have hfirst : ¬ blank first := by
    have hnot := List.head?_dropWhile_not blank text
    rw [hrest] at hnot
    simpa using hnot
  rw [hrest] at hsplit
  conv_lhs => rw [← hsplit, rdropWhile_append_cons _ hfirst, takeWhile_append_of_pos hall,
    takeWhile_cons_of_neg hfirst, append_nil]

theorem trimBoth_rdropWhile : trimBoth blank (text.rdropWhile blank) = trimBoth blank text := by
  rw [trimBoth, dropWhile_rdropWhile, rdropWhile_idempotent]
  rfl

theorem exists_rdropWhile_append (blank : α → Bool) (text : List α) :
    ∃ tail, (∀ character ∈ tail, blank character) ∧ text.rdropWhile blank ++ tail = text :=
  ⟨text.rtakeWhile blank, fun _ ↦ mem_rtakeWhile_imp, rdropWhile_append_rtakeWhile⟩

/-- A text that neither begins nor ends with a blank character. -/
theorem trimBoth_eq_self {text : List α} (hhead : ∀ first ∈ text.head?, ¬ blank first)
    (hlast : ∀ last ∈ text.getLast?, ¬ blank last) : trimBoth blank text = text := by
  have hdrop : text.dropWhile blank = text := by
    cases text with
    | nil => rfl
    | cons first rest => exact dropWhile_cons_of_neg (hhead first rfl)
  rw [trimBoth, hdrop, rdropWhile_eq_self_iff]
  exact fun hne ↦ hlast _ (List.getLast?_eq_getLast_of_ne_nil hne)

theorem trimBoth_append_append {before after : List α}
    (hbefore : ∀ character ∈ before, blank character)
    (hafter : ∀ character ∈ after, blank character) (text : List α) :
    trimBoth blank (before ++ text ++ after) = trimBoth blank text := by
  have hreverse : ∀ character ∈ after.reverse, blank character := fun character hmem ↦
    hafter character (mem_reverse.mp hmem)
  have htail : (before ++ text ++ after).rdropWhile blank = (before ++ text).rdropWhile blank := by
    rw [List.rdropWhile, reverse_append, dropWhile_append_of_pos hreverse]
    rfl
  rw [trimBoth, ← dropWhile_rdropWhile, htail, dropWhile_rdropWhile,
    dropWhile_append_of_pos hbefore]
  rfl

section

variable {word rest : List α}

section

variable (hword : ∀ character ∈ word, blank character) (hrest : ∀ first ∈ rest.head?, ¬ blank first)
include hword hrest

/-- A word ends in front of a character that it cannot contain. -/
theorem takeWhile_append_boundary : (word ++ rest).takeWhile blank = word := by
  rw [takeWhile_append_of_pos hword]
  cases rest with
  | nil => exact append_nil word
  | cons first rest => rw [takeWhile_cons_of_neg (hrest first rfl), append_nil]

theorem dropWhile_append_boundary : (word ++ rest).dropWhile blank = rest := by
  rw [dropWhile_append_of_pos hword]
  cases rest with
  | nil => rfl
  | cons first rest => exact dropWhile_cons_of_neg (hrest first rfl)

end

theorem not_of_head?_append_cons {first : α} (hword : ∀ character ∈ word, ¬ blank character)
    (hfirst : ¬ blank first) : ∀ head ∈ (word ++ first :: rest).head?, ¬ blank head := by
  intro head hhead
  cases word with
  | nil =>
    obtain rfl : first = head := by simpa using hhead
    exact hfirst
  | cons other word =>
    obtain rfl : other = head := by simpa using hhead
    exact hword other mem_cons_self

theorem not_of_head?_dropWhile : ∀ first ∈ (text.dropWhile blank).head?, ¬ blank first := by
  intro first hfirst
  have hnot := List.head?_dropWhile_not blank text
  rw [Option.mem_def.mp hfirst] at hnot
  simpa using hnot

end

end Bridgeport.Foundation
