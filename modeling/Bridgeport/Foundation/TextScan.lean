import Mathlib.Data.List.Infix

/-!
# Scanning a text from the left

`scan` reads a text from left to right. At every position it asks a recogniser for a token: a
recognised token is emitted and its characters are skipped, and any other character is emitted by
itself. Global search and replace with a literal pattern is such a scan (`replaceAll`).

The alphabet is arbitrary.
-/

namespace Bridgeport.Foundation

open List

variable {α β : Type*}

/-! ### Scanning -/

variable {rest : List α}

section

variable (recognise : List α → Option (β × ℕ)) (other : α → β)

/-- The scan of a text whose first `skip` characters belong to a token that has been emitted. The
recogniser answers the token at the front of a text and the number of its characters. -/
def scanFrom : ℕ → List α → List β
  | _, [] => []
  | skip + 1, _ :: rest => scanFrom skip rest
  | 0, first :: rest =>
    match recognise (first :: rest) with
    | some (token, length) => token :: scanFrom (length - 1) rest
    | none => other first :: scanFrom 0 rest

def scan (text : List α) : List β :=
  scanFrom recognise other 0 text

@[simp]
theorem scan_nil : scan recognise other [] = [] :=
  rfl

theorem scanFrom_eq_scan_drop (skip : ℕ) (text : List α) :
    scanFrom recognise other skip text = scan recognise other (text.drop skip) := by
  induction text generalizing skip with
  | nil => cases skip <;> rfl
  | cons first rest ih =>
    cases skip with
    | zero => rfl
    | succ skip => exact ih skip

variable {recognise}

theorem scan_cons_of_none {first : α} (h : recognise (first :: rest) = none) :
    scan recognise other (first :: rest) = other first :: scan recognise other rest := by
  rw [scan, scanFrom, h]
  rfl

theorem scan_append_of_some {token : β} {consumed : List α} (rest : List α) (hne : consumed ≠ [])
    (h : recognise (consumed ++ rest) = some (token, consumed.length)) :
    scan recognise other (consumed ++ rest) = token :: scan recognise other rest := by
  obtain ⟨first, tail, rfl⟩ := exists_cons_of_ne_nil hne
  rw [cons_append] at h ⊢
  rw [scan, scanFrom, h]
  show token :: scanFrom recognise other tail.length (tail ++ rest) = _
  rw [scanFrom_eq_scan_drop, drop_left]

/-- Writing the tokens of a text gives the text back, for a writer that undoes the recogniser. -/
theorem flatMap_scan (write : β → List α)
    (hother : ∀ character, write (other character) = [character])
    (hrecognise : ∀ text token length, recognise text = some (token, length) →
      ∃ rest, text = write token ++ rest ∧ (write token).length = length ∧ 0 < length)
    (text : List α) : (scan recognise other text).flatMap write = text := by
  induction hlength : text.length using Nat.strong_induction_on generalizing text with
  | _ bound ih =>
    cases text with
    | nil => rfl
    | cons first rest =>
      rcases hanswer : recognise (first :: rest) with _ | ⟨token, length⟩
      · rw [scan_cons_of_none other hanswer, flatMap_cons, hother,
          ih rest.length (by rw [← hlength]; exact Nat.lt_succ_self _) rest rfl]
        rfl
      · obtain ⟨tail, htext, hsize, hpositive⟩ := hrecognise _ _ _ hanswer
        have hne : write token ≠ [] := length_pos_iff.mp (hsize ▸ hpositive)
        rw [htext] at hanswer hlength ⊢
        rw [← hsize] at hanswer
        rw [scan_append_of_some other tail hne hanswer, flatMap_cons,
          ih tail.length (by rw [← hlength, length_append]; omega) tail rfl]

end

/-! ### Occurrences of a pattern -/

variable [DecidableEq α]

/-- The number of positions of a text at which a pattern occurs. -/
def occurrences (pattern : List α) : List α → ℕ
  | [] => 0
  | first :: rest =>
    (if pattern <+: first :: rest then 1 else 0) + occurrences pattern rest

/-- The number of positions of `text` at which a pattern occurs in `text ++ rest`. -/
def occurrencesWithin (pattern rest : List α) : List α → ℕ
  | [] => 0
  | first :: text =>
    (if pattern <+: first :: text ++ rest then 1 else 0) + occurrencesWithin pattern rest text

theorem occurrences_append (pattern text rest : List α) :
    occurrences pattern (text ++ rest) =
      occurrencesWithin pattern rest text + occurrences pattern rest := by
  induction text with
  | nil => exact (Nat.zero_add _).symm
  | cons first text ih =>
    rw [cons_append, occurrences, ih, occurrencesWithin, Nat.add_assoc, cons_append]

variable {pattern : List α}

theorem occurrences_eq_zero_iff (hne : pattern ≠ []) (text : List α) :
    occurrences pattern text = 0 ↔ ¬ pattern <:+: text := by
  induction text with
  | nil => simpa [occurrences, infix_nil] using hne
  | cons first rest ih =>
    rw [occurrences, Nat.add_eq_zero_iff, ih, infix_cons_iff, not_or]
    simp

variable {character : α} {first : List α}

omit [DecidableEq α] in
theorem prefix_of_prefix_append_cons (hcharacter : character ∉ pattern)
    (h : pattern <+: first ++ character :: rest) : pattern <+: first := by
  have hbreak : first ++ [character] <+: first ++ character :: rest := ⟨rest, by simp⟩
  rcases prefix_or_prefix_of_prefix h hbreak with hshort | hlong
  · rcases prefix_concat_iff.mp hshort with hall | hfirst
    · exact absurd (hall ▸ mem_append_right _ mem_cons_self) hcharacter
    · exact hfirst
  · exact absurd (hlong.subset (mem_append_right _ mem_cons_self)) hcharacter

omit [DecidableEq α] in
/-- A pattern does not reach across a character that it does not contain. -/
theorem infix_append_cons (hcharacter : character ∉ pattern)
    (h : pattern <:+: first ++ character :: rest) : pattern <:+: first ∨ pattern <:+: rest := by
  induction first with
  | nil =>
    rw [nil_append, infix_cons_iff] at h
    rcases h with hmatch | hrest
    · cases pattern with
      | nil => exact .inl nil_infix
      | cons head tail =>
        rw [cons_prefix_cons] at hmatch
        exact absurd (hmatch.1 ▸ mem_cons_self) hcharacter
    · exact .inr hrest
  | cons head first ih =>
    rw [cons_append, infix_cons_iff] at h
    rcases h with hmatch | hrest
    · rw [← cons_append] at hmatch
      exact .inl (prefix_of_prefix_append_cons hcharacter hmatch).isInfix
    · exact (ih hrest).imp_left fun hinfix ↦ hinfix.trans (infix_cons infix_rfl)

omit [DecidableEq α] in
/-- A pattern does not begin in characters that it does not contain. -/
theorem infix_append_of_disjoint (hne : pattern ≠ [])
    (hfirst : ∀ character ∈ first, character ∉ pattern) (h : pattern <:+: first ++ rest) :
    pattern <:+: rest := by
  induction first with
  | nil => exact h
  | cons head first ih =>
    have hsplit : pattern <:+: [] ++ head :: (first ++ rest) := h
    rcases infix_append_cons (hfirst head mem_cons_self) hsplit with hnil | hrest
    · exact absurd (infix_nil.mp hnil) hne
    · exact ih (fun character hcharacter ↦ hfirst character (mem_cons_of_mem _ hcharacter)) hrest

/-! ### Replacing a pattern -/

/-- Replaces every occurrence of a literal pattern, from left to right. -/
def replaceAll (pattern value text : List α) : List α :=
  (scan (fun text ↦ if pattern <+: text then some (value, pattern.length) else none)
    (fun character ↦ [character]) text).flatten

@[simp]
theorem replaceAll_nil (pattern value : List α) : replaceAll pattern value [] = [] :=
  rfl

variable (value : List α)

theorem replaceAll_cons_of_no_match {first : α} (h : ¬ pattern <+: first :: rest) :
    replaceAll pattern value (first :: rest) = first :: replaceAll pattern value rest := by
  rw [replaceAll, scan_cons_of_none _ (if_neg h)]
  rfl

theorem replaceAll_pattern_append (hne : pattern ≠ []) (value rest : List α) :
    replaceAll pattern value (pattern ++ rest) = value ++ replaceAll pattern value rest := by
  rw [replaceAll, scan_append_of_some _ rest hne (if_pos (prefix_append pattern rest))]
  rfl

variable {text : List α}

theorem replaceAll_of_not_contains (h : ¬ pattern <:+: text) :
    replaceAll pattern value text = text := by
  induction text with
  | nil => rfl
  | cons first rest ih =>
    rw [infix_cons_iff, not_or] at h
    rw [replaceAll_cons_of_no_match value h.1, ih h.2]

/-- A replacement leaves the characters alone at which no occurrence begins. -/
theorem replaceAll_append_of_within_eq_zero (h : occurrencesWithin pattern rest text = 0) :
    replaceAll pattern value (text ++ rest) = text ++ replaceAll pattern value rest := by
  induction text with
  | nil => rfl
  | cons first text ih =>
    rw [occurrencesWithin, Nat.add_eq_zero_iff] at h
    have hfirst : ¬ pattern <+: first :: (text ++ rest) := by
      intro hmatch
      rw [cons_append, if_pos hmatch] at h
      exact absurd h.1 Nat.one_ne_zero
    rw [cons_append, replaceAll_cons_of_no_match value hfirst, ih h.2, cons_append]

section

variable (hne : pattern ≠ []) (value : List α) (hcharacter : character ∉ pattern)

include hne hcharacter

/-- A replacement does not reach across a character that the pattern does not contain. -/
theorem replaceAll_append_cons (first rest : List α) :
    replaceAll pattern value (first ++ character :: rest) =
      replaceAll pattern value first ++ character :: replaceAll pattern value rest := by
  induction hlength : first.length using Nat.strong_induction_on generalizing first with
  | _ bound ih =>
    by_cases hmatch : pattern <+: first ++ character :: rest
    · obtain ⟨tail, rfl⟩ := prefix_of_prefix_append_cons hcharacter hmatch
      have hshorter : tail.length < bound := by
        rw [← hlength, length_append]
        exact Nat.lt_add_of_pos_left (length_pos_iff.mpr hne)
      rw [append_assoc, replaceAll_pattern_append hne, replaceAll_pattern_append hne,
        ih tail.length hshorter tail rfl, append_assoc]
    · cases first with
      | nil => exact replaceAll_cons_of_no_match value hmatch
      | cons head tail =>
        have hshort : ¬ pattern <+: head :: tail := fun hbegins ↦
          hmatch (hbegins.trans (prefix_append _ _))
        rw [cons_append] at hmatch ⊢
        rw [replaceAll_cons_of_no_match value hmatch, replaceAll_cons_of_no_match value hshort,
          ih tail.length (by rw [← hlength]; exact Nat.lt_succ_self _) tail rfl, cons_append]

/-- A replacement in a text that is joined at a character that the pattern does not contain. -/
theorem replaceAll_intercalate (texts : List (List α)) :
    replaceAll pattern value ([character].intercalate texts) =
      [character].intercalate (texts.map (replaceAll pattern value)) := by
  induction texts with
  | nil => rfl
  | cons first texts ih =>
    cases texts with
    | nil => simp
    | cons second texts =>
      rw [map_cons, map_cons, intercalate_cons_cons, intercalate_cons_cons, append_assoc,
        append_assoc, singleton_append, singleton_append,
        replaceAll_append_cons hne value hcharacter, ih, map_cons]

end

section

variable {separator : α}

theorem notMem_of_mem_splitOn : ∀ piece ∈ text.splitOn separator, separator ∉ piece := by
  induction text with
  | nil => simp
  | cons first text ih =>
    intro piece hpiece
    rw [splitOn_cons_eq_if_modifyHead] at hpiece
    split_ifs at hpiece with hfirst
    · rcases mem_cons.mp hpiece with rfl | hrest
      · exact not_mem_nil
      · exact ih piece hrest
    · cases hpieces : text.splitOn separator with
      | nil => exact absurd hpieces (splitOn_ne_nil _ _)
      | cons head pieces =>
        rw [hpieces] at hpiece ih
        rcases mem_cons.mp hpiece with rfl | hrest
        · rw [mem_cons, not_or]
          exact ⟨fun hsame ↦ hfirst (by simp [hsame]), ih head mem_cons_self⟩
        · exact ih piece (mem_cons_of_mem _ hrest)

theorem infix_intercalate_of_mem {piece joint : List β} {pieces : List (List β)}
    (h : piece ∈ pieces) :
    piece <:+: joint.intercalate pieces := by
  induction pieces with
  | nil => exact absurd h not_mem_nil
  | cons first pieces ih =>
    cases pieces with
    | nil =>
      obtain rfl := mem_singleton.mp h
      rw [intercalate_singleton]
    | cons second pieces =>
      rw [intercalate_cons_cons, append_assoc]
      rcases mem_cons.mp h with rfl | hrest
      · exact (prefix_append _ _).isInfix
      · exact (ih hrest).trans ((suffix_append _ _).trans (suffix_append _ _)).isInfix

theorem infix_of_mem_splitOn {piece : List α} (h : piece ∈ text.splitOn separator) :
    piece <:+: text := by
  have hjoined : piece <:+: [separator].intercalate (text.splitOn separator) :=
    infix_intercalate_of_mem h
  rwa [intercalate_splitOn] at hjoined

theorem splitOn_intercalate_map {change : List α → List α} (text : List α)
    (h : ∀ piece ∈ text.splitOn separator, separator ∉ change piece) :
    ([separator].intercalate ((text.splitOn separator).map change)).splitOn separator =
      (text.splitOn separator).map change := by
  have hne : (text.splitOn separator).map change ≠ [] := by
    rw [Ne, map_eq_nil_iff]
    exact splitOn_ne_nil _ _
  exact splitOn_intercalate separator (forall_mem_map.mpr h) hne

end

end Bridgeport.Foundation
