import Bridgeport.Foundation.TextScan

/-!
# Masking several patterns

`replaceAny` replaces the occurrences of several patterns at once, from left to right. If no pattern
contains a character of the mask, then nothing occurs behind a replacement that did not occur before
(`infix_of_infix_replaceAny`), the pattern of a replacement does not occur at all
(`not_infix_replaceAll`), and replacements one after the other are one replacement of all patterns
(`foldl_replaceAll`), in whatever order, as long as no two patterns overlap in the text (`Apart`).
-/

namespace Bridgeport.Foundation

open List Option

variable {α : Type*} [DecidableEq α] (patterns : List (List α))

/-- Replaces every occurrence of the patterns, from left to right. -/
def replaceAny (mask text : List α) : List α :=
  (scan (fun text ↦ (patterns.find? (· <+: text)).map fun pattern ↦ (mask, pattern.length))
    (fun character ↦ [character]) text).flatten

/-- Two patterns overlap: one begins where the other is. -/
def Overlap (first second text : List α) : Prop :=
  ∃ start offset, offset < first.length ∧ first <+: text.drop start ∧
    second <+: text.drop (start + offset)

/-- No two of the patterns overlap in the text. -/
def Apart (text : List α) : Prop :=
  ∀ first ∈ patterns, ∀ second ∈ patterns, first ≠ second → ¬ Overlap first second text

variable {patterns : List (List α)} {pattern mask : List α}

theorem replaceAll_eq_replaceAny (pattern mask text : List α) :
    replaceAll pattern mask text = replaceAny [pattern] mask text := by
  unfold replaceAll replaceAny
  congr 2
  funext text
  by_cases h : pattern <+: text
  · simp [h]
  · simp [h]

variable {rest : List α}

theorem replaceAny_append (hne : pattern ≠ [])
    (h : patterns.find? (· <+: pattern ++ rest) = some pattern) :
    replaceAny patterns mask (pattern ++ rest) = mask ++ replaceAny patterns mask rest := by
  rw [replaceAny, scan_append_of_some _ rest hne (by rw [h]; rfl)]
  rfl

theorem replaceAny_cons {first : α} (h : ∀ pattern ∈ patterns, ¬ pattern <+: first :: rest) :
    replaceAny patterns mask (first :: rest) = first :: replaceAny patterns mask rest := by
  have hnone : patterns.find? (· <+: first :: rest) = none := by
    simpa [find?_eq_none] using h
  rw [replaceAny, scan_cons_of_none _ (by rw [hnone]; rfl)]
  rfl

theorem replaceAny_induction (hne : ∀ pattern ∈ patterns, pattern ≠ []) {motive : List α → Prop}
    (nil : motive [])
    (found : ∀ pattern ∈ patterns, ∀ rest,
      patterns.find? (· <+: pattern ++ rest) = some pattern → motive rest →
        motive (pattern ++ rest))
    (other : ∀ first rest, (∀ pattern ∈ patterns, ¬ pattern <+: first :: rest) → motive rest →
      motive (first :: rest)) (text : List α) : motive text := by
  induction hlength : text.length using Nat.strong_induction_on generalizing text with
  | _ bound ih =>
    cases hfind : patterns.find? (· <+: text) with
    | some pattern =>
      have hmem := mem_of_find?_eq_some hfind
      obtain ⟨rest, rfl⟩ : pattern <+: text := by simpa using find?_some hfind
      refine found pattern hmem rest hfind (ih rest.length ?_ rest rfl)
      rw [← hlength, length_append]
      exact Nat.lt_add_of_pos_left (length_pos_iff.mpr (hne pattern hmem))
    | none =>
      cases text with
      | nil => exact nil
      | cons first rest =>
        refine other first rest (by simpa [find?_eq_none] using hfind) (ih rest.length ?_ rest rfl)
        rw [← hlength, length_cons]
        exact Nat.lt_succ_self _

variable {text : List α}

section

variable (hne : ∀ pattern ∈ patterns, pattern ≠ []) (hmask : mask ≠ [])
  (hfree : ∀ character ∈ mask, character ∉ pattern)
include hne hmask hfree

/-- What a text begins with behind a replacement, it began with before. -/
theorem prefix_of_prefix_replaceAny (front : List α)
    (h : pattern <+: front ++ replaceAny patterns mask text) : pattern <+: front ++ text := by
  induction text using replaceAny_induction hne generalizing front with
  | nil => exact h
  | found other hother rest hfind ih =>
    obtain ⟨star, stars, rfl⟩ := exists_cons_of_ne_nil hmask
    rw [replaceAny_append (hne other hother) hfind, cons_append] at h
    exact (prefix_of_prefix_append_cons (hfree star mem_cons_self) h).trans (prefix_append _ _)
  | other first rest hnone ih =>
    rw [replaceAny_cons hnone, append_cons] at h
    rw [append_cons]
    exact ih _ h

/-- What occurs in a text behind a replacement occurred in it before. -/
theorem infix_of_infix_replaceAny (hpattern : pattern ≠ [])
    (h : pattern <:+: replaceAny patterns mask text) : pattern <:+: text := by
  induction text using replaceAny_induction hne with
  | nil => exact h
  | found other hother rest hfind ih =>
    rw [replaceAny_append (hne other hother) hfind] at h
    exact (ih (infix_append_of_disjoint hpattern hfree h)).trans (suffix_append _ _).isInfix
  | other first rest hnone ih =>
    rw [replaceAny_cons hnone, infix_cons_iff] at h
    refine infix_cons_iff.mpr (h.imp (fun hprefix ↦ ?_) ih)
    exact prefix_of_prefix_replaceAny hne hmask hfree [first] hprefix

end

theorem not_infix_replaceAll (hpattern : pattern ≠ []) (hmask : mask ≠ [])
    (hfree : ∀ character ∈ mask, character ∉ pattern) (text : List α) :
    ¬ pattern <:+: replaceAll pattern mask text := by
  have hne : ∀ other ∈ [pattern], other ≠ [] := forall_mem_singleton.mpr hpattern
  rw [replaceAll_eq_replaceAny]
  induction text using replaceAny_induction hne with
  | nil => exact fun h ↦ hpattern (infix_nil.mp h)
  | found other hother rest hfind ih =>
    rw [replaceAny_append (hne other hother) hfind]
    exact fun h ↦ ih (infix_append_of_disjoint hpattern hfree h)
  | other first rest hnone ih =>
    rw [replaceAny_cons hnone, infix_cons_iff, not_or]
    refine ⟨fun h ↦ ?_, ih⟩
    exact hnone pattern mem_cons_self (prefix_of_prefix_replaceAny hne hmask hfree [first] h)

/-! ### One after the other and all at once -/

variable {front : List α}

omit [DecidableEq α] in
theorem Apart.of_append (h : Apart patterns (front ++ rest)) : Apart patterns rest := by
  rintro first hfirst second hsecond hne ⟨start, offset, hoffset, hbegins, hmeets⟩
  refine h first hfirst second hsecond hne ⟨front.length + start, offset, hoffset, ?_, ?_⟩
  · rwa [drop_length_add_append]
  · rwa [Nat.add_assoc, drop_length_add_append]

omit [DecidableEq α] in
theorem Apart.of_cons {first : α} (h : Apart patterns (first :: rest)) : Apart patterns rest :=
  (show Apart patterns ([first] ++ rest) from h).of_append

/-- A replacement leaves the characters alone at which no pattern begins. -/
theorem replaceAny_append_of_forall
    (h : ∀ offset < front.length, ∀ pattern ∈ patterns, ¬ pattern <+: (front ++ rest).drop offset) :
    replaceAny patterns mask (front ++ rest) = front ++ replaceAny patterns mask rest := by
  induction front with
  | nil => rfl
  | cons first front ih =>
    have hfirst : ∀ pattern ∈ patterns, ¬ pattern <+: first :: (front ++ rest) :=
      h 0 (Nat.succ_pos _)
    rw [cons_append, replaceAny_cons hfirst, ih fun offset hoffset ↦ ?_, cons_append]
    exact h (offset + 1) (Nat.succ_lt_succ hoffset)

theorem replaceAll_mask_append (hpattern : pattern ≠ [])
    (hfree : ∀ character ∈ mask, character ∉ pattern) (rest : List α) :
    replaceAll pattern mask (mask ++ rest) = mask ++ replaceAll pattern mask rest := by
  rw [replaceAll_eq_replaceAny, replaceAll_eq_replaceAny]
  refine replaceAny_append_of_forall fun offset hoffset other hother hbegins ↦ ?_
  obtain rfl := mem_singleton.mp hother
  obtain ⟨first, tail, rfl⟩ := exists_cons_of_ne_nil hpattern
  rw [drop_append_of_le_length hoffset.le, drop_eq_getElem_cons hoffset, cons_append,
    cons_prefix_cons] at hbegins
  exact hfree _ (getElem_mem hoffset) (hbegins.1 ▸ mem_cons_self)

theorem replaceAll_replaceAny (hne : ∀ other ∈ patterns ++ [pattern], other ≠ [])
    (hmask : mask ≠ []) (hfree : ∀ character ∈ mask, character ∉ pattern)
    (h : Apart (patterns ++ [pattern]) text) :
    replaceAll pattern mask (replaceAny patterns mask text) =
      replaceAny (patterns ++ [pattern]) mask text := by
  have hpattern := hne pattern (mem_append_right _ mem_cons_self)
  have hothers : ∀ other ∈ patterns, other ≠ [] := fun other hother ↦
    hne other (mem_append_left _ hother)
  induction text using replaceAny_induction hne with
  | nil => rfl
  | found other hother rest hfind ih =>
    rw [replaceAny_append (hne other hother) hfind, ← ih h.of_append]
    rw [find?_append] at hfind
    cases hfirst : patterns.find? (· <+: other ++ rest) with
    | some found =>
      rw [hfirst, some_or, some.injEq] at hfind
      subst hfind
      rw [replaceAny_append (hne found hother) hfirst]
      exact replaceAll_mask_append hpattern hfree _
    | none =>
      rw [hfirst, none_or] at hfind
      obtain rfl := mem_singleton.mp (mem_of_find?_eq_some hfind)
      have hnone : ∀ first ∈ patterns, ¬ first <+: other ++ rest := by
        simpa [find?_eq_none] using hfirst
      rw [replaceAny_append_of_forall fun offset hoffset first hfirst hbegins ↦ ?_,
        replaceAll_pattern_append hpattern]
      have hdiffer : other ≠ first := by
        rintro rfl
        exact hnone other hfirst (prefix_append _ _)
      exact h other (mem_append_right _ mem_cons_self) first (mem_append_left _ hfirst) hdiffer
        ⟨0, offset, hoffset, prefix_append _ _, by rwa [Nat.zero_add]⟩
  | other first rest hnone ih =>
    have hpatterns : ∀ other ∈ patterns, ¬ other <+: first :: rest := fun other hother ↦
      hnone other (mem_append_left _ hother)
    have hlast : ¬ pattern <+: first :: replaceAny patterns mask rest := fun hbegins ↦
      hnone pattern (mem_append_right _ mem_cons_self)
        (prefix_of_prefix_replaceAny hothers hmask hfree [first] hbegins)
    rw [replaceAny_cons hpatterns, replaceAny_cons hnone,
      replaceAll_cons_of_no_match mask hlast, ih h.of_cons]

theorem foldl_replaceAll {order : List (List α)} (hperm : order.Perm patterns)
    (hne : ∀ pattern ∈ patterns, pattern ≠ []) (hmask : mask ≠ [])
    (hfree : ∀ pattern ∈ patterns, ∀ character ∈ mask, character ∉ pattern)
    (h : Apart patterns text) :
    order.foldl (fun result pattern ↦ replaceAll pattern mask result) text =
      replaceAny patterns mask text := by
  have hsame : replaceAny order mask text = replaceAny patterns mask text := by
    induction text using replaceAny_induction hne with
    | nil => rfl
    | found pattern hpattern rest hfind ih =>
      rw [replaceAny_append (hne pattern hpattern) hfind, ← ih h.of_append]
      refine replaceAny_append (hne pattern hpattern) ?_
      cases hother : order.find? (· <+: pattern ++ rest) with
      | none =>
        have hbegins := find?_eq_none.mp hother pattern (hperm.mem_iff.mpr hpattern)
        exact absurd (decide_eq_true (prefix_append _ _)) hbegins
      | some other =>
        have hbegins : other <+: pattern ++ rest := by simpa using find?_some hother
        by_contra hdiffer
        have hlength := length_pos_iff.mpr (hne pattern hpattern)
        exact h pattern hpattern other (hperm.mem_iff.mp (mem_of_find?_eq_some hother))
          (fun hsame ↦ hdiffer (congrArg some hsame.symm))
          ⟨0, 0, hlength, prefix_append _ _, hbegins⟩
    | other first rest hnone ih =>
      rw [replaceAny_cons hnone, replaceAny_cons fun pattern hpattern ↦
        hnone pattern (hperm.mem_iff.mp hpattern), ih h.of_cons]
  rw [← hsame]
  replace h : Apart order text := fun first hfirst second hsecond ↦
    h first (hperm.mem_iff.mp hfirst) second (hperm.mem_iff.mp hsecond)
  replace hne : ∀ pattern ∈ order, pattern ≠ [] := fun pattern hpattern ↦
    hne pattern (hperm.mem_iff.mp hpattern)
  replace hfree : ∀ pattern ∈ order, ∀ character ∈ mask, character ∉ pattern :=
    fun pattern hpattern ↦ hfree pattern (hperm.mem_iff.mp hpattern)
  clear hperm hsame
  induction order using List.reverseRecOn with
  | nil =>
    induction text with
    | nil => rfl
    | cons first rest ih => rw [replaceAny_cons (by simp), ← ih h.of_cons]; rfl
  | append_singleton others pattern ih =>
    have hbefore : Apart others text := fun first hfirst second hsecond ↦
      h first (mem_append_left _ hfirst) second (mem_append_left _ hsecond)
    rw [foldl_append, ih hbefore (fun other hother ↦ hne other (mem_append_left _ hother))
      fun other hother ↦ hfree other (mem_append_left _ hother)]
    exact replaceAll_replaceAny hne hmask (hfree pattern (mem_append_right _ mem_cons_self)) h

end Bridgeport.Foundation
