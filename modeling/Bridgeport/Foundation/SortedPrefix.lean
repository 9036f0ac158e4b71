import Mathlib.Data.List.Sort

/-!
# The first entries of a sorted list

When an entry of a sorted list is among the first `n`, in terms of the entries that may stand before
it. The order may have ties: a stable sort keeps the order of tied entries (`mem_take_of_stable`).
`mem_take_sorted_of_subset` compares two selections of the largest elements.
-/

namespace Bridgeport.Foundation

open List

variable {α : Type*} {relation : α → α → Prop} {entries : List α} {count : ℕ} {second first : α}

/-- An entry that must stand before one of the first `n` is one of the first `n`. -/
theorem mem_take_of_not_rel (hsorted : entries.Pairwise relation)
    (hfirst : first ∈ entries.take count) (hsecond : second ∈ entries)
    (hnot : ¬ relation first second) : second ∈ entries.take count := by
  rw [← take_append_drop count entries] at hsorted hsecond
  rcases mem_append.mp hsecond with htake | hdrop
  · exact htake
  · exact absurd ((pairwise_append.mp hsorted).2.2 first hfirst second hdrop) hnot

variable {entry : α}

/-- An entry with at most `n` entries that may stand before it, itself included, is one of the first
`n`. -/
theorem mem_take_of_countP_le (hsorted : entries.Pairwise relation) (hentry : entry ∈ entries)
    (before : α → Bool) (hself : before entry = true)
    (hbefore : ∀ other, relation other entry → before other = true)
    (hcount : entries.countP before ≤ count) : entry ∈ entries.take count := by
  by_contra hnot
  rw [← take_append_drop count entries] at hsorted hentry hcount
  have hdrop := (mem_append.mp hentry).resolve_left hnot
  have hall : ∀ other ∈ entries.take count, before other = true := fun other hother ↦
    hbefore other ((pairwise_append.mp hsorted).2.2 other hother entry hdrop)
  have hlength : count < entries.length := by
    have hpositive := length_pos_of_mem hdrop
    rw [length_drop] at hpositive
    omega
  have hpositive : 0 < (entries.drop count).countP before :=
    countP_pos_iff.mpr ⟨entry, hdrop, hself⟩
  rw [countP_append, countP_eq_length.mpr hall, length_take] at hcount
  omega

/-- At most `n` entries satisfy what only the first `n` of some list satisfy. -/
theorem countP_le_of_mem_take (chosen : List α) (hnodup : entries.Nodup) {before : α → Bool}
    (h : ∀ entry ∈ entries, before entry = true → entry ∈ chosen.take count) :
    entries.countP before ≤ count := by
  rw [countP_eq_length_filter]
  have hsubset : entries.filter before ⊆ chosen.take count := fun entry hentry ↦
    h entry (mem_of_mem_filter hentry) (of_mem_filter hentry)
  refine (subperm_of_subset (hnodup.filter before) hsubset).length_le.trans ?_
  rw [length_take]
  exact min_le_left _ _

variable {le : α → α → Bool}

section

variable (htrans : ∀ a b c, le a b → le b c → le a c) (htotal : ∀ a b, le a b || le b a)

include htrans htotal

/-- A stable sort keeps the order of an entry before another one that it may stand before. -/
theorem mem_take_of_stable (hnodup : entries.Nodup) (hle : le first second = true)
    (hpair : [first, second].Sublist entries) (hsecond : second ∈ (entries.mergeSort le).take count) :
    first ∈ (entries.mergeSort le).take count := by
  have hsorted := pair_sublist_mergeSort htrans htotal hle hpair
  have hdistinct : (entries.mergeSort le).Nodup := (mergeSort_perm _ _).nodup_iff.mpr hnodup
  rw [← take_append_drop count (entries.mergeSort le)] at hsorted hdistinct
  obtain ⟨left, right, hsplit, hleft, hright⟩ := sublist_append_iff.mp hsorted
  match left, hsplit with
  | [], hsplit =>
    rw [nil_append] at hsplit
    rw [← hsplit] at hright
    have hdrop : second ∈ (entries.mergeSort le).drop count :=
      hright.subset (mem_cons_of_mem _ mem_cons_self)
    exact absurd hdrop (disjoint_of_nodup_append hdistinct hsecond)
  | head :: rest, hsplit =>
    rw [cons_append] at hsplit
    rw [(List.cons.inj hsplit).1]
    exact hleft.subset mem_cons_self

/-- An element that is among the largest `n` of a list is so in every sublist that has it. -/
theorem mem_take_sorted_of_subset (hantisymm : ∀ a b, le a b → le b a → a = b) {more : List α}
    (hnodup : entries.Nodup) (hsubset : entries ⊆ more) (hentry : entry ∈ entries)
    (hlargest : entry ∈ ((more.mergeSort le).reverse).take count) :
    entry ∈ ((entries.mergeSort le).reverse).take count := by
  have hsorted : ∀ list : List α,
      ((list.mergeSort le).reverse).Pairwise fun first second ↦ le second first = true := by
    intro list
    rw [pairwise_reverse]
    exact pairwise_mergeSort htrans htotal list
  have hmem : ∀ (list : List α) (element : α),
      element ∈ (list.mergeSort le).reverse ↔ element ∈ list := fun list element ↦ by
    rw [mem_reverse, mem_mergeSort]
  have hself : le entry entry = true := by simpa using htotal entry entry
  refine mem_take_of_countP_le (hsorted entries) ((hmem entries entry).mpr hentry) (le entry) hself
    (fun other hother ↦ hother) ?_
  refine countP_le_of_mem_take (more.mergeSort le).reverse
    (nodup_reverse.mpr ((mergeSort_perm _ _).nodup_iff.mpr hnodup)) fun other hother hle ↦ ?_
  by_cases hback : le other entry = true
  · rw [hantisymm other entry hback hle]
    exact hlargest
  · exact mem_take_of_not_rel (hsorted more) hlargest
      ((hmem more other).mpr (hsubset ((hmem entries other).mp hother))) hback

end

/-! ### Strict orders -/

/-- An entry of a strictly sorted list is one of the first `n` if fewer than `n` stand before it. -/
theorem mem_take_iff_countP_lt {before : α → α → Bool}
    (hsorted : entries.Pairwise fun first second ↦ before first second)
    (hasymm : ∀ first second, before first second → ¬ before second first)
    (hentry : entry ∈ entries) (count : ℕ) :
    entry ∈ entries.take count ↔ entries.countP (before · entry) < count := by
  have hirrefl : ¬ before entry entry := fun h ↦ hasymm entry entry h h
  induction entries generalizing count with
  | nil => exact absurd hentry not_mem_nil
  | cons head rest ih =>
    rw [pairwise_cons] at hsorted
    cases count with
    | zero => simp
    | succ count =>
      by_cases hhead : entry = head
      · subst hhead
        have hnone : rest.countP (before · entry) = 0 :=
          countP_eq_zero.mpr fun other hother ↦ hasymm entry other (hsorted.1 other hother)
        rw [take_succ_cons, countP_cons, hnone, if_neg hirrefl]
        simp
      · have hrest := (mem_cons.mp hentry).resolve_left hhead
        rw [take_succ_cons, mem_cons, countP_cons, if_pos (hsorted.1 entry hrest),
          or_iff_right hhead, Nat.add_lt_add_iff_right]
        exact ih hsorted.2 hrest count

section

variable {first second : List α} {other : α} (hnodup : (first ++ entry :: second).Nodup)

include hnodup

theorem pair_sublist_append_cons_iff :
    [other, entry].Sublist (first ++ entry :: second) ↔ other ∈ first := by
  rw [nodup_append, nodup_cons] at hnodup
  obtain ⟨-, ⟨hentry, -⟩, hdisjoint⟩ := hnodup
  constructor
  · intro hpair
    obtain ⟨left, right, hsplit, hleft, hright⟩ := sublist_append_iff.mp hpair
    match left, hsplit with
    | [], hsplit =>
      rw [nil_append] at hsplit
      rw [← hsplit] at hright
      rcases sublist_cons_iff.mp hright with hskip | ⟨tail, htail, hrest⟩
      · exact absurd (hskip.subset (mem_cons_of_mem _ mem_cons_self)) hentry
      · obtain rfl := (List.cons.inj htail).2
        exact absurd (hrest.subset mem_cons_self) hentry
    | head :: tail, hsplit =>
      rw [cons_append] at hsplit
      rw [(List.cons.inj hsplit).1]
      exact hleft.subset mem_cons_self
  · intro hother
    have hpair := (singleton_sublist.mpr hother).append
      (singleton_sublist.mpr (mem_cons_self (a := entry) (l := second)))
    exact hpair

theorem pair_sublist_append_cons_iff' :
    [entry, other].Sublist (first ++ entry :: second) ↔ other ∈ second := by
  have hreverse : (first ++ entry :: second).reverse = second.reverse ++ entry :: first.reverse := by
    simp
  rw [← reverse_sublist, hreverse, show [entry, other].reverse = [other, entry] from rfl,
    pair_sublist_append_cons_iff (hreverse ▸ nodup_reverse.mpr hnodup), mem_reverse]

end

/-- Of two entries of a list one is listed before the other. -/
theorem pair_sublist_or (hne : first ≠ second) (hfirst : first ∈ entries)
    (hsecond : second ∈ entries) :
    [first, second].Sublist entries ∨ [second, first].Sublist entries := by
  obtain ⟨left, right, rfl⟩ := append_of_mem hfirst
  rcases mem_append.mp hsecond with hleft | hright
  · exact .inr ((singleton_sublist.mpr hleft).append (singleton_sublist.mpr mem_cons_self))
  · have hright := (mem_cons.mp hright).resolve_left (Ne.symm hne)
    exact .inl (((singleton_sublist.mpr hright).cons_cons first).trans
      (sublist_append_right left _))

/-- A stable sort lists tied entries in the order in which they were listed. -/
theorem pairwise_mergeSort_of_tied (htrans : ∀ a b c, le a b → le b c → le a c)
    (htotal : ∀ a b, le a b || le b a) (hnodup : entries.Nodup) :
    (entries.mergeSort le).Pairwise fun first second ↦
      ¬ le second first ∨ le first second ∧ [first, second].Sublist entries := by
  have hdistinct : (entries.mergeSort le).Nodup := (mergeSort_perm _ _).nodup_iff.mpr hnodup
  rw [pairwise_iff_forall_sublist]
  intro first second hpair
  have hle : le first second := pairwise_iff_forall_sublist.mp
    (pairwise_mergeSort htrans htotal entries) hpair
  by_cases htied : le second first = true
  · refine .inr ⟨hle, ?_⟩
    have hne : first ≠ second := by
      rintro rfl
      have htwice := hdistinct.sublist hpair
      simp at htwice
    have hfirst := mem_mergeSort.mp (hpair.subset mem_cons_self)
    have hsecond := mem_mergeSort.mp (hpair.subset (mem_cons_of_mem _ mem_cons_self))
    refine (pair_sublist_or hne hfirst hsecond).resolve_right fun hback ↦ ?_
    have hsorted := pair_sublist_mergeSort htrans htotal htied hback
    obtain ⟨left, right, hsplit⟩ := append_of_mem (hpair.subset mem_cons_self)
    rw [hsplit] at hsorted hpair hdistinct
    have hleft := (pair_sublist_append_cons_iff hdistinct).mp hsorted
    have hright := (pair_sublist_append_cons_iff' hdistinct).mp hpair
    rw [nodup_append] at hdistinct
    exact hdistinct.2.2 second hleft second (mem_cons_of_mem _ hright) rfl
  · exact .inl htied

end Bridgeport.Foundation
