import Mathlib

/-!
# Path-independent choices

A choice from finite sets is path independent if what it drops has no say in it: an element that is
chosen from a set is chosen from every part of the set that has it, and a part that has all chosen
elements chooses no others. Such a choice can be made early and often: what is chosen from a set
that covers another one is what is chosen from the other one (`Covers.chosen_eq`), and covering sets
stay so when elements are added or choices are made. Unions of such choices are such choices, and
so is a tier, which takes the first elements of the last few buckets (`pathIndependent_tier`).
-/

namespace Bridgeport.Foundation

open Finset

variable {α : Type*}

/-- A choice whose rejected elements have no say. -/
structure PathIndependent (chosen : Finset α → Set α) : Prop where
  mem {s : Finset α} {x : α} : x ∈ chosen s → x ∈ s
  heritage {s t : Finset α} {x : α} : s ⊆ t → x ∈ s → x ∈ chosen t → x ∈ chosen s
  outcast {s t : Finset α} : chosen t ⊆ s → s ⊆ t → chosen s ⊆ chosen t

theorem PathIndependent.iUnion {ι : Sort*} {chosen : ι → Finset α → Set α}
    (h : ∀ i, PathIndependent (chosen i)) : PathIndependent fun s ↦ ⋃ i, chosen i s where
  mem hx := by
    obtain ⟨i, hi⟩ := Set.mem_iUnion.mp hx
    exact (h i).mem hi
  heritage hst hx hchosen := by
    obtain ⟨i, hi⟩ := Set.mem_iUnion.mp hchosen
    exact Set.mem_iUnion.mpr ⟨i, (h i).heritage hst hx hi⟩
  outcast hchosen hst :=
    Set.iUnion_mono fun i ↦ (h i).outcast ((Set.subset_iUnion _ i).trans hchosen) hst

/-- A part of a set that has all elements that are chosen from it. -/
structure Covers (chosen : Finset α → Set α) (s t : Finset α) : Prop where
  subset : s ⊆ t
  chosen : chosen t ⊆ s

namespace Covers

variable {chosen : Finset α → Set α} {s t : Finset α} (hpath : PathIndependent chosen)
  (h : Covers chosen s t)
include hpath h

theorem chosen_eq : chosen s = chosen t :=
  (hpath.outcast h.chosen h.subset).antisymm fun _ hx ↦
    hpath.heritage h.subset (h.chosen hx) hx

/-- A set still covers after arrivals in both. -/
theorem union [DecidableEq α] (arrived : Finset α) : Covers chosen (arrived ∪ s) (arrived ∪ t) where
  subset := union_subset_union_right h.subset
  chosen x hx := by
    rcases mem_union.mp (hpath.mem hx) with hnew | hold
    · exact mem_union_left _ hnew
    · exact mem_union_right _ (h.chosen (hpath.heritage subset_union_right hold hx))

/-- A set still covers when elements are dropped that are not chosen from it. -/
theorem prune {left : Finset α} (hleft : left ⊆ s) (hkept : chosen s ⊆ left) :
    Covers chosen left t where
  subset := hleft.trans h.subset
  chosen := (h.chosen_eq hpath).symm.subset.trans hkept

end Covers

variable {β : Type*} [DecidableEq β] (first : α → α → Prop) (later : β → β → Prop)
  [DecidableRel later] (bucket : α → β) (count : ℤ)

/-- The first elements of their buckets, in the last few buckets. -/
def tier (s : Finset α) : Set α :=
  {x | x ∈ s ∧ (∀ y ∈ s, bucket y = bucket x → ¬ first y x) ∧
    (#{b ∈ s.image bucket | later b (bucket x)} : ℤ) < count}

variable {first later bucket count} [IsStrictOrder α first] {t : Finset α}

variable (first) in
/-- A bucket that is late enough has an element in the tier. -/
theorem exists_mem_tier {y : α} (hy : y ∈ t)
    (hcount : (#{b ∈ t.image bucket | later b (bucket y)} : ℤ) < count) :
    ∃ z ∈ tier first later bucket count t, bucket z = bucket y ∧ (z = y ∨ first z y) := by
  refine (t.wellFoundedOn (r := first)).induction (P := fun y ↦
    (#{b ∈ t.image bucket | later b (bucket y)} : ℤ) < count → ∃ z ∈ tier first later bucket count t,
      bucket z = bucket y ∧ (z = y ∨ first z y)) hy (fun y hy ih hcount ↦ ?_) hcount
  by_cases hfirst : ∃ x ∈ t, bucket x = bucket y ∧ first x y
  · obtain ⟨x, hx, hsame, hlt⟩ := hfirst
    obtain ⟨z, hz, hbucket, hle⟩ := ih x hx hlt (hsame ▸ hcount)
    exact ⟨z, hz, hbucket.trans hsame, .inr (hle.elim (· ▸ hlt) (IsTrans.trans _ _ _ · hlt))⟩
  · exact ⟨y, ⟨hy, fun x hx hsame hlt ↦ hfirst ⟨x, hx, hsame, hlt⟩, hcount⟩, rfl, .inl rfl⟩

theorem pathIndependent_tier [IsStrictOrder β later] :
    PathIndependent (tier first later bucket count) where
  mem hx := hx.1
  heritage hst hx := fun ⟨_, hfirst, hrecent⟩ ↦ ⟨hx, fun y hy ↦ hfirst y (hst hy),
    (Int.ofNat_le.mpr (card_le_card (filter_subset_filter _ (image_subset_image hst)))).trans_lt
      hrecent⟩
  outcast {s t} hchosen hst := by
    rintro x ⟨hx, hfirst, hrecent⟩
    -- from the last bucket on, each bucket behind that of `x` has a chosen element
    have hbehind : ∀ b ∈ t.image bucket, later b (bucket x) → b ∈ s.image bucket := by
      refine fun b hb ↦ (Finset.wellFoundedOn (r := later) _).induction (P := fun b ↦
        later b (bucket x) → b ∈ s.image bucket) hb fun b hb ih hbehind ↦ ?_
      obtain ⟨y, hy, rfl⟩ := mem_image.mp hb
      have hsubset : {c ∈ t.image bucket | later c (bucket y)} ⊆
          {c ∈ s.image bucket | later c (bucket x)} := by
        intro c hc
        obtain ⟨hc, hlater⟩ := mem_filter.mp hc
        have hbehind := IsTrans.trans _ _ _ hlater hbehind
        exact mem_filter.mpr ⟨ih c hc hlater hbehind, hbehind⟩
      obtain ⟨z, hz, hsame, -⟩ := exists_mem_tier first hy
        ((Int.ofNat_le.mpr (card_le_card hsubset)).trans_lt hrecent)
      exact mem_image.mpr ⟨z, hchosen hz, hsame⟩
    have hsubset : {b ∈ t.image bucket | later b (bucket x)} ⊆
        {b ∈ s.image bucket | later b (bucket x)} := fun b hb ↦
      have hb := mem_filter.mp hb
      mem_filter.mpr ⟨hbehind b hb.1 hb.2, hb.2⟩
    have hrecent := (Int.ofNat_le.mpr (card_le_card hsubset)).trans_lt hrecent
    refine ⟨hst hx, fun y hy hsame hlt ↦ ?_, hrecent⟩
    obtain ⟨z, hz, hbucket, hle⟩ := exists_mem_tier first hy (hsame ▸ hrecent)
    exact hfirst z (hchosen hz) (hbucket.trans hsame) (hle.elim (· ▸ hlt) (IsTrans.trans _ _ _ · hlt))

end Bridgeport.Foundation
