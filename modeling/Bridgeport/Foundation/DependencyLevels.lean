import Mathlib.Order.WellFoundedSet

/-!
# Levels of an acyclic relation

For a relation `r`, read `r x y` as "`x` needs `y`". `HasChain r n x` says that some chain of `n`
steps of `r` starts at `x`. `settled r k` is the set reached after `k` rounds of the operator that
settles a point once everything it needs is settled, and `level r k` is what round `k` adds.
-/

namespace Bridgeport.Foundation.DependencyLevels

open Relation

variable {α : Type*} (r : α → α → Prop)

/-- Some chain of `n` steps of the relation starts at the point. -/
inductive HasChain : ℕ → α → Prop
  | zero (x : α) : HasChain 0 x
  | succ {n : ℕ} {x y : α} : r x y → HasChain n y → HasChain (n + 1) x

/-- The points settled after `k` rounds: a round settles a point whose needs are all settled. -/
def settled : ℕ → Set α
  | 0 => ∅
  | k + 1 => {x | ∀ y, r x y → y ∈ settled k}

variable (k : ℕ)

/-- The points that round `k` settles for the first time. -/
def level : Set α :=
  settled r (k + 1) \ settled r k

variable {r}

/-- A point is settled after `k` rounds exactly when no chain of `k` steps starts at it. -/
theorem mem_settled_iff (x : α) : x ∈ settled r k ↔ ¬ HasChain r k x := by
  induction k generalizing x with
  | zero => exact ⟨fun h ↦ h.elim, fun h ↦ (h (HasChain.zero x)).elim⟩
  | succ k ih =>
    constructor
    · rintro hsettled (⟨_⟩ | ⟨hrel, hchain⟩)
      exact (ih _).mp (hsettled _ hrel) hchain
    · intro hnone y hrel
      exact (ih y).mpr fun hchain ↦ hnone (HasChain.succ hrel hchain)

variable {n : ℕ} {x : α}

theorem HasChain.pred (h : HasChain r (n + 1) x) : HasChain r n x := by
  induction n generalizing x with
  | zero => exact HasChain.zero x
  | succ n ih =>
    cases h with
    | succ hrel hchain => exact HasChain.succ hrel (ih hchain)

theorem HasChain.mono {m : ℕ} (hmn : m ≤ n) (h : HasChain r n x) : HasChain r m x := by
  induction hmn with
  | refl => exact h
  | step _ ih => exact ih h.pred

theorem settled_mono {m : ℕ} (hmn : m ≤ n) : settled r m ⊆ settled r n := by
  intro x hx
  rw [mem_settled_iff] at hx ⊢
  exact fun hchain ↦ hx (hchain.mono hmn)

/-- The level of a point is the length of the longest chain below it. -/
theorem mem_level_iff (x : α) : x ∈ level r k ↔ IsGreatest {n | HasChain r n x} k := by
  rw [level, Set.mem_sdiff, mem_settled_iff, mem_settled_iff, not_not]
  constructor
  · rintro ⟨hnone, hchain⟩
    refine ⟨hchain, fun n hn ↦ ?_⟩
    by_contra hlt
    exact hnone (HasChain.mono (Nat.lt_of_not_le hlt) hn)
  · rintro ⟨hchain, hupper⟩
    exact ⟨fun hlonger ↦ absurd (hupper hlonger) (Nat.not_succ_le_self k), hchain⟩

theorem level_unique {i j : ℕ} (hi : x ∈ level r i) (hj : x ∈ level r j) : i = j :=
  ((mem_level_iff i x).mp hi).unique ((mem_level_iff j x).mp hj)

/-- The level drops along the relation. -/
theorem level_lt_of_rel {i j : ℕ} {y : α} (hrel : r x y) (hi : x ∈ level r i) (hj : y ∈ level r j) :
    j < i := by
  have hchain : HasChain r (j + 1) x := HasChain.succ hrel ((mem_level_iff j y).mp hj).1
  exact ((mem_level_iff i x).mp hi).2 hchain

/-- A settled point lies in exactly one of the levels so far. -/
theorem mem_settled_iff_exists_level (x : α) : x ∈ settled r k ↔ ∃ i < k, x ∈ level r i := by
  constructor
  · intro hx
    induction k with
    | zero => exact hx.elim
    | succ k ih =>
      by_cases hearlier : x ∈ settled r k
      · obtain ⟨i, hi, hlevel⟩ := ih hearlier
        exact ⟨i, Nat.lt_succ_of_lt hi, hlevel⟩
      · exact ⟨k, Nat.lt_succ_self k, hx, hearlier⟩
  · rintro ⟨i, hi, hlevel⟩
    exact settled_mono hi hlevel.1

variable {k : ℕ}

theorem not_hasChain_of_transGen {y : α} (hreach : TransGen r x y) (hx : x ∈ settled r (k + 1)) :
    y ∈ settled r k := by
  induction hreach using TransGen.head_induction_on generalizing k with
  | single hrel => exact hx _ hrel
  | head hrel _ ih =>
    cases k with
    | zero => exact (hx _ hrel).elim
    | succ k => exact settled_mono (Nat.le_succ k) (ih (hx _ hrel))

theorem not_cyclic_of_mem_settled (hx : x ∈ settled r k) : ¬ TransGen r x x := by
  intro hcycle
  induction k with
  | zero => exact hx
  | succ k ih => exact ih (not_hasChain_of_transGen hcycle hx)

/-- Assumes: an acyclic relation and a finite set closed under it. If a round settles no new point
of the set, the whole set is settled. -/
theorem subset_settled_of_round_empty {s : Set α} (hfinite : s.Finite)
    (hclosed : ∀ x ∈ s, ∀ y, r x y → y ∈ s) (hacyclic : ∀ x, ¬ TransGen r x x)
    (hround : s ∩ settled r (k + 1) ⊆ settled r k) : s ⊆ settled r k := by
  by_contra hnot
  obtain ⟨start, hstart, hunsettled⟩ := Set.not_subset.mp hnot
  let below : α → α → Prop := fun x y ↦ TransGen r y x
  have hstrict : IsStrictOrder α below :=
    { irrefl := hacyclic, trans := fun _ _ _ hxy hyz ↦ hyz.trans hxy }
  have hwellFounded := (hfinite.sdiff (t := settled r k)).wellFoundedOn (r := below)
  obtain ⟨⟨x, hxs, hx⟩, -, hminimal⟩ :=
    hwellFounded.has_min Set.univ ⟨⟨start, hstart, hunsettled⟩, Set.mem_univ _⟩
  have hstuck : x ∉ settled r (k + 1) := fun hsettled ↦ hx (hround ⟨hxs, hsettled⟩)
  obtain ⟨y, hrel, hy⟩ : ∃ y, r x y ∧ y ∉ settled r k := by
    by_contra hall
    push Not at hall
    exact hstuck hall
  exact hminimal ⟨y, hclosed x hxs y hrel, hy⟩ (Set.mem_univ _) (TransGen.single hrel)

end Bridgeport.Foundation.DependencyLevels
