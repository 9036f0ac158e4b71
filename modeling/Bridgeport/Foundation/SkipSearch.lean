import Mathlib.Order.Interval.Finset.Defs

/-!
# Searching by skips

`search step turns start` follows `step` from `start` for a number of turns, until a state has no
next one. If every step goes forward and passes over no state at which the search would stop
(`Skips`), the search ends at the least such state, as soon as the turns suffice; that they do is
shown by a rank that every step lowers (`search_eq_of_isLeast`).

What a rank counts is mostly what is still ahead, so the number of the elements of an interval
with a property is given its two lemmas here.
-/

namespace Bridgeport.Foundation

open Finset

variable {α β : Type*}

def search (step : α → Option α) : ℕ → α → Option α
  | 0, _ => none
  | turns + 1, current =>
    match step current with
    | none => some current
    | some later => search step turns later

theorem search_map {step : α → Option α} {image : α → β} {stepImage : β → Option β}
    (h : ∀ current, stepImage (image current) = (step current).map image) (turns : ℕ)
    (current : α) : search stepImage turns (image current) =
      (search step turns current).map image := by
  induction turns generalizing current with
  | zero => rfl
  | succ turns ih =>
    unfold search
    rw [h]
    cases step current with
    | none => rfl
    | some later => exact ih later

section

variable [LinearOrder α] {step : α → Option α} {start target : α}

/-- Every step goes forward and passes over no state at which the search stops. -/
structure Skips (step : α → Option α) : Prop where
  lt {current later : α} : step current = some later → current < later
  passes {current later other : α} : step current = some later → current ≤ other →
    other < later → step other ≠ none

/-- A step from a state that is not behind the target stays so. -/
theorem Skips.le_target (hskips : Skips step) (htarget : step target = none) {current later : α}
    (hstep : step current = some later) (hle : current ≤ target) : later ≤ target := by
  by_contra hnot
  exact hskips.passes hstep hle (not_le.mp hnot) htarget

/-- The search ends at the least state at which it can stop. Assumes: every step on the way lowers
the rank, and the rank is less than the number of turns. -/
theorem search_eq_of_isLeast (hskips : Skips step)
    (hleast : IsLeast {state | start ≤ state ∧ step state = none} target) {rank : α → ℕ}
    (hrank : ∀ current later, start ≤ current → later ≤ target → step current = some later →
      rank later < rank current) {turns : ℕ} (hturns : rank start < turns) :
    search step turns start = some target := by
  have hgeneral : ∀ current, start ≤ current → current ≤ target → rank current < turns →
      search step turns current = some target := by
    clear hturns
    induction turns with
    | zero => exact fun _ _ _ hnot ↦ absurd hnot (Nat.not_lt_zero _)
    | succ turns ih =>
      intro current hstart htarget hturns
      unfold search
      cases hstep : step current with
      | none => exact congrArg some (le_antisymm htarget (hleast.2 ⟨hstart, hstep⟩))
      | some later =>
        have hlater := hskips.le_target hleast.1.2 hstep htarget
        have hless := hrank current later hstart hlater hstep
        exact ih later (hstart.trans (hskips.lt hstep).le) hlater (by omega)
  exact hgeneral start (le_refl start) hleast.1.1 hturns

end

section

variable [LinearOrder α] [LocallyFiniteOrder α] (counted : α → Prop) [DecidablePred counted]
  {first second : α} (last : α)

/-- Further on, fewer elements are ahead. -/
theorem card_filter_Ico_le (hle : first ≤ second) :
    ((Finset.Ico second last).filter counted).card ≤
      ((Finset.Ico first last).filter counted).card := by
  refine card_le_card fun element helement ↦ ?_
  simp only [Finset.mem_filter, mem_Ico] at helement ⊢
  exact ⟨⟨hle.trans helement.1.1, helement.1.2⟩, helement.2⟩

theorem card_filter_Ico_lt {last : α} (hlt : first < second) (hlast : first < last)
    (hcounted : counted first) :
    ((Finset.Ico second last).filter counted).card <
      ((Finset.Ico first last).filter counted).card := by
  refine card_lt_card ⟨fun element helement ↦ ?_, fun hsubset ↦ ?_⟩
  · simp only [Finset.mem_filter, mem_Ico] at helement ⊢
    exact ⟨⟨hlt.le.trans helement.1.1, helement.1.2⟩, helement.2⟩
  · have hfirst : first ∈ (Finset.Ico first last).filter counted := by
      simp only [Finset.mem_filter, mem_Ico]
      exact ⟨⟨le_refl first, hlast⟩, hcounted⟩
    have hmem := hsubset hfirst
    simp only [Finset.mem_filter, mem_Ico] at hmem
    exact absurd hlt (not_lt.mpr hmem.1.1)

end

end Bridgeport.Foundation
