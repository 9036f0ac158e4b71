import Mathlib.Data.Finset.Basic

/-!
# Held keys

A set of keys that are taken, and what each of several holders holds. `HeldKeys taken held` says that
the keys that are taken are those that somebody holds, and that nobody else holds them. A free key
can be taken (`HeldKeys.take`), a held one given back (`HeldKeys.giveBack`), and a key that nobody
holds is free (`HeldKeys.notMem`), so that giving it back changes nothing (`HeldKeys.erase_free`).
-/

namespace Bridgeport.Foundation

open Function Finset

variable {κ ι : Type*}

/-- The keys that are taken are those that are held, each by one holder. -/
structure HeldKeys (taken : Finset κ) (held : ι → Option κ) : Prop where
  mem_iff : ∀ key, key ∈ taken ↔ ∃ holder, held holder = some key
  unique : ∀ first second key, held first = some key → held second = some key → first = second

namespace HeldKeys

variable {taken : Finset κ} {held : ι → Option κ}

theorem empty : HeldKeys (∅ : Finset κ) (fun _ : ι ↦ none) where
  mem_iff := by simp
  unique := by simp

variable {holder : ι} {key : κ}

theorem mem (h : HeldKeys taken held) (hheld : held holder = some key) : key ∈ taken :=
  (h.mem_iff key).mpr ⟨holder, hheld⟩

theorem notMem (h : HeldKeys taken held) (hnone : ∀ holder, held holder ≠ some key) :
    key ∉ taken := by
  intro hmem
  obtain ⟨holder, hholder⟩ := (h.mem_iff key).mp hmem
  exact hnone holder hholder

variable [DecidableEq κ]

/-- A key that nobody holds is given back. -/
theorem erase_free (h : HeldKeys taken held) (hnone : ∀ holder, held holder ≠ some key) :
    HeldKeys (taken.erase key) held := by
  rw [erase_eq_of_notMem (h.notMem hnone)]
  exact h

theorem insert_mem (h : HeldKeys taken held) (hmem : key ∈ taken) :
    HeldKeys (insert key taken) held := by
  rw [insert_eq_of_mem hmem]
  exact h

variable [DecidableEq ι]

omit [DecidableEq κ] in
theorem keep (h : HeldKeys taken held) {value : Option κ} (hvalue : value = held holder) :
    HeldKeys taken (Function.update held holder value) := by
  rw [hvalue, Function.update_eq_self]
  exact h

theorem take (h : HeldKeys taken held) (hfree : key ∉ taken) (hnone : held holder = none) :
    HeldKeys (insert key taken) (Function.update held holder (some key)) where
  mem_iff other := by
    simp only [Finset.mem_insert, h.mem_iff other, update_apply]
    constructor
    · rintro (rfl | ⟨keeper, hkeeper⟩)
      · exact ⟨holder, if_pos rfl⟩
      · have hne : keeper ≠ holder := fun hsame ↦ by simp [hsame, hnone] at hkeeper
        exact ⟨keeper, (if_neg hne).trans hkeeper⟩
    · rintro ⟨keeper, hkeeper⟩
      split_ifs at hkeeper with hsame
      · exact Or.inl (Option.some.inj hkeeper).symm
      · exact Or.inr ⟨keeper, hkeeper⟩
  unique first second other hfirst hsecond := by
    have hfresh : ∀ keeper, held keeper ≠ some key := fun keeper hkeeper ↦ hfree (h.mem hkeeper)
    simp only [update_apply] at hfirst hsecond
    split_ifs at hfirst hsecond with hone htwo htwo
    · exact hone.trans htwo.symm
    · exact absurd (hsecond.trans hfirst.symm) (hfresh second)
    · exact absurd (hfirst.trans hsecond.symm) (hfresh first)
    · exact h.unique first second other hfirst hsecond

/-- Somebody who holds none takes a key if it is free. -/
theorem tryTake (h : HeldKeys taken held) (hnone : held holder = none) : HeldKeys (insert key taken)
      (Function.update held holder (if key ∈ taken then none else some key)) := by
  split_ifs with hmem
  · exact (h.insert_mem hmem).keep hnone.symm
  · exact h.take hmem hnone

theorem giveBack (h : HeldKeys taken held) (hheld : held holder = some key) :
    HeldKeys (taken.erase key) (Function.update held holder none) where
  mem_iff other := by
    simp only [mem_erase, h.mem_iff other, update_apply]
    constructor
    · rintro ⟨hother, keeper, hkeeper⟩
      have hne : keeper ≠ holder := by
        intro hsame
        rw [hsame, hheld] at hkeeper
        exact hother (Option.some.inj hkeeper).symm
      exact ⟨keeper, (if_neg hne).trans hkeeper⟩
    · rintro ⟨keeper, hkeeper⟩
      split_ifs at hkeeper with hne
      refine ⟨fun hsame ↦ hne ?_, keeper, hkeeper⟩
      exact h.unique keeper holder key (hsame ▸ hkeeper) hheld
  unique first second other hfirst hsecond := by
    simp only [update_apply] at hfirst hsecond
    split_ifs at hfirst hsecond
    exact h.unique first second other hfirst hsecond

end HeldKeys

end Bridgeport.Foundation
