import Mathlib.Data.Nat.Find

/-!
# Runs that stop at the first refusal

A step either throws, and leaves the state as it is, or changes the state (`Performs`). A list of
steps stops at the first step that throws in the state behind the steps before it (`StopsAt`), with
what those steps have done (`run_forM_of_stopsAt`), and runs through if there is none
(`run_forM_of_not_stopsAt`).
-/

namespace Bridgeport.Foundation

variable {Step State ε : Type}

/-- A step throws what `refuses` says, or does what `next` says. -/
def Performs (perform : Step → ExceptT ε (StateM State) Unit) (refuses : Step → State → Option ε)
    (next : Step → State → State) : Prop :=
  ∀ step state, (perform step).run state = match refuses step state with
    | some message => (.error message, state)
    | none => (.ok (), next step state)

def stateAfter (next : Step → State → State) (steps : List Step) (start : State) : State :=
  steps.foldl (fun state step ↦ next step state) start

/-- The step with a number throws, in the state behind the steps before it. -/
def StopsAt (refuses : Step → State → Option ε) (next : Step → State → State) (steps : List Step)
    (start : State) (index : ℕ) : Prop :=
  ∃ step message, steps[index]? = some step ∧
    refuses step (stateAfter next (steps.take index) start) = some message

variable {perform : Step → ExceptT ε (StateM State) Unit} {refuses : Step → State → Option ε}
  {next : Step → State → State} {steps : List Step} {start : State}

theorem stateAfter_cons (step : Step) (steps : List Step) (start : State) :
    stateAfter next (step :: steps) start = stateAfter next steps (next step start) :=
  rfl

theorem stopsAt_cons_succ {step : Step} {index : ℕ} :
    StopsAt refuses next (step :: steps) start (index + 1) ↔
      StopsAt refuses next steps (next step start) index :=
  Iff.rfl

theorem stopsAt_cons_zero {step : Step} : StopsAt refuses next (step :: steps) start 0 ↔
    ∃ message, refuses step start = some message := by
  constructor
  · rintro ⟨other, message, hstep, hrefuses⟩
    obtain rfl := Option.some.inj hstep
    exact ⟨message, hrefuses⟩
  · rintro ⟨message, hrefuses⟩
    exact ⟨step, message, rfl, hrefuses⟩

theorem run_bind {α β : Type} (first : ExceptT ε (StateM State) α)
    (rest : α → ExceptT ε (StateM State) β) (start : State) :
    (first >>= rest).run start = match first.run start with
      | (.ok value, state) => (rest value).run state
      | (.error message, state) => (.error message, state) := by
  have hrun : (first >>= rest).run start = match first.run start with
      | (result, state) => (match result with
        | .ok value => (rest value).run
        | .error message => fun state ↦ (.error message, state) : StateM State (Except ε β)) state := rfl
  rw [hrun]
  rcases first.run start with ⟨_ | _, _⟩
  · rfl
  · rfl

theorem run_forM_cons (step : Step) (steps : List Step) (start : State) :
    ((step :: steps).forM perform).run start = match (perform step).run start with
      | (.ok _, state) => (steps.forM perform).run state
      | (.error message, state) => (.error message, state) := by
  refine (run_bind (perform step) (fun _ ↦ steps.forM perform) start).trans ?_
  rcases (perform step).run start with ⟨_ | _, _⟩
  · rfl
  · rfl

theorem run_forM_of_not_stopsAt (hperform : Performs perform refuses next)
    (h : ∀ index, ¬ StopsAt refuses next steps start index) :
    (steps.forM perform).run start = (.ok (), stateAfter next steps start) := by
  induction steps generalizing start with
  | nil => rfl
  | cons step steps ih =>
    have hfirst : refuses step start = none := by
      refine Option.eq_none_iff_forall_ne_some.mpr fun message hmessage ↦ ?_
      exact h 0 (stopsAt_cons_zero.mpr ⟨message, hmessage⟩)
    rw [run_forM_cons, hperform, hfirst]
    exact ih fun index hindex ↦ h (index + 1) (stopsAt_cons_succ.mpr hindex)

/-- The first step that throws leaves what the steps before it have done. -/
theorem run_forM_of_stopsAt (hperform : Performs perform refuses next) {index : ℕ}
    (h : StopsAt refuses next steps start index)
    (hfirst : ∀ earlier < index, ¬ StopsAt refuses next steps start earlier) :
    ∃ message, (steps.forM perform).run start =
      (.error message, stateAfter next (steps.take index) start) := by
  induction steps generalizing start index with
  | nil =>
    obtain ⟨step, -, hstep, -⟩ := h
    exact absurd hstep (by simp)
  | cons step steps ih =>
    cases index with
    | zero =>
      obtain ⟨message, hrefuses⟩ := stopsAt_cons_zero.mp h
      refine ⟨message, ?_⟩
      rw [run_forM_cons, hperform, hrefuses]
      rfl
    | succ index =>
      have hnone : refuses step start = none := by
        refine Option.eq_none_iff_forall_ne_some.mpr fun message hmessage ↦ ?_
        exact hfirst 0 (Nat.succ_pos index) (stopsAt_cons_zero.mpr ⟨message, hmessage⟩)
      rw [run_forM_cons, hperform, hnone]
      refine ih (stopsAt_cons_succ.mp h) fun earlier hearlier hstops ↦ ?_
      exact hfirst (earlier + 1) (Nat.succ_lt_succ hearlier) (stopsAt_cons_succ.mpr hstops)

/-- There is a first step that throws, or none. -/
theorem exists_first_stopsAt (refuses : Step → State → Option ε) (next : Step → State → State)
    (steps : List Step) (start : State) :
    (∀ index, ¬ StopsAt refuses next steps start index) ∨
      ∃ index, StopsAt refuses next steps start index ∧
        ∀ earlier < index, ¬ StopsAt refuses next steps start earlier := by
  classical
  by_cases h : ∃ index, StopsAt refuses next steps start index
  · exact Or.inr ⟨Nat.find h, Nat.find_spec h, fun earlier hearlier ↦ Nat.find_min h hearlier⟩
  · exact Or.inl (not_exists.mp h)

end Bridgeport.Foundation
