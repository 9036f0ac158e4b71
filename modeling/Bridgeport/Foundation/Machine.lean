import Mathlib.Data.List.Induction
import Mathlib.Order.Lattice

/-!
# Machines

A `Machine` takes a state and a label to the next state, or refuses the label. A run is a list of
labels; the labels carry what the environment decides, so that a machine can be executed.
-/

namespace Bridgeport.Foundation

open List Option

/-- A machine that refuses a label by having no next state. -/
structure Machine (State Label : Type*) where
  next : State → Label → Option State

namespace Machine

variable {State Label : Type*} (machine : Machine State Label)

def run : State → List Label → Option State
  | state, [] => some state
  | state, label :: labels => (machine.next state label).bind fun after ↦ run after labels

/-- Every step of a run meets a condition on the state before it and its label. -/
def Meets (condition : State → Label → Prop) : State → List Label → Prop
  | _, [] => True
  | state, label :: labels => condition state label ∧
      ∀ after, machine.next state label = some after → Meets condition after labels

theorem run_append (state : State) (first second : List Label) :
    machine.run state (first ++ second) =
      (machine.run state first).bind fun after ↦ machine.run after second := by
  induction first generalizing state with
  | nil => rfl
  | cons label rest ih =>
    simp only [cons_append, run]
    cases machine.next state label with
    | none => rfl
    | some after => exact ih after

theorem run_concat (state : State) (labels : List Label) (label : Label) :
    machine.run state (labels ++ [label]) =
      (machine.run state labels).bind fun before ↦ machine.next before label := by
  rw [run_append]
  refine Option.bind_congr fun before _ ↦ ?_
  exact bind_fun_some (machine.next before label)

variable {machine} {labels : List Label} {label : Label} {initial final : State}

theorem exists_of_run_concat (h : machine.run initial (labels ++ [label]) = some final) :
    ∃ before, machine.run initial labels = some before ∧
      machine.next before label = some final := by
  rw [run_concat] at h
  exact bind_eq_some_iff.mp h

variable {condition : State → Label → Prop}

theorem meets_append {first second : List Label} :
    machine.Meets condition initial (first ++ second) ↔ machine.Meets condition initial first ∧
      ∀ middle, machine.run initial first = some middle →
        machine.Meets condition middle second := by
  induction first generalizing initial with
  | nil => simp [Meets, run]
  | cons label rest ih =>
    simp only [cons_append, Meets, run, ih]
    constructor
    · intro ⟨hlabel, hrest⟩
      refine ⟨⟨hlabel, fun after hafter ↦ (hrest after hafter).1⟩, fun middle hmiddle ↦ ?_⟩
      obtain ⟨after, hafter, hrun⟩ := bind_eq_some_iff.mp hmiddle
      exact (hrest after hafter).2 middle hrun
    · intro ⟨⟨hlabel, hrest⟩, hsecond⟩
      refine ⟨hlabel, fun after hafter ↦ ⟨hrest after hafter, fun middle hmiddle ↦ ?_⟩⟩
      exact hsecond middle (bind_eq_some_iff.mpr ⟨after, hafter, hmiddle⟩)

theorem meets_concat : machine.Meets condition initial (labels ++ [label]) ↔
      machine.Meets condition initial labels ∧
        ∀ before, machine.run initial labels = some before → condition before label := by
  rw [meets_append]
  simp [Meets]

/-- The condition holds at the end of every beginning of the run. -/
theorem meets_iff :
    machine.Meets condition initial labels ↔ ∀ before label, before ++ [label] <+: labels →
      ∀ state, machine.run initial before = some state → condition state label := by
  induction labels using List.reverseRecOn with
  | nil => simp [Meets]
  | append_singleton labels last ih =>
    rw [meets_concat, ih]
    constructor
    · intro ⟨hlabels, hlast⟩ before label hbegins state hrun
      rcases prefix_concat_iff.mp hbegins with hwhole | hshorter
      · obtain ⟨rfl, hlabel⟩ := append_inj' hwhole rfl
        rw [singleton_inj.mp hlabel]
        exact hlast state hrun
      · exact hlabels before label hshorter state hrun
    · intro h
      exact ⟨fun before label hbegins ↦ h before label (hbegins.trans (prefix_append _ _)),
        h labels last prefix_rfl⟩

variable {motive : List Label → State → Prop}

/-- What holds at first and is preserved by every step that meets the condition. -/
theorem induction_of_meets (hnil : motive [] initial)
    (hstep : ∀ labels before label after, machine.run initial labels = some before →
      motive labels before → condition before label → machine.next before label = some after →
      motive (labels ++ [label]) after) (hrun : machine.run initial labels = some final)
    (hmeets : machine.Meets condition initial labels) : motive labels final := by
  induction labels using List.reverseRecOn generalizing final with
  | nil => exact some.inj hrun ▸ hnil
  | append_singleton labels label ih =>
    obtain ⟨before, hbefore, hnext⟩ := exists_of_run_concat hrun
    obtain ⟨hlabels, hlabel⟩ := meets_concat.mp hmeets
    exact hstep labels before label final hbefore (ih hbefore hlabels) (hlabel before hbefore) hnext

theorem meets_of_forall (h : ∀ state label, condition state label) (initial : State)
    (labels : List Label) : machine.Meets condition initial labels := by
  induction labels generalizing initial with
  | nil => exact trivial
  | cons label rest ih => exact ⟨h initial label, fun after _ ↦ ih after⟩

variable (machine) in
/-- Every step of a run passes a check. -/
def checks (check : State → Label → Bool) : State → List Label → Bool
  | _, [] => true
  | state, label :: labels => check state label &&
      match machine.next state label with
      | none => true
      | some after => checks check after labels

theorem meets_of_checks {check : State → Label → Bool}
    (hcheck : ∀ state label, check state label → condition state label)
    (h : machine.checks check initial labels) : machine.Meets condition initial labels := by
  induction labels generalizing initial with
  | nil => exact trivial
  | cons label rest ih =>
    obtain ⟨hlabel, hrest⟩ := Bool.and_eq_true_iff.mp h
    refine ⟨hcheck initial label hlabel, fun after hafter ↦ ih ?_⟩
    rw [hafter] at hrest
    exact hrest

variable {invariant : State → Prop}

/-- Two conditions that agree on the steps from the states of an invariant are met by the same runs,
if the first one keeps the invariant. -/
theorem meets_congr {steps first second : State → Label → Prop}
    (hsame : ∀ state label, invariant state → steps state label →
      (first state label ↔ second state label))
    (hkeeps : ∀ before label after, invariant before → steps before label → first before label →
      machine.next before label = some after → invariant after) (hinitial : invariant initial)
    (hsteps : machine.Meets steps initial labels) :
    machine.Meets first initial labels ↔ machine.Meets second initial labels := by
  induction labels generalizing initial with
  | nil => exact Iff.rfl
  | cons label rest ih =>
    refine (and_congr_right fun hfirst ↦ forall₂_congr fun after hafter ↦ ?_).trans
      (and_congr_left fun _ ↦ hsame initial label hinitial hsteps.1)
    exact ih (hkeeps initial label after hinitial hsteps.1 hfirst hafter) (hsteps.2 after hafter)

theorem meets_of_invariant {property : State → Label → Prop}
    (himplies : ∀ state label, invariant state → condition state label → property state label)
    (hkeeps : ∀ before label after, invariant before → condition before label →
      machine.next before label = some after → invariant after) (hinitial : invariant initial)
    (h : machine.Meets condition initial labels) : machine.Meets property initial labels := by
  induction labels generalizing initial with
  | nil => exact trivial
  | cons label rest ih =>
    refine ⟨himplies initial label hinitial h.1, fun after hafter ↦ ?_⟩
    exact ih (hkeeps initial label after hinitial h.1 hafter) (h.2 after hafter)

/-- What holds at first and is preserved by every step. -/
theorem induction (hnil : motive [] initial)
    (hstep : ∀ labels before label after, motive labels before →
      machine.next before label = some after → motive (labels ++ [label]) after)
    (hrun : machine.run initial labels = some final) : motive labels final := by
  have hmeets : machine.Meets (fun _ _ ↦ True) initial labels :=
    meets_of_forall (fun _ _ ↦ trivial) initial labels
  exact induction_of_meets hnil (fun labels before label after _ hbefore _ ↦
    hstep labels before label after hbefore) hrun hmeets

end Machine

/-! ### Infinite runs -/

section

open List Option

variable {State Label : Type*}

/-- An infinite run of a machine; a time without a label leaves the state as it is. -/
structure Execution (machine : Machine State Label) (initial : State) where
  states : ℕ → State
  labels : ℕ → Option Label
  states_zero : states 0 = initial
  step : ∀ time, (match labels time with
    | some label => machine.next (states time) label
    | none => some (states time)) = some (states (time + 1))

namespace Execution

variable {machine : Machine State Label} {initial : State} (execution : Execution machine initial)
  {time : ℕ} {label : Label}

theorem next_of_label (h : execution.labels time = some label) :
    machine.next (execution.states time) label = some (execution.states (time + 1)) := by
  have hstep := execution.step time
  rwa [h] at hstep

theorem states_of_no_label (h : execution.labels time = none) :
    execution.states (time + 1) = execution.states time := by
  have hstep := execution.step time
  rw [h] at hstep
  exact (some.inj hstep).symm

theorem exists_run (time : ℕ) :
    ∃ labels, machine.run initial labels = some (execution.states time) := by
  induction time with
  | zero => exact ⟨[], by rw [execution.states_zero]; rfl⟩
  | succ time ih =>
    obtain ⟨labels, hrun⟩ := ih
    cases hlabel : execution.labels time with
    | none => exact ⟨labels, by rw [hrun, execution.states_of_no_label hlabel]⟩
    | some label =>
      refine ⟨labels ++ [label], ?_⟩
      rw [machine.run_concat, hrun]
      exact execution.next_of_label hlabel

/-- What every step preserves is there to stay. -/
theorem persists (property : State → Prop)
    (hstep : ∀ before label after, machine.next before label = some after → property before →
      property after) {later : ℕ} (hle : time ≤ later) (h : property (execution.states time)) :
    property (execution.states later) := by
  induction later, hle using Nat.le_induction with
  | base => exact h
  | succ later _ ih =>
    cases hlabel : execution.labels later with
    | none => rwa [execution.states_of_no_label hlabel]
    | some label => exact hstep _ label _ (execution.next_of_label hlabel) ih

/-- A label that is possible from some time on occurs. -/
def WeaklyFair (label : Label) : Prop :=
  ∀ time, (∀ later ≥ time, (machine.next (execution.states later) label).isSome) →
    ∃ later ≥ time, execution.labels later = some label

/-- A label occurs if it is possible as long as a property holds, and no other label ends the
property. -/
theorem eventually_occurs (hfair : execution.WeaklyFair label) (property : State → Prop)
    (h : property (execution.states time))
    (henabled : ∀ later ≥ time, property (execution.states later) →
      (machine.next (execution.states later) label).isSome)
    (hstays : ∀ later ≥ time, property (execution.states later) →
      ∀ other after, other ≠ label → machine.next (execution.states later) other = some after →
        property after) :
    ∃ later ≥ time, property (execution.states later) ∧ execution.labels later = some label := by
  by_contra hnever
  have hproperty : ∀ later ≥ time, property (execution.states later) := by
    intro later hle
    induction later, hle using Nat.le_induction with
    | base => exact h
    | succ later hle ih =>
      cases hlabel : execution.labels later with
      | none => rwa [execution.states_of_no_label hlabel]
      | some other =>
        have hother : other ≠ label := fun hsame ↦
          hnever ⟨later, hle, ih, hlabel.trans (congrArg some hsame)⟩
        exact hstays later hle ih other _ hother (execution.next_of_label hlabel)
  obtain ⟨later, hle, hlabel⟩ := hfair time fun later hle ↦ henabled later hle (hproperty later hle)
  exact hnever ⟨later, hle, hproperty later hle, hlabel⟩

def ofRun (labels : List Label) {final : State} (hrun : machine.run initial labels = some final) :
    Execution machine initial where
  states time := (machine.run initial (labels.take time)).getD initial
  labels time := labels[time]?
  states_zero := rfl
  step time := by
    have hprefix : ∀ time, ∃ middle, machine.run initial (labels.take time) = some middle := by
      intro time
      rw [← take_append_drop time labels, machine.run_append] at hrun
      obtain ⟨middle, hmiddle, -⟩ := bind_eq_some_iff.mp hrun
      exact ⟨middle, hmiddle⟩
    obtain ⟨before, hbefore⟩ := hprefix time
    obtain ⟨after, hafter⟩ := hprefix (time + 1)
    rw [hbefore, hafter, getD_some, getD_some]
    cases hlabel : labels[time]? with
    | some label =>
      rw [take_add_one, hlabel, toList_some, machine.run_concat, hbefore] at hafter
      exact hafter
    | none =>
      rw [take_add_one, hlabel, toList_none, append_nil] at hafter
      exact hbefore.symm.trans hafter

/-- The continuation of a finite run is fair to the labels that are impossible at its end. -/
theorem weaklyFair_ofRun (labels : List Label) {final : State}
    (hrun : machine.run initial labels = some final) (hend : machine.next final label = none) :
    (ofRun labels hrun).WeaklyFair label := by
  intro time henabled
  have hlast := henabled (max time labels.length) (le_max_left _ _)
  have hstate : (ofRun labels hrun).states (max time labels.length) = final := by
    have htake : labels.take (max time labels.length) = labels :=
      take_of_length_le (le_max_right _ _)
    simp only [ofRun, htake, hrun, getD_some]
  rw [hstate, hend] at hlast
  nomatch hlast

end Execution

end

end Bridgeport.Foundation
