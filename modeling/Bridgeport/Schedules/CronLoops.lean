import Bridgeport.Schedules.CronText
import Mathlib.Data.Rat.Floor

/-!
# The loops of a cron field

`parseCronField` turn by turn. `Number` is any function: the ends of a range may be fractions,
infinite or `NaN`. A schedule is accepted with any text that is not empty, so that every text may be
a field.
-/

namespace Bridgeport.Schedules.CronLoops

open Secrets Cron List

/-! ### Loops -/

inductive Value
  | nan
  | infinite (positive : Bool)
  | finite (value : ℚ)

namespace Value

/-- `left <= right`. -/
def le : Value → Value → Bool
  | nan, _ => false
  | _, nan => false
  | infinite false, _ => true
  | _, infinite true => true
  | finite left, finite right => left ≤ right
  | _, _ => false

def ofInt : Option ℤ → Value
  | none => nan
  | some value => finite value

/-- `value += step`. -/
def advance : Value → Option ℤ → Value
  | _, none => nan
  | nan, some _ => nan
  | infinite positive, some _ => infinite positive
  | finite value, some step => finite (value + step)

def InRange (min max : ℤ) (value : Value) : Prop :=
  ∃ number : ℤ, value = finite number ∧ min ≤ number ∧ number ≤ max

end Value

open Value

/-- `for (let i = start; i <= stop; i += step) values.add(i)`, if it ends within the fuel. -/
def loop (stop : Value) (step : Option ℤ) : ℕ → Value → Option (List Value)
  | 0, _ => none
  | fuel + 1, i =>
    if i.le stop then (loop stop step fuel (i.advance step)).map (i :: ·) else some []

section

variable (number : Text → Value)

def partValues (min max : ℤ) (fuel : ℕ) (part : Text) : Option (List Value) :=
  match partLoop number ofInt min max part with
  | some (start, stop, step) => loop stop step fuel start
  | none => some [ofInt (parseInt part)]

/-- The loop over each part has its own fuel. -/
def parseCronField (field : Text) (min max : ℤ) (fuel : Text → ℕ) : Option (List Value) :=
  ((field.splitOn ',').mapM fun part ↦ partValues number min max (fuel part) part).map flatten

/-- With enough fuel, there is a result and its values satisfy the property. -/
def Adds {Fuel : Type} (P : Value → Prop) (result : Fuel → Option (List Value)) : Prop :=
  ∃ fuel values, result fuel = some values ∧ ∀ value ∈ values, P value

/-- The last value of a loop. -/
def lastTurn (first last : ℚ) (step : ℤ) : ℚ :=
  first + ⌊(last - first) / step⌋ * step

/-- The loop makes no turn, or it begins with an integer that is not too small, and either makes no
second turn or ends by steps upwards before the values are too large. -/
def LoopFits (min max : ℤ) (start stop : Value) (step : Option ℤ) : Prop :=
  start.le stop = true → ∃ first : ℤ, start = finite first ∧ min ≤ first ∧
    match step with
    | none => first ≤ max
    | some step => 0 < step ∧ ∃ last, stop = finite last ∧ lastTurn first last step ≤ max

def PartFits (min max : ℤ) (part : Text) : Prop :=
  match partLoop number ofInt min max part with
  | some (start, stop, step) => LoopFits min max start stop step
  | none => ∃ value, parseInt part = some value ∧ min ≤ value ∧ value ≤ max

end

/-! ### Loops turn by turn -/

variable {P : Value → Prop} {stop : Value} {step : Option ℤ}

theorem adds_loop_iff (start : Value) : Adds P (loop stop step · start) ↔
    (start.le stop = true → P start ∧ Adds P (loop stop step · (start.advance step))) := by
  constructor
  · rintro ⟨fuel, values, hvalues, hmem⟩ hle
    cases fuel with
    | zero => cases hvalues
    | succ fuel =>
      simp only [loop, hle, if_true] at hvalues
      obtain ⟨rest, hrest, rfl⟩ := Option.map_eq_some_iff.mp hvalues
      obtain ⟨hstart, hmem⟩ := forall_mem_cons.mp hmem
      exact ⟨hstart, fuel, rest, hrest, hmem⟩
  · intro h
    by_cases hle : start.le stop = true
    · obtain ⟨hstart, fuel, rest, hrest, hmem⟩ := h hle
      refine ⟨fuel + 1, start :: rest, ?_, forall_mem_cons.mpr ⟨hstart, hmem⟩⟩
      simp only [loop, hle, if_true, hrest, Option.map_some]
    · exact ⟨1, [], if_neg hle, by simp⟩

section

variable {min max first step : ℤ} {last : ℚ}

theorem floor_advance (hstep : 0 < step) :
    ⌊(last - (first + step : ℤ)) / step⌋ = ⌊(last - first) / step⌋ - 1 := by
  have hne : (step : ℚ) ≠ 0 := by exact_mod_cast hstep.ne'
  rw [← Int.floor_sub_one]
  congr 1
  push_cast
  field_simp
  ring

theorem lastTurn_advance (hstep : 0 < step) :
    lastTurn ((first + step : ℤ) : ℚ) last step = lastTurn first last step := by
  unfold lastTurn
  rw [floor_advance hstep]
  push_cast
  ring

theorem advance_finite : (finite first).advance (some step) = finite ((first + step : ℤ) : ℚ) := by
  rw [advance]
  push_cast
  rfl

/-- A loop that steps upwards ends: the quotient of the distance falls by one in each turn. -/
theorem adds_of_lastTurn (hstep : 0 < step) (turns : ℕ) (hmin : min ≤ first)
    (hlast : lastTurn first last step ≤ max) (hturns : ⌊(last - first) / step⌋ < turns) :
    Adds (InRange min max) (loop (finite last) (some step) · (finite first)) := by
  have hpositive : (0 : ℚ) < step := by exact_mod_cast hstep
  induction turns generalizing first with
  | zero =>
    refine (adds_loop_iff _).mpr fun hle ↦ ?_
    have hle : (first : ℚ) ≤ last := by simpa [le] using hle
    exact absurd hturns (not_lt.mpr (Int.floor_nonneg.mpr
      (div_nonneg (sub_nonneg.mpr hle) hpositive.le)))
  | succ turns ih =>
    refine (adds_loop_iff _).mpr fun hle ↦ ⟨⟨first, rfl, hmin, ?_⟩, ?_⟩
    · have hle : (first : ℚ) ≤ last := by simpa [le] using hle
      have hfloor := Int.floor_nonneg.mpr (div_nonneg (sub_nonneg.mpr hle) hpositive.le)
      have hadded : (0 : ℚ) ≤ ⌊(last - first) / step⌋ * step :=
        mul_nonneg (by exact_mod_cast hfloor) hpositive.le
      unfold lastTurn at hlast
      exact_mod_cast (by linarith : (first : ℚ) ≤ max)
    · rw [advance_finite]
      refine ih (by omega) (by rwa [lastTurn_advance hstep]) ?_
      rw [floor_advance hstep]
      push_cast at hturns
      omega

/-- A loop that ends steps upwards to a finite end. -/
theorem lastTurn_of_loop (fuel : ℕ) {values : List Value} (hle : (finite first).le stop = true)
    (hvalues : loop stop (some step) fuel (finite first) = some values)
    (hmem : ∀ value ∈ values, InRange min max value) :
    0 < step ∧ ∃ last, stop = finite last ∧ lastTurn first last step ≤ max := by
  induction fuel generalizing first values with
  | zero => cases hvalues
  | succ fuel ih =>
    rw [loop, if_pos hle, advance_finite] at hvalues
    obtain ⟨rest, hrest, rfl⟩ := Option.map_eq_some_iff.mp hvalues
    obtain ⟨⟨number, hnumber, -, hmax⟩, hmem⟩ := forall_mem_cons.mp hmem
    by_cases hnext : (finite ((first + step : ℤ) : ℚ)).le stop = true
    · obtain ⟨hstep, last, hstop, hlast⟩ := ih hnext hrest hmem
      exact ⟨hstep, last, hstop, by rwa [lastTurn_advance hstep] at hlast⟩
    · match stop with
      | nan => cases hle
      | infinite false => cases hle
      | infinite true => exact absurd rfl hnext
      | finite last =>
        have hle : (first : ℚ) ≤ last := by simpa [le] using hle
        have hnext : last < first + step := by simpa [le] using hnext
        have hpositive : (0 : ℚ) < step := by linarith
        have hfloor : ⌊(last - first) / step⌋ = 0 :=
          Int.floor_eq_zero_iff.mpr ⟨div_nonneg (sub_nonneg.mpr hle) hpositive.le,
            (div_lt_one hpositive).mpr (by linarith)⟩
        refine ⟨by exact_mod_cast hpositive, last, rfl, ?_⟩
        have hfirst : (first : ℚ) = number := Value.finite.inj hnumber
        rw [lastTurn, hfloor, Int.cast_zero, zero_mul, add_zero, hfirst]
        exact_mod_cast hmax

end

theorem adds_loop_inRange_iff (min max : ℤ) (start : Value) :
    Adds (InRange min max) (loop stop step · start) ↔ LoopFits min max start stop step := by
  constructor
  · intro hadds hle
    obtain ⟨fuel, values, hvalues, hmem⟩ := hadds
    obtain ⟨⟨first, rfl, hmin, hmax⟩, -⟩ :=
      (adds_loop_iff start).mp ⟨fuel, values, hvalues, hmem⟩ hle
    refine ⟨first, rfl, hmin, ?_⟩
    cases step with
    | none => exact hmax
    | some step => exact lastTurn_of_loop fuel hle hvalues hmem
  · intro hfits
    by_cases hle : start.le stop = true
    · obtain ⟨first, rfl, hmin, hrest⟩ := hfits hle
      cases step with
      | none =>
        refine (adds_loop_iff _).mpr fun _ ↦ ⟨⟨first, rfl, hmin, hrest⟩, ?_⟩
        exact (adds_loop_iff _).mpr fun hnan ↦ absurd hnan (by simp [advance, le])
      | some step =>
        obtain ⟨hstep, last, rfl, hlast⟩ := hrest
        have hturns : ⌊(last - first) / step⌋ < ((⌊(last - first) / step⌋ + 1).toNat : ℤ) := by
          omega
        exact adds_of_lastTurn hstep _ hmin hlast hturns
    · exact (adds_loop_iff start).mpr fun h ↦ absurd h hle

section

variable {number : Text → Value} {min max : ℤ}

theorem adds_part_iff (part : Text) :
    Adds (InRange min max) (partValues number min max · part) ↔ PartFits number min max part := by
  unfold partValues PartFits
  match partLoop number ofInt min max part with
  | some (start, stop, step) => exact adds_loop_inRange_iff min max start
  | none =>
    constructor
    · rintro ⟨_, values, hvalues, hmem⟩
      cases hvalues
      obtain ⟨value, hvalue, hrange⟩ := hmem _ mem_cons_self
      cases hpart : parseInt part with
      | none => rw [hpart] at hvalue; cases hvalue
      | some read =>
        rw [hpart] at hvalue
        have hread : read = value := by exact_mod_cast Value.finite.inj hvalue
        exact ⟨read, rfl, hread ▸ hrange⟩
    · rintro ⟨value, hvalue, hrange⟩
      refine ⟨0, _, rfl, fun added hadded ↦ ?_⟩
      rw [mem_singleton.mp hadded, hvalue]
      exact ⟨value, rfl, hrange⟩

theorem exists_mapM_iff (read : Text → Option (List Value)) (parts : List Text) :
    (∃ values, (parts.mapM read).map flatten = some values ∧ ∀ value ∈ values, P value) ↔
      ∀ part ∈ parts, ∃ values, read part = some values ∧ ∀ value ∈ values, P value := by
  induction parts with
  | nil => simp
  | cons part parts ih =>
    rw [forall_mem_cons, ← ih]
    cases hpart : read part with
    | none => simp [mapM_cons, hpart]
    | some values =>
      cases hparts : parts.mapM read with
      | none => simp [mapM_cons, hpart, hparts]
      | some lists => simp [mapM_cons, hpart, hparts, or_imp, forall_and]

/-- The loops end and every value is in range if and only if the parts of the field fit. -/
theorem parseCronField_inRange_iff (number : Text → Value) (field : Text) (min max : ℤ) :
    Adds (InRange min max) (parseCronField number field min max) ↔
      ∀ part ∈ field.splitOn ',', PartFits number min max part := by
  unfold Adds parseCronField
  simp only [exists_mapM_iff, ← adds_part_iff]
  constructor
  · rintro ⟨fuel, h⟩ part hpart
    exact ⟨fuel part, h part hpart⟩
  · intro h
    classical
    choose fuel hfuel using h
    refine ⟨fun part ↦ if hpart : part ∈ field.splitOn ',' then fuel part hpart else 0, ?_⟩
    intro part hpart
    simpa only [dif_pos hpart] using hfuel part hpart

end

/-- The minutes `*/0` are never read: the loop stays at 0. -/
theorem not_parseCronField_zeroStep : ¬ Adds (InRange 0 59)
    (parseCronField (fun text ↦ ofInt (number text)) ['*', '/', '0'] 0 59) := by
  rintro ⟨fuel, h⟩
  have hpart := (exists_mapM_iff _ _).mp h ['*', '/', '0'] (by decide)
  obtain ⟨first, -, -, hstep, -⟩ := (adds_part_iff _).mp ⟨fuel _, hpart⟩ rfl
  exact absurd hstep (by decide)

end Bridgeport.Schedules.CronLoops
