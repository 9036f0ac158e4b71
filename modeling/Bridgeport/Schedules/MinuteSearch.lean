import Bridgeport.Foundation.SkipSearch
import Mathlib

/-!
# Searching the minutes of a calendar

The minutes of a local time are numbered, and with them the hours and the days. A rule says which
months, days, hours and minutes match, where `nextMonth` skips the rest of a month. `MinuteRules`
collects what the search needs to know: a month matches as a whole, and the rules repeat after a
period of days.
-/

namespace Bridgeport.Schedules

open Foundation Option Finset Bool

/-- Which minutes match. Months and days are given by the number of a day. -/
structure MinuteRules where
  (monthMatch dayMatch hourMatch minuteMatch : ℤ → Bool)
  nextMonth : ℤ → ℤ
  lt_nextMonth (day : ℤ) : day < nextMonth day
  monthMatch_eq {day later : ℤ} : day ≤ later → later < nextMonth day →
    monthMatch later = monthMatch day
  period : ℕ
  period_pos : 0 < period
  monthMatch_sub (day : ℤ) : monthMatch (day - period) = monthMatch day
  dayMatch_sub (day : ℤ) : dayMatch (day - period) = dayMatch day

namespace MinuteRules

variable (rules : MinuteRules)

structure Matches (minute : ℤ) : Prop where
  month : rules.monthMatch (minute / 1440) = true
  day : rules.dayMatch (minute / 1440) = true
  hour : rules.hourMatch (minute / 60 % 24) = true
  minute : rules.minuteMatch (minute % 60) = true

def step (minute : ℤ) : Option ℤ :=
  if rules.monthMatch (minute / 1440) = false then some (rules.nextMonth (minute / 1440) * 1440)
  else if rules.dayMatch (minute / 1440) = false then some ((minute / 1440 + 1) * 1440)
  else if rules.hourMatch (minute / 60 % 24) = false then some ((minute / 60 + 1) * 60)
  else if rules.minuteMatch (minute % 60) = false then some (minute + 1)
  else none

inductive StepKind (minute : ℤ) : ℤ → Prop
  | month : rules.monthMatch (minute / 1440) = false →
      StepKind minute (rules.nextMonth (minute / 1440) * 1440)
  | day : rules.dayMatch (minute / 1440) = false → StepKind minute ((minute / 1440 + 1) * 1440)
  | hour : rules.monthMatch (minute / 1440) = true → rules.dayMatch (minute / 1440) = true →
      rules.hourMatch (minute / 60 % 24) = false → StepKind minute ((minute / 60 + 1) * 60)
  | minute : rules.monthMatch (minute / 1440) = true → rules.dayMatch (minute / 1440) = true →
      rules.hourMatch (minute / 60 % 24) = true → rules.minuteMatch (minute % 60) = false →
      StepKind minute (minute + 1)

variable {rules} {minute later other start target : ℤ}

theorem step_eq_none_iff : rules.step minute = none ↔ rules.Matches minute := by
  unfold step
  constructor
  · intro h
    split_ifs at h with hmonth hday hhour hminute
    simp only [not_eq_false] at hmonth hday hhour hminute
    exact ⟨hmonth, hday, hhour, hminute⟩
  · intro ⟨hmonth, hday, hhour, hminute⟩
    simp [hmonth, hday, hhour, hminute]

theorem stepKind_of_step (h : rules.step minute = some later) : rules.StepKind minute later := by
  unfold step at h
  split_ifs at h with hmonth hday hhour hminute
  · rw [← some.inj h]
    exact .month hmonth
  · rw [← some.inj h]
    exact .day hday
  · rw [← some.inj h]
    exact .hour (not_eq_false _ ▸ hmonth) (not_eq_false _ ▸ hday) hhour
  · rw [← some.inj h]
    exact .minute (not_eq_false _ ▸ hmonth) (not_eq_false _ ▸ hday) (not_eq_false _ ▸ hhour) hminute

theorem StepKind.lt (h : rules.StepKind minute later) : minute < later := by
  cases h with
  | month _ =>
    have hnext := rules.lt_nextMonth (minute / 1440)
    omega
  | day _ | hour _ _ _ | minute _ _ _ _ => omega

theorem StepKind.not_matches (h : rules.StepKind minute later) (hle : minute ≤ other)
    (hlt : other < later) : ¬ rules.Matches other := by
  intro hmatches
  cases h with
  | month hmonth =>
    have hinside : other / 1440 < rules.nextMonth (minute / 1440) := by omega
    have hsame := rules.monthMatch_eq (Int.ediv_le_ediv (by decide) hle) hinside
    exact absurd (hsame.symm.trans hmatches.month) (by simp [hmonth])
  | day hday =>
    have hsame : other / 1440 = minute / 1440 := by omega
    exact absurd (hsame ▸ hmatches.day) (by simp [hday])
  | hour _ _ hhour =>
    have hsame : other / 60 = minute / 60 := by omega
    exact absurd (hsame ▸ hmatches.hour) (by simp [hhour])
  | minute _ _ _ hminute =>
    have hsame : other = minute := by omega
    exact absurd (hsame ▸ hmatches.minute) (by simp [hminute])

theorem skips (rules : MinuteRules) : Skips rules.step where
  lt hstep := (stepKind_of_step hstep).lt
  passes hstep hle hlt hnone :=
    (stepKind_of_step hstep).not_matches hle hlt (step_eq_none_iff.mp hnone)

/-! ### The number of steps -/

def FirstMatch (rules : MinuteRules) (start target : ℤ) : Prop :=
  IsLeast {minute | start ≤ minute ∧ rules.Matches minute} target

/-- The days to go, the hours to go on the first and on the last day, and the minutes to go in the
first and in the last hour. -/
noncomputable def rank (start target current : ℤ) : ℕ :=
  ((Finset.Ico (current / 1440) (target / 1440)).filter fun _ ↦ True).card +
    ((Finset.Ico (current / 60) (target / 60)).filter
      fun hour ↦ hour / 24 = start / 1440 ∨ hour / 24 = target / 1440).card +
    ((Finset.Ico current target).filter
      fun minute ↦ minute / 60 = start / 60 ∨ minute / 60 = target / 60).card

section

variable (h : rules.FirstMatch start target) (hstart : start ≤ minute) (htarget : minute ≤ target)
  (hmonth : rules.monthMatch (minute / 1440) = true) (hday : rules.dayMatch (minute / 1440) = true)
include h hstart htarget hmonth hday

theorem FirstMatch.day_eq : minute / 1440 = start / 1440 ∨ minute / 1440 = target / 1440 := by
  by_contra hnot
  -- on a day between, the hour and the minute of the target would have matched before
  have hmatches : rules.Matches (minute / 1440 * 1440 + target % 1440) := by
    refine ⟨?_, ?_, ?_, ?_⟩
    · rwa [show (minute / 1440 * 1440 + target % 1440) / 1440 = minute / 1440 by omega]
    · rwa [show (minute / 1440 * 1440 + target % 1440) / 1440 = minute / 1440 by omega]
    · rw [show (minute / 1440 * 1440 + target % 1440) / 60 % 24 = target / 60 % 24 by omega]
      exact h.1.2.hour
    · rw [show (minute / 1440 * 1440 + target % 1440) % 60 = target % 60 by omega]
      exact h.1.2.minute
  have hleast := h.2 ⟨by omega, hmatches⟩
  omega

theorem FirstMatch.hour_eq (hhour : rules.hourMatch (minute / 60 % 24) = true) :
    minute / 60 = start / 60 ∨ minute / 60 = target / 60 := by
  by_contra hnot
  have hmatches : rules.Matches (minute / 60 * 60 + target % 60) := by
    refine ⟨?_, ?_, ?_, ?_⟩
    · rwa [show (minute / 60 * 60 + target % 60) / 1440 = minute / 1440 by omega]
    · rwa [show (minute / 60 * 60 + target % 60) / 1440 = minute / 1440 by omega]
    · rwa [show (minute / 60 * 60 + target % 60) / 60 = minute / 60 by omega]
    · rw [show (minute / 60 * 60 + target % 60) % 60 = target % 60 by omega]
      exact h.1.2.minute
  have hleast := h.2 ⟨by omega, hmatches⟩
  omega

end

theorem rank_lt (h : rules.FirstMatch start target) (hstart : start ≤ minute)
    (htarget : later ≤ target) (hstep : rules.step minute = some later) :
    rank start target later < rank start target minute := by
  have hkind := stepKind_of_step hstep
  have hlt := hkind.lt
  have hdays := card_filter_Ico_le (fun _ ↦ True) (target / 1440)
    (Int.ediv_le_ediv (c := 1440) (by decide) hlt.le)
  have hhours := card_filter_Ico_le
    (fun hour ↦ hour / 24 = start / 1440 ∨ hour / 24 = target / 1440) (target / 60)
    (Int.ediv_le_ediv (c := 60) (by decide) hlt.le)
  have hminutes := card_filter_Ico_le
    (fun minute ↦ minute / 60 = start / 60 ∨ minute / 60 = target / 60) target hlt.le
  unfold rank
  cases hkind with
  | month _ =>
    have hnext := rules.lt_nextMonth (minute / 1440)
    have hahead : minute / 1440 < rules.nextMonth (minute / 1440) * 1440 / 1440 := by omega
    have hless := card_filter_Ico_lt (fun _ ↦ True) hahead
      (show minute / 1440 < target / 1440 by omega) trivial
    omega
  | day _ =>
    have hahead : minute / 1440 < (minute / 1440 + 1) * 1440 / 1440 := by omega
    have hless := card_filter_Ico_lt (fun _ ↦ True) hahead
      (show minute / 1440 < target / 1440 by omega) trivial
    omega
  | hour hmonth hday _ =>
    have hends := h.day_eq hstart (hlt.le.trans htarget) hmonth hday
    have hahead : minute / 60 < (minute / 60 + 1) * 60 / 60 := by omega
    have hless := card_filter_Ico_lt
      (fun hour ↦ hour / 24 = start / 1440 ∨ hour / 24 = target / 1440) hahead
      (show minute / 60 < target / 60 by omega) (by omega)
    omega
  | minute hmonth hday hhour _ =>
    have hends := h.hour_eq hstart (hlt.le.trans htarget) hmonth hday hhour
    have hless := card_filter_Ico_lt
      (fun minute ↦ minute / 60 = start / 60 ∨ minute / 60 = target / 60) hlt
      (hlt.trans_le htarget) hends
    omega

/-- The elements of an interval that fall into one of two blocks of a length. -/
theorem card_blocks_le {length : ℤ} (first last lower upper : ℤ) (hlength : 0 < length) :
    ((Finset.Ico lower upper).filter
      fun element ↦ element / length = first ∨ element / length = last).card ≤
        2 * length.toNat := by
  have hsubset : ((Finset.Ico lower upper).filter
      fun element ↦ element / length = first ∨ element / length = last) ⊆
        Finset.Ico (first * length) (first * length + length) ∪
          Finset.Ico (last * length) (last * length + length) := by
    intro element helement
    simp only [Finset.mem_filter, mem_union, mem_Ico] at helement ⊢
    have hlow := Int.ediv_mul_le element hlength.ne'
    have hhigh := Int.lt_ediv_add_one_mul_self element hlength
    rw [add_mul, one_mul] at hhigh
    rcases helement.2 with hfirst | hlast
    · exact .inl (hfirst ▸ ⟨hlow, hhigh⟩)
    · exact .inr (hlast ▸ ⟨hlow, hhigh⟩)
  have hunion := (card_le_card hsubset).trans (card_union_le _ _)
  rw [Int.card_Ico, Int.card_Ico] at hunion
  omega

section

variable (h : rules.FirstMatch start target)

include h

theorem FirstMatch.days_le : target / 1440 - start / 1440 ≤ rules.period := by
  have hpositive := rules.period_pos
  by_contra hfar
  have hday : (target - rules.period * 1440) / 1440 = target / 1440 - rules.period := by omega
  -- a period earlier there is a match too
  have hmatches : rules.Matches (target - rules.period * 1440) := by
    refine ⟨?_, ?_, ?_, ?_⟩
    · rw [hday, rules.monthMatch_sub]
      exact h.1.2.month
    · rw [hday, rules.dayMatch_sub]
      exact h.1.2.day
    · rw [show (target - rules.period * 1440) / 60 % 24 = target / 60 % 24 by omega]
      exact h.1.2.hour
    · rw [show (target - rules.period * 1440) % 60 = target % 60 by omega]
      exact h.1.2.minute
  have hleast := h.2 ⟨by omega, hmatches⟩
  omega

theorem rank_le : rank start target start ≤ rules.period + 168 := by
  have hdays : ((Finset.Ico (start / 1440) (target / 1440)).filter fun _ ↦ True).card ≤
      rules.period := by
    have hperiod := h.days_le
    rw [Finset.filter_true, Int.card_Ico]
    omega
  have hhours := card_blocks_le (start / 1440) (target / 1440) (start / 60) (target / 60)
    (show (0 : ℤ) < 24 by decide)
  have hminutes := card_blocks_le (start / 60) (target / 60) start target
    (show (0 : ℤ) < 60 by decide)
  have htwenty : (24 : ℤ).toNat = 24 := rfl
  have hsixty : (60 : ℤ).toNat = 60 := rfl
  unfold rank
  omega

/-- A search that is allowed more turns than the period has days finds the first match. -/
theorem FirstMatch.search_eq {turns : ℕ} (hturns : rules.period + 168 < turns) :
    search rules.step turns start = some target := by
  have hleast : IsLeast {minute | start ≤ minute ∧ rules.step minute = none} target := by
    simp only [step_eq_none_iff]
    exact h
  exact search_eq_of_isLeast rules.skips hleast
    (fun _ _ hstart htarget hstep ↦ rank_lt h hstart htarget hstep)
    ((rank_le h).trans_lt hturns)

end

theorem exists_firstMatch (hstart : start ≤ minute) (hmatches : rules.Matches minute) :
    ∃ target, rules.FirstMatch start target := by
  obtain ⟨target, htarget, hleast⟩ := Int.exists_least_of_bdd
    (P := fun minute ↦ start ≤ minute ∧ rules.Matches minute)
    ⟨start, fun _ hother ↦ hother.1⟩ ⟨minute, hstart, hmatches⟩
  exact ⟨target, htarget, hleast⟩

end MinuteRules

end Bridgeport.Schedules
