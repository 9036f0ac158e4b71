import Bridgeport.Backup.Rotation
import Mathlib.Tactic.IntervalCases

/-!
# The calendar behind the day numbers

The date algorithms behind the keys of `periodKey` count the days of the Gregorian calendar, extended
to all years.
`dayNumber` numbers the dates: the day after a date has the next number (`dayNumber_next`), so dates
and their numbers are in the same order (`dayNumber_lt_iff`), and `dateFromDay` finds the date of a
number again (`dayNumber_dateFromDay`).
-/

namespace Bridgeport.Backup

open List

/-- The Gregorian rule for leap years. -/
def IsLeapYear (year : ℤ) : Prop :=
  year % 4 = 0 ∧ (year % 100 ≠ 0 ∨ year % 400 = 0)

instance (year : ℤ) : Decidable (IsLeapYear year) :=
  inferInstanceAs (Decidable (_ ∧ _))

def daysInMonth (year month : ℤ) : ℤ :=
  if month = 2 then if IsLeapYear year then 29 else 28
  else if month ∈ [4, 6, 9, 11] then 30
  else 31

namespace CalendarDate

structure Valid (date : CalendarDate) : Prop where
  one_le_month : 1 ≤ date.month
  month_le : date.month ≤ 12
  one_le_day : 1 ≤ date.day
  day_le : date.day ≤ daysInMonth date.year date.month

/-- The order of dates. -/
def Before (first second : CalendarDate) : Prop :=
  first.year < second.year ∨ first.year = second.year ∧
    (first.month < second.month ∨ first.month = second.month ∧ first.day < second.day)

end CalendarDate

def dayNumber (date : CalendarDate) : ℤ :=
  makeDay date.year (date.month - 1) date.day

/-! ### Years and months -/

variable (year : ℤ)

theorem dayFromYear_succ :
    dayFromYear (year + 1) = dayFromYear year + if IsLeapYear year then 366 else 365 := by
  unfold dayFromYear IsLeapYear
  split_ifs with hleap
  · omega
  · omega

theorem inLeapYear_iff : inLeapYear year = true ↔ IsLeapYear year := by
  unfold inLeapYear
  rw [decide_eq_true_iff, dayFromYear_succ]
  split_ifs with hleap
  · simp [hleap]
  · simp [hleap]

theorem dayFromYear_lt_succ : dayFromYear year < dayFromYear (year + 1) := by
  rw [dayFromYear_succ]
  split_ifs
  · omega
  · omega

theorem dayFromYear_mono {first second : ℤ} (h : first ≤ second) :
    dayFromYear first ≤ dayFromYear second := by
  induction second, h using Int.leInduction with
  | base => exact le_refl _
  | succ second _ ih => exact ih.trans (dayFromYear_lt_succ second).le

theorem daysBeforeMonth_succ {month : ℤ} (hlow : 0 ≤ month) (hhigh : month ≤ 10) :
    daysBeforeMonth year (month + 1) = daysBeforeMonth year month + daysInMonth year (month + 1) := by
  unfold daysBeforeMonth daysInMonth
  simp only [inLeapYear_iff]
  by_cases hleap : IsLeapYear year
  · simp only [hleap, true_and, if_true]
    interval_cases month <;> rfl
  · simp only [hleap, false_and, if_false]
    interval_cases month <;> rfl

theorem daysBeforeMonth_zero : daysBeforeMonth year 0 = 0 := by
  unfold daysBeforeMonth
  simp

theorem dayFromYear_add_december :
    dayFromYear year + daysBeforeMonth year 11 + 31 = dayFromYear (year + 1) := by
  rw [dayFromYear_succ]
  unfold daysBeforeMonth
  simp only [inLeapYear_iff]
  by_cases hleap : IsLeapYear year
  · simp [hleap]
    omega
  · simp [hleap]
    omega

theorem daysInMonth_bounds (month : ℤ) :
    28 ≤ daysInMonth year month ∧ daysInMonth year month ≤ 31 := by
  unfold daysInMonth
  split_ifs <;> omega

/-- Later months begin after the end of earlier ones. -/
theorem daysBeforeMonth_add_le {first second : ℤ} (hfirst : 0 ≤ first) (hlt : first < second)
    (hsecond : second ≤ 11) :
    daysBeforeMonth year first + daysInMonth year (first + 1) ≤ daysBeforeMonth year second := by
  have hle : first + 1 ≤ second := hlt
  induction second, hle using Int.leInduction with
  | base => exact (daysBeforeMonth_succ year hfirst (by omega)).ge
  | succ second hle ih =>
    have hbefore := ih (by omega) (by omega)
    have hdays := daysInMonth_bounds year (second + 1)
    rw [daysBeforeMonth_succ year (by omega) (by omega)]
    omega

theorem daysBeforeMonth_nonneg {month : ℤ} (hlow : 0 ≤ month) (hhigh : month ≤ 11) :
    0 ≤ daysBeforeMonth year month := by
  rcases eq_or_lt_of_le hlow with rfl | hpositive
  · exact (daysBeforeMonth_zero year).ge
  · have hdays := daysInMonth_bounds year (0 + 1)
    have hbefore := daysBeforeMonth_add_le year (le_refl 0) hpositive hhigh
    rw [daysBeforeMonth_zero] at hbefore
    omega

section

variable {date first second : CalendarDate}

theorem dayNumber_eq (hlow : 1 ≤ date.month) (hhigh : date.month ≤ 12) :
    dayNumber date = dayFromYear date.year + daysBeforeMonth date.year (date.month - 1) +
      date.day - 1 := by
  unfold dayNumber makeDay
  rw [Int.ediv_eq_zero_of_lt (by omega) (by omega), Int.emod_eq_of_lt (by omega) (by omega),
    add_zero]

theorem dayFromYear_le_dayNumber (h : date.Valid) : dayFromYear date.year ≤ dayNumber date := by
  have hlow : 0 ≤ date.month - 1 := Int.sub_nonneg_of_le h.one_le_month
  have hmonth := daysBeforeMonth_nonneg date.year hlow (Int.sub_le_sub_right h.month_le 1)
  have hday := h.one_le_day
  rw [dayNumber_eq h.one_le_month h.month_le]
  omega

theorem dayNumber_lt_dayFromYear (h : date.Valid) :
    dayNumber date < dayFromYear (date.year + 1) := by
  have hlow := h.one_le_month
  have hhigh := h.month_le
  have hday := h.day_le
  have hyear := dayFromYear_add_december date.year
  rw [dayNumber_eq hlow hhigh]
  rcases eq_or_lt_of_le hhigh with hdecember | hless
  · rw [hdecember] at hday ⊢
    have hdays : daysInMonth date.year 12 = 31 := rfl
    rw [show (12 : ℤ) - 1 = 11 from rfl]
    omega
  · have hbefore : date.month - 1 < 11 := by omega
    have hmonths := daysBeforeMonth_add_le date.year (Int.sub_nonneg_of_le hlow) hbefore (le_refl 11)
    rw [sub_add_cancel] at hmonths
    omega

section

variable (hfirst : first.Valid) (hsecond : second.Valid)
include hfirst hsecond

/-- Earlier dates have smaller numbers. -/
theorem dayNumber_lt_of_before (h : first.Before second) : dayNumber first < dayNumber second := by
  rcases h with hyear | ⟨hyear, hmonth | ⟨hmonth, hday⟩⟩
  · have hbefore := dayNumber_lt_dayFromYear hfirst
    have hyears := dayFromYear_mono (show first.year + 1 ≤ second.year from hyear)
    exact (hbefore.trans_le hyears).trans_le (dayFromYear_le_dayNumber hsecond)
  · have hlow := hfirst.one_le_month
    have hhigh := hsecond.month_le
    have hdays := hfirst.day_le
    have hone := hsecond.one_le_day
    have hmonths := daysBeforeMonth_add_le first.year (Int.sub_nonneg_of_le hlow)
      (Int.sub_lt_sub_right hmonth 1) (Int.sub_le_sub_right hhigh 1)
    rw [sub_add_cancel] at hmonths
    rw [dayNumber_eq hlow hfirst.month_le, dayNumber_eq hsecond.one_le_month hhigh, ← hyear]
    omega
  · rw [dayNumber_eq hfirst.one_le_month hfirst.month_le,
      dayNumber_eq hsecond.one_le_month hsecond.month_le, ← hyear, ← hmonth]
    omega

theorem dayNumber_lt_iff : dayNumber first < dayNumber second ↔ first.Before second := by
  refine ⟨fun hlt ↦ ?_, dayNumber_lt_of_before hfirst hsecond⟩
  by_contra hnot
  have hcases : first = second ∨ second.Before first := by
    unfold CalendarDate.Before at hnot ⊢
    obtain ⟨firstYear, firstMonth, firstDay⟩ := first
    obtain ⟨secondYear, secondMonth, secondDay⟩ := second
    simp only [CalendarDate.mk.injEq] at hnot ⊢
    omega
  rcases hcases with rfl | hafter
  · exact lt_irrefl _ hlt
  · exact lt_asymm hlt (dayNumber_lt_of_before hsecond hfirst hafter)

theorem dayNumber_inj (h : dayNumber first = dayNumber second) : first = second := by
  have hforth := (dayNumber_lt_iff hfirst hsecond).not.mp h.not_lt
  have hback := (dayNumber_lt_iff hsecond hfirst).not.mp h.not_gt
  unfold CalendarDate.Before at hforth hback
  obtain ⟨firstYear, firstMonth, firstDay⟩ := first
  obtain ⟨secondYear, secondMonth, secondDay⟩ := second
  simp only [CalendarDate.mk.injEq] at hforth hback ⊢
  omega

end

end

variable (day : ℤ)

theorem dayFromYear_yearFromDay :
    dayFromYear (yearFromDay day) ≤ day ∧ day < dayFromYear (yearFromDay day + 1) := by
  have hbefore : dayFromYear (1970 + day * 400 / 146097 - 1) ≤ day := by
    unfold dayFromYear
    omega
  have hafter : day < dayFromYear (1970 + day * 400 / 146097 + 1 + 1) := by
    unfold dayFromYear
    omega
  unfold yearFromDay
  dsimp only
  split_ifs with hearly hlate
  · rw [sub_add_cancel]
    exact ⟨hbefore, hearly⟩
  · exact ⟨hlate, hafter⟩
  · exact ⟨not_lt.mp hearly, not_le.mp hlate⟩

theorem yearFromDay_mono {first second : ℤ} (h : first ≤ second) :
    yearFromDay first ≤ yearFromDay second := by
  by_contra hnot
  have hyears := dayFromYear_mono (show yearFromDay second + 1 ≤ yearFromDay first by omega)
  have hsecond := (dayFromYear_yearFromDay second).2
  have hfirst := (dayFromYear_yearFromDay first).1
  omega

/-! ### The date of a day -/

/-- `getUTCMonth`: the months after January that have begun by the day. -/
def monthFromDay (day : ℤ) : ℤ :=
  (List.range 11).countP fun month ↦
    daysBeforeMonth (yearFromDay day) (month + 1 : ℕ) ≤ day - dayFromYear (yearFromDay day)

/-- `getUTCDate`. -/
def dateInMonth (day : ℤ) : ℤ :=
  day - dayFromYear (yearFromDay day) - daysBeforeMonth (yearFromDay day) (monthFromDay day) + 1

def dateFromDay (day : ℤ) : CalendarDate :=
  ⟨yearFromDay day, monthFromDay day + 1, dateInMonth day⟩

/-- How many values of a monotone sequence behind the first are at most a bound. -/
theorem countP_range_spec {values : ℕ → ℤ} {bound : ℤ} {count : ℕ}
    (hmono : ∀ first second, first ≤ second → second ≤ count → values first ≤ values second)
    (hzero : values 0 ≤ bound) :
    values ((List.range count).countP fun index ↦ values (index + 1) ≤ bound) ≤ bound ∧
      ((List.range count).countP (fun index ↦ values (index + 1) ≤ bound) < count →
        bound < values ((List.range count).countP (fun index ↦ values (index + 1) ≤ bound) + 1)) := by
  induction count with
  | zero => exact ⟨hzero, nofun⟩
  | succ count ih =>
    obtain ⟨hbefore, hafter⟩ := ih fun first second hle hcount ↦
      hmono first second hle (Nat.le_succ_of_le hcount)
    rw [range_succ, countP_append, countP_singleton]
    have hcount := countP_le_length (l := List.range count)
      (p := fun index ↦ decide (values (index + 1) ≤ bound))
    rw [length_range] at hcount
    by_cases hlast : values (count + 1) ≤ bound
    · -- then all the values before the last one are at most the bound too
      have hall : (List.range count).countP (fun index ↦ values (index + 1) ≤ bound) = count := by
        by_contra hne
        have hless := hafter (lt_of_le_of_ne hcount hne)
        have hle := hmono _ (count + 1) (Nat.succ_le_succ hcount) (le_refl _)
        exact absurd (hless.trans_le hle) (not_lt.mpr hlast)
      rw [hall, if_pos (decide_eq_true hlast)]
      exact ⟨hlast, fun hlt ↦ absurd hlt (lt_irrefl _)⟩
    · simp only [hlast, decide_false, Bool.false_eq_true, if_false, add_zero]
      refine ⟨hbefore, fun _ ↦ ?_⟩
      rcases eq_or_lt_of_le hcount with hall | hless
      · rw [hall]
        exact not_le.mp hlast
      · exact hafter hless

theorem daysBeforeMonth_mono {first second : ℕ} (hle : first ≤ second) (hsecond : second ≤ 11) :
    daysBeforeMonth year first ≤ daysBeforeMonth year second := by
  rcases eq_or_lt_of_le hle with rfl | hlt
  · exact le_refl _
  · have hdays := daysInMonth_bounds year (first + 1)
    have hbefore := daysBeforeMonth_add_le year (Int.natCast_nonneg first)
      (Int.ofNat_lt.mpr hlt) (Int.ofNat_le.mpr hsecond)
    omega

/-- The month of a day is the one between whose first days it lies. -/
theorem daysBeforeMonth_monthFromDay : 0 ≤ monthFromDay day ∧ monthFromDay day ≤ 11 ∧
    daysBeforeMonth (yearFromDay day) (monthFromDay day) ≤ day - dayFromYear (yearFromDay day) ∧
      (monthFromDay day < 11 → day - dayFromYear (yearFromDay day) <
        daysBeforeMonth (yearFromDay day) (monthFromDay day + 1)) := by
  have hyear := (dayFromYear_yearFromDay day).1
  have hzero : daysBeforeMonth (yearFromDay day) (0 : ℕ) ≤ day - dayFromYear (yearFromDay day) := by
    rw [Nat.cast_zero, daysBeforeMonth_zero]
    omega
  have hmono : ∀ first second : ℕ, first ≤ second → second ≤ 11 →
      daysBeforeMonth (yearFromDay day) first ≤ daysBeforeMonth (yearFromDay day) second :=
    fun first second hle hsecond ↦ daysBeforeMonth_mono _ hle hsecond
  have hspec := countP_range_spec hmono hzero
  have hcount := countP_le_length (l := List.range 11) (p := fun month ↦ decide
    (daysBeforeMonth (yearFromDay day) (month + 1 : ℕ) ≤ day - dayFromYear (yearFromDay day)))
  refine ⟨Int.natCast_nonneg _, Int.ofNat_le.mpr hcount, hspec.1, fun hless ↦ ?_⟩
  have hnext := hspec.2 (Int.ofNat_lt.mp hless)
  exact hnext

theorem valid_dateFromDay : (dateFromDay day).Valid := by
  obtain ⟨hlow, hhigh, hbegun, hnext⟩ := daysBeforeMonth_monthFromDay day
  have hend := (dayFromYear_yearFromDay day).2
  have hyear := dayFromYear_add_december (yearFromDay day)
  refine ⟨by dsimp only [dateFromDay]; omega, by dsimp only [dateFromDay]; omega,
    by dsimp only [dateFromDay, dateInMonth]; omega, ?_⟩
  dsimp only [dateFromDay, dateInMonth]
  rcases eq_or_lt_of_le hhigh with hdecember | hless
  · rw [hdecember, show daysInMonth (yearFromDay day) (11 + 1) = 31 from rfl]
    omega
  · have hmonth := daysBeforeMonth_succ (yearFromDay day) hlow (by omega)
    have hbefore := hnext hless
    omega

theorem dayNumber_dateFromDay : dayNumber (dateFromDay day) = day := by
  have hvalid := valid_dateFromDay day
  rw [dayNumber_eq hvalid.one_le_month hvalid.month_le]
  dsimp only [dateFromDay, dateInMonth]
  rw [add_sub_cancel_right]
  omega

variable {date : CalendarDate}

theorem dateFromDay_dayNumber (h : date.Valid) : dateFromDay (dayNumber date) = date :=
  dayNumber_inj (valid_dateFromDay _) h (dayNumber_dateFromDay _)

def nextMonth (day : ℤ) : ℤ :=
  makeDay (yearFromDay day) (monthFromDay day + 1) 1

def CalendarDate.nextFirst (date : CalendarDate) : CalendarDate :=
  if date.month < 12 then ⟨date.year, date.month + 1, 1⟩ else ⟨date.year + 1, 1, 1⟩

theorem CalendarDate.Valid.nextFirst (h : date.Valid) : date.nextFirst.Valid := by
  have hlow := h.one_le_month
  have hdays := daysInMonth_bounds date.year (date.month + 1)
  have hjanuary := daysInMonth_bounds (date.year + 1) 1
  unfold CalendarDate.nextFirst
  split_ifs with hmonth
  · exact ⟨by dsimp only; omega, by dsimp only; omega, le_refl 1, by dsimp only; omega⟩
  · exact ⟨le_refl 1, by dsimp only; omega, le_refl 1, by dsimp only; omega⟩

theorem nextMonth_eq : nextMonth day = dayNumber (dateFromDay day).nextFirst := by
  obtain ⟨hlow, hhigh, -, -⟩ := daysBeforeMonth_monthFromDay day
  unfold nextMonth dayNumber CalendarDate.nextFirst dateFromDay
  dsimp only
  split_ifs with hmonth
  · rw [add_sub_cancel_right]
  · have hdecember : monthFromDay day = 11 := by omega
    rw [hdecember]
    dsimp only [makeDay]
    norm_num

theorem lt_nextMonth : day < nextMonth day := by
  have hvalid := valid_dateFromDay day
  have hbefore : (dateFromDay day).Before (dateFromDay day).nextFirst := by
    unfold CalendarDate.nextFirst CalendarDate.Before
    split_ifs <;> dsimp only <;> omega
  have hlt := dayNumber_lt_of_before hvalid hvalid.nextFirst hbefore
  rwa [dayNumber_dateFromDay, ← nextMonth_eq] at hlt

theorem monthFromDay_eq_of_lt_nextMonth {day later : ℤ} (hle : day ≤ later)
    (hlt : later < nextMonth day) : monthFromDay later = monthFromDay day := by
  have hvalid := valid_dateFromDay day
  have hlater := valid_dateFromDay later
  have hbefore : (dateFromDay later).Before (dateFromDay day).nextFirst := by
    rw [← dayNumber_lt_iff hlater hvalid.nextFirst, dayNumber_dateFromDay, ← nextMonth_eq]
    exact hlt
  have hafter : ¬ (dateFromDay later).Before (dateFromDay day) := by
    rw [← dayNumber_lt_iff hlater hvalid, dayNumber_dateFromDay, dayNumber_dateFromDay]
    exact hle.not_gt
  have hlaterLow := hlater.one_le_month
  have hlaterHigh := hlater.month_le
  have hlaterDay := hlater.one_le_day
  unfold CalendarDate.nextFirst CalendarDate.Before at hbefore
  unfold CalendarDate.Before at hafter
  unfold dateFromDay at hbefore hafter hlaterLow hlaterHigh hlaterDay
  dsimp only at hbefore hafter hlaterLow hlaterHigh hlaterDay
  split_ifs at hbefore with hmonth
  · dsimp only at hbefore
    omega
  · dsimp only at hbefore
    omega

/-! ### The period of the calendar -/

theorem dayFromYear_add_period : dayFromYear (year + 400) = dayFromYear year + 146097 := by
  unfold dayFromYear
  omega

theorem isLeapYear_add_period : IsLeapYear (year + 400) ↔ IsLeapYear year := by
  unfold IsLeapYear
  omega

theorem CalendarDate.Valid.addPeriod (h : date.Valid) :
    (CalendarDate.mk (date.year + 400) date.month date.day).Valid := by
  refine ⟨h.one_le_month, h.month_le, h.one_le_day, ?_⟩
  have hday := h.day_le
  unfold daysInMonth at hday ⊢
  simp only [isLeapYear_add_period]
  exact hday

theorem dateFromDay_add_period : dateFromDay (day + 146097) =
    ⟨yearFromDay day + 400, monthFromDay day + 1, dateInMonth day⟩ := by
  have hvalid := valid_dateFromDay day
  have hperiod := hvalid.addPeriod
  have hnumber : dayNumber ⟨yearFromDay day + 400, monthFromDay day + 1, dateInMonth day⟩ =
      day + 146097 := by
    have hbase := dayNumber_dateFromDay day
    rw [dayNumber_eq hvalid.one_le_month hvalid.month_le] at hbase
    refine (dayNumber_eq hperiod.one_le_month hperiod.month_le).trans ?_
    unfold daysBeforeMonth at hbase ⊢
    simp only [inLeapYear_iff, isLeapYear_add_period, dayFromYear_add_period] at hbase ⊢
    omega
  rw [← hnumber]
  exact dateFromDay_dayNumber hperiod

theorem monthFromDay_add_period : monthFromDay (day + 146097) = monthFromDay day := by
  have hmonth := congrArg CalendarDate.month (dateFromDay_add_period day)
  exact add_right_cancel hmonth

theorem dateInMonth_add_period : dateInMonth (day + 146097) = dateInMonth day :=
  congrArg CalendarDate.day (dateFromDay_add_period day)

theorem weekDay_add_period : weekDay (day + 146097) = weekDay day := by
  unfold weekDay
  omega

end Bridgeport.Backup
