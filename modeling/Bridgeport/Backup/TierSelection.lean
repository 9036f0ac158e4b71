import Bridgeport.Backup.CalendarDays
import Bridgeport.Backup.RotationSettles
import Bridgeport.Foundation.Numerals

/-!
# Tier selection by the calendar

`selectKeep` sorts the buckets of a period by their keys. The keys are in the order of the calendar
(`periodKey_lt_iff`), so a tier keeps a bucket exactly if fewer than `count` of the buckets that
the candidates lie in are later (`mem_keptKeys_iff`), and from each bucket the candidate that no
other candidate of the bucket precedes: the newest one, and of several at one instant the one that
is listed first. `mem_selectKeep_iff_selected` puts the tiers together. A week is named by the year
of its Thursday and the number of this Thursday in the year, which are in the order of the weeks.

Assumes: the platform shows every candidate at a date of the calendar, in a year of four digits.
-/

namespace Bridgeport.Backup

open Foundation List

/-! ### Week keys and weeks -/

variable (monday day : ℤ)

section

def mondayOf : ℤ :=
  7 * ((day + 3) / 7) - 3

/-- Two dates lie in one week from a Monday to a Sunday. -/
def SameWeek (first second : CalendarDate) : Prop :=
  ∃ monday, weekDay monday = 1 ∧
    (monday ≤ dayNumber first ∧ dayNumber first ≤ monday + 6) ∧
    monday ≤ dayNumber second ∧ dayNumber second ≤ monday + 6

def CalendarDate.FourDigits (date : CalendarDate) : Prop :=
  1000 ≤ date.year ∧ date.year ≤ 9999

theorem sameWeek_iff (first second : CalendarDate) :
    SameWeek first second ↔ mondayOf (dayNumber first) = mondayOf (dayNumber second) := by
  unfold SameWeek weekDay mondayOf
  constructor
  · rintro ⟨monday, hmonday, hfirst, hsecond⟩
    omega
  · intro hsame
    exact ⟨7 * ((dayNumber first + 3) / 7) - 3, by omega, by omega, by omega⟩

/-- The Thursday to which `isoWeekKey` shifts a day. -/
theorem thursday_eq :
    day + (4 - if weekDay day = 0 then 7 else weekDay day) = mondayOf day + 3 := by
  unfold weekDay mondayOf
  split_ifs with hsunday
  · omega
  · omega

def isoYear : ℤ :=
  yearFromDay (monday + 3)

def isoWeek : ℤ :=
  (monday + 3 - dayFromYear (isoYear monday)) / 7 + 1

theorem isoWeek_bounds : 1 ≤ isoWeek monday ∧ isoWeek monday ≤ 53 := by
  obtain ⟨hbegin, hend⟩ := dayFromYear_yearFromDay (monday + 3)
  have hyear := dayFromYear_succ (isoYear monday)
  unfold isoWeek
  change dayFromYear (isoYear monday) ≤ monday + 3 at hbegin
  change monday + 3 < dayFromYear (isoYear monday + 1) at hend
  split_ifs at hyear
  · omega
  · omega

theorem isoWeek_lt_iff {first second : ℤ} (hfirst : weekDay first = 1) (hsecond : weekDay second = 1) :
    isoYear first < isoYear second ∨
      isoYear first = isoYear second ∧ isoWeek first < isoWeek second ↔ first < second := by
  have hforth : ∀ {a b : ℤ}, weekDay a = 1 → weekDay b = 1 → a < b →
      isoYear a < isoYear b ∨ isoYear a = isoYear b ∧ isoWeek a < isoWeek b := by
    intro a b ha hb hlt
    have hyear : isoYear a ≤ isoYear b := yearFromDay_mono (by omega)
    rcases eq_or_lt_of_le hyear with hsame | hless
    · refine Or.inr ⟨hsame, ?_⟩
      unfold weekDay at ha hb
      unfold isoWeek
      rw [hsame]
      omega
    · exact Or.inl hless
  refine ⟨fun hkeys ↦ ?_, hforth hfirst hsecond⟩
  rcases lt_trichotomy first second with hless | hsame | hgreater
  · exact hless
  · rw [hsame] at hkeys
    omega
  · have hback := hforth hsecond hfirst hgreater
    omega

theorem weekDay_mondayOf : weekDay (mondayOf day) = 1 := by
  unfold weekDay mondayOf
  omega

variable {date : CalendarDate}

/-- The year of the key has four digits with the date: 1 January 1000 and 31 December 9999 lie in
weeks whose Thursday is in the same year. -/
theorem isoYear_bounds (h : date.Valid) (hyear : date.FourDigits) :
    1000 ≤ isoYear (mondayOf (dayNumber date)) ∧ isoYear (mondayOf (dayNumber date)) ≤ 9999 := by
  have hlow : dayFromYear 1000 ≤ mondayOf (dayNumber date) + 3 := by
    have hbegin := (dayFromYear_mono hyear.1).trans (dayFromYear_le_dayNumber h)
    have hnumber : dayFromYear 1000 = -354285 := rfl
    unfold mondayOf
    omega
  have hhigh : mondayOf (dayNumber date) + 3 < dayFromYear 10000 := by
    have hend := (dayNumber_lt_dayFromYear h).trans_le
      (dayFromYear_mono (show date.year + 1 ≤ 10000 by have := hyear.2; omega))
    have hnumber : dayFromYear 10000 = 2932897 := rfl
    unfold mondayOf
    omega
  constructor
  · exact yearFromDay_mono hlow
  · have hlast : yearFromDay (dayFromYear 10000 - 1) = 9999 := by decide
    rw [← hlast]
    exact yearFromDay_mono (by omega)

/-! ### The texts -/

theorem toList_toString {year : ℤ} (hlow : 1000 ≤ year) (hhigh : year ≤ 9999) :
    (toString year).toList = digitsOf 4 year.toNat := by
  obtain ⟨n, rfl⟩ := Int.eq_ofNat_of_zero_le (show 0 ≤ year by omega)
  show (Nat.repr n).toList = digitsOf 4 n
  rw [Nat.toList_repr]
  exact toDigits_eq_digitsOf (by omega) (by omega)

theorem toList_padTwo {n : ℤ} (hlow : 0 ≤ n) (hhigh : n ≤ 99) :
    (padTwo n).toList = digitsOf 2 n.toNat := by
  obtain ⟨n, rfl⟩ := Int.eq_ofNat_of_zero_le hlow
  have htext : (toString (n : ℤ)).toList = Nat.toDigits 10 n := Nat.toList_repr
  unfold padTwo
  rw [← String.length_toList, htext]
  show _ = digitsOf 2 n
  rcases Nat.lt_or_ge n 10 with hone | htwo
  · rw [Nat.toDigits_of_lt_base hone, if_pos (by simp), String.toList_append, htext,
      Nat.toDigits_of_lt_base hone, digitsOf, digitsOf, digitsOf, Nat.div_eq_of_lt hone,
      Nat.mod_eq_of_lt hone]
    rfl
  · have hdigits : Nat.toDigits 10 n = digitsOf 2 n := toDigits_eq_digitsOf (by omega) (by omega)
    rw [hdigits, length_digitsOf, if_neg (by omega), htext, hdigits]

/-- Years after the first century stand for themselves. -/
theorem dateUTC_eq {year : ℤ} (h : 1000 ≤ year) (month day : ℤ) :
    dateUTC year month day = makeDay year month day := by
  unfold dateUTC makeFullYear
  rw [if_neg (by omega)]

theorem makeDay_jan1 (year : ℤ) : makeDay year 0 1 = dayFromYear year := by
  unfold makeDay
  rw [Int.zero_ediv, Int.zero_emod, add_zero, daysBeforeMonth_zero]
  omega

theorem isoWeekKey_eq (h : date.Valid) (hyear : date.FourDigits) :
    isoWeekKey date.year date.month date.day =
      toString (isoYear (mondayOf (dayNumber date))) ++ "-W" ++
        padTwo (isoWeek (mondayOf (dayNumber date))) := by
  have hday : dateUTC date.year (date.month - 1) date.day = dayNumber date := dateUTC_eq hyear.1 _ _
  have hjan1 : dateUTC (isoYear (mondayOf (dayNumber date))) 0 1 =
      dayFromYear (isoYear (mondayOf (dayNumber date))) := by
    rw [dateUTC_eq (isoYear_bounds h hyear).1, makeDay_jan1]
  unfold isoWeekKey
  dsimp only
  rw [hday, thursday_eq, show yearFromDay (mondayOf (dayNumber date) + 3) =
    isoYear (mondayOf (dayNumber date)) from rfl, hjan1]
  rfl

theorem toList_isoWeekKey (h : date.Valid) (hyear : date.FourDigits) :
    (isoWeekKey date.year date.month date.day).toList =
      digitsOf 4 (isoYear (mondayOf (dayNumber date))).toNat ++
        ("-W".toList ++ digitsOf 2 (isoWeek (mondayOf (dayNumber date))).toNat) := by
  obtain ⟨hlow, hhigh⟩ := isoYear_bounds h hyear
  obtain ⟨hone, hlast⟩ := isoWeek_bounds (mondayOf (dayNumber date))
  rw [isoWeekKey_eq h hyear, String.toList_append, String.toList_append,
    toList_toString hlow hhigh, toList_padTwo (by omega) (by omega), List.append_assoc]

section

variable {first second : CalendarDate}

section

variable (hfirst : first.Valid) (hsecond : second.Valid) (hfirstYear : first.FourDigits)
  (hsecondYear : second.FourDigits)

include hfirst hsecond hfirstYear hsecondYear

theorem isoWeekKey_lt_iff :
    isoWeekKey first.year first.month first.day < isoWeekKey second.year second.month second.day ↔
      mondayOf (dayNumber first) < mondayOf (dayNumber second) := by
  have hyear := isoYear_bounds hfirst hfirstYear
  have hyear' := isoYear_bounds hsecond hsecondYear
  have hweek := isoWeek_bounds (mondayOf (dayNumber first))
  have hweek' := isoWeek_bounds (mondayOf (dayNumber second))
  have hends : ∀ m n : ℕ, m < 10 ^ 2 → n < 10 ^ 2 →
      ("-W".toList ++ digitsOf 2 m < "-W".toList ++ digitsOf 2 n ↔ m < n) := by
    intro m n hm hn
    rw [append_lt_append_iff rfl, digitsOf_lt_iff hm hn]
    simp
  rw [String.lt_iff_toList_lt, toList_isoWeekKey hfirst hfirstYear,
    toList_isoWeekKey hsecond hsecondYear, digitsOf_append_lt_iff (by omega) (by omega),
    hends _ _ (by omega) (by omega),
    ← isoWeek_lt_iff (weekDay_mondayOf (dayNumber first)) (weekDay_mondayOf (dayNumber second))]
  omega

theorem isoWeekKey_eq_iff :
    isoWeekKey first.year first.month first.day = isoWeekKey second.year second.month second.day ↔
      mondayOf (dayNumber first) = mondayOf (dayNumber second) := by
  have hforth := isoWeekKey_lt_iff hfirst hsecond hfirstYear hsecondYear
  have hback := isoWeekKey_lt_iff hsecond hfirst hsecondYear hfirstYear
  constructor
  · intro hsame
    rw [hsame] at hforth hback
    exact le_antisymm (not_lt.mp (hback.not.mp (lt_irrefl _)))
      (not_lt.mp (hforth.not.mp (lt_irrefl _)))
  · intro hsame
    rw [hsame] at hforth hback
    exact le_antisymm (not_lt.mp (hback.not.mpr (lt_irrefl _)))
      (not_lt.mp (hforth.not.mpr (lt_irrefl _)))

end

/-- Week keys tell the weeks from a Monday to a Sunday apart, and are in their order. -/
theorem isoWeekKey_faithful (first second : CalendarDate) (hfirst : first.Valid)
    (hsecond : second.Valid) (hfirstYear : first.FourDigits) (hsecondYear : second.FourDigits) :
    (isoWeekKey first.year first.month first.day = isoWeekKey second.year second.month second.day ↔
        SameWeek first second) ∧
      (first.Before second → ¬ SameWeek first second →
        isoWeekKey first.year first.month first.day <
          isoWeekKey second.year second.month second.day) := by
  rw [sameWeek_iff, isoWeekKey_eq_iff hfirst hsecond hfirstYear hsecondYear,
    isoWeekKey_lt_iff hfirst hsecond hfirstYear hsecondYear]
  refine ⟨Iff.rfl, fun hbefore hweek ↦ lt_of_le_of_ne ?_ hweek⟩
  have hlt := dayNumber_lt_of_before hfirst hsecond hbefore
  unfold mondayOf
  omega

end

/-- 2020 has 53 weeks, and 3 January 2021 lies in the last of them. -/
theorem isoWeekKey_faithful_newYear :
    SameWeek ⟨2020, 12, 28⟩ ⟨2021, 1, 3⟩ ∧ isoWeekKey 2020 12 28 = isoWeekKey 2021 1 3 := by
  have hweek : SameWeek ⟨2020, 12, 28⟩ ⟨2021, 1, 3⟩ := ⟨18624, by decide, by decide, by decide⟩
  refine ⟨hweek, (isoWeekKey_faithful ⟨2020, 12, 28⟩ ⟨2021, 1, 3⟩ ?_ ?_ ?_ ?_).1.mpr hweek⟩
  · exact ⟨by decide, by decide, by decide, by decide⟩
  · exact ⟨by decide, by decide, by decide, by decide⟩
  · exact ⟨by decide, by decide⟩
  · exact ⟨by decide, by decide⟩

end

def bucketStart : Period → CalendarDate → ℤ
  | .day, date => dayNumber date
  | .week, date => mondayOf (dayNumber date)
  | .month, date => dayNumber ⟨date.year, date.month, 1⟩
  | .year, date => dayNumber ⟨date.year, 1, 1⟩

/-- The candidates are shown at dates of the calendar, in years of four digits. -/
structure Dated (tz : TimeZone) (candidates : List RotationCandidate) : Prop where
  valid : ∀ candidate ∈ candidates, (tz candidate.createdAt).Valid
  fourDigits : ∀ candidate ∈ candidates, (tz candidate.createdAt).FourDigits

def startOf (tz : TimeZone) (period : Period) (candidate : RotationCandidate) : ℤ :=
  bucketStart period (tz candidate.createdAt)

def laterBuckets (tz : TimeZone) (period : Period) (candidates : List RotationCandidate)
    (candidate : RotationCandidate) : Finset ℤ :=
  (candidates.map (startOf tz period)).toFinset.filter (startOf tz period candidate < ·)

/-! ### Selected candidates -/

variable (candidates : List RotationCandidate)

/-- From the newest to the oldest, and at one instant as they are listed. -/
def Precedes (first second : RotationCandidate) : Prop :=
  second.createdAt < first.createdAt ∨ first.createdAt = second.createdAt ∧
    [first.id, second.id].Sublist (candidates.map (·.id))

instance (first second : RotationCandidate) : Decidable (Precedes candidates first second) :=
  inferInstanceAs (Decidable (_ ∨ _))

/-- Fewer than `count` candidates precede a candidate. -/
def AmongNewest (count : ℤ) (candidate : RotationCandidate) : Prop :=
  ((candidates.filter fun other ↦ Precedes candidates other candidate).length : ℤ) < count

/-- No candidate of its bucket precedes a candidate, and fewer than `count` buckets are later. -/
structure SelectedFor (tz : TimeZone) (candidates : List RotationCandidate) (period : Period)
    (count : ℤ) (candidate : RotationCandidate) : Prop where
  newest : ∀ other ∈ candidates, startOf tz period other = startOf tz period candidate →
    ¬ Precedes candidates other candidate
  recent : ((laterBuckets tz period candidates candidate).card : ℤ) < count

def Selected (tz : TimeZone) (candidates : List RotationCandidate) (policy : RetentionPolicy)
    (candidate : RotationCandidate) : Prop :=
  AmongNewest candidates policy.keepLast candidate ∨
    ∃ period, SelectedFor tz candidates period (policy.tierCount period) candidate

/-- The same with every candidate that is as new as the newest one of its bucket. -/
def SelectedWithTies (tz : TimeZone) (candidates : List RotationCandidate)
    (policy : RetentionPolicy) (candidate : RotationCandidate) : Prop :=
  AmongNewest candidates policy.keepLast candidate ∨
    ∃ period, (∀ other ∈ candidates, startOf tz period other = startOf tz period candidate →
        other.createdAt ≤ candidate.createdAt) ∧
      ((laterBuckets tz period candidates candidate).card : ℤ) < policy.tierCount period

/-! ### Keys and the calendar -/

section

variable {tz : TimeZone} {first second : ℤ}

theorem CalendarDate.Valid.firstOfMonth {date : CalendarDate} (h : date.Valid) :
    (CalendarDate.mk date.year date.month 1).Valid := by
  have hdays := daysInMonth_bounds date.year date.month
  exact ⟨h.one_le_month, h.month_le, le_refl 1, by dsimp only; omega⟩

theorem validJan1 (year : ℤ) : (CalendarDate.mk year 1 1).Valid := by
  have hdays := daysInMonth_bounds year 1
  exact ⟨le_refl 1, by dsimp only; omega, le_refl 1, by dsimp only; omega⟩

theorem dash_append_lt_iff (left right : List Char) :
    "-".toList ++ left < "-".toList ++ right ↔ left < right := by
  simp

theorem periodKey_lt_iff (hfirst : (tz first).Valid) (hsecond : (tz second).Valid)
    (hfirstYear : (tz first).FourDigits) (hsecondYear : (tz second).FourDigits) (period : Period) :
    periodKey tz first period < periodKey tz second period ↔
      bucketStart period (tz first) < bucketStart period (tz second) := by
  obtain ⟨hlow, hhigh⟩ := hfirstYear
  obtain ⟨hlow', hhigh'⟩ := hsecondYear
  obtain ⟨hmonth, hmonthLe, hday, hdayLe⟩ := hfirst
  obtain ⟨hmonth', hmonthLe', hday', hdayLe'⟩ := hsecond
  have hdays := daysInMonth_bounds (tz first).year (tz first).month
  have hdays' := daysInMonth_bounds (tz second).year (tz second).month
  cases period with
  | day =>
    unfold periodKey
    simp only [String.append_assoc, String.lt_iff_toList_lt, String.toList_append,
      toList_toString hlow hhigh, toList_toString hlow' hhigh']
    rw [toList_padTwo (by omega) (by omega), toList_padTwo (by omega) (by omega),
      toList_padTwo (by omega) (by omega), toList_padTwo (by omega) (by omega),
      digitsOf_append_lt_iff (by omega) (by omega), dash_append_lt_iff,
      digitsOf_append_lt_iff (by omega) (by omega), dash_append_lt_iff,
      digitsOf_lt_iff (by omega) (by omega), bucketStart, bucketStart,
      dayNumber_lt_iff ⟨hmonth, hmonthLe, hday, hdayLe⟩ ⟨hmonth', hmonthLe', hday', hdayLe'⟩]
    unfold CalendarDate.Before
    omega
  | week =>
    exact isoWeekKey_lt_iff ⟨hmonth, hmonthLe, hday, hdayLe⟩ ⟨hmonth', hmonthLe', hday', hdayLe'⟩
      ⟨hlow, hhigh⟩ ⟨hlow', hhigh'⟩
  | month =>
    unfold periodKey
    simp only [String.append_assoc, String.lt_iff_toList_lt, String.toList_append,
      toList_toString hlow hhigh, toList_toString hlow' hhigh']
    rw [toList_padTwo (by omega) (by omega), toList_padTwo (by omega) (by omega),
      digitsOf_append_lt_iff (by omega) (by omega), dash_append_lt_iff,
      digitsOf_lt_iff (by omega) (by omega), bucketStart, bucketStart,
      dayNumber_lt_iff (CalendarDate.Valid.firstOfMonth ⟨hmonth, hmonthLe, hday, hdayLe⟩)
        (CalendarDate.Valid.firstOfMonth ⟨hmonth', hmonthLe', hday', hdayLe'⟩)]
    unfold CalendarDate.Before
    dsimp only
    omega
  | year =>
    unfold periodKey
    rw [String.lt_iff_toList_lt, toList_toString hlow hhigh, toList_toString hlow' hhigh',
      digitsOf_lt_iff (by omega) (by omega), bucketStart, bucketStart,
      dayNumber_lt_iff (validJan1 _) (validJan1 _)]
    unfold CalendarDate.Before
    dsimp only
    omega

end

section

variable {tz : TimeZone} {period : Period} {candidates : List RotationCandidate}
  {first second candidate : RotationCandidate}

section

variable (h : Dated tz candidates) (hfirst : first ∈ candidates) (hsecond : second ∈ candidates)

include h hfirst hsecond

theorem Dated.bucketOf_lt_iff :
    bucketOf tz period first < bucketOf tz period second ↔
      startOf tz period first < startOf tz period second :=
  periodKey_lt_iff (h.valid first hfirst) (h.valid second hsecond) (h.fourDigits first hfirst)
    (h.fourDigits second hsecond) period

/-- Two candidates have one key exactly if they have one bucket. -/
theorem Dated.bucketOf_eq_iff :
    bucketOf tz period first = bucketOf tz period second ↔
      startOf tz period first = startOf tz period second := by
  have hforth : bucketOf tz period first < bucketOf tz period second ↔ _ :=
    h.bucketOf_lt_iff hfirst hsecond
  have hback : bucketOf tz period second < bucketOf tz period first ↔ _ :=
    h.bucketOf_lt_iff hsecond hfirst
  rw [le_antisymm_iff, le_antisymm_iff, ← not_lt, ← not_lt, ← not_lt, ← not_lt, hforth, hback]

end

/-- Two functions that tell the same items apart have as many values. -/
theorem card_toFinset_map_eq {α β γ : Type*} [DecidableEq β] [DecidableEq γ] {first : α → β}
    {second : α → γ} {items : List α}
    (h : ∀ one ∈ items, ∀ other ∈ items, first one = first other ↔ second one = second other) :
    (items.map first).toFinset.card = (items.map second).toFinset.card := by
  induction items with
  | nil => rfl
  | cons item rest ih =>
    have hrest := ih fun one hone other hother ↦
      h one (mem_cons_of_mem _ hone) other (mem_cons_of_mem _ hother)
    have hmem : first item ∈ (rest.map first).toFinset ↔ second item ∈ (rest.map second).toFinset := by
      simp only [mem_toFinset, mem_map]
      refine exists_congr fun other ↦ and_congr_right fun hother ↦ ?_
      exact h other (mem_cons_of_mem _ hother) item mem_cons_self
    rw [map_cons, map_cons, toFinset_cons, toFinset_cons]
    by_cases hknown : first item ∈ (rest.map first).toFinset
    · rw [Finset.insert_eq_of_mem hknown, Finset.insert_eq_of_mem (hmem.mp hknown), hrest]
    · rw [Finset.card_insert_of_notMem hknown, Finset.card_insert_of_notMem (hmem.not.mp hknown),
        hrest]

theorem Dated.countP_keys (h : Dated tz candidates) (hcandidate : candidate ∈ candidates) :
    (buckets tz period candidates).keys.countP
        (fun key ↦ decide (bucketOf tz period candidate < key)) =
      (laterBuckets tz period candidates candidate).card := by
  have hkeys : ((buckets tz period candidates).keys.filter
      fun key ↦ decide (bucketOf tz period candidate < key)).toFinset =
      ((candidates.filter fun other ↦ startOf tz period candidate < startOf tz period other).map
        (bucketOf tz period)).toFinset := by
    ext key
    simp only [mem_toFinset, mem_filter, mem_keys_buckets_iff, mem_map, decide_eq_true_eq]
    constructor
    · rintro ⟨⟨other, hother, rfl⟩, hlater⟩
      exact ⟨other, ⟨hother, (h.bucketOf_lt_iff hcandidate hother).mp hlater⟩, rfl⟩
    · rintro ⟨other, ⟨hother, hlater⟩, rfl⟩
      exact ⟨⟨other, hother, rfl⟩, (h.bucketOf_lt_iff hcandidate hother).mpr hlater⟩
  have hlater : laterBuckets tz period candidates candidate =
      ((candidates.filter fun other ↦ startOf tz period candidate < startOf tz period other).map
        (startOf tz period)).toFinset := by
    ext start
    simp only [laterBuckets, Finset.mem_filter, mem_toFinset, mem_map, mem_filter,
      decide_eq_true_eq]
    constructor
    · rintro ⟨⟨other, hother, rfl⟩, hless⟩
      exact ⟨other, ⟨hother, hless⟩, rfl⟩
    · rintro ⟨other, ⟨hother, hless⟩, rfl⟩
      exact ⟨⟨other, hother, rfl⟩, hless⟩
  rw [countP_eq_length_filter, hlater,
    ← toFinset_card_of_nodup ((buckets tz period candidates).keys_nodup.filter _), hkeys]
  exact card_toFinset_map_eq fun one hone other hother ↦
    h.bucketOf_eq_iff (mem_of_mem_filter hone) (mem_of_mem_filter hother)

/-- A tier keeps a bucket if few enough of the buckets are later. -/
theorem Dated.mem_keptKeys_iff (h : Dated tz candidates) (hcandidate : candidate ∈ candidates)
    (count : ℕ) : bucketOf tz period candidate ∈ keptKeys tz period candidates count ↔
      (laterBuckets tz period candidates candidate).card < count := by
  have hnodup := (buckets tz period candidates).keys_nodup
  have hsorted : (((buckets tz period candidates).keys.mergeSort (· ≤ ·)).reverse).Pairwise
      fun first second ↦ decide (second < first) := by
    rw [pairwise_reverse]
    have hle : ((buckets tz period candidates).keys.mergeSort
        fun first second ↦ decide (first ≤ second)).Pairwise
          fun first second ↦ decide (first ≤ second) :=
      pairwise_mergeSort
        (fun _ _ _ hfirst hsecond ↦ decide_eq_true
          ((of_decide_eq_true hfirst).trans (of_decide_eq_true hsecond)))
        (fun first second ↦ by simpa using le_total first second) _
    have hne : ((buckets tz period candidates).keys.mergeSort
        fun first second ↦ decide (first ≤ second)).Nodup :=
      (mergeSort_perm _ _).nodup_iff.mpr hnodup
    refine (hle.and hne).imp fun hboth ↦ ?_
    exact decide_eq_true (lt_of_le_of_ne (of_decide_eq_true hboth.1) hboth.2)
  have hmem : bucketOf tz period candidate ∈
      ((buckets tz period candidates).keys.mergeSort (· ≤ ·)).reverse := by
    rw [mem_reverse, mem_mergeSort, mem_keys_buckets_iff]
    exact ⟨candidate, hcandidate, rfl⟩
  unfold keptKeys
  rw [mem_take_iff_countP_lt hsorted (fun _ _ hfirst hsecond ↦
      lt_asymm (of_decide_eq_true hfirst) (of_decide_eq_true hsecond)) hmem,
    countP_reverse, (mergeSort_perm _ _).countP_eq, h.countP_keys hcandidate]

section

variable (hids : (candidates.map (·.id)).Nodup)
include hids

theorem Precedes.asymm (h : Precedes candidates first second) :
    ¬ Precedes candidates second first := by
  rintro (hnewer | ⟨hinstant, hlisted⟩)
  · rcases h with hless | ⟨hsame, -⟩
    · exact lt_asymm hnewer hless
    · exact hnewer.ne hsame
  · rcases h with hless | ⟨-, hother⟩
    · exact hless.ne hinstant
    · obtain ⟨left, right, hsplit⟩ := append_of_mem (hother.subset mem_cons_self)
      rw [hsplit] at hids hlisted hother
      have hleft := (pair_sublist_append_cons_iff hids).mp hlisted
      have hright := (pair_sublist_append_cons_iff' hids).mp hother
      exact (nodup_append.mp hids).2.2 _ hleft _ (mem_cons_of_mem _ hright) rfl

/-- Sorting puts candidates in the order of precedence. -/
theorem pairwise_precedes : (byNewest candidates).Pairwise (Precedes candidates) := by
  have hpairs : (byNewest candidates).Pairwise _ := pairwise_mergeSort_of_tied
    (fun _ _ _ hfirst hsecond ↦ decide_eq_true
      ((of_decide_eq_true hsecond).trans (of_decide_eq_true hfirst)))
    (fun first second ↦ by simpa using le_total second.createdAt first.createdAt)
    (List.Nodup.of_map _ hids)
  refine hpairs.imp fun {first second} hpair ↦ ?_
  rcases hpair with hnot | ⟨hle, hlisted⟩
  · exact .inl (not_le.mp fun hle ↦ hnot (decide_eq_true hle))
  · rcases eq_or_lt_of_le (of_decide_eq_true hle) with hsame | hless
    · exact .inr ⟨hsame.symm, hlisted.map RotationCandidate.id⟩
    · exact .inl hless

theorem mem_recentOf_iff (policy : RetentionPolicy) (hcandidate : candidate ∈ candidates) :
    candidate ∈ recentOf candidates policy ↔ AmongNewest candidates policy.keepLast candidate := by
  have hsorted : (byNewest candidates).Pairwise
      fun first second ↦ decide (Precedes candidates first second) :=
    (pairwise_precedes hids).imp decide_eq_true
  unfold recentOf AmongNewest
  rw [mem_take_iff_countP_lt hsorted (fun _ _ hfirst hsecond ↦
      Precedes.asymm hids (of_decide_eq_true hfirst) (of_decide_eq_true hsecond))
    (mem_mergeSort.mpr hcandidate),
    (show (byNewest candidates).Perm candidates from mergeSort_perm _ _).countP_eq,
    countP_eq_length_filter]
  omega

end

variable (h : Dated tz candidates) (hids : (candidates.map (·.id)).Nodup)
include h hids

theorem Dated.newest_iff (hcandidate : candidate ∈ candidates) :
    Newest tz period candidates (bucketOf tz period candidate) candidate ↔
      ∀ other ∈ candidates, startOf tz period other = startOf tz period candidate →
        ¬ Precedes candidates other candidate := by
  constructor
  · rintro hnewest other hother hbucket (hnewer | ⟨hinstant, hlisted⟩)
    · exact not_lt.mpr (hnewest.le other hother
        ((h.bucketOf_eq_iff hother hcandidate).mpr hbucket)) hnewer
    · obtain ⟨-, left, right, hsplit, hfirst⟩ :=
        List.find?_eq_some_iff_append.mp hnewest.first
      rw [hsplit, map_append, map_cons] at hids hlisted
      obtain ⟨tied, htied, hid⟩ :=
        mem_map.mp ((pair_sublist_append_cons_iff hids).mp hlisted)
      have hsame : tied = other := by
        refine inj_on_of_nodup_map (f := (·.id)) (l := candidates) ?_ ?_ hother hid
        · rw [hsplit, map_append, map_cons]
          exact hids
        · rw [hsplit]
          exact mem_append_left _ htied
      have hnot := hfirst tied htied
      rw [hsame] at hnot
      simp [hinstant] at hnot
  · intro hfirst
    refine ⟨hcandidate, rfl, fun other hother hbucket ↦ ?_, ?_⟩
    · refine not_lt.mp fun hnewer ↦ hfirst other hother ?_ (.inl hnewer)
      exact (h.bucketOf_eq_iff hother hcandidate).mp hbucket
    · cases hfind : candidates.find? (·.createdAt = candidate.createdAt) with
      | none =>
        have hnone := List.find?_eq_none.mp hfind candidate hcandidate
        simp at hnone
      | some other =>
        have hinstant : other.createdAt = candidate.createdAt := by
          simpa using List.find?_some hfind
        have hother := mem_of_find?_eq_some hfind
        by_cases hsame : other = candidate
        · rw [hsame]
        · have hbucket : startOf tz period other = startOf tz period candidate := by
            unfold startOf
            rw [hinstant]
          refine absurd (.inr ⟨hinstant, ?_⟩) (hfirst other hother hbucket)
          obtain ⟨-, left, right, hsplit, htied⟩ := List.find?_eq_some_iff_append.mp hfind
          have hright : candidate ∈ right := by
            rw [hsplit] at hcandidate
            rcases mem_append.mp hcandidate with hleft | hrest
            · exact absurd (htied candidate hleft) (by simp)
            · exact (mem_cons.mp hrest).resolve_left (Ne.symm hsame)
          have hpair : [other, candidate].Sublist candidates := by
            rw [hsplit]
            exact ((singleton_sublist.mpr hright).cons_cons other).trans
              (sublist_append_right left _)
          exact hpair.map RotationCandidate.id

/-! ### The tiers -/

theorem Dated.mem_selectPeriodTier_iff_selected (hcandidate : candidate ∈ candidates) (count : ℤ) :
    candidate.id ∈ selectPeriodTier tz candidates period count ↔
      SelectedFor tz candidates period count candidate := by
  rw [mem_selectPeriodTier_iff hids hcandidate, h.mem_keptKeys_iff hcandidate,
    h.newest_iff hids hcandidate]
  constructor
  · rintro ⟨hcount, hrecent, hnewest⟩
    exact ⟨hnewest, by omega⟩
  · rintro ⟨hnewest, hrecent⟩
    exact ⟨by omega, by omega, hnewest⟩

theorem Dated.id_mem_selectKeep_iff (policy : RetentionPolicy) (hcandidate : candidate ∈ candidates) :
    candidate.id ∈ selectKeep tz candidates policy ↔ Selected tz candidates policy candidate := by
  rw [mem_selectKeep_iff, mem_candidateIds_of_sublist hids (fun _ ↦ mem_of_mem_recentOf) hcandidate,
    mem_recentOf_iff hids policy hcandidate]
  refine or_congr Iff.rfl (exists_congr fun period ↦ ?_)
  exact h.mem_selectPeriodTier_iff_selected hids hcandidate _

end

/-- `selectKeep` keeps the ids of the candidates that the tiers select by the calendar. Assumes:
distinct candidate ids, dates of the calendar and years of four digits. -/
theorem mem_selectKeep_iff_selected (tz : TimeZone) (candidates : List RotationCandidate)
    (policy : RetentionPolicy) (hids : (candidates.map (·.id)).Nodup) (hdated : Dated tz candidates)
    (id : String) : id ∈ selectKeep tz candidates policy ↔
      ∃ candidate ∈ candidates, candidate.id = id ∧ Selected tz candidates policy candidate := by
  constructor
  · intro hid
    obtain ⟨candidate, hcandidate, rfl⟩ :=
      (mem_candidateIds_iff candidates id).mp (selectKeep_subset tz candidates policy hid)
    exact ⟨candidate, hcandidate, rfl, (hdated.id_mem_selectKeep_iff hids policy hcandidate).mp hid⟩
  · rintro ⟨candidate, hcandidate, rfl, hselected⟩
    exact (hdated.id_mem_selectKeep_iff hids policy hcandidate).mpr hselected

def tiedBackups : List RotationCandidate :=
  [⟨"first", 0, 1⟩, ⟨"second", 0, 1⟩]

def onePerDay : RetentionPolicy :=
  ⟨0, 1, 0, 0, 0, 1, none⟩

/-- The time zone that shows every instant on 22 June 2026. -/
def oneDay : TimeZone :=
  fun _ ↦ ⟨2026, 6, 22⟩

theorem dated_tiedBackups : Dated oneDay tiedBackups where
  valid _ _ := show (CalendarDate.mk 2026 6 22).Valid from
    ⟨by decide, by decide, by decide, by decide⟩
  fourDigits _ _ := show (CalendarDate.mk 2026 6 22).FourDigits from ⟨by decide, by decide⟩

theorem mem_selectKeep_iff_selected_tied : "first" ∈ selectKeep oneDay tiedBackups onePerDay := by
  refine (mem_selectKeep_iff_selected oneDay tiedBackups onePerDay (by decide) dated_tiedBackups
    "first").mpr ⟨⟨"first", 0, 1⟩, mem_cons_self, rfl, .inr ⟨.day, ?_, ?_⟩⟩
  · intro other hother _
    rcases mem_cons.mp hother with rfl | hsecond
    · decide
    · rw [mem_singleton.mp hsecond]
      decide
  · decide

/-- Of two backups of one instant, both the newest of their day, only the first one is kept. -/
theorem not_mem_selectKeep_iff_selectedWithTies :
    ¬ ∀ (tz : TimeZone) (candidates : List RotationCandidate) (policy : RetentionPolicy),
      (candidates.map (·.id)).Nodup → Dated tz candidates → ∀ id,
        (id ∈ selectKeep tz candidates policy ↔ ∃ candidate ∈ candidates, candidate.id = id ∧
          SelectedWithTies tz candidates policy candidate) := by
  intro h
  have hkept := (h oneDay tiedBackups onePerDay (by decide) dated_tiedBackups "second").mpr
    ⟨⟨"second", 0, 1⟩, mem_cons_of_mem _ mem_cons_self, rfl, .inr ⟨.day, ?_, by decide⟩⟩
  · have hsecond : (⟨"second", 0, 1⟩ : RotationCandidate) ∈ tiedBackups :=
      mem_cons_of_mem _ mem_cons_self
    have hselected := (dated_tiedBackups.id_mem_selectKeep_iff (by decide) onePerDay hsecond).mp hkept
    rcases hselected with hamong | ⟨period, hnewest, hrecent⟩
    · exact absurd hamong (Int.natCast_nonneg _).not_gt
    · cases period with
      | day => exact hnewest ⟨"first", 0, 1⟩ mem_cons_self rfl (by decide)
      | week | month | year => exact absurd hrecent (Int.natCast_nonneg _).not_gt
  · intro other hother _
    rcases mem_cons.mp hother with rfl | hsecond
    · exact le_refl 0
    · rw [mem_singleton.mp hsecond]

end Bridgeport.Backup
