import Bridgeport.Backup.CalendarDays
import Bridgeport.Schedules.CronText
import Bridgeport.Schedules.MinuteSearch

/-!
# The next run is the next match

`getNextRunTime` of `services/database-backup.ts`, from the text of a cron expression on, in a time
zone with a fixed offset. A `CronExpression` has five fields, and an instant matches it if it is a
full minute whose local month, day, hour and minute are allowed (`CronExpression.Matches`).
-/

namespace Bridgeport.Schedules.Cron

section

open Backup

/-! ### Fields and setters -/

section

variable (offset instant : ℤ)

def localTime : ℤ :=
  instant + offset

def localDay : ℤ :=
  localTime offset instant / 86400000

def timeWithinDay : ℤ :=
  localTime offset instant % 86400000

def getMonth : ℤ :=
  monthFromDay (localDay offset instant)

def getDate : ℤ :=
  dateInMonth (localDay offset instant)

def getDay : ℤ :=
  weekDay (localDay offset instant)

def getHours : ℤ :=
  localTime offset instant / 3600000 % 24

def getMinutes : ℤ :=
  localTime offset instant / 60000 % 60

def getSeconds : ℤ :=
  localTime offset instant / 1000 % 60

def getMilliseconds : ℤ :=
  localTime offset instant % 1000

def makeTime (hours minutes seconds milliseconds : ℤ) : ℤ :=
  hours * 3600000 + minutes * 60000 + seconds * 1000 + milliseconds

def instantOf (day time : ℤ) : ℤ :=
  day * 86400000 + time - offset

/-- `setMonth(month, date)`. -/
def setMonth (month date : ℤ) : ℤ :=
  instantOf offset (makeDay (yearFromDay (localDay offset instant)) month date)
    (timeWithinDay offset instant)

/-- `setDate(date)`. -/
def setDate (date : ℤ) : ℤ :=
  instantOf offset (makeDay (yearFromDay (localDay offset instant)) (getMonth offset instant) date)
    (timeWithinDay offset instant)

/-- `setHours(hours, minutes, seconds, milliseconds)`. -/
def setHours (hours minutes seconds milliseconds : ℤ) : ℤ :=
  instantOf offset (localDay offset instant) (makeTime hours minutes seconds milliseconds)

/-- `setMinutes(minutes, seconds, milliseconds)`. -/
def setMinutes (minutes seconds milliseconds : ℤ) : ℤ :=
  instantOf offset (localDay offset instant)
    (makeTime (getHours offset instant) minutes seconds milliseconds)

/-- `setSeconds(seconds, milliseconds)`. -/
def setSeconds (seconds milliseconds : ℤ) : ℤ :=
  instantOf offset (localDay offset instant)
    (makeTime (getHours offset instant) (getMinutes offset instant) seconds milliseconds)

end

/-! ### Full minutes -/

/-- The instant at which a minute of the local time begins. -/
def ofMinute (offset minute : ℤ) : ℤ :=
  minute * 60000 - offset

variable (offset minute instant : ℤ)

@[simp]
theorem localTime_ofMinute : localTime offset (ofMinute offset minute) = minute * 60000 := by
  unfold localTime ofMinute
  omega

@[simp]
theorem localTime_instantOf (day time : ℤ) :
    localTime offset (instantOf offset day time) = day * 86400000 + time := by
  unfold localTime instantOf
  omega

@[simp]
theorem localDay_ofMinute : localDay offset (ofMinute offset minute) = minute / 1440 := by
  unfold localDay
  rw [localTime_ofMinute]
  omega

@[simp]
theorem getHours_ofMinute : getHours offset (ofMinute offset minute) = minute / 60 % 24 := by
  unfold getHours
  rw [localTime_ofMinute]
  omega

@[simp]
theorem getMinutes_ofMinute : getMinutes offset (ofMinute offset minute) = minute % 60 := by
  unfold getMinutes
  rw [localTime_ofMinute]
  omega

/-- An instant at which the seconds and milliseconds are zero is a full minute. -/
theorem eq_ofMinute (h : 60000 ∣ localTime offset instant) :
    instant = ofMinute offset (localTime offset instant / 60000) := by
  unfold ofMinute localTime at *
  omega

theorem lt_ofMinute_iff :
    instant < ofMinute offset minute ↔ localTime offset instant / 60000 + 1 ≤ minute := by
  unfold ofMinute localTime
  omega

theorem setMinutes_setSeconds :
    setMinutes offset (setSeconds offset instant 0 0)
        (getMinutes offset (setSeconds offset instant 0 0) + 1)
        (getSeconds offset (setSeconds offset instant 0 0))
        (getMilliseconds offset (setSeconds offset instant 0 0)) =
      ofMinute offset (localTime offset instant / 60000 + 1) := by
  have hfull : setSeconds offset instant 0 0 =
      ofMinute offset (localTime offset instant / 60000) := by
    unfold setSeconds instantOf makeTime localDay getHours getMinutes ofMinute
    omega
  unfold setMinutes instantOf makeTime getSeconds getMilliseconds
  rw [hfull, localTime_ofMinute, localDay_ofMinute, getHours_ofMinute, getMinutes_ofMinute]
  unfold ofMinute
  omega

theorem setMinutes_ofMinute :
    setMinutes offset (ofMinute offset minute) (getMinutes offset (ofMinute offset minute) + 1) 0 0 =
      ofMinute offset (minute + 1) := by
  unfold setMinutes instantOf makeTime
  rw [localDay_ofMinute, getHours_ofMinute, getMinutes_ofMinute]
  unfold ofMinute
  omega

theorem setHours_ofMinute :
    setHours offset (ofMinute offset minute) (getHours offset (ofMinute offset minute) + 1) 0 0 0 =
      ofMinute offset ((minute / 60 + 1) * 60) := by
  unfold setHours instantOf makeTime
  rw [localDay_ofMinute, getHours_ofMinute]
  unfold ofMinute
  omega

/-- The beginning of the day that a setter has reached. -/
theorem setHours_instantOf {day time : ℤ} (hlow : 0 ≤ time) (hhigh : time < 86400000) :
    setHours offset (instantOf offset day time) 0 0 0 0 = ofMinute offset (day * 1440) := by
  have hday : localDay offset (instantOf offset day time) = day := by
    unfold localDay
    rw [localTime_instantOf]
    omega
  unfold setHours
  rw [hday]
  unfold instantOf makeTime ofMinute
  omega

theorem timeWithinDay_bounds :
    0 ≤ timeWithinDay offset instant ∧ timeWithinDay offset instant < 86400000 := by
  unfold timeWithinDay
  omega

theorem makeDay_dateInMonth (day : ℤ) :
    makeDay (yearFromDay day) (monthFromDay day) (dateInMonth day + 1) = day + 1 := by
  have hday : makeDay (yearFromDay day) (monthFromDay day + 1 - 1) (dateInMonth day) = day :=
    dayNumber_dateFromDay day
  rw [add_sub_cancel_right] at hday
  unfold makeDay at hday ⊢
  omega

theorem setDate_ofMinute :
    setHours offset (setDate offset (ofMinute offset minute)
        (getDate offset (ofMinute offset minute) + 1)) 0 0 0 0 =
      ofMinute offset ((minute / 1440 + 1) * 1440) := by
  obtain ⟨hlow, hhigh⟩ := timeWithinDay_bounds offset (ofMinute offset minute)
  unfold setDate getMonth getDate
  rw [setHours_instantOf offset hlow hhigh, localDay_ofMinute, makeDay_dateInMonth]

theorem setMonth_ofMinute :
    setHours offset (setMonth offset (ofMinute offset minute)
        (getMonth offset (ofMinute offset minute) + 1) 1) 0 0 0 0 =
      ofMinute offset (nextMonth (minute / 1440) * 1440) := by
  obtain ⟨hlow, hhigh⟩ := timeWithinDay_bounds offset (ofMinute offset minute)
  unfold setMonth getMonth
  rw [setHours_instantOf offset hlow hhigh, localDay_ofMinute]
  rfl

end

open Foundation Secrets ConfigSync Backup List Option

/-- The values of the five fields, and which of the days are restricted. -/
structure CronSets where
  (minutes hours daysOfMonth months daysOfWeek : List (Option ℤ))
  (hasDomConstraint hasDowConstraint : Bool)

/-- `cronExpression.trim().split(/\s+/)`. -/
def splitBlanks (cronExpression : Text) : List Text :=
  match trimBoth isTrimmed cronExpression with
  | [] => [[]]
  | trimmed => (trimmed.splitOnP isTrimmed).filter (· ≠ [])

/-- The fields of an expression, if `parseCronField` ends. -/
def readFields (parts : List Text) : Option CronSets := do
  let minutes ← parseCronField (parts.getD 0 []) 0 59
  let hours ← parseCronField (parts.getD 1 []) 0 23
  let daysOfMonth ← parseCronField (parts.getD 2 []) 1 31
  let months ← parseCronField (parts.getD 3 []) 1 12
  let daysOfWeek ← parseCronField (parts.getD 4 []) 0 7
  pure {
    minutes, hours, daysOfMonth, months
    daysOfWeek := if some 7 ∈ daysOfWeek then daysOfWeek ++ [some 0] else daysOfWeek
    hasDomConstraint := parts.getD 2 [] ≠ ['*']
    hasDowConstraint := parts.getD 4 [] ≠ ['*'] }

/-- The day matches: if both days are restricted, either will do. -/
def CronSets.dayMatch (sets : CronSets) (date day : ℤ) : Bool :=
  let domMatch : Bool := some date ∈ sets.daysOfMonth
  let dowMatch : Bool := some day ∈ sets.daysOfWeek
  if sets.hasDomConstraint && sets.hasDowConstraint then domMatch || dowMatch
  else domMatch && dowMatch

/-- One turn of the search: the next candidate, unless this one is returned. -/
def nextCandidate (sets : CronSets) (offset next : ℤ) : Option ℤ :=
  if some (getMonth offset next + 1) ∉ sets.months then
    some (setHours offset (setMonth offset next (getMonth offset next + 1) 1) 0 0 0 0)
  else if sets.dayMatch (getDate offset next) (getDay offset next) = false then
    some (setHours offset (setDate offset next (getDate offset next + 1)) 0 0 0 0)
  else if some (getHours offset next) ∉ sets.hours then
    some (setHours offset next (getHours offset next + 1) 0 0 0)
  else if some (getMinutes offset next) ∉ sets.minutes then
    some (setMinutes offset next (getMinutes offset next + 1) 0 0)
  else none

/-- `getNextRunTime`, if it ends. -/
def getNextRunTime (offset : ℤ) (cronExpression : Text) (start : ℤ) : Option ℤ :=
  let fallback := setDate offset start (getDate offset start + 1)
  let parts := splitBlanks cronExpression
  if parts.length < 5 then some fallback
  else (readFields parts).map fun sets ↦
    let full := setSeconds offset start 0 0
    let next := setMinutes offset full (getMinutes offset full + 1) (getSeconds offset full)
      (getMilliseconds offset full)
    (search (nextCandidate sets offset) (366 * 24 * 60) next).getD fallback

/-! ### Expressions and what they match -/

structure CronExpression where
  minutes : CronField 0 59
  hours : CronField 0 23
  daysOfMonth : CronField 1 31
  months : CronField 1 12
  daysOfWeek : CronField 0 7

/-- The blank characters of an expression: some between the fields, and any around them. -/
structure Spacing where
  before : Text
  gaps : Fin 4 → Text
  after : Text
  blank_before : ∀ character ∈ before, isTrimmed character = true
  blank_gaps : ∀ index, ∀ character ∈ gaps index, isTrimmed character = true
  gaps_ne_nil : ∀ index, gaps index ≠ []
  blank_after : ∀ character ∈ after, isTrimmed character = true

namespace CronExpression

variable (expression : CronExpression)

def text (spacing : Spacing) : Text :=
  spacing.before ++ (expression.minutes.text ++ (spacing.gaps 0 ++ (expression.hours.text ++
    (spacing.gaps 1 ++ (expression.daysOfMonth.text ++ (spacing.gaps 2 ++ (expression.months.text ++
      (spacing.gaps 3 ++ (expression.daysOfWeek.text ++ spacing.after)))))))))

/-- The days of the week that the last field allows: 0 and 7 are Sunday. -/
def AllowsWeekDay (weekDay : ℤ) : Prop :=
  expression.daysOfWeek.Allows weekDay ∨ weekDay = 0 ∧ expression.daysOfWeek.Allows 7

/-- Both fields for days are restricted. -/
def BothRestricted : Prop :=
  expression.daysOfMonth.Restricted ∧ expression.daysOfWeek.Restricted

/-- The days that the two fields for days allow: either of them if both are restricted. -/
def AllowsDay (date : CalendarDate) (weekDay : ℤ) : Prop :=
  expression.BothRestricted ∧
      (expression.daysOfMonth.Allows date.day ∨ expression.AllowsWeekDay weekDay) ∨
    ¬ expression.BothRestricted ∧
      expression.daysOfMonth.Allows date.day ∧ expression.AllowsWeekDay weekDay

structure Matches (offset instant : ℤ) : Prop where
  full : 60000 ∣ localTime offset instant
  date : ∃ date : CalendarDate, date.Valid ∧ dayNumber date = localDay offset instant ∧
    expression.months.Allows date.month ∧
    expression.AllowsDay date (weekDay (localDay offset instant))
  hour : expression.hours.Allows (localTime offset instant / 3600000 % 24)
  minute : expression.minutes.Allows (localTime offset instant / 60000 % 60)

end CronExpression

/-! ### The fields are found -/

/-- The pieces between blank characters. -/
def words (text : Text) : List Text :=
  (text.splitOnP isTrimmed).filter (· ≠ [])

variable {character : Char}

theorem words_append_blank_cons (h : isTrimmed character = true) (first rest : Text) :
    words (first ++ character :: rest) = words first ++ words rest := by
  unfold words
  rw [splitOnP_append_cons _ _ h, filter_append]

variable {blank : Text}

section

variable (h : ∀ character ∈ blank, isTrimmed character = true)
include h

theorem words_blank : words blank = [] := by
  induction blank with
  | nil => rfl
  | cons character rest ih =>
    obtain ⟨hcharacter, hrest⟩ := forall_mem_cons.mp h
    exact (words_append_blank_cons hcharacter [] rest).trans (ih hrest)

theorem words_append_blank (first : Text) : words (first ++ blank) = words first := by
  cases blank with
  | nil => rw [append_nil]
  | cons character rest =>
    obtain ⟨hcharacter, hrest⟩ := forall_mem_cons.mp h
    rw [words_append_blank_cons hcharacter, words_blank hrest, append_nil]

theorem words_blank_append (rest : Text) : words (blank ++ rest) = words rest := by
  induction blank with
  | nil => rfl
  | cons character blank ih =>
    obtain ⟨hcharacter, hblank⟩ := forall_mem_cons.mp h
    exact (words_append_blank_cons hcharacter [] (blank ++ rest)).trans (ih hblank)

end

theorem words_word {word : Text} (hne : word ≠ [])
    (h : ∀ character ∈ word, isTrimmed character = false) : words word = [word] := by
  unfold words
  rw [splitOnP_eq_singleton h]
  simp [hne]

theorem words_trimBoth (text : Text) : words (trimBoth isTrimmed text) = words text := by
  obtain ⟨tail, htail, hsplit⟩ :=
    exists_rdropWhile_append isTrimmed (text.dropWhile isTrimmed)
  have hdrop : words (text.dropWhile isTrimmed) = words text := by
    conv_rhs => rw [← takeWhile_append_dropWhile (p := isTrimmed) (l := text)]
    exact (words_blank_append (fun character ↦ mem_takeWhile_imp) _).symm
  rw [← hdrop]
  conv_rhs => rw [← hsplit]
  exact (words_append_blank htail _).symm

theorem splitBlanks_eq_words {text : Text} (h : words text ≠ []) :
    splitBlanks text = words text := by
  rw [← words_trimBoth] at h ⊢
  unfold splitBlanks
  split
  · rename_i hempty
    rw [hempty] at h
    exact absurd rfl h
  · rfl

section

variable {min max : ℤ} (field : CronField min max)

theorem not_isTrimmed_of_mem_span {span : CronSpan min max} (h : character ∈ span.text) :
    isTrimmed character = false := by
  cases span with
  | every =>
    rw [mem_singleton.mp h]
    rfl
  | one value => exact not_isTrimmed_of_isDigit (value.isDigit_of_mem h)
  | range first last ordered =>
    rcases mem_append.mp h with hfirst | hlast
    · exact not_isTrimmed_of_isDigit (first.isDigit_of_mem hfirst)
    · rcases mem_cons.mp hlast with rfl | hlast
      · rfl
      · exact not_isTrimmed_of_isDigit (last.isDigit_of_mem hlast)

theorem not_isTrimmed_of_mem_part {part : CronPart min max} (h : character ∈ part.text) :
    isTrimmed character = false := by
  unfold CronPart.text at h
  cases hstep : part.step with
  | none =>
    rw [hstep] at h
    exact not_isTrimmed_of_mem_span h
  | some step =>
    rw [hstep] at h
    rcases mem_append.mp h with hspan | hlast
    · exact not_isTrimmed_of_mem_span hspan
    · rcases mem_cons.mp hlast with rfl | hlast
      · rfl
      · exact not_isTrimmed_of_isDigit (step.isDigit_of_mem hlast)

theorem not_isTrimmed_of_mem_parts {parts : List (CronPart min max)}
    (h : character ∈ [','].intercalate (parts.map (·.text))) : isTrimmed character = false := by
  induction parts with
  | nil => exact absurd h not_mem_nil
  | cons part parts ih =>
    cases parts with
    | nil => exact not_isTrimmed_of_mem_part (by simpa using h)
    | cons next parts =>
      rw [map_cons, map_cons, intercalate_cons_cons] at h
      simp only [append_assoc, mem_append, mem_singleton] at h
      rcases h with hpart | rfl | hrest
      · exact not_isTrimmed_of_mem_part hpart
      · rfl
      · exact ih hrest

theorem CronField.text_ne_nil : field.text ≠ [] := by
  intro htext
  have hpieces := field.splitOn_text
  rw [htext] at hpieces
  obtain ⟨⟨span, step⟩, hparts, hpart⟩ := map_eq_singleton_iff.mp hpieces.symm
  cases step with
  | some step => exact absurd hpart (by simp [CronPart.text])
  | none =>
    cases span with
    | every | range _ _ _ => exact absurd hpart (by simp [CronPart.text, CronSpan.text])
    | one value => exact value.text_ne_nil hpart

theorem CronField.words_text : words field.text = [field.text] :=
  words_word field.text_ne_nil fun _ h ↦ not_isTrimmed_of_mem_parts h

end

theorem words_field_append {min max : ℤ} (field : CronField min max) {gap : Text} (hne : gap ≠ [])
    (hgap : ∀ character ∈ gap, isTrimmed character = true) (rest : Text) :
    words (field.text ++ (gap ++ rest)) = field.text :: words rest := by
  cases gap with
  | nil => exact absurd rfl hne
  | cons character gap =>
    obtain ⟨hcharacter, hgap⟩ := forall_mem_cons.mp hgap
    rw [cons_append, words_append_blank_cons hcharacter, words_blank_append hgap, field.words_text,
      singleton_append]

variable (expression : CronExpression) (spacing : Spacing)

theorem words_text :
    words (expression.text spacing) = [expression.minutes.text, expression.hours.text,
      expression.daysOfMonth.text, expression.months.text, expression.daysOfWeek.text] := by
  unfold CronExpression.text
  rw [words_blank_append spacing.blank_before,
    words_field_append _ (spacing.gaps_ne_nil 0) (spacing.blank_gaps 0),
    words_field_append _ (spacing.gaps_ne_nil 1) (spacing.blank_gaps 1),
    words_field_append _ (spacing.gaps_ne_nil 2) (spacing.blank_gaps 2),
    words_field_append _ (spacing.gaps_ne_nil 3) (spacing.blank_gaps 3),
    words_append_blank spacing.blank_after, CronField.words_text]

/-- The sets that are read hold what the expression allows. -/
structure CronSets.Represents (sets : CronSets) (expression : CronExpression) : Prop where
  minutes (number : ℤ) : some number ∈ sets.minutes ↔ expression.minutes.Allows number
  hours (number : ℤ) : some number ∈ sets.hours ↔ expression.hours.Allows number
  daysOfMonth (number : ℤ) : some number ∈ sets.daysOfMonth ↔ expression.daysOfMonth.Allows number
  months (number : ℤ) : some number ∈ sets.months ↔ expression.months.Allows number
  daysOfWeek (number : ℤ) : some number ∈ sets.daysOfWeek ↔ expression.AllowsWeekDay number
  hasDomConstraint : sets.hasDomConstraint = true ↔ expression.daysOfMonth.Restricted
  hasDowConstraint : sets.hasDowConstraint = true ↔ expression.daysOfWeek.Restricted

theorem exists_readFields : ∃ sets,
    readFields [expression.minutes.text, expression.hours.text, expression.daysOfMonth.text,
      expression.months.text, expression.daysOfWeek.text] = some sets ∧
        sets.Represents expression := by
  obtain ⟨minutes, hminutes, hmemMinutes⟩ := parseCronField_text expression.minutes
  obtain ⟨hours, hhours, hmemHours⟩ := parseCronField_text expression.hours
  obtain ⟨daysOfMonth, hdaysOfMonth, hmemDays⟩ := parseCronField_text expression.daysOfMonth
  obtain ⟨months, hmonths, hmemMonths⟩ := parseCronField_text expression.months
  obtain ⟨daysOfWeek, hdaysOfWeek, hmemWeek⟩ := parseCronField_text expression.daysOfWeek
  refine ⟨⟨minutes, hours, daysOfMonth, months,
    if some 7 ∈ daysOfWeek then daysOfWeek ++ [some 0] else daysOfWeek,
    expression.daysOfMonth.text ≠ ['*'], expression.daysOfWeek.text ≠ ['*']⟩, ?_,
    hmemMinutes, hmemHours, hmemDays, hmemMonths, fun number ↦ ?_, ?_, ?_⟩
  · simp [readFields, hminutes, hhours, hdaysOfMonth, hmonths, hdaysOfWeek]
  · unfold CronExpression.AllowsWeekDay
    dsimp only
    rw [← hmemWeek, ← hmemWeek]
    split_ifs with hsunday
    · simp [hsunday]
    · simp [hsunday]
  · rw [decide_eq_true_iff, Ne, expression.daysOfMonth.text_eq_star_iff, not_not]
  · rw [decide_eq_true_iff, Ne, expression.daysOfWeek.text_eq_star_iff, not_not]

/-! ### The search for a match -/

def CronSets.rules (sets : CronSets) : MinuteRules where
  monthMatch day := some (monthFromDay day + 1) ∈ sets.months
  dayMatch day := sets.dayMatch (dateInMonth day) (weekDay day)
  hourMatch hour := some hour ∈ sets.hours
  minuteMatch minute := some minute ∈ sets.minutes
  nextMonth := nextMonth
  lt_nextMonth := Backup.lt_nextMonth
  monthMatch_eq hle hlt := by rw [monthFromDay_eq_of_lt_nextMonth hle hlt]
  period := 146097
  period_pos := by omega
  monthMatch_sub day := by
    have hperiod := monthFromDay_add_period (day - 146097)
    rw [sub_add_cancel] at hperiod
    simp [hperiod]
  dayMatch_sub day := by
    have hdate := dateInMonth_add_period (day - 146097)
    have hweek := weekDay_add_period (day - 146097)
    rw [sub_add_cancel] at hdate hweek
    simp [hdate, hweek]

/-- A turn of the search from a full minute is a step of the rules. -/
theorem nextCandidate_ofMinute (sets : CronSets) (offset minute : ℤ) :
    nextCandidate sets offset (ofMinute offset minute) =
      (sets.rules.step minute).map (ofMinute offset) := by
  unfold nextCandidate MinuteRules.step
  rw [setMonth_ofMinute, setDate_ofMinute, setHours_ofMinute, setMinutes_ofMinute,
    getHours_ofMinute, getMinutes_ofMinute]
  unfold getMonth getDate getDay
  rw [localDay_ofMinute]
  simp only [CronSets.rules, decide_eq_false_iff_not]
  split_ifs <;> rfl

theorem CronSets.Represents.matches_iff {sets : CronSets} {expression : CronExpression}
    (h : sets.Represents expression) (offset minute : ℤ) :
    sets.rules.Matches minute ↔ expression.Matches offset (ofMinute offset minute) := by
  have hday : sets.dayMatch (dateInMonth (minute / 1440)) (weekDay (minute / 1440)) = true ↔
      expression.AllowsDay (dateFromDay (minute / 1440)) (weekDay (minute / 1440)) := by
    unfold CronSets.dayMatch CronExpression.AllowsDay CronExpression.BothRestricted
    rw [← h.hasDomConstraint, ← h.hasDowConstraint, ← h.daysOfMonth, ← h.daysOfWeek]
    cases sets.hasDomConstraint <;> cases sets.hasDowConstraint <;> simp [dateFromDay]
  constructor
  · intro ⟨hmonth, hdayMatch, hhour, hminute⟩
    refine ⟨?_, ⟨dateFromDay (minute / 1440), valid_dateFromDay _, ?_, ?_, ?_⟩, ?_, ?_⟩
    · rw [localTime_ofMinute]
      exact Int.dvd_mul_left _ _
    · rw [dayNumber_dateFromDay, localDay_ofMinute]
    · exact (h.months _).mp (of_decide_eq_true hmonth)
    · rw [localDay_ofMinute]
      exact hday.mp hdayMatch
    · have hhours := (h.hours _).mp (of_decide_eq_true hhour)
      rwa [← getHours_ofMinute offset] at hhours
    · have hminutes := (h.minutes _).mp (of_decide_eq_true hminute)
      rwa [← getMinutes_ofMinute offset] at hminutes
  · rintro ⟨-, ⟨date, hvalid, hnumber, hmonth, hallows⟩, hhour, hminute⟩
    rw [localDay_ofMinute] at hnumber hallows
    have hdate : dateFromDay (minute / 1440) = date := hnumber ▸ dateFromDay_dayNumber hvalid
    refine ⟨decide_eq_true ((h.months _).mpr ?_), hday.mpr (hdate ▸ hallows),
      decide_eq_true ((h.hours _).mpr ?_), decide_eq_true ((h.minutes _).mpr ?_)⟩
    · rw [show monthFromDay (minute / 1440) + 1 = (dateFromDay (minute / 1440)).month from rfl,
        hdate]
      exact hmonth
    · rw [← getHours_ofMinute offset]
      exact hhour
    · rw [← getMinutes_ofMinute offset]
      exact hminute

/-- `getNextRunTime` returns the earliest instant after the start that the expression matches.
Assumes: it matches one. -/
theorem getNextRunTime_isLeast (offset start : ℤ)
    (h : ∃ instant, start < instant ∧ expression.Matches offset instant) :
    ∃ next, getNextRunTime offset (expression.text spacing) start = some next ∧
      IsLeast {instant | start < instant ∧ expression.Matches offset instant} next := by
  obtain ⟨sets, hsets, hrepresents⟩ := exists_readFields expression
  obtain ⟨instant, hlater, hmatches⟩ := h
  have hminute := eq_ofMinute offset instant hmatches.full
  rw [hminute] at hlater hmatches
  obtain ⟨target, htarget⟩ := MinuteRules.exists_firstMatch
    ((lt_ofMinute_iff offset _ start).mp hlater) ((hrepresents.matches_iff offset _).mpr hmatches)
  have hturns : sets.rules.period + 168 < 366 * 24 * 60 := by
    rw [show sets.rules.period = 146097 from rfl]
    omega
  have hsearch := htarget.search_eq hturns
  have hwords := words_text expression spacing
  have hparts : splitBlanks (expression.text spacing) = words (expression.text spacing) :=
    splitBlanks_eq_words (by rw [hwords]; simp)
  refine ⟨ofMinute offset target, ?_, ⟨?_, ?_⟩, ?_⟩
  · unfold getNextRunTime
    simp only [hparts, hwords, hsets, setMinutes_setSeconds]
    rw [if_neg (by simp), map_some, search_map (nextCandidate_ofMinute sets offset), hsearch,
      map_some, getD_some]
  · exact (lt_ofMinute_iff offset target start).mpr htarget.1.1
  · exact (hrepresents.matches_iff offset target).mp htarget.1.2
  · rintro other ⟨hafter, hother⟩
    have hfull := eq_ofMinute offset other hother.full
    rw [hfull] at hafter hother ⊢
    have hleast := htarget.2 ⟨(lt_ofMinute_iff offset _ start).mp hafter,
      (hrepresents.matches_iff offset _).mpr hother⟩
    unfold ofMinute
    omega

/-- `0 0 29 2 *`. -/
def leapDays : CronExpression where
  minutes := ⟨[⟨.one ⟨⟨[0], by decide⟩, by decide, by decide⟩, none⟩], by simp⟩
  hours := ⟨[⟨.one ⟨⟨[0], by decide⟩, by decide, by decide⟩, none⟩], by simp⟩
  daysOfMonth := ⟨[⟨.one ⟨⟨[2, 9], by decide⟩, by decide, by decide⟩, none⟩], by simp⟩
  months := ⟨[⟨.one ⟨⟨[2], by decide⟩, by decide, by decide⟩, none⟩], by simp⟩
  daysOfWeek := ⟨[⟨.every, none⟩], by simp⟩

def oneBlank : Spacing where
  before := []
  gaps _ := [' ']
  after := []
  blank_before := nofun
  blank_gaps _ := by
    intro character hmem
    rw [mem_singleton.mp hmem]
    rfl
  gaps_ne_nil _ := cons_ne_nil _ _
  blank_after := nofun

theorem leapDays_matches : leapDays.Matches 0 4233686400000 where
  full := by decide
  date := by
    refine ⟨⟨2104, 2, 29⟩, ⟨by decide, by decide, by decide, by decide⟩, by decide,
      ⟨_, mem_singleton_self _, rfl⟩, .inr ⟨fun h ↦ h.2 rfl, ?_, .inl ?_⟩⟩
    · exact ⟨_, mem_singleton_self _, rfl⟩
    · exact ⟨_, mem_singleton_self _, by decide, by decide⟩
  hour := ⟨_, mem_singleton_self _, rfl⟩
  minute := ⟨_, mem_singleton_self _, rfl⟩

/-- From the match of 2096 on, past the year 2100. -/
theorem getNextRunTime_isLeast_leapDays : ∃ next,
    getNextRunTime 0 (leapDays.text oneBlank) 3981312000000 = some next ∧
      IsLeast {instant | 3981312000000 < instant ∧ leapDays.Matches 0 instant} next :=
  getNextRunTime_isLeast leapDays oneBlank 0 3981312000000
    ⟨4233686400000, by decide, leapDays_matches⟩

end Bridgeport.Schedules.Cron
