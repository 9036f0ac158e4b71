import Bridgeport.Docker.Inspect
import Mathlib.Algebra.Order.Ring.Int

/-!
# The fields of a cron expression

`parseCronField` of `services/database-backup.ts` reads a field of a cron expression as a set of
numbers. A number of the source is an integer here, or `none` for `NaN`; the set is a list, and the
reading fails if a loop of it does not end.
-/

namespace Bridgeport.Schedules.Cron

open Foundation Secrets ConfigSync Docker List

/-! ### Reading numbers -/

def hexDigit (character : Char) : ℤ :=
  if character.isDigit then (character.toNat - '0'.toNat : ℕ)
  else (character.toLower.toNat - 'a'.toNat + 10 : ℕ)

/-- The hexadecimal digits at the front of a text as a number. -/
def leadingHex (text : Text) : Option ℤ :=
  match text.takeWhile fun character ↦ character.isDigit ||
      'a' ≤ character.toLower && character.toLower ≤ 'f' with
  | [] => none
  | digits => some (digits.foldl (fun value digit ↦ 16 * value + hexDigit digit) 0)

/-- What `parseInt` reads behind the sign. -/
def parseUnsigned : Text → Option ℤ
  | '0' :: 'x' :: rest => leadingHex rest
  | '0' :: 'X' :: rest => leadingHex rest
  | rest => leadingNumber rest

/-- `parseInt(text)`. -/
def parseInt (text : Text) : Option ℤ :=
  match text.dropWhile isTrimmed with
  | '-' :: rest => (parseUnsigned rest).map (- ·)
  | '+' :: rest => parseUnsigned rest
  | rest => parseUnsigned rest

def wholeNumber (text : Text) : Option ℤ :=
  if text.all Char.isDigit then leadingNumber text else none

/-- `Number(text)` of whole numbers in decimals; fractions, exponents and other notations count as
`NaN`. -/
def number (text : Text) : Option ℤ :=
  match trimBoth isTrimmed text with
  | [] => some 0
  | '-' :: rest => (wholeNumber rest).map (- ·)
  | '+' :: rest => wholeNumber rest
  | rest => wholeNumber rest

/-- `for (let i = start; i <= end; i += step) values.add(i)`, if the loop ends. -/
def loopValues (start stop step : Option ℤ) : Option (List (Option ℤ)) :=
  match start, stop with
  | some start, some stop =>
    if stop < start then some []
    else match step with
      -- the second value is `NaN`, which is not less than the end
      | none => some [some start]
      | some step =>
        if step ≤ 0 then none
        else some ((List.range ((stop - start) / step + 1).toNat).map
          fun turn : ℕ ↦ some (start + turn * step))
  | _, _ => some []

section

variable {Value : Type*} (read : Text → Value) (ofInt : Option ℤ → Value)

/-- `[start, end] = range.split('-').map(Number)`. -/
def rangeEnds (range : Text) : Value × Value :=
  let pieces := range.splitOn '-'
  (read (pieces.getD 0 []), read (pieces.getD 1 []))

/-- The start, the end and the step of the loop over a part, unless the part is a number. What
`Number` makes of a text is a parameter. -/
def partLoop (min max : ℤ) (part : Text) : Option (Value × Value × Option ℤ) :=
  if '/' ∈ part then
    let pieces := part.splitOn '/'
    let range := pieces.getD 0 []
    let step := parseInt (pieces.getD 1 [])
    if range ≠ ['*'] then
      if '-' ∈ range then
        let (start, stop) := rangeEnds read range
        some (start, stop, step)
      else some (ofInt (parseInt range), ofInt (some max), step)
    else some (ofInt (some min), ofInt (some max), step)
  else if part = ['*'] then some (ofInt (some min), ofInt (some max), some 1)
  else if '-' ∈ part then
    let (start, stop) := rangeEnds read part
    some (start, stop, some 1)
  else none

end

def partValues (min max : ℤ) (part : Text) : Option (List (Option ℤ)) :=
  match partLoop number id min max part with
  | some (start, stop, step) => loopValues start stop step
  | none => some [parseInt part]

def parseCronField (field : Text) (min max : ℤ) : Option (List (Option ℤ)) :=
  ((field.splitOn ',').mapM (partValues min max)).map List.flatten

/-! ### Fields -/

/-- A number as it is written, with any zeros in front. -/
structure Numeral where
  digits : List (Fin 10)
  ne_nil : digits ≠ []

def Numeral.value (numeral : Numeral) : ℤ :=
  numeral.digits.foldl (fun value digit ↦ 10 * value + digit.val) 0

def Numeral.text (numeral : Numeral) : Text :=
  numeral.digits.map fun digit : Fin 10 ↦ Nat.digitChar digit.val

/-- A number in the range of a field. -/
structure InRange (min max : ℤ) extends Numeral where
  low : min ≤ toNumeral.value
  high : toNumeral.value ≤ max

structure CronStep extends Numeral where
  positive : 0 < toNumeral.value

inductive CronSpan (min max : ℤ)
  | every
  | one (value : InRange min max)
  | range (first last : InRange min max) (ordered : first.value ≤ last.value)

structure CronPart (min max : ℤ) where
  span : CronSpan min max
  step : Option CronStep

structure CronField (min max : ℤ) where
  parts : List (CronPart min max)
  ne_nil : parts ≠ []

section

variable {min max : ℤ}

def CronSpan.text : CronSpan min max → Text
  | every => ['*']
  | one value => value.text
  | range first last _ => first.text ++ '-' :: last.text

def CronPart.text (part : CronPart min max) : Text :=
  match part.step with
  | none => part.span.text
  | some step => part.span.text ++ '/' :: step.text

variable (field : CronField min max)

def CronField.text : Text :=
  [','].intercalate (field.parts.map (·.text))

/-- The numbers that a part allows: a number with steps begins a range to the end of the field. -/
def CronPart.Allows (part : CronPart min max) (number : ℤ) : Prop :=
  match part.span, part.step with
  | .every, none => min ≤ number ∧ number ≤ max
  | .one value, none => number = value.value
  | .range first last _, none => first.value ≤ number ∧ number ≤ last.value
  | .every, some step => min ≤ number ∧ number ≤ max ∧ step.value ∣ number - min
  | .one value, some step =>
    value.value ≤ number ∧ number ≤ max ∧ step.value ∣ number - value.value
  | .range first last _, some step =>
    first.value ≤ number ∧ number ≤ last.value ∧ step.value ∣ number - first.value

def CronField.Allows (number : ℤ) : Prop :=
  ∃ part ∈ field.parts, part.Allows number

/-- The field is not just `*`. -/
def CronField.Restricted : Prop :=
  field.parts ≠ [⟨.every, none⟩]

end

/-! ### Numbers are read back -/

theorem isDigit_digitChar (digit : Fin 10) : (Nat.digitChar digit.val).isDigit = true := by
  revert digit
  decide

theorem toNat_digitChar (digit : Fin 10) :
    (Nat.digitChar digit.val).toNat - '0'.toNat = digit.val := by
  revert digit
  decide

variable {character : Char}

theorem not_isTrimmed_of_isDigit (h : character.isDigit = true) : isTrimmed character = false := by
  have hbounds : 48 ≤ character.toNat ∧ character.toNat ≤ 57 := by
    simpa [Char.isDigit, UInt32.le_iff_toNat_le] using h
  unfold isTrimmed
  simp only [mem_cons, not_mem_nil, or_false, decide_eq_false_iff_not]
  omega

section

variable (numeral : Numeral)

theorem Numeral.isDigit_of_mem (h : character ∈ numeral.text) : character.isDigit = true := by
  obtain ⟨digit, -, rfl⟩ := mem_map.mp h
  exact isDigit_digitChar digit

theorem Numeral.notMem_text (h : character.isDigit = false) : character ∉ numeral.text :=
  fun hmem ↦ absurd (numeral.isDigit_of_mem hmem) (by simp [h])

theorem Numeral.text_ne_nil : numeral.text ≠ [] :=
  fun h ↦ numeral.ne_nil (map_eq_nil_iff.mp h)

theorem Numeral.leadingNumber_text : leadingNumber numeral.text = some numeral.value := by
  have hdigits : numeral.text.takeWhile Char.isDigit = numeral.text :=
    takeWhile_eq_self_iff.mpr fun character hmem ↦ numeral.isDigit_of_mem hmem
  unfold leadingNumber
  rw [hdigits]
  split
  · exact absurd ‹_› numeral.text_ne_nil
  · unfold Numeral.text Numeral.value
    rw [foldl_map]
    simp only [toNat_digitChar]

theorem Numeral.dropWhile_text : numeral.text.dropWhile isTrimmed = numeral.text := by
  obtain ⟨first, rest, htext⟩ := exists_cons_of_ne_nil numeral.text_ne_nil
  have hfirst := not_isTrimmed_of_isDigit
    (numeral.isDigit_of_mem (htext ▸ mem_cons_self : first ∈ numeral.text))
  rw [htext, dropWhile_cons_of_neg (by simp [hfirst])]

theorem Numeral.trimBoth_text : trimBoth isTrimmed numeral.text = numeral.text := by
  refine trimBoth_eq_self (fun first hfirst ↦ ?_) fun last hlast ↦ ?_
  · simp [not_isTrimmed_of_isDigit (numeral.isDigit_of_mem (mem_of_mem_head? hfirst))]
  · simp [not_isTrimmed_of_isDigit (numeral.isDigit_of_mem (mem_of_mem_getLast? hlast))]

theorem Numeral.parseUnsigned_text : parseUnsigned numeral.text = some numeral.value := by
  unfold parseUnsigned
  split
  · rename_i rest htext
    exact absurd (htext ▸ by simp : 'x' ∈ numeral.text) (numeral.notMem_text rfl)
  · rename_i rest htext
    exact absurd (htext ▸ by simp : 'X' ∈ numeral.text) (numeral.notMem_text rfl)
  · exact numeral.leadingNumber_text

theorem Numeral.parseInt_text : parseInt numeral.text = some numeral.value := by
  unfold parseInt
  rw [numeral.dropWhile_text]
  split
  · rename_i rest htext
    exact absurd (htext ▸ mem_cons_self : '-' ∈ numeral.text) (numeral.notMem_text rfl)
  · rename_i rest htext
    exact absurd (htext ▸ mem_cons_self : '+' ∈ numeral.text) (numeral.notMem_text rfl)
  · exact numeral.parseUnsigned_text

theorem Numeral.number_text : number numeral.text = some numeral.value := by
  have hdigits : numeral.text.all Char.isDigit = true :=
    all_eq_true.mpr fun character hmem ↦ numeral.isDigit_of_mem hmem
  unfold number
  rw [numeral.trimBoth_text]
  split
  · exact absurd ‹_› numeral.text_ne_nil
  · rename_i rest htext
    exact absurd (htext ▸ mem_cons_self : '-' ∈ numeral.text) (numeral.notMem_text rfl)
  · rename_i rest htext
    exact absurd (htext ▸ mem_cons_self : '+' ∈ numeral.text) (numeral.notMem_text rfl)
  · rw [wholeNumber, if_pos hdigits]
    exact numeral.leadingNumber_text

end

/-! ### Fields are read as what they allow -/

def Reads (result : Option (List (Option ℤ))) (allowed : ℤ → Prop) : Prop :=
  ∃ values, result = some values ∧ ∀ number, some number ∈ values ↔ allowed number

theorem reads_loopValues (start stop : ℤ) {step : ℤ} (hstep : 0 < step) :
    Reads (loopValues (some start) (some stop) (some step))
      fun number ↦ start ≤ number ∧ number ≤ stop ∧ step ∣ number - start := by
  have hpositive : ¬ step ≤ 0 := not_le.mpr hstep
  unfold loopValues
  simp only [hpositive, if_false]
  split_ifs with hempty
  · refine ⟨[], rfl, fun number ↦ iff_of_false not_mem_nil ?_⟩
    rintro ⟨hlow, hhigh, -⟩
    omega
  · refine ⟨_, rfl, fun number ↦ ?_⟩
    simp only [mem_map, mem_range, Option.some.injEq]
    have hnonneg : 0 ≤ (stop - start) / step := Int.ediv_nonneg (by omega) hstep.le
    constructor
    · rintro ⟨turn, hturn, rfl⟩
      have hless : (turn : ℤ) ≤ (stop - start) / step := by omega
      have hbound := (Int.le_ediv_iff_mul_le hstep).mp hless
      have hturns : 0 ≤ turn * step := Int.mul_nonneg (Int.natCast_nonneg turn) hstep.le
      refine ⟨by omega, by omega, ?_⟩
      rw [add_sub_cancel_left]
      exact Int.dvd_mul_left _ _
    · rintro ⟨hlow, hhigh, turn, hturn⟩
      have hturn_nonneg : 0 ≤ turn := by
        by_contra hnegative
        have hless := Int.mul_neg_of_pos_of_neg hstep (not_le.mp hnegative)
        omega
      have hturns : turn ≤ (stop - start) / step := by
        rw [Int.le_ediv_iff_mul_le hstep, mul_comm, ← hturn]
        omega
      refine ⟨turn.toNat, by omega, ?_⟩
      rw [Int.toNat_of_nonneg hturn_nonneg, mul_comm, ← hturn]
      omega

theorem Reads.congr {result : Option (List (Option ℤ))} {allowed other : ℤ → Prop}
    (h : Reads result allowed) (hiff : ∀ number, allowed number ↔ other number) :
    Reads result other := by
  obtain ⟨values, hvalues, hmem⟩ := h
  exact ⟨values, hvalues, fun number ↦ (hmem number).trans (hiff number)⟩

section

variable {min max : ℤ} (span : CronSpan min max)

theorem CronSpan.notMem_text (hdigit : character.isDigit = false) (hstar : character ≠ '*')
    (hdash : character ≠ '-') : character ∉ span.text := by
  cases span with
  | every => simpa [CronSpan.text] using hstar
  | one value => exact value.notMem_text hdigit
  | range first last ordered =>
    simp [CronSpan.text, first.notMem_text hdigit, last.notMem_text hdigit, hdash]

theorem CronPart.notMem_text (part : CronPart min max) : ',' ∉ part.text := by
  unfold CronPart.text
  have hspan : ',' ∉ part.span.text := part.span.notMem_text rfl (by decide) (by decide)
  cases part.step with
  | none => exact hspan
  | some step =>
    have hstep : ',' ∉ step.text := step.notMem_text rfl
    simp [hspan, hstep]

theorem Numeral.text_ne_star (numeral : Numeral) : numeral.text ≠ ['*'] := by
  intro htext
  exact absurd (htext ▸ mem_cons_self : '*' ∈ numeral.text) (numeral.notMem_text rfl)

theorem rangeEnds_text (first last : Numeral) : rangeEnds number (first.text ++ '-' :: last.text) =
    (some first.value, some last.value) := by
  unfold rangeEnds
  rw [splitOn_append_cons_self_of_not_mem (first.notMem_text rfl),
    splitOn_eq_singleton (last.notMem_text rfl)]
  exact Prod.ext first.number_text last.number_text

theorem range_text_ne_star (first last : Numeral) : first.text ++ '-' :: last.text ≠ ['*'] := by
  intro htext
  exact absurd (htext ▸ by simp : '-' ∈ ['*']) (by decide)

theorem reads_span : Reads (partValues min max span.text) (CronPart.Allows ⟨span, none⟩) := by
  have hslash : '/' ∉ span.text := span.notMem_text rfl (by decide) (by decide)
  unfold partValues partLoop
  rw [if_neg hslash]
  cases span with
  | every =>
    have hstar : (CronSpan.every : CronSpan min max).text = ['*'] := rfl
    rw [if_pos hstar]
    exact (reads_loopValues min max Int.one_pos).congr fun number ↦ by simp [CronPart.Allows]
  | one value =>
    have hstar : (CronSpan.one value).text ≠ ['*'] := value.text_ne_star
    have hdash : '-' ∉ (CronSpan.one value).text := value.notMem_text rfl
    rw [if_neg hstar, if_neg hdash]
    refine ⟨_, rfl, fun number ↦ ?_⟩
    simp [CronSpan.text, CronPart.Allows, value.parseInt_text]
  | range first last ordered =>
    have hstar : (CronSpan.range first last ordered).text ≠ ['*'] := range_text_ne_star _ _
    have hdash : '-' ∈ (CronSpan.range first last ordered).text := by simp [CronSpan.text]
    rw [if_neg hstar, if_pos hdash]
    unfold CronSpan.text
    rw [rangeEnds_text]
    exact (reads_loopValues first.value last.value Int.one_pos).congr
      fun number ↦ by simp [CronPart.Allows]

theorem reads_stepped (step : CronStep) :
    Reads (partValues min max (span.text ++ '/' :: step.text))
      (CronPart.Allows ⟨span, some step⟩) := by
  have hslash : '/' ∉ span.text := span.notMem_text rfl (by decide) (by decide)
  have hpieces : (span.text ++ '/' :: step.text).splitOn '/' = [span.text, step.text] := by
    rw [splitOn_append_cons_self_of_not_mem hslash, splitOn_eq_singleton (step.notMem_text rfl)]
  unfold partValues partLoop
  rw [if_pos (by simp), hpieces]
  simp only [getD_cons_zero, getD_cons_succ, step.parseInt_text]
  cases span with
  | every =>
    have hstar : ¬ (CronSpan.every : CronSpan min max).text ≠ ['*'] := not_not.mpr rfl
    rw [if_neg hstar]
    exact reads_loopValues min max step.positive
  | one value =>
    have hstar : (CronSpan.one value).text ≠ ['*'] := value.text_ne_star
    have hdash : '-' ∉ (CronSpan.one value).text := value.notMem_text rfl
    rw [if_pos hstar, if_neg hdash]
    unfold CronSpan.text
    rw [value.parseInt_text]
    exact reads_loopValues value.value max step.positive
  | range first last ordered =>
    have hstar : (CronSpan.range first last ordered).text ≠ ['*'] := range_text_ne_star _ _
    have hdash : '-' ∈ (CronSpan.range first last ordered).text := by simp [CronSpan.text]
    rw [if_pos hstar, if_pos hdash]
    unfold CronSpan.text
    rw [rangeEnds_text]
    exact reads_loopValues first.value last.value step.positive

theorem reads_part (part : CronPart min max) :
    Reads (partValues min max part.text) part.Allows := by
  obtain ⟨span, step⟩ := part
  cases step with
  | none => exact reads_span span
  | some step => exact reads_stepped span step

theorem reads_parts (parts : List (CronPart min max)) :
    Reads (((parts.map (·.text)).mapM (partValues min max)).map List.flatten)
      fun number ↦ ∃ part ∈ parts, part.Allows number := by
  induction parts with
  | nil => exact ⟨[], rfl, fun number ↦ by simp⟩
  | cons part parts ih =>
    obtain ⟨values, hvalues, hmem⟩ := reads_part part
    obtain ⟨others, hothers, hmemOthers⟩ := ih
    obtain ⟨lists, hlists, rfl⟩ := Option.map_eq_some_iff.mp hothers
    refine ⟨values ++ lists.flatten, ?_, fun number ↦ ?_⟩
    · simp [mapM_cons, hvalues, hlists]
    · rw [mem_append, hmem, hmemOthers]
      exact (exists_mem_cons_iff (·.Allows number) part parts).symm

variable (field : CronField min max)

theorem CronField.splitOn_text : field.text.splitOn ',' = field.parts.map (·.text) := by
  refine splitOn_intercalate ',' ?_ (by simpa using field.ne_nil)
  simp only [mem_map, forall_exists_index, and_imp, forall_apply_eq_imp_iff₂]
  exact fun part _ ↦ part.notMem_text

/-- `parseCronField` reads the text of a field as the numbers that it allows. -/
theorem parseCronField_text : Reads (parseCronField field.text min max) field.Allows := by
  unfold parseCronField
  rw [field.splitOn_text]
  exact reads_parts field.parts

/-- The field is `*` exactly if its text is. -/
theorem CronField.text_eq_star_iff : field.text = ['*'] ↔ ¬ field.Restricted := by
  unfold CronField.Restricted
  rw [not_not]
  constructor
  · intro htext
    have hpieces := field.splitOn_text
    rw [htext, splitOn_eq_singleton (by decide)] at hpieces
    obtain ⟨⟨span, step⟩, hparts, hpart⟩ := map_eq_singleton_iff.mp hpieces.symm
    rw [hparts]
    cases step with
    | some step =>
      exact absurd (hpart ▸ by simp [CronPart.text] : '/' ∈ ['*']) (by decide)
    | none =>
      cases span with
      | every => rfl
      | one value => exact absurd hpart value.text_ne_star
      | range first last ordered =>
        exact absurd hpart (range_text_ne_star first.toNumeral last.toNumeral)
  · intro hparts
    unfold CronField.text
    rw [hparts]
    rfl

end

end Bridgeport.Schedules.Cron
