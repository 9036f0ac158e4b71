import Bridgeport.Foundation.OrderedMap
import Mathlib.Algebra.BigOperators.Group.Finset.Basic
import Mathlib.Algebra.Order.Ring.Int

/-!
# Backup rotation

The selection of `rotateDatabase`: the retention tiers of `selectKeep`, the safety floor of
`applyFloor` and the storage cap of `applySizeCap`, applied in this order to the completed scheduled
unpinned backups of a database. Completed backups that are manual or pinned are exempt: they are
never candidates, and count towards the floor and the cap.

Instants are milliseconds since 1970 and sizes are integers. A set of ids is a `Finset`, since the
order in which the code iterates over one only feeds a sum. Sorting is stable, as in the language.
-/

namespace Bridgeport.Backup

variable (year month day date : ℤ)

section

/-- A calendar date, as `tzDateParts` returns it. -/
structure CalendarDate where
  (year month day : ℤ)

/-- `tzDateParts` in a fixed time zone. -/
abbrev TimeZone := ℤ → CalendarDate

/-! ### UTC dates as day numbers -/

def dayFromYear : ℤ :=
  365 * (year - 1970) + (year - 1969) / 4 - (year - 1901) / 100 + (year - 1601) / 400

def inLeapYear : Bool :=
  dayFromYear (year + 1) - dayFromYear year = 366

def daysBeforeMonth : ℤ :=
  [0, 31, 59, 90, 120, 151, 181, 212, 243, 273, 304, 334].getD month.toNat 0 +
    if inLeapYear year ∧ 2 ≤ month then 1 else 0

/-- The day number of a date; the month is counted from 0 and may lie outside the year. -/
def makeDay : ℤ :=
  dayFromYear (year + month / 12) + daysBeforeMonth (year + month / 12) (month % 12) + date - 1

def makeFullYear : ℤ :=
  if 0 ≤ year ∧ year ≤ 99 then 1900 + year else year

/-- `Date.UTC`, in days. -/
def dateUTC : ℤ :=
  makeDay (makeFullYear year) month date

/-- `getUTCDay`: Sunday is 0. -/
def weekDay : ℤ :=
  (day + 4) % 7

/-- `getUTCFullYear`: the year whose first day is the last one not after the day. -/
def yearFromDay : ℤ :=
  let year := 1970 + day * 400 / 146097
  if day < dayFromYear year then year - 1
  else if dayFromYear (year + 1) ≤ day then year + 1
  else year

/-- `String(n).padStart(2, '0')`. -/
def padTwo (n : ℤ) : String :=
  if (toString n).length < 2 then "0" ++ toString n else toString n

def isoWeekKey : String :=
  let date := dateUTC year (month - 1) day
  let dow := if weekDay date = 0 then 7 else weekDay date
  let thursday := date + (4 - dow)
  let isoYear := yearFromDay thursday
  let jan1 := dateUTC isoYear 0 1
  let week := (thursday - jan1) / 7 + 1
  toString isoYear ++ "-W" ++ padTwo week

/-- The granularity of a retention tier. -/
inductive Period
  | day
  | week
  | month
  | year

def periodKey (tz : TimeZone) (createdAt : ℤ) (period : Period) : String :=
  let date := tz createdAt
  match period with
  | .day => toString date.year ++ "-" ++ padTwo date.month ++ "-" ++ padTwo date.day
  | .week => isoWeekKey date.year date.month date.day
  | .month => toString date.year ++ "-" ++ padTwo date.month
  | .year => toString date.year

end

open Foundation

structure RetentionPolicy where
  (keepLast daily weekly monthly yearly minFloor : ℤ)
  maxTotalBytes : Option ℤ

/-- What the selection reads of a backup. -/
structure RotationCandidate where
  id : String
  (createdAt size : ℤ)

variable (candidates : List RotationCandidate)

def byNewest : List RotationCandidate :=
  candidates.mergeSort fun a b ↦ b.createdAt ≤ a.createdAt

def byOldest : List RotationCandidate :=
  candidates.mergeSort fun a b ↦ a.createdAt ≤ b.createdAt

def addIds (keep : Finset String) (chosen : List RotationCandidate) : Finset String :=
  chosen.foldl (fun keep candidate ↦ insert candidate.id keep) keep

/-- One candidate of the bucketing loop: it takes its bucket when the bucket is new or the candidate
is newer than the one there. -/
def bucketCandidate (tz : TimeZone) (period : Period)
    (newestByBucket : OrderedMap String RotationCandidate) (candidate : RotationCandidate) :
    OrderedMap String RotationCandidate :=
  let key := periodKey tz candidate.createdAt period
  match newestByBucket.get key with
  | none => newestByBucket.set key candidate
  | some current =>
    if candidate.createdAt > current.createdAt then newestByBucket.set key candidate
    else newestByBucket

/-- `selectPeriodTier`: the newest candidate of each of the `count` last buckets. -/
def selectPeriodTier (tz : TimeZone) (candidates : List RotationCandidate) (period : Period)
    (count : ℤ) : Finset String :=
  if count ≤ 0 then ∅
  else
    let newestByBucket := candidates.foldl (bucketCandidate tz period) OrderedMap.empty
    let keys := ((newestByBucket.keys.mergeSort (· ≤ ·)).reverse).take count.toNat
    addIds ∅ (keys.filterMap newestByBucket.get)

/-- `selectKeep`: the union of the tiers. -/
def selectKeep (tz : TimeZone) (candidates : List RotationCandidate) (policy : RetentionPolicy) :
    Finset String :=
  addIds ∅ ((byNewest candidates).take (max 0 policy.keepLast).toNat) ∪
    selectPeriodTier tz candidates .day policy.daily ∪
    selectPeriodTier tz candidates .week policy.weekly ∪
    selectPeriodTier tz candidates .month policy.monthly ∪
    selectPeriodTier tz candidates .year policy.yearly

/-- The loop of `applyFloor`: ids are added until enough backups are retained. -/
def fillFloor (exemptSuccessfulCount : ℕ) (minFloor : ℤ) :
    List RotationCandidate → Finset String → Finset String
  | [], keep => keep
  | candidate :: rest, keep =>
    if minFloor ≤ exemptSuccessfulCount + keep.card then keep
    else fillFloor exemptSuccessfulCount minFloor rest (insert candidate.id keep)

/-- The newest backups are kept until the floor is reached. -/
def applyFloor (keepIds : Finset String) (exemptSuccessfulCount : ℕ) (minFloor : ℤ) :
    Finset String :=
  fillFloor exemptSuccessfulCount minFloor (byNewest candidates) keepIds

def sizeById : OrderedMap String ℤ :=
  candidates.foldl (fun sizes candidate ↦ sizes.set candidate.id candidate.size) OrderedMap.empty

/-- The loop of `applySizeCap` over the victims, from the oldest on: ids are evicted until the total
fits the cap or the floor protects the next victim. -/
def evictVictims (exemptSuccessfulCount : ℕ) (minFloor maxTotalBytes : ℤ) :
    List RotationCandidate → Finset String → ℤ → Finset String × ℤ
  | [], keep, total => (keep, total)
  | victim :: rest, keep, total =>
    if total ≤ maxTotalBytes then (keep, total)
    else if exemptSuccessfulCount + ((keep.card : ℤ) - 1) < minFloor then (keep, total)
    else
      evictVictims exemptSuccessfulCount minFloor maxTotalBytes rest (keep.erase victim.id)
        (total - victim.size)

/-- The answer of `applySizeCap`. -/
structure CapResult where
  keep : Finset String
  cappedButUnreachable : Bool

/-- The oldest backups are evicted until the rest fits the cap. -/
def applySizeCap (keepIds : Finset String) (exemptSize : ℤ) (exemptSuccessfulCount : ℕ)
    (minFloor : ℤ) (maxTotalBytes : Option ℤ) : CapResult :=
  match maxTotalBytes with
  | none => ⟨keepIds, false⟩
  | some cap =>
    let total := exemptSize + ∑ id ∈ keepIds, ((sizeById candidates).get id).getD 0
    let keptOldestFirst := byOldest (candidates.filter (·.id ∈ keepIds))
    let (keep, total) :=
      evictVictims exemptSuccessfulCount minFloor cap keptOldestFirst keepIds total
    ⟨keep, cap < total⟩

/-! ### The rotation of a database -/

/-- `DatabaseBackup.type`. -/
inductive BackupType
  | manual
  | scheduled
  deriving DecidableEq

/-- `DatabaseBackup.status`. -/
inductive BackupStatus
  | pending
  | inProgress
  | completed
  | failed
  deriving DecidableEq

/-- What the rotation reads of a backup row. -/
structure DatabaseBackup extends RotationCandidate where
  databaseId : String
  type : BackupType
  status : BackupStatus
  isPinned : Bool

variable (rows : List DatabaseBackup) (databaseId : String)

def candidatesOf : List RotationCandidate :=
  byNewest ((rows.filter fun row ↦ row.databaseId = databaseId ∧ row.status = .completed ∧
    row.type = .scheduled ∧ ¬ row.isPinned).map (·.toRotationCandidate))

def exemptOf : List DatabaseBackup :=
  rows.filter fun row ↦ row.databaseId = databaseId ∧ row.status = .completed ∧
    (row.type = .manual ∨ row.isPinned)

/-- The three selections in the order of `rotateDatabase`. -/
def retain (tz : TimeZone) (policy : RetentionPolicy) (candidates : List RotationCandidate)
    (exemptSuccessfulCount : ℕ) (exemptSize : ℤ) : CapResult :=
  let keep := selectKeep tz candidates policy
  let keep := applyFloor candidates keep exemptSuccessfulCount policy.minFloor
  applySizeCap candidates keep exemptSize exemptSuccessfulCount policy.minFloor policy.maxTotalBytes

/-- What a rotation of a database decides. -/
structure RotationResult where
  (keep prune : List String)
  bytesFreed : ℤ
  cappedButUnreachable : Bool

/-- The decision of `rotateDatabase`, as its dry run returns it. -/
def planRotation (tz : TimeZone) (policy : RetentionPolicy) (rows : List DatabaseBackup)
    (databaseId : String) : RotationResult :=
  let candidates := candidatesOf rows databaseId
  let exempt := exemptOf rows databaseId
  let result := retain tz policy candidates exempt.length ((exempt.map (·.size)).sum)
  let keepList := candidates.filter (·.id ∈ result.keep)
  let pruneList := candidates.filter (·.id ∉ result.keep)
  { keep := keepList.map (·.id)
    prune := pruneList.map (·.id)
    bytesFreed := (pruneList.map (·.size)).sum
    cappedButUnreachable := result.cappedButUnreachable }

end Bridgeport.Backup
