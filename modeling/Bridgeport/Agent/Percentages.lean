import Bridgeport.Secrets.Placeholders
import Mathlib

/-!
# The percentages of the agent

`getCPUPercent` and `getMemoryInfo` of `collector/system.go` and the CPU percentage of a container
in `collector/docker.go`. Counters are 64-bit words and differences of them wrap; quotients are
rational numbers. A file is the list of its lines, or `none` if it cannot be read.
-/

namespace Bridgeport.Agent

open Secrets List

/-- `unicode.IsSpace`. -/
def isSpace (character : Char) : Bool :=
  character.toNat ∈ [0x9, 0xA, 0xB, 0xC, 0xD, 0x20, 0x85, 0xA0, 0x1680, 0x2000, 0x2001, 0x2002,
    0x2003, 0x2004, 0x2005, 0x2006, 0x2007, 0x2008, 0x2009, 0x200A, 0x2028, 0x2029, 0x202F, 0x205F,
    0x3000]

/-- `strings.Fields(line)`. -/
def fields (line : Text) : List Text :=
  (line.splitOnP isSpace).filter (· ≠ [])

/-- The loop of `strconv.ParseUint` over the digits. -/
def parseDigits (value : ℕ) : Text → UInt64
  | [] => .ofNat value
  | digit :: rest =>
    if digit.isDigit then
      let next := 10 * value + (digit.toNat - '0'.toNat)
      if 2 ^ 64 ≤ next then .ofNat (2 ^ 64 - 1) else parseDigits next rest
    else 0

/-- What `strconv.ParseUint(text, 10, 64)` returns beside the error: 0 if the text is not a number
and the greatest word if the number is too large. -/
def parseUint (text : Text) : UInt64 :=
  parseDigits 0 text

structure CpuStats where
  (user nice system idle iowait irq softirq steal : UInt64)

variable (stats : CpuStats)

def CpuStats.total : UInt64 :=
  stats.user + stats.nice + stats.system + stats.idle + stats.iowait + stats.irq + stats.softirq +
    stats.steal

def CpuStats.idleTime : UInt64 :=
  stats.idle + stats.iowait

/-- The reading of `/proc/stat`, if its first line has the counters. -/
def readCpuStats (line : Text) : Option CpuStats :=
  let fields := fields line
  if fields.length < 8 ∨ fields.head? ≠ some ['c', 'p', 'u'] then none
  else some {
    user := parseUint (fields.getD 1 [])
    nice := parseUint (fields.getD 2 [])
    system := parseUint (fields.getD 3 [])
    idle := parseUint (fields.getD 4 [])
    iowait := parseUint (fields.getD 5 [])
    irq := parseUint (fields.getD 6 [])
    softirq := parseUint (fields.getD 7 [])
    steal := if 8 < fields.length then parseUint (fields.getD 8 []) else 0 }

/-- `(totalDelta - idleDelta) / totalDelta * 100`. -/
def busyPercent (totalDelta idleDelta : UInt64) : ℚ :=
  if totalDelta = 0 then 0
  else ((totalDelta.toNat : ℚ) - idleDelta.toNat) / totalDelta.toNat * 100

variable (lastCPUStats : Option CpuStats)

/-- The percentage, unless there is an error, and the reading that is kept for the next call. -/
def getCPUPercent : Option (List Text) → Option ℚ × Option CpuStats
  | none => (none, lastCPUStats)
  | some [] => (some 0, lastCPUStats)
  | some (line :: _) =>
    match readCpuStats line, lastCPUStats with
    | none, _ => (some 0, lastCPUStats)
    | some current, none => (some 0, some current)
    | some current, some last =>
      (some (busyPercent (current.total - last.total) (current.idleTime - last.idleTime)),
        some current)

structure MemoryCounters where
  (memTotal memAvailable swapTotal swapFree : UInt64)

variable (counters : MemoryCounters)

def readMemoryLine (line : Text) : MemoryCounters :=
  match fields line with
  | label :: number :: _ =>
    let value := parseUint number
    if label = "MemTotal:".toList then { counters with memTotal := value }
    else if label = "MemAvailable:".toList then { counters with memAvailable := value }
    else if label = "SwapTotal:".toList then { counters with swapTotal := value }
    else if label = "SwapFree:".toList then { counters with swapFree := value }
    else counters
  | _ => counters

structure MemoryInfo where
  (memTotalMb memUsedMb swapTotalMb swapUsedMb : ℚ)

def getMemoryInfo (file : Option (List Text)) : Option MemoryInfo :=
  file.map fun lines ↦
    let counters := lines.foldl readMemoryLine ⟨0, 0, 0, 0⟩
    { memTotalMb := counters.memTotal.toNat / 1024
      memUsedMb := (counters.memTotal - counters.memAvailable).toNat / 1024
      swapTotalMb := counters.swapTotal.toNat / 1024
      swapUsedMb := (counters.swapTotal - counters.swapFree).toNat / 1024 }

/-- The statistics of a container that its CPU percentage is computed from. -/
structure ContainerCpu where
  (totalUsage systemCPUUsage : UInt64)
  onlineCPUs : ℕ

def containerCpuPercent (preCPUStats cpuStats : ContainerCpu) : ℚ :=
  let cpuDelta := cpuStats.totalUsage - preCPUStats.totalUsage
  let systemDelta := cpuStats.systemCPUUsage - preCPUStats.systemCPUUsage
  if 0 < systemDelta ∧ 0 < cpuDelta then
    (cpuDelta.toNat : ℚ) / systemDelta.toNat * cpuStats.onlineCPUs * 100
  else 0

/-! ### What is promised -/

/-- The use of a container advances by no more than the system time. -/
def Consistent (preCPUStats cpuStats : ContainerCpu) : Prop :=
  cpuStats.totalUsage - preCPUStats.totalUsage ≤
    cpuStats.systemCPUUsage - preCPUStats.systemCPUUsage

structure PercentagesInRange (lastCPUStats : Option CpuStats) (stat meminfo : Option (List Text))
    (preCPUStats cpuStats : ContainerCpu) : Prop where
  processor : ∀ percent, (getCPUPercent lastCPUStats stat).1 = some percent →
    0 ≤ percent ∧ percent ≤ 100
  memory : ∀ info, getMemoryInfo meminfo = some info →
    info.memUsedMb ≤ info.memTotalMb ∧ info.swapUsedMb ≤ info.swapTotalMb
  container : Consistent preCPUStats cpuStats → 0 ≤ containerCpuPercent preCPUStats cpuStats ∧
    containerCpuPercent preCPUStats cpuStats ≤ 100 * cpuStats.onlineCPUs

/-- The counters of the time that is not idle. -/
def CpuStats.busyTime : UInt64 :=
  stats.user + stats.nice + stats.system + stats.irq + stats.softirq + stats.steal

/-- The idle and the busy time, each advancing modulo 2^64, advance by at most 2^64 together: a sum
that moves backwards advances by nearly as much alone. -/
def Advances (last current : CpuStats) : Prop :=
  (current.idleTime - last.idleTime).toNat + (current.busyTime - last.busyTime).toNat ≤ 2 ^ 64

/-- The value of a line with the label. -/
def labelled (label : String) (line : Text) : Option UInt64 :=
  match fields line with
  | first :: number :: _ => if first = label.toList then some (parseUint number) else none
  | _ => none

/-- The value of the last line with the label, 0 without one. -/
def lastValue (label : String) (lines : List Text) : UInt64 :=
  (lines.filterMap (labelled label)).getLast?.getD 0

structure CountersAddUp (lastCPUStats : Option CpuStats) (stat meminfo : Option (List Text)) :
    Prop where
  processor : ∀ last, lastCPUStats = some last → ∀ line lines, stat = some (line :: lines) →
    ∀ current, readCpuStats line = some current → Advances last current
  memory : ∀ lines, meminfo = some lines →
    lastValue "MemAvailable:" lines ≤ lastValue "MemTotal:" lines ∧
      lastValue "SwapFree:" lines ≤ lastValue "SwapTotal:" lines

theorem cast_toNat_pos {word : UInt64} (hword : word ≠ 0) : (0 : ℚ) < word.toNat :=
  Nat.cast_pos.mpr (Nat.pos_of_ne_zero fun h ↦ hword (UInt64.toNat_inj.mp h))

theorem busyPercent_le (totalDelta idleDelta : UInt64) : busyPercent totalDelta idleDelta ≤ 100 := by
  unfold busyPercent
  split_ifs with hzero
  · norm_num
  · have hshare : ((totalDelta.toNat : ℚ) - idleDelta.toNat) / totalDelta.toNat ≤ 1 :=
      (div_le_one₀ (cast_toNat_pos hzero)).mpr (sub_le_self _ (Nat.cast_nonneg _))
    linarith

theorem busyPercent_nonneg_iff (totalDelta idleDelta : UInt64) :
    0 ≤ busyPercent totalDelta idleDelta ↔ totalDelta = 0 ∨ idleDelta ≤ totalDelta := by
  unfold busyPercent
  split_ifs with hzero
  · simp [hzero]
  · rw [or_iff_right hzero, mul_nonneg_iff_of_pos_right (by norm_num : (0 : ℚ) < 100),
      le_div_iff₀ (cast_toNat_pos hzero), zero_mul, sub_nonneg, Nat.cast_le, UInt64.le_iff_toNat_le]

theorem total_sub_total (last current : CpuStats) : current.total - last.total =
    (current.idleTime - last.idleTime) + (current.busyTime - last.busyTime) := by
  unfold CpuStats.total CpuStats.idleTime CpuStats.busyTime
  grind

/-- A sum of words is zero or not less than the first of them if it does not wrap past zero. -/
theorem le_add_or_zero_iff (first second : UInt64) :
    first + second = 0 ∨ first ≤ first + second ↔ first.toNat + second.toNat ≤ 2 ^ 64 := by
  have hfirst := first.toNat_lt
  have hsecond := second.toNat_lt
  rw [← UInt64.toNat_inj, UInt64.le_iff_toNat_le, UInt64.toNat_add]
  simp only [UInt64.toNat_zero]
  omega

theorem busyPercent_mem_iff (last current : CpuStats) :
    0 ≤ busyPercent (current.total - last.total) (current.idleTime - last.idleTime) ∧
      busyPercent (current.total - last.total) (current.idleTime - last.idleTime) ≤ 100 ↔
    Advances last current := by
  rw [and_iff_left (busyPercent_le _ _), busyPercent_nonneg_iff, total_sub_total]
  exact le_add_or_zero_iff _ _

theorem readMemoryLine_eq (line : Text) : readMemoryLine counters line = {
      memTotal := (labelled "MemTotal:" line).getD counters.memTotal
      memAvailable := (labelled "MemAvailable:" line).getD counters.memAvailable
      swapTotal := (labelled "SwapTotal:" line).getD counters.swapTotal
      swapFree := (labelled "SwapFree:" line).getD counters.swapFree } := by
  have hnames : "MemTotal:".toList ≠ "MemAvailable:".toList ∧
      "MemTotal:".toList ≠ "SwapTotal:".toList ∧ "MemTotal:".toList ≠ "SwapFree:".toList ∧
      "MemAvailable:".toList ≠ "SwapTotal:".toList ∧ "MemAvailable:".toList ≠ "SwapFree:".toList ∧
      "SwapTotal:".toList ≠ "SwapFree:".toList := by
    decide +kernel
  unfold readMemoryLine labelled
  generalize "MemTotal:".toList = total, "MemAvailable:".toList = available at hnames ⊢
  generalize "SwapTotal:".toList = swapTotal, "SwapFree:".toList = swapFree at hnames ⊢
  obtain ⟨htotal, hswapTotal, hfree, hrest⟩ := hnames
  match fields line with
  | [] | [_] => rfl
  | label :: number :: _ =>
    simp only
    split_ifs <;> simp_all

/-- The loop keeps the value of the last line with each label. -/
theorem foldl_readMemoryLine (lines : List Text) :
    lines.foldl readMemoryLine ⟨0, 0, 0, 0⟩ = {
      memTotal := lastValue "MemTotal:" lines
      memAvailable := lastValue "MemAvailable:" lines
      swapTotal := lastValue "SwapTotal:" lines
      swapFree := lastValue "SwapFree:" lines } := by
  have hlast (label : String) (lines : List Text) (line : Text) :
      lastValue label (lines ++ [line]) = (labelled label line).getD (lastValue label lines) := by
    unfold lastValue
    rw [filterMap_append, getLast?_append]
    cases hline : labelled label line <;> simp [hline]
  induction lines using reverseRecOn with
  | nil => rfl
  | append_singleton lines line ih =>
    rw [foldl_append, foldl_cons, foldl_nil, ih, readMemoryLine_eq]
    simp only [hlast]

theorem getMemoryInfo_some (lines : List Text) : getMemoryInfo (some lines) = some {
    memTotalMb := (lastValue "MemTotal:" lines).toNat / 1024
    memUsedMb := (lastValue "MemTotal:" lines - lastValue "MemAvailable:" lines).toNat / 1024
    swapTotalMb := (lastValue "SwapTotal:" lines).toNat / 1024
    swapUsedMb := (lastValue "SwapTotal:" lines - lastValue "SwapFree:" lines).toNat / 1024 } := by
  simp only [getMemoryInfo, Option.map_some, foldl_readMemoryLine]

/-- A part that is subtracted from a total is at most the total unless the difference wraps. -/
theorem sub_le_iff (total part : UInt64) :
    ((total - part).toNat : ℚ) / 1024 ≤ total.toNat / 1024 ↔ part ≤ total := by
  have htotal := total.toNat_lt
  have hpart := part.toNat_lt
  rw [div_le_div_iff_of_pos_right (by norm_num), Nat.cast_le, UInt64.le_iff_toNat_le,
    UInt64.toNat_sub]
  omega

theorem containerCpuPercent_nonneg (preCPUStats cpuStats : ContainerCpu) :
    0 ≤ containerCpuPercent preCPUStats cpuStats := by
  unfold containerCpuPercent
  simp only
  split_ifs
  · positivity
  · exact le_rfl

theorem containerCpuPercent_le {preCPUStats cpuStats : ContainerCpu}
    (h : Consistent preCPUStats cpuStats) :
    containerCpuPercent preCPUStats cpuStats ≤ 100 * cpuStats.onlineCPUs := by
  unfold containerCpuPercent
  simp only
  split_ifs with hadvance
  · have hpositive := cast_toNat_pos (UInt64.pos_iff_ne_zero.mp hadvance.1)
    have hshare := (div_le_one₀ hpositive).mpr (Nat.cast_le.mpr (UInt64.le_iff_toNat_le.mp h))
    have hscaled := mul_le_mul_of_nonneg_right hshare (Nat.cast_nonneg cpuStats.onlineCPUs)
    linarith
  · positivity

/-- The percentages are in range if and only if the counters of the host add up. -/
theorem percentagesInRange_iff (stat meminfo : Option (List Text))
    (preCPUStats cpuStats : ContainerCpu) :
    PercentagesInRange lastCPUStats stat meminfo preCPUStats cpuStats ↔
      CountersAddUp lastCPUStats stat meminfo := by
  constructor
  · rintro ⟨hprocessor, hmemory, -⟩
    refine ⟨?_, ?_⟩
    · rintro last rfl line lines rfl current hcurrent
      exact (busyPercent_mem_iff last current).mp (hprocessor _ (by simp [getCPUPercent, hcurrent]))
    · rintro lines rfl
      obtain ⟨hused, hswap⟩ := hmemory _ (getMemoryInfo_some lines)
      exact ⟨(sub_le_iff _ _).mp hused, (sub_le_iff _ _).mp hswap⟩
  · rintro ⟨hprocessor, hmemory⟩
    refine ⟨?_, ?_, fun h ↦ ⟨containerCpuPercent_nonneg _ _, containerCpuPercent_le h⟩⟩
    · intro percent hpercent
      unfold getCPUPercent at hpercent
      split at hpercent
      · cases hpercent
      · cases hpercent
        norm_num
      · rename_i line lines
        split at hpercent
        · cases hpercent
          norm_num
        · cases hpercent
          norm_num
        · rename_i current last hcurrent
          cases hpercent
          exact (busyPercent_mem_iff last current).mpr
            (hprocessor last rfl line lines rfl current hcurrent)
    · intro info hinfo
      cases meminfo with
      | none => cases hinfo
      | some lines =>
        cases (getMemoryInfo_some lines).symm.trans hinfo
        obtain ⟨hused, hswap⟩ := hmemory lines rfl
        exact ⟨(sub_le_iff _ _).mpr hused, (sub_le_iff _ _).mpr hswap⟩

/-- The time that a processor waited for a device may be corrected downwards. -/
def waited : CpuStats := ⟨100, 0, 100, 1000, 50, 0, 0, 0⟩

theorem not_percentagesInRange_iowait :
    ¬ PercentagesInRange (some waited) (some ["cpu 200 0 100 1000 20 0 0 0".toList]) (some [])
      ⟨0, 0, 1⟩ ⟨0, 0, 1⟩ := by
  intro h
  have hpercent : (getCPUPercent (some waited) (some ["cpu 200 0 100 1000 20 0 0 0".toList])).1 =
      some (busyPercent 70 18446744073709551586) := by
    decide +kernel
  have hnonneg := (h.processor _ hpercent).1
  revert hnonneg
  decide +kernel

end Bridgeport.Agent
