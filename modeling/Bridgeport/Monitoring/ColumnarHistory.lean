import Mathlib.Data.List.Dedup
import Mathlib.Data.List.Sort
import Mathlib.Data.Rat.Defs

/-!
# Columnar metrics histories

The history routes of `routes/monitoring.ts` answer with the timestamps of the samples in a window
and, for each series, one row for each server or deployment, aligned with the timestamps and filled
with `null` (`historyPayload`). The first load has the whole window; a refresh asks for the samples
behind the `until` of the last answer, and `mergeColumnarHistory` of the dashboard appends them to
what is shown.

A row is found again by the `id` of its entity. For servers it is the id of the server, whose
samples the row shows; the rows for services show the samples of a deployment and carry the id of
the service.

Timestamps are in milliseconds: the ISO texts are compared for equality and sorted only.
Downsampling, which a full answer with more than `maxPoints` timestamps goes through, is left out.
-/

namespace Bridgeport.Monitoring

open List

/-! ### Samples and rows -/

/-- A row of `ServerMetrics` or `ServiceMetrics`, with the id of its server or deployment. -/
structure Sample (M : Type*) where
  owner : String
  collectedAt : ℕ
  metrics : M

/-- The entities of a history: the id by which their rows are found, and whose samples the rows
show. -/
class HistoryEntity (E : Type*) where
  id : E → String
  owner : E → String

/-- An entry of `servers`. -/
structure ServerItem where
  (id name tags : String)

instance : HistoryEntity ServerItem where
  id := ServerItem.id
  owner := ServerItem.id

/-- An entry of `services`. -/
structure ServiceItem where
  (id deploymentId name serverName serverId : String)

instance : HistoryEntity ServiceItem where
  id := ServiceItem.id
  owner := ServiceItem.deploymentId

inductive Mode
  | full
  | delta
  deriving DecidableEq

/-- An answer of a history route, and what the dashboard shows. -/
structure ColumnarHistory (E K V : Type*) where
  entities : List E
  timestamps : List ℕ
  series : K → Option (List (List (Option V)))
  mode : Mode
  untilTime : Option ℕ

section

variable {E K V M κ : Type*}

/-- The index of a key in a `Map` that is filled from a list: the last of its positions. -/
def lastIndex [DecidableEq κ] (keys : List κ) (key : κ) : Option ℕ :=
  match keys with
  | [] => none
  | head :: rest =>
    match lastIndex rest key with
    | some index => some (index + 1)
    | none => if head = key then some 0 else none

def timestampsOf (rows : List (Sample M)) : List ℕ :=
  ((rows.map (·.collectedAt)).dedup).insertionSort (· ≤ ·)

/-- One turn of the loop over the samples of an owner. -/
def putCell (timestamps : List ℕ) (cell : M → Option V) (column : List (Option V))
    (sample : Sample M) : List (Option V) :=
  match lastIndex timestamps sample.collectedAt with
  | some index => column.set index (cell sample.metrics)
  | none => column

/-- The samples of an owner on the timestamps, over `null`. -/
def columnOf (timestamps : List ℕ) (rows : List (Sample M)) (owner : String) (cell : M → Option V) :
    List (Option V) :=
  (rows.filter (·.owner = owner)).foldl (putCell timestamps cell)
    (List.replicate timestamps.length none)

def historyPayload [HistoryEntity E] (entities : List E) (rows : List (Sample M))
    (cell : K → M → Option V) (mode : Mode) (untilTime : ℕ) : ColumnarHistory E K V where
  entities := entities
  timestamps := timestampsOf rows
  series key := some (entities.map fun entity ↦
    columnOf (timestampsOf rows) rows (HistoryEntity.owner entity) (cell key))
  mode := mode
  untilTime := some untilTime

/-! ### The merge -/

/-- The entities that are not there yet, behind those that are. -/
def appendNew [HistoryEntity E] (entities : List E) : List E → List E
  | [] => entities
  | entity :: rest =>
    if HistoryEntity.id entity ∈ entities.map HistoryEntity.id then appendNew entities rest
    else appendNew (entities ++ [entity]) rest

def newTimestamps (seen : List ℕ) : List ℕ → List ℕ
  | [] => []
  | timestamp :: rest =>
    if timestamp ∈ seen then newTimestamps seen rest
    else timestamp :: newTimestamps (timestamp :: seen) rest

def rowOf [HistoryEntity E] (history : ColumnarHistory E K V) (key : K) (id : String) :
    Option (List (Option V)) :=
  (lastIndex (history.entities.map HistoryEntity.id) id).bind fun index ↦
    (history.series key).bind fun rows ↦ rows[index]?

/-- The row of an id in the previous history, or `null` for each of its timestamps. -/
def prevRow [HistoryEntity E] (prev : ColumnarHistory E K V) (key : K) (id : String) :
    List (Option V) :=
  (rowOf prev key id).getD (List.replicate prev.timestamps.length none)

def deltaRow [HistoryEntity E] (delta : ColumnarHistory E K V) (newTs : List ℕ) (key : K)
    (id : String) : List (Option V) :=
  newTs.map fun timestamp ↦
    (rowOf delta key id).bind fun row ↦
      (lastIndex delta.timestamps timestamp).bind fun index ↦ (row[index]?).join

/-- `trimFrom`: how many of the merged timestamps are left out in front. -/
def trimFrom (windowSize length : ℕ) : ℕ :=
  if length > windowSize then length - windowSize else 0

def mergeColumnarHistory [HistoryEntity E] (prev delta : ColumnarHistory E K V) (windowSize : ℕ) :
    ColumnarHistory E K V :=
  let entities := appendNew prev.entities delta.entities
  let newTs := newTimestamps prev.timestamps delta.timestamps
  let mergedTimestamps := prev.timestamps ++ newTs
  let trimFrom := trimFrom windowSize mergedTimestamps.length
  { entities
    timestamps := mergedTimestamps.drop trimFrom
    series := fun key ↦
      if (prev.series key).isSome ∨ (delta.series key).isSome then
        some (entities.map fun entity ↦
          (prevRow prev key (HistoryEntity.id entity) ++
            deltaRow delta newTs key (HistoryEntity.id entity)).drop trimFrom)
      else none
    mode := .full
    untilTime := delta.untilTime.or prev.untilTime }

/-- The `windowSize` of the pages. -/
def windowSize : ℕ := 1000

/-- The `merge` of the pages for servers and services. -/
def merge [HistoryEntity E] (prev next : ColumnarHistory E K V) : ColumnarHistory E K V :=
  if next.mode ≠ .delta then next
  else mergeColumnarHistory prev next windowSize

section

variable [DecidableEq κ] {keys : List κ} {key : κ} {index : ℕ}

theorem getElem?_of_lastIndex (h : lastIndex keys key = some index) : keys[index]? = some key := by
  induction keys generalizing index with
  | nil => nomatch h
  | cons head rest ih =>
    unfold lastIndex at h
    cases hrest : lastIndex rest key with
    | some found =>
      rw [hrest] at h
      obtain rfl := Option.some.inj h
      exact ih hrest
    | none =>
      rw [hrest] at h
      dsimp only at h
      split_ifs at h with hhead
      obtain rfl := Option.some.inj h
      exact congrArg some hhead

theorem not_mem_of_lastIndex (h : lastIndex keys key = none) : key ∉ keys := by
  induction keys with
  | nil => exact not_mem_nil
  | cons head rest ih =>
    unfold lastIndex at h
    cases hrest : lastIndex rest key with
    | some found =>
      rw [hrest] at h
      nomatch h
    | none =>
      rw [hrest] at h
      dsimp only at h
      split_ifs at h with hhead
      rw [mem_cons, not_or]
      exact ⟨Ne.symm hhead, ih hrest⟩

/-- Among distinct keys the last position is the only one. -/
theorem lastIndex_of_getElem? (hnodup : keys.Nodup) (h : keys[index]? = some key) :
    lastIndex keys key = some index := by
  cases hfound : lastIndex keys key with
  | none => exact absurd (mem_of_getElem? h) (not_mem_of_lastIndex hfound)
  | some found =>
    obtain ⟨hlt, -⟩ := List.getElem?_eq_some_iff.mp h
    have hsame := (List.getElem?_inj hlt hnodup).mp (h.trans (getElem?_of_lastIndex hfound).symm)
    rw [hsame]

end

/-! ### What a column shows -/

/-- The value is what a sample of the owner at the time shows, or `null` when there is none. -/
def Shows (samples : List (Sample M)) (owner : String) (time : ℕ) (cell : M → Option V)
    (value : Option V) : Prop :=
  (∃ sample ∈ samples, sample.owner = owner ∧ sample.collectedAt = time ∧
    value = cell sample.metrics) ∨
  (∀ sample ∈ samples, sample.owner = owner → sample.collectedAt ≠ time) ∧ value = none

variable {time : ℕ} {rows : List (Sample M)}

theorem mem_timestampsOf :
    time ∈ timestampsOf rows ↔ ∃ sample ∈ rows, sample.collectedAt = time := by
  rw [timestampsOf, mem_insertionSort, mem_dedup, mem_map]

theorem pairwise_timestampsOf (rows : List (Sample M)) : (timestampsOf rows).Pairwise (· < ·) := by
  have hsorted : (timestampsOf rows).Pairwise (· ≤ ·) := pairwise_insertionSort _ _
  have hnodup : (timestampsOf rows).Nodup :=
    (perm_insertionSort _ _).nodup_iff.mpr (nodup_dedup _)
  exact hsorted.imp₂ (fun _ _ hle hne ↦ lt_of_le_of_ne hle hne) hnodup

theorem length_foldl_putCell (timestamps : List ℕ) (cell : M → Option V) (samples : List (Sample M))
    (column : List (Option V)) :
    (samples.foldl (putCell timestamps cell) column).length = column.length := by
  induction samples generalizing column with
  | nil => rfl
  | cons sample rest ih =>
    rw [foldl_cons, ih]
    unfold putCell
    cases lastIndex timestamps sample.collectedAt with
    | some index => exact length_set
    | none => rfl

variable {timestamps : List ℕ} {position : ℕ} {cell : M → Option V} {value : Option V}

theorem cell_foldl_putCell (hnodup : timestamps.Nodup) {samples : List (Sample M)}
    {column : List (Option V)} (htime : timestamps[position]? = some time)
    (hvalue : (samples.foldl (putCell timestamps cell) column)[position]? = some value) :
    (∃ sample ∈ samples, sample.collectedAt = time ∧ value = cell sample.metrics) ∨
      (∀ sample ∈ samples, sample.collectedAt ≠ time) ∧ column[position]? = some value := by
  induction samples generalizing column with
  | nil => exact .inr ⟨fun _ h ↦ absurd h not_mem_nil, hvalue⟩
  | cons sample rest ih =>
    rcases ih hvalue with ⟨other, hother, hcell⟩ | ⟨hrest, hcolumn⟩
    · exact .inl ⟨other, mem_cons_of_mem _ hother, hcell⟩
    · by_cases hsample : sample.collectedAt = time
      · have hindex := lastIndex_of_getElem? hnodup (hsample ▸ htime)
        rw [putCell, hindex] at hcolumn
        obtain ⟨hlt, heq⟩ := List.getElem?_eq_some_iff.mp hcolumn
        rw [getElem_set_self] at heq
        exact .inl ⟨sample, mem_cons_self, hsample, heq.symm⟩
      · refine .inr ⟨forall_mem_cons.mpr ⟨hsample, hrest⟩, ?_⟩
        unfold putCell at hcolumn
        cases hindex : lastIndex timestamps sample.collectedAt with
        | none =>
          rw [hindex] at hcolumn
          exact hcolumn
        | some index =>
          rw [hindex] at hcolumn
          dsimp only at hcolumn
          have hne : index ≠ position := by
            rintro rfl
            exact hsample (Option.some.inj ((getElem?_of_lastIndex hindex).symm.trans htime))
          rw [List.getElem?_set_ne hne] at hcolumn
          exact hcolumn

theorem length_columnOf (timestamps : List ℕ) (rows : List (Sample M)) (owner : String)
    (cell : M → Option V) : (columnOf timestamps rows owner cell).length = timestamps.length :=
  (length_foldl_putCell timestamps cell _ _).trans length_replicate

theorem shows_columnOf {owner : String} (htime : (timestampsOf rows)[position]? = some time)
    (hvalue : (columnOf (timestampsOf rows) rows owner cell)[position]? = some value) :
    Shows rows owner time cell value := by
  have hnodup : (timestampsOf rows).Nodup := (pairwise_timestampsOf rows).imp ne_of_lt
  rcases cell_foldl_putCell hnodup htime hvalue with ⟨sample, hsample, hcell⟩ | ⟨hnone, hcolumn⟩
  · obtain ⟨hmem, howner⟩ := mem_filter.mp hsample
    exact .inl ⟨sample, hmem, of_decide_eq_true howner, hcell⟩
  · refine .inr ⟨fun sample hmem howner ↦ ?_, ?_⟩
    · exact hnone sample (mem_filter.mpr ⟨hmem, decide_eq_true howner⟩)
    · obtain ⟨hlt, hreplicate⟩ := List.getElem?_eq_some_iff.mp hcolumn
      exact hreplicate.symm.trans (getElem_replicate _)

theorem newTimestamps_eq_filter {seen : List ℕ} (hnodup : timestamps.Nodup) :
    newTimestamps seen timestamps = timestamps.filter (· ∉ seen) := by
  induction timestamps generalizing seen with
  | nil => rfl
  | cons timestamp rest ih =>
    obtain ⟨hfresh, hrest⟩ := nodup_cons.mp hnodup
    unfold newTimestamps
    by_cases hseen : timestamp ∈ seen
    · rw [if_pos hseen, ih hrest, filter_cons_of_neg (by simpa using hseen)]
    · rw [if_neg hseen, ih hrest, filter_cons_of_pos (by simpa using hseen)]
      refine congrArg (timestamp :: ·) (filter_congr fun other hother ↦ ?_)
      have hne : other ≠ timestamp := fun heq ↦ hfresh (heq ▸ hother)
      simp [hne]

section

variable [HistoryEntity E] {entities more : List E}

/-- The entities that are appended are among those that have been given. -/
theorem exists_appendNew (entities more : List E) :
    ∃ appended, appendNew entities more = entities ++ appended ∧ appended ⊆ more := by
  induction more generalizing entities with
  | nil => exact ⟨[], (append_nil _).symm, List.Subset.refl _⟩
  | cons entity rest ih =>
    unfold appendNew
    split_ifs with hmem
    · obtain ⟨appended, happended, hsubset⟩ := ih entities
      exact ⟨appended, happended, subset_cons_of_subset _ hsubset⟩
    · obtain ⟨appended, happended, hsubset⟩ := ih (entities ++ [entity])
      refine ⟨entity :: appended, happended.trans (append_assoc _ _ _), ?_⟩
      exact cons_subset_cons _ hsubset

theorem nodup_appendNew (h : (entities.map HistoryEntity.id).Nodup) :
    ((appendNew entities more).map HistoryEntity.id).Nodup := by
  induction more generalizing entities with
  | nil => exact h
  | cons entity rest ih =>
    unfold appendNew
    split_ifs with hmem
    · exact ih h
    · refine ih ?_
      rw [map_append, map_singleton, ← concat_eq_append]
      exact h.concat hmem

theorem mem_ids_appendNew {entity : E} (h : entity ∈ more) :
    HistoryEntity.id entity ∈ (appendNew entities more).map HistoryEntity.id := by
  induction more generalizing entities with
  | nil => exact absurd h not_mem_nil
  | cons head rest ih =>
    unfold appendNew
    rcases mem_cons.mp h with rfl | hrest
    · split_ifs with hmem
      · obtain ⟨appended, happended, -⟩ := exists_appendNew entities rest
        rw [happended, map_append]
        exact mem_append_left _ hmem
      · obtain ⟨appended, happended, -⟩ := exists_appendNew (entities ++ [entity]) rest
        rw [happended, map_append, map_append]
        exact mem_append_left _ (mem_append_right _ (mem_singleton_self _))
    · split_ifs with hmem
      · exact ih hrest
      · exact ih hrest

theorem new_of_mem_appendNew {entity : E} (h : entity ∈ appendNew entities more) :
    entity ∈ entities ∨ entity ∈ more ∧
      HistoryEntity.id entity ∉ entities.map HistoryEntity.id := by
  induction more generalizing entities with
  | nil => exact .inl h
  | cons head rest ih =>
    unfold appendNew at h
    split_ifs at h with hmem
    · exact (ih h).imp id fun ⟨hrest, hnew⟩ ↦ ⟨mem_cons_of_mem _ hrest, hnew⟩
    · rcases ih h with hbefore | ⟨hrest, hnew⟩
      · rcases mem_append.mp hbefore with hbefore | hhead
        · exact .inl hbefore
        · obtain rfl := mem_singleton.mp hhead
          exact .inr ⟨mem_cons_self, hmem⟩
      · refine .inr ⟨mem_cons_of_mem _ hrest, fun hid ↦ hnew ?_⟩
        rw [map_append]
        exact mem_append_left _ hid

end

end

/-! ### Servers and services -/

inductive ServiceMetricKey
  | cpu
  | memory
  | memoryLimit
  | networkRx
  | networkTx
  | restartCount

/-- The columns of `ServiceMetrics` that the history reads. -/
structure ServiceMetrics where
  (cpuPercent memoryUsedMb memoryLimitMb networkRxMb networkTxMb restartCount : Option ℚ)

def ServiceMetricKey.cell (key : ServiceMetricKey) (sample : ServiceMetrics) : Option ℚ :=
  match key with
  | .cpu => sample.cpuPercent
  | .memory => sample.memoryUsedMb
  | .memoryLimit => sample.memoryLimitMb
  | .networkRx => sample.networkRxMb
  | .networkTx => sample.networkTxMb
  | .restartCount => sample.restartCount

/-- A row of `ServiceDeployment` with its service. -/
structure DeploymentRow where
  (id serverId serviceId serviceName : String)

variable (serverName : String → String)

/-- The entry of `services` for a deployment. -/
def DeploymentRow.item (deployment : DeploymentRow) : ServiceItem where
  id := deployment.serviceId
  deploymentId := deployment.id
  name := deployment.serviceName
  serverName := serverName deployment.serverId
  serverId := deployment.serverId

/-- The answer of `/services/metrics/history`. -/
def serviceHistory (deployments : List DeploymentRow) (rows : List (Sample ServiceMetrics))
    (mode : Mode) (untilTime : ℕ) : ColumnarHistory ServiceItem ServiceMetricKey ℚ :=
  historyPayload (deployments.map (·.item serverName)) rows ServiceMetricKey.cell mode untilTime

inductive ServerMetricKey
  | cpu
  | memory
  | memoryUsedMb
  | swap
  | swapUsedMb
  | disk
  | diskUsedGb
  | load1
  | load5
  | load15
  | openFds
  | maxFds
  | tcpEstablished
  | tcpListen
  | tcpTimeWait
  | tcpCloseWait
  | tcpTotal

/-- The columns of `ServerMetrics` that the history reads. -/
structure ServerMetrics where
  (cpuPercent memoryUsedMb memoryTotalMb swapUsedMb swapTotalMb diskUsedGb diskTotalGb loadAvg1
    loadAvg5 loadAvg15 openFds maxFds tcpEstablished tcpListen tcpTimeWait tcpCloseWait tcpTotal
    : Option ℚ)

/-- The part of a total in percent, when neither is missing or zero. -/
def percentOf (used total : Option ℚ) : Option ℚ :=
  match used, total with
  | some used, some total => if used ≠ 0 ∧ total ≠ 0 then some (used / total * 100) else none
  | _, _ => none

/-- What a series for servers shows of a sample; a total of the swap has to be positive. -/
def ServerMetricKey.cell (key : ServerMetricKey) (sample : ServerMetrics) : Option ℚ :=
  match key with
  | .cpu => sample.cpuPercent
  | .memory => percentOf sample.memoryUsedMb sample.memoryTotalMb
  | .memoryUsedMb => sample.memoryUsedMb
  | .swap =>
    if 0 < sample.swapTotalMb.getD 0 then percentOf sample.swapUsedMb sample.swapTotalMb else none
  | .swapUsedMb => sample.swapUsedMb
  | .disk => percentOf sample.diskUsedGb sample.diskTotalGb
  | .diskUsedGb => sample.diskUsedGb
  | .load1 => sample.loadAvg1
  | .load5 => sample.loadAvg5
  | .load15 => sample.loadAvg15
  | .openFds => sample.openFds
  | .maxFds => sample.maxFds
  | .tcpEstablished => sample.tcpEstablished
  | .tcpListen => sample.tcpListen
  | .tcpTimeWait => sample.tcpTimeWait
  | .tcpCloseWait => sample.tcpCloseWait
  | .tcpTotal => sample.tcpTotal

/-- The answer of `/metrics/history`. -/
def serverHistory (servers : List ServerItem) (rows : List (Sample ServerMetrics)) (mode : Mode)
    (untilTime : ℕ) : ColumnarHistory ServerItem ServerMetricKey ℚ :=
  historyPayload servers rows ServerMetricKey.cell mode untilTime

end Bridgeport.Monitoring
