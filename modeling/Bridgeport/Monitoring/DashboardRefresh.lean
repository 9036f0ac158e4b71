import Bridgeport.Foundation.Threads
import Bridgeport.Monitoring.ColumnarHistory

/-!
# A dashboard that is refreshed by deltas

A dashboard loads the whole window once and then merges the answers to delta reads. It shows the
same data as a fresh load would (`showsSame`): every row shows the samples of its own server or
deployment, in the order of their times, and a sample of the window is missing only when
`windowSize` later timestamps are shown, as long as

* the entities of an answer have distinct ids, and an id and a deployment belong together
  (`distinct`, `sameRow`),
* a sample that is recorded between two reads is later than the `until` of the first of them and
  than every timestamp that is shown (`inOrder`),
* what was recorded while a read was under way is still shown at the next one (`stillShown`), and
* an entity has no samples before the read that first lists it and none while it is not listed
  (`appearsEmpty`, `quiet`).
-/

namespace Bridgeport.Monitoring

open Foundation List Option

variable {E K V M : Type*}

/-! ### Reads -/

/-- The bound of a full answer is inclusive, that of a delta is not. -/
def Within (mode : Mode) (since time : ℕ) : Prop :=
  match mode with
  | .full => since ≤ time
  | .delta => since < time

instance (mode : Mode) (since time : ℕ) : Decidable (Within mode since time) :=
  match mode with
  | .full => inferInstanceAs (Decidable (since ≤ time))
  | .delta => inferInstanceAs (Decidable (since < time))

/-- A read of a history: the entities that it lists, what has been recorded so far, the rows that
the query finds, and the time before the query. -/
structure Reading (E M : Type*) where
  listed : List E
  (recorded rows : List (Sample M))
  untilTime : ℕ

section

variable [HistoryEntity E]

def Reading.owners (reading : Reading E M) : List String :=
  reading.listed.map HistoryEntity.owner

/-- The query finds the samples of the listed entities behind the bound, in the order of their
times. -/
structure Reading.Answers (reading : Reading E M) (mode : Mode) (since : ℕ) : Prop where
  rows : reading.rows.Perm (reading.recorded.filter fun sample ↦
    sample.owner ∈ reading.owners ∧ Within mode since sample.collectedAt)
  ordered : reading.rows.Pairwise fun sample other ↦ sample.collectedAt ≤ other.collectedAt

def Reading.payload (cell : K → M → Option V) (reading : Reading E M) (mode : Mode) :
    ColumnarHistory E K V :=
  historyPayload reading.listed reading.rows cell mode reading.untilTime

/-- What is shown after a first load and the delta reads behind it. -/
def dashboard (cell : K → M → Option V) (first : Reading E M) (later : List (Reading E M)) :
    ColumnarHistory E K V :=
  later.foldl (fun shown reading ↦ merge shown (reading.payload cell .delta))
    (first.payload cell .full)

def latest (first : Reading E M) (later : List (Reading E M)) : Reading E M :=
  later.getLastD first

/-- A first load of the window from `start`, and delta reads, each from the `until` of the one
before. -/
structure Refreshed (start : ℕ) (first : Reading E M) (later : List (Reading E M)) : Prop where
  loaded : first.Answers .full start
  started : start ≤ first.untilTime
  answered : EveryStep (fun before reading ↦
    reading.Answers .delta (latest first before).untilTime) later
  clock : EveryStep (fun before reading ↦ (latest first before).untilTime ≤ reading.untilTime) later
  grows : EveryStep (fun before reading ↦ (latest first before).recorded ⊆ reading.recorded) later

def RowShows (samples : List (Sample M)) (owner : String) (cell : M → Option V)
    (timestamps : List ℕ) (row : List (Option V)) : Prop :=
  List.Forall₂ (fun time ↦ Shows samples owner time cell) timestamps row

/-- The row of every entity shows the samples of its server or deployment. -/
def EntitiesShow (samples : List (Sample M)) (cell : K → M → Option V)
    (shown : ColumnarHistory E K V) : Prop :=
  ∀ (key : K) (index : ℕ) (entity : E), shown.entities[index]? = some entity →
    ∃ rows row, shown.series key = some rows ∧ rows[index]? = some row ∧
      RowShows samples (HistoryEntity.owner entity) (cell key) shown.timestamps row

/-- At least `windowSize` later timestamps are shown. -/
def Trimmed (timestamps : List ℕ) (time : ℕ) : Prop :=
  windowSize ≤ timestamps.length ∧ ∀ shown ∈ timestamps, time < shown

/-- What is shown is what a fresh load of the window from `start` would show. -/
structure ShowsSame (start : ℕ) (cell : K → M → Option V) (shown : ColumnarHistory E K V)
    (reading : Reading E M) : Prop where
  rows : EntitiesShow reading.recorded cell shown
  ordered : shown.timestamps.Pairwise (· < ·)
  listed : ∀ owner ∈ reading.owners, ∃ entity ∈ shown.entities, HistoryEntity.owner entity = owner
  complete : ∀ sample ∈ reading.recorded, sample.owner ∈ reading.owners → start ≤ sample.collectedAt →
    sample.collectedAt ∈ shown.timestamps ∨ Trimmed shown.timestamps sample.collectedAt

/-- The conditions on a refresh. -/
structure InStep (start : ℕ) (shown : ColumnarHistory E K V) (previous reading : Reading E M) :
    Prop where
  distinct : (reading.listed.map HistoryEntity.id).Nodup
  sameRow : ∀ entity ∈ reading.listed, ∀ other ∈ shown.entities,
    HistoryEntity.id entity = HistoryEntity.id other ↔
      HistoryEntity.owner entity = HistoryEntity.owner other
  inOrder : ∀ sample ∈ reading.recorded, sample ∉ previous.recorded →
    sample.owner ∈ reading.owners → previous.untilTime < sample.collectedAt ∧
      ∀ time ∈ shown.timestamps, time < sample.collectedAt
  stillShown : ∀ sample ∈ previous.recorded, sample.owner ∈ reading.owners →
    previous.untilTime < sample.collectedAt → sample.collectedAt ∈ shown.timestamps
  appearsEmpty : ∀ entity ∈ reading.listed,
    HistoryEntity.id entity ∉ shown.entities.map HistoryEntity.id →
      ∀ sample ∈ previous.recorded, sample.owner = HistoryEntity.owner entity →
        sample.collectedAt < start
  quiet : ∀ other ∈ shown.entities, HistoryEntity.owner other ∉ reading.owners →
    ∀ sample ∈ reading.recorded, sample.owner = HistoryEntity.owner other →
      sample ∈ previous.recorded

/-- What holds of the dashboard after every read. -/
structure Mirrors (start : ℕ) (cell : K → M → Option V) (shown : ColumnarHistory E K V)
    (reading : Reading E M) : Prop where
  rows : EntitiesShow reading.recorded cell shown
  ordered : shown.timestamps.Pairwise (· < ·)
  distinct : (shown.entities.map HistoryEntity.id).Nodup
  inWindow : ∀ time ∈ shown.timestamps, start ≤ time
  started : start ≤ reading.untilTime
  listed : ∀ entity ∈ reading.listed, ∃ other ∈ shown.entities,
    HistoryEntity.owner other = HistoryEntity.owner entity
  complete : ∀ entity ∈ shown.entities, ∀ sample ∈ reading.recorded,
    sample.owner = HistoryEntity.owner entity → start ≤ sample.collectedAt →
      sample.collectedAt ∈ shown.timestamps ∨ Trimmed shown.timestamps sample.collectedAt

section

variable {start since : ℕ} {cell : K → M → Option V} {shown : ColumnarHistory E K V}
  {previous reading : Reading E M} {mode : Mode} {sample : Sample M}

theorem Reading.Answers.mem_rows (h : reading.Answers mode since) :
    sample ∈ reading.rows ↔ sample ∈ reading.recorded ∧ sample.owner ∈ reading.owners ∧
      Within mode since sample.collectedAt := by
  rw [h.rows.mem_iff, mem_filter, decide_eq_true_iff]

variable {owner : String} {time : ℕ} {column : M → Option V}

theorem Reading.Answers.shows (h : reading.Answers mode since) {value : Option V}
    (howner : owner ∈ reading.owners) (htime : Within mode since time)
    (hshows : Shows reading.rows owner time column value) :
    Shows reading.recorded owner time column value := by
  refine hshows.imp (fun ⟨sample, hsample, hrest⟩ ↦ ?_) fun ⟨hnone, hvalue⟩ ↦ ?_
  · exact ⟨sample, (h.mem_rows.mp hsample).1, hrest⟩
  · refine ⟨fun sample hsample hsampleOwner hsampleTime ↦ ?_, hvalue⟩
    refine hnone sample (h.mem_rows.mpr
      ⟨hsample, hsampleOwner ▸ howner, ?_⟩) hsampleOwner hsampleTime
    rw [hsampleTime]
    exact htime

variable {timestamps : List ℕ}

theorem RowShows.imp {samples others : List (Sample M)} {row : List (Option V)}
    (h : RowShows samples owner column timestamps row)
    (himp : ∀ time value, time ∈ timestamps → Shows samples owner time column value →
      Shows others owner time column value) : RowShows others owner column timestamps row := by
  have htimes := (forall₂_and_left _ _).mpr ⟨fun time (htime : time ∈ timestamps) ↦ htime, h⟩
  exact List.Forall₂.imp (fun time value hvalue ↦ himp time value hvalue.1 hvalue.2) htimes

theorem rowShows_columnOf (rows : List (Sample M)) (owner : String) (column : M → Option V) :
    RowShows rows owner column (timestampsOf rows)
      (columnOf (timestampsOf rows) rows owner column) := by
  refine forall₂_iff_get.mpr ⟨(length_columnOf _ _ _ _).symm, fun position hlt hrow ↦ ?_⟩
  exact shows_columnOf (List.getElem?_eq_getElem hlt) (List.getElem?_eq_getElem hrow)

/-- An answer shows the samples that have been read: at each of their times and at no other, each
entity has the value of a sample of its own, or `null` if it has none then. -/
theorem payload_shows (cell : K → M → Option V) (reading : Reading E M) (mode : Mode) :
    EntitiesShow reading.rows cell (reading.payload cell mode) ∧
      (reading.payload cell mode).timestamps.Pairwise (· < ·) ∧
      ∀ time, time ∈ (reading.payload cell mode).timestamps ↔
        ∃ sample ∈ reading.rows, sample.collectedAt = time := by
  refine ⟨fun key index entity hentity ↦ ?_, pairwise_timestampsOf _, fun _ ↦ mem_timestampsOf⟩
  refine ⟨_, _, rfl, ?_, rowShows_columnOf reading.rows (HistoryEntity.owner entity) (cell key)⟩
  rw [getElem?_map, show reading.listed[index]? = _ from hentity, Option.map_some]

theorem within_of_mem_timestampsOf (h : reading.Answers mode since)
    (htime : time ∈ timestampsOf reading.rows) : Within mode since time := by
  obtain ⟨sample, hsample, rfl⟩ := mem_timestampsOf.mp htime
  exact (h.mem_rows.mp hsample).2.2

theorem mirrors_payload (h : reading.Answers .full start) (hstarted : start ≤ reading.untilTime)
    (hdistinct : (reading.listed.map HistoryEntity.id).Nodup) :
    Mirrors start cell (reading.payload cell .full) reading where
  rows key index entity hentity := by
    refine ⟨_, columnOf (timestampsOf reading.rows) reading.rows (HistoryEntity.owner entity)
      (cell key), rfl, ?_, ?_⟩
    · rw [List.getElem?_map]
      exact congrArg (Option.map _) hentity
    · have howner : HistoryEntity.owner entity ∈ reading.owners :=
        mem_map_of_mem (mem_of_getElem? hentity)
      refine (rowShows_columnOf reading.rows _ (cell key)).imp fun time value htime hvalue ↦ ?_
      exact h.shows howner (within_of_mem_timestampsOf h htime) hvalue
  ordered := pairwise_timestampsOf reading.rows
  distinct := hdistinct
  inWindow time htime := within_of_mem_timestampsOf h htime
  started := hstarted
  listed entity hentity := ⟨entity, hentity, rfl⟩
  complete entity hentity sample hsample howner hstart := by
    refine .inl (mem_timestampsOf.mpr ⟨sample, h.mem_rows.mpr ⟨hsample, ?_, hstart⟩, rfl⟩)
    rw [howner]
    exact mem_map_of_mem hentity

/-! ### One refresh -/

variable {entity : E}

theorem Mirrors.rowOf (h : Mirrors start cell shown previous) (hentity : entity ∈ shown.entities)
    (key : K) :
    ∃ row, rowOf shown key (HistoryEntity.id entity) = some row ∧
      RowShows previous.recorded (HistoryEntity.owner entity) (cell key) shown.timestamps row := by
  obtain ⟨index, hindex⟩ := mem_iff_getElem?.mp hentity
  obtain ⟨rows, row, hseries, hrow, hshows⟩ := h.rows key index entity hindex
  refine ⟨row, ?_, hshows⟩
  have hlast : lastIndex (shown.entities.map HistoryEntity.id) (HistoryEntity.id entity) =
      some index := by
    refine lastIndex_of_getElem? h.distinct ?_
    rw [List.getElem?_map, hindex]
    rfl
  rw [Monitoring.rowOf, hlast, hseries]
  exact hrow

theorem rowOf_payload (hdistinct : (reading.listed.map HistoryEntity.id).Nodup)
    (hentity : entity ∈ reading.listed) (key : K) :
    rowOf (reading.payload cell mode) key (HistoryEntity.id entity) =
      some (columnOf (timestampsOf reading.rows) reading.rows (HistoryEntity.owner entity)
        (cell key)) := by
  obtain ⟨index, hindex⟩ := mem_iff_getElem?.mp hentity
  have hlast : lastIndex (reading.listed.map HistoryEntity.id) (HistoryEntity.id entity) =
      some index := by
    refine lastIndex_of_getElem? hdistinct ?_
    rw [List.getElem?_map, hindex]
    rfl
  unfold rowOf Reading.payload historyPayload
  dsimp only
  rw [hlast, bind_some, bind_some, List.getElem?_map, hindex]
  rfl

theorem rowOf_eq_none {history : ColumnarHistory E K V} {id : String}
    (hid : id ∉ history.entities.map HistoryEntity.id) (key : K) : rowOf history key id = none := by
  unfold rowOf
  cases hlast : lastIndex (history.entities.map HistoryEntity.id) id with
  | none => rfl
  | some index => exact absurd (mem_of_getElem? (getElem?_of_lastIndex hlast)) hid

def appended (shown : ColumnarHistory E K V) (reading : Reading E M) : List ℕ :=
  newTimestamps shown.timestamps (timestampsOf reading.rows)

omit [HistoryEntity E] in
theorem mem_appended : time ∈ appended shown reading ↔
    time ∈ timestampsOf reading.rows ∧ time ∉ shown.timestamps := by
  rw [appended, newTimestamps_eq_filter ((pairwise_timestampsOf _).imp ne_of_lt), mem_filter,
    decide_eq_true_iff]

omit [HistoryEntity E] in
theorem pairwise_appended (shown : ColumnarHistory E K V) (reading : Reading E M) :
    (appended shown reading).Pairwise (· < ·) := by
  rw [appended, newTimestamps_eq_filter ((pairwise_timestampsOf _).imp ne_of_lt)]
  exact (pairwise_timestampsOf _).filter _

/-- What a refresh appends is later than everything that is shown. -/
theorem lt_appended (hstep : InStep start shown previous reading)
    (h : reading.Answers .delta previous.untilTime) {shownTime : ℕ}
    (htime : time ∈ appended shown reading) (hshown : shownTime ∈ shown.timestamps) :
    shownTime < time := by
  obtain ⟨hread, hnew⟩ := mem_appended.mp htime
  obtain ⟨sample, hsample, rfl⟩ := mem_timestampsOf.mp hread
  obtain ⟨hrecorded, hlisted, hbehind⟩ := h.mem_rows.mp hsample
  by_cases hbefore : sample ∈ previous.recorded
  · exact absurd (hstep.stillShown sample hbefore hlisted hbehind) hnew
  · exact (hstep.inOrder sample hrecorded hbefore hlisted).2 shownTime hshown

theorem recorded_of_shown (hstep : InStep start shown previous reading)
    (hentity : entity ∈ shown.entities) (hsample : sample ∈ reading.recorded)
    (howner : sample.owner = HistoryEntity.owner entity)
    (htime : sample.collectedAt ∈ shown.timestamps) : sample ∈ previous.recorded := by
  by_contra hbefore
  by_cases hlisted : HistoryEntity.owner entity ∈ reading.owners
  · exact lt_irrefl _ ((hstep.inOrder sample hsample hbefore (howner ▸ hlisted)).2 _ htime)
  · exact hbefore (hstep.quiet entity hentity hlisted sample hsample howner)

section

variable (hmirrors : Mirrors start cell shown previous)
  (hstep : InStep start shown previous reading)
include hmirrors hstep

theorem not_shown_of_appears (hentity : entity ∈ reading.listed)
    (hnew : HistoryEntity.id entity ∉ shown.entities.map HistoryEntity.id)
    (hsample : sample ∈ reading.recorded) (howner : sample.owner = HistoryEntity.owner entity) :
    sample.collectedAt ∉ shown.timestamps := by
  intro htime
  by_cases hbefore : sample ∈ previous.recorded
  · exact absurd (hmirrors.inWindow _ htime)
      (not_le_of_gt (hstep.appearsEmpty entity hentity hnew sample hbefore howner))
  · have hlisted : sample.owner ∈ reading.owners := howner ▸ mem_map_of_mem hentity
    exact lt_irrefl _ ((hstep.inOrder sample hsample hbefore hlisted).2 _ htime)

/-- The front part of a merged row. -/
theorem rowShows_prevRow (hgrows : previous.recorded ⊆ reading.recorded)
    (hentity : entity ∈ appendNew shown.entities reading.listed) (key : K) :
    RowShows reading.recorded (HistoryEntity.owner entity) (cell key) shown.timestamps
      (prevRow shown key (HistoryEntity.id entity)) := by
  rcases new_of_mem_appendNew hentity with hbefore | ⟨hlisted, hnew⟩
  · obtain ⟨row, hrow, hshows⟩ := hmirrors.rowOf hbefore key
    rw [prevRow, hrow]
    refine hshows.imp fun time value hshown hvalue ↦ hvalue.imp ?_ ?_
    · exact fun ⟨sample, hsample, hrest⟩ ↦ ⟨sample, hgrows hsample, hrest⟩
    · refine fun ⟨hnone, hnull⟩ ↦ ⟨fun sample hsample howner htime ↦ ?_, hnull⟩
      exact hnone sample (recorded_of_shown hstep hbefore hsample howner
        (htime ▸ hshown)) howner htime
  · rw [prevRow, rowOf_eq_none hnew]
    refine forall₂_iff_get.mpr ⟨length_replicate.symm, fun position hlt hrow ↦ .inr ⟨?_, ?_⟩⟩
    · intro sample hsample howner htime
      refine not_shown_of_appears hmirrors hstep hlisted hnew hsample howner ?_
      rw [htime]
      exact get_mem _ _
    · exact getElem_replicate _

/-- The back part of a merged row. -/
theorem rowShows_deltaRow (h : reading.Answers .delta previous.untilTime)
    (hentity : entity ∈ appendNew shown.entities reading.listed) (key : K) :
    RowShows reading.recorded (HistoryEntity.owner entity) (cell key) (appended shown reading)
      (deltaRow (reading.payload cell .delta) (appended shown reading) key
        (HistoryEntity.id entity)) := by
  refine forall₂_map_right_iff.mpr (forall₂_same.mpr fun time htime ↦ ?_)
  obtain ⟨hread, hnew⟩ := mem_appended.mp htime
  by_cases hid : HistoryEntity.id entity ∈ reading.listed.map HistoryEntity.id
  · -- the entity of the answer with the same id shows the same server or deployment
    obtain ⟨listed, hlisted, hsame⟩ := mem_map.mp hid
    have howner : HistoryEntity.owner listed = HistoryEntity.owner entity := by
      rcases new_of_mem_appendNew hentity with hbefore | ⟨hlistedToo, -⟩
      · exact (hstep.sameRow listed hlisted entity hbefore).mp hsame
      · rw [inj_on_of_nodup_map hstep.distinct hlisted hlistedToo hsame]
    obtain ⟨index, hindex⟩ : ∃ index, lastIndex (timestampsOf reading.rows) time = some index := by
      cases hlast : lastIndex (timestampsOf reading.rows) time with
      | some index => exact ⟨index, rfl⟩
      | none => exact absurd hread (not_mem_of_lastIndex hlast)
    have htimeAt := getElem?_of_lastIndex hindex
    have hlt : index < (columnOf (timestampsOf reading.rows) reading.rows
        (HistoryEntity.owner listed) (cell key)).length := by
      rw [length_columnOf]
      exact (List.getElem?_eq_some_iff.mp htimeAt).1
    rw [← hsame, rowOf_payload hstep.distinct hlisted key, bind_some]
    change Shows _ _ _ _ ((lastIndex (timestampsOf reading.rows) time).bind _)
    rw [hindex, bind_some, List.getElem?_eq_getElem hlt, join_some, ← howner]
    exact h.shows (mem_map_of_mem hlisted) (within_of_mem_timestampsOf h hread)
      (shows_columnOf htimeAt (List.getElem?_eq_getElem hlt))
  · -- an entity that is not listed has no samples behind the previous read
    have hnone : rowOf (reading.payload cell .delta) key (HistoryEntity.id entity) = none :=
      rowOf_eq_none hid key
    rw [hnone]
    refine .inr ⟨fun sample hsample howner hsampleTime ↦ ?_, rfl⟩
    have hbefore : entity ∈ shown.entities :=
      (new_of_mem_appendNew hentity).resolve_right fun hnew ↦ hid (mem_map_of_mem hnew.1)
    have hquiet : HistoryEntity.owner entity ∉ reading.owners := by
      intro howners
      obtain ⟨listed, hlisted, hsame⟩ := mem_map.mp howners
      exact hid ((hstep.sameRow listed hlisted entity hbefore).mpr hsame ▸ mem_map_of_mem hlisted)
    have hrecorded := hstep.quiet entity hbefore hquiet sample hsample howner
    have hstart : start ≤ sample.collectedAt :=
      hsampleTime ▸ (hmirrors.started.trans (le_of_lt (within_of_mem_timestampsOf h hread)))
    rcases hmirrors.complete entity hbefore sample hrecorded howner hstart with hshown |
      ⟨hsize, hlater⟩
    · exact hnew (hsampleTime ▸ hshown)
    · obtain ⟨first, hfirst⟩ := exists_mem_of_length_pos (lt_of_lt_of_le (by decide) hsize)
      exact lt_asymm (hlater first hfirst) (hsampleTime ▸ lt_appended hstep h htime hfirst)

end

theorem mem_or_trimmed_drop (hordered : timestamps.Pairwise (· < ·)) (htime : time ∈ timestamps) :
    time ∈ timestamps.drop (trimFrom windowSize timestamps.length) ∨
      Trimmed (timestamps.drop (trimFrom windowSize timestamps.length)) time := by
  set count := trimFrom windowSize timestamps.length with hcount
  rw [← take_append_drop count timestamps] at htime hordered
  refine (mem_append.mp htime).symm.imp id fun hfront ↦ ⟨?_, fun shown hshown ↦ ?_⟩
  · have hpositive : 0 < count := by
      have hlength := length_pos_of_mem hfront
      rw [length_take] at hlength
      omega
    rw [length_drop]
    unfold trimFrom at hcount
    split_ifs at hcount with hlong
    · omega
    · omega
  · exact (pairwise_append.mp hordered).2.2 time hfront shown hshown

/-- The merge appends the new timestamps and leaves out the first ones. -/
theorem timestamps_merge : (merge shown (reading.payload cell .delta)).timestamps =
    (shown.timestamps ++ appended shown reading).drop
      (trimFrom windowSize (shown.timestamps ++ appended shown reading).length) :=
  rfl

theorem pairwise_merged (hmirrors : Mirrors start cell shown previous)
    (hstep : InStep start shown previous reading)
    (h : reading.Answers .delta previous.untilTime) :
    (shown.timestamps ++ appended shown reading).Pairwise (· < ·) :=
  pairwise_append.mpr ⟨hmirrors.ordered, pairwise_appended shown reading,
    fun _ hshown _ htime ↦ lt_appended hstep h htime hshown⟩

theorem Trimmed.merge (hstep : InStep start shown previous reading)
    (h : reading.Answers .delta previous.untilTime) (htrimmed : Trimmed shown.timestamps time) :
    Trimmed (merge shown (reading.payload cell .delta)).timestamps time := by
  obtain ⟨hsize, hlater⟩ := htrimmed
  rw [timestamps_merge]
  refine ⟨?_, fun other hother ↦ ?_⟩
  · rw [length_drop, length_append]
    unfold trimFrom
    split_ifs with hlong
    · omega
    · omega
  · rcases mem_append.mp (mem_of_mem_drop hother) with hshown | happended
    · exact hlater other hshown
    · obtain ⟨first, hfirst⟩ := exists_mem_of_length_pos (lt_of_lt_of_le (by decide) hsize)
      exact (hlater first hfirst).trans (lt_appended hstep h happended hfirst)

theorem Mirrors.merge (hmirrors : Mirrors start cell shown previous)
    (hstep : InStep start shown previous reading)
    (h : reading.Answers .delta previous.untilTime)
    (hclock : previous.untilTime ≤ reading.untilTime)
    (hgrows : previous.recorded ⊆ reading.recorded) :
    Mirrors start cell (merge shown (reading.payload cell .delta)) reading where
  rows key index entity hentity := by
    have hmem : entity ∈ appendNew shown.entities reading.listed := mem_of_getElem? hentity
    refine ⟨_, (prevRow shown key (HistoryEntity.id entity) ++
      deltaRow (reading.payload cell .delta) (appended shown reading) key
        (HistoryEntity.id entity)).drop
          (trimFrom windowSize (shown.timestamps ++ appended shown reading).length),
      if_pos (.inr rfl), ?_, ?_⟩
    · rw [List.getElem?_map]
      exact congrArg (Option.map _) hentity
    · exact forall₂_drop _ (rel_append (rowShows_prevRow hmirrors hstep hgrows hmem key)
        (rowShows_deltaRow hmirrors hstep h hmem key))
  ordered := (pairwise_merged hmirrors hstep h).sublist (drop_sublist _ _)
  distinct := nodup_appendNew hmirrors.distinct
  inWindow time htime := by
    rcases mem_append.mp (mem_of_mem_drop htime) with hshown | happended
    · exact hmirrors.inWindow time hshown
    · exact hmirrors.started.trans
        (le_of_lt (within_of_mem_timestampsOf h (mem_appended.mp happended).1))
  started := hmirrors.started.trans hclock
  listed entity hentity := by
    have hid : HistoryEntity.id entity ∈ (appendNew shown.entities reading.listed).map
        HistoryEntity.id := mem_ids_appendNew hentity
    obtain ⟨other, hother, hsame⟩ := mem_map.mp hid
    refine ⟨other, hother, ?_⟩
    rcases new_of_mem_appendNew hother with hbefore | ⟨hlisted, -⟩
    · exact ((hstep.sameRow entity hentity other hbefore).mp hsame.symm).symm
    · rw [inj_on_of_nodup_map hstep.distinct hlisted hentity hsame]
  complete entity hentity sample hsample howner hstart := by
    have hmerged : sample.collectedAt ∈ shown.timestamps ++ appended shown reading ∨
        Trimmed shown.timestamps sample.collectedAt := by
      by_cases hbefore : sample ∈ previous.recorded
      · rcases new_of_mem_appendNew hentity with hshown | ⟨hlisted, hnew⟩
        · exact (hmirrors.complete entity hshown sample hbefore howner hstart).imp
            (mem_append_left _) id
        · exact absurd hstart
            (not_le_of_gt (hstep.appearsEmpty entity hlisted hnew sample hbefore howner))
      · have hlisted : sample.owner ∈ reading.owners := by
          rw [howner]
          by_contra hquiet
          rcases new_of_mem_appendNew hentity with hshown | ⟨hlisted, -⟩
          · exact hbefore (hstep.quiet entity hshown hquiet sample hsample howner)
          · exact hquiet (mem_map_of_mem hlisted)
        have hbehind := (hstep.inOrder sample hsample hbefore hlisted).1
        have hread : sample.collectedAt ∈ timestampsOf reading.rows :=
          mem_timestampsOf.mpr ⟨sample, h.mem_rows.mpr ⟨hsample, hlisted, hbehind⟩, rfl⟩
        refine .inl (mem_append.mpr ?_)
        by_cases hshown : sample.collectedAt ∈ shown.timestamps
        · exact .inl hshown
        · exact .inr (mem_appended.mpr ⟨hread, hshown⟩)
    rcases hmerged with hmem | htrimmed
    · exact mem_or_trimmed_drop (pairwise_merged hmirrors hstep h) hmem
    · exact .inr (htrimmed.merge hstep h)

/-- What is shown after a run. -/
theorem mirrors_dashboard {first : Reading E M} {later : List (Reading E M)}
    (hrun : Refreshed start first later) (hdistinct : (first.listed.map HistoryEntity.id).Nodup)
    (hcondition : EveryStep (fun before reading ↦
      InStep start (dashboard cell first before) (latest first before) reading) later) :
    Mirrors start cell (dashboard cell first later) (latest first later) := by
  induction later using List.reverseRecOn with
  | nil => exact mirrors_payload hrun.loaded hrun.started hdistinct
  | append_singleton before reading ih =>
    have hbefore := ih ⟨hrun.loaded, hrun.started, hrun.answered.of_append, hrun.clock.of_append,
      hrun.grows.of_append⟩ hcondition.of_append
    rw [dashboard, latest, foldl_append, getLastD_concat]
    exact hbefore.merge hcondition.last hrun.answered.last hrun.clock.last hrun.grows.last

end

/-- A dashboard that is refreshed by deltas shows the same data as a fresh load. Assumes: the first
answer lists distinct ids, and every refresh meets the conditions. -/
theorem showsSame (start : ℕ) (cell : K → M → Option V) (first : Reading E M)
    (later : List (Reading E M)) (hrun : Refreshed start first later)
    (hdistinct : (first.listed.map HistoryEntity.id).Nodup)
    (hcondition : EveryStep (fun before reading ↦
      InStep start (dashboard cell first before) (latest first before) reading) later) :
    ShowsSame start cell (dashboard cell first later) (latest first later) := by
  have hmirrors := mirrors_dashboard hrun hdistinct hcondition
  refine ⟨hmirrors.rows, hmirrors.ordered, fun owner howner ↦ ?_, fun sample hsample howner hstart ↦ ?_⟩
  · obtain ⟨entity, hentity, rfl⟩ := mem_map.mp howner
    exact hmirrors.listed entity hentity
  · obtain ⟨listed, hlisted, hlistedOwner⟩ := mem_map.mp howner
    obtain ⟨entity, hentity, hsame⟩ := hmirrors.listed listed hlisted
    exact hmirrors.complete entity hentity sample hsample (hlistedOwner.symm.trans hsame.symm) hstart

end

/-! ### Services and servers -/

def serviceReading (serverName : String → String) (deployments : List DeploymentRow)
    (recorded rows : List (Sample ServiceMetrics)) (untilTime : ℕ) :
    Reading ServiceItem ServiceMetrics :=
  ⟨deployments.map (·.item serverName), recorded, rows, untilTime⟩

def cpuSample (deploymentId : String) (collectedAt : ℕ) (percent : ℚ) : Sample ServiceMetrics :=
  ⟨deploymentId, collectedAt, ⟨some percent, none, none, none, none, none⟩⟩

def twoDeployments : List DeploymentRow :=
  [⟨"first", "server1", "web", "web"⟩, ⟨"second", "server2", "web", "web"⟩]

def twoSamples : List (Sample ServiceMetrics) :=
  [cpuSample "first" 1000 10, cpuSample "second" 1000 20]

def twoLoaded : Reading ServiceItem ServiceMetrics :=
  serviceReading id twoDeployments twoSamples twoSamples 2000

/-- A refresh behind it, without any new sample. -/
def twoRefreshed : Reading ServiceItem ServiceMetrics :=
  serviceReading id twoDeployments twoSamples [] 3000

/-- After a refresh both rows of a service with two deployments show the samples of the second. -/
theorem not_showsSame_twoDeployments :
    Refreshed 0 twoLoaded [twoRefreshed] ∧
      ¬ ShowsSame 0 ServiceMetricKey.cell (dashboard ServiceMetricKey.cell twoLoaded [twoRefreshed])
        (latest twoLoaded [twoRefreshed]) := by
  refine ⟨⟨⟨.refl _, by decide⟩, Nat.zero_le _, ?_, ?_, ?_⟩, fun h ↦ ?_⟩
  · exact everyStep_of_stepsAfter ⟨⟨.refl _, List.Pairwise.nil⟩, trivial⟩
  · exact everyStep_of_stepsAfter ⟨by decide, trivial⟩
  · exact everyStep_of_stepsAfter ⟨List.Subset.refl _, trivial⟩
  · obtain ⟨rows, row, hseries, hrow, hshows⟩ := h.rows .cpu 0
      ⟨"web", "first", "web", "server1", "server1"⟩ rfl
    have hmerged : (dashboard ServiceMetricKey.cell twoLoaded [twoRefreshed]).series .cpu =
        some [[some 20], [some 20]] := by decide
    obtain rfl := some.inj (hmerged.symm.trans hseries)
    obtain rfl := some.inj hrow
    obtain ⟨hfirst, -⟩ := forall₂_cons.mp hshows
    rcases hfirst with ⟨sample, hsample, howner, -, hvalue⟩ | ⟨-, hnull⟩
    · rcases mem_cons.mp hsample with rfl | hsecond
      · exact absurd (some.inj hvalue) (by decide)
      · obtain rfl := mem_singleton.mp hsecond
        exact absurd howner (by decide)
    · nomatch hnull

section

variable [HistoryEntity E] (entity : E) (old new : M)

/-- A load that finds a sample of one entity. -/
def loadedOnce : Reading E M :=
  ⟨[entity], [⟨HistoryEntity.owner entity, 1000, old⟩], [⟨HistoryEntity.owner entity, 1000, old⟩],
    2000⟩

/-- A refresh behind it that finds a new one. -/
def refreshedOnce : Reading E M :=
  ⟨[entity], [⟨HistoryEntity.owner entity, 1000, old⟩, ⟨HistoryEntity.owner entity, 2500, new⟩],
    [⟨HistoryEntity.owner entity, 2500, new⟩], 3000⟩

theorem refreshed_refreshedOnce :
    Refreshed 0 (loadedOnce entity old) [refreshedOnce entity old new] := by
  refine ⟨⟨?_, pairwise_singleton _ _⟩, Nat.zero_le _, everyStep_of_stepsAfter ⟨⟨?_, ?_⟩, trivial⟩,
    everyStep_of_stepsAfter ⟨?_, trivial⟩, everyStep_of_stepsAfter ⟨?_, trivial⟩⟩
  · simp [loadedOnce, Reading.owners, Within]
  · simp [loadedOnce, refreshedOnce, latest, Reading.owners, Within]
  · exact pairwise_singleton _ _
  · simp [loadedOnce, refreshedOnce, latest]
  · simp [loadedOnce, refreshedOnce, latest]

theorem inStep_refreshedOnce (cell : K → M → Option V) :
    InStep 0 ((loadedOnce entity old).payload cell .full) (loadedOnce entity old)
      (refreshedOnce entity old new) := by
  have hentities : ((loadedOnce entity old).payload cell .full).entities = [entity] := rfl
  have htimestamps : ((loadedOnce entity old).payload cell .full).timestamps = [1000] := rfl
  refine ⟨nodup_singleton _, ?_, ?_, ?_, ?_, ?_⟩
  · rw [hentities]
    simp [refreshedOnce]
  · rw [htimestamps]
    simp [loadedOnce, refreshedOnce, Reading.owners]
  · rw [htimestamps]
    simp [loadedOnce]
  · rw [hentities]
    simp [refreshedOnce]
  · rw [hentities]
    simp [refreshedOnce, Reading.owners]

end

def oneDeployment : DeploymentRow :=
  ⟨"first", "server1", "web", "web"⟩

def cpuOnly (percent : ℚ) : ServerMetrics :=
  ⟨some percent, none, none, none, none, none, none, none, none, none, none, none, none, none, none,
    none, none⟩

/-- A refresh shows the new sample behind the old one, on either route. -/
theorem showsSame_refreshedOnce :
    ShowsSame 0 ServiceMetricKey.cell
        (merge (serviceHistory id [oneDeployment] [cpuSample "first" 1000 10] .full 2000)
          (serviceHistory id [oneDeployment] [cpuSample "first" 2500 30] .delta 3000))
        (refreshedOnce (oneDeployment.item id) (cpuSample "first" 1000 10).metrics
          (cpuSample "first" 2500 30).metrics) ∧
      ShowsSame 0 ServerMetricKey.cell
        (merge (serverHistory [⟨"server1", "web", "[]"⟩] [⟨"server1", 1000, cpuOnly 10⟩] .full 2000)
          (serverHistory [⟨"server1", "web", "[]"⟩] [⟨"server1", 2500, cpuOnly 30⟩] .delta 3000))
        (refreshedOnce (⟨"server1", "web", "[]"⟩ : ServerItem) (cpuOnly 10) (cpuOnly 30)) :=
  ⟨showsSame 0 _ _ [refreshedOnce _ _ _] (refreshed_refreshedOnce _ _ _) (nodup_singleton _)
      (everyStep_of_stepsAfter ⟨inStep_refreshedOnce _ _ _ _, trivial⟩),
    showsSame 0 _ _ [refreshedOnce _ _ _] (refreshed_refreshedOnce _ _ _) (nodup_singleton _)
      (everyStep_of_stepsAfter ⟨inStep_refreshedOnce _ _ _ _, trivial⟩)⟩

end Bridgeport.Monitoring
