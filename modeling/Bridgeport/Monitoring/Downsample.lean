import Mathlib

/-!
# Downsampling of a columnar history

`downsampleColumnar` thins the shared timestamps of a history to `maxPoints`. The interior indices
are divided into buckets, one anchor for each bucket is chosen by the areas of triangles, and a row
without a sample at the anchor shows its last sample in the bucket.

Whatever the areas choose, the anchors stay in their buckets, so that the result is aligned and
keeps a sample of every row in each bucket that has one (`downsampled`). Numbers are rational.
-/

namespace Bridgeport.Monitoring

open List

/-- A row of a history; `null` is `none`. -/
abbrev Row := List (Option ℚ)

variable (row : Row)

/-- `row[index]`. -/
def sample (index : ℕ) : Option ℚ :=
  row.getD index none

def bucketSize (n interior : ℕ) : ℚ :=
  ((n - 2 : ℕ) : ℚ) / interior

/-- `boundaries`: the start of each bucket and the index behind it. -/
def boundaries (n interior : ℕ) : List (ℕ × ℕ) :=
  (range interior).map fun i : ℕ ↦
    (⌊(i : ℚ) * bucketSize n interior⌋₊ + 1,
      min (⌊((i : ℚ) + 1) * bucketSize n interior⌋₊ + 1) (n - 1))

def indicesOf (bucket : ℕ × ℕ) : List ℕ :=
  range' bucket.1 (bucket.2 - bucket.1)

/-- `nextAvgPerRow[r]`, or `none` without `hasData`. -/
def nextAverage (next : ℕ × ℕ) (row : Row) : Option (ℚ × ℚ) :=
  let samples := (indicesOf next).filterMap fun index ↦
    (sample row index).map fun value ↦ ((index : ℚ), value)
  if samples.length > 0 then
    some ((samples.map Prod.fst).sum / samples.length, (samples.map Prod.snd).sum / samples.length)
  else none

def area (candidate : ℕ) (row : Row) (prevIdx : ℕ) (nextAvg : Option (ℚ × ℚ)) : Option ℚ := do
  let cy ← sample row candidate
  let py ← sample row prevIdx
  let (nx, ny) ← nextAvg
  let px : ℚ := prevIdx
  some |(px - nx) * (cy - py) - (px - candidate) * (ny - py)|

def areas (rows : List Row) (prevIdxByRow : List ℕ) (next : ℕ × ℕ) (candidate : ℕ) : List ℚ :=
  (rows.zip prevIdxByRow).filterMap fun entry ↦
    area candidate entry.1 entry.2 (nextAverage next entry.1)

/-- The loop over the candidates, with `bestScore` absent at first. -/
def bestIdx (rows : List Row) (prevIdxByRow : List ℕ) (next : ℕ × ℕ) : List ℕ → ℕ × Option ℚ → ℕ
  | [], best => best.1
  | candidate :: candidates, best =>
    let contributing := areas rows prevIdxByRow next candidate
    bestIdx rows prevIdxByRow next candidates
      (if contributing.length > 0 ∧ best.2.all (· < contributing.sum) then
        (candidate, some contributing.sum) else best)

/-- `selectedIndices`, for the buckets that are left. The bucket behind the last one is the final
index. -/
def selectIndices (n : ℕ) (rows : List Row) : List (ℕ × ℕ) → List ℕ → List ℕ
  | [], _ => []
  | bucket :: buckets, prevIdxByRow =>
    if bucket.2 ≤ bucket.1 then bucket.1 :: selectIndices n rows buckets prevIdxByRow
    else
      let next := buckets.head?.getD (n - 1, n)
      let best := bestIdx rows prevIdxByRow next (indicesOf bucket) (bucket.1, none)
      best :: selectIndices n rows buckets ((rows.zip prevIdxByRow).map fun entry ↦
        if (sample entry.1 best).isSome then best else entry.2)

def projectBucket (bucket : ℕ × ℕ) (anchor : ℕ) : Option ℚ :=
  (sample row anchor).or ((indicesOf bucket).reverse.findSome? (sample row))

def projectRow (n : ℕ) (buckets : List (ℕ × ℕ)) (selectedIndices : List ℕ) (row : Row) : Row :=
  sample row 0 :: (zipWith (projectBucket row) buckets selectedIndices ++ [sample row (n - 1)])

structure DownsampleResult where
  timestamps : List String
  rows : List Row

def downsampleColumnar (timestamps : List String) (rows : List Row) (maxPoints : ℕ) :
    DownsampleResult :=
  let n := timestamps.length
  if n ≤ maxPoints ∨ maxPoints < 3 then ⟨timestamps, rows⟩
  else
    let interior := maxPoints - 2
    let selectedIndices := selectIndices n rows (boundaries n interior) (rows.map fun _ ↦ 0)
    let finalIdx := 0 :: (selectedIndices ++ [n - 1])
    ⟨finalIdx.map fun index ↦ timestamps.getD index "",
      rows.map (projectRow n (boundaries n interior) selectedIndices)⟩

/-- An entry is a sample of its row in a bucket, if the row has one there. -/
structure ShowsBucket (row : Row) (bucket : ℕ × ℕ) (entry : Option ℚ) : Prop where
  own : ∀ value, entry = some value → ∃ index ∈ indicesOf bucket, sample row index = some value
  absent : entry = none ↔ ∀ index ∈ indicesOf bucket, sample row index = none

/-- The result is aligned, with one anchor in each bucket and the samples of every row. -/
structure Downsampled (timestamps : List String) (rows : List Row) (maxPoints : ℕ)
    (buckets : List (ℕ × ℕ)) (result : DownsampleResult) : Prop where
  count : buckets.length = maxPoints - 2
  nonempty : ∀ bucket ∈ buckets, bucket.1 < bucket.2
  partitioned : buckets.flatMap indicesOf = range' 1 (timestamps.length - 2)
  anchored : ∃ anchors, Forall₂ (fun bucket anchor ↦ anchor ∈ indicesOf bucket) buckets anchors ∧
    (0 :: (anchors ++ [timestamps.length - 1])).Pairwise (· < ·) ∧
    result.timestamps.map some = (0 :: (anchors ++ [timestamps.length - 1])).map (timestamps[·]?)
  sampled : Forall₂ (fun row shown : Row ↦ shown.length = maxPoints ∧ ∃ entries,
    shown = sample row 0 :: (entries ++ [sample row (timestamps.length - 1)]) ∧
      Forall₂ (ShowsBucket row) buckets entries) rows result.rows

def bucketStart (length interior i : ℕ) : ℕ :=
  i * length / interior + 1

variable {bound : ℕ → ℕ}

section

variable {n interior : ℕ}

theorem boundaries_eq (hn : interior + 2 < n) :
    boundaries n interior = (range interior).map fun i ↦
      (bucketStart (n - 2) interior i, bucketStart (n - 2) interior (i + 1)) := by
  have hfloor (i : ℕ) : ⌊(i : ℚ) * bucketSize n interior⌋₊ = i * (n - 2) / interior := by
    rw [bucketSize, ← mul_div_assoc, ← Nat.cast_mul, Nat.floor_div_eq_div]
  rw [boundaries]
  refine map_congr_left fun i hi ↦ ?_
  have hi : i + 1 ≤ interior := mem_range.mp hi
  have hlast : (i + 1) * (n - 2) / interior ≤ n - 2 :=
    Nat.div_le_of_le_mul (Nat.mul_le_mul_right _ hi)
  rw [← Nat.cast_add_one, hfloor, hfloor, min_eq_left (by omega)]
  rfl

theorem bucketStart_lt_succ (hpos : 0 < interior) (hlength : interior ≤ n) (i : ℕ) :
    bucketStart n interior i < bucketStart n interior (i + 1) := by
  have hnext : i * n / interior + 1 ≤ (i + 1) * n / interior := by
    rw [← Nat.add_div_right _ hpos, Nat.succ_mul]
    exact Nat.div_le_div_right (Nat.add_le_add_left hlength _)
  exact Nat.succ_le_succ hnext

theorem flatMap_range' (hbound : Monotone bound) (count : ℕ) :
    (range count).flatMap (fun i ↦ range' (bound i) (bound (i + 1) - bound i)) =
      range' (bound 0) (bound count - bound 0) := by
  induction count with
  | zero => simp
  | succ count ih =>
    have hzero := hbound (Nat.zero_le count)
    have hnext : bound count ≤ bound (count + 1) := hbound (Nat.le_succ count)
    rw [range_succ, flatMap_append, ih, flatMap_singleton]
    have hjoin : range' (bound 0) (bound count - bound 0) ++
        range' (bound 0 + (bound count - bound 0)) (bound (count + 1) - bound count) = _ :=
      range'_append_1
    rw [Nat.add_sub_cancel' hzero] at hjoin
    rw [hjoin]
    congr 1
    omega

end

/-! ### Anchors and samples -/

variable {buckets : List (ℕ × ℕ)}

section

variable {n : ℕ} {rows : List Row}

theorem bestIdx_mem {prevIdxByRow : List ℕ} {next : ℕ × ℕ} (candidates : List ℕ)
    (best : ℕ × Option ℚ) :
    bestIdx rows prevIdxByRow next candidates best ∈ best.1 :: candidates := by
  induction candidates generalizing best with
  | nil => exact mem_cons_self
  | cons candidate candidates ih =>
    rw [bestIdx]
    split_ifs with hbetter
    · exact mem_cons_of_mem _ (ih _)
    · rcases mem_cons.mp (ih best) with hkept | hlater
      · exact hkept ▸ mem_cons_self
      · exact mem_cons_of_mem _ (mem_cons_of_mem _ hlater)

variable {bucket : ℕ × ℕ}

theorem forall₂_selectIndices (hbuckets : ∀ bucket ∈ buckets, bucket.1 < bucket.2)
    (prevIdxByRow : List ℕ) : Forall₂ (fun bucket anchor ↦ anchor ∈ indicesOf bucket) buckets
      (selectIndices n rows buckets prevIdxByRow) := by
  induction buckets generalizing prevIdxByRow with
  | nil => exact .nil
  | cons bucket buckets ih =>
    obtain ⟨hbucket, hlater⟩ := forall_mem_cons.mp hbuckets
    rw [selectIndices, if_neg hbucket.not_ge]
    refine .cons ?_ (ih hlater _)
    rcases mem_cons.mp (bestIdx_mem (indicesOf bucket) (bucket.1, none)) with hfirst | hmem
    · rw [hfirst]
      exact mem_range'_1.mpr ⟨le_rfl, by omega⟩
    · exact hmem

theorem showsBucket_projectBucket {anchor : ℕ} (hanchor : anchor ∈ indicesOf bucket) :
    ShowsBucket row bucket (projectBucket row bucket anchor) where
  own value hvalue := by
    rcases Option.or_eq_some_iff.mp hvalue with hown | ⟨-, hfound⟩
    · exact ⟨anchor, hanchor, hown⟩
    · obtain ⟨index, hindex, hsample⟩ := exists_of_findSome?_eq_some hfound
      exact ⟨index, mem_reverse.mp hindex, hsample⟩
  absent := by
    rw [projectBucket, Option.or_eq_none_iff, findSome?_eq_none_iff]
    simp only [mem_reverse]
    exact ⟨fun h ↦ h.2, fun h ↦ ⟨h anchor hanchor, h⟩⟩

variable {anchors : List ℕ}

theorem forall₂_zipWith_projectBucket
    (h : Forall₂ (fun bucket anchor ↦ anchor ∈ indicesOf bucket) buckets anchors) :
    Forall₂ (ShowsBucket row) buckets (zipWith (projectBucket row) buckets anchors) := by
  induction h with
  | nil => exact .nil
  | cons hanchor _ ih => exact .cons (showsBucket_projectBucket row hanchor) ih

theorem pairwise_anchors (hbound : Monotone bound) (first count : ℕ)
    (hbuckets : buckets = (range' first count).map fun i ↦ (bound i, bound (i + 1)))
    (h : Forall₂ (fun bucket anchor ↦ anchor ∈ indicesOf bucket) buckets anchors) :
    anchors.Pairwise (· < ·) ∧
      ∀ anchor ∈ anchors, bound first ≤ anchor ∧ anchor < bound (first + count) := by
  subst hbuckets
  induction count generalizing first anchors with
  | zero =>
    cases h
    exact ⟨.nil, nofun⟩
  | succ count ih =>
    rw [range'_succ, map_cons] at h
    cases h with
    | @cons _ anchor _ anchors hanchor hlater =>
      obtain ⟨hpairwise, hrange⟩ := ih (first + 1) hlater
      have hfirst : bound first ≤ anchor ∧
          anchor < bound first + (bound (first + 1) - bound first) := mem_range'_1.mp hanchor
      have hstep : bound first ≤ bound (first + 1) := hbound (Nat.le_succ first)
      have hend : bound (first + 1) ≤ bound (first + (count + 1)) := hbound (by omega)
      rw [Nat.add_sub_cancel' hstep] at hfirst
      have hcount : first + (count + 1) = first + 1 + count := by omega
      refine ⟨pairwise_cons.mpr ⟨fun later hmem ↦ ?_, hpairwise⟩, forall_mem_cons.mpr
        ⟨⟨hfirst.1, hfirst.2.trans_le hend⟩, fun later hmem ↦ ?_⟩⟩
      · exact hfirst.2.trans_le (hrange later hmem).1
      · rw [hcount]
        exact ⟨hstep.trans (hrange later hmem).1, (hrange later hmem).2⟩

end

/-- Downsampling keeps alignment and data. Assumes: at least three points, and fewer than there
are. -/
theorem downsampled {timestamps : List String} {maxPoints : ℕ} (rows : List Row)
    (hthree : 3 ≤ maxPoints) (hfewer : maxPoints < timestamps.length) :
    Downsampled timestamps rows maxPoints (boundaries timestamps.length (maxPoints - 2))
      (downsampleColumnar timestamps rows maxPoints) := by
  have hboundaries : boundaries timestamps.length (maxPoints - 2) = _ := boundaries_eq (by omega)
  have hlt : ∀ i, bucketStart (timestamps.length - 2) (maxPoints - 2) i <
      bucketStart (timestamps.length - 2) (maxPoints - 2) (i + 1) :=
    bucketStart_lt_succ (by omega) (by omega)
  have hmono : Monotone (bucketStart (timestamps.length - 2) (maxPoints - 2)) :=
    monotone_nat_of_le_succ fun i ↦ (hlt i).le
  have hnonempty : ∀ bucket ∈ boundaries timestamps.length (maxPoints - 2),
      bucket.1 < bucket.2 := by
    rw [hboundaries]
    exact forall_mem_map.mpr fun i _ ↦ hlt i
  have hzero : bucketStart (timestamps.length - 2) (maxPoints - 2) 0 = 1 := by
    rw [bucketStart, Nat.zero_mul, Nat.zero_div]
  have hend : bucketStart (timestamps.length - 2) (maxPoints - 2) (maxPoints - 2) =
      timestamps.length - 1 := by
    rw [bucketStart, Nat.mul_div_cancel_left _ (by omega)]
    omega
  have hanchors : Forall₂ (fun bucket anchor ↦ anchor ∈ indicesOf bucket)
      (boundaries timestamps.length (maxPoints - 2)) (selectIndices timestamps.length rows _ _) :=
    forall₂_selectIndices hnonempty (rows.map fun _ ↦ 0)
  obtain ⟨hincreasing, hrange⟩ := pairwise_anchors hmono 0 (maxPoints - 2)
    (hboundaries.trans (by rw [range_eq_range'])) hanchors
  rw [Nat.zero_add, hzero, hend] at hrange
  have hresult : downsampleColumnar timestamps rows maxPoints = _ := if_neg (by omega)
  have hcount : (boundaries timestamps.length (maxPoints - 2)).length = maxPoints - 2 := by
    rw [hboundaries, length_map, length_range]
  refine ⟨hcount, hnonempty, ?_, ⟨_, hanchors, ?_, ?_⟩, ?_⟩
  · rw [hboundaries, flatMap_map]
    refine (flatMap_range' hmono _).trans ?_
    rw [hzero, hend]
    congr 1
  · rw [pairwise_cons, pairwise_append]
    refine ⟨fun index hindex ↦ ?_, hincreasing, pairwise_singleton _ _,
      fun anchor hanchor last hlast ↦ ?_⟩
    · rcases mem_append.mp hindex with hanchor | hlast
      · exact (hrange index hanchor).1
      · rw [mem_singleton.mp hlast]
        omega
    · rw [mem_singleton.mp hlast]
      exact (hrange anchor hanchor).2
  · rw [hresult, map_map]
    refine map_congr_left fun index hindex ↦ ?_
    have hinside : index < timestamps.length := by
      rcases mem_cons.mp hindex with rfl | hindex
      · omega
      · rcases mem_append.mp hindex with hanchor | hlast
        · exact (hrange index hanchor).2.trans_le (Nat.sub_le _ _)
        · rw [mem_singleton.mp hlast]
          omega
    rw [Function.comp_apply, getD_eq_getElem?_getD, getElem?_eq_getElem hinside, Option.getD_some]
  · rw [hresult, forall₂_map_right_iff, forall₂_same]
    refine fun row _ ↦ ⟨?_, _, rfl, forall₂_zipWith_projectBucket row hanchors⟩
    rw [projectRow, length_cons, length_append, length_zipWith, ← hanchors.length_eq, hcount]
    simp only [min_self, length_singleton]
    omega

theorem downsampled_history :
    Downsampled ["00:00", "00:01", "00:02", "00:03", "00:04"]
      [[some 1, none, some 4, none, some 2], [none, some 3, none, none, some 5]] 4
      (boundaries 5 2) (downsampleColumnar ["00:00", "00:01", "00:02", "00:03", "00:04"]
        [[some 1, none, some 4, none, some 2], [none, some 3, none, none, some 5]] 4) :=
  downsampled _ (by decide) (by decide)

end Bridgeport.Monitoring
