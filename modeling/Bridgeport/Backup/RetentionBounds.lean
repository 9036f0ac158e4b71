import Bridgeport.Backup.Rotation

/-!
# Bounds of a rotation

What the composed selection of `rotateDatabase` guarantees, whatever the tiers select. The kept ids
are ids of candidates; with the exempt backups they reach the floor as far as there are backups to
reach it with; and the total size fits the cap unless the selection reports that it cannot.
-/

namespace Bridgeport.Backup

open Foundation List

variable (candidates : List RotationCandidate)

def candidateIds : Finset String :=
  (candidates.map (·.id)).toFinset

/-- The size of the candidates whose id is in a set of ids. -/
def keptSize (keep : Finset String) : ℤ :=
  ((candidates.filter (·.id ∈ keep)).map (·.size)).sum

/-- What a selection of ids to keep guarantees: a floor, no id that is not a candidate's, and the
cap unless it is unreachable. -/
structure RetentionSound (policy : RetentionPolicy) (candidates : List RotationCandidate)
    (exemptSuccessfulCount : ℕ) (exemptSize : ℤ) (result : CapResult) : Prop where
  floor : min policy.minFloor (candidates.length + exemptSuccessfulCount) ≤
    result.keep.card + exemptSuccessfulCount
  subset : result.keep ⊆ candidateIds candidates
  fits : ∀ cap, policy.maxTotalBytes = some cap → result.cappedButUnreachable = false →
    exemptSize + keptSize candidates result.keep ≤ cap
  unreachable : result.cappedButUnreachable = true → ∀ victim ∈ result.keep,
    ((result.keep.erase victim).card : ℤ) + exemptSuccessfulCount < policy.minFloor

theorem mem_candidateIds_iff (id : String) :
    id ∈ candidateIds candidates ↔ ∃ candidate ∈ candidates, candidate.id = id := by
  rw [candidateIds, mem_toFinset, mem_map]

theorem mem_addIds_iff (chosen : List RotationCandidate) (keep : Finset String) (id : String) :
    id ∈ addIds keep chosen ↔ id ∈ keep ∨ id ∈ candidateIds chosen := by
  unfold addIds
  induction chosen generalizing keep with
  | nil => simp [candidateIds]
  | cons candidate chosen ih =>
    rw [foldl_cons, ih, Finset.mem_insert, mem_candidateIds_iff, mem_candidateIds_iff,
      exists_mem_cons_iff, eq_comm, or_comm (a := candidate.id = id), or_assoc]

variable (tz : TimeZone) (period : Period)

theorem bucketCandidate_cases (buckets : OrderedMap String RotationCandidate)
    (candidate : RotationCandidate) : bucketCandidate tz period buckets candidate = buckets ∨
      bucketCandidate tz period buckets candidate =
        buckets.set (periodKey tz candidate.createdAt period) candidate := by
  rcases hbucket : buckets.get (periodKey tz candidate.createdAt period) with _ | current
  · exact .inr (by simp only [bucketCandidate, hbucket])
  · simp only [bucketCandidate, hbucket]
    split_ifs
    · exact .inr rfl
    · exact .inl rfl

theorem mem_of_get_foldl_bucketCandidate (candidates : List RotationCandidate)
    (buckets : OrderedMap String RotationCandidate) (key : String) (candidate : RotationCandidate)
    (hget : (candidates.foldl (bucketCandidate tz period) buckets).get key = some candidate) :
    candidate ∈ candidates ∨ buckets.get key = some candidate := by
  induction candidates generalizing buckets with
  | nil => exact .inr hget
  | cons first rest ih =>
    rcases ih _ hget with hmem | hbucket
    · exact .inl (mem_cons_of_mem _ hmem)
    · rcases bucketCandidate_cases tz period buckets first with hsame | hset
      · exact .inr (hsame ▸ hbucket)
      · rw [hset, OrderedMap.get_set] at hbucket
        split_ifs at hbucket
        · rw [← Option.some.inj hbucket]
          exact .inl mem_cons_self
        · exact .inr hbucket

theorem selectPeriodTier_subset (candidates : List RotationCandidate) (period : Period)
    (count : ℤ) : selectPeriodTier tz candidates period count ⊆ candidateIds candidates := by
  unfold selectPeriodTier
  split_ifs
  · exact Finset.empty_subset _
  · intro id hid
    rw [mem_addIds_iff, mem_candidateIds_iff] at hid
    obtain ⟨candidate, hchosen, hid⟩ := hid.resolve_left (Finset.notMem_empty id)
    obtain ⟨key, -, hget⟩ := mem_filterMap.mp hchosen
    have hmem := mem_of_get_foldl_bucketCandidate tz period candidates _ key candidate hget
    exact (mem_candidateIds_iff _ _).mpr ⟨candidate, hmem.resolve_right (by simp), hid⟩

theorem selectKeep_subset (candidates : List RotationCandidate) (policy : RetentionPolicy) :
    selectKeep tz candidates policy ⊆ candidateIds candidates := by
  have hrecent : addIds ∅ ((byNewest candidates).take (max 0 policy.keepLast).toNat) ⊆
      candidateIds candidates := by
    intro id hid
    rw [mem_addIds_iff, mem_candidateIds_iff] at hid
    obtain ⟨candidate, hchosen, hid⟩ := hid.resolve_left (Finset.notMem_empty id)
    have hmem := mem_mergeSort.mp (mem_of_mem_take hchosen)
    exact (mem_candidateIds_iff _ _).mpr ⟨candidate, hmem, hid⟩
  refine Finset.union_subset (Finset.union_subset (Finset.union_subset (Finset.union_subset hrecent
    ?_) ?_) ?_) ?_
  all_goals exact selectPeriodTier_subset tz candidates _ _

variable (exemptSuccessfulCount : ℕ)

/-- The floor loop adds ids of its candidates only, and stops at the floor or after all of them. -/
theorem fillFloor_spec (minFloor : ℤ) (candidates : List RotationCandidate) (keep : Finset String) :
    keep ⊆ fillFloor exemptSuccessfulCount minFloor candidates keep ∧
      fillFloor exemptSuccessfulCount minFloor candidates keep ⊆ keep ∪ candidateIds candidates ∧
      (minFloor ≤ exemptSuccessfulCount +
          (fillFloor exemptSuccessfulCount minFloor candidates keep).card ∨
        candidateIds candidates ⊆ fillFloor exemptSuccessfulCount minFloor candidates keep) := by
  induction candidates generalizing keep with
  | nil => simp [fillFloor, candidateIds]
  | cons candidate rest ih =>
    have hids : candidateIds (candidate :: rest) = insert candidate.id (candidateIds rest) := by
      simp [candidateIds]
    unfold fillFloor
    split_ifs with hreached
    · exact ⟨Finset.Subset.refl _, Finset.subset_union_left, .inl hreached⟩
    · obtain ⟨hgrow, hbound, hstop⟩ := ih (insert candidate.id keep)
      refine ⟨(Finset.subset_insert _ _).trans hgrow, ?_, hstop.imp_right fun hall ↦ ?_⟩
      · rw [hids, Finset.union_insert, ← Finset.insert_union]
        exact hbound
      · rw [hids]
        exact Finset.insert_subset (hgrow (Finset.mem_insert_self _ _)) hall

theorem card_candidateIds {candidates : List RotationCandidate}
    (hids : (candidates.map (·.id)).Nodup) :
    (candidateIds candidates).card = candidates.length := by
  rw [candidateIds, toFinset_card_of_nodup hids, length_map]

theorem candidateIds_byNewest (candidates : List RotationCandidate) :
    candidateIds (byNewest candidates) = candidateIds candidates := by
  ext id
  simp only [mem_candidateIds_iff, byNewest, mem_mergeSort]

variable {keepIds : Finset String}

/-- `applyFloor` keeps ids of candidates and reaches the floor, or keeps every candidate. Assumes:
distinct candidate ids. -/
theorem applyFloor_spec {candidates : List RotationCandidate}
    (hids : (candidates.map (·.id)).Nodup) (hsubset : keepIds ⊆ candidateIds candidates)
    (exemptSuccessfulCount : ℕ) (minFloor : ℤ) :
    applyFloor candidates keepIds exemptSuccessfulCount minFloor ⊆ candidateIds candidates ∧
      min minFloor (candidates.length + exemptSuccessfulCount) ≤
        (applyFloor candidates keepIds exemptSuccessfulCount minFloor).card +
          exemptSuccessfulCount := by
  obtain ⟨-, hbound, hstop⟩ :=
    fillFloor_spec exemptSuccessfulCount minFloor (byNewest candidates) keepIds
  rw [candidateIds_byNewest] at hbound hstop
  refine ⟨hbound.trans (Finset.union_subset hsubset (Finset.Subset.refl _)), ?_⟩
  unfold applyFloor
  rcases hstop with hreached | hall
  · exact (min_le_left _ _).trans (by omega)
  · have hcard := Finset.card_le_card hall
    rw [card_candidateIds hids] at hcard
    exact (min_le_right _ _).trans (by omega)

/-- The cap loop, for victims with distinct ids that are all kept: it only evicts, keeps the running
total equal to the base plus the kept sizes, never goes below the floor, and stops when the total
fits, the floor protects every further id, or no victim is left. -/
theorem evictVictims_spec (minFloor cap base : ℤ) (sizeOf : String → ℤ)
    (victims : List RotationCandidate) (hids : (victims.map (·.id)).Nodup)
    (hsize : ∀ victim ∈ victims, sizeOf victim.id = victim.size) (keep : Finset String)
    (total : ℤ) (hkept : ∀ victim ∈ victims, victim.id ∈ keep)
    (htotal : total = base + ∑ id ∈ keep, sizeOf id) (result : Finset String × ℤ)
    (hresult : evictVictims exemptSuccessfulCount minFloor cap victims keep total = result) :
    result.1 ⊆ keep ∧ result.2 = base + ∑ id ∈ result.1, sizeOf id ∧
      min minFloor (keep.card + exemptSuccessfulCount) ≤ result.1.card + exemptSuccessfulCount ∧
      (result.2 ≤ cap ∨ exemptSuccessfulCount + ((result.1.card : ℤ) - 1) < minFloor ∨
        ∀ victim ∈ victims, victim.id ∉ result.1) := by
  induction victims generalizing keep total with
  | nil =>
    rw [← hresult]
    exact ⟨Finset.Subset.refl _, htotal, min_le_right _ _,
      .inr (.inr fun _ hvictim ↦ absurd hvictim not_mem_nil)⟩
  | cons victim rest ih =>
    unfold evictVictims at hresult
    split_ifs at hresult with hfits hprotected
    · rw [← hresult]
      exact ⟨Finset.Subset.refl _, htotal, min_le_right _ _, .inl hfits⟩
    · rw [← hresult]
      exact ⟨Finset.Subset.refl _, htotal, min_le_right _ _, .inr (.inl hprotected)⟩
    · have hvictim := hkept victim mem_cons_self
      have hcard : ((keep.erase victim.id).card : ℤ) = keep.card - 1 := by
        rw [Finset.card_erase_of_mem hvictim]
        have hpositive := Finset.card_pos.mpr ⟨_, hvictim⟩
        omega
      rw [map_cons, nodup_cons] at hids
      have hsum := Finset.add_sum_erase keep sizeOf hvictim
      rw [hsize victim mem_cons_self] at hsum
      obtain ⟨hsubset, haccount, hfloor, hstop⟩ := ih hids.2
        (fun other hother ↦ hsize other (mem_cons_of_mem _ hother)) (keep.erase victim.id)
        (total - victim.size)
        (fun other hother ↦ Finset.mem_erase.mpr
          ⟨fun hsame ↦ hids.1 (hsame ▸ mem_map_of_mem hother),
            hkept other (mem_cons_of_mem _ hother)⟩)
        (by omega) hresult
      refine ⟨hsubset.trans (Finset.erase_subset _ _), haccount, ?_, ?_⟩
      · omega
      · refine hstop.imp_right (Or.imp_right fun hevicted other hother ↦ ?_)
        rcases mem_cons.mp hother with rfl | hother
        · exact fun hmem ↦ Finset.notMem_erase _ _ (hsubset hmem)
        · exact hevicted other hother

/-- The size that `applySizeCap` looks up for an id. -/
def sizeOfId (candidates : List RotationCandidate) (id : String) : ℤ :=
  ((sizeById candidates).get id).getD 0

section

variable {candidates : List RotationCandidate} (hids : (candidates.map (·.id)).Nodup)
include hids

theorem sizeOfId_of_mem {candidate : RotationCandidate} (hcandidate : candidate ∈ candidates) :
    sizeOfId candidates candidate.id = candidate.size := by
  rw [sizeOfId, sizeById, OrderedMap.get_foldl_set (·.id) (·.size) candidates hids _ hcandidate]
  rfl

/-- The looked-up sizes of kept candidate ids add up to the kept size. -/
theorem sum_sizeOfId {keep : Finset String} (hsubset : keep ⊆ candidateIds candidates) :
    ∑ id ∈ keep, sizeOfId candidates id = keptSize candidates keep := by
  have hkeep : keep = ((candidates.filter (·.id ∈ keep)).map (·.id)).toFinset := by
    ext id
    simp only [mem_toFinset, mem_map, mem_filter, decide_eq_true_eq]
    constructor
    · intro hid
      obtain ⟨candidate, hcandidate, rfl⟩ := (mem_candidateIds_iff _ _).mp (hsubset hid)
      exact ⟨candidate, ⟨hcandidate, hid⟩, rfl⟩
    · rintro ⟨candidate, ⟨-, hid⟩, rfl⟩
      exact hid
  have hnodup : ((candidates.filter (·.id ∈ keep)).map (·.id)).Nodup :=
    hids.sublist (filter_sublist.map _)
  conv_lhs => rw [hkeep]
  rw [sum_toFinset _ hnodup, map_map]
  refine congrArg List.sum (map_congr_left fun candidate hcandidate ↦ ?_)
  exact sizeOfId_of_mem hids (mem_of_mem_filter hcandidate)

/-- `applySizeCap` on kept ids of candidates. Assumes: distinct candidate ids. -/
theorem applySizeCap_spec (hsubset : keepIds ⊆ candidateIds candidates) (exemptSize : ℤ)
    (exemptSuccessfulCount : ℕ) (minFloor : ℤ) (maxTotalBytes : Option ℤ) (result : CapResult)
    (hresult : applySizeCap candidates keepIds exemptSize exemptSuccessfulCount minFloor
      maxTotalBytes = result) :
    result.keep ⊆ keepIds ∧
      min minFloor (keepIds.card + exemptSuccessfulCount) ≤
        result.keep.card + exemptSuccessfulCount ∧
      (∀ cap, maxTotalBytes = some cap → result.cappedButUnreachable = false →
        exemptSize + keptSize candidates result.keep ≤ cap) ∧
      (result.cappedButUnreachable = true → ∀ victim ∈ result.keep,
        ((result.keep.erase victim).card : ℤ) + exemptSuccessfulCount < minFloor) := by
  cases maxTotalBytes with
  | none =>
    rw [← hresult]
    exact ⟨Finset.Subset.refl _, min_le_right _ _, nofun, nofun⟩
  | some cap =>
    set victims := byOldest (candidates.filter (·.id ∈ keepIds)) with hvictims
    have hmem : ∀ victim, victim ∈ victims ↔ victim ∈ candidates ∧ victim.id ∈ keepIds := by
      intro victim
      rw [hvictims, byOldest, mem_mergeSort, mem_filter, decide_eq_true_eq]
    have hnodup : (victims.map (·.id)).Nodup := by
      rw [hvictims, byOldest, ((mergeSort_perm _ _).map _).nodup_iff]
      exact hids.sublist (filter_sublist.map _)
    set outcome := evictVictims exemptSuccessfulCount minFloor cap victims keepIds
      (exemptSize + ∑ id ∈ keepIds, sizeOfId candidates id) with houtcome
    obtain ⟨hevicted, haccount, hfloor, hstop⟩ := evictVictims_spec exemptSuccessfulCount minFloor
      cap exemptSize (sizeOfId candidates) victims hnodup
      (fun victim hvictim ↦ sizeOfId_of_mem hids ((hmem victim).mp hvictim).1) keepIds _
      (fun victim hvictim ↦ ((hmem victim).mp hvictim).2) rfl outcome houtcome.symm
    have hcapped : applySizeCap candidates keepIds exemptSize exemptSuccessfulCount minFloor
        (some cap) = ⟨outcome.1, cap < outcome.2⟩ := rfl
    rw [hcapped] at hresult
    rw [← hresult]
    refine ⟨hevicted, hfloor, fun limit hlimit hreached ↦ ?_, fun hunreachable victim hvictim ↦ ?_⟩
    · rw [← sum_sizeOfId hids (hevicted.trans hsubset), ← Option.some.inj hlimit]
      have hle := not_lt.mp (of_decide_eq_false hreached)
      exact haccount ▸ hle
    · have hover := of_decide_eq_true hunreachable
      have hpositive : 0 < outcome.1.card := Finset.card_pos.mpr ⟨_, hvictim⟩
      rw [Finset.card_erase_of_mem hvictim]
      show ((outcome.1.card - 1 : ℕ) : ℤ) + exemptSuccessfulCount < minFloor
      rcases hstop with hfits | hprotected | hnone
      · exact absurd hfits (not_le.mpr hover)
      · omega
      · obtain ⟨candidate, hcandidate, hid⟩ :=
          (mem_candidateIds_iff _ _).mp (hsubset (hevicted hvictim))
        refine absurd (hid.symm ▸ hvictim) (hnone candidate ((hmem candidate).mpr ⟨hcandidate, ?_⟩))
        rw [hid]
        exact hevicted hvictim

end

/-- The composed selection is sound for every policy, time zone, exempt count and exempt size.
Assumes: distinct candidate ids. -/
theorem retentionSound_retain (tz : TimeZone) (policy : RetentionPolicy)
    (candidates : List RotationCandidate) (hids : (candidates.map (·.id)).Nodup)
    (exemptSuccessfulCount : ℕ) (exemptSize : ℤ) :
    RetentionSound policy candidates exemptSuccessfulCount exemptSize
      (retain tz policy candidates exemptSuccessfulCount exemptSize) := by
  obtain ⟨hsubset, hfloor⟩ := applyFloor_spec hids (selectKeep_subset tz candidates policy)
    exemptSuccessfulCount policy.minFloor
  obtain ⟨hevicted, hfloor', hfits, hprotected⟩ := applySizeCap_spec hids hsubset exemptSize
    exemptSuccessfulCount policy.minFloor policy.maxTotalBytes _ rfl
  exact ⟨(le_min (min_le_left _ _) hfloor).trans hfloor', hevicted.trans hsubset, hfits, hprotected⟩

/-- Two backups of a database on a floor of one under a cap that only one of them fits. -/
theorem retentionSound_two_backups :
    RetentionSound ⟨2, 0, 0, 0, 0, 1, some 10⟩ [⟨"old", 0, 8⟩, ⟨"new", 1, 9⟩] 0 0
      (retain (fun _ ↦ ⟨2026, 6, 22⟩) ⟨2, 0, 0, 0, 0, 1, some 10⟩
        [⟨"old", 0, 8⟩, ⟨"new", 1, 9⟩] 0 0) :=
  retentionSound_retain _ _ _ (by decide) 0 0

theorem exists_of_mem_prune (policy : RetentionPolicy) (rows : List DatabaseBackup)
    (databaseId id : String) (hpruned : id ∈ (planRotation tz policy rows databaseId).prune) :
    ∃ row ∈ rows, row.id = id ∧ row.databaseId = databaseId ∧ row.status = .completed ∧
      row.type = .scheduled ∧ row.isPinned = false := by
  obtain ⟨candidate, hcandidate, hid⟩ := mem_map.mp hpruned
  have hmem := mem_of_mem_filter hcandidate
  rw [candidatesOf, byNewest, mem_mergeSort, mem_map] at hmem
  obtain ⟨row, hrow, rfl⟩ := hmem
  rw [mem_filter, decide_eq_true_eq, Bool.not_eq_true] at hrow
  exact ⟨row, hrow.1, hid, hrow.2⟩

end Bridgeport.Backup
