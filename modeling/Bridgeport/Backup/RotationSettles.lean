import Bridgeport.Backup.RetentionBounds
import Bridgeport.Foundation.SortedPrefix

/-!
# A second rotation prunes nothing

The candidates that survive a rotation all survive the next one, in whatever order the database
lists them then (`keep_retain_survivors`).
-/

namespace Bridgeport.Backup

open Foundation List

/-! ### The period tiers -/

variable {second candidate first : RotationCandidate} {candidates : List RotationCandidate}
  {key : String}

section

variable (tz : TimeZone) (period : Period)

def bucketOf (candidate : RotationCandidate) : String :=
  periodKey tz candidate.createdAt period

/-- The candidate that the bucketing loop leaves in a bucket: no other candidate of the bucket is
newer, and it is the first one of its instant. -/
structure Newest (candidates : List RotationCandidate) (key : String)
    (newest : RotationCandidate) : Prop where
  mem : newest ∈ candidates
  bucket : bucketOf tz period newest = key
  le : ∀ other ∈ candidates, bucketOf tz period other = key → other.createdAt ≤ newest.createdAt
  first : candidates.find? (·.createdAt = newest.createdAt) = some newest

def buckets (candidates : List RotationCandidate) : OrderedMap String RotationCandidate :=
  candidates.foldl (bucketCandidate tz period) OrderedMap.empty

variable {tz period}

theorem bucketOf_eq (h : first.createdAt = second.createdAt) :
    bucketOf tz period first = bucketOf tz period second := by
  unfold bucketOf
  rw [h]

variable {newest : RotationCandidate}

/-- The newest candidate of a bucket stays so when an older one, or one of another bucket, comes
after it. -/
theorem Newest.append_of_le (h : Newest tz period candidates key newest)
    (candidate : RotationCandidate)
    (hle : bucketOf tz period candidate = key → candidate.createdAt ≤ newest.createdAt) :
    Newest tz period (candidates ++ [candidate]) key newest := by
  refine ⟨mem_append_left _ h.mem, h.bucket, fun other hother hkey ↦ ?_, ?_⟩
  · rcases mem_append.mp hother with hold | hnew
    · exact h.le other hold hkey
    · rw [mem_singleton.mp hnew] at hkey ⊢
      exact hle hkey
  · rw [List.find?_append, h.first]
    rfl

theorem newest_of_lt
    (hlt : ∀ other ∈ candidates, bucketOf tz period other = bucketOf tz period candidate →
      other.createdAt < candidate.createdAt) :
    Newest tz period (candidates ++ [candidate]) (bucketOf tz period candidate) candidate := by
  refine ⟨mem_append_right _ mem_cons_self, rfl, fun other hother hkey ↦ ?_, ?_⟩
  · rcases mem_append.mp hother with hold | hnew
    · exact (hlt other hold hkey).le
    · rw [mem_singleton.mp hnew]
  · have hnone : candidates.find? (·.createdAt = candidate.createdAt) = none := by
      rw [List.find?_eq_none]
      intro other hother hsame
      have hinstant : other.createdAt = candidate.createdAt := of_decide_eq_true hsame
      exact absurd hinstant (hlt other hother (bucketOf_eq hinstant)).ne
    rw [List.find?_append, hnone]
    simp

def IsBucket (tz : TimeZone) (period : Period) (candidates : List RotationCandidate) (key : String) :
    Option RotationCandidate → Prop
  | none => ∀ other ∈ candidates, bucketOf tz period other ≠ key
  | some newest => Newest tz period candidates key newest

/-- A candidate of another bucket changes nothing. -/
theorem IsBucket.append_of_ne {entry : Option RotationCandidate}
    (h : IsBucket tz period candidates key entry) (hne : bucketOf tz period candidate ≠ key) :
    IsBucket tz period (candidates ++ [candidate]) key entry := by
  cases entry with
  | none =>
    intro other hother
    rcases mem_append.mp hother with hold | hnew
    · exact h other hold
    · rw [mem_singleton.mp hnew]
      exact hne
  | some newest => exact Newest.append_of_le h candidate fun hkey ↦ absurd hkey hne

theorem isBucket_get_buckets (tz : TimeZone) (period : Period)
    (candidates : List RotationCandidate) (key : String) :
    IsBucket tz period candidates key ((buckets tz period candidates).get key) := by
  induction candidates using List.reverseRecOn generalizing key with
  | nil => exact fun _ hother ↦ absurd hother not_mem_nil
  | append_singleton candidates candidate ih =>
    have hstep : buckets tz period (candidates ++ [candidate]) =
        bucketCandidate tz period (buckets tz period candidates) candidate := by
      unfold buckets
      rw [foldl_append]
      rfl
    have hset : (∀ other ∈ candidates, bucketOf tz period other = bucketOf tz period candidate →
          other.createdAt < candidate.createdAt) →
        IsBucket tz period (candidates ++ [candidate]) key
          (((buckets tz period candidates).set (bucketOf tz period candidate) candidate).get key)
        := by
      intro hlt
      rw [OrderedMap.get_set]
      split_ifs with hkey
      · rw [hkey]
        exact newest_of_lt hlt
      · exact (ih key).append_of_ne (Ne.symm hkey)
    have hown := ih (bucketOf tz period candidate)
    rw [hstep]
    unfold bucketCandidate
    dsimp only
    rw [show periodKey tz candidate.createdAt period = bucketOf tz period candidate from rfl]
    cases hcurrent : (buckets tz period candidates).get (bucketOf tz period candidate) with
    | none =>
      rw [hcurrent] at hown
      exact hset fun other hother hbucket ↦ absurd hbucket (hown other hother)
    | some current =>
      rw [hcurrent] at hown
      dsimp only
      split_ifs with hnewer
      · exact hset fun other hother hbucket ↦ (Newest.le hown other hother hbucket).trans_lt hnewer
      · by_cases hkey : bucketOf tz period candidate = key
        · rw [← hkey, hcurrent]
          exact Newest.append_of_le hown candidate fun _ ↦ not_lt.mp hnewer
        · exact (ih key).append_of_ne hkey

theorem mem_keys_buckets_iff (candidates : List RotationCandidate) (key : String) :
    key ∈ (buckets tz period candidates).keys ↔
      ∃ candidate ∈ candidates, bucketOf tz period candidate = key := by
  have hbucket := isBucket_get_buckets tz period candidates key
  rw [OrderedMap.mem_keys_iff]
  cases hget : (buckets tz period candidates).get key with
  | none =>
    rw [hget] at hbucket
    have hnone : ∀ other ∈ candidates, bucketOf tz period other ≠ key := hbucket
    simpa using hnone
  | some newest =>
    rw [hget] at hbucket
    have hnewest : Newest tz period candidates key newest := hbucket
    simpa using ⟨newest, hnewest.mem, hnewest.bucket⟩

/-- There is only one newest candidate of a bucket, and the loop finds it. -/
theorem Newest.get_eq (h : Newest tz period candidates key newest) :
    (buckets tz period candidates).get key = some newest := by
  have hbucket := isBucket_get_buckets tz period candidates key
  cases hget : (buckets tz period candidates).get key with
  | none =>
    rw [hget] at hbucket
    exact absurd h.bucket (hbucket newest h.mem)
  | some other =>
    rw [hget] at hbucket
    have hother : Newest tz period candidates key other := hbucket
    have hinstant : other.createdAt = newest.createdAt :=
      le_antisymm (h.le other hother.mem hother.bucket) (hother.le newest h.mem h.bucket)
    rw [← hother.first, hinstant, h.first]

def keptKeys (tz : TimeZone) (period : Period) (candidates : List RotationCandidate) (count : ℕ) :
    List String :=
  (((buckets tz period candidates).keys.mergeSort (· ≤ ·)).reverse).take count

theorem mem_selectPeriodTier_iff (hids : (candidates.map (·.id)).Nodup)
    (hcandidate : candidate ∈ candidates) (count : ℤ) :
    candidate.id ∈ selectPeriodTier tz candidates period count ↔ 0 < count ∧
      bucketOf tz period candidate ∈ keptKeys tz period candidates count.toNat ∧
      Newest tz period candidates (bucketOf tz period candidate) candidate := by
  unfold selectPeriodTier
  split_ifs with hcount
  · simp [not_lt.mpr hcount]
  · rw [mem_addIds_iff, mem_candidateIds_iff]
    constructor
    · intro hchosen
      obtain ⟨other, hother, hid⟩ := hchosen.resolve_left (Finset.notMem_empty _)
      obtain ⟨key, hkey, hget⟩ := mem_filterMap.mp hother
      have hbucket := isBucket_get_buckets tz period candidates key
      rw [show (buckets tz period candidates).get key = some other from hget] at hbucket
      have hnewest : Newest tz period candidates key other := hbucket
      rw [← inj_on_of_nodup_map hids hnewest.mem hcandidate hid, hnewest.bucket]
      exact ⟨not_le.mp hcount, hkey, hnewest⟩
    · rintro ⟨-, hkey, hnewest⟩
      exact .inr ⟨candidate, mem_filterMap.mpr ⟨_, hkey, hnewest.get_eq⟩, rfl⟩

end

/-! ### The tiers on the survivors -/

def recentOf (candidates : List RotationCandidate) (policy : RetentionPolicy) :
    List RotationCandidate :=
  (byNewest candidates).take (max 0 policy.keepLast).toNat

/-- The number of buckets that a policy keeps of a period. -/
def RetentionPolicy.tierCount (policy : RetentionPolicy) : Period → ℤ
  | .day => policy.daily
  | .week => policy.weekly
  | .month => policy.monthly
  | .year => policy.yearly

theorem mem_selectKeep_iff (tz : TimeZone) (candidates : List RotationCandidate)
    (policy : RetentionPolicy) (id : String) :
    id ∈ selectKeep tz candidates policy ↔ id ∈ candidateIds (recentOf candidates policy) ∨
      ∃ period, id ∈ selectPeriodTier tz candidates period (policy.tierCount period) := by
  have hrecent : id ∈ addIds ∅ (recentOf candidates policy) ↔
      id ∈ candidateIds (recentOf candidates policy) := by
    rw [mem_addIds_iff]
    exact or_iff_right (Finset.notMem_empty id)
  unfold selectKeep
  simp only [Finset.mem_union, or_assoc]
  refine or_congr hrecent ⟨fun htier ↦ ?_, fun ⟨period, htier⟩ ↦ ?_⟩
  · rcases htier with hday | hweek | hmonth | hyear
    · exact ⟨.day, hday⟩
    · exact ⟨.week, hweek⟩
    · exact ⟨.month, hmonth⟩
    · exact ⟨.year, hyear⟩
  · cases period with
    | day => exact .inl htier
    | week => exact .inr (.inl htier)
    | month => exact .inr (.inr (.inl htier))
    | year => exact .inr (.inr (.inr htier))

theorem mem_candidateIds_of_sublist {chosen : List RotationCandidate}
    (hids : (candidates.map (·.id)).Nodup) (hchosen : ∀ other ∈ chosen, other ∈ candidates)
    (hcandidate : candidate ∈ candidates) :
    candidate.id ∈ candidateIds chosen ↔ candidate ∈ chosen := by
  rw [mem_candidateIds_iff]
  refine ⟨fun ⟨other, hother, hid⟩ ↦ ?_, fun hmem ↦ ⟨candidate, hmem, rfl⟩⟩
  rw [← inj_on_of_nodup_map hids (hchosen other hother) hcandidate hid]
  exact hother

variable {policy : RetentionPolicy}

theorem mem_of_mem_recentOf (h : candidate ∈ recentOf candidates policy) : candidate ∈ candidates :=
  mem_mergeSort.mp (mem_of_mem_take h)

theorem pairwise_byNewest (candidates : List RotationCandidate) :
    (byNewest candidates).Pairwise fun first second ↦ second.createdAt ≤ first.createdAt := by
  refine (pairwise_mergeSort (fun a b c hab hbc ↦ ?_) (fun a b ↦ ?_) candidates).imp
    fun h ↦ of_decide_eq_true h
  · exact decide_eq_true ((of_decide_eq_true hbc).trans (of_decide_eq_true hab))
  · simpa using le_total b.createdAt a.createdAt

/-- The recent tier keeps what is newer than a candidate that it keeps. -/
theorem mem_recentOf_of_lt {other : RotationCandidate}
    (hcandidate : candidate ∈ recentOf candidates policy) (hother : other ∈ candidates)
    (hnewer : candidate.createdAt < other.createdAt) : other ∈ recentOf candidates policy :=
  mem_take_of_not_rel (pairwise_byNewest candidates) hcandidate (mem_mergeSort.mpr hother)
    (not_le.mpr hnewer)

/-- The recent tier keeps the first candidate of an instant if it keeps one of them. -/
theorem mem_recentOf_of_first (hnodup : candidates.Nodup)
    (hcandidate : candidate ∈ recentOf candidates policy)
    (hinstant : first.createdAt = candidate.createdAt)
    (hfirst : candidates.find? (·.createdAt = first.createdAt) = some first) :
    first ∈ recentOf candidates policy := by
  by_cases hsame : candidate = first
  · rw [← hsame]
    exact hcandidate
  · obtain ⟨-, before, after, hsplit, hbefore⟩ := List.find?_eq_some_iff_append.mp hfirst
    have hpair : [first, candidate].Sublist candidates := by
      have hmem := mem_of_mem_recentOf hcandidate
      rw [hsplit] at hmem ⊢
      rcases mem_append.mp hmem with hold | hrest
      · have hother := hbefore candidate hold
        rw [decide_eq_true hinstant.symm] at hother
        exact absurd hother Bool.false_ne_true
      · have hafter := (mem_cons.mp hrest).resolve_left hsame
        exact List.Sublist.trans ((singleton_sublist.mpr hafter).cons_cons first)
          (sublist_append_right _ _)
    refine mem_take_of_stable (fun a b c hab hbc ↦ ?_) (fun a b ↦ ?_) hnodup
      (decide_eq_true hinstant.ge) hpair hcandidate
    · exact decide_eq_true ((of_decide_eq_true hbc).trans (of_decide_eq_true hab))
    · simpa using le_total b.createdAt a.createdAt

section

variable {tz : TimeZone} {policy : RetentionPolicy} {candidates survivors : List RotationCandidate}
  (hids : (candidates.map (·.id)).Nodup)
include hids

/-- Survivors of the same instant are all kept by the recent tier. Assumes: every survivor is kept
by a tier. -/
theorem mem_recentOf_of_tied (hsubset : ∀ candidate ∈ survivors, candidate ∈ candidates)
    (hkept : ∀ candidate ∈ survivors, candidate.id ∈ selectKeep tz candidates policy)
    (hfirst : first ∈ survivors) (hsecond : second ∈ survivors)
    (hinstant : first.createdAt = second.createdAt) (hne : first ≠ second) :
    first ∈ recentOf candidates policy := by
  have htier : ∀ candidate ∈ survivors, candidate ∈ recentOf candidates policy ∨
      candidates.find? (·.createdAt = candidate.createdAt) = some candidate := by
    intro candidate hcandidate
    have hmem := hsubset candidate hcandidate
    refine ((mem_selectKeep_iff tz candidates policy candidate.id).mp
      (hkept candidate hcandidate)).imp (fun hrecent ↦ ?_) fun ⟨period, hselected⟩ ↦ ?_
    · exact (mem_candidateIds_of_sublist hids (fun _ ↦ mem_of_mem_recentOf) hmem).mp hrecent
    · exact ((mem_selectPeriodTier_iff hids hmem _).mp hselected).2.2.first
  rcases htier first hfirst with hrecent | hfound
  · exact hrecent
  · rcases htier second hsecond with hrecent | hother
    · exact mem_recentOf_of_first hids.of_map hrecent hinstant hfound
    · rw [hinstant, hother] at hfound
      exact absurd (Option.some.inj hfound).symm hne

/-- What the tiers have kept they keep again. Assumes: distinct candidate ids. -/
theorem mem_selectKeep_survivors (hnodup : (survivors.map (·.id)).Nodup)
    (hsubset : ∀ candidate ∈ survivors, candidate ∈ candidates)
    (hkept : ∀ candidate ∈ survivors, candidate.id ∈ selectKeep tz candidates policy)
    (hcandidate : candidate ∈ survivors) : candidate.id ∈ selectKeep tz survivors policy := by
  have hmem := hsubset candidate hcandidate
  rw [mem_selectKeep_iff]
  by_cases hrecent : candidate ∈ recentOf candidates policy
  · refine .inl ((mem_candidateIds_of_sublist hnodup (fun _ ↦ mem_of_mem_recentOf)
      hcandidate).mpr ?_)
    refine mem_take_of_countP_le (pairwise_byNewest survivors) (mem_mergeSort.mpr hcandidate)
      (fun other ↦ decide (candidate.createdAt ≤ other.createdAt)) (decide_eq_true le_rfl)
      (fun other hother ↦ decide_eq_true hother) ?_
    refine countP_le_of_mem_take (byNewest candidates)
      ((mergeSort_perm _ _).nodup_iff.mpr hnodup.of_map) fun other hother hle ↦ ?_
    have hsurvivor : other ∈ survivors := mem_mergeSort.mp hother
    rcases (of_decide_eq_true hle).eq_or_lt with hinstant | hnewer
    · by_cases hsame : other = candidate
      · rw [hsame]
        exact hrecent
      · exact mem_recentOf_of_tied hids hsubset hkept hsurvivor hcandidate hinstant.symm hsame
    · exact mem_recentOf_of_lt hrecent (hsubset other hsurvivor) hnewer
  · obtain ⟨period, hselected⟩ := ((mem_selectKeep_iff tz candidates policy candidate.id).mp
      (hkept candidate hcandidate)).resolve_left fun h ↦ hrecent
        ((mem_candidateIds_of_sublist hids (fun _ ↦ mem_of_mem_recentOf) hmem).mp h)
    obtain ⟨hcount, hkey, hnewest⟩ := (mem_selectPeriodTier_iff hids hmem _).mp hselected
    refine .inr ⟨period, (mem_selectPeriodTier_iff hnodup hcandidate _).mpr ⟨hcount, ?_, ?_⟩⟩
    · refine mem_take_sorted_of_subset (fun a b c hab hbc ↦ ?_) (fun a b ↦ ?_)
        (fun a b hab hba ↦ ?_)
        (OrderedMap.keys_nodup _) (fun key hold ↦ ?_) ?_ hkey
      · exact decide_eq_true (String.le_trans (of_decide_eq_true hab) (of_decide_eq_true hbc))
      · simpa using String.le_total a b
      · exact String.le_antisymm (of_decide_eq_true hab) (of_decide_eq_true hba)
      · obtain ⟨other, hother, hbucket⟩ := (mem_keys_buckets_iff survivors key).mp hold
        exact (mem_keys_buckets_iff candidates key).mpr ⟨other, hsubset other hother, hbucket⟩
      · exact (mem_keys_buckets_iff survivors _).mpr ⟨candidate, hcandidate, rfl⟩
    · refine ⟨hcandidate, rfl, fun other hother ↦ hnewest.le other (hsubset other hother), ?_⟩
      cases hfound : survivors.find? (·.createdAt = candidate.createdAt) with
      | none =>
        exact absurd (decide_eq_true rfl) (List.find?_eq_none.mp hfound candidate hcandidate)
      | some other =>
        have hinstant : other.createdAt = candidate.createdAt := by
          simpa using List.find?_some hfound
        by_contra hne
        refine hrecent (mem_recentOf_of_tied hids hsubset hkept hcandidate
          (mem_of_find?_eq_some hfound) hinstant.symm fun hsame ↦ hne ?_)
        rw [hsame]

end

variable {exemptSuccessfulCount : ℕ} {minFloor : ℤ} {keep : Finset String}

theorem fillFloor_of_le (hreached : minFloor ≤ exemptSuccessfulCount + keep.card)
    (candidates : List RotationCandidate) :
    fillFloor exemptSuccessfulCount minFloor candidates keep = keep := by
  cases candidates with
  | nil => rfl
  | cons candidate rest => rw [fillFloor, if_pos hreached]

/-- The floor loop does not go past the floor. -/
theorem card_fillFloor_le (exemptSuccessfulCount : ℕ) (candidates : List RotationCandidate)
    (hbelow : exemptSuccessfulCount + (keep.card : ℤ) ≤ minFloor) : exemptSuccessfulCount +
      ((fillFloor exemptSuccessfulCount minFloor candidates keep).card : ℤ) ≤ minFloor := by
  induction candidates generalizing keep with
  | nil => exact hbelow
  | cons candidate rest ih =>
    rw [fillFloor]
    split_ifs with hreached
    · exact hbelow
    · have hcard := Finset.card_insert_le candidate.id keep
      exact ih (by omega)

/-- The cap evicts nothing if the sizes fit, the floor protects every candidate, or none is kept. -/
theorem applySizeCap_eq_self (hids : (candidates.map (·.id)).Nodup) {keepIds : Finset String}
    (hsubset : keepIds ⊆ candidateIds candidates) {exemptSize : ℤ} {maxTotalBytes : Option ℤ}
    (hstop : ∀ cap, maxTotalBytes = some cap →
      exemptSize + keptSize candidates keepIds ≤ cap ∨
        exemptSuccessfulCount + ((keepIds.card : ℤ) - 1) < minFloor ∨ keepIds = ∅) :
    (applySizeCap candidates keepIds exemptSize exemptSuccessfulCount minFloor
      maxTotalBytes).keep = keepIds := by
  cases maxTotalBytes with
  | none => rfl
  | some cap =>
    show (evictVictims exemptSuccessfulCount minFloor cap
      (byOldest (candidates.filter (·.id ∈ keepIds))) keepIds
      (exemptSize + ∑ id ∈ keepIds, sizeOfId candidates id)).1 = keepIds
    rw [sum_sizeOfId hids hsubset]
    cases hvictims : byOldest (candidates.filter (·.id ∈ keepIds)) with
    | nil => rfl
    | cons victim rest =>
      rw [evictVictims]
      split_ifs with hfits hprotected
      · rfl
      · rfl
      · have hmem : victim ∈ byOldest (candidates.filter (·.id ∈ keepIds)) := by
          rw [hvictims]
          exact mem_cons_self
        rw [byOldest, mem_mergeSort, mem_filter, decide_eq_true_eq] at hmem
        have hkept := hmem.2
        rcases hstop cap rfl with h | h | h
        · exact absurd h hfits
        · exact absurd h hprotected
        · rw [h] at hkept
          exact absurd hkept (Finset.notMem_empty _)

/-! ### The second rotation -/

section

variable {candidates survivors : List RotationCandidate} {keep : Finset String}

theorem candidateIds_survivors (hsubset : keep ⊆ candidateIds candidates)
    (hsurvivors : survivors.Perm (candidates.filter (·.id ∈ keep))) :
    candidateIds survivors = keep := by
  ext id
  rw [mem_candidateIds_iff]
  constructor
  · rintro ⟨candidate, hcandidate, hid⟩
    rw [← hid]
    simpa using (mem_filter.mp (hsurvivors.mem_iff.mp hcandidate)).2
  · intro hid
    obtain ⟨candidate, hcandidate, hsame⟩ := (mem_candidateIds_iff _ _).mp (hsubset hid)
    refine ⟨candidate, hsurvivors.mem_iff.mpr (mem_filter.mpr ⟨hcandidate, ?_⟩), hsame⟩
    rw [hsame]
    exact decide_eq_true hid

theorem keptSize_survivors (hsurvivors : survivors.Perm (candidates.filter (·.id ∈ keep))) :
    keptSize survivors (candidateIds survivors) = keptSize candidates keep := by
  have hall : survivors.filter (·.id ∈ candidateIds survivors) =
      survivors := filter_eq_self.mpr fun candidate hcandidate ↦
    decide_eq_true ((mem_candidateIds_iff _ _).mpr ⟨candidate, hcandidate, rfl⟩)
  unfold keptSize
  rw [hall]
  exact (hsurvivors.map _).sum_eq

/-- The tiers and the floor keep every survivor again. Assumes: distinct candidate ids, and that the
first rotation has kept what the tiers and the floor have kept if it had to go up to the floor. -/
theorem applyFloor_survivors (tz : TimeZone) (policy : RetentionPolicy)
    (hids : (candidates.map (·.id)).Nodup)
    (hkeep : keep ⊆ applyFloor candidates (selectKeep tz candidates policy) exemptSuccessfulCount
      policy.minFloor)
    (hsurvivors : survivors.Perm (candidates.filter (·.id ∈ keep))) :
    applyFloor survivors (selectKeep tz survivors policy) exemptSuccessfulCount policy.minFloor =
      candidateIds survivors := by
  have hnodup : (survivors.map (·.id)).Nodup := by
    rw [(hsurvivors.map _).nodup_iff]
    exact hids.sublist (filter_sublist.map _)
  obtain ⟨hbound, -⟩ := applyFloor_spec hids (selectKeep_subset tz candidates policy)
    exemptSuccessfulCount policy.minFloor
  obtain ⟨hsubset, hfloor⟩ := applyFloor_spec hnodup (selectKeep_subset tz survivors policy)
    exemptSuccessfulCount policy.minFloor
  have hkept := candidateIds_survivors (hkeep.trans hbound) hsurvivors
  by_cases hreached : policy.minFloor ≤
      exemptSuccessfulCount + (selectKeep tz candidates policy).card
  · -- the floor has added nothing, so a tier has kept each survivor
    refine Finset.Subset.antisymm hsubset fun id hid ↦ (fillFloor_spec _ _ _ _).1 ?_
    obtain ⟨candidate, hcandidate, hsame⟩ := (mem_candidateIds_iff _ _).mp hid
    rw [← hsame]
    refine mem_selectKeep_survivors hids hnodup (fun other hother ↦ ?_) (fun other hother ↦ ?_)
      hcandidate
    · exact mem_of_mem_filter (hsurvivors.mem_iff.mp hother)
    · unfold applyFloor at hkeep
      rw [fillFloor_of_le hreached] at hkeep
      exact hkeep (hkept ▸ (mem_candidateIds_iff _ _).mpr ⟨other, hother, rfl⟩)
  · -- there are at most as many survivors as the floor asks for
    have hfilled := card_fillFloor_le exemptSuccessfulCount (byNewest candidates)
      (not_le.mp hreached).le
    have hcard := Finset.card_le_card hkeep
    rw [← hkept, card_candidateIds hnodup] at hcard
    refine Finset.eq_of_subset_of_card_le hsubset ?_
    rw [card_candidateIds hnodup]
    unfold applyFloor at hcard hfloor ⊢
    omega

end

/-- A second rotation keeps every candidate that survived the first one. Assumes: distinct candidate
ids. The survivors may be listed in any order. -/
theorem keep_retain_survivors (tz : TimeZone) (policy : RetentionPolicy)
    (candidates survivors : List RotationCandidate) (hids : (candidates.map (·.id)).Nodup)
    (exemptSuccessfulCount : ℕ) (exemptSize : ℤ)
    (hsurvivors : survivors.Perm (candidates.filter fun candidate ↦
      candidate.id ∈ (retain tz policy candidates exemptSuccessfulCount exemptSize).keep)) :
    (retain tz policy survivors exemptSuccessfulCount exemptSize).keep =
      candidateIds survivors := by
  obtain ⟨hfilled, -⟩ := applyFloor_spec hids (selectKeep_subset tz candidates policy)
    exemptSuccessfulCount policy.minFloor
  obtain ⟨hevicted, -, hfits, hprotected⟩ := applySizeCap_spec hids hfilled exemptSize
    exemptSuccessfulCount policy.minFloor policy.maxTotalBytes
    (retain tz policy candidates exemptSuccessfulCount exemptSize) rfl
  have hkept := candidateIds_survivors (hevicted.trans hfilled) hsurvivors
  have hnodup : (survivors.map (·.id)).Nodup := by
    rw [(hsurvivors.map _).nodup_iff]
    exact hids.sublist (filter_sublist.map _)
  show (applySizeCap survivors (applyFloor survivors (selectKeep tz survivors policy)
    exemptSuccessfulCount policy.minFloor) exemptSize exemptSuccessfulCount policy.minFloor
    policy.maxTotalBytes).keep = candidateIds survivors
  rw [applyFloor_survivors tz policy hids hevicted hsurvivors]
  refine applySizeCap_eq_self hnodup (Finset.Subset.refl _) fun cap hcap ↦ ?_
  rw [keptSize_survivors hsurvivors, hkept]
  cases hunreachable :
      (retain tz policy candidates exemptSuccessfulCount exemptSize).cappedButUnreachable with
  | false => exact .inl (hfits cap hcap hunreachable)
  | true =>
    refine .inr ?_
    rcases Finset.eq_empty_or_nonempty
      (retain tz policy candidates exemptSuccessfulCount exemptSize).keep with hempty | hnonempty
    · exact .inr hempty
    · obtain ⟨victim, hvictim⟩ := hnonempty
      have hfloor := hprotected hunreachable victim hvictim
      have hpositive := Finset.card_pos.mpr ⟨victim, hvictim⟩
      rw [Finset.card_erase_of_mem hvictim] at hfloor
      omega

/-- Three backups on a policy that keeps two, two of them of one instant. -/
theorem keep_retain_survivors_three_backups :
    (retain (fun _ ↦ ⟨2026, 6, 22⟩) ⟨2, 1, 0, 0, 0, 1, some 20⟩
        ([⟨"first", 0, 8⟩, ⟨"second", 0, 8⟩, ⟨"third", 1, 9⟩].filter fun candidate ↦
          candidate.id ∈ (retain (fun _ ↦ ⟨2026, 6, 22⟩) ⟨2, 1, 0, 0, 0, 1, some 20⟩
            [⟨"first", 0, 8⟩, ⟨"second", 0, 8⟩, ⟨"third", 1, 9⟩] 0 0).keep) 0 0).keep =
      candidateIds ([⟨"first", 0, 8⟩, ⟨"second", 0, 8⟩, ⟨"third", 1, 9⟩].filter fun candidate ↦
        candidate.id ∈ (retain (fun _ ↦ ⟨2026, 6, 22⟩) ⟨2, 1, 0, 0, 0, 1, some 20⟩
          [⟨"first", 0, 8⟩, ⟨"second", 0, 8⟩, ⟨"third", 1, 9⟩] 0 0).keep) :=
  keep_retain_survivors _ _ _ _ (by decide) 0 0 (List.Perm.refl _)

theorem candidateIds_mono {part all : List RotationCandidate} (h : part ⊆ all) :
    candidateIds part ⊆ candidateIds all := fun id hid ↦ by
  rw [mem_candidateIds_iff] at hid ⊢
  exact hid.imp fun _ hboth ↦ ⟨h hboth.1, hboth.2⟩

/-- A policy with larger counts selects all that one with smaller counts does. -/
theorem selectKeep_mono (tz : TimeZone) (candidates : List RotationCandidate)
    {policy larger : RetentionPolicy} (hlast : policy.keepLast ≤ larger.keepLast)
    (htiers : ∀ period, policy.tierCount period ≤ larger.tierCount period) :
    selectKeep tz candidates policy ⊆ selectKeep tz candidates larger := by
  intro id hid
  rw [mem_selectKeep_iff] at hid ⊢
  refine hid.imp (fun h ↦ ?_) fun ⟨period, h⟩ ↦ ⟨period, ?_⟩
  · exact candidateIds_mono (take_subset_take_left _ (by omega)) h
  · have hcount := htiers period
    unfold selectPeriodTier at h ⊢
    split_ifs at h with hnone
    · exact absurd h (Finset.notMem_empty id)
    · rw [if_neg (by omega)]
      simp only [mem_addIds_iff] at h ⊢
      exact h.imp_right (candidateIds_mono (filterMap_subset _
        (take_subset_take_left _ (Int.toNat_le_toNat hcount))) ·)

theorem selectKeep_mono_daily :
    selectKeep (fun _ ↦ ⟨2026, 6, 22⟩) [⟨"first", 0, 8⟩, ⟨"second", 1, 8⟩] ⟨0, 1, 0, 0, 0, 1, none⟩ ⊆
      selectKeep (fun _ ↦ ⟨2026, 6, 22⟩) [⟨"first", 0, 8⟩, ⟨"second", 1, 8⟩]
        ⟨2, 1, 0, 0, 0, 1, none⟩ :=
  selectKeep_mono _ _ (by decide) (by rintro ⟨⟩ <;> decide)

end Bridgeport.Backup
