import Bridgeport.Backup.TierSelection
import Bridgeport.Foundation.PathIndependence

/-!
# Rotating early and often

Backups of any databases complete, and rotations take place in between, some of whose deletions
fail. What the tiers of a database select among the backups that are left is what they select among
all backups that it ever had (`selectKeep_afterEvents`), so none of these has been pruned: a tier is
a path-independent choice. The floor only keeps more. The cap is another matter, which prunes what
the tiers select.
-/

namespace Bridgeport.Backup

open Foundation List

deriving instance DecidableEq for RotationCandidate

/-- A backup completes, or a database is rotated; `deleted` says which deletions succeed. -/
inductive BackupEvent
  | completed (row : DatabaseBackup)
  | rotated (databaseId : String) (deleted : String → Bool)

variable (tz : TimeZone) (policyOf : String → RetentionPolicy) (rows : List DatabaseBackup)

/-- The completed backups after an event. -/
def applyEvent : BackupEvent → List DatabaseBackup
  | .completed row => rows ++ [row]
  | .rotated databaseId deleted => rows.filter fun row ↦
      ¬ (row.id ∈ (planRotation tz (policyOf databaseId) rows databaseId).prune ∧ deleted row.id)

variable (events : List BackupEvent)

def afterEvents : List DatabaseBackup :=
  events.foldl (applyEvent tz policyOf) []

/-- Every backup that has completed. -/
def everCompleted : List DatabaseBackup :=
  events.filterMap fun
    | .completed row => some row
    | .rotated _ _ => none

/-- The candidates of a database in the order of the rows. -/
def listedOf (databaseId : String) : List RotationCandidate :=
  (rows.filter fun row ↦ row.databaseId = databaseId ∧ row.status = .completed ∧
    row.type = .scheduled ∧ ¬ row.isPinned).map (·.toRotationCandidate)

section

variable {part all : List RotationCandidate} {first second : RotationCandidate}

/-- Whether a candidate precedes another one can be read off any list that lists the tied ones in
the same order. -/
theorem precedes_iff (hpart : (part.map (·.id)).Nodup) (hall : (all.map (·.id)).Nodup)
    (hlisted : ∀ first second, first.createdAt = second.createdAt →
      [first, second].Sublist part → [first, second].Sublist all)
    (hfirst : first ∈ part) (hsecond : second ∈ part) :
    Precedes part first second ↔ Precedes all first second := by
  by_cases htied : first.createdAt = second.createdAt
  · rcases eq_or_ne first second with rfl | hne
    · exact iff_of_false (fun h ↦ h.asymm hpart h) fun h ↦ h.asymm hall h
    · rcases pair_sublist_or hne hfirst hsecond with hpair | hpair
      · exact iff_of_true (.inr ⟨htied, hpair.map _⟩)
          (.inr ⟨htied, (hlisted _ _ htied hpair).map _⟩)
      · exact iff_of_false (Precedes.asymm hpart (.inr ⟨htied.symm, hpair.map _⟩))
          (Precedes.asymm hall (.inr ⟨htied.symm, (hlisted _ _ htied.symm hpair).map _⟩))
  · exact or_congr_right (iff_of_false (fun h ↦ htied h.1) fun h ↦ htied h.1)

/-- Precedence by a list of distinct ids is a strict order. -/
theorem isStrictOrder_precedes (hids : (all.map (·.id)).Nodup) :
    IsStrictOrder RotationCandidate (Precedes all) where
  irrefl _ h := h.asymm hids h
  trans first second third := by
    rintro (hnewer | ⟨htied, hlisted⟩) (hnewer' | ⟨htied', hlisted'⟩)
    · exact .inl (hnewer'.trans hnewer)
    · exact .inl (htied' ▸ hnewer)
    · exact .inl (htied ▸ hnewer')
    · refine .inr ⟨htied.trans htied', ?_⟩
      obtain ⟨left, right, hsplit⟩ := append_of_mem (hlisted'.subset mem_cons_self)
      rw [hsplit] at hids hlisted hlisted' ⊢
      have hleft := (pair_sublist_append_cons_iff hids).mp hlisted
      have hright := (pair_sublist_append_cons_iff' hids).mp hlisted'
      exact (singleton_sublist.mpr hleft).append ((singleton_sublist.mpr hright).cons _)

/-! ### The tiers as a choice -/

/-- What a tier selects: the recent tier, in which each candidate is a bucket, or that of a
period. -/
def tierOf (all : List RotationCandidate) (policy : RetentionPolicy) :
    Option Period → Finset RotationCandidate → Set RotationCandidate
  | none => tier (Precedes all) (Precedes all) id policy.keepLast
  | some period => tier (Precedes all) (· > ·) (startOf tz period) (policy.tierCount period)

def chosenOf (all : List RotationCandidate) (policy : RetentionPolicy)
    (candidates : Finset RotationCandidate) : Set RotationCandidate :=
  ⋃ period, tierOf tz all policy period candidates

theorem pathIndependent_chosenOf (hids : (all.map (·.id)).Nodup) (policy : RetentionPolicy) :
    PathIndependent (chosenOf tz all policy) := by
  have := isStrictOrder_precedes hids
  refine PathIndependent.iUnion (fun period ↦ ?_)
  cases period with
  | none =>
    unfold tierOf
    exact pathIndependent_tier
  | some period =>
    unfold tierOf
    exact pathIndependent_tier

variable {tz} (hids : (all.map (·.id)).Nodup) (hpart : part.Sublist all)
  {candidate : RotationCandidate} (hcandidate : candidate ∈ part)
include hids hpart

theorem precedes_byNewest_iff (hfirst : first ∈ part) (hsecond : second ∈ part) :
    Precedes (byNewest part) first second ↔ Precedes all first second := by
  have hnodup := hids.sublist (hpart.map _)
  rw [← precedes_iff hnodup hids (fun _ _ _ h ↦ h.trans hpart) hfirst hsecond]
  refine (precedes_iff hnodup (((mergeSort_perm _ _).map _).nodup_iff.mpr hnodup)
    (fun a b htied hpair ↦ ?_) hfirst hsecond).symm
  refine pair_sublist_mergeSort (fun _ _ _ hfirst hsecond ↦ decide_eq_true
    ((of_decide_eq_true hsecond).trans (of_decide_eq_true hfirst))) (fun a b ↦ ?_)
    (decide_eq_true htied.ge) hpair
  simpa using le_total b.createdAt a.createdAt

include hcandidate

theorem amongNewest_iff (count : ℤ) : AmongNewest (byNewest part) count candidate ↔
    candidate ∈ tier (Precedes all) (Precedes all) id count part.toFinset := by
  have hearlier : ((byNewest part).filter fun other ↦
      Precedes (byNewest part) other candidate).toFinset =
        (part.toFinset.image id).filter (Precedes all · candidate) := by
    ext other
    rw [Finset.image_id, Finset.mem_filter, mem_toFinset, mem_toFinset, mem_filter,
      decide_eq_true_eq, byNewest, mem_mergeSort]
    exact and_congr_right fun hother ↦ precedes_byNewest_iff hids hpart hother hcandidate
  have hnodup : (byNewest part).Nodup :=
    (mergeSort_perm _ _).nodup_iff.mpr (hids.sublist (hpart.map _)).of_map
  unfold AmongNewest
  rw [← toFinset_card_of_nodup (hnodup.filter _), hearlier]
  refine ⟨fun h ↦ ⟨mem_toFinset.mpr hcandidate, fun other _ hsame ↦ ?_, h⟩, fun h ↦ h.2.2⟩
  exact (show other = candidate from hsame) ▸ fun h ↦ h.asymm hids h

theorem selectedFor_iff (period : Period) (count : ℤ) :
    SelectedFor tz (byNewest part) period count candidate ↔
      candidate ∈ tier (Precedes all) (· > ·) (startOf tz period) count part.toFinset := by
  have hlater : laterBuckets tz period (byNewest part) candidate =
      (part.toFinset.image (startOf tz period)).filter (· > startOf tz period candidate) := by
    ext start
    simp [laterBuckets, byNewest]
  constructor
  · rintro ⟨hnewest, hrecent⟩
    refine ⟨mem_toFinset.mpr hcandidate, fun other hother hsame ↦ ?_, hlater ▸ hrecent⟩
    rw [← precedes_byNewest_iff hids hpart (mem_toFinset.mp hother) hcandidate]
    exact hnewest other (mem_mergeSort.mpr (mem_toFinset.mp hother)) hsame
  · rintro ⟨-, hnewest, hrecent⟩
    refine ⟨fun other hother hsame ↦ ?_, hlater ▸ hrecent⟩
    rw [precedes_byNewest_iff hids hpart (mem_mergeSort.mp hother) hcandidate]
    exact hnewest other (mem_toFinset.mpr (mem_mergeSort.mp hother)) hsame

omit hcandidate in
/-- The tiers of `selectKeep`, as a choice that knows nothing of the other candidates. -/
theorem mem_selectKeep_iff_chosen (hdated : Dated tz all) (policy : RetentionPolicy) (id : String) :
    id ∈ selectKeep tz (byNewest part) policy ↔
      ∃ candidate ∈ chosenOf tz all policy part.toFinset, candidate.id = id := by
  have hsubset : ∀ other ∈ byNewest part, other ∈ all :=
    fun other hother ↦ hpart.subset (mem_mergeSort.mp hother)
  have hsorted : Dated tz (byNewest part) :=
    ⟨fun other hother ↦ hdated.valid other (hsubset other hother),
      fun other hother ↦ hdated.fourDigits other (hsubset other hother)⟩
  have hnodup : ((byNewest part).map (·.id)).Nodup :=
    ((mergeSort_perm _ _).map _).nodup_iff.mpr (hids.sublist (hpart.map _))
  have hchosen : ∀ candidate ∈ part, candidate.id ∈ selectKeep tz (byNewest part) policy ↔
      candidate ∈ chosenOf tz all policy part.toFinset := by
    intro candidate hcandidate
    rw [hsorted.id_mem_selectKeep_iff hnodup policy (mem_mergeSort.mpr hcandidate)]
    unfold chosenOf Selected
    rw [Set.mem_iUnion, Option.exists]
    refine or_congr (amongNewest_iff hids hpart hcandidate _) (exists_congr fun period ↦ ?_)
    exact selectedFor_iff hids hpart hcandidate period _
  constructor
  · intro hid
    obtain ⟨candidate, hcandidate, rfl⟩ :=
      (mem_candidateIds_iff _ _).mp (selectKeep_subset tz _ _ hid)
    exact ⟨candidate, (hchosen candidate (mem_mergeSort.mp hcandidate)).mp hid, rfl⟩
  · rintro ⟨candidate, hmem, rfl⟩
    exact (hchosen candidate (mem_toFinset.mp
      ((pathIndependent_chosenOf tz hids policy).mem hmem))).mpr hmem

end

variable {policyOf : String → RetentionPolicy} {databaseId : String}

theorem afterEvents_sublist : (afterEvents tz policyOf events).Sublist (everCompleted events) := by
  induction events using List.reverseRecOn with
  | nil => exact Sublist.slnil
  | append_singleton events event ih =>
    unfold afterEvents everCompleted at ih ⊢
    rw [foldl_append, filterMap_append]
    cases event with
    | completed row => exact ih.append_right [row]
    | rotated databaseId deleted =>
      exact (filter_sublist.trans ih).trans (sublist_append_left _ _)

variable {candidate : RotationCandidate}

theorem mem_listedOf_iff {rows : List DatabaseBackup} :
    candidate ∈ listedOf rows databaseId ↔ ∃ row ∈ rows, (row.databaseId = databaseId ∧
      row.status = .completed ∧ row.type = .scheduled ∧ ¬ row.isPinned) ∧
        row.toRotationCandidate = candidate := by
  simp [listedOf, and_assoc]

theorem nodup_listedOf {rows : List DatabaseBackup} (hids : (rows.map (·.id)).Nodup)
    (databaseId : String) : ((listedOf rows databaseId).map (·.id)).Nodup := by
  unfold listedOf
  rw [map_map]
  exact hids.sublist (filter_sublist.map _)

theorem toFinset_listedOf_concat (row : DatabaseBackup) :
    (listedOf (rows ++ [row]) databaseId).toFinset =
      (listedOf [row] databaseId).toFinset ∪ (listedOf rows databaseId).toFinset := by
  unfold listedOf
  rw [filter_append, map_append, toFinset_append, Finset.union_comm]

/-- A rotation without a cap deletes no row that the tiers of its database select. -/
theorem mem_listedOf_rotated {rows : List DatabaseBackup} (hids : (rows.map (·.id)).Nodup)
    (hcap : (policyOf databaseId).maxTotalBytes = none) (rotatedId : String)
    (deleted : String → Bool) (hcandidate : candidate ∈ listedOf rows databaseId)
    (hselected : candidate.id ∈
      selectKeep tz (candidatesOf rows databaseId) (policyOf databaseId)) :
    candidate ∈ listedOf (applyEvent tz policyOf rows (.rotated rotatedId deleted)) databaseId := by
  obtain ⟨row, hrow, hmatches, rfl⟩ := mem_listedOf_iff.mp hcandidate
  refine mem_listedOf_iff.mpr ⟨row, mem_filter.mpr ⟨hrow, decide_eq_true ?_⟩, hmatches, rfl⟩
  rintro ⟨hpruned, -⟩
  obtain ⟨pruned, hpruned, hsame⟩ := mem_map.mp hpruned
  obtain ⟨hpruned, hdropped⟩ := mem_filter.mp hpruned
  obtain ⟨other, hother, hothers, rfl⟩ := mem_listedOf_iff.mp
    (mem_mergeSort.mp hpruned : pruned ∈ listedOf rows rotatedId)
  have hrow : other = row := inj_on_of_nodup_map hids hother hrow hsame
  subst hrow
  -- the rotated database is that of the row, whose selection the floor and the absent cap keep
  have hrotated : rotatedId = databaseId := hothers.1.symm.trans hmatches.1
  subst hrotated
  refine of_decide_eq_true hdropped ?_
  unfold retain applySizeCap
  rw [hcap]
  exact (fillFloor_spec _ _ _ _).1 hselected

/-- At any time the backups that are left of a database have all that its tiers select among those
that have completed. -/
theorem covers_afterEvents {total : List DatabaseBackup} (hids : (total.map (·.id)).Nodup)
    (hdated : Dated tz (listedOf total databaseId))
    (hcap : (policyOf databaseId).maxTotalBytes = none) (events : List BackupEvent)
    (htotal : (everCompleted events).Sublist total) :
    Covers (chosenOf tz (listedOf total databaseId) (policyOf databaseId))
      (listedOf (afterEvents tz policyOf events) databaseId).toFinset
      (listedOf (everCompleted events) databaseId).toFinset := by
  have hlisted := nodup_listedOf hids databaseId
  have hpath := pathIndependent_chosenOf tz hlisted (policyOf databaseId)
  induction events using List.reverseRecOn with
  | nil => exact ⟨Finset.Subset.refl _, fun candidate h ↦ hpath.mem h⟩
  | append_singleton events event ih =>
    have hrows : (afterEvents tz policyOf events).Sublist _ := afterEvents_sublist tz events
    have hstep : afterEvents tz policyOf (events ++ [event]) =
        applyEvent tz policyOf (afterEvents tz policyOf events) event := by
      unfold afterEvents
      rw [foldl_append]
      rfl
    have hever : everCompleted (events ++ [event]) =
        everCompleted events ++ everCompleted [event] := filterMap_append
    rw [hever] at htotal
    have ih := ih ((sublist_append_left _ _).trans htotal)
    rw [hstep, hever]
    cases event with
    | completed row =>
      change Covers _ (listedOf (_ ++ [row]) databaseId).toFinset _
      rw [show everCompleted [.completed row] = [row] from rfl, toFinset_listedOf_concat,
        toFinset_listedOf_concat]
      exact ih.union hpath _
    | rotated rotatedId deleted =>
      rw [show everCompleted [.rotated rotatedId deleted] = [] from rfl, append_nil] at htotal ⊢
      have hpart : (listedOf (afterEvents tz policyOf events) databaseId).Sublist
          (listedOf total databaseId) := ((hrows.trans htotal).filter _).map _
      refine ih.prune hpath (fun candidate h ↦ ?_) fun candidate h ↦ ?_
      · exact mem_toFinset.mpr ((((filter_sublist (l := afterEvents tz policyOf events)).filter
          _).map _).subset (mem_toFinset.mp h))
      · have hmem := mem_toFinset.mp (hpath.mem h)
        refine mem_toFinset.mpr (mem_listedOf_rotated tz (hids.sublist ((hrows.trans htotal).map _))
          hcap rotatedId deleted hmem ?_)
        exact (mem_selectKeep_iff_chosen hlisted hpart hdated _ _).mpr ⟨candidate, h, rfl⟩

/-- Whatever databases have been rotated whenever, the tiers of a database without a cap select
among the backups that are left what they would select among all that it ever had. Assumes:
distinct backup ids, dates of the calendar and years of four digits. -/
theorem selectKeep_afterEvents (tz : TimeZone) (policyOf : String → RetentionPolicy)
    (events : List BackupEvent) (databaseId : String)
    (hids : ((everCompleted events).map (·.id)).Nodup)
    (hdated : Dated tz (candidatesOf (everCompleted events) databaseId))
    (hcap : (policyOf databaseId).maxTotalBytes = none) :
    selectKeep tz (candidatesOf (afterEvents tz policyOf events) databaseId) (policyOf databaseId) =
      selectKeep tz (candidatesOf (everCompleted events) databaseId) (policyOf databaseId) := by
  have hdated : Dated tz (listedOf (everCompleted events) databaseId) :=
    ⟨fun _ h ↦ hdated.valid _ (mem_mergeSort.mpr h),
      fun _ h ↦ hdated.fourDigits _ (mem_mergeSort.mpr h)⟩
  have hcovers := covers_afterEvents tz hids hdated hcap events (Sublist.refl _)
  have hlisted := nodup_listedOf hids databaseId
  have hpart : (listedOf (afterEvents tz policyOf events) databaseId).Sublist
      (listedOf (everCompleted events) databaseId) :=
    ((afterEvents_sublist tz events).filter _).map _
  ext id
  refine (mem_selectKeep_iff_chosen hlisted hpart hdated _ id).trans ?_
  rw [hcovers.chosen_eq (pathIndependent_chosenOf tz hlisted _)]
  exact (mem_selectKeep_iff_chosen hlisted (Sublist.refl _) hdated _ id).symm

/-- Two scheduled backups of a day, with a rotation after each of them. -/
def rotatedTwice : List BackupEvent :=
  tiedBackups.flatMap fun backup ↦
    [.completed ⟨backup, "db", .scheduled, .completed, false⟩, .rotated "db" fun _ ↦ true]

theorem selectKeep_afterEvents_rotatedTwice :
    selectKeep oneDay (candidatesOf (afterEvents oneDay (fun _ ↦ onePerDay) rotatedTwice) "db")
        onePerDay =
      selectKeep oneDay (candidatesOf (everCompleted rotatedTwice) "db") onePerDay :=
  selectKeep_afterEvents oneDay (fun _ ↦ onePerDay) rotatedTwice "db" (by decide)
    ⟨fun _ _ ↦ dated_tiedBackups.valid ⟨"first", 0, 1⟩ mem_cons_self,
      fun _ _ ↦ dated_tiedBackups.fourDigits ⟨"first", 0, 1⟩ mem_cons_self⟩ rfl

end Bridgeport.Backup
