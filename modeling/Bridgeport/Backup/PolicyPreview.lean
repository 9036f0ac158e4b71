import Bridgeport.Backup.PolicyRoutes

/-!
# The preview of a retention policy

The preview of a body shows what the rotation that a PUT of the same body triggers keeps and prunes,
if and only if the two have the same cap or the cap of the preview evicts nothing
(`previewMatches_iff`). They build the same tiers and the same floor
(`resolvePreviewPolicy_preview`), and the rotation reads back the policy that has been stored
(`toRetentionPolicy_resolve_rowOf`). When the body does not name a cap, the PUT takes none and the
preview takes the one in force.
-/

namespace Bridgeport.Backup

open Foundation PolicyStore List

section

variable {settings : RetentionSettings} {body : PolicyBody} {current : EffectivePolicy}

/-- The rotation after a PUT reads back the fields that have been stored. -/
theorem toRetentionPolicy_resolve_rowOf :
    (resolveRetentionPolicy settings (some (rowOf body
      (buildProposedPolicy body (globalDefaultPolicyFromSettings settings))))).toRetentionPolicy =
      (buildProposedPolicy body (globalDefaultPolicyFromSettings settings)).toRetentionPolicy := by
  by_cases hinherit : body.inheritGlobal = some true
  · simp [resolveRetentionPolicy, rowOf, buildProposedPolicy, hinherit]
  · simp [resolveRetentionPolicy, rowOf, hinherit]

/-- The policy that the preview takes for the body of a PUT, but for its cap. -/
theorem resolvePreviewPolicy_preview {globalDefault : EffectivePolicy}
    (hinherit : body.inheritGlobal ≠ some true) :
    (resolvePreviewPolicy (some body.preview) current globalDefault).toRetentionPolicy =
      { (buildProposedPolicy body globalDefault).toRetentionPolicy with
        maxTotalBytes := body.maxTotalBytes.getD current.maxTotalBytes } := by
  have hpreview : body.preview.inheritGlobal ≠ some true := hinherit
  unfold resolvePreviewPolicy buildProposedPolicy
  dsimp only
  rw [if_neg hpreview, if_neg hinherit]
  simp only [PolicyBody.preview]
  cases body.preset with
  | lean | balanced | longTerm | custom => rfl

end

/-! ### What a cap evicts -/

variable {cap : ℤ}

section

variable {candidates : List RotationCandidate} {keepIds : Finset String}

theorem applyFloor_subset (hsubset : keepIds ⊆ candidateIds candidates) (exemptSuccessfulCount : ℕ)
    (minFloor : ℤ) :
    applyFloor candidates keepIds exemptSuccessfulCount minFloor ⊆ candidateIds candidates := by
  obtain ⟨-, hbound, -⟩ :=
    fillFloor_spec exemptSuccessfulCount minFloor (byNewest candidates) keepIds
  rw [candidateIds_byNewest] at hbound
  exact hbound.trans (Finset.union_subset hsubset (Finset.Subset.refl _))

theorem evictVictims_subset (exemptSuccessfulCount : ℕ) (minFloor cap : ℤ)
    (victims : List RotationCandidate) (keep : Finset String) (total : ℤ) :
    (evictVictims exemptSuccessfulCount minFloor cap victims keep total).1 ⊆ keep := by
  induction victims generalizing keep total with
  | nil => exact Finset.Subset.refl _
  | cons victim rest ih =>
    unfold evictVictims
    split_ifs
    · exact Finset.Subset.refl _
    · exact Finset.Subset.refl _
    · exact (ih _ _).trans (Finset.erase_subset _ _)

/-- The cap evicts nothing: what is kept fits it together with the exempt backups, there is nothing
to evict, or the floor protects the first victim. -/
def CapSpares (candidates : List RotationCandidate) (keepIds : Finset String) (exemptSize : ℤ)
    (exemptSuccessfulCount : ℕ) (minFloor cap : ℤ) : Prop :=
  exemptSize + ∑ id ∈ keepIds, ((sizeById candidates).get id).getD 0 ≤ cap ∨ keepIds = ∅ ∨
    exemptSuccessfulCount + ((keepIds.card : ℤ) - 1) < minFloor

instance (candidates : List RotationCandidate) (keepIds : Finset String) (exemptSize : ℤ)
    (exemptSuccessfulCount : ℕ) (minFloor cap : ℤ) : Decidable
      (CapSpares candidates keepIds exemptSize exemptSuccessfulCount minFloor cap) :=
  inferInstanceAs (Decidable (_ ∨ _ ∨ _))

variable {exemptSize minFloor : ℤ} {exemptSuccessfulCount : ℕ}

theorem keep_applySizeCap_of_spares
    (h : CapSpares candidates keepIds exemptSize exemptSuccessfulCount minFloor cap) :
    (applySizeCap candidates keepIds exemptSize exemptSuccessfulCount minFloor (some cap)).keep =
      keepIds := by
  unfold applySizeCap
  dsimp only
  cases hvictims : byOldest (candidates.filter (·.id ∈ keepIds)) with
  | nil => rfl
  | cons victim rest =>
    have hvictim : victim.id ∈ keepIds := by
      have hmem : victim ∈ byOldest (candidates.filter (·.id ∈ keepIds)) := by
        rw [hvictims]
        exact mem_cons_self
      rw [byOldest, mem_mergeSort] at hmem
      exact of_decide_eq_true (mem_filter.mp hmem).2
    rcases h with hfits | hnone | hprotected
    · rw [evictVictims, if_pos hfits]
    · exact absurd (hnone ▸ hvictim) (Finset.notMem_empty _)
    · unfold evictVictims
      split_ifs <;> rfl

theorem exists_evicted (hsubset : keepIds ⊆ candidateIds candidates)
    (h : ¬ CapSpares candidates keepIds exemptSize exemptSuccessfulCount minFloor cap) :
    ∃ victim ∈ candidates, victim.id ∈ keepIds ∧ victim.id ∉
      (applySizeCap candidates keepIds exemptSize exemptSuccessfulCount minFloor
        (some cap)).keep := by
  obtain ⟨hlarge, hkept, hunprotected⟩ : _ ∧ _ ∧ _ := by
    simpa only [CapSpares, not_or] using h
  unfold applySizeCap
  dsimp only
  cases hvictims : byOldest (candidates.filter (·.id ∈ keepIds)) with
  | nil =>
    obtain ⟨id, hid⟩ := Finset.nonempty_iff_ne_empty.mpr hkept
    obtain ⟨candidate, hcandidate, rfl⟩ := (mem_candidateIds_iff _ _).mp (hsubset hid)
    have hmem : candidate ∈ byOldest (candidates.filter (·.id ∈ keepIds)) := by
      rw [byOldest, mem_mergeSort]
      exact mem_filter.mpr ⟨hcandidate, decide_eq_true hid⟩
    rw [hvictims] at hmem
    exact absurd hmem not_mem_nil
  | cons victim rest =>
    have hmem : victim ∈ byOldest (candidates.filter (·.id ∈ keepIds)) := by
      rw [hvictims]
      exact mem_cons_self
    rw [byOldest, mem_mergeSort] at hmem
    obtain ⟨hvictim, hkeep⟩ := mem_filter.mp hmem
    refine ⟨victim, hvictim, of_decide_eq_true hkeep, ?_⟩
    rw [evictVictims, if_neg hlarge, if_neg hunprotected]
    exact fun hkeep ↦ Finset.notMem_erase _ _ (evictVictims_subset _ _ _ _ _ _ hkeep)

end

/-! ### The preview and the rotation -/

def keptByTiers (tz : TimeZone) (policy : RetentionPolicy) (rows : List DatabaseBackup)
    (databaseId : String) : Finset String :=
  applyFloor (candidatesOf rows databaseId) (selectKeep tz (candidatesOf rows databaseId) policy)
    (exemptOf rows databaseId).length policy.minFloor

/-- A cap evicts nothing from what the tiers and the floor of a policy keep. -/
def CapSparesTiers (tz : TimeZone) (policy : RetentionPolicy) (rows : List DatabaseBackup)
    (databaseId : String) (cap : ℤ) : Prop :=
  CapSpares (candidatesOf rows databaseId) (keptByTiers tz policy rows databaseId)
    ((exemptOf rows databaseId).map (·.size)).sum (exemptOf rows databaseId).length policy.minFloor cap

def SameIds (first second : List String) : Prop :=
  ∀ id, id ∈ first ↔ id ∈ second

section

variable {tz : TimeZone} {policy : RetentionPolicy} {rows : List DatabaseBackup} {databaseId : String}

theorem mem_keep_planRotation {id : String} :
    id ∈ (planRotation tz policy rows databaseId).keep ↔ ∃ candidate ∈ candidatesOf rows databaseId,
      candidate.id ∈ (retain tz policy (candidatesOf rows databaseId)
        (exemptOf rows databaseId).length ((exemptOf rows databaseId).map (·.size)).sum).keep ∧
        candidate.id = id := by
  simp [planRotation, and_assoc]

theorem keep_retain_none :
    (retain tz { policy with maxTotalBytes := none } (candidatesOf rows databaseId)
      (exemptOf rows databaseId).length ((exemptOf rows databaseId).map (·.size)).sum).keep =
      keptByTiers tz policy rows databaseId :=
  rfl

theorem sameIds_planRotation_iff :
    SameIds (planRotation tz { policy with maxTotalBytes := some cap } rows databaseId).keep
      (planRotation tz { policy with maxTotalBytes := none } rows databaseId).keep ↔
      CapSparesTiers tz policy rows databaseId cap := by
  constructor
  · intro hsame
    by_contra hevicts
    obtain ⟨victim, hvictim, hkept, hevicted⟩ := exists_evicted
      (applyFloor_subset (selectKeep_subset tz _ policy) _ _) hevicts
    have hmem := (hsame victim.id).mpr (mem_keep_planRotation.mpr ⟨victim, hvictim, hkept, rfl⟩)
    obtain ⟨other, -, hother, hid⟩ := mem_keep_planRotation.mp hmem
    rw [hid] at hother
    exact hevicted hother
  · intro hspares id
    have hkeep : (retain tz { policy with maxTotalBytes := some cap } (candidatesOf rows databaseId)
        (exemptOf rows databaseId).length ((exemptOf rows databaseId).map (·.size)).sum).keep =
          keptByTiers tz policy rows databaseId := keep_applySizeCap_of_spares hspares
    rw [mem_keep_planRotation, mem_keep_planRotation, hkeep, keep_retain_none]

/-- A cap that evicts nothing changes neither set. -/
theorem planRotation_of_spares (hspares : CapSparesTiers tz policy rows databaseId cap) :
    (planRotation tz { policy with maxTotalBytes := some cap } rows databaseId).keep =
        (planRotation tz { policy with maxTotalBytes := none } rows databaseId).keep ∧
      (planRotation tz { policy with maxTotalBytes := some cap } rows databaseId).prune =
        (planRotation tz { policy with maxTotalBytes := none } rows databaseId).prune := by
  have hkeep : (retain tz { policy with maxTotalBytes := some cap } (candidatesOf rows databaseId)
      (exemptOf rows databaseId).length ((exemptOf rows databaseId).map (·.size)).sum).keep =
        keptByTiers tz policy rows databaseId := keep_applySizeCap_of_spares hspares
  unfold planRotation
  dsimp only
  rw [hkeep, keep_retain_none]
  exact ⟨rfl, rfl⟩

end

variable (store : PolicyStore) (databaseId : String) (body : PolicyBody)

def confirmedRotation : PutReply :=
  (store.putPolicy (fun _ ↦ true) databaseId { body with confirm := some true }).2

/-- The preview of a body keeps and prunes what the rotation of the confirmed PUT does. -/
def PreviewMatches : Prop :=
  ∃ rotation, confirmedRotation store databaseId body = .rotated rotation ∧
    SameIds (store.preview databaseId (some body.preview)).keep rotation.keep ∧
    SameIds (store.preview databaseId (some body.preview)).prune rotation.prune

/-- A PUT that is not confirmed is refused or prunes at most as many backups as the threshold. -/
def GateHolds : Prop :=
  ∀ deletable confirm rotation, confirm ≠ some true →
    (store.putPolicy deletable databaseId { body with confirm }).2 = .rotated rotation →
      rotation.prune.length ≤ store.settings.confirmThreshold

/-- The cap of the preview is the one of the PUT, or it evicts nothing. -/
def CapAgrees : Prop :=
  body.inheritGlobal = some true ∨ body.maxTotalBytes ≠ none ∨
    ∀ cap, (resolveRetentionPolicy store.settings store.stored).maxTotalBytes = some cap →
      CapSparesTiers store.settings.timezone
        (buildProposedPolicy body (globalDefaultPolicyFromSettings store.settings)).toRetentionPolicy
        store.backups databaseId cap

section

variable {store : PolicyStore} {databaseId : String} {body : PolicyBody}

def proposedPolicy (store : PolicyStore) (body : PolicyBody) : RetentionPolicy :=
  (buildProposedPolicy body (globalDefaultPolicyFromSettings store.settings)).toRetentionPolicy

theorem putPolicy_eq_rotated {deletable : String → Bool} {rotation : RotationResult}
    (h : (store.putPolicy deletable databaseId body).2 = .rotated rotation) :
    rotation.keep = (planRotation store.settings.timezone (proposedPolicy store body) store.backups
        databaseId).keep ∧
      rotation.prune = (planRotation store.settings.timezone (proposedPolicy store body)
        store.backups databaseId).prune.filter deletable := by
  unfold putPolicy at h
  dsimp only at h
  split_ifs at h
  rw [← PutReply.rotated.inj h]
  simp [rotateDatabase, dryRun, toRetentionPolicy_resolve_rowOf, proposedPolicy]

theorem gateHolds (store : PolicyStore) (databaseId : String) (body : PolicyBody) :
    GateHolds store databaseId body := by
  intro deletable confirm rotation hconfirm hrotated
  have hprune := (putPolicy_eq_rotated hrotated).2
  have hthreshold : (planRotation store.settings.timezone
      (proposedPolicy store { body with confirm }) store.backups databaseId).prune.length ≤
        store.settings.confirmThreshold := by
    unfold putPolicy at hrotated
    dsimp only at hrotated
    split_ifs at hrotated with hgate
    by_contra hmany
    exact hgate ⟨not_le.mp hmany, hconfirm⟩
  rw [hprune]
  exact (length_filter_le _ _).trans hthreshold

theorem previewMatches_of_eq
    (h : SameIds (store.preview databaseId (some body.preview)).keep
        (planRotation store.settings.timezone
          (proposedPolicy store body) store.backups databaseId).keep ∧
      SameIds (store.preview databaseId (some body.preview)).prune
        (planRotation store.settings.timezone (proposedPolicy store body) store.backups
          databaseId).prune) : PreviewMatches store databaseId body := by
  have hrotated : ∃ rotation, confirmedRotation store databaseId body = .rotated rotation := by
    simp [confirmedRotation, putPolicy]
  obtain ⟨rotation, hrotation⟩ := hrotated
  obtain ⟨hkeep, hprune⟩ := putPolicy_eq_rotated hrotation
  rw [filter_true] at hprune
  refine ⟨rotation, hrotation, ?_⟩
  rw [hkeep, hprune]
  exact h

section

variable (hinherit : body.inheritGlobal ≠ some true)
include hinherit

/-- The preview of a body that does not inherit takes the cap of the body or the one in force. -/
theorem preview_eq :
    store.preview databaseId (some body.preview) = planRotation store.settings.timezone
      { proposedPolicy store body with
        maxTotalBytes := body.maxTotalBytes.getD
          (resolveRetentionPolicy store.settings store.stored).maxTotalBytes }
      store.backups databaseId := by
  rw [preview, dryRun, resolvePreviewPolicy_preview hinherit]
  rfl

/-- The cap of a PUT that does not inherit. -/
theorem maxTotalBytes_proposedPolicy :
    (proposedPolicy store body).maxTotalBytes = body.maxTotalBytes.join := by
  unfold proposedPolicy buildProposedPolicy
  rw [if_neg hinherit]
  cases body.preset with
  | lean | balanced | longTerm | custom => rfl

theorem capSparesTiers_of_sameIds (hbody : body.maxTotalBytes = none)
    (hcap : (resolveRetentionPolicy store.settings store.stored).maxTotalBytes = some cap)
    (hsame : SameIds (store.preview databaseId (some body.preview)).keep
      (planRotation store.settings.timezone
        (proposedPolicy store body) store.backups databaseId).keep) :
    CapSparesTiers store.settings.timezone
      (proposedPolicy store body) store.backups databaseId cap := by
  have hnone : (proposedPolicy store body).maxTotalBytes = none := by
    rw [maxTotalBytes_proposedPolicy hinherit, hbody]
    rfl
  have hproposed : { proposedPolicy store body with maxTotalBytes := none } =
      proposedPolicy store body := by
    rw [← hnone]
  rw [preview_eq hinherit, hbody, hcap, Option.getD_none, ← hproposed] at hsame
  exact sameIds_planRotation_iff.mp hsame

end

theorem preview_of_capAgrees (h : CapAgrees store databaseId body) :
    (store.preview databaseId (some body.preview)).keep =
        (planRotation store.settings.timezone
          (proposedPolicy store body) store.backups databaseId).keep ∧
      (store.preview databaseId (some body.preview)).prune =
        (planRotation store.settings.timezone (proposedPolicy store body) store.backups
          databaseId).prune := by
  by_cases hinherit : body.inheritGlobal = some true
  · have hglobal : body.preview.inheritGlobal = some true := hinherit
    simp [preview, dryRun, resolvePreviewPolicy, proposedPolicy, buildProposedPolicy, hinherit,
      hglobal]
  · have hcap : (proposedPolicy store body).maxTotalBytes = body.maxTotalBytes.join :=
      maxTotalBytes_proposedPolicy hinherit
    rw [preview_eq hinherit]
    cases hbody : body.maxTotalBytes with
    | some given =>
      rw [hbody] at hcap
      have hgiven : (proposedPolicy store body).maxTotalBytes = given := hcap
      rw [Option.getD_some, ← hgiven]
      exact ⟨rfl, rfl⟩
    | none =>
      rw [hbody] at hcap
      have hnone : (proposedPolicy store body).maxTotalBytes = none := hcap
      have hproposed : { proposedPolicy store body with maxTotalBytes := none } =
          proposedPolicy store body := by
        rw [← hnone]
      rw [Option.getD_none]
      cases hcurrent : (resolveRetentionPolicy store.settings store.stored).maxTotalBytes with
      | none =>
        rw [hproposed]
        exact ⟨rfl, rfl⟩
      | some cap =>
        have hspares := ((h.resolve_left hinherit).resolve_left (not_not.mpr hbody)) cap hcurrent
        have hplan := planRotation_of_spares hspares
        rw [← hproposed]
        exact hplan

/-- The preview of a body shows what the PUT keeps and prunes, and the confirmation gate holds, if
and only if the body inherits the global policy, names a cap, or the cap in force evicts nothing. -/
theorem previewMatches_iff (store : PolicyStore) (databaseId : String) (body : PolicyBody) :
    PreviewMatches store databaseId body ∧ GateHolds store databaseId body ↔
      CapAgrees store databaseId body := by
  constructor
  · rintro ⟨⟨rotation, hrotation, hkeep, -⟩, -⟩
    by_cases hinherit : body.inheritGlobal = some true
    · exact .inl hinherit
    · by_cases hbody : body.maxTotalBytes = none
      · refine .inr (.inr fun cap hcap ↦ ?_)
        rw [(putPolicy_eq_rotated hrotation).1] at hkeep
        exact capSparesTiers_of_sameIds hinherit hbody hcap hkeep
      · exact .inr (.inl hbody)
  · intro hagrees
    obtain ⟨hkeep, hprune⟩ := preview_of_capAgrees hagrees
    refine ⟨previewMatches_of_eq ⟨?_, ?_⟩, gateHolds store databaseId body⟩
    · rw [hkeep]
      exact fun _ ↦ Iff.rfl
    · rw [hprune]
      exact fun _ ↦ Iff.rfl

end

/-! ### A cap that the body does not name -/

/-- The default settings, with UTC as it is on the first day of 1970. -/
def defaultSettings : RetentionSettings :=
  { keepLast := 24, daily := 7, weekly := 4, monthly := 6, yearly := 0, minFloor := 2,
    maxTotalBytes := none, timezone := fun _ ↦ ⟨1970, 1, 1⟩, preset := .balanced,
    confirmThreshold := 5 }

/-- A policy that keeps the ten newest backups under a cap. -/
def cappedRow (cap : ℤ) : PolicyRow :=
  { keepLast := 10, daily := 0, weekly := 0, monthly := 0, yearly := 0, minFloor := 1,
    maxTotalBytes := some cap, autoApplied := false, inheritGlobal := false, preset := .custom }

/-- The body of a PUT of the same policy that names no cap. -/
def keepTen : PolicyBody :=
  { inheritGlobal := none, preset := .custom, keepLast := 10, daily := 0, weekly := 0, monthly := 0,
    yearly := 0, minFloor := 1, maxTotalBytes := none, confirm := none }

def twoBackups : List DatabaseBackup :=
  [{ id := "manual", createdAt := 2000, size := 60, databaseId := "db", type := .manual,
     status := .completed, isPinned := false },
    { id := "nightly", createdAt := 1000, size := 60, databaseId := "db", type := .scheduled,
      status := .completed, isPinned := false }]

def cappedStore (cap : ℤ) : PolicyStore :=
  ⟨defaultSettings, some (cappedRow cap), twoBackups⟩

theorem candidatesOf_twoBackups : candidatesOf twoBackups "db" = [⟨"nightly", 1000, 60⟩] :=
  mergeSort_singleton _

/-- Both backups are kept without a cap. -/
theorem keptByTiers_twoBackups :
    keptByTiers (fun _ ↦ ⟨1970, 1, 1⟩) (proposedPolicy (cappedStore 100) keepTen) twoBackups "db" =
      {"nightly"} := by
  rw [keptByTiers, candidatesOf_twoBackups]
  simp [proposedPolicy, buildProposedPolicy, keepTen, Preset.tiers, selectKeep, selectPeriodTier,
    byNewest, addIds, applyFloor, fillFloor]

/-- The preview of a PUT without a cap shows the scheduled backup as pruned under the cap in
force. -/
theorem not_previewMatches_capped :
    ¬ (PreviewMatches (cappedStore 100) "db" keepTen ∧ GateHolds (cappedStore 100) "db" keepTen) := by
  rintro ⟨⟨rotation, hrotation, hkeep, -⟩, -⟩
  rw [(putPolicy_eq_rotated hrotation).1] at hkeep
  have hspares : CapSparesTiers _ (proposedPolicy (cappedStore 100) keepTen) twoBackups "db" 100 :=
    capSparesTiers_of_sameIds (by decide) rfl rfl hkeep
  unfold CapSparesTiers at hspares
  rw [show (cappedStore 100).settings.timezone = fun _ ↦ ⟨1970, 1, 1⟩ from rfl,
    keptByTiers_twoBackups, candidatesOf_twoBackups] at hspares
  revert hspares
  decide

end Bridgeport.Backup
