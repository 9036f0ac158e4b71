import Bridgeport.Backup.RetentionBounds

/-!
# The routes of the retention policy

The policy of a database as `routes/databases.ts` and `services/database-backup.ts` build it in
three places: `resolveRetentionPolicy` from the stored row, `buildProposedPolicy` from the body of a
PUT, and `resolvePreviewPolicy` from the body of a preview laid over the policy in force.
`rotateDatabase` runs with one of them, as a dry run or for real.

The requests here find their database and run with nothing else in between. Whether the artifact of
a backup can be deleted is a parameter of the rotation; audit entries and notifications are left
out, and so is the last error of a backup.
-/

namespace Bridgeport.Backup

/-! ### Policies -/

/-- `BackupPolicyBody['preset']`. -/
inductive Preset
  | lean
  | balanced
  | longTerm
  | custom

/-- The tiers of a preset in `PRESETS`, without a cap. -/
def Preset.tiers : Preset → Option RetentionPolicy
  | .lean => some ⟨12, 7, 4, 0, 0, 2, none⟩
  | .balanced => some ⟨24, 7, 4, 6, 0, 2, none⟩
  | .longTerm => some ⟨24, 7, 4, 12, 3, 2, none⟩
  | .custom => none

/-- `EffectivePolicy['source']`. -/
inductive PolicySource
  | override
  | inherited

structure EffectivePolicy extends RetentionPolicy where
  preset : Preset
  source : PolicySource
  autoApplied : Bool

/-- A `BackupRetentionPolicy` row. -/
structure PolicyRow extends RetentionPolicy where
  (autoApplied inheritGlobal : Bool)
  preset : Preset

/-- What the policies and rotations read of the settings. -/
structure RetentionSettings extends RetentionPolicy where
  timezone : TimeZone
  preset : Preset
  confirmThreshold : ℕ

variable (settings : RetentionSettings)

def globalDefaultPolicyFromSettings : EffectivePolicy :=
  { toRetentionPolicy := settings.toRetentionPolicy, preset := settings.preset, source := .inherited,
    autoApplied := false }

def resolveRetentionPolicy (stored : Option PolicyRow) : EffectivePolicy :=
  match stored with
  | some row =>
    if row.inheritGlobal then globalDefaultPolicyFromSettings settings
    else { toRetentionPolicy := row.toRetentionPolicy, preset := row.preset, source := .override,
           autoApplied := row.autoApplied }
  | none => globalDefaultPolicyFromSettings settings

/-- `BackupPolicyBody`; a field that is missing is none, and a `maxTotalBytes` that is null is
`some none`. -/
structure PolicyBody where
  inheritGlobal : Option Bool
  preset : Preset
  (keepLast daily weekly monthly yearly minFloor : ℤ)
  maxTotalBytes : Option (Option ℤ)
  confirm : Option Bool

/-- `BackupPolicyPreviewBody`. -/
structure PreviewBody where
  inheritGlobal : Option Bool
  preset : Option Preset
  (keepLast daily weekly monthly yearly minFloor : Option ℤ)
  maxTotalBytes : Option (Option ℤ)

/-- The body of a PUT as the schema of the preview parses it. -/
def PolicyBody.preview (body : PolicyBody) : PreviewBody :=
  { inheritGlobal := body.inheritGlobal, preset := some body.preset, keepLast := some body.keepLast,
    daily := some body.daily, weekly := some body.weekly, monthly := some body.monthly,
    yearly := some body.yearly, minFloor := some body.minFloor, maxTotalBytes := body.maxTotalBytes }

def buildProposedPolicy (body : PolicyBody) (globalDefault : EffectivePolicy) : EffectivePolicy :=
  if body.inheritGlobal = some true then globalDefault
  else
    let cap := body.maxTotalBytes.join
    match body.preset.tiers with
    | some tiers =>
      { toRetentionPolicy := { tiers with maxTotalBytes := cap }, preset := body.preset,
        source := .override, autoApplied := false }
    | none =>
      { keepLast := body.keepLast, daily := body.daily, weekly := body.weekly,
        monthly := body.monthly, yearly := body.yearly, minFloor := body.minFloor,
        maxTotalBytes := cap, preset := .custom, source := .override, autoApplied := false }

def resolvePreviewPolicy (body : Option PreviewBody) (current globalDefault : EffectivePolicy) :
    EffectivePolicy :=
  match body with
  | none => current
  | some body =>
    if body.inheritGlobal = some true then globalDefault
    else
      let cap := body.maxTotalBytes.getD current.maxTotalBytes
      match body.preset, body.preset.bind Preset.tiers with
      | some preset, some tiers =>
        { toRetentionPolicy := { tiers with maxTotalBytes := cap }, preset, source := .override,
          autoApplied := false }
      | preset, _ =>
        { keepLast := body.keepLast.getD current.keepLast, daily := body.daily.getD current.daily,
          weekly := body.weekly.getD current.weekly, monthly := body.monthly.getD current.monthly,
          yearly := body.yearly.getD current.yearly,
          minFloor := body.minFloor.getD current.minFloor, maxTotalBytes := cap,
          preset := preset.getD current.preset, source := .override, autoApplied := false }

/-! ### Rotations -/

inductive RotationTrigger
  | manual
  | sweep
  | postBackup
  | policyChange
  deriving DecidableEq

/-- What the routes read and write: the settings, the stored policy of the database and the
backups. -/
structure PolicyStore where
  settings : RetentionSettings
  stored : Option PolicyRow
  backups : List DatabaseBackup

namespace PolicyStore

variable (store : PolicyStore) (databaseId : String)

/-- `rotateDatabase` as a dry run with a policy. -/
def dryRun (policy : EffectivePolicy) : RotationResult :=
  planRotation store.settings.timezone policy.toRetentionPolicy store.backups databaseId

variable (deletable : String → Bool)

/-- `rotateDatabase` with the stored policy, for the artifacts that can be deleted. -/
def rotateDatabase (databaseId : String) (trigger : RotationTrigger) :
    PolicyStore × RotationResult :=
  let policy := resolveRetentionPolicy store.settings store.stored
  if (trigger = .sweep ∨ trigger = .postBackup) ∧ policy.autoApplied then
    (store, ⟨(candidatesOf store.backups databaseId).map (·.id), [], 0, false⟩)
  else
    let plan := store.dryRun databaseId policy
    let prunedIds := plan.prune.filter deletable
    let pruned := (candidatesOf store.backups databaseId).filter (·.id ∈ prunedIds)
    ({ store with backups := store.backups.filter (·.id ∉ prunedIds) },
      { plan with prune := prunedIds, bytesFreed := (pruned.map (·.size)).sum })

def rowOf (body : PolicyBody) (proposed : EffectivePolicy) : PolicyRow :=
  if body.inheritGlobal = some true then
    { toRetentionPolicy := proposed.toRetentionPolicy, autoApplied := false, inheritGlobal := true,
      preset := body.preset }
  else
    { toRetentionPolicy := proposed.toRetentionPolicy, autoApplied := false, inheritGlobal := false,
      preset := proposed.preset }

/-- `POST /api/databases/:id/backup-policy/preview`. -/
def preview (body : Option PreviewBody) : RotationResult :=
  store.dryRun databaseId (resolvePreviewPolicy body
    (resolveRetentionPolicy store.settings store.stored)
    (globalDefaultPolicyFromSettings store.settings))

inductive PutReply
  | confirmationRequired (preview : RotationResult)
  | rotated (rotation : RotationResult)

/-- `PUT /api/databases/:id/backup-policy`, for the artifacts that can be deleted. -/
def putPolicy (databaseId : String) (body : PolicyBody) : PolicyStore × PutReply :=
  let proposed := buildProposedPolicy body (globalDefaultPolicyFromSettings store.settings)
  let dryRun := store.dryRun databaseId proposed
  if dryRun.prune.length > store.settings.confirmThreshold ∧ body.confirm ≠ some true then
    (store, .confirmationRequired dryRun)
  else
    let (after, rotation) := { store with stored := some (rowOf body proposed) }.rotateDatabase
      deletable databaseId .policyChange
    (after, .rotated rotation)

end PolicyStore

end Bridgeport.Backup
