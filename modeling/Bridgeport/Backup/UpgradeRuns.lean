import Bridgeport.Backup.Upgrade

/-!
# No upgrade deletes a backup

Every database that has backups gets a policy of its own by the migration, marked `autoApplied`, and
a rotation with an automatic trigger leaves such a database alone. As the clean-ups look at other
rows only, the row of a backup that was completed before the migration stays as it is in every run
(`intact_of_run`).

Its artifact stays as well in a run whose steps are `Sparing`: none of them writes or removes what
is at the place of such an artifact. Nothing makes the places of two backups different, though. Two
backups of a database that start in the same millisecond have the same path, and when one of them
has failed, its clean-up removes the artifact of the other one (`not_intact_sameMillisecond`).
-/

namespace Bridgeport.Backup.Upgrade

open Foundation Artifacts List Option Function

variable {Host : Type}

/-! ### What is to stay -/

/-- The backup was completed before the migration. -/
def Legacy.Completed (legacy : Legacy Host) (backup : StoredBackup) : Prop :=
  backup ∈ legacy.backups.rows ∧ backup.status = .completed

/-- A backup that was completed before the migration has its artifact at the place. -/
def Legacy.Holds (legacy : Legacy Host) (place : Place Host) : Prop :=
  ∃ backup artifact, legacy.Completed backup ∧ legacy.store place = some artifact ∧
    artifact.owner = backup.id

/-- The backup still exists with its artifact. -/
structure Intact (legacy : Legacy Host) (state : State Host) (backup : StoredBackup) : Prop where
  row : state.artifacts.backups.find? backup.id = some backup
  artifact : ∀ place artifact, legacy.store place = some artifact → artifact.owner = backup.id →
    state.artifacts.store place = some artifact

/-- A row is not looked for where an artifact is that has to stay. -/
def Apart (sites : Sites Host) (legacy : Legacy Host) (state : State Host)
    (backup : StoredBackup) : Prop :=
  ∀ db place, state.artifacts.databases.find? backup.databaseId = some db →
    artifactPlace sites db.toDatabase backup = some place → ¬ legacy.Holds place

/-- The condition on a step: it writes and removes nothing where an artifact is that has to stay. -/
def Sparing [DecidableEq Host] (sites : Sites Host) (legacy : Legacy Host) (state : State Host) :
    Label → Prop
  | .execution id _ => ∀ place ∈ executionPlaces sites id state.artifacts, ¬ legacy.Holds place
  | .prune id _ => ∀ backup, state.artifacts.backups.find? id = some backup →
      Apart sites legacy state backup
  | .cleanup backup _ => Apart sites legacy state backup
  | _ => True

variable {legacy : Legacy Host} {backup : StoredBackup}

theorem exists_policy (h : backup ∈ legacy.backups.rows) :
    ∃ row ∈ legacy.policies.rows, row.databaseId = backup.databaseId ∧
      row.policy.autoApplied = true ∧ row.policy.inheritGlobal = false := by
  by_cases hscheduled : ∃ schedule ∈ legacy.schedules.rows, schedule.databaseId = backup.databaseId
  · obtain ⟨schedule, hschedule, hid⟩ := hscheduled
    refine ⟨policyOfSchedule schedule, ?_, hid, rfl, rfl⟩
    exact mem_append_left _ (mem_map_of_mem hschedule)
  · obtain ⟨db, hdb⟩ := isSome_iff_exists.mp (legacy.housed backup h)
    obtain ⟨hmem, hid⟩ := Table.find?_eq_some_iff.mp hdb
    have hid : db.id = backup.databaseId := hid
    refine ⟨balancedPolicy db, mem_append_right _ (mem_map_of_mem ?_), hid, rfl, rfl⟩
    refine mem_filter.mpr ⟨hmem, decide_eq_true ⟨⟨backup, h, hid.symm⟩, ?_⟩⟩
    rwa [hid]

variable {state : State Host}

/-- Automatic rotations leave the databases alone that had backups before the migration. -/
theorem rotateDatabase_eq_self (hpolicies : state.policies = legacy.policies)
    (h : backup ∈ legacy.backups.rows) : rotateDatabase backup.databaseId state = state := by
  obtain ⟨row, hrow, hid, happlied, hown⟩ := exists_policy h
  have hfound : legacy.policies.find? backup.databaseId = some row :=
    Table.find?_eq_some_iff.mpr ⟨hrow, hid⟩
  have hpolicy : state.policyOf backup.databaseId = some row.policy := by
    rw [State.policyOf, hpolicies, hfound]
    rfl
  simp [rotateDatabase, resolveRetentionPolicy, hpolicy, happlied, hown]

variable (databaseId : String)

/-- A rotation adds backups of its database to those that are pruned, and changes nothing else. -/
theorem rotateDatabase_cases (state : State Host) :
    ∃ ids, rotateDatabase databaseId state = { state with pruning := state.pruning ++ ids } ∧
      ∀ id ∈ ids, ∃ backup ∈ state.artifacts.backups.rows,
        backup.id = id ∧ backup.databaseId = databaseId := by
  unfold rotateDatabase
  simp only
  split_ifs
  · exact ⟨[], by simp, by simp⟩
  · refine ⟨_, rfl, fun id hid ↦ ?_⟩
    obtain ⟨row, hrow, rfl, hdatabase, -⟩ := exists_of_mem_prune _ _ _ _ id hid
    obtain ⟨backup, hbackup, rfl⟩ := mem_map.mp hrow
    exact ⟨backup, hbackup, rfl, hdatabase⟩

/-! ### Steps about one backup -/

/-- A step about one backup leaves the databases, the other backups and the places that are not its
own as they are. -/
structure About (own : Place Host → Prop) (id : String) (before after : Artifacts.State Host) :
    Prop where
  databases : after.databases = before.databases
  backups : ∀ other, other ≠ id → after.backups.find? other = before.backups.find? other
  executions : ∀ other, other ≠ id → after.executions other = before.executions other
  store : ∀ place, ¬ own place → after.store place = before.store place

variable {own : Place Host → Prop} {id timestamp : String} {before after : Artifacts.State Host}

theorem about_createBackup {databaseId : String}
    (h : createBackup databaseId id timestamp before = some after) :
    About own id before after ∧ before.backups.Fresh id := by
  obtain ⟨db, -, h⟩ := bind_eq_some_iff.mp h
  by_cases hunused : before.Unused id
  · rw [if_pos hunused] at h
    obtain rfl := some.inj h
    obtain ⟨hfresh, -⟩ := hunused
    refine ⟨⟨rfl, fun other hother ↦ ?_, fun other hother ↦ ?_, fun _ _ ↦ rfl⟩, hfresh⟩
    · exact (Table.find?_insert hfresh other).trans (if_neg hother.symm)
    · exact update_of_ne hother _ _
  · rw [if_neg hunused] at h
    nomatch h

theorem About.execution {entry : Option Execution} (h : About own id before after) :
    About own id before (after.execution id entry) :=
  ⟨h.databases, h.backups, fun other hother ↦
    (update_of_ne hother _ _).trans (h.executions other hother), h.store⟩

theorem About.setStatus {status : BackupStatus} (h : About own id before after) :
    About own id before { after with backups := setStatus after.backups id status } :=
  ⟨h.databases, fun other hother ↦ (find?_setStatus_of_ne hother _).trans (h.backups other hother),
    h.executions, h.store⟩

theorem About.refl (own : Place Host → Prop) (id : String) (state : Artifacts.State Host) :
    About own id state state :=
  ⟨rfl, fun _ _ ↦ rfl, fun _ _ ↦ rfl, fun _ _ ↦ rfl⟩

theorem about_startExecution (h : startExecution id before = some after) :
    About own id before after := by
  unfold startExecution at h
  split at h
  · cases hfound : before.backups.find? id with
    | none =>
      rw [hfound] at h
      obtain rfl := some.inj h
      exact (About.refl own id before).execution
    | some backup =>
      rw [hfound] at h
      obtain ⟨db, -, rfl⟩ := map_eq_some_iff.mp h
      exact (About.refl own id before).execution.setStatus
  · nomatch h

theorem about_complete (h : complete id before = some after) : About own id before after := by
  unfold complete at h
  split at h
  · obtain rfl := some.inj h
    exact (About.refl own id before).execution.setStatus
  · nomatch h

section

variable [DecidableEq Host] {sites : Sites Host} {place : Place Host} {content : String}
  {store : Place Host → Option Artifact}

theorem writeAt_of_ne {other : Place Host} (h : other ≠ place) :
    writeAt place id content store other = store other :=
  update_of_ne h _ _

variable {unlinked : Bool} {db : Database}

theorem unlinkTemp_of_ne (h : place ≠ tempPlace sites id db) :
    Artifacts.unlinkTemp sites id unlinked db store place = store place := by
  unfold Artifacts.unlinkTemp
  split_ifs
  · exact update_of_ne h _ _
  · rfl

variable {downloaded : String}

theorem fetchDump_of_ne {removed : Bool} (htemp : place ≠ tempPlace sites id db)
    (hserver : place ≠ serverTempPlace sites id db) :
    Artifacts.fetchDump sites id downloaded removed db store place = store place := by
  unfold Artifacts.fetchDump
  split_ifs
  · rfl
  · exact (update_of_ne hserver _ _).trans (writeAt_of_ne htemp)
  · exact writeAt_of_ne htemp
  · rfl

theorem about_dump (h : dump sites id content before = some after) :
    About (· ∈ executionPlaces sites id before) id before after := by
  unfold dump at h
  split at h
  · next storagePath db hexecution =>
    obtain ⟨place, hplace, rfl⟩ := map_eq_some_iff.mp h
    have hown := mem_executionPlaces_dump hexecution hplace
    have hstore : ∀ other, other ∉ executionPlaces sites id before →
        writeAt place id content before.store other = before.store other :=
      fun other hother ↦ writeAt_of_ne fun hsame ↦ hother (hsame ▸ hown)
    split_ifs
    · exact ⟨rfl, fun _ _ ↦ rfl, fun other hother ↦ update_of_ne hother _ _, hstore⟩
    · exact ⟨rfl, fun _ _ ↦ rfl, fun other hother ↦ update_of_ne hother _ _, hstore⟩
  · cases h

theorem about_dumpFails {part : Option String} (h : dumpFails sites id part before = some after) :
    About (· ∈ executionPlaces sites id before) id before after := by
  unfold dumpFails at h
  split at h
  · next storagePath db hexecution =>
    obtain ⟨place, hplace, rfl⟩ := map_eq_some_iff.mp h
    have hown := mem_executionPlaces_dump hexecution hplace
    cases part with
    | none => exact About.refl _ id before
    | some content =>
      refine ⟨rfl, fun _ _ ↦ rfl, fun _ _ ↦ rfl, fun other hother ↦ ?_⟩
      exact writeAt_of_ne fun hsame ↦ hother (hsame ▸ hown)
  · nomatch h

theorem about_upload {removed : Bool}
    (h : upload sites id downloaded removed unlinked before = some after) :
    About (· ∈ executionPlaces sites id before) id before after := by
  unfold upload at h
  split at h
  · next storagePath db hexecution =>
    by_cases hspaces : db.backupStorageType = .spaces
    · rw [if_pos hspaces] at h
      obtain ⟨place, hplace, h⟩ := bind_eq_some_iff.mp h
      obtain ⟨temp, -, h⟩ := bind_eq_some_iff.mp h
      obtain rfl := some.inj h
      have htemp : tempPlace sites id db.toDatabase ∈ executionPlaces sites id before :=
        mem_executionPlaces_spaces hexecution hspaces (.inl rfl)
      have hserver : serverTempPlace sites id db.toDatabase ∈ executionPlaces sites id before :=
        mem_executionPlaces_spaces hexecution hspaces (.inr (.inl rfl))
      have hobject := mem_executionPlaces_spaces hexecution hspaces (.inr (.inr hplace))
      refine ⟨rfl, fun _ _ ↦ rfl, fun other hother ↦ update_of_ne hother _ _, fun other hother ↦ ?_⟩
      calc Artifacts.unlinkTemp sites id unlinked db.toDatabase (writeAt place id temp.content
            (Artifacts.fetchDump sites id downloaded removed db.toDatabase before.store)) other
        _ = writeAt place id temp.content
            (Artifacts.fetchDump sites id downloaded removed db.toDatabase before.store) other :=
          unlinkTemp_of_ne fun hsame ↦ hother (hsame ▸ htemp)
        _ = Artifacts.fetchDump sites id downloaded removed db.toDatabase before.store other :=
          writeAt_of_ne fun hsame ↦ hother (hsame ▸ hobject)
        _ = before.store other :=
          fetchDump_of_ne (fun hsame ↦ hother (hsame ▸ htemp))
            (fun hsame ↦ hother (hsame ▸ hserver))
    · rw [if_neg hspaces] at h
      nomatch h
  · nomatch h

theorem about_fail (h : fail sites id unlinked before = some after) :
    About (· ∈ executionPlaces sites id before) id before after := by
  unfold fail at h
  split at h
  · next storagePath db stage hexecution =>
    obtain rfl := some.inj h
    refine ⟨rfl, fun other hother ↦ find?_setStatus_of_ne hother _,
      fun other hother ↦ update_of_ne hother _ _, fun other hother ↦ ?_⟩
    split_ifs with hspaces
    · have htemp : tempPlace sites id db.toDatabase ∈ executionPlaces sites id before :=
        mem_executionPlaces_spaces hexecution hspaces (.inl rfl)
      exact unlinkTemp_of_ne fun hsame ↦ hother (hsame ▸ htemp)
    · rfl
  · cases h

theorem about_advance {step : ExecutionStep} (h : advance sites id before step = some after) :
    About (· ∈ executionPlaces sites id before) id before after := by
  cases step with
  | execute => exact about_startExecution h
  | dump content => exact about_dump h
  | dumpFails part => exact about_dumpFails h
  | upload downloaded removed unlinked => exact about_upload h
  | complete size => exact about_complete h
  | fail unlinked => exact about_fail h

/-- Every step of an execution is of one that has been launched. -/
theorem isSome_of_advance {step : ExecutionStep} (h : advance sites id before step = some after) :
    (before.executions id).isSome := by
  cases hexecution : before.executions id with
  | some execution => rfl
  | none =>
    cases step <;> simp [advance, startExecution, dump, dumpFails, upload, complete, fail,
      hexecution] at h

variable {calls : DeleteCalls}

theorem store_deleteBackupArtifact (h : artifactPlace sites db backup ≠ some place) :
    (deleteBackupArtifact sites db backup calls store).1 place = store place := by
  rcases deleteBackupArtifact_cases sites db backup calls store with
    ⟨-, hresult⟩ | ⟨other, hother, hresult⟩ | ⟨message, hresult⟩
  · rw [hresult]
  · have hne : place ≠ other := fun hsame ↦ h (hsame ▸ hother)
    rw [hresult]
    unfold removeAt
    split
    · exact update_of_ne hne _ _
    · exact update_of_ne hne _ _
    · rfl
    · rfl
  · rw [hresult]

/-- The places that the removal of a row looks at. -/
def RemovalOf (sites : Sites Host) (state : Artifacts.State Host) (backup : StoredBackup)
    (place : Place Host) : Prop :=
  ∃ db, state.databases.find? backup.databaseId = some db ∧
    artifactPlace sites db.toDatabase backup = some place

theorem about_cleanup (h : cleanup sites backup calls before = some after) :
    About (RemovalOf sites before backup) backup.id before after := by
  obtain ⟨db, hdb, rfl⟩ := map_eq_some_iff.mp h
  have hstore : ∀ place, ¬ RemovalOf sites before backup place →
      (deleteBackupArtifact sites db.toDatabase backup calls before.store).1 place =
        before.store place :=
    fun place hplace ↦ store_deleteBackupArtifact fun hsome ↦ hplace ⟨db, hdb, hsome⟩
  simp only
  split_ifs
  · exact ⟨rfl, fun other hother ↦ by simp [hother.symm], fun _ _ ↦ rfl, hstore⟩
  · exact ⟨rfl, fun _ _ ↦ rfl, fun _ _ ↦ rfl, hstore⟩

theorem about_pruneBackup (h : pruneBackup sites id calls before = some after) :
    About (fun place ↦ ∃ backup, before.backups.find? id = some backup ∧
      RemovalOf sites before backup place) id before after := by
  unfold pruneBackup deleteWith at h
  cases hbackup : before.backups.find? id with
  | none =>
    rw [hbackup] at h
    obtain rfl := some.inj h
    exact ⟨rfl, fun _ _ ↦ rfl, fun _ _ ↦ rfl, fun _ _ ↦ rfl⟩
  | some backup =>
    rw [hbackup] at h
    obtain ⟨db, hdb, rfl⟩ := map_eq_some_iff.mp h
    have hstore : ∀ place, (¬ ∃ row, some backup = some row ∧ RemovalOf sites before row place) →
        (deleteBackupArtifact sites db.toDatabase backup calls before.store).1 place =
          before.store place :=
      fun place hplace ↦ store_deleteBackupArtifact fun hsome ↦
        hplace ⟨backup, rfl, db, hdb, hsome⟩
    simp only [Bool.false_eq_true, false_or]
    split_ifs
    · exact ⟨rfl, fun other hother ↦ by simp [hother.symm], fun _ _ ↦ rfl, hstore⟩
    · exact ⟨rfl, fun _ _ ↦ rfl, fun _ _ ↦ rfl, hstore⟩

end

/-! ### The invariant -/

/-- No step has to do with a backup that was completed before the migration. -/
structure Upgraded (legacy : Legacy Host) (state : State Host) : Prop where
  databases : state.artifacts.databases = legacy.databases
  policies : state.policies = legacy.policies
  rows : ∀ backup, legacy.Completed backup → state.artifacts.backups.find? backup.id = some backup
  executions : ∀ backup, legacy.Completed backup → state.artifacts.executions backup.id = none
  pruning : ∀ backup, legacy.Completed backup → backup.id ∉ state.pruning
  failed : ∀ backup, legacy.Completed backup → ∀ row ∈ state.failed, row.id ≠ backup.id

/-- The artifacts that have to stay are at their places. -/
def Whole (legacy : Legacy Host) (state : State Host) : Prop :=
  ∀ place, legacy.Holds place → state.artifacts.store place = legacy.store place

theorem upgraded_migrate (utc : TimeZone) (legacy : Legacy Host) :
    Upgraded legacy (legacy.migrate utc) := by
  refine ⟨rfl, rfl, fun backup hbackup ↦ Table.find?_of_mem hbackup.1, fun _ _ ↦ rfl, ?_, ?_⟩
  · exact fun _ _ ↦ not_mem_nil
  · exact fun _ _ row hrow ↦ absurd hrow not_mem_nil

/-- A step about a backup of which nothing has to stay. -/
theorem Upgraded.about {before after : State Host} (h : Upgraded legacy before)
    (habout : About own id before.artifacts after.artifacts)
    (hid : ∀ backup, legacy.Completed backup → backup.id ≠ id)
    (hpolicies : after.policies = before.policies) (hpruning : after.pruning ⊆ before.pruning)
    (hfailed : after.failed ⊆ before.failed) : Upgraded legacy after where
  databases := habout.databases.trans h.databases
  policies := hpolicies.trans h.policies
  rows backup hbackup := (habout.backups _ (hid backup hbackup)).trans (h.rows backup hbackup)
  executions backup hbackup :=
    (habout.executions _ (hid backup hbackup)).trans (h.executions backup hbackup)
  pruning backup hbackup hmem := h.pruning backup hbackup (hpruning hmem)
  failed backup hbackup row hrow := h.failed backup hbackup row (hfailed hrow)

theorem Whole.about {before after : State Host} (h : Whole legacy before)
    (habout : About own id before.artifacts after.artifacts)
    (hown : ∀ place, own place → ¬ legacy.Holds place) : Whole legacy after := by
  intro place hplace
  rw [habout.store place fun hmine ↦ hown place hmine hplace]
  exact h place hplace

theorem upgraded_rotateDatabase (h : Upgraded legacy state) :
    Upgraded legacy (rotateDatabase databaseId state) := by
  obtain ⟨ids, hrotated, hids⟩ := rotateDatabase_cases databaseId state
  by_cases hlegacy : ∃ backup ∈ legacy.backups.rows, backup.databaseId = databaseId
  · obtain ⟨backup, hbackup, rfl⟩ := hlegacy
    rwa [rotateDatabase_eq_self h.policies hbackup]
  · rw [hrotated]
    refine { h with pruning := fun backup hbackup hmem ↦ ?_ }
    rcases mem_append.mp hmem with hbefore | hadded
    · exact h.pruning backup hbackup hbefore
    · obtain ⟨row, hrow, hid, hdatabase⟩ := hids _ hadded
      -- the row of the id is the one from before the migration, whose database has backups there
      have hsame : some row = some backup :=
        (Table.find?_of_mem hrow).symm.trans ((congrArg _ hid).trans (h.rows backup hbackup))
      obtain rfl := some.inj hsame
      exact hlegacy ⟨row, hbackup.1, hdatabase⟩

theorem store_rotateDatabase (state : State Host) :
    (rotateDatabase databaseId state).artifacts = state.artifacts := by
  obtain ⟨ids, hrotated, -⟩ := rotateDatabase_cases databaseId state
  rw [hrotated]

theorem Upgraded.ne_of_status {row : StoredBackup} (h : Upgraded legacy state)
    (hbackup : legacy.Completed backup) (hrow : state.artifacts.backups.find? row.id = some row)
    (hstatus : row.status ≠ .completed) : backup.id ≠ row.id := by
  intro hid
  obtain rfl := some.inj ((h.rows backup hbackup).symm.trans (hid ▸ hrow))
  exact hstatus hbackup.2

theorem mem_oldFailed {now : ℤ} (h : backup ∈ state.oldFailed now) :
    backup ∈ state.artifacts.backups.rows ∧ backup.status = .failed := by
  unfold State.oldFailed at h
  split_ifs at h
  · exact absurd h not_mem_nil
  · obtain ⟨hmem, hold⟩ := mem_filter.mp h
    exact ⟨hmem, (of_decide_eq_true hold).1⟩

variable [DecidableEq Host] {sites : Sites Host}

/-- What a step keeps, and what a sparing one keeps besides. -/
theorem upgraded_next {before after : State Host} {label : Label} (h : Upgraded legacy before)
    (hnext : next sites before label = some after) :
    Upgraded legacy after ∧
      (Sparing sites legacy before label → Whole legacy before → Whole legacy after) := by
  cases label with
  | createBackup databaseId id timestamp type createdAt =>
    obtain ⟨artifacts, hcreate, rfl⟩ := map_eq_some_iff.mp hnext
    obtain ⟨habout, hfresh⟩ : About (fun _ ↦ False) id before.artifacts artifacts ∧ _ :=
      about_createBackup hcreate
    have hid : ∀ backup, legacy.Completed backup → backup.id ≠ id := fun backup hbackup hsame ↦
      Table.not_fresh_of_find? (h.rows backup hbackup) (hsame ▸ hfresh)
    exact ⟨h.about habout hid rfl (List.Subset.refl _) (List.Subset.refl _),
      fun _ hwhole ↦ hwhole.about habout fun _ ↦ False.elim⟩
  | execution id step =>
    obtain ⟨artifacts, hadvance, rfl⟩ := map_eq_some_iff.mp hnext
    have habout := about_advance hadvance
    have hexecuting := isSome_of_advance hadvance
    have hid : ∀ backup, legacy.Completed backup → backup.id ≠ id := by
      intro backup hbackup hsame
      rw [← hsame, h.executions backup hbackup] at hexecuting
      nomatch hexecuting
    exact ⟨h.about habout hid rfl (List.Subset.refl _) (List.Subset.refl _),
      fun hspares hwhole ↦ hwhole.about habout hspares⟩
  | postBackup databaseId =>
    obtain rfl := some.inj hnext
    refine ⟨upgraded_rotateDatabase databaseId h, fun _ hwhole place hplace ↦ ?_⟩
    rw [store_rotateDatabase]
    exact hwhole place hplace
  | sweep databaseId =>
    obtain ⟨-, hsome⟩ := ite_none_right_eq_some.mp hnext
    obtain rfl := some.inj hsome
    refine ⟨upgraded_rotateDatabase databaseId h, fun _ hwhole place hplace ↦ ?_⟩
    rw [store_rotateDatabase]
    exact hwhole place hplace
  | prune id calls =>
    obtain ⟨hpending, hsome⟩ := ite_none_right_eq_some.mp hnext
    obtain ⟨artifacts, hprune, rfl⟩ := map_eq_some_iff.mp hsome
    have habout := about_pruneBackup hprune
    have hid : ∀ backup, legacy.Completed backup → backup.id ≠ id := fun backup hbackup hsame ↦
      h.pruning backup hbackup (hsame ▸ hpending)
    exact ⟨h.about habout hid rfl erase_subset (List.Subset.refl _),
      fun hspares hwhole ↦ hwhole.about habout fun place ⟨row, hrow, db, hdb, hplace⟩ ↦
        hspares row hrow db place hdb hplace⟩
  | findStuck _ | changeDefaults _ =>
    obtain rfl := some.inj hnext
    exact ⟨{ h with }, fun _ hwhole ↦ hwhole⟩
  | markStuck id =>
    obtain ⟨-, hsome⟩ := ite_none_right_eq_some.mp hnext
    have hskipped : Upgraded legacy { before with stuck := before.stuck.erase id } := { h with }
    cases hrow : before.artifacts.backups.find? id with
    | none =>
      rw [hrow] at hsome
      obtain rfl := some.inj hsome
      exact ⟨hskipped, fun _ hwhole ↦ hwhole⟩
    | some row =>
      rw [hrow] at hsome
      by_cases hprogress : row.status = .inProgress
      · obtain rfl := some.inj ((if_pos hprogress).symm.trans hsome)
        have hkey : row.id = id := (Table.find?_eq_some_iff.mp hrow).2
        have hid : ∀ backup, legacy.Completed backup → backup.id ≠ id := fun backup hbackup ↦
          hkey ▸ h.ne_of_status hbackup (hkey.symm ▸ hrow) (hprogress ▸ nofun)
        have habout : About (fun _ ↦ False) id before.artifacts { before.artifacts with
            backups := setStatus before.artifacts.backups id .failed } :=
          (About.refl _ id before.artifacts).setStatus
        exact ⟨h.about habout hid rfl (List.Subset.refl _) (List.Subset.refl _),
          fun _ hwhole ↦ hwhole.about habout fun _ ↦ False.elim⟩
      · obtain rfl := some.inj ((if_neg hprogress).symm.trans hsome)
        exact ⟨hskipped, fun _ hwhole ↦ hwhole⟩
  | findFailed now =>
    obtain rfl := some.inj hnext
    refine ⟨{ h with failed := fun backup hbackup row hrow ↦ ?_ }, fun _ hwhole ↦ hwhole⟩
    rcases mem_append.mp hrow with hbefore | hadded
    · exact h.failed backup hbackup row hbefore
    · obtain ⟨hmem, hfailed⟩ := mem_oldFailed hadded
      exact (h.ne_of_status hbackup (Table.find?_of_mem hmem) (hfailed ▸ nofun)).symm
  | cleanup backup calls =>
    obtain ⟨hpending, hsome⟩ := ite_none_right_eq_some.mp hnext
    obtain ⟨artifacts, hcleanup, rfl⟩ := map_eq_some_iff.mp hsome
    have habout := about_cleanup hcleanup
    have hid : ∀ kept, legacy.Completed kept → kept.id ≠ backup.id := fun kept hkept ↦
      (h.failed kept hkept backup hpending).symm
    exact ⟨h.about habout hid rfl (List.Subset.refl _) erase_subset,
      fun hspares hwhole ↦ hwhole.about habout fun place ⟨db, hdb, hplace⟩ ↦
        hspares db place hdb hplace⟩

omit [DecidableEq Host] in
theorem intact_of_upgraded (h : Upgraded legacy state) (hwhole : Whole legacy state)
    (hbackup : legacy.Completed backup) : Intact legacy state backup where
  row := h.rows backup hbackup
  artifact place artifact hstore howner :=
    (hwhole place ⟨backup, artifact, hbackup, hstore, howner⟩).trans hstore

/-- In every run behind the migration, the backups that were completed before it keep their rows;
and in every run of sparing steps they keep their artifacts, too. -/
theorem intact_of_run (utc : TimeZone) (legacy : Legacy Host) {labels : List Label}
    {final : State Host} (hrun : (machine sites).run (legacy.migrate utc) labels = some final) :
    (∀ backup, legacy.Completed backup → final.artifacts.backups.find? backup.id = some backup) ∧
    ((machine sites).Meets (Sparing sites legacy) (legacy.migrate utc) labels →
      ∀ backup, legacy.Completed backup → Intact legacy final backup) := by
  have hupgraded : Upgraded legacy final :=
    Machine.induction (motive := fun _ state ↦ Upgraded legacy state) (upgraded_migrate utc legacy)
      (fun _ _ _ _ hbefore hnext ↦ (upgraded_next hbefore hnext).1) hrun
  refine ⟨hupgraded.rows, fun hspares backup hbackup ↦ ?_⟩
  have hwhole : Upgraded legacy final ∧ Whole legacy final :=
    Machine.induction_of_meets (motive := fun _ state ↦ Upgraded legacy state ∧ Whole legacy state)
      ⟨upgraded_migrate utc legacy, fun _ _ ↦ rfl⟩
      (fun _ _ _ _ _ hbefore hlabel hnext ↦ (upgraded_next hbefore.1 hnext).imp_right
        fun hkeeps ↦ hkeeps hlabel hbefore.2) hrun hspares
  exact intact_of_upgraded hupgraded hwhole.2 hbackup

/-- A backup of a database from before the migration, in progress from a timestamp on. -/
def backupAt (db : StoredDatabase) (id timestamp : String) (status : BackupStatus) : StoredBackup :=
  ⟨id, db.id, backupFilename db.toDatabase timestamp, db.backupStorageType,
    storagePathOf db timestamp, status⟩

def nightlyFile : Place (Option String) :=
  .file none (storagePathOf (postgresDatabase "localhost") "2026-06-24T02-00-00-000Z")

def nightlyAndManual (timestamp : String) : Legacy (Option String) where
  databases := ⟨[postgresDatabase "localhost"], by decide +kernel⟩
  backups :=
    ⟨[backupAt (postgresDatabase "localhost") "nightly" "2026-06-24T02-00-00-000Z" .completed,
      backupAt (postgresDatabase "localhost") "manual" timestamp .failed],
    by simp [backupAt, Keyed.id]⟩
  details _ := ⟨.scheduled, 0, 0, false⟩
  schedules := ⟨[⟨"db", 7⟩], nodup_singleton _⟩
  pgDumpTimeoutMs := 300000
  store := Function.update (fun _ ↦ none) nightlyFile (some ⟨"nightly", "CREATE TABLE app;"⟩)
  housed backup hbackup := by
    have hdatabase : backup.databaseId = "db" := by
      rcases mem_pair.mp hbackup with rfl | rfl
      · rfl
      · rfl
    rw [hdatabase]
    rfl

/-- The first night behind the migration, with a new backup of the database. -/
def firstNight (timestamp : String) : List Label :=
  [.sweep "db", .findFailed 1000000000,
    .cleanup (backupAt (postgresDatabase "localhost") "manual" timestamp .failed) deletion,
    .createBackup "db" "next" "2026-06-25T02-00-00-000Z" .scheduled 1000000000,
    .execution "next" .execute, .execution "next" (.dump "CREATE TABLE app;"),
    .execution "next" (.complete 17), .postBackup "db"]

/-- UTC, for runs that look at no date. -/
def anyDate : TimeZone :=
  fun _ ↦ ⟨2026, 6, 24⟩

/-- A sufficient check of a step. -/
def spares (state : State (Option String)) : Label → Bool
  | .execution id _ =>
    (executionPlaces plainSites id state.artifacts).all fun place ↦ place ≠ nightlyFile
  | .prune _ _ => false
  | .cleanup backup _ =>
    match state.artifacts.databases.find? backup.databaseId with
    | some db => artifactPlace plainSites db.toDatabase backup ≠ some nightlyFile
    | none => true
  | _ => true

theorem eq_nightlyFile {place : Place (Option String)}
    (h : (nightlyAndManual timestamp).Holds place) : place = nightlyFile := by
  obtain ⟨backup, artifact, -, hstore, -⟩ := h
  by_contra hne
  have hnone : (nightlyAndManual timestamp).store place = none := by
    simp [nightlyAndManual, hne]
  cases hstore.symm.trans hnone

theorem sparing_of_spares (state : State (Option String)) (label : Label) (h : spares state label) :
    Sparing plainSites (nightlyAndManual timestamp) state label := by
  cases label with
  | execution id step =>
    intro place hplace hholds
    exact of_decide_eq_true (all_eq_true.mp h place hplace) (eq_nightlyFile hholds)
  | prune id calls => nomatch h
  | cleanup backup calls =>
    intro db place hdb hplace hholds
    simp only [spares, hdb] at h
    exact of_decide_eq_true h (eq_nightlyFile hholds ▸ hplace)
  | _ => exact trivial

/-- The clean-up of a failed backup from another time. -/
theorem intact_firstNight : ∃ final, (machine plainSites).run
    ((nightlyAndManual "2026-06-24T12-00-00-000Z").migrate anyDate)
      (firstNight "2026-06-24T12-00-00-000Z") = some final ∧
    ∀ backup, (nightlyAndManual "2026-06-24T12-00-00-000Z").Completed backup →
      Intact (nightlyAndManual "2026-06-24T12-00-00-000Z") final backup := by
  have hruns : ((machine plainSites).run
      ((nightlyAndManual "2026-06-24T12-00-00-000Z").migrate anyDate)
        (firstNight "2026-06-24T12-00-00-000Z")).isSome := by
    decide +kernel
  obtain ⟨final, hfinal⟩ := isSome_iff_exists.mp hruns
  refine ⟨final, hfinal, (intact_of_run anyDate _ hfinal).2 ?_⟩
  refine Machine.meets_of_checks sparing_of_spares ?_
  decide +kernel

/-- The clean-up of a failed backup from the same millisecond removes the file of the completed
one. -/
theorem not_intact_sameMillisecond : ∃ final, (machine plainSites).run
    ((nightlyAndManual "2026-06-24T02-00-00-000Z").migrate anyDate)
      (firstNight "2026-06-24T02-00-00-000Z") = some final ∧
    ¬ ∀ backup, (nightlyAndManual "2026-06-24T02-00-00-000Z").Completed backup →
      Intact (nightlyAndManual "2026-06-24T02-00-00-000Z") final backup := by
  have hremoved : ((machine plainSites).run
      ((nightlyAndManual "2026-06-24T02-00-00-000Z").migrate anyDate)
        (firstNight "2026-06-24T02-00-00-000Z")).map
          (fun final ↦ final.artifacts.store nightlyFile) = some none := by
    decide +kernel
  obtain ⟨final, hfinal, hnone⟩ := map_eq_some_iff.mp hremoved
  refine ⟨final, hfinal, fun hintact ↦ ?_⟩
  have hcompleted : (nightlyAndManual "2026-06-24T02-00-00-000Z").Completed
      (backupAt (postgresDatabase "localhost") "nightly" "2026-06-24T02-00-00-000Z" .completed) :=
    ⟨mem_cons_self, rfl⟩
  have hkept := (hintact _ hcompleted).artifact nightlyFile ⟨"nightly", "CREATE TABLE app;"⟩
    (by simp [nightlyAndManual]) rfl
  cases hnone.symm.trans hkept

end Bridgeport.Backup.Upgrade
