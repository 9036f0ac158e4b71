import Bridgeport.ConfigSync.SyncBatch

/-!
# What a rolled-back batch leaves behind

The forward pass pushes the content that the rows already hold, and the snapshot that the rollback
restores is that same content. The rollback therefore writes the content of the forward pass once
more: `hosts_executeBatch` reads the final content of a host file off the first attempted operation
that writes it. `restored_iff` says what follows: a batch that ends `rolled_back` leaves the hosts
as they were exactly when the forward pass found every file with the content it left there.
-/

namespace Bridgeport.ConfigSync

open Foundation Secrets List Option

section

variable {Blob Host : Type*} (rendering : Rendering Blob)
  (hostOf : Server → Host) (faults : BatchFaults Blob) (table : ConfigFileTable)
  (operations : List String)

/-- What the forward pass records for the operation at an index, and the writes of its sync. -/
def attemptAt (index : ℕ) : OperationReport × List (HostWrite Host Blob) :=
  attemptOperation rendering hostOf faults table index (operations.getD index "")

/-- The forward pass reaches the operation at an index: all operations before it end `ok`. -/
def Attempted (index : ℕ) : Prop :=
  index < operations.length ∧
    ∀ earlier < index, (attemptAt rendering hostOf faults table operations earlier).1.status = .ok

/-- The rendered contents of the config file of an operation, on all its targets. -/
def pushOf (configFileId : String) : List (HostWrite Host Blob) :=
  ((table.find configFileId).map (fullPush rendering hostOf)).getD []

variable {rendering hostOf faults table operations} {configFileId : String}

/-- An operation that ends `ok` has pushed its config file. -/
theorem writes_attemptOperation_of_ok {index : ℕ}
    (hok : (attemptOperation rendering hostOf faults table index configFileId).1.status = .ok) :
    (attemptOperation rendering hostOf faults table index configFileId).2 =
      pushOf rendering hostOf table configFileId := by
  unfold attemptOperation at hok ⊢
  unfold pushOf
  rcases hfind : table.find configFileId with _ | configFile
  · rfl
  · simp only [hfind] at hok ⊢
    rcases hanswer : (syncConfigFile rendering hostOf (faults.forward index)
        (some configFile)).answer with message | _ | outcome
    · simp [hanswer] at hok
    · simp [hanswer] at hok
    · simp only [hanswer] at hok ⊢
      split_ifs at hok ⊢ with hstatus
      exact writes_of_ok hanswer (not_not.mp hstatus)

theorem fst_mem_targetFiles_of_attempt {index : ℕ} {write : HostWrite Host Blob}
    (hwrite : write ∈ (attemptOperation rendering hostOf faults table index configFileId).2) :
    ∃ configFile, table.find configFileId = some configFile ∧
      write.1 ∈ targetFiles hostOf configFile := by
  unfold attemptOperation at hwrite
  rcases hfind : table.find configFileId with _ | configFile
  · simp [hfind] at hwrite
  · refine ⟨configFile, rfl, fst_mem_targetFiles rendering (faults.forward index) configFile ?_⟩
    simp only [hfind] at hwrite
    rcases hanswer : (syncConfigFile rendering hostOf (faults.forward index)
        (some configFile)).answer with message | _ | outcome
    · simpa only [hanswer] using hwrite
    · simpa only [hanswer] using hwrite
    · simp only [hanswer] at hwrite
      split_ifs at hwrite
      · exact hwrite
      · exact hwrite

/-- With a first failure at an index, the operations up to it are the attempted ones. -/
theorem attempted_iff_le {last : ℕ} (hlast : last < operations.length)
    (hok : ∀ index < last,
      (attemptAt rendering hostOf faults table operations index).1.status = .ok)
    (hfailing : (attemptAt rendering hostOf faults table operations last).1.status ≠ .ok)
    (index : ℕ) : Attempted rendering hostOf faults table operations index ↔ index ≤ last := by
  constructor
  · intro hattempted
    by_contra hlater
    exact hfailing (hattempted.2 last (Nat.lt_of_not_le hlater))
  · intro hle
    exact ⟨Nat.lt_of_le_of_lt hle hlast,
      fun earlier hearlier ↦ hok earlier (Nat.lt_of_lt_of_le hearlier hle)⟩

variable [DecidableEq Host]

/-- The forward pass of a batch with rollback meets no failure, or stops at the first operation that
does not end `ok`; the operations before it have pushed their config files. -/
theorem forwardPass_spec (rest : List String) (index : ℕ) (state : ForwardState Host Blob)
    (result : ForwardState Host Blob)
    (hresult : forwardPass rendering hostOf faults table true index rest state = result) :
    result.firstFailureIndex = state.firstFailureIndex ∨
      ∃ before failing after, rest = before ++ failing :: after ∧
        (∀ offset configFileId, before[offset]? = some configFileId →
          (attemptOperation rendering hostOf faults table (index + offset)
            configFileId).1.status = .ok) ∧
        (attemptOperation rendering hostOf faults table (index + before.length)
          failing).1.status ≠ .ok ∧
        result.hosts = applyWrites ((before.map (pushOf rendering hostOf table)).flatten ++
          (attemptOperation rendering hostOf faults table (index + before.length) failing).2)
            state.hosts ∧
        result.succeededOps = state.succeededOps ++ List.range' index before.length := by
  induction rest generalizing index state with
  | nil =>
    rw [forwardPass] at hresult
    exact .inl (by rw [← hresult])
  | cons first rest ih =>
    unfold forwardPass at hresult
    simp only [if_true] at hresult
    split_ifs at hresult with hok
    · rcases ih (index + 1) _ hresult with hnone |
        ⟨before, failing, after, hrest, hsucceeded, hfailing, hhosts, hops⟩
      · exact .inl hnone
      · refine .inr ⟨first :: before, failing, after, by rw [hrest, cons_append], ?_, ?_, ?_, ?_⟩
        · intro offset configFileId hat
          cases offset with
          | zero =>
            rw [List.getElem?_cons_zero] at hat
            rw [← some.inj hat]
            exact hok
          | succ offset =>
            rw [List.getElem?_cons_succ] at hat
            rw [Nat.add_comm offset, ← Nat.add_assoc]
            exact hsucceeded offset configFileId hat
        · rw [length_cons, Nat.add_comm before.length, ← Nat.add_assoc]
          exact hfailing
        · rw [hhosts, length_cons, Nat.add_comm before.length 1, ← Nat.add_assoc, map_cons,
            flatten_cons, append_assoc, applyWrites_append (pushOf rendering hostOf table first),
            writes_attemptOperation_of_ok hok]
        · rw [hops, length_cons, range'_succ, append_assoc, singleton_append]
    · refine .inr ⟨[], first, rest, rfl, nofun, hok, ?_, ?_⟩
      · rw [← hresult, map_nil, flatten_nil, nil_append]
        rfl
      · rw [← hresult, length_nil, range'_zero, append_nil]

/-- Restoring the content that a row holds changes nothing. -/
theorem restore_eq_self {snapshot : ConfigFile} (hfind : table.find configFileId = some snapshot) :
    table.restore configFileId snapshot = table := by
  have hrows : table.rows.map (restoreRow configFileId snapshot) = table.rows := by
    refine (map_congr_left fun row hrow ↦ ?_).trans (map_id _)
    unfold restoreRow
    split_ifs with hid
    · have hsnapshot : snapshot.id = configFileId := by simpa using List.find?_some hfind
      have hsame : row = snapshot :=
        inj_on_of_nodup_map table.nodup_ids hrow (mem_of_find?_eq_some hfind)
          (hid.trans hsnapshot.symm)
      rw [hsame]
      rfl
    · rfl
  exact ConfigFileTable.ext hrows

/-- The rollback of one operation leaves the rows as they are, and an operation that is not marked
as failed to roll back has pushed its config file again. -/
theorem undoOperation_spec (state : UndoState Host Blob) (hrows : state.table = table)
    (index : ℕ) (result : UndoState Host Blob)
    (hresult : undoOperation rendering hostOf faults table operations state index = result) :
    result.table = table ∧ (result.anyRollbackFailed = false →
      state.anyRollbackFailed = false ∧
        result.hosts =
          applyWrites (pushOf rendering hostOf table (operations.getD index "")) state.hosts) := by
  unfold undoOperation at hresult
  unfold pushOf
  have hmarked : ∀ marked : UndoState Host Blob, marked.table = table →
      (marked.mark index .rollbackFailed).table = table ∧
        ((marked.mark index .rollbackFailed).anyRollbackFailed = false →
          state.anyRollbackFailed = false ∧ (marked.mark index .rollbackFailed).hosts =
            applyWrites (((table.find (operations.getD index "")).map
              (fullPush rendering hostOf)).getD []) state.hosts) := by
    refine fun marked hmarked ↦ ⟨hmarked, fun hclean ↦ ?_⟩
    simp [UndoState.mark] at hclean
  rcases hfind : table.find (operations.getD index "") with _ | snapshot
  · simp only [hfind] at hresult hmarked ⊢
    rw [← hresult]
    exact hmarked state hrows
  · rcases htransaction : faults.undoTransaction index with _ | message
    · simp only [hfind, htransaction, hrows, restore_eq_self hfind] at hresult hmarked
      rcases hanswer : (syncConfigFile rendering hostOf (faults.undo index)
          (some snapshot)).answer with message | _ | outcome
      · simp only [hanswer] at hresult
        rw [← hresult]
        exact hmarked _ rfl
      · simp only [hanswer] at hresult
        rw [← hresult]
        exact hmarked _ rfl
      · simp only [hanswer] at hresult
        split_ifs at hresult with hstatus
        · rw [← hresult]
          exact hmarked _ rfl
        · rw [← hresult]
          refine ⟨rfl, fun hclean ↦ ⟨?_, ?_⟩⟩
          · simpa [UndoState.mark] using hclean
          · show applyWrites (syncConfigFile rendering hostOf (faults.undo index)
              (some snapshot)).writes state.hosts = _
            rw [writes_of_ok hanswer (not_not.mp hstatus)]
            rfl
    · simp only [hfind, htransaction] at hresult hmarked
      rw [← hresult]
      exact hmarked state hrows

/-- A rollback that is not marked as failed has pushed the config files of all its operations, in
order. -/
theorem foldl_undoOperation (indices : List ℕ) (state : UndoState Host Blob)
    (hrows : state.table = table) (result : UndoState Host Blob)
    (hresult : indices.foldl (undoOperation rendering hostOf faults table operations) state =
      result) :
    result.table = table ∧ (result.anyRollbackFailed = false →
      state.anyRollbackFailed = false ∧
        result.hosts = applyWrites (indices.map fun index ↦
          pushOf rendering hostOf table (operations.getD index "")).flatten state.hosts) := by
  induction indices generalizing state with
  | nil =>
    rw [foldl_nil] at hresult
    rw [← hresult]
    exact ⟨hrows, fun hclean ↦ ⟨hclean, rfl⟩⟩
  | cons index indices ih =>
    rw [foldl_cons] at hresult
    obtain ⟨hrows', hfirst⟩ := undoOperation_spec state hrows index
      (undoOperation rendering hostOf faults table operations state index) rfl
    obtain ⟨htable, hrest⟩ := ih _ hrows' hresult
    refine ⟨htable, fun hclean ↦ ?_⟩
    obtain ⟨hkept, hhosts⟩ := hrest hclean
    obtain ⟨hstart, hpushed⟩ := hfirst hkept
    refine ⟨hstart, ?_⟩
    rw [hhosts, hpushed, map_cons, flatten_cons, applyWrites_append]

variable (rendering hostOf faults table operations)

def writesAt (index : ℕ) : List (HostWrite Host Blob) :=
  (attemptAt rendering hostOf faults table operations index).2

def rollbackBatch (history : List FileHistory) (hosts : Hosts Host Blob) : BatchRun Host Blob :=
  executeBatch rendering hostOf faults table history hosts ⟨operations, true⟩

variable {rendering hostOf faults table operations} {hosts : Hosts Host Blob}

theorem forwardPass_batch {result : ForwardState Host Blob}
    (hresult : forwardPass rendering hostOf faults table true 0 operations ⟨hosts, [], [], none⟩ =
      result) :
    result.firstFailureIndex = none ∨
      ∃ last, last < operations.length ∧
        (∀ index < last,
          (attemptAt rendering hostOf faults table operations index).1.status = .ok) ∧
        (attemptAt rendering hostOf faults table operations last).1.status ≠ .ok ∧
        result.hosts = applyWrites
          (((List.range last).map (writesAt rendering hostOf faults table operations)).flatten ++
            writesAt rendering hostOf faults table operations last) hosts ∧
        result.succeededOps = List.range last := by
  rcases forwardPass_spec operations 0 _ result hresult with hnone |
    ⟨before, failing, after, hoperations, hsucceeded, hfailing, hhosts, hops⟩
  · exact .inl hnone
  · have hat : ∀ index < before.length, before[index]? = some (operations.getD index "") := by
      intro index hindex
      rw [getD_eq_getElem?_getD, hoperations, List.getElem?_append_left hindex,
        List.getElem?_eq_getElem hindex, getD_some]
    have hlast : operations.getD before.length "" = failing := by
      rw [hoperations, getD_eq_getElem?_getD, List.getElem?_append_right (Nat.le_refl _),
        Nat.sub_self, List.getElem?_cons_zero, getD_some]
    have hok : ∀ index < before.length,
        (attemptAt rendering hostOf faults table operations index).1.status = .ok := by
      intro index hindex
      have hstatus := hsucceeded index _ (hat index hindex)
      rw [Nat.zero_add] at hstatus
      exact hstatus
    have hpushed : before.map (pushOf rendering hostOf table) =
        (List.range before.length).map (writesAt rendering hostOf faults table operations) := by
      refine ext_getElem (by rw [length_map, length_map, length_range]) ?_
      intro index hindex _
      rw [length_map] at hindex
      have hsame := (List.getElem?_eq_getElem hindex).symm.trans (hat index hindex)
      rw [getElem_map, getElem_map, getElem_range, some.inj hsame]
      exact (writes_attemptOperation_of_ok (hok index hindex)).symm
    rw [Nat.zero_add] at hfailing hhosts
    refine .inr ⟨before.length, ?_, hok, ?_, ?_, ?_⟩
    · rw [hoperations, length_append, length_cons]
      exact Nat.lt_add_of_pos_right (Nat.succ_pos _)
    · unfold attemptAt
      rw [hlast]
      exact hfailing
    · rw [hhosts, hpushed]
      unfold writesAt attemptAt
      rw [hlast]
    · rw [hops, nil_append, range_eq_range']

/-- A batch that ends `rolled_back` has attempted the operations up to an index, and a host file
ends with the last write of the first of them that writes it. The rows are as they were. -/
theorem hosts_rollbackBatch {history : List FileHistory}
    (hrolled : (rollbackBatch rendering hostOf faults table operations history hosts).status =
      .rolledBack) :
    ∃ last, (∀ index, Attempted rendering hostOf faults table operations index ↔ index ≤ last) ∧
      (rollbackBatch rendering hostOf faults table operations history hosts).table = table ∧
      ∀ file, (rollbackBatch rendering hostOf faults table operations history hosts).hosts file =
        (((List.range (last + 1)).map (writesAt rendering hostOf faults table
          operations)).findSome? (lastWrite file)).getD (hosts file) := by
  unfold rollbackBatch executeBatch at hrolled ⊢
  by_cases hspans : spansEnvironments table operations = true
  · simp only [hspans, if_true] at hrolled
    cases hrolled
  · simp only [hspans, if_false, Bool.false_eq_true, if_true] at hrolled ⊢
    set forward := forwardPass rendering hostOf faults table true 0 operations
      ⟨hosts, [], [], none⟩ with hforward
    rcases hfailure : forward.firstFailureIndex with _ | first
    · rw [hfailure] at hrolled
      cases hrolled
    · simp only [hfailure] at hrolled ⊢
      rcases forwardPass_batch hforward.symm with hnone | ⟨last, hlast, hok, hfailing, hhosts, hops⟩
      · rw [hfailure] at hnone
        cases hnone
      · set start : UndoState Host Blob := ⟨forward.hosts, table, history, _, false⟩
        set undone := forward.succeededOps.reverse.foldl
          (undoOperation rendering hostOf faults table operations) start with hundone
        obtain ⟨htable, hclean⟩ := foldl_undoOperation forward.succeededOps.reverse start rfl undone
          hundone.symm
        rcases hmarked : undone.anyRollbackFailed with _ | _
        · refine ⟨last, attempted_iff_le hlast hok hfailing, htable, fun file ↦ ?_⟩
          have hreplayed : forward.succeededOps.reverse.map (fun index ↦
              pushOf rendering hostOf table (operations.getD index "")) =
              ((List.range last).map
                (writesAt rendering hostOf faults table operations)).reverse := by
            rw [hops, map_reverse]
            refine congrArg List.reverse (map_congr_left fun index hindex ↦ ?_)
            exact (writes_attemptOperation_of_ok (hok index (mem_range.mp hindex))).symm
          obtain ⟨-, hpushed⟩ := hclean hmarked
          show undone.hosts file = _
          rw [hpushed, hreplayed]
          show applyWrites _ forward.hosts file = _
          rw [hhosts, ← applyWrites_append, applyWrites_replay, range_succ, map_append,
            map_singleton]
        · rw [hmarked] at hrolled
          cases hrolled

variable (rendering hostOf faults table operations)

/-- After the batch the rows are as they were, and so is every host file that an attempted operation
could write. -/
def Restored (history : List FileHistory) (hosts : Hosts Host Blob) : Prop :=
  let run := rollbackBatch rendering hostOf faults table operations history hosts
  run.table = table ∧
    ∀ index, Attempted rendering hostOf faults table operations index →
      ∀ configFile, table.find (operations.getD index "") = some configFile →
        ∀ file ∈ targetFiles hostOf configFile, run.hosts file = hosts file

/-- The first attempted operation that writes a host file finds there what it leaves there. -/
def AlreadyInPlace (hosts : Hosts Host Blob) : Prop :=
  ∀ index, Attempted rendering hostOf faults table operations index →
    ∀ file, (∀ earlier < index,
      lastWrite file (writesAt rendering hostOf faults table operations earlier) = none) →
      ∀ content, lastWrite file (writesAt rendering hostOf faults table operations index) =
        some content → hosts file = content

variable {rendering hostOf faults table operations}

/-- A batch that ends `rolled_back` leaves the hosts as they were if and only if its forward pass
found every file as it left it. -/
theorem restored_iff {history : List FileHistory} {hosts : Hosts Host Blob}
    (hrolled : (rollbackBatch rendering hostOf faults table operations history hosts).status =
      .rolledBack) :
    Restored rendering hostOf faults table operations history hosts ↔
      AlreadyInPlace rendering hostOf faults table operations hosts := by
  obtain ⟨last, hattempted, htable, hhosts⟩ := hosts_rollbackBatch hrolled
  constructor
  · rintro ⟨-, hrestored⟩ index hindex file hfirst content hcontent
    have hwritten : ((List.range (last + 1)).map (writesAt rendering hostOf faults table
        operations)).findSome? (lastWrite file) = some content :=
      (findSome?_lastWrite_range _ _ _ _).mpr
        ⟨index, Nat.lt_succ_of_le ((hattempted index).mp hindex), hcontent, hfirst⟩
    have hmem : file ∈ (writesAt rendering hostOf faults table operations index).map Prod.fst := by
      by_contra hnot
      rw [(lastWrite_eq_none_iff file _).mpr hnot] at hcontent
      nomatch hcontent
    obtain ⟨write, hwrite, hfile⟩ := mem_map.mp hmem
    obtain ⟨configFile, hfind, htarget⟩ := fst_mem_targetFiles_of_attempt hwrite
    have hsame := hrestored index hindex configFile hfind file (hfile ▸ htarget)
    rw [hhosts, hwritten, getD_some] at hsame
    exact hsame.symm
  · intro hinPlace
    refine ⟨htable, fun _ _ _ _ file _ ↦ ?_⟩
    rw [hhosts]
    rcases hwritten : ((List.range (last + 1)).map (writesAt rendering hostOf faults table
        operations)).findSome? (lastWrite file) with _ | content
    · rfl
    · obtain ⟨index, hindex, hcontent, hfirst⟩ :=
        (findSome?_lastWrite_range _ _ _ _).mp hwritten
      have hattemptedAt := (hattempted index).mpr (Nat.le_of_lt_succ hindex)
      exact (hinPlace index hattemptedAt file hfirst content hcontent).symm

end

/-! ### A batch of two config files -/

/-- The batch in which nothing goes wrong by itself. -/
def noBatchFaults : BatchFaults Text :=
  ⟨fun _ ↦ .none, fun _ ↦ none, fun _ ↦ .none⟩

/-- A config file on one server, at `/etc/app.conf`. -/
def attachedFile : ConfigFile where
  id := "app"
  name := "app.conf"
  environmentId := "production"
  content := ['n', 'e', 'w']
  isBinary := false
  language := none
  includedFragments := []
  services :=
    [{ id := "attachment", targetPath := "/etc/app.conf", serviceId := "api", serviceName := "api",
       serviceDeployments := [⟨"api-web", ⟨"web", "web", "10.0.0.1", "remote", "production"⟩⟩],
       serviceDeployment := none }]

def orphanFile : ConfigFile :=
  { attachedFile with id := "orphan", name := "orphan.conf", services := [] }

def twoFiles : ConfigFileTable where
  rows := [attachedFile, orphanFile]
  nodup_ids := by decide

/-- The host file of the attached config file ends with the content of the database, although the
batch ends `rolled_back`. -/
theorem not_restored_twoFiles :
    (rollbackBatch plainRendering Server.hostname noBatchFaults twoFiles ["app", "orphan"] []
      (fun _ ↦ some ['o', 'l', 'd'])).status = .rolledBack ∧
    (rollbackBatch plainRendering Server.hostname noBatchFaults twoFiles ["app", "orphan"] []
      (fun _ ↦ some ['o', 'l', 'd'])).hosts ("10.0.0.1", "/etc/app.conf") = some ['n', 'e', 'w'] ∧
    ¬ Restored plainRendering Server.hostname noBatchFaults twoFiles ["app", "orphan"] []
      (fun _ ↦ some ['o', 'l', 'd']) := by
  have hhost : (rollbackBatch plainRendering Server.hostname noBatchFaults twoFiles
      ["app", "orphan"] [] (fun _ ↦ some ['o', 'l', 'd'])).hosts ("10.0.0.1", "/etc/app.conf") =
        some ['n', 'e', 'w'] := by decide
  refine ⟨by decide, hhost, fun hrestored ↦ ?_⟩
  have hsame := hrestored.2 0 ⟨by decide, nofun⟩ attachedFile rfl
    ("10.0.0.1", "/etc/app.conf") (by decide)
  rw [hhost] at hsame
  exact absurd hsame (by decide)

/-- A host that already holds the content of the database is as it was. -/
theorem restored_twoFiles :
    Restored plainRendering Server.hostname noBatchFaults twoFiles ["app", "orphan"] []
      (fun _ ↦ some ['n', 'e', 'w']) := by
  refine (restored_iff (by decide)).mpr fun index hindex file _ content hcontent ↦ ?_
  have hfirst : writesAt plainRendering Server.hostname noBatchFaults twoFiles ["app", "orphan"] 0 =
      [(("10.0.0.1", "/etc/app.conf"), some ['n', 'e', 'w'])] := by decide
  have hsecond : writesAt plainRendering Server.hostname noBatchFaults twoFiles
      ["app", "orphan"] 1 = [] := by decide
  rcases Nat.le_one_iff_eq_zero_or_eq_one.mp (Nat.le_of_lt_succ hindex.1) with hzero | hone
  · rw [hzero, hfirst, ← nil_append [_], lastWrite_concat, lastWrite_nil] at hcontent
    split_ifs at hcontent with hfile
    exact some.inj hcontent
  · rw [hone, hsecond, lastWrite_nil] at hcontent
    nomatch hcontent

end Bridgeport.ConfigSync
