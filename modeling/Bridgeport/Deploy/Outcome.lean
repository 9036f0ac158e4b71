import Bridgeport.Deploy.Phases

/-!
# The outcome of a deployment

A `Ledger` is what a run of `deployService` leaves behind: the statuses of its deployment row, the
container image history entries and the webhook events. `OutcomeTruthful` says that they agree on
one outcome.
-/

namespace Bridgeport.Deploy

open Foundation Program

/-! ### What a run leaves behind -/

/-- How a deployment ends. -/
inductive Outcome
  | success
  | failed

def Outcome.deploymentStatus : Outcome → DeploymentStatus
  | .success => .success
  | .failed => .failed

/-- The status of the container image history entry. -/
def Outcome.historyStatus : Outcome → HistoryStatus
  | .success => .success
  | .failed => .failed

def Outcome.webhookEvent : Outcome → WebhookEvent
  | .success => .deploymentCompleted
  | .failed => .deploymentFailed

/-- What a run has recorded so far: its deployment row and the statuses written to deployment rows,
the history entries, the webhook events, and whether a bookkeeping call has thrown. -/
structure Ledger where
  row : Option String
  writes : List (String × DeploymentStatus)
  histories : List HistoryStatus
  webhooks : List WebhookEvent
  bookkeepingThrew : Bool

def Ledger.empty : Ledger :=
  ⟨none, [], [], [], false⟩

/-- The calls behind the outcome that may throw: the digest lookup and the notification after the
row is a success, and the history entry and the notification of a failure. -/
def Bookkeeping (request : Call) : Prop :=
  match request with
  | .findImageDigest _ | .sendSystemNotification _ _ _ => True
  | .createContainerImageHistory data => data.status = .failed
  | _ => False

/-- The writes of deployment rows. -/
def DeploymentWrite (request : Call) : Prop :=
  match request with
  | .createDeployment _ | .updateDeployment _ _ _ => True
  | _ => False

variable (ledger : Ledger) (event : Event Answer)

def Ledger.record : Ledger :=
  match event with
  | ⟨.createDeployment data, .ok row⟩ =>
    { ledger with row := some row.id, writes := ledger.writes ++ [(row.id, data.status)] }
  | ⟨.updateDeployment id status _, .ok _⟩ =>
    { ledger with writes := ledger.writes ++ [(id, status)] }
  | ⟨.createContainerImageHistory data, .ok _⟩ =>
    { ledger with histories := ledger.histories ++ [data.status] }
  | ⟨.createContainerImageHistory data, .error _⟩ =>
    { ledger with bookkeepingThrew := ledger.bookkeepingThrew || data.status = .failed }
  | ⟨.findImageDigest _, .error _⟩ => { ledger with bookkeepingThrew := true }
  | ⟨.sendSystemNotification _ _ _, .error _⟩ => { ledger with bookkeepingThrew := true }
  | ⟨.emitWebhookEvent event _ _, _⟩ => { ledger with webhooks := ledger.webhooks ++ [event] }
  | _ => ledger

/-- Any call may throw, except the writes of deployment rows. -/
def outcomeSemantics : Semantics Answer Ledger where
  allows _ event := DeploymentWrite event.call → event.threw = false
  after := Ledger.record

def ledgerOf (log : Log) : Ledger :=
  outcomeSemantics.final Ledger.empty log

/-- The deployment row, the history and the webhook events of a run agree on an outcome: the last
status of the row is the outcome, a success has not become a failure, and there are exactly one
history entry and one event, both for the outcome. -/
structure OutcomeTruthful (ledger : Ledger) (row : String) (outcome : Outcome) : Prop where
  status : ((ledger.writes.filter (·.1 = row)).map Prod.snd).getLast? =
    some outcome.deploymentStatus
  kept : ¬ [(row, DeploymentStatus.success), (row, DeploymentStatus.failed)].Sublist ledger.writes
  history : ledger.histories = [outcome.historyStatus]
  webhook : ledger.webhooks = [outcome.webhookEvent]

/-! ### The ends of a deployment -/

theorem meets_of_quiet_settlingCall {α : Type} {program : Async α}
    (hquiet : program.Quiet SettlingCall) (ledger : Ledger) :
    program.Meets outcomeSemantics (fun _ after ↦ after = ledger) ledger := by
  refine meets_of_quiet (fun event world hnot hworld _ ↦ ?_) hquiet rfl
  obtain ⟨call, answer⟩ := event
  cases call <;> first | exact hworld | exact absurd trivial hnot

/-- The ledger after the `catch` block: the history entry was not written, the notification threw
behind the failed row, or all went well. -/
inductive FailedFrom (row : String) (ledger : Ledger) : Ledger → Prop
  | history : FailedFrom row ledger { ledger with bookkeepingThrew := true }
  | notification : FailedFrom row ledger
      { ledger with
        writes := ledger.writes ++ [(row, .failed)]
        histories := ledger.histories ++ [.failed]
        bookkeepingThrew := true }
  | complete : FailedFrom row ledger
      { ledger with
        writes := ledger.writes ++ [(row, .failed)]
        histories := ledger.histories ++ [.failed]
        webhooks := ledger.webhooks ++ [.deploymentFailed] }

theorem failDeployment_spec (run : DeployRun) (dockerClient captured : Bool)
    (errorMessage : String) (ledger : Ledger) :
    (failDeployment run dockerClient captured errorMessage).Meets outcomeSemantics
      (fun _ ↦ FailedFrom run.deploymentId ledger) ledger := by
  unfold failDeployment recordTagDeployment
  dsimp only
  rw [if_neg nofun]
  refine meets_bind.mpr (((captureContainerLogs_ok run dockerClient captured ledger).and
    (meets_of_quiet_settlingCall
      (quiet_captureContainerLogs not_settlingCall_of_preparingCall run dockerClient captured)
        ledger)).mono ?_)
  rintro result after ⟨⟨logs, rfl⟩, rfl⟩
  refine meets_perform_bind.mpr ⟨fun historyEntry _ ↦ ?_, fun message _ ↦ ?_⟩
  · refine meets_perform_bind.mpr ⟨fun failedDeployment _ ↦ ?_, fun message hallowed ↦ ?_⟩
    · refine meets_perform_bind.mpr ⟨fun _ _ ↦ ?_, fun message _ ↦ .notification⟩
      exact meets_emit_bind.mpr fun answer _ ↦ .complete
    · nomatch hallowed trivial
  · show FailedFrom run.deploymentId after
      { after with bookkeepingThrew := after.bookkeepingThrew || true }
    rw [Bool.or_true]
    exact .history

/-- The ledger after the `try` block, for a deployment with a running container: it threw before the
history entry, it threw behind the row that is a success, or all went well. -/
inductive SucceededFrom (row : String) (ledger : Ledger) : Except String DeployResult → Ledger → Prop
  | before (message : String) : SucceededFrom row ledger (.error message) ledger
  | behind (message : String) : SucceededFrom row ledger (.error message)
      { ledger with
        writes := ledger.writes ++ [(row, .success)]
        histories := ledger.histories ++ [.success]
        bookkeepingThrew := true }
  | complete (result : DeployResult) : SucceededFrom row ledger (.ok result)
      { ledger with
        writes := ledger.writes ++ [(row, .success)]
        histories := ledger.histories ++ [.success]
        webhooks := ledger.webhooks ++ [.deploymentCompleted] }

theorem recordTagDeployment_success_spec (containerImageId tag deployedBy : String)
    (ledger : Ledger) :
    (recordTagDeployment containerImageId tag deployedBy .success).Meets outcomeSemantics
      (fun result after ↦ match result with
        | .ok _ => after = { ledger with histories := ledger.histories ++ [.success] }
        | .error _ => after = ledger) ledger := by
  unfold recordTagDeployment
  rw [if_pos rfl]
  refine meets_perform_bind.mpr ⟨fun recentDigests _ ↦ ?_, fun message _ ↦ rfl⟩
  refine meets_perform_bind.mpr ⟨fun _ _ ↦ ?_, fun message _ ↦ rfl⟩
  refine meets_bind.mpr ((meets_of_quiet_settlingCall
    ((quiet_linkDigest _ _).mono fun _ ↦ .inr) ledger).mono ?_)
  intro result after hafter
  rw [hafter]
  cases result with
  | error message => exact rfl
  | ok _ =>
    intro answer _
    cases answer with
    | ok historyEntry => exact rfl
    | error message =>
      show ({ ledger with bookkeepingThrew := ledger.bookkeepingThrew || false } : Ledger) = ledger
      rw [Bool.or_false]

theorem imageTagsOf_spec (historyEntry : ContainerImageHistory) (ledger : Ledger) :
    (imageTagsOf historyEntry).Meets outcomeSemantics
      (fun result after ↦ match result with
        | .ok _ => after = ledger
        | .error _ => after = { ledger with bookkeepingThrew := true }) ledger := by
  unfold imageTagsOf
  split
  · exact meets_perform_bind.mpr ⟨fun digest _ ↦ rfl, fun message _ ↦ rfl⟩
  · exact rfl

theorem successPhase_spec (run : DeployRun) (ledger : Ledger) :
    (successPhase run).Meets outcomeSemantics (SucceededFrom run.deploymentId ledger) ledger := by
  unfold successPhase
  dsimp only
  refine meets_perform_bind.mpr ⟨fun _ _ ↦ ?_, fun message _ ↦ .before message⟩
  refine meets_bind.mpr ((recordTagDeployment_success_spec _ _ _ ledger).mono ?_)
  intro result after hafter
  cases result with
  | error message =>
    rw [show after = ledger from hafter]
    exact .before message
  | ok historyEntry =>
    rw [show after = { ledger with histories := ledger.histories ++ [.success] } from hafter]
    refine meets_perform_bind.mpr ⟨fun finalDeployment _ ↦ ?_, fun message hallowed ↦ ?_⟩
    · refine meets_bind.mpr ((imageTagsOf_spec historyEntry _).mono ?_)
      intro result after hafter
      cases result with
      | error message =>
        rw [show after = _ from hafter]
        exact .behind message
      | ok imageTags =>
        rw [show after = _ from hafter]
        refine meets_perform_bind.mpr ⟨fun _ _ ↦ ?_, fun message _ ↦ .behind message⟩
        exact meets_emit_bind.mpr fun answer _ ↦ .complete _
    · nomatch hallowed trivial

/-! ### The whole run -/

/-- A run on a row is truthful if and only if no bookkeeping call has thrown. -/
structure TruthfulUnlessThrown (row : String) (ledger : Ledger) : Prop where
  created : ledger.row = some row
  truthful_iff : (∃ outcome, OutcomeTruthful ledger row outcome) ↔ ledger.bookkeepingThrew = false

/-- The ledger of a run whose row is being deployed. -/
def deployingLedger (row : String) : Ledger :=
  ⟨some row, [(row, .pending), (row, .deploying)], [], [], false⟩

/-- A row that is given one status behind `deploying` is not given a second one. -/
theorem not_sublist_of_one_end (row : String) (last : DeploymentStatus) :
    ¬ [(row, DeploymentStatus.success), (row, DeploymentStatus.failed)].Sublist
      [(row, .pending), (row, .deploying), (row, last)] := by
  intro hsublist
  have hstatuses : [DeploymentStatus.success, .failed].Sublist [.pending, .deploying, last] :=
    hsublist.map Prod.snd
  revert hstatuses
  cases last <;> decide

theorem truthfulUnlessThrown_of_failedFrom {row : String} {ledger : Ledger}
    (h : FailedFrom row (deployingLedger row) ledger) : TruthfulUnlessThrown row ledger := by
  cases h with
  | history => exact ⟨rfl, fun ⟨outcome, htruthful⟩ ↦ absurd htruthful.history nofun, nofun⟩
  | notification => exact ⟨rfl, fun ⟨outcome, htruthful⟩ ↦ absurd htruthful.webhook nofun, nofun⟩
  | complete =>
    refine ⟨rfl, fun _ ↦ rfl, fun _ ↦ ⟨.failed, ?_, ?_, rfl, rfl⟩⟩
    · simp [deployingLedger, Outcome.deploymentStatus]
    · exact not_sublist_of_one_end row .failed

/-- A run that throws behind the row that is a success is not truthful, whatever the `catch` block
does. -/
theorem truthfulUnlessThrown_of_behind {row : String} {ledger : Ledger}
    (h : FailedFrom row
      ⟨some row, [(row, .pending), (row, .deploying), (row, .success)], [.success], [], true⟩
        ledger) : TruthfulUnlessThrown row ledger := by
  cases h with
  | history
  | notification => exact ⟨rfl, fun ⟨outcome, htruthful⟩ ↦ absurd htruthful.webhook nofun, nofun⟩
  | complete =>
    refine ⟨rfl, fun ⟨outcome, htruthful⟩ ↦ ?_, nofun⟩
    exact absurd (List.cons.inj htruthful.history).2 nofun

theorem runDeployment_spec (yaml : Yaml) (run : DeployRun) :
    (runDeployment yaml run).Meets outcomeSemantics
      (fun _ ↦ TruthfulUnlessThrown run.deploymentId)
        ⟨some run.deploymentId, [(run.deploymentId, .pending)], [], [], false⟩ := by
  have hfailed : ∀ dockerClient captured message,
      (failDeployment run dockerClient captured message).Meets outcomeSemantics
        (fun _ ↦ TruthfulUnlessThrown run.deploymentId) (deployingLedger run.deploymentId) :=
    fun dockerClient captured message ↦ (failDeployment_spec run dockerClient captured message
      _).mono fun _ _ ↦ truthfulUnlessThrown_of_failedFrom
  refine meets_resume.mpr (meets_perform_bind.mpr ⟨fun _ _ ↦ ?_, fun message hallowed ↦ ?_⟩)
  · refine (meets_of_quiet_settlingCall
      (quiet_createDockerClientForServer not_settlingCall_of_preparingCall _)
      (deployingLedger run.deploymentId)).mono fun connected after hafter ↦ ?_
    rw [hafter]
    cases connected with
    | error message => exact hfailed false false message
    | ok clients =>
      refine meets_resume.mpr ((meets_of_quiet_settlingCall (quiet_containerPhase
        not_settlingCall_of_preparingCall not_settlingCall_of_hostChange yaml run clients)
        (deployingLedger run.deploymentId)).mono fun started after hafter ↦ ?_)
      rw [hafter]
      cases started with
      | error message => exact hfailed clients.dockerClient false message
      | ok captured =>
        refine meets_tryCatch.mpr ((successPhase_spec run
          (deployingLedger run.deploymentId)).mono fun result after hafter ↦ ?_)
        cases hafter with
        | before message => exact hfailed clients.dockerClient captured message
        | behind message =>
          exact (failDeployment_spec run clients.dockerClient captured message _).mono
            fun _ _ ↦ truthfulUnlessThrown_of_behind
        | complete result =>
          refine ⟨rfl, fun _ ↦ rfl, fun _ ↦ ⟨.success, ?_, ?_, rfl, rfl⟩⟩
          · simp [deployingLedger, Outcome.deploymentStatus]
          · exact not_sublist_of_one_end run.deploymentId .success
  · nomatch hallowed trivial

theorem deployService_spec (yaml : Yaml) (serviceDeploymentId triggeredBy : String)
    (userId : Option String) (options : DeployOptions) :
    (deployService yaml serviceDeploymentId triggeredBy userId options).Meets outcomeSemantics
      (fun _ ledger ↦ ∀ row, ledger.row = some row → TruthfulUnlessThrown row ledger)
        Ledger.empty := by
  refine meets_perform_bind.mpr ⟨fun deployment _ ↦ ?_, fun message _ ↦ nofun⟩
  refine meets_perform_bind.mpr ⟨fun deploymentRow _ ↦ ?_, fun message hallowed ↦ ?_⟩
  · refine (runDeployment_spec yaml ⟨deployment, options, triggeredBy, userId,
      orElse options.imageTag deployment.service.imageTag,
      options.previousTagOverride.getD (some deployment.service.imageTag),
      deploymentRow.id⟩).mono fun _ ledger htruthful row hrow ↦ ?_
    rw [htruthful.created] at hrow
    rw [← Option.some.inj hrow]
    exact htruthful
  · nomatch hallowed trivial

theorem bookkeepingThrew_record : (ledger.record event).bookkeepingThrew = true ↔
      ledger.bookkeepingThrew = true ∨ (Bookkeeping event.call ∧ event.threw = true) := by
  obtain ⟨call, answer⟩ := event
  cases call <;> cases answer <;> simp [Ledger.record, Bookkeeping, Event.threw]

theorem bookkeepingThrew_final (log : Log) :
    (outcomeSemantics.final ledger log).bookkeepingThrew = true ↔
      ledger.bookkeepingThrew = true ∨
        ∃ event ∈ log, Bookkeeping event.call ∧ event.threw = true := by
  induction log generalizing ledger with
  | nil => simp [Semantics.final]
  | cons event rest ih =>
    show (outcomeSemantics.final (ledger.record event) rest).bookkeepingThrew = true ↔ _
    rw [ih, bookkeepingThrew_record, List.exists_mem_cons_iff, or_assoc]

/-- A settled run of `deployService` that has created its row is truthful if and only if no
bookkeeping call behind its outcome has thrown. Assumes: the writes of deployment rows succeed. -/
theorem outcomeTruthful_iff {yaml : Yaml} {serviceDeploymentId triggeredBy : String}
    {userId : Option String} {options : DeployOptions} {log : Log}
    {result : Except String DeployResult}
    (htraces : Traces (deployService yaml serviceDeploymentId triggeredBy userId options) log
      (some result))
    (hwrites : ∀ event ∈ log, DeploymentWrite event.call → event.threw = false) {row : String}
    (hrow : (ledgerOf log).row = some row) :
    (∃ outcome, OutcomeTruthful (ledgerOf log) row outcome) ↔
      ∀ event ∈ log, Bookkeeping event.call → event.threw = false := by
  have hconsistent : outcomeSemantics.Consistent Ledger.empty log :=
    outcomeSemantics.consistent_of_forall (fun event hevent _ ↦ hwrites event hevent) _
  have htruthful := (deployService_spec yaml serviceDeploymentId triggeredBy userId options).sound
    htraces hconsistent row hrow
  refine htruthful.truthful_iff.trans ?_
  rw [← Bool.not_eq_true, bookkeepingThrew_final]
  simp [Ledger.empty]

/-! ### A deployment whose digest lookup throws -/

def restartedDeployment : ServiceDeployment where
  id := "api-web"
  containerName := "api"
  composePath := none
  server := ⟨"web", "web", "10.0.0.1", .ssh, "remote", "production"⟩
  service := ⟨"api", "api", "v1", ⟨"image", "registry/api", none⟩⟩

/-- The answers of a host and a database on which nothing goes wrong. -/
def healthyAnswer : (request : Call) → Answer request
  | .findServiceDeployment _ => restartedDeployment
  | .createDeployment data => ⟨data, "deployment", none⟩
  | .updateDeployment id status historyId =>
    ⟨⟨"v2", some "v1", status, "operator", "api", "api-web", none⟩, id, historyId⟩
  | .createClientForServer _ _ _ => ⟨true, none⟩
  | .listContainers => [⟨"api", .running⟩]
  | .createContainerImageHistory data => ⟨data, "history"⟩
  | .exec _ => ⟨0, [], ""⟩
  | .getSystemSettings => 100
  | .getContainerLogs _ _ => ""
  | .findRecentDigests _ => [⟨"digest", "sha256:1", ["v2"]⟩]
  | .findImageDigest _ => some ⟨"digest", "sha256:1", ["v2"]⟩
  | .countServiceDeployments _ _ => 1
  | .findAutoManageCompose _ => false
  | .findArtifactSource _ =>
    ⟨"api-web", "api", "production", "api", "v2", "registry/api", none, [], [], [], []⟩
  | .resolveSecretPlaceholders _ content => ⟨content, [], []⟩
  | .getSocketAuthConfig _ => none
  | .ensureRegistryLogin _ _ => ⟨true, none⟩
  | .findPlan id => ⟨⟨id, "", .pending, "", true, false, "production", none⟩, [], none⟩
  | .findStep id =>
    ⟨⟨id, "", "", "", 0, .deploy, "", none, .pending⟩, none, none, none⟩
  | .verifyServiceHealth _ => ⟨true, 1⟩
  | .updateComposePath _ _ | .markServiceDeploymentRunning _ | .updateServiceImageTag _ _
  | .saveDeploymentArtifacts _ _ | .logAudit _ _ _ | .updateContainerImage _ _
  | .updateImageDigests _ _ | .connect | .writeFile _ _ | .pullImage _ _ | .composePull _ _
  | .composeUp _ _ _ _ | .restartContainer _ | .sendSystemNotification _ _ _
  | .emitWebhookEvent _ _ _ | .updatePlan _ _ _ | .updateStep _ _ _ | .skipPendingSteps _ => ()

variable (kind : Call → Bool)

/-- An environment in which the calls of a kind throw and nothing else goes wrong. -/
def throwing (_ : Ledger) (request : Call) : Except String (Answer request) :=
  if kind request then .error "Database is locked" else .ok (healthyAnswer request)

def isDigestLookup (request : Call) : Bool :=
  match request with
  | .findImageDigest _ => true
  | _ => false

/-- A YAML library; no artifacts are generated below. -/
def anyYaml : Yaml :=
  ⟨fun _ ↦ [], fun _ ↦ .ok .noServices⟩

/-- A deployment of `v2` by a restart. -/
def restartDeployment : Async DeployResult :=
  deployService anyYaml "api-web" "operator" none ⟨some "v2", some false, some false, none⟩

def restartRun : Log × Except String DeployResult :=
  restartDeployment.run outcomeSemantics (throwing kind) Ledger.empty

theorem traces_restartRun (hkind : ∀ request, DeploymentWrite request → kind request = false) :
    Traces restartDeployment (restartRun kind).1 (some (restartRun kind).2) ∧
      ∀ event ∈ (restartRun kind).1, DeploymentWrite event.call → event.threw = false := by
  have hwrite : ∀ world request, DeploymentWrite request →
      (⟨request, throwing kind world request⟩ : Event Answer).threw = false := by
    intro world request hrequest
    unfold throwing Event.threw
    rw [hkind request hrequest]
    rfl
  refine ⟨(run_sound hwrite (quiet_deployService _ _ _ _ _).sequential Ledger.empty).1, ?_⟩
  intro event hevent hrequest
  obtain ⟨world, hanswer⟩ := exists_of_mem_run hevent
  rw [hanswer]
  exact hwrite world event.call hrequest

/-- A success whose digest lookup throws becomes a failure, with two history entries. -/
theorem not_outcomeTruthful_digestLookup :
    Traces restartDeployment (restartRun isDigestLookup).1 (some (restartRun isDigestLookup).2) ∧
      (∀ event ∈ (restartRun isDigestLookup).1, DeploymentWrite event.call → event.threw = false) ∧
      (ledgerOf (restartRun isDigestLookup).1).writes.map Prod.snd =
        [.pending, .deploying, .success, .failed] ∧
      (ledgerOf (restartRun isDigestLookup).1).histories = [.success, .failed] ∧
      ¬ ∃ outcome, OutcomeTruthful (ledgerOf (restartRun isDigestLookup).1) "deployment"
        outcome := by
  have hhistories : (ledgerOf (restartRun isDigestLookup).1).histories =
      [.success, .failed] := by decide
  obtain ⟨htraces, hwrites⟩ := traces_restartRun isDigestLookup fun request hrequest ↦ by
    cases request <;> first | rfl | exact absurd hrequest id
  refine ⟨htraces, hwrites, by decide, hhistories, fun ⟨outcome, htruthful⟩ ↦ ?_⟩
  have hone := htruthful.history
  rw [hhistories] at hone
  exact absurd (List.cons.inj hone).2 nofun

/-- A deployment on which nothing goes wrong is truthful. -/
theorem outcomeTruthful_restart :
    ∃ outcome, OutcomeTruthful (ledgerOf (restartRun fun _ ↦ false).1) "deployment" outcome := by
  obtain ⟨htraces, hwrites⟩ := traces_restartRun (fun _ ↦ false) fun _ _ ↦ rfl
  refine (outcomeTruthful_iff htraces hwrites (by decide)).mpr fun event hevent _ ↦ ?_
  obtain ⟨world, hanswer⟩ := exists_of_mem_run hevent
  rw [hanswer]
  rfl

end Bridgeport.Deploy
