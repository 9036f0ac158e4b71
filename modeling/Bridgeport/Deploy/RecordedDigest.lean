import Bridgeport.Deploy.Outcome
import Bridgeport.Foundation.Machine

/-!
# The digest of a service deployment

A success links every deployment of the image to the digest of the tag, not only the one that was
deployed. So a sequence of deployments keeps every recorded digest that of the last success of its
own deployment (`Faithful`) exactly if no link changes the digest of another deployment, or of one
whose deployment fails behind the link (`faithful_iff`).

`digestSemantics` follows one call of `deployService` with the tables that it reads, and
`digestMachine` a sequence of calls.
-/

namespace Bridgeport.Deploy

open Foundation Orchestration Program Option

/-! ### One call -/

/-- What deployments leave as it is: the image of the service of every service deployment, and what
the query of the digests of an image finds, the 50 that were pushed last. -/
structure ImageTables where
  imageOf : String → String
  digests : String → List ImageDigest

/-- The column `imageDigestId` of the service deployments, the row of the call, and the link that it
has made: an image and a digest. -/
structure DigestLedger where
  recorded : String → Option String
  row : Option DeploymentData
  linked : Option (String × String)

variable (tables : ImageTables)

def ImageTables.digestOf (data : DeploymentData) : Option ImageDigest :=
  digestOfTag (tables.digests (tables.imageOf data.serviceDeploymentId)) data.imageTag

/-- `updateMany({ where: { service: { containerImageId } }, data: { imageDigestId } })`. -/
def ImageTables.link (recorded : String → Option String) (image digest : String)
    (serviceDeploymentId : String) : Option String :=
  if tables.imageOf serviceDeploymentId = image then some digest else recorded serviceDeploymentId

/-- The answers and the effects of the calls. A write that throws has no effect. -/
def digestSemantics : Semantics Answer DigestLedger where
  allows _ event :=
    match event with
    | ⟨.findServiceDeployment id, .ok deployment⟩ =>
      deployment.service.containerImage.id = tables.imageOf id
    | ⟨.findRecentDigests image, .ok digests⟩ => digests = tables.digests image
    | ⟨.updateDeployment _ status _, .ok deployment⟩ => deployment.status = status
    | _ => True
  after ledger event :=
    match event with
    | ⟨.createDeployment data, .ok _⟩ => { ledger with row := some data }
    | ⟨.updateImageDigests image digest, .ok _⟩ =>
      { ledger with
        recorded := tables.link ledger.recorded image digest
        linked := some (image, digest) }
    | _ => ledger

variable (request : Call)

/-- The calls that the ledger follows. -/
def LinkingCall : Prop :=
  match request with
  | .createDeployment _ | .updateImageDigests _ _ => True
  | _ => False

theorem not_linkingCall_of_preparingCall (h : PreparingCall request) : ¬ LinkingCall request := by
  cases request <;> first | exact not_false | exact absurd h id

theorem not_linkingCall_of_hostChange (h : HostChange request) : ¬ LinkingCall request := by
  cases request <;> first | exact not_false | exact absurd h id

section

variable {tables : ImageTables}

theorem meets_of_quiet_linkingCall {α : Type} {program : Async α}
    (hquiet : program.Quiet LinkingCall) (ledger : DigestLedger) :
    program.Meets (digestSemantics tables) (fun _ after ↦ after = ledger) ledger := by
  refine meets_of_quiet (fun event world hnot hworld _ ↦ ?_) hquiet rfl
  obtain ⟨call, answer⟩ := event
  cases call <;> first | exact hworld | exact absurd trivial hnot

def LinkedTo (tables : ImageTables) (image : String) (found : Option ImageDigest)
    (ledger : DigestLedger) : DigestLedger :=
  match found with
  | some digest =>
    { ledger with
      recorded := tables.link ledger.recorded image digest.id
      linked := some (image, digest.id) }
  | none => ledger

theorem linkDigest_spec (image : String) (found : Option ImageDigest) (ledger : DigestLedger) :
    (linkDigest image found).Meets (digestSemantics tables)
      (fun result after ↦ match result with
        | .ok _ => after = LinkedTo tables image found ledger
        | .error _ => after = ledger) ledger := by
  cases found with
  | none => exact rfl
  | some digest =>
    intro answer _
    cases answer with
    | ok _ | error _ => exact rfl

theorem recordTagDeployment_spec (image tag deployedBy : String) (ledger : DigestLedger) :
    (recordTagDeployment image tag deployedBy .success).Meets (digestSemantics tables)
      (fun result after ↦
        after = LinkedTo tables image (digestOfTag (tables.digests image) tag) ledger ∨
          (∃ message, result = .error message) ∧ after = ledger) ledger := by
  unfold recordTagDeployment
  rw [if_pos rfl]
  refine meets_perform_bind.mpr ⟨fun digests hdigests ↦ ?_, fun message _ ↦ .inr ⟨⟨_, rfl⟩, rfl⟩⟩
  rw [show digests = tables.digests image from hdigests]
  refine meets_perform_bind.mpr ⟨fun _ _ ↦ ?_, fun message _ ↦ .inr ⟨⟨_, rfl⟩, rfl⟩⟩
  refine meets_bind.mpr ((linkDigest_spec image _ ledger).mono fun result after hafter ↦ ?_)
  cases result with
  | error message => exact .inr ⟨⟨_, rfl⟩, hafter⟩
  | ok _ => exact fun answer _ ↦ by cases answer <;> exact .inl hafter

def Succeeded (result : Except String DeployResult) : Bool :=
  match result with
  | .ok value => value.deployment.status = .success
  | .error _ => false

theorem failDeployment_keeps (run : DeployRun) (dockerClient captured : Bool)
    (errorMessage : String)
    (ledger : DigestLedger) :
    (failDeployment run dockerClient captured errorMessage).Meets (digestSemantics tables)
      (fun result after ↦ after = ledger ∧ Succeeded result = false) ledger := by
  unfold failDeployment recordTagDeployment
  dsimp only
  rw [if_neg nofun]
  refine meets_bind.mpr ((meets_of_quiet_linkingCall
    (quiet_captureContainerLogs not_linkingCall_of_preparingCall run dockerClient captured)
    ledger).mono fun result after hafter ↦ ?_)
  rw [hafter]
  cases result with
  | error message => exact ⟨rfl, rfl⟩
  | ok captured =>
    refine meets_perform_bind.mpr ⟨fun historyEntry _ ↦ ?_, fun message _ ↦ ⟨rfl, rfl⟩⟩
    refine meets_perform_bind.mpr ⟨fun failedDeployment hstatus ↦ ?_, fun message _ ↦ ⟨rfl, rfl⟩⟩
    refine meets_perform_bind.mpr ⟨fun _ _ ↦ ?_, fun message _ ↦ ⟨rfl, rfl⟩⟩
    refine meets_emit_bind.mpr fun answer _ ↦ ⟨rfl, ?_⟩
    have hfailed : failedDeployment.status = .failed := hstatus
    simp [Succeeded, hfailed]

/-- The ledger at the end of a call: the digest of the tag has been linked, or nothing has been
linked and the call has not succeeded. -/
def Ended (tables : ImageTables) (image tag : String) (ledger : DigestLedger)
    (result : Except String DeployResult) (after : DigestLedger) : Prop :=
  after = LinkedTo tables image (digestOfTag (tables.digests image) tag) ledger ∨
    Succeeded result = false ∧ after = ledger

theorem successPhase_ended (run : DeployRun) (ledger : DigestLedger) :
    (successPhase run).Meets (digestSemantics tables)
      (Ended tables run.deployment.service.containerImage.id run.imageTag ledger) ledger := by
  unfold successPhase
  dsimp only
  refine meets_perform_bind.mpr ⟨fun _ _ ↦ ?_, fun message _ ↦ .inr ⟨rfl, rfl⟩⟩
  refine meets_bind.mpr ((recordTagDeployment_spec _ _ _ ledger).mono fun result after hafter ↦ ?_)
  cases result with
  | error message => exact hafter.imp id fun h ↦ ⟨rfl, h.2⟩
  | ok historyEntry =>
    have hlinked := hafter.resolve_right fun h ↦ by
      obtain ⟨⟨message, hmessage⟩, -⟩ := h
      nomatch hmessage
    rw [hlinked]
    -- what follows the history entry links nothing
    refine (meets_of_quiet_linkingCall ?_ _).mono fun result after hafter ↦ .inl hafter
    refine quiet_call not_false fun finalDeployment ↦
      Quiet.bind ?_ fun imageTags ↦ ?_
    · unfold imageTagsOf
      split
      · exact quiet_call not_false fun _ ↦ quiet_pure _
      · exact quiet_pure _
    · refine quiet_call not_false fun _ ↦ ?_
      exact Quiet.bind (quiet_emit not_false) fun _ ↦ quiet_pure _

theorem runDeployment_ended (yaml : Yaml) (run : DeployRun) (ledger : DigestLedger) :
    (runDeployment yaml run).Meets (digestSemantics tables)
      (Ended tables run.deployment.service.containerImage.id run.imageTag ledger) ledger := by
  have hfailed : ∀ dockerClient captured message ledger,
      (failDeployment run dockerClient captured message).Meets (digestSemantics tables)
        (fun result after ↦ after = ledger ∧ Succeeded result = false) ledger :=
    failDeployment_keeps run
  have hconnect : (connectPhase run).Quiet LinkingCall :=
    quiet_call not_false fun _ ↦
      quiet_createDockerClientForServer not_linkingCall_of_preparingCall _
  refine meets_resume.mpr ((meets_of_quiet_linkingCall hconnect ledger).mono
    fun connected after hafter ↦ ?_)
  rw [hafter]
  cases connected with
  | error message => exact (hfailed _ _ _ _).mono fun _ _ h ↦ .inr ⟨h.2, h.1⟩
  | ok clients =>
    refine meets_resume.mpr ((meets_of_quiet_linkingCall (quiet_containerPhase
      not_linkingCall_of_preparingCall not_linkingCall_of_hostChange yaml run clients)
      ledger).mono fun started after hafter ↦ ?_)
    rw [hafter]
    cases started with
    | error message => exact (hfailed _ _ _ _).mono fun _ _ h ↦ .inr ⟨h.2, h.1⟩
    | ok captured =>
      refine meets_tryCatch.mpr ((successPhase_ended run ledger).mono fun result after hended ↦ ?_)
      cases result with
      | ok value => exact hended
      | error message =>
        refine (hfailed _ _ _ after).mono fun result final hfinal ↦ ?_
        rw [hfinal.1]
        exact hended.imp id fun h ↦ ⟨hfinal.2, h.2⟩

/-- The ledger at the end of a call of `deployService`: it has failed before it created its row, or
it has ended as its row says. -/
theorem deployService_ended (yaml : Yaml) (serviceDeploymentId triggeredBy : String)
    (userId : Option String) (options : DeployOptions) (recorded : String → Option String) :
    (deployService yaml serviceDeploymentId triggeredBy userId options).Meets
    (digestSemantics tables)
      (fun result after ↦
        (Succeeded result = false ∧ after = ⟨recorded, none, none⟩) ∨
          ∃ data : DeploymentData, data.serviceDeploymentId = serviceDeploymentId ∧
            Ended tables (tables.imageOf serviceDeploymentId) data.imageTag
              ⟨recorded, some data, none⟩ result after)
      ⟨recorded, none, none⟩ := by
  refine meets_perform_bind.mpr ⟨fun deployment himage ↦ ?_, fun message _ ↦ .inl ⟨rfl, rfl⟩⟩
  have himage : deployment.service.containerImage.id = tables.imageOf serviceDeploymentId := himage
  refine meets_perform_bind.mpr ⟨fun deploymentRow _ ↦ ?_, fun message _ ↦ .inl ⟨rfl, rfl⟩⟩
  let data : DeploymentData :=
    { imageTag := orElse options.imageTag deployment.service.imageTag
      previousTag := options.previousTagOverride.getD (some deployment.service.imageTag)
      status := .pending
      triggeredBy := triggeredBy
      serviceId := deployment.service.id
      serviceDeploymentId := serviceDeploymentId
      userId := userId }
  refine (runDeployment_ended yaml _ _).mono fun result after hended ↦ .inr ⟨data, rfl, ?_⟩
  rw [← himage]
  exact hended

end

/-! ### A sequence of calls -/

/-- A call of `deployService` with what it has awaited, and how it has ended. -/
structure DeployCall where
  (serviceDeploymentId triggeredBy : String)
  userId : Option String
  options : DeployOptions
  log : Log
  result : Except String DeployResult

/-- The recorded digests, and the digest of the tag of the last success of every service deployment;
the recorded one at first. -/
structure DigestState where
  (recorded own : String → Option String)

/-- Every recorded digest is that of the last success of the deployment. -/
def Faithful (state : DigestState) : Prop :=
  ∀ serviceDeploymentId, state.recorded serviceDeploymentId = state.own serviceDeploymentId

section

variable (tables : ImageTables)

def DeployCall.ledger (call : DeployCall) (before : DigestState) : DigestLedger :=
  (digestSemantics tables).final ⟨before.recorded, none, none⟩ call.log

/-- The digests of the last successes after a call: a success is the last one of its deployment. -/
def ownAfter (own : String → Option String) (row : Option DeploymentData)
    (result : Except String DeployResult) (serviceDeploymentId : String) : Option String :=
  match row with
  | some data =>
    if serviceDeploymentId = data.serviceDeploymentId ∧ Succeeded result then
      (tables.digestOf data).map (·.id)
    else own serviceDeploymentId
  | none => own serviceDeploymentId

def digestMachine : Machine DigestState DeployCall where
  next before call :=
    let ledger := call.ledger tables before
    some ⟨ledger.recorded, ownAfter tables before.own ledger.row call.result⟩

/-- The call is a settled run of `deployService` with a tag whose digest is known. -/
structure IsDeployCall (yaml : Yaml) (before : DigestState) (call : DeployCall) : Prop where
  traces : Traces (deployService yaml call.serviceDeploymentId call.triggeredBy call.userId
    call.options) call.log (some call.result)
  consistent : (digestSemantics tables).Consistent ⟨before.recorded, none, none⟩ call.log
  known : ∀ data, (call.ledger tables before).row = some data → (tables.digestOf data).isSome

/-- A digest that the call links is already the recorded one of every deployment of the image,
except of the one that it has deployed with success. -/
def HarmlessLink (before : DigestState) (call : DeployCall) : Prop :=
  ∀ image digest, (call.ledger tables before).linked = some (image, digest) →
    ∀ serviceDeploymentId, tables.imageOf serviceDeploymentId = image →
      ¬ (serviceDeploymentId = call.serviceDeploymentId ∧ Succeeded call.result) →
        before.recorded serviceDeploymentId = some digest

end

section

variable {tables : ImageTables} {yaml : Yaml}

theorem faithful_next_iff {before : DigestState} {call : DeployCall} (hbefore : Faithful before)
    (hcall : IsDeployCall tables yaml before call) :
    (∀ after, (digestMachine tables).next before call = some after → Faithful after) ↔
      HarmlessLink tables before call := by
  have hended := (deployService_ended yaml call.serviceDeploymentId call.triggeredBy call.userId
    call.options before.recorded).sound hcall.traces hcall.consistent
  have hledger : (digestSemantics tables).final ⟨before.recorded, none, none⟩ call.log =
    call.ledger tables before := rfl
  rw [hledger] at hended
  have hnext : (∀ after, (digestMachine tables).next before call = some after → Faithful after) ↔
      ∀ serviceDeploymentId, (call.ledger tables before).recorded serviceDeploymentId =
        ownAfter tables before.own (call.ledger tables before).row call.result
          serviceDeploymentId := by
    simp only [digestMachine, some.injEq, forall_eq', Faithful]
  rw [hnext]
  -- without a link and a success nothing changes
  have hunlinked : ∀ row, Succeeded call.result = false →
      call.ledger tables before = ⟨before.recorded, row, none⟩ →
        ((∀ serviceDeploymentId, (call.ledger tables before).recorded serviceDeploymentId =
          ownAfter tables before.own (call.ledger tables before).row call.result
            serviceDeploymentId) ↔ HarmlessLink tables before call) := by
    intro row hresult hempty
    refine iff_of_true (fun serviceDeploymentId ↦ ?_) fun image digest hlinked ↦ ?_
    · rw [hempty]
      refine (hbefore serviceDeploymentId).trans ?_
      cases row with
      | none => rfl
      | some data => simp [ownAfter, hresult]
    · rw [hempty] at hlinked
      nomatch hlinked
  rcases hended with ⟨hresult, hempty⟩ | ⟨data, hdata, hlinked | ⟨hresult, hempty⟩⟩
  · exact hunlinked none hresult hempty
  · have hrow : (call.ledger tables before).row = some data := by
      rw [hlinked]
      cases digestOfTag _ _ <;> rfl
    obtain ⟨digest, hdigest⟩ := isSome_iff_exists.mp (hcall.known data hrow)
    have htag : digestOfTag (tables.digests (tables.imageOf call.serviceDeploymentId))
        data.imageTag = some digest := by
      rw [← hdigest, ImageTables.digestOf, hdata]
    rw [htag] at hlinked
    have hsame : (call.ledger tables before).linked =
        some (tables.imageOf call.serviceDeploymentId, digest.id) := by
      rw [hlinked]
      rfl
    have hrecorded : ∀ serviceDeploymentId,
        (call.ledger tables before).recorded serviceDeploymentId =
          if tables.imageOf serviceDeploymentId = tables.imageOf call.serviceDeploymentId then
            some digest.id else before.recorded serviceDeploymentId := by
      rw [hlinked]
      exact fun _ ↦ rfl
    have hown : ∀ serviceDeploymentId, ownAfter tables before.own
        (call.ledger tables before).row call.result serviceDeploymentId =
          if serviceDeploymentId = call.serviceDeploymentId ∧ Succeeded call.result then
            some digest.id else before.recorded serviceDeploymentId := by
      intro serviceDeploymentId
      rw [hrow, hbefore serviceDeploymentId, ownAfter, hdata, hdigest]
      rfl
    simp only [hrecorded, hown, HarmlessLink, hsame, some.injEq, Prod.mk.injEq, and_imp]
    constructor
    · rintro h image digestId rfl rfl serviceDeploymentId himage hother
      have hhere := h serviceDeploymentId
      rw [if_pos himage, if_neg hother] at hhere
      exact hhere.symm
    · intro h serviceDeploymentId
      have hhere := h _ _ rfl rfl serviceDeploymentId
      by_cases himage : tables.imageOf serviceDeploymentId = tables.imageOf call.serviceDeploymentId
      · by_cases hother : serviceDeploymentId = call.serviceDeploymentId ∧ Succeeded call.result
        · rw [if_pos himage, if_pos hother]
        · rw [if_pos himage, if_neg hother, hhere himage hother]
      · have hother : ¬ (serviceDeploymentId = call.serviceDeploymentId ∧ Succeeded call.result) :=
          fun hboth ↦ himage (by rw [hboth.1])
        rw [if_neg himage, if_neg hother]
  · exact hunlinked (some data) hresult hempty

/-- A sequence of calls keeps the recorded digests faithful after each of them exactly if every link
is harmless. -/
theorem faithful_iff {initial : DigestState} {calls : List DeployCall} (hinitial : Faithful initial)
    (hcalls : (digestMachine tables).Meets (IsDeployCall tables yaml) initial calls) :
    (digestMachine tables).Meets (fun before call ↦ ∀ after,
      (digestMachine tables).next before call = some after → Faithful after) initial calls ↔
        (digestMachine tables).Meets (HarmlessLink tables) initial calls :=
  Machine.meets_congr (fun _ _ ↦ faithful_next_iff) (fun _ _ after _ _ h hnext ↦ h after hnext)
    hinitial hcalls

end

/-! ### Two deployments of one image -/

/-- All service deployments run one image, which has one digest with the tag `v2`. -/
def sharedImage : ImageTables where
  imageOf _ := "image"
  digests _ := [⟨"digest-2", "sha256:2", ["v2"]⟩]

def deployedBefore : DigestState where
  recorded _ := some "digest-1"
  own _ := some "digest-1"

def sharedImageAnswer (_ : DigestLedger) : (request : Call) → Except String (Answer request)
  | .findServiceDeployment id =>
    if id = "api-web" then .ok restartedDeployment else .error "No ServiceDeployment found"
  | .findRecentDigests image => .ok (sharedImage.digests image)
  | request => .ok (healthyAnswer request)

/-- The run of a deployment of `v2` on one server. -/
def rolloutRun : Log × Except String DeployResult :=
  restartDeployment.run (digestSemantics sharedImage) sharedImageAnswer
    ⟨deployedBefore.recorded, none, none⟩

def rolloutCall : DeployCall where
  serviceDeploymentId := "api-web"
  triggeredBy := "operator"
  userId := none
  options := ⟨some "v2", some false, some false, none⟩
  log := rolloutRun.1
  result := rolloutRun.2

theorem isDeployCall_rolloutCall : IsDeployCall sharedImage anyYaml deployedBefore rolloutCall := by
  have hallowed : ∀ world request,
      (digestSemantics sharedImage).allows world ⟨request, sharedImageAnswer world request⟩ := by
    intro world request
    cases request with
    | findServiceDeployment id =>
      unfold sharedImageAnswer
      dsimp only
      split_ifs
      · rfl
      · exact trivial
    | _ => first | exact trivial | rfl
  obtain ⟨htraces, hconsistent⟩ := run_sound hallowed
    (quiet_deployService anyYaml "api-web" "operator" none ⟨some "v2", some false, some false,
      none⟩).sequential ⟨deployedBefore.recorded, none, none⟩
  refine ⟨htraces, hconsistent, fun data hdata ↦ ?_⟩
  have hrow : (rolloutCall.ledger sharedImage deployedBefore).row =
      some ⟨"v2", some "v1", .pending, "operator", "api", "api-web", none⟩ := rfl
  obtain rfl := some.inj (hrow.symm.trans hdata)
  rfl

theorem faithful_iff_rolloutCall :
    (digestMachine sharedImage).Meets (fun before call ↦ ∀ after,
      (digestMachine sharedImage).next before call = some after → Faithful after) deployedBefore
        [rolloutCall] ↔
      (digestMachine sharedImage).Meets (HarmlessLink sharedImage) deployedBefore [rolloutCall] :=
  faithful_iff (fun _ ↦ rfl) ⟨isDeployCall_rolloutCall, fun _ _ ↦ trivial⟩

/-- The success on one server changes the recorded digest of the deployment on the other one. -/
theorem not_faithful : ¬ ∀ (yaml : Yaml) (tables : ImageTables) (initial : DigestState)
    (calls : List DeployCall), Faithful initial →
      (digestMachine tables).Meets (IsDeployCall tables yaml) initial calls →
        (digestMachine tables).Meets (fun before call ↦ ∀ after,
          (digestMachine tables).next before call = some after → Faithful after) initial calls := by
  intro h
  have hmeets := h anyYaml sharedImage deployedBefore [rolloutCall] (fun _ ↦ rfl)
    ⟨isDeployCall_rolloutCall, fun _ _ ↦ trivial⟩
  have hfaithful := hmeets.1 _ rfl "api-worker"
  exact absurd hfaithful (by decide)

end Bridgeport.Deploy
