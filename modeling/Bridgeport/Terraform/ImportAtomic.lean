import Bridgeport.Terraform.ImportFromTerraform

/-!
# Atomic imports

An import is to throw and leave the tables as they were, or to bring in the whole output, and then to
change nothing when it is run again (`Atomic`). There is no transaction, so it does if and only if
nothing makes it throw and no deployment is listed with two container names, or what is listed before
it throws is what the tables have (`importAtomic_iff`).

Two deployments that exchange their container names make it throw, in whatever order they are listed.
-/

namespace Bridgeport.Terraform

variable (environmentId : String) (steps : List ImportStep) {key : ServiceServer}
  {serverData : ServerData} {row : ServiceDeployment}

section

open Foundation List Option OrderedMap
open Secrets (Text)

/-! ### Listed values -/

def imageWrites : List (UniqueName × UniqueName) :=
  (listedServices steps).map fun serviceData ↦
    (⟨environmentId, serviceData.name⟩, ⟨environmentId, serviceData.imageName⟩)

def tagWrites : List (UniqueName × Text) :=
  (listedServices steps).map fun serviceData ↦
    (⟨environmentId, serviceData.name⟩, serviceData.tag)

/-- The URLs of listed services that have one, which may be `null`. -/
def urlWrites : List (UniqueName × Option Text) :=
  fieldWrites (serviceUpsert environmentId) (·.healthCheckUrl) (listedServices steps)

/-- The rows that the statements list are there, and have the values that are listed last. -/
structure WithoutEffect (environmentId : String) (autoManageCompose : Bool) (estate : Estate)
    (steps : List ImportStep) : Prop where
  servers : ∀ serverData, .server serverData ∈ steps →
    estate.servers.get ⟨environmentId, serverData.name⟩ = some (serverRow serverData none)
  images : ∀ serviceData, .image serviceData ∈ steps →
    (estate.images.get ⟨environmentId, serviceData.imageName⟩).isSome
  services : ∀ serviceData, .service serviceData ∈ steps →
    ∃ row, estate.services.get ⟨environmentId, serviceData.name⟩ = some row ∧
      lastWrite ⟨environmentId, serviceData.name⟩ (imageWrites environmentId steps) =
        some row.containerImage ∧
      lastWrite ⟨environmentId, serviceData.name⟩ (tagWrites environmentId steps) =
        some row.imageTag ∧
      ∀ url, lastWrite ⟨environmentId, serviceData.name⟩ (urlWrites environmentId steps) = some url →
        row.healthCheckUrl = url
  deployments : ∀ serverName serviceData, .deployment serverName serviceData ∈ steps →
    ∃ row, estate.deployments.get (deploymentKey environmentId serverName serviceData) = some row ∧
      lastWrite (deploymentKey environmentId serverName serviceData)
        (containerWrites environmentId steps) = some row.containerName ∧
      (row.composePath = none → settablePath autoManageCompose serviceData = none)

section

variable {runtime : Runtime} {environmentId : String} {autoManageCompose : Bool}
  {steps : List ImportStep} {estate : Estate}

theorem serverRow_eq (serverData : ServerData) (existing : Option Server) :
    serverRow serverData existing = serverRow serverData none := by
  cases existing <;> rfl

variable {serviceData : ServiceData}

theorem url_serviceRow_of_some {url : Option Text} (h : serviceData.healthCheckUrl = some url)
    (existing : Option Service) :
    (serviceRow environmentId serviceData existing).healthCheckUrl = url := by
  cases existing with
  | none => exact congrArg (Option.getD · none) h
  | some existing => exact congrArg (Option.getD · existing.healthCheckUrl) h

theorem url_serviceRow_of_none (h : serviceData.healthCheckUrl = none) (existing : Service) :
    (serviceRow environmentId serviceData (some existing)).healthCheckUrl =
      existing.healthCheckUrl :=
  congrArg (Option.getD · existing.healthCheckUrl) h

variable {serverName : Text}

section

variable (runtime) (autoManageCompose) (estate)

theorem get_servers_applySteps (hlisted : .server serverData ∈ steps)
    (hdistinct : ∀ other, .server other ∈ steps → other.name = serverData.name →
      other = serverData) :
    (applySteps runtime environmentId autoManageCompose steps estate).servers.get
      ⟨environmentId, serverData.name⟩ = some (serverRow serverData none) := by
  have hlast : lastWrite (⟨environmentId, serverData.name⟩ : UniqueName)
      ((listedServers steps).map fun other ↦
        ((serverUpsert environmentId other).key, serverRow other none)) =
          some (serverRow serverData none) := by
    refine lastWrite_eq_some (mem_map.mpr ⟨serverData, mem_listedServers.mpr hlisted, rfl⟩) ?_
    intro row hmem
    obtain ⟨other, hother, hwrite⟩ := mem_map.mp hmem
    obtain ⟨hkey, rfl⟩ := Prod.mk.inj hwrite
    rw [hdistinct other (mem_listedServers.mp hother) (UniqueName.mk.inj hkey).2]
  have hreplay : (replay ⟨environmentId, serverData.name⟩
      ((listedServers steps).map (serverUpsert environmentId))
      (estate.servers.get ⟨environmentId, serverData.name⟩)).map id = _ :=
    map_replay fun other start ↦ serverRow_eq other start
  rw [servers_applySteps, get_upsertAll]
  rwa [Option.map_id, hlast, some_or] at hreplay

theorem get_services_applySteps (hlisted : .service serviceData ∈ steps) :
    ∃ row, (applySteps runtime environmentId autoManageCompose steps estate).services.get
        ⟨environmentId, serviceData.name⟩ = some row ∧
      lastWrite ⟨environmentId, serviceData.name⟩ (imageWrites environmentId steps) =
        some row.containerImage ∧
      lastWrite ⟨environmentId, serviceData.name⟩ (tagWrites environmentId steps) =
        some row.imageTag ∧
      ∀ url, lastWrite ⟨environmentId, serviceData.name⟩ (urlWrites environmentId steps) = some url →
        row.healthCheckUrl = url := by
  have hmem : serviceUpsert environmentId serviceData ∈
      (listedServices steps).map (serviceUpsert environmentId) :=
    mem_map_of_mem (mem_listedServices.mpr hlisted)
  obtain ⟨row, hrow⟩ := exists_replay_of_mem
    (estate.services.get ⟨environmentId, serviceData.name⟩) hmem rfl
  rw [services_applySteps, get_upsertAll]
  refine ⟨row, hrow, ?_, ?_, fun url hurl ↦ ?_⟩
  · refine lastWrite_of_replay (fun other start ↦ ?_) (mem_listedServices.mpr hlisted) rfl hrow
    cases start <;> rfl
  · refine lastWrite_of_replay (fun other start ↦ ?_) (mem_listedServices.mpr hlisted) rfl hrow
    cases start <;> rfl
  · exact field_replay (fun _ start _ hwritten ↦ url_serviceRow_of_some hwritten start)
      (fun _ before hnone ↦ url_serviceRow_of_none hnone before) hrow
      (or_eq_some_iff.mpr (.inl hurl))

theorem get_deployments_applySteps (hlisted : .deployment serverName serviceData ∈ steps) :
    ∃ row, (applySteps runtime environmentId autoManageCompose steps estate).deployments.get
        (deploymentKey environmentId serverName serviceData) = some row ∧
      lastWrite (deploymentKey environmentId serverName serviceData)
        (containerWrites environmentId steps) = some row.containerName ∧
      (row.composePath = none → settablePath autoManageCompose serviceData = none) := by
  have hmem : (serverName, serviceData) ∈ listedDeployments steps :=
    mem_listedDeployments.mpr hlisted
  have hupsert : listedUpsert environmentId autoManageCompose (serverName, serviceData) ∈
      (listedDeployments steps).map (listedUpsert environmentId autoManageCompose) :=
    mem_map_of_mem hmem
  obtain ⟨row, hrow⟩ := exists_replay_of_mem
    (estate.deployments.get (deploymentKey environmentId serverName serviceData)) hupsert rfl
  rw [deployments_applySteps, get_upsertAll]
  refine ⟨row, hrow, ?_, fun hnone ↦ ?_⟩
  · refine lastWrite_of_replay (fun other start ↦ ?_) hmem rfl hrow
    cases start <;> rfl
  · by_contra hpath
    have hset : row.composePath.isSome := by
      refine replay_of_mem (P := fun row ↦ row.composePath.isSome) (fun other _ _ before hsome ↦ ?_)
        hmem rfl (fun start ↦ ?_) hrow
      · show (before.composePath.or _).isSome = true
        rw [isSome_or, hsome, Bool.true_or]
      · have hsettable := isSome_iff_ne_none.mpr hpath
        cases start with
        | none => exact hsettable
        | some before =>
          show (before.composePath.or _).isSome = true
          rw [isSome_or, hsettable, Bool.or_true]
    exact isSome_iff_ne_none.mp hset hnone

/-- After the statements, the rows are as they are listed. -/
theorem withoutEffect_applySteps (hdistinct : ∀ first second, .server first ∈ steps →
      .server second ∈ steps → first.name = second.name → first = second) :
    WithoutEffect environmentId autoManageCompose
      (applySteps runtime environmentId autoManageCompose steps estate) steps where
  servers serverData hlisted := get_servers_applySteps runtime autoManageCompose estate hlisted
    fun other hother ↦ hdistinct other serverData hother hlisted
  images serviceData hlisted := by
    rw [images_applySteps, get_upsertAll, isSome_replay]
    exact .inr ⟨_, mem_map_of_mem (mem_listedImages.mpr hlisted), rfl⟩
  services _ hlisted := get_services_applySteps runtime autoManageCompose estate hlisted
  deployments _ _ hlisted := get_deployments_applySteps runtime autoManageCompose estate hlisted

end

theorem composePath_applySteps {path : Text} (hrow : estate.deployments.get key = some row)
    (hpath : row.composePath = some path) :
    ∃ after, (applySteps runtime environmentId autoManageCompose steps estate).deployments.get key =
      some after ∧ after.composePath = some path := by
  obtain ⟨after, hafter⟩ := exists_replay_some key
    ((listedDeployments steps).map (listedUpsert environmentId autoManageCompose)) row
  rw [deployments_applySteps, get_upsertAll, hrow]
  refine ⟨after, hafter, ?_⟩
  refine replay_invariant (P := (·.composePath = some path))
    (fun _ _ _ before hbefore ↦ ?_) hpath hafter
  show before.composePath.or _ = some path
  rw [hbefore, some_or]

theorem not_setsPath
    (hrow : estate.deployments.get (deploymentKey environmentId serverName serviceData) = some row)
    (hpath : row.composePath = none → settablePath autoManageCompose serviceData = none) :
    ¬ setsPath autoManageCompose serviceData ((applySteps runtime environmentId autoManageCompose
      steps estate).deployments.get (deploymentKey environmentId serverName serviceData)) := by
  unfold setsPath
  cases hfirst : row.composePath with
  | none => simp [hpath hfirst]
  | some path =>
    obtain ⟨after, hafter, hkept⟩ : ∃ after, (applySteps runtime environmentId autoManageCompose
      steps estate).deployments.get (deploymentKey environmentId serverName serviceData) =
        some after ∧ after.composePath = some path := composePath_applySteps hrow hfirst
    simp [hafter, hkept]

theorem auditLogs_applySteps
    (hpaths : ∀ serverName serviceData, .deployment serverName serviceData ∈ steps →
      ∃ row, estate.deployments.get (deploymentKey environmentId serverName serviceData) = some row ∧
        (row.composePath = none → settablePath autoManageCompose serviceData = none)) :
    (applySteps runtime environmentId autoManageCompose steps estate).auditLogs =
      estate.auditLogs := by
  induction steps using List.reverseRecOn with
  | nil => rfl
  | append_singleton steps last ih =>
    have hbefore := ih fun serverName serviceData hmem ↦
      hpaths serverName serviceData (mem_append_left _ hmem)
    rw [applySteps_concat]
    cases last with
    | deployment serverName serviceData =>
      obtain ⟨row, hrow, hpath⟩ := hpaths serverName serviceData
        (mem_append_right _ (mem_singleton.mpr rfl))
      show _ ++ (if _ then _ else _) = _
      rw [if_neg (not_setsPath hrow hpath), append_nil, hbefore]
    | _ => exact hbefore

section

variable (h : WithoutEffect environmentId autoManageCompose estate steps)

include h

theorem servers_eq_self :
    (applySteps runtime environmentId autoManageCompose steps estate).servers = estate.servers := by
  rw [servers_applySteps]
  refine upsertAll_map_eq_self fun serverData hlisted ↦ ?_
  have hfirst := h.servers serverData (mem_listedServers.mp hlisted)
  refine ⟨_, hfirst, fun row hrow ↦ ?_⟩
  refine replay_invariant (P := (· = serverRow serverData none))
    (fun other hother hkey before _ ↦ ?_) rfl hrow
  have hsame := h.servers other (mem_listedServers.mp hother)
  have hname : (⟨environmentId, other.name⟩ : UniqueName) = ⟨environmentId, serverData.name⟩ := hkey
  rw [hname, hfirst] at hsame
  exact (serverRow_eq other (some before)).trans (some.inj hsame).symm

theorem images_eq_self :
    (applySteps runtime environmentId autoManageCompose steps estate).images = estate.images := by
  rw [images_applySteps]
  refine upsertAll_map_eq_self fun serviceData hlisted ↦ ?_
  obtain ⟨first, hfirst⟩ := isSome_iff_exists.mp
    (h.images serviceData (mem_listedImages.mp hlisted))
  exact ⟨first, hfirst, fun row hrow ↦
    replay_invariant (P := (· = first)) (fun _ _ _ _ hbefore ↦ hbefore) rfl hrow⟩

theorem services_eq_self :
    (applySteps runtime environmentId autoManageCompose steps estate).services =
      estate.services := by
  rw [services_applySteps]
  refine upsertAll_map_eq_self fun serviceData hlisted ↦ ?_
  obtain ⟨first, hfirst, himage, htag, hurl⟩ :=
    h.services serviceData (mem_listedServices.mp hlisted)
  refine ⟨first, hfirst, fun row hrow ↦ ?_⟩
  have hrowImage : lastWrite _ (imageWrites environmentId steps) = some row.containerImage :=
    lastWrite_of_replay (fun other start ↦ by cases start <;> rfl) hlisted rfl hrow
  have hrowTag : lastWrite _ (tagWrites environmentId steps) = some row.imageTag :=
    lastWrite_of_replay (fun other start ↦ by cases start <;> rfl) hlisted rfl hrow
  have hrowUrl : row.healthCheckUrl = first.healthCheckUrl := by
    refine field_replay (fun _ start _ hwritten ↦ url_serviceRow_of_some hwritten start)
      (fun _ before hnone ↦ url_serviceRow_of_none hnone before) hrow (or_eq_some_iff.mpr ?_)
    cases hlast : lastWrite (⟨environmentId, serviceData.name⟩ : UniqueName)
      (urlWrites environmentId steps) with
    | none => exact .inr ⟨hlast, rfl⟩
    | some url => exact .inl (hlast.trans (congrArg some (hurl url hlast).symm))
  exact Service.ext (some.inj (hrowImage.symm.trans himage))
    (some.inj (hrowTag.symm.trans htag)) hrowUrl

theorem deployments_eq_self :
    (applySteps runtime environmentId autoManageCompose steps estate).deployments =
      estate.deployments := by
  rw [deployments_applySteps]
  refine upsertAll_map_eq_self fun ⟨serverName, serviceData⟩ hlisted ↦ ?_
  obtain ⟨first, hfirst, hcontainer, hpath⟩ :=
    h.deployments serverName serviceData (mem_listedDeployments.mp hlisted)
  refine ⟨first, hfirst, fun row hrow ↦ ?_⟩
  have hrowContainer : lastWrite _ (containerWrites environmentId steps) = some row.containerName :=
    lastWrite_of_replay (fun other start ↦ by cases start <;> rfl) hlisted rfl hrow
  have hrowPath : row.composePath = first.composePath := by
    refine replay_invariant (P := (·.composePath = first.composePath))
      (fun other hother hkey before hbefore ↦ ?_) rfl hrow
    obtain ⟨same, hsame, -, hother⟩ :=
      h.deployments other.1 other.2 (mem_listedDeployments.mp hother)
    have hkeys : deploymentKey environmentId other.1 other.2 =
      deploymentKey environmentId serverName serviceData := hkey
    rw [hkeys, hfirst] at hsame
    obtain rfl := some.inj hsame
    show before.composePath.or _ = first.composePath
    rw [hbefore]
    cases hpath : first.composePath with
    | none => exact hother hpath
    | some path => rfl
  exact ServiceDeployment.ext (some.inj (hrowContainer.symm.trans hcontainer)) hrowPath

/-- Listed rows that are there with the values listed last are not changed. -/
theorem applySteps_eq_self :
    applySteps runtime environmentId autoManageCompose steps estate = estate := by
  have haudits : (applySteps runtime environmentId autoManageCompose steps estate).auditLogs =
      estate.auditLogs :=
    auditLogs_applySteps fun serverName serviceData hmem ↦
      (h.deployments serverName serviceData hmem).imp fun _ hrow ↦ ⟨hrow.1, hrow.2.2⟩
  have hsettings : (applySteps runtime environmentId autoManageCompose steps
      estate).operationsSettings = estate.operationsSettings :=
    operationsSettings_applySteps steps estate
  exact Estate.ext hsettings (servers_eq_self h) (images_eq_self h) (services_eq_self h)
    (deployments_eq_self h) haudits

end

end

end

open Foundation List Option
open Secrets (Text)

/-- The tables after an import that has not thrown. -/
structure Imported (runtime : Runtime) (environmentId : String) (tfOutput : TerraformOutput)
    (before after : Estate) : Prop where
  servers : ∀ serverData ∈ tfOutput.servers, after.servers.get ⟨environmentId, serverData.name⟩ =
    some ⟨serverData.privateIp, serverData.publicIp, tagsText serverData.tags⟩
  deployments : ∀ serverData ∈ tfOutput.servers, ∀ serviceData ∈ serverData.services.getD [],
    ∃ row, after.deployments.get (deploymentKey environmentId serverData.name serviceData) =
      some row ∧ row.containerName = serviceData.containerName
  paths : ∀ key row path, before.deployments.get key = some row → row.composePath = some path →
    ∃ kept, after.deployments.get key = some kept ∧ kept.composePath = some path
  again : ∃ servers statements, (importFromTerraform { runtime with outage := fun _ ↦ false }
    environmentId tfOutput).run ⟨after, 0⟩ = (.ok servers, ⟨after, statements⟩)

/-- An import that throws leaves the tables as they were, and one that does not brings in the whole
output. -/
def Atomic (runtime : Runtime) (environmentId : String) (tfOutput : TerraformOutput)
    (estate : Estate) : Prop :=
  match (importFromTerraform runtime environmentId tfOutput).run ⟨estate, 0⟩ with
  | (.error _, after) => after.estate = estate
  | (.ok _, after) => Imported runtime environmentId tfOutput estate after.estate

/-- No deployment is listed with two container names. -/
def OneContainerEach (tfOutput : TerraformOutput) : Prop :=
  ∀ serverData ∈ tfOutput.servers, ∀ first ∈ serverData.services.getD [],
    ∀ second ∈ serverData.services.getD [], first.name = second.name →
      first.containerName = second.containerName

variable {serverName : Text} {serviceData : ServiceData}

section

variable {tfOutput : TerraformOutput}

theorem server_mem_importSteps :
    .server serverData ∈ importSteps tfOutput ↔ serverData ∈ tfOutput.servers := by
  simp [importSteps, serverSteps, serviceSteps]

theorem deployment_mem_importSteps :
    .deployment serverName serviceData ∈ importSteps tfOutput ↔
      ∃ serverData ∈ tfOutput.servers, serverData.name = serverName ∧
        serviceData ∈ serverData.services.getD [] := by
  simp only [importSteps, serverSteps, serviceSteps, mem_cons, mem_flatMap, not_mem_nil,
    reduceCtorEq, false_or, or_false, ImportStep.deployment.injEq]
  constructor
  · rintro ⟨serverData, hserver, other, hother, rfl, rfl⟩
    exact ⟨serverData, hserver, rfl, hother⟩
  · rintro ⟨serverData, hserver, rfl, hservice⟩
    exact ⟨serverData, hserver, serviceData, hservice, rfl, rfl⟩

/-- Servers with different names are known by them. -/
theorem server_eq_of_name_eq (hdistinct : (tfOutput.servers.map (·.name)).Nodup)
    {first second : ServerData} (hfirst : .server first ∈ importSteps tfOutput)
    (hsecond : .server second ∈ importSteps tfOutput) (hname : first.name = second.name) :
    first = second :=
  inj_on_of_nodup_map hdistinct (server_mem_importSteps.mp hfirst)
    (server_mem_importSteps.mp hsecond) hname

theorem mem_containerWrites {environmentId : String} {steps : List ImportStep}
    {containerName : Text} : (key, containerName) ∈ containerWrites environmentId steps ↔
      ∃ serverName serviceData, .deployment serverName serviceData ∈ steps ∧
        deploymentKey environmentId serverName serviceData = key ∧
          serviceData.containerName = containerName := by
  unfold containerWrites
  rw [List.mem_map]
  constructor
  · rintro ⟨⟨serverName, serviceData⟩, hlisted, hwrite⟩
    exact ⟨serverName, serviceData, mem_listedDeployments.mp hlisted, Prod.mk.inj hwrite⟩
  · rintro ⟨serverName, serviceData, hlisted, rfl, rfl⟩
    exact ⟨(serverName, serviceData), mem_listedDeployments.mpr hlisted, rfl⟩

theorem containerWrites_unique (hdistinct : (tfOutput.servers.map (·.name)).Nodup)
    (hone : OneContainerEach tfOutput) {environmentId : String} {first second : Text}
    (hfirst : (key, first) ∈ containerWrites environmentId (importSteps tfOutput))
    (hsecond : (key, second) ∈ containerWrites environmentId (importSteps tfOutput)) :
    first = second := by
  obtain ⟨firstName, firstData, hfirstStep, rfl, rfl⟩ := mem_containerWrites.mp hfirst
  obtain ⟨secondName, secondData, hsecondStep, hkeys, rfl⟩ := mem_containerWrites.mp hsecond
  obtain ⟨server, hserver, rfl, hfirstData⟩ := deployment_mem_importSteps.mp hfirstStep
  obtain ⟨other, hother, rfl, hsecondData⟩ := deployment_mem_importSteps.mp hsecondStep
  obtain ⟨hservices, hservers⟩ := ServiceServer.mk.inj hkeys
  obtain rfl := inj_on_of_nodup_map hdistinct hother hserver (UniqueName.mk.inj hservers).2
  exact hone other hother firstData hfirstData secondData hsecondData
    (UniqueName.mk.inj hservices).2.symm

end

section

variable {runtime : Runtime} {environmentId : String} {autoManageCompose : Bool}
  {steps : List ImportStep} {estate : Estate}

theorem Clashes.append {index : ℕ} (h : Clashes environmentId estate steps index)
    (rest : List ImportStep) : Clashes environmentId estate (steps ++ rest) index := by
  obtain ⟨serverName, serviceData, hstep, other, hother, hserver, hname⟩ := h
  obtain ⟨hindex, -⟩ := List.getElem?_eq_some_iff.mp hstep
  refine ⟨serverName, serviceData, ?_, other, hother, hserver, ?_⟩
  · rw [List.getElem?_append_left hindex, hstep]
  · rw [take_append_of_le_length hindex.le, hname]

theorem containersUnique_writeDeployment (hunique : estate.ContainersUnique)
    (hfree : ¬ estate.Taken (deploymentKey environmentId serverName serviceData)
      serviceData.containerName) :
    (writeDeployment environmentId autoManageCompose serverName serviceData
      estate).ContainersUnique := by
  have hget : ∀ other row, (writeDeployment environmentId autoManageCompose serverName serviceData
      estate).deployments.get other = some row →
        (other = deploymentKey environmentId serverName serviceData ∧
          row.containerName = serviceData.containerName) ∨
        (other ≠ deploymentKey environmentId serverName serviceData ∧
          estate.deployments.get other = some row) := by
    intro other row hrow
    rw [writeDeployment, OrderedMap.upsert, OrderedMap.get_set] at hrow
    split_ifs at hrow with hother
    · refine .inl ⟨hother, ?_⟩
      rw [← some.inj hrow]
      cases estate.deployments.get _ <;> rfl
    · exact .inr ⟨hother, hrow⟩
  have hother : ∀ other row, other ≠ deploymentKey environmentId serverName serviceData →
      estate.deployments.get other = some row →
        other.server = (deploymentKey environmentId serverName serviceData).server →
          row.containerName ≠ serviceData.containerName := fun other row hne hrow hserver hname ↦
    hfree ((taken_iff estate).mpr ⟨other, hne, hserver, by rw [hrow, map_some, hname]⟩)
  intro first second firstRow secondRow hfirst hsecond hserver hname
  rcases hget first firstRow hfirst with ⟨rfl, hfirstName⟩ | ⟨hfirstNe, hfirstRow⟩
  · rcases hget second secondRow hsecond with ⟨rfl, -⟩ | ⟨hsecondNe, hsecondRow⟩
    · rfl
    · exact absurd (hname.symm.trans hfirstName)
        (hother second secondRow hsecondNe hsecondRow hserver.symm)
  · rcases hget second secondRow hsecond with ⟨rfl, hsecondName⟩ | ⟨-, hsecondRow⟩
    · exact absurd (hname.trans hsecondName) (hother first firstRow hfirstNe hfirstRow hserver)
    · exact hunique first second firstRow secondRow hfirstRow hsecondRow hserver hname

theorem containersUnique_applySteps (hunique : estate.ContainersUnique)
    (hclash : ∀ index, ¬ Clashes environmentId estate steps index) :
    (applySteps runtime environmentId autoManageCompose steps estate).ContainersUnique := by
  induction steps using List.reverseRecOn with
  | nil => exact hunique
  | append_singleton steps last ih =>
    have hbefore := ih fun index hindex ↦ hclash index (hindex.append [last])
    rw [applySteps_concat]
    cases last with
    | deployment serverName serviceData =>
      refine containersUnique_writeDeployment hbefore fun htaken ↦ hclash steps.length ?_
      obtain ⟨other, hother, hserver, hname⟩ := (taken_iff _).mp htaken
      refine ⟨serverName, serviceData, List.getElem?_concat_length, other, hother, hserver, ?_⟩
      rwa [take_left, ← containerName_applySteps]
    | _ => exact hbefore

end

section

variable {runtime : Runtime} {environmentId : String} {autoManageCompose : Bool}
  {tfOutput : TerraformOutput} {estate : Estate}

theorem not_clashes_applySteps (hdistinct : (tfOutput.servers.map (·.name)).Nodup)
    (hone : OneContainerEach tfOutput) (hunique : estate.ContainersUnique)
    (hclash : ∀ index, ¬ Clashes environmentId estate (importSteps tfOutput) index) (index : ℕ) :
    ¬ Clashes environmentId (applySteps runtime environmentId autoManageCompose
      (importSteps tfOutput) estate) (importSteps tfOutput) index := by
  rintro ⟨serverName, serviceData, hstep, other, hother, hserver, hname⟩
  have hmem := mem_of_getElem? hstep
  have hafter : (applySteps runtime environmentId autoManageCompose (importSteps tfOutput)
      estate).ContainersUnique :=
    containersUnique_applySteps hunique hclash
  have hlast : ∀ key containerName,
      (key, containerName) ∈ containerWrites environmentId (importSteps tfOutput) →
        ((applySteps runtime environmentId autoManageCompose (importSteps tfOutput)
          estate).deployments.get key).map (·.containerName) = some containerName := by
    intro key containerName hwrite
    rw [containerName_applySteps, containerAfter, lastWrite_eq_some hwrite fun second hsecond ↦
      containerWrites_unique hdistinct hone hsecond hwrite, some_or]
  have hown := hlast _ _ (mem_containerWrites.mpr ⟨serverName, serviceData, hmem, rfl, rfl⟩)
  have hothers : ((applySteps runtime environmentId autoManageCompose (importSteps tfOutput)
      estate).deployments.get other).map (·.containerName) = some serviceData.containerName := by
    unfold containerAfter at hname
    cases hwritten : lastWrite other
      (containerWrites environmentId ((importSteps tfOutput).take index)) with
    | none => rwa [hwritten, none_or] at hname
    | some written =>
      rw [hwritten, some_or] at hname
      obtain ⟨otherName, otherData, hlisted, rfl, rfl⟩ :=
        mem_containerWrites.mp (mem_of_lastWrite hwritten)
      rw [← hname]
      exact hlast _ _ (mem_containerWrites.mpr
        ⟨otherName, otherData, mem_of_mem_take hlisted, rfl, rfl⟩)
  obtain ⟨ownRow, hownRow, hownName⟩ := map_eq_some_iff.mp hown
  obtain ⟨otherRow, hotherRow, hotherName⟩ := map_eq_some_iff.mp hothers
  exact hother (hafter other _ otherRow ownRow hotherRow hownRow hserver
    (hotherName.trans hownName.symm))

theorem run_of_not_throws (hthrows : ∀ index, ¬ Throws runtime environmentId estate
    (importSteps tfOutput) index) :
    (importFromTerraform runtime environmentId tfOutput).run ⟨estate, 0⟩ =
      (.ok (tfOutput.servers.map fun serverData ↦ ⟨environmentId, serverData.name⟩),
        ⟨applySteps runtime environmentId (estate.managesCompose environmentId)
          (importSteps tfOutput) estate, 0 + (importSteps tfOutput).length⟩) := by
  rw [run_importFromTerraform, run_forM_of_not_stopsAt (performs_performStep _ _ _) fun index ↦
    (stopsAt_iff _ _).not.mpr (hthrows index), stateAfter_nextStep]

/-- A run whose first statement that throws is known. -/
theorem run_of_throws {index : ℕ}
    (hthrows : Throws runtime environmentId estate (importSteps tfOutput) index)
    (hfirst : ∀ earlier < index, ¬ Throws runtime environmentId estate (importSteps tfOutput)
      earlier) :
    ∃ message statements, (importFromTerraform runtime environmentId tfOutput).run ⟨estate, 0⟩ =
      (.error message, ⟨applySteps runtime environmentId (estate.managesCompose environmentId)
        ((importSteps tfOutput).take index) estate, statements⟩) := by
  obtain ⟨message, hrun⟩ := run_forM_of_stopsAt (performs_performStep runtime environmentId
    (estate.managesCompose environmentId)) ((stopsAt_iff _ _).mpr hthrows)
    fun earlier hearlier ↦ (stopsAt_iff _ _).not.mpr (hfirst earlier hearlier)
  rw [run_importFromTerraform, hrun, stateAfter_nextStep]
  exact ⟨message, _, rfl⟩

/-- The tables after an import that does not throw. -/
theorem imported_applySteps (hdistinct : (tfOutput.servers.map (·.name)).Nodup)
    (hone : OneContainerEach tfOutput) (hunique : estate.ContainersUnique)
    (hclash : ∀ index, ¬ Clashes environmentId estate (importSteps tfOutput) index) :
    Imported runtime environmentId tfOutput estate (applySteps runtime environmentId
      (estate.managesCompose environmentId) (importSteps tfOutput) estate) where
  servers serverData hserver :=
    get_servers_applySteps runtime _ estate (server_mem_importSteps.mpr hserver)
      fun other hother hname ↦
        server_eq_of_name_eq hdistinct hother (server_mem_importSteps.mpr hserver) hname
  deployments serverData hserver serviceData hservice := by
    have hmem : .deployment serverData.name serviceData ∈ importSteps tfOutput :=
      deployment_mem_importSteps.mpr ⟨serverData, hserver, rfl, hservice⟩
    obtain ⟨row, hrow, hlast, -⟩ := get_deployments_applySteps runtime
      (estate.managesCompose environmentId) estate hmem
    refine ⟨row, hrow, containerWrites_unique hdistinct hone (mem_of_lastWrite hlast) ?_⟩
    exact mem_containerWrites.mpr ⟨_, _, hmem, rfl, rfl⟩
  paths key row path hrow hpath := composePath_applySteps hrow hpath
  again := by
    have hagain : ∀ index, ¬ Throws { runtime with outage := fun _ ↦ false } environmentId
        (applySteps runtime environmentId (estate.managesCompose environmentId)
          (importSteps tfOutput) estate) (importSteps tfOutput) index := by
      rintro index (⟨-, houtage⟩ | hagain)
      · exact absurd houtage Bool.false_ne_true
      · exact not_clashes_applySteps hdistinct hone hunique hclash index hagain
    have hwithout : WithoutEffect environmentId (estate.managesCompose environmentId)
        (applySteps runtime environmentId (estate.managesCompose environmentId)
          (importSteps tfOutput) estate) (importSteps tfOutput) :=
      withoutEffect_applySteps _ _ _ fun _ _ ↦ server_eq_of_name_eq hdistinct
    have hsettings : (applySteps runtime environmentId (estate.managesCompose environmentId)
        (importSteps tfOutput) estate).managesCompose environmentId =
          estate.managesCompose environmentId := by
      rw [Estate.managesCompose, operationsSettings_applySteps, ← Estate.managesCompose]
    rw [run_of_not_throws hagain, hsettings, applySteps_eq_self hwithout]
    exact ⟨_, _, rfl⟩

/-- An import is atomic and can be repeated if and only if nothing makes it throw and no deployment
is listed with two container names, or what it has listed when it throws is what the tables have.
Assumes: the servers of the output have different names. -/
theorem importAtomic_iff (runtime : Runtime) (environmentId : String) (tfOutput : TerraformOutput)
    (estate : Estate) (hdistinct : (tfOutput.servers.map (·.name)).Nodup)
    (hunique : estate.ContainersUnique) :
    Atomic runtime environmentId tfOutput estate ↔
      ((∀ index, ¬ Throws runtime environmentId estate (importSteps tfOutput) index) ∧
        OneContainerEach tfOutput) ∨
      ∃ index, Throws runtime environmentId estate (importSteps tfOutput) index ∧
        (∀ earlier < index, ¬ Throws runtime environmentId estate (importSteps tfOutput) earlier) ∧
        WithoutEffect environmentId (estate.managesCompose environmentId) estate
          ((importSteps tfOutput).take index) := by
  unfold Atomic
  have hstops := exists_first_stopsAt (refusesStep runtime environmentId
    (estate.managesCompose environmentId)) (nextStep runtime environmentId
      (estate.managesCompose environmentId)) (importSteps tfOutput) ⟨estate, 0⟩
  simp only [stopsAt_iff] at hstops
  rcases hstops with hthrows | ⟨index, hthrows, hfirst⟩
  · rw [run_of_not_throws hthrows]
    constructor
    · intro himported
      refine .inl ⟨hthrows, fun serverData hserver first hfirst second hsecond hname ↦ ?_⟩
      obtain ⟨row, hrow, hfirstName⟩ := himported.deployments serverData hserver first hfirst
      obtain ⟨other, hother, hsecondName⟩ := himported.deployments serverData hserver second hsecond
      rw [deploymentKey, hname, ← deploymentKey, hother] at hrow
      rw [← hfirstName, ← hsecondName, some.inj hrow]
    · rintro (⟨-, hone⟩ | ⟨index, habsurd, -⟩)
      · exact imported_applySteps hdistinct hone hunique fun index hclash ↦
          hthrows index (.inr hclash)
      · exact absurd habsurd (hthrows index)
  · obtain ⟨message, statements, hrun⟩ := run_of_throws hthrows hfirst
    rw [hrun]
    constructor
    · intro hunchanged
      refine .inr ⟨index, hthrows, hfirst, ?_⟩
      have hwithout : WithoutEffect environmentId (estate.managesCompose environmentId)
          (applySteps runtime environmentId (estate.managesCompose environmentId)
            ((importSteps tfOutput).take index) estate) ((importSteps tfOutput).take index) :=
        withoutEffect_applySteps _ _ _ fun first second hmem hother ↦
          server_eq_of_name_eq hdistinct (mem_of_mem_take hmem) (mem_of_mem_take hother)
      rwa [show applySteps _ _ _ _ _ = _ from hunchanged] at hwithout
    · rintro (⟨hnone, -⟩ | ⟨other, hother, hearlier, hwithout⟩)
      · exact absurd hthrows (hnone index)
      · have hsame : index = other := le_antisymm
          (not_lt.mp fun hlt ↦ hfirst other hlt hother)
          (not_lt.mp fun hlt ↦ hearlier index hlt hthrows)
        rw [← hsame] at hwithout
        exact applySteps_eq_self hwithout

/-- The other environments are as they were, no row is gone, and a path that is there stays. -/
structure Keeps (environmentId : String) (before after : Estate) : Prop where
  servers : KeepsOthers (·.environmentId = environmentId) before.servers after.servers
  images : KeepsOthers (·.environmentId = environmentId) before.images after.images
  services : KeepsOthers (·.environmentId = environmentId) before.services after.services
  deployments : KeepsOthers (·.server.environmentId = environmentId) before.deployments
    after.deployments
  paths : ∀ key row path, before.deployments.get key = some row → row.composePath = some path →
    ∃ left, after.deployments.get key = some left ∧ left.composePath = some path
  containersUnique : before.ContainersUnique → after.ContainersUnique

theorem keeps_applySteps {steps : List ImportStep}
    (hclash : ∀ index, ¬ Clashes environmentId estate steps index) :
    Keeps environmentId estate (applySteps runtime environmentId autoManageCompose steps estate) where
  servers := servers_applySteps _ _ ▸ OrderedMap.keepsOthers_upsertAll _ _ fun _ ↦ by rfl
  images := images_applySteps _ _ ▸ OrderedMap.keepsOthers_upsertAll _ _ fun _ ↦ by rfl
  services := services_applySteps _ _ ▸ OrderedMap.keepsOthers_upsertAll _ _ fun _ ↦ by rfl
  deployments := deployments_applySteps _ _ ▸ OrderedMap.keepsOthers_upsertAll _ _ fun _ ↦ by rfl
  paths _ _ _ hrow hpath := composePath_applySteps hrow hpath
  containersUnique hunique := containersUnique_applySteps hunique hclash

/-- Wherever an import ends, it leaves the other environments as they are, and removes and overrides
nothing that it must not. -/
theorem importFromTerraform_keeps (runtime : Runtime) (environmentId : String)
    (tfOutput : TerraformOutput) (estate : Estate) : Keeps environmentId estate
      ((importFromTerraform runtime environmentId tfOutput).run ⟨estate, 0⟩).2.estate := by
  have hstops := exists_first_stopsAt (refusesStep runtime environmentId
    (estate.managesCompose environmentId)) (nextStep runtime environmentId
      (estate.managesCompose environmentId)) (importSteps tfOutput) ⟨estate, 0⟩
  simp only [stopsAt_iff] at hstops
  rcases hstops with hthrows | ⟨index, hthrows, hfirst⟩
  · rw [run_of_not_throws hthrows]
    exact keeps_applySteps fun index hclash ↦ hthrows index (.inr hclash)
  · obtain ⟨message, statements, hrun⟩ := run_of_throws hthrows hfirst
    rw [hrun]
    refine keeps_applySteps fun earlier hclash ↦ ?_
    -- a statement before the one that throws would throw as well
    obtain ⟨serverName, serviceData, hstep, -⟩ := id hclash
    obtain ⟨hearlier, -⟩ := List.getElem?_eq_some_iff.mp hstep
    rw [length_take] at hearlier
    have hwhole := hclash.append ((importSteps tfOutput).drop index)
    rw [take_append_drop] at hwhole
    exact hfirst earlier (by omega) (.inr hwhole)

end

/-! ### Two deployments -/

/-- A runtime whose database is always there. -/
def steadyRuntime : Runtime where
  toUpperCase character := [character.toUpper]
  outage _ := false

def plainService (name containerName : String) : ServiceData where
  name := name.toList
  containerName := containerName.toList
  imageName := "shop/app".toList
  imageTag := none
  composePath := none
  healthCheckUrl := none

def plainServer (privateIp : String) (services : List ServiceData) : TerraformOutput where
  servers := [⟨"web-1".toList, privateIp.toList, none, [], some services⟩]

/-- The tables with a server on which a service `app` has the container `blue`, and a service `jobs`
the container `green`. -/
def blueGreen : Estate where
  operationsSettings := .empty
  servers := .set .empty ⟨"production", "web-1".toList⟩ ⟨"10.0.0.1".toList, none, "[]".toList⟩
  images := .empty
  services := .empty
  deployments :=
    (OrderedMap.empty.set ⟨⟨"production", "app".toList⟩, ⟨"production", "web-1".toList⟩⟩
      ⟨"blue".toList, none⟩).set
        ⟨⟨"production", "jobs".toList⟩, ⟨"production", "web-1".toList⟩⟩ ⟨"green".toList, none⟩
  auditLogs := []

def exchanged : TerraformOutput :=
  plainServer "10.0.0.2" [plainService "app" "green", plainService "jobs" "blue"]

/-- The import of the exchange throws, and the server has its new address. -/
theorem not_atomic_exchanged : (exchanged.servers.map (·.name)).Nodup ∧ blueGreen.ContainersUnique ∧
    ¬ Atomic steadyRuntime "production" exchanged blueGreen := by
  refine ⟨by decide, by decide, fun h ↦ ?_⟩
  have hserver := congrArg (fun estate ↦ estate.servers.get ⟨"production", "web-1".toList⟩) h
  exact absurd hserver (by decide)

/-- The import of a deployment whose container name is free is atomic. -/
theorem importAtomic_single : Atomic steadyRuntime "production"
    (plainServer "10.0.0.2" [plainService "app" "red"]) blueGreen := by
  refine (importAtomic_iff _ _ _ _ (by decide) (by decide)).mpr (.inl ⟨fun index hthrows ↦ ?_, ?_⟩)
  · rcases hthrows with ⟨-, houtage⟩ | ⟨serverName, serviceData, hstep, other, hother, hserver, hname⟩
    · exact absurd houtage Bool.false_ne_true
    · obtain ⟨server, hlisted, rfl, hservice⟩ :=
        deployment_mem_importSteps.mp (mem_of_getElem? hstep)
      obtain rfl := mem_singleton.mp hlisted
      obtain rfl := mem_singleton.mp hservice
      unfold containerAfter at hname
      cases hwritten : lastWrite other (containerWrites "production" ((importSteps (plainServer
        "10.0.0.2" [plainService "app" "red"])).take index)) with
      | none =>
        rw [hwritten, none_or] at hname
        have hfree : ¬ blueGreen.Taken (deploymentKey "production" "web-1".toList
          (plainService "app" "red")) "red".toList := by decide
        exact hfree ((taken_iff _).mpr ⟨other, hother, hserver, hname⟩)
      | some written =>
        obtain ⟨_, _, hmem, rfl, -⟩ := mem_containerWrites.mp (mem_of_lastWrite hwritten)
        obtain ⟨server, hserverListed, rfl, hserviceListed⟩ :=
          deployment_mem_importSteps.mp (mem_of_mem_take hmem)
        obtain rfl := mem_singleton.mp hserverListed
        obtain rfl := mem_singleton.mp hserviceListed
        exact hother rfl
  · intro server hlisted first hfirst second hsecond _
    obtain rfl := mem_singleton.mp hlisted
    rw [mem_singleton.mp hfirst, mem_singleton.mp hsecond]

end Bridgeport.Terraform
