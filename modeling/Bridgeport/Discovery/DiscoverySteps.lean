import Bridgeport.Discovery.DiscoverContainers
import Bridgeport.Foundation.Machine

/-!
# The steps of discovery

What one turn of the loop can do (`recordContainer_cases`). Registries and images are looked up or
added (`Prepared`). Then a container that has a deployment has its template and its deployment
updated, and one that has none gets a new deployment of a template of the same image, which may be
new.
-/

namespace Bridgeport.Discovery

open Foundation Secrets Docker List Option Table

variable {runtime : Runtime} {server : Server} {observed : Observation} {inventory : Inventory}

theorem toDigits_injective {first second : ℕ} (h : Nat.toDigits 10 first = Nat.toDigits 10 second) :
    first = second := by
  rw [← Nat.ofDigitChars_ten_toDigits (n := first), h, Nat.ofDigitChars_ten_toDigits]

theorem candidate_injective (name serverName : Text) :
    Function.Injective (candidate name serverName) := by
  intro first second h
  have hsame := append_cancel_left h
  by_cases hfirst : first = 0 <;> by_cases hsecond : second = 0
  · rw [hfirst, hsecond]
  · simp [hfirst, hsecond] at hsame
  · simp [hfirst, hsecond] at hsame
  · rw [if_neg hfirst, if_neg hsecond] at hsame
    have hdigits := toDigits_injective (List.cons.inj hsame).2
    omega

/-- Among more candidates than there are templates, one is free. -/
theorem exists_stops (server : Server) (name : Text) (containerImageId : String)
    (inventory : Inventory) :
    ∃ count ∈ List.range (inventory.services.rows.length + 1),
      candidateStops server name containerImageId inventory count = true := by
  by_contra h
  push Not at h
  have htaken : ∀ count ∈ List.range (inventory.services.rows.length + 1),
      candidate name server.name count ∈ inventory.services.rows.map (·.name) := by
    intro count hcount
    have hstops := h count hcount
    unfold candidateStops Inventory.serviceNamed at hstops
    cases hfound : inventory.services.findBy? Service.environmentName
        (server.environmentId, candidate name server.name count) with
    | none => simp [hfound] at hstops
    | some service =>
      obtain ⟨hmem, hkey⟩ := mem_of_findBy? hfound
      exact mem_map.mpr ⟨service, hmem, (Prod.ext_iff.mp hkey).2⟩
  have hnodup : ((List.range (inventory.services.rows.length + 1)).map
      (candidate name server.name)).Nodup :=
    nodup_range.map (candidate_injective name server.name)
  have hsubset : (List.range (inventory.services.rows.length + 1)).map
    (candidate name server.name) ⊆ inventory.services.rows.map (·.name) := by
    intro text htext
    obtain ⟨count, hcount, rfl⟩ := mem_map.mp htext
    exact htaken count hcount
  have hlength := (subperm_of_subset hnodup hsubset).length_le
  simp at hlength

variable {containerImageId : String}

theorem containerImageId_of_templateName {name : Text} {template : Service}
    (h : inventory.serviceNamed server.environmentId
      (templateName server name containerImageId inventory) = some template) :
    template.containerImageId = containerImageId := by
  unfold templateName at h
  cases hexisting : inventory.serviceNamed server.environmentId name with
  | none =>
    rw [hexisting] at h
    nomatch hexisting.symm.trans h
  | some existing =>
    simp only [hexisting] at h
    split_ifs at h with hsame
    · rw [hexisting] at h
      exact some.inj h ▸ hsame
    · obtain ⟨count, hcount, hstops⟩ := exists_stops server name containerImageId inventory
      have hfind := List.find?_isSome.mpr ⟨count, hcount, hstops⟩
      obtain ⟨first, hfirst⟩ := isSome_iff_exists.mp hfind
      have hstop : candidateStops server name containerImageId inventory first = true :=
        List.find?_some hfirst
      rw [probe, hfirst, getD_some] at h
      simpa [candidateStops, h] using hstop

/-! ### Registries and images -/

/-- A registry is found for the image, or the image is one of Docker Hub. -/
def Resolved (runtime : Runtime) (environmentId : String) (imageName : Text) (inventory : Inventory) :
    Prop :=
  ∃ result, matchRegistry runtime (parseRegistryFromImage imageName).1 imageName
    (inventory.registriesOf environmentId) = .ok result ∧
      (result = none → (parseRegistryFromImage imageName).2 = true)

variable {environmentId : String} {imageName : Text}

theorem findOrCreateRegistry_of_resolved (h : Resolved runtime environmentId imageName inventory) :
    ∃ id, findOrCreateRegistry runtime environmentId imageName inventory = .ok (inventory, id) := by
  obtain ⟨result, hresult, hhub⟩ := h
  unfold findOrCreateRegistry
  cases result with
  | none => exact ⟨none, by simp only [hresult, hhub rfl, if_pos]⟩
  | some id => exact ⟨some id, by simp only [hresult]⟩

variable {id : Option String} {after : Inventory}

/-- A lookup that does not throw changes nothing, or adds the registry of the image. -/
theorem findOrCreateRegistry_cases
    (h : findOrCreateRegistry runtime environmentId imageName inventory = .ok (after, id)) :
    (after = inventory ∧ Resolved runtime environmentId imageName inventory) ∨
      matchRegistry runtime (parseRegistryFromImage imageName).1 imageName
        (inventory.registriesOf environmentId) = .ok none ∧
      ∃ registry, registry = newRegistry runtime inventory environmentId
          (parseRegistryFromImage imageName).1 ∧
        (∀ other ∈ inventory.registries.rows, other.environmentName ≠ registry.environmentName) ∧
        after = { inventory with registries := inventory.registries.insert registry } := by
  unfold findOrCreateRegistry at h
  cases hmatch : matchRegistry runtime (parseRegistryFromImage imageName).1 imageName
      (inventory.registriesOf environmentId) with
  | error failure => simp [hmatch] at h
  | ok result =>
    cases result with
    | some found =>
      simp only [hmatch, Except.ok.injEq, Prod.mk.injEq] at h
      exact .inl ⟨h.1.symm, some found, hmatch, nofun⟩
    | none =>
      simp only [hmatch] at h
      split_ifs at h with hhub hclash
      · simp only [Except.ok.injEq, Prod.mk.injEq] at h
        exact .inl ⟨h.1.symm, none, hmatch, fun _ ↦ hhub⟩
      · simp only [Except.ok.injEq, Prod.mk.injEq] at h
        refine .inr ⟨rfl, _, rfl, ?_, h.1.symm⟩
        exact Table.findBy?_eq_none_iff.mp (not_isSome_iff_eq_none.mp hclash)

variable {registry : Registry}

theorem matchRegistry_append {registryUrl : Text} {registries : List Registry}
    (hpattern : registry.autoLinkPattern = none) {result : Option String}
    (h : matchRegistry runtime registryUrl imageName registries = .ok result) :
    matchRegistry runtime registryUrl imageName (registries ++ [registry]) = .ok (result.or
      (if registryUrl <:+: registry.registryUrl ∨ registry.registryUrl <:+: registryUrl then
        some registry.id else none)) := by
  induction registries with
  | nil =>
    obtain rfl := Except.ok.inj h
    rw [nil_append, none_or]
    unfold matchRegistry
    rw [hpattern, bind_none]
    split_ifs <;> rfl
  | cons first registries ih =>
    rw [cons_append]
    unfold matchRegistry at h ⊢
    by_cases hurl : registryUrl <:+: first.registryUrl ∨ first.registryUrl <:+: registryUrl
    · rw [if_pos hurl] at h ⊢
      obtain rfl := Except.ok.inj h
      rfl
    · rw [if_neg hurl] at h ⊢
      cases hfirst : first.autoLinkPattern.bind nonempty with
      | none =>
        simp only [hfirst] at h ⊢
        exact ih h
      | some pattern =>
        simp only [hfirst] at h ⊢
        cases htest : runtime.test pattern imageName with
        | none => simp [htest] at h
        | some matched =>
          cases matched with
          | true =>
            simp only [htest] at h ⊢
            obtain rfl := Except.ok.inj h
            rfl
          | false =>
            simp only [htest] at h ⊢
            exact ih h

theorem registriesOf_insert (hfresh : inventory.registries.Fresh registry.id)
    (environmentId : String) :
    Inventory.registriesOf { inventory with registries := inventory.registries.insert registry }
      environmentId = inventory.registriesOf environmentId ++
        if registry.environmentId = environmentId then [registry] else [] := by
  have hrows : (inventory.registries.insert registry).rows = inventory.registries.rows ++
    [registry] :=
    rows_insert hfresh
  unfold Inventory.registriesOf
  simp only [hrows, filter_append]
  by_cases h : registry.environmentId = environmentId <;> simp [h]

theorem Resolved.insert (h : Resolved runtime environmentId imageName inventory)
    (hpattern : registry.autoLinkPattern = none) (hfresh : inventory.registries.Fresh registry.id) :
    Resolved runtime environmentId imageName
      { inventory with registries := inventory.registries.insert registry } := by
  obtain ⟨result, hresult, hhub⟩ := h
  unfold Resolved
  rw [registriesOf_insert hfresh]
  split_ifs
  · refine ⟨_, matchRegistry_append hpattern hresult, fun hnone ↦ hhub ?_⟩
    exact (or_eq_none_iff.mp hnone).1
  · rw [append_nil]
    exact ⟨result, hresult, hhub⟩

theorem resolved_of_ok
    (h : findOrCreateRegistry runtime environmentId imageName inventory = .ok (after, id)) :
    Resolved runtime environmentId imageName after := by
  rcases findOrCreateRegistry_cases h with ⟨rfl, hresolved⟩ | ⟨hnone, registry, hregistry, -, rfl⟩
  · exact hresolved
  · have hpattern : registry.autoLinkPattern = none := by
      rw [hregistry]
      rfl
    have hfresh : inventory.registries.Fresh registry.id := by
      rw [hregistry]
      exact fresh_next runtime.ids inventory.registries
    have hurl : (parseRegistryFromImage imageName).1 <:+: registry.registryUrl := by
      rw [hregistry]
      exact (suffix_append _ _).isInfix
    have henvironment : registry.environmentId = environmentId := by
      rw [hregistry]
      rfl
    unfold Resolved
    rw [registriesOf_insert hfresh, if_pos henvironment]
    refine ⟨_, matchRegistry_append hpattern hnone, fun habsurd ↦ ?_⟩
    rw [if_pos (.inl hurl), none_or] at habsurd
    cases habsurd

/-- The rows behind the lookups of the registry and of the image. -/
structure Prepared (server : Server) (observed : Observation) (before after : Inventory)
    (image : ContainerImage) : Prop where
  services : after.services = before.services
  servers : after.servers = before.servers
  deployments : after.deployments = before.deployments
  registries : after.registries = before.registries ∨ ∃ registry, registry.autoLinkPattern = none ∧
    (∀ other ∈ before.registries.rows, other.environmentName ≠ registry.environmentName) ∧
      before.registries.Fresh registry.id ∧ after.registries = before.registries.insert registry
  images : (after.images = before.images ∧
      before.imageNamed server.environmentId observed.imageName = some image) ∨
    before.imageNamed server.environmentId observed.imageName = none ∧ before.images.Fresh image.id ∧
      image.environmentImage = (server.environmentId, observed.imageName) ∧
      after.images = before.images.insert image

theorem prepared_of_ok
    (h : findOrCreateRegistry runtime server.environmentId observed.imageName inventory =
      .ok (after, id)) :
    Prepared server observed inventory (findOrCreateContainerImage runtime server.environmentId
      observed.imageName observed.imageTag id after).1 (findOrCreateContainerImage runtime
        server.environmentId observed.imageName observed.imageTag id after).2 := by
  have hafter : after.services = inventory.services ∧ after.servers = inventory.servers ∧
      after.deployments = inventory.deployments ∧ after.images = inventory.images ∧
      (after.registries = inventory.registries ∨ ∃ registry, registry.autoLinkPattern = none ∧
        (∀ other ∈ inventory.registries.rows, other.environmentName ≠ registry.environmentName) ∧
          inventory.registries.Fresh registry.id ∧
          after.registries = inventory.registries.insert registry) := by
    rcases findOrCreateRegistry_cases h with ⟨rfl, -⟩ | ⟨-, registry, hregistry, hclash, rfl⟩
    · exact ⟨rfl, rfl, rfl, rfl, .inl rfl⟩
    · refine ⟨rfl, rfl, rfl, rfl, .inr ⟨registry, by rw [hregistry]; rfl, hclash, ?_, rfl⟩⟩
      rw [hregistry]
      exact fresh_next runtime.ids inventory.registries
  obtain ⟨hservices, hservers, hdeployments, himages, hregistries⟩ := hafter
  unfold findOrCreateContainerImage
  have hnamed : after.imageNamed server.environmentId observed.imageName =
      inventory.imageNamed server.environmentId observed.imageName := by
    rw [Inventory.imageNamed, himages, Inventory.imageNamed]
  cases hfound : after.imageNamed server.environmentId observed.imageName with
  | some existing =>
    exact ⟨hservices, hservers, hdeployments, hregistries, .inl ⟨himages, hnamed ▸ hfound⟩⟩
  | none =>
    refine ⟨hservices, hservers, hdeployments, hregistries, .inr ⟨hnamed ▸ hfound, ?_, rfl, ?_⟩⟩
    · rw [← himages]
      exact fresh_next runtime.ids after.images
    · show after.images.insert _ = _
      rw [himages]

section

variable {before after : Inventory} {image : ContainerImage}

section

variable (h : Prepared server observed before after image)
include h

theorem Prepared.images_extend : before.images.Extends after.images := by
  rcases h.images with ⟨hsame, -⟩ | ⟨-, -, -, hinsert⟩
  · rw [hsame]
    exact Table.Extends.refl _
  · rw [hinsert]
    exact extends_insert _ _

theorem Prepared.imageNamed :
    after.imageNamed server.environmentId observed.imageName = some image := by
  unfold Inventory.imageNamed
  rcases h.images with ⟨hsame, hfound⟩ | ⟨hnone, hfresh, hkey, hinsert⟩
  · rw [hsame]
    exact hfound
  · rw [hinsert, Table.findBy?_insert hfresh, if_pos hkey]
    rw [Inventory.imageNamed] at hnone
    rw [hnone, none_or]

theorem Prepared.constrained (hbefore : before.Constrained) : after.Constrained where
  registries := by
    rcases h.registries with hsame | ⟨registry, -, hclash, -, hinsert⟩
    · exact hsame ▸ hbefore.registries
    · exact hinsert ▸ unique_insert hbefore.registries hclash
  images := by
    rcases h.images with ⟨hsame, -⟩ | ⟨hnone, -, hkey, hinsert⟩
    · exact hsame ▸ hbefore.images
    · rw [hinsert]
      refine unique_insert hbefore.images fun other hother ↦ ?_
      rw [hkey]
      exact Table.findBy?_eq_none_iff.mp hnone other hother
  services := h.services ▸ hbefore.services
  serviceServers := h.deployments ▸ hbefore.serviceServers
  serverContainers := h.deployments ▸ hbefore.serverContainers
  serviceImages := by
    intro service hservice
    obtain ⟨found, hfound⟩ := isSome_iff_exists.mp
      (hbefore.serviceImages service (h.services ▸ hservice))
    exact isSome_iff_exists.mpr ⟨found, h.images_extend.find?_eq hfound⟩
  deploymentServices := by
    rw [h.services, h.deployments]
    exact hbefore.deploymentServices

theorem Prepared.deploymentOf (serverId : String) (name : Text) :
    after.deploymentOf serverId name = before.deploymentOf serverId name := by
  rw [Inventory.deploymentOf, h.deployments, Inventory.deploymentOf]

end

end

/-- What a turn can do behind the lookups. -/
theorem recordContainer_cases (runtime : Runtime) (server : Server) (observed : Observation)
    (inventory : Inventory) :
    (∃ failure, findOrCreateRegistry runtime server.environmentId observed.imageName inventory =
        .error failure ∧
      recordContainer runtime server observed inventory = (inventory, .error failure)) ∨
    ∃ found id prepared image,
      findOrCreateRegistry runtime server.environmentId observed.imageName inventory = .ok
        (found, id) ∧
      Prepared server observed inventory prepared image ∧ prepared.registries = found.registries ∧
      recordContainer runtime server observed inventory =
        match inventory.deploymentOf server.id observed.name with
        | some existing =>
          (recordExisting observed image.id existing prepared, .ok (existing.found observed))
        | none => recordNew runtime server observed image.id prepared := by
  unfold recordContainer
  cases hregistry : findOrCreateRegistry runtime server.environmentId observed.imageName inventory with
  | error failure => exact .inl ⟨failure, rfl, rfl⟩
  | ok result =>
    obtain ⟨found, id⟩ := result
    have hprepared := prepared_of_ok hregistry
    have hregistries : (findOrCreateContainerImage runtime server.environmentId observed.imageName
        observed.imageTag id found).1.registries = found.registries := by
      unfold findOrCreateContainerImage
      cases found.imageNamed server.environmentId observed.imageName <;> rfl
    refine .inr ⟨found, id, _, _, rfl, hprepared, hregistries, ?_⟩
    exact hprepared.deploymentOf server.id observed.name ▸ rfl

/-! ### A container with a deployment -/

variable {deployment : ServiceDeployment} {image : ContainerImage}

section Existing

variable {existing : ServiceDeployment} {containerImageId : String}

theorem id_synced (observed : Observation) (containerImageId : String) (service : Service) :
    Keyed.id (service.synced observed containerImageId) = Keyed.id service := rfl

theorem id_found (observed : Observation) (deployment : ServiceDeployment) :
    Keyed.id (deployment.found observed) = Keyed.id deployment := rfl

@[simp]
theorem find?_services_recordExisting (id : String) :
    (recordExisting observed containerImageId existing inventory).services.find? id =
      if existing.serviceId = id then
        (inventory.services.find? id).map (Service.synced observed containerImageId)
      else inventory.services.find? id :=
  Table.find?_update inventory.services existing.serviceId _
    (id_synced observed containerImageId) id

theorem serverContainer_found (deployment : ServiceDeployment) :
    (deployment.found observed).serverContainer = deployment.serverContainer := rfl

theorem findBy?_recordExisting (serverId : String) (name : Text) :
    (recordExisting observed containerImageId existing inventory).deploymentOf serverId name =
      (inventory.deploymentOf serverId name).map fun deployment ↦
        if deployment.id = existing.id then deployment.found observed else deployment :=
  Table.findBy?_update (id_found observed) serverContainer_found (serverId, name)

theorem constrained_recordExisting (h : inventory.Constrained)
    (himage : (inventory.images.find? image.id).isSome) :
    (recordExisting observed image.id existing inventory).Constrained where
  registries := h.registries
  images := h.images
  services := unique_update (id_synced observed image.id) h.services fun _ ↦ rfl
  serviceServers := unique_update (id_found observed) h.serviceServers fun _ ↦ rfl
  serverContainers := unique_update (id_found observed) h.serverContainers serverContainer_found
  serviceImages := by
    intro service hservice
    obtain ⟨before, hbefore, rfl⟩ :=
      (mem_update_iff (id_synced observed image.id)).mp hservice
    split_ifs
    · exact himage
    · exact h.serviceImages before hbefore
  deploymentServices := by
    intro deployment hdeployment
    obtain ⟨before, hbefore, rfl⟩ := (mem_update_iff (id_found observed)).mp hdeployment
    have hservice : (if Keyed.id before =
      existing.id then before.found observed else before).serviceId =
        before.serviceId := by
      split_ifs <;> rfl
    rw [hservice, find?_services_recordExisting]
    split_ifs
    · rw [isSome_map]
      exact h.deploymentServices before hbefore
    · exact h.deploymentServices before hbefore

end Existing

/-! ### A container without a deployment -/

/-- The template for a new deployment, which is there already or has been added. -/
structure Templated (server : Server) (observed : Observation) (containerImageId : String)
    (before after : Inventory) (service : Service) : Prop where
  image : service.containerImageId = containerImageId
  environment : service.environmentId = server.environmentId
  tables : (after = before ∧ before.serviceNamed server.environmentId
      (templateName server observed.name containerImageId before) = some service) ∨
    service.imageTag = observed.imageTag ∧ before.services.Fresh service.id ∧
      before.serviceNamed server.environmentId
        (templateName server observed.name containerImageId before) = none ∧
      (∀ other ∈ before.services.rows, other.environmentName ≠ service.environmentName) ∧
      after = { before with services := before.services.insert service }

theorem templated_findOrCreateTemplate (runtime : Runtime) (server : Server)
    (observed : Observation)
    (containerImageId : String) (inventory : Inventory) :
    Templated server observed containerImageId inventory
      (findOrCreateTemplate runtime server observed containerImageId inventory).1
      (findOrCreateTemplate runtime server observed containerImageId inventory).2 := by
  unfold findOrCreateTemplate
  cases hfound : inventory.serviceNamed server.environmentId
      (templateName server observed.name containerImageId inventory) with
  | some template =>
    simp only [hfound]
    exact ⟨containerImageId_of_templateName hfound,
      (Prod.ext_iff.mp (mem_of_findBy? hfound).2).1, .inl ⟨rfl, hfound⟩⟩
  | none =>
    simp only [hfound]
    exact ⟨rfl, rfl, .inr ⟨rfl, fresh_next runtime.ids inventory.services, hfound,
      Table.findBy?_eq_none_iff.mp hfound, rfl⟩⟩

section

variable {containerImageId : String} {before after : Inventory} {service : Service}

section

variable (h : Templated server observed containerImageId before after service)
include h

theorem Templated.services_extend : before.services.Extends after.services := by
  rcases h.tables with ⟨rfl, -⟩ | ⟨-, -, -, -, rfl⟩
  · exact Table.Extends.refl _
  · exact extends_insert _ _

theorem Templated.rest :
    after.registries = before.registries ∧ after.images = before.images ∧
      after.servers = before.servers ∧ after.deployments = before.deployments := by
  rcases h.tables with ⟨rfl, -⟩ | ⟨-, -, -, -, rfl⟩ <;> exact ⟨rfl, rfl, rfl, rfl⟩

theorem Templated.find? : after.services.find? service.id = some service := by
  rcases h.tables with ⟨rfl, hfound⟩ | ⟨-, hfresh, -, -, rfl⟩
  · exact Table.find?_of_mem (mem_of_findBy? hfound).1
  · exact Table.find?_insert_self hfresh

theorem Templated.constrained (hbefore : before.Constrained)
    (himage : (before.images.find? containerImageId).isSome) : after.Constrained := by
  rcases h.tables with ⟨rfl, -⟩ | ⟨-, -, -, hnew, rfl⟩
  · exact hbefore
  · exact { hbefore with
      services := unique_insert hbefore.services hnew
      serviceImages := by
        intro other hother
        rcases Table.mem_insert hother with hold | rfl
        · exact hbefore.serviceImages other hold
        · exact h.image ▸ himage
      deploymentServices := by
        intro deployment hdeployment
        obtain ⟨found, hfound⟩ := isSome_iff_exists.mp
          (hbefore.deploymentServices deployment hdeployment)
        exact isSome_iff_exists.mpr ⟨found, h.services_extend.find?_eq hfound⟩ }

end

end

section

variable (runtime : Runtime) (server : Server) (observed : Observation)

/-- What is done for a container without a deployment: its template may be deployed on the server
already, else the deployment is added. -/
theorem recordNew_cases (containerImageId : String) (inventory : Inventory) :
    ∃ templated service, Templated server observed containerImageId inventory templated service ∧
      (((∃ deployment ∈ inventory.deployments.rows,
        deployment.serviceServer = (service.id, server.id)) ∧
        recordNew runtime server observed containerImageId inventory =
          (templated, .error .uniqueConstraint)) ∨
      (∀ deployment ∈ inventory.deployments.rows,
        deployment.serviceServer ≠ (service.id, server.id)) ∧
        recordNew runtime server observed containerImageId inventory =
          ({ templated with
              deployments := inventory.deployments.insert
                (newDeployment runtime server observed service.id inventory) },
            .ok (newDeployment runtime server observed service.id inventory))) := by
  have htemplated := templated_findOrCreateTemplate runtime server observed containerImageId inventory
  refine ⟨_, _, htemplated, ?_⟩
  have hdeployments := htemplated.rest.2.2.2
  have hnew : newDeployment runtime server observed
      (findOrCreateTemplate runtime server observed containerImageId inventory).2.id
      (findOrCreateTemplate runtime server observed containerImageId inventory).1 =
        newDeployment runtime server observed
          (findOrCreateTemplate runtime server observed containerImageId inventory).2.id inventory := by
    unfold newDeployment
    rw [hdeployments]
  unfold recordNew
  simp only [hnew, hdeployments]
  split_ifs with hclash
  · obtain ⟨deployment, hfound⟩ := isSome_iff_exists.mp hclash
    exact .inl ⟨⟨deployment, mem_of_findBy? hfound⟩, rfl⟩
  · exact .inr ⟨Table.findBy?_eq_none_iff.mp (not_isSome_iff_eq_none.mp hclash), rfl⟩

theorem fresh_newDeployment (serviceId : String) (inventory : Inventory) :
    inventory.deployments.Fresh
      (Keyed.id (newDeployment runtime server observed serviceId inventory)) :=
  fresh_next runtime.ids inventory.deployments

end

theorem constrained_recordNew (h : inventory.Constrained)
    (himage : (inventory.images.find? containerImageId).isSome)
    (hnone : inventory.deploymentOf server.id observed.name = none) :
    (recordNew runtime server observed containerImageId inventory).1.Constrained := by
  obtain ⟨templated, service, htemplated, hcases⟩ :=
    recordNew_cases runtime server observed containerImageId inventory
  have hconstrained := htemplated.constrained h himage
  rcases hcases with ⟨-, hrecord⟩ | ⟨hfree, hrecord⟩
  · rw [hrecord]
    exact hconstrained
  · rw [hrecord]
    exact { hconstrained with
      serviceServers := unique_insert h.serviceServers hfree
      serverContainers := unique_insert h.serverContainers (Table.findBy?_eq_none_iff.mp hnone)
      deploymentServices := by
        intro deployment hdeployment
        rcases Table.mem_insert hdeployment with hold | rfl
        · obtain ⟨found, hfound⟩ :=
            isSome_iff_exists.mp (h.deploymentServices deployment hold)
          exact isSome_iff_exists.mpr ⟨found, htemplated.services_extend.find?_eq hfound⟩
        · exact isSome_iff_exists.mpr ⟨service, htemplated.find?⟩ }

/-! ### Invariants of a turn -/

theorem Prepared.image_isSome {before : Inventory} (h : Prepared server observed before after image) :
    (after.images.find? image.id).isSome := by
  have hmem := (mem_of_findBy? h.imageNamed).1
  exact isSome_iff_exists.mpr ⟨image, Table.find?_of_mem hmem⟩

theorem constrained_recordContainer (runtime : Runtime) (server : Server) (observed : Observation)
    (h : inventory.Constrained) :
    (recordContainer runtime server observed inventory).1.Constrained := by
  rcases recordContainer_cases runtime server observed inventory with ⟨failure, -, hrecord⟩ |
    ⟨found, id, prepared, image, -, hprepared, -, hrecord⟩
  · rw [hrecord]
    exact h
  · have hconstrained := hprepared.constrained h
    rw [hrecord]
    cases hexisting : inventory.deploymentOf server.id observed.name with
    | some existing => exact constrained_recordExisting hconstrained hprepared.image_isSome
    | none =>
      have hnone := (hprepared.deploymentOf server.id observed.name).trans hexisting
      exact constrained_recordNew hconstrained hprepared.image_isSome hnone

theorem find?_recordContainer {id : String} {service : Service}
    (h : inventory.services.find? id = some service)
    (hother : ∀ existing, inventory.deploymentOf server.id observed.name = some existing →
      existing.serviceId ≠ id) :
    (recordContainer runtime server observed inventory).1.services.find? id = some service := by
  rcases recordContainer_cases runtime server observed inventory with ⟨failure, -, hrecord⟩ |
    ⟨found, registryId, prepared, image, -, hprepared, -, hrecord⟩
  · rw [hrecord]
    exact h
  · have hprepare : prepared.services.find? id = some service := hprepared.services ▸ h
    rw [hrecord]
    cases hexisting : inventory.deploymentOf server.id observed.name with
    | some existing =>
      show (recordExisting observed image.id existing prepared).services.find? id = some service
      rw [find?_services_recordExisting, if_neg (hother existing hexisting), hprepare]
    | none =>
      show (recordNew runtime server observed image.id prepared).1.services.find? id = some service
      obtain ⟨templated, template, htemplated, ⟨-, hnew⟩ | ⟨-, hnew⟩⟩ :=
        recordNew_cases runtime server observed image.id prepared
      · rw [hnew]
        exact htemplated.services_extend.find?_eq hprepare
      · rw [hnew]
        exact htemplated.services_extend.find?_eq hprepare

theorem mem_deployments_recordContainer
    (hother : deployment.serverContainer ≠ (server.id, observed.name)) :
    deployment ∈ (recordContainer runtime server observed inventory).1.deployments.rows ↔
      deployment ∈ inventory.deployments.rows := by
  rcases recordContainer_cases runtime server observed inventory with ⟨failure, -, hrecord⟩ |
    ⟨found, registryId, prepared, image, -, hprepared, -, hrecord⟩
  · rw [hrecord]
  · rw [hrecord, ← hprepared.deployments]
    cases hexisting : inventory.deploymentOf server.id observed.name with
    | some existing =>
      obtain ⟨hmem, hkey⟩ := mem_of_findBy? hexisting
      rw [← hkey] at hother
      rw [← hprepared.deployments] at hmem
      exact mem_update_of_key_ne (id_found observed) serverContainer_found hmem hother
    | none =>
      obtain ⟨templated, template, htemplated, ⟨-, hnew⟩ | ⟨-, hnew⟩⟩ :=
        recordNew_cases runtime server observed image.id prepared
      · simp only [hnew, htemplated.rest.2.2.2]
      · simp only [hnew]
        rw [Table.mem_insert_iff (fresh_newDeployment runtime server observed template.id prepared)]
        refine or_iff_left fun hsame ↦ hother ?_
        rw [hsame]
        rfl

variable {existing : ServiceDeployment}

theorem recordContainer_existing (observed : Observation) {found : Inventory}
    (hregistry : findOrCreateRegistry runtime server.environmentId observed.imageName inventory =
      .ok (found, id)) (hexisting : inventory.deploymentOf server.id observed.name = some existing) :
    ∃ prepared image, Prepared server observed inventory prepared image ∧
      recordContainer runtime server observed inventory =
        (recordExisting observed image.id existing prepared, .ok (existing.found observed)) := by
  rcases recordContainer_cases runtime server observed inventory with ⟨failure, hfailed, -⟩ |
    ⟨other, registryId, prepared, image, -, hprepared, -, hrecord⟩
  · rw [hregistry] at hfailed
    cases hfailed
  · refine ⟨prepared, image, hprepared, ?_⟩
    rw [hrecord, hexisting]

/-! ### The loop of discovery -/

section

open Foundation Secrets Docker List Table

/-- The loop over the containers, as a machine. -/
def discovery (runtime : Runtime) (server : Server) : Machine Progress Listed where
  next progress listed := some (progress.advance runtime server listed)

variable {runtime : Runtime} {server : Server} {progress : Progress} {listed : Listed}

/-- What a turn does: nothing more after a failure, the failure of an inspection, or what it
records. -/
theorem advance_cases (runtime : Runtime) (server : Server) (progress : Progress)
    (listed : Listed) :
    (progress.failure.isSome ∧ progress.advance runtime server listed = progress) ∨
    (progress.failure = none ∧ listed.info = none ∧ progress.advance runtime server listed =
      ⟨progress.inventory, progress.discovered, some .inspection⟩) ∨
    ∃ info inventory result, progress.failure = none ∧ listed.info = some info ∧
      recordContainer runtime server (observe listed info) progress.inventory =
        (inventory, result) ∧
      ((∃ failure, result = .error failure ∧ progress.advance runtime server listed =
          ⟨inventory, progress.discovered, some failure⟩) ∨
        ∃ deployment, result = .ok deployment ∧ progress.advance runtime server listed =
          ⟨inventory, progress.discovered ++ [deployment], none⟩) := by
  unfold Progress.advance
  cases hfailure : progress.failure with
  | some failure => exact .inl ⟨rfl, rfl⟩
  | none =>
    cases hinfo : listed.info with
    | none => exact .inr (.inl ⟨rfl, rfl, by simp only [discoverContainer, hinfo]⟩)
    | some info =>
      have hturn : discoverContainer runtime server listed progress.inventory =
          recordContainer runtime server (observe listed info) progress.inventory := by
        simp only [discoverContainer, hinfo]
      cases hrecord : recordContainer runtime server (observe listed info) progress.inventory with
      | mk inventory result =>
        refine .inr (.inr ⟨info, inventory, result, rfl, rfl, hrecord, ?_⟩)
        rw [hturn, hrecord]
        cases result with
        | error failure => exact .inl ⟨failure, rfl, rfl⟩
        | ok deployment => exact .inr ⟨deployment, rfl, rfl⟩

variable {inventory : Inventory}

theorem advance_of_ok {info : ContainerDetails} (hrunning : progress.failure = none)
    (hinfo : listed.info = some info)
    (hrecord : recordContainer runtime server (observe listed info) progress.inventory =
      (inventory, .ok deployment)) : progress.advance runtime server listed =
      ⟨inventory, progress.discovered ++ [deployment], none⟩ := by
  unfold Progress.advance
  simp only [hrunning, discoverContainer, hinfo, hrecord]

variable {containers : List Listed}

/-- After a failure nothing more is done. -/
theorem foldl_of_failure {failure : Failure} (h : progress.failure = some failure) :
    containers.foldl (Progress.advance runtime server) progress = progress := by
  induction containers with
  | nil => rfl
  | cons listed containers ih =>
    have hadvance : progress.advance runtime server listed = progress := by
      unfold Progress.advance
      rw [h]
    rw [foldl_cons, hadvance]
    exact ih

/-- A turn of a loop that goes through has recorded its container. -/
theorem exists_record_of_completed (hrunning : progress.failure = none)
    (hcompleted : (containers.foldl (Progress.advance runtime server)
      (progress.advance runtime server listed)).failure = none) :
    ∃ info inventory deployment, listed.info = some info ∧
      recordContainer runtime server (observe listed info) progress.inventory =
        (inventory, .ok deployment) ∧
      progress.advance runtime server listed =
        ⟨inventory, progress.discovered ++ [deployment], none⟩ := by
  have hafter : (progress.advance runtime server listed).failure = none := by
    by_contra h
    obtain ⟨failure, hfailure⟩ := Option.ne_none_iff_exists'.mp h
    rw [foldl_of_failure hfailure, hfailure] at hcompleted
    cases hcompleted
  rcases advance_cases runtime server progress listed with ⟨hfailed, -⟩ | ⟨-, -, hsame⟩ |
    ⟨info, inventory, result, -, hinfo, hrecord, ⟨failure, -, hsame⟩ | ⟨deployment, hok, hsame⟩⟩
  · rw [hrunning] at hfailed
    cases hfailed
  · rw [hsame] at hafter
    cases hafter
  · rw [hsame] at hafter
    cases hafter
  · exact ⟨info, inventory, deployment, hinfo, by rw [hrecord, hok], hsame⟩

/-- What holds of the rows whatever a turn records. -/
theorem inventory_advance (motive : Inventory → Prop) (h : motive progress.inventory)
    (hrecord : ∀ info, progress.failure = none → listed.info = some info →
      motive (recordContainer runtime server (observe listed info) progress.inventory).1) :
    motive (progress.advance runtime server listed).inventory := by
  rcases advance_cases runtime server progress listed with ⟨-, hsame⟩ | ⟨-, -, hsame⟩ |
    ⟨info, inventory, result, hrunning, hinfo, hturn, ⟨failure, -, hsame⟩ | ⟨deployment, -, hsame⟩⟩
  · rw [hsame]
    exact h
  · rw [hsame]
    exact h
  · have hmotive := hrecord info hrunning hinfo
    rw [hturn] at hmotive
    exact hsame ▸ hmotive
  · have hmotive := hrecord info hrunning hinfo
    rw [hturn] at hmotive
    exact hsame ▸ hmotive

theorem constrained_advance (h : progress.inventory.Constrained) :
    (progress.advance runtime server listed).inventory.Constrained :=
  inventory_advance Inventory.Constrained h fun info _ _ ↦
    constrained_recordContainer runtime server (observe listed info) h

theorem constrained_foldl (containers : List Listed) (h : progress.inventory.Constrained) :
    (containers.foldl (Progress.advance runtime server) progress).inventory.Constrained := by
  induction containers generalizing progress with
  | nil => exact h
  | cons listed containers ih => exact ih (constrained_advance h)

theorem servers_foldl (containers : List Listed) :
    (containers.foldl (Progress.advance runtime server) progress).inventory.servers =
      progress.inventory.servers := by
  induction containers generalizing progress with
  | nil => rfl
  | cons listed containers ih =>
    rw [foldl_cons, ih]
    refine inventory_advance (fun inventory ↦ inventory.servers = progress.inventory.servers) rfl ?_
    intro info _ _
    rcases recordContainer_cases runtime server (observe listed info) progress.inventory with
      ⟨failure, -, hrecord⟩ | ⟨found, id, prepared, image, -, hprepared, -, hrecord⟩
    · rw [hrecord]
    · rw [hrecord, ← hprepared.servers]
      cases progress.inventory.deploymentOf server.id (observe listed info).name with
      | some existing => rfl
      | none =>
        obtain ⟨templated, template, htemplated, ⟨-, hnew⟩ | ⟨-, hnew⟩⟩ :=
          recordNew_cases runtime server (observe listed info) image.id prepared
        · simp only [hnew, htemplated.rest.2.2.1]
        · simp only [hnew, htemplated.rest.2.2.1]

/-- Discovery leaves the deployments of unlisted containers as they are. -/
theorem mem_deployments_foldl
    (h : deployment.serverId = server.id → deployment.containerName ∉ containers.map (·.name)) :
    deployment ∈ (containers.foldl
      (Progress.advance runtime server) progress).inventory.deployments.rows ↔
      deployment ∈ progress.inventory.deployments.rows := by
  induction containers generalizing progress with
  | nil => exact Iff.rfl
  | cons listed containers ih =>
    rw [foldl_cons, ih fun hserver hmem ↦ h hserver (mem_cons_of_mem _ hmem)]
    refine inventory_advance (fun inventory ↦ deployment ∈ inventory.deployments.rows ↔
      deployment ∈ progress.inventory.deployments.rows) Iff.rfl fun info _ _ ↦ ?_
    refine mem_deployments_recordContainer fun hsame ↦ h (Prod.ext_iff.mp hsame).1 ?_
    have hname : deployment.containerName = listed.name := (Prod.ext_iff.mp hsame).2
    rw [hname]
    exact mem_cons_self

/-- The deployment of a container on the server, and its template. -/
structure Holds (server : Server) (name : Text) (service : Service) (inventory : Inventory) : Prop where
  deployment : ∃ deployment ∈ inventory.deployments.rows,
    deployment.serverContainer = (server.id, name) ∧ deployment.serviceId = service.id
  service : inventory.services.find? service.id = some service

variable {name : Text} {service : Service}

/-- A turn for another container leaves the template of a container alone. -/
theorem Holds.record (h : Holds server name service inventory) (other : Observation)
    (hconstrained : inventory.Constrained) (hother : other.name ≠ name) :
    Holds server name service (recordContainer runtime server other inventory).1 := by
  obtain ⟨deployment, hmem, hcontainer, hservice⟩ := h.deployment
  refine ⟨⟨deployment, ?_, hcontainer, hservice⟩, find?_recordContainer h.service ?_⟩
  · refine (mem_deployments_recordContainer ?_).mpr hmem
    rw [hcontainer]
    exact fun hsame ↦ hother (Prod.ext_iff.mp hsame).2.symm
  · intro existing hexisting hsame
    obtain ⟨hexists, hkey⟩ := mem_of_findBy? hexisting
    have hserver : deployment.serverId = existing.serverId :=
      (Prod.ext_iff.mp hcontainer).1.trans (Prod.ext_iff.mp hkey).1.symm
    have hdeployment : deployment = existing := hconstrained.serviceServers deployment hmem existing
      hexists (Prod.ext (hservice.trans hsame.symm) hserver)
    rw [hdeployment, hkey] at hcontainer
    exact hother (Prod.ext_iff.mp hcontainer).2

section

variable (h : Holds server name service progress.inventory)
  (hconstrained : progress.inventory.Constrained)
include h hconstrained

theorem Holds.advance (hother : listed.name ≠ name) :
    Holds server name service (progress.advance runtime server listed).inventory :=
  inventory_advance (Holds server name service) h fun info _ _ ↦
    h.record (observe listed info) hconstrained hother

/-- The turns of a whole loop for other containers. -/
theorem Holds.foldl (hother : name ∉ containers.map (·.name)) :
    Holds server name service
      (containers.foldl (Progress.advance runtime server) progress).inventory := by
  induction containers generalizing progress with
  | nil => exact h
  | cons listed containers ih =>
    rw [map_cons, mem_cons, not_or] at hother
    exact ih (h.advance hconstrained (Ne.symm hother.1)) (constrained_advance hconstrained) hother.2

end

theorem holds_recordExisting (observed : Observation) (containerImageId : String)
    (hexisting : inventory.deploymentOf server.id observed.name = some existing)
    (hservice : inventory.services.find? existing.serviceId = some service) :
    Holds server observed.name (service.synced observed containerImageId)
      (recordExisting observed containerImageId existing inventory) := by
  have hid : service.id = existing.serviceId := (Table.find?_eq_some_iff.mp hservice).2
  constructor
  · have hfound : (recordExisting observed containerImageId existing inventory).deploymentOf server.id
        observed.name = some (existing.found observed) := by
      rw [findBy?_recordExisting, hexisting, Option.map_some, if_pos rfl]
    exact ⟨_, (mem_of_findBy? hfound).1, (mem_of_findBy? hfound).2, hid.symm⟩
  · show (recordExisting observed containerImageId existing inventory).services.find? service.id = _
    rw [find?_services_recordExisting, hid, if_pos rfl, hservice]
    rfl

/-! ### An installation with two servers -/

def plainRuntime : Runtime where
  ids := KeySupply.longer
  test _ _ := some false

def firstServer : Server :=
  ⟨"first", "first".toList, "production"⟩

/-- A running container without health check and ports. -/
def runningContainer (name image : Text) : Listed where
  name := name
  image := image
  state := "running".toList
  info := some ⟨"running".toList, true, none, [], image⟩

def runningDeployment (id serviceId serverId : String) (containerName : Text) : ServiceDeployment :=
  ⟨id, serviceId, serverId, containerName, "running".toList, "running".toList, "none".toList, none, .found⟩

def sharedInventory : Inventory where
  registries := Table.empty
  images := ⟨[⟨"nginx", "nginx".toList, "nginx".toList, "1.25".toList, "production", none⟩], by decide⟩
  services := ⟨[⟨"web", "web".toList, "1.25".toList, "production", "nginx"⟩], by decide⟩
  servers := ⟨[firstServer, ⟨"second", "second".toList, "production"⟩], by decide⟩
  deployments := ⟨[runningDeployment "web-first" "web" "first" "web".toList,
    runningDeployment "web-second" "web" "second" "web".toList], by decide⟩

theorem constrained_sharedInventory : sharedInventory.Constrained where
  registries := by decide
  images := by decide
  services := by decide
  serviceServers := by decide
  serverContainers := by decide
  serviceImages := by decide
  deploymentServices := by decide

end

end Bridgeport.Discovery
