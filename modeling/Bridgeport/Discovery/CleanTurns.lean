import Bridgeport.Discovery.DiscoverySteps

/-!
# Turns that go through

A turn goes through and settles its container if it finds a registry or can name a new one, and the
template that a container without a deployment takes over has no deployment on the server yet and
the tag of the container (`settled_foldl`). Conversely the turns of a loop that goes through and
leaves all its containers settled are of this kind (`meets_of_settled`).
-/

namespace Bridgeport.Discovery

open Foundation Secrets Docker List Option Table

variable {runtime : Runtime} {server : Server} {observed : Observation} {inventory : Inventory}

variable {after before : Inventory} {found : ContainerImage}

section

/-- The rows are what a turn for the container makes of them. -/
structure Settled (runtime : Runtime) (server : Server) (observed : Observation)
    (inventory : Inventory) : Prop where
  resolved : Resolved runtime server.environmentId observed.imageName inventory
  rows : ∃ image deployment service,
    inventory.imageNamed server.environmentId observed.imageName = some image ∧
    inventory.deploymentOf server.id observed.name = some deployment ∧
    deployment.found observed = deployment ∧
    inventory.services.find? deployment.serviceId = some service ∧
    service.synced observed image.id = service

theorem Settled.record (h : Settled runtime server observed inventory) :
    ∃ deployment, recordContainer runtime server observed inventory =
      (inventory, .ok deployment) := by
  obtain ⟨image, deployment, service, himage, hdeployment, hfound, hservice, hsynced⟩ := h.rows
  obtain ⟨id, hregistry⟩ := findOrCreateRegistry_of_resolved h.resolved
  have hcontainer : findOrCreateContainerImage runtime server.environmentId observed.imageName
      observed.imageTag id inventory = (inventory, image) := by
    unfold findOrCreateContainerImage
    rw [himage]
  have hservices : inventory.services.update deployment.serviceId (Service.synced observed image.id)
      (id_synced observed image.id) = inventory.services := by
    refine Table.update_eq_self (id_synced observed image.id) fun row hrow hid ↦ ?_
    have hsame := Table.find?_eq_some_iff.mpr ⟨hrow, hid⟩
    rw [some.inj (hsame.symm.trans hservice)]
    exact hsynced
  have hdeployments : inventory.deployments.update deployment.id (ServiceDeployment.found observed)
      (id_found observed) = inventory.deployments := by
    refine Table.update_eq_self (id_found observed) fun row hrow hid ↦ ?_
    rw [eq_of_id_eq hrow (mem_of_findBy? hdeployment).1 hid]
    exact hfound
  refine ⟨deployment.found observed, ?_⟩
  unfold recordContainer
  simp only [hregistry, hcontainer, hdeployment]
  unfold recordExisting
  rw [hservices, hdeployments]

/-- The deployment and the template of a container with a deployment, behind its turn. -/
theorem settled_existing {found : Inventory} {id : Option String} {existing : ServiceDeployment}
    (hconstrained : inventory.Constrained)
    (hregistry : findOrCreateRegistry runtime server.environmentId observed.imageName inventory =
      .ok (found, id))
    (hexisting : inventory.deploymentOf server.id observed.name = some existing) :
    Settled runtime server observed (recordContainer runtime server observed inventory).1 := by
  obtain ⟨service, hservice⟩ := isSome_iff_exists.mp
    (hconstrained.deploymentServices existing (mem_of_findBy? hexisting).1)
  rcases recordContainer_cases runtime server observed inventory with ⟨failure, hfailed, -⟩ |
    ⟨other, registryId, prepared, image, hok, hprepared, hregistries, hrecord⟩
  · rw [hregistry] at hfailed
    cases hfailed
  rw [hrecord, hexisting]
  constructor
  · obtain ⟨result, hresult, hhub⟩ := resolved_of_ok hok
    refine ⟨result, ?_, hhub⟩
    rw [← hresult]
    unfold Inventory.registriesOf
    rw [← hregistries]
    rfl
  · refine ⟨image, existing.found observed, service.synced observed image.id,
      hprepared.imageNamed, ?_,
      rfl, ?_, rfl⟩
    · show (recordExisting observed image.id existing prepared).deploymentOf server.id observed.name = _
      rw [findBy?_recordExisting, hprepared.deploymentOf, hexisting, map_some, if_pos rfl]
    · show (recordExisting observed image.id existing prepared).services.find? existing.serviceId = _
      rw [find?_services_recordExisting, if_pos rfl, hprepared.services, hservice]
      rfl

/-! ### Other containers -/

variable {other : Observation} {image : ContainerImage}

/-- The lookups of other containers keep an image resolved and its row. -/
theorem Prepared.resolved (h : Prepared server other before after image)
    (hresolved : Resolved runtime server.environmentId observed.imageName before) :
    Resolved runtime server.environmentId observed.imageName after := by
  obtain ⟨result, hresult, hhub⟩ : Resolved runtime server.environmentId observed.imageName
      { before with registries := after.registries } := by
    rcases h.registries with hsame | ⟨registry, hpattern, -, hfresh, hinsert⟩
    · rw [hsame]
      exact hresolved
    · rw [hinsert]
      exact hresolved.insert hpattern hfresh
  exact ⟨result, hresult, hhub⟩

theorem Prepared.imageNamed_of_some (h : Prepared server other before after image)
    (hfound : before.imageNamed server.environmentId observed.imageName = some found) :
    after.imageNamed server.environmentId observed.imageName = some found := by
  unfold Inventory.imageNamed
  rcases h.images with ⟨hsame, -⟩ | ⟨-, -, -, hinsert⟩
  · rw [hsame]
    exact hfound
  · rw [hinsert]
    exact Table.findBy?_insert_of_some hfound

/-- A turn keeps the registries and the images that it finds. -/
theorem lookups_recordContainer (other : Observation)
    (hresolved : Resolved runtime server.environmentId observed.imageName inventory)
    (hfound : inventory.imageNamed server.environmentId observed.imageName = some found) :
    Resolved runtime server.environmentId observed.imageName
        (recordContainer runtime server other inventory).1 ∧
      (recordContainer runtime server other inventory).1.imageNamed server.environmentId
        observed.imageName = some found := by
  rcases recordContainer_cases runtime server other inventory with ⟨failure, -, hrecord⟩ |
    ⟨registered, registryId, prepared, image, -, hprepared, -, hrecord⟩
  · rw [hrecord]
    exact ⟨hresolved, hfound⟩
  · have hprepare : Resolved runtime server.environmentId observed.imageName prepared :=
      hprepared.resolved hresolved
    have himage : prepared.imageNamed server.environmentId observed.imageName = some found :=
      hprepared.imageNamed_of_some hfound
    rw [hrecord]
    cases inventory.deploymentOf server.id other.name with
    | some existing => exact ⟨hprepare, himage⟩
    | none =>
      obtain ⟨templated, template, htemplated, ⟨-, hnew⟩ | ⟨-, hnew⟩⟩ :=
        recordNew_cases runtime server other image.id prepared
      all_goals
        obtain ⟨hregistries, himages, -, -⟩ := htemplated.rest
        simp only [hnew]
        unfold Resolved Inventory.registriesOf Inventory.imageNamed at *
        simp only [hregistries, himages]
        exact ⟨hprepare, himage⟩

/-- A turn for another container keeps a container settled. -/
theorem Settled.record_other (h : Settled runtime server observed inventory)
    (hconstrained : inventory.Constrained) (hother : other.name ≠ observed.name) :
    Settled runtime server observed (recordContainer runtime server other inventory).1 := by
  obtain ⟨image, deployment, service, himage, hdeployment, hfound, hservice, hsynced⟩ := h.rows
  obtain ⟨hresolved, hnamed⟩ := lookups_recordContainer other h.resolved himage
  obtain ⟨hmem, hkey⟩ := mem_of_findBy? hdeployment
  have hid : service.id = deployment.serviceId := (Table.find?_eq_some_iff.mp hservice).2
  have hholds : Holds server observed.name service inventory :=
    ⟨⟨deployment, hmem, hkey, hid.symm⟩, hid ▸ hservice⟩
  have hafter : Holds server observed.name service
    (recordContainer runtime server other inventory).1 :=
    hholds.record other hconstrained hother
  have hconstrained' := constrained_recordContainer runtime server other hconstrained
  refine ⟨hresolved, image, deployment, service, hnamed, ?_, hfound, hid ▸ hafter.service, hsynced⟩
  refine (Table.findBy?_eq_some_iff hconstrained'.serverContainers).mpr ⟨?_, hkey⟩
  refine (mem_deployments_recordContainer ?_).mpr hmem
  rw [hkey]
  exact fun hsame ↦ hother (Prod.ext_iff.mp hsame).2.symm

/-- The container of an element of the listing is settled. -/
def ListedSettled (runtime : Runtime) (server : Server) (inventory : Inventory) (listed : Listed) : Prop :=
  ∃ info, listed.info = some info ∧ Settled runtime server (observe listed info) inventory

variable {progress : Progress} {listed : Listed} {containers : List Listed}

theorem ListedSettled.foldl (h : ListedSettled runtime server progress.inventory listed)
    (hconstrained : progress.inventory.Constrained)
    (hother : listed.name ∉ containers.map (·.name)) :
    ListedSettled runtime server
      (containers.foldl (Progress.advance runtime server) progress).inventory listed := by
  induction containers generalizing progress with
  | nil => exact h
  | cons next containers ih =>
    rw [map_cons, mem_cons, not_or] at hother
    refine ih ?_ (constrained_advance hconstrained) hother.2
    obtain ⟨info, hinfo, hsettled⟩ := h
    refine inventory_advance (fun inventory ↦ ListedSettled runtime server inventory listed)
      ⟨info, hinfo, hsettled⟩ fun nextInfo _ _ ↦ ⟨info, hinfo, ?_⟩
    exact hsettled.record_other hconstrained (Ne.symm hother.1)

/-- The loop over settled containers goes through and changes nothing. -/
theorem foldl_of_settled (hrunning : progress.failure = none)
    (h : ∀ listed ∈ containers, ListedSettled runtime server progress.inventory listed) :
    (containers.foldl (Progress.advance runtime server) progress).inventory = progress.inventory ∧
      (containers.foldl (Progress.advance runtime server) progress).failure = none := by
  induction containers generalizing progress with
  | nil => exact ⟨rfl, hrunning⟩
  | cons listed containers ih =>
    obtain ⟨info, hinfo, hsettled⟩ := h listed mem_cons_self
    obtain ⟨deployment, hrecord⟩ := hsettled.record
    rw [foldl_cons, advance_of_ok hrunning hinfo hrecord]
    exact ih rfl fun other hother ↦ h other (mem_cons_of_mem listed hother)

end

/-! ### Turns that go through -/

/-- A registry is found for the image, or the image needs none, or the name of the new one is not
taken. -/
def RegistryAvailable (runtime : Runtime) (environmentId : String) (imageName : Text)
    (inventory : Inventory) : Prop :=
  ∃ result, matchRegistry runtime (parseRegistryFromImage imageName).1 imageName
      (inventory.registriesOf environmentId) = .ok result ∧
    (result = none → (parseRegistryFromImage imageName).2 = true ∨
      ∀ other ∈ inventory.registries.rows, other.environmentName ≠
        (newRegistry runtime inventory environmentId (parseRegistryFromImage imageName).1).environmentName)

theorem exists_ok_iff {environmentId : String} {imageName : Text} :
    (∃ result, findOrCreateRegistry runtime environmentId imageName inventory = .ok result) ↔
      RegistryAvailable runtime environmentId imageName inventory := by
  constructor
  · intro ⟨⟨after, id⟩, hok⟩
    rcases findOrCreateRegistry_cases hok with ⟨-, result, hresult, hhub⟩ |
      ⟨hnone, registry, hregistry, hfree, -⟩
    · exact ⟨result, hresult, fun hnone ↦ Or.inl (hhub hnone)⟩
    · exact ⟨none, hnone, fun _ ↦ Or.inr (hregistry ▸ hfree)⟩
  · intro ⟨result, hresult, havailable⟩
    unfold findOrCreateRegistry
    cases result with
    | some id => exact ⟨(inventory, some id), by simp only [hresult]⟩
    | none =>
      simp only [hresult]
      split_ifs with hhub htaken
      · exact ⟨_, rfl⟩
      · obtain ⟨other, hother⟩ := isSome_iff_exists.mp htaken
        obtain ⟨hmem, hname⟩ := mem_of_findBy? hother
        exact absurd hname ((havailable rfl).resolve_left hhub other hmem)
      · exact ⟨_, rfl⟩

/-- The template that a container without a deployment takes over has its tag, and no deployment on
the server. -/
def TemplateFits (server : Server) (observed : Observation) (inventory : Inventory) : Prop :=
  inventory.deploymentOf server.id observed.name = none →
  ∀ image, inventory.imageNamed server.environmentId observed.imageName = some image →
  ∀ template, inventory.serviceNamed server.environmentId
      (templateName server observed.name image.id inventory) = some template →
    template.imageTag = observed.imageTag ∧
      ∀ deployment ∈ inventory.deployments.rows, deployment.serviceServer ≠ (template.id, server.id)

/-- The turn finds what it needs. -/
def CleanTurn (runtime : Runtime) (server : Server) (progress : Progress) (listed : Listed) : Prop :=
  progress.failure = none → ∀ info, listed.info = some info →
    RegistryAvailable runtime server.environmentId (observe listed info).imageName progress.inventory ∧
      TemplateFits server (observe listed info) progress.inventory

theorem templateName_congr (h : after.services = before.services) (name : Text)
    (containerImageId : String) : templateName server name containerImageId after =
      templateName server name containerImageId before := by
  have hnamed : after.serviceNamed = before.serviceNamed := by
    funext environmentId name
    rw [Inventory.serviceNamed, h, Inventory.serviceNamed]
  have hstops : candidateStops server name containerImageId after =
      candidateStops server name containerImageId before := by
    funext count
    rw [candidateStops, hnamed, candidateStops]
  rw [templateName, hnamed, hstops, h, templateName]

variable {image : ContainerImage}

/-- A new template has no deployments yet, and a new image no templates. -/
theorem template_fits {prepared templated : Inventory} {service : Service}
    (hconstrained : inventory.Constrained) (hfits : TemplateFits server observed inventory)
    (hprepared : Prepared server observed inventory prepared image)
    (hnone : inventory.deploymentOf server.id observed.name = none)
    (htemplated : Templated server observed image.id prepared templated service) :
    service.imageTag = observed.imageTag ∧
      ∀ deployment ∈ prepared.deployments.rows,
        deployment.serviceServer ≠ (service.id, server.id) := by
  rcases htemplated.tables with ⟨-, hfound⟩ | ⟨htag, hfresh, -, -, -⟩
  · rw [templateName_congr hprepared.services, Inventory.serviceNamed, hprepared.services] at hfound
    rw [hprepared.deployments]
    rcases hprepared.images with ⟨-, himage⟩ | ⟨-, hfresh, -⟩
    · exact hfits hnone image himage service hfound
    · have hexists := hconstrained.serviceImages service (mem_of_findBy? hfound).1
      rw [htemplated.image] at hexists
      obtain ⟨other, hother⟩ := isSome_iff_exists.mp hexists
      exact absurd hfresh (not_fresh_of_find? hother)
  · refine ⟨htag, fun deployment hmem hsame ↦ ?_⟩
    have hexists := (hprepared.constrained hconstrained).deploymentServices deployment hmem
    have hservice : deployment.serviceId = service.id := (Prod.ext_iff.mp hsame).1
    rw [hservice] at hexists
    obtain ⟨other, hother⟩ := isSome_iff_exists.mp hexists
    exact absurd hfresh (not_fresh_of_find? hother)

theorem settled_new (hconstrained : inventory.Constrained)
    (havailable : RegistryAvailable runtime server.environmentId observed.imageName inventory)
    (hfits : TemplateFits server observed inventory)
    (hnone : inventory.deploymentOf server.id observed.name = none) :
    ∃ after deployment, recordContainer runtime server observed inventory =
      (after, .ok deployment) ∧
      Settled runtime server observed after := by
  rcases recordContainer_cases runtime server observed inventory with ⟨failure, hfailed, -⟩ |
    ⟨found, registryId, prepared, image, hok, hprepared, hregistries, hrecord⟩
  · obtain ⟨result, hok⟩ := exists_ok_iff.mpr havailable
    rw [hok] at hfailed
    cases hfailed
  obtain ⟨templated, service, htemplated, hcases⟩ :=
    recordNew_cases runtime server observed image.id prepared
  obtain ⟨htag, hfree⟩ := template_fits hconstrained hfits hprepared hnone htemplated
  rcases hcases with ⟨⟨deployment, hmem, hclash⟩, -⟩ | ⟨-, hnew⟩
  · exact absurd hclash (hfree deployment hmem)
  rw [hrecord, hnone]
  refine ⟨_, _, hnew, ?_⟩
  obtain ⟨hregistered, himages, -, -⟩ := htemplated.rest
  have hdeployment : prepared.deploymentOf server.id observed.name = none :=
    (hprepared.deploymentOf server.id observed.name).trans hnone
  constructor
  · obtain ⟨result, hresult, hhub⟩ := resolved_of_ok hok
    refine ⟨result, ?_, hhub⟩
    rw [← hresult]
    unfold Inventory.registriesOf
    rw [← hregistries, ← hregistered]
  · refine ⟨image, newDeployment runtime server observed service.id prepared, service, ?_, ?_, rfl,
      htemplated.find?, ?_⟩
    · have himage := hprepared.imageNamed
      unfold Inventory.imageNamed at himage ⊢
      rw [← himages] at himage
      exact himage
    · have hkey : (newDeployment runtime server observed service.id prepared).serverContainer =
          (server.id, observed.name) := rfl
      unfold Inventory.deploymentOf at hdeployment ⊢
      rw [Table.findBy?_insert (fresh_newDeployment runtime server observed service.id prepared),
        hdeployment, if_pos hkey, none_or]
    · rw [Service.synced, ← htag, ← htemplated.image]

/-! ### Loops that go through -/

variable {progress : Progress} {listed : Listed} {containers : List Listed}

section

variable (hrunning : progress.failure = none) (hconstrained : progress.inventory.Constrained)

include hrunning hconstrained

theorem settled_advance (hinfo : listed.info.isSome)
    (hclean : CleanTurn runtime server progress listed) :
    (progress.advance runtime server listed).failure = none ∧
      ListedSettled runtime server (progress.advance runtime server listed).inventory listed := by
  obtain ⟨info, hinfo⟩ := isSome_iff_exists.mp hinfo
  obtain ⟨havailable, hfits⟩ := hclean hrunning info hinfo
  cases hexisting : progress.inventory.deploymentOf server.id listed.name with
  | none =>
    obtain ⟨after, deployment, hrecord, hsettled⟩ :=
      settled_new hconstrained havailable hfits hexisting
    rw [advance_of_ok hrunning hinfo hrecord]
    exact ⟨rfl, info, hinfo, hsettled⟩
  | some existing =>
    obtain ⟨⟨found, id⟩, hok⟩ := exists_ok_iff.mpr havailable
    obtain ⟨prepared, image, -, hrecord⟩ :=
      recordContainer_existing (observe listed info) hok hexisting
    have hsettled : Settled runtime server (observe listed info)
        (recordContainer runtime server (observe listed info) progress.inventory).1 :=
      settled_existing hconstrained hok hexisting
    rw [hrecord] at hsettled
    rw [advance_of_ok hrunning hinfo hrecord]
    exact ⟨rfl, info, hinfo, hsettled⟩

/-- A loop whose turns find what they need. -/
theorem settled_foldl (hnodup : (containers.map (·.name)).Nodup)
    (hinfo : ∀ listed ∈ containers, listed.info.isSome)
    (hclean : (discovery runtime server).Meets (CleanTurn runtime server) progress containers) :
    (containers.foldl (Progress.advance runtime server) progress).failure = none ∧
      ∀ listed ∈ containers, ListedSettled runtime server
        (containers.foldl (Progress.advance runtime server) progress).inventory listed := by
  induction containers generalizing progress with
  | nil => exact ⟨hrunning, nofun⟩
  | cons listed containers ih =>
    obtain ⟨hnew, hrest⟩ := nodup_cons.mp hnodup
    obtain ⟨hafter, hsettled⟩ :=
      settled_advance hrunning hconstrained (hinfo listed mem_cons_self) hclean.1
    obtain ⟨hcompleted, hall⟩ := ih hafter (constrained_advance hconstrained) hrest
      (fun other hother ↦ hinfo other (mem_cons_of_mem listed hother)) (hclean.2 _ rfl)
    refine ⟨hcompleted, fun other hother ↦ ?_⟩
    rcases mem_cons.mp hother with rfl | hother
    · exact hsettled.foldl (constrained_advance hconstrained) hnew
    · exact hall other hother

end

variable {deployment : ServiceDeployment}

theorem exists_ok_of_record
    (h : recordContainer runtime server observed inventory = (after, .ok deployment)) :
    ∃ result, findOrCreateRegistry runtime server.environmentId observed.imageName inventory =
      .ok result := by
  rcases recordContainer_cases runtime server observed inventory with ⟨failure, -, hrecord⟩ |
    ⟨found, id, prepared, image, hok, -⟩
  · rw [hrecord] at h
    cases (Prod.ext_iff.mp h).2
  · exact ⟨_, hok⟩

theorem deploymentOf_advance {name : Text}
    (h : (progress.inventory.deploymentOf server.id name).isSome)
    (hother : listed.name ≠ name) :
    ((progress.advance runtime server listed).inventory.deploymentOf server.id name).isSome := by
  refine inventory_advance (fun inventory ↦ (inventory.deploymentOf server.id name).isSome) h ?_
  intro info _ _
  obtain ⟨deployment, hdeployment⟩ := isSome_iff_exists.mp h
  obtain ⟨hmem, hkey⟩ := mem_of_findBy? hdeployment
  rw [isSome_iff_ne_none]
  intro hnone
  refine Table.findBy?_eq_none_iff.mp hnone deployment ?_ hkey
  refine (mem_deployments_recordContainer fun hsame ↦ hother ?_).mpr hmem
  rw [hkey] at hsame
  exact (Prod.ext_iff.mp hsame).2.symm

/-- A loop that goes through although every container has a deployment already. -/
theorem settled_of_completed (hrunning : progress.failure = none)
    (hconstrained : progress.inventory.Constrained) (hnodup : (containers.map (·.name)).Nodup)
    (hexisting : ∀ listed ∈ containers,
      (progress.inventory.deploymentOf server.id listed.name).isSome)
    (hcompleted : (containers.foldl (Progress.advance runtime server) progress).failure = none) :
    ∀ listed ∈ containers, ListedSettled runtime server
      (containers.foldl (Progress.advance runtime server) progress).inventory listed := by
  induction containers generalizing progress with
  | nil => exact nofun
  | cons listed containers ih =>
    obtain ⟨hnew, hrest⟩ := nodup_cons.mp hnodup
    obtain ⟨info, inventory, deployment, hinfo, hrecord, hadvance⟩ :=
      exists_record_of_completed hrunning hcompleted
    obtain ⟨⟨found, id⟩, hok⟩ := exists_ok_of_record hrecord
    obtain ⟨existing, hdeployment⟩ :=
      isSome_iff_exists.mp (hexisting listed mem_cons_self)
    have hsettled : Settled runtime server (observe listed info)
        (recordContainer runtime server (observe listed info) progress.inventory).1 :=
      settled_existing hconstrained hok hdeployment
    rw [hrecord] at hsettled
    have hafter : (progress.advance runtime server listed).inventory.Constrained :=
      constrained_advance hconstrained
    have hhead : ListedSettled runtime server
      (progress.advance runtime server listed).inventory listed := by
      rw [hadvance]
      exact ⟨info, hinfo, hsettled⟩
    intro other hother
    rcases mem_cons.mp hother with rfl | hother
    · exact hhead.foldl hafter hnew
    · refine ih (by rw [hadvance]) hafter hrest (fun next hnext ↦ ?_) hcompleted other hother
      refine deploymentOf_advance (hexisting next (mem_cons_of_mem listed hnext)) fun hsame ↦
        hnew ?_
      exact mem_map.mpr ⟨next, hnext, hsame.symm⟩

variable {template : Service}

/-- What a turn that goes through has done for a container without a deployment whose template is
there: the template has got its first deployment on the server. -/
theorem template_of_record
    (hrecord : recordContainer runtime server observed inventory = (after, .ok deployment))
    (hnone : inventory.deploymentOf server.id observed.name = none)
    (himage : inventory.imageNamed server.environmentId observed.imageName = some image)
    (htemplate : inventory.serviceNamed server.environmentId
      (templateName server observed.name image.id inventory) = some template) :
    (∀ other ∈ inventory.deployments.rows, other.serviceServer ≠ (template.id, server.id)) ∧
      Holds server observed.name template after := by
  rcases recordContainer_cases runtime server observed inventory with ⟨failure, -, hfailed⟩ |
    ⟨found, id, prepared, recorded, -, hprepared, -, hturn⟩
  · rw [hfailed] at hrecord
    cases (Prod.ext_iff.mp hrecord).2
  obtain rfl : image = recorded := by
    rcases hprepared.images with ⟨-, hsame⟩ | ⟨hmissing, -⟩
    · exact some.inj (himage.symm.trans hsame)
    · nomatch himage.symm.trans hmissing
  rw [hturn, hnone] at hrecord
  obtain ⟨templated, service, htemplated, ⟨-, hnew⟩ | ⟨hfree, hnew⟩⟩ :=
    recordNew_cases runtime server observed image.id prepared
  · rw [hnew] at hrecord
    cases (Prod.ext_iff.mp hrecord).2
  have hnamed : prepared.serviceNamed server.environmentId
      (templateName server observed.name image.id prepared) = some template := by
    rw [templateName_congr hprepared.services, Inventory.serviceNamed, hprepared.services]
    exact htemplate
  obtain rfl : service = template := by
    rcases htemplated.tables with ⟨-, hsame⟩ | ⟨-, -, hmissing, -⟩
    · exact some.inj (hsame.symm.trans hnamed)
    · nomatch hnamed.symm.trans hmissing
  refine ⟨fun other hother ↦ hfree other (hprepared.deployments ▸ hother), ?_⟩
  have hafter : { templated with
      deployments := prepared.deployments.insert
        (newDeployment runtime server observed service.id prepared) } = after :=
    (Prod.ext_iff.mp (hnew.symm.trans hrecord)).1
  rw [← hafter]
  refine ⟨⟨newDeployment runtime server observed service.id prepared, ?_, rfl, rfl⟩,
    htemplated.find?⟩
  exact (Table.mem_insert_iff (fresh_newDeployment runtime server observed service.id prepared)).mpr
    (Or.inr rfl)

theorem Holds.imageTag {info : ContainerDetails} (h : Holds server listed.name template inventory)
    (hconstrained : inventory.Constrained) (hinfo : listed.info = some info)
    (hsettled : ListedSettled runtime server inventory listed) :
    template.imageTag = (observe listed info).imageTag := by
  obtain ⟨other, hother, -, image, deployment, service, -, hdeployment, -, hservice, hsynced⟩ :=
    hsettled
  obtain rfl := some.inj (hinfo.symm.trans hother)
  obtain ⟨row, hrow, hkey, hid⟩ := h.deployment
  have hsame : deployment = row := by
    have hfound := (Table.findBy?_eq_some_iff hconstrained.serverContainers).mpr ⟨hrow, hkey⟩
    exact some.inj (hdeployment.symm.trans hfound)
  have htemplate : service = template := by
    have hrows := h.service
    rw [← hid, ← hsame] at hrows
    exact some.inj (hservice.symm.trans hrows)
  rw [← htemplate, ← hsynced]
  rfl

/-- The turns of a loop that goes through and leaves every container settled. -/
theorem meets_of_settled (hrunning : progress.failure = none)
    (hconstrained : progress.inventory.Constrained) (hnodup : (containers.map (·.name)).Nodup)
    (hcompleted : (containers.foldl (Progress.advance runtime server) progress).failure = none)
    (hsettled : ∀ listed ∈ containers, ListedSettled runtime server
      (containers.foldl (Progress.advance runtime server) progress).inventory listed) :
    (discovery runtime server).Meets (CleanTurn runtime server) progress containers := by
  induction containers generalizing progress with
  | nil => exact trivial
  | cons listed containers ih =>
    obtain ⟨hnew, hrest⟩ := nodup_cons.mp hnodup
    obtain ⟨info, inventory, deployment, hinfo, hrecord, hadvance⟩ :=
      exists_record_of_completed hrunning hcompleted
    have hafter : (progress.advance runtime server listed).inventory.Constrained :=
      constrained_advance hconstrained
    refine ⟨fun _ other hother ↦ ?_, fun after hnext ↦ ?_⟩
    · obtain rfl := some.inj (hinfo.symm.trans hother)
      refine ⟨exists_ok_iff.mp (exists_ok_of_record hrecord),
        fun hnone image himage template hnamed ↦ ?_⟩
      obtain ⟨hfree, hholds⟩ := template_of_record hrecord hnone himage hnamed
      refine ⟨?_, hfree⟩
      have hholds : Holds server listed.name template
          (progress.advance runtime server listed).inventory := by
        rw [hadvance]
        exact hholds
      have hfinal : Holds server listed.name template
          (containers.foldl (Progress.advance runtime server)
            (progress.advance runtime server listed)).inventory := hholds.foldl hafter hnew
      exact hfinal.imageTag (constrained_foldl containers hafter) hinfo
        (hsettled listed mem_cons_self)
    · rw [← some.inj hnext]
      exact ih (by rw [hadvance]) hafter hrest hcompleted fun other hother ↦
        hsettled other (mem_cons_of_mem listed hother)

end Bridgeport.Discovery
