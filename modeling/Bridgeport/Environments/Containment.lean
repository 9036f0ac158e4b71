import Bridgeport.Discovery.DiscoverySteps
import Bridgeport.Environments.Estate

/-!
# Containment in environments

Every reference of a contained estate stays inside its environment. The requests check the ids that
they take from a body, but for two of them: a PATCH of a template may name an image of another
environment, and a file of another environment may be attached. A run stays contained exactly if
none of its requests does so (`staysContained_iff`).
-/

namespace Bridgeport.Environments

open Foundation Secrets Discovery List Option Table

/-- The image of the template is one of its environment. -/
def ServiceContained (inventory : Inventory) (service : Service) : Prop :=
  ∃ image, inventory.images.find? service.containerImageId = some image ∧
    image.environmentId = service.environmentId

/-- The server of the deployment is one of the environment of its template. -/
def DeploymentContained (inventory : Inventory) (serviceId serverId : String) : Prop :=
  ∃ service server, inventory.services.find? serviceId = some service ∧
    inventory.servers.find? serverId = some server ∧ server.environmentId = service.environmentId

/-- Every template and every deployment is contained. -/
structure InventoryContained (inventory : Inventory) : Prop where
  services : ∀ service ∈ inventory.services.rows, ServiceContained inventory service
  deployments : ∀ deployment ∈ inventory.deployments.rows,
    DeploymentContained inventory deployment.serviceId deployment.serverId

/-- Every attached file is one of the environment of its service, and every included fragment one of
the environment of its file. -/
structure Estate.Contained (estate : Estate) : Prop where
  inventory : InventoryContained estate.inventory
  serviceFiles : ∀ file ∈ estate.serviceFiles.rows, ∃ service configFile,
    estate.inventory.services.find? file.serviceId = some service ∧
      estate.configFiles.find? file.configFileId = some configFile ∧
      configFile.environmentId = service.environmentId
  fragments : ∀ row ∈ estate.includedFragments, ∃ configFile fragment,
    estate.configFiles.find? row.configFileId = some configFile ∧
      estate.fragments.find? row.fragmentId = some fragment ∧
      fragment.environmentId = configFile.environmentId

/-! ### Changes of the inventory -/

variable {runtime : Runtime} {before after inventory : Inventory}

/-- A contained inventory in which the templates are still there, in their environments. -/
structure Continues (before after : Inventory) : Prop where
  contained : InventoryContained after
  services : before.services.Keeps Service.environmentId after.services
  servers : after.servers = before.servers

theorem Continues.refl (h : InventoryContained inventory) : Continues inventory inventory :=
  ⟨h, Table.Keeps.refl _, rfl⟩

theorem Continues.trans {middle : Inventory} (hfirst : Continues before middle)
    (hsecond : Continues middle after) : Continues before after :=
  ⟨hsecond.contained, hfirst.services.trans hsecond.services, hsecond.servers.trans hfirst.servers⟩

variable {service : Service}

theorem ServiceContained.keep (h : ServiceContained before service)
    (himages : before.images.Extends after.images) : ServiceContained after service := by
  obtain ⟨image, himage, hsame⟩ := h
  exact ⟨image, himages.find?_eq himage, hsame⟩

variable {serviceId serverId : String}

theorem DeploymentContained.keep (h : DeploymentContained before serviceId serverId)
    (hservices : before.services.Keeps Service.environmentId after.services)
    (hservers : after.servers = before.servers) : DeploymentContained after serviceId serverId := by
  obtain ⟨service, server, hservice, hserver, hsame⟩ := h
  obtain ⟨later, hlater, hkept⟩ := hservices serviceId service hservice
  exact ⟨later, server, hlater, hservers ▸ hserver, hsame.trans hkept.symm⟩

theorem continues_of_new (h : InventoryContained before)
    (himages : before.images.Extends after.images)
    (hservices : before.services.Keeps Service.environmentId after.services)
    (hservers : after.servers = before.servers)
    (hnew : ∀ service ∈ after.services.rows,
      service ∈ before.services.rows ∨ ServiceContained after service)
    (hnewDeployments : ∀ deployment ∈ after.deployments.rows,
      (∃ old ∈ before.deployments.rows, deployment.serviceServer = old.serviceServer) ∨
        DeploymentContained after deployment.serviceId deployment.serverId) :
    Continues before after := by
  refine ⟨⟨fun service hservice ↦ ?_, fun deployment hdeployment ↦ ?_⟩, hservices, hservers⟩
  · rcases hnew service hservice with hold | hnew
    · exact (h.services service hold).keep himages
    · exact hnew
  · rcases hnewDeployments deployment hdeployment with ⟨old, hold, hsame⟩ | hnew
    · obtain ⟨hservice, hserver⟩ := Prod.ext_iff.mp hsame
      have hkept := (h.deployments old hold).keep hservices hservers
      rw [← show deployment.serviceId = old.serviceId from hservice,
        ← show deployment.serverId = old.serverId from hserver] at hkept
      exact hkept
    · exact hnew

/-- A new template of an image of its environment. -/
theorem continues_insertService (h : InventoryContained inventory)
    (hcontained : ServiceContained inventory service) :
    Continues inventory { inventory with services := inventory.services.insert service } := by
  refine continues_of_new h (Table.Extends.refl _) (extends_insert _ _).keeps rfl ?_ ?_
  · intro other hother
    refine (Table.mem_insert hother).imp_right fun hsame ↦ ?_
    rw [hsame]
    exact hcontained
  · exact fun deployment hdeployment ↦ .inl ⟨deployment, hdeployment, rfl⟩

theorem continues_insertDeployment (h : InventoryContained inventory)
    {deployment : ServiceDeployment}
    (hcontained : DeploymentContained inventory deployment.serviceId deployment.serverId) :
    Continues inventory { inventory with
      deployments := inventory.deployments.insert deployment } := by
  refine continues_of_new h (Table.Extends.refl _) (Table.Keeps.refl _) rfl
    (fun service hservice ↦ .inl hservice) fun other hother ↦ ?_
  rcases Table.mem_insert hother with hold | rfl
  · exact .inl ⟨other, hold, rfl⟩
  · exact .inr hcontained

/-! ### Discovery -/

variable {server : Server} {observed : Observation} {image : ContainerImage}

theorem Prepared.environment (h : Prepared server observed before after image) :
    image.environmentId = server.environmentId :=
  (Prod.ext_iff.mp (mem_of_findBy? h.imageNamed).2).1

theorem continues_prepared (hcontained : InventoryContained before)
    (h : Prepared server observed before after image) : Continues before after := by
  refine continues_of_new hcontained h.images_extend ?_ h.servers ?_ ?_
  · rw [h.services]
    exact Table.Keeps.refl _
  · exact fun service hservice ↦ .inl (h.services ▸ hservice)
  · exact fun deployment hdeployment ↦ .inl ⟨deployment, h.deployments ▸ hdeployment, rfl⟩

section

variable (hcontained : InventoryContained inventory)
  (hserver : inventory.servers.find? server.id = some server) (observed : Observation)

include hcontained hserver

theorem continues_recordExisting {existing : ServiceDeployment}
    (hexisting : existing ∈ inventory.deployments.rows) (hon : existing.serverId = server.id)
    (himage : inventory.images.find? image.id = some image)
    (henvironment : image.environmentId = server.environmentId) :
    Continues inventory (recordExisting observed image.id existing inventory) := by
  obtain ⟨template, found, htemplate, hfound, hsame⟩ := hcontained.deployments existing hexisting
  rw [hon, hserver] at hfound
  obtain rfl := some.inj hfound
  refine continues_of_new hcontained (Table.Extends.refl _)
    (keeps_update _ _ (id_synced observed image.id) fun _ ↦ rfl) rfl ?_ ?_
  · intro service hservice
    obtain ⟨row, hrow, rfl⟩ := (mem_update_iff (id_synced observed image.id)).mp hservice
    split_ifs with hid
    · have hrowTemplate : row = template :=
        some.inj ((Table.find?_eq_some_iff.mpr ⟨hrow, hid⟩).symm.trans htemplate)
      exact .inr ⟨image, himage, by rw [hrowTemplate]; exact henvironment.trans hsame⟩
    · exact .inl hrow
  · intro deployment hdeployment
    obtain ⟨row, hrow, rfl⟩ := (mem_update_iff (id_found observed)).mp hdeployment
    refine .inl ⟨row, hrow, ?_⟩
    split_ifs <;> rfl

theorem continues_recordNew (himage : inventory.images.find? image.id = some image)
    (henvironment : image.environmentId = server.environmentId) :
    Continues inventory (recordNew runtime server observed image.id inventory).1 := by
  obtain ⟨templated, service, htemplated, hcases⟩ :=
    recordNew_cases runtime server observed image.id inventory
  have htemplate : Continues inventory templated := by
    rcases htemplated.tables with ⟨rfl, -⟩ | ⟨-, -, -, -, rfl⟩
    · exact Continues.refl hcontained
    · refine continues_insertService hcontained ⟨image, htemplated.image ▸ himage, ?_⟩
      exact henvironment.trans htemplated.environment.symm
  rcases hcases with ⟨-, hrecord⟩ | ⟨-, hrecord⟩
  · rw [hrecord]
    exact htemplate
  · rw [hrecord, ← htemplated.rest.2.2.2]
    refine htemplate.trans (continues_insertDeployment htemplate.contained ?_)
    exact ⟨service, server, htemplated.find?, htemplate.servers ▸ hserver,
      htemplated.environment.symm⟩

theorem continues_recordContainer :
    Continues inventory (recordContainer runtime server observed inventory).1 := by
  rcases recordContainer_cases runtime server observed inventory with ⟨failure, -, hrecord⟩ |
    ⟨found, id, prepared, image, -, hprepared, -, hrecord⟩
  · rw [hrecord]
    exact Continues.refl hcontained
  have hfirst := continues_prepared hcontained hprepared
  have hserver : prepared.servers.find? server.id = some server := hprepared.servers ▸ hserver
  have himage : prepared.images.find? image.id = some image :=
    Table.find?_of_mem (mem_of_findBy? hprepared.imageNamed).1
  rw [hrecord]
  cases hexisting : inventory.deploymentOf server.id observed.name with
  | some existing =>
    obtain ⟨hmem, hkey⟩ := mem_of_findBy? hexisting
    exact hfirst.trans (continues_recordExisting hfirst.contained hserver observed
      (hprepared.deployments ▸ hmem) (Prod.ext_iff.mp hkey).1 himage
        (Prepared.environment hprepared))
  | none =>
    exact hfirst.trans
      (continues_recordNew hfirst.contained hserver observed himage
        (Prepared.environment hprepared))

end

theorem continues_foldl (progress : Progress) (containers : List Listed)
    (hcontained : InventoryContained progress.inventory)
    (hserver : progress.inventory.servers.find? server.id = some server) :
    Continues progress.inventory
      (containers.foldl (Progress.advance runtime server) progress).inventory := by
  induction containers generalizing progress with
  | nil => exact Continues.refl hcontained
  | cons listed containers ih =>
    have hfirst : Continues progress.inventory (progress.advance runtime server listed).inventory :=
      inventory_advance (Continues progress.inventory) (Continues.refl hcontained)
        fun info _ _ ↦ continues_recordContainer hcontained hserver (observe listed info)
    exact hfirst.trans (ih _ hfirst.contained (hfirst.servers ▸ hserver))

theorem continues_markMissing (missing : List ServiceDeployment)
    (hcontained : InventoryContained inventory) :
    Continues inventory (markMissing missing inventory) := by
  induction missing generalizing inventory with
  | nil => exact Continues.refl hcontained
  | cons deployment missing ih =>
    have hfirst : Continues inventory { inventory with
        deployments := inventory.deployments.update deployment.id ServiceDeployment.gone fun _ ↦
          rfl } := by
      refine continues_of_new hcontained (Table.Extends.refl _) (Table.Keeps.refl _) rfl
        (fun service hservice ↦ .inl hservice) fun other hother ↦ ?_
      obtain ⟨row, hrow, rfl⟩ := (mem_update_iff fun row : ServiceDeployment ↦
        show Keyed.id row.gone = Keyed.id row from rfl).mp hother
      refine .inl ⟨row, hrow, ?_⟩
      split_ifs <;> rfl
    exact hfirst.trans (ih hfirst.contained)

/-- Discovery takes images, templates and servers from one environment, also if it throws
half-way. -/
theorem continues_discoverContainers (hcontained : InventoryContained inventory) (serverId : String)
    (listing : Option (List Listed)) :
    Continues inventory (discoverContainers runtime serverId listing inventory).1 := by
  unfold discoverContainers
  cases hserver : inventory.servers.find? serverId with
  | none => exact Continues.refl hcontained
  | some server =>
    cases listing with
    | none => exact Continues.refl hcontained
    | some containers =>
      have hid : server.id = serverId := (Table.find?_eq_some_iff.mp hserver).2
      have hfound : inventory.servers.find? server.id = some server := hid.symm ▸ hserver
      have hloop : Continues inventory
        (discoverAll runtime server containers inventory).inventory :=
        continues_foldl ⟨inventory, [], none⟩ containers hcontained hfound
      cases hfailure : (discoverAll runtime server containers inventory).failure with
      | some failure =>
        simp only [hfailure]
        exact hloop
      | none =>
        simp only [hfailure]
        exact hloop.trans (continues_markMissing _ hloop.contained)

/-! ### Requests of services -/

variable {environmentId : String}

theorem checkImage_ok {containerImageId : String}
    (h : checkImage containerImageId environmentId inventory = .ok ()) :
    ∃ image, inventory.images.find? containerImageId = some image ∧
      image.environmentId = environmentId := by
  unfold checkImage at h
  cases himage : inventory.images.find? containerImageId with
  | none => simp [himage] at h
  | some image =>
    simp only [himage] at h
    split_ifs at h with hsame
    exact ⟨image, rfl, hsame⟩

section

variable (hcontained : InventoryContained inventory)

include hcontained

theorem continues_createService (envId : String) (body : ServiceBody) :
    Continues inventory (createService runtime envId body inventory).1 := by
  unfold createService
  cases hcheck : checkImage body.containerImageId envId inventory with
  | error refusal => exact Continues.refl hcontained
  | ok _ =>
    dsimp only
    split_ifs
    · exact Continues.refl hcontained
    · exact continues_insertService hcontained (checkImage_ok hcheck)

theorem continues_createDeployment (h : DeploymentContained inventory serviceId serverId)
    (containerName : Text) (taken : Refusal) :
    Continues inventory (createDeployment runtime serviceId serverId containerName taken inventory).1 := by
  unfold createDeployment
  dsimp only
  split_ifs
  · exact Continues.refl hcontained
  · exact continues_insertDeployment hcontained h

theorem continues_addDeployment (id serverId : String) (containerName : Text) :
    Continues inventory (addDeployment runtime id serverId containerName inventory).1 := by
  unfold addDeployment
  cases hservice : inventory.services.find? id with
  | none => exact Continues.refl hcontained
  | some service =>
    cases hserver : inventory.servers.find? serverId with
    | none => exact Continues.refl hcontained
    | some server =>
      dsimp only
      split_ifs with hother
      · exact Continues.refl hcontained
      · exact continues_createDeployment hcontained
          ⟨service, server, hservice, hserver, not_not.mp hother⟩
          containerName _

theorem continues_createUnderServer (serverId : String) (body : ServiceBody)
    (containerName : Option Text) :
    Continues inventory (createUnderServer runtime serverId body containerName inventory).1 := by
  unfold createUnderServer
  cases hserver : inventory.servers.find? serverId with
  | none => exact Continues.refl hcontained
  | some server =>
    have hsame : server.id = serverId := (Table.find?_eq_some_iff.mp hserver).2
    have hid : inventory.servers.find? server.id = some server := hsame.symm ▸ hserver
    cases hcheck : checkImage body.containerImageId server.environmentId inventory with
    | error refusal =>
      simp only [hcheck]
      exact Continues.refl hcontained
    | ok _ =>
      simp only [hcheck]
      cases hnamed : inventory.serviceNamed server.environmentId body.name with
      | some existing =>
        obtain ⟨hmem, hkey⟩ := mem_of_findBy? hnamed
        dsimp only
        split_ifs
        · exact Continues.refl hcontained
        · exact continues_createDeployment hcontained
            ⟨existing, server, Table.find?_of_mem hmem, hid,
            (Prod.ext_iff.mp hkey).1.symm⟩ _ _
      | none =>
        have hnew : ServiceContained inventory
          (body.toService runtime server.environmentId inventory) :=
          checkImage_ok hcheck
        have hinsert := continues_insertService hcontained hnew
        refine hinsert.trans (continues_createDeployment hinsert.contained ?_ _ _)
        exact ⟨_, server, Table.find?_insert_self (fresh_next runtime.ids inventory.services),
          hid, rfl⟩

end

theorem id_apply (body : ServicePatch) (service : Service) :
    Keyed.id (body.apply service) = Keyed.id service := rfl

theorem containerImageId_apply {body : ServicePatch} {imageId : String}
    (h : body.containerImageId = some imageId) (service : Service) :
    (body.apply service).containerImageId = imageId := by
  rw [ServicePatch.apply, h]
  rfl

/-- A PATCH of a template keeps the inventory contained exactly if the image it names is one of the
environment of the template. -/
theorem contained_updateService_iff (hcontained : InventoryContained inventory) (id : String)
    (body : ServicePatch) :
    InventoryContained (updateService id body inventory).1 ↔
      ∀ service imageId image, inventory.services.find? id = some service →
        body.containerImageId = some imageId → inventory.images.find? imageId = some image →
        ¬ nameTaken inventory.services Service.environmentName (body.apply service) →
        image.environmentId = service.environmentId := by
  unfold updateService
  cases hservice : inventory.services.find? id with
  | none => exact ⟨fun _ service imageId image hfound ↦ absurd hfound nofun, fun _ ↦ hcontained⟩
  | some existing =>
    have hid : Keyed.id existing = id := (Table.find?_eq_some_iff.mp hservice).2
    have hafter : (inventory.services.update id body.apply (id_apply body)).find? id =
        some (body.apply existing) := by
      rw [Table.find?_update, if_pos rfl, hservice]
      rfl
    dsimp only
    split_ifs with hrefused
    · refine ⟨fun _ service imageId image hfound hbody himage hfree ↦ ?_, fun _ ↦ hcontained⟩
      obtain rfl := some.inj hfound
      rcases hrefused with hmissing | htaken
      · rw [containerImageId_apply hbody, himage] at hmissing
        cases hmissing
      · exact absurd htaken hfree
    · constructor
      · intro h service imageId image hfound hbody himage _
        obtain rfl := some.inj hfound
        obtain ⟨found, hfound, hsame⟩ := h.services _ (Table.find?_eq_some_iff.mp hafter).1
        rw [containerImageId_apply hbody] at hfound
        exact (some.inj (himage.symm.trans hfound)) ▸ hsame
      · intro h
        obtain ⟨hexists, hfree⟩ := not_or.mp hrefused
        obtain ⟨image, himage⟩ :=
          ne_none_iff_exists'.mp (isNone_iff_eq_none.not.mp hexists)
        suffices hcontinues : Continues inventory { inventory with
            services := inventory.services.update id body.apply (id_apply body) } from
          hcontinues.contained
        refine continues_of_new hcontained (Table.Extends.refl _)
          (keeps_update _ _ (id_apply body) fun _ ↦ rfl) rfl ?_
          fun deployment hdeployment ↦ .inl ⟨deployment, hdeployment, rfl⟩
        intro service hmem
        obtain ⟨row, hrow, rfl⟩ := (mem_update_iff (id_apply body)).mp hmem
        split_ifs with hrowId
        · obtain rfl := eq_of_id_eq hrow (Table.find?_eq_some_iff.mp hservice).1
            (hrowId.trans hid.symm)
          refine .inr ⟨image, himage, ?_⟩
          cases hbody : body.containerImageId with
          | none =>
            obtain ⟨old, hold, hsame⟩ := hcontained.services row hrow
            rw [ServicePatch.apply, hbody] at himage
            exact (some.inj (hold.symm.trans himage)) ▸ hsame
          | some imageId =>
            rw [containerImageId_apply hbody] at himage
            exact h row imageId image rfl hbody himage hfree
        · exact .inl hrow

/-- The templates of a PATCH stay where they are. -/
theorem keeps_updateService (id : String) (body : ServicePatch) :
    inventory.services.Keeps Service.environmentId (updateService id body inventory).1.services ∧
      (updateService id body inventory).1.servers = inventory.servers := by
  unfold updateService
  cases inventory.services.find? id with
  | none => exact ⟨Table.Keeps.refl _, rfl⟩
  | some existing =>
    dsimp only
    split_ifs
    · exact ⟨Table.Keeps.refl _, rfl⟩
    · exact ⟨keeps_update _ _ (id_apply body) fun _ ↦ rfl, rfl⟩

/-! ### Requests of config files -/

variable {estate : Estate} {fragmentIds : List String}

theorem find?_of_not_rejected
    (h : rejectInvalidFragmentIds fragmentIds environmentId estate = none) {id : String}
    (hid : id ∈ fragmentIds) :
    ∃ fragment, estate.fragments.find? id = some fragment ∧
      fragment.environmentId = environmentId := by
  unfold rejectInvalidFragmentIds at h
  split_ifs at h with hduplicates
  dsimp only at h
  split_ifs at h with hcount
  -- As many different fragments are found as there are different ids.
  have hsublist := (filter_sublist (l := estate.fragments.rows) (p := fun fragment ↦
    fragment.id ∈ fragmentIds ∧ fragment.environmentId = environmentId)).map Keyed.id
  have hperm : ((estate.fragments.rows.filter fun fragment ↦
      fragment.id ∈ fragmentIds ∧ fragment.environmentId = environmentId).map Keyed.id).Perm
        fragmentIds := by
    refine (subperm_of_subset
      (estate.fragments.nodup_ids.sublist hsublist) fun found hfound ↦ ?_
      ).perm_of_length_le ?_
    · obtain ⟨fragment, hfragment, rfl⟩ := mem_map.mp hfound
      have hpasses := (mem_filter.mp hfragment).2
      exact (of_decide_eq_true hpasses).1
    · rw [length_map, not_not.mp hcount]
  obtain ⟨fragment, hfragment, rfl⟩ := mem_map.mp (hperm.mem_iff.mpr hid)
  obtain ⟨hmem, hpasses⟩ := mem_filter.mp hfragment
  exact ⟨fragment, Table.find?_of_mem hmem, (of_decide_eq_true hpasses).2⟩

theorem mem_includesOf {configFileId : String} {row : ConfigFileFragment}
    (h : row ∈ includesOf configFileId fragmentIds) :
    row.configFileId = configFileId ∧ row.fragmentId ∈ fragmentIds := by
  obtain ⟨⟨fragmentId, position⟩, hmem, rfl⟩ := mem_map.mp h
  exact ⟨rfl, fst_mem_of_mem_zipIdx hmem⟩

theorem contained_of_files (h : estate.Contained) {configFiles : Table ConfigFile}
    {includedFragments : List ConfigFileFragment}
    (hkeeps : estate.configFiles.Keeps ConfigFile.environmentId configFiles)
    (hnew : ∀ row ∈ includedFragments, row ∈ estate.includedFragments ∨ ∃ configFile fragment,
      configFiles.find? row.configFileId = some configFile ∧
        estate.fragments.find? row.fragmentId = some fragment ∧
        fragment.environmentId = configFile.environmentId) :
    ({ estate with configFiles := configFiles, includedFragments := includedFragments } : Estate).Contained
    where
  inventory := h.inventory
  serviceFiles := by
    intro file hfile
    obtain ⟨service, configFile, hservice, hconfigFile, hsame⟩ := h.serviceFiles file hfile
    obtain ⟨later, hlater, hkept⟩ := hkeeps _ configFile hconfigFile
    exact ⟨service, later, hservice, hlater, hkept.trans hsame⟩
  fragments := by
    intro row hrow
    rcases hnew row hrow with hold | hnew
    · obtain ⟨configFile, fragment, hconfigFile, hfragment, hsame⟩ := h.fragments row hold
      obtain ⟨later, hlater, hkept⟩ := hkeeps _ configFile hconfigFile
      exact ⟨later, fragment, hlater, hfragment, hsame.trans hkept.symm⟩
    · exact hnew

theorem contained_createConfigFile (h : estate.Contained) (envId : String) (body : ConfigFileBody) :
    (createConfigFile runtime envId body estate).1.Contained := by
  unfold createConfigFile
  cases hrejected : rejectInvalidFragmentIds body.fragmentIds envId estate with
  | some refusal =>
    dsimp only
    split_ifs <;> exact h
  | none =>
    dsimp only
    split_ifs
    · exact h
    · exact h
    · refine contained_of_files h (extends_insert _ _).keeps fun row hrow ↦ ?_
      refine (mem_append.mp hrow).imp_right fun hnew ↦ ?_
      obtain ⟨hfile, hid⟩ := mem_includesOf hnew
      obtain ⟨fragment, hfragment, hsame⟩ := find?_of_not_rejected hrejected hid
      refine ⟨⟨runtime.ids.next estate.configFiles.ids, body.name, body.content, body.isBinary,
        envId⟩,
        fragment, ?_, hfragment, hsame⟩
      rw [hfile]
      exact Table.find?_insert_self (fresh_next runtime.ids estate.configFiles)
    · exact h

theorem id_patch (body : ConfigFilePatch) (configFile : ConfigFile) :
    Keyed.id (body.apply configFile) = Keyed.id configFile := rfl

theorem contained_updateConfigFile (h : estate.Contained) (id : String) (body : ConfigFilePatch) :
    (updateConfigFile id body estate).1.Contained := by
  unfold updateConfigFile
  cases hfound : estate.configFiles.find? id with
  | none => exact h
  | some existing =>
    dsimp only
    cases hrejected : rejectInvalidFragmentIds (body.fragmentIds.getD []) existing.environmentId
        estate with
    | some refusal =>
      dsimp only
      split_ifs <;> exact h
    | none =>
      dsimp only
      split_ifs
      · exact h
      · exact h
      · exact h
      · refine contained_of_files h (keeps_update _ _ (id_patch body) fun _ ↦ rfl) fun row hrow ↦ ?_
        unfold replaceIncludes at hrow
        cases hbody : body.fragmentIds with
        | none =>
          rw [hbody] at hrow
          exact .inl hrow
        | some fragmentIds =>
          rw [hbody] at hrow hrejected
          refine (mem_append.mp hrow).imp (fun hold ↦ mem_of_mem_filter hold) fun hnew ↦ ?_
          obtain ⟨hfile, hid⟩ := mem_includesOf hnew
          obtain ⟨fragment, hfragment, hsame⟩ := find?_of_not_rejected hrejected hid
          have hafter : (estate.configFiles.update id body.apply (id_patch body)).find? id =
              some (body.apply existing) := by
            rw [Table.find?_update, if_pos rfl, hfound]
            rfl
          refine ⟨body.apply existing, fragment, ?_, hfragment, hsame⟩
          rw [hfile]
          exact hafter

theorem contained_attachFile_iff (h : estate.Contained) (id configFileId : String)
    (targetPath : Text) :
    (attachFile runtime id configFileId targetPath estate).1.Contained ↔
      ∀ service configFile, estate.inventory.services.find? id = some service →
        estate.configFiles.find? configFileId = some configFile →
        ¬ estate.attached id configFileId → configFile.environmentId = service.environmentId := by
  unfold attachFile
  split_ifs with hattached hmissing
  · exact ⟨fun _ _ _ _ _ hfree ↦ absurd hattached hfree, fun _ ↦ h⟩
  · refine ⟨fun _ service configFile hservice hconfigFile _ ↦ ?_, fun _ ↦ h⟩
    rw [hservice, hconfigFile] at hmissing
    simp at hmissing
  · obtain ⟨hservice, hconfigFile⟩ := not_or.mp hmissing
    obtain ⟨service, hservice⟩ :=
      ne_none_iff_exists'.mp (isNone_iff_eq_none.not.mp hservice)
    obtain ⟨configFile, hconfigFile⟩ :=
      ne_none_iff_exists'.mp (isNone_iff_eq_none.not.mp hconfigFile)
    have hfresh := fresh_next runtime.ids estate.serviceFiles
    constructor
    · intro hafter other otherFile hother hotherFile _
      obtain ⟨found, foundFile, hfound, hfoundFile, hsame⟩ := hafter.serviceFiles
        ⟨runtime.ids.next estate.serviceFiles.ids, id, configFileId, targetPath, none⟩
        ((Table.mem_insert_iff hfresh).mpr (.inr rfl))
      obtain rfl := some.inj (hother.symm.trans hfound)
      obtain rfl := some.inj (hotherFile.symm.trans hfoundFile)
      exact hsame
    · intro hsame
      refine ⟨h.inventory, fun file hfile ↦ ?_, h.fragments⟩
      rcases Table.mem_insert hfile with hold | rfl
      · exact h.serviceFiles file hold
      · exact ⟨service, configFile, hservice, hconfigFile,
          hsame service configFile hservice hconfigFile hattached⟩

variable {result : Inventory × Option Refusal}

theorem contained_onInventory (h : estate.Contained) (hcontained : InventoryContained result.1)
    (hkeeps : estate.inventory.services.Keeps Service.environmentId result.1.services) :
    (estate.onInventory result).1.Contained where
  inventory := hcontained
  serviceFiles := by
    intro file hfile
    obtain ⟨service, configFile, hservice, hconfigFile, hsame⟩ := h.serviceFiles file hfile
    obtain ⟨later, hlater, hkept⟩ := hkeeps _ service hservice
    exact ⟨later, configFile, hlater, hconfigFile, hsame.trans hkept.symm⟩
  fragments := h.fragments

theorem Continues.onInventory (h : estate.Contained)
    (hcontinues : Continues estate.inventory result.1) : (estate.onInventory result).1.Contained :=
  contained_onInventory h hcontinues.contained hcontinues.services

/-- The reference that no handler checks is to a row of the same environment: the image of a PATCH
of a template that is carried out, and the file of an attachment that is carried out. -/
def ReferenceChecked (estate : Estate) : EstateRequest → Prop
  | .updateService id body => ∀ service imageId image,
      estate.inventory.services.find? id = some service → body.containerImageId = some imageId →
      estate.inventory.images.find? imageId = some image →
      ¬ nameTaken estate.inventory.services Service.environmentName (body.apply service) →
      image.environmentId = service.environmentId
  | .attachFile id configFileId _ => ∀ service configFile,
      estate.inventory.services.find? id = some service →
      estate.configFiles.find? configFileId = some configFile →
      ¬ estate.attached id configFileId → configFile.environmentId = service.environmentId
  | _ => True

theorem contained_serve_iff (h : estate.Contained) (request : EstateRequest) :
    (estate.serve runtime request).1.Contained ↔ ReferenceChecked estate request := by
  cases request with
  | createService envId body =>
    exact iff_of_true ((continues_createService h.inventory envId body).onInventory h) trivial
  | createUnderServer serverId body containerName =>
    exact iff_of_true
      ((continues_createUnderServer h.inventory serverId body containerName).onInventory h) trivial
  | updateService id body =>
    refine Iff.trans ⟨fun hafter ↦ hafter.inventory, fun hafter ↦ ?_⟩
      (contained_updateService_iff h.inventory id body)
    exact contained_onInventory h hafter (keeps_updateService id body).1
  | addDeployment id serverId containerName =>
    exact iff_of_true
      ((continues_addDeployment h.inventory id serverId containerName).onInventory h) trivial
  | attachFile id configFileId targetPath =>
    exact contained_attachFile_iff h id configFileId targetPath
  | createConfigFile envId body =>
    exact iff_of_true (contained_createConfigFile h envId body) trivial
  | updateConfigFile id body => exact iff_of_true (contained_updateConfigFile h id body) trivial
  | discoverContainers serverId listing =>
    exact iff_of_true
      ((continues_discoverContainers h.inventory serverId listing).onInventory h) trivial

/-- Every state that the run reaches is contained. -/
def StaysContained (runtime : Runtime) (initial : Estate) (requests : List EstateRequest) : Prop :=
  ∀ earlier, earlier <+: requests → ∀ estate,
    (estateMachine runtime).run initial earlier = some estate → estate.Contained

/-- A run stays contained exactly if its PATCHes of templates and its attachments name rows of the
same environment. -/
theorem staysContained_iff (runtime : Runtime) (initial : Estate) (requests : List EstateRequest)
    (h : initial.Contained) :
    StaysContained runtime initial requests ↔
      (estateMachine runtime).Meets ReferenceChecked initial requests := by
  constructor
  · intro hstays
    refine Machine.meets_iff.mpr fun earlier request hbegins estate hrun ↦ ?_
    have hbefore : estate.Contained := hstays earlier ((prefix_append _ _).trans hbegins) estate hrun
    have hafter : (estateMachine runtime).run initial (earlier ++ [request]) =
        some (estate.serve runtime request).1 := by
      rw [Machine.run_concat, hrun]
      rfl
    exact (contained_serve_iff hbefore request).mp (hstays _ hbegins _ hafter)
  · intro hmeets earlier hbegins estate hrun
    obtain ⟨rest, rfl⟩ := hbegins
    refine Machine.induction_of_meets (motive := fun _ estate ↦ estate.Contained) h ?_ hrun
      (Machine.meets_append.mp hmeets).1
    intro _ before request after _ hbefore hchecked hnext
    rw [← some.inj hnext]
    exact (contained_serve_iff hbefore request).mpr hchecked

/-- A template in production, and an image and a config file in either environment. -/
def twoEnvironments : Estate where
  environments := ["production", "staging"]
  inventory :=
    { registries := Table.empty
      images := ⟨[⟨"nginx", "nginx".toList, "nginx".toList, "1.25".toList, "production", none⟩,
        ⟨"httpd", "httpd".toList, "httpd".toList, "2.4".toList, "staging", none⟩], by decide⟩
      services := ⟨[⟨"web", "web".toList, "1.25".toList, "production", "nginx"⟩], nodup_singleton _⟩
      servers := Table.empty
      deployments := Table.empty }
  configFiles := ⟨[⟨"site", "site".toList, "listen 80".toList, false, "production"⟩,
    ⟨"test", "test".toList, "listen 81".toList, false, "staging"⟩], by decide⟩
  fragments := Table.empty
  includedFragments := []
  serviceFiles := Table.empty

theorem contained_twoEnvironments : twoEnvironments.Contained where
  inventory := by
    constructor
    · intro service hservice
      rw [mem_singleton.mp hservice]
      exact ⟨_, rfl, rfl⟩
    · exact nofun
  serviceFiles := nofun
  fragments := nofun

/-- A PATCH points the template to the image of the other environment. -/
theorem not_staysContained_otherImage : ¬ (∀ runtime initial requests, initial.Contained →
    StaysContained runtime initial requests) := by
  intro hall
  have hafter := hall plainRuntime twoEnvironments
    [.updateService "web" { containerImageId := some "httpd" }] contained_twoEnvironments _
    prefix_rfl _ rfl
  obtain ⟨image, himage, hsame⟩ := hafter.inventory.services
    ⟨"web", "web".toList, "1.25".toList, "production", "httpd"⟩ (by decide)
  obtain rfl := some.inj himage
  exact absurd hsame (by decide)

/-- A file of the environment is attached, and the tag of the template changed. -/
theorem staysContained_sameEnvironment : StaysContained plainRuntime twoEnvironments
    [.attachFile "web" "site" "/etc/site.conf".toList,
      .updateService "web" { imageTag := some "1.27".toList }] := by
  refine (staysContained_iff plainRuntime twoEnvironments _ contained_twoEnvironments).mpr
    ⟨?_, fun after hafter ↦ ⟨?_, fun _ _ ↦ trivial⟩⟩
  · intro service configFile hservice hconfigFile _
    obtain rfl := some.inj hservice
    obtain rfl := some.inj hconfigFile
    rfl
  · exact fun service imageId image _ hbody ↦ absurd hbody nofun

end Bridgeport.Environments
