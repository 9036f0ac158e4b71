import Bridgeport.Discovery.DiscoverySteps

/-!
# Templates that are shared between servers

A template may be deployed on several servers, and discovery observes one of them. The image of a
shared template is left alone exactly if every observed container that has a deployment of such a
template runs the image that the template has (`keepsImages_iff`): the branch for a container with a
deployment writes whatever image it has observed.
-/

namespace Bridgeport.Discovery

open Foundation Secrets Docker Option

variable {runtime : Runtime} {server : Server} {progress : Progress} {listed : Listed}

/-! ### Deployments on other servers -/

/-- The service has a deployment on another server. -/
def Inventory.DeployedElsewhere (inventory : Inventory) (serverId serviceId : String) : Prop :=
  ∃ deployment ∈ inventory.deployments.rows, deployment.serviceId = serviceId ∧
    deployment.serverId ≠ serverId

/-- Discovery says nothing about the deployments on other servers. -/
theorem deployedElsewhere_advance (serviceId : String) :
    (progress.advance runtime server listed).inventory.DeployedElsewhere server.id serviceId ↔
      progress.inventory.DeployedElsewhere server.id serviceId := by
  refine inventory_advance (fun inventory ↦ inventory.DeployedElsewhere server.id serviceId ↔
    progress.inventory.DeployedElsewhere server.id serviceId) Iff.rfl fun info _ _ ↦ ?_
  refine exists_congr fun deployment ↦ and_congr_left fun ⟨_, hserver⟩ ↦ ?_
  exact mem_deployments_recordContainer fun hsame ↦ hserver (Prod.ext_iff.mp hsame).1

def KeepsImages (serverId : String) (before after : Inventory) : Prop :=
  ∀ id service, before.services.find? id = some service → before.DeployedElsewhere serverId id →
    ∃ later, after.services.find? id = some later ∧ later.containerImageId = service.containerImageId

/-- If the turn records a container whose template is also deployed on another server, then the
container runs the image of the template. -/
def ImageAgrees (runtime : Runtime) (server : Server) (progress : Progress) (listed : Listed) : Prop :=
  progress.failure = none → ∀ info, listed.info = some info →
    ∀ found id, findOrCreateRegistry runtime server.environmentId (observe listed info).imageName
      progress.inventory = .ok (found, id) →
    ∀ existing, progress.inventory.deploymentOf server.id listed.name = some existing →
      progress.inventory.DeployedElsewhere server.id existing.serviceId →
    ∀ service, progress.inventory.services.find? existing.serviceId = some service →
    ∃ image, progress.inventory.imageNamed server.environmentId (observe listed info).imageName =
      some image ∧ image.id = service.containerImageId

/-- A turn for a container that runs the image of its template. -/
theorem keepsImages_advance (hagrees : ImageAgrees runtime server progress listed) :
    KeepsImages server.id progress.inventory
      (progress.advance runtime server listed).inventory := by
  refine inventory_advance (KeepsImages server.id progress.inventory)
    (fun id service hservice _ ↦ ⟨service, hservice, rfl⟩) ?_
  intro info hrunning hinfo id service hservice helsewhere
  cases hregistry : findOrCreateRegistry runtime server.environmentId
    (observe listed info).imageName progress.inventory with
  | error failure =>
    refine ⟨service, ?_, rfl⟩
    unfold recordContainer
    simp only [hregistry]
    exact hservice
  | ok result =>
    by_cases hexists : ∃ existing,
        progress.inventory.deploymentOf server.id listed.name = some existing ∧
          existing.serviceId = id
    · obtain ⟨existing, hexisting, rfl⟩ := hexists
      obtain ⟨image, himage, hsame⟩ :=
        hagrees hrunning info hinfo result.1 result.2 hregistry existing
        hexisting helsewhere service hservice
      obtain ⟨prepared, recorded, hprepared, hrecord⟩ :=
        recordContainer_existing (observe listed info) hregistry hexisting
      have hrecorded : recorded = image := by
        rcases hprepared.images with ⟨-, hfound⟩ | ⟨hnone, -⟩
        · exact some.inj (hfound.symm.trans himage)
        · nomatch himage.symm.trans hnone
      refine ⟨service.synced (observe listed info) recorded.id, ?_, hrecorded ▸ hsame⟩
      rw [hrecord]
      show (recordExisting (observe listed info) recorded.id existing prepared).services.find? _ = _
      rw [find?_services_recordExisting, if_pos rfl, hprepared.services, hservice]
      rfl
    · push Not at hexists
      exact ⟨service, find?_recordContainer hservice hexists, rfl⟩

theorem KeepsImages.trans_advance {final : Inventory}
    (hconstrained : progress.inventory.Constrained)
    (hfirst : KeepsImages server.id progress.inventory
      (progress.advance runtime server listed).inventory) :
    KeepsImages server.id (progress.advance runtime server listed).inventory final ↔
      KeepsImages server.id progress.inventory final := by
  constructor
  · intro hrest id service hservice helsewhere
    obtain ⟨middle, hmiddle, hsame⟩ := hfirst id service hservice helsewhere
    obtain ⟨later, hlater, hkept⟩ := hrest id middle hmiddle
      ((deployedElsewhere_advance id).mpr helsewhere)
    exact ⟨later, hlater, hkept.trans hsame⟩
  · intro hall id middle hmiddle helsewhere
    have hbefore := (deployedElsewhere_advance id).mp helsewhere
    obtain ⟨deployment, hdeployment, rfl, hserver⟩ := hbefore
    obtain ⟨service, hservice⟩ :=
      isSome_iff_exists.mp (hconstrained.deploymentServices deployment hdeployment)
    have hbefore : progress.inventory.DeployedElsewhere server.id deployment.serviceId :=
      ⟨deployment, hdeployment, rfl, hserver⟩
    obtain ⟨other, hother, hsame⟩ := hfirst _ service hservice hbefore
    obtain ⟨later, hlater, hkept⟩ := hall _ service hservice hbefore
    rw [hmiddle] at hother
    obtain rfl := some.inj hother
    exact ⟨later, hlater, hkept.trans hsame.symm⟩

/-! ### Whole loops -/

variable {containers : List Listed}

section

variable (hconstrained : progress.inventory.Constrained)
include hconstrained

/-- Turns for containers that run the images of their templates. -/
theorem keepsImages_of_meets
    (h : (discovery runtime server).Meets (ImageAgrees runtime server) progress containers) :
    KeepsImages server.id progress.inventory
      (containers.foldl (Progress.advance runtime server) progress).inventory := by
  induction containers generalizing progress with
  | nil => exact fun id service hservice _ ↦ ⟨service, hservice, rfl⟩
  | cons listed containers ih =>
    have hfirst := keepsImages_advance h.1
    exact (KeepsImages.trans_advance hconstrained hfirst).mp
      (ih (constrained_advance hconstrained) (h.2 _ rfl))

/-- A turn whose image is kept to the end of the loop was for a container that runs it. -/
theorem imageAgrees_of_keepsImages (hnew : listed.name ∉ containers.map (·.name))
    (h : KeepsImages server.id progress.inventory
      (containers.foldl (Progress.advance runtime server)
        (progress.advance runtime server listed)).inventory) :
    ImageAgrees runtime server progress listed := by
  intro hrunning info hinfo found id hregistry existing hexisting helsewhere service hservice
  obtain ⟨prepared, image, hprepared, hrecord⟩ :=
    recordContainer_existing (observe listed info) hregistry hexisting
  have hadvance : (progress.advance runtime server listed).inventory =
      recordExisting (observe listed info) image.id existing prepared :=
    congrArg Progress.inventory (advance_of_ok hrunning hinfo hrecord)
  have hholds : Holds server listed.name (service.synced (observe listed info) image.id)
      (progress.advance runtime server listed).inventory := by
    rw [hadvance]
    refine holds_recordExisting (observe listed info) image.id ?_ (hprepared.services ▸ hservice)
    exact (hprepared.deploymentOf server.id listed.name).trans hexisting
  have hid : service.id = existing.serviceId := (Table.find?_eq_some_iff.mp hservice).2
  have hfinal : Holds server listed.name (service.synced (observe listed info) image.id)
      (containers.foldl (Progress.advance runtime server)
        (progress.advance runtime server listed)).inventory :=
    hholds.foldl (constrained_advance hconstrained) hnew
  obtain ⟨later, hlater, hkept⟩ := h existing.serviceId service hservice helsewhere
  rw [← hid] at hlater
  obtain rfl := some.inj (hfinal.service.symm.trans hlater)
  -- A new image would not be the image of a template.
  rcases hprepared.images with ⟨-, hfound⟩ | ⟨-, hfresh, -⟩
  · exact ⟨image, hfound, hkept⟩
  · have himage := hconstrained.serviceImages service (Table.find?_eq_some_iff.mp hservice).1
    obtain ⟨other, hother⟩ := isSome_iff_exists.mp himage
    rw [← hkept] at hother
    exact absurd hfresh (Table.not_fresh_of_find? hother)

theorem meets_of_keepsImages (hnodup : (containers.map (·.name)).Nodup)
    (h : KeepsImages server.id progress.inventory
      (containers.foldl (Progress.advance runtime server) progress).inventory) :
    (discovery runtime server).Meets (ImageAgrees runtime server) progress containers := by
  induction containers generalizing progress with
  | nil => exact trivial
  | cons listed containers ih =>
    obtain ⟨hnew, hrest⟩ := List.nodup_cons.mp hnodup
    have hagrees := imageAgrees_of_keepsImages hconstrained hnew h
    refine ⟨hagrees, fun after hafter ↦ ?_⟩
    rw [← some.inj hafter]
    exact ih (constrained_advance hconstrained) hrest
      ((KeepsImages.trans_advance hconstrained (keepsImages_advance hagrees)).mpr h)

end

/-- The services behind a call are those behind its loop. -/
theorem services_discoverContainers (runtime : Runtime) (containers : List Listed)
    {inventory : Inventory}
    (hserver : inventory.servers.find? server.id = some server) :
    (discoverContainers runtime server.id (some containers) inventory).1.services =
      (discoverAll runtime server containers inventory).inventory.services := by
  unfold discoverContainers
  simp only [hserver]
  cases (discoverAll runtime server containers inventory).failure <;> rfl

/-- The images of the templates that are also deployed on other servers are kept by a discovery in
which every recorded container of such a template runs its image, and, as Docker names containers
apart, by no other. -/
theorem keepsImages_iff (runtime : Runtime) (server : Server) (containers : List Listed)
    (inventory : Inventory) (hserver : inventory.servers.find? server.id = some server)
    (hconstrained : inventory.Constrained) :
    ((discovery runtime server).Meets (ImageAgrees runtime server) ⟨inventory, [], none⟩ containers →
      KeepsImages server.id inventory
        (discoverContainers runtime server.id (some containers) inventory).1) ∧
    ((containers.map (·.name)).Nodup →
      KeepsImages server.id inventory
        (discoverContainers runtime server.id (some containers) inventory).1 →
      (discovery runtime server).Meets (ImageAgrees runtime server) ⟨inventory, [], none⟩ containers) := by
  have hservices := services_discoverContainers runtime containers hserver
  have hsame : KeepsImages server.id inventory
      (discoverContainers runtime server.id (some containers) inventory).1 ↔
      KeepsImages server.id inventory (discoverAll runtime server containers inventory).inventory := by
    unfold KeepsImages
    rw [hservices]
  rw [hsame]
  exact ⟨fun h ↦ keepsImages_of_meets hconstrained h, fun hnodup h ↦
    meets_of_keepsImages hconstrained hnodup h⟩

/-- Another image is observed on the first server, and the template of both servers is
re-pointed. -/
theorem not_keepsImages_otherImage :
    ¬ (∀ runtime server containers inventory, inventory.servers.find? server.id = some server →
      inventory.Constrained →
      KeepsImages server.id inventory
        (discoverContainers runtime server.id (some containers) inventory).1) := by
  intro hall
  obtain ⟨later, hlater, hkept⟩ := hall plainRuntime firstServer
    [runningContainer "web".toList "httpd:2.4".toList] sharedInventory (by decide)
    constrained_sharedInventory "web" _ rfl ⟨_, List.mem_cons_of_mem _ List.mem_cons_self, rfl, by decide⟩
  have hafter : ((discoverContainers plainRuntime firstServer.id
      (some [runningContainer "web".toList "httpd:2.4".toList]) sharedInventory).1.services.find?
        "web").map (·.containerImageId) ≠ some "nginx" := by decide
  rw [hlater] at hafter
  exact hafter (congrArg some hkept)

/-- The image of the template is observed. -/
theorem keepsImages_sameImage : KeepsImages firstServer.id sharedInventory
    (discoverContainers plainRuntime firstServer.id
      (some [runningContainer "web".toList "nginx:1.27".toList]) sharedInventory).1 := by
  refine (keepsImages_iff plainRuntime firstServer [runningContainer "web".toList "nginx:1.27".toList]
    sharedInventory (by decide) constrained_sharedInventory).1 ⟨?_, fun _ _ ↦ trivial⟩
  intro _ info hinfo found id _ existing hexisting _ service hservice
  have hdeployment : sharedInventory.deploymentOf "first" "web".toList =
      some (runningDeployment "web-first" "web" "first" "web".toList) := by decide
  obtain rfl := some.inj hinfo
  obtain rfl := some.inj (hdeployment.symm.trans hexisting)
  obtain rfl := some.inj hservice
  exact ⟨⟨"nginx", "nginx".toList, "nginx".toList, "1.25".toList, "production", none⟩, by decide, rfl⟩

end Bridgeport.Discovery
