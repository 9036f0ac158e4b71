import Bridgeport.Discovery.CleanTurns

/-!
# Reconciliation

`reconciles_iff`: a discovery of distinct containers whose inspections succeed goes through, leaves
one deployment for each container and marks the others as missing, and a second one changes nothing,
exactly if every turn finds what it needs (`CleanTurn`). A template whose deployment runs in a
container of another name does not fit, and the unique key of services and servers makes the
discovery fail; one with another tag is corrected by the second discovery only.
-/

namespace Bridgeport.Discovery

open Foundation Secrets Docker List

variable {runtime : Runtime} {server : Server} {inventory : Inventory} {listed : Listed}
  {containers : List Listed}

/-! ### Missing containers -/

variable (missing : List ServiceDeployment) (row : ServiceDeployment)

def markedRow : ServiceDeployment :=
  if row.id ∈ missing.map (·.id) then row.gone else row

theorem markedRow_eq :
    (markedRow missing row).id = row.id ∧ (markedRow missing row).serviceId = row.serviceId ∧
      (markedRow missing row).serverContainer = row.serverContainer ∧
      (markedRow missing row).serviceServer = row.serviceServer := by
  unfold markedRow
  split_ifs <;> exact ⟨rfl, rfl, rfl, rfl⟩

theorem rows_markMissing (inventory : Inventory) :
    (markMissing missing inventory).deployments.rows =
      inventory.deployments.rows.map (markedRow missing) := by
  induction missing generalizing inventory with
  | nil =>
    refine (map_id' _).symm.trans (map_congr_left fun row _ ↦ ?_)
    exact (if_neg not_mem_nil).symm
  | cons deployment missing ih =>
    have hrest := ih { inventory with
      deployments := inventory.deployments.update deployment.id ServiceDeployment.gone fun _ ↦ rfl }
    refine hrest.trans ?_
    show (inventory.deployments.rows.map _).map (markedRow missing) = _
    rw [map_map]
    refine map_congr_left fun row _ ↦ ?_
    unfold markedRow
    simp only [Function.comp_apply, map_cons, mem_cons]
    by_cases hid : Keyed.id row = deployment.id
    · have hrow : row.id = deployment.id := hid
      have hgone : row.gone.gone = row.gone := rfl
      rw [if_pos hid, if_pos (Or.inl hrow), hgone]
      exact ite_self _
    · have hrow : row.id ≠ deployment.id := hid
      simp only [if_neg hid, hrow, false_or]

variable {missing : List ServiceDeployment}

theorem mem_markMissing {row : ServiceDeployment} :
    row ∈ (markMissing missing inventory).deployments.rows ↔
      ∃ before ∈ inventory.deployments.rows, markedRow missing before = row := by
  rw [rows_markMissing, mem_map]

theorem constrained_markMissing (missing : List ServiceDeployment) (h : inventory.Constrained) :
    (markMissing missing inventory).Constrained where
  registries := h.registries
  images := h.images
  services := h.services
  serviceServers := by
    intro first hfirst second hsecond hsame
    obtain ⟨row, hrow, rfl⟩ := mem_markMissing.mp hfirst
    obtain ⟨other, hother, rfl⟩ := mem_markMissing.mp hsecond
    rw [(markedRow_eq missing row).2.2.2, (markedRow_eq missing other).2.2.2] at hsame
    rw [h.serviceServers row hrow other hother hsame]
  serverContainers := by
    intro first hfirst second hsecond hsame
    obtain ⟨row, hrow, rfl⟩ := mem_markMissing.mp hfirst
    obtain ⟨other, hother, rfl⟩ := mem_markMissing.mp hsecond
    rw [(markedRow_eq missing row).2.2.1, (markedRow_eq missing other).2.2.1] at hsame
    rw [h.serverContainers row hrow other hother hsame]
  serviceImages := h.serviceImages
  deploymentServices := by
    intro deployment hdeployment
    obtain ⟨row, hrow, rfl⟩ := mem_markMissing.mp hdeployment
    rw [(markedRow_eq missing row).2.1]
    exact h.deploymentServices row hrow

/-- The deployments of the listed containers are not marked. -/
def Unmarked (server : Server) (containers : List Listed) (missing : List ServiceDeployment)
    (inventory : Inventory) : Prop :=
  ∀ row ∈ inventory.deployments.rows, row.id ∈ missing.map (·.id) →
    row.serverId = server.id ∧ row.containerName ∉ containers.map (·.name)

section

variable (h : Unmarked server containers missing inventory) (hlisted : listed ∈ containers)

include h hlisted

theorem deploymentOf_markMissing :
    (markMissing missing inventory).deploymentOf server.id listed.name =
      inventory.deploymentOf server.id listed.name := by
  have hkeys : ∀ row, (markedRow missing row).serverContainer = row.serverContainer :=
    fun row ↦ (markedRow_eq missing row).2.2.1
  have hfind : (markMissing missing inventory).deploymentOf server.id listed.name =
      (inventory.deploymentOf server.id listed.name).map (markedRow missing) := by
    rw [Inventory.deploymentOf, Table.findBy?, rows_markMissing, List.find?_map]
    simp only [Function.comp_def, hkeys]
    rfl
  rw [hfind]
  cases hfound : inventory.deploymentOf server.id listed.name with
  | none => rfl
  | some row =>
    obtain ⟨hmem, hkey⟩ := Table.mem_of_findBy? hfound
    have hname : row.containerName = listed.name := (Prod.ext_iff.mp hkey).2
    have hunmarked : row.id ∉ missing.map (·.id) := by
      intro hmissing
      refine (h row hmem hmissing).2 ?_
      rw [hname]
      exact mem_map_of_mem hlisted
    rw [Option.map_some, markedRow, if_neg hunmarked]

theorem listedSettled_markMissing :
    ListedSettled runtime server (markMissing missing inventory) listed ↔
      ListedSettled runtime server inventory listed := by
  have hdeployment := deploymentOf_markMissing h hlisted
  constructor
  · intro ⟨info, hinfo, hresolved, image, deployment, service, himage, hfound, hrest⟩
    exact ⟨info, hinfo, hresolved, image, deployment, service, himage, hdeployment ▸ hfound, hrest⟩
  · intro ⟨info, hinfo, hresolved, image, deployment, service, himage, hfound, hrest⟩
    exact ⟨info, hinfo, hresolved, image, deployment, service, himage, hdeployment.trans hfound,
      hrest⟩

end

theorem markMissing_eq_self
    (h : ∀ row ∈ inventory.deployments.rows, row.id ∈ missing.map (·.id) → row.gone = row) :
    markMissing missing inventory = inventory := by
  have hrows : (markMissing missing inventory).deployments.rows = inventory.deployments.rows := by
    rw [rows_markMissing]
    refine (map_congr_left fun row hrow ↦ ?_).trans (map_id' _)
    unfold markedRow
    split_ifs with hmissing
    · exact h row hrow hmissing
    · rfl
  have hdeployments : (markMissing missing inventory).deployments = inventory.deployments := by
    cases hbefore : inventory.deployments
    cases hafter : (markMissing missing inventory).deployments
    rw [hbefore, hafter] at hrows
    simpa using hrows
  exact congrArg (fun deployments ↦ { inventory with deployments := deployments }) hdeployments

theorem unmarked_unlisted (runtime : Runtime) (server : Server) (containers : List Listed)
    (inventory : Inventory) : Unmarked server containers
      (unlisted containers (inventory.deploymentsOn server.id))
      (discoverAll runtime server containers inventory).inventory := by
  intro row hrow hmissing
  obtain ⟨deployment, hdeployment, hid⟩ := mem_map.mp hmissing
  obtain ⟨hon, hname⟩ := mem_filter.mp hdeployment
  obtain ⟨hmem, hserver⟩ := mem_filter.mp hon
  have hname : deployment.containerName ∉ containers.map (·.name) := by simpa using hname
  have hafter : deployment ∈
    (discoverAll runtime server containers inventory).inventory.deployments.rows :=
    (mem_deployments_foldl fun _ ↦ hname).mpr hmem
  have hsame : deployment = row := Table.eq_of_id_eq hafter hrow hid
  exact hsame ▸ ⟨by simpa using hserver, hname⟩

/-- The rows behind a call whose loop goes through. -/
def reconciled (runtime : Runtime) (server : Server) (containers : List Listed) (inventory : Inventory) :
    Inventory :=
  markMissing (unlisted containers (inventory.deploymentsOn server.id))
    (discoverAll runtime server containers inventory).inventory

/-- A call goes through exactly if its loop does. -/
theorem discoverContainers_cases (hserver : inventory.servers.find? server.id = some server) :
    (∃ failure, (discoverAll runtime server containers inventory).failure = some failure ∧
      (discoverContainers runtime server.id (some containers) inventory).2 = .error failure) ∨
    (discoverAll runtime server containers inventory).failure = none ∧
      ∃ result, discoverContainers runtime server.id (some containers) inventory =
        (reconciled runtime server containers inventory, .ok result) := by
  unfold discoverContainers reconciled
  simp only [hserver]
  cases (discoverAll runtime server containers inventory).failure with
  | some failure => exact .inl ⟨failure, rfl, rfl⟩
  | none => exact .inr ⟨rfl, _, rfl⟩

section

variable (runtime : Runtime) (server : Server) (containers : List Listed)

theorem constrained_reconciled (h : inventory.Constrained) :
    (reconciled runtime server containers inventory).Constrained := by
  have hloop : (discoverAll runtime server containers inventory).inventory.Constrained :=
    constrained_foldl containers h
  exact constrained_markMissing _ hloop

theorem servers_reconciled (inventory : Inventory) :
    (reconciled runtime server containers inventory).servers = inventory.servers :=
  servers_foldl containers

end

/-- A listed container is settled behind the call if it is behind the loop. -/
theorem listedSettled_reconciled (hlisted : listed ∈ containers) :
    ListedSettled runtime server (reconciled runtime server containers inventory) listed ↔
      ListedSettled runtime server
        (discoverAll runtime server containers inventory).inventory listed :=
  listedSettled_markMissing (unmarked_unlisted runtime server containers inventory) hlisted

structure Reconciles (runtime : Runtime) (server : Server) (containers : List Listed)
    (before after : Inventory) : Prop where
  completes : ∃ result,
    discoverContainers runtime server.id (some containers) before = (after, .ok result)
  found : ∀ listed ∈ containers, ∃ deployment, deployment.discoveryStatus = .found ∧
    ∀ other, (other ∈ after.deployments.rows ∧ other.serverId = server.id ∧
      other.containerName = listed.name) ↔ other = deployment
  kept : ∀ deployment ∈ before.deployments.rows, deployment.serverId = server.id →
    deployment.containerName ∉ containers.map (·.name) → ∃ later ∈ after.deployments.rows,
      later.id = deployment.id ∧ later.serverContainer = deployment.serverContainer
  missing : ∀ deployment ∈ after.deployments.rows, deployment.serverId = server.id →
    deployment.containerName ∉ containers.map (·.name) → deployment.discoveryStatus = .missing
  idempotent : ∃ result,
    discoverContainers runtime server.id (some containers) after = (after, .ok result)

theorem ListedSettled.found (h : ListedSettled runtime server inventory listed)
    (hconstrained : inventory.Constrained) : ∃ deployment, deployment.discoveryStatus = .found ∧
      ∀ other, (other ∈ inventory.deployments.rows ∧ other.serverId = server.id ∧
        other.containerName = listed.name) ↔ other = deployment := by
  obtain ⟨info, -, -, image, deployment, service, -, hdeployment, hfound, -⟩ := h
  obtain ⟨hmem, hkey⟩ := Table.mem_of_findBy? hdeployment
  refine ⟨deployment, congrArg ServiceDeployment.discoveryStatus hfound.symm, fun other ↦ ?_⟩
  constructor
  · intro ⟨hother, hserver, hname⟩
    exact hconstrained.serverContainers other hother deployment hmem
      ((Prod.ext hserver hname : other.serverContainer = (server.id, listed.name)).trans hkey.symm)
  · rintro rfl
    exact ⟨hmem, (Prod.ext_iff.mp hkey).1, (Prod.ext_iff.mp hkey).2⟩

theorem gone_of_unlisted {row : ServiceDeployment}
    (hrow : row ∈ (reconciled runtime server containers inventory).deployments.rows)
    (hserver : row.serverId = server.id) (hname : row.containerName ∉ containers.map (·.name)) :
    ∃ before : ServiceDeployment, row = before.gone := by
  obtain ⟨before, hbefore, rfl⟩ := mem_markMissing.mp hrow
  have hkey := (markedRow_eq (unlisted containers (inventory.deploymentsOn server.id)) before).2.2.1
  have hbeforeServer : before.serverId = server.id := (Prod.ext_iff.mp hkey).1.symm.trans hserver
  have hbeforeName : before.containerName ∉ containers.map (·.name) := by
    have hsame : (markedRow _ before).containerName = before.containerName :=
      (Prod.ext_iff.mp hkey).2
    rwa [hsame] at hname
  have hinitial := (mem_deployments_foldl fun _ ↦ hbeforeName).mp hbefore
  have hon : before ∈ inventory.deploymentsOn server.id :=
    mem_filter.mpr ⟨hinitial, by simpa using hbeforeServer⟩
  have hmissing : before ∈ unlisted containers (inventory.deploymentsOn server.id) :=
    mem_filter.mpr ⟨hon, by simpa using hbeforeName⟩
  exact ⟨before, if_pos (mem_map_of_mem hmissing)⟩

/-- A second call whose containers are all settled changes nothing. -/
theorem reconciled_of_settled (h : ∀ listed ∈ containers,
    ListedSettled runtime server (reconciled runtime server containers inventory) listed) :
    (discoverAll runtime server containers
      (reconciled runtime server containers inventory)).failure = none ∧
      reconciled runtime server containers (reconciled runtime server containers inventory) =
        reconciled runtime server containers inventory := by
  obtain ⟨hsame, hcompleted⟩ : (discoverAll runtime server containers
      (reconciled runtime server containers inventory)).inventory =
        reconciled runtime server containers inventory ∧
      (discoverAll runtime server containers
        (reconciled runtime server containers inventory)).failure = none := foldl_of_settled rfl h
  refine ⟨hcompleted, ?_⟩
  have hunmarked := unmarked_unlisted runtime server containers
    (reconciled runtime server containers inventory)
  rw [hsame] at hunmarked
  rw [reconciled, hsame]
  refine markMissing_eq_self fun row hrow hmissing ↦ ?_
  obtain ⟨hserver, hname⟩ := hunmarked row hrow hmissing
  obtain ⟨before, rfl⟩ := gone_of_unlisted hrow hserver hname
  rfl

section

variable (hserver : inventory.servers.find? server.id = some server)
  (hconstrained : inventory.Constrained) (hnodup : (containers.map (·.name)).Nodup)
include hserver hconstrained hnodup

theorem reconciles_of_meets (hinfo : ∀ listed ∈ containers, listed.info.isSome)
    (hclean : (discovery runtime server).Meets (CleanTurn runtime server) ⟨inventory, [], none⟩
      containers) :
    Reconciles runtime server containers inventory
      (discoverContainers runtime server.id (some containers) inventory).1 := by
  obtain ⟨hcompleted, hloop⟩ : (discoverAll runtime server containers inventory).failure = none ∧
      ∀ listed ∈ containers, ListedSettled runtime server
        (discoverAll runtime server containers inventory).inventory listed :=
    settled_foldl rfl hconstrained hnodup hinfo hclean
  rcases discoverContainers_cases hserver with ⟨failure, hfailed, -⟩ | ⟨-, result, hresult⟩
  · nomatch hcompleted.symm.trans hfailed
  have hsettled : ∀ listed ∈ containers,
      ListedSettled runtime server (reconciled runtime server containers inventory) listed :=
    fun listed hlisted ↦ (listedSettled_reconciled hlisted).mpr (hloop listed hlisted)
  have hmarked := constrained_reconciled runtime server containers hconstrained
  obtain ⟨hagain, hsame⟩ := reconciled_of_settled hsettled
  rw [hresult]
  constructor
  · exact ⟨result, hresult⟩
  · exact fun listed hlisted ↦ (hsettled listed hlisted).found hmarked
  · intro deployment hmem _ hname
    have hafter : deployment ∈
        (discoverAll runtime server containers inventory).inventory.deployments.rows :=
      (mem_deployments_foldl fun _ ↦ hname).mpr hmem
    obtain ⟨hid, -, hkey, -⟩ :=
      markedRow_eq (unlisted containers (inventory.deploymentsOn server.id)) deployment
    exact ⟨_, mem_markMissing.mpr ⟨deployment, hafter, rfl⟩, hid, hkey⟩
  · intro deployment hmem hon hname
    obtain ⟨before, rfl⟩ := gone_of_unlisted hmem hon hname
    rfl
  · have hfound : (reconciled runtime server containers inventory).servers.find? server.id =
        some server := by
      rw [servers_reconciled]
      exact hserver
    rcases discoverContainers_cases hfound with ⟨failure, hfailed, -⟩ | ⟨-, second, hsecond⟩
    · nomatch hagain.symm.trans hfailed
    · rw [hsame] at hsecond
      exact ⟨second, hsecond⟩

theorem meets_of_reconciles (h : Reconciles runtime server containers inventory
      (discoverContainers runtime server.id (some containers) inventory).1) :
    (discovery runtime server).Meets (CleanTurn runtime server)
    ⟨inventory, [], none⟩ containers := by
  obtain ⟨result, hresult⟩ := h.completes
  rcases discoverContainers_cases hserver with ⟨failure, -, hfailed⟩ | ⟨hcompleted, first, hfirst⟩
  · rw [hresult] at hfailed
    cases hfailed
  rw [hfirst] at h
  have hmarked := constrained_reconciled runtime server containers hconstrained
  have hfound : (reconciled runtime server containers inventory).servers.find? server.id =
      some server := by
    rw [servers_reconciled]
    exact hserver
  obtain ⟨second, hsecond⟩ := h.idempotent
  rcases discoverContainers_cases hfound with ⟨failure, -, hfailed⟩ | ⟨hagain, other, hother⟩
  · rw [hsecond] at hfailed
    cases hfailed
  have hsame : reconciled runtime server containers
    (reconciled runtime server containers inventory) =
      reconciled runtime server containers inventory :=
    (Prod.ext_iff.mp (hother.symm.trans hsecond)).1
  -- The second loop settles every container, and the rows behind it are those behind the first.
  have hsettled : ∀ listed ∈ containers, ListedSettled runtime server (discoverAll runtime server
      containers (reconciled runtime server containers inventory)).inventory listed := by
    refine settled_of_completed rfl hmarked hnodup (fun listed hlisted ↦ ?_) hagain
    obtain ⟨deployment, -, hdeployment⟩ := h.found listed hlisted
    obtain ⟨hmem, hon, hname⟩ := (hdeployment deployment).mpr rfl
    exact Option.isSome_iff_exists.mpr ⟨deployment,
      (Table.findBy?_eq_some_iff hmarked.serverContainers).mpr ⟨hmem, Prod.ext hon hname⟩⟩
  refine meets_of_settled rfl hconstrained hnodup hcompleted fun listed hlisted ↦ ?_
  refine (listedSettled_reconciled hlisted).mp ?_
  rw [← hsame]
  exact (listedSettled_reconciled hlisted).mpr (hsettled listed hlisted)

end

/-- A discovery reconciles exactly if every turn finds what it needs. -/
theorem reconciles_iff (runtime : Runtime) (server : Server) (containers : List Listed)
    (inventory : Inventory) (hserver : inventory.servers.find? server.id = some server)
    (hconstrained : inventory.Constrained) (hnodup : (containers.map (·.name)).Nodup)
    (hinfo : ∀ listed ∈ containers, listed.info.isSome) :
    Reconciles runtime server containers inventory
        (discoverContainers runtime server.id (some containers) inventory).1 ↔
      (discovery runtime server).Meets (CleanTurn runtime server) ⟨inventory, [], none⟩ containers := by
  constructor
  · exact meets_of_reconciles hserver hconstrained hnodup
  · exact reconciles_of_meets hserver hconstrained hnodup hinfo

/-- The first deployment of the template runs in a container that has been renamed. -/
def renamedInventory : Inventory :=
  { sharedInventory with
    deployments := ⟨[runningDeployment "web-first" "web" "first" "web-1".toList], by decide⟩ }

theorem constrained_renamedInventory : renamedInventory.Constrained where
  registries := by decide
  images := by decide
  services := by decide
  serviceServers := by decide
  serverContainers := by decide
  serviceImages := by decide
  deploymentServices := by decide

/-- The container takes over the template, which has a deployment on the server already. -/
theorem not_reconciles_renamedContainer :
    (discoverContainers plainRuntime firstServer.id
      (some [runningContainer "web".toList "nginx:1.25".toList]) renamedInventory).2 =
        .error .uniqueConstraint ∧
    ¬ (∀ runtime server containers inventory, inventory.servers.find? server.id = some server →
      inventory.Constrained → (containers.map (·.name)).Nodup →
      (∀ listed ∈ containers, listed.info.isSome) → Reconciles runtime server containers inventory
        (discoverContainers runtime server.id (some containers) inventory).1) := by
  have hfailed : (discoverContainers plainRuntime firstServer.id
      (some [runningContainer "web".toList "nginx:1.25".toList]) renamedInventory).2 =
        .error .uniqueConstraint := rfl
  refine ⟨hfailed, fun hall ↦ ?_⟩
  obtain ⟨result, hresult⟩ := (hall plainRuntime firstServer
    [runningContainer "web".toList "nginx:1.25".toList] renamedInventory (by decide)
    constrained_renamedInventory (by decide) (by decide)).completes
  rw [hresult] at hfailed
  cases hfailed

/-- A container with a deployment and a new one. -/
theorem reconciles_newContainer :
    Reconciles plainRuntime firstServer [runningContainer "web".toList "nginx:1.27".toList,
        runningContainer "db".toList "postgres:16".toList] sharedInventory
      (discoverContainers plainRuntime firstServer.id (some [runningContainer "web".toList
        "nginx:1.27".toList, runningContainer "db".toList "postgres:16".toList]) sharedInventory).1 := by
  refine (reconciles_iff plainRuntime firstServer _ sharedInventory (by decide)
    constrained_sharedInventory (by decide) (by decide)).mpr
      ⟨?_, fun after hafter ↦ ⟨?_, fun _ _ ↦ trivial⟩⟩
  · intro _ info hinfo
    obtain rfl := Option.some.inj hinfo
    refine ⟨⟨none, rfl, fun _ ↦ .inl (by decide)⟩, fun hnone ↦ ?_⟩
    exact absurd hnone (by decide)
  · obtain rfl := Option.some.inj hafter
    intro _ info hinfo
    obtain rfl := Option.some.inj hinfo
    refine ⟨⟨none, rfl, fun _ ↦ .inl (by decide)⟩, fun _ image himage ↦ ?_⟩
    nomatch show none = some image from himage

end Bridgeport.Discovery
