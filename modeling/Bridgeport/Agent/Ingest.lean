import Bridgeport.Agent.Payload
import Bridgeport.Foundation.OrderedMap
import Bridgeport.Foundation.WriteLog

/-!
# The ingest of a push

The part of `POST /api/metrics/ingest` that writes the deployments of a server. A push is read in
four parts (the metrics of the containers, the health checks, the TCP checks and the certificate
checks), each of which may update the deployment with the name of a container; the updates of a
deployment are merged and written at once. Every part of a deployment is what the push says of its
container at last, or what it was (`Deployments.ingestRow_eq`).

Times, the metric rows, the snapshots and the server row that the same transaction writes are left
out. `JSON.stringify` and `JSON.parse` undo each other, so that a stored text is the value that it
is the text of.
-/

namespace Bridgeport.Agent

open Foundation List Function OrderedMap

variable {Double : Type} (name : String)

def member : Json Double → Option (Json Double)
  | .object members => members.lookup name
  | _ => none

variable (value : Json Double)

def textMember : Option String :=
  match member name value with
  | some (.string text) => some text
  | _ => none

def boolMember : Option Bool :=
  match member name value with
  | some (.bool flag) => some flag
  | _ => none

def integerMember : Option ℤ :=
  match member name value with
  | some (.number (.integer number)) => some number
  | _ => none

def sliceMember : List (Json Double) :=
  match member name value with
  | some (.array elements) => elements
  | _ => []

/-- `containerName` of an element of a push. -/
def elementName (element : Json Double) : String :=
  (textMember "containerName" element).getD ""

/-! ### Deployments -/

/-- What a push writes of the state of a container. -/
structure ContainerUpdate where
  (status containerStatus healthStatus : String)

/-- What a push writes of a health check. -/
structure HealthUpdate (Double : Type) where
  success : Bool
  (statusCode durationMs : Option (Json Double))
  checkedAt : Option String

/-- What a push writes of a deployment. -/
structure DeploymentUpdate (Double : Type) where
  container : Option ContainerUpdate
  health : Option (HealthUpdate Double)
  (tcpCheckResults certCheckResults : Option (Json Double))

def DeploymentUpdate.empty : DeploymentUpdate Double :=
  ⟨none, none, none, none⟩

def DeploymentUpdate.merge (earlier later : DeploymentUpdate Double) : DeploymentUpdate Double where
  container := later.container.or earlier.container
  health := later.health.or earlier.health
  tcpCheckResults := later.tcpCheckResults.or earlier.tcpCheckResults
  certCheckResults := later.certCheckResults.or earlier.certCheckResults

/-- The columns of a `ServiceDeployment` that a push writes. -/
structure ServiceDeployment (Double : Type) where
  (id containerName : String)
  container : ContainerUpdate
  agentHealth : Option (HealthUpdate Double)
  (agentTcpCheckResults agentCertCheckResults : Option (Json Double))

def ServiceDeployment.apply (row : ServiceDeployment Double) (update : DeploymentUpdate Double) :
    ServiceDeployment Double where
  id := row.id
  containerName := row.containerName
  container := update.container.getD row.container
  agentHealth := update.health.or row.agentHealth
  agentTcpCheckResults := update.tcpCheckResults.or row.agentTcpCheckResults
  agentCertCheckResults := update.certCheckResults.or row.agentCertCheckResults

structure Deployments (Double : Type) where
  rows : List (ServiceDeployment Double)
  nodup_id : (rows.map (·.id)).Nodup
  nodup_name : (rows.map (·.containerName)).Nodup

variable (deployments : Deployments Double)

namespace Deployments

/-- `deploymentByContainer`. -/
def byContainer (name : String) : Option (ServiceDeployment Double) :=
  deployments.rows.find? (·.containerName = name)

def updateOf (name : String) (update : DeploymentUpdate Double) :
    Option (String × DeploymentUpdate Double) :=
  (deployments.byContainer name).map fun sd ↦ (sd.id, update)

end Deployments

/-! ### The parts of a push -/

def containerUpdate (state health : Option String) : ContainerUpdate :=
  let isRunning := state = some "running"
  let healthStatus :=
    if ¬ isRunning then "unknown"
    else if health = some "healthy" then "healthy"
    else if health = some "unhealthy" then "unhealthy"
    else if health = some "none" ∨ health = some "" then "none"
    else "unknown"
  let status :=
    if ¬ isRunning then "stopped"
    else if healthStatus = "unhealthy" then "unhealthy"
    else if healthStatus = "healthy" then "healthy"
    else "running"
  { status
    containerStatus := (state.bind nonEmpty).getD "stopped"
    healthStatus }

/-- What an element of `services` says. -/
def serviceUpdate (element : Json Double) : DeploymentUpdate Double :=
  let state := textMember "state" element
  let health := textMember "health" element
  if state = none ∧ health = none then .empty
  else { DeploymentUpdate.empty with container := some (containerUpdate state health) }

/-- What an element of `serviceHealthChecks` says. -/
def healthUpdate (element : Json Double) : DeploymentUpdate Double :=
  { DeploymentUpdate.empty with
    health := some
      { success := (boolMember "success" element).getD false
        statusCode := member "statusCode" element
        durationMs := member "durationMs" element
        checkedAt := textMember "checkedAt" element } }

variable (group : List (Json Double))

def tcpUpdate : DeploymentUpdate Double :=
  { DeploymentUpdate.empty with tcpCheckResults := some (.array group) }

def certUpdate : DeploymentUpdate Double :=
  { DeploymentUpdate.empty with certCheckResults := some (.array group) }

def groupByContainer (elements : List (Json Double)) : OrderedMap String (List (Json Double)) :=
  OrderedMap.groupBy elementName elements

/-- What a push says, by container name and in the order in which it is read. -/
def reports (body : Json Double) : List (String × DeploymentUpdate Double) :=
  (sliceMember "services" body).map (fun element ↦ (elementName element, serviceUpdate element)) ++
    (sliceMember "serviceHealthChecks" body).map
      (fun element ↦ (elementName element, healthUpdate element)) ++
    (groupByContainer (sliceMember "tcpCheckResults" body)).entries.map
      (fun entry ↦ (entry.1, tcpUpdate entry.2)) ++
    (groupByContainer (sliceMember "certCheckResults" body)).entries.map
      (fun entry ↦ (entry.1, certUpdate entry.2))

variable (updates : OrderedMap String (DeploymentUpdate Double))

def mergeDeploymentUpdate (update : String × DeploymentUpdate Double) :
    OrderedMap String (DeploymentUpdate Double) :=
  updates.set update.1 (((updates.get update.1).getD .empty).merge update.2)

def deploymentUpdates (body : Json Double) : OrderedMap String (DeploymentUpdate Double) :=
  ((reports body).filterMap fun report ↦ deployments.updateOf report.1 report.2).foldl
    mergeDeploymentUpdate .empty

def ingestRow (row : ServiceDeployment Double) : ServiceDeployment Double :=
  match updates.get row.id with
  | none => row
  | some update => row.apply update

section

variable (row : ServiceDeployment Double)

theorem id_ingestRow : (ingestRow updates row).id = row.id := by
  unfold ingestRow
  split <;> rfl

theorem containerName_ingestRow : (ingestRow updates row).containerName = row.containerName := by
  unfold ingestRow
  split <;> rfl

def ingest (deployments : Deployments Double) (body : Json Double) : Deployments Double where
  rows := deployments.rows.map (ingestRow (deploymentUpdates deployments body))
  nodup_id := by
    simpa [comp_def, id_ingestRow] using deployments.nodup_id
  nodup_name := by
    simpa [comp_def, containerName_ingestRow] using deployments.nodup_name

/-! ### What a push says of a container -/

/-- What a push says of the container with a name. -/
def said (name : String) (body : Json Double) : DeploymentUpdate Double :=
  ((reports body).filter (·.1 = name)).foldl (fun earlier report ↦ earlier.merge report.2) .empty

theorem apply_empty : row.apply .empty = row := by
  simp [ServiceDeployment.apply, DeploymentUpdate.empty]

end

theorem get_foldl_mergeDeploymentUpdate (updates : List (String × DeploymentUpdate Double))
    (id : String) :
    ((updates.foldl mergeDeploymentUpdate .empty).get id).getD .empty =
      (updates.filter (·.1 = id)).foldl (fun earlier update ↦ earlier.merge update.2) .empty := by
  induction updates using List.reverseRecOn with
  | nil => rfl
  | append_singleton updates last ih =>
    rw [foldl_append, filter_append, foldl_append, ← ih, foldl_cons,
      foldl_nil, mergeDeploymentUpdate, get_set]
    by_cases hlast : last.1 = id
    · simp [hlast]
    · simp [hlast, Ne.symm hlast]

namespace Deployments

variable {deployments : Deployments Double} {row : ServiceDeployment Double}

section

variable (hrow : row ∈ deployments.rows)
include hrow

theorem byContainer_eq_some_iff {name : String} {other : ServiceDeployment Double}
    (hother : deployments.byContainer name = some other) :
    other.id = row.id ↔ name = row.containerName := by
  have hmem : other ∈ deployments.rows := mem_of_find?_eq_some hother
  have hname : other.containerName = name := by simpa using List.find?_some hother
  constructor
  · intro hid
    have hsame : other = row := inj_on_of_nodup_map deployments.nodup_id hmem hrow hid
    rw [← hname, hsame]
  · intro hrowname
    rw [inj_on_of_nodup_map deployments.nodup_name hmem hrow (hname.trans hrowname)]

theorem byContainer_containerName : deployments.byContainer row.containerName = some row := by
  cases hfound : deployments.byContainer row.containerName with
  | none =>
    have hnone := List.find?_eq_none.mp hfound row hrow
    exact absurd (decide_eq_true rfl) hnone
  | some other =>
    have hmem : other ∈ deployments.rows := mem_of_find?_eq_some hfound
    have hid := (byContainer_eq_some_iff hrow hfound).mpr rfl
    rw [inj_on_of_nodup_map deployments.nodup_id hmem hrow hid]

theorem filter_updateOf (reports : List (String × DeploymentUpdate Double)) :
    ((reports.filterMap fun report ↦ deployments.updateOf report.1 report.2).filter
      (·.1 = row.id)).map Prod.snd =
      (reports.filter (·.1 = row.containerName)).map Prod.snd := by
  induction reports with
  | nil => rfl
  | cons report rest ih =>
    obtain ⟨name, update⟩ := report
    by_cases hname : name = row.containerName
    · have hupdate : deployments.updateOf name update = some (row.id, update) := by
        rw [updateOf, hname, byContainer_containerName hrow]
        rfl
      simp only [filterMap_cons, hupdate]
      simp [hname, ih]
    · cases hfound : deployments.byContainer name with
      | none =>
        have hupdate : deployments.updateOf name update = none := by
          rw [updateOf, hfound]
          rfl
        simp only [filterMap_cons, hupdate]
        simp [hname, ih]
      | some other =>
        have hupdate : deployments.updateOf name update = some (other.id, update) := by
          rw [updateOf, hfound]
          rfl
        have hid : other.id ≠ row.id := fun hsame ↦
          hname ((byContainer_eq_some_iff hrow hfound).mp hsame)
        simp only [filterMap_cons, hupdate]
        simp [hname, hid, ih]

/-- A deployment after a push: what the push says of its container, merged into the row. -/
theorem ingestRow_eq (body : Json Double) :
    ingestRow (deploymentUpdates deployments body) row =
      row.apply (said row.containerName body) := by
  have hmerged : ((deploymentUpdates deployments body).get row.id).getD .empty =
      said row.containerName body := by
    rw [deploymentUpdates, get_foldl_mergeDeploymentUpdate, said]
    have hfold : ∀ list : List (String × DeploymentUpdate Double),
        list.foldl (fun earlier update ↦ DeploymentUpdate.merge earlier update.2) .empty =
          (list.map Prod.snd).foldl DeploymentUpdate.merge .empty := fun list ↦ foldl_map.symm
    rw [hfold, hfold, filter_updateOf hrow]
  rw [← hmerged]
  unfold ingestRow
  cases (deploymentUpdates deployments body).get row.id with
  | none => exact (apply_empty row).symm
  | some update => rfl

end

end Deployments

/-! ### The parts of what is said -/

/-- The last value that a list gives. -/
def latest {α β : Type} (part : α → Option β) (items : List α) : Option β :=
  items.foldl (fun earlier item ↦ (part item).or earlier) none

theorem latest_concat {α β : Type} (part : α → Option β) (items : List α) (last : α) :
    latest part (items ++ [last]) = (part last).or (latest part items) := by
  simp [latest]

theorem latest_append {α β : Type} (part : α → Option β) (first second : List α) :
    latest part (first ++ second) = (latest part second).or (latest part first) := by
  induction second using List.reverseRecOn with
  | nil => simp [latest]
  | append_singleton second last ih =>
    rw [← append_assoc, latest_concat, latest_concat, ih, Option.or_assoc]

theorem latest_eq_none {α β : Type} {part : α → Option β} {items : List α}
    (h : ∀ item ∈ items, part item = none) : latest part items = none := by
  induction items using List.reverseRecOn with
  | nil => rfl
  | append_singleton items last ih =>
    rw [latest_concat, h last (by simp)]
    exact ih fun item hitem ↦ h item (mem_append_left _ hitem)

theorem latest_map {α β γ : Type} (part : β → Option γ) (make : α → β) (items : List α) :
    latest part (items.map make) = latest (fun item ↦ part (make item)) items :=
  foldl_map

section

variable {β : Type} (part : DeploymentUpdate Double → Option β)

theorem part_said (hempty : part .empty = none)
    (hmerge : ∀ earlier later, part (earlier.merge later) = (part later).or (part earlier))
    (name : String) (body : Json Double) : part (said name body) =
      latest (fun report ↦ part report.2) ((reports body).filter (·.1 = name)) := by
  unfold said
  induction (reports body).filter (fun report ↦ decide (report.1 = name))
    using List.reverseRecOn with
  | nil => exact hempty
  | append_singleton items last ih =>
    rw [latest_concat, foldl_append, foldl_cons, foldl_nil, hmerge, ih]

theorem filter_reports (name : String) (body : Json Double) :
    (reports body).filter (·.1 = name) =
      ((sliceMember "services" body).filter (elementName · = name)).map
          (fun element ↦ (elementName element, serviceUpdate element)) ++
        ((sliceMember "serviceHealthChecks" body).filter (elementName · = name)).map
          (fun element ↦ (elementName element, healthUpdate element)) ++
        (((groupByContainer (sliceMember "tcpCheckResults" body)).get name).toList.map
          fun group ↦ (name, tcpUpdate group)) ++
        (((groupByContainer (sliceMember "certCheckResults" body)).get name).toList.map
          fun group ↦ (name, certUpdate group)) := by
  have hgroups : ∀ (groups : OrderedMap String (List (Json Double)))
      (update : List (Json Double) → DeploymentUpdate Double),
      (groups.entries.map fun entry ↦ (entry.1, update entry.2)).filter
        (fun report ↦ decide (report.1 = name)) =
        (groups.get name).toList.map fun group ↦ (name, update group) := by
    intro groups update
    rw [filter_map, comp_def, filter_entries, map_map]
    rfl
  unfold reports
  simp only [filter_append, hgroups]
  simp only [filter_map, comp_def]

end

theorem latest_toList {α β : Type} (part : α → Option β) (item : Option α) :
    latest part item.toList = item.bind part := by
  cases item with
  | none => rfl
  | some item => simp [latest]

variable (element : Json Double)

/-- An element of `services` says nothing but the state of its container. -/
theorem serviceUpdate_eq :
    serviceUpdate element = { DeploymentUpdate.empty with
      container := (serviceUpdate element).container } := by
  unfold serviceUpdate
  dsimp only
  split_ifs <;> rfl

section

variable (name : String) (body : Json Double)

theorem tcpCheckResults_said :
    (said name body).tcpCheckResults =
      ((groupByContainer (sliceMember "tcpCheckResults" body)).get name).map .array := by
  have hservices : ∀ elements : List (Json Double),
      latest (fun element ↦ (serviceUpdate element).tcpCheckResults) elements = none :=
    fun elements ↦ latest_eq_none fun element _ ↦ by
      rw [serviceUpdate_eq]
      rfl
  have hhealth : ∀ elements : List (Json Double),
      latest (fun element ↦ (healthUpdate element).tcpCheckResults) elements = none :=
    fun elements ↦ latest_eq_none fun _ _ ↦ rfl
  rw [part_said DeploymentUpdate.tcpCheckResults rfl (fun _ _ ↦ rfl), filter_reports]
  simp only [latest_append, latest_map, latest_toList, hservices, hhealth]
  cases (groupByContainer (sliceMember "tcpCheckResults" body)).get name <;>
    simp [tcpUpdate, certUpdate, DeploymentUpdate.empty]

theorem certCheckResults_said :
    (said name body).certCheckResults =
      ((groupByContainer (sliceMember "certCheckResults" body)).get name).map .array := by
  have hservices : ∀ elements : List (Json Double),
      latest (fun element ↦ (serviceUpdate element).certCheckResults) elements = none :=
    fun elements ↦ latest_eq_none fun element _ ↦ by
      rw [serviceUpdate_eq]
      rfl
  have hhealth : ∀ elements : List (Json Double),
      latest (fun element ↦ (healthUpdate element).certCheckResults) elements = none :=
    fun elements ↦ latest_eq_none fun _ _ ↦ rfl
  rw [part_said DeploymentUpdate.certCheckResults rfl (fun _ _ ↦ rfl), filter_reports]
  simp only [latest_append, latest_map, latest_toList, hservices, hhealth]
  cases (groupByContainer (sliceMember "certCheckResults" body)).get name <;>
    simp [tcpUpdate, certUpdate, DeploymentUpdate.empty]

theorem container_said :
    (said name body).container =
      latest (fun element ↦ (serviceUpdate element).container)
        ((sliceMember "services" body).filter (elementName · = name)) := by
  have hhealth : ∀ elements : List (Json Double),
      latest (fun element ↦ (healthUpdate element).container) elements = none :=
    fun elements ↦ latest_eq_none fun _ _ ↦ rfl
  rw [part_said DeploymentUpdate.container rfl (fun _ _ ↦ rfl), filter_reports]
  simp only [latest_append, latest_map, latest_toList, hhealth]
  simp [tcpUpdate, certUpdate, DeploymentUpdate.empty]

end

end Bridgeport.Agent
