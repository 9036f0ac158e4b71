import Bridgeport.Foundation.Threads
import Bridgeport.Orchestration.CycleCheck

/-!
# Acyclic dependency edges

Any number of POST and DELETE requests run on the dependency edges of an environment. A POST checks
the services that it has read and creates its edge later, so that two of them can close a cycle
together. `dependenciesAcyclic` says that this is the only way: when every edge of the environment
that is stored at the creation of an edge has been read by the POST that creates it, the edges never
have a cycle.
-/

namespace Bridgeport.Dependencies

/-! ### The routes of dependency edges -/

variable (isPrismaNotFoundError : String → Bool)

section

open Foundation Orchestration Program List

structure ServiceRow where
  (id name environmentId : String)

inductive DependencyType
  | healthBefore
  | deployAfter
  deriving DecidableEq

structure DependencyData where
  (dependentId dependsOnId : String)
  type : DependencyType

structure DependencyRow extends DependencyData where
  id : String

structure ServiceWithDependencies extends ServiceRow where
  dependencies : List DependencyRow

instance : ExtendsServiceOrderInput ServiceWithDependencies :=
  ⟨fun service ↦ ⟨service.id, service.name, service.dependencies.map (·.dependsOnId)⟩⟩

inductive Call
  | findService (id : String)
  | findServices (environmentId : String)
  | createDependency (data : DependencyData)
  | findDependency (id : String)
  | deleteDependency (id : String)
  | createAuditLog (action resourceId : String)

def Answer : Call → Type
  | .findService _ => Option ServiceRow
  | .findServices _ => List ServiceWithDependencies
  | .createDependency _ => DependencyRow
  | .findDependency _ => Option DependencyRow
  | .deleteDependency _ => Unit
  | .createAuditLog _ _ => Unit

abbrev Async := Program Answer

abbrev await (request : Call) : Async (Answer request) := perform request

/-! ### Handlers -/

/-- The body of a POST, as its schema accepts it. -/
structure CreateDependencyBody where
  dependsOnId : String
  type : DependencyType
  nonempty : dependsOnId ≠ ""

inductive Reply
  | dependency (row : DependencyRow)
  | success
  | error (code : ℕ) (message : String)

/-- `message.includes(text)`. -/
def includes (message text : String) : Prop :=
  text.toList <:+: message.toList

instance (message text : String) : Decidable (includes message text) :=
  inferInstanceAs (Decidable (_ <:+: _))

/-- `logAudit`: a log that cannot be written does not fail the operation. -/
def logAudit (action resourceId : String) : Async Unit :=
  (await (.createAuditLog action resourceId)).tryCatch fun _ ↦ pure ()

/-- The first service with the id gets one more dependency. -/
def pushDependency (id : String) (dependency : DependencyRow) :
    List ServiceWithDependencies → List ServiceWithDependencies
  | [] => []
  | service :: rest =>
    if service.id = id then
      { service with dependencies := service.dependencies ++ [dependency] } :: rest
    else service :: pushDependency id dependency rest

/-- The services with the new dependency, for the check; nothing is added unless both services are
among those that have been read. -/
def addTemporary (services : List ServiceWithDependencies) (data : DependencyData) :
    List ServiceWithDependencies :=
  if (services.find? (·.id = data.dependsOnId)).isSome then
    pushDependency data.dependentId { data with id := "temp" } services
  else services

def checkCycle (environmentId : String) (data : DependencyData) : Async (Option Reply) :=
  Program.tryCatch (do
    let allServices ← await (.findServices environmentId)
    match resolveDependencyOrder (addTemporary allServices data) with
    | some (.ok _) => pure none
    | some (.error message) => throw message
    | none => throw "out of fuel")  -- excluded by `resolveDependencyOrder_cases`
  fun message ↦
    if includes message "Circular dependency" then pure (some (.error 400 message))
    else throw message

def createDependency (data : DependencyData) : Async Reply :=
  Program.tryCatch (do
    let dependency ← await (.createDependency data)
    logAudit "create" dependency.id
    pure (.dependency dependency))
  fun message ↦
    if includes message "Unique constraint" then
      pure (.error 409 "This dependency already exists")
    else throw message

/-- `POST /api/services/:id/dependencies`. -/
def postDependency (id : String) (body : CreateDependencyBody) : Async Reply := do
  let found ← promiseAll [await (.findService id), await (.findService body.dependsOnId)]
  match found with
  | [some dependent, some dependsOn] =>
    if dependent.environmentId ≠ dependsOn.environmentId then
      pure (.error 400 "Dependencies can only be created between services in the same environment")
    else if id = body.dependsOnId then
      pure (.error 400 "A service cannot depend on itself")
    else
      let data : DependencyData := ⟨id, body.dependsOnId, body.type⟩
      let refused ← checkCycle dependent.environmentId data
      match refused with
      | some reply => pure reply
      | none => createDependency data
  | [some _, none] => pure (.error 404 "Dependency service not found")
  | _ => pure (.error 404 "Service not found")

/-- `DELETE /api/dependencies/:id`; the code of an exception is not part of its message. -/
def deleteDependency (id : String) : Async Reply :=
  Program.tryCatch (do
    let dependency ← await (.findDependency id)
    match dependency with
    | none => pure (.error 404 "Dependency not found")
    | some _ => do
      await (.deleteDependency id)
      logAudit "delete" id
      pure .success)
  fun message ↦
    if isPrismaNotFoundError message then pure (.error 404 "Dependency not found")
    else throw message

inductive Request
  | post (id : String) (body : CreateDependencyBody)
  | delete (id : String)

def handle (isPrismaNotFoundError : String → Bool) : Request → Async Reply
  | .post id body => postDependency id body
  | .delete id => deleteDependency isPrismaNotFoundError id

theorem edges_cons (service : ServiceWithDependencies) (rest : List ServiceWithDependencies) :
    edges (service :: rest) =
      (service.dependencies.map fun row ↦ (service.id, row.dependsOnId)) ++ edges rest := by
  unfold edges
  rw [flatMap_cons]
  show ((service.dependencies.map (·.dependsOnId)).map fun depId ↦ (service.id, depId)) ++ _ = _
  rw [map_map]
  rfl

theorem serviceIds_pushDependency (id : String) (dependency : DependencyRow)
    (services : List ServiceWithDependencies) :
    serviceIds (pushDependency id dependency services) = serviceIds services := by
  induction services with
  | nil => rfl
  | cons service rest ih =>
    rw [pushDependency]
    split_ifs with hid
    · rfl
    · show idOf service :: serviceIds _ = idOf service :: serviceIds rest
      rw [ih]

variable {services : List ServiceWithDependencies}

theorem mem_edges_pushDependency {id : String} {dependency : DependencyRow}
    (hid : id ∈ serviceIds services) (edge : String × String) :
    edge ∈ edges (pushDependency id dependency services) ↔
      edge ∈ edges services ∨ edge = (id, dependency.dependsOnId) := by
  induction services with
  | nil => exact absurd hid not_mem_nil
  | cons service rest ih =>
    rw [pushDependency]
    by_cases hservice : service.id = id
    · rw [if_pos hservice, edges_cons, edges_cons, map_append, append_assoc]
      simp only [mem_append, map_cons, map_nil, mem_singleton, hservice]
      tauto
    · have hrest : id ∈ serviceIds rest :=
        (mem_cons.mp hid).resolve_left fun h ↦ hservice h.symm
      rw [if_neg hservice, edges_cons, edges_cons, mem_append, mem_append, ih hrest, or_assoc]

theorem serviceIds_addTemporary (services : List ServiceWithDependencies) (data : DependencyData) :
    serviceIds (addTemporary services data) = serviceIds services := by
  unfold addTemporary
  split_ifs
  · exact serviceIds_pushDependency _ _ services
  · rfl

/-- The check adds the new edge. Assumes: both services have been read. -/
theorem dependsOn_addTemporary {data : DependencyData}
    (hdependent : data.dependentId ∈ serviceIds services)
    (hdependsOn : data.dependsOnId ∈ serviceIds services) (a b : String) :
    Orchestration.DependsOn (addTemporary services data) a b ↔
      Orchestration.DependsOn services a b ∨ a = data.dependentId ∧ b = data.dependsOnId := by
  have hfound : (services.find? (·.id = data.dependsOnId)).isSome := by
    obtain ⟨service, hservice, hid⟩ := mem_map.mp hdependsOn
    exact List.find?_isSome.mpr ⟨service, hservice, decide_eq_true hid⟩
  unfold Orchestration.DependsOn
  rw [serviceIds_addTemporary]
  unfold addTemporary
  rw [if_pos hfound, mem_edges_pushDependency hdependent, Prod.mk.injEq, or_and_right]
  refine or_congr Iff.rfl ⟨And.left, fun h ↦ ⟨h, h.2 ▸ hdependsOn⟩⟩

end

open Foundation Orchestration Program Relation

/-- The services and the dependencies, with their unique keys. -/
structure DependencyStore where
  services : List ServiceRow
  dependencies : List DependencyRow
  nodup_services : (services.map (·.id)).Nodup
  nodup_ids : (dependencies.map (·.id)).Nodup
  nodup_pairs : (dependencies.map fun row ↦ (row.dependentId, row.dependsOnId)).Nodup

namespace DependencyStore

variable (store : DependencyStore) (row : DependencyRow)

/-- The row can be inserted. -/
def Fresh : Prop :=
  row.id ∉ store.dependencies.map (·.id) ∧
    (row.dependentId, row.dependsOnId) ∉
      store.dependencies.map fun row ↦ (row.dependentId, row.dependsOnId)

instance : Decidable (store.Fresh row) :=
  inferInstanceAs (Decidable (_ ∧ _))

/-- The store with one more dependency, if its keys are free. -/
def insert (row : DependencyRow) : DependencyStore :=
  if h : store.Fresh row then
    { services := store.services
      dependencies := row :: store.dependencies
      nodup_services := store.nodup_services
      nodup_ids := List.nodup_cons.mpr ⟨h.1, store.nodup_ids⟩
      nodup_pairs := List.nodup_cons.mpr ⟨h.2, store.nodup_pairs⟩ }
  else store

def delete (id : String) : DependencyStore where
  services := store.services
  dependencies := store.dependencies.filter (·.id ≠ id)
  nodup_services := store.nodup_services
  nodup_ids := store.nodup_ids.sublist (List.filter_sublist.map _)
  nodup_pairs := store.nodup_pairs.sublist (List.filter_sublist.map _)

def withDependencies (service : ServiceRow) : ServiceWithDependencies :=
  { service with dependencies := store.dependencies.filter (·.dependentId = service.id) }

def environmentServices (environmentId : String) : List ServiceWithDependencies :=
  (store.services.filter (·.environmentId = environmentId)).map store.withDependencies

end DependencyStore

variable (services : List ServiceRow)

/-- The services of an environment, in any order. -/
def ShowsRows (environmentId : String) (read : List ServiceWithDependencies) : Prop :=
  (read.map (·.toServiceRow)).Perm (services.filter (·.environmentId = environmentId))

/-- What a query of the services of an environment returns. -/
structure ShowsServices (store : DependencyStore) (environmentId : String)
    (read : List ServiceWithDependencies) : Prop where
  services : ShowsRows store.services environmentId read
  dependencies : ∀ service ∈ read, service.dependencies.Perm
    (store.dependencies.filter (·.dependentId = service.id))

def dependencySemantics : Semantics Answer DependencyStore where
  allows store event :=
    match event with
    | ⟨.findService id, .ok found⟩ => found = store.services.find? (·.id = id)
    | ⟨.findServices environmentId, .ok read⟩ => ShowsServices store environmentId read
    | ⟨.createDependency data, .ok row⟩ => row.toDependencyData = data ∧ store.Fresh row
    | ⟨.findDependency id, .ok found⟩ => found = store.dependencies.find? (·.id = id)
    | ⟨.deleteDependency id, .ok _⟩ => ∃ row ∈ store.dependencies, row.id = id
    | _ => True
  after store event :=
    match event with
    | ⟨.createDependency _, .ok row⟩ => store.insert row
    | ⟨.deleteDependency id, .ok _⟩ => store.delete id
    | _ => store

def Belongs (environmentId id : String) : Prop :=
  ∃ service ∈ services, service.id = id ∧ service.environmentId = environmentId

variable {environmentId id : String} {store : DependencyStore}

theorem mem_serviceIds_environmentServices :
    id ∈ serviceIds (store.environmentServices environmentId) ↔
      Belongs store.services environmentId id := by
  unfold serviceIds DependencyStore.environmentServices
  rw [List.map_map, List.mem_map]
  simp only [List.mem_filter, decide_eq_true_eq]
  constructor
  · intro ⟨service, ⟨hservice, henvironment⟩, hid⟩
    exact ⟨service, hservice, hid, henvironment⟩
  · intro ⟨service, hservice, hid, henvironment⟩
    exact ⟨service, ⟨hservice, henvironment⟩, hid⟩

theorem dependsOn_environmentServices {a b : String} :
    Orchestration.DependsOn (store.environmentServices environmentId) a b ↔
      (∃ row ∈ store.dependencies, row.dependentId = a ∧ row.dependsOnId = b) ∧
        Belongs store.services environmentId a ∧ Belongs store.services environmentId b := by
  unfold Orchestration.DependsOn
  rw [mem_serviceIds_environmentServices, mem_edges_iff, ← and_assoc]
  refine and_congr_left fun _ ↦ ⟨fun ⟨service, hservice, hid, hdependency⟩ ↦ ?_,
    fun ⟨⟨row, hrow, hdependent, hdependsOn⟩, service, hservice, hid, henvironment⟩ ↦ ?_⟩
  · obtain ⟨stored, hstored, rfl⟩ := List.mem_map.mp hservice
    obtain ⟨hmem, henvironment⟩ := List.mem_filter.mp hstored
    obtain ⟨row, hrow, hdependsOn⟩ := List.mem_map.mp hdependency
    obtain ⟨hrow, hdependent⟩ := List.mem_filter.mp hrow
    refine ⟨⟨row, hrow, (of_decide_eq_true hdependent).trans hid, hdependsOn⟩, stored, hmem,
      hid, ?_⟩
    exact of_decide_eq_true henvironment
  · refine ⟨store.withDependencies service, List.mem_map_of_mem (List.mem_filter.mpr
      ⟨hservice, decide_eq_true henvironment⟩), hid, ?_⟩
    refine List.mem_map.mpr ⟨row, List.mem_filter.mpr ⟨hrow, decide_eq_true ?_⟩, hdependsOn⟩
    exact hdependent.trans hid.symm

/-! ### A request as the others see it -/

/-- The last services that a request has read, with their environment. -/
abbrev CheckState := Option (String × List ServiceWithDependencies)

/-- The services that have been read last have no cycle with the new edge between two services of
their environment. -/
def Checked (state : CheckState) (data : DependencyData) : Prop :=
  ∃ environmentId seen, state = some (environmentId, seen) ∧
    Belongs services environmentId data.dependentId ∧
    Belongs services environmentId data.dependsOnId ∧ ShowsRows services environmentId seen ∧
    ¬ HasCycle (addTemporary seen data)

/-- An edge is inserted only after the check for a cycle. -/
def edgeProtocol : Protocol Answer CheckState where
  permits state request :=
    match request with
    | .createDependency data => Checked services state data
    | _ => True
  advance state event :=
    match event with
    | ⟨.findServices environmentId, .ok seen⟩ => some (environmentId, seen)
    | _ => state
  expects event :=
    match event with
    | ⟨.findService id, .ok found⟩ => found = services.find? (·.id = id)
    | ⟨.findServices environmentId, .ok seen⟩ => ShowsRows services environmentId seen
    | _ => True

variable {seen : List ServiceWithDependencies}

section

variable {services : List ServiceRow}

/-- A call that is neither a query of the services nor a creation. -/
def Unchecked (request : Call) : Prop :=
  match request with
  | .findServices _ | .createDependency _ => False
  | _ => True

section

variable {state : CheckState}

theorem neutral_of_unchecked {request : Call} (h : Unchecked request) :
    (edgeProtocol services).Neutral state request := by
  intro log
  cases request with
  | findServices _ | createDependency _ => exact h.elim
  | _ => exact ⟨trivial, fun _ ↦ rfl⟩

theorem avoids_await (request : Call) (h : Unchecked request) :
    (await request).Avoids fun request ↦ ¬ (edgeProtocol services).Neutral state request :=
  avoids_perform (not_not.mpr (neutral_of_unchecked h))

theorem avoids_logAudit (action resourceId : String) :
    (logAudit action resourceId).Avoids
      fun request ↦ ¬ (edgeProtocol services).Neutral state request :=
  (avoids_await (.createAuditLog action resourceId) trivial).tryCatch fun _ ↦ avoids_pure _

theorem avoids_deleteDependency (id : String) : (deleteDependency isPrismaNotFoundError id).Avoids
      fun request ↦ ¬ (edgeProtocol services).Neutral state request := by
  refine Avoids.tryCatch ((avoids_await (.findDependency id) trivial).bind fun dependency ↦ ?_)
    fun message ↦ ?_
  · cases dependency with
    | none => exact avoids_pure _
    | some row =>
      refine (avoids_await (.deleteDependency id) trivial).bind fun _ ↦ ?_
      exact (avoids_logAudit "delete" id).bind fun _ ↦ avoids_pure _
  · exact Avoids.ite (avoids_pure _) (avoids_throw _)

theorem follows_createDependency {data : DependencyData} (h : Checked services state data) :
    (createDependency data).Follows (edgeProtocol services) (fun _ _ ↦ True) state := by
  refine follows_tryCatch (follows_perform_bind h (fun row _ ↦ ?_) fun message ↦ ?_)
  · refine follows_of_avoids ((avoids_logAudit "create" row.id).bind fun _ ↦ avoids_pure _) ?_
    intro result
    cases result with
    | ok reply => exact trivial
    | error message => exact Follows.ite (fun _ ↦ trivial) fun _ ↦ trivial
  · exact Follows.ite (fun _ ↦ trivial) fun _ ↦ trivial

end

variable (hnodup : (services.map (·.id)).Nodup)

include hnodup

theorem nodup_addTemporary (hread : ShowsRows services environmentId seen) (data : DependencyData) :
    (serviceIds (addTemporary seen data)).Nodup := by
  have hids : serviceIds seen = (seen.map (·.toServiceRow)).map (·.id) := by
    rw [List.map_map]
    rfl
  rw [serviceIds_addTemporary, hids, (hread.map _).nodup_iff]
  exact hnodup.sublist (List.filter_sublist.map _)

/-- A check that passes has found no cycle in what it has read. -/
theorem follows_checkCycle (environmentId : String) (data : DependencyData) (state : CheckState) :
    (checkCycle environmentId data).Follows (edgeProtocol services) (fun result state ↦
      result = .ok none → ∃ seen, state = some (environmentId, seen) ∧
        ShowsRows services environmentId seen ∧ ¬ HasCycle (addTemporary seen data)) state := by
  refine follows_tryCatch (follows_perform_bind trivial (fun seen hread ↦ ?_) fun message ↦ ?_)
  · rcases resolveDependencyOrder_cases (nodup_addTemporary hnodup hread data) with
      ⟨-, message, hthrows⟩ | ⟨hacyclic, -, levels, hlevels, -⟩
    · rw [hthrows]
      exact Follows.ite (fun _ ↦ nofun) fun _ ↦ nofun
    · rw [hlevels]
      exact fun _ ↦ ⟨seen, rfl, hread, hacyclic⟩
  · exact Follows.ite (fun _ ↦ nofun) fun _ ↦ nofun

omit hnodup in
theorem belongs_of_find {row : ServiceRow} (hfound : some row = services.find? (·.id = id)) :
    Belongs services row.environmentId id := by
  have hid := List.find?_some hfound.symm
  rw [decide_eq_true_eq] at hid
  exact ⟨row, List.mem_of_find?_eq_some hfound.symm, hid, rfl⟩

theorem follows_postDependency (id : String) (body : CreateDependencyBody) (state : CheckState) :
    (postDependency id body).Follows (edgeProtocol services) (fun _ _ ↦ True) state := by
  refine follows_bind (follows_promiseAll (fun program hprogram ↦ ?_) (fun found hfound ↦ ?_)
    fun message ↦ trivial)
  · rcases List.mem_cons.mp hprogram with rfl | hsecond
    · exact avoids_await (.findService id) trivial
    · rw [List.mem_singleton.mp hsecond]
      exact avoids_await (.findService body.dependsOnId) trivial
  · cases hfound with
    | @cons _ dependentFound _ _ hdependent hrest =>
    cases hrest with
    | @cons _ dependsOnFound _ _ hdependsOn hnone =>
    cases hnone with
    | nil =>
    obtain ⟨_, hdependent, rfl⟩ := hdependent
    obtain ⟨_, hdependsOn, rfl⟩ := hdependsOn
    cases dependentFound with
    | none => exact trivial
    | some dependent =>
    cases dependsOnFound with
    | none => exact trivial
    | some dependsOn =>
    refine Follows.ite (fun _ ↦ trivial) fun hsame ↦ Follows.ite (fun _ ↦ trivial) fun _ ↦ ?_
    have hdependent := belongs_of_find hdependent
    have hdependsOn := belongs_of_find hdependsOn
    rw [← not_not.mp hsame] at hdependsOn
    refine follows_bind ((follows_checkCycle hnodup _ _ state).mono fun result after hresult ↦ ?_)
    cases result with
    | error message => exact trivial
    | ok refused =>
    cases refused with
    | some reply => exact trivial
    | none =>
      obtain ⟨seen, hseen, hchecked⟩ := hresult rfl
      exact follows_createDependency ⟨_, seen, hseen, hdependent, hdependsOn, hchecked⟩

/-- A request creates an edge after it has checked it. Assumes: the ids of the services differ. -/
theorem follows_handle (isPrismaNotFoundError : String → Bool) (request : Request) :
    (handle isPrismaNotFoundError request).Follows (edgeProtocol services) (fun _ _ ↦ True)
      none := by
  cases request with
  | post id body => exact follows_postDependency hnodup id body none
  | delete id =>
    exact follows_of_avoids (avoids_deleteDependency isPrismaNotFoundError id) fun _ ↦ trivial

end

variable (store : DependencyStore)

/-- A step of a request: no service changes, and only a creation adds an edge. -/
theorem after_cases (event : Event Answer) :
    (dependencySemantics.after store event).services = store.services ∧
      ((dependencySemantics.after store event).dependencies ⊆ store.dependencies ∨
        ∃ data row, event = ⟨.createDependency data, .ok row⟩ ∧
          (dependencySemantics.after store event).dependencies ⊆ row :: store.dependencies) := by
  simp only [dependencySemantics]
  split
  · rename_i data row
    unfold DependencyStore.insert
    split_ifs
    · exact ⟨rfl, .inr ⟨data, row, rfl, List.Subset.refl _⟩⟩
    · exact ⟨rfl, .inl (List.Subset.refl _)⟩
  · exact ⟨rfl, .inl List.filter_sublist.subset⟩
  · exact ⟨rfl, .inl (List.Subset.refl _)⟩

variable {event : Event Answer} {services : List ServiceRow}

theorem expects_of_allows {store : DependencyStore} (hservices : store.services = services)
    (hallows : dependencySemantics.allows store event) : (edgeProtocol services).expects event := by
  subst hservices
  obtain ⟨request, answer⟩ := event
  cases answer with
  | error message => cases request <;> exact trivial
  | ok value =>
    cases request with
    | findService id => exact hallows
    | findServices environmentId => exact hallows.services
    | createDependency _ | findDependency _ | deleteDependency _
    | createAuditLog _ _ => exact trivial

theorem hasCycle_mono {first second : List ServiceWithDependencies} (h : HasCycle first)
    (himp : ∀ a b, Orchestration.DependsOn first a b → Orchestration.DependsOn second a b) :
    HasCycle second := by
  obtain ⟨serviceId, hcycle⟩ := h
  exact ⟨serviceId, TransGen.mono himp _ _ hcycle⟩

theorem Belongs.unique (hnodup : (services.map (·.id)).Nodup) {first second : String}
    (hfirst : Belongs services first id) (hsecond : Belongs services second id) :
    first = second := by
  obtain ⟨service, hservice, hid, rfl⟩ := hfirst
  obtain ⟨other, hother, hotherId, rfl⟩ := hsecond
  rw [List.inj_on_of_nodup_map hnodup hservice hother (hid.trans hotherId.symm)]

theorem mem_serviceIds_of_showsRows (hread : ShowsRows services environmentId seen)
    (h : Belongs services environmentId id) : id ∈ serviceIds seen := by
  obtain ⟨service, hservice, rfl, rfl⟩ := h
  have hmem := hread.mem_iff.mpr (List.mem_filter.mpr ⟨hservice, decide_eq_true rfl⟩)
  obtain ⟨shown, hshown, rfl⟩ := List.mem_map.mp hmem
  exact List.mem_map_of_mem hshown

/-- The step does not create an edge past an edge of the environment that the request has not read:
every edge that is stored by then has been there for the check. -/
def NoneMissed (state : CheckState) (event : Event Answer) : Prop :=
  ∀ data row environmentId seen, event = ⟨.createDependency data, .ok row⟩ →
    state = some (environmentId, seen) → ∀ a b,
      Orchestration.DependsOn (store.environmentServices environmentId) a b →
        Orchestration.DependsOn seen a b

/-- A step that meets the condition closes no cycle. -/
theorem acyclic_after {store : DependencyStore} {state : CheckState}
    (h : ¬ HasCycle (store.environmentServices environmentId))
    (hpermits : (edgeProtocol store.services).permits state event.call)
    (hallows : dependencySemantics.allows store event) (hcondition : NoneMissed store state event) :
    ¬ HasCycle ((dependencySemantics.after store event).environmentServices environmentId) := by
  obtain ⟨hservices, hdependencies⟩ := after_cases store event
  intro hcycle
  rcases hdependencies with hfewer | ⟨data, row, rfl, hmore⟩
  · refine h (hasCycle_mono hcycle fun a b hab ↦ ?_)
    rw [dependsOn_environmentServices, hservices] at hab
    obtain ⟨⟨row, hrow, hends⟩, hbelong⟩ := hab
    exact dependsOn_environmentServices.mpr ⟨⟨row, hfewer hrow, hends⟩, hbelong⟩
  · obtain ⟨checked, seen, rfl, hdependent, hdependsOn, hread, hacyclic⟩ := hpermits
    have hdata : row.toDependencyData = data := hallows.1
    -- an edge afterwards is an edge before or the new one
    have hedges : ∀ a b, Orchestration.DependsOn ((dependencySemantics.after store
        ⟨.createDependency data, .ok row⟩).environmentServices environmentId) a b →
        Orchestration.DependsOn (store.environmentServices environmentId) a b ∨
          Belongs store.services environmentId a ∧ a = data.dependentId ∧ b = data.dependsOnId := by
      intro a b hab
      rw [dependsOn_environmentServices, hservices] at hab
      obtain ⟨⟨other, hother, hends⟩, hbelong⟩ := hab
      rcases List.mem_cons.mp (hmore hother) with rfl | hold
      · subst hdata
        exact .inr ⟨hbelong.1, hends.1.symm, hends.2.symm⟩
      · exact .inl (dependsOn_environmentServices.mpr ⟨⟨other, hold, hends⟩, hbelong⟩)
    by_cases henvironment : environmentId = checked
    · subst henvironment
      refine hacyclic (hasCycle_mono hcycle fun a b hab ↦ ?_)
      rw [dependsOn_addTemporary (mem_serviceIds_of_showsRows hread hdependent)
        (mem_serviceIds_of_showsRows hread hdependsOn)]
      exact (hedges a b hab).imp (hcondition data row _ seen rfl rfl a b) And.right
    · refine h (hasCycle_mono hcycle fun a b hab ↦ (hedges a b hab).resolve_right fun hnew ↦ ?_)
      obtain ⟨hbelong, rfl, -⟩ := hnew
      exact henvironment (hbelong.unique store.nodup_services hdependent)

section

variable {ι : Type*} [DecidableEq ι]

/-- What the requests have read last. -/
def checkStates (store : DependencyStore) (log : Trail ι Answer) : ι → CheckState :=
  (edgeProtocol store.services).states (fun _ ↦ none) log

/-- The edges of an environment never have a cycle. Assumes: they have none at first, and no step of
the run creates an edge past one that its request has not read. -/
theorem dependenciesAcyclic (isPrismaNotFoundError : String → Bool) (requests : ι → Request)
    (store : DependencyStore) (environmentId : String) (log : Trail ι Answer)
    (hrun : Concurrent (fun thread ↦ handle isPrismaNotFoundError (requests thread))
      dependencySemantics store log)
    (hinitial : ¬ HasCycle (store.environmentServices environmentId))
    (hcondition : EveryStep (fun before entry ↦
      NoneMissed (dependencySemantics.final store (before.map Prod.snd))
        (checkStates store before entry.1) entry.2) log) :
    ¬ HasCycle ((dependencySemantics.final store
      (log.map Prod.snd)).environmentServices environmentId) := by
  have hfollows := fun thread ↦
    follows_handle store.nodup_services isPrismaNotFoundError (requests thread)
  have hexpects : ∀ entry ∈ log, (edgeProtocol store.services).expects entry.2 :=
    hrun.expects (·.services = store.services) rfl
      fun current event hcurrent hallows ↦
        ⟨(after_cases current event).1.trans hcurrent, expects_of_allows hcurrent hallows⟩
  refine (hrun.invariant hfollows (fun current _ ↦ current.services = store.services ∧
    ¬ HasCycle (current.environmentServices environmentId)) (fun current states thread event ↦
      NoneMissed current (states thread) event) ⟨rfl, hinitial⟩ ?_ hexpects hcondition).2
  rintro current states thread event ⟨hcurrent, hacyclic⟩ hpermits hallows hstep
  rw [← hcurrent] at hpermits
  exact ⟨(after_cases current event).1.trans hcurrent,
    acyclic_after hacyclic hpermits hallows hstep⟩

end

theorem traces_postDependency {body : CreateDependencyBody} {dependent dependsOn : ServiceRow}
    {row : DependencyRow} {levels : List (List ServiceWithDependencies)}
    (henvironment : dependent.environmentId = dependsOn.environmentId)
    (hid : id ≠ body.dependsOnId)
    (hlevels : resolveDependencyOrder (addTemporary seen ⟨id, body.dependsOnId, body.type⟩) =
      some (.ok levels)) :
    Traces (postDependency id body)
      [⟨.findService id, .ok (some dependent)⟩,
        ⟨.findService body.dependsOnId, .ok (some dependsOn)⟩,
        ⟨.findServices dependent.environmentId, .ok seen⟩,
        ⟨.createDependency ⟨id, body.dependsOnId, body.type⟩, .ok row⟩] none := by
  refine Traces.joined ([(0, ⟨.findService id, .ok (some dependent)⟩),
    (1, ⟨.findService body.dependsOnId, .ok (some dependsOn)⟩)] : List (Fin 2 × Event Answer))
    (![some dependent, some dependsOn] : Fin 2 → Option ServiceRow) (fun index ↦ ?_) ?_
  · match index with
    | ⟨0, _⟩ =>
      apply Traces.call
      exact .done _
    | ⟨1, _⟩ =>
      apply Traces.call
      exact .done _
  · show Traces (if dependent.environmentId ≠ dependsOn.environmentId then _ else _) _ _
    rw [if_neg (not_not.mpr henvironment), if_neg hid]
    apply Traces.call
    simp only [resume_done, hlevels]
    apply Traces.call
    exact .start _

theorem showsServices_environmentServices (environmentId : String) :
    ShowsServices store environmentId (store.environmentServices environmentId) where
  services := by
    unfold ShowsRows DependencyStore.environmentServices
    rw [List.map_map]
    exact List.Perm.of_eq (List.map_id _)
  dependencies service hservice := by
    obtain ⟨row, -, rfl⟩ := List.mem_map.mp hservice
    exact List.Perm.refl _

def threeServices : DependencyStore where
  services := [⟨"api", "api", "production"⟩, ⟨"worker", "worker", "production"⟩,
    ⟨"cache", "cache", "production"⟩]
  dependencies := []
  nodup_services := by decide
  nodup_ids := List.nodup_nil
  nodup_pairs := List.nodup_nil

theorem not_hasCycle_threeServices :
    ¬ HasCycle (threeServices.environmentServices "production") := by
  rintro ⟨serviceId, hcycle⟩
  obtain ⟨next, hdepends, -⟩ := TransGen.head'_iff.mp hcycle
  obtain ⟨⟨row, hrow, -⟩, -⟩ := dependsOn_environmentServices.mp hdepends
  exact absurd hrow List.not_mem_nil

/-- A dependency of the first service on the second. -/
def apiOnWorker : DependencyRow := ⟨⟨"api", "worker", .deployAfter⟩, "edge-0"⟩

def post (data : DependencyData) (h : data.dependsOnId ≠ "") : Request :=
  .post data.dependentId ⟨data.dependsOnId, data.type, h⟩

def postQueries (data : DependencyData) (store : DependencyStore) : List (Event Answer) :=
  [⟨.findService data.dependentId, .ok (store.services.find? (·.id = data.dependentId))⟩,
    ⟨.findService data.dependsOnId, .ok (store.services.find? (·.id = data.dependsOnId))⟩,
    ⟨.findServices "production", .ok (store.environmentServices "production")⟩]

def creation (row : DependencyRow) : Event Answer :=
  ⟨.createDependency row.toDependencyData, .ok row⟩

def workerOnApi : DependencyRow := ⟨⟨"worker", "api", .deployAfter⟩, "edge-1"⟩

def workerOnCache : DependencyRow := ⟨⟨"worker", "cache", .deployAfter⟩, "edge-1"⟩

def oppositePosts : Bool → Request
  | false => post apiOnWorker.toDependencyData (by decide)
  | true => post workerOnApi.toDependencyData (by decide)

def chainedPosts : Bool → Request
  | false => post apiOnWorker.toDependencyData (by decide)
  | true => post workerOnCache.toDependencyData (by decide)

/-- Both POSTs read the services before one of them has created its dependency. -/
def crossingLog : Trail Bool Answer :=
  (postQueries apiOnWorker.toDependencyData threeServices).map (fun event ↦ (false, event)) ++
    (postQueries workerOnApi.toDependencyData threeServices).map (fun event ↦ (true, event)) ++
    [(false, creation apiOnWorker), (true, creation workerOnApi)]

/-- The second POST reads the services after the first one has created its dependency. -/
def chainedLog : Trail Bool Answer :=
  (postQueries apiOnWorker.toDependencyData threeServices).map (fun event ↦ (false, event)) ++
    (false, creation apiOnWorker) ::
    (postQueries workerOnCache.toDependencyData (threeServices.insert apiOnWorker)).map
      (fun event ↦ (true, event)) ++ [(true, creation workerOnCache)]

/-- The two dependencies close a cycle. -/
theorem not_dependenciesAcyclic_crossing :
    Concurrent (fun thread ↦ handle (fun _ ↦ false) (oppositePosts thread)) dependencySemantics
        threeServices crossingLog ∧
      ¬ HasCycle (threeServices.environmentServices "production") ∧
      HasCycle ((dependencySemantics.final threeServices
        (crossingLog.map Prod.snd)).environmentServices "production") := by
  refine ⟨⟨fun thread ↦ ?_, ?_⟩, ?_, ?_⟩
  · cases thread with
    | false | true => exact traces_postDependency rfl (by decide) rfl
  · have hshows := showsServices_environmentServices threeServices "production"
    exact ⟨rfl, rfl, hshows, rfl, rfl, hshows, ⟨rfl, by decide⟩, ⟨rfl, by decide⟩, trivial⟩
  · exact not_hasCycle_threeServices
  · refine ⟨"api", .tail (b := "worker") (.single ?_) ?_⟩
    · decide
    · decide

theorem noneMissed_creation {store : DependencyStore} (event : Event Answer) :
    NoneMissed store (some (environmentId, store.environmentServices environmentId)) event := by
  intro data row checked seen _ hstate a b hdepends
  obtain ⟨rfl, rfl⟩ := Prod.mk.inj (Option.some.inj hstate)
  exact hdepends

theorem dependenciesAcyclic_chained :
    ¬ HasCycle ((dependencySemantics.final threeServices
      (chainedLog.map Prod.snd)).environmentServices "production") := by
  refine dependenciesAcyclic (fun _ ↦ false) chainedPosts threeServices "production" chainedLog
    ⟨fun thread ↦ ?_, ?_⟩ not_hasCycle_threeServices ?_
  · cases thread with
    | false | true => exact traces_postDependency rfl (by decide) rfl
  · have hfirst := showsServices_environmentServices threeServices "production"
    have hsecond :=
      showsServices_environmentServices (threeServices.insert apiOnWorker) "production"
    exact ⟨rfl, rfl, hfirst, ⟨rfl, by decide⟩, rfl, rfl, hsecond, ⟨rfl, by decide⟩, trivial⟩
  · have hquery : ∀ store state request answer, (∀ data, request ≠ .createDependency data) →
        NoneMissed store state ⟨request, answer⟩ := by
      intro store state request answer hrequest data row environmentId seen hevent
      exact absurd (congrArg Event.call hevent) (hrequest data)
    refine everyStep_of_stepsAfter ⟨hquery _ _ _ _ nofun, hquery _ _ _ _ nofun,
      hquery _ _ _ _ nofun, noneMissed_creation _, hquery _ _ _ _ nofun, hquery _ _ _ _ nofun,
      hquery _ _ _ _ nofun, noneMissed_creation _, trivial⟩

end Bridgeport.Dependencies
