import Bridgeport.Foundation.OrderedMap
import Mathlib.Algebra.GroupWithZero.Nat
import Mathlib.Data.Finset.Basic

/-!
# Dependency resolution of a deployment set

`services/orchestration.ts` orders the services of a deployment in two passes over their dependency
entries. `detectCycle` is a depth-first search that shares one `visited` and one `recursionStack`
set between all its calls, and `resolveDependencyOrder` runs it from every unvisited service before
it peels the services off level by level with in-degree counters.

The search recurses on ids it has not visited and the peeling loop runs while its queue is not
empty; both carry a fuel argument here and answer `none` when it runs out.
`CycleCheck` proves that the fuel `resolveDependencyOrder` passes is always enough.

`edges` lists every dependency entry as a pair of ids, repeats included, and `DependsOn` is the
relation of the entries whose target is listed too. `HasCycle` and `Throws` are the two sides of
the error condition.
-/

namespace Bridgeport.Orchestration

open Foundation Relation

/-- What `resolveDependencyOrder` reads of a service: its id, its name (for the error message) and
the `dependsOnId` of each of its dependency entries. -/
structure ServiceOrderInput where
  (id name : String)
  dependsOnIds : List String

/-- The types that carry a `ServiceOrderInput`, as in `T extends ServiceOrderInput`. -/
class ExtendsServiceOrderInput (T : Type*) where
  toOrderInput : T → ServiceOrderInput

instance : ExtendsServiceOrderInput ServiceOrderInput := ⟨id⟩

variable {T : Type*} [ExtendsServiceOrderInput T] (service : T)

def idOf : String := (ExtendsServiceOrderInput.toOrderInput service).id

def nameOf : String := (ExtendsServiceOrderInput.toOrderInput service).name

def dependsOnIds : List String :=
  (ExtendsServiceOrderInput.toOrderInput service).dependsOnIds

/-! ### The depth-first cycle check -/

/-- The two sets that every call of `detectCycle` shares. -/
structure VisitState where
  (visited recursionStack : Finset String)

/-- The start of a cycle check, before any id has been visited. -/
def VisitState.start : VisitState := ⟨∅, ∅⟩

/-- An id on entry to `detectCycle`: visited, and on the recursion stack. -/
def VisitState.enter (state : VisitState) (serviceId : String) : VisitState :=
  ⟨insert serviceId state.visited, insert serviceId state.recursionStack⟩

/-- An id whose dependencies have all been searched leaves the recursion stack. -/
def VisitState.leave (state : VisitState) (serviceId : String) : VisitState :=
  { state with recursionStack := state.recursionStack.erase serviceId }

/-- The loop of `detectCycle` over the dependency entries of `service`, with `visit` the recursive
call. The answer is the cycle found, if any, and the sets after the call. -/
def visitDependencies (services : OrderedMap String T)
    (visit : String → VisitState → Option (Option (List String) × VisitState)) (service : T)
    (serviceId : String) : List String → VisitState → Option (Option (List String) × VisitState)
  | [], state => some (none, state.leave serviceId)
  | depId :: rest, state =>
    if depId ∉ state.visited then
      match visit depId state with
      | none => none
      | some (some cycle, state') => some (some (nameOf service :: cycle), state')
      | some (none, state') => visitDependencies services visit service serviceId rest state'
    else if depId ∈ state.recursionStack then
      -- `depService?.name || depId`: an empty name falls back to the id
      let depName := (((services.get depId).map nameOf).filter (· ≠ "")).getD depId
      some (some [nameOf service, depName], state)
    else visitDependencies services visit service serviceId rest state

/-- `detectCycle`. An id that is not a listed service returns at once and stays on the recursion
stack: the deletion at the end of the function is not reached. -/
def detectCycle (services : OrderedMap String T) :
    ℕ → String → VisitState → Option (Option (List String) × VisitState)
  | 0, _, _ => none
  | fuel + 1, serviceId, state =>
    let entered := state.enter serviceId
    match services.get serviceId with
    | none => some (none, entered)
    | some service =>
      visitDependencies services (detectCycle services fuel) service serviceId
        (dependsOnIds service) entered

/-- The loop of `resolveDependencyOrder` that starts a search from every unvisited service and
stops at the first cycle. -/
def findCycle (services : OrderedMap String T) (fuel : ℕ) :
    List T → VisitState → Option (Option (List String))
  | [], _ => some none
  | service :: rest, state =>
    if idOf service ∉ state.visited then
      match detectCycle services fuel (idOf service) state with
      | none => none
      | some (some cycle, _) => some (some cycle)
      | some (none, state') => findCycle services fuel rest state'
    else findCycle services fuel rest state

/-- The three maps that `resolveDependencyOrder` builds. -/
structure OrderTables (T : Type*) where
  serviceMap : OrderedMap String T
  inDegree : OrderedMap String ℤ
  adjacencyList : OrderedMap String (List String)

/-- The maps before any service is registered. -/
def OrderTables.empty : OrderTables T := ⟨.empty, .empty, .empty⟩

variable (tables : OrderTables T)

/-- A service enters the three maps with in-degree 0 and no dependents. -/
def registerService (service : T) : OrderTables T where
  serviceMap := tables.serviceMap.set (idOf service) service
  inDegree := tables.inDegree.set (idOf service) 0
  adjacencyList := tables.adjacencyList.set (idOf service) []

/-- One dependency entry: counted when its target is listed, ignored otherwise. -/
def registerDependency (dependsOnId : String) : OrderTables T :=
  if (tables.serviceMap.get dependsOnId).isSome then
    { tables with
      inDegree := tables.inDegree.set (idOf service) ((tables.inDegree.get (idOf service)).getD 0 + 1)
      adjacencyList := tables.adjacencyList.set dependsOnId
        ((tables.adjacencyList.get dependsOnId).getD [] ++ [idOf service]) }
  else tables

def registerDependencies (service : T) : OrderTables T :=
  (dependsOnIds service).foldl (registerDependency service) tables

variable (services : List T)

/-- The maps after both registration loops. -/
def buildTables : OrderTables T :=
  services.foldl registerDependencies (services.foldl registerService OrderTables.empty)

/-- One dependent of a processed service: its in-degree drops by one, and it is queued for the next
level when the counter reaches 0. -/
def releaseDependent (serviceMap : OrderedMap String T)
    (state : OrderedMap String ℤ × List T) (depId : String) : OrderedMap String ℤ × List T :=
  let newDegree := (state.1.get depId).getD 0 - 1
  let inDegree := state.1.set depId newDegree
  if newDegree = 0 then
    match serviceMap.get depId with
    | some depService => (inDegree, state.2 ++ [depService])
    | none => (inDegree, state.2)
  else (inDegree, state.2)

/-- One round of the `while` loop: all dependents of all queued services. -/
def processQueue (tables : OrderTables T) (queue : List T) (inDegree : OrderedMap String ℤ) :
    OrderedMap String ℤ × List T :=
  queue.foldl (fun state service ↦
    ((tables.adjacencyList.get (idOf service)).getD []).foldl
      (releaseDependent tables.serviceMap) state) (inDegree, [])

/-- The `while (queue.length > 0)` loop. -/
def peelLevels (tables : OrderTables T) : ℕ → List T → OrderedMap String ℤ → Option (List (List T))
  | 0, _, _ => none
  | fuel + 1, queue, inDegree =>
    if queue.isEmpty then some []
    else
      let (inDegree', nextQueue) := processQueue tables queue inDegree
      (peelLevels tables fuel nextQueue inDegree').map (queue :: ·)

/-- `resolveDependencyOrder`: the levels, or the error it throws. -/
def resolveDependencyOrder : Option (Except String (List (List T))) :=
  if services.isEmpty then some (.ok [])
  else
    let tables := buildTables services
    match findCycle tables.serviceMap (services.length + 1) services VisitState.start with
    | none => none
    | some (some cycle) =>
      some (.error ("Circular dependency detected: " ++ " -> ".intercalate cycle))
    | some none =>
      let queue := services.filter fun service ↦ tables.inDegree.get (idOf service) = some 0
      match peelLevels tables (services.length + 1) queue tables.inDegree with
      | none => none
      | some levels =>
        if (levels.map List.length).sum ≠ services.length then
          some (.error "Dependency resolution failed: not all services could be ordered")
        else some (.ok levels)

/-! ### The dependency relation of a list of services -/

def serviceIds : List String :=
  services.map idOf

/-- Every dependency entry as the pair of the dependent's id and the `dependsOnId`, with repeats. -/
def edges : List (String × String) :=
  services.flatMap fun service ↦ (dependsOnIds service).map fun depId ↦ (idOf service, depId)

/-- Some service with the first id has a dependency entry on the second, and both are listed. -/
def DependsOn (a b : String) : Prop :=
  (a, b) ∈ edges services ∧ b ∈ serviceIds services

instance (a b : String) : Decidable (DependsOn services a b) :=
  inferInstanceAs (Decidable (_ ∧ _))

/-- The dependency relation restricted to the listed services has a cycle. -/
def HasCycle : Prop :=
  ∃ serviceId, TransGen (DependsOn services) serviceId serviceId

/-- `resolveDependencyOrder` throws. -/
def Throws : Prop :=
  ∃ message, resolveDependencyOrder services = some (.error message)

theorem mem_edges_iff (a b : String) :
    (a, b) ∈ edges services ↔ ∃ service ∈ services, idOf service = a ∧
    b ∈ dependsOnIds service := by
  simp only [edges, List.mem_flatMap, List.mem_map, Prod.mk.injEq]
  constructor
  · rintro ⟨service, hservice, depId, hdepId, rfl, rfl⟩
    exact ⟨service, hservice, rfl, hdepId⟩
  · rintro ⟨service, hservice, rfl, hdepId⟩
    exact ⟨service, hservice, b, hdepId, rfl, rfl⟩

theorem mem_serviceIds_iff (serviceId : String) :
    serviceId ∈ serviceIds services ↔ ∃ service ∈ services, idOf service = serviceId :=
  List.mem_map

theorem DependsOn.left_mem {services : List T} {a b : String} (h : DependsOn services a b) :
    a ∈ serviceIds services := by
  obtain ⟨service, hservice, hid, -⟩ := (mem_edges_iff services a b).mp h.1
  exact (mem_serviceIds_iff services a).mpr ⟨service, hservice, hid⟩

end Bridgeport.Orchestration
