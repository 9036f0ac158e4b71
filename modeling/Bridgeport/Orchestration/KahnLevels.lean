import Bridgeport.Foundation.DependencyLevels
import Bridgeport.Orchestration.DependencyOrder
import Mathlib.Tactic.Ring

/-!
# The levels that peeling computes

The in-degree counters of `resolveDependencyOrder` count dependency entries, repeats included, and
the adjacency lists repeat a dependent once per entry, so the two stay consistent on graphs with
duplicate edges. `get_serviceMap_buildTables`, `get_inDegree_buildTables` and
`getD_adjacencyList_buildTables` read the three maps off the list of entries.
-/

namespace Bridgeport.Orchestration

open Foundation Foundation.DependencyLevels Relation Option OrderedMap

variable {T : Type*} [ExtendsServiceOrderInput T]

/-! ### Reading the tables -/

def edgesOf (service : T) : List (String × String) :=
  (dependsOnIds service).map fun depId ↦ (idOf service, depId)

variable (services : List T)

/-- The dependency entries whose target is listed. -/
def innerEdges : List (String × String) :=
  (edges services).filter (·.2 ∈ serviceIds services)

def degreeIn (inDegree : OrderedMap String ℤ) (serviceId : String) : ℤ :=
  (inDegree.get serviceId).getD 0

theorem dependsOn_iff_mem_innerEdges (a b : String) :
    DependsOn services a b ↔ (a, b) ∈ innerEdges services := by
  rw [innerEdges, List.mem_filter, decide_eq_true_eq]
  exact Iff.rfl

theorem foldl_registerService (hnodup : (serviceIds services).Nodup) :
    (∀ serviceId service, (services.foldl registerService OrderTables.empty).serviceMap.get
        serviceId = some service ↔ service ∈ services ∧ idOf service = serviceId) ∧
      (services.foldl registerService OrderTables.empty).serviceMap.keys = serviceIds services ∧
      (∀ serviceId, (services.foldl registerService OrderTables.empty).inDegree.get serviceId =
        if serviceId ∈ serviceIds services then some 0 else none) ∧
      ∀ serviceId, ((services.foldl registerService OrderTables.empty).adjacencyList.get
        serviceId).getD [] = [] := by
  induction services using List.reverseRecOn with
  | nil => simp [OrderTables.empty, serviceIds]
  | append_singleton services last ih =>
    have hids : serviceIds (services ++ [last]) = serviceIds services ++ [idOf last] := by
      simp [serviceIds]
    rw [hids, List.nodup_append] at hnodup
    have hfresh : idOf last ∉ serviceIds services := fun hmem ↦
      hnodup.2.2 _ hmem _ (List.mem_singleton_self _) rfl
    obtain ⟨hmap, hkeys, hdegree, hadjacency⟩ := ih hnodup.1
    simp only [List.foldl_append, List.foldl_cons, List.foldl_nil, registerService, hids]
    refine ⟨fun serviceId service ↦ ?_, ?_, fun serviceId ↦ ?_, fun serviceId ↦ ?_⟩
    · rw [get_set]
      split_ifs with hid
      · subst hid
        constructor
        · intro h
          cases h
          exact ⟨by simp, rfl⟩
        · rintro ⟨hmem, hid⟩
          rcases List.mem_append.mp hmem with hmem | hmem
          · exact absurd ((mem_serviceIds_iff _ _).mpr ⟨service, hmem, hid⟩) hfresh
          · rw [List.mem_singleton.mp hmem]
      · rw [hmap]
        constructor
        · rintro ⟨hmem, hid'⟩
          exact ⟨List.mem_append_left _ hmem, hid'⟩
        · rintro ⟨hmem, hid'⟩
          rcases List.mem_append.mp hmem with hmem | hmem
          · exact ⟨hmem, hid'⟩
          · exact absurd (List.mem_singleton.mp hmem ▸ hid'.symm) hid
    · rw [keys_set, hkeys, if_neg hfresh]
    · rw [get_set, hdegree]
      by_cases hid : serviceId = idOf last
      · simp [hid]
      · simp [hid]
    · rw [get_set]
      split_ifs
      · rfl
      · exact hadjacency serviceId

/-- The effect on the tables of registering dependency entries, given as pairs of ids. -/
structure Registered (tables : OrderTables T) (entries : List (String × String))
    (result : OrderTables T) : Prop where
  serviceMap : result.serviceMap = tables.serviceMap
  degree : ∀ serviceId, degreeIn result.inDegree serviceId = degreeIn tables.inDegree serviceId +
    entries.countP fun edge ↦ edge.1 = serviceId ∧ (tables.serviceMap.get edge.2).isSome
  bound : ∀ serviceId, (tables.inDegree.get serviceId).isSome →
    (result.inDegree.get serviceId).isSome
  adjacency : ∀ serviceId, (result.adjacencyList.get serviceId).getD [] =
    (tables.adjacencyList.get serviceId).getD [] ++
      (entries.filter fun edge ↦
        edge.2 = serviceId ∧ (tables.serviceMap.get edge.2).isSome).map Prod.fst

variable (tables : OrderTables T)

omit [ExtendsServiceOrderInput T] in
theorem Registered.refl : Registered tables [] tables :=
  ⟨rfl, fun _ ↦ by simp, fun _ h ↦ h, fun _ ↦ by simp⟩

omit [ExtendsServiceOrderInput T] in
theorem Registered.trans {tables middle result : OrderTables T}
    {first second : List (String × String)} (hfirst : Registered tables first middle)
    (hsecond : Registered middle second result) : Registered tables (first ++ second) result where
  serviceMap := hsecond.serviceMap.trans hfirst.serviceMap
  degree serviceId := by
    rw [hsecond.degree, hfirst.degree, hfirst.serviceMap, List.countP_append]
    push_cast
    ring
  bound serviceId h := hsecond.bound serviceId (hfirst.bound serviceId h)
  adjacency serviceId := by
    rw [hsecond.adjacency, hfirst.adjacency, hfirst.serviceMap, List.filter_append, List.map_append,
      List.append_assoc]

theorem registered_registerDependency (service : T) (tables : OrderTables T) (depId : String) :
    Registered tables [(idOf service, depId)] (registerDependency service tables depId) := by
  unfold registerDependency
  split_ifs with hlisted
  · refine ⟨rfl, fun serviceId ↦ ?_, fun serviceId h ↦ ?_, fun serviceId ↦ ?_⟩
    · simp only [degreeIn, get_set]
      split_ifs with hid
      · simp [hid, hlisted]
      · simp [hlisted, Ne.symm hid]
    · rw [get_set]
      split_ifs
      · rfl
      · exact h
    · rw [get_set]
      split_ifs with hid
      · simp [hid, hlisted]
      · simp [hlisted, Ne.symm hid]
  · exact ⟨rfl, fun serviceId ↦ by simp [hlisted], fun _ h ↦ h, fun serviceId ↦ by simp [hlisted]⟩

theorem registered_registerDependencies (service : T) :
    Registered tables (edgesOf service) (registerDependencies tables service) := by
  have hfold : ∀ (deps : List String) (tables : OrderTables T),
      Registered tables (deps.map fun depId ↦ (idOf service, depId))
        (deps.foldl (registerDependency service) tables) := by
    intro deps
    induction deps with
    | nil => exact Registered.refl
    | cons depId rest ih =>
      intro tables
      exact (registered_registerDependency service tables depId).trans (ih _)
  exact hfold (dependsOnIds service) tables

theorem registered_foldl :
    Registered tables (edges services) (services.foldl registerDependencies tables) := by
  induction services generalizing tables with
  | nil => exact Registered.refl tables
  | cons service rest ih =>
    exact (registered_registerDependencies tables service).trans (ih _)

section Tables

variable {services : List T} (hnodup : (serviceIds services).Nodup) (serviceId : String)
include hnodup

theorem get_serviceMap_buildTables (service : T) :
    (buildTables services).serviceMap.get serviceId = some service ↔
      service ∈ services ∧ idOf service = serviceId := by
  rw [buildTables, (registered_foldl services _).serviceMap]
  exact (foldl_registerService services hnodup).1 serviceId service

theorem keys_serviceMap_buildTables :
    (buildTables services).serviceMap.keys = serviceIds services := by
  rw [buildTables, (registered_foldl services _).serviceMap]
  exact (foldl_registerService services hnodup).2.1

theorem isSome_get_registered :
    ((services.foldl registerService OrderTables.empty).serviceMap.get serviceId).isSome ↔
      serviceId ∈ serviceIds services := by
  rw [isSome_iff_exists, mem_serviceIds_iff]
  exact exists_congr fun service ↦ (foldl_registerService services hnodup).1 serviceId service

theorem degreeIn_buildTables : degreeIn (buildTables services).inDegree serviceId =
      (innerEdges services).countP (·.1 = serviceId) := by
  have hregistered := registered_foldl services (services.foldl registerService OrderTables.empty)
  have hzero : degreeIn (services.foldl registerService OrderTables.empty).inDegree serviceId =
    0 := by
    rw [degreeIn, (foldl_registerService services hnodup).2.2.1]
    split_ifs <;> rfl
  rw [buildTables, hregistered.degree, hzero, zero_add, innerEdges, List.countP_filter]
  congr 2
  funext edge
  simp [isSome_get_registered hnodup]

theorem get_inDegree_buildTables {serviceId : String} (hmem : serviceId ∈ serviceIds services) :
    (buildTables services).inDegree.get serviceId =
      some (((innerEdges services).countP (·.1 = serviceId) : ℕ) : ℤ) := by
  have hbound : ((buildTables services).inDegree.get serviceId).isSome := by
    refine (registered_foldl services _).bound serviceId ?_
    rw [(foldl_registerService services hnodup).2.2.1, if_pos hmem]
    rfl
  obtain ⟨degree, hdegree⟩ := isSome_iff_exists.mp hbound
  have hcount := degreeIn_buildTables hnodup serviceId
  rw [degreeIn, hdegree, getD_some] at hcount
  rw [hdegree, hcount]

theorem getD_adjacencyList_buildTables :
    ((buildTables services).adjacencyList.get serviceId).getD [] =
      ((innerEdges services).filter (·.2 = serviceId)).map Prod.fst := by
  have hregistered := registered_foldl services (services.foldl registerService OrderTables.empty)
  rw [buildTables, hregistered.adjacency, (foldl_registerService services hnodup).2.2.2 serviceId,
    List.nil_append, innerEdges, List.filter_filter]
  congr 2
  funext edge
  simp [isSome_get_registered hnodup]

end Tables

variable (serviceMap : OrderedMap String T) (state : OrderedMap String ℤ × List T)

omit [ExtendsServiceOrderInput T] in
/-- One decrement sets the counter of the dependent, whatever it queues. -/
theorem fst_releaseDependent (depId : String) : (releaseDependent serviceMap state depId).1 =
      state.1.set depId (degreeIn state.1 depId - 1) := by
  simp only [releaseDependent, degreeIn]
  split
  · split <;> rfl
  · rfl

omit [ExtendsServiceOrderInput T] in
/-- One decrement queues the dependent exactly when its counter reaches 0. -/
theorem snd_releaseDependent (depId : String) : (releaseDependent serviceMap state depId).2 =
      if degreeIn state.1 depId - 1 = 0 then state.2 ++ (serviceMap.get depId).toList
      else state.2 := by
  by_cases hzero : (state.1.get depId).getD 0 - 1 = 0
  · simp only [releaseDependent, degreeIn, hzero, ↓reduceIte]
    cases serviceMap.get depId <;> simp
  · simp only [releaseDependent, degreeIn, hzero, ↓reduceIte]

omit [ExtendsServiceOrderInput T] in
/-- The run of decrements over `ids`: each counter drops by the number of its occurrences, and the
ids released, each once, are those whose counter passes from positive to at most 0. -/
theorem foldl_releaseDependent (ids : List String) (state : OrderedMap String ℤ × List T) :
    (∀ serviceId, degreeIn (ids.foldl (releaseDependent serviceMap) state).1 serviceId =
      degreeIn state.1 serviceId - ids.count serviceId) ∧
    ∃ released : List String, released.Nodup ∧
      (∀ serviceId, serviceId ∈ released ↔
        1 ≤ degreeIn state.1 serviceId ∧ degreeIn state.1 serviceId ≤ ids.count serviceId) ∧
      (ids.foldl (releaseDependent serviceMap) state).2 =
        state.2 ++ released.filterMap serviceMap.get := by
  induction ids generalizing state with
  | nil =>
    refine ⟨fun _ ↦ by simp, [], List.nodup_nil, fun serviceId ↦ ?_, by simp⟩
    simp only [List.not_mem_nil, List.count_nil, Nat.cast_zero, false_iff, not_and]
    intro h
    omega
  | cons depId rest ih =>
    obtain ⟨hdegree, released, hnodup, hmem, hqueue⟩ := ih (releaseDependent serviceMap state depId)
    have hstep : ∀ serviceId, degreeIn (releaseDependent serviceMap state depId).1 serviceId =
        if serviceId = depId then degreeIn state.1 depId - 1
        else degreeIn state.1 serviceId := by
      intro serviceId
      rw [fst_releaseDependent, degreeIn, get_set]
      split_ifs <;> rfl
    have hcount : ∀ serviceId, (depId :: rest).count serviceId =
        rest.count serviceId + if serviceId = depId then 1 else 0 := by
      intro serviceId
      rw [List.count_cons]
      by_cases h : serviceId = depId
      · simp [h]
      · simp [h, Ne.symm h]
    rw [List.foldl_cons]
    refine ⟨fun serviceId ↦ ?_, ?_⟩
    · rw [hdegree, hstep, hcount]
      split_ifs with h
      · subst h
        push_cast
        ring
      · simp
    · by_cases hzero : degreeIn state.1 depId - 1 = 0
      · have hnew : depId ∉ released := fun h ↦ by
          have hpositive := ((hmem depId).mp h).1
          rw [hstep, if_pos rfl] at hpositive
          omega
        refine ⟨depId :: released, List.nodup_cons.mpr ⟨hnew, hnodup⟩, fun serviceId ↦ ?_, ?_⟩
        · rw [List.mem_cons, hmem, hstep, hcount]
          split_ifs with h
          · subst h
            simp only [true_or, true_iff]
            push_cast
            omega
          · simp [h]
        · rw [hqueue, snd_releaseDependent, if_pos hzero, List.filterMap_cons, List.append_assoc]
          cases serviceMap.get depId <;> rfl
      · refine ⟨released, hnodup, fun serviceId ↦ ?_, ?_⟩
        · rw [hmem, hstep, hcount]
          split_ifs with h
          · subst h
            push_cast
            omega
          · simp
        · rw [hqueue, snd_releaseDependent, if_neg hzero]

/-- A round of the `while` loop is one run of decrements. -/
theorem processQueue_eq_foldl (tables : OrderTables T) (queue : List T)
    (inDegree : OrderedMap String ℤ) :
    processQueue tables queue inDegree =
      (queue.flatMap fun service ↦ (tables.adjacencyList.get (idOf service)).getD []).foldl
        (releaseDependent tables.serviceMap) (inDegree, []) := by
  rw [List.foldl_flatMap, processQueue]

/-! ### The rounds of the `while` loop -/

theorem countP_split {α : Type*} (whole left right : α → Prop) [DecidablePred whole]
    [DecidablePred left] [DecidablePred right] (hsplit : ∀ a, whole a ↔ left a ∨ right a)
    (hdisjoint : ∀ a, left a → ¬ right a) (list : List α) :
    list.countP (fun a ↦ whole a) = list.countP (fun a ↦ left a) + list.countP fun a ↦ right a := by
  induction list with
  | nil => rfl
  | cons a rest ih =>
    have hwhole := hsplit a
    have hboth := hdisjoint a
    by_cases hleft : left a <;> by_cases hright : right a <;>
      simp_all <;> omega

theorem count_flatMap_dependents (entries : List (String × String)) (targets : List String)
    (hnodup : targets.Nodup) (serviceId : String) :
    (targets.flatMap fun target ↦
        (entries.filter (·.2 = target)).map Prod.fst).count serviceId =
      entries.countP fun edge ↦ edge.1 = serviceId ∧ edge.2 ∈ targets := by
  induction targets with
  | nil => simp
  | cons target rest ih =>
    rw [List.nodup_cons] at hnodup
    have hhead : ((entries.filter (·.2 = target)).map Prod.fst).count serviceId =
        entries.countP fun edge ↦ edge.1 = serviceId ∧ edge.2 = target := by
      rw [List.count, List.countP_map, List.countP_filter]
      congr 1
      funext edge
      by_cases hid : edge.1 = serviceId <;> simp [hid]
    rw [List.flatMap_cons, List.count_append, hhead, ih hnodup.2]
    refine (countP_split (α := String × String) _ _ _ (fun edge ↦ ?_) (fun edge hleft hright ↦ ?_)
      entries).symm
    · rw [List.mem_cons]
      tauto
    · exact hnodup.1 (hleft.2 ▸ hright.2)

section Rounds

open scoped Classical in
/-- The invariant of the `while` loop before round `k`: the counter of an id counts its entries
whose target the earlier rounds have not processed, and the queue holds the services of level `k`,
each once. -/
structure RoundState (services : List T) (k : ℕ) (queue : List T)
    (inDegree : OrderedMap String ℤ) : Prop where
  degree : ∀ serviceId, degreeIn inDegree serviceId = (innerEdges services).countP fun edge ↦
    edge.1 = serviceId ∧ edge.2 ∉ settled (DependsOn services) k
  nodup : (queue.map idOf).Nodup
  mem : ∀ service, service ∈ queue ↔
    service ∈ services ∧ idOf service ∈ level (DependsOn services) k

variable {services : List T}

theorem mem_settled_succ_iff (k : ℕ) (serviceId : String) :
    serviceId ∈ settled (DependsOn services) (k + 1) ↔
      ∀ edge ∈ innerEdges services, edge.1 = serviceId →
        edge.2 ∈ settled (DependsOn services) k := by
  constructor
  · rintro h ⟨a, b⟩ hedge rfl
    exact h b ((dependsOn_iff_mem_innerEdges services a b).mpr hedge)
  · intro h target hdepends
    exact h (serviceId, target) ((dependsOn_iff_mem_innerEdges services _ _).mp hdepends) rfl

variable (hnodup : (serviceIds services).Nodup)
include hnodup

theorem roundState_zero :
    RoundState services 0 (services.filter fun service ↦
      (buildTables services).inDegree.get (idOf service) = some 0)
      (buildTables services).inDegree where
  degree serviceId := by
    rw [degreeIn_buildTables hnodup]
    congr 2
    funext edge
    simp [settled]
  nodup := by
    exact (List.Sublist.map idOf List.filter_sublist).nodup hnodup
  mem service := by
    rw [List.mem_filter, decide_eq_true_eq]
    refine and_congr_right fun hmem ↦ ?_
    have hid : idOf service ∈ serviceIds services := List.mem_map_of_mem hmem
    rw [get_inDegree_buildTables hnodup hid, some_inj, Nat.cast_eq_zero, List.countP_eq_zero, level,
      Set.mem_sdiff, mem_settled_succ_iff]
    simp [settled]

variable {inDegree : OrderedMap String ℤ}

theorem RoundState.next {k : ℕ} {queue : List T} (h : RoundState services k queue inDegree) :
    RoundState services (k + 1) (processQueue (buildTables services) queue inDegree).2
      (processQueue (buildTables services) queue inDegree).1 := by
  classical
  rw [processQueue_eq_foldl]
  set dependents := queue.flatMap fun service ↦
    ((buildTables services).adjacencyList.get (idOf service)).getD [] with hdependents
  obtain ⟨hdegree, released, hreleased, hmem, hqueue⟩ := foldl_releaseDependent
    (buildTables services).serviceMap dependents (inDegree, [])
  -- a listed target is queued exactly when it is on level `k`
  have hqueued : ∀ edge ∈ innerEdges services,
      edge.2 ∈ queue.map idOf ↔ edge.2 ∈ level (DependsOn services) k := by
    intro edge hedge
    rw [List.mem_map]
    constructor
    · rintro ⟨service, hservice, hid⟩
      exact hid ▸ ((h.mem service).mp hservice).2
    · intro hlevel
      have htarget : edge.2 ∈ serviceIds services := by
        simpa using (List.mem_filter.mp hedge).2
      obtain ⟨service, hservice, hid⟩ := (mem_serviceIds_iff services edge.2).mp htarget
      exact ⟨service, (h.mem service).mpr ⟨hservice, hid ▸ hlevel⟩, hid⟩
  have hcount : ∀ serviceId, dependents.count serviceId = (innerEdges services).countP
      fun edge ↦ edge.1 = serviceId ∧ edge.2 ∈ level (DependsOn services) k := by
    intro serviceId
    have hflat : dependents = (queue.map idOf).flatMap fun target ↦
        ((innerEdges services).filter (·.2 = target)).map Prod.fst := by
      rw [hdependents, List.flatMap_map]
      simp only [getD_adjacencyList_buildTables hnodup]
    rw [hflat, count_flatMap_dependents _ _ h.nodup]
    refine List.countP_congr fun edge hedge ↦ ?_
    simp only [decide_eq_true_eq, hqueued edge hedge]
  have hsplit : ∀ serviceId, degreeIn inDegree serviceId = dependents.count serviceId +
      (innerEdges services).countP fun edge ↦
        edge.1 = serviceId ∧ edge.2 ∉ settled (DependsOn services) (k + 1) := by
    intro serviceId
    rw [h.degree, hcount, ← Nat.cast_add, Nat.cast_inj]
    refine countP_split (α := String × String) _ _ _ (fun edge ↦ ?_) (fun edge hleft hright ↦ ?_) _
    · have hmono := settled_mono (r := DependsOn services) (Nat.le_succ k) (a := edge.2)
      simp only [level, Set.mem_sdiff]
      tauto
    · exact hright.2 hleft.2.1
  have hlevel : ∀ serviceId, serviceId ∈ released ↔
      serviceId ∈ level (DependsOn services) (k + 1) := by
    intro serviceId
    have hdone : degreeIn inDegree serviceId ≤ dependents.count serviceId ↔
        serviceId ∈ settled (DependsOn services) (k + 1 + 1) := by
      rw [hsplit, mem_settled_succ_iff, add_le_iff_nonpos_right, Nat.cast_nonpos,
        List.countP_eq_zero]
      simp
    have hpositive : 1 ≤ degreeIn inDegree serviceId ↔
        serviceId ∉ settled (DependsOn services) (k + 1) := by
      rw [h.degree, mem_settled_succ_iff, Nat.one_le_cast, Nat.one_le_iff_ne_zero, ne_eq,
        List.countP_eq_zero]
      simp
    rw [hmem, hdone, hpositive, level, Set.mem_sdiff]
    exact and_comm
  have hsublist : ∀ ids : List String,
      ((ids.filterMap (buildTables services).serviceMap.get).map idOf).Sublist ids := by
    intro ids
    induction ids with
    | nil => exact List.Sublist.refl _
    | cons serviceId rest ih =>
      rw [List.filterMap_cons]
      cases hget : (buildTables services).serviceMap.get serviceId with
      | none => exact ih.cons _
      | some service =>
        rw [List.map_cons, ((get_serviceMap_buildTables hnodup serviceId service).mp hget).2]
        exact ih.cons_cons _
  rw [List.nil_append] at hqueue
  refine ⟨fun serviceId ↦ ?_, ?_, fun service ↦ ?_⟩
  · rw [hdegree, hsplit]
    omega
  · rw [hqueue]
    exact (hsublist released).nodup hreleased
  · rw [hqueue, List.mem_filterMap]
    constructor
    · rintro ⟨serviceId, hserviceId, hget⟩
      obtain ⟨hservice, rfl⟩ := (get_serviceMap_buildTables hnodup serviceId service).mp hget
      exact ⟨hservice, (hlevel _).mp hserviceId⟩
    · rintro ⟨hservice, hid⟩
      exact ⟨idOf service, (hlevel _).mpr hid,
        (get_serviceMap_buildTables hnodup _ _).mpr ⟨hservice, rfl⟩⟩

omit hnodup in
/-- The levels from round `k` on, up to the first empty one: list `i` holds the services of level
`k + i`, each once, and no service is on the level after the last list. -/
structure PeeledFrom (services : List T) (k : ℕ) (levels : List (List T)) : Prop where
  nodup : ∀ peeled ∈ levels, (peeled.map idOf).Nodup
  mem : ∀ i peeled, levels[i]? = some peeled → ∀ service, service ∈ peeled ↔
    service ∈ services ∧ idOf service ∈ level (DependsOn services) (k + i)
  stop : ∀ service ∈ services, idOf service ∉ level (DependsOn services) (k + levels.length)

open scoped Classical in
/-- Assumes: a state of the loop before round `k`, and more fuel than there are services left. The
loop ends with the levels from `k` on. -/
theorem peelLevels_spec (fuel : ℕ) {k : ℕ} {queue : List T} (hfuel : services.countP
      (fun service ↦ idOf service ∉ settled (DependsOn services) k) < fuel)
    (h : RoundState services k queue inDegree) :
    ∃ levels, peelLevels (buildTables services) fuel queue inDegree = some levels ∧
      PeeledFrom services k levels := by
  induction fuel generalizing k queue inDegree with
  | zero => exact absurd hfuel (Nat.not_lt_zero _)
  | succ fuel ih =>
    rw [peelLevels]
    cases queue with
    | nil =>
      refine ⟨[], rfl, by simp, by simp, fun service hservice hlevel ↦ ?_⟩
      simpa using (h.mem service).mpr ⟨hservice, hlevel⟩
    | cons first rest =>
      obtain ⟨hfirst, hfirstLevel⟩ := (h.mem first).mp (List.mem_cons_self ..)
      have hcount : services.countP (fun service ↦
            idOf service ∉ settled (DependsOn services) k) =
          services.countP (fun service ↦ idOf service ∈ level (DependsOn services) k) +
          services.countP fun service ↦
            idOf service ∉ settled (DependsOn services) (k + 1) := by
        refine countP_split (α := T) _ _ _ (fun service ↦ ?_) (fun service hleft hright ↦ ?_) _
        · have hmono := settled_mono (r := DependsOn services) (Nat.le_succ k) (a := idOf service)
          simp only [level, Set.mem_sdiff]
          tauto
        · exact hright hleft.1
      have hpositive : 0 < services.countP fun service ↦
          idOf service ∈ level (DependsOn services) k :=
        List.countP_pos_iff.mpr ⟨first, hfirst, by simpa using hfirstLevel⟩
      obtain ⟨levels, hpeel, hpeeled⟩ := ih (by omega) (h.next hnodup)
      refine ⟨(first :: rest) :: levels, by simp [hpeel], fun peeled hmem ↦ ?_,
        fun i peeled hget ↦ ?_, fun service hservice ↦ ?_⟩
      · rcases List.mem_cons.mp hmem with rfl | hmem
        · exact h.nodup
        · exact hpeeled.nodup peeled hmem
      · cases i with
        | zero =>
          rw [List.getElem?_cons_zero, some_inj] at hget
          exact hget ▸ h.mem
        | succ i =>
          rw [List.getElem?_cons_succ] at hget
          have hshift : k + (i + 1) = k + 1 + i := by omega
          rw [hshift]
          exact hpeeled.mem i peeled hget
      · have hshift : k + ((first :: rest) :: levels).length = k + 1 + levels.length := by
          simp only [List.length_cons]
          omega
        rw [hshift]
        exact hpeeled.stop service hservice

end Rounds

/-! ### The levels together -/

section Flatten

variable {services : List T} {levels : List (List T)}

theorem PeeledFrom.mem_flatten (h : PeeledFrom services 0 levels) (service : T) :
    service ∈ levels.flatten ↔
      service ∈ services ∧ idOf service ∈ settled (DependsOn services) levels.length := by
  rw [List.mem_flatten, mem_settled_iff_exists_level]
  constructor
  · rintro ⟨peeled, hpeeled, hservice⟩
    obtain ⟨i, hi, rfl⟩ := List.mem_iff_getElem.mp hpeeled
    obtain ⟨hmem, hlevel⟩ := (h.mem i _ (List.getElem?_eq_getElem hi) service).mp hservice
    exact ⟨hmem, i, hi, (Nat.zero_add i) ▸ hlevel⟩
  · rintro ⟨hmem, i, hi, hlevel⟩
    refine ⟨levels[i], List.getElem_mem hi, ?_⟩
    exact (h.mem i _ (List.getElem?_eq_getElem hi) service).mpr
      ⟨hmem, (Nat.zero_add i).symm ▸ hlevel⟩

theorem PeeledFrom.nodup_flatten (h : PeeledFrom services 0 levels) : levels.flatten.Nodup := by
  rw [List.nodup_flatten]
  refine ⟨fun peeled hmem ↦ (h.nodup peeled hmem).of_map, ?_⟩
  rw [List.pairwise_iff_getElem]
  intro i j hi hj hij service hleft hright
  have hlevelLeft := ((h.mem i _ (List.getElem?_eq_getElem hi) service).mp hleft).2
  have hlevelRight := ((h.mem j _ (List.getElem?_eq_getElem hj) service).mp hright).2
  have hsame := level_unique hlevelLeft hlevelRight
  omega

/-- Assumes: distinct ids. The levels are a permutation of the input exactly when every service is
settled. -/
theorem PeeledFrom.perm_iff (hnodup : (serviceIds services).Nodup)
    (h : PeeledFrom services 0 levels) :
    levels.flatten.Perm services ↔
      ∀ service ∈ services, idOf service ∈ settled (DependsOn services) levels.length := by
  rw [List.perm_ext_iff_of_nodup h.nodup_flatten hnodup.of_map]
  constructor
  · intro hmem service hservice
    exact ((h.mem_flatten service).mp ((hmem service).mpr hservice)).2
  · intro hsettled service
    rw [h.mem_flatten]
    exact ⟨fun hmem ↦ hmem.1, fun hservice ↦ ⟨hservice, hsettled service hservice⟩⟩

/-- The levels are a permutation of the input exactly when they hold as many services. -/
theorem PeeledFrom.perm_iff_length (h : PeeledFrom services 0 levels) :
    levels.flatten.Perm services ↔ (levels.map List.length).sum = services.length := by
  rw [← List.length_flatten]
  have hsubperm : levels.flatten.Subperm services :=
    h.nodup_flatten.subperm fun service hmem ↦ ((h.mem_flatten service).mp hmem).1
  exact ⟨List.Perm.length_eq, fun hlength ↦ hsubperm.perm_of_length_le hlength.ge⟩

/-- Assumes: distinct ids. The levels are a permutation of the input exactly when the dependency
relation restricted to it has no cycle. -/
theorem PeeledFrom.perm_iff_not_hasCycle (hnodup : (serviceIds services).Nodup)
    (h : PeeledFrom services 0 levels) :
    levels.flatten.Perm services ↔ ¬ HasCycle services := by
  rw [h.perm_iff hnodup]
  constructor
  · rintro hsettled ⟨serviceId, hcycle⟩
    obtain ⟨next, hdepends, -⟩ := TransGen.head'_iff.mp hcycle
    obtain ⟨service, hservice, hid⟩ := (mem_serviceIds_iff _ _).mp hdepends.left_mem
    exact not_cyclic_of_mem_settled (hid ▸ hsettled service hservice) hcycle
  · intro hacyclic service hservice
    have hsubset : {serviceId | serviceId ∈ serviceIds services} ⊆
        settled (DependsOn services) levels.length := by
      refine subset_settled_of_round_empty (List.finite_toSet _) (fun _ _ _ h ↦ h.2)
        (fun serviceId hcycle ↦ hacyclic ⟨serviceId, hcycle⟩) ?_
      rintro serviceId ⟨hid, hround⟩
      by_contra hunsettled
      obtain ⟨other, hother, rfl⟩ := (mem_serviceIds_iff _ _).mp hid
      exact h.stop other hother ⟨by rwa [Nat.zero_add], by rwa [Nat.zero_add]⟩
    exact hsubset (List.mem_map_of_mem hservice)

end Flatten

end Bridgeport.Orchestration
