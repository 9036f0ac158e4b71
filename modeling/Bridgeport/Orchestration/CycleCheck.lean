import Bridgeport.Orchestration.KahnLevels
import Mathlib.Algebra.Order.BigOperators.Group.Finset
import Mathlib.Tactic.Abel

/-!
# What the depth-first cycle check finds

The search of `detectCycle` reports a cycle when a dependency entry targets a visited id that is on
the recursion stack. On a listed target that is a cycle. On an unlisted target it is not: an
unlisted id never leaves the recursion stack, so a second entry on it is reported too. Nothing else
triggers a report, so that `resolveDependencyOrder` throws on an acyclic selection exactly when two
dependency entries target the same unlisted id.
-/

namespace Bridgeport.Orchestration

section

open Foundation Relation List Finset

variable {T : Type*} (services : OrderedMap String T)

/-! ### Listed and unlisted ids -/

/-- An id bound in the service map. -/
def Listed (serviceId : String) : Prop :=
  (services.get serviceId).isSome

instance (serviceId : String) : Decidable (Listed services serviceId) :=
  inferInstanceAs (Decidable (_ = true))

/-- The unlisted ids among dependency targets, with repeats. -/
def unlistedAmong (targets : List String) : Multiset String :=
  (targets.filter fun depId ↦ ¬ Listed services depId : List String)

variable (state : VisitState)

def unlistedVisited : Finset String :=
  state.visited.filter fun serviceId ↦ ¬ Listed services serviceId

/-- The listed ids that are not visited yet. -/
def unvisited : Finset String :=
  services.keys.toFinset \ state.visited

/-- Unlisted visited ids are on the recursion stack for good. -/
def UnlistedStacked : Prop :=
  ∀ serviceId ∈ unlistedVisited services state, serviceId ∈ state.recursionStack

variable {services}

theorem mem_keys_iff_listed (serviceId : String) :
    serviceId ∈ services.keys ↔ Listed services serviceId := by
  rw [OrderedMap.mem_keys_iff, Listed, Option.isSome_iff_exists]

theorem mem_unvisited_iff (serviceId : String) : serviceId ∈ unvisited services state ↔
      Listed services serviceId ∧ serviceId ∉ state.visited := by
  rw [unvisited, mem_sdiff, mem_toFinset, mem_keys_iff_listed]

theorem mem_unlistedVisited_iff (serviceId : String) : serviceId ∈ unlistedVisited services state ↔
      serviceId ∈ state.visited ∧ ¬ Listed services serviceId := by
  rw [unlistedVisited, Finset.mem_filter]

@[simp] theorem unlistedAmong_nil : unlistedAmong services [] = 0 :=
  rfl

variable {depId : String}

theorem unlistedAmong_cons_of_listed (h : Listed services depId) (rest : List String) :
    unlistedAmong services (depId :: rest) = unlistedAmong services rest := by
  simp [unlistedAmong, h]

theorem unlistedAmong_cons_of_unlisted (h : ¬ Listed services depId) (rest : List String) :
    unlistedAmong services (depId :: rest) = depId ::ₘ unlistedAmong services rest := by
  simp [unlistedAmong, h]

theorem unlistedAmong_cons (depId : String) (rest : List String) :
    unlistedAmong services (depId :: rest) =
      unlistedAmong services [depId] + unlistedAmong services rest := by
  by_cases h : Listed services depId
  · simp [unlistedAmong_cons_of_listed h]
  · simp [unlistedAmong_cons_of_unlisted h]

theorem unvisited_mono (services : OrderedMap String T) {state state' : VisitState}
    (h : state.visited ⊆ state'.visited) :
    unvisited services state' ⊆ unvisited services state :=
  sdiff_subset_sdiff (Finset.Subset.refl _) h

theorem unvisited_subset_keys : unvisited services state ⊆ services.keys.toFinset :=
  sdiff_subset

variable {serviceId : String}

theorem unlistedVisited_enter_of_listed (h : Listed services serviceId) (state : VisitState) :
    unlistedVisited services (state.enter serviceId) = unlistedVisited services state := by
  ext other
  simp only [mem_unlistedVisited_iff, VisitState.enter, Finset.mem_insert]
  constructor
  · rintro ⟨rfl | hvisited, hunlisted⟩
    · exact (hunlisted h).elim
    · exact ⟨hvisited, hunlisted⟩
  · rintro ⟨hvisited, hunlisted⟩
    exact ⟨.inr hvisited, hunlisted⟩

theorem unlistedVisited_enter_of_unlisted (h : ¬ Listed services serviceId) {state : VisitState}
    (hnew : serviceId ∉ state.visited) :
    (unlistedVisited services (state.enter serviceId)).val =
      (unlistedVisited services state).val + {serviceId} := by
  have hinsert : unlistedVisited services (state.enter serviceId) =
      insert serviceId (unlistedVisited services state) := by
    rw [unlistedVisited, VisitState.enter, filter_insert, if_pos h, unlistedVisited]
  have habsent : serviceId ∉ unlistedVisited services state := fun hmem ↦
    hnew ((mem_unlistedVisited_iff state serviceId).mp hmem).1
  rw [hinsert, insert_val_of_notMem habsent, add_comm, Multiset.singleton_add]

theorem unvisited_enter (serviceId : String) :
    unvisited services (state.enter serviceId) = (unvisited services state).erase serviceId := by
  ext other
  simp only [mem_unvisited_iff, VisitState.enter, Finset.mem_insert, mem_erase, not_or]
  tauto

theorem UnlistedStacked.enter {state : VisitState} (h : UnlistedStacked services state)
    (serviceId : String) : UnlistedStacked services (state.enter serviceId) := by
  intro other hother
  obtain ⟨hvisited, hunlisted⟩ := (mem_unlistedVisited_iff _ _).mp hother
  rcases Finset.mem_insert.mp hvisited with rfl | hvisited
  · exact Finset.mem_insert_self _ _
  · exact Finset.mem_insert_of_mem (h other ((mem_unlistedVisited_iff _ _).mpr
      ⟨hvisited, hunlisted⟩))

/-! ### What a search accounts for -/

variable [ExtendsServiceOrderInput T] (services)

/-- The service of the first id has a dependency entry on the second, and both are listed. -/
def Requires (a b : String) : Prop :=
  ∃ service, services.get a = some service ∧ b ∈ dependsOnIds service ∧ Listed services b

def unlistedTargetsOf (serviceId : String) : Multiset String :=
  unlistedAmong services ((services.get serviceId).elim [] dependsOnIds)

/-- The relation has a cycle. -/
def Cyclic : Prop :=
  ∃ serviceId, TransGen (Requires services) serviceId serviceId

/-- The relation between the sets before a search, the unlisted targets of the entries it has still
to read outside the services it will enter, the ids that may stay on its recursion stack, and its
outcome. -/
def SearchOutcome (state : VisitState) (pending : Multiset String) (stack : Finset String) :
    Option (List String) × VisitState → Prop
  | (none, state') =>
    state.visited ⊆ state'.visited ∧ UnlistedStacked services state' ∧
      (∀ serviceId ∈ state'.recursionStack, Listed services serviceId → serviceId ∈ stack) ∧
      (unlistedVisited services state').val = (unlistedVisited services state).val + pending +
        ∑ serviceId ∈ unvisited services state \ unvisited services state',
          unlistedTargetsOf services serviceId
  | (some _, _) =>
    Cyclic services ∨ ∃ entered ⊆ unvisited services state,
      ¬ ((unlistedVisited services state).val + pending +
        ∑ serviceId ∈ entered, unlistedTargetsOf services serviceId).Nodup

variable {services} {second first : Multiset String} {stack stack' : Finset String}

/-- Composing a search that found nothing with the search that continues from it. -/
theorem SearchOutcome.trans {state middle : VisitState} {result : Option (List String) × VisitState}
    (hfirst : SearchOutcome services state first stack (none, middle))
    (hsecond : SearchOutcome services middle second stack' result) {allowed : Finset String}
    (hallowed : ∀ serviceId ∈ stack', Listed services serviceId → serviceId ∈ allowed) :
    SearchOutcome services state (first + second) allowed result := by
  obtain ⟨hgrow, -, -, hcount⟩ := hfirst
  have hshrink := unvisited_mono services hgrow
  obtain ⟨_ | cycle, final⟩ := result
  · obtain ⟨hgrow', hstacked, hstack, hcount'⟩ := hsecond
    have hshrink' := unvisited_mono services hgrow'
    refine ⟨hgrow.trans hgrow', hstacked, fun serviceId hmem hlisted ↦
      hallowed serviceId (hstack serviceId hmem hlisted) hlisted, ?_⟩
    have hsplit : unvisited services state \ unvisited services final =
        (unvisited services state \ unvisited services middle) ∪
          (unvisited services middle \ unvisited services final) := by
      ext serviceId
      have hin := @hshrink serviceId
      have hin' := @hshrink' serviceId
      simp only [mem_union, mem_sdiff]
      tauto
    have hdisjoint : Disjoint (unvisited services state \ unvisited services middle)
        (unvisited services middle \ unvisited services final) :=
      Finset.disjoint_left.mpr fun serviceId hleft hright ↦
        (mem_sdiff.mp hleft).2 (mem_sdiff.mp hright).1
    rw [hcount', hcount, hsplit, sum_union hdisjoint]
    abel
  · refine hsecond.imp_right fun ⟨entered, hentered, hrepeat⟩ ↦
      ⟨(unvisited services state \ unvisited services middle) ∪ entered,
        union_subset sdiff_subset (hentered.trans hshrink), ?_⟩
    have hdisjoint : Disjoint (unvisited services state \ unvisited services middle) entered :=
      Finset.disjoint_left.mpr fun serviceId hleft hright ↦
        (mem_sdiff.mp hleft).2 (hentered hright)
    rw [sum_union hdisjoint]
    rw [hcount] at hrepeat
    convert hrepeat using 2
    abel

/-- A repeated target among fewer pending entries is one among more. -/
theorem SearchOutcome.cycle_mono {state : VisitState} {cycle cycle' : List String}
    {final final' : VisitState} (h : SearchOutcome services state first stack (some cycle, final)) :
    SearchOutcome services state (first + second) stack' (some cycle', final') := by
  refine h.imp_right fun ⟨entered, hentered, hrepeat⟩ ↦
    ⟨entered, hentered, fun hnodup ↦ hrepeat (Multiset.nodup_of_le ?_ hnodup)⟩
  rw [← add_assoc]
  exact Multiset.add_le_add_right (Multiset.le_add_right _ _)

/-- The recursive call meets its specification whenever fewer than `bound` listed ids are
unvisited. -/
def VisitSpec (services : OrderedMap String T) (bound : ℕ)
    (visit : String → VisitState → Option (Option (List String) × VisitState)) : Prop :=
  ∀ depId state, depId ∉ state.visited → (unvisited services state).card < bound →
    UnlistedStacked services state →
    (∀ x ∈ state.recursionStack, Listed services x → Listed services depId →
      TransGen (Requires services) x depId) →
    ∃ result, visit depId state = some result ∧
      SearchOutcome services state (unlistedAmong services [depId]) state.recursionStack result ∧
      (result.1 = none → depId ∈ result.2.visited)

/-- Assumes: a recursive call that meets its specification. The loop over the entries `deps` of the
service meets it with the unlisted targets among `deps` pending. -/
theorem visitDependencies_spec
    {visit : String → VisitState → Option (Option (List String) × VisitState)} {bound : ℕ}
    (hvisit : VisitSpec services bound visit) {service : T}
    (hget : services.get serviceId = some service) (deps : List String)
    (hdeps : ∀ depId ∈ deps, depId ∈ dependsOnIds service) (state : VisitState)
    (hbound : (unvisited services state).card < bound) (hstacked : UnlistedStacked services state)
    (hstack : ∀ x ∈ state.recursionStack, Listed services x →
      ReflTransGen (Requires services) x serviceId) :
    ∃ result, visitDependencies services visit service serviceId deps state = some result ∧
      SearchOutcome services state (unlistedAmong services deps)
        (state.recursionStack.erase serviceId) result := by
  have hlistedSelf : Listed services serviceId := by simp [Listed, hget]
  induction deps generalizing state with
  | nil =>
    refine ⟨_, rfl, Finset.Subset.refl _, fun x hx ↦ ?_, fun x hx _ ↦ hx, ?_⟩
    · have hunlisted := ((mem_unlistedVisited_iff _ _).mp hx).2
      exact mem_erase.mpr ⟨fun h ↦ hunlisted (h ▸ hlistedSelf), hstacked x hx⟩
    · have hvisited : unvisited services (state.leave serviceId) = unvisited services state := rfl
      rw [hvisited, Finset.sdiff_self, sum_empty]
      simp [unlistedVisited, VisitState.leave]
  | cons depId rest ih =>
    have hdep := hdeps depId (mem_cons_self ..)
    have hrest : ∀ other ∈ rest, other ∈ dependsOnIds service := fun other hother ↦
      hdeps other (mem_cons_of_mem _ hother)
    rw [unlistedAmong_cons]
    by_cases hvisited : depId ∈ state.visited
    · by_cases honStack : depId ∈ state.recursionStack
      · refine ⟨_, by rw [visitDependencies, if_neg (not_not.mpr hvisited), if_pos honStack],
          (show SearchOutcome services state _ ∅ (some [], state) from ?_).cycle_mono⟩
        by_cases hlisted : Listed services depId
        · -- a listed target on the stack closes a cycle
          exact .inl ⟨serviceId, TransGen.head' ⟨service, hget, hdep, hlisted⟩
            (hstack depId honStack hlisted)⟩
        · -- an unlisted target on the stack has been met before
          refine .inr ⟨∅, empty_subset _, fun hnodup ↦ ?_⟩
          have hseen := (mem_unlistedVisited_iff state depId).mpr ⟨hvisited, hlisted⟩
          rw [sum_empty, add_zero, unlistedAmong_cons_of_unlisted hlisted] at hnodup
          exact Multiset.disjoint_left.mp (Multiset.nodup_add.mp hnodup).2.2 hseen
            (Multiset.mem_cons_self _ _)
      · -- unlisted visited ids never leave the stack, so the target is listed
        have hlisted : Listed services depId := by
          by_contra hunlisted
          exact honStack (hstacked depId ((mem_unlistedVisited_iff _ _).mpr ⟨hvisited, hunlisted⟩))
        obtain ⟨result, hresult, houtcome⟩ := ih hrest state hbound hstacked hstack
        refine ⟨result, ?_, ?_⟩
        · rw [visitDependencies, if_neg (not_not.mpr hvisited), if_neg honStack, hresult]
        · rw [unlistedAmong_cons_of_listed hlisted, unlistedAmong_nil, zero_add]
          exact houtcome
    · obtain ⟨⟨found, middle⟩, hcall, houtcome, -⟩ := hvisit depId state hvisited hbound hstacked
        fun x hx hlisted hdepListed ↦
          TransGen.tail' (hstack x hx hlisted) ⟨service, hget, hdep, hdepListed⟩
      rw [visitDependencies, if_pos hvisited, hcall]
      cases found with
      | some cycle => exact ⟨_, rfl, houtcome.cycle_mono⟩
      | none =>
        obtain ⟨hgrow, hstacked', hstack', -⟩ := id houtcome
        have hbound' : (unvisited services middle).card < bound :=
          lt_of_le_of_lt (card_le_card (unvisited_mono services hgrow)) hbound
        obtain ⟨result, hresult, houtcome'⟩ := ih hrest middle hbound' hstacked'
          fun x hx hlisted ↦ hstack x (hstack' x hx hlisted) hlisted
        refine ⟨result, hresult, houtcome.trans houtcome' fun x hx hlisted ↦ ?_⟩
        obtain ⟨hne, hmem⟩ := mem_erase.mp hx
        exact mem_erase.mpr ⟨hne, hstack' x hmem hlisted⟩

/-- With more fuel than there are unvisited listed ids, `detectCycle` answers and accounts for the
unlisted targets it has read. -/
theorem detectCycle_spec (fuel : ℕ) : VisitSpec services fuel (detectCycle services fuel) := by
  induction fuel with
  | zero => exact fun _ _ _ hbound ↦ absurd hbound (Nat.not_lt_zero _)
  | succ fuel ih =>
    intro serviceId state hnew hbound hstacked hstack
    cases hget : services.get serviceId with
    | none =>
      have hunlisted : ¬ Listed services serviceId := by simp [Listed, hget]
      have hvisited : unvisited services (state.enter serviceId) = unvisited services state := by
        rw [unvisited_enter,
          erase_eq_of_notMem fun hmem ↦ hunlisted ((mem_unvisited_iff _ _).mp hmem).1]
      refine ⟨(none, state.enter serviceId), by rw [detectCycle, hget],
        ⟨Finset.subset_insert _ _, hstacked.enter serviceId, fun x hx hlisted ↦ ?_, ?_⟩,
        fun _ ↦ Finset.mem_insert_self _ _⟩
      · rcases Finset.mem_insert.mp hx with rfl | hx
        · exact (hunlisted hlisted).elim
        · exact hx
      · rw [hvisited, Finset.sdiff_self, sum_empty, add_zero,
          unlistedVisited_enter_of_unlisted hunlisted hnew,
          unlistedAmong_cons_of_unlisted hunlisted, unlistedAmong_nil]
        rfl
    | some service =>
      have hlisted : Listed services serviceId := by simp [Listed, hget]
      have hunvisited : serviceId ∈ unvisited services state :=
        (mem_unvisited_iff _ _).mpr ⟨hlisted, hnew⟩
      have hbound' : (unvisited services (state.enter serviceId)).card < fuel := by
        rw [unvisited_enter, card_erase_of_mem hunvisited]
        have hpositive := Finset.card_pos.mpr ⟨serviceId, hunvisited⟩
        omega
      obtain ⟨result, hresult, houtcome⟩ := visitDependencies_spec ih hget
        (dependsOnIds service) (fun _ h ↦ h) (state.enter serviceId) hbound'
        (hstacked.enter serviceId) fun x hx hx' ↦ by
          rcases Finset.mem_insert.mp hx with rfl | hx
          · exact ReflTransGen.refl
          · exact (hstack x hx hx' hlisted).to_reflTransGen
      refine ⟨result, by rw [detectCycle, hget]; exact hresult, ?_, fun hnone ↦ ?_⟩
      rotate_left
      · obtain ⟨_, final⟩ := result
        subst hnone
        exact houtcome.1 (Finset.mem_insert_self _ _)
      have htargets : unlistedTargetsOf services serviceId =
          unlistedAmong services (dependsOnIds service) := by
        rw [unlistedTargetsOf, hget, Option.elim_some]
      rw [unlistedAmong_cons_of_listed hlisted, unlistedAmong_nil]
      obtain ⟨_ | cycle, final⟩ := result
      · obtain ⟨hgrow, hstacked', hstack', hcount⟩ := houtcome
        refine ⟨(Finset.subset_insert _ _).trans hgrow, hstacked', fun x hx hx' ↦ ?_, ?_⟩
        · obtain ⟨hne, hmem⟩ := mem_erase.mp (hstack' x hx hx')
          exact mem_of_mem_insert_of_ne hmem hne
        · have hgone : serviceId ∉ unvisited services final := fun hmem ↦
            ((mem_unvisited_iff _ _).mp hmem).2 (hgrow (Finset.mem_insert_self _ _))
          have hsplit : unvisited services state \ unvisited services final =
              insert serviceId ((unvisited services state).erase serviceId \
                unvisited services final) := by
            rw [← insert_sdiff_of_notMem _ hgone, insert_erase hunvisited]
          rw [hcount, unlistedVisited_enter_of_listed hlisted, unvisited_enter, hsplit,
            sum_insert (by simp), htargets]
          abel
      · refine houtcome.imp_right ?_
        rintro ⟨entered, hentered, hrepeat⟩
        rw [unvisited_enter] at hentered
        refine ⟨insert serviceId entered, insert_subset hunvisited
          (hentered.trans (Finset.erase_subset _ _)), ?_⟩
        have habsent : serviceId ∉ entered := fun hmem ↦
          (mem_erase.mp (hentered hmem)).1 rfl
        rw [sum_insert habsent, htargets]
        rw [unlistedVisited_enter_of_listed hlisted] at hrepeat
        convert hrepeat using 2
        abel

/-- Between two searches: no listed id is on the stack, and the unlisted visited ids are exactly the
unlisted targets of the services visited so far, none of them met twice. -/
structure Accounted (services : OrderedMap String T) (state : VisitState) : Prop where
  stacked : UnlistedStacked services state
  unstacked : ∀ x ∈ state.recursionStack, ¬ Listed services x
  counted : (unlistedVisited services state).val =
    ∑ serviceId ∈ services.keys.toFinset \ unvisited services state,
      unlistedTargetsOf services serviceId

theorem accounted_start : Accounted services VisitState.start where
  stacked := fun _ h ↦ by simp [unlistedVisited, VisitState.start] at h
  unstacked := fun _ h ↦ by simp [VisitState.start] at h
  counted := by simp [unlistedVisited, unvisited, VisitState.start]

/-- Assumes: more fuel than there are listed ids. The loop over services that include every
unvisited one answers. When it finds nothing, no unlisted id is the target of two entries; when it
finds a cycle, there is one, or some unlisted id is. -/
theorem findCycle_spec {fuel : ℕ} (hfuel : services.keys.length < fuel) (rest : List T)
    (state : VisitState)
    (hcover : ∀ serviceId ∈ unvisited services state, serviceId ∈ rest.map idOf)
    (hlisted : ∀ service ∈ rest, Listed services (idOf service))
    (haccounted : Accounted services state) :
    ∃ found, findCycle services fuel rest state = some found ∧
      (found = none →
        (∑ serviceId ∈ services.keys.toFinset, unlistedTargetsOf services serviceId).Nodup) ∧
      (found ≠ none → Cyclic services ∨
        ¬ (∑ serviceId ∈ services.keys.toFinset, unlistedTargetsOf services serviceId).Nodup) := by
  induction rest generalizing state with
  | nil =>
    have hnone : unvisited services state = ∅ :=
      eq_empty_of_forall_notMem fun x hx ↦ by simpa using hcover x hx
    have hcounted := haccounted.counted
    rw [hnone, sdiff_empty] at hcounted
    exact ⟨none, rfl, fun _ ↦ hcounted ▸ (unlistedVisited services state).nodup,
      fun h ↦ absurd rfl h⟩
  | cons service rest ih =>
    have hlisted' : ∀ other ∈ rest, Listed services (idOf other) := fun other hother ↦
      hlisted other (mem_cons_of_mem _ hother)
    by_cases hvisited : idOf service ∈ state.visited
    · rw [findCycle, if_neg (not_not.mpr hvisited)]
      refine ih state (fun x hx ↦ ?_) hlisted' haccounted
      rcases mem_cons.mp (hcover x hx) with rfl | hmem
      · exact absurd hvisited ((mem_unvisited_iff _ _).mp hx).2
      · exact hmem
    · have hself := hlisted service (mem_cons_self ..)
      have hbound : (unvisited services state).card < fuel := by
        refine lt_of_le_of_lt (card_le_card (unvisited_subset_keys state)) ?_
        exact lt_of_le_of_lt (toFinset_card_le _) hfuel
      obtain ⟨⟨found, middle⟩, hcall, houtcome, hself'⟩ := detectCycle_spec fuel
        (idOf service) state hvisited hbound haccounted.stacked
        fun x hx hx' ↦ absurd hx' (haccounted.unstacked x hx)
      rw [unlistedAmong_cons_of_listed hself, unlistedAmong_nil] at houtcome
      rw [findCycle, if_pos hvisited, hcall]
      cases found with
      | some cycle =>
        refine ⟨_, rfl, fun h ↦ by simp at h, fun _ ↦ houtcome.imp_right
          fun ⟨entered, hentered, hrepeat⟩ hnodup ↦ hrepeat ?_⟩
        have hdisjoint : Disjoint (services.keys.toFinset \ unvisited services state) entered :=
          Finset.disjoint_left.mpr fun x hleft hright ↦
            (mem_sdiff.mp hleft).2 (hentered hright)
        rw [haccounted.counted, add_zero, ← sum_union hdisjoint]
        refine Multiset.nodup_of_le (sum_le_sum_of_subset ?_) hnodup
        exact union_subset sdiff_subset (hentered.trans (unvisited_subset_keys state))
      | none =>
        obtain ⟨hgrow, hstacked, hstack, hcount⟩ := houtcome
        have hshrink := unvisited_mono services hgrow
        refine ih middle (fun x hx ↦ ?_) hlisted' ⟨hstacked, fun x hx hx' ↦
          haccounted.unstacked x (hstack x hx hx') hx', ?_⟩
        · rcases mem_cons.mp (hcover x (hshrink hx)) with rfl | hmem
          · exact absurd (hself' rfl) ((mem_unvisited_iff _ _).mp hx).2
          · exact hmem
        · have hsplit : services.keys.toFinset \ unvisited services middle =
              (services.keys.toFinset \ unvisited services state) ∪
                (unvisited services state \ unvisited services middle) := by
            ext x
            have hkeys := @unvisited_subset_keys T services state x
            have hin := @hshrink x
            simp only [mem_union, mem_sdiff]
            tauto
          have hdisjoint : Disjoint (services.keys.toFinset \ unvisited services state)
              (unvisited services state \ unvisited services middle) :=
            Finset.disjoint_left.mpr fun x hleft hright ↦
              (mem_sdiff.mp hleft).2 (mem_sdiff.mp hright).1
          rw [hcount, haccounted.counted, add_zero, hsplit, sum_union hdisjoint]

end

/-! ### Exactness of dependency resolution -/

section

open Foundation Foundation.DependencyLevels Relation

variable {T : Type*} [ExtendsServiceOrderInput T] (services : List T)

/-- The unlisted ids among the targets of all dependency entries, with repeats. -/
def unlistedTargets : List String :=
  ((edges services).map Prod.snd).filter fun depId ↦ depId ∉ serviceIds services

/-- What the levels of a resolution promise: together they are the input, an in-list dependency lies
strictly earlier, and the level of a service is the length of the longest chain of in-list
dependencies below it. -/
structure OrderedLevels (services : List T) (levels : List (List T)) : Prop where
  perm : levels.flatten.Perm services
  earlier : ∀ (i j : ℕ) (dependents dependencies : List T), levels[i]? = some dependents →
    levels[j]? = some dependencies → ∀ service ∈ dependents, ∀ dependency ∈ dependencies,
      idOf dependency ∈ dependsOnIds service → j < i
  longest : ∀ (i : ℕ) (peeled : List T), levels[i]? = some peeled → ∀ service ∈ peeled,
    IsGreatest {n | HasChain (DependsOn services) n (idOf service)} i

/-- Resolution is exact on the services: it throws if and only if the dependency relation restricted
to them has a cycle, and returns ordered levels otherwise. -/
structure ResolutionExact (services : List T) : Prop where
  throws_iff : Throws services ↔ HasCycle services
  levels : ¬ Throws services →
    ∃ levels, resolveDependencyOrder services = some (.ok levels) ∧ OrderedLevels services levels

section

variable {services : List T} (hnodup : (serviceIds services).Nodup)

theorem PeeledFrom.orderedLevels {levels : List (List T)} (h : PeeledFrom services 0 levels)
    (hperm : levels.flatten.Perm services) : OrderedLevels services levels where
  perm := hperm
  earlier i j dependents dependencies hi hj service hservice dependency hdependency htarget := by
    obtain ⟨hservice, hlevel⟩ := (h.mem i dependents hi service).mp hservice
    obtain ⟨hdependency, hlevel'⟩ := (h.mem j dependencies hj dependency).mp hdependency
    rw [Nat.zero_add] at hlevel hlevel'
    refine level_lt_of_rel ⟨?_, List.mem_map_of_mem hdependency⟩ hlevel hlevel'
    exact (mem_edges_iff _ _ _).mpr ⟨service, hservice, rfl, htarget⟩
  longest i peeled hi service hservice := by
    have hlevel := ((h.mem i peeled hi service).mp hservice).2
    rw [Nat.zero_add] at hlevel
    exact (mem_level_iff i _).mp hlevel

include hnodup

theorem listed_buildTables (serviceId : String) :
    Listed (buildTables services).serviceMap serviceId ↔ serviceId ∈ serviceIds services := by
  rw [← mem_keys_iff_listed, keys_serviceMap_buildTables hnodup]

theorem requires_buildTables (a b : String) :
    Requires (buildTables services).serviceMap a b ↔ DependsOn services a b := by
  simp only [Requires, DependsOn, listed_buildTables hnodup, mem_edges_iff,
    get_serviceMap_buildTables hnodup]
  constructor
  · rintro ⟨service, ⟨hservice, hid⟩, hdep, hlisted⟩
    exact ⟨⟨service, hservice, hid, hdep⟩, hlisted⟩
  · rintro ⟨⟨service, hservice, hid, hdep⟩, hlisted⟩
    exact ⟨service, ⟨hservice, hid⟩, hdep, hlisted⟩

/-- The accounting of the cycle check over all listed ids is the list of unlisted targets. -/
theorem sum_unlistedTargetsOf :
    ∑ serviceId ∈ (buildTables services).serviceMap.keys.toFinset,
      unlistedTargetsOf (buildTables services).serviceMap serviceId =
        (unlistedTargets services : Multiset String) := by
  rw [keys_serviceMap_buildTables hnodup, List.sum_toFinset _ hnodup, serviceIds, List.map_map]
  have hmap : ∀ service ∈ services,
      unlistedTargetsOf (buildTables services).serviceMap (idOf service) =
        ((dependsOnIds service).filter fun depId ↦ depId ∉ serviceIds services : List String) := by
    intro service hservice
    rw [unlistedTargetsOf, (get_serviceMap_buildTables hnodup _ service).mpr ⟨hservice, rfl⟩,
      Option.elim_some, unlistedAmong]
    simp only [listed_buildTables hnodup]
  have hsplit : ∀ listed : List String, ∀ rest : List T,
      (rest.map fun service ↦ (((dependsOnIds service).filter fun depId ↦ depId ∉ listed :
        List String) : Multiset String)).sum =
      ((((edges rest).map Prod.snd).filter fun depId ↦ depId ∉ listed : List String) :
        Multiset String) := by
    intro listed rest
    induction rest with
    | nil => rfl
    | cons service rest ih =>
      rw [List.map_cons, List.sum_cons, ih]
      simp [edges, Function.comp_def]
  rw [unlistedTargets, ← hsplit]
  exact congrArg List.sum (List.map_congr_left hmap)

/-- The specification of `resolveDependencyOrder`. Assumes: distinct ids. It answers; it throws when
the selection has a cycle or an unlisted id is the target of two entries, and returns ordered levels
otherwise. -/
theorem resolveDependencyOrder_cases :
    ((HasCycle services ∨ ¬ (unlistedTargets services).Nodup) ∧ Throws services) ∨
      (¬ HasCycle services ∧ (unlistedTargets services).Nodup ∧
        ∃ levels, resolveDependencyOrder services = some (.ok levels) ∧
          OrderedLevels services levels) := by
  cases services with
  | nil =>
    refine .inr ⟨?_, List.nodup_nil, [], rfl, ⟨List.Perm.refl _, by simp, by simp⟩⟩
    rintro ⟨serviceId, hcycle⟩
    obtain ⟨next, hdepends, -⟩ := TransGen.head'_iff.mp hcycle
    simpa [serviceIds] using hdepends.2
  | cons first rest =>
    set services := first :: rest with hservices
    set tables := buildTables services with htables
    have hkeys : tables.serviceMap.keys.length < services.length + 1 := by
      rw [htables, keys_serviceMap_buildTables hnodup, serviceIds, List.length_map]
      exact Nat.lt_succ_self _
    obtain ⟨found, hfound, hclean, hreport⟩ := findCycle_spec hkeys services VisitState.start
      (fun serviceId hmem ↦ (listed_buildTables hnodup serviceId).mp
        ((mem_unvisited_iff _ _).mp hmem).1)
      (fun service hservice ↦ (listed_buildTables hnodup _).mpr (List.mem_map_of_mem hservice))
      accounted_start
    rw [sum_unlistedTargetsOf hnodup, Multiset.coe_nodup] at hclean hreport
    have hcyclic : Cyclic tables.serviceMap ↔ HasCycle services := by
      have hrelation : Requires tables.serviceMap = DependsOn services := by
        funext a b
        exact propext (requires_buildTables hnodup a b)
      rw [Cyclic, HasCycle, hrelation]
    classical
    obtain ⟨levels, hpeel, hpeeled⟩ := peelLevels_spec hnodup (services.length + 1)
      (Nat.lt_succ_of_le List.countP_le_length) (roundState_zero hnodup)
    rw [← htables] at hpeel
    have hperm := hpeeled.perm_iff_not_hasCycle hnodup
    have hempty : services.isEmpty = false := rfl
    cases found with
    | some cycle =>
      refine .inl ⟨(hreport (by simp)).imp_left hcyclic.mp, ?_⟩
      refine ⟨"Circular dependency detected: " ++ " -> ".intercalate cycle, ?_⟩
      simp only [resolveDependencyOrder, hempty, Bool.false_eq_true, ↓reduceIte, ← htables, hfound]
    | none =>
      have hresolve : resolveDependencyOrder services =
          if (levels.map List.length).sum ≠ services.length then
            some (.error "Dependency resolution failed: not all services could be ordered")
          else some (.ok levels) := by
        simp only [resolveDependencyOrder, hempty, Bool.false_eq_true, ↓reduceIte, ← htables,
          hfound, hpeel]
      by_cases hcycle : HasCycle services
      · have hlength : (levels.map List.length).sum ≠ services.length := fun hlength ↦
          hperm.mp (hpeeled.perm_iff_length.mpr hlength) hcycle
        exact .inl ⟨.inl hcycle, _, by rw [hresolve, if_pos hlength]⟩
      · have hlength : ¬ (levels.map List.length).sum ≠ services.length :=
          not_not.mpr (hpeeled.perm_iff_length.mp (hperm.mpr hcycle))
        exact .inr ⟨hcycle, hclean rfl, levels, by rw [hresolve, if_neg hlength],
          hpeeled.orderedLevels (hperm.mpr hcycle)⟩

end

/-- Dependency resolution is exact on services with distinct ids exactly when they contain a cycle
or no unlisted id is the target of two dependency entries. -/
theorem resolutionExact_iff (hnodup : (serviceIds services).Nodup) :
    ResolutionExact services ↔ HasCycle services ∨ (unlistedTargets services).Nodup := by
  rcases resolveDependencyOrder_cases hnodup with ⟨hcause, hthrows⟩ | ⟨hacyclic, hdistinct, hlevels⟩
  · constructor
    · exact fun hexact ↦ .inl (hexact.throws_iff.mp hthrows)
    · intro hcondition
      have hcycle : HasCycle services :=
        hcause.elim (fun h ↦ h) fun hrepeat ↦ hcondition.resolve_right hrepeat
      exact ⟨iff_of_true hthrows hcycle, fun h ↦ absurd hthrows h⟩
  · refine ⟨fun _ ↦ .inr hdistinct, fun _ ↦ ⟨iff_of_false ?_ hacyclic, fun _ ↦ hlevels⟩⟩
    rintro ⟨message, hmessage⟩
    obtain ⟨levels, hresolve, -⟩ := hlevels
    rw [hresolve] at hmessage
    simp at hmessage

/-- Two services that share a dependency on a service outside the selection. -/
def sharedExternal : List ServiceOrderInput :=
  [⟨"api", "api", ["database"]⟩, ⟨"worker", "worker", ["database"]⟩]

/-- The selection has no edge inside, and its shared unlisted dependency is reported as a cycle. -/
theorem not_resolutionExact_sharedExternal :
    (serviceIds sharedExternal).Nodup ∧ ¬ ResolutionExact sharedExternal := by
  refine ⟨by decide, fun hexact ↦ ?_⟩
  have hthrows : Throws sharedExternal :=
    ⟨"Circular dependency detected: worker -> database", rfl⟩
  obtain ⟨serviceId, hcycle⟩ := hexact.throws_iff.mp hthrows
  obtain ⟨dependency, ⟨hedge, hlisted⟩, -⟩ := TransGen.head'_iff.mp hcycle
  have houtside : ∀ entry ∈ edges sharedExternal, entry.2 ∉ serviceIds sharedExternal := by decide
  exact houtside _ hedge hlisted

/-- A dependency of one service on an unlisted one is ignored. -/
theorem resolutionExact_ownExternal : ResolutionExact
    ([⟨"web", "web", ["api", "worker"]⟩, ⟨"worker", "worker", ["api"]⟩,
      ⟨"api", "api", ["database"]⟩] : List ServiceOrderInput) :=
  (resolutionExact_iff _ (by decide)).mpr (.inr (by decide))

end

end Bridgeport.Orchestration
