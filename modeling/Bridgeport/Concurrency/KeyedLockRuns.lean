import Bridgeport.Concurrency.KeyedLock

/-!
# Runs of the keyed lock

`keyedLock` is what callers of `runExclusive` rely on. In every order of arrivals, settlements and
callbacks no two functions of a key run at once, they start in the order of the calls, a caller gets
the settlement of its own function, and an entry of `chains` is gone only when no call with its key
is waiting or running (`LockSafe`). If every ready callback runs at some time, then a settlement
reaches its caller, a call starts after the functions of the earlier ones are settled, also by a
rejection, and the entry of a key whose functions are all settled is deleted (`LockLive`).
-/

namespace Bridgeport.Concurrency

open Foundation List Option

variable {Value Reason : Type}

/-- What holds in every reachable state. -/
structure LockSafe (state : LockState Value Reason) : Prop where
  exclusive : ∀ first second, state.Running first → state.Running second →
    state.keyOf first = state.keyOf second → first = second
  inOrder : state.starts.Pairwise fun first second ↦
    state.keyOf first = state.keyOf second → first < second
  notOvertaken : ∀ call ∈ state.starts, ∀ earlier < call, state.keyOf earlier = state.keyOf call →
    earlier ∈ state.starts ∧ ¬ state.Running earlier
  ownResult : ∀ call settlement, state.heap.settled (.result call) = some settlement →
    state.heap.settled (.fn call) = some settlement
  /-- A key without an entry has no call that is waiting or running. -/
  absent : ∀ key, state.chains.get key = none → ∀ call, state.keyOf call = some key →
    call ∈ state.starts ∧ state.Settled (.result call)

variable {call : ℕ} {state : LockState Value Reason}

theorem LockInvariant.not_running_of_settled_tail (h : LockInvariant state)
    (htail : state.Settled (.tail call)) : ¬ state.Running call := by
  rintro ⟨-, hrunning⟩
  obtain ⟨settlement, hresult⟩ :=
    ne_none_iff_exists'.mp (h.settled_result_of_settled_tail htail)
  refine hrunning ?_
  rw [LockState.Settled, h.adopted call settlement hresult]
  rintro ⟨⟩

theorem LockInvariant.lockSafe (h : LockInvariant state) : LockSafe state where
  exclusive first second hfirst hsecond hkey := by
    rcases Nat.lt_trichotomy first second with hlt | heq | hgt
    · exact absurd hfirst
        (h.not_running_of_settled_tail (h.released second hsecond.1 first hlt hkey))
    · exact heq
    · exact absurd hsecond
        (h.not_running_of_settled_tail (h.released first hfirst.1 second hgt hkey.symm))
  inOrder := h.ordered
  notOvertaken call hcall earlier hearlier hkey := by
    have htail := h.released call hcall earlier hearlier hkey
    exact ⟨h.mem_starts_of_settled_tail htail, h.not_running_of_settled_tail htail⟩
  ownResult := h.adopted
  absent key hkey call hcall := by
    have htail := h.absent key hkey call hcall
    exact ⟨h.mem_starts_of_settled_tail htail, h.settled_result_of_settled_tail htail⟩

/-! ### What a step keeps -/

variable {prev : PromiseId} {found : Settlement Value Reason} (state : LockState Value Reason)
  (target : PromiseId) (callback : Callback) (settlement : Settlement Value Reason)

section

variable {before after : LockState Value Reason} {event : LockEvent Value Reason}
  {reaction : Reaction PromiseId Callback} {name : PromiseId}

theorem settled_runCallback (h : state.heap.settled name = some found) :
    (runCallback state target callback settlement).heap.settled name = some found := by
  cases callback with
  | callFn call =>
    cases settlement with
    | ok => exact h
    | error => exact PromiseHeap.settled_settle_of_settled _ h
  | adopt _ | swallow _ | dropKey _ _ => exact PromiseHeap.settled_settle_of_settled _ h

section

variable (hnext : lockMachine.next before event = some after)
include hnext

theorem settled_next (h : before.heap.settled name = some found) :
    after.heap.settled name = some found := by
  cases event with
  | call key =>
    obtain rfl := some.inj hnext
    exact h
  | settle call settlement =>
    simp only [lockMachine] at hnext
    split_ifs at hnext with hboth
    obtain rfl := some.inj hnext
    exact PromiseHeap.settled_settle_of_settled settlement h
  | react reaction =>
    obtain ⟨⟨settlement, heap⟩, htake, rfl⟩ := map_eq_some_iff.mp hnext
    obtain ⟨-, -, rfl⟩ := PromiseHeap.take_eq_some_iff.mp htake
    exact settled_runCallback _ reaction.target reaction.callback settlement h

/-- The calls that have arrived stay, and so do those that have started. -/
theorem calls_next : before.calls <+: after.calls := by
  cases event with
  | call key =>
    obtain rfl := some.inj hnext
    exact prefix_append _ _
  | settle call settlement =>
    simp only [lockMachine] at hnext
    split_ifs at hnext with hboth
    obtain rfl := some.inj hnext
    exact prefix_rfl
  | react reaction =>
    obtain ⟨⟨settlement, heap⟩, -, rfl⟩ := map_eq_some_iff.mp hnext
    cases reaction.callback with
    | callFn call => cases settlement <;> exact prefix_rfl
    | adopt _ | swallow _ | dropKey _ _ => exact prefix_rfl

theorem getElem?_next {found : Call} (h : before.calls[call]? = some found) :
    after.calls[call]? = some found := by
  obtain ⟨rest, hrest⟩ := calls_next hnext
  rw [← hrest, List.getElem?_append_left (List.getElem?_eq_some_iff.mp h).1, h]

theorem keyOf_next {key : String} (h : before.keyOf call = some key) :
    after.keyOf call = some key := by
  obtain ⟨found, hfound, rfl⟩ := map_eq_some_iff.mp h
  exact map_eq_some_iff.mpr ⟨found, getElem?_next hnext hfound, rfl⟩

theorem prevOf_next (h : before.prevOf call = some prev) : after.prevOf call = some prev := by
  obtain ⟨found, hfound, rfl⟩ := map_eq_some_iff.mp h
  exact map_eq_some_iff.mpr ⟨found, getElem?_next hnext hfound, rfl⟩

end

theorem mem_reactions_runCallback (h : reaction ∈ state.heap.reactions) :
    reaction ∈ (runCallback state target callback settlement).heap.reactions := by
  cases callback with
  | callFn call =>
    cases settlement with
    | ok => exact PromiseHeap.mem_reactions_register.mpr (.inr h)
    | error => exact h
  | adopt _ | swallow _ | dropKey _ _ => exact h

theorem ready_next (hnext : lockMachine.next before event = some after)
    (hother : event ≠ .react reaction) (h : before.heap.Ready reaction) :
    after.heap.Ready reaction := by
  obtain ⟨found, hfound⟩ := isSome_iff_exists.mp h.2
  refine ⟨?_, isSome_iff_exists.mpr ⟨found, settled_next hnext hfound⟩⟩
  cases event with
  | call key =>
    obtain rfl := some.inj hnext
    simp [runExclusive, h.1]
  | settle call settlement =>
    simp only [lockMachine] at hnext
    split_ifs at hnext with hboth
    obtain rfl := some.inj hnext
    exact h.1
  | react ran =>
    obtain ⟨⟨settlement, heap⟩, htake, rfl⟩ := map_eq_some_iff.mp hnext
    obtain ⟨-, -, rfl⟩ := PromiseHeap.take_eq_some_iff.mp htake
    refine mem_reactions_runCallback _ _ _ _ (Finset.mem_erase.mpr ⟨?_, h.1⟩)
    exact fun hsame ↦ hother (congrArg LockEvent.react hsame.symm)

end

/-! ### In the end -/

/-- A run of the module and its callers. -/
abbrev LockExecution (Value Reason : Type) : Type :=
  Execution (lockMachine : Machine (LockState Value Reason) (LockEvent Value Reason)) LockState.initial

/-- What holds in the end, if every ready callback runs at some time. -/
structure LockLive (execution : LockExecution Value Reason) : Prop where
  delivered : ∀ time call settlement,
    (execution.states time).heap.settled (.fn call) = some settlement →
      ∃ later ≥ time, (execution.states later).heap.settled (.result call) = some settlement
  /-- A call starts when the functions of the earlier ones are settled, fulfilled or rejected. -/
  notBlocked : ∀ time call key, (execution.states time).keyOf call = some key →
    (∀ earlier < call, (execution.states time).keyOf earlier = some key →
      (execution.states time).Settled (.fn earlier)) →
        ∃ later ≥ time, call ∈ (execution.states later).starts
  /-- The entry of a key whose functions are all settled is deleted, or another call has arrived. -/
  deleted : ∀ time key, (∀ call, (execution.states time).keyOf call = some key →
    (execution.states time).Settled (.fn call)) →
      ∃ later ≥ time, (execution.states later).chains.get key = none ∨
        ∃ call ≥ (execution.states time).calls.length, (execution.states later).keyOf call = some key

section

variable {execution : LockExecution Value Reason} {time later call : ℕ}

theorem lockInvariant (execution : LockExecution Value Reason) (time : ℕ) :
    LockInvariant (execution.states time) := by
  obtain ⟨labels, hrun⟩ := execution.exists_run time
  exact LockInvariant.of_run hrun

section

variable (hfair : ∀ reaction, execution.WeaklyFair (.react reaction))
include hfair

theorem eventually_runs {reaction : Reaction PromiseId Callback}
    (h : (execution.states time).heap.Ready reaction) :
    ∃ later ≥ time, ∃ settlement heap,
      (execution.states later).heap.take reaction = some (settlement, heap) ∧
        execution.states (later + 1) = runCallback { execution.states later with heap := heap }
          reaction.target reaction.callback settlement := by
  obtain ⟨later, hle, -, hlabel⟩ := execution.eventually_occurs (hfair reaction)
    (fun state ↦ state.heap.Ready reaction) h (fun later _ hready ↦ by
      simpa [lockMachine] using PromiseHeap.isSome_take_iff.mpr hready)
    fun later _ hready other after hother hnext ↦ ready_next hnext hother hready
  have hnext := execution.next_of_label hlabel
  obtain ⟨⟨settlement, heap⟩, htake, hafter⟩ := map_eq_some_iff.mp hnext
  exact ⟨later, hle, settlement, heap, htake, hafter.symm⟩

theorem eventually_settled (reaction : Reaction PromiseId Callback)
    (hkind : ∀ call, reaction.callback ≠ .callFn call)
    (hpending : (execution.states time).Pending reaction)
    (hsource : (execution.states time).Settled reaction.source) :
    ∃ later ≥ time, (execution.states later).Settled reaction.target := by
  have hready : (execution.states time).heap.Ready reaction :=
    ⟨((lockInvariant execution time).reactions reaction).mpr hpending,
      isSome_iff_ne_none.mpr hsource⟩
  obtain ⟨later, hle, settlement, heap, -, hafter⟩ := eventually_runs hfair hready
  refine ⟨later + 1, hle.trans (Nat.le_succ later), ?_⟩
  rw [hafter, LockState.Settled]
  obtain ⟨source, callback, target⟩ := reaction
  cases callback with
  | callFn call => exact absurd rfl (hkind call)
  | adopt _ | swallow _ | dropKey _ _ => simp [runCallback, PromiseHeap.settled_settle]

section

variable (h : (execution.states time).Settled (.fn call))
include h

/-- The settlement of a function reaches the promise of its caller. -/
theorem eventually_result : ∃ later ≥ time, (execution.states later).Settled (.result call) := by
  by_cases hresult : (execution.states time).Settled (.result call)
  · exact ⟨time, le_rfl, hresult⟩
  · have hstarted := (lockInvariant execution time).started call h
    exact eventually_settled hfair ⟨.fn call, .adopt call, .result call⟩
      (fun _ ↦ nofun) ⟨hstarted, hresult, rfl, rfl⟩ h

theorem eventually_tail : ∃ later ≥ time, (execution.states later).Settled (.tail call) := by
  obtain ⟨middle, hmiddle, hresult⟩ := eventually_result hfair h
  have hinvariant := lockInvariant execution middle
  by_cases htail : (execution.states middle).Settled (.tail call)
  · exact ⟨middle, hmiddle, htail⟩
  · have harrived := hinvariant.arrived call (hinvariant.mem_starts_of_settled_result hresult)
    obtain ⟨later, hle, hsettled⟩ := eventually_settled hfair
      ⟨.result call, .swallow call, .tail call⟩ (fun _ ↦ nofun)
      ⟨harrived, htail, rfl, rfl⟩ hresult
    exact ⟨later, hmiddle.trans hle, hsettled⟩

/-- And then the callback of `finally` has run. -/
theorem eventually_cleaned {key : String} (hkey : (execution.states time).keyOf call = some key) :
    ∃ later ≥ time, (execution.states later).Settled (.cleaned call) := by
  obtain ⟨middle, hmiddle, htail⟩ := eventually_tail hfair h
  by_cases hcleaned : (execution.states middle).Settled (.cleaned call)
  · exact ⟨middle, hmiddle, hcleaned⟩
  · have hkey' : (execution.states middle).keyOf call = some key :=
      execution.persists (LockState.keyOf · call = some key)
        (fun _ _ _ hnext ↦ keyOf_next hnext) hmiddle hkey
    obtain ⟨later, hle, hsettled⟩ := eventually_settled hfair
      ⟨.tail call, .dropKey key call, .cleaned call⟩ (fun _ ↦ nofun)
      ⟨hkey', hcleaned, rfl, rfl⟩ htail
    exact ⟨later, hmiddle.trans hle, hsettled⟩

end

/-- A call whose predecessor is done starts. -/
theorem eventually_starts (hprev : (execution.states time).prevOf call = some prev)
    (hsettled : (execution.states time).Settled prev) :
    ∃ later ≥ time, call ∈ (execution.states later).starts := by
  by_cases hstarted : call ∈ (execution.states time).starts
  · exact ⟨time, le_rfl, hstarted⟩
  · have hready : (execution.states time).heap.Ready ⟨prev, .callFn call, .result call⟩ :=
      ⟨((lockInvariant execution time).reactions _).mpr ⟨hstarted, hprev, rfl⟩,
        isSome_iff_ne_none.mpr hsettled⟩
    obtain ⟨later, hle, settlement, heap, htake, hafter⟩ := eventually_runs hfair hready
    obtain ⟨hmem, hsource, -⟩ := PromiseHeap.take_eq_some_iff.mp htake
    have hinvariant := lockInvariant execution later
    obtain rfl := hinvariant.settled_prev ((hinvariant.reactions _).mp hmem).2.1 hsource
    refine ⟨later + 1, hle.trans (Nat.le_succ later), ?_⟩
    rw [hafter]
    exact mem_append_right _ mem_cons_self

theorem lockLive : LockLive execution where
  delivered time call settlement hsettlement := by
    have hsettled : (execution.states time).Settled (.fn call) := by
      rw [LockState.Settled, hsettlement]
      rintro ⟨⟩
    obtain ⟨later, hle, hresult⟩ := eventually_result hfair hsettled
    obtain ⟨found, hfound⟩ := ne_none_iff_exists'.mp hresult
    have hown := (lockInvariant execution later).adopted call found hfound
    have hkept := execution.persists (fun state ↦ state.heap.settled (.fn call) = some settlement)
      (fun _ _ _ hnext hbefore ↦ settled_next hnext hbefore) hle hsettlement
    exact ⟨later, hle, by rw [hfound, ← hown, hkept]⟩
  notBlocked time call key hkey hearlier := by
    obtain ⟨found, hfound, rfl⟩ := map_eq_some_iff.mp hkey
    have hprev : (execution.states time).prevOf call = some found.prev := by
      rw [LockState.prevOf, hfound, map_some]
    rcases (lockInvariant execution time).behind call found.prev hprev with
      ⟨hresolved, -⟩ | ⟨last, hlast, hprevTail, hsame, -⟩
    · refine eventually_starts hfair hprev ?_
      rw [hresolved, LockState.Settled, (lockInvariant execution time).resolved]
      rintro ⟨⟩
    · -- the tail of the last earlier call is settled first
      obtain ⟨middle, hmiddle, htail⟩ := eventually_tail hfair
        (hearlier last hlast (hsame.trans hkey))
      have hprev' := execution.persists (LockState.prevOf · call = some (.tail last))
        (fun _ _ _ hnext ↦ prevOf_next hnext) hmiddle (hprev.trans (congrArg some hprevTail))
      obtain ⟨later, hle, hstarted⟩ := eventually_starts hfair hprev' htail
      exact ⟨later, hmiddle.trans hle, hstarted⟩
  deleted time key hall := by
    cases hentry : (execution.states time).chains.get key with
    | none => exact ⟨time, le_rfl, .inl hentry⟩
    | some name =>
      obtain ⟨last, rfl, hlast, hmax, -⟩ := (lockInvariant execution time).entry key name hentry
      obtain ⟨later, hle, hcleaned⟩ := eventually_cleaned hfair (hall last hlast) hlast
      refine ⟨later, hle, ?_⟩
      cases hlater : (execution.states later).chains.get key with
      | none => exact .inl rfl
      | some name =>
        -- the entry is that of a call that has arrived in the meantime
        right
        obtain ⟨call, rfl, hcall, hmaxLater, hunsettled⟩ :=
          (lockInvariant execution later).entry key name hlater
        refine ⟨call, ?_, hcall⟩
        have hkept := execution.persists (LockState.keyOf · last = some key)
          (fun _ _ _ hnext ↦ keyOf_next hnext) hle hlast
        have hge := hmaxLater last hkept
        by_contra hnot
        have hbefore : (execution.states time).keyOf call = some key := by
          have hfound := List.getElem?_eq_getElem (not_le.mp hnot)
          have hcallKey : (execution.states time).keyOf call = some _ := congrArg _ hfound
          have hsame := execution.persists (LockState.keyOf · call = some _)
            (fun _ _ _ hnext ↦ keyOf_next hnext) hle hcallKey
          rw [hcallKey, ← hsame, hcall]
        obtain rfl := Nat.le_antisymm (hmax call hbefore) hge
        exact hunsettled hcleaned

end

end

/-- What the callers of `runExclusive` rely on, in every state and in the end. -/
theorem keyedLock :
    (∀ (events : List (LockEvent Value Reason)) (state : LockState Value Reason),
      lockMachine.run LockState.initial events = some state → LockSafe state) ∧
    ∀ execution : LockExecution Value Reason,
      (∀ reaction, execution.WeaklyFair (.react reaction)) → LockLive execution :=
  ⟨fun _ _ hrun ↦ (LockInvariant.of_run hrun).lockSafe, fun _ hfair ↦ lockLive hfair⟩

/-- Two calls with one key: the function of the first is rejected, and that of the second
fulfilled. -/
def rejectedThenFulfilled : List (LockEvent ℕ String) :=
  [.call "server::compose.yml", .call "server::compose.yml",
    .react ⟨.resolved, .callFn 0, .result 0⟩, .settle 0 (.error "pull failed"),
    .react ⟨.fn 0, .adopt 0, .result 0⟩, .react ⟨.result 0, .swallow 0, .tail 0⟩,
    .react ⟨.tail 0, .callFn 1, .result 1⟩,
    .react ⟨.tail 0, .dropKey "server::compose.yml" 0, .cleaned 0⟩, .settle 1 (.ok (some 7)),
    .react ⟨.fn 1, .adopt 1, .result 1⟩, .react ⟨.result 1, .swallow 1, .tail 1⟩,
    .react ⟨.tail 1, .dropKey "server::compose.yml" 1, .cleaned 1⟩]

theorem keyedLock_rejectedThenFulfilled :
    ∃ state, ∃ hrun : lockMachine.run LockState.initial rejectedThenFulfilled = some state,
      LockSafe state ∧ LockLive (Execution.ofRun rejectedThenFulfilled hrun) := by
  have hsome : (lockMachine.run LockState.initial rejectedThenFulfilled).isSome := by decide
  obtain ⟨state, hrun⟩ := isSome_iff_exists.mp hsome
  have hdone : state.heap.reactions = ∅ := by
    have hnone : ∀ reached ∈ lockMachine.run LockState.initial rejectedThenFulfilled,
        reached.heap.reactions = ∅ := by decide
    exact hnone state hrun
  refine ⟨state, hrun, keyedLock.1 rejectedThenFulfilled state hrun, keyedLock.2 _ fun reaction ↦ ?_⟩
  refine Execution.weaklyFair_ofRun _ hrun ?_
  simp [lockMachine, PromiseHeap.take, hdone]

end Bridgeport.Concurrency
