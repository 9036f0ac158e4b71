import Bridgeport.Foundation.Machine
import Bridgeport.Foundation.OrderedMap
import Bridgeport.Foundation.Promises

/-!
# The keyed lock

`runExclusive` chains a call behind the tail of the last call with its key, stores its own tail in
`chains`, and lets a `finally` callback delete the entry if it is still the last one. The model
keeps the promises of every call on a `PromiseHeap` and lets any ready callback run next, so that it
has every order of microtasks, and calls can arrive between any two of them.

A call is numbered when it arrives. `LockInvariant` says what every step keeps: which callbacks are
outstanding (`Pending`), behind which promise a call waits (`Behind`), and what an entry of `chains`
is.
-/

namespace Bridgeport.Concurrency

open Foundation List

variable {Value Reason : Type}

/-! ### Calls and their promises -/

inductive PromiseId
  /-- `Promise.resolve()`; all of them are alike. -/
  | resolved
  /-- The promise that `fn` has returned. -/
  | fn (call : ℕ)
  | result (call : ℕ)
  | tail (call : ℕ)
  /-- The promise that `finally` has returned. -/
  | cleaned (call : ℕ)
  deriving DecidableEq

inductive Callback
  /-- `() => fn()`. -/
  | callFn (call : ℕ)
  /-- `result` takes over the settlement of the promise that `fn` has returned. -/
  | adopt (call : ℕ)
  /-- `() => {}`, for both kinds of settlement. -/
  | swallow (call : ℕ)
  /-- The callback of `finally`. -/
  | dropKey (key : String) (call : ℕ)
  deriving DecidableEq

/-- What a promise is settled to: rejected for a reason, or fulfilled with a value or
`undefined`. -/
abbrev Settlement (Value Reason : Type) : Type :=
  Except Reason (Option Value)

/-- A call of `runExclusive`, with the promise behind which it has been chained. -/
structure Call where
  key : String
  prev : PromiseId

/-- The map `chains`, the promises, the calls in the order of their arrival, and the calls whose
`fn` has been called, in the order of these calls. -/
structure LockState (Value Reason : Type) where
  chains : OrderedMap String PromiseId
  heap : PromiseHeap PromiseId Callback (Settlement Value Reason)
  calls : List Call
  starts : List ℕ

def LockState.initial : LockState Value Reason where
  chains := OrderedMap.empty
  heap := ⟨fun name ↦ if name = .resolved then some (.ok none) else none, ∅⟩
  calls := []
  starts := []

variable (state : LockState Value Reason)

def runExclusive (key : String) : LockState Value Reason :=
  let call := state.calls.length
  let prev := (state.chains.get key).getD .resolved
  { state with
    chains := state.chains.set key (.tail call)
    heap := ((state.heap.register prev (.callFn call) (.result call)).register
      (.result call) (.swallow call) (.tail call)).register
        (.tail call) (.dropKey key call) (.cleaned call)
    calls := state.calls ++ [⟨key, prev⟩] }

/-- A callback with the settlement of the promise for which it was registered, and the promise that
`then` has returned for it. -/
def runCallback (target : PromiseId) : Callback → Settlement Value Reason → LockState Value Reason
  | .callFn call, .ok _ =>
    { state with
      heap := state.heap.register (.fn call) (.adopt call) target
      starts := state.starts ++ [call] }
  -- there is no callback for a rejection, and `then` passes it on
  | .callFn _, .error reason => { state with heap := state.heap.settle target (.error reason) }
  | .adopt _, settlement => { state with heap := state.heap.settle target settlement }
  | .swallow _, _ => { state with heap := state.heap.settle target (.ok none) }
  | .dropKey key call, settlement =>
    { state with
      chains := if state.chains.get key = some (.tail call) then state.chains.delete key
        else state.chains
      heap := state.heap.settle target settlement }

/-- What can happen next: a call arrives, the promise that `fn` has returned is settled, or a ready
callback runs. -/
inductive LockEvent (Value Reason : Type)
  | call (key : String)
  | settle (call : ℕ) (settlement : Settlement Value Reason)
  | react (reaction : Reaction PromiseId Callback)

/-- Calls, settlements of `fn` and reactions, in any order. -/
def lockMachine : Machine (LockState Value Reason) (LockEvent Value Reason) where
  next state
    | .call key => some (runExclusive state key)
    | .settle call settlement =>
      if call ∈ state.starts ∧ state.heap.settled (.fn call) = none then
        some { state with heap := state.heap.settle (.fn call) settlement }
      else none
    | .react reaction => (state.heap.take reaction).map fun (settlement, heap) ↦
      runCallback { state with heap := heap } reaction.target reaction.callback settlement

/-! ### The invariant -/

namespace LockState

variable (call : ℕ)

def keyOf : Option String :=
  state.calls[call]?.map Call.key

def prevOf : Option PromiseId :=
  state.calls[call]?.map Call.prev

/-- A promise of a call is settled. -/
def Settled (name : PromiseId) : Prop :=
  state.heap.settled name ≠ none

/-- A `fn` that has been called and whose promise is not settled. -/
def Running : Prop :=
  call ∈ state.starts ∧ ¬ state.Settled (.fn call)

/-- The callback of a reaction is outstanding. -/
def Pending (state : LockState Value Reason) (reaction : Reaction PromiseId Callback) : Prop :=
  match reaction.callback with
  | .callFn call => call ∉ state.starts ∧ state.prevOf call = some reaction.source ∧
      reaction.target = .result call
  | .adopt call => call ∈ state.starts ∧ ¬ state.Settled (.result call) ∧
      reaction.source = .fn call ∧ reaction.target = .result call
  | .swallow call => call < state.calls.length ∧ ¬ state.Settled (.tail call) ∧
      reaction.source = .result call ∧ reaction.target = .tail call
  | .dropKey key call => state.keyOf call = some key ∧ ¬ state.Settled (.cleaned call) ∧
      reaction.source = .tail call ∧ reaction.target = .cleaned call

/-- Behind which promise a call has been chained: the tail of the last earlier call with its key,
unless the tails of all of them have been settled. -/
def Behind (prev : PromiseId) : Prop :=
  (prev = .resolved ∧ ∀ earlier < call, state.keyOf earlier = state.keyOf call →
      state.Settled (.tail earlier)) ∨
    ∃ last < call, prev = .tail last ∧ state.keyOf last = state.keyOf call ∧
      ∀ earlier < call, state.keyOf earlier = state.keyOf call → earlier ≤ last

/-- An entry of `chains` is the tail of the last call with its key, which has not been cleaned
up. -/
def IsEntry (key : String) (name : PromiseId) : Prop :=
  ∃ last, name = .tail last ∧ state.keyOf last = some key ∧
    (∀ call, state.keyOf call = some key → call ≤ last) ∧ ¬ state.Settled (.cleaned last)

end LockState

/-- What every step keeps. -/
structure LockInvariant (state : LockState Value Reason) : Prop where
  resolved : state.heap.settled .resolved = some (.ok none)
  arrived : ∀ call ∈ state.starts, call < state.calls.length
  started : ∀ call, state.Settled (.fn call) → call ∈ state.starts
  adopted : ∀ call settlement, state.heap.settled (.result call) = some settlement →
    state.heap.settled (.fn call) = some settlement
  swallowed : ∀ call settlement, state.heap.settled (.tail call) = some settlement →
    settlement = .ok none ∧ state.Settled (.result call)
  dropped : ∀ call, state.Settled (.cleaned call) → state.Settled (.tail call)
  reactions : ∀ reaction, reaction ∈ state.heap.reactions ↔ state.Pending reaction
  behind : ∀ call prev, state.prevOf call = some prev → state.Behind call prev
  /-- A call starts after the tails of the earlier ones with its key are settled. -/
  released : ∀ call ∈ state.starts, ∀ earlier < call, state.keyOf earlier = state.keyOf call →
    state.Settled (.tail earlier)
  ordered : state.starts.Pairwise fun first second ↦
    state.keyOf first = state.keyOf second → first < second
  entry : ∀ key name, state.chains.get key = some name → state.IsEntry key name
  absent : ∀ key, state.chains.get key = none → ∀ call, state.keyOf call = some key →
    state.Settled (.tail call)

/-! ### Keys -/

namespace LockState

variable {state after : LockState Value Reason} {call : ℕ} {key : String} {prev : PromiseId}

theorem lt_of_keyOf (h : state.keyOf call = some key) : call < state.calls.length := by
  obtain ⟨found, hfound, -⟩ := Option.map_eq_some_iff.mp h
  exact (List.getElem?_eq_some_iff.mp hfound).1

theorem getElem?_runExclusive (state : LockState Value Reason) (key : String) (call : ℕ) :
    (runExclusive state key).calls[call]? = if call = state.calls.length then
      some ⟨key, (state.chains.get key).getD .resolved⟩ else state.calls[call]? := by
  unfold runExclusive
  by_cases hcall : call = state.calls.length
  · simp [hcall]
  · rw [if_neg hcall]
    rcases Nat.lt_or_gt_of_ne hcall with hlt | hgt
    · rw [List.getElem?_append_left hlt]
    · rw [List.getElem?_eq_none (by simp; omega), List.getElem?_eq_none (by omega)]

@[simp] theorem settled_runExclusive {name : PromiseId} :
    (runExclusive state key).Settled name ↔ state.Settled name :=
  Iff.rfl

@[simp] theorem starts_runExclusive : (runExclusive state key).starts = state.starts :=
  rfl

@[simp] theorem length_runExclusive :
    (runExclusive state key).calls.length = state.calls.length + 1 := by
  simp [runExclusive]

section

variable (state : LockState Value Reason) (key : String) (call : ℕ)

theorem keyOf_runExclusive :
    (runExclusive state key).keyOf call =
      if call = state.calls.length then some key else state.keyOf call := by
  unfold keyOf
  rw [getElem?_runExclusive]
  split_ifs <;> rfl

theorem prevOf_runExclusive :
    (runExclusive state key).prevOf call = if call = state.calls.length then
      some ((state.chains.get key).getD .resolved) else state.prevOf call := by
  unfold prevOf
  rw [getElem?_runExclusive]
  split_ifs <;> rfl

end

theorem keyOf_runExclusive_of_lt (h : call < state.calls.length) :
    (runExclusive state key).keyOf call = state.keyOf call := by
  rw [keyOf_runExclusive, if_neg (Nat.ne_of_lt h)]

theorem Behind.mono (h : state.Behind call prev)
    (hkeyOf : ∀ earlier ≤ call, after.keyOf earlier = state.keyOf earlier)
    (hsettled : ∀ name, state.Settled name → after.Settled name) : after.Behind call prev := by
  have hcall := hkeyOf call le_rfl
  rcases h with ⟨hprev, htails⟩ | ⟨last, hlast, hprev, hkey, hmax⟩
  · refine .inl ⟨hprev, fun earlier hearlier hsame ↦ hsettled _ (htails earlier hearlier ?_)⟩
    rwa [hkeyOf earlier hearlier.le, hcall] at hsame
  · refine .inr ⟨last, hlast, hprev, ?_, fun earlier hearlier hsame ↦ hmax earlier hearlier ?_⟩
    · rw [hkeyOf last hlast.le, hcall, hkey]
    · rwa [hkeyOf earlier hearlier.le, hcall] at hsame

end LockState

/-! ### The arrival of a call -/

variable {settlement : Settlement Value Reason} {source : PromiseId}
  {after : LockState Value Reason}

namespace LockInvariant

variable {state : LockState Value Reason}

section

variable (h : LockInvariant state) {call : ℕ}
include h

theorem mem_starts_of_settled_result (hresult : state.Settled (.result call)) :
    call ∈ state.starts := by
  obtain ⟨settlement, hsettlement⟩ := Option.ne_none_iff_exists'.mp hresult
  refine h.started call ?_
  rw [LockState.Settled, h.adopted call settlement hsettlement]
  exact nofun

theorem settled_result_of_settled_tail (htail : state.Settled (.tail call)) :
    state.Settled (.result call) := by
  obtain ⟨settlement, hsettlement⟩ := Option.ne_none_iff_exists'.mp htail
  exact (h.swallowed call settlement hsettlement).2

theorem mem_starts_of_settled_tail (htail : state.Settled (.tail call)) : call ∈ state.starts :=
  h.mem_starts_of_settled_result (h.settled_result_of_settled_tail htail)

theorem not_settled_of_length_le (hcall : state.calls.length ≤ call) :
    ¬ state.Settled (.result call) ∧
      ¬ state.Settled (.tail call) ∧ ¬ state.Settled (.cleaned call) := by
  have hstarts : call ∉ state.starts := fun hmem ↦ absurd (h.arrived call hmem) (not_lt.mpr hcall)
  refine ⟨?_, ?_, ?_⟩
  · exact fun hresult ↦ hstarts (h.mem_starts_of_settled_result hresult)
  · exact fun htail ↦ hstarts (h.mem_starts_of_settled_tail htail)
  · exact fun hcleaned ↦ hstarts (h.mem_starts_of_settled_tail (h.dropped call hcleaned))

theorem mem_reactions_runExclusive (key : String) (reaction : Reaction PromiseId Callback) :
    reaction ∈ (runExclusive state key).heap.reactions ↔
      (runExclusive state key).Pending reaction := by
  obtain ⟨source, callback, target⟩ := reaction
  obtain ⟨-, htail, hcleaned⟩ := h.not_settled_of_length_le le_rfl
  have hnew : state.calls.length ∉ state.starts := fun hmem ↦
    absurd (h.arrived _ hmem) (lt_irrefl _)
  have hreactions := h.reactions ⟨source, callback, target⟩
  simp only [runExclusive, PromiseHeap.mem_reactions_register, hreactions]
  change _ ↔ (runExclusive state key).Pending ⟨source, callback, target⟩
  -- the callbacks of the new call are outstanding, and those of the others as before
  cases callback with
  | callFn call =>
    simp only [LockState.Pending, LockState.prevOf_runExclusive, LockState.starts_runExclusive]
    by_cases hcall : call = state.calls.length
    · subst hcall
      have hprev : state.prevOf state.calls.length = none := by simp [LockState.prevOf]
      simp [hnew, hprev, eq_comm]
    · simp [hcall]
  | adopt call => simp [LockState.Pending]
  | swallow call =>
    simp only [LockState.Pending, LockState.length_runExclusive, LockState.settled_runExclusive]
    by_cases hcall : call = state.calls.length
    · subst hcall
      simp [htail]
    · have hlt : call < state.calls.length + 1 ↔ call < state.calls.length := by omega
      simp [hcall, hlt]
  | dropKey other call =>
    simp only [LockState.Pending, LockState.keyOf_runExclusive, LockState.settled_runExclusive]
    by_cases hcall : call = state.calls.length
    · subst hcall
      have hkeyOf : state.keyOf state.calls.length ≠ some other := fun hkey ↦
        lt_irrefl _ (LockState.lt_of_keyOf hkey)
      simp only [hcleaned, hkeyOf, Reaction.mk.injEq, Callback.dropKey.injEq, reduceCtorEq, if_true,
        false_and, and_false, or_false, and_true, not_false_eq_true, true_and, Option.some.injEq]
      tauto
    · simp [hcall]

theorem behind_runExclusive (key : String) :
    (runExclusive state key).Behind state.calls.length ((state.chains.get key).getD .resolved) := by
  have hkeyOf : ∀ earlier < state.calls.length, (runExclusive state key).keyOf earlier =
      (runExclusive state key).keyOf state.calls.length → state.keyOf earlier = some key := by
    intro earlier hearlier hsame
    rwa [LockState.keyOf_runExclusive_of_lt hearlier, LockState.keyOf_runExclusive, if_pos rfl]
      at hsame
  cases hentry : state.chains.get key with
  | none =>
    exact .inl ⟨rfl, fun earlier hearlier hsame ↦
      h.absent key hentry earlier (hkeyOf earlier hearlier hsame)⟩
  | some name =>
    obtain ⟨last, rfl, hkey, hmax, -⟩ := h.entry key name hentry
    have hlast := LockState.lt_of_keyOf hkey
    refine .inr ⟨last, hlast, rfl, ?_, fun earlier hearlier hsame ↦
      hmax earlier (hkeyOf earlier hearlier hsame)⟩
    rw [LockState.keyOf_runExclusive_of_lt hlast, hkey, LockState.keyOf_runExclusive, if_pos rfl]

end

theorem call (h : LockInvariant state) (key : String) : LockInvariant (runExclusive state key) where
  resolved := h.resolved
  arrived call hcall := (h.arrived call hcall).trans_le (by simp [runExclusive])
  started := h.started
  adopted := h.adopted
  swallowed := h.swallowed
  dropped := h.dropped
  reactions := h.mem_reactions_runExclusive key
  behind call prev hprev := by
    rw [LockState.prevOf_runExclusive] at hprev
    split_ifs at hprev with hcall
    · rw [hcall, ← Option.some.inj hprev]
      exact h.behind_runExclusive key
    · have hlt : call < state.calls.length := by
        obtain ⟨found, hfound, -⟩ := Option.map_eq_some_iff.mp hprev
        exact (List.getElem?_eq_some_iff.mp hfound).1
      refine (h.behind call prev hprev).mono (fun earlier hearlier ↦ ?_) fun name hname ↦ hname
      exact LockState.keyOf_runExclusive_of_lt (hearlier.trans_lt hlt)
  released call hcall earlier hearlier hsame := by
    have hlt := h.arrived call hcall
    rw [LockState.keyOf_runExclusive_of_lt hlt,
      LockState.keyOf_runExclusive_of_lt (hearlier.trans hlt)] at hsame
    exact h.released call hcall earlier hearlier hsame
  ordered := by
    refine h.ordered.imp_of_mem fun {first second} hfirst hsecond hlt hsame ↦ hlt ?_
    rwa [LockState.keyOf_runExclusive_of_lt (h.arrived first hfirst),
      LockState.keyOf_runExclusive_of_lt (h.arrived second hsecond)] at hsame
  entry other name hname := by
    rw [runExclusive, OrderedMap.get_set] at hname
    split_ifs at hname with hother
    · subst hother
      refine ⟨_, (Option.some.inj hname).symm, ?_, fun call hcall ↦ ?_, ?_⟩
      · rw [LockState.keyOf_runExclusive, if_pos rfl]
      · have hlt := LockState.lt_of_keyOf hcall
        simp only [runExclusive, length_append, length_singleton] at hlt
        omega
      · exact (h.not_settled_of_length_le le_rfl).2.2
    · obtain ⟨last, rfl, hkey, hmax, hcleaned⟩ := h.entry other name hname
      refine ⟨last, rfl, ?_, fun call hcall ↦ ?_, hcleaned⟩
      · rw [LockState.keyOf_runExclusive_of_lt (LockState.lt_of_keyOf hkey), hkey]
      · rw [LockState.keyOf_runExclusive] at hcall
        split_ifs at hcall with hnew
        · exact absurd (Option.some.inj hcall).symm hother
        · exact hmax call hcall
  absent other hother call hcall := by
    rw [runExclusive, OrderedMap.get_set] at hother
    split_ifs at hother with hsame
    rw [LockState.keyOf_runExclusive] at hcall
    split_ifs at hcall with hnew
    · exact absurd (Option.some.inj hcall).symm hsame
    · exact h.absent other hother call hcall

variable {reaction : Reaction PromiseId Callback}

section

variable {after : LockState Value Reason} {target : PromiseId} {settlement : Settlement Value Reason}

/-- A promise may be settled if the ones before it are: the stages of a call are passed in order. -/
def Due (state : LockState Value Reason) (settlement : Settlement Value Reason) : PromiseId → Prop
  | .resolved => False
  | .fn call => call ∈ state.starts
  | .result call => state.heap.settled (.fn call) = some settlement
  | .tail call => settlement = .ok none ∧ state.Settled (.result call)
  | .cleaned call => state.Settled (.tail call)

section

variable (h : LockInvariant state) (hpending : ¬ state.Settled target)
  (hdue : Due state settlement target)
include h hpending hdue

/-- The settlement of a promise, in terms of the reactions and the entries that it leaves. -/
theorem settle (hcalls : after.calls = state.calls) (hstarts : after.starts = state.starts)
    (hsettled : ∀ name, after.heap.settled name =
      if name = target then some settlement else state.heap.settled name)
    (hreactions : ∀ reaction, reaction ∈ after.heap.reactions ↔ after.Pending reaction)
    (hentry : ∀ key name, after.chains.get key = some name → after.IsEntry key name)
    (habsent : ∀ key, after.chains.get key = none → ∀ call, after.keyOf call = some key →
      after.Settled (.tail call)) : LockInvariant after := by
  have hkeeps : ∀ name found, state.heap.settled name = some found →
      after.heap.settled name = some found := by
    intro name found hfound
    rw [hsettled, if_neg, hfound]
    rintro rfl
    exact hpending (by rw [LockState.Settled, hfound]; exact nofun)
  have hstays : ∀ name, state.Settled name → after.Settled name := by
    intro name hname
    obtain ⟨found, hfound⟩ := Option.ne_none_iff_exists'.mp hname
    rw [LockState.Settled, hkeeps name found hfound]
    exact nofun
  have hkeyOf : ∀ call, after.keyOf call = state.keyOf call := fun call ↦ by
    rw [LockState.keyOf, hcalls, LockState.keyOf]
  have hold : ∀ name, name ≠ target → after.heap.settled name = state.heap.settled name :=
    fun name hname ↦ by rw [hsettled, if_neg hname]
  refine ⟨?_, ?_, ?_, ?_, ?_, ?_, hreactions, ?_, ?_, ?_, hentry, habsent⟩
  · exact hkeeps _ _ h.resolved
  · rw [hcalls, hstarts]
    exact h.arrived
  · intro call hcall
    rw [hstarts]
    by_cases htarget : .fn call = target
    · subst htarget
      exact hdue
    · rw [LockState.Settled, hold _ htarget] at hcall
      exact h.started call hcall
  · intro call found hfound
    by_cases htarget : .result call = target
    · subst htarget
      rw [hsettled, if_pos rfl] at hfound
      rw [← hfound]
      exact hkeeps _ _ hdue
    · rw [hold _ htarget] at hfound
      exact hkeeps _ _ (h.adopted call found hfound)
  · intro call found hfound
    by_cases htarget : .tail call = target
    · subst htarget
      rw [hsettled, if_pos rfl, Option.some.injEq] at hfound
      exact ⟨hfound ▸ hdue.1, hstays _ hdue.2⟩
    · rw [hold _ htarget] at hfound
      exact (h.swallowed call found hfound).imp id (hstays _)
  · intro call hcall
    by_cases htarget : .cleaned call = target
    · subst htarget
      exact hstays _ hdue
    · rw [LockState.Settled, hold _ htarget] at hcall
      exact hstays _ (h.dropped call hcall)
  · intro call prev hprev
    rw [LockState.prevOf, hcalls] at hprev
    exact (h.behind call prev hprev).mono (fun earlier _ ↦ hkeyOf earlier) hstays
  · intro call hcall earlier hearlier hsame
    rw [hstarts] at hcall
    rw [hkeyOf, hkeyOf] at hsame
    exact hstays _ (h.released call hcall earlier hearlier hsame)
  · rw [hstarts]
    simp only [hkeyOf]
    exact h.ordered

/-- The settlement of a promise that leaves the entries alone. -/
theorem settle_of_chains (hcleaned : ∀ call, target ≠ .cleaned call)
    (hcalls : after.calls = state.calls) (hstarts : after.starts = state.starts)
    (hchains : after.chains = state.chains) (hsettled : ∀ name, after.heap.settled name =
      if name = target then some settlement else state.heap.settled name)
    (hreactions : ∀ reaction, reaction ∈ after.heap.reactions ↔ after.Pending reaction) :
    LockInvariant after := by
  have hkeyOf : ∀ call, after.keyOf call = state.keyOf call := fun call ↦ by
    rw [LockState.keyOf, hcalls, LockState.keyOf]
  refine h.settle hpending hdue hcalls hstarts hsettled hreactions ?_ ?_
  · intro key name hname
    rw [hchains] at hname
    obtain ⟨last, rfl, hkey, hmax, hlast⟩ := h.entry key name hname
    refine ⟨last, rfl, by rw [hkeyOf, hkey], fun call hcall ↦ hmax call (hkeyOf call ▸ hcall), ?_⟩
    rwa [LockState.Settled, hsettled, if_neg (hcleaned last).symm]
  · intro key hkey call hcall
    rw [hchains] at hkey
    rw [hkeyOf] at hcall
    rw [LockState.Settled, hsettled]
    split_ifs
    · exact nofun
    · exact h.absent key hkey call hcall

end

theorem pending_settle (hpending : state.Pending reaction)
    (hkind : ∀ call, reaction.callback ≠ .callFn call) (hcalls : after.calls = state.calls)
    (hstarts : after.starts = state.starts)
    (hsettled : ∀ name, after.Settled name ↔ name = reaction.target ∨ state.Settled name)
    (other : Reaction PromiseId Callback) :
    after.Pending other ↔ other ≠ reaction ∧ state.Pending other := by
  obtain ⟨source, callback, target⟩ := reaction
  obtain ⟨source', callback', target'⟩ := other
  cases callback with
  | callFn call => exact absurd rfl (hkind call)
  | adopt _ | swallow _ | dropKey _ _ =>
    cases callback' <;>
      grind [LockState.Pending, LockState.keyOf, LockState.prevOf]

end

section

variable (h : LockInvariant state) {call : ℕ}
include h

/-- The promise that `fn` has returned is settled. -/
theorem settleFn (hstarted : call ∈ state.starts) (hpending : ¬ state.Settled (.fn call)) :
    LockInvariant { state with heap := state.heap.settle (.fn call) settlement } := by
  have hnone := not_not.mp hpending
  refine h.settle_of_chains hpending hstarted (fun _ ↦ nofun) rfl rfl rfl
    (fun name ↦ PromiseHeap.settled_settle_of_pending hnone name settlement) fun reaction ↦ ?_
  rw [PromiseHeap.reactions_settle, h.reactions]
  have hother : ∀ name, name ≠ .fn call →
      ({ state with heap := state.heap.settle (.fn call) settlement } :
        LockState Value Reason).Settled name = state.Settled name := by
    intro name hname
    rw [LockState.Settled, PromiseHeap.settled_settle, if_neg hname, LockState.Settled]
  obtain ⟨source, callback, target⟩ := reaction
  cases callback with
  | callFn other => rfl
  | adopt other => simp only [LockState.Pending, hother (.result other) nofun]
  | swallow other => simp only [LockState.Pending, hother (.tail other) nofun]
  | dropKey key other =>
    rfl

section

variable (hprev : state.prevOf call = some source)
include hprev

theorem tails_settled (hready : state.Settled source) :
    ∀ earlier < call, state.keyOf earlier = state.keyOf call → state.Settled (.tail earlier) := by
  intro earlier hearlier hsame
  rcases h.behind call source hprev with ⟨-, htails⟩ | ⟨last, -, rfl, hkey, hmax⟩
  · exact htails earlier hearlier hsame
  · rcases (hmax earlier hearlier hsame).eq_or_lt with rfl | hlt
    · exact hready
    · exact h.released last (h.mem_starts_of_settled_tail hready) earlier hlt
        (hsame.trans hkey.symm)

/-- The tail behind which a call waits is fulfilled. -/
theorem settled_prev (hsource : state.heap.settled source = some settlement) :
    settlement = .ok none := by
  rcases h.behind call source hprev with ⟨rfl, -⟩ | ⟨last, -, rfl, -, -⟩
  · exact Option.some.inj (hsource.symm.trans h.resolved)
  · exact (h.swallowed last settlement hsource).1

/-- When `fn` is called, its promise takes the place of the one behind which the call waited. -/
theorem pending_start (hwaits : call ∉ state.starts) (hcalls : after.calls = state.calls)
    (hstarts : after.starts = state.starts ++ [call])
    (hsettled : ∀ name, after.Settled name ↔ state.Settled name)
    (other : Reaction PromiseId Callback) :
    after.Pending other ↔ other = ⟨.fn call, .adopt call, .result call⟩ ∨
      other ≠ ⟨source, .callFn call, .result call⟩ ∧ state.Pending other := by
  have hunsettled : ¬ state.Settled (.result call) := fun hresult ↦
    hwaits (h.mem_starts_of_settled_result hresult)
  obtain ⟨source', callback', target'⟩ := other
  cases callback' <;>
    grind [LockState.Pending, LockState.keyOf, LockState.prevOf]

/-- `fn` is called. -/
theorem start (hwaits : call ∉ state.starts) (hready : state.Settled source) : LockInvariant
      { state with
        heap := PromiseHeap.register { state.heap with
          reactions := state.heap.reactions.erase ⟨source, .callFn call, .result call⟩ }
            (.fn call) (.adopt call) (.result call)
        starts := state.starts ++ [call] } where
  resolved := h.resolved
  arrived other hother := by
    rcases mem_append.mp hother with hmem | hmem
    · exact h.arrived other hmem
    · obtain ⟨found, hfound, -⟩ := Option.map_eq_some_iff.mp hprev
      rw [mem_singleton.mp hmem]
      exact (List.getElem?_eq_some_iff.mp hfound).1
  started other hother := mem_append_left _ (h.started other hother)
  adopted := h.adopted
  swallowed := h.swallowed
  dropped := h.dropped
  reactions other := by
    rw [PromiseHeap.mem_reactions_register, Finset.mem_erase, h.reactions]
    exact (h.pending_start hprev hwaits (by rfl) (by rfl) (fun _ ↦ by rfl) other).symm
  behind := h.behind
  released other hother earlier hearlier hsame := by
    rcases mem_append.mp hother with hmem | hmem
    · exact h.released other hmem earlier hearlier hsame
    · obtain rfl := mem_singleton.mp hmem
      exact h.tails_settled hprev hready earlier hearlier hsame
  ordered := by
    refine pairwise_append.mpr ⟨h.ordered, pairwise_singleton _ _, ?_⟩
    intro first hfirst second hsecond hsame
    obtain rfl := mem_singleton.mp hsecond
    by_contra hnot
    -- a later call with the key has not overtaken this one
    rcases (not_lt.mp hnot).eq_or_lt with rfl | hlt
    · exact hwaits hfirst
    · exact hwaits (h.mem_starts_of_settled_tail (h.released first hfirst second hlt hsame.symm))
  entry := h.entry
  absent := h.absent

end

/-- A callback other than that of `finally` settles its promise. -/
theorem settleTarget (hpending : state.Pending reaction)
    (hkind : ∀ call, reaction.callback ≠ .callFn call)
    (hunsettled : ¬ state.Settled reaction.target) (hdue : Due state settlement reaction.target)
    (hcleaned : ∀ call, reaction.target ≠ .cleaned call) : LockInvariant
      { state with
        heap := PromiseHeap.settle { state.heap with
          reactions := state.heap.reactions.erase reaction } reaction.target settlement } := by
  have hsettled : ∀ name, (PromiseHeap.settle { state.heap with
      reactions := state.heap.reactions.erase reaction } reaction.target settlement).settled name =
        if name = reaction.target then some settlement else state.heap.settled name :=
    fun name ↦ PromiseHeap.settled_settle_of_pending (not_not.mp hunsettled) name settlement
  refine h.settle_of_chains hunsettled hdue hcleaned rfl rfl rfl hsettled fun other ↦ ?_
  rw [PromiseHeap.reactions_settle, Finset.mem_erase, h.reactions]
  refine (pending_settle hpending hkind (by rfl) (by rfl) (fun name ↦ ?_) other).symm
  rw [LockState.Settled, hsettled]
  split_ifs with hname <;> simp [hname, LockState.Settled]

/-- The callback of `finally` deletes the entry of its key, if it is still the one that its call has
set. -/
theorem dropKey {key : String} (hkey : state.keyOf call = some key)
    (hunsettled : ¬ state.Settled (.cleaned call)) (htail : state.Settled (.tail call)) :
    LockInvariant
      { state with
        chains := if state.chains.get key = some (.tail call) then state.chains.delete key
          else state.chains
        heap := PromiseHeap.settle { state.heap with
          reactions := state.heap.reactions.erase ⟨.tail call, .dropKey key call, .cleaned call⟩ }
            (.cleaned call) settlement } := by
  have hpending : state.Pending ⟨.tail call, .dropKey key call, .cleaned call⟩ :=
    ⟨hkey, hunsettled, rfl, rfl⟩
  have hsettled : ∀ name, (PromiseHeap.settle { state.heap with
      reactions := state.heap.reactions.erase ⟨.tail call, .dropKey key call, .cleaned call⟩ }
        (.cleaned call) settlement).settled name =
          if name = .cleaned call then some settlement else state.heap.settled name :=
    fun name ↦ PromiseHeap.settled_settle_of_pending (not_not.mp hunsettled) name settlement
  have hget : ∀ other, (if state.chains.get key = some (.tail call) then state.chains.delete key
      else state.chains).get other = if state.chains.get key = some (.tail call) ∧
        other = key then none
        else state.chains.get other := by
    intro other
    split_ifs with hentry hboth
    · rw [hboth.2, OrderedMap.get_delete, if_pos rfl]
    · rw [OrderedMap.get_delete, if_neg fun hsame ↦ hboth ⟨hentry, hsame⟩]
    all_goals grind
  refine h.settle hunsettled htail rfl rfl hsettled (fun other ↦ ?_) ?_ ?_
  · rw [PromiseHeap.reactions_settle, Finset.mem_erase, h.reactions]
    refine (pending_settle hpending (fun _ ↦ by rintro ⟨⟩) (by rfl) (by rfl) (fun name ↦ ?_) other).symm
    rw [LockState.Settled, hsettled]
    split_ifs with hname <;> simp [hname, LockState.Settled]
  · intro other name hname
    rw [hget] at hname
    split_ifs at hname with hboth
    obtain ⟨last, rfl, hlast, hmax, hcleaned⟩ := h.entry other name hname
    refine ⟨last, rfl, hlast, hmax, ?_⟩
    rw [LockState.Settled, hsettled, if_neg]
    · exact hcleaned
    · intro hsame
      obtain rfl := PromiseId.cleaned.inj hsame
      obtain rfl : other = key := Option.some.inj (hlast.symm.trans hkey)
      exact hboth ⟨hname, rfl⟩
  · intro other hother call' hcall'
    rw [hget] at hother
    split_ifs at hother with hboth
    · -- the entry was that of the last call, and behind it no call waits
      obtain ⟨hentry, rfl⟩ := hboth
      obtain ⟨last, hlast, -, hmax, -⟩ := h.entry other _ hentry
      obtain rfl := PromiseId.tail.inj hlast
      rcases (hmax call' hcall').eq_or_lt with rfl | hlt
      · exact htail
      · exact h.released call (h.mem_starts_of_settled_tail htail) call' hlt
          (hcall'.trans hkey.symm)
    · exact h.absent other hother call' hcall'

theorem react {heap : PromiseHeap PromiseId Callback
      (Settlement Value Reason)} (htake : state.heap.take reaction = some (settlement, heap)) :
    LockInvariant
      (runCallback { state with heap := heap } reaction.target reaction.callback settlement) := by
  obtain ⟨hmem, hsource, rfl⟩ := PromiseHeap.take_eq_some_iff.mp htake
  have hpending := (h.reactions reaction).mp hmem
  have hready : state.Settled reaction.source := by
    rw [LockState.Settled, hsource]
    exact nofun
  obtain ⟨source, callback, target⟩ := reaction
  cases callback with
  | callFn call =>
    obtain ⟨hwaits, hprev, rfl⟩ := hpending
    obtain rfl := h.settled_prev hprev hsource
    exact h.start hprev hwaits hready
  | adopt call =>
    have hparts := hpending
    obtain ⟨-, hunsettled, rfl, rfl⟩ := hparts
    exact h.settleTarget hpending (fun _ ↦ nofun) hunsettled hsource fun _ ↦ nofun
  | swallow call =>
    have hparts := hpending
    obtain ⟨-, hunsettled, rfl, rfl⟩ := hparts
    exact h.settleTarget hpending (fun _ ↦ nofun) hunsettled ⟨rfl, hready⟩ fun _ ↦ nofun
  | dropKey key call =>
    obtain ⟨hkey, hunsettled, rfl, rfl⟩ := hpending
    exact h.dropKey hkey hunsettled hready

theorem next {event : LockEvent Value Reason} (hnext : lockMachine.next state event = some after) :
    LockInvariant after := by
  cases event with
  | call key =>
    obtain rfl := Option.some.inj hnext
    exact h.call key
  | settle call settlement =>
    simp only [lockMachine] at hnext
    split_ifs at hnext with hboth
    obtain rfl := Option.some.inj hnext
    exact h.settleFn hboth.1 (not_not.mpr hboth.2)
  | react reaction =>
    obtain ⟨⟨settlement, heap⟩, htake, rfl⟩ := Option.map_eq_some_iff.mp hnext
    exact h.react htake

end

theorem initial : LockInvariant (LockState.initial : LockState Value Reason) := by
  have hpending : ∀ name ≠ PromiseId.resolved,
      (LockState.initial : LockState Value Reason).heap.settled name = none := fun name hname ↦
    if_neg hname
  refine ⟨rfl, nofun, ?_, ?_, ?_, ?_, ?_, nofun, nofun, List.Pairwise.nil, nofun, nofun⟩
  · exact fun call hcall ↦ absurd (hpending (.fn call) nofun) hcall
  · exact fun call settlement hcall ↦
      absurd (hcall.symm.trans (hpending (.result call) nofun)) nofun
  · exact fun call settlement hcall ↦ absurd (hcall.symm.trans (hpending (.tail call) nofun)) nofun
  · exact fun call hcall ↦ absurd (hpending (.cleaned call) nofun) hcall
  · rintro ⟨source, callback, target⟩
    refine iff_of_false (Finset.notMem_empty _) ?_
    cases callback <;> simp [LockState.Pending, LockState.prevOf, LockState.keyOf, LockState.initial]

theorem of_run {events : List (LockEvent Value Reason)}
    (h : lockMachine.run LockState.initial events = some state) : LockInvariant state := by
  refine Machine.induction (motive := fun _ state ↦ LockInvariant state) initial ?_ h
  exact fun _ _ _ _ hbefore hnext ↦ hbefore.next hnext

end LockInvariant

end Bridgeport.Concurrency
