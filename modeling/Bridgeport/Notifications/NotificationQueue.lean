import Bridgeport.Foundation.Machine
import Bridgeport.Foundation.OrderedMap

/-!
# The notification queue

`enqueue` puts a job in the queue and schedules a drain; `drain` returns at once while another drain
is active, and else takes snapshots of the queue and passes their jobs to the processor one by one,
until the queue is empty. The code between two `await`s runs at once, so a call of `drain` is cut at
its only `await`: a `Drain` is a call that waits for the processor.

`exactlyOnce` says what every interleaving of enqueues, drains and outcomes of the processor keeps.
Together with the queue and the waiting drains, the jobs that the processor has been given are the
jobs that were enqueued, in order (`QueueInvariant.accounted`), and everything else follows from it.

Log messages are left out.
-/

namespace Bridgeport.Notifications

open Foundation List

variable {TypeCode Data : Type}

structure NotificationJob (TypeCode Data : Type) where
  id : String
  typeCode : TypeCode
  environmentId : Option String
  data : Data
  enqueuedAt : ℕ

/-- A call of `drain` that waits for the processor, with what its `for` loop has left of the
snapshot. -/
structure Drain (TypeCode Data : Type) where
  current : NotificationJob TypeCode Data
  rest : List (NotificationJob TypeCode Data)

/-- The variables of the module, and the calls that are waiting. -/
structure NotificationQueue (TypeCode Data : Type) where
  queue : OrderedMap String (NotificationJob TypeCode Data)
  (draining softCapWarned : Bool)
  /-- `processor` is not `null`. -/
  registered : Bool
  /-- The outstanding callbacks of `setImmediate`. -/
  immediates : ℕ
  /-- The calls of `drain` that have not returned. -/
  drains : List (Drain TypeCode Data)
  /-- All jobs, in the order in which they were enqueued. -/
  enqueued : List (NotificationJob TypeCode Data)
  /-- The jobs that the processor has been given, in order. -/
  processed : List (NotificationJob TypeCode Data)

/-- `SOFT_CAP`. -/
def softCap : ℕ := 1000

/-- The module when it is loaded, and the processor after `setJobProcessor`. -/
def NotificationQueue.initial (registered : Bool) : NotificationQueue TypeCode Data :=
  ⟨OrderedMap.empty, false, false, registered, 0, [], [], []⟩

variable (state : NotificationQueue TypeCode Data)

/-- `enqueue`, with the identifier that `randomUUID` returns and the time; it returns the
identifier. -/
def enqueue (id : String) (now : ℕ) (typeCode : TypeCode) (environmentId : Option String)
    (data : Data) : NotificationQueue TypeCode Data × String :=
  let job := ⟨id, typeCode, environmentId, data, now⟩
  let queue := state.queue.set job.id job
  let size := queue.keys.length
  let softCapWarned :=
    if size ≥ softCap ∧ ¬ state.softCapWarned then true
    else if size < softCap / 2 ∧ state.softCapWarned then false
    else state.softCapWarned
  ({ state with
      queue := queue
      softCapWarned := softCapWarned
      immediates := state.immediates + 1
      enqueued := state.enqueued ++ [job] }, job.id)

/-- `sendSystemNotification`: nothing in it can throw. -/
def sendSystemNotification (id : String) (now : ℕ) (typeCode : TypeCode)
    (environmentId : Option String) (data : Data) :
    Except String (NotificationQueue TypeCode Data) :=
  .ok (enqueue state id now typeCode environmentId data).1

variable (queue : OrderedMap String (NotificationJob TypeCode Data))

/-- The loop that takes the snapshot: every entry of the queue is pushed and deleted. -/
def takeSnapshot :
    List (NotificationJob TypeCode Data) × OrderedMap String (NotificationJob TypeCode Data) :=
  queue.entries.foldl (fun (snapshot, queue) entry ↦ (snapshot ++ [entry.2], queue.delete entry.1))
    ([], queue)

/-- The next job of the snapshot is passed to the processor, and the call waits. -/
def process (job : NotificationJob TypeCode Data) (rest : List (NotificationJob TypeCode Data)) :
    NotificationQueue TypeCode Data × Option (Drain TypeCode Data) :=
  ({ state with processed := state.processed ++ [job] }, some ⟨job, rest⟩)

/-- The `while` loop up to the next `await`, or up to the end of the call and its `finally`. -/
def drainLoop : NotificationQueue TypeCode Data × Option (Drain TypeCode Data) :=
  if state.queue.keys.length > 0 then
    match takeSnapshot state.queue with
    | (job :: rest, queue) =>
      -- without a processor the snapshot is dropped, and the loop ends with the empty queue
      if state.registered then process { state with queue := queue } job rest
      else ({ state with queue := queue, draining := false }, none)
    | ([], queue) => ({ state with queue := queue, draining := false }, none)
  else ({ state with draining := false }, none)

def drain : NotificationQueue TypeCode Data :=
  if state.draining then state
  else if state.queue.keys.length = 0 then state
  else
    let (state, waiting) := drainLoop { state with draining := true }
    { state with drains := state.drains ++ waiting.toList }

/-- The processor has settled for a waiting call; a rejection is caught and logged. -/
def resume (index : ℕ) (_outcome : Except String Unit) : Option (NotificationQueue TypeCode Data) :=
  state.drains[index]?.map fun waiting ↦
    let (state, next) := match waiting.rest with
      | job :: rest => process state job rest
      | [] => drainLoop state
    { state with drains := state.drains.take index ++ next.toList ++ state.drains.drop (index + 1) }

/-- What can happen next: a job is enqueued (by any code, the processor included), a callback of
`setImmediate` runs, the scheduler drains, or the processor settles for a waiting call. -/
inductive QueueEvent (TypeCode Data : Type)
  | enqueue (id : String) (now : ℕ) (typeCode : TypeCode) (environmentId : Option String)
      (data : Data)
  | immediate
  | schedulerDrain
  | settled (index : ℕ) (outcome : Except String Unit)

/-- The queue as a machine; `randomUUID` never returns an identifier twice. -/
def queueMachine : Machine (NotificationQueue TypeCode Data) (QueueEvent TypeCode Data) where
  next state event :=
    match event with
    | .enqueue id now typeCode environmentId data =>
      if id ∈ state.enqueued.map (·.id) then none
      else some (enqueue state id now typeCode environmentId data).1
    | .immediate =>
      if state.immediates = 0 then none
      else some (drain { state with immediates := state.immediates - 1 })
    | .schedulerDrain => some (drain state)
    | .settled index outcome => resume state index outcome

/-- Every job is passed to the processor at most once, in the order of the enqueues and one at a
time; when no drain is active or outstanding, the queue is empty and every job has been
processed. -/
structure ExactlyOnce (state : NotificationQueue TypeCode Data) : Prop where
  atMostOnce : (state.processed.map (·.id)).Nodup
  inOrder : state.processed <+: state.enqueued
  oneAtATime : state.drains.length ≤ 1
  emptied : state.drains = [] → state.immediates = 0 →
    state.queue.keys = [] ∧ state.processed = state.enqueued

theorem foldl_takeSnapshot (entries : List (String × NotificationJob TypeCode Data))
    (snapshot : List (NotificationJob TypeCode Data))
    (queue : OrderedMap String (NotificationJob TypeCode Data)) :
    let result := entries.foldl (fun (snapshot, queue) entry ↦
      (snapshot ++ [entry.2], queue.delete entry.1)) (snapshot, queue)
    result.1 = snapshot ++ entries.map Prod.snd ∧
      result.2.entries = queue.entries.filter (·.1 ∉ entries.map Prod.fst) := by
  induction entries generalizing snapshot queue with
  | nil => simp
  | cons entry rest ih =>
    obtain ⟨hsnapshot, hqueue⟩ := ih (snapshot ++ [entry.2]) (queue.delete entry.1)
    refine ⟨hsnapshot.trans (by simp), hqueue.trans ?_⟩
    show (queue.entries.filter _).filter _ = _
    rw [filter_filter]
    refine filter_congr fun other _ ↦ Bool.eq_iff_iff.mpr ?_
    simp only [Bool.and_eq_true, decide_eq_true_eq, map_cons, mem_cons, not_or]
    exact and_comm

theorem takeSnapshot_eq : takeSnapshot queue = (queue.values, OrderedMap.empty) := by
  obtain ⟨hsnapshot, hentries⟩ := foldl_takeSnapshot queue.entries [] queue
  have hempty : (takeSnapshot queue).2.entries = [] := by
    refine hentries.trans (filter_eq_nil_iff.mpr fun entry hentry hkept ↦ ?_)
    exact of_decide_eq_true hkept (mem_map_of_mem hentry)
  refine Prod.ext hsnapshot ?_
  cases hqueue : (takeSnapshot queue).2 with
  | mk entries nodup_keys =>
    rw [hqueue] at hempty
    cases hempty
    rfl

/-! ### The invariant -/

/-- What every state keeps: the active drain, if there is one, holds the flag, the jobs that were
enqueued are accounted for in order, and a job in the queue has a drain ahead of it. -/
structure QueueInvariant (state : NotificationQueue TypeCode Data) : Prop where
  registered : state.registered = true
  active : state.drains.length = if state.draining then 1 else 0
  accounted : state.enqueued =
    state.processed ++ state.drains.flatMap (·.rest) ++ state.queue.values
  keyed : state.queue.keys = state.queue.values.map (·.id)
  nodup : (state.enqueued.map (·.id)).Nodup
  scheduled : state.queue.keys = [] ∨ state.draining = true ∨ 0 < state.immediates

theorem QueueInvariant.initial :
    QueueInvariant (NotificationQueue.initial true : NotificationQueue TypeCode Data) :=
  ⟨rfl, rfl, rfl, rfl, nodup_nil, .inl rfl⟩

section

variable {state : NotificationQueue TypeCode Data} (h : QueueInvariant state) {id : String}
  (hid : id ∉ state.enqueued.map (·.id))
include h hid

theorem QueueInvariant.notMem_keys : id ∉ state.queue.keys := by
  intro hmem
  rw [h.keyed] at hmem
  obtain ⟨job, hjob, rfl⟩ := mem_map.mp hmem
  refine hid (mem_map_of_mem ?_)
  rw [h.accounted]
  exact mem_append_right _ hjob

theorem QueueInvariant.enqueue (now : ℕ) (typeCode : TypeCode) (environmentId : Option String)
    (data : Data) : QueueInvariant (enqueue state id now typeCode environmentId data).1 := by
  have hkey := h.notMem_keys hid
  set job : NotificationJob TypeCode Data := ⟨id, typeCode, environmentId, data, now⟩ with hjob
  have hvalues := OrderedMap.values_set_of_notMem job hkey
  refine ⟨h.registered, h.active, ?_, ?_, ?_, .inr (.inr (Nat.succ_pos _))⟩
  · show state.enqueued ++ [job] =
      state.processed ++ state.drains.flatMap (·.rest) ++ (state.queue.set id job).values
    rw [hvalues, h.accounted, append_assoc]
  · show (state.queue.set id job).keys = (state.queue.set id job).values.map (·.id)
    rw [hvalues, OrderedMap.keys_set, if_neg hkey, h.keyed, map_append, map_singleton]
  · show ((state.enqueued ++ [job]).map (·.id)).Nodup
    rw [map_append, map_singleton]
    exact h.nodup.append (nodup_singleton id) (disjoint_singleton.mpr hid)

end

theorem drains_drainLoop : (drainLoop state).1.drains = state.drains := by
  unfold drainLoop process
  split_ifs
  · split
    · rfl
    · rfl
  · split
    · rfl
    · rfl
  · rfl

/-- The `while` loop of a drain that holds the flag, with no other drain waiting. -/
theorem drainLoop_spec {state : NotificationQueue TypeCode Data}
    (hregistered : state.registered = true)
    (haccounted : state.enqueued = state.processed ++ state.queue.values)
    (hkeyed : state.queue.keys = state.queue.values.map (·.id))
    (hnodup : (state.enqueued.map (·.id)).Nodup) (hdraining : state.draining = true) :
    QueueInvariant { (drainLoop state).1 with drains := (drainLoop state).2.toList } := by
  by_cases hempty : state.queue.keys = []
  · have hloop : drainLoop state = ({ state with draining := false }, none) := by
      unfold drainLoop
      rw [if_neg (by simp [hempty])]
    rw [hloop]
    exact ⟨hregistered, rfl, by simpa using haccounted, hkeyed, hnodup, .inl hempty⟩
  · obtain ⟨job, rest, hvalues⟩ : ∃ job rest, state.queue.values = job :: rest := by
      refine exists_cons_of_ne_nil fun hnil ↦ hempty ?_
      rw [hkeyed, hnil, map_nil]
    have hloop : drainLoop state = ({ state with
        queue := OrderedMap.empty
        processed := state.processed ++ [job] }, some ⟨job, rest⟩) := by
      unfold drainLoop process
      rw [if_pos (length_pos_iff.mpr hempty), takeSnapshot_eq, hvalues]
      simp only [hregistered, if_true]
    rw [hloop]
    refine ⟨hregistered, by simp [hdraining], ?_, rfl, hnodup, .inl rfl⟩
    show state.enqueued = state.processed ++ [job] ++ [⟨job, rest⟩].flatMap Drain.rest ++ []
    rw [haccounted, hvalues]
    simp

/-- A drain that was called takes nothing from an active one. -/
theorem QueueInvariant.drain {state : NotificationQueue TypeCode Data} (h : QueueInvariant state)
    (immediates : ℕ) : QueueInvariant (drain { state with immediates := immediates }) := by
  unfold Notifications.drain
  by_cases hdraining : state.draining = true
  · rw [if_pos hdraining]
    exact ⟨h.registered, h.active, h.accounted, h.keyed, h.nodup, .inr (.inl hdraining)⟩
  · have hdrains : state.drains = [] := by
      have hactive := h.active
      rw [if_neg hdraining] at hactive
      exact length_eq_zero_iff.mp hactive
    rw [if_neg hdraining]
    split_ifs with hempty
    · exact ⟨h.registered, h.active, h.accounted, h.keyed, h.nodup,
        .inl (length_eq_zero_iff.mp hempty)⟩
    · have haccounted : state.enqueued = state.processed ++ state.queue.values := by
        rw [h.accounted, hdrains, flatMap_nil, append_nil]
      have hloop := drainLoop_spec
        (show ({ state with immediates := immediates, draining := true } :
          NotificationQueue TypeCode Data).registered = true from h.registered)
        haccounted h.keyed h.nodup rfl
      have hsame : ∀ waiting : List (Drain TypeCode Data), state.drains ++ waiting = waiting :=
        fun waiting ↦ by rw [hdrains, nil_append]
      show QueueInvariant { (drainLoop _).1 with
        drains := (drainLoop _).1.drains ++ (drainLoop _).2.toList }
      rw [drains_drainLoop]
      show QueueInvariant { (drainLoop _).1 with drains := state.drains ++ (drainLoop _).2.toList }
      rw [hsame]
      exact hloop

theorem QueueInvariant.resume {state after : NotificationQueue TypeCode Data}
    (h : QueueInvariant state) {index : ℕ} {outcome : Except String Unit}
    (hresume : resume state index outcome = some after) : QueueInvariant after := by
  obtain ⟨waiting, hwaiting, rfl⟩ := Option.map_eq_some_iff.mp hresume
  have hactive := h.active
  obtain ⟨hindex, hget⟩ := List.getElem?_eq_some_iff.mp hwaiting
  have hdraining : state.draining = true := by
    by_contra hfalse
    rw [if_neg hfalse] at hactive
    omega
  rw [if_pos hdraining] at hactive
  obtain ⟨only, honly⟩ := length_eq_one_iff.mp hactive
  have hzero : index = 0 := by omega
  subst hzero
  have hsame : only = waiting := by
    rw [← hget]
    simp [honly]
  subst hsame
  have haccounted : state.enqueued = state.processed ++ only.rest ++ state.queue.values := by
    rw [h.accounted, honly, flatMap_singleton]
  have hcut : ∀ next : List (Drain TypeCode Data),
      state.drains.take 0 ++ next ++ state.drains.drop 1 = next := by
    intro next
    rw [honly]
    simp
  cases hrest : only.rest with
  | cons job rest =>
    rw [hrest] at haccounted
    have hnext := hcut [⟨job, rest⟩]
    refine ⟨h.registered, ?_, ?_, h.keyed, h.nodup, .inr (.inl hdraining)⟩
    · show List.length (state.drains.take 0 ++ [⟨job, rest⟩] ++ state.drains.drop 1) =
        if state.draining then 1 else 0
      rw [if_pos hdraining]
      exact congrArg List.length hnext
    · show state.enqueued = state.processed ++ [job] ++
        List.flatMap Drain.rest (state.drains.take 0 ++ [⟨job, rest⟩] ++ state.drains.drop 1) ++
          state.queue.values
      rw [hnext, haccounted, flatMap_singleton, append_cons]
  | nil =>
    rw [hrest, append_nil] at haccounted
    have hloop := drainLoop_spec h.registered haccounted h.keyed h.nodup hdraining
    show QueueInvariant { (drainLoop state).1 with
      drains := (drainLoop state).1.drains.take 0 ++ (drainLoop state).2.toList ++
        (drainLoop state).1.drains.drop 1 }
    rw [drains_drainLoop, hcut]
    exact hloop

theorem QueueInvariant.next {state after : NotificationQueue TypeCode Data}
    {event : QueueEvent TypeCode Data} (h : QueueInvariant state)
    (hnext : queueMachine.next state event = some after) : QueueInvariant after := by
  cases event with
  | enqueue id now typeCode environmentId data =>
    obtain ⟨hid, hafter⟩ := Option.ite_none_left_eq_some.mp hnext
    obtain rfl := Option.some.inj hafter
    exact h.enqueue hid now typeCode environmentId data
  | immediate =>
    obtain ⟨-, hafter⟩ := Option.ite_none_left_eq_some.mp hnext
    obtain rfl := Option.some.inj hafter
    exact h.drain _
  | schedulerDrain =>
    obtain rfl := Option.some.inj hnext
    exact h.drain state.immediates
  | settled index outcome =>
    exact h.resume (show Notifications.resume state index outcome = some after from hnext)

theorem QueueInvariant.sound {state : NotificationQueue TypeCode Data}
    (h : QueueInvariant state) : ExactlyOnce state := by
  have hbegins : state.processed <+: state.enqueued := by
    rw [h.accounted, append_assoc]
    exact prefix_append _ _
  refine ⟨h.nodup.sublist (hbegins.sublist.map _), hbegins, ?_, fun hdrains himmediates ↦ ?_⟩
  · rw [h.active]
    split_ifs
    · exact Nat.le_refl 1
    · exact Nat.zero_le 1
  · have hdraining : ¬ state.draining = true := by
      intro hdraining
      have hactive := h.active
      rw [if_pos hdraining, hdrains] at hactive
      exact absurd hactive Nat.zero_ne_one
    have hkeys : state.queue.keys = [] := by
      rcases h.scheduled with hkeys | hflag | hpositive
      · exact hkeys
      · exact absurd hflag hdraining
      · exact absurd himmediates (Nat.ne_of_gt hpositive)
    refine ⟨hkeys, ?_⟩
    have hvalues : state.queue.values = [] := by
      have hmap := h.keyed
      rw [hkeys] at hmap
      exact map_eq_nil_iff.mp hmap.symm
    rw [h.accounted, hdrains, hvalues, flatMap_nil, append_nil, append_nil]

/-- In every interleaving of enqueues, drains and outcomes of the processor, with a processor
registered. -/
theorem exactlyOnce {events : List (QueueEvent TypeCode Data)}
    {state : NotificationQueue TypeCode Data}
    (hrun : queueMachine.run (NotificationQueue.initial true) events = some state) :
    ExactlyOnce state := by
  have hstep : ∀ (_ : List (QueueEvent TypeCode Data)) (before : NotificationQueue TypeCode Data)
      event after, QueueInvariant before → queueMachine.next before event = some after →
        QueueInvariant after := fun _ _ _ _ hbefore hnext ↦ hbefore.next hnext
  exact (Machine.induction QueueInvariant.initial hstep hrun).sound

/-- The processor enqueues a job while it has the first of two, and the second drain comes early. -/
def reentrantEvents : List (QueueEvent Unit Unit) :=
  [.enqueue "a" 0 () none (), .enqueue "b" 0 () none (), .immediate, .enqueue "c" 1 () none (),
    .immediate, .settled 0 (.error "Mailer is down"), .immediate, .settled 0 (.ok ()),
    .settled 0 (.ok ())]

def reentrantRun : Option (NotificationQueue Unit Unit) :=
  queueMachine.run (NotificationQueue.initial true) reentrantEvents

theorem exactlyOnce_reentrant :
    ∃ state, reentrantRun = some state ∧ state.processed.map (·.id) = ["a", "b", "c"] ∧
      state.drains.length = 0 ∧ state.immediates = 0 ∧ ExactlyOnce state := by
  have hsome : reentrantRun.isSome := by decide
  have hrun : reentrantRun = some (reentrantRun.get hsome) := (Option.some_get hsome).symm
  exact ⟨_, hrun, rfl, rfl, rfl, exactlyOnce hrun⟩

end Bridgeport.Notifications
