import Bridgeport.Bootstrap.BootstrapService
import Bridgeport.Foundation.HeldKeys
import Bridgeport.Foundation.Threads

/-!
# The bootstrap lock

Requests and direct calls of `runBootstrap` run at once over the set `runningBootstraps`. A run
holds the lock from the call that takes it to the one that gives it back. The stage of a run is what
it can do with the lock next: `lockProtocol` says which calls it may make at a stage, and
`Task.follows` that the two programs keep to it and how they end.
-/

namespace Bridgeport.Bootstrap

open Foundation Program

/-- `runningBootstraps`. -/
abbrev RunningBootstraps := Finset String

/-- What the calls read and write of the set; the other calls may be answered in any way. -/
def lockSemantics : Semantics Answer RunningBootstraps where
  allows running event :=
    match event with
    | ⟨.addRunning id, .ok added⟩ => added = decide (id ∉ running)
    | ⟨.tryAcquireBootstrapLock id, .ok acquired⟩ => acquired = decide (id ∉ running)
    | ⟨.addRunning _, .error _⟩ | ⟨.tryAcquireBootstrapLock _, .error _⟩
    | ⟨.deleteRunning _, .error _⟩ | ⟨.releaseBootstrapLock _, .error _⟩ => False
    | _ => True
  after running event :=
    match event.call with
    | .addRunning id | .tryAcquireBootstrapLock id => insert id running
    | .deleteRunning id | .releaseBootstrapLock id => running.erase id
    | _ => running

/-- The programs that run at once: a request, and a call of `runBootstrap` from elsewhere. -/
inductive Task
  | request (serverId : String) (opts : BootstrapOptions)
  | direct (serverId : String) (opts : BootstrapOptions)

variable (task : Task) (log : List (Event Answer))

namespace Task

def serverId : Task → String
  | .request serverId _ => serverId
  | .direct serverId _ => serverId

@[reducible]
def Outcome : Task → Type
  | .request _ _ => Reply
  | .direct _ _ => BootstrapResult

def program : (task : Task) → Async task.Outcome
  | .request serverId opts => startBootstrap serverId opts
  | .direct serverId opts => runBootstrap serverId opts false

/-- The task calls `runBootstrap` itself. -/
def Direct : Task → Prop
  | .request _ _ => False
  | .direct _ _ => True

/-- The task has not begun, or has come to its end. -/
def Settled : Prop :=
  log = [] ∨ ∃ result, Traces task.program log (some result)

/-- The body of `runBootstrap` has begun and has a call to make. The call that follows the body in
the route is the release. -/
def Executing : Prop :=
  (∃ event ∈ log, ∃ id, event.call = .addRunning id) ∧
    ∃ request, (∀ id, request ≠ .releaseBootstrapLock id) ∧
      ∀ answer, Traces task.program (log ++ [⟨request, answer⟩]) none

end Task

section

variable {ι : Type*} [DecidableEq ι] (tasks : ι → Task)

/-- A run of tasks; at first no bootstrap is running. -/
def Runs (log : Trail ι Answer) : Prop :=
  Concurrent (fun thread ↦ (tasks thread).program) lockSemantics ∅ log

/-- `runningBootstraps` after a log. -/
def runningAfter (log : Trail ι Answer) : RunningBootstraps :=
  lockSemantics.final ∅ (log.map Prod.snd)

/-- The lock is exclusive and has been released: one body at most executes for a server, and a server
whose runs have all settled is not in the set. -/
structure LockKept (tasks : ι → Task) (log : Trail ι Answer) : Prop where
  exclusive : ∀ first second, (tasks first).Executing (projection first log) →
    (tasks second).Executing (projection second log) →
    (tasks first).serverId = (tasks second).serverId → first = second
  released : ∀ id, (∀ thread, (tasks thread).serverId = id →
    (tasks thread).Settled (projection thread log)) → id ∉ runningAfter log

/-- The server whose lock a run holds, after a call. -/
def holding : Option String → Event Answer → Option String
  | _, ⟨.addRunning id, .ok true⟩ => some id
  | _, ⟨.tryAcquireBootstrapLock id, .ok true⟩ => some id
  | _, ⟨.deleteRunning _, _⟩ => none
  | _, ⟨.releaseBootstrapLock _, _⟩ => none
  | held, _ => held

/-- The server whose lock a run has taken and not given back. -/
def heldLock : Option String :=
  log.foldl holding none

/-- The query of a direct call does not throw, and a release finds no lock that another run holds. -/
def Orderly (before : Trail ι Answer) (entry : ι × Event Answer) : Prop :=
  match entry.2 with
  | ⟨.findServer _, .error _⟩ => ¬ (tasks entry.1).Direct
  | ⟨.releaseBootstrapLock id, _⟩ =>
    ∀ other ≠ entry.1, heldLock (projection other before) ≠ some id
  | _ => True

end

inductive Stage
  /-- A direct call has not begun. -/
  | direct (serverId : String)
  /-- A request has not taken the lock. -/
  | request (serverId : String)
  /-- A request has taken the lock and has not started its run. -/
  | reserved (serverId : String)
  /-- The body executes. -/
  | running (serverId : String)
  /-- The first query of the body has thrown. -/
  | threw (serverId : String)
  /-- The lock has been refused or given back. -/
  | over

namespace Stage

def held : Stage → Option String
  | .direct _ | .request _ | .over => none
  | .reserved serverId | .running serverId | .threw serverId => some serverId

/-- The calls that a run may make at a stage. -/
def permits : Stage → Call → Prop
  | .direct serverId, .addRunning id => id = serverId
  | .request _, .findServer _ => True
  | .request serverId, .tryAcquireBootstrapLock id => id = serverId
  | .reserved _, .createAuditLog _ => True
  | .reserved serverId, .addRunning id => id = serverId
  | .reserved serverId, .releaseBootstrapLock id => id = serverId
  | .running _, .addRunning _ => False
  | .running _, .tryAcquireBootstrapLock _ => False
  | .running _, .releaseBootstrapLock _ => False
  | .running serverId, .deleteRunning id => id = serverId
  | .running _, _ => True
  | .threw serverId, .releaseBootstrapLock id => id = serverId
  | .over, .releaseBootstrapLock _ => True
  | _, _ => False

def advance : Stage → Event Answer → Stage
  | .direct serverId, ⟨.addRunning _, .ok true⟩ => .running serverId
  | .direct _, ⟨.addRunning _, _⟩ => .over
  | .request serverId, ⟨.tryAcquireBootstrapLock _, .ok true⟩ => .reserved serverId
  | .request _, ⟨.tryAcquireBootstrapLock _, _⟩ => .over
  | .reserved serverId, ⟨.addRunning _, _⟩ => .running serverId
  | .reserved _, ⟨.releaseBootstrapLock _, _⟩ => .over
  | .running serverId, ⟨.findServer _, .error _⟩ => .threw serverId
  | .running _, ⟨.deleteRunning _, _⟩ => .over
  | .threw _, ⟨.releaseBootstrapLock _, _⟩ => .over
  | stage, _ => stage

end Stage

def lockProtocol : Protocol Answer Stage where
  permits := Stage.permits
  advance := Stage.advance
  expects event :=
    match event with
    | ⟨.addRunning _, .error _⟩ | ⟨.tryAcquireBootstrapLock _, .error _⟩
    | ⟨.deleteRunning _, .error _⟩ | ⟨.releaseBootstrapLock _, .error _⟩ => False
    | _ => True

def Task.stage : Task → Stage
  | .request serverId _ => .request serverId
  | .direct serverId _ => .direct serverId

/-! ### What the functions do with the lock -/

/-- A call of the body that is made between the first query and the release. -/
def Call.Inner : Call → Prop
  | .addRunning _ | .deleteRunning _ | .tryAcquireBootstrapLock _ | .releaseBootstrapLock _
  | .findServer _ => False
  | _ => True

variable {next : ComponentResults → Async ClientEnd}

section

variable {serverId : String}

/-- A run that makes inner calls only. -/
abbrev Inside {α : Type} (serverId : String) (program : Async α) : Prop :=
  program.Stays lockProtocol (.running serverId)

theorem inside_await {request : Call} (h : request.Inner) : Inside serverId (await request) := by
  refine stays_perform ?_ fun answer ↦ ?_
  · cases request <;> first | exact trivial | exact h.elim
  · cases request <;> first | rfl | exact h.elim

theorem inside_logAudit (entry : AuditEntry) : Inside serverId (logAudit entry) :=
  (inside_await (by trivial)).tryCatch fun _ ↦ stays_pure _ _

theorem inside_detectDistro (id : String) (cachedDistro : Option String) :
    Inside serverId (detectDistro id cachedDistro) := by
  refine (inside_await (by trivial)).bind fun result ↦ ?_
  exact (stays_pure _ _).ite (((inside_await (by trivial)).when).bind fun _ ↦ stays_pure _ _)

theorem inside_preflightSudo : Inside serverId preflightSudo := by
  refine (inside_await (by trivial)).bind fun result ↦ ?_
  exact (stays_pure _ _).ite (stays_pure _ _)

theorem inside_runScript (script : Script) (name : String) :
    Inside serverId (runScript script name) :=
  (inside_await (by trivial)).bind fun _ ↦ (stays_pure _ _).ite (stays_pure _ _)

variable {server : Server} {opts : BootstrapOptions} {id : String}

theorem inside_finalizeError (message : String) (details : AuditDetails) :
    Inside serverId (finalizeError id server opts message details) :=
  (inside_await (by trivial)).bind fun _ ↦ inside_logAudit _

theorem inside_checkServer : Inside serverId (checkServer id server opts) := by
  refine (inside_await (by trivial)).bind fun _ ↦ (inside_detectDistro _ _).bind fun distroResult ↦ ?_
  refine ((inside_finalizeError _ _).bind fun _ ↦ stays_pure _ _).ite
    (inside_preflightSudo.bind fun sudoError ↦ ?_)
  cases sudoError with
  | none => exact stays_pure _ _
  | some error => exact (inside_finalizeError _ _).bind fun _ ↦ stays_pure _ _

variable {results : ComponentResults}

theorem inside_attempt {α : Type} {program : Async α} {next : α → Async ClientEnd}
    (hprogram : Inside serverId program) (hnext : ∀ value, Inside serverId (next value)) :
    Inside serverId (attempt results program next) := by
  refine hprogram.resume fun result ↦ ?_
  cases result with
  | ok value => exact hnext value
  | error message => exact stays_pure _ _

theorem inside_runComponent {install : Async ComponentResult} {data : ServerUpdate}
    {record : ComponentResult → ComponentResults} (hinstall : Inside serverId install)
    (hnext : ∀ results, Inside serverId (next results)) :
    Inside serverId (runComponent id install data record results next) :=
  inside_attempt hinstall fun _ ↦
    inside_attempt (inside_await (by trivial)).when fun _ ↦ hnext _

theorem inside_runSwap (hnext : ∀ results, Inside serverId (next results)) :
    Inside serverId (runSwap id opts results next) := by
  refine Stays.ite ?_ (hnext results)
  split
  · exact hnext _
  · exact inside_attempt (inside_await (by trivial)) fun _ ↦
      inside_runComponent ((stays_pure _ _).ite (inside_runScript _ _)) hnext

theorem inside_runOnClient : Inside serverId (runOnClient id server opts) := by
  refine inside_attempt inside_checkServer fun ended ↦ ?_
  cases ended with
  | some result => exact stays_pure _ _
  | none =>
    have hswap : ∀ results, Inside serverId
        (runSwap id opts results fun results ↦ pure (.finished results)) :=
      fun results ↦ inside_runSwap fun _ ↦ stays_pure _ _
    have hsysctl : ∀ results, Inside serverId (runSysctl id opts results fun results ↦
        runSwap id opts results fun results ↦ pure (.finished results)) :=
      fun results ↦ (inside_runComponent (inside_runScript _ _) hswap).ite (hswap _)
    exact (inside_runComponent (inside_runScript _ _) hsysctl).ite (hsysctl _)

theorem inside_catchClient (clientEnd : ClientEnd) :
    Inside serverId (catchClient id server opts clientEnd) := by
  cases clientEnd with
  | returned _ | finished _ => exact stays_pure _ _
  | threw message results => exact (inside_finalizeError _ _).bind fun _ ↦ stays_pure _ _

theorem inside_runAgent (results : ComponentResults) : Inside serverId (runAgent id opts results) :=
  ((inside_await (by trivial)).bind fun _ ↦ (inside_await (by trivial)).when.bind fun _ ↦
    stays_pure _ _).ite (stays_pure _ _)

/-- The block of `runBootstrap` behind which the lock is released. -/
theorem inside_bootstrapServer : Inside serverId (bootstrapServer id server opts) := by
  refine (inside_await (by trivial)).bind fun client ↦ ?_
  cases client with
  | error clientError => exact (inside_finalizeError _ _).bind fun _ ↦ stays_pure _ _
  | ok _ =>
    have hclient : Inside serverId
        (runOnClient id server opts >>= fun clientEnd ↦ catchClient id server opts clientEnd) :=
      inside_runOnClient.bind fun clientEnd ↦ inside_catchClient clientEnd
    refine (hclient.tryFinally (inside_await (by trivial))).bind fun ended ↦ ?_
    cases ended with
    | inl result => exact stays_pure _ _
    | inr results => exact (inside_runAgent _).bind fun _ ↦ (inside_await (by trivial)).bind fun _ ↦
      (inside_logAudit _).bind fun _ ↦ stays_pure _ _

end

/-! ### The functions that take and release it -/

/-- A run of the body has given back the lock, or its first query has thrown. -/
def BodyEnded (serverId : String) {α : Type} (result : Except String α) (stage : Stage) : Prop :=
  stage = .over ∨ stage = .threw serverId ∧ ∃ message, result = .error message

section

variable (serverId : String) (opts : BootstrapOptions)

theorem follows_runAdmitted :
    (runAdmitted serverId opts).Follows lockProtocol (BodyEnded serverId) (.running serverId) := by
  refine follows_perform_bind trivial (fun server _ ↦ ?_) fun message ↦ .inr ⟨rfl, message, rfl⟩
  cases server with
  | none =>
    exact follows_perform_bind rfl (fun _ _ ↦ .inl rfl) fun _ ↦ .inl rfl
  | some server =>
    refine follows_tryFinally (inside_bootstrapServer.follows fun result ↦ ?_)
    refine ⟨rfl, fun answer _ ↦ ?_⟩
    cases answer with
    | ok _ | error _ => exact .inl rfl

/-- A direct call of `runBootstrap`. -/
theorem follows_runBootstrap_direct :
    (runBootstrap serverId opts false).Follows lockProtocol (BodyEnded serverId)
      (.direct serverId) := by
  refine follows_perform_bind rfl (fun acquiredHere _ ↦ ?_) fun _ ↦ .inl rfl
  cases acquiredHere with
  | false => exact .inl rfl
  | true => exact follows_runAdmitted serverId opts

/-- The call of `runBootstrap` in the route. -/
theorem follows_runBootstrap_reserved :
    (runBootstrap serverId opts true).Follows lockProtocol (BodyEnded serverId)
      (.reserved serverId) := by
  refine ⟨rfl, fun answer hexpects ↦ ?_⟩
  cases answer with
  | error message => exact hexpects.elim
  | ok acquiredHere =>
    cases acquiredHere with
    | false | true => exact follows_runAdmitted serverId opts

end

variable {stage : Stage} {serverId : String}

/-- A release behind the body, or instead of it. -/
theorem follows_release (hpermits : stage.permits (.releaseBootstrapLock serverId))
    (hover : ∀ answer, stage.advance ⟨.releaseBootstrapLock serverId, answer⟩ = .over) :
    (await (.releaseBootstrapLock serverId)).Follows lockProtocol (fun _ stage ↦ stage = .over)
      stage :=
  ⟨hpermits, fun answer _ ↦ hover answer⟩

theorem follows_startBootstrap (id : String) (opts : BootstrapOptions) :
    (startBootstrap id opts).Follows lockProtocol (fun _ stage ↦ stage.held = none)
      (.request id) := by
  refine follows_perform_bind trivial (fun server _ ↦ ?_) fun _ ↦ rfl
  cases server with
  | none => exact rfl
  | some server =>
    refine follows_perform_bind rfl (fun acquired _ ↦ ?_) fun _ ↦ rfl
    cases acquired with
    | false => exact rfl
    | true =>
      have haudit : ∀ entry, (logAudit entry).Stays lockProtocol (.reserved id) :=
        fun entry ↦ (stays_perform trivial fun _ ↦ rfl).tryCatch fun _ ↦ stays_pure _ _
      refine follows_bind (follows_tryCatch ((haudit _).follows fun result ↦ ?_))
      cases result with
      | error message =>
        refine follows_bind ((follows_release (by exact rfl) fun _ ↦ rfl).mono fun ended stage hstage ↦ ?_)
        cases ended with
        | ok _ | error _ => exact hstage ▸ rfl
      | ok _ =>
        refine follows_bind (follows_tryCatch (follows_bind ?_))
        refine (follows_runBootstrap_reserved id opts).mono fun ended stage hended ↦ ?_
        cases ended with
        | ok result =>
          rcases hended with rfl | ⟨-, message, hmessage⟩
          · exact rfl
          · nomatch hmessage
        | error message =>
          refine (follows_release ?_ ?_).mono fun released stage hstage ↦ ?_
          · rcases hended with rfl | ⟨rfl, -⟩
            · exact trivial
            · exact rfl
          · rcases hended with rfl | ⟨rfl, -⟩
            · exact fun _ ↦ rfl
            · exact fun _ ↦ rfl
          · cases released with
            | ok _ | error _ => exact hstage ▸ rfl

/-- How a task ends: a request without the lock, and a direct call without it unless its first query
has thrown. -/
def Task.Ended (stage : Stage) : Prop :=
  stage.held = none ∨ task.Direct ∧ stage = .threw task.serverId

theorem Task.follows :
    task.program.Follows lockProtocol (fun _ stage ↦ task.Ended stage) task.stage := by
  cases task with
  | request serverId opts =>
    exact (follows_startBootstrap serverId opts).mono fun _ _ hstage ↦ .inl hstage
  | direct serverId opts =>
    refine (follows_runBootstrap_direct serverId opts).mono fun _ stage hstage ↦ ?_
    rcases hstage with rfl | ⟨hthrew, -⟩
    · exact .inl rfl
    · exact .inr ⟨trivial, hthrew⟩

/-! ### Runs of the bootstrap lock -/

variable {log : List (Event Answer)}

section

open List Function

def Stage.Belongs (serverId : String) : Stage → Prop
  | .direct id | .request id | .reserved id | .running id | .threw id => id = serverId
  | .over => True

variable {id : String}

namespace Stage

variable {stage : Stage} {event : Event Answer} {serverId : String}

theorem Belongs.advance (h : stage.Belongs serverId) : (stage.advance event).Belongs serverId := by
  unfold Stage.advance
  split <;> first | exact h | exact trivial

theorem Belongs.held_eq (h : stage.Belongs serverId) (hheld : stage.held = some id) :
    id = serverId := by
  cases stage with
  | direct _ | request _ | «over» => nomatch hheld
  | reserved _ | running _ | threw _ => exact (Option.some.inj hheld).symm.trans h

theorem held_advance (hpermits : stage.permits event.call) (hexpects : lockProtocol.expects event) :
    (stage.advance event).held = holding stage.held event := by
  obtain ⟨request, answer⟩ := event
  cases stage <;> cases request <;>
    first
    | exact hpermits.elim
    | rfl
    | cases answer with
      | error message => first | exact hexpects.elim | rfl
      | ok added => cases added <;> first | rfl | exact congrArg some hpermits.symm

/-- Only the first query of the body leads to this stage. -/
theorem eq_threw_of_advance (h : stage.advance event = .threw id) :
    stage = .threw id ∨ ∃ serverId message, event = ⟨.findServer serverId, .error message⟩ := by
  unfold Stage.advance at h
  split at h
  case h_7 => exact .inr ⟨_, _, rfl⟩
  case h_10 => exact .inl h
  all_goals cases h

end Stage

theorem held_state (haccepts : lockProtocol.Accepts stage log)
    (hexpects : ∀ event ∈ log, lockProtocol.expects event) :
    (lockProtocol.state stage log).held = log.foldl holding stage.held := by
  induction log generalizing stage with
  | nil => rfl
  | cons event rest ih =>
    have hrest := ih haccepts.2 fun later hlater ↦ hexpects later (mem_cons_of_mem _ hlater)
    refine hrest.trans ?_
    rw [foldl_cons, ← Stage.held_advance haccepts.1 (hexpects event mem_cons_self)]
    rfl

def Stage.Entered : Stage → Prop
  | .running _ | .threw _ | .over => True
  | .direct _ | .request _ | .reserved _ => False

theorem Stage.Entered.advance (h : stage.Entered) (event : Event Answer) :
    (stage.advance event).Entered := by
  unfold Stage.advance
  split <;> first | exact h | exact trivial

theorem Stage.Entered.state (h : stage.Entered) (log : List (Event Answer)) :
    (lockProtocol.state stage log).Entered := by
  induction log generalizing stage with
  | nil => exact h
  | cons event rest ih => exact ih (h.advance event)

/-- A run that has passed the entry of `runBootstrap`. -/
theorem entered_of_mem (haccepts : lockProtocol.Accepts stage log) {event : Event Answer}
    (hevent : event ∈ log) (hcall : event.call = .addRunning id) :
    (lockProtocol.state stage log).Entered := by
  induction log generalizing stage with
  | nil => exact absurd hevent not_mem_nil
  | cons first rest ih =>
    rcases mem_cons.mp hevent with rfl | hrest
    · refine Stage.Entered.state ?_ rest
      obtain ⟨request, answer⟩ := event
      obtain rfl : request = .addRunning id := hcall
      have hpermits : stage.permits (.addRunning id) := haccepts.1
      cases stage with
      | direct serverId =>
        cases answer with
        | error message => exact trivial
        | ok added => cases added <;> exact trivial
      | reserved serverId => exact trivial
      | request _ | running _ | threw _ | «over» => exact hpermits.elim
    · exact ih haccepts.2 hrest

theorem exists_expected (request : Call) : ∃ answer, lockProtocol.expects ⟨request, answer⟩ := by
  cases request with
  | addRunning | tryAcquireBootstrapLock => exact ⟨.ok true, trivial⟩
  | deleteRunning | releaseBootstrapLock => exact ⟨.ok (), trivial⟩
  | _ => exact ⟨.error "", trivial⟩

theorem belongs_state (h : stage.Belongs serverId) (log : List (Event Answer)) :
    (lockProtocol.state stage log).Belongs serverId := by
  induction log generalizing stage with
  | nil => exact h
  | cons event rest ih => exact ih h.advance

/-- A task whose body executes holds the lock. -/
theorem Task.Executing.held {task : Task} (h : task.Executing log)
    (hexpects : ∀ event ∈ log, lockProtocol.expects event) :
    (lockProtocol.state task.stage log).held = some task.serverId := by
  obtain ⟨⟨entry, hentry, id, hcall⟩, request, hrequest, htraces⟩ := h
  obtain ⟨answer, hanswer⟩ := exists_expected request
  have hall : ∀ event ∈ log ++ [⟨request, answer⟩], lockProtocol.expects event := by
    intro event hevent
    rcases mem_append.mp hevent with hlog | hlast
    · exact hexpects event hlog
    · exact mem_singleton.mp hlast ▸ hanswer
  have hpermits := task.follows.permits_last (htraces answer) hall
  have haccepts := (task.follows.sound (htraces answer) hall).1
  rw [lockProtocol.accepts_append] at haccepts
  have hentered := entered_of_mem haccepts.1 hentry hcall
  have hbelongs : task.stage.Belongs task.serverId := by cases task <;> exact rfl
  have hstate := belongs_state hbelongs log
  cases hstage : lockProtocol.state task.stage log with
  | running serverId =>
    rw [hstage] at hstate
    exact congrArg some hstate
  | direct _ | request _ | reserved _ =>
    rw [hstage] at hentered
    exact hentered.elim
  | threw _ | «over» =>
    rw [hstage] at hpermits
    cases request <;> first | exact absurd rfl (hrequest _) | exact hpermits.elim

/-! ### The invariant -/

section

variable {ι : Type*} [DecidableEq ι] {tasks : ι → Task}

/-- The servers in the set are those whose lock is held, and no direct call has lost the lock. -/
structure LockInvariant (tasks : ι → Task) (running : RunningBootstraps) (stages : ι → Stage) :
    Prop where
  held : HeldKeys running fun thread ↦ (stages thread).held
  belongs : ∀ thread, (stages thread).Belongs (tasks thread).serverId
  kept : ∀ thread, (tasks thread).Direct → ∀ id, stages thread ≠ .threw id

/-- The condition on a step, with the stages before it. -/
def StageOrderly (tasks : ι → Task) (stages : ι → Stage) (thread : ι)
    (event : Event Answer) : Prop :=
  match event with
  | ⟨.findServer _, .error _⟩ => ¬ (tasks thread).Direct
  | ⟨.releaseBootstrapLock id, _⟩ => ∀ other ≠ thread, (stages other).held ≠ some id
  | _ => True

omit [DecidableEq ι] in
theorem lockInvariant_initial : LockInvariant tasks ∅ fun thread ↦ (tasks thread).stage where
  held := by
    have hnone : (fun thread ↦ (tasks thread).stage.held) = fun _ ↦ none := by
      funext thread
      cases tasks thread <;> rfl
    rw [hnone]
    exact HeldKeys.empty
  belongs thread := by
    show (tasks thread).stage.Belongs (tasks thread).serverId
    cases tasks thread <;> exact rfl
  kept thread _ id := by
    show (tasks thread).stage ≠ _
    cases tasks thread <;> exact nofun

variable {running : RunningBootstraps} {stages : ι → Stage} {thread : ι} {event : Event Answer}

theorem held_update (stage : Stage) :
    (fun other ↦ (Function.update stages thread stage other).held) =
      Function.update (fun other ↦ (stages other).held) thread stage.held := by
  funext other
  by_cases hother : other = thread
  · simp [hother]
  · simp [hother]

omit [DecidableEq ι] in
/-- What a direct call holds behind its entry. -/
theorem held_advance_direct (id : String) (running : RunningBootstraps) :
    ((Stage.direct id).advance ⟨.addRunning id, .ok (decide (id ∉ running))⟩).held =
      if id ∈ running then none else some id := by
  by_cases hmem : id ∈ running
  · rw [if_pos hmem, decide_eq_false (not_not_intro hmem)]
    rfl
  · rw [if_neg hmem, decide_eq_true hmem]
    rfl

omit [DecidableEq ι] in
/-- What a request holds when it has tried to take the lock. -/
theorem held_advance_request (id : String) (running : RunningBootstraps) :
    ((Stage.request id).advance ⟨.tryAcquireBootstrapLock id, .ok (decide (id ∉ running))⟩).held =
      if id ∈ running then none else some id := by
  by_cases hmem : id ∈ running
  · rw [if_pos hmem, decide_eq_false (not_not_intro hmem)]
    rfl
  · rw [if_neg hmem, decide_eq_true hmem]
    rfl

theorem heldKeys_step (h : HeldKeys running fun other ↦ (stages other).held)
    (hpermits : (stages thread).permits event.call) (hallows : lockSemantics.allows running event)
    (horderly : StageOrderly tasks stages thread event) :
    HeldKeys (lockSemantics.after running event)
      (Function.update (fun other ↦ (stages other).held) thread
        ((stages thread).advance event).held) := by
  obtain ⟨request, answer⟩ := event
  generalize hstage : stages thread = stage at hpermits
  have hthread : (stages thread).held = stage.held := congrArg Stage.held hstage
  cases request with
  | addRunning id =>
    cases answer with
    | error message => exact hallows.elim
    | ok added =>
      obtain rfl : added = decide (id ∉ running) := hallows
      cases stage with
      | direct serverId =>
        obtain rfl : id = serverId := hpermits
        rw [held_advance_direct]
        exact h.tryTake hthread
      | reserved serverId =>
        obtain rfl : id = serverId := hpermits
        exact (h.insert_mem (h.mem hthread)).keep hthread.symm
      | request _ | running _ | threw _ | «over» => exact hpermits.elim
  | tryAcquireBootstrapLock id =>
    cases answer with
    | error message => exact hallows.elim
    | ok acquired =>
      obtain rfl : acquired = decide (id ∉ running) := hallows
      cases stage with
      | request serverId =>
        obtain rfl : id = serverId := hpermits
        rw [held_advance_request]
        exact h.tryTake hthread
      | direct _ | reserved _ | running _ | threw _ | «over» => exact hpermits.elim
  | deleteRunning id =>
    cases stage with
    | running serverId =>
      obtain rfl : id = serverId := hpermits
      exact h.giveBack hthread
    | direct _ | request _ | reserved _ | threw _ | «over» => exact hpermits.elim
  | releaseBootstrapLock id =>
    cases stage with
    | reserved serverId | threw serverId =>
      obtain rfl : id = serverId := hpermits
      exact h.giveBack hthread
    | «over» =>
      refine (h.erase_free fun other hother ↦ ?_).keep hthread.symm
      by_cases hsame : other = thread
      · rw [hsame] at hother
        nomatch hthread.symm.trans hother
      · exact horderly other hsame hother
    | direct _ | request _ | running _ => exact hpermits.elim
  | findServer _ | updateServer _ _ | createAuditLog _ | createClientForServer _ _ _ | connect
  | exec _ | execStream _ | disconnect | deployAgent _ =>
    refine h.keep (Eq.trans ?_ hthread.symm)
    exact Stage.held_advance hpermits (by trivial)

theorem LockInvariant.step (h : LockInvariant tasks running stages)
    (hpermits : (stages thread).permits event.call) (hallows : lockSemantics.allows running event)
    (horderly : StageOrderly tasks stages thread event) :
    LockInvariant tasks (lockSemantics.after running event)
      (Function.update stages thread ((stages thread).advance event)) where
  held := by
    rw [held_update]
    exact heldKeys_step h.held hpermits hallows horderly
  belongs other := by
    by_cases hother : other = thread
    · rw [hother, update_self]
      exact (h.belongs thread).advance
    · rw [update_of_ne hother]
      exact h.belongs other
  kept other hdirect id := by
    by_cases hother : other = thread
    · rw [hother, update_self]
      intro hthrew
      rw [hother] at hdirect
      rcases Stage.eq_threw_of_advance hthrew with hbefore | ⟨serverId, message, rfl⟩
      · exact h.kept thread hdirect id hbefore
      · exact horderly hdirect
    · rw [update_of_ne hother]
      exact h.kept other hdirect id

variable {log : Trail ι Answer}

section

variable (h : Runs tasks log)
include h

/-- The calls that take and release the lock do not throw. -/
theorem Runs.expects : ∀ entry ∈ log, lockProtocol.expects entry.2 := by
  refine Concurrent.expects h (fun _ ↦ True) trivial fun running event _ hallows ↦ ⟨trivial, ?_⟩
  obtain ⟨request, answer⟩ := event
  cases request with
  | addRunning _ | deleteRunning _ | tryAcquireBootstrapLock _ | releaseBootstrapLock _ =>
    cases answer with
    | error message => exact hallows
    | ok _ => exact trivial
  | _ => exact trivial

theorem Runs.expects_projection (thread : ι) :
    ∀ event ∈ projection thread log, lockProtocol.expects event :=
  fun event hevent ↦ h.expects (thread, event) (mem_projection_iff.mp hevent)

theorem Runs.held_eq (thread : ι) :
    (lockProtocol.states (fun thread ↦ (tasks thread).stage) log thread).held =
      heldLock (projection thread log) := by
  have haccepts := ((tasks thread).follows.sound (h.traces thread) (h.expects_projection thread)).1
  refine (held_state haccepts (h.expects_projection thread)).trans ?_
  have hnone : (tasks thread).stage.held = none := by cases tasks thread <;> rfl
  rw [hnone]
  rfl

theorem Runs.stageOrderly (horderly : EveryStep (Orderly tasks) log) :
    EveryStep (fun before entry ↦ StageOrderly tasks
      (lockProtocol.states (fun thread ↦ (tasks thread).stage) before) entry.1 entry.2) log := by
  intro before entry after hsplit
  have hbefore : Runs tasks before := Concurrent.of_append (hsplit ▸ h)
  have hentry := horderly before entry after hsplit
  obtain ⟨thread, request, answer⟩ := entry
  cases request with
  | findServer id =>
    cases answer with
    | error message => exact hentry
    | ok server => exact trivial
  | releaseBootstrapLock id =>
    intro other hother
    rw [hbefore.held_eq other]
    exact hentry other hother
  | _ => exact trivial

theorem Runs.lockInvariant (horderly : EveryStep (Orderly tasks) log) :
    LockInvariant tasks (runningAfter log)
      (lockProtocol.states (fun thread ↦ (tasks thread).stage) log) := by
  refine Concurrent.invariant (fun thread ↦ (tasks thread).follows) (LockInvariant tasks)
    (fun _ stages thread event ↦ StageOrderly tasks stages thread event) lockInvariant_initial ?_
    h h.expects (h.stageOrderly horderly)
  intro running stages thread event hinvariant hpermits hallows hstep
  exact hinvariant.step hpermits hallows hstep

end

theorem Task.Settled.held_eq {task : Task} {events : List (Event Answer)}
    (h : task.Settled events) (hexpects : ∀ event ∈ events, lockProtocol.expects event)
    (hkept : task.Direct → ∀ id, lockProtocol.state task.stage events ≠ .threw id) :
    (lockProtocol.state task.stage events).held = none := by
  rcases h with rfl | ⟨result, htraces⟩
  · cases task <;> rfl
  · rcases (task.follows.sound htraces hexpects).2 result rfl with hnone | ⟨hdirect, hthrew⟩
    · exact hnone
    · exact absurd hthrew (hkept hdirect _)

/-- The lock is exclusive and always released. Assumes: the query of a direct call never throws, and
a release never finds a lock that another run holds. -/
theorem lockKept (tasks : ι → Task) (log : Trail ι Answer) (hruns : Runs tasks log)
    (horderly : EveryStep (Orderly tasks) log) : LockKept tasks log := by
  have hinvariant := hruns.lockInvariant horderly
  have hheld : ∀ thread, (tasks thread).Executing (projection thread log) →
      (lockProtocol.states (fun thread ↦ (tasks thread).stage) log thread).held =
        some (tasks thread).serverId :=
    fun thread h ↦ h.held (hruns.expects_projection thread)
  refine ⟨fun first second hfirst hsecond hserver ↦ ?_, fun id hsettled ↦ ?_⟩
  · refine hinvariant.held.unique first second (tasks first).serverId (hheld first hfirst) ?_
    rw [hserver]
    exact hheld second hsecond
  · refine hinvariant.held.notMem fun thread hthread ↦ ?_
    have hserver := (hinvariant.belongs thread).held_eq hthread
    have hnone := (hsettled thread hserver.symm).held_eq (hruns.expects_projection thread)
      (hinvariant.kept thread)
    nomatch hthread.symm.trans hnone

end

def dockerOnly : BootstrapOptions :=
  ⟨⟨true, false, false, false⟩, none, ⟨some "u1", none, none⟩⟩

def webServer : Server :=
  ⟨"web", "web-1", "10.0.0.5", "env", "remote", none⟩

def webTasks : Bool → Task
  | false => .request "web" dockerOnly
  | true => .direct "web" dockerOnly

/-- The direct call is refused while the request holds the lock, and the row is gone when the run of
the request begins. -/
def webLog : Trail Bool Answer :=
  [(false, ⟨.findServer "web", .ok (some webServer)⟩),
    (false, ⟨.tryAcquireBootstrapLock "web", .ok true⟩),
    (true, ⟨.addRunning "web", .ok false⟩),
    (false, ⟨.createAuditLog ⟨"bootstrap_start", "web", "web-1",
      .start dockerOnly.components none, true, none, "env", dockerOnly.actor⟩, .error "busy"⟩),
    (false, ⟨.addRunning "web", .ok false⟩), (false, ⟨.findServer "web", .ok none⟩),
    (false, ⟨.deleteRunning "web", .ok ()⟩)]

theorem lockKept_webLog : LockKept webTasks webLog := by
  refine lockKept webTasks webLog ⟨fun thread ↦ ?_, ?_⟩ (everyStep_of_stepsAfter ?_)
  · cases thread with
    | false =>
      exact .call _ (.call _ (.call _ (.call _ (.call _ (.call _ (.start _))))))
    | true => exact .call _ (.start _)
  · exact ⟨trivial, rfl, rfl, trivial, rfl, trivial, trivial, trivial⟩
  · exact ⟨trivial, trivial, trivial, trivial, trivial, trivial, trivial, trivial⟩

/-- A direct call whose query throws. -/
def leakLog : Trail Unit Answer :=
  [((), ⟨.addRunning "web", .ok true⟩), ((), ⟨.findServer "web", .error "database is locked"⟩)]

/-- The call has settled and the server is still in the set. -/
theorem not_lockKept : ∃ tasks : Unit → Task, Runs tasks leakLog ∧ ¬ LockKept tasks leakLog := by
  refine ⟨fun _ ↦ .direct "web" dockerOnly, ⟨fun _ ↦ ?_, rfl, trivial, trivial⟩, fun h ↦ ?_⟩
  · exact .call _ (.call _ (.start _))
  · refine absurd (h.released "web" fun thread _ ↦ .inr ⟨.error "database is locked", ?_⟩) ?_
    · exact .call _ (.call _ (.done _))
    · exact not_not_intro (Finset.mem_insert_self "web" ∅)

end

end Bridgeport.Bootstrap
