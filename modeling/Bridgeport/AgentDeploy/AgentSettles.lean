import Bridgeport.AgentDeploy.DeployAgent

/-!
# The token of the agent

Deployments and removals of one server run at once. The row of the server has the token of every
deployment that holds one, and of the unit file, in the runs that keep to `Undisturbed`
(`AgentInvariant`): a token is changed only when no other deployment holds it, and no unit file is
written between its removal and the clearing of the token. A deployment of such a run settles
(`agentSettles`).
-/

namespace Bridgeport.AgentDeploy

open Bootstrap (ExecResult)
open Foundation Program Option Function
open Registries (truthy)

def AgentWorld.token (world : AgentWorld) : Option String :=
  world.server.bind (·.agentToken)

def AgentWorld.status (world : AgentWorld) : Option AgentStatus :=
  world.server.map (·.agentStatus)

def ChangesToken : Event Answer → Prop
  | ⟨.updateToken _, .ok _⟩ | ⟨.markRemoved, .ok _⟩ => True
  | _ => False

variable {file : ServiceFile}

section

variable {lands : String → Bool} {world : AgentWorld} {event : Event Answer}
  {progress : AgentProgress}

theorem token_after (hkeeps : ¬ ChangesToken event) :
    ((agentSemantics lands).after world event).token = world.token := by
  have hrow : ∀ server, (rowChange event server).agentToken = server.agentToken := by
    intro server
    obtain ⟨request, answer⟩ := event
    cases request with
    | updateToken _ | markRemoved =>
      cases answer with
      | ok _ => exact absurd trivial hkeeps
      | error message => rfl
    | _ => cases answer <;> rfl
  exact bind_map.trans (congrArg world.server.bind (funext fun server ↦ hrow server))

/-- A unit file has been there, or is written by the call. -/
theorem serviceFile_after (h : ((agentSemantics lands).after world event).serviceFile = some file) :
    world.serviceFile = some file ∨ ∃ client answer, event = ⟨.writeFile client file, answer⟩ := by
  obtain ⟨request, answer⟩ := event
  cases request with
  | writeFile client written =>
    cases answer with
    | ok _ =>
      obtain rfl : written = file := some.inj h
      exact .inr ⟨client, _, rfl⟩
    | error message =>
      change (if lands message then some written else world.serviceFile) = some file at h
      split_ifs at h with hlands
      · obtain rfl := some.inj h
        exact .inr ⟨client, _, rfl⟩
      · exact .inl h
  | exec client command =>
    refine .inl ?_
    cases command with
    | removeService =>
      cases answer with
      | ok result =>
        change (if result.code = 0 then none else world.serviceFile) = some file at h
        split_ifs at h
        exact h
      | error message =>
        change (if lands message then none else world.serviceFile) = some file at h
        split_ifs at h
        exact h
    | _ => cases answer <;> exact h
  | _ => cases answer <;> exact .inl h

theorem next_error (request : Call) (message : String) :
    progress.next ⟨request, .error message⟩ = progress.thrown ∨
      progress.next ⟨request, .error message⟩ = progress.cutOff := by
  cases request with
  | updateStatus status => cases status <;> first | exact .inl rfl | exact .inr rfl
  | exec client command => cases command <;> exact .inl rfl
  | _ => first | exact .inl rfl | exact .inr rfl

theorem status_after (h : ((agentSemantics lands).after world event).status = some .deploying) :
    event = ⟨.updateStatus .deploying, .ok ()⟩ ∨
      world.status = some .deploying ∧ ∀ progress : AgentProgress,
        (progress.next event).status = progress.status := by
  obtain ⟨request, answer⟩ := event
  have hkept : (∀ server, (rowChange ⟨request, answer⟩ server).agentStatus = server.agentStatus) →
      world.status = some .deploying := fun hrow ↦
    (congrArg (world.server.map ·) (funext hrow)).symm.trans (Option.map_map _ _ _ ▸ h)
  cases answer with
  | error message =>
    refine .inr ⟨hkept fun _ ↦ by cases request <;> rfl, fun progress ↦ ?_⟩
    rcases next_error request message with hnext | hnext <;> rw [hnext] <;> rfl
  | ok value =>
    cases request with
    | updateStatus status =>
      obtain ⟨server, hserver, hstatus⟩ := map_eq_some_iff.mp h
      obtain ⟨row, -, rfl⟩ := map_eq_some_iff.mp hserver
      obtain rfl : status = .deploying := hstatus
      exact .inl rfl
    | markDeployed =>
      obtain ⟨server, hserver, hstatus⟩ := map_eq_some_iff.mp h
      obtain ⟨row, -, rfl⟩ := map_eq_some_iff.mp hserver
      nomatch hstatus
    | findServer =>
      refine .inr ⟨hkept fun _ ↦ rfl, fun progress ↦ ?_⟩
      cases value with
      | none => rfl
      | some server =>
        change (if progress.deploys = true then _ else progress).status = _
        split_ifs <;> rfl
    | agentCallbackUrl =>
      refine .inr ⟨hkept fun _ ↦ rfl, fun progress ↦ ?_⟩
      change (if truthy value = none then _ else progress).status = _
      split_ifs <;> rfl
    | getEnvironmentSshKey environmentId =>
      exact .inr ⟨hkept fun _ ↦ rfl, fun progress ↦ by cases value <;> rfl⟩
    | exec client command =>
      exact .inr ⟨hkept fun _ ↦ rfl, fun progress ↦ by cases command <;> rfl⟩
    | _ => exact .inr ⟨hkept fun _ ↦ rfl, fun progress ↦ rfl⟩

/-- A token that is held after a call has been held before, or the call has read or written it. -/
theorem held_next {read : Option String} (hpermits : mayCall progress event.call)
    (h : (progress.next event).held = some read) :
    (∃ token, event = ⟨.updateToken token, .ok ()⟩ ∧ read = some token) ∨
      ¬ ChangesToken event ∧ (progress.held = some read ∨
        ∃ server, event = ⟨.findServer, .ok (some server)⟩ ∧ read = server.agentToken) := by
  obtain ⟨request, answer⟩ := event
  cases answer with
  | error message =>
    rcases next_error request message with hnext | hnext <;> rw [hnext] at h <;> nomatch h
  | ok value =>
    cases request with
    | findServer =>
      refine .inr ⟨id, ?_⟩
      cases value with
      | none => exact .inl h
      | some server =>
        change (if progress.deploys = true then _ else progress).held = some read at h
        split_ifs at h
        · exact .inr ⟨server, rfl, (some.inj h).symm⟩
        · exact .inl h
    | agentCallbackUrl =>
      change (if truthy value = none then _ else progress).held = some read at h
      split_ifs at h
      exact .inr ⟨id, .inl h⟩
    | updateToken token => exact .inl ⟨token, rfl, (some.inj h).symm⟩
    | logAgentEvent logged =>
      change (if logged.eventType = .deployFailed then none else progress.held) = some read at h
      split_ifs at h
      exact .inr ⟨id, .inl h⟩
    | getEnvironmentSshKey environmentId =>
      cases value with
      | none => nomatch h
      | some creds => exact .inr ⟨id, .inl h⟩
    | exec client command =>
      refine .inr ⟨id, .inl ?_⟩
      cases command <;> exact h
    | writeFile client file => nomatch h
    | markRemoved => nomatch hpermits.2.symm.trans h
    | _ => exact .inr ⟨id, .inl h⟩

theorem deploys_next : (progress.next event).deploys = progress.deploys := by
  unfold AgentProgress.next
  split <;> try split_ifs
  all_goals rfl

/-- A deployment is cut off by the answers that cut it off. -/
theorem cut_next (h : ¬ Cuts event) : (progress.next event).cut = progress.cut := by
  unfold AgentProgress.next
  split <;> try split_ifs
  all_goals first | rfl | exact absurd trivial h

/-- A removal that may still clear the token has removed the unit file before, or does so now. -/
theorem removing_next (h : (progress.next event).removing = true) :
    progress.removing = true ∨ ∃ client result, event = ⟨.exec client .removeService, .ok result⟩ := by
  obtain ⟨request, answer⟩ := event
  cases answer with
  | error message =>
    rcases next_error request message with hnext | hnext <;> rw [hnext] at h <;> nomatch h
  | ok value =>
    cases request with
    | findServer =>
      cases value with
      | none => exact .inl h
      | some server =>
        change (if progress.deploys = true then _ else progress).removing = true at h
        split_ifs at h <;> exact .inl h
    | agentCallbackUrl =>
      change (if truthy value = none then _ else progress).removing = true at h
      split_ifs at h <;> exact .inl h
    | getEnvironmentSshKey environmentId =>
      cases value with
      | none => nomatch h
      | some creds => exact .inl h
    | exec client command =>
      cases command with
      | removeService => exact .inr ⟨client, value, rfl⟩
      | _ => exact .inl h
    | markRemoved => nomatch h
    | _ => exact .inl h

end

section

variable {ι : Type*} {lands : String → Bool} {states : ι → AgentProgress} {thread : ι}
  {world : AgentWorld} {event : Event Answer}

/-- A call of a deployment does not cut it off; a removal removes the unit file; the token is changed
while no other deployment holds it; and no unit file is written while a removal may still clear the
token. -/
structure Undisturbed (states : ι → AgentProgress) (thread : ι) (event : Event Answer) :
    Prop where
  uncut : (states thread).deploys = true → ¬ Cuts event
  removed : ∀ client result, event = ⟨.exec client .removeService, .ok result⟩ → result.code = 0
  alone : ChangesToken event → ∀ other, other ≠ thread → (states other).held = none
  unwritten : ∀ client file answer, event = ⟨.writeFile client file, answer⟩ →
    ∀ other, (states other).removing = false

/-- The token of the row is that of every deployment that holds one, and that of the unit file. -/
structure AgentInvariant (world : AgentWorld) (states : ι → AgentProgress) : Prop where
  held : ∀ thread read, (states thread).held = some read → world.token = read
  file : ∀ file, world.serviceFile = some file →
    world.token = some file.agentToken ∧ file.agentToken ≠ ""
  removing : ∀ thread, (states thread).removing = true → world.serviceFile = none
  status : world.status = some .deploying →
    ∃ thread, (states thread).deploys = true ∧ (states thread).status = some .deploying
  uncut : ∀ thread, (states thread).deploys = true → (states thread).cut = false

theorem truthy_some {token : String} (h : token ≠ "") : truthy (some token) = some token :=
  filter_some_pos (decide_eq_true h)

variable [DecidableEq ι] (h : AgentInvariant world states)
include h

theorem AgentInvariant.held_after (hpermits : mayCall (states thread) event.call)
    (hallows : (agentSemantics lands).allows world event)
    (hundisturbed : Undisturbed states thread event) (other : ι) (read : Option String)
    (hread : (Function.update states thread ((states thread).next event) other).held = some read) :
    ((agentSemantics lands).after world event).token = read := by
  by_cases hother : other = thread
  · rw [hother, update_self] at hread
    rcases held_next hpermits hread with ⟨token, rfl, rfl⟩ | ⟨hkeeps, hheld | ⟨server, rfl, rfl⟩⟩
    · obtain ⟨server, hserver⟩ := isSome_iff_exists.mp hallows
      change (world.server.map _).bind _ = _
      rw [hserver]
      rfl
    · exact (token_after hkeeps).trans (h.held thread read hheld)
    · refine (token_after hkeeps).trans ?_
      have hserver : some server = world.server := hallows
      unfold AgentWorld.token
      rw [← hserver]
      rfl
  · rw [update_of_ne hother] at hread
    have hkeeps : ¬ ChangesToken event := fun hchanges ↦
      absurd ((hundisturbed.alone hchanges other hother).symm.trans hread) nofun
    exact (token_after hkeeps).trans (h.held other read hread)

omit [DecidableEq ι] in
theorem AgentInvariant.file_after (hpermits : mayCall (states thread) event.call)
    (hfile : ((agentSemantics lands).after world event).serviceFile = some file) :
    ((agentSemantics lands).after world event).token = some file.agentToken ∧
      file.agentToken ≠ "" := by
  rcases serviceFile_after hfile with hbefore | ⟨client, answer, rfl⟩
  · obtain ⟨htoken, hne⟩ := h.file file hbefore
    -- no token is written over that of a unit file, and none is cleared before the file is removed
    have hkeeps : ¬ ChangesToken event := by
      intro hchanges
      obtain ⟨request, answer⟩ := event
      cases request with
      | updateToken token =>
        obtain ⟨read, hheld, hmissing, -⟩ := hpermits
        have hread := (h.held thread read hheld).symm.trans htoken
        rw [hread, truthy_some hne] at hmissing
        nomatch hmissing
      | markRemoved => nomatch (h.removing thread hpermits.1).symm.trans hbefore
      | _ => cases answer <;> exact hchanges
    exact ⟨(token_after hkeeps).trans htoken, hne⟩
  · have hkeeps : ¬ ChangesToken ⟨.writeFile client file, answer⟩ := by cases answer <;> exact id
    exact ⟨(token_after hkeeps).trans (h.held thread _ hpermits.1), hpermits.2⟩

theorem AgentInvariant.removing_after (hundisturbed : Undisturbed states thread event) (other : ι)
    (hremoving : (Function.update states thread ((states thread).next event) other).removing = true) :
    ((agentSemantics lands).after world event).serviceFile = none := by
  have hcases : (states other).removing = true ∨
      ∃ client result, event = ⟨.exec client .removeService, .ok result⟩ := by
    by_cases hother : other = thread
    · rw [hother, update_self] at hremoving
      exact hother ▸ removing_next hremoving
    · rw [update_of_ne hother] at hremoving
      exact .inl hremoving
  rcases hcases with hbefore | ⟨client, result, rfl⟩
  · cases hfile : ((agentSemantics lands).after world event).serviceFile with
    | none => rfl
    | some file =>
      rcases serviceFile_after hfile with hwas | ⟨client, answer, hwrites⟩
      · nomatch (h.removing other hbefore).symm.trans hwas
      · have hnot := hundisturbed.unwritten client file answer hwrites other
        exact absurd (hnot.symm.trans hbefore) Bool.false_ne_true
  · exact if_pos (hundisturbed.removed client result rfl)

theorem AgentInvariant.status_after (hpermits : mayCall (states thread) event.call)
    (hstatus : ((agentSemantics lands).after world event).status = some .deploying) :
    ∃ other, (Function.update states thread ((states thread).next event) other).deploys = true ∧
      (Function.update states thread ((states thread).next event) other).status =
        some .deploying := by
  rcases AgentDeploy.status_after hstatus with rfl | ⟨hbefore, hkept⟩
  · refine ⟨thread, ?_⟩
    rw [update_self]
    exact ⟨hpermits, rfl⟩
  · obtain ⟨other, hdeploys, hother⟩ := h.status hbefore
    refine ⟨other, ?_⟩
    by_cases hsame : other = thread
    · rw [hsame] at hdeploys hother
      rw [hsame, update_self, hkept, deploys_next]
      exact ⟨hdeploys, hother⟩
    · rw [update_of_ne hsame]
      exact ⟨hdeploys, hother⟩

omit [DecidableEq ι] in
theorem AgentInvariant.uncut_after (hundisturbed : Undisturbed states thread event)
    (hdeploys : ((states thread).next event).deploys = true) :
    ((states thread).next event).cut = false := by
  rw [deploys_next] at hdeploys
  rw [cut_next (hundisturbed.uncut hdeploys)]
  exact h.uncut thread hdeploys

theorem AgentInvariant.step (hpermits : mayCall (states thread) event.call)
    (hallows : (agentSemantics lands).allows world event)
    (hundisturbed : Undisturbed states thread event) :
    AgentInvariant ((agentSemantics lands).after world event)
      (Function.update states thread ((states thread).next event)) where
  held := h.held_after hpermits hallows hundisturbed
  file _ := h.file_after hpermits
  removing := h.removing_after hundisturbed
  status := h.status_after hpermits
  uncut other hdeploys := by
    by_cases hother : other = thread
    · rw [hother, update_self] at hdeploys ⊢
      exact h.uncut_after hundisturbed hdeploys
    · rw [update_of_ne hother] at hdeploys ⊢
      exact h.uncut other hdeploys

end

section

variable {ι : Type*} [DecidableEq ι] (lands : String → Bool) (world : AgentWorld)

/-- A run of calls for the server. -/
def AgentRuns (tasks : ι → AgentTask) (log : Trail ι Answer) : Prop :=
  Concurrent (fun thread ↦ (tasks thread).program) (agentSemantics lands) world log

def agentAfter (log : Trail ι Answer) : AgentWorld :=
  (agentSemantics lands).final world (log.map Prod.snd)

variable (tasks : ι → AgentTask) (log : Trail ι Answer)

def progressAfter : ι → AgentProgress :=
  agentProtocol.states (fun thread ↦ .start (tasks thread).deploys) log

/-- The server before the calls: it is not being deployed, and a unit file has its token. -/
structure AtRest (world : AgentWorld) : Prop where
  status : world.status ≠ some .deploying
  file : ∀ file, world.serviceFile = some file →
    world.token = some file.agentToken ∧ file.agentToken ≠ ""

/-- A call has returned or thrown. -/
def Ended (thread : ι) (result : Except String DeployResult) : Prop :=
  Traces (tasks thread).program (projection thread log) (some result)

/-- No call is under way. -/
def Quiescent : Prop :=
  ∀ thread, projection thread log = [] ∨ ∃ result, Ended tasks log thread result

/-- What deployments and removals leave. -/
structure AgentSettled (lands : String → Bool) (world : AgentWorld) (tasks : ι → AgentTask)
    (log : Trail ι Answer) : Prop where
  /-- The start of a deployment that has ended is followed by its success or its failure, and the
  mode has been set to `agent` only if it has succeeded. -/
  ends : ∀ thread result, (tasks thread).deploys = true → Ended tasks log thread result →
    DeployEnds result (progressAfter tasks log thread)
  /-- A server that is being deployed has a deployment under way. -/
  status : (agentAfter lands world log).status = some .deploying →
    ∃ thread, projection thread log ≠ [] ∧ ∀ result, ¬ Ended tasks log thread result
  /-- When no call is under way, the token of the unit file is that of the row. -/
  token : Quiescent tasks log → ∀ file, (agentAfter lands world log).serviceFile = some file →
    (agentAfter lands world log).token = some file.agentToken

variable {lands : String → Bool} {world : AgentWorld} {tasks : ι → AgentTask} {log : Trail ι Answer}

theorem AgentRuns.expects (h : AgentRuns lands world tasks log) :
    ∀ entry ∈ log, agentProtocol.expects entry.2 := by
  refine Concurrent.expects h (fun _ ↦ True) trivial fun world event _ hallows ↦ ⟨trivial, ?_⟩
  obtain ⟨request, answer⟩ := event
  cases request with
  | generateAgentToken => cases answer <;> exact hallows
  | _ => cases answer <;> exact trivial

theorem AgentRuns.agentInvariant (h : AgentRuns lands world tasks log) (hrest : AtRest world)
    (hundisturbed : EveryStep (fun before entry ↦
      Undisturbed (progressAfter tasks before) entry.1 entry.2) log) :
    AgentInvariant (agentAfter lands world log) (progressAfter tasks log) :=
  Concurrent.invariant (fun thread ↦ (tasks thread).follows) AgentInvariant
    (fun _ states thread event ↦ Undisturbed states thread event)
    ⟨fun _ _ ↦ nofun, hrest.file, fun _ ↦ nofun, fun hstatus ↦ absurd hstatus hrest.status,
      fun _ _ ↦ rfl⟩
    (fun _ _ _ _ hinvariant hpermits hallows hcondition ↦
      hinvariant.step hpermits hallows hcondition) h h.expects hundisturbed

theorem deploys_progressAfter (thread : ι) :
    (progressAfter tasks log thread).deploys = (tasks thread).deploys := by
  unfold progressAfter Protocol.states
  generalize projection thread log = events
  induction events using List.reverseRecOn with
  | nil => rfl
  | append_singleton before event ih =>
    rw [agentProtocol.state_append]
    exact deploys_next.trans ih

variable (h : AgentRuns lands world tasks log)
include h

/-- A deployment settles, and the token of the unit file is that of the row. -/
theorem agentSettles (hrest : AtRest world) (hundisturbed : EveryStep (fun before entry ↦
      Undisturbed (progressAfter tasks before) entry.1 entry.2) log) :
    AgentSettled lands world tasks log := by
  have hinvariant := h.agentInvariant hrest hundisturbed
  have hends : ∀ thread result, (tasks thread).deploys = true → Ended tasks log thread result →
      DeployEnds result (progressAfter tasks log thread) := fun thread result hdeploys hended ↦
    (Concurrent.ends (fun thread ↦ (tasks thread).follows) h.expects hended).2.2 hdeploys
      (hinvariant.uncut thread ((deploys_progressAfter thread).trans hdeploys))
  refine ⟨hends, fun hstatus ↦ ?_, fun _ file hfile ↦ (hinvariant.file file hfile).1⟩
  obtain ⟨thread, hdeploys, hthread⟩ := hinvariant.status hstatus
  refine ⟨thread, fun hnone ↦ ?_, fun result hended ↦ ?_⟩
  · unfold progressAfter Protocol.states at hthread
    rw [hnone] at hthread
    nomatch hthread
  · exact (hends thread result ((deploys_progressAfter thread).symm.trans hdeploys) hended).status
      hthread

end

/-! ### Runs on one server -/

/-- The calls that neither cut off a deployment nor touch a token or a unit file. -/
def Calm : Event Answer → Prop
  | ⟨.exec _ .removeService, _⟩ | ⟨.writeFile _ _, _⟩ | ⟨.updateToken _, _⟩ | ⟨.markRemoved, _⟩
  | ⟨.getEnvironmentSshKey _, .ok none⟩ | ⟨_, .error _⟩ => False
  | _ => True

theorem Calm.undisturbed {ι : Type*} {states : ι → AgentProgress} {thread : ι}
    {event : Event Answer} (h : Calm event) : Undisturbed states thread event := by
  obtain ⟨request, answer⟩ := event
  cases answer with
  | error message =>
    cases request with
    | exec client command => cases command <;> exact h.elim
    | _ => exact h.elim
  | ok value =>
    cases request with
    | exec client command =>
      cases command with
      | removeService => exact h.elim
      | _ => exact ⟨fun _ ↦ id, nofun, False.elim, nofun⟩
    | getEnvironmentSshKey environmentId =>
      cases value with
      | none => exact h.elim
      | some creds => exact ⟨fun _ ↦ id, nofun, False.elim, nofun⟩
    | writeFile _ _ | updateToken _ | markRemoved => exact h.elim
    | updateStatus status => exact ⟨fun _ ↦ by cases status <;> exact id, nofun, False.elim, nofun⟩
    | _ => exact ⟨fun _ ↦ id, nofun, False.elim, nofun⟩

def localServer : Server :=
  ⟨"localhost", "production", some "token", .unknown, .ssh⟩

def exitZero (stdout : String) : ExecResult :=
  ⟨stdout, "", 0⟩

def deployment : List (Event Answer) :=
  [⟨.findServer, .ok (some localServer)⟩, ⟨.updateStatus .deploying, .ok ()⟩,
    ⟨.logAgentEvent ⟨.deployStarted, "Agent deployment initiated", "https://port"⟩, .ok ()⟩,
    ⟨.readAgentBinary, .ok []⟩, ⟨.connect .local, .ok ()⟩,
    ⟨.exec .local .stopService, .ok (exitZero "")⟩, ⟨.exec .local .clearTemp, .ok (exitZero "")⟩,
    ⟨.exec .local .install, .ok (exitZero "")⟩,
    ⟨.writeFile .local ⟨"https://port", "token"⟩, .ok ()⟩,
    ⟨.exec .local .startService, .ok (exitZero "")⟩,
    ⟨.exec .local .isActive, .ok (exitZero "active")⟩, ⟨.markDeployed, .ok ()⟩,
    ⟨.logAgentEvent ⟨.deploySuccess, "Agent deployed successfully", "https://port"⟩, .ok ()⟩]

/-- The calls of a removal up to that of the unit file, when the row is as it is then. -/
def removal (server : Server) : List (Event Answer) :=
  [⟨.findServer, .ok (some server)⟩, ⟨.connect .local, .ok ()⟩,
    ⟨.exec .local .stopService, .ok (exitZero "")⟩,
    ⟨.exec .local .disableService, .ok (exitZero "")⟩,
    ⟨.exec .local .removeService, .ok (exitZero "")⟩]

def removed : List (Event Answer) :=
  [⟨.exec .local .removeBinary, .ok (exitZero "")⟩, ⟨.exec .local .daemonReload, .ok (exitZero "")⟩,
    ⟨.markRemoved, .ok ()⟩]

def deployAndRemove : Bool → AgentTask
  | false => .deploy (some "https://port")
  | true => .remove

def removedAfter : Trail Bool Answer :=
  deployment.map (false, ·) ++
    (removal { localServer with metricsMode := .agent, agentStatus := .waiting } ++ removed).map
      (true, ·)

/-- The deployment runs between the two halves of the removal. -/
def deployedWithin : Trail Bool Answer :=
  (removal localServer).map (true, ·) ++ deployment.map (false, ·) ++ removed.map (true, ·)

def remoteServer : Server :=
  ⟨"10.0.0.5", "production", some "token", .unknown, .ssh⟩

def withoutKey : Trail Unit Answer :=
  [((), ⟨.findServer, .ok (some remoteServer)⟩), ((), ⟨.updateStatus .deploying, .ok ()⟩),
    ((), ⟨.logAgentEvent ⟨.deployStarted, "Agent deployment initiated", "https://port"⟩, .ok ()⟩),
    ((), ⟨.getEnvironmentSshKey "production", .ok none⟩)]

theorem atRest_of_unknown {world : AgentWorld} (hstatus : world.status = some .unknown)
    (hfile : world.serviceFile = none) : AtRest world :=
  ⟨fun hdeploying ↦ absurd (hstatus.symm.trans hdeploying) nofun,
    fun _ hsome ↦ absurd (hfile.symm.trans hsome) nofun⟩

theorem traces_deployment :
    Traces (deployAgent (some "https://port")) deployment (some (.ok ⟨true, none⟩)) :=
  .call _ (.call _ (.call _ (.call _ (.call _ (.call _ (.call _ (.call _ (.call _ (.call _ (.call _
    (.call _ (.call _ (.done _)))))))))))))

variable (metricsMode : MetricsMode) (agentStatus : AgentStatus)

theorem traces_deployAndRemove {log : Trail Bool Answer}
    (hdeploys : projection false log = deployment) (hremoves : projection true log =
      removal { localServer with metricsMode, agentStatus } ++ removed) (thread : Bool) :
    Ended deployAndRemove log thread (.ok ⟨true, none⟩) := by
  unfold Ended
  cases thread with
  | false =>
    rw [hdeploys]
    exact traces_deployment
  | true =>
    rw [hremoves]
    exact .call _ (.call _ (.call _ (.call _ (.call _ (.call _ (.call _ (.call _ (.done _))))))))

theorem agentSettles_removedAfter :
    AgentSettled (fun _ ↦ true) ⟨some localServer, none⟩ deployAndRemove removedAfter := by
  refine agentSettles ⟨fun thread ↦ (traces_deployAndRemove .agent .waiting rfl rfl thread).unsettled, ?_⟩
    (atRest_of_unknown rfl rfl) (everyStep_of_stepsAfter ?_)
  · exact ⟨rfl, rfl, rfl, trivial, trivial, trivial, trivial, trivial, trivial, trivial, trivial, rfl,
      rfl, rfl, trivial, trivial, trivial, trivial, trivial, trivial, rfl, trivial⟩
  · have hcalm : ∀ {states : Bool → AgentProgress} {thread event}, Calm event →
        Undisturbed states thread event := Calm.undisturbed
    refine ⟨hcalm trivial, hcalm trivial, hcalm trivial, hcalm trivial, hcalm trivial, hcalm trivial,
      hcalm trivial, hcalm trivial, ⟨fun _ ↦ id, nofun, False.elim, fun _ _ _ _ other ↦ ?_⟩,
      hcalm trivial, hcalm trivial, hcalm trivial, hcalm trivial, hcalm trivial, hcalm trivial,
      hcalm trivial, hcalm trivial, ⟨fun _ ↦ id, ?_, False.elim, nofun⟩, hcalm trivial,
      hcalm trivial, ⟨nofun, nofun, fun _ other hother ↦ ?_, nofun⟩, trivial⟩
    · cases other <;> rfl
    · rintro client result ⟨⟩
      rfl
    · cases other with
      | false => rfl
      | true => exact absurd rfl hother

/-- A deployment without a key leaves the status `deploying` and no event after its start, and a
deployment within a removal leaves a unit file whose token the row has not. -/
theorem not_agentSettled :
    (AgentRuns (fun _ ↦ true) ⟨some remoteServer, none⟩ (fun _ : Unit ↦ .deploy (some "https://port"))
        withoutKey ∧ AtRest ⟨some remoteServer, none⟩ ∧
      ¬ AgentSettled (fun _ ↦ true) ⟨some remoteServer, none⟩
        (fun _ : Unit ↦ .deploy (some "https://port")) withoutKey) ∧
    AgentRuns (fun _ ↦ true) ⟨some localServer, none⟩ deployAndRemove deployedWithin ∧
      AtRest ⟨some localServer, none⟩ ∧
      ¬ AgentSettled (fun _ ↦ true) ⟨some localServer, none⟩ deployAndRemove deployedWithin := by
  have hended : ∀ thread, Ended deployAndRemove deployedWithin thread (.ok ⟨true, none⟩) :=
    traces_deployAndRemove .ssh .unknown rfl rfl
  refine ⟨⟨⟨fun _ ↦ .call _ (.call _ (.call _ (.call _ (.start _)))), ?_⟩, atRest_of_unknown rfl rfl,
    fun h ↦ ?_⟩, ⟨fun thread ↦ (hended thread).unsettled, ?_⟩, atRest_of_unknown rfl rfl, fun h ↦ ?_⟩
  · exact ⟨rfl, rfl, rfl, trivial, trivial⟩
  · have hends := h.ends () _ rfl (.call _ (.call _ (.call _ (.call _ (.done _)))))
    exact hends.status rfl
  · exact ⟨rfl, trivial, trivial, trivial, trivial, rfl, rfl, rfl, trivial, trivial, trivial, trivial,
      trivial, trivial, trivial, trivial, rfl, rfl, trivial, trivial, rfl, trivial⟩
  · have htoken := h.token (fun thread ↦ .inr ⟨_, hended thread⟩) _ rfl
    nomatch htoken

end Bridgeport.AgentDeploy
