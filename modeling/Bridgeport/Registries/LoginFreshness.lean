import Bridgeport.Registries.RegistryLogin

/-!
# Fresh registry logins

Any number of logins and updates run at once. A login that is skipped or recorded has been made with
the credentials of its connection (`registryLoginSound`), as long as

* the credentials of a connection do not change while a run of `ensureRegistryLogin` on it is under
  way (`KeepsCredentials`),
* no server is logged into a host for which another connection has other credentials
  (`NoConflict`), and
* the clock at an update is past the logins that have been recorded (`ClockPast`).
-/

namespace Bridgeport.Registries

open Foundation Program List
open Secrets (Text)

variable (decrypt : Encrypted → Except String String)

/-- The connections, the recorded logins by server and connection, and what `docker login` has been
given last by server and host. -/
structure RegistryStore where
  connections : Table RegistryConnection
  logins : String × String → Option ℕ
  lastLogin : String × Text → Option DockerLoginArgs

namespace RegistryStore

variable (store : RegistryStore)

/-- What `docker login` is given for a connection. -/
def loginArgs (id : String) : Option DockerLoginArgs :=
  (store.connections.find? id).bind (loginArgsOf decrypt)

/-- The server has been given these credentials last for their host. -/
def LastGiven (serverId : String) (args : DockerLoginArgs) : Prop :=
  store.lastLogin (serverId, args.registryHost) = some args

/-- The server has been given the credentials of the connection last for their host. -/
def LoggedIn (serverId id : String) : Prop :=
  ∃ args, store.loginArgs decrypt id = some args ∧ store.LastGiven serverId args

/-- The recorded login that is not older than a time has been made with the credentials of the
connection. -/
def FreshSince (serverId id : String) (time : ℕ) : Prop :=
  ∀ loggedInAt, store.logins (serverId, id) = some loggedInAt → time ≤ loggedInAt →
    store.LoggedIn decrypt serverId id

/-- The recorded logins that are not older than their connections have been made with their
credentials. -/
def Sound : Prop :=
  ∀ serverId id conn, store.connections.find? id = some conn →
    store.FreshSince decrypt serverId id conn.updatedAt

end RegistryStore

/-- The connections and the logins under the calls. -/
def registrySemantics : Semantics Answer RegistryStore where
  allows store event :=
    match event with
    | ⟨.findUpdatedAt id, .ok found⟩ => found = (store.connections.find? id).map (·.updatedAt)
    | ⟨.findConnection id, .ok found⟩ => found = store.connections.find? id
    | ⟨.findLogin serverId id, .ok found⟩ => found = store.logins (serverId, id)
    | ⟨.updateConnection id data, .ok conn⟩ =>
      ∃ before, store.connections.find? id = some before ∧ conn = data.apply conn.updatedAt before
    | _ => True
  after store event :=
    match event with
    | ⟨.login serverId args, _⟩ =>
      { store with
        lastLogin := Function.update store.lastLogin (serverId, args.registryHost) (some args) }
    | ⟨.upsertLogin serverId id created updated, .ok _⟩ =>
      { store with
        logins := Function.update store.logins (serverId, id)
          (some (if (store.logins (serverId, id)).isSome then updated else created)) }
    | ⟨.unsetDefaults environmentId id, .ok time⟩ =>
      { store with
        connections := store.connections.updateAll
          (RegistryConnection.unsetDefault environmentId id time)
          (RegistryConnection.id_unsetDefault environmentId id time) }
    | ⟨.updateConnection id data, .ok conn⟩ =>
      { store with
        connections := store.connections.update id (data.apply conn.updatedAt)
          (data.id_apply conn.updatedAt) }
    | ⟨.deleteLogins id, .ok _⟩ =>
      { store with
        logins := fun key ↦ if key.2 = id then none else store.logins key }
    | _ => store

/-! ### A run as the others see it -/

/-- How far a run has come, with what it has read. -/
inductive Stage
  | idle
  | reading (updatedAt : ℕ)
  | ready (updatedAt : ℕ) (args : DockerLoginArgs)
  | loggedIn (args : DockerLoginArgs)
  | fresh (args : DockerLoginArgs)
  | recorded (args : DockerLoginArgs)
  | stopped

/-- The run has read its connection and has not returned yet. -/
def Stage.UnderWay : Stage → Prop
  | .reading _ | .ready _ _ | .loggedIn _ => True
  | _ => False

def Stage.next : Stage → Event Answer → Stage
  | .idle, ⟨.findUpdatedAt _, .ok (some updatedAt)⟩ => .reading updatedAt
  | .reading updatedAt, ⟨.findConnection _, .ok (some conn)⟩ =>
    match loginArgsOf decrypt conn with
    | some args => .ready updatedAt args
    | none => .stopped
  | .ready updatedAt args, ⟨.findLogin _ _, .ok found⟩ =>
    if found.any (updatedAt ≤ ·) then .fresh args else .ready updatedAt args
  | .ready _ args, ⟨.login _ _, .ok _⟩ => .loggedIn args
  | .loggedIn args, ⟨.now, .ok _⟩ => .loggedIn args
  | .loggedIn args, ⟨.upsertLogin _ _ _ _, .ok _⟩ => .recorded args
  | _, _ => .stopped

structure RunState where
  (serverId registryConnectionId : String)
  stage : Stage

/-- The calls that a run may make; a run that is no login writes neither logins nor records. -/
def RunState.Permits (state : RunState) (request : Call) : Prop :=
  match state.stage, request with
  | .idle, .findUpdatedAt id => id = state.registryConnectionId
  | .reading _, .findConnection id => id = state.registryConnectionId
  | .ready _ _, .findLogin serverId id =>
    serverId = state.serverId ∧ id = state.registryConnectionId
  | .ready _ args, .login serverId given => serverId = state.serverId ∧ given = args
  | .loggedIn _, .now => True
  | .loggedIn _, .upsertLogin serverId id _ _ =>
    serverId = state.serverId ∧ id = state.registryConnectionId
  | .stopped, .login _ _ => False
  | .stopped, .upsertLogin _ _ _ _ => False
  | .stopped, _ => True
  | _, _ => False

/-- A run logs in with what it has read, and records its login. -/
def loginProtocol : Protocol Answer RunState where
  permits := RunState.Permits
  advance state event := { state with stage := state.stage.next decrypt event }
  expects _ := True

/-- The state of a run before its first call. -/
def Request.start : Request → RunState
  | .ensure serverId registryConnectionId => ⟨serverId, registryConnectionId, .idle⟩
  | .update id _ => ⟨"", id, .stopped⟩

/-! ### The two functions -/

variable {args : DockerLoginArgs} {conn : RegistryConnection}

section

variable {decrypt} {state : RunState}

@[simp]
theorem next_stopped (event : Event Answer) : Stage.next decrypt .stopped event = .stopped :=
  rfl

theorem state_of_stopped (hstage : state.stage = .stopped) (log : List (Event Answer)) :
    (loginProtocol decrypt).state state log = state := by
  induction log with
  | nil => rfl
  | cons event rest ih =>
    have hsame : (loginProtocol decrypt).advance state event = state := by
      show { state with stage := state.stage.next decrypt event } = state
      rw [hstage, next_stopped, ← hstage]
    show (loginProtocol decrypt).state ((loginProtocol decrypt).advance state event) rest = state
    rw [hsame, ih]

/-- A call that neither logs in nor records a login. -/
def Foreign (request : Call) : Prop :=
  match request with
  | .login _ _ | .upsertLogin _ _ _ _ => False
  | _ => True

section

variable (hstage : state.stage = .stopped)
include hstage

theorem neutral_of_foreign {request : Call} (h : Foreign request) :
    (loginProtocol decrypt).Neutral state request := by
  intro log
  rw [state_of_stopped hstage]
  constructor
  · show state.Permits request
    unfold RunState.Permits
    rw [hstage]
    cases request with
    | login _ _ | upsertLogin _ _ _ _ => exact h
    | _ => exact trivial
  · intro answer
    exact state_of_stopped hstage [⟨request, answer⟩]

theorem avoids_await (request : Call) (h : Foreign request) :
    (await request).Avoids fun request ↦ ¬ (loginProtocol decrypt).Neutral state request :=
  avoids_perform (not_not.mpr (neutral_of_foreign hstage h))

theorem avoids_encryptGiven (value : Option (Option String)) :
    (encryptGiven value).Avoids fun request ↦ ¬ (loginProtocol decrypt).Neutral state request := by
  cases value with
  | none => exact avoids_pure _
  | some value =>
    unfold encryptGiven
    dsimp only
    cases truthy value with
    | none => exact avoids_pure _
    | some value =>
      exact (avoids_await hstage (.encrypt value) trivial).bind fun _ ↦ avoids_pure _

theorem avoids_updateRegistryConnection (id : String) (input : ConnectionInput) :
    (updateRegistryConnection id input).Avoids
      fun request ↦ ¬ (loginProtocol decrypt).Neutral state request := by
  refine (avoids_await hstage (.findConnection id) trivial).bind fun existing ↦ ?_
  cases existing with
  | none => exact avoids_throw _
  | some existing =>
    refine (Avoids.when ((avoids_await hstage (.unsetDefaults existing.environmentId id)
      trivial).bind fun _ ↦ avoids_pure _)).bind fun _ ↦ ?_
    refine (avoids_encryptGiven hstage input.token).bind fun _ ↦ ?_
    refine (avoids_encryptGiven hstage input.password).bind fun _ ↦ ?_
    refine (avoids_await hstage (.updateConnection id _) trivial).bind fun _ ↦ ?_
    exact (Avoids.when (avoids_await hstage (.deleteLogins id) trivial)).bind fun _ ↦ avoids_pure _

end

/-- What a run returns, from its last stage. -/
def Returned (result : Except String Reply) (state : RunState) : Prop :=
  (result = .ok (.ensured .fresh) → ∃ args, state.stage = .fresh args) ∧
    ∀ host, result = .ok (.ensured (.loggedIn host)) → ∃ args, state.stage = .recorded args

/-- A run that returns something else. -/
theorem returned_of_ne {result : Except String Reply} (hfresh : result ≠ .ok (.ensured .fresh))
    (hloggedIn : ∀ host, result ≠ .ok (.ensured (.loggedIn host))) : Returned result state :=
  ⟨fun h ↦ absurd h hfresh, fun host h ↦ absurd h (hloggedIn host)⟩

theorem returned_error (message : String) : Returned (.error message) state :=
  returned_of_ne nofun fun _ ↦ nofun

section

variable {serverId id : String} {updatedAt : ℕ}

theorem follows_findLogin :
    ((await (.findLogin serverId id) >>= fun existing ↦
      if existing.any (updatedAt ≤ ·) then pure .fresh
      else await (.login serverId args) >>= fun _ ↦ await .now >>= fun created ↦ await .now >>=
        fun updated ↦ await (.upsertLogin serverId id created updated) >>= fun _ ↦
          pure (.loggedIn args.registryHost)) : Async EnsureLoginResult).Follows
            (loginProtocol decrypt) (fun result state ↦ Returned (result.map Reply.ensured) state)
            ⟨serverId, id, .ready updatedAt args⟩ := by
  refine follows_perform_bind ⟨rfl, rfl⟩ (fun existing _ ↦ ?_) fun message ↦ returned_error message
  have hnext : Stage.next decrypt (.ready updatedAt args) ⟨.findLogin serverId id, .ok existing⟩ =
      if existing.any (updatedAt ≤ ·) then .fresh args else .ready updatedAt args := rfl
  refine Follows.ite (fun hfresh ↦ ?_) fun hstale ↦ ?_
  · refine ⟨fun _ ↦ ⟨args, ?_⟩, fun _ ↦ nofun⟩
    exact hnext.trans (if_pos hfresh)
  · have hagain := congrArg (RunState.mk serverId id) (hnext.trans (if_neg hstale))
    show Program.Follows _ _ _ (RunState.mk serverId id _)
    rw [hagain]
    refine follows_perform_bind ⟨rfl, rfl⟩ (fun _ _ ↦ ?_) fun message ↦ returned_error message
    refine follows_perform_bind trivial (fun created _ ↦ ?_) fun message ↦ returned_error message
    refine follows_perform_bind trivial (fun updated _ ↦ ?_) fun message ↦ returned_error message
    refine follows_perform_bind ⟨rfl, rfl⟩ (fun _ _ ↦ ?_) fun message ↦ returned_error message
    exact ⟨nofun, fun _ _ ↦ ⟨args, rfl⟩⟩

theorem advance_findConnection (hargs : loginArgsOf decrypt conn = some args) :
    (loginProtocol decrypt).advance ⟨serverId, id, .reading updatedAt⟩
      ⟨.findConnection id, .ok (some conn)⟩ = ⟨serverId, id, .ready updatedAt args⟩ := by
  have hstage : Stage.next decrypt (.reading updatedAt) ⟨.findConnection id, .ok (some conn)⟩ =
      .ready updatedAt args := by
    simp [Stage.next, hargs]
  exact congrArg (RunState.mk serverId id) hstage

end

theorem follows_ensureRegistryLogin (serverId id : String) :
    (ensureRegistryLogin decrypt serverId id).Follows (loginProtocol decrypt)
      (fun result state ↦ Returned (result.map Reply.ensured) state) ⟨serverId, id, .idle⟩ := by
  refine follows_perform_bind rfl (fun connection _ ↦ ?_) fun message ↦ returned_error message
  cases connection with
  | none => exact returned_of_ne (by rintro ⟨⟩) fun _ ↦ by rintro ⟨⟩
  | some updatedAt =>
    refine follows_bind (follows_perform_bind rfl (fun found _ ↦ ?_) fun message ↦
      returned_error message)
    cases found with
    | none => exact returned_of_ne (by rintro ⟨⟩) fun _ ↦ by rintro ⟨⟩
    | some conn =>
      cases hcredentials : credentialsOf decrypt conn with
      | error message =>
        dsimp only
        rw [hcredentials]
        exact returned_error message
      | ok creds =>
        dsimp only
        rw [hcredentials]
        -- the next stage is decided by what `docker login` is given for the connection
        cases hargs : toDockerLoginArgs creds with
        | none =>
          simp only [Program.pure_eq, Program.Follows, hargs]
          exact returned_of_ne (by rintro ⟨⟩) fun _ ↦ by rintro ⟨⟩
        | some args =>
          have hloginArgs : loginArgsOf decrypt conn = some args := by
            rw [loginArgsOf, hcredentials]
            exact hargs
          simp only [Program.pure_eq, Program.Follows, hargs]
          show Program.Follows _ _ _
            ((loginProtocol decrypt).advance ⟨serverId, id, .reading updatedAt⟩ _)
          rw [advance_findConnection hloginArgs]
          exact follows_findLogin

theorem follows_handle (request : Request) :
    (handle decrypt request).Follows (loginProtocol decrypt) Returned request.start := by
  cases request with
  | ensure serverId id =>
    refine follows_bind ((follows_ensureRegistryLogin serverId id).mono fun result after h ↦ ?_)
    cases result with
    | ok _ | error _ => exact h
  | update id input =>
    refine follows_bind (follows_of_avoids (avoids_updateRegistryConnection rfl id input)
      fun result ↦ ?_)
    cases result with
    | ok conn => exact returned_of_ne nofun fun _ ↦ nofun
    | error message => exact returned_error message

end

variable (store : RegistryStore)

/-- What a run that is under way can rely on. -/
def RegistryStore.Knows (state : RunState) : Prop :=
  match state.stage with
  | .reading updatedAt =>
    store.FreshSince decrypt state.serverId state.registryConnectionId updatedAt
  | .ready updatedAt args =>
    store.FreshSince decrypt state.serverId state.registryConnectionId updatedAt ∧
      store.loginArgs decrypt state.registryConnectionId = some args
  | .loggedIn args =>
    store.loginArgs decrypt state.registryConnectionId = some args ∧
      store.LastGiven state.serverId args
  | _ => True

/-- The recorded logins, and what the runs that are under way rely on. -/
structure LoginInvariant {ι : Type*} (store : RegistryStore) (states : ι → RunState) : Prop where
  sound : store.Sound decrypt
  knows : ∀ thread, store.Knows decrypt (states thread)

/-- The step does not change the credentials of a connection while a run on it is under way. -/
def KeepsCredentials {ι : Type*} (store : RegistryStore) (states : ι → RunState)
    (event : Event Answer) : Prop :=
  ∀ thread, (states thread).stage.UnderWay →
    (registrySemantics.after store event).loginArgs decrypt (states thread).registryConnectionId =
      store.loginArgs decrypt (states thread).registryConnectionId

/-- The step logs no server into a host for which a connection has other credentials. -/
def NoConflict (event : Event Answer) : Prop :=
  ∀ serverId given, event.call = .login serverId given → ∀ id args,
    store.loginArgs decrypt id = some args → args.registryHost = given.registryHost → args = given

/-- The clock at an update is past the recorded logins of the connection. -/
def ClockPast (event : Event Answer) : Prop :=
  ∀ id conn, (registrySemantics.after store event).connections.find? id = some conn →
    store.connections.find? id = some conn ∨ ∀ serverId loggedInAt,
      store.logins (serverId, id) = some loggedInAt → loggedInAt < conn.updatedAt

variable {state : RunState} {updatedAt : ℕ}

section

variable {decrypt} {store : RegistryStore} {event : Event Answer} {serverId id : String}

/-- A new record is the work of `upsertLogin`, which leaves the connections alone. -/
theorem logins_after {loggedInAt : ℕ}
    (h : (registrySemantics.after store event).logins (serverId, id) = some loggedInAt) :
    store.logins (serverId, id) = some loggedInAt ∨
      (∃ created updated, event.call = .upsertLogin serverId id created updated) ∧
        (registrySemantics.after store event).connections = store.connections := by
  simp only [registrySemantics] at h ⊢
  split at h
  · exact .inl h
  · rename_i other recorded created updated answer
    dsimp only at h
    by_cases hkey : (serverId, id) = (other, recorded)
    · obtain ⟨rfl, rfl⟩ := Prod.mk.inj hkey
      exact .inr ⟨⟨created, updated, rfl⟩, rfl⟩
    · rw [Function.update_of_ne hkey] at h
      exact .inl h
  · exact .inl h
  · exact .inl h
  · dsimp only at h
    split_ifs at h
    exact .inl h
  · exact .inl h

/-- Without a conflict, what a server has been given last for a connection stays so. -/
theorem lastGiven_after (hconflict : NoConflict decrypt store event)
    (hargs : store.loginArgs decrypt id = some args) (h : store.LastGiven serverId args) :
    (registrySemantics.after store event).LastGiven serverId args := by
  unfold RegistryStore.LastGiven at h ⊢
  simp only [registrySemantics]
  split
  · rename_i other given answer
    dsimp only
    by_cases hkey : (serverId, args.registryHost) = (other, given.registryHost)
    · have hsame := hconflict other given rfl id args hargs (congrArg Prod.snd hkey)
      rw [hkey, Function.update_self, hsame]
    · rw [Function.update_of_ne hkey]
      exact h
  · exact h
  · exact h
  · exact h
  · exact h
  · exact h

/-- The records of a connection whose credentials stay as they are. -/
theorem freshSince_after {time : ℕ} (h : store.FreshSince decrypt serverId id time)
    (hsame : (registrySemantics.after store event).loginArgs decrypt id =
      store.loginArgs decrypt id)
    (hconflict : NoConflict decrypt store event)
    (hupsert : ∀ created updated, event.call = .upsertLogin serverId id created updated →
      store.LoggedIn decrypt serverId id) :
    (registrySemantics.after store event).FreshSince decrypt serverId id time := by
  intro loggedInAt hlogin htime
  have hbefore : store.LoggedIn decrypt serverId id := by
    rcases logins_after hlogin with hold | ⟨⟨created, updated, hcall⟩, -⟩
    · exact h loggedInAt hold htime
    · exact hupsert created updated hcall
  obtain ⟨args, hargs, hlast⟩ := hbefore
  exact ⟨args, hsame.trans hargs, lastGiven_after hconflict hargs hlast⟩

theorem sound_after (h : store.Sound decrypt) (hconflict : NoConflict decrypt store event)
    (hclock : ClockPast store event)
    (hupsert : ∀ serverId id created updated,
      event.call = .upsertLogin serverId id created updated → store.LoggedIn decrypt serverId id) :
    (registrySemantics.after store event).Sound decrypt := by
  intro serverId id conn hconn loggedInAt hlogin htime
  have hunchanged : store.connections.find? id = some conn →
      (registrySemantics.after store event).LoggedIn decrypt serverId id := by
    intro hbefore
    have hsame : (registrySemantics.after store event).loginArgs decrypt id =
        store.loginArgs decrypt id := by
      rw [RegistryStore.loginArgs, RegistryStore.loginArgs, hconn, hbefore]
    exact freshSince_after (h serverId id conn hbefore) hsame hconflict (hupsert serverId id)
      loggedInAt hlogin htime
  rcases hclock id conn hconn with hbefore | hpast
  · exact hunchanged hbefore
  · rcases logins_after hlogin with hold | ⟨-, hconnections⟩
    · exact absurd htime (not_le.mpr (hpast serverId loggedInAt hold))
    · rw [hconnections] at hconn
      exact hunchanged hconn

theorem knows_after (h : store.Knows decrypt state) (hkeeps : state.stage.UnderWay →
      (registrySemantics.after store event).loginArgs decrypt state.registryConnectionId =
        store.loginArgs decrypt state.registryConnectionId)
    (hconflict : NoConflict decrypt store event) (hupsert : ∀ serverId id created updated,
      event.call = .upsertLogin serverId id created updated → store.LoggedIn decrypt serverId id) :
    (registrySemantics.after store event).Knows decrypt state := by
  obtain ⟨serverId, id, stage⟩ := state
  cases stage with
  | reading updatedAt =>
    exact freshSince_after h (hkeeps trivial) hconflict (hupsert serverId id)
  | ready updatedAt args =>
    obtain ⟨hfresh, hargs⟩ := h
    exact ⟨freshSince_after hfresh (hkeeps trivial) hconflict (hupsert serverId id),
      (hkeeps trivial).trans hargs⟩
  | loggedIn args =>
    obtain ⟨hargs, hlast⟩ := h
    exact ⟨(hkeeps trivial).trans hargs, lastGiven_after hconflict hargs hlast⟩
  | idle | fresh _ | recorded _ | stopped => exact trivial

theorem loggedIn_of_upsert (h : store.Knows decrypt state) (hpermits : state.Permits event.call)
    {created updated : ℕ} (hcall : event.call = .upsertLogin serverId id created updated) :
    store.LoggedIn decrypt serverId id := by
  obtain ⟨server, connection, stage⟩ := state
  rw [hcall] at hpermits
  cases stage with
  | loggedIn args =>
    obtain ⟨rfl, rfl⟩ := hpermits
    exact ⟨args, h⟩
  | idle | reading _ | ready _ _ | fresh _ | recorded _ | stopped => exact hpermits.elim

/-- What a run knows once it has read the credentials. -/
theorem knows_findConnection (h : store.FreshSince decrypt serverId id updatedAt)
    (hfound : some conn = store.connections.find? id) : store.Knows decrypt ⟨serverId, id,
      Stage.next decrypt (.reading updatedAt) ⟨.findConnection id, .ok (some conn)⟩⟩ := by
  have hloginArgs : store.loginArgs decrypt id = loginArgsOf decrypt conn := by
    rw [RegistryStore.loginArgs, ← hfound]
    rfl
  simp only [Stage.next]
  cases hargs : loginArgsOf decrypt conn with
  | none => exact trivial
  | some args => exact ⟨h, hloginArgs.trans hargs⟩

/-- What a run knows once it has read the recorded login. -/
theorem knows_findLogin (h : store.Knows decrypt ⟨serverId, id, .ready updatedAt args⟩)
    (found : Option ℕ) {server connection : String} : store.Knows decrypt ⟨serverId, id,
      Stage.next decrypt (.ready updatedAt args) ⟨.findLogin server connection, .ok found⟩⟩ := by
  simp only [Stage.next]
  split_ifs
  · exact trivial
  · exact h

/-- What a run knows after its own step, from what it knew. -/
theorem knows_advance (hsound : store.Sound decrypt) (hbefore : store.Knows decrypt state)
    (h : (registrySemantics.after store event).Knows decrypt state)
    (hpermits : state.Permits event.call) (hallows : registrySemantics.allows store event) :
    (registrySemantics.after store event).Knows decrypt
      ((loginProtocol decrypt).advance state event) := by
  obtain ⟨serverId, id, stage⟩ := state
  obtain ⟨request, answer⟩ := event
  cases stage with
  | idle =>
    cases request with
    | findUpdatedAt found =>
      obtain rfl : found = id := hpermits
      cases answer with
      | error message => exact trivial
      | ok time =>
        cases time with
        | none => exact trivial
        | some time =>
          obtain ⟨conn, hconn, rfl⟩ := Option.map_eq_some_iff.mp (Eq.symm hallows)
          exact hsound serverId found conn hconn
    | _ => exact hpermits.elim
  | reading updatedAt =>
    cases request with
    | findConnection found =>
      obtain rfl : found = id := hpermits
      cases answer with
      | error message => exact trivial
      | ok conn =>
        cases conn with
        | none => exact trivial
        | some conn =>
          exact knows_findConnection hbefore hallows
    | _ => exact hpermits.elim
  | ready updatedAt args =>
    cases request with
    | findLogin server connection =>
      cases answer with
      | error message => exact trivial
      | ok found => exact knows_findLogin h found
    | login server given =>
      obtain ⟨rfl, rfl⟩ := hpermits
      cases answer with
      | error message => exact trivial
      | ok value => exact ⟨h.2, Function.update_self ..⟩
    | _ => exact hpermits.elim
  | loggedIn args =>
    cases request with
    | now =>
      cases answer with
      | error message => exact trivial
      | ok time => exact h
    | upsertLogin server connection created updated =>
      cases answer with
      | error _ | ok _ => exact trivial
    | _ => exact hpermits.elim
  | fresh _ | recorded _ => exact hpermits.elim
  | stopped => exact trivial

end

variable {store : RegistryStore} {event : Event Answer}

section

variable {ι : Type*} [DecidableEq ι] {decrypt}

/-- A step that meets the conditions keeps the invariant. -/
theorem loginInvariant_after {states : ι → RunState} {thread : ι}
    (h : LoginInvariant decrypt store states) (hpermits : (states thread).Permits event.call)
    (hallows : registrySemantics.allows store event)
    (hkeeps : KeepsCredentials decrypt store states event)
    (hconflict : NoConflict decrypt store event) (hclock : ClockPast store event) :
    LoginInvariant decrypt (registrySemantics.after store event) (Function.update states thread
      ((loginProtocol decrypt).advance (states thread) event)) := by
  have hupsert : ∀ serverId id created updated,
      event.call = .upsertLogin serverId id created updated → store.LoggedIn decrypt serverId id :=
    fun _ _ _ _ hcall ↦ loggedIn_of_upsert (h.knows thread) hpermits hcall
  have hothers : ∀ other, (registrySemantics.after store event).Knows decrypt (states other) :=
    fun other ↦ knows_after (h.knows other) (hkeeps other) hconflict hupsert
  refine ⟨sound_after h.sound hconflict hclock hupsert, fun other ↦ ?_⟩
  by_cases hother : other = thread
  · rw [hother, Function.update_self]
    exact knows_advance h.sound (h.knows thread) (hothers thread) hpermits hallows
  · rw [Function.update_of_ne hother]
    exact hothers other

end

section

variable {ι : Type*} [DecidableEq ι] (requests : ι → Request)

abbrev Runs (store : RegistryStore) (log : Trail ι Answer) : Prop :=
  Concurrent (fun thread ↦ handle decrypt (requests thread)) registrySemantics store log

def storeAfter (store : RegistryStore) (log : Trail ι Answer) : RegistryStore :=
  registrySemantics.final store (log.map Prod.snd)

/-- How far the runs have come after a log. -/
def runStates (log : Trail ι Answer) : ι → RunState :=
  (loginProtocol decrypt).states (fun thread ↦ (requests thread).start) log

/-- The conditions on a step of a run. -/
structure Undisturbed (requests : ι → Request) (store : RegistryStore)
    (before : Trail ι Answer) (entry : ι × Event Answer) : Prop where
  keeps : KeepsCredentials decrypt (storeAfter store before) (runStates decrypt requests before)
    entry.2
  noConflict : NoConflict decrypt (storeAfter store before) entry.2
  clockPast : ClockPast (storeAfter store before) entry.2

/-- The call returned that the server is logged in. -/
def Reply.Assures : Reply → Prop
  | .ensured .fresh => True
  | .ensured (.loggedIn _) => True
  | _ => False

/-- The server has been given last, for their host, the credentials that the connection has had at
some point since the first step of the run. -/
def AssuredSince (store : RegistryStore) (log : Trail ι Answer) (thread : ι)
    (serverId id : String) : Prop :=
  ∃ point, point <+: log ∧ projection thread point ≠ [] ∧
    ∃ args, (storeAfter store point).loginArgs decrypt id = some args ∧
      (storeAfter store log).LastGiven serverId args

variable {requests : ι → Request}

theorem loginInvariant_run {log : Trail ι Answer}
    (hrun : Runs decrypt requests store log) (hsound : store.Sound decrypt)
    (hcondition : EveryStep (Undisturbed decrypt requests store) log) :
    LoginInvariant decrypt (storeAfter store log) (runStates decrypt requests log) := by
  refine hrun.invariant (fun thread ↦ follows_handle (requests thread)) (LoginInvariant decrypt)
    (fun store states _ event ↦ KeepsCredentials decrypt store states event ∧
      NoConflict decrypt store event ∧ ClockPast store event) ⟨hsound, fun thread ↦ ?_⟩ ?_
    (fun _ _ ↦ trivial) ?_
  · cases requests thread <;> exact trivial
  · intro store states thread event h hpermits hallows ⟨hkeeps, hconflict, hclock⟩
    exact loginInvariant_after h hpermits hallows hkeeps hconflict hclock
  · intro before entry after hsplit
    obtain ⟨hkeeps, hconflict, hclock⟩ := hcondition before entry after hsplit
    exact ⟨hkeeps, hconflict, hclock⟩

def Stage.Assures : Stage → Prop
  | .fresh _ | .recorded _ => True
  | _ => False

theorem Returned.assures {reply : Reply} (h : Returned (.ok reply) state) (hassures : reply.Assures) :
    state.stage.Assures := by
  cases reply with
  | updated conn => exact hassures.elim
  | ensured result =>
    cases result with
    | fresh =>
      obtain ⟨args, hstage⟩ := h.1 rfl
      rw [hstage]
      exact trivial
    | loggedIn host =>
      obtain ⟨args, hstage⟩ := h.2 host rfl
      rw [hstage]
      exact trivial
    | noCredentials | registryNotFound => exact hassures.elim

theorem key_runStates {thread : ι} {serverId id : String}
    (hrequest : requests thread = .ensure serverId id) (log : Trail ι Answer) :
    (runStates decrypt requests log thread).serverId = serverId ∧
      (runStates decrypt requests log thread).registryConnectionId = id := by
  induction log using List.reverseRecOn with
  | nil =>
    have hstart : runStates decrypt requests [] thread = ⟨serverId, id, .idle⟩ :=
      congrArg Request.start hrequest
    rw [hstart]
    exact ⟨rfl, rfl⟩
  | append_singleton before entry ih =>
    rw [runStates, (loginProtocol decrypt).states_concat]
    by_cases hthread : thread = entry.1
    · rw [hthread, Function.update_self, ← hthread]
      exact ih
    · rw [Function.update_of_ne hthread]
      exact ih

/-- A run assures the login when it finds a record that is not older than the connection, or when it
has recorded a login. -/
theorem assures_next_cases {stage : Stage} (h : (stage.next decrypt event).Assures) :
    (∃ updatedAt args serverId id loggedInAt, stage = .ready updatedAt args ∧
        event = ⟨.findLogin serverId id, .ok (some loggedInAt)⟩ ∧ updatedAt ≤ loggedInAt) ∨
      ∃ args serverId id created updated value, stage = .loggedIn args ∧
        event = ⟨.upsertLogin serverId id created updated, .ok value⟩ := by
  unfold Stage.next at h
  split at h
  · exact h.elim
  · split at h
    · exact h.elim
    · exact h.elim
  · rename_i updatedAt args serverId id found
    split_ifs at h with hfresh
    · obtain ⟨loggedInAt, rfl, htime⟩ := (Option.any_eq_true _ found).mp hfresh
      exact .inl ⟨updatedAt, args, serverId, id, loggedInAt, rfl, rfl, of_decide_eq_true htime⟩
    · exact h.elim
  · exact h.elim
  · exact h.elim
  · exact .inr ⟨_, _, _, _, _, _, rfl, rfl⟩
  · exact h.elim

/-- The last step of a run that assures the login. -/
theorem loggedIn_of_assures (h : store.Knows decrypt state) (hpermits : state.Permits event.call)
    (hallows : registrySemantics.allows store event)
    (hassures : (state.stage.next decrypt event).Assures) :
    (registrySemantics.after store event).LoggedIn decrypt state.serverId
      state.registryConnectionId := by
  obtain ⟨serverId, id, stage⟩ := state
  rcases assures_next_cases decrypt hassures with ⟨updatedAt, args, server, connection, loggedInAt,
    rfl, rfl, htime⟩ | ⟨args, server, connection, created, updated, value, rfl, rfl⟩
  · obtain ⟨rfl, rfl⟩ := hpermits
    exact h.1 loggedInAt (Eq.symm hallows) htime
  · exact ⟨args, h⟩

/-- A login that is skipped or recorded has been made with the credentials of its connection.
Assumes: the logins that are recorded at first have been, and every step meets the conditions. -/
theorem registryLoginSound (requests : ι → Request) (store : RegistryStore)
    (before : Trail ι Answer) (thread : ι) (event : Event Answer)
    (serverId id : String) (reply : Reply)
    (hrun : Runs decrypt requests store (before ++ [(thread, event)]))
    (hrequest : requests thread = .ensure serverId id)
    (hreturns : Traces (handle decrypt (requests thread))
      (projection thread (before ++ [(thread, event)])) (some (.ok reply)))
    (hassures : reply.Assures) (hsound : store.Sound decrypt)
    (hcondition : EveryStep (Undisturbed decrypt requests store) (before ++ [(thread, event)])) :
    AssuredSince decrypt store (before ++ [(thread, event)]) thread serverId id := by
  have hfollows : ∀ thread, (handle decrypt (requests thread)).Follows (loginProtocol decrypt)
      Returned (requests thread).start := fun thread ↦ follows_handle (requests thread)
  have hinvariant := loginInvariant_run decrypt hrun.of_append hsound hcondition.of_append
  have hpermits := hrun.permits_last hfollows fun _ _ ↦ trivial
  have hkey := key_runStates decrypt hrequest before
  have hassured : ((runStates decrypt requests before thread).stage.next decrypt event).Assures := by
    have hreturned := (Concurrent.ends hfollows (fun _ _ ↦ trivial) hreturns).assures hassures
    rw [(loginProtocol decrypt).states_concat, Function.update_self] at hreturned
    exact hreturned
  obtain ⟨args, hargs, hlast⟩ := loggedIn_of_assures decrypt (hinvariant.knows thread) hpermits
    hrun.allows_last hassured
  rw [hkey.1] at hlast
  rw [hkey.2] at hargs
  have hafter : storeAfter store (before ++ [(thread, event)]) =
      registrySemantics.after (storeAfter store before) event := by
    rw [storeAfter, map_append, Semantics.final_append]
    rfl
  refine ⟨_, prefix_rfl, ?_, args, ?_, ?_⟩
  · rw [projection_concat_self]
    simp
  · rw [hafter]
    exact hargs
  · rw [hafter]
    exact hlast

end

/-- The step leaves the connections alone. -/
def Spares (event : Event Answer) : Prop :=
  ∀ store, (registrySemantics.after store event).connections = store.connections

/-- A step that leaves the connections alone and logs no server in. -/
theorem undisturbed_of_spares {ι : Type*} [DecidableEq ι] {requests : ι → Request}
    {before : Trail ι Answer} {entry : ι × Event Answer} (h : Spares entry.2)
    (hconflict : NoConflict decrypt (storeAfter store before) entry.2) :
    Undisturbed decrypt requests store before entry where
  keeps thread _ := by rw [RegistryStore.loginArgs, RegistryStore.loginArgs, h]
  noConflict := hconflict
  clockPast id conn hconn := .inl (by rwa [h] at hconn)

def plain (encrypted : Encrypted) : Except String String :=
  .ok encrypted.ciphertext

def hub (id username token : String) : RegistryConnection where
  id := id
  environmentId := "production"
  name := id
  type := "dockerhub"
  registryUrl := "https://hub.docker.com".toList
  repositoryPrefix := none
  encryptedToken := some ⟨token, "nonce"⟩
  username := some username
  encryptedPassword := none
  isDefault := false
  refreshIntervalMinutes := 30
  autoLinkPattern := none
  updatedAt := 1

variable (connections : Table RegistryConnection)

def loggedOut : RegistryStore :=
  ⟨connections, fun _ ↦ none, fun _ ↦ none⟩

theorem sound_loggedOut : (loggedOut connections).Sound decrypt := by
  intro serverId id conn _ loggedInAt hlogin
  nomatch hlogin

def oneHub : Table RegistryConnection :=
  ⟨[hub "hub-a" "alice" "token-a"], by decide⟩

def twoHubs : Table RegistryConnection :=
  ⟨[hub "hub-a" "alice" "token-a", hub "hub-b" "bob" "token-b"], by decide⟩

def readSteps (conn : RegistryConnection) (loggedInAt : Option ℕ) : List (Event Answer) :=
  [⟨.findUpdatedAt conn.id, .ok (some conn.updatedAt)⟩, ⟨.findConnection conn.id, .ok (some conn)⟩,
    ⟨.findLogin "server" conn.id, .ok loggedInAt⟩]

def loginSteps (id : String) (args : DockerLoginArgs) (time : ℕ) : List (Event Answer) :=
  [⟨.login "server" args, .ok ()⟩, ⟨.now, .ok time⟩, ⟨.now, .ok time⟩,
    ⟨.upsertLogin "server" id time time, .ok ()⟩]

def labelled (thread : ℕ) (steps : List (Event Answer)) : Trail ℕ Answer :=
  steps.map fun event ↦ (thread, event)

/-- A login with the first connection, a login with the second one, and a run on the first. -/
def sharedRequests : ℕ → Request
  | 1 => .ensure "server" "hub-b"
  | _ => .ensure "server" "hub-a"

/-- The first two runs log the server in, and the third one finds the record of the first. -/
def sharedLog : Trail ℕ Answer :=
  labelled 0 (readSteps (hub "hub-a" "alice" "token-a") none ++
      loginSteps "hub-a" ⟨[], "alice", "token-a"⟩ 2) ++
    labelled 1 (readSteps (hub "hub-b" "bob" "token-b") none ++
      loginSteps "hub-b" ⟨[], "bob", "token-b"⟩ 3) ++
    labelled 2 (readSteps (hub "hub-a" "alice" "token-a") (some 2))

theorem runs_sharedLog : Runs plain sharedRequests (loggedOut twoHubs) sharedLog where
  traces thread := by
    match thread with
    | 0 | 1 => exact .call _ (.call _ (.call _ (.call _ (.call _ (.call _ (.call _ (.start _)))))))
    | 2 => exact .call _ (.call _ (.call _ (.start _)))
    | thread + 3 => exact .start _
  consistent := by
    refine ⟨rfl, rfl, rfl, trivial, trivial, trivial, trivial, rfl, rfl, rfl, trivial, trivial,
      trivial, trivial, rfl, rfl, rfl, trivial⟩

theorem spares_readSteps (conn : RegistryConnection) (loggedInAt : Option ℕ) :
    ∀ event ∈ readSteps conn loggedInAt, Spares event := by
  intro event hevent
  simp only [readSteps, mem_cons, not_mem_nil, or_false] at hevent
  rcases hevent with rfl | rfl | rfl <;> exact fun _ ↦ rfl

theorem spares_loginSteps (id : String) (args : DockerLoginArgs) (time : ℕ) :
    ∀ event ∈ loginSteps id args time, Spares event := by
  intro event hevent
  simp only [loginSteps, mem_cons, not_mem_nil, or_false] at hevent
  rcases hevent with rfl | rfl | rfl | rfl <;> exact fun _ ↦ rfl

theorem spares_sharedLog : ∀ event ∈ sharedLog.map Prod.snd, Spares event := by
  intro event hevent
  simp only [sharedLog, labelled, map_append, map_map, mem_append, Function.comp_def, map_id'] at hevent
  rcases hevent with ((hread | hlogin) | hread | hlogin) | hread
  · exact spares_readSteps _ _ event hread
  · exact spares_loginSteps _ _ _ event hlogin
  · exact spares_readSteps _ _ event hread
  · exact spares_loginSteps _ _ _ event hlogin
  · exact spares_readSteps _ _ event hread

theorem connections_final {events : List (Event Answer)} (h : ∀ event ∈ events, Spares event)
    (store : RegistryStore) :
    (registrySemantics.final store events).connections = store.connections := by
  induction events generalizing store with
  | nil => rfl
  | cons event rest ih =>
    have hrest := ih (fun other hother ↦ h other (mem_cons_of_mem event hother))
      (registrySemantics.after store event)
    exact hrest.trans (h event mem_cons_self store)

/-- The record of the first connection stays fresh after the login with the second one. -/
theorem not_registryLoginSound_sharedHost :
    Runs plain sharedRequests (loggedOut twoHubs) sharedLog ∧
      (loggedOut twoHubs).Sound plain ∧
      Traces (handle plain (sharedRequests 2)) (projection 2 sharedLog)
        (some (.ok (.ensured .fresh))) ∧
      ¬ AssuredSince plain (loggedOut twoHubs) sharedLog 2 "server" "hub-a" := by
  refine ⟨runs_sharedLog, sound_loggedOut plain twoHubs, .call _ (.call _ (.call _ (.done _))), ?_⟩
  rintro ⟨point, hbegins, -, args, hargs, hlast⟩
  have hconnections : (storeAfter (loggedOut twoHubs) point).connections = twoHubs :=
    connections_final (fun event hevent ↦ spares_sharedLog event
      ((hbegins.map Prod.snd).subset hevent)) (loggedOut twoHubs)
  rw [RegistryStore.loginArgs, hconnections] at hargs
  have halice : args = ⟨[], "alice", "token-a"⟩ := (Option.some.inj hargs).symm
  have hbob : (storeAfter (loggedOut twoHubs) sharedLog).lastLogin ("server", []) =
      some ⟨[], "bob", "token-b"⟩ := rfl
  rw [halice] at hlast
  exact absurd (hbob.symm.trans hlast) (by decide)

theorem noConflict_oneHub (h : store.connections = oneHub) :
    NoConflict plain store ⟨.login "server" ⟨[], "alice", "token-a"⟩, .ok ()⟩ := by
  intro serverId given hcall id args hargs _
  rw [RegistryStore.loginArgs, h] at hargs
  obtain ⟨conn, hconn, hloginArgs⟩ := Option.bind_eq_some_iff.mp hargs
  have hhub := mem_singleton.mp (Table.find?_eq_some_iff.mp hconn).1
  rw [hhub] at hloginArgs
  obtain ⟨-, rfl⟩ := Call.login.inj hcall
  exact (Option.some.inj hloginArgs).symm

/-- The steps of a login and of a run that finds its record, before that run's last step. -/
def loggedInLog : Trail ℕ Answer :=
  labelled 0 (readSteps (hub "hub-a" "alice" "token-a") none ++
      loginSteps "hub-a" ⟨[], "alice", "token-a"⟩ 2) ++
    labelled 1 ((readSteps (hub "hub-a" "alice" "token-a") (some 2)).take 2)

/-- A step that neither changes the only connection nor logs in. -/
theorem undisturbed_oneHub {before : Trail ℕ Answer} {entry : ℕ × Event Answer}
    (hspares : Spares entry.2) (hne : ∀ serverId args, entry.2.call ≠ .login serverId args) :
    Undisturbed plain (fun _ : ℕ ↦ .ensure "server" "hub-a") (loggedOut oneHub) before entry :=
  undisturbed_of_spares plain hspares fun serverId given hcall ↦ absurd hcall (hne serverId given)

/-- A login with the only connection, and a run that finds its record. -/
theorem registryLoginSound_oneHub :
    AssuredSince plain (loggedOut oneHub)
      (loggedInLog ++ [(1, ⟨.findLogin "server" "hub-a", .ok (some 2)⟩)]) 1 "server" "hub-a" := by
  refine registryLoginSound plain (fun _ ↦ .ensure "server" "hub-a") (loggedOut oneHub) loggedInLog 1
    ⟨.findLogin "server" "hub-a", .ok (some 2)⟩ "server" "hub-a" (.ensured .fresh) ⟨fun thread ↦ ?_, ?_⟩
    rfl (.call _ (.call _ (.call _ (.done _)))) trivial (sound_loggedOut plain oneHub)
    (everyStep_of_stepsAfter ?_)
  · match thread with
    | 0 => exact .call _ (.call _ (.call _ (.call _ (.call _ (.call _ (.call _ (.start _)))))))
    | 1 => exact .call _ (.call _ (.call _ (.start _)))
    | thread + 2 => exact .start _
  · refine ⟨rfl, rfl, rfl, trivial, trivial, trivial, trivial, rfl, rfl, rfl, trivial⟩
  · refine ⟨?_, ?_, ?_, undisturbed_of_spares plain (fun _ ↦ rfl) (noConflict_oneHub rfl),
      ?_, ?_, ?_, ?_, ?_, ?_, trivial⟩
    all_goals exact undisturbed_oneHub (fun _ ↦ rfl) fun _ _ ↦ nofun

end Bridgeport.Registries
