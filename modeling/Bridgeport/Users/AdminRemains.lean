import Bridgeport.Foundation.Threads
import Bridgeport.Secrets.SecretStore

/-!
# An administrator remains

Any number of requests run at once, each with the user of its session. There is an administrator
after every run that starts with one, and no step changes the role of the user who makes it
(`administratorsRemain`), as long as

* no update is made for a PATCH of the maker's own account with another role than the maker has
  (`LeavesOwnRole`), and
* no administrator loses the role or the account while a request of theirs that has passed the hooks
  can still change roles or delete users (`NotWhileActing`).
-/

namespace Bridgeport.Users

/-! ### The routes of users -/

section

open Api (ApiError AuthUser Method User UserRole enforceRoleForMethod)
open Foundation Program
open Secrets (requireAdmin)

instance : Keyed User :=
  ⟨User.id⟩

/-- A body that `createUserSchema` accepts. -/
structure CreateUserBody where
  (email password : String)
  name : Option String
  role : UserRole

/-- A body that `updateUserSchema` accepts, and the data of an update. -/
structure UpdateUserBody where
  name : Option String
  role : Option UserRole

def UpdateUserBody.apply (data : UpdateUserBody) (row : User) : User :=
  { row with name := data.name.or row.name, role := data.role.getD row.role }

theorem UpdateUserBody.id_apply (data : UpdateUserBody) (row : User) :
    Keyed.id (data.apply row) = Keyed.id row :=
  rfl

/-- A body as `validateUpdateBody` finds it. -/
inductive UpdateBody
  | readonlyField (error : ApiError)
  | invalid
  | valid (body : UpdateUserBody)

/-- The routes that change users; an invalid body of a creation is none. -/
inductive Route
  | createUser (body : Option CreateUserBody)
  | updateUser (id : String) (body : UpdateBody)
  | deleteUser (id : String)

/-- A request with the user id of its JWT. -/
structure UserRequest where
  session : String
  route : Route

variable (route : Route)

/-- The method, the path and the parameters of a route, as far as the hooks read them. -/
def Route.request : Api.Request :=
  let request (method : Method) (routerPath : String) (params : List (String × String)) :
      Api.Request :=
    { method, routerPath, params, query := [], authorization := none, cookie := none,
      idempotencyKey := [], body := .other }
  match route with
  | .createUser _ => request .post "/api/users" []
  | .updateUser id _ => request .patch "/api/users/:id" [("id", id)]
  | .deleteUser id => request .delete "/api/users/:id" [("id", id)]

inductive Reply
  | apiError (error : ApiError)
  | status (code : ℕ) (error : String)
  | user (user : User)
  | success

inductive Call
  | getUserById (id : String)
  | findByEmail (email : String)
  | hash (password : String)
  | createUser (email : String) (name : Option String) (role : UserRole)
  | findUser (id : String)
  | updateUser (id : String) (data : UpdateUserBody)
  | deleteUser (id : String)
  | createAuditLog (action resourceId : String)
  | send (type userId : String)

@[reducible]
def Answer : Call → Type
  | .getUserById _ => Option User
  | .findByEmail _ => Option User
  | .hash _ => String
  | .createUser _ _ _ => User
  | .findUser _ => Option User
  | .updateUser _ _ => User
  | .deleteUser _ => Unit
  | .createAuditLog _ _ => Unit
  | .send _ _ => Unit

/-- Asynchronous code over these calls. -/
abbrev Async := Program Answer

def await (request : Call) : Async (Answer request) :=
  perform request

def requireAdminOrSelf (targetId : String) (user : AuthUser) : Except ApiError Unit :=
  if user.role = .admin then .ok ()
  else if user.id ≠ targetId then .error ⟨.forbiddenRole, "Access denied", none, none⟩
  else .ok ()

def Route.guard : Route → AuthUser → Except ApiError Unit
  | .createUser _ => requireAdmin
  | .updateUser id _ => requireAdminOrSelf id
  | .deleteUser _ => requireAdmin

/-- The user of a session as `getUserById` returns it. -/
def authUserOf (row : User) : AuthUser :=
  { id := row.id, email := row.email, name := row.name, role := row.role }

/-- What the hooks decide for the user of a session. -/
def preHandler (fullUser : Option User) : Except ApiError AuthUser :=
  match fullUser with
  | none => .error ⟨.unauthorized, "Unauthorized", none, none⟩
  | some row => do
    enforceRoleForMethod (authUserOf row) route.request
    route.guard (authUserOf row)
    return authUserOf row

/-! ### Handlers -/

def logAudit (action resourceId : String) : Async Unit :=
  (await (.createAuditLog action resourceId)).tryCatch fun _ ↦ pure ()

/-- The handler of `POST /api/users`. -/
def createUser (body : Option CreateUserBody) : Async Reply :=
  match body with
  | none => return .status 400 "Invalid input"
  | some body => do
    let existing ← await (.findByEmail body.email)
    if existing.isSome then return .status 409 "Email already in use"
    else
      let _ ← await (.hash body.password)
      let user ← await (.createUser body.email body.name body.role)
      logAudit "create" user.id
      await (.send "USER_ACCOUNT_CREATED" user.id)
      return .user user

def updateDataOf (isAdmin : Bool) (body : UpdateUserBody) : UpdateUserBody :=
  ⟨body.name, if isAdmin then body.role else none⟩

variable (authUser : AuthUser)

/-- The handler of `PATCH /api/users/:id`. -/
def updateUser (id : String) (body : UpdateBody) : Async Reply :=
  match body with
  | .readonlyField error => return .apiError error
  | .invalid => return .status 400 "Invalid input"
  | .valid body => do
    let existingUser ← await (.findUser id)
    match existingUser with
    | none => return .status 404 "User not found"
    | some existingUser =>
      let isAdmin : Bool := authUser.role = .admin
      if ¬ isAdmin ∧ body.role.isSome then return .status 403 "Only admins can change user roles"
      else
        let user ← await (.updateUser id (updateDataOf isAdmin body))
        logAudit "update" user.id
        when ((updateDataOf isAdmin body).role.any (· ≠ existingUser.role))
          (await (.send "USER_ROLE_CHANGED" user.id))
        return .user user

/-- The handler of `DELETE /api/users/:id`. -/
def deleteUser (id : String) : Async Reply :=
  if id = authUser.id then return .status 400 "Cannot delete your own account"
  else do
    let user ← await (.findUser id)
    match user with
    | none => return .status 404 "User not found"
    | some _ =>
      await (.deleteUser id)
      logAudit "delete" id
      return .success

def Route.handler : Async Reply :=
  match route with
  | .createUser body => Users.createUser body
  | .updateUser id body => Users.updateUser authUser id body
  | .deleteUser id => Users.deleteUser authUser id

def handle (request : UserRequest) : Async Reply :=
  if request.session = "" then return .apiError ⟨.unauthorized, "Unauthorized", none, none⟩
  else do
    let fullUser ← await (.getUserById request.session)
    match preHandler request.route fullUser with
    | .error error => return .apiError error
    | .ok authUser => request.route.handler authUser

/-- The users under the calls of the requests. -/
def userSemantics : Semantics Answer (Table User) where
  allows users event :=
    match event with
    | ⟨.getUserById id, .ok found⟩ => found = users.find? id
    | ⟨.findUser id, .ok found⟩ => found = users.find? id
    | ⟨.createUser email name role, .ok user⟩ =>
      users.Fresh user.id ∧ user = ⟨user.id, email, name, role⟩ ∧
        ∀ other ∈ users.rows, other.email ≠ email
    | ⟨.updateUser id data, .ok user⟩ => (users.find? id).map data.apply = some user
    | ⟨.deleteUser id, .ok _⟩ => (users.find? id).isSome
    | _ => True
  after users event :=
    match event with
    | ⟨.createUser _ _ _, .ok user⟩ => users.insert user
    | ⟨.updateUser id data, .ok _⟩ => users.update id data.apply data.id_apply
    | ⟨.deleteUser id, .ok _⟩ => users.erase id
    | _ => users

end

open Api (ApiError AuthUser User UserRole enforceRoleForMethod)
open Foundation Program Option Function
open Secrets (requireAdmin)

/-! ### Roles -/

variable (users : Table User)

def roleOf (id : String) : Option UserRole :=
  (users.find? id).map (·.role)

/-- There is a user with the role admin. -/
def HasAdmin : Prop :=
  ∃ id, roleOf users id = some .admin

/-- The step takes a role from a user. -/
def Takes (event : Event Answer) (id : String) (role : UserRole) : Prop :=
  roleOf users id = some role ∧ roleOf (userSemantics.after users event) id ≠ some role

/-- A call that changes roles or deletes users. -/
def Changes (request : Call) : Prop :=
  match request with
  | .updateUser _ data => data.role.isSome
  | .deleteUser _ => True
  | _ => False

section

variable {users : Table User} {event : Event Answer} {id : String} {role : UserRole}

theorem roleOf_insert {row : User} (hfresh : users.Fresh row.id)
    (hrole : roleOf users id = some role) :
    roleOf (users.insert row) id = some role := by
  obtain ⟨found, hfound, -⟩ := map_eq_some_iff.mp hrole
  have hne : row.id ≠ id := by
    rintro rfl
    exact Table.not_fresh_of_find? hfound hfresh
  have hfind : (users.insert row).find? id = users.find? id :=
    (Table.find?_insert hfresh id).trans (if_neg hne)
  rw [roleOf, hfind]
  exact hrole

section

variable (hallows : userSemantics.allows users event) (h : Takes users event id role)

include hallows h

theorem call_of_takes :
    (∃ data given, event.call = .updateUser id data ∧ data.role = some given ∧ given ≠ role) ∨
    event.call = .deleteUser id := by
  obtain ⟨hrole, hafter⟩ := h
  match event, hallows, hafter with
  | ⟨.createUser email name given, .ok user⟩, hallows, hafter =>
    exact absurd (roleOf_insert hallows.1 hrole) hafter
  | ⟨.updateUser other data, .ok user⟩, _, hafter =>
    by_cases hother : other = id
    · subst hother
      obtain ⟨row, hrow, hrole⟩ := map_eq_some_iff.mp hrole
      rw [roleOf, userSemantics, Table.find?_update, if_pos rfl, hrow] at hafter
      have hgiven : data.role.getD row.role ≠ role := fun hsame ↦ hafter (congrArg some hsame)
      cases hdata : data.role with
      | none =>
        rw [hdata] at hgiven
        exact absurd hrole hgiven
      | some given =>
        rw [hdata] at hgiven
        exact .inl ⟨data, given, rfl, hdata, hgiven⟩
    · refine absurd ?_ hafter
      rw [roleOf, userSemantics, Table.find?_update, if_neg hother]
      exact hrole
  | ⟨.deleteUser other, .ok _⟩, _, hafter =>
    by_cases hother : other = id
    · exact .inr (congrArg Call.deleteUser hother)
    · refine absurd ?_ hafter
      rw [roleOf, userSemantics, Table.find?_erase, if_neg hother]
      exact hrole
  | ⟨.getUserById _, _⟩, _, hafter => exact absurd hrole hafter
  | ⟨.findByEmail _, _⟩, _, hafter => exact absurd hrole hafter
  | ⟨.hash _, _⟩, _, hafter => exact absurd hrole hafter
  | ⟨.findUser _, _⟩, _, hafter => exact absurd hrole hafter
  | ⟨.createAuditLog _ _, _⟩, _, hafter => exact absurd hrole hafter
  | ⟨.send _ _, _⟩, _, hafter => exact absurd hrole hafter
  | ⟨.createUser _ _ _, .error _⟩, _, hafter => exact absurd hrole hafter
  | ⟨.updateUser _ _, .error _⟩, _, hafter => exact absurd hrole hafter
  | ⟨.deleteUser _, .error _⟩, _, hafter => exact absurd hrole hafter

theorem changes_of_takes : Changes event.call := by
  rcases call_of_takes hallows h with ⟨data, given, hcall, hdata, -⟩ | hcall
  · rw [hcall]
    exact isSome_of_eq_some hdata
  · rw [hcall]
    trivial

end

end

/-! ### A request as the others see it -/

/-- The request is a PATCH of the user to a role. -/
def UserRequest.AsksRole (request : UserRequest) (id : String) (role : UserRole) : Prop :=
  ∃ body, request.route = .updateUser id (.valid body) ∧ body.role = some role

/-- The request, and whether the hooks have found an administrator. -/
structure SessionState where
  request : UserRequest
  isAdmin : Bool

/-- Only the request of an administrator changes roles, as it asks, or deletes users, and none
deletes its own user. -/
def userProtocol : Protocol Answer SessionState where
  permits state request :=
    match request with
    | .updateUser id data => ∀ role, data.role = some role →
      state.isAdmin ∧ state.request.AsksRole id role
    | .deleteUser id => state.isAdmin ∧ id ≠ state.request.session
    | .getUserById id => id = state.request.session
    | _ => True
  advance state event :=
    match event with
    | ⟨.getUserById _, .ok (some row)⟩ => { state with isAdmin := row.role = .admin }
    | _ => state
  expects event :=
    match event with
    | ⟨.getUserById id, .ok (some row)⟩ => row.id = id
    | _ => True

/-- The state of a request before its first call. -/
def UserRequest.start (request : UserRequest) : SessionState :=
  ⟨request, false⟩

variable {id : String} {β α : Type} {next : Unit → Async β}

section

variable {state : SessionState}

/-- A program that follows the protocol, whatever it returns. -/
def Obeys (state : SessionState) (program : Async α) : Prop :=
  program.Follows userProtocol (fun _ _ ↦ True) state

theorem obeys_pure (value : α) : Obeys state (pure value : Async α) :=
  trivial

theorem obeys_logAudit_bind {action resourceId : String} (hnext : ∀ value, Obeys state (next value)) :
    Obeys state (logAudit action resourceId >>= next) := by
  refine follows_bind (follows_tryCatch ?_)
  refine ⟨trivial, fun answer _ ↦ ?_⟩
  cases answer with
  | ok value => exact hnext value
  | error message => exact hnext ()

theorem obeys_await_bind {request : Call} {next : Answer request → Async β}
    (hpermits : userProtocol.permits state request)
    (hsame : ∀ answer, userProtocol.advance state ⟨request, answer⟩ = state)
    (hnext : ∀ value, Obeys state (next value)) : Obeys state (await request >>= next) := by
  refine follows_perform_bind hpermits (fun value _ ↦ ?_) fun _ ↦ trivial
  rw [hsame]
  exact hnext value

theorem obeys_send_bind {type userId : String} (hnext : ∀ value, Obeys state (next value)) :
    Obeys state (await (.send type userId) >>= next) :=
  obeys_await_bind trivial (fun _ ↦ rfl) hnext

theorem obeys_createUser (body : Option CreateUserBody) : Obeys state (createUser body) := by
  cases body with
  | none => exact obeys_pure _
  | some body =>
    refine obeys_await_bind trivial (fun _ ↦ rfl) fun existing ↦
      Follows.ite (fun _ ↦ trivial) fun _ ↦ ?_
    refine obeys_await_bind trivial (fun _ ↦ rfl) fun _ ↦ ?_
    refine obeys_await_bind trivial (fun _ ↦ rfl) fun user ↦ ?_
    exact obeys_logAudit_bind fun _ ↦ obeys_send_bind fun _ ↦ obeys_pure _

variable {authUser : AuthUser}

theorem obeys_updateUser (hadmin : state.isAdmin = (authUser.role = .admin)) {body : UpdateBody}
    (hroute : state.request.route = .updateUser id body) :
    Obeys state (updateUser authUser id body) := by
  cases body with
  | readonlyField _ | invalid => exact obeys_pure _
  | valid body =>
    refine obeys_await_bind trivial (fun _ ↦ rfl) fun existing ↦ ?_
    cases existing with
    | none => exact obeys_pure _
    | some existing =>
      refine Follows.ite (fun _ ↦ trivial) fun _ ↦ ?_
      refine obeys_await_bind (fun role hrole ↦ ?_) (fun _ ↦ rfl) fun user ↦ ?_
      · by_cases hrole' : authUser.role = .admin
        · simp only [updateDataOf, hrole', decide_true, if_true] at hrole
          exact ⟨by simpa [hrole'] using hadmin, body, hroute, hrole⟩
        · simp [updateDataOf, hrole'] at hrole
      · refine obeys_logAudit_bind fun _ ↦ ?_
        unfold when
        split_ifs
        · exact obeys_send_bind fun _ ↦ obeys_pure _
        · exact obeys_pure _

theorem obeys_deleteUser (hadmin : state.isAdmin) (hid : authUser.id = state.request.session)
    (id : String) : Obeys state (deleteUser authUser id) := by
  refine Follows.ite (fun _ ↦ trivial) fun hne ↦ ?_
  refine obeys_await_bind trivial (fun _ ↦ rfl) fun user ↦ ?_
  cases user with
  | none => exact obeys_pure _
  | some user =>
    refine obeys_await_bind ⟨hadmin, hid ▸ hne⟩ (fun _ ↦ rfl) fun _ ↦ ?_
    exact obeys_logAudit_bind fun _ ↦ obeys_pure _

/-- The hooks let an administrator through to a deletion only. -/
theorem role_of_requireAdmin {user : AuthUser} (h : requireAdmin user = .ok ()) :
    user.role = .admin := by
  unfold requireAdmin at h
  by_contra hrole
  rw [if_neg hrole] at h
  nomatch h

/-- What the hooks let through is the user that they have read, and passes the guard of the
route. -/
theorem preHandler_eq_ok {route : Route} {fullUser : Option User}
    (h : preHandler route fullUser = .ok authUser) :
    ∃ row, fullUser = some row ∧ authUser = authUserOf row ∧
      route.guard (authUserOf row) = .ok () := by
  cases fullUser with
  | none => nomatch h
  | some row =>
    unfold preHandler at h
    dsimp only at h
    cases hmethod : enforceRoleForMethod (authUserOf row) route.request with
    | error error =>
      rw [hmethod] at h
      nomatch h
    | ok value =>
      cases hguard : route.guard (authUserOf row) with
      | error error =>
        rw [hmethod, hguard] at h
        nomatch h
      | ok value =>
        rw [hmethod, hguard] at h
        exact ⟨row, rfl, (Except.ok.inj h).symm, hguard⟩

theorem obeys_handler {route : Route} {row : User} (hguard : route.guard (authUserOf row) = .ok ())
    (hadmin : state.isAdmin = decide (row.role = .admin)) (hid : row.id = state.request.session)
    (hroute : state.request.route = route) : Obeys state (route.handler (authUserOf row)) := by
  cases route with
  | createUser body => exact obeys_createUser body
  | updateUser id body => exact obeys_updateUser (by simp [hadmin, authUserOf]) hroute
  | deleteUser id =>
    have hrole : row.role = .admin := role_of_requireAdmin hguard
    exact obeys_deleteUser (by simp [hadmin, hrole]) hid id

theorem obeys_handle (request : UserRequest) : Obeys request.start (handle request) := by
  refine Follows.ite (fun _ ↦ trivial) fun _ ↦ ?_
  refine follows_perform_bind rfl (fun fullUser hexpects ↦ ?_) fun _ ↦ trivial
  cases hhooks : preHandler request.route fullUser with
  | error error => trivial
  | ok authUser =>
    obtain ⟨row, rfl, rfl, hguard⟩ := preHandler_eq_ok hhooks
    exact obeys_handler hguard rfl hexpects rfl

end

section

variable {ι : Type*} [DecidableEq ι] (requests : ι → UserRequest) (users : Table User)
  (log : Trail ι Answer)

/-- A run of requests over a table of users. -/
def Runs : Prop :=
  Concurrent (fun thread ↦ handle (requests thread)) userSemantics users log

def usersAfter : Table User :=
  userSemantics.final users (log.map Prod.snd)

def sessionStates : ι → SessionState :=
  userProtocol.states (fun thread ↦ (requests thread).start) log

/-- The request can still change roles or delete users. -/
def StillActs (thread : ι) : Prop :=
  (handle (requests thread)).CanStill Changes (projection thread log)

/-- If the step is an update, its request is no PATCH of the maker's own account to another role
than the maker has. -/
def LeavesOwnRole (request : UserRequest) (users : Table User) (event : Event Answer) : Prop :=
  Changes event.call → ∀ role, request.AsksRole request.session role →
    roleOf users request.session = some role

variable (before : Trail ι Answer) (entry : ι × Event Answer)

/-- No other request that has been let through as that of an administrator, and that can still act,
is one of a user who loses the role or the account. -/
def NotWhileActing : Prop :=
  ∀ thread, thread ≠ entry.1 → (sessionStates requests before thread).isAdmin →
    StillActs requests before thread → ¬ Takes users entry.2 (requests thread).session .admin

/-- The conditions on a step of a run. -/
structure Undisturbed (requests : ι → UserRequest) (users : Table User)
    (before : Trail ι Answer) (entry : ι × Event Answer) : Prop where
  leavesOwnRole : LeavesOwnRole (requests entry.1) (usersAfter users before) entry.2
  notWhileActing : NotWhileActing requests (usersAfter users before) before entry

/-- The step leaves the role of the user who makes it as it is. -/
def KeepsMakersRole : Prop :=
  ∀ role, ¬ Takes (usersAfter users before) entry.2 (requests entry.1).session role

/-- A request that has been let through as that of an administrator and can still act is one of an
administrator. -/
def ActorsAreAdmins : Prop :=
  ∀ thread, (sessionStates requests log thread).isAdmin → StillActs requests log thread →
    roleOf (usersAfter users log) (requests thread).session = some .admin

variable {requests : ι → UserRequest} {users : Table User} {before log : Trail ι Answer}
  {entry : ι × Event Answer}

omit [DecidableEq ι] in
theorem usersAfter_concat (users : Table User) (before : Trail ι Answer)
    (entry : ι × Event Answer) : usersAfter users (before ++ [entry]) =
      userSemantics.after (usersAfter users before) entry.2 := by
  rw [usersAfter, List.map_append, Semantics.final_append]
  rfl

theorem StillActs.earlier {thread : ι} (h : StillActs requests (before ++ [entry]) thread) :
    StillActs requests before thread := by
  unfold StillActs at h
  rw [projection_append] at h
  exact h.of_append

theorem stillActs_of_step (hrun : Runs requests users (before ++ [entry]))
    (hchanges : Changes entry.2.call) : StillActs requests before entry.1 := by
  have htraces := hrun.traces entry.1
  rw [projection_append, ← Prod.mk.eta (p := entry), projection_singleton_self] at htraces
  exact htraces.canStill hchanges

theorem request_sessionStates (thread : ι) :
    (sessionStates requests log thread).request = requests thread := by
  induction log using List.reverseRecOn with
  | nil => rfl
  | append_singleton before entry ih =>
    rw [sessionStates, Protocol.states_concat]
    by_cases hthread : thread = entry.1
    · subst hthread
      rw [update_self]
      refine Eq.trans ?_ ih
      show (userProtocol.advance (sessionStates requests before entry.1) entry.2).request = _
      unfold userProtocol
      dsimp only
      split <;> rfl
    · rw [update_of_ne hthread]
      exact ih

theorem expects_run (hrun : Runs requests users log) :
    ∀ entry ∈ log, userProtocol.expects entry.2 := by
  refine Concurrent.expects hrun (fun _ ↦ True) trivial fun world event _ hallows ↦ ⟨trivial, ?_⟩
  unfold userProtocol
  dsimp only
  split
  · exact (Table.find?_eq_some_iff.mp (Eq.symm hallows)).2
  · trivial

section

variable (hrun : Runs requests users (before ++ [entry]))
include hrun

theorem permits_step : userProtocol.permits (sessionStates requests before entry.1) entry.2.call :=
  Concurrent.permits_last (fun thread ↦ obeys_handle (requests thread)) hrun (expects_run hrun)

/-- A step that meets the conditions takes no role from the user who makes it. -/
theorem keepsMakersRole_step (hundisturbed : Undisturbed requests users before entry) :
    KeepsMakersRole requests users before entry := by
  intro role htakes
  have hchanges := changes_of_takes hrun.allows_last htakes
  have hpermits := permits_step hrun
  rcases call_of_takes hrun.allows_last htakes with ⟨data, given, hcall, hdata, hne⟩ | hcall
  · rw [hcall] at hpermits
    have hasks := (hpermits given hdata).2
    rw [request_sessionStates] at hasks
    have hgiven := hundisturbed.leavesOwnRole hchanges given hasks
    exact hne (some.inj (hgiven.symm.trans htakes.1))
  · rw [hcall] at hpermits
    exact hpermits.2 (congrArg UserRequest.session (request_sessionStates entry.1)).symm

theorem isAdmin_of_takes {role : UserRole}
    (htakes : Takes (usersAfter users before) entry.2 id role) :
    (sessionStates requests before entry.1).isAdmin := by
  have hpermits := permits_step hrun
  rcases call_of_takes hrun.allows_last htakes with ⟨data, given, hcall, hdata, -⟩ | hcall
  · rw [hcall] at hpermits
    exact (hpermits given hdata).1
  · rw [hcall] at hpermits
    exact hpermits.1

end

omit [DecidableEq ι] in
theorem roleOf_concat {role : UserRole} (hrole : roleOf (usersAfter users before) id = some role)
    (hkept : ¬ Takes (usersAfter users before) entry.2 id role) :
    roleOf (usersAfter users (before ++ [entry])) id = some role := by
  rw [usersAfter_concat]
  by_contra hlost
  exact hkept ⟨hrole, hlost⟩

section

variable (hrun : Runs requests users (before ++ [entry]))
include hrun

theorem hasAdmin_step (hundisturbed : Undisturbed requests users before entry)
    (hadmin : HasAdmin (usersAfter users before))
    (hactors : ActorsAreAdmins requests users before) :
    HasAdmin (usersAfter users (before ++ [entry])) := by
  obtain ⟨id, hid⟩ := hadmin
  by_cases htakes : Takes (usersAfter users before) entry.2 id .admin
  · have hmaker := hactors entry.1 (isAdmin_of_takes hrun htakes)
      (stillActs_of_step hrun (changes_of_takes hrun.allows_last htakes))
    exact ⟨_, roleOf_concat hmaker (keepsMakersRole_step hrun hundisturbed .admin)⟩
  · exact ⟨id, roleOf_concat hid htakes⟩

/-- A request that becomes one of an administrator has read the role from the table. -/
theorem roleOf_of_advance (hbefore : (sessionStates requests before entry.1).isAdmin = false)
    (hafter : (userProtocol.advance (sessionStates requests before entry.1) entry.2).isAdmin) :
    roleOf (usersAfter users before) (requests entry.1).session = some .admin := by
  have hallows := hrun.allows_last
  have hpermits := permits_step hrun
  obtain ⟨thread, event⟩ := entry
  dsimp only at hallows hpermits hbefore hafter ⊢
  unfold userProtocol at hafter
  dsimp only at hafter
  split at hafter
  · rename_i id row
    have hid : id = (requests thread).session :=
      hpermits.trans (congrArg UserRequest.session (request_sessionStates thread))
    have hfound : (usersAfter users before).find? id = some row := Eq.symm hallows
    have hrow : row.role = .admin := of_decide_eq_true hafter
    rw [roleOf, ← hid, hfound, map_some, hrow]
  · nomatch hbefore.symm.trans hafter

theorem actorsAreAdmins_step (hundisturbed : Undisturbed requests users before entry)
    (hactors : ActorsAreAdmins requests users before) :
    ActorsAreAdmins requests users (before ++ [entry]) := by
  intro thread hisAdmin hstill
  rw [sessionStates, Protocol.states_concat] at hisAdmin
  by_cases hthread : thread = entry.1
  · subst hthread
    rw [update_self] at hisAdmin
    refine roleOf_concat ?_ (keepsMakersRole_step hrun hundisturbed .admin)
    by_cases hbefore : (sessionStates requests before entry.1).isAdmin
    · exact hactors entry.1 hbefore hstill.earlier
    · exact roleOf_of_advance hrun (Bool.not_eq_true _ ▸ hbefore) hisAdmin
  · rw [update_of_ne hthread] at hisAdmin
    exact roleOf_concat (hactors thread hisAdmin hstill.earlier)
      (hundisturbed.notWhileActing thread hthread hisAdmin hstill.earlier)

end

/-- The administrator and the requests of administrators after a run whose steps meet the
conditions. -/
theorem hasAdmin_run (hrun : Runs requests users log) (hadmin : HasAdmin users)
    (hcondition : EveryStep (Undisturbed requests users) log) :
    HasAdmin (usersAfter users log) ∧ ActorsAreAdmins requests users log := by
  refine Concurrent.induction
    (fun log ↦ HasAdmin (usersAfter users log) ∧ ActorsAreAdmins requests users log)
    ⟨hadmin, fun _ h ↦ absurd h nofun⟩ ?_ hrun hcondition
  intro before entry hlonger hundisturbed ⟨hbefore, hactors⟩
  exact ⟨hasAdmin_step hlonger hundisturbed hbefore hactors,
    actorsAreAdmins_step hlonger hundisturbed hactors⟩

/-- There is an administrator after every run, and no step changes the role of the user who makes
it. Assumes: there is an administrator at first, and every step meets the conditions. -/
theorem administratorsRemain (requests : ι → UserRequest) (users : Table User)
    (log : Trail ι Answer) (hrun : Runs requests users log) (hadmin : HasAdmin users)
    (hcondition : EveryStep (Undisturbed requests users) log) :
    HasAdmin (usersAfter users log) ∧ EveryStep (KeepsMakersRole requests users) log := by
  refine ⟨(hasAdmin_run hrun hadmin hcondition).1, fun before entry after hsplit ↦ ?_⟩
  rw [List.append_cons] at hsplit
  subst hsplit
  exact keepsMakersRole_step hrun.of_append hcondition.of_append.last

end

/-! ### Administrators who take the role from themselves or from each other -/

def alice : User :=
  ⟨"alice", "alice@example.com", none, .admin⟩

def bob : User :=
  ⟨"bob", "bob@example.com", none, .admin⟩

def asViewer (row : User) : User :=
  { row with role := .viewer }

def demote (session id : String) : UserRequest :=
  ⟨session, .updateUser id (.valid ⟨none, some .viewer⟩)⟩

def demotion (maker row : User) : List (Event Answer) :=
  [⟨.getUserById maker.id, .ok (some maker)⟩, ⟨.findUser row.id, .ok (some row)⟩,
    ⟨.updateUser row.id ⟨none, some .viewer⟩, .ok (asViewer row)⟩]

theorem traces_demotion (maker row : User) (hsession : maker.id ≠ "")
    (hmaker : maker.role = .admin) :
    Traces (handle (demote maker.id row.id)) (demotion maker row) none := by
  obtain ⟨id, email, name, role⟩ := maker
  obtain rfl : role = .admin := hmaker
  have hne : (demote (User.mk id email name .admin).id row.id).session ≠ "" := hsession
  unfold handle
  rw [if_neg hne]
  exact .call _ (.call _ (.call _ (.start _)))

def onlyAlice : Table User :=
  ⟨[alice], by decide⟩

def aliceAndBob : Table User :=
  ⟨[alice, bob], by decide⟩

theorem hasAdmin_iff {users : Table User} : HasAdmin users ↔ ∃ row ∈ users.rows,
    row.role = .admin := by
  constructor
  · rintro ⟨id, hid⟩
    obtain ⟨row, hrow, hrole⟩ := map_eq_some_iff.mp hid
    exact ⟨row, (Table.find?_eq_some_iff.mp hrow).1, hrole⟩
  · rintro ⟨row, hrow, hrole⟩
    refine ⟨row.id, ?_⟩
    have hfound : users.find? row.id = some row := Table.find?_of_mem hrow
    rw [roleOf, hfound, map_some, hrole]

/-- The only administrator gives up the role. -/
theorem not_administratorsRemain_self :
    Runs (fun _ : Unit ↦ demote "alice" "alice") onlyAlice ((demotion alice alice).map ((), ·)) ∧
      HasAdmin onlyAlice ∧ ¬ HasAdmin (usersAfter onlyAlice ((demotion alice alice).map ((), ·))) := by
  have hsession : alice.id ≠ "" := by decide
  refine ⟨⟨fun _ ↦ traces_demotion alice alice hsession rfl, rfl, rfl, rfl, trivial⟩, ⟨"alice", rfl⟩, ?_⟩
  rw [hasAdmin_iff]
  have hrows : (usersAfter onlyAlice ((demotion alice alice).map ((), ·))).rows = [asViewer alice] := rfl
  rw [hrows]
  decide

/-- One of two administrators takes the role from the other one. -/
theorem administratorsRemain_demotion :
    HasAdmin (usersAfter aliceAndBob ((demotion alice bob).map ((), ·))) ∧
      EveryStep (KeepsMakersRole (fun _ : Unit ↦ demote "alice" "bob") aliceAndBob)
        ((demotion alice bob).map ((), ·)) := by
  have hsession : alice.id ≠ "" := by decide
  have hundisturbed : ∀ before (event : Event Answer),
      Undisturbed (fun _ : Unit ↦ demote "alice" "bob") aliceAndBob before ((), event) := by
    refine fun _ _ ↦ ⟨fun _ role hasks ↦ ?_, fun _ hne ↦ absurd rfl hne⟩
    obtain ⟨body, hroute, -⟩ := hasks
    exact absurd (Route.updateUser.inj hroute).1 (by decide)
  have hrun : Runs (fun _ : Unit ↦ demote "alice" "bob") aliceAndBob
      ((demotion alice bob).map ((), ·)) :=
    ⟨fun _ ↦ traces_demotion alice bob hsession rfl, rfl, rfl, rfl, trivial⟩
  refine administratorsRemain _ aliceAndBob _ hrun ⟨"alice", rfl⟩
    (everyStep_of_stepsAfter ⟨hundisturbed _ _, hundisturbed _ _, hundisturbed _ _, trivial⟩)

end Bridgeport.Users
