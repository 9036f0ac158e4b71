import Bridgeport.Foundation.JsonValues

/-!
# Authentication

`authenticate` turns the `Authorization` header into an `AuthUser`: `validateApiToken` looks the
token up by its hash and refuses an expired one and one of a disabled service account, and a token
that is not an API token may be a JWT. A user of an API token passes `enforceTokenScope`, and every
user `enforceRoleForMethod`. The tokens of a deleted owner are deleted with it.

The throttled updates of `lastUsedAt` and `lastActiveAt` are left out, and so are the fields of the
rows that no check reads. The hash of a token and the verification of a JWT are parameters.
-/

namespace Bridgeport.Api

open Foundation

/-- `ErrorCode`. -/
inductive ErrorCode
  | validationError
  | readonlyField
  | unauthorized
  | forbiddenScope
  | forbiddenRole
  | notFound
  | conflict
  | idempotencyKeyReused
  | rateLimited
  | serviceUnavailable
  | internal

def statusForCode : ErrorCode → ℕ
  | .validationError => 400
  | .readonlyField => 422
  | .unauthorized => 401
  | .forbiddenScope => 403
  | .forbiddenRole => 403
  | .notFound => 404
  | .conflict => 409
  | .idempotencyKeyReused => 409
  | .rateLimited => 429
  | .serviceUnavailable => 503
  | .internal => 500

structure ApiError where
  code : ErrorCode
  message : String
  field : Option String := none
  hint : Option String := none

inductive Method
  | get
  | head
  | options
  | post
  | put
  | patch
  | delete
  deriving DecidableEq

/-- `request.body`: nothing, a JSON value, or what another parser leaves (parts of an upload, a
buffer). -/
inductive Body
  | absent
  | json (value : Json) (wellFormed : value.WellFormed)
  | other

/-- A request, as far as the hooks read it. The routing has found the pattern of its route, or the
URL stands for it, and the values of the route parameters. -/
structure Request where
  method : Method
  routerPath : String
  (params query : List (String × String))
  (authorization cookie : Option String)
  /-- The values of the header `idempotency-key`. -/
  idempotencyKey : List String
  body : Body

def Request.param (request : Request) (name : String) : Option String :=
  request.params.lookup name

/-- `UserRole`. -/
inductive UserRole
  | admin
  | operator
  | viewer
  deriving DecidableEq

def roleHierarchy : UserRole → ℕ
  | .admin => 3
  | .operator => 2
  | .viewer => 1

def hasMinimumRole (userRole minimumRole : UserRole) : Bool :=
  roleHierarchy userRole ≥ roleHierarchy minimumRole

structure User where
  (id email : String)
  name : Option String
  role : UserRole

structure ServiceAccount where
  (id name : String)
  role : UserRole
  disabled : Bool

/-- An API token row, with the environments that it is allowed in. -/
structure ApiToken where
  (id tokenHash : String)
  role : UserRole
  allEnvironments : Bool
  environmentIds : List String
  expiresAt : Option ℕ
  (userId serviceAccountId : Option String)

/-- The tables of principals. -/
structure Accounts where
  users : List User
  serviceAccounts : List ServiceAccount
  apiTokens : List ApiToken

structure TokenScope where
  allEnvironments : Bool
  environmentIds : List String

structure AuthUser where
  (id email : String)
  name : Option String
  role : UserRole
  apiTokenId : Option String := none
  serviceAccountId : Option String := none
  scope : Option TokenScope := none

def Accounts.getUserById (accounts : Accounts) (id : String) : Option AuthUser :=
  (accounts.users.find? (·.id = id)).map fun user ↦
    { id := user.id, email := user.email, name := user.name, role := user.role }

section

variable (hashToken : String → String)

/-- The user behind a token that is stored and has not expired. -/
def validateApiToken (accounts : Accounts) (now : ℕ) (token : String) : Option AuthUser :=
  match accounts.apiTokens.find? (·.tokenHash = hashToken token) with
  | none => none
  | some tokenRecord =>
    let user := tokenRecord.userId.bind fun id ↦ accounts.users.find? (·.id = id)
    let serviceAccount :=
      tokenRecord.serviceAccountId.bind fun id ↦ accounts.serviceAccounts.find? (·.id = id)
    if tokenRecord.expiresAt.any (· < now) then none
    else if serviceAccount.any (·.disabled) then none
    else
      let scope : TokenScope := ⟨tokenRecord.allEnvironments, tokenRecord.environmentIds⟩
      let effectiveRole (ownerRole : UserRole) : UserRole :=
        if hasMinimumRole ownerRole tokenRecord.role then tokenRecord.role else ownerRole
      match user, serviceAccount with
      | some user, _ =>
        some { id := user.id, email := user.email, name := user.name
               role := effectiveRole user.role
               apiTokenId := some tokenRecord.id, scope := some scope }
      | none, some account =>
        some { id := "sa:" ++ account.id, email := account.name ++ "@service-account.local"
               name := some account.name
               role := effectiveRole account.role
               apiTokenId := some tokenRecord.id
               serviceAccountId := some account.id, scope := some scope }
      | none, none => none

end

/-- `SCOPE_EXEMPT_ROUTES`. -/
def scopeExemptRoutes : List (Method × String) :=
  [(.get, "/api/auth/me"), (.get, "/api/environments"), (.post, "/mcp"), (.get, "/mcp"),
    (.delete, "/mcp")]

/-- `VIEWER_ALLOWED_MUTATIONS`. -/
def viewerAllowedMutations : List (Method × String) :=
  [(.post, "/api/notifications/:id/read"), (.post, "/api/notifications/read-all"),
    (.put, "/api/notifications/preferences/:typeId"), (.patch, "/api/users/:id"),
    (.post, "/api/users/:id/change-password"),
    (.post, "/api/databases/:id/backup-policy/preview"), (.post, "/mcp"), (.delete, "/mcp")]

/-- `READONLY_METHODS`. -/
def readonlyMethods : List Method :=
  [.get, .head, .options]

def extractEnvIdFromPath (request : Request) : Option String :=
  if "/api/environments/".toList.isPrefixOf request.routerPath.toList then
    (request.param "envId").or (request.param "id")
  else none

def enforceTokenScope (user : AuthUser) (request : Request) : Except ApiError Unit :=
  match user.scope with
  | none => .ok ()
  | some scope =>
    if scope.allEnvironments then .ok ()
    else if (request.method, request.routerPath) ∈ scopeExemptRoutes then .ok ()
    else
      match (extractEnvIdFromPath request).filter (· ≠ "") with
      | some envId =>
        if envId ∈ scope.environmentIds then .ok ()
        else .error ⟨.forbiddenScope, "Token is not scoped to this environment", none, none⟩
      | none => .error ⟨.forbiddenScope,
          "Token is scoped to specific environments and cannot access global resources", none, none⟩

def enforceRoleForMethod (user : AuthUser) (request : Request) : Except ApiError Unit :=
  if request.method ∈ readonlyMethods then .ok ()
  else if user.role = .admin ∨ user.role = .operator then .ok ()
  else if (request.method, request.routerPath) ∈ viewerAllowedMutations then .ok ()
  else .error ⟨.forbiddenRole, "This action requires operator or admin role", none, none⟩

/-- What authentication uses of the runtime: the hash of a token, and the id in a JWT. -/
structure Credentials where
  hashToken : String → String
  /-- `request.jwtVerify` at a time, for the value of the `Authorization` header. -/
  jwtVerify : ℕ → String → Option String

/-- `authHeader.slice(7)` behind `Bearer `. -/
def bearerToken (authorization : Option String) : Option String :=
  authorization.bind fun header ↦
    if "Bearer ".toList.isPrefixOf header.toList then some (String.ofList (header.toList.drop 7))
    else none

variable (credentials : Credentials)

def jwtUser (accounts : Accounts) (now : ℕ) (authorization : String) : Option AuthUser :=
  ((credentials.jwtVerify now authorization).filter (· ≠ "")).bind accounts.getUserById

def authenticate (accounts : Accounts) (now : ℕ) (request : Request) : Except ApiError AuthUser :=
  match request.authorization, bearerToken request.authorization with
  | some authorization, some token =>
    match validateApiToken credentials.hashToken accounts now token with
    | some user => do
      enforceTokenScope user request
      enforceRoleForMethod user request
      return user
    | none =>
      match jwtUser credentials accounts now authorization with
      | some user => do
        enforceRoleForMethod user request
        return user
      | none => .error ⟨.unauthorized, "Unauthorized", none, none⟩
  | _, _ => .error ⟨.unauthorized, "Unauthorized", none, none⟩

/-! ### Principals and their tokens -/

variable (hashToken : String → String)

section

open List

structure CreateTokenInput where
  role : UserRole
  allEnvironments : Bool
  environmentIds : Option (List String)
  expiresAt : Option ℕ
  (ownerUserId ownerServiceAccountId : Option String)

variable (accounts : Accounts) (input : CreateTokenInput)

def resolveOwnerRole : Option UserRole :=
  match input.ownerUserId.filter (· ≠ ""), input.ownerServiceAccountId.filter (· ≠ "") with
  | some id, _ => (accounts.users.find? (·.id = id)).map (·.role)
  | none, some id =>
    ((accounts.serviceAccounts.find? (·.id = id)).filter (!·.disabled)).map (·.role)
  | none, none => none

def roleText : UserRole → String
  | .admin => "admin"
  | .operator => "operator"
  | .viewer => "viewer"

/-- `createApiToken`, with the id and the secret that are generated. -/
def createApiToken (id token : String) : Except String ApiToken :=
  let ownerUserId := input.ownerUserId.filter (· ≠ "")
  let ownerServiceAccountId := input.ownerServiceAccountId.filter (· ≠ "")
  if ownerUserId.isNone ∧ ownerServiceAccountId.isNone then
    .error "Token must have an owner (user or service account)"
  else if ownerUserId.isSome ∧ ownerServiceAccountId.isSome then
    .error "Token cannot have both a user and a service account owner"
  else
    match resolveOwnerRole accounts input with
    | none => .error "Owner not found or disabled"
    | some ownerRole =>
      if ¬ hasMinimumRole ownerRole input.role then
        .error ("Token role (" ++ roleText input.role ++ ") exceeds owner role (" ++
          roleText ownerRole ++ ")")
      else
        let environmentIds := if input.allEnvironments then [] else input.environmentIds.getD []
        if ¬ input.allEnvironments ∧ environmentIds = [] then
          .error "Specific-environments scope requires at least one environment ID"
        else
          .ok ⟨id, hashToken token, input.role, input.allEnvironments, environmentIds,
            input.expiresAt, input.ownerUserId, input.ownerServiceAccountId⟩

theorem tokenHash_of_createApiToken {hashToken : String → String} {accounts : Accounts}
    {input : CreateTokenInput} {id token : String} {tokenRecord : ApiToken}
    (h : createApiToken hashToken accounts input id token = .ok tokenRecord) :
    tokenRecord.tokenHash = hashToken token := by
  unfold createApiToken at h
  dsimp only at h
  cases hrole : resolveOwnerRole accounts input with
  | none =>
    rw [hrole] at h
    split_ifs at h
  | some ownerRole =>
    rw [hrole] at h
    dsimp only at h
    split_ifs at h <;> cases h <;> rfl

inductive AccountEvent
  | createUser (user : User)
  | updateUserRole (id : String) (role : UserRole)
  | deleteUser (id : String)
  | createServiceAccount (account : ServiceAccount)
  | updateServiceAccount (id : String) (role : Option UserRole) (disabled : Option Bool)
  | deleteServiceAccount (id : String)
  | createApiToken (input : CreateTokenInput) (id token : String)
  | deleteApiToken (id : String)

/-- The tables after a change; the ids of new rows are new, and so is the hash of a new token. -/
def Accounts.apply : AccountEvent → Accounts
  | .createUser user =>
    if accounts.users.any (·.id = user.id) then accounts
    else { accounts with users := accounts.users ++ [user] }
  | .updateUserRole id role =>
    { accounts with users := accounts.users.map fun user ↦
        if user.id = id then { user with role := role } else user }
  | .deleteUser id =>
    { accounts with
      users := accounts.users.filter (·.id ≠ id)
      apiTokens := accounts.apiTokens.filter (·.userId ≠ some id) }
  | .createServiceAccount account =>
    if accounts.serviceAccounts.any (·.id = account.id) then accounts
    else { accounts with serviceAccounts := accounts.serviceAccounts ++ [account] }
  | .updateServiceAccount id role disabled =>
    { accounts with serviceAccounts := accounts.serviceAccounts.map fun account ↦
        if account.id = id then
          { account with
            role := role.getD account.role
            disabled := disabled.getD account.disabled }
        else account }
  | .deleteServiceAccount id =>
    { accounts with
      serviceAccounts := accounts.serviceAccounts.filter (·.id ≠ id)
      apiTokens := accounts.apiTokens.filter (·.serviceAccountId ≠ some id) }
  | .createApiToken input id token =>
    match createApiToken hashToken accounts input id token with
    | .error _ => accounts
    | .ok tokenRecord =>
      if accounts.apiTokens.any (fun row ↦ row.id = id ∨ row.tokenHash = tokenRecord.tokenHash) then
        accounts
      else { accounts with apiTokens := accounts.apiTokens ++ [tokenRecord] }
  | .deleteApiToken id =>
    { accounts with apiTokens := accounts.apiTokens.filter (·.id ≠ id) }

/-! ### Revocation -/

section

variable (hashToken : String → String) (accounts : Accounts) (now : ℕ) (token : String)

def Deleted : Prop :=
  ∀ row ∈ accounts.apiTokens, row.tokenHash ≠ hashToken token

def Expired : Prop :=
  ∀ row ∈ accounts.apiTokens, row.tokenHash = hashToken token → ∃ time, row.expiresAt = some time ∧
    time < now

/-- Every row of the token belongs to a disabled service account. -/
def OwnerDisabled : Prop :=
  ∀ row ∈ accounts.apiTokens, row.tokenHash = hashToken token →
    ∃ id account, row.serviceAccountId = some id ∧
      accounts.serviceAccounts.find? (·.id = id) = some account ∧ account.disabled = true

/-- The token has been deleted, has expired, or its service account has been disabled. -/
def Revoked : Prop :=
  Deleted hashToken accounts token ∨ Expired hashToken accounts now token ∨
    OwnerDisabled hashToken accounts token

end

variable {hashToken : String → String} {accounts : Accounts} {now : ℕ} {token : String}

theorem validateApiToken_of_revoked (h : Revoked hashToken accounts now token) :
    validateApiToken hashToken accounts now token = none := by
  unfold validateApiToken
  cases hfind : accounts.apiTokens.find? (·.tokenHash = hashToken token) with
  | none => rfl
  | some row =>
    have hmem := mem_of_find?_eq_some hfind
    have hhash : row.tokenHash = hashToken token := by simpa using List.find?_some hfind
    dsimp only
    rcases h with hdeleted | hexpired | hdisabled
    · exact absurd hhash (hdeleted row hmem)
    · obtain ⟨time, htime, hlate⟩ := hexpired row hmem hhash
      rw [if_pos (by simp [htime, hlate])]
    · obtain ⟨id, account, hid, haccount, hoff⟩ := hdisabled row hmem hhash
      have hfound : (row.serviceAccountId.bind fun id ↦
          accounts.serviceAccounts.find? (·.id = id)) = some account := by
        rw [hid]
        exact haccount
      rw [hfound]
      split_ifs with hexpires hany
      · rfl
      · rfl
      · exact absurd hoff (by simpa using hany)

variable {event : AccountEvent}

/-- The tokens after a change are tokens from before it, or a new one. -/
theorem mem_apiTokens_apply {row : ApiToken}
    (h : row ∈ (accounts.apply hashToken event).apiTokens) :
    row ∈ accounts.apiTokens ∨
      ∃ input id secret, event = .createApiToken input id secret ∧
        row.tokenHash = hashToken secret := by
  cases event with
  | createUser _ | createServiceAccount _ =>
    simp only [Accounts.apply] at h
    split_ifs at h <;> exact .inl h
  | updateUserRole _ _ | updateServiceAccount _ _ _ => exact .inl h
  | deleteUser _ | deleteServiceAccount _ | deleteApiToken _ => exact .inl (mem_of_mem_filter h)
  | createApiToken input id secret =>
    simp only [Accounts.apply] at h
    split at h
    · exact .inl h
    · rename_i tokenRecord hcreated
      split_ifs at h
      · exact .inl h
      · rcases mem_append.mp h with hold | hnew
        · exact .inl hold
        · rw [mem_singleton.mp hnew]
          exact .inr ⟨input, id, secret, rfl, tokenHash_of_createApiToken hcreated⟩

/-- The change does not mint the token again. -/
def AccountEvent.Spares (hashToken : String → String) (token : String) (event : AccountEvent) : Prop :=
  ∀ input id secret, event = .createApiToken input id secret → hashToken secret ≠ hashToken token

section

variable (hevent : event.Spares hashToken token)

include hevent

/-- The rows of a token after a change were there before it. -/
theorem mem_apiTokens_of_spares {row : ApiToken}
    (h : row ∈ (accounts.apply hashToken event).apiTokens)
    (hhash : row.tokenHash = hashToken token) : row ∈ accounts.apiTokens := by
  rcases mem_apiTokens_apply h with hold | ⟨input, id, secret, rfl, hsecret⟩
  · exact hold
  · exact absurd (hsecret.symm.trans hhash) (hevent input id secret rfl)

theorem expired_apply {later : ℕ} (hlater : now ≤ later)
    (h : Expired hashToken accounts now token) :
    Expired hashToken (accounts.apply hashToken event) later token := by
  intro row hmem hhash
  obtain ⟨time, htime, hlate⟩ := h row (mem_apiTokens_of_spares hevent hmem hhash) hhash
  exact ⟨time, htime, Nat.lt_of_lt_of_le hlate hlater⟩

end

end

end Bridgeport.Api
