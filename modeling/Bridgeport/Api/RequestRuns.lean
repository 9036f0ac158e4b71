import Bridgeport.Api.Authenticate
import Bridgeport.ConfigSync.SyncConfigFile
import Bridgeport.Foundation.Machine
import Bridgeport.Foundation.Trimming

/-!
# Requests in flight

Any number of requests at once, with the idempotency rows and the tables of principals that they
share. The hooks of a request are cut at their queries: `preHandler` reads the row of its slot,
looks at the clock and the row, deletes a row, and creates its own; behind it the hook of the route
authenticates and the handler answers; at last `finalizeOnResponse` runs. Between any two of these
steps other requests go on, principals change and time passes.

A POST with an `Idempotency-Key` has a slot: the stored key, the pattern of the route, and the hash
of the body. The hash function and the handler are parameters. A query that throws ends the request
with an error, a deletion that fails is ignored, and so is a response that cannot be stored.

`Traced` is the invariant of the rows: every row has been created by one request, in the slot of
this request, and a row that is not in progress has its response.
-/

namespace Bridgeport.Api

section

open Foundation ConfigSync

/-- A SHA-256 digest in hexadecimal. -/
structure Digest where
  text : List Char
  length_text : text.length = 64
  deriving DecidableEq

/-- What the hooks use of the configuration and the runtime. -/
structure IdempotencyConfig where
  sha256 : List Char → Digest
  /-- `IDEMPOTENCY_RETENTION_MS`. -/
  retention : ℕ
  /-- `STALE_INPROGRESS_MS`. -/
  staleInProgress : ℕ

/-! ### The slot of a request -/

/-- `IDEMPOTENCY_EXEMPT_PATHS`. -/
def idempotencyExemptPaths : List String :=
  ["/api/sync/batch", "/mcp"]

def readKey (request : Request) : Except ApiError (Option (List Char)) :=
  match request.idempotencyKey.head? with
  | none => .ok none
  | some value =>
    let trimmed := trimBoth isTrimmed value.toList
    if trimmed = [] then .ok none
    else if trimmed.length > 200 then
      .error ⟨.validationError, "Idempotency-Key header is too long", some "Idempotency-Key", none⟩
    else .ok (some trimmed)

def bodyText : Body → Option (List Char)
  | .absent => some "null".toList
  | .json .null _ => some "null".toList
  | .json (.array elements) _ => some (Json.array elements).stringify
  | .json (.object members) _ => some (Json.object members).stringify
  | .json _ _ => none
  | .other => none

variable (sha256 : List Char → Digest)

def hashBody (body : Body) : Option Digest :=
  (bodyText body).map sha256

section

variable (request : Request)

def resolveEnvironmentId : Option String :=
  (request.param "envId").or (request.param "id")

/-- A header with more than white space. -/
def present (header : Option String) : Bool :=
  header.any fun value ↦ trimBoth isTrimmed value.toList ≠ []

def hasCredential : Bool :=
  present request.authorization || present request.cookie

/-- The credential that is hashed: the `Authorization` header, else the `Cookie` header. -/
def credential : String :=
  ((request.authorization.filter (· ≠ "")).or request.cookie).getD ""

def scopeHash : List Char :=
  (sha256 (credential request).toList).text.take 16

/-- What a row is looked up and created with. -/
structure Slot where
  key : List Char
  path : String
  requestHash : Digest
  environmentId : Option String

def storedKey (key : List Char) : List Char :=
  scopeHash sha256 request ++
    ':' :: (((resolveEnvironmentId request).getD "-").toList ++ ':' :: key)

/-- The beginning of `preHandler`, up to the look-up; a request without a slot passes. -/
def slotOf : Except ApiError (Option Slot) :=
  if request.method ≠ .post then .ok none
  else if request.routerPath ∈ idempotencyExemptPaths then .ok none
  else
    match readKey request with
    | .error error => .error error
    | .ok none => .ok none
    | .ok (some key) =>
      match hashBody sha256 request.body with
      | none => .ok none
      | some requestHash =>
        if hasCredential request then
          .ok (some ⟨storedKey sha256 request key, request.routerPath, requestHash,
            resolveEnvironmentId request⟩)
        else .ok none

end

structure IdempotencyRow where
  id : String
  key : List Char
  path : String
  requestHash : Digest
  environmentId : Option String
  responseStatus : Option ℕ
  responseBody : Option String
  inProgress : Bool
  (createdAt expiresAt : ℕ)

variable (rows : List IdempotencyRow)

def findRow (slot : Slot) : Option IdempotencyRow :=
  rows.find? fun row ↦ row.key = slot.key ∧ row.path = slot.path

def deleteRow (id : String) : List IdempotencyRow :=
  rows.filter (·.id ≠ id)

variable (config : IdempotencyConfig) (now : ℕ)

/-- The row that `preHandler` creates. -/
def freshRow (slot : Slot) (id : String) : IdempotencyRow :=
  { slot with
    id
    responseStatus := none
    responseBody := none
    inProgress := true
    createdAt := now
    expiresAt := now + config.retention }

def cleanupExpiredIdempotencyKeys (rows : List IdempotencyRow) : List IdempotencyRow :=
  rows.filter fun row ↦ ¬ row.expiresAt < now

/-! ### Responses -/

structure Response where
  status : ℕ
  payload : Option String
  headers : List (String × String) := []

def isSuccess (status : ℕ) : Bool :=
  200 ≤ status && status < 300

/-- The response to an error; the text of its envelope is left out. -/
def errorResponse (error : ApiError) : Response :=
  ⟨statusForCode error.code, none, []⟩

def storedResponse (row : IdempotencyRow) : Response :=
  match row.responseBody.filter (· ≠ "") with
  | some body => ⟨row.responseStatus.getD 200, some body,
      [("idempotent-replayed", "true"), ("content-type", "application/json; charset=utf-8")]⟩
  | none => ⟨row.responseStatus.getD 200, some "", [("idempotent-replayed", "true")]⟩

def storeResponse (id : String) (response : Response) : List IdempotencyRow :=
  rows.map fun row ↦
    if row.id = id then
      { row with
        inProgress := false
        responseStatus := some response.status
        responseBody := response.payload }
    else row

/-- `finalizeOnResponse`, for a request with a row. -/
def finalizeOnResponse (id : String) (response : Response) : List IdempotencyRow :=
  if isSuccess response.status then storeResponse rows id response else deleteRow rows id

/-- What `preHandler` does with the row that it has found. -/
inductive Lookup
  | create
  | remove (id : String)
  | refuse (error : ApiError)
  | replay (row : IdempotencyRow)

/-- A row whose response is replayed to a request with this hash. -/
def Replayable (requestHash : Digest) (row : IdempotencyRow) : Prop :=
  now < row.expiresAt ∧ row.requestHash = requestHash ∧ row.inProgress = false

/-- The branches of `preHandler` behind the look-up. -/
def lookUp (slot : Slot) : Option IdempotencyRow → Lookup
  | none => .create
  | some existing =>
    if existing.expiresAt ≤ now then .remove existing.id
    else if existing.requestHash ≠ slot.requestHash then
      .refuse ⟨.idempotencyKeyReused,
        "Idempotency-Key was already used with a different request body",
        some "Idempotency-Key", none⟩
    else if existing.inProgress then
      if existing.createdAt + config.staleInProgress < now then .remove existing.id
      else .refuse ⟨.conflict, "A request with this Idempotency-Key is still in progress",
        some "Idempotency-Key", some "Retry once the original request completes."⟩
    else .replay existing

/-- A response is replayed exactly from a live row with the hash of the body. -/
theorem lookUp_eq_replay_iff {config : IdempotencyConfig} {now : ℕ} {slot : Slot}
    {existing : Option IdempotencyRow} {row : IdempotencyRow} :
    lookUp config now slot existing = .replay row ↔
      existing = some row ∧ Replayable now slot.requestHash row := by
  unfold Replayable
  cases existing with
  | none => simp [lookUp]
  | some found =>
    simp only [lookUp, Option.some.injEq]
    split_ifs <;> grind

end

open Foundation List Option

/-- What does not change while the server runs. -/
structure ServerConfig where
  idempotency : IdempotencyConfig
  credentials : Credentials
  /-- The route has `fastify.authenticate` among its hooks. -/
  authenticated : Method → String → Bool

/-- Where a request stands. -/
inductive Stage
  | arrived
  | found (slot : Slot) (existing : Option IdempotencyRow)
  | removing (slot : Slot) (id : String)
  | creating (slot : Slot)
  | admitted
  | handling
  | sent (response : Response)
  | closed (response : Response)
  | replayed (row : IdempotencyRow) (response : Response)

/-- A request, the row that the hook has created for it, and where it stands. -/
structure Exchange where
  request : Request
  marker : Option String
  stage : Stage

/-- The tables, the requests in the order of their arrival, and the time. -/
structure World where
  rows : List IdempotencyRow
  exchanges : List Exchange
  accounts : Accounts
  now : ℕ

/-- The next step of a request. -/
inductive Action
  | find
  | decide
  | remove (succeeds : Bool)
  | create (id : String)
  | authenticate
  | respond (response : Response)
  | finalize (succeeds : Bool)
  | fail (error : ApiError)

inductive Step
  | arrive (request : Request)
  | advance (index : ℕ) (action : Action)
  | cleanup
  | change (event : AccountEvent)
  | pass (milliseconds : ℕ)

variable (server : ServerConfig)

def lostRace : ApiError :=
  ⟨.conflict, "A request with this Idempotency-Key is being processed concurrently",
    some "Idempotency-Key", some "Retry shortly."⟩

def passesAuthentication (accounts : Accounts) (now : ℕ) (request : Request) :
    Except ApiError Unit :=
  if server.authenticated request.method request.routerPath then
    (authenticate server.credentials accounts now request).map fun _ ↦ ()
  else .ok ()

/-- How an exchange takes an action, and the rows after it. -/
def advance (world : World) (exchange : Exchange) : Action → Option (List IdempotencyRow × Exchange)
  | .find =>
    match exchange.stage with
    | .arrived =>
      match slotOf server.idempotency.sha256 exchange.request with
      | .error error => some (world.rows, { exchange with stage := .sent (errorResponse error) })
      | .ok none => some (world.rows, { exchange with stage := .admitted })
      | .ok (some slot) =>
        some (world.rows, { exchange with stage := .found slot (findRow world.rows slot) })
    | _ => none
  | .decide =>
    match exchange.stage with
    | .found slot existing =>
      match lookUp server.idempotency world.now slot existing with
      | .create => some (world.rows, { exchange with stage := .creating slot })
      | .remove id => some (world.rows, { exchange with stage := .removing slot id })
      | .refuse error => some (world.rows, { exchange with stage := .sent (errorResponse error) })
      -- `reply.send` in the hook: neither the hooks of the route nor the handler run
      | .replay row =>
        some (world.rows, { exchange with stage := .replayed row (storedResponse row) })
    | _ => none
  | .remove succeeds =>
    match exchange.stage with
    | .removing slot id =>
      some (if succeeds then deleteRow world.rows id else world.rows,
        { exchange with stage := .creating slot })
    | _ => none
  | .create id =>
    match exchange.stage with
    | .creating slot =>
      if (findRow world.rows slot).isSome then
        some (world.rows, { exchange with stage := .sent (errorResponse lostRace) })
      -- ids are never used twice
      else if world.exchanges.any (·.marker = some id) then none
      else some (world.rows ++ [freshRow server.idempotency world.now slot id],
        { exchange with marker := some id, stage := .admitted })
    | _ => none
  | .authenticate =>
    match exchange.stage with
    | .admitted =>
      match passesAuthentication server world.accounts world.now exchange.request with
      | .error error => some (world.rows, { exchange with stage := .sent (errorResponse error) })
      | .ok () => some (world.rows, { exchange with stage := .handling })
    | _ => none
  | .respond response =>
    match exchange.stage with
    | .handling => some (world.rows, { exchange with stage := .sent response })
    | _ => none
  | .finalize succeeds =>
    match exchange.stage, exchange.marker with
    | .sent response, some id =>
      some (if succeeds then finalizeOnResponse world.rows id response else world.rows,
        { exchange with stage := .closed response })
    | .sent response, none => some (world.rows, { exchange with stage := .closed response })
    | _, _ => none
  | .fail error =>
    match exchange.stage with
    | .arrived | .creating _ | .admitted =>
      some (world.rows, { exchange with stage := .sent (errorResponse error) })
    | _ => none

def serverMachine : Machine World Step where
  next world step :=
    match step with
    | .arrive request =>
      some { world with exchanges := world.exchanges ++ [⟨request, none, .arrived⟩] }
    | .advance index action =>
      (world.exchanges[index]?).bind fun exchange ↦
        (advance server world exchange action).map fun after ↦
          { world with rows := after.1, exchanges := world.exchanges.set index after.2 }
    | .cleanup => some { world with rows := cleanupExpiredIdempotencyKeys world.now world.rows }
    | .change event =>
      some { world with accounts := world.accounts.apply server.credentials.hashToken event }
    | .pass milliseconds => some { world with now := world.now + milliseconds }

/-- A server that has not had a request. -/
def World.initial (accounts : Accounts) (now : ℕ) : World :=
  ⟨[], [], accounts, now⟩

/-- What a step of a request can do. -/
inductive Advances (world : World) (exchange : Exchange) :
    Action → List IdempotencyRow → Exchange → Prop
  | refused (action : Action) (error : ApiError)
      (hopen : ∀ response, exchange.stage ≠ .closed response) :
    Advances world exchange action world.rows { exchange with stage := .sent (errorResponse error) }
  | admitted (harrived : exchange.stage = .arrived)
      (hslot : slotOf server.idempotency.sha256 exchange.request = .ok none) :
    Advances world exchange .find world.rows { exchange with stage := .admitted }
  | found (slot : Slot) (harrived : exchange.stage = .arrived)
      (hslot : slotOf server.idempotency.sha256 exchange.request = .ok (some slot)) :
    Advances world exchange .find world.rows
      { exchange with stage := .found slot (findRow world.rows slot) }
  | absent (slot : Slot) (existing : Option IdempotencyRow)
      (hfound : exchange.stage = .found slot existing) :
    Advances world exchange .decide world.rows { exchange with stage := .creating slot }
  | outdated (slot : Slot) (existing : Option IdempotencyRow) (id : String)
      (hfound : exchange.stage = .found slot existing) :
    Advances world exchange .decide world.rows { exchange with stage := .removing slot id }
  | replayed (slot : Slot) (row : IdempotencyRow)
      (hfound : exchange.stage = .found slot (some row))
      (hreplayable : Replayable world.now slot.requestHash row) :
    Advances world exchange .decide world.rows
      { exchange with stage := .replayed row (storedResponse row) }
  | removed (slot : Slot) (id : String) (succeeds : Bool)
      (hremoving : exchange.stage = .removing slot id) :
    Advances world exchange (.remove succeeds)
      (if succeeds then deleteRow world.rows id else world.rows)
      { exchange with stage := .creating slot }
  | created (slot : Slot) (id : String) (hcreating : exchange.stage = .creating slot)
      (hfree : findRow world.rows slot = none)
      (hfresh : ∀ other ∈ world.exchanges, other.marker ≠ some id) :
    Advances world exchange (.create id)
      (world.rows ++ [freshRow server.idempotency world.now slot id])
      { exchange with marker := some id, stage := .admitted }
  | authenticated (hadmitted : exchange.stage = .admitted)
      (hpasses : passesAuthentication server world.accounts world.now exchange.request = .ok ()) :
    Advances world exchange .authenticate world.rows { exchange with stage := .handling }
  | responded (response : Response) (hhandling : exchange.stage = .handling) :
    Advances world exchange (.respond response) world.rows { exchange with stage := .sent response }
  | finalized (response : Response) (id : String) (succeeds : Bool)
      (hsent : exchange.stage = .sent response) (hmarker : exchange.marker = some id) :
    Advances world exchange (.finalize succeeds)
      (if succeeds then finalizeOnResponse world.rows id response else world.rows)
      { exchange with stage := .closed response }
  | unmarked (response : Response) (succeeds : Bool) (hsent : exchange.stage = .sent response)
      (hmarker : exchange.marker = none) :
    Advances world exchange (.finalize succeeds) world.rows
      { exchange with stage := .closed response }

variable {server} {rows : List IdempotencyRow} {exchange after : Exchange} {world : World}
  {action : Action}

theorem advances_of_advance (h : advance server world exchange action = some (rows, after)) :
    Advances server world exchange action rows after := by
  cases action with
  | find =>
    cases hstage : exchange.stage with
    | arrived =>
      simp only [advance, hstage] at h
      cases hslot : slotOf server.idempotency.sha256 exchange.request with
      | error error =>
        simp only [hslot] at h
        cases h
        exact .refused _ error (by simp [hstage])
      | ok slot =>
        cases slot with
        | none =>
          simp only [hslot] at h
          cases h
          exact .admitted hstage hslot
        | some slot =>
          simp only [hslot] at h
          cases h
          exact .found slot hstage hslot
    | _ => simp [advance, hstage] at h
  | decide =>
    cases hstage : exchange.stage with
    | found slot existing =>
      simp only [advance, hstage] at h
      cases hlook : lookUp server.idempotency world.now slot existing with
      | create =>
        simp only [hlook] at h
        cases h
        exact .absent slot existing hstage
      | remove id =>
        simp only [hlook] at h
        cases h
        exact .outdated slot existing id hstage
      | refuse error =>
        simp only [hlook] at h
        cases h
        exact .refused _ error (by simp [hstage])
      | replay row =>
        simp only [hlook] at h
        cases h
        obtain ⟨rfl, hreplayable⟩ := lookUp_eq_replay_iff.mp hlook
        exact .replayed slot row hstage hreplayable
    | _ => simp [advance, hstage] at h
  | remove succeeds =>
    cases hstage : exchange.stage with
    | removing slot id =>
      simp only [advance, hstage] at h
      cases h
      exact .removed slot id succeeds hstage
    | _ => simp [advance, hstage] at h
  | create id =>
    cases hstage : exchange.stage with
    | creating slot =>
      simp only [advance, hstage] at h
      split_ifs at h with htaken hused
      · cases h
        exact .refused _ lostRace (by simp [hstage])
      · cases h
        refine .created slot id hstage (by simpa using htaken) fun other hother hmarker ↦ hused ?_
        exact any_eq_true.mpr ⟨other, hother, decide_eq_true hmarker⟩
    | _ => simp [advance, hstage] at h
  | authenticate =>
    cases hstage : exchange.stage with
    | admitted =>
      simp only [advance, hstage] at h
      cases hpasses : passesAuthentication server world.accounts world.now exchange.request with
      | error error =>
        simp only [hpasses] at h
        cases h
        exact .refused _ error (by simp [hstage])
      | ok =>
        simp only [hpasses] at h
        cases h
        exact .authenticated hstage hpasses
    | _ => simp [advance, hstage] at h
  | respond response =>
    cases hstage : exchange.stage with
    | handling =>
      simp only [advance, hstage] at h
      cases h
      exact .responded response hstage
    | _ => simp [advance, hstage] at h
  | finalize succeeds =>
    cases hstage : exchange.stage with
    | sent response =>
      cases hmarker : exchange.marker with
      | none =>
        simp only [advance, hstage, hmarker] at h
        cases h
        rw [← hmarker]
        exact .unmarked response succeeds hstage hmarker
      | some id =>
        simp only [advance, hstage, hmarker] at h
        cases h
        rw [← hmarker]
        exact .finalized response id succeeds hstage hmarker
    | _ => simp [advance, hstage] at h
  | fail error =>
    cases hstage : exchange.stage with
    | arrived | creating _ | admitted =>
      simp only [advance, hstage] at h
      cases h
      exact .refused _ error (by simp [hstage])
    | _ => simp [advance, hstage] at h

/-! ### The invariant -/

variable (server)

def InSlot (request : Request) (row : IdempotencyRow) : Prop :=
  ∃ slot, slotOf server.idempotency.sha256 request = .ok (some slot) ∧ row.key = slot.key ∧
    row.path = slot.path ∧ row.requestHash = slot.requestHash

/-- The request has created the row, and has got the response in it. -/
structure Owns (exchange : Exchange) (row : IdempotencyRow) : Prop where
  marker : exchange.marker = some row.id
  inSlot : InSlot server exchange.request row
  completed : row.inProgress = false → ∃ response, exchange.stage = .closed response ∧
    isSuccess response.status ∧ row.responseStatus = some response.status ∧
    row.responseBody = response.payload

variable (exchanges : List Exchange)

/-- One of the requests owns the row. -/
def Owned (row : IdempotencyRow) : Prop :=
  ∃ (index : ℕ) (exchange : Exchange), exchanges[index]? = some exchange ∧ Owns server exchange row

/-- A request has no row before it has created one. -/
def Stage.unmarked : Stage → Bool
  | .arrived | .found _ _ | .removing _ _ | .creating _ | .replayed _ _ => true
  | _ => false

/-- What a request has read is in its slot. -/
def StageTraced (exchange : Exchange) : Prop :=
  match exchange.stage with
  | .found slot existing => slotOf server.idempotency.sha256 exchange.request = .ok (some slot) ∧
      ∀ row ∈ existing, row.key = slot.key ∧ row.path = slot.path ∧ Owned server exchanges row
  | .removing slot _ => slotOf server.idempotency.sha256 exchange.request = .ok (some slot)
  | .creating slot => slotOf server.idempotency.sha256 exchange.request = .ok (some slot)
  | .replayed row response => InSlot server exchange.request row ∧ Owned server exchanges row ∧
      row.inProgress = false ∧ response = storedResponse row
  | _ => True

/-- Every row has been created by one request, in the slot of this request. -/
structure Traced (rows : List IdempotencyRow) (exchanges : List Exchange) : Prop where
  unmarked : ∀ exchange ∈ exchanges, exchange.stage.unmarked → exchange.marker = none
  distinct : ∀ (first second : ℕ) (one other : Exchange) (id : String),
    exchanges[first]? = some one → exchanges[second]? = some other → one.marker = some id →
      other.marker = some id → first = second
  rows : ∀ row ∈ rows, Owned server exchanges row
  stages : ∀ exchange ∈ exchanges, StageTraced server exchanges exchange

variable {server}

/-- The later state of a request. -/
structure Evolves (before after : Exchange) : Prop where
  request : after.request = before.request
  marker : ∀ id, before.marker = some id → after.marker = some id
  closed : ∀ response, before.stage = .closed response → after.stage = .closed response

theorem Owns.evolve {before : Exchange} {row : IdempotencyRow} (h : Owns server before row)
    (hevolves : Evolves before after) : Owns server after row := by
  refine ⟨hevolves.marker row.id h.marker, ?_, fun hcompleted ↦ ?_⟩
  · rw [hevolves.request]
    exact h.inSlot
  · obtain ⟨response, hclosed, hstored⟩ := h.completed hcompleted
    exact ⟨response, hevolves.closed response hclosed, hstored⟩

section

variable {exchanges : List Exchange} {index : ℕ} {before after : Exchange}

theorem getElem?_set_cases {position : ℕ}
    (h : (exchanges.set index after)[position]? = some exchange) :
    (position = index ∧ exchange = after) ∨
      (position ≠ index ∧ exchanges[position]? = some exchange) := by
  rw [List.getElem?_set] at h
  split_ifs at h with hposition hbound
  · exact .inl ⟨hposition.symm, (some.inj h).symm⟩
  · exact .inr ⟨Ne.symm hposition, h⟩

theorem getElem?_set_of_getElem? (hbefore : exchanges[index]? = some before) :
    (exchanges.set index after)[index]? = some after := by
  rw [List.getElem?_set_self (List.getElem?_eq_some_iff.mp hbefore).1]

theorem Owned.set {row : IdempotencyRow} (h : Owned server exchanges row)
    (hbefore : exchanges[index]? = some before) (hevolves : Evolves before after) :
    Owned server (exchanges.set index after) row := by
  obtain ⟨position, exchange, hposition, howns⟩ := h
  by_cases hsame : position = index
  · subst hsame
    obtain rfl : before = exchange := some.inj (hbefore.symm.trans hposition)
    exact ⟨position, after, getElem?_set_of_getElem? hbefore, howns.evolve hevolves⟩
  · refine ⟨position, exchange, ?_, howns⟩
    rw [List.getElem?_set_ne (Ne.symm hsame)]
    exact hposition

theorem Owned.concat {row : IdempotencyRow} (h : Owned server exchanges row) (exchange : Exchange) :
    Owned server (exchanges ++ [exchange]) row := by
  obtain ⟨position, owner, hposition, howns⟩ := h
  refine ⟨position, owner, ?_, howns⟩
  rw [List.getElem?_append_left (List.getElem?_eq_some_iff.mp hposition).1]
  exact hposition

theorem StageTraced.mono {other : List Exchange} (h : StageTraced server exchanges exchange)
    (howned : ∀ row, Owned server exchanges row → Owned server other row) :
    StageTraced server other exchange := by
  unfold StageTraced at h ⊢
  split
  · rename_i slot existing hstage
    rw [hstage] at h
    exact ⟨h.1, fun row hrow ↦
      ⟨(h.2 row hrow).1, (h.2 row hrow).2.1, howned row (h.2 row hrow).2.2⟩⟩
  · rename_i slot id hstage
    rw [hstage] at h
    exact h
  · rename_i slot hstage
    rw [hstage] at h
    exact h
  · rename_i row response hstage
    rw [hstage] at h
    exact ⟨h.1, howned row h.2.1, h.2.2⟩
  · trivial

end

/-- A step changes a request as it may. -/
theorem evolves_of_advances (h : Advances server world exchange action rows after)
    (hunmarked : exchange.stage.unmarked → exchange.marker = none) : Evolves exchange after := by
  cases h with
  | refused _ error hopen => exact ⟨rfl, fun _ h ↦ h, fun response h ↦ absurd h (hopen response)⟩
  | created slot id hcreating hfree hfresh =>
    refine ⟨rfl, fun other hother ↦ ?_, fun response h ↦ absurd (hcreating.symm.trans h) nofun⟩
    nomatch (hunmarked (by rw [hcreating]; rfl)).symm.trans hother
  | admitted hstage | found _ hstage | absent _ _ hstage | outdated _ _ _ hstage
  | replayed _ _ hstage | removed _ _ _ hstage | authenticated hstage | responded _ hstage
  | finalized _ _ _ hstage | unmarked _ _ hstage =>
    exact ⟨rfl, fun _ h ↦ h, fun response h ↦ absurd (hstage.symm.trans h) nofun⟩

/-! ### The invariant of a run -/

variable {id : String} {response : Response}

/-- The rows behind `finalizeOnResponse`. -/
theorem mem_finalizeOnResponse {row : IdempotencyRow}
    (h : row ∈ finalizeOnResponse rows id response) :
    row ∈ rows ∧ row.id ≠ id ∨ isSuccess response.status ∧ ∃ stored ∈ rows, stored.id = id ∧
      row = { stored with
        inProgress := false
        responseStatus := some response.status
        responseBody := response.payload } := by
  unfold finalizeOnResponse at h
  split_ifs at h with hsuccess
  · obtain ⟨stored, hmem, hstored⟩ := mem_map.mp h
    by_cases hid : stored.id = id
    · rw [if_pos hid] at hstored
      exact .inr ⟨hsuccess, stored, hmem, hid, hstored.symm⟩
    · rw [if_neg hid] at hstored
      exact .inl (hstored ▸ ⟨hmem, hid⟩)
  · obtain ⟨hmem, hid⟩ := mem_filter.mp h
    exact .inl ⟨hmem, of_decide_eq_true hid⟩

section

variable {world : World} {index : ℕ} {exchange after : Exchange} {action : Action}
  {rows : List IdempotencyRow}

section

variable (h : Traced server world.rows world.exchanges)
  (hexchange : world.exchanges[index]? = some exchange)
include h hexchange

theorem owns_stored (hmarker : exchange.marker = some id) {stored : IdempotencyRow}
    (hstored : stored ∈ world.rows) (hid : stored.id = id) (hsuccess : isSuccess response.status) :
    Owns server { exchange with stage := .closed response }
      { stored with
        inProgress := false
        responseStatus := some response.status
        responseBody := response.payload } := by
  obtain ⟨position, owner, hposition, howns⟩ := h.rows stored hstored
  have hsame := h.distinct position index owner exchange stored.id hposition hexchange howns.marker
    (hid ▸ hmarker)
  subst hsame
  obtain rfl : exchange = owner := some.inj (hexchange.symm.trans hposition)
  exact ⟨howns.marker, howns.inSlot, fun _ ↦ ⟨response, rfl, hsuccess, rfl, rfl⟩⟩

variable (hadvances : Advances server world exchange action rows after)
include hadvances

theorem rows_of_advances : ∀ row ∈ rows, Owned server (world.exchanges.set index after) row := by
  have hmem : exchange ∈ world.exchanges := mem_of_getElem? hexchange
  have hold : ∀ row ∈ world.rows, Owned server (world.exchanges.set index after) row :=
    fun row hrow ↦ (h.rows row hrow).set hexchange
      (evolves_of_advances hadvances (h.unmarked exchange hmem))
  cases hadvances with
  | removed slot id succeeds hstage =>
    intro row hrow
    split_ifs at hrow
    · exact hold row (mem_of_mem_filter hrow)
    · exact hold row hrow
  | created slot id hcreating =>
    intro row hrow
    rcases mem_append.mp hrow with hrow | hrow
    · exact hold row hrow
    · rw [mem_singleton.mp hrow]
      have hslot := h.stages exchange hmem
      unfold StageTraced at hslot
      rw [hcreating] at hslot
      exact ⟨index, _, getElem?_set_of_getElem? hexchange, rfl, ⟨slot, hslot, rfl, rfl, rfl⟩, nofun⟩
  | finalized response id succeeds hsent hmarker =>
    intro row hrow
    split_ifs at hrow
    · rcases mem_finalizeOnResponse hrow with ⟨hrow, -⟩ | ⟨hsuccess, stored, hstored, hid, rfl⟩
      · exact hold row hrow
      · exact ⟨index, _, getElem?_set_of_getElem? hexchange,
          owns_stored h hexchange hmarker hstored hid hsuccess⟩
    · exact hold row hrow
  | _ => exact hold

theorem stageTraced_of_advances : StageTraced server world.exchanges after := by
  have hstage := h.stages exchange (mem_of_getElem? hexchange)
  cases hadvances with
  | found slot harrived hslot =>
    refine ⟨hslot, fun row hrow ↦ ?_⟩
    have hmatches : row.key = slot.key ∧ row.path = slot.path := by
      simpa using List.find?_some hrow
    exact ⟨hmatches.1, hmatches.2, h.rows row (mem_of_find?_eq_some hrow)⟩
  | absent slot existing hfound | outdated slot existing id hfound =>
    unfold StageTraced at hstage
    rw [hfound] at hstage
    exact hstage.1
  | replayed slot row hfound hreplayable =>
    unfold StageTraced at hstage
    rw [hfound] at hstage
    obtain ⟨hslot, hrow⟩ := hstage
    obtain ⟨hkey, hpath, howned⟩ := hrow row rfl
    exact ⟨⟨slot, hslot, hkey, hpath, hreplayable.2.1⟩, howned, hreplayable.2.2, rfl⟩
  | removed slot id succeeds hremoving =>
    unfold StageTraced at hstage
    rw [hremoving] at hstage
    exact hstage
  | refused | admitted | created | authenticated | responded | finalized | unmarked => trivial

end

theorem unmarked_of_advances (hunmarked : exchange.stage.unmarked → exchange.marker = none)
    (hadvances : Advances server world exchange action rows after)
    (hafter : after.stage.unmarked) : after.marker = none := by
  cases hadvances with
  | found _ hstage | absent _ _ hstage | outdated _ _ _ hstage | replayed _ _ hstage
  | removed _ _ _ hstage => exact hunmarked (by rw [hstage]; rfl)
  | refused | admitted | created | authenticated | responded | finalized | unmarked =>
    nomatch hafter

/-- A request keeps its row, or it creates one with a new id. -/
theorem marker_of_advances (hadvances : Advances server world exchange action rows after)
    (hmarker : after.marker = some id) :
    exchange.marker = some id ∨ ∀ other ∈ world.exchanges, other.marker ≠ some id := by
  cases hadvances with
  | created slot fresh hcreating hfree hfresh =>
    obtain rfl : fresh = id := some.inj hmarker
    exact .inr hfresh
  | _ => exact .inl hmarker

theorem traced_advance (h : Traced server world.rows world.exchanges)
    (hexchange : world.exchanges[index]? = some exchange)
    (hadvances : Advances server world exchange action rows after) :
    Traced server rows (world.exchanges.set index after) := by
  have hmem : exchange ∈ world.exchanges := mem_of_getElem? hexchange
  have hevolves := evolves_of_advances hadvances (h.unmarked exchange hmem)
  have howned : ∀ row, Owned server world.exchanges row →
      Owned server (world.exchanges.set index after) row := fun row hrow ↦
    hrow.set hexchange hevolves
  refine ⟨fun other hother hunmarked ↦ ?_,
    fun first second one other id hone hother hmarker hsame ↦ ?_,
    rows_of_advances h hexchange hadvances, fun other hother ↦ ?_⟩
  · obtain ⟨position, hposition⟩ := mem_iff_getElem?.mp hother
    rcases getElem?_set_cases hposition with ⟨-, rfl⟩ | ⟨-, hposition⟩
    · exact unmarked_of_advances (h.unmarked exchange hmem) hadvances hunmarked
    · exact h.unmarked other (mem_of_getElem? hposition) hunmarked
  · rcases getElem?_set_cases hone with ⟨hfirst, hself⟩ | ⟨-, hone⟩
    · rcases getElem?_set_cases hother with ⟨hsecond, -⟩ | ⟨-, hother⟩
      · rw [hfirst, hsecond]
      · rw [hself] at hmarker
        rcases marker_of_advances hadvances hmarker with hkept | hfresh
        · exact hfirst ▸ h.distinct index second exchange other id hexchange hother hkept hsame
        · exact absurd hsame (hfresh other (mem_of_getElem? hother))
    · rcases getElem?_set_cases hother with ⟨hsecond, hself⟩ | ⟨-, hother⟩
      · rw [hself] at hsame
        rcases marker_of_advances hadvances hsame with hkept | hfresh
        · exact hsecond ▸ h.distinct first index one exchange id hone hexchange hmarker hkept
        · exact absurd hmarker (hfresh one (mem_of_getElem? hone))
      · exact h.distinct first second one other id hone hother hmarker hsame
  · obtain ⟨position, hposition⟩ := mem_iff_getElem?.mp hother
    rcases getElem?_set_cases hposition with ⟨-, rfl⟩ | ⟨-, hposition⟩
    · exact (stageTraced_of_advances h hexchange hadvances).mono howned
    · exact (h.stages other (mem_of_getElem? hposition)).mono howned

end

theorem traced_arrive {exchanges : List Exchange} (h : Traced server rows exchanges)
    (request : Request) : Traced server rows (exchanges ++ [⟨request, none, .arrived⟩]) := by
  have hcases : ∀ exchange ∈ exchanges ++ [⟨request, none, .arrived⟩],
      exchange ∈ exchanges ∨ exchange = ⟨request, none, .arrived⟩ := fun exchange hexchange ↦
    (mem_append.mp hexchange).imp_right mem_singleton.mp
  have hold : ∀ (position : ℕ) (exchange : Exchange) (id : String), exchange.marker = some id →
      (exchanges ++ [⟨request, none, .arrived⟩])[position]? = some exchange →
      exchanges[position]? = some exchange := by
    intro position exchange id hmarker hposition
    rw [List.getElem?_append] at hposition
    split_ifs at hposition with hbound
    · exact hposition
    · have hlast := mem_singleton.mp (mem_of_getElem? hposition)
      rw [hlast] at hmarker
      nomatch hmarker
  refine ⟨fun exchange hexchange hunmarked ↦ ?_,
    fun first second one other id hone hother hmarker hsame ↦ ?_,
    fun row hrow ↦ (h.rows row hrow).concat _, fun exchange hexchange ↦ ?_⟩
  · rcases hcases exchange hexchange with hmem | rfl
    · exact h.unmarked exchange hmem hunmarked
    · rfl
  · exact h.distinct first second one other id (hold first one id hmarker hone)
      (hold second other id hsame hother) hmarker hsame
  · rcases hcases exchange hexchange with hmem | rfl
    · exact (h.stages exchange hmem).mono fun row hrow ↦ hrow.concat _
    · trivial

theorem traced_next {before after : World} {step : Step}
    (h : Traced server before.rows before.exchanges)
    (hnext : (serverMachine server).next before step = some after) :
    Traced server after.rows after.exchanges := by
  cases step with
  | arrive request =>
    cases hnext
    exact traced_arrive h request
  | advance index action =>
    obtain ⟨exchange, hexchange, hnext⟩ := bind_eq_some_iff.mp hnext
    obtain ⟨⟨rows, evolved⟩, hadvance, rfl⟩ := map_eq_some_iff.mp hnext
    exact traced_advance h hexchange (advances_of_advance hadvance)
  | cleanup =>
    cases hnext
    exact ⟨h.unmarked, h.distinct, fun row hrow ↦ h.rows row (mem_of_mem_filter hrow), h.stages⟩
  | change _ | pass _ =>
    cases hnext
    exact h

/-- In every state that a server reaches, every row belongs to the request that has created it. -/
theorem traced_of_run {accounts : Accounts} {now : ℕ} {steps : List Step}
    (hrun : (serverMachine server).run (World.initial accounts now) steps = some world) :
    Traced server world.rows world.exchanges := by
  refine Machine.induction (motive := fun _ world ↦ Traced server world.rows world.exchanges)
    ?_ (fun _ before step after hbefore hnext ↦ traced_next hbefore hnext) hrun
  refine ⟨fun _ h ↦ absurd h not_mem_nil, fun _ _ _ _ _ h ↦ ?_,
    fun _ h ↦ absurd h not_mem_nil, fun _ h ↦ absurd h not_mem_nil⟩
  exact absurd (mem_of_getElem? h) not_mem_nil

end Bridgeport.Api
