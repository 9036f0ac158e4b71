import Bridgeport.Api.RequestRuns

/-!
# What a replay answers

A request that is answered with the stored response of another one is in its slot. The slot is made
of the credential, one of the route parameters, the client's key, the pattern of the route and the
body; the other route parameters and the query string are not part of it. The replay ends the
request in `preHandler`, so the credential that a stored response is replayed to is not looked at
again.
-/

namespace Bridgeport.Api

open Foundation Option

section

variable {sha256 : List Char → Digest} {first second request : Request} {slot : Slot}

theorem slotOf_eq_some (h : slotOf sha256 request = .ok (some slot)) :
    request.method = .post ∧ hasCredential request = true ∧
      ∃ key requestHash, readKey request = .ok (some key) ∧
        hashBody sha256 request.body = some requestHash ∧
        slot = ⟨storedKey sha256 request key, request.routerPath, requestHash,
          resolveEnvironmentId request⟩ := by
  unfold slotOf at h
  by_cases hmethod : request.method = .post
  · rw [if_neg (not_not.mpr hmethod)] at h
    by_cases hexempt : request.routerPath ∈ idempotencyExemptPaths
    · rw [if_pos hexempt] at h
      nomatch h
    · rw [if_neg hexempt] at h
      cases hkey : readKey request with
      | error error =>
        rw [hkey] at h
        nomatch h
      | ok key =>
        cases key with
        | none =>
          rw [hkey] at h
          nomatch h
        | some key =>
          cases hhash : hashBody sha256 request.body with
          | none =>
            rw [hkey, hhash] at h
            nomatch h
          | some requestHash =>
            rw [hkey, hhash] at h
            by_cases hcredential : hasCredential request
            · simp only [hcredential, if_true, Except.ok.injEq, some.injEq] at h
              exact ⟨hmethod, hcredential, key, requestHash, rfl, rfl, h.symm⟩
            · simp [hcredential] at h
  · rw [if_pos hmethod] at h
    nomatch h

theorem length_scopeHash (request : Request) : (scopeHash sha256 request).length = 16 := by
  unfold scopeHash
  rw [List.length_take, Digest.length_text]
  rfl

/-- The stored key separates the credentials, as far as their hashes differ, and the values of the
parameter. -/
theorem storedKey_inj {key : List Char}
    (h : storedKey sha256 first key = storedKey sha256 second key) :
    scopeHash sha256 first = scopeHash sha256 second ∧
      (resolveEnvironmentId first).getD "-" = (resolveEnvironmentId second).getD "-" := by
  have hlength : (scopeHash sha256 first).length = (scopeHash sha256 second).length := by
    rw [length_scopeHash, length_scopeHash]
  obtain ⟨hscope, hrest⟩ := List.append_inj h hlength
  have hvalue := List.append_cancel_right (List.cons.inj hrest).2
  exact ⟨hscope, String.toList_injective hvalue⟩

end

/-- The route parameter that is part of the stored key. -/
def keyParam (request : Request) : Option String :=
  if (request.param "envId").isSome then some "envId"
  else if (request.param "id").isSome then some "id"
  else none

theorem param_of_keyParam {request : Request} {name : String} (h : keyParam request = some name) :
    request.param name = some ((resolveEnvironmentId request).getD "-") := by
  unfold keyParam at h
  unfold resolveEnvironmentId
  split_ifs at h with henv hid
  · cases h
    obtain ⟨value, hvalue⟩ := isSome_iff_exists.mp henv
    simp [hvalue]
  · cases h
    obtain ⟨value, hvalue⟩ := isSome_iff_exists.mp hid
    simp [hvalue, not_isSome_iff_eq_none.mp henv]

/-- Two requests carry the same credential, the same URL and the same body. -/
structure SameRequest (first second : Request) : Prop where
  credential : credential first = credential second
  path : first.routerPath = second.routerPath
  params : ∀ name, first.param name = second.param name
  query : first.query = second.query
  body : first.body = second.body

/-- Two requests agree in what a slot leaves out: the route parameters but the one in the stored
key, the query string, and whether there is a body; and their hashes do not collide. -/
structure Separated (sha256 : List Char → Digest) (first second : Request) : Prop where
  params : ∀ name, keyParam first = some name ∧ keyParam second = some name ∨
    first.param name = second.param name
  query : first.query = second.query
  absent : first.body = .absent ↔ second.body = .absent
  credentials : scopeHash sha256 first = scopeHash sha256 second → credential first = credential second
  bodies : hashBody sha256 first.body = hashBody sha256 second.body →
    bodyText first.body = bodyText second.body

theorem SameRequest.separated {sha256 : List Char → Digest} {first second : Request}
    (h : SameRequest first second) : Separated sha256 first second where
  params name := .inr (h.params name)
  query := h.query
  absent := by rw [h.body]
  credentials _ := h.credential
  bodies _ := congrArg bodyText h.body

theorem bodyText_json {value : Json} {wellFormed : value.WellFormed} {text : List Char}
    (h : bodyText (.json value wellFormed) = some text) : text = value.stringify := by
  cases value with
  | null | array _ | object _ => exact (some.inj h).symm
  | bool | number | string => nomatch h

/-- A body is determined by its text, if it is known whether there is one. -/
theorem body_eq_of_bodyText {first second : Body} {text : List Char}
    (hfirst : bodyText first = some text) (hsecond : bodyText second = some text)
    (habsent : first = .absent ↔ second = .absent) : first = second := by
  cases first with
  | absent => exact (habsent.mp rfl).symm
  | json value hvalue =>
    cases second with
    | absent => nomatch habsent.mpr rfl
    | json other hother =>
      have hsame : value = other := Json.stringify_injective hvalue hother
        ((bodyText_json hfirst).symm.trans (bodyText_json hsecond))
      subst hsame
      rfl
    | other => nomatch hsecond
  | other => nomatch hfirst

/-- The second request has been answered with the response that is stored in the row of the first
one. -/
def RepliesFrom (first second : Exchange) : Prop :=
  ∃ row response, second.stage = .replayed row response ∧ first.marker = some row.id

section

variable {server : ServerConfig} {accounts : Accounts} {now : ℕ} {steps : List Step} {world : World}
  {one other : ℕ} {first second : Exchange}
  (hrun : (serverMachine server).run (World.initial accounts now) steps = some world)
  (hfirst : world.exchanges[one]? = some first) (hsecond : world.exchanges[other]? = some second)
include hrun hfirst hsecond

theorem inSlot_of_repliesFrom (hreplies : RepliesFrom first second) :
    ∃ row response, second.stage = .replayed row response ∧ response = storedResponse row ∧
      InSlot server second.request row ∧ Owns server first row ∧ row.inProgress = false := by
  have htraced := traced_of_run hrun
  obtain ⟨row, response, hstage, hmarker⟩ := hreplies
  have hread := htraced.stages second (List.mem_of_getElem? hsecond)
  unfold StageTraced at hread
  rw [hstage] at hread
  obtain ⟨hslot, ⟨position, owner, hposition, howns⟩, hcompleted, hresponse⟩ := hread
  have hsame := htraced.distinct position one owner first row.id hposition hfirst howns.marker hmarker
  subst hsame
  obtain rfl : first = owner := some.inj (hfirst.symm.trans hposition)
  exact ⟨row, response, hstage, hresponse, hslot, howns, hcompleted⟩

end

/-! ### Two deployments of one service -/

def releaseSha256 (text : List Char) : Digest :=
  if text = "Bearer bport_pat_ci".toList then
    ⟨"4dbb8880df08ea54cddb89c60f4eb222d56bf99914b1cabd7e0ed2a48efb93f4".toList, by rfl⟩
  else if text = "{}".toList then
    ⟨"44136fa355b3678a1146ad16f7e8649e94fb4fc21fe77e8310c060f61caaff8a".toList, by rfl⟩
  else ⟨List.replicate 64 '0', by rfl⟩

def releaseTokenHash : String := "+ZiXpQA8a0AaFGh4qCcNHJ0ihL6sDYUSd8EOMxgGEJ0="

def releaseServer : ServerConfig :=
  ⟨⟨releaseSha256, 86400000, 300000⟩,
    ⟨fun token ↦ if token = "bport_pat_ci" then releaseTokenHash else "", fun _ _ ↦ none⟩,
    fun _ _ ↦ true⟩

def releaseAccounts : Accounts :=
  ⟨[], [⟨"ci", "ci", .operator, false⟩],
    [⟨"token", releaseTokenHash, .operator, true, [], some 31536000000, none, some "ci"⟩]⟩

/-- `POST /api/services/web/deployments/:depId/deploy`. -/
def deployRequest (depId : String) : Request where
  method := .post
  routerPath := "/api/services/:id/deployments/:depId/deploy"
  params := [("id", "web"), ("depId", depId)]
  query := []
  authorization := some "Bearer bport_pat_ci"
  cookie := none
  idempotencyKey := ["release-7"]
  body := .json (.object []) trivial

def answeredSteps (request : Request) : List Step :=
  [.arrive request, .advance 0 .find, .advance 0 .decide, .advance 0 (.create "row"),
    .advance 0 .authenticate, .advance 0 (.respond ⟨200, some "{}", []⟩),
    .advance 0 (.finalize true)]

def lookedUpSteps (request : Request) : List Step :=
  [.arrive request, .advance 1 .find, .advance 1 .decide]

theorem exists_replay_otherDeployment :
    ∃ world, (serverMachine releaseServer).run (World.initial releaseAccounts 0)
        (answeredSteps (deployRequest "d1") ++ lookedUpSteps (deployRequest "d2")) = some world ∧
      ∃ first second, world.exchanges[0]? = some first ∧ world.exchanges[1]? = some second ∧
        first.request = deployRequest "d1" ∧ second.request = deployRequest "d2" ∧
        RepliesFrom first second := by
  refine ⟨_, rfl, ?_⟩
  refine ⟨_, _, rfl, rfl, ?_⟩
  refine ⟨rfl, rfl, ?_⟩
  refine ⟨_, _, rfl, ?_⟩
  rfl

theorem not_sameRequest_deployRequest : ¬ SameRequest (deployRequest "d1") (deployRequest "d2") :=
  fun h ↦ absurd (h.params "depId") (by decide)

section

open List

variable (server : ServerConfig) (exchange : Exchange)

def Exchange.answer : Option Response :=
  match exchange.stage with
  | .sent response | .closed response | .replayed _ response => some response
  | _ => none

/-- The client gets a 2xx response. -/
def Exchange.Succeeds : Prop :=
  ∃ response, exchange.answer = some response ∧ isSuccess response.status

structure Bears (header : String) (request : Request) : Prop where
  header : request.authorization = some header
  authenticated : server.authenticated request.method request.routerPath = true

/-- The header bears an API token. -/
structure BearsToken (header token : String) : Prop where
  token : bearerToken (some header) = some token
  notJwt : ∀ now, server.credentials.jwtVerify now header = none

/-- The token is revoked in every state of a run. -/
def RevokedThroughout (token : String) (start : World) (steps : List Step) : Prop :=
  ∀ first world, first <+: steps → (serverMachine server).run start first = some world →
    Revoked server.credentials.hashToken world.accounts world.now token

/-- What immediate revocation promises of a run. -/
structure RevocationImmediate (start : World) (steps : List Step) : Prop where
  /-- A request that arrives with a revoked token does not succeed while the token is revoked. -/
  revoked : ∀ before after middle world header token, before ++ after <+: steps →
    (serverMachine server).run start before = some middle →
    (serverMachine server).run middle after = some world →
    BearsToken server header token → RevokedThroughout server token middle after →
    ∀ (index : ℕ) (exchange : Exchange), middle.exchanges.length ≤ index →
      world.exchanges[index]? = some exchange → Bears server header exchange.request →
      ¬ exchange.Succeeds
  /-- A response is replayed only to a request that authentication would let pass. -/
  replays : ∀ before step middle world, before ++ [step] <+: steps →
    (serverMachine server).run start before = some middle →
    (serverMachine server).next middle step = some world →
    ∀ (index : ℕ) (old exchange : Exchange) (row : IdempotencyRow) (response : Response),
      middle.exchanges[index]? = some old → world.exchanges[index]? = some exchange →
      old.stage ≠ exchange.stage → exchange.stage = .replayed row response →
      passesAuthentication server middle.accounts middle.now exchange.request = .ok ()

/-- A request that authentication would refuse has not found a response to replay. -/
def ReplaysOnlyAccepted (world : World) (step : Step) : Prop :=
  ∀ (index : ℕ) (exchange : Exchange) (slot : Slot) (row : IdempotencyRow),
    step = .advance index .decide → world.exchanges[index]? = some exchange →
    exchange.stage = .found slot (some row) → Replayable world.now slot.requestHash row →
    passesAuthentication server world.accounts world.now exchange.request = .ok ()

variable {server} {header token : String}

theorem passesAuthentication_of_revoked {world : World} {request : Request}
    (hbears : Bears server header request) (htoken : BearsToken server header token)
    (hrevoked : Revoked server.credentials.hashToken world.accounts world.now token) :
    passesAuthentication server world.accounts world.now request ≠ .ok () := by
  unfold passesAuthentication authenticate
  rw [if_pos hbears.authenticated, hbears.header, htoken.token]
  dsimp only
  rw [validateApiToken_of_revoked hrevoked]
  unfold jwtUser
  rw [htoken.notJwt world.now]
  exact nofun

theorem revoked_of_run {start world : World} {steps : List Step}
    (hspares : ∀ event, .change event ∈ steps → event.Spares server.credentials.hashToken token)
    (hrun : (serverMachine server).run start steps = some world)
    (h : Deleted server.credentials.hashToken start.accounts token ∨
      Expired server.credentials.hashToken start.accounts start.now token) :
    Deleted server.credentials.hashToken world.accounts token ∨
      Expired server.credentials.hashToken world.accounts world.now token := by
  refine Machine.induction (motive := fun steps world ↦
    (∀ event, .change event ∈ steps → event.Spares server.credentials.hashToken token) →
      Deleted server.credentials.hashToken world.accounts token ∨
        Expired server.credentials.hashToken world.accounts world.now token)
    (fun _ ↦ h) (fun steps before step after hbefore hnext hall ↦ ?_) hrun hspares
  have hold := hbefore fun event hevent ↦ hall event (mem_append_left _ hevent)
  cases step with
  | arrive _ | cleanup =>
    cases hnext
    exact hold
  | advance index action =>
    obtain ⟨exchange, -, hnext⟩ := bind_eq_some_iff.mp hnext
    obtain ⟨advanced, -, rfl⟩ := map_eq_some_iff.mp hnext
    exact hold
  | change event =>
    cases hnext
    have hevent := hall event (mem_append_right _ (mem_singleton.mpr rfl))
    exact hold.imp (fun hdeleted row hmem hhash ↦
      hdeleted row (mem_apiTokens_of_spares hevent hmem hhash) hhash) (expired_apply hevent le_rfl)
  | pass milliseconds =>
    cases hnext
    refine hold.imp_right fun hexpired row hmem hhash ↦ ?_
    obtain ⟨time, htime, hlate⟩ := hexpired row hmem hhash
    exact ⟨time, htime, Nat.lt_of_lt_of_le hlate (Nat.le_add_right _ _)⟩

/-- The request has neither been let pass nor been answered with success. -/
def Stage.Barred : Stage → Prop
  | .handling | .replayed _ _ => False
  | .sent response | .closed response => isSuccess response.status = false
  | _ => True

theorem not_succeeds_of_barred {exchange : Exchange} (h : exchange.stage.Barred) :
    ¬ exchange.Succeeds := by
  rintro ⟨response, hanswer, hsuccess⟩
  unfold Exchange.answer at hanswer
  cases hstage : exchange.stage with
  | sent original | closed original =>
    rw [hstage] at h hanswer
    obtain rfl : original = response := some.inj hanswer
    nomatch hsuccess.symm.trans h
  | replayed row original =>
    rw [hstage] at h
    exact h
  | _ =>
    rw [hstage] at hanswer
    nomatch hanswer

section

variable {world : World} {exchange after : Exchange} {action : Action} {rows : List IdempotencyRow}

theorem barred_of_advances (h : exchange.stage.Barred)
    (hrefused : passesAuthentication server world.accounts world.now exchange.request ≠ .ok ())
    (hreplays : ∀ slot row, exchange.stage = .found slot (some row) → action = .decide →
      ¬ Replayable world.now slot.requestHash row)
    (hadvances : Advances server world exchange action rows after) : after.stage.Barred := by
  cases hadvances with
  | refused _ error => rcases error with ⟨code, -, -, -⟩; cases code <;> rfl
  | replayed slot row hfound hreplayable => exact absurd hreplayable (hreplays slot row hfound rfl)
  | authenticated hadmitted hpasses => exact absurd hpasses hrefused
  | responded response hhandling =>
    rw [hhandling] at h
    exact h.elim
  | finalized response id succeeds hsent hmarker | unmarked response succeeds hsent hmarker =>
    rw [hsent] at h
    exact h
  | admitted | found | absent | outdated | removed | created => trivial

end

/-- The requests from a position on that bear the header have been refused so far. -/
def AllBarred (server : ServerConfig) (header : String) (position : ℕ) (world : World) : Prop :=
  ∀ (index : ℕ) (exchange : Exchange), position ≤ index → world.exchanges[index]? = some exchange →
    Bears server header exchange.request → exchange.stage.Barred

theorem barred_next {position : ℕ} {before after : World} {step : Step}
    (h : AllBarred server header position before) (htoken : BearsToken server header token)
    (hrevoked : Revoked server.credentials.hashToken before.accounts before.now token)
    (hreplays : ReplaysOnlyAccepted server before step)
    (hnext : (serverMachine server).next before step = some after) :
    AllBarred server header position after := by
  intro index exchange hposition hexchange hbears
  cases step with
  | arrive request =>
    cases hnext
    rw [List.getElem?_append] at hexchange
    split_ifs at hexchange with hbound
    · exact h index exchange hposition hexchange hbears
    · rw [mem_singleton.mp (mem_of_getElem? hexchange)]
      trivial
  | advance advanced action =>
    obtain ⟨old, hold, hnext⟩ := bind_eq_some_iff.mp hnext
    obtain ⟨⟨rows, evolved⟩, hadvance, rfl⟩ := map_eq_some_iff.mp hnext
    have hadvances := advances_of_advance hadvance
    rcases getElem?_set_cases hexchange with ⟨rfl, rfl⟩ | ⟨-, hexchange⟩
    · have hrequest : exchange.request = old.request := by cases hadvances <;> rfl
      rw [hrequest] at hbears
      have hrefused := passesAuthentication_of_revoked hbears htoken hrevoked
      refine barred_of_advances (h index old hposition hold hbears) hrefused ?_ hadvances
      rintro slot row hfound rfl hreplayable
      exact hrefused (hreplays index old slot row rfl hold hfound hreplayable)
    · exact h index exchange hposition hexchange hbears
  | cleanup | change _ | pass _ =>
    cases hnext
    exact h index exchange hposition hexchange hbears

theorem exists_found_of_replayed {before after : World} {step : Step} {index : ℕ}
    {old exchange : Exchange} {row : IdempotencyRow} {response : Response}
    (hnext : (serverMachine server).next before step = some after)
    (hold : before.exchanges[index]? = some old)
    (hexchange : after.exchanges[index]? = some exchange)
    (hchanged : old.stage ≠ exchange.stage) (hreplayed : exchange.stage = .replayed row response) :
    step = .advance index .decide ∧ exchange.request = old.request ∧
      ∃ slot, old.stage = .found slot (some row) ∧ Replayable before.now slot.requestHash row := by
  have hunchanged : before.exchanges[index]? ≠ some exchange := by
    intro hsame
    exact hchanged (congrArg (·.stage) (some.inj (hold.symm.trans hsame)))
  cases step with
  | arrive request =>
    cases hnext
    rw [List.getElem?_append_left (List.getElem?_eq_some_iff.mp hold).1] at hexchange
    exact absurd hexchange hunchanged
  | advance advanced action =>
    obtain ⟨former, hformer, hnext⟩ := bind_eq_some_iff.mp hnext
    obtain ⟨⟨rows, evolved⟩, hadvance, rfl⟩ := map_eq_some_iff.mp hnext
    have hadvances := advances_of_advance hadvance
    rcases getElem?_set_cases hexchange with ⟨rfl, rfl⟩ | ⟨-, hexchange⟩
    · obtain rfl : former = old := some.inj (hformer.symm.trans hold)
      cases hadvances with
      | replayed slot found hfound hreplayable =>
        obtain ⟨rfl, -⟩ := Stage.replayed.inj hreplayed
        exact ⟨rfl, rfl, slot, hfound, hreplayable⟩
      | _ => nomatch hreplayed
    · exact absurd hexchange hunchanged
  | cleanup | change _ | pass _ =>
    cases hnext
    exact absurd hexchange hunchanged

variable (server) in
theorem exists_replayed_of_found {before : World} {index : ℕ} {exchange : Exchange} {slot : Slot}
    {row : IdempotencyRow} (hexchange : before.exchanges[index]? = some exchange)
    (hfound : exchange.stage = .found slot (some row))
    (hreplayable : Replayable before.now slot.requestHash row) :
    ∃ after, (serverMachine server).next before (.advance index .decide) = some after ∧
      after.exchanges[index]? =
        some { exchange with stage := .replayed row (storedResponse row) } := by
  have hlook : lookUp server.idempotency before.now slot (some row) = .replay row :=
    lookUp_eq_replay_iff.mpr ⟨rfl, hreplayable⟩
  set after : Exchange := { exchange with stage := .replayed row (storedResponse row) } with hafter
  refine ⟨{ before with exchanges := before.exchanges.set index after }, ?_,
    getElem?_set_of_getElem? hexchange⟩
  simp [serverMachine, hexchange, advance, hfound, hlook, hafter]

/-- Revocation is immediate in a run exactly if no request that authentication would refuse finds a
response to replay. -/
theorem revocationImmediate_iff (server : ServerConfig) (start : World) (steps : List Step) :
    RevocationImmediate server start steps ↔
      (serverMachine server).Meets (ReplaysOnlyAccepted server) start steps := by
  rw [Machine.meets_iff]
  constructor
  · intro h before step hbegins middle hrun index exchange slot row hstep hexchange hfound hreplayable
    subst hstep
    obtain ⟨after, hnext, hafter⟩ := exists_replayed_of_found server hexchange hfound hreplayable
    have hchanged : exchange.stage ≠ .replayed row (storedResponse row) := by
      rw [hfound]
      exact nofun
    exact h.replays before _ middle after hbegins hrun hnext index exchange
      { exchange with stage := .replayed row (storedResponse row) } row _ hexchange hafter hchanged rfl
  · intro h
    refine ⟨fun before after middle world header token hbegins hbefore hafter htoken hrevoked ↦ ?_,
      fun before step middle world hbegins hrun hnext index old exchange row response hold hexchange
        hchanged hreplayed ↦ ?_⟩
    · have hmeets : (serverMachine server).Meets (fun state step ↦
          ReplaysOnlyAccepted server state step ∧
            Revoked server.credentials.hashToken state.accounts state.now token) middle after := by
        refine Machine.meets_iff.mpr fun first step hfirst state hstate ↦ ⟨?_, ?_⟩
        · refine h (before ++ first) step ?_ state ?_
          · rw [append_assoc]
            exact ((prefix_append_right_inj before).mpr hfirst).trans hbegins
          · rw [Machine.run_append, hbefore]
            exact hstate
        · exact hrevoked first state ((prefix_append first [step]).trans hfirst) hstate
      have hbarred : AllBarred server header middle.exchanges.length world := by
        refine Machine.induction_of_meets (motive := fun _ ↦
          AllBarred server header middle.exchanges.length) (fun index exchange hposition hexchange ↦ ?_)
          (fun _ state step next _ hstate hcondition hnext ↦
            barred_next hstate htoken hcondition.2 hcondition.1 hnext) hafter hmeets
        rw [List.getElem?_eq_none hposition] at hexchange
        nomatch hexchange
      exact fun index exchange hposition hexchange hbears ↦
        not_succeeds_of_barred (hbarred index exchange hposition hexchange hbears)
    · obtain ⟨rfl, hrequest, slot, hfound, hreplayable⟩ :=
        exists_found_of_replayed hnext hold hexchange hchanged hreplayed
      rw [hrequest]
      exact h before _ hbegins middle hrun index old slot row rfl hold hfound hreplayable

def revokedSteps : List Step :=
  answeredSteps (deployRequest "d1") ++ [.change (.deleteApiToken "token")]

theorem exists_replay_afterRevocation :
    ∃ middle, (serverMachine releaseServer).run (World.initial releaseAccounts 0) revokedSteps =
        some middle ∧ middle.accounts.apiTokens = [] ∧ middle.exchanges.length = 1 ∧
      ∃ world, (serverMachine releaseServer).run middle (lookedUpSteps (deployRequest "d1")) =
          some world ∧
        ∃ exchange, world.exchanges[1]? = some exchange ∧
          exchange.request = deployRequest "d1" ∧ exchange.Succeeds := by
  refine ⟨_, rfl, rfl, rfl, ?_⟩
  refine ⟨_, rfl, ?_⟩
  refine ⟨_, rfl, rfl, ?_⟩
  exact ⟨_, rfl, rfl⟩

/-- The response of the deployment is replayed to the revoked token. -/
theorem not_revocationImmediate :
    ¬ ∀ (server : ServerConfig) (accounts : Accounts) (now : ℕ) (steps : List Step),
      RevocationImmediate server (World.initial accounts now) steps := by
  intro h
  obtain ⟨middle, hmiddle, htokens, hlength, world, hworld, exchange, hexchange, hrequest, hsucceeds⟩ :=
    exists_replay_afterRevocation
  have himmediate := h releaseServer releaseAccounts 0
    (revokedSteps ++ lookedUpSteps (deployRequest "d1"))
  have hrevoked : RevokedThroughout releaseServer "bport_pat_ci" middle
      (lookedUpSteps (deployRequest "d1")) := by
    intro first state hfirst hrun
    have hdeleted : Deleted releaseServer.credentials.hashToken middle.accounts "bport_pat_ci" := by
      unfold Deleted
      rw [htokens]
      exact fun _ hmem ↦ absurd hmem not_mem_nil
    have hspares : ∀ event, .change event ∈ first →
        event.Spares releaseServer.credentials.hashToken "bport_pat_ci" := by
      intro event hevent
      have hmem := hfirst.subset hevent
      simp [lookedUpSteps] at hmem
    exact (revoked_of_run hspares hrun (.inl hdeleted)).imp_right .inl
  refine himmediate.revoked _ _ middle world "Bearer bport_pat_ci" _ prefix_rfl hmiddle
    hworld ⟨rfl, fun _ ↦ rfl⟩ hrevoked 1 exchange (le_of_eq hlength) hexchange ?_ hsucceeds
  rw [hrequest]
  exact ⟨rfl, rfl⟩

end

end Bridgeport.Api
