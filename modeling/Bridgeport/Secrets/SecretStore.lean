import Bridgeport.Api.Authenticate
import Bridgeport.Foundation.Machine
import Bridgeport.Foundation.Tables
import Bridgeport.Secrets.Placeholders

/-!
# The secrets routes

The rows of `Secret` and the requests that create, change, reveal and delete them, with the settings
that a reveal reads. A request is served for a user who has been authenticated: the scope of a token
and the role are checked first. A body that its schema refuses, and one that names a read-only
field, changes nothing and is left out; so are the timestamps of the rows and the audit log. The AES
cipher is a parameter.

A run keeps every secret write-only until it is deleted exactly if no accepted PATCH of a write-only
secret has `neverReveal: false` (`staysWriteOnly_iff`).
-/

namespace Bridgeport.Secrets

open Foundation Api

/-- A row of `Secret`. -/
structure Secret where
  id : String
  (key encryptedValue nonce : Text)
  description : Option Text
  neverReveal : Bool
  environmentId : String

instance : Keyed Secret where
  id := Secret.id

/-- A row of `SecretUsage`. -/
structure SecretUsage where
  environmentId : String
  secretKey : Text
  configFileId : String

/-- The tables that the routes read and write. -/
structure SecretStore where
  environments : List String
  secrets : Table Secret
  secretUsage : List SecretUsage
  /-- `allowSecretReveal` in the `ConfigurationSettings` row of an environment, if it has one. -/
  allowSecretReveal : String → Option Bool

structure SecretOutput where
  id : String
  key : Text
  description : Option Text
  neverReveal : Bool
  deriving DecidableEq

def Secret.output (secret : Secret) : SecretOutput :=
  { secret with }

/-- `encrypt`, which picks a nonce, and `decrypt`, which throws for a text that was not encrypted
with the master key. -/
structure Cipher where
  encrypt : Text → Text → Text
  decrypt : Text → Text → Option Text

/-- `createSecretSchema`. -/
structure CreateSecretBody where
  (key value : Text)
  description : Option Text := none
  neverReveal : Bool := false
  valid_key : validKey key = true
  value_ne : value ≠ []

/-- `updateSecretSchema`. -/
structure UpdateSecretBody where
  value : Option Text := none
  description : Option Text := none
  neverReveal : Option Bool := none
  value_ne : value ≠ some []

/-- The requests, with the id of a new row and the nonce of an encryption. -/
inductive SecretRequest
  | create (envId : String) (body : CreateSecretBody) (id : String) (nonce : Text)
  | reveal (id : String)
  | update (id : String) (body : UpdateSecretBody) (nonce : Text)
  | delete (id : String)
  /-- The preview of a config file, whose text has the secret values masked. -/
  | preview (configFileId : String)
  | updateSettings (envId : String) (allowSecretReveal : Bool)

def SecretRequest.route : SecretRequest → Method × String × List (String × String)
  | .create envId _ _ _ => (.post, "/api/environments/:envId/secrets", [("envId", envId)])
  | .reveal id => (.get, "/api/secrets/:id/value", [("id", id)])
  | .update id _ _ => (.patch, "/api/secrets/:id", [("id", id)])
  | .delete id => (.delete, "/api/secrets/:id", [("id", id)])
  | .preview configFileId => (.post, "/api/config-files/:id/preview", [("id", configFileId)])
  | .updateSettings envId _ => (.patch, "/api/environments/:id/settings/:module",
      [("id", envId), ("module", "configuration")])

def SecretRequest.toRequest (request : SecretRequest) : Request where
  method := request.route.1
  routerPath := request.route.2.1
  params := request.route.2.2
  query := []
  authorization := none
  cookie := none
  idempotencyKey := []
  body := .absent

def requireAdmin (user : AuthUser) : Except ApiError Unit :=
  if user.role = .admin then .ok ()
  else .error ⟨.forbiddenRole, "Admin access required", none, none⟩

/-- The routes with the handler `requireAdmin`. -/
def SecretRequest.adminOnly : SecretRequest → Bool
  | .reveal _ | .updateSettings _ _ => true
  | _ => false

/-- The checks in front of a route. -/
def authorize (user : AuthUser) (request : SecretRequest) : Except ApiError Unit := do
  enforceTokenScope user request.toRequest
  enforceRoleForMethod user request.toRequest
  if request.adminOnly then requireAdmin user

/-- The replies; a change of a value also triggers the auto-resync. -/
inductive SecretReply
  | secret (output : SecretOutput) (resync : Bool)
  | value (value : Text)
  | success
  | failure (status : ℕ) (error : String)
  deriving DecidableEq

variable (store : SecretStore)

def SecretStore.hasKey (envId : String) (key : Text) : Bool :=
  store.secrets.rows.any fun secret ↦ secret.environmentId = envId ∧ secret.key = key

section

variable (cipher : Cipher)

/-- The row that `createSecret` writes. -/
def createdSecret (envId : String) (input : CreateSecretBody) (id : String) (nonce : Text) : Secret :=
  { input with
    id
    encryptedValue := cipher.encrypt input.value nonce
    nonce
    environmentId := envId }

/-- `updateData` of `updateSecret`, written to a row. -/
def updatedSecret (input : UpdateSecretBody) (nonce : Text) (secret : Secret) : Secret :=
  { secret with
    encryptedValue :=
      (input.value.map fun value ↦ cipher.encrypt value nonce).getD secret.encryptedValue
    nonce := (input.value.map fun _ ↦ nonce).getD secret.nonce
    description := input.description.or secret.description
    neverReveal := input.neverReveal.getD secret.neverReveal }

def getSecretValue (secret : Secret) : Option Text :=
  cipher.decrypt secret.encryptedValue secret.nonce

variable (store : SecretStore)

/-- `deleteSecret`, of a row that is there. -/
def SecretStore.deleteSecret (secret : Secret) : SecretStore :=
  { store with
    secrets := store.secrets.erase secret.id
    secretUsage := store.secretUsage.filter fun row ↦
      ¬ (row.environmentId = secret.environmentId ∧ row.secretKey = secret.key) }

def SecretStore.updateSecret (id : String) (input : UpdateSecretBody) (nonce : Text) :
    SecretStore :=
  { store with secrets := store.secrets.update id (updatedSecret cipher input nonce) fun _ ↦ rfl }

/-- `GET /api/secrets/:id/value`. -/
def SecretStore.reveal (id : String) : SecretReply :=
  match store.secrets.find? id with
  | none => .failure 404 "Secret not found"
  | some secret =>
    if store.allowSecretReveal secret.environmentId = some false then
      .failure 403 "Secret reveal is disabled for this environment"
    else if secret.neverReveal then
      .failure 403 "This secret is write-only and cannot be revealed"
    else
      match getSecretValue cipher secret with
      | none => .failure 404 "Secret not found"
      | some value => .value value

def SecretStore.handle : SecretRequest → SecretStore × SecretReply
  | .create envId body id nonce =>
    let secret := createdSecret cipher envId body id nonce
    if envId ∉ store.environments ∨ ¬ store.secrets.Fresh id then
      (store, .failure 500 "Internal Server Error")
    else if store.hasKey envId body.key then (store, .failure 409 "Secret already exists")
    else ({ store with secrets := store.secrets.insert secret }, .secret secret.output false)
  | .reveal id => (store, store.reveal cipher id)
  | .update id body nonce =>
    match store.secrets.find? id with
    | none => (store, .failure 404 "Secret not found")
    | some existing =>
      -- A value that cannot be decrypted counts as changed.
      let valueActuallyChanged :=
        body.value.isSome ∧ body.value ≠ getSecretValue cipher existing
      (store.updateSecret cipher id body nonce,
        .secret (updatedSecret cipher body nonce existing).output valueActuallyChanged)
  | .delete id =>
    match store.secrets.find? id with
    | none => (store, .failure 404 "Secret not found")
    | some secret => (store.deleteSecret secret, .success)
  | .preview _ => (store, .success)
  | .updateSettings envId allowed =>
    if envId ∈ store.environments then
      ({ store with
        allowSecretReveal := Function.update store.allowSecretReveal envId (some allowed) }, .success)
    else (store, .failure 404 "Environment not found")

def SecretStore.serve (user : AuthUser) (request : SecretRequest) : SecretStore × SecretReply :=
  match authorize user request with
  | .error error => (store, .failure (statusForCode error.code) error.message)
  | .ok () => store.handle cipher request

def secretMachine : Machine SecretStore (AuthUser × SecretRequest) where
  next store label := some (store.serve cipher label.1 label.2).1

end

/-! ### Write-only secrets -/

section

open Foundation Api List Option

/-- The row is there and write-only. -/
def SecretStore.WriteOnly (id : String) : Prop :=
  ∃ secret, store.secrets.find? id = some secret ∧ secret.neverReveal = true

/-- The row is there. -/
def SecretStore.Present (id : String) : Prop :=
  (store.secrets.find? id).isSome

/-- A reveal that the user sends now returns a value. -/
def SecretStore.Reveals (cipher : Cipher) (store : SecretStore) (user : AuthUser) (id : String) : Prop :=
  ∃ value, (store.serve cipher user (.reveal id)).2 = .value value

/-- From every moment of the run at which a row is write-only, it stays write-only as long as it is
not deleted, and a reveal does not return its value. -/
def StaysWriteOnly (cipher : Cipher) (initial : SecretStore)
    (labels : List (AuthUser × SecretRequest)) : Prop :=
  ∀ earlier later, earlier ++ later <+: labels → ∀ middle final,
    (secretMachine cipher).run initial earlier = some middle →
    (secretMachine cipher).run middle later = some final → ∀ id, middle.WriteOnly id →
    (∀ during, during <+: later → ∀ state, (secretMachine cipher).run middle during = some state →
      state.Present id) →
    final.WriteOnly id ∧ ∀ user, ¬ final.Reveals cipher user id

/-- The request does not turn the flag of a write-only row off. -/
def KeepsFlag (label : AuthUser × SecretRequest) : Prop :=
  ∀ id body nonce, label.2 = .update id body nonce → authorize label.1 label.2 = .ok () →
    store.WriteOnly id → body.neverReveal ≠ some false

/-! ### One request -/

variable {cipher : Cipher} {store : SecretStore} {user : AuthUser} {request : SecretRequest} {id : String}

theorem serve_of_ok (h : authorize user request = .ok ()) :
    store.serve cipher user request = store.handle cipher request := by
  simp only [SecretStore.serve, h]

theorem serve_of_error {error : ApiError} (h : authorize user request = .error error) :
    store.serve cipher user request =
      (store, .failure (statusForCode error.code) error.message) := by
  simp only [SecretStore.serve, h]

/-- A write-only secret is not revealed, whoever asks and whatever the settings say. -/
theorem not_reveals_of_writeOnly (h : store.WriteOnly id) : ¬ store.Reveals cipher user id := by
  obtain ⟨secret, hfound, hflag⟩ := h
  intro ⟨value, hvalue⟩
  cases hauthorized : authorize user (.reveal id) with
  | error error =>
    rw [serve_of_error hauthorized] at hvalue
    cases hvalue
  | ok _ =>
    rw [serve_of_ok hauthorized] at hvalue
    have hreply : store.reveal cipher id = .value value := hvalue
    unfold SecretStore.reveal at hreply
    simp only [hfound, hflag] at hreply
    split_ifs at hreply

theorem updateSecret_find? (other : String) (body : UpdateSecretBody) (nonce : Text) :
    (store.updateSecret cipher other body nonce).secrets.find? id =
      if other = id then (store.secrets.find? id).map (updatedSecret cipher body nonce)
      else store.secrets.find? id :=
  Table.find?_update store.secrets other (updatedSecret cipher body nonce) (fun _ ↦ rfl) id

theorem deleteSecret_find? (deleted : Secret) : (store.deleteSecret deleted).secrets.find? id =
    if deleted.id = id then none else store.secrets.find? id :=
  Table.find?_erase _ _ _

variable {secret : Secret}

theorem writeOnly_iff (h : store.secrets.find? id = some secret) :
    store.WriteOnly id ↔ secret.neverReveal = true := by
  simp [SecretStore.WriteOnly, h]

/-- What a request makes of a row: it stays as it is, or a PATCH or a deletion of this row does what
it should. -/
theorem find?_handle (cipher : Cipher) (h : store.secrets.find? id = some secret)
    (request : SecretRequest) :
    (store.handle cipher request).1.secrets.find? id = some secret ∨
      (∃ body nonce, request = .update id body nonce ∧
        (store.handle cipher request).1.secrets.find? id = some
          (updatedSecret cipher body nonce secret)) ∨
      request = .delete id ∧ (store.handle cipher request).1.secrets.find? id = none := by
  cases request with
  | create envId body newId nonce =>
    refine .inl ?_
    simp only [SecretStore.handle]
    split_ifs with hrefused
    · exact h
    · exact h
    · have hfresh : store.secrets.Fresh (createdSecret cipher envId body newId nonce).id :=
        not_not.mp (not_or.mp hrefused).2
      have hother : newId ≠ id := by
        rintro rfl
        exact Table.not_fresh_of_find? h hfresh
      exact (Table.find?_insert hfresh id).trans ((if_neg hother).trans h)
  | reveal _ | preview _ => exact .inl h
  | update other body nonce =>
    simp only [SecretStore.handle]
    by_cases hother : other = id
    · refine .inr (.inl ⟨body, nonce, by rw [hother], ?_⟩)
      simp [hother, h, updateSecret_find?]
    · refine .inl ?_
      split
      · exact h
      · rw [updateSecret_find?, if_neg hother, h]
  | delete other =>
    simp only [SecretStore.handle]
    by_cases hother : other = id
    · have hid : secret.id = id := (Table.find?_eq_some_iff.mp h).2
      refine .inr (.inr ⟨by rw [hother], ?_⟩)
      simp [hother, h, deleteSecret_find?, hid]
    · refine .inl ?_
      split
      · exact h
      · rename_i deleted hdeleted
        have hid : deleted.id = other := (Table.find?_eq_some_iff.mp hdeleted).2
        rw [deleteSecret_find?, hid, if_neg hother, h]
  | updateSettings envId allowed =>
    refine .inl ?_
    simp only [SecretStore.handle]
    split_ifs <;> exact h

/-- The flag behind a PATCH of a write-only secret is the one in the body, if it has one. -/
theorem updatedSecret_neverReveal (h : secret.neverReveal = true) (body : UpdateSecretBody)
    (nonce : Text) :
    (updatedSecret cipher body nonce secret).neverReveal = true ↔
    body.neverReveal ≠ some false := by
  have hnever : (updatedSecret cipher body nonce secret).neverReveal =
    body.neverReveal.getD true := by
    rw [← h]
    rfl
  rw [hnever]
  cases body.neverReveal <;> simp

/-- A write-only row that a request leaves there is still write-only, unless a PATCH turns the flag
off. -/
theorem writeOnly_serve (h : store.WriteOnly id) (hkeeps : KeepsFlag store (user, request))
    (hpresent : (store.serve cipher user request).1.Present id) :
    (store.serve cipher user request).1.WriteOnly id := by
  cases hauthorized : authorize user request with
  | error error =>
    rw [serve_of_error hauthorized]
    exact h
  | ok _ =>
    rw [serve_of_ok hauthorized] at hpresent ⊢
    obtain ⟨secret, hfound, hflag⟩ := h
    rcases find?_handle cipher hfound request with hsame | ⟨body, nonce, hrequest, hupdated⟩ |
      ⟨-, hdeleted⟩
    · exact ⟨secret, hsame, hflag⟩
    · rw [writeOnly_iff hupdated, updatedSecret_neverReveal hflag]
      exact hkeeps id body nonce hrequest hauthorized ⟨secret, hfound, hflag⟩
    · rw [SecretStore.Present, hdeleted] at hpresent
      exact absurd hpresent (by simp)

/-- Along requests that keep the flag, a row stays write-only until it is deleted. -/
theorem writeOnly_of_run {middle final : SecretStore} {labels : List (AuthUser × SecretRequest)}
    (hrun : (secretMachine cipher).run middle labels = some final)
    (hmeets : (secretMachine cipher).Meets KeepsFlag middle labels) (h : middle.WriteOnly id)
    (hpresent : ∀ during, during <+: labels → ∀ state,
      (secretMachine cipher).run middle during = some state → state.Present id) :
    final.WriteOnly id := by
  induction labels using List.reverseRecOn generalizing final with
  | nil => exact some.inj hrun ▸ h
  | append_singleton labels label ih =>
    obtain ⟨before, hbefore, hnext⟩ := Machine.exists_of_run_concat hrun
    obtain ⟨hlabels, hlabel⟩ := Machine.meets_concat.mp hmeets
    have hflagged : before.WriteOnly id := ih hbefore hlabels fun during hbegin ↦
      hpresent during (hbegin.trans (prefix_append _ _))
    have hafter := hpresent _ prefix_rfl final hrun
    obtain rfl := some.inj hnext
    exact writeOnly_serve hflagged (hlabel before hbefore) hafter

/-- A run keeps every secret write-only exactly if no PATCH in it turns the flag of one off. -/
theorem staysWriteOnly_iff (cipher : Cipher) (initial : SecretStore)
    (labels : List (AuthUser × SecretRequest)) :
    StaysWriteOnly cipher initial labels ↔ (secretMachine cipher).Meets KeepsFlag initial labels := by
  constructor
  · intro h
    refine Machine.meets_iff.mpr fun before label hbegins state hrun row body nonce hlabel hok hflag ↦ ?_
    obtain ⟨secret, hfound, hset⟩ := hflag
    have hserved : (state.serve cipher label.1 label.2).1 = state.updateSecret cipher row body nonce := by
      rw [serve_of_ok hok, hlabel]
      simp only [SecretStore.handle, hfound]
    have hlast : (secretMachine cipher).run state [label] =
        some (state.updateSecret cipher row body nonce) := congrArg some hserved
    have hafter : (state.updateSecret cipher row body nonce).secrets.find? row =
        some (updatedSecret cipher body nonce secret) := by
      rw [updateSecret_find?, if_pos rfl, hfound]
      rfl
    have hkept := (h before [label] hbegins state _ hrun hlast row ⟨secret, hfound, hset⟩
      fun during hbegin reached hreached ↦ ?_).1
    · exact (updatedSecret_neverReveal hset body nonce).mp ((writeOnly_iff hafter).mp hkept)
    · rcases prefix_cons_iff.mp hbegin with rfl | ⟨rest, rfl, hrest⟩
      · rw [← some.inj hreached, SecretStore.Present, hfound]
        rfl
      · rw [prefix_nil.mp hrest] at hreached
        rw [← some.inj (hlast.symm.trans hreached), SecretStore.Present, hafter]
        rfl
  · intro h earlier later hbegins middle final hearlier hlater id hflag hpresent
    have hmeets : (secretMachine cipher).Meets KeepsFlag initial (earlier ++ later) := by
      obtain ⟨rest, rfl⟩ := hbegins
      exact (Machine.meets_append.mp h).1
    have hfinal : final.WriteOnly id :=
      writeOnly_of_run hlater ((Machine.meets_append.mp hmeets).2 middle hearlier) hflag hpresent
    exact ⟨hfinal, fun user ↦ not_reveals_of_writeOnly hfinal⟩

def userWithRole (role : UserRole) : AuthUser where
  id := "user"
  email := "user@example.test"
  name := none
  role := role

/-- A cipher that does not hide anything. -/
def plainCipher : Cipher where
  encrypt value _ := value
  decrypt encrypted _ := some encrypted

def emptyStore : SecretStore where
  environments := ["production"]
  secrets := Table.empty
  secretUsage := []
  allowSecretReveal _ := none

/-- A write-only secret is created, and a PATCH turns the flag off. -/
def unmarkingRun : List (AuthUser × SecretRequest) :=
  [(userWithRole .operator, .create "production"
      ⟨"STRIPE_KEY".toList, "sk_live".toList, none, true, by decide, by decide⟩ "secret" []),
    (userWithRole .operator, .update "secret" ⟨none, none, some false, by decide⟩ [])]

/-- Afterwards an administrator reads the value. -/
theorem not_staysWriteOnly_unmarkingRun :
    (∃ final, (secretMachine plainCipher).run emptyStore unmarkingRun = some final ∧
      (final.serve plainCipher (userWithRole .admin) (.reveal "secret")).2 = .value "sk_live".toList) ∧
      ¬ (∀ cipher initial labels, StaysWriteOnly cipher initial labels) := by
  refine ⟨⟨_, rfl, by decide⟩, fun hall ↦ ?_⟩
  have hkept := hall plainCipher emptyStore unmarkingRun (unmarkingRun.take 1) (unmarkingRun.drop 1)
    (by rw [take_append_drop]) _ _ rfl rfl "secret" ⟨_, rfl, rfl⟩
  refine absurd (hkept fun during hbegin state hstate ↦ ?_).1 ?_
  · rcases prefix_cons_iff.mp hbegin with rfl | ⟨rest, rfl, hrest⟩
    · rw [← some.inj hstate]
      rfl
    · rw [prefix_nil.mp hrest] at hstate
      rw [← some.inj hstate]
      rfl
  · intro ⟨secret, hfound, hflag⟩
    rw [← some.inj hfound] at hflag
    exact absurd hflag (by decide)

end

end Bridgeport.Secrets
