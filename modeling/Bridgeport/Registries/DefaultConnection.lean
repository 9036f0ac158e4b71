import Bridgeport.Foundation.RaisedFlags
import Bridgeport.Registries.LoginFreshness

/-!
# The default connection of an environment

Creates, updates and deletes of registry connections run at once. What each call does with the
default flags is its `flagStep` (`allows_flagStep`), and a request takes the flag from the
connections of an environment before it raises one of it (`clearsFirst`): an update reads the
environment from the row, and the environment of an id never changes (`ConnectionRuns.found`).
-/

namespace Bridgeport.Registries

variable (environmentId : String) (updatedAt : ℕ)

section

open Foundation Program
open Secrets (Text)

/-! ### Creation -/

/-- `RegistryConnectionInput`; an absent field is none, as one that is `null`. -/
structure NewConnectionInput where
  (name type : String)
  registryUrl : Text
  (repositoryPrefix token username password : Option String)
  isDefault : Option Bool
  refreshIntervalMinutes : Option ℕ
  autoLinkPattern : Option String

structure NewConnection where
  (name type : String)
  registryUrl : Text
  repositoryPrefix : Option String
  encryptedToken : Option Encrypted
  username : Option String
  encryptedPassword : Option Encrypted
  isDefault : Bool
  refreshIntervalMinutes : ℕ
  autoLinkPattern : Option String
  environmentId : String

def NewConnection.row (data : NewConnection) (id : String) (updatedAt : ℕ) : RegistryConnection :=
  { data with id, updatedAt }

/-- The calls of the requests: those of `RegistryLogin`, the flag taken from all connections of an
environment, and a connection created or deleted. -/
inductive RequestCall
  | shared (request : Call)
  | unsetAllDefaults (environmentId : String)
  | createConnection (data : NewConnection)
  | deleteConnection (id : String)

/-- The answers to the calls; `unsetAllDefaults` is answered with the time that it writes. -/
@[reducible]
def RequestAnswer : RequestCall → Type
  | .shared request => Answer request
  | .unsetAllDefaults _ => ℕ
  | .createConnection _ => RegistryConnection
  | .deleteConnection _ => Unit

/-- Asynchronous code over these calls. -/
abbrev RequestAsync := Program RequestAnswer

def encryptTruthy (value : Option String) : RequestAsync (Option Encrypted) :=
  match truthy value with
  | none => pure none
  | some value => do
    let encrypted ← perform (.shared (.encrypt value))
    pure (some encrypted)

def createRegistryConnection (input : NewConnectionInput) : RequestAsync RegistryConnection := do
  Program.when (input.isDefault = some true) do
    let _ ← perform (.unsetAllDefaults environmentId)
    pure ()
  let encryptedToken ← encryptTruthy input.token
  let encryptedPassword ← encryptTruthy input.password
  perform (RequestCall.createConnection
    { input with
      repositoryPrefix := truthy input.repositoryPrefix
      encryptedToken
      username := truthy input.username
      encryptedPassword
      isDefault := input.isDefault.getD false
      refreshIntervalMinutes := input.refreshIntervalMinutes.getD 30
      autoLinkPattern := truthy input.autoLinkPattern
      environmentId })

def deleteRegistryConnection (id : String) : RequestAsync Unit :=
  perform (RequestCall.deleteConnection id)

/-! ### The database -/

/-- The row after the flag has been taken from the connections of its environment. -/
def RegistryConnection.unsetDefaultIn (row : RegistryConnection) : RegistryConnection :=
  if row.environmentId = environmentId ∧ row.isDefault then
    { row with isDefault := false, updatedAt }
  else row

theorem RegistryConnection.id_unsetDefaultIn (row : RegistryConnection) :
    Keyed.id (row.unsetDefaultIn environmentId updatedAt) = Keyed.id row := by
  unfold unsetDefaultIn
  split_ifs <;> rfl

/-- The store, and the environment of every connection that has been created. -/
structure RequestStore where
  registry : RegistryStore
  issued : String → Option String

namespace RequestStore

variable (store : RequestStore)

/-- `@@unique([environmentId, name])`: no other connection has the name of a row. -/
def NameFree (conn : RegistryConnection) : Prop :=
  ∀ other ∈ store.registry.connections.rows, other.environmentId = conn.environmentId →
    other.name = conn.name → other.id = conn.id

def isDefault (id : String) : Option Bool :=
  (store.registry.connections.find? id).map (·.isDefault)

def defaults : Set (String × String) :=
  {key | ∃ conn, store.registry.connections.find? key.2 = some conn ∧
    conn.environmentId = key.1 ∧ conn.isDefault = true}

def Recorded : Prop :=
  ∀ id conn, store.registry.connections.find? id = some conn →
    store.issued id = some conn.environmentId

end RequestStore

/-- The connections under the calls of the requests. -/
def requestSemantics : Semantics RequestAnswer RequestStore where
  allows store event :=
    match event with
    | ⟨.shared (.updateConnection id data), .ok conn⟩ =>
      registrySemantics.allows store.registry ⟨.updateConnection id data, .ok conn⟩ ∧
        store.NameFree conn
    | ⟨.shared request, answer⟩ => registrySemantics.allows store.registry ⟨request, answer⟩
    | ⟨.createConnection data, .ok conn⟩ =>
      conn = data.row conn.id conn.updatedAt ∧ store.issued conn.id = none ∧ store.NameFree conn
    | ⟨.deleteConnection id, .ok _⟩ => (store.registry.connections.find? id).isSome = true
    | _ => True
  after store event :=
    match event with
    | ⟨.shared request, answer⟩ =>
      { store with registry := registrySemantics.after store.registry ⟨request, answer⟩ }
    | ⟨.unsetAllDefaults environmentId, .ok time⟩ =>
      { store with registry := { store.registry with
        connections := store.registry.connections.updateAll
          (RegistryConnection.unsetDefaultIn environmentId time)
          (RegistryConnection.id_unsetDefaultIn environmentId time) } }
    | ⟨.createConnection data, .ok conn⟩ =>
      { registry := { store.registry with
          connections := store.registry.connections.insert conn }
        issued := Function.update store.issued conn.id (some data.environmentId) }
    | ⟨.deleteConnection id, .ok _⟩ =>
      { store with registry := { store.registry with
        connections := store.registry.connections.erase id
        logins := fun key ↦ if key.2 = id then none else store.registry.logins key } }
    | _ => store

inductive ConnectionTask
  | create (environmentId : String) (input : NewConnectionInput)
  | update (id : String) (input : ConnectionInput)
  | delete (id : String)

namespace ConnectionTask

@[reducible]
def Outcome : ConnectionTask → Type
  | .create _ _ | .update _ _ => RegistryConnection
  | .delete _ => Unit

def program : (task : ConnectionTask) → RequestAsync task.Outcome
  | .create environmentId input => createRegistryConnection environmentId input
  | .update id input => (updateRegistryConnection id input).lift .shared
  | .delete id => deleteRegistryConnection id

end ConnectionTask

def flagStep : Event RequestAnswer → FlagStep String String
  | ⟨.shared (.unsetDefaults environmentId id), .ok _⟩ => .clear environmentId (some id)
  | ⟨.unsetAllDefaults environmentId, .ok _⟩ => .clear environmentId none
  | ⟨.shared (.updateConnection id data), .ok conn⟩ =>
    if data.isDefault = some true then .raise conn.environmentId id else .lower
  | ⟨.createConnection data, .ok conn⟩ =>
    if data.isDefault = true then .raise data.environmentId conn.id else .lower
  | _ => .lower

end

open Foundation Program List Option Function

section

variable {environmentId id : String} {time : ℕ} {row : RegistryConnection}

theorem RegistryConnection.environmentId_unsetDefault :
    (row.unsetDefault environmentId id time).environmentId = row.environmentId := by
  unfold unsetDefault
  split_ifs <;> rfl

theorem RegistryConnection.environmentId_unsetDefaultIn :
    (row.unsetDefaultIn environmentId time).environmentId = row.environmentId := by
  unfold unsetDefaultIn
  split_ifs <;> rfl

theorem RegistryConnection.isDefault_of_unsetDefault
    (h : (row.unsetDefault environmentId id time).isDefault = true) :
    row.isDefault = true ∧ (row.environmentId = environmentId → row.id = id) := by
  unfold unsetDefault at h
  split_ifs at h with hcleared
  exact ⟨h, fun henvironment ↦ not_not.mp fun hne ↦ hcleared ⟨henvironment, h, hne⟩⟩

theorem RegistryConnection.isDefault_of_unsetDefaultIn
    (h : (row.unsetDefaultIn environmentId time).isDefault = true) :
    row.isDefault = true ∧ row.environmentId ≠ environmentId := by
  unfold unsetDefaultIn at h
  split_ifs at h with hcleared
  exact ⟨h, fun henvironment ↦ hcleared ⟨henvironment, h⟩⟩

end

/-! ### What a call does with the flags -/

section

variable {store : RequestStore} {event : Event RequestAnswer} {id : String}

theorem RequestStore.Recorded.fresh (h : store.Recorded) (hissued : store.issued id = none) :
    store.registry.connections.Fresh id := by
  intro hmem
  obtain ⟨conn, hconn, hid⟩ := mem_map.mp hmem
  have hfound : store.registry.connections.find? id = some conn := hid ▸ Table.find?_of_mem hconn
  nomatch hissued.symm.trans (h id conn hfound)

/-- Where a connection comes from that is there after a call: from an older one, whose flag the call
has raised or left, or from the call that creates it. -/
theorem RequestStore.Recorded.exists_before (h : store.Recorded)
    (hallows : requestSemantics.allows store event) {conn : RegistryConnection}
    (hconn : (requestSemantics.after store event).registry.connections.find? id = some conn) :
    (∃ before, store.registry.connections.find? id = some before ∧
      before.environmentId = conn.environmentId ∧ (conn.isDefault = true →
        flagStep event = .raise conn.environmentId id ∨ before.isDefault = true ∧
          ∀ spared, flagStep event = .clear conn.environmentId spared → spared = some id)) ∨
    ∃ data, event = ⟨.createConnection data, .ok conn⟩ ∧ conn.id = id := by
  have hkept : store.registry.connections.find? id = some conn →
      (∀ scope spared, flagStep event ≠ .clear scope spared) →
      ∃ before, store.registry.connections.find? id = some before ∧
        before.environmentId = conn.environmentId ∧ (conn.isDefault = true →
          flagStep event = .raise conn.environmentId id ∨ before.isDefault = true ∧
            ∀ spared, flagStep event = .clear conn.environmentId spared → spared = some id) :=
    fun hfound hstep ↦ ⟨conn, hfound, rfl, fun hdefault ↦
      .inr ⟨hdefault, fun spared hclear ↦ absurd hclear (hstep _ spared)⟩⟩
  obtain ⟨request, answer⟩ := event
  cases answer with
  | error message =>
    refine .inl (hkept ?_ ?_)
    · cases request with
      | shared request => cases request <;> exact hconn
      | _ => exact hconn
    · cases request with
      | shared request => cases request <;> exact nofun
      | _ => exact nofun
  | ok value =>
    cases request with
    | shared request =>
      cases request with
      | unsetDefaults environmentId except =>
        have hfound : (store.registry.connections.find? id).map
            (RegistryConnection.unsetDefault environmentId except value) = some conn :=
          (Table.find?_updateAll _ _ (RegistryConnection.id_unsetDefault _ _ _) id).symm.trans hconn
        obtain ⟨before, hbefore, rfl⟩ := map_eq_some_iff.mp hfound
        refine .inl ⟨before, hbefore, RegistryConnection.environmentId_unsetDefault.symm,
          fun hdefault ↦ .inr ?_⟩
        obtain ⟨hwas, hspared⟩ := RegistryConnection.isDefault_of_unsetDefault hdefault
        refine ⟨hwas, fun spared hclear ↦ ?_⟩
        obtain ⟨henvironment, rfl⟩ := FlagStep.clear.inj hclear
        have hsame := henvironment.trans RegistryConnection.environmentId_unsetDefault
        rw [← hspared hsame.symm]
        exact congrArg some (Table.find?_eq_some_iff.mp hbefore).2
      | updateConnection updated data =>
        have hfound : (if updated = id then
            (store.registry.connections.find? id).map (data.apply value.updatedAt)
          else store.registry.connections.find? id) = some conn :=
          (Table.find?_update _ _ _ (data.id_apply value.updatedAt) id).symm.trans hconn
        have hstep : ∀ scope spared, flagStep ⟨.shared (.updateConnection updated data), .ok value⟩ ≠
            .clear scope spared := by
          intro scope spared hclear
          change (if data.isDefault = some true then _ else _) = _ at hclear
          split_ifs at hclear
        split_ifs at hfound with hid
        · obtain ⟨⟨before, hbefore, hvalue⟩, -⟩ := hallows
          rw [← hid, hbefore] at hfound
          obtain rfl : value = conn := hvalue.trans (some.inj hfound)
          refine .inl ⟨before, hid ▸ hbefore, ?_, fun hdefault ↦ ?_⟩
          · rw [hvalue]
            rfl
          · by_cases hraise : data.isDefault = some true
            · exact .inl ((if_pos hraise).trans (by rw [hid]))
            · refine .inr ⟨?_, fun spared hclear ↦ absurd hclear (hstep _ spared)⟩
              rw [hvalue] at hdefault
              change data.isDefault.getD before.isDefault = true at hdefault
              cases hdata : data.isDefault with
              | none => simpa [hdata] using hdefault
              | some flag =>
                rw [hdata] at hdefault hraise
                exact absurd (congrArg some hdefault) hraise
        · exact .inl (hkept hfound hstep)
      | _ => exact .inl (hkept hconn nofun)
    | unsetAllDefaults environmentId =>
      have hfound : (store.registry.connections.find? id).map
          (RegistryConnection.unsetDefaultIn environmentId value) = some conn :=
        (Table.find?_updateAll _ _ (RegistryConnection.id_unsetDefaultIn _ _) id).symm.trans hconn
      obtain ⟨before, hbefore, rfl⟩ := map_eq_some_iff.mp hfound
      refine .inl ⟨before, hbefore, RegistryConnection.environmentId_unsetDefaultIn.symm,
        fun hdefault ↦ .inr ?_⟩
      obtain ⟨hwas, hother⟩ := RegistryConnection.isDefault_of_unsetDefaultIn hdefault
      refine ⟨hwas, fun spared hclear ↦ absurd ?_ hother⟩
      exact ((FlagStep.clear.inj hclear).1.trans
        RegistryConnection.environmentId_unsetDefaultIn).symm
    | createConnection data =>
      have hfound : (if value.id = id then some value else store.registry.connections.find? id) =
          some conn :=
        (Table.find?_insert (h.fresh hallows.2.1) id).symm.trans hconn
      split_ifs at hfound with hid
      · rw [← some.inj hfound]
        exact .inr ⟨data, rfl, hid⟩
      · refine .inl (hkept hfound fun scope spared hclear ↦ ?_)
        change (if data.isDefault = true then _ else _) = _ at hclear
        split_ifs at hclear
    | deleteConnection deleted =>
      have hfound : (if deleted = id then none else store.registry.connections.find? id) =
          some conn :=
        (Table.find?_erase _ deleted id).symm.trans hconn
      split_ifs at hfound
      exact .inl (hkept hfound nofun)

theorem issued_after (hallows : requestSemantics.allows store event) {environmentId : String}
    (hissued : store.issued id = some environmentId) :
    (requestSemantics.after store event).issued id = some environmentId := by
  obtain ⟨request, answer⟩ := event
  cases request with
  | createConnection data =>
    cases answer with
    | error message => exact hissued
    | ok conn =>
      have hne : id ≠ conn.id := by
        rintro rfl
        nomatch hallows.2.1.symm.trans hissued
      exact (update_of_ne hne _ _).trans hissued
  | _ => cases answer <;> exact hissued

theorem RequestStore.Recorded.step (h : store.Recorded)
    (hallows : requestSemantics.allows store event) :
    (requestSemantics.after store event).Recorded := by
  intro id conn hconn
  rcases h.exists_before hallows hconn with ⟨before, hbefore, henvironment, -⟩ | ⟨data, rfl, rfl⟩
  · exact issued_after hallows (henvironment ▸ h id before hbefore)
  · have hdata : conn.environmentId = data.environmentId :=
      congrArg RegistryConnection.environmentId hallows.1
    exact (update_self _ _ _).trans (congrArg some hdata.symm)

/-- A call does with the flags what its `flagStep` says. -/
theorem allows_flagStep (hrecorded : store.Recorded)
    (hallows : requestSemantics.allows store event) :
    (flagStep event).Allows store.defaults (requestSemantics.after store event).defaults := by
  refine FlagStep.allows_of_forall fun environmentId id ⟨conn, hconn, henvironment, hdefault⟩ ↦ ?_
  obtain rfl : conn.environmentId = environmentId := henvironment
  rcases hrecorded.exists_before hallows hconn with ⟨before, hbefore, hsame, hflag⟩ | ⟨data, rfl, rfl⟩
  · exact (hflag hdefault).imp_right fun ⟨hwas, hspared⟩ ↦ ⟨⟨before, hbefore, hsame, hwas⟩, hspared⟩
  · have hvalue : conn = data.row conn.id conn.updatedAt := hallows.1
    have hraise : data.isDefault = true :=
      (congrArg RegistryConnection.isDefault hvalue).symm.trans hdefault
    refine .inl ((if_pos hraise).trans ?_)
    exact congrArg (FlagStep.raise · conn.id)
      (congrArg RegistryConnection.environmentId hvalue).symm

end

/-! ### What a request does first -/

variable (history : List (Event RequestAnswer))

/-- The calls that a request may make after others: the flag of a connection is set when it has been
taken from the others of its environment. -/
def mayCall : RequestCall → Prop
  | .shared (.updateConnection id data) => data.isDefault = some true → ∃ conn time,
    ⟨.shared (.findConnection id), .ok (some conn)⟩ ∈ history ∧
      ⟨.shared (.unsetDefaults conn.environmentId id), .ok time⟩ ∈ history
  | .createConnection data => data.isDefault = true → ∃ time,
    ⟨.unsetAllDefaults data.environmentId, .ok time⟩ ∈ history
  | _ => True

def connectionProtocol : Protocol RequestAnswer (List (Event RequestAnswer)) :=
  historyProtocol mayCall fun _ ↦ True

/-- A look for a connection. -/
def Finds (event : Event RequestAnswer) : Prop :=
  ∃ id answer, event = ⟨.shared (.findConnection id), answer⟩

/-- What an encryption adds to the history. -/
def Encrypts {α : Type} (history : List (Event RequestAnswer)) (result : Except String α)
    (state : List (Event RequestAnswer)) : Prop :=
  (∀ event ∈ history, event ∈ state) ∧ FailsLast Finds result state

theorem encrypts_call {α : Type} (value : String) (answer : Except String Encrypted)
    (next : Encrypted → α) :
    Encrypts history (answer.map next) (history ++ [⟨.shared (.encrypt value), answer⟩]) := by
  refine ⟨fun event hevent ↦ mem_append_left _ hevent, ?_⟩
  cases answer with
  | ok encrypted => exact failsLast_ok _ _
  | error message => exact failsLast_concat message history _

theorem follows_encryptTruthy (value : Option String) (history : List (Event RequestAnswer)) :
    (encryptTruthy value).Follows connectionProtocol (Encrypts history) history := by
  unfold encryptTruthy
  cases truthy value with
  | none => exact ⟨fun _ hevent ↦ hevent, failsLast_ok _ _⟩
  | some value =>
    refine ⟨trivial, fun answer _ ↦ ?_⟩
    have hcall := encrypts_call history value answer some
    cases answer with
    | ok _ | error _ => exact hcall

theorem follows_encryptGiven (value : Option (Option String))
    (history : List (Event RequestAnswer)) :
    ((encryptGiven value).lift RequestCall.shared).Follows connectionProtocol (Encrypts history)
      history := by
  unfold encryptGiven
  cases value with
  | none => exact ⟨fun _ hevent ↦ hevent, failsLast_ok _ _⟩
  | some value =>
    dsimp only
    cases truthy value with
    | none => exact ⟨fun _ hevent ↦ hevent, failsLast_ok _ _⟩
    | some value =>
      refine ⟨trivial, fun answer _ ↦ ?_⟩
      have hcall := encrypts_call history value answer fun encrypted ↦ some (some encrypted)
      cases answer with
      | ok _ | error _ => exact hcall

theorem Encrypts.ends {α β : Type} {history state : List (Event RequestAnswer)}
    {result : Except String α} (h : Encrypts history result state) :
    Ends (fun _ state ↦ ∀ event ∈ history, event ∈ state)
      (fun message ↦ FailsLast Finds (.error message : Except String β)) result state := by
  cases result with
  | ok value => exact h.1
  | error message => exact fun other hother ↦ h.2 other (Except.error.inj hother ▸ rfl)

theorem follows_createRegistryConnection (input : NewConnectionInput) :
    (createRegistryConnection environmentId input).Follows connectionProtocol (FailsLast Finds) [] := by
  refine follows_bind_of (fun _ history ↦ input.isDefault = some true → ∃ time,
    ⟨.unsetAllDefaults environmentId, .ok time⟩ ∈ history) ?_ fun _ history hcleared ↦ ?_
  · refine Follows.ite (fun _ ↦ ?_) fun hdefault hgiven ↦ absurd hgiven hdefault
    exact follows_perform_bind trivial (fun time _ _ ↦ ⟨time, mem_singleton_self _⟩) fun message ↦
      failsLast_concat message [] _
  refine follows_bind_of _ ((follows_encryptTruthy input.token history).mono fun _ _ h ↦ h.ends)
    fun token afterToken hkept ↦ ?_
  refine follows_bind_of _ ((follows_encryptTruthy input.password afterToken).mono
    fun _ _ h ↦ h.ends) fun password afterPassword hkeptToo ↦ ?_
  refine ⟨fun hdefault ↦ ?_, fun answer _ ↦ failsLast_answer afterPassword answer⟩
  obtain ⟨time, htime⟩ := hcleared (by simpa [Option.getD_eq_iff] using hdefault)
  exact ⟨time, hkeptToo _ (hkept _ htime)⟩

/-- The end of an update, behind the write: the recorded logins are dropped. -/
theorem follows_dropLogins (id : String) (input : ConnectionInput) (conn : RegistryConnection)
    (history : List (Event RequestAnswer)) :
    ((do
      Program.when input.CredsChanged (await (.deleteLogins id))
      pure conn : Async RegistryConnection).lift RequestCall.shared).Follows connectionProtocol
        (FailsLast Finds) history := by
  refine follows_lift_bind (follows_lift_when (fun _ ↦ ?_) fun _ ↦ failsLast_ok _ _)
  refine follows_lift_perform trivial fun answer _ ↦ ?_
  cases answer with
  | ok _ => exact failsLast_ok _ _
  | error message => exact failsLast_concat message history _

theorem follows_updateRegistryConnection (id : String) (input : ConnectionInput) :
    ((updateRegistryConnection id input).lift RequestCall.shared).Follows connectionProtocol
      (FailsLast Finds) [] := by
  unfold updateRegistryConnection
  refine follows_lift_bind (follows_lift_perform trivial fun answer _ ↦ ?_)
  cases answer with
  | error message => exact failsLast_concat message [] _
  | ok existing =>
    cases existing with
    | none =>
      refine fun _ _ ↦ .inr fun event hevent ↦ ⟨id, .ok none, ?_⟩
      exact mem_singleton.mp hevent
    | some existing =>
      -- the flags have been taken first if need be
      refine follows_lift_bind_of (fun _ history ↦ input.isDefault = some true → ∃ conn time,
        ⟨.shared (.findConnection id), .ok (some conn)⟩ ∈ history ∧
          ⟨.shared (.unsetDefaults conn.environmentId id), .ok time⟩ ∈ history) ?_
        fun _ history hcleared ↦ ?_
      · refine follows_lift_when (fun _ ↦ ?_) fun hdefault hgiven ↦ absurd hgiven hdefault
        refine follows_lift_bind (follows_lift_perform trivial fun cleared _ ↦ ?_)
        cases cleared with
        | error message => exact failsLast_concat message _ _
        | ok time =>
          exact fun _ ↦ ⟨existing, time, mem_cons_self, mem_cons_of_mem _ (mem_singleton_self _)⟩
      refine follows_lift_bind_of _ ((follows_encryptGiven input.token history).mono
        fun _ _ h ↦ h.ends) fun token afterToken hkept ↦ ?_
      refine follows_lift_bind_of _ ((follows_encryptGiven input.password afterToken).mono
        fun _ _ h ↦ h.ends) fun password afterPassword hkeptToo ↦ ?_
      refine follows_lift_bind (follows_lift_perform (fun hdefault ↦ ?_) fun written _ ↦ ?_)
      · obtain ⟨conn, time, hfound, htime⟩ := hcleared hdefault
        exact ⟨conn, time, hkeptToo _ (hkept _ hfound), hkeptToo _ (hkept _ htime)⟩
      · cases written with
        | error message => exact failsLast_concat message _ _
        | ok conn => exact follows_dropLogins id input conn _

theorem ConnectionTask.follows (task : ConnectionTask) :
    task.program.Follows connectionProtocol (FailsLast Finds) [] := by
  cases task with
  | create environmentId input => exact follows_createRegistryConnection environmentId input
  | update id input => exact follows_updateRegistryConnection id input
  | delete id => exact ⟨trivial, fun answer _ ↦ failsLast_answer [] answer⟩

section

variable {ι : Type*} [DecidableEq ι] {store : RequestStore} {tasks : ι → ConnectionTask}
  {log : Trail ι RequestAnswer}

def ConnectionRuns (store : RequestStore) (tasks : ι → ConnectionTask)
    (log : Trail ι RequestAnswer) : Prop :=
  Concurrent (fun thread ↦ (tasks thread).program) requestSemantics store log

def requestsAfter (store : RequestStore) (log : Trail ι RequestAnswer) :
    RequestStore :=
  requestSemantics.final store (log.map Prod.snd)

variable (before : Trail ι RequestAnswer)

omit [DecidableEq ι] in
theorem requestsAfter_concat (entry : ι × Event RequestAnswer) :
    requestsAfter store (before ++ [entry]) =
      requestSemantics.after (requestsAfter store before) entry.2 := by
  unfold requestsAfter
  rw [map_append, requestSemantics.final_append]
  rfl

theorem ConnectionRuns.recorded (h : ConnectionRuns store tasks log) (hrecorded : store.Recorded) :
    (requestsAfter store log).Recorded ∧ ∀ thread id conn,
      (thread, ⟨.shared (.findConnection id), .ok (some conn)⟩) ∈ log →
        (requestsAfter store log).issued id = some conn.environmentId := by
  have heverywhere : EveryStep (fun _ _ ↦ True) log := fun _ _ _ _ ↦ trivial
  refine Concurrent.induction (fun log ↦ (requestsAfter store log).Recorded ∧ ∀ thread id conn,
    (thread, ⟨.shared (.findConnection id), .ok (some conn)⟩) ∈ log →
      (requestsAfter store log).issued id = some conn.environmentId)
    ⟨hrecorded, fun _ _ _ hmem ↦ absurd hmem not_mem_nil⟩ ?_ h heverywhere
  intro before entry hrun _ ⟨hbefore, hread⟩
  have hallows : requestSemantics.allows (requestsAfter store before) entry.2 := hrun.allows_last
  rw [requestsAfter_concat]
  refine ⟨hbefore.step hallows, fun thread id conn hmem ↦ issued_after hallows ?_⟩
  rcases mem_append.mp hmem with hbeforeMem | hlast
  · exact hread thread id conn hbeforeMem
  · obtain rfl := mem_singleton.mp hlast
    exact hbefore id conn (Eq.symm hallows)

theorem ConnectionRuns.clearsFirst (h : ConnectionRuns store tasks log)
    (hrecorded : store.Recorded) : EveryStep (ClearsFirst flagStep) log := by
  refine Concurrent.everyStep h fun before entry hrun scope key hraise ↦ ?_
  have hallows : requestSemantics.allows (requestsAfter store before) entry.2 := hrun.allows_last
  have hpermits := hrun.permits_projection fun thread ↦ (tasks thread).follows
  obtain ⟨thread, request, answer⟩ := entry
  cases answer with
  | error message =>
    cases request with
    | shared request => cases request <;> nomatch hraise
    | _ => nomatch hraise
  | ok value =>
    cases request with
    | shared request =>
      cases request with
      | updateConnection id data =>
        change (if data.isDefault = some true then _ else _) = _ at hraise
        split_ifs at hraise with hdefault
        obtain ⟨rfl, rfl⟩ := FlagStep.raise.inj hraise
        obtain ⟨conn, time, hfound, hcleared⟩ := hpermits hdefault
        -- the environment that has been read is still that of the connection
        obtain ⟨hrecordedNow, hread⟩ := ConnectionRuns.recorded (Concurrent.of_append hrun) hrecorded
        have hissued := hread thread _ conn (mem_projection_iff.mp hfound)
        obtain ⟨⟨row, hrow, hvalue⟩, -⟩ := hallows
        have henvironment : row.environmentId = conn.environmentId :=
          some.inj ((hrecordedNow _ row hrow).symm.trans hissued)
        have hsame : value.environmentId = conn.environmentId :=
          (congrArg RegistryConnection.environmentId hvalue).trans henvironment
        refine ⟨_, hcleared, some _, ?_, fun other hother ↦ (some.inj hother).symm⟩
        rw [hsame]
        rfl
      | _ => nomatch hraise
    | createConnection data =>
      change (if data.isDefault = true then _ else _) = _ at hraise
      split_ifs at hraise with hdefault
      obtain ⟨rfl, rfl⟩ := FlagStep.raise.inj hraise
      obtain ⟨time, hcleared⟩ := hpermits hdefault
      exact ⟨_, hcleared, none, rfl, nofun⟩
    | _ => nomatch hraise

omit [DecidableEq ι] in
/-- A call that has thrown has changed no default flag. -/
theorem isDefault_of_threw {entry : ι × Event RequestAnswer} (h : entry.2.threw = true) :
    (requestsAfter store (before ++ [entry])).isDefault = (requestsAfter store before).isDefault := by
  rw [requestsAfter_concat]
  obtain ⟨thread, request, answer⟩ := entry
  cases answer with
  | ok value => exact absurd h Bool.false_ne_true
  | error message =>
    cases request with
    | shared request => cases request <;> rfl
    | _ => rfl

/-- An environment has one default connection when no request is in flight, and a failed request has
changed no default flag. -/
theorem ConnectionRuns.flagsKept (h : ConnectionRuns store tasks log) (hrecorded : store.Recorded)
    (honce : OneRaised store.defaults)
    (horderly : EveryStep (FlagOrderly flagStep fun log ↦ (requestsAfter store log).isDefault) log) :
    FlagsKept (fun thread ↦ (tasks thread).program) (fun log ↦ (requestsAfter store log).defaults)
      (fun log ↦ (requestsAfter store log).isDefault) log := by
  refine Foundation.flagsKept (Concurrent.everyStep h fun before entry hrun ↦ ?_) honce
    (h.clearsFirst hrecorded) (fun before _ ↦ isDefault_of_threw before) ?_
    (fun thread result ↦ post_projection fun thread ↦ (tasks thread).follows) horderly
  · have hbefore := (ConnectionRuns.recorded (Concurrent.of_append hrun) hrecorded).1
    rw [requestsAfter_concat]
    exact allows_flagStep hbefore hrun.allows_last
  · rintro before ⟨thread, event⟩ ⟨id, answer, rfl⟩
    rw [requestsAfter_concat]
    cases answer <;> rfl

end

end Bridgeport.Registries
