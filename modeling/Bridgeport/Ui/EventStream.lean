import Bridgeport.Foundation.Machine

/-!
# The event stream of a session

`useEventSource` keeps one `EventSource` for all its listeners, in the variables of its module. An
effect registers a listener and connects with the token and the environment of that time, and no
effect runs when these change. The handler of an error closes the current source, whichever source
has failed, and leaves a timer that connects again.

The variables agree with the open source in every run (`StreamInvariant`). A missing token is an
empty one, and the number of reconnects, which only sets delays, is left out.
-/

namespace Bridgeport.Ui

open Foundation List

/-- A source with the parameters of its URL. -/
structure EventSource where
  id : ℕ
  token : String
  environmentId : Option String
  deriving DecidableEq

/-- The stores, the sources that are open, and the variables of the module. -/
structure Session where
  token : String
  environmentId : Option String
  openSources : List EventSource
  made : ℕ
  globalSource : Option EventSource
  globalListeners : List (String × ℕ)
  /-- `reconnectTimer` is to fire. -/
  reconnectTimer : Bool
  currentToken : String
  currentEnvironmentId : Option String

namespace Session

def initial (token : String) (environmentId : Option String) : Session :=
  ⟨token, environmentId, [], 0, none, [], false, "", none⟩

variable (session : Session)

/-- `globalSource?.close(); globalSource = null`. -/
def closeSource : Session :=
  { session with
    openSources := session.openSources.filter (session.globalSource ≠ some ·)
    globalSource := none }

def connectSSE (token : String) (environmentId : Option String) : Session :=
  let isOpen := ∃ source ∈ session.globalSource, source ∈ session.openSources
  if isOpen ∧ session.currentToken = token ∧ session.currentEnvironmentId = environmentId then
    session
  else
    let closed := if isOpen then session.closeSource else session
    let source := ⟨session.made, token, environmentId⟩
    { closed with
      openSources := closed.openSources ++ [source]
      made := session.made + 1
      globalSource := some source
      currentToken := token
      currentEnvironmentId := environmentId }

def disconnectSSE : Session :=
  { session.closeSource with
    reconnectTimer := false
    currentToken := ""
    currentEnvironmentId := none }

end Session

inductive SessionEvent
  | setToken (token : String)
  | selectEnvironment (environmentId : Option String)
  | subscribe (eventType : String) (handler : ℕ)
  | unsubscribe (eventType : String) (handler : ℕ)
  | error
  | reconnect

def Session.next (session : Session) : SessionEvent → Option Session
  | .setToken token => some { session with token := token }
  | .selectEnvironment environmentId => some { session with environmentId := environmentId }
  | .subscribe eventType handler =>
    if (eventType, handler) ∈ session.globalListeners then none
    else if session.token = "" then some session
    else some ({ session with
      globalListeners := session.globalListeners ++ [(eventType, handler)] }.connectSSE
        session.token session.environmentId)
  | .unsubscribe eventType handler =>
    if (eventType, handler) ∈ session.globalListeners then
      let left := session.globalListeners.erase (eventType, handler)
      let session := { session with globalListeners := left }
      some (if left = [] then session.disconnectSSE else session)
    else none
  | .error =>
    if session.made = 0 then none else some { session.closeSource with reconnectTimer := true }
  | .reconnect =>
    if session.reconnectTimer then
      let session := { session with reconnectTimer := false }
      some (if session.currentToken = "" then session
        else session.connectSSE session.currentToken session.currentEnvironmentId)
    else none

def sessionMachine : Machine Session SessionEvent :=
  ⟨Session.next⟩

/-- The open source, or the one that the timer is to open, has the parameters of the stores. -/
structure FollowsSession (session : Session) : Prop where
  single : session.openSources.length ≤ 1
  carries : session.globalListeners ≠ [] →
    (∃ source ∈ session.openSources, source.token = session.token ∧
      source.environmentId = session.environmentId) ∨
    (session.openSources = [] ∧ session.reconnectTimer ∧ session.token ≠ "" ∧
      session.currentToken = session.token ∧ session.currentEnvironmentId = session.environmentId)
  released : session.globalListeners = [] → session.openSources = [] ∧
    ∀ after, session.next .reconnect = some after → after.openSources = []

/-- The token and the environment only change while there is no listener. -/
def Steady (session : Session) : SessionEvent → Prop
  | .setToken token => session.globalListeners = [] ∨ token = session.token
  | .selectEnvironment environmentId =>
    session.globalListeners = [] ∨ environmentId = session.environmentId
  | _ => True

/-- The open source is the global one, and the variables are those of the stores while there is a
listener. -/
structure StreamInvariant (session : Session) : Prop where
  openSources : session.openSources = session.globalSource.toList
  parameters : ∀ source ∈ session.globalSource, source.token = session.currentToken ∧
    source.environmentId = session.currentEnvironmentId
  released : session.globalListeners = [] → session.globalSource = none ∧ session.currentToken = ""
  listening : session.globalListeners ≠ [] → session.currentToken ≠ "" ∧
    session.currentToken = session.token ∧
    session.currentEnvironmentId = session.environmentId ∧
    (session.globalSource = none → session.reconnectTimer)

section

variable {session : Session} (h : session.openSources = session.globalSource.toList)

include h

theorem openSources_closeSource : session.closeSource.openSources = [] := by
  cases hsource : session.globalSource <;> simp [Session.closeSource, h, hsource]

/-- A connection ends with the parameters that it is given, in the stores of before. -/
theorem connectSSE_cases (token : String) (environmentId : Option String) :
    (session.connectSSE token environmentId = session ∧ session.globalSource ≠ none ∧
      session.currentToken = token ∧ session.currentEnvironmentId = environmentId) ∨
    session.connectSSE token environmentId = { session with
      openSources := [⟨session.made, token, environmentId⟩]
      made := session.made + 1
      globalSource := some ⟨session.made, token, environmentId⟩
      currentToken := token
      currentEnvironmentId := environmentId } := by
  have hclosed := openSources_closeSource h
  cases hsource : session.globalSource with
  | none =>
    right
    simp [Session.connectSSE, h, hsource]
  | some source =>
    have hopen : source ∈ session.openSources := by simp [h, hsource]
    by_cases hsame : session.currentToken = token ∧ session.currentEnvironmentId = environmentId
    · exact .inl ⟨by simp [Session.connectSSE, hsource, hopen, hsame], nofun, hsame⟩
    · right
      simp only [Session.connectSSE, hsource, Option.mem_some_iff, exists_eq_left', hopen, true_and,
        hsame, if_true, if_false, hclosed, nil_append]
      rfl

end

namespace StreamInvariant

variable {session after : Session}

theorem initial (token : String) (environmentId : Option String) :
    StreamInvariant (.initial token environmentId) :=
  ⟨rfl, nofun, fun _ ↦ ⟨rfl, rfl⟩, fun hne ↦ absurd rfl hne⟩

/-- A connection with the parameters of the stores, for a listener. -/
theorem connectSSE (h : session.openSources = session.globalSource.toList)
    (hparameters : ∀ source ∈ session.globalSource, source.token = session.currentToken ∧
      source.environmentId = session.currentEnvironmentId)
    (hlisteners : session.globalListeners ≠ []) {token : String} {environmentId : Option String}
    (hne : token ≠ "") (htoken : token = session.token)
    (henvironment : environmentId = session.environmentId) :
    StreamInvariant (session.connectSSE token environmentId) := by
  rcases connectSSE_cases h token environmentId with ⟨hsame, hopen, rfl, rfl⟩ | hnew
  · rw [hsame]
    exact ⟨h, hparameters, fun hnil ↦ absurd hnil hlisteners,
      fun _ ↦ ⟨hne, htoken, henvironment, fun hnone ↦ absurd hnone hopen⟩⟩
  · rw [hnew]
    exact ⟨rfl, by simp, fun hnil ↦ absurd hnil hlisteners,
      fun _ ↦ ⟨hne, htoken, henvironment, nofun⟩⟩

theorem next (h : StreamInvariant session) {event : SessionEvent} (hsteady : Steady session event)
    (hnext : session.next event = some after) : StreamInvariant after := by
  cases event with
  | setToken token =>
    cases hnext
    refine ⟨h.openSources, h.parameters, h.released, fun hlisteners ↦ ?_⟩
    obtain ⟨hne, htoken, hrest⟩ := h.listening hlisteners
    exact ⟨hne, htoken.trans (hsteady.resolve_left hlisteners).symm, hrest⟩
  | selectEnvironment environmentId =>
    cases hnext
    refine ⟨h.openSources, h.parameters, h.released, fun hlisteners ↦ ?_⟩
    obtain ⟨hne, htoken, henvironment, htimer⟩ := h.listening hlisteners
    exact ⟨hne, htoken, henvironment.trans (hsteady.resolve_left hlisteners).symm, htimer⟩
  | subscribe eventType handler =>
    simp only [Session.next] at hnext
    split_ifs at hnext with hmem htoken
    · cases hnext
      exact h
    · cases hnext
      refine connectSSE ?_ ?_ (append_ne_nil_of_right_ne_nil _ (cons_ne_nil _ _)) htoken rfl rfl
      exacts [h.openSources, h.parameters]
  | unsubscribe eventType handler =>
    simp only [Session.next] at hnext
    split_ifs at hnext with hmem hleft
    · cases hnext
      exact ⟨openSources_closeSource h.openSources, nofun, fun _ ↦ ⟨rfl, rfl⟩,
        fun hne ↦ absurd hleft hne⟩
    · cases hnext
      exact ⟨h.openSources, h.parameters, fun hnil ↦ absurd hnil hleft,
        fun _ ↦ h.listening (ne_nil_of_mem hmem)⟩
  | error =>
    simp only [Session.next] at hnext
    split_ifs at hnext
    cases hnext
    refine ⟨openSources_closeSource h.openSources, nofun, fun hnil ↦ ⟨rfl, (h.released hnil).2⟩,
      fun hlisteners ↦ ?_⟩
    obtain ⟨hne, htoken, henvironment, -⟩ := h.listening hlisteners
    exact ⟨hne, htoken, henvironment, fun _ ↦ rfl⟩
  | reconnect =>
    simp only [Session.next] at hnext
    split_ifs at hnext with htimer htoken
    · cases hnext
      exact ⟨h.openSources, h.parameters, h.released,
        fun hlisteners ↦ absurd htoken (h.listening hlisteners).1⟩
    · cases hnext
      have hlisteners : session.globalListeners ≠ [] := fun hnil ↦ htoken (h.released hnil).2
      obtain ⟨-, hsame, henvironment, -⟩ := h.listening hlisteners
      refine connectSSE ?_ ?_ ?_ htoken ?_ ?_
      exacts [h.openSources, h.parameters, hlisteners, hsame, henvironment]

theorem followsSession (h : StreamInvariant session) : FollowsSession session where
  single := by
    rw [h.openSources]
    cases session.globalSource <;> simp
  carries hlisteners := by
    obtain ⟨hne, htoken, henvironment, htimer⟩ := h.listening hlisteners
    cases hsource : session.globalSource with
    | none =>
      have hnone : session.openSources = [] := by simp [h.openSources, hsource]
      exact .inr ⟨hnone, htimer hsource, htoken ▸ hne, htoken, henvironment⟩
    | some source =>
      obtain ⟨hsame, halso⟩ := h.parameters source hsource
      have hopen : source ∈ session.openSources := by simp [h.openSources, hsource]
      exact .inl ⟨source, hopen, hsame.trans htoken, halso.trans henvironment⟩
  released hnil := by
    obtain ⟨hsource, htoken⟩ := h.released hnil
    have hopen : session.openSources = [] := by simp [h.openSources, hsource]
    refine ⟨hopen, fun after hafter ↦ ?_⟩
    simp only [Session.next, htoken, if_true] at hafter
    split_ifs at hafter
    cases hafter
    exact hopen

end StreamInvariant

/-- The stream follows the session in every run in which the token and the environment do not
change while there is a listener. -/
theorem followsSession_run {token : String} {environmentId : Option String}
    {events : List SessionEvent} {session : Session}
    (hrun : sessionMachine.run (.initial token environmentId) events = some session)
    (hsteady : sessionMachine.Meets Steady (.initial token environmentId) events) :
    FollowsSession session := by
  have h := Machine.induction_of_meets (motive := fun _ session ↦ StreamInvariant session)
    (.initial token environmentId) (fun _ _ _ _ _ h hlabel hnext ↦ h.next hlabel hnext) hrun hsteady
  exact h.followsSession

/-- A listener comes, its source fails, and the timer connects again. -/
theorem followsSession_reconnected :
    FollowsSession { Session.initial "token" (some "first") with
      openSources := [⟨1, "token", some "first"⟩]
      made := 2
      globalSource := some ⟨1, "token", some "first"⟩
      globalListeners := [("notification", 0)]
      currentToken := "token"
      currentEnvironmentId := some "first" } :=
  @followsSession_run "token" (some "first") [.subscribe "notification" 0, .error, .reconnect] _ rfl
    (by simp [Machine.Meets, Steady])

/-- Another environment is selected while a listener is there. -/
theorem not_followsSession_selected :
    ¬ ∀ (token : String) (environmentId : Option String) (events : List SessionEvent)
      (session : Session), sessionMachine.run (.initial token environmentId) events = some session →
        FollowsSession session := by
  intro h
  have hfollows := h "token" (some "first")
    [.subscribe "notification" 0, .selectEnvironment (some "second")] _ rfl
  rcases hfollows.carries (cons_ne_nil _ _) with ⟨source, hsource, -, henvironment⟩ | ⟨hnone, -⟩
  · cases mem_singleton.mp hsource
    exact absurd henvironment (by decide)
  · exact absurd hnone (cons_ne_nil _ _)

end Bridgeport.Ui
