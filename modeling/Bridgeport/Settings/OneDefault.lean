import Bridgeport.Notifications.SlackChannels
import Bridgeport.Registries.DefaultConnection

/-!
# One default

A registry connection is the default of its environment, and a Slack channel is the default of all.
Either flag is taken from the other rows before it is given to one. Requests of both kinds keep one
default, and change none when they fail, in the runs that keep to `FlagOrderly`: no other row gets
the flag between the two writes of a request, and no call of a request throws when the request has
changed a flag.
-/

namespace Bridgeport.Settings

open Foundation Program List
open Registries Notifications

section

variable {ι : Type*} [DecidableEq ι]

/-- What the requests on registry connections keep. -/
abbrev ConnectionsKept (store : RequestStore) (tasks : ι → ConnectionTask)
    (log : Trail ι RequestAnswer) : Prop :=
  FlagsKept (fun thread ↦ (tasks thread).program) (fun log ↦ (requestsAfter store log).defaults)
    (fun log ↦ (requestsAfter store log).isDefault) log

/-- What the requests on Slack channels keep. -/
abbrev ChannelsKept (channels : Table SlackChannel) (tasks : ι → ChannelTask)
    (log : Trail ι ChannelAnswer) : Prop :=
  FlagsKept (fun thread ↦ (tasks thread).program)
    (fun log ↦ defaultChannels (channelsAfter channels log))
    (fun log ↦ channelDefault (channelsAfter channels log)) log

/-- One default when no request is in flight, and none changed by a request that fails. The parts on
connections (`ConnectionRuns.flagsKept`) and on channels (`ChannelRuns.flagsKept`) do not depend on
each other. -/
theorem oneDefaultKept {store : RequestStore} {connectionTasks : ι → ConnectionTask}
    {connectionLog : Trail ι RequestAnswer} {channels : Table SlackChannel}
    {channelTasks : ι → ChannelTask} {channelLog : Trail ι ChannelAnswer}
    (hconnections : ConnectionRuns store connectionTasks connectionLog)
    (hrecorded : store.Recorded) (honeConnection : OneRaised store.defaults)
    (horderlyConnections : EveryStep
      (FlagOrderly flagStep fun log ↦ (requestsAfter store log).isDefault) connectionLog)
    (hchannels : ChannelRuns channels channelTasks channelLog)
    (honeChannel : OneRaised (defaultChannels channels))
    (horderlyChannels : EveryStep
      (FlagOrderly channelStep fun log ↦ channelDefault (channelsAfter channels log)) channelLog) :
    ConnectionsKept store connectionTasks connectionLog ∧
      ChannelsKept channels channelTasks channelLog :=
  ⟨hconnections.flagsKept hrecorded honeConnection horderlyConnections,
    hchannels.flagsKept honeChannel horderlyChannels⟩

end

/-! ### Runs from empty tables -/

def noConnections : RequestStore where
  registry := { connections := .empty, logins := fun _ ↦ none, lastLogin := fun _ ↦ none }
  issued := fun _ ↦ none

def defaultInput (name : String) : NewConnectionInput where
  name := name
  type := "generic"
  registryUrl := "registry.local".toList
  repositoryPrefix := none
  token := none
  username := none
  password := none
  isDefault := some true
  refreshIntervalMinutes := none
  autoLinkPattern := none

def defaultConnection (environmentId name : String) : NewConnection where
  name := name
  type := "generic"
  registryUrl := "registry.local".toList
  repositoryPrefix := none
  encryptedToken := none
  username := none
  encryptedPassword := none
  isDefault := true
  refreshIntervalMinutes := 30
  autoLinkPattern := none
  environmentId := environmentId

def created (environmentId name id : String) : Event RequestAnswer :=
  ⟨.createConnection (defaultConnection environmentId name),
    .ok ((defaultConnection environmentId name).row id 0)⟩

def twoCreations (environmentIds names : Bool → String) (thread : Bool) : ConnectionTask :=
  .create (environmentIds thread) (defaultInput (names thread))

/-- Both take the flag from the others before either writes its row. -/
def overlapping (environmentIds names : Bool → String) :
    Trail Bool RequestAnswer :=
  [(false, ⟨.unsetAllDefaults (environmentIds false), .ok 0⟩),
    (true, ⟨.unsetAllDefaults (environmentIds true), .ok 0⟩),
    (false, created (environmentIds false) (names false) "1"),
    (true, created (environmentIds true) (names true) "2")]

def duplicated : Trail Bool RequestAnswer :=
  [(false, ⟨.unsetAllDefaults "production", .ok 0⟩), (false, created "production" "main" "1"),
    (true, ⟨.unsetAllDefaults "production", .ok 0⟩),
    (true, ⟨.createConnection (defaultConnection "production" "main"),
      .error "Unique constraint failed on the fields: (environmentId,name)"⟩)]

def sealedUrl : Encrypted :=
  ⟨"ciphertext", "nonce"⟩

def alerts : NewChannel where
  name := "Alerts"
  slackChannelName := none
  webhookUrl := sealedUrl
  isDefault := true
  enabled := true

variable (isDefault : Option Bool)

def channelUpdate : SlackChannelUpdate :=
  ⟨none, none, none, isDefault, none⟩

def creationAndUpdate : Bool → ChannelTask
  | false => .create ⟨"Alerts", none, "https://hooks.slack.com/services/T/B/X", some true, none⟩
  | true => .update "deleted" (channelUpdate isDefault)

def channelCreated : Trail Bool ChannelAnswer :=
  [(false, ⟨.unsetDefaults none, .ok 0⟩),
    (false, ⟨.encrypt "https://hooks.slack.com/services/T/B/X", .ok sealedUrl⟩),
    (false, ⟨.createChannel alerts, .ok (alerts.row "1" 0)⟩)]

def updateFailed : Event ChannelAnswer :=
  ⟨.updateChannel "deleted" ⟨none, none, isDefault, none, none⟩, .error "Record to update not found"⟩

theorem oneRaised_empty {Scope Key : Type} {flags : Set (Scope × Key)} (h : flags = ∅) :
    OneRaised flags := by
  rintro scope first second hfirst -
  exact absurd (h ▸ hfirst) (Set.notMem_empty _)

theorem noConnections_defaults : noConnections.defaults = ∅ := by
  ext key
  exact iff_of_false (fun ⟨_, h, _⟩ ↦ nomatch h) (Set.notMem_empty _)

theorem defaultChannels_empty : defaultChannels .empty = ∅ := by
  ext key
  exact iff_of_false nofun (Set.notMem_empty _)

/-- The runs of `twoCreations` in which both end. -/
theorem traces_overlapping (environmentIds names : Bool → String) (thread : Bool) :
    Traces (twoCreations environmentIds names thread).program
      (projection thread (overlapping environmentIds names))
      (some (.ok ((defaultConnection (environmentIds thread) (names thread)).row
        (if thread then "2" else "1") 0))) := by
  cases thread with
  | false | true => exact .call _ (.call _ (.done _))

theorem connectionRuns_overlapping {environmentIds names : Bool → String}
    (h : environmentIds false = environmentIds true → names false ≠ names true) :
    ConnectionRuns noConnections (twoCreations environmentIds names)
      (overlapping environmentIds names) := by
  refine ⟨fun thread ↦ (traces_overlapping environmentIds names thread).unsettled, trivial, trivial,
    ⟨rfl, rfl, nofun⟩, ⟨rfl, rfl, ?_⟩, trivial⟩
  intro other hother henvironment hname
  obtain rfl := mem_singleton.mp hother
  exact absurd hname (h henvironment)

/-- In different environments. -/
theorem oneDefaultKept_overlapping :
    ConnectionsKept noConnections (twoCreations (cond · "staging" "production") fun _ ↦ "main")
        (overlapping (cond · "staging" "production") fun _ ↦ "main") ∧
      ChannelsKept .empty (creationAndUpdate none) ((true, updateFailed none) :: channelCreated) := by
  refine oneDefaultKept (connectionRuns_overlapping fun hsame ↦ absurd hsame (by decide))
    nofun (oneRaised_empty noConnections_defaults) (everyStep_of_stepsAfter ?_)
    ⟨fun thread ↦ ?_, ?_⟩ (oneRaised_empty defaultChannels_empty) (everyStep_of_stepsAfter ?_)
  · refine ⟨⟨unraced_of_forall nofun, nofun⟩, ⟨unraced_of_forall nofun, nofun⟩,
      ⟨unraced_of_forall fun scope key _ ↦ ?_, nofun⟩,
      ⟨unraced_of_forall fun scope key hraise ↦ ?_, nofun⟩, trivial⟩
    · exact forall_mem_cons.mpr ⟨nofun, forall_mem_singleton.mpr nofun⟩
    · obtain ⟨rfl, -⟩ := FlagStep.raise.inj hraise
      refine forall_mem_cons.mpr ⟨nofun, forall_mem_cons.mpr ⟨nofun,
        forall_mem_singleton.mpr fun raised hraised ↦ ?_⟩⟩
      exact absurd (FlagStep.raise.inj hraised).1 (by decide)
  · cases thread with
    | false => exact .call _ (.call _ (.call _ (.start _)))
    | true => exact .call _ (.start _)
  · exact ⟨trivial, trivial, trivial, ⟨rfl, nofun⟩, trivial⟩
  · refine ⟨⟨unraced_of_forall nofun, fun _ ↦ keptBy_of_forall_ne (forall_mem_nil _)⟩,
      ⟨unraced_of_forall nofun, nofun⟩, ⟨unraced_of_forall nofun, nofun⟩,
      ⟨unraced_of_forall fun scope key _ ↦ ?_, nofun⟩, trivial⟩
    exact forall_mem_cons.mpr ⟨nofun, forall_mem_cons.mpr ⟨nofun, forall_mem_singleton.mpr nofun⟩⟩

theorem not_connectionsKept_overlapping :
    ¬ ConnectionsKept noConnections (twoCreations (fun _ ↦ "production") (cond · "spare" "main"))
      (overlapping (fun _ ↦ "production") (cond · "spare" "main")) := by
  intro h
  have hraised := h.unique fun thread ↦ Or.inr ⟨_, traces_overlapping _ _ thread⟩
  have hsame := hraised "production" "1" "2" ⟨_, rfl, rfl, rfl⟩ ⟨_, rfl, rfl, rfl⟩
  exact absurd hsame (by decide)

/-- A creation that fails on its name has taken the flag from the default. -/
theorem not_connectionsKept_duplicated :
    ¬ ConnectionsKept noConnections (twoCreations (fun _ ↦ "production") fun _ ↦ "main")
      duplicated := by
  intro h
  have hflags := h.kept true _ (.call _ (.call _ (.done _))) [_, _] _ [_] rfl
  exact absurd (congrFun hflags "1") (by decide)

/-- An update of a channel that is not there has taken the flag from the default. -/
theorem not_channelsKept_updateFailed :
    ¬ ChannelsKept .empty (creationAndUpdate (some true)) (channelCreated ++
      [(true, ⟨.unsetDefaults (some "deleted"), .ok 0⟩), (true, updateFailed (some true))]) := by
  intro h
  have hflags := h.kept true _ (.call _ (.call _ (.done _))) channelCreated _ [_] rfl
  exact absurd (congrFun hflags "1") (by decide)

/-- The runs that leave two defaults, or none. -/
theorem not_oneDefaultKept :
    (ConnectionRuns noConnections (twoCreations (fun _ ↦ "production") (cond · "spare" "main"))
        (overlapping (fun _ ↦ "production") (cond · "spare" "main")) ∧
      ¬ ConnectionsKept noConnections (twoCreations (fun _ ↦ "production") (cond · "spare" "main"))
        (overlapping (fun _ ↦ "production") (cond · "spare" "main"))) ∧
    (ConnectionRuns noConnections (twoCreations (fun _ ↦ "production") fun _ ↦ "main") duplicated ∧
      ¬ ConnectionsKept noConnections (twoCreations (fun _ ↦ "production") fun _ ↦ "main")
        duplicated) ∧
    ChannelRuns .empty (creationAndUpdate (some true)) (channelCreated ++
        [(true, ⟨.unsetDefaults (some "deleted"), .ok 0⟩), (true, updateFailed (some true))]) ∧
      ¬ ChannelsKept .empty (creationAndUpdate (some true)) (channelCreated ++
        [(true, ⟨.unsetDefaults (some "deleted"), .ok 0⟩), (true, updateFailed (some true))]) := by
  refine ⟨⟨connectionRuns_overlapping fun _ ↦ by decide, not_connectionsKept_overlapping⟩,
    ⟨⟨fun thread ↦ ?_, trivial, ⟨rfl, rfl, nofun⟩, trivial, trivial, trivial⟩,
      not_connectionsKept_duplicated⟩,
    ⟨fun thread ↦ ?_, trivial, trivial, ⟨rfl, nofun⟩, trivial, trivial, trivial⟩,
    not_channelsKept_updateFailed⟩
  · cases thread with
    | false | true => exact .call _ (.call _ (.start _))
  · cases thread with
    | false => exact .call _ (.call _ (.call _ (.start _)))
    | true => exact .call _ (.call _ (.start _))

end Bridgeport.Settings
