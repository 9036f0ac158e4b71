import Bridgeport.Foundation.RaisedFlags
import Bridgeport.Registries.RegistryLogin

/-!
# Slack channels

`createSlackChannel`, `updateSlackChannel` and `deleteSlackChannel` of
`services/slack-notifications.ts`. The default channel is one for all environments. A request that
makes a channel the default first takes the flag from the others, by one statement, and sets it by a
later one; an update does not look whether its channel is there.

A call on the database can fail without effect. An update fails on a channel that has been deleted.
-/

namespace Bridgeport.Notifications

open Foundation Program List Option
open Registries (Encrypted)

/-! ### Channels -/

structure SlackChannel where
  (id name : String)
  slackChannelName : Option String
  webhookUrl : String
  webhookUrlNonce : Option String
  (isDefault enabled : Bool)
  lastTestedAt : Option ℕ
  (createdAt updatedAt : ℕ)

instance : Keyed SlackChannel :=
  ⟨SlackChannel.id⟩

structure SlackChannelOutput where
  (id name : String)
  slackChannelName : Option String
  (hasWebhookUrl isDefault enabled : Bool)
  lastTestedAt : Option ℕ
  (createdAt updatedAt : ℕ)

def toChannelOutput (channel : SlackChannel) : SlackChannelOutput :=
  { channel with hasWebhookUrl := channel.webhookUrl ≠ "" }

structure SlackChannelInput where
  name : String
  slackChannelName : Option String
  webhookUrl : String
  (isDefault enabled : Option Bool)

/-- `Partial<SlackChannelInput>`. -/
structure SlackChannelUpdate where
  (name slackChannelName webhookUrl : Option String)
  (isDefault enabled : Option Bool)

structure NewChannel where
  name : String
  slackChannelName : Option String
  webhookUrl : Encrypted
  (isDefault enabled : Bool)

def NewChannel.row (data : NewChannel) (id : String) (createdAt : ℕ) : SlackChannel :=
  { data with
    id
    webhookUrl := data.webhookUrl.ciphertext
    webhookUrlNonce := some data.webhookUrl.nonce
    lastTestedAt := none
    createdAt
    updatedAt := createdAt }

structure ChannelData where
  (name slackChannelName : Option String)
  (isDefault enabled : Option Bool)
  webhookUrl : Option Encrypted

def ChannelData.apply (data : ChannelData) (updatedAt : ℕ) (row : SlackChannel) : SlackChannel :=
  { row with
    name := data.name.getD row.name
    slackChannelName := data.slackChannelName.or row.slackChannelName
    webhookUrl := (data.webhookUrl.map (·.ciphertext)).getD row.webhookUrl
    webhookUrlNonce := (data.webhookUrl.map (·.nonce)).or row.webhookUrlNonce
    isDefault := data.isDefault.getD row.isDefault
    enabled := data.enabled.getD row.enabled
    updatedAt := updatedAt }

theorem ChannelData.id_apply (data : ChannelData) (updatedAt : ℕ) (row : SlackChannel) :
    Keyed.id (data.apply updatedAt row) = Keyed.id row :=
  rfl

/-- The row after the flag has been taken from all channels but one. -/
def SlackChannel.unsetDefault (spared : Option String) (updatedAt : ℕ) (row : SlackChannel) :
    SlackChannel :=
  if row.isDefault ∧ spared ≠ some row.id then { row with isDefault := false, updatedAt } else row

theorem SlackChannel.id_unsetDefault (spared : Option String) (updatedAt : ℕ) (row : SlackChannel) :
    Keyed.id (row.unsetDefault spared updatedAt) = Keyed.id row := by
  unfold unsetDefault
  split_ifs <;> rfl

/-- The calls of the requests. `unsetDefaults` is answered with the time that it writes. -/
inductive ChannelCall
  | unsetDefaults (spared : Option String)
  | encrypt (value : String)
  | createChannel (data : NewChannel)
  | updateChannel (id : String) (data : ChannelData)
  | deleteChannel (id : String)

@[reducible]
def ChannelAnswer : ChannelCall → Type
  | .unsetDefaults _ => ℕ
  | .encrypt _ => Encrypted
  | .createChannel _ => SlackChannel
  | .updateChannel _ _ => SlackChannel
  | .deleteChannel _ => Unit

/-- Asynchronous code over these calls. -/
abbrev ChannelAsync := Program ChannelAnswer

def createSlackChannel (input : SlackChannelInput) : ChannelAsync SlackChannelOutput := do
  Program.when (input.isDefault = some true) do
    let _ ← perform (.unsetDefaults none)
    pure ()
  let webhookUrl ← perform (.encrypt input.webhookUrl)
  let channel ← perform (.createChannel
    { name := input.name
      slackChannelName := input.slackChannelName
      webhookUrl
      isDefault := input.isDefault.getD false
      enabled := input.enabled.getD true })
  pure (toChannelOutput channel)

def encryptWebhookUrl (value : Option String) : ChannelAsync (Option Encrypted) :=
  match value with
  | none => pure none
  | some value => do
    let webhookUrl ← perform (.encrypt value)
    pure (some webhookUrl)

def updateSlackChannel (id : String) (input : SlackChannelUpdate) :
    ChannelAsync SlackChannelOutput := do
  Program.when (input.isDefault = some true) do
    let _ ← perform (.unsetDefaults (some id))
    pure ()
  let webhookUrl ← encryptWebhookUrl input.webhookUrl
  let channel ← perform (.updateChannel id { input with webhookUrl })
  pure (toChannelOutput channel)

def deleteSlackChannel (id : String) : ChannelAsync Unit :=
  perform (ChannelCall.deleteChannel id)

def channelSemantics : Semantics ChannelAnswer (Table SlackChannel) where
  allows channels event :=
    match event with
    | ⟨.createChannel data, .ok channel⟩ =>
      channel = data.row channel.id channel.createdAt ∧ channels.Fresh channel.id
    | ⟨.updateChannel id data, .ok channel⟩ =>
      ∃ row, channels.find? id = some row ∧ channel = data.apply channel.updatedAt row
    | ⟨.deleteChannel id, .ok _⟩ => (channels.find? id).isSome = true
    | _ => True
  after channels event :=
    match event with
    | ⟨.unsetDefaults spared, .ok time⟩ =>
      channels.updateAll (SlackChannel.unsetDefault spared time)
        (SlackChannel.id_unsetDefault spared time)
    | ⟨.createChannel _, .ok channel⟩ => channels.insert channel
    | ⟨.updateChannel id data, .ok channel⟩ =>
      channels.update id (data.apply channel.updatedAt) (data.id_apply channel.updatedAt)
    | ⟨.deleteChannel id, .ok _⟩ => channels.erase id
    | _ => channels

inductive ChannelTask
  | create (input : SlackChannelInput)
  | update (id : String) (input : SlackChannelUpdate)
  | delete (id : String)

namespace ChannelTask

@[reducible]
def Outcome : ChannelTask → Type
  | .create _ | .update _ _ => SlackChannelOutput
  | .delete _ => Unit

def program : (task : ChannelTask) → ChannelAsync task.Outcome
  | .create input => createSlackChannel input
  | .update id input => updateSlackChannel id input
  | .delete id => deleteSlackChannel id

end ChannelTask

/-! ### Flags -/

variable (channels : Table SlackChannel)

def channelDefault (id : String) : Option Bool :=
  (channels.find? id).map (·.isDefault)

def defaultChannels : Set (Unit × String) :=
  {key | channelDefault channels key.2 = some true}

def channelStep : Event ChannelAnswer → FlagStep Unit String
  | ⟨.unsetDefaults spared, .ok _⟩ => .clear () spared
  | ⟨.createChannel data, .ok channel⟩ =>
    if data.isDefault = true then .raise () channel.id else .lower
  | ⟨.updateChannel id data, .ok _⟩ =>
    if data.isDefault = some true then .raise () id else .lower
  | _ => .lower

section

variable {channels : Table SlackChannel} {event : Event ChannelAnswer}

theorem SlackChannel.isDefault_of_unsetDefault {spared : Option String} {time : ℕ}
    {row : SlackChannel} (h : (row.unsetDefault spared time).isDefault = true) :
    row.isDefault = true ∧ spared = some row.id := by
  unfold unsetDefault at h
  split_ifs at h with hcleared
  exact ⟨h, not_not.mp fun hne ↦ hcleared ⟨h, hne⟩⟩

/-- A call does with the flags what its `channelStep` says. -/
theorem allows_channelStep (hallows : channelSemantics.allows channels event) :
    (channelStep event).Allows (defaultChannels channels)
      (defaultChannels (channelSemantics.after channels event)) := by
  refine FlagStep.allows_of_forall fun scope id hdefault ↦ ?_
  obtain ⟨channel, hchannel, hflag⟩ := map_eq_some_iff.mp hdefault
  have hkept : channels.find? id = some channel → (∀ spared, channelStep event ≠ .clear scope spared) →
      ((), id) ∈ defaultChannels channels ∧
        ∀ spared, channelStep event = .clear scope spared → spared = some id := fun hfound hstep ↦
    ⟨map_eq_some_iff.mpr ⟨channel, hfound, hflag⟩, fun spared h ↦ absurd h (hstep spared)⟩
  obtain ⟨request, answer⟩ := event
  cases answer with
  | error message => cases request <;> exact .inr (hkept hchannel nofun)
  | ok value =>
    cases request with
    | unsetDefaults spared =>
      have hfound : (channels.find? id).map (SlackChannel.unsetDefault spared value) = some channel :=
        (Table.find?_updateAll _ _ (SlackChannel.id_unsetDefault _ _) id).symm.trans hchannel
      obtain ⟨before, hbefore, rfl⟩ := map_eq_some_iff.mp hfound
      obtain ⟨hwas, rfl⟩ := SlackChannel.isDefault_of_unsetDefault hflag
      refine .inr ⟨map_eq_some_iff.mpr ⟨before, hbefore, hwas⟩, fun spared hclear ↦ ?_⟩
      rw [← (FlagStep.clear.inj hclear).2]
      exact congrArg some (Table.find?_eq_some_iff.mp hbefore).2
    | encrypt text => exact .inr (hkept hchannel nofun)
    | createChannel data =>
      have hfound : (if value.id = id then some value else channels.find? id) = some channel :=
        (Table.find?_insert hallows.2 id).symm.trans hchannel
      split_ifs at hfound with hid
      · obtain rfl := some.inj hfound
        have hraise : data.isDefault = true :=
          (congrArg SlackChannel.isDefault hallows.1).symm.trans hflag
        exact .inl ((if_pos hraise).trans (by rw [hid]))
      · refine .inr (hkept hfound fun spared hclear ↦ ?_)
        change (if data.isDefault = true then _ else _) = _ at hclear
        split_ifs at hclear
    | updateChannel updated data =>
      have hfound : (if updated = id then (channels.find? id).map (data.apply value.updatedAt)
          else channels.find? id) = some channel :=
        (Table.find?_update _ _ _ (data.id_apply value.updatedAt) id).symm.trans hchannel
      have hstep : ∀ spared, channelStep ⟨.updateChannel updated data, .ok value⟩ ≠
          .clear scope spared := by
        intro spared hclear
        change (if data.isDefault = some true then _ else _) = _ at hclear
        split_ifs at hclear
      split_ifs at hfound with hid
      · obtain ⟨before, hbefore, rfl⟩ := map_eq_some_iff.mp hfound
        by_cases hraise : data.isDefault = some true
        · exact .inl ((if_pos hraise).trans (by rw [hid]))
        · refine .inr ⟨map_eq_some_iff.mpr ⟨before, hbefore, ?_⟩,
            fun spared hclear ↦ absurd hclear (hstep spared)⟩
          change data.isDefault.getD before.isDefault = true at hflag
          cases hdata : data.isDefault with
          | none => simpa [hdata] using hflag
          | some flag =>
            rw [hdata] at hflag hraise
            exact absurd (congrArg some hflag) hraise
      · exact .inr (hkept hfound hstep)
    | deleteChannel deleted =>
      have hfound : (if deleted = id then none else channels.find? id) = some channel :=
        (Table.find?_erase _ deleted id).symm.trans hchannel
      split_ifs at hfound
      exact .inr (hkept hfound nofun)

end

/-! ### What a request does first -/

/-- The calls that a request may make after others: the flag of a channel is set when it has been
taken from the others. -/
def mayCall (history : List (Event ChannelAnswer)) : ChannelCall → Prop
  | .createChannel data => data.isDefault = true →
    ∃ time, ⟨.unsetDefaults none, .ok time⟩ ∈ history
  | .updateChannel id data => data.isDefault = some true →
    ∃ time, ⟨.unsetDefaults (some id), .ok time⟩ ∈ history
  | _ => True

def channelProtocol : Protocol ChannelAnswer (List (Event ChannelAnswer)) :=
  historyProtocol mayCall fun _ ↦ True

/-- A failed request has failed in its last call. -/
def FailsLastCall {α : Type} (result : Except String α)
    (history : List (Event ChannelAnswer)) : Prop :=
  FailsLast (fun _ ↦ False) result history

theorem follows_write {request : ChannelCall} {output : ChannelAnswer request → SlackChannelOutput}
    {history : List (Event ChannelAnswer)} (hpermits : mayCall history request) :
    (perform request >>= fun channel ↦ pure (output channel) :
      ChannelAsync SlackChannelOutput).Follows channelProtocol FailsLastCall history := by
  refine ⟨hpermits, fun answer _ ↦ ?_⟩
  cases answer with
  | ok channel => exact failsLast_ok _ _
  | error message => exact failsLast_concat message history _

/-- The flag is taken from the other channels first if it is asked for. -/
theorem follows_unsetDefaults (excluded : Option String) (isDefault : Option Bool) :
    (Program.when (isDefault = some true) do
      let _ ← perform (.unsetDefaults excluded)
      pure () : ChannelAsync Unit).Follows channelProtocol (Ends (fun _ history ↦
        isDefault = some true → ∃ time, ⟨.unsetDefaults excluded, .ok time⟩ ∈ history) fun message ↦
          FailsLastCall (.error message : Except String SlackChannelOutput)) [] := by
  refine Follows.ite (fun _ ↦ ?_) fun hdefault hgiven ↦ absurd hgiven hdefault
  exact follows_perform_bind trivial (fun time _ _ ↦ ⟨time, mem_singleton_self _⟩) fun message ↦
    failsLast_concat message [] _

theorem follows_createSlackChannel (input : SlackChannelInput) :
    (createSlackChannel input).Follows channelProtocol FailsLastCall [] := by
  refine follows_bind_of _ (follows_unsetDefaults none input.isDefault) fun _ history hcleared ↦ ?_
  refine follows_perform_bind trivial (fun webhookUrl _ ↦ follows_write fun hdefault ↦ ?_)
    fun message ↦ failsLast_concat message history _
  obtain ⟨time, htime⟩ := hcleared (by simpa [Option.getD_eq_iff] using hdefault)
  exact ⟨time, mem_append_left _ htime⟩

theorem follows_updateSlackChannel (id : String) (input : SlackChannelUpdate) :
    (updateSlackChannel id input).Follows channelProtocol FailsLastCall [] := by
  refine follows_bind_of _ (follows_unsetDefaults (some id) input.isDefault)
    fun _ history hcleared ↦ ?_
  unfold encryptWebhookUrl
  cases input.webhookUrl with
  | none => exact follows_write hcleared
  | some value =>
    refine follows_bind (follows_perform_bind trivial (fun webhookUrl _ ↦ ?_)
      fun message ↦ failsLast_concat message history _)
    refine follows_write fun hdefault ↦ ?_
    obtain ⟨time, htime⟩ := hcleared hdefault
    exact ⟨time, mem_append_left _ htime⟩

theorem ChannelTask.follows (task : ChannelTask) :
    task.program.Follows channelProtocol FailsLastCall [] := by
  cases task with
  | create input => exact follows_createSlackChannel input
  | update id input => exact follows_updateSlackChannel id input
  | delete id => exact ⟨trivial, fun answer _ ↦ failsLast_answer [] answer⟩

section

variable {ι : Type*} [DecidableEq ι] {channels : Table SlackChannel} {tasks : ι → ChannelTask}
  {log : Trail ι ChannelAnswer}

/-- A run of requests. -/
def ChannelRuns (channels : Table SlackChannel) (tasks : ι → ChannelTask)
    (log : Trail ι ChannelAnswer) : Prop :=
  Concurrent (fun thread ↦ (tasks thread).program) channelSemantics channels log

def channelsAfter (channels : Table SlackChannel)
    (log : Trail ι ChannelAnswer) : Table SlackChannel :=
  channelSemantics.final channels (log.map Prod.snd)

omit [DecidableEq ι] in
theorem channelsAfter_concat (before : Trail ι ChannelAnswer) (entry : ι × Event ChannelAnswer) :
    channelsAfter channels (before ++ [entry]) =
      channelSemantics.after (channelsAfter channels before) entry.2 := by
  unfold channelsAfter
  rw [map_append, channelSemantics.final_append]
  rfl

theorem ChannelRuns.clearsFirst (h : ChannelRuns channels tasks log) :
    EveryStep (ClearsFirst channelStep) log := by
  refine Concurrent.everyStep h fun before entry hrun scope key hraise ↦ ?_
  have hpermits := hrun.permits_projection fun thread ↦ (tasks thread).follows
  obtain ⟨thread, request, answer⟩ := entry
  cases answer with
  | error message => cases request <;> nomatch hraise
  | ok value =>
    cases request with
    | createChannel data =>
      change (if data.isDefault = true then _ else _) = _ at hraise
      split_ifs at hraise with hdefault
      obtain ⟨time, hcleared⟩ := hpermits hdefault
      exact ⟨_, hcleared, none, rfl, nofun⟩
    | updateChannel id data =>
      change (if data.isDefault = some true then _ else _) = _ at hraise
      split_ifs at hraise with hdefault
      obtain ⟨time, hcleared⟩ := hpermits hdefault
      refine ⟨_, hcleared, some id, rfl, fun other hother ↦ ?_⟩
      exact (some.inj hother).symm.trans (FlagStep.raise.inj hraise).2
    | _ => nomatch hraise

/-- There is one default channel when no request is in flight, and a failed request has changed no
default flag. -/
theorem ChannelRuns.flagsKept (h : ChannelRuns channels tasks log)
    (honce : OneRaised (defaultChannels channels))
    (horderly : EveryStep
      (FlagOrderly channelStep fun log ↦ channelDefault (channelsAfter channels log)) log) :
    FlagsKept (fun thread ↦ (tasks thread).program)
      (fun log ↦ defaultChannels (channelsAfter channels log))
      (fun log ↦ channelDefault (channelsAfter channels log)) log := by
  refine Foundation.flagsKept (Concurrent.everyStep h fun before entry hrun ↦ ?_) honce h.clearsFirst
    ?_ (fun _ _ ↦ False.elim) (fun thread result ↦ post_projection fun thread ↦ (tasks thread).follows)
    horderly
  · rw [channelsAfter_concat]
    exact allows_channelStep hrun.allows_last
  · rintro before ⟨thread, request, answer⟩ hthrew
    rw [channelsAfter_concat]
    cases answer with
    | ok value => exact absurd hthrew Bool.false_ne_true
    | error message => cases request <;> rfl

end

end Bridgeport.Notifications
