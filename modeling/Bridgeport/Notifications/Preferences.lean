import Mathlib.Data.List.Basic

/-!
# The notification preferences

`services/notifications.ts` derives the settings of a user for a type in three places.
`getPreferences` shows the channels of the type where there is no row;
`processSystemNotificationJob` takes the in-app channel to be on there, and the first row that
`updatePreference` creates has the defaults of its columns for all that is not given. Where there is
a row the job mails only those who are notified in-app too. `preferencesMeant_iff` says when none of
this shows.

The columns with JSON texts are the lists that they are parsed to. Titles, messages and the rows of
the notifications are left out, and so are the results of sending; the types are in the order in
which they are listed.
-/

namespace Bridgeport.Notifications

open List

/-- A channel of `defaultChannels`. -/
inductive Channel
  | inApp
  | email
  | webhook
  deriving DecidableEq

structure NotificationType where
  (id code category : String)
  enabled : Bool
  defaultChannels : List Channel
  deriving DecidableEq

structure NotificationPreference where
  (inAppEnabled emailEnabled webhookEnabled : Bool)
  environmentIds : Option (List String)
  deriving DecidableEq

/-- What a job reads of a user. -/
structure Recipient where
  userId : String
  email : Option String
  deriving DecidableEq

/-- The tables; `userId` and `typeId` are the unique key of the preferences. -/
structure NotificationStore where
  types : List NotificationType
  users : List Recipient
  preferences : String → String → Option NotificationPreference

/-! ### Reading and writing preferences -/

def NotificationType.virtualPreference (type : NotificationType) : NotificationPreference where
  inAppEnabled := .inApp ∈ type.defaultChannels
  emailEnabled := .email ∈ type.defaultChannels
  webhookEnabled := .webhook ∈ type.defaultChannels
  environmentIds := none

variable (store : NotificationStore)

def getPreferences (userId : String) : List (NotificationPreference × NotificationType) :=
  store.types.map fun type ↦
    ((store.preferences userId type.id).getD type.virtualPreference, type)

/-- The `data` of `updatePreference`; `environmentIds` can be set to `null`. -/
structure PreferenceUpdate where
  (inAppEnabled emailEnabled webhookEnabled : Option Bool)
  environmentIds : Option (Option (List String))

def PreferenceUpdate.apply (data : PreferenceUpdate) (row : NotificationPreference) :
    NotificationPreference where
  inAppEnabled := data.inAppEnabled.getD row.inAppEnabled
  emailEnabled := data.emailEnabled.getD row.emailEnabled
  webhookEnabled := data.webhookEnabled.getD row.webhookEnabled
  environmentIds := data.environmentIds.getD row.environmentIds

/-- The defaults of the columns of `NotificationPreference`. -/
def columnDefaults : NotificationPreference :=
  ⟨true, false, true, none⟩

def updatePreference (userId typeId : String) (data : PreferenceUpdate) : NotificationStore :=
  let row := data.apply ((store.preferences userId typeId).getD columnDefaults)
  { store with
    preferences := Function.update store.preferences userId
      (Function.update (store.preferences userId) typeId (some row)) }

/-! ### The job -/

def getNotificationType (code : String) : Option NotificationType :=
  store.types.find? (·.code = code)

/-- The notification that the job creates for a user, and whether it is to be mailed. -/
def recipientOf (pref : Option NotificationPreference) (type : NotificationType)
    (environmentId : Option String) (user : Recipient) : Option (Recipient × Bool) :=
  let inAppEnabled := (pref.map (·.inAppEnabled)).getD true
  if !inAppEnabled then none
  else
    let emailEnabled := (pref.map (·.emailEnabled)).getD (decide (.email ∈ type.defaultChannels))
    match environmentId.filter (· ≠ ""), pref.bind (·.environmentIds) with
    | some environmentId, some allowedEnvs =>
      if environmentId ∈ allowedEnvs then some (user, emailEnabled) else none
    | _, _ => some (user, emailEnabled)

/-- A disabled type of the category `system` is not sent. -/
def NotificationType.Sent (type : NotificationType) : Prop :=
  ¬ (type.category = "system" ∧ type.enabled = false)

instance (type : NotificationType) : Decidable type.Sent :=
  inferInstanceAs (Decidable (¬ _))

/-- The notifications of `processSystemNotificationJob`. -/
def processSystemNotificationJob (typeCode : String) (environmentId : Option String) :
    List (Recipient × Bool) :=
  match getNotificationType store typeCode with
  | none => []
  | some type =>
    if type.Sent then store.users.filterMap fun user ↦
      recipientOf (store.preferences user.userId type.id) type environmentId user
    else []

def emailRecipients (notifications : List (Recipient × Bool)) : List Recipient :=
  (notifications.filter fun entry ↦
    entry.2 && (entry.1.email.filter (· ≠ "")).isSome).map Prod.fst

/-- The environment filter of a preference admits an environment. -/
def NotificationPreference.Admits (preference : NotificationPreference)
    (environmentId : Option String) : Prop :=
  ∀ environment ∈ environmentId.filter (· ≠ ""), ∀ allowedEnvs ∈ preference.environmentIds,
    environment ∈ allowedEnvs

/-- The fields that are not given are kept. -/
structure KeepsOthers (data : PreferenceUpdate) (before after : NotificationPreference) : Prop where
  inApp : data.inAppEnabled = none → after.inAppEnabled = before.inAppEnabled
  email : data.emailEnabled = none → after.emailEnabled = before.emailEnabled
  webhook : data.webhookEnabled = none → after.webhookEnabled = before.webhookEnabled
  environments : data.environmentIds = none → after.environmentIds = before.environmentIds

/-- The preference that a user is shown for a type is what a job acts on and what an update starts
from. -/
structure PreferencesMeant (store : NotificationStore) (type : NotificationType)
    (environmentId : Option String) (user : Recipient) : Prop where
  inApp : ∀ preference, (preference, type) ∈ getPreferences store user.userId →
    ((∃ entry ∈ processSystemNotificationJob store type.code environmentId,
      entry.1.userId = user.userId) ↔
        preference.inAppEnabled = true ∧ preference.Admits environmentId)
  email : ∀ preference, (preference, type) ∈ getPreferences store user.userId →
    (user.email.filter (· ≠ "")).isSome = true →
    ((∃ recipient ∈ emailRecipients (processSystemNotificationJob store type.code environmentId),
      recipient.userId = user.userId) ↔
        preference.emailEnabled = true ∧ preference.Admits environmentId)
  update : ∀ data preference after, (preference, type) ∈ getPreferences store user.userId →
    (after, type) ∈ getPreferences (updatePreference store user.userId type.id data) user.userId →
    KeepsOthers data preference after
  elsewhere : ∀ data userId other, userId ≠ user.userId ∨ other.id ≠ type.id →
    ∀ preference, (preference, other) ∈ getPreferences store userId ↔
      (preference, other) ∈ getPreferences (updatePreference store user.userId type.id data) userId

/-- What a stored row, or its absence, has to be like. -/
def Straightforward (type : NotificationType) (environmentId : Option String) (user : Recipient) :
    Option NotificationPreference → Prop
  | none => type.Sent ∧ .inApp ∈ type.defaultChannels ∧ .email ∉ type.defaultChannels ∧
      .webhook ∈ type.defaultChannels
  | some row => row.Admits environmentId →
    if type.Sent then
      row.emailEnabled = true → (user.email.filter (· ≠ "")).isSome = true → row.inAppEnabled = true
    else row.inAppEnabled = false ∧
      ((user.email.filter (· ≠ "")).isSome = true → row.emailEnabled = false)

variable {entry : Recipient × Bool}

section

variable {store : NotificationStore} {type other : NotificationType} {environmentId : Option String}
  {user : Recipient} {preference : NotificationPreference} {userId : String}

theorem mem_getPreferences : (preference, other) ∈ getPreferences store userId ↔
    other ∈ store.types ∧
      preference = (store.preferences userId other.id).getD other.virtualPreference := by
  unfold getPreferences
  rw [mem_map]
  constructor
  · rintro ⟨listed, hlisted, hentry⟩
    obtain ⟨rfl, rfl⟩ := Prod.mk.inj hentry
    exact ⟨hlisted, rfl⟩
  · rintro ⟨hlisted, rfl⟩
    exact ⟨other, hlisted, rfl⟩

/-- A job creates a notification, to be mailed or not. -/
def Notifies (type : NotificationType) (environmentId : Option String) :
    Option NotificationPreference → Bool → Prop
  | none, emailEnabled => decide (.email ∈ type.defaultChannels) = emailEnabled
  | some row, emailEnabled => row.inAppEnabled = true ∧ row.Admits environmentId ∧
      row.emailEnabled = emailEnabled

theorem recipientOf_eq_some_iff {pref : Option NotificationPreference} :
    recipientOf pref type environmentId user = some entry ↔
      user = entry.1 ∧ Notifies type environmentId pref entry.2 := by
  obtain ⟨found, emailEnabled⟩ := entry
  unfold recipientOf Notifies
  cases pref with
  | none => simp
  | some row =>
    obtain ⟨inAppEnabled, emails, webhookEnabled, environmentIds⟩ := row
    unfold NotificationPreference.Admits
    cases inAppEnabled with
    | false => simp
    | true =>
      cases environmentId.filter (· ≠ "") with
      | none => simp
      | some environment =>
        cases environmentIds with
        | none => simp
        | some allowedEnvs =>
          by_cases hallowed : environment ∈ allowedEnvs
          · simp [hallowed]
          · simp [hallowed]

theorem virtualPreference_eq_iff : type.virtualPreference = columnDefaults ↔
    .inApp ∈ type.defaultChannels ∧ .email ∉ type.defaultChannels ∧
      .webhook ∈ type.defaultChannels := by
  simp [NotificationType.virtualPreference, columnDefaults]

theorem admits_virtualPreference : type.virtualPreference.Admits environmentId :=
  fun _ _ _ h ↦ nomatch h

variable {shown : NotificationPreference}

theorem keepsOthers_iff {row : NotificationPreference} :
    (∀ data : PreferenceUpdate, KeepsOthers data shown (data.apply row)) ↔ shown = row := by
  constructor
  · intro h
    obtain ⟨hinApp, hemail, hwebhook, henvironments⟩ := h ⟨none, none, none, none⟩
    cases shown
    cases row
    exact NotificationPreference.mk.injEq .. |>.mpr
      ⟨(hinApp rfl).symm, (hemail rfl).symm, (hwebhook rfl).symm, (henvironments rfl).symm⟩
  · rintro rfl data
    constructor <;> intro h <;> rw [PreferenceUpdate.apply, h, Option.getD_none]

theorem preferences_updatePreference_of_ne {typeId otherId : String} (data : PreferenceUpdate)
    (h : userId ≠ user.userId ∨ otherId ≠ typeId) :
    (updatePreference store user.userId typeId data).preferences userId otherId =
      store.preferences userId otherId := by
  unfold updatePreference
  by_cases hsame : userId = user.userId
  · subst hsame
    simp [Function.update_of_ne (h.resolve_left fun hne ↦ hne rfl)]
  · simp [Function.update_of_ne hsame]

section

variable (hfind : getNotificationType store type.code = some type) (huser : user ∈ store.users)

section

include hfind

theorem mem_processSystemNotificationJob :
    entry ∈ processSystemNotificationJob store type.code environmentId ↔
      type.Sent ∧ entry.1 ∈ store.users ∧
        Notifies type environmentId (store.preferences entry.1.userId type.id) entry.2 := by
  unfold processSystemNotificationJob
  simp only [hfind]
  split_ifs with hsent
  · simp only [mem_filterMap, recipientOf_eq_some_iff, hsent, true_and]
    constructor
    · rintro ⟨found, hfound, rfl, hnotifies⟩
      exact ⟨hfound, hnotifies⟩
    · rintro ⟨hfound, hnotifies⟩
      exact ⟨_, hfound, rfl, hnotifies⟩
  · simp [hsent]

end

include hfind huser

theorem notified_iff :
    (∃ entry ∈ processSystemNotificationJob store type.code environmentId,
      entry.1.userId = user.userId) ↔ type.Sent ∧
        ∃ emailEnabled, Notifies type environmentId (store.preferences user.userId type.id)
          emailEnabled := by
  simp only [mem_processSystemNotificationJob hfind]
  constructor
  · rintro ⟨entry, ⟨hsent, -, hnotifies⟩, hsame⟩
    exact ⟨hsent, entry.2, hsame ▸ hnotifies⟩
  · rintro ⟨hsent, emailEnabled, hnotifies⟩
    exact ⟨(user, emailEnabled), ⟨hsent, huser, hnotifies⟩, rfl⟩

theorem mailed_iff (haddress : (user.email.filter (· ≠ "")).isSome = true) :
    (∃ recipient ∈ emailRecipients (processSystemNotificationJob store type.code environmentId),
      recipient.userId = user.userId) ↔ type.Sent ∧
        Notifies type environmentId (store.preferences user.userId type.id) true := by
  unfold emailRecipients
  simp only [mem_map, mem_filter, mem_processSystemNotificationJob hfind, Bool.and_eq_true]
  constructor
  · rintro ⟨recipient, ⟨entry, ⟨⟨hsent, -, hnotifies⟩, hmailed, -⟩, rfl⟩, hsame⟩
    rw [hsame, hmailed] at hnotifies
    exact ⟨hsent, hnotifies⟩
  · rintro ⟨hsent, hnotifies⟩
    exact ⟨user, ⟨(user, true), ⟨⟨hsent, huser, hnotifies⟩, rfl, haddress⟩, rfl⟩, rfl⟩

/-- The law in terms of the stored row and of what is shown of it. -/
theorem preferencesMeant_iff_shown {stored : Option NotificationPreference}
    (hstored : store.preferences user.userId type.id = stored)
    (hshown : stored.getD type.virtualPreference = shown) :
    PreferencesMeant store type environmentId user ↔
      ((type.Sent ∧ ∃ emailEnabled, Notifies type environmentId stored emailEnabled) ↔
        shown.inAppEnabled = true ∧ shown.Admits environmentId) ∧
      ((user.email.filter (· ≠ "")).isSome = true →
        (type.Sent ∧ Notifies type environmentId stored true ↔
          shown.emailEnabled = true ∧ shown.Admits environmentId)) ∧
      shown = stored.getD columnDefaults := by
  have hlisted := mem_of_find?_eq_some hfind
  have hbefore : ∀ preference, (preference, type) ∈ getPreferences store user.userId ↔
      preference = shown := by
    intro preference
    rw [mem_getPreferences, hstored, hshown, and_iff_right hlisted]
  have hafter : ∀ data after,
      (after, type) ∈ getPreferences (updatePreference store user.userId type.id data) user.userId ↔
        after = data.apply (stored.getD columnDefaults) := by
    intro data after
    rw [mem_getPreferences]
    simp [updatePreference, hlisted, hstored]
  rw [← keepsOthers_iff, ← hstored, ← notified_iff hfind huser]
  constructor
  · rintro ⟨hinApp, hemail, hupdate, -⟩
    refine ⟨hinApp shown ((hbefore _).mpr rfl), fun haddress ↦ ?_, fun data ↦ ?_⟩
    · rw [← mailed_iff hfind huser haddress]
      exact hemail shown ((hbefore _).mpr rfl) haddress
    · rw [hstored]
      exact hupdate data _ _ ((hbefore _).mpr rfl) ((hafter _ _).mpr rfl)
  · rintro ⟨hinApp, hemail, hupdate⟩
    refine ⟨fun preference hmem ↦ ?_, fun preference hmem haddress ↦ ?_,
      fun data preference after hmem hlater ↦ ?_, fun data userId other hother preference ↦ ?_⟩
    · rwa [(hbefore _).mp hmem]
    · rw [(hbefore _).mp hmem, mailed_iff hfind huser haddress]
      exact hemail haddress
    · rw [(hbefore _).mp hmem, (hafter _ _).mp hlater, ← hstored]
      exact hupdate data
    · rw [mem_getPreferences, mem_getPreferences, preferences_updatePreference_of_ne data hother]
      rfl

/-- Preferences mean what they show exactly if a stored row is unambiguous, and the channels of the
type are the defaults of the columns where there is none. Assumes: the user and the type exist. -/
theorem preferencesMeant_iff : PreferencesMeant store type environmentId user ↔
    Straightforward type environmentId user (store.preferences user.userId type.id) := by
  cases hstored : store.preferences user.userId type.id with
  | none =>
    rw [preferencesMeant_iff_shown hfind huser hstored rfl, Straightforward,
      ← virtualPreference_eq_iff]
    simp only [Option.getD_none, Notifies, admits_virtualPreference, exists_eq', and_true]
    constructor
    · rintro ⟨hinApp, -, hcolumns⟩
      exact ⟨hinApp.mpr (hcolumns ▸ rfl), hcolumns⟩
    · rintro ⟨hsent, hcolumns⟩
      exact ⟨iff_of_true hsent (hcolumns ▸ rfl), fun _ ↦ and_iff_right hsent, hcolumns⟩
  | some row =>
    rw [preferencesMeant_iff_shown hfind huser hstored rfl, Straightforward]
    simp only [Option.getD_some, Notifies, exists_and_left, exists_eq', and_true]
    split_ifs with hsent
    · simp only [hsent, true_and]
      tauto
    · simp only [hsent, false_and, false_iff, Bool.eq_false_iff, ne_eq]
      tauto

end

end

def failureType : NotificationType :=
  ⟨"type", "system.deployment_failed", "system", true, [.inApp, .email, .webhook]⟩

def adminUser : Recipient := ⟨"admin", some "admin@example.com"⟩

def storedPreferences (row : Option NotificationPreference) : NotificationStore :=
  ⟨[failureType], [adminUser], fun _ _ ↦ row⟩

theorem preferencesMeant_production :
    PreferencesMeant (storedPreferences (some ⟨true, true, false, some ["production"]⟩)) failureType
      (some "production") adminUser :=
  (preferencesMeant_iff (by decide) (by decide)).mpr fun _ ↦ by
    rw [if_pos (by decide)]
    exact fun _ _ ↦ rfl

theorem not_preferencesMeant_firstUpdate :
    ¬ PreferencesMeant (storedPreferences none) failureType (some "production") adminUser := by
  intro h
  have hkept := (h.update ⟨none, none, some false, none⟩ ⟨true, true, true, none⟩
    ⟨true, false, false, none⟩ (by decide) (by decide)).email rfl
  nomatch hkept

end Bridgeport.Notifications
