import Bridgeport.Ssh.ConnectionPool

/-!
# Who owns an SSH connection

The reference count of every entry is the number of its unreleased wrappers, every open connection
is in the pool, a connection that is held is closed by no tick of the timer and by no wrapper of
another connection, and a connection is reused for the credentials that it was authenticated with
(`ownsConnections`), as long as

* options with the same key have the same credentials,
* a connection is dialed for an `acquire`, or for an idle client that is the pool's, and an error
  comes from the connection that the client has,
* a new connection is ready only when its key is free, and
* a wrapper fails or is released only while the entry of its key, if there is one, is that of its
  own client.
-/

namespace Bridgeport.Ssh

open Foundation List Option Function OrderedMap

variable (state : PoolState) {key : String} (wrapper : PooledClient) (config : SshConfig) {link : ℕ}
  (id : ℕ)

namespace PoolState

def holders : ℕ :=
  state.wrappers.countP fun wrapper ↦ wrapper.client = id ∧ ¬ wrapper.released

def Pooled : Prop :=
  ∃ key entry, state.connections.get key = some entry ∧ entry.client = id

/-- The reference counts are exact, and every open connection is in the pool. -/
structure Owned (state : PoolState) : Prop where
  refCount : ∀ key entry, state.connections.get key = some entry →
    entry.refCount = state.holders entry.client
  pooled : ∀ link, state.clients.phase link = .opened →
    state.clients.client (state.clients.owner link) = some link ∧
      state.Pooled (state.clients.owner link)

/-- The client whose wrapper takes the step; a tick of the timer is nobody's. -/
def closer : Step → Option (Option ℕ)
  | .cleanup _ => some none
  | .execFails index => (state.wrappers[index]?).map fun wrapper ↦ some wrapper.client
  | .disconnect index _ => (state.wrappers[index]?).map fun wrapper ↦ some wrapper.client
  | _ => none

/-- The step closes no connection that a wrapper of another client holds. -/
def KeepsHeld (step : Step) : Prop :=
  ∀ wrapper ∈ state.wrappers, ¬ wrapper.released → ∀ link,
    state.clients.client wrapper.client = some link → state.clients.phase link = .opened →
      ∀ source, state.closer step = some source → source ≠ some wrapper.client →
        ∀ after, state.next step = some after → after.clients.phase link = .opened

def ReusesOwn (state : PoolState) (step : Step) : Prop :=
  ∀ options now, step = .acquire options now → ¬ isLocalhost options.hostname →
    ∀ entry, state.connections.get (getKey options) = some entry →
      state.clients.isConnected entry.client →
        credentialsOf config (state.clients.options entry.client) = credentialsOf config options

/-- The ownership of connections, in the states and steps of a run. -/
structure OwnsConnections (config : SshConfig) (steps : List Step) : Prop where
  owned : ∀ before, before <+: steps → ∀ state, machine.run initial before = some state → state.Owned
  keepsHeld : machine.Meets KeepsHeld initial steps
  reusesOwn : machine.Meets (ReusesOwn config) initial steps

/-- The entry of the key of a wrapper, if there is one, is that of its client. -/
def FindsOwn : Prop :=
  ∀ entry, state.connections.get wrapper.key = some entry → entry.client = wrapper.client

def Orderly (state : PoolState) : Step → Prop
  | .acquire options _ => ∀ id < state.clients.made,
      getKey (state.clients.options id) = getKey options →
        credentialsOf config (state.clients.options id) = credentialsOf config options
  | .dial id => id ∉ state.acquiring → state.clients.client id = none ∧ state.Pooled id
  | .ready link _ => state.clients.owner link ∈ state.acquiring →
      state.connections.get (getKey (state.clients.options (state.clients.owner link))) = none
  | .error link => ∀ other, state.clients.client (state.clients.owner link) = some other →
      other = link
  | .execFails index => ∀ wrapper, state.wrappers[index]? = some wrapper →
      ¬ state.clients.isConnected wrapper.client → state.FindsOwn wrapper
  | .disconnect index _ => ∀ wrapper, state.wrappers[index]? = some wrapper →
      ¬ wrapper.released → state.FindsOwn wrapper
  | _ => True

instance : Decidable (state.Pooled id) :=
  decidable_of_iff (∃ entry ∈ state.connections.entries, entry.2.client = id) <| by
    simp [Pooled, mem_entries_iff]

instance : Decidable (state.FindsOwn wrapper) :=
  inferInstanceAs (Decidable (∀ entry ∈ state.connections.get wrapper.key,
    entry.client = wrapper.client))

instance (state : PoolState) (step : Step) : Decidable (state.Orderly config step) :=
  match step with
  | .acquire _ _ => inferInstanceAs (Decidable (∀ _ < _, _ → _))
  | .dial _ => inferInstanceAs (Decidable (_ → _ ∧ _))
  | .ready _ _ => inferInstanceAs (Decidable (_ ∈ _ → _ = _))
  | .error link => inferInstanceAs (Decidable (∀ other ∈ state.clients.client
      (state.clients.owner link), other = link))
  | .execFails index => inferInstanceAs (Decidable (∀ wrapper ∈ state.wrappers[index]?, _ → _))
  | .disconnect index _ => inferInstanceAs (Decidable (∀ wrapper ∈ state.wrappers[index]?, _ → _))
  | .reconnect _ | .connectThrows _ | .ends _ | .cleanup _ => isTrue trivial

/-! ### The invariant -/

/-- An entry is filed under the key of its client and counts its wrappers. -/
structure EntryOwned (state : PoolState) (key : String) (entry : PoolEntry) : Prop where
  key : key = getKey (state.clients.options entry.client)
  made : entry.client < state.clients.made
  acquired : entry.client ∉ state.acquiring
  refCount : entry.refCount = state.holders entry.client

structure WrapperOwned (state : PoolState) (wrapper : PooledClient) : Prop where
  key : wrapper.key = getKey (state.clients.options wrapper.client)
  made : wrapper.client < state.clients.made
  acquired : wrapper.client ∉ state.acquiring

/-- A connection that is not closed is the one of its client, which is in the pool or about to
be. -/
structure LinkOwned (state : PoolState) (link : ℕ) : Prop where
  dialed : link < state.clients.dialed
  made : state.clients.owner link < state.clients.made
  client : state.clients.client (state.clients.owner link) = some link
  pooled : state.Pooled (state.clients.owner link) ∨
    state.clients.owner link ∈ state.acquiring ∧ state.clients.phase link = .dialing

/-- What holds of the pool in every state. -/
structure Invariant (state : PoolState) : Prop where
  entries : ∀ key entry, state.connections.get key = some entry → state.EntryOwned key entry
  wrappers : ∀ wrapper ∈ state.wrappers, state.WrapperOwned wrapper
  links : ∀ link, state.clients.phase link ≠ .closed → state.LinkOwned link
  fields : ∀ id link, state.clients.client id = some link →
    link < state.clients.dialed ∧ state.clients.owner link = id
  acquiring : state.acquiring.Nodup
  acquiringMade : ∀ id ∈ state.acquiring, id < state.clients.made
  connectingMade : ∀ id ∈ state.connecting, id < state.clients.made
  once : ∀ id ∈ state.acquiring,
    state.connecting.count id + (state.clients.client id).toList.length ≤ 1

variable {state : PoolState}

theorem Invariant.owned (h : Invariant state) : state.Owned where
  refCount key entry hentry := (h.entries key entry hentry).refCount
  pooled link hopened := by
    have hlink := h.links link (by rw [hopened]; exact nofun)
    refine ⟨hlink.client, hlink.pooled.resolve_right fun hdialing ↦ ?_⟩
    nomatch hopened.symm.trans hdialing.2

theorem Invariant.initial : Invariant initial where
  entries _ _ h := absurd h nofun
  wrappers _ h := absurd h not_mem_nil
  links _ h := absurd rfl h
  fields _ _ h := absurd h nofun
  acquiring := nodup_nil
  acquiringMade _ h := absurd h not_mem_nil
  connectingMade _ h := absurd h not_mem_nil
  once _ h := absurd h not_mem_nil

theorem holders_concat (h : ¬ wrapper.released) (id : ℕ) : (state.wrappers ++ [wrapper]).countP
        (fun other ↦ decide (other.client = id ∧ ¬ other.released)) =
      state.holders id + if wrapper.client = id then 1 else 0 := by
  simp [holders, countP_append, countP_cons, h]

variable {index : ℕ} {wrapper : PooledClient}

theorem holders_markReleased (h : state.wrappers[index]? = some wrapper) (id : ℕ) :
    (state.markReleased index wrapper).holders id =
      state.holders id - if wrapper.client = id ∧ ¬ wrapper.released then 1 else 0 := by
  obtain ⟨hindex, rfl⟩ := List.getElem?_eq_some_iff.mp h
  simp [holders, markReleased, countP_set hindex]

theorem mem_markReleased {other : PooledClient} (h : state.wrappers[index]? = some wrapper)
    (hother : other ∈ (state.markReleased index wrapper).wrappers) :
    ∃ before ∈ state.wrappers, other.client = before.client ∧ other.key = before.key := by
  rcases mem_or_eq_of_mem_set hother with hmem | rfl
  · exact ⟨other, hmem, rfl, rfl⟩
  · exact ⟨wrapper, mem_of_getElem? h, rfl, rfl⟩

/-! ### Entries -/

variable {entry : PoolEntry}

/-- A step that leaves the pool alone and acquires no client anew keeps what its links keep. -/
theorem Invariant.update (h : Invariant state) {after : PoolState}
    (hconnections : after.connections = state.connections)
    (hwrappers : after.wrappers = state.wrappers)
    (hoptions : after.clients.options = state.clients.options)
    (hmade : after.clients.made = state.clients.made) (hacquiring : after.acquiring <+ state.acquiring)
    (hlinks : ∀ link, after.clients.phase link ≠ .closed → after.LinkOwned link)
    (hfields : ∀ id link, after.clients.client id = some link →
      link < after.clients.dialed ∧ after.clients.owner link = id)
    (hconnecting : ∀ id ∈ after.connecting, id < after.clients.made)
    (honce : ∀ id ∈ after.acquiring,
      after.connecting.count id + (after.clients.client id).toList.length ≤ 1) :
    Invariant after := by
  refine ⟨fun key entry hentry ↦ ?_, fun wrapper hwrapper ↦ ?_, hlinks, hfields,
    h.acquiring.sublist hacquiring, fun id hid ↦ hmade ▸ h.acquiringMade id (hacquiring.subset hid),
    hconnecting, honce⟩
  · obtain ⟨hkey, hclient, hacquired, hcount⟩ := h.entries key entry (hconnections ▸ hentry)
    refine ⟨hoptions ▸ hkey, hmade ▸ hclient, fun hid ↦ hacquired (hacquiring.subset hid), ?_⟩
    rw [hcount, holders, holders, hwrappers]
  · obtain ⟨hkey, hclient, hacquired⟩ := h.wrappers wrapper (hwrappers ▸ hwrapper)
    exact ⟨hoptions ▸ hkey, hmade ▸ hclient, fun hid ↦ hacquired (hacquiring.subset hid)⟩

theorem Invariant.key_eq (h : Invariant state) {other : String} {second : PoolEntry}
    (hentry : state.connections.get key = some entry)
    (hsecond : state.connections.get other = some second) (hclient : entry.client = second.client) :
    key = other := by
  rw [(h.entries key entry hentry).key, (h.entries other second hsecond).key, hclient]

variable {id : ℕ}

theorem Pooled.set {changed : PoolEntry} (hentry : state.connections.get key = some entry)
    (hclient : changed.client = entry.client) (h : state.Pooled id) : ∃ other second,
      (state.connections.set key changed).get other = some second ∧ second.client = id := by
  obtain ⟨other, second, hsecond, rfl⟩ := h
  by_cases hother : other = key
  · rw [hother, hentry] at hsecond
    obtain rfl := some.inj hsecond
    exact ⟨key, changed, get_set_self _ _ _, hclient⟩
  · exact ⟨other, second, by rw [get_set, if_neg hother, hsecond], rfl⟩

section

variable (h : Invariant state)

include h

theorem Invariant.retain (now : ℕ) (hentry : state.connections.get key = some entry) :
    Invariant (state.retain key entry now) := by
  have hown := h.entries key entry hentry
  have hholders : ∀ id, (state.retain key entry now).holders id =
      state.holders id + if entry.client = id then 1 else 0 :=
    holders_concat ⟨entry.client, key, false⟩ nofun
  have hget : ∀ other, (state.retain key entry now).connections.get other =
      if other = key then some { entry with lastUsedAt := now, refCount := entry.refCount + 1 }
      else state.connections.get other :=
    fun other ↦ get_set _ _ _ _
  refine ⟨fun other second hsecond ↦ ?_, fun wrapper hwrapper ↦ ?_, fun link hlink ↦ ?_, h.fields,
    h.acquiring, h.acquiringMade, h.connectingMade, h.once⟩
  · rw [hget] at hsecond
    by_cases hother : other = key
    · rw [if_pos hother] at hsecond
      obtain rfl := some.inj hsecond
      refine ⟨hother ▸ hown.key, hown.made, hown.acquired, ?_⟩
      rw [hholders, if_pos rfl, ← hown.refCount]
    · rw [if_neg hother] at hsecond
      have hsame := h.entries other second hsecond
      have hne : entry.client ≠ second.client := fun hclient ↦
        hother (h.key_eq hentry hsecond hclient).symm
      refine ⟨hsame.key, hsame.made, hsame.acquired, ?_⟩
      rw [hholders, if_neg hne, Nat.add_zero, hsame.refCount]
  · rcases mem_append.mp hwrapper with hmem | hmem
    · obtain ⟨hkey, hmade, hacquired⟩ := h.wrappers wrapper hmem
      exact ⟨hkey, hmade, hacquired⟩
    · rw [mem_singleton.mp hmem]
      exact ⟨hown.key, hown.made, hown.acquired⟩
  · obtain ⟨hdialed, hmade, hclient, hpooled⟩ := h.links link hlink
    exact ⟨hdialed, hmade, hclient, hpooled.imp_left fun h ↦ h.set hentry (by rfl)⟩

theorem Invariant.close (hentry : state.connections.get key = some entry) :
    Invariant (state.close key entry) := by
  have hget : ∀ other second, (state.close key entry).connections.get other = some second →
      other ≠ key ∧ state.connections.get other = some second := by
    intro other second hsecond
    have hdelete := (get_delete state.connections key other).symm.trans hsecond
    split_ifs at hdelete with hother
    exact ⟨hother, hdelete⟩
  -- a connection of another client stays as it is
  have hpooled : ∀ id, id ≠ entry.client → state.Pooled id → (state.close key entry).Pooled id := by
    rintro id hne ⟨other, second, hsecond, rfl⟩
    refine ⟨other, second, ?_, rfl⟩
    refine (get_delete state.connections key other).trans ?_
    rw [if_neg, hsecond]
    rintro rfl
    exact hne (congrArg PoolEntry.client (some.inj (hsecond.symm.trans hentry)))
  have hopen : ∀ link, (state.close key entry).clients.phase link ≠ .closed →
      state.clients.client entry.client ≠ some link ∧ state.clients.phase link ≠ .closed ∧
        (state.close key entry).clients.phase link = state.clients.phase link := by
    intro link hlink
    have hphase := state.clients.phase_disconnect entry.client link
    split_ifs at hphase with hown
    · exact absurd hphase hlink
    · exact ⟨hown, fun hclosed ↦ hlink (hphase.trans hclosed), hphase⟩
  have hfield : ∀ id, (state.close key entry).clients.client id =
      if id = entry.client then none else state.clients.client id := by
    intro id
    rw [PoolState.close, Clients.client_disconnect, update_apply]
  refine ⟨fun other second hsecond ↦ ?_, fun wrapper hwrapper ↦ ?_, fun link hlink ↦ ?_,
    fun id link hlink ↦ ?_, h.acquiring, fun id hid ↦ ?_, fun id hid ↦ ?_, fun id hid ↦ ?_⟩
  · obtain ⟨hkey, hmade, hacquired, hcount⟩ := h.entries other second (hget other second hsecond).2
    exact ⟨by simpa [PoolState.close] using hkey, by simpa [PoolState.close] using hmade, hacquired,
      hcount⟩
  · obtain ⟨hkey, hmade, hacquired⟩ := h.wrappers wrapper hwrapper
    exact ⟨by simpa [PoolState.close] using hkey, by simpa [PoolState.close] using hmade, hacquired⟩
  · obtain ⟨hother, hnotClosed, hphase⟩ := hopen link hlink
    obtain ⟨hdialed, hmade, hclient, hpool⟩ := h.links link hnotClosed
    have hne : state.clients.owner link ≠ entry.client := by
      intro hsame
      rw [hsame] at hclient
      exact hother hclient
    refine ⟨by simpa [PoolState.close] using hdialed, by simpa [PoolState.close] using hmade, ?_, ?_⟩
    · rw [hfield]
      simpa [PoolState.close, hne] using hclient
    · rw [hphase]
      simpa [PoolState.close] using hpool.imp_left (hpooled _ hne)
  · rw [hfield] at hlink
    split_ifs at hlink
    simpa [PoolState.close] using h.fields id link hlink
  · simpa [PoolState.close] using h.acquiringMade id hid
  · simpa [PoolState.close] using h.connectingMade id hid
  · refine Nat.le_trans (Nat.add_le_add_left ?_ _) (h.once id hid)
    rw [hfield]
    split_ifs
    · exact Nat.zero_le _
    · exact Nat.le_refl _

variable (options : SSHClientOptions)

theorem Invariant.connect : Invariant (state.connect options) := by
  have hoptions : ∀ id < state.clients.made,
      (state.connect options).clients.options id = state.clients.options id :=
    fun id hid ↦ update_of_ne (Nat.ne_of_lt hid) _ _
  have hclient : ∀ id < state.clients.made,
      (state.connect options).clients.client id = state.clients.client id :=
    fun id hid ↦ update_of_ne (Nat.ne_of_lt hid) _ _
  have hnew : (state.connect options).clients.client state.clients.made = none :=
    update_self _ _ _
  have hacquiring : ∀ id < state.clients.made, id ∉ state.acquiring →
      id ∉ (state.connect options).acquiring := by
    intro id hid hnot hmem
    rcases mem_append.mp hmem with hold | hold
    · exact hnot hold
    · exact absurd (mem_singleton.mp hold) (Nat.ne_of_lt hid)
  refine ⟨fun key entry hentry ↦ ?_, fun wrapper hwrapper ↦ ?_, fun link hlink ↦ ?_,
    fun id link hlink ↦ ?_, ?_, fun id hid ↦ ?_, fun id hid ↦ ?_, fun id hid ↦ ?_⟩
  · obtain ⟨hkey, hmade, hacquired, hcount⟩ := h.entries key entry hentry
    refine ⟨?_, Nat.lt_succ_of_lt hmade, hacquiring _ hmade hacquired, hcount⟩
    rw [hoptions _ hmade]
    exact hkey
  · obtain ⟨hkey, hmade, hacquired⟩ := h.wrappers wrapper hwrapper
    refine ⟨?_, Nat.lt_succ_of_lt hmade, hacquiring _ hmade hacquired⟩
    rw [hoptions _ hmade]
    exact hkey
  · obtain ⟨hdialed, hmade, hfield, hpool⟩ := h.links link hlink
    refine ⟨hdialed, Nat.lt_succ_of_lt hmade, (hclient _ hmade).trans hfield, ?_⟩
    exact hpool.imp_right fun hdialing ↦ ⟨mem_append_left _ hdialing.1, hdialing.2⟩
  · by_cases hid : id = state.clients.made
    · rw [hid, hnew] at hlink
      nomatch hlink
    · exact h.fields id link ((update_of_ne hid _ _).symm.trans hlink)
  · refine nodup_append.mpr ⟨h.acquiring, nodup_singleton _, fun id hid other hother ↦ ?_⟩
    rw [mem_singleton.mp hother]
    exact Nat.ne_of_lt (h.acquiringMade id hid)
  · rcases mem_append.mp hid with hold | hold
    · exact Nat.lt_succ_of_lt (h.acquiringMade id hold)
    · rw [mem_singleton.mp hold]
      exact Nat.lt_succ_self _
  · rcases mem_append.mp hid with hold | hold
    · exact Nat.lt_succ_of_lt (h.connectingMade id hold)
    · rw [mem_singleton.mp hold]
      exact Nat.lt_succ_self _
  · have hcount : (state.connect options).connecting.count id =
        state.connecting.count id + [state.clients.made].count id := count_append
    rcases mem_append.mp hid with hold | hold
    · have hmade := h.acquiringMade id hold
      rw [hcount, hclient id hmade, count_singleton, if_neg, Nat.add_zero]
      · exact h.once id hold
      · simpa using Nat.ne_of_gt hmade
    · have hunused : state.clients.made ∉ state.connecting := fun hmem ↦
        Nat.lt_irrefl _ (h.connectingMade _ hmem)
      rw [hcount, mem_singleton.mp hold, hnew, count_eq_zero_of_not_mem hunused]
      simp

/-- `acquire` up to its `await`. -/
theorem Invariant.acquire (now : ℕ) : Invariant (state.acquire options now) := by
  unfold PoolState.acquire
  split_ifs
  · exact h
  · split
    · next existing hexisting =>
      split_ifs
      · exact h.retain now hexisting
      · exact (h.close hexisting).connect options
    · exact h.connect options

end

section

variable (h : Invariant state) (hwrapper : state.wrappers[index]? = some wrapper)
include h hwrapper

/-- A wrapper is released whose client the pool does not have. -/
theorem Invariant.markReleased
    (hnot : ∀ key entry, state.connections.get key = some entry → entry.client ≠ wrapper.client) :
    Invariant (state.markReleased index wrapper) := by
  refine ⟨fun key entry hentry ↦ ?_, fun other hother ↦ ?_, fun link hlink ↦ ?_, h.fields,
    h.acquiring, h.acquiringMade, h.connectingMade, h.once⟩
  · obtain ⟨hkey, hmade, hacquired, hcount⟩ := h.entries key entry hentry
    refine ⟨hkey, hmade, hacquired, ?_⟩
    rw [holders_markReleased hwrapper, if_neg fun hsame ↦ hnot key entry hentry hsame.1.symm,
      Nat.sub_zero, hcount]
  · obtain ⟨before, hbefore, hclient, hkey⟩ := mem_markReleased hwrapper hother
    obtain ⟨hbeforeKey, hmade, hacquired⟩ := h.wrappers before hbefore
    exact ⟨by rw [hkey, hclient]; exact hbeforeKey, hclient ▸ hmade, hclient ▸ hacquired⟩
  · obtain ⟨hdialed, hmade, hfield, hpool⟩ := h.links link hlink
    exact ⟨hdialed, hmade, hfield, hpool⟩

theorem Invariant.not_pooled (hnone : state.connections.get wrapper.key = none) :
    ∀ key entry, state.connections.get key = some entry → entry.client ≠ wrapper.client := by
  intro key entry hentry hclient
  have hkey := (h.entries key entry hentry).key
  rw [hclient, ← (h.wrappers wrapper (mem_of_getElem? hwrapper)).key] at hkey
  rw [hkey, hnone] at hentry
  nomatch hentry

theorem Invariant.execFails
    (hown : ¬ state.clients.isConnected wrapper.client → state.FindsOwn wrapper) :
    Invariant (state.execFails index wrapper) := by
  unfold PoolState.execFails
  split_ifs with hconnected
  · exact h
  · unfold evict
    split
    · next entry hentry =>
      refine (h.close hentry).markReleased hwrapper fun other second hsecond hclient ↦ ?_
      have hdelete := (get_delete state.connections wrapper.key other).symm.trans hsecond
      split_ifs at hdelete with hother
      have hsame : entry.client = second.client := (hown hconnected entry hentry).trans hclient.symm
      exact hother (h.key_eq hentry hdelete hsame).symm
    · next hnone => exact h.markReleased hwrapper (h.not_pooled hwrapper hnone)

end

theorem Invariant.disconnect (h : Invariant state) (now : ℕ)
    (hwrapper : state.wrappers[index]? = some wrapper)
    (hown : ¬ wrapper.released → state.FindsOwn wrapper) :
    Invariant (state.disconnect index wrapper now) := by
  unfold PoolState.disconnect
  split_ifs with hreleased
  · exact h
  · cases hentry : state.connections.get wrapper.key with
    | none =>
      rw [release, hentry]
      exact h.markReleased hwrapper (h.not_pooled hwrapper hentry)
    | some entry =>
      rw [release, hentry]
      have hclient := hown hreleased entry hentry
      have hentryOwned := h.entries wrapper.key entry hentry
      have hget : ∀ other, (state.connections.set wrapper.key
          { entry with lastUsedAt := now, refCount := entry.refCount - 1 }).get other =
            if other = wrapper.key then
              some { entry with lastUsedAt := now, refCount := entry.refCount - 1 }
            else state.connections.get other := fun other ↦ get_set _ _ _ _
      have hholders : ∀ id, (state.markReleased index wrapper).holders id =
          state.holders id - if wrapper.client = id ∧ ¬ wrapper.released then 1 else 0 :=
        holders_markReleased hwrapper
      refine ⟨fun other second hsecond ↦ ?_, fun other hother ↦ ?_, fun link hlink ↦ ?_, h.fields,
        h.acquiring, h.acquiringMade, h.connectingMade, h.once⟩
      · have hsecond' := (hget other).symm.trans hsecond
        by_cases hother : other = wrapper.key
        · rw [if_pos hother] at hsecond'
          obtain rfl := some.inj hsecond'
          refine ⟨hother ▸ hentryOwned.key, hentryOwned.made, hentryOwned.acquired, ?_⟩
          refine Eq.trans ?_ (hholders entry.client).symm
          rw [if_pos ⟨hclient.symm, hreleased⟩, ← hentryOwned.refCount]
        · rw [if_neg hother] at hsecond'
          obtain ⟨hkey, hmade, hacquired, hcount⟩ := h.entries other second hsecond'
          refine ⟨hkey, hmade, hacquired, ?_⟩
          refine Eq.trans ?_ (hholders second.client).symm
          rw [if_neg, Nat.sub_zero, hcount]
          exact fun hsame ↦ hother (h.key_eq hentry hsecond' (hclient.trans hsame.1)).symm
      · obtain ⟨before, hbefore, hsame, hkey⟩ := mem_markReleased hwrapper hother
        obtain ⟨hbeforeKey, hmade, hacquired⟩ := h.wrappers before hbefore
        exact ⟨by rw [hkey, hsame]; exact hbeforeKey, hsame ▸ hmade, hsame ▸ hacquired⟩
      · obtain ⟨hdialed, hmade, hfield, hpool⟩ := h.links link hlink
        exact ⟨hdialed, hmade, hfield, hpool.imp_left fun h ↦ h.set hentry (by rfl)⟩

/-! ### The timer -/

theorem close_of_not_connected (h : ¬ state.clients.isConnected entry.client) :
    { state with connections := state.connections.delete key } = state.close key entry := by
  have hnone : state.clients.client entry.client = none := by
    simpa [Clients.isConnected] using h
  simp [PoolState.close, Clients.disconnect, hnone]

/-- One turn of `cleanup`: the entry stays, or it is closed, and then it is idle or dead. -/
theorem reap_cases (now : ℕ) (entry : String × PoolEntry) :
    reap now state entry = state ∨ reap now state entry = state.close entry.1 entry.2 ∧
      (¬ state.clients.isConnected entry.2.client ∨ entry.2.refCount = 0) := by
  unfold reap
  by_cases hconnected : state.clients.isConnected entry.2.client
  · rw [if_neg (not_not.mpr hconnected)]
    split_ifs with hidle
    · exact .inr ⟨rfl, .inr hidle.1⟩
    · exact .inl rfl
  · rw [if_pos hconnected]
    exact .inr ⟨close_of_not_connected hconnected, .inl hconnected⟩

theorem get_reap {now : ℕ} {entry : String × PoolEntry} (h : key ≠ entry.1) :
    (reap now state entry).connections.get key = state.connections.get key := by
  rcases reap_cases now entry with hsame | ⟨hclose, -⟩
  · rw [hsame]
  · rw [hclose]
    exact (get_delete _ _ _).trans (if_neg h)

section

variable (motive : PoolState → Prop) (now : ℕ)
  (hstep : ∀ state, motive state → ∀ entry : String × PoolEntry,
    state.connections.get entry.1 = some entry.2 → motive (reap now state entry))
include motive now hstep

/-- What one turn for an entry of the pool preserves, `cleanup` preserves. -/
theorem foldl_reap (entries : List (String × PoolEntry)) (hnodup : (entries.map Prod.fst).Nodup)
    (hentries : ∀ entry ∈ entries, state.connections.get entry.1 = some entry.2)
    (h : motive state) : motive (entries.foldl (reap now) state) := by
  induction entries generalizing state with
  | nil => exact h
  | cons entry rest ih =>
    rw [map_cons, nodup_cons] at hnodup
    refine ih hnodup.2 (fun other hother ↦ ?_) (hstep state h entry (hentries entry mem_cons_self))
    rw [get_reap]
    · exact hentries other (mem_cons_of_mem _ hother)
    · rintro hsame
      exact hnodup.1 (hsame ▸ mem_map_of_mem hother)

theorem cleanup_induction (h : motive state) : motive (state.cleanup now) :=
  foldl_reap motive now hstep _ state.connections.nodup_keys
    (fun entry hentry ↦ (state.connections.mem_entries_iff entry.1 entry.2).mp hentry) h

end

theorem Invariant.reap (h : Invariant state) (now : ℕ) {entry : String × PoolEntry}
    (hentry : state.connections.get entry.1 = some entry.2) :
    Invariant (reap now state entry) := by
  rcases reap_cases now entry with hsame | ⟨hclose, -⟩
  · exact hsame ▸ h
  · exact hclose ▸ h.close hentry

theorem Invariant.cleanup (h : Invariant state) (now : ℕ) : Invariant (state.cleanup now) :=
  cleanup_induction Invariant now (fun _ hbefore _ hentry ↦ hbefore.reap now hentry) h

/-! ### Connections -/

section

variable (h : Invariant state)
include h

/-- `connect` makes its ssh2 connection. -/
theorem Invariant.dial (hid : id ∈ state.connecting)
    (horderly : id ∉ state.acquiring → state.clients.client id = none ∧ state.Pooled id) :
    Invariant { state with
      clients := state.clients.dial id
      connecting := state.connecting.erase id } := by
  have hcounted : 1 ≤ state.connecting.count id := one_le_count_iff.mpr hid
  have hnone : state.clients.client id = none := by
    by_cases hacquiring : id ∈ state.acquiring
    · have honce := h.once id hacquiring
      cases hclient : state.clients.client id with
      | none => rfl
      | some link =>
        rw [hclient] at honce
        simp at honce
        omega
    · exact (horderly hacquiring).1
  have howner : ∀ link < state.clients.dialed,
      (state.clients.dial id).owner link = state.clients.owner link :=
    fun link hlink ↦ update_of_ne (Nat.ne_of_lt hlink) _ _
  have hfield : ∀ other, other ≠ id →
      (state.clients.dial id).client other = state.clients.client other :=
    fun other hother ↦ update_of_ne hother _ _
  refine h.update rfl rfl rfl rfl (Sublist.refl _) (fun link hlink ↦ ?_) (fun other link hlink ↦ ?_)
    (fun other hother ↦ h.connectingMade other (mem_of_mem_erase hother)) fun other hother ↦ ?_
  · by_cases hnew : link = state.clients.dialed
    · have hself : (state.clients.dial id).owner link = id := by
        rw [hnew]
        exact update_self _ _ _
      have hphase : (state.clients.dial id).phase link = .dialing := by
        rw [hnew]
        exact update_self _ _ _
      refine ⟨by rw [hnew]; exact Nat.lt_succ_self _, ?_, ?_, ?_⟩
      · rw [hself]
        exact h.connectingMade id hid
      · rw [hself, hnew]
        exact update_self _ _ _
      · rw [hself]
        by_cases hacquiring : id ∈ state.acquiring
        · exact .inr ⟨hacquiring, hphase⟩
        · exact .inl (horderly hacquiring).2
    · have hphase : (state.clients.dial id).phase link = state.clients.phase link :=
        update_of_ne hnew _ _
      rw [hphase] at hlink
      obtain ⟨hdialed, hmade, hclient, hpool⟩ := h.links link hlink
      have hsame := howner link hdialed
      have hne : state.clients.owner link ≠ id := by
        rintro hown
        rw [hown, hnone] at hclient
        nomatch hclient
      refine ⟨Nat.lt_succ_of_lt hdialed, by rw [hsame]; exact hmade, ?_, ?_⟩
      · rw [hsame, hfield _ hne]
        exact hclient
      · rw [hsame, hphase]
        exact hpool
  · by_cases hother : other = id
    · rw [hother] at hlink ⊢
      obtain rfl := some.inj ((update_self id _ _).symm.trans hlink)
      exact ⟨Nat.lt_succ_self _, update_self _ _ _⟩
    · rw [hfield other hother] at hlink
      obtain ⟨hdialed, hown⟩ := h.fields other link hlink
      exact ⟨Nat.lt_succ_of_lt hdialed, (howner link hdialed).trans hown⟩
  · by_cases hsame : other = id
    · have honce := h.once id (hsame ▸ hother)
      have hself : (state.clients.dial id).client id = some state.clients.dialed :=
        update_self _ _ _
      rw [hsame, hself, count_erase_self]
      simp only [toList_some, length_singleton]
      omega
    · rw [hfield other hsame, count_erase_of_ne (by simpa using hsame)]
      exact h.once other hother

/-- `connect` throws before it makes its ssh2 connection. -/
theorem Invariant.connectThrows (hid : id ∈ state.connecting) :
    Invariant { state with
      connecting := state.connecting.erase id
      acquiring := state.acquiring.erase id } := by
  have hcounted : 1 ≤ state.connecting.count id := one_le_count_iff.mpr hid
  refine h.update rfl rfl rfl rfl erase_sublist (fun link hlink ↦ ?_) h.fields
    (fun other hother ↦ h.connectingMade other (mem_of_mem_erase hother)) fun other hother ↦ ?_
  · obtain ⟨hdialed, hmade, hclient, hpool⟩ := h.links link hlink
    refine ⟨hdialed, hmade, hclient, hpool.imp_right fun hdialing ↦ ⟨?_, hdialing.2⟩⟩
    refine (mem_erase_of_ne ?_).mpr hdialing.1
    rintro hsame
    have honce := h.once _ hdialing.1
    rw [hclient, hsame] at honce
    simp at honce
    omega
  · refine Nat.le_trans (Nat.add_le_add_right ?_ _) (h.once other (mem_of_mem_erase hother))
    exact List.Sublist.count_le _ erase_sublist

theorem Invariant.closeLink (link : ℕ) :
    Invariant { state with clients := state.clients.closeLink link } := by
  refine h.update rfl rfl rfl rfl (Sublist.refl _) (fun other hother ↦ ?_) h.fields h.connectingMade
    h.once
  have hne : other ≠ link := by
    rintro rfl
    exact hother (update_self _ _ _)
  have hphase : (state.clients.closeLink link).phase other = state.clients.phase other :=
    update_of_ne hne _ _
  obtain ⟨hdialed, hmade, hclient, hpool⟩ := h.links other (hphase ▸ hother)
  exact ⟨hdialed, hmade, hclient, hpool.imp_right fun hdialing ↦
    ⟨hdialing.1, hphase.trans hdialing.2⟩⟩

/-- An ssh2 connection reports an error, and it is the one that its client has, if any. -/
theorem Invariant.linkFails
    (hown : ∀ other, state.clients.client (state.clients.owner link) = some other → other = link) :
    Invariant (state.linkFails link) := by
  have hclosed := h.closeLink link
  have hfield : ∀ id, (state.linkFails link).clients.client id =
      if id = state.clients.owner link then none else state.clients.client id :=
    fun id ↦ update_apply _ _ _ _
  have hmem : (state.linkFails link).acquiring <+ state.acquiring := by
    simp only [PoolState.linkFails]
    split_ifs
    · exact erase_sublist
    · exact Sublist.refl _
  refine h.update rfl rfl rfl rfl hmem (fun other hother ↦ ?_) (fun id other hother ↦ ?_)
    h.connectingMade fun id hid ↦ ?_
  · obtain ⟨hdialed, hmade, hclient, hpool⟩ := hclosed.links other hother
    have hne : state.clients.owner other ≠ state.clients.owner link := by
      intro hsame
      have hlink : other = link := hown other (hsame ▸ hclient)
      exact hother (hlink ▸ update_self _ _ _)
    refine ⟨hdialed, hmade, ?_, hpool.imp_right fun hdialing ↦ ⟨?_, hdialing.2⟩⟩
    · exact (hfield _).trans ((if_neg hne).trans hclient)
    · simp only [PoolState.linkFails]
      split_ifs
      · exact (mem_erase_of_ne hne).mpr hdialing.1
      · exact hdialing.1
  · rw [hfield] at hother
    split_ifs at hother
    exact h.fields id other hother
  · refine Nat.le_trans (Nat.add_le_add_left ?_ _) (h.once id (hmem.subset hid))
    rw [hfield]
    split_ifs
    · exact Nat.zero_le _
    · exact Nat.le_refl _

/-- A connection is ready that no `acquire` awaits. -/
theorem Invariant.ready (hdialing : state.clients.phase link = .dialing)
    (hnot : state.clients.owner link ∉ state.acquiring) :
    Invariant { state with clients := state.clients.ready link } := by
  refine h.update rfl rfl rfl rfl (Sublist.refl _) (fun other hother ↦ ?_) h.fields h.connectingMade
    h.once
  by_cases hsame : other = link
  · rw [hsame]
    obtain ⟨hdialed, hmade, hclient, hpool⟩ := h.links link (by rw [hdialing]; exact nofun)
    exact ⟨hdialed, hmade, hclient, .inl (hpool.resolve_right fun hacquiring ↦
      hnot hacquiring.1)⟩
  · have hphase : (state.clients.ready link).phase other = state.clients.phase other :=
      update_of_ne hsame _ _
    obtain ⟨hdialed, hmade, hclient, hpool⟩ := h.links other (hphase ▸ hother)
    exact ⟨hdialed, hmade, hclient, hpool.imp_right fun hwaiting ↦
      ⟨hwaiting.1, hphase.trans hwaiting.2⟩⟩

theorem Invariant.holders_eq_zero (hid : id ∈ state.acquiring) : state.holders id = 0 := by
  refine countP_eq_zero.mpr fun wrapper hwrapper hholds ↦ ?_
  exact (h.wrappers wrapper hwrapper).acquired ((of_decide_eq_true hholds).1 ▸ hid)

/-- `acquire` behind its `await`, when its key is free. -/
theorem Invariant.acquired (now : ℕ) (hid : id ∈ state.acquiring)
    (hfree : state.connections.get (getKey (state.clients.options id)) = none) :
    Invariant (state.acquired id now) := by
  set key := getKey (state.clients.options id)
  have hget : ∀ other, (state.acquired id now).connections.get other =
      if other = key then some ⟨id, state.clients.options id, now, 1⟩
      else state.connections.get other := fun other ↦ get_set _ _ _ _
  have hholders : ∀ other, (state.acquired id now).holders other =
      state.holders other + if id = other then 1 else 0 := holders_concat ⟨id, key, false⟩ nofun
  have hgone : id ∉ (state.acquired id now).acquiring := h.acquiring.not_mem_erase
  have hmem : ∀ other ∈ (state.acquired id now).acquiring, other ∈ state.acquiring :=
    fun other hother ↦ mem_of_mem_erase hother
  refine ⟨fun other entry hentry ↦ ?_, fun wrapper hwrapper ↦ ?_, fun link hlink ↦ ?_, h.fields,
    h.acquiring.erase id, fun other hother ↦ h.acquiringMade other (hmem other hother),
    h.connectingMade, fun other hother ↦ h.once other (hmem other hother)⟩
  · rw [hget] at hentry
    by_cases hother : other = key
    · rw [if_pos hother] at hentry
      obtain rfl := some.inj hentry
      refine ⟨hother, h.acquiringMade id hid, hgone, ?_⟩
      rw [hholders, if_pos rfl, h.holders_eq_zero hid]
    · rw [if_neg hother] at hentry
      obtain ⟨hkey, hmade, hacquired, hcount⟩ := h.entries other entry hentry
      refine ⟨hkey, hmade, fun h ↦ hacquired (hmem _ h), ?_⟩
      rw [hholders, if_neg, Nat.add_zero, hcount]
      rintro rfl
      exact hacquired hid
  · rcases mem_append.mp hwrapper with hold | hold
    · obtain ⟨hkey, hmade, hacquired⟩ := h.wrappers wrapper hold
      exact ⟨hkey, hmade, fun h ↦ hacquired (hmem _ h)⟩
    · rw [mem_singleton.mp hold]
      exact ⟨rfl, h.acquiringMade id hid, hgone⟩
  · obtain ⟨hdialed, hmade, hclient, hpool⟩ := h.links link hlink
    refine ⟨hdialed, hmade, hclient, ?_⟩
    by_cases hown : state.clients.owner link = id
    · exact .inl ⟨key, _, (hget key).trans (if_pos rfl), hown.symm⟩
    · refine hpool.imp ?_ fun hdialing ↦ ⟨(mem_erase_of_ne hown).mpr hdialing.1, hdialing.2⟩
      rintro ⟨other, entry, hentry, hclientEq⟩
      refine ⟨other, entry, (hget other).trans ?_, hclientEq⟩
      rw [if_neg, hentry]
      rintro rfl
      nomatch hfree.symm.trans hentry

theorem Invariant.linkReady (now : ℕ) (hdialing : state.clients.phase link = .dialing)
    (hfree : state.clients.owner link ∈ state.acquiring →
      state.connections.get (getKey (state.clients.options (state.clients.owner link))) = none) :
    Invariant (state.linkReady link now) := by
  by_cases hacquiring : state.clients.owner link ∈ state.acquiring
  · have hready := (h.acquired now hacquiring (hfree hacquiring)).ready hdialing
      h.acquiring.not_mem_erase
    simp only [PoolState.linkReady, if_pos hacquiring]
    exact hready
  · simp only [PoolState.linkReady, if_neg hacquiring]
    exact h.ready hdialing hacquiring

end

variable {config : SshConfig}

/-- A step that meets the condition keeps the invariant. -/
theorem Invariant.next (h : Invariant state) {step : Step} {after : PoolState}
    (horderly : state.Orderly config step) (hnext : state.next step = some after) :
    Invariant after := by
  cases step with
  | acquire options now =>
    obtain rfl := some.inj hnext
    exact h.acquire options now
  | reconnect index =>
    obtain ⟨wrapper, hwrapper, hnext⟩ := bind_eq_some_iff.mp hnext
    split_ifs at hnext
    obtain rfl := some.inj hnext
    have hown := h.wrappers wrapper (mem_of_getElem? hwrapper)
    refine h.update rfl rfl rfl rfl (Sublist.refl _) (fun link hlink ↦ ?_) h.fields
      (fun id hid ↦ ?_) fun id hid ↦ ?_
    · obtain ⟨hdialed, hmade, hclient, hpool⟩ := h.links link hlink
      exact ⟨hdialed, hmade, hclient, hpool⟩
    · rcases mem_append.mp hid with hold | hold
      · exact h.connectingMade id hold
      · rw [mem_singleton.mp hold]
        exact hown.made
    · have hne : wrapper.client ≠ id := fun hsame ↦ hown.acquired (hsame ▸ hid)
      show (state.connecting ++ [wrapper.client]).count id + _ ≤ 1
      rw [count_append, count_singleton, if_neg (by simpa using hne), Nat.add_zero]
      exact h.once id hid
  | dial id =>
    simp only [PoolState.next] at hnext
    split_ifs at hnext with hid
    obtain rfl := some.inj hnext
    exact h.dial hid horderly
  | connectThrows id =>
    simp only [PoolState.next] at hnext
    split_ifs at hnext with hid
    obtain rfl := some.inj hnext
    exact h.connectThrows hid
  | ready link now =>
    simp only [PoolState.next] at hnext
    split_ifs at hnext with hlink
    obtain rfl := some.inj hnext
    exact h.linkReady now hlink.2 horderly
  | error link =>
    simp only [PoolState.next] at hnext
    split_ifs at hnext with hlink
    obtain rfl := some.inj hnext
    exact h.linkFails horderly
  | ends link =>
    simp only [PoolState.next] at hnext
    split_ifs at hnext with hlink
    obtain rfl := some.inj hnext
    exact h.closeLink link
  | execFails index =>
    obtain ⟨wrapper, hwrapper, rfl⟩ := map_eq_some_iff.mp hnext
    exact h.execFails hwrapper (horderly wrapper hwrapper)
  | disconnect index now =>
    obtain ⟨wrapper, hwrapper, rfl⟩ := map_eq_some_iff.mp hnext
    exact h.disconnect now hwrapper (horderly wrapper hwrapper)
  | cleanup now =>
    obtain rfl := some.inj hnext
    exact h.cleanup now

/-! ### Connections that are held -/

/-- The wrapper has not been released, and its connection is open. -/
structure Holds (state : PoolState) (wrapper : PooledClient) (link : ℕ) : Prop where
  mem : wrapper ∈ state.wrappers
  unreleased : ¬ wrapper.released
  client : state.clients.client wrapper.client = some link
  opened : state.clients.phase link = .opened

section

variable {link : ℕ} (h : state.Holds wrapper link) (hinvariant : Invariant state)
include h hinvariant

/-- Closing another client leaves the connection open. -/
theorem Holds.close (key : String) (hother : entry.client ≠ wrapper.client) :
    (state.close key entry).Holds wrapper link := by
  refine ⟨h.mem, h.unreleased, ?_, ?_⟩
  · rw [PoolState.close, Clients.client_disconnect, update_of_ne hother.symm]
    exact h.client
  · rw [PoolState.close, Clients.phase_disconnect, if_neg, h.opened]
    intro hlink
    have hown := (hinvariant.fields _ _ hlink).2
    rw [(hinvariant.fields _ _ h.client).2] at hown
    exact hother hown.symm

/-- A turn of `cleanup` closes no connection that is held. -/
theorem Holds.reap (now : ℕ) {entry : String × PoolEntry}
    (hentry : state.connections.get entry.1 = some entry.2) :
    (reap now state entry).Holds wrapper link := by
  rcases reap_cases now entry with hsame | ⟨hclose, hidle⟩
  · exact hsame ▸ h
  · refine hclose ▸ h.close hinvariant entry.1 ?_
    intro hclient
    rcases hidle with hdead | hzero
    · rw [hclient, Clients.isConnected, h.client] at hdead
      exact hdead rfl
    · rw [(hinvariant.entries _ _ hentry).refCount] at hzero
      refine countP_eq_zero.mp hzero wrapper h.mem (decide_eq_true ⟨hclient.symm, h.unreleased⟩)

/-- A tick of the timer closes no connection that is held. -/
theorem Holds.cleanup (now : ℕ) : (state.cleanup now).Holds wrapper link := by
  refine (cleanup_induction (fun state ↦ state.Holds wrapper link ∧ Invariant state) now ?_
    ⟨h, hinvariant⟩).1
  exact fun before hbefore entry hentry ↦
    ⟨hbefore.1.reap hbefore.2 now hentry, hbefore.2.reap now hentry⟩

end

section

variable (h : Invariant state) {step : Step} (horderly : state.Orderly config step)

include h horderly

/-- A step that meets the condition closes no connection that a wrapper of another client holds. -/
theorem Invariant.keepsHeld : state.KeepsHeld step := by
  intro wrapper hwrapper hunreleased link hclient hopened source hsource hother after hnext
  have hholds : state.Holds wrapper link := ⟨hwrapper, hunreleased, hclient, hopened⟩
  cases step with
  | cleanup now =>
    obtain rfl := some.inj hnext
    exact (hholds.cleanup h now).opened
  | execFails index =>
    obtain ⟨failing, hfailing, rfl⟩ := map_eq_some_iff.mp hnext
    obtain ⟨_, hsame, rfl⟩ := map_eq_some_iff.mp hsource
    obtain rfl := some.inj (hfailing.symm.trans hsame)
    simp only [PoolState.execFails]
    split_ifs with hconnected
    · exact hopened
    · unfold evict
      split
      · next entry hentry =>
        have hfinds := horderly failing hfailing hconnected entry hentry
        refine (hholds.close h failing.key ?_).opened
        rw [hfinds]
        exact fun hclients ↦ hother (congrArg some hclients)
      · exact hopened
  | disconnect index now =>
    obtain ⟨released, hreleased, rfl⟩ := map_eq_some_iff.mp hnext
    simp only [PoolState.disconnect]
    split_ifs
    · exact hopened
    · unfold release
      split <;> exact hopened
  | acquire _ _ | reconnect _ | dial _ | connectThrows _ | ready _ _ | error _ | ends _ =>
    nomatch hsource

/-- A connection is reused for its own credentials, if its key determines them. -/
theorem Invariant.reusesOwn : state.ReusesOwn config step := by
  rintro options now rfl - entry hentry -
  have hown := h.entries _ entry hentry
  exact horderly entry.client hown.made hown.key.symm

end

/-- The pool owns its connections in every run whose steps meet the condition. -/
theorem ownsConnections (config : SshConfig) (steps : List Step)
    (horderly : machine.Meets (Orderly config) PoolState.initial steps) :
    OwnsConnections config steps := by
  have hinvariant : ∀ before, before <+: steps → ∀ state,
      machine.run PoolState.initial before = some state → Invariant state := by
    rintro before ⟨rest, rfl⟩ state hrun
    have hbefore := (Machine.meets_append.mp horderly).1
    exact Machine.induction_of_meets (motive := fun _ state ↦ Invariant state) Invariant.initial
      (fun _ _ _ _ _ h hcondition hnext ↦ h.next hcondition hnext) hrun hbefore
  have hcondition := Machine.meets_iff.mp horderly
  refine ⟨fun before hbegins state hrun ↦ (hinvariant before hbegins state hrun).owned, ?_, ?_⟩
  · refine Machine.meets_iff.mpr fun before step hbegins state hrun ↦ ?_
    exact (hinvariant before ((prefix_append _ _).trans hbegins) state hrun).keepsHeld
      (hcondition before step hbegins state hrun)
  · refine Machine.meets_iff.mpr fun before step hbegins state hrun ↦ ?_
    exact (hinvariant before ((prefix_append _ _).trans hbegins) state hrun).reusesOwn
      (hcondition before step hbegins state hrun)

def webHost : SSHClientOptions :=
  ⟨"10.0.0.5", none, some "deploy", none, some "key"⟩

/-- Two connections one after the other: the first one is released before it drops. -/
def webRun : List Step :=
  [.acquire webHost 0, .dial 0, .ready 0 1, .acquire webHost 2, .disconnect 0 3, .disconnect 1 4,
    .error 0, .acquire webHost 5, .dial 1, .ready 1 6, .cleanup 7]

theorem orderly_of_decide (state : PoolState) (step : Step)
    (h : decide (Orderly config state step) = true) : Orderly config state step :=
  of_decide_eq_true h

/-- Every step of this run meets the condition. -/
theorem ownsConnections_webRun : OwnsConnections ⟨"root", none⟩ webRun :=
  ownsConnections ⟨"root", none⟩ webRun
    (Machine.meets_of_checks orderly_of_decide (by decide +kernel))

/-- Two calls of `acquire` that connect at once. -/
def racingRun : List Step :=
  [.acquire webHost 0, .acquire webHost 0, .dial 0, .dial 1, .ready 0 1, .ready 1 1]

/-- The first of two connections that are made at once is open and not in the pool. -/
theorem not_ownsConnections : ¬ OwnsConnections ⟨"root", none⟩ racingRun := by
  intro h
  have howned := h.owned racingRun prefix_rfl _ rfl
  have hpooled := (howned.pooled 0 (by decide +kernel)).2
  exact absurd hpooled (by decide +kernel)

/-- An entry that is left behind the turns for some entries, and had a turn, is in use. -/
theorem get_foldl_reap {now : ℕ} {entries : List (String × PoolEntry)}
    (hleft : (entries.foldl (reap now) state).connections.get key = some entry) :
    state.connections.get key = some entry ∧
      ((key, entry) ∈ entries → entry.refCount = 0 → now - entry.lastUsedAt ≤ maxIdleMs) := by
  induction entries generalizing state with
  | nil => exact ⟨hleft, fun h ↦ absurd h not_mem_nil⟩
  | cons first rest ih =>
    obtain ⟨hget, hrest⟩ := ih hleft
    have hturn : state.connections.get key = some entry ∧ (key = first.1 →
        first.2.refCount = 0 → now - first.2.lastUsedAt ≤ maxIdleMs) := by
      have hdelete (h : (state.connections.delete first.1).get key = some entry) :
          key ≠ first.1 ∧ state.connections.get key = some entry := by
        rw [get_delete] at h
        exact Option.ite_none_left_eq_some.mp h
      unfold reap at hget
      split_ifs at hget with hconnected hidle
      · exact ⟨(hdelete hget).2, fun h ↦ absurd h (hdelete hget).1⟩
      · exact ⟨hget, fun _ hzero ↦ not_lt.mp fun h ↦ hidle ⟨hzero, h⟩⟩
      · exact ⟨(hdelete hget).2, fun h ↦ absurd h (hdelete hget).1⟩
    refine ⟨hturn.1, fun hmem ↦ (mem_cons.mp hmem).elim ?_ hrest⟩
    rintro rfl
    exact hturn.2 rfl

/-- After a tick of the timer, a connection that is open is in the pool, and is held or has been
used of late, in every run whose steps meet the condition. -/
theorem opened_cleanup (config : SshConfig) (steps : List Step)
    (horderly : machine.Meets (Orderly config) initial steps)
    (hrun : machine.run initial steps = some state) (now : ℕ)
    (hopened : (state.cleanup now).clients.phase link = .opened) :
    ∃ key entry, (state.cleanup now).connections.get key = some entry ∧
      entry.client = (state.cleanup now).clients.owner link ∧
      ((state.cleanup now).holders entry.client = 0 → now - entry.lastUsedAt ≤ maxIdleMs) := by
  have h : Invariant state := Machine.induction_of_meets
    (motive := fun _ state ↦ Invariant state) Invariant.initial
    (fun _ _ _ _ _ h hcondition hnext ↦ h.next hcondition hnext) hrun horderly
  obtain ⟨key, entry, hleft, hclient⟩ := ((h.cleanup now).owned.pooled link hopened).2
  obtain ⟨hget, hused⟩ := get_foldl_reap hleft
  refine ⟨key, entry, hleft, hclient, fun hnone ↦ ?_⟩
  exact hused ((state.connections.mem_entries_iff key entry).mpr hget)
    (((h.cleanup now).entries key entry hleft).refCount.trans hnone)

theorem opened_cleanup_webRun : ∃ state key entry,
    machine.run initial (webRun.take 3) = some state ∧
      (state.cleanup 2).connections.get key = some entry ∧
        entry.client = (state.cleanup 2).clients.owner 0 ∧
          ((state.cleanup 2).holders entry.client = 0 → 2 - entry.lastUsedAt ≤ maxIdleMs) := by
  obtain ⟨key, entry, h⟩ := opened_cleanup ⟨"root", none⟩ (webRun.take 3)
    (Machine.meets_of_checks orderly_of_decide (by decide +kernel)) rfl 2
    (show (cleanup _ 2).clients.phase 0 = _ by decide +kernel)
  exact ⟨_, key, entry, rfl, h⟩

end PoolState

end Bridgeport.Ssh
