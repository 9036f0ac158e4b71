import Bridgeport.Deploy.DeployService

/-!
# The published ports of a deployment

A deployment turns the stored ports of a service deployment into port entries of its compose file
(`serializeExposedPorts`), and drift detection compares the stored ports with those that the
container reports (`expectedPortsFor`, `portKeySet`). A stored port without a host port is published
under its container port, but expected to have no host port.

What docker compose and the image add is a parameter: `readPort` reads a port entry of a compose
file, and an image exposes ports on its own. `portsMatch_iff` says when a container of the generated
entries reports the expected ports.
-/

namespace Bridgeport.Deploy

open List

/-! ### The stored ports -/

structure ExposedPort where
  host : Option ℤ
  container : ℤ
  (protocol hostIp : Option String)

/-- `VALID_PROTOCOLS`. -/
def validProtocols : List String := ["tcp", "udp", "sctp"]

variable (hostIp : Option String)

def isWildcardHostIp : Bool :=
  match hostIp.filter (· ≠ "") with
  | none => true
  | some hostIp => hostIp = "0.0.0.0" || hostIp = "::"

def formatHostIpPrefix : String :=
  if isWildcardHostIp hostIp then ""
  else
    let address := hostIp.getD ""
    if ':' ∈ address.toList then "[" ++ address ++ "]:" else address ++ ":"

/-- A port number that is published. -/
def IsPort (port : ℤ) : Prop :=
  0 < port ∧ port ≤ 65535

instance (port : ℤ) : Decidable (IsPort port) :=
  inferInstanceAs (Decidable (_ ∧ _))

/-- `toLowerCase`, for the letters of a protocol. -/
def toLowerCase (text : String) : String :=
  String.ofList (text.toList.map Char.toLower)

variable (entry : ExposedPort)

def publishedProtocol : String :=
  let rawProtocol := match entry.protocol with
    | some protocol => toLowerCase protocol
    | none => "tcp"
  if rawProtocol ∈ validProtocols then rawProtocol else "tcp"

def publishedPort : Option (ℤ × ℤ × String) :=
  if IsPort entry.container then
    match entry.host with
    | none => some (entry.container, entry.container, publishedProtocol entry)
    | some host =>
      if IsPort host then some (host, entry.container, publishedProtocol entry) else none
  else none

/-- `${prefix}${host}:${container}${suffix}`. -/
def portString (port : ℤ × ℤ × String) : String :=
  formatHostIpPrefix hostIp ++ toString port.1 ++ ":" ++ toString port.2.1 ++
    (if port.2.2 = "tcp" then "" else "/" ++ port.2.2)

def serializeEntry : Option String :=
  (publishedPort entry).map (portString entry.hostIp)

/-- The turn of the loop, which drops an entry that has been seen. -/
def addPortString (result : List String) (entry : ExposedPort) : List String :=
  match serializeEntry entry with
  | some text => if text ∈ result then result else result ++ [text]
  | none => result

def serializeExposedPorts (exposedPorts : List ExposedPort) : List String :=
  exposedPorts.foldl addPortString []

variable {entry : ExposedPort} {text : String} {result : List String}

theorem mem_addPortString :
    text ∈ addPortString result entry ↔ text ∈ result ∨ serializeEntry entry = some text := by
  unfold addPortString
  cases hentry : serializeEntry entry with
  | none => simp
  | some added =>
    by_cases hseen : added ∈ result
    · simp only [if_pos hseen, Option.some.injEq]
      constructor
      · exact .inl
      · rintro (hmem | rfl)
        · exact hmem
        · exact hseen
    · simp [if_neg hseen, eq_comm]

variable {exposedPorts : List ExposedPort}

theorem mem_foldl_addPortString : text ∈ exposedPorts.foldl addPortString result ↔
      text ∈ result ∨ ∃ entry ∈ exposedPorts, serializeEntry entry = some text := by
  induction exposedPorts generalizing result with
  | nil => simp
  | cons entry rest ih =>
    rw [foldl_cons, ih, mem_addPortString]
    simp [or_assoc]

/-- The generated entries are those of the stored ports. -/
theorem mem_serializeExposedPorts : text ∈ serializeExposedPorts exposedPorts ↔
      ∃ entry ∈ exposedPorts, serializeEntry entry = some text := by
  unfold serializeExposedPorts
  rw [mem_foldl_addPortString]
  simp

/-! ### The expected ports -/

structure PortMapping where
  host : Option ℤ
  container : ℤ
  protocol : Option String

def expectedPortsFor (exposedPorts : List ExposedPort) : List PortMapping :=
  exposedPorts.map fun entry ↦ ⟨entry.host, entry.container, entry.protocol⟩

/-- What identifies a mapping: the text `${host ?? 'null'}:${container}/${protocol}`. -/
def portKey (port : PortMapping) : Option ℤ × ℤ × String :=
  (port.host, port.container, toLowerCase (orElse port.protocol "tcp"))

def portKeySet (ports : List PortMapping) : Finset (Option ℤ × ℤ × String) :=
  (ports.map portKey).toFinset

def setsEqual {α : Type*} [DecidableEq α] (first second : Finset α) : Bool :=
  if first.card ≠ second.card then false else decide (∀ value ∈ first, value ∈ second)

theorem setsEqual_iff {α : Type*} [DecidableEq α] {first second : Finset α} :
    setsEqual first second = true ↔ first = second := by
  unfold setsEqual
  constructor
  · intro h
    by_cases hcard : first.card = second.card
    · rw [if_neg (not_not.mpr hcard), decide_eq_true_eq] at h
      exact Finset.eq_of_subset_of_card_le h hcard.ge
    · rw [if_pos hcard] at h
      nomatch h
  · rintro rfl
    simp

def expectedProtocol (entry : ExposedPort) : String :=
  toLowerCase (orElse entry.protocol "tcp")

variable {key : Option ℤ × ℤ × String}

theorem mem_portKeySet_expectedPortsFor : key ∈ portKeySet (expectedPortsFor exposedPorts) ↔
      ∃ entry ∈ exposedPorts, (entry.host, entry.container, expectedProtocol entry) = key := by
  simp [portKeySet, expectedPortsFor, portKey, expectedProtocol]

theorem toLowerCase_of_mem_validProtocols {protocol : String} (h : protocol ∈ validProtocols) :
    toLowerCase protocol = protocol := by
  simp only [validProtocols, mem_cons, not_mem_nil, or_false] at h
  rcases h with rfl | rfl | rfl <;> decide

theorem orElse_of_ne (h : text ≠ "") (default : String) : orElse (some text) default = text := by
  simp [orElse, Option.filter, h]

theorem publishedProtocol_eq (entry : ExposedPort) :
    publishedProtocol entry =
      if expectedProtocol entry ∈ validProtocols then expectedProtocol entry else "tcp" := by
  unfold publishedProtocol expectedProtocol
  cases hprotocol : entry.protocol with
  | none => decide
  | some protocol =>
    by_cases hempty : protocol = ""
    · rw [hempty]
      decide
    · rw [orElse_of_ne hempty]

theorem publishedProtocol_mem (entry : ExposedPort) : publishedProtocol entry ∈ validProtocols := by
  rw [publishedProtocol_eq]
  split_ifs with hvalid
  · exact hvalid
  · exact mem_cons_self

theorem isPort_of_publishedPort {port : ℤ × ℤ × String} (h : publishedPort entry = some port) :
    IsPort port.1 ∧ IsPort port.2.1 ∧ port.2.2 ∈ validProtocols := by
  unfold publishedPort at h
  by_cases hcontainer : IsPort entry.container
  · rw [if_pos hcontainer] at h
    cases hhost : entry.host with
    | none =>
      rw [hhost] at h
      obtain rfl := Option.some.inj h
      exact ⟨hcontainer, hcontainer, publishedProtocol_mem entry⟩
    | some host =>
      simp only [hhost] at h
      obtain ⟨hvalid, hport⟩ := Option.ite_none_right_eq_some.mp h
      obtain rfl := Option.some.inj hport
      exact ⟨hvalid, hcontainer, publishedProtocol_mem entry⟩
  · rw [if_neg hcontainer] at h
    nomatch h

/-! ### The ports of a container -/

/-- An entry of `NetworkSettings.Ports`: a port of the container with the host ports and addresses
that it is bound to. -/
structure NetworkPort where
  container : ℤ
  protocol : String
  bindings : List (Option ℤ × Option String)

/-- The ports of `getContainerInfo`. -/
def portsOf (networkPorts : List NetworkPort) : List PortMapping :=
  networkPorts.flatMap fun port ↦
    if port.bindings = [] then [⟨none, port.container, some (orElse (some port.protocol) "tcp")⟩]
    else port.bindings.map fun binding ↦
      ⟨binding.1, port.container, some (orElse (some port.protocol) "tcp")⟩

/-- A reader of port entries reads what the generator writes, or refuses it. -/
def ReadsPorts (readPort : String → Option (ℤ × ℤ × String)) : Prop :=
  ∀ hostIp port, IsPort port.1 → IsPort port.2.1 → port.2.2 ∈ validProtocols →
    readPort (portString hostIp port) = none ∨ readPort (portString hostIp port) = some port

/-- A container has the ports that the entries of its compose file publish, and those that its image
exposes and no entry publishes. -/
structure PublishesPorts (readPort : String → Option (ℤ × ℤ × String)) (exposes : List (ℤ × String))
    (entries : List String) (networkPorts : List NetworkPort) : Prop where
  readable : ∀ text ∈ entries, (readPort text).isSome
  published : ∀ host container protocol,
    (∃ port ∈ networkPorts, port.container = container ∧ port.protocol = protocol ∧
      ∃ hostIp, (host, hostIp) ∈ port.bindings) ↔
    ∃ number, host = some number ∧
      ∃ text ∈ entries, readPort text = some (number, container, protocol)
  unpublished : ∀ container protocol,
    (∃ port ∈ networkPorts, port.container = container ∧ port.protocol = protocol ∧
      port.bindings = []) ↔
    (container, protocol) ∈ exposes ∧
      ∀ number, ∀ text ∈ entries, readPort text ≠ some (number, container, protocol)

/-- The ports that an image exposes are port numbers with a protocol. -/
def ExposesPorts (exposes : List (ℤ × String)) : Prop :=
  ∀ port ∈ exposes, IsPort port.1 ∧ port.2 ∈ validProtocols

theorem mem_portKeySet_portsOf {networkPorts : List NetworkPort} :
    key ∈ portKeySet (portsOf networkPorts) ↔ ∃ port ∈ networkPorts,
      (key.1 = none ∧ port.bindings = [] ∨ ∃ hostIp, (key.1, hostIp) ∈ port.bindings) ∧
        port.container = key.2.1 ∧ toLowerCase (orElse (some port.protocol) "tcp") = key.2.2 := by
  have hprotocol (protocol : String) : orElse (some (orElse (some protocol) "tcp")) "tcp" =
      orElse (some protocol) "tcp" := by
    by_cases hempty : protocol = ""
    · rw [hempty]
      decide
    · rw [orElse_of_ne hempty, orElse_of_ne hempty]
  obtain ⟨host, container, protocol⟩ := key
  simp only [portKeySet, portsOf, mem_toFinset, mem_map, mem_flatMap]
  constructor
  · rintro ⟨mapping, ⟨port, hport, hmapping⟩, hkey⟩
    by_cases hbindings : port.bindings = []
    · rw [if_pos hbindings, mem_singleton] at hmapping
      rw [hmapping, portKey, hprotocol, Prod.mk.injEq, Prod.mk.injEq] at hkey
      exact ⟨port, hport, .inl ⟨hkey.1.symm, hbindings⟩, hkey.2⟩
    · rw [if_neg hbindings] at hmapping
      obtain ⟨binding, hbinding, rfl⟩ := mem_map.mp hmapping
      rw [portKey, hprotocol, Prod.mk.injEq, Prod.mk.injEq] at hkey
      exact ⟨port, hport, .inr ⟨binding.2, hkey.1 ▸ hbinding⟩, hkey.2⟩
  · rintro ⟨port, hport, hhost, hcontainer, hlower⟩
    refine ⟨⟨host, port.container, some (orElse (some port.protocol) "tcp")⟩, ⟨port, hport, ?_⟩, ?_⟩
    · rcases hhost with ⟨hnone, hbindings⟩ | ⟨hostIp, hbinding⟩
      · rw [if_pos hbindings, mem_singleton]
        exact congrArg (fun host ↦ PortMapping.mk host _ _) hnone
      · rw [if_neg (ne_nil_of_mem hbinding)]
        exact mem_map.mpr ⟨(host, hostIp), hbinding, rfl⟩
    · rw [portKey, hprotocol, hcontainer, hlower]

/-! ### When the ports agree -/

section

variable {readPort : String → Option (ℤ × ℤ × String)} {exposes : List (ℤ × String)}
  {exposedPorts : List ExposedPort} {networkPorts : List NetworkPort}

theorem exists_readPort_iff (hreads : ReadsPorts readPort)
    (hreadable : ∀ text ∈ serializeExposedPorts exposedPorts, (readPort text).isSome)
    (port : ℤ × ℤ × String) :
    (∃ text ∈ serializeExposedPorts exposedPorts, readPort text = some port) ↔
      ∃ entry ∈ exposedPorts, publishedPort entry = some port := by
  have hread {entry : ExposedPort} (hentry : entry ∈ exposedPorts) {published : ℤ × ℤ × String}
      (hpublished : publishedPort entry = some published) :
      portString entry.hostIp published ∈ serializeExposedPorts exposedPorts ∧
        readPort (portString entry.hostIp published) = some published := by
    have hmem : portString entry.hostIp published ∈ serializeExposedPorts exposedPorts := by
      refine mem_serializeExposedPorts.mpr ⟨entry, hentry, ?_⟩
      rw [serializeEntry, hpublished, Option.map_some]
    obtain ⟨hhost, hcontainer, hprotocol⟩ := isPort_of_publishedPort hpublished
    refine ⟨hmem, (hreads entry.hostIp published hhost hcontainer hprotocol).resolve_left ?_⟩
    exact Option.isSome_iff_ne_none.mp (hreadable _ hmem)
  constructor
  · rintro ⟨text, htext, hport⟩
    obtain ⟨entry, hentry, hserialized⟩ := mem_serializeExposedPorts.mp htext
    obtain ⟨published, hpublished, rfl⟩ := Option.map_eq_some_iff.mp hserialized
    have hsame := (hread hentry hpublished).2.symm.trans hport
    exact ⟨entry, hentry, hpublished.trans hsame⟩
  · rintro ⟨entry, hentry, hpublished⟩
    exact ⟨_, hread hentry hpublished⟩

theorem mem_reported_iff (hreads : ReadsPorts readPort) (hexposes : ExposesPorts exposes)
    (hpublishes : PublishesPorts readPort exposes (serializeExposedPorts exposedPorts) networkPorts)
    (key : Option ℤ × ℤ × String) : key ∈ portKeySet (portsOf networkPorts) ↔
      (∃ number, key.1 = some number ∧
        ∃ entry ∈ exposedPorts, publishedPort entry = some (number, key.2)) ∨
      (key.1 = none ∧ key.2 ∈ exposes ∧
        ∀ number, ¬ ∃ entry ∈ exposedPorts, publishedPort entry = some (number, key.2)) := by
  have hpublished := exists_readPort_iff hreads hpublishes.readable
  have hlower {protocol : String} (hvalid : protocol ∈ validProtocols) :
      toLowerCase (orElse (some protocol) "tcp") = protocol := by
    have hne : protocol ≠ "" := by
      rintro rfl
      exact absurd hvalid (by decide)
    rw [orElse_of_ne hne, toLowerCase_of_mem_validProtocols hvalid]
  obtain ⟨host, container, protocol⟩ := key
  rw [mem_portKeySet_portsOf]
  dsimp only
  constructor
  · rintro ⟨port, hport, ⟨hnone, hbindings⟩ | ⟨hostIp, hbinding⟩, rfl, hprotocol⟩
    · obtain ⟨hexposed, hunread⟩ :=
        (hpublishes.unpublished _ _).mp ⟨port, hport, rfl, rfl, hbindings⟩
      rw [hlower (hexposes _ hexposed).2] at hprotocol
      rw [← hprotocol]
      refine .inr ⟨hnone, hexposed, fun number hentry ↦ ?_⟩
      obtain ⟨text, htext, hread⟩ := (hpublished _).mpr hentry
      exact hunread number text htext hread
    · obtain ⟨number, hnumber, hread⟩ :=
        (hpublishes.published _ _ _).mp ⟨port, hport, rfl, rfl, hostIp, hbinding⟩
      obtain ⟨entry, hentry, hport⟩ := (hpublished _).mp hread
      rw [hlower (isPort_of_publishedPort hport).2.2] at hprotocol
      rw [← hprotocol]
      exact .inl ⟨number, hnumber, entry, hentry, hport⟩
  · rintro (⟨number, hnumber, entry, hentry, hport⟩ | ⟨hnone, hexposed, hunpublished⟩)
    · obtain ⟨port, hmem, rfl, rfl, hostIp, hbinding⟩ :=
        (hpublishes.published host container protocol).mpr
          ⟨number, hnumber, (hpublished _).mpr ⟨entry, hentry, hport⟩⟩
      exact ⟨port, hmem, .inr ⟨hostIp, hbinding⟩, rfl, hlower (isPort_of_publishedPort hport).2.2⟩
    · obtain ⟨port, hmem, rfl, rfl, hbindings⟩ := (hpublishes.unpublished container protocol).mpr
        ⟨hexposed, fun number text htext hread ↦
          hunpublished number ((hpublished _).mp ⟨text, htext, hread⟩)⟩
      exact ⟨port, hmem, .inl ⟨hnone, hbindings⟩, rfl, hlower (hexposes _ hexposed).2⟩

/-- Every stored port has a host port, its numbers are port numbers and its protocol is valid, and
the stored ports include those that the image exposes. -/
structure PortsAgree (exposedPorts : List ExposedPort) (exposes : List (ℤ × String)) : Prop where
  valid : ∀ entry ∈ exposedPorts, ∃ host, entry.host = some host ∧ IsPort host ∧
    IsPort entry.container ∧ expectedProtocol entry ∈ validProtocols
  exposed : ∀ port ∈ exposes, ∃ entry ∈ exposedPorts, (entry.container, expectedProtocol entry) = port

theorem PortsAgree.publishedPort (hagree : PortsAgree exposedPorts exposes)
    (hentry : entry ∈ exposedPorts) : ∃ host, entry.host = some host ∧
      publishedPort entry = some (host, entry.container, expectedProtocol entry) := by
  obtain ⟨host, hhost, hport, hcontainer, hprotocol⟩ := hagree.valid entry hentry
  refine ⟨host, hhost, ?_⟩
  unfold Deploy.publishedPort
  rw [hhost, if_pos hcontainer, publishedProtocol_eq, if_pos hprotocol]
  exact if_pos hport

section

variable (hreads : ReadsPorts readPort) (hexposes : ExposesPorts exposes)
  (hpublishes : PublishesPorts readPort exposes (serializeExposedPorts exposedPorts) networkPorts)
include hreads hexposes hpublishes

/-- A stored port without a host port is never reported as it is expected. -/
theorem not_mem_reported_of_host_none (hentry : entry ∈ exposedPorts) (hhost : entry.host = none) :
    (entry.host, entry.container, expectedProtocol entry) ∉ portKeySet (portsOf networkPorts) := by
  rw [mem_reported_iff hreads hexposes hpublishes, hhost]
  rintro (⟨number, hnumber, -⟩ | ⟨-, hexposed, hunpublished⟩)
  · nomatch hnumber
  · obtain ⟨hcontainer, hprotocol⟩ := hexposes _ hexposed
    refine hunpublished entry.container ⟨entry, hentry, ?_⟩
    unfold publishedPort
    rw [if_pos hcontainer, hhost, publishedProtocol_eq, if_pos hprotocol]

theorem valid_of_reported (hentry : entry ∈ exposedPorts)
    (hkey : (entry.host, entry.container, expectedProtocol entry) ∈
      portKeySet (portsOf networkPorts)) :
    ∃ host, entry.host = some host ∧ IsPort host ∧ IsPort entry.container ∧
      expectedProtocol entry ∈ validProtocols := by
  cases hhost : entry.host with
  | none =>
    exact absurd hkey (not_mem_reported_of_host_none hreads hexposes hpublishes hentry hhost)
  | some host =>
    rcases (mem_reported_iff hreads hexposes hpublishes _).mp hkey with
      ⟨number, hnumber, other, -, hother⟩ | ⟨hnone, -⟩
    · obtain rfl := Option.some.inj (hhost.symm.trans hnumber)
      exact ⟨host, rfl, isPort_of_publishedPort hother⟩
    · nomatch hhost.symm.trans hnone

theorem portsMatch_iff :
    setsEqual (portKeySet (expectedPortsFor exposedPorts)) (portKeySet (portsOf networkPorts)) =
      true ↔ PortsAgree exposedPorts exposes := by
  have hreported := mem_reported_iff hreads hexposes hpublishes
  rw [setsEqual_iff]
  constructor
  · intro hsame
    have hvalid : ∀ entry ∈ exposedPorts, ∃ host, entry.host = some host ∧ IsPort host ∧
        IsPort entry.container ∧ expectedProtocol entry ∈ validProtocols := by
      intro entry hentry
      refine valid_of_reported hreads hexposes hpublishes hentry ?_
      rw [← hsame]
      exact mem_portKeySet_expectedPortsFor.mpr ⟨entry, hentry, rfl⟩
    refine ⟨hvalid, fun port hexposed ↦ ?_⟩
    by_contra hmissing
    -- no entry publishes the port, so the container reports it without a host port
    have hunpublished : ∀ number, ¬ ∃ entry ∈ exposedPorts,
        publishedPort entry = some (number, port) := by
      rintro number ⟨entry, hentry, hport⟩
      have hagree : PortsAgree exposedPorts [] := ⟨hvalid, nofun⟩
      obtain ⟨host, hhost, hpublished⟩ := hagree.publishedPort hentry
      have hsameport := Option.some.inj (hpublished.symm.trans hport)
      exact hmissing ⟨entry, hentry, (Prod.mk.inj hsameport).2⟩
    have hkey := (hreported (none, port)).mpr (.inr ⟨rfl, hexposed, hunpublished⟩)
    rw [← hsame] at hkey
    obtain ⟨entry, hentry, hsamekey⟩ := mem_portKeySet_expectedPortsFor.mp hkey
    exact hmissing ⟨entry, hentry, (Prod.mk.inj hsamekey).2⟩
  · intro hagree
    ext key
    rw [mem_portKeySet_expectedPortsFor, hreported]
    constructor
    · rintro ⟨entry, hentry, rfl⟩
      obtain ⟨host, hhost, hpublished⟩ := hagree.publishedPort hentry
      exact .inl ⟨host, hhost, entry, hentry, hpublished⟩
    · rintro (⟨number, hnumber, entry, hentry, hport⟩ | ⟨-, hexposed, hunpublished⟩)
      · obtain ⟨host, hhost, hpublished⟩ := hagree.publishedPort hentry
        obtain ⟨rfl, hsameport⟩ := Prod.mk.inj (Option.some.inj (hpublished.symm.trans hport))
        refine ⟨entry, hentry, ?_⟩
        rw [hhost, hsameport, ← hnumber]
      · obtain ⟨entry, hentry, hsameport⟩ := hagree.exposed _ hexposed
        obtain ⟨host, hhost, hpublished⟩ := hagree.publishedPort hentry
        refine absurd ⟨entry, hentry, ?_⟩ (hunpublished host)
        rw [hpublished, hsameport]

end

end

end Bridgeport.Deploy
