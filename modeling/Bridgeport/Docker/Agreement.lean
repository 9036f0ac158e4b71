import Bridgeport.Docker.Inspect

/-!
# Agreement of the Docker clients

`clientsAgree_iff` says for which containers the SSH client reports what the socket client does. The
line of the command has to be read back field by field, and nothing in it may look like the line for
a missing container: an image whose name contains `not_found` is enough to hide a running container.
The status text agrees only where the state says the same as the running flag, which a paused
container breaks.
-/

namespace Bridgeport.Docker

open Foundation Secrets ConfigSync List

/-! ### Lines of fields -/

theorem not_isTrimmed_bar : ¬ isTrimmed '|' = true := by decide

section

variable {α : Type*} {blank : α → Bool} {separator : α} (h : ¬ blank separator)
  (first rest : List α)
include h first rest

/-- The blank characters in front of the first field. -/
theorem dropWhile_append_cons :
    (first ++ separator :: rest).dropWhile blank = first.dropWhile blank ++ separator :: rest := by
  induction first with
  | nil => simp [h]
  | cons head first ih =>
    by_cases hhead : blank head
    · simp [hhead, ih]
    · simp [hhead]

end

theorem numberFree_bindingsJson (bindings : Option (List PortBinding)) :
    (bindingsJson bindings).NumberFree := by
  cases bindings with
  | none => exact trivial
  | some bindings =>
    show Json.AllNumberFree (bindings.map PortBinding.toJson)
    induction bindings with
    | nil => exact trivial
    | cons binding bindings ih => exact ⟨⟨trivial, trivial, trivial⟩, ih⟩

variable (ports : Option (List (Text × Option (List PortBinding))))

theorem numberFree_portsJson : (portsJson ports).NumberFree := by
  cases ports with
  | none => exact trivial
  | some ports =>
    show Json.MembersNumberFree (ports.map fun entry ↦ (entry.1, bindingsJson entry.2))
    induction ports with
    | nil => exact trivial
    | cons entry ports ih => exact ⟨numberFree_bindingsJson entry.2, ih⟩

theorem exists_moreMembers_eq (members : List (List Char × Json)) :
    ∃ before, Json.moreMembers members = before ++ ['}'] := by
  induction members with
  | nil => exact ⟨[], rfl⟩
  | cons entry members ih =>
    obtain ⟨before, hbefore⟩ := ih
    refine ⟨',' :: (Json.quote entry.1 ++ ':' :: (entry.2.stringify ++ before)), ?_⟩
    simp [Json.moreMembers, hbefore]

theorem rdropWhile_portsJson :
    ((portsJson ports).stringify ++ ['\n']).rdropWhile isTrimmed = (portsJson ports).stringify := by
  have hend : ∃ before last, (portsJson ports).stringify = before ++ [last] ∧ ¬ isTrimmed last := by
    match ports with
    | none => exact ⟨['n', 'u', 'l'], 'l', rfl, by decide⟩
    | some [] => exact ⟨['{'], '}', rfl, by decide⟩
    | some (entry :: ports) =>
      obtain ⟨before, hbefore⟩ := exists_moreMembers_eq
        (ports.map fun entry ↦ (entry.1, bindingsJson entry.2))
      refine ⟨'{' :: (Json.quote entry.1 ++ ':' ::
        ((bindingsJson entry.2).stringify ++ before)), '}',
        ?_, by decide⟩
      simp [portsJson, Json.stringify, hbefore]
  obtain ⟨before, last, htext, hlast⟩ := hend
  rw [htext, append_assoc, singleton_append, rdropWhile_append_cons _ hlast]
  rfl

theorem portsOf_bindingsJson (entry : Text × Option (List PortBinding)) :
    DockerSSHClient.portsOf (entry.1, bindingsJson entry.2) = DockerSocketClient.portsOf entry := by
  obtain ⟨key, bindings⟩ := entry
  match bindings with
  | none => rfl
  | some [] => rfl
  | some (first :: bindings) =>
    have hbindings : ((first :: bindings).map PortBinding.toJson).map (fun binding ↦
        boundPort key ⟨DockerSSHClient.stringMember "HostIp" binding,
          DockerSSHClient.stringMember "HostPort" binding⟩) =
        (first :: bindings).map (boundPort key) := by
      rw [map_map]
      refine map_congr_left fun binding _ ↦ ?_
      rfl
    exact hbindings

theorem readPorts_stringify :
    DockerSSHClient.readPorts (portsJson ports).stringify =
      (ports.getD []).flatMap DockerSocketClient.portsOf := by
  unfold DockerSSHClient.readPorts
  rw [Json.parse_stringify (numberFree_portsJson ports)]
  cases ports with
  | none => rfl
  | some ports =>
    show (ports.map fun entry ↦ (entry.1, bindingsJson entry.2)).flatMap DockerSSHClient.portsOf = _
    rw [flatMap_map]
    exact flatMap_congr fun entry _ ↦ portsOf_bindingsJson entry

/-! ### The fields of the lines -/

variable {absent : AbsentHealth} {info : InspectRecord}

/-- The fields in front of the health status. -/
theorem splitOn_trim_line (hstatus : '|' ∉ info.status) (rest : Text) :
    (trimBoth isTrimmed (info.status ++ '|' ::
      (boolText info.running ++ '|' :: rest))).splitOn '|' =
      info.status.dropWhile isTrimmed :: boolText info.running ::
        (rest.rdropWhile isTrimmed).splitOn '|' := by
  rw [trimBoth, dropWhile_append_cons not_isTrimmed_bar, rdropWhile_append_cons _ not_isTrimmed_bar,
    rdropWhile_append_cons _ not_isTrimmed_bar,
    splitOn_append_cons_self_of_not_mem fun h ↦ hstatus ((dropWhile_sublist isTrimmed).subset h),
    splitOn_append_cons_self_of_not_mem (by cases info.running <;> decide)]

theorem decide_boolText (value : Bool) : decide (boolText value = "true".toList) = value := by
  cases value <;> decide

/-- The health status, the image and the ports at the end of the first line. -/
theorem rdropWhile_infoLine (absent : AbsentHealth) (info : InspectRecord) :
    (healthText absent info ++ '|' :: (info.image ++ '|' :: ((portsJson info.ports).stringify ++
      ['\n']))).rdropWhile isTrimmed =
        healthText absent info ++ '|' ::
          (info.image ++ '|' :: (portsJson info.ports).stringify) := by
  rw [rdropWhile_append_cons _ not_isTrimmed_bar, rdropWhile_append_cons _ not_isTrimmed_bar,
    rdropWhile_portsJson]

theorem rdropWhile_healthText (absent : AbsentHealth) (info : InspectRecord) :
    (healthText absent info ++ ['\n']).rdropWhile isTrimmed =
      (healthText absent info).rdropWhile isTrimmed :=
  rdropWhile_concat_pos _ _ _ (by decide)

theorem not_missing {stdout : Text} (h : ¬ DockerSSHClient.reportsNotFound stdout) :
    ¬ ((0 : ℤ) ≠ 0 ∨ DockerSSHClient.reportsNotFound stdout) :=
  not_or.mpr ⟨not_not.mpr rfl, h⟩

/-- What the SSH client reads of a line that does not look like the one for a missing container. -/
theorem sshInfo_of_found (hfound : ¬ DockerSSHClient.reportsNotFound (infoLine absent info))
    (hstatus : '|' ∉ info.status) (hhealth : '|' ∉ healthText absent info)
    (himage : '|' ∉ info.image) :
    DockerSSHClient.getContainerInfo 0 (infoLine absent info) =
      { state := orUnknown (info.status.dropWhile isTrimmed)
        running := info.running
        health := DockerSSHClient.healthOf (healthText absent info)
        ports := (info.ports.getD []).flatMap DockerSocketClient.portsOf
        image := info.image } := by
  have hparts : (trimBoth isTrimmed (infoLine absent info)).splitOn '|' =
      info.status.dropWhile isTrimmed :: boolText info.running :: healthText absent info ::
        info.image :: (portsJson info.ports).stringify.splitOn '|' := by
    rw [infoLine, splitOn_trim_line hstatus, rdropWhile_infoLine,
      splitOn_append_cons_self_of_not_mem hhealth, splitOn_append_cons_self_of_not_mem himage]
  unfold DockerSSHClient.getContainerInfo
  rw [if_neg (not_missing hfound), hparts]
  simp only [getD_cons_zero, getD_cons_succ, drop_succ_cons, drop_zero, decide_boolText,
    intercalate_splitOn, readPorts_stringify]

theorem sshHealth_of_found (hfound : ¬ DockerSSHClient.reportsNotFound (healthLine absent info))
    (hstatus : '|' ∉ info.status) (hhealth : '|' ∉ healthText absent info) :
    DockerSSHClient.getContainerHealth 0 (healthLine absent info) =
      { state := orUnknown (info.status.dropWhile isTrimmed)
        status := if info.status.dropWhile isTrimmed = runningState then "Running".toList
          else "Container is ".toList ++ info.status.dropWhile isTrimmed
        health := DockerSSHClient.healthOf ((healthText absent info).rdropWhile isTrimmed)
        running := info.running } := by
  have htrimmed : '|' ∉ (healthText absent info).rdropWhile isTrimmed := by
    intro hmem
    have hbegins := rdropWhile_prefix isTrimmed (healthText absent info)
    exact hhealth (hbegins.subset hmem)
  have hparts : (trimBoth isTrimmed (healthLine absent info)).splitOn '|' =
      [info.status.dropWhile isTrimmed, boolText info.running,
        (healthText absent info).rdropWhile isTrimmed] := by
    rw [healthLine, splitOn_trim_line hstatus, rdropWhile_healthText, splitOn_eq_singleton htrimmed]
  unfold DockerSSHClient.getContainerHealth
  rw [if_neg (not_missing hfound), hparts]
  simp only [getD_cons_zero, getD_cons_succ, decide_boolText]

/-- The third field is what the SSH client takes for the health status. -/
theorem sshInfo_health (hfound : ¬ DockerSSHClient.reportsNotFound (infoLine absent info))
    (hstatus : '|' ∉ info.status) :
    ∃ raw, '|' ∉ raw ∧ (DockerSSHClient.getContainerInfo 0 (infoLine absent info)).health =
      DockerSSHClient.healthOf raw := by
  have hpiece : ∀ pieces : List Text, (∀ piece ∈ pieces, '|' ∉ piece) → '|' ∉ pieces.getD 0 [] := by
    intro pieces hpieces
    cases pieces with
    | nil => exact not_mem_nil
    | cons piece pieces => exact hpieces piece mem_cons_self
  unfold DockerSSHClient.getContainerInfo
  rw [if_neg (not_missing hfound), infoLine, splitOn_trim_line hstatus]
  exact ⟨_, hpiece _ notMem_of_mem_splitOn, rfl⟩

/-- What looks missing in the second line does so in the first. -/
theorem reportsNotFound_infoLine (h : DockerSSHClient.reportsNotFound (healthLine absent info)) :
    DockerSSHClient.reportsNotFound (infoLine absent info) := by
  have hline : healthLine absent info =
      (info.status ++ '|' :: (boolText info.running ++ '|' :: healthText absent info)) ++ '\n' ::
        [] := by
    simp [healthLine]
  unfold DockerSSHClient.reportsNotFound at h
  rw [hline] at h
  rcases infix_append_cons (by decide) h with hfields | hnothing
  · refine hfields.trans
      ⟨[], '|' :: (info.image ++ '|' :: ((portsJson info.ports).stringify ++ ['\n'])), ?_⟩
    simp [infoLine]
  · exact absurd (infix_nil.mp hnothing) (by decide)

theorem reportsNotFound_of_status (h : info.status = notFound) :
    DockerSSHClient.reportsNotFound (healthLine absent info) := by
  refine ⟨[], '|' :: (boolText info.running ++ '|' :: (healthText absent info ++ ['\n'])), ?_⟩
  rw [healthLine, h]
  rfl

theorem orUnknown_eq_iff {text known : Text} (hne : known ≠ [])
    (hknown : known ≠ "unknown".toList) :
    orUnknown text = known ↔ text = known := by
  unfold orUnknown
  split_ifs with htext
  · rw [htext]
    exact ⟨fun h ↦ absurd h.symm hknown, fun h ↦ absurd h.symm hne⟩
  · exact Iff.rfl

/-- The two status texts begin differently. -/
theorem running_ne_containerIs (text : Text) : "Running".toList ≠ "Container is ".toList ++ text :=
  fun h ↦ absurd (List.cons.inj h).1 (by decide)

theorem containerNotFound_ne_containerIs (text : Text) :
    "Container not found".toList ≠ "Container is ".toList ++ text := by
  intro h
  have htake := congrArg (List.take 13) h
  rw [take_left' (by decide)] at htake
  exact absurd htake (by decide)

/-! ### Agreement -/

/-- Both clients report the same of a container. -/
structure ClientsAgree (absent : AbsentHealth) (info : InspectRecord) : Prop where
  details : DockerSSHClient.getContainerInfo 0 (infoLine absent info) =
    DockerSocketClient.getContainerInfo info
  condition : DockerSSHClient.getContainerHealth 0 (healthLine absent info) =
    DockerSocketClient.getContainerHealth info

/-- The line of the command is read back as the record. -/
structure Readable (absent : AbsentHealth) (info : InspectRecord) : Prop where
  found : ¬ DockerSSHClient.reportsNotFound (infoLine absent info)
  status : info.status ≠ [] ∧ info.status.dropWhile isTrimmed = info.status
  running : info.running = true ↔ info.status = runningState
  health : ∀ status, info.health = some status →
    '|' ∉ status ∧ status ≠ noValueText ∧ status.rdropWhile isTrimmed = status

theorem healthOf_healthText (h : ∀ status, info.health = some status → status ≠ noValueText) :
    DockerSSHClient.healthOf (healthText absent info) = info.health.bind nonempty := by
  unfold healthText
  cases hhealth : info.health with
  | none => cases absent <;> decide
  | some status =>
    show (nonempty status).filter (· ≠ noValueText) = nonempty status
    unfold nonempty
    split_ifs
    · rfl
    · simp [h status hhealth]

theorem Readable.bar_not_mem (h : Readable absent info) : '|' ∉ healthText absent info := by
  unfold healthText
  cases hhealth : info.health with
  | none => cases absent <;> decide
  | some status => exact (h.health status hhealth).1

theorem Readable.rdropWhile_healthText (h : Readable absent info) :
    (healthText absent info).rdropWhile isTrimmed = healthText absent info := by
  unfold healthText
  cases hhealth : info.health with
  | none => cases absent <;> rfl
  | some status => exact (h.health status hhealth).2.2

/-- A container whose lines are read back. -/
theorem Readable.clientsAgree (h : Readable absent info) (hstatus : '|' ∉ info.status)
    (himage : '|' ∉ info.image) : ClientsAgree absent info := by
  have hhealth : DockerSSHClient.healthOf (healthText absent info) = info.health.bind nonempty :=
    healthOf_healthText fun status hsome ↦ (h.health status hsome).2.1
  have hknown : orUnknown info.status = info.status := if_neg h.status.1
  constructor
  · rw [sshInfo_of_found h.found hstatus h.bar_not_mem himage, h.status.2, hhealth]
    rfl
  · rw [sshHealth_of_found (fun hmissing ↦ h.found (reportsNotFound_infoLine hmissing)) hstatus
      h.bar_not_mem, h.status.2, h.rdropWhile_healthText, hhealth]
    unfold DockerSocketClient.getContainerHealth
    rw [hknown]
    by_cases hrunning : info.running
    · rw [if_pos hrunning, if_pos (h.running.mp hrunning)]
    · rw [if_neg hrunning, if_neg fun hstate ↦ hrunning (h.running.mpr hstate)]

/-- A container that both clients report alike does not look missing. -/
theorem ClientsAgree.found (h : ClientsAgree absent info) :
    ¬ DockerSSHClient.reportsNotFound (infoLine absent info) := by
  intro hmissing
  have hinfo := congrArg ContainerDetails.state h.details
  unfold DockerSSHClient.getContainerInfo at hinfo
  rw [if_pos (.inr hmissing)] at hinfo
  have hstate : info.status = notFound := (orUnknown_eq_iff (by decide) (by decide)).mp hinfo.symm
  have hhealth := congrArg ContainerHealth.status h.condition
  unfold DockerSSHClient.getContainerHealth at hhealth
  rw [if_pos (.inr (reportsNotFound_of_status hstate))] at hhealth
  dsimp only [DockerSocketClient.getContainerHealth] at hhealth
  split_ifs at hhealth
  · exact absurd hhealth (by decide)
  · exact containerNotFound_ne_containerIs _ hhealth

theorem eq_of_healthOf {raw status : Text} (hne : status ≠ [])
    (h : DockerSSHClient.healthOf raw = nonempty status) : raw = status ∧ status ≠ noValueText := by
  unfold DockerSSHClient.healthOf nonempty at h
  rw [if_neg hne] at h
  split_ifs at h with hraw
  · nomatch h
  · obtain ⟨hsome, hvalue⟩ := Option.filter_eq_some_iff.mp h
    obtain rfl := Option.some.inj hsome
    exact ⟨rfl, by simpa using hvalue⟩

theorem ClientsAgree.readable_health (h : ClientsAgree absent info) (hstatus : '|' ∉ info.status)
    {status : Text} (hsome : info.health = some status) :
    '|' ∉ status ∧ status ≠ noValueText ∧ status.rdropWhile isTrimmed = status := by
  by_cases hne : status = []
  · rw [hne]
    exact ⟨not_mem_nil, by decide, rfl⟩
  have htext : healthText absent info = status := by rw [healthText, hsome, Option.getD_some]
  have hsocket : info.health.bind nonempty = nonempty status := by rw [hsome]; rfl
  obtain ⟨raw, hbar, hraw⟩ := sshInfo_health h.found hstatus
  rw [congrArg ContainerDetails.health h.details] at hraw
  obtain ⟨rfl, hvalue⟩ := eq_of_healthOf hne (hraw.symm.trans hsocket)
  have hread := sshHealth_of_found
    (fun hmissing ↦ h.found (reportsNotFound_infoLine hmissing)) hstatus
    (htext ▸ hbar)
  rw [h.condition, htext] at hread
  have hhealth := congrArg ContainerHealth.health hread
  exact ⟨hbar, hvalue, (eq_of_healthOf hne (hhealth.symm.trans hsocket)).1⟩

theorem ClientsAgree.readable_status (h : ClientsAgree absent info) (hstatus : '|' ∉ info.status)
    (hhealth : '|' ∉ healthText absent info) :
    (info.status ≠ [] ∧ info.status.dropWhile isTrimmed = info.status) ∧
      (info.running = true ↔ info.status = runningState) := by
  have hread := sshHealth_of_found
    (fun hmissing ↦ h.found (reportsNotFound_infoLine hmissing)) hstatus
    hhealth
  rw [h.condition] at hread
  have hstate : orUnknown info.status = orUnknown (info.status.dropWhile isTrimmed) :=
    congrArg ContainerHealth.state hread
  have htext : (if info.running then "Running".toList else
      "Container is ".toList ++ orUnknown info.status) =
        if info.status.dropWhile isTrimmed = runningState then "Running".toList
          else "Container is ".toList ++ info.status.dropWhile isTrimmed :=
    congrArg ContainerHealth.status hread
  by_cases hrunning : info.running
  · rw [if_pos hrunning] at htext
    split_ifs at htext with htrimmed
    · rw [htrimmed] at hstate
      have hknown : info.status = runningState :=
        (orUnknown_eq_iff (by decide) (by decide)).mp hstate
      refine ⟨⟨by rw [hknown]; decide, htrimmed.trans hknown.symm⟩, fun _ ↦ hknown, fun _ ↦ hrunning⟩
    · exact absurd htext (running_ne_containerIs _)
  · rw [if_neg hrunning] at htext
    split_ifs at htext with htrimmed
    · exact absurd htext.symm (running_ne_containerIs _)
    · have hsame : orUnknown info.status = info.status.dropWhile isTrimmed :=
        append_cancel_left htext
      have hne : info.status ≠ [] := by
        intro hempty
        rw [hempty] at hsame
        exact absurd hsame (by decide)
      rw [orUnknown, if_neg hne] at hsame
      refine ⟨⟨hne, hsame.symm⟩, fun htrue ↦ absurd htrue hrunning, fun hknown ↦ ?_⟩
      exact absurd (hsame.symm.trans hknown) htrimmed

/-- Exactly the containers whose lines are read back are reported alike. -/
theorem clientsAgree_iff (absent : AbsentHealth) (info : InspectRecord) (hstatus : '|' ∉ info.status)
    (himage : '|' ∉ info.image) : ClientsAgree absent info ↔ Readable absent info := by
  constructor
  · intro h
    have hhealth : '|' ∉ healthText absent info := by
      unfold healthText
      cases hsome : info.health with
      | none => cases absent <;> decide
      | some status => exact (h.readable_health hstatus hsome).1
    obtain ⟨hread, hrunning⟩ := h.readable_status hstatus hhealth
    exact ⟨h.found, hread, hrunning, fun status hsome ↦ h.readable_health hstatus hsome⟩
  · exact fun h ↦ h.clientsAgree hstatus himage

/-- A running container of an image whose name looks like the line for a missing container. -/
def shopContainer : InspectRecord where
  status := "running".toList
  running := true
  health := some "healthy".toList
  image := "shop/not_found:latest".toList
  ports := some [("80/tcp".toList, some [⟨"0.0.0.0".toList, "8080".toList⟩]), ("443/tcp".toList, none)]

/-- The running container is reported as missing. -/
theorem not_clientsAgree_shopContainer :
    (DockerSSHClient.getContainerInfo 0 (infoLine .empty shopContainer)).state = notFound ∧
      ¬ (∀ absent info, '|' ∉ info.status → '|' ∉ info.image → ClientsAgree absent info) := by
  have hmissing : DockerSSHClient.reportsNotFound (infoLine .empty shopContainer) := by decide
  refine ⟨?_, fun hall ↦ (hall .empty shopContainer (by decide) (by decide)).found hmissing⟩
  unfold DockerSSHClient.getContainerInfo
  rw [if_pos (.inr hmissing)]

def webContainer : InspectRecord :=
  { shopContainer with image := "nginx:1.25".toList }

set_option maxRecDepth 4000 in
theorem clientsAgree_webContainer : ClientsAgree .empty webContainer :=
  (clientsAgree_iff .empty webContainer (by decide) (by decide)).mpr
    ⟨by decide, by decide, by decide, fun status hstatus ↦ by
      obtain rfl := Option.some.inj hstatus
      decide⟩

end Bridgeport.Docker
