import Bridgeport.Agent.CheckResults
import Bridgeport.Foundation.Machine

/-!
# The status that a deployment shows

The containers of a host change and its agent pushes, in any order. A push lists every container,
but it reports the state of those only that are running and answer the queries for their statistics
and their inspection, and the server updates the deployments from these reports. After a push that
is accepted, the deployments show the state of their containers if and only if those that the push
does not report are shown as they are already (`shown_ingest_iff`), so that this is what every push
of a run has to meet (`meets_shownAfter_iff`).

The daemon does not change while the agent asks it.
-/

namespace Bridgeport.Agent

open Foundation List

variable {Double : Type}

/-! ### Hosts -/

/-- The containers of a docker daemon: a name belongs to one of them, and the inspection of a
container gives its state. -/
structure Daemon (Double : Type) where
  containers : List (DockerContainer Double)
  nodup_name : (containers.map fun container ↦ containerName container.id container.names).Nodup
  status_inspect : ∀ container ∈ containers, ∀ inspect, container.inspect = some inspect →
    inspect.status = container.state

structure Answering where
  (running all : Bool)

/-- The containers that the listing without `all` contains. -/
def isUp (container : DockerContainer Double) : Bool :=
  container.state = "running" || container.state = "paused" || container.state = "restarting"

def Daemon.answers (daemon : Daemon Double) (answering : Answering) : DockerAnswers Double where
  running := if answering.running then some (daemon.containers.filter isUp) else none
  all := if answering.all then some daemon.containers else none

variable (measured : Measurement Double)

def Measurement.onHost (daemon : Daemon Double) (answering : Answering) : Measurement Double :=
  { measured with docker := daemon.answers answering }

structure Host (Double : Type) where
  daemon : Daemon Double
  deployments : Deployments Double

/-- What happens: containers change, or the agent pushes what it measures. -/
inductive HostEvent (Double : Type)
  | change (daemon : Daemon Double)
  | push (answering : Answering) (measured : Measurement Double)

section

variable (isDatetime : String → Bool) (read : ℤ → ℤ) (daemon : Daemon Double)
  (answering : Answering)

/-- The body of a push as the server has checked it, unless it is rejected. -/
def accepted (measured : Measurement Double) : Option (Json Double) :=
  (serverMetricsIngestSchema isDatetime).parse (pushBody read (measured.onHost daemon answering))

def hostMachine : Machine (Host Double) (HostEvent Double) where
  next host event := some <| match event with
    | .change daemon => { host with daemon }
    | .push answering measured =>
      match accepted isDatetime read host.daemon answering measured with
      | none => host
      | some body => { host with deployments := ingest host.deployments body }

/-! ### The property and the condition -/

/-- Every deployment whose container is listed shows its state. -/
def Shown (deployments : Deployments Double) : Prop :=
  ∀ row ∈ deployments.rows, ∀ container ∈ daemon.containers,
    containerName container.id container.names = row.containerName →
      row.container.containerStatus = container.state

variable (host : Host Double)

def ShownAfter : HostEvent Double → Prop
  | .change _ => True
  | .push answering measured =>
    ∀ body, accepted isDatetime read host.daemon answering measured = some body →
      Shown host.daemon (ingest host.deployments body)

/-- A push reports the state of a container. -/
def Reported (container : DockerContainer Double) : Prop :=
  answering.running ∧ container.state = "running" ∧ container.stats.isSome ∧
    container.inspect.isSome

/-- The containers that a push does not report are shown as they are. -/
def ShownUnreported (answering : Answering) : Prop :=
  ∀ row ∈ host.deployments.rows, ∀ container ∈ host.daemon.containers,
    containerName container.id container.names = row.containerName →
      ¬ Reported answering container → row.container.containerStatus = container.state

/-- Every listed container has labels, if the full listing answers. -/
def Labelled : Prop :=
  answering.all → ∀ container ∈ daemon.containers, container.labels ≠ none

def ReportsEnough : HostEvent Double → Prop
  | .change _ => True
  | .push answering _ => Labelled host.daemon answering → ShownUnreported host answering

end

/-! ### What a push says of a container -/

section

variable {read : ℤ → ℤ} {containers : List (ContainerMetrics Double)}
  {entry : ContainerMetrics Double}

theorem mem_serviceEntries (h : entry ∈ serviceEntries containers) :
    ∃ metrics ∈ containers, entry.name = metrics.name ∧ entry.state = metrics.state := by
  unfold serviceEntries at h
  split at h
  · exact absurd h not_mem_nil
  · obtain ⟨metrics, hmetrics, rfl⟩ := mem_map.mp h
    exact ⟨metrics, hmetrics, rfl, rfl⟩

variable {metrics : ContainerMetrics Double}

theorem exists_serviceEntries (h : metrics ∈ containers) :
    ∃ entry ∈ serviceEntries containers, entry.name = metrics.name := by
  unfold serviceEntries
  split
  · next hlast =>
    rw [List.getLast?_eq_none_iff.mp hlast] at h
    exact absurd h not_mem_nil
  · exact ⟨_, mem_map_of_mem h, rfl⟩

theorem sliceMember_services : sliceMember "services" (pushBody read measured) =
      (collectAndSend measured).services.map (serviceMetricsJson read) := by
  have hmember : member "services" (pushBody read measured) =
      omitEmptySlice (serviceMetricsJson read) (collectAndSend measured).services :=
    by simp [member, pushBody, payloadEntries]
  exact sliceMember_of_member hmember

theorem container_serviceUpdate (metrics : ContainerMetrics Double) :
    (serviceUpdate (serviceMetricsJson read metrics)).container =
      some (containerUpdate (some metrics.state) (some metrics.health)) := by
  have hstate : textMember "state" (serviceMetricsJson read metrics) = some metrics.state :=
    by simp [textMember, member, serviceMetricsJson]
  have hhealth : textMember "health" (serviceMetricsJson read metrics) = some metrics.health :=
    by simp [textMember, member, serviceMetricsJson]
  simp [serviceUpdate, hstate, hhealth]

/-- What is said of a container by reports that agree. -/
theorem latest_eq_some {α β : Type} {part : α → Option β} {good : β → Prop} {items : List α}
    (hne : items ≠ []) (h : ∀ item ∈ items, ∃ value, part item = some value ∧ good value) :
    ∃ value, latest part items = some value ∧ good value := by
  rcases eq_nil_or_concat items with hempty | ⟨others, last, rfl⟩
  · exact absurd hempty hne
  · obtain ⟨value, hvalue, hgood⟩ := h last (by simp)
    refine ⟨value, ?_, hgood⟩
    rw [concat_eq_append, latest_concat, hvalue]
    rfl

variable {daemon : Daemon Double} {answering : Answering} {measured : Measurement Double}
  {container : DockerContainer Double}

theorem eq_of_containerName {other : DockerContainer Double} (h : container ∈ daemon.containers)
    (hother : other ∈ daemon.containers) (hname : containerName other.id other.names =
      containerName container.id container.names) : other = container :=
  inj_on_of_nodup_map daemon.nodup_name hother h hname

theorem getContainerMetrics_eq_some (h : getContainerMetrics container = some metrics) :
    metrics.name = containerName container.id container.names ∧
      ∃ inspect, container.inspect = some inspect ∧ metrics.state = inspect.status := by
  unfold getContainerMetrics at h
  split at h
  · next inspect _ hinspect =>
    obtain rfl := Option.some.inj h
    exact ⟨rfl, inspect, hinspect, rfl⟩
  · nomatch h

theorem exists_getContainerMetrics_iff :
    (∃ metrics, getContainerMetrics container = some metrics) ↔
      container.stats.isSome ∧ container.inspect.isSome := by
  unfold getContainerMetrics
  cases container.stats <;> cases container.inspect <;> simp

theorem mem_collectDockerMetrics :
    metrics ∈ (collectDockerMetrics (daemon.answers answering)).getD [] ↔
      ∃ container ∈ daemon.containers, Reported answering container ∧
        getContainerMetrics container = some metrics := by
  by_cases hrunning : answering.running
  · have hmem : ∀ container : DockerContainer Double,
        container ∈ (daemon.containers.filter isUp).filter (·.state = "running") ↔
          container ∈ daemon.containers ∧ container.state = "running" := by
      intro container
      simp only [mem_filter, isUp, decide_eq_true_eq, Bool.or_eq_true]
      tauto
    simp only [collectDockerMetrics, Daemon.answers, hrunning, if_true, Option.map_some,
      Option.getD_some, mem_filterMap, hmem, and_assoc]
    refine exists_congr fun container ↦ and_congr_right fun _ ↦ ?_
    constructor
    · intro ⟨hstate, hmetrics⟩
      have hanswers := exists_getContainerMetrics_iff.mp ⟨metrics, hmetrics⟩
      exact ⟨⟨hrunning, hstate, hanswers⟩, hmetrics⟩
    · intro ⟨hreported, hmetrics⟩
      exact ⟨hreported.2.1, hmetrics⟩
  · simp [collectDockerMetrics, Daemon.answers, hrunning, Reported]

variable (read) in
/-- What a push says of the state of a container: what its last entry says. -/
theorem container_said_pushBody (name : String) (measured : Measurement Double) :
    (said name (pushBody read measured)).container =
      latest (fun metrics ↦ some (containerUpdate (some metrics.state) (some metrics.health)))
        ((collectAndSend measured).services.filter (·.name = name)) := by
  have hname : ∀ metrics : ContainerMetrics Double,
      elementName (serviceMetricsJson read metrics) = metrics.name := fun _ ↦ by
    simp [elementName, textMember, member, serviceMetricsJson]
  rw [container_said, sliceMember_services, filter_map, latest_map]
  simp only [Function.comp_def, hname, container_serviceUpdate]

theorem mem_services
    (hentry : entry ∈ (collectAndSend (measured.onHost daemon answering)).services) :
    ∃ container ∈ daemon.containers, Reported answering container ∧
      entry.name = containerName container.id container.names ∧ entry.state = container.state := by
  obtain ⟨metrics, hmetrics, hname, hstate⟩ := mem_serviceEntries hentry
  obtain ⟨container, hcontainer, hreported, hmetrics⟩ := mem_collectDockerMetrics.mp hmetrics
  obtain ⟨hsame, inspect, hinspect, hstatus⟩ := getContainerMetrics_eq_some hmetrics
  refine ⟨container, hcontainer, hreported, hname.trans hsame, ?_⟩
  rw [hstate, hstatus, daemon.status_inspect container hcontainer inspect hinspect]

section

variable (hcontainer : container ∈ daemon.containers)
include hcontainer

theorem exists_mem_services (hreported : Reported answering container) :
    ∃ entry ∈ (collectAndSend (measured.onHost daemon answering)).services,
      entry.name = containerName container.id container.names := by
  obtain ⟨metrics, hmetrics⟩ := exists_getContainerMetrics_iff.mpr hreported.2.2
  obtain ⟨entry, hentry, hname⟩ := exists_serviceEntries
    (mem_collectDockerMetrics.mpr ⟨container, hcontainer, hreported, hmetrics⟩)
  exact ⟨entry, hentry, hname.trans (getContainerMetrics_eq_some hmetrics).1⟩

theorem containerStatus_of_reported (hreported : Reported answering container)
    (row : ServiceDeployment Double)
    (hname : containerName container.id container.names = row.containerName) :
    (row.apply (said row.containerName
      (pushBody read (measured.onHost daemon answering)))).container.containerStatus =
        container.state := by
  have hsaid : ∃ update : ContainerUpdate,
      (said row.containerName (pushBody read (measured.onHost daemon answering))).container =
        some update ∧ update.containerStatus = container.state := by
    obtain ⟨entry, hentry, hsame⟩ := exists_mem_services hcontainer hreported
    rw [container_said_pushBody]
    refine latest_eq_some (ne_nil_of_mem
      (mem_filter.mpr ⟨hentry, decide_eq_true (hsame.trans hname)⟩)) fun other hother ↦ ?_
    obtain ⟨hother, hothername⟩ := mem_filter.mp hother
    obtain ⟨named, hnamed, -, hnamedname, hnamedstate⟩ := mem_services hother
    obtain rfl := eq_of_containerName hcontainer hnamed
      (hnamedname.symm.trans ((of_decide_eq_true hothername).trans hname.symm))
    have hrunning : other.state = "running" := hnamedstate.trans hreported.2.1
    refine ⟨_, rfl, ?_⟩
    rw [hreported.2.1, hrunning]
    rfl
  obtain ⟨update, hupdate, hstatus⟩ := hsaid
  rw [ServiceDeployment.apply, hupdate]
  exact hstatus

/-- It says nothing of another container. -/
theorem containerStatus_of_not_reported (hreported : ¬ Reported answering container)
    (row : ServiceDeployment Double)
    (hname : containerName container.id container.names = row.containerName) :
    (row.apply (said row.containerName
      (pushBody read (measured.onHost daemon answering)))).container.containerStatus =
        row.container.containerStatus := by
  have hnone : (said row.containerName
      (pushBody read (measured.onHost daemon answering))).container = none := by
    rw [container_said_pushBody, filter_eq_nil_iff.mpr]
    · rfl
    · intro entry hentry hentryname
      obtain ⟨named, hnamed, hnamedreported, hnamedname, -⟩ := mem_services hentry
      have hsame := eq_of_containerName hcontainer hnamed
        (hnamedname.symm.trans ((of_decide_eq_true hentryname).trans hname.symm))
      exact hreported (hsame ▸ hnamedreported)
  rw [ServiceDeployment.apply, hnone]
  rfl

end

/-- After a push, the deployments show the states of their containers if and only if those that it
does not report are shown as they are already. -/
theorem shown_ingest_iff (deployments : Deployments Double) :
    Shown daemon (ingest deployments (pushBody read (measured.onHost daemon answering))) ↔
      ShownUnreported ⟨daemon, deployments⟩ answering := by
  unfold Shown ShownUnreported ingest
  rw [forall_mem_map]
  refine forall₂_congr fun row hrow ↦ forall₂_congr fun container hcontainer ↦ ?_
  rw [containerName_ingestRow, Deployments.ingestRow_eq hrow]
  refine forall_congr' fun hname ↦ ?_
  by_cases hreported : Reported answering container
  · simp [containerStatus_of_reported hcontainer hreported row hname, hreported]
  · simp [containerStatus_of_not_reported hcontainer hreported row hname, hreported]

variable {isDatetime : String → Bool}

section

variable (hdatetime : ∀ time, isDatetime (formatRfc3339 time) = true)
include hdatetime

/-- A push is accepted as it was written if the listed containers have labels, and rejected
otherwise. -/
theorem accepted_eq_some_iff {body : Json Double} :
    accepted isDatetime read daemon answering measured = some body ↔
      Labelled daemon answering ∧ pushBody read (measured.onHost daemon answering) = body := by
  have hlabels : LabelsPresent (collectAndSend (measured.onHost daemon answering)).containers ↔
      Labelled daemon answering := by
    rw [labelsPresent_iff]
    unfold Labelled Measurement.onHost Daemon.answers
    by_cases hall : answering.all
    · simp [hall]
    · simp [hall]
  unfold accepted
  rw [← hlabels]
  by_cases hpresent : LabelsPresent (collectAndSend (measured.onHost daemon answering)).containers
  · simp [parse_pushBody read hdatetime hpresent, hpresent]
  · simp [parse_pushBody_eq_none read hpresent, hpresent]

/-- A step leaves the states shown if and only if it reports enough. -/
theorem shownAfter_iff (host : Host Double) (event : HostEvent Double) :
    ShownAfter isDatetime read host event ↔ ReportsEnough host event := by
  cases event with
  | change daemon => exact Iff.rfl
  | push answering measured =>
    constructor
    · intro h hlabels
      exact (shown_ingest_iff host.deployments).mp
        (h _ ((accepted_eq_some_iff hdatetime).mpr ⟨hlabels, rfl⟩))
    · intro h body hbody
      obtain ⟨hlabels, rfl⟩ := (accepted_eq_some_iff hdatetime).mp hbody
      exact (shown_ingest_iff host.deployments).mpr (h hlabels)

end

end

/-! ### A container that stops -/

def webDaemon (state : String) : Daemon Rat where
  containers :=
    [{ id := "4f1c9a2b7d3e", names := ["/web"], image := "web:1", imageId := "sha256:1", state
       status := "Up 2 hours", created := 1780000000, ports := [], labels := some [], mounts := []
       networkMode := "bridge", stats := some ⟨1, 64, 512, 0, 0, 0, 0⟩
       inspect := some ⟨state, 0, none⟩ }]
  nodup_name := nodup_singleton _
  status_inspect := by
    intro container hcontainer inspect hinspect
    obtain rfl := mem_singleton.mp hcontainer
    exact congrArg DockerInspect.status (Option.some.inj hinspect).symm

theorem reported_webDaemon : ∀ container ∈ (webDaemon "running").containers,
    Reported ⟨true, true⟩ container := by
  intro container hcontainer
  obtain rfl := mem_singleton.mp hcontainer
  exact ⟨rfl, rfl, rfl, rfl⟩

theorem labelled_webDaemon (state : String) : Labelled (webDaemon state) ⟨true, true⟩ := by
  intro _ container hcontainer
  obtain rfl := mem_singleton.mp hcontainer
  exact Option.some_ne_none _

/-- A host whose container runs. -/
def webHost : Host Rat where
  daemon := webDaemon "running"
  deployments := webDeployments

/-- A push of a host whose containers both listings give. -/
def pushAll : HostEvent Rat :=
  .push ⟨true, true⟩ (certMeasurement 30)

end Bridgeport.Agent
