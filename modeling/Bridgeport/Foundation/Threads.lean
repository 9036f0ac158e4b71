import Bridgeport.Foundation.ProgramLogic

/-!
# Concurrent programs

Several programs run at once over one world: `Concurrent programs sem world log` says that every
entry of the log is a call of the program with its label, and that the answers are those that the
world allows when they are given. The beginning of a run is a run (`Concurrent.of_append`), so what
every step of a run preserves holds in every state that it reaches (`Concurrent.induction`).
-/

namespace Bridgeport.Foundation

variable {Call : Type} {Answer : Call → Type} {World Local : Type*} {α β : Type}

/-! ### Beginnings of traces -/

/-- The beginning of a log without its labels. -/
theorem exists_of_map_snd_eq_append {ι ε : Type*} {labelled : List (ι × ε)}
    {first second : List ε} (h : labelled.map Prod.snd = first ++ second) :
    ∃ before after, labelled = before ++ after ∧ before.map Prod.snd = first := by
  obtain ⟨before, after, hsplit, hbefore, -⟩ := List.map_eq_append_iff.mp h
  exact ⟨before, after, hsplit, hbefore⟩

section

variable {ι ε : Type*} [DecidableEq ι]

theorem projection_concat_self {source : ι} (labelled : List (ι × ε)) (event : ε) :
    projection source (labelled ++ [(source, event)]) = projection source labelled ++ [event] := by
  rw [projection_append, projection_singleton_self]

section

variable {source : ι} {labelled : List (ι × ε)} {event : ε}

/-- The entries of a source are the entries of the log with its label. -/
theorem mem_projection_iff : event ∈ projection source labelled ↔ (source, event) ∈ labelled := by
  unfold projection
  rw [List.mem_map]
  constructor
  · rintro ⟨⟨label, _⟩, hentry, rfl⟩
    obtain ⟨hmem, hlabel⟩ := List.mem_filter.mp hentry
    rw [← of_decide_eq_true hlabel]
    exact hmem
  · intro h
    exact ⟨(source, event), List.mem_filter.mpr ⟨h, decide_eq_true rfl⟩, rfl⟩

/-- The entries of a log are entries of their sources. -/
theorem mem_projection_of_mem (h : (source, event) ∈ labelled) :
    event ∈ projection source labelled :=
  mem_projection_iff.mpr h

end

theorem forall_mem_of_projections {holds : ε → Prop} {labelled : List (ι × ε)}
    (h : ∀ source, ∀ event ∈ projection source labelled, holds event) :
    ∀ event ∈ labelled.map Prod.snd, holds event := by
  intro event hevent
  obtain ⟨⟨source, _⟩, hentry, rfl⟩ := List.mem_map.mp hevent
  exact h source _ (mem_projection_of_mem hentry)

end

variable {program : Program Answer α} {log : List (Event Answer)}

theorem Traces.of_append {outcome : Option (Except String α)} (htraces : Traces program log outcome)
    {first second : List (Event Answer)} (hlog : log = first ++ second) :
    Traces program first none := by
  induction htraces generalizing first second with
  | start program =>
    rw [(List.append_eq_nil_iff.mp hlog.symm).1]
    exact .start program
  | done result =>
    rw [(List.append_eq_nil_iff.mp hlog.symm).1]
    exact .start _
  | call answer _ ih =>
    cases first with
    | nil => exact .start _
    | cons event first =>
      obtain ⟨rfl, hrest⟩ := List.cons.inj hlog
      exact .call answer (ih hrest)
  | running labelled _ ih =>
    obtain ⟨before, after, rfl, rfl⟩ := exists_of_map_snd_eq_append hlog
    exact .running before fun index ↦ ih index (projection_append index before after)
  | joined labelled values hbranches _ ihbranches ih =>
    rcases List.append_eq_append_iff.mp hlog with ⟨middle, rfl, hrest⟩ | ⟨middle, hfirst, -⟩
    · exact .joined labelled values hbranches (ih hrest)
    · obtain ⟨before, after, rfl, rfl⟩ := exists_of_map_snd_eq_append hfirst
      exact .running before fun index ↦ ihbranches index (projection_append index before after)
  | rejected labelled later thrower message hthrower hends _ _ _ ihbranches ih =>
    rcases List.append_eq_append_iff.mp hlog with ⟨middle, rfl, hrest⟩ | ⟨middle, hfirst, -⟩
    · obtain ⟨before, after, rfl, rfl⟩ := exists_of_map_snd_eq_append hrest
      rw [projection_append, List.append_eq_nil_iff] at hends
      refine .rejected labelled before thrower message hthrower hends.1 (fun index ↦ ?_) ?_
      · exact ihbranches index ((congrArg _ (projection_append (some index) before after)).trans
          (List.append_assoc _ _ _).symm)
      · exact ih (projection_append none before after)
    · obtain ⟨before, after, rfl, rfl⟩ := exists_of_map_snd_eq_append hfirst
      refine .running before fun index ↦ ?_
      exact ihbranches index ((congrArg (· ++ projection (some index) later)
        (projection_append index before after)).trans (List.append_assoc _ _ _))

/-- A program that has made the calls of a log can still make a call of a kind. -/
def Program.CanStill (program : Program Answer α) (kind : Call → Prop)
    (log : List (Event Answer)) : Prop :=
  ∃ more event, kind event.call ∧ Traces program (log ++ more ++ [event]) none

variable {event : Event Answer}

section

variable {program : Program Answer α} {kind : Call → Prop}

theorem Program.CanStill.of_append {first second : List (Event Answer)}
    (h : program.CanStill kind (first ++ second)) : program.CanStill kind first := by
  obtain ⟨more, event, hkind, htraces⟩ := h
  refine ⟨second ++ more, event, hkind, ?_⟩
  rw [← List.append_assoc]
  exact htraces

theorem Traces.canStill (htraces : Traces program (log ++ [event]) none) (hkind : kind event.call) :
    program.CanStill kind log := by
  refine ⟨[], event, hkind, ?_⟩
  rw [List.append_nil]
  exact htraces

end

section

variable {ι : Type*} [DecidableEq ι] {Outcome : ι → Type}

/-- A run of several programs over one world. -/
structure Concurrent (programs : ∀ thread, Program Answer (Outcome thread))
    (sem : Semantics Answer World) (world : World) (log : Trail ι Answer) :
    Prop where
  traces : ∀ thread, Traces (programs thread) (projection thread log) none
  consistent : sem.Consistent world (log.map Prod.snd)

/-- Every step of a log meets a condition on what came before and the step. -/
def EveryStep {ε : Type*} (condition : List ε → ε → Prop) (log : List ε) : Prop :=
  ∀ before entry after, log = before ++ entry :: after → condition before entry

section

variable {ε : Type*} {condition : List ε → ε → Prop}

theorem EveryStep.of_append {first second : List ε} (h : EveryStep condition (first ++ second)) :
    EveryStep condition first := by
  intro before entry after hsplit
  refine h before entry (after ++ second) ?_
  rw [hsplit, List.append_assoc, List.cons_append]

theorem everyStep_nil : EveryStep condition [] := by
  intro before entry after hsplit
  exact absurd (congrArg List.length hsplit) (by simp)

theorem EveryStep.concat {log : List ε} (h : EveryStep condition log) {entry : ε}
    (hentry : condition log entry) : EveryStep condition (log ++ [entry]) := by
  intro before other after hsplit
  rcases List.append_eq_append_iff.mp hsplit with ⟨middle, rfl, hrest⟩ | ⟨middle, rfl, hrest⟩
  · cases middle with
    | nil =>
      obtain ⟨rfl, -⟩ := List.cons.inj hrest
      rw [List.append_nil]
      exact hentry
    | cons head middle =>
      exact absurd (congrArg List.length hrest) (by simp)
  · cases middle with
    | nil =>
      obtain ⟨rfl, -⟩ := List.cons.inj hrest
      rw [List.append_nil] at hentry
      exact hentry
    | cons head middle =>
      obtain ⟨rfl, -⟩ := List.cons.inj hrest
      exact h before other middle rfl

end

/-- The steps of a log that follows another one, checked one by one. -/
def StepsAfter {ε : Type*} (condition : List ε → ε → Prop) : List ε → List ε → Prop
  | _, [] => True
  | before, entry :: rest => condition before entry ∧ StepsAfter condition (before ++ [entry]) rest

section

variable {ε : Type*} {condition : List ε → ε → Prop}

theorem EveryStep.append {before log : List ε} (hbefore : EveryStep condition before)
    (hlog : StepsAfter condition before log) : EveryStep condition (before ++ log) := by
  induction log generalizing before with
  | nil =>
    rw [List.append_nil]
    exact hbefore
  | cons entry rest ih =>
    rw [List.append_cons]
    exact ih (hbefore.concat hlog.1) hlog.2

theorem everyStep_of_stepsAfter {log : List ε} (h : StepsAfter condition [] log) :
    EveryStep condition log :=
  everyStep_nil.append h

theorem EveryStep.stepsAfter {before log : List ε} (h : EveryStep condition (before ++ log)) :
    StepsAfter condition before log := by
  induction log generalizing before with
  | nil => exact trivial
  | cons entry rest ih =>
    refine ⟨h before entry rest rfl, ih ?_⟩
    rw [← List.append_cons]
    exact h

theorem stepsAfter_nil_iff {log : List ε} : StepsAfter condition [] log ↔ EveryStep condition log :=
  ⟨everyStep_of_stepsAfter, fun h ↦ EveryStep.stepsAfter h⟩

theorem EveryStep.last {log : List ε} {entry : ε} (h : EveryStep condition (log ++ [entry])) :
    condition log entry :=
  h log entry [] rfl

end

variable {programs : ∀ thread, Program Answer (Outcome thread)}
  {sem : Semantics Answer World} {world : World} {log : Trail ι Answer}

theorem Concurrent.of_append {second : Trail ι Answer}
    (h : Concurrent programs sem world (log ++ second)) : Concurrent programs sem world log where
  traces thread := (h.traces thread).of_append (projection_append thread log second)
  consistent := by
    have hconsistent := h.consistent
    rw [List.map_append, sem.consistent_append] at hconsistent
    exact hconsistent.1

/-- The last step of a run is allowed in the world before it. -/
theorem Concurrent.allows_last {entry : ι × Event Answer}
    (h : Concurrent programs sem world (log ++ [entry])) :
    sem.allows (sem.final world (log.map Prod.snd)) entry.2 := by
  have hconsistent := h.consistent
  rw [List.map_append, sem.consistent_append] at hconsistent
  exact hconsistent.2.1

/-- What holds at first and is preserved by every step of a run that meets the condition. -/
theorem Concurrent.induction (motive : Trail ι Answer → Prop)
    {condition : Trail ι Answer → ι × Event Answer → Prop} (hnil : motive [])
    (hstep : ∀ before entry, Concurrent programs sem world (before ++ [entry]) →
      condition before entry → motive before → motive (before ++ [entry]))
    (h : Concurrent programs sem world log) (hcondition : EveryStep condition log) :
    motive log := by
  induction log using List.reverseRecOn with
  | nil => exact hnil
  | append_singleton before entry ih =>
    exact hstep before entry h hcondition.last (ih h.of_append hcondition.of_append)

end

/-! ### Protocols -/

/-- The local state of a program: the calls that it may make in a state, how they advance it, and
the answers that can be expected. -/
structure Protocol {Call : Type} (Answer : Call → Type) (Local : Type*) where
  permits : Local → Call → Prop
  advance : Local → Event Answer → Local
  expects : Event Answer → Prop

variable {request : Call}

namespace Protocol

variable (protocol : Protocol Answer Local)

def state (initial : Local) (log : List (Event Answer)) : Local :=
  log.foldl protocol.advance initial

def Accepts : Local → List (Event Answer) → Prop
  | _, [] => True
  | current, event :: rest =>
    protocol.permits current event.call ∧ Accepts (protocol.advance current event) rest

/-- From the state on, the call is always permitted and changes nothing. -/
def Neutral (current : Local) (request : Call) : Prop :=
  ∀ log, protocol.permits (protocol.state current log) request ∧
    ∀ answer, protocol.advance (protocol.state current log) ⟨request, answer⟩ =
      protocol.state current log

section

variable (initial : Local) (first second : List (Event Answer))

theorem state_append :
    protocol.state initial (first ++ second) =
      protocol.state (protocol.state initial first) second :=
  List.foldl_append

theorem accepts_append :
    protocol.Accepts initial (first ++ second) ↔ protocol.Accepts initial first ∧
      protocol.Accepts (protocol.state initial first) second := by
  induction first generalizing initial with
  | nil => simp [Accepts, state]
  | cons event rest ih =>
    rw [List.cons_append, Accepts, Accepts, ih, and_assoc]
    rfl

end

variable {protocol} {current : Local}

theorem Neutral.later (h : protocol.Neutral current request) (log : List (Event Answer)) :
    protocol.Neutral (protocol.state current log) request := by
  intro more
  rw [← protocol.state_append]
  exact h (log ++ more)

/-- Calls that change nothing, between the calls of one source. -/
theorem accepts_interleaved {ι : Type*} [DecidableEq ι] {source : ι} {labelled : Trail ι Answer}
    (hothers : ∀ entry ∈ labelled, entry.1 ≠ source → protocol.Neutral current entry.2.call)
    (hsource : protocol.Accepts current (projection source labelled)) :
    protocol.Accepts current (labelled.map Prod.snd) ∧
      protocol.state current (labelled.map Prod.snd) =
        protocol.state current (projection source labelled) := by
  induction labelled generalizing current with
  | nil => exact ⟨trivial, rfl⟩
  | cons entry rest ih =>
    rw [projection_cons] at hsource ⊢
    by_cases hentry : entry.1 = source
    · rw [if_pos hentry] at hsource ⊢
      have hlater : ∀ other ∈ rest, other.1 ≠ source →
          protocol.Neutral (protocol.advance current entry.2) other.2.call :=
        fun other hother hne ↦
          (hothers other (List.mem_cons_of_mem _ hother) hne).later [entry.2]
      have hrest := ih hlater hsource.2
      exact ⟨⟨hsource.1, hrest.1⟩, hrest.2⟩
    · rw [if_neg hentry] at hsource ⊢
      obtain ⟨hpermits, hadvance⟩ := hothers entry List.mem_cons_self hentry []
      have hsame : protocol.advance current entry.2 = current := hadvance entry.2.answer
      have hrest := ih (fun other hother ↦ hothers other (List.mem_cons_of_mem _ hother)) hsource
      rw [← hsame] at hrest
      refine ⟨⟨hpermits, hrest.1⟩, hrest.2.trans ?_⟩
      rw [hsame]

theorem accepts_of_neutral (h : ∀ event ∈ log, protocol.Neutral current event.call) :
    protocol.Accepts current log ∧ protocol.state current log = current := by
  induction log with
  | nil => exact ⟨trivial, rfl⟩
  | cons event rest ih =>
    obtain ⟨hpermits, hadvance⟩ := h event List.mem_cons_self []
    have hsame : protocol.advance current event = current := hadvance event.answer
    have hrest := ih fun later hlater ↦ h later (List.mem_cons_of_mem _ hlater)
    refine ⟨⟨hpermits, ?_⟩, ?_⟩
    · rw [hsame]
      exact hrest.1
    · show protocol.state (protocol.advance current event) rest = current
      rw [hsame]
      exact hrest.2

section

variable {Outer : Type} {OuterAnswer : Outer → Type} {outer : Protocol OuterAnswer Local}
  {embed : Call → Outer}
  (hothers : ∀ current event, outer.advance current event = current ∨
    ∃ request answer, event = ⟨embed request, answer⟩)

include hothers

end

end Protocol

namespace Program

open Protocol

variable (protocol : Protocol Answer Local)

/-- A run whose answers are expected can end with the outcome; what the branches of `all` contribute
is left open. -/
def Yields (expects : Event Answer → Prop) : {α : Type} → Program Answer α → Except String α → Prop
  | _, .done result, outcome => outcome = result
  | _, .call request next, outcome =>
    ∃ answer, expects ⟨request, answer⟩ ∧ (next answer).Yields expects outcome
  | _, .all _ _ next, outcome => ∃ results, (next results).Yields expects outcome

/-- Every run of the program from the state makes permitted calls only, as long as the answers are
expected, and ends as `post` says. The branches of `all` make calls that change nothing. -/
def Follows : {α : Type} → Program Answer α → (Except String α → Local → Prop) → Local → Prop
  | _, .done result, post, current => post result current
  | _, .call request next, post, current => protocol.permits current request ∧
    ∀ answer, protocol.expects ⟨request, answer⟩ →
      (next answer).Follows post (protocol.advance current ⟨request, answer⟩)
  | _, .all _ branches next, post, current =>
    (∀ index, (branches index).Avoids fun request ↦ ¬ protocol.Neutral current request) ∧
      (∀ values, (∀ index, (branches index).Yields protocol.expects (.ok (values index))) →
        (next (.ok values)).Follows post current) ∧
      ∀ message, (next (.error message)).Follows post current

variable {protocol} {current : Local} {post : Except String α → Local → Prop}
  {next : α → Program Answer β} {handler : String → Program Answer α}
  {cleanup : Program Answer Unit} (returned : α → Local → Prop)

section

variable {program : Program Answer α}

theorem Follows.mono {weaker : Except String α → Local → Prop}
    (h : program.Follows protocol post current)
    (himp : ∀ result state, post result state → weaker result state) :
    program.Follows protocol weaker current := by
  induction program generalizing current with
  | done result => exact himp result current h
  | call request next ih =>
    exact ⟨h.1, fun answer hexpects ↦ ih answer (h.2 answer hexpects) himp⟩
  | all count branches next _ ih =>
    exact ⟨h.1, fun values hvalues ↦ ih _ (h.2.1 values hvalues) himp,
      fun message ↦ ih _ (h.2.2 message) himp⟩

@[simp]
theorem follows_resume {next : Except String α → Program Answer β}
    {post : Except String β → Local → Prop} :
    (program.resume next).Follows protocol post current ↔
      program.Follows protocol (fun result ↦ (next result).Follows protocol post) current := by
  induction program generalizing current with
  | done result => exact Iff.rfl
  | call request answer ih =>
    exact and_congr_right fun _ ↦ forall_congr' fun result ↦ imp_congr_right fun _ ↦ ih result
  | all count branches joined _ ih =>
    exact and_congr_right fun _ ↦ and_congr
      (forall_congr' fun values ↦ imp_congr_right fun _ ↦ ih _) (forall_congr' fun message ↦ ih _)

theorem follows_bind {post : Except String β → Local → Prop}
    (h : program.Follows protocol (fun result state ↦ match result with
      | .ok value => (next value).Follows protocol post state
      | .error message => post (.error message) state) current) :
    (program >>= next).Follows protocol post current := by
  refine follows_resume.mpr (h.mono fun result state hresult ↦ ?_)
  cases result with
  | ok _ | error _ => exact hresult

/-- How a program ends: with a value, or by throwing. -/
def Ends (thrown : String → Local → Prop) : Except String α → Local → Prop
  | .ok value => returned value
  | .error message => thrown message

theorem follows_bind_of {post : Except String β → Local → Prop}
    (h : program.Follows protocol (Ends returned fun message ↦ post (.error message)) current)
    (hnext : ∀ value state, returned value state → (next value).Follows protocol post state) :
    (program >>= next).Follows protocol post current := by
  refine follows_bind (h.mono fun result state hresult ↦ ?_)
  cases result with
  | ok value => exact hnext value state hresult
  | error message => exact hresult

theorem follows_tryCatch (h : program.Follows protocol (fun result state ↦ match result with
      | .ok value => post (.ok value) state
      | .error message => (handler message).Follows protocol post state) current) :
    (program.tryCatch handler).Follows protocol post current := by
  refine follows_resume.mpr (h.mono fun result state hresult ↦ ?_)
  cases result with
  | ok _ | error _ => exact hresult

theorem follows_tryFinally
    (h : program.Follows protocol (fun result state ↦ cleanup.Follows protocol
      (fun ended after ↦ match ended with
        | .ok _ => post result after
        | .error message => post (.error message) after) state) current) :
    (program.tryFinally cleanup).Follows protocol post current := by
  refine follows_resume.mpr (h.mono fun result state hresult ↦ ?_)
  refine follows_resume.mpr (hresult.mono fun ended after hended ↦ ?_)
  cases ended with
  | ok _ | error _ => exact hended

end

theorem follows_perform_bind {next : Answer request → Program Answer β}
    {post : Except String β → Local → Prop} (hpermits : protocol.permits current request)
    (hvalue : ∀ value, protocol.expects ⟨request, .ok value⟩ → (next value).Follows protocol post
      (protocol.advance current ⟨request, .ok value⟩)) (herror : ∀ message, post (.error message)
      (protocol.advance current ⟨request, .error message⟩)) :
    (perform request >>= next).Follows protocol post current := by
  refine ⟨hpermits, fun answer hexpects ↦ ?_⟩
  cases answer with
  | ok value => exact hvalue value hexpects
  | error message => exact herror message

variable {second first : Program Answer α} {condition : Prop}

theorem Follows.ite [Decidable condition] (hfirst : condition → first.Follows protocol post current)
    (hsecond : ¬ condition → second.Follows protocol post current) :
    (if condition then first else second).Follows protocol post current := by
  split_ifs with hcondition
  · exact hfirst hcondition
  · exact hsecond hcondition

theorem follows_of_avoids
    (havoids : program.Avoids fun request ↦ ¬ protocol.Neutral current request)
    (hpost : ∀ result, post result current) : program.Follows protocol post current := by
  induction program with
  | done result => exact hpost result
  | call request next ih =>
    obtain ⟨hpermits, hadvance⟩ := not_not.mp havoids.1 []
    refine ⟨hpermits, fun answer _ ↦ ?_⟩
    have hsame : protocol.advance current ⟨request, answer⟩ = current := hadvance answer
    rw [hsame]
    exact ih answer (havoids.2 answer) hpost
  | all count branches next _ ih =>
    exact ⟨havoids.1, fun _ _ ↦ ih _ (havoids.2 _) hpost, fun _ ↦ ih _ (havoids.2 _) hpost⟩

/-- `Promise.all` over programs that make neutral calls only. -/
theorem follows_promiseAll {programs : List (Program Answer α)}
    {post : Except String (List α) → Local → Prop} (havoids : ∀ program ∈ programs,
      program.Avoids fun request ↦ ¬ protocol.Neutral current request)
    (hvalues : ∀ values, List.Forall₂ (fun program value ↦
      program.Yields protocol.expects (.ok value)) programs values → post (.ok values) current)
    (herror : ∀ message, post (.error message) current) :
    (promiseAll programs).Follows protocol post current := by
  refine ⟨fun index ↦ havoids _ (List.get_mem programs index), fun values hyields ↦ ?_, herror⟩
  refine hvalues _ (List.forall₂_iff_get.mpr ⟨List.length_ofFn.symm, fun index hindex hvalue ↦ ?_⟩)
  rw [List.get_ofFn]
  exact hyields ⟨index, hindex⟩

section

variable {Outer : Type} {OuterAnswer : Outer → Type} {embed : Call → Outer}
  {program : Program (fun request ↦ OuterAnswer (embed request)) α}

end

/-- Every call of the program is permitted in the state and leaves it as it is. -/
def Stays (protocol : Protocol Answer Local) (current : Local)
    (program : Program Answer α) : Prop :=
  program.Follows protocol (fun _ state ↦ state = current) current

theorem Stays.follows (h : program.Stays protocol current) (hpost : ∀ result, post result current) :
    program.Follows protocol post current :=
  h.mono fun result _ hstate ↦ hstate ▸ hpost result

theorem Stays.resume {next : Except String α → Program Answer β}
    (hprogram : program.Stays protocol current)
    (hnext : ∀ result, (next result).Stays protocol current) :
    (program.resume next).Stays protocol current :=
  follows_resume.mpr (hprogram.follows hnext)

theorem stays_done (result : Except String α) (current : Local) :
    (done result : Program Answer α).Stays protocol current :=
  rfl

theorem stays_pure (value : α) (current : Local) :
    (pure value : Program Answer α).Stays protocol current :=
  rfl

section

variable {program : Program Answer α} (hprogram : program.Stays protocol current)
include hprogram

theorem Stays.bind (hnext : ∀ value, (next value).Stays protocol current) :
    (program >>= next).Stays protocol current := by
  refine hprogram.resume fun result ↦ ?_
  cases result with
  | ok value => exact hnext value
  | error message => exact stays_done _ current

theorem Stays.tryCatch (hhandler : ∀ message, (handler message).Stays protocol current) :
    (program.tryCatch handler).Stays protocol current := by
  refine hprogram.resume fun result ↦ ?_
  cases result with
  | ok value => exact stays_done _ current
  | error message => exact hhandler message

theorem Stays.tryFinally (hcleanup : cleanup.Stays protocol current) :
    (program.tryFinally cleanup).Stays protocol current := by
  refine hprogram.resume fun result ↦ hcleanup.resume fun ended ↦ ?_
  cases ended with
  | ok _ | error _ => exact stays_done _ current

end

theorem Stays.ite [Decidable condition] (hfirst : first.Stays protocol current)
    (hsecond : second.Stays protocol current) :
    (if condition then first else second).Stays protocol current := by
  split_ifs
  · exact hfirst
  · exact hsecond

theorem Stays.when [Decidable condition] {program : Program Answer Unit}
    (h : program.Stays protocol current) :
    (Program.when condition program).Stays protocol current :=
  h.ite (stays_pure () current)

theorem stays_perform (hpermits : protocol.permits current request)
    (hadvance : ∀ answer, protocol.advance current ⟨request, answer⟩ = current) :
    (perform request : Program Answer (Answer request)).Stays protocol current :=
  ⟨hpermits, fun answer _ ↦ hadvance answer⟩

/-- The calls of the branches of `all`. -/
theorem neutral_of_branches {count : ℕ} {branches : Fin count → Program Answer α}
    (havoids : ∀ index, (branches index).Avoids fun request ↦ ¬ protocol.Neutral current request)
    {labelled : List (Fin count × Event Answer)}
    {ends : Fin count → Option (Except String α)}
    (hbranches : ∀ index, Traces (branches index) (projection index labelled) (ends index)) :
    ∀ event ∈ labelled.map Prod.snd, protocol.Neutral current event.call :=
  forall_mem_of_projections fun index event hevent ↦
    not_not.mp ((hbranches index).not_of_avoids (havoids index) event hevent)

variable {outcome : Option (Except String α)}

theorem yields_of_traces {expects : Event Answer → Prop} (htraces : Traces program log outcome)
    (hexpects : ∀ event ∈ log, expects event) {result : Except String α}
    (hresult : outcome = some result) : program.Yields expects result := by
  induction htraces with
  | start _ | running _ _ => nomatch hresult
  | done ended => exact (Option.some.inj hresult).symm
  | call answer _ ih =>
    exact ⟨answer, hexpects _ List.mem_cons_self,
      ih (fun event hevent ↦ hexpects event (List.mem_cons_of_mem _ hevent)) hresult⟩
  | joined labelled values _ _ _ ih =>
    exact ⟨.ok values, ih
      (fun event hevent ↦ hexpects event (List.mem_append_right _ hevent)) hresult⟩
  | rejected labelled later thrower message _ _ _ _ _ _ ih =>
    exact ⟨.error message, ih (fun event hevent ↦ hexpects event
      (List.mem_append_right _ (mem_of_mem_projection hevent))) hresult⟩

section

variable {program : Program Answer α} {post : Except String α → Local → Prop}
  (h : program.Follows protocol post current) {log : List (Event Answer)}
include h

/-- The calls of a trace are permitted, and a run that ends does so as `post` says. Assumes: the
answers are expected. -/
theorem Follows.sound (htraces : Traces program log outcome)
    (hexpects : ∀ event ∈ log, protocol.expects event) :
    protocol.Accepts current log ∧
      ∀ result, outcome = some result → post result (protocol.state current log) := by
  induction htraces generalizing current with
  | start program => exact ⟨trivial, nofun⟩
  | done result => exact ⟨trivial, fun _ hresult ↦ Option.some.inj hresult ▸ h⟩
  | call answer _ ih =>
    obtain ⟨haccepts, hpost⟩ := ih (h.2 answer (hexpects _ List.mem_cons_self))
      fun event hevent ↦ hexpects event (List.mem_cons_of_mem _ hevent)
    exact ⟨⟨h.1, haccepts⟩, hpost⟩
  | running labelled hbranches _ =>
    exact ⟨(accepts_of_neutral (neutral_of_branches h.1 hbranches)).1, nofun⟩
  | joined labelled values hbranches _ _ ih =>
    obtain ⟨haccepts, hstate⟩ := accepts_of_neutral (neutral_of_branches h.1 hbranches)
    have hvalues := fun index ↦ yields_of_traces (hbranches index)
      (fun event hevent ↦ hexpects event
        (List.mem_append_left _ (mem_of_mem_projection hevent))) rfl
    obtain ⟨hlater, hpost⟩ := ih (h.2.1 values hvalues)
      fun event hevent ↦ hexpects event (List.mem_append_right _ hevent)
    rw [protocol.accepts_append, protocol.state_append, hstate]
    exact ⟨⟨haccepts, hlater⟩, hpost⟩
  | rejected labelled later thrower message _ _ hbranches _ _ _ ih =>
    obtain ⟨hlater, hpost⟩ := ih (h.2.2 message) fun event hevent ↦
      hexpects event (List.mem_append_right _ (mem_of_mem_projection hevent))
    have hneutral : ∀ index, ∀ event ∈ projection index labelled ++ projection (some index) later,
        protocol.Neutral current event.call := fun index event hevent ↦
      not_not.mp ((hbranches index).not_of_avoids (h.1 index) event hevent)
    have hbefore : ∀ event ∈ labelled.map Prod.snd, protocol.Neutral current event.call :=
      forall_mem_of_projections fun index event hevent ↦
        hneutral index event (List.mem_append_left _ hevent)
    obtain ⟨haccepts, hstate⟩ := accepts_of_neutral hbefore
    have hothers : ∀ entry ∈ later, entry.1 ≠ none → protocol.Neutral current entry.2.call := by
      intro entry hentry hsource
      obtain ⟨index, hindex⟩ := Option.ne_none_iff_exists'.mp hsource
      refine hneutral index entry.2 (List.mem_append_right _ ?_)
      exact mem_projection_of_mem (hindex ▸ hentry)
    obtain ⟨hinterleaved, hsame⟩ := accepts_interleaved hothers hlater
    rw [protocol.accepts_append, protocol.state_append, hstate, hsame]
    exact ⟨⟨haccepts, hinterleaved⟩, hpost⟩

theorem Follows.permits_last (htraces : Traces program (log ++ [event]) outcome)
    (hexpects : ∀ other ∈ log ++ [event], protocol.expects other) :
    protocol.permits (protocol.state current log) event.call := by
  have haccepts := (h.sound htraces hexpects).1
  rw [protocol.accepts_append] at haccepts
  exact haccepts.2.1

end

end Program

/-! ### Protocols of concurrent programs -/

section

variable {ι : Type*} [DecidableEq ι] {Outcome : ι → Type}
  {programs : ∀ thread, Program Answer (Outcome thread)} {sem : Semantics Answer World}
  {world : World} {log : Trail ι Answer} (protocol : Protocol Answer Local)
  (initial : ι → Local)

def Protocol.states (log : Trail ι Answer) (thread : ι) : Local :=
  protocol.state (initial thread) (projection thread log)

theorem Protocol.states_concat (before : Trail ι Answer) (entry : ι × Event Answer) :
    protocol.states initial (before ++ [entry]) =
      Function.update (protocol.states initial before) entry.1
        (protocol.advance (protocol.states initial before entry.1) entry.2) := by
  obtain ⟨source, event⟩ := entry
  funext thread
  unfold Protocol.states
  by_cases hthread : thread = source
  · rw [hthread, Function.update_self, projection_concat_self, protocol.state_append]
    rfl
  · rw [Function.update_of_ne hthread, projection_append, projection_singleton_of_ne (Ne.symm hthread),
      List.append_nil]

variable {protocol} {initial} {post : ∀ thread, Except String (Outcome thread) → Local → Prop}
  (hfollows : ∀ thread, (programs thread).Follows protocol (post thread) (initial thread))

theorem Concurrent.expects {expects : Event Answer → Prop}
    (h : Concurrent programs sem world log) (invariant : World → Prop) (hworld : invariant world)
    (hstep : ∀ world event, invariant world → sem.allows world event →
      invariant (sem.after world event) ∧ expects event) :
    ∀ entry ∈ log, expects entry.2 := by
  intro entry hentry
  obtain ⟨before, after, hsplit, hallows⟩ :=
    h.consistent.exists_allows (List.mem_map_of_mem hentry)
  have hconsistent := h.consistent
  rw [hsplit, sem.consistent_append] at hconsistent
  have hbefore : invariant (sem.final world before) :=
    sem.final_invariant (fun event _ world hworld hallows ↦ (hstep world event hworld hallows).1)
      hconsistent.1 hworld
  exact (hstep _ _ hbefore hallows).2

include hfollows

/-- Every step of a run is permitted in the local state before it. -/
theorem Concurrent.permits_last {entry : ι × Event Answer}
    (h : Concurrent programs sem world (log ++ [entry]))
    (hexpects : ∀ other ∈ log ++ [entry], protocol.expects other.2) :
    protocol.permits (protocol.states initial log entry.1) entry.2.call := by
  have htraces := h.traces entry.1
  have hanswers : ∀ event ∈ projection entry.1 (log ++ [entry]), protocol.expects event :=
    fun event hevent ↦ by
      obtain ⟨other, hother, rfl⟩ := List.mem_map.mp (mem_of_mem_projection hevent)
      exact hexpects other hother
  rw [projection_append, ← Prod.mk.eta (p := entry), projection_singleton_self] at htraces hanswers
  exact (hfollows entry.1).permits_last htraces hanswers

theorem Concurrent.ends (hexpects : ∀ entry ∈ log, protocol.expects entry.2) {thread : ι}
    {result : Except String (Outcome thread)}
    (htraces : Traces (programs thread) (projection thread log) (some result)) :
    post thread result (protocol.states initial log thread) := by
  refine ((hfollows thread).sound htraces fun event hevent ↦ ?_).2 result rfl
  obtain ⟨entry, hentry, rfl⟩ := List.mem_map.mp (mem_of_mem_projection hevent)
  exact hexpects entry hentry

/-- What holds of the world and the local states at first and is preserved by every step that meets
the condition. -/
theorem Concurrent.invariant (invariant : World → (ι → Local) → Prop)
    (condition : World → (ι → Local) → ι → Event Answer → Prop)
    (hinitial : invariant world initial)
    (hstep : ∀ world states thread event, invariant world states →
      protocol.permits (states thread) event.call → sem.allows world event →
      condition world states thread event →
      invariant (sem.after world event)
        (Function.update states thread (protocol.advance (states thread) event)))
    (h : Concurrent programs sem world log) (hexpects : ∀ entry ∈ log, protocol.expects entry.2)
    (hcondition : EveryStep (fun before entry ↦ condition (sem.final world (before.map Prod.snd))
      (protocol.states initial before) entry.1 entry.2) log) :
    invariant (sem.final world (log.map Prod.snd)) (protocol.states initial log) := by
  induction log using List.reverseRecOn with
  | nil => exact hinitial
  | append_singleton before entry ih =>
    have hbefore := ih h.of_append
      (fun other hother ↦ hexpects other (List.mem_append_left _ hother)) hcondition.of_append
    rw [List.map_append, sem.final_append, protocol.states_concat]
    exact hstep _ _ _ _ hbefore (h.permits_last hfollows hexpects) h.allows_last hcondition.last

end

end Bridgeport.Foundation
