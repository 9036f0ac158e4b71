import Bridgeport.Foundation.Threads

/-!
# Histories and raised flags

`historyProtocol` judges a call by the calls that the program has made before.

A flag belongs to a key in a scope. A step lowers flags, clears a scope but for one key, or raises
the flag of a key (`FlagStep`). If a flag is raised only when its scope has been cleared for it and
no other key of the scope has been raised since (`ClearedSince`), no scope has two raised flags
(`oneRaised`).
-/

namespace Bridgeport.Foundation

section

open List

variable {Call : Type} {Answer : Call → Type} {α β : Type}

/-! ### Histories as local states -/

/-- The protocol of programs that may make a call after a history. -/
def historyProtocol (permits : List (Event Answer) → Call → Prop)
    (expects : Event Answer → Prop) : Protocol Answer (List (Event Answer)) where
  permits := permits
  advance history event := history ++ [event]
  expects := expects

variable (history : List (Event Answer))

theorem state_historyProtocol {permits : List (Event Answer) → Call → Prop}
    {expects : Event Answer → Prop} (log : List (Event Answer)) :
    (historyProtocol permits expects).state history log = history ++ log := by
  induction log generalizing history with
  | nil => exact (append_nil history).symm
  | cons event rest ih =>
    exact (ih (history ++ [event])).trans (append_assoc history [event] rest)

/-- The last call of a history has thrown. -/
def EndsThrowing : Prop :=
  ∃ before event, history = before ++ [event] ∧ event.threw = true

/-- A program that has failed has failed in its last call, or has made idle calls only. -/
def FailsLast (idle : Event Answer → Prop) (result : Except String α)
    (history : List (Event Answer)) : Prop :=
  ∀ message, result = .error message → EndsThrowing history ∨ ∀ event ∈ history, idle event

section

variable {idle : Event Answer → Prop}

theorem failsLast_ok (value : α) (history : List (Event Answer)) :
    FailsLast idle (.ok value) history :=
  nofun

theorem failsLast_concat (message : String) (history : List (Event Answer)) (request : Call) :
    FailsLast idle (.error message : Except String α) (history ++ [⟨request, .error message⟩]) :=
  fun _ _ ↦ .inl ⟨history, ⟨request, .error message⟩, rfl, rfl⟩

theorem failsLast_answer {request : Call} (answer : Except String (Answer request)) :
    FailsLast idle answer (history ++ [⟨request, answer⟩]) := by
  cases answer with
  | ok value => exact failsLast_ok _ _
  | error message => exact failsLast_concat message history request

end

section

variable {ι World : Type*} [DecidableEq ι] {Outcome : ι → Type}
  {programs : ∀ thread, Program Answer (Outcome thread)} {sem : Semantics Answer World}
  {world : World} {log : Trail ι Answer}
  {permits : List (Event Answer) → Call → Prop}
  {post : ∀ thread, Except String (Outcome thread) → List (Event Answer) → Prop}

/-- What holds of the last step of every run holds of every step. -/
theorem Concurrent.everyStep {condition : Trail ι Answer → ι × Event Answer → Prop}
    (h : Concurrent programs sem world log)
    (hlast : ∀ before entry, Concurrent programs sem world (before ++ [entry]) →
      condition before entry) : EveryStep condition log := by
  intro before entry after hsplit
  refine hlast before entry ?_
  rw [hsplit, append_cons] at h
  exact h.of_append

theorem Concurrent.permits_projection {entry : ι × Event Answer}
    (h : Concurrent programs sem world (log ++ [entry]))
    (hfollows : ∀ thread, (programs thread).Follows (historyProtocol permits fun _ ↦ True)
      (post thread) []) : permits (projection entry.1 log) entry.2.call := by
  have hpermits := h.permits_last hfollows fun _ _ ↦ trivial
  rw [Protocol.states, state_historyProtocol, nil_append] at hpermits
  exact hpermits

theorem post_projection
    (hfollows : ∀ thread, (programs thread).Follows (historyProtocol permits fun _ ↦ True)
      (post thread) []) {thread : ι} {result : Except String (Outcome thread)}
    (htraces : Traces (programs thread) (projection thread log) (some result)) :
    post thread result (projection thread log) := by
  have hends := Concurrent.ends hfollows (fun _ _ ↦ trivial) htraces
  rw [Protocol.states, state_historyProtocol, nil_append] at hends
  exact hends

end

namespace Program

section

variable {Outer : Type} {OuterAnswer : Outer → Type} {embed : Call → Outer} {Local : Type*}
  {outer : Protocol OuterAnswer Local} {current : Local}

theorem lift_resume (program : Program (fun request ↦ OuterAnswer (embed request)) α)
    (next : Except String α → Program (fun request ↦ OuterAnswer (embed request)) β) :
    (program.resume next).lift embed =
      (program.lift embed).resume fun result ↦ (next result).lift embed := by
  induction program with
  | done result => rfl
  | call request answer ih =>
    exact congrArg (Program.call (embed request)) (funext fun result ↦ ih result next)
  | all count branches joined _ ih =>
    exact congrArg (Program.all count _) (funext fun results ↦ ih results next)

variable {next : α → Program (fun request ↦ OuterAnswer (embed request)) β}
  {program : Program (fun request ↦ OuterAnswer (embed request)) α}
  {post : Except String β → Local → Prop}

theorem follows_lift_bind
    (h : (program.lift embed).Follows outer (fun result state ↦ match result with
      | .ok value => ((next value).lift embed).Follows outer post state
      | .error message => post (.error message) state) current) :
    ((program >>= next).lift embed).Follows outer post current := by
  rw [bind_eq, bind, lift_resume, follows_resume]
  refine h.mono fun result state hresult ↦ ?_
  cases result with
  | ok _ | error _ => exact hresult

theorem follows_lift_bind_of (returned : α → Local → Prop)
    (h : (program.lift embed).Follows outer (Ends returned fun message ↦ post (.error message)) current)
    (hnext : ∀ value state, returned value state →
      ((next value).lift embed).Follows outer post state) :
    ((program >>= next).lift embed).Follows outer post current := by
  refine follows_lift_bind (h.mono fun result state hresult ↦ ?_)
  cases result with
  | ok value => exact hnext value state hresult
  | error message => exact hresult

/-- An embedded program that may be skipped. -/
theorem follows_lift_when {condition : Prop} [Decidable condition]
    {program : Program (fun request ↦ OuterAnswer (embed request)) Unit}
    {post : Except String Unit → Local → Prop}
    (hrun : condition → (program.lift embed).Follows outer post current)
    (hskip : ¬condition → post (.ok ()) current) :
    ((Program.when condition program).lift embed).Follows outer post current := by
  unfold Program.when
  split_ifs with hcondition
  · exact hrun hcondition
  · exact hskip hcondition

theorem follows_lift_perform {request : Call}
    {post : Except String (OuterAnswer (embed request)) → Local → Prop}
    (hpermits : outer.permits current (embed request))
    (hpost : ∀ answer, outer.expects ⟨embed request, answer⟩ →
      post answer (outer.advance current ⟨embed request, answer⟩)) :
    ((perform request : Program (fun request ↦ OuterAnswer (embed request)) _).lift
      embed).Follows outer post current :=
  ⟨hpermits, hpost⟩

end

end Program

section

variable {ι Value : Type*} [DecidableEq ι] {value : Trail ι Answer → Value}
  {log : Trail ι Answer} {thread : ι}

/-- No call of a thread has changed a value. -/
def KeptBy (value : Trail ι Answer → Value) (thread : ι) (log : Trail ι Answer) : Prop :=
  ∀ before event after, log = before ++ (thread, event) :: after →
    value (before ++ [(thread, event)]) = value before

omit [DecidableEq ι] in
theorem keptBy_of_forall_ne (h : ∀ entry ∈ log, entry.1 ≠ thread) : KeptBy value thread log := by
  rintro before event after rfl
  exact absurd rfl (h (thread, event) (mem_append_right before mem_cons_self))

/-- A call throws only if the calls of its thread before it have changed nothing. -/
def ThrowsUnchanged (value : Trail ι Answer → Value)
    (before : Trail ι Answer) (entry : ι × Event Answer) : Prop :=
  entry.2.threw = true → KeptBy value entry.1 before

/-- A thread whose last call has thrown has changed nothing. Assumes: a call that throws changes
nothing itself. -/
theorem kept_of_threw
    (hthrew : ∀ before entry after, log = before ++ entry :: after → entry.2.threw = true →
      value (before ++ [entry]) = value before)
    (hunchanged : EveryStep (ThrowsUnchanged value) log)
    (hends : EndsThrowing (projection thread log)) : KeptBy value thread log := by
  intro before event after hsplit
  obtain ⟨earlier, failing, hlast, hfailing⟩ := hends
  rw [hsplit, projection_append, projection_cons, if_pos rfl] at hlast
  cases hrest : projection thread after with
  | nil =>
    -- the call is the one that has thrown
    rw [hrest] at hlast
    obtain ⟨-, hevent⟩ := append_inj' hlast rfl
    obtain rfl : event = failing := singleton_inj.mp hevent
    exact hthrew before (thread, event) after hsplit hfailing
  | cons next rest =>
    have hmem : failing ∈ projection thread after := by
      have hsame := congrArg List.getLast? hlast
      rw [List.getLast?_concat, hrest, List.getLast?_append] at hsame
      rw [hrest]
      refine mem_of_getLast? ?_
      simpa using hsame
    obtain ⟨middle, final, rfl⟩ := append_of_mem (mem_projection_iff.mp hmem)
    have hkept := hunchanged (before ++ (thread, event) :: middle) (thread, failing) final
      (by rw [hsplit]; simp) hfailing
    exact hkept before event middle rfl

end

end

open List

variable {Scope Key ε : Type*}

inductive FlagStep (Scope Key : Type*)
  | lower
  | clear (scope : Scope) (spared : Option Key)
  | raise (scope : Scope) (key : Key)

def FlagStep.Allows : FlagStep Scope Key → Set (Scope × Key) → Set (Scope × Key) → Prop
  | lower, before, after => after ⊆ before
  | clear scope spared, before, after =>
    after ⊆ before ∧ ∀ key, (scope, key) ∈ after → spared = some key
  | raise scope key, before, after => after ⊆ insert (scope, key) before

/-- A step does what it says if every flag behind it has been raised by it, or has been there before
and is none that it clears. -/
theorem FlagStep.allows_of_forall {step : FlagStep Scope Key} {before after : Set (Scope × Key)}
    (h : ∀ scope key, (scope, key) ∈ after → step = .raise scope key ∨
      (scope, key) ∈ before ∧ ∀ spared, step = .clear scope spared → spared = some key) :
    step.Allows before after := by
  cases step with
  | lower =>
    rintro ⟨scope, key⟩ hmem
    exact (h scope key hmem).elim nofun And.left
  | clear scope spared =>
    refine ⟨?_, fun key hmem ↦ (h scope key hmem).elim nofun fun hkept ↦ hkept.2 spared rfl⟩
    rintro ⟨other, key⟩ hmem
    exact (h other key hmem).elim nofun And.left
  | raise scope key =>
    rintro ⟨other, raised⟩ hmem
    rcases h other raised hmem with hraise | hkept
    · obtain ⟨rfl, rfl⟩ := FlagStep.raise.inj hraise
      exact .inl rfl
    · exact .inr hkept.1

/-- No scope has two raised flags. -/
def OneRaised (flags : Set (Scope × Key)) : Prop :=
  ∀ scope first second, (scope, first) ∈ flags → (scope, second) ∈ flags → first = second

def ClearedSince (kind : ε → FlagStep Scope Key) (scope : Scope) (key : Key) (before : List ε) :
    Prop :=
  ∃ first clearing rest spared, before = first ++ clearing :: rest ∧
    kind clearing = .clear scope spared ∧ (∀ other ∈ spared, other = key) ∧
      ∀ entry ∈ rest, ∀ other, kind entry = .raise scope other → other = key

variable {scope : Scope}

section

variable {kind : ε → FlagStep Scope Key} {flags : List ε → Set (Scope × Key)} {log : List ε}

theorem OneRaised.subset {before after : Set (Scope × Key)} (h : OneRaised before)
    (hsubset : after ⊆ before) : OneRaised after :=
  fun scope first second hfirst hsecond ↦ h scope first second (hsubset hfirst) (hsubset hsecond)

variable (hsteps : EveryStep (fun before entry ↦ (kind entry).Allows (flags before) (flags (before
  ++ [entry]))) log)
include hsteps

theorem eq_of_clearedSince {key : Key} (hcleared : ClearedSince kind scope key log) {other : Key}
    (hother : (scope, other) ∈ flags log) : other = key := by
  obtain ⟨first, clearing, rest, spared, rfl, hclearing, hspared, hrest⟩ := hcleared
  induction rest using List.reverseRecOn with
  | nil =>
    have hstep : (kind clearing).Allows (flags first) (flags (first ++ [clearing])) :=
      hsteps first clearing [] rfl
    rw [hclearing] at hstep
    exact hspared other (hstep.2 other hother)
  | append_singleton rest entry ih =>
    have hsplit : first ++ clearing :: (rest ++ [entry]) = (first ++ clearing :: rest) ++ [entry] := by
      simp
    rw [hsplit] at hsteps hother
    have hbefore : (scope, other) ∈ flags (first ++ clearing :: rest) → other = key :=
      fun hmem ↦ ih hsteps.of_append hmem
        fun earlier hearlier ↦ hrest earlier (mem_append_left _ hearlier)
    have hstep : (kind entry).Allows (flags (first ++ clearing :: rest))
      (flags (first ++ clearing :: rest ++ [entry])) := hsteps.last
    cases hkind : kind entry with
    | lower =>
      rw [hkind] at hstep
      exact hbefore (hstep hother)
    | clear scope spared =>
      rw [hkind] at hstep
      exact hbefore (hstep.1 hother)
    | raise raisedScope raised =>
      rw [hkind] at hstep
      rcases hstep hother with hraised | hmem
      · obtain ⟨rfl, rfl⟩ := Prod.mk.inj hraised
        exact hrest entry (by simp) other hkind
      · exact hbefore hmem

theorem oneRaised (hinitial : OneRaised (flags []))
    (hcleared : EveryStep (fun before entry ↦ ∀ scope key, kind entry = .raise scope key →
      ClearedSince kind scope key before) log) : OneRaised (flags log) := by
  induction log using List.reverseRecOn with
  | nil => exact hinitial
  | append_singleton before entry ih =>
    have hbefore := ih hsteps.of_append hcleared.of_append
    have hstep : (kind entry).Allows (flags before) (flags (before ++ [entry])) := hsteps.last
    cases hkind : kind entry with
    | lower =>
      rw [hkind] at hstep
      exact hbefore.subset hstep
    | clear scope spared =>
      rw [hkind] at hstep
      exact hbefore.subset hstep.1
    | raise raisedScope raised =>
      rw [hkind] at hstep
      have honly : ∀ other, (raisedScope, other) ∈ flags before → other = raised := fun other ↦
        eq_of_clearedSince hsteps.of_append (hcleared.last raisedScope raised hkind)
      intro scope first second hfirst hsecond
      rcases hstep hfirst with hfirst | hfirst <;> rcases hstep hsecond with hsecond | hsecond
      · exact (congrArg Prod.snd hfirst).trans (congrArg Prod.snd hsecond).symm
      · obtain ⟨rfl, rfl⟩ := Prod.mk.inj hfirst
        exact (honly second hsecond).symm
      · obtain ⟨rfl, rfl⟩ := Prod.mk.inj hsecond
        exact honly first hfirst
      · exact hbefore scope first second hfirst hsecond

end

/-! ### Concurrent programs -/

section

variable {ι Value World : Type*} [DecidableEq ι] {Call : Type} {Answer : Call → Type}
  {Outcome : ι → Type} (kind : Event Answer → FlagStep Scope Key)
  (before : Trail ι Answer) (entry : ι × Event Answer)

/-- No other flag of the scope is raised between a clear of a thread and its raise. -/
def Unraced : Prop :=
  ∀ scope key, kind entry.2 = .raise scope key → ∀ first clearing rest spared,
    before = first ++ (entry.1, clearing) :: rest → kind clearing = .clear scope spared →
      ∀ other ∈ rest, ∀ raised, kind other.2 = .raise scope raised → raised = key

/-- The thread has cleared the scope for the key that it raises. -/
def ClearsFirst : Prop :=
  ∀ scope key, kind entry.2 = .raise scope key → ∃ clearing ∈ projection entry.1 before,
    ∃ spared, kind clearing = .clear scope spared ∧ ∀ other ∈ spared, other = key

variable {entry : ι × Event Answer} {kind : Event Answer → FlagStep Scope Key}

theorem Unraced.clearedSince {before : Trail ι Answer}
    (hunraced : Unraced kind before entry) (hclears : ClearsFirst kind before entry) {key : Key}
    (hraise : kind entry.2 = .raise scope key) :
    ClearedSince (fun entry ↦ kind entry.2) scope key before := by
  obtain ⟨clearing, hmem, spared, hclearing, hspared⟩ := hclears scope key hraise
  obtain ⟨first, rest, hsplit⟩ := append_of_mem (mem_projection_iff.mp hmem)
  exact ⟨first, (entry.1, clearing), rest, spared, hsplit, hclearing, hspared,
    hunraced scope key hraise first clearing rest spared hsplit hclearing⟩

omit [DecidableEq ι] in
theorem unraced_of_forall {before : Trail ι Answer}
    (h : ∀ scope key, kind entry.2 = .raise scope key → ∀ other ∈ before, ∀ raised,
      kind other.2 ≠ .raise scope raised) : Unraced kind before entry := by
  rintro scope key hraise first clearing rest spared rfl - other hother raised hother'
  have hmem : other ∈ first ++ (entry.1, clearing) :: rest :=
    mem_append_right first (mem_cons_of_mem _ hother)
  exact absurd hother' (h scope key hraise other hmem raised)

/-- When no program is in flight, no scope has two raised flags, and a program that has failed has
changed no flag. -/
structure FlagsKept (programs : ∀ thread, Program Answer (Outcome thread))
    (raised : Trail ι Answer → Set (Scope × Key))
    (flags : Trail ι Answer → Value) (log : Trail ι Answer) :
    Prop where
  unique : (∀ thread, projection thread log = [] ∨
    ∃ result, Traces (programs thread) (projection thread log) (some result)) → OneRaised (raised log)
  kept : ∀ thread message, Traces (programs thread) (projection thread log) (some (.error message)) →
    KeptBy flags thread log

/-- No flag is raised between a clear and its raise, and a call throws only if its program has
changed no flag before. -/
structure FlagOrderly (kind : Event Answer → FlagStep Scope Key)
    (flags : Trail ι Answer → Value) (before : Trail ι Answer)
    (entry : ι × Event Answer) : Prop where
  unraced : Unraced kind before entry
  unchanged : ThrowsUnchanged flags before entry

/-- Assumes: a program clears a scope before it raises a flag of it, and the calls that throw and
those that are idle change no flag. -/
theorem flagsKept {programs : ∀ thread, Program Answer (Outcome thread)}
    {idle : Event Answer → Prop} {raised : Trail ι Answer → Set (Scope × Key)}
    {flags : Trail ι Answer → Value} {log : Trail ι Answer}
    (hsteps : EveryStep (fun before entry ↦
      (kind entry.2).Allows (raised before) (raised (before ++ [entry]))) log)
    (hinitial : OneRaised (raised [])) (hclears : EveryStep (ClearsFirst kind) log)
    (hthrew : ∀ before entry, entry.2.threw = true → flags (before ++ [entry]) = flags before)
    (hidle : ∀ before entry, idle entry.2 → flags (before ++ [entry]) = flags before)
    (hfails : ∀ thread result, Traces (programs thread) (projection thread log) (some result) →
      FailsLast idle result (projection thread log))
    (horderly : EveryStep (FlagOrderly kind flags) log) : FlagsKept programs raised flags log where
  unique _ := by
    refine oneRaised hsteps hinitial fun before entry after hsplit scope key hraise ↦ ?_
    have hunraced := (horderly before entry after hsplit).unraced
    exact hunraced.clearedSince (hclears before entry after hsplit) hraise
  kept thread message htraces := by
    rcases hfails thread _ htraces message rfl with hthrowing | honly
    · refine kept_of_threw (fun before entry _ _ ↦ hthrew before entry) ?_ hthrowing
      exact fun before entry after hsplit ↦ (horderly before entry after hsplit).unchanged
    · intro before event after hsplit
      refine hidle before (thread, event) (honly event (mem_projection_iff.mpr ?_))
      exact hsplit ▸ mem_append_right before mem_cons_self

end

end Bridgeport.Foundation
