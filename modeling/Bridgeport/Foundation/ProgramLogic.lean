import Bridgeport.Foundation.Program

/-!
# Sequential programs and their effects

A `Semantics` says which answers a world allows and how a call changes it. `program.Meets sem post`
is the weakest precondition of a sequential program: in every world that satisfies it, every run
that ends does so with an outcome and a world that satisfy `post` (`Meets.sound`). It is computed by
recursion over the program and passes through `resume` unchanged, so that a caller uses what is
known about a callee without its body.
-/

namespace Bridgeport.Foundation

open List

structure Semantics {Call : Type} (Answer : Call → Type) (World : Type*) where
  allows : World → Event Answer → Prop
  after : World → Event Answer → World

variable {Call : Type} {Answer : Call → Type} {World : Type*} {α β : Type}
  {log : List (Event Answer)} {world : World} {event : Event Answer}
  {invariant : World → Prop}

namespace Semantics

variable (sem : Semantics Answer World)

def final (world : World) (log : List (Event Answer)) : World :=
  log.foldl sem.after world

def Consistent : World → List (Event Answer) → Prop
  | _, [] => True
  | world, event :: rest => sem.allows world event ∧ Consistent (sem.after world event) rest

section

variable (world : World) (first second : List (Event Answer))

theorem final_append :
    sem.final world (first ++ second) = sem.final (sem.final world first) second :=
  foldl_append

theorem consistent_append :
    sem.Consistent world (first ++ second) ↔
      sem.Consistent world first ∧ sem.Consistent (sem.final world first) second := by
  induction first generalizing world with
  | nil => simp [Consistent, final]
  | cons event rest ih =>
    rw [cons_append, Consistent, Consistent, ih, and_assoc]
    rfl

end

variable {sem} in
theorem Consistent.exists_allows (h : sem.Consistent world log) (hevent : event ∈ log) :
    ∃ before after, log = before ++ event :: after ∧ sem.allows (sem.final world before) event := by
  obtain ⟨before, after, rfl⟩ := append_of_mem hevent
  rw [sem.consistent_append] at h
  exact ⟨before, after, rfl, h.2.1⟩

theorem consistent_of_forall (h : ∀ event ∈ log, ∀ world, sem.allows world event) (world : World) :
    sem.Consistent world log := by
  induction log generalizing world with
  | nil => exact trivial
  | cons event rest ih =>
    exact ⟨h event mem_cons_self world,
      ih (fun later hlater ↦ h later (mem_cons_of_mem event hlater)) _⟩

theorem final_invariant (hstep : ∀ event ∈ log, ∀ world, invariant world → sem.allows world event →
      invariant (sem.after world event)) (hconsistent : sem.Consistent world log)
    (hworld : invariant world) : invariant (sem.final world log) := by
  induction log generalizing world with
  | nil => exact hworld
  | cons event rest ih =>
    exact ih (fun later hlater ↦ hstep later (mem_cons_of_mem event hlater)) hconsistent.2
      (hstep event mem_cons_self world hworld hconsistent.1)

end Semantics

variable {program first : Program Answer α} {post : α → World → Prop}
  {next : Except String α → Program Answer β} {handler : String → Program Answer α}
  {request : Call} {result : Except String α}

namespace Program

/-! ### Sequential programs -/

/-- The program never runs two branches at once. -/
def Sequential : {α : Type} → Program Answer α → Prop
  | _, .done _ => True
  | _, .call _ next => ∀ answer, (next answer).Sequential
  | _, .all count branches next =>
    count ≤ 1 ∧ (∀ index, (branches index).Sequential) ∧ ∀ results, (next results).Sequential

theorem Sequential.resume (hprogram : program.Sequential)
    (hnext : ∀ result, (next result).Sequential) : (program.resume next).Sequential := by
  induction program with
  | done result => exact hnext result
  | call request answer ih => exact fun result ↦ ih result (hprogram result) hnext
  | all count branches joined _ ih =>
    exact ⟨hprogram.1, hprogram.2.1, fun results ↦ ih results (hprogram.2.2 results) hnext⟩

structure Quiet (kind : Call → Prop) (program : Program Answer α) : Prop where
  sequential : program.Sequential
  avoids : program.Avoids kind

variable {condition : Prop} {second : Program Answer α}

section

variable {kind : Call → Prop}

theorem Quiet.resume (hprogram : program.Quiet kind) (hnext : ∀ result, (next result).Quiet kind) :
    (program.resume next).Quiet kind :=
  ⟨hprogram.sequential.resume fun result ↦ (hnext result).sequential,
    hprogram.avoids.resume fun result ↦ (hnext result).avoids⟩

theorem quiet_done (result : Except String α) : (done result : Program Answer α).Quiet kind :=
  ⟨trivial, trivial⟩

theorem quiet_pure (value : α) : (pure value : Program Answer α).Quiet kind :=
  quiet_done _

theorem quiet_throw (message : String) : (throw message : Program Answer α).Quiet kind :=
  quiet_done _

theorem quiet_perform (h : ¬ kind request) : (perform request : Program Answer _).Quiet kind :=
  ⟨fun _ ↦ trivial, avoids_perform h⟩

theorem quiet_emit (h : ¬ kind request) : (emit request : Program Answer Unit).Quiet kind :=
  ⟨fun _ ↦ trivial, avoids_emit h⟩

theorem Quiet.bind {next : α → Program Answer β} (hprogram : program.Quiet kind)
    (hnext : ∀ value, (next value).Quiet kind) : (program >>= next).Quiet kind := by
  refine hprogram.resume fun result ↦ ?_
  cases result with
  | ok value => exact hnext value
  | error message => exact quiet_done _

theorem quiet_call {next : Answer request → Program Answer β} (h : ¬ kind request)
    (hnext : ∀ value, (next value).Quiet kind) : (perform request >>= next).Quiet kind :=
  (quiet_perform h).bind hnext

theorem Quiet.tryCatch (hprogram : program.Quiet kind)
    (hhandler : ∀ message, (handler message).Quiet kind) :
    (program.tryCatch handler).Quiet kind := by
  refine hprogram.resume fun result ↦ ?_
  cases result with
  | ok value => exact quiet_done _
  | error message => exact hhandler message

theorem Quiet.ite [Decidable condition] (hfirst : first.Quiet kind) (hsecond : second.Quiet kind) :
    (if condition then first else second).Quiet kind := by
  split_ifs
  · exact hfirst
  · exact hsecond

theorem Quiet.when [Decidable condition] {program : Program Answer Unit}
    (hprogram : program.Quiet kind) : (when condition program).Quiet kind :=
  hprogram.ite (quiet_pure _)

theorem Quiet.mono {fewer : Call → Prop} (h : program.Quiet kind)
    (himp : ∀ request, fewer request → kind request) : program.Quiet fewer :=
  ⟨h.sequential, h.avoids.mono himp⟩

end

/-! ### The weakest precondition -/

variable (sem : Semantics Answer World)

/-- The outcome of the only branch as the outcome of `all`. -/
def onlyBranch {count : ℕ} (result : Except String α) : Except String (Fin count → α) :=
  result.map fun value _ ↦ value

/-- Every run from the world ends as `post` says. -/
def Meets : {α : Type} → Program Answer α → (Except String α → World → Prop) → World → Prop
  | _, .done result, post, world => post result world
  | _, .call request next, post, world =>
    ∀ answer, sem.allows world ⟨request, answer⟩ →
      (next answer).Meets post (sem.after world ⟨request, answer⟩)
  | _, .all 0 _ next, post, world => ∀ values, (next (.ok values)).Meets post world
  | _, .all 1 branches next, post, world =>
    (branches 0).Meets (fun result ↦ (next (onlyBranch result)).Meets post) world
  | _, .all (_ + 2) _ _, _, _ => False

variable {sem}

theorem Meets.mono {post weaker : Except String α → World → Prop} (h : program.Meets sem post world)
    (himp : ∀ result world, post result world → weaker result world) :
    program.Meets sem weaker world := by
  induction program generalizing world with
  | done result => exact himp result world h
  | call request next ih =>
    exact fun answer hallowed ↦ ih answer (h answer hallowed) himp
  | all count branches next ihbranches ih =>
    match count with
    | 0 => exact fun values ↦ ih _ (h values) himp
    | 1 => exact ihbranches 0 h fun result world hresult ↦ ih _ hresult himp
    | count + 2 => exact h

@[simp]
theorem meets_resume {post : Except String β → World → Prop} :
    (program.resume next).Meets sem post world ↔
      program.Meets sem (fun result ↦ (next result).Meets sem post) world := by
  induction program generalizing world with
  | done result => exact Iff.rfl
  | call request answer ih => exact forall_congr' fun result ↦ imp_congr_right fun _ ↦ ih result
  | all count branches joined _ ih =>
    match count with
    | 0 => exact forall_congr' fun values ↦ ih _
    | 1 =>
      show (branches 0).Meets sem (fun result ↦
          ((joined (onlyBranch result)).resume next).Meets sem post) world ↔
        (branches 0).Meets sem (fun result ↦ (joined (onlyBranch result)).Meets sem
          fun result ↦ (next result).Meets sem post) world
      exact ⟨fun h ↦ h.mono fun _ _ ↦ (ih _).mp, fun h ↦ h.mono fun _ _ ↦ (ih _).mpr⟩
    | count + 2 => exact Iff.rfl

theorem meets_bind {next : α → Program Answer β} {post : Except String β → World → Prop} :
    (program >>= next).Meets sem post world ↔
      program.Meets sem (fun result world ↦ match result with
        | .ok value => (next value).Meets sem post world
        | .error message => post (.error message) world) world := by
  refine meets_resume.trans (iff_of_eq (congrArg (program.Meets sem · world) ?_))
  funext result
  cases result with
  | ok _ | error _ => rfl

theorem meets_perform_bind {next : Answer request → Program Answer β}
    {post : Except String β → World → Prop} : (perform request >>= next).Meets sem post world ↔
      (∀ value, sem.allows world ⟨request, .ok value⟩ →
        (next value).Meets sem post (sem.after world ⟨request, .ok value⟩)) ∧
      ∀ message, sem.allows world ⟨request, .error message⟩ →
        post (.error message) (sem.after world ⟨request, .error message⟩) := by
  constructor
  · exact fun h ↦ ⟨fun value ↦ h (.ok value), fun message ↦ h (.error message)⟩
  · intro h answer
    cases answer with
    | ok value => exact h.1 value
    | error message => exact h.2 message

theorem meets_emit_bind {next : Unit → Program Answer β}
    {post : Except String β → World → Prop} : (emit request >>= next).Meets sem post world ↔
      ∀ answer, sem.allows world ⟨request, answer⟩ →
        (next ()).Meets sem post (sem.after world ⟨request, answer⟩) :=
  Iff.rfl

theorem meets_tryCatch {post : Except String α → World → Prop} :
    (program.tryCatch handler).Meets sem post world ↔
      program.Meets sem (fun result world ↦ match result with
        | .ok value => post (.ok value) world
        | .error message => (handler message).Meets sem post world) world := by
  refine meets_resume.trans (iff_of_eq (congrArg (program.Meets sem · world) ?_))
  funext result
  cases result with
  | ok _ | error _ => rfl

theorem Meets.ite [Decidable condition] {post : Except String α → World → Prop}
    (hfirst : condition → first.Meets sem post world)
    (hsecond : ¬ condition → second.Meets sem post world) :
    (if condition then first else second).Meets sem post world := by
  split_ifs with hcondition
  · exact hfirst hcondition
  · exact hsecond hcondition

theorem meets_of_quiet {kind : Call → Prop}
    (hstep : ∀ event world, ¬ kind event.call → invariant world → sem.allows world event →
      invariant (sem.after world event)) (hquiet : program.Quiet kind) (hworld : invariant world) :
    program.Meets sem (fun _ ↦ invariant) world := by
  obtain ⟨hsequential, havoids⟩ := hquiet
  induction program generalizing world with
  | done result => exact hworld
  | call request next ih =>
    exact fun answer hallowed ↦ ih answer
      (hstep ⟨request, answer⟩ world havoids.1 hworld hallowed) (hsequential answer)
      (havoids.2 answer)
  | all count branches next ihbranches ih =>
    match count with
    | 0 => exact fun values ↦ ih _ hworld (hsequential.2.2 _) (havoids.2 _)
    | 1 =>
      exact (ihbranches 0 hworld (hsequential.2.1 0) (havoids.1 0)).mono fun result world hresult ↦
        ih _ hresult (hsequential.2.2 _) (havoids.2 _)
    | count + 2 => exact absurd hsequential.1 (by omega)

/-- Two postconditions hold together. -/
theorem Meets.and {first second : Except String α → World → Prop}
    (hfirst : program.Meets sem first world) (hsecond : program.Meets sem second world) :
    program.Meets sem (fun result world ↦ first result world ∧ second result world) world := by
  induction program generalizing world with
  | done result => exact ⟨hfirst, hsecond⟩
  | call request next ih =>
    exact fun answer hallowed ↦ ih answer (hfirst answer hallowed) (hsecond answer hallowed)
  | all count branches next ihbranches ih =>
    match count with
    | 0 => exact fun values ↦ ih _ (hfirst values) (hsecond values)
    | 1 =>
      exact (ihbranches 0 hfirst hsecond).mono fun result world hboth ↦ ih _ hboth.1 hboth.2
    | count + 2 => exact hfirst

/-- Every run from the world that ends with a value does so as `post` says. -/
def Ensures (sem : Semantics Answer World) (program : Program Answer α)
    (post : α → World → Prop) (world : World) : Prop :=
  program.Meets sem (fun result world ↦ ∀ value, result = .ok value → post value world) world

theorem ensures_pure {value : α} :
    (pure value : Program Answer α).Ensures sem post world ↔ post value world :=
  ⟨fun h ↦ h value rfl, fun h _ hvalue ↦ Except.ok.inj hvalue ▸ h⟩

theorem ensures_throw (message : String) (post : α → World → Prop) (world : World) :
    (throw message : Program Answer α).Ensures sem post world :=
  nofun

variable {weaker : α → World → Prop}

section

variable {program : Program Answer α}

theorem Ensures.mono (h : program.Ensures sem post world)
    (himp : ∀ value world, post value world → weaker value world) :
    program.Ensures sem weaker world :=
  Meets.mono h fun _ world hpost value hvalue ↦ himp value world (hpost value hvalue)

theorem Meets.ensures {post : Except String α → World → Prop} (h : program.Meets sem post world) :
    program.Ensures sem (fun value ↦ post (.ok value)) world := by
  refine h.mono fun result world hpost value hvalue ↦ ?_
  rw [hvalue] at hpost
  exact hpost

theorem Ensures.and {first second : α → World → Prop} (hfirst : program.Ensures sem first world)
    (hsecond : program.Ensures sem second world) :
    program.Ensures sem (fun value world ↦ first value world ∧ second value world) world :=
  (Meets.and hfirst hsecond).mono fun _ _ hboth value hvalue ↦
    ⟨hboth.1 value hvalue, hboth.2 value hvalue⟩

theorem ensures_bind {next : α → Program Answer β} {post : β → World → Prop}
    (h : program.Ensures sem (fun value world ↦ (next value).Ensures sem post world) world) :
    (program >>= next).Ensures sem post world := by
  refine meets_bind.mpr (Meets.mono h fun result world hresult ↦ ?_)
  cases result with
  | ok value => exact hresult value rfl
  | error message => exact nofun

end

theorem ensures_perform_bind {next : Answer request → Program Answer β}
    {post : β → World → Prop} (h : ∀ value, sem.allows world ⟨request, .ok value⟩ →
      (next value).Ensures sem post (sem.after world ⟨request, .ok value⟩)) :
    (perform request >>= next).Ensures sem post world :=
  meets_perform_bind.mpr ⟨h, fun _ _ ↦ nofun⟩

theorem ensures_perform {post : Answer request → World → Prop}
    (h : ∀ value, sem.allows world ⟨request, .ok value⟩ →
      post value (sem.after world ⟨request, .ok value⟩)) :
    (perform request : Program Answer _).Ensures sem post world := by
  intro answer hallowed value hvalue
  rw [hvalue] at hallowed ⊢
  exact h value hallowed

theorem ensures_resume {returned : α → World → Prop} {post : β → World → Prop}
    (hprogram : program.Ensures sem returned world)
    (hvalue : ∀ value after, returned value after → (next (.ok value)).Ensures sem post after)
    (herror : ∀ message after, (next (.error message)).Ensures sem post after) :
    (program.resume next).Ensures sem post world := by
  refine meets_resume.mpr (Meets.mono hprogram fun result after hresult ↦ ?_)
  cases result with
  | ok value => exact hvalue value after (hresult value rfl)
  | error message => exact herror message after

theorem ensures_tryCatch (hprogram : program.Ensures sem post world)
    (hhandler : ∀ message after, (handler message).Ensures sem post after) :
    (program.tryCatch handler).Ensures sem post world :=
  ensures_resume hprogram (fun _ _ hpost ↦ ensures_pure.mpr hpost) hhandler

theorem Ensures.ite [Decidable condition] (hfirst : condition → first.Ensures sem post world)
    (hsecond : ¬ condition → second.Ensures sem post world) :
    (if condition then first else second).Ensures sem post world :=
  Meets.ite hfirst hsecond

/-! ### Values and exceptions -/

/-- Every run from the world ends with a value as `post` says, or throws a message that `thrown` has
there. -/
def Delivers (sem : Semantics Answer World) (thrown : String → World → Prop)
    (program : Program Answer α) (post : α → World → Prop) (world : World) : Prop :=
  program.Meets sem (fun result world ↦ match result with
    | .ok value => post value world
    | .error message => thrown message world) world

section

variable {thrown : String → World → Prop}

theorem delivers_pure {value : α} (h : post value world) :
    (pure value : Program Answer α).Delivers sem thrown post world :=
  h

theorem delivers_throw (message : String) (h : thrown message world) :
    (throw message : Program Answer α).Delivers sem thrown post world :=
  h

theorem Delivers.mono (h : program.Delivers sem thrown post world)
    (himp : ∀ value world, post value world → weaker value world) :
    program.Delivers sem thrown weaker world := by
  refine Meets.mono h fun result world hresult ↦ ?_
  cases result with
  | ok value => exact himp value world hresult
  | error message => exact hresult

theorem delivers_bind {next : α → Program Answer β} {post : β → World → Prop}
    (h : program.Delivers sem thrown
      (fun value world ↦ (next value).Delivers sem thrown post world) world) :
    (program >>= next).Delivers sem thrown post world := by
  refine meets_bind.mpr (Meets.mono h fun result world hresult ↦ ?_)
  cases result with
  | ok _ | error _ => exact hresult

theorem delivers_perform_bind {next : Answer request → Program Answer β}
    {post : β → World → Prop} (hvalue : ∀ value, sem.allows world ⟨request, .ok value⟩ →
      (next value).Delivers sem thrown post (sem.after world ⟨request, .ok value⟩))
    (herror : ∀ message, sem.allows world ⟨request, .error message⟩ →
      thrown message (sem.after world ⟨request, .error message⟩)) :
    (perform request >>= next).Delivers sem thrown post world :=
  meets_perform_bind.mpr ⟨hvalue, herror⟩

theorem delivers_emit_bind {next : Unit → Program Answer β} {post : β → World → Prop}
    (h : ∀ answer, sem.allows world ⟨request, answer⟩ →
      (next ()).Delivers sem thrown post (sem.after world ⟨request, answer⟩)) :
    (emit request >>= next).Delivers sem thrown post world :=
  meets_emit_bind.mpr h

theorem delivers_tryCatch {caught : String → World → Prop}
    (hprogram : program.Delivers sem caught post world)
    (hhandler : ∀ message after, caught message after →
      (handler message).Delivers sem thrown post after) :
    (program.tryCatch handler).Delivers sem thrown post world := by
  refine meets_tryCatch.mpr (Meets.mono hprogram fun result after hresult ↦ ?_)
  cases result with
  | ok value => exact hresult
  | error message => exact hhandler message after hresult

theorem Delivers.ite [Decidable condition]
    (hfirst : condition → first.Delivers sem thrown post world)
    (hsecond : ¬ condition → second.Delivers sem thrown post world) :
    (if condition then first else second).Delivers sem thrown post world :=
  Meets.ite hfirst hsecond

end

theorem traces_all_zero {branches : Fin 0 → Program Answer β}
    {next : Except String (Fin 0 → β) → Program Answer α}
    (h : Traces (.all 0 branches next) log (some result)) :
    ∃ values, Traces (next (.ok values)) log (some result) := by
  cases h with
  | joined labelled values hbranches hnext =>
    have hempty : labelled = [] := eq_nil_iff_forall_not_mem.mpr fun entry _ ↦ entry.1.elim0
    rw [hempty, map_nil, nil_append]
    exact ⟨values, hnext⟩
  | rejected labelled later thrower => exact thrower.elim0

variable {branches : Fin 1 → Program Answer β}

section

variable {next : Except String (Fin 1 → β) → Program Answer α}

theorem traces_all_one (h : Traces (.all 1 branches next) log (some result)) :
    ∃ first rest outcome, log = first ++ rest ∧ Traces (branches 0) first (some outcome) ∧
      Traces (next (onlyBranch outcome)) rest (some result) := by
  cases h with
  | joined labelled values hbranches hnext =>
    rw [map_snd_eq_projection fun entry _ ↦ Subsingleton.elim entry.1 0]
    refine ⟨_, _, .ok (values 0), rfl, hbranches 0, ?_⟩
    have hvalues : values = fun _ ↦ values 0 := funext fun index ↦ by
      rw [Subsingleton.elim index 0]
    rw [hvalues] at hnext
    exact hnext
  | rejected labelled later thrower message hthrower hends _ hnext =>
    have hzero : thrower = 0 := Subsingleton.elim thrower 0
    rw [hzero] at hthrower hends
    have hnone : ∀ entry ∈ later, entry.1 = none := by
      intro entry hentry
      have hother := projection_eq_nil_iff.mp hends entry hentry
      rcases hsource : entry.1 with _ | index
      · rfl
      · rw [hsource, Subsingleton.elim index 0] at hother
        exact absurd rfl hother
    rw [map_snd_eq_projection fun entry _ ↦ Subsingleton.elim entry.1 0,
      map_snd_eq_projection hnone]
    exact ⟨_, _, .error message, rfl, hthrower, hnext⟩

theorem traces_all_one_of {first rest : List (Event Answer)} {outcome : Except String β}
    (hbranch : Traces (branches 0) first (some outcome))
    (hnext : Traces (next (onlyBranch outcome)) rest (some result)) :
    Traces (.all 1 branches next) (first ++ rest) (some result) := by
  have hzero : ∀ index : Fin 1, index = 0 := fun index ↦ Subsingleton.elim index 0
  have hfirst : ∀ index : Fin 1, projection index (first.map fun event ↦ ((0 : Fin 1), event)) =
      first := fun index ↦ by rw [hzero index, projection_map_label]
  have hlabelled := map_snd_map_label (0 : Fin 1) first
  cases outcome with
  | ok value =>
    have htraces := Traces.joined (first.map fun event ↦ ((0 : Fin 1), event)) (fun _ ↦ value)
      (fun index ↦ by rw [hfirst, hzero index]; exact hbranch) hnext
    rw [hlabelled] at htraces
    exact htraces
  | error message =>
    have hnone : ∀ index : Fin 1, projection (some index)
        (rest.map fun event ↦ ((none : Option (Fin 1)), event)) = [] :=
      fun index ↦ projection_eq_nil_iff.mpr (by simp)
    have htraces := Traces.rejected (first.map fun event ↦ ((0 : Fin 1), event))
      (rest.map fun event ↦ ((none : Option (Fin 1)), event)) 0 message
      (by rw [hfirst]; exact hbranch) (hnone 0)
      (fun index ↦ by rw [hfirst, hnone, append_nil, hzero index]; exact hbranch.unsettled)
      (by rw [projection_map_label]; exact hnext)
    rw [hlabelled, map_snd_map_label] at htraces
    exact htraces

end

/-- The weakest precondition is sound: a run that ends does so as `post` says. -/
theorem Meets.sound {program : Program Answer α} {post : Except String α → World → Prop}
    (h : program.Meets sem post world) {result : Except String α}
    (htraces : Traces program log (some result)) (hconsistent : sem.Consistent world log) :
    post result (sem.final world log) := by
  induction program generalizing world log with
  | done outcome =>
    cases htraces with
    | done => exact h
  | call request next ih =>
    cases htraces with
    | call answer htraces => exact ih answer (h answer hconsistent.1) htraces hconsistent.2
  | all count branches next ihbranches ih =>
    match count with
    | 0 =>
      obtain ⟨values, hnext⟩ := traces_all_zero htraces
      exact ih _ (h values) hnext hconsistent
    | 1 =>
      obtain ⟨first, rest, outcome, hlog, hbranch, hnext⟩ := traces_all_one htraces
      rw [hlog, sem.consistent_append] at hconsistent
      rw [hlog, sem.final_append]
      exact ih _ (ihbranches 0 h hbranch hconsistent.1) hnext hconsistent.2
    | count + 2 => exact False.elim h

variable (sem)

def run (environment : World → (request : Call) → Except String (Answer request)) :
    {α : Type} → Program Answer α → World → List (Event Answer) × Except String α
  | _, .done result, _ => ([], result)
  | _, .call request next, world =>
    let event : Event Answer := ⟨request, environment world request⟩
    let (log, result) := (next event.answer).run environment (sem.after world event)
    (event :: log, result)
  | _, .all 0 _ next, world => (next (.ok nofun)).run environment world
  | _, .all 1 branches next, world =>
    let (first, outcome) := (branches 0).run environment world
    let (rest, result) := (next (onlyBranch outcome)).run environment (sem.final world first)
    (first ++ rest, result)
  | _, .all (_ + 2) _ _, _ => ([], .error "Not sequential")

variable {sem}

section

variable {environment : World → (request : Call) → Except String (Answer request)}

theorem exists_of_mem_run (h : event ∈ (program.run sem environment world).1) :
    ∃ world, event = ⟨event.call, environment world event.call⟩ := by
  induction program generalizing world with
  | done result => exact absurd h not_mem_nil
  | call request next ih =>
    rcases mem_cons.mp h with hfirst | hrest
    · exact ⟨world, by rw [hfirst]⟩
    · exact ih _ hrest
  | all count branches next ihbranches ih =>
    match count with
    | 0 => exact ih _ h
    | 1 =>
      rcases mem_append.mp h with hfirst | hrest
      · exact ihbranches 0 hfirst
      · exact ih _ hrest
    | count + 2 => exact absurd h not_mem_nil

theorem run_sound
    (hallowed : ∀ world request, sem.allows world ⟨request, environment world request⟩)
    (hsequential : program.Sequential) (world : World) :
    Traces program (program.run sem environment world).1
        (some (program.run sem environment world).2) ∧
      sem.Consistent world (program.run sem environment world).1 := by
  induction program generalizing world with
  | done result => exact ⟨.done result, trivial⟩
  | call request next ih =>
    obtain ⟨htraces, hconsistent⟩ := ih _ (hsequential _)
      (sem.after world ⟨request, environment world request⟩)
    exact ⟨.call _ htraces, hallowed world request, hconsistent⟩
  | all count branches next ihbranches ih =>
    match count with
    | 0 =>
      obtain ⟨htraces, hconsistent⟩ := ih (.ok nofun) (hsequential.2.2 _) world
      exact ⟨Traces.joined [] nofun nofun htraces, hconsistent⟩
    | 1 =>
      obtain ⟨hbranch, hfirst⟩ := ihbranches 0 (hsequential.2.1 0) world
      set first := (branches 0).run sem environment world with hrun
      obtain ⟨hnext, hrest⟩ := ih (onlyBranch first.2) (hsequential.2.2 _) (sem.final world first.1)
      exact ⟨traces_all_one_of hbranch hnext, (sem.consistent_append _ _ _).mpr ⟨hfirst, hrest⟩⟩
    | count + 2 => exact absurd hsequential.1 (by omega)

end

end Program

section

open Program

variable {Call : Type} {Answer : Call → Type} {World Viewed : Type*} {α : Type}

/-- The semantics views another one, on all calls but those of a kind. -/
structure Semantics.Views (sem : Semantics Answer World) (other : Semantics Answer Viewed)
    (kind : Call → Prop) (view : World → Viewed) : Prop where
  allows : ∀ world event, ¬ kind event.call → sem.allows world event →
    other.allows (view world) event
  after : ∀ world event, ¬ kind event.call → view (sem.after world event) =
    other.after (view world) event

variable {world : World}

section

variable {sem : Semantics Answer World} {other : Semantics Answer Viewed}
  {kind : Call → Prop} {view : World → Viewed}

section

variable (hviews : sem.Views other kind view) {program : Program Answer α}
  (hquiet : program.Quiet kind)
include hviews hquiet

theorem Program.Meets.comap {post : Except String α → Viewed → Prop}
    (h : program.Meets other post (view world)) :
    program.Meets sem (fun result after ↦ post result (view after)) world := by
  obtain ⟨hsequential, havoids⟩ := hquiet
  induction program generalizing world with
  | done result => exact h
  | call request next ih =>
    intro answer hallowed
    have hnext := h answer (hviews.allows world ⟨request, answer⟩ havoids.1 hallowed)
    rw [← hviews.after world ⟨request, answer⟩ havoids.1] at hnext
    exact ih answer hnext (hsequential answer) (havoids.2 answer)
  | all count branches next ihbranches ih =>
    match count with
    | 0 => exact fun values ↦ ih _ (h values) (hsequential.2.2 _) (havoids.2 _)
    | 1 =>
      exact (ihbranches 0 h (hsequential.2.1 0) (havoids.1 0)).mono fun result after hafter ↦
        ih _ hafter (hsequential.2.2 _) (havoids.2 _)
    | count + 2 => exact absurd hsequential.1 (by omega)

theorem Program.Ensures.comap {post : α → Viewed → Prop}
    (h : program.Ensures other post (view world)) :
    program.Ensures sem (fun value after ↦ post value (view after)) world :=
  Meets.comap hviews hquiet h

end

end

/-! ### Two semantics side by side -/

/-- Two semantics side by side. -/
def Semantics.prod (first : Semantics Answer World) (second : Semantics Answer Viewed) :
    Semantics Answer (World × Viewed) where
  allows world event := first.allows world.1 event ∧ second.allows world.2 event
  after world event := (first.after world.1 event, second.after world.2 event)

section

variable (first : Semantics Answer World) (second : Semantics Answer Viewed) (kind : Call → Prop)

theorem Semantics.views_fst : (first.prod second).Views first kind Prod.fst :=
  ⟨fun _ _ _ h ↦ h.1, fun _ _ _ ↦ rfl⟩

theorem Semantics.views_snd : (first.prod second).Views second kind Prod.snd :=
  ⟨fun _ _ _ h ↦ h.2, fun _ _ _ ↦ rfl⟩

variable {first second}

section

variable {program : Program Answer α} (hquiet : program.Quiet fun _ ↦ False)

include hquiet

/-- What a program meets in the first semantics, whatever the second one does. -/
theorem Program.Ensures.fst {post : α → World → Prop} (h : program.Ensures first post world)
    (other : Viewed) :
    program.Ensures (first.prod second) (fun value after ↦ post value after.1) (world, other) := by
  have hfirst : program.Ensures first post (Prod.fst (world, other)) := h
  exact hfirst.comap (first.views_fst second _) hquiet

/-- What a program meets in the second semantics, whatever the first one does. -/
theorem Program.Ensures.snd {post : α → Viewed → Prop} {other : Viewed}
    (h : program.Ensures second post other) (world : World) :
    program.Ensures (first.prod second) (fun value after ↦ post value after.2) (world, other) := by
  have hsecond : program.Ensures second post (Prod.snd (world, other)) := h
  exact hsecond.comap (first.views_snd second _) hquiet

end

variable (first second)

section

variable (world : World × Viewed) (log : List (Event Answer))

theorem Semantics.final_prod :
    (first.prod second).final world log = (first.final world.1 log, second.final world.2 log) := by
  induction log generalizing world with
  | nil => rfl
  | cons event rest ih => exact ih _

theorem Semantics.consistent_prod :
    (first.prod second).Consistent world log ↔
      first.Consistent world.1 log ∧ second.Consistent world.2 log := by
  induction log generalizing world with
  | nil => simp [Semantics.Consistent]
  | cons event rest ih =>
    unfold Semantics.Consistent
    rw [ih]
    constructor
    · rintro ⟨⟨hfirst, hsecond⟩, hrestfirst, hrestsecond⟩
      exact ⟨⟨hfirst, hrestfirst⟩, hsecond, hrestsecond⟩
    · rintro ⟨⟨hfirst, hrestfirst⟩, hsecond, hrestsecond⟩
      exact ⟨⟨hfirst, hsecond⟩, hrestfirst, hrestsecond⟩

end

end

end

end Bridgeport.Foundation
