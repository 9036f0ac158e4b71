import Bridgeport.Foundation.ProgramLogic

/-!
# What comes before a call

`program.Guarded opens kind` says that no run makes a call of a kind before an event that opens it,
and `program.Passes opens` that every run that returns a value has such an event. Both follow the
operations that programs are built with, branches included: what follows a call of `all` may rely on
what any of its branches has passed.

`Guarded.sound` is the statement about traces: a call of the kind has an opening event before it.
-/

namespace Bridgeport.Foundation

open List

variable {Call : Type} {Answer : Call → Type} {α β : Type}

/-! ### Logs -/

/-- In the log, every call of a kind comes after an event that opens it. -/
def Opened (opens : Event Answer → Prop) (kind : Call → Prop)
    (log : List (Event Answer)) : Prop :=
  ∀ before event after, log = before ++ event :: after → kind event.call →
    ∃ earlier ∈ before, opens earlier

section

variable {opens : Event Answer → Prop} {kind : Call → Prop}

theorem opened_nil : Opened opens kind ([] : List (Event Answer)) := by
  intro before event after hsplit
  exact absurd (congrArg List.length hsplit) (by simp)

theorem opened_cons {first : Event Answer} {rest : List (Event Answer)}
    (hfirst : ¬ kind first.call) (hrest : opens first ∨ Opened opens kind rest) :
    Opened opens kind (first :: rest) := by
  intro before event after hsplit hkind
  cases before with
  | nil =>
    obtain ⟨hsame, -⟩ := List.cons.inj hsplit
    exact absurd hkind (hsame ▸ hfirst)
  | cons head before =>
    obtain ⟨hsame, htail⟩ := List.cons.inj hsplit
    rcases hrest with hopens | hopened
    · exact ⟨head, mem_cons_self, hsame ▸ hopens⟩
    · obtain ⟨earlier, hearlier, hopens⟩ := hopened before event after htail hkind
      exact ⟨earlier, mem_cons_of_mem _ hearlier, hopens⟩

theorem opened_append {first second : List (Event Answer)} (hfirst : Opened opens kind first)
    (hsecond : (∃ event ∈ first, opens event) ∨ Opened opens kind second) :
    Opened opens kind (first ++ second) := by
  intro before event after hsplit hkind
  rcases append_eq_append_iff.mp hsplit with ⟨middle, hbefore, hmiddle⟩ | ⟨middle, hsame, hrest⟩
  · rcases hsecond with ⟨earlier, hearlier, hopens⟩ | hopened
    · exact ⟨earlier, hbefore ▸ mem_append_left _ hearlier, hopens⟩
    · obtain ⟨earlier, hearlier, hopens⟩ := hopened middle event after hmiddle hkind
      exact ⟨earlier, hbefore ▸ mem_append_right _ hearlier, hopens⟩
  · cases middle with
    | nil =>
      rw [nil_append] at hrest
      rcases hsecond with ⟨earlier, hearlier, hopens⟩ | hopened
      · rw [hsame, append_nil] at hearlier
        exact ⟨earlier, hearlier, hopens⟩
      · obtain ⟨earlier, hearlier, hopens⟩ := hopened [] event after hrest.symm hkind
        exact absurd hearlier not_mem_nil
    | cons head middle =>
      obtain ⟨hhead, -⟩ := List.cons.inj hrest
      exact hfirst before event middle (by rw [hsame, hhead]) hkind

/-- An interleaving of logs in each of which the calls come after an opening event. -/
theorem opened_of_projections {ι : Type*} [DecidableEq ι] {labelled : Trail ι Answer}
    (h : ∀ source, Opened opens kind (projection source labelled)) :
    Opened opens kind (labelled.map Prod.snd) := by
  intro before event after hsplit hkind
  obtain ⟨labelledBefore, rest, hlabelled, hbefore, hrest⟩ := map_eq_append_iff.mp hsplit
  obtain ⟨entry, labelledAfter, hentry, hevent, -⟩ := map_eq_cons_iff.mp hrest
  have hprojection : projection entry.1 labelled =
      projection entry.1 labelledBefore ++ event :: projection entry.1 labelledAfter := by
    rw [hlabelled, hentry, projection_append, projection_cons, if_pos rfl, hevent]
  obtain ⟨earlier, hearlier, hopens⟩ := h entry.1 _ _ _ hprojection hkind
  exact ⟨earlier, hbefore ▸ mem_of_mem_projection hearlier, hopens⟩

end

variable {program : Program Answer α}

namespace Program

/-! ### Programs -/

def Passes (opens : Event Answer → Prop) : {α : Type} → Program Answer α → Prop
  | _, .done result => ∃ message, result = .error message
  | _, .call request next => ∀ answer, opens ⟨request, answer⟩ ∨ (next answer).Passes opens
  | _, .all _ branches next =>
    (∀ values, (∃ index, (branches index).Passes opens) ∨ (next (.ok values)).Passes opens) ∧
      ∀ message, (next (.error message)).Passes opens

/-- No run makes a call of a kind before an event that opens it. -/
def Guarded (opens : Event Answer → Prop) (kind : Call → Prop) :
    {α : Type} → Program Answer α → Prop
  | _, .done _ => True
  | _, .call request next =>
    ¬ kind request ∧ ∀ answer, opens ⟨request, answer⟩ ∨ (next answer).Guarded opens kind
  | _, .all _ branches next =>
    (∀ index, (branches index).Guarded opens kind) ∧
      (∀ values, (∃ index, (branches index).Passes opens) ∨
        (next (.ok values)).Guarded opens kind) ∧
      ∀ message, (next (.error message)).Guarded opens kind

section

variable {opens : Event Answer → Prop} {kind : Call → Prop} {next : α → Program Answer β}
  {handler : String → Program Answer α}

section

variable {program : Program Answer α}

theorem Avoids.guarded (h : program.Avoids kind) : program.Guarded opens kind := by
  induction program with
  | done result => exact trivial
  | call request next ih => exact ⟨h.1, fun answer ↦ .inr (ih answer (h.2 answer))⟩
  | all count branches next ihbranches ih =>
    exact ⟨fun index ↦ ihbranches index (h.1 index), fun values ↦ .inr (ih _ (h.2 _)),
      fun message ↦ ih _ (h.2 _)⟩

theorem Passes.resume_left {next : Except String α → Program Answer β}
    (hprogram : program.Passes opens) (herror : ∀ message, (next (.error message)).Passes opens) :
    (program.resume next).Passes opens := by
  induction program with
  | done result =>
    obtain ⟨message, rfl⟩ := hprogram
    exact herror message
  | call request answer ih =>
    exact fun result ↦ (hprogram result).imp_right fun hpasses ↦ ih result hpasses herror
  | all count branches joined _ ih =>
    exact ⟨fun values ↦ (hprogram.1 values).imp_right fun hpasses ↦ ih _ hpasses herror,
      fun message ↦ ih _ (hprogram.2 message) herror⟩

theorem Passes.resume_right {next : Except String α → Program Answer β}
    (hnext : ∀ result, (next result).Passes opens) : (program.resume next).Passes opens := by
  induction program with
  | done result => exact hnext result
  | call request answer ih => exact fun result ↦ .inr (ih result hnext)
  | all count branches joined _ ih =>
    exact ⟨fun values ↦ .inr (ih _ hnext), fun message ↦ ih _ hnext⟩

theorem Passes.bind_left (hprogram : program.Passes opens) : (program >>= next).Passes opens :=
  hprogram.resume_left fun message ↦ ⟨message, rfl⟩

theorem Passes.bind_right (hnext : ∀ value, (next value).Passes opens) :
    (program >>= next).Passes opens := by
  refine Passes.resume_right fun result ↦ ?_
  cases result with
  | ok value => exact hnext value
  | error message => exact ⟨message, rfl⟩

theorem Passes.tryCatch (hprogram : program.Passes opens)
    (hhandler : ∀ message, (handler message).Passes opens) :
    (program.tryCatch handler).Passes opens :=
  hprogram.resume_left hhandler

end

variable {second first : Program Answer α} {condition : Prop}

theorem Passes.ite [Decidable condition] (hfirst : first.Passes opens)
    (hsecond : second.Passes opens) : (if condition then first else second).Passes opens := by
  split_ifs
  · exact hfirst
  · exact hsecond

theorem passes_throw (message : String) : (throw message : Program Answer α).Passes opens :=
  ⟨message, rfl⟩

theorem passes_perform {request : Call} (h : ∀ value, opens ⟨request, .ok value⟩) :
    (perform request : Program Answer _).Passes opens := by
  intro answer
  cases answer with
  | ok value => exact .inl (h value)
  | error message => exact .inr ⟨message, rfl⟩

/-- A continuation may rely on what the program has passed when it returned a value. -/
theorem Guarded.resume {program : Program Answer α}
    {next : Except String α → Program Answer β} (hprogram : program.Guarded opens kind)
    (hvalue : ∀ value, program.Passes opens ∨ (next (.ok value)).Guarded opens kind)
    (herror : ∀ message, (next (.error message)).Guarded opens kind) :
    (program.resume next).Guarded opens kind := by
  induction program with
  | done result =>
    cases result with
    | ok value =>
      refine (hvalue value).resolve_left ?_
      rintro ⟨message, hmessage⟩
      nomatch hmessage
    | error message => exact herror message
  | call request answer ih =>
    refine ⟨hprogram.1, fun result ↦ ?_⟩
    rcases hprogram.2 result with hopens | hguarded
    · exact .inl hopens
    · by_cases hopens : opens ⟨request, result⟩
      · exact .inl hopens
      · refine .inr (ih result hguarded (fun value ↦ ?_) herror)
        exact (hvalue value).imp_left fun hpasses ↦ (hpasses result).resolve_left hopens
  | all count branches joined _ ih =>
    refine ⟨hprogram.1, fun values ↦ ?_, fun message ↦ ?_⟩
    · rcases hprogram.2.1 values with hbranch | hguarded
      · exact .inl hbranch
      · by_cases hbranch : ∃ index, (branches index).Passes opens
        · exact .inl hbranch
        · refine .inr (ih _ hguarded (fun value ↦ ?_) herror)
          exact (hvalue value).imp_left fun hpasses ↦ (hpasses.1 values).resolve_left hbranch
    · refine ih _ (hprogram.2.2 message) (fun value ↦ ?_) herror
      exact (hvalue value).imp_left fun hpasses ↦ hpasses.2 message

theorem Guarded.bind (hprogram : program.Guarded opens kind)
    (hnext : ∀ value, program.Passes opens ∨ (next value).Guarded opens kind) :
    (program >>= next).Guarded opens kind :=
  hprogram.resume hnext fun _ ↦ trivial

theorem guarded_perform_bind {request : Call} {next : Answer request → Program Answer β}
    (hkind : ¬ kind request)
    (h : ∀ value, opens ⟨request, .ok value⟩ ∨ (next value).Guarded opens kind) :
    (perform request >>= next).Guarded opens kind := by
  refine ⟨hkind, fun answer ↦ ?_⟩
  cases answer with
  | ok value => exact h value
  | error message => exact .inr trivial

theorem Guarded.tryCatch (hprogram : program.Guarded opens kind)
    (hhandler : ∀ message, (handler message).Guarded opens kind) :
    (program.tryCatch handler).Guarded opens kind :=
  hprogram.resume (fun _ ↦ .inr trivial) hhandler

theorem Guarded.ite [Decidable condition] (hfirst : first.Guarded opens kind)
    (hsecond : second.Guarded opens kind) :
    (if condition then first else second).Guarded opens kind := by
  split_ifs
  · exact hfirst
  · exact hsecond

variable {programs : List (Program Answer α)}

/-- The programs of a list run at once. -/
theorem passes_promiseAll {program : Program Answer α} (hmem : program ∈ programs)
    (hprogram : program.Passes opens) : (promiseAll programs).Passes opens := by
  obtain ⟨index, hindex⟩ := mem_iff_get.mp hmem
  exact ⟨fun _ ↦ .inl ⟨index, hindex ▸ hprogram⟩, fun message ↦ ⟨message, rfl⟩⟩

theorem avoids_promiseAll (h : ∀ program ∈ programs, program.Avoids kind) :
    (promiseAll programs).Avoids kind := by
  refine ⟨fun index ↦ h _ (get_mem programs index), fun results ↦ ?_⟩
  cases results with
  | ok _ | error _ => exact trivial

theorem guarded_promiseAll (h : ∀ program ∈ programs, program.Guarded opens kind) :
    (promiseAll programs).Guarded opens kind :=
  ⟨fun index ↦ h _ (get_mem programs index), fun _ ↦ .inr trivial, fun _ ↦ trivial⟩

end

end Program

section

variable {opens : Event Answer → Prop} {kind : Call → Prop} {log : List (Event Answer)}
  {outcome : Option (Except String α)}

theorem Program.Passes.sound {program : Program Answer α} (h : program.Passes opens)
    (htraces : Traces program log outcome) {value : α} (hvalue : outcome = some (.ok value)) :
    ∃ event ∈ log, opens event := by
  induction htraces with
  | start _ | running _ _ => nomatch hvalue
  | done result =>
    obtain ⟨message, rfl⟩ := h
    nomatch Option.some.inj hvalue
  | call answer _ ih =>
    rcases h answer with hopens | hpasses
    · exact ⟨_, mem_cons_self, hopens⟩
    · obtain ⟨event, hevent, hopens⟩ := ih hpasses hvalue
      exact ⟨event, mem_cons_of_mem _ hevent, hopens⟩
  | joined labelled values _ _ ihbranches ih =>
    rcases h.1 values with ⟨index, hpasses⟩ | hpasses
    · obtain ⟨event, hevent, hopens⟩ := ihbranches index hpasses rfl
      exact ⟨event, mem_append_left _ (mem_of_mem_projection hevent), hopens⟩
    · obtain ⟨event, hevent, hopens⟩ := ih hpasses hvalue
      exact ⟨event, mem_append_right _ hevent, hopens⟩
  | rejected labelled later thrower message _ _ _ _ _ _ ih =>
    obtain ⟨event, hevent, hopens⟩ := ih (h.2 message) hvalue
    exact ⟨event, mem_append_right _ (mem_of_mem_projection hevent), hopens⟩

theorem Program.Guarded.sound {program : Program Answer α} (h : program.Guarded opens kind)
    (htraces : Traces program log outcome) : Opened opens kind log := by
  induction htraces with
  | start _ | done _ => exact opened_nil
  | call answer _ ih => exact opened_cons h.1 ((h.2 answer).imp_right ih)
  | running labelled _ ih => exact opened_of_projections fun index ↦ ih index (h.1 index)
  | joined labelled values hbranches _ ihbranches ih =>
    refine opened_append (opened_of_projections fun index ↦ ihbranches index (h.1 index)) ?_
    rcases h.2.1 values with ⟨index, hpasses⟩ | hguarded
    · obtain ⟨event, hevent, hopens⟩ := hpasses.sound (hbranches index) rfl
      exact .inl ⟨event, mem_of_mem_projection hevent, hopens⟩
    · exact .inr (ih hguarded)
  | rejected labelled later thrower message _ _ _ _ _ ihbranches ih =>
    -- the branches and the continuation interleave, labelled by a branch or `none`
    have hlog : labelled.map Prod.snd ++ later.map Prod.snd =
        (labelled.map (fun entry ↦ (some entry.1, entry.2)) ++ later).map Prod.snd := by
      rw [map_append, map_map]
      rfl
    rw [hlog]
    refine opened_of_projections fun source ↦ ?_
    rw [projection_append]
    cases source with
    | none =>
      have hnone : projection none (labelled.map fun entry ↦ (some entry.1, entry.2)) = [] :=
        projection_eq_nil_iff.mpr fun entry hentry ↦ by
          obtain ⟨_, -, rfl⟩ := mem_map.mp hentry
          exact Option.some_ne_none _
      rw [hnone, nil_append]
      exact ih (h.2.2 message)
    | some index =>
      rw [projection_map_some]
      exact ihbranches index (h.1 index)

end

end Bridgeport.Foundation
