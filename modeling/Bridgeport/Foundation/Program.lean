import Mathlib.Algebra.BigOperators.Fin
import Mathlib.Algebra.Order.BigOperators.Group.Finset

/-!
# Asynchronous programs

A `Program` is an asynchronous function as the tree of the calls that it awaits: it ends with a
value or an exception, awaits a call and continues with the answer, or starts several branches and
awaits all of them. A call may be answered by an exception.

What a program can call is read off its tree: `Avoids` says that it never makes a call of a kind,
and `AtMost` bounds how often it does. Both follow the operations that programs are built with.

`program.lift embed` is a program over calls that are embedded among others.

`Traces program log outcome` says that a run of the program can make the calls of `log` with these
answers and has then settled with `outcome`, or not yet.
-/

namespace Bridgeport.Foundation

open List

inductive Program {Call : Type} (Answer : Call → Type) : Type → Type 1
  | done {α : Type} (result : Except String α) : Program Answer α
  | call {α : Type} (request : Call)
      (next : Except String (Answer request) → Program Answer α) : Program Answer α
  | all {α β : Type} (count : ℕ) (branches : Fin count → Program Answer β)
      (next : Except String (Fin count → β) → Program Answer α) : Program Answer α

structure Event {Call : Type} (Answer : Call → Type) where
  call : Call
  answer : Except String (Answer call)

def Event.threw {Call : Type} {Answer : Call → Type} (event : Event Answer) : Bool :=
  match event.answer with
  | .error _ => true
  | .ok _ => false

/-- The calls of several sources in the order in which they are answered. -/
abbrev Trail (ι : Type*) {Call : Type} (Answer : Call → Type) :=
  List (ι × Event Answer)

variable {Call : Type} {Answer : Call → Type} {α β γ : Type} {handler : String → Program Answer α}
  {next : α → Program Answer β} {program : Program Answer α} (message : String) {request : Call}

namespace Program

/-! ### Sequencing -/

def resume (program : Program Answer α)
    (next : Except String α → Program Answer β) : Program Answer β :=
  match program with
  | .done result => next result
  | .call request answer => .call request fun result ↦ (answer result).resume next
  | .all count branches joined => .all count branches fun results ↦ (joined results).resume next

def bind (program : Program Answer α) (next : α → Program Answer β) : Program Answer β :=
  program.resume fun
    | .ok value => next value
    | .error message => .done (.error message)

instance : Monad (Program Answer) where
  pure value := .done (.ok value)
  bind := bind

def throw : Program Answer α :=
  .done (.error message)

/-- `try` with a `catch` block. -/
def tryCatch (program : Program Answer α) (handler : String → Program Answer α) :
    Program Answer α :=
  program.resume fun
    | .ok value => .done (.ok value)
    | .error message => handler message

/-- `try` with a `finally` block: an exception of the block replaces the outcome. -/
def tryFinally (program : Program Answer α) (cleanup : Program Answer Unit) : Program Answer α :=
  program.resume fun result ↦ cleanup.resume fun
    | .ok _ => .done result
    | .error message => .done (.error message)

def perform (request : Call) : Program Answer (Answer request) :=
  .call request .done

/-- Perform a call that is not awaited, and go on. -/
def emit (request : Call) : Program Answer Unit :=
  .call request fun _ ↦ .done (.ok ())

/-- `if` without `else`. -/
def when (condition : Prop) [Decidable condition] (program : Program Answer Unit) :
    Program Answer Unit :=
  if condition then program else pure ()

/-- `Promise.all` over the programs of a list. -/
def promiseAll (programs : List (Program Answer α)) : Program Answer (List α) :=
  .all programs.length programs.get fun
    | .ok values => .done (.ok (List.ofFn values))
    | .error message => .done (.error message)

@[simp]
theorem resume_done (result : Except String α)
    (next : Except String α → Program Answer β) : (done result).resume next = next result :=
  rfl

@[simp]
theorem pure_eq (value : α) : (pure value : Program Answer α) = done (.ok value) :=
  rfl

@[simp]
theorem bind_eq (program : Program Answer α) (next : α → Program Answer β) :
    program >>= next = program.bind next :=
  rfl

/-! ### Bounds on calls -/

def Avoids (kind : Call → Prop) : {α : Type} → Program Answer α → Prop
  | _, .done _ => True
  | _, .call request next => ¬ kind request ∧ ∀ answer, (next answer).Avoids kind
  | _, .all _ branches next =>
    (∀ index, (branches index).Avoids kind) ∧ ∀ results, (next results).Avoids kind

/-- Every run of the program makes at most `bound` calls of a kind. -/
def AtMost (kind : Call → Prop) [DecidablePred kind] : {α : Type} → Program Answer α → ℕ → Prop
  | _, .done _, _ => True
  | _, .call request next, bound =>
    ∃ rest, (if kind request then 1 else 0) + rest ≤ bound ∧
      ∀ answer, (next answer).AtMost kind rest
  | _, .all count branches next, bound =>
    ∃ (bounds : Fin count → ℕ) (rest : ℕ), ∑ index, bounds index + rest ≤ bound ∧
      (∀ index, (branches index).AtMost kind (bounds index)) ∧
        ∀ results, (next results).AtMost kind rest

section

variable {kind : Call → Prop}

section

variable {program : Program Answer α} (hprogram : program.Avoids kind)
include hprogram

theorem Avoids.resume {next : Except String α → Program Answer β}
    (hnext : ∀ result, (next result).Avoids kind) : (program.resume next).Avoids kind := by
  induction program with
  | done result => exact hnext result
  | call request answer ih => exact ⟨hprogram.1, fun result ↦ ih result (hprogram.2 result) hnext⟩
  | all count branches joined _ ih =>
    exact ⟨hprogram.1, fun results ↦ ih results (hprogram.2 results) hnext⟩

theorem Avoids.bind (hnext : ∀ value, (next value).Avoids kind) :
    (program.bind next).Avoids kind := by
  refine hprogram.resume fun result ↦ ?_
  cases result with
  | ok value => exact hnext value
  | error message => exact trivial

theorem Avoids.tryCatch (hhandler : ∀ message, (handler message).Avoids kind) :
    (program.tryCatch handler).Avoids kind := by
  refine hprogram.resume fun result ↦ ?_
  cases result with
  | ok value => exact trivial
  | error message => exact hhandler message

end

theorem Avoids.mono {fewer : Call → Prop} (h : program.Avoids kind)
    (himp : ∀ request, fewer request → kind request) : program.Avoids fewer := by
  induction program with
  | done result => exact trivial
  | call request answer ih =>
    exact ⟨fun hfewer ↦ h.1 (himp _ hfewer), fun result ↦ ih _ (h.2 result)⟩
  | all count branches joined ihbranches ih =>
    exact ⟨fun index ↦ ihbranches _ (h.1 index), fun results ↦ ih _ (h.2 results)⟩

theorem avoids_perform (h : ¬ kind request) : (perform request : Program Answer _).Avoids kind :=
  ⟨h, fun _ ↦ trivial⟩

theorem avoids_call {next : Answer request → Program Answer β} (h : ¬ kind request)
    (hnext : ∀ value, (next value).Avoids kind) : ((perform request).bind next).Avoids kind :=
  (avoids_perform h).bind hnext

theorem avoids_emit (h : ¬ kind request) : (emit request : Program Answer Unit).Avoids kind :=
  ⟨h, fun _ ↦ trivial⟩

theorem avoids_throw : (throw message : Program Answer α).Avoids kind :=
  trivial

theorem avoids_pure (value : α) : (pure value : Program Answer α).Avoids kind :=
  trivial

variable {condition : Prop}

theorem Avoids.ite [Decidable condition] {first second : Program Answer α}
    (hfirst : first.Avoids kind) (hsecond : second.Avoids kind) :
    (if condition then first else second).Avoids kind := by
  split_ifs
  · exact hfirst
  · exact hsecond

theorem Avoids.when [Decidable condition] {program : Program Answer Unit}
    (hprogram : program.Avoids kind) : (when condition program).Avoids kind :=
  hprogram.ite (avoids_pure _)

variable [DecidablePred kind]

theorem Avoids.atMost (h : program.Avoids kind) : program.AtMost kind 0 := by
  induction program with
  | done result => exact trivial
  | call request answer ih =>
    exact ⟨0, by rw [if_neg h.1], fun result ↦ ih result (h.2 result)⟩
  | all count branches joined ihbranches ih =>
    exact ⟨fun _ ↦ 0, 0, by simp, fun index ↦ ihbranches index (h.1 index),
      fun results ↦ ih results (h.2 results)⟩

theorem AtMost.mono {bound larger : ℕ} (h : program.AtMost kind bound) (hle : bound ≤ larger) :
    program.AtMost kind larger := by
  cases program with
  | done result => exact trivial
  | call request answer =>
    obtain ⟨rest, hrest, hanswer⟩ := h
    exact ⟨rest, Nat.le_trans hrest hle, hanswer⟩
  | all count branches joined =>
    obtain ⟨bounds, rest, hrest, hbranches⟩ := h
    exact ⟨bounds, rest, Nat.le_trans hrest hle, hbranches⟩

variable {second first : ℕ}

theorem AtMost.resume {next : Except String α → Program Answer β}
    (hprogram : program.AtMost kind first) (hnext : ∀ result, (next result).AtMost kind second) :
    (program.resume next).AtMost kind (first + second) := by
  induction program generalizing first with
  | done result => exact (hnext result).mono (Nat.le_add_left _ _)
  | call request answer ih =>
    obtain ⟨rest, hrest, hanswer⟩ := hprogram
    refine ⟨rest + second, ?_, fun result ↦ ih result (hanswer result) hnext⟩
    rw [← Nat.add_assoc]
    exact Nat.add_le_add_right hrest second
  | all count branches joined _ ih =>
    obtain ⟨bounds, rest, hrest, hbranches, hjoined⟩ := hprogram
    refine ⟨bounds, rest + second, ?_, hbranches, fun results ↦ ih results (hjoined results) hnext⟩
    rw [← Nat.add_assoc]
    exact Nat.add_le_add_right hrest second

theorem AtMost.bind (hprogram : program.AtMost kind first)
    (hnext : ∀ value, (next value).AtMost kind second) :
    (program.bind next).AtMost kind (first + second) := by
  refine hprogram.resume fun result ↦ ?_
  cases result with
  | ok value => exact hnext value
  | error message => exact trivial

theorem AtMost.ite [Decidable condition] {first second : Program Answer α} {bound : ℕ}
    (hfirst : first.AtMost kind bound) (hsecond : second.AtMost kind bound) :
    (if condition then first else second).AtMost kind bound := by
  split_ifs
  · exact hfirst
  · exact hsecond

theorem AtMost.tryCatch (hprogram : program.AtMost kind first)
    (hhandler : ∀ message, (handler message).AtMost kind second) :
    (program.tryCatch handler).AtMost kind (first + second) := by
  refine hprogram.resume fun result ↦ ?_
  cases result with
  | ok value => exact trivial
  | error message => exact hhandler message

theorem atMost_promiseAll {ι : Type*} (items : List ι) (program : ι → Program Answer α)
    (bound : ι → ℕ) (h : ∀ item ∈ items, (program item).AtMost kind (bound item)) :
    (promiseAll (items.map program)).AtMost kind (items.map bound).sum := by
  have hlength : ∀ index : Fin (items.map program).length, index.1 < items.length :=
    fun index ↦ index.2.trans_eq (length_map _)
  refine ⟨fun index ↦ bound (items.get ⟨index.1, hlength index⟩), 0, ?_, fun index ↦ ?_,
    fun results ↦ ?_⟩
  · rw [Nat.add_zero, ← Fin.sum_univ_fun_getElem items bound]
    exact le_of_eq (Fintype.sum_equiv (finCongr (length_map program)) _ _ fun _ ↦ rfl)
  · rw [get_eq_getElem, getElem_map]
    exact h _ (getElem_mem _)
  · cases results with
    | ok _ | error _ => exact trivial

end

section

variable {Outer : Type} {OuterAnswer : Outer → Type} (embed : Call → Outer)

def lift : {α : Type} → Program (fun request ↦ OuterAnswer (embed request)) α →
    Program OuterAnswer α
  | _, .done result => .done result
  | _, .call request next => .call (embed request) fun answer ↦ (next answer).lift
  | _, .all count branches next =>
    .all count (fun index ↦ (branches index).lift) fun results ↦ (next results).lift

variable {embed}

theorem avoids_lift {kind : Outer → Prop}
    {program : Program (fun request ↦ OuterAnswer (embed request)) α}
    (h : ∀ request, ¬ kind (embed request)) : (program.lift embed).Avoids kind := by
  induction program with
  | done result => exact trivial
  | call request next ih => exact ⟨h request, fun answer ↦ ih answer⟩
  | all count branches next ihbranches ih =>
    exact ⟨fun index ↦ ihbranches index, fun results ↦ ih results⟩

end

end Program

section

open List

/-! ### Interleavings -/

section

variable {ι ε : Type*} [DecidableEq ι] (source : ι)

def projection (labelled : List (ι × ε)) : List ε :=
  (labelled.filter (·.1 = source)).map Prod.snd

@[simp]
theorem projection_nil : projection source ([] : List (ι × ε)) = [] :=
  rfl

@[simp]
theorem projection_append (first second : List (ι × ε)) :
    projection source (first ++ second) = projection source first ++ projection source second := by
  unfold projection
  rw [filter_append, map_append]

theorem projection_cons (entry : ι × ε) (rest : List (ι × ε)) : projection source (entry :: rest) =
      if entry.1 = source then entry.2 :: projection source rest else projection source rest := by
  unfold projection
  rw [filter_cons]
  by_cases hsource : entry.1 = source
  · simp [hsource]
  · simp [hsource]

theorem projection_singleton_self (event : ε) : projection source [(source, event)] = [event] := by
  simp [projection_cons]

theorem projection_singleton_of_ne {source other : ι} (h : other ≠ source) (event : ε) :
    projection source [(other, event)] = [] := by
  simp [projection_cons, h]

variable {labelled : List (ι × ε)}

theorem map_snd_eq_projection {source : ι} (h : ∀ entry ∈ labelled, entry.1 = source) :
    labelled.map Prod.snd = projection source labelled := by
  unfold projection
  rw [filter_eq_self.mpr fun entry hentry ↦ decide_eq_true (h entry hentry)]

theorem projection_eq_nil_iff {source : ι} :
    projection source labelled = [] ↔ ∀ entry ∈ labelled, entry.1 ≠ source := by
  unfold projection
  rw [map_eq_nil_iff, filter_eq_nil_iff]
  simp

theorem projection_map_label (log : List ε) :
    projection source (log.map fun event ↦ (source, event)) = log := by
  rw [← map_snd_eq_projection (by simp), map_map]
  exact map_id log

theorem mem_of_mem_projection {source : ι} {event : ε} (h : event ∈ projection source labelled) :
    event ∈ labelled.map Prod.snd := by
  obtain ⟨entry, hentry, rfl⟩ := mem_map.mp h
  exact mem_map_of_mem (mem_of_mem_filter hentry)

theorem countP_map_snd {source : ι} {holds : ε → Bool}
    (h : ∀ entry ∈ labelled, holds entry.2 → entry.1 = source) :
    (labelled.map Prod.snd).countP holds = (projection source labelled).countP holds := by
  induction labelled with
  | nil => rfl
  | cons entry rest ih =>
    have hrest := ih fun other hother ↦ h other (mem_cons_of_mem _ hother)
    rw [map_cons, countP_cons, projection_cons, hrest]
    by_cases hsource : entry.1 = source
    · rw [if_pos hsource, countP_cons]
    · have hnot : ¬ holds entry.2 := fun hholds ↦ hsource (h entry mem_cons_self hholds)
      rw [if_neg hsource, if_neg hnot, Nat.add_zero]

/-- A log whose sources get other names. -/
theorem projection_map_some (labelled : List (ι × ε)) :
    projection (some source) (labelled.map fun entry ↦ (some entry.1, entry.2)) =
      projection source labelled := by
  unfold projection
  rw [filter_map, map_map]
  simp only [Function.comp_def, Option.some.injEq]

omit [DecidableEq ι] in
theorem map_snd_map_label (log : List ε) :
    (log.map fun event ↦ (source, event)).map Prod.snd = log := by
  rw [map_map]
  exact map_id log

theorem sum_countP_projection [Fintype ι] (holds : ε → Bool) (labelled : List (ι × ε)) :
    ∑ source, (projection source labelled).countP holds = (labelled.map Prod.snd).countP holds := by
  induction labelled with
  | nil => simp
  | cons entry rest ih =>
    have hsplit : ∀ source, (projection source (entry :: rest)).countP holds =
        (projection source rest).countP holds +
          if entry.1 = source then (if holds entry.2 then 1 else 0) else 0 := by
      intro source
      rw [projection_cons]
      by_cases hsource : entry.1 = source
      · rw [if_pos hsource, if_pos hsource, countP_cons]
      · rw [if_neg hsource, if_neg hsource, Nat.add_zero]
    rw [Finset.sum_congr rfl fun source _ ↦ hsplit source, Finset.sum_add_distrib, ih,
      Finset.sum_ite_eq, if_pos (Finset.mem_univ _), map_cons, countP_cons]

end

variable {Call : Type} {Answer : Call → Type} {α β : Type}

inductive Traces : {α : Type} → Program Answer α → List (Event Answer) →
    Option (Except String α) → Prop
  /-- The run has not begun. -/
  | start {α : Type} (program : Program Answer α) : Traces program [] none
  | done {α : Type} (result : Except String α) : Traces (.done result) [] (some result)
  | call {α : Type} {request : Call}
      {next : Except String (Answer request) → Program Answer α}
      (answer : Except String (Answer request)) {log : List (Event Answer)}
      {outcome : Option (Except String α)} :
      Traces (next answer) log outcome →
      Traces (.call request next) (⟨request, answer⟩ :: log) outcome
  /-- The branches are running. -/
  | running {α β : Type} {count : ℕ} {branches : Fin count → Program Answer β}
      {next : Except String (Fin count → β) → Program Answer α}
      (labelled : List (Fin count × Event Answer)) :
      (∀ index, Traces (branches index) (projection index labelled) none) →
      Traces (.all count branches next) (labelled.map Prod.snd) none
  /-- All branches have ended with a value. -/
  | joined {α β : Type} {count : ℕ} {branches : Fin count → Program Answer β}
      {next : Except String (Fin count → β) → Program Answer α}
      (labelled : List (Fin count × Event Answer)) (values : Fin count → β)
      {log : List (Event Answer)} {outcome : Option (Except String α)} :
      (∀ index, Traces (branches index) (projection index labelled) (some (.ok (values index)))) →
      Traces (next (.ok values)) log outcome →
      Traces (.all count branches next) (labelled.map Prod.snd ++ log) outcome
  /-- A branch has thrown; the others run on beside the continuation, which has the label `none`. -/
  | rejected {α β : Type} {count : ℕ} {branches : Fin count → Program Answer β}
      {next : Except String (Fin count → β) → Program Answer α}
      (labelled : List (Fin count × Event Answer))
      (later : List (Option (Fin count) × Event Answer)) (thrower : Fin count)
      (message : String) {outcome : Option (Except String α)} :
      Traces (branches thrower) (projection thrower labelled) (some (.error message)) →
      projection (some thrower) later = [] →
      (∀ index, Traces (branches index)
        (projection index labelled ++ projection (some index) later) none) →
      Traces (next (.error message)) (projection none later) outcome →
      Traces (.all count branches next) (labelled.map Prod.snd ++ later.map Prod.snd) outcome

variable {log : List (Event Answer)} {outcome : Option (Except String α)}

/-- A run that ends is a run that has not ended yet. -/
theorem Traces.unsettled {program : Program Answer α} (h : Traces program log outcome) :
    Traces program log none := by
  induction h with
  | start program => exact .start program
  | done result => exact .start _
  | call answer _ ih => exact .call answer ih
  | running labelled hbranches _ => exact .running labelled hbranches
  | joined labelled values hbranches _ _ ih => exact .joined labelled values hbranches ih
  | rejected labelled later thrower message hthrower hends hbranches _ _ _ ih =>
    exact .rejected labelled later thrower message hthrower hends hbranches ih

theorem Traces.countP_le {kind : Call → Prop} [DecidablePred kind]
    {program : Program Answer α} {bound : ℕ} (htraces : Traces program log outcome)
    (hbound : program.AtMost kind bound) : log.countP (fun event ↦ kind event.call) ≤ bound := by
  induction htraces generalizing bound with
  | start _ | done _ => exact Nat.zero_le _
  | call answer _ ih =>
    obtain ⟨rest, hrest, hnext⟩ := hbound
    have hlog := ih (hnext answer)
    rw [countP_cons]
    simp only [decide_eq_true_eq]
    omega
  | running labelled _ ih =>
    obtain ⟨bounds, rest, hrest, hbranches, -⟩ := hbound
    rw [← sum_countP_projection]
    exact Nat.le_trans (Finset.sum_le_sum fun index _ ↦ ih index (hbranches index))
      (Nat.le_trans (Nat.le_add_right _ _) hrest)
  | joined labelled values _ _ ihbranches ih =>
    obtain ⟨bounds, rest, hrest, hbranches, hnext⟩ := hbound
    rw [countP_append, ← sum_countP_projection]
    exact Nat.le_trans (Nat.add_le_add
      (Finset.sum_le_sum fun index _ ↦ ihbranches index (hbranches index)) (ih (hnext _))) hrest
  | rejected labelled later thrower message _ _ _ _ _ ihbranches ih =>
    obtain ⟨bounds, rest, hrest, hbranches, hnext⟩ := hbound
    rw [countP_append, ← sum_countP_projection, ← sum_countP_projection, Fintype.sum_option,
      Nat.add_comm (List.countP _ (projection none later)), ← Nat.add_assoc,
      ← Finset.sum_add_distrib]
    refine Nat.le_trans (Nat.add_le_add (Finset.sum_le_sum fun index _ ↦ ?_) (ih (hnext _))) hrest
    rw [← countP_append]
    exact ihbranches index (hbranches index)

theorem Traces.not_of_avoids {kind : Call → Prop} {program : Program Answer α}
    (htraces : Traces program log outcome) (havoids : program.Avoids kind) :
    ∀ event ∈ log, ¬ kind event.call := by
  classical
  intro event hevent hkind
  have hcount := htraces.countP_le havoids.atMost
  exact countP_eq_zero.mp (Nat.le_zero.mp hcount) event hevent (decide_eq_true hkind)

end

end Bridgeport.Foundation
