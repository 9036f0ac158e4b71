import Bridgeport.Foundation.Machine
import Bridgeport.Foundation.Tables

/-!
# The resource of a metric card

`useMetricResource`: loads, refresh ticks, reloads and retries may supersede each other, and the
requests settle in any order. If the latest request is not answered while the hook is disabled, the
data are those of the current window and the cursor follows the answers; and if moreover none of
them cuts off the flag of another one, no flag is left behind (`resourceKept_run`).

An `until` that is missing or empty is `none`. The answers that the data shown are made of are
recorded beside the state of the hook.
-/

namespace Bridgeport.Ui

open Foundation List

structure Options (T Cursor : Type) where
  merge : Option (T → T → T)
  maxInitialRetries : ℕ
  untilOf : T → Option Cursor

/-- A call of the fetcher, with the window that it was made in. -/
structure Request (Key Cursor : Type) where
  token : ℕ
  isRefresh : Bool
  depKey : Key
  enabled : Bool
  since : Option Cursor

structure Hook (Key T Cursor : Type) where
  depKey : Key
  enabled : Bool
  data : Option T := none
  loading : Bool := enabled
  refreshing : Bool := false
  error : Option String := none
  lastUntil : Option Cursor := none
  dataRef : Option T := none
  requestToken : ℕ := 0
  /-- `retryTimer` is to fire. -/
  retryTimer : Bool := false
  retryCount : ℕ := 0
  inFlight : List (Request Key Cursor) := []
  /-- The answers that the data are made of, with those that a refresh has replaced. -/
  shown : List (Request Key Cursor × T) := []

variable {Key T Cursor : Type}

namespace Hook

variable (hook : Hook Key T Cursor)

/-- `doFetch` behind the check of `enabled`, up to the call of the fetcher. -/
def fetch (isRefresh : Bool) : Hook Key T Cursor :=
  { hook with
    requestToken := hook.requestToken + 1
    retryTimer := false
    refreshing := if isRefresh then true else hook.refreshing
    loading := if isRefresh then hook.loading else true
    inFlight := ⟨hook.requestToken + 1, isRefresh, hook.depKey, hook.enabled,
      if isRefresh then hook.lastUntil else none⟩ :: hook.inFlight }

/-- The effect of a change of `depKey` or `enabled`. -/
def openWindow (depKey : Key) (enabled : Bool) : Hook Key T Cursor :=
  let reset := { hook with
    depKey, enabled, retryTimer := false, retryCount := 0, data := none, dataRef := none
    lastUntil := none, shown := [] }
  if enabled then reset.fetch false else { reset with loading := false }

/-- The first effect. -/
def mount (depKey : Key) (enabled : Bool) : Hook Key T Cursor :=
  openWindow { depKey, enabled } depKey enabled

variable (options : Options T Cursor) (request : Request Key Cursor)

def accept (result : T) : Hook Key T Cursor :=
  let next :=
    match request.isRefresh, options.merge, hook.dataRef with
    | true, some merge, some previous => merge previous result
    | _, _, _ => result
  { hook with
    retryCount := 0, error := none, dataRef := some next, data := some next
    lastUntil := (options.untilOf result).or hook.lastUntil
    shown := (if request.isRefresh ∧ hook.dataRef.isSome then hook.shown else []) ++
      [(request, result)] }

def finish (isRefresh : Bool) : Hook Key T Cursor :=
  { hook with
    refreshing := if isRefresh then false else hook.refreshing
    loading := if isRefresh then hook.loading else false }

def answered : Hook Key T Cursor :=
  { hook with inFlight := hook.inFlight.filter (·.token ≠ request.token) }

/-- `doFetch` behind the answer to a request that is in flight no more. -/
def settle (outcome : Except String T) : Hook Key T Cursor :=
  if request.token = hook.requestToken then
    match outcome with
    | .ok result => (hook.accept options request result).finish request.isRefresh
    | .error message =>
      if request.isRefresh = false ∧ hook.retryCount < options.maxInitialRetries then
        { hook with retryCount := hook.retryCount + 1, retryTimer := true }
      else { hook with error := some message }.finish request.isRefresh
  else hook

end Hook

inductive HookEvent (Key T : Type)
  | change (depKey : Key) (enabled : Bool)
  | tick
  | reload
  | retry
  | settle (token : ℕ) (outcome : Except String T)

def hookMachine [DecidableEq Key] (options : Options T Cursor) :
    Machine (Hook Key T Cursor) (HookEvent Key T) where
  next hook event :=
    match event with
    | .change depKey enabled =>
      if depKey = hook.depKey ∧ enabled = hook.enabled then none
      else some (hook.openWindow depKey enabled)
    | .tick => if hook.enabled then some (hook.fetch true) else none
    | .reload =>
      let reset := { hook with
        retryTimer := false, retryCount := 0, dataRef := none, lastUntil := none }
      some (if hook.enabled then reset.fetch false else reset)
    | .retry => if hook.retryTimer then some (hook.fetch false) else none
    | .settle token outcome =>
      (hook.inFlight.find? (·.token = token)).map fun request ↦
        (hook.answered request).settle options request outcome

/-! ### What is promised -/

/-- The data that the answers make: each is merged into those before it, or replaces them. -/
def stitched (options : Options T Cursor) (answers : List T) : Option T :=
  answers.foldl (fun data result ↦ match options.merge, data with
    | some merge, some previous => some (merge previous result)
    | _, _ => some result) none

/-- The data are made of answers to requests of the current window. -/
structure FollowsAnswers (options : Options T Cursor) (hook : Hook Key T Cursor) : Prop where
  data : hook.data = stitched options (hook.shown.map Prod.snd)
  shown : ∀ answer ∈ hook.shown, answer.1.depKey = hook.depKey ∧ answer.1.enabled = true

variable (hook : Hook Key T Cursor)

def Hook.Rests : Prop :=
  hook.inFlight = [] → hook.retryTimer = false → hook.loading = false ∧ hook.refreshing = false

/-- The cursor is that of the last answer. -/
structure ResourceSound (options : Options T Cursor) (hook : Hook Key T Cursor) : Prop extends
    FollowsAnswers options hook where
  rests : hook.Rests
  lastUntil : hook.lastUntil = hook.shown.getLast?.bind fun answer ↦ options.untilOf answer.2

/-- The cursor of the last answer that has one. A reload keeps the data and drops the cursor until
an answer comes. -/
def Hook.cursor (options : Options T Cursor) (hook : Hook Key T Cursor) : Option Cursor :=
  if hook.dataRef.isSome then (hook.shown.filterMap fun answer ↦ options.untilOf answer.2).getLast?
  else none

structure ResourceKept (options : Options T Cursor) (hook : Hook Key T Cursor) : Prop extends
    FollowsAnswers options hook where
  lastUntil : hook.lastUntil = hook.cursor options

/-- No answer to the latest request comes while the hook is disabled. -/
def AnswersEnabled : HookEvent Key T → Prop
  | .settle token _ => token = hook.requestToken → hook.enabled = true
  | _ => True

/-- No refresh begins during a load or its retries, and no load during a refresh. -/
def Orderly : HookEvent Key T → Prop
  | .change _ enabled => enabled = true → hook.refreshing = false
  | .tick => hook.loading = false
  | .reload => hook.enabled = true → hook.refreshing = false
  | .retry | .settle _ _ => True

/-! ### What every step keeps -/

/-- The request whose answer is not ignored. -/
def Hook.latest : Option (Request Key Cursor) :=
  hook.inFlight.find? (·.token = hook.requestToken)

structure Holds (options : Options T Cursor) (hook : Hook Key T Cursor) : Prop extends
    ResourceKept options hook where
  held : hook.dataRef = none ∨ hook.dataRef = hook.data

/-- In a run that is orderly, a flag is up only for the latest request or a retry. -/
structure HookInvariant (options : Options T Cursor) (orderly : Prop)
    (hook : Hook Key T Cursor) : Prop extends Holds options hook where
  retry : hook.retryTimer = true → hook.enabled = true ∧ hook.latest = none ∧ hook.dataRef = none
  latest : ∀ request, hook.latest = some request →
    (hook.enabled = true → request.depKey = hook.depKey ∧ request.enabled = true) ∧
      (request.isRefresh = false → hook.dataRef = none)
  loading : orderly → hook.loading = true →
    hook.retryTimer = true ∨ ∃ request, hook.latest = some request ∧ request.isRefresh = false
  refreshing : orderly → hook.refreshing = true →
    ∃ request, hook.latest = some request ∧ request.isRefresh = true

variable {options : Options T Cursor} {hook after : Hook Key T Cursor} {orderly : Prop}

variable {request : Request Key Cursor}

section

variable (h : Holds options hook) {isRefresh : Bool}

include h

theorem Holds.accept (result : T) (hwindow : request.depKey = hook.depKey ∧ request.enabled = true)
    (hload : request.isRefresh = false → hook.dataRef = none) :
    Holds options (hook.accept options request result) := by
  cases hprevious : hook.dataRef with
  | none =>
    have hcursor : hook.lastUntil = none := h.lastUntil.trans (if_neg (by simp [hprevious]))
    refine ⟨⟨⟨?_, fun answer hanswer ↦ ?_⟩, ?_⟩, .inr rfl⟩
    · cases hmerge : options.merge <;> simp [Hook.accept, hprevious, stitched, hmerge]
    · obtain rfl : answer = (request, result) := by simpa [Hook.accept, hprevious] using hanswer
      exact hwindow
    · cases hresult : options.untilOf result <;>
        simp [Hook.accept, Hook.cursor, hprevious, hcursor, hresult]
  | some previous =>
    have hrefresh : request.isRefresh = true := by
      refine (Bool.eq_false_or_eq_true _).resolve_right fun hfalse ↦ ?_
      nomatch (hload hfalse).symm.trans hprevious
    have hshown : (hook.accept options request result).shown =
        hook.shown ++ [(request, result)] := by
      simp [Hook.accept, hprevious, hrefresh]
    have hcursor : hook.lastUntil =
        (hook.shown.filterMap fun answer ↦ options.untilOf answer.2).getLast? :=
      h.lastUntil.trans (if_pos (by simp [hprevious]))
    have hdata := h.data
    rw [← h.held.resolve_left (by simp [hprevious]), hprevious] at hdata
    refine ⟨⟨⟨?_, fun answer hanswer ↦ ?_⟩, ?_⟩, .inr rfl⟩
    · unfold stitched at hdata ⊢
      rw [hshown, map_append, foldl_append, ← hdata]
      cases hmerge : options.merge <;> simp [Hook.accept, hprevious, hrefresh, hmerge]
    · rw [hshown] at hanswer
      rcases mem_append.mp hanswer with hbefore | hlast
      · exact h.shown answer hbefore
      · cases mem_singleton.mp hlast
        exact hwindow
    · unfold Hook.cursor
      rw [hshown, filterMap_append, getLast?_append]
      cases hresult : options.untilOf result <;> simp [Hook.accept, hcursor, hresult]

theorem invariant_fetch (henabled : hook.enabled = true)
    (hload : isRefresh = false → hook.dataRef = none)
    (hloading : orderly → isRefresh = true → hook.loading ≠ true)
    (hrefreshing : orderly → isRefresh = false → hook.refreshing ≠ true) :
    HookInvariant options orderly (hook.fetch isRefresh) := by
  have hnewest : ∃ since, (hook.fetch isRefresh).latest =
      some ⟨hook.requestToken + 1, isRefresh, hook.depKey, hook.enabled, since⟩ :=
    ⟨_, find?_cons_of_pos (by simp [Hook.fetch])⟩
  obtain ⟨since, hlatest⟩ := hnewest
  refine ⟨⟨⟨⟨h.data, h.shown⟩, h.lastUntil⟩, h.held⟩, nofun, fun request hrequest ↦ ?_,
    fun horderly hup ↦ .inr ⟨_, hlatest, ?_⟩, fun horderly hup ↦ ⟨_, hlatest, ?_⟩⟩
  · cases hlatest.symm.trans hrequest
    exact ⟨fun _ ↦ ⟨rfl, henabled⟩, hload⟩
  · cases isRefresh <;> simp_all [Hook.fetch]
  · cases isRefresh <;> simp_all [Hook.fetch]

theorem invariant_finish (hnone : hook.latest = none) (htimer : hook.retryTimer ≠ true)
    (hloading : orderly → isRefresh = true → hook.loading ≠ true)
    (hrefreshing : orderly → isRefresh = false → hook.refreshing ≠ true) :
    HookInvariant options orderly (hook.finish isRefresh) := by
  refine ⟨⟨⟨⟨h.data, h.shown⟩, h.lastUntil⟩, h.held⟩, fun hup ↦ absurd hup htimer,
    fun request hrequest ↦ ?_, fun horderly hup ↦ ?_, fun horderly hup ↦ ?_⟩
  · exact absurd (hnone.symm.trans hrequest) nofun
  · cases isRefresh <;> simp_all [Hook.finish]
  · cases isRefresh <;> simp_all [Hook.finish]

end

theorem invariant_openWindow (depKey : Key) {enabled : Bool}
    (hrefreshing : orderly → hook.refreshing = true →
      enabled = false ∧ ∃ request, hook.latest = some request ∧ request.isRefresh = true) :
    HookInvariant options orderly (hook.openWindow depKey enabled) := by
  have hnone : ∀ answer ∈ ([] : List (Request Key Cursor × T)),
      answer.1.depKey = depKey ∧ answer.1.enabled = true := fun _ hmem ↦ absurd hmem not_mem_nil
  unfold Hook.openWindow
  cases enabled with
  | true =>
    exact invariant_fetch ⟨⟨⟨rfl, hnone⟩, rfl⟩, .inl rfl⟩ rfl (fun _ ↦ rfl) (fun _ ↦ nofun)
      fun horderly _ hup ↦ absurd (hrefreshing horderly hup).1 nofun
  | false =>
    exact ⟨⟨⟨⟨rfl, hnone⟩, rfl⟩, .inl rfl⟩, nofun, fun _ _ ↦ ⟨nofun, fun _ ↦ rfl⟩, fun _ ↦ nofun,
      fun horderly hup ↦ (hrefreshing horderly hup).2⟩

section

variable (h : HookInvariant options orderly hook)
include h

theorem HookInvariant.settle {outcome : Except String T}
    (hfind : hook.inFlight.find? (·.token = request.token) = some request)
    (henabled : AnswersEnabled hook (.settle request.token outcome)) :
    HookInvariant options orderly ((hook.answered request).settle options request outcome) := by
  have hanswered : (hook.answered request).latest =
      if request.token = hook.requestToken then none else hook.latest :=
    find?_filter_ne Request.token hook.inFlight request.token hook.requestToken
  have hholds : Holds options (hook.answered request) :=
    ⟨⟨⟨h.data, h.shown⟩, h.lastUntil⟩, h.held⟩
  have htoken : (hook.answered request).requestToken = hook.requestToken := rfl
  unfold Hook.settle
  rw [htoken]
  by_cases hlatest : request.token = hook.requestToken
  · rw [if_pos hlatest] at hanswered ⊢
    rw [hlatest] at hfind
    have hsome : hook.latest = some request := hfind
    obtain ⟨hwindow, hload⟩ := h.latest request hsome
    have htimer : hook.retryTimer ≠ true := fun htimer ↦
      absurd ((h.retry htimer).2.1.symm.trans hsome) nofun
    -- only the flag of the kind of the request is up
    have hloading : orderly → request.isRefresh = true → hook.loading ≠ true := by
      intro horderly hrefresh hloading
      obtain ⟨other, hother, hload⟩ := (h.loading horderly hloading).resolve_left htimer
      cases hsome.symm.trans hother
      exact absurd (hrefresh.symm.trans hload) nofun
    have hrefreshing : orderly → request.isRefresh = false → hook.refreshing ≠ true := by
      intro horderly hload hrefreshing
      obtain ⟨other, hother, hrefresh⟩ := h.refreshing horderly hrefreshing
      cases hsome.symm.trans hother
      exact absurd (hrefresh.symm.trans hload) nofun
    cases outcome with
    | ok result =>
      exact invariant_finish (hholds.accept result (hwindow (henabled hlatest)) hload) hanswered
        htimer hloading hrefreshing
    | error message =>
      dsimp only
      split_ifs with hretry
      · refine ⟨⟨⟨⟨h.data, h.shown⟩, h.lastUntil⟩, h.held⟩,
          fun _ ↦ ⟨henabled hlatest, hanswered, hload hretry.1⟩, fun other hother ↦ ?_,
          fun _ _ ↦ .inl rfl, fun horderly hup ↦ absurd hup (hrefreshing horderly hretry.1)⟩
        exact absurd (hanswered.symm.trans hother) nofun
      · have hfailed : Holds options { hook.answered request with error := some message } :=
          ⟨⟨⟨h.data, h.shown⟩, h.lastUntil⟩, h.held⟩
        exact invariant_finish hfailed hanswered htimer hloading hrefreshing
  · rw [if_neg hlatest] at hanswered ⊢
    exact ⟨hholds, hanswered ▸ h.retry, hanswered ▸ h.latest, hanswered ▸ h.loading,
      hanswered ▸ h.refreshing⟩

theorem HookInvariant.rests (horderly : orderly) : hook.Rests := by
  intro hempty htimer
  have hnone : hook.latest = none := by simp [Hook.latest, hempty]
  constructor
  · refine Bool.eq_false_iff.mpr fun hloading ↦ ?_
    simpa [htimer, hnone] using h.loading horderly hloading
  · refine Bool.eq_false_iff.mpr fun hrefreshing ↦ ?_
    simpa [hnone] using h.refreshing horderly hrefreshing

theorem HookInvariant.mono {fewer : Prop} (hfewer : fewer → orderly) :
    HookInvariant options fewer hook :=
  ⟨h.toHolds, h.retry, h.latest, h.loading ∘ hfewer, h.refreshing ∘ hfewer⟩

end

variable [DecidableEq Key]

theorem HookInvariant.next (h : HookInvariant options orderly hook) {event : HookEvent Key T}
    (henabled : AnswersEnabled hook event) (horderly : orderly → Orderly hook event)
    (hnext : (hookMachine options).next hook event = some after) :
    HookInvariant options orderly after := by
  cases event with
  | change depKey enabled =>
    simp only [hookMachine] at hnext
    split_ifs at hnext
    cases hnext
    refine invariant_openWindow depKey fun hmeets hup ↦ ⟨?_, h.refreshing hmeets hup⟩
    refine Bool.eq_false_iff.mpr fun henabled ↦ ?_
    exact absurd hup (Bool.eq_false_iff.mp (horderly hmeets henabled))
  | tick =>
    simp only [hookMachine] at hnext
    split_ifs at hnext with henabled
    cases hnext
    exact invariant_fetch h.toHolds henabled nofun
      (fun hmeets _ ↦ Bool.eq_false_iff.mp (horderly hmeets)) fun _ ↦ nofun
  | reload =>
    cases hnext
    split_ifs with henabled
    · have hreset : Holds options { hook with
          retryTimer := false, retryCount := 0, dataRef := none, lastUntil := none } :=
        ⟨⟨⟨h.data, h.shown⟩, rfl⟩, .inl rfl⟩
      exact invariant_fetch hreset henabled (fun _ ↦ rfl) (fun _ ↦ nofun) fun hmeets _ ↦
        Bool.eq_false_iff.mp (horderly hmeets henabled)
    · refine ⟨⟨⟨⟨h.data, h.shown⟩, rfl⟩, .inl rfl⟩, nofun, fun request hrequest ↦
        ⟨fun hup ↦ absurd hup henabled, fun _ ↦ rfl⟩, fun hmeets hloading ↦ .inr ?_, h.refreshing⟩
      exact (h.loading hmeets hloading).resolve_left fun htimer ↦ henabled (h.retry htimer).1
  | retry =>
    simp only [hookMachine] at hnext
    split_ifs at hnext with htimer
    cases hnext
    obtain ⟨henabled, hnone, hload⟩ := h.retry htimer
    refine invariant_fetch h.toHolds henabled (fun _ ↦ hload) (fun _ ↦ nofun)
      fun hmeets _ hrefreshing ↦ ?_
    obtain ⟨request, hrequest, -⟩ := h.refreshing hmeets hrefreshing
    exact absurd (hnone.symm.trans hrequest) nofun
  | settle token outcome =>
    obtain ⟨request, hfind, rfl⟩ := Option.map_eq_some_iff.mp hnext
    obtain rfl : request.token = token := by simpa using find?_some hfind
    exact h.settle hfind henabled

/-- What the hook keeps in every run in which no latest request is answered while it is disabled.
No flag is left behind if the steps are orderly. -/
theorem resourceKept_run {depKey : Key} {enabled : Bool} {events : List (HookEvent Key T)}
    (hrun : (hookMachine options).run (.mount depKey enabled) events = some hook)
    (henabled : (hookMachine options).Meets AnswersEnabled (.mount depKey enabled) events) :
    ResourceKept options hook ∧
      ((hookMachine options).Meets Orderly (.mount depKey enabled) events → hook.Rests) := by
  have hkept : HookInvariant options ((hookMachine options).Meets Orderly (.mount depKey enabled)
      events) hook := by
    refine Machine.induction_of_meets (motive := fun labels hook ↦ HookInvariant options
      ((hookMachine options).Meets Orderly (.mount depKey enabled) labels) hook)
      (invariant_openWindow depKey fun _ hup ↦ absurd hup Bool.false_ne_true) ?_ hrun henabled
    intro labels before label after hbefore h hlabel hnext
    refine (h.mono fun hmeets ↦ ?_).next hlabel (fun hmeets ↦ ?_) hnext
    · exact (Machine.meets_concat.mp hmeets).1
    · exact (Machine.meets_concat.mp hmeets).2 before hbefore
  exact ⟨hkept.toResourceKept, hkept.rests⟩

/-- Samples with the time of the last one. -/
def samples : Options (List ℕ) ℕ :=
  ⟨some (· ++ ·), 4, getLast?⟩

def refreshed : Hook Unit (List ℕ) ℕ :=
  { (Hook.mount () true : Hook Unit (List ℕ) ℕ) with
    loading := false, data := some [1, 2, 3], dataRef := some [1, 2, 3], lastUntil := some 3
    requestToken := 2, inFlight := []
    shown := [(⟨1, false, (), true, none⟩, [1, 2]), (⟨2, true, (), true, some 2⟩, [3])] }

theorem resourceKept_loaded : ResourceKept samples refreshed ∧ refreshed.Rests := by
  have hkept := @resourceKept_run Unit _ _ samples refreshed _ () true
    [.settle 1 (.ok [1, 2]), .tick, .settle 2 (.ok [3])] rfl ?_
  · refine hkept.imp_right fun hrests ↦ hrests ⟨trivial, ?_⟩
    rintro _ ⟨⟩
    refine ⟨rfl, ?_⟩
    rintro _ ⟨⟩
    exact ⟨trivial, fun _ _ ↦ trivial⟩
  · refine ⟨fun _ ↦ rfl, ?_⟩
    rintro _ ⟨⟩
    refine ⟨trivial, ?_⟩
    rintro _ ⟨⟩
    exact ⟨fun _ ↦ rfl, fun _ _ ↦ trivial⟩

def samplesRun (events : List (HookEvent Bool (List ℕ))) : Option (Hook Bool (List ℕ) ℕ) :=
  (hookMachine samples).run (.mount false true) events

/-- A reload drops the cursor and keeps the data. When a refresh begins during the first load, the
load is ignored and nothing ends its flag. An answer is shown after its window has been left for one
that is disabled. -/
theorem not_resourceSound_reloaded :
    (¬ ∀ events hook, samplesRun events = some hook → ResourceSound samples hook) ∧
      (¬ ∀ events hook, samplesRun events = some hook → hook.Rests) ∧
        ¬ ∀ events hook, samplesRun events = some hook → FollowsAnswers samples hook := by
  refine ⟨fun h ↦ ?_, fun h ↦ ?_, fun h ↦ ?_⟩
  · have hsound := h [.settle 1 (.ok [1, 2]), .reload] _ rfl
    exact absurd hsound.lastUntil (by decide)
  · have hrests := h [.tick, .settle 1 (.ok [1, 2]), .settle 2 (.ok [3])] _ rfl
    exact absurd (hrests rfl rfl).1 (by decide)
  · have hfollows := h [.change true false, .settle 1 (.ok [1, 2])] _ rfl
    exact absurd (hfollows.shown _ mem_cons_self).1 (by decide)

end Bridgeport.Ui
