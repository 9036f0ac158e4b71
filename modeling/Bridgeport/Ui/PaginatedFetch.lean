import Bridgeport.Foundation.Machine
import Bridgeport.Foundation.Tables

/-!
# Paginated lists

`usePaginatedFetch` asks for a page whenever the page, its size or the dependencies change, and
silently when it is reloaded. If no reload is called while the list is loading and the last request
is not answered while the hook is disabled, an older answer never replaces a newer one, and the
items are those of the last request, which asks for the current page, until a newer request is made
or fails (`paginatedKept_run`). The items of earlier dependencies are shown until then.

The answers that have been shown since the hook was disabled are recorded beside its state.
-/

namespace Bridgeport.Ui

open Foundation List

structure Page (Item : Type) where
  items : List Item
  total : ℕ

/-- A call of the fetcher, with what it was made for. A call by `reload` is silent. -/
structure PageRequest (Deps : Type) where
  id : ℕ
  silent : Bool
  deps : Deps
  enabled : Bool
  (limit offset : ℕ)

structure Paginated (Deps Item : Type) where
  deps : Deps
  enabled : Bool
  pageSize : ℕ
  currentPage : ℕ := 0
  items : List Item := []
  total : ℕ := 0
  loading : Bool := true
  error : Option String := none
  requestId : ℕ := 0
  inFlight : List (PageRequest Deps) := []
  /-- The second effect is to return to the first page. -/
  resetPage : Bool := false
  answers : List (PageRequest Deps × Page Item) := []

variable {Deps Item : Type}

namespace Paginated

variable (hook : Paginated Deps Item)

def fetch (silent : Bool) : Paginated Deps Item :=
  { hook with
    loading := if silent then hook.loading else true
    error := none
    requestId := hook.requestId + 1
    inFlight := ⟨hook.requestId + 1, silent, hook.deps, hook.enabled, hook.pageSize,
      hook.currentPage * hook.pageSize⟩ :: hook.inFlight }

/-- The first effect. -/
def effect : Paginated Deps Item :=
  if hook.enabled then hook.fetch false
  else { hook with items := [], total := 0, loading := true, answers := [] }

def mount (deps : Deps) (enabled : Bool) (pageSize : ℕ) : Paginated Deps Item :=
  effect { deps, enabled, pageSize }

def openPage (currentPage pageSize : ℕ) : Paginated Deps Item :=
  if currentPage = hook.currentPage ∧ pageSize = hook.pageSize then hook
  else effect { hook with currentPage, pageSize }

/-- What follows the answer to a request. -/
def settle (request : PageRequest Deps) (outcome : Except String (Page Item)) :
    Paginated Deps Item :=
  let rest := { hook with inFlight := hook.inFlight.filter (·.id ≠ request.id) }
  if request.id = hook.requestId then
    let loading := if request.silent then hook.loading else false
    match outcome with
    | .ok page => { rest with
        items := page.items, total := page.total, loading
        answers := (request, page) :: hook.answers }
    | .error message => { rest with error := some message, loading }
  else rest

end Paginated

inductive PageEvent (Deps Item : Type)
  | change (deps : Deps) (enabled : Bool)
  | resetPage
  | setCurrentPage (page : ℕ)
  | setPageSize (size : ℕ)
  | reload
  | settle (id : ℕ) (outcome : Except String (Page Item))

def pageMachine [DecidableEq Deps] : Machine (Paginated Deps Item) (PageEvent Deps Item) where
  next hook event :=
    match event with
    | .change deps enabled =>
      if deps = hook.deps ∧ enabled = hook.enabled then none
      else some (Paginated.effect { hook with
        deps, enabled, resetPage := hook.resetPage ∨ deps ≠ hook.deps })
    | .resetPage =>
      if hook.resetPage then some ({ hook with resetPage := false }.openPage 0 hook.pageSize)
      else none
    | .setCurrentPage page => some (hook.openPage page hook.pageSize)
    | .setPageSize size => some (hook.openPage 0 size)
    | .reload => some (if hook.enabled then hook.fetch true else hook)
    | .settle id outcome =>
      (hook.inFlight.find? (·.id = id)).map fun request ↦ hook.settle request outcome

/-! ### What is promised -/

variable (hook : Paginated Deps Item)

def Paginated.Asks (request : PageRequest Deps) : Prop :=
  request.deps = hook.deps ∧ request.enabled = true ∧ request.limit = hook.pageSize ∧
    request.offset = hook.currentPage * hook.pageSize

/-- The items are those of the last answer that has been shown, and the answers have been shown in
the order of the requests. -/
structure ShowsAnswers (items : List Item) (answers : List (PageRequest Deps × Page Item)) :
    Prop where
  items : items = (answers.head?.map (·.2.items)).getD []
  enabled : ∀ answer ∈ answers, answer.1.enabled = true
  newest : answers.Pairwise fun later earlier ↦ earlier.1.id < later.1.id

/-- The request whose answer is not ignored. -/
def Paginated.latest : Option (PageRequest Deps) :=
  hook.inFlight.find? (·.id = hook.requestId)

/-- The last request asks for the current page, and is still to be answered. -/
def Paginated.Awaits : Prop :=
  ∃ request, hook.latest = some request ∧ hook.Asks request

/-- The answer to the last request is shown. -/
def Paginated.Fresh : Prop :=
  ∃ answer, hook.answers.head? = some answer ∧ answer.1.id = hook.requestId ∧ hook.Asks answer.1

structure PaginatedSound (hook : Paginated Deps Item) : Prop extends
    ShowsAnswers hook.items hook.answers where
  deps : ∀ answer, hook.answers.head? = some answer → answer.1.deps = hook.deps
  rests : hook.enabled = true → hook.inFlight = [] → hook.loading = false ∧ hook.Fresh

/-- The items are those of the last request, if there are any, unless this is still to be answered
or has failed; and nothing is loading at rest. -/
structure PaginatedKept (hook : Paginated Deps Item) : Prop extends
    ShowsAnswers hook.items hook.answers where
  current : hook.items = [] ∨ hook.Fresh ∨ hook.Awaits ∨ hook.error ≠ none
  rests : hook.enabled = true → hook.inFlight = [] →
    hook.loading = false ∧ (hook.Fresh ∨ hook.error ≠ none)

/-- No reload is called while the list is loading, and the last request is not answered while the
hook is disabled. -/
def Unhurried : PageEvent Deps Item → Prop
  | .reload => hook.enabled = true → hook.loading = false
  | .settle id _ => id = hook.requestId → hook.enabled = true
  | _ => True

/-! ### What every step keeps -/

structure PageHolds (hook : Paginated Deps Item) : Prop extends
    ShowsAnswers hook.items hook.answers where
  issued : ∀ answer ∈ hook.answers, answer.1.id ≤ hook.requestId
  requests : ∀ request ∈ hook.inFlight, request.enabled = true

structure PageInvariant (hook : Paginated Deps Item) : Prop extends PageHolds hook where
  unanswered : hook.latest = none ∨ ∀ answer ∈ hook.answers, answer.1.id < hook.requestId
  latest : hook.enabled = true → hook.Awaits ∨ hook.latest = none ∧ (hook.Fresh ∨ hook.error ≠ none)
  disabled : hook.enabled = false → hook.answers = []
  loading : hook.enabled = true → hook.loading = true →
    ∃ request, hook.latest = some request ∧ request.silent = false

variable {hook after : Paginated Deps Item}

theorem PageHolds.fetch (h : PageHolds hook) (henabled : hook.enabled = true) {silent : Bool}
    (hsilent : silent = true → hook.loading = false) : PageInvariant (hook.fetch silent) := by
  have hlatest : (hook.fetch silent).latest = some ⟨hook.requestId + 1, silent, hook.deps,
      hook.enabled, hook.pageSize, hook.currentPage * hook.pageSize⟩ :=
    find?_cons_of_pos (by simp [Paginated.fetch])
  refine ⟨⟨h.toShowsAnswers, fun answer hanswer ↦ ?_,
    forall_mem_cons.mpr ⟨henabled, h.requests⟩⟩, .inr fun answer hanswer ↦ ?_,
    fun _ ↦ .inl ⟨_, hlatest, rfl, henabled, rfl, rfl⟩,
    fun hdown ↦ absurd (henabled.symm.trans hdown) nofun, fun _ hup ↦ ⟨_, hlatest, ?_⟩⟩
  · exact (h.issued answer hanswer).trans (Nat.le_succ _)
  · exact Nat.lt_succ_of_le (h.issued answer hanswer)
  · cases silent with
    | false => rfl
    | true => exact absurd (hup.symm.trans (hsilent rfl)) nofun

theorem PageHolds.effect (h : PageHolds hook) : PageInvariant hook.effect := by
  unfold Paginated.effect
  split_ifs with henabled
  · exact h.fetch henabled nofun
  · exact ⟨⟨⟨rfl, nofun, .nil⟩, nofun, h.requests⟩, .inr nofun, fun hup ↦ absurd hup henabled,
      fun _ ↦ rfl, fun hup ↦ absurd hup henabled⟩

theorem PageInvariant.openPage (h : PageInvariant hook) (currentPage pageSize : ℕ) :
    PageInvariant (hook.openPage currentPage pageSize) := by
  unfold Paginated.openPage
  split_ifs
  · exact h
  · have hopened : PageHolds { hook with currentPage, pageSize } :=
      ⟨h.toShowsAnswers, h.issued, h.requests⟩
    exact hopened.effect

theorem PageInvariant.settle (h : PageInvariant hook) {request : PageRequest Deps}
    (hfind : hook.inFlight.find? (·.id = request.id) = some request)
    {outcome : Except String (Page Item)}
    (hunhurried : Unhurried hook (.settle request.id outcome)) :
    PageInvariant (hook.settle request outcome) := by
  have hanswered := find?_filter_ne PageRequest.id hook.inFlight request.id hook.requestId
  have hrequests : ∀ other ∈ hook.inFlight.filter (·.id ≠ request.id), other.enabled = true :=
    fun other hother ↦ h.requests other (mem_filter.mp hother).1
  unfold Paginated.settle
  by_cases hid : request.id = hook.requestId
  · rw [if_pos hid] at hanswered ⊢
    rw [hid] at hfind
    have hsome : hook.latest = some request := hfind
    -- a silent request is made only when the list is not loading
    have hloading : hook.enabled = true →
        (if request.silent then hook.loading else false) ≠ true := by
      intro henabled
      cases hsilent : request.silent with
      | false => nofun
      | true =>
        intro hup
        obtain ⟨other, hother, hloud⟩ := h.loading henabled hup
        cases hsome.symm.trans hother
        exact absurd (hsilent.symm.trans hloud) nofun
    cases outcome with
    | error message =>
      exact ⟨⟨h.toShowsAnswers, h.issued, hrequests⟩, .inl hanswered,
        fun _ ↦ .inr ⟨hanswered, .inr nofun⟩, h.disabled,
        fun henabled hup ↦ absurd hup (hloading henabled)⟩
    | ok page =>
      have henabled := h.requests request (mem_of_find?_eq_some hfind)
      have hnewest := h.unanswered.resolve_left fun hnone ↦ nomatch hsome.symm.trans hnone
      refine ⟨⟨⟨rfl, forall_mem_cons.mpr ⟨henabled, h.enabled⟩, pairwise_cons.mpr ⟨?_, h.newest⟩⟩,
        forall_mem_cons.mpr ⟨hid.le, h.issued⟩, hrequests⟩, .inl hanswered, fun henabled ↦ ?_,
        fun hdown ↦ absurd ((hunhurried hid).symm.trans hdown) nofun,
        fun henabled hup ↦ absurd hup (hloading henabled)⟩
      · exact fun answer hanswer ↦ hid ▸ hnewest answer hanswer
      · obtain ⟨other, hother, hasks⟩ :=
          (h.latest henabled).resolve_right fun hnone ↦ nomatch hsome.symm.trans hnone.1
        cases hsome.symm.trans hother
        exact .inr ⟨hanswered, .inl ⟨_, rfl, hid, hasks⟩⟩
  · rw [if_neg hid] at hanswered ⊢
    refine ⟨⟨h.toShowsAnswers, h.issued, hrequests⟩,
      h.unanswered.imp_left hanswered.trans, fun henabled ↦ ?_, h.disabled,
      fun henabled hup ↦ ?_⟩
    · exact (h.latest henabled).imp (fun ⟨other, hother, hasks⟩ ↦
        ⟨other, hanswered.trans hother, hasks⟩) fun hrest ↦ ⟨hanswered.trans hrest.1, hrest.2⟩
    · obtain ⟨other, hother, hloud⟩ := h.loading henabled hup
      exact ⟨other, hanswered.trans hother, hloud⟩

theorem PageInvariant.kept (h : PageInvariant hook) : PaginatedKept hook where
  toShowsAnswers := h.toShowsAnswers
  current := by
    cases henabled : hook.enabled with
    | false =>
      refine .inl (h.items.trans ?_)
      rw [h.disabled henabled]
      rfl
    | true =>
      rcases h.latest henabled with hawaits | ⟨-, hfresh | hfailed⟩
      · exact .inr (.inr (.inl hawaits))
      · exact .inr (.inl hfresh)
      · exact .inr (.inr (.inr hfailed))
  rests henabled hempty := by
    have hnone : hook.latest = none := by simp [Paginated.latest, hempty]
    constructor
    · refine Bool.eq_false_iff.mpr fun hloading ↦ ?_
      simpa [hnone] using h.loading henabled hloading
    · refine ((h.latest henabled).resolve_left fun ⟨request, hrequest, _⟩ ↦ ?_).2
      exact nomatch hnone.symm.trans hrequest

variable [DecidableEq Deps]

theorem PageInvariant.next (h : PageInvariant hook) {event : PageEvent Deps Item}
    (hunhurried : Unhurried hook event) (hnext : pageMachine.next hook event = some after) :
    PageInvariant after := by
  cases event with
  | change deps enabled =>
    simp only [pageMachine] at hnext
    split_ifs at hnext
    cases hnext
    exact PageHolds.effect ⟨h.toShowsAnswers, h.issued, h.requests⟩
  | resetPage =>
    simp only [pageMachine] at hnext
    split_ifs at hnext
    cases hnext
    have hreset : PageInvariant { hook with resetPage := false } :=
      ⟨⟨h.toShowsAnswers, h.issued, h.requests⟩, h.unanswered, h.latest, h.disabled, h.loading⟩
    exact hreset.openPage 0 hook.pageSize
  | setCurrentPage page =>
    cases hnext
    exact h.openPage page hook.pageSize
  | setPageSize size =>
    cases hnext
    exact h.openPage 0 size
  | reload =>
    cases hnext
    split_ifs with henabled
    · exact h.toPageHolds.fetch henabled fun _ ↦ hunhurried henabled
    · exact h
  | settle id outcome =>
    obtain ⟨request, hfind, rfl⟩ := Option.map_eq_some_iff.mp hnext
    obtain rfl : request.id = id := by simpa using find?_some hfind
    exact h.settle hfind hunhurried

/-- What a paginated list shows in every run whose steps are unhurried. -/
theorem paginatedKept_run {deps : Deps} {enabled : Bool} {pageSize : ℕ}
    {events : List (PageEvent Deps Item)}
    (hrun : pageMachine.run (.mount deps enabled pageSize) events = some hook)
    (hunhurried : pageMachine.Meets Unhurried (.mount deps enabled pageSize) events) :
    PaginatedKept hook := by
  have hmount : PageInvariant (.mount deps enabled pageSize : Paginated Deps Item) :=
    PageHolds.effect ⟨⟨rfl, nofun, .nil⟩, nofun, nofun⟩
  exact PageInvariant.kept (Machine.induction_of_meets (motive := fun _ hook ↦
    PageInvariant hook) hmount (fun _ _ _ _ _ h hlabel hnext ↦ h.next hlabel hnext) hrun
      hunhurried)

theorem paginatedKept_loaded : PaginatedKept
    { (Paginated.mount () true 25 : Paginated Unit ℕ) with
    loading := false, items := [7], total := 1, inFlight := []
    answers := [(⟨1, false, (), true, 25, 0⟩, ⟨[7], 1⟩)] } :=
  @paginatedKept_run _ _ _ _ () true 25 [.settle 1 (.ok ⟨[7], 1⟩)] rfl
    ⟨fun _ ↦ rfl, fun _ _ ↦ trivial⟩

/-- The items stay when the dependencies change. When a list is reloaded while it loads, nothing
ends its loading. -/
theorem not_paginatedSound_changed : (¬ ∀ (events : List (PageEvent Bool ℕ))
    (hook : Paginated Bool ℕ), pageMachine.run (.mount false true 25) events = some hook →
      PaginatedSound hook) ∧
    ¬ ∀ (events : List (PageEvent Bool ℕ)) (hook : Paginated Bool ℕ),
      pageMachine.run (.mount false true 25) events = some hook → hook.enabled = true →
        hook.inFlight = [] → hook.loading = false := by
  refine ⟨fun h ↦ ?_, fun h ↦ ?_⟩
  · have hsound := h [.settle 1 (.ok ⟨[7], 1⟩), .change true true] _ rfl
    exact absurd (hsound.deps _ rfl) nofun
  · have hrests := h [.reload, .settle 1 (.ok ⟨[7], 1⟩), .settle 2 (.ok ⟨[7], 1⟩)] _ rfl
    exact absurd (hrests rfl rfl) nofun

end Bridgeport.Ui
