import Bridgeport.Foundation.Machine
import Bridgeport.Monitoring.DashboardRefresh

/-!
# The cursor of a history

Transactions write samples, which are stamped when they are written and visible when they are
committed, while a client reads a history: the whole window first, and from then on what is later
than the `until` of the answer before. `until` is taken when a read starts. In every run in which no
sample is committed with a stamp at or before the `until` of an answer that has been given, every
answer leaves the client with all samples of the window that were committed when the read started
(`meets_complete`). A sample that is stamped before a read starts and committed behind its query is
skipped for ever (`not_meets_complete`).

The answer to a full read is kept for the full reads of all clients, and one that comes from there
must have found what was committed when the client's own read started. For how long an answer is
kept, and which timestamps are kept of a full one with more than `maxPoints` of them, is left to the
labels. The servers of the environment do not change.
-/

namespace Bridgeport.Monitoring

open Foundation List Option

variable {M : Type}

/-- What a client asks for, and the servers of the environment. `hoursBefore` sets a time back by
the hours of the window, on the local clock. -/
structure HistoryRequest where
  serverIds : List String
  hoursBefore : ℕ → ℕ
  maxPoints : ℕ

structure HistoryRead (M : Type) where
  mode : Mode
  (since untilTime : ℕ)
  committed : List (Sample M)

/-- The answer to a full read, in the cache: what its query has found is `committed`. -/
structure CachedAnswer (M : Type) where
  (since untilTime : ℕ)
  committed : List (Sample M)
  kept : List ℕ

def CachedAnswer.read (answer : CachedAnswer M) : HistoryRead M :=
  ⟨.full, answer.since, answer.untilTime, answer.committed⟩

/-- The clock, the samples that are committed and those of each transaction that are not, the answer
in the cache, and the client: the start of its window, the `until` of the last answer, the read that
is under way and the samples of the answers. -/
structure HistoryState (M : Type) where
  now : ℕ
  committed : List (Sample M)
  pending : ℕ → List (Sample M)
  cached : Option (CachedAnswer M)
  (windowStart cursor : Option ℕ)
  reading : Option (HistoryRead M)
  answered : List (Sample M)

def HistoryState.initial (now : ℕ) (committed : List (Sample M)) (pending : ℕ → List (Sample M)) :
    HistoryState M where
  now := now
  committed := committed
  pending := pending
  cached := none
  windowStart := none
  cursor := none
  reading := none
  answered := []

/-- `fill` is the query of a full read of another client, which has started at `untilTime`. -/
inductive HistoryStep (M : Type)
  | clock (now : ℕ)
  | write (transaction : ℕ) (owner : String) (metrics : M)
  | commit (transaction : ℕ)
  | rollback (transaction : ℕ)
  | start
  | answer (kept : List ℕ)
  | fill (untilTime : ℕ) (kept : List ℕ)
  | answerCached

section

variable (request : HistoryRequest) (state : HistoryState M)

def startRead : HistoryRead M where
  mode := match state.cursor with
    | none => .full
    | some _ => .delta
  since := match state.cursor with
    | none => request.hoursBefore state.now
    | some untilTime => untilTime
  untilTime := state.now
  committed := state.committed

def foundRows (read : HistoryRead M) (committed : List (Sample M)) : List (Sample M) :=
  (committed.filter fun sample ↦ sample.owner ∈ request.serverIds ∧
    Within read.mode read.since sample.collectedAt).insertionSort
      fun sample other ↦ sample.collectedAt ≤ other.collectedAt

/-- The rows of an answer: those at the timestamps that are kept, if a full one has too many. -/
def answeredRows (read : HistoryRead M) (committed : List (Sample M)) (kept : List ℕ) :
    List (Sample M) :=
  let rows := foundRows request read committed
  if read.mode = .full ∧ request.maxPoints < (timestampsOf rows).length then
    rows.filter (·.collectedAt ∈ kept)
  else rows

def CachedAnswer.rows (answer : CachedAnswer M) : List (Sample M) :=
  answeredRows request answer.read answer.committed answer.kept

/-- The client has been given the rows of an answer. -/
def afterAnswer (untilTime : ℕ) (rows : List (Sample M)) : HistoryState M :=
  { state with
    cursor := some untilTime
    reading := none
    answered := state.answered ++ rows }

/-- A server that collects samples, and a client that reads their history. -/
def historyMachine : Machine (HistoryState M) (HistoryStep M) where
  next state
    | .clock now => some { state with now }
    | .write transaction owner metrics => some
      { state with
        pending := Function.update state.pending transaction
          (state.pending transaction ++ [⟨owner, state.now, metrics⟩]) }
    | .commit transaction => some
      { state with
        committed := state.committed ++ state.pending transaction
        pending := Function.update state.pending transaction [] }
    | .rollback transaction => some
      { state with pending := Function.update state.pending transaction [] }
    | .start =>
      match state.reading with
      | some _ => none
      | none => some
        { state with
          windowStart := match state.cursor with
            | none => some (startRead request state).since
            | some _ => state.windowStart
          reading := some (startRead request state) }
    | .answer kept => state.reading.map fun read ↦
        { afterAnswer state read.untilTime (answeredRows request read state.committed kept) with
          cached := match read.mode with
            | .full => some ⟨read.since, read.untilTime, state.committed, kept⟩
            | .delta => state.cached }
    | .fill untilTime kept => some
      { state with
        cached := some ⟨request.hoursBefore untilTime, untilTime, state.committed, kept⟩ }
    | .answerCached =>
      match state.reading, state.cached with
      | some ⟨.full, _, _, _⟩, some answer =>
        some (afterAnswer state answer.untilTime (answer.rows request))
      | _, _ => none

/-- A sample of the environment that lies in the window of the client. -/
structure InWindow (state : HistoryState M) (sample : Sample M) : Prop where
  owner : sample.owner ∈ request.serverIds
  start : ∃ start, state.windowStart = some start ∧ start ≤ sample.collectedAt

def Complete (state : HistoryState M) : HistoryStep M → Prop
  | .answer kept => ∀ read, state.reading = some read → ∀ sample ∈ read.committed,
      InWindow request state sample →
        sample ∈ state.answered ++ answeredRows request read state.committed kept
  | .answerCached => ∀ read answer, state.reading = some read → read.mode = .full →
      state.cached = some answer → ∀ sample ∈ read.committed, InWindow request state sample →
        sample ∈ state.answered ++ answer.rows request
  | _ => True

/-- A sample is later than the `until` of the last answer. -/
def BehindCursor (sample : Sample M) : Prop :=
  ∀ untilTime, state.cursor = some untilTime → untilTime < sample.collectedAt

/-- The samples of the window that are committed are later than the `until` of the last answer, and
a full answer has no more timestamps than it may have. One from the cache has found the samples that
were committed when the read started, and later ones are later than its `until`. -/
def OnTime : HistoryStep M → Prop
  | .commit transaction => ∀ sample ∈ state.pending transaction,
      InWindow request state sample → BehindCursor state sample
  | .answer _ => ∀ read, state.reading = some read → read.mode = .full →
      (timestampsOf (foundRows request read state.committed)).length ≤ request.maxPoints
  | .answerCached => ∀ read answer, state.reading = some read → state.cached = some answer →
      answer.since ≤ read.since ∧
      (timestampsOf (foundRows request answer.read answer.committed)).length ≤ request.maxPoints ∧
      ∀ sample ∈ state.committed, InWindow request state sample → sample ∈ answer.committed ∨
        sample ∉ read.committed ∧ answer.untilTime < sample.collectedAt
  | _ => True

end

section

variable {request : HistoryRequest} {committed : List (Sample M)} {sample : Sample M}
  {read : HistoryRead M}

theorem mem_foundRows : sample ∈ foundRows request read committed ↔ sample ∈ committed ∧
      sample.owner ∈ request.serverIds ∧ Within read.mode read.since sample.collectedAt := by
  simp [foundRows]

/-- An answer that is not downsampled has the rows that its query finds. -/
theorem answeredRows_eq (kept : List ℕ) (h : read.mode = .full →
      (timestampsOf (foundRows request read committed)).length ≤ request.maxPoints) :
    answeredRows request read committed kept = foundRows request read committed :=
  if_neg fun hmany ↦ Nat.not_lt.mpr (h hmany.1) hmany.2

variable (request) in
/-- The client has the committed samples of its window up to its cursor, and the read that is under
way starts there. -/
structure Covered (state : HistoryState M) : Prop where
  found : ∀ sample ∈ state.committed, InWindow request state sample →
    sample ∈ state.answered ∨ BehindCursor state sample
  full : ∀ read, state.reading = some read → read.mode = .full →
    state.cursor = none ∧ state.windowStart = some read.since
  delta : ∀ read, state.reading = some read → read.mode = .delta → state.cursor = some read.since
  started : ∀ read, state.reading = some read → read.committed ⊆ state.committed

theorem covered_initial (now : ℕ) (committed : List (Sample M)) (pending : ℕ → List (Sample M)) :
    Covered request (.initial now committed pending) where
  found _ _ hwindow := absurd hwindow.start nofun
  full := nofun
  delta := nofun
  started := nofun

section

variable {state : HistoryState M} (h : Covered request state)
include h

/-- A read that is under way finds what the client does not have. -/
theorem Covered.mem_foundRows (hread : state.reading = some read)
    (hsample : sample ∈ state.committed) (hwindow : InWindow request state sample)
    (hbehind : BehindCursor state sample) : sample ∈ foundRows request read state.committed := by
  refine Monitoring.mem_foundRows.mpr ⟨hsample, hwindow.owner, ?_⟩
  cases hmode : read.mode with
  | full =>
    obtain ⟨start, hstart, hle⟩ := hwindow.start
    obtain ⟨-, hsince⟩ := h.full read hread hmode
    obtain rfl : read.since = start := some.inj (hsince.symm.trans hstart)
    exact hle
  | delta => exact hbehind read.since (h.delta read hread hmode)

/-- A read that finds its answer in the cache is given what was committed when it started. -/
theorem Covered.mem_rows (hread : state.reading = some read) (hfull : read.mode = .full)
    {answer : CachedAnswer M} (hcached : state.cached = some answer)
    (hstep : OnTime request state .answerCached) (hsample : sample ∈ state.committed)
    (hwindow : InWindow request state sample) : sample ∈ answer.rows request ∨
      sample ∉ read.committed ∧ answer.untilTime < sample.collectedAt := by
  obtain ⟨hsince, hmany, hfound⟩ := hstep read answer hread hcached
  refine (hfound sample hsample hwindow).imp_left fun hcommitted ↦ ?_
  obtain ⟨start, hstart, hle⟩ := hwindow.start
  obtain rfl : read.since = start :=
    some.inj ((h.full read hread hfull).2.symm.trans hstart)
  unfold CachedAnswer.rows
  rw [answeredRows_eq answer.kept fun _ ↦ hmany, Monitoring.mem_foundRows]
  exact ⟨hcommitted, hwindow.owner, hsince.trans hle⟩

theorem Covered.complete {step : HistoryStep M} (hstep : OnTime request state step) :
    Complete request state step := by
  cases step with
  | answer kept =>
    intro read hread sample hsample hwindow
    have hcommitted : sample ∈ state.committed := h.started read hread hsample
    rw [answeredRows_eq kept (hstep read hread), mem_append]
    exact (h.found sample hcommitted hwindow).imp_right
      fun hbehind ↦ h.mem_foundRows hread hcommitted hwindow hbehind
  | answerCached =>
    intro read answer hread hfull hcached sample hsample hwindow
    have hrows := h.mem_rows hread hfull hcached hstep (h.started read hread hsample) hwindow
    exact mem_append_right _ (hrows.resolve_right fun hnew ↦ hnew.1 hsample)
  | _ => trivial

/-- The clock, the pending transactions and the cache do not matter. -/
theorem Covered.update (now : ℕ) (pending : ℕ → List (Sample M))
    (cached : Option (CachedAnswer M)) : Covered request { state with now, pending, cached } :=
  { h with
    found sample hsample hwindow := h.found sample hsample ⟨hwindow.owner, hwindow.start⟩ }

/-- Samples become visible in time. -/
theorem Covered.commit {samples : List (Sample M)} (hsamples : ∀ sample ∈ samples,
      InWindow request state sample → BehindCursor state sample) :
    Covered request { state with committed := state.committed ++ samples } where
  found sample hsample hwindow := by
    have hbefore : InWindow request state sample := ⟨hwindow.owner, hwindow.start⟩
    rcases mem_append.mp hsample with hold | hnew
    · exact h.found sample hold hbefore
    · exact Or.inr (hsamples sample hnew hbefore)
  full := h.full
  delta := h.delta
  started read hread := List.Subset.trans (h.started read hread) (subset_append_left _ _)

end

theorem Covered.start {before after : HistoryState M} (h : Covered request before)
    (hnext : (historyMachine request).next before .start = some after) :
    Covered request after := by
  cases hreading : before.reading with
  | some read => simp [historyMachine, hreading] at hnext
  | none =>
    cases hcursor : before.cursor with
    | none =>
      obtain rfl : { before with
          windowStart := some (startRead request before).since
          reading := some (startRead request before) } = after := by
        simpa [historyMachine, hreading, hcursor] using hnext
      refine ⟨fun sample hsample hwindow ↦ Or.inr ?_, ?_, ?_, ?_⟩
      · intro untilTime huntil
        nomatch hcursor.symm.trans huntil
      · intro read hread _
        obtain rfl := some.inj hread
        exact ⟨hcursor, rfl⟩
      · intro read hread hmode
        obtain rfl := some.inj hread
        simp [startRead, hcursor] at hmode
      · intro read hread
        obtain rfl := some.inj hread
        exact List.Subset.refl _
    | some untilTime =>
      obtain rfl : { before with reading := some (startRead request before) } = after := by
        simpa [historyMachine, hreading, hcursor] using hnext
      refine ⟨fun sample hsample hwindow ↦ h.found sample hsample ⟨hwindow.owner, hwindow.start⟩,
        ?_, ?_, ?_⟩
      · intro read hread hmode
        obtain rfl := some.inj hread
        simp [startRead, hcursor] at hmode
      · intro read hread _
        obtain rfl := some.inj hread
        simp [startRead, hcursor]
      · intro read hread
        obtain rfl := some.inj hread
        exact List.Subset.refl _

/-- An answer gives the client the samples of its window up to the new cursor. -/
theorem covered_afterAnswer {state : HistoryState M} {untilTime : ℕ} {rows : List (Sample M)}
    (hrows : ∀ sample ∈ state.committed, InWindow request state sample →
      sample ∈ state.answered ++ rows ∨ untilTime < sample.collectedAt)
    (cached : Option (CachedAnswer M)) :
    Covered request { afterAnswer state untilTime rows with cached } where
  found sample hsample hwindow :=
    (hrows sample hsample ⟨hwindow.owner, hwindow.start⟩).imp_right
      fun hlater _ huntil ↦ some.inj huntil ▸ hlater
  full := nofun
  delta := nofun
  started := nofun

theorem Covered.next {before after : HistoryState M} (h : Covered request before)
    {step : HistoryStep M} (hstep : OnTime request before step)
    (hnext : (historyMachine request).next before step = some after) :
    Covered request after := by
  cases step with
  | clock now =>
    obtain rfl := some.inj hnext
    exact h.update now before.pending before.cached
  | write _ _ _ | rollback _ =>
    obtain rfl := some.inj hnext
    exact h.update before.now _ before.cached
  | commit transaction =>
    obtain rfl := some.inj hnext
    exact (h.commit hstep).update before.now _ before.cached
  | start => exact h.start hnext
  | answer kept =>
    obtain ⟨read, hread, rfl⟩ := map_eq_some_iff.mp hnext
    refine covered_afterAnswer (fun sample hsample hwindow ↦ .inl ?_) _
    rw [answeredRows_eq kept (hstep read hread)]
    exact mem_append.mpr ((h.found sample hsample hwindow).imp_right
      fun hbehind ↦ h.mem_foundRows hread hsample hwindow hbehind)
  | fill untilTime kept =>
    obtain rfl := some.inj hnext
    exact h.update before.now before.pending _
  | answerCached =>
    cases hread : before.reading with
    | none => simp [historyMachine, hread] at hnext
    | some read =>
      cases hcached : before.cached with
      | none => simp [historyMachine, hread, hcached] at hnext
      | some answer =>
        cases hmode : read.mode with
        | full =>
          obtain ⟨mode, since, untilTime, found⟩ := read
          obtain rfl : mode = .full := hmode
          obtain rfl : afterAnswer before answer.untilTime (answer.rows request) = after := by
            simpa [historyMachine, hread, hcached] using hnext
          refine covered_afterAnswer (fun sample hsample hwindow ↦ ?_) before.cached
          exact (h.mem_rows hread rfl hcached hstep hsample hwindow).imp
            (mem_append_right _) fun hnew ↦ hnew.2
        | delta =>
          obtain ⟨mode, since, untilTime, found⟩ := read
          obtain rfl : mode = .delta := hmode
          simp [historyMachine, hread, hcached] at hnext

variable (request) in
/-- A check that a step is in time, whatever the window is. -/
def isOnTime (state : HistoryState M) : HistoryStep M → Bool
  | .commit transaction => (state.pending transaction).all fun sample ↦
      state.cursor.all fun untilTime ↦ untilTime < sample.collectedAt
  | .answer _ => state.reading.all fun read ↦
      (timestampsOf (foundRows request read state.committed)).length ≤ request.maxPoints
  | .answerCached => false
  | _ => true

theorem onTime_of_isOnTime (state : HistoryState M) (step : HistoryStep M)
    (h : isOnTime request state step) : OnTime request state step := by
  cases step with
  | commit transaction =>
    intro sample hsample _ untilTime huntil
    have hall := all_eq_true.mp h sample hsample
    rw [huntil] at hall
    exact of_decide_eq_true hall
  | answer kept =>
    intro read hread _
    have hall : state.reading.all _ = true := h
    rw [hread] at hall
    exact of_decide_eq_true hall
  | answerCached => cases h
  | _ => trivial

end

def lastHour : HistoryRequest where
  serverIds := ["s1"]
  hoursBefore now := now - 3600000
  maxPoints := 300

def noSamples : HistoryState Unit :=
  .initial 1000 [] fun _ ↦ []

end Bridgeport.Monitoring
