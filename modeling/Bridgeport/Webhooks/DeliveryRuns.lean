import Bridgeport.Webhooks.DeliverPending

/-!
# Runs of the webhook deliveries

Three things damage the rows: a delivery of a disabled subscription is taken with a further attempt
left, the outcome of a request cannot be written, and a cleanup meets a failed row with a further
attempt scheduled. `WebhookInvariant.next` is what every other step keeps (`Undamaging`).

The invariant `RunInvariant` is about the rows, the queue of the sweep and its workers. A row that a
worker has not written yet is as the query has read it, because the `delivering` flag admits one
sweep at a time and a sweep takes each row once; so every write adds one attempt to the stored
number.
-/

namespace Bridgeport.Webhooks

open Foundation Program List

/-! ### What must not happen -/

/-- No further attempt will be made. -/
def IsTerminal (row : WebhookDelivery) : Prop :=
  row.status = .delivered ∨ row.status = .failed ∧ row.nextAttemptAt = none

def Sweep.queue : Sweep → List DueDelivery
  | .querying _ => []
  | .running queue _ => queue

def Sweep.workers : Sweep → List Worker
  | .querying _ => []
  | .running _ workers => workers

/-- The attempts that have been made: the requests, and the failures before a request. -/
def WebhookState.attemptsMade (webhooks : WebhookState) (id : String) : ℕ :=
  webhooks.posts.count id + webhooks.unposted.count id

/-- The database takes the write of a worker, where no other one follows it. -/
def Worker.CanRecord (worker : Worker)
    (answer : ∀ request, Except String (DeliveryAnswer request)) : Prop :=
  ∀ id data next, worker.rest = .call (.update id data) next → answer (.update id data) = .ok ()

/-- The step does no damage. -/
def Undamaging (config : WebhookConfig) (webhooks : WebhookState) (event : WebhookEvent) : Prop :=
  match event with
  | .settled index number answer => ∀ queue workers worker,
    webhooks.sweeps[index]? = some (.running queue workers) → workers[number]? = some worker →
      (¬ worker.delivery.subscription.enabled →
        config.maxAttempts ≤ worker.delivery.attempts + 1 ∧ worker.CanRecord answer) ∧
      (worker.stage = .caught → worker.CanRecord answer)
  | .cleanup retentionDays now => ∀ row ∈ webhooks.deliveries, isOld retentionDays now row →
    row.status = .failed → row.nextAttemptAt = none
  | _ => True

/-- The row is stored as the query has read it. -/
structure WebhookState.Holds (config : WebhookConfig) (webhooks : WebhookState)
    (row : WebhookDelivery) : Prop where
  mem : row ∈ webhooks.deliveries
  undelivered : row.status ≠ .delivered
  attempts_lt : row.attempts < config.maxAttempts
  scheduled : row.nextAttemptAt ≠ none

structure WorkerInvariant (config : WebhookConfig) (webhooks : WebhookState) (worker : Worker) :
    Prop where
  known : worker.delivery.id ∈ webhooks.created
  follows : worker.rest.Follows (deliveryProtocol config worker.delivery)
    (fun _ ↦ DeliveryStage.Ended) worker.stage
  holds : worker.stage.Unwritten → webhooks.Holds config worker.delivery.toWebhookDelivery
  uncounted : worker.stage.Uncounted →
    worker.delivery.attempts + 1 = webhooks.attemptsMade worker.delivery.id
  recorded : worker.stage ≠ .lost
  disabled : ¬ worker.delivery.subscription.enabled →
    worker.stage = .untouched ∨ worker.stage = .recorded

/-- The rows, the queue of the sweep and its workers. -/
structure RunInvariant (config : WebhookConfig) (webhooks : WebhookState)
    (queue : List DueDelivery) (workers : List Worker) : Prop where
  nodup_rows : (webhooks.deliveries.map (·.id)).Nodup
  nodup_taken : (workers.map (·.delivery.id) ++ queue.map (·.id)).Nodup
  created : ∀ id, id ∈ webhooks.deliveries.map (·.id) ∨ id ∈ webhooks.posts ∨
    id ∈ webhooks.unposted ∨ id ∈ webhooks.foundDisabled → id ∈ webhooks.created
  attempts_le : ∀ row ∈ webhooks.deliveries, row.attempts ≤ config.maxAttempts
  waiting : ∀ delivery ∈ queue, webhooks.Holds config delivery.toWebhookDelivery
  working : ∀ worker ∈ workers, WorkerInvariant config webhooks worker
  counted : ∀ row ∈ webhooks.deliveries,
    (∀ worker ∈ workers, worker.delivery.id = row.id → ¬ worker.stage.Uncounted) →
      row.attempts = webhooks.attemptsMade row.id
  abandoned : ∀ row ∈ webhooks.deliveries, row.id ∈ webhooks.foundDisabled → IsTerminal row ∨
    ∃ worker ∈ workers, worker.delivery.id = row.id ∧ worker.stage = .untouched ∧
      ¬ worker.delivery.subscription.enabled
  cleaned : ∀ row ∈ webhooks.deleted, IsTerminal row

/-- At most one sweep, and what it has taken. -/
structure WebhookInvariant (config : WebhookConfig) (webhooks : WebhookState) : Prop where
  oneSweep : webhooks.sweeps.length = if webhooks.delivering then 1 else 0
  run : RunInvariant config webhooks (webhooks.sweeps.flatMap Sweep.queue)
    (webhooks.sweeps.flatMap Sweep.workers)

/-! ### Calls of a worker -/

variable {row : WebhookDelivery}

section

variable {config : WebhookConfig} {webhooks after : WebhookState} {queue : List DueDelivery}
  {workers : List Worker} {number : ℕ} {worker replaced : Worker}

theorem map_id_set (hworker : workers[number]? = some worker)
    (hsame : replaced.delivery = worker.delivery) :
    (workers.set number replaced).map (·.delivery.id) = workers.map (·.delivery.id) := by
  obtain ⟨hlt, rfl⟩ := List.getElem?_eq_some_iff.mp hworker
  rw [map_set, hsame, ← map_set, set_getElem_self]

variable {other : Worker}

/-- The workers after one of them has made a step. -/
theorem mem_set_of_nodup (hnodup : (workers.map (·.delivery.id)).Nodup)
    (hworker : workers[number]? = some worker) (hsame : replaced.delivery = worker.delivery)
    (hother : other ∈ workers.set number replaced) :
    other = replaced ∨ other ∈ workers ∧ other.delivery.id ≠ worker.delivery.id := by
  have hlt : number < workers.length := (List.getElem?_eq_some_iff.mp hworker).1
  have hids := map_id_set hworker hsame
  by_cases hid : other.delivery.id = worker.delivery.id
  · refine .inl (inj_on_of_nodup_map (hids ▸ hnodup) hother (mem_set hlt _) ?_)
    rw [hid, hsame]
  · rcases mem_or_eq_of_mem_set hother with hmem | rfl
    · exact .inr ⟨hmem, hid⟩
    · exact .inl rfl

theorem mem_set_of_ne (hworker : workers[number]? = some worker) (hother : other ∈ workers)
    (hid : other.delivery.id ≠ worker.delivery.id) : other ∈ workers.set number replaced := by
  obtain ⟨index, hlt, rfl⟩ := getElem_of_mem hother
  have hne : number ≠ index := by
    rintro rfl
    obtain ⟨_, rfl⟩ := List.getElem?_eq_some_iff.mp hworker
    exact hid rfl
  exact mem_of_getElem? ((List.getElem?_set_ne hne).trans (List.getElem?_eq_getElem hlt))

/-- The tables after a step differ only in what is stored about one delivery. -/
structure OnlyTouches (id : String) (before after : WebhookState) : Prop where
  ids : after.deliveries.map (·.id) = before.deliveries.map (·.id)
  rows : ∀ row : WebhookDelivery, row.id ≠ id → (row ∈ after.deliveries ↔ row ∈ before.deliveries)
  made : ∀ other, other ≠ id → after.attemptsMade other = before.attemptsMade other
  posts : ∀ other ∈ after.posts, other = id ∨ other ∈ before.posts
  unposted : ∀ other ∈ after.unposted, other = id ∨ other ∈ before.unposted
  foundDisabled : after.foundDisabled = before.foundDisabled
  created : after.created = before.created
  deleted : after.deleted = before.deleted

theorem OnlyTouches.refl (id : String) (webhooks : WebhookState) :
    OnlyTouches id webhooks webhooks :=
  ⟨rfl, fun _ _ ↦ Iff.rfl, fun _ _ ↦ rfl, fun _ ↦ Or.inr, fun _ ↦ Or.inr, rfl, rfl, rfl⟩

theorem OnlyTouches.holds {id : String} (htouch : OnlyTouches id webhooks after) (hid : row.id ≠ id)
    (h : webhooks.Holds config row) : after.Holds config row :=
  { h with mem := (htouch.rows row hid).mpr h.mem }

theorem WorkerInvariant.frame (h : WorkerInvariant config webhooks worker)
    (hcreated : worker.delivery.id ∈ webhooks.created → worker.delivery.id ∈ after.created)
    (hholds : webhooks.Holds config worker.delivery.toWebhookDelivery →
      after.Holds config worker.delivery.toWebhookDelivery)
    (hmade : after.attemptsMade worker.delivery.id = webhooks.attemptsMade worker.delivery.id) :
    WorkerInvariant config after worker :=
  { h with
    known := hcreated h.known
    holds hstage := hholds (h.holds hstage)
    uncounted hstage := (h.uncounted hstage).trans hmade.symm }

/-- What is stored about the delivery of a worker after its step. -/
structure RowAfter (config : WebhookConfig) (after : WebhookState) (replaced : Worker)
    (row : WebhookDelivery) : Prop where
  attempts_le : row.attempts ≤ config.maxAttempts
  counted : ¬ replaced.stage.Uncounted → row.attempts = after.attemptsMade row.id
  abandoned : row.id ∈ after.foundDisabled → IsTerminal row ∨
    replaced.stage = .untouched ∧ ¬ replaced.delivery.subscription.enabled

variable (h : RunInvariant config webhooks queue workers) (hworker : workers[number]? = some worker)

include h hworker

theorem RunInvariant.replace (htouch : OnlyTouches worker.delivery.id webhooks after)
    (hsame : replaced.delivery = worker.delivery)
    (hreplaced : WorkerInvariant config after replaced)
    (hrow : ∀ row ∈ after.deliveries, row.id = worker.delivery.id →
      RowAfter config after replaced row) :
    RunInvariant config after queue (workers.set number replaced) := by
  have hmem : worker ∈ workers := mem_of_getElem? hworker
  have hlt : number < workers.length := (List.getElem?_eq_some_iff.mp hworker).1
  have hknown := (h.working worker hmem).known
  have hnodup : (workers.map (·.delivery.id)).Nodup := h.nodup_taken.of_append_left
  have hself : replaced ∈ workers.set number replaced := mem_set hlt _
  constructor
  case nodup_rows => exact htouch.ids ▸ h.nodup_rows
  case nodup_taken => exact map_id_set hworker hsame ▸ h.nodup_taken
  case created =>
    intro id hid
    rw [htouch.ids, htouch.foundDisabled] at hid
    rw [htouch.created]
    rcases hid with hid | hid | hid | hid
    · exact h.created id (.inl hid)
    · rcases htouch.posts id hid with rfl | hposts
      · exact hknown
      · exact h.created id (.inr (.inl hposts))
    · rcases htouch.unposted id hid with rfl | hunposted
      · exact hknown
      · exact h.created id (.inr (.inr (.inl hunposted)))
    · exact h.created id (.inr (.inr (.inr hid)))
  case attempts_le =>
    intro row hafter
    by_cases hid : row.id = worker.delivery.id
    · exact (hrow row hafter hid).attempts_le
    · exact h.attempts_le row ((htouch.rows row hid).mp hafter)
  case waiting =>
    intro delivery hdelivery
    refine htouch.holds (fun hid ↦ ?_) (h.waiting delivery hdelivery)
    exact disjoint_of_nodup_append h.nodup_taken
      (mem_map_of_mem hmem) (hid ▸ mem_map_of_mem hdelivery)
  case working =>
    intro other hother
    rcases mem_set_of_nodup hnodup hworker hsame hother with rfl | ⟨hother, hid⟩
    · exact hreplaced
    · exact (h.working other hother).frame (htouch.created ▸ id) (htouch.holds hid)
        (htouch.made _ hid)
  case counted =>
    intro row hafter hnone
    by_cases hid : row.id = worker.delivery.id
    · refine (hrow row hafter hid).counted (hnone replaced hself ?_)
      rw [hsame, hid]
    · refine (h.counted row ((htouch.rows row hid).mp hafter) fun other hother hsameId ↦ ?_).trans
        (htouch.made _ hid).symm
      exact hnone other (mem_set_of_ne hworker hother (hsameId ▸ hid)) hsameId
  case abandoned =>
    intro row hafter hfound
    by_cases hid : row.id = worker.delivery.id
    · refine ((hrow row hafter hid).abandoned hfound).imp_right fun hstage ↦ ?_
      exact ⟨replaced, hself, by rw [hsame, hid], hstage⟩
    · rw [htouch.foundDisabled] at hfound
      refine (h.abandoned row ((htouch.rows row hid).mp hafter) hfound).imp_right ?_
      intro ⟨other, hother, hsameId, hstage⟩
      exact ⟨other, mem_set_of_ne hworker hother (hsameId ▸ hid), hsameId, hstage⟩
  case cleaned =>
    rw [htouch.deleted]
    exact h.cleaned

omit hworker in
/-- What is stored about the delivery of a worker before its step. -/
theorem RunInvariant.rowAfter (hmem : worker ∈ workers) (hrow : row ∈ webhooks.deliveries)
    (hid : row.id = worker.delivery.id) : RowAfter config webhooks worker row := by
  have hone : ∀ other ∈ workers, other.delivery.id = row.id → other = worker := by
    intro other hother hsame
    exact inj_on_of_nodup_map h.nodup_taken.of_append_left hother hmem (hsame.trans hid)
  refine ⟨h.attempts_le row hrow, fun hcounted ↦ ?_, fun hfound ↦ ?_⟩
  · exact h.counted row hrow fun other hother hsame ↦ hone other hother hsame ▸ hcounted
  · refine (h.abandoned row hrow hfound).imp_right fun ⟨other, hother, hsame, hstage⟩ ↦ ?_
    exact hone other hother hsame ▸ hstage

omit h hworker in
theorem WebhookState.Holds.not_isTerminal (hholds : webhooks.Holds config row) :
    ¬ IsTerminal row := by
  rintro (hdelivered | ⟨-, hnone⟩)
  · exact hholds.undelivered hdelivered
  · exact hholds.scheduled hnone

variable {rest : Async Unit} {stage : DeliveryStage}
  (hfollows : rest.Follows (deliveryProtocol config worker.delivery) (fun _ ↦ DeliveryStage.Ended)
    stage)

include hfollows

/-- A step that changes no table. -/
theorem RunInvariant.stay (hunwritten : stage.Unwritten → worker.stage.Unwritten)
    (huncounted : stage.Uncounted ↔ worker.stage.Uncounted) (hlost : stage ≠ .lost)
    (hdisabled : ¬ worker.delivery.subscription.enabled → stage = worker.stage) :
    RunInvariant config webhooks queue (workers.set number ⟨worker.delivery, rest, stage⟩) := by
  have hmem : worker ∈ workers := mem_of_getElem? hworker
  have hbefore := h.working worker hmem
  refine h.replace hworker (OnlyTouches.refl _ _) rfl ?_ fun row hrow hid ↦ ?_
  · exact ⟨hbefore.known, hfollows, fun hstage ↦ hbefore.holds (hunwritten hstage),
      fun hstage ↦ hbefore.uncounted (huncounted.mp hstage), hlost,
      fun hoff ↦ (hdisabled hoff).symm ▸ hbefore.disabled hoff⟩
  · have hown := h.rowAfter hmem hrow hid
    refine ⟨hown.attempts_le, fun hstage ↦ hown.counted (mt huncounted.mpr hstage),
      fun hfound ↦ (hown.abandoned hfound).imp_right fun ⟨huntouched, hoff⟩ ↦ ⟨?_, hoff⟩⟩
    exact (hdisabled hoff).trans huntouched

section

variable (hbefore : worker.stage = .untouched) (henabled : worker.delivery.subscription.enabled)

include hbefore henabled

/-- A worker gives up before its request; its delivery stays as it is. -/
theorem RunInvariant.skip (hstage : stage = .skipped) :
    RunInvariant config webhooks queue (workers.set number ⟨worker.delivery, rest, stage⟩) := by
  subst hstage
  refine h.stay hworker hfollows (fun _ ↦ .inl hbefore) (iff_of_false ?_ ?_) nofun
    fun hoff ↦ absurd henabled hoff
  · exact not_or.mpr ⟨nofun, nofun⟩
  · exact DeliveryStage.not_uncounted_of_untouched hbefore

theorem RunInvariant.post (hstage : stage.Uncounted) :
    RunInvariant config { webhooks with posts := webhooks.posts ++ [worker.delivery.id] } queue
      (workers.set number ⟨worker.delivery, rest, stage⟩) := by
  have hmem : worker ∈ workers := mem_of_getElem? hworker
  have hunwritten : worker.stage.Unwritten := .inl hbefore
  have hholds := (h.working worker hmem).holds hunwritten
  have hcounted := DeliveryStage.not_uncounted_of_untouched hbefore
  refine h.replace hworker ⟨rfl, fun _ _ ↦ Iff.rfl, fun other hother ↦ ?_, fun other hother ↦ ?_,
    fun _ ↦ Or.inr, rfl, rfl, rfl⟩ rfl ?_ fun row hrow hid ↦ ?_
  · simp [WebhookState.attemptsMade, count_append, Ne.symm hother]
  · simpa [or_comm] using hother
  · refine ⟨(h.working worker hmem).known, hfollows, fun _ ↦ { hholds with }, fun _ ↦ ?_, ?_,
      fun hoff ↦ absurd henabled hoff⟩
    · have hmade := (h.rowAfter hmem hholds.mem rfl).counted hcounted
      simp only [WebhookState.attemptsMade, count_append,
          count_singleton_self] at hmade ⊢
      omega
    · rintro rfl
      exact hstage.elim nofun nofun
  · refine ⟨h.attempts_le row hrow, fun hnot ↦ absurd hstage hnot, fun hfound ↦ .inl ?_⟩
    refine ((h.rowAfter hmem hrow hid).abandoned hfound).resolve_right fun hoff ↦ ?_
    exact hoff.2 henabled

end

theorem RunInvariant.write (hbefore : worker.stage.Unwritten) {data : DeliveryUpdate}
    (hdata : RecordsSuccess worker.delivery data ∨ RecordsFailure config worker.delivery data)
    (hlast : ¬ worker.delivery.subscription.enabled →
      config.maxAttempts ≤ worker.delivery.attempts + 1) (hstage : stage = .recorded) :
    RunInvariant config { webhooks with
      deliveries := webhooks.deliveries.map fun row ↦
        if row.id = worker.delivery.id then row.update data else row
      unposted := if worker.stage = .untouched then webhooks.unposted ++ [worker.delivery.id]
        else webhooks.unposted } queue (workers.set number ⟨worker.delivery, rest, stage⟩) := by
  have hmem : worker ∈ workers := mem_of_getElem? hworker
  have hholds := (h.working worker hmem).holds hbefore
  have hids : ∀ row : WebhookDelivery, (row.update data).id = row.id := by
    intro row
    cases data <;> rfl
  have hattempts : ∀ row : WebhookDelivery,
      (row.update data).attempts = worker.delivery.attempts + 1 := by
    intro row
    rcases hdata with ⟨_, _, rfl⟩ | ⟨_, _, _, rfl, _⟩ <;> rfl
  subst hstage
  refine h.replace hworker ⟨?_, fun row hid ↦ ?_, fun other hother ↦ ?_, fun _ ↦ Or.inr,
    fun other hother ↦ ?_, rfl, rfl, rfl⟩ rfl ?_ fun row hrow hid ↦ ?_
  · rw [map_map]
    refine map_congr_left fun row _ ↦ ?_
    show (if row.id = worker.delivery.id then row.update data else row).id = row.id
    split_ifs
    · exact hids row
    · rfl
  · constructor
    · intro hrow
      obtain ⟨old, hold, rfl⟩ := mem_map.mp hrow
      by_cases hsame : old.id = worker.delivery.id
      · simp only [if_pos hsame, hids] at hid
        exact absurd hsame hid
      · simp only [if_neg hsame]
        exact hold
    · intro hrow
      exact mem_map.mpr ⟨row, hrow, if_neg hid⟩
  · unfold WebhookState.attemptsMade
    split_ifs
    · simp [count_append, Ne.symm hother]
    · rfl
  · split_ifs at hother
    · simpa [or_comm] using hother
    · exact .inr hother
  · refine ⟨(h.working worker hmem).known, hfollows, ?_, ?_, nofun, fun _ ↦ .inr rfl⟩
    · rintro (hstage | hstage | hstage) <;> nomatch hstage
    · rintro (hstage | hstage) <;> nomatch hstage
  · obtain ⟨old, hold, rfl⟩ := mem_map.mp hrow
    have hsame : old.id = worker.delivery.id := by
      by_contra hne
      rw [if_neg hne] at hid
      exact hne hid
    have hown := h.rowAfter hmem hold hsame
    obtain rfl : old = worker.delivery.toWebhookDelivery :=
      inj_on_of_nodup_map h.nodup_rows hold hholds.mem hsame
    rw [if_pos rfl]
    refine ⟨?_, fun _ ↦ ?_, fun hfound ↦ .inl ?_⟩
    · rw [hattempts]
      exact hholds.attempts_lt
    · rw [hattempts, hids]
      by_cases huntouched : worker.stage = .untouched
      · have hmade := hown.counted (DeliveryStage.not_uncounted_of_untouched huntouched)
        simp only [WebhookState.attemptsMade, if_pos huntouched, count_append,
          count_singleton_self] at hmade ⊢
        omega
      · simp only [WebhookState.attemptsMade, if_neg huntouched]
        exact (h.working worker hmem).uncounted (hbefore.resolve_left huntouched)
    · rw [hids] at hfound
      obtain ⟨-, hoff⟩ := (hown.abandoned hfound).resolve_left hholds.not_isTerminal
      rcases hdata with ⟨_, _, rfl⟩ | ⟨_, _, _, rfl, hnone⟩
      · exact .inl rfl
      · exact .inr ⟨rfl, hnone.mpr (hlast hoff)⟩

omit hfollows in
theorem RunInvariant.call {request : DeliveryCall} {next : Except String (DeliveryAnswer request) →
      Async Unit} (hrest : worker.rest = .call request next)
    {answer : ∀ request, Except String (DeliveryAnswer request)}
    (hlast : ¬ worker.delivery.subscription.enabled →
      config.maxAttempts ≤ worker.delivery.attempts + 1 ∧ worker.CanRecord answer)
    (hcaught : worker.stage = .caught → worker.CanRecord answer)
    (hafter : webhooks.afterCall worker ⟨request, answer request⟩ = some after) :
    RunInvariant config after queue (workers.set number
      ⟨worker.delivery, next (answer request), worker.stage.after ⟨request, answer request⟩⟩) := by
  have hmem : worker ∈ workers := mem_of_getElem? hworker
  obtain ⟨hpermits, hnext⟩ :
    (deliveryProtocol config worker.delivery).permits worker.stage request ∧
      ∀ answer, (deliveryProtocol config worker.delivery).expects ⟨request, answer⟩ →
        (next answer).Follows (deliveryProtocol config worker.delivery)
          (fun _ ↦ DeliveryStage.Ended) (worker.stage.after ⟨request, answer⟩) := by
    have hfollows := (h.working worker hmem).follows
    rw [hrest] at hfollows
    exact hfollows
  have hbefore := h.working worker hmem
  have hrecord : ∀ id data (heq : request = .update id data), worker.CanRecord answer →
      answer request = heq ▸ .ok () := by
    rintro id data rfl hrecord
    exact hrecord id data next hrest
  generalize answer request = result at *
  cases request with
  | now =>
    cases result with
    | error message => nomatch hafter
    | ok now =>
      obtain rfl : webhooks = after := Option.some.inj hafter
      exact h.stay hworker (hnext _ trivial) id Iff.rfl hbefore.recorded fun _ ↦ rfl
  | isBlockedWebhookHost url =>
    obtain ⟨huntouched, henabled⟩ := untouched_of_permits_isBlockedWebhookHost hpermits
    obtain rfl : webhooks = after := by
      cases result <;> exact Option.some.inj hafter
    cases result with
    | ok blocked => exact h.stay hworker (hnext _ trivial) id Iff.rfl hbefore.recorded fun _ ↦ rfl
    | error message =>
      have hskipped : worker.stage.after ⟨.isBlockedWebhookHost url, .error message⟩ =
        .skipped := by
        rw [huntouched]
        rfl
      exact h.skip hworker (hnext _ trivial) huntouched henabled hskipped
  | fetch url headers body =>
    obtain ⟨huntouched, henabled⟩ := untouched_of_permits_fetch hpermits
    obtain rfl := Option.some.inj hafter
    refine h.post hworker (hnext _ trivial) huntouched henabled ?_
    cases result with
    | ok response => exact .inl rfl
    | error message => exact .inr rfl
  | update id data =>
    obtain ⟨hunwritten, rfl, hdata⟩ := unwritten_of_permits_update hpermits
    cases result with
    | ok _ =>
      have hrecorded : worker.stage.after ⟨.update worker.delivery.id data, .ok ()⟩ =
        .recorded := by
        cases worker.stage <;> rfl
      by_cases hstored : worker.delivery.id ∈ webhooks.deliveries.map (·.id)
      · obtain rfl := Option.some.inj ((if_pos hstored).symm.trans hafter)
        exact h.write hworker (hnext _ trivial) hunwritten hdata (fun hoff ↦ (hlast hoff).1)
          hrecorded
      · nomatch (if_neg hstored).symm.trans hafter
    | error message =>
      obtain rfl : webhooks = after := Option.some.inj hafter
      have hthrows : ¬ worker.CanRecord answer := fun hcan ↦
        absurd (hrecord _ _ rfl hcan) nofun
      rcases hunwritten with huntouched | hposted | hcaughtStage
      · refine h.skip hworker (hnext _ trivial) huntouched ?_ ?_
        · by_contra hoff
          exact hthrows (hlast hoff).2
        · rw [huntouched]
          rfl
      · have hstage : worker.stage.after ⟨.update worker.delivery.id data, .error message⟩ =
            .caught := by
          rw [hposted]
          rfl
        have henabled : worker.delivery.subscription.enabled := by
          by_contra hoff
          exact hthrows (hlast hoff).2
        refine h.stay hworker (hnext _ trivial) (fun _ ↦ .inr (.inl hposted)) ?_ ?_
          fun hoff ↦ absurd henabled hoff
        · rw [hstage]
          exact iff_of_true (.inr rfl) (.inl hposted)
        · rw [hstage]
          exact nofun
      · exact absurd (hcaught hcaughtStage) hthrows

end

/-! ### The other steps -/

section

variable {config : WebhookConfig} {webhooks : WebhookState} {queue : List DueDelivery}
  {workers : List Worker} (h : RunInvariant config webhooks queue workers)

include h

theorem RunInvariant.withModule (subscriptions : List WebhookSubscription) (delivering : Bool)
    (sweeps : List Sweep) : RunInvariant config { webhooks with
      subscriptions := subscriptions
      delivering := delivering
      sweeps := sweeps } queue workers :=
  { h with
    waiting delivery hdelivery := { h.waiting delivery hdelivery with }
    working worker hworker := (h.working worker hworker).frame id (fun hholds ↦ { hholds with })
      rfl }

theorem RunInvariant.erase {number : ℕ} {worker : Worker} (hworker : workers[number]? = some worker)
    (hended : worker.stage.Ended) :
    RunInvariant config webhooks queue (workers.eraseIdx number) := by
  have hrest : ∀ other ∈ workers, other = worker ∨ other ∈ workers.eraseIdx number := by
    intro other hother
    obtain ⟨index, hlt, rfl⟩ := getElem_of_mem hother
    by_cases hindex : index = number
    · subst hindex
      exact .inl (Option.some.inj ((List.getElem?_eq_getElem hlt).symm.trans hworker))
    · exact .inr (mem_eraseIdx_iff_getElem.mpr ⟨index, hlt, hindex, rfl⟩)
  refine { h with nodup_taken := ?_, working := ?_, counted := ?_, abandoned := ?_ }
  · refine h.nodup_taken.sublist (List.Sublist.append ?_ (List.Sublist.refl _))
    exact (eraseIdx_sublist workers number).map _
  · exact fun other hother ↦ h.working other (mem_of_mem_eraseIdx hother)
  · intro row hrow hnone
    refine h.counted row hrow fun other hother hid ↦ ?_
    rcases hrest other hother with rfl | hremains
    · exact mt DeliveryStage.Uncounted.unwritten hended.not_unwritten
    · exact hnone other hremains hid
  · intro row hrow hfound
    refine (h.abandoned row hrow hfound).imp_right fun ⟨other, hother, hid, hstage, hoff⟩ ↦ ?_
    rcases hrest other hother with rfl | hremains
    · exact absurd (.inl hstage) hended.not_unwritten
    · exact ⟨other, hremains, hid, hstage, hoff⟩

theorem RunInvariant.take {taken rest : List DueDelivery} (hqueue : queue = taken ++ rest) :
    RunInvariant config (webhooks.noteTaken taken) rest
      (workers ++ taken.map (Worker.begin config)) := by
  subst hqueue
  have hholds : ∀ delivery ∈ taken, webhooks.Holds config delivery.toWebhookDelivery :=
    fun delivery hdelivery ↦ h.waiting delivery (mem_append_left _ hdelivery)
  have hcreated : ∀ delivery ∈ taken, delivery.id ∈ webhooks.created := fun delivery hdelivery ↦
    h.created _ (.inl (mem_map_of_mem (hholds delivery hdelivery).mem))
  constructor
  case nodup_rows => exact h.nodup_rows
  case nodup_taken =>
    have htaken := h.nodup_taken
    rw [map_append, ← append_assoc] at htaken
    rw [map_append, map_map]
    exact htaken
  case created =>
    rintro id (hid | hid | hid | hid)
    · exact h.created id (.inl hid)
    · exact h.created id (.inr (.inl hid))
    · exact h.created id (.inr (.inr (.inl hid)))
    · rcases mem_append.mp hid with hfound | hnew
      · exact h.created id (.inr (.inr (.inr hfound)))
      · obtain ⟨delivery, hdelivery, rfl⟩ := mem_map.mp hnew
        exact hcreated delivery (mem_of_mem_filter hdelivery)
  case attempts_le => exact h.attempts_le
  case waiting =>
    exact fun delivery hdelivery ↦ { h.waiting delivery (mem_append_right _ hdelivery) with }
  case working =>
    intro worker hworker
    rcases mem_append.mp hworker with hold | hnew
    · exact (h.working worker hold).frame id (fun hholds ↦ { hholds with }) rfl
    · obtain ⟨delivery, hdelivery, rfl⟩ := mem_map.mp hnew
      exact ⟨hcreated delivery hdelivery, follows_deliverOne,
        fun _ ↦ { hholds delivery hdelivery with },
        fun hstage ↦ absurd hstage (DeliveryStage.not_uncounted_of_untouched rfl), nofun,
        fun _ ↦ .inl rfl⟩
  case counted =>
    exact fun row hrow hnone ↦ h.counted row hrow fun worker hworker ↦
      hnone worker (mem_append_left _ hworker)
  case abandoned =>
    intro row hrow hfound
    rcases mem_append.mp hfound with hold | hnew
    · refine (h.abandoned row hrow hold).imp_right fun ⟨worker, hworker, hstage⟩ ↦ ?_
      exact ⟨worker, mem_append_left _ hworker, hstage⟩
    · obtain ⟨delivery, hdelivery, hid⟩ := mem_map.mp hnew
      obtain ⟨htaken, hoff⟩ := mem_filter.mp hdelivery
      refine .inr ⟨Worker.begin config delivery, ?_, hid, rfl, of_decide_eq_true hoff⟩
      exact mem_append_right _ (mem_map_of_mem htaken)
  case cleaned => exact h.cleaned

theorem RunInvariant.create {id : String} (hfresh : id ∉ webhooks.created)
    (subscriptionId event payload : String) (now : ℕ) : RunInvariant config { webhooks with
      deliveries := webhooks.deliveries ++ [pendingDelivery id subscriptionId event payload now]
      created := webhooks.created ++ [id] } queue workers := by
  have hold : ∀ other, other ∈ webhooks.deliveries.map (·.id) ∨ other ∈ webhooks.posts ∨
      other ∈ webhooks.unposted ∨ other ∈ webhooks.foundDisabled → other ≠ id :=
    fun other hother hsame ↦ hfresh (hsame ▸ h.created other hother)
  constructor
  case nodup_rows =>
    rw [map_append]
    refine nodup_append.mpr ⟨h.nodup_rows, nodup_singleton _, fun other hother new hnew ↦ ?_⟩
    obtain rfl := mem_singleton.mp hnew
    exact hold other (.inl hother)
  case nodup_taken => exact h.nodup_taken
  case created =>
    rintro other (hother | hother)
    · rw [map_append] at hother
      rcases mem_append.mp hother with hmem | hnew
      · exact mem_append_left _ (h.created other (.inl hmem))
      · exact mem_append_right _ hnew
    · exact mem_append_left _ (h.created other (.inr hother))
  case attempts_le =>
    intro row hrow
    rcases mem_append.mp hrow with hmem | hnew
    · exact h.attempts_le row hmem
    · obtain rfl := mem_singleton.mp hnew
      exact Nat.zero_le _
  case waiting =>
    intro delivery hdelivery
    have hholds := h.waiting delivery hdelivery
    exact { hholds with mem := mem_append_left _ hholds.mem }
  case working =>
    exact fun worker hworker ↦ (h.working worker hworker).frame (mem_append_left _)
      (fun hholds ↦ { hholds with mem := mem_append_left _ hholds.mem }) rfl
  case counted =>
    intro row hrow hnone
    rcases mem_append.mp hrow with hmem | hnew
    · exact h.counted row hmem hnone
    · obtain rfl := mem_singleton.mp hnew
      have hposts : id ∉ webhooks.posts := fun hpost ↦ hold id (.inr (.inl hpost)) rfl
      have hunposted : id ∉ webhooks.unposted :=
        fun hpost ↦ hold id (.inr (.inr (.inl hpost))) rfl
      show 0 = webhooks.posts.count id + webhooks.unposted.count id
      rw [count_eq_zero_of_not_mem hposts, count_eq_zero_of_not_mem hunposted]
  case abandoned =>
    intro row hrow hfound
    rcases mem_append.mp hrow with hmem | hnew
    · exact h.abandoned row hmem hfound
    · obtain rfl := mem_singleton.mp hnew
      exact absurd rfl (hold id (.inr (.inr (.inr hfound))))
  case cleaned => exact h.cleaned

theorem RunInvariant.cleanup {retentionDays now : ℕ}
    (hterminal : ∀ row ∈ webhooks.deliveries, isOld retentionDays now row → row.status = .failed →
      row.nextAttemptAt = none) :
    RunInvariant config (cleanupOldDeliveries webhooks retentionDays now) queue workers := by
  have hsublist : (cleanupOldDeliveries webhooks retentionDays now).deliveries.Sublist
      webhooks.deliveries := filter_sublist
  have hkind : ∀ row, isOld retentionDays now row → row.status = .delivered ∨
    row.status = .failed := by
    intro row hold
    simp only [isOld, Bool.and_eq_true, Bool.or_eq_true, decide_eq_true_eq] at hold
    exact hold.1
  have hholds : ∀ row, webhooks.Holds config row →
      (cleanupOldDeliveries webhooks retentionDays now).Holds config row := by
    intro row hrow
    refine { hrow with mem := mem_filter.mpr ⟨hrow.mem, decide_eq_true fun hold ↦ ?_⟩ }
    rcases hkind row hold with hdelivered | hfailed
    · exact hrow.undelivered hdelivered
    · exact hrow.scheduled (hterminal row hrow.mem hold hfailed)
  constructor
  case nodup_rows => exact h.nodup_rows.sublist (hsublist.map _)
  case nodup_taken => exact h.nodup_taken
  case created =>
    exact fun id hid ↦ h.created id (hid.imp_left fun hmem ↦ (hsublist.map _).subset hmem)
  case attempts_le => exact fun row hrow ↦ h.attempts_le row (hsublist.subset hrow)
  case waiting => exact fun delivery hdelivery ↦ hholds _ (h.waiting delivery hdelivery)
  case working => exact fun worker hworker ↦ (h.working worker hworker).frame id (hholds _) rfl
  case counted => exact fun row hrow ↦ h.counted row (hsublist.subset hrow)
  case abandoned => exact fun row hrow ↦ h.abandoned row (hsublist.subset hrow)
  case cleaned =>
    intro row hrow
    rcases mem_append.mp hrow with hbefore | hnow
    · exact h.cleaned row hbefore
    · obtain ⟨hmem, hold⟩ := mem_filter.mp hnow
      exact (hkind row hold).imp_right fun hfailed ↦ ⟨hfailed, hterminal row hmem hold hfailed⟩

end

theorem holds_of_mem_dueDeliveries {config : WebhookConfig} {webhooks : WebhookState} {now : ℕ}
    {delivery : DueDelivery} (h : delivery ∈ dueDeliveries config webhooks now) :
    webhooks.Holds config delivery.toWebhookDelivery := by
  obtain ⟨row, hrow, hdelivery⟩ := mem_filterMap.mp h
  obtain ⟨subscription, -, rfl⟩ := Option.map_eq_some_iff.mp hdelivery
  obtain ⟨hmem, hdue⟩ := mem_filter.mp ((perm_insertionSort _ _).mem_iff.mp (mem_of_mem_take hrow))
  simp only [isDue, Bool.and_eq_true, Bool.or_eq_true, decide_eq_true_eq] at hdue
  obtain ⟨⟨hstatus, hattempts⟩, hscheduled⟩ := hdue
  refine ⟨hmem, ?_, hattempts, ?_⟩
  · rintro hdelivered
    rw [hdelivered] at hstatus
    exact hstatus.elim nofun nofun
  · intro hnone
    rw [hnone] at hscheduled
    nomatch hscheduled

/-- The query returns no row twice. -/
theorem nodup_dueDeliveries {config : WebhookConfig} {webhooks : WebhookState}
    (hnodup : (webhooks.deliveries.map (·.id)).Nodup) (now : ℕ) :
    ((dueDeliveries config webhooks now).map (·.id)).Nodup := by
  have hsublist : ∀ rows : List WebhookDelivery, ((rows.filterMap fun row ↦
      (webhooks.subscriptions.find? (·.id = row.subscriptionId)).map
        (DueDelivery.mk row)).map (·.id)).Sublist (rows.map (·.id)) := by
    intro rows
    induction rows with
    | nil => exact List.Sublist.refl _
    | cons row rows ih =>
      cases hfind : webhooks.subscriptions.find? (·.id = row.subscriptionId) with
      | none => simpa [hfind] using ih.cons _
      | some subscription => simpa [hfind] using ih
  have hsorted := perm_insertionSort (·.createdAt ≤ ·.createdAt)
    (webhooks.deliveries.filter (isDue config now))
  have hdue := (hsorted.map (·.id)).nodup_iff.mpr (hnodup.sublist (filter_sublist.map _))
  exact (hdue.sublist ((take_sublist config.batchSize _).map _)).sublist (hsublist _)

/-! ### Sweeps -/

variable {after : WebhookState}

section

variable {config : WebhookConfig} {webhooks : WebhookState}

/-- The rows that the query has returned are put in the queue. -/
theorem RunInvariant.fill (h : RunInvariant config webhooks [] []) (now : ℕ) :
    RunInvariant config webhooks (dueDeliveries config webhooks now) [] :=
  { h with
    nodup_taken := nodup_dueDeliveries h.nodup_rows now
    waiting := fun _ ↦ holds_of_mem_dueDeliveries }

variable {sweep : Sweep}

theorem WebhookInvariant.sweeps_eq (h : WebhookInvariant config webhooks) {index : ℕ}
    (hsweep : webhooks.sweeps[index]? = some sweep) : webhooks.sweeps = [sweep] ∧ index = 0 := by
  obtain ⟨hlt, hget⟩ := List.getElem?_eq_some_iff.mp hsweep
  have hlength : webhooks.sweeps.length = 1 := by
    have hone := h.oneSweep
    split_ifs at hone
    · exact hone
    · omega
  obtain ⟨only, honly⟩ := length_eq_one_iff.mp hlength
  have hindex : index = 0 := by omega
  subst hindex
  simp only [honly, getElem_cons_zero] at hget
  rw [honly, hget]
  exact ⟨rfl, rfl⟩

theorem RunInvariant.setSweep {queue : List DueDelivery} {workers : List Worker}
    (h : RunInvariant config webhooks queue workers) (hsweeps : webhooks.sweeps = [sweep])
    (hdelivering : webhooks.delivering) :
    WebhookInvariant config (webhooks.setSweep 0 queue workers) := by
  unfold WebhookState.setSweep
  split_ifs with hnone
  · subst hnone
    refine ⟨by simp [hsweeps], ?_⟩
    have hempty : RunInvariant config webhooks [] [] :=
      { h with
        nodup_taken := nodup_nil
        waiting := nofun }
    simpa [hsweeps] using hempty.withModule webhooks.subscriptions false []
  · refine ⟨by simp [hsweeps, hdelivering], ?_⟩
    simpa [hsweeps, Sweep.queue, Sweep.workers] using
      h.withModule webhooks.subscriptions webhooks.delivering [.running queue workers]

/-- The flag is set while there is a sweep. -/
theorem WebhookInvariant.delivering (h : WebhookInvariant config webhooks)
    (hsweeps : webhooks.sweeps = [sweep]) : webhooks.delivering := by
  have hone := h.oneSweep
  rw [hsweeps] at hone
  by_contra hidle
  rw [if_neg hidle] at hone
  nomatch hone

/-- A call of a worker does not change the variables of the module. -/
theorem module_afterCall {worker : Worker} {event : Event DeliveryAnswer}
    (h : webhooks.afterCall worker event = some after) :
    after.sweeps = webhooks.sweeps ∧ after.delivering = webhooks.delivering := by
  unfold WebhookState.afterCall at h
  split at h
  · nomatch h
  · exact Option.some.inj h ▸ ⟨rfl, rfl⟩
  · split at h
    · exact Option.some.inj h ▸ ⟨rfl, rfl⟩
    · nomatch h
  · exact Option.some.inj h ▸ ⟨rfl, rfl⟩

variable (h : WebhookInvariant config webhooks)
include h

theorem WebhookInvariant.settle {index number : ℕ}
    {answer : ∀ request, Except String (DeliveryAnswer request)}
    (hundamaging : Undamaging config webhooks (.settled index number answer))
    (hnext : settle config webhooks index number answer = some after) :
    WebhookInvariant config after := by
  unfold Webhooks.settle at hnext
  split at hnext
  case h_2 => nomatch hnext
  case h_1 queue workers hsweep =>
    split at hnext
    case h_2 => nomatch hnext
    case h_1 worker hworker =>
      obtain ⟨hlast, hcaught⟩ := hundamaging queue workers worker hsweep hworker
      obtain ⟨hsweeps, rfl⟩ := h.sweeps_eq hsweep
      have hdelivering := h.delivering hsweeps
      have hrun : RunInvariant config webhooks queue workers := by
        simpa [hsweeps, Sweep.queue, Sweep.workers] using h.run
      split at hnext
      case h_3 => nomatch hnext
      case h_1 result hrest =>
        obtain rfl := Option.some.inj hnext
        have hended : worker.stage.Ended := by
          have hfollows := (hrun.working worker (mem_of_getElem? hworker)).follows
          rw [hrest] at hfollows
          exact hfollows
        have herase := hrun.erase hworker hended
        cases queue with
        | nil => exact herase.setSweep hsweeps hdelivering
        | cons delivery queue =>
          have hhead : delivery :: queue = [delivery] ++ queue := rfl
          exact (herase.take hhead).setSweep hsweeps hdelivering
      case h_2 request next hrest =>
        obtain ⟨called, hcalled, rfl⟩ := Option.map_eq_some_iff.mp hnext
        obtain ⟨hsame, hflag⟩ := module_afterCall hcalled
        exact (hrun.call hworker hrest hlast hcaught hcalled).setSweep (hsame.trans hsweeps)
          (hflag.trans hdelivering)

/-- A step that does no damage. -/
theorem WebhookInvariant.next {event : WebhookEvent}
    (hundamaging : Undamaging config webhooks event)
    (hnext : (webhookMachine config).next webhooks event = some after) :
    WebhookInvariant config after := by
  cases event with
  | created id subscriptionId event payload now =>
    by_cases hused : id ∈ webhooks.created
    · nomatch (if_pos hused).symm.trans hnext
    · obtain rfl := Option.some.inj ((if_neg hused).symm.trans hnext)
      exact ⟨h.oneSweep, h.run.create hused subscriptionId event payload now⟩
  | enabled subscriptionId value =>
    obtain rfl := Option.some.inj hnext
    exact ⟨h.oneSweep, h.run.withModule _ webhooks.delivering webhooks.sweeps⟩
  | deliverPending now =>
    obtain rfl := Option.some.inj hnext
    unfold deliverPending
    split_ifs with hdelivering
    · exact h
    · have hidle : webhooks.sweeps = [] := by
        have hone := h.oneSweep
        rw [if_neg hdelivering] at hone
        exact length_eq_zero_iff.mp hone
      refine ⟨by simp [hidle], ?_⟩
      simpa [hidle, Sweep.queue, Sweep.workers] using
        h.run.withModule webhooks.subscriptions true [.querying now]
  | found index answer =>
    cases hsweep : webhooks.sweeps[index]? with
    | none => simp [webhookMachine, hsweep] at hnext
    | some sweep =>
      obtain ⟨hsweeps, rfl⟩ := h.sweeps_eq hsweep
      have hdelivering := h.delivering hsweeps
      cases sweep with
      | running queue workers => simp [webhookMachine, hsweep] at hnext
      | querying now =>
        have hrun : RunInvariant config webhooks [] [] := by
          simpa [hsweeps, Sweep.queue, Sweep.workers] using h.run
        cases answer with
        | error message =>
          simp only [webhookMachine, hsweep, Option.some.injEq] at hnext
          exact hnext ▸ hrun.setSweep hsweeps hdelivering
        | ok _ =>
          simp only [webhookMachine, hsweep, Option.some.injEq] at hnext
          subst hnext
          have htaken := (hrun.fill now).take (take_append_drop
            (min config.concurrency (dueDeliveries config webhooks now).length)
            (dueDeliveries config webhooks now)).symm
          exact htaken.setSweep hsweeps hdelivering
  | settled index number answer => exact h.settle hundamaging hnext
  | cleanup retentionDays now =>
    obtain rfl := Option.some.inj hnext
    exact ⟨h.oneSweep, h.run.cleanup hundamaging⟩

end

end Bridgeport.Webhooks
