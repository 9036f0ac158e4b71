import Bridgeport.Webhooks.DeliveryRuns

/-!
# Deliveries are neither lost nor repeated

`neitherLostNorRepeated` holds of every run whose steps do no damage. The last two theorems of the
module are runs with a damaging step: a disabled subscription, and a cleanup.
-/

namespace Bridgeport.Webhooks

open Foundation Program List Option

/-- A worker has taken the delivery and not returned from it. -/
def WebhookState.InFlight (webhooks : WebhookState) (id : String) : Prop :=
  ∃ worker ∈ webhooks.sweeps.flatMap Sweep.workers, worker.delivery.id = id

/-- What holds of the stored deliveries between the steps of the workers. -/
structure DeliveriesSound (config : WebhookConfig) (webhooks : WebhookState) : Prop where
  attempts_le : ∀ row ∈ webhooks.deliveries, row.attempts ≤ config.maxAttempts
  counted : ∀ row ∈ webhooks.deliveries, ¬ webhooks.InFlight row.id →
    row.attempts = webhooks.attemptsMade row.id
  disabled : ∀ row ∈ webhooks.deliveries, row.id ∈ webhooks.foundDisabled →
    ¬ webhooks.InFlight row.id → IsTerminal row
  cleaned : ∀ row ∈ webhooks.deleted, IsTerminal row

/-- Every state that the run reaches is sound, and a row that has been delivered is not requested
again. -/
structure NeitherLostNorRepeated (config : WebhookConfig) (subscriptions : List WebhookSubscription)
    (events : List WebhookEvent) : Prop where
  sound : ∀ before after webhooks, events = before ++ after →
    (webhookMachine config).run (.initial subscriptions) before = some webhooks →
    DeliveriesSound config webhooks
  delivered : ∀ before between after webhooks later row, events = before ++ between ++ after →
    (webhookMachine config).run (.initial subscriptions) before = some webhooks →
    (webhookMachine config).run webhooks between = some later →
    row ∈ webhooks.deliveries → row.status = .delivered →
    later.posts.count row.id = webhooks.posts.count row.id

theorem WebhookInvariant.sound {config : WebhookConfig} {webhooks : WebhookState}
    (h : WebhookInvariant config webhooks) : DeliveriesSound config webhooks where
  attempts_le := h.run.attempts_le
  counted row hrow hflight :=
    h.run.counted row hrow fun worker hworker hid ↦ absurd ⟨worker, hworker, hid⟩ hflight
  disabled row hrow hfound hflight := by
    rcases h.run.abandoned row hrow hfound with hterminal | ⟨worker, hworker, hid, -⟩
    · exact hterminal
    · exact absurd ⟨worker, hworker, hid⟩ hflight
  cleaned := h.run.cleaned

/-! ### Delivered rows -/

section

variable {config : WebhookConfig} {webhooks after : WebhookState}

section

variable (index : ℕ) (queue : List DueDelivery) (workers : List Worker)
include index queue workers

@[simp]
theorem deliveries_setSweep :
    (webhooks.setSweep index queue workers).deliveries = webhooks.deliveries := by
  unfold WebhookState.setSweep
  split_ifs <;> rfl

@[simp]
theorem posts_setSweep : (webhooks.setSweep index queue workers).posts = webhooks.posts := by
  unfold WebhookState.setSweep
  split_ifs <;> rfl

@[simp]
theorem created_setSweep : (webhooks.setSweep index queue workers).created = webhooks.created := by
  unfold WebhookState.setSweep
  split_ifs <;> rfl

end

/-- The row has been delivered; it may have been deleted since. -/
structure StaysDelivered (id : String) (webhooks : WebhookState) : Prop where
  rows : ∀ row ∈ webhooks.deliveries, row.id = id → row.status = .delivered
  known : id ∈ webhooks.created

/-- What a step leaves of a delivered row and its requests. -/
structure Untouched (id : String) (before after : WebhookState) : Prop where
  rows : ∀ row ∈ after.deliveries, row.id = id → row ∈ before.deliveries
  posts : after.posts.count id = before.posts.count id
  created : id ∈ before.created → id ∈ after.created

variable {id : String}

theorem Untouched.of_eq (hrows : after.deliveries = webhooks.deliveries)
    (hposts : after.posts = webhooks.posts) (hcreated : after.created = webhooks.created) :
    Untouched id webhooks after :=
  ⟨fun _ hrow _ ↦ hrows ▸ hrow, by rw [hposts], fun hknown ↦ hcreated ▸ hknown⟩

theorem StaysDelivered.of_untouched (h : StaysDelivered id webhooks)
    (huntouched : Untouched id webhooks after) : StaysDelivered id after :=
  ⟨fun row hrow hid ↦ h.rows row (huntouched.rows row hrow hid) hid, huntouched.created h.known⟩

/-- A worker neither requests nor writes a delivered row. -/
theorem RunInvariant.untouched {queue : List DueDelivery} {workers : List Worker}
    (h : RunInvariant config webhooks queue workers) (hid : StaysDelivered id webhooks)
    {worker : Worker} (hworker : worker ∈ workers) {request : DeliveryCall}
    {next : Except String (DeliveryAnswer request) → Async Unit}
    (hrest : worker.rest = .call request next) {answer : Except String (DeliveryAnswer request)}
    (hafter : webhooks.afterCall worker ⟨request, answer⟩ = some after) :
    Untouched id webhooks after := by
  have hpermits : (deliveryProtocol config worker.delivery).permits worker.stage request := by
    have hfollows := (h.working worker hworker).follows
    rw [hrest] at hfollows
    exact hfollows.1
  have hother : worker.stage.Unwritten → worker.delivery.id ≠ id := by
    intro hstage hsame
    have hholds := (h.working worker hworker).holds hstage
    exact hholds.undelivered (hid.rows _ hholds.mem hsame)
  have hsame : webhooks = after → Untouched id webhooks after := by
    rintro rfl
    exact .of_eq rfl rfl rfl
  cases request with
  | now =>
    cases answer with
    | error message => nomatch hafter
    | ok now => exact hsame (some.inj hafter)
  | isBlockedWebhookHost url =>
    cases answer <;> exact hsame (some.inj hafter)
  | fetch url headers body =>
    have hne := hother (.inl (untouched_of_permits_fetch hpermits).1)
    obtain rfl := some.inj hafter
    refine ⟨fun _ hrow _ ↦ hrow, ?_, fun hknown ↦ hknown⟩
    simp [count_append, hne]
  | update target data =>
    obtain ⟨hunwritten, rfl, -⟩ := unwritten_of_permits_update hpermits
    cases answer with
    | error message => exact hsame (some.inj hafter)
    | ok _ =>
      by_cases hstored : worker.delivery.id ∈ webhooks.deliveries.map (·.id)
      · obtain rfl := some.inj ((if_pos hstored).symm.trans hafter)
        refine ⟨fun row hrow hrowId ↦ ?_, rfl, fun hknown ↦ hknown⟩
        obtain ⟨old, hold, rfl⟩ := mem_map.mp hrow
        by_cases hwritten : old.id = worker.delivery.id
        · rw [if_pos hwritten] at hrowId
          have hkept : (old.update data).id = old.id := by
            cases data <;> rfl
          exact absurd (hwritten.symm.trans (hkept.symm.trans hrowId)) (hother hunwritten)
        · rw [if_neg hwritten]
          exact hold
      · nomatch (if_neg hstored).symm.trans hafter

theorem WebhookInvariant.untouched (h : WebhookInvariant config webhooks)
    (hid : StaysDelivered id webhooks) {event : WebhookEvent}
    (hnext : (webhookMachine config).next webhooks event = some after) :
    Untouched id webhooks after := by
  cases event with
  | created newId subscriptionId event payload now =>
    by_cases hused : newId ∈ webhooks.created
    · nomatch (if_pos hused).symm.trans hnext
    · obtain rfl := some.inj ((if_neg hused).symm.trans hnext)
      refine ⟨fun row hrow hrowId ↦ ?_, rfl, mem_append_left _⟩
      rcases mem_append.mp hrow with hmem | hnew
      · exact hmem
      · obtain rfl := mem_singleton.mp hnew
        obtain rfl : newId = id := hrowId
        exact absurd hid.known hused
  | enabled subscriptionId value =>
    obtain rfl := some.inj hnext
    exact .of_eq rfl rfl rfl
  | deliverPending now =>
    obtain rfl := some.inj hnext
    unfold deliverPending
    split_ifs <;> exact .of_eq rfl rfl rfl
  | found index answer =>
    simp only [webhookMachine] at hnext
    split at hnext
    · obtain rfl := some.inj hnext
      refine .of_eq ?_ ?_ ?_ <;> simp [startWorkers, WebhookState.noteTaken]
    · obtain rfl := some.inj hnext
      refine .of_eq ?_ ?_ ?_ <;> simp
    · nomatch hnext
  | settled index number answer =>
    change Webhooks.settle config webhooks index number answer = some after at hnext
    unfold Webhooks.settle at hnext
    split at hnext
    case h_2 => nomatch hnext
    case h_1 queue workers hsweep =>
      split at hnext
      case h_2 => nomatch hnext
      case h_1 worker hworker =>
        obtain ⟨hsweeps, rfl⟩ := h.sweeps_eq hsweep
        have hrun : RunInvariant config webhooks queue workers := by
          simpa [hsweeps, Sweep.queue, Sweep.workers] using h.run
        split at hnext
        case h_3 => nomatch hnext
        case h_1 result hrest =>
          obtain rfl := some.inj hnext
          cases queue <;> refine .of_eq ?_ ?_ ?_ <;> simp [takeNext, WebhookState.noteTaken]
        case h_2 request next hrest =>
          obtain ⟨called, hcalled, rfl⟩ := map_eq_some_iff.mp hnext
          have huntouched := hrun.untouched hid (mem_of_getElem? hworker) hrest hcalled
          constructor
          · simpa using huntouched.rows
          · simpa using huntouched.posts
          · simpa using huntouched.created
  | cleanup retentionDays now =>
    obtain rfl := some.inj hnext
    exact ⟨fun row hrow _ ↦ mem_of_mem_filter hrow, rfl, fun hknown ↦ hknown⟩

end

theorem WebhookInvariant.initial (config : WebhookConfig)
    (subscriptions : List WebhookSubscription) :
    WebhookInvariant config (.initial subscriptions) := by
  refine ⟨rfl, ?_⟩
  constructor <;> simp [WebhookState.initial]

/-- In every run whose steps do no damage, the deliveries are neither lost nor repeated. -/
theorem neitherLostNorRepeated (config : WebhookConfig) (subscriptions : List WebhookSubscription)
    (events : List WebhookEvent)
    (h : (webhookMachine config).Meets (Undamaging config) (.initial subscriptions) events) :
    NeitherLostNorRepeated config subscriptions events := by
  have hstep : ∀ (_ : List WebhookEvent) before event after, WebhookInvariant config before →
      Undamaging config before event → (webhookMachine config).next before event = some after →
        WebhookInvariant config after :=
    fun _ _ _ _ hbefore hundamaging hnext ↦ hbefore.next hundamaging hnext
  have hreached : ∀ before webhooks,
      (webhookMachine config).Meets (Undamaging config) (.initial subscriptions) before →
      (webhookMachine config).run (.initial subscriptions) before = some webhooks →
        WebhookInvariant config webhooks := by
    intro before webhooks hmeets hrun
    exact Machine.induction_of_meets (motive := fun _ ↦ WebhookInvariant config)
      (.initial config subscriptions)
      (fun labels state event after _ ↦ hstep labels state event after) hrun hmeets
  constructor
  · rintro before after webhooks rfl hrun
    exact (hreached before webhooks (Machine.meets_append.mp h).1 hrun).sound
  · rintro before between after webhooks later row rfl hrun hlater hrow hdelivered
    obtain ⟨hmeets, -⟩ := Machine.meets_append.mp h
    obtain ⟨hbefore, hbetween⟩ := Machine.meets_append.mp hmeets
    have hinvariant := hreached before webhooks hbefore hrun
    have hstays : StaysDelivered row.id webhooks := by
      refine ⟨fun other hother hid ↦ ?_, ?_⟩
      · rw [inj_on_of_nodup_map hinvariant.run.nodup_rows hother hrow hid]
        exact hdelivered
      · exact hinvariant.run.created _ (.inl (mem_map_of_mem hrow))
    have hkept := Machine.induction_of_meets (motive := fun _ state ↦ WebhookInvariant config state ∧
        StaysDelivered row.id state ∧ state.posts.count row.id = webhooks.posts.count row.id)
      ⟨hinvariant, hstays, rfl⟩ (fun _ state event after _ ⟨hstate, hid, hposts⟩ hundamaging hnext ↦ by
        have huntouched := hstate.untouched hid hnext
        exact ⟨hstate.next hundamaging hnext, hid.of_untouched huntouched,
          huntouched.posts.trans hposts⟩) hlater (hbetween webhooks hrun)
    exact hkept.2.2

/-! ### Three runs -/

/-- The default limits; no subscription below has a secret. -/
def defaultConfig : WebhookConfig :=
  ⟨5, 50, 10, fun _ _ ↦ .error "No key", fun _ _ ↦ ""⟩

def hook : WebhookSubscription :=
  ⟨"hook", "https://hook.example.com", true, none, none⟩

/-- The answers at a time, when the subscriber responds with a status and the database works. -/
def answersAt (now status : ℕ) : ∀ request, Except String (DeliveryAnswer request)
  | .now => .ok now
  | .isBlockedWebhookHost _ => .ok false
  | .fetch _ _ _ => .ok (⟨status = 200, status⟩ : Response)
  | .update _ _ => .ok ()

/-- A sweep over one due row with a number of steps of its worker. -/
def sweepAt (now status steps : ℕ) : List WebhookEvent :=
  [.deliverPending now, .found 0 (.ok ())] ++
    List.replicate steps (.settled 0 0 (answersAt now status))

/-- The first attempt finds the subscription disabled. -/
def disabledEvents : List WebhookEvent :=
  [.created "delivery" "hook" "deployment.completed" "{}" 0, .enabled "hook" false] ++ sweepAt 1 200 3

/-- The first attempt fails, and a cleanup comes before the second one. -/
def cleanupEvents : List WebhookEvent :=
  [.created "delivery" "hook" "deployment.completed" "{}" 0] ++ sweepAt 1 500 5 ++
    [.cleanup 30 (31 * 24 * 60 * 60 * 1000)]

/-- The first attempt fails, the second one succeeds, and a cleanup comes after it. -/
def retriedEvents : List WebhookEvent :=
  [.created "delivery" "hook" "deployment.completed" "{}" 0] ++ sweepAt 1 500 5 ++
    sweepAt 6000 200 5 ++ [.cleanup 30 (31 * 24 * 60 * 60 * 1000)]

/-- The row after a failed first attempt at time 1. -/
def retryingRow (error : String) (responseStatus : Option ℕ) : WebhookDelivery :=
  (pendingDelivery "delivery" "hook" "deployment.completed" "{}" 0).update
    (.failed 1 error responseStatus (some 5001))

theorem not_isTerminal_retryingRow (error : String) (responseStatus : Option ℕ) :
    ¬ IsTerminal (retryingRow error responseStatus) := by
  rintro (hdelivered | ⟨-, hnone⟩)
  · nomatch hdelivered
  · nomatch hnone

/-- A disabled subscription leaves a row that is tried again, and a cleanup deletes such a row. -/
theorem not_neitherLostNorRepeated :
    ¬ NeitherLostNorRepeated defaultConfig [hook] disabledEvents ∧
      ¬ NeitherLostNorRepeated defaultConfig [hook] cleanupEvents := by
  constructor
  · intro h
    have hrun : (webhookMachine defaultConfig).run (.initial [hook]) disabledEvents =
        some { WebhookState.initial [{ hook with enabled := false }] with
          deliveries := [retryingRow "Subscription disabled" none]
          created := ["delivery"]
          unposted := ["delivery"]
          foundDisabled := ["delivery"] } := rfl
    refine not_isTerminal_retryingRow _ _ ((h.sound _ [] _ (append_nil _).symm hrun).disabled _
      (mem_singleton_self _) (mem_singleton_self _) ?_)
    rintro ⟨worker, hworker, -⟩
    exact absurd hworker not_mem_nil
  · intro h
    have hrun : (webhookMachine defaultConfig).run (.initial [hook]) cleanupEvents =
        some { WebhookState.initial [hook] with
          created := ["delivery"]
          posts := ["delivery"]
          deleted := [retryingRow "HTTP 500" (some 500)] } := rfl
    exact not_isTerminal_retryingRow _ _ ((h.sound _ [] _ (append_nil _).symm hrun).cleaned _
      (mem_singleton_self _))

/-- Whether a step does damage, for workers whose writes are not the last ones. -/
def undamagingCheck (webhooks : WebhookState) (event : WebhookEvent) : Bool :=
  match event with
  | .settled index number _ =>
    match webhooks.sweeps[index]? with
    | some (.running _ workers) => workers[number]?.all fun worker ↦
        worker.delivery.subscription.enabled && worker.stage ≠ .caught
    | _ => true
  | .cleanup retentionDays now => webhooks.deliveries.all fun row ↦
      !isOld retentionDays now row || row.status ≠ .failed || row.nextAttemptAt = none
  | _ => true

theorem undamaging_of_check {config : WebhookConfig} (webhooks : WebhookState)
    (event : WebhookEvent) (h : undamagingCheck webhooks event) :
    Undamaging config webhooks event := by
  cases event with
  | settled index number answer =>
    intro queue workers worker hsweep hworker
    simp only [undamagingCheck, hsweep, hworker, all_some, Bool.and_eq_true, decide_eq_true_eq] at h
    exact ⟨fun hoff ↦ absurd h.1 hoff, fun hcaught ↦ absurd hcaught h.2⟩
  | cleanup retentionDays now =>
    intro row hrow hold hfailed
    have hcheck := all_eq_true.mp h row hrow
    simpa [hold, hfailed] using hcheck
  | _ => exact trivial

theorem neitherLostNorRepeated_retried :
    NeitherLostNorRepeated defaultConfig [hook] retriedEvents :=
  neitherLostNorRepeated defaultConfig [hook] retriedEvents
    (Machine.meets_of_checks undamaging_of_check (by rfl))

end Bridgeport.Webhooks
