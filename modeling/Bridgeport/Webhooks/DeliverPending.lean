import Bridgeport.Foundation.Machine
import Bridgeport.Foundation.Threads

/-!
# Webhook deliveries

`emitWebhookEvent` stores a row for every subscription that listens, `deliverPending` sweeps over
the rows that are due, and `cleanupOldDeliveries` deletes old rows. A sweep holds the `delivering`
flag from its first statement to its `finally`; in between it waits for its query, and then for its
workers, which share a queue of the rows that the query has returned.

`deliverOne` is a program, and `deliveryProtocol` says what each of its stages permits
(`follows_deliverOne`); a worker is what is left of it. `webhookMachine` interleaves all of them:
each step is one call of `deliverPending` or of `cleanupOldDeliveries`, one change by the other
routes, or one answer that a sweep or a worker has waited for.

Log messages are left out, and so are the redirect mode and the timeout of a request.
-/

namespace Bridgeport.Webhooks

open Foundation Program

inductive DeliveryStatus
  | pending
  | delivered
  | failed
  deriving DecidableEq

/-- A row of `WebhookDelivery`. -/
structure WebhookDelivery where
  (id subscriptionId event payload : String)
  status : DeliveryStatus
  attempts : ℕ
  nextAttemptAt : Option ℕ
  lastError : Option String
  responseStatus : Option ℕ
  createdAt : ℕ
  deliveredAt : Option ℕ

/-- A row of `WebhookSubscription`. -/
structure WebhookSubscription where
  (id url : String)
  enabled : Bool
  (encryptedSecret secretNonce : Option String)

/-- A row of the query, with its subscription. -/
structure DueDelivery extends WebhookDelivery where
  subscription : WebhookSubscription

/-- The `data` of the two updates of a delivery; both leave the other fields as they are. -/
inductive DeliveryUpdate
  | delivered (attempts responseStatus deliveredAt : ℕ)
  | failed (attempts : ℕ) (lastError : String) (responseStatus nextAttemptAt : Option ℕ)

def WebhookDelivery.update (row : WebhookDelivery) : DeliveryUpdate → WebhookDelivery
  | .delivered attempts responseStatus deliveredAt =>
    { row with
      status := .delivered
      attempts := attempts
      responseStatus := some responseStatus
      deliveredAt := some deliveredAt
      nextAttemptAt := none
      lastError := none }
  | .failed attempts lastError responseStatus nextAttemptAt =>
    { row with
      status := .failed
      attempts := attempts
      lastError := some lastError
      responseStatus := responseStatus
      nextAttemptAt := nextAttemptAt }

/-- What the module is configured with, and the functions of `crypto` that it uses. -/
structure WebhookConfig where
  /-- `MAX_DELIVERY_ATTEMPTS`. -/
  maxAttempts : ℕ
  /-- `DELIVERY_BATCH_SIZE`. -/
  batchSize : ℕ
  /-- `DELIVERY_CONCURRENCY`. -/
  concurrency : ℕ
  decrypt : String → String → Except String String
  /-- The hexadecimal digest of `createHmac('sha256', secret)`. -/
  hmacSha256 : String → String → String

/-! ### One delivery -/

inductive DeliveryCall
  | now
  | isBlockedWebhookHost (url : String)
  | fetch (url : String) (headers : List (String × String)) (body : String)
  | update (id : String) (data : DeliveryUpdate)

/-- A `Response`. -/
structure Response where
  ok : Bool
  status : ℕ

def DeliveryAnswer : DeliveryCall → Type
  | .now => ℕ
  | .isBlockedWebhookHost _ => Bool
  | .fetch _ _ _ => Response
  | .update _ _ => Unit

abbrev Async (α : Type) : Type 1 := Program DeliveryAnswer α

abbrev await (request : DeliveryCall) : Async (DeliveryAnswer request) := perform request

variable (config : WebhookConfig)

def backoffMs (attempts : ℕ) : ℕ :=
  min (5000 * 2 ^ (attempts - 1)) (5 * 60 * 1000)

def markFailed (id : String) (attempts : ℕ) (error : String) (responseStatus : Option ℕ) :
    Async Unit := do
  let now : ℕ ← await .now
  await (.update id (.failed attempts error responseStatus
    (if attempts ≥ config.maxAttempts then none else some (now + backoffMs attempts))))

/-- `SIGNATURE_HEADER`. -/
def signatureHeader : String := "X-BridgePort-Signature"

variable (delivery : DueDelivery)

def deliveryHeaders : Except String (List (String × String)) :=
  let headers := [("Content-Type", "application/json"), ("User-Agent", "BridgePort-Webhook/1.0"),
    ("X-BridgePort-Event", delivery.event), ("X-BridgePort-Delivery", delivery.id)]
  match delivery.subscription.encryptedSecret.filter (· ≠ ""),
    delivery.subscription.secretNonce.filter (· ≠ "") with
  | some encryptedSecret, some secretNonce =>
    (config.decrypt encryptedSecret secretNonce).map fun secret ↦
      headers ++ [(signatureHeader, "sha256=" ++ config.hmacSha256 secret delivery.payload)]
  | _, _ => .ok headers

/-- The `try` block of `deliverOne`, and its `catch`. -/
def postDelivery (headers : List (String × String)) : Async Unit :=
  tryCatch (do
    let response : Response ← await (.fetch delivery.subscription.url headers delivery.payload)
    if response.ok then do
      let now : ℕ ← await .now
      await (.update delivery.id (.delivered (delivery.attempts + 1) response.status now))
    else
      markFailed config delivery.id (delivery.attempts + 1) ("HTTP " ++ toString response.status)
        (some response.status))
    fun errorMessage ↦ markFailed config delivery.id (delivery.attempts + 1) errorMessage none

def deliverOne : Async Unit :=
  if ¬ delivery.subscription.enabled then
    markFailed config delivery.id (delivery.attempts + 1) "Subscription disabled" none
  else do
    let blocked : Bool ← await (.isBlockedWebhookHost delivery.subscription.url)
    if blocked then
      markFailed config delivery.id (delivery.attempts + 1)
        "Destination resolves to a blocked (private/loopback/link-local/metadata) address" none
    else match deliveryHeaders config delivery with
      | .error _ =>
        markFailed config delivery.id (delivery.attempts + 1) "Failed to decrypt signing secret" none
      | .ok headers => postDelivery config delivery headers

/-! ### The module state -/

/-- How far a worker has come with its delivery. -/
inductive DeliveryStage
  /-- Neither a request nor a write has been made. -/
  | untouched
  /-- The request has been made, and its outcome is not written. -/
  | posted
  /-- The request has been made, and it or a write of its outcome has thrown. -/
  | caught
  /-- The outcome is written. -/
  | recorded
  /-- There was no request, and the outcome could not be written. -/
  | skipped
  /-- The request has been made, and the write of the `catch` block has thrown. -/
  | lost
  deriving DecidableEq

def DeliveryStage.after (stage : DeliveryStage) (event : Event DeliveryAnswer) :
    DeliveryStage :=
  match event, stage with
  | ⟨.fetch _ _ _, .ok _⟩, _ => .posted
  | ⟨.fetch _ _ _, .error _⟩, _ => .caught
  | ⟨.update _ _, .ok _⟩, _ => .recorded
  | ⟨.update _ _, .error _⟩, .posted => .caught
  | ⟨.update _ _, .error _⟩, .untouched => .skipped
  | ⟨.update _ _, .error _⟩, _ => .lost
  | ⟨.isBlockedWebhookHost _, .error _⟩, _ => .skipped
  | _, _ => stage

/-- A worker in `deliverOne`: its delivery, what is left to do, and how far it has come. -/
structure Worker where
  delivery : DueDelivery
  rest : Async Unit
  stage : DeliveryStage

def Worker.begin : Worker :=
  ⟨delivery, deliverOne config delivery, .untouched⟩

/-- A call of `deliverPending` that has not returned. -/
inductive Sweep
  | querying (now : ℕ)
  | running (queue : List DueDelivery) (workers : List Worker)

/-- The tables and the variables of the module. -/
structure WebhookState where
  subscriptions : List WebhookSubscription
  deliveries : List WebhookDelivery
  delivering : Bool
  sweeps : List Sweep
  /-- The deliveries that have ever been created. -/
  created : List String
  /-- The deliveries of the requests, in order. -/
  posts : List String
  /-- The deliveries of the failures that were written without a request, in order. -/
  unposted : List String
  /-- The deliveries that were taken with a disabled subscription. -/
  foundDisabled : List String
  /-- The rows that `cleanupOldDeliveries` has deleted. -/
  deleted : List WebhookDelivery

def WebhookState.initial (subscriptions : List WebhookSubscription) : WebhookState :=
  ⟨subscriptions, [], false, [], [], [], [], [], []⟩

/-! ### Sweeps -/

/-- The `where` of the query. -/
def isDue (now : ℕ) (row : WebhookDelivery) : Bool :=
  (row.status = .pending || row.status = .failed) && row.attempts < config.maxAttempts &&
    row.nextAttemptAt.any (· ≤ now)

variable (webhooks : WebhookState)

/-- The query of `deliverPending`. -/
def dueDeliveries (now : ℕ) : List DueDelivery :=
  (((webhooks.deliveries.filter (isDue config now)).insertionSort
    (·.createdAt ≤ ·.createdAt)).take config.batchSize).filterMap
      fun row ↦ (webhooks.subscriptions.find? (·.id = row.subscriptionId)).map (⟨row, ·⟩)

def WebhookState.noteTaken (taken : List DueDelivery) : WebhookState :=
  { webhooks with
    foundDisabled := webhooks.foundDisabled ++
      (taken.filter (¬ ·.subscription.enabled)).map (·.id) }

/-- A call of `deliverPending`, up to its query. -/
def deliverPending (now : ℕ) : WebhookState :=
  if webhooks.delivering then webhooks
  else { webhooks with
    delivering := true
    sweeps := webhooks.sweeps ++ [.querying now] }

variable (index : ℕ) (queue : List DueDelivery) (workers : List Worker)

/-- A sweep after a step; without workers `Promise.all` has settled, and the `finally` has run. -/
def WebhookState.setSweep : WebhookState :=
  if workers = [] then { webhooks with
    delivering := false
    sweeps := webhooks.sweeps.eraseIdx index }
  else { webhooks with sweeps := webhooks.sweeps.set index (.running queue workers) }

/-- The query has been answered: each worker takes a delivery. -/
def startWorkers (due : List DueDelivery) : WebhookState :=
  let count := min config.concurrency due.length
  (webhooks.noteTaken (due.take count)).setSweep index (due.drop count)
    ((due.take count).map (Worker.begin config))

/-- A worker has finished a delivery: it takes the next one, or returns. -/
def takeNext (worker : ℕ) : WebhookState :=
  match queue with
  | [] => webhooks.setSweep index [] (workers.eraseIdx worker)
  | delivery :: queue => (webhooks.noteTaken [delivery]).setSweep index queue
      (workers.eraseIdx worker ++ [Worker.begin config delivery])

/-- The tables after a call of a worker; a row that is missing cannot be updated, and the clock does
not throw. -/
def WebhookState.afterCall (current : Worker) (event : Event DeliveryAnswer) :
    Option WebhookState :=
  match event with
  | ⟨.now, .error _⟩ => none
  | ⟨.fetch _ _ _, _⟩ => some { webhooks with posts := webhooks.posts ++ [current.delivery.id] }
  | ⟨.update id data, .ok _⟩ =>
    if id ∈ webhooks.deliveries.map (·.id) then some { webhooks with
      deliveries := webhooks.deliveries.map fun row ↦ if row.id = id then row.update data else row
      unposted := if current.stage = .untouched then webhooks.unposted ++ [id]
        else webhooks.unposted }
    else none
  | _ => some webhooks

def settle (worker : ℕ) (answer : ∀ request, Except String (DeliveryAnswer request)) :
    Option WebhookState :=
  match webhooks.sweeps[index]? with
  | some (.running queue workers) =>
    match workers[worker]? with
    | some current =>
      match current.rest with
      -- a `deliverOne` that throws is caught by the worker
      | .done _ => some (takeNext config webhooks index queue workers worker)
      | .call request next =>
        (webhooks.afterCall current ⟨request, answer request⟩).map fun after ↦
          after.setSweep index queue (workers.set worker
            ⟨current.delivery, next (answer request), current.stage.after ⟨request, answer request⟩⟩)
      | .all _ _ _ => none
    | none => none
  | _ => none

/-- A row as `emitWebhookEvent` creates it. -/
def pendingDelivery (id subscriptionId event payload : String) (now : ℕ) : WebhookDelivery where
  id := id
  subscriptionId := subscriptionId
  event := event
  payload := payload
  status := .pending
  attempts := 0
  nextAttemptAt := some now
  lastError := none
  responseStatus := none
  createdAt := now
  deliveredAt := none

/-- The `where` of `cleanupOldDeliveries`. -/
def isOld (retentionDays now : ℕ) (row : WebhookDelivery) : Bool :=
  let cutoff : ℤ := now - retentionDays * 24 * 60 * 60 * 1000
  (row.status = .delivered || row.status = .failed) && (row.createdAt : ℤ) < cutoff

def cleanupOldDeliveries (retentionDays now : ℕ) : WebhookState :=
  { webhooks with
    deliveries := webhooks.deliveries.filter fun row ↦ ¬ isOld retentionDays now row
    deleted := webhooks.deleted ++ webhooks.deliveries.filter fun row ↦ isOld retentionDays now row }

inductive WebhookEvent
  | created (id subscriptionId event payload : String) (now : ℕ)
  | enabled (subscriptionId : String) (value : Bool)
  | deliverPending (now : ℕ)
  | found (sweep : ℕ) (answer : Except String Unit)
  | settled (sweep worker : ℕ) (answer : ∀ request, Except String (DeliveryAnswer request))
  | cleanup (retentionDays now : ℕ)

/-- The module as a machine; `cuid` never returns an identifier twice. -/
def webhookMachine : Machine WebhookState WebhookEvent where
  next webhooks event :=
    match event with
    | .created id subscriptionId event payload now =>
      if id ∈ webhooks.created then none
      else some { webhooks with
        deliveries := webhooks.deliveries ++ [pendingDelivery id subscriptionId event payload now]
        created := webhooks.created ++ [id] }
    | .enabled subscriptionId value => some { webhooks with
        subscriptions := webhooks.subscriptions.map fun subscription ↦
          if subscription.id = subscriptionId then { subscription with enabled := value }
          else subscription }
    | .deliverPending now => some (deliverPending webhooks now)
    | .found index answer =>
      match webhooks.sweeps[index]?, answer with
      | some (.querying now), .ok _ =>
        some (startWorkers config webhooks index (dueDeliveries config webhooks now))
      | some (.querying _), .error _ => some (webhooks.setSweep index [] [])
      | _, _ => none
    | .settled index worker answer => settle config webhooks index worker answer
    | .cleanup retentionDays now => some (cleanupOldDeliveries webhooks retentionDays now)

/-! ### The stages of a delivery -/

variable {stage : DeliveryStage} {post : Except String Unit → DeliveryStage → Prop}

section

open Foundation Program

variable (config : WebhookConfig) (delivery : DueDelivery) (data : DeliveryUpdate)

/-- A failed attempt; it is the last one if and only if no further one is scheduled. -/
def RecordsFailure : Prop :=
  ∃ error responseStatus nextAttemptAt,
    data = .failed (delivery.attempts + 1) error responseStatus nextAttemptAt ∧
      (nextAttemptAt = none ↔ config.maxAttempts ≤ delivery.attempts + 1)

def RecordsSuccess : Prop :=
  ∃ responseStatus deliveredAt, data = .delivered (delivery.attempts + 1) responseStatus deliveredAt

/-- What `deliverOne` may do in a stage. -/
def deliveryProtocol : Protocol DeliveryAnswer DeliveryStage where
  permits stage request :=
    match request, stage with
    | .now, _ => True
    | .isBlockedWebhookHost _, .untouched => delivery.subscription.enabled
    | .fetch _ _ _, .untouched => delivery.subscription.enabled
    | .update id data, .untouched => id = delivery.id ∧ RecordsFailure config delivery data
    | .update id data, .posted =>
      id = delivery.id ∧ (RecordsSuccess delivery data ∨ RecordsFailure config delivery data)
    | .update id data, .caught => id = delivery.id ∧ RecordsFailure config delivery data
    | _, _ => False
  advance := DeliveryStage.after
  expects event :=
    match event with
    | ⟨.now, .error _⟩ => False
    | _ => True

/-- The stages in which `deliverOne` has ended. -/
def DeliveryStage.Ended (stage : DeliveryStage) : Prop :=
  stage = .recorded ∨ stage = .skipped ∨ stage = .lost

/-- The worker has not written its delivery. -/
def DeliveryStage.Unwritten (stage : DeliveryStage) : Prop :=
  stage = .untouched ∨ stage = .posted ∨ stage = .caught

/-- The worker has made a request that is not counted yet. -/
def DeliveryStage.Uncounted (stage : DeliveryStage) : Prop :=
  stage = .posted ∨ stage = .caught

theorem DeliveryStage.Uncounted.unwritten (h : stage.Uncounted) : stage.Unwritten :=
  .inr h

theorem DeliveryStage.Ended.not_unwritten (h : stage.Ended) : ¬ stage.Unwritten := by
  rcases h with rfl | rfl | rfl <;> exact not_or.mpr ⟨nofun, not_or.mpr ⟨nofun, nofun⟩⟩

theorem DeliveryStage.not_uncounted_of_untouched (h : stage = .untouched) : ¬ stage.Uncounted := by
  subst h
  exact not_or.mpr ⟨nofun, nofun⟩

variable {config} {delivery}

theorem untouched_of_permits_isBlockedWebhookHost {url : String}
    (h : (deliveryProtocol config delivery).permits stage (.isBlockedWebhookHost url)) :
    stage = .untouched ∧ delivery.subscription.enabled := by
  cases stage with
  | untouched => exact ⟨rfl, h⟩
  | _ => exact h.elim

theorem untouched_of_permits_fetch {url body : String} {headers : List (String × String)}
    (h : (deliveryProtocol config delivery).permits stage (.fetch url headers body)) :
    stage = .untouched ∧ delivery.subscription.enabled := by
  cases stage with
  | untouched => exact ⟨rfl, h⟩
  | _ => exact h.elim

theorem unwritten_of_permits_update {id : String} {data : DeliveryUpdate}
    (h : (deliveryProtocol config delivery).permits stage (.update id data)) :
    stage.Unwritten ∧ id = delivery.id ∧
      (RecordsSuccess delivery data ∨ RecordsFailure config delivery data) := by
  cases stage with
  | untouched => exact ⟨.inl rfl, h.1, .inr h.2⟩
  | posted => exact ⟨.inr (.inl rfl), h⟩
  | caught => exact ⟨.inr (.inr rfl), h.1, .inr h.2⟩
  | _ => exact h.elim

theorem follows_now_bind {next : ℕ → Async Unit}
    (hnext : ∀ now, (next now).Follows (deliveryProtocol config delivery) post stage) :
    (await .now >>= next).Follows (deliveryProtocol config delivery) post stage := by
  refine ⟨trivial, fun answer hexpects ↦ ?_⟩
  cases answer with
  | ok now => exact hnext now
  | error message => exact hexpects.elim

theorem follows_markFailed {error : String} {responseStatus : Option ℕ}
    (hstage : stage = .untouched ∨ stage = .posted ∨ stage = .caught)
    (hok : post (.ok ()) .recorded) (herror : ∀ message id data, post (.error message)
      (stage.after ⟨.update id data, .error message⟩)) :
    (markFailed config delivery.id (delivery.attempts + 1) error responseStatus).Follows
      (deliveryProtocol config delivery) post stage := by
  refine follows_now_bind fun now ↦ ⟨?_, fun answer _ ↦ ?_⟩
  · have hrecords : RecordsFailure config delivery (.failed (delivery.attempts + 1) error
        responseStatus (if delivery.attempts + 1 ≥ config.maxAttempts then none
          else some (now + backoffMs (delivery.attempts + 1)))) :=
      ⟨error, responseStatus, _, rfl, by simp⟩
    rcases hstage with rfl | rfl | rfl
    · exact ⟨rfl, hrecords⟩
    · exact ⟨rfl, .inr hrecords⟩
    · exact ⟨rfl, hrecords⟩
  · cases answer with
    | ok _ => exact hok
    | error message => exact herror message _ _

/-- A failure that is written without a request. -/
theorem follows_markFailed_untouched (error : String) :
    (markFailed config delivery.id (delivery.attempts + 1) error none).Follows
      (deliveryProtocol config delivery) (fun _ ↦ DeliveryStage.Ended) .untouched :=
  follows_markFailed (.inl rfl) (.inl rfl) fun _ _ _ ↦ .inr (.inl rfl)

/-- The `catch` block. -/
theorem follows_markFailed_caught (error : String) (hstage : stage = .caught) :
    (markFailed config delivery.id (delivery.attempts + 1) error none).Follows
      (deliveryProtocol config delivery) (fun _ ↦ DeliveryStage.Ended) stage := by
  subst hstage
  exact follows_markFailed (.inr (.inr rfl)) (.inl rfl) fun _ _ _ ↦ .inr (.inr rfl)

theorem follows_postDelivery (henabled : delivery.subscription.enabled)
    (headers : List (String × String)) :
    (postDelivery config delivery headers).Follows (deliveryProtocol config delivery)
      (fun _ ↦ DeliveryStage.Ended) .untouched := by
  refine follows_tryCatch (follows_perform_bind henabled (fun response _ ↦ ?_) fun message ↦
    follows_markFailed_caught message rfl)
  refine Follows.ite (fun _ ↦ follows_now_bind fun now ↦ ?_) fun _ ↦ ?_
  · refine ⟨⟨rfl, .inl ⟨_, _, rfl⟩⟩, fun answer _ ↦ ?_⟩
    cases answer with
    | ok _ => exact .inl rfl
    | error message => exact follows_markFailed_caught message rfl
  · exact follows_markFailed (.inr (.inl rfl)) (.inl rfl) fun message _ _ ↦
      follows_markFailed_caught message rfl

theorem follows_deliverOne : (deliverOne config delivery).Follows
    (deliveryProtocol config delivery) (fun _ ↦ DeliveryStage.Ended) .untouched := by
  refine Follows.ite (fun _ ↦ follows_markFailed_untouched _) fun hdisabled ↦ ?_
  have henabled : delivery.subscription.enabled := not_not.mp hdisabled
  refine follows_perform_bind henabled (fun blocked _ ↦ ?_) fun _ ↦ .inr (.inl rfl)
  change Bool at blocked
  refine Follows.ite (fun _ ↦ follows_markFailed_untouched _) fun _ ↦ ?_
  cases deliveryHeaders config delivery with
  | error message => exact follows_markFailed_untouched _
  | ok headers => exact follows_postDelivery henabled headers

end

end Bridgeport.Webhooks
