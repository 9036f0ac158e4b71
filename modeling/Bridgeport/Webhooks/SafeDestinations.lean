import Bridgeport.Webhooks.BlockedHosts

/-!
# Connections to blocked addresses

The answers of the name servers are given in the order of the resolutions, and everything else may be
answered in any way: a connection may fail, and a server may respond as it likes. A function resolves
the name of its host twice for each attempt, first in the guard and then in `fetch`, so the guard
keeps a connection from a blocked address if and only if the second resolution has none whenever the
first has none (`destinationsSafe_iff`).
-/

namespace Bridgeport.Webhooks

open Foundation Program List

/-! ### The network -/

def networkSemantics (resolutions : ℕ → Except String (List String)) (settings : WebhookSettings) :
    Semantics SendAnswer ℕ where
  allows count event :=
    match event with
    | ⟨.dnsLookup _, answer⟩ => answer = resolutions count
    | ⟨.getSystemSettings, .ok found⟩ => found = settings
    | _ => True
  after count event :=
    match event with
    | ⟨.dnsLookup _, _⟩ => count + 1
    | _ => count

def ConnectsTo (allowed : String → Prop) (_ : ℕ) : SendCall → Prop
  | .connect address => allowed address
  | _ => True

theorem connectsTo_iff {allowed : String → Prop} {count : ℕ} {request : SendCall} :
    ConnectsTo allowed count request ↔ ∀ address, request = .connect address → allowed address := by
  cases request with
  | connect address =>
    exact ⟨fun h other hsame ↦ SendCall.connect.inj hsame ▸ h, fun h ↦ h address rfl⟩
  | _ => exact iff_of_true trivial fun address hsame ↦ absurd hsame SendCall.noConfusion

def resolved : Except String (List String) → List String
  | .ok addresses => addresses
  | .error _ => []

variable (platform : Platform)

def Unblocked (answer : Except String (List String)) : Prop :=
  ∀ address ∈ resolved answer, isBlockedIp platform address = false

/-- The URL has the name of a host that is not blocked as such. -/
def NamesHost (url : String) : Prop :=
  ∃ parsed, platform.parseUrl url = some parsed ∧
    (parsed.protocol = "http:" ∨ parsed.protocol = "https:") ∧
      isLocalName (hostOf parsed) = false ∧ platform.isIP (hostOf parsed) = 0

section

variable {resolutions : ℕ → Except String (List String)} {settings : WebhookSettings}
  {allowed : String → Prop} {count : ℕ} {addresses : List String}
  {post : Except String Unit → ℕ → Prop}

theorem safely_dial (hallowed : ∀ address ∈ addresses, allowed address)
    (hpost : ∀ result, post result count) :
    (dial addresses).Safely (networkSemantics resolutions settings) (ConnectsTo allowed) post
      count := by
  induction addresses with
  | nil => exact hpost _
  | cons address rest ih =>
    refine safely_tryCatch ⟨hallowed address mem_cons_self, fun answer _ ↦ ?_⟩
    cases answer with
    | ok _ => exact hpost _
    | error message => exact ih fun other hother ↦ hallowed other (mem_cons_of_mem _ hother)

theorem allowed_of_safely_dial
    (h : (dial addresses).Safely (networkSemantics resolutions settings) (ConnectsTo allowed) post
      count) : (∀ address ∈ addresses, allowed address) ∧ post (.error "fetch failed") count := by
  induction addresses with
  | nil => exact ⟨fun _ hmem ↦ absurd hmem not_mem_nil, h⟩
  | cons address rest ih =>
    obtain ⟨hfirst, hrest⟩ := safely_tryCatch_iff.mp h
    obtain ⟨hothers, hpost⟩ := ih (hrest (.error "refused") trivial)
    refine ⟨fun other hother ↦ ?_, hpost⟩
    rcases mem_cons.mp hother with rfl | hmem
    · exact hfirst
    · exact hothers other hmem

theorem safely_dial_exchange {request : FetchRequest} {post : Except String HttpResponse → ℕ → Prop}
    (hallowed : ∀ address ∈ addresses, allowed address) (hpost : ∀ result, post result count) :
    (do
      dial addresses
      awaitSend (.exchange request) : Send HttpResponse).Safely
        (networkSemantics resolutions settings) (ConnectsTo allowed) post count := by
  refine safely_bind (safely_dial hallowed fun result ↦ ?_)
  cases result with
  | ok _ => exact ⟨trivial, fun answer _ ↦ hpost answer⟩
  | error message => exact hpost _

section

variable {request : FetchRequest} {parsed : ParsedUrl}
  {post : Except String HttpResponse → ℕ → Prop}

section

variable (hparsed : platform.parseUrl request.url = some parsed)
include hparsed

theorem safely_fetchOnce (hname : platform.isIP (hostOf parsed) = 0)
    (hallowed : ∀ address ∈ resolved (resolutions count), allowed address)
    (hpost : ∀ result, post result (count + 1)) :
    (fetchOnce platform request).Safely (networkSemantics resolutions settings) (ConnectsTo allowed)
      post count := by
  unfold fetchOnce
  rw [hparsed]
  dsimp only
  rw [if_neg (not_not.mpr hname)]
  refine ⟨trivial, fun answer hanswer ↦ ?_⟩
  cases answer with
  | error message => exact hpost _
  | ok addresses =>
    have hsame : .ok addresses = resolutions count := hanswer
    rw [← hsame] at hallowed
    exact safely_dial_exchange hallowed hpost

theorem allowed_of_safely_fetchOnce (hname : platform.isIP (hostOf parsed) = 0)
    (h : (fetchOnce platform request).Safely (networkSemantics resolutions settings)
      (ConnectsTo allowed) post count) :
    (∀ address ∈ resolved (resolutions count), allowed address) ∧
      ∃ message, post (.error message) (count + 1) := by
  unfold fetchOnce at h
  rw [hparsed] at h
  dsimp only at h
  rw [if_neg (not_not.mpr hname)] at h
  have hanswered := h.2 (resolutions count) rfl
  cases hresolution : resolutions count with
  | error message =>
    rw [hresolution] at hanswered
    exact ⟨fun _ hmem ↦ absurd hmem not_mem_nil, message, hanswered⟩
  | ok addresses =>
    rw [hresolution] at hanswered
    obtain ⟨hallowed, hpost⟩ := allowed_of_safely_dial (safely_bind_iff.mp hanswered)
    exact ⟨hallowed, _, hpost⟩

theorem safely_fetchOnce_literal (hliteral : platform.isIP (hostOf parsed) ≠ 0)
    (hallowed : allowed (hostOf parsed)) (hpost : ∀ result, post result count) :
    (fetchOnce platform request).Safely (networkSemantics resolutions settings) (ConnectsTo allowed)
      post count := by
  unfold fetchOnce
  rw [hparsed]
  dsimp only
  rw [if_pos hliteral]
  exact safely_dial_exchange (fun address haddress ↦ mem_singleton.mp haddress ▸ hallowed) hpost

end

end

theorem any_isBlockedIp_eq_false {answer : Except String (List String)} :
    (resolved answer).any (isBlockedIp platform) = false ↔ Unblocked platform answer := by
  simp only [Unblocked, any_eq_false, Bool.not_eq_true]

section

variable {url : String} {post : Except String Bool → ℕ → Prop}

/-- The guard asks for the addresses of the name; it takes a failure for a name without addresses. -/
theorem safely_isBlockedWebhookHost_iff (hnames : NamesHost platform url) :
    (isBlockedWebhookHost platform url).Safely (networkSemantics resolutions settings)
      (ConnectsTo allowed) post count ↔
        post (.ok ((resolved (resolutions count)).any (isBlockedIp platform))) (count + 1) := by
  obtain ⟨parsed, hparsed, hscheme, hlocal, hname⟩ := hnames
  have hguard : isBlockedWebhookHost platform url = (do
      let records ← awaitSend (.dnsLookup (hostOf parsed))
      pure (records.any (isBlockedIp platform))).tryCatch fun _ ↦ pure false := by
    have hallowed : ¬ (parsed.protocol ≠ "http:" ∧ parsed.protocol ≠ "https:") := fun h ↦
      hscheme.elim h.1 h.2
    simp only [isBlockedWebhookHost, hparsed, if_neg hallowed, hlocal, hname, ne_eq, not_true,
      Bool.false_eq_true, if_false]
  rw [hguard]
  constructor
  · intro h
    have hanswered := h.2 (resolutions count) rfl
    cases hresolution : resolutions count with
    | ok _ | error _ => rw [hresolution] at hanswered; exact hanswered
  · intro hpost
    refine ⟨trivial, fun answer hanswer ↦ ?_⟩
    have hsame : answer = resolutions count := hanswer
    rw [← hsame] at hpost
    cases answer with
    | ok _ | error _ => exact hpost

def NamesAddress (url : String) : Prop :=
  ∃ parsed, platform.parseUrl url = some parsed ∧ platform.isIP (hostOf parsed) ≠ 0 ∧
    isBlockedIp platform (hostOf parsed) = false

/-- Without a name the guard answers at once. -/
theorem isBlockedWebhookHost_of_not_namesHost (hnames : ¬ NamesHost platform url) :
    isBlockedWebhookHost platform url = pure true ∨
      NamesAddress platform url ∧ isBlockedWebhookHost platform url = pure false := by
  unfold isBlockedWebhookHost
  cases hparsed : platform.parseUrl url with
  | none => exact .inl rfl
  | some parsed =>
    dsimp only
    split_ifs with hscheme hlocal hliteral
    · exact .inl rfl
    · exact .inl rfl
    · cases hblocked : isBlockedIp platform (hostOf parsed) with
      | true => exact .inl rfl
      | false => exact .inr ⟨⟨parsed, hparsed, hliteral, hblocked⟩, rfl⟩
    · refine absurd ⟨parsed, hparsed, ?_, Bool.eq_false_iff.mpr hlocal, not_not.mp hliteral⟩ hnames
      exact (not_and_or.mp hscheme).imp not_not.mp not_not.mp

end

/-! ### `sendWebhookWithRetry` -/

def attemptError : Except String HttpResponse → Option String
  | .ok response => if response.ok then none
    else some ("HTTP " ++ toString response.status ++ ": " ++ response.statusText)
  | .error error => some error

section

variable {request : FetchRequest} {retryDelays : List ℕ}

theorem safely_attemptSend_iff {post : Except String (Option String) → ℕ → Prop} :
    (attemptSend platform request).Safely (networkSemantics resolutions settings)
      (ConnectsTo allowed) post count ↔
        (fetch platform request).Safely (networkSemantics resolutions settings)
          (ConnectsTo allowed) (fun answer ↦ post (.ok (attemptError answer))) count := by
  refine safely_tryCatch_iff.trans (safely_bind_iff.trans ⟨fun h ↦ h.mono ?_, fun h ↦ h.mono ?_⟩)
  all_goals
    intro answer world hanswer
    cases answer with
    | ok _ | error _ => exact hanswer

theorem safely_pause_bind_iff {condition : Prop} [Decidable condition] {ms : ℕ}
    {next : Unit → Send SendResult} :
    (Program.when condition (awaitSend (.sleep ms)) >>= next).Safely
      (networkSemantics resolutions settings) (ConnectsTo allowed) (fun _ _ ↦ True) count ↔
        (next ()).Safely (networkSemantics resolutions settings) (ConnectsTo allowed)
          (fun _ _ ↦ True) count := by
  unfold Program.when
  split_ifs
  · refine ⟨fun h ↦ h.2 (.ok ()) trivial, fun h ↦ ⟨trivial, fun answer _ ↦ ?_⟩⟩
    cases answer with
    | ok _ => exact h
    | error message => exact trivial
  · exact Iff.rfl

variable {left : ℕ}

/-- The loop as its first round and the rest of its rounds. -/
theorem forall_attempts_succ (first second : ℕ → Prop) {start : ℕ} :
    (∀ index < left + 1, (∀ earlier ≤ index, first (start + 2 * earlier)) →
      second (start + 2 * index + 1)) ↔
        (first start → second (start + 1) ∧
          ∀ index < left, (∀ earlier ≤ index, first (start + 2 + 2 * earlier)) →
            second (start + 2 + 2 * index + 1)) := by
  have hnext : ∀ index, start + 2 * (index + 1) = start + 2 + 2 * index := fun index ↦ by omega
  constructor
  · intro h hfirst
    refine ⟨h 0 (Nat.succ_pos left) fun earlier hearlier ↦ ?_, fun index hindex hrest ↦ ?_⟩
    · rwa [Nat.le_zero.mp hearlier]
    · rw [← hnext]
      refine h (index + 1) (Nat.succ_lt_succ hindex) fun earlier hearlier ↦ ?_
      cases earlier with
      | zero => exact hfirst
      | succ earlier => exact hnext earlier ▸ hrest earlier (Nat.le_of_succ_le_succ hearlier)
  · intro h index hindex hfirst
    obtain ⟨hsecond, hrest⟩ := h (hfirst 0 (Nat.zero_le index))
    cases index with
    | zero => exact hsecond
    | succ index =>
      rw [hnext]
      refine hrest index (Nat.lt_of_succ_lt_succ hindex) fun earlier hearlier ↦ ?_
      exact hnext earlier ▸ hfirst (earlier + 1) (Nat.succ_le_succ hearlier)

variable {lastError : Option String}

/-- Each attempt connects to the addresses that its own resolution returns, if all guards up to its
own have let the loop go on. -/
theorem safely_sendAttempts_iff (hnames : NamesHost platform request.url)
    (hmanual : request.redirect = .manual) {attempt : ℕ} :
    (sendAttempts platform request retryDelays left attempt lastError).Safely
      (networkSemantics resolutions settings) (ConnectsTo allowed) (fun _ _ ↦ True) count ↔
        ∀ index < left, (∀ earlier ≤ index, Unblocked platform (resolutions (count + 2 * earlier))) →
          ∀ address ∈ resolved (resolutions (count + 2 * index + 1)), allowed address := by
  have hnames' := hnames
  obtain ⟨parsed, hparsed, -, -, hname⟩ := hnames'
  have hfetch : fetch platform request = fetchOnce platform request := by
    rw [fetch, hmanual]
  induction left generalizing count attempt lastError with
  | zero => exact iff_of_true trivial fun index hindex ↦ absurd hindex (Nat.not_lt_zero index)
  | succ left ih =>
    rw [forall_attempts_succ (fun index ↦ Unblocked platform (resolutions index))
      (fun index ↦ ∀ address ∈ resolved (resolutions index), allowed address),
      ← any_isBlockedIp_eq_false]
    unfold sendAttempts
    rw [safely_bind_iff, safely_isBlockedWebhookHost_iff platform hnames]
    cases (resolved (resolutions count)).any (isBlockedIp platform) with
    | true => exact iff_of_true trivial fun h ↦ absurd h Bool.noConfusion
    | false =>
      rw [imp_iff_right rfl]
      dsimp only
      rw [if_neg Bool.false_ne_true, safely_bind_iff, safely_attemptSend_iff, hfetch]
      constructor
      · intro h
        obtain ⟨hallowed, message, hrest⟩ := allowed_of_safely_fetchOnce platform hparsed hname h
        exact ⟨hallowed, ih.mp (safely_pause_bind_iff.mp hrest)⟩
      · intro h
        refine safely_fetchOnce platform hparsed hname h.1 fun answer ↦ ?_
        dsimp only
        cases attemptError answer with
        | none => exact trivial
        | some error => exact safely_pause_bind_iff.mpr (ih.mpr h.2)

theorem safely_sendAttempts (hnames : ¬ NamesHost platform request.url)
    (hmanual : request.redirect = .manual)
    (hallowed : ∀ address, isBlockedIp platform address = false → allowed address) {attempt : ℕ} :
    (sendAttempts platform request retryDelays left attempt lastError).Safely
      (networkSemantics resolutions settings) (ConnectsTo allowed) (fun _ _ ↦ True) count := by
  induction left generalizing attempt lastError with
  | zero => exact trivial
  | succ left ih =>
    unfold sendAttempts
    rcases isBlockedWebhookHost_of_not_namesHost platform hnames with hguard | ⟨haddress, hguard⟩
    · rw [hguard]
      exact trivial
    · obtain ⟨parsed, hparsed, hliteral, hunblocked⟩ := haddress
      have hfetch : fetch platform request = fetchOnce platform request := by
        rw [fetch, hmanual]
      rw [hguard, safely_bind_iff]
      refine safely_bind ((safely_attemptSend_iff platform).mpr ?_)
      rw [hfetch]
      refine safely_fetchOnce_literal platform hparsed hliteral (hallowed _ hunblocked)
        fun answer ↦ ?_
      dsimp only
      cases attemptError answer with
      | none => exact trivial
      | some error => exact safely_pause_bind_iff.mpr ih

end

section

variable {config : WebhookConfig} {webhook : OutgoingWebhook} {payloadString : String}

/-- The headers of the request can be built: the secret, if there is one, can be decrypted. -/
def HeadersBuilt (config : WebhookConfig) (webhook : OutgoingWebhook) (payloadString : String) :
    Prop :=
  ∃ headers, webhookHeaders platform config webhook payloadString = .ok headers

theorem safely_sendWebhookWithRetry_iff (hnames : NamesHost platform webhook.url) :
    (sendWebhookWithRetry platform config webhook payloadString).Safely
      (networkSemantics resolutions settings) (ConnectsTo allowed) (fun _ _ ↦ True) 0 ↔
        (HeadersBuilt platform config webhook payloadString →
          ∀ index < settings.webhookMaxRetries,
            (∀ earlier ≤ index, Unblocked platform (resolutions (2 * earlier))) →
              ∀ address ∈ resolved (resolutions (2 * index + 1)), allowed address) := by
  unfold sendWebhookWithRetry HeadersBuilt
  cases webhookHeaders platform config webhook payloadString with
  | error message =>
    refine iff_of_true ⟨trivial, fun answer _ ↦ ?_⟩ fun ⟨headers, hheaders⟩ ↦
      absurd hheaders (by simp)
    cases answer with
    | ok _ | error _ => exact trivial
  | ok headers =>
    have hloop : (sendAttempts platform
        ⟨webhook.url, "POST", headers, payloadString, .manual, settings.webhookTimeoutMs⟩
        settings.retryDelays settings.webhookMaxRetries 0 none).Safely
          (networkSemantics resolutions settings) (ConnectsTo allowed) (fun _ _ ↦ True) 0 ↔ _ :=
      safely_sendAttempts_iff platform hnames rfl
    simp only [Nat.zero_add] at hloop
    rw [imp_iff_right ⟨headers, rfl⟩, ← hloop]
    refine ⟨fun h ↦ h.2 (.ok settings) rfl, fun h ↦ ⟨trivial, fun answer hanswer ↦ ?_⟩⟩
    cases answer with
    | ok found =>
      obtain rfl : found = settings := hanswer
      exact h
    | error message => exact trivial

theorem safely_sendWebhookWithRetry (hnames : ¬ NamesHost platform webhook.url)
    (hallowed : ∀ address, isBlockedIp platform address = false → allowed address) :
    (sendWebhookWithRetry platform config webhook payloadString).Safely
      (networkSemantics resolutions settings) (ConnectsTo allowed) (fun _ _ ↦ True) count := by
  unfold sendWebhookWithRetry
  refine ⟨trivial, fun answer _ ↦ ?_⟩
  cases answer with
  | error message => exact trivial
  | ok found =>
    dsimp only
    cases webhookHeaders platform config webhook payloadString with
    | error message => exact trivial
    | ok headers => exact safely_sendAttempts platform hnames rfl hallowed

end

/-! ### `deliverOne` -/

section

variable {config : WebhookConfig} {delivery : DueDelivery} {timeoutMs : ℕ}

/-- The delivery comes to its request, if the guard lets it: its subscription is enabled, and the
secret, if there is one, can be decrypted. -/
def Delivers (config : WebhookConfig) (delivery : DueDelivery) : Prop :=
  delivery.subscription.enabled = true ∧ ∃ headers, deliveryHeaders config delivery = .ok headers

theorem safely_markFailed {id error : String} {attempts : ℕ} {responseStatus : Option ℕ} :
    ((markFailed config id attempts error responseStatus).interpret
      (deliveryMeaning platform timeoutMs)).Safely (networkSemantics resolutions settings)
        (ConnectsTo allowed) (fun _ _ ↦ True) count := by
  refine ⟨trivial, fun answer _ ↦ ?_⟩
  cases answer with
  | ok now => exact ⟨trivial, fun _ _ ↦ trivial⟩
  | error message => exact trivial

theorem safely_postDelivery_iff {headers : List (String × String)} :
    ((postDelivery config delivery headers).interpret (deliveryMeaning platform timeoutMs)).Safely
      (networkSemantics resolutions settings) (ConnectsTo allowed) (fun _ _ ↦ True) count ↔
        (fetch platform ⟨delivery.subscription.url, "POST", headers, delivery.payload, .manual,
          timeoutMs⟩).Safely (networkSemantics resolutions settings) (ConnectsTo allowed)
            (fun _ _ ↦ True) count := by
  unfold postDelivery
  rw [interpret_tryCatch, safely_tryCatch_iff]
  refine safely_interpret_perform_bind_iff.trans (safely_bind_iff.trans
    ⟨fun h ↦ h.mono fun _ _ _ ↦ trivial, fun h ↦ h.mono fun answer world _ ↦ ?_⟩)
  cases answer with
  | error message => exact safely_markFailed platform
  | ok response =>
    refine safely_pure ?_
    dsimp only
    split_ifs
    · refine ⟨trivial, fun answer _ ↦ ?_⟩
      cases answer with
      | error message => exact safely_markFailed platform
      | ok now =>
        refine ⟨trivial, fun answer _ ↦ ?_⟩
        cases answer with
        | ok _ => exact trivial
        | error message => exact safely_markFailed platform
    · refine (safely_markFailed platform).mono fun answer world _ ↦ ?_
      cases answer with
      | ok _ => exact trivial
      | error message => exact safely_markFailed platform

theorem safely_sendDelivery_iff (hnames : NamesHost platform delivery.subscription.url) :
    (sendDelivery platform config timeoutMs delivery).Safely (networkSemantics resolutions settings)
      (ConnectsTo allowed) (fun _ _ ↦ True) 0 ↔
        (Delivers config delivery → Unblocked platform (resolutions 0) →
          ∀ address ∈ resolved (resolutions 1), allowed address) := by
  unfold sendDelivery deliverOne Delivers
  by_cases henabled : delivery.subscription.enabled = true
  · rw [if_neg (not_not.mpr henabled)]
    refine safely_interpret_perform_bind_iff.trans
      ((safely_isBlockedWebhookHost_iff platform hnames).trans ?_)
    rw [← any_isBlockedIp_eq_false]
    cases (resolved (resolutions 0)).any (isBlockedIp platform) with
    | true => exact iff_of_true (safely_markFailed platform) fun _ h ↦ absurd h Bool.noConfusion
    | false =>
      rw [imp_iff_right rfl]
      dsimp only
      rw [if_neg Bool.false_ne_true]
      cases hheaders : deliveryHeaders config delivery with
      | error message =>
        exact iff_of_true (safely_markFailed platform) fun ⟨_, headers, h⟩ ↦ absurd h (by simp)
      | ok headers =>
        rw [imp_iff_right ⟨henabled, headers, rfl⟩]
        obtain ⟨parsed, hparsed, -, -, hname⟩ := hnames
        refine (safely_postDelivery_iff platform).trans ⟨fun h ↦ ?_, fun h ↦ ?_⟩
        · exact (allowed_of_safely_fetchOnce platform hparsed hname h).1
        · exact safely_fetchOnce platform hparsed hname h fun _ ↦ trivial
  · rw [if_pos henabled]
    exact iff_of_true (safely_markFailed platform) fun h ↦ absurd h.1 henabled

theorem safely_sendDelivery (hnames : ¬ NamesHost platform delivery.subscription.url)
    (hallowed : ∀ address, isBlockedIp platform address = false → allowed address) :
    (sendDelivery platform config timeoutMs delivery).Safely (networkSemantics resolutions settings)
      (ConnectsTo allowed) (fun _ _ ↦ True) count := by
  unfold sendDelivery deliverOne
  by_cases henabled : delivery.subscription.enabled = true
  · rw [if_neg (not_not.mpr henabled)]
    refine safely_interpret_perform_bind_iff.mpr ?_
    dsimp only [deliveryMeaning]
    rcases isBlockedWebhookHost_of_not_namesHost platform hnames with hguard | ⟨haddress, hguard⟩
    · rw [hguard]
      exact safely_markFailed platform
    · rw [hguard]
      refine safely_pure ?_
      dsimp only
      rw [if_neg Bool.false_ne_true]
      cases deliveryHeaders config delivery with
      | error message => exact safely_markFailed platform
      | ok headers =>
        obtain ⟨parsed, hparsed, hliteral, hunblocked⟩ := haddress
        exact (safely_postDelivery_iff platform).mpr (safely_fetchOnce_literal platform hparsed
          hliteral (hallowed _ hunblocked) fun _ ↦ trivial)
  · rw [if_pos henabled]
    exact safely_markFailed platform

end

end

/-! ### All deliveries -/

section

variable (resolutions : ℕ → Except String (List String)) (settings : WebhookSettings)

/-- In no run of a delivery is a connection opened to a blocked address, however its resolutions are
answered by the name servers and its requests by the receivers. -/
def NeverReachesBlocked {α : Type} (delivery : Send α) : Prop :=
  ∀ log outcome, Traces delivery log outcome →
    (networkSemantics resolutions settings).Consistent 0 log →
      ∀ event ∈ log, ∀ address, event.call = .connect address → isBlockedIp platform address = false

variable {resolutions settings}

/-- A delivery whose connections are known reaches no blocked address if and only if they are safe:
every call can be answered. -/
theorem neverReachesBlocked_iff {α : Type} {delivery : Send α} {url : String}
    {condition : (String → Prop) → Prop}
    (hnames : NamesHost platform url → ∀ allowed, delivery.Safely
      (networkSemantics resolutions settings) (ConnectsTo allowed) (fun _ _ ↦ True) 0 ↔
        condition allowed)
    (hall : condition fun _ ↦ True)
    (hother : ¬ NamesHost platform url → ∀ allowed : String → Prop,
      (∀ address, isBlockedIp platform address = false → allowed address) → delivery.Safely
        (networkSemantics resolutions settings) (ConnectsTo allowed) (fun _ _ ↦ True) 0) :
    NeverReachesBlocked platform resolutions settings delivery ↔
      (NamesHost platform url → condition fun address ↦ isBlockedIp platform address = false) := by
  have hdirect : delivery.Safely (networkSemantics resolutions settings) (ConnectsTo fun _ ↦ True)
      (fun _ _ ↦ True) 0 := by
    by_cases hurl : NamesHost platform url
    · exact (hnames hurl _).mpr hall
    · exact hother hurl _ fun _ _ ↦ trivial
  have hlive : ∀ world request, ∃ answer,
      (networkSemantics resolutions settings).allows world ⟨request, answer⟩ := by
    intro world request
    cases request with
    | dnsLookup host => exact ⟨resolutions world, rfl⟩
    | _ => exact ⟨.error "refused", trivial⟩
  have hruns : delivery.Safely (networkSemantics resolutions settings)
      (ConnectsTo fun address ↦ isBlockedIp platform address = false) (fun _ _ ↦ True) 0 ↔ _ :=
    safely_iff (hdirect.weaken fun _ _ _ ↦ trivial) hlive
  have hsame : NeverReachesBlocked platform resolutions settings delivery ↔ delivery.Safely
      (networkSemantics resolutions settings)
      (ConnectsTo fun address ↦ isBlockedIp platform address = false) (fun _ _ ↦ True) 0 := by
    rw [hruns]
    refine forall₄_congr fun log outcome _ _ ↦ ⟨fun h before event after hlog ↦ ?_,
      fun h event hmem ↦ ?_⟩
    · exact connectsTo_iff.mpr (h event (hlog ▸ mem_append_right _ mem_cons_self))
    · obtain ⟨before, after, hlog⟩ := append_of_mem hmem
      exact connectsTo_iff.mp (h before event after hlog)
  rw [hsame]
  refine ⟨fun h hurl ↦ (hnames hurl _).mp h, fun h ↦ ?_⟩
  by_cases hurl : NamesHost platform url
  · exact (hnames hurl _).mpr (h hurl)
  · exact hother hurl _ fun _ hunblocked ↦ hunblocked

theorem neverReachesBlocked_sendDelivery_iff {config : WebhookConfig} {delivery : DueDelivery}
    {timeoutMs : ℕ} : NeverReachesBlocked platform resolutions settings
      (sendDelivery platform config timeoutMs delivery) ↔
        (NamesHost platform delivery.subscription.url → Delivers config delivery →
          Unblocked platform (resolutions 0) → Unblocked platform (resolutions 1)) :=
  neverReachesBlocked_iff platform
    (fun hnames _ ↦ safely_sendDelivery_iff platform hnames)
    (fun _ _ _ _ ↦ trivial)
    fun hnames _ hallowed ↦ safely_sendDelivery platform hnames hallowed

theorem neverReachesBlocked_sendWebhookWithRetry_iff {config : WebhookConfig}
    {webhook : OutgoingWebhook} {payloadString : String} :
    NeverReachesBlocked platform resolutions settings
      (sendWebhookWithRetry platform config webhook payloadString) ↔
        (NamesHost platform webhook.url → HeadersBuilt platform config webhook payloadString →
          ∀ index < settings.webhookMaxRetries,
            (∀ earlier ≤ index, Unblocked platform (resolutions (2 * earlier))) →
              Unblocked platform (resolutions (2 * index + 1))) :=
  neverReachesBlocked_iff platform
    (fun hnames _ ↦ safely_sendWebhookWithRetry_iff platform hnames)
    (fun _ _ _ _ _ _ ↦ trivial)
    fun hnames _ hallowed ↦ safely_sendWebhookWithRetry platform hnames hallowed

end

/-- A platform that knows one URL, and the addresses with dots. -/
def smallPlatform : Platform where
  parseUrl url :=
    if url = "http://rebound.example/hook" then some ⟨"http:", "rebound.example"⟩ else none
  isIP ip := if isDotted ip.toList then 4 else 0
  parseHeaders _ := []

/-- The guard finds a public address, or nothing at all; `fetch` finds the metadata service. -/
def rebound (first : Except String (List String)) (count : ℕ) : Except String (List String) :=
  if count % 2 = 0 then first else .ok ["169.254.169.254"]

theorem blocked_metadata : ¬ Unblocked smallPlatform (.ok ["169.254.169.254"]) := fun h ↦
  absurd (h "169.254.169.254" (mem_singleton.mpr rfl)) (by decide +kernel)

theorem unblocked_public : Unblocked smallPlatform (.ok ["93.184.216.34"]) := by
  intro address haddress
  obtain rfl := mem_singleton.mp haddress
  decide +kernel

theorem namesHost_rebound : NamesHost smallPlatform "http://rebound.example/hook" :=
  ⟨⟨"http:", "rebound.example"⟩, rfl, .inl rfl, by decide +kernel, by decide +kernel⟩

end Bridgeport.Webhooks
