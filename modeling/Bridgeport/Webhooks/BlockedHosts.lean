import Bridgeport.Foundation.Interpretation
import Bridgeport.Secrets.Placeholders
import Bridgeport.Webhooks.DeliverPending

/-!
# Destinations of webhooks

`isBlockedIp` and `isBlockedWebhookHost` of `services/webhook-subscriptions.ts`, the requests behind
them, and the two functions that make such requests: `deliverOne`, whose waits for the guard and for
`fetch` are interpreted by their calls on the network, and `sendWebhookWithRetry` of
`services/outgoing-webhooks.ts`.

The guard resolves the name of the host, and `fetch` resolves it again before it connects: to one
address after the other until one answers. With the redirect mode `manual` it connects to no other
host, and a redirect is a response like any other. The URL parser, `isIP` and the reading of stored
JSON are parameters.
-/

namespace Bridgeport.Webhooks

open Foundation Program
open Secrets (Text)

/-! ### Addresses -/

/-- What is read of a `URL`. -/
structure ParsedUrl where
  (protocol hostname : String)

/-- What the functions use of the platform. -/
structure Platform where
  /-- `new URL(url)`, which may throw. -/
  parseUrl : String → Option ParsedUrl
  /-- `isIP` of `node:net`: 4, 6 or 0. -/
  isIP : String → ℕ
  /-- `safeJsonParse` of the custom headers. -/
  parseHeaders : String → List (String × String)

/-- `Number` of a part of a dotted address, if it has digits only; no other part gets here but from
what is not an address. -/
def partNumber (part : Text) : Option ℕ :=
  if part.all Char.isDigit then
    some (part.foldl (fun value digit ↦ 10 * value + (digit.toNat - 48)) 0)
  else none

def isBlockedIpv4 (ip : Text) : Bool :=
  match (ip.splitOn '.').map partNumber with
  | [some a, some b, some c, some d] =>
    if a > 255 ∨ b > 255 ∨ c > 255 ∨ d > 255 then true
    else a = 127 || a = 10 || (a = 172 && 16 ≤ b && b ≤ 31) || (a = 192 && b = 168) ||
      (a = 169 && b = 254) || a = 0
  | _ => true

/-- The characters `[0-9a-f]`. -/
def isHexDigit (character : Char) : Bool :=
  character.isDigit || ('a' ≤ character && character ≤ 'f')

/-- `parseInt` of hexadecimal digits. -/
def hexValue (digits : Text) : ℕ :=
  digits.foldl (fun value digit ↦
    16 * value + (if digit.isDigit then digit.toNat - 48 else digit.toNat - 87)) 0

/-- What `^::(?:ffff:(?:0:)?)?` can leave of a host, in the order of the matches. -/
def embeddedTails (host : Text) : List Text :=
  match host.dropPrefix? "::".toList with
  | none => []
  | some tail =>
    let mapped := (tail.dropPrefix? "ffff:".toList).toList
    mapped.filterMap (·.dropPrefix? "0:".toList) ++ mapped ++ [tail]

/-- The text matches `\d+\.\d+\.\d+\.\d+`. -/
def isDotted (tail : Text) : Bool :=
  let parts := tail.splitOn '.'
  parts.length = 4 && parts.all fun part ↦ part ≠ [] && part.all Char.isDigit

/-- The two numbers of `([0-9a-f]{1,4}):([0-9a-f]{1,4})`. -/
def hexPair (tail : Text) : Option (ℕ × ℕ) :=
  match tail.splitOn ':' with
  | [hi, lo] =>
    if [hi, lo].all fun part ↦ part ≠ [] && part.length ≤ 4 && part.all isHexDigit then
      some (hexValue hi, hexValue lo)
    else none
  | _ => none

/-- The dotted address with the bits of two numbers. -/
def dottedQuad (hi lo : ℕ) : Text :=
  (toString (hi / 256 % 256) ++ "." ++ toString (hi % 256) ++ "." ++ toString (lo / 256 % 256) ++
    "." ++ toString (lo % 256)).toList

def embeddedIpv4 (host : Text) : Option Text :=
  match (embeddedTails host).find? isDotted with
  | some dotted => some dotted
  | none => ((embeddedTails host).findSome? hexPair).map fun pair ↦ dottedQuad pair.1 pair.2

/-- `/^f[cd][0-9a-f]{2}:/`. -/
def isUniqueLocal : Text → Bool
  | 'f' :: second :: third :: fourth :: ':' :: _ =>
    (second = 'c' || second = 'd') && isHexDigit third && isHexDigit fourth
  | _ => false

/-- `/^fe[89ab][0-9a-f]:/`. -/
def isLinkLocal : Text → Bool
  | 'f' :: 'e' :: third :: fourth :: ':' :: _ =>
    (third = '8' || third = '9' || third = 'a' || third = 'b') && isHexDigit fourth
  | _ => false

/-- An IPv6 address of a shape that embeds an IPv4 address. -/
def embedsV4 (lower : Text) : Bool :=
  "::ffff:".toList.isPrefixOf lower || "::".toList.isPrefixOf lower || lower.contains '.'

variable (platform : Platform)

def isBlockedIp (ip : String) : Bool :=
  if platform.isIP ip = 4 then isBlockedIpv4 ip.toList
  else if platform.isIP ip = 6 then
    let lower := ip.toLower.toList
    if lower = "::1".toList ∨ lower = "::".toList then true
    else if isUniqueLocal lower then true
    else if isLinkLocal lower then true
    else if embedsV4 lower then
      match embeddedIpv4 lower with
      | none => true
      | some v4 => isBlockedIpv4 v4
    else false
  else false

inductive RedirectMode
  | manual
  | follow

/-- What `fetch` is given. -/
structure FetchRequest where
  (url method : String)
  headers : List (String × String)
  body : String
  redirect : RedirectMode
  timeoutMs : ℕ

/-- What is read of a `Response`. -/
structure HttpResponse where
  status : ℕ
  statusText : String
  location : Option String

def HttpResponse.ok (response : HttpResponse) : Bool :=
  200 ≤ response.status && response.status < 300

/-- What is read of the system settings. -/
structure WebhookSettings where
  (webhookMaxRetries webhookTimeoutMs : ℕ)
  /-- What `parseWebhookRetryDelays` returns. -/
  retryDelays : List ℕ

/-- The calls of the two functions: a name is resolved, a connection is opened to an address, and a
request is sent over the connection. -/
inductive SendCall
  | dnsLookup (host : String)
  | connect (address : String)
  | exchange (request : FetchRequest)
  | getSystemSettings
  | sleep (ms : ℕ)
  | now
  | updateDelivery (id : String) (data : DeliveryUpdate)

@[reducible]
def SendAnswer : SendCall → Type
  | .dnsLookup _ => List String
  | .exchange _ => HttpResponse
  | .getSystemSettings => WebhookSettings
  | .now => ℕ
  | .connect _ | .sleep _ | .updateDelivery _ _ => Unit

/-- Asynchronous code over these calls. -/
abbrev Send := Program SendAnswer

abbrev awaitSend (request : SendCall) : Send (SendAnswer request) := perform request

def hostOf (parsed : ParsedUrl) : String :=
  let host := parsed.hostname.toLower
  if host.startsWith "[" && host.endsWith "]" then
    String.ofList (host.toList.drop 1).dropLast
  else host

def isLocalName (host : String) : Bool :=
  host = "localhost" || host = "localhost.localdomain" || ".local".toList.isSuffixOf host.toList

def isBlockedWebhookHost (url : String) : Send Bool :=
  match platform.parseUrl url with
  | none => pure true
  | some parsed =>
    if parsed.protocol ≠ "http:" ∧ parsed.protocol ≠ "https:" then pure true
    else if isLocalName (hostOf parsed) then pure true
    else if platform.isIP (hostOf parsed) ≠ 0 then pure (isBlockedIp platform (hostOf parsed))
    else (do
      let records ← awaitSend (.dnsLookup (hostOf parsed))
      pure (records.any (isBlockedIp platform))).tryCatch fun _ ↦ pure false

/-- One address after the other, until a connection is open. -/
def dial : List String → Send Unit
  | [] => throw "fetch failed"
  | address :: rest => (awaitSend (.connect address)).tryCatch fun _ ↦ dial rest

variable (request : FetchRequest)

def fetchOnce : Send HttpResponse :=
  match platform.parseUrl request.url with
  | none => throw "Failed to parse URL"
  | some parsed =>
    if platform.isIP (hostOf parsed) ≠ 0 then do
      dial [hostOf parsed]
      awaitSend (.exchange request)
    else do
      let addresses ← awaitSend (.dnsLookup (hostOf parsed))
      dial addresses
      awaitSend (.exchange request)

def fetchFollowing : ℕ → FetchRequest → Send HttpResponse
  | 0, _ => throw "redirect count exceeded"
  | hops + 1, request => do
    let response ← fetchOnce platform request
    match response.location with
    | some url => fetchFollowing hops { request with url }
    | none => pure response

def fetch : Send HttpResponse :=
  match request.redirect with
  | .manual => fetchOnce platform request
  | .follow => fetchFollowing platform 21 request

/-! ### The two functions -/

/-- The calls on the network behind those of `deliverOne`. -/
def deliveryMeaning (timeoutMs : ℕ) : ∀ request, Send (DeliveryAnswer request)
  | .now => awaitSend .now
  | .isBlockedWebhookHost url => isBlockedWebhookHost platform url
  | .fetch url headers body => do
    let response ← fetch platform ⟨url, "POST", headers, body, .manual, timeoutMs⟩
    pure (⟨response.ok, response.status⟩ : Response)
  | .update id data => awaitSend (.updateDelivery id data)

variable (config : WebhookConfig)

/-- `deliverOne` with its calls on the network. -/
def sendDelivery (timeoutMs : ℕ) (delivery : DueDelivery) : Send Unit :=
  (deliverOne config delivery).interpret (deliveryMeaning platform timeoutMs)

/-- A row of `WebhookConfig`, as far as it is read here. -/
structure OutgoingWebhook where
  url : String
  (headers encryptedSecret secretNonce : Option String)

/-- The result of `sendWebhookWithRetry`. -/
structure SendResult where
  success : Bool
  error : Option String

/-- `Object.assign` on headers. -/
def assignHeaders (headers custom : List (String × String)) : List (String × String) :=
  custom.foldl (fun headers entry ↦
    headers.filter (·.1 ≠ entry.1) ++ [entry]) headers

variable (webhook : OutgoingWebhook) (payloadString : String)

def webhookHeaders : Except String (List (String × String)) :=
  let custom := (webhook.headers.filter (· ≠ "")).elim [] platform.parseHeaders
  let headers := assignHeaders [("Content-Type", "application/json"),
    ("User-Agent", "BRIDGEPORT-Webhook/1.0")] custom
  match webhook.encryptedSecret.filter (· ≠ ""), webhook.secretNonce.filter (· ≠ "") with
  | some encryptedSecret, some secretNonce =>
    (config.decrypt encryptedSecret secretNonce).map fun secret ↦ assignHeaders headers
      [("X-Webhook-Signature", "sha256=" ++ config.hmacSha256 secret payloadString)]
  | _, _ => .ok headers

/-- One attempt behind the guard: the error that is left, if there is one. -/
def attemptSend : Send (Option String) :=
  (do
    let response ← fetch platform request
    pure (if response.ok then none
      else some ("HTTP " ++ toString response.status ++ ": " ++ response.statusText))).tryCatch
    fun error ↦ pure (some error)

/-- The loop of `sendWebhookWithRetry`, with the attempts that are left and the number of the next
one. -/
def sendAttempts (request : FetchRequest) (retryDelays : List ℕ) :
    ℕ → ℕ → Option String → Send SendResult
  | 0, _, lastError => pure ⟨false, lastError⟩
  | left + 1, attempt, _ => do
    let blocked ← isBlockedWebhookHost platform request.url
    if blocked then
      pure ⟨false, some
        "Destination resolves to a blocked (private/loopback/link-local/metadata) address"⟩
    else do
      let error ← attemptSend platform request
      match error with
      | none => pure ⟨true, none⟩
      | some error => do
        Program.when (left ≠ 0)
          (awaitSend (.sleep (retryDelays[attempt]?.getD (retryDelays.getLast?.getD 5000))))
        sendAttempts request retryDelays left (attempt + 1) (some error)

/-- `sendWebhookWithRetry`, with the JSON text of its payload. -/
def sendWebhookWithRetry : Send SendResult := do
  let settings ← awaitSend .getSystemSettings
  match webhookHeaders platform config webhook payloadString with
  | .error message => throw message
  | .ok headers =>
    sendAttempts platform
      ⟨webhook.url, "POST", headers, payloadString, .manual, settings.webhookTimeoutMs⟩
      settings.retryDelays settings.webhookMaxRetries 0 none

end Bridgeport.Webhooks
