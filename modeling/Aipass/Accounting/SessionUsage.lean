import Aipass.Proxy.Observe
import Aipass.Websocket.Capability

/-!
# The account of a native WebSocket

The proxy relays a native Responses WebSocket and keeps an account of it. Every request that it
forwards holds permits until it is finished: it waits on its lane until the upstream has created a
response for it, and is then kept under the identifier of that response. An event of the upstream
is matched to a request by that identifier, or else by its lane. A request that is finished leaves
a record and lets go of its permits. What is logged, the statistics of the proxy, the price of a
request and the evidence on WebSocket support are left out.
-/
namespace Aipass.Accounting

open Websocket (StatusCode)
open Proxy (Instant TargetHealth RetryPolicy Affinities TokenUsage normalizeSessionAffinityKey)

/-! ## Permits -/

/-- The guards of a request: `TargetActivityGuard`, `RecoveryPermit`, `InFlightGuard` and
`ProviderPermit`. What differs between requests is the probe of the recovery permit. -/
structure Activity where
  probeId : Option Uuid
deriving DecidableEq

/-- What the requests of the proxy to one target share. -/
structure Shared where
  inFlightRequests : ℕ := 0
  /-- `target_activity` of the target. -/
  targetActivity : ℕ := 0
  /-- `provider_activity` of its provider. -/
  providerActivity : ℕ := 0
  health : Option TargetHealth := none
  affinities : Affinities := []
deriving DecidableEq

namespace Shared

/-- The probe that the target is recovering by. -/
def probeId (shared : Shared) : Option Uuid := shared.health.bind TargetHealth.probeId

/-- `RecoveryPermit::acquire`: the probe of the permit, if there is one. -/
def acquireRecovery (shared : Shared) (now : Instant) (probe : Uuid) :
    Shared × Option (Option Uuid) :=
  match shared.health with
  | none => (shared, some none)
  | some health =>
    let looked := health.circuitOpen now
    let kept := { shared with health := some looked.2 }
    if looked.1 then (kept, none)
    else if looked.2.recovering then
      if looked.2.probeId.isSome then (kept, none)
      else ({ shared with health := some { looked.2 with probeId := some probe } },
        some (some probe))
    else (kept, some none)

/-- `RecoveryPermit::drop`. -/
def dropRecovery (shared : Shared) (probeId : Option Uuid) : Shared :=
  match probeId, shared.health with
  | some probe, some health =>
    if health.probeId = some probe then
      { shared with health := some { health with probeId := none } }
    else shared
  | _, _ => shared

/-- `ProviderPermit::acquire`, under the limit that is in force. -/
def acquireProvider (shared : Shared) (limit : Option ℕ) : Option Shared :=
  if limit.any (· ≤ shared.providerActivity) then none
  else some { shared with providerActivity := shared.providerActivity + 1 }

/-- `TargetActivityGuard::new` and `InFlightGuard::new`. -/
def enter (shared : Shared) : Shared :=
  { shared with
    targetActivity := shared.targetActivity + 1, inFlightRequests := shared.inFlightRequests + 1 }

/-- The guards of a request are dropped. -/
def leave (shared : Shared) (activity : Activity) : Shared :=
  { shared.dropRecovery activity.probeId with
    targetActivity := shared.targetActivity - 1
    inFlightRequests := shared.inFlightRequests - 1
    providerActivity := shared.providerActivity - 1 }

/-- `complete_target_success`. -/
def completeTargetSuccess (shared : Shared) (now : Instant) (route : Uuid)
    (sessionKey : Option String) (target : Uuid) (started : Instant)
    (responseId : Option String) : Shared :=
  let remember (shared : Shared) : Shared :=
    let bound := Proxy.rememberAffinityTarget shared.affinities route sessionKey target now
    { shared with affinities := Proxy.rememberAffinityTarget bound route responseId target now }
  match shared.health with
  | none => remember shared
  | some health =>
    let done := health.succeed started now
    let kept := { shared with health := some done.2 }
    if done.1 then remember kept else kept

/-- `mark_failure`. -/
def markFailure (shared : Shared) (now : Instant) (target : Uuid) (policy : RetryPolicy) : Shared :=
  { shared with
    health := some ((shared.health.getD {}).fail policy now)
    affinities := Proxy.clearAffinityForTarget shared.affinities target }

end Shared

/-! ## Requests -/

/-- `SESSION_AFFINITY_FIELDS`. -/
def sessionAffinityFields : List String :=
  ["prompt_cache_key", "promptCacheKey", "session_id", "sessionId", "session", "sessionKey",
    "conversation_id", "conversationId", "previous_response_id", "previousResponseId"]

/-- `session_affinity_key_from_value`. -/
def sessionAffinityKeyFromValue (value : Value) : Option String :=
  if value.asObject.isSome then
    ((sessionAffinityFields.findSome? fun field => (value.get field).bind Value.asStr).bind
      normalizeSessionAffinityKey).or
      (((value.get "conversation").bind fun conversation =>
        conversation.asStr.or ((conversation.get "id").bind Value.asStr)).bind
          normalizeSessionAffinityKey)
  else none

/-- The lane of an event. -/
def laneOf (value : Value) : String := (value.field "stream_id").asStr.getD ""

/-- The type of an event. -/
def kindOf (value : Value) : String := (value.field "type").asStr.getD ""

/-- The identifier of the response that an event of the upstream is about. -/
def responseIdOf (value : Value) : Option String :=
  ((value.pointer ["response", "id"]).or (value.get "response_id")).bind Value.asStr

/-- The model that an event of the upstream reports. -/
def reportedModel (value : Value) : Option String :=
  (value.pointer ["response", "model"]).bind Value.asStr

/-- `ResponseUsage`. `ResponseTrace` counts the events that it observes; here it is the list of
them. -/
structure ResponseUsage where
  trace : List Value := []
  activity : Option Activity := none
  requestId : Uuid
  started : Instant
  model : Option String
  sessionKey : Option String
  responseId : Option String := none
  firstTokenMs : Option ℕ := none
  streamId : String
deriving DecidableEq

/-- `ResponseUsage::new`. -/
def ResponseUsage.new (requestId : Uuid) (now : Instant) (value : Value)
    (defaultSessionKey : Option String) : ResponseUsage where
  requestId := requestId
  started := now
  model := (value.get "model").bind Value.asStr
  sessionKey := (sessionAffinityKeyFromValue value).or
    (defaultSessionKey.bind normalizeSessionAffinityKey)
  streamId := laneOf value

/-- `UsageRecord`, and the outcome in the `AttemptRecord` that goes with it. -/
structure UsageRecord where
  id : Uuid
  startedAt : Instant
  durationMs : ℕ
  firstTokenMs : Option ℕ
  model : Option String
  status : StatusCode
  usage : TokenUsage
  success : Option Bool

/-- `SessionUsage`. The queues of all lanes are one list: the queue of a lane is what it has of the
lane. The requests with a response are listed in some order, as a map lists them. -/
structure SessionUsage where
  routeId : Uuid
  targetId : Uuid
  retry : RetryPolicy
  sessionKey : Option String
  pending : List ResponseUsage := []
  active : List (String × ResponseUsage) := []

/-- The bound on the requests that a session keeps. -/
def maxRequests : ℕ := 1024

/-- Where a session keeps a request. -/
inductive Place
  /-- Under the identifier of a response. -/
  | active (responseId : String)
  /-- At the front of a lane. -/
  | pending (lane : String)
deriving DecidableEq

namespace SessionUsage

/-- The request at the front of a lane. -/
def front (session : SessionUsage) (lane : String) : Option ResponseUsage :=
  session.pending.find? fun request => request.streamId = lane

/-- The request under the identifier of a response. -/
def under (session : SessionUsage) (id : String) : Option ResponseUsage :=
  (session.active.find? fun entry => entry.1 = id).map Prod.snd

/-- `active.remove`. -/
def remove (session : SessionUsage) (id : String) : SessionUsage :=
  { session with active := session.active.eraseP fun entry => entry.1 = id }

/-- Take the request under the identifier of a response, if there is one. -/
def takeActive (session : SessionUsage) (id : String) : Option (ResponseUsage × SessionUsage) :=
  (session.under id).map fun request => (request, session.remove id)

/-- `take_pending`. -/
def takePending (session : SessionUsage) (lane : String) : Option (ResponseUsage × SessionUsage) :=
  (session.front lane).map fun request =>
    (request, { session with
      pending := session.pending.eraseP fun request => request.streamId = lane })

/-- Whether a request matches the response that an event names, or the lane if it names none. -/
def isMatch (id : Option String) (lane : String) (entry : String × ResponseUsage) : Bool :=
  match id with
  | some id => entry.1 = id
  | none => entry.2.streamId = lane

/-- Where the request is that an event is traced to. -/
def traced (session : SessionUsage) (id : Option String) (lane : String) : Option Place :=
  match session.active.find? (isMatch id lane) with
  | some entry => some (.active entry.1)
  | none => (session.front lane).map fun _ => .pending lane

/-- The request at a place. -/
def at_ (session : SessionUsage) : Place → Option ResponseUsage
  | .active id => session.under id
  | .pending lane => session.front lane

/-- The first request of a lane changes. -/
def changeFront (change : ResponseUsage → ResponseUsage) (lane : String) :
    List ResponseUsage → List ResponseUsage
  | [] => []
  | request :: rest =>
    if request.streamId = lane then change request :: rest
    else request :: changeFront change lane rest

/-- The request under an identifier changes. -/
def changeUnder (change : ResponseUsage → ResponseUsage) (id : String) :
    List (String × ResponseUsage) → List (String × ResponseUsage)
  | [] => []
  | entry :: rest =>
    if entry.1 = id then (entry.1, change entry.2) :: rest else entry :: changeUnder change id rest

/-- The request at a place changes. -/
def change (session : SessionUsage) (change : ResponseUsage → ResponseUsage) :
    Place → SessionUsage
  | .active id => { session with active := changeUnder change id session.active }
  | .pending lane => { session with pending := changeFront change lane session.pending }

/-- `client_event_with_id`. -/
def clientEvent (session : SessionUsage) (shared : Shared) (now : Instant) (probe : Uuid)
    (limit : Option ℕ) (requestId : Uuid) (value : Value) :
    Shared × Except StatusCode SessionUsage :=
  if value.field "type" ≠ "response.create" then (shared, .ok session)
  else if maxRequests ≤ session.active.length + session.pending.length then (shared, .error 503)
  else
    match shared.acquireRecovery now probe with
    | (shared, none) => (shared, .error 503)
    | (shared, some probeId) =>
      match shared.acquireProvider limit with
      | none => (shared.dropRecovery probeId, .error 429)
      | some shared =>
        let request := { ResponseUsage.new requestId now value session.sessionKey with
          activity := some ⟨probeId⟩ }
        (shared.enter, .ok { session with pending := session.pending ++ [request] })

/-- What the trace of a request keeps of an event, and the identifier of its response. -/
def observed (value : Value) (request : ResponseUsage) : ResponseUsage :=
  { request with
    responseId := ((responseIdOf value).bind normalizeSessionAffinityKey).or request.responseId
    trace := request.trace ++ [value] }

/-- `server_event`, where an event is traced. -/
def observe (session : SessionUsage) (value : Value) : SessionUsage :=
  match session.traced (responseIdOf value) (laneOf value) with
  | some place => session.change (observed value) place
  | none => session

end SessionUsage

/-! ## The account -/

/-- What the events of a session change. -/
structure Account where
  session : SessionUsage
  shared : Shared
  records : List UsageRecord := []

/-- `StatusCode::is_success`. -/
def isSuccess (status : StatusCode) : Bool := 200 ≤ status ∧ status < 300

/-- `status_affects_circuit`. -/
def statusAffectsCircuit (status : StatusCode) : Bool :=
  (500 ≤ status ∧ status < 600) ∨ status = 401 ∨ status = 403 ∨ status = 408 ∨ status = 429

/-- `TokenUsage::default`. -/
def noUsage : TokenUsage := ⟨0, 0, 0, 0, 0⟩

/-- `usage_from_wire_value`, of a Responses event. -/
def usageFromWireValue (value : Value) : TokenUsage :=
  Proxy.extractUsage .openAiResponses (Conversion.UsageAccumulator.observe {} .openAiResponses value).wire

/-- Whole milliseconds since an instant. -/
def elapsedMs (started now : Instant) : ℕ := (now - started) / 1000000

/-- The events by which a response ends. -/
def isTerminal (kind : String) : Bool :=
  kind = "response.completed" ∨ kind = "response.failed" ∨ kind = "response.incomplete" ∨
    kind = "response.cancelled"

/-- The events that carry what a response says. -/
def isDelta (kind : String) : Bool :=
  kind = "response.output_text.delta" ∨ kind = "response.function_call_arguments.delta" ∨
    kind = "response.output_audio.delta"

/-- The status of a request that ends by a terminal event. -/
def terminalStatus (kind : String) : StatusCode :=
  if kind = "response.completed" ∨ kind = "response.incomplete" then 200
  else if kind = "response.cancelled" then 400
  else 502

/-- The status of a request that ends by an error. -/
def errorStatus (value : Value) : StatusCode :=
  (((value.field "status").asU64).filter fun status => 400 ≤ status ∧ status < 600).getD 502

/-- The record of a request that is finished. -/
def ResponseUsage.record (request : ResponseUsage) (now : Instant) (usage : TokenUsage)
    (status : StatusCode) (outcome : Option Bool) : UsageRecord where
  id := request.requestId
  startedAt := request.started
  durationMs := elapsedMs request.started now
  firstTokenMs := request.firstTokenMs
  model := request.model
  status := status
  usage := usage
  success := outcome

namespace Account

/-- `finish`. -/
def finish (account : Account) (now : Instant) (request : ResponseUsage) (usage : TokenUsage)
    (status : StatusCode) (outcome : Option Bool) (transportFailure : Bool) : Account :=
  let session := account.session
  let shared := account.shared
  let told :=
    if isSuccess status then
      shared.completeTargetSuccess now session.routeId request.sessionKey session.targetId
        request.started request.responseId
    else if !transportFailure ∧ outcome = some false ∧ statusAffectsCircuit status then
      shared.markFailure now session.targetId session.retry
    else shared
  { session := session
    shared := match request.activity with
      | some activity => told.leave activity
      | none => told
    records := account.records ++ [request.record now usage status outcome] }

/-- `response.created` and `response.in_progress`. -/
def created (account : Account) (value : Value) : Account :=
  match responseIdOf value with
  | none => account
  | some id =>
    if (account.session.under id).isSome then account
    else match account.session.takePending (laneOf value) with
      | none => account
      | some (request, session) =>
        if session.active.length < maxRequests then
          { account with session := { session with active := session.active ++ [(id, request)] } }
        else
          -- the request is dropped, and its guards with it
          { account with session, shared := match request.activity with
            | some activity => account.shared.leave activity
            | none => account.shared }

/-- Where the request is that a delta is of. -/
def spoken (session : SessionUsage) (value : Value) : Option Place :=
  match responseIdOf value with
  | some id => some (.active id)
  | none => (session.active.find? fun entry => entry.2.streamId = laneOf value).map fun entry =>
    .active entry.1

/-- A request whose response says something. -/
def speaks (now : Instant) (request : ResponseUsage) : ResponseUsage :=
  { request with
    firstTokenMs := request.firstTokenMs.or (some (elapsedMs request.started now)) }

/-- A delta. -/
def delta (account : Account) (now : Instant) (value : Value) : Account :=
  match spoken account.session value with
  | none => account
  | some place => { account with session := account.session.change (speaks now) place }

/-- The request that a terminal event finishes. -/
def terminated (session : SessionUsage) (value : Value) : Option (ResponseUsage × SessionUsage) :=
  ((responseIdOf value).bind session.takeActive).or (session.takePending (laneOf value))

/-- A terminal event. -/
def terminal (account : Account) (now : Instant) (value : Value) : Account :=
  match terminated account.session value with
  | none => account
  | some (request, session) =>
    let request := { request with model := (reportedModel value).or request.model }
    let status := terminalStatus (kindOf value)
    { account with session }.finish now request (usageFromWireValue value) status
      (some (isSuccess status)) false

/-- The request that an error finishes. -/
def failed (session : SessionUsage) (value : Value) : Option (ResponseUsage × SessionUsage) :=
  ((responseIdOf value).bind session.takeActive).or
    (if (session.front (laneOf value)).isSome then session.takePending (laneOf value)
    else (session.active.find? fun entry => entry.2.streamId = laneOf value).bind fun entry =>
      session.takeActive entry.1)

/-- An error. -/
def error (account : Account) (now : Instant) (value : Value) : Account :=
  match failed account.session value with
  | none => account
  | some (request, session) =>
    { account with session }.finish now request noUsage (errorStatus value) (some false) false

/-- `server_event`. -/
def serverEvent (account : Account) (now : Instant) (value : Value) : Account :=
  let kind := kindOf value
  let account := { account with session := account.session.observe value }
  if kind = "response.created" ∨ kind = "response.in_progress" then account.created value
  else if isDelta kind then account.delta now value
  else if isTerminal kind then account.terminal now value
  else if kind = "error" then account.error now value
  else account

/-- `disconnected`. -/
def disconnected (account : Account) (now : Instant) (upstreamFailed : Bool) : Account :=
  let unfinished := account.session.active.map Prod.snd ++ account.session.pending
  let cleared := { account with session := { account.session with active := [], pending := [] } }
  unfinished.foldl (fun account request =>
    account.finish now request noUsage 502 (if upstreamFailed then some false else none) true) cleared

end Account
end Aipass.Accounting
