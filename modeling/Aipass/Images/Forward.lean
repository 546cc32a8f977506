import Aipass.Accounting.SessionUsage
import Aipass.Images.Relay
import Aipass.Server.Config

/-!
# Forwarding an image request

An image request is tried on the targets of its route, one after the other, until one attempt has a
result or leaves open what has become of the request. While no target has room it may hold and look
again. Every attempt leaves a record when it is dropped; the last one also counts the request. What
the targets, the clock and the client do is given. Times and what is logged are left out.
-/
namespace Aipass.Images

open Accounting (isSuccess statusAffectsCircuit)
open Conversion (ProxyProtocol)
open Proxy (maxBufferedResponseBytes)
open Server (ProxyRouteConfig ProxyTargetConfig)
open Websocket (StatusCode)

/-! ## What is given -/

/-- What an attempt waits for. -/
inductive Stage
  | preparing
  | sending
  /-- The body of an answer without success. -/
  | refused (status : StatusCode)

/-- What becomes of an attempt. -/
inductive Answer
  /-- The request cannot be put together for the target. -/
  | unprepared
  /-- There is no connection: `is_connect`. -/
  | unreachable
  /-- Any other error of sending. -/
  | lost
  /-- A status, whether the content is a stream of events, and what arrives then. -/
  | answered (status : StatusCode) (eventStream : Bool) (arrivals : List Arrival)
  /-- The client leaves. -/
  | left (stage : Stage)

/-- What happens when the turn of a target comes. -/
inductive Turn
  /-- It has been learned that the target does not support the request. -/
  | unsupported
  /-- `RecoveryPermit::acquire` gives no permit. -/
  | recovering
  /-- `ProviderPermit::acquire` gives no permit. -/
  | full
  | tried (answer : Answer)

/-- A target and its turn. -/
structure Candidate where
  target : ProxyTargetConfig
  turn : Turn

/-- What ends a hold. -/
inductive Hold
  | woke
  /-- The deadline has passed. -/
  | expired
  | reconfigured
  /-- The client leaves. -/
  | left
deriving DecidableEq

/-- The targets of a round, as `candidates` orders them, and the hold behind it. -/
structure Round where
  candidates : List Candidate
  hold : Hold

/-- `ForwardRequest`, with the model that its metadata names. -/
structure ForwardRequest where
  requestId : Uuid
  metadata : Except String (Option String)

/-! ## What is done -/

/-- `AttemptRecord`. -/
structure AttemptRecord where
  requestId : Uuid
  routeId : Uuid
  targetId : Uuid
  providerEntryId : Uuid
  secretId : String
  model : Option String
  status : Option StatusCode
  success : Option Bool

/-- `UsageRecord`; its tokens and costs are zero. -/
structure UsageRecord where
  id : Uuid
  routeId : Uuid
  providerEntryId : Uuid
  secretId : String
  model : Option String
  inboundProtocol : ProxyProtocol
  upstreamProtocol : ProxyProtocol
  status : StatusCode
  attempts : ℕ

/-- What a request does to the state of the proxy. -/
inductive Effect
  /-- `record_attempt`. -/
  | attempt (record : AttemptRecord)
  /-- `record_request`. -/
  | request (success : Bool)
  /-- `usage.record`. -/
  | usage (record : UsageRecord)
  /-- `Attempt::evidence`. -/
  | evidence (target : Uuid) (support : Support)
  | markFailure (target : Uuid)
  | completeTargetSuccess (target : Uuid)

/-- What the client gets. -/
inductive Reply
  | error (status : StatusCode) (message : String)
  | whole (status : StatusCode) (body : Bytes)
  | stream (status : StatusCode) (delivered : List Bytes) (closing : Option String)
  /-- Nothing, as the client has left. -/
  | nothing
deriving DecidableEq

/-- The reply to a request that holds while the configuration changes. -/
def Reply.reconfigured : Reply := .error 503 "proxy configuration changed"

/-! ## An attempt -/

/-- `Attempt`, as far as it differs between the attempts of a request. -/
structure Attempt where
  target : ProxyTargetConfig
  number : ℕ
  status : Option StatusCode := none
  outcome : Option Bool := none
  recordRequest : Bool := false

section Request

variable (request : ForwardRequest) (route : ProxyRouteConfig) (model : Option String)

/-- The record of an attempt. -/
def Attempt.record (attempt : Attempt) : AttemptRecord where
  requestId := request.requestId
  routeId := route.id
  targetId := attempt.target.id
  providerEntryId := attempt.target.providerEntryId
  secretId := attempt.target.secretId
  model := model
  status := attempt.status
  success := attempt.outcome

/-- The record of a request by its last attempt. -/
def Attempt.usage (attempt : Attempt) : UsageRecord where
  id := request.requestId
  routeId := route.id
  providerEntryId := attempt.target.providerEntryId
  secretId := attempt.target.secretId
  model := model
  inboundProtocol := route.inboundProtocol
  upstreamProtocol := attempt.target.protocol.getD route.upstreamProtocol
  status := if attempt.outcome = some true then attempt.status.getD 200 else 502
  attempts := attempt.number

/-- `Drop for Attempt`. -/
def Attempt.drop (attempt : Attempt) : List Effect :=
  .attempt (attempt.record request route model) ::
    if attempt.recordRequest then
      (attempt.outcome.map Effect.request).toList ++ [.usage (attempt.usage request route model)]
    else []

end Request

/-- The most bytes of a refusal that are read. -/
def errorBodyLimit : ℕ := 16 * 1024

/-- `error_body`: what has arrived of the body when it ends, breaks off or its second is over. -/
def errorBody (held : Bytes) : List Arrival → Bytes
  | .chunk bytes _ :: rest =>
    let held := held ++ bytes.take (errorBodyLimit - held.length)
    if errorBodyLimit ≤ held.length then held else errorBody held rest
  | _ => held

/-- `collect_upstream_body`; it does not return if the client leaves. -/
def collectUpstreamBody (held : Bytes) (arrivals : List Arrival) : Option (Option Bytes) :=
  if maxBufferedResponseBytes < held.length then some none
  else
    match arrivals with
    | .chunk bytes _ :: rest => collectUpstreamBody (held ++ bytes) rest
    | .ended :: _ => some (some held)
    | .broken :: _ => some none
    | [] | .interrupted :: _ => none

/-- How the loop over the targets goes on behind an attempt. -/
inductive Next
  | again
  | stop
  | done (reply : Reply)

/-- What comes of an attempt. -/
structure Tried where
  attempt : Attempt
  effects : List Effect
  next : Next

/-- The statuses of an answer that has not been executed. -/
def rejectingStatuses : List StatusCode := [400, 401, 403, 404, 405, 422, 429]

section Reading

-- `serde_json::from_slice`, if it succeeds, of a value and of an image response
variable (fromSlice : Bytes → Option Value) (readResponse : Bytes → Option ImageResponse)
variable (operation : Operation)

namespace Attempt

/-- An attempt has failed. -/
def fail (attempt : Attempt) : Attempt := { attempt with outcome := some false }

/-- An attempt whose answer is not a success. -/
def refuse (attempt : Attempt) (status : StatusCode) (arrivals : List Arrival) : Tried :=
  let unavailable := isUnsupported fromSlice status (errorBody [] arrivals)
  { attempt := attempt.fail
    effects :=
      (if unavailable then [.evidence attempt.target.id .unsupported] else []) ++
        if !unavailable && statusAffectsCircuit status then [.markFailure attempt.target.id] else []
    -- only an explicit rejection before the execution permits a replay
    next := if unavailable || rejectingStatuses.contains status then .again else .stop }

/-- What a relay does to the state of the proxy. -/
def relayEffects (target : Uuid) (relayed : Relayed) : List Effect :=
  (relayed.evidence.map (Effect.evidence target)).toList ++
    (if relayed.succeeded then [.completeTargetSuccess target] else []) ++
      if relayed.markedFailure then [.markFailure target] else []

/-- An attempt whose answer is a stream of events. -/
def stream (attempt : Attempt) (status : StatusCode) (arrivals : List Arrival) : Tried :=
  let relayed := relay fromSlice readResponse { operation, streaming := true } arrivals
  { attempt := { attempt with recordRequest := true, outcome := relayed.outcome }
    effects := relayEffects attempt.target.id relayed
    next := .done (.stream status relayed.delivered relayed.closing) }

/-- An attempt whose answer has arrived whole. -/
def conclude (attempt : Attempt) (status : StatusCode) (buffered : Bytes) : Tried :=
  let observer : Observer := { operation, streaming := false }
  let pushed := observer.push fromSlice readResponse buffered
  let observed := (pushed.toOption.getD observer).finish fromSlice readResponse
  if !pushed.toBool || !observed.completed || observed.failed then
    { attempt := attempt.fail
      effects := if observed.unsupported then [.evidence attempt.target.id .unsupported] else []
      next := if observed.unsupported then .again else .stop }
  else
    { attempt := { attempt with outcome := some true, recordRequest := true }
      effects := [.evidence attempt.target.id .supported, .completeTargetSuccess attempt.target.id]
      next := .done (.whole status buffered) }

/-- An attempt is made. -/
def run (attempt : Attempt) : Answer → Tried
  | .unprepared => { attempt := attempt.fail, effects := [], next := .again }
  | .unreachable =>
    { attempt := attempt.fail, effects := [.markFailure attempt.target.id], next := .again }
  -- a lost response may already have generated and billed
  | .lost => { attempt := attempt.fail, effects := [.markFailure attempt.target.id], next := .stop }
  | .left (.refused status) =>
    { attempt := { attempt with status := some status }, effects := [], next := .done .nothing }
  | .left _ => { attempt, effects := [], next := .done .nothing }
  | .answered status eventStream arrivals =>
    let attempt := { attempt with status := some status }
    if !isSuccess status then attempt.refuse fromSlice status arrivals
    else if eventStream then attempt.stream fromSlice readResponse operation status arrivals
    else
      match collectUpstreamBody [] arrivals with
      | none => { attempt, effects := [], next := .done .nothing }
      | some none => { attempt := attempt.fail, effects := [], next := .stop }
      | some (some buffered) => attempt.conclude fromSlice readResponse operation status buffered

end Attempt

/-! ## The loop -/

/-- The loop of `forward`. -/
structure Forwarding where
  attempts : ℕ := 0
  capacitySkipped : Bool := false
  finalAttempt : Option Attempt := none
  /-- What has been done, in order. -/
  effects : List Effect := []
  /-- The attempts that have been made, and what became of them. -/
  made : List (ProxyTargetConfig × Answer) := []

variable (request : ForwardRequest) (route : ProxyRouteConfig) (model : Option String)

namespace Forwarding

/-- The last failed attempt is dropped. -/
def dropFinal (loop : Forwarding) : Forwarding :=
  { loop with
    finalAttempt := none
    effects := loop.effects ++ loop.finalAttempt.toList.flatMap (Attempt.drop request route model) }

/-- A target is tried. -/
def tryTarget (loop : Forwarding) (target : ProxyTargetConfig) (answer : Answer) :
    Forwarding × Next :=
  let earlier := loop.dropFinal request route model
  let attempt : Attempt := { target, number := loop.attempts + 1 }
  let tried := attempt.run fromSlice readResponse operation answer
  let tried_ := { earlier with
    attempts := loop.attempts + 1
    effects := earlier.effects ++ tried.effects
    made := loop.made ++ [(target, answer)] }
  match tried.next with
  | .done reply =>
    ({ tried_ with effects := tried_.effects ++ tried.attempt.drop request route model },
      .done reply)
  | next => ({ tried_ with finalAttempt := some tried.attempt }, next)

/-- The limit on the attempts. -/
def attemptLimit : ℕ := max route.retry.maxAttempts.toNat 1

/-- The loop over the targets of a round: what it leaves, and the reply if there is one. -/
def tryAll (loop : Forwarding) : List Candidate → Forwarding × Option Reply
  | [] => (loop, none)
  | candidate :: rest =>
    if attemptLimit route ≤ loop.attempts then (loop, none)
    else
      match candidate.turn with
      | .unsupported | .recovering => tryAll loop rest
      | .full => tryAll { loop with capacitySkipped := true } rest
      | .tried answer =>
        match loop.tryTarget fromSlice readResponse operation request route model candidate.target
          answer with
        | (loop, .again) => tryAll loop rest
        | (loop, .stop) => (loop, none)
        | (loop, .done reply) => (loop, some reply)

/-- What is done behind the loop. -/
def finish (loop : Forwarding) : Forwarding × Option Reply :=
  let counted : Forwarding :=
    match loop.finalAttempt with
    | some attempt =>
      { loop with finalAttempt := some { attempt with recordRequest := true } }.dropFinal
        request route model
    | none => { loop with effects := loop.effects ++ [.request false] }
  (counted, some <|
    if loop.capacitySkipped && loop.attempts = 0 then
      .error 429 "all available providers are at their concurrency limit"
    else
      .error 502 ("image request failed; no usable upstream result " ++
        "(ambiguous submissions are not replayed)"))

/-- The loop over the rounds; where the rounds end, the request is still on hold. -/
def rounds (loop : Forwarding) : List Round → Forwarding × Option Reply
  | [] => (loop, none)
  | round :: later =>
    match loop.tryAll fromSlice readResponse operation request route model round.candidates with
    | (loop, some reply) => (loop, some reply)
    | (loop, none) =>
      -- it waits only when nothing was submitted
      if loop.attempts > 0 || !loop.capacitySkipped || !route.retry.holdOnFailure then
        loop.finish request route model
      else
        match round.hold with
        | .expired => loop.finish request route model
        | .reconfigured => (loop.dropFinal request route model, some .reconfigured)
        | .left => (loop.dropFinal request route model, some .nothing)
        | .woke => rounds { loop with capacitySkipped := false } later

end Forwarding

/-- `forward`, from its first round. -/
def forward (first : Round) (later : List Round) : Forwarding × Option Reply :=
  match request.metadata with
  | .error message => ({}, some (.error 400 message))
  | .ok model =>
    if first.candidates.isEmpty then
      ({ effects := [.request false] }, some (.error 503
        ("no eligible provider for this Images API request; " ++
          "providers are disabled, unavailable, or known not to support it")))
    else
      ({} : Forwarding).rounds fromSlice readResponse operation request route model (first :: later)

end Reading

end Aipass.Images
