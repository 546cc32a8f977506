import Aipass.Bridge.Session

/-!
# One response of a bridged WebSocket

The task that runs a response, one step for each place where it waits: it prepares a local
response or sends the request, gets its answer, and passes on the events of the stream until one of
them ends the response. What a task sends goes into the channel of the connection. Forwarding and
the upstream are arbitrary, except that an answer comes from a target the request was sent to.
-/
namespace Aipass.Bridge

/-- A target of the route, as far as the bridge reads it. -/
structure Target where
  id : Uuid
  enabled : Bool
deriving DecidableEq

/-- How a response ends: with a terminal event and what is cached of it, or with an error. -/
abbrev Ending := Except BridgeError (Value × Option Cached)

/-- Where a task waits. -/
inductive Phase
  /-- It has not run yet. -/
  | begun
  /-- It sends the events of a local response. -/
  | warm (events : List Value) (ending : Ending)
  /-- The request is sent. -/
  | waiting (targets : List Target)
  /-- The events of the answer of a target are read. -/
  | reading (identity : Option Uuid)
  /-- It has ended. -/
  | done (ending : Ending)

/-- `Output`. -/
inductive Output
  | event (lane : String) (value : Value)
  | finished (lane : String) (previousId : Option String) (ending : Ending)

/-- The lane of an output. -/
def Output.lane : Output → String
  | event lane _ => lane
  | finished lane _ _ => lane

/-- The lane of an event. -/
@[simp] theorem Output.lane_event (lane : String) (value : Value) :
    (Output.event lane value).lane = lane := rfl

/-- The lane of a response that has ended. -/
@[simp] theorem Output.lane_finished (lane : String) (previousId : Option String) (ending : Ending) :
    (Output.finished lane previousId ending).lane = lane := rfl

/-- `cache`. -/
def cache (serde : SerdeJson) (id : String) (history : List Value)
    (boundTarget originTarget : Option Uuid) : Option Cached :=
  let text := serde.print (.array history)
  if text.utf8ByteSize ≤ maxSessionBytes then some ⟨id, text, boundTarget, originTarget⟩ else none

/-- The response of a request that is not to generate. -/
def localResponse (id : String) (createdAt : ℕ) (model : Value) (status : String) : Value :=
  .obj [("id", id), ("object", "response"), ("created_at", .nat createdAt), ("status", status),
    ("model", model), ("output", .array []), ("usage", .obj [("input_tokens", .nat 0),
      ("output_tokens", .nat 0), ("total_tokens", .nat 0)])]

/-- An event of a local response. -/
def localEvent (kind : String) (sequence : ℕ) (response : Value) : Value :=
  .obj [("type", kind), ("sequence_number", .nat sequence), ("response", response)]

/-- The targets a request may be sent to. -/
def restrict (route : List Target) (boundTarget : Option Uuid) : List Target :=
  match boundTarget with
  | some target => route.filter fun held => held.id = target
  | none => route

/-- `run_response` until the request is sent. -/
def begin_ (serde : SerdeJson) (route : List Target) (id : String) (prepared : Prepared)
    (now : ℕ) : Phase :=
  if !prepared.generate then
    let created := localResponse id now (prepared.body.field "model") "in_progress"
    .warm [localEvent "response.created" 0 created, localEvent "response.in_progress" 1 created]
      (.ok (localEvent "response.completed" 2
          (localResponse id now (prepared.body.field "model") "completed"),
        cache serde id prepared.history prepared.boundTarget prepared.originTarget))
  else if maxSessionBytes < (serde.print prepared.body).utf8ByteSize then
    .done (.error (.invalid "context_too_large"
      "converted request exceeds the session context limit"))
  else
    let targets := restrict route prepared.boundTarget
    if prepared.boundTarget.isSome && !targets.any Target.enabled then
      .done (.error (.invalid "previous_response_not_found"
        "provider-bound context is unavailable; reconnect and resend full input"))
    else .waiting targets

/-- The error of an answer that is no success. -/
def answerError (status : ℕ) (atCapacity : Bool) : BridgeError :=
  if atCapacity then
    ⟨status, "provider_concurrency_limit", "all available providers are at their concurrency limit"⟩
  else ⟨status, "upstream_error", "converted upstream request failed"⟩

/-- The identifier of a response put in place of the upstream's. -/
def withId (id : String) (value : Value) : Value :=
  let value := if (value.get "response").any fun response => response.asObject.isSome then
    value.set "response" ((value.field "response").set "id" id) else value
  if (value.get "response_id").isSome then value.set "response_id" id else value

/-- The output items of a terminal event. -/
def outputOf (value : Value) : Option (List Value) :=
  (value.pointer ["response", "output"]).bind Value.asArray

/-- What an event of the stream leads to: it is passed on, or it ends the response. -/
def step (serde : SerdeJson) (id : String) (prepared : Prepared) (identity : Option Uuid)
    (value : Value) : Value ⊕ Ending :=
  if value.asObject.isNone then .inr (.error .upstream)
  else
    let value := withId id value
    match (value.field "type").asStr with
    | some "response.completed" | some "response.incomplete" =>
      match outputOf value with
      | none => .inr (.error .upstream)
      | some output =>
        let history := prepared.history ++ output
        let boundTarget := prepared.boundTarget.or (if anyState history then identity else none)
        .inr (.ok (value, cache serde id history boundTarget identity))
    | some "response.failed" | some "response.cancelled" | some "error" => .inr (.ok (value, none))
    | _ => .inl value

end Aipass.Bridge
