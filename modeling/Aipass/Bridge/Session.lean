import Aipass.Base.Result
import Aipass.Conversion.Protocol
import Aipass.Values

/-!
# The session of a bridged WebSocket

A connection carries lanes, named by the stream of an event. Requests wait in one queue and run one
a lane; the latest completed response of each lane is cached with its history. A request names the
response it goes on from, and what is sent for it is the history of that response and its own
input. State that only one provider can read binds a request to a target.
-/
namespace Aipass.Bridge

/-- `MAX_LANES`. -/
def maxLanes : ℕ := 32

/-- `MAX_ACTIVE`. -/
def maxActive : ℕ := 16

/-- `MAX_QUEUED`. -/
def maxQueued : ℕ := 128

/-- `MAX_SESSION_BYTES`. -/
def maxSessionBytes : ℕ := 64 * 1024 * 1024

/-- `QueuedRequest`. -/
structure Queued where
  lane : String
  value : Value
  bytes : ℕ
deriving DecidableEq

/-- `CachedResponse`; its history is a JSON text. -/
structure Cached where
  id : String
  history : String
  boundTarget : Option Uuid
  originTarget : Option Uuid
deriving DecidableEq

/-- `PreparedRequest`. -/
structure Prepared where
  body : Value
  history : List Value
  generate : Bool
  boundTarget : Option Uuid
  originTarget : Option Uuid

/-- `Session`. The cache has an entry for a lane at most. -/
structure Session where
  lanes : List String := []
  queue : List Queued := []
  queuedBytes : ℕ := 0
  active : List String := []
  cache : List (String × Cached) := []

/-- `BridgeError`. -/
structure BridgeError where
  status : ℕ
  code : String
  message : String
deriving DecidableEq

namespace BridgeError

/-- `BridgeError::invalid`. -/
def invalid (code message : String) : BridgeError := ⟨400, code, message⟩

/-- `BridgeError::upstream`. -/
def upstream : BridgeError :=
  ⟨502, "upstream_error", "upstream stream failed before response completion"⟩

end BridgeError

/-- `with_lane`. -/
def withLane (value : Value) (lane : String) : Value :=
  if lane = "" then value else value.set "stream_id" lane

/-- `BridgeError::event`. -/
def BridgeError.event (error : BridgeError) (lane : String) : Value :=
  withLane (.obj [("type", "error"), ("status", .nat error.status), ("error", .obj [
    ("type", if 500 ≤ error.status && error.status < 600 then "server_error"
      else "invalid_request_error"),
    ("code", error.code), ("message", error.message)])]) lane

/-- `str::ends_with`. -/
def endsWith (text suffix : String) : Bool :=
  (Text.stripPrefix suffix.toList.reverse text.toList.reverse).isSome

/-- The bytes a stream may be named with. -/
def laneByte (letter : Char) : Bool := letter.isAlphanum || ['_', '.', '-'].contains letter

/-- The lane of an event. -/
def laneOf (value : Value) : Except BridgeError String :=
  match value.get "stream_id" with
  | none => pure ""
  | some (.string lane) =>
    if lane ≠ "" && lane.utf8ByteSize ≤ 256 && lane.toList.all laneByte then pure lane
    else throw (.invalid "invalid_stream_id" "invalid stream_id")
  | some _ => throw (.invalid "invalid_stream_id" "invalid stream_id")

mutual

/-- `has_provider_state`. -/
def hasProviderState : Value → Bool
  | .object fields =>
    (Value.lookup "encrypted_content" fields).any Value.present ||
      (Value.lookup "file_id" fields).isSome ||
      ((Value.lookup "type" fields).bind Value.asStr) = some "item_reference" ||
      anyFieldState fields
  | .array items => anyState items
  | _ => false

/-- Whether an item has provider state. -/
def anyState : List Value → Bool
  | [] => false
  | item :: rest => hasProviderState item || anyState rest

/-- Whether a field has provider state. -/
def anyFieldState : List (String × Value) → Bool
  | [] => false
  | (_, value) :: rest => hasProviderState value || anyFieldState rest

end

/-- `validate_tool_history`, with the calls seen. -/
def validateFrom : List String → List Value → Except BridgeError Unit
  | _, [] => pure ()
  | calls, item :: rest =>
    let kind := (item.field "type").asStr.getD ""
    let id := (item.field "call_id").asStr
    if endsWith kind "_call" then validateFrom (id.toList ++ calls) rest
    else if endsWith kind "_call_output" && !id.any calls.contains then
      throw (.invalid "previous_response_not_found"
        "tool result has no matching call in this connection's history; resend full input")
    else validateFrom calls rest

/-- `validate_tool_history`. -/
def validateToolHistory (history : List Value) : Except BridgeError Unit := validateFrom [] history

/-- The input of a request. -/
def inputOf (value : Value) : Except BridgeError (List Value) :=
  match value.get "input" with
  | none => pure []
  | some (.string text) =>
    pure [.obj [("type", "message"), ("role", "user"), ("content", text)]]
  | some (.array items) => pure items
  | some _ => throw (.invalid "invalid_request" "input must be a string or array")

/-- Whether a request is to generate. -/
def generateOf (value : Value) : Except BridgeError Bool :=
  match value.get "generate" with
  | none | some (.bool true) => pure true
  | some (.bool false) => pure false
  | some _ => throw (.invalid "invalid_request" "generate must be a boolean")

namespace Session

/-- `enqueue`. -/
def enqueue (session : Session) (value : Value) (bytes : ℕ) : Except BridgeError Session := do
  refuseIf (value.field "type" ≠ "response.create")
    (.invalid "unsupported_event" "conversion supports response.create events only")
  let lane ← laneOf value
  refuseIf (lane ≠ "" && !session.lanes.contains lane && maxLanes ≤ session.lanes.length)
    (.invalid "websocket_stream_limit_reached"
      "at most 32 named streams are allowed per connection")
  refuseIf (maxQueued ≤ session.queue.length || maxSessionBytes < session.queuedBytes + bytes)
    (.invalid "websocket_queue_full" "WebSocket request queue is full")
  pure { session with
    lanes := if lane ≠ "" && !session.lanes.contains lane then session.lanes ++ [lane]
      else session.lanes
    queuedBytes := session.queuedBytes + bytes
    queue := session.queue ++ [⟨lane, value, bytes⟩] }

/-- The first request whose lane is not active, and the others. -/
def takeFree (active : List String) : List Queued → Option (Queued × List Queued)
  | [] => none
  | request :: rest =>
    if active.contains request.lane then
      (takeFree active rest).map fun taken => (taken.1, request :: taken.2)
    else some (request, rest)

/-- `next`. -/
def next (session : Session) : Option (Queued × Session) :=
  if maxActive ≤ session.active.length then none
  else (takeFree session.active session.queue).map fun taken => (taken.1,
    { session with queue := taken.2, queuedBytes := session.queuedBytes - taken.1.bytes })

/-- The cached response of a lane. -/
def cached (session : Session) (lane : String) : Option Cached :=
  (session.cache.find? fun entry => entry.1 = lane).map Prod.snd

/-- The cache without the response of a lane. -/
def forget (session : Session) (lane : String) : Session :=
  { session with cache := session.cache.filter fun entry => entry.1 ≠ lane }

/-- The cached response a request goes on from, with its lane. -/
def parent (session : Session) (value : Value) : Except BridgeError (Option (String × Cached)) :=
  match value.get "previous_response_id" with
  | none | some .null => pure none
  | some (.string id) =>
    (okOr (.invalid "previous_response_not_found"
      "previous response is not cached on this connection; resend full input")
      (session.cache.find? fun entry => entry.2.id = id)).map some
  | some _ => throw (.invalid "invalid_request" "previous_response_id must be a string or null")

/-- The history of the response a request goes on from, read back from its text. -/
def historyOf (serde : SerdeJson) : Option (String × Cached) → Except BridgeError (List Value)
  | none => pure []
  | some (_, cached) =>
    match serde.parse cached.history.toList with
    | .ok (.array items) => pure items
    | _ => throw .upstream

/-- The target a request with the given history is bound to, and its origin. -/
def bindTarget (session : Session) (lane : String) (history : List Value)
    (boundTarget originTarget : Option Uuid) :
    Except BridgeError (Option Uuid × Option Uuid) :=
  if boundTarget.isNone && anyState history then
    let origin := originTarget.or ((session.cached lane).bind Cached.originTarget)
    if origin.isNone then
      throw (.invalid "previous_response_not_found"
        "provider-bound input has no origin on this connection; use native Responses mode or resend portable input")
    else pure (origin, origin)
  else pure (boundTarget, originTarget)

/-- The request that is sent for a history. -/
def bodyOf (value : Value) (history : List Value) : Value :=
  (((["generate", "previous_response_id", "input", "type", "stream_id", "background"].foldl
    Value.remove value).set "stream" (.bool true)).set "input" (.array history))

/-- `prepare`. -/
def prepare (session : Session) (serde : SerdeJson) (value : Value) :
    Except BridgeError Prepared := do
  let _ ← okOr (.invalid "invalid_request" "request must be an object") value.asObject
  refuseIf (["background", "conversation", "context_management"].any fun key =>
      (value.get key).any fun held => held ≠ .null && held ≠ .bool false)
    (.invalid "unsupported_parameter"
      "background, conversation and context_management require native Responses mode")
  let generate ← generateOf value
  let parent ← session.parent value
  let before ← historyOf serde parent
  let input ← inputOf value
  let history := before ++ input
  validateToolHistory history
  let (boundTarget, originTarget) ← session.bindTarget ((value.field "stream_id").asStr.getD "")
    history (parent.bind fun entry => entry.2.boundTarget)
    (parent.bind fun entry => entry.2.originTarget)
  pure ⟨bodyOf value history, history, generate, boundTarget, originTarget⟩

/-- The bytes of the cached histories. -/
def cacheBytes (cache : List (String × Cached)) : ℕ :=
  (cache.map fun entry => entry.2.history.utf8ByteSize).sum

/-- `remember`. -/
def remember (session : Session) (lane : String) (cached : Cached) : Session :=
  let session := session.forget lane
  if maxSessionBytes < cacheBytes session.cache + cached.history.utf8ByteSize then session
  else { session with cache := session.cache ++ [(lane, cached)] }

/-- `failed`. -/
def failed (session : Session) (lane : String) (previousId : Option String) : Session :=
  if (session.cached lane).any fun cached => some cached.id = previousId then session.forget lane
  else session

end Session
end Aipass.Bridge
