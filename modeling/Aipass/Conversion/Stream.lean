import Aipass.Conversion.ChatMessages
import Aipass.Conversion.MessagesToResponses
import Aipass.Conversion.ResponsesToChat

/-!
# The stream converter

One converter serves one upstream stream. It takes one server-sent event at a time and returns
the events to pass on; at the end of the stream it is asked to finish. The first error ends a
run. Responses streams reach Anthropic by way of Chat Completions: every chunk the first
converter puts out is fed to the second as text.
-/
namespace Aipass.Conversion

/-- `RsToAm`. -/
structure RsToAm where
  chat : ResponsesToChat := {}
  anthropic : CcToAm := {}

namespace RsToAm

/-- The loop that feeds chunks to the second converter. -/
def feed (serde : SerdeJson) : Emitting CcToAm → List Frame →
    Except ConversionError (Emitting CcToAm)
  | run, [] => .ok run
  | run, event :: rest => do
    let next ← CcToAm.push serde run.self (event.text serde)
    feed serde { self := next.self, out := run.out ++ next.out } rest

/-- `push`. -/
def push (serde : SerdeJson) (self : RsToAm) (reading : Reading) (raw : List Char) :
    Except ConversionError (Emitting RsToAm) := do
  let chat ← ResponsesToChat.push serde self.chat reading raw
  let run ← feed serde { self := self.anthropic } chat.out
  .ok { self := { chat := chat.self, anthropic := run.self }, out := run.out }

/-- `finish`. -/
def finish (serde : SerdeJson) (self : RsToAm) : Except ConversionError (Emitting RsToAm) := do
  let chat ← ResponsesToChat.finish self.chat
  let run ← feed serde { self := self.anthropic } chat.out
  let last ← CcToAm.finish serde run.self
  .ok { self := { chat := chat.self, anthropic := last.self }, out := run.out ++ last.out }

end RsToAm

/-- `StreamState`, which a `StreamConverter` wraps. -/
inductive StreamConverter
  | passthrough (protocol : ProxyProtocol) (done : Bool)
  | ccToAm (state : CcToAm)
  | amToCc (state : AmToCc)
  | rsToAm (state : RsToAm)
  | amToRs (state : AmToRs)
  | ccToRs (state : ChatToResponses)
  | rsToCc (state : ResponsesToChat)

namespace StreamConverter

/-- `StreamConverter::new`. -/
def new (source target : ProxyProtocol) : Except ConversionError StreamConverter :=
  if source = target then .ok (passthrough source false)
  else
    match source, target with
    | CC, AM => .ok (ccToAm {})
    | AM, CC => .ok (amToCc {})
    | RS, AM => .ok (rsToAm {})
    | AM, RS => .ok (amToRs {})
    | CC, RS => .ok (ccToRs {})
    | RS, CC => .ok (rsToCc {})
    | _, _ => .error (.unsupported source target)

/-- Whether a native event completes its stream. -/
def completes (protocol : ProxyProtocol) (value : Value) : Bool :=
  match protocol with
  | AM => (value.field "type").asStr = some "message_stop"
  | RS => (value.field "type").asStr = some "response.completed" ∨
      (value.field "type").asStr = some "response.incomplete"
  | CC => match (value.field "choices").asArray with
    | some choices =>
      choices ≠ [] ∧ choices.all fun choice => (choice.field "finish_reason").present
    | none => false

/-- The check of a native event: whether the stream is complete after it. -/
def pass (serde : SerdeJson) (protocol : ProxyProtocol) (done : Bool) (raw : List Char) :
    Except ConversionError Bool := do
  let parsed ← parseSse raw
  if parsed.data = [] ∨ parsed.data = "[DONE]".toList then .ok done
  else
    let value ← (serde.parse parsed.data).mapError fun _ =>
      invalid protocol "invalid native stream event"
    if (value.get "error").isSome ∨ (value.field "type").asStr = some "error" ∨
        (value.field "type").asStr = some "response.failed" then
      .error (invalid protocol "upstream generation failed")
    else .ok (done || completes protocol value)

/-- The state and the events of a call, under the state's tag. -/
def tagged {σ : Type} (tag : σ → StreamConverter) (run : Emitting σ) :
    StreamConverter × List Frame := (tag run.self, run.out)

/-- A call that returns a run with the state tagged returns that run. -/
theorem map_tagged {σ : Type} {tag : σ → StreamConverter}
    {result : Except ConversionError (Emitting σ)} {next : StreamConverter} {out : List Frame}
    (passes : result.map (tagged tag) = .ok (next, out)) :
    ∃ run, result = .ok run ∧ next = tag run.self ∧ out = run.out := by
  cases result with
  | error error => cases passes
  | ok run =>
    cases passes
    exact ⟨run, rfl, rfl, rfl⟩

/-- `push_event`. -/
def pushEvent (serde : SerdeJson) (reading : Reading) (raw : List Char) :
    StreamConverter → Except ConversionError (StreamConverter × List Frame)
  | passthrough protocol done =>
    (pass serde protocol done raw).map fun done => (passthrough protocol done, [.raw raw])
  | ccToAm state => (state.push serde raw).map (tagged ccToAm)
  | amToCc state => (state.push serde reading raw).map (tagged amToCc)
  | rsToAm state => (state.push serde reading raw).map (tagged rsToAm)
  | amToRs state => (state.push serde reading raw).map (tagged amToRs)
  | ccToRs state => (state.push serde reading raw).map (tagged ccToRs)
  | rsToCc state => (state.push serde reading raw).map (tagged rsToCc)

/-- `finish`. -/
def finish (serde : SerdeJson) :
    StreamConverter → Except ConversionError (StreamConverter × List Frame)
  | passthrough protocol done =>
    if done then .ok (passthrough protocol done, [])
    else .error (invalid protocol "native stream ended before completion")
  | ccToRs state => state.finish.map (tagged ccToRs)
  | rsToCc state => state.finish.map (tagged rsToCc)
  | ccToAm state => (state.finish serde).map (tagged ccToAm)
  | rsToAm state => (state.finish serde).map (tagged rsToAm)
  | amToCc state =>
    if state.done then .ok (amToCc state, [])
    else .error (invalid AM "stream ended before message_stop")
  | amToRs state =>
    if state.terminated then .ok (amToRs state, [])
    else .error (invalid AM "stream ended before message_stop")

/-- The calls of a run up to its first error, each with the upstream event it was given and the
frames it returned; `finishing` tells whether the stream is finished after its last event. -/
def calls (serde : SerdeJson) (finishing : Bool) :
    StreamConverter → List (Reading × List Char) → List (List Char × List Frame)
  | converter, [] =>
    if finishing then
      match converter.finish serde with
      | .ok (_, out) => [([], out)]
      | .error _ => []
    else []
  | converter, (reading, raw) :: rest =>
    match converter.pushEvent serde reading raw with
    | .ok (next, out) => (raw, out) :: calls serde finishing next rest
    | .error _ => []

end StreamConverter

/-- A clock that stands still, and one identifier. -/
def Sample.reading : Reading := ⟨1700000000, fun _ => "unique"⟩

end Aipass.Conversion
