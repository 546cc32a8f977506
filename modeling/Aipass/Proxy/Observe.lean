import Aipass.Proxy.Affinity
import Aipass.Proxy.Framing

/-!
# Observing an upstream stream

While a stream is passed on, its complete events are read for the tokens they report and for
signals: whether the stream is complete, whether it is over, whether it has failed. An event that
grows beyond a limit before it is complete is forgotten. When the stream ends the tokens are
recorded and the success or failure of the target is reported.
-/
namespace Aipass.Proxy

open Conversion

/-- `slice::split` at line feeds. -/
def splitLines : Bytes → List Bytes
  | [] => [[]]
  | byte :: rest =>
    if byte = 0x0A then [] :: splitLines rest
    else match splitLines rest with
      | line :: lines => (byte :: line) :: lines
      | [] => [[byte]]

/-- `strip_prefix` of bytes. -/
def stripBytes (start : Bytes) (bytes : Bytes) : Option Bytes :=
  if start.isPrefixOf bytes then some (bytes.drop start.length) else none

/-- A line without its carriage return. -/
def stripReturn (line : Bytes) : Bytes :=
  if line.getLast? = some 0x0D then line.dropLast else line

/-- `u8::is_ascii_whitespace`. -/
def isAsciiWhitespace (byte : UInt8) : Bool :=
  byte = 0x20 ∨ byte = 0x09 ∨ byte = 0x0A ∨ byte = 0x0C ∨ byte = 0x0D

/-- `trim_ascii`. -/
def trimAscii (bytes : Bytes) : Bytes :=
  ((bytes.dropWhile isAsciiWhitespace).reverse.dropWhile isAsciiWhitespace).reverse

/-- `u8::to_ascii_lowercase`. -/
def toAsciiLowercase (byte : UInt8) : UInt8 :=
  if 0x41 ≤ byte ∧ byte ≤ 0x5A then byte + 0x20 else byte

/-- A byte string. -/
def ascii (text : String) : Bytes := text.toList.map fun char => UInt8.ofNat char.toNat

/-- `sse_event_name`. -/
def sseEventName (event : Bytes) : Option Bytes :=
  (splitLines event).findSome? fun line =>
    (stripBytes (ascii "event:") (stripReturn line)).map trimAscii

/-- The value of a `data` line. -/
def dataLine (line : Bytes) : Option Bytes :=
  if line = ascii "data" then some []
  else (stripBytes (ascii "data:") line).map fun value =>
    (stripBytes (ascii " ") value).getD value

/-- `sse_event_data`. -/
def sseEventData (event : Bytes) : Option Bytes :=
  match (splitLines event).filterMap fun line => dataLine (stripReturn line) with
  | [] => none
  | first :: rest => some (rest.foldl (fun data value => data ++ 0x0A :: value) first)

section Events

-- `serde_json::from_slice`, if it succeeds
variable (fromSlice : Bytes → Option Value)

/-- `str::ends_with`. -/
def endsWith (text ending : String) : Bool := ending.toList.isSuffixOf text.toList

/-- `is_upstream_error_payload`. -/
def isUpstreamErrorPayload (bytes : Bytes) : Bool :=
  (fromSlice bytes).any fun value =>
    (value.get "error").any Value.present ||
      ((value.get "type").bind Value.asStr).any
        (fun kind => kind = "error" || endsWith kind ".failed") ||
      (value.get "status").bind Value.asStr == some "failed" ||
      (value.pointer ["response", "error"]).any Value.present ||
      (value.pointer ["response", "status"]).bind Value.asStr == some "failed"

/-- `sse_event_reports_error`. -/
def sseEventReportsError (event : Bytes) : Bool :=
  (sseEventName event).any (fun name =>
      name.map toAsciiLowercase = ascii "error" || (ascii ".failed").isSuffixOf name) ||
    (sseEventData event).any (isUpstreamErrorPayload fromSlice)

/-- `sse_event_reports_completion`. -/
def sseEventReportsCompletion (protocol : ProxyProtocol) (event : Bytes) : Bool :=
  match sseEventData event with
  | none => false
  | some data =>
    if data = ascii "[DONE]" ∧ protocol ≠ AM then true
    else match fromSlice data with
      | none => false
      | some value =>
        match protocol with
        | RS =>
          ((value.get "type").bind Value.asStr).any
              (fun kind => kind = "response.completed" || kind = "response.incomplete") ||
            ((value.pointer ["response", "status"]).bind Value.asStr).any
              (fun status => status = "completed" || status = "incomplete")
        | CC =>
          ((value.get "choices").bind Value.asArray).any fun choices =>
            !choices.isEmpty &&
              choices.all fun choice => (choice.get "finish_reason").any Value.present
        | AM => (value.get "type").bind Value.asStr == some "message_stop"

/-- `sse_event_is_terminal`. -/
def sseEventIsTerminal (protocol : ProxyProtocol) (event : Bytes) : Bool :=
  match sseEventData event with
  | none => false
  | some data =>
    if protocol = CC then trimAscii data == ascii "[DONE]"
    else sseEventReportsCompletion fromSlice protocol event

/-- `SseSignals`. -/
structure SseSignals where
  responseId : Option String := none
  completed : Bool := false
  terminal : Bool := false
  failed : Bool := false
deriving DecidableEq

/-- `USAGE_EVENT_BUFFER_LIMIT`. -/
def usageEventBufferLimit : ℕ := 1024 * 1024

/-- What the events so far have shown. -/
structure Observed where
  usage : UsageAccumulator := {}
  signals : SseSignals := {}

variable (protocol : ProxyProtocol)

/-- One event of the loop of `observe_sse_usage_traced`. -/
def Observed.event (held : Observed) (event : Bytes) : Observed :=
  let signals := { held.signals with
    failed := held.signals.failed || sseEventReportsError fromSlice event
    completed := held.signals.completed || sseEventReportsCompletion fromSlice protocol event
    terminal := held.signals.terminal || sseEventIsTerminal fromSlice protocol event }
  match (sseEventData event).bind fromSlice with
  | none => { held with signals }
  | some value =>
    let id :=
      if protocol = RS then
        ((value.pointer ["response", "id"]).bind Value.asStr).bind normalizeSessionAffinityKey
      else none
    { usage := held.usage.observe protocol value
      signals := { signals with responseId := id.or signals.responseId } }

/-- `observe_sse_usage_traced`, without the trace: the buffer, the usage and the signals after a
chunk. -/
def observeSseUsageTraced (buffer chunk : Bytes) (usage : UsageAccumulator) : Bytes × Observed :=
  let (events, left) := splitEvents (buffer ++ chunk)
  let observed := events.foldl (Observed.event fromSlice protocol) { usage }
  (if usageEventBufferLimit < left.length then [] else left, observed)

/-- The signals of a chunk join those of the chunks before it. -/
def SseSignals.join (held chunk : SseSignals) : SseSignals where
  responseId := chunk.responseId.or held.responseId
  completed := held.completed || chunk.completed
  terminal := held.terminal || chunk.terminal
  failed := held.failed || chunk.failed

/-- A chunk is observed, and what it shows joins what is held. -/
def observeChunk (held : Bytes × Observed) (chunk : Bytes) : Bytes × Observed :=
  let (buffer, shown) := observeSseUsageTraced fromSlice protocol held.1 chunk held.2.usage
  (buffer, { usage := shown.usage, signals := held.2.signals.join shown.signals })

/-- `TokenUsage`. -/
structure TokenUsage where
  inputTokens : ℕ
  outputTokens : ℕ
  cacheReadTokens : ℕ
  cacheCreationTokens : ℕ
  cacheCreation1hTokens : ℕ

/-- `extract_usage`. -/
def extractUsage (payload : Value) : TokenUsage :=
  let usage := (payload.get "usage").getD payload
  match protocol with
  | AM =>
    { inputTokens := number (usage.get "input_tokens")
      outputTokens := number (usage.get "output_tokens")
      cacheReadTokens := number (usage.get "cache_read_input_tokens")
      cacheCreationTokens := number (usage.get "cache_creation_input_tokens")
      cacheCreation1hTokens :=
        min (number (usage.pointer ["cache_creation", "ephemeral_1h_input_tokens"]))
          (number (usage.get "cache_creation_input_tokens")) }
  | RS | CC =>
    let totalInput :=
      max (number (usage.get "input_tokens")) (number (usage.get "prompt_tokens"))
    let detail : String → ℕ := fun key =>
      max (number (usage.pointer ["input_tokens_details", key]))
        (number (usage.pointer ["prompt_tokens_details", key]))
    let cacheRead := detail "cached_tokens"
    let cacheCreation := detail "cache_creation_tokens"
    { inputTokens := totalInput - cacheRead - cacheCreation
      outputTokens :=
        max (number (usage.get "output_tokens")) (number (usage.get "completion_tokens"))
      cacheReadTokens := cacheRead
      cacheCreationTokens := cacheCreation
      cacheCreation1hTokens := min (detail "cache_creation_1h_tokens") cacheCreation }

/-- What is reported of the target of a stream. -/
inductive TargetReport
  /-- `complete_target_success`, with the last response. -/
  | success (responseId : Option String)
  /-- `mark_failure`. -/
  | failure

/-- What `track_usage_stream` records of a stream. -/
structure StreamReport where
  tokens : TokenUsage
  /-- The status of the record, from the status of the answer. -/
  status : ℕ → ℕ
  target : TargetReport

/-- What a streaming `track_usage_stream` records at the end. The upstream has ended unless a
signal or an error of the transport has ended the loop. -/
def report (sourceEnded transportFailed : Bool) (observed : Observed) : StreamReport :=
  let signals := observed.signals
  let succeeded :=
    (signals.terminal || (sourceEnded && signals.completed)) && !signals.failed &&
      !transportFailed
  { tokens := extractUsage protocol observed.usage.wire
    status := fun status => if succeeded then status else 502
    target := if succeeded then .success signals.responseId else .failure }

/-- The loop of a streaming `track_usage_stream` that nobody interrupts. -/
def trackUsageStream (held : Bytes × Observed) : List (Except String Bytes) → StreamReport
  | [] => report protocol true false held.2
  | .error _ :: _ => report protocol false true held.2
  | .ok chunk :: rest =>
    let next := observeChunk fromSlice protocol held chunk
    if next.2.signals.terminal || next.2.signals.failed then report protocol false false next.2
    else trackUsageStream next rest

end Events
end Aipass.Proxy
