import Aipass.Providers.AwsFrames
import Aipass.Providers.Thinking
import Aipass.Server.Providers

/-!
# The stream of a Kiro reply

The messages of a Kiro reply become the events of an Anthropic stream: text and reasoning in blocks
of their own, calls of tools, and what the metadata report. An assistant's text goes through the
splitter of thinking tags where a thinking budget is set. The tokens that a percentage of the window
stands for are a parameter.
-/
namespace Aipass.Kiro

open Framed

/-- `KiroStream`. -/
structure KiroStream where
  /-- What has arrived of a message that is not whole. -/
  buffer : Bytes := []
  thinking : Thinking := {}
  budget : ℕ
  model : String
  id : String
  begun : Bool := false
  index : Int := -1
  open_ : String := ""
  toolId : String := ""
  toolArgs : String := ""
  tools : ℕ := 0
  metadata : Bool := false
  usage : Value := .obj [("input_tokens", .nat 0), ("output_tokens", .nat 0),
    ("cache_read_input_tokens", .nat 0), ("cache_creation_input_tokens", .nat 0)]
  stop : String := ""
  window : ℕ
  /-- The percentage reported last. -/
  pct : Option Number := none

/-- The JSON of an integer. -/
def int : Int → Value
  | .ofNat value => .nat value
  | .negSucc less => .number (.negative (less + 1))

/-- `event`: the data of an event of the stream. -/
def event (kind : String) (data : Value) : Value := data.set "type" (.string kind)

/-- What a step of the stream leaves and sends. -/
abbrev Sent := Except String (KiroStream × List Value)

variable (crc32 : Bytes → UInt32) (serde : SerdeJson) (tokensOf : Number → ℕ → Option ℕ)

namespace KiroStream

/-- The arguments of a call that is closed are an object. -/
def checkArgs (self : KiroStream) : Except String Unit :=
  if self.open_ = "tool" ∧ self.toolArgs ≠ "" then
    match serde.parse self.toolArgs.toList with
    | .error _ => .error "Kiro returned incomplete tool arguments"
    | .ok (.object _) => .ok ()
    | .ok _ => .error "Kiro tool arguments must be objects"
  else .ok ()

/-- `KiroStream::close`. -/
def close (self : KiroStream) : Sent := do
  self.checkArgs serde
  if self.open_ = "" then return (self, [])
  return ({ self with open_ := "", toolArgs := "" },
    [event "content_block_stop" (.obj [("index", int self.index)])])

/-- The first event of the stream, once. -/
def start (self : KiroStream) : KiroStream × List Value :=
  if self.begun then (self, [])
  else ({ self with begun := true },
    [event "message_start" (.obj [("message", .obj [("id", .string self.id),
      ("type", .string "message"), ("role", .string "assistant"), ("model", .string self.model),
      ("content", .array []), ("stop_reason", .null),
      ("usage", .obj [("input_tokens", .nat 0), ("output_tokens", .nat 0)])])])])

/-- `KiroStream::begin`. -/
def begin_ (self : KiroStream) (kind : String) (block : Value) : Sent := do
  let started := self.start
  let closed ← started.1.close serde
  let self := { closed.1 with index := closed.1.index + 1, open_ := kind }
  return (self, started.2 ++ closed.2 ++
    [event "content_block_start" (.obj [("index", int self.index), ("content_block", block)])])

/-- The kind of a block of text, which is also that of its field. -/
def kindOf (thinking : Bool) : String := if thinking then "thinking" else "text"

/-- A block of text before its text. -/
def blockOf (thinking : Bool) : Value :=
  let block := Value.obj [("type", .string (kindOf thinking)), (kindOf thinking, .string "")]
  if thinking then block.set "signature" (.string "") else block

/-- The delta of a text. -/
def deltaOf (thinking : Bool) (text : String) : Value :=
  .obj [("type", .string (if thinking then "thinking_delta" else "text_delta")),
    (kindOf thinking, .string text)]

/-- A delta of the open block. -/
def delta (self : KiroStream) (inner : Value) : Value :=
  event "content_block_delta" (.obj [("index", int self.index), ("delta", inner)])

/-- `KiroStream::text`. -/
def text (self : KiroStream) (thinking : Bool) (text : String) : Sent := do
  if text = "" then return (self, [])
  let opened ← if self.open_ = kindOf thinking then pure (self, [])
    else self.begin_ serde (kindOf thinking) (blockOf thinking)
  return (opened.1, opened.2 ++ [opened.1.delta (deltaOf thinking text)])

/-- `text` for what the splitter tells, piece after piece. -/
def texts : KiroStream → List (Bool × List Char) → Sent
  | self, [] => .ok (self, [])
  | self, told :: rest => do
    let first ← self.text serde told.1 (String.ofList told.2)
    let others ← texts first.1 rest
    return (others.1, first.2 ++ others.2)

/-- A message reports a failure. -/
def isFailure (headers : Table String String) (kind : String) : Bool :=
  (headers[":message-type"]?).any (fun type => type = "error" || type = "exception") ||
    ["error", "throttlingError", "validationError", "serviceUnavailableError",
      "internalServerException"].contains kind

/-- The text of an assistant. -/
def assistant (self : KiroStream) (data : Value) : Sent := do
  let content := (data.field "content").asStr.getD ""
  if self.budget > 0 then
    let fed := self.thinking.feed content.toList
    ({ self with thinking := fed.1 } : KiroStream).texts serde fed.2
  else self.text serde false content

/-- Reasoning, or the signature of reasoning. -/
def reasoning (self : KiroStream) (data : Value) : Sent :=
  match (data.field "text").asStr with
  | some content => self.text serde true content
  | none =>
    match (data.field "signature").asStr with
    | some signature =>
      if self.open_ ≠ "thinking" then .error "Kiro thinking signature has no matching block"
      else .ok (self, [self.delta
        (.obj [("type", .string "signature_delta"), ("signature", .string signature)])])
    | none => .ok (self, [])

/-- The arguments of a call as text. -/
def argsOf (input : Value) : String := input.asStr.getD (serde.print input)

/-- More arguments of a call. -/
def arguments (self : KiroStream) (input : Value) : Sent :=
  if input = .null then .ok (self, [])
  else if self.open_ ≠ "tool" then .error "Kiro tool argument has no matching call"
  else if input.asObject = some [] then .ok (self, [])
  else if self.toolArgs.utf8ByteSize + (argsOf serde input).utf8ByteSize > maxFrame then
    .error "Kiro tool arguments exceed limit"
  else
    .ok ({ self with toolArgs := self.toolArgs ++ argsOf serde input }, [self.delta
      (.obj [("type", .string "input_json_delta"), ("partial_json", .string (argsOf serde input))])])

/-- A call of a tool, or more of its arguments. -/
def toolUse (self : KiroStream) (data : Value) : Sent := do
  let id := (data.field "toolUseId").asStr.getD ""
  let begun ← if id ≠ "" ∧ id ≠ self.toolId then
      ({ self with toolId := id, tools := self.tools + 1 } : KiroStream).begin_ serde "tool"
        (.obj [("type", .string "tool_use"), ("id", .string id), ("name", data.field "name"),
          ("input", .obj [])])
    else pure (self, [])
  let sent ← begun.1.arguments serde (data.field "input")
  return (sent.1, begun.2 ++ sent.2)

/-- The counters of the usage and the fields of the metadata they add up. -/
def counters : List (String × String) :=
  [("input_tokens", "uncachedInputTokens"), ("output_tokens", "outputTokens"),
    ("cache_read_input_tokens", "cacheReadInputTokens"),
    ("cache_creation_input_tokens", "cacheWriteInputTokens")]

/-- What the metadata report for a counter. -/
def reported (tokenUsage : Value) (counter : String × String) : ℕ :=
  ((tokenUsage.field counter.2).asU64.or
    (if counter.1 = "input_tokens" then (tokenUsage.field "inputTokens").asU64 else none)).getD 0

/-- Add what the metadata report to the counters, which have 64 bits. -/
def addUsage (tokenUsage : Value) : List (String × String) → Value → Except String Value
  | [], usage => .ok usage
  | counter :: rest, usage =>
    let sum := (usage.field counter.1).asU64.getD 0 + reported tokenUsage counter
    if sum < 2 ^ 64 then addUsage tokenUsage rest (usage.set counter.1 (.nat sum))
    else .error "Kiro token usage overflow"

/-- `Value::as_f64`, as the number itself. -/
def asNumber : Value → Option Number
  | .number value => some value
  | _ => none

/-- Metadata of the reply. -/
def readMetadata (self : KiroStream) (data : Value) : Sent := do
  let usage ← addUsage (data.field "tokenUsage") counters self.usage
  return ({ self with
    metadata := true
    stop := (data.field "stopReason").asStr.getD self.stop
    usage
    pct := (asNumber ((data.field "tokenUsage").field "contextUsagePercentage")).or self.pct }, [])

/-- One message of the reply. -/
def handle (self : KiroStream) (message : AwsEvent) : Sent :=
  let kind := message.1[":event-type"]?.getD ""
  if isFailure message.1 kind then .error "Kiro returned an eventstream error"
  else if kind = "assistantResponseEvent" then self.assistant serde message.2
  else if kind = "reasoningContentEvent" then self.reasoning serde message.2
  else if kind = "toolUseEvent" then self.toolUse serde message.2
  else if kind = "metadataEvent" ∨ kind = "messageMetadataEvent" then self.readMetadata message.2
  else if kind = "contextUsageEvent" then
    .ok ({ self with pct := (asNumber (message.2.field "contextUsagePercentage")).or self.pct }, [])
  else .ok (self, [])

/-- One message after another. -/
def handleAll : KiroStream → List AwsEvent → Sent
  | self, [] => .ok (self, [])
  | self, message :: rest => do
    let first ← self.handle serde message
    let others ← handleAll first.1 rest
    return (others.1, first.2 ++ others.2)

/-- `KiroStream::push`. -/
def push (self : KiroStream) (bytes : Bytes) : Sent := do
  let frames ← awsFramesPush crc32 serde self.buffer bytes
  ({ self with buffer := frames.2 } : KiroStream).handleAll serde frames.1

/-- `push` for one chunk after another. -/
def pushAll : KiroStream → List Bytes → Sent
  | self, [] => .ok (self, [])
  | self, chunk :: rest => do
    let first ← self.push crc32 serde chunk
    let others ← pushAll first.1 rest
    return (others.1, first.2 ++ others.2)

/-- The usage at the end of the reply: without a report, what the percentage of the window says. -/
def finalUsage (self : KiroStream) : Value :=
  if self.usage.field "input_tokens" = .nat 0 ∧ self.usage.field "cache_read_input_tokens" = .nat 0 ∧
      self.usage.field "cache_creation_input_tokens" = .nat 0 ∧ self.window > 0 then
    match self.pct.bind fun pct => tokensOf pct self.window with
    | some tokens => self.usage.set "input_tokens" (.nat tokens)
    | none => self.usage
  else self.usage

/-- The stop reason at the end of the reply. -/
def stopReason (self : KiroStream) : String :=
  if self.tools > 0 then "tool_use"
  else if Server.eqIgnoreAsciiCase self.stop "max_tokens" then "max_tokens"
  else if Server.eqIgnoreAsciiCase self.stop "content_filtered" then "refusal"
  else "end_turn"

/-- `KiroStream::finish`. -/
def finish (self : KiroStream) : Sent := do
  if self.buffer ≠ [] ∨ (self.metadata = false ∧ self.begun = false) then
    throw "Kiro reply ended before a complete AWS event"
  if self.thinking.state = .thinking then
    throw "Kiro thinking block ended before its closing tag"
  let begun ← if self.begun then pure (self, [])
    else self.begin_ serde "text" (.obj [("type", .string "text"), ("text", .string "")])
  let emptied : KiroStream :=
    { begun.1 with thinking := { begun.1.thinking with buffer := [] } }
  let rest ← emptied.text serde false (String.ofList begun.1.thinking.buffer)
  let closed ← rest.1.close serde
  let self := { closed.1 with usage := closed.1.finalUsage tokensOf }
  return (self, begun.2 ++ rest.2 ++ closed.2 ++
    [event "message_delta" (.obj [("delta", .obj [("stop_reason", .string self.stopReason),
      ("stop_sequence", .null)]), ("usage", self.usage)]), event "message_stop" (.obj [])])

end KiroStream

end Aipass.Kiro
