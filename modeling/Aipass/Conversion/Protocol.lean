import Aipass.Base.Json
import Aipass.Base.Text

/-!
# Wire protocols and server-sent events

The three protocols, the errors of a conversion, and the two readers of a server-sent event. A
converter returns frames, each the text of one event; the readers take an event's text apart
again. The clock and the counter behind generated identifiers are read from outside.
-/
namespace Aipass.Conversion

/-- `ProxyProtocol`. -/
inductive ProxyProtocol
  | openAiResponses
  | openAiChatCompletions
  | anthropicMessages
deriving DecidableEq, Repr

/-- `AM`. -/
@[match_pattern] abbrev AM : ProxyProtocol := .anthropicMessages
/-- `CC`. -/
@[match_pattern] abbrev CC : ProxyProtocol := .openAiChatCompletions
/-- `RS`. -/
@[match_pattern] abbrev RS : ProxyProtocol := .openAiResponses

/-- `ConversionError`. -/
inductive ConversionError
  | invalidPayload (protocol : ProxyProtocol) (message : String)
  | unsupported (source target : ProxyProtocol)
  | invalidEvent (raw : List Char)
deriving DecidableEq

/-- `invalid`. -/
def invalid (protocol : ProxyProtocol) (message : String) : ConversionError :=
  .invalidPayload protocol message

/-- A text stands for the JSON string it spells. -/
instance : Coe String Value := ⟨Value.string⟩

/-- `number`. -/
def number (value : Option Value) : ℕ := (value.bind Value.asU64).getD 0

/-- `string`. -/
def string (value : Option Value) : String := (value.bind Value.asStr).getD ""

/-- `swap_id_prefix`. -/
def swapIdPrefix (id source target : String) : String :=
  match Text.stripPrefix source.toList id.toList with
  | some rest => target ++ String.ofList rest
  | none => target ++ id

/-- The reasoning a thinking part carries. -/
def thinkingText (part : Value) : String :=
  match part.get "thinking" with
  | some (.string value) => value
  | some (.array values) =>
    String.join (values.filterMap fun value => (value.get "text").bind Value.asStr)
  | _ => ""

/-- `chat_reasoning`. -/
def chatReasoning (message : Value) : String :=
  let text := string ((message.get "reasoning_content").or (message.get "reasoning"))
  let parts := ((message.get "content").bind Value.asArray).getD []
  text ++ String.join
    ((parts.filter fun part => (part.field "type").asStr = some "thinking").map thinkingText)

/-- `parse_tool_arguments`. -/
def parseToolArguments (serde : SerdeJson) (arguments : Option Value) (protocol : ProxyProtocol) :
    Except ConversionError Value :=
  match arguments with
  | some (.string raw) =>
    (serde.parse raw.toList).mapError fun error =>
      invalid protocol ("tool arguments are not valid JSON: " ++ error)
  | some .null => .ok (.obj [])
  | some value => .ok value
  | none => .ok (.obj [])

/-- What one call reads outside the converter. -/
structure Reading where
  /-- `unix_now`. -/
  now : ℕ
  /-- The identifiers `unique_id` returns, by how often the call has asked. -/
  unique : ℕ → String

/-- One server-sent event as a converter returns it. -/
inductive Frame
  /-- `emit_typed`: an event line and a data line. -/
  | typed (event : String) (payload : Value)
  /-- `emit_data`: a data line. -/
  | untyped (payload : Value)
  /-- The data line `[DONE]`. -/
  | done
  /-- An event passed on as it came. -/
  | raw (text : List Char)

/-- The text of a frame. -/
def Frame.text (serde : SerdeJson) : Frame → List Char
  | .typed event payload =>
    "event: ".toList ++ event.toList ++ "\ndata: ".toList ++ (serde.print payload).toList ++
      "\n\n".toList
  | .untyped payload => "data: ".toList ++ (serde.print payload).toList ++ "\n\n".toList
  | .done => "data: [DONE]\n\n".toList
  | .raw text => text

/-- `SseEvent`. -/
structure SseEvent where
  /-- The `event:` line. -/
  kind : Option (List Char)
  /-- The `data:` lines. -/
  data : List Char
deriving DecidableEq

/-- What `parse_sse` has read of the lines so far. -/
structure SseLines where
  /-- The last `event:` line. -/
  kind : Option (List Char) := none
  /-- The `data:` lines. -/
  dataLines : List (List Char) := []

/-- One line of `parse_sse`. -/
def SseLines.read (lines : SseLines) (raw : List Char) : SseLines :=
  let line := Text.dropLast '\r' raw
  if line = [] ∨ line.head? = some ':' then lines
  else
    match Text.stripPrefix "event:".toList line with
    | some value => { lines with kind := some (Text.trim value) }
    | none =>
      match Text.stripPrefix "data:".toList line with
      | some value =>
        { lines with
          dataLines := lines.dataLines ++ [(Text.stripPrefix [' '] value).getD value] }
      | none => lines

/-- `parse_sse`. -/
def parseSse (raw : List Char) : Except ConversionError SseEvent :=
  let lines := (Text.lines raw).foldl SseLines.read {}
  if lines.kind.isNone ∧ lines.dataLines = [] then .error (.invalidEvent raw)
  else .ok { kind := lines.kind, data := List.intercalate ['\n'] lines.dataLines }

/-- `event_kind`: the event line, else the payload's type. -/
def eventKind (parsed : SseEvent) (payload : Value) : Option String :=
  match parsed.kind with
  | some kind => some (String.ofList kind)
  | none => (payload.get "type").bind Value.asStr

/-- `parse_payload`. -/
def parsePayload (serde : SerdeJson) (parsed : SseEvent) (protocol : ProxyProtocol) :
    Except ConversionError (Option Value) :=
  if Text.trim parsed.data = [] then .ok none
  else
    match serde.parse parsed.data with
    | .ok value => .ok (some value)
    | .error error => .error (invalid protocol ("event data is not valid JSON: " ++ error))

/-- `data`: the reader of the two OpenAI converters. -/
def data (serde : SerdeJson) (raw : List Char) : Except ConversionError (Option Value) :=
  let text := List.intercalate ['\n']
    ((Text.lines raw).filterMap fun line =>
      (Text.stripPrefix "data:".toList line).map Text.trimStart)
  if Text.trim text = [] then .ok none
  else if Text.trim text = "[DONE]".toList then .ok (some (.string "[DONE]"))
  else
    match serde.parse text with
    | .ok value => .ok (some value)
    | .error _ => .error (invalid CC "invalid stream JSON")

end Aipass.Conversion
