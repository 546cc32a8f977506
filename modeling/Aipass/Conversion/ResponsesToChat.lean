import Aipass.Conversion.ChatToResponses

/-!
# Responses streams to Chat Completions streams

A Responses stream repeats its content: as deltas, in the item that closes, and in the response
that ends the stream. The converter notes what it has passed on of each part, and passes on what
closes an item only where nothing of it came before.
-/
namespace Aipass.Conversion

/-- The arguments of a call as a JSON string. -/
def arguments (serde : SerdeJson) (value : Option Value) : Value :=
  match value with
  | some (.string text) => .string text
  | some .null => "{}"
  | some value => .string (serde.print value)
  | none => "{}"

/-- `call_to_chat`; `unique` is the identifier generated when the item has none. -/
def callToChat (serde : SerdeJson) (unique : String) (item : Value) :
    Except ConversionError Value :=
  let id := ((((item.get "call_id").or (item.get "id")).bind Value.asStr).filter (· ≠ "")).getD
    ("call_" ++ unique)
  match string (item.get "type") with
  | "function_call" =>
    .ok (.obj [("id", id), ("type", "function"),
      ("function", .obj [("name", item.field "name"),
        ("arguments", arguments serde (item.get "arguments"))])])
  | "custom_tool_call" =>
    .ok (.obj [("id", id), ("type", "custom"),
      ("custom", .obj [("name", item.field "name"), ("input", item.field "input")])])
  | _ => .error (invalid RS "unsupported tool call")

/-- `ResponsesToChat`. -/
structure ResponsesToChat where
  id : String := ""
  model : Value := .null
  created : Value := .null
  /-- The chat index of each call and whether it is freeform, by its output index. -/
  tools : Table ℕ (ℕ × Bool) := ∅
  /-- The parts of items that were passed on, by output index. -/
  emitted : List (ℕ × String) := []
  done : Bool := false

namespace ResponsesToChat

open ChatToResponses (argumentField callField)

/-- `chunk`. -/
def chunk (self : ResponsesToChat) (delta finish : Value) (usage : Option Value) : Frame :=
  let value := Value.obj
    [("id", self.id), ("object", "chat.completion.chunk"), ("created", self.created),
      ("model", self.model),
      ("choices", .array [.obj [("index", .nat 0), ("delta", delta), ("finish_reason", finish)]])]
  .untyped (match usage with
    | some usage => value.set "usage" usage
    | none => value)

/-- `out.push(self.chunk(delta, Value::Null, None))`. -/
def put (run : Emitting ResponsesToChat) (delta : Value) : Emitting ResponsesToChat :=
  { run with out := run.out ++ [chunk run.self delta .null none] }

/-- A part was passed on. -/
def note (run : Emitting ResponsesToChat) (key : ℕ × String) : Emitting ResponsesToChat :=
  { run with self := { run.self with emitted := key :: run.self.emitted } }

/-- The chunk that carries a piece of arguments. -/
def callDelta (toolIndex : ℕ) (custom : Bool) (text : String) : Value :=
  .obj [("tool_calls", .array [.obj [("index", .nat toolIndex),
    (callField custom, .obj [(argumentField custom, text)])]])]

/-- `tool_delta`. -/
def toolDelta (run : Emitting ResponsesToChat) (index : ℕ) (text : String) :
    Emitting ResponsesToChat :=
  if text = "" then run
  else
    match run.self.tools[index]? with
    | some (toolIndex, custom) =>
      put (note run (index, argumentField custom)) (callDelta toolIndex custom text)
    | none => run

/-- The announcement of a call. -/
def announce (serde : SerdeJson) (reading : Reading) (run : Emitting ResponsesToChat) (index : ℕ)
    (item : Value) : Except ConversionError (Emitting ResponsesToChat) := do
  let custom : Bool := (item.field "type").asStr = some "custom_tool_call"
  match run.self.tools[index]? with
  | some _ => .ok run
  | none =>
    let toolIndex := run.self.tools.size
    let run :=
      { run with
        self := { run.self with tools := run.self.tools.insert index (toolIndex, custom) } }
    let call ← callToChat serde (reading.unique (index + 1)) item
    let call := (call.set "index" (.nat toolIndex)).set (callField custom)
      ((call.field (callField custom)).set (argumentField custom) "")
    .ok (put run (.obj [("tool_calls", .array [call])]))

/-- A part of a closed item, passed on unless it was before. -/
def pushPart (run : Emitting ResponsesToChat) (index : ℕ) (field text : String) (part : ℕ) :
    Emitting ResponsesToChat :=
  let key := (index, field ++ ":" ++ toString part)
  if text = "" ∨ key ∈ run.self.emitted then run
  else put (note run key) (.obj [(field, text)])

/-- A part of a message. -/
def messagePart (index : ℕ) (run : Emitting ResponsesToChat) (entry : Value × ℕ) :
    Emitting ResponsesToChat :=
  if (entry.1.field "type").asStr = some "refusal" then
    pushPart run index "refusal" (string (entry.1.get "refusal")) entry.2
  else pushPart run index "content" (string (entry.1.get "text")) entry.2

/-- A part of a reasoning. -/
def reasoningPart (index : ℕ) (run : Emitting ResponsesToChat) (entry : Value × ℕ) :
    Emitting ResponsesToChat :=
  pushPart run index "reasoning_content" (string (entry.1.get "text")) entry.2

/-- The arguments of a closed call, passed on unless some were before. -/
def callArguments (run : Emitting ResponsesToChat) (index : ℕ) (item : Value) :
    Emitting ResponsesToChat :=
  let field := argumentField ((item.field "type").asStr = some "custom_tool_call")
  if (index, field) ∈ run.self.emitted then run
  else toolDelta run index (string (item.get field))

/-- `item`. -/
def item (serde : SerdeJson) (reading : Reading) (run : Emitting ResponsesToChat) (index : ℕ)
    (item : Value) : Except ConversionError (Emitting ResponsesToChat) :=
  match string (item.get "type") with
  | "function_call" | "custom_tool_call" => do
    let run ← announce serde reading run index item
    .ok (callArguments run index item)
  | "message" =>
    .ok ((((item.get "content").bind Value.asArray).getD []).zipIdx.foldl (messagePart index) run)
  | "reasoning" =>
    .ok ((((item.get "summary").bind Value.asArray).getD []).zipIdx.foldl (reasoningPart index) run)
  | _ => .error (invalid RS "unsupported streamed output item")

/-- The loop over the items of a terminal response. -/
def items (serde : SerdeJson) (reading : Reading) :
    Emitting ResponsesToChat → List (Value × ℕ) →
    Except ConversionError (Emitting ResponsesToChat)
  | run, [] => .ok run
  | run, entry :: rest => do
    let run ← item serde reading run entry.2 entry.1
    items serde reading run rest

/-- The first event that carries a response names the stream. -/
def start (reading : Reading) (payload : Value) (run : Emitting ResponsesToChat) :
    Emitting ResponsesToChat :=
  match payload.get "response" with
  | none => run
  | some response =>
    if run.self.id ≠ "" then run
    else
      let source := ((response.get "id").bind Value.asStr).getD (reading.unique 0)
      let self :=
        { run.self with
          id := swapIdPrefix source "resp_" "chatcmpl-"
          model := response.field "model"
          created := (response.get "created_at").getD (.nat reading.now) }
      put { run with self } (.obj [("role", "assistant"), ("content", "")])

/-- The field of a chunk that a kind of delta goes to, and where its part index stands. -/
def deltaField : String → String × String
  | "response.output_text.delta" => ("content", "content_index")
  | "response.refusal.delta" => ("refusal", "content_index")
  | _ => ("reasoning_content", "summary_index")

/-- A piece of text. -/
def pushDelta (run : Emitting ResponsesToChat) (index : ℕ) (payload : Value) :
    Emitting ResponsesToChat :=
  if string (payload.get "delta") = "" then run
  else
    let field := deltaField (string (payload.get "type"))
    let part := number (payload.get field.2)
    put (note run (index, field.1 ++ ":" ++ toString part)) (.obj [(field.1, payload.field "delta")])

/-- The finish reason of a terminal response. -/
def finishReason (self : ResponsesToChat) (payload : Value) : String :=
  let response := payload.field "response"
  if (response.field "status").asStr = some "incomplete" ∨
      (payload.field "type").asStr = some "response.incomplete" then
    if ((response.field "incomplete_details").field "reason").asStr = some "content_filter" then
      "content_filter"
    else "length"
  else if self.tools.isEmpty then "stop" else "tool_calls"

/-- A completed or incomplete response. -/
def complete (serde : SerdeJson) (reading : Reading) (run : Emitting ResponsesToChat)
    (payload : Value) : Except ConversionError (Emitting ResponsesToChat) := do
  let response := payload.field "response"
  let output := ((response.get "output").bind Value.asArray).getD []
  let run ← items serde reading run output.zipIdx
  let last := chunk run.self (.obj []) (.string (finishReason run.self payload))
    (some (usage (response.field "usage") CC))
  .ok { self := { run.self with done := true }, out := run.out ++ [last, .done] }

/-- An upstream error. -/
def fail (run : Emitting ResponsesToChat) (payload : Value) : Emitting ResponsesToChat :=
  let error := ((payload.get "error").or (payload.pointer ["response", "error"])).getD
    (.obj [("message", payload.field "message"), ("type", "upstream_error")])
  { self := { run.self with done := true },
    out := run.out ++ [.untyped (.obj [("error", error)]), .done] }

/-- A payload. -/
def pushPayload (serde : SerdeJson) (self : ResponsesToChat) (reading : Reading)
    (payload : Value) : Except ConversionError (Emitting ResponsesToChat) :=
  let run := start reading payload { self }
  let index := number (payload.get "output_index")
  match string (payload.get "type") with
  | "response.output_item.added" | "response.output_item.done" =>
    item serde reading run index (payload.field "item")
  | "response.output_text.delta" | "response.refusal.delta"
  | "response.reasoning_summary_text.delta" => .ok (pushDelta run index payload)
  | "response.function_call_arguments.delta" | "response.custom_tool_call_input.delta" =>
    .ok (toolDelta run index (string (payload.get "delta")))
  | "response.completed" | "response.incomplete" => complete serde reading run payload
  | "error" | "response.failed" => .ok (fail run payload)
  | _ => .ok run

/-- `push`. -/
def push (serde : SerdeJson) (self : ResponsesToChat) (reading : Reading) (raw : List Char) :
    Except ConversionError (Emitting ResponsesToChat) :=
  if self.done then .ok { self }
  else
    match data serde raw with
    | .error error => .error error
    | .ok none => .ok { self }
    | .ok (some payload) => pushPayload serde self reading payload

/-- `finish`. -/
def finish (self : ResponsesToChat) : Except ConversionError (Emitting ResponsesToChat) :=
  if self.done then .ok { self } else .error (invalid RS "stream ended before completion")

end ResponsesToChat
end Aipass.Conversion
