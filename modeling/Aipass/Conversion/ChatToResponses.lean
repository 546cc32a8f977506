import Aipass.Base.Table
import Aipass.Conversion.Usage

/-!
# Chat Completions streams to Responses streams

The converter opens one item for the text, one for the reasoning, one for the refusal and one
for every tool call, and keeps them open until the upstream has reported a finish reason and the
stream ends. A method takes the converter with the frames its call has put out, and returns both.
-/
namespace Aipass.Conversion

/-- A converter and the frames a call has put out so far. -/
structure Emitting (σ : Type) where
  /-- The converter. -/
  self : σ
  /-- `out`. -/
  out : List Frame := []

/-- `ChatToResponses`. -/
structure ChatToResponses where
  id : String := ""
  model : Value := .null
  created : Value := .null
  output : List Value := []
  /-- The output index of each call, by the index upstream gives it. -/
  tools : Table ℕ ℕ := ∅
  text : Option ℕ := none
  reasoning : Option ℕ := none
  refusal : Option ℕ := none
  usage : UsageAccumulator := {}
  finishReason : Option String := none
  choice : Option ℕ := none
  sequence : ℕ := 0
  done : Bool := false

/-- The three kinds of text a message carries. -/
inductive TextKind
  | text
  | thinking
  | refusal
deriving DecidableEq

/-- The wire names that `text` chooses by the kind of text. -/
structure TextNames where
  /-- The field of the item that lists its parts. -/
  list : String
  /-- The field of a part that holds its text. -/
  field : String
  /-- The field of an event that holds the index of the part. -/
  index : String
  /-- The event that announces a part. -/
  added : String
  /-- The event that carries a piece of text. -/
  delta : String
  /-- The event that closes the text. -/
  done : String
  /-- The event that closes the part. -/
  partDone : String

/-- The wire names of a kind of text. -/
def TextKind.names : TextKind → TextNames
  | .text =>
    ⟨"content", "text", "content_index", "response.content_part.added",
      "response.output_text.delta", "response.output_text.done", "response.content_part.done"⟩
  | .thinking =>
    ⟨"summary", "text", "summary_index", "response.reasoning_summary_part.added",
      "response.reasoning_summary_text.delta", "response.reasoning_summary_text.done",
      "response.reasoning_summary_part.done"⟩
  | .refusal =>
    ⟨"content", "refusal", "content_index", "response.content_part.added",
      "response.refusal.delta", "response.refusal.done", "response.content_part.done"⟩

/-- The item that opens a kind of text. -/
def TextKind.item (kind : TextKind) (id : String) : Value :=
  match kind with
  | .thinking => .obj [("id", id), ("type", "reasoning"), ("summary", .array [])]
  | _ =>
    .obj [("id", id), ("type", "message"), ("role", "assistant"), ("status", "in_progress"),
      ("content", .array [])]

/-- The empty part of a kind of text. -/
def TextKind.part : TextKind → Value
  | .text => .obj [("type", "output_text"), ("text", ""), ("annotations", .array [])]
  | .thinking => .obj [("type", "summary_text"), ("text", "")]
  | .refusal => .obj [("type", "refusal"), ("refusal", "")]

namespace ChatToResponses

/-- `event`, for the events of this converter. -/
def event (value : Value) (sequence : ℕ) : Frame :=
  .typed (string (value.get "type")) (value.set "sequence_number" (.nat sequence))

/-- `emit`. -/
def emit (run : Emitting ChatToResponses) (value : Value) : Emitting ChatToResponses :=
  { self := { run.self with sequence := run.self.sequence + 1 },
    out := run.out ++ [event value run.self.sequence] }

/-- The identifier of the response. -/
def responseId (reading : Reading) (payload : Value) : String :=
  let source := (((payload.get "id").bind Value.asStr).filter (· ≠ "")).getD (reading.unique 0)
  swapIdPrefix source "chatcmpl-" "resp_"

/-- The envelope of the two opening events. -/
def opening (self : ChatToResponses) (kind : String) : Value :=
  .obj [("type", kind),
    ("response", .obj [("id", self.id), ("object", "response"), ("model", self.model),
      ("created_at", self.created), ("status", "in_progress"), ("output", .array [])])]

/-- `start`. -/
def start (reading : Reading) (payload : Value) (run : Emitting ChatToResponses) :
    Emitting ChatToResponses :=
  if run.self.id ≠ "" then run
  else
    let self :=
      { run.self with
        id := responseId reading payload
        model := payload.field "model"
        created := (payload.get "created").getD (.nat reading.now) }
    let run := emit { run with self } (opening self "response.created")
    emit run (opening self "response.in_progress")

/-- The wire name of the arguments of a call. -/
def argumentField (custom : Bool) : String := if custom then "input" else "arguments"

/-- The event that announces an item. -/
def itemAdded (position : ℕ) (item : Value) : Value :=
  .obj [("type", "response.output_item.added"), ("output_index", .nat position), ("item", item)]

/-- The event that announces the part of an item. -/
def partAdded (kind : TextKind) (id : Value) (position : ℕ) : Value :=
  (Value.obj [("type", kind.names.added), ("item_id", id), ("output_index", .nat position),
    ("part", kind.part)]).set kind.names.index (.nat 0)

/-- The event that carries a piece of text. -/
def textDelta (kind : TextKind) (id : Value) (position : ℕ) (text : String) : Value :=
  (Value.obj [("type", kind.names.delta), ("item_id", id), ("output_index", .nat position),
    ("delta", text)]).set kind.names.index (.nat 0)

/-- The event that carries a piece of arguments. -/
def callDelta (custom : Bool) (id : Value) (position : ℕ) (text : String) : Value :=
  .obj [("type", if custom then "response.custom_tool_call_input.delta"
      else "response.function_call_arguments.delta"),
    ("output_index", .nat position), ("item_id", id), ("delta", text)]

/-- The event that closes the arguments of a call. -/
def callDone (custom : Bool) (id : Value) (position : ℕ) (arguments : Value) : Value :=
  (Value.obj [("type", if custom then "response.custom_tool_call_input.done"
      else "response.function_call_arguments.done"),
    ("output_index", .nat position), ("item_id", id)]).set
    (argumentField custom) arguments

/-- The event that closes a text. -/
def textDone (kind : TextKind) (id : Value) (position : ℕ) (text : Value) : Value :=
  ((Value.obj [("type", kind.names.done), ("item_id", id), ("output_index", .nat position)]).set
    kind.names.index (.nat 0)).set kind.names.field text

/-- The event that closes a part. -/
def partDone (kind : TextKind) (id : Value) (position : ℕ) (part : Value) : Value :=
  (Value.obj [("type", kind.names.partDone), ("item_id", id), ("output_index", .nat position),
    ("part", part)]).set kind.names.index (.nat 0)

/-- The event that closes an item. -/
def itemDone (position : ℕ) (item : Value) : Value :=
  .obj [("type", "response.output_item.done"), ("output_index", .nat position), ("item", item)]

/-- `add`: announce an item. -/
def add (run : Emitting ChatToResponses) (item : Value) : Emitting ChatToResponses :=
  let run' := emit run (itemAdded run.self.output.length item)
  { run' with self := { run'.self with output := run'.self.output ++ [item] } }

/-- Change one item. -/
def setItem (self : ChatToResponses) (at_ : ℕ) (change : Value → Value) : ChatToResponses :=
  { self with output := self.output.modify at_ change }

/-- The item a kind of text is open under. -/
def slot (self : ChatToResponses) : TextKind → Option ℕ
  | .text => self.text
  | .thinking => self.reasoning
  | .refusal => self.refusal

/-- Open a kind of text under an item. -/
def setSlot (self : ChatToResponses) (kind : TextKind) (index : ℕ) : ChatToResponses :=
  match kind with
  | .text => { self with text := some index }
  | .thinking => { self with reasoning := some index }
  | .refusal => { self with refusal := some index }

/-- The part of `text` that opens an item for a kind of text. -/
def openText (run : Emitting ChatToResponses) (kind : TextKind) : Emitting ChatToResponses :=
  let position := run.self.output.length
  let id := run.self.id ++ "_item_" ++ toString position
  let run := emit (add run (kind.item id)) (partAdded kind id position)
  { run with
    self := (run.self.setItem position (·.set kind.names.list (.array [kind.part]))).setSlot kind
      position }

/-- The text of the first part of an item. -/
def partText (item : Value) (kind : TextKind) : String :=
  string ((item.field kind.names.list).first.get kind.names.field)

/-- The part of `text` that adds a piece of text to an open item. -/
def appendText (run : Emitting ChatToResponses) (kind : TextKind) (position : ℕ) (text : String) :
    Emitting ChatToResponses :=
  let names := kind.names
  let self := run.self.setItem position fun item =>
    let list := item.field names.list
    item.set names.list
      (list.setFirst (list.first.set names.field (.string (partText item kind ++ text))))
  emit { run with self }
    (textDelta kind ((self.output.getD position .null).field "id") position text)

/-- `text`. -/
def pushText (kind : TextKind) (run : Emitting ChatToResponses) (text : String) :
    Emitting ChatToResponses :=
  if text = "" then run
  else
    match run.self.slot kind with
    | some position => appendText run kind position text
    | none =>
      let opened := openText run kind
      appendText opened kind run.self.output.length text

/-- The content parts of a delta. -/
def contentParts : Emitting ChatToResponses → List Value →
    Except ConversionError (Emitting ChatToResponses)
  | run, [] => .ok run
  | run, part :: rest =>
    match string (part.get "type") with
    | "text" => contentParts (pushText .text run (string (part.get "text"))) rest
    | "thinking" =>
      match (part.get "thinking").bind Value.asArray with
      | some parts =>
        contentParts
          (parts.foldl (fun run part => pushText .thinking run (string (part.get "text"))) run) rest
      | none => contentParts (pushText .thinking run (string (part.get "thinking"))) rest
    | _ => .error (invalid CC "unsupported streamed content part")

/-- The field of a chat call that holds its name and arguments. -/
def callField (custom : Bool) : String := if custom then "custom" else "function"

/-- A tool call that is not announced yet. -/
def callItem (self : ChatToResponses) (key : ℕ) (call : Value) : Value :=
  let custom := (call.field "type").asStr = some "custom"
  let callId := (((call.get "id").bind Value.asStr).filter (· ≠ "")).getD
    ("call_" ++ self.id ++ "_" ++ toString key)
  (Value.obj
    [("id", self.id ++ "_call_" ++ toString key),
      ("type", if custom then "custom_tool_call" else "function_call"), ("call_id", callId),
      ("name", (call.field (callField custom)).field "name"), ("status", "in_progress")]).set
    (argumentField custom) ""

/-- An item of a freeform call. -/
def isCustom (item : Value) : Bool := (item.field "type").asStr = some "custom_tool_call"

/-- The part of a tool fragment that carries the name. -/
def nameCall (run : Emitting ChatToResponses) (position : ℕ) (call : Value) :
    Emitting ChatToResponses :=
  let custom := isCustom (run.self.output.getD position .null)
  match ((call.field (callField custom)).get "name").filter (·.asStr ≠ some "") with
  | some name => { run with self := run.self.setItem position (·.set "name" name) }
  | none => run

/-- The part of a tool fragment that carries arguments. -/
def appendCall (serde : SerdeJson) (run : Emitting ChatToResponses) (position : ℕ)
    (call : Value) : Emitting ChatToResponses :=
  let custom := isCustom (run.self.output.getD position .null)
  let argument := argumentField custom
  match ((call.field (callField custom)).get argument).filter Value.present with
  | some value =>
    let text := value.asStr.getD (serde.print value)
    let self := run.self.setItem position fun item =>
      item.set argument (.string (string (item.get argument) ++ text))
    emit { run with self }
      (callDelta custom ((self.output.getD position .null).field "id") position text)
  | none => run

/-- Announce a tool call. -/
def openCall (run : Emitting ChatToResponses) (key : ℕ) (call : Value) :
    Emitting ChatToResponses :=
  let position := run.self.output.length
  let run := add run (callItem run.self key call)
  { run with self := { run.self with tools := run.self.tools.insert key position } }

/-- One fragment of a tool call, with its place in the chunk. -/
def pushCall (serde : SerdeJson) (run : Emitting ChatToResponses) (entry : Value × ℕ) :
    Emitting ChatToResponses :=
  let call := entry.1
  let key := ((call.get "index").bind Value.asU64).getD entry.2
  match run.self.tools[key]? with
  | some position => appendCall serde (nameCall run position call) position call
  | none =>
    let position := run.self.output.length
    appendCall serde (nameCall (openCall run key call) position call) position call

/-- The reasoning text of a delta. -/
def deltaReasoning (delta : Value) : String :=
  string (((delta.get "reasoning_content").filter (·.asStr ≠ some "")).or (delta.get "reasoning"))

/-- The content of a delta. -/
def pushContent (run : Emitting ChatToResponses) (content : Option Value) :
    Except ConversionError (Emitting ChatToResponses) :=
  match content with
  | some (.string text) => .ok (pushText .text run text)
  | some (.array parts) => contentParts run parts
  | _ => .ok run

/-- One choice of a chunk. -/
def pushChoice (serde : SerdeJson) (run : Emitting ChatToResponses) (choice : Value) :
    Except ConversionError (Emitting ChatToResponses) := do
  let delta := choice.field "delta"
  let run := pushText .thinking run (deltaReasoning delta)
  let run ← pushContent run (delta.get "content")
  let run := pushText .refusal run (string (delta.get "refusal"))
  let run := (((delta.get "tool_calls").bind Value.asArray).getD []).zipIdx.foldl (pushCall serde)
    run
  match (choice.get "finish_reason").bind Value.asStr with
  | some finish => .ok { run with self := { run.self with finishReason := some finish } }
  | none => .ok run

/-- The loop over the choices: the first one of the choice the stream is about. -/
def pushChoices (serde : SerdeJson) : Emitting ChatToResponses → List Value →
    Except ConversionError (Emitting ChatToResponses)
  | run, [] => .ok run
  | run, choice :: rest =>
    match (choice.get "index").bind Value.asU64 with
    | some index =>
      let held := run.self.choice.getD index
      let run := { run with self := { run.self with choice := some held } }
      if held ≠ index then pushChoices serde run rest else pushChoice serde run choice
    | none => pushChoice serde run choice

/-- Close an open tool call. -/
def closeCall (run : Emitting ChatToResponses) (position : ℕ) (item : Value) :
    Emitting ChatToResponses × Value :=
  let custom := !((item.field "type").asStr = some "function_call")
  let argument := argumentField custom
  let item := if !custom ∧ (item.field argument).asStr = some "" then item.set argument "{}"
    else item
  (emit run (callDone custom (item.field "id") position (item.field argument)), item)

/-- The kind of text an item carries. -/
def itemKind (item : Value) : TextKind :=
  if (item.field "type").asStr = some "reasoning" then .thinking
  else if ((item.field "content").first.field "type").asStr = some "refusal" then .refusal
  else .text

/-- Close an open text. -/
def closeText (run : Emitting ChatToResponses) (position : ℕ) (item : Value) :
    Emitting ChatToResponses :=
  let kind := itemKind item
  let part := (item.field kind.names.list).first
  let run := emit run (textDone kind (item.field "id") position (part.field kind.names.field))
  emit run (partDone kind (item.field "id") position part)

/-- One pass of the loop of `finish` that closes the items. -/
def closeItem (run : Emitting ChatToResponses) (position : ℕ) : Emitting ChatToResponses :=
  let item := run.self.output.getD position .null
  let kind := string (item.get "type")
  let (run, item) :=
    if kind = "function_call" ∨ kind = "custom_tool_call" then closeCall run position item
    else (closeText run position item, item)
  let item := item.set "status" "completed"
  emit { run with self := run.self.setItem position fun _ => item } (itemDone position item)

/-- The terminal event of a stream that reported a finish reason. -/
def terminal (self : ChatToResponses) (reason : String) : Value :=
  let incomplete := reason = "length" ∨ reason = "content_filter"
  let response := Value.obj
    [("id", self.id), ("object", "response"), ("model", self.model), ("created_at", self.created),
      ("status", if incomplete then "incomplete" else "completed"),
      ("output", .array self.output), ("usage", Conversion.usage self.usage.wire RS)]
  let response := if incomplete then
      response.set "incomplete_details"
        (.obj [("reason", if reason = "length" then "max_output_tokens" else "content_filter")])
    else response
  .obj [("type", if incomplete then "response.incomplete" else "response.completed"),
    ("response", response)]

/-- `finish`. -/
def finish (self : ChatToResponses) : Except ConversionError (Emitting ChatToResponses) :=
  if self.done then .ok { self }
  else
    match self.finishReason with
    | none => .error (invalid CC "stream ended before completion")
    | some reason =>
      let run := (List.range self.output.length).foldl closeItem { self }
      let run := emit run (terminal run.self reason)
      .ok { run with self := { run.self with done := true } }

/-- The two events of an upstream error. -/
def fail (run : Emitting ChatToResponses) (error : Value) : Emitting ChatToResponses :=
  let run := emit run
    (.obj [("type", "error"), ("error", error), ("message", error.field "message")])
  let run := emit run
    (.obj [("type", "response.failed"),
      ("response", .obj [("id", run.self.id), ("object", "response"), ("status", "failed"),
        ("error", error), ("output", .array run.self.output)])])
  { run with self := { run.self with done := true } }

/-- A chunk that is no end marker. -/
def pushChunk (serde : SerdeJson) (self : ChatToResponses) (reading : Reading) (payload : Value) :
    Except ConversionError (Emitting ChatToResponses) :=
  let run := start reading payload { self }
  match (payload.get "error").filter Value.present with
  | some error => .ok (fail run error)
  | none =>
    let run := match (payload.get "usage").filter Value.present with
      | some usage => { run with self := { run.self with usage := run.self.usage.update usage } }
      | none => run
    match (payload.get "choices").bind Value.asArray with
    | some choices => pushChoices serde run choices
    | none => .ok run

/-- The end marker. -/
def pushDone (self : ChatToResponses) : Except ConversionError (Emitting ChatToResponses) :=
  if self.id = "" then .error (invalid CC "empty upstream stream")
  else
    let reason := self.finishReason.getD (if self.tools.isEmpty then "stop" else "tool_calls")
    finish { self with finishReason := some reason }

/-- `push`. -/
def push (serde : SerdeJson) (self : ChatToResponses) (reading : Reading) (raw : List Char) :
    Except ConversionError (Emitting ChatToResponses) :=
  if self.done then .ok { self }
  else
    match data serde raw with
    | .error error => .error error
    | .ok none => .ok { self }
    | .ok (some payload) =>
      if payload.asStr = some "[DONE]" then pushDone self
      else pushChunk serde self reading payload

end ChatToResponses
end Aipass.Conversion
