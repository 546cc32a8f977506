import Aipass.Conversion.ChatToResponses

/-!
# Anthropic streams to Responses streams

At most one item is open: a block start or a delta of another kind closes the open item before
it opens its own, and the stream's end closes the last one. The events a call has put out are
numbered at its end, by reading each of them back and writing its number.
-/
namespace Aipass.Conversion

/-- An open item with the text accumulated for it. -/
structure OpenItem where
  /-- The output index. -/
  index : ℕ
  /-- The item: its identifier for a text, its announcement for a call. -/
  item : Value
  /-- The deltas so far. -/
  text : String

/-- `AmToRs`. -/
structure AmToRs where
  started : Bool := false
  id : String := ""
  model : String := ""
  created : ℕ := 0
  nextOutput : ℕ := 0
  textItem : Option OpenItem := none
  reasoningItem : Option OpenItem := none
  toolItem : Option OpenItem := none
  usage : UsageAccumulator := {}
  output : List Value := []
  stopReason : String := ""
  sequence : ℕ := 0
  terminated : Bool := false

namespace AmToRs

/-- `out.push(emit_typed(…))`: every event is typed by its own type. -/
def put (run : Emitting AmToRs) (kind : String) (fields : List (String × Value)) :
    Emitting AmToRs :=
  { run with out := run.out ++ [.typed kind (.obj (("type", .string kind) :: fields))] }

/-- The response of `response_envelope`. -/
def envelope (self : AmToRs) (kind status : String) : Value :=
  let response := Value.obj
    [("id", self.id), ("object", "response"), ("created_at", .nat self.created),
      ("status", status), ("model", self.model), ("output", .array self.output)]
  let response := if kind = "response.completed" ∨ kind = "response.incomplete" then
      response.set "usage" (amUsageToOpenai (some self.usage.wire) "input_tokens"
        "output_tokens" "input_tokens_details")
    else response
  if status = "incomplete" then
    response.set "incomplete_details" (.obj [("reason", "max_output_tokens")])
  else response

/-- `start_text`. -/
def startText (run : Emitting AmToRs) : Emitting AmToRs :=
  let index := run.self.nextOutput
  let itemId := run.self.id ++ "_msg_" ++ toString index
  let run := { run with self := { run.self with nextOutput := index + 1 } }
  let run := put run "response.output_item.added"
    [("output_index", .nat index), ("item", .obj
      [("type", "message"), ("id", itemId), ("role", "assistant"), ("status", "in_progress"),
        ("content", .array [])])]
  let run := put run "response.content_part.added"
    [("item_id", itemId), ("output_index", .nat index), ("content_index", .nat 0),
      ("part", .obj [("type", "output_text"), ("text", ""), ("annotations", .array [])])]
  { run with self := { run.self with textItem := some ⟨index, itemId, ""⟩ } }

/-- The opening of a reasoning item. -/
def startReasoning (run : Emitting AmToRs) : Emitting AmToRs :=
  let index := run.self.nextOutput
  let id := run.self.id ++ "_rs_" ++ toString index
  let run := { run with self := { run.self with nextOutput := index + 1 } }
  let run := put run "response.output_item.added"
    [("output_index", .nat index),
      ("item", .obj [("type", "reasoning"), ("id", id), ("summary", .array [])])]
  let run := put run "response.reasoning_summary_part.added"
    [("output_index", .nat index), ("item_id", id), ("summary_index", .nat 0),
      ("part", .obj [("type", "summary_text"), ("text", "")])]
  { run with self := { run.self with reasoningItem := some ⟨index, id, ""⟩ } }

/-- The announcement of a call. -/
def callItem (self : AmToRs) (index : ℕ) (block : Value) : Value :=
  .obj [("type", "function_call"), ("id", self.id ++ "_fc_" ++ toString index),
    ("call_id", (block.get "id").getD ("call_conv_" ++ toString index : String)),
    ("name", block.field "name"), ("arguments", ""), ("status", "in_progress")]

/-- The arguments of a call whose block brings no delta. -/
def initialInput (serde : SerdeJson) (block : Value) : String :=
  serde.print ((block.get "input").getD (.obj []))

/-- The opening of a call. -/
def startCall (serde : SerdeJson) (run : Emitting AmToRs) (block : Value) : Emitting AmToRs :=
  let index := run.self.nextOutput
  let run := { run with self := { run.self with nextOutput := index + 1 } }
  let item := callItem run.self index block
  let run := put run "response.output_item.added" [("output_index", .nat index), ("item", item)]
  let item := item.set "arguments" (initialInput serde block)
  { run with self := { run.self with toolItem := some ⟨index, item, ""⟩ } }

/-- The closing of an open reasoning item. -/
def closeReasoning (run : Emitting AmToRs) : Emitting AmToRs :=
  match run.self.reasoningItem with
  | none => run
  | some ⟨index, id, text⟩ =>
    let part := Value.obj [("type", "summary_text"), ("text", text)]
    let item := Value.obj [("type", "reasoning"), ("id", id), ("summary", .array [part])]
    let run := put run "response.reasoning_summary_text.done"
      [("output_index", .nat index), ("item_id", id), ("summary_index", .nat 0), ("text", text)]
    let run := put run "response.reasoning_summary_part.done"
      [("output_index", .nat index), ("item_id", id), ("summary_index", .nat 0), ("part", part)]
    let run := put run "response.output_item.done" [("output_index", .nat index), ("item", item)]
    { run with
      self := { run.self with reasoningItem := none, output := run.self.output ++ [item] } }

/-- The closing of an open text item. -/
def closeText (run : Emitting AmToRs) : Emitting AmToRs :=
  match run.self.textItem with
  | none => run
  | some ⟨index, id, text⟩ =>
    let run := put run "response.output_text.done"
      [("item_id", id), ("output_index", .nat index), ("content_index", .nat 0), ("text", text)]
    let part := Value.obj [("type", "output_text"), ("text", text), ("annotations", .array [])]
    let item := Value.obj
      [("type", "message"), ("id", id), ("role", "assistant"), ("status", "completed"),
        ("content", .array [part])]
    let run := put run "response.content_part.done"
      [("item_id", id), ("output_index", .nat index), ("content_index", .nat 0), ("part", part)]
    let run := put run "response.output_item.done" [("output_index", .nat index), ("item", item)]
    { run with self := { run.self with textItem := none, output := run.self.output ++ [item] } }

/-- The closing of an open call. -/
def closeCall (run : Emitting AmToRs) : Emitting AmToRs :=
  match run.self.toolItem with
  | none => run
  | some ⟨index, item, arguments⟩ =>
    let item := if arguments = "" then item else item.set "arguments" arguments
    let item := item.set "status" "completed"
    let run := put run "response.function_call_arguments.done"
      [("item_id", item.field "id"), ("output_index", .nat index),
        ("arguments", item.field "arguments")]
    let run := put run "response.output_item.done" [("output_index", .nat index), ("item", item)]
    { run with self := { run.self with toolItem := none, output := run.self.output ++ [item] } }

/-- `finalize_open`. -/
def finalizeOpen (run : Emitting AmToRs) : Emitting AmToRs :=
  closeCall (closeText (closeReasoning run))

/-- An upstream error. -/
def fail (run : Emitting AmToRs) (payload : Value) : Emitting AmToRs :=
  let run := finalizeOpen run
  let error := payload.field "error"
  let run := put run "error"
    [("code", error.field "type"), ("message", error.field "message"), ("param", .null)]
  let response := (envelope run.self "response.failed" "failed").set "error" error
  let run := put run "response.failed" [("response", response)]
  { run with self := { run.self with terminated := true } }

/-- The start of a message. -/
def startMessage (run : Emitting AmToRs) (reading : Reading) (payload : Value) :
    Emitting AmToRs :=
  let message := payload.field "message"
  let self :=
    { run.self with
      id := swapIdPrefix (((message.get "id").bind Value.asStr).getD "msg_conv") "msg_" "resp_"
      model := string (message.get "model")
      created := reading.now
      started := true }
  let run := put { run with self } "response.created"
    [("response", envelope self "response.created" "in_progress")]
  put run "response.in_progress" [("response", envelope self "response.in_progress" "in_progress")]

/-- The start of a block. -/
def startBlock (serde : SerdeJson) (run : Emitting AmToRs) (payload : Value) : Emitting AmToRs :=
  let block := payload.field "content_block"
  match (block.get "type").bind Value.asStr with
  | some "text" => startText (finalizeOpen run)
  | some "tool_use" => startCall serde (finalizeOpen run) block
  | _ => run

/-- A piece of reasoning for the open reasoning item. -/
def appendReasoning (run : Emitting AmToRs) (text : String) : Emitting AmToRs :=
  match run.self.reasoningItem with
  | none => run
  | some ⟨index, id, held⟩ =>
    let run := put run "response.reasoning_summary_text.delta"
      [("output_index", .nat index), ("item_id", id), ("summary_index", .nat 0), ("delta", text)]
    { run with self := { run.self with reasoningItem := some ⟨index, id, held ++ text⟩ } }

/-- A piece of text for the open text item. -/
def appendText (run : Emitting AmToRs) (text : String) : Emitting AmToRs :=
  match run.self.textItem with
  | none => run
  | some ⟨index, id, held⟩ =>
    let run := put run "response.output_text.delta"
      [("item_id", id), ("output_index", .nat index), ("content_index", .nat 0), ("delta", text)]
    { run with self := { run.self with textItem := some ⟨index, id, held ++ text⟩ } }

/-- A piece of arguments for the open call. -/
def appendCall (run : Emitting AmToRs) (text : String) : Emitting AmToRs :=
  match run.self.toolItem with
  | none => run
  | some ⟨index, item, held⟩ =>
    let run := put run "response.function_call_arguments.delta"
      [("item_id", item.field "id"), ("output_index", .nat index), ("delta", text)]
    { run with self := { run.self with toolItem := some ⟨index, item, held ++ text⟩ } }

/-- A delta of a block. -/
def pushDelta (run : Emitting AmToRs) (payload : Value) : Emitting AmToRs :=
  let delta := payload.field "delta"
  match (delta.get "type").bind Value.asStr with
  | some "thinking_delta" =>
    let text := string (delta.get "thinking")
    if text = "" then run
    else
      let run := if run.self.reasoningItem.isNone then startReasoning (finalizeOpen run) else run
      appendReasoning run text
  | some "text_delta" =>
    let run := if run.self.textItem.isNone then startText (finalizeOpen run) else run
    appendText run (string (delta.get "text"))
  | some "input_json_delta" => appendCall run (string (delta.get "partial_json"))
  | _ => run

/-- The end of the message. -/
def stopMessage (run : Emitting AmToRs) : Emitting AmToRs :=
  let run := finalizeOpen run
  let run := if run.self.stopReason = "max_tokens" then
      put run "response.incomplete"
        [("response", envelope run.self "response.incomplete" "incomplete")]
    else
      put run "response.completed"
        [("response", envelope run.self "response.completed" "completed")]
  { run with self := { run.self with terminated := true } }

/-- What an event of a kind does before its own events are numbered. -/
def pushKind (serde : SerdeJson) (self : AmToRs) (reading : Reading) (kind : String)
    (payload : Value) : Emitting AmToRs :=
  let run : Emitting AmToRs := { self }
  match kind with
  | "error" => fail run payload
  | "message_start" => startMessage run reading payload
  | "content_block_start" => startBlock serde run payload
  | "content_block_delta" => pushDelta run payload
  | "content_block_stop" => finalizeOpen run
  | "message_delta" =>
    match (payload.pointer ["delta", "stop_reason"]).bind Value.asStr with
    | some reason => { run with self := { run.self with stopReason := reason } }
    | none => run
  | "message_stop" => stopMessage run
  | _ => run

/-- The numbering of the events put out: each is read back from its text. -/
def renumber (serde : SerdeJson) (sequence : ℕ) : List Frame →
    Except ConversionError (List Frame)
  | [] => .ok []
  | event :: rest => do
    let parsed ← parseSse (event.text serde)
    let value ← (serde.parse parsed.data).mapError fun _ => invalid AM "invalid converted event"
    let numbered := Frame.typed (String.ofList (parsed.kind.getD []))
      (value.set "sequence_number" (.nat sequence))
    let rest ← renumber serde (sequence + 1) rest
    .ok (numbered :: rest)

/-- `push`. -/
def push (serde : SerdeJson) (self : AmToRs) (reading : Reading) (raw : List Char) :
    Except ConversionError (Emitting AmToRs) := do
  let parsed ← parseSse raw
  match ← parsePayload serde parsed AM with
  | none => .ok { self }
  | some payload =>
    match eventKind parsed payload with
    | none => .ok { self }
    | some kind =>
      if self.terminated then .ok { self }
      else
        let self := { self with usage := self.usage.observe AM payload }
        let run := pushKind serde self reading kind payload
        let out ← renumber serde run.self.sequence run.out
        .ok { self := { run.self with sequence := run.self.sequence + run.out.length }, out }

end AmToRs
end Aipass.Conversion
