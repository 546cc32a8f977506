import Aipass.Conversion.ChatToResponses

/-!
# Streams between Chat Completions and Anthropic Messages

Towards Anthropic at most one block of text or thinking is open, and the calls, whose fragments
arrive interleaved, are gathered and put out one after the other when the stream ends. Towards
Chat Completions every delta is passed on as it comes, and a call whose block brings no
arguments is given its initial input when the block stops.
-/
namespace Aipass.Conversion

/-- `am_stop_to_cc_finish`. -/
def amStopToCcFinish : Option String → String
  | some "max_tokens" => "length"
  | some "tool_use" => "tool_calls"
  | _ => "stop"

/-- `cc_finish_to_am_stop`. -/
def ccFinishToAmStop : Option String → String
  | some "length" => "max_tokens"
  | some "tool_calls" => "tool_use"
  | _ => "end_turn"

/-- `AmBlock`. -/
inductive AmBlock
  | text (index : ℕ)
  | thinking (index : ℕ)
deriving DecidableEq

/-- The index of an open block. -/
def AmBlock.index : AmBlock → ℕ
  | text index => index
  | thinking index => index

/-- `BufferedTool`. -/
structure BufferedTool where
  id : String := ""
  name : String := ""
  arguments : String := ""
  custom : Bool := false

/-- The arguments a fragment carries. -/
def fragmentText (serde : SerdeJson) (call : Value) : String :=
  match (call.pointer ["function", "arguments"]).or (call.pointer ["custom", "input"]) with
  | some (.string text) => text
  | some .null => ""
  | some value => serde.print value
  | none => ""

/-- A call after one more fragment. -/
def BufferedTool.extend (serde : SerdeJson) (tool : BufferedTool) (call : Value) : BufferedTool :=
  { id := tool.id ++ (call.field "id").asStr.getD ""
    name := tool.name ++
      string ((call.pointer ["function", "name"]).or (call.pointer ["custom", "name"]))
    custom := tool.custom ∨ (call.field "type").asStr = some "custom" ∨ (call.get "custom").isSome
    arguments := tool.arguments ++ fragmentText serde call }

/-- The arguments a call is put out with. -/
def BufferedTool.input (serde : SerdeJson) (tool : BufferedTool) : String :=
  if tool.custom then serde.print (.obj [("input", tool.arguments)])
  else if tool.arguments = "" then "{}"
  else tool.arguments

/-- `CcToAm`. -/
structure CcToAm where
  started : Bool := false
  id : Option String := none
  model : Option String := none
  nextBlock : ℕ := 0
  opened : Option AmBlock := none
  tools : Table ℕ BufferedTool := ∅
  finishReason : Option String := none
  usage : UsageAccumulator := {}
  terminated : Bool := false

namespace CcToAm

/-- `out.push(emit_typed(…))`: every event is typed by its own type. -/
def put (run : Emitting CcToAm) (kind : String) (fields : List (String × Value)) :
    Emitting CcToAm :=
  { run with out := run.out ++ [.typed kind (.obj (("type", .string kind) :: fields))] }

/-- The usage of the counters seen so far. -/
def wireUsage (self : CcToAm) : Value :=
  openaiUsageToAm (some self.usage.wire) "prompt_tokens" "prompt_tokens_details"

/-- `ensure_started`. -/
def ensureStarted (run : Emitting CcToAm) : Emitting CcToAm :=
  if run.self.started then run
  else
    let id := run.self.id.getD "chatcmpl_conv"
    let run := { run with self := { run.self with started := true, id := none } }
    put run "message_start" [("message", .obj
      [("id", swapIdPrefix (Text.replace "chatcmpl-" "chatcmpl_" id) "chatcmpl_" "msg_"),
        ("type", "message"), ("role", "assistant"), ("model", (run.self.model.getD "" : String)),
        ("content", .array []), ("stop_reason", .null), ("stop_sequence", .null),
        ("usage", wireUsage run.self)])]

/-- `close_open`. -/
def closeOpen (run : Emitting CcToAm) : Emitting CcToAm :=
  match run.self.opened with
  | none => run
  | some block =>
    put { run with self := { run.self with opened := none } } "content_block_stop"
      [("index", .nat block.index)]

/-- Open a block. -/
def openBlock (run : Emitting CcToAm) (block : ℕ → AmBlock) (content : Value) : Emitting CcToAm :=
  let run := closeOpen run
  let index := run.self.nextBlock
  let run := put { run with self := { run.self with nextBlock := index + 1 } }
    "content_block_start" [("index", .nat index), ("content_block", content)]
  { run with self := { run.self with opened := some (block index) } }

/-- The thinking block that is open, opened if none is. -/
def openThinking (run : Emitting CcToAm) : Emitting CcToAm :=
  match run.self.opened with
  | some (.thinking _) => run
  | _ => openBlock run .thinking (.obj [("type", "thinking"), ("thinking", "")])

/-- `open_text`. -/
def openText (run : Emitting CcToAm) : Emitting CcToAm :=
  match run.self.opened with
  | some (.text _) => run
  | _ => openBlock run .text (.obj [("type", "text"), ("text", "")])

/-- A delta of the open block. -/
def putDelta (run : Emitting CcToAm) (delta : Value) : Emitting CcToAm :=
  match run.self.opened with
  | some block => put run "content_block_delta" [("index", .nat block.index), ("delta", delta)]
  | none => run

/-- The reasoning of a delta. -/
def pushReasoning (run : Emitting CcToAm) (reasoning : String) : Emitting CcToAm :=
  if reasoning = "" then run
  else putDelta (openThinking run) (.obj [("type", "thinking_delta"), ("thinking", reasoning)])

/-- The text of a delta's content. -/
def contentText (delta : Value) : String :=
  match delta.get "content" with
  | some (.string text) => text
  | some (.array parts) =>
    String.join ((parts.filter fun part => (part.get "type").bind Value.asStr = some "text").filterMap
      fun part => (part.get "text").bind Value.asStr)
  | _ => ""

/-- The text of a delta. -/
def pushText (run : Emitting CcToAm) (text : String) : Emitting CcToAm :=
  if text = "" then run
  else putDelta (openText run) (.obj [("type", "text_delta"), ("text", text)])

/-- The most calls a stream may have. -/
def maxTools : ℕ := 1024

/-- The most bytes the arguments of a call may have. -/
def maxArguments : ℕ := 4 * 1024 * 1024

/-- The loop over the call fragments of a delta. -/
def pushCalls (serde : SerdeJson) :
    Table ℕ BufferedTool → List Value → Except ConversionError (Table ℕ BufferedTool)
  | tools, [] => .ok tools
  | tools, call :: rest =>
    let index := (call.field "index").asU64.getD 0
    if maxTools ≤ tools.size ∧ tools[index]?.isNone then
      .error (invalid CC "too many tool calls")
    else
      let tool := BufferedTool.extend serde (tools[index]?.getD {}) call
      if maxArguments < tool.arguments.utf8ByteSize then
        .error (invalid CC "tool arguments exceed conversion limit")
      else pushCalls serde (tools.insert index tool) rest

/-- A gathered call, put out as a block of its own. -/
def putTool (run : Emitting CcToAm) (id name input : String) : Emitting CcToAm :=
  let index := run.self.nextBlock
  let run := { run with self := { run.self with nextBlock := index + 1 } }
  let run := put run "content_block_start" [("index", .nat index), ("content_block", .obj
    [("type", "tool_use"), ("id", id), ("name", name), ("input", .obj [])])]
  let run := put run "content_block_delta" [("index", .nat index), ("delta", .obj
    [("type", "input_json_delta"), ("partial_json", input)])]
  put run "content_block_stop" [("index", .nat index)]

/-- The loop of `finish` over the gathered calls. -/
def putTools (serde : SerdeJson) : Emitting CcToAm → List (ℕ × BufferedTool) →
    Except ConversionError (Emitting CcToAm)
  | run, [] => .ok run
  | run, (index, tool) :: rest =>
    let id := if tool.id = "" then "toolu_conv_" ++ toString index else tool.id
    if tool.name = "" then .error (invalid CC "incomplete tool identity")
    else
      match serde.parse (tool.input serde).toList with
      | .error _ => .error (invalid CC "incomplete tool arguments")
      | .ok _ => putTools serde (putTool run id tool.name (tool.input serde)) rest

/-- The end of a message. -/
def putStop (run : Emitting CcToAm) (reason : String) : Emitting CcToAm :=
  let run := put run "message_delta"
    [("delta", .obj [("stop_reason", ccFinishToAmStop (some reason)), ("stop_sequence", .null)]),
      ("usage", wireUsage run.self)]
  let run := put run "message_stop" []
  { run with self := { run.self with terminated := true } }

/-- `finish`. -/
def finish (serde : SerdeJson) (self : CcToAm) : Except ConversionError (Emitting CcToAm) :=
  if self.terminated then .ok { self }
  else
    match self.finishReason with
    | none => .error (invalid CC "stream ended without finish_reason")
    | some reason => do
      let run := closeOpen (ensureStarted { self })
      let tools := run.self.tools.toList
      let run ← putTools serde { run with self := { run.self with tools := ∅ } } tools
      .ok (putStop run reason)

/-- An upstream error. -/
def fail (run : Emitting CcToAm) (error : Value) : Emitting CcToAm :=
  let run := put (closeOpen run) "error" [("error", error)]
  { run with self := { run.self with terminated := true } }

/-- The first choice of a chunk. -/
def pushChoice (serde : SerdeJson) (run : Emitting CcToAm) (choice : Value) :
    Except ConversionError (Emitting CcToAm) := do
  let run := ensureStarted run
  let delta := choice.field "delta"
  let run := pushReasoning run (chatReasoning delta)
  let run := pushText run (contentText delta)
  let calls := ((delta.get "tool_calls").bind Value.asArray).getD []
  let tools ← pushCalls serde run.self.tools calls
  let finishReason := ((choice.get "finish_reason").bind Value.asStr).or run.self.finishReason
  .ok { run with self := { run.self with tools, finishReason } }

/-- A chunk that is no end marker. -/
def pushChunk (serde : SerdeJson) (self : CcToAm) (chunk : Value) :
    Except ConversionError (Emitting CcToAm) :=
  match chunk.get "error" with
  | some error => .ok (fail { self } error)
  | none =>
    let self :=
      { self with
        id := self.id.or ((chunk.get "id").bind Value.asStr)
        model := self.model.or ((chunk.get "model").bind Value.asStr)
        usage := self.usage.observe CC chunk }
    match (((chunk.get "choices").bind Value.asArray).getD []).head? with
    | none => .ok { self }
    | some choice => pushChoice serde { self } choice

/-- `push`. -/
def push (serde : SerdeJson) (self : CcToAm) (raw : List Char) :
    Except ConversionError (Emitting CcToAm) := do
  let parsed ← parseSse raw
  if Text.trim parsed.data = "[DONE]".toList then finish serde self
  else if self.terminated then .ok { self }
  else
    match ← parsePayload serde parsed CC with
    | none => .ok { self }
    | some chunk => pushChunk serde self chunk

end CcToAm

/-- `AmToCc`. -/
structure AmToCc where
  started : Bool := false
  id : String := ""
  model : String := ""
  created : ℕ := 0
  nextTool : ℕ := 0
  /-- The chat index of each call, by its block index. -/
  toolIndices : Table ℕ ℕ := ∅
  /-- The arguments of the calls that brought none yet, by block index. -/
  toolFallbacks : Table ℕ String := ∅
  usage : UsageAccumulator := {}
  done : Bool := false

namespace AmToCc

/-- `chunk`. -/
def chunk (self : AmToCc) (delta finishReason : Value) (usage : Option Value) : Frame :=
  let chunk := Value.obj
    [("id", self.id), ("object", "chat.completion.chunk"), ("created", .nat self.created),
      ("model", self.model),
      ("choices", .array [.obj
        [("index", .nat 0), ("delta", delta), ("finish_reason", finishReason)]])]
  .untyped (match usage with
    | some usage => chunk.set "usage" usage
    | none => chunk)

/-- `out.push(self.chunk(delta, Value::Null, None))`. -/
def put (run : Emitting AmToCc) (delta : Value) : Emitting AmToCc :=
  { run with out := run.out ++ [chunk run.self delta .null none] }

/-- The start of a message. -/
def startMessage (run : Emitting AmToCc) (reading : Reading) (payload : Value) :
    Emitting AmToCc :=
  let message := payload.field "message"
  let self :=
    { run.self with
      id := swapIdPrefix (((message.get "id").bind Value.asStr).getD "msg_conv") "msg_" "chatcmpl_"
      model := string (message.get "model")
      created := reading.now
      started := true }
  put { run with self } (.obj [("role", "assistant")])

/-- The start of a block. -/
def startBlock (serde : SerdeJson) (run : Emitting AmToCc) (payload : Value) : Emitting AmToCc :=
  let index := number (payload.get "index")
  let block := payload.field "content_block"
  if (block.get "type").bind Value.asStr = some "tool_use" then
    let toolIndex := run.self.nextTool
    let self :=
      { run.self with
        nextTool := toolIndex + 1
        toolIndices := run.self.toolIndices.insert index toolIndex
        toolFallbacks := run.self.toolFallbacks.insert index
          (serde.print ((block.get "input").getD (.obj []))) }
    put { run with self } (.obj [("tool_calls", .array [.obj
      [("index", .nat toolIndex),
        ("id", (block.get "id").getD ("call_conv_" ++ toString toolIndex : String)),
        ("type", "function"),
        ("function", .obj [("name", block.field "name"), ("arguments", "")])]])])
  else run

/-- The chunk that carries a piece of arguments. -/
def callDelta (toolIndex : ℕ) (text : String) : Value :=
  .obj [("tool_calls", .array [.obj
    [("index", .nat toolIndex), ("function", .obj [("arguments", text)])]])]

/-- A delta of a block. -/
def pushDelta (run : Emitting AmToCc) (payload : Value) : Emitting AmToCc :=
  let index := number (payload.get "index")
  let delta := payload.field "delta"
  match (delta.get "type").bind Value.asStr with
  | some "thinking_delta" =>
    let text := string (delta.get "thinking")
    if text = "" then run else put run (.obj [("reasoning_content", text)])
  | some "text_delta" => put run (.obj [("content", string (delta.get "text"))])
  | some "input_json_delta" =>
    match run.self.toolIndices[index]? with
    | none => run
    | some toolIndex =>
      let text := string (delta.get "partial_json")
      let self := if text = "" then run.self
        else { run.self with toolFallbacks := run.self.toolFallbacks.erase index }
      put { run with self } (callDelta toolIndex text)
  | _ => run

/-- The stop reason and the usage. -/
def pushMessageDelta (run : Emitting AmToCc) (payload : Value) : Emitting AmToCc :=
  let finish := match (payload.pointer ["delta", "stop_reason"]).bind Value.asStr with
    | some reason => Value.string (amStopToCcFinish (some reason))
    | none => .null
  let usage := amUsageToOpenai (some run.self.usage.wire) "prompt_tokens" "completion_tokens"
    "prompt_tokens_details"
  { run with out := run.out ++ [chunk run.self (.obj []) finish (some usage)] }

/-- The end of a block. -/
def stopBlock (run : Emitting AmToCc) (payload : Value) : Emitting AmToCc :=
  let index := number (payload.get "index")
  match run.self.toolFallbacks[index]? with
  | none => run
  | some arguments =>
    let self := { run.self with toolFallbacks := run.self.toolFallbacks.erase index }
    put { run with self } (callDelta (run.self.toolIndices[index]?.getD 0) arguments)

/-- An upstream error. -/
def fail (run : Emitting AmToCc) (payload : Value) : Emitting AmToCc :=
  let id := if run.self.id = "" then "chatcmpl_conv" else run.self.id
  let chunk := Value.obj
    [("id", id), ("object", "chat.completion.chunk"), ("created", .nat run.self.created),
      ("model", run.self.model),
      ("choices", .array [.obj
        [("index", .nat 0), ("delta", .obj []), ("finish_reason", "stop")]]),
      ("error", payload.field "error")]
  { self := { run.self with done := true }, out := run.out ++ [.untyped chunk, .done] }

/-- What an event of a kind does. -/
def pushKind (serde : SerdeJson) (self : AmToCc) (reading : Reading) (kind : String)
    (payload : Value) : Emitting AmToCc :=
  let run : Emitting AmToCc := { self }
  match kind with
  | "message_start" => startMessage run reading payload
  | "content_block_start" => startBlock serde run payload
  | "content_block_delta" => pushDelta run payload
  | "message_delta" => pushMessageDelta run payload
  | "content_block_stop" => stopBlock run payload
  | "message_stop" => { self := { self with done := true }, out := [.done] }
  | "error" => fail run payload
  | _ => run

/-- `push`. -/
def push (serde : SerdeJson) (self : AmToCc) (reading : Reading) (raw : List Char) :
    Except ConversionError (Emitting AmToCc) := do
  let parsed ← parseSse raw
  match ← parsePayload serde parsed AM with
  | none => .ok { self }
  | some payload =>
    match eventKind parsed payload with
    | none => .ok { self }
    | some kind =>
      if self.done then .ok { self }
      else
        .ok (pushKind serde { self with usage := self.usage.observe AM payload } reading kind
          payload)

end AmToCc
end Aipass.Conversion
