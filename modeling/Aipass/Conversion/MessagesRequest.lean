import Aipass.Conversion.Request

/-!
# Requests from Anthropic Messages

The blocks of a message are split by kind and put out kind by kind: to Chat Completions as a
message, the tool results as messages of their own and the images of results as a user message;
to Responses as a message and one item for every other block.
-/
namespace Aipass.Conversion

/-- `am_system_text`. -/
def amSystemText : Option Value → Option String
  | some (.string text) => some text
  | some (.array blocks) =>
    let text := joinLines (textsOf ["text"] blocks)
    if text = "" then none else some text
  | _ => none

/-- `am_image_url`. -/
def amImageUrl (block : Value) : Option String := do
  let source ← block.get "source"
  match ← (source.get "type").bind Value.asStr with
  | "base64" =>
    let mediaType ← (source.get "media_type").bind Value.asStr
    let data ← (source.get "data").bind Value.asStr
    some ("data:" ++ mediaType ++ ";base64," ++ data)
  | "url" => (source.get "url").bind Value.asStr
  | _ => none

/-- `am_tool_result_text`. -/
def amToolResultText (serde : SerdeJson) : Value → String
  | .string text => text
  | .array blocks => joinLines (textsOf ["text"] blocks)
  | other => jsonString serde other

/-- `cc_content`. -/
def ccContent (parts : List Value) : Value :=
  if parts.all fun part => (part.get "type").bind Value.asStr = some "text" then
    .string (joinLines (parts.filterMap fun part => (part.get "text").bind Value.asStr))
  else .array parts

/-- The name and the arguments of a choice of one tool. -/
def amToolChoice (named : Value → Value) (choice : Value) : Value :=
  match (choice.get "type").bind Value.asStr with
  | some "any" => "required"
  | some "none" => "none"
  | some "tool" => named (choice.field "name")
  | _ => "auto"

/-- `am_tool_choice_to_cc`. -/
def amToolChoiceToCc : Value → Value :=
  amToolChoice fun name => .obj [("type", "function"), ("function", .obj [("name", name)])]

/-- `am_tool_choice_to_rs`. -/
def amToolChoiceToRs : Value → Value :=
  amToolChoice fun name => .obj [("type", "function"), ("name", name)]

/-- The identifier of a call, generated where it has none, and the count of generated
identifiers. -/
def callId (generatedIds : ℕ) (block : Value) : Value × ℕ :=
  match block.get "id" with
  | some id => (id, generatedIds)
  | none => (.string ("call_conv_" ++ toString generatedIds), generatedIds + 1)

/-- An image part of a chat message. -/
def chatImage (url : String) : Value :=
  .obj [("type", "image_url"), ("image_url", .obj [("url", url)])]

/-- What `am_message_to_cc` has collected of the blocks of a message. -/
structure ChatParts where
  parts : List Value := []
  toolCalls : List Value := []
  toolResults : List Value := []
  toolImages : List Value := []
  reasoning : String := ""
  generatedIds : ℕ

/-- A call as Chat Completions lists it. -/
def amCallToCc (serde : SerdeJson) (id block : Value) : Value :=
  .obj [("id", id), ("type", "function"),
    ("function", .obj [("name", block.field "name"),
      ("arguments", jsonString serde (block.field "input"))])]

/-- The tool message of a result. -/
def amResultToCc (serde : SerdeJson) (block : Value) : Value :=
  .obj [("role", "tool"), ("tool_call_id", block.field "tool_use_id"),
    ("content", amToolResultText serde (block.field "content"))]

/-- The images of a result. -/
def amResultImages (block : Value) : List Value :=
  ((((block.get "content").bind Value.asArray).getD []).filter fun inner =>
    blockType inner = "image").filterMap fun image => (amImageUrl image).map chatImage

/-- One block of `am_message_to_cc`. -/
def amBlockToCc (serde : SerdeJson) (split : ChatParts) (block : Value) : ChatParts :=
  match blockType block with
  | "text" =>
    { split with parts := split.parts ++ ((block.get "text").map fun text =>
        Value.obj [("type", "text"), ("text", text)]).toList }
  | "image" => { split with parts := split.parts ++ ((amImageUrl block).map chatImage).toList }
  | "tool_use" =>
    { split with
      toolCalls := split.toolCalls ++ [amCallToCc serde (callId split.generatedIds block).1 block]
      generatedIds := (callId split.generatedIds block).2 }
  | "thinking" =>
    { split with
      reasoning := split.reasoning ++ ((block.get "thinking").bind Value.asStr).getD "" }
  | "tool_result" =>
    { split with
      toolImages := split.toolImages ++ amResultImages block
      toolResults := split.toolResults ++ [amResultToCc serde block] }
  | _ => split

/-- The assistant message of the parts, the calls and the reasoning. -/
def amAssistantToCc (split : ChatParts) : Value :=
  let message := Value.obj [("role", "assistant")]
  let message := if split.reasoning = "" then message
    else message.set "reasoning_content" split.reasoning
  let message := message.set "content"
    (if split.parts = [] then .null else ccContent split.parts)
  if split.toolCalls = [] then message else message.set "tool_calls" (.array split.toolCalls)

/-- The messages that are put out of what was collected. -/
def chatMessages (role : String) (split : ChatParts) : List Value :=
  let own :=
    if role = "assistant" then [amAssistantToCc split]
    else
      (if split.parts = [] then []
        else [Value.obj [("role", role), ("content", ccContent split.parts)]]) ++
      (if split.toolCalls = [] then []
        else [Value.obj [("role", "assistant"), ("content", .null),
          ("tool_calls", .array split.toolCalls)]])
  own ++ split.toolResults ++
    (if split.toolImages = [] then []
      else [Value.obj [("role", "user"), ("content", .array split.toolImages)]])

/-- `am_message_to_cc`: the messages of one message, and the count of generated identifiers. -/
def amMessageToCc (serde : SerdeJson) (generatedIds : ℕ) (message : Value) : List Value × ℕ :=
  let role := messageRole message
  match message.get "content" with
  | some (.string text) => ([.obj [("role", role), ("content", text)]], generatedIds)
  | some (.array blocks) =>
    let split := blocks.foldl (amBlockToCc serde) { generatedIds }
    if role = "assistant" ∧ split.parts = [] ∧ split.toolCalls = [] ∧ split.reasoning = "" then
      ([], split.generatedIds)
    else (chatMessages role split, split.generatedIds)
  | _ => ([], generatedIds)

/-- The messages of a request. -/
def amMessagesToCc (serde : SerdeJson) : ℕ → List Value → List Value
  | _, [] => []
  | generatedIds, message :: rest =>
    (amMessageToCc serde generatedIds message).1 ++
      amMessagesToCc serde (amMessageToCc serde generatedIds message).2 rest

/-- A tool as Chat Completions lists it. -/
def amToolToCc (tool : Value) : Value :=
  .obj [("type", "function"),
    ("function", .obj [("name", tool.field "name"), ("description", tool.field "description"),
      ("parameters", (tool.get "input_schema").getD (.obj [("type", "object")]))])]

/-- `am_to_cc`. -/
def amToCc (serde : SerdeJson) (src : Value) : Except ConversionError Value := do
  object src AM
  let out := amThinking src CC (.obj [])
  let out := pass src ["model", "stream", "temperature", "top_p"] out
  let out := setSome "max_tokens" (src.get "max_tokens") out
  let out := setSome "stop" (src.get "stop_sequences") out
  let system := (amSystemText (src.get "system")).toList.map fun text : String =>
    Value.obj [("role", "system"), ("content", text)]
  let messages ← okOr (invalid AM "missing messages array")
    ((src.get "messages").bind Value.asArray)
  let out := out.set "messages" (.array (system ++ amMessagesToCc serde 0 messages))
  let out := setSome "tools" (((src.get "tools").bind Value.asArray).map fun tools =>
    .array (tools.map amToolToCc)) out
  .ok (setSome "tool_choice" ((src.get "tool_choice").map amToolChoiceToCc) out)

/-- What `am_message_to_rs` has collected of the blocks of a message. -/
structure ResponsesParts where
  parts : List Value := []
  calls : List Value := []
  generatedIds : ℕ

/-- The output of a result. -/
def amResultOutput (serde : SerdeJson) : Option Value → Value
  | some (.array blocks) =>
    if blocks.any fun block => blockType block = "image" then
      .array (blocks.filterMap fun block =>
        match blockType block with
        | "text" => some (.obj [("type", "input_text"), ("text", block.field "text")])
        | "image" => (amImageUrl block).map fun url =>
          .obj [("type", "input_image"), ("image_url", url)]
        | _ => none)
    else amToolResultText serde (.array blocks)
  | other => amToolResultText serde (other.getD .null)

/-- One block of `am_message_to_rs`. -/
def amBlockToRs (serde : SerdeJson) (textType : String) (split : ResponsesParts)
    (block : Value) : ResponsesParts :=
  match blockType block with
  | "text" =>
    { split with parts := split.parts ++ ((block.get "text").map fun text =>
        Value.obj [("type", textType), ("text", text)]).toList }
  | "image" =>
    { split with parts := split.parts ++ ((amImageUrl block).map fun url =>
        Value.obj [("type", "input_image"), ("image_url", url)]).toList }
  | "tool_use" =>
    { split with
      calls := split.calls ++ [.obj [("type", "function_call"),
        ("call_id", (callId split.generatedIds block).1), ("name", block.field "name"),
        ("arguments", jsonString serde (block.field "input"))]]
      generatedIds := (callId split.generatedIds block).2 }
  | "thinking" =>
    { split with
      calls := split.calls ++ [.obj [("type", "reasoning"),
        ("summary", .array [.obj [("type", "summary_text"),
          ("text", block.field "thinking")]])]] }
  | "tool_result" =>
    { split with
      calls := split.calls ++ [.obj [("type", "function_call_output"),
        ("call_id", block.field "tool_use_id"),
        ("output", amResultOutput serde (block.get "content"))]] }
  | _ => split

/-- `am_message_to_rs`: the items of one message, and the count of generated identifiers. -/
def amMessageToRs (serde : SerdeJson) (generatedIds : ℕ) (message : Value) : List Value × ℕ :=
  let role := messageRole message
  let textType := if role = "assistant" then "output_text" else "input_text"
  match message.get "content" with
  | some (.string text) =>
    ([.obj [("type", "message"), ("role", role),
      ("content", .array [.obj [("type", textType), ("text", text)]])]], generatedIds)
  | some (.array blocks) =>
    let split := blocks.foldl (amBlockToRs serde textType) { generatedIds }
    ((if split.parts = [] then []
      else [Value.obj [("type", "message"), ("role", role), ("content", .array split.parts)]]) ++
      split.calls, split.generatedIds)
  | _ => ([], generatedIds)

/-- The items of a request. -/
def amMessagesToRs (serde : SerdeJson) : ℕ → List Value → List Value
  | _, [] => []
  | generatedIds, message :: rest =>
    (amMessageToRs serde generatedIds message).1 ++
      amMessagesToRs serde (amMessageToRs serde generatedIds message).2 rest

/-- A tool as Responses lists it. -/
def amToolToRs (tool : Value) : Value :=
  .obj [("type", "function"), ("name", tool.field "name"),
    ("description", tool.field "description"),
    ("parameters", (tool.get "input_schema").getD (.obj [("type", "object")]))]

/-- `am_to_rs`. -/
def amToRs (serde : SerdeJson) (src : Value) : Except ConversionError Value := do
  object src AM
  let out := amThinking src RS (.obj [])
  let out := pass src ["model", "stream", "temperature", "top_p"] out
  let out := setSome "instructions" ((amSystemText (src.get "system")).map Value.string) out
  let out := setSome "max_output_tokens" (src.get "max_tokens") out
  let messages ← okOr (invalid AM "missing messages array")
    ((src.get "messages").bind Value.asArray)
  let out := out.set "input" (.array (amMessagesToRs serde 0 messages))
  let out := setSome "tools" (((src.get "tools").bind Value.asArray).map fun tools =>
    .array (tools.map amToolToRs)) out
  .ok (setSome "tool_choice" ((src.get "tool_choice").map amToolChoiceToRs) out)

end Aipass.Conversion
