import Aipass.Conversion.Request

/-!
# Requests to Anthropic Messages

A request of either OpenAI format becomes an Anthropic request. Its messages are gathered as
blocks under a role; runs of one role are folded into one message at the end.
-/
namespace Aipass.Conversion

/-- `DEFAULT_MAX_TOKENS`. -/
def defaultMaxTokens : ℕ := 4096

/-- The role of an Anthropic message. -/
inductive Role
  | user
  | assistant
deriving DecidableEq, Repr

/-- The role as the wire has it. -/
def Role.name : Role → String
  | .user => "user"
  | .assistant => "assistant"

/-- A role and the blocks said under it. -/
abbrev Entry := Role × List Value

/-- A text block. -/
def textBlock (text : Value) : Value := .obj [("type", "text"), ("text", text)]

/-- A `tool_use` block. -/
def toolUse (id name input : Value) : Value :=
  .obj [("type", "tool_use"), ("id", id), ("name", name), ("input", input)]

/-- A `tool_result` block. -/
def toolResult (id content : Value) : Value :=
  .obj [("type", "tool_result"), ("tool_use_id", id), ("content", content)]

/-- Reasoning of another provider, as text. -/
def reasoningBlock (reasoning : String) : Value :=
  textBlock (.string ("<reasoning>" ++ reasoning ++ "</reasoning>"))

/-- What a converter has gathered. -/
structure Gathered where
  systemParts : List String := []
  messages : List Entry := []
  generatedIds : ℕ := 0

/-- `cc_content_text`. -/
def ccContentText : Option Value → Option String
  | some (.string text) => some text
  | some (.array parts) => some (joinLines (textsOf ["text"] parts))
  | _ => none

/-- `data_url_to_am_source`. -/
def dataUrlToAmSource (url : String) : Value :=
  match (Text.stripPrefix "data:".toList url.toList).bind (Text.splitOnce ";base64,".toList) with
  | some (mediaType, data) =>
    .obj [("type", "base64"), ("media_type", String.ofList mediaType),
      ("data", String.ofList data)]
  | none => .obj [("type", "url"), ("url", url)]

/-- An image block. -/
def imageBlock (url : String) : Value :=
  .obj [("type", "image"), ("source", dataUrlToAmSource url)]

/-- A part of `cc_parts_to_am_blocks`. -/
def ccPartToAmBlock (part : Value) : Option Value :=
  match (part.get "type").bind Value.asStr with
  | some "text" => some (textBlock (part.field "text"))
  | some "image_url" => ((part.pointer ["image_url", "url"]).bind Value.asStr).map imageBlock
  | _ => none

/-- `cc_parts_to_am_blocks`. -/
def ccPartsToAmBlocks : Option Value → List Value
  | some (.string text) => [textBlock text]
  | some (.array parts) => parts.filterMap ccPartToAmBlock
  | _ => []

/-- The identifier generated for a call without one. -/
def generatedId (count : ℕ) : String := "toolu_conv_" ++ toString count

/-- The name and the input of a call. -/
def ccCallInput (serde : SerdeJson) (call : Value) : Except ConversionError (Value × Value) :=
  match (call.get "type").bind Value.asStr with
  | some "custom" =>
    .ok ((call.pointer ["custom", "name"]).getD .null,
      .obj [("input", (call.pointer ["custom", "input"]).getD .null)])
  | _ => do
    let function := call.field "function"
    let input ← parseToolArguments serde (function.get "arguments") CC
    .ok (function.field "name", input)

/-- One call of an assistant message. -/
def ccCallToAm (serde : SerdeJson) (generatedIds : ℕ) (call : Value) :
    Except ConversionError (Value × ℕ) := do
  let (name, input) ← ccCallInput serde call
  match (call.get "id").bind Value.asStr with
  | some id => .ok (toolUse id name input, generatedIds)
  | none => .ok (toolUse (generatedId (generatedIds + 1)) name input, generatedIds + 1)

/-- The calls of an assistant message. -/
def ccCallsToAm (serde : SerdeJson) : ℕ → List Value →
    Except ConversionError (List Value × ℕ)
  | generatedIds, [] => .ok ([], generatedIds)
  | generatedIds, call :: rest => do
    let (block, generatedIds) ← ccCallToAm serde generatedIds call
    let (blocks, generatedIds) ← ccCallsToAm serde generatedIds rest
    .ok (block :: blocks, generatedIds)

/-- The text and the reasoning of an assistant message. -/
def ccAssistantText (message : Value) : List Value :=
  let reasoning := chatReasoning message
  let text := (ccContentText (message.get "content")).getD ""
  (if reasoning = "" then [] else [reasoningBlock reasoning]) ++
    (if text = "" then [] else [textBlock text])

/-- The calls an assistant message lists. -/
def ccToolCalls (message : Value) : List Value :=
  ((message.get "tool_calls").bind Value.asArray).getD []

/-- What a tool message returns. -/
def ccToolContent : Option Value → Value
  | some (.array parts) => .array (ccPartsToAmBlocks (some (.array parts)))
  | content => .string ((ccContentText content).getD "")

/-- One message of `cc_to_am`. -/
def ccMessageToAm (serde : SerdeJson) (gathered : Gathered) (message : Value) :
    Except ConversionError Gathered :=
  match messageRole message with
  | "system" | "developer" =>
    let text := (ccContentText (message.get "content")).getD ""
    .ok (if text = "" then gathered
      else { gathered with systemParts := gathered.systemParts ++ [text] })
  | "assistant" => do
    let (calls, generatedIds) ← ccCallsToAm serde gathered.generatedIds (ccToolCalls message)
    let blocks := ccAssistantText message ++ calls
    .ok { gathered with
      messages := gathered.messages ++ (if blocks = [] then [] else [(.assistant, blocks)])
      generatedIds }
  | "tool" =>
    let result := toolResult (message.field "tool_call_id")
      (ccToolContent (message.get "content"))
    .ok { gathered with messages := gathered.messages ++ [(.user, [result])] }
  | _ =>
    let blocks := ccPartsToAmBlocks (message.get "content")
    .ok { gathered with messages := gathered.messages ++ [(.user, blocks)] }

/-- `cc_function_to_am_tool`. -/
def ccFunctionToAmTool (function : Value) : Value :=
  .obj [("name", function.field "name"), ("description", function.field "description"),
    ("input_schema", (function.get "parameters").getD (.obj [("type", "object")]))]

/-- `cc_tool_to_am`. -/
def ccToolToAm (tool : Value) : Value :=
  if (tool.get "type").bind Value.asStr = some "custom" then
    let custom := ((tool.get "custom").filter fun custom => custom.asObject.isSome).getD tool
    .obj [("name", custom.field "name"), ("description", custom.field "description"),
      ("input_schema", .obj [("type", "object"),
        ("properties", .obj [("input", .obj [("type", "string")])]),
        ("required", .array [.string "input"])])]
  else ccFunctionToAmTool ((tool.get "function").getD tool)

/-- `cc_tool_choice_to_am`. -/
def ccToolChoiceToAm : Value → Value
  | .string "required" => .obj [("type", "any")]
  | .string "none" => .obj [("type", "none")]
  | .object fields =>
    .obj [("type", "tool"),
      ("name", ((Value.object fields).pointer ["function", "name"]).getD .null)]
  | _ => .obj [("type", "auto")]

/-- One entry of `merge_consecutive`: a run of one role goes on, or a new one starts. -/
def mergeEntry (merged : List Entry) (entry : Entry) : List Entry :=
  match merged.getLast? with
  | some last =>
    if last.1 = entry.1 then merged.dropLast ++ [(last.1, last.2 ++ entry.2)]
    else merged ++ [entry]
  | none => [entry]

/-- A message with a role and its blocks. -/
def amMessage (entry : Entry) : Value :=
  .obj [("role", entry.1.name), ("content", .array entry.2)]

/-- `merge_consecutive`. -/
def mergeConsecutive (messages : List Entry) : List Value :=
  ((messages.foldl mergeEntry []).filter fun entry => entry.2 ≠ []).map amMessage

/-- `cc_to_am`. -/
def ccToAm (serde : SerdeJson) (src : Value) : Except ConversionError Value := do
  object src CC
  let out := openaiThinking src (.obj [])
  let out := pass src ["model", "stream", "temperature", "top_p"] out
  let maxTokens := (((src.get "max_tokens").or (src.get "max_completion_tokens")).bind
    Value.asU64).getD defaultMaxTokens
  let out := out.set "max_tokens" (.nat maxTokens)
  let out := setSome "stop_sequences" ((src.get "stop").map fun
    | .string text => .array [.string text]
    | other => other) out
  let messages ← okOr (invalid CC "missing messages array")
    ((src.get "messages").bind Value.asArray)
  let gathered ← messages.foldlM (ccMessageToAm serde) {}
  let out := if gathered.systemParts = [] then out
    else out.set "system" (joinLines gathered.systemParts)
  let out := out.set "messages" (.array (mergeConsecutive gathered.messages))
  let tools := (((src.get "tools").bind Value.asArray).getD []).map ccToolToAm ++
    (((src.get "functions").bind Value.asArray).getD []).map ccFunctionToAmTool
  let out := if tools = [] then out else out.set "tools" (.array tools)
  .ok (setSome "tool_choice" ((src.get "tool_choice").map ccToolChoiceToAm) out)

/-- A part of `rs_message_content_to_am`. -/
def rsPartToAmBlock (part : Value) : Option Value :=
  match (part.get "type").bind Value.asStr with
  | some "input_text" | some "output_text" => some (textBlock (part.field "text"))
  | some "input_image" => ((part.get "image_url").bind Value.asStr).map imageBlock
  | _ => none

/-- `rs_message_content_to_am`. -/
def rsMessageContentToAm : Option Value → List Value
  | some (.string text) => [textBlock text]
  | some (.array parts) => parts.filterMap rsPartToAmBlock
  | _ => []

/-- The plain reasoning of an item. -/
def summaryText (item : Value) : String :=
  String.join ((((item.get "summary").bind Value.asArray).getD []).filterMap fun part =>
    (part.get "text").bind Value.asStr)

/-- What a function returns. -/
def rsOutputContent (serde : SerdeJson) : Option Value → Value
  | some (.string text) => text
  | some (.array parts) => .array (rsMessageContentToAm (some (.array parts)))
  | some other => jsonString serde other
  | none => ""

/-- A kind of tool call or result that Anthropic has no block for. -/
def foreignCall (kind : String) : Bool :=
  "_call".toList.isSuffixOf kind.toList ∨ "_call_output".toList.isSuffixOf kind.toList

/-- A message item of `rs_item_to_am`. -/
def rsMessageToAm (item : Value) : Entry :=
  (if messageRole item = "assistant" then .assistant else .user,
    rsMessageContentToAm (item.get "content"))

/-- `rs_item_to_am`: the entry of an item, if it has one, and the count of generated
identifiers. -/
def rsItemToAm (serde : SerdeJson) (generatedIds : ℕ) (item : Value) :
    Except ConversionError (Option Entry × ℕ) :=
  match (item.get "type").bind Value.asStr with
  | some "function_call" => do
    let input ← parseToolArguments serde (item.get "arguments") RS
    match (item.get "call_id").or (item.get "id") with
    | some id => .ok (some (.assistant, [toolUse id (item.field "name") input]), generatedIds)
    | none =>
      .ok (some (.assistant,
        [toolUse (generatedId (generatedIds + 1)) (item.field "name") input]), generatedIds + 1)
  | some "function_call_output" =>
    .ok (some (.user, [toolResult (item.field "call_id")
      (rsOutputContent serde (item.get "output"))]), generatedIds)
  | some "reasoning" =>
    let reasoning := summaryText item
    .ok (if reasoning = "" then none else some (.assistant, [reasoningBlock reasoning]),
      generatedIds)
  | some "item_reference" =>
    .error (invalid RS "stored item references require a native Responses upstream")
  | some "message" =>
    .ok (if (item.get "role").isSome then some (rsMessageToAm item) else none, generatedIds)
  | some kind =>
    if foreignCall kind then
      .error (invalid RS ("Responses to Anthropic conversion cannot preserve this tool call or " ++
        "result; use a native Responses upstream"))
    else .ok (none, generatedIds)
  | none =>
    .ok (if (item.get "role").isSome then some (rsMessageToAm item) else none, generatedIds)

/-- One item of `rs_to_am`. -/
def rsInputToAm (serde : SerdeJson) (gathered : Gathered) (item : Value) :
    Except ConversionError Gathered :=
  match (item.get "role").bind Value.asStr with
  | some "system" | some "developer" =>
    .ok { gathered with
      systemParts := gathered.systemParts ++
        (rsMessageContentToAm (item.get "content")).filterMap fun block =>
          (block.get "text").bind Value.asStr }
  | _ => do
    let (entry, generatedIds) ← rsItemToAm serde gathered.generatedIds item
    .ok { gathered with messages := gathered.messages ++ entry.toList, generatedIds }

/-- What the `input` of a Responses request is gathered to. -/
def rsInput (serde : SerdeJson) (gathered : Gathered) :
    Option Value → Except ConversionError Gathered
  | some (.string text) => .ok { gathered with messages := [(.user, [textBlock text])] }
  | some (.array items) => items.foldlM (rsInputToAm serde) gathered
  | none => .error (invalid RS "missing input")
  | _ => .error (invalid RS "input must be a string or an array")

/-- The tools of a Responses request. -/
def rsToolsToAm (out : Value) : Option Value → Except ConversionError Value
  | none => .ok out
  | some tools => do
    let tools ← okOr (invalid RS "tools must be an array") tools.asArray
    if tools.any fun tool => (tool.get "type").bind Value.asStr ≠ some "function" then
      .error (invalid RS ("Responses to Anthropic conversion supports only function tools; use " ++
        "a native Responses upstream for other tool types"))
    else
      .ok (if tools = [] then out else out.set "tools" (.array (tools.map ccFunctionToAmTool)))

/-- The tool choice of a Responses request. -/
def rsToolChoiceToAm : Value → Value
  | .string text => ccToolChoiceToAm (.string text)
  | .object fields => .obj [("type", "tool"), ("name", (Value.object fields).field "name")]
  | _ => .obj [("type", "auto")]

/-- `rs_to_am`. -/
def rsToAm (serde : SerdeJson) (src : Value) : Except ConversionError Value := do
  object src RS
  let out := openaiThinking src (.obj [])
  let out := pass src ["model", "stream", "temperature", "top_p"] out
  let systemParts := (((src.get "instructions").bind Value.asStr).filter (· ≠ "")).toList
  let maxTokens := ((src.get "max_output_tokens").bind Value.asU64).getD defaultMaxTokens
  let out := out.set "max_tokens" (.nat maxTokens)
  let gathered ← rsInput serde { systemParts } (src.get "input")
  let out := out.set "messages" (.array (mergeConsecutive gathered.messages))
  let out := if gathered.systemParts = [] then out
    else out.set "system" (joinLines gathered.systemParts)
  let out ← rsToolsToAm out (src.get "tools")
  .ok (setSome "tool_choice" ((src.get "tool_choice").map rsToolChoiceToAm) out)

end Aipass.Conversion
