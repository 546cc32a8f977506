import Aipass.Conversion.Request
import Aipass.Conversion.ResponsesToChat

/-!
# Requests between the two OpenAI formats

Chat Completions messages become Responses items one by one. On the way back calls are folded
into the assistant message before them, reasoning waits for the next assistant message, and the
images of tool results wait for the end of the results.
-/
namespace Aipass.Conversion.OpenAi

/-- `object`. -/
def object (value : Value) (protocol : ProxyProtocol) : Except ConversionError Unit :=
  if value.asObject.isSome then .ok () else .error (invalid protocol "expected a JSON object")

/-- `remove("type")` from an object. -/
def withoutType : Value → Value
  | .object fields => .object (fields.filter fun field => field.1 ≠ "type")
  | other => other

/-- A part of a message. -/
def contentPart (to_ : ProxyProtocol) (assistant : Bool) (part : Value) :
    Except ConversionError Value :=
  let kind := string (part.get "type")
  let unsupported : Except ConversionError Value :=
    .error (invalid to_ ("unsupported converted content type: " ++ kind))
  match to_, kind with
  | RS, "text" =>
    .ok (.obj [("type", if assistant then "output_text" else "input_text"),
      ("text", part.field "text")])
  | RS, "image_url" =>
    .ok (setSome "detail" (part.pointer ["image_url", "detail"])
      (.obj [("type", "input_image"), ("image_url", (part.field "image_url").field "url")]))
  | RS, "file" => do
    let file := (part.get "file").getD (.obj [])
    object file CC
    .ok (file.set "type" "input_file")
  | CC, "input_text" | CC, "output_text" =>
    .ok (.obj [("type", "text"), ("text", part.field "text")])
  | CC, "input_image" =>
    match part.get "image_url" with
    | some url =>
      .ok (.obj [("type", "image_url"),
        ("image_url", setSome "detail" (part.get "detail") (.obj [("url", url)]))])
    | none => unsupported
  | CC, "input_file" => .ok (.obj [("type", "file"), ("file", withoutType part)])
  | _, _ => unsupported

/-- `content`. -/
def content (to_ : ProxyProtocol) (assistant : Bool) : Value → Except ConversionError Value
  | .string text => .ok (.string text)
  | .null => .ok .null
  | .array parts => do
    let out ← parts.mapM (contentPart to_ assistant)
    .ok (.array out)
  | _ => .error (invalid to_ "invalid message content")

/-- The identifier of a call, generated where it has none that is not empty. -/
def callId (unique : String) (id : Option Value) : String :=
  ((id.bind Value.asStr).filter (· ≠ "")).getD ("call_" ++ unique)

/-- `call_to_responses`. -/
def callToResponses (serde : SerdeJson) (unique : String) (call : Value) :
    Except ConversionError Value :=
  let id := callId unique (call.get "id")
  match string (call.get "type") with
  | "function" | "" =>
    .ok (.obj [("type", "function_call"), ("call_id", id),
      ("name", (call.field "function").field "name"),
      ("arguments", arguments serde (call.pointer ["function", "arguments"]))])
  | "custom" =>
    .ok (.obj [("type", "custom_tool_call"), ("call_id", id),
      ("name", (call.field "custom").field "name"),
      ("input", (call.field "custom").field "input")])
  | _ => .error (invalid CC "unsupported tool call")

/-- The calls of a message, with the count of calls before them. -/
def callsToResponses (serde : SerdeJson) (unique : ℕ → String) :
    ℕ → List Value → Except ConversionError (List Value)
  | _, [] => .ok []
  | count, call :: rest => do
    let item ← callToResponses serde (unique count) call
    let items ← callsToResponses serde unique (count + 1) rest
    .ok (item :: items)

/-- The items of a message of a role. -/
def messageToResponses (serde : SerdeJson) (unique : ℕ → String) (count : ℕ) (role : String)
    (message : Value) : Except ConversionError (List Value) := do
  let reasoning := chatReasoning message
  let thought := if reasoning = "" then []
    else [Value.obj [("type", "reasoning"), ("summary", .array [.obj
      [("type", "summary_text"), ("text", reasoning)]])]]
  let clean := match message.field "content" with
    | .array parts => .array (parts.filter fun part => part.field "type" ≠ .string "thinking")
    | other => other
  let body ← if clean = .null then .ok []
    else do
      let content ← content RS (role = "assistant") clean
      .ok [Value.obj [("type", "message"), ("role", role), ("content", content)]]
  let calls ← callsToResponses serde unique count
    (((message.get "tool_calls").bind Value.asArray).getD [])
  .ok (thought ++ body ++ calls)

/-- The items of one message, and the count of calls so far. -/
def chatToItems (serde : SerdeJson) (unique : ℕ → String) (count : ℕ) (message : Value) :
    Except ConversionError (List Value × ℕ) := do
  let role := string (message.get "role")
  match role with
  | "tool" =>
    let output ← content RS false (message.field "content")
    .ok ([.obj [("type", "function_call_output"), ("call_id", message.field "tool_call_id"),
      ("output", output)]], count)
  | "system" | "developer" | "user" | "assistant" =>
    let items ← messageToResponses serde unique count role message
    .ok (items, count + (((message.get "tool_calls").bind Value.asArray).getD []).length)
  | _ => .error (invalid CC ("unsupported message role: " ++ role))

/-- The items of a list of messages. -/
def chatInput (serde : SerdeJson) (unique : ℕ → String) :
    ℕ → List Value → Except ConversionError (List Value)
  | _, [] => .ok []
  | count, message :: rest => do
    let (items, count) ← chatToItems serde unique count message
    let more ← chatInput serde unique count rest
    .ok (items ++ more)

/-- The `response_format` of Chat Completions as Responses has it. -/
def formatToResponses (format : Value) : Except ConversionError Value :=
  if format.field "type" = .string "json_schema" then do
    object (format.field "json_schema") CC
    .ok ((format.field "json_schema").set "type" "json_schema")
  else .ok format

/-- Fields of Chat Completions that Responses cannot represent. -/
def refuseFields (src : Value) : List String → Except ConversionError Unit
  | [] => .ok ()
  | name :: rest =>
    if ((src.get name).filter Value.present).isSome then
      .error (invalid CC (name ++ " cannot be represented by this Responses adapter"))
    else refuseFields src rest

/-- The part of `request` from Chat Completions. -/
def chatRequest (serde : SerdeJson) (unique : ℕ → String) (src out : Value) :
    Except ConversionError Value := do
  refuseFields src ["functions", "function_call", "stop", "audio"]
  if ((src.get "n").bind Value.asU64).any (· ≠ 1) then
    .error (invalid CC "Responses conversion requires n=1")
  let out := setSome "max_output_tokens"
    ((src.get "max_completion_tokens").or (src.get "max_tokens")) out
  let out := setSome "reasoning" ((src.get "reasoning_effort").map fun effort =>
    .obj [("effort", effort)]) out
  let out ← match src.get "response_format" with
    | none => .ok out
    | some format => do
      let format ← formatToResponses format
      .ok (out.set "text" (.obj [("format", format)]))
  let input ← okOr (invalid CC "missing messages array") ((src.get "messages").bind Value.asArray)
  let items ← chatInput serde unique 0 input
  .ok (out.set "input" (.array items))

/-- What the loop over the items of a Responses request keeps. -/
structure ItemsState where
  messages : List Value
  reasoning : String := ""
  toolImages : List Value := []
  /-- The items taken so far, by which generated identifiers are read. -/
  taken : ℕ := 0

namespace ItemsState

/-- The images of tool results become a user message before anything but a result. -/
def flushImages (state : ItemsState) : ItemsState :=
  if state.toolImages = [] then state
  else { state with
    messages := state.messages ++
      [.obj [("role", "user"), ("content", .array state.toolImages)]]
    toolImages := [] }

/-- The waiting reasoning goes into a message. -/
def withReasoning (state : ItemsState) (message : Value) : Value :=
  if state.reasoning = "" then message
  else message.set "reasoning_content" state.reasoning

/-- A message item. -/
def pushMessage (state : ItemsState) (item : Value) : Except ConversionError ItemsState := do
  let assistant := item.field "role" = .string "assistant"
  let body ← content CC assistant (item.field "content")
  let message := Value.obj [("role", item.field "role"), ("content", body)]
  if assistant then
    .ok { state with
      messages := state.messages ++ [state.withReasoning message], reasoning := "" }
  else .ok { state with messages := state.messages ++ [message] }

/-- A call is added to the message. -/
def addCall (message call : Value) : Value :=
  message.set "tool_calls"
    (.array (((message.get "tool_calls").bind Value.asArray).getD [] ++ [call]))

/-- A call item: it goes into the last message if that is the assistant's and no reasoning
waits. -/
def pushCall (state : ItemsState) (call : Value) : ItemsState :=
  match state.messages.getLast?.filter fun message =>
      message.field "role" = .string "assistant" ∧ state.reasoning = "" with
  | some message =>
    { state with messages := state.messages.dropLast ++ [addCall message call] }
  | none =>
    let message := Value.obj [("role", "assistant"), ("content", .null),
      ("tool_calls", .array [call])]
    { state with
      messages := state.messages ++ [state.withReasoning message], reasoning := "" }

/-- The text of a result, and its other parts. -/
def splitOutput : Value → Except ConversionError (String × List Value)
  | .string text => .ok (text, [])
  | .array parts =>
    .ok (joinLines ((parts.filter fun part => part.field "type" = .string "text").map fun part =>
        string (part.get "text")),
      parts.filter fun part => part.field "type" ≠ .string "text")
  | _ => .error (invalid RS "invalid tool output")

/-- A result item. -/
def pushOutput (state : ItemsState) (item : Value) : Except ConversionError ItemsState := do
  let converted ← content CC false (item.field "output")
  let (text, images) ← splitOutput converted
  .ok { state with
    messages := state.messages ++ [.obj [("role", "tool"), ("tool_call_id", item.field "call_id"),
      ("content", text)]]
    toolImages := state.toolImages ++ images }

/-- A reasoning item. -/
def pushReasoning (state : ItemsState) (item : Value) : ItemsState :=
  { state with
    reasoning := state.reasoning ++ String.join
      ((((item.get "summary").bind Value.asArray).getD []).map fun part =>
        string (part.get "text")) }

/-- One item of the loop. -/
def push (serde : SerdeJson) (unique : ℕ → String) (state : ItemsState) (item : Value) :
    Except ConversionError ItemsState := do
  let kind := string (item.get "type")
  let unsupported : Except ConversionError ItemsState :=
    .error (invalid RS ("unsupported converted input item: " ++ kind))
  let state := { state with taken := state.taken + 1 }
  match kind with
  | "function_call_output" | "custom_tool_call_output" => pushOutput state item
  | "message" | "" =>
    if (item.get "role").isSome then pushMessage state.flushImages item else unsupported
  | "function_call" | "custom_tool_call" => do
    let call ← callToChat serde (unique (state.taken - 1)) item
    .ok (pushCall state.flushImages call)
  | "reasoning" => .ok (pushReasoning state.flushImages item)
  | _ => unsupported

/-- What still waits at the end. -/
def close (state : ItemsState) : List Value :=
  let state := state.flushImages
  state.messages ++ if state.reasoning = "" then []
    else [.obj [("role", "assistant"), ("content", .null),
      ("reasoning_content", state.reasoning)]]

end ItemsState

/-- The messages of the `input` of a Responses request, behind those of its instructions. -/
def responsesInput (serde : SerdeJson) (unique : ℕ → String) (messages : List Value) :
    Option Value → Except ConversionError (List Value)
  | some (.string text) => .ok (messages ++ [.obj [("role", "user"), ("content", text)]])
  | some (.array items) => do
    let state ← items.foldlM (ItemsState.push serde unique) { messages }
    .ok state.close
  | _ => .error (invalid RS "missing input")

/-- A reference to history that the server keeps is refused. -/
def refuseHistory (src : Value) : List String → Except ConversionError Unit
  | [] => .ok ()
  | name :: rest =>
    if ((src.get name).filter fun value => value ≠ .null ∧ value ≠ .string "").isSome then
      .error (invalid RS (name ++ " requires server-side history; send the full input when " ++
        "converting to Chat Completions"))
    else refuseHistory src rest

/-- The developer message of the instructions. -/
def instructionsMessage (src : Value) : Except ConversionError (List Value) :=
  match (src.get "instructions").filter Value.present with
  | none => .ok []
  | some (.string text) => .ok [.obj [("role", "developer"), ("content", text)]]
  | some _ => .error (invalid RS "instructions must be text")

/-- The format of the text as Chat Completions has it. -/
def formatToChat (format : Value) : Value :=
  if format.field "type" = .string "json_schema" then
    .obj [("type", "json_schema"), ("json_schema", withoutType format)]
  else format

/-- The part of `request` from Responses. -/
def responsesRequest (serde : SerdeJson) (unique : ℕ → String) (src out : Value) :
    Except ConversionError Value := do
  refuseHistory src ["previous_response_id", "conversation"]
  let out := setSome "max_completion_tokens" (src.get "max_output_tokens") out
  let out := setSome "reasoning_effort" (src.pointer ["reasoning", "effort"]) out
  let out := setSome "response_format" ((src.pointer ["text", "format"]).map formatToChat) out
  let instructions ← instructionsMessage src
  let messages ← responsesInput serde unique instructions (src.get "input")
  .ok (out.set "messages" (.array messages))

/-- The definition of one tool. -/
def convertTool (from_ : ProxyProtocol) (tool : Value) : Except ConversionError Value :=
  let kind := string (tool.get "type")
  if kind ∉ ["function", "custom"] then
    .error (invalid from_ ("unsupported converted tool type: " ++ kind))
  else if from_ = CC then do
    object (tool.field kind) CC
    .ok ((tool.field kind).set "type" (.string kind))
  else .ok (.obj [("type", kind), (kind, withoutType tool)])

/-- The choice of a tool. -/
def convertChoice (from_ : ProxyProtocol) (choice : Value) : Except ConversionError Value :=
  if choice.asStr.isSome then .ok choice
  else
    let kind := string (choice.get "type")
    if kind ∉ ["function", "custom"] then .error (invalid from_ "unsupported tool_choice")
    else if from_ = CC then
      .ok (.obj [("type", kind), ("name", (choice.field kind).field "name")])
    else .ok (.obj [("type", kind), (kind, .obj [("name", choice.field "name")])])

/-- The fields both formats share. -/
def sharedFields : List String :=
  ["model", "stream", "temperature", "top_p", "parallel_tool_calls", "store", "metadata",
    "service_tier", "prompt_cache_key", "safety_identifier", "user"]

/-- `request`. -/
def request (serde : SerdeJson) (unique : ℕ → String) (from_ : ProxyProtocol) (payload : Value) :
    Except ConversionError Value := do
  object payload from_
  let out := pass payload sharedFields (.obj [])
  let out ← if from_ = CC then chatRequest serde unique payload out
    else responsesRequest serde unique payload out
  let out ← match (payload.get "tools").bind Value.asArray with
    | none => .ok out
    | some tools => do
      let converted ← tools.mapM (convertTool from_)
      .ok (out.set "tools" (.array converted))
  match payload.get "tool_choice" with
  | none => .ok out
  | some choice => do
    let choice ← convertChoice from_ choice
    .ok (out.set "tool_choice" choice)

end Aipass.Conversion.OpenAi
