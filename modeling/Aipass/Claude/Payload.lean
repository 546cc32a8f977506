import Aipass.Claude.Collector

/-!
# Requests to the Claude bridge

What a request asks of the process: the marks of a client that controls the cache, the context that
the process is started with, and the messages. A digest of the messages leaves out what an
assistant has thought, which clients do not send back.
-/
namespace Aipass.Claude

/-- The digests of the bridge: `hash` of a value, and of the credential of a target. -/
structure Sha (δ : Type) where
  hash : Value → δ
  fingerprint : String → δ

/-! ## Cache marks -/

/-- `Ttl`. -/
inductive Ttl
  | short
  | hour
deriving DecidableEq

/-- `Ttl::text`. -/
def Ttl.text : Ttl → String
  | .short => "5m"
  | .hour => "1h"

/-- The marks read so far: whether one was short, and how many there were. -/
structure Marks where
  short : Bool := false
  total : ℕ := 0

/-- `Plan::mark`. -/
def Marks.mark (marks : Marks) (value : Option Value) : Except String (Option Ttl × Marks) :=
  match value.filter fun value => value ≠ .null with
  | none => .ok (none, marks)
  | some value => do
    let ttl ← match (value.field "type").asStr, value.get "ttl" with
      | some "ephemeral", none | some "ephemeral", some (.string "5m") => .ok Ttl.short
      | some "ephemeral", some (.string "1h") => .ok .hour
      | _, _ => .error "cache_control must be ephemeral with ttl 5m or 1h"
    refuseIf (marks.short ∧ ttl = .hour) "1h cache marks must precede 5m cache marks"
    refuseIf (3 < marks.total) "at most four cache marks are supported"
    .ok (some ttl, ⟨marks.short || ttl = .short, marks.total + 1⟩)

/-- `Plan`, without the counts that only its report tells. -/
structure Plan where
  client : Bool := false
  tail : Option Ttl := none
deriving DecidableEq

namespace Plan

/-- The items of an array, or none. -/
def items (value : Value) : List Value := value.asArray.getD []

/-- The marks of a payload in the order in which they are read, with whether each is that of its
last block. -/
def marksOf (payload : Value) (messages : List Value) : List (Bool × Option Value) :=
  let plain (value : Value) := (items value).map fun block => (false, block.get "cache_control")
  let blocks (isLast : Bool) (message : Value) :=
    let parts := items (message.field "content")
    (parts.zipIdx).map fun part =>
      (isLast && part.2 + 1 == parts.length, part.1.get "cache_control")
  plain (payload.field "tools") ++ plain (payload.field "system") ++
    (messages.zipIdx.map fun message => blocks (message.2 + 1 == messages.length) message.1).flatten

/-- The next mark is read. -/
def step (held : Plan × Marks) (mark : Bool × Option Value) : Except String (Plan × Marks) := do
  let (ttl, marks) ← held.2.mark mark.2
  .ok (if mark.1 ∧ ttl.isSome then { held.1 with tail := ttl } else held.1, marks)

/-- `Plan::read`. -/
def read (payload : Value) : Except String Plan :=
  if payload.field "_aipass_client_cache" ≠ .bool true then .ok {}
  else do
    let messages ← okOr "Claude messages are required" (payload.field "messages").asArray
    let (plan, marks) ← (marksOf payload messages).foldlM step ({ client := true }, {})
    let (ttl, _) ← marks.mark (payload.get "cache_control")
    match ttl with
    | none => .ok plan
    | some ttl =>
      refuseIf (plan.tail.any fun tail => tail ≠ ttl)
        "automatic cache_control and the final block must use the same ttl"
      .ok { plan with tail := some ttl }

/-- `Plan::identity`. -/
def identity (plan : Plan) : Value :=
  .obj [("client", .bool plan.client),
    ("tail", (plan.tail.map fun ttl => Value.string ttl.text).getD .null)]

end Plan

/-- The cache marks of the blocks of a value are removed. -/
def stripBlocks (value : Value) : Value :=
  match value with
  | .array blocks => .array (blocks.map fun block => block.remove "cache_control")
  | other => other

/-- `strip_marks`, on a message; its contents become null if there are none. -/
def stripMessage (message : Value) : Value :=
  message.set "content" (stripBlocks (message.field "content"))

/-- `strip_marks`. There is nothing if the source panics, on a payload or a message that is neither
an object nor null. -/
def stripMarks (payload : Value) : Option Value := do
  let payload := payload.remove "cache_control"
  let payload ← payload.write "tools" (stripBlocks (payload.field "tools"))
  let payload := payload.set "system" (stripBlocks (payload.field "system"))
  match payload.field "messages" with
  | .array messages =>
    if messages.all fun message => (message.write "content" .null).isSome then
      some (payload.set "messages" (.array (messages.map stripMessage)))
    else none
  | other => some (payload.set "messages" other)

/-! ## Searches of the process -/

/-- The loop of `search_requested`. -/
def searchTool (requested : Bool) (tool : Value) : Except String Bool :=
  let kind := (tool.field "type").asStr.getD ""
  if (Text.stripPrefix "web_search_".toList kind.toList).isSome then do
    refuseIf (tool.field "name" ≠ "web_search") "native web search must be named web_search"
    refuseIf (tool.asObject.all fun fields => fields.any fun field =>
        field.1 ≠ "type" ∧ field.1 ≠ "name" ∧ field.1 ≠ "cache_control")
      "Claude CLI native search cannot enforce tool-level search options; use a search API route for constrained searches"
    .ok true
  else do
    refuseIf ((tool.get "type").any fun kind : Value => kind ≠ "custom")
      "Claude subscription supports caller function tools and native web search only"
    .ok requested

/-- `search_requested`. -/
def searchRequested (payload : Value) : Except String Bool :=
  (Plan.items (payload.field "tools")).foldlM searchTool false

/-! ## History -/

/-- The parts of an assistant's contents that its digest leaves out. -/
def ignored (part : Value) : Bool :=
  (part.field "type").asStr = some "thinking" ∨ (part.field "type").asStr = some "redacted_thinking" ∨
    part.field "type" = "text" ∧ (part.field "text").asStr.any fun text =>
      (Text.stripPrefix "<reasoning>".toList text.toList).isSome ∧
        "</reasoning>".toList.isSuffixOf text.toList

/-- A message as its digest has it. -/
def portable (message : Value) : Value :=
  if message.field "role" = "assistant" then
    message.set "content" (match message.field "content" with
      | .array parts => .array (parts.filter fun part => !ignored part)
      | other => other)
  else message

variable {δ : Type}

/-- `history_hash`. -/
def historyHash (sha : Sha δ) (messages : List Value) : δ :=
  sha.hash (.array (messages.map portable))

/-- What the process is started with, as far as its digest has it. -/
def contextOf (plan : Plan) (payload : Value) : Value :=
  let context := Value.obj
    [("model", payload.field "model"), ("system", payload.field "system"),
      ("tools", payload.field "tools"), ("thinking", payload.field "thinking"),
      ("output_config", payload.field "output_config"), ("max_tokens", payload.field "max_tokens")]
  if plan.client then context.set "client_cache" plan.identity else context

/-! ## Tool results -/

/-- `ToolCall`. -/
structure ToolCall where
  id : String
  name : String
  arguments : Value
  claimed : Bool := false
  result : Option Value := none
deriving DecidableEq

/-- A part of a tool result, as the process takes it. -/
def resultPart (part : Value) : Except String Value :=
  match (part.field "type").asStr with
  | some "text" => .ok part
  | some "image" =>
    if (part.field "source").field "type" = "base64" then
      .ok (.obj [("type", "image"), ("data", (part.field "source").field "data"),
        ("mimeType", (part.field "source").field "media_type")])
    else .error "unsupported Claude tool result part"
  | _ => .error "unsupported Claude tool result part"

/-- `tool_result`. -/
def toolResult (value : Value) : Except String Value := do
  let content ← match value.field "content" with
    | .string text => .ok [Value.obj [("type", "text"), ("text", text)]]
    | .array parts => parts.mapM resultPart
    | .null => .ok [Value.obj [("type", "text"), ("text", "")]]
    | _ => .error "invalid Claude tool result"
  .ok (.obj [("content", .array content),
    ("isError", .bool (decide (value.field "is_error" = .bool true)))])

/-- The call that a tool result is of. -/
def callOf (result : Value) : Option String := (result.field "tool_use_id").asStr

/-- The calls that wait for a result. -/
def pendingCalls (calls : List ToolCall) : List String :=
  (calls.filter fun call => call.result.isNone).map ToolCall.id

/-- `validate_results`. -/
def validateResults (calls : List ToolCall) (results : List Value) :
    Except String (List (String × Value)) :=
  if results.isEmpty then .ok []
  else do
    let pending := pendingCalls calls
    let ids := (results.filterMap callOf).dedup
    refuseIf (¬ (ids ⊆ pending ∧ pending ⊆ ids) ∨ ids.length ≠ results.length)
      "return exactly one result for each pending Claude tool call"
    results.mapM fun result => do .ok ((callOf result).getD "", ← toolResult result)

end Aipass.Claude
