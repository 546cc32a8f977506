import Aipass.Conversion.ChatMessages

/-!
# What a client of an Anthropic stream expects

A client follows the stream event by event: one message start, blocks one after the other with
the next index each, one message delta, one message stop. The input of every call must parse.
Beside the client stands an observer of the upstream, who gathers the fragments of each call and
notes whether the upstream reported an end; a message may stop only after such a report, with
the inputs that were gathered.
-/
namespace Aipass.Conversion

/-- What the observer knows of a call. -/
structure CallSeen where
  /-- The call is freeform. -/
  custom : Bool := false
  /-- The concatenation of its fragments. -/
  text : String := ""
deriving DecidableEq

/-- The input a call must be put out with: the fragments themselves for a function, or an empty
object when there were none; a freeform input is wrapped. -/
def CallSeen.input (serde : SerdeJson) (call : CallSeen) : String :=
  if call.custom then serde.print (.obj [("input", call.text)])
  else if call.text = "" then "{}"
  else call.text

/-- The observer of the upstream. -/
structure Upstream where
  /-- The calls, by their number in the stream. -/
  calls : Table ℕ CallSeen := ∅
  /-- The number of the call at each output index of a Responses stream. -/
  numbers : Table ℕ ℕ := ∅
  /-- A finish reason, or a completed or incomplete response, was reported. -/
  reported : Bool := false

namespace Upstream

/-- The inputs of the calls, in order. -/
def inputs (serde : SerdeJson) (upstream : Upstream) : List String :=
  upstream.calls.toList.map fun entry => entry.2.input serde

/-- One more fragment of a call. -/
def extend (upstream : Upstream) (number : ℕ) (custom : Bool) (text : String) : Upstream :=
  let call := upstream.calls[number]?.getD {}
  { upstream with
    calls := upstream.calls.insert number ⟨call.custom || custom, call.text ++ text⟩ }

/-- A fragment in a chunk. -/
def fragment (serde : SerdeJson) (upstream : Upstream) (call : Value) : Upstream :=
  upstream.extend ((call.field "index").asU64.getD 0)
    ((call.field "type").asStr = some "custom" ∨ (call.get "custom").isSome)
    (fragmentText serde call)

/-- The first choice of a chunk. -/
def choice (serde : SerdeJson) (upstream : Upstream) (choice : Value) : Upstream :=
  let calls := (((choice.field "delta").get "tool_calls").bind Value.asArray).getD []
  { calls.foldl (fragment serde) upstream with
    reported := upstream.reported || ((choice.get "finish_reason").bind Value.asStr).isSome }

/-- A chunk of a Chat Completions stream. -/
def chunk (serde : SerdeJson) (upstream : Upstream) (chunk : Value) : Upstream :=
  if (chunk.get "error").isSome then upstream
  else
    match (((chunk.get "choices").bind Value.asArray).getD []).head? with
    | none => upstream
    | some first => upstream.choice serde first

/-- An event of a Chat Completions stream. -/
def observeChat (serde : SerdeJson) (upstream : Upstream) (raw : List Char) : Upstream :=
  match parseSse raw with
  | .error _ => upstream
  | .ok parsed =>
    if Text.trim parsed.data = "[DONE]".toList then upstream
    else
      match parsePayload serde parsed CC with
      | .ok (some payload) => upstream.chunk serde payload
      | _ => upstream

/-- The call at an output index, which gets the next number unless it has one. -/
def announce (upstream : Upstream) (index : ℕ) (custom : Bool) : Upstream :=
  if upstream.numbers[index]?.isSome then upstream
  else
    let number := upstream.numbers.size
    { upstream with
      numbers := upstream.numbers.insert index number
      calls := upstream.calls.insert number ⟨custom, ""⟩ }

/-- A fragment for the call at an output index; one that comes before the call is announced
belongs to no call. -/
def delta (upstream : Upstream) (index : ℕ) (text : String) : Upstream :=
  match upstream.numbers[index]? with
  | none => upstream
  | some number => upstream.extend number false text

/-- The arguments an item repeats: they count as a fragment unless fragments of the item's kind
came before. -/
def repeated (upstream : Upstream) (index : ℕ) (custom : Bool) (text : String) : Upstream :=
  let call := (upstream.numbers[index]?.bind fun number => upstream.calls[number]?).getD {}
  if call.custom = custom ∧ call.text ≠ "" then upstream else upstream.delta index text

/-- An output item of a Responses stream. -/
def item (upstream : Upstream) (index : ℕ) (item : Value) : Upstream :=
  match string (item.get "type") with
  | "function_call" =>
    (upstream.announce index false).repeated index false (string (item.get "arguments"))
  | "custom_tool_call" =>
    (upstream.announce index true).repeated index true (string (item.get "input"))
  | _ => upstream

/-- A payload of a Responses stream. -/
def payload (upstream : Upstream) (payload : Value) : Upstream :=
  let index := number (payload.get "output_index")
  match string (payload.get "type") with
  | "response.output_item.added" | "response.output_item.done" =>
    upstream.item index (payload.field "item")
  | "response.function_call_arguments.delta" | "response.custom_tool_call_input.delta" =>
    upstream.delta index (string (payload.get "delta"))
  | "response.completed" | "response.incomplete" =>
    let output := (((payload.field "response").get "output").bind Value.asArray).getD []
    { output.zipIdx.foldl (fun upstream entry => upstream.item entry.2 entry.1) upstream with
      reported := true }
  | _ => upstream

/-- An event of a Responses stream. -/
def observeResponses (serde : SerdeJson) (upstream : Upstream) (raw : List Char) : Upstream :=
  match data serde raw with
  | .ok (some value) => upstream.payload value
  | _ => upstream

/-- An event of a stream of a protocol. -/
def observe (serde : SerdeJson) (source : ProxyProtocol) (upstream : Upstream)
    (raw : List Char) : Upstream :=
  match source with
  | CC => upstream.observeChat serde raw
  | RS => upstream.observeResponses serde raw
  | AM => upstream

end Upstream

/-- The calls of a run, each with what was observed of the upstream by then. -/
def observed (serde : SerdeJson) (source : ProxyProtocol) :
    Upstream → List (List Char × List Frame) → List (Upstream × List Frame)
  | _, [] => []
  | upstream, (raw, out) :: rest =>
    let upstream := upstream.observe serde source raw
    (upstream, out) :: observed serde source upstream rest

/-- An open block as the client knows it. -/
structure ClientBlock where
  /-- The block is a call. -/
  isCall : Bool
  /-- The concatenation of the pieces of its input. -/
  json : String := ""

/-- The client of an Anthropic stream. -/
structure MessagesClient where
  /-- The message has started. -/
  started : Bool := false
  /-- The number of blocks that were opened. -/
  blocks : ℕ := 0
  /-- The block that is open. -/
  opened : Option ClientBlock := none
  /-- The inputs of the closed calls. -/
  inputs : List String := []
  /-- The message delta was seen. -/
  stopping : Bool := false
  /-- The stream has ended. -/
  ended : Bool := false

/-- What an event says. -/
inductive MessagesView
  | messageStart
  | blockStart (index : ℕ) (block : Value)
  | blockDelta (index : ℕ) (delta : Value)
  | blockStop (index : ℕ)
  | messageDelta
  | messageStop
  | error
  | other

/-- Read an event. -/
def messagesView (event : Value) : MessagesView :=
  match string (event.get "type") with
  | "message_start" => .messageStart
  | "content_block_start" => .blockStart (number (event.get "index")) (event.field "content_block")
  | "content_block_delta" => .blockDelta (number (event.get "index")) (event.field "delta")
  | "content_block_stop" => .blockStop (number (event.get "index"))
  | "message_delta" => .messageDelta
  | "message_stop" => .messageStop
  | "error" => .error
  | _ => .other

section Views

variable (fields : List (String × Value)) (index : ℕ) (content : Value)

@[simp] theorem messagesView_messageStart :
    messagesView (.obj (("type", "message_start") :: fields)) = .messageStart := by
  simp [messagesView, string]

@[simp] theorem messagesView_blockStart :
    messagesView (.obj [("type", "content_block_start"), ("index", .nat index),
      ("content_block", content)]) = .blockStart index content := by
  simp [messagesView, string, number, Value.field]

@[simp] theorem messagesView_blockDelta :
    messagesView (.obj [("type", "content_block_delta"), ("index", .nat index),
      ("delta", content)]) = .blockDelta index content := by
  simp [messagesView, string, number, Value.field]

@[simp] theorem messagesView_blockStop :
    messagesView (.obj [("type", "content_block_stop"), ("index", .nat index)]) =
      .blockStop index := by
  simp [messagesView, string, number]

@[simp] theorem messagesView_messageDelta :
    messagesView (.obj (("type", "message_delta") :: fields)) = .messageDelta := by
  simp [messagesView, string]

@[simp] theorem messagesView_messageStop :
    messagesView (.obj (("type", "message_stop") :: fields)) = .messageStop := by
  simp [messagesView, string]

@[simp] theorem messagesView_error :
    messagesView (.obj (("type", "error") :: fields)) = .error := by
  simp [messagesView, string]

end Views

namespace MessagesClient

/-- What the client makes of an event, or that it objects. -/
def judge (serde : SerdeJson) (upstream : Upstream) (client : MessagesClient) :
    MessagesView → Option MessagesClient
  | .messageStart =>
    if client.started then none else some { client with started := true }
  | .blockStart index block =>
    if client.started ∧ client.opened.isNone ∧ !client.stopping ∧ index = client.blocks then
      some { client with
        blocks := client.blocks + 1
        opened := some { isCall := (block.field "type").asStr = some "tool_use" } }
    else none
  | .blockDelta index delta =>
    match client.opened with
    | none => none
    | some block =>
      if index + 1 = client.blocks then
        let piece := string (delta.get "partial_json")
        some { client with opened := some { block with json := block.json ++ piece } }
      else none
  | .blockStop index =>
    match client.opened with
    | none => none
    | some block =>
      if index + 1 ≠ client.blocks then none
      else if block.isCall then
        if (serde.parse block.json.toList).isOk then
          some { client with opened := none, inputs := client.inputs ++ [block.json] }
        else none
      else some { client with opened := none }
  | .messageDelta =>
    if client.started ∧ client.opened.isNone ∧ !client.stopping then
      some { client with stopping := true }
    else none
  | .messageStop =>
    if client.stopping ∧ upstream.reported ∧ client.inputs = upstream.inputs serde then
      some { client with ended := true }
    else none
  | .error => if client.stopping then none else some { client with ended := true }
  | .other => if client.stopping then none else some client

/-- The client takes one frame: it must not come after the end, and be typed by its own type. -/
def receive (serde : SerdeJson) (upstream : Upstream) (client : MessagesClient) :
    Frame → Option MessagesClient
  | .typed kind event =>
    if client.ended ∨ string (event.get "type") ≠ kind then none
    else client.judge serde upstream (messagesView event)
  | _ => none

/-- The client takes the frames that one upstream event gave rise to. -/
def receiveAll (serde : SerdeJson) (upstream : Upstream) (client : MessagesClient)
    (frames : List Frame) : Option MessagesClient :=
  frames.foldlM (receive serde upstream) client

/-- The client takes the frames of a run. -/
def follow (serde : SerdeJson) (client : MessagesClient)
    (run : List (Upstream × List Frame)) : Option MessagesClient :=
  run.foldlM (fun client call => client.receiveAll serde call.1 call.2) client

/-- The client takes one more frame. -/
theorem receiveAll_append {serde : SerdeJson} {upstream : Upstream}
    {client middle : MessagesClient} {frames : List Frame}
    (taken : client.receiveAll serde upstream frames = some middle) (more : List Frame) :
    client.receiveAll serde upstream (frames ++ more) = middle.receiveAll serde upstream more := by
  simp [receiveAll, List.foldlM_append, show List.foldlM _ client frames = some middle from taken]

end MessagesClient

/-- A stream is well formed when the client follows it, and is left neither between a message
delta and its stop nor, if it has `closed`, before the end. -/
def WellFormedMessages (serde : SerdeJson) (closed : Bool) (run : List (Upstream × List Frame)) :
    Prop :=
  ∃ client, MessagesClient.follow serde {} run = some client ∧
    (client.stopping ∨ closed → client.ended)

end Aipass.Conversion
