import Aipass.Conversion.Protocol

/-!
# What a client of a Responses stream expects

A client follows the stream event by event. It counts the events, opens an item when the next
index is announced, gathers the deltas of an open item, and compares what closes the item with
what it gathered. A completed or incomplete response must list the closed items in order, and no
event may follow a terminal one. The stream is well formed when the client never objects.
-/
namespace Aipass.Conversion

/-- An item as the client knows it. -/
structure ClientItem where
  /-- The text a call without a delta is closed with; empty for the other items. -/
  fallback : String
  /-- The concatenation of the deltas. -/
  text : String := ""
  /-- The item as it was closed. -/
  closed : Option Value := none

/-- The text an item must be closed with. -/
def ClientItem.final (item : ClientItem) : String :=
  if item.text = "" then item.fallback else item.text

/-- The client of a Responses stream. -/
structure Client where
  /-- The number the next event must carry. -/
  sequence : ℕ := 0
  /-- The items announced so far, by index. -/
  items : List ClientItem := []
  /-- A terminal event was seen. -/
  ended : Bool := false

/-- What an event says. -/
inductive ClientView
  /-- The next item is announced. -/
  | added (index : ℕ) (item : Value)
  /-- A piece of text of an item. -/
  | delta (index : ℕ) (text : String)
  /-- The text of an item is complete. -/
  | textDone (index : ℕ) (text : String)
  /-- An item is complete. -/
  | itemDone (index : ℕ) (item : Value)
  /-- The response is complete, or incomplete by a limit. -/
  | finished (output : List Value)
  /-- The response has failed. -/
  | failed
  /-- Another event about an item. -/
  | about (index : ℕ)
  /-- Another event. -/
  | other

/-- The text of a part: its text, or its refusal. -/
def partText (part : Value) : String :=
  string ((part.get "text").or (part.get "refusal"))

/-- The text of a closed item. -/
def itemText (item : Value) : String :=
  match string (item.get "type") with
  | "message" => partText (item.field "content").first
  | "reasoning" => partText (item.field "summary").first
  | "function_call" => string (item.get "arguments")
  | _ => string (item.get "input")

/-- The text an announced item is closed with when no delta comes: for a function call the
initial input of the upstream block. -/
def itemFallback (initialInput : String) (item : Value) : String :=
  if (item.field "type").asStr = some "function_call" then initialInput else ""

/-- The index an event names. -/
def outputIndex (event : Value) : ℕ := number (event.get "output_index")

/-- Read an event. -/
def clientView (event : Value) : ClientView :=
  match string (event.get "type") with
  | "response.output_item.added" => .added (outputIndex event) (event.field "item")
  | "response.output_item.done" => .itemDone (outputIndex event) (event.field "item")
  | "response.output_text.delta" | "response.refusal.delta"
  | "response.reasoning_summary_text.delta" | "response.function_call_arguments.delta"
  | "response.custom_tool_call_input.delta" =>
    .delta (outputIndex event) (string (event.get "delta"))
  | "response.output_text.done" | "response.reasoning_summary_text.done" =>
    .textDone (outputIndex event) (string (event.get "text"))
  | "response.refusal.done" => .textDone (outputIndex event) (string (event.get "refusal"))
  | "response.function_call_arguments.done" =>
    .textDone (outputIndex event) (string (event.get "arguments"))
  | "response.custom_tool_call_input.done" =>
    .textDone (outputIndex event) (string (event.get "input"))
  | "response.content_part.done" | "response.reasoning_summary_part.done" =>
    .textDone (outputIndex event) (partText (event.field "part"))
  | "response.completed" | "response.incomplete" =>
    .finished ((((event.field "response").get "output").bind Value.asArray).getD [])
  | "response.failed" => .failed
  | _ => if (event.get "output_index").isSome then .about (outputIndex event) else .other

namespace Client

/-- Change an open item; a closed item or one not announced is an objection. -/
def onOpen (client : Client) (index : ℕ) (change : ClientItem → Option ClientItem) :
    Option Client :=
  match client.items[index]? with
  | none => none
  | some item =>
    if item.closed.isSome then none
    else (change item).map fun item => { client with items := client.items.set index item }

/-- What the client makes of an event, or that it objects; `fallback` is the text an announced
item is closed with when no delta comes. -/
def judge (fallback : Value → String) (client : Client) : ClientView → Option Client
  | .added index item =>
    if index = client.items.length then
      some { client with items := client.items ++ [⟨fallback item, "", none⟩] }
    else none
  | .delta index text => client.onOpen index fun item =>
      some { item with text := item.text ++ text }
  | .textDone index text => client.onOpen index fun item =>
      if text = item.final then some item else none
  | .itemDone index closed => client.onOpen index fun item =>
      if itemText closed = item.final then some { item with closed := some closed } else none
  | .finished output =>
    if client.items.map ClientItem.closed = output.map some then
      some { client with ended := true }
    else none
  | .failed => some { client with ended := true }
  | .about index => client.onOpen index some
  | .other => some client

/-- The client takes one frame: it must not come after the end, be typed by its own type, and
carry the next number. -/
def receive (fallback : Value → String) (client : Client) : Frame → Option Client
  | .typed kind event =>
    if client.ended ∨ string (event.get "type") ≠ kind ∨
        (event.get "sequence_number").bind Value.asU64 ≠ some client.sequence then none
    else (client.judge fallback (clientView event)).map fun client =>
      { client with sequence := client.sequence + 1 }
  | _ => none

/-- The client takes the frames that one upstream event gave rise to. -/
def receiveAll (fallback : Value → String) (client : Client) (frames : List Frame) :
    Option Client :=
  frames.foldlM (receive fallback) client

/-- The client takes the frames of a run, each call with the initial input its upstream event
carries. -/
def follow (fallback : String → Value → String) (client : Client)
    (run : List (String × List Frame)) : Option Client :=
  run.foldlM (fun client call => client.receiveAll (fallback call.1) call.2) client

/-- Writing the number of an event leaves what it says. -/
theorem clientView_set {event : Value} (isObject : event.IsObject) (number : Value) :
    clientView (event.set "sequence_number" number) = clientView event := by
  simp [clientView, outputIndex, Value.field, Value.get_set isObject]

/-- An event with the right number is judged by what it says. -/
theorem receive_numbered (fallback : Value → String) (client : Client) {event : Value}
    (isObject : event.IsObject) (running : client.ended = false) :
    client.receive fallback (.typed (string (event.get "type"))
      (event.set "sequence_number" (.nat client.sequence))) =
      (client.judge fallback (clientView event)).map fun client =>
        { client with sequence := client.sequence + 1 } := by
  simp [receive, running, Value.get_set isObject, clientView_set isObject]

/-- The client takes one more frame. -/
theorem receiveAll_append {fallback : Value → String} {client middle : Client}
    {frames : List Frame} (taken : client.receiveAll fallback frames = some middle)
    (frame : Frame) :
    client.receiveAll fallback (frames ++ [frame]) = middle.receive fallback frame := by
  simp [receiveAll, List.foldlM_append, show List.foldlM _ client frames = some middle from taken]

/-- An open item that passes is changed and nothing else. -/
theorem onOpen_eq_some {client : Client} {index : ℕ} {known changed : ClientItem}
    {change : ClientItem → Option ClientItem} (listed : client.items[index]? = some known)
    (isOpen : known.closed = none) (passes : change known = some changed) :
    client.onOpen index change = some { client with items := client.items.set index changed } := by
  simp [onOpen, listed, isOpen, passes]

/-- An event about an open item changes nothing. -/
theorem judge_about {client : Client} {index : ℕ} {known : ClientItem}
    (listed : client.items[index]? = some known) (isOpen : known.closed = none)
    (fallback : Value → String) : client.judge fallback (.about index) = some client := by
  rw [judge, onOpen_eq_some listed isOpen rfl]
  obtain ⟨inside, rfl⟩ := List.getElem?_eq_some_iff.mp listed
  rw [List.set_getElem_self inside]

end Client

/-- A stream is well formed when the client follows it to its end. -/
def WellFormedResponses (fallback : String → Value → String)
    (run : List (String × List Frame)) : Prop :=
  (Client.follow fallback {} run).isSome

end Aipass.Conversion
