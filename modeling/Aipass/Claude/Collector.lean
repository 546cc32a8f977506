import Aipass.Conversion.Protocol
import Aipass.Base.Result
import Aipass.Values

/-!
# Events of the Claude process

The process writes its events one a line. A search that it makes on its own is hidden: the messages
around it are merged into one reply. A collector puts the reply together from the events that are
left.
-/
namespace Aipass.Claude

/-- Write the fields of an object over another value, one after another. -/
def writeAll (value : Value) (fields : List (String × Value)) : Option Value :=
  fields.foldlM (fun held field => held.write field.1 field.2) value

/-! ## The searches of the process -/

mutual

/-- `sum`: add the counters of one usage to another. -/
def sum (left : Value) : Value → Value
  | .object fields => .object (sumFields (left.asObject.getD []) fields)
  | _ => .object (left.asObject.getD [])

/-- The loop of `sum` over the fields that are added. -/
def sumFields (out : List (String × Value)) : List (String × Value) → List (String × Value)
  | [] => out
  | (key, .object fields) :: rest =>
    sumFields (Value.insertField key (sum ((Value.lookup key out).getD .null) (.object fields)) out)
      rest
  | (key, value) :: rest =>
    let held := ((Value.lookup key out).bind Value.asU64).getD 0
    let total := match value.asU64 with
      | some count => .nat (min (held + count) (2 ^ 64 - 1))
      | none => value
    sumFields (Value.insertField key total out) rest

end

/-- `Events`. -/
structure Events where
  started : Bool := false
  next : ℕ := 0
  /-- The blocks of the process, with the indices they have in the reply. -/
  indices : List (ℕ × ℕ) := []
  /-- Whether the message has a call of the process's own search. -/
  own : Bool := false
  /-- Whether the message has a call of a caller's tool. -/
  caller : Bool := false
  current : Value := .null
  before : Value := .null
  searches : ℕ := 0
deriving DecidableEq

namespace Events

variable (events : Events) (event : Value)

/-- `adapt`, at the start of a block. -/
def blockStart (old : ℕ) : Events × Option Value :=
  let block := event.field "content_block"
  if block.field "type" = "tool_use" ∧ block.field "name" = "WebSearch" then
    ({ events with own := true, searches := events.searches + 1 }, none)
  else
    ({ events with
        caller := events.caller || block.field "type" = "tool_use"
        indices := (old, events.next) :: events.indices
        next := events.next + 1 },
      some (event.set "index" (.nat events.next)))

/-- `adapt`, at the delta of a message whose usage is known. -/
def messageDelta : Events × Option Value :=
  if events.own ∧ ¬ events.caller then (events, none)
  else
    let usage := sum events.before events.current
    let usage :=
      if 0 < events.searches then
        usage.set "server_tool_use" (.obj [("web_search_requests", .nat events.searches)])
      else usage
    (events, some (event.set "usage" usage))

/-- `adapt`: an event as the reply has it, if it is part of the reply. There is nothing if the source
panics. -/
def adapt : Option (Except String (Events × Option Value)) :=
  match (event.field "type").asStr with
  | some "message_start" =>
    let events := { events with
      indices := [], own := false, caller := false
      current := (event.field "message").field "usage" }
    some (.ok (if events.started then (events, none)
      else ({ events with started := true }, some event)))
  | some "content_block_start" =>
    some (match (event.field "index").asU64 with
      | some old => .ok (events.blockStart event old)
      | none => .error "invalid Claude block index")
  | some "content_block_delta" | some "content_block_stop" =>
    some (match (event.field "index").asU64 with
      | some old => .ok (events, (events.indices.lookup old).map fun index =>
          event.set "index" (.nat index))
      | none => .error "invalid Claude block index")
  | some "message_delta" =>
    (writeAll events.current (((event.field "usage").asObject).getD [])).map fun current =>
      .ok ({ events with current }.messageDelta event)
  | some "message_stop" =>
    some (.ok (if events.own ∧ ¬ events.caller then
        ({ events with before := sum events.before events.current }, none)
      else ({}, some event)))
  | _ => some (.ok (events, some event))

end Events

/-! ## The collector -/

/-- `Collector`. -/
structure Collector where
  message : Value := .null
  complete : Bool := false
deriving DecidableEq

namespace Collector

variable (serde : SerdeJson) (collector : Collector) (event : Value)

/-- The blocks collected so far. -/
def content : List Value := ((collector.message.field "content").asArray).getD []

/-- The blocks change. -/
def withContent (blocks : List Value) : Collector :=
  { collector with message := collector.message.set "content" (.array blocks) }

/-- `event`, at the start of a block. -/
def blockStart : Except String Collector :=
  match (event.field "index").asU64 with
  | none => .error "invalid Claude block index"
  | some index =>
    if 4096 < index then .error "too many Claude blocks"
    else match (collector.message.field "content").asArray with
      | none => .error "Claude block before message start"
      | some blocks =>
        let padded := blocks ++ List.replicate (index + 1 - blocks.length) Value.null
        .ok (collector.withContent (padded.set index (event.field "content_block")))

/-- The field that a delta goes on with, and the text it adds. -/
def deltaField (delta : Value) : Option (String × String) :=
  match (delta.field "type").asStr with
  | some "text_delta" => some ("text", "text")
  | some "thinking_delta" => some ("thinking", "thinking")
  | some "signature_delta" => some ("signature", "signature")
  | some "input_json_delta" => some ("_arguments", "partial_json")
  | _ => none

/-- `event`, at the delta of a block. -/
def blockDelta : Option (Except String Collector) :=
  match (event.field "index").asU64 with
  | none => some (.error "invalid Claude block index")
  | some index =>
    match collector.content[index]? with
    | none => some (.error "unknown Claude block")
    | some block =>
      let delta := event.field "delta"
      match deltaField delta with
      | none => some (.ok collector)
      | some (field, source) =>
        let text := (block.field field).asStr.getD "" ++ (delta.field source).asStr.getD ""
        (block.write field text).map fun block =>
          .ok (collector.withContent (collector.content.set index block))

/-- `event`, at the end of a block. -/
def blockStop : Except String Collector :=
  let index := (event.field "index").asU64.getD 0
  match collector.content[index]? with
  | none => .ok collector
  | some block =>
    match (block.get "_arguments").bind Value.asStr with
    | none => .ok collector
    | some arguments =>
      match serde.parse arguments.toList with
      | .error _ => .error "invalid Claude tool arguments"
      | .ok input =>
        .ok (collector.withContent
          (collector.content.set index ((block.set "input" input).remove "_arguments")))

/-- `event`, at the delta of a message. -/
def messageDelta : Option Collector := do
  let message ← collector.message.write "stop_reason" ((event.field "delta").field "stop_reason")
  match (event.field "usage").asObject with
  | none => some { collector with message }
  | some fields =>
    if fields.isEmpty then some { collector with message }
    else
      let usage ← writeAll (message.field "usage") fields
      some { collector with message := message.set "usage" usage }

/-- `event`: the reply after an event, unless the event is an error. There is nothing if the source
panics. -/
def event_ : Option (Except String Collector) :=
  match (event.field "type").asStr with
  | some "message_start" =>
    ((event.field "message").write "content" (.array [])).map fun message =>
      .ok { collector with message }
  | some "content_block_start" => some (collector.blockStart event)
  | some "content_block_delta" => collector.blockDelta event
  | some "content_block_stop" => some (collector.blockStop serde event)
  | some "message_delta" => (collector.messageDelta event).map .ok
  | some "message_stop" => some (.ok { collector with complete := true })
  | some "error" => some (.error "Claude reported an upstream error")
  | _ => some (.ok collector)

variable {serde collector event} {next : Collector}

/-- The blocks after they change. -/
theorem content_withContent (blocks : List Value)
    (isObject : collector.message.IsObject) : (collector.withContent blocks).content = blocks := by
  rw [content, withContent, Value.field, Value.get_set isObject, if_pos rfl]
  rfl

/-- A message with blocks is an object. -/
theorem isObject_of_content (some_ : collector.content ≠ []) : collector.message.IsObject := by
  unfold content at some_
  cases message : collector.message with
  | object fields => trivial
  | _ => exact absurd (by rw [message]; rfl) some_

/-- The start of a block does not complete the reply. -/
theorem complete_blockStart (went : collector.blockStart event = .ok next) :
    next.complete = collector.complete := by
  unfold blockStart at went
  split at went
  · cases went
  · split at went
    · cases went
    · split at went
      · cases went
      · cases went
        rfl

/-- The delta of a block does not complete the reply. -/
theorem complete_blockDelta (went : collector.blockDelta event = some (.ok next)) :
    next.complete = collector.complete := by
  unfold blockDelta at went
  split at went
  · cases went
  · split at went
    · cases went
    · simp only at went
      split at went
      · cases went
        rfl
      · obtain ⟨block, -, same⟩ := Option.map_eq_some_iff.mp went
        cases same
        rfl

/-- The end of a block does not complete the reply. -/
theorem complete_blockStop (went : collector.blockStop serde event = .ok next) :
    next.complete = collector.complete := by
  unfold blockStop at went
  simp only at went
  split at went
  · cases went
    rfl
  · split at went
    · cases went
      rfl
    · split at went
      · cases went
      · cases went
        rfl

/-- The delta of a message does not complete the reply. -/
theorem complete_messageDelta (went : collector.messageDelta event = some next) :
    next.complete = collector.complete := by
  unfold messageDelta at went
  obtain ⟨message, -, went⟩ := Option.bind_eq_some_iff.mp went
  split at went
  · cases went
    rfl
  · split at went
    · cases went
      rfl
    · obtain ⟨usage, -, same⟩ := Option.bind_eq_some_iff.mp went
      cases same
      rfl

/-- A reply is complete if it was, or if the event ends it. -/
theorem complete_event_ (went : collector.event_ serde event = some (.ok next))
    (complete : next.complete = true) :
    collector.complete = true ∨ event.field "type" = .string "message_stop" := by
  unfold event_ at went
  split at went
  · obtain ⟨message, -, same⟩ := Option.map_eq_some_iff.mp went
    cases same
    exact Or.inl complete
  · exact Or.inl (complete_blockStart (Option.some.inj went) ▸ complete)
  · exact Or.inl (complete_blockDelta went ▸ complete)
  · exact Or.inl (complete_blockStop (Option.some.inj went) ▸ complete)
  · obtain ⟨held, isHeld, same⟩ := Option.map_eq_some_iff.mp went
    cases same
    exact Or.inl (complete_messageDelta isHeld ▸ complete)
  · rename_i isStop
    exact Or.inr (Value.asStr_eq_some.mp isStop)
  · cases went
  · cases went
    exact Or.inl complete

/-- A block that has ended is the one before, but for its input. -/
theorem block_blockStop (went : collector.blockStop serde event = .ok next) {block : Value}
    (isBlock : next.content[(event.field "index").asU64.getD 0]? = some block) :
    ∃ before, collector.content[(event.field "index").asU64.getD 0]? = some before ∧
      ∀ key, key ≠ "input" → key ≠ "_arguments" → block.field key = before.field key := by
  unfold blockStop at went
  simp only at went
  split at went
  · cases went
    exact ⟨block, isBlock, fun _ _ _ => rfl⟩
  · rename_i before isBefore
    refine ⟨before, isBefore, fun key notInput notArguments => ?_⟩
    have inside := (List.getElem?_eq_some_iff.mp isBefore).1
    split at went
    · cases went
      rw [isBefore] at isBlock
      rw [Option.some.inj isBlock]
    · rename_i arguments isArguments
      have isObject : before.IsObject := by
        cases before with
        | object fields => trivial
        | _ => cases isArguments
      split at went
      · cases went
      · cases went
        rw [content_withContent _ (isObject_of_content (List.ne_nil_of_length_pos (by omega))),
          List.getElem?_set_self inside] at isBlock
        cases isBlock
        rw [Value.field, Value.get_remove _ notArguments, Value.get_set isObject,
          if_neg (Ne.symm notInput)]
        rfl

end Collector
end Aipass.Claude
