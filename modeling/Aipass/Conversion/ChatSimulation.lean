import Aipass.Base.Result
import Aipass.Conversion.ChatToResponses
import Aipass.Conversion.ResponsesClient

/-!
# The client follows a stream converted from Chat Completions

While the stream runs, the client knows as many items as the converter has put out, all of them
open, each with the text the converter holds for it. Every call keeps this relation; the call
that ends the stream closes the items one after the other.
-/
namespace Aipass.Conversion

/-- What an item of a converted chat stream carries. -/
inductive ItemShape
  /-- A message or a reasoning with one part. -/
  | text (kind : TextKind)
  /-- A tool call. -/
  | call (custom : Bool)

/-- The text a call is closed with when no delta came. -/
def ItemShape.fallback : ItemShape → String
  | .call false => "{}"
  | _ => ""

/-- The type of an item. -/
def ItemShape.type : ItemShape → String
  | .text .thinking => "reasoning"
  | .text _ => "message"
  | .call true => "custom_tool_call"
  | .call false => "function_call"

/-- The type of a part. -/
def TextKind.type : TextKind → String
  | .text => "output_text"
  | .thinking => "summary_text"
  | .refusal => "refusal"

/-- A part that holds a text of a kind. -/
structure PartHolds (kind : TextKind) (text : String) (part : Value) : Prop where
  /-- Fields can be written. -/
  isObject : part.IsObject
  /-- The type is that of the kind. -/
  typed : part.get "type" = some (.string kind.type)
  /-- The text stands under the field of the kind. -/
  held : part.get kind.names.field = some (.string text)
  /-- A refusal has no other text. -/
  only : kind = .refusal → part.get "text" = none

/-- An item that holds a text in a shape. -/
structure ItemHolds (shape : ItemShape) (text : String) (item : Value) : Prop where
  /-- Fields can be written. -/
  isObject : item.IsObject
  /-- The type is that of the shape. -/
  typed : item.get "type" = some (.string shape.type)
  /-- The text stands where the shape has it. -/
  held : match shape with
    | .text kind => ∃ part, item.get kind.names.list = some (.array [part]) ∧
        PartHolds kind text part
    | .call custom => item.get (ChatToResponses.argumentField custom) = some (.string text)

namespace ItemHolds

/-- Fields that carry neither the type nor the text may be written. -/
theorem set_other {shape : ItemShape} {text : String} {item : Value}
    (holds : ItemHolds shape text item) {key : String}
    (other : key ∉ ["type", "content", "summary", "arguments", "input"]) (value : Value) :
    ItemHolds shape text (item.set key value) := by
  obtain ⟨isObject, typed, held⟩ := holds
  simp only [List.mem_cons, List.not_mem_nil, or_false, not_or] at other
  refine ⟨Value.isObject_set isObject key value, ?_, ?_⟩
  · rw [Value.get_set isObject, if_neg other.1, typed]
  · cases shape with
    | text kind =>
      have differs : key ≠ kind.names.list := by cases kind <;> simp [TextKind.names, other]
      simpa only [Value.get_set isObject, if_neg differs] using held
    | call custom =>
      have differs : key ≠ ChatToResponses.argumentField custom := by
        cases custom <;> simp [ChatToResponses.argumentField, other]
      simpa only [Value.get_set isObject, if_neg differs] using held

/-- The text a client reads off a closed item. -/
theorem itemText_eq {shape : ItemShape} {text : String} {item : Value}
    (holds : ItemHolds shape text item) : itemText item = text := by
  obtain ⟨isObject, typed, held⟩ := holds
  cases shape with
  | text kind =>
    obtain ⟨part, listed, partHolds⟩ := held
    have typed' := partHolds.held
    cases kind with
    | refusal =>
      have noText := partHolds.only rfl
      simp_all [itemText, ItemShape.type, TextKind.names, Value.field, Value.first, partText, string]
    | _ =>
      simp_all [itemText, ItemShape.type, TextKind.names, Value.field, Value.first, partText, string]
  | call custom =>
    cases custom <;>
      simp_all [itemText, ItemShape.type, ChatToResponses.argumentField, string]

/-- The arguments a client expects of a call without a delta are those of its shape. -/
theorem fallback_eq {shape : ItemShape} {text : String} {item : Value}
    (holds : ItemHolds shape text item) : itemFallback "{}" item = shape.fallback := by
  have typed := holds.typed
  cases shape with
  | text kind => cases kind <;> simp [itemFallback, Value.field, typed, ItemShape.type,
      ItemShape.fallback]
  | call custom => cases custom <;> simp [itemFallback, Value.field, typed, ItemShape.type,
      ItemShape.fallback]

/-- The shape of an item is determined by the item. -/
theorem shape_unique {shape shape' : ItemShape} {text text' : String} {item : Value}
    (holds : ItemHolds shape text item) (holds' : ItemHolds shape' text' item) :
    shape = shape' := by
  have types := Option.some.inj (holds.typed.symm.trans holds'.typed)
  have held := holds.held
  have held' := holds'.held
  cases shape with
  | text kind =>
    cases shape' with
    | text kind' =>
      obtain ⟨part, listed, partHolds⟩ := held
      obtain ⟨part', listed', partHolds'⟩ := held'
      have typed := partHolds.typed
      have typed' := partHolds'.typed
      cases kind <;> cases kind' <;>
        simp_all [ItemShape.type, TextKind.names, TextKind.type]
    | call custom => cases kind <;> cases custom <;> simp [ItemShape.type] at types
  | call custom =>
    cases shape' with
    | text kind => cases kind <;> cases custom <;> simp [ItemShape.type] at types
    | call custom' => cases custom <;> cases custom' <;> simp [ItemShape.type] at types ⊢

end ItemHolds

namespace ChatToResponses

/-- The client knows an item of the converter: it is open and gathered the text it holds. -/
def Knows (item : Value) (known : ClientItem) : Prop :=
  known.closed = none ∧ ∃ shape, ItemHolds shape known.text item ∧ known.fallback = shape.fallback

/-- The client knows the state of a running converter. -/
structure Follows (held : ChatToResponses) (client : Client) : Prop where
  /-- The next event carries the number the client expects. -/
  numbered : client.sequence = held.sequence
  /-- No terminal event was seen. -/
  running : client.ended = false
  /-- The client knows as many items as were put out. -/
  counted : client.items.length = held.output.length
  /-- The client knows every item. -/
  known : ∀ (position : ℕ) (item : Value), held.output[position]? = some item →
    ∃ known, client.items[position]? = some known ∧ Knows item known
  /-- A kind of text is open under an item of that kind. -/
  slots : ∀ (kind : TextKind) (position : ℕ), held.slot kind = some position →
    ∃ item text, held.output[position]? = some item ∧ ItemHolds (.text kind) text item
  /-- A call is open under an item of a call. -/
  calls : ∀ (key position : ℕ), held.tools[key]? = some position →
    ∃ item custom text, held.output[position]? = some item ∧ ItemHolds (.call custom) text item

/-- An announcement is read as one. -/
theorem clientView_itemAdded (position : ℕ) (item : Value) :
    clientView (itemAdded position item) = .added position item := by
  simp [clientView, itemAdded, string, outputIndex, number, Value.field]

/-- The announcement of a part is about its item. -/
theorem clientView_partAdded (kind : TextKind) (id : Value) (position : ℕ) :
    clientView (partAdded kind id position) = .about position := by
  cases kind <;> simp [clientView, partAdded, TextKind.names, string, outputIndex, number]

/-- A piece of text is read as a delta. -/
theorem clientView_textDelta (kind : TextKind) (id : Value) (position : ℕ) (text : String) :
    clientView (textDelta kind id position text) = .delta position text := by
  cases kind <;> simp [clientView, textDelta, TextKind.names, string, outputIndex, number]

/-- A piece of arguments is read as a delta. -/
theorem clientView_callDelta (custom : Bool) (id : Value) (position : ℕ) (text : String) :
    clientView (callDelta custom id position text) = .delta position text := by
  cases custom <;> simp [clientView, callDelta, string, outputIndex, number]

/-- The end of the arguments of a call is read as one. -/
theorem clientView_callDone (custom : Bool) (id : Value) (position : ℕ) (text : String) :
    clientView (callDone custom id position text) = .textDone position text := by
  cases custom <;> simp [clientView, callDone, argumentField, string, outputIndex, number]

/-- The end of a text is read as one. -/
theorem clientView_textDone (kind : TextKind) (id : Value) (position : ℕ) (text : String) :
    clientView (textDone kind id position text) = .textDone position text := by
  cases kind <;> simp [clientView, textDone, TextKind.names, string, outputIndex, number]

/-- The end of a part is read by the text of the part. -/
theorem clientView_partDone (kind : TextKind) (id : Value) (position : ℕ) (part : Value) :
    clientView (partDone kind id position part) = .textDone position (Conversion.partText part) := by
  cases kind <;>
    simp [clientView, partDone, TextKind.names, string, outputIndex, number, Value.field]

/-- The end of an item is read as one. -/
theorem clientView_itemDone (position : ℕ) (item : Value) :
    clientView (itemDone position item) = .itemDone position item := by
  simp [clientView, itemDone, string, outputIndex, number, Value.field]

/-- The client, having taken the frames put out so far, knows the state. -/
def Tracks (start : Client) (run : Emitting ChatToResponses) : Prop :=
  ∃ client, start.receiveAll (itemFallback "{}") run.out = some client ∧ Follows run.self client

/-- The client takes an event that passes its judgement. -/
theorem receiveAll_emit {start client next : Client} {run : Emitting ChatToResponses}
    {value : Value} (isObject : value.IsObject)
    (taken : start.receiveAll (itemFallback "{}") run.out = some client)
    (numbered : client.sequence = run.self.sequence) (running : client.ended = false)
    (judged : client.judge (itemFallback "{}") (clientView value) = some next) :
    start.receiveAll (itemFallback "{}") (emit run value).out =
      some { next with sequence := next.sequence + 1 } := by
  show start.receiveAll (itemFallback "{}") (run.out ++ [event value run.self.sequence]) = _
  rw [Client.receiveAll_append taken, event, ← numbered,
    Client.receive_numbered (itemFallback "{}") client isObject running, judged]
  rfl

/-- What the client knows depends on the number, the items, the open texts and the calls. -/
theorem Follows.congr {self self' : ChatToResponses} {client : Client}
    (follows : Follows self client) (sequence : self'.sequence = self.sequence)
    (output : self'.output = self.output) (slot : self'.slot = self.slot)
    (tools : self'.tools = self.tools) : Follows self' client where
  numbered := by rw [sequence]; exact follows.numbered
  running := follows.running
  counted := by rw [output]; exact follows.counted
  known := by rw [output]; exact follows.known
  slots := by rw [output, slot]; exact follows.slots
  calls := by rw [output, tools]; exact follows.calls

/-- A change that the client does not see keeps the relation. -/
theorem Tracks.congr {start : Client} {run : Emitting ChatToResponses} {self : ChatToResponses}
    (tracks : Tracks start run) (sequence : self.sequence = run.self.sequence)
    (output : self.output = run.self.output) (slot : self.slot = run.self.slot)
    (tools : self.tools = run.self.tools) : Tracks start { run with self } := by
  obtain ⟨client, taken, follows⟩ := tracks
  exact ⟨client, taken, follows.congr sequence output slot tools⟩

/-- An event about no item keeps the relation. -/
theorem Tracks.emit_other {start : Client} {run : Emitting ChatToResponses}
    (tracks : Tracks start run) {value : Value} (isObject : value.IsObject)
    (view : clientView value = .other) : Tracks start (emit run value) := by
  obtain ⟨client, taken, follows⟩ := tracks
  refine ⟨_, receiveAll_emit isObject taken follows.numbered follows.running
    (by rw [view]; rfl), ?_⟩
  exact
    { numbered := by simp [emit, follows.numbered]
      running := follows.running
      counted := follows.counted
      known := follows.known
      slots := follows.slots
      calls := follows.calls }

/-- What the client knows of an item of a known shape. -/
theorem Follows.knows {held : ChatToResponses} {client : Client} (follows : Follows held client)
    {position : ℕ} {item : Value} {shape : ItemShape} {text : String}
    (listed : held.output[position]? = some item) (holds : ItemHolds shape text item) :
    ∃ known, client.items[position]? = some known ∧ known.closed = none ∧ known.text = text ∧
      known.fallback = shape.fallback := by
  obtain ⟨known, knownListed, isOpen, shape', holds', fallback⟩ := follows.known _ _ listed
  rw [holds.shape_unique holds']
  exact ⟨known, knownListed, isOpen, by rw [← holds.itemText_eq, holds'.itemText_eq], fallback⟩

/-- Adding text to one item, on both sides, keeps the relation. -/
theorem Follows.change {held : ChatToResponses} {client : Client} (follows : Follows held client)
    {position : ℕ} {item : Value} {shape : ItemShape} {text more : String}
    {known : ClientItem} {update : Value → Value}
    (listed : held.output[position]? = some item) (knownListed : client.items[position]? = some known)
    (isOpen : known.closed = none) (fallback : known.fallback = shape.fallback)
    (gathered : known.text = text) (holds : ItemHolds shape text item)
    (holds' : ItemHolds shape (text ++ more) (update item)) :
    Follows (held.setItem position update)
      { client with
        items := client.items.set position { known with text := known.text ++ more } } := by
  have inside := (List.getElem?_eq_some_iff.mp knownListed).choose
  have kept : ∀ {shape' : ItemShape} {place : ℕ},
      (∃ found text, held.output[place]? = some found ∧ ItemHolds shape' text found) →
      ∃ found text, (held.setItem position update).output[place]? = some found ∧
        ItemHolds shape' text found := by
    rintro shape' place ⟨found, text', foundListed, foundHolds⟩
    by_cases same : position = place
    · subst same
      rw [listed, Option.some.injEq] at foundListed
      subst foundListed
      refine ⟨update item, text ++ more, by simp [setItem, listed], ?_⟩
      rw [foundHolds.shape_unique holds]
      exact holds'
    · exact ⟨found, text', by simp [setItem, same, foundListed], foundHolds⟩
  refine ⟨follows.numbered, follows.running, ?_, ?_, ?_, ?_⟩
  · simpa [setItem] using follows.counted
  · intro place found foundListed
    simp only [setItem, List.getElem?_modify] at foundListed
    by_cases same : position = place
    · subst same
      simp only [listed, if_true, Option.map_eq_map, Option.map_some, Option.some.injEq]
        at foundListed
      subst foundListed
      refine ⟨{ known with text := known.text ++ more }, by simp [inside], isOpen, shape, ?_,
        fallback⟩
      show ItemHolds shape (known.text ++ more) (update item)
      rw [gathered]
      exact holds'
    · simp only [same, if_false, id_map'] at foundListed
      simpa [List.getElem?_set, same] using follows.known place found foundListed
  · intro kind place opened
    exact kept (follows.slots kind place opened)
  · intro key place opened
    obtain ⟨found, custom, text', foundListed, foundHolds⟩ := follows.calls key place opened
    obtain ⟨found', text'', listed', holds''⟩ := kept ⟨found, text', foundListed, foundHolds⟩
    exact ⟨found', custom, text'', listed', holds''⟩

/-- A piece of text for an open item keeps the relation. -/
theorem Tracks.emit_delta {start : Client} {run : Emitting ChatToResponses}
    (tracks : Tracks start run) {position : ℕ} {item : Value} {shape : ItemShape}
    {text more : String} {update : Value → Value} {value : Value}
    (listed : run.self.output[position]? = some item) (holds : ItemHolds shape text item)
    (holds' : ItemHolds shape (text ++ more) (update item)) (isObject : value.IsObject)
    (view : clientView value = .delta position more) :
    Tracks start (emit { run with self := run.self.setItem position update } value) := by
  obtain ⟨client, taken, follows⟩ := tracks
  obtain ⟨known, knownListed, isOpen, gathered, fallback⟩ := follows.knows listed holds
  have judged : client.judge (itemFallback "{}") (clientView value) = some
      { client with
        items := client.items.set position { known with text := known.text ++ more } } := by
    rw [view]
    exact Client.onOpen_eq_some knownListed isOpen rfl
  have changed := follows.change listed knownListed isOpen fallback gathered holds holds'
  refine ⟨_, receiveAll_emit isObject taken follows.numbered follows.running judged, ?_⟩
  exact
    { numbered := by simp [emit, ← changed.numbered]
      running := changed.running
      counted := changed.counted
      known := changed.known
      slots := changed.slots
      calls := changed.calls }

/-- An element of a list stays where it is when the list grows. -/
theorem getElem?_grown {α : Type} {items more : List α} {position : ℕ} {item : α}
    (listed : items[position]? = some item) : (items ++ more)[position]? = some item := by
  rw [List.getElem?_append_left (List.getElem?_eq_some_iff.mp listed).1, listed]

/-- A new item, on both sides, keeps the relation. -/
theorem Follows.add {held : ChatToResponses} {client : Client} (follows : Follows held client)
    {shape : ItemShape} {item : Value} (holds : ItemHolds shape "" item) (sequence : ℕ) :
    Follows { held with output := held.output ++ [item], sequence }
      { client with items := client.items ++ [⟨shape.fallback, "", none⟩], sequence } where
  numbered := rfl
  running := follows.running
  counted := by simp [follows.counted]
  known := by
    intro position found listed
    rcases Nat.lt_or_ge position held.output.length with old | new
    · rw [List.getElem?_append_left old] at listed
      obtain ⟨known, knownListed, knows⟩ := follows.known position found listed
      exact ⟨known, getElem?_grown knownListed, knows⟩
    · rw [List.getElem?_append_right new, List.getElem?_singleton] at listed
      obtain ⟨last, rfl⟩ : position - held.output.length = 0 ∧ item = found := by
        simpa using listed
      have same : position = client.items.length := by rw [follows.counted]; omega
      exact ⟨⟨shape.fallback, "", none⟩, by simp [same], rfl, shape, holds, rfl⟩
  slots := by
    intro kind position opened
    obtain ⟨found, text, listed, foundHolds⟩ := follows.slots kind position opened
    exact ⟨found, text, getElem?_grown listed, foundHolds⟩
  calls := by
    intro key position opened
    obtain ⟨found, custom, text, listed, foundHolds⟩ := follows.calls key position opened
    exact ⟨found, custom, text, getElem?_grown listed, foundHolds⟩

/-- The client takes the announcement of an item. -/
theorem receiveAll_add {start client : Client} {run : Emitting ChatToResponses} {item : Value}
    (taken : start.receiveAll (itemFallback "{}") run.out = some client) (follows : Follows run.self client) :
    start.receiveAll (itemFallback "{}") (add run item).out = some
      { client with
        items := client.items ++ [⟨itemFallback "{}" item, "", none⟩]
        sequence := client.sequence + 1 } := by
  have isObject : (itemAdded run.self.output.length item).IsObject := by simp [itemAdded]
  have judged : client.judge (itemFallback "{}") (clientView (itemAdded run.self.output.length item)) = some
      { client with items := client.items ++ [⟨itemFallback "{}" item, "", none⟩] } := by
    rw [clientView_itemAdded]
    simp [Client.judge, follows.counted]
  exact receiveAll_emit isObject taken follows.numbered follows.running judged

/-- Changing the last item of a list. -/
theorem modify_last (items : List Value) (item : Value) (change : Value → Value) :
    (items ++ [item]).modify items.length change = items ++ [change item] := by
  induction items with
  | nil => rfl
  | cons head items ih => simp [List.modify_succ_cons, ih]

/-- An item opened for a kind of text holds no text. -/
theorem itemHolds_open (kind : TextKind) (id : String) :
    ItemHolds (.text kind) ""
      ((kind.item id).set kind.names.list (.array [kind.part])) := by
  have part : PartHolds kind "" kind.part := by
    cases kind <;>
      exact ⟨by simp [TextKind.part], by simp [TextKind.part, TextKind.type],
        by simp [TextKind.part, TextKind.names], by simp [TextKind.part]⟩
  have isObject : (kind.item id).IsObject := by cases kind <;> simp [TextKind.item]
  refine ⟨Value.isObject_set isObject _ _, ?_, kind.part, ?_, part⟩
  · cases kind <;> simp [TextKind.item, TextKind.names, ItemShape.type]
  · rw [Value.get_set isObject, if_pos rfl]

/-- The kinds of text open after one was opened. -/
theorem slot_setSlot (held : ChatToResponses) (kind kind' : TextKind) (position : ℕ) :
    (held.setSlot kind position).slot kind' =
      if kind = kind' then some position else held.slot kind' := by
  cases kind <;> cases kind' <;> rfl

/-- Opening a kind of text under an item of that kind keeps the relation. -/
theorem Follows.setSlot {held : ChatToResponses} {client : Client}
    (follows : Follows held client) {kind : TextKind} {position : ℕ} {item : Value} {text : String}
    (listed : held.output[position]? = some item) (holds : ItemHolds (.text kind) text item) :
    Follows (held.setSlot kind position) client := by
  have slots : ∀ (kind' : TextKind) (place : ℕ), (held.setSlot kind position).slot kind' = some place →
      ∃ item text, held.output[place]? = some item ∧ ItemHolds (.text kind') text item := by
    intro kind' place opened
    rw [slot_setSlot] at opened
    by_cases same : kind = kind'
    · subst same
      rw [if_pos rfl, Option.some.injEq] at opened
      subst opened
      exact ⟨item, text, listed, holds⟩
    · rw [if_neg same] at opened
      exact follows.slots kind' place opened
  cases kind <;>
    exact ⟨follows.numbered, follows.running, follows.counted, follows.known, slots, follows.calls⟩

/-- Opening a kind of text keeps the relation, and the kind is open after it. -/
theorem Tracks.openText {start : Client} {run : Emitting ChatToResponses}
    (tracks : Tracks start run) (kind : TextKind) :
    Tracks start (openText run kind) ∧
      (ChatToResponses.openText run kind).self.slot kind = some run.self.output.length := by
  obtain ⟨client, taken, follows⟩ := tracks
  let position := run.self.output.length
  let id := run.self.id ++ "_item_" ++ toString position
  let grown : Client :=
    { client with
      items := client.items ++ [⟨"", "", none⟩]
      sequence := client.sequence + 1 }
  have fallback : itemFallback "{}" (kind.item id) = "" := by
    cases kind <;> simp [itemFallback, TextKind.item, Value.field]
  have added : start.receiveAll (itemFallback "{}") (add run (kind.item id)).out = some grown := by
    rw [receiveAll_add taken follows, fallback]
  have listed : grown.items[position]? = some ⟨"", "", none⟩ := by
    simp [grown, position, ← follows.counted]
  have judged : grown.judge (itemFallback "{}") (clientView (partAdded kind id position)) = some grown := by
    rw [clientView_partAdded]
    exact Client.judge_about listed rfl (itemFallback "{}")
  have announced := receiveAll_emit (by simp [partAdded]) added
    (by simp [add, emit, grown, follows.numbered]) follows.running judged
  have opened : ItemHolds (.text kind) "" _ := itemHolds_open kind id
  have known := follows.add opened (grown.sequence + 1)
  refine ⟨⟨_, announced, ?_⟩, by rw [ChatToResponses.openText, slot_setSlot, if_pos rfl]⟩
  have output : ((emit (add run (kind.item id)) (partAdded kind id position)).self.setItem position
      (·.set kind.names.list (.array [kind.part]))).output =
      run.self.output ++ [(kind.item id).set kind.names.list (.array [kind.part])] := by
    simp [add, emit, setItem, modify_last, position]
  show Follows (ChatToResponses.setSlot _ kind position) _
  refine Follows.setSlot (known.congr ?_ output rfl rfl) ?_ opened
  · simp [add, emit, setItem, grown, follows.numbered]
  · rw [output]
    simp [position]

/-- The text an open item holds, and the item after more text. -/
theorem holds_appendText {kind : TextKind} {text : String} {item : Value}
    (holds : ItemHolds (.text kind) text item) (more : String) :
    ItemHolds (.text kind) (text ++ more) (item.set kind.names.list
      ((item.field kind.names.list).setFirst ((item.field kind.names.list).first.set
        kind.names.field (.string (partText item kind ++ more))))) := by
  obtain ⟨isObject, typed, part, listed, partObject, partTyped, held, only⟩ := holds
  have field : item.field kind.names.list = .array [part] := by simp [Value.field, listed]
  have gathered : partText item kind = text := by
    simp [partText, field, Value.first, held, string]
  rw [field, gathered]
  refine ⟨Value.isObject_set isObject _ _, ?_, part.set kind.names.field (.string (text ++ more)),
    ?_, ?_⟩
  · have differs : kind.names.list ≠ "type" := by cases kind <;> simp [TextKind.names]
    rw [Value.get_set isObject, if_neg differs, typed]
  · rw [Value.get_set isObject, if_pos rfl]
    rfl
  · refine ⟨Value.isObject_set partObject _ _, ?_, ?_, ?_⟩
    · have differs : kind.names.field ≠ "type" := by cases kind <;> simp [TextKind.names]
      rw [Value.get_set partObject, if_neg differs, partTyped]
    · rw [Value.get_set partObject, if_pos rfl]
    · rintro rfl
      simpa [Value.get_set partObject, TextKind.names] using only rfl

/-- A piece of text for an open kind keeps the relation. -/
theorem Tracks.appendText {start : Client} {run : Emitting ChatToResponses}
    (tracks : Tracks start run) {kind : TextKind} {position : ℕ}
    (opened : run.self.slot kind = some position) (text : String) :
    Tracks start (appendText run kind position text) := by
  obtain ⟨client, taken, follows⟩ := tracks
  obtain ⟨item, held, listed, holds⟩ := follows.slots kind position opened
  exact Tracks.emit_delta ⟨client, taken, follows⟩ listed holds (holds_appendText holds text)
    (by simp [textDelta]) (clientView_textDelta _ _ _ _)

/-- `text` keeps the relation. -/
theorem Tracks.pushText {start : Client} {run : Emitting ChatToResponses}
    (tracks : Tracks start run) (kind : TextKind) (text : String) :
    Tracks start (pushText kind run text) := by
  unfold ChatToResponses.pushText
  split
  · exact tracks
  · split
    · rename_i position opened
      exact tracks.appendText opened text
    · obtain ⟨tracks, opened⟩ := tracks.openText kind
      exact tracks.appendText opened text

/-- A loop keeps the relation when its passes do. -/
theorem Tracks.foldl {α : Type} {start : Client}
    {body : Emitting ChatToResponses → α → Emitting ChatToResponses}
    (kept : ∀ run element, Tracks start run → Tracks start (body run element))
    (elements : List α) {run : Emitting ChatToResponses} (tracks : Tracks start run) :
    Tracks start (elements.foldl body run) := by
  induction elements generalizing run with
  | nil => exact tracks
  | cons element elements ih => exact ih (kept run element tracks)

/-- The content parts of a delta keep the relation. -/
theorem Tracks.contentParts {start : Client} (parts : List Value)
    {run run' : Emitting ChatToResponses} (tracks : Tracks start run)
    (passes : contentParts run parts = .ok run') : Tracks start run' := by
  induction parts generalizing run with
  | nil =>
    cases passes
    exact tracks
  | cons part parts ih =>
    unfold ChatToResponses.contentParts at passes
    split at passes
    · exact ih (tracks.pushText .text _) passes
    · split at passes
      · exact ih (Tracks.foldl (fun _ _ held => held.pushText .thinking _) _ tracks) passes
      · exact ih (tracks.pushText .thinking _) passes
    · cases passes

/-- The content of a delta keeps the relation. -/
theorem Tracks.pushContent {start : Client} {run run' : Emitting ChatToResponses}
    (tracks : Tracks start run) (content : Option Value)
    (passes : pushContent run content = .ok run') : Tracks start run' := by
  unfold ChatToResponses.pushContent at passes
  split at passes
  · cases passes
    exact tracks.pushText .text _
  · exact tracks.contentParts _ passes
  · cases passes
    exact tracks

/-- A call is open under an item. -/
def CallOpen (held : ChatToResponses) (position : ℕ) : Prop :=
  ∃ item custom text, held.output[position]? = some item ∧ ItemHolds (.call custom) text item

/-- The item of an announced call holds no arguments. -/
theorem itemHolds_call (self : ChatToResponses) (key : ℕ) (call : Value) :
    ItemHolds (.call ((call.field "type").asStr = some "custom")) "" (callItem self key call) := by
  by_cases custom : (call.field "type").asStr = some "custom"
  · exact ⟨by simp [callItem], by simp [callItem, custom, argumentField, ItemShape.type],
      by simp [callItem, custom]⟩
  · exact ⟨by simp [callItem], by simp [callItem, custom, argumentField, ItemShape.type],
      by simp [callItem, custom]⟩

/-- Announcing a call keeps the relation, and the call is open after it. -/
theorem Tracks.addCall {start : Client} {run : Emitting ChatToResponses}
    (tracks : Tracks start run) (key : ℕ) (call : Value) :
    Tracks start (openCall run key call) ∧ CallOpen (openCall run key call).self
      run.self.output.length := by
  obtain ⟨client, taken, follows⟩ := tracks
  have holds := itemHolds_call run.self key call
  have listed : (run.self.output ++ [callItem run.self key call])[run.self.output.length]? =
      some (callItem run.self key call) := by simp
  have added := @receiveAll_add _ _ _ (callItem run.self key call) taken follows
  rw [holds.fallback_eq] at added
  have grown := follows.add holds (client.sequence + 1)
  refine ⟨⟨_, added, ?_⟩, _, _, _, listed, holds⟩
  exact
    { numbered := by simp [openCall, ChatToResponses.add, emit, follows.numbered]
      running := grown.running
      counted := grown.counted
      known := grown.known
      slots := grown.slots
      calls := by
        intro key' position opened
        simp only [openCall, Table.get_insert] at opened
        split at opened
        · rw [Option.some.injEq] at opened
          subst opened
          exact ⟨_, _, _, listed, holds⟩
        · exact grown.calls key' position opened }

/-- Naming an open call keeps the relation. -/
theorem Tracks.nameCall {start : Client} {run : Emitting ChatToResponses}
    (tracks : Tracks start run) {position : ℕ} (opened : CallOpen run.self position) (call : Value) :
    Tracks start (nameCall run position call) ∧
      CallOpen (ChatToResponses.nameCall run position call).self position := by
  simp only [ChatToResponses.nameCall]
  split
  · rename_i name _
    obtain ⟨client, taken, follows⟩ := tracks
    obtain ⟨item, custom, text, listed, holds⟩ := opened
    obtain ⟨known, knownListed, isOpen, gathered, fallback⟩ := follows.knows listed holds
    have holds' : ItemHolds (.call custom) (text ++ "") (item.set "name" name) := by
      rw [String.append_empty]
      exact holds.set_other (by decide) name
    have changed : Follows (run.self.setItem position fun item => item.set "name" name) _ :=
      follows.change listed knownListed isOpen fallback gathered holds holds'
    have same : client.items.set position { known with text := known.text ++ "" } =
        client.items := by
      obtain ⟨inside, rfl⟩ := List.getElem?_eq_some_iff.mp knownListed
      rw [String.append_empty, List.set_getElem_self inside]
    rw [same] at changed
    refine ⟨⟨client, taken, changed⟩, item.set "name" name, custom, text ++ "", ?_, holds'⟩
    simp [setItem, listed]
  · exact ⟨tracks, opened⟩

/-- Whether an item is a freeform call is told by its type. -/
theorem isCustom_eq {custom : Bool} {text : String} {item : Value}
    (holds : ItemHolds (.call custom) text item) : isCustom item = custom := by
  have typed := holds.typed
  cases custom <;> simp [isCustom, Value.field, typed, ItemShape.type]

/-- The arguments an open call holds, and the item after more of them. -/
theorem holds_appendCall {custom : Bool} {text : String} {item : Value}
    (holds : ItemHolds (.call custom) text item) (more : String) :
    ItemHolds (.call custom) (text ++ more) (item.set (argumentField custom)
      (.string (string (item.get (argumentField custom)) ++ more))) := by
  obtain ⟨isObject, typed, held⟩ := holds
  have differs : argumentField custom ≠ "type" := by cases custom <;> simp [argumentField]
  refine ⟨Value.isObject_set isObject _ _, ?_, ?_⟩
  · rw [Value.get_set isObject, if_neg differs, typed]
  · show Value.get _ _ = _
    rw [Value.get_set isObject, if_pos rfl, held]
    rfl

/-- Arguments of an open call keep the relation. -/
theorem Tracks.appendCall {serde : SerdeJson} {start : Client} {run : Emitting ChatToResponses}
    (tracks : Tracks start run) {position : ℕ} (opened : CallOpen run.self position) (call : Value) :
    Tracks start (appendCall serde run position call) := by
  obtain ⟨item, custom, text, listed, holds⟩ := opened
  have isCustom : isCustom (run.self.output.getD position .null) = custom := by
    rw [List.getD_eq_getElem?_getD, listed]
    exact isCustom_eq holds
  simp only [ChatToResponses.appendCall, isCustom]
  split
  · exact tracks.emit_delta listed holds (holds_appendCall holds _) (by simp [callDelta])
      (clientView_callDelta _ _ _ _)
  · exact tracks

/-- A fragment of a call keeps the relation. -/
theorem Tracks.pushCall {serde : SerdeJson} {start : Client} {run : Emitting ChatToResponses}
    (tracks : Tracks start run) (entry : Value × ℕ) : Tracks start (pushCall serde run entry) := by
  simp only [ChatToResponses.pushCall]
  split
  · rename_i position opened
    obtain ⟨client, taken, follows⟩ := tracks
    obtain ⟨named, opened⟩ := Tracks.nameCall ⟨client, taken, follows⟩
      (follows.calls _ position opened) entry.1
    exact named.appendCall opened entry.1
  · obtain ⟨added, opened⟩ := tracks.addCall _ entry.1
    obtain ⟨named, opened⟩ := added.nameCall opened entry.1
    exact named.appendCall opened entry.1

/-- A choice of a chunk keeps the relation. -/
theorem Tracks.pushChoice {serde : SerdeJson} {start : Client}
    {run run' : Emitting ChatToResponses} (tracks : Tracks start run) (choice : Value)
    (passes : pushChoice serde run choice = .ok run') : Tracks start run' := by
  simp only [ChatToResponses.pushChoice, bind_eq_ok] at passes
  obtain ⟨middle, content, passes⟩ := passes
  have read := (tracks.pushText .thinking _).pushContent _ content
  have called : ∀ entries : List (Value × ℕ), Tracks start (entries.foldl
      (ChatToResponses.pushCall serde) (ChatToResponses.pushText .refusal middle
        (string ((choice.field "delta").get "refusal")))) := fun entries =>
    Tracks.foldl (fun _ entry held => held.pushCall entry) entries (read.pushText .refusal _)
  split at passes
  · cases passes
    exact (called _).congr rfl rfl rfl rfl
  · cases passes
    exact called _

/-- The choices of a chunk keep the relation. -/
theorem Tracks.pushChoices {serde : SerdeJson} {start : Client} (choices : List Value)
    {run run' : Emitting ChatToResponses} (tracks : Tracks start run)
    (passes : pushChoices serde run choices = .ok run') : Tracks start run' := by
  induction choices generalizing run with
  | nil =>
    cases passes
    exact tracks
  | cons choice choices ih =>
    simp only [ChatToResponses.pushChoices] at passes
    split at passes
    · rename_i index _
      have noted : Tracks start { run with
          self := { run.self with choice := some (run.self.choice.getD index) } } :=
        tracks.congr rfl rfl rfl rfl
      split at passes
      · exact ih noted passes
      · exact noted.pushChoice choice passes
    · exact tracks.pushChoice choice passes

/-- Opening the stream keeps the relation. -/
theorem Tracks.start {first : Client} {run : Emitting ChatToResponses} (tracks : Tracks first run)
    (reading : Reading) (payload : Value) :
    Tracks first (ChatToResponses.start reading payload run) := by
  have created : ∀ self, clientView (opening self "response.created") = .other := by
    intro self
    simp [clientView, opening, string]
  have inProgress : ∀ self, clientView (opening self "response.in_progress") = .other := by
    intro self
    simp [clientView, opening, string]
  simp only [ChatToResponses.start]
  split
  · exact tracks
  · have named : Tracks first { run with
        self := { run.self with
          id := responseId reading payload
          model := payload.field "model"
          created := (payload.get "created").getD (.nat reading.now) } } :=
      tracks.congr rfl rfl rfl rfl
    refine Tracks.emit_other (Tracks.emit_other named ?_ (created _)) ?_ (inProgress _)
    · simp [opening]
    · simp [opening]

/-- The text an item in a shape is closed with. -/
def finalText (shape : ItemShape) (text : String) : String :=
  if text = "" then shape.fallback else text

/-- The client while the items are closed: those before a position are, the others are not. -/
structure Closing (held : ChatToResponses) (client : Client) (closed : ℕ) : Prop where
  /-- The next event carries the number the client expects. -/
  numbered : client.sequence = held.sequence
  /-- No terminal event was seen. -/
  running : client.ended = false
  /-- The client knows as many items as were put out. -/
  counted : client.items.length = held.output.length
  /-- The client has closed every earlier item as the converter holds it. -/
  before : ∀ (position : ℕ) (item : Value), position < closed →
    held.output[position]? = some item →
    ∃ known, client.items[position]? = some known ∧ known.closed = some item
  /-- The client knows every later item. -/
  after : ∀ (position : ℕ) (item : Value), closed ≤ position →
    held.output[position]? = some item →
    ∃ known, client.items[position]? = some known ∧ Knows item known

/-- The client, having taken the frames put out so far, has closed the earlier items. -/
def TracksClosing (start : Client) (run : Emitting ChatToResponses) (closed : ℕ) : Prop :=
  ∃ client, start.receiveAll (itemFallback "{}") run.out = some client ∧ Closing run.self client closed

/-- What the client knows of a later item of a known shape. -/
theorem Closing.knows {held : ChatToResponses} {client : Client} {closed position : ℕ}
    (closing : Closing held client closed) (later : closed ≤ position) {item : Value}
    {shape : ItemShape} {text : String} (listed : held.output[position]? = some item)
    (holds : ItemHolds shape text item) :
    ∃ known, client.items[position]? = some known ∧ known.closed = none ∧
      known.final = finalText shape text := by
  obtain ⟨known, knownListed, isOpen, shape', holds', fallback⟩ :=
    closing.after position item later listed
  refine ⟨known, knownListed, isOpen, ?_⟩
  rw [ClientItem.final, finalText, holds.shape_unique holds', fallback, ← holds.itemText_eq,
    ← holds'.itemText_eq]

/-- The client takes the end of the text of an open item. -/
theorem TracksClosing.emit_textDone {start : Client} {run : Emitting ChatToResponses}
    {closed position : ℕ} (tracks : TracksClosing start run closed) (later : closed ≤ position)
    {item value : Value} {shape : ItemShape} {text : String}
    (listed : run.self.output[position]? = some item) (holds : ItemHolds shape text item)
    (isObject : value.IsObject)
    (view : clientView value = .textDone position (finalText shape text)) :
    TracksClosing start (emit run value) closed := by
  obtain ⟨client, taken, closing⟩ := tracks
  obtain ⟨known, knownListed, isOpen, final⟩ := closing.knows later listed holds
  have judged : client.judge (itemFallback "{}") (clientView value) = some client := by
    have passes : (if finalText shape text = known.final then some known else none) =
        some known := if_pos final.symm
    rw [view, Client.judge, Client.onOpen_eq_some knownListed isOpen passes]
    obtain ⟨inside, rfl⟩ := List.getElem?_eq_some_iff.mp knownListed
    rw [List.set_getElem_self inside]
  refine ⟨_, receiveAll_emit isObject taken closing.numbered closing.running judged, ?_⟩
  exact
    { numbered := by simp [emit, closing.numbered]
      running := closing.running
      counted := closing.counted
      before := closing.before
      after := closing.after }

/-- The client takes the end of the next open item. -/
theorem TracksClosing.emit_itemDone {start : Client} {run : Emitting ChatToResponses}
    {closed : ℕ} (tracks : TracksClosing start run closed)
    {item item' : Value} {shape : ItemShape} {text : String}
    (listed : run.self.output[closed]? = some item) (holds : ItemHolds shape text item)
    (holds' : ItemHolds shape (finalText shape text) item') :
    TracksClosing start
      (emit { run with self := run.self.setItem closed fun _ => item' } (itemDone closed item'))
      (closed + 1) := by
  obtain ⟨client, taken, closing⟩ := tracks
  obtain ⟨known, knownListed, isOpen, final⟩ := closing.knows le_rfl listed holds
  have inside := (List.getElem?_eq_some_iff.mp knownListed).choose
  have judged : client.judge (itemFallback "{}") (clientView (itemDone closed item')) = some
      { client with items := client.items.set closed { known with closed := some item' } } := by
    rw [clientView_itemDone]
    refine Client.onOpen_eq_some knownListed isOpen ?_
    rw [holds'.itemText_eq, final, if_pos rfl]
  refine ⟨_, receiveAll_emit (by simp [itemDone]) taken closing.numbered closing.running judged, ?_⟩
  refine ⟨by simp [emit, setItem, closing.numbered], closing.running, ?_, ?_, ?_⟩
  · simpa [emit, setItem] using closing.counted
  · intro position found earlier foundListed
    simp only [emit, setItem, List.getElem?_modify] at foundListed
    by_cases same : closed = position
    · subst same
      simp only [listed, if_true, Option.map_eq_map, Option.map_some, Option.some.injEq]
        at foundListed
      subst foundListed
      exact ⟨{ known with closed := some item' }, by simp [inside], rfl⟩
    · simp only [same, if_false, id_map'] at foundListed
      simpa [List.getElem?_set, same] using closing.before position found (by omega) foundListed
  · intro position found later foundListed
    have differs : closed ≠ position := by omega
    simp only [emit, setItem, List.getElem?_modify, differs, if_false, id_map'] at foundListed
    simpa [List.getElem?_set, differs] using closing.after position found (by omega) foundListed

/-- The part of an item, as the end of the text reads it. -/
theorem holds_part {kind : TextKind} {text : String} {item : Value}
    (holds : ItemHolds (.text kind) text item) :
    itemKind item = kind ∧
      (item.field kind.names.list).first.field kind.names.field = .string text ∧
      Conversion.partText (item.field kind.names.list).first = text := by
  obtain ⟨isObject, typed, part, listed, partObject, partTyped, held, only⟩ := holds
  have field : (item.field kind.names.list).first = part := by
    simp [Value.field, listed, Value.first]
  rw [field]
  refine ⟨?_, by simp [Value.field, held], ?_⟩
  · cases kind <;>
      simp_all [itemKind, Value.field, TextKind.names, ItemShape.type, TextKind.type]
  · cases kind with
    | refusal =>
      have noText := only rfl
      simp_all [Conversion.partText, TextKind.names, string]
    | _ => simp_all [Conversion.partText, TextKind.names, string]

/-- Closing an open text takes the client to the end of the item. -/
theorem TracksClosing.closeText {start : Client} {run : Emitting ChatToResponses}
    {closed : ℕ} (tracks : TracksClosing start run closed) {item : Value} {kind : TextKind}
    {text : String} (listed : run.self.output[closed]? = some item)
    (holds : ItemHolds (.text kind) text item) :
    TracksClosing start (closeText run closed item) closed := by
  obtain ⟨isKind, field, part⟩ := holds_part holds
  have final : finalText (.text kind) text = text := by
    by_cases empty : text = "" <;> simp [finalText, empty, ItemShape.fallback]
  simp only [ChatToResponses.closeText, isKind, field]
  refine TracksClosing.emit_textDone
    (TracksClosing.emit_textDone tracks le_rfl listed holds ?_ ?_) le_rfl listed holds ?_ ?_
  · simp [textDone]
  · rw [clientView_textDone, final]
  · simp [partDone]
  · rw [clientView_partDone, part, final]

/-- The item of a call once its arguments are complete. -/
theorem holds_closed {custom : Bool} {text : String} {item : Value}
    (holds : ItemHolds (.call custom) text item) :
    ItemHolds (.call custom) (finalText (.call custom) text)
      (if custom = false ∧ text = "" then item.set "arguments" "{}" else item) := by
  cases custom with
  | true =>
    by_cases empty : text = ""
    · subst empty
      simpa [finalText, ItemShape.fallback] using holds
    · simpa [finalText, empty] using holds
  | false =>
    by_cases empty : text = ""
    · subst empty
      have closed := holds_appendCall holds "{}"
      have read : string (item.get "arguments") = "" := by
        have held : item.get "arguments" = some (.string "") := holds.held
        rw [held]
        rfl
      simpa [finalText, ItemShape.fallback, argumentField, read] using closed
    · simpa [finalText, empty] using holds

/-- Closing an open call takes the client to the end of the item. -/
theorem TracksClosing.closeCall {start : Client} {run : Emitting ChatToResponses}
    {closed : ℕ} (tracks : TracksClosing start run closed) {item : Value} {custom : Bool}
    {text : String} (listed : run.self.output[closed]? = some item)
    (holds : ItemHolds (.call custom) text item) :
    TracksClosing start (closeCall run closed item).1 closed ∧
      (closeCall run closed item).1.self = { run.self with sequence := run.self.sequence + 1 } ∧
      ItemHolds (.call custom) (finalText (.call custom) text) (closeCall run closed item).2 := by
  have isCall : (!decide ((item.field "type").asStr = some "function_call")) = custom := by
    have typed := holds.typed
    cases custom <;> simp [Value.field, typed, ItemShape.type]
  have held : item.field (argumentField custom) = .string text := by
    have held := holds.held
    simp only at held
    simp [Value.field, held]
  have ended := holds_closed holds
  have complete : ChatToResponses.closeCall run closed item =
      (emit run (callDone custom
        ((if custom = false ∧ text = "" then item.set "arguments" "{}" else item).field "id") closed
        ((if custom = false ∧ text = "" then item.set "arguments" "{}" else item).field
          (argumentField custom))),
        if custom = false ∧ text = "" then item.set "arguments" "{}" else item) := by
    simp only [ChatToResponses.closeCall, isCall, held]
    cases custom <;> simp [argumentField, Value.asStr]
  have argument : (if custom = false ∧ text = "" then item.set "arguments" "{}" else item).field
      (argumentField custom) = .string (finalText (.call custom) text) := by
    have held := ended.held
    simp only at held
    simp [Value.field, held]
  rw [complete, argument]
  refine ⟨tracks.emit_textDone le_rfl listed holds ?_ (clientView_callDone _ _ _ _), rfl, ended⟩
  simp [callDone]

/-- A pass of the closing loop closes the next item. -/
theorem TracksClosing.closeItem {start : Client} {run : Emitting ChatToResponses} {closed : ℕ}
    (tracks : TracksClosing start run closed) (bound : closed < run.self.output.length) :
    TracksClosing start (closeItem run closed) (closed + 1) ∧
      (ChatToResponses.closeItem run closed).self.output.length = run.self.output.length := by
  refine ⟨?_, ?_⟩
  · obtain ⟨client, taken, closing⟩ := tracks
    have listed := List.getElem?_eq_getElem bound
    obtain ⟨known, -, -, shape, holds, -⟩ := closing.after closed _ le_rfl listed
    have tracks : TracksClosing start run closed := ⟨client, taken, closing⟩
    have item : run.self.output.getD closed .null = run.self.output[closed] := by
      rw [List.getD_eq_getElem?_getD, listed, Option.getD_some]
    have kind : string (run.self.output[closed].get "type") = shape.type := by
      rw [holds.typed]
      rfl
    have other : "status" ∉ ["type", "content", "summary", "arguments", "input"] := by decide
    simp only [ChatToResponses.closeItem, item, kind]
    cases shape with
    | text textKind =>
      have notCall : ¬ ((ItemShape.text textKind).type = "function_call" ∨
          (ItemShape.text textKind).type = "custom_tool_call") := by
        cases textKind <;> simp [ItemShape.type]
      have final : finalText (.text textKind) known.text = known.text := by
        by_cases empty : known.text = "" <;> simp [finalText, empty, ItemShape.fallback]
      rw [if_neg notCall]
      refine (tracks.closeText listed holds).emit_itemDone listed holds ?_
      rw [final]
      exact holds.set_other other _
    | call custom =>
      have isCall : (ItemShape.call custom).type = "function_call" ∨
          (ItemShape.call custom).type = "custom_tool_call" := by
        cases custom <;> simp [ItemShape.type]
      obtain ⟨ended, self, complete⟩ := tracks.closeCall listed holds
      rw [if_pos isCall]
      refine TracksClosing.emit_itemDone ended ?_ holds
        (complete.set_other other _)
      rw [self]
      exact listed
  · simp only [ChatToResponses.closeItem]
    split <;> simp [emit, setItem, ChatToResponses.closeCall, ChatToResponses.closeText]

/-- The closing loop closes every item. -/
theorem TracksClosing.closeAll {start : Client} {run : Emitting ChatToResponses}
    (tracks : TracksClosing start run 0) (count : ℕ) (bound : count ≤ run.self.output.length) :
    TracksClosing start ((List.range count).foldl ChatToResponses.closeItem run) count ∧
      ((List.range count).foldl ChatToResponses.closeItem run).self.output.length =
        run.self.output.length := by
  induction count with
  | zero => exact ⟨tracks, rfl⟩
  | succ count ih =>
    obtain ⟨closed, length⟩ := ih (by omega)
    rw [List.range_succ, List.foldl_append]
    obtain ⟨next, length'⟩ := closed.closeItem (by omega)
    exact ⟨next, length'.trans length⟩

/-- When every item is closed, the client has closed the items the converter holds. -/
theorem Closing.complete {held : ChatToResponses} {client : Client} {closed : ℕ}
    (closing : Closing held client closed) (all : closed = held.output.length) :
    client.items.map ClientItem.closed = held.output.map some := by
  subst all
  refine List.ext_getElem? fun position => ?_
  rw [List.getElem?_map, List.getElem?_map]
  cases listed : held.output[position]? with
  | none =>
    have outside := List.getElem?_eq_none_iff.mp listed
    rw [List.getElem?_eq_none (by rw [closing.counted]; exact outside)]
    rfl
  | some item =>
    have inside := (List.getElem?_eq_some_iff.mp listed).choose
    obtain ⟨known, knownListed, closed⟩ := closing.before position item inside listed
    rw [knownListed, Option.map_some, closed]
    rfl

/-- What the client makes of the state between calls: nothing more may come, or it knows the
state. -/
def Settled (held : ChatToResponses) (client : Client) : Prop :=
  held.done = true ∨ Follows held client

/-- A call took the client from one settled state to the next. -/
def Step (client : Client) (run : Emitting ChatToResponses) : Prop :=
  ∃ client', client.receiveAll (itemFallback "{}") run.out = some client' ∧ Settled run.self client'

/-- A converter the client knows, before a call has put anything out. -/
theorem Follows.tracks {held : ChatToResponses} {client : Client} (follows : Follows held client) :
    Tracks client { self := held } := ⟨client, rfl, follows⟩

/-- A call that keeps the relation settles. -/
theorem Tracks.step {client : Client} {run : Emitting ChatToResponses}
    (tracks : Tracks client run) : Step client run := by
  obtain ⟨client', taken, follows⟩ := tracks
  exact ⟨client', taken, Or.inr follows⟩

/-- The terminal event lists the items of the converter. -/
theorem clientView_terminal (self : ChatToResponses) (reason : String) :
    clientView (terminal self reason) = .finished self.output := by
  simp only [terminal]
  by_cases incomplete : reason = "length" ∨ reason = "content_filter" <;>
    simp [clientView, incomplete, string, Value.field]

/-- The end of the stream closes every item and then the response. -/
theorem finish_settles {held : ChatToResponses} {client : Client} (settled : Settled held client)
    {run : Emitting ChatToResponses} (passes : finish held = .ok run) : Step client run := by
  simp only [finish] at passes
  split at passes
  · rename_i done
    cases passes
    exact ⟨client, rfl, Or.inl done⟩
  · rename_i running
    have follows : Follows held client := settled.resolve_left running
    split at passes
    · cases passes
    · rename_i reason _
      cases passes
      have opening : TracksClosing client { self := held } 0 :=
        ⟨client, rfl, follows.numbered, follows.running, follows.counted,
          fun _ _ earlier => absurd earlier (Nat.not_lt_zero _),
          fun position item _ listed => follows.known position item listed⟩
      obtain ⟨⟨client', taken, closing⟩, length⟩ := opening.closeAll held.output.length le_rfl
      have complete := closing.complete length.symm
      have judged : ∀ self : ChatToResponses, self.output =
          ((List.range held.output.length).foldl ChatToResponses.closeItem
            { self := held }).self.output →
          client'.judge (itemFallback "{}") (clientView (terminal self reason)) =
            some { client' with ended := true } := by
        intro self same
        rw [clientView_terminal, Client.judge, same, if_pos complete]
      exact ⟨_, receiveAll_emit (by simp [terminal]) taken closing.numbered closing.running
        (judged _ rfl), Or.inl rfl⟩

/-- The events of an upstream error end the stream. -/
theorem Tracks.fail {client : Client} {run : Emitting ChatToResponses}
    (tracks : Tracks client run) (error : Value) : Step client (fail run error) := by
  have reported : Tracks client (emit run
      (.obj [("type", "error"), ("error", error), ("message", error.field "message")])) :=
    tracks.emit_other (by simp) (by simp [clientView, string])
  obtain ⟨client', taken, follows⟩ := reported
  have judged : ∀ response, client'.judge (itemFallback "{}") (clientView (.obj
      [("type", "response.failed"), ("response", response)])) =
        some { client' with ended := true } := by
    intro response
    simp [clientView, string, Client.judge]
  exact ⟨_, receiveAll_emit (by simp) taken follows.numbered follows.running (judged _),
    Or.inl rfl⟩

/-- A chunk settles. -/
theorem pushChunk_settles {serde : SerdeJson} {held : ChatToResponses} {client : Client}
    (follows : Follows held client) (reading : Reading) (payload : Value)
    {run : Emitting ChatToResponses} (passes : pushChunk serde held reading payload = .ok run) :
    Step client run := by
  have opened := follows.tracks.start reading payload
  simp only [pushChunk] at passes
  split at passes
  · cases passes
    exact opened.fail _
  · have noted : ∀ usage, Tracks client { start reading payload { self := held } with
        self := { (start reading payload { self := held }).self with usage } } :=
      fun _ => opened.congr rfl rfl rfl rfl
    split at passes
    · split at passes
      · exact ((noted _).pushChoices _ passes).step
      · exact (opened.pushChoices _ passes).step
    · split at passes
      · cases passes
        exact (noted _).step
      · cases passes
        exact opened.step

/-- The end marker settles. -/
theorem pushDone_settles {held : ChatToResponses} {client : Client} (settled : Settled held client)
    {run : Emitting ChatToResponses} (passes : pushDone held = .ok run) : Step client run := by
  simp only [pushDone] at passes
  split at passes
  · cases passes
  · have named : ∀ finishReason, Settled { held with finishReason } client := fun _ =>
      settled.imp (fun done => done) fun follows => follows.congr rfl rfl rfl rfl
    exact finish_settles (named _) passes

/-- Every call settles. -/
theorem push_settles {serde : SerdeJson} {held : ChatToResponses} {client : Client}
    (settled : Settled held client) (reading : Reading) (raw : List Char)
    {run : Emitting ChatToResponses} (passes : push serde held reading raw = .ok run) :
    Step client run := by
  simp only [push] at passes
  split at passes
  · rename_i done
    cases passes
    exact ⟨client, rfl, Or.inl done⟩
  · rename_i running
    have follows : Follows held client := settled.resolve_left running
    split at passes
    · cases passes
    · cases passes
      exact follows.tracks.step
    · split at passes
      · exact pushDone_settles settled passes
      · exact pushChunk_settles follows reading _ passes

/-- A new converter and a client that has seen nothing. -/
theorem follows_new : Follows {} {} where
  numbered := rfl
  running := rfl
  counted := rfl
  known := by simp
  slots := by intro kind position opened; cases kind <;> cases opened
  calls := by simp

end ChatToResponses
end Aipass.Conversion
