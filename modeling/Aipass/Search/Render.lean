import Aipass.Search.Tools

/-!
# A reply as a stream

A client that asked for a stream gets the reply of the last round as the events of its protocol. The
calls that the events show are those of the reply, or of its first choice, and every usage among
them is that of the reply.
-/
namespace Aipass.Search

open Conversion (ProxyProtocol AM CC RS)

/-! ## Events -/

/-- An event, before it gets its number. -/
def eventOf (kind : String) (fields : List (String × Value)) : Value :=
  .obj (("type", kind) :: fields)

/-- `event`, one after the other: those of a response are numbered. -/
def numbered : ℕ → List Value → List Value
  | _, [] => []
  | sequence, event :: rest =>
    if (event.field "type").asStr.any fun kind => startsWith kind "response." then
      event.set "sequence_number" (.nat sequence) :: numbered (sequence + 1) rest
    else event :: numbered sequence rest

/-- `sse`, a block of Anthropic messages. -/
def blockEvents (outside : Outside) (block : Value) (index : ℕ) : List Value :=
  let (start, deltas) : Value × List Value := match (block.field "type").asStr with
    | some "text" => (block.set "text" "", [eventOf "text_delta" [("text", block.field "text")]])
    | some "thinking" => ((block.set "thinking" "").set "signature" "",
        eventOf "thinking_delta" [("thinking", block.field "thinking")] ::
          (block.get "signature").toList.map fun signature =>
            eventOf "signature_delta" [("signature", signature)])
    | some "tool_use" => (block.set "input" (.obj []),
        [eventOf "input_json_delta" [("partial_json", outside.serde.print (block.field "input"))]])
    | _ => (block, [])
  eventOf "content_block_start" [("index", .nat index), ("content_block", start)] ::
    deltas.map (fun delta => eventOf "content_block_delta" [("index", .nat index), ("delta", delta)]) ++
    [eventOf "content_block_stop" [("index", .nat index)]]

/-- `sse`, for Anthropic messages. -/
def messagesEvents (outside : Outside) (body : Value) : List Value :=
  let start := ((body.set "content" (.array [])).set "stop_reason" .null).set "stop_sequence" .null
  eventOf "message_start" [("message", start)] ::
    ((((body.field "content").asArray.getD []).zipIdx).flatMap fun block =>
      blockEvents outside block.1 block.2) ++
    [eventOf "message_delta" [("delta", .obj [("stop_reason", body.field "stop_reason"),
        ("stop_sequence", body.field "stop_sequence")]), ("usage", body.field "usage")],
      eventOf "message_stop" []]

/-- A chunk of a Chat completion. -/
def chunkOf (body delta reason : Value) (usage : List (String × Value)) : Value :=
  .obj ([("id", body.field "id"), ("object", "chat.completion.chunk"), ("model", body.field "model"),
    ("created", body.field "created"), ("choices", .array [.obj [("index", .nat 0),
      ("delta", delta), ("finish_reason", reason)]])] ++ usage)

/-- The calls of a delta, numbered. There is nothing if the source panics. -/
def numberedCalls (delta : Value) : Option Value :=
  match delta.field "tool_calls" with
  | .array calls =>
    (calls.zipIdx.mapM fun (call : Value × ℕ) => call.1.write "index" (.nat call.2)).map Value.array
  | other => some other

/-- `sse`, for Chat completions. There is nothing if the source panics. -/
def chatEvents (body : Value) : Option (List Value) := do
  let delta := (choiceMessage body).remove "role"
  let calls ← numberedCalls delta
  let delta ← delta.write "tool_calls" calls
  some [chunkOf body (.obj [("role", "assistant")]) .null [], chunkOf body delta .null [],
    chunkOf body (.obj []) ((body.field "choices").first.field "finish_reason")
      [("usage", body.field "usage")]]

/-- `sse`, a part of an item of a response. -/
def partEvents (item part : Value) (index content : ℕ) : List Value :=
  let place := [("item_id", item.field "id"), ("output_index", .nat index),
    ("content_index", .nat content)]
  let isText : Bool := part.field "type" = "output_text"
  eventOf "response.content_part.added"
      (place ++ [("part", if isText then part.set "text" "" else part)]) ::
    (if isText then
      [eventOf "response.output_text.delta" (place ++ [("delta", part.field "text")]),
        eventOf "response.output_text.done" (place ++ [("text", part.field "text")])]
    else []) ++ [eventOf "response.content_part.done" (place ++ [("part", part)])]

/-- `sse`, an item of a response. There is nothing if the source panics. -/
def itemEvents (item : Value) (index : ℕ) : Option (List Value) := do
  let added ← item.write "status" "in_progress"
  let isFunction : Bool := item.field "type" = "function_call"
  let added := if item.field "type" = "message" then added.set "content" (.array [])
    else if isFunction then added.set "arguments" "" else added
  let place := [("item_id", item.field "id"), ("output_index", .nat index)]
  some (eventOf "response.output_item.added" [("output_index", .nat index), ("item", added)] ::
    ((((item.field "content").asArray.getD []).zipIdx).flatMap fun part =>
      partEvents item part.1 index part.2) ++
    (if isFunction then
      [eventOf "response.function_call_arguments.delta" (place ++ [("delta", item.field "arguments")]),
        eventOf "response.function_call_arguments.done"
          (place ++ [("arguments", item.field "arguments")])]
    else []) ++
    [eventOf "response.output_item.done" [("output_index", .nat index), ("item", item)]])

/-- `sse`, for responses. There is nothing if the source panics. -/
def responsesEvents (body : Value) : Option (List Value) := do
  let start := (body.set "status" "in_progress").set "output" (.array [])
  let items ← ((((body.field "output").asArray.getD []).zipIdx).mapM fun item =>
    itemEvents item.1 item.2)
  let kind := match (body.field "status").asStr with
    | some "incomplete" => "response.incomplete"
    | some "failed" => "response.failed"
    | _ => "response.completed"
  some (eventOf "response.created" [("response", start)] :: items.flatten ++
    [eventOf kind [("response", body)]])

/-- `sse`. There is nothing if the source panics. -/
def sse (outside : Outside) (protocol : ProxyProtocol) (body : Value) : Option (List Value) :=
  (match protocol with
    | AM => some (messagesEvents outside body)
    | CC => chatEvents body
    | RS => responsesEvents body).map (numbered 0)

/-! ## What the events show -/

/-- The calls that events show. -/
def shownCalls (protocol : ProxyProtocol) (events : List Value) : List Value :=
  match protocol with
  | AM => (events.flatMap fun event => (event.get "content_block").toList).filter (isCall AM)
  | CC => events.flatMap fun event => ((event.field "choices").asArray.getD []).flatMap fun choice =>
      ((choice.field "delta").field "tool_calls").asArray.getD []
  | RS => (events.flatMap fun event => (event.get "item").toList ++
      ((event.field "response").field "output").asArray.getD []).filter (isCall RS)

/-- The usages that events show. -/
def shownUsages (events : List Value) : List Value :=
  events.flatMap fun event => (event.get "usage").toList ++
    ((event.field "message").get "usage").toList ++ ((event.field "response").get "usage").toList

/-- Two items are the same call: they differ in no field that tells which call an item is. -/
def Alike (left right : Value) : Prop :=
  ∀ key ∈ ["type", "name", "id", "call_id", "function", "custom"], left.get key = right.get key

namespace Alike

variable {left middle right : Value}

/-- A call is itself. -/
theorem refl (item : Value) : Alike item item := fun _ _ => rfl

/-- Calls that are the same. -/
theorem trans (first : Alike left middle) (second : Alike middle right) : Alike left right :=
  fun key listed => (first key listed).trans (second key listed)

/-- Another field is written. -/
theorem set {item : Value} (isObject : item.IsObject) {key : String}
    (other : key ∉ ["type", "name", "id", "call_id", "function", "custom"]) (value : Value) :
    Alike (item.set key value) item := by
  intro sought listed
  rw [Value.get_set isObject, if_neg]
  rintro rfl
  exact other listed

/-- Another field is written, if that is possible. -/
theorem write {item next value : Value} {key : String} (wrote : item.write key value = some next)
    (other : key ∉ ["type", "name", "id", "call_id", "function", "custom"]) : Alike next item := by
  intro sought listed
  refine Value.get_write wrote ?_
  rintro rfl
  exact other listed

/-- A field that tells which call an item is. -/
theorem field (alike : Alike left right) (key : String)
    (listed : key ∈ ["type", "name", "id", "call_id", "function", "custom"]) :
    left.field key = right.field key := by
  rw [Value.field, alike key listed, Value.field]

/-- Items that are the same are calls or not. -/
theorem isCall (alike : Alike left right) (protocol : ProxyProtocol) :
    isCall protocol left = isCall protocol right := by
  cases protocol with
  | openAiChatCompletions => rfl
  | _ =>
    simp only [Search.isCall, reads, alike.field "type" (by decide), alike "type" (by decide),
      alike "name" (by decide), alike "call_id" (by decide)]

/-- Calls that are the same are of the same tool. -/
theorem callsFor (alike : Alike left right) (protocol : ProxyProtocol) (name : String) :
    callsFor protocol name left = callsFor protocol name right := by
  have typed := alike.field "type" (by decide)
  have named := alike.field "name" (by decide)
  have function := alike.field "function" (by decide)
  have custom := alike.field "custom" (by decide)
  have isCustom : reads left "type" "custom" = reads right "type" "custom" := by
    rw [reads, reads, typed]
  cases protocol with
  | openAiChatCompletions => simp only [Search.callsFor, isCustom, function, custom]
  | _ => exact congrArg (fun value : Value => decide (value.asStr = some name)) named

end Alike

/-- A field of an event. -/
@[simp] theorem get_eventOf (kind key : String) (fields : List (String × Value)) :
    (eventOf kind fields).get key =
      if "type" = key then some (.string kind) else (Value.obj fields).get key :=
  Value.get_obj_cons ..

/-- Numbers make no difference to what other fields show. -/
theorem flatMap_numbered {β : Type} (shows : Value → List β)
    (same : ∀ event : Value, event.IsObject → ∀ value,
      shows (event.set "sequence_number" value) = shows event) (sequence : ℕ) (events : List Value) :
    (numbered sequence events).flatMap shows = events.flatMap shows := by
  induction events generalizing sequence with
  | nil => rfl
  | cons event rest ih =>
    unfold numbered
    split
    · rename_i isNumbered
      have isObject : event.IsObject := by
        cases event with
        | object fields => trivial
        | _ => cases isNumbered
      rw [List.flatMap_cons, List.flatMap_cons, ih, same event isObject]
    · rw [List.flatMap_cons, List.flatMap_cons, ih]

/-- A block is shown as it starts. -/
theorem blockEvents_shows (outside : Outside) (block : Value) (index : ℕ) :
    ∃ start, Alike start block ∧ (blockEvents outside block index).flatMap
      (fun event => (event.get "content_block").toList) = [start] := by
  have isObject {kind : String} (typed : (block.field "type").asStr = some kind) :
      block.IsObject := by
    cases block with
    | object fields => trivial
    | _ => cases typed
  unfold blockEvents
  split
  rename_i start deltas made
  refine ⟨start, ?_, ?_⟩
  · split at made
    · rename_i typed
      cases made
      exact .set (isObject typed) (by decide) _
    · rename_i typed
      cases made
      exact .trans (.set (Value.isObject_set (isObject typed) _ _) (by decide) _)
        (.set (isObject typed) (by decide) _)
    · rename_i typed
      cases made
      exact .set (isObject typed) (by decide) _
    · cases made
      exact .refl _
  · simp [Value.get_obj_cons]

/-- What is shown of a reply: its calls, and no usage but its own. -/
structure Shows (protocol : ProxyProtocol) (body : Value) (calls usages : List Value) : Prop where
  sound : ∀ shown ∈ calls, ∃ item ∈ callItems protocol body, Alike shown item
  complete : ∀ item ∈ callItems protocol body, item ∈ itemsOf protocol body →
    ∃ shown ∈ calls, Alike shown item
  usage : ∀ usage ∈ usages, body.get "usage" = some usage
  billed : usages ≠ []

variable {outside : Outside} {protocol : ProxyProtocol} {body : Value} {events : List Value}

/-- The calls that items show, each by itself or changed where it does not matter. -/
theorem shows_of_items {items shown : List Value}
    (areCalls : callItems protocol body = items.filter (isCall protocol))
    (sound : ∀ call ∈ shown, ∃ item ∈ items, Alike call item)
    (complete : ∀ item ∈ items, ∃ call ∈ shown, Alike call item) {usages : List Value}
    (usage : ∀ usage ∈ usages, body.get "usage" = some usage) (billed : usages ≠ []) :
    Shows protocol body (shown.filter (isCall protocol)) usages where
  sound call listed := by
    obtain ⟨inside, counts⟩ := List.mem_filter.mp listed
    obtain ⟨item, isItem, alike⟩ := sound call inside
    refine ⟨item, ?_, alike⟩
    rw [areCalls]
    exact List.mem_filter.mpr ⟨isItem, alike.isCall protocol ▸ counts⟩
  complete item listed isItem := by
    rw [areCalls] at listed
    obtain ⟨inside, counts⟩ := List.mem_filter.mp listed
    obtain ⟨call, isShown, alike⟩ := complete item inside
    exact ⟨call, List.mem_filter.mpr ⟨isShown, (alike.isCall protocol).trans counts⟩, alike⟩
  usage := usage
  billed := billed

/-- The events of Anthropic messages show the calls of the reply. -/
theorem messagesEvents_shows (isObject : body.IsObject) (billed : (body.get "usage").isSome) :
    Shows AM body (shownCalls AM (messagesEvents outside body))
      (shownUsages (messagesEvents outside body)) := by
  obtain ⟨usage, isUsage⟩ := Option.isSome_iff_exists.mp billed
  have each (block : Value × ℕ) := blockEvents_shows outside block.1 block.2
  choose start alike shown using each
  have blocks : (messagesEvents outside body).flatMap
      (fun event => (event.get "content_block").toList) =
        (((body.field "content").asArray.getD []).zipIdx).map start := by
    unfold messagesEvents
    simp only [List.flatMap_cons, List.flatMap_append, List.flatMap_assoc, shown]
    simpa [Value.get_obj_cons] using List.map_eq_flatMap.symm
  have quiet (block : Value × ℕ) : shownUsages (blockEvents outside block.1 block.2) = [] := by
    unfold blockEvents
    split
    simp [shownUsages, Value.get_obj_cons, Value.field]
  have begins : (((body.set "content" (.array [])).set "stop_reason" .null).set "stop_sequence"
      .null).get "usage" = some usage := by
    have first := Value.isObject_set isObject "content" (.array [])
    have second := Value.isObject_set first "stop_reason" .null
    rw [Value.get_set second, if_neg (by decide), Value.get_set first, if_neg (by decide),
      Value.get_set isObject, if_neg (by decide), isUsage]
  have usages : shownUsages (messagesEvents outside body) = [usage, usage] := by
    unfold shownUsages at quiet ⊢
    unfold messagesEvents
    simp only [List.flatMap_cons, List.flatMap_append, List.flatMap_assoc, quiet]
    simp [Value.get_obj_cons, Value.field, begins, isUsage]
  rw [shownCalls, blocks, usages]
  refine shows_of_items rfl ?_ ?_ ?_ (List.cons_ne_nil _ _)
  · intro call listed
    obtain ⟨block, isBlock, rfl⟩ := List.mem_map.mp listed
    exact ⟨block.1, List.fst_mem_of_mem_zipIdx isBlock, alike block⟩
  · intro item listed
    obtain ⟨index, isIndex⟩ := List.mem_iff_getElem?.mp listed
    have isBlock := List.mk_mem_zipIdx_iff_getElem?.mpr isIndex
    exact ⟨_, List.mem_map_of_mem isBlock, alike (item, index)⟩
  · intro other listed
    have same : other = usage := by simpa using listed
    rw [same, isUsage]

/-- The calls of the first choice are among those of the reply. -/
theorem mem_callItems {item : Value} (listed : item ∈ itemsOf CC body) :
    item ∈ callItems CC body := by
  unfold itemsOf choiceMessage Value.first at listed
  unfold callItems
  cases choices : (body.field "choices").asArray.getD [] with
  | nil =>
    rw [choices] at listed
    exact absurd listed List.not_mem_nil
  | cons choice rest =>
    rw [choices] at listed
    exact List.mem_flatMap.mpr ⟨choice, List.mem_cons_self, listed⟩

/-- The events of a Chat completion show the calls of the first choice. -/
theorem chatEvents_shows (billed : (body.get "usage").isSome)
    (rendered : chatEvents body = some events) :
    Shows CC body (shownCalls CC events) (shownUsages events) := by
  obtain ⟨usage, isUsage⟩ := Option.isSome_iff_exists.mp billed
  obtain ⟨calls, isCalls, rendered⟩ := Option.bind_eq_some_iff.mp rendered
  obtain ⟨delta, isDelta, same⟩ := Option.bind_eq_some_iff.mp rendered
  cases same
  have written : delta.field "tool_calls" = calls := by
    rw [Value.field, Value.get_write_self isDelta]
    rfl
  have shown : shownCalls CC [chunkOf body (.obj [("role", "assistant")]) .null [],
      chunkOf body delta .null [], chunkOf body (.obj [])
        ((body.field "choices").first.field "finish_reason") [("usage", body.field "usage")]] =
      calls.asArray.getD [] := by
    have calls_ : ((delta.get "tool_calls").getD .null) = calls := written
    simp [shownCalls, chunkOf, Value.get_obj_cons, Value.field, calls_]
  have usages : shownUsages [chunkOf body (.obj [("role", "assistant")]) .null [],
      chunkOf body delta .null [], chunkOf body (.obj [])
        ((body.field "choices").first.field "finish_reason") [("usage", body.field "usage")]] =
      [usage] := by
    simp [shownUsages, chunkOf, Value.get_obj_cons, Value.field, isUsage]
  have kept : ((choiceMessage body).remove "role").field "tool_calls" =
      (choiceMessage body).field "tool_calls" := by
    rw [Value.field, Value.get_remove _ (by decide), Value.field]
  -- The calls are those of the first choice, each with its number.
  have pairs : List.Forall₂ (fun (item : Value × ℕ) call => Alike call item.1)
      (itemsOf CC body).zipIdx (calls.asArray.getD []) := by
    unfold numberedCalls at isCalls
    rw [kept] at isCalls
    unfold itemsOf
    cases held : (choiceMessage body).field "tool_calls" with
    | array items =>
      rw [held] at isCalls
      obtain ⟨numbers, isNumbers, same⟩ := Option.map_eq_some_iff.mp isCalls
      cases same
      exact (forall₂_mapM_some isNumbers).imp fun _ _ wrote => .write wrote (by decide)
    | _ =>
      rw [held] at isCalls
      cases isCalls
      exact .nil
  rw [shown, usages]
  refine ⟨fun call listed => ?_, fun item _ isItem => ?_, fun other listed => ?_,
    List.cons_ne_nil _ _⟩
  · obtain ⟨item, isItem, alike⟩ := exists_of_forall₂_right pairs listed
    exact ⟨item.1, mem_callItems (List.fst_mem_of_mem_zipIdx isItem), alike⟩
  · obtain ⟨index, isIndex⟩ := List.mem_iff_getElem?.mp isItem
    exact exists_of_forall₂_left pairs (List.mk_mem_zipIdx_iff_getElem?.mpr isIndex)
  · have same : other = usage := by simpa using listed
    rw [same, isUsage]

/-- An item is shown as it starts and as it is done. -/
theorem itemEvents_shows {item : Value} {index : ℕ} {shown : List Value}
    (rendered : itemEvents item index = some shown) :
    shownUsages shown = [] ∧ ∃ start, Alike start item ∧ shown.flatMap (fun event =>
      (event.get "item").toList ++ ((event.field "response").field "output").asArray.getD []) =
        [start, item] := by
  obtain ⟨added, isAdded, same⟩ := Option.bind_eq_some_iff.mp rendered
  cases same
  have isObject := Value.isObject_of_get (Value.get_write_self isAdded)
  have alike : Alike added item := .write isAdded (by decide)
  have quiet (part : Value × ℕ) : shownUsages (partEvents item part.1 index part.2) = [] ∧
      (partEvents item part.1 index part.2).flatMap (fun event => (event.get "item").toList ++
        ((event.field "response").field "output").asArray.getD []) = [] := by
    unfold partEvents
    simp only
    split <;> simp [shownUsages, Value.get_obj_cons, Value.field]
  generalize isStart : (if item.field "type" = "message" then added.set "content" (.array [])
    else if decide (item.field "type" = "function_call") then added.set "arguments" "" else added) =
      start
  have alikeStart : Alike start item := by
    rw [← isStart]
    split
    · exact .trans (.set isObject (by decide) _) alike
    · split
      · exact .trans (.set isObject (by decide) _) alike
      · exact alike
  unfold shownUsages at quiet ⊢
  simp only [List.flatMap_cons, List.flatMap_append, List.flatMap_assoc, quiet]
  refine ⟨?_, start, alikeStart, ?_⟩
  · split <;> simp [Value.get_obj_cons, Value.field]
  · split <;> simp [Value.get_obj_cons, Value.field]

/-- The events of a response show its calls, as they start, as they are done and at the end. -/
theorem responsesEvents_shows (isObject : body.IsObject) (billed : (body.get "usage").isSome)
    (rendered : responsesEvents body = some events) :
    Shows RS body (shownCalls RS events) (shownUsages events) := by
  obtain ⟨usage, isUsage⟩ := Option.isSome_iff_exists.mp billed
  obtain ⟨items, isItems, same⟩ := Option.bind_eq_some_iff.mp rendered
  cases same
  have each := (forall₂_mapM_some isItems).imp fun item shown wrote => itemEvents_shows wrote
  generalize isKind : (match (body.field "status").asStr with
    | some "incomplete" => "response.incomplete"
    | some "failed" => "response.failed"
    | _ => "response.completed") = kind
  have first := Value.isObject_set isObject "status" "in_progress"
  have startUsage : ((body.set "status" "in_progress").set "output" (.array [])).get "usage" =
      some usage := by
    rw [Value.get_set first, if_neg (by decide), Value.get_set isObject, if_neg (by decide), isUsage]
  have startOutput : ((body.set "status" "in_progress").set "output" (.array [])).get "output" =
      some (.array []) := by
    rw [Value.get_set first, if_pos rfl]
  refine shows_of_items rfl ?_ ?_ ?_ ?_
  · intro call listed
    obtain ⟨event, inside, shown⟩ := List.mem_flatMap.mp listed
    obtain early | rfl := List.mem_append.mp inside |>.imp_right List.mem_singleton.mp
    · obtain rfl | inside := List.mem_cons.mp early
      · simp [Value.get_obj_cons, Value.field, startOutput] at shown
      · obtain ⟨shownItem, isShown, inside⟩ := List.mem_flatten.mp inside
        obtain ⟨item, isItem, -, start, alike, both⟩ := exists_of_forall₂_right each isShown
        have listed : call ∈ shownItem.flatMap fun event => (event.get "item").toList ++
            ((event.field "response").field "output").asArray.getD [] :=
          List.mem_flatMap.mpr ⟨event, inside, shown⟩
        rw [both] at listed
        have isItem := List.fst_mem_of_mem_zipIdx isItem
        obtain rfl | rfl : call = start ∨ call = item.1 := by simpa using listed
        · exact ⟨item.1, isItem, alike⟩
        · exact ⟨item.1, isItem, .refl _⟩
    · refine ⟨call, ?_, .refl _⟩
      simpa [Value.get_obj_cons, Value.field, itemsOf] using shown
  · intro item listed
    refine ⟨item, List.mem_flatMap.mpr ⟨_, List.mem_append_right _ (List.mem_singleton_self _), ?_⟩,
      .refl _⟩
    simpa [Value.get_obj_cons, Value.field, itemsOf] using listed
  · intro other listed
    obtain ⟨event, inside, shown⟩ := List.mem_flatMap.mp listed
    have same : other = usage := by
      obtain early | rfl := List.mem_append.mp inside |>.imp_right List.mem_singleton.mp
      · obtain rfl | inside := List.mem_cons.mp early
        · simpa [Value.get_obj_cons, Value.field, startUsage] using shown
        · obtain ⟨shownItem, isShown, inside⟩ := List.mem_flatten.mp inside
          obtain ⟨item, -, quiet, -⟩ := exists_of_forall₂_right each isShown
          have listed : other ∈ shownUsages shownItem := List.mem_flatMap.mpr ⟨event, inside, shown⟩
          rw [quiet] at listed
          exact absurd listed List.not_mem_nil
      · simpa [Value.get_obj_cons, Value.field, isUsage] using shown
    rw [same, isUsage]
  · have begins : usage ∈ shownUsages (eventOf "response.created" [("response", (body.set "status"
        "in_progress").set "output" (.array []))] :: items.flatten ++
          [eventOf kind [("response", body)]]) := by
      refine List.mem_flatMap.mpr ⟨_, List.mem_append_left _ List.mem_cons_self, ?_⟩
      simp [Value.get_obj_cons, Value.field, startUsage]
    exact List.ne_nil_of_mem begins

/-- A reply as a stream shows the calls of the reply, and no usage but its own. -/
theorem sse_shows (isObject : body.IsObject) (billed : (body.get "usage").isSome)
    (rendered : sse outside protocol body = some events) :
    Shows protocol body (shownCalls protocol events) (shownUsages events) := by
  obtain ⟨raw, isRaw, rfl⟩ := Option.map_eq_some_iff.mp rendered
  have usages : shownUsages (numbered 0 raw) = shownUsages raw := by
    refine flatMap_numbered _ (fun event isObject value => ?_) 0 raw
    simp [Value.field, Value.get_set isObject]
  have calls : shownCalls protocol (numbered 0 raw) = shownCalls protocol raw := by
    cases protocol with
    | anthropicMessages =>
      refine congrArg (List.filter _) (flatMap_numbered _ (fun event isObject value => ?_) 0 raw)
      simp [Value.get_set isObject]
    | openAiChatCompletions =>
      refine flatMap_numbered _ (fun event isObject value => ?_) 0 raw
      simp [Value.field, Value.get_set isObject]
    | openAiResponses =>
      refine congrArg (List.filter _) (flatMap_numbered _ (fun event isObject value => ?_) 0 raw)
      simp [Value.field, Value.get_set isObject]
  rw [usages, calls]
  cases protocol with
  | anthropicMessages =>
    cases isRaw
    exact messagesEvents_shows isObject billed
  | openAiChatCompletions => exact chatEvents_shows billed isRaw
  | openAiResponses => exact responsesEvents_shows isObject billed isRaw

end Aipass.Search
