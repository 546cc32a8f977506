import Aipass.Base.Result
import Aipass.Conversion.MessagesToResponses
import Aipass.Conversion.ReadBack
import Aipass.Conversion.ResponsesClient

/-!
# The client follows a stream converted from Anthropic Messages

Before its events are numbered, a call is watched by a client that does not look at numbers. At
most one item is open, and it is the last one announced; all the others are closed as the
converter lists them. Reading the events back to number them changes fractions at most, and a
client does not depend on fractions.
-/
namespace Aipass.Conversion

/-- What an event says with every fraction changed. -/
def ClientView.mapFloats (change : String → String) : ClientView → ClientView
  | .added index item => .added index (item.mapFloats change)
  | .itemDone index item => .itemDone index (item.mapFloats change)
  | .finished output => .finished (output.map (Value.mapFloats change))
  | view => view

/-- What the client knows of an item with every fraction changed. -/
def ClientItem.mapFloats (change : String → String) (item : ClientItem) : ClientItem :=
  { item with closed := item.closed.map (Value.mapFloats change) }

namespace Client

/-- A client with every fraction it has seen changed. -/
def mapFloats (change : String → String) (client : Client) : Client :=
  { client with items := client.items.map (ClientItem.mapFloats change) }

/-- The client takes a frame without looking at its number. -/
def watch (initialInput : String) (client : Client) : Frame → Option Client
  | .typed kind event =>
    if client.ended ∨ string (event.get "type") ≠ kind then none
    else client.judge (itemFallback initialInput) (clientView event)
  | _ => none

/-- The client takes the frames of a call without looking at their numbers. -/
def watchAll (initialInput : String) (client : Client) (frames : List Frame) : Option Client :=
  frames.foldlM (watch initialInput) client

variable (change : String → String)

/-- Fractions do not matter to the text of a part. -/
theorem partText_mapFloats (part : Value) : partText (part.mapFloats change) = partText part := by
  cases text : part.get "text" with
  | none => cases refusal : part.get "refusal" <;> simp [partText, string, text, refusal]
  | some value => simp [partText, string, text]

/-- Fractions do not matter to the first item of an array. -/
theorem first_mapFloats (value : Value) :
    (value.mapFloats change).first = value.first.mapFloats change := by
  cases items : value.asArray with
  | none => simp [Value.first, items, Value.mapFloats]
  | some list => cases list <;> simp [Value.first, items, Value.mapFloats]

/-- Fractions do not matter to a string. -/
theorem string_mapFloats (value : Option Value) :
    string (value.map (Value.mapFloats change)) = string value := by
  cases value <;> simp [string]

/-- Fractions do not matter to the text of an item. -/
theorem itemText_mapFloats (item : Value) : itemText (item.mapFloats change) = itemText item := by
  simp only [itemText, Value.get_mapFloats, Value.field_mapFloats, string_mapFloats,
    first_mapFloats, partText_mapFloats]

/-- Fractions do not matter to a counter. -/
theorem number_mapFloats (value : Option Value) :
    number (value.map (Value.mapFloats change)) = number value := by
  cases value <;> simp [number]

/-- Fractions do not matter to what an event says. -/
theorem clientView_mapFloats (event : Value) :
    clientView (event.mapFloats change) = (clientView event).mapFloats change := by
  simp only [clientView, outputIndex, Value.get_mapFloats, Value.field_mapFloats, string_mapFloats,
    number_mapFloats, partText_mapFloats]
  split
  case h_15 | h_16 =>
    cases (event.field "response").get "output" with
    | none => rfl
    | some output => cases items : output.asArray <;> simp [ClientView.mapFloats, items]
  case h_18 =>
    rw [Option.isSome_map]
    split <;> rfl
  all_goals rfl

/-- Fractions do not matter to a change of an open item that does not look at them. -/
theorem onOpen_mapFloats (client : Client) (index : ℕ)
    {update update' : ClientItem → Option ClientItem}
    (commutes : ∀ item : ClientItem, item.closed = none →
      update' (item.mapFloats change) = (update item).map (ClientItem.mapFloats change)) :
    (client.mapFloats change).onOpen index update' =
      (client.onOpen index update).map (mapFloats change) := by
  cases listed : client.items[index]? with
  | none => simp [onOpen, mapFloats, listed]
  | some item =>
    cases closed : item.closed with
    | some held => simp [onOpen, mapFloats, listed, ClientItem.mapFloats, closed]
    | none =>
      have still : (item.mapFloats change).closed = none := by simp [ClientItem.mapFloats, closed]
      have passes := commutes item closed
      cases updated : update item with
      | none => simp_all [onOpen, mapFloats]
      | some item' => simp_all [onOpen, mapFloats, List.map_set]

/-- Fractions do not matter to the text an item must be closed with. -/
@[simp] theorem final_mapFloats (item : ClientItem) :
    (item.mapFloats change).final = item.final := rfl

/-- What passes a client passes it with every fraction changed. -/
theorem judge_mapFloats {initialInput : String} {client next : Client} {view : ClientView}
    (judged : client.judge (itemFallback initialInput) view = some next) :
    (client.mapFloats change).judge (itemFallback initialInput) (view.mapFloats change) =
      some (next.mapFloats change) := by
  have opened : ∀ (index : ℕ) {update update' : ClientItem → Option ClientItem},
      client.onOpen index update = some next →
      (∀ item : ClientItem, item.closed = none →
        update' (item.mapFloats change) = (update item).map (ClientItem.mapFloats change)) →
      (client.mapFloats change).onOpen index update' = some (next.mapFloats change) := by
    intro index update update' passes commutes
    rw [onOpen_mapFloats change client index commutes, passes]
    rfl
  cases view with
  | added index item =>
    simp only [judge] at judged
    split at judged
    · cases judged
      simp_all [judge, ClientView.mapFloats, mapFloats, itemFallback, ClientItem.mapFloats]
    · cases judged
  | delta index text => exact opened index judged fun item _ => rfl
  | textDone index text =>
    refine opened index judged fun item _ => ?_
    by_cases same : text = item.final <;> simp [same]
  | itemDone index closed =>
    refine opened index judged fun item _ => ?_
    rw [itemText_mapFloats, final_mapFloats]
    by_cases same : itemText closed = item.final
    · simp [same, ClientItem.mapFloats]
    · simp [same]
  | finished output =>
    simp only [judge] at judged
    split at judged
    · rename_i listed
      cases judged
      have mapped : (client.items.map (ClientItem.mapFloats change)).map ClientItem.closed =
          (output.map (Value.mapFloats change)).map some := by
        calc
          (client.items.map (ClientItem.mapFloats change)).map ClientItem.closed
            = (client.items.map ClientItem.closed).map (Option.map (Value.mapFloats change)) := by
              simp [ClientItem.mapFloats, Function.comp_def]
          _ = (output.map (Value.mapFloats change)).map some := by
              simp [listed, Function.comp_def]
      simp only [judge, ClientView.mapFloats, mapFloats, mapped, if_true]
    · cases judged
  | failed =>
    cases judged
    rfl
  | about index => exact opened index judged fun item _ => rfl
  | other =>
    cases judged
    rfl

/-- The client takes one more frame without looking at its number. -/
theorem watchAll_append {initialInput : String} {client middle : Client} {frames : List Frame}
    (taken : client.watchAll initialInput frames = some middle) (frame : Frame) :
    client.watchAll initialInput (frames ++ [frame]) = middle.watch initialInput frame := by
  simp [watchAll, List.foldlM_append, show List.foldlM _ client frames = some middle from taken]

/-- A judgement leaves the count of events and does not depend on it. -/
theorem judge_sequence {initialInput : String} {client next : Client} {view : ClientView}
    (judged : client.judge (itemFallback initialInput) view = some next) (sequence : ℕ) :
    { client with sequence }.judge (itemFallback initialInput) view = some { next with sequence } := by
  have opened : ∀ (index : ℕ) {update : ClientItem → Option ClientItem},
      client.onOpen index update = some next →
      { client with sequence }.onOpen index update = some { next with sequence } := by
    intro index update passes
    simp only [onOpen] at passes ⊢
    split at passes
    · cases passes
    · split at passes
      · cases passes
      · rename_i item _ isOpen
        rw [if_neg isOpen]
        obtain ⟨changed, updated, rfl⟩ := Option.map_eq_some_iff.mp passes
        rw [updated]
        rfl
  cases view with
  | added index item =>
    simp only [judge] at judged ⊢
    split at judged
    · cases judged
      rename_i next
      rw [if_pos next]
    · cases judged
  | finished output =>
    simp only [judge] at judged ⊢
    split at judged
    · cases judged
      rename_i listed
      rw [if_pos listed]
    · cases judged
  | delta index text => exact opened index judged
  | textDone index text => exact opened index judged
  | itemDone index closed => exact opened index judged
  | about index => exact opened index judged
  | failed =>
    cases judged
    rfl
  | other =>
    cases judged
    rfl

/-- A change of the last item, when that is open. -/
theorem onOpen_last {client : Client} {closed : List ClientItem} {known changed : ClientItem}
    {change : ClientItem → Option ClientItem} (items : client.items = closed ++ [known])
    (isOpen : known.closed = none) (passes : change known = some changed) :
    client.onOpen closed.length change =
      some { client with items := closed ++ [changed] } := by
  rw [onOpen_eq_some (by rw [items]; simp) isOpen passes, items]
  simp

/-- More text for the last item. -/
theorem judge_delta_last {client : Client} {closed : List ClientItem} {known : ClientItem}
    (items : client.items = closed ++ [known]) (isOpen : known.closed = none) (text : String)
    (initialInput : String) :
    client.judge (itemFallback initialInput) (.delta closed.length text) =
      some { client with items := closed ++ [{ known with text := known.text ++ text }] } :=
  onOpen_last items isOpen rfl

/-- An event about the last item. -/
theorem judge_about_last {client : Client} {closed : List ClientItem} {known : ClientItem}
    (items : client.items = closed ++ [known]) (isOpen : known.closed = none)
    (initialInput : String) :
    client.judge (itemFallback initialInput) (.about closed.length) = some client :=
  judge_about (by rw [items]; simp) isOpen (itemFallback initialInput)

/-- The end of the text of the last item. -/
theorem judge_textDone_last {client : Client} {closed : List ClientItem} {known : ClientItem}
    (items : client.items = closed ++ [known]) (isOpen : known.closed = none) {text : String}
    (final : text = known.final) (initialInput : String) :
    client.judge (itemFallback initialInput) (.textDone closed.length text) = some client := by
  have passes : (if text = known.final then some known else none) = some known := if_pos final
  rw [judge, onOpen_last items isOpen passes, ← items]

/-- The end of the last item. -/
theorem judge_itemDone_last {client : Client} {closed : List ClientItem} {known : ClientItem}
    (items : client.items = closed ++ [known]) (isOpen : known.closed = none) {item : Value}
    (final : itemText item = known.final) (initialInput : String) :
    client.judge (itemFallback initialInput) (.itemDone closed.length item) =
      some { client with items := closed ++ [{ known with closed := some item }] } := by
  have passes : (if itemText item = known.final then
      some { known with closed := some item } else none) =
      some { known with closed := some item } := if_pos final
  rw [judge, onOpen_last items isOpen passes]

end Client

/-- A frame that can be read back: it is typed, by a clean name, and carries an object. -/
def Legible (frame : Frame) : Prop :=
  ∃ kind event, frame = .typed kind event ∧ CleanName kind.toList ∧ event.IsObject

namespace AmToRs

/-- What a client watched it takes once the frames are numbered, with the fractions changed that
reading back changed. -/
theorem receiveAll_renumber {serde : SerdeJson} {reread : String → String}
    (lawful : serde.Lawful)
    (readsBack : serde.ReadsBack reread)
    {initialInput : String} (frames : List Frame) {numbered : List Frame} {client next : Client}
    {sequence : ℕ} (legible : ∀ frame ∈ frames, Legible frame)
    (watched : client.watchAll initialInput frames = some next)
    (passes : renumber serde sequence frames = .ok numbered) :
    { client.mapFloats reread with sequence }.receiveAll (itemFallback initialInput) numbered =
      some { next.mapFloats reread with sequence := sequence + frames.length } := by
  induction frames generalizing client numbered sequence with
  | nil =>
    cases passes
    cases watched
    rfl
  | cons frame rest ih =>
    obtain ⟨kind, event, rfl, clean, isObject⟩ := legible frame List.mem_cons_self
    simp only [Client.watchAll, List.foldlM_cons, Option.bind_eq_bind, Option.bind_eq_some_iff,
      Client.watch] at watched
    obtain ⟨middle, judged, watched⟩ := watched
    split at judged
    · cases judged
    · rename_i accepted
      push Not at accepted
      simp only [renumber, bind_eq_ok, parseSse_typed lawful clean isObject, mapError_eq_ok,
        Except.ok.injEq] at passes
      obtain ⟨parsed, rfl, read, parsedBack, tail, renumbered, rfl⟩ := passes
      have readEq := readsBack event read parsedBack
      subst readEq
      have step := Client.judge_mapFloats reread judged
      have typed : string ((event.mapFloats reread).get "type") = kind := by
        rw [Value.get_mapFloats, Client.string_mapFloats, accepted.2]
      have running : (client.mapFloats reread).ended = false := by
        simpa [Client.mapFloats] using accepted.1
      have accepts := Client.receive_numbered (itemFallback initialInput)
        { client.mapFloats reread with sequence } (Value.isObject_mapFloats reread isObject) running
      rw [typed, Client.clientView_mapFloats, Client.judge_sequence step sequence] at accepts
      have later := ih (fun frame listed => legible frame (List.mem_cons_of_mem _ listed))
        watched renumbered
      rw [Client.receiveAll, List.foldlM_cons]
      show Option.bind (Client.receive (itemFallback initialInput) _ (.typed (String.ofList kind.toList) _)) _ = _
      rw [String.ofList_toList, accepts]
      simpa [Client.receiveAll, Nat.add_assoc, Nat.add_comm 1] using later

/-- The frames put out so far can be read back, and a client that watched them knows what it
knows. -/
structure Watched (initialInput : String) (start : Client) (run : Emitting AmToRs)
    (client : Client) : Prop where
  /-- Every frame can be read back. -/
  legible : ∀ frame ∈ run.out, Legible frame
  /-- The client did not object. -/
  taken : start.watchAll initialInput run.out = some client

/-- No item is open. -/
structure HoldsNothing (held : AmToRs) : Prop where
  reasoning : held.reasoningItem = none
  text : held.textItem = none
  tool : held.toolItem = none

/-- The announcement of an open call, with the arguments it is closed with when no delta comes. -/
structure CallHolds (fallback : String) (item : Value) : Prop where
  /-- Fields can be written. -/
  isObject : item.IsObject
  /-- It is a function call. -/
  typed : item.get "type" = some (.string "function_call")
  /-- It carries the arguments. -/
  held : item.get "arguments" = some (.string fallback)

/-- The items the client knows beyond the closed ones: the open one, if any. -/
inductive Holding (held : AmToRs) (closed : List ClientItem) : List ClientItem → Prop
  /-- No item is open. -/
  | idle (nothing : HoldsNothing held) (next : held.nextOutput = closed.length) :
      Holding held closed closed
  /-- A reasoning is open. -/
  | reasoning {id : Value} {text : String}
      (opened : held.reasoningItem = some ⟨closed.length, id, text⟩)
      (noText : held.textItem = none) (noTool : held.toolItem = none)
      (next : held.nextOutput = closed.length + 1) :
      Holding held closed (closed ++ [⟨"", text, none⟩])
  /-- A text is open. -/
  | text {id : Value} {text : String} (opened : held.textItem = some ⟨closed.length, id, text⟩)
      (noReasoning : held.reasoningItem = none) (noTool : held.toolItem = none)
      (next : held.nextOutput = closed.length + 1) :
      Holding held closed (closed ++ [⟨"", text, none⟩])
  /-- A call is open. -/
  | call {item : Value} {fallback text : String}
      (opened : held.toolItem = some ⟨closed.length, item, text⟩)
      (holds : CallHolds fallback item)
      (noReasoning : held.reasoningItem = none) (noText : held.textItem = none)
      (next : held.nextOutput = closed.length + 1) :
      Holding held closed (closed ++ [⟨fallback, text, none⟩])

/-- The client knows the state of a running converter. -/
structure Follows (held : AmToRs) (client : Client) : Prop where
  /-- No terminal event was seen. -/
  running : client.ended = false
  /-- The closed items are listed by both, and the client knows the open one. -/
  state : ∃ closed, closed.map ClientItem.closed = held.output.map some ∧
    Holding held closed client.items

/-- The client knows the state of a running converter that has no open item. -/
structure Idle (held : AmToRs) (client : Client) : Prop where
  /-- No terminal event was seen. -/
  running : client.ended = false
  /-- No item is open. -/
  nothing : HoldsNothing held
  /-- The next index follows those announced. -/
  next : held.nextOutput = client.items.length
  /-- The closed items are listed by both. -/
  listed : client.items.map ClientItem.closed = held.output.map some

/-- A converter without an open item is known when it is known as such. -/
theorem Idle.follows {held : AmToRs} {client : Client} (idle : Idle held client) :
    Follows held client :=
  ⟨idle.running, client.items, idle.listed, .idle idle.nothing idle.next⟩

/-- The client takes an event that passes its judgement. -/
theorem Watched.put {initialInput : String} {start client next : Client} {run : Emitting AmToRs}
    (watched : Watched initialInput start run client) {kind : String}
    {fields : List (String × Value)} (solid : solidName kind = true)
    (running : client.ended = false)
    (judged : client.judge (itemFallback initialInput) (clientView (.obj (("type", kind) :: fields))) =
      some next) :
    Watched initialInput start (put run kind fields) next where
  legible := by
    intro frame listed
    rcases List.mem_append.mp listed with old | new
    · exact watched.legible frame old
    · rw [List.mem_singleton] at new
      exact ⟨kind, _, new, cleanName_of_solid solid, Value.isObject_obj _⟩
  taken := by
    show start.watchAll initialInput (run.out ++ _) = _
    rw [Client.watchAll_append watched.taken, Client.watch, if_neg, judged]
    simp [running, string]

/-- The client takes an event that changes nothing for it. -/
theorem Watched.look {initialInput : String} {start client : Client} {run : Emitting AmToRs}
    (watched : Watched initialInput start run client) {kind : String}
    {fields : List (String × Value)} (solid : solidName kind = true)
    (running : client.ended = false)
    (judged : client.judge (itemFallback initialInput) (clientView (.obj (("type", kind) :: fields))) =
      some client) :
    Watched initialInput start (AmToRs.put run kind fields) client :=
  watched.put solid running judged

/-- A change of the converter that puts nothing out. -/
theorem Watched.same {initialInput : String} {start client : Client} {run : Emitting AmToRs}
    (watched : Watched initialInput start run client) (self : AmToRs) :
    Watched initialInput start { run with self } client :=
  ⟨watched.legible, watched.taken⟩

/-- A client that closes the last item lists it with the converter. -/
theorem listed_last {closed : List ClientItem} {output : List Value}
    (listed : closed.map ClientItem.closed = output.map some) (known : ClientItem) (item : Value) :
    (closed ++ [{ known with closed := some item }]).map ClientItem.closed =
      (output ++ [item]).map some := by
  simp [listed]

/-- Closing an open reasoning leaves no item open. -/
theorem closeReasoning_idle {initialInput : String} {start client : Client}
    {run : Emitting AmToRs} (watched : Watched initialInput start run client)
    (running : client.ended = false) {closed : List ClientItem}
    (listed : closed.map ClientItem.closed = run.self.output.map some) {id : Value} {text : String}
    (items : client.items = closed ++ [⟨"", text, none⟩])
    (opened : run.self.reasoningItem = some ⟨closed.length, id, text⟩)
    (noText : run.self.textItem = none) (noTool : run.self.toolItem = none)
    (next : run.self.nextOutput = closed.length + 1) :
    ∃ client', Watched initialInput start (closeReasoning run) client' ∧
      Idle (closeReasoning run).self client' := by
  have final : text = (ClientItem.mk "" text none).final := by
    by_cases empty : text = "" <;> simp [ClientItem.final, empty]
  simp only [closeReasoning, opened]
  let item := Value.obj [("type", "reasoning"), ("id", id),
    ("summary", .array [.obj [("type", "summary_text"), ("text", text)]])]
  refine ⟨{ client with items := closed ++ [⟨"", text, some item⟩] }, Watched.same (Watched.put
    (Watched.look (Watched.look watched rfl running ?_) rfl running ?_) rfl running ?_) _, ?_⟩
  · simpa [clientView, string, outputIndex, number] using
      Client.judge_textDone_last items rfl final initialInput
  · simpa [clientView, string, outputIndex, number, Value.field, partText] using
      Client.judge_textDone_last items rfl final initialInput
  · have read : itemText item = text := by
      simp [item, itemText, string, Value.field, Value.first, partText]
    simpa [clientView, string, outputIndex, number, Value.field] using
      Client.judge_itemDone_last items rfl (read.trans final) initialInput
  · exact ⟨running, ⟨rfl, noText, noTool⟩, by simp [put, next], listed_last listed ⟨"", text, none⟩ item⟩

/-- Closing an open text leaves no item open. -/
theorem closeText_idle {initialInput : String} {start client : Client}
    {run : Emitting AmToRs} (watched : Watched initialInput start run client)
    (running : client.ended = false) {closed : List ClientItem}
    (listed : closed.map ClientItem.closed = run.self.output.map some) {id : Value} {text : String}
    (items : client.items = closed ++ [⟨"", text, none⟩])
    (opened : run.self.textItem = some ⟨closed.length, id, text⟩)
    (noReasoning : run.self.reasoningItem = none) (noTool : run.self.toolItem = none)
    (next : run.self.nextOutput = closed.length + 1) :
    ∃ client', Watched initialInput start (closeText run) client' ∧
      Idle (closeText run).self client' := by
  have final : text = (ClientItem.mk "" text none).final := by
    by_cases empty : text = "" <;> simp [ClientItem.final, empty]
  let item := Value.obj
    [("type", "message"), ("id", id), ("role", "assistant"), ("status", "completed"),
      ("content", .array [.obj [("type", "output_text"), ("text", text),
        ("annotations", .array [])]])]
  simp only [closeText, opened]
  refine ⟨{ client with items := closed ++ [⟨"", text, some item⟩] }, Watched.same (Watched.put
    (Watched.look (Watched.look watched rfl running ?_) rfl running ?_) rfl running ?_) _, ?_⟩
  · simpa [clientView, string, outputIndex, number] using
      Client.judge_textDone_last items rfl final initialInput
  · simpa [clientView, string, outputIndex, number, Value.field, partText] using
      Client.judge_textDone_last items rfl final initialInput
  · have read : itemText item = text := by
      simp [item, itemText, string, Value.field, Value.first, partText]
    simpa [clientView, string, outputIndex, number, Value.field] using
      Client.judge_itemDone_last items rfl (read.trans final) initialInput
  · exact ⟨running, ⟨noReasoning, rfl, noTool⟩, by simp [put, next], listed_last listed ⟨"", text, none⟩ item⟩

/-- The announcement of a call with the arguments it is closed with. -/
theorem callHolds_closed {fallback : String} {item : Value} (holds : CallHolds fallback item)
    (text : String) :
    CallHolds (if text = "" then fallback else text)
      ((if text = "" then item else item.set "arguments" text).set "status" "completed") := by
  obtain ⟨isObject, typed, held⟩ := holds
  by_cases empty : text = ""
  · simp only [empty, if_true]
    exact ⟨Value.isObject_set isObject _ _, by simp [isObject, typed], by simp [isObject, held]⟩
  · simp only [empty, if_false]
    exact ⟨by simp [isObject], by simp [isObject, typed], by simp [isObject]⟩

/-- Closing an open call leaves no item open. -/
theorem closeCall_idle {initialInput : String} {start client : Client}
    {run : Emitting AmToRs} (watched : Watched initialInput start run client)
    (running : client.ended = false) {closed : List ClientItem}
    (listed : closed.map ClientItem.closed = run.self.output.map some) {item : Value}
    {fallback text : String} (items : client.items = closed ++ [⟨fallback, text, none⟩])
    (opened : run.self.toolItem = some ⟨closed.length, item, text⟩)
    (holds : CallHolds fallback item)
    (noReasoning : run.self.reasoningItem = none) (noText : run.self.textItem = none)
    (next : run.self.nextOutput = closed.length + 1) :
    ∃ client', Watched initialInput start (closeCall run) client' ∧
      Idle (closeCall run).self client' := by
  have complete := callHolds_closed holds text
  simp only [closeCall, opened]
  generalize (if text = "" then item else item.set "arguments" text).set "status" "completed" =
    item' at complete ⊢
  have final : (if text = "" then fallback else text) = (ClientItem.mk fallback text none).final :=
    rfl
  refine ⟨{ client with items := closed ++ [⟨fallback, text, some item'⟩] }, Watched.same
    (Watched.put (Watched.look watched rfl running ?_) rfl running ?_) _, ?_⟩
  · simpa [clientView, string, outputIndex, number, Value.field, complete.held] using
      Client.judge_textDone_last items rfl final initialInput
  · have read : itemText item' = if text = "" then fallback else text := by
      simp [itemText, string, complete.typed, complete.held]
    simpa [clientView, string, outputIndex, number, Value.field] using
      Client.judge_itemDone_last items rfl (read.trans final) initialInput
  · exact ⟨running, ⟨noReasoning, noText, rfl⟩, by simp [put, next],
      listed_last listed ⟨fallback, text, none⟩ item'⟩

/-- Closing what is open leaves no item open. -/
theorem finalizeOpen_idle {initialInput : String} {start client : Client}
    {run : Emitting AmToRs} (watched : Watched initialInput start run client)
    (follows : Follows run.self client) :
    ∃ client', Watched initialInput start (finalizeOpen run) client' ∧
      Idle (finalizeOpen run).self client' := by
  obtain ⟨running, closed, listed, holding⟩ := follows
  generalize itemsEq : client.items = items at holding
  cases holding with
  | idle nothing next =>
    have same : finalizeOpen run = run := by
      simp [finalizeOpen, closeCall, closeText, closeReasoning, nothing.reasoning, nothing.text,
        nothing.tool]
    rw [same]
    subst itemsEq
    exact ⟨client, watched, running, nothing, next, listed⟩
  | reasoning opened noText noTool next =>
    obtain ⟨client', watched', idle⟩ :=
      closeReasoning_idle watched running listed itemsEq opened noText noTool next
    have same : finalizeOpen run = closeReasoning run := by
      simp [finalizeOpen, closeCall, closeText, idle.nothing.text, idle.nothing.tool]
    rw [same]
    exact ⟨client', watched', idle⟩
  | text opened noReasoning noTool next =>
    obtain ⟨client', watched', idle⟩ :=
      closeText_idle watched running listed itemsEq opened noReasoning noTool next
    have same : finalizeOpen run = closeText run := by
      simp [finalizeOpen, closeReasoning, closeCall, noReasoning, idle.nothing.tool]
    rw [same]
    exact ⟨client', watched', idle⟩
  | call opened holds noReasoning noText next =>
    obtain ⟨client', watched', idle⟩ :=
      closeCall_idle watched running listed itemsEq opened holds noReasoning noText next
    have same : finalizeOpen run = closeCall run := by
      simp [finalizeOpen, closeReasoning, closeText, noReasoning, noText]
    rw [same]
    exact ⟨client', watched', idle⟩

/-- A call that has put out its events so far, to a client that knows the state. -/
def Tracks (initialInput : String) (start : Client) (run : Emitting AmToRs) : Prop :=
  ∃ client, Watched initialInput start run client ∧ Follows run.self client

/-- The client judges the announcement of the next item. -/
theorem judge_added {client : Client} {initialInput fallback : String} {item : Value} {index : ℕ}
    (next : index = client.items.length) (expects : itemFallback initialInput item = fallback) :
    client.judge (itemFallback initialInput) (.added index item) =
      some { client with items := client.items ++ [⟨fallback, "", none⟩] } := by
  rw [Client.judge, if_pos next, expects]

/-- Opening a text when no item is open. -/
theorem startText_tracks {initialInput : String} {start client : Client} {run : Emitting AmToRs}
    (watched : Watched initialInput start run client) (idle : Idle run.self client) :
    Tracks initialInput start (startText run) := by
  let grown : Client := { client with items := client.items ++ [⟨"", "", none⟩] }
  have last : grown.items = client.items ++ [⟨"", "", none⟩] := rfl
  have running : grown.ended = false := idle.running
  refine ⟨grown, Watched.same (Watched.look
    (Watched.put (Watched.same watched _) rfl idle.running ?_) rfl running ?_) _, ?_⟩
  · simpa [clientView, string, outputIndex, number, Value.field] using
      judge_added idle.next (by simp [itemFallback, Value.field])
  · simpa [clientView, string, outputIndex, number, idle.next] using
      Client.judge_about_last last rfl initialInput
  · have opened : (startText run).self.textItem = some ⟨client.items.length,
        .string (run.self.id ++ "_msg_" ++ toString run.self.nextOutput), ""⟩ := by
      simp [startText, put, idle.next]
    refine ⟨idle.running, client.items, idle.listed, .text opened idle.nothing.reasoning
      idle.nothing.tool ?_⟩
    simp [startText, put, idle.next]

/-- Opening a reasoning when no item is open. -/
theorem startReasoning_tracks {initialInput : String} {start client : Client}
    {run : Emitting AmToRs} (watched : Watched initialInput start run client)
    (idle : Idle run.self client) : Tracks initialInput start (startReasoning run) := by
  let grown : Client := { client with items := client.items ++ [⟨"", "", none⟩] }
  have last : grown.items = client.items ++ [⟨"", "", none⟩] := rfl
  have running : grown.ended = false := idle.running
  refine ⟨grown, Watched.same (Watched.look
    (Watched.put (Watched.same watched _) rfl idle.running ?_) rfl running ?_) _, ?_⟩
  · simpa [clientView, string, outputIndex, number, Value.field] using
      judge_added idle.next (by simp [itemFallback, Value.field])
  · simpa [clientView, string, outputIndex, number, idle.next] using
      Client.judge_about_last last rfl initialInput
  · have opened : (startReasoning run).self.reasoningItem = some ⟨client.items.length,
        .string (run.self.id ++ "_rs_" ++ toString run.self.nextOutput), ""⟩ := by
      simp [startReasoning, put, idle.next]
    refine ⟨idle.running, client.items, idle.listed, .reasoning opened idle.nothing.text
      idle.nothing.tool ?_⟩
    simp [startReasoning, put, idle.next]

/-- Opening a call when no item is open. -/
theorem startCall_tracks {serde : SerdeJson} {start client : Client} {run : Emitting AmToRs}
    {block : Value} (watched : Watched (initialInput serde block) start run client)
    (idle : Idle run.self client) :
    Tracks (initialInput serde block) start (startCall serde run block) := by
  refine ⟨{ client with items := client.items ++ [⟨initialInput serde block, "", none⟩] },
    Watched.same (Watched.put (Watched.same watched _) rfl idle.running ?_) _, ?_⟩
  · simpa [clientView, string, outputIndex, number, Value.field] using
      judge_added idle.next (by simp [itemFallback, callItem, Value.field])
  · have holds : CallHolds (initialInput serde block) ((callItem run.self run.self.nextOutput
        block).set "arguments" (initialInput serde block)) :=
      ⟨by simp [callItem], by simp [callItem], by simp [callItem]⟩
    refine ⟨idle.running, client.items, idle.listed, .call ?_ holds idle.nothing.reasoning
      idle.nothing.text ?_⟩
    · simp [put, startCall, callItem, idle.next]
    · simp [put, startCall, idle.next]

/-- More reasoning for an open reasoning. -/
theorem Tracks.appendReasoning {initialInput : String} {start : Client} {run : Emitting AmToRs}
    (tracks : Tracks initialInput start run) (text : String) :
    Tracks initialInput start (appendReasoning run text) := by
  cases isOpen : run.self.reasoningItem with
  | none =>
    simp only [AmToRs.appendReasoning, isOpen]
    exact tracks
  | some held =>
    obtain ⟨client, watched, running, closed, listed, holding⟩ := tracks
    generalize itemsEq : client.items = items at holding
    cases holding with
    | idle nothing next => simp [nothing.reasoning] at isOpen
    | reasoning opened noText noTool next =>
      rename_i id held
      simp only [AmToRs.appendReasoning, opened]
      refine ⟨{ client with items := closed ++ [⟨"", held ++ text, none⟩] }, Watched.same
        (Watched.put watched rfl running ?_) _, ?_⟩
      · simpa [clientView, string, outputIndex, number] using
          Client.judge_delta_last itemsEq rfl text initialInput
      · exact ⟨running, closed, listed, .reasoning rfl noText noTool next⟩
    | text opened noReasoning noTool next => simp [noReasoning] at isOpen
    | call opened holds noReasoning noText next => simp [noReasoning] at isOpen

/-- More text for an open text. -/
theorem Tracks.appendText {initialInput : String} {start : Client} {run : Emitting AmToRs}
    (tracks : Tracks initialInput start run) (text : String) :
    Tracks initialInput start (appendText run text) := by
  cases isOpen : run.self.textItem with
  | none =>
    simp only [AmToRs.appendText, isOpen]
    exact tracks
  | some held =>
    obtain ⟨client, watched, running, closed, listed, holding⟩ := tracks
    generalize itemsEq : client.items = items at holding
    cases holding with
    | idle nothing next => simp [nothing.text] at isOpen
    | reasoning opened noText noTool next => simp [noText] at isOpen
    | text opened noReasoning noTool next =>
      rename_i id held
      simp only [AmToRs.appendText, opened]
      refine ⟨{ client with items := closed ++ [⟨"", held ++ text, none⟩] }, Watched.same
        (Watched.put watched rfl running ?_) _, ?_⟩
      · simpa [clientView, string, outputIndex, number] using
          Client.judge_delta_last itemsEq rfl text initialInput
      · exact ⟨running, closed, listed, .text rfl noReasoning noTool next⟩
    | call opened holds noReasoning noText next => simp [noText] at isOpen

/-- More arguments for an open call. -/
theorem Tracks.appendCall {initialInput : String} {start : Client} {run : Emitting AmToRs}
    (tracks : Tracks initialInput start run) (text : String) :
    Tracks initialInput start (appendCall run text) := by
  cases isOpen : run.self.toolItem with
  | none =>
    simp only [AmToRs.appendCall, isOpen]
    exact tracks
  | some held =>
    obtain ⟨client, watched, running, closed, listed, holding⟩ := tracks
    generalize itemsEq : client.items = items at holding
    cases holding with
    | idle nothing next => simp [nothing.tool] at isOpen
    | reasoning opened noText noTool next => simp [noTool] at isOpen
    | text opened noReasoning noTool next => simp [noTool] at isOpen
    | call opened holds noReasoning noText next =>
      rename_i item fallback held
      simp only [AmToRs.appendCall, opened]
      refine ⟨{ client with items := closed ++ [⟨fallback, held ++ text, none⟩] }, Watched.same
        (Watched.put watched rfl running ?_) _, ?_⟩
      · simpa [clientView, string, outputIndex, number] using
          Client.judge_delta_last itemsEq rfl text initialInput
      · exact ⟨running, closed, listed, .call rfl holds noReasoning noText next⟩

/-- A change of the converter outside its items keeps the relation. -/
theorem Follows.congr {held held' : AmToRs} {client : Client} (follows : Follows held client)
    (output : held'.output = held.output) (nextOutput : held'.nextOutput = held.nextOutput)
    (reasoning : held'.reasoningItem = held.reasoningItem) (text : held'.textItem = held.textItem)
    (tool : held'.toolItem = held.toolItem) : Follows held' client := by
  obtain ⟨running, closed, listed, holding⟩ := follows
  refine ⟨running, closed, by rw [output, listed], ?_⟩
  generalize client.items = items at holding
  cases holding with
  | idle nothing next =>
    exact .idle ⟨reasoning.trans nothing.reasoning, text.trans nothing.text,
      tool.trans nothing.tool⟩ (nextOutput.trans next)
  | reasoning opened noText noTool next =>
    exact .reasoning (reasoning.trans opened) (text.trans noText) (tool.trans noTool)
      (nextOutput.trans next)
  | text opened noReasoning noTool next =>
    exact .text (text.trans opened) (reasoning.trans noReasoning) (tool.trans noTool)
      (nextOutput.trans next)
  | call opened holds noReasoning noText next =>
    exact .call (tool.trans opened) holds (reasoning.trans noReasoning) (text.trans noText)
      (nextOutput.trans next)

/-- Closing what is open keeps the relation. -/
theorem Tracks.finalizeOpen {initialInput : String} {start : Client} {run : Emitting AmToRs}
    (tracks : Tracks initialInput start run) : Tracks initialInput start (finalizeOpen run) := by
  obtain ⟨client, watched, follows⟩ := tracks
  obtain ⟨client', watched', idle⟩ := finalizeOpen_idle watched follows
  exact ⟨client', watched', idle.follows⟩

/-- A delta of a block keeps the relation. -/
theorem Tracks.pushDelta {initialInput : String} {start : Client} {run : Emitting AmToRs}
    (tracks : Tracks initialInput start run) (payload : Value) :
    Tracks initialInput start (pushDelta run payload) := by
  obtain ⟨client, watched, follows⟩ := tracks
  obtain ⟨client', watched', idle⟩ := finalizeOpen_idle watched follows
  have tracks : Tracks initialInput start run := ⟨client, watched, follows⟩
  simp only [AmToRs.pushDelta]
  split
  · split
    · exact tracks
    · split
      · exact (startReasoning_tracks watched' idle).appendReasoning _
      · exact tracks.appendReasoning _
  · split
    · exact (startText_tracks watched' idle).appendText _
    · exact tracks.appendText _
  · exact tracks.appendCall _
  · exact tracks

/-- The start of a block keeps the relation. -/
theorem Tracks.startBlock {serde : SerdeJson} {start : Client} {run : Emitting AmToRs}
    {payload : Value}
    (tracks : Tracks (initialInput serde (payload.field "content_block")) start run) :
    Tracks (initialInput serde (payload.field "content_block")) start
      (startBlock serde run payload) := by
  obtain ⟨client, watched, follows⟩ := tracks
  obtain ⟨client', watched', idle⟩ := finalizeOpen_idle watched follows
  simp only [AmToRs.startBlock]
  split
  · exact startText_tracks watched' idle
  · exact startCall_tracks watched' idle
  · exact ⟨client, watched, follows⟩

/-- The start of a message keeps the relation. -/
theorem Tracks.startMessage {initialInput : String} {start : Client} {run : Emitting AmToRs}
    (tracks : Tracks initialInput start run) (reading : Reading) (payload : Value) :
    Tracks initialInput start (startMessage run reading payload) := by
  obtain ⟨client, watched, follows⟩ := tracks
  refine ⟨client, Watched.look (Watched.look (Watched.same watched _) rfl follows.running ?_) rfl
    follows.running ?_, follows.congr rfl rfl rfl rfl rfl⟩
  · simp [clientView, string, Client.judge]
  · simp [clientView, string, Client.judge]

/-- What a call left: nothing more may come, or the client knows the state. -/
def Settles (initialInput : String) (start : Client) (run : Emitting AmToRs) : Prop :=
  ∃ client, Watched initialInput start run client ∧
    (run.self.terminated = true ∨ Follows run.self client)

/-- A call that keeps the relation settles. -/
theorem Tracks.settles {initialInput : String} {start : Client} {run : Emitting AmToRs}
    (tracks : Tracks initialInput start run) : Settles initialInput start run := by
  obtain ⟨client, watched, follows⟩ := tracks
  exact ⟨client, watched, Or.inr follows⟩

/-- An upstream error ends the stream. -/
theorem Tracks.fail {initialInput : String} {start : Client} {run : Emitting AmToRs}
    (tracks : Tracks initialInput start run) (payload : Value) :
    Settles initialInput start (fail run payload) := by
  obtain ⟨client, watched, follows⟩ := tracks
  obtain ⟨client', watched', idle⟩ := finalizeOpen_idle watched follows
  refine ⟨{ client' with ended := true }, Watched.same (Watched.put (Watched.look watched' rfl
    idle.running ?_) rfl idle.running ?_) _, Or.inl rfl⟩
  · simp [clientView, string, Client.judge]
  · simp [clientView, string, Client.judge]

/-- A response in an envelope lists the closed items. -/
theorem output_envelope (held : AmToRs) (kind status : String) :
    (envelope held kind status).get "output" = some (.array held.output) := by
  simp only [envelope]
  by_cases terminal : kind = "response.completed" ∨ kind = "response.incomplete" <;>
    by_cases incomplete : status = "incomplete" <;> simp [terminal, incomplete]

/-- The end of the message ends the stream. -/
theorem Tracks.stopMessage {initialInput : String} {start : Client} {run : Emitting AmToRs}
    (tracks : Tracks initialInput start run) :
    Settles initialInput start (stopMessage run) := by
  obtain ⟨client, watched, follows⟩ := tracks
  obtain ⟨client', watched', idle⟩ := finalizeOpen_idle watched follows
  have judged : client'.judge (itemFallback initialInput) (.finished (AmToRs.finalizeOpen run).self.output) =
      some { client' with ended := true } := by
    rw [Client.judge, if_pos idle.listed]
  simp only [AmToRs.stopMessage]
  split
  · refine ⟨{ client' with ended := true }, Watched.same (Watched.put watched' rfl idle.running
      ?_) _, Or.inl rfl⟩
    simpa [clientView, string, Value.field, output_envelope] using judged
  · refine ⟨{ client' with ended := true }, Watched.same (Watched.put watched' rfl idle.running
      ?_) _, Or.inl rfl⟩
    simpa [clientView, string, Value.field, output_envelope] using judged

/-- Every event settles. -/
theorem pushKind_settles {serde : SerdeJson} {held : AmToRs} {client : Client}
    (follows : Follows held client) (reading : Reading) (kind : String) (payload : Value) :
    Settles (initialInput serde (payload.field "content_block")) client
      (pushKind serde held reading kind payload) := by
  have tracks : Tracks (initialInput serde (payload.field "content_block")) client
      { self := held } := ⟨client, ⟨by simp, rfl⟩, follows⟩
  simp only [pushKind]
  split
  · exact tracks.fail payload
  · exact (tracks.startMessage reading payload).settles
  · exact tracks.startBlock.settles
  · exact (tracks.pushDelta payload).settles
  · exact tracks.finalizeOpen.settles
  · split
    · exact ⟨client, ⟨by simp, rfl⟩, Or.inr (follows.congr rfl rfl rfl rfl rfl)⟩
    · exact tracks.settles
  · exact tracks.stopMessage
  · exact tracks.settles

/-- Closing what is open does not number anything. -/
@[simp] theorem sequence_finalizeOpen (run : Emitting AmToRs) :
    (finalizeOpen run).self.sequence = run.self.sequence := by
  have reasoning : ∀ run, (closeReasoning run).self.sequence = run.self.sequence := by
    intro run
    simp only [closeReasoning]
    split <;> rfl
  have text : ∀ run, (closeText run).self.sequence = run.self.sequence := by
    intro run
    simp only [closeText]
    split <;> rfl
  have call : ∀ run, (closeCall run).self.sequence = run.self.sequence := by
    intro run
    simp only [closeCall]
    split <;> rfl
  rw [finalizeOpen, call, text, reasoning]

/-- An event numbers nothing before its end. -/
theorem sequence_pushKind (serde : SerdeJson) (held : AmToRs) (reading : Reading) (kind : String)
    (payload : Value) :
    (pushKind serde held reading kind payload).self.sequence = held.sequence := by
  simp only [pushKind]
  split
  · exact sequence_finalizeOpen _
  · rfl
  · simp only [startBlock]
    split
    · exact sequence_finalizeOpen _
    · exact sequence_finalizeOpen _
    · rfl
  · have appended : ∀ run text, (appendReasoning run text).self.sequence = run.self.sequence ∧
        (appendText run text).self.sequence = run.self.sequence ∧
        (appendCall run text).self.sequence = run.self.sequence := by
      intro run text
      simp only [appendReasoning, appendText, appendCall]
      refine ⟨?_, ?_, ?_⟩ <;> split <;> rfl
    simp only [pushDelta]
    split
    · split
      · rfl
      · rw [(appended _ _).1]
        split
        · exact sequence_finalizeOpen _
        · rfl
    · rw [(appended _ _).2.1]
      split
      · exact sequence_finalizeOpen _
      · rfl
    · rw [(appended _ _).2.2]
    · rfl
  · exact sequence_finalizeOpen _
  · split <;> rfl
  · simp only [stopMessage]
    split <;> exact sequence_finalizeOpen _
  · rfl

/-- What a client makes of the state between calls: nothing more may come, or it knows the state
up to the fractions that reading back changed. -/
def Settled (reread : String → String) (held : AmToRs) (client : Client) : Prop :=
  held.terminated = true ∨
    ∃ seen, Follows held seen ∧ client = { seen.mapFloats reread with sequence := held.sequence }

/-- The initial input of the block an upstream event starts. -/
def blockInput (serde : SerdeJson) (raw : List Char) : String :=
  match parseSse raw with
  | .ok parsed =>
    match parsePayload serde parsed AM with
    | .ok (some payload) => initialInput serde (payload.field "content_block")
    | _ => ""
  | .error _ => ""

/-- Every call settles. -/
theorem push_settles {serde : SerdeJson} {reread : String → String} (lawful : serde.Lawful)
    (readsBack : serde.ReadsBack reread)
    {held : AmToRs} {client : Client} (settled : Settled reread held client) (reading : Reading)
    (raw : List Char) {run : Emitting AmToRs} (passes : push serde held reading raw = .ok run) :
    ∃ client', client.receiveAll (itemFallback (blockInput serde raw)) run.out = some client' ∧
      Settled reread run.self client' := by
  simp only [push, bind_eq_ok] at passes
  obtain ⟨parsed, parsing, payload?, payloading, passes⟩ := passes
  split at passes
  · cases passes
    exact ⟨client, rfl, settled⟩
  · rename_i payload
    split at passes
    · cases passes
      exact ⟨client, rfl, settled⟩
    · rename_i kind _
      split at passes
      · rename_i terminated
        cases passes
        exact ⟨client, rfl, Or.inl terminated⟩
      · rename_i running
        obtain ⟨seen, follows, rfl⟩ := settled.resolve_left running
        simp only [bind_eq_ok] at passes
        obtain ⟨out, numbered, passes⟩ := passes
        cases passes
        have input : blockInput serde raw = initialInput serde (payload.field "content_block") := by
          simp [blockInput, parsing, payloading]
        have noted : Follows { held with usage := held.usage.observe AM payload } seen :=
          follows.congr rfl rfl rfl rfl rfl
        obtain ⟨next, watched, after⟩ :=
          @pushKind_settles serde _ _ noted reading kind payload
        have sequence := sequence_pushKind serde
          { held with usage := held.usage.observe AM payload } reading kind payload
        have taken := receiveAll_renumber lawful readsBack _ watched.legible watched.taken numbered
        simp only [sequence] at taken
        rw [input]
        refine ⟨_, taken, ?_⟩
        rcases after with terminated | known
        · exact Or.inl terminated
        · exact Or.inr ⟨next, known.congr rfl rfl rfl rfl rfl, by rw [sequence]⟩

/-- A new converter and a client that has seen nothing. -/
theorem settled_new (reread : String → String) : Settled reread {} {} :=
  Or.inr ⟨{}, ⟨rfl, [], rfl, .idle ⟨rfl, rfl, rfl⟩ rfl⟩, rfl⟩

end AmToRs
end Aipass.Conversion
