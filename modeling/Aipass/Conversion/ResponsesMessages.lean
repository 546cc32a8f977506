import Aipass.Conversion.MessagesStream
import Aipass.Conversion.Stream
import Aipass.Conversion.ReadBack

/-!
# Responses streams to Anthropic are well formed

The first converter's chunks reach the second as text, so the relation of the second is kept
chunk by chunk. What the first holds of the calls is what the observer holds: the number of each
announced call, and whether a fragment of it was passed on.
-/
namespace Aipass.Conversion

open ChatToResponses (argumentField callField)
open CcToAm (Known Settled)

/-- Feeding more frames goes on where the first frames ended. -/
theorem RsToAm.feed_append (serde : SerdeJson) (run : Emitting CcToAm) (first more : List Frame) :
    RsToAm.feed serde run (first ++ more) =
      RsToAm.feed serde run first >>= fun middle => RsToAm.feed serde middle more := by
  induction first generalizing run with
  | nil => rfl
  | cons frame first ih =>
    simp only [List.cons_append, RsToAm.feed]
    cases CcToAm.push serde run.self (frame.text serde) with
    | error error => rfl
    | ok next =>
      simp only [ok_bind]
      exact ih _

namespace ResponsesToChat

/-- The observer knows the calls the converter has announced. -/
structure Lists (chat : ResponsesToChat) (seen : Upstream) : Prop where
  running : chat.done = false
  numbers : seen.numbers = chat.tools.map fun _ call => call.1
  /-- What was passed on of a call are its fragments. -/
  listed : ∀ (index number : ℕ) (custom : Bool), chat.tools[index]? = some (number, custom) →
    number < chat.tools.size ∧ ∃ text, seen.calls[number]? = some ⟨custom, text⟩ ∧
      ((index, argumentField custom) ∈ chat.emitted ↔ text ≠ "") ∧
      (index, argumentField (!custom)) ∉ chat.emitted
  distinct : ∀ (index other number : ℕ) (custom custom' : Bool),
    chat.tools[index]? = some (number, custom) →
    chat.tools[other]? = some (number, custom') → index = other
  /-- A call that was not announced has put nothing out. -/
  silent : ∀ (index : ℕ) (custom : Bool), chat.tools[index]? = none →
    (index, argumentField custom) ∉ chat.emitted
  fresh : ∀ number : ℕ, chat.tools.size ≤ number → seen.calls[number]? = none

/-- The second converter, fed what the first has put out so far, is known to the client. -/
structure Tracks (serde : SerdeJson) (upstream : Upstream) (start : MessagesClient)
    (origin : CcToAm) (run : Emitting ResponsesToChat) (seen : Upstream) : Prop where
  known : ∀ fed, RsToAm.feed serde { self := origin } run.out = .ok fed →
    ∃ client, start.receiveAll serde upstream fed.out = some client ∧ Known fed.self seen client
  lists : Lists run.self seen

/-- A converter that has announced nothing. -/
theorem lists_new : Lists {} {} where
  running := rfl
  numbers := Table.ext_get fun index => by simp
  listed := by simp
  distinct := by simp
  silent := by simp
  fresh := by simp

variable {serde : SerdeJson} {reread : String → String} {upstream seen seen' : Upstream}
  {start : MessagesClient} {origin : CcToAm} {run : Emitting ResponsesToChat}

/-- A chunk is read as it was printed, up to its fractions. -/
theorem push_untyped (lawful : serde.Lawful)
    (readsBack : serde.ReadsBack reread)
    {held : CcToAm} (running : held.terminated = false) {chunk : Value}
    (isObject : chunk.IsObject) {next : Emitting CcToAm}
    (passes : CcToAm.push serde held ((Frame.untyped chunk).text serde) = .ok next) :
    CcToAm.pushChunk serde held (chunk.mapFloats reread) = .ok next := by
  have shape : ∃ inner, (serde.print chunk).toList = '{' :: inner ++ ['}'] := by
    cases chunk with
    | object fields => exact lawful.braces fields
    | _ => exact isObject.elim
  obtain ⟨inner, braces⟩ := shape
  have starts : (serde.print chunk).toList.head? = some '{' := by rw [braces]; rfl
  have ends : (serde.print chunk).toList.getLast? = some '}' := by
    rw [braces, List.getLast?_concat]
  have trimmed : Text.trim (serde.print chunk).toList = (serde.print chunk).toList :=
    Text.trim_of_ends starts ends rfl rfl
  have noMarker : (serde.print chunk).toList ≠ "[DONE]".toList := by
    rw [braces]
    simp
  have content : (serde.print chunk).toList ≠ [] := by
    rw [braces]
    simp
  simp only [CcToAm.push, parseSse_untyped lawful isObject, ok_bind, trimmed, if_neg noMarker,
    running, parsePayload, if_neg content, Bool.false_eq_true, if_false] at passes
  cases parsing : serde.parse (serde.print chunk).toList with
  | error error =>
    rw [parsing] at passes
    cases passes
  | ok read =>
    rw [parsing, readsBack _ _ parsing] at passes
    exact passes

/-- The end marker finishes the second converter. -/
theorem push_done (serde : SerdeJson) (held : CcToAm) :
    CcToAm.push serde held (Frame.done.text serde) = CcToAm.finish serde held := by
  rw [CcToAm.push, parseSse_done, ok_bind]
  exact if_pos rfl

/-- The observer of the second converter sees the calls of the delta. -/
theorem chunk_observed (seen : Upstream) {value delta finish : Value}
    (noError : value.get "error" = none)
    (choices : value.get "choices" = some (.array
      [.obj [("index", .nat 0), ("delta", delta), ("finish_reason", finish)]])) :
    seen.chunk serde (value.mapFloats reread) =
      { (((delta.get "tool_calls").bind Value.asArray).getD []).foldl
          (fun seen call => seen.fragment serde (call.mapFloats reread)) seen with
        reported := seen.reported || finish.asStr.isSome } := by
  have calls : (((delta.get "tool_calls").map (Value.mapFloats reread)).bind Value.asArray).getD [] =
      (((delta.get "tool_calls").bind Value.asArray).getD []).map (Value.mapFloats reread) := by
    cases found : delta.get "tool_calls" with
    | none => simp
    | some value => cases array : value.asArray <;> simp [array]
  simp [Upstream.chunk, Upstream.choice, noError, choices, Value.field, calls, List.foldl_map,
    Value.mapFloats, Value.mapFloatsItems]

/-- The second converter's relation rests on the calls and the report alone. -/
theorem known_congr {held : CcToAm} {client : MessagesClient} (known : Known held seen client)
    (calls : seen'.calls = seen.calls) (reported : seen'.reported = seen.reported) :
    Known held seen' client :=
  ⟨known.follows, known.running, known.noInputs, calls.trans known.calls,
    reported.trans known.reported⟩

/-- What a run knows of its calls rests on its calls and what it noted. -/
theorem Lists.congr {chat chat' : ResponsesToChat} (lists : Lists chat seen)
    (tools : chat'.tools = chat.tools) (emitted : chat'.emitted = chat.emitted)
    (done : chat'.done = chat.done) : Lists chat' seen := by
  obtain ⟨running, numbers, listed, distinct, silent, fresh⟩ := lists
  constructor <;> simp only [tools, emitted, done] <;> assumption

/-- Noting a part of a text notes no fragment. -/
theorem Lists.note {chat : ResponsesToChat} (lists : Lists chat seen) {key : ℕ × String}
    (noFragment : ∀ custom, key.2 ≠ argumentField custom) :
    Lists { chat with emitted := key :: chat.emitted } seen where
  running := lists.running
  numbers := lists.numbers
  listed := fun index number custom known => by
    obtain ⟨inside, text, held, noted, other⟩ := lists.listed index number custom known
    have differs : ∀ custom, (index, argumentField custom) ≠ key := fun custom same =>
      noFragment custom (congrArg Prod.snd same).symm
    refine ⟨inside, text, held, ?_, ?_⟩
    · simp [differs custom, noted]
    · simp [differs (!custom), other]
  distinct := lists.distinct
  silent := fun index custom unknown => by
    have differs : (index, argumentField custom) ≠ key := fun same =>
      noFragment custom (congrArg Prod.snd same).symm
    simp [differs, lists.silent index custom unknown]
  fresh := lists.fresh

/-- The name of a part of a text is not the name of an argument field. -/
theorem part_ne_argument (field : String) (part : ℕ) (custom : Bool) :
    field ++ ":" ++ toString part ≠ argumentField custom := by
  intro same
  have colon : ':' ∈ (field ++ ":" ++ toString part).toList := by simp
  rw [same] at colon
  cases custom <;> revert colon <;> decide

/-- A chunk that the first converter puts out is taken by the client. -/
theorem Tracks.chunk (lawful : serde.Lawful) (readsBack : serde.ReadsBack reread)
    (tracks : Tracks serde upstream start origin run seen) (delta finish : Value)
    {run' : Emitting ResponsesToChat} {value : Value} (out : run'.out = run.out ++ [.untyped value])
    (isObject : value.IsObject) (noError : value.get "error" = none)
    (choices : value.get "choices" = some (.array
      [.obj [("index", .nat 0), ("delta", delta), ("finish_reason", finish)]]))
    (lists : Lists run'.self seen')
    (calls : seen'.calls = ((((delta.get "tool_calls").bind Value.asArray).getD []).foldl
      (fun seen call => seen.fragment serde (call.mapFloats reread)) seen).calls)
    (reported : seen'.reported = (seen.reported || finish.asStr.isSome)) :
    Tracks serde upstream start origin run' seen' := by
  refine ⟨fun fed feeding => ?_, lists⟩
  rw [out, RsToAm.feed_append, bind_eq_ok] at feeding
  obtain ⟨before, feeding, last⟩ := feeding
  obtain ⟨client, taken, known⟩ := tracks.known before feeding
  simp only [RsToAm.feed, bind_eq_ok] at last
  obtain ⟨next, pushed, last⟩ := last
  cases last
  have passes := push_untyped lawful readsBack known.running isObject pushed
  have noError' : (value.mapFloats reread).get "error" = none := by simp [noError]
  obtain ⟨client', taken', after⟩ := CcToAm.pushChunk_known known passes noError'
  rw [chunk_observed seen noError choices] at after
  exact ⟨client', by rw [MessagesClient.receiveAll_append taken, taken'],
    known_congr after calls reported⟩

/-- A delta that is put out is taken by the client. -/
theorem Tracks.put (lawful : serde.Lawful) (readsBack : serde.ReadsBack reread)
    (tracks : Tracks serde upstream start origin run seen) {self : ResponsesToChat} {delta : Value}
    (lists : Lists self seen')
    (calls : seen'.calls = ((((delta.get "tool_calls").bind Value.asArray).getD []).foldl
      (fun seen call => seen.fragment serde (call.mapFloats reread)) seen).calls)
    (reported : seen'.reported = seen.reported) :
    Tracks serde upstream start origin (put { run with self } delta) seen' := by
  refine tracks.chunk lawful readsBack delta .null rfl (by simp) (by simp) (by simp) lists calls ?_
  simp [reported, Value.asStr]

/-- A delta without calls. -/
theorem Tracks.put_text (lawful : serde.Lawful) (readsBack : serde.ReadsBack reread)
    (tracks : Tracks serde upstream start origin run seen) {self : ResponsesToChat}
    (lists : Lists self seen) {delta : Value} (noCalls : delta.get "tool_calls" = none) :
    Tracks serde upstream start origin (ResponsesToChat.put { run with self } delta) seen :=
  tracks.put lawful readsBack lists (by simp [noCalls]) rfl

/-- The first event that carries a response. -/
theorem Tracks.named (lawful : serde.Lawful) (readsBack : serde.ReadsBack reread)
    (tracks : Tracks serde upstream start origin run seen) (reading : Reading) (payload : Value) :
    Tracks serde upstream start origin (ResponsesToChat.start reading payload run) seen := by
  simp only [ResponsesToChat.start]
  split
  · exact tracks
  · split
    · exact tracks
    · refine tracks.put_text lawful readsBack ?_ ?_
      · exact tracks.lists.congr rfl rfl rfl
      · simp

/-- A piece of text. -/
theorem Tracks.pushDelta (lawful : serde.Lawful) (readsBack : serde.ReadsBack reread)
    (tracks : Tracks serde upstream start origin run seen) (index : ℕ) (payload : Value) :
    Tracks serde upstream start origin (pushDelta run index payload) seen := by
  simp only [ResponsesToChat.pushDelta]
  split
  · exact tracks
  · refine tracks.put_text lawful readsBack
      (tracks.lists.note fun custom => part_ne_argument _ _ custom) ?_
    have field : (deltaField (string (payload.get "type"))).1 ≠ "tool_calls" := by
      unfold deltaField
      split <;> decide
    simp [field]

/-- A part of a closed item. -/
theorem Tracks.pushPart (lawful : serde.Lawful) (readsBack : serde.ReadsBack reread)
    (tracks : Tracks serde upstream start origin run seen) (index part : ℕ) {field : String}
    (noCalls : field ≠ "tool_calls") (text : String) :
    Tracks serde upstream start origin (pushPart run index field text part) seen := by
  simp only [ResponsesToChat.pushPart]
  split
  · exact tracks
  · exact tracks.put_text lawful readsBack
      (tracks.lists.note fun custom => part_ne_argument _ _ custom) (by simp [noCalls])

/-- The parts of a closed item. -/
theorem Tracks.foldl {α : Type} {step : Emitting ResponsesToChat → α → Emitting ResponsesToChat}
    (keeps : ∀ run entry, Tracks serde upstream start origin run seen →
      Tracks serde upstream start origin (step run entry) seen)
    (tracks : Tracks serde upstream start origin run seen) (entries : List α) :
    Tracks serde upstream start origin (entries.foldl step run) seen := by
  induction entries generalizing run with
  | nil => exact tracks
  | cons entry rest ih => exact ih (keeps run entry tracks)

/-- A part of a message. -/
theorem Tracks.messagePart (lawful : serde.Lawful) (readsBack : serde.ReadsBack reread)
    (tracks : Tracks serde upstream start origin run seen) (index : ℕ) (entry : Value × ℕ) :
    Tracks serde upstream start origin (messagePart index run entry) seen := by
  simp only [ResponsesToChat.messagePart]
  split <;> exact tracks.pushPart lawful readsBack _ _ (by decide) _

/-- The observer counts the calls as the converter does. -/
theorem Lists.size {chat : ResponsesToChat} (lists : Lists chat seen) :
    seen.numbers.size = chat.tools.size := by
  rw [lists.numbers, Std.ExtTreeMap.size_map]

/-- Another call is announced under the next number. -/
theorem Lists.announce {chat : ResponsesToChat} (lists : Lists chat seen) {index : ℕ}
    (unknown : chat.tools[index]? = none) (custom : Bool) :
    Lists { chat with tools := chat.tools.insert index (chat.tools.size, custom) }
      (seen.announce index custom) := by
  have absent : seen.numbers[index]? = none := by simp [lists.numbers, unknown]
  have grown : (chat.tools.insert index (chat.tools.size, custom)).size =
      chat.tools.size + 1 := by
    rw [Std.ExtTreeMap.size_insert, if_neg]
    rw [Std.ExtTreeMap.contains_eq_isSome_getElem?, unknown]
    decide
  have added : seen.announce index custom =
      { seen with
        numbers := seen.numbers.insert index chat.tools.size
        calls := seen.calls.insert chat.tools.size ⟨custom, ""⟩ } := by
    simp [Upstream.announce, absent, lists.size]
  rw [added]
  refine ⟨lists.running, ?_, ?_, ?_, ?_, ?_⟩
  · refine Table.ext_get fun other => ?_
    by_cases here : index = other <;> simp [here, lists.numbers]
  · intro other number custom' known
    rw [grown]
    rw [Table.get_insert] at known
    by_cases here : index = other
    · subst here
      rw [if_pos rfl, Option.some.injEq, Prod.mk.injEq] at known
      obtain ⟨rfl, rfl⟩ := known
      exact ⟨Nat.lt_succ_self _, "", by simp, by simp [lists.silent index custom unknown],
        lists.silent index _ unknown⟩
    · rw [if_neg here] at known
      obtain ⟨inside, text, held, noted, noOther⟩ := lists.listed other number custom' known
      refine ⟨Nat.lt_succ_of_lt inside, text, ?_, noted, noOther⟩
      simp [Nat.ne_of_gt inside, held]
  · intro left right number first second knownLeft knownRight
    have apart : ∀ place custom', chat.tools[place]? = some (number, custom') →
        number ≠ chat.tools.size := fun place custom' known =>
      Nat.ne_of_lt (lists.listed place number custom' known).1
    simp only [Table.get_insert] at knownLeft knownRight
    split at knownLeft <;> split at knownRight
    · rename_i atLeft atRight
      exact atLeft.symm.trans atRight
    · cases knownLeft
      exact absurd rfl (apart _ _ knownRight)
    · cases knownRight
      exact absurd rfl (apart _ _ knownLeft)
    · exact lists.distinct _ _ _ _ _ knownLeft knownRight
  · intro other custom' absent'
    rw [Table.get_insert] at absent'
    split at absent'
    · cases absent'
    · exact lists.silent other custom' absent'
  · intro number beyond
    rw [grown] at beyond
    have free := lists.fresh number (Nat.le_of_succ_le beyond)
    simp [free, Nat.ne_of_lt beyond]

/-- A fragment of an announced call is added to it. -/
theorem Lists.delta_eq {chat : ResponsesToChat} (lists : Lists chat seen) {index number : ℕ}
    {custom : Bool} (announced : chat.tools[index]? = some (number, custom)) (text : String) :
    seen.delta index text = seen.extend number false text := by
  simp [Upstream.delta, lists.numbers, announced]

/-- A fragment of a call was passed on. -/
theorem Lists.delta {chat : ResponsesToChat} (lists : Lists chat seen) {index number : ℕ}
    {custom : Bool} (announced : chat.tools[index]? = some (number, custom)) {text : String}
    (nonempty : text ≠ "") :
    Lists { chat with emitted := (index, argumentField custom) :: chat.emitted }
      (seen.delta index text) := by
  obtain ⟨inside, before, held, noted, noOther⟩ := lists.listed index number custom announced
  rw [lists.delta_eq announced]
  refine ⟨lists.running, lists.numbers, ?_, lists.distinct, ?_, ?_⟩
  · intro other number' custom' known
    obtain ⟨inside', text', held', noted', noOther'⟩ := lists.listed other number' custom' known
    refine ⟨inside', ?_⟩
    by_cases here : index = other
    · subst here
      rw [announced] at known
      cases known
      refine ⟨before ++ text, by simp [Upstream.extend, held], by simp [nonempty], ?_⟩
      have differs : argumentField (!custom) ≠ argumentField custom := by
        cases custom <;> decide
      simp [differs, noOther]
    · have apart : number ≠ number' := fun same =>
        here (lists.distinct _ _ _ _ _ announced (same ▸ known))
      refine ⟨text', by simp [Upstream.extend, apart, held'], ?_, ?_⟩
      · simp [Ne.symm here, noted']
      · simp [Ne.symm here, noOther']
  · intro other custom' unknown
    have apart : other ≠ index := fun same => by
      rw [same, announced] at unknown
      cases unknown
    simp [apart, lists.silent other custom' unknown]
  · intro number' beyond
    have apart : number ≠ number' := Nat.ne_of_lt (Nat.lt_of_lt_of_le inside beyond)
    simp [Upstream.extend, apart, lists.fresh number' beyond]

/-- An empty fragment changes nothing. -/
theorem Lists.delta_empty {chat : ResponsesToChat} (lists : Lists chat seen) (index : ℕ) :
    seen.delta index "" = seen := by
  cases announced : chat.tools[index]? with
  | none => simp [Upstream.delta, lists.numbers, announced]
  | some call =>
    obtain ⟨number, custom⟩ := call
    obtain ⟨-, text, held, -⟩ := lists.listed index number custom announced
    have same : seen.calls.insert number ⟨custom, text⟩ = seen.calls := by
      refine Table.ext_get fun other => ?_
      by_cases here : number = other
      · subst here
        simp [held]
      · simp [here]
    rw [lists.delta_eq announced]
    simp [Upstream.extend, held, same]

/-- A fragment of a call. -/
theorem Tracks.toolDelta (lawful : serde.Lawful) (readsBack : serde.ReadsBack reread)
    (tracks : Tracks serde upstream start origin run seen) (index : ℕ) (text : String) :
    Tracks serde upstream start origin (toolDelta run index text) (seen.delta index text) := by
  by_cases empty : text = ""
  · rw [ResponsesToChat.toolDelta, if_pos empty, empty, tracks.lists.delta_empty]
    exact tracks
  · rw [ResponsesToChat.toolDelta, if_neg empty]
    cases announced : run.self.tools[index]? with
    | none =>
      have unseen : seen.delta index text = seen := by
        simp [Upstream.delta, tracks.lists.numbers, announced]
      rw [unseen]
      exact tracks
    | some call =>
      obtain ⟨number, custom⟩ := call
      obtain ⟨-, before, held, -⟩ := tracks.lists.listed index number custom announced
      refine tracks.put lawful readsBack ?_ ?_ ?_
      · exact tracks.lists.delta announced empty
      · rw [tracks.lists.delta_eq announced]
        cases custom <;>
          simp [callDelta, Upstream.fragment, Upstream.extend, fragmentText, Value.field, callField,
            argumentField, held, Value.mapFloats, Value.nat, Value.asU64, Value.asStr]
      · rw [tracks.lists.delta_eq announced]
        rfl

/-- The type of a call item, freeform or not. -/
def callType (custom : Bool) : String := if custom then "custom_tool_call" else "function_call"

/-- A field read by indexing is the field read by key. -/
theorem asStr_field (value : Value) (key : String) :
    (value.field key).asStr = (value.get key).bind Value.asStr := by
  cases found : value.get key <;> simp [Value.field, found, Value.asStr]

/-- The type of a call item. -/
theorem asStr_type {item : Value} {custom : Bool}
    (kind : string (item.get "type") = callType custom) :
    (item.field "type").asStr = some (callType custom) := by
  rw [asStr_field]
  cases known : (item.get "type").bind Value.asStr with
  | some text =>
    rw [string, known] at kind
    exact congrArg some kind
  | none =>
    rw [string, known] at kind
    revert kind
    cases custom <;> simp [callType]

/-- The announcement of a call. -/
theorem Tracks.announce (lawful : serde.Lawful) (readsBack : serde.ReadsBack reread)
    (tracks : Tracks serde upstream start origin run seen) {reading : Reading} {index : ℕ}
    {item : Value} {custom : Bool} (kind : string (item.get "type") = callType custom)
    {run' : Emitting ResponsesToChat} (passes : announce serde reading run index item = .ok run') :
    Tracks serde upstream start origin run' (seen.announce index custom) := by
  have isCustom : decide ((item.field "type").asStr = some "custom_tool_call") = custom := by
    rw [asStr_type kind]
    cases custom <;> rfl
  simp only [ResponsesToChat.announce, isCustom] at passes
  cases known : run.self.tools[index]? with
  | some call =>
    rw [known] at passes
    cases passes
    have announced : seen.announce index custom = seen := by
      simp [Upstream.announce, tracks.lists.numbers, known]
    rw [announced]
    exact tracks
  | none =>
    rw [known] at passes
    simp only [bind_eq_ok] at passes
    obtain ⟨call, translated, passes⟩ := passes
    cases passes
    have absent : seen.numbers[index]? = none := by simp [tracks.lists.numbers, known]
    have fresh := tracks.lists.fresh _ le_rfl
    refine tracks.put lawful readsBack ?_ ?_ ?_
    · exact tracks.lists.announce known custom
    · simp only [callToChat, kind] at translated
      cases custom <;>
        · simp only [callType] at translated
          cases translated
          simp [Upstream.announce, absent, tracks.lists.size, Upstream.fragment, Upstream.extend,
            fragmentText, callField, argumentField, Value.field, fresh, Value.mapFloats,
            Value.nat, Value.asU64, Value.asStr]
    · simp [Upstream.announce, absent]

/-- The arguments of a closed call. -/
theorem Tracks.callArguments (lawful : serde.Lawful) (readsBack : serde.ReadsBack reread)
    (tracks : Tracks serde upstream start origin run seen) {index : ℕ} {item : Value}
    {custom : Bool} (kind : string (item.get "type") = callType custom)
    (announced : (run.self.tools[index]?).isSome) :
    Tracks serde upstream start origin (callArguments run index item)
      (seen.repeated index custom (string (item.get (argumentField custom)))) := by
  have isCustom : decide ((item.field "type").asStr = some "custom_tool_call") = custom := by
    rw [asStr_type kind]
    cases custom <;> rfl
  obtain ⟨⟨number, held⟩, known⟩ := Option.isSome_iff_exists.mp announced
  obtain ⟨-, text, call, noted, noOther⟩ := tracks.lists.listed index number held known
  have observed : (seen.numbers[index]?.bind fun number => seen.calls[number]?) =
      some ⟨held, text⟩ := by
    simp [tracks.lists.numbers, known, call]
  have before : (index, argumentField custom) ∈ run.self.emitted ↔
      held = custom ∧ text ≠ "" := by
    by_cases same : held = custom
    · subst same
      simp [noted]
    · have other : custom = !held := by cases held <;> cases custom <;> simp_all
      simp [other, noOther]
  simp only [ResponsesToChat.callArguments, isCustom, Upstream.repeated, observed,
    Option.getD_some, before]
  split
  · exact tracks
  · exact tracks.toolDelta lawful readsBack index _

/-- An item that is announced or closed. -/
theorem Tracks.item (lawful : serde.Lawful) (readsBack : serde.ReadsBack reread)
    (tracks : Tracks serde upstream start origin run seen) {reading : Reading} {index : ℕ}
    {closed : Value} {run' : Emitting ResponsesToChat}
    (passes : item serde reading run index closed = .ok run') :
    Tracks serde upstream start origin run' (seen.item index closed) := by
  have call : ∀ custom, string (closed.get "type") = callType custom → ∀ middle,
      ResponsesToChat.announce serde reading run index closed = .ok middle →
      Tracks serde upstream start origin (ResponsesToChat.callArguments middle index closed)
        ((seen.announce index custom).repeated index custom
          (string (closed.get (argumentField custom)))) := by
    intro custom kind middle announcing
    have announced := tracks.announce lawful readsBack kind announcing
    refine announced.callArguments lawful readsBack kind ?_
    have numbered : ((seen.announce index custom).numbers[index]?).isSome := by
      rw [Upstream.announce]
      split
      · assumption
      · simp
    simpa [announced.lists.numbers] using numbered
  simp only [ResponsesToChat.item] at passes
  split at passes
  · rename_i kind
    simp only [bind_eq_ok] at passes
    obtain ⟨middle, announcing, passes⟩ := passes
    cases passes
    simp only [Upstream.item, kind]
    exact call false kind middle announcing
  · rename_i kind
    simp only [bind_eq_ok] at passes
    obtain ⟨middle, announcing, passes⟩ := passes
    cases passes
    simp only [Upstream.item, kind]
    exact call true kind middle announcing
  · rename_i kind
    cases passes
    simp only [Upstream.item, kind]
    exact tracks.foldl (fun _ entry tracks => tracks.messagePart lawful readsBack index entry) _
  · rename_i kind
    cases passes
    simp only [Upstream.item, kind]
    exact tracks.foldl (fun _ entry tracks =>
      tracks.pushPart lawful readsBack index entry.2 (by decide) _) _
  · cases passes

/-- The items of a terminal response. -/
theorem Tracks.items (lawful : serde.Lawful) (readsBack : serde.ReadsBack reread)
    {reading : Reading} (entries : List (Value × ℕ))
    (tracks : Tracks serde upstream start origin run seen) {run' : Emitting ResponsesToChat}
    (passes : items serde reading run entries = .ok run') :
    Tracks serde upstream start origin run'
      (entries.foldl (fun seen entry => seen.item entry.2 entry.1) seen) := by
  induction entries generalizing run seen with
  | nil =>
    cases passes
    exact tracks
  | cons entry rest ih =>
    simp only [ResponsesToChat.items, bind_eq_ok] at passes
    obtain ⟨middle, first, passes⟩ := passes
    exact ih (tracks.item lawful readsBack first) passes

/-- What a fed run settles to: the second converter has ended, and so has the client. -/
def Ends (serde : SerdeJson) (upstream : Upstream) (start : MessagesClient) (origin : CcToAm)
    (run : Emitting ResponsesToChat) : Prop :=
  ∀ fed, RsToAm.feed serde { self := origin } run.out = .ok fed →
    ∃ client, start.receiveAll serde upstream fed.out = some client ∧
      fed.self.terminated = true ∧ client.ended = true

/-- A completed or incomplete response ends the stream. -/
theorem Tracks.complete (lawful : serde.Lawful) (readsBack : serde.ReadsBack reread)
    (tracks : Tracks serde upstream start origin run seen) {reading : Reading} {payload : Value}
    (calls : upstream.calls = ((((((payload.field "response").get "output").bind
      Value.asArray).getD []).zipIdx.foldl
        (fun upstream entry => upstream.item entry.2 entry.1) seen)).calls)
    (reported : upstream.reported = true) {run' : Emitting ResponsesToChat}
    (passes : complete serde reading run payload = .ok run') :
    Ends serde upstream start origin run' := by
  simp only [ResponsesToChat.complete, bind_eq_ok] at passes
  obtain ⟨middle, listing, passes⟩ := passes
  cases passes
  have listed := tracks.items lawful readsBack _ listing
  intro fed feeding
  have stopping : Tracks serde upstream start origin
      { middle with out := middle.out ++ [ResponsesToChat.chunk middle.self (.obj [])
        (.string (finishReason middle.self payload))
        (some (usage ((payload.field "response").field "usage") CC))] }
      { ((((payload.field "response").get "output").bind Value.asArray).getD []).zipIdx.foldl
          (fun seen entry => seen.item entry.2 entry.1) seen with reported := true } := by
    refine listed.chunk lawful readsBack (.obj []) (.string (finishReason middle.self payload)) rfl
      (by simp) (by simp) (by simp) ?_ (by simp) (by simp [Value.asStr])
    exact ⟨listed.lists.running, listed.lists.numbers, listed.lists.listed, listed.lists.distinct, listed.lists.silent,
      listed.lists.fresh⟩
  rw [show ∀ last : Frame, middle.out ++ [last, Frame.done] = (middle.out ++ [last]) ++ [Frame.done]
    from fun last => by simp, RsToAm.feed_append, bind_eq_ok] at feeding
  obtain ⟨before, feeding, last⟩ := feeding
  obtain ⟨client, taken, known⟩ := stopping.known before feeding
  simp only [RsToAm.feed, push_done, bind_eq_ok] at last
  obtain ⟨next, finished, last⟩ := last
  cases last
  obtain ⟨client', taken', ended⟩ :=
    CcToAm.finish_settles (Or.inr known) calls (fun _ => reported) finished
  exact ⟨client', by rw [MessagesClient.receiveAll_append taken, taken'], ended⟩

/-- An upstream error ends the stream. -/
theorem Tracks.fail (lawful : serde.Lawful) (readsBack : serde.ReadsBack reread)
    (tracks : Tracks serde upstream start origin run seen) (payload : Value) :
    Ends serde upstream start origin (fail run payload) := by
  intro fed feeding
  simp only [ResponsesToChat.fail] at feeding
  generalize ((payload.get "error").or _).getD _ = error at feeding
  rw [RsToAm.feed_append, bind_eq_ok] at feeding
  obtain ⟨before, feeding, last⟩ := feeding
  obtain ⟨client, taken, known⟩ := tracks.known before feeding
  simp only [RsToAm.feed, push_done, bind_eq_ok] at last
  obtain ⟨failed, pushed, last⟩ := last
  obtain ⟨next, finished, last⟩ := last
  cases last
  have passes := push_untyped lawful readsBack known.running (by simp) pushed
  have reports : ((Value.obj [("error", error)]).mapFloats reread).get "error" =
      some (error.mapFloats reread) := by simp
  obtain ⟨client', taken', terminated, ended⟩ := CcToAm.pushChunk_fails known passes reports
  rw [CcToAm.finish, if_pos terminated] at finished
  cases finished
  exact ⟨client', by rw [List.append_nil, MessagesClient.receiveAll_append taken, taken'],
    terminated, ended⟩

/-- A payload keeps the client informed, or ends its stream. -/
theorem Tracks.pushPayload (lawful : serde.Lawful) (readsBack : serde.ReadsBack reread)
    {self : ResponsesToChat} (reading : Reading) (payload : Value)
    (tracks : Tracks serde (seen.payload payload) start origin { self } seen)
    (passes : pushPayload serde self reading payload = .ok run) :
    Tracks serde (seen.payload payload) start origin run (seen.payload payload) ∨
      Ends serde (seen.payload payload) start origin run := by
  have named := tracks.named lawful readsBack reading payload
  simp only [ResponsesToChat.pushPayload] at passes
  split at passes <;> rename_i kind
  · exact Or.inl (by simpa only [Upstream.payload, kind] using named.item lawful readsBack passes)
  · exact Or.inl (by simpa only [Upstream.payload, kind] using named.item lawful readsBack passes)
  · cases passes
    have unseen : seen.payload payload = seen := by simp [Upstream.payload, kind]
    rw [unseen] at named ⊢
    exact Or.inl (named.pushDelta lawful readsBack _ payload)
  · cases passes
    have unseen : seen.payload payload = seen := by simp [Upstream.payload, kind]
    rw [unseen] at named ⊢
    exact Or.inl (named.pushDelta lawful readsBack _ payload)
  · cases passes
    have unseen : seen.payload payload = seen := by simp [Upstream.payload, kind]
    rw [unseen] at named ⊢
    exact Or.inl (named.pushDelta lawful readsBack _ payload)
  · cases passes
    exact Or.inl (by simpa only [Upstream.payload, kind] using
      named.toolDelta lawful readsBack _ _)
  · cases passes
    exact Or.inl (by simpa only [Upstream.payload, kind] using
      named.toolDelta lawful readsBack _ _)
  · exact Or.inr (named.complete lawful readsBack (by simp only [Upstream.payload, kind])
      (by simp only [Upstream.payload, kind]) passes)
  · exact Or.inr (named.complete lawful readsBack (by simp only [Upstream.payload, kind])
      (by simp only [Upstream.payload, kind]) passes)
  · cases passes
    exact Or.inr (named.fail lawful readsBack payload)
  · cases passes
    exact Or.inr (named.fail lawful readsBack payload)
  · cases passes
    refine Or.inl ?_
    have unseen : seen.payload payload = seen := by
      unfold Upstream.payload
      split <;> first | contradiction | rfl
    rw [unseen] at named ⊢
    exact named

end ResponsesToChat

namespace RsToAm

variable {serde : SerdeJson} {reread : String → String} {upstream seen : Upstream}
  {client : MessagesClient}

/-- The second converter puts nothing out once it has ended. -/
theorem feed_ended {run fed : Emitting CcToAm} (frames : List Frame)
    (ended : run.self.terminated = true) (feeding : feed serde run frames = .ok fed) :
    fed.out = run.out ∧ fed.self.terminated = true := by
  induction frames generalizing run with
  | nil =>
    cases feeding
    exact ⟨rfl, ended⟩
  | cons frame rest ih =>
    simp only [feed, bind_eq_ok] at feeding
    obtain ⟨next, pushed, feeding⟩ := feeding
    have silent : next = { self := run.self } := by
      simp only [CcToAm.push, bind_eq_ok] at pushed
      obtain ⟨parsed, -, pushed⟩ := pushed
      split at pushed
      · rw [CcToAm.finish, if_pos ended] at pushed
        cases pushed
        rfl
      · cases pushed
        rfl
    subst silent
    rw [List.append_nil] at feeding
    exact ih ended feeding

/-- What the client makes of the two converters between calls. -/
def Settled (held : RsToAm) (seen : Upstream) (client : MessagesClient) : Prop :=
  (held.anthropic.terminated = true ∧ client.ended = true) ∨
    (Known held.anthropic seen client ∧ held.chat.Lists seen)

/-- Every call settles. -/
theorem push_settles (lawful : serde.Lawful) (readsBack : serde.ReadsBack reread)
    {held : RsToAm} (settled : Settled held seen client) (reading : Reading) (raw : List Char)
    {run : Emitting RsToAm} (passes : push serde held reading raw = .ok run) :
    ∃ client', client.receiveAll serde (seen.observeResponses serde raw) run.out = some client' ∧
      Settled run.self (seen.observeResponses serde raw) client' := by
  simp only [push, bind_eq_ok] at passes
  obtain ⟨chat, pushed, fed, feeding, passes⟩ := passes
  cases passes
  rcases settled with ⟨terminated, ended⟩ | ⟨known, lists⟩
  · obtain ⟨silent, still⟩ := feed_ended _ terminated feeding
    exact ⟨client, by rw [silent]; rfl, Or.inl ⟨still, ended⟩⟩
  · have tracks : ∀ upstream, ResponsesToChat.Tracks serde upstream client held.anthropic
        { self := held.chat } seen := fun upstream =>
      ⟨fun fed feeding => by
        cases feeding
        exact ⟨client, rfl, known⟩, lists⟩
    have unheard : seen.observeResponses serde raw = seen → chat = { self := held.chat } →
        ∃ client', client.receiveAll serde (seen.observeResponses serde raw) fed.out =
            some client' ∧
          Settled { chat := chat.self, anthropic := fed.self }
            (seen.observeResponses serde raw) client' := by
      rintro unseen rfl
      cases feeding
      rw [unseen]
      exact ⟨client, rfl, Or.inr ⟨known, lists⟩⟩
    simp only [ResponsesToChat.push] at pushed
    split at pushed
    · rename_i done
      rw [lists.running] at done
      cases done
    · cases reading' : data serde raw with
      | error error =>
        rw [reading'] at pushed
        cases pushed
      | ok payload? =>
        cases payload? with
        | none =>
          rw [reading'] at pushed
          cases pushed
          exact unheard (by simp [Upstream.observeResponses, reading']) rfl
        | some payload =>
          rw [reading'] at pushed
          have observed : seen.observeResponses serde raw = seen.payload payload := by
            simp [Upstream.observeResponses, reading']
          rw [observed]
          rcases (tracks _).pushPayload lawful readsBack reading payload pushed with
            after | ends
          · obtain ⟨client', taken, known'⟩ := after.known fed feeding
            exact ⟨client', taken, Or.inr ⟨known', after.lists⟩⟩
          · obtain ⟨client', taken, ended⟩ := ends fed feeding
            exact ⟨client', taken, Or.inl ended⟩

/-- The end of the stream settles. -/
theorem finish_settles {held : RsToAm} (settled : Settled held seen client)
    {run : Emitting RsToAm} (passes : finish serde held = .ok run) :
    ∃ client', client.receiveAll serde seen run.out = some client' ∧ client'.ended = true := by
  simp only [finish, bind_eq_ok] at passes
  obtain ⟨chat, flushed, fed, feeding, last, finished, passes⟩ := passes
  cases passes
  simp only [ResponsesToChat.finish] at flushed
  split at flushed <;> cases flushed
  cases feeding
  have settled' : CcToAm.Settled held.anthropic seen client := settled.imp_right And.left
  obtain ⟨client', taken, -, ended⟩ :=
    CcToAm.finish_settles settled' rfl (fun reported => reported) finished
  exact ⟨client', taken, ended⟩

end RsToAm
end Aipass.Conversion
