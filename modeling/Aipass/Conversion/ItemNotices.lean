import Aipass.Conversion.ToolNotices

/-!
# Calls and results of Responses items

The loop over the items of a Responses request is followed by a scan that keeps what matters for
the order of calls and results: the calls without an answer, whether the last message is the
assistant's, and whether reasoning or images of results wait.
-/
namespace Aipass.Conversion

open OpenAi

/-- The kind of an item. -/
def itemKind (item : Value) : String := string (item.get "type")

/-- The identifier of a call of Chat Completions. -/
def chatCallId (unique : String) (item : Value) : String :=
  OpenAi.callId unique ((item.get "call_id").or (item.get "id"))

/-- A result has a part that is no text. -/
def hasImages (item : Value) : Bool :=
  ((item.field "output").asArray.getD []).any fun part =>
    string (part.get "type") ∉ ["input_text", "output_text"]

/-- The reasoning of an item. -/
def itemThought (item : Value) : String :=
  String.join ((((item.get "summary").bind Value.asArray).getD []).map fun part =>
    string (part.get "text"))

/-- What a scan of items keeps. -/
structure Scan where
  /-- The calls without an answer, unless something stood in the wrong place. -/
  waiting : Option (List (Option Value)) := some []
  /-- The last message is the assistant's, so that a call joins it. -/
  joins : Bool := false
  /-- Reasoning waits for the next message of the assistant. -/
  thinking : Bool := false
  /-- Images of results wait for the next item that is no result. -/
  images : Bool := false
  /-- The items taken so far. -/
  taken : ℕ := 0

namespace Scan

/-- Waiting images are put out. -/
def flush (scan : Scan) : Scan :=
  if scan.images then
    { scan with waiting := settle scan.waiting .other, joins := false, images := false }
  else scan

/-- A message. -/
def message (scan : Scan) (role : Value) : Scan :=
  { scan with
    waiting := settle scan.waiting (if role = .string "tool" then .answer none else .other)
    joins := role = .string "assistant"
    thinking := scan.thinking ∧ role ≠ .string "assistant" }

/-- A call: it joins the last message, or starts one. -/
def call (scan : Scan) (id : String) : Scan :=
  if scan.joins ∧ ¬ scan.thinking then
    { scan with waiting := scan.waiting.map (· ++ [some (.string id)]) }
  else
    { scan with
      waiting := settle scan.waiting (.calls [some (.string id)]), joins := true,
      thinking := false }

/-- A result. -/
def output (scan : Scan) (item : Value) : Scan :=
  { scan with
    waiting := settle scan.waiting (.answer (some (item.field "call_id")))
    joins := false
    images := scan.images ∨ hasImages item }

/-- One item. -/
def push (unique : ℕ → String) (scan : Scan) (item : Value) : Scan :=
  let next := { scan with taken := scan.taken + 1 }
  match itemKind item with
  | "function_call_output" | "custom_tool_call_output" => next.output item
  | "function_call" | "custom_tool_call" =>
    next.flush.call (chatCallId (unique scan.taken) item)
  | "reasoning" => { next.flush with thinking := scan.thinking ∨ itemThought item ≠ "" }
  | _ => next.flush.message (item.field "role")

/-- The end of the items. -/
def close (scan : Scan) : Option (List (Option Value)) :=
  if scan.thinking then settle scan.flush.waiting .other else scan.flush.waiting

end Scan

/-- The scan of a loop keeps what it is to keep. -/
structure Scans (state : ItemsState) (scan : Scan) : Prop where
  waiting : settleAll (some []) (state.messages.map noticeOf) = scan.waiting
  joins : scan.joins = true ↔ ∃ last, state.messages.getLast? = some last ∧
    last.field "role" = .string "assistant"
  thinking : scan.thinking = true ↔ state.reasoning ≠ ""
  images : scan.images = true ↔ state.toolImages ≠ []
  taken : scan.taken = state.taken

/-- The notices of one message more. -/
theorem settleAll_concat (messages : List Value) (message : Value) :
    settleAll (some []) ((messages ++ [message]).map noticeOf) =
      settle (settleAll (some []) (messages.map noticeOf)) (noticeOf message) := by
  rw [List.map_append, settleAll_append]
  rfl

/-- Waiting images are put out in both. -/
theorem scans_flush {state : ItemsState} {scan : Scan} (scans : Scans state scan) :
    Scans state.flushImages scan.flush := by
  obtain ⟨waiting, joins, thinking, images, taken⟩ := scans
  by_cases none_ : state.toolImages = []
  · have calm : scan.images = false := by simpa [none_] using images
    rw [ItemsState.flushImages, if_pos none_, Scan.flush, calm]
    exact ⟨waiting, joins, thinking, by simp [calm, none_], taken⟩
  · have held : scan.images = true := images.mpr none_
    rw [ItemsState.flushImages, if_neg none_, Scan.flush, if_pos held]
    refine ⟨?_, ?_, thinking, by simp, taken⟩
    · rw [settleAll_concat, waiting, noticeOf_own]
      rfl
    · simp [Value.field]

/-- The reasoning that waits makes no notice. -/
theorem noticeOf_withReasoning (state : ItemsState) {message : Value}
    (isObject : message.IsObject) :
    noticeOf (state.withReasoning message) = noticeOf message ∧
      (state.withReasoning message).field "role" = message.field "role" := by
  have field : ∀ key, "reasoning_content" ≠ key →
      (state.withReasoning message).get key = message.get key := by
    intro key other
    exact get_ite_set isObject other ..
  have role : (state.withReasoning message).field "role" = message.field "role" := by
    rw [Value.field, field "role" (by decide), Value.field]
  refine ⟨?_, role⟩
  rw [noticeOf, role, field "tool_call_id" (by decide), ccToolCalls,
    field "tool_calls" (by decide)]
  rfl

/-- A message item makes no call. -/
theorem noticeOf_message (role content : Value) :
    noticeOf (.obj [("role", role), ("content", content)]) =
      if role = .string "tool" then .answer none else .other := by
  by_cases tool : role = .string "tool"
  · simp [noticeOf, Value.field, tool]
  · simp [noticeOf, Value.field, ccToolCalls, tool]

/-- A message item is scanned. -/
theorem scans_message {state next : ItemsState} {scan : Scan} (scans : Scans state scan)
    {item : Value} (pushed : state.pushMessage item = .ok next) :
    Scans next (scan.message (item.field "role")) := by
  obtain ⟨waiting, joins, thinking, images, taken⟩ := scans
  simp only [ItemsState.pushMessage, bind_eq_ok] at pushed
  obtain ⟨body, -, made⟩ := pushed
  have isObject := Value.isObject_obj [("role", item.field "role"), ("content", body)]
  obtain ⟨same, role⟩ := noticeOf_withReasoning state isObject
  have own : (Value.obj [("role", item.field "role"), ("content", body)]).field "role" =
      item.field "role" := by
    rw [Value.field, Value.get_obj_cons, if_pos rfl, Option.getD_some]
  by_cases assistant : item.field "role" = .string "assistant"
  · rw [if_pos assistant] at made
    cases made
    refine ⟨?_, ?_, by simp [Scan.message, assistant], images, taken⟩
    · rw [settleAll_concat, waiting, same, noticeOf_message]
      rfl
    · have assistant' := (role.trans own).trans assistant
      rw [assistant] at assistant'
      simp [Scan.message, assistant, assistant']
  · rw [if_neg assistant] at made
    cases made
    refine ⟨?_, ?_, by simp [Scan.message, assistant, thinking], images, taken⟩
    · rw [settleAll_concat, waiting, noticeOf_message]
      rfl
    · simp [Scan.message, own, assistant]

/-- A call keeps its identifier. -/
theorem id_callToChat {serde : SerdeJson} {unique : String} {item call : Value}
    (converted : callToChat serde unique item = .ok call) :
    call.get "id" = some (.string (chatCallId unique item)) := by
  rw [callToChat] at converted
  split at converted
  · cases converted
    simp [chatCallId, OpenAi.callId]
  · cases converted
    simp [chatCallId, OpenAi.callId]
  · cases converted

/-- A call that joins a message is one of its calls. -/
theorem noticeOf_addCall {message call : Value} (isObject : message.IsObject)
    (assistant : message.field "role" = .string "assistant") :
    noticeOf (ItemsState.addCall message call) =
        .calls ((ccToolCalls message).map (fun call => call.get "id") ++ [call.get "id"]) ∧
      (ItemsState.addCall message call).field "role" = .string "assistant" := by
  have role : (ItemsState.addCall message call).field "role" = .string "assistant" := by
    rw [Value.field, ItemsState.addCall, Value.get_set isObject, if_neg (by decide)]
    exact assistant
  have calls : ccToolCalls (ItemsState.addCall message call) = ccToolCalls message ++ [call] := by
    rw [ccToolCalls, ItemsState.addCall, Value.get_set isObject, if_pos rfl]
    rfl
  refine ⟨?_, role⟩
  simp [noticeOf, role, calls]

/-- A value with a role is an object. -/
theorem isObject_of_field {message : Value} {key text : String}
    (found : message.field key = .string text) : message.IsObject := by
  cases message with
  | object fields => trivial
  | null | bool _ | number _ | string _ | array _ => cases found

/-- A call that joins the last message is one more to be answered. -/
theorem settle_addCall (waiting : Option (List (Option Value))) {message call : Value}
    (assistant : message.field "role" = .string "assistant") :
    settle waiting (noticeOf (ItemsState.addCall message call)) =
      (settle waiting (noticeOf message)).map (· ++ [call.get "id"]) := by
  rw [(noticeOf_addCall (isObject_of_field assistant) assistant).1]
  by_cases none_ : ccToolCalls message = []
  · have other : noticeOf message = .other := by simp [noticeOf, assistant, none_]
    rw [other, none_]
    exact settle_calls_other waiting _
  · have calls : noticeOf message =
        .calls ((ccToolCalls message).map fun call => call.get "id") := by
      simp [noticeOf, assistant, none_]
    rw [calls]
    exact settle_calls_concat waiting _ _

/-- A call item is scanned. -/
theorem scans_call {state : ItemsState} {scan : Scan} (scans : Scans state scan) {call : Value}
    {id : String} (known : call.get "id" = some (.string id)) :
    Scans (state.pushCall call) (scan.call id) := by
  obtain ⟨waiting, joins, thinking, images, taken⟩ := scans
  rw [ItemsState.pushCall, Scan.call]
  by_cases join : scan.joins = true ∧ ¬ scan.thinking = true
  · obtain ⟨last, found, assistant⟩ := joins.mp join.1
    have calm : state.reasoning = "" := by
      by_contra some_
      exact join.2 (thinking.mpr some_)
    have chosen : (state.messages.getLast?.filter fun message =>
        message.field "role" = .string "assistant" ∧ state.reasoning = "") = some last := by
      rw [found, Option.filter_some, if_pos (by simp [assistant, calm])]
    rw [chosen, if_pos join]
    have split : state.messages = state.messages.dropLast ++ [last] := by
      obtain ⟨front, whole⟩ := List.getLast?_eq_some_iff.mp found
      rw [whole]
      simp
    refine ⟨?_, ?_, thinking, images, taken⟩
    · rw [settleAll_concat, settle_addCall _ assistant, ← settleAll_concat, ← split, waiting, known]
    · simp [join.1, (noticeOf_addCall (isObject_of_field assistant) assistant).2]
  · have alone : (state.messages.getLast?.filter fun message =>
        message.field "role" = .string "assistant" ∧ state.reasoning = "") = none := by
      rw [Option.filter_eq_none_iff]
      intro last found joined
      simp only [decide_eq_true_eq] at joined
      exact join ⟨joins.mpr ⟨last, found, joined.1⟩,
        fun held => thinking.mp held joined.2⟩
    rw [alone, if_neg join]
    have isObject := Value.isObject_obj [("role", "assistant"), ("content", .null),
      ("tool_calls", .array [call])]
    obtain ⟨same, role⟩ := noticeOf_withReasoning state isObject
    refine ⟨?_, ?_, by simp, images, taken⟩
    · rw [settleAll_concat, waiting, same, noticeOf_calls (List.cons_ne_nil _ _),
        List.map_singleton, known]
    · have own : (Value.obj [("role", "assistant"), ("content", .null),
          ("tool_calls", .array [call])]).field "role" = .string "assistant" := by
        rw [Value.field, Value.get_obj_cons, if_pos rfl, Option.getD_some]
      simp [role, own]

/-- A converted part is a text exactly when the original is. -/
theorem type_contentPart {part out : Value} (converted : contentPart CC false part = .ok out) :
    out.field "type" = .string "text" ↔
      string (part.get "type") ∈ ["input_text", "output_text"] := by
  by_cases text : string (part.get "type") = "input_text" ∨ string (part.get "type") = "output_text"
  · refine iff_of_true ?_ (by simpa using text)
    rcases text with kind | kind
    all_goals
      rw [contentPart.eq_def, kind] at converted
      cases converted
      simp [Value.field]
  · refine iff_of_false ?_ (by simpa using text)
    by_cases image : string (part.get "type") = "input_image"
    · rw [contentPart.eq_def, image] at converted
      cases url : part.get "image_url" with
      | none =>
        simp only [url] at converted
        cases converted
      | some url' =>
        simp only [url] at converted
        cases converted
        simp [Value.field]
    · by_cases file : string (part.get "type") = "input_file"
      · rw [contentPart.eq_def, file] at converted
        cases converted
        simp [Value.field]
      · simp [contentPart.eq_def, not_or.mp text, image, file] at converted

/-- A converted result has a part that is no text exactly when the original has. -/
theorem others_of_parts {parts out : List Value}
    (converted : parts.mapM (contentPart CC false) = .ok out) :
    (out.filter fun part => part.field "type" ≠ .string "text") ≠ [] ↔
      (parts.any fun part => string (part.get "type") ∉ ["input_text", "output_text"]) = true := by
  induction parts generalizing out with
  | nil =>
    cases converted
    simp
  | cons part parts ih =>
    simp only [List.mapM_cons, bind_eq_ok, pure, Except.pure, Except.ok.injEq] at converted
    obtain ⟨first, head, rest, tail, rfl⟩ := converted
    have kind := type_contentPart head
    rw [List.any_cons, Bool.or_eq_true, ← ih tail]
    by_cases text : first.field "type" = .string "text"
    · rw [List.filter_cons_of_neg (by simp [text])]
      simp [kind.mp text]
    · have foreign : string (part.get "type") ∉ ["input_text", "output_text"] :=
        fun known => text (kind.mpr known)
      rw [List.filter_cons_of_pos (by simp [text])]
      exact iff_of_true (List.cons_ne_nil _ _) (Or.inl (by simpa using foreign))

/-- A result item is scanned. -/
theorem scans_output {state next : ItemsState} {scan : Scan} (scans : Scans state scan)
    {item : Value} (pushed : state.pushOutput item = .ok next) : Scans next (scan.output item) := by
  obtain ⟨waiting, joins, thinking, images, taken⟩ := scans
  simp only [ItemsState.pushOutput, bind_eq_ok] at pushed
  obtain ⟨converted, whole, ⟨text, others⟩, split, ⟨⟩⟩ := pushed
  have found : others ≠ [] ↔ hasImages item = true := by
    rw [hasImages]
    cases output : item.field "output" with
    | string value =>
      rw [output] at whole
      cases whole
      cases split
      simp [Value.asArray]
    | array parts =>
      rw [output] at whole
      simp only [content, bind_eq_ok, Except.ok.injEq] at whole
      obtain ⟨out, mapped, rfl⟩ := whole
      cases split
      exact others_of_parts mapped
    | null =>
      rw [output] at whole
      cases whole
      cases split
    | bool _ | number _ | object _ =>
      rw [output] at whole
      cases whole
  refine ⟨?_, ?_, thinking, ?_, taken⟩
  · rw [settleAll_concat, waiting]
    simp [noticeOf, Scan.output, Value.field]
  · simp [Scan.output, Value.field]
  · simp only [Scan.output, decide_eq_true_eq]
    rw [images, ← found, ne_eq, ne_eq, ne_eq, List.append_eq_nil_iff, not_and_or]

/-- A reasoning item is scanned. -/
theorem scans_reasoning {state : ItemsState} {scan before : Scan} (scans : Scans state scan)
    (thinking : before.thinking = true ↔ state.reasoning ≠ "") (item : Value) :
    Scans (state.pushReasoning item)
      { scan with thinking := before.thinking ∨ itemThought item ≠ "" } := by
  refine ⟨scans.waiting, scans.joins, ?_, scans.images, scans.taken⟩
  simp only [decide_eq_true_eq, thinking, ItemsState.pushReasoning]
  rw [ne_eq, ne_eq, ne_eq, ← not_and_or, ← String.append_eq_empty_iff]
  rfl

/-- One item is scanned. -/
theorem scans_push {serde : SerdeJson} {unique : ℕ → String} {state next : ItemsState}
    {scan : Scan} (scans : Scans state scan) {item : Value}
    (pushed : state.push serde unique item = .ok next) : Scans next (scan.push unique item) := by
  have count : Scans { state with taken := state.taken + 1 } { scan with taken := scan.taken + 1 } :=
    ⟨scans.waiting, scans.joins, scans.thinking, scans.images, by rw [scans.taken]⟩
  rw [ItemsState.push] at pushed
  rw [Scan.push, itemKind]
  revert pushed
  generalize string (item.get "type") = kind
  split
  · exact scans_output count
  · exact scans_output count
  · intro pushed
    split at pushed
    · exact scans_message (scans_flush count) pushed
    · cases pushed
  · intro pushed
    split at pushed
    · exact scans_message (scans_flush count) pushed
    · cases pushed
  · intro pushed
    simp only [bind_eq_ok, Except.ok.injEq, Nat.add_sub_cancel] at pushed
    obtain ⟨call, converted, rfl⟩ := pushed
    rw [← scans.taken] at converted
    exact scans_call (scans_flush count) (id_callToChat converted)
  · intro pushed
    simp only [bind_eq_ok, Except.ok.injEq, Nat.add_sub_cancel] at pushed
    obtain ⟨call, converted, rfl⟩ := pushed
    rw [← scans.taken] at converted
    exact scans_call (scans_flush count) (id_callToChat converted)
  · rintro ⟨⟩
    refine scans_reasoning (scans_flush count) ?_ item
    rw [ItemsState.flushImages]
    split <;> exact scans.thinking
  · rintro ⟨⟩

/-- A loop over items is scanned. -/
theorem scans_foldlM {serde : SerdeJson} {unique : ℕ → String} {items : List Value}
    {state last : ItemsState} {scan : Scan} (scans : Scans state scan)
    (taken : items.foldlM (ItemsState.push serde unique) state = .ok last) :
    Scans last (items.foldl (Scan.push unique) scan) := by
  induction items generalizing state scan with
  | nil =>
    cases taken
    exact scans
  | cons item items ih =>
    rw [List.foldlM_cons, bind_eq_ok] at taken
    obtain ⟨next, first, rest⟩ := taken
    exact ih (scans_push scans first) rest

/-- The end of the items is scanned. -/
theorem scans_close {state : ItemsState} {scan : Scan} (scans : Scans state scan) :
    settleAll (some []) (state.close.map noticeOf) = scan.close := by
  obtain ⟨waiting, -, thinking, -, -⟩ := scans_flush scans
  have kept : scan.flush.thinking = scan.thinking := by
    rw [Scan.flush]
    split <;> rfl
  rw [kept] at thinking
  rw [ItemsState.close, Scan.close]
  by_cases calm : state.flushImages.reasoning = ""
  · rw [if_pos calm, List.append_nil, waiting, if_neg]
    exact fun held => thinking.mp held calm
  · rw [if_neg calm, settleAll_concat, waiting, if_pos (thinking.mpr calm)]
    simp [noticeOf, Value.field, ccToolCalls]

end Aipass.Conversion
