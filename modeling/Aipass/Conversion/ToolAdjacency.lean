import Aipass.Conversion.ItemTurns
import Aipass.Conversion.MessageTurns

/-!
# Tool adjacency of converted chat requests

An upstream takes a chat request only if the tool messages that answer the calls of an assistant
message follow it at once. For requests whose calls are answered where their own protocol wants
the answers, this holds exactly when the messages or items come in turns.
-/
namespace Aipass.Conversion

/-- The blocks of every `tool_use` of an assistant message are answered in the next message, the
user's, whose results come before its texts and images. -/
def AnswersUses (messages : List Value) : Prop :=
  ∀ before message after, messages = before ++ message :: after →
    messageRole message = "assistant" → ∀ block ∈ blocksOf message, blockType block = "tool_use" →
      ∃ next rest id, after = next :: rest ∧ messageRole next = "user" ∧ block.get "id" = some id ∧
        (∃ result ∈ blocksOf next, blockType result = "tool_result" ∧
          result.get "tool_use_id" = some id) ∧
        ∀ front result back, blocksOf next = front ++ result :: back →
          blockType result = "tool_result" →
            ∀ other ∈ front, blockType other ≠ "text" ∧ blockType other ≠ "image"

/-- Every function call item is answered by one later output, with only calls, outputs and
reasoning between them. -/
def AnswersCalls (items : List Value) : Prop :=
  ∀ before item after, items = before ++ item :: after → itemKind item = "function_call" →
    ∃ id between answer rest, item.get "call_id" = some id ∧ after = between ++ answer :: rest ∧
      itemKind answer = "function_call_output" ∧ answer.get "call_id" = some id ∧
      (∀ other ∈ between,
        itemKind other ∈ ["function_call", "function_call_output", "reasoning"]) ∧
      ∀ other ∈ between ++ rest, itemKind other = "function_call_output" →
        other.get "call_id" ≠ some id

/-- The calls of a request are answered as its protocol wants it. -/
def CallsAreAnswered : ProxyProtocol → Value → Prop
  | AM, payload => AnswersUses (((payload.get "messages").bind Value.asArray).getD [])
  | RS, payload => AnswersCalls (((payload.get "input").bind Value.asArray).getD [])
  | CC, _ => True

/-- The messages or items of a request come in turns. -/
def InTurns (unique : ℕ → String) : ProxyProtocol → Value → Prop
  | AM, payload => MessagesInTurns 0 (((payload.get "messages").bind Value.asArray).getD [])
  | RS, payload => ItemsInTurns unique 0 (((payload.get "input").bind Value.asArray).getD [])
  | CC, _ => True

/-- The reasoning settings keep an object an object. -/
theorem isObject_amThinking {out : Value} (isObject : out.IsObject) (src : Value)
    (target : ProxyProtocol) : (amThinking src target out).IsObject := by
  rw [amThinking]
  split
  · exact isObject
  · by_cases chat : target = CC
    · simp only [if_pos chat, Value.isObject_set isObject]
    · simp only [if_neg chat, Value.isObject_set isObject]

/-- The messages of a converted Anthropic request, behind messages that make no calls. -/
theorem messagesOf_amToCc {serde : SerdeJson} {payload out : Value}
    (converted : amToCc serde payload = .ok out) :
    ∃ system : List Value, (∀ message ∈ system, noticeOf message = .other) ∧
      messagesOf out = system ++
        amMessagesToCc serde 0 (((payload.get "messages").bind Value.asArray).getD []) := by
  simp only [amToCc, bind_eq_ok, okOr_eq_ok, Except.ok.injEq] at converted
  obtain ⟨⟨⟩, -, messages, listed, made⟩ := converted
  have base := isObject_pass (isObject_amThinking (Value.isObject_obj []) payload CC) payload
    ["model", "stream", "temperature", "top_p"]
  have whole := fun limit stop => isObject_setSome (isObject_setSome base "max_tokens" limit)
    "stop" stop
  rw [listed, Option.getD_some]
  refine ⟨(amSystemText (payload.get "system")).toList.map fun text : String =>
    .obj [("role", "system"), ("content", text)], ?_, messagesOf_eq ?_⟩
  · intro message inside
    obtain ⟨text, -, rfl⟩ := List.mem_map.mp inside
    rw [noticeOf_own, ownNotice, if_neg (by decide)]
  · rw [← made]
    refine (get_setSome (isObject_setSome (Value.isObject_set (whole ..) ..) ..) (by decide)
      _).trans ?_
    refine (get_setSome (Value.isObject_set (whole ..) ..) (by decide) _).trans ?_
    exact (Value.get_set (whole ..) ..).trans (if_pos rfl)

/-- Messages that make no calls leave nothing waiting. -/
theorem settleAll_others {messages : List Value}
    (others : ∀ message ∈ messages, noticeOf message = .other) :
    settleAll (some []) (messages.map noticeOf) = some [] := by
  induction messages with
  | nil => rfl
  | cons message messages ih =>
    rw [List.map_cons, settleAll_cons, others message (List.mem_cons_self ..)]
    exact ih fun other inside => others other (List.mem_cons_of_mem _ inside)

/-- The tool messages of a converted Anthropic request are adjacent exactly when its messages
come in turns. -/
theorem adjacent_amToCc {serde : SerdeJson} {payload out : Value}
    (converted : amToCc serde payload = .ok out) :
    ToolsAdjacent (messagesOf out) ↔
      MessagesInTurns 0 (((payload.get "messages").bind Value.asArray).getD []) := by
  obtain ⟨system, others, listed⟩ := messagesOf_amToCc converted
  rw [ToolsAdjacent, paired_iff, listed, List.map_append, settleAll_append,
    settleAll_others others, notices_amMessagesToCc, settled_iff_turns]

open OpenAi in
/-- The choice of a tool leaves the messages alone. -/
theorem messages_of_choice {before out : Value} (isObject : before.IsObject)
    {choice : Option Value}
    (chosen : (match choice with
      | none => Except.ok before
      | some choice => do
        let choice ← convertChoice RS choice
        Except.ok (before.set "tool_choice" choice)) = .ok out) :
    out.get "messages" = before.get "messages" := by
  cases choice with
  | none =>
    cases chosen
    rfl
  | some choice =>
    simp only [bind_eq_ok, Except.ok.injEq] at chosen
    obtain ⟨choice', -, rfl⟩ := chosen
    rw [Value.get_set isObject, if_neg (by decide)]

open OpenAi in
/-- The messages of a converted Responses request are those of its instructions and its input. -/
theorem messagesOf_request {serde : SerdeJson} {unique : ℕ → String} {payload out : Value}
    (converted : OpenAi.request serde unique RS payload = .ok out) :
    ∃ instructions, instructionsMessage payload = .ok instructions ∧
      responsesInput serde unique instructions (payload.get "input") = .ok (messagesOf out) := by
  rw [request, bind_eq_ok] at converted
  obtain ⟨⟨⟩, -, converted⟩ := converted
  simp only [bind_eq_ok, if_neg (show RS ≠ CC by decide)] at converted
  obtain ⟨middle, made, tooled⟩ := converted
  simp only [responsesRequest, bind_eq_ok, Except.ok.injEq] at made
  obtain ⟨⟨⟩, -, instructions, told, messages, taken, rfl⟩ := made
  refine ⟨instructions, told, ?_⟩
  have base := isObject_pass (Value.isObject_obj []) payload sharedFields
  have head := isObject_setSome (isObject_setSome (isObject_setSome base
    "max_completion_tokens" (payload.get "max_output_tokens"))
    "reasoning_effort" (payload.pointer ["reasoning", "effort"]))
    "response_format" ((payload.pointer ["text", "format"]).map formatToChat)
  have isObject := Value.isObject_set head "messages" (.array messages)
  have found := (Value.get_set head "messages" "messages" (.array messages)).trans (if_pos rfl)
  rw [taken]
  refine congrArg Except.ok (messagesOf_eq ?_).symm
  cases listed : (payload.get "tools").bind Value.asArray with
  | none =>
    rw [listed] at tooled
    exact (messages_of_choice isObject tooled).trans found
  | some tools =>
    rw [listed, bind_eq_ok] at tooled
    obtain ⟨converted, -, chosen⟩ := tooled
    refine (messages_of_choice (Value.isObject_set isObject ..) chosen).trans ?_
    rw [Value.get_set isObject, if_neg (by decide)]
    exact found

open OpenAi in
/-- Instructions are a message that makes no call. -/
theorem settleAll_instructions {payload : Value} {instructions : List Value}
    (told : instructionsMessage payload = .ok instructions) :
    (∀ message ∈ instructions, noticeOf message = .other) ∧
      ∀ message ∈ instructions, message.field "role" ≠ .string "assistant" := by
  rw [instructionsMessage] at told
  split at told
  · cases told
    simp
  · cases told
    constructor
    · intro message inside
      rw [List.mem_singleton.mp inside, noticeOf_own, ownNotice, if_neg (by decide)]
    · intro message inside
      rw [List.mem_singleton.mp inside]
      simp [Value.field]
  · cases told

open OpenAi in
/-- The tool messages of a converted Responses request are adjacent exactly when its items come
in turns. -/
theorem adjacent_request {serde : SerdeJson} {unique : ℕ → String} {payload out : Value}
    (converted : OpenAi.request serde unique RS payload = .ok out) :
    ToolsAdjacent (messagesOf out) ↔
      ItemsInTurns unique 0 (((payload.get "input").bind Value.asArray).getD []) := by
  obtain ⟨instructions, told, taken⟩ := messagesOf_request converted
  obtain ⟨others, noAssistant⟩ := settleAll_instructions told
  rw [ToolsAdjacent, paired_iff]
  cases input : payload.get "input" with
  | none =>
    rw [input] at taken
    cases taken
  | some value =>
    rw [input] at taken
    cases value with
    | null | bool _ | number _ | object _ => cases taken
    | string text =>
      rw [responsesInput, Except.ok.injEq] at taken
      rw [← taken]
      refine iff_of_true (settleAll_others ?_) .nil
      intro message inside
      rcases List.mem_append.mp inside with inside | inside
      · exact others message inside
      · rw [List.mem_singleton.mp inside, noticeOf_own, ownNotice, if_neg (by decide)]
    | array items =>
      simp only [responsesInput, bind_eq_ok, Except.ok.injEq] at taken
      obtain ⟨last, pushed, closed⟩ := taken
      have start : Scans { messages := instructions } {} := by
        refine ⟨settleAll_others others, ?_, by simp, by simp, rfl⟩
        refine iff_of_false (by simp) ?_
        rintro ⟨message, found, assistant⟩
        exact noAssistant message (List.mem_of_getLast? found) assistant
      rw [← closed, scans_close (scans_foldlM start pushed), Option.bind_some,
        Value.asArray_array, Option.getD_some]
      exact Scan.leaves_iff_turns rfl

/-- A converted request whose calls are answered has its tool messages in place exactly when its
calls and results come in turns. -/
theorem toolsAdjacent_iff (serde : SerdeJson) (unique : ℕ → String) {source : ProxyProtocol}
    (foreign : source ≠ CC) {payload out : Value}
    (converted : convertRequest serde unique source CC payload = .ok out) :
    (CallsAreAnswered source payload → ToolsAdjacent (messagesOf out)) ↔
      (CallsAreAnswered source payload → InTurns unique source payload) := by
  rw [convertRequest, if_neg foreign] at converted
  simp only [convert, bind_eq_ok] at converted
  obtain ⟨⟨⟩, -, converted⟩ := converted
  refine imp_congr_right fun _ => ?_
  cases source with
  | openAiChatCompletions => exact absurd rfl foreign
  | anthropicMessages => exact adjacent_amToCc converted
  | openAiResponses => exact adjacent_request converted

/-- A call and its result, with what the user says in the message of the result. -/
theorem answersUses_pair {asked said : Value} {id : Value} {result : Value} {words : List Value}
    (uses : ∀ block ∈ blocksOf asked, blockType block = "tool_use" → block.get "id" = some id)
    (listed : blocksOf said = result :: words) (kind : blockType result = "tool_result")
    (known : result.get "tool_use_id" = some id) (role : messageRole said = "user")
    (noResults : ∀ word ∈ words, blockType word ≠ "tool_result") :
    AnswersUses [asked, said] := by
  intro before message after split assistant block inside use
  rcases before with _ | ⟨first, _ | ⟨second, before⟩⟩
  · obtain ⟨rfl, rfl⟩ := List.cons.inj split
    refine ⟨said, [], id, rfl, role, uses block inside use, ⟨result, ?_, kind, known⟩, ?_⟩
    · rw [listed]
      exact List.mem_cons_self ..
    · intro front other back parted answers
      rw [listed] at parted
      rcases front with _ | ⟨head, front⟩
      · simp
      · rw [List.cons_append, List.cons.injEq] at parted
        refine absurd answers (noResults other ?_)
        rw [parted.2]
        exact List.mem_append_right _ (List.mem_cons_self ..)
  · simp only [List.singleton_append, List.cons.injEq] at split
    rw [← split.2.1, role] at assistant
    exact absurd assistant (by decide)
  · simp at split

namespace Sample

/-- A call and its result. -/
def answered : Value :=
  .obj [("messages", .array [
    .obj [("role", "assistant"), ("content", .array [toolUse "a" "f" (.obj [])])],
    .obj [("role", "user"), ("content", .array [toolResult "a" "1"])]])]

/-- A call and its result, behind which the user has something to say. -/
def remarked : Value :=
  .obj [("messages", .array [
    .obj [("role", "assistant"), ("content", .array [toolUse "a" "f" (.obj [])])],
    .obj [("role", "user"), ("content", .array [toolResult "a" "1", textBlock "go on"])]])]

end Sample

/-- The tool message of a call that is answered is in its place. -/
theorem toolsAdjacent_answered : ∃ out,
    convertRequest Sample.silentSerde (fun _ => "") AM CC Sample.answered = .ok out ∧
      ToolsAdjacent (messagesOf out) := by
  have inTurns : InTurns (fun _ => "") AM Sample.answered := turns_of_settled rfl
  have answered : CallsAreAnswered AM Sample.answered := by
    refine @answersUses_pair _ _ "a" _ _ ?_ rfl rfl rfl rfl (by simp)
    intro block inside _
    rw [List.mem_singleton.mp inside]
    rfl
  exact ⟨_, rfl, (toolsAdjacent_iff Sample.silentSerde (fun _ => "") (by decide) rfl).mpr
    (fun _ => inTurns) answered⟩

/-- What the user says behind a result is put out in front of it. -/
theorem adjacency_breaks :
    ¬ ∀ (serde : SerdeJson) (unique : ℕ → String) (source : ProxyProtocol), source ≠ CC →
      ∀ payload out, convertRequest serde unique source CC payload = .ok out →
        CallsAreAnswered source payload → ToolsAdjacent (messagesOf out) := by
  intro every
  have answered : CallsAreAnswered AM Sample.remarked := by
    refine @answersUses_pair _ _ "a" _ _ ?_ rfl rfl rfl rfl ?_
    · intro block inside _
      rw [List.mem_singleton.mp inside]
      rfl
    · intro word inside
      rw [List.mem_singleton.mp inside]
      decide
  have adjacent := every Sample.silentSerde (fun _ => "") AM (by decide) Sample.remarked _ rfl
    answered
  have converted : ∀ out, convertRequest Sample.silentSerde (fun _ => "") AM CC Sample.remarked =
      .ok out → amToCc Sample.silentSerde Sample.remarked = .ok out := fun _ made => made
  have settled := settled_of_turns ((adjacent_amToCc (converted _ rfl)).mp adjacent)
  exact absurd settled (by decide)

end Aipass.Conversion
