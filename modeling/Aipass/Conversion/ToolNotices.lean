import Aipass.Base.Pairing
import Aipass.Conversion.Alternation

/-!
# Calls and results of converted chat requests

In a Chat Completions request the tool messages that answer the calls of an assistant message
follow it at once. A converted request keeps this exactly when the calls and results of the
original come in order: for a message, its own text and images are put out before its results,
so they must not stand between calls and their results; for Responses items, a call joins those
before it only while none is answered and no reasoning waits, and the images of results are put
out before anything else than a result.
-/
namespace Aipass.Conversion

/-- What a chat message says of calls: an assistant message announces those it lists, and a tool
message answers one. -/
def noticeOf (message : Value) : Notice (Option Value) :=
  if message.field "role" = .string "tool" then .answer (message.get "tool_call_id")
  else if message.field "role" = .string "assistant" ∧ ccToolCalls message ≠ [] then
    .calls ((ccToolCalls message).map fun call => call.get "id")
  else .other

/-- Every assistant message with calls is followed at once by the tool messages that answer
exactly its calls, and every tool message stands behind one in this way. -/
def ToolsAdjacent (messages : List Value) : Prop := Paired (messages.map noticeOf)

/-- The blocks of a message. -/
def blocksOf (message : Value) : List Value := ((message.get "content").bind Value.asArray).getD []

/-- A block becomes a part of the message of its own. -/
def keepsPart (block : Value) : Bool :=
  match blockType block with
  | "text" => (block.get "text").isSome
  | "image" => (amImageUrl block).isSome
  | _ => false

/-- The reasoning of a block. -/
def thoughtOf (block : Value) : String :=
  if blockType block = "thinking" then ((block.get "thinking").bind Value.asStr).getD "" else ""

/-- The identifiers of the calls among blocks, and the count of generated ones. -/
def useIds : ℕ → List Value → List Value × ℕ
  | generatedIds, [] => ([], generatedIds)
  | generatedIds, block :: rest =>
    if blockType block = "tool_use" then
      let own := callId generatedIds block
      (own.1 :: (useIds own.2 rest).1, (useIds own.2 rest).2)
    else useIds generatedIds rest

/-- The results among blocks. -/
def resultsOf (blocks : List Value) : List Value :=
  blocks.filter fun block => blockType block = "tool_result"

/-- The notice of the text a message of a role says. -/
def ownNotice (role : String) : Notice (Option Value) :=
  if role = "tool" then .answer none else .other

/-- The notice of calls, if there are any. -/
def callNotice (ids : List Value) : List (Notice (Option Value)) :=
  if ids = [] then [] else [.calls (ids.map some)]

/-- The notices of the blocks of a message: its own text and images, its calls, its results, and
the images of results. -/
def blockNotices (role : String) (generatedIds : ℕ) (blocks : List Value) :
    List (Notice (Option Value)) :=
  let ids := (useIds generatedIds blocks).1
  let results := resultsOf blocks
  let own :=
    if role = "assistant" then if ids = [] then [.other] else callNotice ids
    else (if blocks.any keepsPart then [ownNotice role] else []) ++ callNotice ids
  if role = "assistant" ∧ ids = [] ∧ ¬ blocks.any keepsPart ∧
      ¬ blocks.any fun block => thoughtOf block ≠ "" then []
  else own ++ results.map (fun result => .answer (some (result.field "tool_use_id"))) ++
    if results.any fun result => amResultImages result ≠ [] then [.other] else []

/-- The notices of an Anthropic message. -/
def amNotices (generatedIds : ℕ) (message : Value) : List (Notice (Option Value)) :=
  match message.get "content" with
  | some (.string _) => [ownNotice (messageRole message)]
  | some (.array blocks) => blockNotices (messageRole message) generatedIds blocks
  | _ => []

/-- The notices of Anthropic messages. -/
def amConversation : ℕ → List Value → List (Notice (Option Value))
  | _, [] => []
  | generatedIds, message :: rest =>
    amNotices generatedIds message ++
      amConversation (useIds generatedIds (blocksOf message)).2 rest

/-- What is collected of blocks, as the notices see it. -/
structure Collected (split : ChatParts) (blocks : List Value) (generatedIds : ℕ) : Prop where
  parts : split.parts = [] ↔ ¬ blocks.any keepsPart
  calls : split.toolCalls.map (fun call => call.get "id") =
    (useIds generatedIds blocks).1.map some
  results : split.toolResults.map noticeOf =
    (resultsOf blocks).map fun result => .answer (some (result.field "tool_use_id"))
  images : split.toolImages = [] ↔ ¬ (resultsOf blocks).any fun result => amResultImages result ≠ []
  reasoning : split.reasoning = "" ↔ ¬ blocks.any fun block => thoughtOf block ≠ ""
  count : split.generatedIds = (useIds generatedIds blocks).2

/-- The identifiers of calls go on where they have stopped. -/
theorem useIds_append (generatedIds : ℕ) (blocks more : List Value) :
    useIds generatedIds (blocks ++ more) =
      ((useIds generatedIds blocks).1 ++ (useIds (useIds generatedIds blocks).2 more).1,
        (useIds (useIds generatedIds blocks).2 more).2) := by
  induction blocks generalizing generatedIds with
  | nil => rfl
  | cons block blocks ih =>
    simp only [List.cons_append, useIds]
    split
    · rw [ih]
      rfl
    · exact ih _

/-- A result becomes the tool message that answers its call. -/
theorem noticeOf_amResult (serde : SerdeJson) (block : Value) :
    noticeOf (amResultToCc serde block) = .answer (some (block.field "tool_use_id")) := by
  simp [noticeOf, amResultToCc, Value.field]

/-- A call keeps its identifier. -/
theorem id_amCall (serde : SerdeJson) (id block : Value) :
    (amCallToCc serde id block).get "id" = some id := by
  simp [amCallToCc]

/-- A block that is no result leaves the results alone. -/
theorem resultsOf_append (blocks : List Value) (block : Value) :
    resultsOf (blocks ++ [block]) =
      resultsOf blocks ++ if blockType block = "tool_result" then [block] else [] := by
  simp only [resultsOf, List.filter_append, List.filter_cons, List.filter_nil,
    decide_eq_true_eq]

/-- One more block is collected. -/
theorem collected_step (serde : SerdeJson) {split : ChatParts} {blocks : List Value}
    {generatedIds : ℕ} (held : Collected split blocks generatedIds) (block : Value) :
    Collected (amBlockToCc serde split block) (blocks ++ [block]) generatedIds := by
  obtain ⟨parts, calls, results, images, reasoning, count⟩ := held
  have ids := useIds_append generatedIds blocks [block]
  have any_ : ∀ holds : Value → Bool,
      (blocks ++ [block]).any holds = (blocks.any holds || holds block) := by simp
  have given := resultsOf_append blocks block
  rw [amBlockToCc]
  split
  · rename_i kind
    have others : thoughtOf block = "" := by simp [thoughtOf, kind]
    have kept : keepsPart block = (block.get "text").isSome := by simp [keepsPart, kind]
    simp only [kind, useIds, String.reduceEq, if_false, List.append_nil] at ids given
    constructor
    · cases text : block.get "text" <;> simp_all
    · simpa [ids] using calls
    · simpa [given] using results
    · simpa [given] using images
    · simpa [others] using reasoning
    · simpa [ids] using count
  · rename_i kind
    have others : thoughtOf block = "" := by simp [thoughtOf, kind]
    have kept : keepsPart block = (amImageUrl block).isSome := by simp [keepsPart, kind]
    simp only [kind, useIds, String.reduceEq, if_false, List.append_nil] at ids given
    constructor
    · cases url : amImageUrl block <;> simp_all
    · simpa [ids] using calls
    · simpa [given] using results
    · simpa [given] using images
    · simpa [others] using reasoning
    · simpa [ids] using count
  · rename_i kind
    have others : thoughtOf block = "" := by simp [thoughtOf, kind]
    have kept : keepsPart block = false := by simp [keepsPart, kind]
    simp only [kind, useIds, String.reduceEq, if_true, if_false, List.append_nil] at ids given
    constructor
    · simpa [kept] using parts
    · simp [ids, calls, id_amCall, count]
    · simpa [given] using results
    · simpa [given] using images
    · simpa [others] using reasoning
    · simp [ids, count]
  · rename_i kind
    have kept : keepsPart block = false := by simp [keepsPart, kind]
    have thought : thoughtOf block = ((block.get "thinking").bind Value.asStr).getD "" := by
      simp [thoughtOf, kind]
    simp only [kind, useIds, String.reduceEq, if_false, List.append_nil] at ids given
    constructor
    · simpa [kept] using parts
    · simpa [ids] using calls
    · simpa [given] using results
    · simpa [given] using images
    · rw [any_, ← thought]
      simp [String.append_eq_empty_iff, reasoning]
    · simpa [ids] using count
  · rename_i kind
    have others : thoughtOf block = "" := by simp [thoughtOf, kind]
    have kept : keepsPart block = false := by simp [keepsPart, kind]
    simp only [kind, useIds, String.reduceEq, if_true, if_false] at ids given
    constructor
    · simpa [kept] using parts
    · simpa [ids] using calls
    · simp [given, results, noticeOf_amResult]
    · simp [given, images]
    · simpa [others] using reasoning
    · simpa [ids] using count
  · rename_i noText noImage noUse noThought noResult
    have others : thoughtOf block = "" := if_neg noThought
    have kept : keepsPart block = false := by
      rw [keepsPart]
      split
      · contradiction
      · contradiction
      · rfl
    simp only [useIds, if_neg noUse, if_neg noResult, List.append_nil] at ids given
    constructor
    · simpa [kept] using parts
    · simpa [ids] using calls
    · simpa [given] using results
    · simpa [given] using images
    · simpa [others] using reasoning
    · simpa [ids] using count

/-- What is collected of the blocks of a message. -/
theorem collected_blocks (serde : SerdeJson) (generatedIds : ℕ) (blocks : List Value) :
    Collected (blocks.foldl (amBlockToCc serde) { generatedIds }) blocks generatedIds := by
  induction blocks using List.reverseRecOn with
  | nil => constructor <;> simp [useIds, resultsOf]
  | append_singleton blocks block ih =>
    rw [List.foldl_append]
    exact collected_step serde ih block

/-- A message without calls speaks for its role. -/
theorem noticeOf_own (role : String) (content : Value) :
    noticeOf (.obj [("role", role), ("content", content)]) = ownNotice role := by
  by_cases tool : role = "tool"
  · simp [noticeOf, ownNotice, Value.field, tool]
  · simp [noticeOf, ownNotice, Value.field, ccToolCalls, tool]

/-- An assistant message announces its calls. -/
theorem noticeOf_assistant (split : ChatParts) :
    noticeOf (amAssistantToCc split) =
      if split.toolCalls = [] then .other
      else .calls (split.toolCalls.map fun call => call.get "id") := by
  have start : (Value.obj [("role", "assistant")]).IsObject := Value.isObject_obj _
  have thought : (if split.reasoning = "" then Value.obj [("role", "assistant")]
      else (Value.obj [("role", "assistant")]).set "reasoning_content"
        split.reasoning).IsObject := isObject_ite_set start ..
  have role : (if split.reasoning = "" then Value.obj [("role", "assistant")]
      else (Value.obj [("role", "assistant")]).set "reasoning_content"
        split.reasoning).get "role" = some "assistant" :=
    (get_ite_set start (by decide) ..).trans (by simp)
  have calls : (if split.reasoning = "" then Value.obj [("role", "assistant")]
      else (Value.obj [("role", "assistant")]).set "reasoning_content"
        split.reasoning).get "tool_calls" = none :=
    (get_ite_set start (by decide) ..).trans (by simp)
  simp only [amAssistantToCc, noticeOf, ccToolCalls, Value.field]
  by_cases none_ : split.toolCalls = []
  · simp [none_, Value.get_set thought, role, calls]
  · have whole := Value.isObject_set thought "content"
      (if split.parts = [] then .null else ccContent split.parts)
    simp [none_, Value.get_set whole, Value.get_set thought, role]

/-- The message a user message with calls puts out announces them. -/
theorem noticeOf_calls {calls : List Value} (some_ : calls ≠ []) :
    noticeOf (.obj [("role", "assistant"), ("content", .null), ("tool_calls", .array calls)]) =
      .calls (calls.map fun call => call.get "id") := by
  simp [noticeOf, ccToolCalls, Value.field, some_]

/-- A list of calls is empty exactly when that of their identifiers is. -/
theorem Collected.calls_eq_nil {split : ChatParts} {blocks : List Value} {generatedIds : ℕ}
    (held : Collected split blocks generatedIds) :
    split.toolCalls = [] ↔ (useIds generatedIds blocks).1 = [] := by
  rw [← List.map_eq_nil_iff (f := fun call : Value => call.get "id"), held.calls,
    List.map_eq_nil_iff]

/-- The notices of the messages of one message. -/
theorem notices_amMessageToCc (serde : SerdeJson) (generatedIds : ℕ) (message : Value) :
    (amMessageToCc serde generatedIds message).1.map noticeOf = amNotices generatedIds message ∧
      (amMessageToCc serde generatedIds message).2 =
        (useIds generatedIds (blocksOf message)).2 := by
  rw [amMessageToCc, amNotices, blocksOf]
  cases message.get "content" with
  | none => exact ⟨rfl, rfl⟩
  | some content =>
    cases content with
    | null | bool _ | number _ | object _ => exact ⟨rfl, rfl⟩
    | string text => exact ⟨by simp [noticeOf_own], rfl⟩
    | array blocks =>
      have held := collected_blocks serde generatedIds blocks
      have noCalls := held.calls_eq_nil
      simp only [blockNotices, Option.bind_some, Value.asArray_array, Option.getD_some]
      generalize blocks.foldl (amBlockToCc serde) { generatedIds } = split at held noCalls
      generalize messageRole message = role
      by_cases silent : role = "assistant" ∧ split.parts = [] ∧ split.toolCalls = [] ∧
          split.reasoning = ""
      · have silent' : role = "assistant" ∧ (useIds generatedIds blocks).1 = [] ∧
            ¬ blocks.any keepsPart ∧ ¬ blocks.any fun block => thoughtOf block ≠ "" :=
          ⟨silent.1, noCalls.mp silent.2.2.1, held.parts.mp silent.2.1,
            held.reasoning.mp silent.2.2.2⟩
        rw [if_pos silent, if_pos silent']
        exact ⟨rfl, held.count⟩
      · have silent' : ¬ (role = "assistant" ∧ (useIds generatedIds blocks).1 = [] ∧
            ¬ blocks.any keepsPart ∧ ¬ blocks.any fun block => thoughtOf block ≠ "") :=
          fun ⟨assistant, ids, parts, thoughts⟩ => silent ⟨assistant, held.parts.mpr parts,
            noCalls.mpr ids, held.reasoning.mpr thoughts⟩
        rw [if_neg silent, if_neg silent']
        refine ⟨?_, held.count⟩
        rw [chatMessages, List.map_append, List.map_append, held.results]
        have images : (if split.toolImages = [] then []
            else [Value.obj [("role", "user"), ("content", .array split.toolImages)]]).map
              noticeOf =
            if (resultsOf blocks).any fun result => amResultImages result ≠ [] then [.other]
            else [] := by
          by_cases none_ : split.toolImages = []
          · rw [if_pos none_, if_neg (held.images.mp none_)]
            rfl
          · rw [if_neg none_, if_pos (by simpa using fun missing => none_ (held.images.mpr missing)),
              List.map_singleton, noticeOf_own]
            rfl
        have announced : split.toolCalls ≠ [] → callNotice (useIds generatedIds blocks).1 =
            [.calls (split.toolCalls.map fun call => call.get "id")] := fun some_ => by
          rw [callNotice, if_neg fun none_ => some_ (noCalls.mpr none_), held.calls]
        rw [images]
        congr 2
        by_cases assistant : role = "assistant"
        · rw [if_pos assistant, if_pos assistant, List.map_singleton, noticeOf_assistant]
          by_cases none_ : split.toolCalls = []
          · rw [if_pos none_, if_pos (noCalls.mp none_)]
          · rw [if_neg none_, if_neg fun missing => none_ (noCalls.mpr missing), announced none_]
        · rw [if_neg assistant, if_neg assistant, List.map_append]
          congr 1
          · by_cases none_ : split.parts = []
            · rw [if_pos none_, if_neg (held.parts.mp none_)]
              rfl
            · rw [if_neg none_, if_pos (by simpa using fun missing => none_ (held.parts.mpr missing)),
                List.map_singleton, noticeOf_own]
          · by_cases none_ : split.toolCalls = []
            · rw [if_pos none_, noCalls.mp none_]
              rfl
            · rw [if_neg none_, List.map_singleton, noticeOf_calls none_, announced none_]

/-- The notices of the messages of a request. -/
theorem notices_amMessagesToCc (serde : SerdeJson) (generatedIds : ℕ) (messages : List Value) :
    (amMessagesToCc serde generatedIds messages).map noticeOf =
      amConversation generatedIds messages := by
  induction messages generalizing generatedIds with
  | nil => rfl
  | cons message rest ih =>
    obtain ⟨own, count⟩ := notices_amMessageToCc serde generatedIds message
    rw [amMessagesToCc, amConversation, List.map_append, own, ih, count]

end Aipass.Conversion
