import Aipass.Conversion.Turns

/-!
# The shape of converted Anthropic requests

The messages of a converted request have content, and where the calls of the request are answered
before anything else is said, every call is answered at the start of the next message. They
alternate between the roles exactly when no turn of which nothing is kept stands between two
neighbouring turns of the other role: such turns end a run before they are dropped.
-/
namespace Aipass.Conversion

/-- The messages of a request. -/
def messagesOf (request : Value) : List Value := (request.field "messages").asArray.getD []

/-- The content of a message. -/
def contentOf (message : Value) : List Value := (message.field "content").asArray.getD []

/-- A message of a role. -/
def HasRole (message : Value) (role : Role) : Prop := message.field "role" = .string role.name

/-- The messages are the user's and the assistant's in turn. -/
def Alternate (messages : List Value) : Prop :=
  (∀ message ∈ messages, HasRole message .user ∨ HasRole message .assistant) ∧
    messages.IsChain fun message next => message.field "role" ≠ next.field "role"

/-- A block is a tool result. -/
def IsResult (block : Value) : Prop := block.field "type" = .string "tool_result"

/-- The calls of every assistant message are answered in the next message, by results that stand
before its other blocks. -/
def CallsAnswered (messages : List Value) : Prop :=
  ∀ before message after, messages = before ++ message :: after → HasRole message .assistant →
    ∀ block ∈ contentOf message, block.field "type" = .string "tool_use" →
      ∃ next rest results others, after = next :: rest ∧ HasRole next .user ∧
        contentOf next = results ++ others ∧ (∀ result ∈ results, IsResult result) ∧
        ∃ result ∈ results, result.field "tool_use_id" = block.field "id"

/-- In the message behind an assistant message with calls no result stands behind another
block. -/
def ResultsFirst (messages : List Value) : Prop :=
  ∀ before message next rest, messages = before ++ message :: next :: rest →
    HasRole message .assistant →
    (∃ block ∈ contentOf message, block.field "type" = .string "tool_use") →
      ∃ results others, contentOf next = results ++ others ∧
        (∀ result ∈ results, IsResult result) ∧ ∀ other ∈ others, ¬ IsResult other

/-- Every call is answered by a later result before the next user or assistant content: between
them stand what else the assistant says with the call, and results. -/
def Answered (conversation : List Turn) : Prop :=
  ∀ before calls after, conversation = before ++ .assistant calls :: after →
    ∀ call ∈ calls, ∃ id same results rest, call = some id ∧
      after = same ++ (results ++ .result id :: rest) ∧
      (∀ turn ∈ same, turn.fromAssistant = true ∨ turn.speaks = false) ∧
      ∀ turn ∈ results, turn.isResult = true ∨ turn.speaks = false

/-- No result stands behind user content before the assistant speaks again. -/
def ResultsInPlace (conversation : List Turn) : Prop :=
  ∀ before gap id after, conversation = before ++ .user :: (gap ++ .result id :: after) →
    ∃ turn ∈ gap, turn.fromAssistant = true

/-- What is said of the messages of a converted request. -/
def WellShaped (conversation : List Turn) (messages : List Value) : Prop :=
  Alternate messages ∧ (∀ message ∈ messages, contentOf message ≠ []) ∧
    (Answered conversation → CallsAnswered messages ∧
      (ResultsInPlace conversation → ResultsFirst messages))

/-- The role of a message. -/
theorem role_amMessage (entry : Entry) :
    (amMessage entry).field "role" = .string entry.1.name := by
  simp [amMessage, Value.field]

/-- The content of a message. -/
theorem contentOf_amMessage (entry : Entry) : contentOf (amMessage entry) = entry.2 := by
  simp [contentOf, amMessage, Value.field]

/-- The role of a message is that of its entry. -/
theorem hasRole_amMessage {entry : Entry} {role : Role} :
    HasRole (amMessage entry) role ↔ entry.1 = role := by
  rw [HasRole, role_amMessage]
  cases entry.1 <;> cases role <;> decide

/-- Two messages have one role exactly when their entries do. -/
theorem role_amMessage_inj {entry other : Entry} :
    (amMessage entry).field "role" = (amMessage other).field "role" ↔ entry.1 = other.1 := by
  rw [role_amMessage, role_amMessage]
  cases entry.1 <;> cases other.1 <;> decide

/-- Messages alternate exactly when the roles of their entries do. -/
theorem alternate_map {entries : List Entry} :
    Alternate (entries.map amMessage) ↔ (entries.map Prod.fst).IsChain (· ≠ ·) := by
  have roles : ∀ message ∈ entries.map amMessage,
      HasRole message .user ∨ HasRole message .assistant := by
    intro message inside
    obtain ⟨entry, -, rfl⟩ := List.mem_map.mp inside
    rw [hasRole_amMessage, hasRole_amMessage]
    cases entry.1 <;> simp
  rw [Alternate, and_iff_right roles, List.isChain_map, List.isChain_map]
  simp only [ne_eq, role_amMessage_inj]

/-- Writing a field that may be missing leaves other fields alone. -/
theorem get_setSome {out : Value} (isObject : out.IsObject) {key sought : String}
    (other : key ≠ sought) (value : Option Value) :
    (setSome key value out).get sought = out.get sought := by
  cases value with
  | none => rfl
  | some value => rw [setSome, Value.get_set isObject, if_neg other]

/-- Writing a field that may be missing keeps an object an object. -/
theorem isObject_setSome {out : Value} (isObject : out.IsObject) (key : String)
    (value : Option Value) : (setSome key value out).IsObject := by
  cases value with
  | none => exact isObject
  | some value => exact Value.isObject_set isObject key value

/-- Writing a field on a condition leaves other fields alone. -/
theorem get_ite_set {out : Value} (isObject : out.IsObject) {key sought : String}
    (other : key ≠ sought) (value : Value) (skip : Prop) [Decidable skip] :
    (if skip then out else out.set key value).get sought = out.get sought := by
  split
  · rfl
  · rw [Value.get_set isObject, if_neg other]

/-- Writing a field on a condition keeps an object an object. -/
theorem isObject_ite_set {out : Value} (isObject : out.IsObject) (key : String) (value : Value)
    (skip : Prop) [Decidable skip] : (if skip then out else out.set key value).IsObject := by
  split
  · exact isObject
  · exact Value.isObject_set isObject ..

/-- Copying fields keeps an object an object. -/
theorem isObject_pass {out : Value} (isObject : out.IsObject) (src : Value) (keys : List String) :
    (pass src keys out).IsObject := by
  induction keys generalizing out with
  | nil => exact isObject
  | cons key keys ih => exact ih (isObject_setSome isObject key _)

/-- The reasoning settings keep an object an object. -/
theorem isObject_openaiThinking {out : Value} (isObject : out.IsObject) (src : Value) :
    (openaiThinking src out).IsObject := by
  rw [openaiThinking]
  split
  · exact Value.isObject_set isObject ..
  · exact Value.isObject_set (Value.isObject_set isObject ..) ..
  · exact isObject

/-- The messages of a request that is written field by field. -/
theorem messagesOf_eq {request : Value} {messages : List Value}
    (found : request.get "messages" = some (.array messages)) : messagesOf request = messages := by
  simp [messagesOf, Value.field, found]

variable {serde : SerdeJson}

/-- The fields a request starts with make an object. -/
theorem isObject_start (src : Value) (keys : List String) :
    (pass src keys (openaiThinking src (.obj []))).IsObject :=
  isObject_pass (isObject_openaiThinking (Value.isObject_obj []) src) src keys

/-- The messages of a converted Chat Completions request tell its turns. -/
theorem ccToAm_tells {payload out : Value} (converted : ccToAm serde payload = .ok out) :
    ∃ parts, List.Forall₂ Tells (turns CC payload) parts ∧
      messagesOf out = mergeConsecutive parts.reduceOption := by
  simp only [ccToAm, bind_eq_ok, okOr_eq_ok] at converted
  obtain ⟨⟨⟩, -, messages, listed, gathered, taken, made⟩ := converted
  obtain ⟨parts, tells, grown⟩ :=
    foldlM_tells (ccMessageToAm serde) ccTurn (fun _ _ _ => ccMessageToAm_tells) taken
  refine ⟨parts, ?_, ?_⟩
  · simpa only [turns, listed, Option.getD_some] using tells
  · rw [List.nil_append] at grown
    rw [← grown]
    rw [Except.ok.injEq] at made
    refine messagesOf_eq ?_
    rw [← made]
    have base := isObject_start payload ["model", "stream", "temperature", "top_p"]
    have untilSystem := fun stop systemParts maxTokens system =>
      isObject_ite_set (isObject_setSome (Value.isObject_set base "max_tokens" maxTokens)
        "stop_sequences" stop) "system" system (systemParts = ([] : List String))
    refine (get_setSome (isObject_ite_set (Value.isObject_set (untilSystem ..) ..) ..)
      (by decide) _).trans ?_
    refine (get_ite_set (Value.isObject_set (untilSystem ..) ..) (by decide) ..).trans ?_
    exact (Value.get_set (untilSystem ..) ..).trans (if_pos rfl)

/-- The tools of a Responses request leave its messages alone. -/
theorem rsToolsToAm_messages {before after : Value} (isObject : before.IsObject)
    {tools : Option Value} (converted : rsToolsToAm before tools = .ok after) :
    after.IsObject ∧ after.get "messages" = before.get "messages" := by
  cases tools with
  | none =>
    cases converted
    exact ⟨isObject, rfl⟩
  | some tools =>
    simp only [rsToolsToAm, bind_eq_ok, okOr_eq_ok] at converted
    obtain ⟨listed, -, made⟩ := converted
    split at made
    · cases made
    · cases made
      exact ⟨isObject_ite_set isObject .., get_ite_set isObject (by decide) ..⟩

/-- The entries of the input of a Responses request tell its turns. -/
theorem rsInput_tells {payload : Value} {systemParts : List String} {gathered : Gathered}
    (taken : rsInput serde { systemParts } (payload.get "input") = .ok gathered) :
    ∃ parts, List.Forall₂ Tells (turns RS payload) parts ∧
      gathered.messages = parts.reduceOption := by
  simp only [turns]
  revert taken
  generalize payload.get "input" = input
  intro taken
  cases input with
  | none => cases taken
  | some input =>
    cases input with
    | string text =>
      cases taken
      refine ⟨[some (.user, [textBlock text])], .cons ⟨_, rfl, List.cons_ne_nil _ _, ?_⟩ .nil,
        rfl⟩
      intro block inside
      rw [List.mem_singleton.mp inside]
      exact (plain_block (Or.inl (type_textBlock _))).2
    | array items =>
      obtain ⟨parts, tells, grown⟩ :=
        foldlM_tells (rsInputToAm serde) rsTurn (fun _ _ _ => rsInputToAm_tells) taken
      exact ⟨parts, tells, by rw [grown, List.nil_append]⟩
    | null | bool _ | number _ | object _ => cases taken

/-- The messages of a converted Responses request tell its turns. -/
theorem rsToAm_tells {payload out : Value} (converted : rsToAm serde payload = .ok out) :
    ∃ parts, List.Forall₂ Tells (turns RS payload) parts ∧
      messagesOf out = mergeConsecutive parts.reduceOption := by
  simp only [rsToAm, bind_eq_ok] at converted
  obtain ⟨⟨⟩, -, gathered, taken, after, tools, made⟩ := converted
  obtain ⟨parts, tells, grown⟩ := rsInput_tells taken
  refine ⟨parts, tells, ?_⟩
  have base := isObject_start payload ["model", "stream", "temperature", "top_p"]
  have withTokens := fun maxTokens => Value.isObject_set base "max_tokens" maxTokens
  obtain ⟨isObject, kept⟩ := rsToolsToAm_messages
    (isObject_ite_set (Value.isObject_set (withTokens _) ..) ..) tools
  rw [Except.ok.injEq] at made
  rw [← grown]
  refine messagesOf_eq ?_
  rw [← made, get_setSome isObject (by decide), kept]
  refine (get_ite_set (Value.isObject_set (withTokens _) ..) (by decide) ..).trans ?_
  exact (Value.get_set (withTokens _) ..).trans (if_pos rfl)

/-- The messages of a converted request tell its turns. -/
theorem convertRequest_tells {unique : ℕ → String} {source : ProxyProtocol} (foreign : source ≠ AM)
    {payload out : Value} (converted : convertRequest serde unique source AM payload = .ok out) :
    ∃ parts, List.Forall₂ Tells (turns source payload) parts ∧
      messagesOf out = (filled (runs parts.reduceOption)).map amMessage := by
  rw [convertRequest, if_neg foreign] at converted
  simp only [convert, bind_eq_ok] at converted
  obtain ⟨⟨⟩, -, converted⟩ := converted
  have folded : ∀ messages : List Entry,
      mergeConsecutive messages = (filled (runs messages)).map amMessage := by
    intro messages
    rw [mergeConsecutive, foldl_mergeEntry]
    rfl
  cases source with
  | anthropicMessages => exact absurd rfl foreign
  | openAiChatCompletions =>
    obtain ⟨parts, tells, made⟩ := ccToAm_tells converted
    exact ⟨parts, tells, by rw [made, folded]⟩
  | openAiResponses =>
    obtain ⟨parts, tells, made⟩ := rsToAm_tells converted
    exact ⟨parts, tells, by rw [made, folded]⟩

/-- What two lists tell is told part by part. -/
theorem told_append {conversation more : List Turn} {entries : List Entry}
    (tells : List.Forall₂ (fun turn entry => Tells turn (some entry)) (conversation ++ more)
      entries) :
    ∃ front back, entries = front ++ back ∧
      List.Forall₂ (fun turn entry => Tells turn (some entry)) conversation front ∧
      List.Forall₂ (fun turn entry => Tells turn (some entry)) more back := by
  induction conversation generalizing entries with
  | nil => exact ⟨[], entries, rfl, .nil, tells⟩
  | cons turn conversation ih =>
    obtain ⟨entry, rest, told, others, rfl⟩ := List.forall₂_cons_left_iff.mp tells
    obtain ⟨front, back, rfl, first, second⟩ := ih others
    exact ⟨entry :: front, back, rfl, .cons told first, second⟩

/-- The turns of a part of the entries. -/
theorem telling_append {conversation : List Turn} {front back : List Entry}
    (tells : List.Forall₂ (fun turn entry => Tells turn (some entry)) conversation
      (front ++ back)) :
    ∃ before after, conversation = before ++ after ∧
      List.Forall₂ (fun turn entry => Tells turn (some entry)) before front ∧
      List.Forall₂ (fun turn entry => Tells turn (some entry)) after back := by
  induction front generalizing conversation with
  | nil => exact ⟨[], conversation, rfl, .nil, tells⟩
  | cons entry front ih =>
    obtain ⟨turn, rest, told, others, rfl⟩ := List.forall₂_cons_right_iff.mp tells
    obtain ⟨before, after, rfl, first, second⟩ := ih others
    exact ⟨turn :: before, after, rfl, .cons told first, second⟩

/-- A turn told by an entry of the assistant is the assistant's. -/
theorem assistant_of_told {turn : Turn} {blocks : List Value} (some_ : blocks ≠ [])
    (told : Tells turn (some (.assistant, blocks))) :
    ∃ calls, turn = .assistant calls ∧ ∀ block ∈ blocks,
      block.field "type" = .string "tool_use" →
        ∃ call ∈ calls, ∀ id, call = some id → block.field "id" = id := by
  cases turn with
  | aside => cases told
  | empty role =>
    cases told
    exact absurd rfl some_
  | user =>
    obtain ⟨_, same, -⟩ := told
    cases same
  | assistant calls =>
    obtain ⟨_, ⟨⟩, -, ids⟩ := told
    exact ⟨calls, rfl, ids⟩
  | result id =>
    obtain ⟨_, same⟩ := told
    cases same

/-- The entries of the assistant's turns are the assistant's. -/
theorem keys_of_assistant {conversation : List Turn} {entries : List Entry}
    (tells : List.Forall₂ (fun turn entry => Tells turn (some entry)) conversation entries)
    (speaker : ∀ turn ∈ conversation, turn.fromAssistant = true) :
    ∀ entry ∈ entries, entry.1 = .assistant := by
  induction tells with
  | nil => simp
  | @cons turn entry conversation entries told rest ih =>
    refine List.forall_mem_cons.mpr ⟨?_, ih fun other inside =>
      speaker other (List.mem_cons_of_mem _ inside)⟩
    have own := speaker turn (List.mem_cons_self ..)
    cases turn with
    | assistant calls =>
      obtain ⟨blocks, same, -⟩ := told
      exact congrArg Prod.fst (Option.some.inj same)
    | aside | empty _ | user | result _ => cases own

/-- The entries of results are the user's, and their blocks are results. -/
theorem blocks_of_results {conversation : List Turn} {entries : List Entry}
    (tells : List.Forall₂ (fun turn entry => Tells turn (some entry)) conversation entries)
    (returns : ∀ turn ∈ conversation, turn.isResult = true) :
    ∀ entry ∈ entries, entry.1 = .user ∧ ∀ block ∈ entry.2, IsResult block := by
  induction tells with
  | nil => simp
  | @cons turn entry conversation entries told rest ih =>
    refine List.forall_mem_cons.mpr ⟨?_, ih fun other inside =>
      returns other (List.mem_cons_of_mem _ inside)⟩
    have own := returns turn (List.mem_cons_self ..)
    cases turn with
    | result id =>
      obtain ⟨content, same⟩ := told
      cases Option.some.inj same
      refine ⟨rfl, fun block inside => ?_⟩
      rw [List.mem_singleton.mp inside]
      exact type_toolResult ..
    | aside | empty _ | user | assistant _ => cases own

/-- The blocks of user content are no results. -/
theorem blocks_of_user {conversation : List Turn} {entries : List Entry}
    (tells : List.Forall₂ (fun turn entry => Tells turn (some entry)) conversation entries)
    (users : ∀ turn ∈ conversation, turn = .user) :
    ∀ entry ∈ entries, ∀ block ∈ entry.2, ¬ IsResult block := by
  induction tells with
  | nil => simp
  | @cons turn entry conversation entries told rest ih =>
    refine List.forall_mem_cons.mpr ⟨?_, ih fun other inside =>
      users other (List.mem_cons_of_mem _ inside)⟩
    cases users turn (List.mem_cons_self ..)
    obtain ⟨blocks, same, -, plain⟩ := told
    cases Option.some.inj same
    exact plain

/-- Turns that say something and have entries of the user are user content or results. -/
theorem turns_of_user {conversation : List Turn} {entries : List Entry}
    (tells : List.Forall₂ (fun turn entry => Tells turn (some entry)) conversation entries)
    (speaking : ∀ turn ∈ conversation, turn.speaks = true)
    (keys : ∀ entry ∈ entries, entry.1 = .user) :
    ∀ turn ∈ conversation, turn = .user ∨ turn.isResult = true := by
  induction tells with
  | nil => simp
  | @cons turn entry conversation entries told rest ih =>
    refine List.forall_mem_cons.mpr ⟨?_, ih
      (fun other inside => speaking other (List.mem_cons_of_mem _ inside))
      (fun other inside => keys other (List.mem_cons_of_mem _ inside))⟩
    cases turn with
    | user => exact Or.inl rfl
    | result id => exact Or.inr rfl
    | aside | empty role => cases speaking _ (List.mem_cons_self ..)
    | assistant calls =>
      obtain ⟨blocks, same, -⟩ := told
      have own := keys entry (List.mem_cons_self ..)
      cases Option.some.inj same
      cases own

/-- Where every call is answered, only what the assistant says with it and results stand between
the turns of a call and its answer that say something. -/
theorem answered_speaking {conversation : List Turn} (answered : Answered conversation)
    {before after : List Turn} {calls : List (Option Value)}
    (split : conversation.filter Turn.speaks = before ++ .assistant calls :: after)
    {call : Option Value} (listed : call ∈ calls) :
    ∃ id same results rest, call = some id ∧ after = same ++ (results ++ .result id :: rest) ∧
      (∀ turn ∈ same, turn.fromAssistant = true) ∧ ∀ turn ∈ results, turn.isResult = true := by
  obtain ⟨front, back, rfl, -, behind⟩ := List.filter_eq_append_iff.mp split
  obtain ⟨gap, back, rfl, -, -, rfl⟩ := List.filter_eq_cons_iff.mp behind
  obtain ⟨id, same, results, rest, known, rfl, sames, returns⟩ :=
    answered (front ++ gap) calls back (by simp) call listed
  refine ⟨id, same.filter Turn.speaks, results.filter Turn.speaks, rest.filter Turn.speaks, known,
    ?_, ?_, ?_⟩
  · simp [List.filter_cons, Turn.speaks]
  · intro turn inside
    obtain ⟨member, speaks⟩ := List.mem_filter.mp inside
    exact (sames turn member).resolve_right (by simp [speaks])
  · intro turn inside
    obtain ⟨member, speaks⟩ := List.mem_filter.mp inside
    exact (returns turn member).resolve_right (by simp [speaks])

/-- A turn of the assistant says something. -/
theorem speaks_of_assistant {turn : Turn} (speaker : turn.fromAssistant = true) :
    turn.speaks = true := by
  cases turn with
  | assistant calls => rfl
  | aside | empty _ | user | result _ => cases speaker

/-- Where results stand in place, the assistant speaks between user content and a result. -/
theorem inPlace_speaking {conversation : List Turn} (inPlace : ResultsInPlace conversation)
    {before gap after : List Turn} {id : Value}
    (split : conversation.filter Turn.speaks = before ++ .user :: (gap ++ .result id :: after)) :
    ∃ turn ∈ gap, turn.fromAssistant = true := by
  obtain ⟨front, back, rfl, -, behind⟩ := List.filter_eq_append_iff.mp split
  obtain ⟨silent, back, rfl, -, -, fromUser⟩ := List.filter_eq_cons_iff.mp behind
  obtain ⟨middle, back, rfl, rfl, last⟩ := List.filter_eq_append_iff.mp fromUser
  obtain ⟨silent', back, rfl, quiet, -, rfl⟩ := List.filter_eq_cons_iff.mp last
  obtain ⟨turn, inside, speaker⟩ := inPlace (front ++ silent) (middle ++ silent') id back (by simp)
  rcases List.mem_append.mp inside with member | member
  · exact ⟨turn, List.mem_filter.mpr ⟨member, speaks_of_assistant speaker⟩, speaker⟩
  · exact absurd (speaks_of_assistant speaker) (quiet turn member)

/-- Turns of the user without a result behind user content are results, and then user content. -/
theorem results_then_user {conversation : List Turn}
    (kinds : ∀ turn ∈ conversation, turn = .user ∨ turn.isResult = true)
    (ordered : ∀ before gap id after,
      conversation ≠ before ++ .user :: (gap ++ .result id :: after)) :
    ∃ results users, conversation = results ++ users ∧
      (∀ turn ∈ results, turn.isResult = true) ∧ ∀ turn ∈ users, turn = .user := by
  induction conversation with
  | nil => exact ⟨[], [], rfl, by simp, by simp⟩
  | cons turn rest ih =>
    obtain ⟨own, others⟩ := List.forall_mem_cons.mp kinds
    rcases own with rfl | returns
    · refine ⟨[], .user :: rest, rfl, by simp, List.forall_mem_cons.mpr ⟨rfl, fun other inside => ?_⟩⟩
      rcases others other inside with isUser | returns
      · exact isUser
      · obtain ⟨gap, after, rfl⟩ := List.append_of_mem inside
        cases other with
        | result id => exact absurd rfl (ordered [] gap id after)
        | aside | empty _ | user | assistant _ => cases returns
    · obtain ⟨results, users, rfl, all, last⟩ := ih others fun before gap id after split =>
        ordered (turn :: before) gap id after (by rw [split]; rfl)
      exact ⟨turn :: results, users, rfl, List.forall_mem_cons.mpr ⟨returns, all⟩, last⟩

section Runs

variable {conversation : List Turn} {entries : List Entry}
  (tells : List.Forall₂ (fun turn entry => Tells turn (some entry))
    (conversation.filter Turn.speaks) entries)

include tells

/-- A block of a message of the assistant, and the entries behind those of that message. -/
theorem block_source {before after : List Entry} {role : Role} {blocks : List Value}
    (shape : runs entries = before ++ (role, blocks) :: after) (assistant : role = .assistant)
    {block : Value} (inside : block ∈ blocks) (isCall : block.field "type" = .string "tool_use") :
    ∃ front calls back later, conversation.filter Turn.speaks = front ++ .assistant calls :: back ∧
      List.Forall₂ (fun turn entry => Tells turn (some entry)) back later ∧
      (∃ call ∈ calls, ∀ id, call = some id → block.field "id" = id) ∧
      after = runs (later.dropWhile fun entry => entry.1 = .assistant) := by
  subst assistant
  obtain ⟨front, held, later, rfl, member, behind⟩ := runs_source shape inside
  obtain ⟨earlier, rest, split, -, tail⟩ := telling_append tells
  obtain ⟨turn, back, told, others, rfl⟩ := List.forall₂_cons_right_iff.mp tail
  obtain ⟨calls, rfl, ids⟩ := assistant_of_told (List.ne_nil_of_mem member) told
  exact ⟨earlier, calls, back, later, split, others, ids block member isCall, behind⟩

/-- Where the calls are answered in the conversation, they are answered in the next message. -/
theorem callsAnswered_runs (answered : Answered conversation) :
    CallsAnswered ((runs entries).map amMessage) := by
  intro before message after split role block inside isCall
  obtain ⟨front, rest, shape, -, behind⟩ := List.map_eq_append_iff.mp split
  obtain ⟨⟨speaker, blocks⟩, back, rfl, rfl, rfl⟩ := List.map_eq_cons_iff.mp behind
  rw [contentOf_amMessage] at inside
  obtain ⟨earlier, calls, conversation', later, turns, told, ⟨call, listed, ids⟩, rfl⟩ :=
    block_source tells shape (hasRole_amMessage.mp role) inside isCall
  obtain ⟨id, same, results, last, rfl, rfl, sames, returns⟩ :=
    answered_speaking answered turns listed
  obtain ⟨own, rest, rfl, ownTold, restTold⟩ := told_append told
  obtain ⟨given, rest, rfl, givenTold, lastTold⟩ := told_append restTold
  obtain ⟨answer, rest, ⟨content, answerTold⟩, -, rfl⟩ := List.forall₂_cons_left_iff.mp lastTold
  cases Option.some.inj answerTold
  have ownKeys := keys_of_assistant ownTold sames
  have givenKeys := blocks_of_results givenTold returns
  -- behind the entries of the assistant stand those of results, up to the answer
  have dropped : (own ++ (given ++ (Role.user, [toolResult id content]) :: rest)).dropWhile
      (fun entry => entry.1 = .assistant) =
        given ++ (Role.user, [toolResult id content]) :: rest := by
    rw [List.dropWhile_append_of_pos fun entry member => by simp [ownKeys entry member]]
    cases given with
    | nil => rfl
    | cons first given =>
      exact List.dropWhile_cons_of_neg (by simp [(givenKeys first (List.mem_cons_self ..)).1])
  obtain ⟨others, tail, start⟩ := runs_same Role.user
    (given ++ [(Role.user, [toolResult id content])])
    (fun entry member => (List.mem_append.mp member).elim (fun found => (givenKeys entry found).1)
      fun found => by rw [List.mem_singleton.mp found])
    (by simp) rest
  rw [List.append_assoc, List.singleton_append] at start
  refine ⟨amMessage (.user, (given ++ [(Role.user, [toolResult id content])]).flatMap Prod.snd ++
    others), tail.map amMessage, _, others, by rw [dropped, start]; rfl, hasRole_amMessage.mpr rfl,
    contentOf_amMessage _, ?_, toolResult id content, by simp, ?_⟩
  · intro result found
    obtain ⟨entry, member, held⟩ := List.mem_flatMap.mp found
    rcases List.mem_append.mp member with early | answers
    · exact (givenKeys entry early).2 result held
    · rw [List.mem_singleton.mp answers] at held
      rw [List.mem_singleton.mp held]
      exact type_toolResult ..
  · rw [id_toolResult, ids id rfl]

/-- Where results stand in place in the conversation, they stand first in the message behind a
call. -/
theorem resultsFirst_runs (inPlace : ResultsInPlace conversation) :
    ResultsFirst ((runs entries).map amMessage) := by
  intro before message next rest split role ⟨block, inside, isCall⟩
  obtain ⟨front, middle, shape, -, behind⟩ := List.map_eq_append_iff.mp split
  obtain ⟨⟨speaker, blocks⟩, back, rfl, rfl, fromNext⟩ := List.map_eq_cons_iff.mp behind
  obtain ⟨⟨nextRole, content⟩, tail, rfl, rfl, -⟩ := List.map_eq_cons_iff.mp fromNext
  rw [contentOf_amMessage] at inside
  have known := hasRole_amMessage.mp role
  have alternates := isChain_runs entries
  rw [shape, List.map_append, List.isChain_append] at alternates
  have differs : speaker ≠ nextRole := by
    simpa using (List.isChain_cons_cons.mp alternates.2.1).1
  have userNext : nextRole = .user := by
    cases nextRole with
    | user => rfl
    | assistant => exact absurd known differs
  subst userNext
  obtain ⟨earlier, calls, conversation', later, turns, told, -, after⟩ :=
    block_source tells shape known inside isCall
  have head := runs_head after.symm
  -- the entries of the next message, and their turns
  have parts := List.takeWhile_append_dropWhile (p := fun entry : Entry => entry.1 = .assistant)
    (l := later)
  have users := List.takeWhile_append_dropWhile (p := fun entry : Entry => entry.1 = .user)
    (l := later.dropWhile fun entry => entry.1 = .assistant)
  rw [← parts, ← users] at told
  obtain ⟨own, rest, rfl, -, restTold⟩ := telling_append told
  obtain ⟨said, rest, rfl, saidTold, -⟩ := telling_append restTold
  have kinds : ∀ turn ∈ said, turn = .user ∨ turn.isResult = true := by
    have speaking : ∀ turn ∈ said, turn.speaks = true := fun turn found => by
      have member : turn ∈ conversation.filter Turn.speaks := by simp [turns, found]
      exact (List.mem_filter.mp member).2
    refine turns_of_user saidTold speaking fun entry found => ?_
    simpa using List.mem_takeWhile_imp found
  obtain ⟨results, others, rfl, returns, ordinary⟩ := results_then_user kinds
    fun before gap id after order => by
      obtain ⟨turn, found, speaker⟩ := @inPlace_speaking _ inPlace
        (earlier ++ .assistant calls :: own ++ before) gap (after ++ rest) id (by rw [turns, order]; simp)
      have member : turn ∈ before ++ Turn.user :: (gap ++ Turn.result id :: after) := by
        simp [found]
      rw [← order] at member
      rcases kinds turn member with rfl | returns
      · cases speaker
      · cases turn with
        | result _ => cases speaker
        | aside | empty _ | user | assistant _ => cases returns
  obtain ⟨given, user, held, givenTold, userTold⟩ := told_append saidTold
  rw [held, List.flatMap_append] at head
  refine ⟨given.flatMap Prod.snd, user.flatMap Prod.snd, by rw [contentOf_amMessage, head], ?_, ?_⟩
  · intro result found
    obtain ⟨entry, member, listed⟩ := List.mem_flatMap.mp found
    exact (blocks_of_results givenTold returns entry member).2 result listed
  · intro other found
    obtain ⟨entry, member, listed⟩ := List.mem_flatMap.mp found
    exact blocks_of_user userTold ordinary entry member other listed

end Runs

namespace Sample

/-- A serializer that is not asked. -/
def silentSerde : SerdeJson := .ofTable []

/-- A request of one user message. -/
def greeting : Value :=
  .obj [("messages", .array [.obj [("role", "user"), ("content", "hi")]])]

/-- A request whose user message has a part that Anthropic has no block for, between two messages
of the assistant. -/
def unheard : Value :=
  .obj [("messages", .array [.obj [("role", "assistant"), ("content", "a")],
    .obj [("role", "user"), ("content", .array [.obj [("type", "input_audio")]])],
    .obj [("role", "assistant"), ("content", "b")]])]

end Sample

end Aipass.Conversion
