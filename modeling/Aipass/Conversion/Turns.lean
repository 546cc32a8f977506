import Mathlib.Data.List.ReduceOption
import Aipass.Base.Runs
import Aipass.Conversion.ConvertRequest

/-!
# The turns of a conversation

A message of a Chat Completions request, or an item of a Responses request, is a turn: something
the user or the assistant says, the result of a call, or nothing. The entry that a converter
gathers for a turn tells what the turn says, block by block.
-/
namespace Aipass.Conversion

/-- What one message or item of a request is. -/
inductive Turn
  /-- It makes no entry. -/
  | aside
  /-- A message of a role of which nothing is kept. -/
  | empty (role : Role)
  /-- User content. -/
  | user
  /-- Assistant content, with the identifier of each call in it, where the call has one. -/
  | assistant (calls : List (Option Value))
  /-- The result of the call of an identifier. -/
  | result (call : Value)

namespace Turn

/-- The role of a turn that makes an entry, and whether nothing of it is kept. -/
def mark : Turn → Option (Role × Bool)
  | aside => none
  | empty role => some (role, true)
  | user | result _ => some (.user, false)
  | assistant _ => some (.assistant, false)

/-- The turn says something. -/
def speaks : Turn → Bool
  | aside | empty _ => false
  | user | assistant _ | result _ => true

/-- The turn is the assistant's. -/
def fromAssistant : Turn → Bool
  | assistant _ => true
  | _ => false

/-- The turn is a result. -/
def isResult : Turn → Bool
  | result _ => true
  | _ => false

end Turn

/-- The turn of a Chat Completions message. -/
def ccTurn (message : Value) : Turn :=
  match messageRole message with
  | "system" | "developer" => .aside
  | "assistant" =>
    if ccAssistantText message = [] ∧ ccToolCalls message = [] then .aside
    else .assistant ((ccToolCalls message).map fun call =>
      ((call.get "id").bind Value.asStr).map Value.string)
  | "tool" => .result (message.field "tool_call_id")
  | _ => if ccPartsToAmBlocks (message.get "content") = [] then .empty .user else .user

/-- The turn of a message item. -/
def rsMessageTurn (item : Value) : Turn :=
  if (item.get "role").isNone then .aside
  else match rsMessageToAm item with
    | (role, []) => .empty role
    | (.user, _) => .user
    | (.assistant, _) => .assistant []

/-- The turn of a Responses item. -/
def rsTurn (item : Value) : Turn :=
  match (item.get "role").bind Value.asStr with
  | some "system" | some "developer" => .aside
  | _ =>
    match (item.get "type").bind Value.asStr with
    | some "function_call" => .assistant [(item.get "call_id").or (item.get "id")]
    | some "function_call_output" => .result (item.field "call_id")
    | some "reasoning" => if summaryText item = "" then .aside else .assistant []
    | some "message" | none => rsMessageTurn item
    | some _ => .aside

/-- The turns of a request of a protocol. -/
def turns : ProxyProtocol → Value → List Turn
  | CC, payload => (((payload.get "messages").bind Value.asArray).getD []).map ccTurn
  | RS, payload =>
    match payload.get "input" with
    | some (.string _) => [.user]
    | some (.array items) => items.map rsTurn
    | _ => []
  | AM, _ => []

/-- The entry that is gathered for a turn tells what it says. -/
def Tells : Turn → Option Entry → Prop
  | .aside, part => part = none
  | .empty role, part => part = some (role, [])
  | .user, part => ∃ blocks, part = some (.user, blocks) ∧ blocks ≠ [] ∧
      ∀ block ∈ blocks, block.field "type" ≠ .string "tool_result"
  | .assistant calls, part => ∃ blocks, part = some (.assistant, blocks) ∧ blocks ≠ [] ∧
      ∀ block ∈ blocks, block.field "type" = .string "tool_use" →
        ∃ call ∈ calls, ∀ id, call = some id → block.field "id" = id
  | .result id, part => ∃ content, part = some (.user, [toolResult id content])

/-- A block of a part is no result. -/
theorem type_textBlock (text : Value) : (textBlock text).field "type" = .string "text" := by
  simp [textBlock, Value.field]

/-- A block of an image is no result. -/
theorem type_imageBlock (url : String) : (imageBlock url).field "type" = .string "image" := by
  simp [imageBlock, Value.field]

/-- The identifier of a call's block. -/
theorem id_toolUse (id name input : Value) : (toolUse id name input).field "id" = id := by
  simp [toolUse, Value.field]

/-- A result's block. -/
theorem type_toolResult (id content : Value) :
    (toolResult id content).field "type" = .string "tool_result" := by
  simp [toolResult, Value.field]

/-- The call a result's block answers. -/
theorem id_toolResult (id content : Value) :
    (toolResult id content).field "tool_use_id" = id := by
  simp [toolResult, Value.field]

/-- The blocks of parts are texts and images. -/
theorem type_ccPart {part block : Value} (kept : ccPartToAmBlock part = some block) :
    block.field "type" = .string "text" ∨ block.field "type" = .string "image" := by
  rw [ccPartToAmBlock] at kept
  split at kept
  · cases kept
    exact Or.inl (type_textBlock _)
  · obtain ⟨url, -, rfl⟩ := Option.map_eq_some_iff.mp kept
    exact Or.inr (type_imageBlock _)
  · cases kept

/-- The blocks of a Chat Completions message are texts and images. -/
theorem type_ccParts {content : Option Value} {block : Value}
    (inside : block ∈ ccPartsToAmBlocks content) :
    block.field "type" = .string "text" ∨ block.field "type" = .string "image" := by
  rw [ccPartsToAmBlocks.eq_def] at inside
  split at inside
  · rw [List.mem_singleton.mp inside]
    exact Or.inl (type_textBlock _)
  · obtain ⟨part, -, kept⟩ := List.mem_filterMap.mp inside
    exact type_ccPart kept
  · cases inside

/-- The blocks of the parts of an item are texts and images. -/
theorem type_rsPart {part block : Value} (kept : rsPartToAmBlock part = some block) :
    block.field "type" = .string "text" ∨ block.field "type" = .string "image" := by
  rw [rsPartToAmBlock] at kept
  split at kept
  · cases kept
    exact Or.inl (type_textBlock _)
  · cases kept
    exact Or.inl (type_textBlock _)
  · obtain ⟨url, -, rfl⟩ := Option.map_eq_some_iff.mp kept
    exact Or.inr (type_imageBlock _)
  · cases kept

/-- The blocks of a message item are texts and images. -/
theorem type_rsParts {content : Option Value} {block : Value}
    (inside : block ∈ rsMessageContentToAm content) :
    block.field "type" = .string "text" ∨ block.field "type" = .string "image" := by
  rw [rsMessageContentToAm.eq_def] at inside
  split at inside
  · rw [List.mem_singleton.mp inside]
    exact Or.inl (type_textBlock _)
  · obtain ⟨part, -, kept⟩ := List.mem_filterMap.mp inside
    exact type_rsPart kept
  · cases inside

/-- A block that is a text or an image is neither a call nor a result. -/
theorem plain_block {block : Value}
    (plain : block.field "type" = .string "text" ∨ block.field "type" = .string "image") :
    block.field "type" ≠ .string "tool_use" ∧ block.field "type" ≠ .string "tool_result" := by
  rcases plain with kind | kind <;> rw [kind] <;> decide

/-- The text of an assistant message holds no call. -/
theorem type_ccAssistantText {message block : Value}
    (inside : block ∈ ccAssistantText message) : block.field "type" = .string "text" := by
  rw [ccAssistantText, List.mem_append] at inside
  rcases inside with thought | said
  · split at thought
    · cases thought
    · rw [List.mem_singleton.mp thought]
      exact type_textBlock _
  · split at said
    · cases said
    · rw [List.mem_singleton.mp said]
      exact type_textBlock _

variable {serde : SerdeJson}

/-- A call becomes a block that has its identifier, if it has one. -/
theorem ccCallToAm_id {count next : ℕ} {call block : Value}
    (converted : ccCallToAm serde count call = .ok (block, next)) (id : Value)
    (known : ((call.get "id").bind Value.asStr).map Value.string = some id) :
    block.field "id" = id := by
  obtain ⟨text, found, rfl⟩ := Option.map_eq_some_iff.mp known
  simp only [ccCallToAm, bind_eq_ok] at converted
  obtain ⟨⟨name, input⟩, -, made⟩ := converted
  rw [found] at made
  cases made
  exact id_toolUse ..

/-- The calls of a message become blocks, one for each. -/
theorem ccCallsToAm_ids {count next : ℕ} {calls blocks : List Value}
    (converted : ccCallsToAm serde count calls = .ok (blocks, next)) :
    (blocks = [] ↔ calls = []) ∧ ∀ block ∈ blocks, ∃ call ∈ calls, ∀ id : Value,
      ((call.get "id").bind Value.asStr).map Value.string = some id → block.field "id" = id := by
  induction calls generalizing count blocks with
  | nil =>
    cases converted
    simp
  | cons call rest ih =>
    simp only [ccCallsToAm, bind_eq_ok] at converted
    obtain ⟨⟨block, middle⟩, first, ⟨blocks, last⟩, others, ⟨⟩⟩ := converted
    refine ⟨by simp, fun other inside => ?_⟩
    rcases List.mem_cons.mp inside with rfl | later
    · exact ⟨call, List.mem_cons_self .., fun id known => ccCallToAm_id first id known⟩
    · obtain ⟨source, listed, same⟩ := (ih others).2 other later
      exact ⟨source, List.mem_cons_of_mem _ listed, same⟩

/-- The turn of a message of any other role is the user's. -/
theorem ccTurn_other {message : Value} (noSystem : messageRole message ≠ "system")
    (noDeveloper : messageRole message ≠ "developer")
    (noAssistant : messageRole message ≠ "assistant") (noTool : messageRole message ≠ "tool") :
    ccTurn message =
      if ccPartsToAmBlocks (message.get "content") = [] then .empty .user else .user := by
  rw [ccTurn]
  split
  · contradiction
  · contradiction
  · contradiction
  · contradiction
  · rfl

/-- One message of a Chat Completions request is gathered as the entry of its turn. -/
theorem ccMessageToAm_tells {gathered next : Gathered} {message : Value}
    (taken : ccMessageToAm serde gathered message = .ok next) :
    ∃ part, Tells (ccTurn message) part ∧
      next.messages = gathered.messages ++ part.toList := by
  rw [ccMessageToAm] at taken
  split at taken
  · rename_i role
    cases taken
    refine ⟨none, by simp [ccTurn, role, Tells], ?_⟩
    split <;> simp
  · rename_i role
    cases taken
    refine ⟨none, by simp [ccTurn, role, Tells], ?_⟩
    split <;> simp
  · rename_i role
    have turn : ccTurn message =
        if ccAssistantText message = [] ∧ ccToolCalls message = [] then .aside
        else .assistant ((ccToolCalls message).map fun call =>
          ((call.get "id").bind Value.asStr).map Value.string) := by
      simp [ccTurn, role]
    rw [turn]
    simp only [bind_eq_ok] at taken
    obtain ⟨⟨blocks, count⟩, calls, ⟨⟩⟩ := taken
    obtain ⟨none_, ids⟩ := ccCallsToAm_ids calls
    by_cases silent : ccAssistantText message = [] ∧ ccToolCalls message = []
    · have nothing : ccAssistantText message ++ blocks = [] := by
        rw [silent.1, none_.mpr silent.2]
        rfl
      rw [if_pos silent]
      exact ⟨none, rfl, by simp [nothing]⟩
    · have something : ccAssistantText message ++ blocks ≠ [] := fun nothing => by
        obtain ⟨text, calls⟩ := List.append_eq_nil_iff.mp nothing
        exact silent ⟨text, none_.mp calls⟩
      rw [if_neg silent]
      refine ⟨some (.assistant, ccAssistantText message ++ blocks),
        ⟨_, rfl, something, fun block inside isCall => ?_⟩, by simp [something]⟩
      rcases List.mem_append.mp inside with text | call
      · exact absurd isCall (plain_block (Or.inl (type_ccAssistantText text))).1
      · obtain ⟨source, listed, same⟩ := ids block call
        exact ⟨_, List.mem_map_of_mem listed, same⟩
  · rename_i role
    cases taken
    have turn : ccTurn message = .result (message.field "tool_call_id") := by simp [ccTurn, role]
    rw [turn]
    exact ⟨some (.user, [_]), ⟨_, rfl⟩, rfl⟩
  · rename_i noSystem noDeveloper noAssistant noTool
    cases taken
    rw [ccTurn_other noSystem noDeveloper noAssistant noTool]
    by_cases nothing : ccPartsToAmBlocks (message.get "content") = []
    · rw [if_pos nothing]
      exact ⟨some (.user, []), rfl, by simp [nothing]⟩
    · rw [if_neg nothing]
      exact ⟨some (.user, ccPartsToAmBlocks (message.get "content")), ⟨_, rfl, nothing,
        fun block inside => (plain_block (type_ccParts inside)).2⟩, rfl⟩

/-- A message item is gathered as the entry of its turn. -/
theorem rsMessageToAm_tells (item : Value) :
    Tells (rsMessageTurn item)
      (if (item.get "role").isSome then some (rsMessageToAm item) else none) := by
  rw [rsMessageTurn]
  cases present : item.get "role" with
  | none => rfl
  | some role =>
    simp only [Option.isNone_some, Bool.false_eq_true, if_false, Option.isSome_some, if_true]
    have plain : ∀ block ∈ (rsMessageToAm item).2, block.field "type" ≠ .string "tool_use" ∧
        block.field "type" ≠ .string "tool_result" := fun block inside =>
      plain_block (type_rsParts inside)
    cases shape : rsMessageToAm item with
    | mk speaker blocks =>
      rw [shape] at plain
      cases blocks with
      | nil => rfl
      | cons block blocks =>
        cases speaker with
        | user =>
          exact ⟨_, rfl, List.cons_ne_nil _ _, fun block inside => (plain block inside).2⟩
        | assistant =>
          exact ⟨_, rfl, List.cons_ne_nil _ _, fun block inside isCall =>
            absurd isCall (plain block inside).1⟩

/-- The turn of an item of a role other than the instructions' is that of its kind. -/
theorem rsTurn_item {item : Value} (noSystem : (item.get "role").bind Value.asStr ≠ some "system")
    (noDeveloper : (item.get "role").bind Value.asStr ≠ some "developer") :
    rsTurn item = match (item.get "type").bind Value.asStr with
      | some "function_call" => .assistant [(item.get "call_id").or (item.get "id")]
      | some "function_call_output" => .result (item.field "call_id")
      | some "reasoning" => if summaryText item = "" then .aside else .assistant []
      | some "message" | none => rsMessageTurn item
      | some _ => .aside := by
  rw [rsTurn]
  split
  · contradiction
  · contradiction
  · rfl

/-- An item is gathered as the entry of the turn of its kind. -/
theorem rsItemToAm_tells {item : Value} {generatedIds count : ℕ} {entry : Option Entry}
    (noSystem : (item.get "role").bind Value.asStr ≠ some "system")
    (noDeveloper : (item.get "role").bind Value.asStr ≠ some "developer")
    (converted : rsItemToAm serde generatedIds item = .ok (entry, count)) :
    Tells (rsTurn item) entry := by
  rw [rsTurn_item noSystem noDeveloper]
  rw [rsItemToAm] at converted
  split at converted
  · rename_i kind
    simp only [kind]
    simp only [bind_eq_ok] at converted
    obtain ⟨input, -, made⟩ := converted
    cases id : (item.get "call_id").or (item.get "id") with
    | some id =>
      rw [id] at made
      cases made
      refine ⟨_, rfl, List.cons_ne_nil _ _, fun block inside _ =>
        ⟨_, List.mem_singleton_self _, fun known same => ?_⟩⟩
      rw [List.mem_singleton.mp inside, id_toolUse]
      exact Option.some.inj same
    | none =>
      rw [id] at made
      cases made
      exact ⟨_, rfl, List.cons_ne_nil _ _, fun block inside _ =>
        ⟨_, List.mem_singleton_self _, fun known same => by cases same⟩⟩
  · rename_i kind
    cases converted
    simp only [kind]
    exact ⟨_, rfl⟩
  · rename_i kind
    cases converted
    simp only [kind]
    by_cases silent : summaryText item = ""
    · rw [if_pos silent, if_pos silent]
      rfl
    · rw [if_neg silent, if_neg silent]
      refine ⟨_, rfl, List.cons_ne_nil _ _, fun block inside isCall => ?_⟩
      rw [List.mem_singleton.mp inside] at isCall
      exact absurd isCall (plain_block (Or.inl (type_textBlock _))).1
  · cases converted
  · rename_i kind
    cases converted
    simp only [kind]
    exact rsMessageToAm_tells item
  · rename_i other noCall noOutput noReasoning noReference noMessage kind
    split at converted
    · cases converted
    · cases converted
      rw [kind]
      have aside : (match some other with
          | some "function_call" => Turn.assistant [(item.get "call_id").or (item.get "id")]
          | some "function_call_output" => Turn.result (item.field "call_id")
          | some "reasoning" => if summaryText item = "" then Turn.aside else Turn.assistant []
          | some "message" | none => rsMessageTurn item
          | some _ => Turn.aside) = Turn.aside := by
        split <;> simp_all
      rw [aside]
      rfl
  · rename_i kind
    cases converted
    simp only [kind]
    exact rsMessageToAm_tells item

/-- One item of a Responses request is gathered as the entry of its turn. -/
theorem rsInputToAm_tells {gathered next : Gathered} {item : Value}
    (taken : rsInputToAm serde gathered item = .ok next) :
    ∃ part, Tells (rsTurn item) part ∧ next.messages = gathered.messages ++ part.toList := by
  rw [rsInputToAm] at taken
  split at taken
  · rename_i role
    cases taken
    exact ⟨none, by simp [rsTurn, role, Tells], by simp⟩
  · rename_i role
    cases taken
    exact ⟨none, by simp [rsTurn, role, Tells], by simp⟩
  · rename_i noSystem noDeveloper
    simp only [bind_eq_ok] at taken
    obtain ⟨⟨entry, count⟩, converted, ⟨⟩⟩ := taken
    exact ⟨entry, rsItemToAm_tells noSystem noDeveloper converted, rfl⟩

/-- A loop over messages gathers the entries of their turns. -/
theorem foldlM_tells (step : Gathered → Value → Except ConversionError Gathered)
    (turn : Value → Turn)
    (tells : ∀ gathered next item, step gathered item = .ok next →
      ∃ part, Tells (turn item) part ∧ next.messages = gathered.messages ++ part.toList)
    {items : List Value} {gathered last : Gathered}
    (taken : items.foldlM step gathered = .ok last) :
    ∃ parts, List.Forall₂ Tells (items.map turn) parts ∧
      last.messages = gathered.messages ++ parts.reduceOption := by
  induction items generalizing gathered with
  | nil =>
    cases taken
    exact ⟨[], .nil, by simp [List.reduceOption]⟩
  | cons item items ih =>
    rw [List.foldlM_cons, bind_eq_ok] at taken
    obtain ⟨next, first, rest⟩ := taken
    obtain ⟨part, told, grown⟩ := tells _ _ _ first
    obtain ⟨parts, others, all⟩ := ih rest
    refine ⟨part :: parts, .cons told others, ?_⟩
    rw [all, grown, List.append_assoc]
    cases part <;> rfl

/-- The marks of turns are those of their entries. -/
theorem marks_tells {conversation : List Turn} {parts : List (Option Entry)}
    (tells : List.Forall₂ Tells conversation parts) :
    conversation.filterMap Turn.mark = parts.reduceOption.map mark := by
  induction tells with
  | nil => rfl
  | @cons turn part conversation parts told rest ih =>
    cases turn with
    | aside =>
      cases told
      exact ih
    | empty role =>
      cases told
      simpa [Turn.mark, List.reduceOption, mark] using ih
    | user =>
      obtain ⟨blocks, rfl, some_, -⟩ := told
      simpa [Turn.mark, List.reduceOption, mark, some_] using ih
    | assistant calls =>
      obtain ⟨blocks, rfl, some_, -⟩ := told
      simpa [Turn.mark, List.reduceOption, mark, some_] using ih
    | result id =>
      obtain ⟨content, rfl⟩ := told
      simpa [Turn.mark, List.reduceOption, mark] using ih

/-- The entries with blocks are those of the turns that say something. -/
theorem filled_tells {conversation : List Turn} {parts : List (Option Entry)}
    (tells : List.Forall₂ Tells conversation parts) :
    List.Forall₂ (fun turn entry => Tells turn (some entry))
      (conversation.filter Turn.speaks) (filled parts.reduceOption) := by
  induction tells with
  | nil => exact .nil
  | @cons turn part conversation parts told rest ih =>
    cases turn with
    | aside =>
      cases told
      exact ih
    | empty role =>
      cases told
      exact ih
    | user =>
      obtain ⟨blocks, rfl, some_, plain⟩ := told
      have kept : filled ((some (Role.user, blocks) :: parts).reduceOption) =
          (Role.user, blocks) :: filled parts.reduceOption :=
        List.filter_cons_of_pos (by simp [some_])
      rw [kept]
      exact .cons ⟨blocks, rfl, some_, plain⟩ ih
    | assistant calls =>
      obtain ⟨blocks, rfl, some_, ids⟩ := told
      have kept : filled ((some (Role.assistant, blocks) :: parts).reduceOption) =
          (Role.assistant, blocks) :: filled parts.reduceOption :=
        List.filter_cons_of_pos (by simp [some_])
      rw [kept]
      exact .cons ⟨blocks, rfl, some_, ids⟩ ih
    | result id =>
      obtain ⟨content, rfl⟩ := told
      exact .cons ⟨content, rfl⟩ ih

/-- Only the last entry matters to the next. -/
theorem mergeEntry_append (front : List Entry) (last next : Entry) :
    mergeEntry (front ++ [last]) next = front ++ mergeEntry [last] next := by
  simp only [mergeEntry, List.getLast?_append, List.getLast?_singleton, Option.some_or,
    List.dropLast_concat, List.dropLast_singleton, List.nil_append]
  split
  · rfl
  · simp

/-- An entry in front and an entry behind do not meet. -/
theorem consRun_mergeEntry (entry : Entry) (merged : List Entry) (next : Entry) :
    consRun entry (mergeEntry merged next) = mergeEntry (consRun entry merged) next := by
  rcases List.eq_nil_or_concat merged with rfl | ⟨front, last, rfl⟩
  · by_cases same : entry.1 = next.1 <;> simp [mergeEntry, consRun, same]
  · rw [List.concat_eq_append, mergeEntry_append]
    cases front with
    | nil =>
      obtain ⟨role, blocks⟩ := entry
      obtain ⟨role', blocks'⟩ := last
      obtain ⟨role'', blocks''⟩ := next
      by_cases same : role = role'
      · subst same
        by_cases same : role = role'' <;> simp [mergeEntry, consRun, same]
      · by_cases same' : role' = role''
        · subst same'
          simp [mergeEntry, consRun, same]
        · simp [mergeEntry, consRun, same, same']
    | cons first front =>
      rw [List.cons_append, List.cons_append, consRun, consRun]
      split
      · exact (mergeEntry_append (_ :: front) last next).symm
      · exact (mergeEntry_append (_ :: _ :: front) last next).symm

/-- Runs of entries are folded as the converter folds them. -/
theorem foldl_mergeEntry (messages : List Entry) :
    messages.foldl mergeEntry [] = runs messages := by
  have step : ∀ (front : List Entry) (entry : Entry),
      mergeEntry (runs front) entry = runs (front ++ [entry]) := by
    intro front entry
    induction front with
    | nil => rfl
    | cons first front ih => rw [runs, ← consRun_mergeEntry, ih, List.cons_append, runs]
  have grows : ∀ front rest : List Entry, rest.foldl mergeEntry (runs front) =
      runs (front ++ rest) := by
    intro front rest
    induction rest generalizing front with
    | nil => rw [List.foldl_nil, List.append_nil]
    | cons entry rest ih =>
      rw [List.foldl_cons, step, ih, List.append_assoc, List.singleton_append]
  exact grows [] messages

end Aipass.Conversion
