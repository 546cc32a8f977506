import Mathlib.Data.List.Dedup
import Aipass.Claude.Bridge

/-!
# What a process has seen conveys a conversation

A process that was handed a conversation, or the contents of its only message, and then turn by turn
what the user added and the replies it gave itself, has seen that conversation. Thinking of an
assistant that its digest leaves out makes no difference. Each request that a run goes on with, and
each reply of its process, keeps what the process has seen in step with the messages of the run.
-/
namespace Aipass.Claude

open Proxy (Instant)

section Relation

variable (serde : SerdeJson)

/-- What a process has seen conveys the messages of a conversation. -/
inductive Conveys : List Exchange → List Value → Prop
  /-- It was handed the whole conversation. -/
  | whole {messages : List Value} (some_ : messages ≠ []) :
      Conveys [.user (promptOf serde false messages)] messages
  /-- It was handed the contents of a message. -/
  | user {seen : List Exchange} {messages : List Value} {message : Value}
      (before : Conveys seen messages) (isUser : message.field "role" = "user") :
      Conveys (seen ++ [.user (message.field "content")]) (messages ++ [message])
  /-- It was handed the results that a message consists of. -/
  | results {seen : List Exchange} {messages : List Value} {message : Value} {blocks : List Value}
      {handed : List (String × Value)} (before : Conveys seen messages)
      (isUser : message.field "role" = "user") (isBlocks : message.field "content" = .array blocks)
      (areResults : ∀ block ∈ blocks, isResult block = true)
      (areHanded : List.Forall₂ (fun block result => callOf block = some result.1 ∧
        toolResult block = .ok result.2) blocks handed) :
      Conveys (seen ++ [.results handed]) (messages ++ [message])
  /-- It gave a reply. -/
  | assistant {seen : List Exchange} {messages : List Value} {content : List Value}
      (before : Conveys seen messages) :
      Conveys (seen ++ [.assistant content])
        (messages ++ [.obj [("role", "assistant"), ("content", .array content)]])
  /-- What digests leave out makes no difference. -/
  | alike {seen : List Exchange} {messages others : List Value} (before : Conveys seen messages)
      (same : messages.map portable = others.map portable) : Conveys seen others

variable {serde}

/-- A message that is a user's as its digest has it is so as it is. -/
theorem eq_of_portable {message other : Value} (same : portable message = other)
    (isUser : other.field "role" = "user") : message = other := by
  by_cases isAssistant : message.field "role" = "assistant"
  · rw [portable, if_pos isAssistant] at same
    cases message with
    | object fields =>
      have role : other.field "role" = "assistant" := by
        rw [← same, Value.field, Value.get_set (by trivial), if_neg (by decide)]
        exact isAssistant
      rw [isUser] at role
      exact absurd role (by decide)
    | _ => cases isAssistant
  · rwa [portable, if_neg isAssistant] at same

/-- A user's message is its portable form. -/
theorem portable_of_isUser {message : Value} (isUser : message.field "role" = "user") :
    portable message = message := by
  rw [portable, isUser]
  exact if_neg (by decide)

/-- A process that has seen every turn of a conversation on its own has seen the first one as it is. -/
def OpensWith (seen : List Exchange) (messages : List Value) : Prop :=
  seen.length ≤ messages.length ∧ (seen.length = messages.length →
    ∃ first rest content others, messages = first :: rest ∧ seen = .user content :: others ∧
      (first.field "role" = "user" → content = first.field "content"))

/-- One more turn leaves the first one. -/
theorem OpensWith.append {seen : List Exchange} {messages : List Value}
    (opens : OpensWith seen messages) (exchange : Exchange) (message : Value) :
    OpensWith (seen ++ [exchange]) (messages ++ [message]) := by
  obtain ⟨fewer, isFirst⟩ := opens
  refine ⟨by simpa using fewer, fun same => ?_⟩
  obtain ⟨first, rest, content, others, rfl, rfl, told⟩ := isFirst (by simpa using same)
  exact ⟨first, rest ++ [message], content, others ++ [exchange], rfl, rfl, told⟩

/-- What conveys a conversation opens with its first message. -/
theorem Conveys.opensWith {seen : List Exchange} {messages : List Value}
    (conveys : Conveys serde seen messages) : OpensWith seen messages := by
  induction conveys with
  | @whole messages some_ =>
    refine ⟨List.length_pos_iff.mpr some_, fun same => ?_⟩
    obtain ⟨message, rfl⟩ := List.length_eq_one_iff.mp same.symm
    refine ⟨message, [], _, [], rfl, rfl, fun isUser => ?_⟩
    rw [promptOf, if_pos (Or.inr ⟨rfl, isUser⟩)]
    rfl
  | user before isUser ih => exact ih.append _ _
  | results before isUser isBlocks areResults areHanded ih => exact ih.append _ _
  | assistant before ih => exact ih.append _ _
  | @alike seen messages others before same ih =>
    have sameLength : messages.length = others.length := by simpa using congrArg List.length same
    refine ⟨sameLength ▸ ih.1, fun equal => ?_⟩
    obtain ⟨first, rest, content, turns, rfl, rfl, told⟩ := ih.2 (equal.trans sameLength.symm)
    cases others with
    | nil => cases sameLength
    | cons other others =>
      rw [List.map_cons, List.map_cons] at same
      obtain ⟨isSame, -⟩ := List.cons.inj same
      refine ⟨other, others, content, turns, rfl, rfl, fun isUser => ?_⟩
      have isFirst := eq_of_portable (isSame.trans (portable_of_isUser isUser)) isUser
      rw [← isFirst] at isUser ⊢
      exact told isUser

end Relation

variable {δ : Type} [DecidableEq δ] {serde : SerdeJson} {sha : Sha δ}

/-- What holds of a run. -/
structure Run.Kept (serde : SerdeJson) (sha : Sha δ) (run : Run δ) : Prop where
  /-- Its process has seen the conversation. -/
  conveys : Conveys serde run.seen run.historyMessages
  history : run.history = historyHash sha run.historyMessages
  /-- Each call has been handed one result at most. -/
  once : (resultIds run.seen).Nodup
  handed : ∀ id ∈ resultIds run.seen, id ∈ run.recorded
  known : ∀ call ∈ run.calls, call.id ∈ run.recorded
  distinct : (run.calls.map ToolCall.id).Nodup
  pending : ∀ id ∈ pendingCalls run.calls, id ∉ resultIds run.seen

/-- What holds of a saved session: what its process had seen conveys a conversation of its digest. -/
def Saved.Kept (serde : SerdeJson) (sha : Sha δ) (saved : Saved δ) : Prop :=
  (∃ messages, Conveys serde saved.seen messages ∧ saved.history = historyHash sha messages) ∧
    (resultIds saved.seen).Nodup

/-- What a process was handed or has answered adds its results. -/
theorem resultIds_append (seen : List Exchange) (exchange : Exchange) :
    resultIds (seen ++ [exchange]) = resultIds seen ++ exchange.resultIds := by
  rw [resultIds, List.flatMap_append, List.flatMap_singleton]
  rfl

omit [DecidableEq δ] in
/-- Equal digests are those of conversations that differ in what digests leave out. -/
theorem portable_of_historyHash (injective : Function.Injective sha.hash) {left right : List Value}
    (same : historyHash sha left = historyHash sha right) :
    left.map portable = right.map portable :=
  Value.array.inj (injective same)

/-! ## Results -/

/-- The calls stay the same when one gets its result. -/
theorem ids_setResult (calls : List ToolCall) (result : String × Value) :
    (setResult calls result).map ToolCall.id = calls.map ToolCall.id := by
  induction calls with
  | nil => rfl
  | cons call rest ih =>
    rw [setResult]
    split
    · rfl
    · rw [List.map_cons, ih, List.map_cons]

/-- A call that waits. -/
theorem mem_pendingCalls {calls : List ToolCall} {id : String} :
    id ∈ pendingCalls calls ↔ ∃ call ∈ calls, call.result.isNone = true ∧ call.id = id := by
  simp only [pendingCalls, List.mem_map, List.mem_filter, and_assoc]

/-- A call without a result, after one got its result, is another one and had none before. -/
theorem mem_setResult {calls : List ToolCall} {result : String × Value}
    (distinct : (calls.map ToolCall.id).Nodup) {call : ToolCall}
    (inside : call ∈ setResult calls result) (waits : call.result.isNone = true) :
    call ∈ calls ∧ call.id ≠ result.1 := by
  induction calls with
  | nil => cases inside
  | cons first rest ih =>
    rw [List.map_cons, List.nodup_cons] at distinct
    rw [setResult] at inside
    split at inside
    · rename_i isFirst
      obtain rfl | later := List.mem_cons.mp inside
      · cases waits
      · refine ⟨List.mem_cons_of_mem _ later, fun same => distinct.1 ?_⟩
        exact isFirst.trans same.symm ▸ List.mem_map_of_mem later
    · rename_i isOther
      obtain rfl | later := List.mem_cons.mp inside
      · exact ⟨List.mem_cons_self, isOther⟩
      · obtain ⟨before, differ⟩ := ih distinct.2 later
        exact ⟨List.mem_cons_of_mem _ before, differ⟩

/-- A call waits after another got its result only if it waited before, and is not that one. -/
theorem mem_pendingCalls_setResult {calls : List ToolCall} {result : String × Value} {id : String}
    (distinct : (calls.map ToolCall.id).Nodup) (waits : id ∈ pendingCalls (setResult calls result)) :
    id ∈ pendingCalls calls ∧ id ≠ result.1 := by
  obtain ⟨call, inside, unset, rfl⟩ := mem_pendingCalls.mp waits
  obtain ⟨before, differ⟩ := mem_setResult distinct inside unset
  exact ⟨mem_pendingCalls.mpr ⟨call, before, unset, rfl⟩, differ⟩

/-- The calls stay the same when several get their results. -/
theorem ids_setResults (results : List (String × Value)) (calls : List ToolCall) :
    (results.foldl setResult calls).map ToolCall.id = calls.map ToolCall.id := by
  induction results generalizing calls with
  | nil => rfl
  | cons result rest ih => rw [List.foldl_cons, ih, ids_setResult]

/-- A call waits after several got their results only if it waited before, and is none of them. -/
theorem mem_pendingCalls_setResults {results : List (String × Value)} {calls : List ToolCall}
    {id : String} (distinct : (calls.map ToolCall.id).Nodup)
    (waits : id ∈ pendingCalls (results.foldl setResult calls)) :
    id ∈ pendingCalls calls ∧ id ∉ results.map Prod.fst := by
  induction results generalizing calls with
  | nil => exact ⟨waits, List.not_mem_nil⟩
  | cons result rest ih =>
    obtain ⟨before, others⟩ := ih (by rwa [ids_setResult]) waits
    obtain ⟨before, differ⟩ := mem_pendingCalls_setResult distinct before
    refine ⟨before, fun inside => ?_⟩
    obtain same | inside := List.mem_cons.mp inside
    · exact differ same
    · exact others inside

/-- Results that are valid are one for each call that waits, in the order of the blocks. -/
theorem validateResults_spec {calls : List ToolCall} {results : List Value}
    {validated : List (String × Value)} (some_ : results ≠ [])
    (valid : validateResults calls results = .ok validated) :
    List.Forall₂ (fun block result => callOf block = some result.1 ∧
        toolResult block = .ok result.2) results validated ∧
      (validated.map Prod.fst).Nodup ∧ (∀ id, id ∈ validated.map Prod.fst ↔ id ∈ pendingCalls calls) := by
  unfold validateResults at valid
  rw [if_neg (by simpa using some_)] at valid
  simp only [bind_eq_ok, refuseIf_eq_ok, decide_eq_false_iff_not, not_or, not_not, exists_and_left,
    exists_const] at valid
  obtain ⟨⟨⟨known, all⟩, isCount⟩, mapped⟩ := valid
  have counts : (results.filterMap callOf).length = results.length :=
    le_antisymm (List.length_filterMap_le _ _)
      (isCount ▸ (List.dedup_sublist (results.filterMap callOf)).length_le)
  have whole : (results.filterMap callOf).dedup = results.filterMap callOf :=
    (List.dedup_sublist _).eq_of_length (isCount.trans counts.symm)
  have areCalls : ∀ block ∈ results, (callOf block).isSome = true :=
    List.filterMap_length_eq_length.mp counts
  rw [whole] at known all
  have pairs : List.Forall₂ (fun block result => callOf block = some result.1 ∧
      toolResult block = .ok result.2) results validated := by
    refine ((List.forall₂_and_left _ _).mpr ⟨areCalls, forall₂_mapM mapped⟩).imp ?_
    rintro block result ⟨isCall, made⟩
    obtain ⟨call, isCall⟩ := Option.isSome_iff_exists.mp isCall
    simp only [isCall, Option.getD_some, bind_eq_ok, Except.ok.injEq] at made
    obtain ⟨value, isValue, rfl⟩ := made
    exact ⟨isCall, isValue⟩
  have ids : validated.map Prod.fst = results.filterMap callOf := by
    clear known all whole counts isCount mapped areCalls some_
    induction pairs with
    | nil => rfl
    | cons pair rest ih => rw [List.map_cons, List.filterMap_cons, pair.1, ih]
  rw [ids]
  exact ⟨pairs, whole ▸ List.nodup_dedup _, fun id => ⟨fun inside => known inside, fun waits => all waits⟩⟩

end Aipass.Claude
