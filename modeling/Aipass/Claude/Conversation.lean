import Aipass.Claude.Conveyed

/-!
# A process has seen the client's conversation

A request that a run goes on with is of the same target, credential and context, and finds the run
idle. If its last message is a user's, and one with tool results has nothing else and comes after
the history of the run, then the process has seen exactly its messages when the step is done. The
history is checked where the run is found by it, but not where it is found by its calls; there, text
beside the results is dropped as well.
-/
namespace Aipass.Claude

open Proxy (Instant)

variable {δ : Type} {serde : SerdeJson} {sha : Sha δ}

/-! ## Requests -/

/-- A request that a run goes on with extends its conversation by a user's message, which has tool
results only or none. -/
structure Extends (sha : Sha δ) (run : Run δ) (messages : List Value) : Prop where
  isUser : (lastMessage messages).field "role" = "user"
  results : resultsOf messages ≠ [] → run.history = historyHash sha messages.dropLast ∧
    ∀ block ∈ Plan.items ((lastMessage messages).field "content"), isResult block = true

/-- A request that passes the checks of its payload has messages. -/
theorem messages_of_prepare {target : Target} {payload : Value} {prepared : Prepared δ}
    (isPrepared : prepare serde sha target payload = .ok prepared) :
    prepared.messages ≠ [] ∧ prepared.fingerprint = sha.fingerprint target.apiKey := by
  unfold prepare at isPrepared
  simp only [bind_eq_ok] at isPrepared
  obtain ⟨-, -, -, -, -, -, -, -, plan, -, checked⟩ := isPrepared
  split at checked
  · simp only [bind_eq_ok, refuseIf_eq_ok, Except.ok.injEq] at checked
    obtain ⟨-, -, messages, -, -, nonempty, rfl⟩ := checked
    exact ⟨by simpa using nonempty, rfl⟩
  · simp only [bind_eq_ok, refuseIf_eq_ok, Except.ok.injEq] at checked
    obtain ⟨-, -, messages, -, -, nonempty, rfl⟩ := checked
    exact ⟨by simpa using nonempty, rfl⟩

/-- The messages of a request are its last one after the others. -/
theorem dropLast_lastMessage {messages : List Value} (some_ : messages ≠ []) :
    messages.dropLast ++ [lastMessage messages] = messages := by
  rw [lastMessage, List.getLast?_eq_some_getLast some_, Option.getD_some,
    List.dropLast_append_getLast some_]

/-- What conveys a conversation conveys another of the same digest. -/
theorem Conveys.of_historyHash (injective : Function.Injective sha.hash) {seen : List Exchange}
    {left right : List Value} (conveys : Conveys serde seen left)
    (same : historyHash sha left = historyHash sha right) : Conveys serde seen right :=
  conveys.alike (portable_of_historyHash injective same)

namespace Run
namespace Kept

variable {run : Run δ} {prepared : Prepared δ} {now : Instant}

/-- A run that goes on with the contents of a message. -/
theorem goOn_user (injective : Function.Injective sha.hash) (kept : run.Kept serde sha)
    (some_ : prepared.messages ≠ []) (same : run.history = historyHash sha prepared.messages.dropLast)
    (isUser : (lastMessage prepared.messages).field "role" = "user") :
    (run.goOn sha prepared now []
      (.user ((lastMessage prepared.messages).field "content"))).Kept serde sha := by
  have conveys := (kept.conveys.of_historyHash injective (kept.history.symm.trans same)).user isUser
  rw [dropLast_lastMessage some_] at conveys
  have ids : resultIds (run.seen ++ [.user ((lastMessage prepared.messages).field "content")]) =
      resultIds run.seen := by
    rw [resultIds_append]
    exact List.append_nil _
  refine ⟨conveys, rfl, ?_, ?_, fun call none_ => ?_, List.nodup_nil, fun id none_ => ?_⟩
  · exact ids ▸ kept.once
  · exact ids ▸ kept.handed
  · cases none_
  · cases none_

/-- A run that goes on with the results of its calls. -/
theorem goOn_results (injective : Function.Injective sha.hash) (kept : run.Kept serde sha)
    (messages : prepared.messages ≠ []) (extends_ : Extends sha run prepared.messages)
    (some_ : resultsOf prepared.messages ≠ []) {validated : List (String × Value)}
    (valid : validateResults run.calls (resultsOf prepared.messages) = .ok validated) :
    (run.goOn sha prepared now (validated.foldl setResult run.calls)
      (.results validated)).Kept serde sha := by
  obtain ⟨same, areResults⟩ := extends_.results some_
  obtain ⟨pairs, distinct, ids⟩ := validateResults_spec some_ valid
  obtain ⟨blocks, isBlocks⟩ : ∃ blocks,
      (lastMessage prepared.messages).field "content" = .array blocks := by
    unfold resultsOf Plan.items at some_
    cases content : (lastMessage prepared.messages).field "content" with
    | array blocks => exact ⟨blocks, rfl⟩
    | _ => exact absurd (by rw [content]; rfl) some_
  have isAll : resultsOf prepared.messages = blocks := by
    unfold resultsOf
    rw [List.filter_eq_self.mpr areResults, isBlocks]
    rfl
  rw [isBlocks] at areResults
  rw [isAll] at pairs
  have conveys := (kept.conveys.of_historyHash injective (kept.history.symm.trans same)).results
    extends_.isUser isBlocks areResults pairs
  rw [dropLast_lastMessage messages] at conveys
  have added : resultIds (run.seen ++ [.results validated]) =
      resultIds run.seen ++ validated.map Prod.fst := resultIds_append _ _
  have known : ∀ id ∈ validated.map Prod.fst, id ∈ run.recorded := by
    intro id inside
    obtain ⟨call, held, -, rfl⟩ := mem_pendingCalls.mp ((ids id).mp inside)
    exact kept.known call held
  have sameIds := ids_setResults validated run.calls
  refine ⟨conveys, rfl, ?_, ?_, ?_, ?_, ?_⟩
  · refine added ▸ List.nodup_append.mpr ⟨kept.once, distinct, ?_⟩
    rintro id before other inside rfl
    exact kept.pending id ((ids id).mp inside) before
  · intro id inside
    obtain before | now_ := List.mem_append.mp (added ▸ inside)
    · exact kept.handed id before
    · exact known id now_
  · intro call inside
    have isId : call.id ∈ run.calls.map ToolCall.id := sameIds ▸ List.mem_map_of_mem inside
    obtain ⟨before, held, isSame⟩ := List.mem_map.mp isId
    exact isSame ▸ kept.known before held
  · exact sameIds ▸ kept.distinct
  · intro id waits inside
    obtain ⟨waited, unset⟩ := mem_pendingCalls_setResults kept.distinct waits
    obtain before | now_ := List.mem_append.mp (added ▸ inside)
    · exact kept.pending id waited before
    · exact unset now_

/-- A run whose process has sent an event. -/
theorem collect (kept : run.Kept serde sha) {collector : Collector} {event : Value}
    (fresh : ∀ call, completedCall collector event = some call → call.id ∉ run.recorded)
    (stops : collector.complete = true → event.field "type" = "message_stop") :
    (run.collect sha collector event now).Kept serde sha := by
  have made : ∀ call ∈ (completedCall collector event).toList, call.id ∉ run.recorded :=
    fun call inside => fresh call (Option.mem_toList.mp inside)
  have recorded : ∀ id ∈ resultIds run.seen,
      id ∈ run.recorded ++ (completedCall collector event).toList.map ToolCall.id :=
    fun id inside => List.mem_append_left _ (kept.handed id inside)
  have known : ∀ call ∈ run.calls ++ (completedCall collector event).toList,
      call.id ∈ run.recorded ++ (completedCall collector event).toList.map ToolCall.id := by
    intro call inside
    obtain before | new := List.mem_append.mp inside
    · exact List.mem_append_left _ (kept.known call before)
    · exact List.mem_append_right _ (List.mem_map_of_mem new)
  have distinct : ((run.calls ++ (completedCall collector event).toList).map ToolCall.id).Nodup := by
    rw [List.map_append]
    refine List.nodup_append.mpr ⟨kept.distinct, ?_, ?_⟩
    · cases completedCall collector event <;> simp
    · rintro id before other new rfl
      obtain ⟨old, held, rfl⟩ := List.mem_map.mp before
      obtain ⟨call, inside, same⟩ := List.mem_map.mp new
      exact made call inside (same ▸ kept.known old held)
  have pending : ∀ id ∈ pendingCalls (run.calls ++ (completedCall collector event).toList),
      id ∉ resultIds run.seen := by
    intro id waits before
    obtain ⟨call, inside, unset, rfl⟩ := mem_pendingCalls.mp waits
    obtain held | new := List.mem_append.mp inside
    · exact kept.pending call.id (mem_pendingCalls.mpr ⟨call, held, unset, rfl⟩) before
    · exact made call new (kept.handed call.id before)
  unfold Run.collect
  simp only
  split
  · rename_i complete
    rw [if_pos (stops complete)]
    have ids : resultIds (run.seen ++ [.assistant collector.content]) = resultIds run.seen := by
      rw [resultIds_append]
      exact List.append_nil _
    exact ⟨kept.conveys.assistant, rfl, ids ▸ kept.once, ids ▸ recorded, known, distinct,
      ids ▸ pending⟩
  · exact ⟨kept.conveys, kept.history, kept.once, recorded, known, distinct, pending⟩

/-- A run whose process claims a call. -/
theorem claim (kept : run.Kept serde sha) (name : String) (arguments : Value) :
    ({ run with calls := (claim name arguments run.calls).1 } : Run δ).Kept serde sha := by
  have same : ∀ calls : List ToolCall, (Claude.claim name arguments calls).1.map
      (fun call => (call.id, call.result)) = calls.map fun call => (call.id, call.result) := by
    intro calls
    induction calls with
    | nil => rfl
    | cons call rest ih =>
      unfold Claude.claim
      split
      · rfl
      · simp only [List.map_cons, ih]
  have ids : (Claude.claim name arguments run.calls).1.map ToolCall.id =
      run.calls.map ToolCall.id := by
    simpa only [List.map_map, Function.comp_def] using congrArg (List.map Prod.fst) (same run.calls)
  have waiting : pendingCalls (Claude.claim name arguments run.calls).1 = pendingCalls run.calls := by
    have asPairs (calls : List ToolCall) : pendingCalls calls =
        ((calls.map fun call => (call.id, call.result)).filter fun pair => pair.2.isNone).map
          Prod.fst := by
      rw [List.filter_map, List.map_map]
      rfl
    rw [asPairs, asPairs, same]
  refine ⟨kept.conveys, kept.history, kept.once, kept.handed, fun call inside => ?_, ?_, ?_⟩
  · have isId : call.id ∈ run.calls.map ToolCall.id := ids ▸ List.mem_map_of_mem inside
    obtain ⟨before, held, isSame⟩ := List.mem_map.mp isId
    exact isSame ▸ kept.known before held
  · exact ids ▸ kept.distinct
  · exact waiting ▸ kept.pending

end Kept
end Run
end Aipass.Claude
