import Aipass.Bridge.Events

/-!
# Chains of responses

A request names the response it goes on from, and what is sent for it is the history of that
response, its inputs and outputs in order, and then its own input. Only the latest completed
response of a lane can be named. A failure leaves the entries of the other lanes in the cache, whose
histories are not too large together.
-/
namespace Aipass.Bridge

variable {serde : SerdeJson}

/-- The inputs and outputs of the responses before a request. -/
def itemsOf (base : Option Chain) : List Value := base.elim [] Chain.items

/-- The items of a response follow those of the response it goes on from. -/
theorem Chain.items_of (base : Option Chain) (input output : List Value) (server : Option Uuid) :
    (Chain.of base input output server).items = itemsOf base ++ input ++ output := by
  cases base <;> rfl

/-- What `prepare` makes of a request. -/
theorem Session.prepare_eq_ok {session : Session} {value : Value} {prepared : Prepared}
    (isPrepared : session.prepare serde value = .ok prepared) :
    ∃ parent before input, session.parent value = .ok parent ∧
      historyOf serde parent = .ok before ∧ inputOf value = .ok input ∧
      prepared.history = before ++ input ∧ value.IsObject ∧
      prepared.body = bodyOf value prepared.history ∧
      session.bindTarget ((value.field "stream_id").asStr.getD "") prepared.history
        (parent.bind fun entry => entry.2.boundTarget)
        (parent.bind fun entry => entry.2.originTarget) =
          .ok (prepared.boundTarget, prepared.originTarget) := by
  simp only [Session.prepare, bind_eq_ok, refuseIf_eq_ok, okOr_eq_ok] at isPrepared
  obtain ⟨fields, isObject, -, -, generate, -, parent, isParent, before, isBefore, input, isInput,
    -, -, ⟨boundTarget, originTarget⟩, isBound, made⟩ := isPrepared
  cases made
  refine ⟨parent, before, input, isParent, isBefore, isInput, rfl, ?_, rfl, isBound⟩
  cases value with
  | object fields => trivial
  | _ => cases isObject

/-- The input of the request that is sent. -/
theorem Session.bodyOf_input {value : Value} (isObject : value.IsObject) (history : List Value) :
    (bodyOf value history).field "input" = .array history := by
  have removed : ∀ (keys : List String) (held : Value), held.IsObject →
      (keys.foldl Value.remove held).IsObject := by
    intro keys
    induction keys with
    | nil => exact fun held isHeld => isHeld
    | cons key keys ih => exact fun held isHeld => ih _ (Value.isObject_remove isHeld key)
  unfold bodyOf
  rw [Value.field, Value.get_set (Value.isObject_set (removed _ value isObject) _ _), if_pos rfl]
  rfl

/-- The response named by a request, and none if it names none. -/
theorem Session.parent_eq_ok {session : Session} {value : Value}
    {parent : Option (String × Cached)} (isParent : session.parent value = .ok parent) :
    (parent = none ∧ previousOf value = none) ∨ ∃ lane cached, parent = some (lane, cached) ∧
      previousOf value = some cached.id ∧ (lane, cached) ∈ session.cache := by
  unfold Session.parent at isParent
  split at isParent
  · rename_i absent
    cases isParent
    exact Or.inl ⟨rfl, by simp [previousOf, Value.field, absent, Value.asStr]⟩
  · rename_i absent
    cases isParent
    exact Or.inl ⟨rfl, by simp [previousOf, Value.field, absent, Value.asStr]⟩
  · rename_i id named
    cases found : session.cache.find? fun entry => entry.2.id = id with
    | none =>
      rw [found] at isParent
      cases isParent
    | some entry =>
      rw [found] at isParent
      cases isParent
      have isId : entry.2.id = id := by simpa using List.find?_some found
      refine Or.inr ⟨entry.1, entry.2, rfl, ?_, List.mem_of_find?_eq_some found⟩
      simp [previousOf, Value.field, named, Value.asStr, isId]
  · cases isParent

/-- The response named by a request depends on the cache only. -/
theorem Session.parent_congr {left right : Session} (same : left.cache = right.cache)
    (value : Value) : left.parent value = right.parent value := by
  unfold Session.parent
  rw [same]

/-- A response that ends records what was sent and what came back. -/
def Run.Records (serde : SerdeJson) (run : Run) (ending : Ending) : Prop :=
  ∀ value cached, ending = .ok (value, some cached) → cached.id = run.id ∧
    cached.history = serde.print (.array (run.prepared.history ++ (outputOf value).getD []))

/-- A running response has the history it goes on from, and then its own input. -/
structure Run.Whole (serde : SerdeJson) (run : Run) : Prop where
  previous : run.previousId = previousOf run.request.value
  input : inputOf run.request.value = .ok run.input
  history : run.prepared.history = itemsOf run.base ++ run.input
  body : run.prepared.body.field "input" = .array run.prepared.history
  records : match run.phase with
    | .warm _ ending => run.Records serde ending
    | .done ending => run.Records serde ending
    | _ => True

/-- What is cached of a history. -/
theorem cache_eq_some {id : String} {history : List Value} {boundTarget originTarget : Option Uuid}
    {cached : Cached} (made : cache serde id history boundTarget originTarget = some cached) :
    cached = ⟨id, serde.print (.array history), boundTarget, originTarget⟩ := by
  unfold cache at made
  simp only at made
  split at made
  · exact (Option.some.inj made).symm
  · cases made

/-- What an event that ends a response records. -/
theorem step_records {run : Run} {identity : Option Uuid} {value : Value} {ending : Ending}
    (stepped : step serde run.id run.prepared identity value = .inr ending) :
    run.Records serde ending := by
  rintro final cached rfl
  unfold step at stepped
  split at stepped
  · cases stepped
  · simp only at stepped
    have recorded : ∀ output, outputOf (withId run.id value) = some output →
        (Sum.inr (Except.ok (withId run.id value, cache serde run.id
          (run.prepared.history ++ output) (run.prepared.boundTarget.or
            (if anyState (run.prepared.history ++ output) then identity else none)) identity)) :
          Value ⊕ Ending) = .inr (.ok (final, some cached)) → cached.id = run.id ∧
            cached.history = serde.print (.array (run.prepared.history ++
              (outputOf final).getD [])) := by
      intro output isOutput same
      obtain ⟨isFinal, isCached⟩ := Prod.mk.inj (Except.ok.inj (Sum.inr.inj same))
      rw [cache_eq_some isCached, ← isFinal, isOutput]
      exact ⟨rfl, rfl⟩
    split at stepped
    · split at stepped
      · cases stepped
      · rename_i output isOutput
        exact recorded output isOutput stepped
    · split at stepped
      · cases stepped
      · rename_i output isOutput
        exact recorded output isOutput stepped
    all_goals cases stepped

/-- A running response stays whole. -/
theorem Run.Whole.advance {run : Run} (whole : run.Whole serde) {route : List Target}
    {input : Input} {phase : Phase} {events : List Value}
    (advanced : run.Advances serde route input phase events) (server : Option Uuid) :
    Run.Whole serde { run with phase := phase, server := server } := by
  obtain ⟨previous, isInput, history, body, records⟩ := whole
  refine ⟨previous, isInput, history, body, ?_⟩
  have failed : ∀ error : BridgeError, run.Records serde (.error error) := by
    rintro error value cached same
    cases same
  cases advanced with
  | warm now isPhase =>
    rintro value cached same
    obtain ⟨rfl, isCached⟩ := Prod.mk.inj (Except.ok.inj same)
    rw [cache_eq_some isCached]
    refine ⟨rfl, ?_⟩
    change _ = serde.print (.array (run.prepared.history ++ []))
    rw [List.append_nil]
  | refuse now isPhase error => exact failed error
  | send now isPhase => trivial
  | event isPhase =>
    rw [isPhase] at records
    exact records
  | ended isPhase =>
    rw [isPhase] at records
    exact records
  | failed isPhase result error => exact failed error
  | answered isPhase served => trivial
  | passed isPhase stepped => trivial
  | last isPhase stepped => exact step_records stepped
  | cut isPhase => exact failed _

end Aipass.Bridge
