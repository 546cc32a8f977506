import Aipass.Bridge.InOrder

/-!
# State that only its provider can read

A request that carries such state is sent to one target only. State that comes from the responses
that the request goes on from is sent to the target it was received from. State that the client puts
into its own input is taken to be of the target that the response named is bound to or was served
by, or else of the one that served the latest response of the lane; where it is of another one, it
is sent to the wrong target.
-/
namespace Aipass.Bridge

variable {serde : SerdeJson}

namespace Chain

/-- The output of a response, and the target that served it. -/
def last : Chain → List Value × Option Uuid
  | first _ output server => (output, server)
  | after _ _ output server => (output, server)

/-- The outputs of a chain, with the targets that served them. -/
def outputs : Chain → List (List Value × Option Uuid)
  | first _ output server => [(output, server)]
  | after base _ output server => base.outputs ++ [(output, server)]

/-- A target is the one that served each output of a chain that has provider state. -/
def BoundTo (chain : Chain) (boundTarget : Option Uuid) : Prop :=
  ∀ output ∈ chain.outputs, ∀ server, output.2 = some server → anyState output.1 = true →
    boundTarget = some server

/-- The last output of a response that goes on from another. -/
@[simp] theorem last_of (base : Option Chain) (input output : List Value) (server : Option Uuid) :
    (Chain.of base input output server).last = (output, server) := by
  cases base <;> rfl

/-- A chain that goes on stays bound, if its last output is. -/
theorem boundTo_of {base : Option Chain} {input output : List Value} {server boundTarget : Option Uuid}
    (before : ∀ chain, base = some chain → chain.BoundTo boundTarget)
    (bound : ∀ target, server = some target → anyState output = true → boundTarget = some target) :
    (Chain.of base input output server).BoundTo boundTarget := by
  intro held inside target isServer state
  cases base with
  | none =>
    obtain rfl := List.mem_singleton.mp inside
    exact bound target isServer state
  | some chain =>
    obtain earlier | new := List.mem_append.mp inside
    · exact before chain rfl held earlier target isServer state
    · obtain rfl := List.mem_singleton.mp new
      exact bound target isServer state

/-- A chain stays bound to a target that is kept. -/
theorem BoundTo.mono {chain : Chain} {boundTarget later : Option Uuid}
    (bound : chain.BoundTo boundTarget) (kept : ∀ target, boundTarget = some target →
      later = some target) : chain.BoundTo later :=
  fun held inside server isServer state => kept server (bound held inside server isServer state)

end Chain

/-- The state of a history that is appended to another. -/
theorem anyState_append (left right : List Value) :
    anyState (left ++ right) = (anyState left || anyState right) := by
  induction left with
  | nil => rfl
  | cons item rest ih => rw [List.cons_append, anyState, anyState, ih, Bool.or_assoc]

/-- The target of a request: the one it is bound to, and if its history has provider state and it
is bound to none, the one it is taken to come from. -/
theorem Session.bindTarget_eq_ok {session : Session} {lane : String} {history : List Value}
    {boundTarget originTarget : Option Uuid} {bound : Option Uuid × Option Uuid}
    (isBound : session.bindTarget lane history boundTarget originTarget = .ok bound) :
    bound.1 = boundTarget.or (if anyState history then
        originTarget.or ((session.cached lane).bind Cached.originTarget) else none) ∧
      (anyState history = true → bound.1.isSome) := by
  unfold Session.bindTarget at isBound
  cases boundTarget with
  | some target =>
    cases isBound
    exact ⟨rfl, fun _ => rfl⟩
  | none =>
    cases state : anyState history with
    | false =>
      simp only [state, Option.isNone_none, Bool.and_false, Bool.false_eq_true, if_false] at isBound
      cases isBound
      exact ⟨rfl, fun impossible => by cases impossible⟩
    | true =>
      simp only [state, Option.isNone_none, Bool.and_self, if_true] at isBound
      split at isBound
      · cases isBound
      · rename_i known
        cases isBound
        exact ⟨rfl, fun _ => Option.isSome_iff_ne_none.mpr fun nothing =>
          known (Option.isNone_iff_eq_none.mpr nothing)⟩

/-- What is cached of a response: the target it is bound to, and the one that served it. -/
def Run.Labels (run : Run) (server : Option Uuid) (ending : Ending) : Prop :=
  ∀ value cached, ending = .ok (value, some cached) → cached.id = run.id ∧
    (∀ target, run.prepared.boundTarget = some target → cached.boundTarget = some target) ∧
    ∀ target, server = some target → cached.originTarget = some target ∧
      (anyState ((outputOf value).getD []) = true → cached.boundTarget = some target)

/-- A running response goes to one target only if its history has provider state, and to the one
that the responses it goes on from are bound to. -/
structure Run.Bound (route : List Target) (run : Run) : Prop where
  base : ∀ chain, run.base = some chain → chain.BoundTo run.prepared.boundTarget
  state : anyState run.prepared.history = true → run.prepared.boundTarget.isSome
  body : run.prepared.body.field "input" = .array run.prepared.history
  phase : match run.phase with
    | .begun => run.server = none
    | .warm _ ending => run.server = none ∧ run.Labels none ending
    | .waiting targets => run.server = none ∧ targets = restrict route run.prepared.boundTarget
    | .reading identity => run.server = identity ∧ ∀ target server, identity = some server →
        run.prepared.boundTarget = some target → server = target
    | .done ending => run.Labels run.server ending

/-- The targets of a bound request have one identity. -/
theorem mem_restrict {route : List Target} {target : Uuid} {held : Target}
    (kept : held ∈ restrict route (some target)) : held.id = target :=
  of_decide_eq_true (List.mem_filter.mp kept).2

/-- What is cached when an event ends a response. -/
theorem step_labels {run : Run} {identity : Option Uuid}
    (same : ∀ target server, identity = some server → run.prepared.boundTarget = some target →
      server = target) {value : Value} {ending : Ending}
    (stepped : step serde run.id run.prepared identity value = .inr ending) :
    run.Labels identity ending := by
  rintro final cached rfl
  have labelled : ∀ output, outputOf (withId run.id value) = some output →
      (Sum.inr (Except.ok (withId run.id value, cache serde run.id
        (run.prepared.history ++ output) (run.prepared.boundTarget.or
          (if anyState (run.prepared.history ++ output) then identity else none)) identity)) :
        Value ⊕ Ending) = .inr (.ok (final, some cached)) → cached.id = run.id ∧
          (∀ target, run.prepared.boundTarget = some target → cached.boundTarget = some target) ∧
          ∀ target, identity = some target → cached.originTarget = some target ∧
            (anyState ((outputOf final).getD []) = true → cached.boundTarget = some target) := by
    intro output isOutput ended
    obtain ⟨isFinal, isCached⟩ := Prod.mk.inj (Except.ok.inj (Sum.inr.inj ended))
    rw [cache_eq_some isCached, ← isFinal, isOutput]
    refine ⟨rfl, fun target bound => ?_, fun target isServer => ⟨isServer, fun state => ?_⟩⟩
    · simp only [bound, Option.some_or]
    · have whole : anyState (run.prepared.history ++ output) = true := by
        rw [Option.getD_some] at state
        rw [anyState_append, state, Bool.or_true]
      cases bound : run.prepared.boundTarget with
      | none => simp only [whole, if_true, Option.none_or, isServer]
      | some other => rw [Option.some_or, same other target isServer bound]
  unfold step at stepped
  split at stepped
  · cases stepped
  · simp only at stepped
    split at stepped
    · split at stepped
      · cases stepped
      · rename_i output isOutput
        exact labelled output isOutput stepped
    · split at stepped
      · cases stepped
      · rename_i output isOutput
        exact labelled output isOutput stepped
    all_goals cases stepped

/-- A running response stays bound. -/
theorem Run.Bound.advance {route : List Target} {run : Run} (bound : run.Bound route)
    {input : Input} {phase : Phase} {events : List Value}
    (advanced : run.Advances serde route input phase events) :
    Run.Bound route { run with phase := phase, server := phase.server run.server } := by
  obtain ⟨base, state, body, ahead⟩ := bound
  refine ⟨base, state, body, ?_⟩
  have failed : ∀ server (error : BridgeError), run.Labels server (.error error) := by
    rintro server error value cached same
    cases same
  cases advanced with
  | warm now isPhase =>
    rw [isPhase] at ahead
    refine ⟨ahead, ?_⟩
    rintro value cached same
    obtain ⟨rfl, isCached⟩ := Prod.mk.inj (Except.ok.inj same)
    rw [cache_eq_some isCached]
    exact ⟨rfl, fun target bound => bound, fun target impossible => by cases impossible⟩
  | refuse now isPhase error => exact failed _ error
  | send now isPhase =>
    rw [isPhase] at ahead
    exact ⟨ahead, rfl⟩
  | event isPhase =>
    rw [isPhase] at ahead
    exact ahead
  | ended isPhase =>
    rw [isPhase] at ahead
    obtain ⟨unserved, labels⟩ := ahead
    simp only [Phase.server, unserved]
    exact labels
  | failed isPhase result error => exact failed _ error
  | @answered targets isPhase identity served =>
    rw [isPhase] at ahead
    refine ⟨rfl, fun target server isServer isBound => ?_⟩
    obtain ⟨held, inside, rfl⟩ := served server isServer
    rw [ahead.2, isBound] at inside
    exact mem_restrict inside
  | passed isPhase stepped =>
    rw [isPhase] at ahead
    exact ⟨rfl, ahead.2⟩
  | last isPhase stepped =>
    rw [isPhase] at ahead
    simp only [Phase.server, ahead.1]
    exact step_labels ahead.2 stepped
  | cut isPhase => exact failed _ _

/-- A request that was sent: it is restricted to the target it is bound to, it is bound if its input
has provider state, and bound to the target whose provider state it goes on from. -/
structure Dispatch.Restricted (sent : Dispatch) : Prop where
  targets : ∀ target, sent.boundTarget = some target → ∀ held ∈ sent.targets, held.id = target
  state : ∀ items, sent.body.field "input" = .array items → anyState items = true →
    sent.boundTarget.isSome
  base : ∀ chain, sent.base = some chain → chain.BoundTo sent.boundTarget

namespace World

/-- What the cache and the running responses know of targets. -/
structure Restricted (world : World) : Prop where
  running : ∀ lane run, world.running lane = some run → run.Bound world.route
  cached : ∀ lane cached, (lane, cached) ∈ world.session.cache → ∃ record,
    world.latest lane = some record ∧ record.id = cached.id ∧
      record.chain.BoundTo cached.boundTarget ∧
      ∀ target, record.chain.last.2 = some target → cached.originTarget = some target
  sent : ∀ sent ∈ world.dispatched, sent.Restricted

namespace Restricted

variable {world : World}

/-- A response that is started is bound. -/
theorem launched (restricted : world.Restricted) {id : String} {request : Queued}
    {session : Session} {prepared : Prepared}
    (taken : world.session.next = some (request, session))
    (isPrepared : session.prepare serde request.value = .ok prepared) :
    Run.Bound world.route ⟨request, id, previousOf request.value, prepared, .begun,
      world.baseOf request.value, (inputOf request.value).toOption.getD [], none, []⟩ := by
  obtain ⟨-, -, -, sameCache⟩ := Session.next_eq_some taken
  obtain ⟨parent, before, input, isParent, -, -, -, isObject, isBody, isBound⟩ :=
    Session.prepare_eq_ok isPrepared
  have isBase := baseOf_eq ((Session.parent_congr sameCache request.value).symm.trans isParent)
  obtain ⟨isTarget, state⟩ := Session.bindTarget_eq_ok isBound
  refine ⟨fun chain isChain => ?_, state, by rw [isBody]; exact Session.bodyOf_input isObject _, rfl⟩
  obtain ⟨rfl, -⟩ | ⟨lane, cached, rfl, -, held⟩ := Session.parent_eq_ok isParent
  · rw [isBase] at isChain
    cases isChain
  · rw [sameCache] at held
    obtain ⟨record, isLatest, -, bound, -⟩ := restricted.cached lane cached held
    rw [isBase, Option.bind_some, isLatest, Option.map_some, Option.some.injEq] at isChain
    rw [← isChain]
    refine bound.mono fun target isCached => ?_
    simp only at isTarget
    rw [isTarget, Option.bind_some, isCached, Option.some_or]

/-- What is known of targets is kept by every step. -/
theorem move (restricted : world.Restricted) (ordered : world.Ordered) (flows : world.Flows)
    {action : Action} {next : World} (moved : world.Move serde action next) : next.Restricted := by
  cases moved with
  | note => exact ⟨restricted.running, restricted.cached, restricted.sent⟩
  | accept value bytes isLane enqueued =>
    obtain ⟨-, -, -, -, sameCache⟩ := Session.enqueue_eq_ok enqueued
    refine ⟨restricted.running, fun lane cached held => ?_, restricted.sent⟩
    exact restricted.cached lane cached (by rwa [sameCache] at held)
  | @launch id request session prepared taken isPrepared =>
    obtain ⟨-, -, -, sameCache⟩ := Session.next_eq_some taken
    refine ⟨fun lane run held => ?_, fun lane cached held => ?_, restricted.sent⟩
    · by_cases own : lane = request.lane
      · simp only [own, Function.update_self, Option.some.injEq] at held
        rw [← held]
        exact restricted.launched taken isPrepared
      · simp only [Function.update_of_ne own] at held
        exact restricted.running lane run held
    · exact restricted.cached lane cached (by rwa [sameCache] at held)
  | @reject id request session error taken rejected =>
    obtain ⟨-, -, -, sameCache⟩ := Session.next_eq_some taken
    refine ⟨restricted.running, fun lane cached held => ?_, restricted.sent⟩
    have before := Session.mem_of_mem_failed held
    exact restricted.cached lane cached (by rwa [sameCache] at before)
  | @advance lane input run phase events isRun advanced =>
    have bound := restricted.running lane run isRun
    refine ⟨fun other run' held => ?_, restricted.cached, fun sent held => ?_⟩
    · by_cases own : other = lane
      · simp only [own, Function.update_self, Option.some.injEq] at held
        rw [← held]
        exact bound.advance advanced
      · simp only [Function.update_of_ne own] at held
        exact restricted.running other run' held
    · obtain before | new := List.mem_append.mp held
      · exact restricted.sent sent before
      · unfold Run.sends at new
        split at new
        · rename_i targets
          have ahead := (bound.advance advanced).phase
          rw [List.mem_singleton.mp new]
          refine ⟨fun target isBound held inside => ?_, fun items isInput state => ?_, bound.base⟩
          · simp only at inside isBound ahead
            rw [ahead.2, isBound] at inside
            exact mem_restrict inside
          · refine bound.state ?_
            rwa [Value.array.inj (bound.body.symm.trans isInput)]
        · cases new
  | @event lane value rest run isChannel isRun =>
    have bound := restricted.running lane run isRun
    refine ⟨fun other run' held => ?_, restricted.cached, restricted.sent⟩
    by_cases own : other = lane
    · simp only [own, Function.update_self, Option.some.injEq] at held
      rw [← held]
      exact ⟨bound.base, bound.state, bound.body, bound.phase⟩
    · simp only [Function.update_of_ne own] at held
      exact restricted.running other run' held
  | @finish lane previousId ending rest run isChannel isRun =>
    obtain ⟨isPhase, -⟩ := flows.finishing isChannel isRun
    have isLane := ordered.own lane run isRun
    have bound := restricted.running lane run isRun
    have labels : run.Labels run.server ending := by
      have ahead := bound.phase
      rw [isPhase] at ahead
      exact ahead
    refine ⟨fun other run' held => ?_, fun other cached held => ?_, restricted.sent⟩
    · by_cases own : other = lane
      · simp only [own, Function.update_self, reduceCtorEq] at held
      · simp only [Function.update_of_ne own] at held
        exact restricted.running other run' held
    · by_cases failure : isFailure ending = true
      · have before := Session.mem_finish_failed failure held
        simp only [latest, failure, if_true]
        exact restricted.cached other cached before
      · have completed := Bool.not_eq_true _ ▸ failure
        simp only [latest, completed, Bool.false_eq_true, if_false, latest_append]
        obtain ⟨before, apart⟩ | ⟨value, kept, rfl, same⟩ := Session.mem_finish completed held
        · rw [if_neg (by simpa only [Run.completes, isLane] using Ne.symm apart)]
          exact restricted.cached other cached before
        · obtain ⟨rfl, rfl⟩ := Prod.mk.inj same
          obtain ⟨isId, isBound, isServed⟩ := labels value cached rfl
          refine ⟨_, if_pos isLane, isId.symm, ?_, fun target isServer => ?_⟩
          · refine Chain.boundTo_of (fun chain isChain => (bound.base chain isChain).mono isBound)
              fun target isServer state => (isServed target isServer).2 state
          · rw [Run.completes, Chain.last_of] at isServer
            exact (isServed target isServer).1

/-- What is known of targets holds in every run. -/
theorem of_reached (reached : (connection serde).Reached world) : world.Restricted := by
  have all : (world.Ordered ∧ world.Flows) ∧ world.Restricted := by
    refine reached.invariant (fun world => (world.Ordered ∧ world.Flows) ∧ world.Restricted)
      (fun state initial => ?_) fun state action next held _ stepped => ?_
    · refine ⟨flows_of_reached (.start initial), ?_⟩
      have initial : state = { route := state.route } := initial
      rw [initial]
      refine ⟨fun _ _ none => ?_, fun _ _ none => ?_, fun _ none => ?_⟩ <;> cases none
    · obtain ⟨⟨ordered, flows⟩, restricted⟩ := held
      have moved := move_of_step stepped
      exact ⟨⟨ordered.move moved, flows.move ordered moved⟩, restricted.move ordered flows moved⟩
  exact all.2

end Restricted
end World

/-- A request that passes the checks before its target is chosen, with the response it names and the
history it would be sent with. -/
structure Session.Asks (session : Session) (serde : SerdeJson) (value : Value)
    (parent : Option (String × Cached)) (history : List Value) : Prop where
  isObject : value.IsObject
  supported : (["background", "conversation", "context_management"].any fun key =>
    (value.get key).any fun held => held ≠ .null && held ≠ .bool false) = false
  generates : ∃ generate, generateOf value = .ok generate
  isParent : session.parent value = .ok parent
  isHistory : ∃ before input, Session.historyOf serde parent = .ok before ∧
    inputOf value = .ok input ∧ history = before ++ input
  valid : validateToolHistory history = .ok ()

/-- The target that a request with provider state is taken to belong to. -/
def Session.targetOf (session : Session) (value : Value) (parent : Option (String × Cached)) :
    Option Uuid :=
  (parent.bind fun entry => entry.2.boundTarget).or
    ((parent.bind fun entry => entry.2.originTarget).or
      ((session.cached ((value.field "stream_id").asStr.getD "")).bind Cached.originTarget))

/-- A request whose history has provider state is rejected if no target is known for it. -/
theorem Session.prepare_unknown {session : Session} {value : Value}
    {parent : Option (String × Cached)} {history : List Value}
    (asks : session.Asks serde value parent history) (state : anyState history = true)
    (unknown : session.targetOf value parent = none) :
    session.prepare serde value = .error (.invalid "previous_response_not_found"
      "provider-bound input has no origin on this connection; use native Responses mode or resend portable input") := by
  obtain ⟨isObject, supported, ⟨generate, isGenerate⟩, isParent, ⟨before, input, isBefore, isInput,
    rfl⟩, valid⟩ := asks
  obtain ⟨unbound, unserved⟩ := Option.or_eq_none_iff.mp unknown
  have object : ∃ fields, value.asObject = some fields := by
    cases value with
    | object fields => exact ⟨fields, rfl⟩
    | _ => exact isObject.elim
  obtain ⟨fields, isFields⟩ := object
  simp only [Session.prepare, isFields, okOr_some, ok_bind, supported, refuseIf, isGenerate,
    isParent, isBefore, isInput, valid, unbound, Session.bindTarget, state, unserved]
  rfl

/-- A request that carries provider state is sent to one target only: the one the response it names
is bound to, or the one that served that response, or the one that served the latest response of its
lane; if none is known, it is rejected. It is the target that served each response it goes on from
whose output has provider state. -/
theorem provider_state_restricted (serde : SerdeJson) {world : World}
    (reached : (connection serde).Reached world) :
    (∀ sent ∈ world.dispatched, sent.Restricted) ∧
    (∀ value prepared, world.session.prepare serde value = .ok prepared →
      anyState prepared.history = true → ∃ parent target,
        world.session.parent value = .ok parent ∧ prepared.boundTarget = some target ∧
          world.session.targetOf value parent = some target) ∧
    (∀ value parent history, world.session.Asks serde value parent history →
      anyState history = true → world.session.targetOf value parent = none →
        ∃ message, world.session.prepare serde value =
          .error (.invalid "previous_response_not_found" message)) ∧
    ∀ lane cached, (lane, cached) ∈ world.session.cache → ∃ record,
      world.latest lane = some record ∧ record.id = cached.id ∧
      record.chain.BoundTo cached.boundTarget ∧
      ∀ target, record.chain.last.2 = some target → cached.originTarget = some target := by
  have restricted := World.Restricted.of_reached reached
  refine ⟨restricted.sent, fun value prepared isPrepared state => ?_,
    fun value parent history asks state unknown => ⟨_, Session.prepare_unknown asks state unknown⟩,
    restricted.cached⟩
  obtain ⟨parent, before, input, isParent, -, -, -, -, -, isBound⟩ :=
    Session.prepare_eq_ok isPrepared
  obtain ⟨isTarget, known⟩ := Session.bindTarget_eq_ok isBound
  obtain ⟨target, isSome⟩ := Option.isSome_iff_exists.mp (known state)
  rw [if_pos state] at isTarget
  exact ⟨parent, target, isParent, isSome, isTarget.symm.trans isSome⟩

/-- A turn on the lane without a name: the input, the target that answers, and its output. -/
def turnOf (input : Value) (previousId : Option String) (id : String) (server : Uuid)
    (output : List Value) : List Action :=
  [.receive (.text (.obj [("type", "response.create"), ("input", input),
      ("previous_response_id", (previousId.map Value.string).getD .null)]) 100),
    .start id, .task "" (.begin_ 0), .task "" (.answer (.ok (some server))),
    .task "" (.event (.obj [("type", "response.completed"),
      ("response", .obj [("output", .array output)])])), .deliver]

/-- Reasoning that only its provider can read. -/
def reasoning : Value := .obj [("type", "reasoning"), ("encrypted_content", "c")]

/-- A reference to an item of unknown origin. -/
def reference : Value := .obj [("type", "item_reference"), ("id", "unknown")]

/-- The values of the turns. -/
def stateTurns : SerdeJson := .ofValues [.array [message "user" "Hi", message "assistant" "Yes?"],
  .array [message "user" "Hi", reasoning]]

/-- A connection to two targets. -/
def openedTwo : World := { route := [⟨1, true⟩, ⟨2, true⟩] }

/-- A run starts with it. -/
theorem openedTwo_init (serde : SerdeJson) : (connection serde).init openedTwo := rfl

/-- A response with provider state, and a request that goes on from it. -/
theorem provider_state_restricted_turn : ∃ world, (connection stateTurns).Reached world ∧
    (∃ sent ∈ world.dispatched, sent.body.field "input" = .array [message "user" "Hi", reasoning,
      message "user" "Go"] ∧ sent.boundTarget = some 2) ∧ ∀ sent ∈ world.dispatched, sent.Restricted := by
  have went : ((System.after (fun world => World.step world stateTurns) openedTwo
      (turnOf "Hi" none "resp_1" 2 [reasoning] ++
        (turnOf "Go" (some "resp_1") "resp_2" 2 []).take 3)).any fun world =>
      ∃ sent ∈ world.dispatched, sent.body.field "input" = .array [message "user" "Hi", reasoning,
        message "user" "Go"] ∧ sent.boundTarget = some 2) = true := by
    decide +kernel
  simp only [Option.any_eq_true, decide_eq_true_eq] at went
  obtain ⟨world, went, facts⟩ := went
  have reached : (connection stateTurns).Reached world :=
    .after (fun _ _ _ stepped => ⟨trivial, stepped⟩) (.start (openedTwo_init _)) went
  exact ⟨world, reached, facts, (provider_state_restricted stateTurns reached).1⟩

/-- Provider state that the client resends is sent to the target of the latest response of the lane,
and provider state that was never received is sent to the target of the response named. -/
theorem resent_state_reaches_other :
    (¬∀ serde world, (connection serde).Reached world → ∀ record ∈ world.completed, ∀ target,
      record.chain.last.2 = some target → ∀ item ∈ record.chain.last.1,
        hasProviderState item = true → ∀ sent ∈ world.dispatched, ∀ items,
          sent.body.field "input" = .array items → item ∈ items →
            sent.boundTarget = some target) ∧
    ¬∀ serde world, (connection serde).Reached world → ∀ sent ∈ world.dispatched, ∀ items,
      sent.body.field "input" = .array items → ∀ item ∈ items, hasProviderState item = true →
        ∃ record ∈ world.completed, item ∈ record.chain.last.1 := by
  constructor
  · intro always
    have went : ((System.after (fun world => World.step world stateTurns) openedTwo
        (turnOf "Hi" none "resp_1" 1 [reasoning] ++
          turnOf "Hi" none "resp_2" 2 [message "assistant" "Yes?"] ++
          (turnOf (.array [reasoning]) none "resp_3" 2 []).take 3)).any fun world =>
        (∃ record ∈ world.completed, record.chain.last = ([reasoning], some 1)) ∧
          ∃ sent ∈ world.dispatched, sent.body.field "input" = .array [reasoning] ∧
            sent.boundTarget = some 2) = true := by
      decide +kernel
    simp only [Option.any_eq_true, decide_eq_true_eq] at went
    obtain ⟨world, went, ⟨record, completed, isLast⟩, sent, dispatched, isInput, isBound⟩ := went
    have reached : (connection stateTurns).Reached world :=
      .after (fun _ _ _ stepped => ⟨trivial, stepped⟩) (.start (openedTwo_init _)) went
    have same := always stateTurns world reached record completed 1 (by rw [isLast]) reasoning
      (by rw [isLast]; exact List.mem_cons_self) (by decide +kernel) sent dispatched [reasoning]
      isInput List.mem_cons_self
    rw [isBound] at same
    exact absurd same (by decide)
  · intro always
    have went : ((System.after (fun world => World.step world stateTurns) openedTwo
        (turnOf "Hi" none "resp_1" 1 [message "assistant" "Yes?"] ++
          (turnOf (.array [reference]) (some "resp_1") "resp_2" 1 []).take 3)).any fun world =>
        (∃ sent ∈ world.dispatched, sent.body.field "input" =
          .array [message "user" "Hi", message "assistant" "Yes?", reference]) ∧
          ∀ record ∈ world.completed, reference ∉ record.chain.last.1) = true := by
      decide +kernel
    simp only [Option.any_eq_true, decide_eq_true_eq] at went
    obtain ⟨world, went, ⟨sent, dispatched, isInput⟩, never⟩ := went
    have reached : (connection stateTurns).Reached world :=
      .after (fun _ _ _ stepped => ⟨trivial, stepped⟩) (.start (openedTwo_init _)) went
    obtain ⟨record, completed, held⟩ := always stateTurns world reached sent dispatched _ isInput
      reference (by simp) (by decide +kernel)
    exact never record completed held

end Aipass.Bridge
