import Mathlib.Algebra.Order.BigOperators.Group.List
import Aipass.Bridge.Chains

/-!
# One session in order for each lane

The session of a connection over any run: one response of a lane at a time and in order, one
terminal event for each request, the history of the named response before the input of each request
that is sent, and a cache that only the lane that failed loses an entry of. The upstream may name a
stream in its events; a run in which none of the events read for the lane without a name does so,
and in which the cached histories read back as stored, is as it should be.
-/
namespace Aipass.Bridge

variable {serde : SerdeJson}

namespace World

/-- A response is named by an identifier, or none is. -/
def Named (world : World) (previousId : Option String) (base : Option Chain) : Prop :=
  match previousId with
  | none => base = none
  | some id => ∃ record ∈ world.completed, record.id = id ∧ base = some record.chain

/-- A request that was sent has the history of the response it names, and then its own input. -/
structure Continues (world : World) (sent : Dispatch) : Prop where
  accepted : sent.request ∈ world.accepted
  input : inputOf sent.request.value = .ok sent.input
  named : world.Named (previousOf sent.request.value) sent.base
  body : sent.body.field "input" = .array (itemsOf sent.base ++ sent.input)

/-- A completed response is that of a request that was served: it has the input of the request, the
output of its terminal event, and before them the response that the request names. -/
def Told (world : World) (record : Completed) : Prop :=
  ∃ served ∈ world.served, ∃ base input server, served.request.lane = record.lane ∧
    inputOf served.request.value = .ok input ∧
    world.Named (previousOf served.request.value) base ∧
    record.chain = .of base input ((outputOf served.terminal).getD []) server

/-- The condition on a step. An event that is read for the lane without a name names no stream, and
what is read back of a cached history is what was stored. -/
def Clear (serde : SerdeJson) (world : World) : Action → Prop
  | .task lane input => Unnamed lane input
  | .start _ => ∀ request session lane cached record items,
      world.session.next = some (request, session) →
      session.parent request.value = .ok (some (lane, cached)) → world.latest lane = some record →
      cached.history = serde.print (.array record.chain.items) →
      Session.historyOf serde (some (lane, cached)) = .ok items → items = record.chain.items
  | _ => True

/-- What the cache and the running responses know of the responses before. -/
structure Remembers (serde : SerdeJson) (world : World) : Prop where
  cached : ∀ lane cached, (lane, cached) ∈ world.session.cache → ∃ record,
    world.latest lane = some record ∧ record.id = cached.id ∧
      cached.history = serde.print (.array record.chain.items)
  whole : ∀ lane run, world.running lane = some run → run.Whole serde
  named : ∀ lane run, world.running lane = some run → world.Named run.previousId run.base
  sent : ∀ sent ∈ world.dispatched, world.Continues sent
  completed : ∀ record ∈ world.completed, world.Told record
  small : Session.cacheBytes world.session.cache ≤ maxSessionBytes

variable {world : World}

/-- The latest response of a lane has completed. -/
theorem latest_mem {lane : String} {record : Completed} (isLatest : world.latest lane = some record) :
    record ∈ world.completed := List.mem_of_mem_filter (List.mem_of_getLast? isLatest)

/-- A response that completes is the latest of its lane. -/
theorem latest_append (completed : List Completed) (record : Completed) (lane : String) :
    ((completed ++ [record]).filter fun held => held.lane = lane).getLast? =
      if record.lane = lane then some record
      else (completed.filter fun held => held.lane = lane).getLast? := by
  rw [List.filter_append]
  by_cases own : record.lane = lane <;> simp [own]

/-- A named response stays named. -/
theorem Named.mono {later : World} {previousId : Option String} {base : Option Chain}
    (named : world.Named previousId base) (grown : ∀ record ∈ world.completed,
      record ∈ later.completed) : later.Named previousId base := by
  cases previousId with
  | none => exact named
  | some id =>
    obtain ⟨record, held, same⟩ := named
    exact ⟨record, grown record held, same⟩

/-- A completed response stays told. -/
theorem Told.mono {later : World} {record : Completed} (told : world.Told record)
    (served : ∀ request ∈ world.served, request ∈ later.served)
    (grown : ∀ record ∈ world.completed, record ∈ later.completed) : later.Told record := by
  obtain ⟨request, held, base, input, server, isLane, isInput, named, isChain⟩ := told
  exact ⟨request, served request held, base, input, server, isLane, isInput, named.mono grown,
    isChain⟩

/-- A request that was sent stays as it should be. -/
theorem Continues.mono {later : World} {sent : Dispatch} (continues : world.Continues sent)
    (accepted : ∀ request ∈ world.accepted, request ∈ later.accepted)
    (grown : ∀ record ∈ world.completed, record ∈ later.completed) : later.Continues sent :=
  ⟨accepted _ continues.accepted, continues.input, continues.named.mono grown, continues.body⟩

end World

/-- The output of a terminal event is that of the event that was read. -/
theorem outputOf_terminal (lane : String) (ending : Ending) :
    (outputOf (terminalOf lane ending)).getD [] = match ending with
      | .ok (value, _) => (outputOf value).getD []
      | .error _ => [] := by
  have kept : ∀ value : Value, value.IsObject →
      outputOf (withLane value lane) = outputOf value := by
    intro value isObject
    unfold withLane
    split
    · rfl
    · simp only [outputOf, Value.pointer, Value.get_set isObject, String.reduceEq, if_false]
  cases ending with
  | ok result =>
    obtain ⟨value, cached⟩ := result
    cases value with
    | object fields =>
      change (outputOf (withLane (.object fields) lane)).getD [] = _
      rw [kept (.object fields) trivial]
    | _ =>
      simp only [terminalOf, withLane]
      split <;> rfl
  | error error =>
    rw [terminalOf, BridgeError.event, kept _ (by exact trivial)]
    rfl

namespace Session

/-- Fewer entries take fewer bytes. -/
theorem cacheBytes_filter (cache : List (String × Cached)) (kept : String × Cached → Bool) :
    cacheBytes (cache.filter kept) ≤ cacheBytes cache :=
  (List.filter_sublist.map _).sum_le_sum fun _ _ => Nat.zero_le _

/-- A failure drops the entry of its lane at most. -/
theorem failed_cache (session : Session) (lane : String) (previousId : Option String) :
    (session.failed lane previousId).cache = session.cache ∨
      (session.failed lane previousId).cache = session.cache.filter fun entry => entry.1 ≠ lane := by
  unfold failed
  split
  · exact Or.inr rfl
  · exact Or.inl rfl

/-- The entries after a failure were there before. -/
theorem mem_of_mem_failed {session : Session} {lane : String} {previousId : Option String}
    {entry : String × Cached} (held : entry ∈ (session.failed lane previousId).cache) :
    entry ∈ session.cache := by
  obtain same | dropped := session.failed_cache lane previousId
  · rwa [same] at held
  · rw [dropped] at held
    exact List.mem_of_mem_filter held

/-- A failure takes no more bytes. -/
theorem cacheBytes_failed (session : Session) (lane : String) (previousId : Option String) :
    cacheBytes (session.failed lane previousId).cache ≤ cacheBytes session.cache := by
  obtain same | dropped := session.failed_cache lane previousId
  · rw [same]
  · rw [dropped]
    exact cacheBytes_filter _ _

/-- The entries after a response has ended: the new one, or those of other lanes that were there. -/
theorem mem_finish {session : Session} {lane : String} {previousId : Option String}
    {ending : Ending} (completed : isFailure ending = false) {entry : String × Cached}
    (held : entry ∈ (session.finish lane previousId ending).cache) :
    (entry ∈ session.cache ∧ entry.1 ≠ lane) ∨
      ∃ value cached, ending = .ok (value, some cached) ∧ entry = (lane, cached) := by
  unfold finish at held
  rw [completed] at held
  simp only [Bool.false_eq_true, if_false] at held
  split at held
  · rename_i value cached
    unfold remember at held
    simp only at held
    split at held
    · obtain ⟨held, apart⟩ := List.mem_filter.mp (List.mem_of_mem_filter held)
      exact Or.inl ⟨held, of_decide_eq_true apart⟩
    · obtain before | new := List.mem_append.mp held
      · obtain ⟨held, apart⟩ := List.mem_filter.mp (List.mem_of_mem_filter before)
        exact Or.inl ⟨held, of_decide_eq_true apart⟩
      · exact Or.inr ⟨value, cached, rfl, List.mem_singleton.mp new⟩
  · obtain ⟨held, apart⟩ := List.mem_filter.mp held
    exact Or.inl ⟨held, of_decide_eq_true apart⟩

/-- The entries after a response has failed were there before. -/
theorem mem_finish_failed {session : Session} {lane : String} {previousId : Option String}
    {ending : Ending} (failure : isFailure ending = true) {entry : String × Cached}
    (held : entry ∈ (session.finish lane previousId ending).cache) : entry ∈ session.cache := by
  unfold finish at held
  rw [if_pos failure] at held
  have before := mem_of_mem_failed held
  exact before

/-- The cache stays small. -/
theorem cacheBytes_finish {session : Session} (small : cacheBytes session.cache ≤ maxSessionBytes)
    (lane : String) (previousId : Option String) (ending : Ending) :
    cacheBytes (session.finish lane previousId ending).cache ≤ maxSessionBytes := by
  unfold finish
  simp only
  split
  · exact (cacheBytes_failed _ _ _).trans small
  · split
    · unfold remember
      simp only
      split
      · exact (cacheBytes_filter _ _).trans ((cacheBytes_filter _ _).trans small)
      · rename_i room
        have fits := not_lt.mp room
        simpa only [cacheBytes, List.map_append, List.sum_append, List.map_cons, List.map_nil,
          List.sum_cons, List.sum_nil, Nat.add_zero] using fits
    · exact (cacheBytes_filter _ _).trans small

end Session

namespace World

variable {world : World}

/-- The response a request goes on from is the latest of the lane it was found in. -/
theorem baseOf_eq {value : Value} {parent : Option (String × Cached)}
    (isParent : world.session.parent value = .ok parent) :
    world.baseOf value = parent.bind fun entry => (world.latest entry.1).map Completed.chain := by
  unfold baseOf
  cases parent with
  | none => simp only [isParent, Option.bind_none]
  | some entry => simp only [isParent, Option.bind_some]

/-- A response that is started is whole, and goes on from the response it names. -/
theorem Remembers.launched (remembers : world.Remembers serde) {id : String} {request : Queued}
    {session : Session} {prepared : Prepared}
    (taken : world.session.next = some (request, session))
    (isPrepared : session.prepare serde request.value = .ok prepared)
    (clear : world.Clear serde (.start id)) :
    Run.Whole serde ⟨request, id, previousOf request.value, prepared, .begun,
      world.baseOf request.value, (inputOf request.value).toOption.getD [], none, []⟩ ∧
      world.Named (previousOf request.value) (world.baseOf request.value) := by
  obtain ⟨-, -, -, sameCache⟩ := Session.next_eq_some taken
  obtain ⟨parent, before, input, isParent, isBefore, isInput, isHistory, isObject, isBody, -⟩ :=
    Session.prepare_eq_ok isPrepared
  have isBase := baseOf_eq ((Session.parent_congr sameCache request.value).symm.trans isParent)
  obtain ⟨history, named⟩ : before = itemsOf (world.baseOf request.value) ∧
      world.Named (previousOf request.value) (world.baseOf request.value) := by
    obtain ⟨rfl, isPrevious⟩ | ⟨lane, cached, rfl, isPrevious, held⟩ :=
      Session.parent_eq_ok isParent
    · cases isBefore
      rw [isBase, isPrevious]
      exact ⟨rfl, rfl⟩
    · rw [sameCache] at held
      obtain ⟨record, isLatest, isId, stored⟩ := remembers.cached lane cached held
      have isBase : world.baseOf request.value = some record.chain := by
        rw [isBase, Option.bind_some, isLatest, Option.map_some]
      rw [isBase, isPrevious]
      exact ⟨clear request session lane cached record before taken isParent isLatest stored isBefore,
        record, latest_mem isLatest, isId, rfl⟩
  refine ⟨⟨rfl, ?_, ?_, ?_, trivial⟩, named⟩
  · simp only [isInput]
    rfl
  · rw [isHistory, history, isInput]
    rfl
  · rw [isBody]
    exact Session.bodyOf_input isObject _

/-- What is remembered is kept by every step. -/
theorem Remembers.move (remembers : world.Remembers serde) (ordered : world.Ordered)
    (flows : world.Flows) {action : Action} (clear : world.Clear serde action) {next : World}
    (moved : world.Move serde action next) : next.Remembers serde := by
  cases moved with
  | note message told none_told =>
    exact ⟨remembers.cached, remembers.whole, remembers.named,
      fun sent held => (remembers.sent sent held).mono (fun _ held => held) fun _ held => held,
      remembers.completed, remembers.small⟩
  | accept value bytes isLane enqueued =>
    obtain ⟨-, -, -, -, sameCache⟩ := Session.enqueue_eq_ok enqueued
    refine ⟨fun lane cached held => ?_, remembers.whole, remembers.named, fun sent held => ?_,
      remembers.completed, ?_⟩
    · exact remembers.cached lane cached (by rwa [sameCache] at held)
    · exact (remembers.sent sent held).mono (fun _ held => List.mem_append_left _ held)
        fun _ held => held
    · rw [sameCache]
      exact remembers.small
  | @launch id request session prepared taken isPrepared =>
    obtain ⟨-, -, -, sameCache⟩ := Session.next_eq_some taken
    obtain ⟨whole, named⟩ := remembers.launched taken isPrepared clear
    refine ⟨fun lane cached held => ?_, fun lane run held => ?_, fun lane run held => ?_,
      fun sent held => ?_, remembers.completed, ?_⟩
    · exact remembers.cached lane cached (by rwa [sameCache] at held)
    · by_cases own : lane = request.lane
      · simp only [own, Function.update_self, Option.some.injEq] at held
        rw [← held]
        exact whole
      · simp only [Function.update_of_ne own] at held
        exact remembers.whole lane run held
    · by_cases own : lane = request.lane
      · simp only [own, Function.update_self, Option.some.injEq] at held
        rw [← held]
        exact named
      · simp only [Function.update_of_ne own] at held
        exact remembers.named lane run held
    · exact (remembers.sent sent held).mono (fun _ held => held) fun _ held => held
    · rw [sameCache]
      exact remembers.small
  | @reject id request session error taken rejected =>
    obtain ⟨-, -, -, sameCache⟩ := Session.next_eq_some taken
    refine ⟨fun lane cached held => ?_, remembers.whole, remembers.named, fun sent held => ?_,
      fun record held => ?_, ?_⟩
    · have before := Session.mem_of_mem_failed held
      exact remembers.cached lane cached (by rwa [sameCache] at before)
    · exact (remembers.sent sent held).mono (fun _ held => held) fun _ held => held
    · exact (remembers.completed record held).mono (fun _ held => List.mem_append_left _ held)
        fun _ held => held
    · refine (Session.cacheBytes_failed _ _ _).trans ?_
      rw [sameCache]
      exact remembers.small
  | @advance lane input run phase events isRun advanced =>
    have whole := remembers.whole lane run isRun
    have named := remembers.named lane run isRun
    refine ⟨remembers.cached, fun other run' held => ?_, fun other run' held => ?_,
      fun sent held => ?_, remembers.completed, remembers.small⟩
    · by_cases own : other = lane
      · simp only [own, Function.update_self, Option.some.injEq] at held
        rw [← held]
        exact whole.advance advanced _
      · simp only [Function.update_of_ne own] at held
        exact remembers.whole other run' held
    · by_cases own : other = lane
      · simp only [own, Function.update_self, Option.some.injEq] at held
        rw [← held]
        exact named
      · simp only [Function.update_of_ne own] at held
        exact remembers.named other run' held
    · obtain before | new := List.mem_append.mp held
      · exact (remembers.sent sent before).mono (fun _ held => held) fun _ held => held
      · unfold Run.sends at new
        split at new
        · rw [List.mem_singleton.mp new]
          refine ⟨?_, whole.input, ?_, ?_⟩
          · have listed : run.request ∈ world.accepted.filter fun held => held.lane = lane := by
              rw [ordered.order lane, isRun]
              simp
            exact List.mem_of_mem_filter listed
          · rw [← whole.previous]
            exact named
          · exact whole.body.trans (by rw [whole.history])
        · cases new
  | @event lane value rest run isChannel isRun =>
    have whole := remembers.whole lane run isRun
    refine ⟨remembers.cached, fun other run' held => ?_, fun other run' held => ?_,
      fun sent held => (remembers.sent sent held).mono (fun _ held => held) fun _ held => held,
      remembers.completed, remembers.small⟩
    · by_cases own : other = lane
      · simp only [own, Function.update_self, Option.some.injEq] at held
        rw [← held]
        exact ⟨whole.previous, whole.input, whole.history, whole.body, whole.records⟩
      · simp only [Function.update_of_ne own] at held
        exact remembers.whole other run' held
    · by_cases own : other = lane
      · simp only [own, Function.update_self, Option.some.injEq] at held
        rw [← held]
        exact remembers.named lane run isRun
      · simp only [Function.update_of_ne own] at held
        exact remembers.named other run' held
  | @finish lane previousId ending rest run isChannel isRun =>
    obtain ⟨isPhase, -⟩ := flows.finishing isChannel isRun
    have isLane := ordered.own lane run isRun
    have whole := remembers.whole lane run isRun
    have records : run.Records serde ending := by
      have recorded := whole.records
      rw [isPhase] at recorded
      exact recorded
    have grown : ∀ record ∈ world.completed, record ∈ (if isFailure ending then world.completed
        else world.completed ++ [run.completes ending]) := by
      intro record held
      split
      · exact held
      · exact List.mem_append_left _ held
    refine ⟨fun other cached held => ?_, fun other run' held => ?_, fun other run' held => ?_,
      fun sent held => (remembers.sent sent held).mono (fun _ held => held) grown,
      fun record held => ?_, Session.cacheBytes_finish remembers.small _ _ _⟩
    · by_cases failure : isFailure ending = true
      · have before := Session.mem_finish_failed failure held
        simp only [latest, failure, if_true]
        exact remembers.cached other cached before
      · have completed := Bool.not_eq_true _ ▸ failure
        simp only [latest, completed, Bool.false_eq_true, if_false, latest_append]
        obtain ⟨before, apart⟩ | ⟨value, kept, rfl, same⟩ := Session.mem_finish completed held
        · rw [if_neg (by simpa only [Run.completes, isLane] using Ne.symm apart)]
          exact remembers.cached other cached before
        · obtain ⟨rfl, rfl⟩ := Prod.mk.inj same
          obtain ⟨isId, isHistory⟩ := records value cached rfl
          refine ⟨_, if_pos isLane, isId.symm, ?_⟩
          rw [isHistory, whole.history, Run.completes, Chain.items_of]
    · by_cases own : other = lane
      · simp only [own, Function.update_self, reduceCtorEq] at held
      · simp only [Function.update_of_ne own] at held
        exact remembers.whole other run' held
    · by_cases own : other = lane
      · simp only [own, Function.update_self, reduceCtorEq] at held
      · simp only [Function.update_of_ne own] at held
        exact (remembers.named other run' held).mono grown
    · have served : ∀ request ∈ world.served, request ∈ world.served ++
          [⟨run.request, run.delivered, terminalOf lane ending⟩] :=
        fun request held => List.mem_append_left _ held
      by_cases failure : isFailure ending = true
      · simp only [failure, if_true] at held
        exact (remembers.completed record held).mono served grown
      · simp only [failure] at held
        obtain before | new := List.mem_append.mp held
        · exact (remembers.completed record before).mono served grown
        · rw [List.mem_singleton.mp new]
          refine ⟨_, List.mem_append_right _ List.mem_cons_self, run.base, run.input, run.server, rfl,
            whole.input, ?_, ?_⟩
          · rw [← whole.previous]
            exact (remembers.named lane run isRun).mono grown
          · rw [outputOf_terminal]
            rfl

/-- The lane whose response or request fails in a step. -/
def fails (serde : SerdeJson) (world : World) : Action → Option String
  | .start _ => world.session.next.bind fun taken =>
      match taken.2.prepare serde taken.1.value with
      | .ok _ => none
      | .error _ => some taken.1.lane
  | .deliver => match world.channel with
    | .finished lane _ ending :: _ => if isFailure ending then some lane else none
    | _ => none
  | _ => none

/-- The entries of other lanes stay when a response fails. -/
theorem cache_of_fails {next : World} {action : Action} {lane : String}
    (stepped : world.step serde action = some next) (fails : world.fails serde action = some lane) :
    (∀ entry ∈ next.session.cache, entry ∈ world.session.cache) ∧
      ∀ entry ∈ world.session.cache, entry.1 ≠ lane → entry ∈ next.session.cache := by
  have frame : ∀ (session : Session) (previousId : Option String),
      (∀ entry ∈ (session.failed lane previousId).cache, entry ∈ session.cache) ∧
        ∀ entry ∈ session.cache, entry.1 ≠ lane → entry ∈ (session.failed lane previousId).cache := by
    intro session previousId
    refine ⟨fun entry held => Session.mem_of_mem_failed held, fun entry held apart => ?_⟩
    obtain same | dropped := session.failed_cache lane previousId
    · rwa [same]
    · rw [dropped]
      exact List.mem_filter.mpr ⟨held, decide_eq_true apart⟩
  cases move_of_step stepped with
  | note => cases fails
  | accept => cases fails
  | advance => cases fails
  | launch id taken isPrepared =>
    simp only [World.fails, taken, Option.bind_some, isPrepared, reduceCtorEq] at fails
  | @reject id request session error taken rejected =>
    simp only [World.fails, taken, Option.bind_some, rejected, Option.some.injEq] at fails
    obtain ⟨-, -, -, sameCache⟩ := Session.next_eq_some taken
    rw [← sameCache, ← fails]
    exact fails ▸ frame session _
  | event isChannel => simp only [World.fails, isChannel, reduceCtorEq] at fails
  | @finish lane' previousId ending rest run isChannel isRun =>
    simp only [World.fails, isChannel] at fails
    split at fails
    · rename_i failure
      obtain rfl := Option.some.inj fails
      simp only [Session.finish, failure, if_true]
      exact frame { world.session with active := _ } previousId
    · cases fails

/-- What holds of every run, whatever its steps. -/
theorem flows_of_reached (reached : (connection serde).Reached world) :
    world.Ordered ∧ world.Flows := by
  refine reached.invariant (fun world => world.Ordered ∧ world.Flows) (fun state initial => ?_)
    fun state action next held _ stepped => ?_
  · have initial : state = { route := state.route } := initial
    rw [initial]
    refine ⟨⟨fun lane => ?_, List.nodup_nil, Nat.zero_le _, fun _ _ none => ?_, fun lane => rfl⟩,
      fun lane => ⟨[], rfl, fun _ => rfl⟩⟩
    · simp
    · cases none
  · have moved := move_of_step stepped
    exact ⟨held.1.move moved, held.2.move held.1 moved⟩

/-- What holds of every run whose steps are clear. -/
theorem sound (reached : (connection serde).Reachable (World.Clear serde) world) :
    world.Answers ∧ world.Remembers serde := by
  have both : (world.Ordered ∧ world.Flows) ∧ world.Answers ∧ world.Remembers serde := by
    refine reached.invariant (fun world => (world.Ordered ∧ world.Flows) ∧ world.Answers ∧
      world.Remembers serde) (fun state initial => ?_) fun state action next held clear stepped => ?_
    · refine ⟨flows_of_reached (.start initial), ?_⟩
      have initial : state = { route := state.route } := initial
      rw [initial]
      refine ⟨⟨fun lane => rfl, ?_, fun _ _ none => ?_, ?_, ?_⟩,
        ⟨?_, fun _ _ none => ?_, fun _ _ none => ?_, ?_, ?_, Nat.zero_le _⟩⟩
      · exact fun _ _ none => absurd none List.not_mem_nil
      · cases none
      · exact fun _ none => absurd none List.not_mem_nil
      · exact fun _ _ none => absurd none List.not_mem_nil
      · exact fun _ _ none => absurd none List.not_mem_nil
      · cases none
      · cases none
      · exact fun _ none => absurd none List.not_mem_nil
      · exact fun _ none => absurd none List.not_mem_nil
    · obtain ⟨⟨ordered, flows⟩, answers, remembers⟩ := held
      have moved := move_of_step stepped
      exact ⟨⟨ordered.move moved, flows.move ordered moved⟩,
        answers.move ordered flows (fun lane input isTask => by
          rw [isTask] at clear
          exact clear) moved, remembers.move ordered flows clear moved⟩
  exact both.2

/-- One session in order for each lane. -/
structure InOrder (serde : SerdeJson) (world : World) : Prop where
  ordered : world.Ordered
  answers : world.Answers
  continues : ∀ sent ∈ world.dispatched, world.Continues sent
  told : ∀ record ∈ world.completed, world.Told record
  latest : ∀ value prepared id, world.session.prepare serde value = .ok prepared →
    previousOf value = some id → ∃ lane record, world.latest lane = some record ∧ record.id = id
  keeps : ∀ action next lane, world.step serde action = some next →
    world.fails serde action = some lane →
      (∀ entry ∈ next.session.cache, entry ∈ world.session.cache) ∧
        ∀ entry ∈ world.session.cache, entry.1 ≠ lane → entry ∈ next.session.cache
  small : Session.cacheBytes world.session.cache ≤ maxSessionBytes

/-- A run whose steps are clear is in order. -/
theorem in_order (serde : SerdeJson) {world : World}
    (reached : (connection serde).Reachable (World.Clear serde) world) : world.InOrder serde := by
  obtain ⟨answers, remembers⟩ := sound reached
  refine ⟨(flows_of_reached (reached.mono fun _ _ _ => trivial)).1, answers, remembers.sent, remembers.completed, fun value prepared id isPrepared
    isPrevious => ?_, fun action next lane => cache_of_fails, remembers.small⟩
  obtain ⟨parent, -, -, isParent, -⟩ := Session.prepare_eq_ok isPrepared
  obtain ⟨-, absent⟩ | ⟨lane, cached, -, named, held⟩ := Session.parent_eq_ok isParent
  · rw [absent] at isPrevious
    cases isPrevious
  · obtain ⟨record, isLatest, isId, -⟩ := remembers.cached lane cached held
    exact ⟨lane, record, isLatest, isId.trans (Option.some.inj (named.symm.trans isPrevious))⟩

/-- Whether a step is clear, told by what is read back. -/
def clearly (serde : SerdeJson) (world : World) : Action → Bool
  | .start _ => world.session.next.all fun taken =>
      match taken.2.parent taken.1.value with
      | .ok (some entry) => match Session.historyOf serde (some entry) with
        | .ok items => (world.latest entry.1).all fun record => items = record.chain.items
        | .error _ => true
      | _ => true
  | .task lane (.event value) => lane ≠ "" || value.get "stream_id" = none
  | _ => true

/-- Such a step is clear. -/
theorem clear_of_clearly {action : Action} (clear : world.clearly serde action = true) :
    world.Clear serde action := by
  cases action with
  | start id =>
    intro request session lane cached record items taken isParent isLatest _ isItems
    simpa [clearly, taken, isParent, isItems, isLatest] using clear
  | task lane input =>
    cases input with
    | event value =>
      intro unnamed
      simpa [clearly, unnamed] using clear
    | _ => trivial
  | _ => trivial

/-- A step that is clear. -/
def clearStep (serde : SerdeJson) (world : World) (action : Action) : Option World :=
  if world.clearly serde action then world.step serde action else none

end World

/-- An item of a conversation. -/
def message (role text : String) : Value :=
  .obj [("type", "message"), ("role", role), ("content", text)]

/-- A request on a lane, after a response or after none. -/
def create (lane : String) (text : String) (previousId : Option String) : Value :=
  withLane (.obj [("type", "response.create"), ("input", text),
    ("previous_response_id", (previousId.map Value.string).getD .null)]) lane

/-- The event that completes a response with one item; the upstream names a stream. -/
def completedBy (text : String) : Value :=
  .obj [("type", "response.completed"), ("stream_id", "upstream"),
    ("response", .obj [("output", .array [message "assistant" text])])]

/-- One turn on a lane, from the message of the client to the terminal event. -/
def turn (lane text : String) (previousId : Option String) (id answer : String) : List Action :=
  [.receive (.text (create lane text previousId) 100), .start id, .task lane (.begin_ 0),
    .task lane (.answer (.ok (some 1))), .task lane (.event (completedBy answer)), .deliver]

/-- A connection to one target. -/
def opened : World := { route := [⟨1, true⟩] }

/-- A run starts with it. -/
theorem opened_init (serde : SerdeJson) : (connection serde).init opened := rfl

/-- The values of a conversation of two turns. -/
def twoTurns : SerdeJson :=
  let first := [message "user" "Hi", message "assistant" "Yes?"]
  .ofValues [.array first, .array (first ++ [message "user" "Go", message "assistant" "Ok"])]

/-- Two turns on a named lane, the second after the first. -/
theorem in_order_two_turns : ∃ world, (connection twoTurns).Reachable (World.Clear twoTurns) world ∧
    (world.served.length = 2 ∧ world.dispatched.map (fun sent => sent.body.field "input") =
      [.array [message "user" "Hi"], .array [message "user" "Hi", message "assistant" "Yes?",
        message "user" "Go"]]) ∧ world.InOrder twoTurns := by
  have went : ((System.after (World.clearStep twoTurns) opened
      (turn "a" "Hi" none "resp_1" "Yes?" ++ turn "a" "Go" (some "resp_1") "resp_2" "Ok")).any
      fun world => world.served.length = 2 ∧
        world.dispatched.map (fun sent => sent.body.field "input") =
          [.array [message "user" "Hi"], .array [message "user" "Hi", message "assistant" "Yes?",
            message "user" "Go"]]) = true := by
    decide +kernel
  simp only [Option.any_eq_true, decide_eq_true_eq] at went
  obtain ⟨world, went, facts⟩ := went
  have reached : (connection twoTurns).Reachable (World.Clear twoTurns) world := by
    refine .after (fun world action next stepped => ?_) (.start (opened_init _)) went
    unfold World.clearStep at stepped
    split at stepped
    · rename_i clear
      exact ⟨World.clear_of_clearly clear, stepped⟩
    · cases stepped
  exact ⟨world, reached, facts, World.in_order twoTurns reached⟩

/-- An upstream event that names a stream is passed on under that name on the lane without one. -/
theorem upstream_names_stream : ¬∀ serde world, (connection serde).Reached world →
    world.InOrder serde := by
  intro always
  have went : ((System.after (fun world => World.step world twoTurns) opened
      (turn "" "Hi" none "resp_1" "Yes?")).any fun world => ∃ entry ∈ world.log,
        entry.1 = some "" ∧ entry.2.get "stream_id" ≠ none) = true := by
    decide +kernel
  simp only [Option.any_eq_true, decide_eq_true_eq] at went
  obtain ⟨world, went, ⟨lane, value⟩, held, isLane, named⟩ := went
  have reached : (connection twoTurns).Reached world :=
    .after (fun _ _ _ stepped => ⟨trivial, stepped⟩) (.start (opened_init _)) went
  have isLane : lane = some "" := isLane
  rw [isLane] at held
  exact named ((always twoTurns world reached).answers.onLane "" value held)

end Aipass.Bridge
