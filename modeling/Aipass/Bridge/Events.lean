import Aipass.Bridge.Channel

/-!
# Events of a lane end with one terminal event

Each request that was accepted gets its events and then one terminal event, and these come before
the events of the next request of the lane. A named lane is written into each event that is passed
on. The lane without a name passes an event on as it is, so it relies on the upstream not to name a
stream there.
-/
namespace Aipass.Bridge

variable {serde : SerdeJson}

/-- A terminal event. -/
def isTerminal (value : Value) : Bool :=
  match (value.field "type").asStr with
  | some "response.completed" | some "response.incomplete" | some "response.failed"
  | some "response.cancelled" | some "error" => true
  | _ => false

/-- An event names its lane. -/
def OnLane (lane : String) (value : Value) : Prop :=
  value.get "stream_id" = if lane = "" then none else some (.string lane)

/-- An event that a lane may pass on: one without a name relies on the event having none. -/
def Fits (lane : String) (value : Value) : Prop :=
  value.IsObject ∧ (lane = "" → value.get "stream_id" = none)

/-- An event that a lane may pass on before the terminal one. -/
def Passes (lane : String) (value : Value) : Prop := Fits lane value ∧ isTerminal value = false

/-- A response that ends with an event ends with a terminal one. -/
def Ends (lane : String) (ending : Ending) : Prop :=
  ∀ value cached, ending = .ok (value, cached) → Fits lane value ∧ isTerminal value = true

/-- Whether an event is terminal depends on its type. -/
theorem isTerminal_congr {left right : Value} (same : left.get "type" = right.get "type") :
    isTerminal left = isTerminal right := by
  simp only [isTerminal, Value.field, same]

/-- Writing the lane into an event keeps its type. -/
theorem isTerminal_withLane {value : Value} (isObject : value.IsObject) (lane : String) :
    isTerminal (withLane value lane) = isTerminal value := by
  unfold withLane
  split
  · rfl
  · exact isTerminal_congr (by rw [Value.get_set isObject, if_neg (by decide)])

/-- An event with its lane names it. -/
theorem onLane_withLane {lane : String} {value : Value} (fits : Fits lane value) :
    OnLane lane (withLane value lane) := by
  unfold OnLane withLane
  by_cases unnamed : lane = ""
  · rw [if_pos unnamed, if_pos unnamed]
    exact fits.2 unnamed
  · rw [if_neg unnamed, if_neg unnamed, Value.get_set fits.1, if_pos rfl]

/-- The value of an error. -/
theorem error_fits (error : BridgeError) (lane : String) :
    OnLane lane (error.event lane) ∧ isTerminal (error.event lane) = true := by
  have fits : Fits lane (.obj [("type", "error"), ("status", .nat error.status), ("error", .obj [
      ("type", if 500 ≤ error.status && error.status < 600 then "server_error"
        else "invalid_request_error"),
      ("code", error.code), ("message", error.message)])]) := ⟨trivial, fun _ => rfl⟩
  refine ⟨onLane_withLane fits, ?_⟩
  rw [BridgeError.event, isTerminal_withLane fits.1]
  rfl

/-- A field that may be written leaves the others. -/
theorem written_keeps {value : Value} (isObject : value.IsObject) (condition : Prop)
    [Decidable condition] (key : String) (written : Value) :
    (if condition then value.set key written else value).IsObject ∧ ∀ other, other ≠ key →
      (if condition then value.set key written else value).get other = value.get other := by
  split
  · refine ⟨Value.isObject_set isObject _ _, fun other apart => ?_⟩
    rw [Value.get_set isObject, if_neg (Ne.symm apart)]
  · exact ⟨isObject, fun _ _ => rfl⟩

/-- The identifier of a response is no type and no lane. -/
theorem withId_keeps {value : Value} (isObject : value.IsObject) (id : String) :
    (withId id value).IsObject ∧ ∀ key, key ≠ "response" → key ≠ "response_id" →
      (withId id value).get key = value.get key := by
  obtain ⟨isObject', first⟩ := written_keeps isObject
    ((value.get "response").any fun response => response.asObject.isSome) "response"
    ((value.field "response").set "id" id)
  obtain ⟨isObject'', second⟩ := written_keeps isObject' ((((if (value.get "response").any
    fun response => response.asObject.isSome then value.set "response" ((value.field "response").set
      "id" id) else value).get "response_id").isSome : Bool) = true) "response_id" id
  exact ⟨isObject'', fun key apart apart' => (second key apart').trans (first key apart)⟩

/-- A value with fields is an object. -/
theorem isObject_of_asObject {value : Value} (some_fields : ¬value.asObject.isNone = true) :
    value.IsObject := by
  cases value with
  | object fields => trivial
  | _ => exact absurd rfl some_fields

/-- An event that is passed on is not terminal. -/
theorem step_passes {id : String} {prepared : Prepared} {identity : Option Uuid}
    {value passed : Value} (stepped : step serde id prepared identity value = .inl passed)
    {lane : String} (unnamed : lane = "" → value.get "stream_id" = none) : Passes lane passed := by
  unfold step at stepped
  split at stepped
  · cases stepped
  · rename_i some_fields
    have kept := withId_keeps (isObject_of_asObject some_fields) id
    simp only at stepped
    split at stepped
    · split at stepped <;> cases stepped
    · split at stepped <;> cases stepped
    · cases stepped
    · cases stepped
    · cases stepped
    · obtain rfl := Sum.inl.inj stepped
      refine ⟨⟨kept.1, fun empty => ?_⟩, ?_⟩
      · rw [kept.2 "stream_id" (by decide) (by decide), unnamed empty]
      · unfold isTerminal
        split <;> simp_all

/-- An event that ends a response is terminal. -/
theorem step_ends {id : String} {prepared : Prepared} {identity : Option Uuid} {value : Value}
    {ending : Ending} (stepped : step serde id prepared identity value = .inr ending)
    {lane : String} (unnamed : lane = "" → value.get "stream_id" = none) : Ends lane ending := by
  rintro final cached rfl
  unfold step at stepped
  split at stepped
  · cases stepped
  · rename_i some_fields
    have kept := withId_keeps (isObject_of_asObject some_fields) id
    have fits : Fits lane (withId id value) := by
      refine ⟨kept.1, fun empty => ?_⟩
      rw [kept.2 "stream_id" (by decide) (by decide), unnamed empty]
    simp only at stepped
    split at stepped
    · rename_i kind
      split at stepped
      · cases stepped
      · cases stepped
        exact ⟨fits, by rw [isTerminal, kind]; rfl⟩
    · rename_i kind
      split at stepped
      · cases stepped
      · cases stepped
        exact ⟨fits, by rw [isTerminal, kind]; rfl⟩
    all_goals
      rename_i kind
      cases stepped
      try exact ⟨fits, by rw [isTerminal, kind]; rfl⟩

/-- What a running response has sent, and what it is about to send. -/
def Run.Going (run : Run) (lane : String) : Prop :=
  (∀ event ∈ run.delivered, isTerminal event = false) ∧
    match run.phase with
    | .warm events ending => (∀ event ∈ events, Passes lane event) ∧ Ends lane ending
    | .done ending => Ends lane ending
    | _ => True

/-- An event that is read for the lane without a name names no stream. -/
def Unnamed (lane : String) : Input → Prop
  | .event value => lane = "" → value.get "stream_id" = none
  | _ => True

/-- The phase of a response that goes on. -/
theorem Run.Going.advance {run : Run} {lane : String} (going : run.Going lane)
    {route : List Target} {input : Input} (unnamed : Unnamed lane input) {phase : Phase}
    {events : List Value} (advanced : run.Advances serde route input phase events) :
    (∀ event ∈ events, Passes lane event) ∧
      ∀ server, Run.Going { run with phase := phase, server := server } lane := by
  obtain ⟨sent, ahead⟩ := going
  have quiet : ∀ event ∈ ([] : List Value), Passes lane event :=
    fun event held => absurd held List.not_mem_nil
  have failed : ∀ error, Ends lane (.error error) := by
    rintro error value cached same
    cases same
  cases advanced with
  | warm now isPhase =>
    refine ⟨quiet, fun server => ⟨sent, ?_, ?_⟩⟩
    · simp only [List.mem_cons, List.not_mem_nil, or_false]
      rintro event (rfl | rfl) <;> exact ⟨⟨trivial, fun _ => rfl⟩, rfl⟩
    · rintro value cached same
      cases same
      exact ⟨⟨trivial, fun _ => rfl⟩, rfl⟩
  | refuse now isPhase error => exact ⟨quiet, fun server => ⟨sent, failed error⟩⟩
  | send now isPhase => exact ⟨quiet, fun server => ⟨sent, trivial⟩⟩
  | @event event rest ending isPhase =>
    rw [isPhase] at ahead
    refine ⟨fun other held => ?_, fun server => ⟨sent, fun other held => ?_, ahead.2⟩⟩
    · rw [List.mem_singleton.mp held]
      exact ahead.1 event List.mem_cons_self
    · exact ahead.1 other (List.mem_cons_of_mem _ held)
  | ended isPhase =>
    rw [isPhase] at ahead
    exact ⟨quiet, fun server => ⟨sent, ahead.2⟩⟩
  | failed isPhase result error => exact ⟨quiet, fun server => ⟨sent, failed error⟩⟩
  | answered isPhase served => exact ⟨quiet, fun server => ⟨sent, trivial⟩⟩
  | passed isPhase stepped =>
    refine ⟨fun other held => ?_, fun server => ⟨sent, trivial⟩⟩
    rw [List.mem_singleton.mp held]
    exact step_passes stepped unnamed
  | last isPhase stepped => exact ⟨quiet, fun server => ⟨sent, step_ends stepped unnamed⟩⟩
  | cut isPhase => exact ⟨quiet, fun server => ⟨sent, failed _⟩⟩

namespace World

/-- What was sent for the requests of a lane. -/
def sentOn (world : World) (lane : String) : List Value :=
  (world.log.filter fun entry => entry.1 = some lane).map Prod.snd

/-- What was sent on a lane are the events of the requests served, each with its terminal event
after them, and then those of the one that runs. -/
structure Answers (world : World) : Prop where
  sent : ∀ lane, world.sentOn lane =
    (world.servedOf lane).flatMap (fun served => served.events ++ [served.terminal]) ++
      (world.running lane).elim [] Run.delivered
  passes : ∀ lane value, .event lane value ∈ world.channel → Passes lane value
  going : ∀ lane run, world.running lane = some run → run.Going lane
  ends : ∀ served ∈ world.served, isTerminal served.terminal = true ∧
    ∀ event ∈ served.events, isTerminal event = false
  onLane : ∀ lane value, (some lane, value) ∈ world.log → OnLane lane value

namespace Answers

variable {world : World}

/-- What was sent for a lane grows by what is sent for it. -/
theorem sentOn_append (world : World) (log : List (Option String × Value)) (lane : String) :
    (({ world with log := world.log ++ log } : World)).sentOn lane = world.sentOn lane ++
      (log.filter fun entry => entry.1 = some lane).map Prod.snd := by
  simp only [sentOn, List.filter_append, List.map_append]

/-- A request that is served adds its events and its terminal event to its lane. -/
theorem servedOf_append (world : World) (served : Served) (lane : String) :
    (({ world with served := world.served ++ [served] } : World)).servedOf lane =
      world.servedOf lane ++ (if served.request.lane = lane then [served] else []) := by
  simp only [servedOf, List.filter_append, List.filter_cons, List.filter_nil, decide_eq_true_eq]

/-- The events are kept by every step. -/
theorem move (answers : world.Answers) (ordered : world.Ordered) (flows : world.Flows)
    {action : Action}
    (unnamed : ∀ lane input, action = .task lane input → Unnamed lane input) {next : World}
    (moved : world.Move serde action next) : next.Answers := by
  cases moved with
  | note message told none_told =>
    refine ⟨fun lane => ?_, answers.passes, answers.going, answers.ends, fun lane value held => ?_⟩
    · have nothing : told.filter (fun entry => entry.1 = some lane) = [] := by
        refine List.filter_eq_nil_iff.mpr fun entry held => ?_
        simp [none_told entry held]
      have same := sentOn_append world told lane
      rw [nothing, List.map_nil, List.append_nil] at same
      exact same.trans (answers.sent lane)
    · obtain before | new := List.mem_append.mp held
      · exact answers.onLane lane value before
      · have := none_told _ new
        cases this
  | accept value bytes isLane enqueued =>
    exact ⟨answers.sent, answers.passes, answers.going, answers.ends, answers.onLane⟩
  | @launch id request session prepared taken isPrepared =>
    obtain ⟨-, found, -, -⟩ := Session.next_eq_some taken
    have idle := ordered.idle (Session.takeFree_eq_some found).1
    refine ⟨fun lane => ?_, answers.passes, fun lane run held => ?_, answers.ends, answers.onLane⟩
    · have before := answers.sent lane
      by_cases own : lane = request.lane
      · subst own
        rw [idle] at before
        simp only [Function.update_self]
        exact before
      · simp only [Function.update_of_ne own]
        exact before
    · by_cases own : lane = request.lane
      · simp only [own, Function.update_self, Option.some.injEq] at held
        subst held
        exact ⟨fun event impossible => absurd impossible List.not_mem_nil, trivial⟩
      · simp only [Function.update_of_ne own] at held
        exact answers.going lane run held
  | @reject id request session error taken rejected =>
    obtain ⟨-, found, -, -⟩ := Session.next_eq_some taken
    have idle := ordered.idle (Session.takeFree_eq_some found).1
    obtain ⟨onLane, terminal⟩ := error_fits error request.lane
    refine ⟨fun lane => ?_, answers.passes, answers.going, fun served held => ?_,
      fun lane value held => ?_⟩
    · have before := answers.sent lane
      have sent := sentOn_append world [(some request.lane, error.event request.lane)] lane
      have served := servedOf_append world ⟨request, [], error.event request.lane⟩ lane
      refine (sent.trans ?_).trans (congrArg (fun list : List Served => list.flatMap _ ++ _) served.symm)
      rw [before]
      by_cases own : request.lane = lane
      · subst own
        simp [idle]
      · simp [own]
    · obtain before | new := List.mem_append.mp held
      · exact answers.ends served before
      · rw [List.mem_singleton.mp new]
        exact ⟨terminal, fun event impossible => absurd impossible List.not_mem_nil⟩
    · obtain before | new := List.mem_append.mp held
      · exact answers.onLane lane value before
      · cases List.mem_singleton.mp new
        exact onLane
  | @advance lane input run phase events isRun advanced =>
    obtain ⟨passes, going⟩ := (answers.going lane run isRun).advance (unnamed lane input rfl) advanced
    refine ⟨fun other => ?_, fun other value held => ?_, fun other run' held => ?_, answers.ends,
      answers.onLane⟩
    · have before := answers.sent other
      by_cases own : other = lane
      · subst own
        rw [isRun] at before
        simp only [Function.update_self]
        exact before
      · simp only [Function.update_of_ne own]
        exact before
    · obtain before | last := List.mem_append.mp held
      · obtain old | new := List.mem_append.mp before
        · exact answers.passes other value old
        · obtain ⟨event, sent, same⟩ := List.mem_map.mp new
          cases same
          exact passes _ sent
      · unfold Phase.last at last
        split at last
        · cases List.mem_singleton.mp last
        · cases last
    · by_cases own : other = lane
      · subst own
        simp only [Function.update_self, Option.some.injEq] at held
        subst held
        exact going _
      · simp only [Function.update_of_ne own] at held
        exact answers.going other run' held
  | @event lane value rest run isChannel isRun =>
    obtain ⟨fits, unending⟩ := answers.passes lane value (by rw [isChannel]; exact List.mem_cons_self)
    have going := answers.going lane run isRun
    refine ⟨fun other => ?_, fun other held inside => ?_, fun other run' held => ?_, answers.ends,
      fun other value' held => ?_⟩
    · have before := answers.sent other
      refine (sentOn_append world [(some lane, withLane value lane)] other).trans ?_
      rw [before]
      by_cases own : other = lane
      · subst own
        simp [isRun, servedOf]
      · simp [Function.update_of_ne own, Ne.symm own, servedOf]
    · exact answers.passes other held (by rw [isChannel]; exact List.mem_cons_of_mem _ inside)
    · by_cases own : other = lane
      · subst own
        simp only [Function.update_self, Option.some.injEq] at held
        subst held
        refine ⟨fun event inside => ?_, going.2⟩
        obtain before | new := List.mem_append.mp inside
        · exact going.1 event before
        · rw [List.mem_singleton.mp new, isTerminal_withLane fits.1]
          exact unending
      · simp only [Function.update_of_ne own] at held
        exact answers.going other run' held
    · obtain before | new := List.mem_append.mp held
      · exact answers.onLane other value' before
      · cases List.mem_singleton.mp new
        exact onLane_withLane fits
  | @finish lane previousId ending rest run isChannel isRun =>
    have going := answers.going lane run isRun
    have isLane := ordered.own lane run isRun
    obtain ⟨isPhase, -⟩ := flows.finishing isChannel isRun
    have ends : Ends lane ending := by
      have ahead := going.2
      rw [isPhase] at ahead
      exact ahead
    obtain ⟨onLane, terminal⟩ : OnLane lane (terminalOf lane ending) ∧
        isTerminal (terminalOf lane ending) = true := by
      unfold terminalOf
      split
      · rename_i value cached
        obtain ⟨fits, terminal⟩ := ends value cached rfl
        exact ⟨onLane_withLane fits, (isTerminal_withLane fits.1 lane).trans terminal⟩
      · exact error_fits _ lane
    refine ⟨fun other => ?_, fun other value' inside => ?_, fun other run' held => ?_,
      fun served held => ?_, fun other value' held => ?_⟩
    · have before := answers.sent other
      have sent := sentOn_append world [(some lane, terminalOf lane ending)] other
      have served := servedOf_append world ⟨run.request, run.delivered, terminalOf lane ending⟩ other
      refine (sent.trans ?_).trans (congrArg (fun list : List Served => list.flatMap _ ++ _) served.symm)
      rw [before]
      by_cases own : other = lane
      · subst own
        simp [isRun, isLane]
      · simp [Function.update_of_ne own, Ne.symm own, isLane]
    · exact answers.passes other value' (by rw [isChannel]; exact List.mem_cons_of_mem _ inside)
    · by_cases own : other = lane
      · simp only [own, Function.update_self, reduceCtorEq] at held
      · simp only [Function.update_of_ne own] at held
        exact answers.going other run' held
    · obtain before | new := List.mem_append.mp held
      · exact answers.ends served before
      · rw [List.mem_singleton.mp new]
        exact ⟨terminal, going.1⟩
    · obtain before | new := List.mem_append.mp held
      · exact answers.onLane other value' before
      · cases List.mem_singleton.mp new
        exact onLane

end Answers
end World
end Aipass.Bridge
