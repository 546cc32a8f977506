import Aipass.Bridge.Connection

/-!
# What a connection can do

The steps of a connection, told one by one: what each finds and what it leaves. The invariants are
proved from these.
-/
namespace Aipass.Bridge

variable {serde : SerdeJson}

/-- A request is accepted at the end of the queue, and nothing else but the lanes changes. -/
theorem Session.enqueue_eq_ok {session next : Session} {value : Value} {bytes : ℕ}
    (enqueued : session.enqueue value bytes = .ok next) :
    ∃ lane, laneOf value = .ok lane ∧ next.queue = session.queue ++ [⟨lane, value, bytes⟩] ∧
      next.active = session.active ∧ next.cache = session.cache := by
  simp only [Session.enqueue, bind_eq_ok, refuseIf_eq_ok] at enqueued
  obtain ⟨-, -, lane, isLane, -, -, -, -, made⟩ := enqueued
  cases made
  exact ⟨lane, isLane, rfl, rfl, rfl⟩

/-- The request taken is the first of its lane, which is free; the others stay in order. -/
theorem Session.takeFree_eq_some {active : List String} {queue rest : List Queued}
    {request : Queued} (taken : Session.takeFree active queue = some (request, rest)) :
    request.lane ∉ active ∧ ∀ lane, queue.filter (fun held => held.lane = lane) =
      (if request.lane = lane then [request] else []) ++
        rest.filter fun held => held.lane = lane := by
  induction queue generalizing rest with
  | nil => cases taken
  | cons first queue ih =>
    rw [Session.takeFree] at taken
    split at taken
    · rename_i busy
      obtain ⟨⟨other, others⟩, found, same⟩ := Option.map_eq_some_iff.mp taken
      obtain ⟨rfl, rfl⟩ := Prod.mk.inj same
      obtain ⟨free, order⟩ := ih found
      have busy : first.lane ∈ active := List.contains_iff_mem.mp busy
      refine ⟨free, fun lane => ?_⟩
      by_cases own : other.lane = lane
      · have apart : first.lane ≠ lane := fun same => free (own ▸ same ▸ busy)
        rw [List.filter_cons_of_neg (by simpa using apart),
          List.filter_cons_of_neg (by simpa using apart), order lane]
      · have rest := order lane
        rw [if_neg own, List.nil_append] at rest ⊢
        rw [List.filter_cons, List.filter_cons, rest]
    · rename_i free
      obtain ⟨rfl, rfl⟩ := Prod.mk.inj (Option.some.inj taken)
      refine ⟨fun held => free (List.contains_iff_mem.mpr held), fun lane => ?_⟩
      by_cases own : first.lane = lane
      · rw [if_pos own, List.filter_cons_of_pos (by simpa using own), List.singleton_append]
      · rw [if_neg own, List.filter_cons_of_neg (by simpa using own), List.nil_append]

/-- The next request is the first whose lane is free, as long as not too many are active. -/
theorem Session.next_eq_some {session next : Session} {request : Queued}
    (taken : session.next = some (request, next)) :
    session.active.length < maxActive ∧
      Session.takeFree session.active session.queue = some (request, next.queue) ∧
      next.active = session.active ∧ next.cache = session.cache := by
  unfold Session.next at taken
  split at taken
  · cases taken
  · rename_i room
    obtain ⟨⟨other, rest⟩, found, same⟩ := Option.map_eq_some_iff.mp taken
    obtain ⟨rfl, rfl⟩ := Prod.mk.inj same
    exact ⟨not_le.mp room, found, rfl, rfl⟩

/-- What a task does in one step: the phase it comes to, and the events it passes on. -/
inductive Run.Advances (serde : SerdeJson) (route : List Target) (run : Run) :
    Input → Phase → List Value → Prop
  /-- A local response is begun. -/
  | warm (now : ℕ) (isPhase : run.phase = .begun) : Advances serde route run (.begin_ now)
      (.warm [localEvent "response.created" 0 (localResponse run.id now
          (run.prepared.body.field "model") "in_progress"),
        localEvent "response.in_progress" 1 (localResponse run.id now
          (run.prepared.body.field "model") "in_progress")]
        (.ok (localEvent "response.completed" 2 (localResponse run.id now
          (run.prepared.body.field "model") "completed"), cache serde run.id run.prepared.history
            run.prepared.boundTarget run.prepared.originTarget))) []
  /-- The request is not sent. -/
  | refuse (now : ℕ) (isPhase : run.phase = .begun) (error : BridgeError) :
      Advances serde route run (.begin_ now) (.done (.error error)) []
  /-- The request is sent. -/
  | send (now : ℕ) (isPhase : run.phase = .begun) :
      Advances serde route run (.begin_ now) (.waiting (restrict route run.prepared.boundTarget)) []
  /-- An event of a local response is passed on. -/
  | event {value : Value} {rest : List Value} {ending : Ending}
      (isPhase : run.phase = .warm (value :: rest) ending) :
      Advances serde route run .warm (.warm rest ending) [value]
  /-- A local response ends. -/
  | ended {ending : Ending} (isPhase : run.phase = .warm [] ending) :
      Advances serde route run .warm (.done ending) []
  /-- The answer is no success. -/
  | failed {targets : List Target} (isPhase : run.phase = .waiting targets)
      (result : Except (ℕ × Bool) (Option Uuid)) (error : BridgeError) :
      Advances serde route run (.answer result) (.done (.error error)) []
  /-- One of the targets answers. -/
  | answered {targets : List Target} (isPhase : run.phase = .waiting targets)
      {identity : Option Uuid} (served : ∀ server, identity = some server →
        ∃ held ∈ targets, held.id = server) :
      Advances serde route run (.answer (.ok identity)) (.reading identity) []
  /-- An event of the stream is passed on. -/
  | passed {identity : Option Uuid} (isPhase : run.phase = .reading identity)
      {value passed : Value} (stepped : step serde run.id run.prepared identity value = .inl passed) :
      Advances serde route run (.event value) (.reading identity) [passed]
  /-- An event of the stream ends the response. -/
  | last {identity : Option Uuid} (isPhase : run.phase = .reading identity) {value : Value}
      {ending : Ending} (stepped : step serde run.id run.prepared identity value = .inr ending) :
      Advances serde route run (.event value) (.done ending) []
  /-- The stream fails. -/
  | cut {identity : Option Uuid} (isPhase : run.phase = .reading identity) :
      Advances serde route run .cut (.done (.error .upstream)) []

/-- A task that goes on does one of these. -/
theorem Run.advances_of_advance {route : List Target} {run : Run} {input : Input} {phase : Phase}
    {events : List Value} (advanced : run.advance serde route input = some (phase, events)) :
    run.Advances serde route input phase events := by
  unfold Run.advance at advanced
  split at advanced
  · rename_i now isPhase
    cases advanced
    unfold begin_
    split
    · exact .warm now isPhase
    · split
      · exact .refuse now isPhase _
      · simp only
        split
        · exact .refuse now isPhase _
        · exact .send now isPhase
  · rename_i isPhase
    cases advanced
    exact .event isPhase
  · rename_i isPhase
    cases advanced
    exact .ended isPhase
  · rename_i isPhase
    cases advanced
    exact .failed isPhase _ _
  · rename_i targets identity isPhase
    split at advanced
    · rename_i served
      cases advanced
      refine .answered isPhase fun server isServer => ?_
      rw [isServer] at served
      simpa using served
    · cases advanced
  · rename_i isPhase
    split at advanced
    · rename_i stepped
      cases advanced
      exact .passed isPhase stepped
    · rename_i stepped
      cases advanced
      exact .last isPhase stepped
  · rename_i isPhase
    cases advanced
    exact .cut isPhase
  · cases advanced

/-- What a connection does in one step. -/
inductive World.Move (serde : SerdeJson) (world : World) : Action → World → Prop
  /-- A message is no request, or it is refused; the client may be told so. -/
  | note (message : Message) (told : List (Option String × Value))
    (none_told : ∀ entry ∈ told, entry.1 = none) :
    Move serde world (.receive message) { world with log := world.log ++ told }
  /-- A request is accepted. -/
  | accept (value : Value) (bytes : ℕ) {session : Session} {lane : String}
    (isLane : laneOf value = .ok lane) (enqueued : world.session.enqueue value bytes = .ok session) :
    Move serde world (.receive (.text value bytes)) { world with
      session := session
      accepted := world.accepted ++ [⟨lane, value, bytes⟩] }
  /-- A response is started. -/
  | launch (id : String) {request : Queued} {session : Session} {prepared : Prepared}
    (taken : world.session.next = some (request, session))
    (isPrepared : session.prepare serde request.value = .ok prepared) :
    Move serde world (.start id) { world with
      session := { session with active := request.lane :: session.active }
      running := Function.update world.running request.lane (some ⟨request, id,
        previousOf request.value, prepared, .begun, world.baseOf request.value,
        (inputOf request.value).toOption.getD [], none, []⟩) }
  /-- A request is rejected. -/
  | reject (id : String) {request : Queued} {session : Session} {error : BridgeError}
    (taken : world.session.next = some (request, session))
    (rejected : session.prepare serde request.value = .error error) :
    Move serde world (.start id) { world with
      session := session.failed request.lane (previousOf request.value)
      log := world.log ++ [(some request.lane, error.event request.lane)]
      served := world.served ++ [⟨request, [], error.event request.lane⟩] }
  /-- A task goes on. -/
  | advance (lane : String) (input : Input) {run : Run} {phase : Phase} {events : List Value}
    (isRun : world.running lane = some run)
    (advanced : run.Advances serde world.route input phase events) :
    Move serde world (.task lane input) { world with
      running := Function.update world.running lane (some { run with
        phase := phase
        server := phase.server run.server })
      channel := world.channel ++ events.map (.event lane) ++ phase.last lane run.previousId
      dispatched := world.dispatched ++ run.sends phase }
  /-- An event is delivered. -/
  | event {lane : String} {value : Value} {rest : List Output} {run : Run}
    (isChannel : world.channel = .event lane value :: rest)
    (isRun : world.running lane = some run) :
    Move serde world .deliver { world with
      channel := rest
      log := world.log ++ [(some lane, withLane value lane)]
      running := Function.update world.running lane
        (some { run with delivered := run.delivered ++ [withLane value lane] }) }
  /-- A response has ended. -/
  | finish {lane : String} {previousId : Option String} {ending : Ending} {rest : List Output}
    {run : Run} (isChannel : world.channel = .finished lane previousId ending :: rest)
    (isRun : world.running lane = some run) :
    Move serde world .deliver { world with
      channel := rest
      session := world.session.finish lane previousId ending
      log := world.log ++ [(some lane, terminalOf lane ending)]
      running := Function.update world.running lane none
      served := world.served ++ [⟨run.request, run.delivered, terminalOf lane ending⟩]
      completed := if isFailure ending then world.completed
        else world.completed ++ [run.completes ending] }

/-- A step is one of these. -/
theorem World.move_of_step {world next : World} {action : Action}
    (stepped : world.step serde action = some next) : world.Move serde action next := by
  cases action with
  | receive message =>
    obtain rfl := Option.some.inj stepped
    have quiet : ∀ value, ∀ entry ∈ [((none : Option String), (value : Value))], entry.1 = none := by
      intro value entry held
      rw [List.mem_singleton.mp held]
    cases message with
    | text value bytes =>
      rw [World.receive]
      split
      · rename_i session enqueued
        obtain ⟨lane, isLane, -⟩ := Session.enqueue_eq_ok enqueued
        rw [isLane]
        exact .accept value bytes isLane enqueued
      · exact .note _ _ (quiet _)
    | notJson => exact .note _ _ (quiet _)
    | binary => exact .note _ _ (quiet _)
    | control =>
      have same : world.receive .control = { world with log := world.log ++ [] } := by
        rw [List.append_nil]
        rfl
      rw [same]
      exact .note _ _ fun entry held => absurd held List.not_mem_nil
  | start id =>
    obtain ⟨⟨request, session⟩, taken, rfl⟩ := Option.map_eq_some_iff.mp stepped
    dsimp only
    split
    · rename_i prepared isPrepared
      exact .launch id taken isPrepared
    · rename_i error rejected
      exact .reject id taken rejected
  | task lane input =>
    simp only [World.step, World.task, Option.bind_eq_bind, Option.bind_eq_some_iff,
      Option.some.injEq] at stepped
    obtain ⟨run, isRun, ⟨phase, events⟩, advanced, rfl⟩ := stepped
    exact .advance lane input isRun (Run.advances_of_advance advanced)
  | deliver =>
    simp only [World.step, World.deliver] at stepped
    split at stepped
    · cases stepped
    · rename_i isChannel
      obtain ⟨run, isRun, rfl⟩ := Option.map_eq_some_iff.mp stepped
      exact .event isChannel isRun
    · rename_i isChannel
      obtain ⟨run, isRun, rfl⟩ := Option.map_eq_some_iff.mp stepped
      exact .finish isChannel isRun

end Aipass.Bridge
