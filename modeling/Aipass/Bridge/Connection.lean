import Mathlib.Logic.Function.Basic
import Aipass.Base.Run
import Aipass.Bridge.Response

/-!
# The runs of a bridged connection

One loop owns the session: it starts the requests whose lanes are free, delivers what the tasks
send, and takes the messages of the client; the tasks run in between, in any order. Beside the state
of the code a run keeps what happened: the requests accepted and served, the requests sent, and the
responses that completed, each with the chain of responses it goes on from.
-/
namespace Aipass.Bridge

/-- A completed response: the input and the output of it, the target that served it, and the
response it goes on from. -/
inductive Chain
  | first (input output : List Value) (server : Option Uuid)
  | after (base : Chain) (input output : List Value) (server : Option Uuid)

namespace Chain

/-- The inputs and outputs of a chain, in order. -/
def items : Chain → List Value
  | first input output _ => input ++ output
  | after base input output _ => base.items ++ input ++ output

/-- A response that goes on from another, or from none. -/
def of (base : Option Chain) (input output : List Value) (server : Option Uuid) : Chain :=
  match base with
  | none => first input output server
  | some base => after base input output server

end Chain

/-- A response that completed. -/
structure Completed where
  lane : String
  id : String
  previousId : Option String
  chain : Chain

/-- A request that is running. -/
structure Run where
  request : Queued
  id : String
  previousId : Option String
  prepared : Prepared
  phase : Phase
  /-- The response it goes on from. -/
  base : Option Chain
  /-- Its own input. -/
  input : List Value
  /-- The target that answered it. -/
  server : Option Uuid
  /-- The events that were delivered for it. -/
  delivered : List Value

/-- A request that got its terminal event, with the events before. -/
structure Served where
  request : Queued
  events : List Value
  terminal : Value

/-- A request that was sent to a target of a list. -/
structure Dispatch where
  request : Queued
  base : Option Chain
  input : List Value
  boundTarget : Option Uuid
  targets : List Target
  body : Value

/-- A bridged connection. -/
structure World where
  route : List Target
  session : Session := {}
  running : String → Option Run := fun _ => none
  channel : List Output := []
  /-- What the client was sent: for a request of a lane, or for a message that is none. -/
  log : List (Option String × Value) := []
  accepted : List Queued := []
  served : List Served := []
  dispatched : List Dispatch := []
  completed : List Completed := []

/-- A message of the client. -/
inductive Message
  /-- A text that is JSON, with its length. -/
  | text (value : Value) (bytes : ℕ)
  /-- A text that is no JSON. -/
  | notJson
  /-- Bytes. -/
  | binary
  /-- A ping or a pong. -/
  | control

/-- What makes a task go on. -/
inductive Input
  /-- It runs for the first time. -/
  | begin_ (now : ℕ)
  /-- The channel takes an event of a local response. -/
  | warm
  /-- The request is answered: with an error, or by a target. -/
  | answer (result : Except (ℕ × Bool) (Option Uuid))
  /-- An event of the stream is read. -/
  | event (value : Value)
  /-- The stream fails or ends. -/
  | cut

/-- What happens to a connection. -/
inductive Action
  /-- The client sends a message. -/
  | receive (message : Message)
  /-- The loop takes the next request; a response has a new identifier. -/
  | start (id : String)
  /-- The task of a lane goes on. -/
  | task (lane : String) (input : Input)
  /-- The loop takes the next output. -/
  | deliver

/-- The text of the response a request names. -/
def previousOf (value : Value) : Option String := (value.field "previous_response_id").asStr

/-- `run_response`: the next phase, and the events that are passed on. -/
def Run.advance (run : Run) (serde : SerdeJson) (route : List Target) (input : Input) :
    Option (Phase × List Value) :=
  match run.phase, input with
  | .begun, .begin_ now => some (begin_ serde route run.id run.prepared now, [])
  | .warm (event :: rest) ending, .warm => some (.warm rest ending, [event])
  | .warm [] ending, .warm => some (.done ending, [])
  | .waiting _, .answer (.error (status, atCapacity)) =>
    some (.done (.error (answerError status atCapacity)), [])
  | .waiting targets, .answer (.ok identity) =>
    if identity.all fun id => targets.any fun held => held.id = id then some (.reading identity, [])
    else none
  | .reading identity, .event value =>
    match step serde run.id run.prepared identity value with
    | .inl value => some (.reading identity, [value])
    | .inr ending => some (.done ending, [])
  | .reading _, .cut => some (.done (.error .upstream), [])
  | _, _ => none

/-- What a task sends when it ends. -/
def Phase.last (lane : String) (previousId : Option String) : Phase → List Output
  | .done ending => [.finished lane previousId ending]
  | _ => []

/-- The target that answers, once the answer is read. -/
def Phase.server (before : Option Uuid) : Phase → Option Uuid
  | .reading identity => identity
  | _ => before

/-- The request that is sent when a task begins. -/
def Run.sends (run : Run) : Phase → List Dispatch
  | .waiting targets => [⟨run.request, run.base, run.input, run.prepared.boundTarget, targets,
      run.prepared.body⟩]
  | _ => []

/-- The terminal event of a lane. -/
def terminalOf (lane : String) : Ending → Value
  | .ok (value, _) => withLane value lane
  | .error error => error.event lane

/-- Whether a response ended without completing. -/
def isFailure : Ending → Bool
  | .ok (value, _) => match (value.field "type").asStr with
    | some "error" | some "response.failed" | some "response.cancelled" => true
    | _ => false
  | .error _ => true

/-- The session when a response of a lane has ended. -/
def Session.finish (session : Session) (lane : String) (previousId : Option String)
    (ending : Ending) : Session :=
  let session := { session with active := session.active.filter fun held => held ≠ lane }
  if isFailure ending then session.failed lane previousId
  else
    match ending with
    | .ok (_, some cached) => (session.forget lane).remember lane cached
    | _ => session.forget lane

/-- The response that a run completes. -/
def Run.completes (run : Run) (ending : Ending) : Completed where
  lane := run.request.lane
  id := run.id
  previousId := run.previousId
  chain := .of run.base run.input (match ending with
    | .ok (value, _) => (outputOf value).getD []
    | .error _ => []) run.server

namespace World

/-- The latest completed response of a lane. -/
def latest (world : World) (lane : String) : Option Completed :=
  (world.completed.filter fun response => response.lane = lane).getLast?

/-- The response a request goes on from. -/
def baseOf (world : World) (value : Value) : Option Chain :=
  match world.session.parent value with
  | .ok (some (lane, _)) => (world.latest lane).map Completed.chain
  | _ => none

/-- A message of the client arrives. -/
def receive (world : World) : Message → World
  | .text value bytes =>
    match world.session.enqueue value bytes with
    | .ok session => { world with
        session := session
        accepted := world.accepted ++ [⟨(laneOf value).toOption.getD "", value, bytes⟩] }
    | .error error => { world with
        log := world.log ++ [(none, error.event ((value.field "stream_id").asStr.getD ""))] }
  | .notJson => { world with
      log := world.log ++ [(none, (BridgeError.invalid "invalid_json"
        "WebSocket event must be valid JSON").event "")] }
  | .binary => { world with
      log := world.log ++ [(none, (BridgeError.invalid "invalid_event"
        "converted Responses events must be JSON text").event "")] }
  | .control => world

/-- The loop takes a request from the queue: its response is started, or it is rejected. -/
def start (world : World) (serde : SerdeJson) (id : String) : Option World :=
  world.session.next.map fun taken =>
    let (request, session) := taken
    match session.prepare serde request.value with
    | .ok prepared => { world with
        session := { session with active := request.lane :: session.active }
        running := Function.update world.running request.lane (some ⟨request, id,
          previousOf request.value, prepared, .begun, world.baseOf request.value,
          (inputOf request.value).toOption.getD [], none, []⟩) }
    | .error error => { world with
        session := session.failed request.lane (previousOf request.value)
        log := world.log ++ [(some request.lane, error.event request.lane)]
        served := world.served ++ [⟨request, [], error.event request.lane⟩] }

/-- The task of a lane goes on. -/
def task (world : World) (serde : SerdeJson) (lane : String) (input : Input) : Option World := do
  let run ← world.running lane
  let (phase, events) ← run.advance serde world.route input
  some { world with
    running := Function.update world.running lane (some { run with
      phase := phase
      server := phase.server run.server })
    channel := world.channel ++ events.map (.event lane) ++ phase.last lane run.previousId
    dispatched := world.dispatched ++ run.sends phase }

/-- The loop takes an output from the channel. -/
def deliver (world : World) : Option World :=
  match world.channel with
  | [] => none
  | .event lane value :: rest => (world.running lane).map fun run =>
    { world with
      channel := rest
      log := world.log ++ [(some lane, withLane value lane)]
      running := Function.update world.running lane
        (some { run with delivered := run.delivered ++ [withLane value lane] }) }
  | .finished lane previousId ending :: rest => (world.running lane).map fun run =>
    { world with
      channel := rest
      session := world.session.finish lane previousId ending
      log := world.log ++ [(some lane, terminalOf lane ending)]
      running := Function.update world.running lane none
      served := world.served ++ [⟨run.request, run.delivered, terminalOf lane ending⟩]
      completed := if isFailure ending then world.completed
        else world.completed ++ [run.completes ending] }

/-- What happens next. -/
def step (world : World) (serde : SerdeJson) : Action → Option World
  | .receive message => some (world.receive message)
  | .start id => world.start serde id
  | .task lane input => world.task serde lane input
  | .deliver => world.deliver

end World

/-- The runs of a bridged connection; it starts with nothing but its route. -/
def connection (serde : SerdeJson) : System World Action where
  init world := world = { route := world.route }
  step world action next := world.step serde action = some next

end Aipass.Bridge
