import Aipass.Claude.Runs

/-!
# The Claude bridge at work

Requests, the lines of the processes, the calls that processes make, the timer and changes of the
configuration interleave in any way. A run is also removed when its process ends or when the client
of its reply goes away, which may be at any time.
-/
namespace Aipass.Claude

open Proxy (Instant)

variable {δ : Type} [DecidableEq δ] (serde : SerdeJson) (sha : Sha δ)

/-! ## Lines of a process -/

mutual

/-- `text_only`. -/
def textOnly : Value → Bool
  | .array values => textOnlyItems values
  | .object fields =>
    let kind := (Value.lookup "type" fields).bind Value.asStr
    kind ≠ some "image" && kind ≠ some "document" && textOnlyFields fields
  | _ => true

/-- `text_only` of the items of an array. -/
def textOnlyItems : List Value → Bool
  | [] => true
  | value :: rest => textOnly value && textOnlyItems rest

/-- `text_only` of the fields of an object. -/
def textOnlyFields : List (String × Value) → Bool
  | [] => true
  | (_, value) :: rest => textOnly value && textOnlyFields rest

end

/-- `save`, where the transcript of the process is found and complete. -/
def World.save (world : World δ) (run : Run δ) : World δ :=
  if run.terminal ∧ run.parked = false ∧ textOnlyItems run.historyMessages ∧
      (run.message.field "id").asStr.isSome then
    { world with saved := ⟨run.owner, run.context, run.history, run.seen⟩ :: world.saved }
  else world

/-- The event of a process as the client gets it: tools have the names of the caller, and calls an
identifier drawn for them. -/
def publicEvent (id : String) (event : Value) : Value :=
  let named : Value := match ((event.pointer ["content_block", "name"]).bind Value.asStr).bind fun name =>
      Text.stripPrefix "mcp__aipass__".toList name.toList with
    | some name => event.set "content_block"
      ((event.field "content_block").set "name" (String.ofList name))
    | none => event
  if named.field "type" = "content_block_start" ∧
      (named.field "content_block").field "type" = "tool_use" then
    named.set "content_block" ((named.field "content_block").set "id" id)
  else named

/-- The call that the end of a block completes. -/
def completedCall (collector : Collector) (event : Value) : Option ToolCall :=
  if event.field "type" = "content_block_stop" then
    match collector.content[(event.field "index").asU64.getD 0]? with
    | some block =>
      if block.field "type" = "tool_use" then
        some {
          id := (block.field "id").asStr.getD ""
          name := (block.field "name").asStr.getD ""
          arguments := block.field "input" }
      else none
    | none => none
  else none

/-- A run after an event was collected. -/
def Run.collect (run : Run δ) (collector : Collector) (event : Value) (now : Instant) : Run δ :=
  let made := (completedCall collector event).toList
  let run := { run with
    calls := run.calls ++ made
    recorded := run.recorded ++ made.map ToolCall.id
    collector
    message := collector.message
    content := collector.content }
  if collector.complete then
    let messages := run.historyMessages ++
      [Value.obj [("role", "assistant"), ("content", .array run.content)]]
    { run with
      terminal := true
      parked := decide (run.message.field "stop_reason" = "tool_use")
      lastUsed := now
      historyMessages := messages
      history := historyHash sha messages
      streaming := false
      -- The process ends its reply once; an event after that makes the source add the reply again.
      seen := if event.field "type" = "message_stop" then run.seen ++ [.assistant run.content]
        else run.seen }
  else run

/-- The collector that an event is given to. -/
def Run.collectorFor (run : Run δ) (event : Value) : Collector :=
  if event.field "type" = "message_start" then {} else run.collector

/-- `read_events`, at an event of the stream. There is nothing if the source panics. -/
def World.streamEvent (world : World δ) (key : String) (run : Run δ) (event : Value) (id : String)
    (now : Instant) : Option (World δ) :=
  (run.events.adapt event).bind fun adapted =>
    match adapted with
    | .error _ => some (world.remove key)
    | .ok (events, none) => some (world.change key { run with events })
    | .ok (events, some event) =>
      let event := publicEvent id event
      ((run.collectorFor event).event_ serde event).map fun collected =>
        let world := { world with drawn := id :: world.drawn }
        match collected with
        | .error _ => world.remove key
        | .ok collector => world.change key ({ run with events }.collect sha collector event now)

/-- `read_events`, at a line that is JSON. -/
def World.line (world : World δ) (key : String) (run : Run δ) (value : Value) (id : String)
    (archived : Bool) (now : Instant) : Option (World δ) :=
  let kind := value.field "type"
  if kind = "system" ∧ value.field "subtype" = "init" then some world
  else if kind = "rate_limit_event" then some world
  else if kind = "result" ∧ value.field "is_error" = .bool true then some (world.remove key)
  else if kind = "result" then some (if archived then world.save run else world)
  else if kind ≠ "stream_event" then some world
  else world.streamEvent serde sha key run (value.field "event") id now

/-! ## Calls of a process -/

/-- `ClaudeBridgeRequest`. -/
inductive McpRequest
  | listTools
  | call (name : String) (arguments : Value)
  | poll (callId : String)

/-- The first call that a process may claim. -/
def claim (name : String) (arguments : Value) : List ToolCall → List ToolCall × Option String
  | [] => ([], none)
  | call :: rest =>
    if call.claimed = false ∧ call.name = name ∧ call.arguments = arguments then
      ({ call with claimed := true } :: rest, some call.id)
    else
      let (claimed, id) := claim name arguments rest
      (call :: claimed, id)

/-- How long a run is kept that nobody uses. -/
def Run.ttl (run : Run δ) : ℕ := if run.parked then parkTtl else idleTtl

/-- `mcp`. -/
def World.mcp (world : World δ) (capability : String) (request : McpRequest) (now : Instant) :
    World δ × Except String Value :=
  match world.runs.find? fun entry => entry.1 = capability with
  | none => (world, .error "Claude bridge capability expired")
  | some (key, run) =>
    if run.ttl < now - run.lastUsed then (world, .error "Claude session expired")
    else match request with
      | .listTools => (world, .ok (.obj [("tools", .array run.tools)]))
      | .call name arguments =>
        let (calls, id) := claim name arguments run.calls
        match id with
        | none => (world, .ok (.obj [("pending", .bool true)]))
        | some id => (world.change key { run with calls }, .ok (.obj [("callId", .string id)]))
      | .poll callId =>
        match run.calls.find? fun call => call.id = callId ∧ call.claimed with
        | none => (world, .error "unknown Claude tool call")
        | some call =>
          (world, .ok (match call.result with
            | some result => .obj [("result", result)]
            | none => .obj [("pending", .bool true)]))

/-! ## Runs of the bridge -/

/-- A step of the bridge. -/
inductive Action (δ : Type)
  /-- A request. -/
  | openReport (request : Request) (surroundings : Surroundings δ)
  /-- A line of a process, with an identifier drawn for a call. -/
  | line (key : String) (value : Value) (id : String) (archived : Bool) (now : Instant)
  /-- The process of a run ends, or the client of its reply goes away. -/
  | close (key : String)
  | mcp (capability : String) (request : McpRequest) (now : Instant)
  /-- The timer removes runs that nobody has used for long. -/
  | expire (now : Instant)
  /-- `retain_targets`. -/
  | retainTargets (targets : List Target)
  /-- `revoke`. -/
  | revoke

/-- `retain_targets`: whether a run is kept. -/
def Run.retained (run : Run δ) (targets : List Target) : Bool :=
  match targets.find? fun target =>
      target.enabled ∧ target.id = run.owner ∧ target.providerEntryId = run.entryId with
  | none => false
  | some target => run.fingerprint = sha.fingerprint target.apiKey ∧ run.modelBinding = target.model

/-- A step of the bridge, if it is possible. Identifiers are drawn afresh. -/
def World.step (world : World δ) : Action δ → Option (World δ)
  | .openReport request surroundings =>
    if surroundings.key ∈ world.runs.map Prod.fst then none
    else some (world.openReport serde sha request surroundings).1
  | .line key value id archived now =>
    if id ∈ world.drawn then none
    else (world.runs.find? fun entry => entry.1 = key).bind fun entry =>
      world.line serde sha key entry.2 value id archived now
  | .close key => some (world.remove key)
  | .mcp capability request now => some (world.mcp capability request now).1
  | .expire now => some { world with
      runs := world.runs.filter fun entry =>
        entry.2.streaming || now - entry.2.lastUsed < entry.2.ttl }
  | .retainTargets targets => some { world with
      runs := world.runs.filter fun entry => entry.2.retained sha targets }
  | .revoke => some { world with runs := [] }

/-- The runs of the bridge. It starts without sessions. -/
def bridge : System (World δ) (Action δ) where
  init world := world = {}
  step world action next := world.step serde sha action = some next

end Aipass.Claude
