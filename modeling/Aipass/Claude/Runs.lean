import Mathlib.Data.List.MinMax
import Aipass.Base.Run
import Aipass.Claude.Payload
import Aipass.Proxy.Health

/-!
# Runs of the Claude process

The bridge keeps one run for each process. A request goes on with a run that waits for the results of
its tool calls, or with one whose conversation it extends; otherwise it starts a process and hands
it the whole conversation, or restores a session that was saved. The lines of a process are read on
a thread of its own, and everything that touches the runs does so under one lock. How a process is
configured and where it keeps its files is left out.
-/
namespace Aipass.Claude

open Proxy (Instant seconds)

/-- `MAX_LINE`. -/
def maxLine : ℕ := 4 * 1024 * 1024

/-- `MAX_RUNS`. -/
def maxRuns : ℕ := 16

/-- `PARK_TTL`. -/
def parkTtl : ℕ := seconds 300

/-- `IDLE_TTL`. -/
def idleTtl : ℕ := seconds 3600

/-- What a process has been handed, and what it has answered. -/
inductive Exchange
  /-- `write_user`: contents of a user. -/
  | user (content : Value)
  /-- The results of calls, for the process to poll. -/
  | results (results : List (String × Value))
  /-- The contents of a reply. -/
  | assistant (content : List Value)
deriving DecidableEq

/-- The calls whose results a process has been handed. -/
def Exchange.resultIds : Exchange → List String
  | .results handed => handed.map Prod.fst
  | _ => []

/-- The calls whose results a process has been handed, in order. -/
def resultIds (seen : List Exchange) : List String := seen.flatMap Exchange.resultIds

/-- `Run`, with what its reader thread has collected, what the process has seen, and the identifiers
of the calls made so far in its session. -/
structure Run (δ : Type) where
  entryId : Uuid
  owner : Uuid
  fingerprint : δ
  context : δ
  modelBinding : Option String
  session : Option String
  history : δ
  historyMessages : List Value
  tools : List Value
  /-- Whether there is a sender. -/
  streaming : Bool
  calls : List ToolCall := []
  content : List Value := []
  message : Value := .null
  lastUsed : Instant
  parked : Bool := false
  terminal : Bool := false
  collector : Collector := {}
  events : Events := {}
  seen : List Exchange
  recorded : List String := []
deriving DecidableEq

/-- `ClaudeSessionCheckpoint`: the session of a run, and what its process had seen. -/
structure Saved (δ : Type) where
  owner : Uuid
  context : δ
  history : δ
  seen : List Exchange
deriving DecidableEq

/-- The bridge. The runs are listed in some order, as a map lists them. -/
structure World (δ : Type) where
  runs : List (String × Run δ) := []
  saved : List (Saved δ) := []
  /-- The identifiers of calls drawn so far. -/
  drawn : List String := []

/-- The part of `ResolvedTarget` that the bridge reads. -/
structure Target where
  id : Uuid
  providerEntryId : Uuid
  apiKey : String
  model : Option String
  enabled : Bool

/-- A request. -/
structure Request where
  target : Target
  payload : Value
  session : Option String

/-- What the surroundings decide about a request. -/
structure Surroundings (δ : Type) where
  now : Instant
  /-- The identifier drawn for a new run. -/
  key : String
  /-- The run that the map lists first. -/
  first : String
  /-- Whether the account has a home of the CLI, or why it cannot be used. -/
  account : Except String Bool
  /-- The session that the agent has saved, if it can be restored. -/
  restored : Option (Saved δ)
  /-- Whether the process takes its input. -/
  written : Bool
  /-- Whether a process can be started. -/
  spawned : Except String Unit

/-- What comes of a request. -/
inductive Outcome
  | refused (error : String)
  | continued (key : String)
  | started (key : String)
deriving DecidableEq

/-- A request that has passed the checks of its payload. -/
structure Prepared (δ : Type) where
  payload : Value
  messages : List Value
  fingerprint : δ
  context : δ

variable {δ : Type} [DecidableEq δ] (serde : SerdeJson) (sha : Sha δ)

/-- `open_report`, until the account is read. -/
def prepare (target : Target) (payload : Value) : Except String (Prepared δ) := do
  refuseIf (maxLine < (serde.print payload).utf8ByteSize) "Claude input exceeds bridge limit"
  refuseIf ((payload.get "temperature").isSome ∨ (payload.get "top_p").isSome ∨
      (payload.get "stop_sequences").any fun value => value.asArray.all fun items => items ≠ [])
    "Claude Code subscription does not expose sampling or stop-sequence controls"
  refuseIf ((payload.get "tool_choice").any fun value : Value => value.field "type" ≠ Value.string "auto")
    "Claude Code subscription requires automatic tool choice"
  let _ ← searchRequested payload
  let plan ← Plan.read payload
  let payload ← if plan.client then .ok payload
    else okOr "Claude process task failed" (stripMarks payload)
  let messages ← okOr "Claude messages are required" (payload.field "messages").asArray
  refuseIf messages.isEmpty "Claude messages are empty"
  .ok {
    payload, messages
    fingerprint := sha.fingerprint target.apiKey
    context := sha.hash (contextOf plan payload) }

/-- Whether a block is a tool result. -/
def isResult (block : Value) : Bool := block.field "type" = "tool_result"

/-- The last message of a request. -/
def lastMessage (messages : List Value) : Value := messages.getLast?.getD .null

/-- The tool results of a request, which its last message has. -/
def resultsOf (messages : List Value) : List Value :=
  (Plan.items ((lastMessage messages).field "content")).filter isResult

/-- Whether a run can go on with a request. -/
def Run.fits (run : Run δ) (target : Target) (prepared : Prepared δ) : Bool :=
  let results := resultsOf prepared.messages
  run.owner = target.id ∧ run.fingerprint = prepared.fingerprint ∧
    run.context = prepared.context ∧ run.streaming = false ∧
    if results ≠ [] then
      run.parked ∧ results.all fun block => run.calls.any fun call =>
        call.result.isNone ∧ some call.id = callOf block
    else run.parked = false ∧ run.history = historyHash sha prepared.messages.dropLast

/-- The run that a request goes on with: any that fits. -/
def World.selected (world : World δ) (target : Target) (prepared : Prepared δ) (first : String) :
    Option (String × Run δ) :=
  let fits (entry : String × Run δ) := entry.2.fits sha target prepared
  (world.runs.find? fun entry => entry.1 = first ∧ fits entry).or (world.runs.find? fits)

/-- The run under a key changes. -/
def World.change (world : World δ) (key : String) (run : Run δ) : World δ :=
  { world with runs := world.runs.map fun entry => if entry.1 = key then (key, run) else entry }

/-- The run under a key is removed. -/
def World.remove (world : World δ) (key : String) : World δ :=
  { world with runs := world.runs.filter fun entry => entry.1 ≠ key }

/-- The first call with an identifier gets its result. -/
def setResult (calls : List ToolCall) (result : String × Value) : List ToolCall :=
  match calls with
  | [] => []
  | call :: rest =>
    if call.id = result.1 then { call with result := some result.2 } :: rest
    else call :: setResult rest result

/-- A run goes on with the last message of a request: its results, or its contents. -/
def Run.goOn (run : Run δ) (prepared : Prepared δ) (now : Instant) (calls : List ToolCall)
    (exchange : Exchange) : Run δ :=
  { run with
    calls := calls
    streaming := true
    lastUsed := now
    terminal := false
    parked := false
    history := historyHash sha prepared.messages
    historyMessages := prepared.messages
    seen := run.seen ++ [exchange] }

/-- `open_report`, with a run that fits. -/
def World.continued (world : World δ) (prepared : Prepared δ) (surroundings : Surroundings δ)
    (key : String) (run : Run δ) : World δ × Outcome :=
  let results := resultsOf prepared.messages
  match validateResults run.calls results with
  | .error error => (world, .refused error)
  | .ok validated =>
    let content := (lastMessage prepared.messages).field "content"
    if results ≠ [] then
      (world.change key (run.goOn sha prepared surroundings.now (validated.foldl setResult run.calls)
        (.results validated)), .continued key)
    else if surroundings.written then
      (world.change key (run.goOn sha prepared surroundings.now [] (.user content)), .continued key)
    else (world, .refused "Claude process input closed")

/-- The loop that removes the runs used longest ago while there are too many, and whether there is
room then. -/
def evict : ℕ → List (String × Run δ) → List (String × Run δ) × Bool
  | 0, runs => (runs, runs.length < maxRuns)
  | rounds + 1, runs =>
    if runs.length < maxRuns then (runs, true)
    else match (runs.filter fun entry => !entry.2.streaming).argmin fun entry => entry.2.lastUsed with
      | none => (runs, false)
      | some oldest => evict rounds (runs.filter fun entry => entry.1 ≠ oldest.1)

/-- The tools that the process is told of. -/
def toolsOf (payload : Value) : List Value :=
  ((Plan.items (payload.field "tools")).filter fun tool =>
      !(tool.field "type").asStr.any fun kind =>
        (Text.stripPrefix "web_search_".toList kind.toList).isSome).map fun tool =>
    .obj [("name", tool.field "name"), ("description", tool.field "description"),
      ("inputSchema", tool.field "input_schema")]

/-- Whether a tool has a name that the process takes. -/
def namedWell (tool : Value) : Bool :=
  (tool.field "name").asStr.any fun name =>
    name ≠ "" ∧ name.toList.all fun letter =>
      letter.isAlphanum || letter = '_' || letter = '-'

/-- What a process is handed first: the contents of the last message, if it knows or there is nothing
before it, or else the whole conversation. -/
def promptOf (restored : Bool) (messages : List Value) : Value :=
  if restored ∨ (messages.length = 1 ∧ (lastMessage messages).field "role" = "user") then
    (lastMessage messages).field "content"
  else .array [.obj [("type", "text"), ("text",
    "Continue this conversation, preserving its tool results and user instructions:\n" ++
      serde.print (.array messages))]]

/-- The session that a request restores. -/
def World.restores (world : World δ) (target : Target) (prepared : Prepared δ)
    (surroundings : Surroundings δ) : Option (Saved δ) :=
  surroundings.restored.filter fun saved =>
    surroundings.account = .ok true ∧ saved ∈ world.saved ∧ saved.owner = target.id ∧
      saved.context = prepared.context ∧
      saved.history = historyHash sha prepared.messages.dropLast

/-- What keeps a process from being started. -/
def startable (prepared : Prepared δ) (surroundings : Surroundings δ) : Except String Unit := do
  refuseIf ((toolsOf prepared.payload).any fun tool => !namedWell tool)
    "Claude bridge tool names must contain only letters, numbers, underscores or hyphens"
  let _ ← okOr "Claude model is required" (prepared.payload.field "model").asStr
  let system := prepared.payload.field "system"
  refuseIf (64 * 1024 < (system.asStr.getD (serde.print system)).utf8ByteSize)
    "Claude system prompt exceeds process argument limit"
  refuseIf (surroundings.account ≠ .ok true) "Reconnect Claude through its official CLI"
  surroundings.spawned
  refuseIf (!surroundings.written) "Claude process input closed"

/-- `open_report`, without a run that fits. -/
def World.started (world : World δ) (request : Request) (prepared : Prepared δ)
    (surroundings : Surroundings δ) : World δ × Outcome :=
  if resultsOf prepared.messages ≠ [] then
    (world, .refused "Claude tool session expired or account changed; restart the conversation")
  else if world.runs.any fun entry => entry.2.owner = request.target.id ∧ request.session.isSome ∧
      entry.2.session = request.session ∧ entry.2.streaming then
    (world, .refused "Claude conversation already has an active turn")
  else
    let restored := world.restores sha request.target prepared surroundings
    let (runs, room) := evict world.runs.length world.runs
    let world := { world with runs }
    if !room then (world, .refused "Claude process limit reached")
    else match startable serde prepared surroundings with
      | .error error => (world, .refused error)
      | .ok () =>
        let prompt := promptOf serde restored.isSome prepared.messages
        ({ world with runs := world.runs ++ [(surroundings.key, {
            entryId := request.target.providerEntryId
            owner := request.target.id
            fingerprint := prepared.fingerprint
            context := prepared.context
            modelBinding := request.target.model
            session := request.session
            history := historyHash sha prepared.messages
            historyMessages := prepared.messages
            tools := toolsOf prepared.payload
            streaming := true
            lastUsed := surroundings.now
            seen := ((restored.map Saved.seen).getD []) ++ [.user prompt]
            recorded := resultIds ((restored.map Saved.seen).getD []) })] },
          .started surroundings.key)

/-- `open_report`. -/
def World.openReport (world : World δ) (request : Request) (surroundings : Surroundings δ) :
    World δ × Outcome :=
  match prepare serde sha request.target request.payload with
  | .error error => (world, .refused error)
  | .ok prepared =>
    match surroundings.account with
    | .error error => (world, .refused error)
    | .ok _ =>
      match world.selected sha request.target prepared surroundings.first with
      | some (key, run) => world.continued sha prepared surroundings key run
      | none => world.started serde sha request prepared surroundings

end Aipass.Claude
