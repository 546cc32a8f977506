import Aipass.Replay.Prepare

/-!
# The readers of one request body

A request inspects its body first, then tries one target after another. An inspection is awaited; an
upload may be given up, and then what it still does with its handle meets the pass of the next
reader, for the two share the cursor of the file. A body held in memory has no such readers.
-/
namespace Aipass.Replay

open SharedFile Conversion

/-- What a body is read for. -/
inductive Purpose
  /-- `body.json()` of the search gateway. -/
  | gateway
  /-- `body.json()` of the request. -/
  | requestJson
  /-- `body.metadata()`. -/
  | metadata
  /-- `body.parse_metadata()` of the tool summary. -/
  | summary
  /-- `body.parse_metadata()` of an image request. -/
  | imageMetadata
  /-- The fields of an image request in parts. -/
  | multipart
  /-- `body.json()` of an attempt over a WebSocket. -/
  | websocket
  /-- `body.request_body()` of an attempt over HTTP. -/
  | upload
deriving DecidableEq, Repr

/-- Whether the request goes on before the reader has nothing left to do. -/
def Purpose.leaves : Purpose → Bool
  | multipart | upload => true
  | _ => false

/-- What a request is for. -/
inductive Operation
  | conversation
  | images (multipart : Bool)
deriving DecidableEq, Repr

/-- The inspections of a request before its first attempt. -/
def inspections (route : UploadRoute) : Operation → List Purpose
  | .conversation =>
    .gateway :: (if route.readsJson then [.requestJson] else []) ++ [.metadata, .summary]
  | .images false => [.gateway, .imageMetadata]
  | .images true => [.gateway, .multipart]

/-- Where the bytes of a task come from. -/
inductive Source
  | bytes (bytes : Bytes)
  | reader (index : ℕ)

/-- An attempt over HTTP, with what it meets and what it sends. -/
structure Attempt where
  target : UploadTarget
  around : Surroundings
  upload : Upload

/-- A pass over the body or over what it was rewritten to. -/
structure Task where
  purpose : Purpose
  source : Source
  /-- The attempt an upload is for. -/
  attempt : Option Attempt

/-- A request with its body and the passes over it. -/
structure World where
  route : UploadRoute
  operation : Operation
  body : ReplayableRequestBody
  /-- The inspections that are left. -/
  agenda : List Purpose
  tasks : List Task
  /-- The request was answered before anything was sent for the attempt. -/
  answered : Bool

/-- A request whose body was just read. -/
def World.start (route : UploadRoute) (operation : Operation) (body : ReplayableRequestBody) :
    World :=
  ⟨route, operation, body, inspections route operation, [], false⟩

namespace World

/-- The readers of the file of a body. -/
def readers (world : World) : List (Reader UInt8) :=
  match world.body with
  | .memory _ => []
  | .file handle _ => handle.readers

/-- The reader of a task that reads a file. -/
def reader (world : World) (task : Task) : Option (Reader UInt8) :=
  match task.source with
  | .bytes _ => none
  | .reader index => world.readers[index]?

/-- The bytes a task got so far. -/
def got (world : World) (task : Task) : Bytes :=
  match task.source with
  | .bytes bytes => bytes
  | .reader _ => (world.reader task).elim [] Reader.got

/-- Whether a task came to the end of its bytes. -/
def complete (world : World) (task : Task) : Bool :=
  match task.source with
  | .bytes _ => true
  | .reader _ => (world.reader task).any fun reader => reader.phase = .ended

/-- Whether a task has nothing left to do. -/
def settled (world : World) (task : Task) : Bool :=
  match task.source with
  | .bytes _ => true
  | .reader _ => (world.reader task).any Reader.finished

/-- Whether the next task started before this one had ended. -/
def abandoned (world : World) (task : Task) : Bool :=
  (world.reader task).any Reader.abandoned

/-- What a task read, if it came to the end. -/
def value {α : Type} (world : World) (parse : Bytes → Option α) (task : Task) : Option α :=
  if world.complete task then parse (world.got task) else none

/-- `request_json`. -/
def requestJson (world : World) (adapters : Adapters) : Option Value :=
  (world.tasks.find? fun task => task.purpose = .requestJson).bind (world.value adapters.parse)

/-- `streaming_request`. -/
def streamingRequest (world : World) (adapters : Adapters) : Bool :=
  ((world.tasks.find? fun task => task.purpose = .metadata).bind
    (world.value adapters.stream)).getD false

/-- Whether the request goes on: its last task has nothing left to do or may be given up. -/
def idle (world : World) : Bool :=
  !world.answered && world.tasks.getLast?.all fun task => task.purpose.leaves || world.settled task

/-- Start a task that reads the body. -/
def read (world : World) (purpose : Purpose) (attempt : Option Attempt) : World :=
  match world.body with
  | .memory bytes =>
    { world with tasks := world.tasks ++ [⟨purpose, .bytes bytes, attempt⟩] }
  | .file handle len =>
    { world with
      body := .file handle.clone len
      tasks := world.tasks ++ [⟨purpose, .reader handle.readers.length, attempt⟩] }

/-- Start the upload of an attempt. -/
def send (world : World) (attempt : Attempt) : World :=
  match attempt.upload.rewritten with
  | some payload =>
    { world with tasks := world.tasks ++ [⟨.upload, .bytes payload, some attempt⟩] }
  | none => world.read .upload (some attempt)

/-- What the context of an attempt is. -/
def context (world : World) (adapters : Adapters) (target : UploadTarget) : AttemptContext :=
  ⟨world.route, target, world.body.bytes, world.body.len, world.requestJson adapters,
    world.streamingRequest adapters⟩

/-- Prepare what an attempt sends. -/
def prepare (world : World) (adapters : Adapters) (target : UploadTarget)
    (around : Surroundings) : Except Stop Upload :=
  match world.operation with
  | .conversation => prepareUpstreamRequest adapters around (world.context adapters target)
  | .images _ => prepareImageRequest around world.body.len

end World

/-- A step of a request or of a reader of its body. -/
inductive Label
  /-- The next inspection starts. -/
  | inspect
  /-- An attempt over a WebSocket reads the request. -/
  | websocket
  /-- An attempt over HTTP starts. -/
  | attempt (target : UploadTarget) (around : Surroundings)
  /-- A reader uses its handle. -/
  | access (index : ℕ) (access : Access)

namespace World

variable (adapters : Adapters)

/-- The state after a step, if the step is possible. -/
def step (world : World) : Label → Option World
  | .inspect =>
    match world.agenda with
    | [] => none
    | purpose :: rest =>
      if world.idle then some { world.read purpose none with agenda := rest } else none
  | .websocket =>
    if world.idle ∧ world.agenda = [] ∧ world.operation = .conversation then
      some (world.read .websocket none)
    else none
  | .attempt target around =>
    if world.idle ∧ world.agenda = [] then
      match world.prepare adapters target around with
      | .ok upload => some (world.send ⟨target, around, upload⟩)
      | .error (.retry _) => some world
      | .error (.abort _) | .error .panic => some { world with answered := true }
    else none
  | .access index access =>
    match world.body with
    | .memory _ => none
    | .file handle len =>
      (handle.access index access).map fun next => { world with body := .file next len }

/-- The runs of requests with this body. -/
def system (original : Bytes) : System World Label where
  init world := ∃ route operation body, body.Fresh original ∧ world = start route operation body
  step world label next := world.step adapters label = some next

/-- A reader that was given up does not move the shared cursor under the pass of a later one. -/
def Clear (world : World) : Label → Prop
  | .access index access =>
    match world.body with
    | .memory _ => True
    | .file handle _ => handle.Undisturbed index access
  | _ => True

/-- An attempt sends the original or its rewriting: what preparing it from the original gives. -/
def Prepared (original : Bytes) (world : World) (attempt : Attempt) : Prop :=
  match world.operation with
  | .conversation => ∃ streaming,
      (streaming = false ∨ streaming = (adapters.stream original).getD false) ∧
      prepareUpstreamRequest adapters attempt.around ⟨world.route, attempt.target,
        world.body.bytes, original.length, adapters.parse original, streaming⟩ = .ok attempt.upload
  | .images _ => attempt.upload = ⟨none, original.length⟩

/-- A task gets the original in order, or for an attempt its rewriting, and all of it when it comes
to the end; as many bytes are announced. -/
def Whole (original : Bytes) (world : World) (task : Task) : Prop :=
  match task.attempt with
  | none =>
    world.got task <+: original ∧ (world.complete task = true → world.got task = original)
  | some attempt =>
    world.Prepared adapters original attempt ∧
      world.got task <+: attempt.upload.payload original ∧
      (world.complete task = true → world.got task = attempt.upload.payload original) ∧
      attempt.upload.contentLength = (attempt.upload.payload original).length

end World
end Aipass.Replay
