import Aipass.Base.Run
import Aipass.ControlPanel.Sessions
import Mathlib.Logic.Function.Basic

/-!
# Requests of the control panel

Each request runs on a thread of its own. Its steps are the critical sections of the source: the
tables of the panel have a lock each, the vault has the session mutex, and a flag or the clock is
read on its own. Steps of different requests come in any order, and between them the host rotates
the access code, revokes all sessions, locks and unlocks the vault or changes its password. A trace
keeps what happened, oldest first.
-/
namespace Aipass.ControlPanel

/-- What `issue` put down for a session. The number of its flag names the session. -/
structure Issue where
  session : ℕ
  token : String
  code : String
  binding : Binding
  time : Instant
deriving DecidableEq

/-- What happens. -/
inductive Event
  /-- `login_permit` returned a guard. -/
  | permitted (ip : IpAddr) (time : Instant)
  /-- An attempt that was permitted at a time comes to the comparison of its code. -/
  | compared (ip : IpAddr) (time : Instant) (reading : Instant)
  /-- `rotate_access_code` stored a code. -/
  | rotated (code : String)
  /-- `issue` made a session. -/
  | issued (issue : Issue)
  /-- `authorized` let a request pass that may change state. -/
  | posted (session : ℕ) (time : Instant)
  /-- `logout` ended a session. -/
  | loggedOut (session : ℕ)
  /-- `revoke_all` ended all sessions. -/
  | revokedAll
  /-- The vault was locked or unlocked, or its password changed. -/
  | vaultChanged
  /-- `check_session` found the flag of a session unset. -/
  | loaded (request session : ℕ)
  /-- A vault closure ran for a request whose check read the clock at a time. -/
  | ran (request session : ℕ) (token : String) (reading : Instant) (vault : Option Binding)
      (time : Instant)
  /-- A session made a preview. -/
  | previewed (session : ℕ) (preview : Preview)
  /-- `take_preview` returned a preview. -/
  | took (session : ℕ) (preview : Preview) (time : Instant)
  /-- A preview was applied. -/
  | applied (session : ℕ) (preview : Preview) (time : Instant)
deriving DecidableEq

/-- The requests that `serve_inner` lets through to an action. The vault accesses of the handlers
that the panel dispatches to are counted. -/
inductive Action
  | state
  | logout
  | toolPreview
  | toolApply (id : Uuid) (accesses : ℕ)
  | vaultLock
  | other (accesses : ℕ)
deriving DecidableEq

/-- Whether an action is asked for by `GET`. -/
def Action.isGet : Action → Bool
  | .state => true
  | _ => false

/-- What a handler does, step by step. -/
inductive Operation
  /-- `with_vault`. -/
  | vault
  | csrf
  | logout
  /-- A `Preview` is made of what the vault access before returned. -/
  | preview
  | savePreview
  | takePreview (id : Uuid)
  /-- The preview that was taken is compared with a fresh one and dispatched. -/
  | apply
  | revokeAll
  | lockSession
deriving DecidableEq

/-- The steps of an action. All begin with `validate`; `tool_preview` is a dispatch and a
redaction. -/
def Action.operations : Action → List Operation
  | .state => [.vault, .vault, .csrf]
  | .logout => [.vault, .logout]
  | .toolPreview => [.vault, .vault, .vault, .preview, .savePreview]
  | .toolApply id accesses =>
    [.vault, .takePreview id, .vault, .vault, .apply] ++ List.replicate accesses .vault
  | .vaultLock => [.vault, .vault, .revokeAll, .lockSession]
  | .other accesses => .vault :: List.replicate accesses .vault

/-- A request that was authorized, and the previews that its handler holds. -/
structure Task where
  token : String
  auth : Authorization
  rest : List Operation
  made : Option Preview := none
  taken : Option Preview := none
deriving DecidableEq

/-- How far `check_session` is. -/
inductive Check
  | start
  /-- The flag was unset. -/
  | unrevoked
  /-- The generation was the one of the session. -/
  | current
  /-- The clock was read and the binding matched. -/
  | passed (reading : Instant)
  /-- The closure ran. -/
  | done
deriving DecidableEq

/-- How far an attempt to sign in is. It holds the guard all along. -/
inductive Attempt
  | permitted (code : Option String)
  | stamped (code : String) (generation : UInt64)
  /-- It holds the session mutex and the panel mutex. -/
  | holding (code : String) (generation : UInt64)
  | accepted (code : String) (generation : UInt64) (binding : Binding)
  | drawn (code : String) (generation : UInt64) (binding : Binding) (token csrf : String)
      (time : Instant)
  | leaving
  /-- It holds the guard only. -/
  | answered
deriving DecidableEq

/-- Where a thread is. -/
inductive Stage
  | free
  | attempt (ip : IpAddr) (time : Instant) (attempt : Attempt)
  | task (task : Task)
  /-- In `with_vault`, with the session mutex. -/
  | inVault (task : Task) (check : Check)
  /-- In `rotate_access_code`, with the session mutex and the panel mutex. -/
  | rotating
deriving DecidableEq

/-- The agent. -/
structure World where
  clock : Instant
  session : Option SessionInfo
  /-- The thread that holds the session mutex. -/
  holder : Option ℕ
  stored : Stored
  panel : Sessions
  threads : ℕ → Stage
  /-- The tokens drawn. -/
  drawn : List String
  /-- The identifiers of previews drawn. -/
  ids : List Uuid
  trace : List Event

/-- What the environment answers: the vault found on disk, whether it is ready, what the generator
draws, and the digest of a preview. -/
structure Draw where
  opened : Option SessionInfo := none
  ready : Bool := true
  token : String := ""
  csrf : String := ""
  id : Uuid := 0
  digest : Digest := 0

/-- What may come next. -/
inductive Label
  | tick (elapsed : ℕ)
  /-- `POST /api/login` with the access code, if the body has one. -/
  | login (thread : ℕ) (ip : IpAddr) (code : Option String)
  /-- Another request to the interface, with the token of its cookie and its CSRF header. -/
  | call (thread : ℕ) (token : String) (csrf : Option String) (action : Action)
  /-- A thread goes on. -/
  | advance (thread : ℕ) (draw : Draw)
  /-- A handler fails. -/
  | fail (thread : ℕ)
  | rotate (thread : ℕ) (code : String) (allowRemoteUnlock : Bool)
  | unlock (info : SessionInfo)
  | lock
  | changePassword (revision : Digest)
  | revokeAll

namespace World

variable (sha256 : String → Digest) (world : World) (thread : ℕ)

/-- A thread is at a stage. -/
def put (stage : Stage) : World :=
  { world with threads := Function.update world.threads thread stage }

/-- Something happens. -/
def note (event : Event) : World := { world with trace := world.trace ++ [event] }

/-- A thread takes the session mutex. -/
def hold : World := { world with holder := some thread }

/-- The session mutex is given back. -/
def release : World := { world with holder := none }

/-- The vault changes. -/
def withVault (session : Option SessionInfo) : World :=
  { world with session }.note .vaultChanged

/-- The panel changes. -/
def withPanel (panel : Sessions) : World := { world with panel }

/-! ## Attempts to sign in -/

/-- The verdict of `login` before it calls `issue`. -/
def verify (ip : IpAddr) (time : Instant) (code : String) (generation : UInt64) (draw : Draw) :
    World :=
  let compared :=
    if reachesCheck world.stored world.panel code generation then
      world.note (.compared ip time world.clock)
    else world
  match login sha256 world.stored world.panel world.session code generation draw.opened
      draw.ready with
  | .error _ => compared.put thread (.attempt ip time .leaving)
  | .ok info =>
    let unlocked := if world.session.isNone then compared.withVault (some info) else compared
    unlocked.put thread (.attempt ip time (.accepted code generation (.fromSession info)))

/-- `issue`, in its critical section. -/
def issue (ip : IpAddr) (time : Instant) (code : String) (generation : UInt64) (binding : Binding)
    (token csrf : String) (now : Instant) : World :=
  match world.panel.issue sha256 binding generation token csrf now with
  | (panel, .error _) => (world.withPanel panel).put thread (.attempt ip time .leaving)
  | (panel, .ok ()) =>
    ((world.withPanel panel).note
      (.issued ⟨world.panel.flags, token, code, binding, now⟩)).put thread
        (.attempt ip time .leaving)

/-- An attempt goes on. A token is never drawn twice. -/
def advanceAttempt (ip : IpAddr) (time : Instant) (draw : Draw) : Attempt → Option World
  | .permitted none => some (world.put thread (.attempt ip time .answered))
  | .permitted (some code) =>
    some (world.put thread (.attempt ip time (.stamped code world.panel.generation)))
  | .stamped code generation =>
    if world.holder.isNone then
      some ((world.hold thread).put thread (.attempt ip time (.holding code generation)))
    else none
  | .holding code generation => some (world.verify sha256 thread ip time code generation draw)
  | .accepted code generation binding =>
    if draw.token ∈ world.drawn then none
    else some ({ world with drawn := draw.token :: world.drawn }.put thread
      (.attempt ip time (.drawn code generation binding draw.token draw.csrf world.clock)))
  | .drawn code generation binding token csrf now =>
    some (world.issue sha256 thread ip time code generation binding token csrf now)
  | .leaving => some (world.release.put thread (.attempt ip time .answered))
  | .answered => some ((world.withPanel world.panel.dropGuard).put thread .free)

/-! ## Requests with a session -/

/-- A handler goes on outside the vault. A preview never gets an identifier twice. -/
def advanceTask (draw : Draw) (task : Task) : Option World :=
  match task.rest with
  | [] => some (world.put thread .free)
  | operation :: rest =>
    let task := { task with rest }
    match operation with
    | .vault =>
      if world.holder.isSome then none
      else if world.session.isNone then some (world.put thread .free)
      else some ((world.hold thread).put thread (.inVault task .start))
    | .csrf =>
      some (match world.panel.csrf sha256 task.token with
        | .error _ => world.put thread .free
        | .ok _ => world.put thread (.task task))
    | .logout =>
      let ended := (world.withPanel (world.panel.logout sha256 task.token)).put thread (.task task)
      some (match world.panel.sessions[sha256 task.token]? with
        | none => ended
        | some session => ended.note (.loggedOut session.auth.revoked))
    | .preview =>
      if draw.id ∈ world.ids then none
      else
        let preview : Preview := ⟨draw.id, world.clock, draw.digest⟩
        some (({ world with ids := draw.id :: world.ids }.note
          (.previewed task.auth.revoked preview)).put thread
            (.task { task with made := some preview }))
    | .savePreview =>
      some (match task.made with
        | none => world.put thread .free
        | some preview =>
          match world.panel.savePreview sha256 task.token preview with
          | .error _ => world.put thread .free
          | .ok panel => (world.withPanel panel).put thread (.task { task with made := none }))
    | .takePreview id =>
      some (match world.panel.takePreview sha256 task.token id world.clock with
        | (panel, .error _) => (world.withPanel panel).put thread .free
        | (panel, .ok preview) =>
          ((world.withPanel panel).note (.took task.auth.revoked preview world.clock)).put thread
            (.task { task with taken := some preview }))
    | .apply =>
      some (match task.taken with
        | none => world.put thread .free
        | some preview =>
          if draw.digest ≠ preview.digest then world.put thread .free
          else (world.note (.applied task.auth.revoked preview world.clock)).put thread
            (.task { task with taken := none }))
    | .revokeAll =>
      some (((world.withPanel world.panel.revokeAll).note .revokedAll).put thread (.task task))
    | .lockSession =>
      if world.holder.isSome then none
      else some ((world.withVault none).put thread (.task task))

/-- `with_vault` goes on. -/
def advanceVault (draw : Draw) (task : Task) (check : Check) : World :=
  let refused := world.release.put thread .free
  match check with
  | .start =>
    if world.panel.revoked.contains task.auth.revoked then refused
    else (world.note (.loaded thread task.auth.revoked)).put thread (.inVault task .unrevoked)
  | .unrevoked =>
    if world.panel.generation ≠ task.auth.issuedGeneration then refused
    else world.put thread (.inVault task .current)
  | .current =>
    if task.auth.expires ≤ world.clock ∨
        world.session.map Binding.fromSession ≠ some task.auth.binding then refused
    else world.put thread (.inVault task (.passed world.clock))
  | .passed reading =>
    if !draw.ready then refused
    else (world.note (.ran thread task.auth.revoked task.token reading
      (world.session.map Binding.fromSession) world.clock)).put thread (.inVault task .done)
  | .done => world.release.put thread (.task task)

/-- `serve_inner`, for a request that brings a token. -/
def call (token : String) (csrf : Option String) (action : Action) : World :=
  if token.utf8ByteSize ≠ 43 ∨ (!action.isGet && csrf.isNone) then world
  else
    let csrf := if action.isGet then none else csrf
    match world.panel.authorized sha256 token csrf world.clock with
    | .error _ => world
    | .ok (panel, auth) =>
      let passed := (world.withPanel panel).put thread (.task ⟨token, auth, action.operations, none,
        none⟩)
      if csrf.isSome then passed.note (.posted auth.revoked world.clock) else passed

/-- `serve_inner`, for `POST /api/login`. -/
def login (ip : IpAddr) (code : Option String) : World :=
  match world.panel.loginPermit ip world.clock with
  | (panel, false) => world.withPanel panel
  | (panel, true) =>
    ((world.withPanel panel).note (.permitted ip world.clock)).put thread
      (.attempt ip world.clock (.permitted code))

/-- A thread goes on. -/
def advance (draw : Draw) : Option World :=
  match world.threads thread with
  | .free => none
  | .attempt ip time attempt => world.advanceAttempt sha256 thread ip time draw attempt
  | .task task => world.advanceTask sha256 thread draw task
  | .inVault task check => some (world.advanceVault thread draw task check)
  | .rotating =>
    some (((world.withPanel world.panel.revokeAll).note .revokedAll).release.put thread .free)

/-- A step of the agent. -/
def step : Label → Option World
  | .tick elapsed => some { world with clock := world.clock + elapsed }
  | .login thread ip code =>
    if world.threads thread = .free then some (world.login thread ip code) else none
  | .call thread token csrf action =>
    if world.threads thread = .free then some (world.call sha256 thread token csrf action)
    else none
  | .advance thread draw => world.advance sha256 thread draw
  | .fail thread =>
    match world.threads thread with
    | .task _ => some (world.put thread .free)
    | _ => none
  | .rotate thread code allowRemoteUnlock =>
    match world.session with
    | none => none
    | some info =>
      if world.holder.isNone ∧ world.threads thread = .free then
        some (({ world with stored := .rotate sha256 code info allowRemoteUnlock }.hold thread).note
          (.rotated code) |>.put thread .rotating)
      else none
  | .unlock info => if world.holder.isNone then some (world.withVault (some info)) else none
  | .lock => if world.holder.isNone then some (world.withVault none) else none
  | .changePassword revision =>
    if world.holder.isNone then
      some (world.withVault (world.session.map fun info =>
        { info with passwordRevision := revision }))
    else none
  | .revokeAll => some ((world.withPanel world.panel.revokeAll).note .revokedAll)

/-- The agent as its listener starts, with a code that was generated before. -/
def start (code : String) (stored : Stored) (session : Option SessionInfo) (clock : Instant) :
    World where
  clock := clock
  session := session
  holder := none
  stored := { stored with accessCodeHash := some (sha256 code) }
  panel := {}
  threads := fun _ => .free
  drawn := []
  ids := []
  trace := [.rotated code]

/-- The runs of the agent from the start of a listener. -/
def system : System World Label where
  init world := ∃ code stored session clock, world = start sha256 code stored session clock
  step world label next := world.step sha256 label = some next

end World
end Aipass.ControlPanel
