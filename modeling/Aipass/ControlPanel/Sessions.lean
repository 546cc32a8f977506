import Aipass.Base.Result
import Aipass.Base.Table
import Aipass.Base.Window
import Aipass.Values

/-!
# Sessions of the control panel

A browser that presents the access code is given a session. A session ends after eight hours, or
when fifteen minutes pass without a request that changes state, or when it is revoked. Attempts to
sign in are limited, and a session holds at most one preview of a change.
-/
namespace Aipass.ControlPanel

/-- `Instant`, in nanoseconds. -/
abbrev Instant := ℕ

/-- `Duration::from_secs`. -/
def fromSecs (seconds : ℕ) : ℕ := seconds * 1000000000

/-- `IDLE`. -/
def idle : ℕ := fromSecs (15 * 60)

/-- `LIFETIME`. -/
def lifetime : ℕ := fromSecs (8 * 60 * 60)

/-- `IpAddr`. -/
inductive IpAddr
  | v4 (bits : BitVec 32)
  | v6 (bits : BitVec 128)
deriving DecidableEq

/-- The codes of `AgentErrorCode` that the panel returns. -/
inductive AgentErrorCode
  | permissionDenied
  | serviceUnavailable
  | validationFailed
  | internal
  | locked
deriving DecidableEq

/-- `ServiceError`. -/
structure ServiceError where
  code : AgentErrorCode
  message : String
deriving DecidableEq

/-- `denied`. -/
def denied : ServiceError := ⟨.permissionDenied, "Sign in again."⟩

/-- `unavailable`. -/
def unavailable : ServiceError := ⟨.internal, "control panel unavailable"⟩

/-- `invalid`. -/
def invalid (message : String) : ServiceError := ⟨.validationFailed, message⟩

/-- `SessionInfo`: the unlocked vault. -/
structure SessionInfo where
  id : Uuid
  vaultId : Uuid
  passwordRevision : Digest
deriving DecidableEq

/-- `Binding`. -/
structure Binding where
  sessionId : Uuid
  passwordRevision : Digest
deriving DecidableEq

/-- `Binding::from_session`. -/
def Binding.fromSession (info : SessionInfo) : Binding := ⟨info.id, info.passwordRevision⟩

/-- `Authorization`. The flag that it shares with its clones goes by a number. -/
structure Authorization where
  binding : Binding
  expires : Instant
  revoked : ℕ
  issuedGeneration : UInt64
deriving DecidableEq

/-- `Preview`, without what it selects. -/
structure Preview where
  id : Uuid
  created : Instant
  digest : Digest
deriving DecidableEq

/-- `Session`. -/
structure Session where
  auth : Authorization
  csrf : String
  lastActivity : Instant
  preview : Option Preview
deriving DecidableEq

/-- `Sessions`. The flags made so far are counted, and those stored true are listed. -/
structure Sessions where
  sessions : Table Digest Session := ∅
  attempts : List (IpAddr × Instant) := []
  loginBusy : Bool := false
  generation : UInt64 := 0
  flags : ℕ := 0
  revoked : List ℕ := []

namespace Sessions

variable (sha256 : String → Digest) (panel : Sessions)

/-- The entries that `login_permit` retains. -/
def recentAttempts (now : Instant) : List (IpAddr × Instant) :=
  panel.attempts.filter (Window.recent (fromSecs 60) now)

/-- `login_permit`, with whether a guard is returned. -/
def loginPermit (ip : IpAddr) (now : Instant) : Sessions × Bool :=
  let attempts := panel.recentAttempts now
  let retained := { panel with attempts }
  if 20 ≤ attempts.length ∨ 5 ≤ attempts.countP (fun attempt => attempt.1 = ip) then
    (retained, false)
  else if panel.loginBusy then (retained, false)
  else ({ retained with loginBusy := true, attempts := attempts ++ [(ip, now)] }, true)

/-- The guard of an attempt is dropped. -/
def dropGuard : Sessions := { panel with loginBusy := false }

/-- Whether `issue` retains a session. -/
def lasts (now : Instant) (session : Session) : Bool :=
  decide (now < session.auth.expires) && decide (now - session.lastActivity < idle)

/-- The session that `issue` makes. -/
def freshSession (binding : Binding) (generation : UInt64) (csrf : String) (now : Instant) :
    Session where
  auth := ⟨binding, now + lifetime, panel.flags, generation⟩
  csrf := csrf
  lastActivity := now
  preview := none

/-- `issue`, once it has drawn its tokens and read the clock. -/
def issue (binding : Binding) (generation : UInt64) (token csrf : String) (now : Instant) :
    Sessions × Except ServiceError Unit :=
  if generation ≠ panel.generation then (panel, .error denied)
  else
    let retained := panel.sessions.filter fun _ session => lasts now session
    if 32 ≤ retained.size then
      ({ panel with sessions := retained },
        .error ⟨.serviceUnavailable, "Too many active panel sessions."⟩)
    else
      ({ panel with
          sessions := retained.insert (sha256 token)
            (panel.freshSession binding generation csrf now)
          flags := panel.flags + 1 }, .ok ())

/-- A session as `authorized` leaves it. -/
def authorizedSession (session : Session) (csrf : Option String) (now : Instant) : Session :=
  if csrf.isSome then { session with lastActivity := now } else session

/-- `authorized`, before the action it guards. -/
def authorized (token : String) (csrf : Option String) (now : Instant) :
    Except ServiceError (Sessions × Authorization) := do
  let session ← okOr denied panel.sessions[sha256 token]?
  refuseIf (decide (session.auth.expires ≤ now) || decide (idle ≤ now - session.lastActivity) ||
    panel.revoked.contains session.auth.revoked) denied
  refuseIf (csrf.any fun csrf => decide (sha256 csrf ≠ sha256 session.csrf)) denied
  let session := authorizedSession session csrf now
  return ({ panel with sessions := panel.sessions.insert (sha256 token) session },
    { session.auth with expires := min session.auth.expires (session.lastActivity + idle) })

/-- `csrf`. -/
def csrf (token : String) : Except ServiceError String :=
  okOr denied (panel.sessions[sha256 token]?.map Session.csrf)

/-- `logout`. -/
def logout (token : String) : Sessions :=
  match panel.sessions[sha256 token]? with
  | none => panel
  | some session =>
    { panel with
      sessions := panel.sessions.erase (sha256 token)
      revoked := session.auth.revoked :: panel.revoked }

/-- `revoke_all`. -/
def revokeAll : Sessions :=
  { panel with
    generation := panel.generation + 1
    revoked := panel.sessions.valueList.map (fun session => session.auth.revoked) ++ panel.revoked
    sessions := ∅ }

/-- A session takes another preview. -/
def withPreview (token : String) (session : Session) (preview : Option Preview) : Sessions :=
  { panel with sessions := panel.sessions.insert (sha256 token) { session with preview } }

/-- `save_preview`. -/
def savePreview (token : String) (preview : Preview) : Except ServiceError Sessions := do
  let session ← okOr denied panel.sessions[sha256 token]?
  return panel.withPreview sha256 token session (some preview)

/-- `take_preview`. The preview is taken before it is compared. -/
def takePreview (token : String) (id : Uuid) (now : Instant) :
    Sessions × Except ServiceError Preview :=
  match panel.sessions[sha256 token]? with
  | none => (panel, .error denied)
  | some session =>
    (panel.withPreview sha256 token session none,
      okOr (invalid "Preview expired. Preview the change again.")
        (session.preview.filter fun preview =>
          preview.id = id ∧ now - preview.created < fromSecs 300))

end Sessions

/-! ## The access code -/

/-- `RemoteUnlockEnvelope`, without the wrapped key. -/
structure RemoteUnlockEnvelope where
  vaultId : Uuid
  passwordRevision : Digest
deriving DecidableEq

/-- `matches_vault`. -/
def RemoteUnlockEnvelope.matchesVault (envelope : RemoteUnlockEnvelope) (info : SessionInfo) :
    Bool :=
  decide (envelope.vaultId = info.vaultId ∧ envelope.passwordRevision = info.passwordRevision)

/-- `Stored`, without the settings of the listener. -/
structure Stored where
  accessCodeHash : Option Digest := none
  accessCodeVault : Option Uuid := none
  remoteUnlock : Option RemoteUnlockEnvelope := none
deriving DecidableEq

/-- What `rotate_access_code` stores. -/
def Stored.rotate (sha256 : String → Digest) (code : String) (info : SessionInfo)
    (allowRemoteUnlock : Bool) : Stored where
  accessCodeHash := some (sha256 code)
  accessCodeVault := some info.vaultId
  remoteUnlock := if allowRemoteUnlock then some ⟨info.vaultId, info.passwordRevision⟩ else none

/-- Whether `login` comes as far as the comparison of the code. -/
def reachesCheck (stored : Stored) (panel : Sessions) (code : String) (generation : UInt64) :
    Bool :=
  decide (code.utf8ByteSize = 43) && decide (generation = panel.generation) &&
    stored.accessCodeHash.isSome

/-- `login`: the vault that is unlocked, or that the code unlocks. What opening the vault with the
code would find, and whether it is ready, are arguments. -/
def loginVault (stored : Stored) (vaultId : Uuid) (opened : Option SessionInfo) (ready : Bool) :
    Option SessionInfo → Except ServiceError SessionInfo
  | some info => .ok info
  | none => do
    let envelope ← okOr ⟨.locked, "This code cannot unlock the vault."⟩ stored.remoteUnlock
    let info ← okOr denied (opened.filter envelope.matchesVault)
    refuseIf (decide (info.vaultId ≠ vaultId)) denied
    refuseIf (!ready) unavailable
    return info

/-- `login`, up to the call of `issue`: the vault as it is then. -/
def login (sha256 : String → Digest) (stored : Stored) (panel : Sessions)
    (session : Option SessionInfo) (code : String) (generation : UInt64)
    (opened : Option SessionInfo) (ready : Bool) : Except ServiceError SessionInfo := do
  refuseIf (decide (code.utf8ByteSize ≠ 43) || decide (generation ≠ panel.generation)) denied
  let expected ← okOr denied stored.accessCodeHash
  refuseIf (decide (sha256 code ≠ expected)) denied
  let vaultId ← okOr denied stored.accessCodeVault
  let info ← loginVault stored vaultId opened ready session
  refuseIf (decide (info.vaultId ≠ vaultId) ||
    stored.remoteUnlock.any fun grant => !grant.matchesVault info) denied
  refuseIf (!ready) unavailable
  return info

end Aipass.ControlPanel
