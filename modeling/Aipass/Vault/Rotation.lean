import Aipass.Vault.Objects

/-!
# Rotating the epoch

`prepare_epoch_rotation` re-encrypts every live file under the next epoch and encodes the result
as a snapshot of version 1, with an audit event among its files. Committing the rotation applies
that snapshot.
-/
namespace Aipass

/-- What `advance_epoch` draws: the name of the next epoch and the key it derives from fresh
bytes. -/
structure EpochDraw where
  keyId : Uuid
  createdAt : OffsetDateTime
  key : Key

/-- `advance_epoch`. -/
def advanceEpoch (draw : EpochDraw) (current : VaultEpochKey) : VaultEpochKey where
  epoch :=
    { epoch := current.epoch.epoch + 1
      keyId := draw.keyId
      createdAt := draw.createdAt }
  key := draw.key

/-- What `prepare_epoch_rotation` draws. -/
structure RotationDraws where
  epoch : EpochDraw
  event : AuditDraw
  files : RelPath → EnvelopeDraw
  epochNonce : Nonce
  snapshot : SnapshotDraw

variable (P : Platform)

/-- The plaintext of a file in the next epoch: that of the revoked device says so. -/
def rotatedPlaintext (next : VaultEpochKey) (now : OffsetDateTime) (revokedDevice : Option Uuid)
    (path : RelPath) (plaintext : Bytes) : Except VaultError Bytes :=
  if revokedDevice.any fun id => .sync (devicePath P id) = path then do
    let device ← okOr .json (P.deviceRecord.fromSlice plaintext)
    return P.deviceRecord.toVec { device with
      trusted := false
      revokedAt := some now
      lastEpoch := next.epoch.epoch }
  else .ok plaintext

/-- One file of `prepare_epoch_rotation`. -/
def Session.rotateFile (session : Session) (draws : RelPath → EnvelopeDraw)
    (next : VaultEpochKey) (now : OffsetDateTime) (revokedDevice : Option Uuid)
    (file : VaultExportFile) : Except VaultError VaultExportFile := do
  let bytes ← okOr .invalidExport (P.decodeB64 file.bytesB64)
  let envelope ← okOr .json (P.envelope.fromSlice bytes)
  if envelope.tombstone then
    return file
  let plaintext ← decryptEnvelopeWithEpoch P envelope session.epochKey
  let plaintext ← rotatedPlaintext P next now revokedDevice file.relativePath plaintext
  let envelope := { envelope with
    deviceId := session.deviceId
    updatedAt := now
    lamport := saturatingAdd envelope.lamport 1 }
  let envelope := encryptEnvelope P (draws file.relativePath) envelope plaintext next
  return { file with bytesB64 := P.encodeB64 (P.envelope.toVec envelope) }

/-- The audit event of a rotation, as it stands among the files. -/
def Vault.rotationEvent (vault : Vault) (draw : AuditDraw) (reason : String) : VaultExportFile :=
  let event : AuditEvent :=
    { id := draw.id
      occurredAt := draw.occurredAt
      action := reason
      recordId := none
      detail := some "epoch advanced" }
  let envelope := vault.buildEnvelope P draw.object (auditPath P event.id) event.id "audit_event" 1
    (P.auditEvent.toVec event)
  ⟨.sync (auditPath P event.id), P.encodeB64 (P.envelope.toVec envelope)⟩

/-- The header of the next epoch. -/
def Session.rotatedHeader (session : Session) (draws : RotationDraws) (header : VaultHeader) :
    VaultHeader :=
  let next := advanceEpoch draws.epoch session.epochKey
  { header with
    wrappedEpochKey := encryptBytes P draws.epochNonce session.rootKey
      (headerKeyAad P header.vaultId "epoch") next.key.bytes
    currentEpoch := next.epoch
    updatedAt := draws.event.occurredAt }

/-- `Vault::prepare_epoch_rotation`. -/
def Vault.prepareEpochRotation (vault : Vault) (draws : RotationDraws) (header : VaultHeader)
    (reason : String) (revokedDevice : Option Uuid) : Except VaultError Bytes := do
  ensureSyncReady vault
  let next := advanceEpoch draws.epoch vault.session.epochKey
  let files := (syncFiles P vault.disk.files true).files ++
    [vault.rotationEvent P draws.event reason]
  let files ← files.mapM (vault.session.rotateFile P draws.files next draws.event.occurredAt
    revokedDevice)
  return encodeSnapshotWithHeader P vault.session.rootKey draws.snapshot
    (vault.session.rotatedHeader P draws header) ⟨files⟩ [] 1

/-- `Vault::commit_epoch_rotation`. -/
def commitEpochRotation (draws : RotationDraws) (applying : ApplyDraws) (header : VaultHeader)
    (reason : String) (revokedDevice : Option Uuid) : Program Vault VaultError Unit := do
  let vault ← Program.read
  let snapshot ← Program.ofExcept
    (vault.prepareEpochRotation P draws header reason revokedDevice)
  applySyncSnapshot P applying snapshot

end Aipass
