import Aipass.Base.Program
import Aipass.Vault.Snapshot

/-!
# Applying a snapshot

`apply_sync_snapshot` writes the snapshot to a journal and then replays the journal:
`finish_pending_sync` installs the listed files, removes the others, re-encrypts the local
audit files when the epoch changes, writes the manifest and removes the journal. Every write
and removal is atomic, and no file operation fails.
-/
namespace Aipass

/-- The same vault with other files. -/
def Vault.withFiles (vault : Vault) (files : Table SyncPath Bytes) : Vault :=
  { vault with disk := { vault.disk with files } }

/-- The same vault with another journal. -/
def Vault.withPending (vault : Vault) (pending : Option Bytes) : Vault :=
  { vault with disk := { vault.disk with pending } }

/-- The same vault with another manifest. -/
def Vault.withManifest (vault : Vault) (manifest : Bytes) : Vault :=
  { vault with disk := { vault.disk with manifest := some manifest } }

section Fields

variable (vault : Vault) (files files' : Table SyncPath Bytes) (pending : Option Bytes)
  (manifest : Bytes)

@[simp] theorem Vault.withFiles_files : (vault.withFiles files).disk.files = files := rfl
@[simp] theorem Vault.withFiles_pending :
    (vault.withFiles files).disk.pending = vault.disk.pending := rfl
@[simp] theorem Vault.withFiles_manifest :
    (vault.withFiles files).disk.manifest = vault.disk.manifest := rfl
@[simp] theorem Vault.withFiles_session : (vault.withFiles files).session = vault.session := rfl
@[simp] theorem Vault.withFiles_withFiles :
    (vault.withFiles files).withFiles files' = vault.withFiles files' := rfl
@[simp] theorem Vault.withPending_files :
    (vault.withPending pending).disk.files = vault.disk.files := rfl
@[simp] theorem Vault.withPending_pending :
    (vault.withPending pending).disk.pending = pending := rfl
@[simp] theorem Vault.withPending_manifest :
    (vault.withPending pending).disk.manifest = vault.disk.manifest := rfl
@[simp] theorem Vault.withPending_session :
    (vault.withPending pending).session = vault.session := rfl
@[simp] theorem Vault.withManifest_files :
    (vault.withManifest manifest).disk.files = vault.disk.files := rfl
@[simp] theorem Vault.withManifest_pending :
    (vault.withManifest manifest).disk.pending = vault.disk.pending := rfl
@[simp] theorem Vault.withManifest_manifest :
    (vault.withManifest manifest).disk.manifest = some manifest := rfl
@[simp] theorem Vault.withManifest_session :
    (vault.withManifest manifest).session = vault.session := rfl

end Fields

/-- `atomic_write_bytes` at an allowed path. -/
def writeFile (path : SyncPath) (bytes : Bytes) : Program Vault VaultError Unit :=
  Program.write fun vault => vault.withFiles (vault.disk.files.insert path bytes)

/-- `fs::remove_file` at an allowed path. -/
def removeFile (path : SyncPath) : Program Vault VaultError Unit :=
  Program.write fun vault => vault.withFiles (vault.disk.files.erase path)

/-- Write or remove the journal. -/
def setPending (pending : Option Bytes) : Program Vault VaultError Unit :=
  Program.write fun vault => vault.withPending pending

variable (P : Platform)

/-- `exportable_files`, as far as snapshots may list them. -/
def exportableFiles (files : Table SyncPath Bytes) (includeAudit : Bool) : List SyncPath :=
  files.keys.filter fun path => includeAudit || path.dir ≠ .audit

/-- `encrypted_paths` of the audit directory. -/
def auditPaths (files : Table SyncPath Bytes) : List SyncPath :=
  files.keys.filter fun path => path.dir = .audit

/-- Install one listed file, unless the directory holds it already. -/
def installFile (file : VaultExportFile) : Program Vault VaultError PUnit := do
  let bytes ← Program.ofExcept (okOr .invalidExport (P.decodeB64 file.bytesB64))
  let path ← Program.ofExcept (okOr .invalidExport (syncPathAllowed file.relativePath))
  let vault ← Program.read
  if vault.disk.files[path]? ≠ some bytes then
    writeFile path bytes

/-- Remove one file that was there before, unless the snapshot lists it. -/
def removeStale (version : UInt16) (retained : List RelPath) (path : SyncPath) :
    Program Vault VaultError PUnit :=
  if (version = 1 ∨ path.dir ≠ .audit) ∧ .sync path ∉ retained then removeFile path
  else pure ()

/-- What `rewrap_local_audit` writes over one audit file: nothing over a tombstone or a file
already under the next epoch. -/
def rewrapped (session : Session) (header : VaultHeader) (nextEpoch : VaultEpochKey)
    (draw : EnvelopeDraw) (bytes : Bytes) : Except VaultError (Option Bytes) := do
  let envelope ← okOr .json (P.envelope.fromSlice bytes)
  if envelope.tombstone then
    return none
  match decryptEnvelopeWithEpoch P envelope nextEpoch with
  | .ok _ => return none
  | .error _ =>
    let plaintext ← decryptEnvelopeWithEpoch P envelope session.epochKey
    let envelope := { envelope with
      deviceId := session.deviceId
      updatedAt := header.updatedAt
      lamport := saturatingAdd envelope.lamport 1 }
    return some (P.envelope.toVecPretty (encryptEnvelope P draw envelope plaintext nextEpoch))

/-- One audit file of `rewrap_local_audit`. -/
def rewrapFile (draws : SyncPath → EnvelopeDraw) (header : VaultHeader)
    (nextEpoch : VaultEpochKey) (path : SyncPath) : Program Vault VaultError PUnit := do
  let vault ← Program.read
  let bytes ← Program.ofExcept (okOr .io vault.disk.files[path]?)
  match ← Program.ofExcept (rewrapped P vault.session header nextEpoch (draws path) bytes) with
  | some bytes => writeFile path bytes
  | none => pure ()

/-- `Vault::rewrap_local_audit`. -/
def rewrapLocalAudit (draws : SyncPath → EnvelopeDraw) (header : VaultHeader) :
    Program Vault VaultError Unit := do
  let vault ← Program.read
  let (nextEpoch, _) ← Program.ofExcept
    (unwrapEpochAndIndexKeys P vault.session.rootKey header .unlockFailed)
  (auditPaths vault.disk.files).forM (rewrapFile P draws header nextEpoch)

/-- `Vault::reload_from_disk`. -/
def reloadFromDisk : Program Vault VaultError Unit := do
  let vault ← Program.read
  let manifest ← Program.ofExcept (okOr .io vault.disk.manifest)
  let header ← Program.ofExcept (okOr .json (P.header.fromSlice manifest))
  Program.ofExcept (validateHeader header)
  if header.vaultId ≠ vault.session.header.vaultId then
    Program.fail .unlockFailed
  let (epochKey, indexKey) ← Program.ofExcept
    (unwrapEpochAndIndexKeys P vault.session.rootKey header .unlockFailed)
  Program.assign fun vault =>
    { vault with session := { vault.session with header, epochKey, indexKey } }

/-- `Vault::finish_pending_sync`. -/
def finishPendingSync (draws : SyncPath → EnvelopeDraw) : Program Vault VaultError Unit := do
  let vault ← Program.read
  match vault.disk.pending with
  | none => pure ()
  | some bytes =>
    let (snapshot, payload) ← Program.ofExcept (vault.session.decodeSnapshot P bytes)
    let oldPaths := exportableFiles vault.disk.files (snapshot.version = 1)
    payload.files.forM (installFile P)
    oldPaths.forM (removeStale snapshot.version (payload.files.map VaultExportFile.relativePath))
    if snapshot.version = 2 ∧ snapshot.header.currentEpoch ≠ vault.session.header.currentEpoch then
      rewrapLocalAudit P draws snapshot.header
    Program.write fun vault => vault.withManifest (P.header.toVecPretty snapshot.header)
    reloadFromDisk P
    setPending none

/-- `Vault::ensure_sync_ready`. -/
def ensureSyncReady (vault : Vault) : Except VaultError Unit :=
  if vault.disk.pending.isSome then .error .io else .ok ()

/-- What `apply_sync_snapshot` draws: the encoding of the recovery journal and, for the replay
of either journal, the encryption of audit files. -/
structure ApplyDraws where
  journal : SnapshotDraw
  forward : SyncPath → EnvelopeDraw
  rollback : SyncPath → EnvelopeDraw

/-- `Vault::apply_sync_snapshot`. -/
def applySyncSnapshot (draws : ApplyDraws) (bytes : Bytes) : Program Vault VaultError Unit := do
  let vault ← Program.read
  let _ ← Program.ofExcept (vault.session.decodeSnapshot P bytes)
  Program.ofExcept (ensureSyncReady vault)
  let original := vault.exportSyncSnapshot P draws.journal
  setPending (some bytes)
  match ← (finishPendingSync P draws.forward).attempt with
  | .ok () => pure ()
  | .error error =>
    setPending (some original)
    finishPendingSync P draws.rollback
    Program.fail error

end Aipass
