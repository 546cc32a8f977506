import Aipass.Base.Program
import Aipass.Base.Search
import Aipass.Vault.Snapshot

/-!
# The files of synchronization

Beside the vault, a device keeps for each sync target a checkpoint, the list of conflicting
heads, an outbox of snapshots to upload and the journal of a compaction of the outbox. All
targets share one cache of snapshot bodies. Small files are modelled by the values they hold;
snapshot files, whose hash is checked, by their bytes.
-/
namespace Aipass.Sync

/-- `Checkpoint`: what the vault was last known to contain. -/
structure Checkpoint where
  heads : List SnapshotId
  revision : Option Digest
deriving DecidableEq

/-- `Checkpoint::default`. -/
def Checkpoint.initial : Checkpoint := ⟨[], none⟩

/-- `Compaction`: the journal of a change from several pending snapshots to one. -/
structure Compaction where
  oldHead : List SnapshotId
  oldIds : List SnapshotId
  newId : SnapshotId
deriving DecidableEq

/-- `SnapshotMetadata`. -/
structure SnapshotMetadata where
  parents : List SnapshotId
  revision : Option Digest
deriving DecidableEq

/-- `SyncStatus`, as far as `synchronize` reports it. -/
inductive SyncStatus where
  | idle
  | conflict
deriving DecidableEq

/-- `SyncReport`. -/
structure SyncReport where
  uploaded : ℕ
  downloaded : ℕ
  conflicts : ℕ
  quarantined : ℕ
  status : SyncStatus
  message : Option String
deriving DecidableEq

/-- The failures of synchronization. -/
inductive SyncError where
  | vault (error : VaultError)
  | notFound
  | json
  | remote
  | foreignVault
  | contentHashMismatch
  | authenticationMissing
  | checkpointChanged
  | headerTooLarge
  | invalidHeader
  | pendingHashMismatch
  | checkpointMismatch
  | disconnectedBranch
  | noConfirmedBase
  | differentContent
  | unverifiable
  | conflictGone
deriving DecidableEq

/-- The crates that synchronization uses besides those of the vault. -/
structure SyncPlatform extends Platform where
  /-- The plaintext of a cached metadata file. -/
  metadata : Serde SnapshotMetadata

/-- `snapshot_id`. -/
def snapshotId (P : SyncPlatform) (bytes : Bytes) : SnapshotId := P.sha256 bytes

/-- Distinct snapshots have distinct names. -/
theorem snapshotId_injective (P : SyncPlatform) : Function.Injective (snapshotId P) :=
  P.sha256_injective

/-- The files of one target. -/
structure TargetFiles where
  /-- `sync-state/<target>.json`. -/
  checkpoint : Option Checkpoint
  /-- `sync-state/<target>-conflicts.json`. -/
  conflicts : Option (List SnapshotId)
  /-- `sync-outbox/<target>/compaction.json`. -/
  journal : Option Compaction
  /-- `sync-outbox/<target>/<id>.aipsnapshot`. -/
  outbox : Table SnapshotId Bytes

/-- A target that was never synchronized has no files. -/
def TargetFiles.empty : TargetFiles := ⟨none, none, none, ∅⟩

/-- The files of synchronization in a vault directory. -/
structure Store where
  /-- The files of each target. -/
  targets : Table String TargetFiles
  /-- `sync-cache/<id>.aipsnapshot`. -/
  cache : Table SnapshotId Bytes
  /-- `sync-cache/<id>.aipstate`. -/
  metadata : Table SnapshotId Ciphertext
  /-- `sync-ignored/<id>.aipsnapshot`. -/
  ignored : Table SnapshotId Bytes
  /-- `sync-quarantine/<id>.aipsnapshot`. -/
  quarantine : Table SnapshotId Bytes

namespace Store

/-- A vault directory that was never synchronized. -/
def empty : Store := ⟨∅, ∅, ∅, ∅, ∅⟩

/-- The files of a target. -/
def target (store : Store) (name : String) : TargetFiles :=
  store.targets[name]?.getD TargetFiles.empty

/-- Replace the files of a target. -/
def setTarget (store : Store) (name : String) (files : TargetFiles) : Store :=
  { store with targets := store.targets.insert name files }

/-- Write a body to the cache. -/
def setCache (store : Store) (id : SnapshotId) (bytes : Bytes) : Store :=
  { store with cache := store.cache.insert id bytes }

/-- Remove a body from the cache. -/
def eraseCache (store : Store) (id : SnapshotId) : Store :=
  { store with cache := store.cache.erase id }

/-- Write a metadata file. -/
def setMetadata (store : Store) (id : SnapshotId) (ciphertext : Ciphertext) : Store :=
  { store with metadata := store.metadata.insert id ciphertext }

/-- Remove a metadata file. -/
def eraseMetadata (store : Store) (id : SnapshotId) : Store :=
  { store with metadata := store.metadata.erase id }

/-- Write a body to the quarantine. -/
def setQuarantine (store : Store) (id : SnapshotId) (bytes : Bytes) : Store :=
  { store with quarantine := store.quarantine.insert id bytes }

section Fields

variable (store : Store) (name other : String) (files : TargetFiles) (id : SnapshotId)
  (bytes : Bytes) (ciphertext : Ciphertext)

@[simp] theorem target_setTarget : (store.setTarget name files).target other =
    if name = other then files else store.target other := by
  unfold target setTarget
  rw [Table.get_insert]
  split <;> rfl

@[simp] theorem target_setCache : (store.setCache id bytes).target other = store.target other := rfl
@[simp] theorem target_eraseCache : (store.eraseCache id).target other = store.target other := rfl
@[simp] theorem metadata_setMetadata :
    (store.setMetadata id ciphertext).metadata = store.metadata.insert id ciphertext := rfl
@[simp] theorem target_eraseMetadata :
    (store.eraseMetadata id).target other = store.target other := rfl
end Fields

end Store

/-- A device whose vault is unlocked: the vault and the files of synchronization. -/
structure Device where
  vault : Vault
  store : Store

/-- The bodies of one remote, by their names. -/
abbrev Remote := Table SnapshotId Bytes

/-- A device and one remote. -/
structure Shore where
  store : Store
  remote : Remote

end Aipass.Sync
