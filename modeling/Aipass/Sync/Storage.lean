import Aipass.Sync.Store
import Aipass.Vault.Apply

/-!
# The outbox

`queue_local_changes` keeps at most one snapshot waiting for upload: it replaces the pending
ones by a snapshot of the vault that has the parents of the oldest of them. A journal makes the
replacement recoverable, and the checkpoint, written in between, decides whether recovery
finishes or undoes it. `flush_outbox` uploads the pending snapshots in the order of their names.
-/
namespace Aipass.Sync

variable (P : SyncPlatform)

/-- Change the files of one target by one atomic write or removal. -/
def changeTarget (name : String) (change : TargetFiles → TargetFiles) :
    Program Store SyncError Unit :=
  Program.write fun store => store.setTarget name (change (store.target name))

/-- The files of a target without one pending snapshot. -/
def TargetFiles.eraseOutbox (files : TargetFiles) (id : SnapshotId) : TargetFiles :=
  { files with outbox := files.outbox.erase id }

/-- The files of a target with another pending snapshot. -/
def TargetFiles.setOutbox (files : TargetFiles) (id : SnapshotId) (bytes : Bytes) :
    TargetFiles :=
  { files with outbox := files.outbox.insert id bytes }

/-- The files of a target with another journal. -/
def TargetFiles.setJournal (files : TargetFiles) (journal : Option Compaction) : TargetFiles :=
  { files with journal }

/-- The files of a target with another checkpoint. -/
def TargetFiles.setCheckpoint (files : TargetFiles) (checkpoint : Checkpoint) : TargetFiles :=
  { files with checkpoint := some checkpoint }

/-- The files of a target with another list of conflicts. -/
def TargetFiles.setConflicts (files : TargetFiles) (conflicts : List SnapshotId) : TargetFiles :=
  { files with conflicts := some conflicts }

section Fields

variable (files : TargetFiles) (id : SnapshotId) (bytes : Bytes) (journal : Option Compaction)
  (checkpoint : Checkpoint)

@[simp] theorem TargetFiles.eraseOutbox_checkpoint :
    (files.eraseOutbox id).checkpoint = files.checkpoint := rfl
@[simp] theorem TargetFiles.eraseOutbox_journal :
    (files.eraseOutbox id).journal = files.journal := rfl
@[simp] theorem TargetFiles.eraseOutbox_outbox :
    (files.eraseOutbox id).outbox = files.outbox.erase id := rfl
@[simp] theorem TargetFiles.setOutbox_journal :
    (files.setOutbox id bytes).journal = files.journal := rfl
@[simp] theorem TargetFiles.setOutbox_outbox :
    (files.setOutbox id bytes).outbox = files.outbox.insert id bytes := rfl
@[simp] theorem TargetFiles.setJournal_journal :
    (files.setJournal journal).journal = journal := rfl
@[simp] theorem TargetFiles.setJournal_outbox :
    (files.setJournal journal).outbox = files.outbox := rfl
@[simp] theorem TargetFiles.setCheckpoint_journal :
    (files.setCheckpoint checkpoint).journal = files.journal := rfl
@[simp] theorem TargetFiles.setCheckpoint_outbox :
    (files.setCheckpoint checkpoint).outbox = files.outbox := rfl

end Fields

/-- Remove one snapshot that a compaction replaced: from the outbox, and its body and its
metadata from the cache. -/
def removeReplaced (name : String) (id : SnapshotId) : Program Store SyncError PUnit := do
  changeTarget name fun files => files.eraseOutbox id
  Program.write fun store => store.eraseCache id
  Program.write fun store => store.eraseMetadata id

/-- `finish_compaction`. -/
def finishCompaction (name : String) (tx : Compaction) : Program Store SyncError Unit := do
  tx.oldIds.forM (removeReplaced name)
  changeTarget name fun files => files.setJournal none

/-- `recover_compaction`. -/
def recoverCompaction (name : String) (checkpoint : Checkpoint) :
    Program Store SyncError Unit := do
  let store ← Program.read
  match (store.target name).journal with
  | none => pure ()
  | some tx =>
    if checkpoint.heads = [tx.newId] then
      finishCompaction name tx
    else if checkpoint.heads = tx.oldHead then
      changeTarget name fun files => files.eraseOutbox tx.newId
      Program.write fun store => store.eraseCache tx.newId
      changeTarget name fun files => files.setJournal none
    else
      Program.fail .checkpointChanged

/-- `SnapshotPrefix`: the fields of a snapshot that are serialized before the others. -/
structure SnapshotPrefix where
  format : String
  version : UInt16
  parents : List ParentText

/-- The room for the fields before `createdAt`, and for the marker that ends them. -/
def prefixRoom : ℕ := 16 * 1024

/-- The length of the serialized fields before `createdAt` and of the marker after them, in a
snapshot that `parse` accepts: each parent link is a quoted id of 64 characters, and all but the
first have a comma before them. -/
def headerLength (parents : ℕ) : ℕ :=
  (utf8 "_\"format\":\"aipass-vault-sync\",\"version\":2,\"parents\":[],\"createdAt\":").length +
    66 * parents + (parents - 1)

/-- `snapshot_prefix`, of a file that holds a serialized snapshot. The marker is looked for in
the first 16 KiB only, so a snapshot with too many parent links is refused. -/
def snapshotPrefix (bytes : Bytes) : Except SyncError SnapshotPrefix := do
  let snapshot ← okOr .headerTooLarge (P.snapshot.fromSlice bytes)
  if prefixRoom < headerLength snapshot.parents.length then
    throw .headerTooLarge
  if snapshot.format ≠ "aipass-vault-sync" ∨ (snapshot.version ≠ 1 ∧ snapshot.version ≠ 2) ∨
      snapshot.parents.any fun parent => parent.id?.isNone then
    throw .invalidHeader
  return ⟨snapshot.format, snapshot.version, snapshot.parents⟩

/-- The ids that the first fields of a snapshot name as parents. -/
def SnapshotPrefix.parentIds (first : SnapshotPrefix) : List SnapshotId :=
  first.parents.filterMap ParentText.id?

/-- `verify_hash`. -/
def verifyHash (bytes : Bytes) (id : SnapshotId) : Except SyncError Unit :=
  if snapshotId P bytes ≠ id then .error .pendingHashMismatch else .ok ()

/-- The parent links of one pending snapshot. -/
def pendingParents (entry : SnapshotId × Bytes) :
    Except SyncError (SnapshotId × List SnapshotId) := do
  let first ← snapshotPrefix P entry.2
  return (entry.1, first.parentIds)

/-- The links among the pending snapshots. -/
def pendingLinks (pending : Table SnapshotId Bytes) (parents : Links SnapshotId) :
    Links SnapshotId :=
  parents.map fun _ named => named.filter fun parent => pending[parent]?.isSome

/-- `pending_base`: the parents for a snapshot that replaces the pending ones. -/
def pendingBase (pending : Table SnapshotId Bytes) (checkpoint : Checkpoint) :
    Except SyncError (List SnapshotId) := do
  if pending.isEmpty then
    return checkpoint.heads
  match checkpoint.heads with
  | [headId] =>
    let head ← okOr .checkpointMismatch pending[headId]?
    let entries ← pending.toList.mapM (pendingParents P)
    let parents : Links SnapshotId := (∅ : Links SnapshotId).insertAll entries
    let seen := (pendingLinks pending parents).explore .stack id [(headId, ())] ∅
    if seen.size ≠ pending.size then
      throw .disconnectedBranch
    match parents.toList.filter fun entry => entry.2.all fun id => pending[id]?.isNone with
    | [(rootId, base)] =>
      let root ← okOr .notFound pending[rootId]?
      verifyHash P root rootId
      if headId ≠ rootId then
        verifyHash P head headId
      return base
    | _ => throw .noConfirmedBase
  | _ => throw .checkpointMismatch

/-- `stage_linked_snapshot`. -/
def stageLinkedSnapshot (name : String) (id : SnapshotId) (bytes : Bytes) :
    Program Store SyncError Unit := do
  Program.write fun store => store.setCache id bytes
  let store ← Program.read
  match (store.target name).outbox[id]? with
  | some held =>
    if snapshotId P held = id then pure () else Program.fail .differentContent
  | none => changeTarget name fun files => files.setOutbox id bytes

/-- The outbox holds what a queue of local changes leaves: at most one snapshot, of version 2. -/
def outboxSettled (pending : Table SnapshotId Bytes) : Bool :=
  pending.size ≤ 1 && pending.valueList.all fun bytes =>
    match snapshotPrefix P bytes with
    | .ok first => first.version = 2
    | .error _ => false

/-- Replace the pending snapshots by one of the vault, rooted at their base. -/
def compact (name : String) (checkpoint : Checkpoint) (pending : Table SnapshotId Bytes)
    (revision : Digest) (bytes : Bytes) : Program Store SyncError Unit := do
  let id := snapshotId P bytes
  let tx : Compaction := ⟨checkpoint.heads, pending.keys, id⟩
  changeTarget name fun files => files.setJournal (some tx)
  stageLinkedSnapshot P name id bytes
  changeTarget name fun files => files.setCheckpoint ⟨[id], some revision⟩
  finishCompaction name tx

/-- `queue_local_changes`. -/
def queueLocalChanges (vault : Vault) (draw : SnapshotDraw) (name : String) :
    Program Store SyncError Unit := do
  let store ← Program.read
  match (store.target name).checkpoint with
  | none => pure ()
  | some checkpoint =>
    Program.ofExcept ((ensureSyncReady vault).mapError .vault)
    recoverCompaction name checkpoint
    if checkpoint.revision = none then
      pure ()
    else
      let store ← Program.read
      let pending := (store.target name).outbox
      let revision := vault.syncRevision P.toPlatform
      if checkpoint.revision = some revision ∧ outboxSettled P pending then
        pure ()
      else
        let base ← Program.ofExcept (pendingBase P pending checkpoint)
        compact P name checkpoint pending revision
          (vault.exportSyncSnapshotWithParents P.toPlatform draw base)

/-- What becomes of an upload. -/
inductive PublishOutcome where
  /-- The remote stores the snapshot and says so. -/
  | stored
  /-- The remote stores the snapshot, but the call fails. -/
  | storedUnreported
  /-- Nothing is stored and the call fails. -/
  | failed
deriving DecidableEq

/-- `SnapshotRemote::publish`: immutable names, so storing a snapshot again changes nothing. -/
def publish (outcome : PublishOutcome) (bytes : Bytes) : Program Shore SyncError Unit :=
  let store := Program.write fun shore : Shore =>
    { shore with remote := shore.remote.insert (snapshotId P bytes) bytes }
  match outcome with
  | .stored => store
  | .storedUnreported => do
    store
    Program.fail .remote
  | .failed => Program.fail .remote

/-- Upload one pending snapshot and remove it from the outbox. -/
def flushOne (outcomes : SnapshotId → PublishOutcome) (name : String) (count : ℕ)
    (entry : SnapshotId × Bytes) : Program Shore SyncError ℕ := do
  if snapshotId P entry.2 ≠ entry.1 then
    Program.fail .pendingHashMismatch
  publish P (outcomes entry.1) entry.2
  Program.write fun shore =>
    { shore with store := shore.store.setTarget name ((shore.store.target name).eraseOutbox entry.1) }
  return count + 1

/-- `flush_outbox`. -/
def flushOutbox (outcomes : SnapshotId → PublishOutcome) (name : String) :
    Program Shore SyncError ℕ := do
  let shore ← Program.read
  (shore.store.target name).outbox.toList.foldlM (flushOne P outcomes name) 0

end Aipass.Sync
