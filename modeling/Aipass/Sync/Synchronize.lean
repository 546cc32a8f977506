import Aipass.Sync.Retention
import Aipass.Sync.Storage
import Aipass.Vault.Merge

/-!
# Synchronization

`synchronize` reads the links and revisions of the listed snapshots and of the checkpoint heads,
fast-forwards the vault to a single head, joins other heads whose changes can be merged, and
publishes what the vault holds then. Publication only stages a snapshot in the outbox, under the
session lock; the upload follows.
-/
namespace Aipass.Sync

variable (P : SyncPlatform)

/-- The associated data of a local state file: `encrypt_local_state` and `decrypt_local_state`
bind it to the vault and a purpose. -/
def localStateAad (session : Session) (purpose : String) : Bytes :=
  utf8 s!"aipass-local-state:{P.uuidText session.header.vaultId}:{purpose}"

/-- The purpose of a metadata file. -/
def metadataPurpose (id : SnapshotId) : String := s!"sync-snapshot:{id}"

/-- The metadata of a snapshot that was cached under this session, if any: a file that does not
decrypt is passed over, one that decrypts must parse. -/
def cachedMetadata (session : Session) (store : Store) (id : SnapshotId) :
    Option (Except SyncError SnapshotMetadata) := do
  let ciphertext ← store.metadata[id]?
  match decryptBytes P.toPlatform session.indexKey (localStateAad P session (metadataPurpose id))
      ciphertext with
  | .ok bytes => some (okOr .json (P.metadata.fromSlice bytes))
  | .error _ => none

/-- What a snapshot body says of itself, authenticated if the vault is unlocked. -/
def bodyMetadata (session : Option Session) (id : SnapshotId) (bytes : Bytes) :
    Except SyncError SnapshotMetadata := do
  if snapshotId P bytes ≠ id then
    throw .contentHashMismatch
  let snapshot ← (VaultSyncSnapshot.parse P.toPlatform bytes).mapError .vault
  match session with
  | none => return ⟨snapshot.parentIds, none⟩
  | some session =>
    if snapshot.header.vaultId ≠ session.header.vaultId then
      throw .foreignVault
    let revision ← (session.syncSnapshotRevision P.toPlatform bytes).mapError .vault
    return ⟨snapshot.parentIds, some revision⟩

/-- `snapshot_metadata`. The nonce is drawn to encrypt the metadata file. -/
def snapshotMetadata (session : Option Session) (nonces : SnapshotId → Nonce) (id : SnapshotId) :
    Program Store SyncError SnapshotMetadata := do
  let store ← Program.read
  match session.bind fun session => cachedMetadata P session store id with
  | some cached => Program.ofExcept cached
  | none =>
    let bytes ← Program.ofExcept (okOr .notFound store.cache[id]?)
    let metadata ← Program.ofExcept (bodyMetadata P session id bytes)
    match session with
    | none => pure metadata
    | some session =>
      Program.write fun store => store.setMetadata id
        (encryptBytes P.toPlatform (nonces id) session.indexKey
          (localStateAad P session (metadataPurpose id)) (P.metadata.toVec metadata))
      pure metadata

/-- The snapshots that a run knows, by id. -/
abbrev Snapshots := Table SnapshotId SnapshotMetadata

/-- The parent links of the known snapshots. -/
def Snapshots.links (snapshots : Snapshots) : Links SnapshotId :=
  snapshots.map fun _ metadata => metadata.parents

/-- Look at one listed snapshot: it becomes known, or it is quarantined. -/
def inspect (session : Option Session) (nonces : SnapshotId → Nonce) (seen : Snapshots × ℕ)
    (id : SnapshotId) : Program Store SyncError (Snapshots × ℕ) := do
  let store ← Program.read
  if store.ignored[id]?.isSome then
    pure seen
  else
    match ← (snapshotMetadata P session nonces id).attempt with
    | .ok metadata => pure (seen.1.insert id metadata, seen.2)
    | .error error =>
      if error = .foreignVault then
        Program.fail error
      else
        let store ← Program.read
        let bytes ← Program.ofExcept (okOr .notFound store.cache[id]?)
        Program.write fun store => store.setQuarantine id bytes
        pure (seen.1, seen.2 + 1)

/-- Look at one checkpoint head: it is known even if the listing omits it. -/
def retainHead (session : Option Session) (nonces : SnapshotId → Nonce) (snapshots : Snapshots)
    (id : SnapshotId) : Program Store SyncError Snapshots :=
  if snapshots[id]?.isSome then
    pure snapshots
  else do
    let metadata ← snapshotMetadata P session nonces id
    return snapshots.insert id metadata

/-- The loop of `synchronize` that retains the checkpoint heads. -/
def retainHeads (session : Option Session) (nonces : SnapshotId → Nonce) (snapshots : Snapshots)
    (heads : List SnapshotId) : Program Store SyncError Snapshots :=
  heads.foldlM (retainHead P session nonces) snapshots

/-- The snapshots a run knows, and how many it quarantined. -/
def survey (session : Option Session) (nonces : SnapshotId → Nonce) (listed heads : List SnapshotId) :
    Program Store SyncError (Snapshots × ℕ) := do
  let (snapshots, quarantined) ← listed.foldlM (inspect P session nonces) (∅, 0)
  let snapshots ← retainHeads P session nonces snapshots heads
  return (snapshots, quarantined)

/-- The known snapshots that no known snapshot names as a parent. -/
def headsOf (snapshots : Snapshots) : Finset SnapshotId :=
  removeParents snapshots.keySet (snapshots.valueList.map SnapshotMetadata.parents)

/-- `common_ancestor`: distances from a snapshot over the parent links. -/
def ancestors (snapshots : Snapshots) (start : SnapshotId) : Table SnapshotId ℕ :=
  snapshots.links.explore .queue (· + 1) [(start, 0)] ∅

/-- The first of the candidates with the least sum of distances. -/
def nearest : List (SnapshotId × ℕ) → Option (SnapshotId × ℕ)
  | [] => none
  | candidate :: rest =>
    match nearest rest with
    | some other => if candidate.2 ≤ other.2 then some candidate else some other
    | none => some candidate

/-- `common_ancestor`. -/
def commonAncestor (left right : SnapshotId) (snapshots : Snapshots) : Option SnapshotId :=
  let fromLeft := ancestors snapshots left
  let fromRight := ancestors snapshots right
  let shared := fromLeft.toList.filterMap fun entry =>
    match fromRight[entry.1]? with
    | some distance =>
      if snapshots[entry.1]?.isSome then some (entry.1, entry.2 + distance) else none
    | none => none
  (nearest shared).map Prod.fst

/-- What one run draws. -/
structure SyncDraws where
  /-- The nonces of metadata files. -/
  metadata : SnapshotId → Nonce
  /-- The draws of a fast-forward. -/
  forward : ApplyDraws
  /-- The draws of the merge with a head. -/
  merge : SnapshotId → SnapshotDraw
  /-- The draws of applying the merge with a head. -/
  join : SnapshotId → ApplyDraws
  /-- The draws of the published snapshot. -/
  publish : SnapshotDraw

/-- Run a program of the vault on the vault of a device. -/
def onVault {α : Type} (program : Program Vault VaultError α) : Program Device SyncError α :=
  program.within Device.vault (fun vault device => { device with vault }) .vault

/-- Run a program of the sync files on those of a device. -/
def onStore {α : Type} (program : Program Store SyncError α) : Program Device SyncError α :=
  program.within Device.store (fun store device => { device with store }) id

/-- Read a snapshot body from the cache. -/
def readCache (id : SnapshotId) : Program Device SyncError Bytes := do
  let device ← Program.read
  Program.ofExcept (okOr .notFound device.store.cache[id]?)

/-- The revision of one known snapshot. -/
def authenticated (entry : SnapshotId × SnapshotMetadata) :
    Except SyncError (SnapshotId × Digest) := do
  let revision ← okOr .authenticationMissing entry.2.revision
  return (entry.1, revision)

/-- A checkpoint without a revision takes that of its head. -/
def Checkpoint.fill (checkpoint : Checkpoint) (revisions : Table SnapshotId Digest) : Checkpoint :=
  match checkpoint.revision, checkpoint.heads with
  | none, [head] => { checkpoint with revision := revisions[head]? }
  | _, _ => checkpoint

/-- Adopt a single head: the vault holds it already, or holds only what the checkpoint names and
is fast-forwarded. Returns the checkpoint and the number of snapshots applied. -/
def adopt (draws : ApplyDraws) (heads : Finset SnapshotId) (revisions : Table SnapshotId Digest)
    (checkpoint : Checkpoint) : Program Device SyncError (Checkpoint × ℕ) := do
  let device ← Program.read
  let localRevision := device.vault.syncRevision P.toPlatform
  match heads.sort (· ≤ ·) with
  | [id] =>
    if revisions[id]? = some localRevision then
      pure (⟨[id], some localRevision⟩, 0)
    else if checkpoint.revision = some localRevision ∧ checkpoint.heads ≠ [id] then do
      let bytes ← readCache id
      onVault (applySyncSnapshot P.toPlatform draws bytes)
      pure (⟨[id], revisions[id]?⟩, 1)
    else
      pure (checkpoint, 0)
  | _ => pure (checkpoint, 0)

/-- Join one head into the checkpoint: the vault holds its content already, or a merge with it
can be applied. -/
def joinOne (draws : SyncDraws) (localHead : SnapshotId) (snapshots : Snapshots)
    (revisions : Table SnapshotId Digest) (joined : Checkpoint × ℕ) (incoming : SnapshotId) :
    Program Device SyncError (Checkpoint × ℕ) :=
  if incoming = localHead ∨ incoming ∈ joined.1.heads then
    pure joined
  else do
    let device ← Program.read
    if revisions[incoming]? = some (device.vault.syncRevision P.toPlatform) then
      pure (⟨joined.1.heads ++ [incoming], none⟩, joined.2)
    else
      match commonAncestor localHead incoming snapshots with
      | none => pure joined
      | some base => do
        let remoteBytes ← readCache incoming
        let baseBytes ← readCache base
        let merged ← Program.ofExcept ((device.vault.mergeSyncSnapshot P.toPlatform
          (draws.merge incoming) remoteBytes baseBytes).mapError .vault)
        match merged with
        | none => pure joined
        | some bytes => do
          onVault (applySyncSnapshot P.toPlatform (draws.join incoming) bytes)
          pure (⟨joined.1.heads ++ [incoming], none⟩, joined.2 + 1)

/-- Join the heads beside the one the checkpoint names, in order. -/
def joinAll (draws : SyncDraws) (heads : Finset SnapshotId) (snapshots : Snapshots)
    (revisions : Table SnapshotId Digest) (adopted : Checkpoint × ℕ) :
    Program Device SyncError (Checkpoint × ℕ) :=
  match adopted.1.heads with
  | [localHead] =>
    (heads.sort (· ≤ ·)).foldlM (joinOne P draws localHead snapshots revisions) adopted
  | _ => pure adopted

/-- Stage a snapshot of the vault that names the checkpoint heads as parents. -/
def publishBranch (draw : SnapshotDraw) (name : String) (checkpoint : Checkpoint) :
    Program Device SyncError SnapshotId := do
  let device ← Program.read
  let bytes := device.vault.exportSyncSnapshotWithParents P.toPlatform draw checkpoint.heads
  let id := snapshotId P bytes
  onStore do
    stageLinkedSnapshot P name id bytes
    Program.write fun store => store.setCache id bytes
  return id

/-- What a run settles on before it writes the checkpoint. -/
structure Settled where
  heads : Finset SnapshotId
  checkpoint : Checkpoint
  uploaded : ℕ

/-- Publish the vault unless the checkpoint describes it. -/
def publishDirty (draw : SnapshotDraw) (name : String) (heads : Finset SnapshotId)
    (checkpoint : Checkpoint) : Program Device SyncError Settled := do
  let device ← Program.read
  let currentRevision := device.vault.syncRevision P.toPlatform
  if checkpoint.revision = some currentRevision then
    pure ⟨heads, checkpoint, 0⟩
  else do
    let id ← publishBranch P draw name checkpoint
    pure ⟨insert id (checkpoint.heads.foldl Finset.erase heads), ⟨[id], some currentRevision⟩, 1⟩

/-- The heads to choose from: none if there is a single one. -/
def conflictsOf (heads : Finset SnapshotId) : List SnapshotId :=
  if 1 < heads.card then heads.sort (· ≤ ·) else []

/-- The message of a report about unverifiable snapshots only. -/
def quarantineMessage : String :=
  "Unverifiable sync snapshots were quarantined; the local vault was preserved."

/-- The message of a report about heads to choose from. -/
def conflictMessage : String :=
  "Concurrent vault changes were preserved. Choose the vault version to keep in sync conflicts."

/-- The report of a run that only quarantined snapshots. -/
def quarantineReport (quarantined : ℕ) : SyncReport :=
  ⟨0, 0, quarantined, quarantined, .conflict, some quarantineMessage⟩

/-- The report of a finished run. -/
def finalReport (settled : Settled) (downloaded quarantined : ℕ) : SyncReport :=
  let conflicts := conflictsOf settled.heads
  if conflicts ≠ [] ∨ 0 < quarantined then
    ⟨settled.uploaded, downloaded, conflicts.length + quarantined, quarantined, .conflict,
      some conflictMessage⟩
  else
    ⟨settled.uploaded, downloaded, 0, quarantined, .idle, none⟩

/-- Write the list of conflicts, and then the checkpoint. -/
def writeSettled (name : String) (settled : Settled) : Program Store SyncError Unit := do
  changeTarget name fun files => files.setConflicts (conflictsOf settled.heads)
  changeTarget name fun files => files.setCheckpoint settled.checkpoint

/-- What `synchronize` does with the known snapshots when the vault is unlocked. -/
def reconcile (draws : SyncDraws) (name : String) (checkpoint : Checkpoint) (snapshots : Snapshots)
    (quarantined : ℕ) : Program Device SyncError SyncReport := do
  let heads := headsOf snapshots
  let revisions : Table SnapshotId Digest := (∅ : Table SnapshotId Digest).insertAll
    (← Program.ofExcept (snapshots.toList.mapM authenticated))
  let adopted ← adopt P draws.forward heads revisions (checkpoint.fill revisions)
  let joined ← joinAll P draws heads snapshots revisions adopted
  let settled ← publishDirty P draws.publish name heads joined.1
  onStore (writeSettled name settled)
  return finalReport settled joined.2 quarantined

/-- The checkpoint that a target starts from. -/
def Store.checkpoint (store : Store) (name : String) : Checkpoint :=
  (store.target name).checkpoint.getD Checkpoint.initial

/-- `synchronize` with an unlocked vault. -/
def synchronize (draws : SyncDraws) (listed : List SnapshotId) (name : String) :
    Program Device SyncError SyncReport := do
  let device ← Program.read
  let checkpoint := device.store.checkpoint name
  let (snapshots, quarantined) ← onStore
    (survey P (some device.vault.session) draws.metadata listed checkpoint.heads)
  if snapshots.isEmpty ∧ 0 < quarantined then
    pure (quarantineReport quarantined)
  else
    reconcile P draws name checkpoint snapshots quarantined

end Aipass.Sync
