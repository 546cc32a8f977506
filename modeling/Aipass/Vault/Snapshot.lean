import Aipass.Base.Merge
import Aipass.Vault.Envelope

/-!
# Snapshots of a vault

A snapshot is the listing of a vault's files, encrypted under the root key and bound to the
header it was taken with. `decodeSnapshot` accepts a snapshot only when every file it lists
opens under that header; `contents` is the table of files it stands for.
-/
namespace Aipass

/-- What an unlocked vault holds in memory. -/
structure Session where
  header : VaultHeader
  rootKey : Key
  epochKey : VaultEpochKey
  indexKey : Key
  deviceId : Uuid

/-- The files of a vault directory that synchronization reads or writes. -/
structure Disk where
  /-- `manifest.aipmanifest`. -/
  manifest : Option Bytes
  /-- `pending-sync.aipsnapshot`. -/
  pending : Option Bytes
  /-- The files at allowed paths. -/
  files : Table SyncPath Bytes

/-- `Vault`: a session and the directory it is open on. -/
structure Vault where
  disk : Disk
  session : Session

/-- What the encoding of a snapshot draws from the clock and the generator. -/
structure SnapshotDraw where
  createdAt : OffsetDateTime
  nonce : Nonce

variable (P : Platform)

/-- The listing of files in a given order. -/
def listEntries (entries : List (SyncPath × Bytes)) : VaultExportPayload :=
  ⟨entries.map fun entry => ⟨.sync entry.1, P.encodeB64 entry.2⟩⟩

/-- The listing of a table of files, in path order. -/
def listing (files : Table SyncPath Bytes) : VaultExportPayload := listEntries P files.toList

/-- The files outside `audit/`. -/
def withoutAudit (files : Table SyncPath Bytes) : Table SyncPath Bytes :=
  files.filter fun path _ => path.dir ≠ .audit

/-- `sync_files`. -/
def syncFiles (files : Table SyncPath Bytes) (includeAudit : Bool) : VaultExportPayload :=
  if includeAudit then listing P files else listing P (withoutAudit files)

/-- `revision`: the digest of a header and a listing. -/
def revision (header : VaultHeader) (payload : VaultExportPayload) : Digest :=
  P.sha256 (P.revisionInput.toVec (header, payload))

/-- `Vault::sync_revision`. -/
def Vault.syncRevision (vault : Vault) : Digest :=
  revision P vault.session.header (syncFiles P vault.disk.files false)

/-- `VaultSyncSnapshot::parse`. -/
def VaultSyncSnapshot.parse (bytes : Bytes) : Except VaultError VaultSyncSnapshot := do
  let snapshot ← okOr .json (P.snapshot.fromSlice bytes)
  if snapshot.format ≠ "aipass-vault-sync" ∨ (snapshot.version ≠ 1 ∧ snapshot.version ≠ 2) then
    throw .unsupportedVersion
  validateHeader snapshot.header
  validateImportKdf snapshot.header.kdf
  if snapshot.parents.any fun parent => parent.id?.isNone then
    throw .invalidExport
  return snapshot

/-- `VaultSyncSnapshot::aad`. -/
def VaultSyncSnapshot.aad (snapshot : VaultSyncSnapshot) : Bytes :=
  P.snapshotAad.toVec
    (snapshot.format, snapshot.version, snapshot.parents, snapshot.createdAt, snapshot.header)

/-- `Vault::encode_snapshot_with_header`. -/
def encodeSnapshotWithHeader (rootKey : Key) (draw : SnapshotDraw) (header : VaultHeader)
    (files : VaultExportPayload) (parents : List SnapshotId) (version : UInt16) : Bytes :=
  let parents := parents.map ParentText.digest
  let aad := P.snapshotAad.toVec ("aipass-vault-sync", version, parents, draw.createdAt, header)
  P.snapshot.toVec
    { format := "aipass-vault-sync"
      version
      parents
      createdAt := draw.createdAt
      header
      payload := encryptBytes P draw.nonce rootKey aad (P.exportPayload.toVec files) }

/-- `Vault::export_sync_snapshot`: the recovery journal, with the audit files. -/
def Vault.exportSyncSnapshot (vault : Vault) (draw : SnapshotDraw) : Bytes :=
  encodeSnapshotWithHeader P vault.session.rootKey draw vault.session.header
    (syncFiles P vault.disk.files true) [] 1

/-- `Vault::encode_sync_snapshot`. -/
def Session.encodeSyncSnapshot (session : Session) (draw : SnapshotDraw)
    (files : VaultExportPayload) (parents : List SnapshotId) : Bytes :=
  encodeSnapshotWithHeader P session.rootKey draw session.header files parents 2

/-- `Vault::export_sync_snapshot_with_parents`. -/
def Vault.exportSyncSnapshotWithParents (vault : Vault) (draw : SnapshotDraw)
    (parents : List SnapshotId) : Bytes :=
  vault.session.encodeSyncSnapshot P draw (syncFiles P vault.disk.files false) parents

/-- The checks that `decode_snapshot` makes of one listed file, once its path is allowed. -/
def checkFile (snapshot : VaultSyncSnapshot) (epoch : VaultEpochKey) (path : SyncPath)
    (file : VaultExportFile) : Except VaultError Unit := do
  let bytes ← okOr .invalidExport (P.decodeB64 file.bytesB64)
  let envelope ← okOr .json (P.envelope.fromSlice bytes)
  if envelope.vaultId ≠ snapshot.header.vaultId ∨ envelope.format ≠ "aipass-object" ∨
      envelope.version ≠ 1 then
    throw .invalidExport
  if path.stem ≠ P.uuidText envelope.objectId then
    throw .invalidExport
  if envelope.tombstone = false then
    let _ ← decryptEnvelopeWithEpoch P envelope epoch

/-- The loop of `decode_snapshot` over the listed files. -/
def checkFiles (snapshot : VaultSyncSnapshot) (epoch : VaultEpochKey) :
    List SyncPath → List VaultExportFile → Except VaultError Unit
  | _, [] => .ok ()
  | paths, file :: files => do
    let path ← okOr .invalidExport (syncPathAllowed file.relativePath)
    if snapshot.version = 2 ∧ path.dir = .audit ∨ path ∈ paths then
      throw .invalidExport
    checkFile P snapshot epoch path file
    checkFiles snapshot epoch (path :: paths) files

/-- `Vault::decode_snapshot`. -/
def Session.decodeSnapshot (session : Session) (bytes : Bytes) :
    Except VaultError (VaultSyncSnapshot × VaultExportPayload) := do
  let snapshot ← VaultSyncSnapshot.parse P bytes
  if snapshot.header.vaultId ≠ session.header.vaultId then
    throw .unlockFailed
  let decoded ← (decryptBytes P session.rootKey (snapshot.aad P) snapshot.payload).mapError .crypto
  let payload ← okOr .json (P.exportPayload.fromSlice decoded)
  let (epoch, _) ← unwrapEpochAndIndexKeys P session.rootKey snapshot.header .unlockFailed
  checkFiles P snapshot epoch [] payload.files
  return (snapshot, payload)

/-- A listed path lies in `audit/`. -/
def VaultExportFile.isAudit (file : VaultExportFile) : Bool :=
  match file.relativePath with
  | .sync path => path.dir = .audit
  | .other _ => false

/-- `Vault::sync_snapshot_revision`: the authenticated revision of a snapshot. -/
def Session.syncSnapshotRevision (session : Session) (bytes : Bytes) :
    Except VaultError Digest := do
  let (snapshot, payload) ← session.decodeSnapshot P bytes
  return revision P snapshot.header ⟨payload.files.filter fun file => !file.isAudit⟩

/-- The table of texts of a listing outside `audit/`. -/
def toMap (payload : VaultExportPayload) : Table SyncPath String :=
  (∅ : Table SyncPath String).insertAll <| payload.files.filterMap fun file =>
    match file.relativePath with
    | .sync path => if path.dir = .audit then none else some (path, file.bytesB64)
    | .other _ => none

/-- `Vault::merge_sync_snapshot`. -/
def Vault.mergeSyncSnapshot (vault : Vault) (draw : SnapshotDraw) (remote base : Bytes) :
    Except VaultError (Option Bytes) := do
  let (remoteHeader, remote) ← vault.session.decodeSnapshot P remote
  let (baseHeader, base) ← vault.session.decodeSnapshot P base
  if P.header.toVec remoteHeader.header ≠ P.header.toVec vault.session.header ∨
      P.header.toVec baseHeader.header ≠ P.header.toVec vault.session.header then
    return none
  let ours := toMap (syncFiles P vault.disk.files false)
  let theirs := toMap remote
  let base := toMap base
  match Table.mergeKeys ours theirs base (Table.mergedKeys ours theirs base) with
  | none => return none
  | some files =>
    let payload := ⟨files.map fun entry => ⟨.sync entry.1, entry.2⟩⟩
    return some (vault.session.encodeSyncSnapshot P draw payload [])

/-- The files that a listing stands for. -/
def contents (payload : VaultExportPayload) : Table SyncPath Bytes :=
  (∅ : Table SyncPath Bytes).insertAll <| payload.files.filterMap fun file =>
    match file.relativePath, P.decodeB64 file.bytesB64 with
    | .sync path, some bytes => some (path, bytes)
    | _, _ => none

/-- A file of a snapshot opens: it is an envelope of the vault, named by the object it carries,
and a tombstone or encrypted under the epoch of the snapshot. -/
def FileOpens (vaultId : Uuid) (epoch : VaultEpochKey) (path : SyncPath) (bytes : Bytes) :
    Prop :=
  ∃ envelope, P.envelope.fromSlice bytes = some envelope ∧
    envelope.vaultId = vaultId ∧ envelope.format = "aipass-object" ∧ envelope.version = 1 ∧
    path.stem = P.uuidText envelope.objectId ∧
    (envelope.tombstone = false →
      ∃ plaintext, decryptEnvelopeWithEpoch P envelope epoch = .ok plaintext)

/-- The checks of one file pass exactly when it spells bytes that open. -/
theorem checkFile_eq_ok {snapshot : VaultSyncSnapshot} {epoch : VaultEpochKey} {path : SyncPath}
    {file : VaultExportFile} :
    checkFile P snapshot epoch path file = .ok () ↔
      ∃ bytes, file.bytesB64 = P.encodeB64 bytes ∧
        FileOpens P snapshot.header.vaultId epoch path bytes := by
  constructor
  · intro checked
    simp only [checkFile, bind_eq_ok, okOr_eq_ok] at checked
    obtain ⟨bytes, text, envelope, parsed, checked⟩ := checked
    refine ⟨bytes, P.encodeB64_of_decodeB64 text, envelope, parsed, ?_⟩
    split at checked
    · simp at checked
    case isFalse fields =>
      split at checked
      · simp at checked
      case isFalse named =>
        simp only [not_or, ne_eq, not_not] at fields named
        refine ⟨fields.1, fields.2.1, fields.2.2, named, fun live => ?_⟩
        rw [if_pos live, bind_eq_ok] at checked
        obtain ⟨plaintext, opened, -⟩ := checked
        exact ⟨plaintext, opened⟩
  · rintro ⟨bytes, text, envelope, parsed, vault, format, version, named, opens⟩
    simp only [checkFile, text, P.decodeB64_encodeB64, okOr_some, ok_bind, parsed]
    rw [if_neg (by simp [vault, format, version]), if_neg (by simp [named])]
    split
    case isTrue live =>
      obtain ⟨plaintext, opened⟩ := opens live
      rw [opened]
      rfl
    case isFalse => rfl

/-- The checks of a listing pass exactly when it lists files that open at distinct allowed
paths. -/
theorem checkFiles_eq_ok {snapshot : VaultSyncSnapshot} {epoch : VaultEpochKey}
    {paths : List SyncPath} {files : List VaultExportFile} :
    checkFiles P snapshot epoch paths files = .ok () ↔
      ∃ entries : List (SyncPath × Bytes), files = (listEntries P entries).files ∧
        (entries.map Prod.fst).Nodup ∧
        ∀ entry ∈ entries, entry.1 ∉ paths ∧ (snapshot.version = 2 → entry.1.dir ≠ .audit) ∧
          FileOpens P snapshot.header.vaultId epoch entry.1 entry.2 := by
  induction files generalizing paths with
  | nil =>
    refine ⟨fun _ => ⟨[], rfl, by simp, by simp⟩, fun _ => rfl⟩
  | cons file files ih =>
    constructor
    · intro checked
      simp only [checkFiles, bind_eq_ok, okOr_eq_ok] at checked
      obtain ⟨path, allowed, checked⟩ := checked
      split at checked
      · simp at checked
      case isFalse fresh =>
        rw [bind_eq_ok] at checked
        obtain ⟨⟨⟩, passed, rest⟩ := checked
        obtain ⟨bytes, text, opens⟩ := (checkFile_eq_ok P).mp passed
        obtain ⟨entries, rfl, distinct, accepted⟩ := ih.mp rest
        obtain ⟨relativePath, bytesB64⟩ := file
        obtain rfl : relativePath = .sync path := by
          cases relativePath <;> simp_all [syncPathAllowed]
        simp only at text
        subst text
        simp only [not_or, not_and] at fresh
        refine ⟨(path, bytes) :: entries, rfl, ?_, ?_⟩
        · rw [List.map_cons, List.nodup_cons]
          refine ⟨fun named => ?_, distinct⟩
          obtain ⟨entry, listed, same⟩ := List.mem_map.mp named
          exact (accepted entry listed).1 (by simp only at same; simp [same])
        · intro entry listed
          rcases List.mem_cons.mp listed with rfl | listed
          · exact ⟨fresh.2, fresh.1, opens⟩
          · obtain ⟨unseen, local', opened⟩ := accepted entry listed
            exact ⟨fun seen => unseen (List.mem_cons_of_mem _ seen), local', opened⟩
    · rintro ⟨entries, listed, distinct, accepted⟩
      cases entries with
      | nil => simp [listEntries] at listed
      | cons entry entries =>
        simp only [listEntries, List.map_cons, List.cons.injEq] at listed
        obtain ⟨rfl, rfl⟩ := listed
        rw [List.map_cons, List.nodup_cons] at distinct
        obtain ⟨unseen, local', opens⟩ := accepted entry List.mem_cons_self
        simp only [checkFiles, syncPathAllowed, okOr_some, ok_bind]
        rw [if_neg (by simp only [not_or, not_and]; exact ⟨local', unseen⟩),
          (checkFile_eq_ok P).mpr ⟨entry.2, rfl, opens⟩, ok_bind]
        refine ih.mpr ⟨entries, rfl, distinct.2, fun later listed => ?_⟩
        obtain ⟨unseen', local'', opens'⟩ := accepted later (List.mem_cons_of_mem _ listed)
        refine ⟨fun seen => ?_, local'', opens'⟩
        rcases List.mem_cons.mp seen with same | seen
        · exact distinct.1 (List.mem_map.mpr ⟨later, listed, same⟩)
        · exact unseen' seen

/-- What the acceptance of a snapshot says of the files it lists. -/
structure Decodes (session : Session) (bytes : Bytes) (snapshot : VaultSyncSnapshot)
    (entries : List (SyncPath × Bytes)) (epoch : VaultEpochKey) : Prop where
  /-- The bytes are a snapshot of a supported version with a valid header. -/
  parsed : VaultSyncSnapshot.parse P bytes = .ok snapshot
  /-- It is a snapshot of the vault of the session. -/
  sameVault : snapshot.header.vaultId = session.header.vaultId
  /-- Its listing was encrypted under the root key of the session. -/
  sealed : ∃ nonce plaintext, P.exportPayload.fromSlice plaintext = some (listEntries P entries) ∧
    snapshot.payload = encryptBytes P nonce session.rootKey (snapshot.aad P) plaintext
  /-- Its header unwraps its epoch key. -/
  unlocks : ∃ indexKey,
    unwrapEpochAndIndexKeys P session.rootKey snapshot.header .unlockFailed = .ok (epoch, indexKey)
  /-- It lists no path twice. -/
  distinct : (entries.map Prod.fst).Nodup
  /-- Version 2 lists no audit file. -/
  noAudit : snapshot.version = 2 → ∀ entry ∈ entries, entry.1.dir ≠ .audit
  /-- Every file listed opens. -/
  opens : ∀ entry ∈ entries, FileOpens P snapshot.header.vaultId epoch entry.1 entry.2

/-- A snapshot is accepted exactly when it is authentic and every file it lists opens. -/
theorem decodeSnapshot_eq_ok {session : Session} {bytes : Bytes} {snapshot : VaultSyncSnapshot}
    {payload : VaultExportPayload} :
    session.decodeSnapshot P bytes = .ok (snapshot, payload) ↔
      ∃ entries epoch, payload = listEntries P entries ∧
        Decodes P session bytes snapshot entries epoch := by
  constructor
  · intro decoded
    simp only [Session.decodeSnapshot, bind_eq_ok] at decoded
    obtain ⟨parsed, parses, decoded⟩ := decoded
    split at decoded
    · simp at decoded
    case isFalse vault =>
      simp only [bind_eq_ok, mapError_eq_ok, okOr_eq_ok] at decoded
      obtain ⟨plaintext, opened, listed, read, ⟨epoch, indexKey⟩, unlocked, ⟨⟩, checked,
        returned⟩ := decoded
      simp only [pure, Except.pure, Except.ok.injEq, Prod.mk.injEq] at returned
      obtain ⟨rfl, rfl⟩ := returned
      obtain ⟨entries, files, distinct, accepted⟩ := (checkFiles_eq_ok P).mp checked
      obtain rfl : listed = listEntries P entries := by
        cases listed
        exact congrArg VaultExportPayload.mk files
      obtain ⟨nonce, encrypted⟩ := (decryptBytes_eq_ok P).mp opened
      exact ⟨entries, epoch, rfl, parses, by simpa using vault,
        ⟨nonce, plaintext, read, encrypted⟩, ⟨indexKey, unlocked⟩, distinct,
        fun second entry listed => (accepted entry listed).2.1 second,
        fun entry listed => (accepted entry listed).2.2⟩
  · rintro ⟨entries, epoch, rfl, decodes⟩
    obtain ⟨nonce, plaintext, read, encrypted⟩ := decodes.sealed
    obtain ⟨indexKey, unlocked⟩ := decodes.unlocks
    have checked : checkFiles P snapshot epoch [] (listEntries P entries).files = .ok () :=
      (checkFiles_eq_ok P).mpr ⟨entries, rfl, decodes.distinct, fun entry listed =>
        ⟨by simp, fun second => decodes.noAudit second entry listed,
          decodes.opens entry listed⟩⟩
    simp only [Session.decodeSnapshot, decodes.parsed, ok_bind, decodes.sameVault, ne_eq,
      not_true_eq_false, ↓reduceIte, encrypted, decryptBytes_encryptBytes, Except.mapError, read,
      okOr_some, unlocked, checked]
    rfl

/-- Acceptance reads of a session only its vault and its root key. -/
theorem decodeSnapshot_congr {left right : Session} (sameKey : left.rootKey = right.rootKey)
    (sameVault : left.header.vaultId = right.header.vaultId) (bytes : Bytes) :
    left.decodeSnapshot P bytes = right.decodeSnapshot P bytes := by
  simp only [Session.decodeSnapshot, sameKey, sameVault]

/-- A listing stands for the files it lists. -/
theorem contents_listEntries (entries : List (SyncPath × Bytes)) :
    contents P (listEntries P entries) = (∅ : Table SyncPath Bytes).insertAll entries := by
  unfold contents listEntries
  congr 1
  induction entries with
  | nil => rfl
  | cons entry entries ih =>
    simp only [List.map_cons, List.filterMap_cons, P.decodeB64_encodeB64]
    rw [ih]

/-- The listing of a table stands for the table. -/
@[simp] theorem contents_listing (files : Table SyncPath Bytes) :
    contents P (listing P files) = files := by
  rw [listing, contents_listEntries, Table.insertAll_toList]

/-- What an accepted snapshot holds at a path is what it lists there. -/
theorem Decodes.get_contents {session : Session} {bytes : Bytes} {snapshot : VaultSyncSnapshot}
    {entries : List (SyncPath × Bytes)} {epoch : VaultEpochKey}
    (decodes : Decodes P session bytes snapshot entries epoch) {path : SyncPath}
    {held : Bytes} :
    (contents P (listEntries P entries))[path]? = some held ↔ (path, held) ∈ entries := by
  rw [contents_listEntries, Table.get_insertAll_iff decodes.distinct]

/-- A header that `parse` accepts. -/
def HeaderValid (header : VaultHeader) : Prop :=
  validateHeader header = .ok () ∧ validateImportKdf header.kdf = .ok ()

/-- A snapshot that parses is of a supported version and has a valid header. -/
theorem parse_valid {bytes : Bytes} {snapshot : VaultSyncSnapshot}
    (parsed : VaultSyncSnapshot.parse P bytes = .ok snapshot) :
    (snapshot.version = 1 ∨ snapshot.version = 2) ∧ HeaderValid snapshot.header ∧
      P.snapshot.fromSlice bytes = some snapshot ∧
      ∀ parent ∈ snapshot.parents, parent.id?.isSome := by
  simp only [VaultSyncSnapshot.parse, bind_eq_ok, okOr_eq_ok] at parsed
  obtain ⟨read, decoded, parsed⟩ := parsed
  split at parsed
  · simp at parsed
  case isFalse known =>
    simp only [bind_eq_ok] at parsed
    obtain ⟨⟨⟩, header, ⟨⟩, kdf, parsed⟩ := parsed
    split at parsed
    · simp at parsed
    case isFalse hex =>
      obtain rfl : read = snapshot := by simpa [pure, Except.pure] using parsed
      refine ⟨?_, ⟨header, kdf⟩, decoded, fun parent named => ?_⟩
      · simp only [not_or, not_and, ne_eq, not_not] at known
        by_cases first : read.version = 1
        · exact Or.inl first
        · exact Or.inr (known.2 first)
      · simp only [List.any_eq_true, not_exists, not_and] at hex
        simpa [Option.isSome_iff_ne_none] using hex parent named

/-- A snapshot that is accepted and is not of version 1 lists no audit file. -/
theorem Decodes.noAudit_of_ne {session : Session} {bytes : Bytes} {snapshot : VaultSyncSnapshot}
    {entries : List (SyncPath × Bytes)} {epoch : VaultEpochKey}
    (decodes : Decodes P session bytes snapshot entries epoch) (later : snapshot.version ≠ 1) :
    ∀ entry ∈ entries, entry.1.dir ≠ .audit :=
  decodes.noAudit ((parse_valid P decodes.parsed).1.resolve_left later)

/-- The snapshot that an encoding spells. -/
def encodedSnapshot (rootKey : Key) (draw : SnapshotDraw) (header : VaultHeader)
    (files : VaultExportPayload) (parents : List SnapshotId) (version : UInt16) :
    VaultSyncSnapshot where
  format := "aipass-vault-sync"
  version
  parents := parents.map ParentText.digest
  createdAt := draw.createdAt
  header
  payload := encryptBytes P draw.nonce rootKey
    (P.snapshotAad.toVec ("aipass-vault-sync", version, parents.map ParentText.digest,
      draw.createdAt, header)) (P.exportPayload.toVec files)

/-- An encoding under a valid header parses. -/
theorem parse_encode {rootKey : Key} {draw : SnapshotDraw} {header : VaultHeader}
    {files : VaultExportPayload} {parents : List SnapshotId} {version : UInt16}
    (supported : version = 1 ∨ version = 2) (valid : HeaderValid header) :
    VaultSyncSnapshot.parse P
        (encodeSnapshotWithHeader P rootKey draw header files parents version) =
      .ok (encodedSnapshot P rootKey draw header files parents version) := by
  have known : ¬ (version ≠ 1 ∧ version ≠ 2) := by
    rcases supported with rfl | rfl <;> decide
  have hex : (parents.map ParentText.digest).any (fun parent => parent.id?.isNone) = false := by
    simp [ParentText.id?]
  simp only [VaultSyncSnapshot.parse, encodeSnapshotWithHeader, Serde.fromSlice_toVec, okOr_some,
    ok_bind, known, valid.1, valid.2, hex]
  rfl

/-- An encoding names the parents it was given. -/
@[simp] theorem parentIds_encodedSnapshot (rootKey : Key) (draw : SnapshotDraw)
    (header : VaultHeader) (files : VaultExportPayload) (parents : List SnapshotId)
    (version : UInt16) :
    (encodedSnapshot P rootKey draw header files parents version).parentIds = parents := by
  simp only [VaultSyncSnapshot.parentIds, encodedSnapshot]
  induction parents with
  | nil => rfl
  | cons parent parents ih => simpa [ParentText.id?] using ih

/-- An encoding of files that open under its header is accepted. -/
theorem decodes_encode (session : Session) {draw : SnapshotDraw} {header : VaultHeader}
    {entries : List (SyncPath × Bytes)} {parents : List SnapshotId} {version : UInt16}
    {epoch : VaultEpochKey} {indexKey : Key} (supported : version = 1 ∨ version = 2)
    (valid : HeaderValid header) (sameVault : header.vaultId = session.header.vaultId)
    (unlocks : unwrapEpochAndIndexKeys P session.rootKey header .unlockFailed =
      .ok (epoch, indexKey))
    (distinct : (entries.map Prod.fst).Nodup)
    (noAudit : version = 2 → ∀ entry ∈ entries, entry.1.dir ≠ .audit)
    (opens : ∀ entry ∈ entries, FileOpens P header.vaultId epoch entry.1 entry.2) :
    Decodes P session
      (encodeSnapshotWithHeader P session.rootKey draw header (listEntries P entries) parents
        version)
      (encodedSnapshot P session.rootKey draw header (listEntries P entries) parents version)
      entries epoch where
  parsed := parse_encode P supported valid
  sameVault := sameVault
  sealed := ⟨draw.nonce, _, P.exportPayload.fromSlice_toVec _, rfl⟩
  unlocks := ⟨indexKey, unlocks⟩
  distinct := distinct
  noAudit := noAudit
  opens := opens

/-- What is decoded from an encoding under the same root key is what was encoded. -/
theorem decode_encode {session : Session} {draw : SnapshotDraw} {header : VaultHeader}
    {files payload : VaultExportPayload} {parents : List SnapshotId} {version : UInt16}
    {snapshot : VaultSyncSnapshot}
    (decoded : session.decodeSnapshot P
      (encodeSnapshotWithHeader P session.rootKey draw header files parents version) =
        .ok (snapshot, payload)) :
    snapshot = encodedSnapshot P session.rootKey draw header files parents version ∧
      payload = files := by
  obtain ⟨entries, epoch, rfl, decodes⟩ := (decodeSnapshot_eq_ok P).mp decoded
  obtain ⟨-, -, read, -⟩ := parse_valid P decodes.parsed
  have spelled : encodedSnapshot P session.rootKey draw header files parents version =
      snapshot := by
    simpa [encodeSnapshotWithHeader, encodedSnapshot] using read
  subst spelled
  refine ⟨rfl, ?_⟩
  obtain ⟨nonce, plaintext, listed, encrypted⟩ := decodes.sealed
  have opened := (decryptBytes_eq_ok P).mpr ⟨nonce, encrypted⟩
  simp only [encodedSnapshot, VaultSyncSnapshot.aad, decryptBytes_encryptBytes,
    Except.ok.injEq] at opened
  rw [← opened, Serde.fromSlice_toVec, Option.some.injEq] at listed
  exact listed.symm

end Aipass
