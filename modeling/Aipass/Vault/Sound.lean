import Aipass.Vault.Merge
import Aipass.Vault.Operations
import Aipass.Vault.Rollback
import Aipass.Vault.Rotation

/-!
# Vaults and snapshots of well-formed files

`Sane` vaults hold files that are well formed under their session, and `Sound` snapshots list
files that are well formed under their epoch. Operations, exports, merges, rotations and the
application of a snapshot lead from one to the other.
-/
namespace Aipass

/-- What the devices of one vault share: its identifier, its root key, and the key that was
drawn with each epoch name. -/
structure VaultKeys where
  vaultId : Uuid
  rootKey : Key
  epochKey : VaultEpoch → Key

variable (P : Platform) (keys : VaultKeys)

/-- An unlocked vault of the owner with no journal. -/
structure Unlocked (vault : Vault) : Prop where
  /-- It has the root key. -/
  rootKey : vault.session.rootKey = keys.rootKey
  /-- It is the vault. -/
  vaultId : vault.session.header.vaultId = keys.vaultId
  /-- Its header is valid. -/
  valid : HeaderValid vault.session.header
  /-- Its header wraps its keys. -/
  unlocks : unwrapEpochAndIndexKeys P vault.session.rootKey vault.session.header .unlockFailed =
    .ok (vault.session.epochKey, vault.session.indexKey)
  /-- Its epoch key is the one that goes by its name. -/
  keyed : vault.session.epochKey.key = keys.epochKey vault.session.epochKey.epoch
  /-- No journal is left. -/
  ready : vault.disk.pending = none

/-- An unlocked vault whose files are well formed under its session. -/
structure Sane (erased : Prop) (vault : Vault) : Prop extends Unlocked P keys vault where
  /-- Every file is well formed. -/
  stored : ∀ (path : SyncPath) (bytes : Bytes), vault.disk.files[path]? = some bytes →
    Stored P erased vault.session path bytes

/-- A listing of files that are well formed under an epoch. -/
def ListsWellFormed (erased : Prop) (vaultId : Uuid) (epoch : VaultEpochKey)
    (payload : VaultExportPayload) : Prop :=
  ∀ file ∈ payload.files, ∃ path held envelope,
    file = ⟨.sync path, P.encodeB64 held⟩ ∧ WellFormed P erased vaultId epoch path held envelope

/-- A snapshot that, if it is accepted, lists well-formed files of its epoch. -/
def Sound (erased : Prop) (bytes : Bytes) : Prop :=
  ∀ session : Session, session.rootKey = keys.rootKey → session.header.vaultId = keys.vaultId →
    ∀ snapshot payload, session.decodeSnapshot P bytes = .ok (snapshot, payload) →
      ∃ epoch indexKey,
        unwrapEpochAndIndexKeys P keys.rootKey snapshot.header .unlockFailed =
          .ok (epoch, indexKey) ∧
        epoch.key = keys.epochKey epoch.epoch ∧
        ListsWellFormed P erased keys.vaultId epoch payload

section Preserved

variable {P keys} {erased : Prop} {vault : Vault}

/-- A tombstone is well formed under every epoch. -/
theorem WellFormed.of_tombstone {vaultId : Uuid} {epoch next : VaultEpochKey} {path : SyncPath}
    {bytes : Bytes} {envelope : ObjectEnvelope}
    (wellFormed : WellFormed P erased vaultId epoch path bytes envelope)
    (tombstone : envelope.tombstone = true) :
    WellFormed P erased vaultId next path bytes envelope :=
  { wellFormed with live := fun alive => absurd alive (by simp [tombstone]) }

/-- A well-formed audit file is well formed under the next epoch once it is rewrapped. -/
theorem WellFormed.rewrap {session : Session} {header : VaultHeader} {next : VaultEpochKey}
    {draws : SyncPath → EnvelopeDraw} {vaultId : Uuid} {path : SyncPath} {bytes : Bytes}
    {envelope : ObjectEnvelope}
    (wellFormed : WellFormed P erased vaultId session.epochKey path bytes envelope) :
    ∃ envelope', WellFormed P erased vaultId next path
      (rewrapAt P draws session header next path bytes) envelope' := by
  cases tombstone : envelope.tombstone with
  | true =>
    refine ⟨envelope, ?_⟩
    simpa [rewrapAt, rewrapped, wellFormed.parsed, tombstone, pure, Except.pure] using
      wellFormed.of_tombstone tombstone
  | false =>
    obtain ⟨plaintext, opens⟩ := wellFormed.live tombstone
    cases already : decryptEnvelopeWithEpoch P envelope next with
    | ok text =>
      refine ⟨envelope, ?_⟩
      have kept : WellFormed P erased vaultId next path bytes envelope :=
        { wellFormed with live := fun _ => ⟨text, already⟩ }
      simpa [rewrapAt, rewrapped, wellFormed.parsed, tombstone, already, pure, Except.pure] using
        kept
    | error error =>
      have written : rewrapAt P draws session header next path bytes =
          P.envelope.toVecPretty (encryptEnvelope P (draws path) { envelope with
            deviceId := session.deviceId
            updatedAt := header.updatedAt
            lamport := saturatingAdd envelope.lamport 1 } plaintext next) := by
        simp [rewrapAt, rewrapped, wellFormed.parsed, tombstone, already, opens, pure, Except.pure]
      exact ⟨_, wellFormed.reencrypt tombstone (Or.inr written)⟩

/-- An entry of a listing of well-formed files is one. -/
theorem ListsWellFormed.entry {vaultId : Uuid} {epoch : VaultEpochKey}
    {entries : List (SyncPath × Bytes)}
    (listed : ListsWellFormed P erased vaultId epoch (listEntries P entries)) {path : SyncPath}
    {held : Bytes} (entry : (path, held) ∈ entries) :
    ∃ envelope, WellFormed P erased vaultId epoch path held envelope := by
  obtain ⟨place, found, envelope, spelled, wellFormed⟩ := listed ⟨.sync path, P.encodeB64 held⟩
    (List.mem_map.mpr ⟨(path, held), entry, rfl⟩)
  obtain ⟨rfl, text⟩ : path = place ∧ P.encodeB64 held = P.encodeB64 found := by
    simpa using spelled
  obtain rfl := encodeB64_injective P text
  exact ⟨envelope, wellFormed⟩

/-- The names of epochs tell their keys apart. -/
theorem Sane.epochKey_unique (sane : Sane P keys erased vault) {epoch : VaultEpochKey}
    (keyed : epoch.key = keys.epochKey epoch.epoch)
    (same : epoch.epoch = vault.session.epochKey.epoch) : epoch = vault.session.epochKey := by
  obtain ⟨name, key⟩ := epoch
  simp only at keyed same
  rw [keyed, same, ← sane.keyed]

/-- A vault that installed a snapshot of well-formed files is sane. -/
theorem Sane.finished (sane : Sane P keys erased vault) (draws : SyncPath → EnvelopeDraw)
    {bytes : Bytes} {snapshot : VaultSyncSnapshot} {entries : List (SyncPath × Bytes)}
    {epoch : VaultEpochKey} {indexKey : Key}
    (decodes : Decodes P vault.session bytes snapshot entries epoch)
    (unlocks : unwrapEpochAndIndexKeys P vault.session.rootKey snapshot.header .unlockFailed =
      .ok (epoch, indexKey))
    (keyed : epoch.key = keys.epochKey epoch.epoch)
    (listed : ListsWellFormed P erased keys.vaultId epoch (listEntries P entries)) :
    Sane P keys erased
      (finished P draws (vault.withPending (some bytes)) snapshot entries epoch indexKey) where
  rootKey := sane.rootKey
  vaultId := decodes.sameVault.trans sane.vaultId
  valid := (parse_valid P decodes.parsed).2.1
  unlocks := unlocks
  keyed := keyed
  ready := rfl
  stored path held found := by
    have sameVault : snapshot.header.vaultId = keys.vaultId :=
      decodes.sameVault.trans sane.vaultId
    change ∃ envelope, WellFormed P erased snapshot.header.vaultId epoch path held envelope
    change (finishedFiles P draws vault.session snapshot entries epoch
      vault.disk.files)[path]? = some held at found
    rw [get_finishedFiles P _ _ _ _ decodes.distinct (decodes.noAudit_of_ne P)] at found
    rw [sameVault]
    split at found
    case isTrue covered =>
      exact listed.entry (Table.mem_of_get_insertAll entries path held found decodes.distinct)
    case isFalse uncovered =>
      split at found
      case isTrue rewraps =>
        obtain ⟨before, present, rfl⟩ := Option.map_eq_some_iff.mp found
        obtain ⟨envelope, wellFormed⟩ := sane.stored path before present
        rw [sane.vaultId] at wellFormed
        exact wellFormed.rewrap
      case isFalse keeps =>
        -- The snapshot is of version 2 and of the same epoch, so the key is the same.
        have second : snapshot.version = 2 :=
          (parse_valid P decodes.parsed).1.resolve_left fun first => uncovered (Or.inl first)
        have sameEpoch : snapshot.header.currentEpoch = vault.session.header.currentEpoch := by
          by_contra differ
          exact keeps ⟨second, differ⟩
        have name : epoch.epoch = vault.session.epochKey.epoch := by
          rw [epoch_of_unwrapEpochAndIndexKeys P unlocks, sameEpoch,
            epoch_of_unwrapEpochAndIndexKeys P sane.unlocks]
        rw [sane.epochKey_unique keyed name, ← sane.vaultId]
        exact sane.stored path held found

/-- Applying a snapshot that is accepted installs it, if the audit files that it rewraps can be
read. -/
theorem wp_applySyncSnapshot_of_decodes {bytes : Bytes} {snapshot : VaultSyncSnapshot}
    {entries : List (SyncPath × Bytes)} {epoch : VaultEpochKey} {indexKey : Key}
    (noJournal : vault.disk.pending = none)
    (decodes : Decodes P vault.session bytes snapshot entries epoch)
    (unlocks : unwrapEpochAndIndexKeys P vault.session.rootKey snapshot.header .unlockFailed =
      .ok (epoch, indexKey)) (draws : ApplyDraws)
    (readable : Rewraps vault.session snapshot → ∀ (path : SyncPath) (held : Bytes),
      path.dir = .audit → vault.disk.files[path]? = some held →
        AuditReadable P vault.session.epochKey epoch held) :
    (applySyncSnapshot P draws bytes).wp (fun _ => True) (fun _ _ => False)
      (fun _ left => left = Aipass.finished P draws.forward (vault.withPending (some bytes))
        snapshot entries epoch indexKey) vault := by
  have ready : ensureSyncReady vault = .ok () := by simp [ensureSyncReady, noJournal]
  have decoded := (decodeSnapshot_eq_ok P).mpr ⟨entries, epoch, rfl, decodes⟩
  have replay := wp_finishPendingSync P draws.forward (vault.withPending (some bytes)) rfl decodes
    unlocks readable
  simp only [applySyncSnapshot, setPending, Program.wp_bind, Program.wp_read,
    Program.wp_ofExcept, decoded, ready, Program.wp_write, Program.wp_attempt, true_and]
  refine Program.wp_mono replay (fun _ _ => trivial) (fun _ _ none => none.elim) ?_
  rintro _ _ rfl
  exact (Program.wp_pure _).mpr rfl

/-- Applying a snapshot to a sane vault installs it if it is accepted, and changes nothing
otherwise. -/
theorem Sane.wp_applySyncSnapshot (sane : Sane P keys erased vault) (draws : ApplyDraws)
    (bytes : Bytes) :
    (applySyncSnapshot P draws bytes).wp (fun _ => True)
      (fun error left => left = vault ∧ vault.session.decodeSnapshot P bytes = .error error)
      (fun _ left => ∃ snapshot entries epoch indexKey,
        Decodes P vault.session bytes snapshot entries epoch ∧
        unwrapEpochAndIndexKeys P vault.session.rootKey snapshot.header .unlockFailed =
          .ok (epoch, indexKey) ∧
        left = Aipass.finished P draws.forward (vault.withPending (some bytes)) snapshot entries
          epoch indexKey) vault := by
  rcases exists_ok_or_error (vault.session.decodeSnapshot P bytes) with
    ⟨⟨snapshot, payload⟩, decoded⟩ | ⟨error, refused⟩
  · obtain ⟨entries, epoch, rfl, decodes⟩ := (decodeSnapshot_eq_ok P).mp decoded
    obtain ⟨indexKey, unlocks⟩ := decodes.unlocks
    have readable : Rewraps vault.session snapshot → ∀ (path : SyncPath) (held : Bytes),
        path.dir = .audit → vault.disk.files[path]? = some held →
          AuditReadable P vault.session.epochKey epoch held := by
      intro _ path held _ found
      obtain ⟨envelope, wellFormed⟩ := sane.stored path held found
      exact auditReadable_of_fileOpens P wellFormed.fileOpens
    refine Program.wp_mono (wp_applySyncSnapshot_of_decodes sane.ready decodes unlocks draws
      readable) (fun _ _ => trivial) (fun _ _ none => none.elim) ?_
    rintro _ _ rfl
    exact ⟨snapshot, entries, epoch, indexKey, decodes, unlocks, rfl⟩
  · simp [applySyncSnapshot, refused]

/-- A sound snapshot leaves the vault sane, whether or not it is accepted. -/
theorem Sane.wp_apply (sane : Sane P keys erased vault) (draws : ApplyDraws) {bytes : Bytes}
    (sound : Sound P keys erased bytes) :
    (applySyncSnapshot P draws bytes).wp (fun _ => True) (fun _ => Sane P keys erased)
      (fun _ => Sane P keys erased) vault := by
  refine Program.wp_mono (sane.wp_applySyncSnapshot draws bytes) (fun _ _ => trivial) ?_ ?_
  · rintro _ _ ⟨rfl, -⟩
    exact sane
  · rintro _ _ ⟨snapshot, entries, epoch, indexKey, decodes, unlocks, rfl⟩
    have decoded := (decodeSnapshot_eq_ok P).mpr ⟨entries, epoch, rfl, decodes⟩
    obtain ⟨epoch', indexKey', unlocks', keyed, files⟩ :=
      sound vault.session sane.rootKey sane.vaultId snapshot _ decoded
    rw [← sane.rootKey] at unlocks'
    obtain ⟨rfl, rfl⟩ : epoch = epoch' ∧ indexKey = indexKey' := by
      simpa [unlocks] using unlocks'
    exact sane.finished draws.forward decodes unlocks keyed files

/-- An encoding of well-formed files under a header of their epoch is sound. -/
theorem sound_encode {draw : SnapshotDraw} {header : VaultHeader} {files : VaultExportPayload}
    {parents : List SnapshotId} {version : UInt16} {epoch : VaultEpochKey} {indexKey : Key}
    (unlocks : unwrapEpochAndIndexKeys P keys.rootKey header .unlockFailed =
      .ok (epoch, indexKey))
    (keyed : epoch.key = keys.epochKey epoch.epoch)
    (listed : ListsWellFormed P erased keys.vaultId epoch files) :
    Sound P keys erased
      (encodeSnapshotWithHeader P keys.rootKey draw header files parents version) := by
  intro session rootKey _ snapshot payload decoded
  rw [← rootKey] at decoded
  obtain ⟨rfl, rfl⟩ := decode_encode P decoded
  exact ⟨epoch, indexKey, unlocks, keyed, listed⟩

/-- A listing of well-formed files lists well-formed files. -/
theorem listed_listing {epoch : VaultEpochKey} {files : Table SyncPath Bytes}
    (stored : ∀ (path : SyncPath) (held : Bytes), files[path]? = some held →
      ∃ envelope, WellFormed P erased keys.vaultId epoch path held envelope) :
    ListsWellFormed P erased keys.vaultId epoch (listing P files) := by
  intro file member
  obtain ⟨⟨path, held⟩, entry, rfl⟩ := List.mem_map.mp member
  obtain ⟨envelope, wellFormed⟩ := stored path held (Table.mem_toList.mp entry)
  exact ⟨path, held, envelope, rfl, wellFormed⟩

/-- The files of a sane vault are well formed under its epoch. -/
theorem Sane.wellFormed (sane : Sane P keys erased vault) {path : SyncPath} {held : Bytes}
    (found : vault.disk.files[path]? = some held) :
    ∃ envelope, WellFormed P erased keys.vaultId vault.session.epochKey path held envelope := by
  rw [← sane.vaultId]
  exact sane.stored path held found

/-- The files a sane vault exports are well formed. -/
theorem Sane.listed (sane : Sane P keys erased vault) (includeAudit : Bool) :
    ListsWellFormed P erased keys.vaultId vault.session.epochKey
      (syncFiles P vault.disk.files includeAudit) := by
  unfold syncFiles
  split
  · exact listed_listing fun path held found => sane.wellFormed found
  · exact listed_listing fun path held found => sane.wellFormed (get_of_withoutAudit found).2

/-- What a sane vault exports under its own header is sound. -/
theorem Sane.sound_encode (sane : Sane P keys erased vault) {draw : SnapshotDraw}
    {files : VaultExportPayload} {parents : List SnapshotId} {version : UInt16}
    (listed : ListsWellFormed P erased keys.vaultId vault.session.epochKey files) :
    Sound P keys erased (encodeSnapshotWithHeader P vault.session.rootKey draw
      vault.session.header files parents version) := by
  rw [sane.rootKey]
  exact Aipass.sound_encode (by rw [← sane.rootKey]; exact sane.unlocks) sane.keyed listed

/-- What a sane vault exports under its own header is accepted by every session of the vault. -/
theorem Sane.decode_files (sane : Sane P keys erased vault) {session : Session}
    (rootKey : session.rootKey = keys.rootKey) (vaultId : session.header.vaultId = keys.vaultId)
    (draw : SnapshotDraw) (files : Table SyncPath Bytes) (parents : List SnapshotId)
    (stored : ∀ (path : SyncPath) (held : Bytes), files[path]? = some held → path.dir ≠ .audit ∧
      ∃ envelope, WellFormed P erased keys.vaultId vault.session.epochKey path held envelope) :
    session.decodeSnapshot P (vault.session.encodeSyncSnapshot P draw (listing P files) parents) =
      .ok (encodedSnapshot P vault.session.rootKey draw vault.session.header (listing P files)
        parents 2, listing P files) := by
  refine (decodeSnapshot_eq_ok P).mpr ⟨files.toList, vault.session.epochKey, rfl, ?_⟩
  have unlocks := sane.unlocks
  rw [sane.rootKey, ← rootKey] at unlocks
  rw [Session.encodeSyncSnapshot, sane.rootKey, ← rootKey]
  refine decodes_encode P session (Or.inr rfl) sane.valid (by rw [sane.vaultId, vaultId]) unlocks
    (Table.toList_keys_nodup files) ?_ ?_
  · rintro - ⟨path, held⟩ entry
    exact (stored path held (Table.mem_toList.mp entry)).1
  · rintro ⟨path, held⟩ entry
    obtain ⟨-, envelope, wellFormed⟩ := stored path held (Table.mem_toList.mp entry)
    rw [sane.vaultId]
    exact wellFormed.fileOpens

/-- A merge of a sane vault with a sound snapshot encodes files outside `audit/` that are well
formed under its epoch. -/
theorem Sane.merged (sane : Sane P keys erased vault) {draw : SnapshotDraw}
    {remote base bytes : Bytes} (sound : Sound P keys erased remote)
    (merged : vault.mergeSyncSnapshot P draw remote base = .ok (some bytes)) :
    ∃ files : Table SyncPath Bytes,
      bytes = vault.session.encodeSyncSnapshot P draw (listing P files) [] ∧
      ∀ (path : SyncPath) (held : Bytes), files[path]? = some held → path.dir ≠ .audit ∧
        ∃ envelope, WellFormed P erased keys.vaultId vault.session.epochKey path held envelope := by
  obtain ⟨snapshot, payload, _, _, files, decoded, -, header, -, picked, rfl⟩ :=
    (mergeSyncSnapshot_eq_some P).mp merged
  obtain ⟨epoch, indexKey, unlocks, -, listed⟩ :=
    sound vault.session sane.rootKey sane.vaultId snapshot payload decoded
  obtain rfl : epoch = vault.session.epochKey := by
    have own := sane.unlocks
    rw [sane.rootKey, ← header, unlocks, Except.ok.injEq] at own
    exact congrArg Prod.fst own
  refine ⟨files, rfl, fun path held found => ?_⟩
  have choice := Table.merge_eq_some.mp picked path
  rw [found] at choice
  rcases (picked_of_choose choice).1 with ours | theirs
  · obtain ⟨outside, ours⟩ := get_of_withoutAudit ours.symm
    exact ⟨outside, sane.wellFormed ours⟩
  · obtain ⟨entries, epoch, rfl, decodes⟩ := (decodeSnapshot_eq_ok P).mp decoded
    obtain ⟨outside, theirs⟩ := get_of_withoutAudit theirs.symm
    exact ⟨outside, listed.entry ((decodes.get_contents P).mp theirs)⟩

/-- The merge of sound snapshots with a sane vault is sound. -/
theorem Sane.merge (sane : Sane P keys erased vault) {draw : SnapshotDraw}
    {remote base bytes : Bytes} (sound : Sound P keys erased remote)
    (merged : vault.mergeSyncSnapshot P draw remote base = .ok (some bytes)) :
    Sound P keys erased bytes := by
  obtain ⟨files, rfl, stored⟩ := sane.merged sound merged
  exact sane.sound_encode (listed_listing fun path held found => (stored path held found).2)

/-- A file of a sane vault is well formed under the next epoch once it is rotated. -/
theorem WellFormed.rotate {session : Session} {draws : RelPath → EnvelopeDraw}
    {next : VaultEpochKey} {now : OffsetDateTime} {revokedDevice : Option Uuid} {vaultId : Uuid}
    {path : SyncPath} {held : Bytes} {envelope : ObjectEnvelope} {file : VaultExportFile}
    (wellFormed : WellFormed P erased vaultId session.epochKey path held envelope)
    (rotated : session.rotateFile P draws next now revokedDevice
      ⟨.sync path, P.encodeB64 held⟩ = .ok file) :
    ∃ held' envelope', file = ⟨.sync path, P.encodeB64 held'⟩ ∧
      WellFormed P erased vaultId next path held' envelope' := by
  simp only [Session.rotateFile, P.decodeB64_encodeB64, wellFormed.parsed, okOr_some,
    ok_bind] at rotated
  split at rotated
  case isTrue tombstone =>
    obtain rfl : (⟨.sync path, P.encodeB64 held⟩ : VaultExportFile) = file := by
      simpa [pure, Except.pure] using rotated
    exact ⟨held, envelope, rfl, wellFormed.of_tombstone tombstone⟩
  case isFalse alive =>
    obtain ⟨plaintext, -, rotated⟩ := bind_eq_ok.mp rotated
    obtain ⟨plaintext', -, rotated⟩ := bind_eq_ok.mp rotated
    simp only [pure, Except.pure, Except.ok.injEq] at rotated
    exact ⟨_, _, rotated.symm, wellFormed.reencrypt (by simpa using alive) (Or.inl rfl)⟩

/-- The header of the next epoch wraps its key. -/
theorem unwrap_rotatedHeader {session : Session} {draws : RotationDraws} {header : VaultHeader}
    (sameVault : header.vaultId = session.header.vaultId)
    (sameIndex : header.wrappedIndexKey = session.header.wrappedIndexKey)
    (unlocks : unwrapEpochAndIndexKeys P session.rootKey session.header .unlockFailed =
      .ok (session.epochKey, session.indexKey)) :
    unwrapEpochAndIndexKeys P session.rootKey (session.rotatedHeader P draws header)
      .unlockFailed = .ok (advanceEpoch draws.epoch session.epochKey, session.indexKey) := by
  simp only [unwrapEpochAndIndexKeys, bind_eq_ok, pure, Except.pure, Except.ok.injEq,
    Prod.mk.injEq, mapError_eq_ok] at unlocks
  obtain ⟨_, _, indexBytes, indexOpens, _, _, _, index, -, rfl⟩ := unlocks
  simp only [unwrapEpochAndIndexKeys, Session.rotatedHeader, decryptBytes_encryptBytes, sameVault,
    sameIndex, indexOpens, Except.mapError, ok_bind, Key.ofBytes?_bytes, okOr_some, index]
  rfl

/-- The audit event of a rotation is a well-formed file. -/
theorem stored_rotationEvent (vault : Vault) (draw : AuditDraw) (reason : String) :
    ∃ held, vault.rotationEvent P draw reason =
        ⟨.sync (auditPath P draw.id), P.encodeB64 held⟩ ∧
      Stored P erased vault.session (auditPath P draw.id) held := by
  refine ⟨_, rfl, stored_buildEnvelope vault ?_ ?_ (Or.inl rfl)⟩
  · rfl
  · decide

/-- A prepared rotation of a sane vault is sound. -/
theorem Sane.prepareEpochRotation (sane : Sane P keys erased vault) {draws : RotationDraws}
    {header : VaultHeader} {reason : String} {revokedDevice : Option Uuid} {bytes : Bytes}
    (sameVault : header.vaultId = vault.session.header.vaultId)
    (sameIndex : header.wrappedIndexKey = vault.session.header.wrappedIndexKey)
    (keyed : draws.epoch.key =
      keys.epochKey (advanceEpoch draws.epoch vault.session.epochKey).epoch)
    (prepared : vault.prepareEpochRotation P draws header reason revokedDevice = .ok bytes) :
    Sound P keys erased bytes := by
  simp only [Vault.prepareEpochRotation, bind_eq_ok, pure, Except.pure,
    Except.ok.injEq] at prepared
  obtain ⟨-, -, files, rotated, rfl⟩ := prepared
  have unlocks : unwrapEpochAndIndexKeys P vault.session.rootKey
      (vault.session.rotatedHeader P draws header) .unlockFailed = _ :=
    unwrap_rotatedHeader sameVault sameIndex sane.unlocks
  rw [sane.rootKey] at unlocks ⊢
  refine Aipass.sound_encode unlocks keyed fun file member => ?_
  obtain ⟨original, listed, rotates⟩ := mem_mapM rotated member
  have source : ∃ path held envelope, original = ⟨.sync path, P.encodeB64 held⟩ ∧
      WellFormed P erased keys.vaultId vault.session.epochKey path held envelope := by
    rcases List.mem_append.mp listed with own | event
    · exact sane.listed true original own
    · obtain rfl := List.mem_singleton.mp event
      obtain ⟨held, spelled, envelope, wellFormed⟩ :=
        stored_rotationEvent vault draws.event reason
      rw [sane.vaultId] at wellFormed
      exact ⟨_, held, envelope, spelled, wellFormed⟩
  obtain ⟨path, held, envelope, rfl, wellFormed⟩ := source
  obtain ⟨held', envelope', spelled, rotated⟩ := wellFormed.rotate rotates
  exact ⟨path, held', envelope', spelled, rotated⟩

/-- A request leaves the vault sane, unless it expires a grant and a tombstone may not keep a
payload. -/
theorem Sane.operate (sane : Sane P keys erased vault) (operation : Operation)
    (mayKeep : operation.Expires P vault → erased) :
    Sane P keys erased ((operation.program P).run vault).final := by
  have kept : Kept P erased vault vault := ⟨rfl, rfl, rfl, sane.stored⟩
  have left := Program.wp_final _ _ (wp_operation operation kept mayKeep)
  obtain ⟨session, -, pending, stored⟩ := left
  refine ⟨⟨?_, ?_, ?_, ?_, ?_, ?_⟩, ?_⟩
  · rw [session]; exact sane.rootKey
  · rw [session]; exact sane.vaultId
  · rw [session]; exact sane.valid
  · rw [session]; exact sane.unlocks
  · rw [session]; exact sane.keyed
  · rw [pending]; exact sane.ready
  · rw [session]; exact stored

end Preserved

end Aipass
