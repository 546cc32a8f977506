import Aipass.Vault.Replay
import Aipass.Vault.Sample

/-!
# Rolling back a failed snapshot

`apply_sync_snapshot` rolls a failed replay back by replaying a recovery journal. With file
operations that succeed, only the rewrapping of local audit files can fail, and then the
recovery journal holds the very file that could not be read. `rollbackTotal_iff` says that the
rollback restores the directory exactly when there is nothing to roll back.
-/
namespace Aipass

variable (P : Platform)

/-- The vault that `Vault::open_with_root_key` builds from a directory, before it replays a
journal. -/
def Disk.openWithRootKey (disk : Disk) (rootKey : Key) (deviceId : Uuid) :
    Except VaultError Vault := do
  let manifest ← okOr .io disk.manifest
  let header ← okOr .json (P.header.fromSlice manifest)
  validateHeader header
  let (epochKey, indexKey) ← unwrapEpochAndIndexKeys P rootKey header .unlockFailed
  return ⟨disk, ⟨header, rootKey, epochKey, indexKey, deviceId⟩⟩

/-- An unlocked vault with no journal: its session is the one its directory opens as. -/
structure Opened (vault : Vault) : Prop where
  /-- The directory opens as this session. -/
  opens : vault.disk.openWithRootKey P vault.session.rootKey vault.session.deviceId = .ok vault
  /-- No journal is left. -/
  ready : vault.disk.pending = none

/-- The keys of an unlocked vault are those its header wraps. -/
theorem Opened.unlocks {vault : Vault} (opened : Opened P vault) :
    validateHeader vault.session.header = .ok () ∧
      unwrapEpochAndIndexKeys P vault.session.rootKey vault.session.header .unlockFailed =
        .ok (vault.session.epochKey, vault.session.indexKey) := by
  have opens := opened.opens
  simp only [Disk.openWithRootKey, bind_eq_ok, okOr_eq_ok, pure, Except.pure,
    Except.ok.injEq] at opens
  obtain ⟨manifest, -, header, -, ⟨⟩, valid, ⟨epochKey, indexKey⟩, unlocks, same⟩ := opens
  have session := congrArg Vault.session same
  simp only at session
  rw [← session]
  exact ⟨valid, unlocks⟩

/-- The recovery journal of a vault is accepted only if each of its files opens under the epoch
of the vault. -/
theorem opens_of_decode_export {vault : Vault} {draw : SnapshotDraw}
    (unlocks : unwrapEpochAndIndexKeys P vault.session.rootKey vault.session.header .unlockFailed =
      .ok (vault.session.epochKey, vault.session.indexKey))
    {decoded : VaultSyncSnapshot × VaultExportPayload}
    (accepted : vault.session.decodeSnapshot P (vault.exportSyncSnapshot P draw) = .ok decoded)
    {path : SyncPath} {held : Bytes} (found : vault.disk.files[path]? = some held) :
    FileOpens P vault.session.header.vaultId vault.session.epochKey path held := by
  obtain ⟨snapshot, payload⟩ := decoded
  obtain ⟨rfl, rfl⟩ := decode_encode P accepted
  obtain ⟨entries, epoch, spelled, decodes⟩ := (decodeSnapshot_eq_ok P).mp accepted
  obtain ⟨indexKey, unwraps⟩ := decodes.unlocks
  obtain ⟨rfl, rfl⟩ : vault.session.epochKey = epoch ∧ vault.session.indexKey = indexKey := by
    simpa [encodedSnapshot, unlocks] using unwraps
  have held : contents P (syncFiles P vault.disk.files true) = vault.disk.files :=
    contents_listing P vault.disk.files
  rw [spelled] at held
  exact decodes.opens _ ((decodes.get_contents P).mp (by rw [held, found]))

/-- A file that opens under the current epoch is readable for a rewrap. -/
theorem auditReadable_of_fileOpens {vaultId : Uuid} {current next : VaultEpochKey}
    {path : SyncPath} {held : Bytes} (opens : FileOpens P vaultId current path held) :
    AuditReadable P current next held := by
  obtain ⟨envelope, parsed, -, -, -, -, live⟩ := opens
  refine ⟨envelope, parsed, ?_⟩
  cases tombstone : envelope.tombstone with
  | true => exact Or.inl rfl
  | false => exact Or.inr (Or.inr (live tombstone))

/-- Every audit file that a snapshot requires to be rewrapped can be read. -/
def CarriesAudit (vault : Vault) (snapshot : VaultSyncSnapshot) : Prop :=
  Rewraps vault.session snapshot → ∀ next indexKey,
    unwrapEpochAndIndexKeys P vault.session.rootKey snapshot.header .unlockFailed =
        .ok (next, indexKey) →
      ∀ (path : SyncPath) (held : Bytes), path.dir = .audit →
        vault.disk.files[path]? = some held → AuditReadable P vault.session.epochKey next held

/-- A replay fails when it has to rewrap an audit file that it cannot read, and leaves the
session and the journal as they were. -/
theorem wp_finishPendingSync_unreadable (draws : SyncPath → EnvelopeDraw) (start : Vault)
    {bytes : Bytes} {snapshot : VaultSyncSnapshot} {entries : List (SyncPath × Bytes)}
    {epoch : VaultEpochKey} {indexKey : Key} (journal : start.disk.pending = some bytes)
    (decodes : Decodes P start.session bytes snapshot entries epoch)
    (unlocks : unwrapEpochAndIndexKeys P start.session.rootKey snapshot.header .unlockFailed =
      .ok (epoch, indexKey))
    (rewraps : Rewraps start.session snapshot) {damaged : SyncPath} {held : Bytes}
    (audit : damaged.dir = .audit) (found : start.disk.files[damaged]? = some held)
    (unreadable : ¬ AuditReadable P start.session.epochKey epoch held) :
    (finishPendingSync P draws).wp (fun _ => True)
      (fun _ left => ∃ files, left = start.withFiles files) (fun _ _ => False) start := by
  have decoded := (decodeSnapshot_eq_ok P).mpr ⟨entries, epoch, rfl, decodes⟩
  simp only [finishPendingSync, Program.wp_bind, Program.wp_read, journal, Program.wp_ofExcept,
    decoded]
  refine Program.wp_mono (wp_installFiles P entries start) (fun _ _ => trivial)
    (fun _ _ none => none.elim) ?_
  rintro _ _ rfl
  refine Program.wp_mono (wp_removeStale P snapshot.version entries _ _) (fun _ _ => trivial)
    (fun _ _ none => none.elim) ?_
  rintro _ _ rfl
  change Program.wp _ _ _ _
    (start.withFiles (installedFiles snapshot.version entries start.disk.files))
  have kept : ¬ (snapshot.version = 1 ∨ damaged.dir ≠ .audit) := by
    rw [rewraps.1, audit]
    decide
  have still : (installedFiles snapshot.version entries start.disk.files)[damaged]? =
      some held := by
    rw [get_installedFiles _ decodes.distinct (decodes.noAudit_of_ne P), if_neg kept, found]
  have changes : snapshot.version = 2 ∧
      snapshot.header.currentEpoch ≠ start.session.header.currentEpoch := rewraps
  rw [if_pos changes, Program.wp_bind]
  simp only [rewrapLocalAudit, Program.wp_bind, Program.wp_read, Program.wp_ofExcept,
    Vault.withFiles_session, unlocks]
  refine Program.wp_mono (wp_rewrapFiles_unreadable P
    (mem_auditPaths.mpr ⟨audit, held, still⟩) still unreadable) (fun _ _ => trivial) ?_
    (fun _ _ none => none.elim)
  rintro _ _ ⟨files, rfl⟩
  exact ⟨files, rfl⟩

/-- A failed replay of a snapshot that `apply_sync_snapshot` accepted leaves no trace: the call
fails, the directory is what it was, no journal is left and the session has its old header and
epoch key. -/
def RollbackTotal (draws : ApplyDraws) (vault : Vault) (bytes : Bytes) : Prop :=
  (∃ error, ((finishPendingSync P draws.forward).run
      (vault.withPending (some bytes))).result = .error error) →
    let outcome := (applySyncSnapshot P draws bytes).run vault
    (∃ error, outcome.result = .error error) ∧ outcome.final.disk = vault.disk ∧
      ensureSyncReady outcome.final = .ok () ∧
      outcome.final.session.header = vault.session.header ∧
      outcome.final.session.epochKey = vault.session.epochKey

/-- A rollback that restores the directory had no unreadable audit file to rewrap. -/
theorem carriesAudit_of_rollbackTotal {draws : ApplyDraws} {vault : Vault} {bytes : Bytes}
    {snapshot : VaultSyncSnapshot} {payload : VaultExportPayload} (opened : Opened P vault)
    (accepted : vault.session.decodeSnapshot P bytes = .ok (snapshot, payload))
    (total : RollbackTotal P draws vault bytes) : CarriesAudit P vault snapshot := by
  obtain ⟨entries, epoch, rfl, decodes⟩ := (decodeSnapshot_eq_ok P).mp accepted
  intro rewraps next indexKey unlocks damaged held audit found
  obtain ⟨_, unwraps⟩ := decodes.unlocks
  rw [unlocks] at unwraps
  obtain ⟨rfl, rfl⟩ := by simpa using unwraps
  by_contra unreadable
  have forward := wp_finishPendingSync_unreadable P draws.forward
    (vault.withPending (some bytes)) rfl decodes unlocks rewraps audit found unreadable
  -- The recovery journal holds the damaged file, so its replay is refused.
  have refused : ∃ error, vault.session.decodeSnapshot P
      (vault.exportSyncSnapshot P draws.journal) = .error error := by
    rcases exists_ok_or_error (vault.session.decodeSnapshot P
      (vault.exportSyncSnapshot P draws.journal)) with ⟨decoded, replayable⟩ | refused
    · exact absurd (auditReadable_of_fileOpens P
        (opens_of_decode_export P (opened.unlocks P).2 replayable found)) unreadable
    · exact refused
  obtain ⟨refusal, refused⟩ := refused
  have stuck : (applySyncSnapshot P draws bytes).wp (fun _ => True)
      (fun _ left => left.disk.pending ≠ none) (fun _ _ => False) vault := by
    have ready : ensureSyncReady vault = .ok () := by simp [ensureSyncReady, opened.ready]
    simp only [applySyncSnapshot, setPending, Program.wp_bind, Program.wp_read,
      Program.wp_ofExcept, accepted, ready, Program.wp_write, Program.wp_attempt, true_and]
    refine Program.wp_mono forward (fun _ _ => trivial) ?_ (fun _ _ none => none.elim)
    rintro error _ ⟨files, rfl⟩
    simp [finishPendingSync, refused]
  have failed : ∃ error, ((finishPendingSync P draws.forward).run
      (vault.withPending (some bytes))).result = .error error := by
    rcases exists_ok_or_error ((finishPendingSync P draws.forward).run
      (vault.withPending (some bytes))).result with ⟨⟨⟩, returned⟩ | failed
    · exact (Program.wp_ok forward returned).elim
    · exact failed
  obtain ⟨⟨error, raised⟩, restored, -⟩ := total failed
  refine Program.wp_error stuck raised ?_
  rw [restored, opened.ready]

/-- With every audit file readable the replay does not fail, so nothing is rolled back. -/
theorem rollbackTotal_of_carriesAudit {draws : ApplyDraws} {vault : Vault} {bytes : Bytes}
    {snapshot : VaultSyncSnapshot} {payload : VaultExportPayload}
    (accepted : vault.session.decodeSnapshot P bytes = .ok (snapshot, payload))
    (carries : CarriesAudit P vault snapshot) : RollbackTotal P draws vault bytes := by
  obtain ⟨entries, epoch, rfl, decodes⟩ := (decodeSnapshot_eq_ok P).mp accepted
  obtain ⟨indexKey, unlocks⟩ := decodes.unlocks
  rintro ⟨error, failed⟩
  have forward := wp_finishPendingSync P draws.forward
    (vault.withPending (some bytes)) rfl decodes unlocks
    fun rewraps path held audit found => carries rewraps epoch indexKey unlocks path held audit
      found
  exact (Program.wp_error forward failed).elim

/-- The rollback of an accepted snapshot restores the directory exactly when the snapshot
requires no audit file to be rewrapped that cannot be read. -/
theorem rollbackTotal_iff (draws : ApplyDraws) (vault : Vault) (bytes : Bytes)
    (snapshot : VaultSyncSnapshot) (payload : VaultExportPayload) (opened : Opened P vault)
    (accepted : vault.session.decodeSnapshot P bytes = .ok (snapshot, payload)) :
    RollbackTotal P draws vault bytes ↔ CarriesAudit P vault snapshot :=
  ⟨carriesAudit_of_rollbackTotal P opened accepted, rollbackTotal_of_carriesAudit P accepted⟩

/-- The small vault opens as its own session. -/
theorem opened_sample (epoch : VaultEpochKey) (files : Table SyncPath Bytes) :
    Opened P (Sample.vault P epoch files) where
  opens := by
    simp only [Sample.vault, Sample.session, Disk.openWithRootKey, okOr_some, ok_bind,
      Serde.fromSlice_toVecPretty, (Sample.header_valid P epoch).1, Sample.unwrap_header]
    rfl
  ready := rfl

/-- The draws of the examples below. -/
def sampleDraws : ApplyDraws :=
  ⟨Sample.snapshotDraw, fun _ => Sample.envelopeDraw, fun _ => Sample.envelopeDraw⟩

/-- A vault with no audit file takes the snapshot of a later epoch. -/
theorem rollbackTotal_iff_sample :
    RollbackTotal StandIn.platform sampleDraws
        (Sample.vault StandIn.platform (Sample.epochKey 5) ∅)
        (Sample.emptySnapshot StandIn.platform (Sample.epochKey 6) 2) ↔
      CarriesAudit StandIn.platform (Sample.vault StandIn.platform (Sample.epochKey 5) ∅)
        (encodedSnapshot StandIn.platform Sample.rootKey Sample.snapshotDraw
          (Sample.header StandIn.platform (Sample.epochKey 6)) (listEntries StandIn.platform [])
          [] 2) :=
  rollbackTotal_iff _ _ _ _ _ _ (opened_sample _ _ _)
    ((decodeSnapshot_eq_ok _).mpr
      ⟨[], Sample.epochKey 6, rfl, Sample.decodes_emptySnapshot _ _ _ (Or.inr rfl)⟩)

/-- An empty audit file, as an interrupted copy leaves one. -/
def truncatedAudit : Table SyncPath Bytes := (∅ : Table SyncPath Bytes).insert ⟨.audit, "1"⟩ []

/-- A vault with an empty audit file cannot roll back the snapshot of a later epoch. -/
theorem rollback_not_total :
    ¬ ∀ (P : Platform) (draws : ApplyDraws) (vault : Vault) (bytes : Bytes)
        (decoded : VaultSyncSnapshot × VaultExportPayload), Opened P vault →
      vault.session.decodeSnapshot P bytes = .ok decoded → RollbackTotal P draws vault bytes := by
  intro claimed
  let P := StandIn.platform
  have accepted : (Sample.session P (Sample.epochKey 5)).decodeSnapshot P
      (Sample.emptySnapshot P (Sample.epochKey 6) 2) = .ok _ :=
    (decodeSnapshot_eq_ok P).mpr
      ⟨[], Sample.epochKey 6, rfl, Sample.decodes_emptySnapshot P _ _ (Or.inr rfl)⟩
  have opened := opened_sample P (Sample.epochKey 5) truncatedAudit
  have total := claimed P sampleDraws (Sample.vault P (Sample.epochKey 5) truncatedAudit) _ _
    opened accepted
  have carries := carriesAudit_of_rollbackTotal P opened accepted total
  have later : Rewraps (Sample.session P (Sample.epochKey 5))
      (encodedSnapshot P Sample.rootKey Sample.snapshotDraw
        (Sample.header P (Sample.epochKey 6)) (listEntries P []) [] 2) := by
    have differ : (Sample.epochKey 6).epoch ≠ (Sample.epochKey 5).epoch := by decide
    exact ⟨rfl, differ⟩
  obtain ⟨envelope, parsed, -⟩ := carries later _ _
    (Sample.unwrap_header P (Sample.epochKey 6)) ⟨.audit, "1"⟩ [] rfl
    (by simp [Sample.vault, truncatedAudit])
  exact absurd parsed (by simp [P, StandIn.platform, StandIn.serde])

end Aipass
