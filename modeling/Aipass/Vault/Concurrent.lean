import Aipass.Vault.Sound

/-!
# Merges on two devices

Two devices that hold states of one vault merge each other's snapshot against a common one. Either
merge succeeds exactly when the other does, and what they yield is one set of files, which a device
that applies its merge holds afterwards.
-/
namespace Aipass

variable (P : Platform)

/-- A session accepts a snapshot, which has a header and compares as some files. -/
def Session.Accepts (session : Session) (bytes : Bytes) (header : VaultHeader)
    (files : Table SyncPath Bytes) : Prop :=
  ∃ snapshot payload, session.decodeSnapshot P bytes = .ok (snapshot, payload) ∧
    snapshot.header = header ∧ syncedFiles P payload = files

/-- A state of a vault: it is unlocked, no journal is left, and the files that synchronization
compares open. -/
structure Intact (vault : Vault) : Prop where
  /-- The header is valid. -/
  valid : HeaderValid vault.session.header
  /-- The header wraps the keys of the session. -/
  unlocks : unwrapEpochAndIndexKeys P vault.session.rootKey vault.session.header .unlockFailed =
    .ok (vault.session.epochKey, vault.session.indexKey)
  /-- No journal is left. -/
  ready : vault.disk.pending = none
  /-- Every file outside `audit/` opens. -/
  opens : ∀ (path : SyncPath) (held : Bytes), path.dir ≠ .audit →
    vault.disk.files[path]? = some held →
      FileOpens P vault.session.header.vaultId vault.session.epochKey path held

section States

variable {P}

/-- One header unlocks under one root key. -/
theorem Intact.rootKey_eq {left right : Vault} (leftIntact : Intact P left)
    (rightIntact : Intact P right) (header : left.session.header = right.session.header) :
    left.session.rootKey = right.session.rootKey := by
  have leftOpens := leftIntact.unlocks
  have rightOpens := rightIntact.unlocks
  rw [header] at leftOpens
  simp only [unwrapEpochAndIndexKeys, bind_eq_ok, mapError_eq_ok, decryptBytes_eq_ok]
    at leftOpens rightOpens
  obtain ⟨_, ⟨_, wrapped⟩, -⟩ := leftOpens
  obtain ⟨_, ⟨_, wrapped'⟩, -⟩ := rightOpens
  rw [wrapped] at wrapped'
  exact (encryptBytes_injective P wrapped').1

/-- What a session accepts, every session of the vault accepts. -/
theorem Session.Accepts.congr {session other : Session} {bytes : Bytes} {header : VaultHeader}
    {files : Table SyncPath Bytes} (accepts : session.Accepts P bytes header files)
    (sameKey : session.rootKey = other.rootKey)
    (sameVault : session.header.vaultId = other.header.vaultId) :
    other.Accepts P bytes header files := by
  obtain ⟨snapshot, payload, decoded, facts⟩ := accepts
  rw [decodeSnapshot_congr P sameKey sameVault] at decoded
  exact ⟨snapshot, payload, decoded, facts⟩

/-- The files that a session accepts under its own header open, and lie outside `audit/`. -/
theorem Session.Accepts.opens {vault : Vault} (intact : Intact P vault) {bytes : Bytes}
    {files : Table SyncPath Bytes}
    (accepts : vault.session.Accepts P bytes vault.session.header files) {path : SyncPath}
    {held : Bytes} (found : files[path]? = some held) :
    path.dir ≠ .audit ∧
      FileOpens P vault.session.header.vaultId vault.session.epochKey path held := by
  obtain ⟨snapshot, payload, decoded, header, rfl⟩ := accepts
  obtain ⟨entries, epoch, rfl, decodes⟩ := (decodeSnapshot_eq_ok P).mp decoded
  obtain ⟨outside, present⟩ := get_of_withoutAudit found
  obtain ⟨indexKey, unlocks⟩ := decodes.unlocks
  rw [header, intact.unlocks, Except.ok.injEq, Prod.mk.injEq] at unlocks
  have opened := decodes.opens _ ((decodes.get_contents P).mp present)
  rw [header, ← unlocks.1] at opened
  exact ⟨outside, opened⟩

/-- A vault merges snapshots of its own header by merging the files they compare as. -/
theorem mergeSyncSnapshot_of_accepts {vault : Vault} {remote base : Bytes}
    {theirs common : Table SyncPath Bytes}
    (remoteShown : vault.session.Accepts P remote vault.session.header theirs)
    (baseShown : vault.session.Accepts P base vault.session.header common) (draw : SnapshotDraw) :
    vault.mergeSyncSnapshot P draw remote base =
      .ok ((Table.merge (withoutAudit vault.disk.files) theirs common).map fun merged =>
        vault.session.encodeSyncSnapshot P draw (listing P merged) []) := by
  obtain ⟨_, _, remoteDecoded, remoteHeader, rfl⟩ := remoteShown
  obtain ⟨_, _, baseDecoded, baseHeader, rfl⟩ := baseShown
  rw [mergeSyncSnapshot_of_decoded P remoteDecoded baseDecoded,
    if_pos ⟨remoteHeader, baseHeader⟩]

/-- A snapshot of files that open is accepted as it was encoded. -/
theorem Intact.decode_encode {vault : Vault} (intact : Intact P vault) (draw : SnapshotDraw)
    {files : Table SyncPath Bytes} (parents : List SnapshotId)
    (opens : ∀ (path : SyncPath) (held : Bytes), files[path]? = some held → path.dir ≠ .audit ∧
      FileOpens P vault.session.header.vaultId vault.session.epochKey path held) :
    Decodes P vault.session (vault.session.encodeSyncSnapshot P draw (listing P files) parents)
      (encodedSnapshot P vault.session.rootKey draw vault.session.header (listing P files)
        parents 2) files.toList vault.session.epochKey := by
  refine decodes_encode P vault.session (.inr rfl) intact.valid rfl intact.unlocks
    (Table.toList_keys_nodup files) ?_ ?_
  · rintro - ⟨path, held⟩ entry
    exact (opens path held (Table.mem_toList.mp entry)).1
  · rintro ⟨path, held⟩ entry
    exact (opens path held (Table.mem_toList.mp entry)).2

/-- The listing of files outside `audit/` has no audit file to leave out. -/
theorem filter_listing {files : Table SyncPath Bytes}
    (outside : ∀ (path : SyncPath) (held : Bytes), files[path]? = some held → path.dir ≠ .audit) :
    (⟨(listing P files).files.filter fun file => !file.isAudit⟩ : VaultExportPayload) =
      listing P files := by
  have kept : (listing P files).files.filter (fun file => !file.isAudit) =
      (listing P files).files := by
    rw [List.filter_eq_self]
    intro file listed
    obtain ⟨⟨path, held⟩, entry, rfl⟩ := List.mem_map.mp listed
    have elsewhere := outside path held (Table.mem_toList.mp entry)
    simp [VaultExportFile.isAudit, elsewhere]
  exact congrArg VaultExportPayload.mk kept

/-- The revision of a snapshot of files that open is that of its listing. -/
theorem Intact.syncSnapshotRevision {vault : Vault} (intact : Intact P vault) (draw : SnapshotDraw)
    {files : Table SyncPath Bytes} (parents : List SnapshotId)
    (opens : ∀ (path : SyncPath) (held : Bytes), files[path]? = some held → path.dir ≠ .audit ∧
      FileOpens P vault.session.header.vaultId vault.session.epochKey path held) :
    vault.session.syncSnapshotRevision P
        (vault.session.encodeSyncSnapshot P draw (listing P files) parents) =
      .ok (revision P vault.session.header (listing P files)) := by
  have decoded := (decodeSnapshot_eq_ok P).mpr
    ⟨_, _, rfl, intact.decode_encode draw parents opens⟩
  rw [Session.syncSnapshotRevision, decoded, ok_bind]
  change Except.ok (revision P vault.session.header
    ⟨(listing P files).files.filter fun file => !file.isAudit⟩) = _
  rw [filter_listing fun path held found => (opens path held found).1]

/-- A snapshot of files that open is accepted under the header of the vault. -/
theorem Intact.accepts {vault : Vault} (intact : Intact P vault) (draw : SnapshotDraw)
    {files : Table SyncPath Bytes} (parents : List SnapshotId)
    (opens : ∀ (path : SyncPath) (held : Bytes), files[path]? = some held → path.dir ≠ .audit ∧
      FileOpens P vault.session.header.vaultId vault.session.epochKey path held) :
    vault.session.Accepts P (vault.session.encodeSyncSnapshot P draw (listing P files) parents)
      vault.session.header files := by
  refine ⟨_, _, (decodeSnapshot_eq_ok P).mpr
    ⟨_, _, rfl, intact.decode_encode draw parents opens⟩, rfl, ?_⟩
  rw [← listing, syncedFiles_listing]
  refine Table.ext_get fun path => ?_
  rw [get_withoutAudit]
  split
  · next audit =>
    cases found : files[path]? with
    | none => rfl
    | some held => exact absurd audit (opens path held found).1
  · rfl

/-- The files of a state that synchronization compares open, and lie outside `audit/`. -/
theorem Intact.opens_withoutAudit {vault : Vault} (intact : Intact P vault) (path : SyncPath)
    (held : Bytes) (found : (withoutAudit vault.disk.files)[path]? = some held) :
    path.dir ≠ .audit ∧
      FileOpens P vault.session.header.vaultId vault.session.epochKey path held := by
  obtain ⟨outside, present⟩ := get_of_withoutAudit found
  exact ⟨outside, intact.opens path held outside present⟩

/-- The files of a merge open, and lie outside `audit/`. -/
theorem Intact.opens_merge {vault : Vault} (intact : Intact P vault) {remote : Bytes}
    {theirs common merged : Table SyncPath Bytes}
    (remoteShown : vault.session.Accepts P remote vault.session.header theirs)
    (picked : Table.merge (withoutAudit vault.disk.files) theirs common = some merged)
    (path : SyncPath) (held : Bytes) (found : merged[path]? = some held) :
    path.dir ≠ .audit ∧
      FileOpens P vault.session.header.vaultId vault.session.epochKey path held := by
  have choice := Table.merge_eq_some.mp picked path
  rw [found] at choice
  rcases (picked_of_choose choice).1 with ours | theirs
  · exact intact.opens_withoutAudit path held ours.symm
  · exact remoteShown.opens intact theirs.symm

end States

/-- A device that applies a snapshot of its own header holds the files it lists, and keeps its own
audit files. -/
structure Applied (vault : Vault) (files : Table SyncPath Bytes) (left : Vault) : Prop where
  /-- The session stays. -/
  session : left.session = vault.session
  /-- No journal is left. -/
  ready : left.disk.pending = none
  /-- The listed files are there. -/
  files : ∀ path : SyncPath, left.disk.files[path]? =
    if path.dir = .audit then vault.disk.files[path]? else files[path]?

section Applying

variable {P}

/-- A vault that holds the files of a snapshot compares as them. -/
theorem Applied.withoutAudit_files {vault left : Vault} {files : Table SyncPath Bytes}
    (applied : Applied vault files left)
    (outside : ∀ (path : SyncPath) (held : Bytes), files[path]? = some held → path.dir ≠ .audit) :
    withoutAudit left.disk.files = files := by
  refine Table.ext_get fun path => ?_
  rw [get_withoutAudit, applied.files]
  by_cases audit : path.dir = .audit
  · rw [if_pos audit]
    cases found : files[path]? with
    | none => rfl
    | some held => exact absurd audit (outside path held found)
  · rw [if_neg audit, if_neg audit]

/-- A state is left by applying files that open. -/
theorem Applied.intact {vault left : Vault} {files : Table SyncPath Bytes}
    (applied : Applied vault files left) (intact : Intact P vault)
    (opens : ∀ (path : SyncPath) (held : Bytes), files[path]? = some held → path.dir ≠ .audit ∧
      FileOpens P vault.session.header.vaultId vault.session.epochKey path held) :
    Intact P left where
  valid := by rw [applied.session]; exact intact.valid
  unlocks := by rw [applied.session]; exact intact.unlocks
  ready := applied.ready
  opens path held outside found := by
    rw [applied.files, if_neg outside] at found
    rw [applied.session]
    exact (opens path held found).2

/-- Applying a snapshot of files that open succeeds. -/
theorem Intact.wp_apply {vault : Vault} (intact : Intact P vault) (draw : SnapshotDraw)
    (draws : ApplyDraws) {files : Table SyncPath Bytes}
    (opens : ∀ (path : SyncPath) (held : Bytes), files[path]? = some held → path.dir ≠ .audit ∧
      FileOpens P vault.session.header.vaultId vault.session.epochKey path held) :
    (applySyncSnapshot P draws
        (vault.session.encodeSyncSnapshot P draw (listing P files) [])).wp (fun _ => True)
      (fun _ _ => False) (fun _ left => Applied vault files left) vault := by
  have decodes := intact.decode_encode draw [] opens
  have same : ¬ Rewraps vault.session (encodedSnapshot P vault.session.rootKey draw
      vault.session.header (listing P files) [] 2) := fun rewraps => rewraps.2 rfl
  refine Program.wp_mono (wp_applySyncSnapshot_of_decodes intact.ready decodes intact.unlocks draws
    fun rewraps => absurd rewraps same) (fun _ _ => trivial) (fun _ _ none => none.elim) ?_
  rintro _ _ rfl
  refine ⟨rfl, rfl, fun path => ?_⟩
  change (finishedFiles P draws.forward vault.session _ files.toList vault.session.epochKey
    vault.disk.files)[path]? = _
  rw [get_finishedFiles P draws.forward vault.session vault.session.epochKey vault.disk.files
    decodes.distinct (decodes.noAudit_of_ne P) path, if_neg same, Table.insertAll_toList]
  have second : (encodedSnapshot P vault.session.rootKey draw vault.session.header
      (listing P files) [] 2).version ≠ 1 := by
    change (2 : UInt16) ≠ 1
    decide
  by_cases audit : path.dir = .audit
  · rw [if_pos audit, if_neg (by simp [second, audit])]
  · rw [if_neg audit, if_pos (.inr audit)]

end Applying

end Aipass
