import Aipass.Sync.Converged

/-!
# Working offline

Between two synchronizations, changes are queued whenever the vault is locked, and the outbox is
flushed whenever the remote can be reached, also while the vault stays locked. Either may stop
after any of its writes, and an upload may succeed and yet be reported as failed. In all such runs
the snapshot that the checkpoint names is pending or uploaded, and the queue never gets stuck.
-/
namespace Aipass.Sync

open Program

variable (P : SyncPlatform)

/-- A pending snapshot that a later one can replace: its first fields can be read, and its parents
are on the remote. -/
structure Replaceable (remote : Remote) (id : SnapshotId) (bytes : Bytes) : Prop where
  hashed : snapshotId P bytes = id
  read : ∃ first, snapshotPrefix P bytes = .ok first ∧ id ∉ first.parentIds ∧
    ∀ parent ∈ first.parentIds, remote[parent]?.isSome

/-- What a replacement under way leaves out, once the checkpoint names a head. -/
def dropped (head : SnapshotId) : Option Compaction → List SnapshotId
  | none => []
  | some tx => if tx.newId = head then tx.oldIds else [tx.newId]

/-- The files of a target whose checkpoint names a head, which is pending or uploaded. -/
structure Steady (remote : Remote) (files : TargetFiles) (head : SnapshotId) : Prop where
  checkpoint : ∃ revision, files.checkpoint = some ⟨[head], some revision⟩
  kept : files.outbox[head]?.isSome ∨ remote[head]?.isSome
  pending : ∀ (id : SnapshotId) bytes, files.outbox[id]? = some bytes →
    Replaceable P remote id bytes
  /-- Nothing but the head stays pending when the replacement under way is decided. -/
  within : ∀ id, files.outbox[id]?.isSome → id = head ∨ id ∈ dropped head files.journal
  fresh : head ∉ dropped head files.journal
  decided : ∀ tx, files.journal = some tx → tx.newId = head ∨ tx.oldHead = [head]

/-- A target is steady with some head. -/
def Held (remote : Remote) (name : String) (left : Store) : Prop :=
  ∃ head, Steady P remote (left.target name) head

/-- A target is steady, and no replacement is under way. -/
def Cleared (remote : Remote) (name : String) (head : SnapshotId) (checkpoint : Option Checkpoint)
    (left : Store) : Prop :=
  Steady P remote (left.target name) head ∧ (left.target name).journal = none ∧
    (left.target name).checkpoint = checkpoint

/-- A target is steady with a head of a revision, and no replacement is under way. -/
def Queued (remote : Remote) (name : String) (revision : Digest) (left : Store) : Prop :=
  ∃ head, Cleared P remote name head (some ⟨[head], some revision⟩) left

/-- A snapshot that is neither on the remote nor a head of the checkpoint. -/
def Unseen (remote : Remote) (files : TargetFiles) (id : SnapshotId) : Prop :=
  remote[id]? = none ∧
    ∀ checkpoint, files.checkpoint = some checkpoint → id ∉ checkpoint.heads

/-- Each snapshot on the remote has the name of its bytes. -/
def Named (remote : Remote) : Prop :=
  ∀ (id : SnapshotId) bytes, remote[id]? = some bytes → snapshotId P bytes = id

/-- The remote and the files of a target at any time between two synchronizations. -/
def Offline (name : String) (head : SnapshotId) (shore : Shore) : Prop :=
  Steady P shore.remote (shore.store.target name) head ∧ Named P shore.remote

section Steps

variable {P} {remote : Remote} {files : TargetFiles} {head : SnapshotId} {name : String}
  {store : Store}

/-- Only the head is pending when no replacement is under way. -/
theorem Steady.single (steady : Steady P remote files head) (clean : files.journal = none)
    (id : SnapshotId) (pending : files.outbox[id]?.isSome) : id = head :=
  (steady.within id pending).resolve_right (by simp [clean, dropped])

/-- A target stays steady when the remote grows. -/
theorem Steady.mono {later : Remote} (steady : Steady P remote files head)
    (grows : ∀ other : SnapshotId, remote[other]?.isSome → later[other]?.isSome) :
    Steady P later files head :=
  { steady with
    kept := steady.kept.imp_right (grows head)
    pending := fun id bytes found =>
      let ⟨hashed, first, prefix_, own, parents⟩ := steady.pending id bytes found
      ⟨hashed, first, prefix_, own, fun parent named => grows parent (parents parent named)⟩ }

/-- A snapshot may leave the outbox unless it is the only copy of the head. -/
theorem Steady.erase (steady : Steady P remote files head) (id : SnapshotId)
    (safe : id = head → remote[head]?.isSome) :
    Steady P remote (files.eraseOutbox id) head := by
  refine ⟨steady.checkpoint, ?_, fun other bytes found => ?_, fun other held => ?_, steady.fresh,
    steady.decided⟩
  · rw [TargetFiles.eraseOutbox_outbox, Table.get_erase]
    split
    next same => exact .inr (safe same)
    next => exact steady.kept
  · rw [TargetFiles.eraseOutbox_outbox, Table.get_erase] at found
    split at found
    · simp at found
    · exact steady.pending other bytes found
  · rw [TargetFiles.eraseOutbox_outbox, Table.get_erase] at held
    split at held
    · simp at held
    · exact steady.within other held

/-- The journal may go when nothing it drops is pending. -/
theorem Steady.close (steady : Steady P remote files head)
    (gone : ∀ id ∈ dropped head files.journal, files.outbox[id]? = none) :
    Steady P remote (files.setJournal none) head :=
  ⟨steady.checkpoint, steady.kept, steady.pending, fun id held =>
    (steady.within id held).imp_right fun drops => by
      rw [TargetFiles.setJournal_outbox, gone id drops] at held
      simp at held, List.not_mem_nil, fun _ held => by cases held⟩

/-- The end of a replacement leaves the head alone. -/
theorem Steady.wp_finish {tx : Compaction} (steady : Steady P remote (store.target name) head)
    (held : (store.target name).journal = some tx) (new : tx.newId = head) :
    (finishCompaction name tx).wp (fun left => Steady P remote (left.target name) head)
      (fun _ _ => False) (fun _ => Cleared P remote name head (store.target name).checkpoint)
      store := by
  have drops : dropped head (some tx) = tx.oldIds := if_pos new
  have fresh : head ∉ tx.oldIds := drops ▸ held ▸ steady.fresh
  rw [finishCompaction, wp_bind]
  refine wp_imp (wp_forM _ _ (fun visited left => Steady P remote (left.target name) head ∧
    (left.target name).journal = some tx ∧
    (left.target name).checkpoint = (store.target name).checkpoint ∧
    ∀ id ∈ visited, (left.target name).outbox[id]? = none)
    ⟨steady, held, rfl, fun _ listed => by cases listed⟩ ?_) ?_
  · rintro visited id rest split before ⟨kept, journal, same, erased⟩
    have after := kept.erase id fun same => absurd (same ▸ by simp [split]) fresh
    simp only [removeReplaced, changeTarget, wp_bind, wp_write, Store.target_setTarget, if_true,
      Store.target_eraseCache, Store.target_eraseMetadata, after, true_and,
      TargetFiles.eraseOutbox_journal, TargetFiles.eraseOutbox_checkpoint,
      TargetFiles.eraseOutbox_outbox, Table.get_erase]
    refine ⟨journal, same, fun other listed => ?_⟩
    split
    · rfl
    · exact erased other (by simpa [Ne.symm ‹_›] using listed)
  · rintro _ left ⟨kept, journal, same, erased⟩
    have after := kept.close (by rwa [journal, drops])
    simp only [changeTarget, wp_write, Cleared, Store.target_setTarget, if_true, after, true_and]
    exact ⟨rfl, same⟩

/-- Recovery decides every replacement that was under way. -/
theorem Steady.wp_recover {checkpoint : Checkpoint}
    (steady : Steady P remote (store.target name) head)
    (found : (store.target name).checkpoint = some checkpoint) :
    (recoverCompaction name checkpoint).wp (fun left => Steady P remote (left.target name) head)
      (fun _ _ => False) (fun _ => Cleared P remote name head (some checkpoint)) store := by
  obtain ⟨revision, named⟩ := steady.checkpoint
  have heads : checkpoint.heads = [head] := by
    rw [Option.some.inj (found.symm.trans named)]
  rw [recoverCompaction, wp_bind, wp_read]
  cases held : (store.target name).journal with
  | none => exact (wp_pure _).mpr ⟨steady, held, found⟩
  | some tx =>
    by_cases new : tx.newId = head
    · simp only [heads, new, if_true]
      exact wp_imp (steady.wp_finish held new) fun _ _ after =>
        ⟨after.1, after.2.1, after.2.2.trans found⟩
    · have old := (steady.decided tx held).resolve_left new
      have other : ¬ [head] = [tx.newId] := fun same => new (List.cons.inj same).1.symm
      have undone := steady.erase tx.newId fun same => absurd same new
      have after := undone.close (by simp [held, dropped, new])
      simp only [heads, if_neg other, old, if_true, changeTarget, wp_bind, wp_write, Cleared,
        Store.target_setTarget, Store.target_eraseCache, undone, after, true_and]
      exact ⟨rfl, found⟩

/-- One parent fits into the first fields of a snapshot. -/
theorem room_single : headerLength 1 ≤ prefixRoom := by decide +kernel

/-- The parents of a snapshot whose first fields can be read fit there again. -/
theorem room_of_snapshotPrefix {bytes : Bytes} {first : SnapshotPrefix}
    (read : snapshotPrefix P bytes = .ok first) :
    headerLength first.parentIds.length ≤ prefixRoom := by
  obtain ⟨snapshot, -, read⟩ := bind_eq_ok.mp read
  by_cases fits : prefixRoom < headerLength snapshot.parents.length
  · simp [fits, throw, throwThe, MonadExceptOf.throw] at read
  · rw [if_neg fits] at read
    split at read
    · simp [throw, throwThe, MonadExceptOf.throw] at read
    · obtain rfl := Except.ok.inj read
      have fewer := List.length_filterMap_le ParentText.id? snapshot.parents
      simp only [SnapshotPrefix.parentIds, headerLength] at fits ⊢
      omega

/-- An export with uploaded parents can be replaced once it is pending. -/
theorem replaceable_export (vault : Vault) (draw : SnapshotDraw) {parents : List SnapshotId}
    (fits : headerLength parents.length ≤ prefixRoom)
    (uploaded : ∀ parent ∈ parents, remote[parent]?.isSome)
    (unsent : remote[snapshotId P
      (vault.exportSyncSnapshotWithParents P.toPlatform draw parents)]? = none) :
    Replaceable P remote
      (snapshotId P (vault.exportSyncSnapshotWithParents P.toPlatform draw parents))
      (vault.exportSyncSnapshotWithParents P.toPlatform draw parents) := by
  have hex : (parents.map ParentText.digest).any (fun parent => parent.id?.isNone) = false := by
    simp [ParentText.id?]
  have read : snapshotPrefix P (vault.exportSyncSnapshotWithParents P.toPlatform draw parents) =
      .ok ⟨"aipass-vault-sync", 2, parents.map ParentText.digest⟩ := by
    simp only [snapshotPrefix, Vault.exportSyncSnapshotWithParents, Session.encodeSyncSnapshot,
      encodeSnapshotWithHeader, Serde.fromSlice_toVec, okOr_some, ok_bind, List.length_map, hex]
    rw [if_neg (by omega)]
    rfl
  have named : (parents.map ParentText.digest).filterMap ParentText.id? = parents :=
    parentIds_encodedSnapshot P.toPlatform vault.session.rootKey draw vault.session.header
      (syncFiles P.toPlatform vault.disk.files false) parents 2
  refine ⟨rfl, _, read, ?_⟩
  rw [SnapshotPrefix.parentIds, named]
  refine ⟨fun own => ?_, uploaded⟩
  have held := uploaded _ own
  simp [unsent] at held

/-- The snapshot that replaces a pending head, or follows an uploaded one, has known parents. -/
theorem Steady.pendingBase_eq (steady : Steady P remote files head) (revision : Option Digest)
    (single : ∀ id, files.outbox[id]?.isSome → id = head) :
    ∃ base, pendingBase P files.outbox ⟨[head], revision⟩ = .ok base ∧
      headerLength base.length ≤ prefixRoom ∧ ∀ parent ∈ base, remote[parent]?.isSome := by
  cases found : files.outbox[head]? with
  | none =>
    have nothing : files.outbox = ∅ := Table.ext_get fun id => by
      rw [Std.ExtTreeMap.getElem?_empty]
      refine Option.not_isSome_iff_eq_none.mp fun held => ?_
      simp [single id held, found] at held
    have uploaded : remote[head]?.isSome := steady.kept.resolve_left (by simp [found])
    refine ⟨[head], by rw [nothing]; rfl, room_single, fun parent named => ?_⟩
    rwa [List.mem_singleton.mp named]
  | some bytes =>
    obtain ⟨hashed, first, read, own, parents⟩ := steady.pending head bytes found
    have whole : files.outbox = (∅ : Table SnapshotId Bytes).insertAll [(head, bytes)] := by
      refine Table.ext_get fun id => ?_
      simp only [Table.insertAll, List.foldl_cons, List.foldl_nil, Table.get_insert]
      split
      next same => exact same ▸ found
      next other =>
        simpa using Option.not_isSome_iff_eq_none.mp fun held => other (single id held).symm
    refine ⟨first.parentIds, ?_, room_of_snapshotPrefix read, parents⟩
    have entry {α : Type} (value : α) :
        ((∅ : Table SnapshotId α).insertAll [(head, value)]).toList = [(head, value)] :=
      Table.toList_insertAll (List.pairwise_singleton _ _)
    have listed : files.outbox.toList = [(head, bytes)] := by rw [whole, entry]
    have outside : ∀ parent ∈ first.parentIds, files.outbox[parent]? = none :=
      fun parent named => Option.not_isSome_iff_eq_none.mp fun held =>
        own (single parent held ▸ named)
    have filled : files.outbox.isEmpty = false := by rw [whole]; rfl
    have links : pendingLinks files.outbox ((∅ : Links SnapshotId).insertAll
        [(head, first.parentIds)]) = (∅ : Links SnapshotId).insertAll [(head, [])] := by
      refine Table.ext_get fun id => ?_
      simp only [pendingLinks, Table.insertAll, List.foldl_cons, List.foldl_nil, Table.get_map,
        Table.get_insert]
      split
      · refine congrArg some (List.filter_eq_nil_iff.mpr fun parent named => ?_)
        simp [outside parent named]
      · simp
    have visited : Links.explore ((∅ : Links SnapshotId).insertAll [(head, [])]) .stack id
        [(head, ())] ∅ = (∅ : Table SnapshotId Unit).insertAll [(head, ())] := by
      rw [Links.explore, if_neg (by simp)]
      simp [Links.namedBy, Table.insertAll, Links.explore]
    have root : ((∅ : Links SnapshotId).insertAll [(head, first.parentIds)]).toList.filter
        (fun entry => entry.2.all fun id => files.outbox[id]?.isNone) =
          [(head, first.parentIds)] := by
      rw [entry]
      exact List.filter_eq_self.mpr fun entry member => by
        simpa [List.mem_singleton.mp member] using outside
    have sizes : (Std.ExtTreeMap.size ((∅ : Table SnapshotId Unit).insertAll [(head, ())])) =
        files.outbox.size := by
      rw [← Std.ExtTreeMap.length_toList, ← Std.ExtTreeMap.length_toList, listed, entry]
      rfl
    simp only [pendingBase, filled, found, listed, okOr_some, ok_bind, List.mapM_cons,
      pendingParents, read, List.mapM_nil, pure_bind, links, visited, sizes, ne_eq, root,
      verifyHash, hashed, not_true_eq_false, if_false, Bool.false_eq_true]
    rfl

/-- A new snapshot replaces the pending one, if any. -/
theorem Steady.wp_compact {checkpoint : Checkpoint}
    (steady : Steady P remote (store.target name) head) (heads : checkpoint.heads = [head])
    (clean : (store.target name).journal = none) (revision : Digest) {bytes : Bytes}
    (replaceable : Replaceable P remote (snapshotId P bytes) bytes)
    (fresh : snapshotId P bytes ≠ head) :
    (compact P name checkpoint (store.target name).outbox revision bytes).wp (Held P remote name)
      (fun _ _ => False) (fun _ => Queued P remote name revision) store := by
  generalize named : snapshotId P bytes = id at replaceable fresh
  generalize ids : (store.target name).outbox.keys = oldIds
  have single := steady.single clean
  have unsent : (store.target name).outbox[id]? = none :=
    Option.not_isSome_iff_eq_none.mp fun held => fresh (single id held)
  have kept : id ∉ oldIds := by
    rw [← ids, Table.mem_keys_iff, unsent]
    simp
  have undecided : dropped head (some ⟨[head], oldIds, id⟩) = [id] := if_neg fresh
  have decided : dropped id (some ⟨[head], oldIds, id⟩) = oldIds := if_pos rfl
  have begun : Steady P remote ((store.target name).setJournal (some ⟨[head], oldIds, id⟩))
      head := by
    refine ⟨steady.checkpoint, steady.kept, steady.pending,
      fun other held => .inl (single other held), ?_, fun _ held => .inr (by cases held; rfl)⟩
    rw [TargetFiles.setJournal_journal, undecided, List.mem_singleton]
    exact Ne.symm fresh
  have either (other : SnapshotId)
      (held : ((store.target name).outbox.insert id bytes)[other]?.isSome) :
      other = id ∨ (store.target name).outbox[other]?.isSome := by
    rw [Table.get_insert] at held
    split at held
    next same => exact .inl same.symm
    next => exact .inr held
  have staged : Steady P remote (((store.target name).setJournal
      (some ⟨[head], oldIds, id⟩)).setOutbox id bytes) head := by
    refine ⟨steady.checkpoint, ?_, Table.forall_insert steady.pending replaceable,
      fun other held => ?_, begun.fresh, begun.decided⟩
    · rw [TargetFiles.setOutbox_outbox, Table.get_insert, if_neg fresh]
      exact steady.kept
    · rw [TargetFiles.setOutbox_journal, TargetFiles.setJournal_journal, undecided,
        List.mem_singleton]
      exact (either other held).symm.imp_left (single other)
  have committed : Steady P remote ((((store.target name).setJournal
      (some ⟨[head], oldIds, id⟩)).setOutbox id bytes).setCheckpoint ⟨[id], some revision⟩) id := by
    refine ⟨⟨revision, rfl⟩, .inl (by simp), staged.pending, fun other held => ?_, ?_,
      fun _ held => .inl (by cases held; rfl)⟩
    all_goals rw [TargetFiles.setCheckpoint_journal, TargetFiles.setOutbox_journal,
      TargetFiles.setJournal_journal, decided]
    · exact (either other held).imp_right fun present => ids ▸ Table.mem_keys_iff.mpr present
    · exact kept
  simp only [compact, named, ids, heads, stageLinkedSnapshot, changeTarget, wp_bind, wp_write,
    wp_read, Store.target_setTarget, Store.target_setCache, if_true, TargetFiles.setJournal_outbox,
    unsent, Held]
  refine ⟨⟨head, begun⟩, ⟨head, begun⟩, ⟨head, staged⟩, ⟨id, committed⟩,
    wp_mono (Steady.wp_finish ?_ ?_ rfl) (fun _ left => ⟨id, left⟩) (fun _ _ none_ => none_) ?_⟩
  · simpa only [Store.target_setTarget, if_true] using committed
  · simp
  · rintro _ left ⟨steady, done, checkpoint⟩
    exact ⟨id, steady, done, by rw [checkpoint, Store.target_setTarget, if_pos rfl]; rfl⟩

/-- Queueing the changes of a vault makes its state the head, wherever earlier calls stopped. -/
theorem Steady.wp_queue (steady : Steady P remote (store.target name) head) (vault : Vault)
    (draw : SnapshotDraw) (fresh : ∀ parents, Unseen remote (store.target name)
      (snapshotId P (vault.exportSyncSnapshotWithParents P.toPlatform draw parents))) :
    (queueLocalChanges P vault draw name).wp (Held P remote name)
      (fun _ left => ensureSyncReady vault ≠ .ok () ∧ left = store)
      (fun _ => Queued P remote name (vault.syncRevision P.toPlatform)) store := by
  obtain ⟨revision, named⟩ := steady.checkpoint
  simp only [queueLocalChanges, wp_bind, wp_read, named, wp_ofExcept]
  cases ready : ensureSyncReady vault with
  | error error => simp [Except.mapError]
  | ok _ =>
    simp only [Except.mapError]
    refine wp_mono (steady.wp_recover named) (fun _ left => ⟨head, left⟩)
      (fun _ _ none_ => none_.elim) ?_
    rintro _ left ⟨kept, clean, checkpoint⟩
    simp only [reduceCtorEq, if_false, wp_bind, wp_read]
    split
    next settled =>
      exact (wp_pure _).mpr ⟨head, kept, clean, checkpoint.trans (by rw [settled.1])⟩
    next =>
      obtain ⟨base, computed, fits, uploaded⟩ :=
        kept.pendingBase_eq (some revision) (kept.single clean)
      obtain ⟨unsent, unnamed⟩ := fresh base
      have replaceable := replaceable_export vault draw fits uploaded unsent
      simp only [computed, wp_bind, wp_ofExcept]
      generalize vault.exportSyncSnapshotWithParents P.toPlatform draw base = bytes
        at replaceable unnamed ⊢
      exact wp_mono (kept.wp_compact rfl clean (vault.syncRevision P.toPlatform) replaceable
        (by simpa using unnamed _ named)) (fun _ left => left) (fun _ _ none_ => none_.elim)
        (fun _ _ left => left)

/-- An upload keeps the names. -/
theorem Named.insert (named : Named P remote) (bytes : Bytes) :
    Named P (remote.insert (snapshotId P bytes) bytes) :=
  Table.forall_insert named rfl

/-- An upload loses no snapshot. -/
theorem grows_insert (id : SnapshotId) (bytes : Bytes) (other : SnapshotId)
    (held : remote[other]?.isSome) : (remote.insert id bytes)[other]?.isSome := by
  rw [Table.get_insert]
  split
  · rfl
  · exact held

/-- A flush uploads what it removes, and fails for a failed upload only. -/
theorem Offline.wp_flush {name : String} {shore : Shore} (offline : Offline P name head shore)
    (outcomes : SnapshotId → PublishOutcome) :
    (flushOutbox P outcomes name).wp (Offline P name head)
      (fun _ left => Offline P name head left ∧ ∃ id, outcomes id ≠ .stored)
      (fun _ left => Offline P name head left ∧ (left.store.target name).outbox = ∅) shore := by
  rw [flushOutbox, wp_bind, wp_read]
  refine wp_imp (wp_foldlM _ _ _ (fun visited _ left => Offline P name head left ∧
    ∀ id, (left.store.target name).outbox[id]?.isSome →
      (shore.store.target name).outbox[id]?.isSome ∧ id ∉ visited.map Prod.fst)
    ⟨offline, fun _ present => ⟨present, List.not_mem_nil⟩⟩ ?_) ?_
  · rintro visited ⟨id, bytes⟩ rest split count before ⟨⟨steady, named⟩, within⟩
    have found : (shore.store.target name).outbox[id]? = some bytes :=
      Table.mem_toList.mp (split ▸ by simp)
    have hashed := (offline.1.pending id bytes found).hashed
    have uploaded : Offline P name head
        { before with remote := before.remote.insert (snapshotId P bytes) bytes } :=
      ⟨steady.mono (grows_insert _ bytes), named.insert bytes⟩
    have removed : Offline P name head
        { before with
          store := before.store.setTarget name ((before.store.target name).eraseOutbox id)
          remote := before.remote.insert (snapshotId P bytes) bytes } := by
      refine ⟨?_, uploaded.2⟩
      simp only [Store.target_setTarget, if_true]
      exact uploaded.1.erase id fun same => by simp [hashed, same]
    have failed (outcome : outcomes id ≠ .stored) : ∃ id, outcomes id ≠ .stored := ⟨id, outcome⟩
    simp only [flushOne, hashed, ne_eq, not_true_eq_false, if_false, wp_bind, publish]
    cases outcome : outcomes id with
    | stored =>
      simp only [wp_write, wp_pure]
      refine ⟨hashed ▸ uploaded, hashed ▸ removed, hashed ▸ removed, fun other present => ?_⟩
      simp only [Store.target_setTarget, if_true, TargetFiles.eraseOutbox_outbox, Table.get_erase]
        at present
      split at present
      · simp at present
      · obtain ⟨present, unseen⟩ := within other present
        exact ⟨present, by simpa [unseen] using Ne.symm ‹_›⟩
    | storedUnreported =>
      simp only [wp_bind, wp_write, wp_fail]
      exact ⟨hashed ▸ uploaded, hashed ▸ uploaded, failed (by simp [outcome])⟩
    | failed =>
      simp only [wp_fail]
      exact ⟨⟨steady, named⟩, failed (by simp [outcome])⟩
  · rintro count left ⟨held, within⟩
    refine ⟨held, Table.ext_get fun id => ?_⟩
    cases present : (left.store.target name).outbox[id]? with
    | none => simp
    | some bytes =>
      obtain ⟨before, unseen⟩ := within id (by simp [present])
      obtain ⟨bytes, found⟩ := Option.isSome_iff_exists.mp before
      exact absurd (List.mem_map.mpr ⟨(id, bytes), Table.mem_toList.mpr found, rfl⟩) unseen

end Steps

/-- What happens between two synchronizations. -/
inductive OfflineEvent where
  /-- The changes of a vault are queued, or the call stops after any of its writes. -/
  | queue (vault : Vault) (draw : SnapshotDraw)
  /-- The outbox is flushed, or the call stops after any of its writes. -/
  | flush (outcomes : SnapshotId → PublishOutcome)
  /-- Another device uploads a snapshot. -/
  | upload (bytes : Bytes)

/-- A vault whose changes are queued is exported as a snapshot that did not exist. -/
def OfflineEvent.Fresh (name : String) (shore : Shore) : OfflineEvent → Prop
  | .queue vault draw => ∀ parents, Unseen shore.remote (shore.store.target name)
      (snapshotId P (vault.exportSyncSnapshotWithParents P.toPlatform draw parents))
  | .flush _ | .upload _ => True

/-- One target of a device, between two synchronizations. -/
def offline (name : String) : System Shore OfflineEvent where
  init shore := (shore.store.target name).journal = none ∧ ∃ head, Offline P name head shore
  step shore event next :=
    match event with
    | .queue vault draw => next.remote = shore.remote ∧
        (next.store ∈ (queueLocalChanges P vault draw name).stops shore.store ∨
          next.store = ((queueLocalChanges P vault draw name).run shore.store).final)
    | .flush outcomes => next ∈ (flushOutbox P outcomes name).stops shore ∨
        next = ((flushOutbox P outcomes name).run shore).final
    | .upload bytes =>
        next = { shore with remote := shore.remote.insert (snapshotId P bytes) bytes }

/-- In every run between two synchronizations the checkpoint names a head. -/
theorem offline_of_reached {name : String} {shore : Shore}
    (reached : (offline P name).Reachable (fun shore event => event.Fresh P name shore) shore) :
    ∃ head, Offline P name head shore := by
  refine reached.invariant (fun shore => ∃ head, Offline P name head shore) ?_ ?_
  · rintro shore ⟨-, held⟩
    exact held
  rintro shore event next ⟨head, held⟩ fresh stepped
  cases event with
  | queue vault draw =>
    obtain ⟨remote, stopped⟩ := stepped
    have queued := held.1.wp_queue vault draw fresh
    have steady : Held P shore.remote name next.store := by
      refine stopped.elim (wp_stops queued ⟨head, held.1⟩ next.store) fun done => done ▸
        wp_final (Held P shore.remote name) _ (wp_mono queued (fun _ left => left) ?_ ?_)
      · rintro error left ⟨-, rfl⟩
        exact ⟨head, held.1⟩
      · rintro _ left ⟨head, steady, -⟩
        exact ⟨head, steady⟩
    exact steady.imp fun head steady => ⟨remote ▸ steady, remote ▸ held.2⟩
  | flush outcomes =>
    have flushed := held.wp_flush outcomes
    exact ⟨head, stepped.elim (wp_stops flushed held next) fun done => done ▸
      wp_final _ _ (wp_mono flushed (fun _ left => left) (fun _ _ left => left.1)
        fun _ _ left => left.1)⟩
  | upload bytes =>
    subst stepped
    exact ⟨head, held.1.mono (grows_insert _ bytes), held.2.insert bytes⟩

/-- A target whose changes can be queued and uploaded. -/
structure Serves (name : String) (shore : Shore) (head : SnapshotId) : Prop where
  /-- The checkpoint names the head. -/
  named : ∃ revision, (shore.store.target name).checkpoint = some ⟨[head], some revision⟩
  /-- The head is pending or uploaded, under its hash. -/
  held : ∃ bytes, snapshotId P bytes = head ∧
    ((shore.store.target name).outbox[head]? = some bytes ∨ shore.remote[head]? = some bytes)
  /-- Queueing the changes of a vault succeeds, and leaves only a head with its revision pending. -/
  queues : ∀ vault draw, ensureSyncReady vault = .ok () →
    (OfflineEvent.queue vault draw).Fresh P name shore →
    (queueLocalChanges P vault draw name).wp (fun _ => True) (fun _ _ => False)
      (fun _ left => (left.target name).journal = none ∧ ∃ next,
        (left.target name).checkpoint = some ⟨[next], some (vault.syncRevision P.toPlatform)⟩ ∧
        ∀ id, (left.target name).outbox[id]?.isSome → id = next) shore.store
  /-- A flush whose uploads succeed empties the outbox and leaves the head uploaded. -/
  flushes : (flushOutbox P (fun _ => .stored) name).wp (fun _ => True) (fun _ _ => False)
    (fun _ left => (left.store.target name).outbox = ∅ ∧ left.remote[head]?.isSome) shore

/-- A run may start when all there is is one uploaded snapshot. -/
theorem offline_init {name : String} {shore : Shore} {bytes : Bytes} {revision : Digest}
    (files : shore.store.target name =
      ⟨some ⟨[snapshotId P bytes], some revision⟩, none, none, ∅⟩)
    (remote : shore.remote = (∅ : Remote).insert (snapshotId P bytes) bytes) :
    (offline P name).init shore := by
  refine ⟨by rw [files], snapshotId P bytes, ⟨⟨revision, by rw [files]⟩, .inr (by simp [remote]),
    ?_, ?_, ?_, ?_⟩, ?_⟩
  · simp [files]
  · simp [files]
  · simp [files, dropped]
  · simp [files]
  · rw [remote]
    exact Named.insert (fun id held found => by simp at found) bytes

/-- A call that is not interrupted is a step of a run. -/
theorem offline_queue (name : String) (shore : Shore) (vault : Vault) (draw : SnapshotDraw) :
    (offline P name).step shore (.queue vault draw) { shore with
      store := ((queueLocalChanges P vault draw name).run shore.store).final } := ⟨rfl, .inr rfl⟩

namespace Sample

/-- A target whose only snapshot is uploaded. -/
def uploadedShore : Shore where
  store := Store.empty.setTarget "home"
    ⟨some ⟨[snapshotId standIn firstSnapshot], some (snapshotId standIn [])⟩, none, none, ∅⟩
  remote := (∅ : Remote).insert (snapshotId standIn firstSnapshot) firstSnapshot

/-- The target after the changes of another vault were queued. -/
def queuedShore : Shore :=
  { uploadedShore with
    store := ((queueLocalChanges standIn (withObject true) ⟨1, Sample.nonce 7⟩ "home").run
      uploadedShore.store).final }

end Sample

end Aipass.Sync
