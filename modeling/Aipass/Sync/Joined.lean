import Aipass.Sync.Survey
import Aipass.Vault.Concurrent

/-!
# Merges that meet

Two devices merge the same two states on their own, apply what they get and publish it. The one that
finds the head of the other beside its own sees equal content: it joins the two heads in a snapshot of
its own, downloads nothing and reports no conflict.
-/
namespace Aipass.Sync

variable (P : SyncPlatform)

/-- A device finds two heads, of which the first is the one that its checkpoint names for what its
vault holds, and it knows of every snapshot what that says of itself. -/
structure FindsTwo (device : Device) (checkpoint : Checkpoint) (snapshots : Snapshots)
    (own other : SnapshotId) : Prop where
  differ : own ≠ other
  heads : headsOf snapshots = {own, other}
  settled : checkpoint = ⟨[own], some (device.vault.syncRevision P.toPlatform)⟩
  described : ∀ (id : SnapshotId) metadata, snapshots[id]? = some metadata →
    Describes P device.vault.session id metadata

section Joining

variable {P}

/-- The revisions of snapshots that say of themselves what they are. -/
theorem authenticated_of_described {session : Session} {snapshots : Snapshots}
    (described : ∀ (id : SnapshotId) metadata, snapshots[id]? = some metadata →
      Describes P session id metadata) :
    ∃ entries, snapshots.toList.mapM authenticated = .ok entries ∧
      ∀ (id : SnapshotId) metadata, snapshots[id]? = some metadata →
        ((∅ : Table SnapshotId Digest).insertAll entries)[id]? = metadata.revision := by
  have known : ∀ entry ∈ snapshots.toList,
      authenticated entry = .ok (entry.1, entry.2.revision.getD 0) := by
    rintro ⟨id, metadata⟩ listed
    obtain ⟨bytes, described⟩ := described id metadata (Table.mem_toList.mp listed)
    obtain ⟨_, _, _, _, rfl⟩ := (bodyMetadata_eq_ok P).mp described
    rfl
  have entries := mapM_eq_map (fun entry : SnapshotId × SnapshotMetadata =>
    (entry.1, entry.2.revision.getD 0)) known
  refine ⟨_, entries, fun id metadata found => ?_⟩
  have distinct : ((snapshots.toList.map fun entry : SnapshotId × SnapshotMetadata =>
      (entry.1, entry.2.revision.getD 0)).map Prod.fst).Nodup := by
    rw [List.map_map]
    exact Table.toList_keys_nodup snapshots
  obtain ⟨bytes, described⟩ := described id metadata found
  obtain ⟨_, _, _, _, rfl⟩ := (bodyMetadata_eq_ok P).mp described
  exact (Table.get_insertAll_iff distinct).mpr
    (List.mem_map.mpr ⟨_, Table.mem_toList.mpr found, rfl⟩)

variable {device : Device} {checkpoint : Checkpoint} {snapshots : Snapshots}
  {own other : SnapshotId}

/-- The heads that a device finds, in order. -/
theorem FindsTwo.mem_sort (finds : FindsTwo P device checkpoint snapshots own other)
    {id : SnapshotId} (listed : id ∈ (headsOf snapshots).sort (· ≤ ·)) : id = own ∨ id = other := by
  rw [Finset.mem_sort, finds.heads] at listed
  simpa using listed

/-- A device that finds two heads adopts neither. -/
theorem FindsTwo.wp_adopt (finds : FindsTwo P device checkpoint snapshots own other)
    (draws : ApplyDraws) (revisions : Table SnapshotId Digest) :
    (adopt P draws (headsOf snapshots) revisions checkpoint).wp (fun _ => True) (fun _ _ => False)
      (fun adopted left => adopted = (checkpoint, 0) ∧ left = device) device := by
  have two : ((headsOf snapshots).sort (· ≤ ·)).length = 2 := by
    rw [Finset.length_sort, finds.heads, Finset.card_pair finds.differ]
  simp only [adopt, Program.wp_bind, Program.wp_read]
  split
  · next id single =>
    rw [single] at two
    exact absurd two (by simp)
  · exact (Program.wp_pure _).mpr ⟨rfl, rfl⟩

/-- A head whose content the vault holds is joined without a merge. -/
theorem FindsTwo.wp_joinAll (finds : FindsTwo P device checkpoint snapshots own other)
    (draws : SyncDraws) {revisions : Table SnapshotId Digest}
    (equal : revisions[other]? = some (device.vault.syncRevision P.toPlatform)) :
    (joinAll P draws (headsOf snapshots) snapshots revisions (checkpoint, 0)).wp (fun _ => True)
      (fun _ _ => False)
      (fun joined left => joined = (⟨[own, other], none⟩, 0) ∧ left = device) device := by
  have heads : checkpoint.heads = [own] := by rw [finds.settled]
  simp only [joinAll, heads]
  -- The other head is among those visited exactly when the checkpoint names it.
  refine Program.wp_mono (Program.wp_foldlM _ _ (checkpoint, 0)
    (fun visited joined left => left = device ∧ joined =
      if other ∈ visited then (⟨[own, other], none⟩, 0) else (checkpoint, 0)) ⟨rfl, rfl⟩ ?_)
    (fun _ left => left) (fun _ _ none => none) ?_
  · rintro visited id rest split _ _ ⟨rfl, rfl⟩
    have listed : id ∈ (headsOf snapshots).sort (· ≤ ·) := split ▸ by simp
    rw [joinOne]
    rcases finds.mem_sort listed with rfl | rfl
    · rw [if_pos (.inl rfl)]
      simp [finds.differ.symm]
    · by_cases earlier : id ∈ visited
      · simp [earlier]
      · simp only [if_neg earlier, heads]
        rw [if_neg (by simp [finds.differ.symm])]
        simp [equal]
  · rintro joined left ⟨rfl, rfl⟩
    have visited : other ∈ (headsOf snapshots).sort (· ≤ ·) := by
      rw [Finset.mem_sort, finds.heads]
      simp
    exact ⟨if_pos visited, rfl⟩

/-- What a device publishes in place of two heads is a single head. -/
theorem wp_publishDirty_joined (draw : SnapshotDraw) (name : String) (device : Device)
    (own other : SnapshotId) :
    (publishDirty P draw name {own, other} ⟨[own, other], none⟩).wp (fun _ => True)
      (fun error _ => error = .differentContent)
      (fun settled left => left.vault = device.vault ∧
        let id := snapshotId P (device.vault.exportSyncSnapshotWithParents P.toPlatform draw
          [own, other])
        settled = ⟨{id}, ⟨[id], some (device.vault.syncRevision P.toPlatform)⟩, 1⟩) device := by
  have replaced : [own, other].foldl Finset.erase {own, other} = (∅ : Finset SnapshotId) := by
    ext id
    rw [mem_foldl_erase]
    simp
    tauto
  have unsettled : ¬ ((none : Option Digest) = some (device.vault.syncRevision P.toPlatform)) := by
    simp
  simp only [publishDirty, Program.wp_bind, Program.wp_read, if_neg unsettled, publishBranch,
    onStore, Program.wp_within, stageLinkedSnapshot, Program.wp_write, true_and, replaced]
  split
  · split
    · simp
    · simp
  · simp [changeTarget]

/-- A device that finds the content of its vault under two heads joins them: it downloads nothing,
reports no conflict but the snapshots it could not verify, and its checkpoint names what it
published. -/
theorem FindsTwo.wp_reconcile (finds : FindsTwo P device checkpoint snapshots own other)
    {metadata : SnapshotMetadata} (found : snapshots[other]? = some metadata)
    (equal : metadata.revision = some (device.vault.syncRevision P.toPlatform))
    (draws : SyncDraws) (name : String) (quarantined : ℕ) :
    (reconcile P draws name checkpoint snapshots quarantined).wp (fun _ => True)
      (fun error _ => error = .differentContent)
      (fun report left => left.vault = device.vault ∧ report.downloaded = 0 ∧
        report.conflicts = quarantined ∧ (quarantined = 0 → report.status = .idle)) device := by
  obtain ⟨entries, authenticated_, revisions⟩ := authenticated_of_described finds.described
  have filled : checkpoint.fill ((∅ : Table SnapshotId Digest).insertAll entries) = checkpoint := by
    rw [finds.settled]
    rfl
  simp only [reconcile, Program.wp_bind, Program.wp_ofExcept, authenticated_, filled]
  refine Program.wp_mono (finds.wp_adopt draws.forward _) (fun _ _ => trivial)
    (fun _ _ none => none.elim) ?_
  rintro _ _ ⟨rfl, rfl⟩
  refine Program.wp_mono (finds.wp_joinAll draws ((revisions other metadata found).trans equal))
    (fun _ _ => trivial) (fun _ _ none => none.elim) ?_
  rintro _ _ ⟨rfl, rfl⟩
  rw [finds.heads]
  refine Program.wp_mono (wp_publishDirty_joined draws.publish name _ own other)
    (fun _ _ => trivial) (fun _ _ refused => refused) ?_
  rintro _ left ⟨kept, rfl⟩
  simp only [onStore, Program.wp_within, writeSettled, changeTarget, Program.wp_bind,
    Program.wp_write, Program.wp_pure, true_and]
  refine ⟨kept, ?_⟩
  by_cases clean : quarantined = 0
  · simp [finalReport, conflictsOf, clean]
  · simp [finalReport, conflictsOf, clean, Nat.pos_of_ne_zero clean]

/-- A snapshot that a session accepts describes itself by its revision. -/
theorem revision_of_describes {session : Session} {bytes : Bytes} {revision : Digest}
    (accepted : session.syncSnapshotRevision P.toPlatform bytes = .ok revision)
    {metadata : SnapshotMetadata}
    (described : Describes P session (snapshotId P bytes) metadata) :
    metadata.revision = some revision := by
  obtain ⟨body, described⟩ := described
  obtain ⟨named, snapshot, payload, decoded, rfl⟩ := (bodyMetadata_eq_ok P).mp described
  obtain rfl := snapshotId_injective P named
  rw [Session.syncSnapshotRevision, decoded, ok_bind] at accepted
  exact congrArg some (Except.ok.inj accepted)

end Joining

section Merging

variable {P}

/-- The values of a path on either side and in the base, absence among them, are pairwise
distinct. -/
def Clash (ours theirs base : Table SyncPath Bytes) (path : SyncPath) : Prop :=
  ours[path]? ≠ theirs[path]? ∧ theirs[path]? ≠ base[path]? ∧ ours[path]? ≠ base[path]?

/-- What a device merged: it accepts the snapshot, and by applying it comes to hold the files and has
the revision of the snapshot. -/
structure MergesTo (P : SyncPlatform) (vault : Vault) (bytes : Bytes)
    (merged : Table SyncPath Bytes) (revision : Digest) : Prop where
  accepted : vault.session.Accepts P.toPlatform bytes vault.session.header merged
  authentic : vault.session.syncSnapshotRevision P.toPlatform bytes = .ok revision
  applies : ∀ draws,
    ((applySyncSnapshot P.toPlatform draws bytes).run vault).result = .ok ()
  applied : ∀ draws,
    Applied vault merged ((applySyncSnapshot P.toPlatform draws bytes).run vault).final
  reached : ∀ draws, Vault.syncRevision P.toPlatform
    ((applySyncSnapshot P.toPlatform draws bytes).run vault).final = revision

/-- What the merge of a device with an accepted snapshot yields. -/
theorem mergesTo_of_merge {vault : Vault} (intact : Intact P.toPlatform vault) {remote : Bytes}
    {theirs common merged : Table SyncPath Bytes}
    (remoteShown : vault.session.Accepts P.toPlatform remote vault.session.header theirs)
    (picked : Table.merge (withoutAudit vault.disk.files) theirs common = some merged)
    (draw : SnapshotDraw) :
    MergesTo P vault (vault.session.encodeSyncSnapshot P.toPlatform draw
      (listing P.toPlatform merged) []) merged
        (Aipass.revision P.toPlatform vault.session.header (listing P.toPlatform merged)) := by
  have opens := intact.opens_merge remoteShown picked
  have applied : ∀ draws, Applied vault merged
      ((applySyncSnapshot P.toPlatform draws (vault.session.encodeSyncSnapshot P.toPlatform draw
        (listing P.toPlatform merged) [])).run vault).final := fun draws =>
    Program.wp_total _ (intact.wp_apply draw draws opens)
  constructor
  case accepted => exact intact.accepts draw [] opens
  case authentic => exact intact.syncSnapshotRevision draw [] opens
  case applies =>
    intro draws
    exact Program.result_of_wp (Program.wp_mono (intact.wp_apply draw draws opens)
      (fun _ left => left) (fun _ _ none => none) fun _ _ _ => rfl)
  case applied => exact applied
  case reached =>
    intro draws
    have held := (applied draws).withoutAudit_files fun path held found =>
      (opens path held found).1
    rw [Vault.syncRevision, (applied draws).session, syncFiles, if_neg (by decide), held]

/-- A merge succeeds exactly when no path that is compared has three values that are pairwise
distinct. -/
theorem merge_isSome_iff_clash {ours theirs base : Table SyncPath Bytes} :
    (Table.merge (withoutAudit ours) (withoutAudit theirs) (withoutAudit base)).isSome ↔
      ∀ path : SyncPath, path.dir ≠ .audit → ¬ Clash ours theirs base path := by
  rw [Table.merge_isSome_iff]
  constructor
  · intro agree path outside
    have here := agree path
    simp only [get_withoutAudit, if_neg outside] at here
    exact here
  · intro agree path
    simp only [get_withoutAudit]
    by_cases audit : path.dir = .audit
    · simp [audit]
    · simp only [if_neg audit]
      exact agree path audit

/-- A device that applied its merge finds the merge of the other published beside its own: it joins
the two and reports no conflict. -/
theorem MergesTo.joins {vault other : Vault} (intact : Intact P.toPlatform vault)
    (otherIntact : Intact P.toPlatform other) (header : vault.session.header = other.session.header)
    {bytes otherBytes : Bytes} {merged : Table SyncPath Bytes} {revision : Digest}
    (merges : MergesTo P vault bytes merged revision)
    (otherMerges : MergesTo P other otherBytes merged revision) (draws otherDraws : ApplyDraws)
    (publish : SnapshotDraw) (parents : List SnapshotId) {device : Device} {checkpoint : Checkpoint}
    {snapshots : Snapshots} {own : SnapshotId}
    (holds : device.vault = ((applySyncSnapshot P.toPlatform draws bytes).run vault).final)
    (finds : FindsTwo P device checkpoint snapshots own (snapshotId P
      (((applySyncSnapshot P.toPlatform otherDraws otherBytes).run
        other).final.exportSyncSnapshotWithParents P.toPlatform publish parents)))
    (syncDraws : SyncDraws) (name : String) (quarantined : ℕ) :
    (reconcile P syncDraws name checkpoint snapshots quarantined).wp (fun _ => True)
      (fun error _ => error = .differentContent)
      (fun report left => left.vault = device.vault ∧ report.downloaded = 0 ∧
        report.conflicts = quarantined ∧ (quarantined = 0 → report.status = .idle)) device := by
  have applied := otherMerges.applied otherDraws
  have reached := otherMerges.reached otherDraws
  revert finds
  generalize ((applySyncSnapshot P.toPlatform otherDraws otherBytes).run other).final = left
    at applied reached
  intro finds
  have opens : ∀ (path : SyncPath) (held : Bytes), merged[path]? = some held → path.dir ≠ .audit ∧
      FileOpens P.toPlatform other.session.header.vaultId other.session.epochKey path held :=
    fun path held found => otherMerges.accepted.opens otherIntact found
  have leftIntact := applied.intact otherIntact opens
  -- What the other device publishes has the revision of its vault.
  have published : device.vault.session.syncSnapshotRevision P.toPlatform
      (left.exportSyncSnapshotWithParents P.toPlatform publish parents) = .ok revision := by
    have sameKey : device.vault.session.rootKey = left.session.rootKey := by
      rw [holds, (merges.applied draws).session, applied.session]
      exact intact.rootKey_eq otherIntact header
    have sameVault : device.vault.session.header.vaultId = left.session.header.vaultId := by
      rw [holds, (merges.applied draws).session, applied.session, header]
    rw [Session.syncSnapshotRevision, decodeSnapshot_congr P.toPlatform sameKey sameVault]
    rw [← reached]
    exact leftIntact.syncSnapshotRevision publish parents leftIntact.opens_withoutAudit
  have listed : snapshotId P (left.exportSyncSnapshotWithParents P.toPlatform publish parents) ∈
      headsOf snapshots := by
    rw [finds.heads]
    simp
  obtain ⟨metadata, found⟩ : ∃ metadata, snapshots[snapshotId P
      (left.exportSyncSnapshotWithParents P.toPlatform publish parents)]? = some metadata := by
    rw [headsOf, mem_removeParents, Table.mem_keySet] at listed
    exact Option.isSome_iff_exists.mp listed.1
  have equal := revision_of_describes published (finds.described _ metadata found)
  rw [← merges.reached draws, ← holds] at equal
  exact finds.wp_reconcile found equal syncDraws name quarantined

end Merging

section Sample

deriving instance Encodable for SnapshotMetadata

/-- The stand-in crates. -/
def standIn : SyncPlatform where
  toPlatform := StandIn.platform
  metadata := StandIn.serde SnapshotMetadata

/-- The small vault with one object file, or with none. -/
def withObject (held : Bool) : Vault :=
  let epoch := Sample.epochKey 5
  let files : Table SyncPath Bytes := if held then
    (∅ : Table SyncPath Bytes).insert ⟨.objects, StandIn.platform.uuidText 3⟩
      (StandIn.platform.envelope.toVec
        (Sample.envelope StandIn.platform 3 "provider_entry" [] epoch))
    else ∅
  Sample.vault StandIn.platform epoch files

/-- The small vault is a state of a vault. -/
theorem withObject_intact (held : Bool) : Intact standIn.toPlatform (withObject held) where
  valid := Sample.header_valid _ _
  unlocks := Sample.unwrap_header _ _
  ready := rfl
  opens path bytes outside found := by
    cases held with
    | false =>
      change (∅ : Table SyncPath Bytes)[path]? = some bytes at found
      simp at found
    | true =>
      change ((∅ : Table SyncPath Bytes).insert _ _)[path]? = some bytes at found
      rw [Table.get_insert] at found
      split at found
      · next here =>
        obtain rfl := Option.some.inj found
        subst here
        exact ⟨_, Serde.fromSlice_toVec _ _, rfl, rfl, rfl, rfl, fun _ =>
          ⟨[], Sample.decrypt_envelope _ _ _ _ _⟩⟩
      · simp at found

end Sample

end Aipass.Sync
