import Aipass.Vault.Snapshot

/-!
# Merging a snapshot

`merge_sync_snapshot` works on the base64 texts of two listings and of the vault's own. The
texts are a faithful representation of the files, so it computes the three-way merge of the
files outside `audit/`, and encodes the listing of the result.
-/
namespace Aipass

variable (P : Platform)

/-- The files of a listing that synchronization compares. -/
def syncedFiles (payload : VaultExportPayload) : Table SyncPath Bytes :=
  withoutAudit (contents P payload)

/-- A file outside `audit/` is compared, and no other is. -/
@[simp] theorem get_withoutAudit (files : Table SyncPath Bytes) (path : SyncPath) :
    (withoutAudit files)[path]? = if path.dir = .audit then none else files[path]? := by
  rw [withoutAudit, Table.get_filter]
  by_cases audit : path.dir = .audit
  · cases files[path]? <;> simp [audit]
  · cases files[path]? <;> simp [audit]

/-- A file compared lies outside `audit/`. -/
theorem get_of_withoutAudit {files : Table SyncPath Bytes} {path : SyncPath} {held : Bytes}
    (found : (withoutAudit files)[path]? = some held) :
    path.dir ≠ .audit ∧ files[path]? = some held := by
  rw [get_withoutAudit] at found
  split at found
  case isTrue => simp at found
  case isFalse outside => exact ⟨outside, found⟩

/-- Leaving the audit files out twice is leaving them out once. -/
@[simp] theorem withoutAudit_withoutAudit (files : Table SyncPath Bytes) :
    withoutAudit (withoutAudit files) = withoutAudit files := by
  refine Table.ext_get fun path => ?_
  simp only [get_withoutAudit]
  split <;> rfl

/-- The table of texts of a listing spells the files that synchronization compares. -/
theorem get_toMap {entries : List (SyncPath × Bytes)} (distinct : (entries.map Prod.fst).Nodup)
    (path : SyncPath) :
    (toMap (listEntries P entries))[path]? =
      (syncedFiles P (listEntries P entries))[path]?.map P.encodeB64 := by
  have spelled : toMap (listEntries P entries) = (∅ : Table SyncPath String).insertAll
      ((entries.filter fun entry => entry.1.dir ≠ .audit).map (Prod.map id P.encodeB64)) := by
    unfold toMap listEntries
    congr 1
    induction entries with
    | nil => rfl
    | cons entry entries ih =>
      rw [List.map_cons, List.nodup_cons] at distinct
      by_cases audit : entry.1.dir = .audit
      · simpa [audit] using ih distinct.2
      · simpa [audit, Prod.map] using ih distinct.2
  have kept : (((entries.filter fun entry => entry.1.dir ≠ .audit).map
      (Prod.map id P.encodeB64)).map Prod.fst).Nodup := by
    have names : ((entries.filter fun entry => entry.1.dir ≠ .audit).map
        (Prod.map id P.encodeB64)).map Prod.fst =
          (entries.filter fun entry => entry.1.dir ≠ .audit).map Prod.fst := by
      simp
    rw [names]
    exact distinct.sublist (List.filter_sublist.map _)
  refine Option.ext fun text => ?_
  rw [spelled, Table.get_insertAll_iff kept, syncedFiles, contents_listEntries, get_withoutAudit]
  by_cases audit : path.dir = .audit
  · simp [audit]
  · simp [audit, Table.get_insertAll_iff distinct]

/-- The listing of a vault's own files compares as those files. -/
@[simp] theorem syncedFiles_listing (files : Table SyncPath Bytes) :
    syncedFiles P (listing P files) = withoutAudit files := by
  rw [syncedFiles, contents_listing]

/-- Merging snapshots that are accepted is the three-way merge of the files they compare as,
unless one of them has another header. -/
theorem mergeSyncSnapshot_of_decoded {vault : Vault} {draw : SnapshotDraw} {remote base : Bytes}
    {remoteSnapshot baseSnapshot : VaultSyncSnapshot}
    {remotePayload basePayload : VaultExportPayload}
    (remoteDecoded : vault.session.decodeSnapshot P remote = .ok (remoteSnapshot, remotePayload))
    (baseDecoded : vault.session.decodeSnapshot P base = .ok (baseSnapshot, basePayload)) :
    vault.mergeSyncSnapshot P draw remote base =
      .ok (if remoteSnapshot.header = vault.session.header ∧
          baseSnapshot.header = vault.session.header then
        (Table.merge (withoutAudit vault.disk.files) (syncedFiles P remotePayload)
          (syncedFiles P basePayload)).map fun merged =>
            vault.session.encodeSyncSnapshot P draw (listing P merged) []
      else none) := by
  obtain ⟨remoteEntries, _, rfl, remoteDecodes⟩ := (decodeSnapshot_eq_ok P).mp remoteDecoded
  obtain ⟨baseEntries, _, rfl, baseDecodes⟩ := (decodeSnapshot_eq_ok P).mp baseDecoded
  simp only [Vault.mergeSyncSnapshot, remoteDecoded, baseDecoded, ok_bind]
  by_cases headers : remoteSnapshot.header = vault.session.header ∧
      baseSnapshot.header = vault.session.header
  · have oursMap : ∀ path : SyncPath, (toMap (syncFiles P vault.disk.files false))[path]? =
        (withoutAudit vault.disk.files)[path]?.map P.encodeB64 := by
      intro path
      have spelled := get_toMap P (Table.toList_keys_nodup (withoutAudit vault.disk.files)) path
      change (toMap (listing P (withoutAudit vault.disk.files)))[path]? =
        (syncedFiles P (listing P (withoutAudit vault.disk.files)))[path]?.map P.encodeB64 at spelled
      rwa [syncedFiles_listing, withoutAudit_withoutAudit] at spelled
    have theirsMap := get_toMap P remoteDecodes.distinct
    have baseMap := get_toMap P baseDecodes.distinct
    rw [if_neg (by simp [headers.1, headers.2]), if_pos headers, Table.merge,
      Table.mergedKeys_map oursMap theirsMap baseMap,
      Table.mergeKeys_map (encodeB64_injective P) oursMap theirsMap baseMap]
    cases merged : Table.mergeKeys (withoutAudit vault.disk.files)
        (syncedFiles P (listEntries P remoteEntries)) (syncedFiles P (listEntries P baseEntries))
        (Table.mergedKeys (withoutAudit vault.disk.files)
          (syncedFiles P (listEntries P remoteEntries))
          (syncedFiles P (listEntries P baseEntries))) with
    | none => rfl
    | some entries =>
      simp only [Option.map_some, pure, Except.pure, listing, Table.toList_of_mergeKeys merged]
      congr 3
      simp [listEntries, Function.comp_def]
  · have differ : P.header.toVec remoteSnapshot.header ≠ P.header.toVec vault.session.header ∨
        P.header.toVec baseSnapshot.header ≠ P.header.toVec vault.session.header := by
      rw [(P.header.toVec_injective).ne_iff, (P.header.toVec_injective).ne_iff]
      tauto
    rw [if_pos differ, if_neg headers]
    rfl

/-- A merge that succeeds lists the three-way merge of snapshots with the vault's header. -/
theorem mergeSyncSnapshot_eq_some {vault : Vault} {draw : SnapshotDraw}
    {remote base bytes : Bytes} :
    vault.mergeSyncSnapshot P draw remote base = .ok (some bytes) ↔
      ∃ remoteSnapshot remotePayload baseSnapshot basePayload merged,
        vault.session.decodeSnapshot P remote = .ok (remoteSnapshot, remotePayload) ∧
        vault.session.decodeSnapshot P base = .ok (baseSnapshot, basePayload) ∧
        remoteSnapshot.header = vault.session.header ∧
        baseSnapshot.header = vault.session.header ∧
        Table.merge (withoutAudit vault.disk.files) (syncedFiles P remotePayload)
          (syncedFiles P basePayload) = some merged ∧
        bytes = vault.session.encodeSyncSnapshot P draw (listing P merged) [] := by
  constructor
  · intro succeeded
    obtain ⟨⟨remoteSnapshot, remotePayload⟩, remoteDecoded, rest⟩ := bind_eq_ok.mp succeeded
    obtain ⟨⟨baseSnapshot, basePayload⟩, baseDecoded, -⟩ := bind_eq_ok.mp rest
    rw [mergeSyncSnapshot_of_decoded P remoteDecoded baseDecoded, Except.ok.injEq] at succeeded
    split at succeeded
    case isTrue headers =>
      obtain ⟨merged, picked, rfl⟩ := Option.map_eq_some_iff.mp succeeded
      exact ⟨_, _, _, _, merged, remoteDecoded, baseDecoded, headers.1, headers.2, picked, rfl⟩
    case isFalse => simp at succeeded
  · rintro ⟨_, _, _, _, merged, remoteDecoded, baseDecoded, remoteHeader, baseHeader, picked, rfl⟩
    rw [mergeSyncSnapshot_of_decoded P remoteDecoded baseDecoded,
      if_pos ⟨remoteHeader, baseHeader⟩, picked]
    rfl

end Aipass
