import Aipass.Sync.Joined
import Aipass.Vault.Fleet

/-!
# Idle means converged

A run of `synchronize` on an unlocked device reports that it is idle only when a single snapshot
contains whatever the run was shown: the checkpoint it saves names that snapshot alone, and the
vault has the revision that the snapshot has under the vault's keys. Whether it succeeds or fails,
a run leaves the device as the next one needs it.
-/
namespace Aipass.Sync

open Program

variable (P : SyncPlatform) (keys : VaultKeys)

/-- A snapshot names another as a parent. -/
def Parent (session : Session) (child parent : SnapshotId) : Prop :=
  ∃ metadata, Describes P session child metadata ∧ parent ∈ metadata.parents

/-- Two descriptions of a snapshot are the same. -/
theorem Describes.unique {session : Session} {id : SnapshotId} {metadata other : SnapshotMetadata}
    (described : Describes P session id metadata) (again : Describes P session id other) :
    metadata = other := by
  obtain ⟨bytes, described⟩ := described
  obtain ⟨bytes', again⟩ := again
  obtain rfl := snapshotId_injective P (((bodyMetadata_eq_ok P).mp described).1.trans
    ((bodyMetadata_eq_ok P).mp again).1.symm)
  exact Except.ok.inj (described.symm.trans again)

/-- A snapshot is another one or descends from it. -/
def Contains (session : Session) : SnapshotId → SnapshotId → Prop :=
  Relation.ReflTransGen (Parent P session)

/-- A checkpoint with a revision names one head, which has it. -/
def Checkpoint.Sound (session : Session) (checkpoint : Checkpoint) : Prop :=
  ∀ revision, checkpoint.revision = some revision → ∃ head parents,
    checkpoint.heads = [head] ∧ Describes P session head ⟨parents, some revision⟩

/-- What a device relies on when it synchronizes. -/
structure Device.Sound (device : Device) : Prop where
  /-- The vault is one of its owner's. -/
  sane : Sane P.toPlatform keys True device.vault
  /-- What is cached came from such vaults. -/
  cached : ∀ (id : SnapshotId) bytes, device.store.cache[id]? = some bytes →
    Aipass.Sound P.toPlatform keys True bytes
  /-- What is kept of the snapshots is what they say of themselves. -/
  authentic : device.store.Authentic P device.vault.session
  checkpoints : ∀ name, (device.store.checkpoint name).Sound P device.vault.session

/-- What a run is shown: the snapshots listed, less those ignored, and the heads of its checkpoint. -/
def Shown (device : Device) (listed : List SnapshotId) (name : String) (id : SnapshotId) : Prop :=
  id ∈ listed ∧ device.store.ignored[id]? = none ∨ id ∈ (device.store.checkpoint name).heads

/-- A single head contains whatever a run was shown, and stands for the vault. -/
structure Converged (session : Session) (revision : Digest) (name : String)
    (shown : SnapshotId → Prop) (left : Store) (head : SnapshotId) : Prop where
  /-- The checkpoint names the head alone. -/
  checkpoint : left.checkpoint name = ⟨[head], some revision⟩
  /-- The head has the revision of the vault. -/
  authentic : ∃ parents, Describes P session head ⟨parents, some revision⟩
  contains : ∀ id, shown id → Contains P session head id

/-- A known snapshot names the parents that are known of it. -/
theorem names_links {snapshots : Snapshots} {child parent : SnapshotId} :
    snapshots.links.Names child parent ↔
      ∃ metadata, snapshots[child]? = some metadata ∧ parent ∈ metadata.parents := by
  simp [Snapshots.links, Links.Names]

/-- The heads are the known snapshots that no known one names. -/
theorem mem_headsOf {snapshots : Snapshots} {id : SnapshotId} :
    id ∈ headsOf snapshots ↔
      snapshots[id]?.isSome ∧ ∀ other, ¬ snapshots.links.Names other id := by
  rw [headsOf, mem_removeParents, Table.mem_keySet]
  refine and_congr_right fun _ => ?_
  simp only [names_links, List.forall_mem_map, Table.mem_valueList]
  constructor
  · rintro free other ⟨metadata, found, named⟩
    exact free metadata ⟨other, found⟩ named
  · rintro free metadata ⟨other, found⟩ named
    exact free other ⟨metadata, found, named⟩

/-- What is known of snapshots is what they say of themselves, and their revisions are taken from
it. -/
structure Understood (session : Session) (snapshots : Snapshots)
    (revisions : Table SnapshotId Digest) : Prop where
  described : ∀ (id : SnapshotId) metadata, snapshots[id]? = some metadata →
    Describes P session id metadata
  revised : ∀ (id : SnapshotId) metadata, snapshots[id]? = some metadata →
    revisions[id]? = metadata.revision

/-- What a run has settled on once it looked for a single head to adopt. -/
structure Adopted (snapshots : Snapshots) (device : Device) (adopted : Checkpoint)
    (left : Device) : Prop where
  sound : left.Sound P keys
  store : left.store = device.store
  checkpoint : adopted.Sound P left.vault.session
  /-- A checkpoint that has the revision of the vault names the head, if it is a single one. -/
  single : ∀ id, headsOf snapshots = {id} →
    adopted.revision = some (left.vault.syncRevision P.toPlatform) → adopted.heads = [id]

/-- What joining heads leaves of an adopted checkpoint: itself, or one without a revision. -/
structure Joins (device : Device) (adopted joined : Checkpoint × ℕ) (left : Device) : Prop where
  sound : left.Sound P keys
  store : left.store = device.store
  outcome : joined.1.revision = none ∨ joined = adopted ∧ left = device

/-- What a run settles on: the checkpoint it adopted, if it has the revision of the vault, or else
a new snapshot in place of the heads that the checkpoint names. -/
structure Published (heads : Finset SnapshotId) (checkpoint : Checkpoint) (device : Device)
    (settled : Settled) (left : Device) : Prop where
  sound : left.Sound P keys
  vault : left.vault = device.vault
  revision : settled.checkpoint.revision = some (device.vault.syncRevision P.toPlatform)
  settles : settled.checkpoint.Sound P device.vault.session
  outcome : settled.heads = heads ∧ settled.checkpoint = checkpoint ∨
    ∃ id, settled.heads = insert id (checkpoint.heads.foldl Finset.erase heads) ∧
      settled.checkpoint.heads = [id] ∧
      ∀ parent ∈ checkpoint.heads, Parent P device.vault.session id parent

section Steps

variable {P keys}

/-- A checkpoint is sound for every session of the vault. -/
theorem Checkpoint.Sound.congr {session session' : Session} (same : SameVault session session')
    {checkpoint : Checkpoint} (sound : checkpoint.Sound P session) :
    checkpoint.Sound P session' := fun revision held =>
  let ⟨head, parents, heads, described⟩ := sound revision held
  ⟨head, parents, heads, described.congr P same⟩

/-- The vaults of one owner are one vault. -/
theorem sameVault_of_sane {left right : Vault} (leftSane : Sane P.toPlatform keys True left)
    (rightSane : Sane P.toPlatform keys True right) : SameVault left.session right.session :=
  ⟨leftSane.rootKey.trans rightSane.rootKey.symm, leftSane.vaultId.trans rightSane.vaultId.symm⟩

variable {device : Device}

/-- A device stays sound with another vault of its owner. -/
theorem Device.Sound.withVault (sound : device.Sound P keys) {vault : Vault}
    (sane : Sane P.toPlatform keys True vault) :
    Device.Sound P keys { device with vault } :=
  have same := sameVault_of_sane sound.sane sane
  ⟨sane, sound.cached, sound.authentic.congr P same, fun name => (sound.checkpoints name).congr same⟩

/-- Applying a sound snapshot leaves the device sound, and its files of synchronization alone. -/
theorem Device.Sound.wp_apply (sound : device.Sound P keys) (draws : ApplyDraws) {bytes : Bytes}
    (source : Aipass.Sound P.toPlatform keys True bytes) :
    (onVault (applySyncSnapshot P.toPlatform draws bytes)).wp (fun _ => True)
      (fun _ left => left.Sound P keys)
      (fun _ left => left.Sound P keys ∧ left.store = device.store) device := by
  rw [onVault, wp_within]
  exact wp_mono (sound.sane.wp_apply draws source) (fun _ _ => trivial)
    (fun _ _ sane => sound.withVault sane) fun _ _ sane => ⟨sound.withVault sane, rfl⟩

/-- A body read from the cache is sound. -/
theorem Device.Sound.wp_readCache (sound : device.Sound P keys) (id : SnapshotId) :
    (readCache id).wp (fun _ => True) (fun _ left => left.Sound P keys)
      (fun bytes left => left = device ∧ Aipass.Sound P.toPlatform keys True bytes) device := by
  simp only [readCache, wp_bind, wp_read, wp_ofExcept]
  cases held : device.store.cache[id]? with
  | none => exact sound
  | some bytes => exact ⟨trivial, sound.cached id bytes held⟩

/-- A checkpoint that takes the revision of its head is sound. -/
theorem Checkpoint.Sound.fill {session : Session} {checkpoint : Checkpoint} {snapshots : Snapshots}
    {revisions : Table SnapshotId Digest} (understood : Understood P session snapshots revisions)
    (known : ∀ id ∈ checkpoint.heads, snapshots[id]?.isSome)
    (sound : checkpoint.Sound P session) : (checkpoint.fill revisions).Sound P session := by
  unfold Checkpoint.fill
  split
  · next head _ heads =>
    intro revision held
    obtain ⟨⟨parents, own⟩, found⟩ := Option.isSome_iff_exists.mp (known head (by simp [heads]))
    have same : own = some revision := (understood.revised head _ found).symm.trans held
    subst same
    exact ⟨head, parents, heads, understood.described head _ found⟩
  · exact sound

/-- Adopting a single head leaves a sound device. -/
theorem Device.Sound.wp_adopt (sound : device.Sound P keys) (draws : ApplyDraws)
    {snapshots : Snapshots} {revisions : Table SnapshotId Digest}
    (understood : Understood P device.vault.session snapshots revisions) {checkpoint : Checkpoint}
    (filled : checkpoint.Sound P device.vault.session) :
    (adopt P draws (headsOf snapshots) revisions checkpoint).wp (fun _ => True)
      (fun _ left => left.Sound P keys)
      (fun adopted left => Adopted P keys snapshots device adopted.1 left) device := by
  simp only [adopt, wp_bind, wp_read]
  split
  case h_1 id sorted =>
    have only : headsOf snapshots = {id} := by
      ext other
      rw [← Finset.mem_sort (· ≤ ·), sorted]
      simp
    have present : id ∈ headsOf snapshots := by simp [only]
    obtain ⟨⟨parents, own⟩, found⟩ := Option.isSome_iff_exists.mp (mem_headsOf.mp present).1
    have named {other : SnapshotId} (same : headsOf snapshots = {other}) : [id] = [other] := by
      rw [only, Finset.singleton_inj] at same
      rw [same]
    have described := understood.described id _ found
    have revised := understood.revised id _ found
    split
    case isTrue equal =>
      obtain rfl : own = some _ := revised.symm.trans equal
      refine (wp_pure _).mpr ⟨sound, rfl, ?_, fun _ same _ => named same⟩
      rintro _ ⟨⟩
      exact ⟨id, parents, rfl, described⟩
    split
    case isTrue behind =>
      simp only [wp_bind]
      refine wp_imp (sound.wp_readCache id) ?_
      rintro bytes _ ⟨rfl, source⟩
      refine wp_imp (sound.wp_apply draws source) ?_
      rintro _ left ⟨after, kept⟩
      refine (wp_pure _).mpr ⟨after, kept, ?_, fun _ same _ => named same⟩
      intro revision held
      obtain rfl : own = some revision := revised.symm.trans held
      exact ⟨id, parents, rfl, described.congr P (sameVault_of_sane sound.sane after.sane)⟩
    case isFalse current =>
      refine (wp_pure _).mpr ⟨sound, rfl, filled, fun other same equal => ?_⟩
      rw [← named same]
      by_contra differ
      exact current ⟨equal, differ⟩
  case h_2 several =>
    refine (wp_pure _).mpr ⟨sound, rfl, filled, fun id same _ => ?_⟩
    exact absurd (by rw [same, Finset.sort_singleton]) (several id)

/-- A head that is joined leaves a sound device, and the checkpoint without a revision. -/
theorem Device.Sound.wp_joinOne (sound : device.Sound P keys) (draws : SyncDraws)
    (localHead : SnapshotId) (snapshots : Snapshots) (revisions : Table SnapshotId Digest)
    (joined : Checkpoint × ℕ) (incoming : SnapshotId) :
    (joinOne P draws localHead snapshots revisions joined incoming).wp (fun _ => True)
      (fun _ left => left.Sound P keys)
      (Joins P keys device joined) device := by
  have kept : Joins P keys device joined joined device := ⟨sound, rfl, .inr ⟨rfl, rfl⟩⟩
  unfold joinOne
  split
  · exact (wp_pure _).mpr kept
  simp only [wp_bind, wp_read]
  split
  · exact (wp_pure _).mpr ⟨sound, rfl, .inl rfl⟩
  split
  · exact (wp_pure _).mpr kept
  simp only [wp_bind]
  refine wp_imp (sound.wp_readCache incoming) ?_
  rintro remote _ ⟨rfl, source⟩
  refine wp_imp (sound.wp_readCache _) ?_
  rintro base _ ⟨rfl, -⟩
  rw [wp_ofExcept]
  split
  case h_2 => exact sound
  case h_1 merged found =>
    cases merged with
    | none => exact (wp_pure _).mpr kept
    | some bytes =>
      simp only [wp_bind]
      have merges := sound.sane.merge source (mapError_eq_ok.mp found)
      refine wp_imp (sound.wp_apply _ merges) ?_
      rintro _ left ⟨after, same⟩
      exact (wp_pure _).mpr ⟨after, same, .inl rfl⟩

/-- Joining the other heads leaves a sound device, and changes nothing unless it leaves the
checkpoint without a revision. -/
theorem Device.Sound.wp_joinAll (sound : device.Sound P keys) (draws : SyncDraws)
    (heads : Finset SnapshotId) (snapshots : Snapshots) (revisions : Table SnapshotId Digest)
    (adopted : Checkpoint × ℕ) :
    (joinAll P draws heads snapshots revisions adopted).wp (fun _ => True)
      (fun _ left => left.Sound P keys)
      (Joins P keys device adopted) device := by
  unfold joinAll
  split
  · refine wp_foldlM _ _ adopted (fun _ => Joins P keys device adopted)
      ⟨sound, rfl, .inr ⟨rfl, rfl⟩⟩ ?_
    rintro _ incoming _ - joined before ⟨held, same, outcome⟩
    refine wp_imp (held.wp_joinOne draws _ snapshots revisions joined incoming) ?_
    rintro next left ⟨after, kept, last⟩
    refine ⟨after, kept.trans same, ?_⟩
    rcases last with bare | ⟨rfl, rfl⟩
    · exact .inl bare
    · exact outcome
  · exact (wp_pure _).mpr ⟨sound, rfl, .inr ⟨rfl, rfl⟩⟩

/-- What a vault publishes describes itself by its revision and the parents it was given. -/
theorem describes_export {vault : Vault} (sane : Sane P.toPlatform keys True vault)
    (draw : SnapshotDraw) (parents : List SnapshotId) :
    Describes P vault.session
      (snapshotId P (vault.exportSyncSnapshotWithParents P.toPlatform draw parents))
      ⟨parents, some (vault.syncRevision P.toPlatform)⟩ := by
  have stored : ∀ (path : SyncPath) (held : Bytes),
      (withoutAudit vault.disk.files)[path]? = some held → path.dir ≠ .audit ∧ ∃ envelope,
        WellFormed P.toPlatform True keys.vaultId vault.session.epochKey path held envelope :=
    fun path held found => let ⟨outside, present⟩ := get_of_withoutAudit found
      ⟨outside, sane.wellFormed present⟩
  refine ⟨_, (bodyMetadata_eq_ok P).mpr ⟨rfl, _, _,
    sane.decode_files sane.rootKey sane.vaultId draw _ parents stored, ?_⟩⟩
  rw [parentIds_encodedSnapshot, filter_listing fun path held found => (stored path held found).1]
  rfl

/-- A device stays sound with other files that have its checkpoints and metadata and whose cached
bodies are sound. -/
theorem Device.Sound.withStore (sound : device.Sound P keys) {store : Store}
    (checkpoints : ∀ name, store.checkpoint name = device.store.checkpoint name)
    (metadata : store.metadata = device.store.metadata)
    (cached : ∀ (id : SnapshotId) bytes, store.cache[id]? = some bytes →
      Aipass.Sound P.toPlatform keys True bytes) : Device.Sound P keys { device with store } where
  sane := sound.sane
  cached := cached
  authentic id ciphertext found := sound.authentic id ciphertext (metadata ▸ found)
  checkpoints name := by
    rw [checkpoints]
    exact sound.checkpoints name

/-- Publishing what the vault holds leaves a sound device. -/
theorem Device.Sound.wp_publishDirty (sound : device.Sound P keys) (draw : SnapshotDraw)
    (name : String) (heads : Finset SnapshotId) {checkpoint : Checkpoint}
    (adopted : checkpoint.Sound P device.vault.session) :
    (publishDirty P draw name heads checkpoint).wp (fun _ => True)
      (fun _ left => left.Sound P keys)
      (fun settled left => Published P keys heads checkpoint device settled left) device := by
  simp only [publishDirty, wp_bind, wp_read]
  split
  case isTrue clean => exact (wp_pure _).mpr ⟨sound, rfl, clean, adopted, .inl ⟨rfl, rfl⟩⟩
  case isFalse =>
    have describes := describes_export sound.sane draw checkpoint.heads
    have source : Aipass.Sound P.toPlatform keys True
        (device.vault.exportSyncSnapshotWithParents P.toPlatform draw checkpoint.heads) :=
      sound.sane.sound_encode (sound.sane.listed false)
    simp only [publishBranch, onStore, wp_bind, wp_read, wp_within, stageLinkedSnapshot, wp_write,
      true_and, wp_pure]
    generalize device.vault.exportSyncSnapshotWithParents P.toPlatform draw checkpoint.heads =
      bytes at describes source ⊢
    -- The new body joins the cache, and only the outbox of the target may change besides.
    have inserted {cache : Table SnapshotId Bytes} (bodies : ∀ (id : SnapshotId) held,
        cache[id]? = some held → Aipass.Sound P.toPlatform keys True held) :
        ∀ (id : SnapshotId) held, (cache.insert (snapshotId P bytes) bytes)[id]? = some held →
          Aipass.Sound P.toPlatform keys True held := Table.forall_insert bodies source
    have published {store : Store} (held : Device.Sound P keys { device with store }) :
        Published P keys heads checkpoint device ⟨insert (snapshotId P bytes)
          (checkpoint.heads.foldl Finset.erase heads), ⟨[snapshotId P bytes],
            some (device.vault.syncRevision P.toPlatform)⟩, 1⟩ { device with store } := by
      refine ⟨held, rfl, rfl, ?_, .inr ⟨_, rfl, rfl, fun parent named =>
        ⟨_, describes, named⟩⟩⟩
      rintro _ ⟨⟩
      exact ⟨_, _, rfl, describes⟩
    split
    · split
      · exact (wp_pure _).mpr (published (sound.withStore (fun _ => rfl) rfl
          (inserted (inserted sound.cached))))
      · exact (wp_fail _).mpr (sound.withStore (fun _ => rfl) rfl (inserted sound.cached))
    · refine (wp_write _).mpr ⟨trivial, published (sound.withStore (fun other => ?_) rfl
        (inserted (inserted sound.cached)))⟩
      simp only [Store.checkpoint, Store.target_setCache, Store.target_setTarget]
      split
      · next same => rw [same]; rfl
      · rfl

/-- Every known snapshot is contained in a head. -/
theorem exists_head_containing {session : Session} {snapshots : Snapshots}
    (described : ∀ (id : SnapshotId) metadata, snapshots[id]? = some metadata →
      Describes P session id metadata) (acyclic : snapshots.links.Acyclic) {id : SnapshotId}
    (known : snapshots[id]?.isSome) :
    ∃ head ∈ headsOf snapshots, Contains P session head id := by
  have listed : snapshots.links[id]?.isSome := by simpa [Snapshots.links] using known
  obtain ⟨head, present, free, path⟩ := Links.exists_head acyclic listed
  refine ⟨head, mem_headsOf.mpr ⟨by simpa [Snapshots.links] using present, free⟩, ?_⟩
  refine Relation.ReflTransGen.mono ?_ _ _ path
  intro child parent link
  obtain ⟨metadata, found, named⟩ := names_links.mp link
  exact ⟨metadata, described child metadata found, named⟩

/-- Where a run ends with a single head, the checkpoint names a snapshot that has the revision of
the vault and contains every snapshot known. -/
theorem Published.converged {snapshots : Snapshots} {checkpoint : Checkpoint} {settled : Settled}
    {device before left : Device}
    (published : Published P keys (headsOf snapshots) checkpoint before settled left)
    (described : ∀ (id : SnapshotId) metadata, snapshots[id]? = some metadata →
      Describes P before.vault.session id metadata) (acyclic : snapshots.links.Acyclic)
    (adopts : checkpoint.revision = none ∨ Adopted P keys snapshots device checkpoint before)
    (single : settled.heads.card ≤ 1) :
    ∃ head, settled.checkpoint = ⟨[head], some (left.vault.syncRevision P.toPlatform)⟩ ∧
      (∃ parents, Describes P left.vault.session head
        ⟨parents, some (left.vault.syncRevision P.toPlatform)⟩) ∧
      ∀ id : SnapshotId, snapshots[id]?.isSome → Contains P left.vault.session head id := by
  rw [published.vault]
  obtain ⟨head, parents, heads, describes⟩ := published.settles _ published.revision
  have named : settled.checkpoint = ⟨[head], some (before.vault.syncRevision P.toPlatform)⟩ := by
    rw [← heads, ← published.revision]
  refine ⟨head, named, ⟨parents, describes⟩, fun id known => ?_⟩
  obtain ⟨top, topmost, contains⟩ := exists_head_containing described acyclic known
  refine Relation.ReflTransGen.trans ?_ contains
  rcases published.outcome with ⟨same, kept⟩ | ⟨new, replaced, fresh, covers⟩
  · -- Nothing was published, so the checkpoint names the only head.
    rw [same] at single
    have only : headsOf snapshots = {top} :=
      Finset.eq_singleton_iff_unique_mem.mpr ⟨topmost, fun other member =>
        Finset.card_le_one.mp single other member top topmost⟩
    rcases adopts with bare | adopts
    · rw [← kept, published.revision] at bare
      cases bare
    · have equal := adopts.single top only (kept ▸ published.revision)
      rw [← kept, heads, List.cons.injEq] at equal
      rw [equal.1]
  · -- The new snapshot is the only head, so it has every other one as a parent.
    rw [heads, List.cons.injEq] at fresh
    rw [fresh.1]
    by_cases itself : top = new
    · rw [itself]
    · by_cases member : top ∈ checkpoint.heads
      · exact .single (covers top member)
      · refine absurd (Finset.card_le_one.mp single top ?_ new ?_) itself
        · rw [replaced]
          exact Finset.mem_insert_of_mem ((mem_foldl_erase _ _ _).mpr ⟨topmost, member⟩)
        · rw [replaced]
          exact Finset.mem_insert_self _ _

/-- A run is idle when it quarantined nothing and there is at most one head. -/
theorem of_finalReport_idle {settled : Settled} {downloaded quarantined : ℕ}
    (idle : (finalReport settled downloaded quarantined).status = .idle) :
    quarantined = 0 ∧ settled.heads.card ≤ 1 := by
  simp only [finalReport] at idle
  split at idle
  · cases idle
  · next calm =>
    rw [not_or, not_not, Nat.not_lt, Nat.le_zero] at calm
    refine ⟨calm.2, ?_⟩
    by_contra several
    have length := congrArg List.length calm.1
    rw [conflictsOf, if_pos (Nat.not_le.mp several), Finset.length_sort] at length
    exact several (by simp [length])

/-- What the rest of a run does with the snapshots it knows. -/
theorem Device.Sound.wp_reconcile (sound : device.Sound P keys) (draws : SyncDraws) (name : String)
    {snapshots : Snapshots} (quarantined : ℕ)
    (described : ∀ (id : SnapshotId) metadata, snapshots[id]? = some metadata →
      Describes P device.vault.session id metadata)
    (retained : ∀ id ∈ (device.store.checkpoint name).heads, snapshots[id]?.isSome)
    (acyclic : snapshots.links.Acyclic) :
    (reconcile P draws name (device.store.checkpoint name) snapshots quarantined).wp
      (fun _ => True) (fun _ left => left.Sound P keys)
      (fun report left => left.Sound P keys ∧ (report.status = .idle → quarantined = 0 ∧
        ∃ head, Converged P left.vault.session (left.vault.syncRevision P.toPlatform) name
          (fun id => snapshots[id]?.isSome) left.store head)) device := by
  obtain ⟨entries, listed, revised⟩ := authenticated_of_described described
  have understood : Understood P device.vault.session snapshots
      ((∅ : Table SnapshotId Digest).insertAll entries) := ⟨described, revised⟩
  simp only [reconcile, wp_bind, wp_ofExcept, listed]
  refine wp_imp (sound.wp_adopt draws.forward understood ((sound.checkpoints name).fill understood
    retained)) ?_
  rintro adopted middle adopts
  refine wp_imp (adopts.sound.wp_joinAll draws _ snapshots _ adopted) ?_
  rintro joined before ⟨held, store, outcome⟩
  -- Either a head was joined, or the vault is as it was adopted.
  have adopts : joined.1.revision = none ∨ Adopted P keys snapshots device joined.1 before :=
    outcome.imp_right fun same => by
      obtain ⟨rfl, rfl⟩ := same
      exact adopts
  have settles : joined.1.Sound P before.vault.session := by
    rcases adopts with bare | adopts
    · intro revision held
      rw [bare] at held
      cases held
    · exact adopts.checkpoint
  refine wp_imp (held.wp_publishDirty draws.publish name (headsOf snapshots) settles) ?_
  rintro settled left published
  have same := sameVault_of_sane sound.sane held.sane
  have saved : settled.checkpoint.Sound P left.vault.session := published.vault ▸ published.settles
  simp only [onStore, wp_within, writeSettled, changeTarget, wp_bind, wp_write, wp_pure, true_and]
  have checkpoints : ∀ other, Store.checkpoint ((left.store.setTarget name
      ((left.store.target name).setConflicts (conflictsOf settled.heads))).setTarget name
      (((left.store.setTarget name ((left.store.target name).setConflicts
        (conflictsOf settled.heads))).target name).setCheckpoint settled.checkpoint)) other =
        if name = other then settled.checkpoint else left.store.checkpoint other := by
    intro other
    simp only [Store.checkpoint, Store.target_setTarget]
    split <;> rfl
  refine ⟨⟨published.sound.sane, published.sound.cached, published.sound.authentic,
    fun other => ?_⟩, fun idle => ?_⟩
  · rw [checkpoints]
    split
    · exact saved
    · exact published.sound.checkpoints other
  · obtain ⟨clean, single⟩ := of_finalReport_idle idle
    obtain ⟨head, named, authentic, contains⟩ := published.converged
      (fun id metadata found => (described id metadata found).congr P same) acyclic adopts single
    exact ⟨clean, head, (checkpoints name).trans ((if_pos rfl).trans named), authentic, contains⟩

end Steps

/-- A run of `synchronize` that reports to be idle has converged: of the snapshots listed, less
those ignored, and the heads of the old checkpoint it found all readable, and the checkpoint it
saves names one snapshot that contains them all and has the revision that the vault has now.
Whether it succeeds or fails, the run leaves a device that the next run can rely on. -/
theorem idle_converged (device : Device) (sound : device.Sound P keys) (draws : SyncDraws)
    (listed : List SnapshotId) (name : String)
    (acyclic : ∀ id, ¬ Relation.TransGen (fun child parent =>
      (child ∈ listed ∨ child ∈ (device.store.checkpoint name).heads) ∧
        Parent P device.vault.session child parent) id id) :
    (synchronize P draws listed name).wp (fun _ => True) (fun _ left => left.Sound P keys)
      (fun report left => left.Sound P keys ∧ (report.status = .idle → ∃ head,
        Converged P left.vault.session (left.vault.syncRevision P.toPlatform) name
          (Shown device listed name) left.store head)) device := by
  have surveyed {left : Store} (done : Surveyed P (some device.vault.session) device.store left) :
      Device.Sound P keys { device with store := left } := by
    refine ⟨sound.sane, done.cache ▸ sound.cached, done.authentic _ rfl sound.authentic,
      fun other => ?_⟩
    rw [Store.checkpoint, Store.target, done.targets]
    exact sound.checkpoints other
  simp only [synchronize, wp_bind, wp_read, onStore, wp_within]
  refine wp_mono (wp_survey P (some device.vault.session) draws.metadata listed _ device.store)
    (fun _ _ => trivial) (fun _ _ done => surveyed done) ?_
  rintro ⟨snapshots, quarantined⟩ left done
  have ready := surveyed done.surveyed
  split
  · exact (wp_pure _).mpr ⟨ready, fun idle => by cases idle⟩
  have described : ∀ (id : SnapshotId) metadata, snapshots[id]? = some metadata →
      Describes P device.vault.session id metadata := fun id metadata found =>
    done.collected.known id metadata found _ rfl sound.authentic
  have same : Store.checkpoint left name = device.store.checkpoint name := by
    rw [Store.checkpoint, Store.target, done.surveyed.targets]
    rfl
  have linked : snapshots.links.Acyclic := by
    refine fun id cycle => acyclic id (Relation.TransGen.mono ?_ _ _ cycle)
    intro child parent link
    obtain ⟨metadata, found, named⟩ := names_links.mp link
    exact ⟨(done.collected.source child metadata found).imp_left And.left, metadata,
      described child metadata found, named⟩
  have reconciled := ready.wp_reconcile draws name quarantined described
    (by simp only [same]; exact done.retained) linked
  simp only [same] at reconciled
  refine wp_imp reconciled ?_
  rintro report after ⟨held, converged⟩
  refine ⟨held, fun idle => ?_⟩
  obtain ⟨clean, head, ended⟩ := converged idle
  exact ⟨head, ended.checkpoint, ended.authentic, fun id shown => ended.contains id
    (shown.elim (fun listed => done.complete clean id listed.1 listed.2) (done.retained id))⟩

namespace Sample

/-- The first snapshot of the small vault, which it publishes without parents. -/
def firstSnapshot : Bytes :=
  (withObject false).exportSyncSnapshotWithParents standIn.toPlatform Sample.snapshotDraw []

/-- A device with the small vault, which has downloaded the first snapshot. -/
def freshDevice : Device :=
  ⟨withObject false, Store.empty.setCache (snapshotId standIn firstSnapshot) firstSnapshot⟩

/-- The small vault is one of its owner's. -/
theorem withObject_sane : Sane standIn.toPlatform sampleKeys True (withObject false) :=
  (Fleet.invariant_of_reachable (.start (init_sampleFleet standIn.toPlatform))).sane 0

/-- The device has no checkpoint. -/
theorem freshDevice_checkpoint (name : String) :
    freshDevice.store.checkpoint name = Checkpoint.initial := by
  simp [freshDevice, Store.checkpoint, Store.target, Store.setCache, Store.empty, TargetFiles.empty]

/-- A device that has downloaded one snapshot is sound. -/
theorem freshDevice_sound : freshDevice.Sound standIn sampleKeys where
  sane := withObject_sane
  cached := Table.forall_insert (fun id bytes found => by simp [Store.empty] at found)
    (withObject_sane.sound_encode (withObject_sane.listed false))
  authentic id ciphertext found := by
    change (∅ : Table SnapshotId Ciphertext)[id]? = some ciphertext at found
    simp at found
  checkpoints name revision held := by
    rw [freshDevice_checkpoint] at held
    cases held

/-- What it draws. -/
def freshDraws : SyncDraws :=
  ⟨fun _ => Sample.nonce 7, sampleDraws, fun _ => Sample.snapshotDraw, fun _ => sampleDraws,
    Sample.snapshotDraw⟩

/-- A device that is shown the first snapshot of its vault only is idle when it has converged. -/
theorem idle_converged_fresh :
    (synchronize standIn freshDraws [snapshotId standIn firstSnapshot] "home").wp (fun _ => True)
      (fun _ left => left.Sound standIn sampleKeys)
      (fun report left => left.Sound standIn sampleKeys ∧ (report.status = .idle → ∃ head,
        Converged standIn left.vault.session (left.vault.syncRevision standIn.toPlatform) "home"
          (Shown freshDevice [snapshotId standIn firstSnapshot] "home") left.store head))
      freshDevice := by
  refine idle_converged standIn sampleKeys freshDevice freshDevice_sound freshDraws _ "home" ?_
  -- The snapshot has no parents, so that no link starts at what is listed.
  have first : Describes standIn (withObject false).session (snapshotId standIn firstSnapshot)
      ⟨[], some ((withObject false).syncRevision standIn.toPlatform)⟩ :=
    describes_export withObject_sane Sample.snapshotDraw []
  intro id cycle
  rw [freshDevice_checkpoint] at cycle
  obtain ⟨parent, ⟨shown, metadata, described, named⟩, -⟩ := Relation.TransGen.head'_iff.mp cycle
  have listed : id = snapshotId standIn firstSnapshot := by
    simpa [Checkpoint.initial] using shown
  obtain rfl := (listed ▸ described : Describes standIn _ _ metadata).unique standIn first
  cases named

end Sample

end Aipass.Sync
