import Aipass.Sync.Synchronize

/-!
# What a run knows

A run of `synchronize` first reads the links and the revision of every snapshot that it is
shown. Reading changes no target and no cached body, and what it returns is what the snapshots
themselves say: a metadata file was written by an earlier run from the body it describes.
-/
namespace Aipass.Sync

variable (P : SyncPlatform)

/-- What the snapshot of a name says of itself to a session of its vault. -/
def Describes (session : Session) (id : SnapshotId) (metadata : SnapshotMetadata) : Prop :=
  ∃ bytes, bodyMetadata P (some session) id bytes = .ok metadata

/-- A body describes itself when its name is right and the vault accepts it. -/
theorem bodyMetadata_eq_ok {session : Session} {id : SnapshotId} {bytes : Bytes}
    {metadata : SnapshotMetadata} :
    bodyMetadata P (some session) id bytes = .ok metadata ↔
      snapshotId P bytes = id ∧ ∃ snapshot payload,
        session.decodeSnapshot P.toPlatform bytes = .ok (snapshot, payload) ∧
        metadata = ⟨snapshot.parentIds, some (Aipass.revision P.toPlatform snapshot.header
          ⟨payload.files.filter fun file => !file.isAudit⟩)⟩ := by
  constructor
  · intro described
    simp only [bodyMetadata] at described
    split at described
    · simp at described
    case isFalse named =>
      obtain ⟨snapshot, parsed, described⟩ := bind_eq_ok.mp described
      split at described
      · simp at described
      · simp only [bind_eq_ok, mapError_eq_ok, Session.syncSnapshotRevision, pure, Except.pure,
          Except.ok.injEq] at described
        obtain ⟨_, ⟨⟨decoded, payload⟩, accepted, rfl⟩, rfl⟩ := described
        obtain ⟨entries, epoch, -, decodes⟩ := (decodeSnapshot_eq_ok P.toPlatform).mp accepted
        rw [mapError_eq_ok, decodes.parsed, Except.ok.injEq] at parsed
        subst parsed
        exact ⟨by simpa using named, decoded, payload, accepted, rfl⟩
  · rintro ⟨rfl, snapshot, payload, accepted, rfl⟩
    obtain ⟨entries, epoch, -, decodes⟩ := (decodeSnapshot_eq_ok P.toPlatform).mp accepted
    simp [bodyMetadata, decodes.parsed, decodes.sameVault, Session.syncSnapshotRevision, accepted,
      Except.mapError, pure, Except.pure]

/-- Two sessions of one vault that share its root key. -/
structure SameVault (left right : Session) : Prop where
  rootKey : left.rootKey = right.rootKey
  vaultId : left.header.vaultId = right.header.vaultId

/-- A snapshot says the same to every session of its vault. -/
theorem Describes.congr {session session' : Session} (same : SameVault session session')
    {id : SnapshotId} {metadata : SnapshotMetadata} (described : Describes P session id metadata) :
    Describes P session' id metadata := by
  obtain ⟨bytes, described⟩ := described
  obtain ⟨named, snapshot, payload, accepted, rfl⟩ := (bodyMetadata_eq_ok P).mp described
  rw [decodeSnapshot_congr P.toPlatform same.rootKey same.vaultId] at accepted
  exact ⟨bytes, (bodyMetadata_eq_ok P).mpr ⟨named, snapshot, payload, accepted, rfl⟩⟩

/-- Every metadata file was encrypted from what the snapshot of its name says of itself. -/
def Store.Authentic (session : Session) (store : Store) : Prop :=
  ∀ (id : SnapshotId) (ciphertext : Ciphertext), store.metadata[id]? = some ciphertext →
    ∃ nonce key aad metadata, ciphertext =
        encryptBytes P.toPlatform nonce key aad (P.metadata.toVec metadata) ∧
      Describes P session id metadata

/-- A store is authentic to every session of its vault. -/
theorem Store.Authentic.congr {session session' : Session} (same : SameVault session session')
    {store : Store} (authentic : store.Authentic P session) : store.Authentic P session' := by
  intro id ciphertext held
  obtain ⟨nonce, key, aad, metadata, rfl, described⟩ := authentic id ciphertext held
  exact ⟨nonce, key, aad, metadata, rfl, described.congr P same⟩

/-- Cached metadata is what its snapshot says of itself. -/
theorem Store.Authentic.cached {session : Session} {store : Store}
    (authentic : store.Authentic P session) {id : SnapshotId}
    {found : Except SyncError SnapshotMetadata}
    (cached : cachedMetadata P session store id = some found) :
    ∃ metadata, found = .ok metadata ∧ Describes P session id metadata := by
  unfold cachedMetadata at cached
  obtain ⟨ciphertext, held, cached⟩ := Option.bind_eq_some_iff.mp cached
  obtain ⟨nonce, key, aad, metadata, rfl, described⟩ := authentic id ciphertext held
  split at cached
  case h_1 bytes opened =>
    obtain ⟨nonce', same⟩ := (decryptBytes_eq_ok P.toPlatform).mp opened
    obtain ⟨-, rfl⟩ := encryptBytes_injective P.toPlatform same
    simp only [Serde.fromSlice_toVec, okOr_some, Option.some.injEq] at cached
    exact ⟨metadata, cached.symm, described⟩
  case h_2 => simp at cached

/-- What reading metadata may change of the sync files: the metadata files, which stay
authentic, and the quarantine. -/
structure Surveyed (session : Option Session) (start left : Store) : Prop where
  targets : left.targets = start.targets
  cache : left.cache = start.cache
  ignored : left.ignored = start.ignored
  authentic : ∀ opened, session = some opened → start.Authentic P opened →
    left.Authentic P opened

/-- Reading nothing changes nothing. -/
theorem Surveyed.refl (session : Option Session) (store : Store) :
    Surveyed P session store store := ⟨rfl, rfl, rfl, fun _ _ authentic => authentic⟩

/-- Reading on changes no more. -/
theorem Surveyed.trans {session : Option Session} {first second third : Store}
    (left : Surveyed P session first second) (right : Surveyed P session second third) :
    Surveyed P session first third :=
  ⟨right.targets.trans left.targets, right.cache.trans left.cache,
    right.ignored.trans left.ignored, fun opened same authentic =>
      right.authentic opened same (left.authentic opened same authentic)⟩

/-- What is known of a snapshot is what it says of itself to an unlocked session. -/
def Known (session : Option Session) (start : Store) (id : SnapshotId)
    (metadata : SnapshotMetadata) : Prop :=
  ∀ opened, session = some opened → start.Authentic P opened → Describes P opened id metadata

/-- The cached body of a snapshot, if there is one, describes itself. -/
def Readable (session : Option Session) (store : Store) (id : SnapshotId) : Prop :=
  ∀ bytes, store.cache[id]? = some bytes → ∃ metadata, bodyMetadata P session id bytes = .ok metadata

/-- A snapshot is absent from the cache unless its body is unreadable. -/
def Absent (session : Option Session) (start : Store) (id : SnapshotId) : Prop :=
  ∀ opened, session = some opened → start.Authentic P opened → Readable P session start id →
    start.cache[id]? = none

/-- Reading the metadata of one snapshot changes nothing else and returns what the snapshot says
of itself. -/
theorem wp_snapshotMetadata (session : Option Session) (nonces : SnapshotId → Nonce)
    (id : SnapshotId) (store : Store) :
    (snapshotMetadata P session nonces id).wp (Surveyed P session store)
      (fun _ left => Surveyed P session store left ∧ Absent P session store id)
      (fun metadata left => Surveyed P session store left ∧ Known P session store id metadata)
      store := by
  simp only [snapshotMetadata, Program.wp_bind, Program.wp_read]
  have unchanged := Surveyed.refl P session store
  cases cached : session.bind fun session => cachedMetadata P session store id with
  | some found =>
    simp only [Program.wp_ofExcept]
    cases found with
    | error error =>
      refine ⟨unchanged, ?_⟩
      rintro opened rfl authentic
      obtain ⟨held, same, -⟩ := authentic.cached P cached
      simp at same
    | ok metadata =>
      refine ⟨unchanged, ?_⟩
      rintro opened rfl authentic
      obtain ⟨held, same, described⟩ := authentic.cached P cached
      rw [Except.ok.injEq] at same
      rwa [same]
  | none =>
    simp only [Program.wp_bind, Program.wp_ofExcept]
    cases body : store.cache[id]? with
    | none => exact ⟨unchanged, fun _ _ _ _ => body⟩
    | some bytes =>
      simp only [okOr_some]
      cases described : bodyMetadata P session id bytes with
      | error error =>
        refine ⟨unchanged, fun _ _ _ readable => ?_⟩
        obtain ⟨metadata, ok⟩ := readable bytes body
        simp [described] at ok
      | ok metadata =>
        cases session with
        | none => exact (Program.wp_pure _).mpr ⟨unchanged, fun _ locked => by simp at locked⟩
        | some session =>
          have written : Surveyed P (some session) store (store.setMetadata id
              (encryptBytes P.toPlatform (nonces id) session.indexKey
                (localStateAad P session (metadataPurpose id)) (P.metadata.toVec metadata))) := by
            refine ⟨rfl, rfl, rfl, ?_⟩
            rintro opened same authentic other ciphertext held
            obtain rfl := Option.some.inj same
            rw [Store.metadata_setMetadata, Table.get_insert] at held
            split at held
            case isTrue same =>
              subst same
              exact ⟨_, _, _, metadata, (Option.some.inj held).symm, bytes, described⟩
            case isFalse => exact authentic other ciphertext held
          simp only [Program.wp_bind, Program.wp_write, Program.wp_pure]
          refine ⟨written, written, fun opened same _ => ?_⟩
          obtain rfl := Option.some.inj same
          exact ⟨bytes, described⟩

/-- Every snapshot known came from a list of ids that are not ignored, and is described by what
it says of itself. -/
structure Collected (session : Option Session) (start : Store) (shown : SnapshotId → Prop)
    (snapshots : Snapshots) : Prop where
  /-- Nothing else is known. -/
  source : ∀ (id : SnapshotId) metadata, snapshots[id]? = some metadata → shown id
  /-- Nothing is known but what the snapshots say. -/
  known : ∀ (id : SnapshotId) metadata, snapshots[id]? = some metadata →
    Known P session start id metadata

/-- Knowing one more snapshot. -/
theorem Collected.insert {session : Option Session} {start : Store} {shown : SnapshotId → Prop}
    {snapshots : Snapshots} (collected : Collected P session start shown snapshots)
    {id : SnapshotId} {metadata : SnapshotMetadata} (source : shown id)
    (known : Known P session start id metadata) :
    Collected P session start shown (snapshots.insert id metadata) where
  source other held found := by
    rw [Table.get_insert] at found
    split at found
    case isTrue same => rwa [← same]
    case isFalse => exact collected.source other held found
  known other held found := by
    rw [Table.get_insert] at found
    split at found
    case isTrue same =>
      rw [← same, ← Option.some.inj found]
      exact known
    case isFalse => exact collected.known other held found

/-- Knowing by more names. -/
theorem Collected.mono {session : Option Session} {start : Store}
    {shown shown' : SnapshotId → Prop} {snapshots : Snapshots}
    (collected : Collected P session start shown snapshots)
    (more : ∀ id, shown id → shown' id) : Collected P session start shown' snapshots :=
  ⟨fun id metadata found => more id (collected.source id metadata found), collected.known⟩

/-- A description that some earlier state of the files justified is justified by a later one. -/
theorem Known.of_surveyed {session : Option Session} {start left : Store}
    (surveyed : Surveyed P session start left) {id : SnapshotId} {metadata : SnapshotMetadata}
    (known : Known P session left id metadata) : Known P session start id metadata :=
  fun opened same authentic => known opened same (surveyed.authentic opened same authentic)

/-- An absence from the cache of a later state is one from the cache of an earlier state. -/
theorem Absent.of_surveyed {session : Option Session} {start left : Store}
    (surveyed : Surveyed P session start left) {id : SnapshotId}
    (absent : Absent P session left id) : Absent P session start id := by
  intro opened same authentic readable
  rw [← surveyed.cache]
  refine absent opened same (surveyed.authentic opened same authentic) fun bytes held => ?_
  rw [surveyed.cache] at held
  exact readable bytes held

/-- What a run knows after it looked at some of the listed snapshots. -/
structure Inspected (session : Option Session) (start : Store) (listed : List SnapshotId)
    (seen : Snapshots × ℕ) (left : Store) : Prop where
  surveyed : Surveyed P session start left
  collected : Collected P session start
    (fun id => id ∈ listed ∧ start.ignored[id]? = none) seen.1
  /-- What was not quarantined is known. -/
  complete : seen.2 = 0 → ∀ id ∈ listed, start.ignored[id]? = none → seen.1[id]?.isSome
  /-- Nothing readable is quarantined. -/
  spared : ∀ opened, session = some opened → start.Authentic P opened →
    (∀ id ∈ listed, Readable P session start id) → seen.2 = 0

/-- Looking at one more listed snapshot. -/
theorem wp_inspect {session : Option Session} (nonces : SnapshotId → Nonce) {start before : Store}
    {visited : List SnapshotId} {seen : Snapshots × ℕ} (id : SnapshotId)
    (inspected : Inspected P session start visited seen before) :
    (inspect P session nonces seen id).wp (Surveyed P session start)
      (fun _ => Surveyed P session start)
      (fun next left => Inspected P session start (visited ++ [id]) next left) before := by
  have surveyed := inspected.surveyed
  have more : ∀ other, other ∈ visited ∧ start.ignored[other]? = none →
      other ∈ visited ++ [id] ∧ start.ignored[other]? = none :=
    fun other shown => ⟨List.mem_append_left _ shown.1, shown.2⟩
  simp only [inspect, Program.wp_bind, Program.wp_read, surveyed.ignored]
  split
  case isTrue skipped =>
    refine (Program.wp_pure _).mpr ⟨surveyed, inspected.collected.mono P more, ?_, ?_⟩
    · intro none other shown open'
      rcases List.mem_append.mp shown with earlier | last
      · exact inspected.complete none other earlier open'
      · obtain rfl := List.mem_singleton.mp last
        simp [open'] at skipped
    · exact fun opened same authentic readable => inspected.spared opened same authentic
        fun other shown => readable other (List.mem_append_left _ shown)
  case isFalse open' =>
    have shown : start.ignored[id]? = none := by simpa using open'
    rw [Program.wp_bind, Program.wp_attempt]
    refine Program.wp_mono (wp_snapshotMetadata P session nonces id before)
      (fun left read => surveyed.trans P read) ?_ ?_
    · rintro error left ⟨read, absent⟩
      have reached := surveyed.trans P read
      simp only
      split
      · exact (Program.wp_fail _).mpr reached
      · simp only [Program.wp_bind, Program.wp_read, Program.wp_ofExcept]
        cases body : left.cache[id]? with
        | none => exact reached
        | some bytes =>
          have quarantined : Surveyed P session start (left.setQuarantine id bytes) :=
            reached.trans P ⟨rfl, rfl, rfl, fun _ _ authentic => authentic⟩
          simp only [okOr_some, Program.wp_write, Program.wp_pure]
          refine ⟨quarantined, quarantined, inspected.collected.mono P more, by simp, ?_⟩
          intro opened same authentic readable
          have gone := absent.of_surveyed P surveyed opened same authentic
            (readable id (List.mem_append_right _ (List.mem_singleton_self id)))
          rw [reached.cache, gone] at body
          simp at body
    · rintro metadata left ⟨read, known⟩
      refine (Program.wp_pure _).mpr ⟨surveyed.trans P read, ?_, ?_, ?_⟩
      · exact (inspected.collected.mono P more).insert P
          ⟨List.mem_append_right _ (List.mem_singleton_self id), shown⟩
          (known.of_surveyed P surveyed)
      · intro none other member open'
        simp only [Table.get_insert]
        split
        · rfl
        case isFalse differ =>
          rcases List.mem_append.mp member with earlier | last
          · exact inspected.complete none other earlier open'
          · exact absurd (List.mem_singleton.mp last).symm differ
      · exact fun opened same authentic readable => inspected.spared opened same authentic
          fun other member => readable other (List.mem_append_left _ member)

/-- What a run knows when it starts to reconcile. -/
structure SurveyDone (session : Option Session) (start : Store) (listed heads : List SnapshotId)
    (snapshots : Snapshots) (quarantined : ℕ) (left : Store) : Prop where
  surveyed : Surveyed P session start left
  collected : Collected P session start
    (fun id => (id ∈ listed ∧ start.ignored[id]? = none) ∨ id ∈ heads) snapshots
  /-- What was not quarantined is known. -/
  complete : quarantined = 0 → ∀ id ∈ listed, start.ignored[id]? = none → snapshots[id]?.isSome
  /-- Nothing readable is quarantined. -/
  spared : ∀ opened, session = some opened → start.Authentic P opened →
    (∀ id ∈ listed, Readable P session start id) → quarantined = 0
  /-- The checkpoint heads are known. -/
  retained : ∀ id ∈ heads, snapshots[id]?.isSome

/-- The survey changes nothing but metadata and quarantine, and returns what the listed
snapshots and the checkpoint heads say of themselves. -/
theorem wp_survey (session : Option Session) (nonces : SnapshotId → Nonce)
    (listed heads : List SnapshotId) (start : Store) :
    (survey P session nonces listed heads).wp (Surveyed P session start)
      (fun _ => Surveyed P session start)
      (fun known left => SurveyDone P session start listed heads known.1 known.2 left)
      start := by
  have unchanged := Surveyed.refl P session start
  rw [survey, Program.wp_bind]
  refine Program.wp_mono (Program.wp_foldlM listed _ (∅, 0)
    (fun visited seen left => Inspected P session start visited seen left) ?_ ?_)
    (fun _ left => left) (fun _ _ left => left) ?_
  · exact ⟨unchanged, ⟨by simp, by simp⟩, by simp, fun _ _ _ _ => rfl⟩
  · exact fun visited id rest _ seen before inspected => wp_inspect P nonces id inspected
  rintro ⟨snapshots, quarantined⟩ left inspected
  simp only [retainHeads, Program.wp_bind, Program.wp_pure]
  -- The heads visited so far are known, and nothing known is forgotten.
  refine Program.wp_mono (Program.wp_foldlM heads _ snapshots
    (fun visited known after => Surveyed P session start after ∧
      Collected P session start
        (fun id => (id ∈ listed ∧ start.ignored[id]? = none) ∨ id ∈ visited) known ∧
      (∀ id : SnapshotId, snapshots[id]?.isSome → known[id]?.isSome) ∧
      ∀ id ∈ visited, known[id]?.isSome) ?_ ?_) (fun _ left => left) (fun _ _ left => left) ?_
  · exact ⟨inspected.surveyed, inspected.collected.mono P fun _ => Or.inl, fun _ => id, by simp⟩
  · rintro visited id rest - known before ⟨surveyed, collected, kept, retained⟩
    have more : ∀ other, (other ∈ listed ∧ start.ignored[other]? = none) ∨ other ∈ visited →
        (other ∈ listed ∧ start.ignored[other]? = none) ∨ other ∈ visited ++ [id] :=
      fun other shown => shown.imp_right (List.mem_append_left _)
    unfold retainHead
    split
    case isTrue present =>
      refine (Program.wp_pure _).mpr ⟨surveyed, collected.mono P more, kept, fun other member => ?_⟩
      rcases List.mem_append.mp member with earlier | last
      · exact retained other earlier
      · obtain rfl := List.mem_singleton.mp last
        exact present
    case isFalse =>
      simp only [Program.wp_bind]
      refine Program.wp_mono (wp_snapshotMetadata P session nonces id before)
        (fun left read => surveyed.trans P read) (fun _ left read => surveyed.trans P read.1) ?_
      rintro metadata after ⟨read, found⟩
      refine (Program.wp_pure _).mpr ⟨surveyed.trans P read, ?_, ?_, ?_⟩
      · exact (collected.mono P more).insert P
          (Or.inr (List.mem_append_right _ (List.mem_singleton_self id)))
          (found.of_surveyed P surveyed)
      · intro other present
        simp only [Table.get_insert]
        split
        · rfl
        · exact kept other present
      · intro other member
        simp only [Table.get_insert]
        split
        · rfl
        case isFalse differ =>
          rcases List.mem_append.mp member with earlier | last
          · exact retained other earlier
          · exact absurd (List.mem_singleton.mp last).symm differ
  rintro known after ⟨surveyed, collected, kept, retained⟩
  exact ⟨surveyed, collected, fun none id member open' =>
    kept id (inspected.complete none id member open'), inspected.spared, retained⟩

end Aipass.Sync
