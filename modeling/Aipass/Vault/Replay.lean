import Aipass.Vault.Apply

/-!
# Replaying a journal

Specifications of the phases of `finish_pending_sync`. Each phase has an exact result, and for
each phase the directories that a stop can leave are known. `Underway` describes them together:
every file is the one the replay found or the one it will leave, and the manifest comes last.
`wp_finishPendingSync` assembles the phases.
-/
namespace Aipass

variable (P : Platform)

/-- Installing one listed file leaves it in the directory. -/
theorem wp_installFile {mid : Vault → Prop} {err : VaultError → Vault → Prop}
    {ok : PUnit → Vault → Prop} {vault : Vault} (path : SyncPath) (bytes : Bytes)
    (stopped : mid (vault.withFiles (vault.disk.files.insert path bytes)))
    (done : ok () (vault.withFiles (vault.disk.files.insert path bytes))) :
    (installFile P ⟨.sync path, P.encodeB64 bytes⟩).wp mid err ok vault := by
  simp only [installFile, P.decodeB64_encodeB64, syncPathAllowed, okOr_some, Program.wp_bind,
    Program.wp_ofExcept, Program.wp_read]
  split
  case isTrue => exact (Program.wp_write _).mpr ⟨stopped, done⟩
  case isFalse same =>
    have held : vault.disk.files[path]? = some bytes := by simpa using same
    have unchanged : vault.disk.files.insert path bytes = vault.disk.files := by
      refine Table.ext_get fun key => ?_
      rw [Table.get_insert]
      split
      case isTrue named => rw [← named, held]
      case isFalse => rfl
    rw [unchanged] at done
    exact (Program.wp_pure _).mpr done

/-- The installation phase writes the listed files in order. -/
theorem wp_installFiles (entries : List (SyncPath × Bytes)) (start : Vault) :
    ((listEntries P entries).files.forM (installFile P)).wp
      (fun left => ∃ done, done <+: entries ∧
        left = start.withFiles (start.disk.files.insertAll done))
      (fun _ _ => False)
      (fun _ left => left = start.withFiles (start.disk.files.insertAll entries)) start := by
  rw [listEntries, List.forM_eq_forM, List.forM_map, ← List.forM_eq_forM]
  refine Program.wp_forM entries _
    (fun done left => left = start.withFiles (start.disk.files.insertAll done)) rfl ?_
  rintro done ⟨path, bytes⟩ rest split _ rfl
  have next : start.disk.files.insertAll (done ++ [(path, bytes)]) =
      (start.disk.files.insertAll done).insert path bytes := by
    simp [Table.insertAll]
  refine wp_installFile P path bytes ?_ (by simp [next])
  exact ⟨done ++ [(path, bytes)], ⟨rest, by simp [split]⟩, by simp [next]⟩

/-- A path is stale: the snapshot replaces its directory and does not list it. -/
def Stale (version : UInt16) (entries : List (SyncPath × Bytes)) (path : SyncPath) : Prop :=
  (version = 1 ∨ path.dir ≠ .audit) ∧ path ∉ entries.map Prod.fst

instance (version : UInt16) (entries : List (SyncPath × Bytes)) (path : SyncPath) :
    Decidable (Stale version entries path) := inferInstanceAs (Decidable (_ ∧ _))

/-- The removal phase removes the stale files in order. -/
theorem wp_removeStale (version : UInt16) (entries : List (SyncPath × Bytes))
    (paths : List SyncPath) (start : Vault) :
    (paths.forM (removeStale version
        ((listEntries P entries).files.map VaultExportFile.relativePath))).wp
      (fun left => ∃ done, done ⊆ paths ∧ left = start.withFiles
        (start.disk.files.eraseAll (done.filter fun path => Stale version entries path)))
      (fun _ _ => False)
      (fun _ left => left = start.withFiles
        (start.disk.files.eraseAll (paths.filter fun path => Stale version entries path)))
      start := by
  refine Program.wp_forM paths _ (fun done left => left = start.withFiles
    (start.disk.files.eraseAll (done.filter fun path => Stale version entries path))) rfl ?_
  rintro done path rest split _ rfl
  have listed : RelPath.sync path ∈
      (listEntries P entries).files.map VaultExportFile.relativePath ↔
        path ∈ entries.map Prod.fst := by
    simp [listEntries]
  unfold removeStale
  split
  case isTrue stale =>
    rw [listed] at stale
    have next : start.disk.files.eraseAll
        ((done ++ [path]).filter fun path => Stale version entries path) =
          (start.disk.files.eraseAll
            (done.filter fun path => Stale version entries path)).erase path := by
      have kept : Stale version entries path := stale
      simp [Table.eraseAll, kept]
    refine (Program.wp_write _).mpr ⟨⟨done ++ [path], ?_, by rw [next]; rfl⟩, by rw [next]; rfl⟩
    rw [split]
    simp
  case isFalse fresh =>
    rw [listed] at fresh
    have kept : ¬ Stale version entries path := fresh
    exact (Program.wp_pure _).mpr (by simp [kept])

/-- The directory once a snapshot's files are installed and the stale ones removed. -/
def installedFiles (version : UInt16) (entries : List (SyncPath × Bytes))
    (files : Table SyncPath Bytes) : Table SyncPath Bytes :=
  (files.insertAll entries).eraseAll
    ((exportableFiles files (version = 1)).filter fun path => Stale version entries path)

/-- Installing a snapshot replaces the directories it covers and leaves the others. -/
theorem get_installedFiles {version : UInt16} {entries : List (SyncPath × Bytes)}
    (files : Table SyncPath Bytes) (distinct : (entries.map Prod.fst).Nodup)
    (noAudit : version ≠ 1 → ∀ entry ∈ entries, entry.1.dir ≠ .audit) (path : SyncPath) :
    (installedFiles version entries files)[path]? =
      if version = 1 ∨ path.dir ≠ .audit then
        ((∅ : Table SyncPath Bytes).insertAll entries)[path]?
      else files[path]? := by
  rw [installedFiles, Table.get_eraseAll]
  by_cases named : path ∈ entries.map Prod.fst
  · obtain ⟨⟨place, bytes⟩, listed, rfl⟩ := List.mem_map.mp named
    have covered : version = 1 ∨ place.dir ≠ .audit := by
      by_cases first : version = 1
      · exact Or.inl first
      · exact Or.inr (noAudit first _ listed)
    simp [Stale, named, covered, Table.get_insertAll_of_mem _ _ _ _ distinct listed]
  · rw [Table.get_insertAll_of_notMem _ _ _ named, Table.get_insertAll_of_notMem _ _ _ named]
    by_cases covered : version = 1 ∨ path.dir ≠ .audit
    · cases held : files[path]? with
      | none => simp
      | some bytes =>
        have stale : path ∈ (exportableFiles files (version = 1)).filter
            fun path => Stale version entries path := by
          simp only [exportableFiles, List.mem_filter, Table.mem_keys_iff, held, Option.isSome_some,
            decide_eq_true_eq, Bool.or_eq_true, true_and, Stale]
          exact ⟨covered, decide_eq_true ⟨covered, named⟩⟩
        simp [stale, covered]
    · simp [Stale, covered]

/-- The audit files of a directory are listed once each. -/
theorem auditPaths_nodup (files : Table SyncPath Bytes) : (auditPaths files).Nodup :=
  Std.ExtTreeMap.nodup_keys.filter _

/-- The audit files of a directory are the files it holds in `audit/`. -/
theorem mem_auditPaths {files : Table SyncPath Bytes} {path : SyncPath} :
    path ∈ auditPaths files ↔ path.dir = .audit ∧ ∃ bytes, files[path]? = some bytes := by
  simp only [auditPaths, List.mem_filter, Table.mem_keys_iff, Option.isSome_iff_exists,
    decide_eq_true_eq]
  exact and_comm

/-- An audit file can be carried to the next epoch: it is a tombstone, or opens under the next
epoch or under the current one. -/
def AuditReadable (current next : VaultEpochKey) (bytes : Bytes) : Prop :=
  ∃ envelope, P.envelope.fromSlice bytes = some envelope ∧
    (envelope.tombstone = true ∨
      (∃ plaintext, decryptEnvelopeWithEpoch P envelope next = .ok plaintext) ∨
      ∃ plaintext, decryptEnvelopeWithEpoch P envelope current = .ok plaintext)

/-- Rewrapping succeeds on exactly the readable audit files. -/
theorem rewrapped_ok_iff (session : Session) (header : VaultHeader) (next : VaultEpochKey)
    (draw : EnvelopeDraw) (bytes : Bytes) :
    (∃ written, rewrapped P session header next draw bytes = .ok written) ↔
      AuditReadable P session.epochKey next bytes := by
  unfold rewrapped AuditReadable
  cases P.envelope.fromSlice bytes with
  | none => simp
  | some envelope =>
    simp only [okOr_some, ok_bind, Option.some.injEq, exists_eq_left']
    cases envelope.tombstone with
    | true => simp [pure, Except.pure]
    | false =>
      cases decryptEnvelopeWithEpoch P envelope next with
      | ok plaintext => simp [pure, Except.pure]
      | error error =>
        cases decryptEnvelopeWithEpoch P envelope session.epochKey with
        | ok plaintext => simp [pure, Except.pure]
        | error error => simp

/-- The bytes of an audit file after rewrapping. -/
def rewrapAt (draws : SyncPath → EnvelopeDraw) (session : Session) (header : VaultHeader)
    (next : VaultEpochKey) (path : SyncPath) (bytes : Bytes) : Bytes :=
  match rewrapped P session header next (draws path) bytes with
  | .ok (some written) => written
  | _ => bytes

/-- The audit files visited are rewrapped, the other files are as they were. -/
def rewrappedFiles (draws : SyncPath → EnvelopeDraw) (session : Session) (header : VaultHeader)
    (next : VaultEpochKey) (visited : List SyncPath) (files : Table SyncPath Bytes) :
    Table SyncPath Bytes :=
  files.map fun path bytes =>
    if path ∈ visited then rewrapAt P draws session header next path bytes else bytes

/-- A rewrap of readable audit files visits them in order and succeeds. -/
theorem wp_rewrapFiles {draws : SyncPath → EnvelopeDraw} {header : VaultHeader}
    {next : VaultEpochKey} {start : Vault} {paths : List SyncPath} (distinct : paths.Nodup)
    (readable : ∀ path ∈ paths, ∃ bytes, start.disk.files[path]? = some bytes ∧
      AuditReadable P start.session.epochKey next bytes) :
    (paths.forM (rewrapFile P draws header next)).wp
      (fun left => ∃ visited, visited ⊆ paths ∧ left = start.withFiles
        (rewrappedFiles P draws start.session header next visited start.disk.files))
      (fun _ _ => False)
      (fun _ left => left = start.withFiles
        (rewrappedFiles P draws start.session header next paths start.disk.files)) start := by
  refine Program.wp_forM paths _ (fun visited left => left = start.withFiles
    (rewrappedFiles P draws start.session header next visited start.disk.files)) ?_ ?_
  · have untouched : rewrappedFiles P draws start.session header next [] start.disk.files =
        start.disk.files := Table.ext_get fun key => by simp [rewrappedFiles]
    rw [untouched]
    rfl
  · rintro visited path rest split _ rfl
    have listed : path ∈ paths := by simp [split]
    have unvisited : path ∉ visited := by
      intro earlier
      rw [split] at distinct
      exact (List.nodup_append.mp distinct).2.2 path earlier path List.mem_cons_self rfl
    obtain ⟨bytes, held, reads⟩ := readable path listed
    obtain ⟨written, rewritten⟩ := (rewrapped_ok_iff P _ header _ (draws path) _).mpr reads
    have before : (rewrappedFiles P draws start.session header next visited
        start.disk.files)[path]? = some bytes := by
      simp [rewrappedFiles, held, unvisited]
    simp only [rewrapFile, Program.wp_bind, Program.wp_read, Program.wp_ofExcept,
      Vault.withFiles_files, Vault.withFiles_session, before, okOr_some, rewritten]
    have after : rewrappedFiles P draws start.session header next (visited ++ [path])
        start.disk.files = (rewrappedFiles P draws start.session header next visited
          start.disk.files).insert path (rewrapAt P draws start.session header next path bytes) := by
      refine Table.ext_get fun key => ?_
      simp only [rewrappedFiles, Table.get_map, Table.get_insert, List.mem_append,
        List.mem_singleton]
      by_cases same : path = key
      · subst same
        simp [held]
      · simp [same, Ne.symm same]
    cases written with
    | some written =>
      have result : rewrapAt P draws start.session header next path bytes = written := by
        simp [rewrapAt, rewritten]
      rw [result] at after
      refine (Program.wp_write _).mpr ⟨⟨visited ++ [path], ?_, by rw [after]; rfl⟩,
        by rw [after]; rfl⟩
      rw [split]
      simp
    | none =>
      have result : rewrapAt P draws start.session header next path bytes = bytes := by
        simp [rewrapAt, rewritten]
      rw [result] at after
      have same : (rewrappedFiles P draws start.session header next visited
          start.disk.files).insert path bytes =
            rewrappedFiles P draws start.session header next visited start.disk.files := by
        refine Table.ext_get fun key => ?_
        rw [Table.get_insert]
        split
        case isTrue named => rw [← named, before]
        case isFalse => rfl
      rw [same] at after
      exact (Program.wp_pure _).mpr (by rw [after])

/-- Rewrapping the readable audit files of a directory succeeds. -/
theorem wp_rewrapLocalAudit {draws : SyncPath → EnvelopeDraw} {header : VaultHeader}
    {next : VaultEpochKey} {indexKey : Key} {start : Vault}
    (unlocks : unwrapEpochAndIndexKeys P start.session.rootKey header .unlockFailed =
      .ok (next, indexKey))
    (readable : ∀ (path : SyncPath) (held : Bytes), path.dir = .audit →
      start.disk.files[path]? = some held → AuditReadable P start.session.epochKey next held) :
    (rewrapLocalAudit P draws header).wp
      (fun left => ∃ visited, visited ⊆ auditPaths start.disk.files ∧ left = start.withFiles
        (rewrappedFiles P draws start.session header next visited start.disk.files))
      (fun _ _ => False)
      (fun _ left => left = start.withFiles (rewrappedFiles P draws start.session header next
        (auditPaths start.disk.files) start.disk.files)) start := by
  simp only [rewrapLocalAudit, Program.wp_bind, Program.wp_read, Program.wp_ofExcept, unlocks]
  refine wp_rewrapFiles P (auditPaths_nodup _) fun path listed => ?_
  obtain ⟨dir, held, found⟩ := mem_auditPaths.mp listed
  exact ⟨held, found, readable path held dir found⟩

/-- An audit rewrap fails when it meets a file that it cannot read. -/
theorem wp_rewrapFiles_unreadable {draws : SyncPath → EnvelopeDraw} {header : VaultHeader}
    {next : VaultEpochKey} {start : Vault} {paths : List SyncPath}
    {damaged : SyncPath} {bytes : Bytes} (listed : damaged ∈ paths)
    (held : start.disk.files[damaged]? = some bytes)
    (unreadable : ¬ AuditReadable P start.session.epochKey next bytes) :
    (paths.forM (rewrapFile P draws header next)).wp
      (fun left => ∃ files, left = start.withFiles files)
      (fun _ left => ∃ files, left = start.withFiles files)
      (fun _ _ => False) start := by
  refine Program.wp_mono (Program.wp_forM paths _ (fun visited left => damaged ∉ visited ∧
    ∃ files, left = start.withFiles files ∧ files[damaged]? = some bytes) ?_ ?_)
    (fun _ left => left) (fun _ _ left => left) (fun _ _ left => left.1 listed)
  · exact ⟨by simp, start.disk.files, rfl, held⟩
  · rintro visited path rest split _ ⟨unvisited, files, rfl, kept⟩
    simp only [rewrapFile, Program.wp_bind, Program.wp_read, Program.wp_ofExcept,
      Vault.withFiles_files, Vault.withFiles_session]
    by_cases same : path = damaged
    · subst same
      simp only [kept, okOr_some]
      cases rewritten : rewrapped P start.session header next (draws path) bytes with
      | error error => exact ⟨files, rfl⟩
      | ok written => exact absurd ((rewrapped_ok_iff P _ _ _ _ _).mp ⟨written, rewritten⟩) unreadable
    · have fresh : damaged ∉ visited ++ [path] := by simp [unvisited, Ne.symm same]
      cases found : files[path]? with
      | none => exact ⟨files, rfl⟩
      | some bytes' =>
        simp only [okOr_some]
        cases rewrapped P start.session header next (draws path) bytes' with
        | error error => exact ⟨files, rfl⟩
        | ok written =>
          cases written with
          | none => exact (Program.wp_pure _).mpr ⟨fresh, files, rfl, kept⟩
          | some written =>
            exact (Program.wp_write _).mpr ⟨⟨_, rfl⟩, fresh, _, rfl, by simp [same, kept]⟩

/-- The audit files are rewrapped: the snapshot is of version 2 and of another epoch. -/
def Rewraps (session : Session) (snapshot : VaultSyncSnapshot) : Prop :=
  snapshot.version = 2 ∧ snapshot.header.currentEpoch ≠ session.header.currentEpoch

instance (session : Session) (snapshot : VaultSyncSnapshot) :
    Decidable (Rewraps session snapshot) := inferInstanceAs (Decidable (_ ∧ _))

/-- The files at the end of a replay. -/
def finishedFiles (draws : SyncPath → EnvelopeDraw) (session : Session)
    (snapshot : VaultSyncSnapshot) (entries : List (SyncPath × Bytes)) (epoch : VaultEpochKey)
    (files : Table SyncPath Bytes) : Table SyncPath Bytes :=
  let installed := installedFiles snapshot.version entries files
  if Rewraps session snapshot then
    rewrappedFiles P draws session snapshot.header epoch (auditPaths installed) installed
  else installed

/-- What a replay leaves at a path: the snapshot's file where the snapshot covers the
directory, and elsewhere the old file, rewrapped if the epoch changed. -/
theorem get_finishedFiles (draws : SyncPath → EnvelopeDraw) (session : Session)
    {snapshot : VaultSyncSnapshot} {entries : List (SyncPath × Bytes)} (epoch : VaultEpochKey)
    (files : Table SyncPath Bytes) (distinct : (entries.map Prod.fst).Nodup)
    (noAudit : snapshot.version ≠ 1 → ∀ entry ∈ entries, entry.1.dir ≠ .audit)
    (path : SyncPath) :
    (finishedFiles P draws session snapshot entries epoch files)[path]? =
      if snapshot.version = 1 ∨ path.dir ≠ .audit then
        ((∅ : Table SyncPath Bytes).insertAll entries)[path]?
      else if Rewraps session snapshot then
        files[path]?.map (rewrapAt P draws session snapshot.header epoch path)
      else files[path]? := by
  have installed := get_installedFiles files distinct noAudit path
  unfold finishedFiles
  by_cases rewraps : Rewraps session snapshot
  · rw [if_pos rewraps, rewrappedFiles, Table.get_map, installed]
    by_cases covered : snapshot.version = 1 ∨ path.dir ≠ .audit
    · have outside : path ∉ auditPaths (installedFiles snapshot.version entries files) := by
        have second : snapshot.version = 2 := rewraps.1
        have dir : path.dir ≠ .audit := covered.resolve_left (by rw [second]; decide)
        simp [auditPaths, dir]
      simp [covered, outside]
    · rw [if_neg covered, if_neg covered, if_pos rewraps]
      rw [if_neg covered] at installed
      cases held : files[path]? with
      | none => rfl
      | some bytes =>
        have inside : path ∈ auditPaths (installedFiles snapshot.version entries files) := by
          simp only [not_or, ne_eq, not_not] at covered
          simp only [auditPaths, List.mem_filter, Table.mem_keys_iff, installed, held,
            Option.isSome_some, true_and]
          exact decide_eq_true covered.2
        simp [inside]
  · rw [if_neg rewraps, installed, if_neg rewraps]

/-- The vault at the end of a replay. -/
def finished (draws : SyncPath → EnvelopeDraw) (start : Vault) (snapshot : VaultSyncSnapshot)
    (entries : List (SyncPath × Bytes)) (epoch : VaultEpochKey) (indexKey : Key) : Vault where
  disk :=
    { manifest := some (P.header.toVecPretty snapshot.header)
      pending := none
      files := finishedFiles P draws start.session snapshot entries epoch start.disk.files }
  session := { start.session with
    header := snapshot.header
    epochKey := epoch
    indexKey }

/-- A directory that a replay was stopped in: each file is the old one or the one at the end,
and the manifest is written last. -/
structure Underway (start : Vault) (header : VaultHeader) (final : Table SyncPath Bytes)
    (left : Disk) : Prop where
  /-- No file is anything else. -/
  files : ∀ path : SyncPath,
    left.files[path]? = start.disk.files[path]? ∨ left.files[path]? = final[path]?
  /-- The journal is still there. -/
  pending : left.pending = start.disk.pending
  /-- The manifest follows the files. -/
  manifest : left.manifest = start.disk.manifest ∨
    left.manifest = some (P.header.toVecPretty header) ∧ left.files = final

/-- Reloading a manifest that was just written takes its header and keys. -/
theorem wp_reloadFromDisk {vault : Vault} {header : VaultHeader} {epoch : VaultEpochKey}
    {indexKey : Key} {mid : Vault → Prop} {err : VaultError → Vault → Prop}
    {ok : Unit → Vault → Prop}
    (written : vault.disk.manifest = some (P.header.toVecPretty header))
    (valid : validateHeader header = .ok ())
    (sameVault : header.vaultId = vault.session.header.vaultId)
    (unlocks : unwrapEpochAndIndexKeys P vault.session.rootKey header .unlockFailed =
      .ok (epoch, indexKey))
    (done : ok () { vault with session := { vault.session with
      header := header, epochKey := epoch, indexKey := indexKey } }) :
    (reloadFromDisk P).wp mid err ok vault := by
  simp only [reloadFromDisk, Program.wp_bind, Program.wp_read, Program.wp_ofExcept, written,
    okOr_some, Serde.fromSlice_toVecPretty, valid, sameVault, ne_eq, not_true_eq_false,
    ↓reduceIte, unlocks, Program.wp_assign]
  exact done

section Replay

variable (draws : SyncPath → EnvelopeDraw) (start : Vault) {bytes : Bytes}
  {snapshot : VaultSyncSnapshot} {entries : List (SyncPath × Bytes)} {epoch : VaultEpochKey}
  {indexKey : Key}

/-- A stop during the installation leaves the directory underway. -/
theorem underway_of_install (decodes : Decodes P start.session bytes snapshot entries epoch)
    {done : List (SyncPath × Bytes)} (installed : done <+: entries) :
    Underway P start snapshot.header
      (finishedFiles P draws start.session snapshot entries epoch start.disk.files)
      (start.withFiles (start.disk.files.insertAll done)).disk where
  files path := by
    have distinct : (done.map Prod.fst).Nodup := decodes.distinct.sublist
      (installed.sublist.map Prod.fst)
    by_cases named : path ∈ done.map Prod.fst
    · obtain ⟨⟨place, written⟩, listed, rfl⟩ := List.mem_map.mp named
      right
      have covered : snapshot.version = 1 ∨ place.dir ≠ .audit := by
        by_cases first : snapshot.version = 1
        · exact Or.inl first
        · exact Or.inr (decodes.noAudit_of_ne P first _ (installed.subset listed))
      rw [get_finishedFiles P _ _ _ _ decodes.distinct (decodes.noAudit_of_ne P), if_pos covered]
      rw [Vault.withFiles_files, Table.get_insertAll_of_mem _ _ _ _ distinct listed,
        Table.get_insertAll_of_mem _ _ _ _ decodes.distinct (installed.subset listed)]
    · exact Or.inl (Table.get_insertAll_of_notMem _ _ _ named)
  pending := rfl
  manifest := Or.inl rfl

/-- A stop during the removal leaves the directory underway. -/
theorem underway_of_remove (decodes : Decodes P start.session bytes snapshot entries epoch)
    (paths : List SyncPath) :
    Underway P start snapshot.header
      (finishedFiles P draws start.session snapshot entries epoch start.disk.files)
      (start.withFiles ((start.disk.files.insertAll entries).eraseAll
        (paths.filter fun path => Stale snapshot.version entries path))).disk where
  files path := by
    rw [Vault.withFiles_files, Table.get_eraseAll]
    split
    case isTrue removed =>
      right
      obtain ⟨covered, unnamed⟩ : Stale snapshot.version entries path := by
        simpa using (List.mem_filter.mp removed).2
      rw [get_finishedFiles P _ _ _ _ decodes.distinct (decodes.noAudit_of_ne P), if_pos covered,
        Table.get_insertAll_of_notMem _ _ _ unnamed]
      simp
    case isFalse =>
      have whole := underway_of_install P draws start decodes (List.prefix_refl entries)
      exact whole.files path
  pending := rfl
  manifest := Or.inl rfl

/-- A stop during the rewrapping leaves the directory underway. -/
theorem underway_of_rewrap (decodes : Decodes P start.session bytes snapshot entries epoch)
    (rewraps : Rewraps start.session snapshot) {visited : List SyncPath}
    (inside : visited ⊆
      auditPaths (installedFiles snapshot.version entries start.disk.files)) :
    Underway P start snapshot.header
      (finishedFiles P draws start.session snapshot entries epoch start.disk.files)
      (start.withFiles (rewrappedFiles P draws start.session snapshot.header epoch visited
        (installedFiles snapshot.version entries start.disk.files))).disk where
  files path := by
    have installed := get_installedFiles start.disk.files decodes.distinct
      (decodes.noAudit_of_ne P) path
    have final := get_finishedFiles P draws start.session epoch start.disk.files decodes.distinct
      (decodes.noAudit_of_ne P) path
    rw [Vault.withFiles_files, rewrappedFiles, Table.get_map, final, installed]
    by_cases covered : snapshot.version = 1 ∨ path.dir ≠ .audit
    · have outside : path ∉ visited := by
        intro earlier
        have second : snapshot.version = 2 := rewraps.1
        have dir : path.dir ≠ .audit := covered.resolve_left (by rw [second]; decide)
        have audit := inside earlier
        simp [auditPaths, dir] at audit
      right
      simp [covered, outside]
    · simp only [if_neg covered, if_pos rewraps]
      by_cases earlier : path ∈ visited
      · right
        simp [earlier]
      · left
        simp [earlier]
  pending := rfl
  manifest := Or.inl rfl

/-- Replaying a journal whose audit files can be read installs the snapshot, and a stop leaves
the directory underway or finished. -/
theorem wp_finishPendingSync (journal : start.disk.pending = some bytes)
    (decodes : Decodes P start.session bytes snapshot entries epoch)
    (unlocks : unwrapEpochAndIndexKeys P start.session.rootKey snapshot.header .unlockFailed =
      .ok (epoch, indexKey))
    (readable : Rewraps start.session snapshot → ∀ (path : SyncPath) (held : Bytes),
      path.dir = .audit → start.disk.files[path]? = some held →
        AuditReadable P start.session.epochKey epoch held) :
    (finishPendingSync P draws).wp
      (fun left => Underway P start snapshot.header
          (finishedFiles P draws start.session snapshot entries epoch start.disk.files)
          left.disk ∨
        left.disk = (finished P draws start snapshot entries epoch indexKey).disk)
      (fun _ _ => False)
      (fun _ left => left = finished P draws start snapshot entries epoch indexKey) start := by
  have decoded := (decodeSnapshot_eq_ok P).mpr ⟨entries, epoch, rfl, decodes⟩
  obtain ⟨-, valid, -, -⟩ := parse_valid P decodes.parsed
  simp only [finishPendingSync, Program.wp_bind, Program.wp_read, journal, Program.wp_ofExcept,
    decoded]
  refine Program.wp_mono (wp_installFiles P entries start) ?_ (fun _ _ h => h) ?_
  · rintro left ⟨done, installed, rfl⟩
    exact Or.inl (underway_of_install P draws start decodes installed)
  rintro _ _ rfl
  refine Program.wp_mono (wp_removeStale P snapshot.version entries _ _) ?_
    (fun _ _ h => h) ?_
  · rintro left ⟨done, -, rfl⟩
    exact Or.inl (underway_of_remove P draws start decodes done)
  rintro _ _ rfl
  -- What follows the rewrapping is the same whether or not it ran.
  have ending : ∀ before : Vault, before = start.withFiles
      (finishedFiles P draws start.session snapshot entries epoch start.disk.files) →
        (do
          Program.write fun vault => vault.withManifest (P.header.toVecPretty snapshot.header)
          reloadFromDisk P
          setPending none : Program Vault VaultError Unit).wp
        (fun left => Underway P start snapshot.header
            (finishedFiles P draws start.session snapshot entries epoch start.disk.files)
            left.disk ∨
          left.disk = (finished P draws start snapshot entries epoch indexKey).disk)
        (fun _ _ => False)
        (fun _ left => left = finished P draws start snapshot entries epoch indexKey) before := by
    rintro _ rfl
    simp only [Program.wp_bind, Program.wp_write]
    refine ⟨Or.inl ⟨fun path => Or.inr rfl, rfl, Or.inr ⟨rfl, rfl⟩⟩, ?_⟩
    refine wp_reloadFromDisk P rfl valid.1 decodes.sameVault unlocks ?_
    exact (Program.wp_write _).mpr ⟨Or.inr rfl, rfl⟩
  change Program.wp _ _ _ _
    (start.withFiles (installedFiles snapshot.version entries start.disk.files))
  split
  case isTrue rewraps =>
    have changes : Rewraps start.session snapshot := rewraps
    rw [Program.wp_bind]
    refine Program.wp_mono (wp_rewrapLocalAudit P unlocks ?_) ?_ (fun _ _ h => h) ?_
    · intro path held dir found
      have kept : ¬ (snapshot.version = 1 ∨ path.dir ≠ .audit) := by
        rw [changes.1, dir]
        decide
      rw [Vault.withFiles_files, get_installedFiles _ decodes.distinct
        (decodes.noAudit_of_ne P), if_neg kept] at found
      exact readable changes path held dir found
    · rintro left ⟨visited, inside, rfl⟩
      exact Or.inl (underway_of_rewrap P draws start decodes changes inside)
    · rintro _ _ rfl
      refine ending _ ?_
      rw [finishedFiles, if_pos changes]
      rfl
  case isFalse keeps =>
    have same : ¬ Rewraps start.session snapshot := keeps
    refine ending _ ?_
    rw [finishedFiles, if_neg same]

end Replay

end Aipass
