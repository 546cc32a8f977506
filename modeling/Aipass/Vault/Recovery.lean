import Aipass.Vault.Rollback

/-!
# Replaying after a crash

A stop in the middle of a replay leaves a directory that the next unlock opens with the header
it finds there, and replays again. `Replaying` describes every such directory relative to the
one the journal was written for: the manifest is the old one and each file the snapshot covers
is old or new, or the manifest is the new one and the files are final. One replay keeps it and
ends finished, so any sequence of crashes and replays does.
-/
namespace Aipass

variable (P : Platform)

/-- The audit file at a path opens under an epoch to a plaintext. -/
def AuditOpens (epoch : VaultEpochKey) (files : Table SyncPath Bytes) (path : SyncPath)
    (plaintext : Bytes) : Prop :=
  path.dir = .audit ∧ ∃ held envelope, files[path]? = some held ∧
    P.envelope.fromSlice held = some envelope ∧
    decryptEnvelopeWithEpoch P envelope epoch = .ok plaintext

/-- An envelope opens to one plaintext, whichever epoch key opens it. -/
theorem plaintext_unique {envelope : ObjectEnvelope} {first second : VaultEpochKey}
    {left right : Bytes} (opened : decryptEnvelopeWithEpoch P envelope first = .ok left)
    (opened' : decryptEnvelopeWithEpoch P envelope second = .ok right) : left = right := by
  unfold decryptEnvelopeWithEpoch at opened opened'
  split at opened
  · simp at opened
  case isFalse live =>
    rw [if_neg live] at opened'
    simp only [bind_eq_ok, okOr_eq_ok, mapError_eq_ok] at opened opened'
    obtain ⟨wrapped, hasDek, payload, hasPayload, dek, unwrapped, text⟩ := opened
    obtain ⟨wrapped', hasDek', payload', hasPayload', dek', unwrapped', text'⟩ := opened'
    obtain rfl := Option.some.inj (hasDek.symm.trans hasDek')
    obtain rfl := Option.some.inj (hasPayload.symm.trans hasPayload')
    obtain ⟨nonce, sealed⟩ := (decryptBytes_eq_ok P).mp text
    obtain ⟨nonce', sealed'⟩ := (decryptBytes_eq_ok P).mp text'
    exact (encryptBytes_injective P (sealed.symm.trans sealed')).2

/-- A rewrapped audit file opens under the next epoch to the plaintext it held. -/
theorem decrypt_rewrapAt (draws : SyncPath → EnvelopeDraw) (session : Session)
    (header : VaultHeader) (next : VaultEpochKey) (path : SyncPath) {held plaintext : Bytes}
    {envelope : ObjectEnvelope} (parsed : P.envelope.fromSlice held = some envelope)
    (opens : decryptEnvelopeWithEpoch P envelope session.epochKey = .ok plaintext ∨
      decryptEnvelopeWithEpoch P envelope next = .ok plaintext) :
    ∃ envelope', P.envelope.fromSlice (rewrapAt P draws session header next path held) =
        some envelope' ∧
      decryptEnvelopeWithEpoch P envelope' next = .ok plaintext := by
  have live : envelope.tombstone = false := by
    rcases opens with opens | opens <;> exact (live_of_decrypt P opens).1
  cases already : decryptEnvelopeWithEpoch P envelope next with
  | ok text =>
    have same : text = plaintext := by
      rcases opens with opens | opens <;> exact plaintext_unique P already opens
    subst same
    refine ⟨envelope, ?_, already⟩
    simp [rewrapAt, rewrapped, parsed, live, already, pure, Except.pure]
  | error error =>
    have current : decryptEnvelopeWithEpoch P envelope session.epochKey = .ok plaintext :=
      opens.resolve_right (by simp [already])
    refine ⟨encryptEnvelope P (draws path) { envelope with
      deviceId := session.deviceId
      updatedAt := header.updatedAt
      lamport := saturatingAdd envelope.lamport 1 } plaintext next, ?_, ?_⟩
    · simp [rewrapAt, rewrapped, parsed, live, already, current, pure, Except.pure]
    · exact decryptEnvelopeWithEpoch_encryptEnvelope P _ _ _ _ live

/-- A rewrapped audit file can be read again. -/
theorem auditReadable_rewrapAt (draws : SyncPath → EnvelopeDraw) (session : Session)
    (header : VaultHeader) (next : VaultEpochKey) (path : SyncPath) {held : Bytes}
    (readable : AuditReadable P session.epochKey next held) :
    AuditReadable P session.epochKey next (rewrapAt P draws session header next path held) := by
  obtain ⟨envelope, parsed, tombstone | opens⟩ := readable
  · refine ⟨envelope, ?_, Or.inl tombstone⟩
    simp [rewrapAt, rewrapped, parsed, tombstone, pure, Except.pure]
  · have reads : ∃ plaintext, decryptEnvelopeWithEpoch P envelope session.epochKey =
        .ok plaintext ∨ decryptEnvelopeWithEpoch P envelope next = .ok plaintext := by
      rcases opens with ⟨plaintext, next⟩ | ⟨plaintext, current⟩
      · exact ⟨plaintext, Or.inr next⟩
      · exact ⟨plaintext, Or.inl current⟩
    obtain ⟨plaintext, reads⟩ := reads
    obtain ⟨envelope', parsed', opens'⟩ := decrypt_rewrapAt P draws session header next
      path parsed reads
    exact ⟨envelope', parsed', Or.inr (Or.inl ⟨plaintext, opens'⟩)⟩

section Crash

variable (vault : Vault) (bytes : Bytes) (snapshot : VaultSyncSnapshot)
  (entries : List (SyncPath × Bytes)) (epoch : VaultEpochKey)

/-- The files of a directory in which a replay was stopped. -/
structure Between (files : Table SyncPath Bytes) : Prop where
  /-- Where the snapshot replaces files, each is old or new. -/
  covered : ∀ path : SyncPath, snapshot.version = 1 ∨ path.dir ≠ .audit →
    files[path]? = vault.disk.files[path]? ∨
      files[path]? = ((∅ : Table SyncPath Bytes).insertAll entries)[path]?
  /-- Elsewhere each audit file can still be read when it has to be rewrapped. -/
  readable : Rewraps vault.session snapshot → ∀ (path : SyncPath) (held : Bytes),
    path.dir = .audit → files[path]? = some held →
      AuditReadable P vault.session.epochKey epoch held
  /-- And holds what it held, under the old epoch or the new one. -/
  kept : snapshot.version = 2 → ∀ path plaintext,
    AuditOpens P vault.session.epochKey vault.disk.files path plaintext →
      AuditOpens P vault.session.epochKey files path plaintext ∨
        AuditOpens P epoch files path plaintext

/-- The files at the end of a replay. -/
structure Complete (files : Table SyncPath Bytes) : Prop where
  /-- Where the snapshot replaces files, each is new. -/
  covered : ∀ path : SyncPath, snapshot.version = 1 ∨ path.dir ≠ .audit →
    files[path]? = ((∅ : Table SyncPath Bytes).insertAll entries)[path]?
  /-- Elsewhere each audit file holds what it held, under the new epoch. -/
  kept : snapshot.version = 2 → ∀ path plaintext,
    AuditOpens P vault.session.epochKey vault.disk.files path plaintext →
      AuditOpens P epoch files path plaintext

/-- The directories that crashes of a replay can leave. -/
inductive Replaying : Disk → Prop where
  /-- The manifest is not written yet. -/
  | underway {files} (between : Between P vault snapshot entries epoch files) :
    Replaying ⟨vault.disk.manifest, some bytes, files⟩
  /-- The manifest is written; the journal may be gone. -/
  | complete {files pending} (complete : Complete P vault snapshot entries epoch files)
    (journal : pending = some bytes ∨ pending = none) :
    Replaying ⟨some (P.header.toVecPretty snapshot.header), pending, files⟩

end Crash

section Run

variable {vault : Vault} {bytes : Bytes} {snapshot : VaultSyncSnapshot}
  {entries : List (SyncPath × Bytes)} {epoch : VaultEpochKey} {indexKey : Key}

/-- What the steps of a crash run share: the vault the journal was written for, the snapshot in
it, and the keys of both. -/
structure Journalled (vault : Vault) (bytes : Bytes) (snapshot : VaultSyncSnapshot)
    (entries : List (SyncPath × Bytes)) (epoch : VaultEpochKey) (indexKey : Key) : Prop where
  /-- The vault was unlocked. -/
  opened : Opened P vault
  /-- The snapshot was accepted. -/
  decodes : Decodes P vault.session bytes snapshot entries epoch
  /-- Its header wraps its keys. -/
  unlocks : unwrapEpochAndIndexKeys P vault.session.rootKey snapshot.header .unlockFailed =
    .ok (epoch, indexKey)
  /-- Every audit file it requires to be rewrapped can be read. -/
  carries : CarriesAudit P vault snapshot
  /-- An epoch names one key. -/
  named : snapshot.header.currentEpoch = vault.session.header.currentEpoch →
    epoch = vault.session.epochKey

/-- A directory with the old manifest opens as the old session. -/
theorem Journalled.reopen_underway
    (journalled : Journalled P vault bytes snapshot entries epoch indexKey)
    (pending : Option Bytes) (files : Table SyncPath Bytes) (deviceId : Uuid) :
    (⟨vault.disk.manifest, pending, files⟩ : Disk).openWithRootKey P vault.session.rootKey
      deviceId = .ok ⟨⟨vault.disk.manifest, pending, files⟩,
        { vault.session with deviceId := deviceId }⟩ := by
  have opens := journalled.opened.opens
  simp only [Disk.openWithRootKey, bind_eq_ok, okOr_eq_ok, pure, Except.pure,
    Except.ok.injEq] at opens ⊢
  obtain ⟨manifest, present, header, parsed, ⟨⟩, valid, ⟨epochKey, indexKey⟩, unlocks, same⟩ :=
    opens
  refine ⟨manifest, present, header, parsed, (), valid, (epochKey, indexKey), unlocks, ?_⟩
  simp only
  rw [← congrArg Vault.session same]

/-- A directory with the new manifest opens as the session of the snapshot. -/
theorem Journalled.reopen_complete
    (journalled : Journalled P vault bytes snapshot entries epoch indexKey)
    (pending : Option Bytes) (files : Table SyncPath Bytes) (deviceId : Uuid) :
    (⟨some (P.header.toVecPretty snapshot.header), pending, files⟩ : Disk).openWithRootKey P
      vault.session.rootKey deviceId =
        .ok ⟨⟨some (P.header.toVecPretty snapshot.header), pending, files⟩,
          ⟨snapshot.header, vault.session.rootKey, epoch, indexKey, deviceId⟩⟩ := by
  obtain ⟨-, valid, -, -⟩ := parse_valid P journalled.decodes.parsed
  simp only [Disk.openWithRootKey, okOr_some, ok_bind, Serde.fromSlice_toVecPretty, valid.1,
    journalled.unlocks]
  rfl

/-- A snapshot is accepted by every session of its vault. -/
theorem Decodes.congr {session other : Session}
    (decodes : Decodes P session bytes snapshot entries epoch)
    (sameKey : other.rootKey = session.rootKey)
    (sameVault : other.header.vaultId = session.header.vaultId) :
    Decodes P other bytes snapshot entries epoch where
  parsed := decodes.parsed
  sameVault := by rw [decodes.sameVault, sameVault]
  sealed := by rw [sameKey]; exact decodes.sealed
  unlocks := by rw [sameKey]; exact decodes.unlocks
  distinct := decodes.distinct
  noAudit := decodes.noAudit
  opens := decodes.opens

/-- The files a replay finds in a directory underway can all be read. -/
theorem Between.start (journalled : Journalled P vault bytes snapshot entries epoch indexKey) :
    Between P vault snapshot entries epoch vault.disk.files where
  covered _ _ := Or.inl rfl
  readable rewraps path held audit found :=
    journalled.carries rewraps epoch indexKey journalled.unlocks path held audit found
  kept _ _ _ opens := Or.inl opens

/-- The final files of a replay that starts from a directory underway are complete. -/
theorem Between.complete
    (journalled : Journalled P vault bytes snapshot entries epoch indexKey)
    {files : Table SyncPath Bytes} (between : Between P vault snapshot entries epoch files)
    (draws : SyncPath → EnvelopeDraw) (deviceId : Uuid) :
    Complete P vault snapshot entries epoch
      (finishedFiles P draws { vault.session with deviceId := deviceId } snapshot entries epoch
        files) where
  covered path covered := by
    rw [get_finishedFiles P _ _ _ _ journalled.decodes.distinct (journalled.decodes.noAudit_of_ne P),
      if_pos covered]
  kept second path plaintext opens := by
    obtain ⟨audit, -⟩ := id opens
    have outside : ¬ (snapshot.version = 1 ∨ path.dir ≠ .audit) := by
      rw [second, audit]
      decide
    have final := get_finishedFiles P draws { vault.session with deviceId := deviceId } epoch files
      journalled.decodes.distinct (journalled.decodes.noAudit_of_ne P) path
    rw [if_neg outside] at final
    by_cases rewraps : Rewraps vault.session snapshot
    · have changes : Rewraps { vault.session with deviceId := deviceId } snapshot := rewraps
      rw [if_pos changes] at final
      have reads : ∃ held envelope, files[path]? = some held ∧
          P.envelope.fromSlice held = some envelope ∧
          (decryptEnvelopeWithEpoch P envelope vault.session.epochKey = .ok plaintext ∨
            decryptEnvelopeWithEpoch P envelope epoch = .ok plaintext) := by
        rcases between.kept second path plaintext opens with
          ⟨-, held, envelope, found, parsed, decrypts⟩ |
          ⟨-, held, envelope, found, parsed, decrypts⟩
        · exact ⟨held, envelope, found, parsed, Or.inl decrypts⟩
        · exact ⟨held, envelope, found, parsed, Or.inr decrypts⟩
      obtain ⟨held, envelope, found, parsed, decrypts⟩ := reads
      obtain ⟨envelope', parsed', decrypts'⟩ := decrypt_rewrapAt P draws
        { vault.session with deviceId := deviceId } snapshot.header epoch path parsed decrypts
      exact ⟨audit, _, envelope', by rw [final, found]; rfl, parsed', decrypts'⟩
    · have keeps : ¬ Rewraps { vault.session with deviceId := deviceId } snapshot := rewraps
      rw [if_neg keeps] at final
      -- The epoch is the same, and so is its key.
      have same : epoch = vault.session.epochKey := by
        refine journalled.named ?_
        by_contra differ
        exact rewraps ⟨second, differ⟩
      have reads : AuditOpens P epoch files path plaintext := by
        rcases between.kept second path plaintext opens with opens | opens
        · rwa [same]
        · exact opens
      obtain ⟨-, held, envelope, found, parsed, decrypts⟩ := reads
      exact ⟨audit, held, envelope, by rw [final, found], parsed, decrypts⟩

/-- A directory between a directory underway and its replay's end is underway. -/
theorem Between.step (journalled : Journalled P vault bytes snapshot entries epoch indexKey)
    {files left : Table SyncPath Bytes} (between : Between P vault snapshot entries epoch files)
    (draws : SyncPath → EnvelopeDraw) (deviceId : Uuid)
    (mixed : ∀ path : SyncPath, left[path]? = files[path]? ∨ left[path]? =
      (finishedFiles P draws { vault.session with deviceId := deviceId } snapshot entries epoch
        files)[path]?) :
    Between P vault snapshot entries epoch left where
  covered path covered := by
    rcases mixed path with old | new
    · rw [old]
      exact between.covered path covered
    · right
      rw [new, (between.complete P journalled draws deviceId).covered path covered]
  readable rewraps path held audit found := by
    rcases mixed path with old | new
    · rw [old] at found
      exact between.readable rewraps path held audit found
    · have outside : ¬ (snapshot.version = 1 ∨ path.dir ≠ .audit) := by
        rw [rewraps.1, audit]
        decide
      have changes : Rewraps { vault.session with deviceId := deviceId } snapshot := rewraps
      rw [new, get_finishedFiles P _ _ _ _ journalled.decodes.distinct
        (journalled.decodes.noAudit_of_ne P), if_neg outside, if_pos changes] at found
      obtain ⟨before, present, rfl⟩ := Option.map_eq_some_iff.mp found
      exact auditReadable_rewrapAt P draws { vault.session with deviceId := deviceId } _ _ _
        (between.readable rewraps path before audit present)
  kept second path plaintext opens := by
    rcases mixed path with old | new
    · have same : ∀ key, AuditOpens P key files path plaintext →
          AuditOpens P key left path plaintext := by
        rintro key ⟨audit, held, envelope, found, parsed, decrypts⟩
        exact ⟨audit, held, envelope, by rw [old, found], parsed, decrypts⟩
      exact (between.kept second path plaintext opens).imp (same _) (same _)
    · obtain ⟨audit, held, envelope, found, parsed, decrypts⟩ :=
        (between.complete P journalled draws deviceId).kept second path plaintext opens
      exact Or.inr ⟨audit, held, envelope, by rw [new, found], parsed, decrypts⟩

/-- A replay in a complete directory under the same epoch changes nothing that matters. -/
theorem Complete.step (journalled : Journalled P vault bytes snapshot entries epoch indexKey)
    {files left : Table SyncPath Bytes}
    (complete : Complete P vault snapshot entries epoch files) {session : Session}
    (keeps : ¬ Rewraps session snapshot) (draws : SyncPath → EnvelopeDraw)
    (mixed : ∀ path : SyncPath, left[path]? = files[path]? ∨ left[path]? =
      (finishedFiles P draws session snapshot entries epoch files)[path]?) :
    Complete P vault snapshot entries epoch left := by
  have final := get_finishedFiles P draws session epoch files
    journalled.decodes.distinct (journalled.decodes.noAudit_of_ne P)
  refine ⟨fun path covered => ?_, fun second path plaintext opens => ?_⟩
  · rcases mixed path with old | new
    · rw [old, complete.covered path covered]
    · rw [new, final path, if_pos covered]
  · obtain ⟨audit, held, envelope, found, parsed, decrypts⟩ :=
      complete.kept second path plaintext opens
    have outside : ¬ (snapshot.version = 1 ∨ path.dir ≠ .audit) := by
      rw [second, audit]
      decide
    refine ⟨audit, held, envelope, ?_, parsed, decrypts⟩
    rcases mixed path with old | new
    · rw [old, found]
    · rw [new, final path, if_neg outside, if_neg keeps, found]

/-- The vault at the end of a replay, as far as the journal determines it. -/
structure Finished (vault : Vault) (snapshot : VaultSyncSnapshot)
    (entries : List (SyncPath × Bytes)) (epoch : VaultEpochKey) (left : Vault) : Prop where
  /-- No journal is left. -/
  pending : left.disk.pending = none
  /-- The manifest is the snapshot's header. -/
  manifest : left.disk.manifest = some (P.header.toVecPretty snapshot.header)
  /-- The files are final. -/
  complete : Complete P vault snapshot entries epoch left.disk.files
  /-- The session uses the epoch key of the snapshot. -/
  epochKey : left.session.epochKey = epoch

/-- A directory that crashes left opens, its replay ends finished, and a stop of that replay
leaves a directory of the same kind. -/
theorem Replaying.step (journalled : Journalled P vault bytes snapshot entries epoch indexKey)
    {disk : Disk} (replaying : Replaying P vault bytes snapshot entries epoch disk)
    (draws : SyncPath → EnvelopeDraw) (deviceId : Uuid) :
    ∃ again, disk.openWithRootKey P vault.session.rootKey deviceId = .ok again ∧
      again.disk = disk ∧
      (finishPendingSync P draws).wp
        (fun left => Replaying P vault bytes snapshot entries epoch left.disk)
        (fun _ _ => False)
        (fun _ left => Finished P vault snapshot entries epoch left) again := by
  cases replaying with
  | @underway files between =>
    refine ⟨_, journalled.reopen_underway P _ _ _, rfl, ?_⟩
    refine Program.wp_mono (wp_finishPendingSync P draws
      ⟨⟨vault.disk.manifest, some bytes, files⟩,
        { vault.session with deviceId := deviceId }⟩ rfl
      (journalled.decodes.congr P rfl rfl) journalled.unlocks between.readable) ?_
      (fun _ _ none => none) ?_
    · rintro ⟨⟨manifest, pending, installed⟩, session⟩ (⟨mixed, journal, written⟩ | done)
      · obtain rfl : pending = some bytes := journal
        rcases written with old | ⟨new, final⟩
        · obtain rfl : manifest = vault.disk.manifest := old
          exact .underway (between.step P journalled draws deviceId mixed)
        · obtain rfl : manifest = some (P.header.toVecPretty snapshot.header) := new
          obtain rfl := final
          exact .complete (between.complete P journalled draws deviceId) (Or.inl rfl)
      · rw [done]
        exact .complete (between.complete P journalled draws deviceId) (Or.inr rfl)
    · rintro _ _ rfl
      exact ⟨rfl, rfl, between.complete P journalled draws deviceId, rfl⟩
  | @complete files pending complete journal =>
    refine ⟨_, journalled.reopen_complete P _ _ _, rfl, ?_⟩
    rcases journal with rfl | rfl
    · have keeps : ¬ Rewraps
          ⟨snapshot.header, vault.session.rootKey, epoch, indexKey, deviceId⟩ snapshot :=
        fun rewraps => rewraps.2 rfl
      have stays := fun left => @Complete.step P vault bytes snapshot entries epoch indexKey journalled files left
        complete _ keeps draws
      refine Program.wp_mono (wp_finishPendingSync P draws
        ⟨⟨some (P.header.toVecPretty snapshot.header), some bytes, files⟩,
          ⟨snapshot.header, vault.session.rootKey, epoch, indexKey, deviceId⟩⟩ rfl
        (journalled.decodes.congr P rfl journalled.decodes.sameVault) journalled.unlocks
        fun rewraps => absurd rewraps keeps) ?_ (fun _ _ none => none) ?_
      · rintro ⟨⟨manifest, pending, installed⟩, session⟩ (⟨mixed, journal, written⟩ | done)
        · obtain rfl : pending = some bytes := journal
          obtain rfl : manifest = some (P.header.toVecPretty snapshot.header) := by
            rcases written with old | ⟨new, -⟩
            · exact old
            · exact new
          exact .complete (stays _ mixed) (Or.inl rfl)
        · rw [done]
          exact .complete (stays _ fun _ => Or.inr rfl) (Or.inr rfl)
      · rintro _ _ rfl
        exact ⟨rfl, rfl, stays _ fun _ => Or.inr rfl, rfl⟩
    · simp only [finishPendingSync, Program.wp_bind, Program.wp_read, Program.wp_pure]
      exact ⟨rfl, rfl, complete, rfl⟩

/-- The directories that a sequence of crashes leaves: each crash stops a replay, by a session
opened on the directory, after any of its durable writes. -/
inductive Crashes (rootKey : Key) : Disk → Disk → Prop where
  /-- No crash yet. -/
  | none (disk : Disk) : Crashes rootKey disk disk
  /-- One more unlock, stopped in its replay. -/
  | crash {first disk : Disk} {deviceId : Uuid} {again left : Vault}
    {draws : SyncPath → EnvelopeDraw} (earlier : Crashes rootKey first disk)
    (reopened : disk.openWithRootKey P rootKey deviceId = .ok again)
    (stopped : left ∈ (finishPendingSync P draws).stops again) : Crashes rootKey first left.disk

/-- Crashes of a replay leave directories that replay. -/
theorem Journalled.crashes
    (journalled : Journalled P vault bytes snapshot entries epoch indexKey) {left : Disk}
    (crashed : Crashes P vault.session.rootKey (vault.withPending (some bytes)).disk left) :
    Replaying P vault bytes snapshot entries epoch left := by
  generalize started : (vault.withPending (some bytes)).disk = first at crashed
  induction crashed with
  | none =>
    subst started
    exact .underway (Between.start P journalled)
  | @crash disk deviceId again left draws earlier reopened stopped ih =>
    obtain ⟨opened, reopens, same, ends⟩ := ih.step P journalled draws deviceId
    obtain rfl : again = opened := Except.ok.inj (reopened.symm.trans reopens)
    refine Program.wp_stops ends ?_ left stopped
    rw [same]
    exact ih

end Run
/-- One replay after a sequence of crashes, beside a replay that is never stopped. -/
structure CrashRun (vault : Vault) (bytes : Bytes) where
  /-- The directory that the crashes left. -/
  left : Disk
  /-- The crashes. -/
  crashed : Crashes P vault.session.rootKey (vault.withPending (some bytes)).disk left
  /-- The device name of the session that replays the journal. -/
  deviceId : Uuid
  /-- The draws of its replay. -/
  draws : SyncPath → EnvelopeDraw
  /-- The draws of the replay that is never stopped. -/
  wholeDraws : SyncPath → EnvelopeDraw

/-- The replay that is never stopped. -/
def CrashRun.whole {vault : Vault} {bytes : Bytes} (run : CrashRun P vault bytes) :
    Outcome Vault VaultError Unit :=
  (finishPendingSync P run.wholeDraws).run (vault.withPending (some bytes))

/-- A replay ends like the one that is never stopped: the directory opens, the replay succeeds
and leaves no journal, the same manifest and the same files outside `audit/`. -/
def CrashRun.Alike {vault : Vault} {bytes : Bytes} (run : CrashRun P vault bytes)
    (again : Vault) (outcome : Outcome Vault VaultError Unit) : Prop :=
  run.left.openWithRootKey P vault.session.rootKey run.deviceId = .ok again ∧
    outcome = (finishPendingSync P run.draws).run again ∧
    outcome.result = .ok () ∧ outcome.final.disk.pending = none ∧
    outcome.final.disk.manifest = run.whole.final.disk.manifest ∧
    ∀ path : SyncPath, path.dir ≠ .audit →
      outcome.final.disk.files[path]? = run.whole.final.disk.files[path]?

/-- Every audit file that the vault could open opens under the final epoch key to the same
plaintext. -/
def KeepsAudit (vault final : Vault) : Prop :=
  ∀ path plaintext, AuditOpens P vault.session.epochKey vault.disk.files path plaintext →
    AuditOpens P final.session.epochKey final.disk.files path plaintext

/-- A replay that no crash came before, beside the same replay. -/
def CrashRun.never (vault : Vault) (bytes : Bytes) (draws : SyncPath → EnvelopeDraw) :
    CrashRun P vault bytes :=
  ⟨_, .none _, vault.session.deviceId, draws, draws⟩

/-- The replay of a snapshot of a given version always keeps what the audit files hold. -/
def AlwaysKeepsAudit (version : UInt16) : Prop :=
  ∀ (P : Platform) (vault : Vault) (bytes : Bytes) (snapshot : VaultSyncSnapshot)
    (payload : VaultExportPayload), Opened P vault →
      vault.session.decodeSnapshot P bytes = .ok (snapshot, payload) →
      snapshot.version = version → CarriesAudit P vault snapshot →
      ∀ run : CrashRun P vault bytes,
        ∃ again outcome, run.Alike P again outcome ∧ KeepsAudit P vault outcome.final

/-- A vault with one audit file that opens. -/
def auditedVault (P : Platform) : Vault :=
  Sample.vault P (Sample.epochKey 5) ((∅ : Table SyncPath Bytes).insert ⟨.audit, "2"⟩
    (P.envelope.toVec (Sample.envelope P 2 "audit_event" [] (Sample.epochKey 5))))

/-- Its audit file opens. -/
theorem auditedVault_opens (P : Platform) :
    AuditOpens P (Sample.epochKey 5) (auditedVault P).disk.files ⟨.audit, "2"⟩ [] := by
  refine ⟨rfl, _, Sample.envelope P 2 "audit_event" [] (Sample.epochKey 5), ?_,
    P.envelope.fromSlice_toVec _, Sample.decrypt_envelope P _ _ _ _⟩
  simp [auditedVault, Sample.vault]

/-- A snapshot of the same epoch without files, replayed in the vault with one audit file, ends
as specified. -/
theorem final_of_auditedVault (P : Platform) (epoch : VaultEpochKey) {version : UInt16}
    (supported : version = 1 ∨ version = 2) (same : epoch.epoch = (Sample.epochKey 5).epoch)
    (claimed : AlwaysKeepsAudit version) :
    AuditOpens P epoch (installedFiles version [] (auditedVault P).disk.files) ⟨.audit, "2"⟩
      [] := by
  have decodes := Sample.decodes_emptySnapshot P (Sample.epochKey 5) epoch supported
  have keeps : ¬ Rewraps ((auditedVault P).withPending
      (some (Sample.emptySnapshot P epoch version))).session (encodedSnapshot P Sample.rootKey
        Sample.snapshotDraw (Sample.header P epoch) (listEntries P []) [] version) :=
    fun rewraps => rewraps.2 same
  let draws : SyncPath → EnvelopeDraw := fun _ => Sample.envelopeDraw
  obtain ⟨again, outcome, ⟨reopened, rfl, returned, -⟩, kept⟩ := claimed P (auditedVault P)
    (Sample.emptySnapshot P epoch version) _ _ (opened_sample P _ _)
    ((decodeSnapshot_eq_ok P).mpr ⟨[], epoch, rfl, decodes⟩) rfl
    (fun rewraps => absurd rewraps keeps) (CrashRun.never P _ _ draws)
  have opened := (opened_sample P (Sample.epochKey 5) (auditedVault P).disk.files).opens
  obtain rfl : again = (auditedVault P).withPending
      (some (Sample.emptySnapshot P epoch version)) := by
    have reopens : ((auditedVault P).withPending
        (some (Sample.emptySnapshot P epoch version))).disk.openWithRootKey P Sample.rootKey 5 =
          .ok ((auditedVault P).withPending (some (Sample.emptySnapshot P epoch version))) := by
      simp only [auditedVault, Sample.vault, Sample.session, Disk.openWithRootKey,
        Vault.withPending, okOr_some, ok_bind, Serde.fromSlice_toVecPretty,
        (Sample.header_valid P _).1, Sample.unwrap_header]
      rfl
    exact Except.ok.inj (reopened.symm.trans reopens)
  have ends := wp_finishPendingSync P draws
    ((auditedVault P).withPending (some (Sample.emptySnapshot P epoch version))) rfl decodes (Sample.unwrap_header P epoch) fun rewraps => absurd rewraps keeps
  have final := Program.wp_ok ends returned
  have opens := kept _ _ (auditedVault_opens P)
  rw [CrashRun.never, final] at opens
  simp only [finished, finishedFiles] at opens
  rw [if_neg keeps] at opens
  exact opens

end Aipass
