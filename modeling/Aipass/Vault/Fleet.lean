import Aipass.Base.Run
import Aipass.Vault.Sound

/-!
# The vaults of one owner

Several devices hold the same vault. Each runs operations on its own files, takes snapshots of
them, merges and applies the snapshots the others took, and rotates the epoch. In every run
each file of each device is well formed under the session of that device, so the validators of
the vault and of the sync crate accept it; only a grant that was expired can keep them apart.
-/
namespace Aipass

variable (P : Platform) (keys : VaultKeys)

/-- The vaults of the devices, and the snapshots any of them has handed out. -/
structure Fleet where
  vaults : ℕ → Vault
  snapshots : List Bytes

/-- One device's vault changes. -/
def Fleet.setVault (fleet : Fleet) (device : ℕ) (vault : Vault) : Fleet :=
  { fleet with vaults := Function.update fleet.vaults device vault }

/-- What holds of every vault still does when the one that changed has it. -/
theorem Fleet.forall_setVault (holds : Vault → Prop) {fleet : Fleet} {device : ℕ} {vault : Vault}
    (others : ∀ other, holds (fleet.vaults other)) (changed : holds vault) (other : ℕ) :
    holds ((fleet.setVault device vault).vaults other) := by
  by_cases same : other = device
  · subst same
    simpa only [Fleet.setVault, Function.update_self] using changed
  · simpa only [Fleet.setVault, Function.update_of_ne same] using others other

/-- A snapshot is handed out. -/
def Fleet.addSnapshot (fleet : Fleet) (bytes : Bytes) : Fleet :=
  { fleet with snapshots := bytes :: fleet.snapshots }

/-- What one device can do next. -/
inductive FleetAction where
  | operate (device : ℕ) (operation : Operation)
  | dropAudit (device : ℕ) (path : SyncPath)
  | reopen (device : ℕ) (deviceId : Uuid)
  | journal (device : ℕ) (draw : SnapshotDraw)
  | publish (device : ℕ) (draw : SnapshotDraw) (parents : List SnapshotId)
  | merge (device : ℕ) (draw : SnapshotDraw) (remote base : Bytes)
  | apply (device : ℕ) (draws : ApplyDraws) (bytes : Bytes)
  | rotate (device : ℕ) (draws : RotationDraws) (applying : ApplyDraws) (kdf : KdfParams)
    (wrappedRootKey recoveryWrappedRootKey : Ciphertext) (reason : String)
    (revokedDevice : Option Uuid)

/-- The action makes `expire_grant` rewrite a grant. -/
def FleetAction.Expires (fleet : Fleet) : FleetAction → Prop
  | .operate device operation => operation.Expires P (fleet.vaults device)
  | _ => False

/-- What an action does. A device applies and merges snapshots that were handed out; a rotation
may replace the password and the recovery key, and draws an epoch key under a name of its own. -/
inductive Fleet.Step (fleet : Fleet) : FleetAction → Fleet → Prop where
  | operate (device operation) :
    Step fleet (.operate device operation)
      (fleet.setVault device ((operation.program P).run (fleet.vaults device)).final)
  | dropAudit (device) (path : SyncPath) (audit : path.dir = .audit) :
    Step fleet (.dropAudit device path)
      (fleet.setVault device ((fleet.vaults device).withFiles
        ((fleet.vaults device).disk.files.erase path)))
  | reopen (device deviceId) :
    Step fleet (.reopen device deviceId)
      (fleet.setVault device
        ⟨(fleet.vaults device).disk, { (fleet.vaults device).session with deviceId := deviceId }⟩)
  | journal (device draw) :
    Step fleet (.journal device draw)
      (fleet.addSnapshot ((fleet.vaults device).exportSyncSnapshot P draw))
  | publish (device draw parents) :
    Step fleet (.publish device draw parents)
      (fleet.addSnapshot ((fleet.vaults device).exportSyncSnapshotWithParents P draw parents))
  | merge (device draw remote base bytes) (handed : remote ∈ fleet.snapshots)
    (merged : (fleet.vaults device).mergeSyncSnapshot P draw remote base = .ok (some bytes)) :
    Step fleet (.merge device draw remote base) (fleet.addSnapshot bytes)
  | apply (device draws bytes) (handed : bytes ∈ fleet.snapshots) :
    Step fleet (.apply device draws bytes)
      (fleet.setVault device ((applySyncSnapshot P draws bytes).run (fleet.vaults device)).final)
  | rotate (device draws applying kdf wrappedRootKey recoveryWrappedRootKey reason revokedDevice)
    (keyed : draws.epoch.key = keys.epochKey
      (advanceEpoch draws.epoch (fleet.vaults device).session.epochKey).epoch) :
    Step fleet
      (.rotate device draws applying kdf wrappedRootKey recoveryWrappedRootKey reason revokedDevice)
      (fleet.setVault device ((commitEpochRotation P draws applying
        { (fleet.vaults device).session.header with
          kdf := kdf
          wrappedRootKey := wrappedRootKey
          recoveryWrappedRootKey := recoveryWrappedRootKey }
        reason revokedDevice).run (fleet.vaults device)).final)

/-- The runs of a fleet. Every device starts with an unlocked vault that has no file yet. -/
def fleetSystem : System Fleet FleetAction where
  init fleet := fleet.snapshots = [] ∧
    ∀ device, Unlocked P keys (fleet.vaults device) ∧ (fleet.vaults device).disk.files = ∅
  step := Fleet.Step P keys

section Runs

variable {P keys} {erased : Prop}

/-- Every vault is sane and every snapshot handed out is sound. -/
structure Fleet.Invariant (P : Platform) (keys : VaultKeys) (erased : Prop) (fleet : Fleet) :
    Prop where
  /-- Every vault is sane. -/
  sane : ∀ device, Sane P keys erased (fleet.vaults device)
  /-- Every snapshot is sound. -/
  sound : ∀ bytes ∈ fleet.snapshots, Sound P keys erased bytes

/-- A change of one vault keeps the invariant if the vault stays sane. -/
theorem Fleet.Invariant.setVault {fleet : Fleet} (held : fleet.Invariant P keys erased)
    {device : ℕ} {vault : Vault} (sane : Sane P keys erased vault) :
    (fleet.setVault device vault).Invariant P keys erased where
  sane := Fleet.forall_setVault (Sane P keys erased) held.sane sane
  sound := held.sound

/-- Handing out a sound snapshot keeps the invariant. -/
theorem Fleet.Invariant.addSnapshot {fleet : Fleet} (held : fleet.Invariant P keys erased)
    {bytes : Bytes} (sound : Sound P keys erased bytes) :
    (fleet.addSnapshot bytes).Invariant P keys erased where
  sane := held.sane
  sound other member := by
    rcases List.mem_cons.mp member with rfl | earlier
    · exact sound
    · exact held.sound other earlier

/-- A rotation leaves the vault sane. -/
theorem Sane.rotate {vault : Vault} (sane : Sane P keys erased vault) {draws : RotationDraws}
    {applying : ApplyDraws} {header : VaultHeader} {reason : String} {revokedDevice : Option Uuid}
    (sameVault : header.vaultId = vault.session.header.vaultId)
    (sameIndex : header.wrappedIndexKey = vault.session.header.wrappedIndexKey)
    (keyed : draws.epoch.key =
      keys.epochKey (advanceEpoch draws.epoch vault.session.epochKey).epoch) :
    Sane P keys erased
      ((commitEpochRotation P draws applying header reason revokedDevice).run vault).final := by
  refine Program.wp_final _ (fun _ => True) ?_
  simp only [commitEpochRotation, Program.wp_bind, Program.wp_read, Program.wp_ofExcept]
  cases prepared : vault.prepareEpochRotation P draws header reason revokedDevice with
  | error error => exact sane
  | ok bytes =>
    exact sane.wp_apply applying (sane.prepareEpochRotation sameVault sameIndex keyed prepared)

/-- Every step keeps the invariant, unless it expires a grant and a tombstone may not keep a
payload. -/
theorem Fleet.Invariant.step {fleet next : Fleet} {action : FleetAction}
    (held : fleet.Invariant P keys erased) (mayKeep : action.Expires P fleet → erased)
    (stepped : Fleet.Step P keys fleet action next) : next.Invariant P keys erased := by
  cases stepped with
  | operate device operation => exact held.setVault ((held.sane device).operate operation mayKeep)
  | dropAudit device path audit =>
    have sane := held.sane device
    refine held.setVault ⟨⟨sane.rootKey, sane.vaultId, sane.valid, sane.unlocks, sane.keyed,
      sane.ready⟩, fun place bytes found => ?_⟩
    rw [Vault.withFiles_files, Table.get_erase] at found
    split at found
    · simp at found
    · exact sane.stored place bytes found
  | reopen device deviceId =>
    have sane := held.sane device
    exact held.setVault ⟨⟨sane.rootKey, sane.vaultId, sane.valid, sane.unlocks, sane.keyed,
      sane.ready⟩, sane.stored⟩
  | journal device draw =>
    have sane := held.sane device
    exact held.addSnapshot (sane.sound_encode (sane.listed true))
  | publish device draw parents =>
    have sane := held.sane device
    exact held.addSnapshot (sane.sound_encode (sane.listed false))
  | merge device draw remote base bytes handed merged =>
    exact held.addSnapshot ((held.sane device).merge (held.sound remote handed) merged)
  | apply device draws bytes handed =>
    exact held.setVault
      (Program.wp_final _ _ ((held.sane device).wp_apply draws (held.sound bytes handed)))
  | rotate device draws applying kdf wrappedRootKey recoveryWrappedRootKey reason revokedDevice
      keyed =>
    exact held.setVault ((held.sane device).rotate rfl rfl keyed)

/-- The invariant holds in every run whose steps expire no grant, and up to the payloads of
tombstones in every run. -/
theorem Fleet.invariant_of_reachable {fleet : Fleet}
    (reached : (fleetSystem P keys).Reachable (fun fleet action => action.Expires P fleet → erased)
      fleet) : fleet.Invariant P keys erased := by
  refine reached.invariant _ ?_ fun state action next held mayKeep stepped => held.step mayKeep stepped
  rintro state ⟨none, fresh⟩
  refine ⟨fun device => ⟨(fresh device).1, fun path bytes found => ?_⟩, by simp [none]⟩
  rw [(fresh device).2] at found
  simp at found

end Runs

/-- In a run that expires no grant, the vault and the sync crate accept every file on every
device. -/
theorem validators_accept (fleet : Fleet)
    (reached : (fleetSystem P keys).Reachable (fun fleet action => ¬ action.Expires P fleet) fleet)
    (device : ℕ) (path : SyncPath) (bytes : Bytes)
    (found : (fleet.vaults device).disk.files[path]? = some bytes) :
    (fleet.vaults device).session.validateSyncObjectBytes P bytes = .ok () ∧
      validateSyncObjectBytes P bytes = .ok () := by
  have held : fleet.Invariant P keys False := Fleet.invariant_of_reachable reached
  obtain ⟨envelope, wellFormed⟩ := (held.sane device).stored path bytes found
  exact ⟨wellFormed.vault_accepts, wellFormed.sync_accepts⟩

/-- The keys of the small vault. -/
def sampleKeys : VaultKeys := ⟨1, Sample.rootKey, fun _ => Sample.key 5⟩

/-- A fleet whose devices all hold the small vault, with no file. -/
def sampleFleet : Fleet := ⟨fun _ => Sample.vault P (Sample.epochKey 5) ∅, []⟩

/-- A run can start from the small fleet. -/
theorem init_sampleFleet : (fleetSystem P sampleKeys).init (sampleFleet P) :=
  ⟨rfl, fun _ => ⟨⟨rfl, rfl, Sample.header_valid P _, Sample.unwrap_header P _, rfl, rfl⟩, rfl⟩⟩

/-- The draws of an audit event. -/
def sampleEvent : AuditDraw := ⟨7, 0, ⟨0, Sample.envelopeDraw⟩⟩

/-- A device writes an audit event, and both validators accept it. -/
theorem validators_accept_sample :
    let P := StandIn.platform
    let vault := Sample.vault P (Sample.epochKey 5) ∅
    let bytes := P.envelope.toVecPretty (vault.buildEnvelope P sampleEvent.object (auditPath P 7)
      7 "audit_event" 1 (P.auditEvent.toVec ⟨7, 0, "vault.create", none, none⟩))
    vault.session.validateSyncObjectBytes P bytes = .ok () ∧
      validateSyncObjectBytes P bytes = .ok () := by
  intro P vault bytes
  have reached : (fleetSystem P sampleKeys).Reachable (fun fleet action => ¬ action.Expires P fleet)
      ((sampleFleet P).setVault 0
        (((Operation.audit sampleEvent "vault.create" none none).program P).run vault).final) :=
    .step (.start (init_sampleFleet P)) id
      (Fleet.Step.operate 0 (.audit sampleEvent "vault.create" none none))
  refine validators_accept P sampleKeys _ reached 0 (auditPath P 7) bytes ?_
  simp [Fleet.setVault, Operation.program, audit, writeEnvelope, writeFile, Program.run, bind,
    Program.andThen, Program.read, Program.write, bytes, sampleEvent]

/-- In every run each file of each device opens under the keys that its session holds then, and the
sync crate accepts it. -/
theorem files_stay_open (fleet : Fleet) (reached : (fleetSystem P keys).Reached fleet)
    (device : ℕ) (path : SyncPath) (bytes : Bytes)
    (found : (fleet.vaults device).disk.files[path]? = some bytes) :
    let session := (fleet.vaults device).session
    unwrapEpochAndIndexKeys P session.rootKey session.header .unlockFailed =
        .ok (session.epochKey, session.indexKey) ∧
      FileOpens P session.header.vaultId session.epochKey path bytes ∧
      validateSyncObjectBytes P bytes = .ok () := by
  have held : fleet.Invariant P keys True :=
    Fleet.invariant_of_reachable (reached.mono fun _ _ _ _ => trivial)
  have sane := held.sane device
  obtain ⟨envelope, wellFormed⟩ := sane.stored path bytes found
  exact ⟨sane.unlocks, wellFormed.fileOpens, wellFormed.sync_accepts⟩

/-- The vault a device is left with by one request. -/
def Fleet.operated (fleet : Fleet) (device : ℕ) (operation : Operation) : Fleet :=
  fleet.setVault device ((operation.program P).run (fleet.vaults device)).final

/-- The audit event that a device writes opens. -/
theorem files_stay_open_sample :
    let P := StandIn.platform
    let fleet := (sampleFleet P).operated P 0 (.audit sampleEvent "vault.create" none none)
    ∃ bytes, (fleet.vaults 0).disk.files[auditPath P 7]? = some bytes ∧
      FileOpens P 1 (Sample.epochKey 5) (auditPath P 7) bytes := by
  intro P fleet
  have found : (fleet.vaults 0).disk.files[auditPath P 7]?.isSome := by
    simp [fleet, Fleet.operated, Fleet.setVault, Operation.program, audit, writeEnvelope, writeFile,
      Program.run, bind, Program.andThen, Program.read, Program.write, sampleEvent]
  obtain ⟨bytes, found⟩ := Option.isSome_iff_exists.mp found
  exact ⟨bytes, found, (files_stay_open P sampleKeys fleet (.step (.start (init_sampleFleet P))
    trivial (Fleet.Step.operate 0 _)) 0 (auditPath P 7) bytes found).2.1⟩

/-- A snapshot that every session of the vault accepts. -/
def Accepted (bytes : Bytes) : Prop :=
  ∀ session : Session, session.rootKey = keys.rootKey → session.header.vaultId = keys.vaultId →
    ∃ decoded, session.decodeSnapshot P bytes = .ok decoded

/-- What a device is left with that has installed a snapshot: the header of the snapshot, its files
in place of the device's own, and an audit trail of which nothing is lost. -/
structure Installed (vault : Vault) (snapshot : VaultSyncSnapshot) (payload : VaultExportPayload)
    (left : Vault) : Prop where
  header : left.session.header = snapshot.header
  /-- No journal is left. -/
  ready : left.disk.pending = none
  files : ∀ path : SyncPath, snapshot.version = 1 ∨ path.dir ≠ .audit →
    left.disk.files[path]? = (contents P payload)[path]?
  /-- Every audit file of the device is still there. -/
  audit : ∀ path : SyncPath, snapshot.version ≠ 1 → path.dir = .audit →
    left.disk.files[path]?.isSome = vault.disk.files[path]?.isSome

section Installing

variable {P keys} {erased : Prop} {vault : Vault}

/-- Every session of the vault accepts what a sane vault encodes of well-formed files. -/
theorem Sane.accepted (sane : Sane P keys erased vault) (draw : SnapshotDraw)
    (files : Table SyncPath Bytes) (parents : List SnapshotId) {version : UInt16}
    (supported : version = 1 ∨ version = 2)
    (outside : version = 2 → ∀ (path : SyncPath) (held : Bytes), files[path]? = some held →
      path.dir ≠ .audit)
    (stored : ∀ (path : SyncPath) (held : Bytes), files[path]? = some held →
      ∃ envelope, WellFormed P erased keys.vaultId vault.session.epochKey path held envelope) :
    Accepted P keys (encodeSnapshotWithHeader P vault.session.rootKey draw vault.session.header
      (listing P files) parents version) := by
  intro session rootKey vaultId
  have unlocks := sane.unlocks
  rw [sane.rootKey, ← rootKey] at unlocks ⊢
  refine ⟨_, (decodeSnapshot_eq_ok P).mpr ⟨files.toList, vault.session.epochKey, rfl,
    decodes_encode P session supported sane.valid (by rw [sane.vaultId, vaultId]) unlocks
      (Table.toList_keys_nodup files) ?_ ?_⟩⟩
  · exact fun second entry listed => outside second _ _ (Table.mem_toList.mp listed)
  · rintro ⟨path, held⟩ entry
    obtain ⟨envelope, wellFormed⟩ := stored path held (Table.mem_toList.mp entry)
    rw [sane.vaultId]
    exact wellFormed.fileOpens

/-- Every step hands out only snapshots that every session of the vault accepts. -/
theorem Fleet.accepted_step {fleet next : Fleet} {action : FleetAction}
    (held : fleet.Invariant P keys True)
    (accepted : ∀ bytes ∈ fleet.snapshots, Accepted P keys bytes)
    (stepped : Fleet.Step P keys fleet action next) :
    ∀ bytes ∈ next.snapshots, Accepted P keys bytes := by
  have added {bytes : Bytes} (accepts : Accepted P keys bytes) :
      ∀ other ∈ (fleet.addSnapshot bytes).snapshots, Accepted P keys other := fun other member =>
    (List.mem_cons.mp member).elim (fun same => same ▸ accepts) (accepted other)
  cases stepped with
  | operate | dropAudit | reopen | apply | rotate => exact accepted
  | journal device draw =>
    have sane := held.sane device
    exact added (sane.accepted draw _ _ (.inl rfl)
      (fun second => absurd second (by decide)) fun _ _ => sane.wellFormed)
  | publish device draw parents =>
    have sane := held.sane device
    exact added (sane.accepted draw _ _ (.inr rfl)
      (fun _ _ _ found => (get_of_withoutAudit found).1)
      fun _ _ found => sane.wellFormed (get_of_withoutAudit found).2)
  | merge device draw remote base bytes handed merged =>
    have sane := held.sane device
    obtain ⟨files, rfl, stored⟩ := sane.merged (held.sound remote handed) merged
    exact added (sane.accepted draw files [] (.inr rfl) (fun _ path held found =>
      (stored path held found).1) fun path held found => (stored path held found).2)

/-- A sane vault installs every sound snapshot that it accepts. -/
theorem Sane.wp_install (sane : Sane P keys True vault) (draws : ApplyDraws) {bytes : Bytes}
    (sound : Sound P keys True bytes) {snapshot : VaultSyncSnapshot} {payload : VaultExportPayload}
    (decoded : vault.session.decodeSnapshot P bytes = .ok (snapshot, payload)) :
    (applySyncSnapshot P draws bytes).wp (fun _ => True) (fun _ _ => False)
      (fun _ left => Installed P vault snapshot payload left) vault := by
  have installed := sane.wp_applySyncSnapshot draws bytes
  refine ⟨fun _ _ => trivial, ?_⟩
  cases result : ((applySyncSnapshot P draws bytes).run vault).result with
  | error error =>
    have refused := (Program.wp_error installed result).2
    simp [decoded] at refused
  | ok value =>
    have left := Program.wp_ok (sane.wp_apply draws sound) result
    obtain ⟨found, entries, epoch, indexKey, decodes, unlocks, final⟩ :=
      Program.wp_ok installed result
    have same := decoded.symm.trans ((decodeSnapshot_eq_ok P).mpr ⟨entries, epoch, rfl, decodes⟩)
    simp only [Except.ok.injEq, Prod.mk.injEq] at same
    obtain ⟨rfl, rfl⟩ := same
    have files := get_finishedFiles P draws.forward vault.session epoch vault.disk.files
      decodes.distinct (decodes.noAudit_of_ne P)
    simp only
    refine ⟨by rw [final]; rfl, left.ready, fun path covered => ?_, fun path second audit => ?_⟩
    · rw [final, contents_listEntries]
      exact (files path).trans (if_pos covered)
    · rw [final]
      refine (congrArg Option.isSome ((files path).trans
        (if_neg (by simp [second, audit])))).trans ?_
      split <;> simp

end Installing

/-- Every device installs every snapshot that any device has handed out. -/
theorem snapshots_install (fleet : Fleet) (reached : (fleetSystem P keys).Reached fleet)
    (bytes : Bytes) (handed : bytes ∈ fleet.snapshots) (device : ℕ) (draws : ApplyDraws) :
    ∃ snapshot payload,
      (fleet.vaults device).session.decodeSnapshot P bytes = .ok (snapshot, payload) ∧
      (applySyncSnapshot P draws bytes).wp (fun _ => True) (fun _ _ => False)
        (fun _ left => Installed P (fleet.vaults device) snapshot payload left)
        (fleet.vaults device) := by
  obtain ⟨held, accepted⟩ := reached.invariant
    (fun fleet => fleet.Invariant P keys True ∧ ∀ bytes ∈ fleet.snapshots, Accepted P keys bytes)
    (fun state initial => ⟨Fleet.invariant_of_reachable (.start initial), by simp [initial.1]⟩)
    (fun _ _ _ before _ stepped => ⟨before.1.step (fun _ => trivial) stepped,
      Fleet.accepted_step before.1 before.2 stepped⟩)
  have sane := held.sane device
  obtain ⟨⟨snapshot, payload⟩, decoded⟩ := accepted bytes handed _ sane.rootKey sane.vaultId
  exact ⟨snapshot, payload, decoded, sane.wp_install draws (held.sound bytes handed) decoded⟩

/-- A device installs the snapshot that another one has handed out. -/
theorem snapshots_install_sample :
    let P := StandIn.platform
    let vault := Sample.vault P (Sample.epochKey 5) ∅
    let bytes := vault.exportSyncSnapshotWithParents P Sample.snapshotDraw []
    ∃ snapshot payload, vault.session.decodeSnapshot P bytes = .ok (snapshot, payload) ∧
      (applySyncSnapshot P sampleDraws bytes).wp (fun _ => True) (fun _ _ => False)
        (fun _ left => Installed P vault snapshot payload left) vault := by
  intro P vault bytes
  have reached : (fleetSystem P sampleKeys).Reached ((sampleFleet P).addSnapshot bytes) :=
    .step (.start (init_sampleFleet P)) trivial (Fleet.Step.publish 0 Sample.snapshotDraw [])
  exact snapshots_install P sampleKeys _ reached bytes List.mem_cons_self 1 sampleDraws

/-- The vault rejects a tombstone that carries a payload. -/
theorem payload_of_accepted {session : Session} {bytes : Bytes} {envelope : ObjectEnvelope}
    (accepted : session.validateSyncObjectBytes P bytes = .ok ())
    (parsed : P.envelope.fromSlice bytes = some envelope) (tombstone : envelope.tombstone = true) :
    envelope.payload = none := by
  simp only [Session.validateSyncObjectBytes, parsed, okOr_some, ok_bind, tombstone, if_true]
    at accepted
  split at accepted
  · simp at accepted
  · split at accepted
    · simp at accepted
    case isFalse empty =>
      simp only [not_or, Bool.not_eq_true, Option.isSome_eq_false_iff] at empty
      simpa using empty.1

/-- A grant that was expired is a tombstone that carries a payload. -/
theorem wp_expireGrant_payload {vault : Vault} (now : OffsetDateTime) (event : AuditDraw)
    {id : Uuid} {envelope : ObjectEnvelope}
    (held : vault.readEnvelope P (grantPath P id) = .ok envelope) :
    (expireGrant P now event id).wp (fun _ => True) (fun _ _ => False)
      (fun _ left => ∃ bytes envelope', left.disk.files[grantPath P id]? = some bytes ∧
        P.envelope.fromSlice bytes = some envelope' ∧ envelope'.tombstone = true ∧
        envelope'.payload = envelope.payload) vault := by
  have present : ¬ (vault.disk.files[grantPath P id]?.isNone = true) := by
    intro absent
    rw [Option.isNone_iff_eq_none] at absent
    simp [Vault.readEnvelope, absent] at held
  simp only [expireGrant, Program.wp_bind, Program.wp_read, if_neg present, Program.wp_ofExcept,
    held, writeFile, Program.wp_write, true_and]
  refine wp_audit P fun files same => ⟨trivial, P.envelope.toVecPretty { envelope with
    wrappedDek := none
    tombstone := true
    updatedAt := now
    lamport := saturatingAdd envelope.lamport 1 }, _, ?_, Serde.fromSlice_toVecPretty _ _, rfl, rfl⟩
  have elsewhere : (grantPath P id).dir ≠ .audit := by simp [grantPath]
  simp [same _ elsewhere]

/-- A grant that was created is an envelope that carries a payload. -/
theorem wp_createSecretGrant_payload (vault : Vault) (draw : ObjectDraw) (event : AuditDraw)
    (grant : TtlGrantPlaintext) :
    (createSecretGrant P draw event grant).wp (fun _ => True) (fun _ _ => False)
      (fun _ left => ∃ envelope, left.readEnvelope P (grantPath P grant.id) = .ok envelope ∧
        envelope.payload.isSome) vault := by
  simp only [createSecretGrant, Program.wp_bind, wp_writeEnvelope, true_and]
  refine wp_audit P fun files same => ⟨trivial, vault.buildEnvelope P draw (grantPath P grant.id)
    grant.id "ttl_grant" 1 (P.ttlGrant.toVec grant), ?_, rfl⟩
  have elsewhere : (grantPath P grant.id).dir ≠ .audit := by simp [grantPath]
  simp [Vault.readEnvelope, same _ elsewhere]

/-- The vault rejects the grant that it expired. -/
theorem expired_grant_rejected :
    ¬ ∀ (P : Platform) (keys : VaultKeys) (fleet : Fleet), (fleetSystem P keys).Reached fleet →
      ∀ (device : ℕ) (path : SyncPath) (bytes : Bytes),
        (fleet.vaults device).disk.files[path]? = some bytes →
          (fleet.vaults device).session.validateSyncObjectBytes P bytes = .ok () ∧
            validateSyncObjectBytes P bytes = .ok () := by
  intro claimed
  let P := StandIn.platform
  let grant : TtlGrantPlaintext := ⟨3, "fill", none, "primary", none, "secret", 0, 60⟩
  let created := (sampleFleet P).operated P 0 (.createGrant sampleEvent.object sampleEvent grant)
  let expired := created.operated P 0 (.expireGrant 60 sampleEvent 3)
  have reached : (fleetSystem P sampleKeys).Reached expired :=
    .step (.step (.start (init_sampleFleet P)) trivial (Fleet.Step.operate 0 _)) trivial
      (Fleet.Step.operate 0 _)
  have written : ∃ envelope, (created.vaults 0).readEnvelope P (grantPath P 3) = .ok envelope ∧
      envelope.payload.isSome := by
    have final := Program.wp_total _ (wp_createSecretGrant_payload P ((sampleFleet P).vaults 0)
      sampleEvent.object sampleEvent grant)
    simp only [created, Fleet.operated, Fleet.setVault, Function.update_self]
    exact final
  obtain ⟨envelope, held, payload⟩ := written
  have buried : ∃ bytes envelope', (expired.vaults 0).disk.files[grantPath P 3]? = some bytes ∧
      P.envelope.fromSlice bytes = some envelope' ∧ envelope'.tombstone = true ∧
      envelope'.payload = envelope.payload := by
    have final := Program.wp_total _ (wp_expireGrant_payload P 60 sampleEvent held)
    simp only [expired, Fleet.operated, Fleet.setVault, Function.update_self]
    exact final
  obtain ⟨bytes, envelope', final, parsed, tombstone, kept⟩ := buried
  have accepted := (claimed P sampleKeys expired reached 0 _ _ final).1
  rw [← kept, payload_of_accepted P accepted parsed tombstone] at payload
  simp at payload

end Aipass
