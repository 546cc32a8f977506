import Aipass.Records.Coherence
import Aipass.Records.Operations

/-!
# What an operation leaves of the records

An operation leaves the records as they are or as they are after one change. If it fails with the
change made, something failed late, and the same operation without faults makes the change and
succeeds. Every operation is built of parts that spare the records and of at most one that does
not, and the rules follow that.
-/
namespace Aipass.Records

variable {fingerprint : String → String} {drawn : String} {α β : Type} {cause late : Prop}
  {after : RecordFiles} {store : Store} {id : Uuid} {record next : ProviderRecordPlaintext}

/-- Records that one change leaves of others: each was there, is new with the key drawn, or has its
keys changed. -/
def Follows (fingerprint : String → String) (drawn : String) (start after : RecordFiles) : Prop :=
  ∀ id next, after id = some next →
    start id = some next ∨
      (next.Coherent fingerprint ∧ next.ids = [drawn]) ∨
      ∃ record, start id = some record ∧ (record.Coherent fingerprint →
        KeyChange fingerprint drawn record next.entry.secretRefs next.secrets)

/-- A program leaves the records as they are, and fails for a cause only. -/
def Spares (cause : Prop) (program : Program Store VaultError α) (store : Store) : Prop :=
  program.wp (fun left => left.records = store.records)
    (fun _ left => cause ∧ left.records = store.records)
    (fun _ left => left.records = store.records) store

/-- A program leaves the records as they are or as they are after a change, and fails with the
change made only if something failed late. -/
def Leaves (late : Prop) (after : RecordFiles) (program : Program Store VaultError α)
    (store : Store) : Prop :=
  program.wp (fun left => left.records = store.records ∨ left.records = after)
    (fun _ left => left.records = store.records ∨ late ∧ left.records = after)
    (fun _ left => left.records = store.records ∨ left.records = after) store

/-- A program succeeds and leaves the records as they are after a change. -/
def Reaches (after : RecordFiles) (program : Program Store VaultError α) (store : Store) : Prop :=
  program.wp (fun _ => True) (fun _ _ => False) (fun _ left => left.records = after) store

/-- What a program leaves of the records, beside the same program without faults. -/
inductive Settled (fingerprint : String → String) (drawn : String) (late : Prop)
    (quiet program : Program Store VaultError α) (store : Store) : Prop
  | kept (spares : Spares True program store)
  | changed {after : RecordFiles} (follows : Follows fingerprint drawn store.records after)
      (leaves : Leaves late after program store) (reaches : Reaches after quiet store)

/-! ## Parts that spare the records -/

/-- A program may fail for more causes. -/
theorem Spares.mono {program : Program Store VaultError α} (spares : Spares cause program store)
    (implies : cause → late) : Spares late program store :=
  Program.wp_mono spares (fun _ same => same) (fun _ _ same => ⟨implies same.1, same.2⟩)
    (fun _ _ same => same)

/-- Returning a value spares the records. -/
theorem spares_pure (value : α) :
    Spares cause (pure value : Program Store VaultError α) store :=
  (Program.wp_pure value).mpr rfl

/-- A sequence spares what its parts spare. -/
theorem Spares.bind {first : Program Store VaultError α}
    {rest : α → Program Store VaultError β} (head : Spares cause first store)
    (tail : ∀ value left, left.records = store.records → Spares cause (rest value) left) :
    Spares cause (first >>= rest) store := by
  refine (Program.wp_bind first rest).mpr (Program.wp_mono head (fun _ same => same)
    (fun _ _ same => same) fun value left same => ?_)
  have spared := tail value left same
  rw [Spares, same] at spared
  exact spared

/-- What follows a read is handed the store. -/
theorem spares_read {rest : Store → Program Store VaultError β}
    (tail : Spares cause (rest store) store) : Spares cause (Program.read >>= rest) store :=
  (Program.wp_bind _ _).mpr (Program.wp_read.mpr tail)

/-- What follows a computed result may assume it, if that fails for a cause. -/
theorem spares_ofExcept {result : Except VaultError α} {rest : α → Program Store VaultError β}
    (fails : ∀ error, result = .error error → cause)
    (tail : ∀ value, result = .ok value → Spares cause (rest value) store) :
    Spares cause (Program.ofExcept result >>= rest) store := by
  rw [Spares, Program.wp_bind, Program.wp_ofExcept]
  cases computed : result with
  | ok value => exact tail value computed
  | error error => exact ⟨fails error computed, rfl⟩

/-- Writing a file that is no record spares the records. -/
theorem spares_atomicWrite {ending : WriteEnd} {place : Store → Store}
    (same : (place store).records = store.records) (fails : ending ≠ .done → cause) :
    Spares cause (atomicWrite ending place) store := by
  cases ending with
  | done => exact (Program.wp_write place).mpr ⟨same, same⟩
  | unplaced => exact (Program.wp_fail _).mpr ⟨fails nofun, rfl⟩
  | unsynced =>
    refine (Program.wp_bind _ _).mpr ((Program.wp_write place).mpr ⟨same, ?_⟩)
    exact (Program.wp_fail _).mpr ⟨fails nofun, same⟩

/-- An event spares the records. -/
theorem spares_audit {ending : WriteEnd} {action : String} {recordId : Option Uuid}
    {detail : Option String} (fails : ending ≠ .done → cause) :
    Spares cause (audit ending action recordId detail) store :=
  spares_atomicWrite rfl fails

/-- The event of a record spares the records. -/
theorem spares_auditEdit {ending : WriteEnd} {action : Option String}
    (fails : ending ≠ .done → cause) : Spares cause (auditEdit ending id action) store := by
  cases action with
  | none => exact spares_pure ()
  | some action => exact spares_audit fails

/-- Writing a grant spares the records. -/
theorem spares_writeGrant {draws : Draws} {index : ℕ} {grant : TtlGrantPlaintext}
    (fails : draws.faults.grant index ≠ .done → cause) :
    Spares cause (Store.writeGrant draws index grant) store :=
  spares_atomicWrite rfl fails

/-- Writing grants spares the records. -/
theorem spares_writeGrants {draws : Draws} {entryId : Uuid} {purpose : String} {ttlSeconds : Int}
    {origin : Option String} {targets : List (String × String)}
    (fails : ∀ index, draws.faults.grant index ≠ .done → cause) (index : ℕ) :
    Spares cause (Store.writeGrants draws entryId purpose ttlSeconds origin index targets)
      store := by
  induction targets generalizing index store with
  | nil => exact spares_pure []
  | cons target targets ih =>
    refine (spares_writeGrant (fails index)).bind fun _ _ _ => ?_
    exact (ih (index + 1)).bind fun _ _ _ => spares_pure _

/-! ## Parts that may change them -/

/-- A change behind parts that spare the records. -/
theorem Spares.leaves {first : Program Store VaultError α}
    {rest : α → Program Store VaultError β} (head : Spares True first store)
    (tail : ∀ value left, left.records = store.records → Leaves late after (rest value) left) :
    Leaves late after (first >>= rest) store := by
  refine (Program.wp_bind first rest).mpr (Program.wp_mono head (fun _ same => .inl same)
    (fun _ _ same => .inl same.2) fun value left same => ?_)
  have leaves := tail value left same
  rw [Leaves, same] at leaves
  exact leaves

/-- A change behind parts that spare the records and do not fail. -/
theorem Spares.reaches {first : Program Store VaultError α}
    {rest : α → Program Store VaultError β} (head : Spares False first store)
    (tail : ∀ value left, left.records = store.records → Reaches after (rest value) left) :
    Reaches after (first >>= rest) store :=
  (Program.wp_bind first rest).mpr (Program.wp_mono head (fun _ _ => trivial)
    (fun _ _ failed => failed.1) fun value left same => tail value left same)

/-- A change before parts that spare the records. -/
theorem Leaves.bind {first : Program Store VaultError α}
    {rest : α → Program Store VaultError β} (head : Leaves late after first store)
    (tail : ∀ value left, left.records = store.records ∨ left.records = after →
      Spares late (rest value) left) : Leaves late after (first >>= rest) store := by
  refine (Program.wp_bind first rest).mpr (Program.wp_mono head (fun _ left => left)
    (fun _ _ left => left) fun value left which => ?_)
  refine Program.wp_mono (tail value left which) ?_ ?_ ?_
  · intro last same
    rwa [same]
  · rintro error last ⟨cause, same⟩
    rw [same]
    exact which.imp id fun changed => ⟨cause, changed⟩
  · intro value last same
    rwa [same]

/-- A change before parts that spare the records and do not fail. -/
theorem Reaches.bind {first : Program Store VaultError α}
    {rest : α → Program Store VaultError β} (head : Reaches after first store)
    (tail : ∀ value left, left.records = after → Spares False (rest value) left) :
    Reaches after (first >>= rest) store := by
  refine (Program.wp_bind first rest).mpr (Program.wp_mono head (fun _ _ => trivial)
    (fun _ _ failed => failed) fun value left changed => ?_)
  exact Program.wp_mono (tail value left changed) (fun _ _ => trivial)
    (fun _ _ failed => failed.1) fun _ _ same => same.trans changed

/-- Writing a record is a change. -/
theorem leaves_writeProviderRecord {ending : WriteEnd} (unsynced : ending = .unsynced → late) :
    Leaves late (Function.update store.records id (some next))
      (writeProviderRecord ending id next) store := by
  have placed : (store.withRecord id next).records =
      Function.update store.records id (some next) := rfl
  cases ending with
  | done => exact (Program.wp_write _).mpr ⟨.inr placed, .inr placed⟩
  | unplaced => exact (Program.wp_fail _).mpr (.inl rfl)
  | unsynced =>
    refine (Program.wp_bind _ _).mpr ((Program.wp_write _).mpr ⟨.inr placed, ?_⟩)
    exact (Program.wp_fail _).mpr (.inr ⟨unsynced rfl, placed⟩)

/-- Writing a record without faults makes the change. -/
theorem reaches_writeProviderRecord :
    Reaches (Function.update store.records id (some next))
      (writeProviderRecord .done id next) store :=
  (Program.wp_write _).mpr ⟨trivial, rfl⟩

/-! ## Operations -/

/-- What follows a computed result settles the records, if faults only hide that. -/
theorem settled_ofExcept {quietly result : Except VaultError α}
    {quiet program : α → Program Store VaultError β}
    (same : ∀ value, result = .ok value → quietly = .ok value)
    (tail : ∀ value, result = .ok value →
      Settled fingerprint drawn late (quiet value) (program value) store) :
    Settled fingerprint drawn late (Program.ofExcept quietly >>= quiet)
      (Program.ofExcept result >>= program) store := by
  cases computed : result with
  | ok value =>
    rw [same value computed]
    exact tail value computed
  | error error => exact .kept (spares_ofExcept (fun _ _ => trivial) nofun)

/-- A program behind one that settles the records settles them if it spares them. -/
theorem Settled.bind {first program : Program Store VaultError α}
    {quiet rest : α → Program Store VaultError β}
    (settled : Settled fingerprint drawn late first program store)
    (tail : ∀ value left, Spares late (rest value) left)
    (quietTail : ∀ value left, Spares False (quiet value) left) :
    Settled fingerprint drawn late (first >>= quiet) (program >>= rest) store := by
  cases settled with
  | kept spares =>
    exact .kept (spares.bind fun value left _ => (tail value left).mono fun _ => trivial)
  | changed follows leaves reaches =>
    exact .changed follows (leaves.bind fun value left _ => tail value left)
      (reaches.bind fun value left _ => quietTail value left)

/-- Dropping the value of a program changes nothing. -/
theorem Settled.dropValue {quiet program : Program Store VaultError α}
    (settled : Settled fingerprint drawn late quiet program store) :
    Settled fingerprint drawn late (dropValue quiet) (dropValue program) store :=
  settled.bind (fun _ _ => spares_pure ()) fun _ _ => spares_pure ()

/-- Catching the failure of a program changes nothing. -/
theorem Settled.attempt {quiet program : Program Store VaultError α}
    (settled : Settled fingerprint drawn late quiet program store) :
    Settled fingerprint drawn late quiet.attempt program.attempt store := by
  cases settled with
  | kept spares =>
    exact .kept ((Program.wp_attempt program).mpr
      (Program.wp_mono spares (fun _ same => same) (fun _ _ same => same.2) fun _ _ same => same))
  | changed follows leaves reaches =>
    refine .changed follows ((Program.wp_attempt program).mpr ?_)
      ((Program.wp_attempt quiet).mpr ?_)
    · exact Program.wp_mono leaves (fun _ left => left)
        (fun _ _ left => left.imp id And.right) fun _ _ left => left
    · exact Program.wp_mono reaches (fun _ left => left) (fun _ _ failed => failed.elim)
        fun _ _ left => left

/-- A record under an identifier is one change. -/
theorem follows_update
    (allowed : (next.Coherent fingerprint ∧ next.ids = [drawn]) ∨
      ∃ record, store.records id = some record ∧ (record.Coherent fingerprint →
        KeyChange fingerprint drawn record next.entry.secretRefs next.secrets)) :
    Follows fingerprint drawn store.records
      (Function.update store.records id (some next)) := by
  intro other held isHeld
  by_cases same : other = id
  · subst same
    rw [Function.update_self, Option.some.injEq] at isHeld
    subst isHeld
    exact .inr allowed
  · rw [Function.update_of_ne same] at isHeld
    exact .inl isHeld

/-- What follows a read settles the records, handed the store. -/
theorem settled_read {quiet program : Store → Program Store VaultError β}
    (tail : Settled fingerprint drawn late (quiet store) (program store) store) :
    Settled fingerprint drawn late (Program.read >>= quiet) (Program.read >>= program) store := by
  cases tail with
  | kept spares => exact .kept (spares_read spares)
  | changed follows leaves reaches =>
    exact .changed follows ((Program.wp_bind _ _).mpr (Program.wp_read.mpr leaves))
      ((Program.wp_bind _ _).mpr (Program.wp_read.mpr reaches))

/-- What follows the reading of a record settles the records, if the record is there. -/
theorem settled_providerRecord {fault : Option VaultError}
    {quiet program : ProviderRecordPlaintext → Program Store VaultError β}
    (tail : ∀ record, store.records id = some record →
      Settled fingerprint drawn late (quiet record) (program record) store) :
    Settled fingerprint drawn late
      (Program.read >>= fun store => Program.ofExcept (store.providerRecord none id) >>= quiet)
      (Program.read >>= fun store => Program.ofExcept (store.providerRecord fault id) >>= program)
      store := by
  cases fault with
  | some error =>
    refine .kept (spares_read (spares_ofExcept (fun _ _ => trivial) fun record found => ?_))
    cases found
  | none =>
    refine settled_read (settled_ofExcept (fun _ same => same) fun record found => ?_)
    exact tail record (okOr_eq_ok.mp found)

/-- Writing a record and what is to follow settles the records. -/
theorem settled_write {ending : WriteEnd} {quiet program : Program Store VaultError α}
    (allowed : (next.Coherent fingerprint ∧ next.ids = [drawn]) ∨
      ∃ record, store.records id = some record ∧ (record.Coherent fingerprint →
        KeyChange fingerprint drawn record next.entry.secretRefs next.secrets))
    (unsynced : ending = .unsynced → late)
    (tail : ∀ left, left.records = store.records ∨
      left.records = Function.update store.records id (some next) → Spares late program left)
    (quietTail : ∀ left, left.records = Function.update store.records id (some next) →
      Spares False quiet left) :
    Settled fingerprint drawn late (writeProviderRecord .done id next >>= fun _ => quiet)
      (writeProviderRecord ending id next >>= fun _ => program) store :=
  .changed (follows_update allowed)
    ((leaves_writeProviderRecord unsynced).bind fun _ => tail)
    (reaches_writeProviderRecord.bind fun _ => quietTail)

/-- A change of a record settles the records. -/
theorem settled_editRecord {draws : Draws} {action : Option String} {edit : Edit α}
    (changes : edit.Changes fingerprint drawn) :
    Settled fingerprint drawn draws.faults.Late (editRecord draws.quiet id action edit)
      (editRecord draws id action edit) store := by
  refine settled_providerRecord fun record there =>
    settled_ofExcept (fun _ same => same) fun edited isEdited => ?_
  obtain ⟨value, written⟩ := edited
  cases written with
  | none => exact .kept (spares_pure value)
  | some next =>
    refine settled_write (.inr ⟨record, there, fun coherent => ?_⟩) .inl (fun left _ => ?_)
      fun left _ => ?_
    · exact changes record value next coherent isEdited
    · exact (spares_auditEdit fun fails => .inr (.inl fails)).bind fun _ _ _ => spares_pure value
    · exact (spares_auditEdit fun fails => fails rfl).bind fun _ _ _ => spares_pure value

/-- Adding a provider settles the records. -/
theorem settled_addProviderRecord {draws : Draws} {input : ProviderEntryInput}
    {runtimeExtensions : Table String String} :
    Settled fingerprint draws.secretId draws.faults.Late
      (Store.addProviderRecord fingerprint draws.quiet input runtimeExtensions)
      (Store.addProviderRecord fingerprint draws input runtimeExtensions) store := by
  refine settled_write (.inl (coherent_addProviderRecord _ _ _ _ _)) .inl (fun left _ => ?_)
    fun left _ => ?_
  · exact (spares_audit fun fails => .inr (.inl fails)).bind fun _ _ _ => spares_pure _
  · exact (spares_audit fun fails => fails rfl).bind fun _ _ _ => spares_pure _

/-- Revealing the headers of a provider spares the records. -/
theorem spares_revealProviderHeaders {draws : Draws} :
    Spares True (Store.revealProviderHeaders draws id) store :=
  spares_read (spares_ofExcept (fun _ _ => trivial) fun _ _ =>
    (spares_audit fun _ => trivial).bind fun _ _ _ => spares_pure _)

/-- Expiring a grant spares the records. -/
theorem spares_expireGrant {uuidText : Uuid → String} {draws : Draws} :
    Spares True (Store.expireGrant uuidText draws id) store :=
  spares_read (spares_ofExcept (fun _ _ => trivial) fun _ _ =>
    spares_ofExcept (fun _ _ => trivial) fun _ _ =>
      (spares_atomicWrite rfl fun _ => trivial).bind fun _ _ _ => spares_audit fun _ => trivial)

/-- A use of a record is one change. -/
theorem follows_usedAt (there : store.records id = some record) (now : OffsetDateTime) :
    Follows fingerprint drawn store.records
      (Function.update store.records id (some (record.usedAt now))) :=
  follows_update (.inr ⟨record, there, fun _ => .kept⟩)

/-- Making a grant for each key settles the records. -/
theorem settled_createSecretGrantsForEntry {draws : Draws} {purpose : String} {ttlSeconds : Int}
    {origin : Option String} {limit : ℕ} :
    Settled fingerprint drawn draws.faults.Late
      (Store.createSecretGrantsForEntry draws.quiet id purpose ttlSeconds origin limit)
      (Store.createSecretGrantsForEntry draws id purpose ttlSeconds origin limit) store := by
  refine settled_providerRecord fun record there => ?_
  by_cases none : Store.grantTargets record limit = []
  · rw [if_pos none, if_pos none]
    exact .kept (spares_pure [])
  · rw [if_neg none, if_neg none]
    refine .changed (follows_usedAt there draws.now) ?_ ?_
    · refine (spares_writeGrants (fun _ _ => trivial) 0).leaves fun summaries left same => ?_
      have written : Leaves draws.faults.Late
          (Function.update store.records id (some (record.usedAt draws.now)))
          (writeProviderRecord draws.faults.record id (record.usedAt draws.now)) left := by
        rw [← same]
        exact leaves_writeProviderRecord .inl
      exact written.bind fun _ _ _ =>
        (spares_audit fun fails => .inr (.inl fails)).bind fun _ _ _ => spares_pure _
    · refine (spares_writeGrants (fun _ fails => fails rfl) 0).reaches
        fun summaries left same => ?_
      have written : Reaches (Function.update store.records id (some (record.usedAt draws.now)))
          (writeProviderRecord .done id (record.usedAt draws.now)) left := by
        rw [← same]
        exact reaches_writeProviderRecord
      exact written.bind fun _ _ _ =>
        (spares_audit fun fails => fails rfl).bind fun _ _ _ => spares_pure _

/-- A grant for a secret that is revealed spares the records. -/
theorem spares_grantRevealed {draws : Draws} {field purpose secret : String} {ttlSeconds : Int}
    {origin : Option String} (missing : store.records id = none → cause)
    (again : draws.faults.readAgain ≠ none → cause)
    (grant : draws.faults.grant 0 ≠ .done → cause)
    (event : draws.faults.grantEvent ≠ .done → cause) :
    Spares cause (Store.grantRevealed fingerprint draws id field purpose ttlSeconds origin secret)
      store := by
  refine spares_read (spares_ofExcept (fun error failed => ?_) fun record found => ?_)
  · cases fault : draws.faults.readAgain with
    | some error => exact again (fault ▸ nofun)
    | none =>
      rw [fault] at failed
      cases there : store.records id with
      | none => exact missing there
      | some record =>
        rw [Store.providerRecord, there] at failed
        cases failed
  · exact (spares_writeGrant grant).bind fun _ _ _ =>
      (spares_audit event).bind fun _ _ _ => spares_pure _

/-- Making a grant for a field settles the records. -/
theorem settled_createSecretFieldGrant {draws : Draws} {field purpose : String}
    {ttlSeconds : Int} {origin : Option String} :
    Settled fingerprint drawn draws.faults.Late
      (Store.createSecretFieldGrant fingerprint draws.quiet id field purpose ttlSeconds origin)
      (Store.createSecretFieldGrant fingerprint draws id field purpose ttlSeconds origin)
      store := by
  simp only [Store.createSecretFieldGrant, Store.revealSelectedSecret, editRecord, bind_assoc]
  refine settled_providerRecord fun record there =>
    settled_ofExcept (fun _ same => same) fun edited isEdited => ?_
  obtain ⟨secret, written⟩ := edited
  cases written with
  | none =>
    simp only [pure_bind]
    exact .kept (spares_grantRevealed (fun _ => trivial) (fun _ => trivial) (fun _ => trivial)
      fun _ => trivial)
  | some next =>
    simp only [bind_assoc, pure_bind]
    refine settled_write (.inr ⟨record, there, fun coherent => ?_⟩) .inl (fun left which => ?_)
      fun left changed => ?_
    · exact revealSelectedSecret_changes _ _ _ record secret next coherent isEdited
    · refine (spares_auditEdit fun fails => .inr (.inl fails)).bind fun _ last same => ?_
      refine spares_grantRevealed (fun missing => ?_) (fun fails => .inr (.inr (.inl fails)))
        (fun fails => .inr (.inr (.inr (.inl fails)))) fun fails => .inr (.inr (.inr (.inr fails)))
      obtain start | changed := which
      · rw [same, start, there] at missing
        cases missing
      · rw [same, changed, Function.update_self] at missing
        cases missing
    · refine (spares_auditEdit fun fails => fails rfl).bind fun _ last same => ?_
      refine spares_grantRevealed (fun missing => ?_) (fun fails => fails rfl)
        (fun fails => fails rfl) fun fails => fails rfl
      rw [same, changed, Function.update_self] at missing
      cases missing

/-- A grant that is read in spite of faults is read without them. -/
theorem readGrant_quiet {fault : Option VaultError} {grant : TtlGrantPlaintext}
    (found : store.readGrant fault id = .ok grant) : store.readGrant none id = .ok grant := by
  obtain ⟨held, isHeld, found⟩ := bind_eq_ok.mp found
  cases fault with
  | none => exact bind_eq_ok.mpr ⟨held, isHeld, found⟩
  | some error => cases found

/-- Consuming a grant settles the records. -/
theorem settled_consumeSecretGrant {uuidText : Uuid → String} {draws : Draws} :
    Settled fingerprint drawn draws.faults.Late
      (Store.consumeSecretGrant uuidText draws.quiet id)
      (Store.consumeSecretGrant uuidText draws id) store := by
  refine settled_read (settled_ofExcept (fun _ => readGrant_quiet) fun grant found => ?_)
  by_cases expired : grant.expiresAt ≤ draws.now
  · rw [if_pos expired]
    refine .kept (spares_expireGrant.bind fun _ left _ => ?_)
    exact (Program.wp_fail _).mpr ⟨trivial, rfl⟩
  · have lasts : ¬grant.expiresAt ≤ draws.quiet.now := expired
    rw [if_neg expired, if_neg lasts]
    have touched : Settled fingerprint drawn draws.faults.Late
        (Store.touchGranted draws.quiet grant.entryId) (Store.touchGranted draws grant.entryId)
        store := by
      cases grant.entryId with
      | none => exact .kept (spares_pure ())
      | some entryId => exact (settled_editRecord (touchProviderLastUsed_changes _)).attempt.dropValue
    refine touched.bind (fun _ left => ?_) fun _ left => ?_
    · exact (spares_audit fun fails => .inr (.inr (.inr (.inr fails)))).bind
        fun _ _ _ => spares_pure _
    · exact (spares_audit fun fails => fails rfl).bind fun _ _ _ => spares_pure _

/-- Every operation settles the records. -/
theorem settled_program (operation : Operation) {uuidText : Uuid → String} (draws : Draws) :
    Settled fingerprint draws.secretId draws.faults.Late
      (operation.program fingerprint uuidText draws.quiet)
      (operation.program fingerprint uuidText draws) store := by
  cases operation with
  | addProvider input runtimeExtensions => exact settled_addProviderRecord.dropValue
  | addSecretWithMetadata id label secret metadata =>
    refine (settled_ofExcept (fun _ same => same) fun label _ => ?_).dropValue
    refine settled_ofExcept (fun _ same => same) fun _ _ => ?_
    exact settled_editRecord (addSecretWithMetadata_changes _ _ _ _ _)
  | updateSecret id secretId label secret =>
    refine (settled_ofExcept (fun _ same => same) fun label _ => ?_).dropValue
    refine settled_ofExcept (fun _ same => same) fun _ _ => ?_
    exact settled_editRecord (updateSecret_changes _ _ _ _)
  | setSecretMetadata id labelOrId metadata =>
    exact (settled_editRecord (setSecretMetadata_changes _ _ _)).dropValue
  | removeSecret id labelOrId =>
    exact (settled_editRecord (removeSecret_changes _ _)).dropValue
  | updateProvider id input => exact settled_editRecord (updateProvider_changes _ _ _)
  | updateProviderUsage id quota gateway usageSource =>
    exact settled_editRecord (updateProviderUsage_changes _ _ _ _)
  | updateProviderSubscription id snapshot =>
    exact settled_editRecord (updateProviderSubscription_changes _ _)
  | migrateSubscriptionScope id expectedMarker expectedBundle identity marker bundle =>
    exact settled_editRecord (migrateSubscriptionScope_changes _ _ _ _ _ _)
  | bindCliSubscription id provider identity marker extensionKey reference =>
    exact settled_editRecord (bindCliSubscription_changes _ _ _ _ _ _)
  | revealSecret id labelOrId exact =>
    exact (settled_editRecord (revealSelectedSecret_changes _ _ _)).dropValue
  | revealProviderHeaders id =>
    exact .kept (spares_revealProviderHeaders.bind fun _ _ _ => spares_pure ())
  | createSecretFieldGrant entryId field purpose ttlSeconds origin =>
    exact settled_createSecretFieldGrant.dropValue
  | createSecretGrantsForEntry entryId purpose ttlSeconds origin limit =>
    exact settled_createSecretGrantsForEntry.dropValue
  | consumeSecretGrant grantId => exact settled_consumeSecretGrant.dropValue
  | expireGrant grantId => exact .kept spares_expireGrant

end Aipass.Records
