import Aipass.Vault.Objects
import Aipass.Vault.Sample

/-!
# Grants for one key of an entry

A grant for a field of an entry reveals the key that the field selects, by its id, by its label or
as the first key, and stores the secret. The summary of the grant names a key as well: the first
key of the entry whose fingerprint is that of the secret. Fingerprints are a parameter. The record
carries what the grant reads of it.
-/
namespace Aipass

/-- `SecretRef`, as far as a grant reads it. -/
structure SecretRef where
  id : String
  label : String
  fingerprint : String
deriving DecidableEq

/-- `ProviderEntry`, as far as a grant reads and writes it. -/
structure ProviderEntry where
  secretRefs : List SecretRef
  lastUsedAt : Option OffsetDateTime

/-- `ProviderRecordPlaintext`, as far as a grant reads it. -/
structure ProviderRecordPlaintext where
  entry : ProviderEntry
  secrets : Table String String

/-- `TtlGrantSummary`. -/
structure TtlGrantSummary where
  id : Uuid
  purpose : String
  entryId : Option Uuid
  secretId : Option String
  origin : Option String
  expiresAt : OffsetDateTime
deriving DecidableEq

/-- `PRIMARY_SECRET_FIELD`. -/
def primarySecretField : String := "primary"

/-- `find_secret_ref_position`. -/
def findSecretRefPosition (secretRefs : List SecretRef) (labelOrId : String) : Option ℕ :=
  (secretRefs.findIdx? fun secret => secret.id = labelOrId).or
    ((secretRefs.findIdx? fun secret => secret.label = labelOrId).or
      (if labelOrId = primarySecretField ∧ secretRefs ≠ [] then some 0 else none))

/-- The key that a selector resolves to. -/
def ProviderRecordPlaintext.selected (record : ProviderRecordPlaintext) (labelOrId : String) :
    Option SecretRef :=
  (findSecretRefPosition record.entry.secretRefs labelOrId).bind fun index =>
    record.entry.secretRefs[index]?

/-- A selector resolves to a key whose secret is stored. -/
def ProviderRecordPlaintext.Resolves (record : ProviderRecordPlaintext) (labelOrId : String)
    (selected : SecretRef) (secret : String) : Prop :=
  record.selected labelOrId = some selected ∧ record.secrets[selected.id]? = some secret

/-- A selector resolves to one key and one secret. -/
theorem ProviderRecordPlaintext.Resolves.unique {record : ProviderRecordPlaintext}
    {labelOrId : String} {selected other : SecretRef} {secret value : String}
    (resolves : record.Resolves labelOrId selected secret)
    (again : record.Resolves labelOrId other value) : selected = other ∧ secret = value := by
  obtain rfl : selected = other := Option.some.inj (resolves.1.symm.trans again.1)
  exact ⟨rfl, Option.some.inj (resolves.2.symm.trans again.2)⟩

variable (P : Platform) (R : Serde ProviderRecordPlaintext) (fingerprint : Key → String → String)

/-- `Vault::decrypt_provider_path` of a record, deserialized. -/
def Vault.providerRecord (vault : Vault) (id : Uuid) :
    Except VaultError ProviderRecordPlaintext := do
  let bytes ← vault.decryptProviderPath P (recordPath P id)
  okOr .json (R.fromSlice bytes)

/-- What `Vault::reveal_secret_field` draws. -/
structure RevealDraws where
  usedAt : OffsetDateTime
  record : ObjectDraw
  event : AuditDraw

/-- `Vault::reveal_secret_field`. -/
def revealSecretField (draws : RevealDraws) (id : Uuid) (labelOrId : String) :
    Program Vault VaultError String := do
  let vault ← Program.read
  let plaintext ← Program.ofExcept (vault.providerRecord P R id)
  let secretRef ← Program.ofExcept (okOr .recordNotFound (plaintext.selected labelOrId))
  let secret ← Program.ofExcept (okOr .recordNotFound plaintext.secrets[secretRef.id]?)
  writeProviderRecord P draws.record id
    (R.toVec { plaintext with entry := { plaintext.entry with lastUsedAt := some draws.usedAt } })
  audit P draws.event "secret.reveal" (some id) none
  return secret

/-- The id of the first key with a fingerprint. -/
def ProviderRecordPlaintext.idOfFingerprint (record : ProviderRecordPlaintext) (mark : String) :
    Option String :=
  (record.entry.secretRefs.find? fun item => item.fingerprint = mark).map SecretRef.id

/-- `Vault::find_secret_id_by_value`. -/
def Vault.findSecretIdByValue (vault : Vault) (id : Uuid) (secret : String) :
    Except VaultError (Option String) := do
  let plaintext ← vault.providerRecord P R id
  return plaintext.idOfFingerprint (fingerprint vault.session.indexKey secret)

/-- What `Vault::create_secret_field_grant` draws. -/
structure GrantDraws where
  reveal : RevealDraws
  id : Uuid
  now : OffsetDateTime
  grant : ObjectDraw
  event : AuditDraw

/-- `Duration::seconds`, in nanoseconds. -/
def Duration.seconds (count : Int) : Int := count * 1000000000

/-- `Vault::create_secret_field_grant`. -/
def createSecretFieldGrant (draws : GrantDraws) (entryId : Uuid) (field purpose : String)
    (ttlSeconds : Int) (origin : Option String) : Program Vault VaultError TtlGrantSummary := do
  let secret ← revealSecretField P R draws.reveal entryId field
  let vault ← Program.read
  let secretId ← Program.ofExcept (vault.findSecretIdByValue P R fingerprint entryId secret)
  let expiresAt := draws.now + Duration.seconds (max ttlSeconds 1)
  createSecretGrant P draws.grant draws.event
    { id := draws.id
      purpose
      entryId := some entryId
      fieldId := field
      origin
      secret
      createdAt := draws.now
      expiresAt }
  return { id := draws.id, purpose, entryId := some entryId, secretId, origin, expiresAt }

section Files

variable {P R} {vault : Vault}

/-- A file just written as a live record is read as that record. -/
theorem decryptProviderPath_buildEnvelope {files : Table SyncPath Bytes} {id : Uuid}
    {draw : ObjectDraw} {plaintext : Bytes}
    (written : files[recordPath P id]? = some (P.envelope.toVecPretty
      (vault.buildEnvelope P draw (recordPath P id) id "provider_entry" 1 plaintext))) :
    (vault.withFiles files).decryptProviderPath P (recordPath P id) = .ok plaintext := by
  have read : (vault.withFiles files).readEnvelope P (recordPath P id) =
      .ok (vault.buildEnvelope P draw (recordPath P id) id "provider_entry" 1 plaintext) := by
    simp [Vault.readEnvelope, written]
  have opened : decryptEnvelopeWithEpoch P
      (vault.buildEnvelope P draw (recordPath P id) id "provider_entry" 1 plaintext)
      vault.session.epochKey = .ok plaintext :=
    decryptEnvelopeWithEpoch_encryptEnvelope P _ _ _ _ rfl
  simp only [Vault.decryptProviderPath, read, ok_bind, Vault.withFiles_session, opened]
  simp [written, Vault.buildEnvelope, encryptEnvelope]

/-- A file just written as a grant is read as that grant. -/
theorem readGrant_buildEnvelope {files : Table SyncPath Bytes} {draw : ObjectDraw} {id : Uuid}
    {grant : TtlGrantPlaintext}
    (written : files[grantPath P id]? = some (P.envelope.toVecPretty
      (vault.buildEnvelope P draw (grantPath P id) id "ttl_grant" 1 (P.ttlGrant.toVec grant)))) :
    (vault.withFiles files).readGrant P id = .ok grant := by
  have read : (vault.withFiles files).readEnvelope P (grantPath P id) =
      .ok (vault.buildEnvelope P draw (grantPath P id) id "ttl_grant" 1
        (P.ttlGrant.toVec grant)) := by
    simp [Vault.readEnvelope, written]
  have opened : decryptEnvelopeWithEpoch P
      (vault.buildEnvelope P draw (grantPath P id) id "ttl_grant" 1
        (P.ttlGrant.toVec grant)) vault.session.epochKey = .ok (P.ttlGrant.toVec grant) :=
    decryptEnvelopeWithEpoch_encryptEnvelope P _ _ _ _ rfl
  simp only [Vault.readGrant, Vault.decryptEnvelopePath, read, ok_bind, Vault.withFiles_session,
    opened]
  simp [written, pure, Except.pure]

/-- Revealing a field returns the secret of the key it resolves to, if there is one, and leaves the
keys of the entry. -/
theorem wp_revealSecretField {draws : RevealDraws} {id : Uuid} {labelOrId : String}
    {record : ProviderRecordPlaintext} (stored : vault.providerRecord P R id = .ok record) :
    (revealSecretField P R draws id labelOrId).wp (fun _ => True)
      (fun _ _ => ∀ selected secret, ¬record.Resolves labelOrId selected secret)
      (fun secret after => after.session = vault.session ∧
        (∃ selected, record.Resolves labelOrId selected secret) ∧
        ∃ touched, after.providerRecord P R id = .ok touched ∧
          touched.entry.secretRefs = record.entry.secretRefs) vault := by
  simp only [revealSecretField, Program.wp_bind, Program.wp_read, Program.wp_ofExcept, stored]
  cases selects : record.selected labelOrId with
  | none =>
    intro selected secret resolves
    simp [ProviderRecordPlaintext.Resolves, selects] at resolves
  | some selected =>
    cases holds : record.secrets[selected.id]? with
    | none =>
      simp only [okOr_some, holds, okOr_none]
      intro other secret resolves
      obtain rfl : selected = other := Option.some.inj (selects.symm.trans resolves.1)
      exact Option.some_ne_none secret (resolves.2.symm.trans holds)
    | some secret =>
      simp only [okOr_some, holds, writeProviderRecord, wp_writeEnvelope]
      refine ⟨trivial, wp_audit P fun files same => ⟨trivial, ?_⟩⟩
      rw [Program.wp_pure]
      have written := (same (recordPath P id) (by simp [recordPath])).trans (by
        rw [Vault.withFiles_files, Table.get_insert, if_pos rfl])
      rw [Vault.withFiles_withFiles]
      refine ⟨rfl, ⟨selected, selects, holds⟩,
        { record with entry := { record.entry with lastUsedAt := some draws.usedAt } }, ?_, rfl⟩
      rw [Vault.providerRecord, decryptProviderPath_buildEnvelope written, ok_bind,
        R.fromSlice_toVec, okOr_some]

variable {fingerprint : Key → String → String}

/-- A grant stores the secret of the selected key, and its summary names the first key with the
fingerprint of that secret. -/
theorem wp_createSecretFieldGrant {draws : GrantDraws} {entryId : Uuid} {field purpose : String}
    {ttlSeconds : Int} {origin : Option String} {record : ProviderRecordPlaintext}
    (stored : vault.providerRecord P R entryId = .ok record) :
    (createSecretFieldGrant P R fingerprint draws entryId field purpose ttlSeconds origin).wp
      (fun _ => True) (fun _ _ => ∀ selected secret, ¬record.Resolves field selected secret)
      (fun summary after => ∃ selected secret, record.Resolves field selected secret ∧
        summary.secretId =
          record.idOfFingerprint (fingerprint vault.session.indexKey secret) ∧
        ∃ grant : TtlGrantPlaintext, after.readGrant P summary.id = .ok grant ∧
          grant.secret = secret ∧ grant.expiresAt = summary.expiresAt) vault := by
  rw [createSecretFieldGrant, Program.wp_bind]
  apply Program.wp_mono (wp_revealSecretField stored) (fun _ _ => trivial) (fun _ _ fails => fails)
  intro secret revealed facts
  obtain ⟨session, ⟨selected, resolves⟩, touched, reread, refs⟩ := facts
  have named : revealed.findSecretIdByValue P R fingerprint entryId secret =
      .ok (record.idOfFingerprint (fingerprint vault.session.indexKey secret)) := by
    rw [Vault.findSecretIdByValue, reread, ok_bind, session,
      ProviderRecordPlaintext.idOfFingerprint, refs]
    rfl
  simp only [Program.wp_bind, Program.wp_read, Program.wp_ofExcept, named, createSecretGrant,
    wp_writeEnvelope]
  refine ⟨trivial, wp_audit P fun files same => ⟨trivial, ?_⟩⟩
  rw [Program.wp_pure]
  have written := (same (grantPath P draws.id) (by simp [grantPath])).trans (by
    rw [Vault.withFiles_files, Table.get_insert, if_pos rfl])
  rw [Vault.withFiles_withFiles]
  have granted := readGrant_buildEnvelope written
  exact ⟨selected, secret, resolves, rfl, _, granted, rfl, rfl⟩

/-- A grant that has not expired is consumed for its secret. -/
theorem wp_consume_live {now : OffsetDateTime} (event : AuditDraw) (draw : ObjectDraw)
    (touch : Bytes → Option Bytes) {grantId : Uuid} {grant : TtlGrantPlaintext}
    (granted : vault.readGrant P grantId = .ok grant) (early : now < grant.expiresAt) :
    (consumeSecretGrant P now event draw touch grantId).wp (fun _ => True) (fun _ _ => False)
      (fun secret _ => secret = grant.secret) vault := by
  have live : ¬grant.expiresAt ≤ now := not_le.mpr early
  simp only [consumeSecretGrant, Program.wp_bind, Program.wp_read, Program.wp_ofExcept, granted,
    if_neg live]
  cases owner : grant.entryId with
  | none =>
    simp only [Program.wp_bind, Program.wp_pure]
    exact wp_audit P fun files same => ⟨trivial, trivial⟩
  | some entryId =>
    simp only [Program.wp_bind, Program.wp_attempt, Program.wp_pure]
    apply Program.wp_of_forall (fun _ => trivial)
    · exact fun _ left => wp_audit P fun files same => ⟨trivial, trivial⟩
    · exact fun _ left => wp_audit P fun files same => ⟨trivial, trivial⟩

end Files

/-- The first key with a fingerprint has a given id. -/
def ProviderRecordPlaintext.Foremost (record : ProviderRecordPlaintext) (id mark : String) : Prop :=
  ∃ before item after, record.entry.secretRefs = before ++ item :: after ∧ item.id = id ∧
    item.fingerprint = mark ∧ ∀ earlier ∈ before, earlier.fingerprint ≠ mark

/-- A search by fingerprint finds the first key with it. -/
theorem ProviderRecordPlaintext.idOfFingerprint_eq_some {record : ProviderRecordPlaintext}
    {id mark : String} : record.idOfFingerprint mark = some id ↔ record.Foremost id mark := by
  simp only [idOfFingerprint, Option.map_eq_some_iff, List.find?_eq_some_iff_append,
    decide_eq_true_eq, Foremost, Bool.not_eq_true', decide_eq_false_iff_not]
  constructor
  · rintro ⟨item, ⟨marked, before, after, split, others⟩, named⟩
    exact ⟨before, item, after, split, named, marked, others⟩
  · rintro ⟨before, item, after, split, named, marked, others⟩
    exact ⟨item, ⟨marked, before, after, split, others⟩, named⟩

/-- A grant names the key that it was asked for, and until it expires it is consumed for the
secret of that key. -/
def Vault.GrantNames (later : Vault) (record : ProviderRecordPlaintext) (field : String)
    (summary : TtlGrantSummary) : Prop :=
  ∃ selected secret, record.Resolves field selected secret ∧
    summary.secretId = some selected.id ∧
    ∀ now event draw touch, now < summary.expiresAt →
      ((consumeSecretGrant P now event draw touch summary.id).run later).result = .ok secret

/-- A grant names the key that it was asked for exactly when that key is the first of the entry
with the fingerprint of its secret. -/
theorem grantNames_iff {vault later : Vault} {draws : GrantDraws} {entryId : Uuid}
    {field purpose : String} {ttlSeconds : Int} {origin : Option String}
    {record : ProviderRecordPlaintext} {summary : TtlGrantSummary}
    (stored : vault.providerRecord P R entryId = .ok record)
    (created : ((createSecretFieldGrant P R fingerprint draws entryId field purpose ttlSeconds
      origin).run vault).result = .ok summary)
    (kept : later.readGrant P summary.id = ((createSecretFieldGrant P R fingerprint draws entryId
      field purpose ttlSeconds origin).run vault).final.readGrant P summary.id) :
    later.GrantNames P record field summary ↔
      ∃ selected secret, record.Resolves field selected secret ∧
        record.Foremost selected.id (fingerprint vault.session.indexKey secret) := by
  have granted := Program.wp_ok (wp_createSecretFieldGrant stored) created
  obtain ⟨selected, secret, resolves, named, grant, reads, same, expires⟩ := granted
  have consumed : ∀ now event draw touch, now < summary.expiresAt →
      ((consumeSecretGrant P now event draw touch summary.id).run later).result = .ok secret := by
    intro now event draw touch early
    rw [← expires] at early
    rw [← same]
    exact Program.result_of_wp (wp_consume_live event draw touch (kept.trans reads) early)
  constructor
  · intro ⟨chosen, value, chooses, names, _⟩
    obtain ⟨rfl, rfl⟩ := resolves.unique chooses
    have foremost := ProviderRecordPlaintext.idOfFingerprint_eq_some.mp (named.symm.trans names)
    exact ⟨selected, secret, resolves, foremost⟩
  · intro ⟨chosen, value, chooses, foremost⟩
    obtain ⟨rfl, rfl⟩ := resolves.unique chooses
    have names := named.trans (ProviderRecordPlaintext.idOfFingerprint_eq_some.mpr foremost)
    exact ⟨selected, secret, resolves, names, consumed⟩

/-- A grant for a field that resolves is created. -/
theorem createSecretFieldGrant_ok {vault : Vault} {draws : GrantDraws} {entryId : Uuid}
    {field purpose : String} {ttlSeconds : Int} {origin : Option String}
    {record : ProviderRecordPlaintext} (stored : vault.providerRecord P R entryId = .ok record)
    {selected : SecretRef} {secret : String} (resolves : record.Resolves field selected secret) :
    ∃ summary, ((createSecretFieldGrant P R fingerprint draws entryId field purpose ttlSeconds
      origin).run vault).result = .ok summary := by
  cases result : ((createSecretFieldGrant P R fingerprint draws entryId field purpose ttlSeconds
      origin).run vault).result with
  | ok summary => exact ⟨summary, rfl⟩
  | error error =>
    have fails := Program.wp_error (wp_createSecretFieldGrant stored) result
    exact (fails selected secret resolves).elim

namespace Sample

instance : Encodable (Table String String) :=
  Encodable.ofLeftInverse (fun table => table.toList) (fun entries => Table.insertAll ∅ entries)
    Table.insertAll_toList

deriving instance Encodable for SecretRef, ProviderEntry, ProviderRecordPlaintext

/-- A serializer of records. -/
def records : Serde ProviderRecordPlaintext := StandIn.serde _

/-- A text as its own fingerprint. -/
def mark (_ : Key) (secret : String) : String := secret

/-- An entry with two keys that have given secrets. -/
def twoKeys (first second : String) : ProviderRecordPlaintext where
  entry := ⟨[⟨"a", "primary", first⟩, ⟨"b", "relay", second⟩], none⟩
  secrets := ((∅ : Table String String).insert "a" first).insert "b" second

/-- A vault with one record. -/
def recordVault (record : ProviderRecordPlaintext) : Vault :=
  vault P (epochKey 5) ((∅ : Table SyncPath Bytes).insert (recordPath P 1)
    (P.envelope.toVecPretty (envelope P 1 "provider_entry" (R.toVec record) (epochKey 5))))

/-- The record of the vault is read. -/
theorem providerRecord_recordVault (record : ProviderRecordPlaintext) :
    (recordVault P R record).providerRecord P R 1 = .ok record := by
  have read : (recordVault P R record).readEnvelope P (recordPath P 1) =
      .ok (envelope P 1 "provider_entry" (R.toVec record) (epochKey 5)) := by
    simp [Vault.readEnvelope, recordVault, vault]
  have opened : (recordVault P R record).decryptProviderPath P (recordPath P 1) =
      .ok (R.toVec record) := by
    have session : (recordVault P R record).session.epochKey = epochKey 5 := rfl
    simp only [Vault.decryptProviderPath, read, ok_bind, session, decrypt_envelope]
    simp [recordVault, vault, envelope, encryptEnvelope]
  rw [Vault.providerRecord, opened, ok_bind, R.fromSlice_toVec, okOr_some]

/-- The second key of the entry is selected by its id. -/
theorem resolves_twoKeys (first second : String) :
    (twoKeys first second).Resolves "b" ⟨"b", "relay", second⟩ second := by
  constructor
  · rfl
  · simp [twoKeys]

/-- Draws of a grant. -/
def grantDraws : GrantDraws :=
  ⟨⟨0, ⟨0, envelopeDraw⟩, ⟨2, 0, ⟨0, envelopeDraw⟩⟩⟩, 3, 0, ⟨0, envelopeDraw⟩,
    ⟨4, 0, ⟨0, envelopeDraw⟩⟩⟩

/-- A grant for the second key of an entry with two keys. -/
def secondGrant (first second : String) : Outcome Vault VaultError TtlGrantSummary :=
  (createSecretFieldGrant P R mark grantDraws 1 "b" "browser.fill" 60 none).run
    (recordVault P R (twoKeys first second))

/-- The grant is created. -/
theorem secondGrant_ok (first second : String) :
    ∃ summary, (secondGrant P R first second).result = .ok summary :=
  createSecretFieldGrant_ok P R mark (providerRecord_recordVault P R (twoKeys first second))
    (resolves_twoKeys first second)

/-- A grant for the second of two keys that hold one secret does not name it. -/
theorem not_grantNames_secondGrant (secret : String) {summary : TtlGrantSummary}
    (created : (secondGrant P R secret secret).result = .ok summary) :
    ¬(secondGrant P R secret secret).final.GrantNames P (twoKeys secret secret) "b" summary := by
  have stored := providerRecord_recordVault P R (twoKeys secret secret)
  have granted := Program.wp_ok (wp_createSecretFieldGrant stored) created
  have resolves := resolves_twoKeys secret secret
  obtain ⟨selected, value, again, named, _⟩ := granted
  obtain ⟨rfl, rfl⟩ := resolves.unique again
  have first : summary.secretId = some "a" := by
    rw [named]
    simp [ProviderRecordPlaintext.idOfFingerprint, twoKeys, mark]
  intro ⟨chosen, value, chooses, names, _⟩
  obtain ⟨rfl, rfl⟩ := resolves.unique chooses
  rw [first] at names
  simp at names

/-- The second of two keys with different secrets is the first with its fingerprint. -/
theorem foremost_twoKeys {first second : String} (different : first ≠ second) :
    (twoKeys first second).Foremost "b" second := by
  refine ⟨[⟨"a", "primary", first⟩], ⟨"b", "relay", second⟩, [], rfl, rfl, rfl, ?_⟩
  intro earlier listed
  rw [List.mem_singleton.mp listed]
  exact different

end Sample

/-- A grant for the second of two keys with different secrets names it. -/
theorem second_named : ∃ summary,
    (Sample.secondGrant StandIn.platform Sample.records "sk-1" "sk-2").result = .ok summary ∧
      (Sample.secondGrant StandIn.platform Sample.records "sk-1" "sk-2").final.GrantNames
        StandIn.platform (Sample.twoKeys "sk-1" "sk-2") "b" summary := by
  obtain ⟨summary, created⟩ := Sample.secondGrant_ok StandIn.platform Sample.records "sk-1" "sk-2"
  have stored := Sample.providerRecord_recordVault StandIn.platform Sample.records
    (Sample.twoKeys "sk-1" "sk-2")
  have named := grantNames_iff StandIn.platform Sample.records Sample.mark stored created rfl
  exact ⟨summary, created, named.mpr
    ⟨_, _, Sample.resolves_twoKeys "sk-1" "sk-2", Sample.foremost_twoKeys (by decide)⟩⟩

/-- A grant for the second of two keys that hold one secret names the first. -/
theorem twin_misnamed : ∃ summary,
    (Sample.secondGrant StandIn.platform Sample.records "sk-1" "sk-1").result = .ok summary ∧
      ¬(Sample.secondGrant StandIn.platform Sample.records "sk-1" "sk-1").final.GrantNames
        StandIn.platform (Sample.twoKeys "sk-1" "sk-1") "b" summary := by
  obtain ⟨summary, created⟩ := Sample.secondGrant_ok StandIn.platform Sample.records "sk-1" "sk-1"
  exact ⟨summary, created,
    Sample.not_grantNames_secondGrant StandIn.platform Sample.records "sk-1" created⟩

end Aipass
