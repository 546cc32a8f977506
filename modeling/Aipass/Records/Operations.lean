import Aipass.Records.Edits
import Aipass.Vault.Grants
import Mathlib.Logic.Function.Basic

/-!
# Operations on provider records

The operations of a vault that read and write provider records, with the grants for their keys.
Files are what they decrypt to. A file is written in one step, which can fail before the new file
is in the place of the old one, and after that, when its directory is synchronized. Reading can
fail as well, so an operation takes the faults it meets along with the times and identifiers it
draws.
-/
namespace Aipass.Records

/-- `AuditEvent`, as far as an operation chooses it. -/
structure Event where
  action : String
  recordId : Option Uuid
  detail : Option String

/-- The records that are there. -/
abbrev RecordFiles := Uuid → Option ProviderRecordPlaintext

/-- The files that operations on records read and write. -/
structure Store where
  records : RecordFiles
  /-- The grants; one that has expired is erased. -/
  grants : Uuid → Option (Option TtlGrantPlaintext)
  events : List Event

/-- The store with a record. -/
def Store.withRecord (store : Store) (id : Uuid) (record : ProviderRecordPlaintext) : Store :=
  { store with records := Function.update store.records id (some record) }

/-- The store with a grant, or with an erased one. -/
def Store.withGrant (store : Store) (id : Uuid) (grant : Option TtlGrantPlaintext) : Store :=
  { store with grants := Function.update store.grants id (some grant) }

/-- How the write of a file ends. -/
inductive WriteEnd
  | done
  /-- It failed, and the new file is not in place. -/
  | unplaced
  /-- The new file is in place, but its directory could not be synchronized. -/
  | unsynced
deriving DecidableEq

/-- The faults that an operation meets. -/
structure Faults where
  /-- At reading the record. -/
  read : Option VaultError
  /-- At reading a file once more: the record for its key, or the grant that expires. -/
  readAgain : Option VaultError
  /-- At reading the grant. -/
  readGrant : Option VaultError
  /-- At writing the record. -/
  record : WriteEnd
  /-- At writing the event of the record. -/
  recordEvent : WriteEnd
  /-- At writing the grants, one after another. -/
  grant : ℕ → WriteEnd
  /-- At writing the event of the grants. -/
  grantEvent : WriteEnd

/-- No faults. -/
def Faults.none : Faults where
  read := .none
  readAgain := .none
  readGrant := .none
  record := .done
  recordEvent := .done
  grant _ := .done
  grantEvent := .done

/-- Something fails when the new record is in place. -/
def Faults.Late (faults : Faults) : Prop :=
  faults.record = .unsynced ∨ faults.recordEvent ≠ .done ∨ faults.readAgain ≠ .none ∨
    faults.grant 0 ≠ .done ∨ faults.grantEvent ≠ .done

/-- What an operation draws, and the faults that it meets. -/
structure Draws where
  now : OffsetDateTime
  /-- The time at which a key is used. -/
  usedAt : OffsetDateTime
  entryId : Uuid
  secretId : String
  grantId : ℕ → Uuid
  faults : Faults

/-- The same draws without faults. -/
def Draws.quiet (draws : Draws) : Draws := { draws with faults := .none }

/-- `Vault::decrypt_provider_path` of a record. -/
def Store.providerRecord (store : Store) (fault : Option VaultError) (id : Uuid) :
    Except VaultError ProviderRecordPlaintext :=
  match fault with
  | some error => .error error
  | none => okOr .recordNotFound (store.records id)

/-- A grant as `Vault::consume_secret_grant` reads it. -/
def Store.readGrant (store : Store) (fault : Option VaultError) (id : Uuid) :
    Except VaultError TtlGrantPlaintext := do
  let held ← okOr .grantNotFound (store.grants id)
  match fault with
  | some error => .error (if error = .crypto then .grantExpired else error)
  | none => okOr .grantExpired held

/-- `atomic_write_bytes`. -/
def atomicWrite (ending : WriteEnd) (place : Store → Store) : Program Store VaultError Unit :=
  match ending with
  | .done => Program.write place
  | .unplaced => Program.fail .io
  | .unsynced => do
    Program.write place
    Program.fail .io

/-- `Vault::audit`, without the retention of events. -/
def audit (ending : WriteEnd) (action : String) (recordId : Option Uuid)
    (detail : Option String) : Program Store VaultError Unit :=
  atomicWrite ending fun store =>
    { store with
      events := store.events ++ [{ action, recordId, detail := detail.map redactDetail }] }

/-- `Vault::write_provider_record`. -/
def writeProviderRecord (ending : WriteEnd) (id : Uuid) (record : ProviderRecordPlaintext) :
    Program Store VaultError Unit :=
  atomicWrite ending fun store => store.withRecord id record

/-- The event that follows the write of a record, if there is one. -/
def auditEdit (ending : WriteEnd) (id : Uuid) : Option String → Program Store VaultError Unit
  | some action => audit ending action (some id) none
  | none => pure ()

/-- Read a record, change it, and write it with its event if there is something to write. -/
def editRecord {α : Type} (draws : Draws) (id : Uuid) (action : Option String) (edit : Edit α) :
    Program Store VaultError α := do
  let store ← Program.read
  let record ← Program.ofExcept (store.providerRecord draws.faults.read id)
  let edited ← Program.ofExcept (edit record)
  match edited.2 with
  | some next =>
    writeProviderRecord draws.faults.record id next
    auditEdit draws.faults.recordEvent id action
    return edited.1
  | none => return edited.1

namespace Store

variable (fingerprint : String → String) (uuidText : Uuid → String) (draws : Draws)

/-- `Vault::add_provider_record`. -/
def addProviderRecord (input : ProviderEntryInput) (runtimeExtensions : Table String String) :
    Program Store VaultError Uuid := do
  writeProviderRecord draws.faults.record draws.entryId
    (Records.addProviderRecord fingerprint draws.now draws.entryId draws.secretId input
      runtimeExtensions)
  audit draws.faults.recordEvent "provider.create" (some draws.entryId) none
  return draws.entryId

/-- `Vault::add_secret_with_metadata`. -/
def addSecretWithMetadata (id : Uuid) (label secret : String) (metadata : SecretMetadataInput) :
    Program Store VaultError String := do
  let label ← Program.ofExcept (okOr .invalidSecretLabel (normalizeUserSecretLabel label))
  Program.ofExcept (refuseIf (secret = "") .invalidSecretValue)
  editRecord draws id (some "secret.add")
    (Records.addSecretWithMetadata fingerprint draws.now draws.secretId label secret metadata)

/-- `Vault::update_secret`. -/
def updateSecret (id : Uuid) (secretId label : String) (secret : Option String) :
    Program Store VaultError Bool := do
  let label ← Program.ofExcept (okOr .invalidSecretLabel (normalizeUserSecretLabel label))
  Program.ofExcept (refuseIf (secret = some "") .invalidSecretValue)
  editRecord draws id (some "secret.update")
    (Records.updateSecret fingerprint draws.now secretId label secret)

/-- `Vault::set_secret_metadata`. -/
def setSecretMetadata (id : Uuid) (labelOrId : String) (metadata : SecretMetadataInput) :
    Program Store VaultError Bool :=
  editRecord draws id (some "secret.metadata.update")
    (Records.setSecretMetadata draws.now labelOrId metadata)

/-- `Vault::remove_secret`. -/
def removeSecret (id : Uuid) (labelOrId : String) : Program Store VaultError String :=
  editRecord draws id (some "secret.remove") (Records.removeSecret draws.now labelOrId)

/-- `Vault::update_provider`. -/
def updateProvider (id : Uuid) (input : ProviderEntryUpdateInput) :
    Program Store VaultError Unit :=
  editRecord draws id (some "provider.update")
    (Records.updateProvider fingerprint draws.now id draws.secretId input)

/-- `Vault::update_provider_usage`. -/
def updateProviderUsage (id : Uuid) (quota : Option QuotaInfo) (gateway : Option GatewayMetadata)
    (usageSource : Option String) : Program Store VaultError Unit :=
  editRecord draws id none (Records.updateProviderUsage draws.now quota gateway usageSource)

/-- `Vault::update_provider_subscription`. -/
def updateProviderSubscription (id : Uuid) (snapshot : Option Value) :
    Program Store VaultError Unit :=
  editRecord draws id none (Records.updateProviderSubscription draws.now snapshot)

/-- `Vault::migrate_subscription_scope`. -/
def migrateSubscriptionScope (id : Uuid)
    (expectedMarker expectedBundle identity marker bundle : String) :
    Program Store VaultError Unit :=
  editRecord draws id (some "provider.scope.migrate")
    (Records.migrateSubscriptionScope fingerprint draws.now expectedMarker expectedBundle identity
      marker bundle)

/-- `Vault::bind_cli_subscription`. -/
def bindCliSubscription (id : Uuid) (provider identity marker extensionKey reference : String) :
    Program Store VaultError Unit :=
  editRecord draws id (some "provider.cli.bind")
    (Records.bindCliSubscription fingerprint draws.now provider identity marker extensionKey
      reference)

/-- `Vault::reveal_selected_secret`. -/
def revealSelectedSecret (id : Uuid) (labelOrId : String) (exact : Bool) :
    Program Store VaultError String :=
  editRecord draws id (some "secret.reveal")
    (Records.revealSelectedSecret draws.usedAt labelOrId exact)

/-- `Vault::reveal_provider_headers`. -/
def revealProviderHeaders (id : Uuid) : Program Store VaultError (List (String × String)) := do
  let store ← Program.read
  let record ← Program.ofExcept (store.providerRecord draws.faults.read id)
  audit draws.faults.recordEvent "provider.headers.reveal" (some id) none
  return record.entry.headers

/-- `Vault::touch_provider_last_used`. -/
def touchProviderLastUsed (id : Uuid) : Program Store VaultError Unit :=
  editRecord draws id none (Records.touchProviderLastUsed draws.usedAt)

/-- Write a grant, the one at an index of those that an operation writes. -/
def writeGrant (index : ℕ) (grant : TtlGrantPlaintext) : Program Store VaultError Unit :=
  atomicWrite (draws.faults.grant index) fun store => store.withGrant grant.id (some grant)

/-- When a grant expires that is made now. -/
def expiresAt (ttlSeconds : Int) : OffsetDateTime :=
  draws.now + Duration.seconds (max ttlSeconds 1)

/-- `Vault::create_secret_field_grant`, with the secret revealed. -/
def grantRevealed (entryId : Uuid) (field purpose : String) (ttlSeconds : Int)
    (origin : Option String) (secret : String) : Program Store VaultError TtlGrantSummary := do
  let store ← Program.read
  let record ← Program.ofExcept (store.providerRecord draws.faults.readAgain entryId)
  writeGrant draws 0
    { id := draws.grantId 0
      purpose
      entryId := some entryId
      fieldId := field
      origin
      secret
      createdAt := draws.now
      expiresAt := expiresAt draws ttlSeconds }
  audit draws.faults.grantEvent "grant.create" (some entryId) (some purpose)
  return {
    id := draws.grantId 0
    purpose
    entryId := some entryId
    secretId := (record.entry.secretRefs.find? fun item =>
      item.fingerprint = fingerprint secret).map SecretRef.id
    origin
    expiresAt := expiresAt draws ttlSeconds }

/-- `Vault::create_secret_field_grant`. -/
def createSecretFieldGrant (entryId : Uuid) (field purpose : String) (ttlSeconds : Int)
    (origin : Option String) : Program Store VaultError TtlGrantSummary := do
  let secret ← revealSelectedSecret draws entryId field false
  grantRevealed fingerprint draws entryId field purpose ttlSeconds origin secret

/-- The loop of `Vault::create_secret_grants_for_entry` over the keys from an index on. -/
def writeGrants (entryId : Uuid) (purpose : String) (ttlSeconds : Int) (origin : Option String) :
    ℕ → List (String × String) → Program Store VaultError (List TtlGrantSummary)
  | _, [] => return []
  | index, target :: targets => do
    writeGrant draws index
      { id := draws.grantId index
        purpose
        entryId := some entryId
        fieldId := target.1
        origin
        secret := target.2
        createdAt := draws.now
        expiresAt := expiresAt draws ttlSeconds }
    let summaries ← writeGrants entryId purpose ttlSeconds origin (index + 1) targets
    return {
      id := draws.grantId index
      purpose
      entryId := some entryId
      secretId := some target.1
      origin
      expiresAt := expiresAt draws ttlSeconds } :: summaries

/-- The keys of a record, at most as many as a limit, with their secrets. -/
def grantTargets (record : ProviderRecordPlaintext) (limit : ℕ) : List (String × String) :=
  (record.entry.secretRefs.take (max limit 1)).filterMap fun secret =>
    record.secrets[secret.id]?.map fun value => (secret.id, value)

/-- `Vault::create_secret_grants_for_entry`. -/
def createSecretGrantsForEntry (entryId : Uuid) (purpose : String) (ttlSeconds : Int)
    (origin : Option String) (limit : ℕ) : Program Store VaultError (List TtlGrantSummary) := do
  let store ← Program.read
  let record ← Program.ofExcept (store.providerRecord draws.faults.read entryId)
  if grantTargets record limit = [] then
    return []
  else
    let summaries ← writeGrants draws entryId purpose ttlSeconds origin 0
      (grantTargets record limit)
    writeProviderRecord draws.faults.record entryId (record.usedAt draws.now)
    audit draws.faults.recordEvent "grant.create" (some entryId) (some purpose)
    return summaries

/-- `Vault::expire_grant`. -/
def expireGrant (grantId : Uuid) : Program Store VaultError Unit := do
  let store ← Program.read
  Program.ofExcept (refuseIf (store.grants grantId).isNone .grantNotFound)
  Program.ofExcept (draws.faults.readAgain.elim (.ok ()) .error)
  atomicWrite (draws.faults.grant 0) fun store => store.withGrant grantId none
  audit draws.faults.grantEvent "grant.expire" none (some (uuidText grantId))

/-- Touch the entry of a grant, whatever comes of it. -/
def touchGranted : Option Uuid → Program Store VaultError Unit
  | some entryId => do
    let _ ← (touchProviderLastUsed draws entryId).attempt
  | none => pure ()

/-- `Vault::consume_secret_grant`. -/
def consumeSecretGrant (grantId : Uuid) : Program Store VaultError String := do
  let store ← Program.read
  let grant ← Program.ofExcept (store.readGrant draws.faults.readGrant grantId)
  if grant.expiresAt ≤ draws.now then
    expireGrant uuidText draws grantId
    Program.fail .grantExpired
  else
    touchGranted draws grant.entryId
    audit draws.faults.grantEvent "grant.consume" grant.entryId (some grant.purpose)
    return grant.secret

end Store

/-- One call of an operation. -/
inductive Operation
  | addProvider (input : ProviderEntryInput) (runtimeExtensions : Table String String)
  | addSecretWithMetadata (id : Uuid) (label secret : String) (metadata : SecretMetadataInput)
  | updateSecret (id : Uuid) (secretId label : String) (secret : Option String)
  | setSecretMetadata (id : Uuid) (labelOrId : String) (metadata : SecretMetadataInput)
  | removeSecret (id : Uuid) (labelOrId : String)
  | updateProvider (id : Uuid) (input : ProviderEntryUpdateInput)
  | updateProviderUsage (id : Uuid) (quota : Option QuotaInfo)
    (gateway : Option GatewayMetadata) (usageSource : Option String)
  | updateProviderSubscription (id : Uuid) (snapshot : Option Value)
  | migrateSubscriptionScope (id : Uuid)
    (expectedMarker expectedBundle identity marker bundle : String)
  | bindCliSubscription (id : Uuid) (provider identity marker extensionKey reference : String)
  | revealSecret (id : Uuid) (labelOrId : String) (exact : Bool)
  | revealProviderHeaders (id : Uuid)
  | createSecretFieldGrant (entryId : Uuid) (field purpose : String) (ttlSeconds : Int)
    (origin : Option String)
  | createSecretGrantsForEntry (entryId : Uuid) (purpose : String) (ttlSeconds : Int)
    (origin : Option String) (limit : ℕ)
  | consumeSecretGrant (grantId : Uuid)
  | expireGrant (grantId : Uuid)

/-- A program whose value is dropped. -/
def dropValue {α : Type} (program : Program Store VaultError α) : Program Store VaultError Unit := do
  let _ ← program

/-- The program that a call runs. -/
def Operation.program (fingerprint : String → String) (uuidText : Uuid → String) (draws : Draws) :
    Operation → Program Store VaultError Unit
  | addProvider input runtimeExtensions =>
    dropValue (Store.addProviderRecord fingerprint draws input runtimeExtensions)
  | addSecretWithMetadata id label secret metadata =>
    dropValue (Store.addSecretWithMetadata fingerprint draws id label secret metadata)
  | updateSecret id secretId label secret =>
    dropValue (Store.updateSecret fingerprint draws id secretId label secret)
  | setSecretMetadata id labelOrId metadata =>
    dropValue (Store.setSecretMetadata draws id labelOrId metadata)
  | removeSecret id labelOrId => dropValue (Store.removeSecret draws id labelOrId)
  | updateProvider id input => Store.updateProvider fingerprint draws id input
  | updateProviderUsage id quota gateway usageSource =>
    Store.updateProviderUsage draws id quota gateway usageSource
  | updateProviderSubscription id snapshot => Store.updateProviderSubscription draws id snapshot
  | migrateSubscriptionScope id expectedMarker expectedBundle identity marker bundle =>
    Store.migrateSubscriptionScope fingerprint draws id expectedMarker expectedBundle identity
      marker bundle
  | bindCliSubscription id provider identity marker extensionKey reference =>
    Store.bindCliSubscription fingerprint draws id provider identity marker extensionKey reference
  | revealSecret id labelOrId exact =>
    dropValue (Store.revealSelectedSecret draws id labelOrId exact)
  | revealProviderHeaders id => dropValue (Store.revealProviderHeaders draws id)
  | createSecretFieldGrant entryId field purpose ttlSeconds origin =>
    dropValue (Store.createSecretFieldGrant fingerprint draws entryId field purpose ttlSeconds
      origin)
  | createSecretGrantsForEntry entryId purpose ttlSeconds origin limit =>
    dropValue (Store.createSecretGrantsForEntry draws entryId purpose ttlSeconds origin limit)
  | consumeSecretGrant grantId => dropValue (Store.consumeSecretGrant uuidText draws grantId)
  | expireGrant grantId => Store.expireGrant uuidText draws grantId

end Aipass.Records
