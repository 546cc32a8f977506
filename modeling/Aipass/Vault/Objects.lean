import Aipass.Vault.Apply

/-!
# Operations on single objects

The operations of an unlocked vault that write one object at a time: provider records, devices,
grants, OAuth accounts and the audit event that follows each. A live object is written by
`write_envelope` under a new Lamport time; a deleted one is rewritten in place as a tombstone.
`expire_grant` has its own rewrite, which keeps the payload. Where an operation writes several
files, it takes the draws of each.
-/
namespace Aipass

/-- What one call of `write_envelope` draws from the clock and the generator. -/
structure ObjectDraw where
  now : OffsetDateTime
  envelope : EnvelopeDraw

variable (P : Platform)

/-- `Vault::record_path` and `Vault::oauth_record_path`. -/
def recordPath (id : Uuid) : SyncPath := ⟨.objects, P.uuidText id⟩

/-- `Vault::grant_path`. -/
def grantPath (id : Uuid) : SyncPath := ⟨.grants, P.uuidText id⟩

/-- `Vault::device_path`. -/
def devicePath (id : Uuid) : SyncPath := ⟨.devices, P.uuidText id⟩

/-- The path of an audit event. -/
def auditPath (id : Uuid) : SyncPath := ⟨.audit, P.uuidText id⟩

/-- `encrypted_paths` of the objects directory. -/
def objectPaths (files : Table SyncPath Bytes) : List SyncPath :=
  files.keys.filter fun path => path.dir = .objects

/-- `read_json` of an envelope. -/
def Vault.readEnvelope (vault : Vault) (path : SyncPath) : Except VaultError ObjectEnvelope := do
  let bytes ← okOr .io vault.disk.files[path]?
  okOr .json (P.envelope.fromSlice bytes)

/-- The Lamport time of the envelope at a path, or zero. -/
def Vault.lamportAt (vault : Vault) (path : SyncPath) : UInt64 :=
  match vault.readEnvelope P path with
  | .ok envelope => envelope.lamport
  | .error _ => 0

/-- The next Lamport time: above the clock, the envelope replaced and every known object. -/
def Vault.nextLamport (vault : Vault) (now : OffsetDateTime) (path : SyncPath) : UInt64 :=
  let wallClock := UInt64.ofNat (max now 0).toNat
  let known := ((objectPaths vault.disk.files).map (vault.lamportAt P)).foldl max 0
  saturatingAdd (max (max wallClock (vault.lamportAt P path)) known) 1

/-- `Vault::build_envelope`. -/
def Vault.buildEnvelope (vault : Vault) (draw : ObjectDraw) (path : SyncPath) (objectId : Uuid)
    (objectType : String) (schemaVersion : UInt16) (plaintext : Bytes) : ObjectEnvelope :=
  encryptEnvelope P draw.envelope
    { format := "aipass-object"
      version := 1
      vaultId := vault.session.header.vaultId
      objectId
      objectType
      schemaVersion
      cryptoVersion := 1
      deviceId := vault.session.deviceId
      lamport := vault.nextLamport P draw.now path
      updatedAt := draw.now
      wrappedDek := none
      payload := none
      tombstone := false } plaintext vault.session.epochKey

/-- `Vault::write_envelope`. -/
def writeEnvelope (draw : ObjectDraw) (path : SyncPath) (objectId : Uuid) (objectType : String)
    (schemaVersion : UInt16) (plaintext : Bytes) : Program Vault VaultError Unit := do
  let vault ← Program.read
  let envelope := vault.buildEnvelope P draw path objectId objectType schemaVersion plaintext
  writeFile path (P.envelope.toVecPretty envelope)

/-- `write_envelope` installs one new envelope. -/
theorem wp_writeEnvelope {draw : ObjectDraw} {path : SyncPath} {objectId : Uuid}
    {objectType : String} {schemaVersion : UInt16} {plaintext : Bytes} {mid : Vault → Prop}
    {err : VaultError → Vault → Prop} {ok : Unit → Vault → Prop} {vault : Vault} :
    (writeEnvelope P draw path objectId objectType schemaVersion plaintext).wp mid err ok vault ↔
      let left := vault.withFiles (vault.disk.files.insert path (P.envelope.toVecPretty
        (vault.buildEnvelope P draw path objectId objectType schemaVersion plaintext)))
      mid left ∧ ok () left := by
  simp [writeEnvelope, writeFile]

/-- `looks_like_secret`. -/
def looksLikeSecret (value : String) : Bool :=
  value.contains "sk-" || value.contains "sk-ant-" || value.contains "AIza" ||
    value.toLower.contains "api_key" || value.toLower.contains "authorization"

/-- `redact_detail`. -/
def redactDetail (value : String) : String :=
  if value.utf8ByteSize ≤ 64 ∧ looksLikeSecret value = false then value else "[redacted]"

/-- What `Vault::audit` draws: the event's name, its time and its envelope. -/
structure AuditDraw where
  id : Uuid
  occurredAt : OffsetDateTime
  object : ObjectDraw

/-- `Vault::audit`, without the retention pass, which may only remove audit files. -/
def audit (draw : AuditDraw) (action : String) (recordId : Option Uuid)
    (detail : Option String) : Program Vault VaultError Unit :=
  let event : AuditEvent :=
    { id := draw.id
      occurredAt := draw.occurredAt
      action
      recordId
      detail := detail.map redactDetail }
  writeEnvelope P draw.object (auditPath P event.id) event.id "audit_event" 1
    (P.auditEvent.toVec event)

/-- An audit event changes nothing outside `audit/`. -/
theorem wp_audit {draw : AuditDraw} {action : String} {recordId : Option Uuid}
    {detail : Option String} {mid : Vault → Prop} {err : VaultError → Vault → Prop}
    {ok : Unit → Vault → Prop} {vault : Vault}
    (after : ∀ files : Table SyncPath Bytes,
      (∀ path : SyncPath, path.dir ≠ .audit → files[path]? = vault.disk.files[path]?) →
        mid (vault.withFiles files) ∧ ok () (vault.withFiles files)) :
    (audit P draw action recordId detail).wp mid err ok vault := by
  refine (wp_writeEnvelope P).mpr (after _ fun path outside => ?_)
  have elsewhere : auditPath P draw.id ≠ path := by
    rintro rfl
    exact outside rfl
  simp [elsewhere]

/-- `Vault::decrypt_envelope_path`, up to the type of the plaintext. -/
def Vault.decryptEnvelopePath {α : Type} (serde : Serde α) (vault : Vault) (path : SyncPath) :
    Except VaultError α := do
  let envelope ← vault.readEnvelope P path
  let bytes ← decryptEnvelopeWithEpoch P envelope vault.session.epochKey
  okOr .json (serde.fromSlice bytes)

/-- `Vault::write_provider_record`; the plaintext is the serialized record. -/
def writeProviderRecord (draw : ObjectDraw) (id : Uuid) (plaintext : Bytes) :
    Program Vault VaultError Unit :=
  writeEnvelope P draw (recordPath P id) id "provider_entry" 1 plaintext

/-- `Vault::decrypt_provider_path`, returning the serialized record. -/
def Vault.decryptProviderPath (vault : Vault) (path : SyncPath) : Except VaultError Bytes := do
  if vault.disk.files[path]?.isNone then
    throw .recordNotFound
  let envelope ← vault.readEnvelope P path
  if envelope.tombstone ∨ envelope.objectType ≠ "provider_entry" then
    throw .recordNotFound
  decryptEnvelopeWithEpoch P envelope vault.session.epochKey

/-- `Vault::touch_provider_last_used`. How a serialized record is updated is left to `touch`,
which fails on bytes that are none. -/
def touchProviderLastUsed (draw : ObjectDraw) (touch : Bytes → Option Bytes) (id : Uuid) :
    Program Vault VaultError Unit := do
  let vault ← Program.read
  let record ← Program.ofExcept (vault.decryptProviderPath P (recordPath P id))
  let plaintext ← Program.ofExcept (okOr .json (touch record))
  writeProviderRecord P draw id plaintext

/-- `Vault::write_device`. -/
def writeDevice (draw : ObjectDraw) (device : DeviceRecord) : Program Vault VaultError Unit :=
  writeEnvelope P draw (devicePath P device.id) device.id "device_record" 1
    (P.deviceRecord.toVec device)

/-- The writes of `Vault::create_secret_field_grant`: a grant and its audit event. -/
def createSecretGrant (draw : ObjectDraw) (event : AuditDraw) (grant : TtlGrantPlaintext) :
    Program Vault VaultError Unit := do
  writeEnvelope P draw (grantPath P grant.id) grant.id "ttl_grant" 1 (P.ttlGrant.toVec grant)
  audit P event "grant.create" grant.entryId (some grant.purpose)

/-- `Vault::expire_grant`: the wrapped key goes, the payload stays. -/
def expireGrant (now : OffsetDateTime) (event : AuditDraw) (grantId : Uuid) :
    Program Vault VaultError Unit := do
  let path := grantPath P grantId
  let vault ← Program.read
  if vault.disk.files[path]?.isNone then
    Program.fail .grantNotFound
  let envelope ← Program.ofExcept (vault.readEnvelope P path)
  writeFile path (P.envelope.toVecPretty { envelope with
    wrappedDek := none
    tombstone := true
    updatedAt := now
    lamport := saturatingAdd envelope.lamport 1 })
  audit P event "grant.expire" none (some (P.uuidText grantId))

/-- The grant that `Vault::consume_secret_grant` finds. -/
def Vault.readGrant (vault : Vault) (grantId : Uuid) : Except VaultError TtlGrantPlaintext := do
  let path := grantPath P grantId
  if vault.disk.files[path]?.isNone then
    throw .grantNotFound
  match vault.decryptEnvelopePath P P.ttlGrant path with
  | .ok grant => return grant
  | .error (.crypto _) => throw .grantExpired
  | .error error => throw error

/-- `Vault::consume_secret_grant`. Touching the record that the grant belongs to may fail. -/
def consumeSecretGrant (now : OffsetDateTime) (event : AuditDraw) (draw : ObjectDraw)
    (touch : Bytes → Option Bytes) (grantId : Uuid) : Program Vault VaultError String := do
  let vault ← Program.read
  let grant ← Program.ofExcept (vault.readGrant P grantId)
  if grant.expiresAt ≤ now then
    expireGrant P now event grantId
    Program.fail .grantExpired
  match grant.entryId with
  | some entryId =>
    let _ ← (touchProviderLastUsed P draw touch entryId).attempt
  | none => pure ()
  audit P event "grant.consume" grant.entryId (some grant.purpose)
  return grant.secret

/-- The rewrite that `delete_provider_permanently` and `remove_oauth_account` share: a tombstone
in place of a live object of the expected type. -/
def buryObject (now : OffsetDateTime) (event : AuditDraw) (objectType action : String)
    (id : Uuid) : Program Vault VaultError Unit := do
  let path := recordPath P id
  let vault ← Program.read
  if vault.disk.files[path]?.isNone then
    Program.fail .recordNotFound
  let envelope ← Program.ofExcept (vault.readEnvelope P path)
  if envelope.objectId ≠ id ∨ envelope.objectType ≠ objectType then
    Program.fail .recordNotFound
  writeFile path (P.envelope.toVecPretty { envelope with
    wrappedDek := none
    payload := none
    tombstone := true
    updatedAt := now
    lamport := saturatingAdd envelope.lamport 1 })
  audit P event action (some id) none

/-- `Vault::delete_provider_permanently`. -/
def deleteProviderPermanently (now : OffsetDateTime) (event : AuditDraw) (id : Uuid) :
    Program Vault VaultError Unit :=
  buryObject P now event "provider_entry" "provider.delete" id

/-- `Vault::remove_oauth_account`. -/
def removeOAuthAccount (now : OffsetDateTime) (event : AuditDraw) (id : Uuid) :
    Program Vault VaultError Unit :=
  buryObject P now event "oauth_account" "oauth.delete" id

/-- `Vault::write_oauth_record`. -/
def writeOAuthRecord (draw : ObjectDraw) (account : ManagedOAuthAccount) :
    Program Vault VaultError Unit :=
  writeEnvelope P draw (recordPath P account.id) account.id "oauth_account" 1
    (P.oauthAccount.toVec account)

/-- `Vault::decrypt_oauth_path`. -/
def Vault.decryptOAuthPath (vault : Vault) (path : SyncPath) :
    Except VaultError ManagedOAuthAccount := do
  if vault.disk.files[path]?.isNone then
    throw .recordNotFound
  let envelope ← vault.readEnvelope P path
  if envelope.tombstone ∨ envelope.objectType ≠ "oauth_account" then
    throw .recordNotFound
  vault.decryptEnvelopePath P P.oauthAccount path

/-- The file at a path is an envelope of a live OAuth account. -/
def Vault.isOAuthRecord (vault : Vault) (path : SyncPath) : Bool :=
  match vault.readEnvelope P path with
  | .ok envelope => !envelope.tombstone && envelope.objectType = "oauth_account"
  | .error _ => false

/-- `Vault::oauth_record_paths`. -/
def Vault.oauthRecordPaths (vault : Vault) : List SyncPath :=
  (objectPaths vault.disk.files).filter (vault.isOAuthRecord P)

/-- One account of `clear_default_oauth_for`. -/
def clearDefaultAt (draws : SyncPath → ObjectDraw) (provider : OAuthProvider) (path : SyncPath) :
    Program Vault VaultError PUnit := do
  let vault ← Program.read
  let account ← Program.ofExcept (vault.decryptOAuthPath P path)
  if account.provider = provider ∧ account.isDefault then
    writeOAuthRecord P (draws path) { account with isDefault := false }

/-- `Vault::clear_default_oauth_for`. -/
def clearDefaultOAuthFor (draws : SyncPath → ObjectDraw) (provider : OAuthProvider) :
    Program Vault VaultError Unit := do
  let vault ← Program.read
  (vault.oauthRecordPaths P).forM (clearDefaultAt P draws provider)

/-- What an operation on an OAuth account draws: the accounts cleared, the account written and
the audit event. -/
structure OAuthDraws where
  cleared : SyncPath → ObjectDraw
  written : ObjectDraw
  event : AuditDraw

/-- `Vault::add_oauth_account`. -/
def addOAuthAccount (draws : OAuthDraws) (account : ManagedOAuthAccount) :
    Program Vault VaultError Unit := do
  if account.isDefault then
    clearDefaultOAuthFor P draws.cleared account.provider
  writeOAuthRecord P draws.written account
  audit P draws.event "oauth.create" (some account.id) none

/-- `Vault::update_oauth_account`. -/
def updateOAuthAccount (draws : OAuthDraws) (account : ManagedOAuthAccount) :
    Program Vault VaultError Unit := do
  let vault ← Program.read
  let _ ← Program.ofExcept (vault.decryptOAuthPath P (recordPath P account.id))
  if account.isDefault then
    clearDefaultOAuthFor P draws.cleared account.provider
  writeOAuthRecord P draws.written account
  audit P draws.event "oauth.update" (some account.id) none

/-- `Vault::set_default_oauth_account`. -/
def setDefaultOAuthAccount (draws : OAuthDraws) (provider : OAuthProvider) (id : Uuid) :
    Program Vault VaultError Unit := do
  let vault ← Program.read
  let account ← Program.ofExcept (vault.decryptOAuthPath P (recordPath P id))
  if account.provider ≠ provider then
    Program.fail .recordNotFound
  clearDefaultOAuthFor P draws.cleared provider
  writeOAuthRecord P draws.written { account with isDefault := true }
  audit P draws.event "oauth.set_default" (some id) none

end Aipass
