import Aipass.Vault.Objects

/-!
# The two validators of an object file

The vault and the sync crate each check an object file before they let it through: the vault
reads it as an envelope and opens it, the sync crate reads it as untyped JSON. `WellFormed`
describes the files that the vault's own operations leave, up to one flag: whether a tombstone
may still carry a payload. With the flag off both validators accept such a file, and with it on
the sync crate's does.
-/
namespace Aipass

variable (P : Platform)

/-- `Vault::validate_sync_object_bytes`. -/
def Session.validateSyncObjectBytes (session : Session) (bytes : Bytes) :
    Except VaultError Unit := do
  let envelope ← okOr .json (P.envelope.fromSlice bytes)
  if envelope.format ≠ "aipass-object" ∨ envelope.version ≠ 1 ∨
      envelope.vaultId ≠ session.header.vaultId ∨ envelope.schemaVersion = 0 ∨
      envelope.cryptoVersion = 0 then
    throw .unsupportedVersion
  if envelope.tombstone then
    if envelope.payload.isSome ∨ envelope.wrappedDek.isSome then
      throw .unlockFailed
    return ()
  if envelope.payload.isNone ∨ envelope.wrappedDek.isNone then
    throw .unlockFailed
  let _ ← decryptEnvelopeWithEpoch P envelope session.epochKey

namespace Json

/-- `Value::as_object`. -/
def asObject? : Json → Option (List (String × Json))
  | .object fields => some fields
  | _ => none

/-- `Value::as_str`. -/
def asStr? : Json → Option String
  | .string text => some text
  | _ => none

/-- `Value::as_u64`. -/
def asU64? : Json → Option ℕ
  | .number value => if value < 2 ^ 64 then some value else none
  | _ => none

/-- `Value::as_bool`. -/
def asBool? : Json → Option Bool
  | .bool value => some value
  | _ => none

/-- `Value::is_null`. -/
def isNull : Json → Bool
  | .null => true
  | _ => false

/-- `Value::get` of a field of an object. -/
def field? (fields : List (String × Json)) (name : String) : Option Json := fields.lookup name

end Json

/-- A field that holds an identifier. -/
def checkUuidField (object : List (String × Json)) (field : String) : Except String Unit := do
  let text ← okOr s!"sync object missing {field}" ((Json.field? object field).bind Json.asStr?)
  let _ ← okOr s!"invalid sync object {field}" (P.parseUuid text)

/-- A field that holds text. -/
def checkTextField (object : List (String × Json)) (field : String) : Except String Unit :=
  if ((Json.field? object field).bind Json.asStr?).isNone then
    throw s!"sync object missing {field}"
  else pure ()

/-- A field that is present and not `null`. -/
def checkPresentField (object : List (String × Json)) (field : String) : Except String Unit :=
  if (Json.field? object field).all Json.isNull then throw s!"sync object missing {field}"
  else pure ()

/-- `validate_sync_object_bytes` of the sync crate, with its error messages. -/
def validateSyncObjectBytes (bytes : Bytes) : Except String Unit := do
  let value ← okOr "sync object is not valid JSON" (P.value bytes)
  let object ← okOr "sync object must be a JSON object" value.asObject?
  if (Json.field? object "format").bind Json.asStr? ≠ some "aipass-object" ∨
      (Json.field? object "version").bind Json.asU64? ≠ some 1 then
    throw "unsupported sync object format"
  ["vaultId", "objectId", "deviceId"].forM (checkUuidField P object)
  ["objectType", "updatedAt"].forM (checkTextField object)
  if ((Json.field? object "lamport").bind Json.asU64?).isNone then
    throw "sync object missing lamport"
  let _ ← okOr "invalid sync object updatedAt"
    (P.parseRfc3339 (((Json.field? object "updatedAt").bind Json.asStr?).getD ""))
  if ((Json.field? object "tombstone").bind Json.asBool?).getD false = false then
    ["wrappedDek", "payload"].forM (checkPresentField object)

/-- The fields of a serialized envelope. -/
def envelopeFields (envelope : ObjectEnvelope) : List (String × Json) :=
  ((envelopeJson P.uuidText P.rfc3339 envelope).asObject?).getD []

/-- The text fields of a serialized envelope. -/
theorem text_of_envelopeFields (envelope : ObjectEnvelope) (field text : String)
    (spelled : (field, text) ∈ [("format", envelope.format),
      ("vaultId", P.uuidText envelope.vaultId), ("objectId", P.uuidText envelope.objectId),
      ("objectType", envelope.objectType), ("deviceId", P.uuidText envelope.deviceId),
      ("updatedAt", P.rfc3339 envelope.updatedAt)]) :
    (Json.field? (envelopeFields P envelope) field).bind Json.asStr? = some text := by
  simp only [List.mem_cons, Prod.mk.injEq, List.not_mem_nil, or_false] at spelled
  rcases spelled with ⟨rfl, rfl⟩ | ⟨rfl, rfl⟩ | ⟨rfl, rfl⟩ | ⟨rfl, rfl⟩ | ⟨rfl, rfl⟩ | ⟨rfl, rfl⟩
  all_goals rfl

/-- A file that the vault's own operations leave: a serialized envelope of the vault, named by
its object, that opens under the epoch key of the vault or is a tombstone. A tombstone carries
no wrapped key, and no payload either unless `erased` allows it. -/
structure WellFormed (erased : Prop) (vaultId : Uuid) (epoch : VaultEpochKey) (path : SyncPath)
    (bytes : Bytes) (envelope : ObjectEnvelope) : Prop where
  /-- The file is the serialized envelope. -/
  written : bytes = P.envelope.toVec envelope ∨ bytes = P.envelope.toVecPretty envelope
  /-- The envelope is an object of the vault. -/
  vaultId : envelope.vaultId = vaultId
  /-- The format is the only one. -/
  format : envelope.format = "aipass-object"
  /-- The format version is the only one. -/
  version : envelope.version = 1
  /-- The schema has a version. -/
  schemaVersion : envelope.schemaVersion ≠ 0
  /-- The encryption has a version. -/
  cryptoVersion : envelope.cryptoVersion ≠ 0
  /-- The file is named by the object. -/
  named : path.stem = P.uuidText envelope.objectId
  /-- A live object opens. -/
  live : envelope.tombstone = false →
    ∃ plaintext, decryptEnvelopeWithEpoch P envelope epoch = .ok plaintext
  /-- A tombstone has no wrapped key. -/
  buried : envelope.tombstone = true → envelope.wrappedDek = none
  /-- A tombstone has no payload, unless it was left there. -/
  emptied : envelope.tombstone = true → envelope.payload = none ∨ erased

variable {P} {erased : Prop} {vaultId : Uuid} {epoch : VaultEpochKey} {path : SyncPath}
  {bytes : Bytes} {envelope : ObjectEnvelope}

/-- A well-formed file parses as its envelope. -/
theorem WellFormed.parsed (wellFormed : WellFormed P erased vaultId epoch path bytes envelope) :
    P.envelope.fromSlice bytes = some envelope := by
  rcases wellFormed.written with rfl | rfl <;> simp

/-- A well-formed file opens as a file of a snapshot. -/
theorem WellFormed.fileOpens
    (wellFormed : WellFormed P erased vaultId epoch path bytes envelope) :
    FileOpens P vaultId epoch path bytes :=
  ⟨envelope, wellFormed.parsed, wellFormed.vaultId, wellFormed.format, wellFormed.version,
    wellFormed.named, wellFormed.live⟩

/-- The vault accepts a well-formed file whose tombstones are empty. -/
theorem WellFormed.vault_accepts {session : Session}
    (wellFormed : WellFormed P False session.header.vaultId session.epochKey path bytes
      envelope) : session.validateSyncObjectBytes P bytes = .ok () := by
  have fields : ¬ (envelope.format ≠ "aipass-object" ∨ envelope.version ≠ 1 ∨
      envelope.vaultId ≠ session.header.vaultId ∨ envelope.schemaVersion = 0 ∨
      envelope.cryptoVersion = 0) := by
    simp [wellFormed.format, wellFormed.version, wellFormed.vaultId, wellFormed.schemaVersion,
      wellFormed.cryptoVersion]
  simp only [Session.validateSyncObjectBytes, wellFormed.parsed, okOr_some, ok_bind]
  rw [if_neg fields]
  cases tombstone : envelope.tombstone with
  | true =>
    have payload : envelope.payload = none :=
      (wellFormed.emptied tombstone).resolve_right id
    simp [wellFormed.buried tombstone, payload, pure, Except.pure]
  | false =>
    obtain ⟨plaintext, opens⟩ := wellFormed.live tombstone
    obtain ⟨-, hasDek, hasPayload⟩ := live_of_decrypt P opens
    rw [Option.isSome_iff_exists] at hasDek hasPayload
    obtain ⟨wrapped, hasDek⟩ := hasDek
    obtain ⟨payload, hasPayload⟩ := hasPayload
    simp [hasDek, hasPayload, opens, pure, Except.pure]

/-- The sync crate accepts every well-formed file. -/
theorem WellFormed.sync_accepts
    (wellFormed : WellFormed P erased vaultId epoch path bytes envelope) :
    validateSyncObjectBytes P bytes = .ok () := by
  have value : P.value bytes = some (envelopeJson P.uuidText P.rfc3339 envelope) := by
    rcases wellFormed.written with rfl | rfl <;> simp
  have fields : (envelopeJson P.uuidText P.rfc3339 envelope).asObject? =
      some (envelopeFields P envelope) := rfl
  have text := text_of_envelopeFields P envelope
  have format : (Json.field? (envelopeFields P envelope) "format").bind Json.asStr? =
      some "aipass-object" := text _ _ (by simp [wellFormed.format])
  have clock : (Json.field? (envelopeFields P envelope) "updatedAt").bind Json.asStr? =
      some (P.rfc3339 envelope.updatedAt) := text _ _ (by simp)
  have version : (Json.field? (envelopeFields P envelope) "version").bind Json.asU64? =
      some 1 := by
    have number : Json.field? (envelopeFields P envelope) "version" =
        some (.number envelope.version.toNat) := rfl
    simp [number, Json.asU64?, wellFormed.version]
  have time : (Json.field? (envelopeFields P envelope) "lamport").bind Json.asU64? =
      some envelope.lamport.toNat := by
    have number : Json.field? (envelopeFields P envelope) "lamport" =
        some (.number envelope.lamport.toNat) := rfl
    have bound : envelope.lamport.toNat < 2 ^ 64 := envelope.lamport.toNat_lt
    simp only [number, Option.bind_some, Json.asU64?, if_pos bound]
  have flag : (Json.field? (envelopeFields P envelope) "tombstone").bind Json.asBool? =
      some envelope.tombstone := rfl
  have ids : ["vaultId", "objectId", "deviceId"].forM
      (checkUuidField P (envelopeFields P envelope)) = .ok () := by
    rw [forM_eq_ok]
    have vault := text "vaultId" (P.uuidText envelope.vaultId) (by simp)
    have object := text "objectId" (P.uuidText envelope.objectId) (by simp)
    have device := text "deviceId" (P.uuidText envelope.deviceId) (by simp)
    simp [checkUuidField, vault, object, device, pure, Except.pure]
  have texts : ["objectType", "updatedAt"].forM
      (checkTextField (envelopeFields P envelope)) = .ok () := by
    rw [forM_eq_ok]
    have kind := text "objectType" envelope.objectType (by simp)
    simp only [checkTextField, List.forall_mem_cons, kind, clock, Option.isNone_some]
    simp [pure, Except.pure]
  have present : envelope.tombstone = false → ["wrappedDek", "payload"].forM
      (checkPresentField (envelopeFields P envelope)) = .ok () := by
    intro alive
    obtain ⟨plaintext, opens⟩ := wellFormed.live alive
    obtain ⟨-, hasDek, hasPayload⟩ := live_of_decrypt P opens
    rw [Option.isSome_iff_exists] at hasDek hasPayload
    obtain ⟨wrapped, hasDek⟩ := hasDek
    obtain ⟨payload, hasPayload⟩ := hasPayload
    have dekField : Json.field? (envelopeFields P envelope) "wrappedDek" =
        some (envelope.wrappedDek.elim .null (wrappedDekJson P.uuidText)) := rfl
    have payloadField : Json.field? (envelopeFields P envelope) "payload" =
        some (envelope.payload.elim .null ciphertextJson) := rfl
    rw [forM_eq_ok]
    simp [checkPresentField, dekField, payloadField, hasDek, hasPayload, wrappedDekJson,
      ciphertextJson, Json.isNull, pure, Except.pure]
  simp only [validateSyncObjectBytes, value, fields, okOr_some, ok_bind, format, version, ids,
    texts, clock, time, flag, Option.getD_some, P.parseRfc3339_rfc3339]
  cases alive : envelope.tombstone with
  | true => simp [pure, Except.pure]
  | false => simp [present alive]

/-- A live envelope of the vault, encrypted under an epoch and named by its object, is well
formed however it is serialized. -/
theorem wellFormed_encrypt {draw : EnvelopeDraw} {plaintext : Bytes}
    (written : bytes = P.envelope.toVec (encryptEnvelope P draw envelope plaintext epoch) ∨
      bytes = P.envelope.toVecPretty (encryptEnvelope P draw envelope plaintext epoch))
    (ofVault : envelope.vaultId = vaultId) (format : envelope.format = "aipass-object")
    (version : envelope.version = 1) (schemaVersion : envelope.schemaVersion ≠ 0)
    (cryptoVersion : envelope.cryptoVersion ≠ 0)
    (named : path.stem = P.uuidText envelope.objectId) (alive : envelope.tombstone = false) :
    WellFormed P erased vaultId epoch path bytes
      (encryptEnvelope P draw envelope plaintext epoch) where
  written := written
  vaultId := ofVault
  format := format
  version := version
  schemaVersion := schemaVersion
  cryptoVersion := cryptoVersion
  named := named
  live _ := ⟨plaintext, decryptEnvelopeWithEpoch_encryptEnvelope P draw envelope plaintext epoch
    alive⟩
  buried tombstone := absurd alive (by
    have same : envelope.tombstone = true := tombstone
    simp [same])
  emptied tombstone := absurd alive (by
    have same : envelope.tombstone = true := tombstone
    simp [same])

/-- A well-formed file re-encrypted under another epoch is well formed there. -/
theorem WellFormed.reencrypt {next : VaultEpochKey} {draw : EnvelopeDraw} {plaintext : Bytes}
    {deviceId : Uuid} {updatedAt : OffsetDateTime} {lamport : UInt64} {bytes' : Bytes}
    (wellFormed : WellFormed P erased vaultId epoch path bytes envelope)
    (alive : envelope.tombstone = false)
    (written : bytes' = P.envelope.toVec (encryptEnvelope P draw
        { envelope with deviceId, updatedAt, lamport } plaintext next) ∨
      bytes' = P.envelope.toVecPretty (encryptEnvelope P draw
        { envelope with deviceId, updatedAt, lamport } plaintext next)) :
    WellFormed P erased vaultId next path bytes'
      (encryptEnvelope P draw { envelope with deviceId, updatedAt, lamport } plaintext next) :=
  wellFormed_encrypt written wellFormed.vaultId wellFormed.format wellFormed.version
    wellFormed.schemaVersion wellFormed.cryptoVersion wellFormed.named alive

/-- A well-formed file turned into a tombstone is well formed, if the payload goes too or may
stay. -/
theorem WellFormed.bury {payload : Option Ciphertext} {updatedAt : OffsetDateTime}
    {lamport : UInt64} (wellFormed : WellFormed P erased vaultId epoch path bytes envelope)
    (emptied : payload = none ∨ erased) :
    WellFormed P erased vaultId epoch path
      (P.envelope.toVecPretty { envelope with
        wrappedDek := none, payload, tombstone := true, updatedAt, lamport })
      { envelope with wrappedDek := none, payload, tombstone := true, updatedAt, lamport } where
  written := Or.inr rfl
  vaultId := wellFormed.vaultId
  format := wellFormed.format
  version := wellFormed.version
  schemaVersion := wellFormed.schemaVersion
  cryptoVersion := wellFormed.cryptoVersion
  named := wellFormed.named
  live alive := absurd alive (by simp)
  buried _ := rfl
  emptied _ := emptied

end Aipass
