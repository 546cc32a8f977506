import Aipass.Vault.Records

/-!
# The crates the vault is built on

The vault calls a JSON library, a base64 codec, an authenticated cipher, a hash and the text
forms of identifiers and clocks. A `Platform` supplies them together with the documented
behaviour that the vault relies on, each law a field beside the function it is about. The
cipher and the hash are ideal: a ciphertext opens exactly under the key, nonce and associated
data that sealed it, and no two inputs share a digest. Clock readings are in UTC and in the
range of their text form, so serialization does not fail.
-/
namespace Aipass

/-- `serde_json` at one type. -/
structure Serde (α : Type) where
  /-- `serde_json::to_vec`. -/
  toVec : α → Bytes
  /-- `serde_json::to_vec_pretty`. -/
  toVecPretty : α → Bytes
  /-- `serde_json::from_slice`. -/
  fromSlice : Bytes → Option α
  /-- What is written is read back. -/
  fromSlice_toVec : ∀ value, fromSlice (toVec value) = some value
  /-- What is written with line breaks is read back. -/
  fromSlice_toVecPretty : ∀ value, fromSlice (toVecPretty value) = some value

attribute [simp] Serde.fromSlice_toVec Serde.fromSlice_toVecPretty

/-- Distinct values have distinct texts. -/
theorem Serde.toVec_injective {α : Type} (serde : Serde α) : Function.Injective serde.toVec :=
  fun left right same => Option.some.inj (by rw [← serde.fromSlice_toVec left, same,
    serde.fromSlice_toVec])

/-- `serde_json::Value`, with the numbers the envelope holds. -/
inductive Json where
  | null
  | bool (value : Bool)
  | number (value : ℕ)
  | string (value : String)
  | array (values : List Json)
  | object (fields : List (String × Json))

section EnvelopeJson

variable (uuidText : Uuid → String) (rfc3339 : OffsetDateTime → String)

/-- The serialized form of a `Ciphertext`. -/
def ciphertextJson (ciphertext : Ciphertext) : Json :=
  .object [("aead", .string ciphertext.aead), ("nonce_b64", .string ciphertext.nonceB64),
    ("ciphertext_b64", .string ciphertext.ciphertextB64)]

/-- The serialized form of a `WrappedDek`. -/
def wrappedDekJson (wrapped : WrappedDek) : Json :=
  .object [("epoch", .number wrapped.epoch.toNat), ("key_id", .string (uuidText wrapped.keyId)),
    ("nonce_b64", .string wrapped.nonceB64), ("ciphertext_b64", .string wrapped.ciphertextB64)]

/-- The serialized form of an `ObjectEnvelope`: its fields in camel case, absent ciphertexts as
`null`. -/
def envelopeJson (envelope : ObjectEnvelope) : Json :=
  .object
    [("format", .string envelope.format),
      ("version", .number envelope.version.toNat),
      ("vaultId", .string (uuidText envelope.vaultId)),
      ("objectId", .string (uuidText envelope.objectId)),
      ("objectType", .string envelope.objectType),
      ("schemaVersion", .number envelope.schemaVersion.toNat),
      ("cryptoVersion", .number envelope.cryptoVersion.toNat),
      ("deviceId", .string (uuidText envelope.deviceId)),
      ("lamport", .number envelope.lamport.toNat),
      ("updatedAt", .string (rfc3339 envelope.updatedAt)),
      ("wrappedDek", envelope.wrappedDek.elim .null (wrappedDekJson uuidText)),
      ("payload", envelope.payload.elim .null ciphertextJson),
      ("tombstone", .bool envelope.tombstone)]

end EnvelopeJson

/-- The crates outside the repository. -/
structure Platform where
  /-- The manifest. -/
  header : Serde VaultHeader
  /-- One object file. -/
  envelope : Serde ObjectEnvelope
  /-- The plaintext of a snapshot. -/
  exportPayload : Serde VaultExportPayload
  /-- One snapshot. -/
  snapshot : Serde VaultSyncSnapshot
  /-- The tuple a snapshot authenticates beside its payload. -/
  snapshotAad : Serde (String × UInt16 × List ParentText × OffsetDateTime × VaultHeader)
  /-- The tuple a revision hashes. -/
  revisionInput : Serde (VaultHeader × VaultExportPayload)
  /-- The plaintext of an audit envelope. -/
  auditEvent : Serde AuditEvent
  /-- The plaintext of a device envelope. -/
  deviceRecord : Serde DeviceRecord
  /-- The plaintext of an OAuth envelope. -/
  oauthAccount : Serde ManagedOAuthAccount
  /-- The plaintext of a grant envelope. -/
  ttlGrant : Serde TtlGrantPlaintext
  /-- `STANDARD_NO_PAD.encode`. -/
  encodeB64 : Bytes → String
  /-- `STANDARD_NO_PAD.decode`. -/
  decodeB64 : String → Option Bytes
  /-- An encoding decodes to its bytes. -/
  decodeB64_encodeB64 : ∀ bytes, decodeB64 (encodeB64 bytes) = some bytes
  /-- The engine refuses every text but the canonical one. -/
  encodeB64_of_decodeB64 : ∀ {text bytes}, decodeB64 text = some bytes → text = encodeB64 bytes
  /-- `Uuid::to_string`. -/
  uuidText : Uuid → String
  /-- `Uuid::parse_str`. -/
  parseUuid : String → Option Uuid
  /-- The text of an identifier is read back. -/
  parseUuid_uuidText : ∀ id, parseUuid (uuidText id) = some id
  /-- `time::serde::rfc3339`. -/
  rfc3339 : OffsetDateTime → String
  /-- `OffsetDateTime::parse` with `Rfc3339`. -/
  parseRfc3339 : String → Option OffsetDateTime
  /-- The text of a clock reading is read back. -/
  parseRfc3339_rfc3339 : ∀ clock, parseRfc3339 (rfc3339 clock) = some clock
  /-- `XChaCha20Poly1305::encrypt`. -/
  encrypt : Key → Nonce → Bytes → Bytes → Bytes
  /-- `XChaCha20Poly1305::decrypt`. -/
  decrypt : Key → Nonce → Bytes → Bytes → Option Bytes
  /-- What is sealed opens. -/
  decrypt_encrypt : ∀ key nonce aad plaintext,
    decrypt key nonce aad (encrypt key nonce aad plaintext) = some plaintext
  /-- Only what was sealed under the same key, nonce and associated data opens. -/
  encrypt_of_decrypt : ∀ {key nonce aad ciphertext plaintext},
    decrypt key nonce aad ciphertext = some plaintext → ciphertext = encrypt key nonce aad plaintext
  /-- A ciphertext determines what it was sealed from. -/
  encrypt_injective : ∀ {key nonce aad plaintext key' nonce' aad' plaintext'},
    encrypt key nonce aad plaintext = encrypt key' nonce' aad' plaintext' →
      key = key' ∧ nonce = nonce' ∧ aad = aad' ∧ plaintext = plaintext'
  /-- SHA-256. -/
  sha256 : Bytes → Digest
  /-- No two inputs share a digest. -/
  sha256_injective : Function.Injective sha256
  /-- `serde_json::from_slice::<Value>`. -/
  value : Bytes → Option Json
  /-- The text of an envelope reads as its serialized form. -/
  value_toVec : ∀ written,
    value (envelope.toVec written) = some (envelopeJson uuidText rfc3339 written)
  /-- Line breaks do not change what a text reads as. -/
  value_toVecPretty : ∀ written,
    value (envelope.toVecPretty written) = some (envelopeJson uuidText rfc3339 written)

attribute [simp] Platform.decodeB64_encodeB64 Platform.parseUuid_uuidText
  Platform.parseRfc3339_rfc3339 Platform.decrypt_encrypt Platform.value_toVec
  Platform.value_toVecPretty

/-- The UTF-8 bytes of a text. -/
def utf8 (text : String) : Bytes := text.toUTF8.data.toList

end Aipass
