import Aipass.Vault.Platform
import Mathlib.Data.Nat.Digits.Defs
import Mathlib.Logic.Equiv.List
import Mathlib.Tactic.DeriveEncodable

/-!
# A platform

One implementation of every crate that a `Platform` stands for, so that statements about all
platforms can be tried on concrete vaults. Every serialized type is countable: a value is
written as an opening brace and the base-256 digits of its number. Encryption writes the number
of everything it was given, so it hides nothing, but it satisfies the same laws.
-/
namespace Aipass.StandIn

instance encodableChar : Encodable Char := Encodable.ofLeftInverse Char.toNat Char.ofNat Char.ofNat_toNat

instance encodableString : Encodable String :=
  Encodable.ofLeftInverse String.toList String.ofList fun text => by simp

instance encodableUInt8 : Encodable UInt8 :=
  Encodable.ofLeftInverse UInt8.toNat UInt8.ofNat fun word => by simp

instance encodableUInt16 : Encodable UInt16 :=
  Encodable.ofLeftInverse UInt16.toNat UInt16.ofNat fun word => by simp

instance encodableUInt32 : Encodable UInt32 :=
  Encodable.ofLeftInverse UInt32.toNat UInt32.ofNat fun word => by simp

instance encodableUInt64 : Encodable UInt64 :=
  Encodable.ofLeftInverse UInt64.toNat UInt64.ofNat fun word => by simp

instance encodableUuid : Encodable Uuid :=
  Encodable.ofLeftInverse BitVec.toNat (BitVec.ofNat 128) fun id => by simp

deriving instance Encodable for KdfParams, Ciphertext, VaultEpoch, WrappedDek
deriving instance Encodable for VaultHeader, ObjectEnvelope
deriving instance Encodable for AuditEvent, DeviceRecord, OAuthProvider
deriving instance Encodable for ManagedOAuthAccount, TtlGrantPlaintext
deriving instance Encodable for SyncDir, SyncPath, RelPath
deriving instance Encodable for VaultExportFile, VaultExportPayload
deriving instance Encodable for ParentText, VaultSyncSnapshot

variable {α : Type} [Encodable α]

/-- The base-256 digits of the number of a value. -/
def pack (value : α) : Bytes := (Nat.digits 256 (Encodable.encode value)).map UInt8.ofNat

/-- The value whose number some digits spell. -/
def unpack (bytes : Bytes) : Option α :=
  Encodable.decode (Nat.ofDigits 256 (bytes.map UInt8.toNat))

/-- A value is read back from its digits. -/
@[simp] theorem unpack_pack (value : α) : unpack (pack value) = some value := by
  have digits : ((Nat.digits 256 (Encodable.encode value)).map UInt8.ofNat).map UInt8.toNat =
      Nat.digits 256 (Encodable.encode value) := by
    rw [List.map_map]
    refine (List.map_congr_left fun digit listed => ?_).trans (List.map_id _)
    have small : digit < 256 := Nat.digits_lt_base (by decide) listed
    simp only [Function.comp_apply, UInt8.toNat_ofNat', id_eq]
    exact Nat.mod_eq_of_lt small
  rw [unpack, pack, digits, Nat.ofDigits_digits, Encodable.encodek]

/-- Distinct values have distinct digits. -/
theorem pack_injective : Function.Injective (pack : α → Bytes) := fun left right same =>
  Option.some.inj (by rw [← unpack_pack left, same, unpack_pack])

/-- The byte of an opening brace, which starts every serialized value. -/
def brace : UInt8 := 123

/-- A serializer of any countable type. -/
def serde (α : Type) [Encodable α] : Serde α where
  toVec value := brace :: pack value
  toVecPretty value := brace :: pack value
  fromSlice
    | [] => none
    | first :: digits => if first = brace then unpack digits else none
  fromSlice_toVec value := by simp
  fromSlice_toVecPretty value := by simp

/-- Each byte as the character of its number. -/
def encodeB64 (bytes : Bytes) : String :=
  String.ofList (bytes.map Char.ofUInt8)

/-- The bytes of a text that encodes some. -/
def decodeB64 (text : String) : Option Bytes :=
  let bytes := text.toList.map Char.toUInt8
  if encodeB64 bytes = text then some bytes else none

/-- An encoding decodes to its bytes. -/
theorem decodeB64_encodeB64 (bytes : Bytes) : decodeB64 (encodeB64 bytes) = some bytes := by
  have letters : (encodeB64 bytes).toList.map Char.toUInt8 = bytes := by
    rw [encodeB64, String.toList_ofList, List.map_map]
    refine (List.map_congr_left fun byte _ => ?_).trans (List.map_id _)
    exact UInt8.toUInt8_toUInt32 byte
  simp [decodeB64, letters]

/-- Only encodings decode. -/
theorem encodeB64_of_decodeB64 {text : String} {bytes : Bytes}
    (decoded : decodeB64 text = some bytes) : text = encodeB64 bytes := by
  unfold decodeB64 at decoded
  simp only at decoded
  split at decoded
  case isTrue canonical =>
    rw [← Option.some.inj decoded]
    exact canonical.symm
  case isFalse => simp at decoded

/-- The text of a countable value. -/
def textOf (value : α) : String := encodeB64 (pack value)

/-- The value a text spells. -/
def ofText (text : String) : Option α := (decodeB64 text).bind unpack

/-- A text is read back. -/
theorem ofText_textOf (value : α) : ofText (textOf value) = some value := by
  simp [ofText, textOf, decodeB64_encodeB64]

/-- Write down everything that is to be encrypted, after the number of its key. -/
def encrypt (key : Key) (nonce : Nonce) (aad plaintext : Bytes) : Bytes :=
  pack (key.bytes, nonce.bytes, aad, plaintext)

/-- Give back a plaintext that was encrypted under the same key, nonce and associated data. -/
def decrypt (key : Key) (nonce : Nonce) (aad ciphertext : Bytes) : Option Bytes :=
  match (unpack ciphertext : Option (Bytes × Bytes × Bytes × Bytes)) with
  | some (_, _, _, plaintext) =>
    if ciphertext = encrypt key nonce aad plaintext then some plaintext else none
  | none => none

/-- The envelope a text spells, as an untyped value. -/
def value (bytes : Bytes) : Option Json :=
  ((serde ObjectEnvelope).fromSlice bytes).map (envelopeJson textOf textOf)

/-- The stand-in platform. -/
def platform : Platform where
  header := serde _
  envelope := serde _
  exportPayload := serde _
  snapshot := serde _
  snapshotAad := serde _
  revisionInput := serde _
  auditEvent := serde _
  deviceRecord := serde _
  oauthAccount := serde _
  ttlGrant := serde _
  encodeB64 := encodeB64
  decodeB64 := decodeB64
  decodeB64_encodeB64 := decodeB64_encodeB64
  encodeB64_of_decodeB64 := encodeB64_of_decodeB64
  uuidText := textOf
  parseUuid := ofText
  parseUuid_uuidText := ofText_textOf
  rfc3339 := textOf
  parseRfc3339 := ofText
  parseRfc3339_rfc3339 := ofText_textOf
  encrypt := encrypt
  decrypt := decrypt
  decrypt_encrypt key nonce aad plaintext := by simp [decrypt, encrypt]
  encrypt_of_decrypt := by
    intro key nonce aad ciphertext plaintext opened
    unfold decrypt at opened
    split at opened
    · split at opened
      case isTrue same =>
        rw [← Option.some.inj opened]
        exact same
      case isFalse => simp at opened
    · simp at opened
  encrypt_injective := by
    intro key nonce aad plaintext key' nonce' aad' plaintext' same
    obtain ⟨keys, nonces, aads, plaintexts⟩ : key.bytes = key'.bytes ∧
        nonce.bytes = nonce'.bytes ∧ aad = aad' ∧ plaintext = plaintext' := by
      simpa using pack_injective same
    refine ⟨?_, ?_, aads, plaintexts⟩
    · cases key
      cases key'
      simpa using keys
    · cases nonce
      cases nonce'
      simpa using nonces
  sha256 := Encodable.encode
  sha256_injective := Encodable.encode_injective
  value := value
  value_toVec written := by simp [value]
  value_toVecPretty written := by simp [value]

end Aipass.StandIn
