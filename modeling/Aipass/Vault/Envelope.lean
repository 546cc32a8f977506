import Aipass.Crypto

/-!
# Envelopes and headers

An envelope carries one record: its plaintext encrypted under a fresh key, and that key wrapped
under the key of an epoch. Both are bound to the fields of the envelope. The header wraps the
epoch key and the index key under the root key of the vault.
-/
namespace Aipass

variable (P : Platform)

/-- `object_aad`: the fields of an envelope that its ciphertexts are bound to. -/
def objectAad (envelope : ObjectEnvelope) : Bytes :=
  utf8 (s!"vault={P.uuidText envelope.vaultId};object={P.uuidText envelope.objectId};" ++
    s!"type={envelope.objectType};schema={envelope.schemaVersion};" ++
    s!"crypto={envelope.cryptoVersion};device={P.uuidText envelope.deviceId};" ++
    s!"lamport={envelope.lamport};updated_at={envelope.updatedAt}")

/-- `encrypt_envelope`. -/
def encryptEnvelope (draw : EnvelopeDraw) (envelope : ObjectEnvelope) (plaintext : Bytes)
    (epoch : VaultEpochKey) : ObjectEnvelope :=
  let aad := objectAad P envelope
  { envelope with
    payload := some (encryptBytes P draw.payloadNonce draw.dek aad plaintext)
    wrappedDek := some (wrapRecordDek P draw.dekNonce epoch draw.dek aad) }

/-- `decrypt_envelope_with_epoch`. -/
def decryptEnvelopeWithEpoch (envelope : ObjectEnvelope) (epochKey : VaultEpochKey) :
    Except VaultError Bytes := do
  if envelope.tombstone then
    throw .grantExpired
  let aad := objectAad P envelope
  let wrapped ← okOr .grantExpired envelope.wrappedDek
  let payload ← okOr .grantExpired envelope.payload
  let dek ← (unwrapRecordDek P epochKey wrapped aad).mapError .crypto
  (decryptBytes P dek aad payload).mapError .crypto

/-- An envelope that was encrypted under an epoch decrypts under it. -/
@[simp] theorem decryptEnvelopeWithEpoch_encryptEnvelope (draw : EnvelopeDraw)
    (envelope : ObjectEnvelope) (plaintext : Bytes) (epoch : VaultEpochKey)
    (live : envelope.tombstone = false) :
    decryptEnvelopeWithEpoch P (encryptEnvelope P draw envelope plaintext epoch) epoch =
      .ok plaintext := by
  have bound : objectAad P (encryptEnvelope P draw envelope plaintext epoch) =
      objectAad P envelope := rfl
  simp only [decryptEnvelopeWithEpoch, bound]
  simp [encryptEnvelope, live, Except.mapError]

/-- An envelope that decrypts is live and carries both its ciphertexts. -/
theorem live_of_decrypt {envelope : ObjectEnvelope} {epochKey : VaultEpochKey}
    {plaintext : Bytes}
    (decrypted : decryptEnvelopeWithEpoch P envelope epochKey = .ok plaintext) :
    envelope.tombstone = false ∧ envelope.wrappedDek.isSome ∧ envelope.payload.isSome := by
  unfold decryptEnvelopeWithEpoch at decrypted
  split at decrypted
  · simp at decrypted
  case isFalse live =>
    simp only [bind_eq_ok, okOr_eq_ok] at decrypted
    obtain ⟨wrapped, hasDek, payload, hasPayload, -⟩ := decrypted
    exact ⟨by simpa using live, by simp [hasDek], by simp [hasPayload]⟩

/-- Only the key of the epoch an envelope was encrypted under opens it. -/
theorem key_of_decrypt_encryptEnvelope {draw : EnvelopeDraw} {envelope : ObjectEnvelope}
    {plaintext opened : Bytes} {epoch other : VaultEpochKey}
    (opens : decryptEnvelopeWithEpoch P (encryptEnvelope P draw envelope plaintext epoch) other =
      .ok opened) : other.key = epoch.key := by
  unfold decryptEnvelopeWithEpoch at opens
  split at opens
  · simp at opens
  · simp only [bind_eq_ok, okOr_eq_ok, mapError_eq_ok, encryptEnvelope, Option.some.injEq,
      exists_eq_left'] at opens
    obtain ⟨dek, unwrapped, -⟩ := opens
    exact key_of_unwrapRecordDek P unwrapped

/-- `VAULT_FORMAT`. -/
def vaultFormat : String := "aipass-vault"

/-- `VAULT_VERSION`. -/
def vaultVersion : UInt16 := 2

/-- `validate_header`. -/
def validateHeader (header : VaultHeader) : Except VaultError Unit :=
  if header.format ≠ vaultFormat ∨ header.version ≠ vaultVersion then
    .error .unsupportedVersion
  else .ok ()

/-- `validate_import_kdf`. -/
def validateImportKdf (kdf : KdfParams) : Except VaultError Unit :=
  if kdf.algorithm ≠ "argon2id" ∨ 1024 * 1024 < kdf.memoryKib ∨ 10 < kdf.iterations ∨
      16 < kdf.parallelism then
    .error .invalidExport
  else .ok ()

/-- `header_key_aad`. -/
def headerKeyAad (vaultId : Uuid) (keyName : String) : Bytes :=
  utf8 s!"aipass {keyName} key:vault={P.uuidText vaultId}"

/-- `unwrap_epoch_and_index_keys`. -/
def unwrapEpochAndIndexKeys (rootKey : Key) (header : VaultHeader) (error : VaultError) :
    Except VaultError (VaultEpochKey × Key) := do
  let epochBytes ← (decryptBytes P rootKey (headerKeyAad P header.vaultId "epoch")
    header.wrappedEpochKey).mapError fun _ => error.cloneLike
  let indexBytes ← (decryptBytes P rootKey (headerKeyAad P header.vaultId "index")
    header.wrappedIndexKey).mapError fun _ => error.cloneLike
  let epochKey ← okOr error (Key.ofBytes? epochBytes)
  let indexKey ← okOr error (Key.ofBytes? indexBytes)
  return (⟨header.currentEpoch, epochKey⟩, indexKey)

/-- The key a header unwraps goes by the epoch the header names. -/
theorem epoch_of_unwrapEpochAndIndexKeys {rootKey : Key} {header : VaultHeader}
    {error : VaultError} {epochKey : VaultEpochKey} {indexKey : Key}
    (unwrapped : unwrapEpochAndIndexKeys P rootKey header error = .ok (epochKey, indexKey)) :
    epochKey.epoch = header.currentEpoch := by
  simp only [unwrapEpochAndIndexKeys, bind_eq_ok, pure, Except.pure, Except.ok.injEq,
    Prod.mk.injEq] at unwrapped
  obtain ⟨_, _, _, _, _, _, _, _, rfl, _⟩ := unwrapped
  rfl

end Aipass
