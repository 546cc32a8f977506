import Aipass.Base.Result
import Aipass.Vault.Platform

/-!
# Encryption

The functions of the crypto crate that the vault calls. Nonces and fresh keys come from the
operating system's generator; a function that draws them takes the draws as arguments.
-/
namespace Aipass

/-- `VaultEpochKey`: a key and the name it goes by. -/
structure VaultEpochKey where
  epoch : VaultEpoch
  key : Key
deriving DecidableEq

/-- What `encrypt_envelope` draws from the generator. -/
structure EnvelopeDraw where
  /-- The key of the record. -/
  dek : Key
  /-- The nonce of its plaintext. -/
  payloadNonce : Nonce
  /-- The nonce of its wrapped key. -/
  dekNonce : Nonce

variable (P : Platform)

/-- `encrypt_bytes`. -/
def encryptBytes (nonce : Nonce) (key : Key) (aad plaintext : Bytes) : Ciphertext where
  aead := "xchacha20poly1305"
  nonceB64 := P.encodeB64 nonce.bytes
  ciphertextB64 := P.encodeB64 (P.encrypt key nonce aad plaintext)

/-- `decrypt_bytes`. -/
def decryptBytes (key : Key) (aad : Bytes) (ciphertext : Ciphertext) :
    Except CryptoError Bytes := do
  if ciphertext.aead ≠ "xchacha20poly1305" then
    throw .decryptFailed
  let nonce ← okOr .decryptFailed (P.decodeB64 ciphertext.nonceB64)
  let bytes ← okOr .decryptFailed (P.decodeB64 ciphertext.ciphertextB64)
  let nonce ← okOr .decryptFailed (Nonce.ofBytes? nonce)
  okOr .decryptFailed (P.decrypt key nonce aad bytes)

/-- `wrap_record_dek`. -/
def wrapRecordDek (nonce : Nonce) (epochKey : VaultEpochKey) (dek : Key) (aad : Bytes) :
    WrappedDek :=
  let encrypted := encryptBytes P nonce epochKey.key aad dek.bytes
  { epoch := epochKey.epoch.epoch
    keyId := epochKey.epoch.keyId
    nonceB64 := encrypted.nonceB64
    ciphertextB64 := encrypted.ciphertextB64 }

/-- `unwrap_record_dek`. -/
def unwrapRecordDek (epochKey : VaultEpochKey) (wrapped : WrappedDek) (aad : Bytes) :
    Except CryptoError Key := do
  if wrapped.epoch ≠ epochKey.epoch.epoch ∨ wrapped.keyId ≠ epochKey.epoch.keyId then
    throw .decryptFailed
  let bytes ← decryptBytes P epochKey.key aad
    ⟨"xchacha20poly1305", wrapped.nonceB64, wrapped.ciphertextB64⟩
  okOr .invalidKeyLength (Key.ofBytes? bytes)

/-- What is encrypted decrypts under the same key and associated data. -/
@[simp] theorem decryptBytes_encryptBytes (nonce : Nonce) (key : Key) (aad plaintext : Bytes) :
    decryptBytes P key aad (encryptBytes P nonce key aad plaintext) = .ok plaintext := by
  simp [decryptBytes, encryptBytes]

/-- A ciphertext that decrypts was encrypted under the same key and associated data. -/
theorem decryptBytes_eq_ok {key : Key} {aad : Bytes} {ciphertext : Ciphertext}
    {plaintext : Bytes} :
    decryptBytes P key aad ciphertext = .ok plaintext ↔
      ∃ nonce, ciphertext = encryptBytes P nonce key aad plaintext := by
  constructor
  · intro decrypted
    unfold decryptBytes at decrypted
    split at decrypted
    · simp at decrypted
    case isFalse aead =>
      simp only [bind_eq_ok, okOr_eq_ok] at decrypted
      obtain ⟨nonceBytes, nonceText, bytes, text, nonce, admitted, opened⟩ := decrypted
      obtain rfl : nonceBytes = nonce.bytes := by
        unfold Nonce.ofBytes? at admitted
        split at admitted
        · rw [← Option.some.inj admitted]
        · simp at admitted
      refine ⟨nonce, ?_⟩
      obtain ⟨algorithm, nonceB64, ciphertextB64⟩ := ciphertext
      simp only [not_not] at aead
      simp only at nonceText text
      simp only [encryptBytes, Ciphertext.mk.injEq]
      exact ⟨aead, P.encodeB64_of_decodeB64 nonceText,
        by rw [P.encodeB64_of_decodeB64 text, P.encrypt_of_decrypt opened]⟩
  · rintro ⟨nonce, rfl⟩
    simp

/-- A wrapped record key unwraps under the epoch key that wrapped it. -/
@[simp] theorem unwrapRecordDek_wrapRecordDek (nonce : Nonce) (epochKey : VaultEpochKey)
    (dek : Key) (aad : Bytes) :
    unwrapRecordDek P epochKey (wrapRecordDek P nonce epochKey dek aad) aad = .ok dek := by
  have opened := decryptBytes_encryptBytes P nonce epochKey.key aad dek.bytes
  simp only [encryptBytes] at opened
  simp [unwrapRecordDek, wrapRecordDek, encryptBytes, opened]

/-- Distinct bytes have distinct base64 texts. -/
theorem encodeB64_injective : Function.Injective P.encodeB64 := fun left right same =>
  Option.some.inj (by rw [← P.decodeB64_encodeB64 left, same, P.decodeB64_encodeB64])

/-- A ciphertext determines its key and its plaintext. -/
theorem encryptBytes_injective {nonce nonce' : Nonce} {key key' : Key}
    {aad aad' plaintext plaintext' : Bytes}
    (same : encryptBytes P nonce key aad plaintext = encryptBytes P nonce' key' aad' plaintext') :
    key = key' ∧ plaintext = plaintext' := by
  simp only [encryptBytes, Ciphertext.mk.injEq] at same
  obtain ⟨keys, -, -, plaintexts⟩ := P.encrypt_injective (encodeB64_injective P same.2.2)
  exact ⟨keys, plaintexts⟩

/-- Only the key of the epoch that wrapped a record key unwraps it. -/
theorem key_of_unwrapRecordDek {nonce : Nonce} {epochKey other : VaultEpochKey}
    {dek unwrapped : Key} {aad aad' : Bytes}
    (opens : unwrapRecordDek P other (wrapRecordDek P nonce epochKey dek aad) aad' =
      .ok unwrapped) : other.key = epochKey.key := by
  unfold unwrapRecordDek at opens
  split at opens
  · simp at opens
  · simp only [bind_eq_ok, okOr_eq_ok] at opens
    obtain ⟨bytes, decrypted, -⟩ := opens
    obtain ⟨nonce', same⟩ := (decryptBytes_eq_ok P).mp decrypted
    have wrapped : encryptBytes P nonce epochKey.key aad dek.bytes =
        encryptBytes P nonce' other.key aad' bytes := same
    exact (encryptBytes_injective P wrapped).1.symm

end Aipass
