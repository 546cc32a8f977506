import Aipass.Vault.Snapshot
import Aipass.Vault.StandIn

/-!
# A small vault

Headers, sessions and envelopes of one vault on any platform, with every clock and generator
fixed. Statements about all vaults are tried on them.
-/
namespace Aipass.Sample

variable (P : Platform)

/-- A key of one repeated byte. -/
def key (byte : UInt8) : Key := ⟨List.replicate keyLen byte, List.length_replicate⟩

/-- A nonce of one repeated byte. -/
def nonce (byte : UInt8) : Nonce := ⟨List.replicate nonceLen byte, List.length_replicate⟩

/-- The draws of one encrypted envelope. -/
def envelopeDraw : EnvelopeDraw := ⟨key 9, nonce 9, nonce 8⟩

/-- The draws of one snapshot. -/
def snapshotDraw : SnapshotDraw := ⟨0, nonce 7⟩

/-- The root key of the vault. -/
def rootKey : Key := key 1

/-- The index key of the vault. -/
def indexKey : Key := key 2

/-- The key of an epoch, and its name. -/
def epochKey (number : UInt8) : VaultEpochKey :=
  ⟨⟨number.toUInt64, BitVec.ofNat 128 number.toNat, 0⟩, key number⟩

/-- The header of the vault at an epoch. -/
def header (epoch : VaultEpochKey) : VaultHeader where
  format := vaultFormat
  version := vaultVersion
  vaultId := 1
  kdf := ⟨"argon2id", 1024, 1, 1, ""⟩
  wrappedRootKey := encryptBytes P (nonce 1) (key 3) [] rootKey.bytes
  recoveryWrappedRootKey := encryptBytes P (nonce 2) (key 4) [] rootKey.bytes
  wrappedEpochKey := encryptBytes P (nonce 3) rootKey (headerKeyAad P 1 "epoch") epoch.key.bytes
  wrappedIndexKey := encryptBytes P (nonce 4) rootKey (headerKeyAad P 1 "index") indexKey.bytes
  currentEpoch := epoch.epoch
  createdAt := 0
  updatedAt := 0

/-- The header wraps the key of its epoch. -/
@[simp] theorem unwrap_header (epoch : VaultEpochKey) :
    unwrapEpochAndIndexKeys P rootKey (header P epoch) .unlockFailed = .ok (epoch, indexKey) := by
  simp [unwrapEpochAndIndexKeys, header, Except.mapError, pure, Except.pure]

/-- The header is valid. -/
theorem header_valid (epoch : VaultEpochKey) : HeaderValid (header P epoch) :=
  ⟨by simp [validateHeader, header], by simp [validateImportKdf, header]⟩

/-- A session of the vault at an epoch. -/
def session (epoch : VaultEpochKey) : Session :=
  ⟨header P epoch, rootKey, epoch, indexKey, 5⟩

/-- The vault at an epoch, with given files. -/
def vault (epoch : VaultEpochKey) (files : Table SyncPath Bytes) : Vault where
  disk := ⟨some (P.header.toVecPretty (header P epoch)), none, files⟩
  session := session P epoch

/-- A live envelope of the vault. -/
def envelope (objectId : Uuid) (objectType : String) (plaintext : Bytes)
    (epoch : VaultEpochKey) : ObjectEnvelope :=
  encryptEnvelope P envelopeDraw
    { format := "aipass-object"
      version := 1
      vaultId := 1
      objectId
      objectType
      schemaVersion := 1
      cryptoVersion := 1
      deviceId := 5
      lamport := 1
      updatedAt := 0
      wrappedDek := none
      payload := none
      tombstone := false } plaintext epoch

/-- A live envelope opens under its epoch. -/
@[simp] theorem decrypt_envelope (objectId : Uuid) (objectType : String) (plaintext : Bytes)
    (epoch : VaultEpochKey) :
    decryptEnvelopeWithEpoch P (envelope P objectId objectType plaintext epoch) epoch =
      .ok plaintext :=
  decryptEnvelopeWithEpoch_encryptEnvelope P _ _ _ _ rfl

/-- A snapshot of the vault at an epoch that lists no file. -/
def emptySnapshot (epoch : VaultEpochKey) (version : UInt16) : Bytes :=
  encodeSnapshotWithHeader P rootKey snapshotDraw (header P epoch) (listEntries P []) [] version

/-- The empty snapshot is accepted by every session of the vault. -/
theorem decodes_emptySnapshot (current epoch : VaultEpochKey) {version : UInt16}
    (supported : version = 1 ∨ version = 2) :
    Decodes P (session P current) (emptySnapshot P epoch version)
      (encodedSnapshot P rootKey snapshotDraw (header P epoch) (listEntries P []) [] version)
      [] epoch :=
  decodes_encode P (session P current) supported (header_valid P epoch) rfl
    (unwrap_header P epoch) (by simp) (by simp) (by simp)

end Aipass.Sample
