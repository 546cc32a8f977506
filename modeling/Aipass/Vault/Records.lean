import Aipass.Base.Table
import Aipass.Values
import Mathlib.Data.Prod.Lex
import Mathlib.Data.Nat.Basic

/-!
# Records of a vault

The serialized types of the vault: the manifest header, the encrypted envelope of one object,
the snapshot that carries a whole vault, and the plaintexts whose fields the vault itself reads.
Paths are modelled by their components. A sync path is one of the four synchronized
directories with a file stem; the extension is that of the directory.
-/
namespace Aipass

/-- `KdfParams`. -/
structure KdfParams where
  algorithm : String
  memoryKib : UInt32
  iterations : UInt32
  parallelism : UInt32
  saltB64 : String
deriving DecidableEq

/-- `Ciphertext`: an AEAD ciphertext with its nonce, in base64. -/
structure Ciphertext where
  aead : String
  nonceB64 : String
  ciphertextB64 : String
deriving DecidableEq

/-- `VaultEpoch`: the name of an epoch key. -/
structure VaultEpoch where
  epoch : UInt64
  keyId : Uuid
  createdAt : OffsetDateTime
deriving DecidableEq

/-- `WrappedDek`: the key of one record, encrypted under an epoch key. -/
structure WrappedDek where
  epoch : UInt64
  keyId : Uuid
  nonceB64 : String
  ciphertextB64 : String
deriving DecidableEq

/-- `VaultHeader`: the manifest. -/
structure VaultHeader where
  format : String
  version : UInt16
  vaultId : Uuid
  kdf : KdfParams
  wrappedRootKey : Ciphertext
  recoveryWrappedRootKey : Ciphertext
  wrappedEpochKey : Ciphertext
  wrappedIndexKey : Ciphertext
  currentEpoch : VaultEpoch
  createdAt : OffsetDateTime
  updatedAt : OffsetDateTime
deriving DecidableEq

/-- `ObjectEnvelope`: one encrypted record, or the tombstone of a deleted one. -/
structure ObjectEnvelope where
  format : String
  version : UInt16
  vaultId : Uuid
  objectId : Uuid
  objectType : String
  schemaVersion : UInt16
  cryptoVersion : UInt16
  deviceId : Uuid
  lamport : UInt64
  updatedAt : OffsetDateTime
  wrappedDek : Option WrappedDek
  payload : Option Ciphertext
  tombstone : Bool
deriving DecidableEq

/-- `AuditEvent`. -/
structure AuditEvent where
  id : Uuid
  occurredAt : OffsetDateTime
  action : String
  recordId : Option Uuid
  detail : Option String
deriving DecidableEq

/-- `DeviceRecord`. -/
structure DeviceRecord where
  id : Uuid
  name : String
  trusted : Bool
  firstSeenAt : OffsetDateTime
  lastSeenAt : OffsetDateTime
  revokedAt : Option OffsetDateTime
  lastEpoch : UInt64
deriving DecidableEq

/-- `OAuthProvider`. -/
inductive OAuthProvider where
  | codex
  | grok
deriving DecidableEq

/-- `ManagedOAuthAccount`. -/
structure ManagedOAuthAccount where
  id : Uuid
  provider : OAuthProvider
  accountIdentity : Option String
  chatgptAccountId : Option String
  accessToken : String
  refreshToken : String
  idToken : Option String
  expiresAtMs : Int
  lastRefreshMs : Int
  entryId : Option Uuid
  isDefault : Bool
  requiresReauth : Bool
  authenticatedAt : OffsetDateTime
deriving DecidableEq

/-- `TtlGrantPlaintext`. -/
structure TtlGrantPlaintext where
  id : Uuid
  purpose : String
  entryId : Option Uuid
  fieldId : String
  origin : Option String
  secret : String
  createdAt : OffsetDateTime
  expiresAt : OffsetDateTime
deriving DecidableEq

/-- The directories that snapshots carry, in the order of their names. -/
inductive SyncDir where
  | audit
  | devices
  | grants
  | objects
deriving DecidableEq

/-- The extension that `sync_path_allowed` demands in a directory. -/
def SyncDir.extension : SyncDir → String
  | .audit => "aipaudit"
  | .devices => "aipdevice"
  | .grants => "aipgrant"
  | .objects => "aipobj"

/-- The position of a directory among the four names. -/
def SyncDir.rank : SyncDir → ℕ
  | .audit => 0
  | .devices => 1
  | .grants => 2
  | .objects => 3

/-- A path that `sync_path_allowed` accepts. -/
structure SyncPath where
  /-- The first component. -/
  dir : SyncDir
  /-- The file stem of the second. -/
  stem : String
deriving DecidableEq

namespace SyncPath

/-- The second component of a path. -/
def fileName (path : SyncPath) : String := path.stem ++ ("." ++ path.dir.extension)

/-- Paths are compared by their components. -/
def sortKey (path : SyncPath) : ℕ ×ₗ String := toLex (path.dir.rank, path.fileName)

/-- The components of a path determine it. -/
theorem sortKey_injective : Function.Injective sortKey := by
  rintro ⟨leftDir, leftStem⟩ ⟨rightDir, rightStem⟩ same
  obtain ⟨rank, name⟩ : leftDir.rank = rightDir.rank ∧
      fileName ⟨leftDir, leftStem⟩ = fileName ⟨rightDir, rightStem⟩ := by
    simpa [sortKey] using same
  obtain rfl : leftDir = rightDir := by
    cases leftDir <;> cases rightDir <;> simp_all [SyncDir.rank]
  simp only [fileName] at name
  have stems : leftStem = rightStem := by simpa using name
  rw [stems]

instance : LinearOrder SyncPath := LinearOrder.lift' sortKey sortKey_injective

end SyncPath

/-- A path inside a snapshot: an allowed one, or any other text. -/
inductive RelPath where
  | sync (path : SyncPath)
  | other (text : String)
deriving DecidableEq

/-- `sync_path_allowed`, returning the path it allows. -/
def syncPathAllowed : RelPath → Option SyncPath
  | .sync path => some path
  | .other _ => none

/-- `VaultExportFile`. -/
structure VaultExportFile where
  relativePath : RelPath
  bytesB64 : String
deriving DecidableEq

/-- `VaultExportPayload`. -/
structure VaultExportPayload where
  files : List VaultExportFile
deriving DecidableEq

/-- The text of a parent link: a snapshot id, or text that is none. -/
inductive ParentText where
  | digest (named : SnapshotId)
  | malformed (text : String)
deriving DecidableEq

/-- The id a parent link spells. -/
def ParentText.id? : ParentText → Option SnapshotId
  | .digest named => some named
  | .malformed _ => none

/-- `VaultSyncSnapshot`: one authenticated vault. -/
structure VaultSyncSnapshot where
  format : String
  version : UInt16
  parents : List ParentText
  createdAt : OffsetDateTime
  header : VaultHeader
  payload : Ciphertext
deriving DecidableEq

/-- The ids that a snapshot names as its parents. -/
def VaultSyncSnapshot.parentIds (snapshot : VaultSyncSnapshot) : List SnapshotId :=
  snapshot.parents.filterMap ParentText.id?

/-- `CryptoError`. -/
inductive CryptoError where
  | decryptFailed
  | invalidKeyLength
deriving DecidableEq

/-- `VaultError`. -/
inductive VaultError where
  | unlockFailed
  | recoveryFailed
  | unsupportedVersion
  | recordNotFound
  | grantNotFound
  | grantExpired
  | deviceNotFound
  | invalidExport
  | io
  | json
  | crypto (error : CryptoError)
deriving DecidableEq

/-- `VaultError::clone_like`. -/
def VaultError.cloneLike : VaultError → VaultError
  | .unlockFailed => .unlockFailed
  | .recoveryFailed => .recoveryFailed
  | .unsupportedVersion => .unsupportedVersion
  | _ => .unlockFailed

end Aipass
