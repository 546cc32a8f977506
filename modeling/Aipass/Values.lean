import Mathlib.Algebra.GroupWithZero.Nat
import Mathlib.Algebra.Group.Nat.Defs
import Mathlib.Data.Nat.Notation

/-!
# Values shared by every layer

Bytes, keys, clocks and identifiers as the repository passes them around. A snapshot is named
by the lowercase hexadecimal SHA-256 of its bytes; sixty-four digits of fixed width are ordered
as the number they spell, so a digest is that number. The hash is assumed free of collisions,
which no fixed width allows, so the number is not bounded.
-/
namespace Aipass

/-- The contents of a file or a message. -/
abbrev Bytes := List UInt8

/-- A SHA-256 digest, ordered as its hexadecimal text is. -/
abbrev Digest := ℕ

/-- `snapshot_id`: the name of an immutable snapshot. -/
abbrev SnapshotId := Digest

/-- `OffsetDateTime`: nanoseconds since the Unix epoch. -/
abbrev OffsetDateTime := Int

/-- `Duration::days`, in nanoseconds. -/
def days (count : Int) : Int := count * (24 * 60 * 60 * 1000000000)

/-- `Uuid`: sixteen bytes. -/
abbrev Uuid := BitVec 128

/-- Equality of identifiers is decided by their bits. -/
instance lawfulUuid : LawfulBEq Uuid := inferInstance

/-- `KEY_LEN`: the length of a symmetric key. -/
def keyLen : ℕ := 32

/-- `NONCE_LEN`: the length of an XChaCha20 nonce. -/
def nonceLen : ℕ := 24

/-- A symmetric key carries its length. -/
structure Key where
  /-- The key material. -/
  bytes : Bytes
  /-- Exactly `KEY_LEN` bytes. -/
  length : bytes.length = keyLen
deriving DecidableEq

/-- A nonce carries its length. -/
structure Nonce where
  /-- The nonce material. -/
  bytes : Bytes
  /-- Exactly `NONCE_LEN` bytes. -/
  length : bytes.length = nonceLen
deriving DecidableEq

/-- Admit decrypted bytes as a key when they have its length. -/
def Key.ofBytes? (bytes : Bytes) : Option Key :=
  if length : bytes.length = keyLen then some ⟨bytes, length⟩ else none

/-- The bytes of a key are admitted as that key. -/
@[simp] theorem Key.ofBytes?_bytes (key : Key) : Key.ofBytes? key.bytes = some key := by
  simp [Key.ofBytes?, key.length]

/-- Admit decoded bytes as a nonce when they have its length. -/
def Nonce.ofBytes? (bytes : Bytes) : Option Nonce :=
  if length : bytes.length = nonceLen then some ⟨bytes, length⟩ else none

/-- The bytes of a nonce are admitted as that nonce. -/
@[simp] theorem Nonce.ofBytes?_bytes (nonce : Nonce) :
    Nonce.ofBytes? nonce.bytes = some nonce := by
  simp [Nonce.ofBytes?, nonce.length]

/-- `u64::saturating_add`. -/
def saturatingAdd (left right : UInt64) : UInt64 :=
  if left.toNat + right.toNat < 2 ^ 64 then left + right else UInt64.ofNat (2 ^ 64 - 1)

/-- `u64::saturating_sub`. -/
def saturatingSub (left right : UInt64) : UInt64 :=
  if right ≤ left then left - right else 0

end Aipass
