import Aipass.Base.Framed
import Aipass.Base.Json
import Aipass.Base.Result
import Aipass.Base.Table
import Aipass.Values

/-!
# Messages of an AWS event stream

A message states its length and the length of its headers, each part under a checksum, and carries a
JSON value. The decoder keeps what has arrived of a message that is not whole. Checksums and JSON are
parameters. A message within the limit is read as its headers and its value and waited for until it
is whole; one beyond the limit is refused as soon as it has stated its length.
-/
namespace Aipass.Kiro

open Framed

/-- `MAX_FRAME`. -/
def maxFrame : ℕ := 8 * 1024 * 1024

/-- `AwsEvent`: the text headers and the payload. -/
abbrev AwsEvent := Table String String × Value

/-- `u32::from_be_bytes`, for any number of bytes. -/
def fromBe (bytes : Bytes) : ℕ := bytes.foldl (fun value byte => value * 256 + byte.toNat) 0

/-- The bytes of a number, the most significant one first. -/
def toBe : ℕ → ℕ → Bytes
  | 0, _ => []
  | width + 1, value => toBe width (value / 256) ++ [UInt8.ofNat value]

/-- `str::from_utf8`. -/
def decodeUtf8 (bytes : Bytes) : Option String := String.fromUTF8? ⟨bytes.toArray⟩

/-- The bytes of a text. -/
def encodeUtf8 (text : String) : Bytes := text.toUTF8.data.toList

/-- The bytes of a range. -/
def slice (bytes : Bytes) (start size : ℕ) : Bytes := (bytes.drop start).take size

/-- The size of a header value of a type that fixes it. -/
def fixedSize (kind : UInt8) : Option ℕ :=
  if kind = 0 ∨ kind = 1 then some 0
  else if kind = 2 then some 1
  else if kind = 3 then some 2
  else if kind = 4 then some 4
  else if kind = 5 ∨ kind = 8 then some 8
  else if kind = 9 then some 16
  else none

/-- The size of a header value and what stands behind it if it is written out. -/
def valueSize (kind : UInt8) (rest : Bytes) : Except String (ℕ × Bytes) :=
  match fixedSize kind with
  | some size => .ok (size, rest)
  | none =>
    if kind = 6 ∨ kind = 7 then
      if rest.length < 2 then .error "truncated AWS header length"
      else .ok (fromBe (rest.take 2), rest.drop 2)
    else .error "unknown AWS header type"

/-- The value of a header behind its name; of the values only texts are kept. -/
def readValue (key : String) (headers : Table String String) :
    Bytes → Except String (Bytes × Table String String)
  | [] => .error "truncated AWS header type"
  | kind :: rest => do
    let sized ← valueSize kind rest
    if sized.2.length < sized.1 then throw "truncated AWS header value"
    if kind = 7 then
      let value ← okOr "invalid AWS string header" (decodeUtf8 (sized.2.take sized.1))
      return (sized.2.drop sized.1, headers.insert key value)
    return (sized.2.drop sized.1, headers)

/-- One header behind the length of its name. -/
def readHeader (size : ℕ) (rest : Bytes) (headers : Table String String) :
    Except String (Bytes × Table String String) := do
  if rest.length < size then throw "truncated AWS header"
  let key ← okOr "invalid AWS header" (decodeUtf8 (rest.take size))
  readValue key headers (rest.drop size)

/-- The headers of a message, for as many bytes as they have. -/
def readHeaders : ℕ → Bytes → Table String String → Except String (Table String String)
  | fuel + 1, size :: rest, headers => do
    let next ← readHeader size.toNat rest headers
    readHeaders fuel next.1 next.2
  | _, _, headers => .ok headers

variable (crc32 : Bytes → UInt32) (serde : SerdeJson)

/-- `serde_json::from_slice`. -/
def fromSlice (bytes : Bytes) : Option Value :=
  (decodeUtf8 bytes).bind fun text => (serde.parse text.toList).toOption

/-- A message that has arrived whole. -/
def readMessage (buffer : Bytes) (total size : ℕ) : Except String (AwsEvent × Bytes) := do
  if (crc32 (buffer.take (total - 4))).toNat ≠ fromBe (slice buffer (total - 4) 4) then
    throw "AWS eventstream checksum mismatch"
  let headers ← readHeaders size (slice buffer 12 size) ∅
  let payload ← okOr "invalid AWS event JSON"
    (fromSlice serde (slice buffer (12 + size) (total - 4 - (12 + size))))
  return ((headers, payload), buffer.drop total)

/-- One round of the loop of `AwsFrames::push`. -/
def readFrame : Reader UInt8 AwsEvent String := fun buffer => do
  if buffer.length < 12 then return none
  let total := fromBe (slice buffer 0 4)
  let size := fromBe (slice buffer 4 4)
  if ¬(16 ≤ total ∧ total ≤ maxFrame) ∨ total - 16 < size then
    throw "malformed AWS eventstream frame"
  if (crc32 (slice buffer 0 8)).toNat ≠ fromBe (slice buffer 8 4) then
    throw "AWS eventstream prelude checksum mismatch"
  if buffer.length < total then return none
  let message ← readMessage crc32 serde buffer total size
  return some message

/-- `AwsFrames::push`: the events that have arrived whole, and the buffer. -/
def awsFramesPush (buffer data : Bytes) : Except String (List AwsEvent × Bytes) := do
  let read ← drain (readFrame crc32 serde) (buffer ++ data)
  if read.2.length > maxFrame then throw "AWS stream buffer exceeds limit"
  return read

/-- The value of a header, as a sender writes it. -/
inductive HeaderValue
  /-- A value of a type that fixes its size. -/
  | fixed (kind : UInt8) (bytes : Bytes) (sized : fixedSize kind = some bytes.length)
  /-- Bytes. -/
  | binary (bytes : Bytes) (short : bytes.length < 65536)
  /-- A text. -/
  | text (value : String) (short : (encodeUtf8 value).length < 65536)

/-- The type and the bytes of a header value. -/
def HeaderValue.bytes : HeaderValue → Bytes
  | fixed kind bytes _ => kind :: bytes
  | binary bytes _ => 6 :: (toBe 2 bytes.length ++ bytes)
  | text value _ => 7 :: (toBe 2 (encodeUtf8 value).length ++ encodeUtf8 value)

/-- A header, as a sender writes it. -/
structure Header where
  name : String
  short : (encodeUtf8 name).length < 256
  value : HeaderValue

/-- The bytes of a header. -/
def Header.bytes (header : Header) : Bytes :=
  UInt8.ofNat (encodeUtf8 header.name).length :: (encodeUtf8 header.name ++ header.value.bytes)

/-- A header among the text headers. -/
def Header.insertIn (headers : Table String String) (header : Header) : Table String String :=
  match header.value with
  | .text value _ => headers.insert header.name value
  | _ => headers

/-- A message, as a sender writes it: its length has four bytes. -/
structure Message where
  headers : List Header
  payload : Bytes
  fits : 16 + (headers.flatMap Header.bytes).length + payload.length < 2 ^ 32

namespace Message

variable (message : Message)

/-- The bytes of the headers. -/
def headerBytes : Bytes := message.headers.flatMap Header.bytes

/-- The length of a message. -/
def size : ℕ := 16 + message.headerBytes.length + message.payload.length

/-- The lengths that a message states first. -/
def prelude : Bytes := toBe 4 message.size ++ toBe 4 message.headerBytes.length

/-- The lengths and their checksum. -/
def front : Bytes := message.prelude ++ toBe 4 (crc32 message.prelude).toNat

/-- A message without its checksum. -/
def lead : Bytes := message.front crc32 ++ (message.headerBytes ++ message.payload)

/-- The bytes of a message. -/
def bytes : Bytes := message.lead crc32 ++ toBe 4 (crc32 (message.lead crc32)).toNat

/-- The text headers of a message; of two with one name the later one. -/
def table : Table String String := message.headers.foldl Header.insertIn ∅

end Message

/-- A number is written in as many bytes as asked for. -/
@[simp] theorem length_toBe (width value : ℕ) : (toBe width value).length = width := by
  induction width generalizing value with
  | zero => rfl
  | succ width ih => rw [toBe, List.length_append, ih, List.length_singleton]

/-- A number that fits is read back from its bytes. -/
theorem fromBe_toBe {width value : ℕ} (fits : value < 256 ^ width) :
    fromBe (toBe width value) = value := by
  induction width generalizing value with
  | zero =>
    have zero : value = 0 := by simpa using fits
    rw [zero]
    rfl
  | succ width ih =>
    have less : value / 256 < 256 ^ width := by
      apply Nat.div_lt_of_lt_mul
      rwa [Nat.pow_succ, Nat.mul_comm] at fits
    have front := ih less
    rw [fromBe] at front
    rw [toBe, fromBe, List.foldl_append, front, List.foldl_cons, List.foldl_nil, UInt8.toNat_ofNat']
    omega

/-- A text is decoded from its bytes. -/
@[simp] theorem decodeUtf8_encodeUtf8 (text : String) : decodeUtf8 (encodeUtf8 text) = some text := by
  have same : (⟨(encodeUtf8 text).toArray⟩ : ByteArray) = text.toUTF8 := by simp [encodeUtf8]
  rw [decodeUtf8, same, String.fromUTF8?, String.toUTF8_eq_toByteArray, dif_pos text.isValidUTF8]
  rfl

/-- The range of the middle part of three. -/
theorem slice_middle {before middle : Bytes} {start size : ℕ} (begins : before.length = start)
    (ends : middle.length = size) (after : Bytes) :
    slice (before ++ (middle ++ after)) start size = middle := by
  rw [slice, List.drop_left' begins, List.take_left' ends]

/-- The range of the first part of two. -/
theorem slice_start {first : Bytes} {size : ℕ} (ends : first.length = size) (after : Bytes) :
    slice (first ++ after) 0 size = first := by
  rw [slice, List.drop_zero, List.take_left' ends]

/-- A length of two bytes is read back. -/
theorem fromBe_take_two {length : ℕ} (short : length < 65536) (rest : Bytes) :
    fromBe ((toBe 2 length ++ rest).take 2) = length ∧ (toBe 2 length ++ rest).drop 2 = rest ∧
      ¬(toBe 2 length ++ rest).length < 2 := by
  have width : (toBe 2 length).length = 2 := length_toBe 2 length
  refine ⟨?_, List.drop_left' width, ?_⟩
  · rw [List.take_left' width]
    exact fromBe_toBe (by omega)
  · rw [List.length_append, width]
    omega

/-- A header value is read back behind its name. -/
theorem readValue_bytes (header : Header) (headers : Table String String) (rest : Bytes) :
    readValue header.name headers (header.value.bytes ++ rest) =
      .ok (rest, header.insertIn headers) := by
  rw [Header.insertIn]
  cases header.value with
  | fixed kind bytes sized =>
    have plain : kind ≠ 7 := by
      rintro rfl
      cases sized
    have enough : ¬(bytes ++ rest).length < bytes.length := by
      rw [List.length_append]
      omega
    simp only [HeaderValue.bytes, List.cons_append, readValue, valueSize, sized, ok_bind,
      if_neg enough, if_neg plain]
    rw [List.drop_left]
    rfl
  | binary bytes short =>
    obtain ⟨length, behind, long⟩ := fromBe_take_two short (bytes ++ rest)
    have enough : ¬(bytes ++ rest).length < bytes.length := by
      rw [List.length_append]
      omega
    have unsized : fixedSize 6 = none := by decide
    simp only [HeaderValue.bytes, List.cons_append, List.append_assoc, readValue, valueSize, unsized,
      true_or, if_true, if_neg long, length, behind, ok_bind, if_neg enough]
    rw [if_neg (by decide), List.drop_left]
    rfl
  | text value short =>
    obtain ⟨length, behind, long⟩ := fromBe_take_two short (encodeUtf8 value ++ rest)
    have enough : ¬(encodeUtf8 value ++ rest).length < (encodeUtf8 value).length := by
      rw [List.length_append]
      omega
    have unsized : fixedSize 7 = none := by decide
    simp only [HeaderValue.bytes, List.cons_append, List.append_assoc, readValue, valueSize, unsized,
      or_true, if_true, if_neg long, length, behind, ok_bind, if_neg enough]
    rw [List.take_left, List.drop_left, decodeUtf8_encodeUtf8]
    rfl

/-- A header is read back behind the length of its name. -/
theorem readHeader_bytes (header : Header) (headers : Table String String) (rest : Bytes) :
    readHeader (UInt8.ofNat (encodeUtf8 header.name).length).toNat
        (encodeUtf8 header.name ++ header.value.bytes ++ rest) headers =
      .ok (rest, header.insertIn headers) := by
  have length : (UInt8.ofNat (encodeUtf8 header.name).length).toNat = (encodeUtf8 header.name).length := by
    rw [UInt8.toNat_ofNat']
    exact Nat.mod_eq_of_lt header.short
  have enough : ¬(encodeUtf8 header.name ++ (header.value.bytes ++ rest)).length <
      (encodeUtf8 header.name).length := by
    rw [List.length_append]
    omega
  rw [length, List.append_assoc, readHeader]
  simp only [if_neg enough]
  rw [List.take_left, List.drop_left, decodeUtf8_encodeUtf8, okOr_some, ok_bind]
  exact readValue_bytes header headers rest

/-- The headers of a message are read back. -/
theorem readHeaders_bytes (listed : List Header) (headers : Table String String) {fuel : ℕ}
    (enough : (listed.flatMap Header.bytes).length ≤ fuel) :
    readHeaders fuel (listed.flatMap Header.bytes) headers =
      .ok (listed.foldl Header.insertIn headers) := by
  induction listed generalizing headers fuel with
  | nil =>
    rw [List.flatMap_nil]
    cases fuel <;> rfl
  | cons header listed ih =>
    rw [List.flatMap_cons, Header.bytes] at enough ⊢
    rw [List.cons_append, List.length_cons, List.length_append] at enough
    obtain ⟨left, rfl⟩ : ∃ left, fuel = left + 1 := ⟨fuel - 1, by omega⟩
    rw [List.cons_append, readHeaders, readHeader_bytes, ok_bind, ih _ (by omega), List.foldl_cons]

namespace Message

variable (message : Message)

/-- The lengths and their checksum have twelve bytes. -/
@[simp] theorem length_front : (message.front crc32).length = 12 := by simp [front, prelude]

/-- A message has the length that it states. -/
@[simp] theorem length_bytes : (message.bytes crc32).length = message.size := by
  simp only [bytes, lead, List.length_append, length_front, length_toBe, size]
  omega

/-- A message starts with its lengths and their checksum. -/
theorem front_prefix (rest : Bytes) : message.front crc32 <+: message.bytes crc32 ++ rest := by
  rw [bytes, lead, List.append_assoc, List.append_assoc]
  exact List.prefix_append _ _

/-- What the decoder does once the lengths have arrived. -/
theorem readFrame_front (behind : Bytes) :
    readFrame crc32 serde (message.front crc32 ++ behind) =
      if maxFrame < message.size then .error "malformed AWS eventstream frame"
      else if (message.front crc32 ++ behind).length < message.size then .ok none
      else (readMessage crc32 serde (message.front crc32 ++ behind) message.size
        message.headerBytes.length).map some := by
  have arrived : ¬(message.front crc32 ++ behind).length < 12 := by
    rw [List.length_append, length_front]
    omega
  have fits : message.size < 256 ^ 4 := message.fits
  have less : message.headerBytes.length < 256 ^ 4 := by
    rw [size] at fits
    omega
  have total : fromBe (slice (message.front crc32 ++ behind) 0 4) = message.size := by
    rw [front, prelude, List.append_assoc, List.append_assoc, slice_start (length_toBe 4 _),
      fromBe_toBe fits]
  have inner : fromBe (slice (message.front crc32 ++ behind) 4 4) = message.headerBytes.length := by
    rw [front, prelude, List.append_assoc, List.append_assoc,
      slice_middle (length_toBe 4 _) (length_toBe 4 _), fromBe_toBe less]
  have summed : slice (message.front crc32 ++ behind) 0 8 = message.prelude := by
    have width : message.prelude.length = 8 := by simp [prelude]
    rw [front, List.append_assoc, slice_start width]
  have stated : fromBe (slice (message.front crc32 ++ behind) 8 4) =
      (crc32 message.prelude).toNat := by
    have width : message.prelude.length = 8 := by simp [prelude]
    rw [front, List.append_assoc, slice_middle width (length_toBe 4 _), fromBe_toBe]
    exact (crc32 message.prelude).toNat_lt
  have bounds : ¬message.size - 16 < message.headerBytes.length ∧ 16 ≤ message.size := by
    rw [size]
    omega
  rw [readFrame]
  simp only [if_neg arrived, total, inner, summed, stated]
  by_cases large : maxFrame < message.size
  · rw [if_pos large, if_pos (.inl fun within => absurd within.2 (by omega))]
    rfl
  · have within : ¬(¬(16 ≤ message.size ∧ message.size ≤ maxFrame) ∨
        message.size - 16 < message.headerBytes.length) := by
      have := bounds
      omega
    rw [if_neg large, if_neg within]
    simp only [ne_eq, not_true_eq_false, if_false]
    rfl

/-- What has arrived of a message, once that is its lengths and their checksum. -/
theorem starts_of_prefix {part rest : Bytes} (starts : part <+: message.bytes crc32 ++ rest)
    (long : 12 ≤ part.length) : ∃ behind, part = message.front crc32 ++ behind := by
  have inside := List.prefix_of_prefix_length_le (message.front_prefix crc32 rest) starts (by simpa)
  obtain ⟨behind, same⟩ := inside
  exact ⟨behind, same.symm⟩

/-- A message that has arrived whole is read. -/
theorem readMessage_bytes {value : Value} (parsed : fromSlice serde message.payload = some value)
    (rest : Bytes) : readMessage crc32 serde (message.bytes crc32 ++ rest) message.size
      message.headerBytes.length = .ok ((message.table, value), rest) := by
  have length : (message.lead crc32).length = message.size - 4 := by
    simp only [lead, List.length_append, length_front, size]
    omega
  have summed : (message.bytes crc32 ++ rest).take (message.size - 4) = message.lead crc32 := by
    rw [bytes, List.append_assoc, List.take_left' length]
  have stated : fromBe (slice (message.bytes crc32 ++ rest) (message.size - 4) 4) =
      (crc32 (message.lead crc32)).toNat := by
    rw [bytes, List.append_assoc, slice_middle length (length_toBe 4 _), fromBe_toBe]
    exact (crc32 (message.lead crc32)).toNat_lt
  have headers : slice (message.bytes crc32 ++ rest) 12 message.headerBytes.length =
      message.headerBytes := by
    rw [bytes, lead, List.append_assoc, List.append_assoc, List.append_assoc,
      slice_middle (message.length_front crc32) rfl]
  have payload : slice (message.bytes crc32 ++ rest) (12 + message.headerBytes.length)
      (message.size - 4 - (12 + message.headerBytes.length)) = message.payload := by
    have before : (message.front crc32 ++ message.headerBytes).length =
        12 + message.headerBytes.length := by
      rw [List.length_append, length_front]
    have left : message.payload.length = message.size - 4 - (12 + message.headerBytes.length) := by
      rw [size]
      omega
    rw [bytes, lead, ← List.append_assoc (message.front crc32), List.append_assoc, List.append_assoc,
      slice_middle before left]
  have behind : (message.bytes crc32 ++ rest).drop message.size = rest :=
    List.drop_left' (message.length_bytes crc32)
  rw [readMessage, summed, stated, headers, payload, behind, headerBytes,
    readHeaders_bytes message.headers ∅ (Nat.le_refl _), parsed]
  simp only [ne_eq, not_true_eq_false, if_false]
  rfl

/-- A message within the limit is read, and waited for until it is whole. -/
theorem whole {value : Value} (parsed : fromSlice serde message.payload = some value)
    (within : message.size ≤ maxFrame) :
    Whole (readFrame crc32 serde) (message.bytes crc32) (message.table, value) := by
  have small : ¬maxFrame < message.size := by omega
  constructor
  · intro empty
    have length := message.length_bytes crc32
    rw [empty, List.length_nil, size] at length
    omega
  · intro rest
    obtain ⟨behind, same⟩ := message.front_prefix crc32 rest
    have arrived : ¬(message.bytes crc32 ++ rest).length < message.size := by
      rw [List.length_append, length_bytes]
      omega
    rw [← same, readFrame_front, if_neg small, same, if_neg arrived,
      message.readMessage_bytes crc32 serde parsed]
    rfl
  · intro part starts differs
    have shorter : part.length < message.size := by
      have atMost := starts.length_le
      rw [length_bytes] at atMost
      have unequal : part.length ≠ message.size := fun same =>
        differs (starts.eq_of_length (by rw [same, length_bytes]))
      omega
    by_cases long : 12 ≤ part.length
    · have longer : part <+: message.bytes crc32 ++ [] := by simpa using starts
      obtain ⟨behind, rfl⟩ := message.starts_of_prefix crc32 longer long
      rw [readFrame_front, if_neg small, if_pos shorter]
    · rw [readFrame]
      simp only [if_pos (show part.length < 12 by omega)]
      rfl

/-- A message beyond the limit is refused once it has stated its lengths. -/
theorem refused (beyond : maxFrame < message.size) :
    Refused (readFrame crc32 serde) (message.bytes crc32) 12 := by
  constructor
  · rw [length_bytes, size]
    omega
  · intro part _ short
    rw [readFrame]
    simp only [if_pos short]
    rfl
  · intro part rest starts long
    obtain ⟨behind, rfl⟩ := message.starts_of_prefix crc32 starts long
    rw [readFrame_front, if_pos beyond]
    exact ⟨_, rfl⟩

end Message

end Aipass.Kiro
