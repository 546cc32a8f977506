import Aipass.Base.Text
import Aipass.Values

/-!
# Decoding bytes that may be no UTF-8

The decoder keeps what it has read of a character of several bytes. A byte that cannot continue
the character replaces what was read by one replacement character and starts anew, so a line
feed is always decoded as itself, and decoding splits where lines do.
-/
namespace Aipass.Text

/-- `char::REPLACEMENT_CHARACTER`. -/
def replacement : Char := '\uFFFD'

/-- What was read of a character of several bytes. -/
structure Lead where
  /-- The bits read so far. -/
  code : ℕ
  /-- The bytes owed after the next one. -/
  owed : ℕ
  /-- The least byte that may come next. -/
  low : ℕ
  /-- The greatest byte that may come next. -/
  high : ℕ
  /-- Only a continuation byte may come next. -/
  tail : 0x80 ≤ low
  /-- No character of one byte is spelled with more of them. -/
  wide : 0x80 ≤ (code * 64 + (low - 0x80)) * 64 ^ owed

/-- The first byte of a character: the characters that are complete, and what is owed. -/
def first (byte : ℕ) : List Char × Option Lead :=
  if byte ≤ 0x7F then ([Char.ofNat byte], none)
  else if two : 0xC2 ≤ byte ∧ byte ≤ 0xDF then
    ([], some ⟨byte - 0xC0, 0, 0x80, 0xBF, Nat.le_refl _, by omega⟩)
  else if byte = 0xE0 then ([], some ⟨0, 1, 0xA0, 0xBF, by decide, by decide⟩)
  else if byte = 0xED then ([], some ⟨0xD, 1, 0x80, 0x9F, by decide, by decide⟩)
  else if three : 0xE1 ≤ byte ∧ byte ≤ 0xEF then
    ([], some ⟨byte - 0xE0, 1, 0x80, 0xBF, Nat.le_refl _, by omega⟩)
  else if byte = 0xF0 then ([], some ⟨0, 2, 0x90, 0xBF, by decide, by decide⟩)
  else if byte = 0xF4 then ([], some ⟨4, 2, 0x80, 0x8F, by decide, by decide⟩)
  else if four : 0xF1 ≤ byte ∧ byte ≤ 0xF3 then
    ([], some ⟨byte - 0xF0, 2, 0x80, 0xBF, Nat.le_refl _, by omega⟩)
  else ([replacement], none)

/-- A byte that continues a character. -/
def Lead.next (lead : Lead) (byte : ℕ) (continues : lead.low ≤ byte) :
    List Char × Option Lead :=
  let code := lead.code * 64 + (byte - 0x80)
  have grown : lead.code * 64 + (lead.low - 0x80) ≤ code := by omega
  match owed : lead.owed with
  | 0 => ([Char.ofNat code], none)
  | more + 1 =>
    ([], some ⟨code, more, 0x80, 0xBF, Nat.le_refl _, by
      have wide := lead.wide
      rw [owed, Nat.pow_succ'] at wide
      calc 0x80 ≤ (lead.code * 64 + (lead.low - 0x80)) * (64 * 64 ^ more) := wide
        _ ≤ code * (64 * 64 ^ more) := Nat.mul_le_mul_right _ grown
        _ = (code * 64 + (0x80 - 0x80)) * 64 ^ more := by rw [Nat.sub_self, Nat.add_zero,
            Nat.mul_assoc]⟩)

/-- One more byte. -/
def step : Option Lead → ℕ → List Char × Option Lead
  | none, byte => first byte
  | some lead, byte =>
    if continues : lead.low ≤ byte ∧ byte ≤ lead.high then lead.next byte continues.1
    else (replacement :: (first byte).1, (first byte).2)

/-- The end of the bytes. -/
def flush : Option Lead → List Char
  | none => []
  | some _ => [replacement]

/-- The bytes after what was read. -/
def decodeFrom (pending : Option Lead) : Bytes → List Char
  | [] => flush pending
  | byte :: rest => (step pending byte.toNat).1 ++ decodeFrom (step pending byte.toNat).2 rest

/-- `String::from_utf8_lossy`. -/
def fromUtf8Lossy (bytes : Bytes) : List Char := decodeFrom none bytes

/-- A line feed ends what was read and is decoded as itself. -/
theorem step_feed (pending : Option Lead) :
    step pending 0x0A = (flush pending ++ ['\n'], none) := by
  cases pending with
  | none => rfl
  | some lead =>
    have stops : ¬ (lead.low ≤ 0x0A ∧ 0x0A ≤ lead.high) := by
      have tail := lead.tail
      omega
    rw [step, dif_neg stops]
    rfl

/-- Decoding splits at a line feed. -/
theorem decodeFrom_append (pending : Option Lead) (line rest : Bytes) :
    decodeFrom pending (line ++ 0x0A :: rest) =
      decodeFrom pending line ++ '\n' :: fromUtf8Lossy rest := by
  induction line generalizing pending with
  | nil =>
    have feed : step pending (0x0A : UInt8).toNat = (flush pending ++ ['\n'], none) :=
      step_feed pending
    rw [List.nil_append, decodeFrom, decodeFrom, feed, List.append_assoc]
    rfl
  | cons byte line ih => simp [decodeFrom, ih]

/-- Decoding a line and what follows it. -/
theorem fromUtf8Lossy_append (line rest : Bytes) :
    fromUtf8Lossy (line ++ 0x0A :: rest) = fromUtf8Lossy line ++ '\n' :: fromUtf8Lossy rest :=
  decodeFrom_append none line rest

/-- A byte of ASCII between characters is decoded as itself. -/
theorem fromUtf8Lossy_cons {byte : UInt8} (ascii : byte.toNat ≤ 0x7F) (rest : Bytes) :
    fromUtf8Lossy (byte :: rest) = Char.ofNat byte.toNat :: fromUtf8Lossy rest := by
  simp [fromUtf8Lossy, decodeFrom, step, first, ascii]

/-- A small code is the code of its character. -/
theorem ofNat_ne_feed {code : ℕ} (other : code ≠ 0x0A) : Char.ofNat code ≠ '\n' := by
  intro same
  have codes := congrArg Char.toNat same
  by_cases valid : code.isValidChar
  · rw [Char.ofNat, dif_pos valid] at codes
    exact other codes
  · rw [Char.ofNat, dif_neg valid] at codes
    cases codes

/-- No other byte starts a line feed. -/
theorem first_no_feed {byte : ℕ} (other : byte ≠ 0x0A) : '\n' ∉ (first byte).1 := by
  have single := ofNat_ne_feed other
  simp only [first]
  (repeat' split) <;> simp [single.symm, replacement]

/-- No byte continues a character to a line feed. -/
theorem Lead.next_no_feed (lead : Lead) {byte : ℕ} (continues : lead.low ≤ byte) :
    '\n' ∉ (lead.next byte continues).1 := by
  simp only [Lead.next]
  split
  · rename_i owed
    have wide := lead.wide
    rw [owed, Nat.pow_zero, Nat.mul_one] at wide
    have other : lead.code * 64 + (byte - 0x80) ≠ 0x0A := by omega
    simpa using (ofNat_ne_feed other).symm
  · simp

/-- No other byte gives a line feed. -/
theorem step_no_feed (pending : Option Lead) {byte : ℕ} (other : byte ≠ 0x0A) :
    '\n' ∉ (step pending byte).1 := by
  cases pending with
  | none => exact first_no_feed other
  | some lead =>
    simp only [step]
    split
    · exact lead.next_no_feed _
    · have starts := first_no_feed other
      simp [starts, replacement]

/-- Only a line feed is decoded as a line feed. -/
theorem feed_not_mem_decodeFrom (pending : Option Lead) {line : Bytes} (noFeed : 0x0A ∉ line) :
    '\n' ∉ decodeFrom pending line := by
  induction line generalizing pending with
  | nil => cases pending <;> simp [decodeFrom, flush, replacement]
  | cons byte line ih =>
    simp only [List.mem_cons, not_or] at noFeed
    have other : byte.toNat ≠ 0x0A := fun same =>
      noFeed.1 (UInt8.toNat_inj.mp (same.symm.trans rfl))
    simp only [decodeFrom, List.mem_append, not_or]
    exact ⟨step_no_feed pending other, ih _ noFeed.2⟩

end Aipass.Text
