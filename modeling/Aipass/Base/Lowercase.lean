import Aipass.Base.Text
import Mathlib.Data.String.Basic

/-!
# Lowercase texts

`str::to_lowercase` maps each character by a table of the Unicode standard, and a capital sigma by
its place in a word. The table and the places are parameters. What is relied on is that the table is
that of ASCII below 128, and that it makes letters or other characters from 128 on of those above. So
a mark of ASCII that is no letter is in the lowercase of a text where it is in the text.
-/
namespace Aipass.Text

/-- The tables of `str::to_lowercase`. -/
structure Lowercase where
  /-- `char::to_lowercase`. -/
  letter : Char → List Char
  /-- A capital sigma between two texts ends a word. -/
  final : List Char → List Char → Bool
  ascii : ∀ char : Char, char.toNat < 128 → letter char = [char.toLower]
  foreign : ∀ char : Char, 128 ≤ char.toNat → ∀ lower ∈ letter char,
    lower.isAlpha = true ∨ 128 ≤ lower.toNat

variable (table : Lowercase)

/-- The lowercase of a character between two texts. -/
def Lowercase.charBetween (before : List Char) (char : Char) (after : List Char) : List Char :=
  if char = 'Σ' then [if table.final before after then 'ς' else 'σ'] else table.letter char

/-- The lowercase of a text after another. -/
def lowercaseFrom (before : List Char) : List Char → List Char
  | [] => []
  | char :: rest => table.charBetween before char rest ++ lowercaseFrom (before ++ [char]) rest

/-- `str::to_lowercase`. -/
def lowercase (text : List Char) : List Char := lowercaseFrom table [] text

/-- A mark of ASCII: no letter. -/
def IsMark (char : Char) : Prop := char.toNat < 128 ∧ char.isAlpha = false

instance (char : Char) : Decidable (IsMark char) := inferInstanceAs (Decidable (_ ∧ _))

/-- A text of ASCII. -/
def IsAscii (text : List Char) : Prop := ∀ char ∈ text, char.toNat < 128

/-- What a test finds of each character of a text holds of each. -/
theorem forall_of_all {holds : Char → Prop} [DecidablePred holds] {text : List Char}
    (all : (text.all fun char => decide (holds char)) = true) : ∀ char ∈ text, holds char :=
  fun char listed => of_decide_eq_true (List.all_eq_true.mp all char listed)

instance (text : List Char) : Decidable (IsAscii text) :=
  decidable_of_iff ((text.all fun char => decide (char.toNat < 128)) = true)
    (by simp [IsAscii, List.all_eq_true])

/-- A character that is no capital letter is its own lowercase. -/
theorem toLower_of_not_isUpper {char : Char} (small : char.isUpper = false) :
    char.toLower = char := by
  have outside : ¬(char.val ≥ 'A'.val ∧ char.val ≤ 'Z'.val) := of_decide_eq_false small
  exact dif_neg outside

/-- A letter of ASCII has a letter as its lowercase. -/
theorem isAlpha_toLower {char : Char} (letter : char.isAlpha = true) :
    char.toLower.isAlpha = true := by
  cases upper : char.isUpper with
  | false => rwa [toLower_of_not_isUpper upper]
  | true =>
    have inside : char.val ≥ 'A'.val ∧ char.val ≤ 'Z'.val := of_decide_eq_true upper
    have lower : char.toLower.isLower = true := by
      have shifted : char.toLower.val = char.val + ('a'.val - 'A'.val) :=
        congrArg Char.val (dif_pos inside)
      change (decide (char.toLower.val ≥ 'a'.val) && decide (char.toLower.val ≤ 'z'.val)) = true
      rw [shifted, Bool.and_eq_true, decide_eq_true_eq, decide_eq_true_eq]
      simp only [ge_iff_le, UInt32.le_iff_toNat_le, UInt32.toNat_add] at inside ⊢
      have : ('a'.val - 'A'.val).toNat = 32 := by decide
      simp only [this, show 'A'.val.toNat = 65 from rfl, show 'Z'.val.toNat = 90 from rfl,
        show 'a'.val.toNat = 97 from rfl, show 'z'.val.toNat = 122 from rfl] at inside ⊢
      omega
    change (char.toLower.isUpper || char.toLower.isLower) = true
    rw [lower, Bool.or_true]

/-- What has a letter as its lowercase is a letter of ASCII. -/
theorem isAlpha_of_toLower {char : Char} (letter : char.toLower.isAlpha = true) :
    char.isAlpha = true := by
  cases upper : char.isUpper with
  | false => rwa [toLower_of_not_isUpper upper] at letter
  | true =>
    change (char.isUpper || char.isLower) = true
    rw [upper, Bool.true_or]

/-- A mark is no capital letter. -/
theorem IsMark.toLower {mark : Char} (isMark : IsMark mark) : mark.toLower = mark := by
  apply toLower_of_not_isUpper
  have noLetter : (mark.isUpper || mark.isLower) = false := isMark.2
  rw [Bool.or_eq_false_iff] at noLetter
  exact noLetter.1

/-- A mark that is not in a text of ASCII is not in its lowercase letter by letter. -/
theorem notMem_map_toLower {text : List Char} {mark : Char} (isMark : IsMark mark)
    (ascii : IsAscii text) (absent : mark ∉ text) : mark ∉ text.map Char.toLower := by
  intro listed
  obtain ⟨char, inside, lower⟩ := List.mem_map.mp listed
  by_cases letter : char.isAlpha = true
  · have noLetter := isMark.2
    rw [← lower, isAlpha_toLower letter] at noLetter
    cases noLetter
  · have same : char.toLower = char := IsMark.toLower ⟨ascii char inside, by simpa using letter⟩
    rw [same] at lower
    exact absent (lower ▸ inside)

variable {table}

/-- A character of ASCII between two texts. -/
theorem charBetween_ascii {char : Char} (ascii : char.toNat < 128) (before after : List Char) :
    table.charBetween before char after = [char.toLower] := by
  have noSigma : char ≠ 'Σ' := by
    rintro rfl
    exact absurd ascii (by decide)
  rw [Lowercase.charBetween, if_neg noSigma, table.ascii char ascii]

/-- The lowercase of a text of ASCII before another. -/
theorem lowercaseFrom_append {text : List Char} (ascii : IsAscii text) (before rest : List Char) :
    lowercaseFrom table before (text ++ rest) =
      text.map Char.toLower ++ lowercaseFrom table (before ++ text) rest := by
  induction text generalizing before with
  | nil => simp
  | cons char text ih =>
    have asciiRest : IsAscii text := fun other listed => ascii other (List.mem_cons_of_mem _ listed)
    rw [List.cons_append, lowercaseFrom, charBetween_ascii (ascii char List.mem_cons_self),
      ih asciiRest, List.map_cons, List.append_assoc, List.singleton_append, List.singleton_append,
      List.cons_append]

/-- The lowercase of a text of ASCII. -/
theorem lowercase_ascii {text : List Char} (ascii : IsAscii text) :
    lowercase table text = text.map Char.toLower := by
  have whole := @lowercaseFrom_append table text ascii [] []
  rwa [List.append_nil, lowercaseFrom, List.append_nil] at whole

/-- A letter is no mark, and neither is a character beyond ASCII. -/
theorem not_isMark {char : Char} (letter : char.isAlpha = true ∨ 128 ≤ char.toNat) : ¬IsMark char := by
  rintro ⟨ascii, noLetter⟩
  rcases letter with letter | foreign
  · rw [letter] at noLetter
    cases noLetter
  · omega

/-- A mark comes from that mark alone. -/
theorem mark_of_mem_charBetween {before after : List Char} {char mark : Char} (isMark : IsMark mark)
    (listed : mark ∈ table.charBetween before char after) : char = mark := by
  by_cases ascii : char.toNat < 128
  · rw [charBetween_ascii ascii, List.mem_singleton] at listed
    by_cases letter : char.isAlpha = true
    · exact absurd (listed ▸ isMark) (not_isMark (.inl (isAlpha_toLower letter)))
    · rw [listed, IsMark.toLower ⟨ascii, by simpa using letter⟩]
  · exfalso
    rw [Lowercase.charBetween] at listed
    split at listed
    · rw [List.mem_singleton] at listed
      refine not_isMark (.inr ?_) isMark
      rw [listed]
      split <;> decide
    · exact not_isMark (table.foreign char (by omega) mark listed) isMark

variable (table) in
/-- The lowercase of a text in two parts, of which the first has no say in the second where that is
of ASCII. -/
theorem lowercaseFrom_split (before text : List Char) (char : Char) (ascii : char.toNat < 128)
    (rest : List Char) : ∃ lower, lowercaseFrom table before (text ++ char :: rest) =
      lower ++ char.toLower :: lowercaseFrom table (before ++ text ++ [char]) rest ∧
        ∀ mark, IsMark mark → mark ∉ text → mark ∉ lower := by
  induction text generalizing before with
  | nil =>
    refine ⟨[], ?_, fun _ _ _ => List.not_mem_nil⟩
    rw [List.nil_append, lowercaseFrom, charBetween_ascii ascii, List.append_nil]
    rfl
  | cons first text ih =>
    obtain ⟨lower, same, marks⟩ := ih (before ++ [first])
    refine ⟨table.charBetween before first (text ++ char :: rest) ++ lower, ?_, ?_⟩
    · rw [List.cons_append, lowercaseFrom, same, List.append_assoc, List.append_assoc,
        List.singleton_append, List.append_assoc, List.append_assoc]
      simp
    · intro mark isMark absent
      rw [List.mem_cons, not_or] at absent
      rw [List.mem_append, not_or]
      exact ⟨fun listed => absent.1 (mark_of_mem_charBetween isMark listed).symm,
        marks mark isMark absent.2⟩

end Aipass.Text
