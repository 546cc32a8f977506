import Mathlib.Algebra.Group.Nat.Defs
import Mathlib.Data.Nat.Notation
import Mathlib.Data.List.Basic

/-!
# Text as the standard library splits it

A text is a list of characters. The functions here follow the string methods of the source's
standard library: trimming by Unicode white space, removing a leading text, splitting into lines
that end in a line feed with or without a carriage return, and replacing every occurrence of a
text.
-/
namespace Aipass.Text

/-- `char::is_whitespace`: the Unicode `White_Space` property. -/
def isWhitespace (char : Char) : Bool :=
  let code := char.toNat
  (9 ≤ code && code ≤ 13) || code == 0x20 || code == 0x85 || code == 0xA0 || code == 0x1680 ||
    (0x2000 ≤ code && code ≤ 0x200A) || code == 0x2028 || code == 0x2029 || code == 0x202F ||
    code == 0x205F || code == 0x3000

/-- `str::trim_start`. -/
def trimStart (text : List Char) : List Char := text.dropWhile isWhitespace

/-- `str::trim`. -/
def trim (text : List Char) : List Char := (trimStart (trimStart text).reverse).reverse

/-- `str::strip_prefix`. -/
def stripPrefix : List Char → List Char → Option (List Char)
  | [], text => some text
  | _ :: _, [] => none
  | lead :: leads, char :: rest => if lead = char then stripPrefix leads rest else none

/-- `str::split_once`: the texts before and after the first occurrence. -/
def splitOnce (sought : List Char) : List Char → Option (List Char × List Char)
  | [] => if sought = [] then some ([], []) else none
  | char :: rest =>
    match stripPrefix sought (char :: rest) with
    | some after => some ([], after)
    | none => (splitOnce sought rest).map fun parts => (char :: parts.1, parts.2)

/-- `str::rsplit_once`: the texts before and after the last occurrence. -/
def rsplitOnce (sought text : List Char) : Option (List Char × List Char) :=
  (splitOnce sought.reverse text.reverse).map fun parts => (parts.2.reverse, parts.1.reverse)

/-- `str::strip_suffix`. -/
def stripSuffix (last text : List Char) : Option (List Char) :=
  (stripPrefix last.reverse text.reverse).map List.reverse

/-- `str::trim_end_matches` of a character. -/
def trimEndMatches (last : Char) (text : List Char) : List Char :=
  (text.reverse.dropWhile fun char => char = last).reverse

/-- `str::strip_suffix` with one character, else the text itself. -/
def dropLast (last : Char) (text : List Char) : List Char :=
  if text.getLast? = some last then text.dropLast else text

/-- The lines of a text after the start of a line was read. -/
def linesFrom (current : List Char) : List Char → List (List Char)
  | [] => if current = [] then [] else [current]
  | char :: rest =>
    if char = '\n' then dropLast '\r' current :: linesFrom [] rest
    else linesFrom (current ++ [char]) rest

/-- `str::lines`. -/
def lines (text : List Char) : List (List Char) := linesFrom [] text

/-- The text after the characters of the last occurrence were skipped. -/
def replaceFrom (sought replacement : List Char) : ℕ → List Char → List Char
  | _, [] => []
  | skip + 1, _ :: rest => replaceFrom sought replacement skip rest
  | 0, char :: rest =>
    if (stripPrefix sought (char :: rest)).isSome then
      replacement ++ replaceFrom sought replacement (sought.length - 1) rest
    else char :: replaceFrom sought replacement 0 rest

/-- `str::replace`. -/
def replace (sought replacement : String) (text : String) : String :=
  String.ofList (replaceFrom sought.toList replacement.toList 0 text.toList)

/-- `str::replace` of one character. -/
def replaceChar (sought : Char) (replacement text : List Char) : List Char :=
  text.flatMap fun char => if char = sought then replacement else [char]

/-- `str::trim_start_matches`, for as many characters as are left. -/
def trimMatchesFrom (lead : List Char) : ℕ → List Char → List Char
  | 0, text => text
  | left + 1, text =>
    match stripPrefix lead text with
    | some rest => trimMatchesFrom lead left rest
    | none => text

/-- `str::trim_start_matches` of a text that is not empty. -/
def trimStartMatches (lead text : List Char) : List Char := trimMatchesFrom lead text.length text

/-- The lines of an empty text. -/
@[simp] theorem lines_nil : lines [] = [] := rfl

/-- A line read up to its line feed. -/
theorem linesFrom_append (current line rest : List Char) (noFeed : '\n' ∉ line) :
    linesFrom current (line ++ '\n' :: rest) = dropLast '\r' (current ++ line) :: lines rest := by
  induction line generalizing current with
  | nil => simp [linesFrom, lines]
  | cons char line ih =>
    simp only [List.mem_cons, not_or] at noFeed
    rw [List.cons_append, linesFrom, if_neg (Ne.symm noFeed.1), ih _ noFeed.2,
      List.append_assoc, List.singleton_append]

/-- The first line of a text. -/
theorem lines_append (line rest : List Char) (noFeed : '\n' ∉ line) :
    lines (line ++ '\n' :: rest) = dropLast '\r' line :: lines rest :=
  linesFrom_append [] line rest noFeed

/-- A text that starts with a line feed starts with an empty line. -/
@[simp] theorem lines_feed (rest : List Char) : lines ('\n' :: rest) = [] :: lines rest :=
  lines_append [] rest (List.not_mem_nil)

/-- What follows a leading text is what is left when it is removed. -/
@[simp] theorem stripPrefix_append (lead text : List Char) :
    stripPrefix lead (lead ++ text) = some text := by
  induction lead with
  | nil => rfl
  | cons char lead ih => simp [stripPrefix, ih]

/-- A text whose leading text is removed is that text and what is left. -/
theorem eq_of_stripPrefix {lead text rest : List Char} (left : stripPrefix lead text = some rest) :
    text = lead ++ rest := by
  induction lead generalizing text with
  | nil =>
    rw [stripPrefix, Option.some.injEq] at left
    rw [left, List.nil_append]
  | cons char lead ih =>
    cases text with
    | nil => simp [stripPrefix] at left
    | cons other text =>
      rw [stripPrefix] at left
      split at left
      · next same => rw [← same, ih left, List.cons_append]
      · cases left

/-- A text without a character of the lead does not start with the lead. -/
theorem stripPrefix_eq_none {lead text : List Char} (char : Char) (needed : char ∈ lead)
    (absent : char ∉ text) : stripPrefix lead text = none := by
  cases left : stripPrefix lead text with
  | none => rfl
  | some rest =>
    rw [eq_of_stripPrefix left] at absent
    exact absurd (List.mem_append_left _ needed) absent

/-- A text that does not end in a character keeps its end. -/
theorem dropLast_of_ne {last : Char} {text : List Char} (ends : text.getLast? ≠ some last) :
    dropLast last text = text := if_neg ends

/-- A text between characters that are no white space is trimmed already. -/
theorem trim_of_ends {text : List Char} {start last : Char} (starts : text.head? = some start)
    (ends : text.getLast? = some last) (solidStart : isWhitespace start = false)
    (solidLast : isWhitespace last = false) : trim text = text := by
  have front : trimStart text = text := by
    cases text with
    | nil => rfl
    | cons char rest =>
      simp only [List.head?_cons, Option.some.injEq] at starts
      subst starts
      simp [trimStart, solidStart]
  have back : trimStart text.reverse = text.reverse := by
    cases reversed : text.reverse with
    | nil => rfl
    | cons char rest =>
      have head : text.reverse.head? = some last := by rw [List.head?_reverse, ends]
      rw [reversed, List.head?_cons, Option.some.injEq] at head
      subst head
      simp [trimStart, solidLast]
  rw [trim, front, back, List.reverse_reverse]

/-- No line holds a line feed. -/
theorem notMem_linesFrom {current : List Char} (noFeed : '\n' ∉ current) (text : List Char) :
    ∀ line ∈ linesFrom current text, '\n' ∉ line := by
  induction text generalizing current with
  | nil =>
    intro line listed
    by_cases empty : current = []
    · simp [linesFrom, empty] at listed
    · rw [linesFrom, if_neg empty, List.mem_singleton] at listed
      rwa [listed]
  | cons char rest ih =>
    rw [linesFrom]
    split
    · intro line listed
      rcases List.mem_cons.mp listed with rfl | later
      · rw [dropLast]
        split
        · exact fun held => noFeed (List.dropLast_subset _ held)
        · exact noFeed
      · exact ih List.not_mem_nil line later
    · next other =>
      apply ih
      simpa [noFeed] using Ne.symm other

/-- A text without a line feed is one line. -/
theorem linesFrom_of_notMem {current text : List Char} (noFeed : '\n' ∉ text)
    (nonempty : current ++ text ≠ []) : linesFrom current text = [current ++ text] := by
  induction text generalizing current with
  | nil =>
    rw [List.append_nil] at nonempty ⊢
    rw [linesFrom, if_neg nonempty]
  | cons char rest ih =>
    simp only [List.mem_cons, not_or] at noFeed
    rw [linesFrom, if_neg (Ne.symm noFeed.1), ih noFeed.2 (by simp), List.append_assoc,
      List.singleton_append]

/-- Dropping an end keeps what stands before a text that is not empty. -/
theorem dropLast_append {last : Char} (lead : List Char) {text : List Char} (nonempty : text ≠ []) :
    dropLast last (lead ++ text) = lead ++ dropLast last text := by
  rw [dropLast, dropLast, List.getLast?_append_of_ne_nil lead nonempty]
  split
  · rw [List.dropLast_append_of_ne_nil nonempty]
  · rfl

/-- What stands before a text that starts no line of its own stands before its first line. -/
theorem lines_lead {lead : List Char} (noFeed : '\n' ∉ lead) (char : Char) (solid : char ≠ '\n')
    (text : List Char) :
    ∃ first, lines (char :: text) = first :: (lines (char :: text)).tail ∧
      lines (lead ++ char :: text) = (lead ++ first) :: (lines (char :: text)).tail := by
  by_cases feeds : '\n' ∈ text
  · obtain ⟨line, rest, rfl, before⟩ := List.eq_append_cons_of_mem feeds
    have clean : '\n' ∉ char :: line := by simpa [before] using Ne.symm solid
    have first : lines (char :: (line ++ '\n' :: rest)) =
        dropLast '\r' (char :: line) :: lines rest := lines_append (char :: line) rest clean
    refine ⟨dropLast '\r' (char :: line), by rw [first, List.tail_cons], ?_⟩
    rw [first, List.tail_cons, ← dropLast_append lead (List.cons_ne_nil _ _)]
    rw [← List.cons_append, ← List.append_assoc]
    exact lines_append _ rest (by simp [noFeed, before, Ne.symm solid])
  · have clean : '\n' ∉ char :: text := by simpa [feeds] using Ne.symm solid
    have whole : lines (char :: text) = [char :: text] := linesFrom_of_notMem clean (by simp)
    refine ⟨char :: text, by rw [whole, List.tail_cons], ?_⟩
    rw [whole, List.tail_cons]
    exact linesFrom_of_notMem (by simp [noFeed, feeds, Ne.symm solid]) (by simp)

/-- A text splits at the first of its characters that is sought. -/
theorem splitOnce_append {sought : Char} {before : List Char} (absent : sought ∉ before)
    (after : List Char) : splitOnce [sought] (before ++ sought :: after) = some (before, after) := by
  induction before with
  | nil => simp [splitOnce, stripPrefix]
  | cons char before ih =>
    simp only [List.mem_cons, not_or] at absent
    simp [splitOnce, stripPrefix, absent.1, ih absent.2]

/-- A text that splits at a character has it after a part without it. -/
theorem eq_of_splitOnce {sought : Char} {text before after : List Char}
    (splits : splitOnce [sought] text = some (before, after)) :
    text = before ++ sought :: after ∧ sought ∉ before := by
  induction text generalizing before with
  | nil => simp [splitOnce] at splits
  | cons char rest ih =>
    by_cases same : sought = char
    · subst same
      simp only [splitOnce, stripPrefix, if_true, Option.some.injEq, Prod.mk.injEq] at splits
      obtain ⟨rfl, rfl⟩ := splits
      simp
    · simp only [splitOnce, stripPrefix, if_neg same, Option.map_eq_some_iff, Prod.mk.injEq,
        Prod.exists] at splits
      obtain ⟨front, back, inner, rfl, rfl⟩ := splits
      obtain ⟨split, absent⟩ := ih inner
      exact ⟨by rw [split, List.cons_append], by simp [same, absent]⟩

/-- A text splits at what is sought where it does not occur before. -/
theorem splitOnce_first {sought before : List Char} (nonempty : sought ≠ [])
    (absent : ¬sought <:+: before ++ sought.dropLast) (after : List Char) :
    splitOnce sought (before ++ (sought ++ after)) = some (before, after) := by
  induction before with
  | nil =>
    obtain ⟨char, rest, rfl⟩ := List.exists_cons_of_ne_nil nonempty
    rw [List.nil_append, List.cons_append, splitOnce, ← List.cons_append, stripPrefix_append]
  | cons char before ih =>
    have none_ : stripPrefix sought (char :: (before ++ (sought ++ after))) = none := by
      cases left : stripPrefix sought (char :: (before ++ (sought ++ after))) with
      | none => rfl
      | some rest =>
        have starts : sought <+: (char :: before) ++ (sought ++ after) :=
          ⟨rest, (eq_of_stripPrefix left).symm⟩
        have front : (char :: before) ++ sought.dropLast <+: (char :: before) ++ (sought ++ after) :=
          (List.prefix_append_right_inj _).mpr
            ((List.dropLast_prefix sought).trans (List.prefix_append _ _))
        have short : sought.length ≤ ((char :: before) ++ sought.dropLast).length := by
          rw [List.length_append, List.length_cons, List.length_dropLast]
          omega
        exact absurd (List.prefix_of_prefix_length_le starts front short).isInfix absent
    rw [List.cons_append, splitOnce, none_, ih]
    · rfl
    · exact fun inside => absent (inside.trans (List.suffix_cons _ _).isInfix)

/-- A text splits at what is sought where it does not occur after. -/
theorem rsplitOnce_last {sought after : List Char} (nonempty : sought ≠ [])
    (absent : ¬sought <:+: sought.tail ++ after) (before : List Char) :
    rsplitOnce sought (before ++ (sought ++ after)) = some (before, after) := by
  have reversed : ¬sought.reverse <:+: after.reverse ++ sought.reverse.dropLast := by
    rwa [List.dropLast_reverse, ← List.reverse_append, List.reverse_infix]
  rw [rsplitOnce, List.reverse_append, List.reverse_append, List.append_assoc,
    splitOnce_first (by simpa using nonempty) reversed]
  simp

/-- A text without a lead keeps its start. -/
theorem trimStartMatches_of_none {lead text : List Char} (none : stripPrefix lead text = none) :
    trimStartMatches lead text = text := by
  rw [trimStartMatches]
  cases text with
  | nil => rfl
  | cons char rest => rw [List.length_cons, trimMatchesFrom, none]

/-- A lead is removed once where it does not follow itself. -/
theorem trimStartMatches_append {lead rest : List Char} (nonempty : lead ≠ [])
    (none : stripPrefix lead rest = none) : trimStartMatches lead (lead ++ rest) = rest := by
  have filled : (lead ++ rest).length ≠ 0 := by simp [nonempty]
  obtain ⟨left, length⟩ := Nat.exists_eq_succ_of_ne_zero filled
  rw [trimStartMatches, length, trimMatchesFrom, stripPrefix_append]
  change trimMatchesFrom lead left rest = rest
  cases left with
  | zero => rfl
  | succ left => rw [trimMatchesFrom, none]

/-- A blank after a trimmed text is trimmed. -/
theorem trim_append_blank {text : List Char} {start last : Char} (starts : text.head? = some start)
    (ends : text.getLast? = some last) (solidStart : isWhitespace start = false)
    (solidLast : isWhitespace last = false) : trim (text ++ [' ']) = text := by
  have whole := trim_of_ends starts ends solidStart solidLast
  have front : ∀ tail, trimStart (text ++ tail) = text ++ tail := by
    intro tail
    cases text with
    | nil => cases starts
    | cons char rest =>
      simp only [List.head?_cons, Option.some.injEq] at starts
      subst starts
      simp [trimStart, solidStart]
  have alone := front []
  rw [List.append_nil] at alone
  rw [trim, alone] at whole
  rw [trim, front, List.reverse_append, List.reverse_singleton, List.singleton_append, trimStart,
    List.dropWhile_cons_of_pos (by decide)]
  exact whole

end Aipass.Text
