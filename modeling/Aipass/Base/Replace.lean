import Mathlib.Data.List.Infix
import Mathlib.Data.List.TakeWhile
import Mathlib.Data.Nat.Notation

/-!
# Replacing words in a text

Words are replaced by a marker one after the other: each in the text that the words before it have
left. Every character carries a mark, so that what is left of a text can be told from what was put
in. Where the occurrences of words in a text share characters only if one lies in the other, the
text is cut into plain characters and the occurrences that lie in no other. Replacing words replaces
exactly these occurrences if each of them is replaced before any word that occurs in it, and no word
meets a marker that is there already.
-/
namespace Aipass.Replace

variable {α τ : Type}

/-- A text of which every character has a mark. -/
abbrev Marked (α τ : Type) := List (α × τ)

/-- The characters of a text. -/
def chars (text : Marked α τ) : List α := text.map Prod.fst

section Chars

@[simp] theorem chars_nil : chars ([] : Marked α τ) = [] := rfl

@[simp] theorem chars_cons (char : α × τ) (text : Marked α τ) :
    chars (char :: text) = char.1 :: chars text := rfl

@[simp] theorem chars_append (text more : Marked α τ) :
    chars (text ++ more) = chars text ++ chars more := List.map_append

@[simp] theorem length_chars (text : Marked α τ) : (chars text).length = text.length :=
  List.length_map _

end Chars

variable [DecidableEq α]

/-- The text after the characters of the last occurrence were skipped. -/
def replaceFrom (word : List α) (marker : Marked α τ) : ℕ → Marked α τ → Marked α τ
  | _, [] => []
  | skip + 1, _ :: rest => replaceFrom word marker skip rest
  | 0, char :: rest =>
    if word <+: chars (char :: rest) then
      marker ++ replaceFrom word marker (word.length - 1) rest
    else char :: replaceFrom word marker 0 rest

/-- A word is replaced; an empty one is not. -/
def replace (marker text : Marked α τ) (word : List α) : Marked α τ :=
  if word = [] then text else replaceFrom word marker 0 text

/-- Words are replaced one after the other. -/
def replaceAll (marker : Marked α τ) (words : List (List α)) (text : Marked α τ) : Marked α τ :=
  words.foldl (replace marker) text

/-- A text starts inside another one, or right with it. -/
def Meets (first second : List α) : Prop :=
  ∃ after ∈ first.tails, after ≠ [] ∧ (second <+: after ∨ after <+: second)

/-- A word and a marker share no characters, wherever they stand. -/
def Clear (marker word : List α) : Prop := ¬ Meets marker word ∧ ¬ Meets word marker

/-- Of two occurrences of words that share a character, one lies in the other. -/
def Nested (words : List (List α)) (text : List α) : Prop :=
  ∀ first ∈ words, ∀ second ∈ words, ∀ i < text.length, ∀ j < text.length,
    first <+: text.drop i ∧ second <+: text.drop j ∧ i ≤ j ∧ j < i + first.length →
      j + second.length ≤ i + first.length ∨ i = j

/-- A word that is not empty occurs in a text. -/
def occurs (text word : List α) : Bool := decide (word ≠ [] ∧ word <:+: text)

/-- A word is the first of those replaced that occurs in it. -/
def Leads (replaced : List (List α)) (word : List α) : Prop :=
  replaced.find? (occurs word) = some word

/-- Every occurrence of a word lies in an occurrence of one that is replaced before any other that
occurs in it. -/
def Led (replaced words : List (List α)) (text : List α) : Prop :=
  ∀ word ∈ words, ∀ i < text.length, word <+: text.drop i →
    ∃ outer ∈ words, ∃ j < i + 1, outer <+: text.drop j ∧
      i + word.length ≤ j + outer.length ∧ Leads replaced outer

/-- After the first word that occurs in a text, only words that do not meet the marker are
replaced. -/
def Tidy (marker : List α) (replaced : List (List α)) (text : List α) : Prop :=
  ∀ word ∈ (replaced.dropWhile fun word => !occurs text word).tail, word ≠ [] → Clear marker word

/-- A character belongs to an occurrence of a word. -/
def covered (words : List (List α)) (text : List α) (index : ℕ) : Bool :=
  words.any fun word => (List.range (index + 1)).any fun start =>
    decide (word <+: text.drop start) && decide (index < start + word.length)

/-- The places of the characters that belong to no occurrence of a word. -/
def uncovered (words : List (List α)) (text : List α) : List ℕ :=
  (List.range text.length).filter fun index => !covered words text index

/-- A text marked with the places of its characters. -/
def number (start : ℕ) : List α → Marked α (Option ℕ)
  | [] => []
  | char :: rest => (char, some start) :: number (start + 1) rest

/-- The places of the characters that are left of a text. -/
def survivors (text : Marked α (Option ℕ)) : List ℕ := text.filterMap Prod.snd

/-- A piece of a text. -/
inductive Piece (α τ : Type)
  | plain (char : α × τ)
  | found (text : Marked α τ)

/-- The text of a piece. -/
def Piece.text : Piece α τ → Marked α τ
  | plain char => [char]
  | found text => text

/-- The text of pieces. -/
def flat (pieces : List (Piece α τ)) : Marked α τ := pieces.flatMap Piece.text

/-- Words can be replaced in a text without disturbing each other. -/
structure Undisturbed (marker : List α) (replaced words : List (List α)) (text : List α) :
    Prop where
  nested : Nested words text
  led : Led replaced words text
  tidy : Tidy marker replaced text

/-- What is left of a piece when words have been replaced. -/
def Piece.shown (marker : Marked α τ) (words : List (List α)) : Piece α τ → Marked α τ
  | plain char => [char]
  | found text => if chars text ∈ words then marker else text

/-- What is left of pieces. -/
def shown (marker : Marked α τ) (words : List (List α)) (pieces : List (Piece α τ)) : Marked α τ :=
  pieces.flatMap (Piece.shown marker words)

/-- A piece with the marker in the place of an occurrence. -/
def Piece.hidden (marker : Marked α τ) : Piece α τ → Marked α τ
  | plain char => [char]
  | found _ => marker

/-- Pieces with the marker in the place of every occurrence. -/
def hidden (marker : Marked α τ) (pieces : List (Piece α τ)) : Marked α τ :=
  pieces.flatMap (Piece.hidden marker)

/-- A text is cut at the occurrences of words that lie in no other. -/
inductive Cut (words : List (List α)) : List (Piece α τ) → Prop
  | nil : Cut words []
  | plain {char : α × τ} {rest : List (Piece α τ)}
      (nowhere : ∀ word ∈ words, ¬ word <+: chars (char :: flat rest)) (cut : Cut words rest) :
      Cut words (.plain char :: rest)
  | found {text : Marked α τ} {rest : List (Piece α τ)} (isWord : chars text ∈ words)
      (within : ∀ before after, text = before ++ after → after ≠ [] →
        ∀ word ∈ words, word <+: chars (after ++ flat rest) → word <+: chars after)
      (cut : Cut words rest) : Cut words (.found text :: rest)

variable {marker : Marked α τ} {words done replaced : List (List α)} {word : List α}
  {pieces rest : List (Piece α τ)}

instance (first second : List α) : Decidable (Meets first second) :=
  inferInstanceAs (Decidable (∃ after ∈ first.tails, _))

instance (marker word : List α) : Decidable (Clear marker word) :=
  inferInstanceAs (Decidable (_ ∧ _))

instance (words : List (List α)) (text : List α) : Decidable (Nested words text) :=
  inferInstanceAs (Decidable (∀ first ∈ words, _))

instance (replaced : List (List α)) (word : List α) : Decidable (Leads replaced word) :=
  inferInstanceAs (Decidable (_ = _))

instance (replaced words : List (List α)) (text : List α) : Decidable (Led replaced words text) :=
  inferInstanceAs (Decidable (∀ word ∈ words, _))

instance (marker : List α) (replaced : List (List α)) (text : List α) :
    Decidable (Tidy marker replaced text) :=
  inferInstanceAs (Decidable (∀ word ∈ List.tail _, _))

/-! ## Replacing one word -/

/-- The characters of an occurrence are skipped. -/
theorem replaceFrom_skip (text more : Marked α τ) :
    replaceFrom word marker text.length (text ++ more) = replaceFrom word marker 0 more := by
  induction text with
  | nil => rfl
  | cons char text ih => exact ih

/-- An occurrence in front is replaced. -/
theorem replaceFrom_found {text more : Marked α τ} (isWord : chars text = word) (some_ : text ≠ []) :
    replaceFrom word marker 0 (text ++ more) = marker ++ replaceFrom word marker 0 more := by
  obtain ⟨char, text, rfl⟩ := List.exists_cons_of_ne_nil some_
  have here : word <+: chars (char :: (text ++ more)) := by
    rw [← isWord]
    exact ⟨chars more, by simp⟩
  have skips : word.length - 1 = text.length := by
    rw [← isWord]
    simp
  rw [List.cons_append, replaceFrom, if_pos here, skips, replaceFrom_skip]

/-- A text in which no occurrence starts is kept. -/
theorem replaceFrom_kept {text more : Marked α τ}
    (nowhere : ∀ before after, text = before ++ after → after ≠ [] →
      ¬ word <+: chars (after ++ more)) :
    replaceFrom word marker 0 (text ++ more) = text ++ replaceFrom word marker 0 more := by
  induction text with
  | nil => rfl
  | cons char text ih =>
    have notHere : ¬ word <+: chars (char :: (text ++ more)) :=
      nowhere [] (char :: text) rfl (List.cons_ne_nil _ _)
    rw [List.cons_append, replaceFrom, if_neg notHere, ih, List.cons_append]
    intro before after same some_
    exact nowhere (char :: before) after (by rw [same]; rfl) some_

/-- A word stands in front of what is left of pieces only where it stands in front of the pieces, if
it meets no marker that is there. -/
theorem prefix_shown
    (clear : ∀ text, .found text ∈ pieces → chars text ∈ done → Clear (chars marker) word)
    (front : Marked α τ) (here : word <+: chars (front ++ shown marker done pieces)) :
    word <+: chars (front ++ flat pieces) := by
  induction pieces generalizing front with
  | nil => exact here
  | cons piece rest ih =>
    have further := ih fun text inside => clear text (List.mem_cons_of_mem _ inside)
    cases piece with
    | plain char =>
      have behind := further (front ++ [char]) (by simpa [shown, Piece.shown] using here)
      simpa [flat, Piece.text] using behind
    | found text =>
      by_cases isDone : chars text ∈ done
      · rw [chars_append] at here ⊢
        by_cases short : word.length ≤ (chars front).length
        · have inside : word <+: chars front :=
            List.prefix_of_prefix_length_le here (List.prefix_append _ _) short
          exact inside.trans (List.prefix_append _ _)
        · obtain ⟨after, same⟩ : chars front <+: word :=
            List.prefix_of_prefix_length_le (List.prefix_append _ _) here (by omega)
          have nonempty : after ≠ [] := by
            rintro rfl
            rw [List.append_nil] at same
            rw [same] at short
            omega
          have behind : after <+: chars marker ++ chars (shown marker done rest) := by
            rw [← same, List.prefix_append_right_inj] at here
            simpa [shown, Piece.shown, isDone] using here
          have meets : Meets word (chars marker) :=
            ⟨after, (List.mem_tails _ _).mpr ⟨_, same⟩, nonempty,
              (List.prefix_or_prefix_of_prefix behind (List.prefix_append _ _)).symm⟩
          exact absurd meets (clear text List.mem_cons_self isDone).2
      · have behind := further (front ++ text) (by simpa [shown, Piece.shown, isDone] using here)
        simpa [flat, Piece.text] using behind

omit [DecidableEq α] in
/-- No word that meets no marker starts inside a marker. -/
theorem nowhere_in_marker (clear : Clear (chars marker) word) {before after : Marked α τ}
    (same : marker = before ++ after) (nonempty : after ≠ []) (more : Marked α τ) :
    ¬ word <+: chars (after ++ more) := by
  intro here
  rw [chars_append] at here
  have meets : Meets (chars marker) word :=
    ⟨chars after, (List.mem_tails _ _).mpr ⟨chars before, by rw [same, chars_append]⟩,
      by simpa [chars] using nonempty,
      List.prefix_or_prefix_of_prefix here (List.prefix_append _ _)⟩
  exact clear.1 meets

/-- A word is replaced in what is left of pieces. -/
theorem replaceFrom_shown (cut : Cut words pieces) (isWord : word ∈ words) (some_ : word ≠ [])
    (clear : ∀ text, .found text ∈ pieces → chars text ∈ done → Clear (chars marker) word)
    (leads : ∀ text, .found text ∈ pieces → chars text ∉ done → word <:+: chars text →
      word = chars text) :
    replaceFrom word marker 0 (shown marker done pieces) =
      shown marker (word :: done) pieces := by
  induction cut with
  | nil => rfl
  | @plain char rest nowhere cut ih =>
    have clearBehind := fun text inside => clear text (List.mem_cons_of_mem _ inside)
    have kept : replaceFrom word marker 0 ([char] ++ shown marker done rest) =
        [char] ++ replaceFrom word marker 0 (shown marker done rest) := by
      apply replaceFrom_kept
      intro before after same nonempty here
      obtain ⟨rfl, rfl⟩ : before = [] ∧ after = [char] := by
        cases before with
        | nil => exact ⟨rfl, same.symm⟩
        | cons first before => simp_all
      exact nowhere word isWord (prefix_shown clearBehind [char] here)
    rw [ih clearBehind fun text inside => leads text (List.mem_cons_of_mem _ inside)] at kept
    exact kept
  | @found text rest isFound within cut ih =>
    have clearBehind := fun text inside => clear text (List.mem_cons_of_mem _ inside)
    replace ih := ih clearBehind fun text inside => leads text (List.mem_cons_of_mem _ inside)
    by_cases isDone : chars text ∈ done
    · have kept : replaceFrom word marker 0 (marker ++ shown marker done rest) =
          marker ++ replaceFrom word marker 0 (shown marker done rest) := by
        apply replaceFrom_kept
        intro before after same nonempty
        exact nowhere_in_marker (clear text List.mem_cons_self isDone) same nonempty _
      rw [ih] at kept
      simpa [shown, Piece.shown, isDone] using kept
    · by_cases same : chars text = word
      · have nonempty : text ≠ [] := by
          rintro rfl
          exact some_ same.symm
        subst same
        have found : replaceFrom (chars text) marker 0 (text ++ shown marker done rest) =
            marker ++ replaceFrom (chars text) marker 0 (shown marker done rest) :=
          replaceFrom_found rfl nonempty
        rw [ih] at found
        simpa [shown, Piece.shown, isDone] using found
      · have kept : replaceFrom word marker 0 (text ++ shown marker done rest) =
            text ++ replaceFrom word marker 0 (shown marker done rest) := by
          apply replaceFrom_kept
          intro before after parts nonempty here
          have inside := within before after parts nonempty word isWord
            (prefix_shown clearBehind after here)
          have occurs : word <:+: chars text := by
            rw [parts, chars_append]
            exact inside.isInfix.trans (List.suffix_append _ _).isInfix
          exact same (leads text List.mem_cons_self isDone occurs).symm
        rw [ih] at kept
        simpa [shown, Piece.shown, isDone, same] using kept

/-- Before any word is replaced the pieces are the text. -/
theorem shown_nil : shown marker [] pieces = flat pieces := by
  induction pieces with
  | nil => rfl
  | cons piece rest ih =>
    cases piece <;> simp_all [shown, flat, Piece.shown, Piece.text]

/-- What is left of pieces depends only on which of those that are found have been replaced. -/
theorem shown_congr {others : List (List α)}
    (same : ∀ text : Marked α τ, .found text ∈ pieces → (chars text ∈ done ↔ chars text ∈ others)) :
    shown marker done pieces = shown marker others pieces := by
  rw [shown, shown]
  apply List.flatMap_congr
  intro piece inside
  cases piece with
  | plain char => rfl
  | found text => simp only [Piece.shown, same text inside]

/-- Once every piece that is found has been replaced, markers stand in their places. -/
theorem shown_eq_hidden (all : ∀ text : Marked α τ, .found text ∈ pieces → chars text ∈ done) :
    shown marker done pieces = hidden marker pieces := by
  rw [shown, hidden]
  apply List.flatMap_congr
  intro piece inside
  cases piece with
  | plain char => rfl
  | found text => simp only [Piece.shown, Piece.hidden, all text inside, if_true]

/-! ## Replacing words one after the other -/

/-- A word that leads is replaced. -/
theorem Leads.mem (leads : Leads replaced word) : word ∈ replaced := List.mem_of_find?_eq_some leads

/-- Until a word that leads is replaced, no other word that occurs in it is. -/
theorem Leads.eq {later : List (List α)} {other : List α}
    (leads : Leads (done ++ other :: later) word) (left : word ∉ done) (solid : other ≠ [])
    (inside : other <:+: word) : other = word := by
  rw [Leads, List.find?_append] at leads
  cases found : done.find? (occurs word) with
  | some first =>
    rw [found] at leads
    have same : first = word := Option.some.inj leads
    exact absurd (same ▸ List.mem_of_find?_eq_some found) left
  | none =>
    have here : occurs word other = true := decide_eq_true ⟨solid, inside⟩
    rw [found, List.find?_cons_of_pos here] at leads
    exact Option.some.inj leads

/-- Once a word that occurs in a text has been replaced, the words behind it do not meet the
marker. -/
theorem Tidy.clear {mark text : List α} {later : List (List α)} {other : List α}
    (tidy : Tidy mark (done ++ other :: later) text) (before : word ∈ done) (some_ : word ≠ [])
    (inside : word <:+: text) (solid : other ≠ []) : Clear mark other := by
  have here : occurs text word = true := decide_eq_true ⟨some_, inside⟩
  have stays : (done.dropWhile fun word => !occurs text word) ≠ [] := by
    rw [Ne, List.dropWhile_eq_nil_iff]
    intro none
    simpa [here] using none word before
  obtain ⟨first, rest, same⟩ := List.exists_cons_of_ne_nil stays
  refine tidy other ?_ solid
  rw [List.dropWhile_append, same]
  simp

omit [DecidableEq α] in
/-- A piece occurs in its text. -/
theorem infix_flat {text : Marked α τ} (inside : .found text ∈ pieces) :
    chars text <:+: chars (flat pieces) := by
  have part : (Piece.found text).text <:+: (pieces.map Piece.text).flatten :=
    List.infix_of_mem_flatten (List.mem_map_of_mem inside)
  exact part.map Prod.fst

omit [DecidableEq α] in
/-- The pieces that are found are words. -/
theorem Cut.isWord (cut : Cut words pieces) {text : Marked α τ} (inside : .found text ∈ pieces) :
    chars text ∈ words := by
  induction cut with
  | nil => cases inside
  | plain nowhere cut ih =>
    obtain same | inside := List.mem_cons.mp inside
    · cases same
    · exact ih inside
  | found isFound within cut ih =>
    obtain same | inside := List.mem_cons.mp inside
    · cases same
      exact isFound
    · exact ih inside

/-- Words are replaced one after the other in what is left of pieces. -/
theorem replaceAll_shown {later : List (List α)} (cut : Cut words pieces) (solid : [] ∉ words)
    (known : ∀ word ∈ later, word ≠ [] → word ∈ words)
    (leads : ∀ text, .found text ∈ pieces → Leads (done ++ later) (chars text))
    (tidy : Tidy (chars marker) (done ++ later) (chars (flat pieces))) :
    replaceAll marker later (shown marker done pieces) =
      shown marker (done ++ later) pieces := by
  induction later generalizing done with
  | nil => rw [List.append_nil]; rfl
  | cons word later ih =>
    have rest : replaceAll marker later (shown marker (done ++ [word]) pieces) =
        shown marker (done ++ word :: later) pieces := by
      rw [List.append_cons done word later] at leads tidy ⊢
      exact ih (fun other inside => known other (List.mem_cons_of_mem _ inside)) leads tidy
    have nonempty : ∀ text, .found text ∈ pieces → chars text ≠ [] := by
      intro text inside empty
      exact solid (empty ▸ cut.isWord inside)
    rw [replaceAll, List.foldl_cons, replace]
    by_cases empty : word = []
    · have same : shown marker done pieces = shown marker (done ++ [word]) pieces := by
        apply shown_congr
        intro text inside
        simp [empty, nonempty text inside]
      rw [if_pos empty, same]
      exact rest
    · have same : shown marker (word :: done) pieces = shown marker (done ++ [word]) pieces := by
        apply shown_congr
        intro text inside
        simp [or_comm]
      rw [if_neg empty, replaceFrom_shown cut (known word List.mem_cons_self empty) empty, same]
      · exact rest
      · intro text inside isDone
        exact tidy.clear isDone (nonempty text inside) (infix_flat inside) empty
      · intro text inside left occurs
        exact (leads text inside).eq left empty occurs

/-- If the occurrences at which a text is cut are led, replacing words replaces exactly these. -/
theorem replaceAll_hidden (cut : Cut words pieces) (solid : [] ∉ words)
    (known : ∀ word ∈ replaced, word ≠ [] → word ∈ words)
    (leads : ∀ text, .found text ∈ pieces → Leads replaced (chars text))
    (tidy : Tidy (chars marker) replaced (chars (flat pieces))) :
    replaceAll marker replaced (flat pieces) = hidden marker pieces := by
  have all : replaceAll marker replaced (shown marker [] pieces) =
      shown marker ([] ++ replaced) pieces := replaceAll_shown cut solid known leads tidy
  rw [shown_nil, List.nil_append] at all
  rw [all]
  exact shown_eq_hidden fun text inside => (leads text inside).mem

/-! ## Cutting a text -/

omit [DecidableEq α] in
/-- Of the words in front of a text there is a longest. -/
theorem exists_longest {text : List α} (some_ : ∃ word ∈ words, word <+: text) :
    ∃ word ∈ words, word <+: text ∧
      ∀ other ∈ words, other <+: text → other.length ≤ word.length := by
  induction words with
  | nil =>
    obtain ⟨word, inside, here⟩ := some_
    cases inside
  | cons word words ih =>
    by_cases behind : ∃ word ∈ words, word <+: text
    · obtain ⟨longest, isWord, here, most⟩ := ih behind
      by_cases longer : word <+: text ∧ longest.length ≤ word.length
      · refine ⟨word, List.mem_cons_self, longer.1, ?_⟩
        intro other inside there
        obtain rfl | inside := List.mem_cons.mp inside
        · exact le_rfl
        · exact (most other inside there).trans longer.2
      · refine ⟨longest, List.mem_cons_of_mem _ isWord, here, ?_⟩
        intro other inside there
        obtain rfl | inside := List.mem_cons.mp inside
        · by_contra more
          exact longer ⟨there, by omega⟩
        · exact most other inside there
    · obtain ⟨first, inside, here⟩ := some_
      have only : ∀ other ∈ word :: words, other <+: text → other = word := by
        intro other inside there
        obtain same | inside := List.mem_cons.mp inside
        · exact same
        · exact absurd ⟨other, inside, there⟩ behind
      refine ⟨word, List.mem_cons_self, only first inside here ▸ here, ?_⟩
      intro other inside there
      rw [only other inside there]

omit [DecidableEq α] in
/-- Behind a character the occurrences of words still lie in each other. -/
theorem Nested.drop {text : List α} (nested : Nested words text) (count : ℕ) :
    Nested words (text.drop count) := by
  intro first isFirst second isSecond i iBound j jBound
  rw [List.length_drop] at iBound jBound
  rw [List.drop_drop, List.drop_drop]
  rintro ⟨here, there, le, inside⟩
  have lies := nested first isFirst second isSecond (count + i) (by omega) (count + j) (by omega)
    ⟨here, there, by omega, by omega⟩
  omega

omit [DecidableEq α] in
/-- A text in which the occurrences of words lie in each other can be cut at them. -/
theorem exists_cut (solid : [] ∉ words) (text : Marked α τ) (nested : Nested words (chars text)) :
    ∃ pieces, flat pieces = text ∧ Cut words pieces := by
  induction size : text.length using Nat.strong_induction_on generalizing text with
  | h length ih =>
    by_cases first : ∃ word ∈ words, word <+: chars text
    · obtain ⟨word, isWord, here, most⟩ := exists_longest first
      have positive : 0 < word.length := by
        apply List.length_pos_of_ne_nil
        rintro rfl
        exact solid isWord
      have fits : word.length ≤ text.length := by
        simpa using here.length_le
      have whole : text.take word.length ++ text.drop word.length = text :=
        List.take_append_drop _ _
      have taken : chars (text.take word.length) = word := by
        rw [chars, List.map_take]
        exact (List.prefix_iff_eq_take.mp here).symm
      have dropped : chars (text.drop word.length) = (chars text).drop word.length := by
        rw [chars, List.map_drop, chars]
      obtain ⟨rest, same, cut⟩ := ih (text.drop word.length).length
        (by rw [List.length_drop]; omega) (text.drop word.length)
        (by rw [dropped]; exact nested.drop _) rfl
      refine ⟨.found (text.take word.length) :: rest, ?_, .found (by rwa [taken]) ?_ cut⟩
      · rw [flat, List.flatMap_cons, ← flat, same]
        exact whole
      · intro before after parts nonempty other isOther there
        have sizes : word.length = before.length + after.length := by
          rw [← List.length_append, ← parts, List.length_take, Nat.min_eq_left fits]
        have some_ := List.length_pos_of_ne_nil nonempty
        have behind : chars (after ++ flat rest) = (chars text).drop before.length := by
          rw [chars, chars, ← List.map_drop, ← whole, parts, same, List.append_assoc,
            List.drop_left]
        have short : other.length ≤ after.length := by
          rw [behind] at there
          have lies := nested word isWord other isOther 0 (by rw [length_chars]; omega)
            before.length (by rw [length_chars]; omega)
            ⟨here, there, Nat.zero_le _, by omega⟩
          obtain ends | starts := lies
          · omega
          · rw [← starts] at there
            have longest := most other isOther there
            omega
        rw [chars_append] at there
        exact List.prefix_of_prefix_length_le there (List.prefix_append _ _)
          (by rwa [length_chars])
    · cases text with
      | nil => exact ⟨[], rfl, .nil⟩
      | cons char text =>
        obtain ⟨rest, same, cut⟩ := ih text.length (by rw [← size]; simp) text (nested.drop 1) rfl
        refine ⟨.plain char :: rest, ?_, .plain ?_ cut⟩
        · rw [flat, List.flatMap_cons, ← flat, same]
          rfl
        · intro word isWord here
          rw [same] at here
          exact first ⟨word, isWord, here⟩

/-- No occurrence of a word that starts in the front of a text goes on behind it. -/
def Boundary (words : List (List α)) (front text : List α) : Prop :=
  ∀ word ∈ words, ∀ start < front.length, word <+: (front ++ text).drop start →
    start + word.length ≤ front.length

omit [DecidableEq α] in
/-- A character at which no word starts is followed by a boundary. -/
theorem boundary_plain {char : α × τ}
    (nowhere : ∀ word ∈ words, ¬ word <+: chars (char :: flat rest)) :
    Boundary words [char.1] (chars (flat rest)) := by
  intro word isWord start early here
  obtain rfl : start = 0 := by simpa using early
  exact absurd here (nowhere word isWord)

omit [DecidableEq α] in
/-- A piece that is found is followed by a boundary. -/
theorem boundary_found {text : Marked α τ}
    (within : ∀ before after, text = before ++ after → after ≠ [] →
      ∀ word ∈ words, word <+: chars (after ++ flat rest) → word <+: chars after) :
    Boundary words (chars text) (chars (flat rest)) := by
  intro word isWord start early here
  rw [length_chars] at early ⊢
  have behind : chars (text.drop start ++ flat rest) =
      (chars text ++ chars (flat rest)).drop start := by
    rw [← chars_append, chars, chars, ← List.map_drop,
      List.drop_append_of_le_length (Nat.le_of_lt early)]
  rw [← behind] at here
  have inside := within (text.take start) (text.drop start) (List.take_append_drop _ _).symm
    (by simpa using early) word isWord here
  have short := inside.length_le
  rw [length_chars, List.length_drop] at short
  omega

/-- Behind a boundary the occurrences of words are still led. -/
theorem Led.behind {front text : List α} (solid : [] ∉ words)
    (boundary : Boundary words front text) (led : Led replaced words (front ++ text)) :
    Led replaced words text := by
  intro word isWord i iBound here
  obtain ⟨outer, isOuter, j, le, there, ends, leads⟩ := led word isWord (front.length + i)
    (by rw [List.length_append]; omega) (by rwa [List.drop_length_add_append])
  have positive : 0 < word.length := by
    apply List.length_pos_of_ne_nil
    rintro rfl
    exact solid isWord
  have late : front.length ≤ j := by
    by_contra early
    have short := boundary outer isOuter j (by omega) there
    omega
  obtain ⟨start, rfl⟩ := Nat.exists_eq_add_of_le late
  rw [List.drop_length_add_append] at there
  exact ⟨outer, isOuter, start, by omega, there, by omega, leads⟩

/-- Where the occurrences of words are led, those at which the text is cut lead. -/
theorem Cut.leads (cut : Cut words pieces) (solid : [] ∉ words)
    (led : Led replaced words (chars (flat pieces))) {text : Marked α τ}
    (inside : .found text ∈ pieces) : Leads replaced (chars text) := by
  induction cut with
  | nil => cases inside
  | plain nowhere cut ih =>
    obtain same | inside := List.mem_cons.mp inside
    · cases same
    · exact ih (led.behind solid (boundary_plain nowhere)) inside
  | @found first rest isWord within cut ih =>
    obtain same | inside := List.mem_cons.mp inside
    · cases same
      have nonempty : text ≠ [] := by
        rintro rfl
        exact solid isWord
      have whole : chars (flat (.found text :: rest)) = chars (text ++ flat rest) := rfl
      have here : chars text <+: chars (text ++ flat rest) := by
        rw [chars_append]
        exact List.prefix_append _ _
      obtain ⟨outer, isOuter, j, first, there, ends, leads⟩ := led _ isWord 0
        (by rw [whole]; simpa using Nat.lt_add_right _ (List.length_pos_of_ne_nil nonempty)) here
      obtain rfl : j = 0 := by omega
      have inner := within [] text rfl nonempty outer isOuter there
      have same : outer = chars text := inner.eq_of_length_le (by omega)
      exact same ▸ leads
    · have parts : Led replaced words (chars first ++ chars (flat rest)) := by
        rw [← chars_append]
        exact led
      exact ih (parts.behind solid (boundary_found within)) inside

/-! ## What survives -/

omit [DecidableEq α] in
/-- The characters of a text that is marked with their places. -/
@[simp] theorem chars_number (start : ℕ) (text : List α) : chars (number start text) = text := by
  induction text generalizing start with
  | nil => rfl
  | cons char text ih => rw [number, chars_cons, ih]

omit [DecidableEq α] in
/-- The places behind the front of a text. -/
theorem number_append (start : ℕ) (text more : List α) :
    number start (text ++ more) = number start text ++ number (start + text.length) more := by
  induction text generalizing start with
  | nil => rfl
  | cons char text ih =>
    rw [List.cons_append, number, ih, number, List.length_cons, Nat.add_right_comm,
      List.cons_append]
    rfl

/-- A character belongs to an occurrence that starts before it or with it. -/
theorem covered_iff {text : List α} {index : ℕ} :
    covered words text index = true ↔ ∃ word ∈ words, ∃ start ≤ index,
      word <+: text.drop start ∧ index < start + word.length := by
  simp only [covered, List.any_eq_true, List.mem_range, Nat.lt_succ_iff, Bool.and_eq_true,
    decide_eq_true_eq]

/-- Behind a boundary the same characters belong to occurrences. -/
theorem covered_behind {front text : List α} (boundary : Boundary words front text) (index : ℕ) :
    covered words (front ++ text) (front.length + index) = covered words text index := by
  rw [Bool.eq_iff_iff, covered_iff, covered_iff]
  constructor
  · rintro ⟨word, isWord, start, le, here, inside⟩
    have late : front.length ≤ start := by
      by_contra early
      have short := boundary word isWord start (by omega) here
      omega
    obtain ⟨offset, rfl⟩ := Nat.exists_eq_add_of_le late
    rw [List.drop_length_add_append] at here
    exact ⟨word, isWord, offset, by omega, here, by omega⟩
  · rintro ⟨word, isWord, start, le, here, inside⟩
    refine ⟨word, isWord, front.length + start, by omega, ?_, by omega⟩
    rwa [List.drop_length_add_append]

/-- The places of the characters that belong to no occurrence, in front of a boundary and behind
it. -/
theorem uncovered_append {front text : List α} (boundary : Boundary words front text) :
    uncovered words (front ++ text) =
      ((List.range front.length).filter fun index => !covered words (front ++ text) index) ++
        (uncovered words text).map (front.length + ·) := by
  rw [uncovered, List.length_append, List.range_add, List.filter_append, List.filter_map, uncovered]
  congr 3
  funext index
  rw [Function.comp_apply, covered_behind boundary]

omit [DecidableEq α] in
/-- A part of a text that is marked with places is marked with its places. -/
theorem eq_number {front more : Marked α (Option ℕ)} {text : List α} {start : ℕ}
    (same : front ++ more = number start text) :
    front = number start (chars front) ∧
      more = number (start + (chars front).length) (chars more) := by
  have parts : text = chars front ++ chars more := by
    rw [← chars_append, same, chars_number]
  rw [parts, number_append] at same
  apply List.append_inj same
  rw [← length_chars front, ← length_chars (number _ _), chars_number]

/-- The characters that are left where the occurrences are hidden are those that belong to none. -/
theorem survivors_hidden {start : ℕ} {marker : Marked α (Option ℕ)}
    {pieces : List (Piece α (Option ℕ))} (cut : Cut words pieces)
    (marked : flat pieces = number start (chars (flat pieces)))
    (unmarked : survivors marker = []) :
    survivors (hidden marker pieces) =
      (uncovered words (chars (flat pieces))).map (start + ·) := by
  induction cut generalizing start with
  | nil => rfl
  | @plain char rest nowhere cut ih =>
    obtain ⟨front, behind⟩ : [char] = number start [char.1] ∧
        flat rest = number (start + 1) (chars (flat rest)) := eq_number marked
    have place : char.2 = some start := congrArg Prod.snd (List.cons.inj front).1
    have free : covered words (char.1 :: chars (flat rest)) 0 = false := by
      rw [Bool.eq_false_iff, Ne, covered_iff]
      rintro ⟨word, isWord, first, le, here, inside⟩
      obtain rfl : first = 0 := by omega
      exact nowhere word isWord here
    calc survivors (hidden marker (.plain char :: rest))
        = start :: survivors (hidden marker rest) := by
          simp [survivors, hidden, Piece.hidden, place]
      _ = start :: (uncovered words (chars (flat rest))).map (start + 1 + ·) := by rw [ih behind]
      _ = (uncovered words ([char.1] ++ chars (flat rest))).map (start + ·) := by
          rw [uncovered_append (boundary_plain nowhere)]
          simp [free, Function.comp_def, Nat.add_assoc]
  | @found text rest isWord within cut ih =>
    obtain ⟨front, behind⟩ : text = number start (chars text) ∧
        flat rest = number (start + (chars text).length) (chars (flat rest)) := eq_number marked
    have gone : (List.range (chars text).length).filter
        (fun index => !covered words (chars text ++ chars (flat rest)) index) = [] := by
      rw [List.filter_eq_nil_iff]
      intro index inside
      have early := List.mem_range.mp inside
      have inOccurrence : covered words (chars text ++ chars (flat rest)) index = true :=
        covered_iff.mpr ⟨chars text, isWord, 0, Nat.zero_le _, List.prefix_append _ _, by omega⟩
      simp [inOccurrence]
    calc survivors (hidden marker (.found text :: rest))
        = survivors marker ++ survivors (hidden marker rest) := by
          simp [survivors, hidden, Piece.hidden]
      _ = (uncovered words (chars (flat rest))).map (start + (chars text).length + ·) := by
          rw [unmarked, List.nil_append, ih behind]
      _ = (uncovered words (chars text ++ chars (flat rest))).map (start + ·) := by
          rw [uncovered_append (boundary_found within), gone]
          simp [Function.comp_def, Nat.add_assoc]
      _ = (uncovered words (chars (flat (.found text :: rest)))).map (start + ·) := by
          rw [← chars_append]
          rfl

/-! ## Replacing undisturbed -/

namespace Undisturbed

variable {others : List (List α)} {text : List α}

/-- If words can be replaced undisturbed, the characters left are those that belong to none. -/
theorem survivors_replaceAll {marker : Marked α (Option ℕ)}
    (undisturbed : Undisturbed (chars marker) replaced words text) (solid : [] ∉ words)
    (known : ∀ word ∈ replaced, word ≠ [] → word ∈ words) (unmarked : survivors marker = []) :
    survivors (replaceAll marker replaced (number 0 text)) = uncovered words text := by
  obtain ⟨pieces, same, cut⟩ := exists_cut solid (number 0 text)
    (by rw [chars_number]; exact undisturbed.nested)
  have whole : chars (flat pieces) = text := by rw [same, chars_number]
  have replacing : replaceAll marker replaced (flat pieces) = hidden marker pieces :=
    replaceAll_hidden cut solid known
      (fun _ inside => cut.leads solid (by rw [whole]; exact undisturbed.led) inside)
      (by rw [whole]; exact undisturbed.tidy)
  have left : survivors (hidden marker pieces) =
      (uncovered words (chars (flat pieces))).map (0 + ·) :=
    survivors_hidden cut (by rw [whole, same]) unmarked
  rw [← same, replacing, left, whole]
  simp

/-- If words can be replaced undisturbed in two orders, both leave the same. -/
theorem replaceAll_eq {marker text : Marked α τ}
    (undisturbed : Undisturbed (chars marker) replaced words (chars text))
    (other : Undisturbed (chars marker) others words (chars text)) (solid : [] ∉ words)
    (known : ∀ word ∈ replaced, word ≠ [] → word ∈ words)
    (knownOthers : ∀ word ∈ others, word ≠ [] → word ∈ words) :
    replaceAll marker replaced text = replaceAll marker others text := by
  obtain ⟨pieces, rfl, cut⟩ := exists_cut solid text undisturbed.nested
  rw [replaceAll_hidden cut solid known (fun _ => cut.leads solid undisturbed.led)
      undisturbed.tidy,
    replaceAll_hidden cut solid knownOthers (fun _ => cut.leads solid other.led) other.tidy]

end Undisturbed

end Aipass.Replace
