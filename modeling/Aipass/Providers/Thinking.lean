import Aipass.Base.Held

/-!
# The splitter of thinking tags

Asked to think, Kiro puts its reasoning between two tags at the start of the reply, and the reply
arrives in pieces that may cut a tag anywhere. The splitter keeps the end of the reply it cannot
tell yet. Fed everything at once, it tells the section and the remainder without the line breaks
after the tags; fed in pieces, it tells the same unless a piece ends right after a tag and the
next one goes on with a line break.
-/
namespace Aipass.Kiro

open Aipass.Text

/-- `Thinking::state`. -/
inductive Stage
  /-- State 0: the opening tag may still come. -/
  | seeking
  /-- State 1: inside the section. -/
  | thinking
  /-- State 2: everything else is the answer. -/
  | answering
deriving DecidableEq

/-- `Thinking`. -/
structure Thinking where
  state : Stage := .seeking
  buffer : List Char := []
deriving DecidableEq

/-- The tag that opens the section. -/
def openTag : List Char := "<thinking>".toList

/-- The tag that closes the section. -/
def closeTag : List Char := "</thinking>".toList

/-- The characters trimmed after a tag. -/
def isBreak (char : Char) : Bool := char == '\r' || char == '\n'

/-- `trim_start_matches(['\r', '\n'])`. -/
def trimBreaks (text : List Char) : List Char := text.dropWhile isBreak

/-- A piece of the section or, if not, of the answer; an empty one is not pushed. -/
def piece (thinking : Bool) (text : List Char) : List (Bool × List Char) :=
  if text = [] then [] else [(thinking, text)]

namespace Thinking

/-- The look for the opening tag; `none` where more has to arrive first. -/
def seek (self : Thinking) : Option Thinking :=
  if self.state = .seeking then
    match stripPrefix openTag (trimStart self.buffer) with
    | some rest => some { state := .thinking, buffer := trimBreaks rest }
    | none =>
      if (trimStart self.buffer).isPrefixOf openTag then none
      else some { self with state := .answering }
  else some self

/-- The rest of `feed`, behind the look for the opening tag. -/
def split (self : Thinking) : Thinking × List (Bool × List Char) :=
  if self.state = .thinking then
    match splitOnce closeTag self.buffer with
    | some (section_, rest) =>
      ({ state := .answering }, piece true section_ ++ piece false (trimBreaks rest))
    | none =>
      ({ self with buffer := heldBack closeTag self.buffer },
        piece true (released closeTag self.buffer))
  else ({ self with buffer := [] }, piece false self.buffer)

/-- `Thinking::feed`. -/
def feed (self : Thinking) (text : List Char) : Thinking × List (Bool × List Char) :=
  let self := { self with buffer := self.buffer ++ text }
  match self.seek with
  | none => (self, [])
  | some self => self.split

/-- `feed` for one piece after another. -/
def feedAll : Thinking → List (List Char) → Thinking × List (Bool × List Char)
  | self, [] => (self, [])
  | self, text :: rest =>
    let next := self.feed text
    let last := feedAll next.1 rest
    (last.1, next.2 ++ last.2)

end Thinking

/-- The concatenated section of what was told. -/
def thoughts (told : List (Bool × List Char)) : List Char :=
  (told.filter (·.1)).flatMap (·.2)

/-- The concatenated answer of what was told. -/
def answer (told : List (Bool × List Char)) : List Char :=
  (told.filter (!·.1)).flatMap (·.2)

/-- The section of a reply, the remainder, and whether the section stays open. -/
structure Reply where
  section_ : List Char := []
  remainder : List Char := []
  unclosed : Bool := false
deriving DecidableEq

/-- What a reply says: the text between the tags it starts with and the text behind them, each
without the line breaks after its tag. A reply without an opening tag is all remainder, and one
that may still become an opening tag says nothing. Of a section without a closing tag, the end
that may still become one is left out. -/
def Reply.of (text : List Char) : Reply :=
  match stripPrefix openTag (trimStart text) with
  | some rest =>
    match splitOnce closeTag (trimBreaks rest) with
    | some (section_, behind) => { section_ := section_, remainder := trimBreaks behind }
    | none => { section_ := released closeTag (trimBreaks rest), unclosed := true }
  | none => if (trimStart text).isPrefixOf openTag then {} else { remainder := text }

/-- A text that ends with a tag of the section or the line breaks after it. -/
def AtTag (text : List Char) : Prop :=
  ∃ rest, stripPrefix openTag (trimStart text) = some rest ∧
    (trimBreaks rest = [] ∨
      ∃ section_ behind, splitOnce closeTag (trimBreaks rest) = some (section_, behind) ∧
        trimBreaks behind = [])

/-- A text that goes on with a line break. -/
def GoesOn (text : List Char) : Prop := ∃ char rest, text = char :: rest ∧ isBreak char = true

/-- A cut of a reply between a tag and a line break after it. -/
def Torn (pieces : List (List Char)) : Prop :=
  ∃ before after, pieces = before ++ after ∧ AtTag before.flatten ∧ GoesOn after.flatten

/-- The state of the splitter after a reply fed at once. -/
def Thinking.after (text : List Char) : Thinking :=
  match stripPrefix openTag (trimStart text) with
  | some rest =>
    match splitOnce closeTag (trimBreaks rest) with
    | some _ => { state := .answering }
    | none => { state := .thinking, buffer := heldBack closeTag (trimBreaks rest) }
  | none =>
    if (trimStart text).isPrefixOf openTag then { buffer := text } else { state := .answering }

/-- How a reply starts: with an opening tag, with what may become one, or with neither. -/
inductive Start (text : List Char) : Prop
  /-- More has to arrive. -/
  | seeking (none_ : stripPrefix openTag (trimStart text) = none)
    (may : (trimStart text).isPrefixOf openTag = true)
  /-- There is no opening tag. -/
  | plain (none_ : stripPrefix openTag (trimStart text) = none)
    (mayNot : (trimStart text).isPrefixOf openTag = false)
  /-- The section is open. -/
  | open_ (rest : List Char) (opened : stripPrefix openTag (trimStart text) = some rest)
    (unclosed : splitOnce closeTag (trimBreaks rest) = none)
  /-- The section is closed. -/
  | closed (rest section_ behind : List Char)
    (opened : stripPrefix openTag (trimStart text) = some rest)
    (closes : splitOnce closeTag (trimBreaks rest) = some (section_, behind))

/-- Every reply starts in one of these ways. -/
theorem start (text : List Char) : Start text := by
  cases opened : stripPrefix openTag (trimStart text) with
  | none =>
    cases may : (trimStart text).isPrefixOf openTag with
    | true => exact .seeking opened may
    | false => exact .plain opened may
  | some rest =>
    cases closes : splitOnce closeTag (trimBreaks rest) with
    | none => exact .open_ rest opened closes
    | some parts => exact .closed rest parts.1 parts.2 opened closes

/-- What follows a text that is not all white space stays behind it when the text is trimmed. -/
theorem trimStart_append {text : List Char} (solid : trimStart text ≠ []) (more : List Char) :
    trimStart (text ++ more) = trimStart text ++ more := by
  rw [trimStart, List.dropWhile_append]
  split
  · next blank => exact absurd (List.isEmpty_iff.mp blank) solid
  · rfl

/-- What follows a text stays behind it when its line breaks are trimmed, unless that is all
breaks and goes on with one. -/
theorem trimBreaks_append {text more : List Char} (apart : trimBreaks text = [] → ¬GoesOn more) :
    trimBreaks (text ++ more) = trimBreaks text ++ more := by
  rw [trimBreaks, List.dropWhile_append]
  split
  · next blank =>
    have none_ : trimBreaks text = [] := List.isEmpty_iff.mp blank
    rw [none_, List.nil_append]
    cases more with
    | nil => rfl
    | cons char rest =>
      have solid : isBreak char = false := by
        cases break_ : isBreak char with
        | false => rfl
        | true => exact absurd ⟨char, rest, rfl, break_⟩ (apart none_)
      rw [List.dropWhile_cons, if_neg (by simp [solid])]
  · rfl

/-- A text without leading breaks does not start with one. -/
theorem not_goesOn_trimBreaks (text : List Char) : ¬GoesOn (trimBreaks text) := by
  rintro ⟨char, rest, same, break_⟩
  have head := List.head?_dropWhile_not isBreak text
  rw [← trimBreaks, same, List.head?_cons] at head
  simp [break_] at head

section Told

variable (first second : List (Bool × List Char)) (text : List Char)

/-- The section in two parts of what was told. -/
@[simp] theorem thoughts_append : thoughts (first ++ second) = thoughts first ++ thoughts second := by
  simp [thoughts]

/-- The answer in two parts of what was told. -/
@[simp] theorem answer_append : answer (first ++ second) = answer first ++ answer second := by
  simp [answer]

/-- Nothing told is no section. -/
@[simp] theorem thoughts_nil : thoughts [] = [] := rfl

/-- Nothing told is no answer. -/
@[simp] theorem answer_nil : answer [] = [] := rfl

/-- A piece of the section. -/
@[simp] theorem thoughts_piece_true : thoughts (piece true text) = text := by
  by_cases empty : text = [] <;> simp [piece, thoughts, empty]

/-- A piece of the section is none of the answer. -/
@[simp] theorem answer_piece_true : answer (piece true text) = [] := by
  by_cases empty : text = [] <;> simp [piece, answer, empty]

/-- A piece of the answer is none of the section. -/
@[simp] theorem thoughts_piece_false : thoughts (piece false text) = [] := by
  by_cases empty : text = [] <;> simp [piece, thoughts, empty]

/-- A piece of the answer. -/
@[simp] theorem answer_piece_false : answer (piece false text) = text := by
  by_cases empty : text = [] <;> simp [piece, answer, empty]

end Told

/-- A splitter that has fed on one text is, after another, where feeding on both leads, and has told
what the two say beyond what the first one says. -/
structure Thinking.Continues (text more : List Char) : Prop where
  state : ((after text).feed more).1 = after (text ++ more)
  section_ : (Reply.of (text ++ more)).section_ =
    (Reply.of text).section_ ++ thoughts ((after text).feed more).2
  remainder : (Reply.of (text ++ more)).remainder =
    (Reply.of text).remainder ++ answer ((after text).feed more).2

/-- An opening tag stays one when more arrives. -/
theorem opened_append {text rest : List Char}
    (opened : stripPrefix openTag (trimStart text) = some rest) (more : List Char) :
    stripPrefix openTag (trimStart (text ++ more)) = some (rest ++ more) := by
  have solid : trimStart text ≠ [] := by
    intro blank
    rw [blank] at opened
    cases opened
  rw [trimStart_append solid, stripPrefix_more opened]

section Starts

variable {text rest section_ behind : List Char}

/-- The state after a reply that may still start with a tag. -/
theorem Thinking.after_seeking (none_ : stripPrefix openTag (trimStart text) = none)
    (may : (trimStart text).isPrefixOf openTag = true) : after text = { buffer := text } := by
  rw [after, none_]
  exact if_pos may

/-- A reply that may still start with a tag. -/
theorem Reply.of_seeking (none_ : stripPrefix openTag (trimStart text) = none)
    (may : (trimStart text).isPrefixOf openTag = true) : Reply.of text = {} := by
  rw [Reply.of, none_]
  exact if_pos may

/-- The state after a reply without an opening tag. -/
theorem Thinking.after_plain (none_ : stripPrefix openTag (trimStart text) = none)
    (mayNot : (trimStart text).isPrefixOf openTag = false) : after text = { state := .answering } := by
  rw [after, none_]
  exact if_neg (by simp [mayNot])

/-- A reply without an opening tag. -/
theorem Reply.of_plain (none_ : stripPrefix openTag (trimStart text) = none)
    (mayNot : (trimStart text).isPrefixOf openTag = false) : Reply.of text = { remainder := text } := by
  rw [Reply.of, none_]
  exact if_neg (by simp [mayNot])

/-- The state after a reply with an open section. -/
theorem Thinking.after_open (opened : stripPrefix openTag (trimStart text) = some rest)
    (unclosed : splitOnce closeTag (trimBreaks rest) = none) :
    after text = { state := .thinking, buffer := heldBack closeTag (trimBreaks rest) } := by
  simp only [after, opened, unclosed]

/-- A reply with an open section. -/
theorem Reply.of_open (opened : stripPrefix openTag (trimStart text) = some rest)
    (unclosed : splitOnce closeTag (trimBreaks rest) = none) :
    Reply.of text = { section_ := released closeTag (trimBreaks rest), unclosed := true } := by
  simp only [Reply.of, opened, unclosed]

/-- The state after a reply with a closed section. -/
theorem Thinking.after_closed (opened : stripPrefix openTag (trimStart text) = some rest)
    (closes : splitOnce closeTag (trimBreaks rest) = some (section_, behind)) :
    after text = { state := .answering } := by
  simp only [after, opened, closes]

/-- A reply with a closed section. -/
theorem Reply.of_closed (opened : stripPrefix openTag (trimStart text) = some rest)
    (closes : splitOnce closeTag (trimBreaks rest) = some (section_, behind)) :
    Reply.of text = { section_ := section_, remainder := trimBreaks behind } := by
  simp only [Reply.of, opened, closes]

/-- Behind the section everything is answer. -/
theorem Thinking.feed_answering (more : List Char) :
    feed { state := .answering } more = ({ state := .answering }, piece false more) := rfl

/-- Inside the section the closing tag is looked for. -/
theorem Thinking.feed_thinking (kept more : List Char) :
    feed { state := .thinking, buffer := kept } more =
      split { state := .thinking, buffer := kept ++ more } := rfl

/-- The closing tag is not there yet. -/
theorem Thinking.split_none (unclosed : splitOnce closeTag text = none) :
    split { state := .thinking, buffer := text } =
      ({ state := .thinking, buffer := heldBack closeTag text },
        piece true (released closeTag text)) := by
  simp only [split, unclosed, if_true]

/-- The closing tag is there. -/
theorem Thinking.split_some (closes : splitOnce closeTag text = some (section_, behind)) :
    split { state := .thinking, buffer := text } =
      ({ state := .answering }, piece true section_ ++ piece false (trimBreaks behind)) := by
  simp only [split, closes, if_true]

/-- The splitter fed everything at once tells what the reply says. -/
theorem Thinking.feed_start (text : List Char) :
    (({} : Thinking).feed text).1 = after text ∧
      thoughts (({} : Thinking).feed text).2 = (Reply.of text).section_ ∧
      answer (({} : Thinking).feed text).2 = (Reply.of text).remainder := by
  cases start text with
  | seeking none_ may => simp [feed, seek, after_seeking, Reply.of_seeking, none_, may]
  | plain none_ mayNot => simp [feed, seek, split, after_plain, Reply.of_plain, none_, mayNot]
  | open_ rest opened unclosed =>
    rw [after_open opened unclosed, Reply.of_open opened unclosed]
    simp [feed, seek, opened, split_none unclosed]
  | closed rest section_ behind opened closes =>
    rw [after_closed opened closes, Reply.of_closed opened closes]
    simp [feed, seek, opened, split_some closes]

/-- A splitter that seeks the opening tag has everything left to look at. -/
theorem Thinking.continues_seeking (none_ : stripPrefix openTag (trimStart text) = none)
    (may : (trimStart text).isPrefixOf openTag = true) (more : List Char) :
    Thinking.Continues text more := by
  have same : (after text).feed more = ({} : Thinking).feed (text ++ more) := by
    rw [after_seeking none_ may]
    rfl
  have whole := feed_start (text ++ more)
  have reply := Reply.of_seeking none_ may
  refine ⟨?_, ?_, ?_⟩
  · rw [same, whole.1]
  · rw [same, whole.2.1, reply]
    rfl
  · rw [same, whole.2.2, reply]
    rfl

/-- A reply without an opening tag has none when more arrives. -/
theorem plain_append (none_ : stripPrefix openTag (trimStart text) = none)
    (mayNot : (trimStart text).isPrefixOf openTag = false) (more : List Char) :
    stripPrefix openTag (trimStart (text ++ more)) = none ∧
      (trimStart (text ++ more)).isPrefixOf openTag = false := by
  have solid : trimStart text ≠ [] := by
    intro blank
    rw [blank] at mayNot
    cases mayNot
  have unrelated : ¬trimStart text <+: openTag := by
    intro start
    rw [← List.isPrefixOf_iff_prefix, mayNot] at start
    cases start
  rw [trimStart_append solid]
  constructor
  · cases left : stripPrefix openTag (trimStart text ++ more) with
    | none => rfl
    | some rest =>
      have leads : openTag <+: trimStart text ++ more := ⟨rest, (eq_of_stripPrefix left).symm⟩
      rcases Nat.le_total openTag.length (trimStart text).length with long | short
      · obtain ⟨behind, same⟩ :=
          List.prefix_of_prefix_length_le leads (List.prefix_append _ _) long
        rw [← same, stripPrefix_append] at none_
        cases none_
      · exact absurd (List.prefix_of_prefix_length_le (List.prefix_append _ _) leads short) unrelated
  · rw [Bool.eq_false_iff, ne_eq, List.isPrefixOf_iff_prefix]
    exact fun start => unrelated ((List.prefix_append _ _).trans start)

/-- A reply without an opening tag goes on as answer. -/
theorem Thinking.continues_plain (none_ : stripPrefix openTag (trimStart text) = none)
    (mayNot : (trimStart text).isPrefixOf openTag = false) (more : List Char) :
    Thinking.Continues text more := by
  obtain ⟨noneMore, mayNotMore⟩ := plain_append none_ mayNot more
  have state := after_plain none_ mayNot
  have reply := Reply.of_plain none_ mayNot
  have replyMore := Reply.of_plain noneMore mayNotMore
  refine ⟨?_, ?_, ?_⟩
  · rw [state, feed_answering, after_plain noneMore mayNotMore]
  · rw [state, feed_answering, reply, replyMore, thoughts_piece_false]
    rfl
  · rw [state, feed_answering, reply, replyMore, answer_piece_false]

/-- A section that is open goes on, and may close. -/
theorem Thinking.continues_open {more : List Char}
    (opened : stripPrefix openTag (trimStart text) = some rest)
    (unclosed : splitOnce closeTag (trimBreaks rest) = none)
    (apart : trimBreaks rest = [] → ¬GoesOn more) : Thinking.Continues text more := by
  have openedMore := opened_append opened more
  have breaks := trimBreaks_append apart
  have state := after_open opened unclosed
  have reply := Reply.of_open opened unclosed
  have looks := splitOnce_held unclosed more
  cases found : splitOnce closeTag (heldBack closeTag (trimBreaks rest) ++ more) with
  | none =>
    have unclosedMore : splitOnce closeTag (trimBreaks (rest ++ more)) = none := by
      rw [breaks, looks, found, Option.map_none]
    have replyMore := Reply.of_open openedMore unclosedMore
    refine ⟨?_, ?_, ?_⟩
    · rw [state, feed_thinking, split_none found, after_open openedMore unclosedMore, breaks,
        heldBack_append closeTag (trimBreaks rest) more]
    · rw [state, feed_thinking, split_none found, reply, replyMore, breaks, thoughts_piece_true]
      exact released_append closeTag (trimBreaks rest) more
    · rw [state, feed_thinking, split_none found, reply, replyMore, answer_piece_true]
      rfl
  | some parts =>
    have closesMore : splitOnce closeTag (trimBreaks (rest ++ more)) =
        some (released closeTag (trimBreaks rest) ++ parts.1, parts.2) := by
      rw [breaks, looks, found, Option.map_some]
    have replyMore := Reply.of_closed openedMore closesMore
    refine ⟨?_, ?_, ?_⟩
    · rw [state, feed_thinking, split_some found, after_closed openedMore closesMore]
    · rw [state, feed_thinking, split_some found, reply, replyMore]
      simp
    · rw [state, feed_thinking, split_some found, reply, replyMore]
      simp

/-- A reply goes on as answer behind a section that is closed. -/
theorem Thinking.continues_closed {more : List Char}
    (opened : stripPrefix openTag (trimStart text) = some rest)
    (closes : splitOnce closeTag (trimBreaks rest) = some (section_, behind))
    (apart : trimBreaks behind = [] → ¬GoesOn more) : Thinking.Continues text more := by
  have openedMore := opened_append opened more
  have filled : trimBreaks rest ≠ [] := by
    intro empty
    rw [empty] at closes
    cases closes
  have closesMore : splitOnce closeTag (trimBreaks (rest ++ more)) =
      some (section_, behind ++ more) := by
    rw [trimBreaks_append fun empty => absurd empty filled, splitOnce_more closes]
  have state := after_closed opened closes
  have reply := Reply.of_closed opened closes
  have replyMore := Reply.of_closed openedMore closesMore
  refine ⟨?_, ?_, ?_⟩
  · rw [state, feed_answering, after_closed openedMore closesMore]
  · rw [state, feed_answering, reply, replyMore, thoughts_piece_false, List.append_nil]
  · rw [state, feed_answering, reply, replyMore, answer_piece_false, trimBreaks_append apart]

end Starts

/-- Feeding goes on as if everything had come at once, unless the cut stands between a tag and a
line break behind it. -/
theorem Thinking.continues {text more : List Char} (untorn : ¬(AtTag text ∧ GoesOn more)) :
    Thinking.Continues text more := by
  cases start text with
  | seeking none_ may => exact continues_seeking none_ may more
  | plain none_ mayNot => exact continues_plain none_ mayNot more
  | open_ rest opened unclosed =>
    apply continues_open opened unclosed
    intro empty goesOn
    exact untorn ⟨⟨rest, opened, .inl empty⟩, goesOn⟩
  | closed rest section_ behind opened closes =>
    apply continues_closed opened closes
    intro empty goesOn
    exact untorn ⟨⟨rest, opened, .inr ⟨section_, behind, closes, empty⟩⟩, goesOn⟩

/-- Behind a text, a cut of what follows stands between a tag and a line break behind it. -/
def TornAfter (text : List Char) (pieces : List (List Char)) : Prop :=
  ∃ before after, pieces = before ++ after ∧ AtTag (text ++ before.flatten) ∧ GoesOn after.flatten

/-- A torn reply is torn behind nothing. -/
theorem torn_iff {pieces : List (List Char)} : Torn pieces ↔ TornAfter [] pieces := Iff.rfl

/-- The text in a first piece goes on as all pieces do. -/
theorem goesOn_append {first : List Char} (goesOn : GoesOn first) (rest : List Char) :
    GoesOn (first ++ rest) := by
  obtain ⟨char, others, rfl, break_⟩ := goesOn
  exact ⟨char, others ++ rest, rfl, break_⟩

/-- A splitter fed piece after piece has told what the whole reply says beyond the text before. -/
structure Thinking.Tells (text : List Char) (pieces : List (List Char)) : Prop where
  section_ : (Reply.of (text ++ pieces.flatten)).section_ =
    (Reply.of text).section_ ++ thoughts ((after text).feedAll pieces).2
  remainder : (Reply.of (text ++ pieces.flatten)).remainder =
    (Reply.of text).remainder ++ answer ((after text).feedAll pieces).2

/-- What is told by one piece and by the others is told by all. -/
theorem Thinking.tells_cons_iff {text piece : List Char} {pieces : List (List Char)}
    (continues : Continues text piece) :
    Tells text (piece :: pieces) ↔ Tells (text ++ piece) pieces := by
  have whole : text ++ (piece :: pieces).flatten = text ++ piece ++ pieces.flatten := by simp
  have told : ((after text).feedAll (piece :: pieces)).2 =
      ((after text).feed piece).2 ++ ((after (text ++ piece)).feedAll pieces).2 := by
    rw [feedAll, continues.state]
  constructor
  · intro tells
    have section_ := tells.section_
    have remainder := tells.remainder
    rw [whole, told, thoughts_append, ← List.append_assoc, ← continues.section_] at section_
    rw [whole, told, answer_append, ← List.append_assoc, ← continues.remainder] at remainder
    exact ⟨section_, remainder⟩
  · intro tells
    constructor
    · rw [whole, told, thoughts_append, ← List.append_assoc, ← continues.section_, tells.section_]
    · rw [whole, told, answer_append, ← List.append_assoc, ← continues.remainder, tells.remainder]

/-- A text that does not go on with a break has no beginning that does. -/
theorem not_goesOn_of_prefix {first text : List Char} (starts : first <+: text)
    (solid : ¬GoesOn text) : ¬GoesOn first := by
  obtain ⟨rest, rfl⟩ := starts
  exact fun goesOn => solid (goesOn_append goesOn rest)

/-- The section of a reply does not start with a line break. -/
theorem not_goesOn_section (text : List Char) : ¬GoesOn (Reply.of text).section_ := by
  have empty : ¬GoesOn [] := by
    rintro ⟨char, rest, same, _⟩
    cases same
  cases start text with
  | seeking none_ may =>
    rw [Reply.of_seeking none_ may]
    exact empty
  | plain none_ mayNot =>
    rw [Reply.of_plain none_ mayNot]
    exact empty
  | open_ rest opened unclosed =>
    rw [Reply.of_open opened unclosed]
    exact not_goesOn_of_prefix (List.take_prefix _ _) (not_goesOn_trimBreaks rest)
  | closed rest section_ behind opened closes =>
    rw [Reply.of_closed opened closes]
    have starts : section_ <+: trimBreaks rest := ⟨_, (eq_of_splitOnce_text closes).symm⟩
    exact not_goesOn_of_prefix starts (not_goesOn_trimBreaks rest)

/-- Behind the section all pieces are answer. -/
theorem Thinking.answer_feedAll_answering (pieces : List (List Char)) :
    answer (feedAll { state := .answering } pieces).2 = pieces.flatten := by
  induction pieces with
  | nil => rfl
  | cons piece pieces ih =>
    rw [feedAll, feed_answering, answer_append, answer_piece_false, ih, List.flatten_cons]

/-- Of a text that starts with a break something is released. -/
theorem goesOn_released {text : List Char} (goesOn : GoesOn text) :
    GoesOn (released closeTag text) := by
  obtain ⟨char, rest, rfl, break_⟩ := goesOn
  have some_ : held closeTag (char :: rest) ≠ (char :: rest).length := by
    intro all
    have same := heldBack_eq closeTag (char :: rest)
    rw [heldBack, all, Nat.sub_self, List.drop_zero, List.length_cons] at same
    have head : char = '<' := (List.cons.inj same).1
    rw [head] at break_
    exact absurd break_ (by decide)
  have atMost := held_le closeTag (char :: rest)
  obtain ⟨size, positive⟩ : ∃ size, (char :: rest).length - held closeTag (char :: rest) = size + 1 :=
    ⟨_, (Nat.succ_pred_eq_of_pos (by omega)).symm⟩
  rw [released, positive, List.take_succ_cons]
  exact ⟨char, _, rfl, break_⟩

/-- A section that is fed a break first starts with it. -/
theorem Thinking.goesOn_feedAll_thinking {pieces : List (List Char)}
    (goesOn : GoesOn pieces.flatten) :
    GoesOn (thoughts (feedAll { state := .thinking } pieces).2) := by
  induction pieces with
  | nil =>
    obtain ⟨char, rest, same, _⟩ := goesOn
    cases same
  | cons piece pieces ih =>
    rw [feedAll, thoughts_append, feed_thinking, List.nil_append]
    by_cases empty : piece = []
    · have nothing : splitOnce closeTag piece = none := by
        rw [empty]
        rfl
      rw [split_none nothing, empty]
      rw [empty, List.flatten_cons, List.nil_append] at goesOn
      exact ih goesOn
    · have first : GoesOn piece := by
        obtain ⟨char, rest, rfl⟩ := List.exists_cons_of_ne_nil empty
        obtain ⟨other, others, same, break_⟩ := goesOn
        rw [List.flatten_cons, List.cons_append, List.cons.injEq] at same
        exact ⟨char, rest, rfl, same.1 ▸ break_⟩
      apply goesOn_append
      cases closes : splitOnce closeTag piece with
      | none =>
        rw [split_none closes, thoughts_piece_true]
        exact goesOn_released first
      | some parts =>
        rw [split_some closes, thoughts_append, thoughts_piece_true, thoughts_piece_false,
          List.append_nil]
        obtain ⟨char, rest, same, break_⟩ := first
        have split_ := eq_of_splitOnce_text closes
        cases section_ : parts.1 with
        | nil =>
          rw [same, section_, List.nil_append] at split_
          have head : char = '<' := (List.cons.inj split_).1
          rw [head] at break_
          exact absurd break_ (by decide)
        | cons lead others =>
          rw [same, section_, List.cons_append, List.cons.injEq] at split_
          exact ⟨lead, others, rfl, split_.1 ▸ break_⟩

/-- A cut between a tag and a line break behind it leaves the break in the section or the answer. -/
theorem Thinking.not_tells_of_torn {text : List Char} {pieces : List (List Char)} (atTag : AtTag text)
    (goesOn : GoesOn pieces.flatten) : ¬Tells text pieces := by
  intro tells
  obtain ⟨rest, opened, empty | ⟨section_, behind, closes, empty⟩⟩ := atTag
  · have unclosed : splitOnce closeTag (trimBreaks rest) = none := by
      rw [empty]
      rfl
    have state : after text = { state := .thinking } := by
      rw [after_open opened unclosed, empty]
      rfl
    have told := tells.section_
    rw [Reply.of_open opened unclosed, empty, state] at told
    have starts := goesOn_feedAll_thinking goesOn
    exact not_goesOn_section (text ++ pieces.flatten) (told ▸ starts)
  · have filled : trimBreaks rest ≠ [] := by
      intro none_
      rw [none_] at closes
      cases closes
    have closesMore : splitOnce closeTag (trimBreaks (rest ++ pieces.flatten)) =
        some (section_, behind ++ pieces.flatten) := by
      rw [trimBreaks_append fun none_ => absurd none_ filled, splitOnce_more closes]
    have told := tells.remainder
    rw [Reply.of_closed (opened_append opened _) closesMore, Reply.of_closed opened closes,
      after_closed opened closes, answer_feedAll_answering, empty, List.nil_append] at told
    have starts : GoesOn (trimBreaks (behind ++ pieces.flatten)) := by
      rw [show trimBreaks (behind ++ pieces.flatten) = pieces.flatten from told]
      exact goesOn
    exact not_goesOn_trimBreaks _ starts

/-- Behind a text the pieces of a reply tell what it says exactly where no cut is torn. -/
theorem Thinking.tells_iff (text : List Char) (pieces : List (List Char)) :
    Tells text pieces ↔ ¬TornAfter text pieces := by
  induction pieces generalizing text with
  | nil =>
    constructor
    · rintro - ⟨before, after, split_, _, char, rest, same, _⟩
      rw [(List.append_eq_nil_iff.mp split_.symm).2] at same
      cases same
    · intro _
      constructor <;> simp [feedAll]
  | cons piece pieces ih =>
    by_cases here : AtTag text ∧ GoesOn (piece :: pieces).flatten
    · have torn : TornAfter text (piece :: pieces) := by
        refine ⟨[], piece :: pieces, rfl, ?_, here.2⟩
        rw [List.flatten_nil, List.append_nil]
        exact here.1
      exact iff_of_false (not_tells_of_torn here.1 here.2) fun untorn => untorn torn
    · have untorn : ¬(AtTag text ∧ GoesOn piece) := fun ⟨atTag, goesOn⟩ =>
        here ⟨atTag, goesOn_append goesOn pieces.flatten⟩
      rw [tells_cons_iff (continues untorn), ih (text ++ piece), not_iff_not]
      constructor
      · rintro ⟨before, after, rfl, atTag, goesOn⟩
        refine ⟨piece :: before, after, rfl, ?_, goesOn⟩
        rw [List.flatten_cons, ← List.append_assoc]
        exact atTag
      · rintro ⟨before, after, split_, atTag, goesOn⟩
        cases before with
        | nil =>
          rw [List.flatten_nil, List.append_nil] at atTag
          rw [List.nil_append] at split_
          exact absurd ⟨atTag, split_ ▸ goesOn⟩ here
        | cons first before =>
          obtain ⟨rfl, rfl⟩ := List.cons.inj split_
          refine ⟨before, after, rfl, ?_, goesOn⟩
          rw [List.flatten_cons, ← List.append_assoc] at atTag
          exact atTag

/-- The state of a splitter after pieces none of which is torn off. -/
theorem Thinking.state_feedAll {text : List Char} {pieces : List (List Char)}
    (untorn : ¬TornAfter text pieces) :
    ((after text).feedAll pieces).1 = after (text ++ pieces.flatten) := by
  induction pieces generalizing text with
  | nil => simp [feedAll]
  | cons piece pieces ih =>
    have here : ¬(AtTag text ∧ GoesOn piece) := by
      rintro ⟨atTag, goesOn⟩
      refine untorn ⟨[], piece :: pieces, rfl, ?_, goesOn_append goesOn pieces.flatten⟩
      rw [List.flatten_nil, List.append_nil]
      exact atTag
    have later : ¬TornAfter (text ++ piece) pieces := by
      rintro ⟨before, after, rfl, atTag, goesOn⟩
      refine untorn ⟨piece :: before, after, rfl, ?_, goesOn⟩
      rw [List.flatten_cons, ← List.append_assoc]
      exact atTag
    rw [feedAll, (continues here).state]
    show ((after (text ++ piece)).feedAll pieces).1 = _
    rw [ih later, List.flatten_cons, List.append_assoc]

/-- A splitter that has told something seeks no opening tag, and behind the section it keeps
nothing. -/
structure Thinking.Settled (splitter : Thinking) (told : List (Bool × List Char)) : Prop where
  seeking : splitter.state = .seeking → told = []
  answering : splitter.state = .answering → splitter.buffer = []

/-- Feeding keeps a splitter settled. -/
theorem Thinking.Settled.feed {self : Thinking} {told : List (Bool × List Char)}
    (settled : self.Settled told) (text : List Char) :
    (self.feed text).1.Settled (told ++ (self.feed text).2) := by
  have split_ : ∀ inner : Thinking, inner.state ≠ .seeking →
      inner.split.1.Settled (told ++ inner.split.2) := by
    intro inner found
    rw [split]
    split
    · next thinking =>
      split
      · constructor
        · intro seeking
          cases seeking
        · intro _
          rfl
      · constructor
        · intro seeking
          exact absurd seeking found
        · intro answering
          rw [show inner.state = .answering from answering] at thinking
          cases thinking
    · exact ⟨fun seeking => absurd seeking found, fun _ => rfl⟩
  rw [Thinking.feed]
  cases sought : seek { self with buffer := self.buffer ++ text } with
  | none =>
    have seeking : self.state = .seeking := by
      rw [seek] at sought
      split at sought
      · next seeking => exact seeking
      · cases sought
    constructor
    · intro _
      simp [settled.seeking seeking]
    · intro answering
      rw [show self.state = .answering from answering] at seeking
      cases seeking
  | some inner =>
    apply split_ inner
    intro seeking
    rw [seek] at sought
    split at sought
    · split at sought
      · cases sought
        cases seeking
      · split at sought
        · cases sought
        · cases sought
          cases seeking
    · next other =>
      cases sought
      exact other seeking

/-- Feeding piece after piece keeps a splitter settled. -/
theorem Thinking.Settled.feedAll {self : Thinking} {told : List (Bool × List Char)}
    (settled : self.Settled told) (pieces : List (List Char)) :
    (self.feedAll pieces).1.Settled (told ++ (self.feedAll pieces).2) := by
  induction pieces generalizing self told with
  | nil =>
    rw [Thinking.feedAll, List.append_nil]
    exact settled
  | cons piece pieces ih =>
    rw [Thinking.feedAll]
    show ((self.feed piece).1.feedAll pieces).1.Settled _
    rw [← List.append_assoc]
    exact ih (settled.feed piece)

/-- A new splitter stays settled. -/
theorem Thinking.settled_start (pieces : List (List Char)) :
    (({} : Thinking).feedAll pieces).1.Settled (({} : Thinking).feedAll pieces).2 := by
  have fresh : ({} : Thinking).Settled [] := ⟨fun _ => rfl, fun _ => rfl⟩
  exact fresh.feedAll pieces

/-- A splitter is inside the section where the reply leaves it open. -/
theorem Thinking.after_state_iff (text : List Char) :
    (after text).state = .thinking ↔ (Reply.of text).unclosed = true := by
  cases start text with
  | seeking none_ may => simp [after_seeking none_ may, Reply.of_seeking none_ may]
  | plain none_ mayNot => simp [after_plain none_ mayNot, Reply.of_plain none_ mayNot]
  | open_ rest opened unclosed => simp [after_open opened unclosed, Reply.of_open opened unclosed]
  | closed rest section_ behind opened closes =>
    simp [after_closed opened closes, Reply.of_closed opened closes]

end Aipass.Kiro
