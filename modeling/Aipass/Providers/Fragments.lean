import Aipass.Providers.KiroStream

/-!
# The text of a Kiro reply and its fragments

An assistant's text is cut into events, the events are written as messages and the bytes of the
messages are cut into chunks. The decoder hands on each message once it is whole, so the chunks
never matter. The splitter of thinking tags is fed the events: what the stream shows is what the
reply says exactly where no event ends right behind a tag while the next goes on with a line break.
-/
namespace Aipass.Kiro

open Framed

/-- The text under a key of the delta of an event. -/
def deltaText (key : String) (event : Value) : List Char :=
  (((event.field "delta").field key).asStr.getD "").toList

/-- The reasoning in the events of a stream. -/
def thinkingText (events : List Value) : List Char := events.flatMap (deltaText "thinking")

/-- The answer in the events of a stream. -/
def answerText (events : List Value) : List Char := events.flatMap (deltaText "text")

/-- The reasoning in two parts of a stream. -/
@[simp] theorem thinkingText_append (first second : List Value) :
    thinkingText (first ++ second) = thinkingText first ++ thinkingText second :=
  List.flatMap_append

/-- The answer in two parts of a stream. -/
@[simp] theorem answerText_append (first second : List Value) :
    answerText (first ++ second) = answerText first ++ answerText second :=
  List.flatMap_append

/-- Events without a delta show nothing. -/
def Silent (events : List Value) : Prop := thinkingText events = [] ∧ answerText events = []

/-- Nothing shows nothing. -/
theorem silent_nil : Silent [] := ⟨rfl, rfl⟩

/-- Silent events after silent ones. -/
theorem Silent.append {first second : List Value} (silent : Silent first) (also : Silent second) :
    Silent (first ++ second) := by
  constructor
  · rw [thinkingText_append, silent.1, also.1, List.append_nil]
  · rw [answerText_append, silent.2, also.2, List.append_nil]

/-- An event without a delta is silent. -/
theorem silent_event {kind : String} {fields : List (String × Value)}
    (none_ : (Value.obj fields).get "delta" = none) : Silent [event kind (.obj fields)] := by
  have absent : (event kind (.obj fields)).field "delta" = .null := by
    rw [event, Value.field, Value.get_set (Value.isObject_obj fields), if_neg (by decide), none_]
    rfl
  constructor
  · rw [thinkingText, List.flatMap_singleton, deltaText, absent]
    rfl
  · rw [answerText, List.flatMap_singleton, deltaText, absent]
    rfl

namespace KiroStream

variable {crc32 : Bytes → UInt32} {serde : SerdeJson} {tokensOf : Number → ℕ → Option ℕ}

/-- The delta of a text shows it. -/
theorem delta_shows (self : KiroStream) (thinking : Bool) (text : String) :
    thinkingText [self.delta (deltaOf thinking text)] = (if thinking then text.toList else []) ∧
      answerText [self.delta (deltaOf thinking text)] = (if thinking then [] else text.toList) := by
  have inner : (self.delta (deltaOf thinking text)).field "delta" = deltaOf thinking text := by
    rw [delta, event, Value.field, Value.get_set (Value.isObject_obj _)]
    simp
  rw [thinkingText, answerText, List.flatMap_singleton, List.flatMap_singleton, deltaText, deltaText,
    inner]
  cases thinking with
  | true => simp [deltaOf, kindOf, Value.field, Value.asStr]
  | false => simp [deltaOf, kindOf, Value.field, Value.asStr]

/-- A stream in which no call of a tool is open, and a block only after the first event. -/
structure Talking (stream : KiroStream) : Prop where
  noTool : stream.open_ ≠ "tool"
  begun : stream.open_ ≠ "" → stream.begun = true

/-- A stream that has gone on with its text alone. -/
structure Same (before after : KiroStream) : Prop where
  buffer : after.buffer = before.buffer
  thinking : after.thinking = before.thinking
  budget : after.budget = before.budget
  metadata : after.metadata = before.metadata

/-- A stream is the same as itself. -/
theorem Same.refl (stream : KiroStream) : Same stream stream := ⟨rfl, rfl, rfl, rfl⟩

/-- A stream that has gone on twice. -/
theorem Same.trans {first second third : KiroStream} (same : Same first second)
    (also : Same second third) : Same first third :=
  ⟨also.buffer.trans same.buffer, also.thinking.trans same.thinking, also.budget.trans same.budget,
    also.metadata.trans same.metadata⟩

variable (serde) in
/-- Closing the open block shows nothing. -/
theorem close_talking {self : KiroStream} (talking : self.Talking) :
    ∃ after sent, self.close serde = .ok (after, sent) ∧ Silent sent ∧ Same self after ∧
      after.begun = self.begun ∧ after.open_ = "" := by
  have plain : self.checkArgs serde = .ok () := by
    rw [checkArgs, if_neg fun tool => talking.noTool tool.1]
  by_cases closed : self.open_ = ""
  · refine ⟨self, [], ?_, silent_nil, Same.refl self, rfl, closed⟩
    simp only [close, plain, ok_bind, if_pos closed]
    rfl
  · refine ⟨{ self with open_ := "", toolArgs := "" },
      [event "content_block_stop" (.obj [("index", int self.index)])], ?_, silent_event (by simp),
      ⟨rfl, rfl, rfl, rfl⟩, rfl, rfl⟩
    simp only [close, plain, ok_bind, if_neg closed]
    rfl

/-- The first event shows nothing. -/
theorem start_silent (self : KiroStream) : Silent self.start.2 ∧ Same self self.start.1 ∧
    self.start.1.begun = true ∧ self.start.1.open_ = self.open_ := by
  by_cases begun : self.begun = true
  · rw [start, if_pos begun]
    exact ⟨silent_nil, Same.refl self, begun, rfl⟩
  · rw [start, if_neg begun]
    refine ⟨silent_event ?_, ⟨rfl, rfl, rfl, rfl⟩, rfl, rfl⟩
    simp

/-- Beginning a block shows nothing. -/
theorem begin_talking {self : KiroStream} (talking : self.Talking) {kind : String}
    (noTool : kind ≠ "tool") (block : Value) :
    ∃ after sent, self.begin_ serde kind block = .ok (after, sent) ∧ Silent sent ∧ Same self after ∧
      after.Talking ∧ after.begun = true := by
  obtain ⟨silent, same, begun, open_⟩ := start_silent self
  have talkingStart : self.start.1.Talking := ⟨open_ ▸ talking.noTool, fun _ => begun⟩
  obtain ⟨after, sent, closes, silentClose, sameClose, begunClose, _⟩ :=
    close_talking serde talkingStart
  refine ⟨{ after with index := after.index + 1, open_ := kind }, self.start.2 ++ sent ++
    [event "content_block_start" (.obj [("index", int (after.index + 1)), ("content_block", block)])],
    ?_, (silent.append silentClose).append (silent_event (by simp)), ?_, ?_, ?_⟩
  · rw [begin_, closes, ok_bind]
    rfl
  · exact same.trans ⟨sameClose.buffer, sameClose.thinking, sameClose.budget, sameClose.metadata⟩
  · exact ⟨noTool, fun _ => begunClose.trans begun⟩
  · exact begunClose.trans begun

/-- A stream shows a section and an answer, and has begun once it has shown anything. -/
structure Shows (before after : KiroStream) (sent : List Value) (told answered : List Char) : Prop where
  thinking : thinkingText sent = told
  answer : answerText sent = answered
  talking : after.Talking
  budget : after.budget = before.budget
  metadata : after.metadata = before.metadata
  begun : after.begun = true ↔ before.begun = true ∨ told ≠ [] ∨ answered ≠ []

/-- A text shows itself. -/
theorem text_shows {self : KiroStream} (talking : self.Talking) (thinking : Bool) (text : String) :
    ∃ after sent, self.text serde thinking text = .ok (after, sent) ∧ Same self after ∧
      Shows self after sent (if thinking then text.toList else [])
        (if thinking then [] else text.toList) := by
  by_cases empty : text = ""
  · refine ⟨self, [], ?_, Same.refl self, ?_⟩
    · rw [KiroStream.text, if_pos empty]
      rfl
    · rw [empty]
      refine ⟨?_, ?_, talking, rfl, rfl, ?_⟩ <;> cases thinking <;> simp [thinkingText, answerText]
  · have filled : text.toList ≠ [] := by simpa using empty
    have shown : (if thinking then text.toList else []) ≠ [] ∨
        (if thinking then [] else text.toList) ≠ [] := by
      cases thinking with
      | true => exact .inl filled
      | false => exact .inr filled
    have kind : kindOf thinking ≠ "tool" ∧ kindOf thinking ≠ "" := by
      cases thinking <;> decide
    by_cases opened : self.open_ = kindOf thinking
    · have begun := talking.begun (opened ▸ kind.2)
      refine ⟨self, [self.delta (deltaOf thinking text)], ?_, Same.refl self, ?_⟩
      · rw [KiroStream.text, if_neg empty, if_pos opened]
        rfl
      · exact ⟨(delta_shows self thinking text).1, (delta_shows self thinking text).2, talking, rfl,
          rfl, iff_of_true begun (.inl begun)⟩
    · obtain ⟨after, sent, begins, silent, same, talkingAfter, begun⟩ :=
        begin_talking talking kind.1 (blockOf thinking)
      refine ⟨after, sent ++ [after.delta (deltaOf thinking text)], ?_, same, ?_⟩
      · rw [KiroStream.text, if_neg empty, if_neg opened, begins, ok_bind]
        rfl
      · refine ⟨?_, ?_, talkingAfter, same.budget, same.metadata, iff_of_true begun (.inr shown)⟩
        · rw [thinkingText_append, silent.1, List.nil_append]
          exact (delta_shows after thinking text).1
        · rw [answerText_append, silent.2, List.nil_append]
          exact (delta_shows after thinking text).2

/-- What is shown in two steps. -/
theorem Shows.append {first second third : KiroStream} {sent more : List Value}
    {told answered toldMore answeredMore : List Char} (shows_ : Shows first second sent told answered)
    (also : Shows second third more toldMore answeredMore) :
    Shows first third (sent ++ more) (told ++ toldMore) (answered ++ answeredMore) := by
  refine ⟨?_, ?_, also.talking, also.budget.trans shows_.budget,
    also.metadata.trans shows_.metadata, ?_⟩
  · rw [thinkingText_append, shows_.thinking, also.thinking]
  · rw [answerText_append, shows_.answer, also.answer]
  · rw [also.begun, shows_.begun]
    simp only [ne_eq, List.append_eq_nil_iff, not_and_or]
    tauto

/-- What the splitter tells is shown. -/
theorem texts_shows {self : KiroStream} (talking : self.Talking) (told : List (Bool × List Char)) :
    ∃ after sent, self.texts serde told = .ok (after, sent) ∧ Same self after ∧
      Shows self after sent (thoughts told) (answer told) := by
  induction told generalizing self with
  | nil =>
    refine ⟨self, [], rfl, Same.refl self, rfl, rfl, talking, rfl, rfl, ?_⟩
    simp
  | cons piece told ih =>
    obtain ⟨middle, sent, tells, same, first⟩ :=
      text_shows talking piece.1 (String.ofList piece.2)
    obtain ⟨after, more, tellsMore, sameMore, second⟩ := ih first.talking
    refine ⟨after, sent ++ more, ?_, same.trans sameMore, ?_⟩
    · rw [texts, tells, ok_bind, tellsMore, ok_bind]
      rfl
    · have whole := first.append second
      rw [String.toList_ofList] at whole
      have thoughts_ : thoughts (piece :: told) = (if piece.1 then piece.2 else []) ++ thoughts told := by
        cases kind : piece.1 <;> simp [thoughts, kind]
      have answer_ : answer (piece :: told) = (if piece.1 then [] else piece.2) ++ answer told := by
        cases kind : piece.1 <;> simp [answer, kind]
      rw [thoughts_, answer_]
      exact whole

/-- A message carries a text of the assistant. -/
structure IsText (message : AwsEvent) : Prop where
  kind : message.1[":event-type"]? = some "assistantResponseEvent"
  plain : isFailure message.1 "assistantResponseEvent" = false

/-- The text of a message. -/
def contentOf (message : AwsEvent) : List Char :=
  ((message.2.field "content").asStr.getD "").toList

/-- What becomes of a text of the assistant: with a budget it goes through the splitter. -/
def feedOne (budget : ℕ) (splitter : Thinking) (text : List Char) :
    Thinking × List (Bool × List Char) :=
  if budget > 0 then splitter.feed text else (splitter, piece false text)

/-- What becomes of one text after another. -/
def feedEach (budget : ℕ) : Thinking → List (List Char) → Thinking × List (Bool × List Char)
  | splitter, [] => (splitter, [])
  | splitter, text :: rest =>
    let next := feedOne budget splitter text
    let last := feedEach budget next.1 rest
    (last.1, next.2 ++ last.2)

/-- With a budget every text goes through the splitter. -/
theorem feedEach_budget {budget : ℕ} (some_ : budget > 0) (splitter : Thinking)
    (pieces : List (List Char)) : feedEach budget splitter pieces = splitter.feedAll pieces := by
  induction pieces generalizing splitter with
  | nil => rfl
  | cons piece pieces ih => simp only [feedEach, feedOne, if_pos some_, Thinking.feedAll, ih]

/-- Without a budget every text is answer. -/
theorem feedEach_zero (splitter : Thinking) (pieces : List (List Char)) :
    (feedEach 0 splitter pieces).1 = splitter ∧ thoughts (feedEach 0 splitter pieces).2 = [] ∧
      answer (feedEach 0 splitter pieces).2 = pieces.flatten := by
  induction pieces with
  | nil => exact ⟨rfl, rfl, rfl⟩
  | cons text pieces ih =>
    have none_ : ¬(0 : ℕ) > 0 := by omega
    simp only [feedEach, feedOne, if_neg none_]
    refine ⟨ih.1, ?_, ?_⟩
    · rw [thoughts_append, thoughts_piece_false, ih.2.1]
      rfl
    · rw [answer_append, answer_piece_false, ih.2.2, List.flatten_cons]

/-- In two parts texts become what they become one part after the other. -/
theorem feedEach_append (budget : ℕ) (splitter : Thinking) (first second : List (List Char)) :
    feedEach budget splitter (first ++ second) =
      ((feedEach budget (feedEach budget splitter first).1 second).1,
        (feedEach budget splitter first).2 ++
          (feedEach budget (feedEach budget splitter first).1 second).2) := by
  induction first generalizing splitter with
  | nil => rfl
  | cons text first ih => simp only [List.cons_append, feedEach, ih, List.append_assoc]

/-- A step of the stream shows what becomes of some texts. -/
structure Feeds (before after : KiroStream) (sent : List Value) (pieces : List (List Char)) :
    Prop where
  shows_ : Shows before after sent (thoughts (feedEach before.budget before.thinking pieces).2)
    (answer (feedEach before.budget before.thinking pieces).2)
  thinking : after.thinking = (feedEach before.budget before.thinking pieces).1

/-- Nothing shows what becomes of no text. -/
theorem Feeds.nil {self : KiroStream} (talking : self.Talking) : Feeds self self [] [] := by
  refine ⟨⟨rfl, rfl, talking, rfl, rfl, ?_⟩, rfl⟩
  simp [feedEach]

/-- Some texts and then others. -/
theorem Feeds.append {first second third : KiroStream} {sent more : List Value}
    {pieces others : List (List Char)} (feeds : Feeds first second sent pieces)
    (also : Feeds second third more others) :
    Feeds first third (sent ++ more) (pieces ++ others) := by
  have whole := feeds.shows_.append also.shows_
  have thinking := also.thinking
  rw [feeds.shows_.budget, feeds.thinking] at whole thinking
  constructor
  · rw [feedEach_append, thoughts_append, answer_append]
    exact whole
  · rw [feedEach_append]
    exact thinking

/-- A message with a text of the assistant feeds it. -/
theorem handle_text {self : KiroStream} (talking : self.Talking) {message : AwsEvent}
    (isText : IsText message) : ∃ after sent, self.handle serde message = .ok (after, sent) ∧
      after.buffer = self.buffer ∧ Feeds self after sent [contentOf message] := by
  have handled : self.handle serde message = self.assistant serde message.2 := by
    simp only [handle, isText.kind, Option.getD_some, isText.plain, if_true]
    rfl
  have one : feedEach self.budget self.thinking [contentOf message] =
      ((feedOne self.budget self.thinking (contentOf message)).1,
        (feedOne self.budget self.thinking (contentOf message)).2) := by
    simp [feedEach]
  rw [handled]
  by_cases some_ : self.budget > 0
  · have fed : feedOne self.budget self.thinking (contentOf message) =
        self.thinking.feed (contentOf message) := if_pos some_
    have talkingNext : ({ self with
        thinking := (self.thinking.feed (contentOf message)).1 } : KiroStream).Talking :=
      ⟨talking.noTool, talking.begun⟩
    obtain ⟨after, sent, tells, same, shown⟩ := texts_shows talkingNext
      (self.thinking.feed (contentOf message)).2
    refine ⟨after, sent, ?_, same.buffer, ⟨?_, ?_⟩⟩
    · rw [assistant]
      simp only [if_pos some_]
      exact tells
    · rw [one, fed]
      exact ⟨shown.thinking, shown.answer, shown.talking, shown.budget, shown.metadata, shown.begun⟩
    · rw [one, fed]
      exact same.thinking
  · have fed : feedOne self.budget self.thinking (contentOf message) =
        (self.thinking, piece false (contentOf message)) := if_neg some_
    obtain ⟨after, sent, tells, same, shown⟩ := text_shows talking false
      ((message.2.field "content").asStr.getD "")
    refine ⟨after, sent, ?_, same.buffer, ⟨?_, ?_⟩⟩
    · rw [assistant]
      simp only [if_neg some_]
      exact tells
    · rw [one, fed, thoughts_piece_false, answer_piece_false]
      exact shown
    · rw [one, fed]
      exact same.thinking

/-- Messages with texts of the assistant feed them. -/
theorem handleAll_texts {self : KiroStream} (talking : self.Talking) {messages : List AwsEvent}
    (texts_ : ∀ message ∈ messages, IsText message) :
    ∃ after sent, self.handleAll serde messages = .ok (after, sent) ∧ after.buffer = self.buffer ∧
      Feeds self after sent (messages.map contentOf) := by
  induction messages generalizing self with
  | nil => exact ⟨self, [], rfl, rfl, Feeds.nil talking⟩
  | cons message messages ih =>
    obtain ⟨middle, sent, handles, buffer, feeds⟩ :=
      handle_text talking (texts_ message List.mem_cons_self)
    obtain ⟨after, more, others, bufferAfter, feedsMore⟩ := ih feeds.shows_.talking
      fun other listed => texts_ other (List.mem_cons_of_mem _ listed)
    refine ⟨after, sent ++ more, ?_, bufferAfter.trans buffer, feeds.append feedsMore⟩
    rw [handleAll, handles, ok_bind, others]
    rfl

section Chunks

variable (crc32)

/-- A block is a message within the limit that carries a text of the assistant. -/
structure TextBlock (serde : SerdeJson) (block : Bytes × AwsEvent) : Prop where
  whole : Whole (readFrame crc32 serde) block.1 block.2
  within : block.1.length ≤ maxFrame
  isText : IsText block.2

/-- What has arrived is a part of the next block. -/
def Part (buffer : Bytes) (blocks : List (Bytes × AwsEvent)) : Prop :=
  buffer = [] ∨ ∃ block later, blocks = block :: later ∧ buffer <+: block.1 ∧ buffer ≠ block.1

variable {crc32}

/-- Fewer than twelve bytes are waited with. -/
theorem readFrame_short {buffer : Bytes} (short : buffer.length < 12) :
    readFrame crc32 serde buffer = .ok none := by
  rw [readFrame]
  simp only [if_pos short]
  rfl

/-- The decoder waits with a part of the next block, which is within the limit. -/
theorem Part.waits {buffer : Bytes} {blocks : List (Bytes × AwsEvent)} (part : Part buffer blocks)
    (texts_ : ∀ block ∈ blocks, TextBlock crc32 serde block) :
    readFrame crc32 serde buffer = .ok none ∧ buffer.length ≤ maxFrame := by
  rcases part with rfl | ⟨block, later, rfl, starts, differs⟩
  · exact ⟨readFrame_short (by decide), Nat.zero_le _⟩
  · have block_ := texts_ block List.mem_cons_self
    exact ⟨block_.whole.waits _ starts differs, starts.length_le.trans block_.within⟩

/-- A chunk that completes some blocks feeds their texts. -/
theorem push_blocks {self : KiroStream} (talking : self.Talking) {chunk part : Bytes}
    {done : List (Bytes × AwsEvent)} (texts_ : ∀ block ∈ done, TextBlock crc32 serde block)
    (arrived : self.buffer ++ chunk = bytesOf done ++ part)
    (waits : readFrame crc32 serde part = .ok none) (within : part.length ≤ maxFrame) :
    ∃ after sent, self.push crc32 serde chunk = .ok (after, sent) ∧ after.buffer = part ∧
      Feeds self after sent (done.map fun block => contentOf block.2) := by
  have drained := drain_blocks (fun block listed => (texts_ block listed).whole) waits
  have framed : awsFramesPush crc32 serde self.buffer chunk = .ok (done.map Prod.snd, part) := by
    have small : ¬(done.map Prod.snd, part).2.length > maxFrame := Nat.not_lt.mpr within
    rw [awsFramesPush, arrived, drained, ok_bind, if_neg small]
    rfl
  have next : ({ self with buffer := part } : KiroStream).Talking :=
    ⟨talking.noTool, talking.begun⟩
  have events : ∀ message ∈ done.map Prod.snd, IsText message := by
    intro message listed
    obtain ⟨block, inDone, rfl⟩ := List.mem_map.mp listed
    exact (texts_ block inDone).isText
  obtain ⟨after, sent, handles, buffer, feeds⟩ := handleAll_texts next events
  refine ⟨after, sent, ?_, buffer, ?_⟩
  · rw [push, framed, ok_bind]
    exact handles
  · rw [List.map_map] at feeds
    obtain ⟨shown, thinking⟩ := feeds
    exact ⟨⟨shown.thinking, shown.answer, shown.talking, shown.budget, shown.metadata, shown.begun⟩,
      thinking⟩

/-- However the blocks are cut into chunks, their texts are fed. -/
theorem pushAll_blocks {self : KiroStream} (talking : self.Talking) {chunks : List Bytes}
    {blocks : List (Bytes × AwsEvent)} (texts_ : ∀ block ∈ blocks, TextBlock crc32 serde block)
    (part : Part self.buffer blocks) (arrives : self.buffer ++ chunks.flatten = bytesOf blocks) :
    ∃ after sent, self.pushAll crc32 serde chunks = .ok (after, sent) ∧ after.buffer = [] ∧
      Feeds self after sent (blocks.map fun block => contentOf block.2) := by
  induction chunks generalizing self blocks with
  | nil =>
    rw [List.flatten_nil, List.append_nil] at arrives
    rcases part with empty | ⟨block, later, rfl, starts, differs⟩
    · have none_ : blocks = [] := by
        cases blocks with
        | nil => rfl
        | cons block later =>
          rw [empty, bytesOf_cons] at arrives
          have nothing := (List.append_eq_nil_iff.mp arrives.symm).1
          exact absurd nothing (texts_ block List.mem_cons_self).whole.nonempty
      rw [none_]
      exact ⟨self, [], rfl, empty, Feeds.nil talking⟩
    · rw [arrives, bytesOf_cons] at starts differs
      have all : bytesOf later = [] := by
        have lengths := starts.length_le
        rw [List.length_append] at lengths
        exact List.eq_nil_of_length_eq_zero (by omega)
      rw [all, List.append_nil] at differs
      exact absurd rfl differs
  | cons chunk chunks ih =>
    rw [List.flatten_cons, ← List.append_assoc] at arrives
    obtain ⟨done, todo, rest, rfl, arrived, left, open_⟩ :=
      split_blocks (fun block listed => (texts_ block listed).whole.nonempty) arrives
    have todoTexts : ∀ block ∈ todo, TextBlock crc32 serde block := fun block listed =>
      texts_ block (List.mem_append_right _ listed)
    have isPart : Part rest todo := open_
    obtain ⟨waits, within⟩ := isPart.waits todoTexts
    obtain ⟨middle, sent, pushes, buffer, feeds⟩ := push_blocks talking
      (fun block listed => texts_ block (List.mem_append_left _ listed)) arrived waits within
    obtain ⟨after, more, others, empty, feedsMore⟩ := ih feeds.shows_.talking todoTexts
      (buffer ▸ open_) (by rw [buffer]; exact left)
    refine ⟨after, sent ++ more, ?_, empty, ?_⟩
    · rw [pushAll, pushes, ok_bind, others]
      rfl
    · rw [List.map_append]
      exact feeds.append feedsMore

/-- A message beyond the limit fails the stream, however the bytes are cut into chunks. -/
theorem pushAll_refused {self : KiroStream} (talking : self.Talking) {chunks : List Bytes}
    {blocks : List (Bytes × AwsEvent)} {beyond tail : Bytes}
    (texts_ : ∀ block ∈ blocks, TextBlock crc32 serde block)
    (refused : Refused (readFrame crc32 serde) beyond 12)
    (part : Part self.buffer blocks ∨ blocks = [] ∧ self.buffer.length < 12)
    (arrives : self.buffer ++ chunks.flatten = bytesOf blocks ++ (beyond ++ tail)) :
    ∃ reason, self.pushAll crc32 serde chunks = .error reason := by
  induction chunks generalizing self blocks with
  | nil =>
    exfalso
    have long := congrArg List.length arrives
    rw [List.flatten_nil, List.append_nil, List.length_append, List.length_append] at long
    have fits := refused.fits
    rcases part with (empty | ⟨block, later, rfl, starts, _⟩) | ⟨rfl, short⟩
    · rw [empty, List.length_nil] at long
      omega
    · have atMost := starts.length_le
      rw [bytesOf_cons, List.length_append] at long
      omega
    · rw [bytesOf_nil, List.length_nil] at long
      omega
  | cons chunk chunks ih =>
    rw [List.flatten_cons, ← List.append_assoc] at arrives
    have step : ∀ {done todo : List (Bytes × AwsEvent)} {rest : Bytes}, blocks = done ++ todo →
        self.buffer ++ chunk = bytesOf done ++ rest →
        readFrame crc32 serde rest = .ok none → rest.length ≤ maxFrame →
        (Part rest todo ∨ todo = [] ∧ rest.length < 12) →
        rest ++ chunks.flatten = bytesOf todo ++ (beyond ++ tail) →
        ∃ reason, self.pushAll crc32 serde (chunk :: chunks) = .error reason := by
      intro done todo rest split_ arrived waits within open_ left
      rw [split_] at texts_
      obtain ⟨middle, sent, pushes, buffer, feeds⟩ := push_blocks talking
        (fun block listed => texts_ block (List.mem_append_left _ listed)) arrived waits within
      obtain ⟨reason, fails⟩ := ih feeds.shows_.talking
        (fun block listed => texts_ block (List.mem_append_right _ listed)) (buffer ▸ open_)
        (by rw [buffer]; exact left)
      refine ⟨reason, ?_⟩
      rw [pushAll, pushes, ok_bind, fails]
      rfl
    rcases List.append_eq_append_iff.mp arrives with ⟨more, inBlocks, behind⟩ | ⟨more, inData, behind⟩
    · obtain ⟨done, todo, rest, split_, arrived, left, open_⟩ :=
        split_blocks (fun block listed => (texts_ block listed).whole.nonempty) inBlocks.symm
      have todoTexts : ∀ block ∈ todo, TextBlock crc32 serde block := fun block listed =>
        texts_ block (split_ ▸ List.mem_append_right _ listed)
      have isPart : Part rest todo := open_
      obtain ⟨waits, within⟩ := isPart.waits todoTexts
      apply step split_ arrived waits within (.inl open_)
      rw [behind, ← List.append_assoc, left]
    · by_cases short : more.length < 12
      · apply step (List.append_nil blocks).symm inData (readFrame_short short)
          (by rw [maxFrame]; omega) (.inr ⟨rfl, short⟩)
        rw [bytesOf_nil, List.nil_append, behind]
      · have starts : more <+: beyond ++ tail := ⟨chunks.flatten, behind.symm⟩
        have nonempty : more ≠ [] := by
          rintro rfl
          exact short (by decide)
        obtain ⟨reason, fails⟩ := drain_refuses
          (fun block listed => (texts_ block listed).whole) nonempty
          (refused.refuses more tail starts (by omega))
        refine ⟨reason, ?_⟩
        rw [pushAll, push, awsFramesPush, inData, fails]
        rfl

end Chunks

variable (serde tokensOf) in
/-- A reply that is nothing but texts of the assistant ends well once it has shown something and has
no section open. -/
theorem finish_shows {self : KiroStream} (talking : self.Talking) (empty : self.buffer = [])
    (noMetadata : self.metadata = false)
    (kept : self.begun = true → self.thinking.state ≠ .thinking → self.thinking.buffer = []) :
    if self.begun = true ∧ self.thinking.state ≠ .thinking then
      ∃ after sent, self.finish serde tokensOf = .ok (after, sent) ∧ Silent sent
    else ∃ reason, self.finish serde tokensOf = .error reason := by
  by_cases begun : self.begun = true
  · have whole : ¬(self.buffer ≠ [] ∨ (self.metadata = false ∧ self.begun = false)) := by
      rintro (left | ⟨_, unbegun⟩)
      · exact left empty
      · rw [begun] at unbegun
        cases unbegun
    by_cases thinking : self.thinking.state = .thinking
    · rw [if_neg fun both => both.2 thinking]
      refine ⟨"Kiro thinking block ended before its closing tag", ?_⟩
      simp only [finish, if_neg whole, if_pos thinking]
      rfl
    · rw [if_pos ⟨begun, thinking⟩]
      have emptied : ({ self with thinking := { self.thinking with buffer := [] } } :
          KiroStream).Talking := ⟨talking.noTool, talking.begun⟩
      obtain ⟨after, sent, closes, silent, _⟩ := close_talking serde emptied
      have texts_ : ∀ stream : KiroStream, stream.text serde false (String.ofList []) =
          .ok (stream, []) := fun stream => rfl
      have last : Silent [event "message_delta" (.obj [("delta", .obj [("stop_reason",
          .string ({ after with usage := after.finalUsage tokensOf } : KiroStream).stopReason),
          ("stop_sequence", .null)]), ("usage", after.finalUsage tokensOf)])] := by
        constructor <;> simp [thinkingText, answerText, deltaText, event, Value.field, Value.asStr]
      have stop : Silent [event "message_stop" (.obj [])] := silent_event rfl
      refine ⟨{ after with usage := after.finalUsage tokensOf }, _, ?_,
        ((silent_nil.append silent_nil).append silent).append (last.append stop)⟩
      simp only [finish, if_neg whole, if_neg thinking, if_pos begun, kept begun thinking, pure_bind,
        texts_, ok_bind, closes]
      rfl
  · have unbegun : self.begun = false := by simpa using begun
    rw [if_neg fun both => begun both.1]
    refine ⟨"Kiro reply ended before a complete AWS event", ?_⟩
    simp only [finish, if_pos (Or.inr (And.intro noMetadata unbegun))]
    rfl

end KiroStream

/-- What a stream shows. -/
structure Shown where
  thinking : List Char
  answer : List Char
  finished : Bool
deriving DecidableEq

/-- A message carries a piece of the assistant's text. -/
structure Message.Carries (serde : SerdeJson) (message : Message) (piece : List Char) : Prop where
  kind : message.table[":event-type"]? = some "assistantResponseEvent"
  noError : message.table[":message-type"]? ≠ some "error"
  noException : message.table[":message-type"]? ≠ some "exception"
  content : ∃ value, fromSlice serde message.payload = some value ∧
    (value.field "content").asStr = some (String.ofList piece)

/-- An assistant's text on its way: cut into pieces, the pieces in messages, and the bytes of the
messages in chunks. -/
structure Transmission (crc32 : Bytes → UInt32) (serde : SerdeJson) where
  pieces : List (List Char)
  messages : List Message
  carried : List.Forall₂ (fun message piece => message.Carries serde piece) messages pieces
  chunks : List Bytes
  cut : chunks.flatten = messages.flatMap (Message.bytes crc32)

/-- A reply is complete: it says something and leaves no section open. -/
def Reply.finishes (reply : Reply) : Bool :=
  !reply.unclosed && (reply.section_ ≠ [] || reply.remainder ≠ [])

/-- What a text shows, whatever its fragments: with a budget its section and the remainder, else
itself. -/
def shownOf (budget : ℕ) (text : List Char) : Shown :=
  if budget > 0 then
    { thinking := (Reply.of text).section_
      answer := (Reply.of text).remainder
      finished := (Reply.of text).finishes }
  else { thinking := [], answer := text, finished := text ≠ [] }

variable {crc32 : Bytes → UInt32} {serde : SerdeJson} (tokensOf : Number → ℕ → Option ℕ)

/-- What a new stream shows of a transmission: all it sends, or that a chunk failed it. -/
def Transmission.shown (sent : Transmission crc32 serde) (model id : String) (budget window : ℕ) :
    Except String Shown := do
  let pushed ← KiroStream.pushAll crc32 serde { budget, model, id, window } sent.chunks
  match pushed.1.finish serde tokensOf with
  | .ok last =>
    return { thinking := thinkingText (pushed.2 ++ last.2)
             answer := answerText (pushed.2 ++ last.2)
             finished := true }
  | .error _ =>
    return { thinking := thinkingText pushed.2, answer := answerText pushed.2, finished := false }

/-- Messages within the limit are blocks with the pieces. -/
theorem blocks_of_carried {messages : List Message} {pieces : List (List Char)}
    (carried : List.Forall₂ (fun message piece => message.Carries serde piece) messages pieces)
    (within : ∀ message ∈ messages, message.size ≤ maxFrame) :
    ∃ blocks, bytesOf blocks = messages.flatMap (Message.bytes crc32) ∧
      (∀ block ∈ blocks, KiroStream.TextBlock crc32 serde block) ∧
      blocks.map (fun block => KiroStream.contentOf block.2) = pieces := by
  induction carried with
  | nil => exact ⟨[], rfl, fun block listed => absurd listed List.not_mem_nil, rfl⟩
  | @cons message piece messages pieces carries _ ih =>
    obtain ⟨blocks, bytes, texts_, contents⟩ := ih fun other listed =>
      within other (List.mem_cons_of_mem _ listed)
    have small := within message List.mem_cons_self
    obtain ⟨value, parsed, content⟩ := carries.content
    have plain : KiroStream.isFailure message.table "assistantResponseEvent" = false := by
      rw [KiroStream.isFailure, Bool.or_eq_false_iff]
      refine ⟨?_, by decide⟩
      cases type : message.table[":message-type"]? with
      | none => rfl
      | some text =>
        have noError : text ≠ "error" := fun same => carries.noError (same ▸ type)
        have noException : text ≠ "exception" := fun same => carries.noException (same ▸ type)
        simp [noError, noException]
    have text : KiroStream.TextBlock crc32 serde (message.bytes crc32, (message.table, value)) :=
      ⟨message.whole crc32 serde parsed small, by rw [Message.length_bytes]; exact small,
        ⟨carries.kind, plain⟩⟩
    refine ⟨(message.bytes crc32, (message.table, value)) :: blocks, ?_, ?_, ?_⟩
    · rw [bytesOf_cons, bytes, List.flatMap_cons]
    · intro block listed
      rcases List.mem_cons.mp listed with rfl | later
      · exact text
      · exact texts_ block later
    · rw [List.map_cons, contents, KiroStream.contentOf, content, Option.getD_some,
        String.toList_ofList]

/-- A new stream talks. -/
theorem talking_new (model id : String) (budget window : ℕ) :
    ({ budget, model, id, window } : KiroStream).Talking :=
  ⟨show ¬("" : String) = "tool" by decide, fun opened => absurd rfl opened⟩

/-- What a new stream shows of a transmission within the limit is what becomes of its pieces. -/
theorem Transmission.shown_within (sent : Transmission crc32 serde) (model id : String)
    (budget window : ℕ) (within : ∀ message ∈ sent.messages, message.size ≤ maxFrame) :
    sent.shown tokensOf model id budget window = .ok
      { thinking := thoughts (KiroStream.feedEach budget {} sent.pieces).2
        answer := answer (KiroStream.feedEach budget {} sent.pieces).2
        finished := (KiroStream.feedEach budget {} sent.pieces).1.state ≠ .thinking ∧
          (thoughts (KiroStream.feedEach budget {} sent.pieces).2 ≠ [] ∨
            answer (KiroStream.feedEach budget {} sent.pieces).2 ≠ []) } := by
  obtain ⟨blocks, bytes, texts_, contents⟩ := blocks_of_carried sent.carried within
  have arrives : [] ++ sent.chunks.flatten = bytesOf blocks := by
    rw [List.nil_append, sent.cut, bytes]
  obtain ⟨after, events, pushes, empty, feeds⟩ := KiroStream.pushAll_blocks
    (talking_new model id budget window) texts_ (.inl rfl) arrives
  rw [contents] at feeds
  obtain ⟨shown, thinking⟩ := feeds
  have told := shown.thinking
  have answered := shown.answer
  have begun : after.begun = true ↔
      thoughts (KiroStream.feedEach budget {} sent.pieces).2 ≠ [] ∨
        answer (KiroStream.feedEach budget {} sent.pieces).2 ≠ [] := by
    rw [shown.begun]
    exact or_iff_right (show ¬false = true by decide)
  have kept : after.begun = true → after.thinking.state ≠ .thinking → after.thinking.buffer = [] := by
    intro some_ noThinking
    rw [begun] at some_
    rw [thinking] at noThinking ⊢
    by_cases positive : budget > 0
    · rw [KiroStream.feedEach_budget positive] at some_ noThinking ⊢
      have settled := Thinking.settled_start sent.pieces
      cases state : (({} : Thinking).feedAll sent.pieces).1.state with
      | seeking =>
        rw [settled.seeking state] at some_
        rcases some_ with told | answered
        · exact absurd rfl told
        · exact absurd rfl answered
      | thinking => exact absurd state noThinking
      | answering => exact settled.answering state
    · obtain rfl : budget = 0 := by omega
      rw [(KiroStream.feedEach_zero {} sent.pieces).1]
  have ends := KiroStream.finish_shows serde tokensOf shown.talking empty
    shown.metadata kept
  rw [Transmission.shown, pushes, ok_bind]
  split at ends
  · next whole =>
    obtain ⟨final, last, finishes, silent⟩ := ends
    have ended : (KiroStream.feedEach budget {} sent.pieces).1.state ≠ .thinking := by
      rw [← show after.thinking = (KiroStream.feedEach budget {} sent.pieces).1 from thinking]
      exact whole.2
    simp only [finishes, thinkingText_append, answerText_append, silent.1, silent.2, List.append_nil,
      told, answered]
    rw [decide_eq_true ⟨ended, begun.mp whole.1⟩]
    rfl
  · next partly =>
    obtain ⟨reason, fails⟩ := ends
    have open_ : ¬((KiroStream.feedEach budget {} sent.pieces).1.state ≠ .thinking ∧
        (thoughts (KiroStream.feedEach budget {} sent.pieces).2 ≠ [] ∨
          answer (KiroStream.feedEach budget {} sent.pieces).2 ≠ [])) := by
      rw [← show after.thinking = (KiroStream.feedEach budget {} sent.pieces).1 from thinking]
      exact fun both => partly ⟨begun.mpr both.2, both.1⟩
    simp only [fails, told, answered]
    rw [decide_eq_false open_]
    rfl

/-- A new splitter tells what the reply says exactly where no cut is torn, and then it leaves a section
open where the reply does. -/
theorem feedAll_start_iff (pieces : List (List Char)) :
    (thoughts (({} : Thinking).feedAll pieces).2 = (Reply.of pieces.flatten).section_ ∧
      answer (({} : Thinking).feedAll pieces).2 = (Reply.of pieces.flatten).remainder) ↔
      ¬Torn pieces := by
  have tells := Thinking.tells_iff [] pieces
  have fresh : Thinking.after [] = {} := rfl
  rw [torn_iff, ← tells]
  constructor
  · rintro ⟨section_, remainder⟩
    refine ⟨?_, ?_⟩
    · rw [fresh, section_]
      rfl
    · rw [fresh, remainder]
      rfl
  · intro told
    have section_ := told.section_
    have remainder := told.remainder
    rw [fresh] at section_ remainder
    exact ⟨section_.symm, remainder.symm⟩

/-- A transmission of which a message is beyond the limit fails the stream. -/
theorem Transmission.shown_beyond (sent : Transmission crc32 serde) (model id : String)
    (budget window : ℕ) (beyond : ¬∀ message ∈ sent.messages, message.size ≤ maxFrame) :
    ∃ reason, sent.shown tokensOf model id budget window = .error reason := by
  have found : ∃ large, sent.messages.find? (fun message => maxFrame < message.size) = some large := by
    rw [← Option.isSome_iff_exists, List.find?_isSome]
    push Not at beyond
    obtain ⟨message, listed, large⟩ := beyond
    exact ⟨message, listed, decide_eq_true large⟩
  obtain ⟨large, first⟩ := found
  obtain ⟨isLarge, good, later, split_, small⟩ := List.find?_eq_some_iff_append.mp first
  have within : ∀ message ∈ good, message.size ≤ maxFrame := by
    intro message listed
    have notLarge := small message listed
    simpa using notLarge
  have carried := List.forall₂_take good.length sent.carried
  rw [split_, List.take_left] at carried
  obtain ⟨blocks, bytes, texts_, _⟩ := blocks_of_carried carried within
  have arrives : [] ++ sent.chunks.flatten =
      bytesOf blocks ++ (large.bytes crc32 ++ later.flatMap (Message.bytes crc32)) := by
    rw [List.nil_append, sent.cut, bytes, split_, List.flatMap_append, List.flatMap_cons]
  have refused := large.refused crc32 serde (of_decide_eq_true isLarge)
  obtain ⟨reason, fails⟩ := KiroStream.pushAll_refused (talking_new model id budget window) texts_
    refused (.inl (.inl rfl)) arrives
  refine ⟨reason, ?_⟩
  rw [Transmission.shown, fails]
  rfl

/-- One bit of CRC-32. -/
def crcBits : ℕ → UInt32 → UInt32
  | 0, sum => sum
  | left + 1, sum => crcBits left (if sum &&& 1 = 1 then (sum >>> 1) ^^^ 0xEDB88320 else sum >>> 1)

/-- `crc32fast::hash`. -/
def crc32Hash (bytes : Bytes) : UInt32 :=
  bytes.foldl (fun sum byte => crcBits 8 (sum ^^^ byte.toUInt32)) 0xFFFFFFFF ^^^ 0xFFFFFFFF

/-- A text and its JSON. -/
def sampleTexts : List (String × List Char) :=
  [("\x7b\"content\":\"<thinking>\"\x7d", "<thinking>".toList),
    ("\x7b\"content\":\"\\nhi</thinking>answer\"\x7d", "\nhi</thinking>answer".toList)]

/-- The JSON of the texts. -/
def sampleJson : SerdeJson := .ofTable (sampleTexts.map fun text =>
  (text.1, .obj [("content", .string (String.ofList text.2))]))

/-- The headers of a message of the assistant. -/
def sampleHeaders : List Header :=
  [{ name := ":event-type"
     short := by decide +kernel
     value := .text "assistantResponseEvent" (by decide +kernel) },
    { name := ":message-type"
      short := by decide +kernel
      value := .text "event" (by decide +kernel) }]

/-- A message of the assistant. -/
def sampleMessage (payload : String) (short : (encodeUtf8 payload).length < 1000) : Message where
  headers := sampleHeaders
  payload := encodeUtf8 payload
  fits := by
    have headers : (sampleHeaders.flatMap Header.bytes).length = 59 := by decide +kernel
    rw [headers]
    omega

/-- A message of the assistant carries the text whose JSON it has. -/
theorem sampleMessage_carries {payload : String} {short : (encodeUtf8 payload).length < 1000}
    {text : List Char} {value : Value} (parsed : sampleJson.parse payload.toList = .ok value)
    (content : (value.field "content").asStr = some (String.ofList text)) :
    (sampleMessage payload short).Carries sampleJson text := by
  refine ⟨rfl, ?_, ?_, value, ?_, content⟩
  · rw [show (sampleMessage payload short).table[":message-type"]? = some "event" from rfl]
    decide
  · rw [show (sampleMessage payload short).table[":message-type"]? = some "event" from rfl]
    decide
  · rw [fromSlice, sampleMessage, decodeUtf8_encodeUtf8, Option.bind_some, parsed]
    rfl

/-- The messages of a reply of which the first one ends with the opening tag. -/
def sampleMessages : List Message :=
  [sampleMessage "\x7b\"content\":\"<thinking>\"\x7d" (by decide +kernel),
    sampleMessage "\x7b\"content\":\"\\nhi</thinking>answer\"\x7d" (by decide +kernel)]

/-- A reply cut behind its opening tag. -/
def sampleTransmission : Transmission crc32Hash sampleJson where
  pieces := ["<thinking>".toList, "\nhi</thinking>answer".toList]
  messages := sampleMessages
  carried := .cons (sampleMessage_carries rfl rfl) (.cons (sampleMessage_carries rfl rfl) .nil)
  chunks := [sampleMessages.flatMap (Message.bytes crc32Hash)]
  cut := List.flatten_singleton

end Aipass.Kiro
