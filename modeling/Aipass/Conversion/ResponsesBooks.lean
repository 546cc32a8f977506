import Aipass.Conversion.ChatBooks
import Aipass.Conversion.MessagesSimulation

/-!
# The books of the converters to Responses

Both converters book the counters of every event and report them in the event that ends the
stream.
-/
namespace Aipass.Conversion

open Proxy (TokenUsage extractUsage)

namespace AmToRs

/-- What a converter books: the counters, and whether it has ended. -/
def books (self : AmToRs) : UsageAccumulator × Bool := (self.usage, self.terminated)

/-- A frame that can be numbered, and reports nothing on the whole answer. -/
def Modest (frame : Frame) : Prop := Legible frame ∧ Silent RS frame

variable {run next : Emitting AmToRs}

/-- An event other than the two that report. -/
theorem quiet_put (run : Emitting AmToRs) {kind : String} (solid : solidName kind = true)
    (other : kind ≠ "response.completed" ∧ kind ≠ "response.incomplete")
    (fields : List (String × Value)) : Quiet books Modest run (put run kind fields) := by
  have quiet : Modest (.typed kind (.obj (("type", .string kind) :: fields))) :=
    ⟨⟨kind, _, rfl, cleanName_of_solid solid, Value.isObject_obj _⟩,
      by simp [Silent, Frame.finalUsage, other]⟩
  exact Quiet.frame quiet run

/-- The opening of a text reports nothing. -/
theorem quiet_startText (run : Emitting AmToRs) : Quiet books Modest run (startText run) := by
  refine Quiet.trans (Quiet.trans (Quiet.trans (Quiet.change ?_)
    (quiet_put _ (by decide) (by decide) _)) (quiet_put _ (by decide) (by decide) _))
      (Quiet.change ?_)
  · rfl
  · rfl

/-- The opening of a reasoning reports nothing. -/
theorem quiet_startReasoning (run : Emitting AmToRs) :
    Quiet books Modest run (startReasoning run) := by
  refine Quiet.trans (Quiet.trans (Quiet.trans (Quiet.change ?_)
    (quiet_put _ (by decide) (by decide) _)) (quiet_put _ (by decide) (by decide) _))
      (Quiet.change ?_)
  · rfl
  · rfl

/-- The opening of a call reports nothing. -/
theorem quiet_startCall (serde : SerdeJson) (run : Emitting AmToRs) (block : Value) :
    Quiet books Modest run (startCall serde run block) := by
  refine Quiet.trans (Quiet.trans (Quiet.change ?_) (quiet_put _ (by decide) (by decide) _))
    (Quiet.change ?_)
  · rfl
  · rfl

/-- The closing of a reasoning reports nothing. -/
theorem quiet_closeReasoning (run : Emitting AmToRs) :
    Quiet books Modest run (closeReasoning run) := by
  rw [closeReasoning]
  split
  · exact .refl run
  · refine Quiet.trans (Quiet.trans (Quiet.trans (quiet_put _ (by decide) (by decide) _)
      (quiet_put _ (by decide) (by decide) _)) (quiet_put _ (by decide) (by decide) _))
        (Quiet.change ?_)
    rfl

/-- The closing of a text reports nothing. -/
theorem quiet_closeText (run : Emitting AmToRs) : Quiet books Modest run (closeText run) := by
  rw [closeText]
  split
  · exact .refl run
  · refine Quiet.trans (Quiet.trans (Quiet.trans (quiet_put _ (by decide) (by decide) _)
      (quiet_put _ (by decide) (by decide) _)) (quiet_put _ (by decide) (by decide) _))
        (Quiet.change ?_)
    rfl

/-- The closing of a call reports nothing. -/
theorem quiet_closeCall (run : Emitting AmToRs) : Quiet books Modest run (closeCall run) := by
  rw [closeCall]
  split
  · exact .refl run
  · refine Quiet.trans (Quiet.trans (quiet_put _ (by decide) (by decide) _)
      (quiet_put _ (by decide) (by decide) _)) (Quiet.change ?_)
    rfl

/-- The closing of the open item reports nothing. -/
theorem quiet_finalizeOpen (run : Emitting AmToRs) :
    Quiet books Modest run (finalizeOpen run) :=
  ((quiet_closeReasoning run).trans (quiet_closeText _)).trans (quiet_closeCall _)

/-- A piece of reasoning reports nothing. -/
theorem quiet_appendReasoning (run : Emitting AmToRs) (text : String) :
    Quiet books Modest run (appendReasoning run text) := by
  rw [appendReasoning]
  split
  · exact .refl run
  · exact (quiet_put _ (by decide) (by decide) _).trans (Quiet.change (by rfl))

/-- A piece of text reports nothing. -/
theorem quiet_appendText (run : Emitting AmToRs) (text : String) :
    Quiet books Modest run (appendText run text) := by
  rw [appendText]
  split
  · exact .refl run
  · exact (quiet_put _ (by decide) (by decide) _).trans (Quiet.change (by rfl))

/-- A piece of arguments reports nothing. -/
theorem quiet_appendCall (run : Emitting AmToRs) (text : String) :
    Quiet books Modest run (appendCall run text) := by
  rw [appendCall]
  split
  · exact .refl run
  · exact (quiet_put _ (by decide) (by decide) _).trans (Quiet.change (by rfl))

/-- A delta reports nothing. -/
theorem quiet_pushDelta (run : Emitting AmToRs) (payload : Value) :
    Quiet books Modest run (pushDelta run payload) := by
  rw [pushDelta]
  split
  · dsimp only
    split
    · exact .refl run
    · refine Quiet.trans ?_ (quiet_appendReasoning _ _)
      split
      · exact (quiet_finalizeOpen run).trans (quiet_startReasoning _)
      · exact .refl run
  · refine Quiet.trans ?_ (quiet_appendText _ _)
    split
    · exact (quiet_finalizeOpen run).trans (quiet_startText _)
    · exact .refl run
  · exact quiet_appendCall run _
  · exact .refl run

/-- An event that does not end the message reports nothing. -/
theorem quiet_pushKind {serde : SerdeJson} (self : AmToRs) (reading : Reading) {kind : String}
    (payload : Value) (goes : kind ≠ "message_stop") (fine : kind ≠ "error") :
    Quiet books Modest { self } (pushKind serde self reading kind payload) := by
  unfold pushKind
  split
  · exact absurd rfl fine
  · refine Quiet.trans (Quiet.trans (Quiet.change ?_) (quiet_put _ (by decide) (by decide) _))
      (quiet_put _ (by decide) (by decide) _)
    rfl
  · rw [startBlock]
    split
    · exact (quiet_finalizeOpen _).trans (quiet_startText _)
    · exact (quiet_finalizeOpen _).trans (quiet_startCall _ _ _)
    · exact .refl _
  · exact quiet_pushDelta _ _
  · exact quiet_finalizeOpen _
  · dsimp only
    split
    · exact Quiet.change (by rfl)
    · exact .refl _
  · exact absurd rfl goes
  · exact .refl _

/-- The numbering keeps what the frames report, up to the fractions. -/
theorem finalUsages_renumber {serde : SerdeJson} {reread : String → String}
    (lawful : serde.Lawful) (readsBack : serde.ReadsBack reread) {frames numbered : List Frame}
    (legible : ∀ frame ∈ frames, Legible frame) {sequence : ℕ}
    (passes : renumber serde sequence frames = .ok numbered) :
    finalUsages RS numbered = (finalUsages RS frames).map (Value.mapFloats reread) := by
  induction frames generalizing numbered sequence with
  | nil =>
    cases passes
    rfl
  | cons frame rest ih =>
    obtain ⟨kind, event, rfl, clean, isObject⟩ := legible frame List.mem_cons_self
    simp only [renumber, bind_eq_ok, parseSse_typed lawful clean isObject, mapError_eq_ok,
      Except.ok.injEq] at passes
    obtain ⟨parsed, rfl, read, parsedBack, tail, renumbered, rfl⟩ := passes
    have readEq := readsBack event read parsedBack
    subst readEq
    have later := ih (fun frame listed => legible frame (List.mem_cons_of_mem _ listed)) renumbered
    have head : (Frame.typed kind ((event.mapFloats reread).set "sequence_number"
        (.nat sequence))).finalUsage RS =
          ((Frame.typed kind event).finalUsage RS).map (Value.mapFloats reread) := by
      have other : ((event.mapFloats reread).set "sequence_number" (.nat sequence)).pointer
          ["response", "usage"] = (event.mapFloats reread).pointer ["response", "usage"] := by
        simp [Value.isObject_mapFloats reread isObject]
      simp only [Frame.finalUsage, other, Value.pointer_mapFloats]
      split <;> rfl
    rw [Option.getD_some, String.ofList_toList, finalUsages_cons, finalUsages_cons, head, later,
      List.map_append]
    cases (Frame.typed kind event).finalUsage RS <;> rfl

/-- The response that ends a stream has the usage of the counters booked. -/
theorem usage_envelope (self : AmToRs) (kind status : String)
    (ends : kind = "response.completed" ∨ kind = "response.incomplete") :
    (envelope self kind status).get "usage" = some (convertUsage AM RS self.usage.wire) := by
  simp only [envelope, if_pos ends]
  split
  · simp [convertUsage]
  · simp [convertUsage]

/-- The end of a message reports the counters booked. -/
theorem stopMessage_reports (self : AmToRs) :
    (stopMessage { self }).self.books = (self.usage, true) ∧
      (∀ frame ∈ (stopMessage { self }).out, Legible frame) ∧
      finalUsages RS (stopMessage { self }).out = [convertUsage AM RS self.usage.wire] := by
  have quiet := quiet_finalizeOpen { self }
  have counters : (finalizeOpen { self }).self.usage = self.usage := congrArg Prod.fst quiet.1
  obtain ⟨-, more, put_, modest⟩ := quiet
  rw [List.nil_append] at put_
  have silent := finalUsages_of_silent fun frame listed => (modest frame listed).2
  have reports : ∀ kind status, solidName kind = true →
      (kind = "response.completed" ∨ kind = "response.incomplete") →
      let run := put (finalizeOpen { self }) kind
        [("response", envelope (finalizeOpen { self }).self kind status)]
      (∀ frame ∈ run.out, Legible frame) ∧
        finalUsages RS run.out = [convertUsage AM RS self.usage.wire] := by
    intro kind status solid ends run
    constructor
    · intro frame listed
      rcases List.mem_append.mp listed with before | last
      · exact (modest frame (put_ ▸ before)).1
      · rw [List.mem_singleton] at last
        exact ⟨kind, _, last, cleanName_of_solid solid, Value.isObject_obj _⟩
    · have usage := usage_envelope (finalizeOpen { self }).self kind status ends
      rw [counters] at usage
      simp only [run, put, put_, finalUsages_append, silent, List.nil_append]
      simp [finalUsages, Frame.finalUsage, ends, usage]
  rw [stopMessage]
  dsimp only
  split
  · refine ⟨by simp [books, put, counters], reports _ _ (by decide) (.inr rfl)⟩
  · refine ⟨by simp [books, put, counters], reports _ _ (by decide) (.inl rfl)⟩

/-- An error ends the message and reports nothing. -/
theorem fail_books (self : AmToRs) (payload : Value) :
    (fail { self } payload).self.books = (self.usage, true) ∧
      ∀ frame ∈ (fail { self } payload).out, Modest frame := by
  have closed := quiet_finalizeOpen { self }
  have counters : (finalizeOpen { self }).self.usage = self.usage := congrArg Prod.fst closed.1
  have failed : ∃ first second, Quiet books Modest { self }
      (put (put (finalizeOpen { self }) "error" first) "response.failed" second) ∧
      (put (put (finalizeOpen { self }) "error" first) "response.failed" second).out =
        (fail { self } payload).out :=
    ⟨_, _, (closed.trans (quiet_put _ (by decide) (by decide) _)).trans
      (quiet_put _ (by decide) (by decide) _), rfl⟩
  obtain ⟨_, _, ⟨-, more, grown, modest⟩, same⟩ := failed
  refine ⟨by simp [fail, put, books, counters], ?_⟩
  rw [← same, grown]
  exact modest

/-- A call keeps the books of the ledger and reports what it says. -/
theorem push_reports {serde : SerdeJson} (lawful : serde.Lawful) {self : AmToRs}
    {reading : Reading} {ledger : Ledger} {raw : List Char}
    (booked : self.books = (ledger.usage, ledger.ended))
    (passes : push serde self reading raw = .ok next) :
    next.self.books = ((ledger.read serde AM RS raw).usage, (ledger.read serde AM RS raw).ended) ∧
      Reports AM RS ledger (ledger.read serde AM RS raw) next.out := by
  obtain ⟨reread, readsBack⟩ := lawful.readsBack
  obtain ⟨counters, ended⟩ := Prod.ext_iff.mp booked
  simp only [books] at counters ended
  obtain ⟨parsed, parsing, passes⟩ := bind_eq_ok.mp passes
  obtain ⟨payload, read, passes⟩ := bind_eq_ok.mp passes
  rw [Ledger.read, readEvent_anthropic parsing read]
  cases payload with
  | none =>
    cases passes
    exact ⟨booked, .inl ⟨rfl, rfl⟩⟩
  | some payload =>
    rw [Option.bind_some]
    cases named : eventKind parsed payload with
    | none =>
      simp only [named] at passes
      cases passes
      exact ⟨booked, .inl ⟨rfl, rfl⟩⟩
    | some kind =>
      simp only [named] at passes
      simp only [Option.map_some, Option.elim, Ledger.step]
      split at passes
      · next stopped =>
        cases passes
        rw [if_pos (ended.symm.trans stopped)]
        exact ⟨booked, .inl ⟨rfl, rfl⟩⟩
      · next running =>
        obtain ⟨numbered, numbering, passes⟩ := bind_eq_ok.mp passes
        cases passes
        have going : ¬ ledger.ended = true := by rwa [← ended]
        have stopped : self.terminated = false := by simpa using running
        rw [if_neg going]
        by_cases stop : kind = "message_stop"
        · subst stop
          obtain ⟨kept, legible, reported⟩ :=
            stopMessage_reports { self with usage := self.usage.observe AM payload }
          refine ⟨?_, .inr ⟨(convertUsage AM RS (self.usage.observe AM payload).wire).mapFloats
            reread, _, ?_, rfl, fun usageOf => ?_⟩⟩
          · refine kept.trans ?_
            rw [counters]
            rfl
          · rw [finalUsages_renumber lawful readsBack legible numbering]
            exact congrArg (List.map (Value.mapFloats reread)) reported
          · rw [extractUsage_mapFloats, counters]
            exact extractUsage_convertUsage usageOf (by decide)
        have kept : (if kind = reportingKind RS then some (ledger.usage.observe AM payload).wire
            else ledger.final) = ledger.final := if_neg stop
        have silenced : (∀ frame ∈ (pushKind serde { self with usage := self.usage.observe AM payload }
            reading kind payload).out, Modest frame) → finalUsages RS numbered = [] := by
          intro modest
          have silent := finalUsages_of_silent fun frame listed => (modest frame listed).2
          rw [finalUsages_renumber lawful readsBack (fun frame listed => (modest frame listed).1)
            numbering, silent, List.map_nil]
        by_cases fails : kind = "error"
        · subst fails
          obtain ⟨same, modest⟩ :=
            fail_books { self with usage := self.usage.observe AM payload } payload
          refine ⟨same.trans ?_, .inl ⟨silenced modest, kept⟩⟩
          rw [counters]
          rfl
        obtain ⟨same, more, grown, modest⟩ := @quiet_pushKind serde
          { self with usage := self.usage.observe AM payload } reading kind payload stop fails
        rw [List.nil_append] at grown
        rw [← grown] at modest
        refine ⟨same.trans ?_, .inl ⟨silenced modest, kept⟩⟩
        simp [books, counters, stopped, stop, fails]

end AmToRs

namespace ChatToResponses

/-- What a converter books: the counters, and whether it has ended. -/
def books (self : ChatToResponses) : UsageAccumulator × Bool := (self.usage, self.done)

variable {serde : SerdeJson} {run next : Emitting ChatToResponses}

/-- An event of another type than the two that report. -/
theorem quiet_emit (run : Emitting ChatToResponses) {value : Value}
    (other : string (value.get "type") ≠ "response.completed" ∧
      string (value.get "type") ≠ "response.incomplete") :
    Quiet books (Silent RS) run (emit run value) := by
  have silent : Silent RS (event value run.self.sequence) := by
    simp [Silent, event, Frame.finalUsage, other]
  exact (Quiet.frame silent run).trans (Quiet.change rfl)

/-- An announced item reports nothing. -/
theorem quiet_add (run : Emitting ChatToResponses) (item : Value) :
    Quiet books (Silent RS) run (add run item) := by
  have other : string ((itemAdded run.self.output.length item).get "type") =
      "response.output_item.added" := by simp [itemAdded, string]
  exact (quiet_emit run (by rw [other]; decide)).trans (Quiet.change rfl)

/-- The start of a stream reports nothing. -/
theorem quiet_start (reading : Reading) (payload : Value) (run : Emitting ChatToResponses) :
    Quiet books (Silent RS) run (start reading payload run) := by
  rw [start]
  split
  · exact .refl run
  · have opens : ∀ (self : ChatToResponses) (kind : String),
        string ((opening self kind).get "type") = kind := fun self kind => by
      simp [opening, string]
    refine Quiet.trans (Quiet.trans (Quiet.change ?_) (quiet_emit _ ?_)) (quiet_emit _ ?_)
    · rfl
    · rw [opens]
      decide
    · rw [opens]
      decide

/-- An opened text reports nothing. -/
theorem quiet_openText (run : Emitting ChatToResponses) (kind : TextKind) :
    Quiet books (Silent RS) run (openText run kind) := by
  have other : ∀ id position, string ((partAdded kind id position).get "type") = kind.names.added := by
    intro id position
    cases kind <;> simp [partAdded, string, TextKind.names]
  refine Quiet.trans (Quiet.trans (quiet_add run _) (quiet_emit _ ?_)) (Quiet.change ?_)
  · rw [other]
    cases kind <;> decide
  · cases kind <;> rfl

/-- A piece of text reports nothing. -/
theorem quiet_pushText (kind : TextKind) (run : Emitting ChatToResponses) (text : String) :
    Quiet books (Silent RS) run (pushText kind run text) := by
  have other : ∀ id position text,
      string ((textDelta kind id position text).get "type") = kind.names.delta := by
    intro id position text
    cases kind <;> simp [textDelta, string, TextKind.names]
  have append : ∀ run position, Quiet books (Silent RS) run (appendText run kind position text) := by
    intro run position
    refine Quiet.trans (Quiet.change ?_) (quiet_emit _ ?_)
    · rfl
    · rw [other]
      cases kind <;> decide
  rw [pushText]
  split
  · exact .refl run
  · split
    · exact append run _
    · exact (quiet_openText run kind).trans (append _ _)

/-- The parts of a content report nothing. -/
theorem quiet_contentParts (parts : List Value) (passes : contentParts run parts = .ok next) :
    Quiet books (Silent RS) run next := by
  induction parts generalizing run with
  | nil =>
    cases passes
    exact .refl _
  | cons part rest ih =>
    rw [contentParts] at passes
    split at passes
    · exact (quiet_pushText _ _ _).trans (ih passes)
    · split at passes
      · exact (Quiet.foldl (fun run part => quiet_pushText _ run _) _ run).trans (ih passes)
      · exact (quiet_pushText _ _ _).trans (ih passes)
    · cases passes

/-- The content of a delta reports nothing. -/
theorem quiet_pushContent {content : Option Value} (passes : pushContent run content = .ok next) :
    Quiet books (Silent RS) run next := by
  rw [pushContent.eq_def] at passes
  split at passes
  · cases passes
    exact quiet_pushText _ _ _
  · exact quiet_contentParts _ passes
  · cases passes
    exact .refl _

/-- A fragment of a call reports nothing. -/
theorem quiet_pushCall (run : Emitting ChatToResponses) (entry : Value × ℕ) :
    Quiet books (Silent RS) run (pushCall serde run entry) := by
  have named : ∀ run position call, Quiet books (Silent RS) run (nameCall run position call) := by
    intro run position call
    rw [nameCall]
    split
    · exact Quiet.change (by rfl)
    · exact .refl run
  have append : ∀ run position call,
      Quiet books (Silent RS) run (appendCall serde run position call) := by
    intro run position call
    rw [appendCall]
    split
    · refine Quiet.trans (Quiet.change ?_) (quiet_emit _ ?_)
      · rfl
      · cases isCustom (run.self.output.getD position .null) <;> simp [callDelta, string]
    · exact .refl run
  rw [pushCall]
  split
  · exact (named _ _ _).trans (append _ _ _)
  · have opened : ∀ key, Quiet books (Silent RS) run (openCall run key entry.1) := fun key =>
      (quiet_add run _).trans (Quiet.change (by rfl))
    exact ((opened _).trans (named _ _ _)).trans (append _ _ _)

/-- A choice reports nothing. -/
theorem quiet_pushChoice {choice : Value} (passes : pushChoice serde run choice = .ok next) :
    Quiet books (Silent RS) run next := by
  rw [pushChoice, bind_eq_ok] at passes
  obtain ⟨middle, content, passes⟩ := passes
  have quiet := (((quiet_pushText .thinking run _).trans (quiet_pushContent content)).trans
    (quiet_pushText .refusal middle (string ((choice.field "delta").get "refusal")))).trans
    (Quiet.foldl (@quiet_pushCall serde) ((((choice.field "delta").get "tool_calls").bind
      Value.asArray).getD []).zipIdx _)
  split at passes
  · cases passes
    exact quiet.trans (Quiet.change (by rfl))
  · cases passes
    exact quiet

/-- The choices of a chunk report nothing. -/
theorem quiet_pushChoices (choices : List Value)
    (passes : pushChoices serde run choices = .ok next) :
    Quiet books (Silent RS) run next := by
  induction choices generalizing run with
  | nil =>
    cases passes
    exact .refl _
  | cons choice rest ih =>
    rw [pushChoices] at passes
    split at passes
    · dsimp only at passes
      split at passes
      · exact (Quiet.change (by rfl)).trans (ih passes)
      · exact (Quiet.change (by rfl)).trans (quiet_pushChoice passes)
    · exact quiet_pushChoice passes

/-- A closed item reports nothing. -/
theorem quiet_closeItem (run : Emitting ChatToResponses) (position : ℕ) :
    Quiet books (Silent RS) run (closeItem run position) := by
  have calls : ∀ custom id position arguments,
      string ((callDone custom id position arguments).get "type") ≠ "response.completed" ∧
        string ((callDone custom id position arguments).get "type") ≠ "response.incomplete" := by
    intro custom id position arguments
    cases custom <;> simp [callDone, argumentField, string]
  have texts : ∀ kind id position text,
      string ((textDone kind id position text).get "type") = kind.names.done := by
    intro kind id position text
    cases kind <;> simp [textDone, TextKind.names, string]
  have parts : ∀ kind id position part,
      string ((partDone kind id position part).get "type") = kind.names.partDone := by
    intro kind id position part
    cases kind <;> simp [partDone, TextKind.names, string]
  have closed : ∀ item, Quiet books (Silent RS) run (closeText run position item) := by
    intro item
    refine (quiet_emit _ ?_).trans (quiet_emit _ ?_)
    · rw [texts]
      cases itemKind item <;> decide
    · rw [parts]
      cases itemKind item <;> decide
  have done : ∀ (run : Emitting ChatToResponses) (self : ChatToResponses) item,
      books self = books run.self →
      Quiet books (Silent RS) run (emit { run with self } (itemDone position item)) := by
    intro run self item same
    refine (Quiet.change same).trans (quiet_emit _ ?_)
    simp [itemDone, string]
  rw [closeItem]
  dsimp only
  split
  · exact (quiet_emit run (calls _ _ _ _)).trans (done _ _ _ rfl)
  · exact (closed _).trans (done _ _ _ rfl)

/-- The terminal event reports the counters booked. -/
theorem finalUsage_terminal (self : ChatToResponses) (reason : String) (sequence : ℕ) :
    (event (terminal self reason) sequence).finalUsage RS =
      some (convertUsage CC RS self.usage.wire) := by
  by_cases incomplete : reason = "length" ∨ reason = "content_filter"
  · simp [event, terminal, Frame.finalUsage, string, incomplete, convertUsage]
  · simp [event, terminal, Frame.finalUsage, string, incomplete, convertUsage]

/-- The end of a stream reports the counters booked. -/
theorem finish_reports {self : ChatToResponses} (running : self.done = false)
    (passes : finish self = .ok next) :
    next.self.books = (self.usage, true) ∧
      finalUsages RS next.out = [convertUsage CC RS self.usage.wire] := by
  rw [finish, if_neg (by simp [running])] at passes
  split at passes
  · cases passes
  · next reason _ =>
    cases passes
    have quiet : Quiet books (Silent RS) { self }
        ((List.range self.output.length).foldl closeItem { self }) :=
      Quiet.foldl quiet_closeItem _ _
    have counters := congrArg Prod.fst quiet.1
    simp only [books] at counters
    have before := quiet.reports
    constructor
    · simp [emit, books, counters]
    · simp only [emit, finalUsages_append, finalUsages_cons, finalUsage_terminal, before, counters]
      rfl

/-- Null counts nothing, so a usage that is null need not be booked. -/
theorem observe_chunk (held : UsageAccumulator) (payload : Value) :
    held.observe CC payload =
      match (payload.get "usage").filter Value.present with
      | some counters => held.update counters
      | none => held := by
  simp only [UsageAccumulator.observe, Option.bind_none]
  cases payload.get "usage" with
  | none => rfl
  | some counters =>
    cases counters <;> rfl

/-- An error ends the stream and reports nothing. -/
theorem fail_books (run : Emitting ChatToResponses) (error : Value) :
    (fail run error).self.books = (run.self.usage, true) ∧
      finalUsages RS (fail run error).out = finalUsages RS run.out := by
  have failed : Quiet books (Silent RS) run
      (emit (emit run (.obj [("type", "error"), ("error", error),
        ("message", error.field "message")])) (.obj [("type", "response.failed"),
          ("response", .obj [("id", run.self.id), ("object", "response"), ("status", "failed"),
            ("error", error), ("output", .array run.self.output)])])) :=
    (quiet_emit _ (by simp [string])).trans (quiet_emit _ (by simp [string]))
  exact ⟨rfl, failed.reports⟩

/-- A chunk is booked, and reports nothing. -/
theorem pushChunk_books {self : ChatToResponses} {reading : Reading} {payload : Value}
    (passes : pushChunk serde self reading payload = .ok next) :
    finalUsages RS next.out = [] ∧ next.self.books =
      if chunkFails RS payload then (self.usage, true)
      else (self.usage.observe CC payload, self.done) := by
  have opened := quiet_start reading payload { self }
  have counters : (start reading payload { self }).self.usage = self.usage :=
    congrArg Prod.fst opened.1
  have running : (start reading payload { self }).self.done = self.done :=
    congrArg Prod.snd opened.1
  have fails : chunkFails RS payload = ((payload.get "error").filter Value.present).isSome := by
    rw [chunkFails]
    cases payload.get "error" with
    | none => rfl
    | some error => cases present : error.present <;> simp [present]
  rw [fails]
  rw [pushChunk] at passes
  cases failing : (payload.get "error").filter Value.present with
  | some error =>
    simp only [failing] at passes
    cases passes
    obtain ⟨ended, silent⟩ := fail_books (start reading payload { self }) error
    rw [counters] at ended
    exact ⟨silent.trans opened.reports, ended⟩
  | none =>
    simp only [failing] at passes
    have booked : ∃ held : ChatToResponses,
        held.books = (self.usage.observe CC payload, self.done) ∧
        ((payload.get "choices").bind Value.asArray).elim
          (.ok { self := held, out := (start reading payload { self }).out })
          (pushChoices serde { self := held, out := (start reading payload { self }).out }) =
            .ok next := by
      rw [observe_chunk]
      cases told : (payload.get "usage").filter Value.present with
      | some counted =>
        simp only [told] at passes
        refine ⟨{ (start reading payload { self }).self with
          usage := (start reading payload { self }).self.usage.update counted }, ?_, ?_⟩
        · simp [books, counters, running]
        · rw [← passes]
          cases (payload.get "choices").bind Value.asArray <;> rfl
      | none =>
        simp only [told] at passes
        refine ⟨(start reading payload { self }).self, ?_, ?_⟩
        · simp [books, counters, running]
        · rw [← passes]
          cases (payload.get "choices").bind Value.asArray <;> rfl
    obtain ⟨held, same, passes⟩ := booked
    have quiet : Quiet books (Silent RS)
        { self := { self with usage := self.usage.observe CC payload } }
        { self := held, out := (start reading payload { self }).out } := ⟨same, opened.2⟩
    have whole : Quiet books (Silent RS)
        { self := { self with usage := self.usage.observe CC payload } } next := by
      cases listed : (payload.get "choices").bind Value.asArray with
      | some choices =>
        rw [listed, Option.elim_some] at passes
        exact quiet.trans (quiet_pushChoices _ passes)
      | none =>
        rw [listed, Option.elim_none] at passes
        cases passes
        exact quiet
    exact ⟨whole.reports, whole.1⟩

/-- A call keeps the books of the ledger and reports what it says. -/
theorem push_reports {self : ChatToResponses} {reading : Reading} {ledger : Ledger}
    {raw : List Char} (booked : self.books = (ledger.usage, ledger.ended))
    (passes : push serde self reading raw = .ok next) :
    next.self.books = ((ledger.read serde CC RS raw).usage, (ledger.read serde CC RS raw).ended) ∧
      Reports CC RS ledger (ledger.read serde CC RS raw) next.out := by
  obtain ⟨counters, ended⟩ := Prod.ext_iff.mp booked
  simp only [books] at counters ended
  rw [push] at passes
  cases running : self.done with
  | true =>
    rw [Ledger.read_ended (ended.symm.trans running)]
    rw [if_pos running] at passes
    cases passes
    exact ⟨booked, .inl ⟨rfl, rfl⟩⟩
  | false =>
    have going : ¬ ledger.ended = true := by simp [← ended, running]
    rw [if_neg (by simp [running])] at passes
    rw [Ledger.read]
    cases read : data serde raw with
    | error error =>
      simp only [read] at passes
      cases passes
    | ok payload =>
      simp only [read] at passes
      cases payload with
      | none =>
        cases passes
        have event : readEvent serde CC RS raw = none := by
          simp [readEvent, read, Except.toOption]
        rw [event]
        exact ⟨booked, .inl ⟨rfl, rfl⟩⟩
      | some payload =>
        simp only at passes
        split at passes
        · next marker =>
          have event : readEvent serde CC RS raw = some .done := by
            simp [readEvent, read, Except.toOption, marker]
          rw [pushDone] at passes
          split at passes
          · cases passes
          · obtain ⟨kept, reported⟩ := finish_reports (by exact running) passes
            simp only [event, Option.elim, Ledger.step, if_neg going]
            refine ⟨by rw [kept, counters], .inr ⟨_, _, reported, rfl, fun usageOf => ?_⟩⟩
            rw [counters]
            exact extractUsage_convertUsage usageOf (by decide)
        · next other =>
          have event : readEvent serde CC RS raw =
              some (.payload (string (payload.get "type")) payload) := by
            simp [readEvent, read, Except.toOption, other]
          obtain ⟨silent, kept⟩ := pushChunk_books passes
          simp only [event, Option.elim, Ledger.step, if_neg going]
          rw [kept]
          split
          · exact ⟨by rw [counters], .inl ⟨silent, rfl⟩⟩
          · exact ⟨by rw [counters, ended], .inl ⟨silent, rfl⟩⟩

end ChatToResponses

end Aipass.Conversion
