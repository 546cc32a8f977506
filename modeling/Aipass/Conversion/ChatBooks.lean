import Aipass.Base.Result
import Aipass.Conversion.Ledger

/-!
# The books of the converters between Anthropic and Chat Completions

Towards Anthropic the counters of every chunk are booked and reported when the stream ends. Towards
Chat Completions every stop reason reports what is booked by then, and what comes later is lost.
-/
namespace Aipass.Conversion

open Proxy (TokenUsage extractUsage)

namespace CcToAm

/-- What a converter books: the counters, and whether it has ended. -/
def books (self : CcToAm) : UsageAccumulator × Bool := (self.usage, self.terminated)

variable {run next : Emitting CcToAm}

/-- An event other than the one that reports. -/
theorem quiet_put (run : Emitting CcToAm) {kind : String} (other : kind ≠ "message_delta")
    (fields : List (String × Value)) : Quiet books (Silent AM) run (put run kind fields) :=
  Quiet.frame (by simp [Silent, Frame.finalUsage, other]) run

/-- The start of a message reports nothing. -/
theorem quiet_ensureStarted (run : Emitting CcToAm) : Quiet books (Silent AM) run (ensureStarted run) := by
  rw [ensureStarted]
  split
  · exact .refl run
  · refine (Quiet.change ?_).trans (quiet_put _ (by decide) _)
    rfl

/-- The end of a block reports nothing. -/
theorem quiet_closeOpen (run : Emitting CcToAm) : Quiet books (Silent AM) run (closeOpen run) := by
  rw [closeOpen]
  split
  · exact .refl run
  · refine (Quiet.change ?_).trans (quiet_put _ (by decide) _)
    rfl

/-- The start of a block reports nothing. -/
theorem quiet_openBlock (run : Emitting CcToAm) (block : ℕ → AmBlock) (content : Value) :
    Quiet books (Silent AM) run (openBlock run block content) := by
  have closed := quiet_closeOpen run
  have counted : Quiet books (Silent AM) (closeOpen run)
      { closeOpen run with
        self := { (closeOpen run).self with nextBlock := (closeOpen run).self.nextBlock + 1 } } :=
    Quiet.change rfl
  have started := quiet_put
    { closeOpen run with
      self := { (closeOpen run).self with nextBlock := (closeOpen run).self.nextBlock + 1 } }
    (show "content_block_start" ≠ "message_delta" by decide)
    [("index", .nat (closeOpen run).self.nextBlock), ("content_block", content)]
  exact ((closed.trans counted).trans started).trans (Quiet.change rfl)

/-- A delta reports nothing. -/
theorem quiet_putDelta (run : Emitting CcToAm) (delta : Value) :
    Quiet books (Silent AM) run (putDelta run delta) := by
  rw [putDelta]
  split
  · exact quiet_put _ (by decide) _
  · exact .refl run

/-- A piece of reasoning reports nothing. -/
theorem quiet_pushReasoning (run : Emitting CcToAm) (reasoning : String) :
    Quiet books (Silent AM) run (pushReasoning run reasoning) := by
  rw [pushReasoning]
  split
  · exact .refl run
  · refine Quiet.trans ?_ (quiet_putDelta _ _)
    rw [openThinking]
    split
    · exact .refl run
    · exact quiet_openBlock _ _ _

/-- A piece of text reports nothing. -/
theorem quiet_pushText (run : Emitting CcToAm) (text : String) :
    Quiet books (Silent AM) run (pushText run text) := by
  rw [pushText]
  split
  · exact .refl run
  · refine Quiet.trans ?_ (quiet_putDelta _ _)
    rw [openText]
    split
    · exact .refl run
    · exact quiet_openBlock _ _ _

/-- A gathered call reports nothing. -/
theorem quiet_putTool (run : Emitting CcToAm) (id name input : String) :
    Quiet books (Silent AM) run (putTool run id name input) := by
  refine Quiet.trans (Quiet.trans (Quiet.trans (Quiet.change ?_) (quiet_put _ (by decide) _))
    (quiet_put _ (by decide) _)) (quiet_put _ (by decide) _)
  rfl

/-- The gathered calls report nothing. -/
theorem quiet_putTools {serde : SerdeJson} {tools : List (ℕ × BufferedTool)}
    (passes : putTools serde run tools = .ok next) : Quiet books (Silent AM) run next := by
  induction tools generalizing run with
  | nil =>
    cases passes
    exact .refl _
  | cons entry rest ih =>
    rw [putTools] at passes
    split at passes
    · cases passes
    · split at passes
      · cases passes
      · exact (quiet_putTool _ _ _ _).trans (ih passes)

/-- A choice reports nothing. -/
theorem quiet_pushChoice {serde : SerdeJson} {choice : Value}
    (passes : pushChoice serde run choice = .ok next) : Quiet books (Silent AM) run next := by
  rw [pushChoice, bind_eq_ok] at passes
  obtain ⟨tools, -, passes⟩ := passes
  cases passes
  exact (((quiet_ensureStarted run).trans (quiet_pushReasoning _ _)).trans
    (quiet_pushText _ _)).trans (Quiet.change rfl)

/-- The end of a message reports the counters booked. -/
theorem finish_reports {serde : SerdeJson} {self : CcToAm} (running : self.terminated = false)
    (passes : finish serde self = .ok next) :
    next.self.books = (self.usage, true) ∧ finalUsages AM next.out = [self.wireUsage] := by
  rw [finish, if_neg (by simp [running])] at passes
  split at passes
  · cases passes
  · obtain ⟨gathered, putting, stopped⟩ := bind_eq_ok.mp passes
    cases stopped
    have opened : Quiet books (Silent AM) { self } (closeOpen (ensureStarted { self })) :=
      (quiet_ensureStarted _).trans (quiet_closeOpen _)
    have cleared : Quiet books (Silent AM) (closeOpen (ensureStarted { self }))
        { closeOpen (ensureStarted { self }) with
          self := { (closeOpen (ensureStarted { self })).self with tools := ∅ } } :=
      Quiet.change rfl
    have quiet := (opened.trans cleared).trans (quiet_putTools putting)
    have counters : gathered.self.usage = self.usage := congrArg Prod.fst quiet.1
    have before : finalUsages AM gathered.out = [] := quiet.reports
    constructor
    · simp [putStop, put, books, counters]
    · rw [finalUsages] at before
      simp [putStop, put, finalUsages, Frame.finalUsage, wireUsage, before, counters]

/-- An error ends the message and reports nothing. -/
theorem fail_books (self : CcToAm) (error : Value) :
    (fail { self } error).self.books = (self.usage, true) ∧
      finalUsages AM (fail { self } error).out = [] := by
  have closed := quiet_closeOpen { self }
  have counters : (closeOpen { self }).self.usage = self.usage := congrArg Prod.fst closed.1
  have quiet := closed.trans
    (quiet_put _ (show "error" ≠ "message_delta" by decide) [("error", error)])
  exact ⟨by simp [fail, put, books, counters], quiet.reports⟩

/-- A chunk is booked, and reports nothing. -/
theorem pushChunk_books {serde : SerdeJson} {self : CcToAm} {chunk : Value}
    (passes : pushChunk serde self chunk = .ok next) :
    finalUsages AM next.out = [] ∧ next.self.books =
      if (chunk.get "error").isSome then (self.usage, true)
      else (self.usage.observe CC chunk, self.terminated) := by
  rw [pushChunk] at passes
  cases failed : chunk.get "error" with
  | some error =>
    rw [failed] at passes
    cases passes
    obtain ⟨ended, silent⟩ := fail_books self error
    exact ⟨silent, ended⟩
  | none =>
    rw [failed] at passes
    simp only at passes
    split at passes
    · cases passes
      exact ⟨rfl, rfl⟩
    · have quiet := quiet_pushChoice passes
      exact ⟨quiet.reports, quiet.1⟩

/-- A call keeps the books of the ledger and reports what it says. -/
theorem push_reports {serde : SerdeJson} {self : CcToAm} {ledger : Ledger} {raw : List Char}
    (booked : self.books = (ledger.usage, ledger.ended))
    (passes : push serde self raw = .ok next) :
    next.self.books = ((ledger.read serde CC AM raw).usage, (ledger.read serde CC AM raw).ended) ∧
      Reports CC AM ledger (ledger.read serde CC AM raw) next.out := by
  obtain ⟨counters, ended⟩ := Prod.ext_iff.mp booked
  simp only [books] at counters ended
  obtain ⟨parsed, parsing, passes⟩ := bind_eq_ok.mp passes
  cases running : self.terminated with
  | true =>
    rw [Ledger.read_ended (ended.symm.trans running)]
    rw [finish, if_pos running, if_pos running, ite_self] at passes
    cases passes
    exact ⟨booked, .inl ⟨rfl, rfl⟩⟩
  | false =>
    have going : ¬ ledger.ended = true := by simp [← ended, running]
    rw [Ledger.read]
    by_cases marker : Text.trim parsed.data = "[DONE]".toList
    · have event : readEvent serde CC AM raw = some .done := by
        simp [readEvent, parsing, Except.toOption, marker]
      rw [if_pos marker] at passes
      obtain ⟨kept, reported⟩ := finish_reports running passes
      simp only [event, Option.elim, Ledger.step, if_neg going]
      refine ⟨by rw [kept, counters], .inr ⟨_, _, reported, rfl, fun usageOf => ?_⟩⟩
      rw [wireUsage, counters]
      exact extractUsage_convertUsage usageOf (by decide)
    · rw [if_neg marker, if_neg (by simp [running])] at passes
      obtain ⟨payload, reading, passes⟩ := bind_eq_ok.mp passes
      have event : readEvent serde CC AM raw = payload.map (.payload "") := by
        simp only [readEvent, parsing, Except.toOption, Option.bind_eq_bind, Option.bind_some,
          if_neg marker, reading]
        cases payload <;> rfl
      rw [event]
      cases payload with
      | none =>
        cases passes
        exact ⟨booked, .inl ⟨rfl, rfl⟩⟩
      | some chunk =>
        obtain ⟨silent, kept⟩ := pushChunk_books passes
        have fails : chunkFails AM chunk = (chunk.get "error").isSome := by
          rw [chunkFails]
          cases chunk.get "error" <;> rfl
        simp only [Option.map_some, Option.elim, Ledger.step, if_neg going, fails]
        rw [kept]
        split
        · exact ⟨by rw [counters], .inl ⟨silent, rfl⟩⟩
        · exact ⟨by rw [counters, ended], .inl ⟨silent, rfl⟩⟩

end CcToAm

/-- What the converters of Anthropic streams read in an event's text. -/
theorem readEvent_anthropic {serde : SerdeJson} {target : ProxyProtocol} {raw : List Char}
    {parsed : SseEvent} {payload : Option Value} (parsing : parseSse raw = .ok parsed)
    (reading : parsePayload serde parsed AM = .ok payload) :
    readEvent serde AM target raw =
      payload.bind fun value => (eventKind parsed value).map fun kind => .payload kind value := by
  simp only [readEvent, parsing, Except.toOption, Option.bind_eq_bind, Option.bind_some, reading]
  cases payload with
  | none => rfl
  | some value =>
    rw [Option.bind_some, Option.bind_some]
    cases eventKind parsed value <;> rfl

namespace AmToCc

/-- What a converter books: the counters, and whether it has ended. -/
def books (self : AmToCc) : UsageAccumulator × Bool := (self.usage, self.done)

variable {run next : Emitting AmToCc}

/-- A chunk without usage. -/
theorem quiet_put (run : Emitting AmToCc) (delta : Value) :
    Quiet books (Silent CC) run (put run delta) :=
  Quiet.frame (by simp [chunk, Silent, Frame.finalUsage]) run

/-- An event that neither reports nor ends the message. -/
theorem quiet_pushKind {serde : SerdeJson} (self : AmToCc) (reading : Reading) {kind : String}
    (payload : Value) (other : kind ≠ "message_delta") (goes : kind ≠ "message_stop")
    (fine : kind ≠ "error") :
    Quiet books (Silent CC) { self } (pushKind serde self reading kind payload) := by
  unfold pushKind
  split
  · exact (Quiet.change (by rfl)).trans (quiet_put _ _)
  · rw [startBlock]
    split
    · exact (Quiet.change (by rfl)).trans (quiet_put _ _)
    · exact .refl _
  · rw [pushDelta]
    split
    · dsimp only
      split
      · exact .refl _
      · exact quiet_put _ _
    · exact quiet_put _ _
    · split
      · exact .refl _
      · refine (Quiet.change ?_).trans (quiet_put _ _)
        split <;> rfl
    · exact .refl _
  · exact absurd rfl other
  · rw [stopBlock]
    split
    · exact .refl _
    · exact (Quiet.change (by rfl)).trans (quiet_put _ _)
  · exact absurd rfl goes
  · exact absurd rfl fine
  · exact .refl _

/-- A call keeps the books of the ledger and reports what it says. -/
theorem push_reports {serde : SerdeJson} {self : AmToCc} {reading : Reading} {ledger : Ledger}
    {raw : List Char} (booked : self.books = (ledger.usage, ledger.ended))
    (passes : push serde self reading raw = .ok next) :
    next.self.books = ((ledger.read serde AM CC raw).usage, (ledger.read serde AM CC raw).ended) ∧
      Reports AM CC ledger (ledger.read serde AM CC raw) next.out := by
  obtain ⟨counters, ended⟩ := Prod.ext_iff.mp booked
  simp only [books] at counters ended
  obtain ⟨parsed, parsing, passes⟩ := bind_eq_ok.mp passes
  obtain ⟨payload, read, passes⟩ := bind_eq_ok.mp passes
  rw [Ledger.read, readEvent_anthropic parsing read]
  cases payload with
  | none =>
    cases passes
    exact ⟨booked, .inl ⟨rfl, rfl⟩⟩
  | some payload =>
    rw [Option.bind_some]
    cases named : eventKind parsed payload with
    | none =>
      simp only [named] at passes
      cases passes
      exact ⟨booked, .inl ⟨rfl, rfl⟩⟩
    | some kind =>
      simp only [named] at passes
      simp only [Option.map_some, Option.elim, Ledger.step]
      split at passes
      · next stopped =>
        cases passes
        rw [if_pos (ended.symm.trans stopped)]
        exact ⟨booked, .inl ⟨rfl, rfl⟩⟩
      · next running =>
        cases passes
        have going : ¬ ledger.ended = true := by rwa [← ended]
        have stopped : self.done = false := by simpa using running
        rw [if_neg going]
        by_cases report : kind = "message_delta"
        · subst report
          refine ⟨?_, .inr ⟨convertUsage AM CC (self.usage.observe AM payload).wire, _, ?_, rfl,
            fun usageOf => ?_⟩⟩
          · simp [books, pushKind, pushMessageDelta, counters, stopped]
          · simp only [pushKind, pushMessageDelta, finalUsages, List.nil_append, List.filterMap_cons,
              List.filterMap_nil, Frame.finalUsage, chunk, if_true]
            rw [Value.get_set (Value.isObject_obj _), if_pos rfl]
            rfl
          · rw [counters]
            exact extractUsage_convertUsage usageOf (by decide)
        have kept : (if kind = reportingKind CC then some (ledger.usage.observe AM payload).wire
            else ledger.final) = ledger.final := if_neg report
        by_cases stop : kind = "message_stop"
        · subst stop
          refine ⟨?_, .inl ⟨rfl, kept⟩⟩
          simp [books, pushKind, counters]
        by_cases fails : kind = "error"
        · subst fails
          refine ⟨?_, .inl ⟨?_, kept⟩⟩
          · simp [books, pushKind, counters, fail]
          · simp [pushKind, fail, finalUsages, Frame.finalUsage]
        have quiet := @quiet_pushKind serde
          { self with usage := self.usage.observe AM payload } reading kind payload report stop fails
        refine ⟨?_, .inl ⟨quiet.reports, kept⟩⟩
        rw [quiet.1]
        simp [books, counters, stopped, stop, fails]

end AmToCc

end Aipass.Conversion
