import Aipass.Conversion.ResponsesBooks
import Aipass.Conversion.ResponsesMessages

/-!
# The usage a converted stream ends with

A converter of a Responses stream keeps no books: it reports the usage of the event that ends the
stream, and what earlier events have reported is lost. So the totals of a stream survive its
conversion exactly if what its final event is made of has them all.
-/
namespace Aipass.Conversion

open Proxy (TokenUsage extractUsage)

/-- A chunk that neither reports usage nor fails. -/
def PlainChunk (frame : Frame) : Prop :=
  ∃ payload, frame = .untyped payload ∧ payload.IsObject ∧ payload.get "usage" = none ∧
    payload.get "error" = none

/-- A plain chunk reports nothing. -/
theorem PlainChunk.silent {frame : Frame} (plain : PlainChunk frame) : Silent CC frame := by
  obtain ⟨payload, rfl, -, noUsage, -⟩ := plain
  simp [Silent, Frame.finalUsage, noUsage]

namespace ResponsesToChat

variable {serde : SerdeJson} {reading : Reading} {run next : Emitting ResponsesToChat}

/-- A chunk without usage. -/
theorem quiet_put (run : Emitting ResponsesToChat) (delta : Value) :
    Quiet done PlainChunk run (put run delta) := by
  have plain : PlainChunk (chunk run.self delta .null none) :=
    ⟨_, rfl, Value.isObject_obj _, by simp, by simp⟩
  exact Quiet.frame plain run

/-- A piece of a call is plain. -/
theorem quiet_toolDelta (run : Emitting ResponsesToChat) (index : ℕ) (text : String) :
    Quiet done PlainChunk run (toolDelta run index text) := by
  rw [toolDelta]
  split
  · exact .refl run
  · split
    · exact (Quiet.change (by rfl)).trans (quiet_put _ _)
    · exact .refl run

/-- The announcement of a call is plain. -/
theorem quiet_announce {index : ℕ} {item : Value}
    (passes : announce serde reading run index item = .ok next) :
    Quiet done PlainChunk run next := by
  rw [announce] at passes
  split at passes
  · cases passes
    exact .refl _
  · obtain ⟨call, -, passes⟩ := bind_eq_ok.mp passes
    cases passes
    exact (Quiet.change (by rfl)).trans (quiet_put _ _)

/-- A part of a closed item is plain. -/
theorem quiet_pushPart (run : Emitting ResponsesToChat) (index : ℕ) (field text : String)
    (part : ℕ) : Quiet done PlainChunk run (pushPart run index field text part) := by
  rw [pushPart]
  split
  · exact .refl run
  · exact (Quiet.change (by rfl)).trans (quiet_put _ _)

/-- A closed item is plain. -/
theorem quiet_item {index : ℕ} {value : Value}
    (passes : item serde reading run index value = .ok next) :
    Quiet done PlainChunk run next := by
  have message : ∀ run entry, Quiet done PlainChunk run (messagePart index run entry) := by
    intro run entry
    rw [messagePart]
    split
    · exact quiet_pushPart _ _ _ _ _
    · exact quiet_pushPart _ _ _ _ _
  have calls : ∀ {run next}, (do
      let run ← announce serde reading run index value
      Except.ok (callArguments run index value)) = .ok next → Quiet done PlainChunk run next := by
    intro run next passes
    obtain ⟨announced, announcing, passes⟩ := bind_eq_ok.mp passes
    cases passes
    refine (quiet_announce announcing).trans ?_
    rw [callArguments]
    split
    · exact .refl _
    · exact quiet_toolDelta _ _ _
  unfold item at passes
  split at passes
  · exact calls passes
  · exact calls passes
  · cases passes
    exact Quiet.foldl message _ run
  · cases passes
    exact Quiet.foldl (fun run entry => quiet_pushPart _ _ _ _ _) _ run
  · cases passes

/-- The items of a response are plain. -/
theorem quiet_items {entries : List (Value × ℕ)}
    (passes : items serde reading run entries = .ok next) : Quiet done PlainChunk run next := by
  induction entries generalizing run with
  | nil =>
    cases passes
    exact .refl _
  | cons entry rest ih =>
    rw [items, bind_eq_ok] at passes
    obtain ⟨middle, first, passes⟩ := passes
    exact (quiet_item first).trans (ih passes)

/-- The start of a stream is plain. -/
theorem quiet_start (payload : Value) (run : Emitting ResponsesToChat) :
    Quiet done PlainChunk run (start reading payload run) := by
  rw [start]
  split
  · exact .refl run
  · split
    · exact .refl run
    · exact (Quiet.change (by rfl)).trans (quiet_put _ _)

/-- A piece of text is plain. -/
theorem quiet_pushDelta (run : Emitting ResponsesToChat) (index : ℕ) (payload : Value) :
    Quiet done PlainChunk run (pushDelta run index payload) := by
  rw [pushDelta]
  split
  · exact .refl run
  · exact (Quiet.change (by rfl)).trans (quiet_put _ _)

/-- What a payload makes of the stream: it goes on, it is complete or it has failed. -/
inductive Pushed (self : ResponsesToChat) (payload : Value) (next : Emitting ResponsesToChat) : Prop
  /-- It goes on. -/
  | goes (other : string (payload.get "type") ≠ "response.completed" ∧
      string (payload.get "type") ≠ "response.incomplete" ∧
      string (payload.get "type") ≠ "error" ∧ string (payload.get "type") ≠ "response.failed")
      (quiet : Quiet done PlainChunk { self } next)
  /-- It is complete. -/
  | completes (ends : string (payload.get "type") = "response.completed" ∨
      string (payload.get "type") = "response.incomplete")
      (done : next.self.done = true) (chunks : List Frame) (last : Value)
      (plain : ∀ frame ∈ chunks, PlainChunk frame) (isObject : last.IsObject)
      (noError : last.get "error" = none)
      (reports : last.get "usage" =
        some (usage ((payload.field "response").field "usage") CC))
      (out : next.out = chunks ++ [.untyped last, .done])
  /-- It has failed. -/
  | fails (ends : string (payload.get "type") = "error" ∨
      string (payload.get "type") = "response.failed")
      (done : next.self.done = true) (chunks : List Frame) (last : Value)
      (plain : ∀ frame ∈ chunks, PlainChunk frame) (isObject : last.IsObject)
      (failed : (last.get "error").isSome) (silent : last.get "usage" = none)
      (out : next.out = chunks ++ [.untyped last, .done])

/-- A terminal response completes the stream. -/
theorem complete_pushed {self : ResponsesToChat} {payload : Value}
    (opened : Quiet done PlainChunk { self } run)
    (ends : string (payload.get "type") = "response.completed" ∨
      string (payload.get "type") = "response.incomplete")
    (passes : complete serde reading run payload = .ok next) : Pushed self payload next := by
  obtain ⟨closed, closing, passes⟩ := bind_eq_ok.mp passes
  cases passes
  obtain ⟨-, chunks, grown, plain⟩ := opened.trans (quiet_items closing)
  rw [List.nil_append] at grown
  refine .completes ends rfl chunks _ plain ?_ ?_ ?_ (by rw [grown, chunk])
  · exact Value.isObject_set (Value.isObject_obj _) _ _
  · simp
  · simp

/-- An upstream error ends the stream. -/
theorem fail_pushed {self : ResponsesToChat} {payload : Value}
    (opened : Quiet done PlainChunk { self } run)
    (ends : string (payload.get "type") = "error" ∨
      string (payload.get "type") = "response.failed") : Pushed self payload (fail run payload) := by
  obtain ⟨-, chunks, grown, plain⟩ := opened
  rw [List.nil_append] at grown
  refine .fails ends rfl chunks _ plain ?_ ?_ ?_ (by rw [fail, grown])
  · exact Value.isObject_obj _
  · simp
  · simp

/-- A payload makes one of these of the stream. -/
theorem pushPayload_pushed {self : ResponsesToChat} {payload : Value}
    (passes : pushPayload serde self reading payload = .ok next) :
    Pushed self payload next := by
  have opened := @quiet_start reading payload { self }
  by_cases complete_ : string (payload.get "type") = "response.completed" ∨
      string (payload.get "type") = "response.incomplete"
  · have completing : complete serde reading (start reading payload { self }) payload =
        .ok next := by
      rcases complete_ with type | type <;> simpa only [pushPayload, type] using passes
    exact complete_pushed opened complete_ completing
  by_cases failed : string (payload.get "type") = "error" ∨
      string (payload.get "type") = "response.failed"
  · have failing : Except.ok (fail (start reading payload { self }) payload) =
        (.ok next : Except ConversionError _) := by
      rcases failed with type | type <;> simpa only [pushPayload, type] using passes
    cases failing
    exact fail_pushed opened failed
  obtain ⟨notComplete, notIncomplete⟩ := not_or.mp complete_
  obtain ⟨notError, notFailed⟩ := not_or.mp failed
  refine .goes ⟨notComplete, notIncomplete, notError, notFailed⟩ (opened.trans ?_)
  unfold pushPayload at passes
  split at passes
  · exact quiet_item passes
  · exact quiet_item passes
  · cases passes
    exact quiet_pushDelta _ _ _
  · cases passes
    exact quiet_pushDelta _ _ _
  · cases passes
    exact quiet_pushDelta _ _ _
  · cases passes
    exact quiet_toolDelta _ _ _
  · cases passes
    exact quiet_toolDelta _ _ _
  · next type => exact absurd type notComplete
  · next type => exact absurd type notIncomplete
  · next type => exact absurd type notError
  · next type => exact absurd type notFailed
  · cases passes
    exact .refl _

/-- What the frames of a call are beside the ledger. -/
inductive Fed (ledger after : Ledger) (out : List Frame) : Prop
  /-- The stream goes on. -/
  | goes (plain : ∀ frame ∈ out, PlainChunk frame) (final : after.final = ledger.final)
      (ended : after.ended = ledger.ended)
  /-- The stream is complete. -/
  | completes (chunks : List Frame) (last counters : Value)
      (plain : ∀ frame ∈ chunks, PlainChunk frame) (isObject : last.IsObject)
      (noError : last.get "error" = none) (reports : last.get "usage" = some (usage counters CC))
      (out : out = chunks ++ [.untyped last, .done]) (final : after.final = some counters)
      (ended : after.ended = true)
  /-- The stream has failed. -/
  | fails (chunks : List Frame) (last : Value) (plain : ∀ frame ∈ chunks, PlainChunk frame)
      (isObject : last.IsObject) (failed : (last.get "error").isSome)
      (silent : last.get "usage" = none) (out : out = chunks ++ [.untyped last, .done])
      (final : after.final = ledger.final) (ended : after.ended = true)

/-- What a payload makes of the stream, beside the ledger. -/
theorem Pushed.fed {self : ResponsesToChat} {payload : Value} (target : ProxyProtocol)
    {ledger : Ledger} (going : ledger.ended = false) (booked : self.done = ledger.ended)
    (pushed : Pushed self payload next) :
    next.self.done =
        (ledger.step RS target (.payload (string (payload.get "type")) payload)).ended ∧
      Fed ledger (ledger.step RS target (.payload (string (payload.get "type")) payload))
        next.out := by
  simp only [Ledger.step, if_neg (Bool.eq_false_iff.mp going)]
  cases pushed with
  | goes other quiet =>
    obtain ⟨kept, more, grown, plain⟩ := quiet
    rw [List.nil_append] at grown
    have final : ∀ frame ∈ next.out, PlainChunk frame := by
      rw [grown]
      exact plain
    split
    · next type => exact absurd type other.1
    · next type => exact absurd type other.2.1
    · next type => exact absurd type other.2.2.1
    · next type => exact absurd type other.2.2.2
    · exact ⟨kept.trans booked, .goes final rfl rfl⟩
  | completes ends done chunks last plain isObject noError reports out =>
    rcases ends with type | type
    · rw [type]
      exact ⟨done, .completes chunks last _ plain isObject noError reports out rfl rfl⟩
    · rw [type]
      exact ⟨done, .completes chunks last _ plain isObject noError reports out rfl rfl⟩
  | fails ends done chunks last plain isObject failed silent out =>
    rcases ends with type | type
    · rw [type]
      exact ⟨done, .fails chunks last plain isObject failed silent out rfl rfl⟩
    · rw [type]
      exact ⟨done, .fails chunks last plain isObject failed silent out rfl rfl⟩

/-- What a call makes of the stream, beside the ledger. -/
theorem push_fed {self : ResponsesToChat} {target : ProxyProtocol} {ledger : Ledger}
    {raw : List Char} (booked : self.done = ledger.ended)
    (passes : push serde self reading raw = .ok next) :
    next.self.done = (ledger.read serde RS target raw).ended ∧
      Fed ledger (ledger.read serde RS target raw) next.out := by
  rw [push] at passes
  cases running : self.done with
  | true =>
    rw [Ledger.read_ended (booked.symm.trans running)]
    rw [if_pos running] at passes
    cases passes
    exact ⟨booked, .goes (by simp) rfl rfl⟩
  | false =>
    rw [if_neg (by simp [running])] at passes
    have events : readEvent serde RS target raw =
        (data serde raw).toOption.bind fun payload => payload.map fun payload =>
          .payload (string (payload.get "type")) payload := by
      simp only [readEvent]
      cases data serde raw with
      | error error => rfl
      | ok payload => cases payload <;> rfl
    rw [Ledger.read, events]
    cases read : data serde raw with
    | error error =>
      simp only [read] at passes
      cases passes
    | ok payload =>
      simp only [read] at passes
      cases payload with
      | none =>
        cases passes
        exact ⟨booked, .goes (by simp) rfl rfl⟩
      | some payload =>
        exact (pushPayload_pushed passes).fed target (booked.symm.trans running) booked

/-- A call keeps the books of the ledger and reports what it says. -/
theorem push_reports {self : ResponsesToChat} {ledger : Ledger} {raw : List Char}
    (booked : self.done = ledger.ended) (passes : push serde self reading raw = .ok next) :
    next.self.done = (ledger.read serde RS CC raw).ended ∧
      Reports RS CC ledger (ledger.read serde RS CC raw) next.out := by
  obtain ⟨kept, fed⟩ := @push_fed _ _ _ _ CC _ _ booked passes
  refine ⟨kept, ?_⟩
  have quiet : ∀ chunks : List Frame, (∀ frame ∈ chunks, PlainChunk frame) →
      finalUsages CC chunks = [] :=
    fun chunks plain => finalUsages_of_silent fun frame listed => (plain frame listed).silent
  cases fed with
  | goes plain final ended => exact .inl ⟨quiet _ plain, final⟩
  | completes chunks last counters plain isObject noError reports out final ended =>
    have differ : RS ≠ CC := by decide
    refine .inr ⟨convertUsage RS CC counters, _, ?_, final,
      fun usageOf => extractUsage_convertUsage usageOf differ⟩
    rw [out, finalUsages_append, quiet chunks plain]
    simp [finalUsages, Frame.finalUsage, reports, convertUsage]
  | fails chunks last plain isObject failed silent out final ended =>
    refine .inl ⟨?_, final⟩
    rw [out, finalUsages_append, quiet chunks plain]
    simp [finalUsages, Frame.finalUsage, silent]

end ResponsesToChat

namespace RsToAm

open ResponsesToChat (Fed push_untyped push_done)

/-- The books of the two converters, beside the ledger: the second has no counters before the
stream has ended, and has ended then. -/
def Booked (self : RsToAm) (ledger : Ledger) : Prop :=
  self.chat.done = ledger.ended ∧
    if ledger.ended then self.anthropic.terminated = true
    else self.anthropic.books = ({}, false)

variable {serde : SerdeJson} {reread : String → String}

/-- Plain chunks leave the second converter without counters, and nothing is reported. -/
theorem feed_plain (lawful : serde.Lawful) (readsBack : serde.ReadsBack reread)
    {chunks : List Frame} {run fed : Emitting CcToAm}
    (plain : ∀ frame ∈ chunks, PlainChunk frame) (running : run.self.terminated = false)
    (feeding : feed serde run chunks = .ok fed) :
    fed.self.books = run.self.books ∧ finalUsages AM fed.out = finalUsages AM run.out := by
  induction chunks generalizing run with
  | nil =>
    cases feeding
    exact ⟨rfl, rfl⟩
  | cons frame rest ih =>
    obtain ⟨payload, rfl, isObject, noUsage, noError⟩ := plain frame List.mem_cons_self
    rw [feed, bind_eq_ok] at feeding
    obtain ⟨next, pushing, feeding⟩ := feeding
    obtain ⟨silent, kept⟩ := CcToAm.pushChunk_books
      (push_untyped lawful readsBack running isObject pushing)
    have same : next.self.books = run.self.books := by
      rw [kept]
      simp [noError, noUsage, UsageAccumulator.observe, CcToAm.books]
    have runningNext : next.self.terminated = false :=
      (congrArg Prod.snd same).trans running
    obtain ⟨later, reports⟩ := @ih { self := next.self, out := run.out ++ next.out }
      (fun frame listed => plain frame (List.mem_cons_of_mem _ listed)) runningNext feeding
    refine ⟨later.trans same, ?_⟩
    rw [reports, finalUsages_append, silent, List.append_nil]

/-- The last chunk and the end marker after it. -/
theorem feed_last (lawful : serde.Lawful) (readsBack : serde.ReadsBack reread)
    {chunks : List Frame} {last : Value} {held : CcToAm} {fed : Emitting CcToAm}
    (plain : ∀ frame ∈ chunks, PlainChunk frame) (isObject : last.IsObject)
    (fresh : held.books = ({}, false))
    (feeding : feed serde { self := held } (chunks ++ [.untyped last, .done]) = .ok fed) :
    ∃ pushed : Emitting CcToAm, finalUsages AM pushed.out = [] ∧
      pushed.self.books = (if (last.get "error").isSome then ({}, true)
        else (UsageAccumulator.observe {} CC (last.mapFloats reread), false)) ∧
      ∃ ended : Emitting CcToAm, CcToAm.finish serde pushed.self = .ok ended ∧
        fed.self = ended.self ∧ finalUsages AM fed.out = finalUsages AM ended.out := by
  have running : held.terminated = false := congrArg Prod.snd fresh
  rw [feed_append, bind_eq_ok] at feeding
  obtain ⟨middle, first, feeding⟩ := feeding
  obtain ⟨kept, silent⟩ := feed_plain lawful readsBack plain running first
  rw [fresh] at kept
  have going : middle.self.terminated = false := congrArg Prod.snd kept
  have counters : middle.self.usage = {} := congrArg Prod.fst kept
  simp only [feed, bind_eq_ok] at feeding
  obtain ⟨pushed, pushing, ended, ending, same⟩ := feeding
  cases same
  rw [push_done] at ending
  obtain ⟨quiet, booked⟩ := CcToAm.pushChunk_books
    (push_untyped lawful readsBack going isObject pushing)
  refine ⟨pushed, quiet, ?_, ended, ending, rfl, ?_⟩
  · rw [booked, counters, going]
    simp
  · simp only [finalUsages_append, silent, quiet, List.append_nil]
    rfl

/-- A call keeps the books of the ledger and reports what it says. -/
theorem push_reports (lawful : serde.Lawful) {self : RsToAm} {reading : Reading}
    {ledger : Ledger} {raw : List Char} {next : Emitting RsToAm} (booked : self.Booked ledger)
    (passes : push serde self reading raw = .ok next) :
    next.self.Booked (ledger.read serde RS AM raw) ∧
      Reports RS AM ledger (ledger.read serde RS AM raw) next.out := by
  obtain ⟨reread, readsBack⟩ := lawful.readsBack
  obtain ⟨chatBooked, secondBooked⟩ := booked
  obtain ⟨chat, pushing, passes⟩ := bind_eq_ok.mp passes
  obtain ⟨fed, feeding, passes⟩ := bind_eq_ok.mp passes
  cases passes
  obtain ⟨kept, made⟩ := @ResponsesToChat.push_fed _ _ _ _ AM _ _ chatBooked pushing
  cases stopped : ledger.ended with
  | true =>
    rw [if_pos stopped] at secondBooked
    obtain ⟨silent, terminated⟩ := feed_ended chat.out secondBooked feeding
    rw [Ledger.read_ended stopped] at kept ⊢
    refine ⟨⟨kept, by rwa [if_pos stopped]⟩, .inl ⟨?_, rfl⟩⟩
    rw [silent]
    rfl
  | false =>
    rw [if_neg (by simp [stopped])] at secondBooked
    have running : self.anthropic.terminated = false := congrArg Prod.snd secondBooked
    cases made with
    | goes plain final ended =>
      obtain ⟨same, silent⟩ := feed_plain lawful readsBack plain running feeding
      refine ⟨⟨kept, ?_⟩, .inl ⟨silent, final⟩⟩
      rw [ended, if_neg (by simp [stopped])]
      exact same.trans secondBooked
    | completes chunks last counters plain isObject noError reports out final ended =>
      rw [out] at feeding
      obtain ⟨pushed, -, booked, closed, closing, same, reported⟩ :=
        feed_last lawful readsBack plain isObject secondBooked feeding
      rw [noError, if_neg (by simp)] at booked
      have going : pushed.self.terminated = false := congrArg Prod.snd booked
      have wire : pushed.self.usage.wire = merge .null ((usage counters CC).mapFloats reread) := by
        rw [show pushed.self.usage = UsageAccumulator.observe {} CC (last.mapFloats reread) from
          congrArg Prod.fst booked]
        simp [UsageAccumulator.observe, UsageAccumulator.update, reports]
      obtain ⟨closedBooks, last⟩ := CcToAm.finish_reports going closing
      refine ⟨⟨kept, ?_⟩, .inr ⟨_, _, reported.trans last, final, fun usageOf => ?_⟩⟩
      · rw [ended, if_pos rfl]
        exact (congrArg CcToAm.terminated same).trans (congrArg Prod.snd closedBooks)
      · rw [CcToAm.wireUsage, wire]
        exact extractUsage_throughChat usageOf reread
    | fails chunks last plain isObject failed silent out final ended =>
      rw [out] at feeding
      obtain ⟨pushed, -, booked, closed, closing, same, reported⟩ :=
        feed_last lawful readsBack plain isObject secondBooked feeding
      rw [if_pos failed] at booked
      have stopped : pushed.self.terminated = true := congrArg Prod.snd booked
      rw [CcToAm.finish, if_pos stopped] at closing
      cases closing
      refine ⟨⟨kept, ?_⟩, .inl ⟨reported, final⟩⟩
      rw [ended, if_pos rfl]
      exact (congrArg CcToAm.terminated same).trans stopped

end RsToAm

namespace StreamConverter

/-- The books of a converter are those of the ledger. -/
def Books (source target : ProxyProtocol) (ledger : Ledger) : StreamConverter → Prop
  | ccToAm state =>
    source = CC ∧ target = AM ∧ state.books = (ledger.usage, ledger.ended)
  | amToCc state =>
    source = AM ∧ target = CC ∧ state.books = (ledger.usage, ledger.ended)
  | amToRs state =>
    source = AM ∧ target = RS ∧ state.books = (ledger.usage, ledger.ended)
  | ccToRs state =>
    source = CC ∧ target = RS ∧ state.books = (ledger.usage, ledger.ended)
  | rsToCc state => source = RS ∧ target = CC ∧ state.done = ledger.ended
  | rsToAm state => source = RS ∧ target = AM ∧ state.Booked ledger
  | passthrough _ _ => False

variable {serde : SerdeJson} {source target : ProxyProtocol} {ledger : Ledger}
  {converter next : StreamConverter} {out : List Frame}

/-- A new converter has booked nothing. -/
theorem books_new (differ : source ≠ target) (made : new source target = .ok converter) :
    converter.Books source target {} := by
  cases source <;> cases target <;>
    first
    | exact absurd rfl differ
    | cases made
      first
      | exact ⟨rfl, rfl, rfl⟩
      | exact ⟨rfl, rfl, rfl, rfl⟩

/-- A call keeps the books and reports what the ledger says. -/
theorem Books.pushEvent (lawful : serde.Lawful) {reading : Reading} {raw : List Char}
    (books : converter.Books source target ledger)
    (passes : converter.pushEvent serde reading raw = .ok (next, out)) :
    next.Books source target (ledger.read serde source target raw) ∧
      Reports source target ledger (ledger.read serde source target raw) out := by
  cases converter with
  | passthrough protocol done => exact books.elim
  | ccToAm state =>
    obtain ⟨rfl, rfl, booked⟩ := books
    obtain ⟨run, pushing, rfl, rfl⟩ := map_tagged passes
    obtain ⟨kept, reports⟩ := CcToAm.push_reports booked pushing
    exact ⟨⟨rfl, rfl, kept⟩, reports⟩
  | amToCc state =>
    obtain ⟨rfl, rfl, booked⟩ := books
    obtain ⟨run, pushing, rfl, rfl⟩ := map_tagged passes
    obtain ⟨kept, reports⟩ := AmToCc.push_reports booked pushing
    exact ⟨⟨rfl, rfl, kept⟩, reports⟩
  | rsToAm state =>
    obtain ⟨rfl, rfl, booked⟩ := books
    obtain ⟨run, pushing, rfl, rfl⟩ := map_tagged passes
    obtain ⟨kept, reports⟩ := RsToAm.push_reports lawful booked pushing
    exact ⟨⟨rfl, rfl, kept⟩, reports⟩
  | amToRs state =>
    obtain ⟨rfl, rfl, booked⟩ := books
    obtain ⟨run, pushing, rfl, rfl⟩ := map_tagged passes
    obtain ⟨kept, reports⟩ := AmToRs.push_reports lawful booked pushing
    exact ⟨⟨rfl, rfl, kept⟩, reports⟩
  | ccToRs state =>
    obtain ⟨rfl, rfl, booked⟩ := books
    obtain ⟨run, pushing, rfl, rfl⟩ := map_tagged passes
    obtain ⟨kept, reports⟩ := ChatToResponses.push_reports booked pushing
    exact ⟨⟨rfl, rfl, kept⟩, reports⟩
  | rsToCc state =>
    obtain ⟨rfl, rfl, booked⟩ := books
    obtain ⟨run, pushing, rfl, rfl⟩ := map_tagged passes
    obtain ⟨kept, reports⟩ := ResponsesToChat.push_reports booked pushing
    exact ⟨⟨rfl, rfl, kept⟩, reports⟩

/-- A ledger that has ended is closed. -/
theorem step_ended (ended : ledger.ended = true) (event : UpstreamEvent) :
    ledger.step source target event = ledger := if_pos ended

/-- The end of a stream reports what the ledger says. -/
theorem Books.finish (books : converter.Books source target ledger)
    (passes : converter.finish serde = .ok (next, out)) :
    Reports source target ledger (ledger.step source target .done) out := by
  have closed : ledger.ended = true → out = [] →
      Reports source target ledger (ledger.step source target .done) out := by
    intro ended silent
    rw [step_ended ended, silent]
    exact .inl ⟨rfl, rfl⟩
  cases converter with
  | passthrough protocol done => exact books.elim
  | ccToAm state =>
    obtain ⟨rfl, rfl, booked⟩ := books
    obtain ⟨run, closing, rfl, rfl⟩ := map_tagged passes
    have ended : state.terminated = ledger.ended := congrArg Prod.snd booked
    have counters : state.usage = ledger.usage := congrArg Prod.fst booked
    cases running : state.terminated with
    | true =>
      rw [CcToAm.finish, if_pos running] at closing
      cases closing
      exact closed (ended.symm.trans running) rfl
    | false =>
      obtain ⟨-, reported⟩ := CcToAm.finish_reports running closing
      have going : ¬ ledger.ended = true := by simp [← ended, running]
      rw [Ledger.step, if_neg going]
      refine .inr ⟨_, _, reported, rfl, fun usageOf => ?_⟩
      rw [CcToAm.wireUsage, counters]
      exact extractUsage_convertUsage usageOf (by decide)
  | amToCc state =>
    obtain ⟨rfl, rfl, booked⟩ := books
    rw [StreamConverter.finish] at passes
    split at passes
    · next done =>
      cases passes
      exact closed ((congrArg Prod.snd booked).symm.trans done) rfl
    · cases passes
  | rsToAm state =>
    obtain ⟨rfl, rfl, chatBooked, secondBooked⟩ := books
    obtain ⟨run, closing, rfl, rfl⟩ := map_tagged passes
    obtain ⟨chat, finishing, closing⟩ := bind_eq_ok.mp closing
    rw [ResponsesToChat.finish] at finishing
    split at finishing
    · next done =>
      cases finishing
      have ended := chatBooked.symm.trans done
      rw [if_pos ended] at secondBooked
      obtain ⟨fed, feeding, closing⟩ := bind_eq_ok.mp closing
      cases feeding
      obtain ⟨last, stopping, closing⟩ := bind_eq_ok.mp closing
      rw [CcToAm.finish, if_pos secondBooked] at stopping
      cases stopping
      cases closing
      exact closed ended rfl
    · cases finishing
  | amToRs state =>
    obtain ⟨rfl, rfl, booked⟩ := books
    rw [StreamConverter.finish] at passes
    split at passes
    · next done =>
      cases passes
      exact closed ((congrArg Prod.snd booked).symm.trans done) rfl
    · cases passes
  | ccToRs state =>
    obtain ⟨rfl, rfl, booked⟩ := books
    obtain ⟨run, closing, rfl, rfl⟩ := map_tagged passes
    have ended : state.done = ledger.ended := congrArg Prod.snd booked
    have counters : state.usage = ledger.usage := congrArg Prod.fst booked
    cases running : state.done with
    | true =>
      rw [ChatToResponses.finish, if_pos running] at closing
      cases closing
      exact closed (ended.symm.trans running) rfl
    | false =>
      obtain ⟨-, reported⟩ := ChatToResponses.finish_reports running closing
      have going : ¬ ledger.ended = true := by simp [← ended, running]
      rw [Ledger.step, if_neg going]
      refine .inr ⟨_, _, reported, rfl, fun usageOf => ?_⟩
      rw [counters]
      exact extractUsage_convertUsage usageOf (by decide)
  | rsToCc state =>
    obtain ⟨rfl, rfl, booked⟩ := books
    obtain ⟨run, closing, rfl, rfl⟩ := map_tagged passes
    rw [ResponsesToChat.finish] at closing
    split at closing
    · next done =>
      cases closing
      exact closed (booked.symm.trans done) rfl
    · cases closing

/-- The last report of a converted stream is what the ledger says at its end. -/
theorem Books.converted (lawful : serde.Lawful) {events : List (Reading × List Char)}
    {frames : List Frame} (books : converter.Books source target ledger)
    (passes : converter.converted serde events = .ok frames) :
    let read := fun (ledger : Ledger) (event : Reading × List Char) =>
      ledger.read serde source target event.2
    let last := (events.foldl read ledger).step source target .done
    finalUsages target frames = [] ∧ last.final = ledger.final ∨
      ∃ reported final, (finalUsages target frames).getLast? = some reported ∧
        last.final = some final ∧
        (UsageOf source final → extractUsage target reported = extractUsage source final) := by
  intro read last
  induction events generalizing converter ledger frames with
  | nil =>
    rw [StreamConverter.converted] at passes
    cases finishing : converter.finish serde with
    | error error =>
      rw [finishing] at passes
      cases passes
    | ok closed =>
      rw [finishing] at passes
      cases passes
      rcases books.finish finishing with silent | ⟨reported, final, only, isFinal, same⟩
      · exact .inl silent
      · exact .inr ⟨reported, final, by rw [only]; rfl, isFinal, same⟩
  | cons event rest ih =>
    rw [StreamConverter.converted, bind_eq_ok] at passes
    obtain ⟨next, pushing, passes⟩ := passes
    obtain ⟨later, converting, passes⟩ := bind_eq_ok.mp passes
    cases passes
    obtain ⟨kept, reports⟩ := books.pushEvent lawful pushing
    rcases ih kept converting with ⟨silent, unchanged⟩ | ⟨reported, final, isLast, isFinal, same⟩
    · rcases reports with ⟨quiet, before⟩ | ⟨reported, final, only, isFinal, same⟩
      · refine .inl ⟨by rw [finalUsages_append, quiet, silent]; rfl, unchanged.trans before⟩
      · refine .inr ⟨reported, final, ?_, unchanged.trans isFinal, same⟩
        rw [finalUsages_append, only, silent]
        rfl
    · refine .inr ⟨reported, final, ?_, isFinal, same⟩
      rw [finalUsages_append, List.getLast?_append, isLast]
      rfl

end StreamConverter

variable {serde : SerdeJson} {source target : ProxyProtocol}

/-- The totals of a usage object survive its conversion, and the totals of a stream that is
converted to its end survive exactly if what its final event is made of has them all. -/
theorem usage_kept_iff (lawful : serde.Lawful) (differ : source ≠ target) :
    (∀ counters, UsageOf source counters →
      extractUsage target (convertUsage source target counters) = extractUsage source counters) ∧
    ∀ converter events frames, StreamConverter.new source target = .ok converter →
      converter.converted serde events = .ok frames →
      let ledger := Ledger.ofStream serde source target events
      (∀ final, ledger.final = some final → UsageOf source final) →
      ((∃ reported, (finalUsages target frames).getLast? = some reported ∧
          extractUsage target reported = extractUsage source ledger.usage.wire) ↔
        ∃ final, ledger.final = some final ∧
          extractUsage source final = extractUsage source ledger.usage.wire) := by
  refine ⟨fun counters usageOf => extractUsage_convertUsage usageOf differ, ?_⟩
  intro converter events frames made passes ledger usages
  have reports := (StreamConverter.books_new differ made).converted lawful passes
  have final : ledger.final = ((events.foldl (fun (ledger : Ledger) (event : Reading × List Char) =>
    ledger.read serde source target event.2) {}).step source target .done).final := rfl
  rcases reports with ⟨silent, none_⟩ | ⟨reported, last, isLast, isFinal, same⟩
  · rw [silent, final, none_]
    simp
  · rw [← final] at isFinal
    have kept := same (usages last isFinal)
    constructor
    · rintro ⟨other, isOther, whole⟩
      rw [isLast, Option.some.injEq] at isOther
      exact ⟨last, isFinal, kept.symm.trans (isOther ▸ whole)⟩
    · rintro ⟨other, isOther, whole⟩
      rw [isFinal, Option.some.injEq] at isOther
      exact ⟨reported, isLast, kept.trans (isOther ▸ whole)⟩

namespace Sample

/-- An event that reports what was read. -/
def progressEvent : Value :=
  .obj [("type", "response.in_progress"), ("response", .obj
    [("id", "resp_1"), ("usage", .obj [("input_tokens", .nat 10)])])]

/-- An event that ends the stream and reports what was written. -/
def completedEvent : Value :=
  .obj [("type", "response.completed"), ("response", .obj
    [("id", "resp_1"), ("usage", .obj [("output_tokens", .nat 5)])])]

/-- A parser that knows the two events. -/
def spreadSerde : SerdeJson :=
  .ofTable [("\x7bread\x7d", progressEvent), ("\x7bwritten\x7d", completedEvent)]

/-- The parser of the sample is lawful. -/
theorem spreadSerde_lawful : spreadSerde.Lawful :=
  SerdeJson.ofTable_lawful (by decide) (by simp)

/-- What ends the stream of the sample. -/
def lastEvent : Reading × List Char := (reading, "data: \x7bwritten\x7d\n\n".toList)

/-- A stream whose counters are spread over two events. -/
def spreadEvents : List (Reading × List Char) :=
  [(reading, "data: \x7bread\x7d\n\n".toList), lastEvent]

/-- The frames of a stream of the sample, converted to a chat. -/
def chatFrames (events : List (Reading × List Char)) : List Frame :=
  ((StreamConverter.rsToCc {}).converted spreadSerde events).toOption.getD []

/-- The usage of the last event is one of its format. -/
theorem usageOf_completed : UsageOf RS ((completedEvent.field "response").field "usage") where
  bare := by decide
  fits := by decide
  ownInput := fun _ => by decide
  ownOutput := fun _ => by decide
  ownDetails := fun _ => by decide
  distinct := Value.distinct_of_keyed (by decide)

end Sample

/-- A stream that reports its counters in its last event keeps them. -/
theorem usage_kept_last : ∃ reported,
    (finalUsages CC (Sample.chatFrames [Sample.lastEvent])).getLast? = some reported ∧
      extractUsage CC reported = extractUsage RS
        (Ledger.ofStream Sample.spreadSerde RS CC [Sample.lastEvent]).usage.wire :=
  ((usage_kept_iff Sample.spreadSerde_lawful (by decide)).2 (.rsToCc {}) [Sample.lastEvent]
    (Sample.chatFrames [Sample.lastEvent]) rfl rfl (by
      intro final isFinal
      cases isFinal
      exact Sample.usageOf_completed)).mpr ⟨_, rfl, rfl⟩

/-- What a Responses stream has read is lost when it is reported before the last event. -/
theorem not_usage_kept : ¬ ∀ (serde : SerdeJson), serde.Lawful →
    ∀ (source target : ProxyProtocol) (converter : StreamConverter)
      (events : List (Reading × List Char)) (frames : List Frame) (reported : Value),
      source ≠ target → StreamConverter.new source target = .ok converter →
      converter.converted serde events = .ok frames →
      UsageOf source (Ledger.ofStream serde source target events).usage.wire →
      (finalUsages target frames).getLast? = some reported →
      extractUsage target reported =
        extractUsage source (Ledger.ofStream serde source target events).usage.wire := by
  intro every
  have usageOf : UsageOf RS (Ledger.ofStream Sample.spreadSerde RS CC Sample.spreadEvents).usage.wire :=
    { bare := by decide
      fits := by decide
      ownInput := fun _ => by decide
      ownOutput := fun _ => by decide
      ownDetails := fun _ => by decide
      distinct := Value.distinct_of_keyed (by decide) }
  have same := every Sample.spreadSerde Sample.spreadSerde_lawful RS CC (.rsToCc {})
    Sample.spreadEvents (Sample.chatFrames Sample.spreadEvents) _ (by decide) rfl rfl usageOf rfl
  have read := congrArg TokenUsage.inputTokens same
  revert read
  decide

end Aipass.Conversion
