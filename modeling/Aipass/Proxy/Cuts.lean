import Aipass.Proxy.Convert
import Aipass.Proxy.Observe

/-!
# Where a stream is cut

The bytes of a stream arrive in chunks. As long as no buffer overflows, a conversion yields the
same whatever the chunks are, and so does an observation: both depend on the events of the bytes
only, and a cut inside an event leaves the front of that event in the buffer.
-/
namespace Aipass.Proxy

open Conversion

/-- A boundary is found without the bytes after it. -/
theorem boundary_of_append {event rest : Bytes}
    (found : sseEventBoundaryEnd (event ++ rest) = some event.length) :
    sseEventBoundaryEnd event = some event.length := by
  induction event with
  | nil => exact absurd (boundary_pos found).1 (lt_irrefl 0)
  | cons byte event ih =>
    rw [List.cons_append, boundary_cons] at found
    split at found
    · rename_i feeds
      match event, found with
      | [next], _ =>
        simp only [List.isPrefixOf, List.cons_append, List.nil_append, Bool.and_true,
          Bool.and_eq_true, beq_iff_eq] at feeds
        rw [← feeds.1, ← feeds.2]
        rfl
    · rename_i other
      split at found
      · rename_i returns
        match event, found with
        | [next, last], _ =>
          simp only [List.isPrefixOf, List.cons_append, List.nil_append, Bool.and_true,
            Bool.and_eq_true, beq_iff_eq] at returns
          rw [← returns.1, ← returns.2.1, ← returns.2.2]
          rfl
      · rename_i neither
        obtain ⟨before, foundRest, whole⟩ := Option.map_eq_some_iff.mp found
        rw [List.length_cons, Nat.add_right_cancel_iff] at whole
        subst whole
        have extends_ : ∀ {pattern : Bytes}, pattern.isPrefixOf (byte :: event) = true →
            pattern.isPrefixOf (byte :: (event ++ rest)) = true := by
          intro pattern starts
          rw [List.isPrefixOf_iff_prefix] at starts ⊢
          exact starts.trans (List.prefix_append (byte :: event) rest)
        rw [boundary_cons, if_neg (fun feeds => other (extends_ feeds)),
          if_neg (fun returns => neither (extends_ returns)), ih foundRest]
        rfl

/-- A buffer without a boundary is shorter than the event it starts. -/
theorem length_lt_boundary {buffer more : Bytes} {stop : ℕ}
    (incomplete : sseEventBoundaryEnd buffer = none)
    (found : sseEventBoundaryEnd (buffer ++ more) = some stop) : buffer.length < stop := by
  by_contra short
  have inside : stop ≤ buffer.length := Nat.not_lt.mp short
  have whole : (buffer.take stop ++ (buffer.drop stop ++ more)) = buffer ++ more := by
    rw [← List.append_assoc, List.take_append_drop]
  have length : (buffer.take stop).length = stop := by
    rw [List.length_take, Nat.min_eq_left inside]
  have complete : sseEventBoundaryEnd (buffer.take stop) = some (buffer.take stop).length :=
    boundary_of_append (by rw [whole, length, found])
  have again := boundary_append complete (buffer.drop stop)
  rw [List.take_append_drop, incomplete] at again
  cases again

/-- What is left of a buffer holds no event. -/
theorem boundary_left (buffer : Bytes) : sseEventBoundaryEnd (splitEvents buffer).2 = none := by
  cases found : sseEventBoundaryEnd buffer with
  | none => rw [splitEvents_none found, found]
  | some stop =>
    have positive := boundary_pos found
    rw [splitEvents_some found]
    exact boundary_left (buffer.drop stop)
termination_by buffer.length
decreasing_by
  simp only [List.length_drop]
  omega

section Observe

variable (fromSlice : Bytes → Option Value) (protocol : ProxyProtocol)

/-- What is observed of an event does not depend on what the events before it have signalled. -/
theorem event_join (held : SseSignals) (shown : Observed) (event : Bytes) :
    Observed.event fromSlice protocol { shown with signals := held.join shown.signals } event =
      { Observed.event fromSlice protocol shown event with
        signals := held.join (Observed.event fromSlice protocol shown event).signals } := by
  simp only [Observed.event]
  cases (sseEventData event).bind fromSlice with
  | none => simp [SseSignals.join, Bool.or_assoc]
  | some value => simp [SseSignals.join, Bool.or_assoc, Option.or_assoc]

/-- What is observed of events does not depend on what the events before them have signalled. -/
theorem events_join (held : SseSignals) (shown : Observed) (events : List Bytes) :
    events.foldl (Observed.event fromSlice protocol)
        { shown with signals := held.join shown.signals } =
      { events.foldl (Observed.event fromSlice protocol) shown with
        signals :=
          held.join (events.foldl (Observed.event fromSlice protocol) shown).signals } := by
  induction events generalizing shown with
  | nil => rfl
  | cons event events ih =>
    rw [List.foldl_cons, List.foldl_cons, event_join, ih]

/-- A chunk shows the events that it completes. -/
theorem observeChunk_eq (held : Bytes × Observed) (chunk : Bytes) :
    observeChunk fromSlice protocol held chunk =
      (if usageEventBufferLimit < (splitEvents (held.1 ++ chunk)).2.length then []
        else (splitEvents (held.1 ++ chunk)).2,
        (splitEvents (held.1 ++ chunk)).1.foldl (Observed.event fromSlice protocol) held.2) := by
  have joined := events_join fromSlice protocol held.2.signals { usage := held.2.usage }
    (splitEvents (held.1 ++ chunk)).1
  have none_ : held.2.signals.join {} = held.2.signals := by
    simp [SseSignals.join]
  rw [none_] at joined
  rw [observeChunk, observeSseUsageTraced]
  exact congrArg _ joined.symm

/-- No event is longer than the buffer for it, wherever it is cut. -/
def Short (bytes : Bytes) : Prop :=
  (∀ event ∈ (splitEvents bytes).1, event.length ≤ usageEventBufferLimit + 1) ∧
    (splitEvents bytes).2.length ≤ usageEventBufferLimit

/-- The front of an event is no longer than the buffer. -/
theorem Short.front {buffer more : Bytes} (short : Short (buffer ++ more))
    (incomplete : sseEventBoundaryEnd buffer = none) : buffer.length ≤ usageEventBufferLimit := by
  cases found : sseEventBoundaryEnd (buffer ++ more) with
  | none =>
    have left := short.2
    rw [splitEvents_none found, List.length_append] at left
    omega
  | some stop =>
    have longer := length_lt_boundary incomplete found
    have event := short.1 ((buffer ++ more).take stop)
      (by rw [splitEvents_some found]; exact List.mem_cons_self ..)
    have inside := boundary_le found
    rw [List.length_take, Nat.min_eq_left inside] at event
    omega

/-- What follows complete events is short if the whole is. -/
theorem Short.left {buffer more : Bytes} (short : Short (buffer ++ more)) :
    Short ((splitEvents buffer).2 ++ more) := by
  rw [Short, splitEvents_more] at short
  exact ⟨fun event inside => short.1 event (List.mem_append_right _ inside), short.2⟩

/-- One chunk of a short stream is taken as it is. -/
theorem observeChunk_short {buffer chunk more : Bytes} (observed : Observed)
    (short : Short (buffer ++ chunk ++ more)) :
    observeChunk fromSlice protocol (buffer, observed) chunk =
      ((splitEvents (buffer ++ chunk)).2,
        (splitEvents (buffer ++ chunk)).1.foldl (Observed.event fromSlice protocol) observed) := by
  have fits := short.left.front (boundary_left (buffer ++ chunk))
  rw [observeChunk_eq, if_neg (Nat.not_lt.mpr fits)]

/-- The chunks of a short stream show its events, wherever it is cut. -/
theorem foldl_observeChunk {buffer : Bytes} {chunks : List Bytes} (observed : Observed)
    (incomplete : sseEventBoundaryEnd buffer = none)
    (short : Short (buffer ++ chunks.flatten)) :
    chunks.foldl (observeChunk fromSlice protocol) (buffer, observed) =
      ((splitEvents (buffer ++ chunks.flatten)).2,
        (splitEvents (buffer ++ chunks.flatten)).1.foldl (Observed.event fromSlice protocol)
          observed) := by
  induction chunks generalizing buffer observed with
  | nil =>
    rw [List.flatten_nil, List.append_nil, splitEvents_none incomplete]
    rfl
  | cons chunk chunks ih =>
    rw [List.flatten_cons, ← List.append_assoc] at short ⊢
    rw [List.foldl_cons, observeChunk_short fromSlice protocol observed short,
      ih _ (boundary_left _) short.left, splitEvents_more (buffer ++ chunk), List.foldl_append]

/-- A signal that ends the loop over the chunks. -/
def Observed.isOver (observed : Observed) : Bool :=
  observed.signals.terminal || observed.signals.failed

/-- What the events of a stream show. -/
def observeEvents (events : List Bytes) : Observed :=
  events.foldl (Observed.event fromSlice protocol) {}

/-- What is recorded of a stream with certain events: it has ended by itself unless a signal has
ended it. -/
def reportEvents (events : List Bytes) : StreamReport :=
  report protocol (!(observeEvents fromSlice protocol events).isOver) false
    (observeEvents fromSlice protocol events)

/-- After the first terminal or failed event no event shows anything new. -/
def NothingNew (events : List Bytes) : Prop :=
  ∀ before more, before ++ more <+: events →
    (observeEvents fromSlice protocol before).isOver = true →
      observeEvents fromSlice protocol (before ++ more) = observeEvents fromSlice protocol before

/-- What is recorded of a short stream that is quiet after its end, wherever it is cut. -/
theorem trackUsageStream_eq {buffer : Bytes} {chunks : List Bytes} {seen : List Bytes}
    (incomplete : sseEventBoundaryEnd buffer = none)
    (short : Short (buffer ++ chunks.flatten))
    (quiet : NothingNew fromSlice protocol (seen ++ (splitEvents (buffer ++ chunks.flatten)).1))
    (goes : (observeEvents fromSlice protocol seen).isOver = false) :
    trackUsageStream fromSlice protocol (buffer, observeEvents fromSlice protocol seen)
        (chunks.map .ok) =
      reportEvents fromSlice protocol (seen ++ (splitEvents (buffer ++ chunks.flatten)).1) := by
  induction chunks generalizing buffer seen with
  | nil =>
    rw [List.flatten_nil, List.append_nil, splitEvents_none incomplete, List.append_nil,
      reportEvents, goes]
    rfl
  | cons chunk chunks ih =>
    rw [List.flatten_cons, ← List.append_assoc] at short quiet ⊢
    have events := splitEvents_more (buffer ++ chunk) chunks.flatten
    have shown : (splitEvents (buffer ++ chunk)).1.foldl (Observed.event fromSlice protocol)
        (observeEvents fromSlice protocol seen) =
          observeEvents fromSlice protocol (seen ++ (splitEvents (buffer ++ chunk)).1) := by
      rw [observeEvents, observeEvents, List.foldl_append]
    rw [List.map_cons, trackUsageStream, observeChunk_short fromSlice protocol _ short, shown]
    simp only [events, ← List.append_assoc] at quiet ⊢
    cases finished : (observeEvents fromSlice protocol
        (seen ++ (splitEvents (buffer ++ chunk)).1)).isOver with
    | true =>
      have ended := finished
      rw [Observed.isOver] at ended
      rw [if_pos ended, reportEvents, quiet _ _ (List.prefix_refl _) finished, finished]
      rfl
    | false =>
      have goesOn := finished
      rw [Observed.isOver] at goesOn
      rw [if_neg (by rw [goesOn]; exact Bool.false_ne_true)]
      exact ih (boundary_left _) short.left quiet finished

end Observe
section Convert

variable (serde : SerdeJson) (clock : ℕ → Reading)

/-- A state whose buffer has grown. -/
def SseState.grown (state : SseState) (more : Bytes) : SseState :=
  { state with buffer := state.buffer ++ more }

/-- A complete event is the first one of a grown buffer as well, and pushed alike. -/
theorem SseState.event_grown (state : SseState) (more : Bytes) {stop : ℕ}
    (found : sseEventBoundaryEnd state.buffer = some stop) :
    sseEventBoundaryEnd (state.grown more).buffer = some stop ∧
      (state.grown more).push serde clock ((state.grown more).buffer.take stop) =
        state.push serde clock (state.buffer.take stop) ∧
      (state.grown more).buffer.drop stop = state.buffer.drop stop ++ more := by
  have inside := boundary_le found
  have front : (state.grown more).buffer.take stop = state.buffer.take stop :=
    List.take_append_of_le_length inside
  refine ⟨boundary_append found more, ?_, List.drop_append_of_le_length inside⟩
  rw [front]
  rfl

/-- A stream that has failed fails whatever follows. -/
theorem drain_refused (state : SseState) (more : Bytes)
    (stopped : (drain serde clock state).2 = none) :
    drain serde clock (state.grown more) = drain serde clock state := by
  cases found : sseEventBoundaryEnd state.buffer with
  | none =>
    rw [drain_none serde clock found] at stopped
    cases stopped
  | some stop =>
    have positive := boundary_pos found
    have inside := boundary_le found
    rw [drain_some serde clock found] at stopped ⊢
    obtain ⟨grows, event, rest⟩ := state.event_grown serde clock more found
    rw [drain_some serde clock grows, event, rest]
    cases pushed : state.push serde clock (state.buffer.take stop) with
    | error error => rfl
    | ok taken =>
      obtain ⟨converter, frames⟩ := taken
      rw [pushed] at stopped
      have later := drain_refused
        ⟨converter, state.buffer.drop stop, state.pushed + 1⟩ more stopped
      simp only [SseState.grown] at later ⊢
      rw [later]
termination_by state.buffer.length
decreasing_by
  simp only [List.length_drop]
  omega

/-- A stream goes on where it has stopped. -/
theorem drain_goOn (state : SseState) {last : SseState} (more : Bytes)
    (goes : (drain serde clock state).2 = some last) :
    last.buffer.length ≤ state.buffer.length ∧
      drain serde clock (state.grown more) =
        ((drain serde clock state).1 ++ (drain serde clock (last.grown more)).1,
          (drain serde clock (last.grown more)).2) := by
  cases found : sseEventBoundaryEnd state.buffer with
  | none =>
    rw [drain_none serde clock found] at goes ⊢
    cases goes
    exact ⟨le_rfl, rfl⟩
  | some stop =>
    have positive := boundary_pos found
    have inside := boundary_le found
    rw [drain_some serde clock found] at goes ⊢
    obtain ⟨grows, event, rest⟩ := state.event_grown serde clock more found
    rw [drain_some serde clock grows, event, rest]
    cases pushed : state.push serde clock (state.buffer.take stop) with
    | error error =>
      rw [pushed] at goes
      cases goes
    | ok taken =>
      obtain ⟨converter, frames⟩ := taken
      rw [pushed] at goes
      obtain ⟨shorter, later⟩ := drain_goOn
        ⟨converter, state.buffer.drop stop, state.pushed + 1⟩ more goes
      simp only [SseState.grown] at later ⊢
      rw [later]
      refine ⟨shorter.trans ?_, by simp only [List.append_assoc]⟩
      rw [List.length_drop]
      exact Nat.sub_le _ _
termination_by state.buffer.length
decreasing_by
  simp only [List.length_drop]
  omega

/-- Chunks that fit the buffer altogether yield what their bytes yield at once. -/
theorem pump_flatten (state : SseState) {chunks : List Bytes}
    (fits : state.buffer.length + chunks.flatten.length ≤ maxBufferedResponseBytes) :
    pump serde clock state (chunks.map .ok) =
      pump serde clock (state.grown chunks.flatten) [] := by
  induction chunks generalizing state with
  | nil => simp [SseState.grown]
  | cons chunk chunks ih =>
    rw [List.flatten_cons, List.length_append] at fits
    rw [List.flatten_cons]
    conv_lhs => rw [List.map_cons, pump]
    cases goes : drain serde clock state with
    | mk yielded stopped =>
      cases stopped with
      | none =>
        have same := drain_refused serde clock state (chunk ++ chunks.flatten)
          (by rw [goes] : (drain serde clock state).2 = none)
        rw [pump, same, goes]
      | some last =>
        obtain ⟨shorter, whole⟩ := drain_goOn serde clock state (chunk ++ chunks.flatten)
          (by rw [goes] : (drain serde clock state).2 = some last)
        have later := ih (last.grown chunk) (by
          simp only [SseState.grown, List.length_append]
          omega)
        have grown : (last.grown chunk).grown chunks.flatten =
            last.grown (chunk ++ chunks.flatten) := by
          simp [SseState.grown]
        rw [goes] at whole
        have room : ¬ maxBufferedResponseBytes < last.buffer.length + chunk.length := by omega
        simp only [if_neg room]
        rw [SseState.grown] at later
        rw [later, ← SseState.grown, grown, pump, pump, whole]
        cases drain serde clock (last.grown (chunk ++ chunks.flatten)) with
        | mk more ended =>
          cases ended <;> simp

/-- A conversion of a stream that fits the buffer does not depend on where it is cut. -/
theorem convertSseStream_cut (source target : ProxyProtocol) {chunks others : List Bytes}
    (same : chunks.flatten = others.flatten)
    (fits : chunks.flatten.length ≤ maxBufferedResponseBytes) :
    convertSseStream serde clock source target (chunks.map .ok) =
      convertSseStream serde clock source target (others.map .ok) := by
  rw [convertSseStream, convertSseStream]
  cases StreamConverter.new source target with
  | error error => rfl
  | ok converter =>
    have whole : ∀ cut : List Bytes, cut.flatten.length ≤ maxBufferedResponseBytes →
        pump serde clock { converter } (cut.map .ok) =
          pump serde clock (SseState.grown { converter } cut.flatten) [] := fun cut small =>
      pump_flatten serde clock _ (by rw [List.length_nil, Nat.zero_add]; exact small)
    calc
      pump serde clock { converter } (chunks.map .ok)
      _ = pump serde clock (SseState.grown { converter } chunks.flatten) [] := whole chunks fits
      _ = pump serde clock (SseState.grown { converter } others.flatten) [] := by rw [same]
      _ = pump serde clock { converter } (others.map .ok) := (whole others (same ▸ fits)).symm

end Convert
/-- A stream that fits the buffer of a conversion is converted the same wherever it is cut. If no
event outgrows the buffer of the observation, the same is observed wherever it is cut, and if
moreover nothing new is shown after the first terminal or failed event, the same is recorded. -/
theorem chunks_do_not_matter (serde : SerdeJson) (clock : ℕ → Reading)
    (fromSlice : Bytes → Option Value) (source target protocol : ProxyProtocol)
    {chunks others : List Bytes} (same : chunks.flatten = others.flatten)
    (fits : chunks.flatten.length ≤ maxBufferedResponseBytes) :
    convertSseStream serde clock source target (chunks.map .ok) =
        convertSseStream serde clock source target (others.map .ok) ∧
      (Short chunks.flatten →
        chunks.foldl (observeChunk fromSlice protocol) ([], {}) =
            others.foldl (observeChunk fromSlice protocol) ([], {}) ∧
          (NothingNew fromSlice protocol (splitEvents chunks.flatten).1 →
            trackUsageStream fromSlice protocol ([], {}) (chunks.map .ok) =
              trackUsageStream fromSlice protocol ([], {}) (others.map .ok))) := by
  refine ⟨convertSseStream_cut serde clock source target same fits, fun short => ⟨?_, ?_⟩⟩
  · have first := foldl_observeChunk fromSlice protocol {} boundary_nil (by simpa using short)
    have second := foldl_observeChunk fromSlice protocol {} boundary_nil
      (by simpa using same ▸ short)
    rw [first, second, same]
  · intro quiet
    have recorded : ∀ cut : List Bytes, cut.flatten = chunks.flatten →
        trackUsageStream fromSlice protocol ([], {}) (cut.map .ok) =
          reportEvents fromSlice protocol (splitEvents chunks.flatten).1 := by
      intro cut whole
      have shortCut : Short ([] ++ cut.flatten) := by simpa [whole] using short
      have quietCut : NothingNew fromSlice protocol ([] ++ (splitEvents ([] ++ cut.flatten)).1) := by
        simpa [whole] using quiet
      have tracked := trackUsageStream_eq fromSlice protocol boundary_nil shortCut quietCut rfl
      simpa [observeEvents, whole] using tracked
    rw [recorded chunks rfl, recorded others same.symm]

/-- A complete event alone. -/
theorem splitEvents_single {event : Bytes}
    (complete : sseEventBoundaryEnd event = some event.length) :
    splitEvents event = ([event], []) := by
  have first := splitEvents_append complete []
  rwa [List.append_nil, splitEvents_none boundary_nil] at first

/-- A stream cut inside its terminator. -/
theorem chunks_do_not_matter_terminator :
    trackUsageStream (fun _ => none) CC ([], {})
        ([ascii "data: [DONE]\n", ascii "\n"].map .ok) =
      trackUsageStream (fun _ => none) CC ([], {}) ([ascii "data: [DONE]\n\n"].map .ok) := by
  have whole : splitEvents (ascii "data: [DONE]\n\n") = ([ascii "data: [DONE]\n\n"], []) :=
    splitEvents_single (by decide)
  have bytes : [ascii "data: [DONE]\n", ascii "\n"].flatten = ascii "data: [DONE]\n\n" := by
    decide
  have same : [ascii "data: [DONE]\n", ascii "\n"].flatten =
      [ascii "data: [DONE]\n\n"].flatten := by
    decide
  have size : (ascii "data: [DONE]\n\n").length = 14 := by decide
  refine ((chunks_do_not_matter ⟨fun _ => .error "", fun _ => ""⟩ (fun _ => ⟨0, fun _ => ""⟩)
    (fun _ => none) CC CC CC same ?_).2 ?_).2 ?_
  · rw [bytes, size]
    decide
  · rw [bytes, Short, whole]
    refine ⟨fun event inside => ?_, Nat.zero_le _⟩
    rw [List.mem_singleton.mp inside, size]
    decide
  · rw [bytes, whole]
    intro before more inside finished
    match before with
    | [] => cases finished
    | first :: before =>
      obtain ⟨-, rest⟩ := List.cons_prefix_cons.mp inside
      have none_ := List.prefix_nil.mp rest
      rw [(List.append_eq_nil_iff.mp none_).2, List.append_nil]

/-- A line in front is the first line. -/
theorem splitLines_append {line : Bytes} (noFeed : 0x0A ∉ line) (rest : Bytes) :
    splitLines (line ++ 0x0A :: rest) = line :: splitLines rest := by
  induction line with
  | nil => rfl
  | cons byte line ih =>
    simp only [List.mem_cons, not_or] at noFeed
    rw [List.cons_append, splitLines, if_neg (Ne.symm noFeed.1), ih noFeed.2]

/-- An event that reports an error fails the stream. -/
theorem failed_event (fromSlice : Bytes → Option Value) (protocol : ProxyProtocol)
    (held : Observed) (event : Bytes) :
    (Observed.event fromSlice protocol held event).signals.failed =
      (held.signals.failed || sseEventReportsError fromSlice event) := by
  simp only [Observed.event]
  cases (sseEventData event).bind fromSlice <;> rfl

/-- An event that is cut before its last byte leaves nothing but itself. -/
theorem splitEvents_cut {event : Bytes} {byte : UInt8}
    (complete : sseEventBoundaryEnd (event ++ [byte]) = some (event ++ [byte]).length) :
    splitEvents event = ([], event) := by
  refine splitEvents_none ?_
  cases found : sseEventBoundaryEnd event with
  | none => rfl
  | some stop =>
    have inside := boundary_le found
    rw [boundary_append found, List.length_append, Option.some.injEq,
      List.length_singleton] at complete
    omega

/-- An error event that is too long for the buffer, without its last byte. -/
def longError : Bytes :=
  ascii "event: error\n" ++ List.replicate usageEventBufferLimit 0x78 ++ [0x0A]

/-- The lines of the long event. -/
theorem longError_lines : ∃ padding : Line, padding.content.length = usageEventBufferLimit ∧
    longError = ascii "event: error" ++ 0x0A :: bytesOf [padding] := by
  refine ⟨⟨List.replicate usageEventBufferLimit 0x78, by simp [List.mem_replicate]⟩,
    List.length_replicate .., ?_⟩
  have first : ascii "event: error\n" = ascii "event: error" ++ [0x0A] := by decide
  rw [longError, first]
  simp [Line.bytes]

/-- The length of the long event. -/
theorem length_longError : longError.length = usageEventBufferLimit + 14 := by
  have first : (ascii "event: error\n").length = 13 := by decide
  have general : ∀ count,
      (ascii "event: error\n" ++ List.replicate count 0x78 ++ [0x0A]).length = count + 14 := by
    intro count
    simp only [List.length_append, List.length_replicate, List.length_singleton, first]
    omega
  exact general usageEventBufferLimit

/-- The long event is complete with its last byte. -/
theorem boundary_longError :
    sseEventBoundaryEnd (longError ++ [0x0A]) = some (longError ++ [0x0A]).length := by
  obtain ⟨padding, size, lines⟩ := longError_lines
  have solid : ∀ line ∈ [padding], ¬ line.Blank := by
    intro line inside
    rw [List.mem_singleton.mp inside]
    rintro (empty | returns)
    · rw [empty] at size
      exact absurd size (by decide)
    · rw [returns] at size
      exact absurd size (by decide)
  have found := boundary_event ⟨ascii "event: error", by decide⟩ solid
    (show Line.Blank ⟨[], by decide⟩ from Or.inl rfl)
  have whole : longError ++ [0x0A] =
      Line.bytes ⟨ascii "event: error", by decide⟩ ++ bytesOf [padding] ++
        Line.bytes ⟨[], by decide⟩ := by
    rw [lines]
    simp [Line.bytes]
  rwa [whole]

/-- The long event reports an error. -/
theorem sseEventReportsError_longError :
    sseEventReportsError (fun _ => none) (longError ++ [0x0A]) = true := by
  obtain ⟨padding, -, lines⟩ := longError_lines
  have first : (stripBytes (ascii "event:") (stripReturn (ascii "event: error"))).map trimAscii =
      some (ascii "error") := by
    decide
  have name : sseEventName (longError ++ [0x0A]) = some (ascii "error") := by
    rw [lines, List.append_assoc, List.cons_append, sseEventName, splitLines_append (by decide),
      List.findSome?_cons, first]
  have error : (ascii "error").map toAsciiLowercase = ascii "error" := by decide
  rw [sseEventReportsError, name, Option.any_some, error, decide_eq_true rfl, Bool.true_or,
    Bool.true_or]

/-- An error event that is too long for the buffer counts if it comes at once, and is forgotten if
its last byte comes late; and a failure after the end of a stream counts if it comes together with
the end only. -/
theorem chunks_matter :
    ((longError ++ [0x0A]).length ≤ maxBufferedResponseBytes ∧
      ([longError ++ [0x0A]].foldl (observeChunk (fun _ => none) CC)
        ([], {})).2.signals.failed = true ∧
      ([longError, [0x0A]].foldl (observeChunk (fun _ => none) CC)
        ([], {})).2.signals.failed = false) ∧
    (let ending := ascii "data: [DONE]\n\n"
      let failure := ascii "event: error\n\n"
      let track := trackUsageStream (fun _ => none) CC ([], {})
      (track [.ok (ending ++ failure)]).status 200 = 502 ∧
        (track [.ok ending, .ok failure]).status 200 = 200) := by
  refine ⟨⟨?_, ?_, ?_⟩, ?_⟩
  · rw [List.length_append, length_longError]
    decide
  · rw [List.foldl_cons, List.foldl_nil, observeChunk_eq, List.nil_append,
      splitEvents_single boundary_longError, List.foldl_cons, List.foldl_nil, failed_event,
      sseEventReportsError_longError, Bool.or_true]
  · have last : splitEvents [0x0A] = ([], [0x0A]) := splitEvents_none (by decide)
    have long : usageEventBufferLimit < longError.length := by
      rw [length_longError]
      omega
    rw [List.foldl_cons, observeChunk_eq, List.nil_append, splitEvents_cut boundary_longError,
      if_pos long, List.foldl_nil, List.foldl_cons, observeChunk_eq, List.nil_append, last]
    rfl
  · intro ending failure track
    have first : splitEvents ending = ([ending], []) := splitEvents_single (by decide)
    have second : splitEvents failure = ([failure], []) := splitEvents_single (by decide)
    have both : splitEvents (ending ++ failure) = ([ending, failure], []) := by
      rw [splitEvents_append (by decide), second]
    constructor
    · simp only [track, trackUsageStream, observeChunk_eq, List.nil_append, both]
      rfl
    · simp only [track, trackUsageStream, observeChunk_eq, List.nil_append, first]
      rfl

end Aipass.Proxy
