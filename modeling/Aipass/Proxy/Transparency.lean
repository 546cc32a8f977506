import Aipass.Conversion.AnthropicStream
import Aipass.Proxy.Comments

/-!
# Which converters pass over comments

A converter that reads its events with the OpenAI reader skips an event without data in every
state, and one that reads them with the other reader refuses it in every state. So a stream with
comments converts as it does without them exactly when its converter is of the first kind, or the
comments and blank lines make no event of their own.
-/
namespace Aipass.Proxy

open Conversion

/-- The converter skips an event without data. -/
def Skips : StreamConverter → Bool
  | .rsToAm _ | .ccToRs _ | .rsToCc _ => true
  | _ => false

/-- The converter passes its events on as they are. -/
def Native : StreamConverter → Bool
  | .passthrough .. => true
  | _ => false

/-- The pairs of protocols whose converter skips an event without data. -/
def skipsEmpty : ProxyProtocol → ProxyProtocol → Bool
  | RS, _ | CC, RS => true
  | _, _ => false

/-- The converter of a pair. -/
theorem skips_new {source target : ProxyProtocol} (cross : source ≠ target) :
    ∃ converter, StreamConverter.new source target = .ok converter ∧
      Native converter = false ∧ Skips converter = skipsEmpty source target := by
  cases source <;> cases target <;>
    first
      | exact absurd rfl cross
      | exact ⟨_, rfl, rfl, rfl⟩

section Push

variable {serde : SerdeJson} {reading : Reading}

/-- A converter stays of its kind. -/
theorem kind_pushEvent {converter next : StreamConverter} {raw : List Char} {frames : List Frame}
    (pushed : converter.pushEvent serde reading raw = .ok (next, frames)) :
    Skips next = Skips converter ∧ Native next = Native converter := by
  cases converter with
  | passthrough protocol done =>
    rw [StreamConverter.pushEvent] at pushed
    cases passes : StreamConverter.pass serde protocol done raw with
    | error error =>
      rw [passes] at pushed
      cases pushed
    | ok after =>
      rw [passes] at pushed
      cases pushed
      exact ⟨rfl, rfl⟩
  | ccToAm state | amToCc state | rsToAm state | amToRs state | ccToRs state | rsToCc state =>
    obtain ⟨run, -, rfl, -⟩ := StreamConverter.map_tagged pushed
    exact ⟨rfl, rfl⟩

/-- An event that is taken is taken in the same way behind an empty line. -/
theorem pushEvent_leads {converter : StreamConverter} (cross : Native converter = false)
    {raw raw' : List Char} (leads : Leads raw raw') {pushed : StreamConverter × List Frame}
    (takes : converter.pushEvent serde reading raw = .ok pushed) :
    converter.pushEvent serde reading raw' = .ok pushed := by
  -- the first reader passes an error on, so an event that is taken was read
  have reread : ∀ {α β : Type} {result : β} {rest : SseEvent → Except ConversionError α}
      {last : α → β}, Except.map last (parseSse raw >>= rest) = .ok result →
      Except.map last (parseSse raw' >>= rest) = .ok result := by
    intro α β result rest last passes
    cases read : parseSse raw with
    | error error =>
      rw [read] at passes
      cases passes
    | ok parsed =>
      rw [read] at passes
      rw [parseSse_leads leads read]
      exact passes
  cases converter with
  | passthrough protocol done => cases cross
  | ccToAm state | amToCc state | amToRs state => exact reread takes
  | rsToAm state =>
    simp only [StreamConverter.pushEvent, RsToAm.push, ResponsesToChat.push,
      data_leads serde leads] at takes ⊢
    exact takes
  | ccToRs state =>
    simp only [StreamConverter.pushEvent, ChatToResponses.push, data_leads serde leads] at takes ⊢
    exact takes
  | rsToCc state =>
    simp only [StreamConverter.pushEvent, ResponsesToChat.push, data_leads serde leads] at takes ⊢
    exact takes

/-- A converter that skips empty events is not changed by a quiet one. -/
theorem pushEvent_quiet {converter : StreamConverter} (skips : Skips converter = true)
    {raw : List Char} (quiet : Quiet raw) :
    converter.pushEvent serde reading raw = .ok (converter, []) := by
  have silent := data_quiet serde quiet
  cases converter with
  | passthrough protocol done => cases skips
  | ccToAm state | amToCc state | amToRs state => cases skips
  | rsToAm state =>
    simp only [StreamConverter.pushEvent, RsToAm.push, ResponsesToChat.push, silent]
    split <;> rfl
  | ccToRs state =>
    simp only [StreamConverter.pushEvent, ChatToResponses.push, silent]
    split <;> rfl
  | rsToCc state =>
    simp only [StreamConverter.pushEvent, ResponsesToChat.push, silent]
    split <;> rfl

/-- Any other converter refuses a quiet event, whatever its state. -/
theorem pushEvent_refuses {converter : StreamConverter} (cross : Native converter = false)
    (strict : Skips converter = false) {raw : List Char} (quiet : Quiet raw) :
    converter.pushEvent serde reading raw = .error (.invalidEvent raw) := by
  have unread := parseSse_quiet quiet
  cases converter with
  | passthrough protocol done => cases cross
  | rsToAm state | ccToRs state | rsToCc state => cases strict
  | ccToAm state =>
    simp only [StreamConverter.pushEvent, CcToAm.push, unread]
    rfl
  | amToCc state =>
    simp only [StreamConverter.pushEvent, AmToCc.push, unread]
    rfl
  | amToRs state =>
    simp only [StreamConverter.pushEvent, AmToRs.push, unread]
    rfl

/-- A run of woven events, with the readings of the events it skips made up. -/
theorem runAll_woven {noise : Prop} {converter : StreamConverter}
    (cross : Native converter = false) (skips : noise → Skips converter = true)
    {woven : List (List Char)} {events : List (Reading × List Char)}
    (weave : Woven noise (events.map Prod.snd) woven) {frames : List Frame}
    (taken : runAll serde converter events = .ok frames) :
    ∃ events', events'.map Prod.snd = woven ∧ runAll serde converter events' = .ok frames := by
  generalize same : events.map Prod.snd = raws at weave
  induction weave generalizing converter events frames with
  | done =>
    rw [List.map_eq_nil_iff] at same
    subst same
    exact ⟨[], rfl, taken⟩
  | @quiet raw raws woven loud quiet rest ih =>
    obtain ⟨events', texts, taken'⟩ := ih cross skips taken same
    refine ⟨(Sample.reading, raw) :: events', by rw [List.map_cons, texts], ?_⟩
    simp only [runAll, run, pushEvent_quiet (skips loud) quiet, ok_bind, bind_eq_ok] at taken' ⊢
    obtain ⟨⟨last, out⟩, ran, ⟨final, more⟩, finished, ⟨⟩⟩ := taken'
    exact ⟨_, ⟨_, ran, rfl⟩, _, finished, rfl⟩
  | @event raw raw' raws woven leads rest ih =>
    obtain ⟨⟨reading, text⟩, later, rfl, rfl, tail⟩ := List.map_eq_cons_iff.mp same
    simp only [runAll, run, bind_eq_ok] at taken
    obtain ⟨⟨last, out⟩, ⟨⟨next, first⟩, pushed, ⟨_, second⟩, ran, ⟨⟩⟩, ⟨final, more⟩, finished,
      ⟨⟩⟩ := taken
    obtain ⟨kind, native⟩ := kind_pushEvent pushed
    have remaining : runAll serde next later = .ok (second ++ more) := by
      simp only [runAll, bind_eq_ok]
      exact ⟨_, ran, _, finished, rfl⟩
    obtain ⟨events', texts, taken'⟩ := ih (native.trans cross)
      (fun loud => kind.trans (skips loud)) remaining tail
    refine ⟨(reading, raw') :: events', by rw [List.map_cons, texts], ?_⟩
    simp only [runAll, run, pushEvent_leads cross leads pushed, ok_bind, bind_eq_ok] at taken' ⊢
    obtain ⟨⟨last', out'⟩, ran', ⟨final', more'⟩, finished', together⟩ := taken'
    refine ⟨_, ⟨_, ran', rfl⟩, _, finished', ?_⟩
    rw [Except.ok.injEq] at together ⊢
    rw [List.append_assoc, List.append_assoc, together]

/-- A run with a quiet event fails in a converter that does not skip it. -/
theorem run_refuses {converter : StreamConverter} (cross : Native converter = false)
    (strict : Skips converter = false) {events : List (Reading × List Char)}
    (loud : ∃ event ∈ events, Quiet event.2) (result : StreamConverter × List Frame) :
    run serde converter events ≠ .ok result := by
  induction events generalizing converter result with
  | nil =>
    obtain ⟨event, inside, -⟩ := loud
    cases inside
  | cons event events ih =>
    obtain ⟨reading, raw⟩ := event
    intro taken
    simp only [run, bind_eq_ok] at taken
    obtain ⟨⟨next, first⟩, pushed, rest, ran, -⟩ := taken
    obtain ⟨kind, native⟩ := kind_pushEvent pushed
    obtain ⟨other, inside, quiet⟩ := loud
    rcases List.mem_cons.mp inside with rfl | later
    · rw [pushEvent_refuses cross strict quiet] at pushed
      cases pushed
    · exact ih (native.trans cross) (kind.trans strict) ⟨other, later, quiet⟩ rest ran

end Push

/-- The texts of timed events. -/
theorem map_timed (clock : ℕ → Reading) (count : ℕ) (raws : List (List Char)) :
    (timed clock count raws).map Prod.snd = raws := by
  induction raws generalizing count with
  | nil => rfl
  | cons raw raws ih => rw [timed, List.map_cons, ih]

/-- A conversion between two protocols passes exactly when its chunks fit and its events are
taken. -/
theorem convertSseStream_eq_ok {serde : SerdeJson} {clock : ℕ → Reading}
    {source target : ProxyProtocol} {converter : StreamConverter}
    (created : StreamConverter.new source target = .ok converter) {chunks : List Bytes}
    {outs : List (List Char)} :
    convertSseStream serde clock source target (chunks.map .ok) = outs.map .ok ↔
      Fits [] chunks ∧ ∃ frames,
        runAll serde converter (timed clock 0 (rawEvents chunks.flatten)) = .ok frames ∧
        outs = frames.map (Frame.text serde) := by
  simp only [convertSseStream, created]
  rw [pump_eq_ok]
  rfl

/-- A converter that does not skip empty events fails on fillers that do not spare a stream. -/
theorem runAll_unspared {serde : SerdeJson} {converter : StreamConverter}
    (cross : Native converter = false) (strict : Skips converter = false) {padded : Padded}
    (unspared : ¬ padded.Spared) (clock : ℕ → Reading) (frames : List Frame) :
    runAll serde converter (timed clock 0 (rawEvents padded.bytes)) ≠ .ok frames := by
  intro taken
  obtain ⟨raw, inside, quiet⟩ := exists_quiet unspared
  rw [← map_timed clock 0 (rawEvents padded.bytes)] at inside
  obtain ⟨event, listed, rfl⟩ := List.mem_map.mp inside
  simp only [runAll, bind_eq_ok] at taken
  obtain ⟨result, ran, -⟩ := taken
  exact run_refuses cross strict ⟨event, listed, quiet⟩ result ran

/-- A stream that converts without an error, with comments and blank lines between its events,
converts to the same output at some readings of the clock exactly when its chunks fit into the
buffer and either the converter skips events without data or the comments and blank lines make
none. -/
theorem commentsTransparent_iff (serde : SerdeJson) (clock : ℕ → Reading)
    {source target : ProxyProtocol} (cross : source ≠ target) (padded : Padded)
    {chunks chunks' : List Bytes} (plain : chunks.flatten = padded.bare)
    (filled : chunks'.flatten = padded.bytes) {outs : List (List Char)}
    (clean : convertSseStream serde clock source target (chunks.map .ok) = outs.map .ok) :
    (∃ clock', convertSseStream serde clock' source target (chunks'.map .ok) = outs.map .ok) ↔
      Fits [] chunks' ∧ (skipsEmpty source target = true ∨ padded.Spared) := by
  obtain ⟨converter, created, native, kind⟩ := skips_new cross
  obtain ⟨-, frames, taken, rfl⟩ := (convertSseStream_eq_ok created).mp clean
  rw [plain] at taken
  simp only [convertSseStream_eq_ok created, filled]
  constructor
  · rintro ⟨clock', fits, frames', taken', -⟩
    refine ⟨fits, ?_⟩
    by_contra exposed
    rw [not_or, Bool.not_eq_true] at exposed
    exact runAll_unspared native (kind.trans exposed.1) exposed.2 clock' frames' taken'
  · rintro ⟨fits, allowed⟩
    have skips : ¬ padded.Spared → Skips converter = true := fun unspared =>
      kind.trans (allowed.resolve_right unspared)
    have weave := @woven_padded (¬ padded.Spared) padded id
    rw [← map_timed clock 0 (rawEvents padded.bare)] at weave
    obtain ⟨events, texts, taken'⟩ := runAll_woven native skips weave taken
    obtain ⟨clock', timing⟩ := exists_clock 0 events
    rw [texts] at timing
    exact ⟨clock', fits, frames, by rw [timing]; exact taken', rfl⟩

namespace Sample

/-- The line of an event that ends a message. -/
def stopLine : Line := ⟨("data: " ++ Conversion.Sample.stopText).toList.map Char.toUInt8, by decide⟩

/-- An empty line. -/
def emptyLine : Line := ⟨[], by decide⟩

/-- A line that keeps a connection open. -/
def keepAliveLine : Line := ⟨": keep-alive".toList.map Char.toUInt8, by decide⟩

/-- The event that ends a message. -/
def stopBlock : Block where
  lines := [stopLine]
  nonempty := by simp
  solid := by decide
  last := emptyLine
  blank := Or.inl rfl

/-- A comment. -/
def keepAlive : Filler :=
  .comment
    { lines := [keepAliveLine]
      nonempty := by simp
      solid := by decide
      last := emptyLine
      blank := Or.inl rfl }
    (by decide)

/-- The event with fillers in front. -/
def stopAfter (fillers : List Filler) : Padded := { parts := [(fillers, stopBlock)], tail := [] }

/-- The frames the event becomes. -/
def stopFrames : List Frame :=
  match runAll Conversion.Sample.stopSerde (.ccToAm {}) Conversion.Sample.stopEvents with
  | .ok frames => frames
  | .error _ => []

/-- A clock that stands still. -/
def clock : ℕ → Reading := fun _ => Conversion.Sample.reading

set_option maxRecDepth 4000 in
/-- The event without fillers converts. -/
theorem stop_converts (fillers : List Filler) :
    convertSseStream Conversion.Sample.stopSerde clock CC AM
        ([(stopAfter fillers).bare].map .ok) =
      (stopFrames.map (Frame.text Conversion.Sample.stopSerde)).map .ok := by
  have text : Text.fromUtf8Lossy stopBlock.bytes =
      "data: ".toList ++ Conversion.Sample.stopText.toList ++ "\n\n".toList := by decide
  have bare : [(stopAfter fillers).bare].flatten = stopBlock.bytes ++ [] := by
    simp [stopAfter, Padded.bare]
  refine (convertSseStream_eq_ok rfl).mpr ⟨⟨?_, trivial⟩, stopFrames, ?_, rfl⟩
  · rw [splitEvents_none boundary_nil]
    have size : ([] : Bytes).length + (stopBlock.bytes ++ []).length ≤ 64 := by decide
    exact size.trans (by decide)
  · rw [bare, rawEvents_append (boundary_block stopBlock), rawEvents_nil, text]
    have taken : (runAll Conversion.Sample.stopSerde (.ccToAm {})
        Conversion.Sample.stopEvents).isOk = true := by decide
    change runAll Conversion.Sample.stopSerde (.ccToAm {}) Conversion.Sample.stopEvents = _
    rw [stopFrames]
    cases ran : runAll Conversion.Sample.stopSerde (.ccToAm {})
        Conversion.Sample.stopEvents with
    | ok frames => rfl
    | error error =>
      rw [ran] at taken
      cases taken

end Sample

/-- One blank line in front of the event leaves its conversion as it is. -/
theorem commentsTransparent_blank :
    ∃ clock', convertSseStream Conversion.Sample.stopSerde clock' CC AM
        ([(Sample.stopAfter [.blank Sample.emptyLine (Or.inl rfl)]).bytes].map .ok) =
      (Sample.stopFrames.map (Frame.text Conversion.Sample.stopSerde)).map .ok := by
  refine (commentsTransparent_iff Conversion.Sample.stopSerde Sample.clock (by decide)
    (Sample.stopAfter [.blank Sample.emptyLine (Or.inl rfl)]) (List.flatten_singleton)
    (List.flatten_singleton) (Sample.stop_converts _)).mpr ⟨?_, Or.inr ⟨?_, rfl⟩⟩
  · refine ⟨?_, trivial⟩
    rw [splitEvents_none boundary_nil]
    have size : ([] : Bytes).length +
        (Sample.stopAfter [.blank Sample.emptyLine (Or.inl rfl)]).bytes.length ≤ 64 := by decide
    exact size.trans (by decide)
  · intro part inside
    rw [List.mem_singleton.mp inside]
    rfl

/-- A comment in front of the event makes the conversion fail. -/
theorem comment_breaks :
    ¬ ∀ (serde : SerdeJson), serde.Lawful → ∀ (clock : ℕ → Reading) (source target : ProxyProtocol),
      source ≠ target → ∀ (padded : Padded) (chunks chunks' : List Bytes),
      chunks.flatten = padded.bare → chunks'.flatten = padded.bytes →
      ∀ outs : List (List Char),
        convertSseStream serde clock source target (chunks.map .ok) = outs.map .ok →
        ∃ clock', convertSseStream serde clock' source target (chunks'.map .ok) =
          outs.map .ok := by
  intro every
  obtain ⟨clock', converts⟩ := every _ Conversion.Sample.stopSerde_lawful Sample.clock CC AM
    (by decide) (Sample.stopAfter [Sample.keepAlive]) [_] [_] List.flatten_singleton
    List.flatten_singleton _ (Sample.stop_converts _)
  obtain ⟨-, frames, taken, -⟩ := (convertSseStream_eq_ok rfl).mp converts
  rw [List.flatten_singleton] at taken
  refine runAll_unspared rfl rfl ?_ clock' frames taken
  rintro ⟨spared, -⟩
  cases spared _ (List.mem_singleton_self _)

end Aipass.Proxy
