import Aipass.Proxy.Framing
import Aipass.Base.Result

/-!
# What a conversion without an error yields

A conversion passes without an error exactly when no chunk breaks the buffer limit and the
converter takes every event of the bytes, and then finishes. How the bytes are cut into chunks
does not matter otherwise.
-/
namespace Aipass.Proxy

open Conversion

section Run

variable (serde : SerdeJson)

/-- A converter takes events one after the other. -/
def run : StreamConverter → List (Reading × List Char) →
    Except ConversionError (StreamConverter × List Frame)
  | converter, [] => .ok (converter, [])
  | converter, (reading, raw) :: rest => do
    let (next, frames) ← converter.pushEvent serde reading raw
    let (last, more) ← run next rest
    .ok (last, frames ++ more)

/-- A converter takes events and finishes. -/
def runAll (converter : StreamConverter) (events : List (Reading × List Char)) :
    Except ConversionError (List Frame) := do
  let (last, frames) ← run serde converter events
  let (_, more) ← last.finish serde
  .ok (frames ++ more)

/-- A run of two lists of events. -/
theorem run_append (converter : StreamConverter) (events more : List (Reading × List Char)) :
    run serde converter (events ++ more) = (do
      let (middle, frames) ← run serde converter events
      let (last, rest) ← run serde middle more
      .ok (last, frames ++ rest)) := by
  induction events generalizing converter with
  | nil =>
    simp only [List.nil_append, run, ok_bind, List.nil_append]
    cases run serde converter more <;> rfl
  | cons event events ih =>
    obtain ⟨reading, raw⟩ := event
    simp only [List.cons_append, run]
    cases converter.pushEvent serde reading raw with
    | error error => rfl
    | ok pushed =>
      obtain ⟨next, frames⟩ := pushed
      simp only [ok_bind, ih]
      cases run serde next events with
      | error error => rfl
      | ok taken =>
        obtain ⟨middle, taken⟩ := taken
        simp only [ok_bind]
        cases run serde middle more with
        | error error => rfl
        | ok rest => simp

/-- A run of two lists of events that finishes. -/
theorem runAll_append (converter : StreamConverter) (events more : List (Reading × List Char)) :
    runAll serde converter (events ++ more) = (do
      let (middle, frames) ← run serde converter events
      let rest ← runAll serde middle more
      .ok (frames ++ rest)) := by
  simp only [runAll, run_append]
  cases run serde converter events with
  | error error => rfl
  | ok taken =>
    obtain ⟨middle, frames⟩ := taken
    simp only [ok_bind]
    cases run serde middle more with
    | error error => rfl
    | ok taken =>
      obtain ⟨last, rest⟩ := taken
      simp only [ok_bind]
      cases last.finish serde with
      | error error => rfl
      | ok finished => simp

end Run

/-- Events with the readings of a clock, from a count on. -/
def timed (clock : ℕ → Reading) : ℕ → List (List Char) → List (Reading × List Char)
  | _, [] => []
  | count, raw :: rest => (clock count, raw) :: timed clock (count + 1) rest

/-- Timing two lists of events. -/
theorem timed_append (clock : ℕ → Reading) (count : ℕ) (events more : List (List Char)) :
    timed clock count (events ++ more) =
      timed clock count events ++ timed clock (count + events.length) more := by
  induction events generalizing count with
  | nil => rfl
  | cons raw events ih => simp [timed, ih, Nat.add_comm, Nat.add_left_comm]

/-- Any readings are those of some clock. -/
theorem exists_clock (start : ℕ) (events : List (Reading × List Char)) :
    ∃ clock, timed clock start (events.map Prod.snd) = events := by
  induction events generalizing start with
  | nil => exact ⟨fun _ => ⟨0, fun _ => ""⟩, rfl⟩
  | cons event rest ih =>
    obtain ⟨clock, timing⟩ := ih (start + 1)
    have later : ∀ (raws : List (List Char)) count, start < count →
        timed (Function.update clock start event.1) count raws = timed clock count raws := by
      intro raws
      induction raws with
      | nil => intro _ _; rfl
      | cons raw raws ih =>
        intro count after
        rw [timed, timed, ih _ (Nat.lt_succ_of_lt after),
          Function.update_of_ne (Nat.ne_of_gt after)]
    refine ⟨Function.update clock start event.1, ?_⟩
    rw [List.map_cons, timed, Function.update_self, later _ _ (Nat.lt_succ_self _), timing]

/-- The events a converter is given: the complete ones, and what is left. -/
def rawEvents (bytes : Bytes) : List (List Char) :=
  (splitEvents bytes).1.map Text.fromUtf8Lossy ++
    if (splitEvents bytes).2 = [] then [] else [Text.fromUtf8Lossy (splitEvents bytes).2]

/-- Giving events goes on where it has stopped. -/
theorem rawEvents_more (buffer more : Bytes) :
    rawEvents (buffer ++ more) = (splitEvents buffer).1.map Text.fromUtf8Lossy ++
      rawEvents ((splitEvents buffer).2 ++ more) := by
  simp [rawEvents, splitEvents_more buffer more]

/-- No chunk arrives that exceeds the limit together with the bytes of the event before it. -/
def Fits : Bytes → List Bytes → Prop
  | _, [] => True
  | buffer, chunk :: rest =>
    (splitEvents buffer).2.length + chunk.length ≤ maxBufferedResponseBytes ∧
      Fits ((splitEvents buffer).2 ++ chunk) rest

section Convert

variable (serde : SerdeJson) (clock : ℕ → Reading)

/-- A buffer without a complete event is left alone. -/
theorem drain_none {state : SseState} (incomplete : sseEventBoundaryEnd state.buffer = none) :
    drain serde clock state = ([], some state) := by
  rw [drain]
  split
  · rfl
  · rename_i found
    rw [incomplete] at found
    cases found

/-- The first complete event is pushed, and the rest goes on. -/
theorem drain_some {state : SseState} {stop : ℕ}
    (found : sseEventBoundaryEnd state.buffer = some stop) :
    drain serde clock state =
      match state.push serde clock (state.buffer.take stop) with
      | .error error => ([.error (.conversion error)], none)
      | .ok (converter, frames) =>
        let rest := drain serde clock
          { converter, buffer := state.buffer.drop stop, pushed := state.pushed + 1 }
        (items serde frames ++ rest.1, rest.2) := by
  rw [drain]
  split
  · rename_i incomplete
    rw [found] at incomplete
    cases incomplete
  · rename_i other known
    rw [found] at known
    cases known
    rfl

/-- The complete events of the buffer, all taken. -/
theorem drain_ok (state : SseState) {last : StreamConverter} {frames : List Frame}
    (takes : run serde state.converter (timed clock state.pushed
      ((splitEvents state.buffer).1.map Text.fromUtf8Lossy)) = .ok (last, frames)) :
    drain serde clock state = (items serde frames, some
      { converter := last, buffer := (splitEvents state.buffer).2,
        pushed := state.pushed + (splitEvents state.buffer).1.length }) := by
  cases found : sseEventBoundaryEnd state.buffer with
  | none =>
    rw [splitEvents_none found] at takes ⊢
    cases takes
    rw [drain_none serde clock found]
    rfl
  | some stop =>
    have positive := boundary_pos found
    rw [splitEvents_some found] at takes ⊢
    simp only [List.map_cons, timed, run, bind_eq_ok] at takes
    obtain ⟨⟨next, first⟩, pushed, ⟨final, more⟩, taken, done⟩ := takes
    cases done
    have push : state.push serde clock (state.buffer.take stop) = .ok (next, first) := pushed
    rw [drain_some serde clock found, push]
    have rest := drain_ok
      { converter := next, buffer := state.buffer.drop stop, pushed := state.pushed + 1 } taken
    simp only [rest, items, List.map_append, List.length_cons, Nat.add_assoc, Nat.add_comm 1]
termination_by state.buffer.length
decreasing_by
  simp only [List.length_drop]
  omega

/-- The complete events of the buffer, one of them refused. -/
theorem drain_error (state : SseState) {error : ConversionError}
    (refuses : run serde state.converter (timed clock state.pushed
      ((splitEvents state.buffer).1.map Text.fromUtf8Lossy)) = .error error) :
    (drain serde clock state).2 = none ∧
      .error (.conversion error) ∈ (drain serde clock state).1 := by
  cases found : sseEventBoundaryEnd state.buffer with
  | none =>
    rw [splitEvents_none found] at refuses
    cases refuses
  | some stop =>
    have positive := boundary_pos found
    rw [splitEvents_some found] at refuses
    simp only [List.map_cons, timed, run] at refuses
    rw [drain_some serde clock found, SseState.push]
    cases pushed : state.converter.pushEvent serde (clock state.pushed)
        (Text.fromUtf8Lossy (state.buffer.take stop)) with
    | error refusal =>
      rw [pushed] at refuses
      cases refuses
      exact ⟨rfl, List.mem_singleton_self _⟩
    | ok taken =>
      obtain ⟨next, first⟩ := taken
      rw [pushed, ok_bind] at refuses
      have later : run serde next (timed clock (state.pushed + 1)
          ((splitEvents (state.buffer.drop stop)).1.map Text.fromUtf8Lossy)) = .error error := by
        cases tail : run serde next (timed clock (state.pushed + 1)
            ((splitEvents (state.buffer.drop stop)).1.map Text.fromUtf8Lossy)) with
        | error refusal =>
          rw [tail] at refuses
          cases refuses
          rfl
        | ok taken =>
          rw [tail] at refuses
          cases refuses
      obtain ⟨stopped, yielded⟩ := drain_error
        { converter := next, buffer := state.buffer.drop stop, pushed := state.pushed + 1 } later
      exact ⟨stopped, List.mem_append_right _ yielded⟩
termination_by state.buffer.length
decreasing_by
  simp only [List.length_drop]
  omega

/-- Items that hold an error are not all texts. -/
theorem ne_of_error {yielded : List SseItem} {error : SseError} (failed : .error error ∈ yielded)
    (outs : List (List Char)) : yielded ≠ outs.map .ok := by
  rintro rfl
  simp at failed

/-- The items of frames are their texts. -/
theorem items_eq_ok {frames : List Frame} {outs : List (List Char)} :
    items serde frames = outs.map .ok ↔ outs = frames.map (Frame.text serde) := by
  have texts : items serde frames = (frames.map (Frame.text serde)).map .ok := by simp [items]
  rw [texts]
  constructor
  · intro same
    exact (List.map_injective_iff.mpr (fun _ _ => Except.ok.inj) same).symm
  · rintro rfl
    rfl

/-- Items that start with frames hold the texts of these first. -/
theorem items_append_eq_ok {frames : List Frame} {rest : List SseItem} {outs : List (List Char)} :
    items serde frames ++ rest = outs.map .ok ↔
      ∃ more, rest = more.map .ok ∧ outs = frames.map (Frame.text serde) ++ more := by
  constructor
  · intro same
    obtain ⟨first, more, rfl, firsts, mores⟩ := List.append_eq_map_iff.mp same
    exact ⟨more, mores.symm, by rw [← (items_eq_ok serde).mp firsts.symm]⟩
  · rintro ⟨more, rfl, rfl⟩
    rw [List.map_append, (items_eq_ok serde).mpr rfl]

/-- The end of the upstream passes exactly when what is left is taken and the converter
finishes. -/
theorem finishSse_eq_ok {state : SseState} {outs : List (List Char)} :
    finishSse serde clock state = outs.map .ok ↔ ∃ frames,
      runAll serde state.converter (timed clock state.pushed
        (if state.buffer = [] then [] else [Text.fromUtf8Lossy state.buffer])) = .ok frames ∧
      outs = frames.map (Frame.text serde) := by
  have taken : ∀ (last : StreamConverter) (frames : List Frame),
      (match last.finish serde with
        | .error error => .error (.conversion error) :: items serde frames
        | .ok (_, more) => items serde (frames ++ more)) = outs.map .ok ↔
      ∃ all, (do let (_, more) ← last.finish serde; .ok (frames ++ more)) = .ok all ∧
        outs = all.map (Frame.text serde) := by
    intro last frames
    cases last.finish serde with
    | error error =>
      refine iff_of_false (ne_of_error (List.mem_cons_self ..) outs) ?_
      rintro ⟨_, impossible, _⟩
      cases impossible
    | ok finished =>
      simp only [items_eq_ok, ok_bind]
      refine ⟨fun same => ⟨_, rfl, same⟩, ?_⟩
      rintro ⟨_, all, same⟩
      cases all
      exact same
  by_cases empty : state.buffer = []
  · simp only [finishSse, empty, if_true, runAll, timed, run, ok_bind]
    exact taken state.converter []
  · simp only [finishSse, if_neg empty, runAll, timed, run, SseState.push]
    cases state.converter.pushEvent serde (clock state.pushed)
        (Text.fromUtf8Lossy state.buffer) with
    | error error =>
      refine iff_of_false (ne_of_error (List.mem_cons_self ..) outs) ?_
      rintro ⟨_, impossible, _⟩
      cases impossible
    | ok pushed =>
      obtain ⟨last, frames⟩ := pushed
      simp only [ok_bind, List.append_nil]
      exact taken last frames

/-- Frames that were put out, followed by what the rest of the stream yields. -/
theorem items_goOn {last : StreamConverter} {frames : List Frame} {tail : List SseItem}
    {events : List (Reading × List Char)} {fits : Prop} {outs : List (List Char)}
    (rest : ∀ more : List (List Char), tail = more.map .ok ↔ fits ∧ ∃ all,
      runAll serde last events = .ok all ∧ more = all.map (Frame.text serde)) :
    items serde frames ++ tail = outs.map .ok ↔ fits ∧ ∃ all,
      (do let rest ← runAll serde last events; .ok (frames ++ rest)) =
          (.ok all : Except ConversionError (List Frame)) ∧
        outs = all.map (Frame.text serde) := by
  simp only [items_append_eq_ok, rest, bind_eq_ok]
  constructor
  · rintro ⟨_, ⟨fits, all, taken, rfl⟩, rfl⟩
    exact ⟨fits, _, ⟨all, taken, rfl⟩, by rw [List.map_append]⟩
  · rintro ⟨fits, _, ⟨all, taken, ⟨⟩⟩, rfl⟩
    exact ⟨_, ⟨fits, all, taken, rfl⟩, by rw [List.map_append]⟩

/-- A conversion passes without an error exactly when the chunks fit, every event is taken, and
the converter finishes. -/
theorem pump_eq_ok {state : SseState} {chunks : List Bytes} {outs : List (List Char)} :
    pump serde clock state (chunks.map .ok) = outs.map .ok ↔
      Fits state.buffer chunks ∧ ∃ frames,
        runAll serde state.converter (timed clock state.pushed
          (rawEvents (state.buffer ++ chunks.flatten))) = .ok frames ∧
        outs = frames.map (Frame.text serde) := by
  induction chunks generalizing state outs with
  | nil =>
    simp only [List.map_nil, pump, Fits, List.flatten_nil, List.append_nil, rawEvents,
      timed_append, runAll_append, List.length_map]
    cases takes : run serde state.converter (timed clock state.pushed
        ((splitEvents state.buffer).1.map Text.fromUtf8Lossy)) with
    | error error =>
      obtain ⟨stopped, yielded⟩ := drain_error serde clock state takes
      rw [show drain serde clock state = ((drain serde clock state).1, none) from
        Prod.ext rfl stopped]
      exact iff_of_false (ne_of_error yielded outs) fun ⟨_, _, impossible, _⟩ => by
        cases impossible
    | ok taken =>
      obtain ⟨last, frames⟩ := taken
      rw [drain_ok serde clock state takes]
      refine items_goOn serde fun more => ?_
      rw [finishSse_eq_ok, true_and]
  | cons chunk rest ih =>
    simp only [List.map_cons, pump, Fits, List.flatten_cons, ← List.append_assoc]
    rw [List.append_assoc, rawEvents_more, timed_append, runAll_append, List.length_map]
    cases takes : run serde state.converter (timed clock state.pushed
        ((splitEvents state.buffer).1.map Text.fromUtf8Lossy)) with
    | error error =>
      obtain ⟨stopped, yielded⟩ := drain_error serde clock state takes
      rw [show drain serde clock state = ((drain serde clock state).1, none) from
        Prod.ext rfl stopped]
      exact iff_of_false (ne_of_error yielded outs) fun ⟨_, _, impossible, _⟩ => by
        cases impossible
    | ok taken =>
      obtain ⟨last, frames⟩ := taken
      rw [drain_ok serde clock state takes]
      by_cases exceeds : maxBufferedResponseBytes < (splitEvents state.buffer).2.length + chunk.length
      · simp only [if_pos exceeds]
        exact iff_of_false
          (ne_of_error (List.mem_append_right _ (List.mem_singleton_self _)) outs)
          fun ⟨fits, _⟩ => absurd exceeds (Nat.not_lt.mpr fits.1)
      · simp only [if_neg exceeds]
        refine items_goOn serde fun more => ?_
        rw [ih, List.append_assoc, and_iff_right (Nat.not_lt.mp exceeds)]

end Convert
end Aipass.Proxy
