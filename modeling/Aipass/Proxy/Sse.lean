import Aipass.Base.Utf8
import Aipass.Conversion.Stream

/-!
# Framing and converting an upstream stream

The bytes of the upstream are buffered until they hold a complete event, which ends with the
first empty line after a line. Each event goes through the converter at once; what is left at
the end of the stream is one more event, and then the converter is asked to finish.
-/
namespace Aipass.Proxy

open Conversion

/-- `MAX_BUFFERED_RESPONSE_BYTES`. -/
def maxBufferedResponseBytes : ℕ := 64 * 1024 * 1024

/-- `windows(n).position(|window| window == pattern)`. -/
def position (pattern : Bytes) : Bytes → Option ℕ
  | [] => none
  | byte :: rest =>
    if pattern.isPrefixOf (byte :: rest) then some 0 else (position pattern rest).map (· + 1)

/-- `sse_event_boundary_end`. -/
def sseEventBoundaryEnd (bytes : Bytes) : Option ℕ :=
  let lineFeed := (position [0x0A, 0x0A] bytes).map (· + 2)
  let carriageReturn := (position [0x0A, 0x0D, 0x0A] bytes).map (· + 3)
  match lineFeed, carriageReturn with
  | some left, some right => some (min left right)
  | some stop, none | none, some stop => some stop
  | none, none => none

/-- A pattern is found inside the bytes. -/
theorem position_lt {pattern bytes : Bytes} {index : ℕ}
    (found : position pattern bytes = some index) : index < bytes.length := by
  induction bytes generalizing index with
  | nil => cases found
  | cons byte rest ih =>
    rw [position] at found
    split at found
    · cases found
      simp
    · obtain ⟨before, foundRest, rfl⟩ := Option.map_eq_some_iff.mp found
      simpa using ih foundRest

/-- A boundary lies after the start of the bytes. -/
theorem boundary_pos {bytes : Bytes} {stop : ℕ} (found : sseEventBoundaryEnd bytes = some stop) :
    0 < stop ∧ 0 < bytes.length := by
  simp only [sseEventBoundaryEnd] at found
  cases left : position [0x0A, 0x0A] bytes with
  | none =>
    cases right : position [0x0A, 0x0D, 0x0A] bytes with
    | none => simp [left, right] at found
    | some index =>
      have inside := position_lt right
      simp only [left, right, Option.map_none, Option.map_some, Option.some.injEq] at found
      omega
  | some index =>
    have inside := position_lt left
    cases right : position [0x0A, 0x0D, 0x0A] bytes with
    | none =>
      simp only [left, right, Option.map_none, Option.map_some, Option.some.injEq] at found
      omega
    | some other =>
      simp only [left, right, Option.map_some, Option.some.injEq] at found
      omega

/-- Why a converted stream fails. -/
inductive SseError
  /-- The converter's error. -/
  | conversion (error : ConversionError)
  /-- An event exceeds the buffer limit. -/
  | limit
  /-- The upstream's error. -/
  | source (message : String)

/-- What `convert_sse_stream` yields: the text of an event, or an error. -/
abbrev SseItem := Except SseError (List Char)

/-- The state of `convert_sse_stream` while the upstream goes on. -/
structure SseState where
  converter : StreamConverter
  buffer : Bytes := []
  /-- The events pushed so far, by which the clock is read. -/
  pushed : ℕ := 0

section Conversion

variable (serde : SerdeJson) (clock : ℕ → Reading)

/-- The texts of frames, as items. -/
def items (frames : List Frame) : List SseItem :=
  frames.map fun frame => .ok (frame.text serde)

/-- `converter.push_event(&event)`. -/
def SseState.push (state : SseState) (event : Bytes) :
    Except ConversionError (StreamConverter × List Frame) :=
  state.converter.pushEvent serde (clock state.pushed) (Text.fromUtf8Lossy event)

/-- The complete events of the buffer: what they yield, and the state after them unless the
stream has failed. -/
def drain (state : SseState) : List SseItem × Option SseState :=
  match _found : sseEventBoundaryEnd state.buffer with
  | none => ([], some state)
  | some stop =>
    match state.push serde clock (state.buffer.take stop) with
    | .error error => ([.error (.conversion error)], none)
    | .ok (converter, frames) =>
      let (more, last) := drain
        { converter, buffer := state.buffer.drop stop, pushed := state.pushed + 1 }
      (items serde frames ++ more, last)
termination_by state.buffer.length
decreasing_by
  have positive := boundary_pos _found
  simp only [List.length_drop]
  omega

/-- The end of the upstream. What the leftover yields follows an error of the finish, since it is
still pending when the error is returned. -/
def finishSse (state : SseState) : List SseItem :=
  let leftover :=
    if state.buffer = [] then .ok (state.converter, [])
    else state.push serde clock state.buffer
  match leftover with
  | .error error => [.error (.conversion error)]
  | .ok (converter, frames) =>
    match converter.finish serde with
    | .error error => .error (.conversion error) :: items serde frames
    | .ok (_, last) => items serde (frames ++ last)

/-- The loop of `convert_sse_stream`. -/
def pump (state : SseState) : List (Except String Bytes) → List SseItem
  | [] =>
    match drain serde clock state with
    | (yielded, none) => yielded
    | (yielded, some state) => yielded ++ finishSse serde clock state
  | next :: rest =>
    match drain serde clock state with
    | (yielded, none) => yielded
    | (yielded, some state) =>
      match next with
      | .error message => yielded ++ [.error (.source message)]
      | .ok chunk =>
        if maxBufferedResponseBytes < state.buffer.length + chunk.length then
          yielded ++ [.error .limit]
        else yielded ++ pump { state with buffer := state.buffer ++ chunk } rest

/-- `convert_sse_stream`. -/
def convertSseStream (source target : ProxyProtocol) (upstream : List (Except String Bytes)) :
    List SseItem :=
  match StreamConverter.new source target with
  | .error error => [.error (.conversion error)]
  | .ok converter => pump serde clock { converter } upstream

end Conversion
end Aipass.Proxy
