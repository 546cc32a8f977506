import Aipass.Conversion.Counters

/-!
# The counters of a stream

The events of a stream report their counters piece by piece, later values in the place of earlier
ones. A ledger keeps what they have reported and what the final event of the converted stream is
made of. Most of what a converter does leaves its books alone and reports nothing.
-/
namespace Aipass.Conversion

open Proxy (TokenUsage extractUsage)

/-- The usage with which a frame reports on the whole answer. -/
def Frame.finalUsage (target : ProxyProtocol) : Frame → Option Value
  | .typed kind payload =>
    match target with
    | AM => if kind = "message_delta" then payload.get "usage" else none
    | RS =>
      if kind = "response.completed" ∨ kind = "response.incomplete" then
        payload.pointer ["response", "usage"]
      else none
    | CC => none
  | .untyped payload => if target = CC then payload.get "usage" else none
  | .done | .raw _ => none

/-- The reports on the whole answer among some frames. -/
def finalUsages (target : ProxyProtocol) (frames : List Frame) : List Value :=
  frames.filterMap (Frame.finalUsage target)

/-- What a converter reads in an upstream event. -/
inductive UpstreamEvent
  /-- A payload, and what kind of event it is. -/
  | payload (kind : String) (value : Value)
  /-- The end marker of a chat. -/
  | done

/-- What the converter between two protocols reads in an event's text. -/
def readEvent (serde : SerdeJson) (source target : ProxyProtocol) (raw : List Char) :
    Option UpstreamEvent :=
  match source, target with
  | AM, _ => do
    let parsed ← (parseSse raw).toOption
    let payload ← (← (parsePayload serde parsed AM).toOption)
    let kind ← eventKind parsed payload
    some (.payload kind payload)
  | CC, AM => do
    let parsed ← (parseSse raw).toOption
    if Text.trim parsed.data = "[DONE]".toList then some .done
    else
      let payload ← (← (parsePayload serde parsed CC).toOption)
      some (.payload "" payload)
  | _, _ => do
    let payload ← (← (data serde raw).toOption)
    if source = CC ∧ payload.asStr = some "[DONE]" then some .done
    else some (.payload (string (payload.get "type")) payload)

/-- The counters of a stream. -/
structure Ledger where
  /-- What the events have reported so far. -/
  usage : UsageAccumulator := {}
  /-- What the final event of the converted stream is made of. -/
  final : Option Value := none
  /-- The stream has ended. -/
  ended : Bool := false

/-- The Anthropic event with which a converted stream reports its usage. -/
def reportingKind (target : ProxyProtocol) : String :=
  if target = CC then "message_delta" else "message_stop"

/-- Whether a chunk reports an error; one of the converters takes null for none. -/
def chunkFails (target : ProxyProtocol) (chunk : Value) : Bool :=
  match chunk.get "error" with
  | some error => target = AM || error.present
  | none => false

/-- The ledger after an event. -/
def Ledger.step (source target : ProxyProtocol) (ledger : Ledger) (event : UpstreamEvent) :
    Ledger :=
  if ledger.ended then ledger
  else
    match event with
    | .done => { ledger with final := some ledger.usage.wire, ended := true }
    | .payload kind payload =>
      let usage := ledger.usage.observe source payload
      match source with
      | AM =>
        { usage
          final := if kind = reportingKind target then some usage.wire else ledger.final
          ended := kind = "message_stop" || kind = "error" }
      | CC =>
        if chunkFails target payload then { ledger with ended := true }
        else { ledger with usage }
      | RS =>
        match kind with
        | "response.completed" | "response.incomplete" =>
          { usage, final := some ((payload.field "response").field "usage"), ended := true }
        | "error" | "response.failed" => { ledger with usage, ended := true }
        | _ => { ledger with usage }

/-- The ledger after the text of an event. -/
def Ledger.read (serde : SerdeJson) (source target : ProxyProtocol) (ledger : Ledger)
    (raw : List Char) : Ledger :=
  (readEvent serde source target raw).elim ledger (ledger.step source target)

/-- The ledger of a stream that was converted to its end. -/
def Ledger.ofStream (serde : SerdeJson) (source target : ProxyProtocol)
    (events : List (Reading × List Char)) : Ledger :=
  let read := fun (ledger : Ledger) (event : Reading × List Char) =>
    ledger.read serde source target event.2
  (events.foldl read {}).step source target .done

/-- The frames of a stream that is converted to its end. -/
def StreamConverter.converted (serde : SerdeJson) :
    StreamConverter → List (Reading × List Char) → Except ConversionError (List Frame)
  | converter, [] => (converter.finish serde).map Prod.snd
  | converter, (reading, raw) :: rest => do
    let next ← converter.pushEvent serde reading raw
    let frames ← converted serde next.1 rest
    .ok (next.2 ++ frames)

section Quiet

/-- A frame that reports nothing on the whole answer. -/
def Silent (target : ProxyProtocol) (frame : Frame) : Prop := frame.finalUsage target = none

/-- A part of a call that keeps the books of the converter and puts out silent frames only. -/
def Quiet {σ β : Type} (books : σ → β) (silent : Frame → Prop) (run next : Emitting σ) : Prop :=
  books next.self = books run.self ∧
    ∃ more, next.out = run.out ++ more ∧ ∀ frame ∈ more, silent frame

variable {σ β : Type} {books : σ → β} {silent : Frame → Prop} {target : ProxyProtocol}
  {run middle next : Emitting σ}

/-- Nothing done is quiet. -/
theorem Quiet.refl (run : Emitting σ) : Quiet books silent run run :=
  ⟨rfl, [], (List.append_nil _).symm, by simp⟩

/-- Two quiet parts. -/
theorem Quiet.trans (first : Quiet books silent run middle)
    (second : Quiet books silent middle next) : Quiet books silent run next := by
  obtain ⟨kept, more, put, quiet⟩ := first
  obtain ⟨keptLater, later, putLater, quietLater⟩ := second
  refine ⟨keptLater.trans kept, more ++ later, ?_, ?_⟩
  · rw [putLater, put, List.append_assoc]
  · intro frame listed
    rcases List.mem_append.mp listed with before | after
    · exact quiet frame before
    · exact quietLater frame after

/-- A silent frame. -/
theorem Quiet.frame {frame : Frame} (quiet : silent frame) (run : Emitting σ) :
    Quiet books silent run { run with out := run.out ++ [frame] } :=
  ⟨rfl, [frame], rfl, by simpa using quiet⟩

/-- A change that the books do not show. -/
theorem Quiet.change {self : σ} (same : books self = books run.self) :
    Quiet books silent run { run with self } := ⟨same, [], (List.append_nil _).symm, by simp⟩

/-- Quiet parts one after another. -/
theorem Quiet.foldl {α : Type} {step : Emitting σ → α → Emitting σ}
    (quiet : ∀ run entry, Quiet books silent run (step run entry)) (entries : List α)
    (run : Emitting σ) : Quiet books silent run (entries.foldl step run) := by
  induction entries generalizing run with
  | nil => exact .refl run
  | cons entry entries ih => exact (quiet run entry).trans (ih _)

/-- Silent frames report nothing. -/
theorem finalUsages_of_silent {frames : List Frame} (quiet : ∀ frame ∈ frames, Silent target frame) :
    finalUsages target frames = [] :=
  List.filterMap_eq_nil_iff.mpr quiet

/-- The reports of two parts. -/
theorem finalUsages_append (first second : List Frame) :
    finalUsages target (first ++ second) =
      finalUsages target first ++ finalUsages target second :=
  List.filterMap_append

/-- The reports of some frames, one by one. -/
theorem finalUsages_cons (frame : Frame) (rest : List Frame) :
    finalUsages target (frame :: rest) =
      (frame.finalUsage target).toList ++ finalUsages target rest := by
  rw [finalUsages, List.filterMap_cons]
  cases frame.finalUsage target <;> rfl

/-- A quiet part reports nothing. -/
theorem Quiet.reports (quiet : Quiet books (Silent target) run next) :
    finalUsages target next.out = finalUsages target run.out := by
  obtain ⟨-, more, put, silent⟩ := quiet
  rw [put, finalUsages_append, finalUsages_of_silent silent, List.append_nil]

end Quiet

/-- A stream that has ended adds nothing. -/
theorem Ledger.read_ended {serde : SerdeJson} {source target : ProxyProtocol} {ledger : Ledger}
    (ended : ledger.ended = true) (raw : List Char) :
    ledger.read serde source target raw = ledger := by
  rw [Ledger.read]
  cases readEvent serde source target raw with
  | none => rfl
  | some event => exact if_pos ended

/-- What the frames of a call report on the whole answer is what the ledger says by then. -/
def Reports (source target : ProxyProtocol) (ledger next : Ledger) (out : List Frame) : Prop :=
  finalUsages target out = [] ∧ next.final = ledger.final ∨
    ∃ reported final, finalUsages target out = [reported] ∧ next.final = some final ∧
      (UsageOf source final → extractUsage target reported = extractUsage source final)

end Aipass.Conversion
