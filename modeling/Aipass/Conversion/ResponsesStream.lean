import Aipass.Conversion.Stream
import Aipass.Conversion.ChatSimulation
import Aipass.Conversion.MessagesSimulation

/-!
# Streams to Responses clients are well formed

Between two calls the client knows the converter's state, whichever protocol the upstream
speaks. Each call keeps that, so the client follows every run to its end.
-/
namespace Aipass.Conversion

/-- The text that closes a call without a delta, in a stream from a protocol: for Anthropic the
initial input of the block the upstream event starts. -/
def emptyInput (serde : SerdeJson) (source : ProxyProtocol) (raw : List Char) : String :=
  if source = AM then AmToRs.blockInput serde raw else "{}"

/-- What the client makes of a converter between two calls. -/
def Serves (reread : String → String) (source : ProxyProtocol) (client : Client) :
    StreamConverter → Prop
  | .ccToRs held => source = CC ∧ ChatToResponses.Settled held client
  | .amToRs held => source = AM ∧ AmToRs.Settled reread held client
  | _ => False

variable {serde : SerdeJson} {reread : String → String} {source : ProxyProtocol}
  {client : Client} {converter next : StreamConverter} {out : List Frame}

/-- An event keeps the client informed. -/
theorem Serves.pushEvent (lawful : serde.Lawful)
    (readsBack : serde.ReadsBack reread)
    (serves : Serves reread source client converter) (reading : Reading) (raw : List Char)
    (passes : converter.pushEvent serde reading raw = .ok (next, out)) :
    ∃ client', client.receiveAll (itemFallback (emptyInput serde source raw)) out = some client' ∧
      Serves reread source client' next := by
  cases converter with
  | ccToRs held =>
    obtain ⟨rfl, settled⟩ := serves
    obtain ⟨run, pushed, rfl, rfl⟩ := StreamConverter.map_tagged passes
    obtain ⟨client', taken, after⟩ := ChatToResponses.push_settles settled reading raw pushed
    exact ⟨client', taken, rfl, after⟩
  | amToRs held =>
    obtain ⟨rfl, settled⟩ := serves
    obtain ⟨run, pushed, rfl, rfl⟩ := StreamConverter.map_tagged passes
    obtain ⟨client', taken, after⟩ :=
      AmToRs.push_settles lawful readsBack settled reading raw pushed
    exact ⟨client', taken, rfl, after⟩
  | _ => exact serves.elim

/-- The end of the stream puts out what the client takes. -/
theorem Serves.finish (serves : Serves reread source client converter)
    (passes : converter.finish serde = .ok (next, out)) :
    (client.receiveAll (itemFallback (emptyInput serde source [])) out).isSome := by
  cases converter with
  | ccToRs held =>
    obtain ⟨rfl, settled⟩ := serves
    obtain ⟨run, finished, rfl, rfl⟩ := StreamConverter.map_tagged passes
    obtain ⟨client', taken, -⟩ := ChatToResponses.finish_settles settled finished
    exact Option.isSome_iff_exists.mpr ⟨client', taken⟩
  | amToRs held =>
    simp only [StreamConverter.finish] at passes
    split at passes <;> cases passes
    rfl
  | _ => exact serves.elim

/-- The client follows a run from any state it knows. -/
theorem Serves.follows (lawful : serde.Lawful)
    (readsBack : serde.ReadsBack reread)
    (finishing : Bool) (events : List (Reading × List Char))
    (serves : Serves reread source client converter) :
    (Client.follow itemFallback client ((converter.calls serde finishing events).map fun call =>
      (emptyInput serde source call.1, call.2))).isSome := by
  induction events generalizing client converter with
  | nil =>
    simp only [StreamConverter.calls]
    split
    · split
      · rename_i next out finished
        have taken := serves.finish finished
        simpa [Client.follow] using taken
      · rfl
    · rfl
  | cons event rest ih =>
    obtain ⟨reading, raw⟩ := event
    simp only [StreamConverter.calls]
    split
    · rename_i next out passes
      obtain ⟨client', taken, after⟩ := serves.pushEvent lawful readsBack reading raw passes
      have tail := ih after
      simpa [Client.follow, taken] using tail
    · rfl

/-- A new converter towards Responses, and a client that has seen nothing. -/
theorem serves_new (reread : String → String) (foreign : source ≠ RS)
    (created : StreamConverter.new source RS = .ok converter) :
    Serves reread source {} converter := by
  cases source with
  | openAiResponses => exact absurd rfl foreign
  | openAiChatCompletions =>
    cases created
    exact ⟨rfl, Or.inr ChatToResponses.follows_new⟩
  | anthropicMessages =>
    cases created
    exact ⟨rfl, AmToRs.settled_new reread⟩

/-- Every run towards a Responses client, up to its first error and finished or not, is well
formed: a function call without a delta is closed with the initial input of its block, or with
an empty object where the upstream has none, and every other item with its deltas. -/
theorem responsesRun_wellFormed (lawful : serde.Lawful) (foreign : source ≠ RS)
    (created : StreamConverter.new source RS = .ok converter) (finishing : Bool)
    (events : List (Reading × List Char)) :
    WellFormedResponses itemFallback ((converter.calls serde finishing events).map fun call =>
      (emptyInput serde source call.1, call.2)) := by
  obtain ⟨reread, readsBack⟩ := lawful.readsBack
  exact (serves_new reread foreign created).follows lawful readsBack finishing events

namespace Sample

/-- A chunk that starts a freeform call and brings no input. -/
def customChunk : Value :=
  .obj [("id", "a"), ("choices", .array [.obj [("delta", .obj [("tool_calls", .array [
    .obj [("type", "custom"), ("custom", .obj [("name", "exec")])]])])]])]

/-- The text of that chunk. -/
def customText : String :=
  "\x7b\"choices\":[\x7b\"delta\":\x7b\"tool_calls\":[\x7b\"custom\":\x7b\"name\":\"exec\"\x7d,\"type\":\"custom\"\x7d]\x7d\x7d]," ++
    "\"id\":\"a\"\x7d"

/-- A parser that knows that text. -/
def customSerde : SerdeJson := .ofTable [(customText, customChunk)]

set_option maxRecDepth 8000 in
/-- The parser of the sample is lawful. -/
theorem customSerde_lawful : customSerde.Lawful :=
  SerdeJson.ofTable_lawful (by decide) (by simp)

/-- A stream of that chunk and the end marker. -/
def customEvents : List (Reading × List Char) :=
  [(reading, "data: ".toList ++ customText.toList ++ "\n\n".toList),
    (reading, "data: [DONE]\n\n".toList)]

end Sample

/-- The stream of a freeform call without input is well formed. -/
theorem responsesRun_wellFormed_sample :
    WellFormedResponses itemFallback
      (((StreamConverter.ccToRs {}).calls Sample.customSerde false Sample.customEvents).map
        fun call => (emptyInput Sample.customSerde CC call.1, call.2)) :=
  responsesRun_wellFormed Sample.customSerde_lawful (by decide) rfl false Sample.customEvents

/-- The rule that would close every call without a delta, freeform or not, with the initial
input of its block or an empty object. -/
def callFallback (initialInput : String) (item : Value) : String :=
  if (item.field "type").asStr = some "function_call" ∨
      (item.field "type").asStr = some "custom_tool_call" then initialInput
  else ""

set_option maxRecDepth 8000 in
/-- A freeform call without input is closed with the empty text, so that rule does not hold of
every stream. -/
theorem not_callFallback : ¬ ∀ (serde : SerdeJson), serde.Lawful →
    ∀ (source : ProxyProtocol) (converter : StreamConverter), source ≠ RS →
      StreamConverter.new source RS = .ok converter →
      ∀ (finishing : Bool) (events : List (Reading × List Char)),
        WellFormedResponses callFallback ((converter.calls serde finishing events).map fun call =>
          (emptyInput serde source call.1, call.2)) := by
  intro every
  have follows := every Sample.customSerde Sample.customSerde_lawful CC (.ccToRs {}) (by decide)
    rfl false Sample.customEvents
  have objects : (Client.follow callFallback {}
      (((StreamConverter.ccToRs {}).calls Sample.customSerde false Sample.customEvents).map
        fun call => (emptyInput Sample.customSerde CC call.1, call.2))).isSome = false := by decide
  rw [WellFormedResponses, objects] at follows
  cases follows

end Aipass.Conversion
