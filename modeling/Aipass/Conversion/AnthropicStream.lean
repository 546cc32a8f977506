import Aipass.Conversion.ResponsesMessages

/-!
# Streams to Anthropic clients are well formed

Between two calls the client knows the converter's state and the observer its calls, whichever
protocol the upstream speaks. Each call keeps that, and a converter that finishes has ended its
stream.
-/
namespace Aipass.Conversion

/-- The converter after the events of a run, unless one of them fails. -/
def StreamConverter.after (serde : SerdeJson) :
    StreamConverter → List (Reading × List Char) → Except ConversionError StreamConverter
  | converter, [] => .ok converter
  | converter, (reading, raw) :: rest => do
    let (next, _) ← converter.pushEvent serde reading raw
    after serde next rest

/-- Whether a run is finished without an error. -/
def StreamConverter.finishes (serde : SerdeJson) (finishing : Bool) (converter : StreamConverter)
    (events : List (Reading × List Char)) : Bool :=
  finishing && (converter.after serde events >>= StreamConverter.finish serde).isOk

/-- What the client and the observer make of a converter between two calls. -/
def Informs (source : ProxyProtocol) (seen : Upstream) (client : MessagesClient) :
    StreamConverter → Prop
  | .ccToAm held => source = CC ∧ held.Settled seen client
  | .rsToAm held => source = RS ∧ held.Settled seen client
  | _ => False

variable {serde : SerdeJson} {source : ProxyProtocol} {seen : Upstream} {client : MessagesClient}
  {converter next : StreamConverter} {out : List Frame}

/-- An event keeps the client and the observer informed. -/
theorem Informs.pushEvent (lawful : serde.Lawful) (informs : Informs source seen client converter)
    (reading : Reading) (raw : List Char)
    (passes : converter.pushEvent serde reading raw = .ok (next, out)) :
    ∃ client', client.receiveAll serde (seen.observe serde source raw) out = some client' ∧
      Informs source (seen.observe serde source raw) client' next := by
  cases converter with
  | ccToAm held =>
    obtain ⟨rfl, settled⟩ := informs
    obtain ⟨run, pushed, rfl, rfl⟩ := StreamConverter.map_tagged passes
    obtain ⟨client', taken, after⟩ := CcToAm.push_settles settled raw pushed
    exact ⟨client', taken, rfl, after⟩
  | rsToAm held =>
    obtain ⟨rfl, settled⟩ := informs
    obtain ⟨reread, readsBack⟩ := lawful.readsBack
    obtain ⟨run, pushed, rfl, rfl⟩ := StreamConverter.map_tagged passes
    obtain ⟨client', taken, after⟩ :=
      RsToAm.push_settles lawful readsBack settled reading raw pushed
    exact ⟨client', taken, rfl, after⟩
  | _ => exact informs.elim

/-- The end of the stream is no upstream event. -/
theorem observe_nil (seen : Upstream) : seen.observe serde source [] = seen := by
  cases source <;> rfl

/-- A converter that finishes ends the client's stream. -/
theorem Informs.finish (informs : Informs source seen client converter)
    (passes : converter.finish serde = .ok (next, out)) :
    ∃ client', client.receiveAll serde seen out = some client' ∧ client'.ended = true := by
  cases converter with
  | ccToAm held =>
    obtain ⟨rfl, settled⟩ := informs
    obtain ⟨run, finished, rfl, rfl⟩ := StreamConverter.map_tagged passes
    obtain ⟨client', taken, -, ended⟩ :=
      CcToAm.finish_settles settled rfl (fun reported => reported) finished
    exact ⟨client', taken, ended⟩
  | rsToAm held =>
    obtain ⟨rfl, settled⟩ := informs
    obtain ⟨run, finished, rfl, rfl⟩ := StreamConverter.map_tagged passes
    exact RsToAm.finish_settles settled finished
  | _ => exact informs.elim

/-- A message delta is never the last event between two calls. -/
theorem Informs.stopped (informs : Informs source seen client converter)
    (stopping : client.stopping = true) : client.ended = true := by
  have settled : client.ended = true ∨ client.stopping = false := by
    cases converter with
    | ccToAm held => exact informs.2.imp And.right fun known => known.follows.waiting
    | rsToAm held => exact informs.2.imp And.right fun known => known.1.follows.waiting
    | _ => exact informs.elim
  rcases settled with ended | waiting
  · exact ended
  · rw [stopping] at waiting
    cases waiting

/-- The client follows a run from any state it knows. -/
theorem Informs.follows (lawful : serde.Lawful) (finishing : Bool)
    (events : List (Reading × List Char)) (informs : Informs source seen client converter) :
    ∃ client', client.follow serde
        (observed serde source seen (converter.calls serde finishing events)) = some client' ∧
      (client'.stopping = true ∨ converter.finishes serde finishing events = true →
        client'.ended = true) := by
  induction events generalizing seen client converter with
  | nil =>
    cases finishing with
    | false =>
      refine ⟨client, rfl, ?_⟩
      rintro (stopping | closes)
      · exact informs.stopped stopping
      · cases closes
    | true =>
      cases finished : converter.finish serde with
      | error error =>
        refine ⟨client, by simp [StreamConverter.calls, finished, observed]; rfl, ?_⟩
        rintro (stopping | closes)
        · exact informs.stopped stopping
        · simp [StreamConverter.finishes, StreamConverter.after, finished, Except.isOk,
            Except.toBool] at closes
      | ok result =>
        obtain ⟨next, out⟩ := result
        obtain ⟨client', taken, ended⟩ := informs.finish finished
        refine ⟨client', ?_, fun _ => ended⟩
        simp [StreamConverter.calls, finished, observed, MessagesClient.follow, observe_nil, taken]
  | cons event rest ih =>
    obtain ⟨reading, raw⟩ := event
    cases passes : converter.pushEvent serde reading raw with
    | error error =>
      refine ⟨client, by simp [StreamConverter.calls, passes, observed]; rfl, ?_⟩
      rintro (stopping | closes)
      · exact informs.stopped stopping
      · simp [StreamConverter.finishes, StreamConverter.after, passes, Except.isOk,
          Except.toBool] at closes
    | ok result =>
      obtain ⟨next, out⟩ := result
      obtain ⟨middle, taken, after⟩ := informs.pushEvent lawful reading raw passes
      obtain ⟨client', followed, ends⟩ := ih after
      refine ⟨client', ?_, ?_⟩
      · simpa [StreamConverter.calls, passes, observed, MessagesClient.follow, taken] using followed
      · simpa [StreamConverter.finishes, StreamConverter.after, passes] using ends

/-- A new converter towards Anthropic, and a client and an observer that have seen nothing. -/
theorem informs_new (foreign : source ≠ AM)
    (created : StreamConverter.new source AM = .ok converter) : Informs source {} {} converter := by
  cases source with
  | anthropicMessages => exact absurd rfl foreign
  | openAiChatCompletions =>
    cases created
    exact ⟨rfl, CcToAm.settled_new⟩
  | openAiResponses =>
    cases created
    exact ⟨rfl, CcToAm.settled_new.imp_right fun known => ⟨known, ResponsesToChat.lists_new⟩⟩

/-- Every run towards an Anthropic client, up to its first error and finished or not, is well
formed, and a run that finishes without an error is closed. -/
theorem anthropicRun_wellFormed (lawful : serde.Lawful) (foreign : source ≠ AM)
    (created : StreamConverter.new source AM = .ok converter) (finishing : Bool)
    (events : List (Reading × List Char)) :
    WellFormedMessages serde (converter.finishes serde finishing events)
      (observed serde source {} (converter.calls serde finishing events)) :=
  (informs_new foreign created).follows lawful finishing events

namespace Sample

/-- A chunk that ends a message without content. -/
def stopChunk : Value :=
  .obj [("choices", .array [.obj [("delta", .obj []), ("finish_reason", "stop")]])]

/-- The text of that chunk. -/
def stopText : String := "\x7b\"choices\":[\x7b\"delta\":\x7b\x7d,\"finish_reason\":\"stop\"\x7d]\x7d"

/-- A parser that knows that text. -/
def stopSerde : SerdeJson := .ofTable [(stopText, stopChunk)]

set_option maxRecDepth 4000 in
/-- The parser of the sample is lawful. -/
theorem stopSerde_lawful : stopSerde.Lawful := SerdeJson.ofTable_lawful (by decide) (by simp)

/-- A stream of that chunk. -/
def stopEvents : List (Reading × List Char) :=
  [(reading, "data: ".toList ++ stopText.toList ++ "\n\n".toList)]

/-- A fragment of a call that is not announced yet. -/
def earlyDelta : Value :=
  .obj [("type", "response.function_call_arguments.delta"), ("delta", "[1]")]

end Sample

/-- The finished stream of a message without content is well formed and closed. -/
theorem anthropicRun_wellFormed_sample :
    WellFormedMessages Sample.stopSerde
      ((StreamConverter.ccToAm {}).finishes Sample.stopSerde true Sample.stopEvents)
      (observed Sample.stopSerde CC {}
        ((StreamConverter.ccToAm {}).calls Sample.stopSerde true Sample.stopEvents)) :=
  anthropicRun_wellFormed Sample.stopSerde_lawful (by decide) rfl true Sample.stopEvents

set_option maxRecDepth 4000 in
/-- A stream that is not finished stays open, and a fragment that comes before its call is
announced leaves no trace. -/
theorem anthropicRun_open :
    (¬ ∀ (serde : SerdeJson), serde.Lawful → ∀ (source : ProxyProtocol)
        (converter : StreamConverter), source ≠ AM → StreamConverter.new source AM = .ok converter →
        ∀ (finishing : Bool) (events : List (Reading × List Char)),
          WellFormedMessages serde true
            (observed serde source {} (converter.calls serde finishing events))) ∧
      ∀ serde, ResponsesToChat.pushPayload serde {} Sample.reading Sample.earlyDelta =
        .ok { self := {} } := by
  refine ⟨fun every => ?_, fun serde => rfl⟩
  obtain ⟨client, followed, closes⟩ := every Sample.stopSerde Sample.stopSerde_lawful CC
    (.ccToAm {}) (by decide) rfl false Sample.stopEvents
  have opened : (MessagesClient.follow Sample.stopSerde {} (observed Sample.stopSerde CC {}
      ((StreamConverter.ccToAm {}).calls Sample.stopSerde false Sample.stopEvents))).map
        MessagesClient.ended = some false := by decide
  rw [followed, Option.map_some, closes (Or.inr rfl)] at opened
  cases opened

end Aipass.Conversion
