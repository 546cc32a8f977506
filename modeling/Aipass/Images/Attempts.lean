import Aipass.Images.Forward

/-!
# What an attempt comes to

An attempt has a result, has failed, or is interrupted; it gives evidence on the capability; and it
permits another attempt or not. This follows from its answer, for a body from the bytes that arrive,
however they are cut into chunks, for a stream of events from the first event that says something.
An attempt comes to just that, unless it is answered with a stream that is not tidy.
-/
namespace Aipass.Images

open Accounting (isSuccess)
open Proxy (splitEvents splitEvents_none boundary_nil maxBufferedResponseBytes)
open Server (ProxyRouteConfig ProxyTargetConfig)
open Websocket (StatusCode)

/-! ## What arrives -/

/-- The bytes that arrive, however they are cut. -/
def bytesOf : List Arrival → Bytes
  | .chunk bytes _ :: rest => bytes ++ bytesOf rest
  | _ => []

/-- What comes behind the bytes. -/
def endOf : List Arrival → Arrival
  | .chunk _ _ :: rest => endOf rest
  | arrival :: _ => arrival
  | [] => .interrupted

/-- The bytes of a refusal that are read. -/
theorem errorBody_eq {held : Bytes} (arrivals : List Arrival)
    (short : held.length ≤ errorBodyLimit) :
    errorBody held arrivals = (held ++ bytesOf arrivals).take errorBodyLimit := by
  induction arrivals generalizing held with
  | nil => simp [errorBody, bytesOf, short]
  | cons arrival rest ih =>
    cases arrival with
    | ended => simp [errorBody, bytesOf, short]
    | broken => simp [errorBody, bytesOf, short]
    | interrupted => simp [errorBody, bytesOf, short]
    | chunk bytes sent =>
      have taken : held ++ bytes.take (errorBodyLimit - held.length) =
          (held ++ bytes).take errorBodyLimit := by
        rw [List.take_append, List.take_of_length_le short]
      rw [errorBody, bytesOf, ← List.append_assoc, taken]
      by_cases full : errorBodyLimit ≤ (held ++ bytes).length
      · have exact_ : ((held ++ bytes).take errorBodyLimit).length = errorBodyLimit := by
          rw [List.length_take]
          omega
        simp only [exact_, le_refl, if_true]
        rw [List.take_append_of_le_length full]
      · have whole : (held ++ bytes).take errorBodyLimit = held ++ bytes :=
          List.take_of_length_le (by omega)
        simp only [whole, full, if_false]
        exact ih (by omega)

/-- The body of an answer that arrives whole: none if the client leaves before, no bytes if it
breaks off or is too long. -/
def wholeBody (bytes : Bytes) (stop : Arrival) : Option (Option Bytes) :=
  if maxBufferedResponseBytes < bytes.length then some none
  else
    match stop with
    | .ended => some (some bytes)
    | .broken => some none
    | _ => none

/-- A body is collected from its bytes. -/
theorem collectUpstreamBody_eq (held : Bytes) (arrivals : List Arrival) :
    collectUpstreamBody held arrivals = wholeBody (held ++ bytesOf arrivals) (endOf arrivals) := by
  induction arrivals generalizing held with
  | nil => simp [collectUpstreamBody, wholeBody, bytesOf, endOf]
  | cons arrival rest ih =>
    cases arrival with
    | ended => simp [collectUpstreamBody, wholeBody, bytesOf, endOf]
    | broken => simp [collectUpstreamBody, wholeBody, bytesOf, endOf]
    | interrupted => simp [collectUpstreamBody, wholeBody, bytesOf, endOf]
    | chunk bytes sent =>
      rw [collectUpstreamBody]
      by_cases long : maxBufferedResponseBytes < held.length
      · have longer : maxBufferedResponseBytes < (held ++ (bytes ++ bytesOf rest)).length := by
          rw [List.length_append]
          omega
        simp only [long, longer, wholeBody, bytesOf, if_true]
      · rw [if_neg long, ih, List.append_assoc]
        rfl

/-! ## What is expected -/

section Reading

-- `serde_json::from_slice`, if it succeeds, of a value and of an image response
variable (fromSlice : Bytes → Option Value) (readResponse : Bytes → Option ImageResponse)
variable (operation : Operation)

/-- A body is a result with an image. -/
def completes (body : Bytes) : Bool :=
  (readResponse body).any fun value => value.hasImage && !value.failed

/-- A body is an error that explicitly denies the capability. -/
def denies (body : Bytes) : Bool :=
  (readResponse body).any fun value => value.failed && isUnsupported fromSlice 400 body

/-- A refusal explicitly denies the capability. -/
def refusalDenies (status : StatusCode) (arrivals : List Arrival) : Bool :=
  isUnsupported fromSlice status ((bytesOf arrivals).take errorBodyLimit)

/-- Another attempt may follow one: it was not sent, not executed or explicitly refused. -/
def mayReplay : Answer → Bool
  | .unprepared | .unreachable => true
  | .lost | .left _ => false
  | .answered status eventStream arrivals =>
    if isSuccess status then
      !eventStream &&
        (wholeBody (bytesOf arrivals) (endOf arrivals)).join.any (denies fromSlice readResponse)
    else refusalDenies fromSlice status arrivals || rejectingStatuses.contains status

/-- The first event of a stream that says something. -/
def firstOf (arrivals : List Arrival) : Option (List Bytes × Word × List Bytes) :=
  firstWord fromSlice readResponse operation (splitEvents (received arrivals)).1

/-- What a stream comes to: a result or a failure, or nothing if it is interrupted before. -/
def streamVerdict (arrivals : List Arrival) : Option Bool :=
  match firstOf fromSlice readResponse operation arrivals with
  | some (_, word, _) => some (decide (word = .result))
  | none => if isInterrupted arrivals then none else some false

/-- What an attempt comes to: a result or a failure, or nothing if it is interrupted before. -/
def verdict : Answer → Option Bool
  | .unprepared | .unreachable | .lost => some false
  | .left _ => none
  | .answered status eventStream arrivals =>
    if !isSuccess status then some false
    else if eventStream then streamVerdict fromSlice readResponse operation arrivals
    else
      (wholeBody (bytesOf arrivals) (endOf arrivals)).map fun body =>
        body.any (completes readResponse)

/-- The evidence that an attempt gives. -/
def shown : Answer → Option Support
  | .answered status eventStream arrivals =>
    if !isSuccess status then
      if refusalDenies fromSlice status arrivals then some .unsupported else none
    else if eventStream then
      (firstOf fromSlice readResponse operation arrivals).bind fun found => evidenceOf found.2.1
    else
      (wholeBody (bytesOf arrivals) (endOf arrivals)).join.bind fun body =>
        if completes readResponse body then some .supported
        else if denies fromSlice readResponse body then some .unsupported
        else none
  | _ => none

/-- The status that an attempt has got. -/
def statusOf : Answer → Option StatusCode
  | .answered status _ _ | .left (.refused status) => some status
  | _ => none

/-- The bytes up to the first event that says something are handed on; without one all bytes are,
unless the stream is interrupted. -/
def Delivered (arrivals : List Arrival) (delivered : List Bytes) : Prop :=
  match firstOf fromSlice readResponse operation arrivals with
  | some (upTo, _, _) => upTo <+: (splitEvents delivered.flatten).1
  | none => isInterrupted arrivals = true ∨ delivered.flatten = received arrivals

/-- An answer is a successful stream of events. -/
def isStream : Answer → Bool
  | .answered status eventStream _ => isSuccess status && eventStream
  | _ => false

/-- An answer that is a successful stream of events is tidy. -/
def TidyAnswer : Answer → Prop
  | .answered status true arrivals =>
    isSuccess status = true → Tidy fromSlice readResponse operation [] arrivals
  | _ => True

/-- What becomes of a stream is what it comes to, the evidence it gives and the bytes up to the
event that decides. -/
theorem told_iff_verdict (arrivals : List Arrival) (relayed : Relayed) :
    Told fromSlice readResponse operation [] arrivals relayed ↔
      relayed.outcome = streamVerdict fromSlice readResponse operation arrivals ∧
        relayed.evidence = ((firstOf fromSlice readResponse operation arrivals).bind fun found =>
          evidenceOf found.2.1) ∧
        Delivered fromSlice readResponse operation arrivals relayed.delivered := by
  rw [Told, streamVerdict, Delivered, firstOf, List.nil_append]
  cases firstWord fromSlice readResponse operation (splitEvents (received arrivals)).1 with
  | some found => rfl
  | none =>
    cases isInterrupted arrivals with
    | true => simp
    | false => simp

/-! ## One attempt -/

variable {fromSlice readResponse operation}

/-- An answer that has arrived whole is read for an image, and else for a denial. -/
theorem conclude_eq (attempt : Attempt) (status : StatusCode) {buffered : Bytes}
    (fits : buffered.length ≤ maxBufferedResponseBytes) :
    attempt.conclude fromSlice readResponse operation status buffered =
      if completes readResponse buffered then
        { attempt := { attempt with outcome := some true, recordRequest := true }
          effects :=
            [.evidence attempt.target.id .supported, .completeTargetSuccess attempt.target.id]
          next := .done (.whole status buffered) }
      else
        { attempt := attempt.fail
          effects := if denies fromSlice readResponse buffered then
            [.evidence attempt.target.id .unsupported] else []
          next := if denies fromSlice readResponse buffered then .again else .stop } := by
  have pushed : ({ operation, streaming := false } : Observer).push fromSlice readResponse
      buffered = .ok { operation, streaming := false, buffer := buffered } := by
    have short : ¬ ([] : Bytes).length + buffered.length > maxBufferedResponseBytes := by
      simpa using fits
    rw [Observer.push, if_neg short]
    rfl
  rw [Attempt.conclude, pushed]
  cases read : readResponse buffered with
  | none => simp [Observer.finish, completes, denies, read, Except.toOption, Except.toBool]
  | some value =>
    cases failed : value.failed with
    | true =>
      simp [Observer.finish, completes, denies, read, failed, Except.toOption, Except.toBool]
    | false =>
      cases image : value.hasImage with
      | true =>
        simp [Observer.finish, completes, read, failed, image, Except.toOption, Except.toBool]
      | false =>
        simp [Observer.finish, completes, denies, read, failed, image, Except.toOption,
          Except.toBool]

/-! ## What is done -/

/-- What is recorded of an attempt. -/
def Effect.record : Effect → Option AttemptRecord
  | .attempt record => some record
  | _ => none

/-- What is counted of a request. -/
def Effect.count : Effect → Option Bool
  | .request success => some success
  | _ => none

/-- What evidence is given. -/
def Effect.shows : Effect → Option (Uuid × Support)
  | .evidence target support => some (target, support)
  | _ => none

/-- The evidence of a target. -/
def evidenceFor (target : ProxyTargetConfig) (support : Option Support) : List (Uuid × Support) :=
  (support.map fun support => (target.id, support)).toList

/-- What an attempt comes to is what its answer says. -/
structure Honest (fromSlice : Bytes → Option Value)
    (readResponse : Bytes → Option ImageResponse) (operation : Operation)
    (target : ProxyTargetConfig) (answer : Answer) (tried : Tried) : Prop where
  outcome : tried.attempt.outcome = verdict fromSlice readResponse operation answer
  evidence : tried.effects.filterMap Effect.shows =
    evidenceFor target (shown fromSlice readResponse operation answer)
  delivered : ∀ status arrivals, answer = .answered status true arrivals →
    isSuccess status = true → ∃ chunks closing, tried.next = .done (.stream status chunks closing) ∧
      Delivered fromSlice readResponse operation arrivals chunks

/-- What an attempt leaves for the loop. -/
structure Leaves (fromSlice : Bytes → Option Value)
    (readResponse : Bytes → Option ImageResponse) (fresh : Attempt) (answer : Answer)
    (tried : Tried) : Prop where
  target : tried.attempt.target = fresh.target
  status : tried.attempt.status = statusOf answer
  unrecorded : tried.effects.filterMap Effect.record = []
  uncounted : tried.effects.filterMap Effect.count = []
  again_iff : tried.next = .again ↔ mayReplay fromSlice readResponse answer = true
  failed : (∀ reply, tried.next ≠ .done reply) →
    tried.attempt.outcome = some false ∧ tried.attempt.recordRequest = false
  left : tried.attempt.recordRequest = false → ∀ reply, tried.next = .done reply →
    tried.attempt.outcome = none

section Branches

variable (fromSlice readResponse operation) (target : ProxyTargetConfig) (number : ℕ)
variable {status : StatusCode} {arrivals : List Arrival}

/-- An attempt whose answer is not a success. -/
theorem refuse_leaves (arrivals : List Arrival) (refused : isSuccess status = false)
    (eventStream : Bool) :
    let answer := Answer.answered status eventStream arrivals
    let attempt : Attempt := { target, number, status := some status }
    let tried := attempt.refuse fromSlice status arrivals
    Leaves fromSlice readResponse { target, number } answer tried ∧
      Honest fromSlice readResponse operation target answer tried := by
  have body : errorBody [] arrivals = (bytesOf arrivals).take errorBodyLimit :=
    errorBody_eq arrivals (Nat.zero_le _)
  simp only [Attempt.refuse, body]
  cases denied : refusalDenies fromSlice status arrivals with
  | true =>
    have unavailable : isUnsupported fromSlice status
        ((bytesOf arrivals).take errorBodyLimit) = true := denied
    simp only [unavailable]
    constructor
    · constructor <;> simp [Attempt.fail, statusOf, mayReplay, refused, denied, Effect.record,
        Effect.count]
    · constructor
      · simp [Attempt.fail, verdict, refused]
      · simp [shown, refused, denied, evidenceFor, Effect.shows]
      · rintro _ _ ⟨⟩ success
        rw [refused] at success
        cases success
  | false =>
    have available : isUnsupported fromSlice status
        ((bytesOf arrivals).take errorBodyLimit) = false := denied
    simp only [available]
    constructor
    · constructor
      · rfl
      · rfl
      · cases Accounting.statusAffectsCircuit status <;> rfl
      · cases Accounting.statusAffectsCircuit status <;> rfl
      · simp [mayReplay, refused, denied]
      · intro _
        exact ⟨rfl, rfl⟩
      · intro _ reply ended
        simp only [Bool.false_or] at ended
        split at ended <;> cases ended
    · constructor
      · simp [Attempt.fail, verdict, refused]
      · cases Accounting.statusAffectsCircuit status <;>
          simp [shown, refused, denied, evidenceFor, Effect.shows]
      · rintro _ _ ⟨⟩ success
        rw [refused] at success
        cases success

/-- A relay leaves no record and no count, and the evidence it has. -/
theorem relayEffects_eq (target : ProxyTargetConfig) (relayed : Relayed) :
    (Attempt.relayEffects target.id relayed).filterMap Effect.record = [] ∧
      (Attempt.relayEffects target.id relayed).filterMap Effect.count = [] ∧
      (Attempt.relayEffects target.id relayed).filterMap Effect.shows =
        evidenceFor target relayed.evidence := by
  rw [Attempt.relayEffects, evidenceFor]
  cases relayed.evidence <;> cases relayed.succeeded <;> cases relayed.markedFailure <;>
    exact ⟨rfl, rfl, rfl⟩

/-- The evidence of a target is told by what is shown. -/
theorem evidenceFor_inj {shown other : Option Support} :
    evidenceFor target shown = evidenceFor target other ↔ shown = other := by
  cases shown <;> cases other <;> simp [evidenceFor]

/-- An attempt whose answer is a stream of events. -/
theorem stream_leaves (arrivals : List Arrival) (success : isSuccess status = true) :
    let answer := Answer.answered status true arrivals
    let attempt : Attempt := { target, number, status := some status }
    let tried := attempt.stream fromSlice readResponse operation status arrivals
    Leaves fromSlice readResponse { target, number } answer tried ∧
      (Honest fromSlice readResponse operation target answer tried ↔
        Tidy fromSlice readResponse operation [] arrivals) := by
  have noEvent : (splitEvents []).1 = [] := congrArg Prod.fst (splitEvents_none boundary_nil)
  have told : Told fromSlice readResponse operation [] arrivals
        (relay fromSlice readResponse (waiting operation []) arrivals) ↔
      Tidy fromSlice readResponse operation [] arrivals :=
    told_iff arrivals noEvent (Nat.zero_le _)
  rw [told_iff_verdict] at told
  rw [← told]
  simp only [Attempt.stream, waiting]
  generalize relay fromSlice readResponse { operation, streaming := true } arrivals = relayed
  obtain ⟨records, counts, shows⟩ := relayEffects_eq target relayed
  have judged : verdict fromSlice readResponse operation (.answered status true arrivals) =
      streamVerdict fromSlice readResponse operation arrivals := by
    simp [verdict, success]
  have given : shown fromSlice readResponse operation (.answered status true arrivals) =
      ((firstOf fromSlice readResponse operation arrivals).bind fun found =>
        evidenceOf found.2.1) := by
    simp [shown, success]
  refine ⟨⟨rfl, rfl, records, counts, by simp [mayReplay, success], ?_, ?_⟩, ?_⟩
  · intro other
    exact absurd rfl (other _)
  · intro noRequest
    cases noRequest
  · constructor
    · rintro ⟨outcome, evidence, delivered⟩
      rw [judged] at outcome
      rw [given] at evidence
      obtain ⟨chunks, closing, same, isDelivered⟩ := delivered _ _ rfl success
      cases same
      exact ⟨outcome, (evidenceFor_inj target).mp (shows.symm.trans evidence), isDelivered⟩
    · rintro ⟨outcome, evidence, delivered⟩
      constructor
      · rw [judged]
        exact outcome
      · rw [given, ← evidence]
        exact shows
      · rintro _ _ ⟨⟩ _
        exact ⟨_, _, rfl, delivered⟩

/-- An attempt whose answer arrives whole. -/
theorem conclude_leaves (success : isSuccess status = true) {buffered : Bytes}
    (arrived : wholeBody (bytesOf arrivals) (endOf arrivals) = some (some buffered)) :
    let answer := Answer.answered status false arrivals
    let attempt : Attempt := { target, number, status := some status }
    let tried := attempt.conclude fromSlice readResponse operation status buffered
    Leaves fromSlice readResponse { target, number } answer tried ∧
      Honest fromSlice readResponse operation target answer tried := by
  have fits : buffered.length ≤ maxBufferedResponseBytes := by
    unfold wholeBody at arrived
    split at arrived
    · cases arrived
    · split at arrived
      · cases arrived
        omega
      · cases arrived
      · cases arrived
  have judged : verdict fromSlice readResponse operation (.answered status false arrivals) =
      some (completes readResponse buffered) := by
    simp [verdict, success, arrived]
  have replays : mayReplay fromSlice readResponse (.answered status false arrivals) =
      denies fromSlice readResponse buffered := by
    simp [mayReplay, success, arrived]
  have given : shown fromSlice readResponse operation (.answered status false arrivals) =
      if completes readResponse buffered then some .supported
      else if denies fromSlice readResponse buffered then some .unsupported
      else none := by
    simp [shown, success, arrived]
  simp only [conclude_eq _ _ fits]
  cases complete : completes readResponse buffered with
  | true =>
    have sound : denies fromSlice readResponse buffered = false := by
      simp only [completes, denies] at complete ⊢
      cases read : readResponse buffered with
      | none => rfl
      | some value =>
        rw [read] at complete
        simp_all
    rw [complete] at judged given
    rw [sound] at replays
    refine ⟨⟨rfl, rfl, rfl, rfl, by simp [replays], ?_, ?_⟩, ?_⟩
    · intro other
      exact absurd rfl (other _)
    · intro noRequest
      cases noRequest
    · refine ⟨judged.symm, ?_, ?_⟩
      · rw [given]
        rfl
      · rintro _ _ ⟨⟩
  | false =>
    rw [complete] at judged given
    cases denied : denies fromSlice readResponse buffered
    all_goals
      rw [denied] at replays given
      refine ⟨⟨rfl, rfl, rfl, rfl, by simp [replays], fun _ => ⟨rfl, rfl⟩, ?_⟩,
        judged.symm, ?_, ?_⟩
      · rintro _ _ ⟨⟩
      · rw [given]
        rfl
      · rintro _ _ ⟨⟩

/-- What an attempt that is answered with a body leaves. -/
theorem collect_leaves (arrivals : List Arrival) (success : isSuccess status = true) :
    Leaves fromSlice readResponse { target, number } (.answered status false arrivals)
        (({ target, number } : Attempt).run fromSlice readResponse operation
          (.answered status false arrivals)) ∧
      Honest fromSlice readResponse operation target (.answered status false arrivals)
        (({ target, number } : Attempt).run fromSlice readResponse operation
          (.answered status false arrivals)) := by
  rw [Attempt.run, success, if_neg (by simp), if_neg (by simp), collectUpstreamBody_eq,
    List.nil_append]
  cases arrived : wholeBody (bytesOf arrivals) (endOf arrivals) with
  | none =>
    refine ⟨⟨rfl, rfl, rfl, rfl, ?_, ?_, fun _ _ _ => rfl⟩, ?_, ?_, ?_⟩
    · simp [mayReplay, success, arrived]
    · intro other
      exact absurd rfl (other _)
    · simp [verdict, success, arrived]
    · simp [shown, success, arrived, evidenceFor]
    · rintro _ _ ⟨⟩
  | some body =>
    cases body with
    | none =>
      refine ⟨⟨rfl, rfl, rfl, rfl, ?_, fun _ => ⟨rfl, rfl⟩, ?_⟩, ?_, ?_, ?_⟩
      · simp [mayReplay, success, arrived]
      · rintro _ _ ⟨⟩
      · simp [verdict, success, arrived, Attempt.fail]
      · simp [shown, success, arrived, evidenceFor]
      · rintro _ _ ⟨⟩
    | some buffered =>
      exact conclude_leaves fromSlice readResponse operation target number success arrived

/-- An attempt leaves for the loop what its answer says, and comes to just that exactly if an answer
that is a stream of events is tidy. -/
theorem run_leaves (answer : Answer) :
    let tried := ({ target, number } : Attempt).run fromSlice readResponse operation answer
    Leaves fromSlice readResponse { target, number } answer tried ∧
      (Honest fromSlice readResponse operation target answer tried ↔
        TidyAnswer fromSlice readResponse operation answer) := by
  cases answer with
  | unprepared =>
    refine ⟨⟨rfl, rfl, rfl, rfl, iff_of_true rfl rfl, fun _ => ⟨rfl, rfl⟩, ?_⟩,
      iff_of_true ⟨rfl, rfl, ?_⟩ trivial⟩
    · rintro _ _ ⟨⟩
    · rintro _ _ ⟨⟩
  | unreachable =>
    refine ⟨⟨rfl, rfl, rfl, rfl, iff_of_true rfl rfl, fun _ => ⟨rfl, rfl⟩, ?_⟩,
      iff_of_true ⟨rfl, rfl, ?_⟩ trivial⟩
    · rintro _ _ ⟨⟩
    · rintro _ _ ⟨⟩
  | lost =>
    refine ⟨⟨rfl, rfl, rfl, rfl, by simp [Attempt.run, mayReplay], fun _ => ⟨rfl, rfl⟩, ?_⟩,
      iff_of_true ⟨rfl, rfl, ?_⟩ trivial⟩
    · rintro _ _ ⟨⟩
    · rintro _ _ ⟨⟩
  | left stage =>
    cases stage
    all_goals
      refine ⟨⟨rfl, rfl, rfl, rfl, by simp [Attempt.run, mayReplay], ?_, fun _ _ _ => rfl⟩,
        iff_of_true ⟨rfl, rfl, ?_⟩ trivial⟩
      · intro other
        exact absurd rfl (other _)
      · rintro _ _ ⟨⟩
  | answered status eventStream arrivals =>
    cases success : isSuccess status with
    | false =>
      rw [Attempt.run, success]
      obtain ⟨leaves, honest⟩ := refuse_leaves fromSlice readResponse operation target number
        arrivals success eventStream
      refine ⟨leaves, iff_of_true honest ?_⟩
      cases eventStream with
      | false => trivial
      | true =>
        intro isSuccess_
        rw [success] at isSuccess_
        cases isSuccess_
    | true =>
      cases eventStream with
      | true =>
        rw [Attempt.run, success]
        obtain ⟨leaves, honest⟩ := stream_leaves fromSlice readResponse operation target number
          arrivals success
        refine ⟨leaves, honest.trans ?_⟩
        simp [TidyAnswer, success]
      | false =>
        obtain ⟨leaves, honest⟩ := collect_leaves fromSlice readResponse operation target number
          arrivals success
        exact ⟨leaves, iff_of_true honest trivial⟩

/-- An attempt that does not end the loop is not answered with a successful stream of events. -/
theorem not_stream_of_not_done {answer : Answer} (goesOn : ∀ reply,
    (({ target, number } : Attempt).run fromSlice readResponse operation answer).next ≠
      .done reply) :
    isStream answer = false := by
  cases answer with
  | answered status eventStream arrivals =>
    cases eventStream with
    | false => exact Bool.and_false _
    | true =>
      rw [isStream, Bool.and_true, ← Bool.not_eq_true]
      intro success
      rw [Attempt.run, success] at goesOn
      exact goesOn _ rfl
  | _ => rfl

/-- Without a successful stream of events there is nothing to be tidy. -/
theorem tidy_of_not_stream {answer : Answer} (noStream : isStream answer = false) :
    TidyAnswer fromSlice readResponse operation answer := by
  cases answer with
  | answered status eventStream arrivals =>
    cases eventStream with
    | false => trivial
    | true =>
      intro success
      rw [isStream, success] at noStream
      cases noStream
  | _ => trivial

end Branches

end Reading

end Aipass.Images
