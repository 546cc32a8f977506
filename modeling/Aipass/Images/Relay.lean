import Aipass.Images.Observing

/-!
# Relaying an image stream

A stream of image events is handed on chunk by chunk and read on the way. After each chunk the relay
looks at what all events so far have said; an image ends it, and so does an error. The first event
that says anything should decide. It does where no chunk goes beyond the limit of the buffer, where
the chunk with that event is handed on, and where the events behind it in that chunk do not change
what it says.
-/
namespace Aipass.Images

open Proxy

/-- What happens next to a relay. -/
inductive Arrival
  /-- A chunk arrives, and it is handed on unless the configuration changes or the client leaves. -/
  | chunk (bytes : Bytes) (sent : Bool)
  /-- The stream ends. -/
  | ended
  /-- The stream breaks off with an error. -/
  | broken
  /-- The configuration changes or the client leaves. -/
  | interrupted

/-- What a relay does. -/
structure Relayed where
  outcome : Option Bool := none
  evidence : Option Support := none
  /-- `complete_target_success`. -/
  succeeded : Bool := false
  /-- `mark_failure`. -/
  markedFailure : Bool := false
  delivered : List Bytes := []
  /-- The error at the end of the body. -/
  closing : Option String := none

/-- What a relay does once an event has completed or failed the request, or the stream has ended. -/
def Observer.settle (observer : Observer) : Relayed :=
  if observer.completed && !observer.failed then
    { outcome := some true, evidence := some .supported, succeeded := true }
  else
    { outcome := some false
      evidence := if observer.unsupported && !observer.completed then some .unsupported else none
      closing := if observer.failed then none
        else some "upstream did not complete an image result" }

section Reading

-- `serde_json::from_slice`, if it succeeds, of a value and of an image response
variable (fromSlice : Bytes → Option Value) (readResponse : Bytes → Option ImageResponse)

/-- `relay`; a run that does not end is as if it were interrupted. -/
def relay (observer : Observer) : List Arrival → Relayed
  | [] | .interrupted :: _ => {}
  | .ended :: _ => (observer.finish fromSlice readResponse).settle
  | .broken :: _ =>
    { outcome := some false, markedFailure := true, closing := some "upstream image stream failed" }
  | .chunk bytes sent :: rest =>
    match observer.push fromSlice readResponse bytes with
    | .error message =>
      { outcome := some false, markedFailure := true, closing := some message }
    | .ok observer =>
      if !sent then {}
      else if observer.failed || observer.completed then { observer.settle with delivered := [bytes] }
      else
        let later := relay observer rest
        { later with delivered := bytes :: later.delivered }

/-- The bytes that a relay is given. -/
def received : List Arrival → Bytes
  | .chunk bytes true :: rest => bytes ++ received rest
  | .chunk bytes false :: _ => bytes
  | _ => []

/-- A relay is interrupted before the stream ends. -/
def isInterrupted : List Arrival → Bool
  | [] | .interrupted :: _ | .chunk _ false :: _ => true
  | .ended :: _ | .broken :: _ => false
  | .chunk _ true :: rest => isInterrupted rest

variable (operation : Operation)

/-- The events up to the first one that says something, what it says, and the events behind it. -/
def firstWord : List Bytes → Option (List Bytes × Word × List Bytes)
  | [] => none
  | event :: rest =>
    if wordOf fromSlice readResponse operation event = .silent then
      (firstWord rest).map fun found => (event :: found.1, found.2)
    else some ([event], wordOf fromSlice readResponse operation event, rest)

/-- The evidence that an event gives. -/
def evidenceOf : Word → Option Support
  | .result => some .supported
  | .refusal true => some .unsupported
  | _ => none

/-- Behind some bytes, what a relay does is what the first event says that says anything, and the
bytes up to that event are handed on. Without one a relay that is not interrupted fails and hands
all bytes on. -/
def Told (start : Bytes) (arrivals : List Arrival) (relayed : Relayed) : Prop :=
  match firstWord fromSlice readResponse operation
      (splitEvents (start ++ received arrivals)).1 with
  | some (upTo, word, _) => relayed.outcome = some (decide (word = .result)) ∧
      relayed.evidence = evidenceOf word ∧
      upTo <+: (splitEvents (start ++ relayed.delivered.flatten)).1
  | none =>
    if isInterrupted arrivals then relayed.outcome = none ∧ relayed.evidence = none
    else relayed.outcome = some false ∧ relayed.evidence = none ∧
      relayed.delivered.flatten = received arrivals

/-- Some of the events say that the result is there. -/
def anyResult (events : List Bytes) : Bool :=
  events.any fun event => wordOf fromSlice readResponse operation event = .result

/-- Some of the events say that the request has failed. -/
def anyRefusal (events : List Bytes) : Bool :=
  events.any fun event => (wordOf fromSlice readResponse operation event).isRefusal

/-- Some of the events deny the capability. -/
def anyDenial (events : List Bytes) : Bool :=
  events.any fun event => wordOf fromSlice readResponse operation event = .refusal true

/-- Events do not change what an event before them says. -/
def Harmless (word : Word) (later : List Bytes) : Prop :=
  match word with
  | .silent => True
  | .result => anyRefusal fromSlice readResponse operation later = false
  | .refusal true => anyResult fromSlice readResponse operation later = false
  | .refusal false => anyResult fromSlice readResponse operation later = true ∨
      anyDenial fromSlice readResponse operation later = false

/-- Up to the chunk with the first event that says something no chunk goes beyond the limit of the
buffer; that chunk is handed on, and the events behind that event in it do not change what it says. -/
def Tidy (start : Bytes) : List Arrival → Prop
  | .chunk bytes sent :: rest =>
    start.length + bytes.length ≤ maxBufferedResponseBytes ∧
      match firstWord fromSlice readResponse operation (splitEvents (start ++ bytes)).1 with
      | some (_, word, later) =>
        sent = true ∧ Harmless fromSlice readResponse operation word later
      | none => sent = true → Tidy (splitEvents (start ++ bytes)).2 rest
  | _ => True

variable {fromSlice readResponse operation}

section FirstWord

variable {events : List Bytes}

/-- Events of which none says anything. -/
theorem silent_of_firstWord (none_ : firstWord fromSlice readResponse operation events = none) :
    anyResult fromSlice readResponse operation events = false ∧
      anyRefusal fromSlice readResponse operation events = false ∧
      anyDenial fromSlice readResponse operation events = false := by
  induction events with
  | nil => exact ⟨rfl, rfl, rfl⟩
  | cons event events ih =>
    rw [firstWord] at none_
    split at none_
    · next silent =>
      have rest := ih (Option.map_eq_none_iff.mp none_)
      simp only [anyResult, anyRefusal, anyDenial, List.any_cons, silent] at rest ⊢
      simpa using rest
    · cases none_

/-- The first event that says something, what it says and the events behind it. -/
theorem of_firstWord {upTo later : List Bytes} {word : Word}
    (found : firstWord fromSlice readResponse operation events = some (upTo, word, later)) :
    events = upTo ++ later ∧ upTo ≠ [] ∧ word ≠ .silent ∧
      anyResult fromSlice readResponse operation events =
        (decide (word = .result) || anyResult fromSlice readResponse operation later) ∧
      anyRefusal fromSlice readResponse operation events =
        (word.isRefusal || anyRefusal fromSlice readResponse operation later) ∧
      anyDenial fromSlice readResponse operation events =
        (decide (word = .refusal true) || anyDenial fromSlice readResponse operation later) := by
  induction events generalizing upTo with
  | nil => cases found
  | cons event events ih =>
    rw [firstWord] at found
    split at found
    · next silent =>
      obtain ⟨⟨before, parts⟩, foundRest, same⟩ := Option.map_eq_some_iff.mp found
      obtain ⟨rfl, rfl⟩ := Prod.mk.inj same
      obtain ⟨split_, _, speaks, result, refusal, denial⟩ := ih foundRest
      refine ⟨by rw [split_]; rfl, List.cons_ne_nil _ _, speaks, ?_, ?_, ?_⟩
      · rw [← result]
        simp [anyResult, silent]
      · rw [← refusal]
        simp [anyRefusal, silent]
      · rw [← denial]
        simp [anyDenial, silent]
    · next speaks =>
      cases found
      exact ⟨rfl, List.cons_ne_nil _ _, speaks, rfl, rfl, rfl⟩

/-- Behind events of which none says anything the search goes on. -/
theorem firstWord_append_none (none_ : firstWord fromSlice readResponse operation events = none)
    (more : List Bytes) : firstWord fromSlice readResponse operation (events ++ more) =
      (firstWord fromSlice readResponse operation more).map fun found =>
        (events ++ found.1, found.2) := by
  induction events with
  | nil => simp
  | cons event events ih =>
    rw [firstWord] at none_
    split at none_
    · next silent =>
      rw [List.cons_append, firstWord, if_pos silent, ih (Option.map_eq_none_iff.mp none_),
        Option.map_map]
      rfl
    · cases none_

/-- What is found in events is found in more of them. -/
theorem firstWord_append_some {upTo later : List Bytes} {word : Word}
    (found : firstWord fromSlice readResponse operation events = some (upTo, word, later))
    (more : List Bytes) : firstWord fromSlice readResponse operation (events ++ more) =
      some (upTo, word, later ++ more) := by
  induction events generalizing upTo with
  | nil => cases found
  | cons event events ih =>
    rw [firstWord] at found
    rw [List.cons_append, firstWord]
    split at found
    · next silent =>
      obtain ⟨⟨before, parts⟩, foundRest, same⟩ := Option.map_eq_some_iff.mp found
      obtain ⟨rfl, rfl⟩ := Prod.mk.inj same
      rw [if_pos silent, ih foundRest]
      rfl
    · next speaks =>
      cases found
      rw [if_neg speaks]

end FirstWord

/-- What is left of a buffer holds no event. -/
theorem splitEvents_left (bytes : Bytes) : (splitEvents (splitEvents bytes).2).1 = [] := by
  have again := splitEvents_more bytes []
  rw [List.append_nil, List.append_nil] at again
  have same := congrArg Prod.fst again
  exact List.self_eq_append_right.mp same

/-- What is left of a buffer is no longer than the buffer. -/
theorem splitEvents_left_le (bytes : Bytes) : (splitEvents bytes).2.length ≤ bytes.length := by
  cases found : sseEventBoundaryEnd bytes with
  | none =>
    rw [splitEvents_none found]
  | some stop =>
    have rest := splitEvents_left_le (bytes.drop stop)
    rw [splitEvents_some found]
    rw [List.length_drop] at rest
    show (splitEvents (bytes.drop stop)).2.length ≤ bytes.length
    omega
termination_by bytes.length
decreasing_by
  have positive := boundary_pos found
  have inside := boundary_le found
  rw [List.length_drop]
  omega

/-- The observer of a stream that has said nothing so far. -/
def waiting (operation : Operation) (start : Bytes) : Observer :=
  { buffer := start, operation, streaming := true }

section Chunk

variable {start bytes : Bytes}

/-- A chunk beyond the limit of the buffer is refused. -/
theorem push_long (long : ¬ start.length + bytes.length ≤ maxBufferedResponseBytes) :
    (waiting operation start).push fromSlice readResponse bytes =
      .error "image response event exceeds proxy buffer limit" :=
  if_pos (Nat.lt_of_not_le long)

/-- A chunk is read for what its events say. -/
theorem push_fitting (fits : start.length + bytes.length ≤ maxBufferedResponseBytes) :
    (waiting operation start).push fromSlice readResponse bytes =
      .ok { waiting operation (splitEvents (start ++ bytes)).2 with
        failed := anyRefusal fromSlice readResponse operation (splitEvents (start ++ bytes)).1
        unsupported := anyDenial fromSlice readResponse operation (splitEvents (start ++ bytes)).1
        completed := anyResult fromSlice readResponse operation
          (splitEvents (start ++ bytes)).1 } := by
  have short : ¬ (waiting operation start).buffer.length + bytes.length >
      maxBufferedResponseBytes := Nat.not_lt.mpr fits
  rw [Observer.push, if_neg short]
  simp only [waiting, foldl_readEvent, Bool.false_or, if_true]
  rfl

/-- The bytes that arrive in a chunk and behind it. -/
theorem events_received (rest : List Arrival) :
    (splitEvents (start ++ received (.chunk bytes true :: rest))).1 =
      (splitEvents (start ++ bytes)).1 ++
        (splitEvents ((splitEvents (start ++ bytes)).2 ++ received rest)).1 := by
  show (splitEvents (start ++ (bytes ++ received rest))).1 = _
  rw [← List.append_assoc, splitEvents_more]

/-- A relay that gives up at once has not told what the events say. -/
theorem not_told_of_long (noEvent : (splitEvents start).1 = [])
    (room : start.length ≤ maxBufferedResponseBytes)
    (long : ¬ start.length + bytes.length ≤ maxBufferedResponseBytes) {sent : Bool}
    {rest : List Arrival} {closing : Option String} :
    ¬ Told fromSlice readResponse operation start (.chunk bytes sent :: rest)
      { outcome := some false, markedFailure := true, closing } := by
  intro told
  have some_ : bytes ≠ [] := by
    intro empty
    rw [empty, List.length_nil] at long
    omega
  rw [Told] at told
  split at told
  · next upTo word later found =>
    have nonempty := (of_firstWord found).2.1
    have delivered := told.2.2
    rw [List.flatten_nil, List.append_nil, noEvent] at delivered
    exact nonempty (List.prefix_nil.mp delivered)
  · split at told
    · cases told.1
    · have nothing : [] = received (.chunk bytes sent :: rest) := told.2.2
      cases sent with
      | true => exact some_ (List.append_eq_nil_iff.mp nothing.symm).1
      | false => exact some_ nothing.symm

/-- A relay goes on behind a chunk that says nothing. -/
theorem told_behind (silent : firstWord fromSlice readResponse operation
      (splitEvents (start ++ bytes)).1 = none) (rest : List Arrival) (later : Relayed) :
    Told fromSlice readResponse operation start (.chunk bytes true :: rest)
        { later with delivered := bytes :: later.delivered } ↔
      Told fromSlice readResponse operation (splitEvents (start ++ bytes)).2 rest later := by
  rw [Told, Told, events_received, firstWord_append_none silent]
  cases found : firstWord fromSlice readResponse operation
      (splitEvents ((splitEvents (start ++ bytes)).2 ++ received rest)).1 with
  | none =>
    have goesOn : isInterrupted (.chunk bytes true :: rest) = isInterrupted rest := rfl
    have arrives : received (.chunk bytes true :: rest) = bytes ++ received rest := rfl
    simp only [Option.map_none, goesOn, arrives, List.flatten_cons, List.append_cancel_left_eq]
  | some parts =>
    have handed : (splitEvents (start ++ (bytes :: later.delivered).flatten)).1 =
        (splitEvents (start ++ bytes)).1 ++
          (splitEvents ((splitEvents (start ++ bytes)).2 ++ later.delivered.flatten)).1 := by
      rw [List.flatten_cons, ← List.append_assoc, splitEvents_more]
    simp only [Option.map_some, handed, List.prefix_append_right_inj]

/-- What a relay settles on once something has been said is what the first event says that says
anything, unless the events behind it change that. -/
theorem settled_iff {events upTo later : List Bytes} {word : Word}
    (found : firstWord fromSlice readResponse operation events = some (upTo, word, later))
    (left : Bytes) :
    let observer : Observer := { waiting operation left with
      failed := anyRefusal fromSlice readResponse operation events
      unsupported := anyDenial fromSlice readResponse operation events
      completed := anyResult fromSlice readResponse operation events }
    (observer.failed || observer.completed) = true ∧
      ((observer.settle.outcome = some (decide (word = .result)) ∧
          observer.settle.evidence = evidenceOf word) ↔
        Harmless fromSlice readResponse operation word later) := by
  obtain ⟨_, _, speaks, result, refusal, denial⟩ := of_firstWord found
  simp only [Observer.settle, result, refusal, denial]
  cases word with
  | silent => exact absurd rfl speaks
  | result =>
    cases refused : anyRefusal fromSlice readResponse operation later with
    | true => simp [Harmless, refused]
    | false => simp [Harmless, refused, evidenceOf]
  | refusal denied =>
    cases denied with
    | true =>
      cases completes : anyResult fromSlice readResponse operation later with
      | true => simp [Harmless, completes, evidenceOf]
      | false => simp [Harmless, completes, evidenceOf]
    | false =>
      cases completes : anyResult fromSlice readResponse operation later with
      | true => simp [Harmless, completes, evidenceOf]
      | false =>
        cases denies : anyDenial fromSlice readResponse operation later with
        | true => simp [Harmless, completes, denies, evidenceOf]
        | false => simp [Harmless, completes, denies, evidenceOf]

end Chunk

/-- A relay does what the first event says that says anything exactly if the stream is tidy. -/
theorem told_iff {start : Bytes} (arrivals : List Arrival)
    (noEvent : (splitEvents start).1 = []) (room : start.length ≤ maxBufferedResponseBytes) :
    Told fromSlice readResponse operation start arrivals
        (relay fromSlice readResponse (waiting operation start) arrivals) ↔
      Tidy fromSlice readResponse operation start arrivals := by
  induction arrivals generalizing start with
  | nil => simp [Told, Tidy, relay, received, isInterrupted, noEvent, firstWord]
  | cons arrival rest ih =>
    cases arrival with
    | ended =>
      simp [Told, Tidy, relay, received, isInterrupted, noEvent, firstWord, Observer.finish,
        Observer.settle, waiting]
    | broken => simp [Told, Tidy, relay, received, isInterrupted, noEvent, firstWord]
    | interrupted => simp [Told, Tidy, relay, received, isInterrupted, noEvent, firstWord]
    | chunk bytes sent =>
      by_cases fits : start.length + bytes.length ≤ maxBufferedResponseBytes
      · rw [relay, push_fitting fits, Tidy]
        simp only [fits, true_and]
        cases found : firstWord fromSlice readResponse operation
            (splitEvents (start ++ bytes)).1 with
        | none =>
          have silent := silent_of_firstWord found
          cases sent with
          | false => simp [Told, received, isInterrupted, found]
          | true =>
            have shorter := splitEvents_left_le (start ++ bytes)
            rw [List.length_append] at shorter
            have next := ih (splitEvents_left (start ++ bytes)) (by omega)
            rw [← told_behind found] at next
            simpa [silent.1, silent.2.1, silent.2.2, waiting] using next
        | some parts =>
          obtain ⟨upTo, word, later⟩ := parts
          cases sent with
          | false => simp [Told, received, found]
          | true =>
            obtain ⟨speaks, settles⟩ := settled_iff found (splitEvents (start ++ bytes)).2
            have handed : upTo <+: (splitEvents (start ++ bytes)).1 :=
              ⟨later, (of_firstWord found).1.symm⟩
            simp only [Bool.not_true, Bool.false_eq_true, if_false, speaks, if_true, true_and]
            rw [← settles, Told, events_received, firstWord_append_some found]
            simp [handed]
      · rw [relay, push_long fits, Tidy]
        simp only [fits, false_and, iff_false]
        exact not_told_of_long noEvent room fits

end Reading

end Aipass.Images
