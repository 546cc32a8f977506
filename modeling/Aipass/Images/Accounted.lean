import Aipass.Images.Attempts

/-!
# What an image request leaves behind

No attempt follows one that may have been executed. Every attempt is recorded once, a request is
counted once, by what its last attempt comes to, and evidence and delivery are those of its
attempts. All of this holds exactly if the stream of events that the request is answered with, if it
is, is tidy.
-/
namespace Aipass.Images

open Accounting (isSuccess)
open Forwarding (attemptLimit)
open Proxy (ascii splitEvents splitEvents_append splitEvents_none boundary_nil)
open Server (ProxyRouteConfig ProxyTargetConfig)
open Websocket (StatusCode)

/-! ## The attempts that are made -/

section Through

variable {α : Type} {again : α → Bool}

/-- What comes through the first thing that does not let another one follow. -/
def takeThrough (again : α → Bool) : List α → List α
  | [] => []
  | first :: rest => first :: if again first then takeThrough again rest else []

/-- Nothing follows a thing that does not let another one follow. -/
theorem takeThrough_last {things before after : List α} {last : α}
    (same : takeThrough again things = before ++ last :: after) (stops : again last = false) :
    after = [] := by
  induction things generalizing before with
  | nil => simp [takeThrough] at same
  | cons first rest ih =>
    rw [takeThrough] at same
    cases before with
    | nil =>
      rw [List.nil_append, List.cons.injEq] at same
      obtain ⟨rfl, same⟩ := same
      rw [stops] at same
      exact same.symm
    | cons other before =>
      rw [List.cons_append, List.cons.injEq] at same
      split at same
      · exact ih same.2
      · simp at same

end Through

/-- The attempt that a candidate is, if it is tried. -/
def Candidate.attempt (candidate : Candidate) : Option (ProxyTargetConfig × Answer) :=
  match candidate.turn with
  | .tried answer => some (candidate.target, answer)
  | _ => none

/-- A candidate has no room. -/
def Candidate.isFull (candidate : Candidate) : Bool :=
  match candidate.turn with
  | .full => true
  | _ => false

section Reading

variable (fromSlice : Bytes → Option Value) (readResponse : Bytes → Option ImageResponse)
variable (operation : Operation) (request : ForwardRequest) (route : ProxyRouteConfig)
variable (model : Option String)

/-- The attempts that a round makes, up to a limit: each permits the one behind it. -/
def madeIn (limit : ℕ) (candidates : List Candidate) : List (ProxyTargetConfig × Answer) :=
  takeThrough (fun attempt => mayReplay fromSlice readResponse attempt.2)
    ((candidates.filterMap Candidate.attempt).take limit)

/-- The attempts that the rounds make. A round that makes none is held for the next one, if there
was no room. -/
def madeInRounds : List Round → List (ProxyTargetConfig × Answer)
  | [] => []
  | round :: later =>
    let made := madeIn fromSlice readResponse (attemptLimit route) round.candidates
    if made.isEmpty && round.candidates.any Candidate.isFull && route.retry.holdOnFailure &&
        round.hold = .woke then
      madeInRounds later
    else made

/-- The attempts that a request makes. -/
def attemptsMade (first : Round) (later : List Round) : List (ProxyTargetConfig × Answer) :=
  match request.metadata with
  | .error _ => []
  | .ok _ => madeInRounds fromSlice readResponse route (first :: later)

/-! ## What is expected -/

/-- The record of an attempt, as its answer says. -/
def recordOf (attempt : ProxyTargetConfig × Answer) : AttemptRecord where
  requestId := request.requestId
  routeId := route.id
  targetId := attempt.1.id
  providerEntryId := attempt.1.providerEntryId
  secretId := attempt.1.secretId
  model := model
  status := statusOf attempt.2
  success := verdict fromSlice readResponse operation attempt.2

/-- A request is interrupted while it holds, or still holds. -/
def heldUp (reply : Option Reply) : Bool :=
  reply = none || reply = some .nothing || reply = some .reconfigured

/-- How often a request is counted, and as what: once, by what its last attempt comes to. A request
that is interrupted before is not, nor one that does not reach the routing. -/
def countsOf (made : List (ProxyTargetConfig × Answer)) (reply : Option Reply) : List Bool :=
  match made.getLast? with
  | some attempt => (verdict fromSlice readResponse operation attempt.2).toList
  | none => if request.metadata.toOption = none || heldUp reply then [] else [false]

/-- The attempts of a request are recorded, it is counted, and evidence and bytes are handed on, as
the answers say. -/
structure Accounted (run : Forwarding × Option Reply) : Prop where
  records : run.1.effects.filterMap Effect.record =
    run.1.made.map (recordOf fromSlice readResponse operation request route model)
  counts : run.1.effects.filterMap Effect.count =
    countsOf fromSlice readResponse operation request run.1.made run.2
  evidence : run.1.effects.filterMap Effect.shows = run.1.made.flatMap fun attempt =>
    evidenceFor attempt.1 (shown fromSlice readResponse operation attempt.2)
  delivered : ∀ target status arrivals,
    run.1.made.getLast? = some (target, .answered status true arrivals) →
      isSuccess status = true → ∃ chunks closing, run.2 = some (.stream status chunks closing) ∧
        Delivered fromSlice readResponse operation arrivals chunks

/-- An attempt that does not permit another one is the last. -/
def NoReplay (made : List (ProxyTargetConfig × Answer)) : Prop :=
  ∀ before attempt after, made = before ++ attempt :: after →
    mayReplay fromSlice readResponse attempt.2 = false → after = []

/-! ## The loop -/

/-- Between two attempts of the loop the attempts so far have failed; the last one is not recorded
yet. -/
structure Going (loop : Forwarding) : Prop where
  attempts : loop.attempts = loop.made.length
  records : loop.effects.filterMap Effect.record ++
      loop.finalAttempt.toList.map (Attempt.record request route model) =
    loop.made.map (recordOf fromSlice readResponse operation request route model)
  counts : loop.effects.filterMap Effect.count = []
  evidence : loop.effects.filterMap Effect.shows = loop.made.flatMap fun attempt =>
    evidenceFor attempt.1 (shown fromSlice readResponse operation attempt.2)
  final : ∀ attempt ∈ loop.finalAttempt, attempt.outcome = some false ∧
    attempt.recordRequest = false
  made : loop.finalAttempt = none ↔ loop.made = []
  failed : ∀ attempt ∈ loop.made,
    verdict fromSlice readResponse operation attempt.2 = some false ∧ isStream attempt.2 = false

variable {fromSlice readResponse operation request route model} {loop : Forwarding}

section Drop

variable (attempt : Attempt)

/-- An attempt that is dropped is recorded once. -/
@[simp] theorem record_drop :
    (attempt.drop request route model).filterMap Effect.record =
      [attempt.record request route model] := by
  rw [Attempt.drop]
  cases attempt.recordRequest <;> cases attempt.outcome <;> rfl

/-- An attempt that is dropped counts the request if it records it. -/
@[simp] theorem count_drop :
    (attempt.drop request route model).filterMap Effect.count =
      if attempt.recordRequest then attempt.outcome.toList else [] := by
  rw [Attempt.drop]
  cases attempt.recordRequest <;> cases attempt.outcome <;> rfl

/-- An attempt that is dropped gives no evidence. -/
@[simp] theorem shows_drop : (attempt.drop request route model).filterMap Effect.shows = [] := by
  rw [Attempt.drop]
  cases attempt.recordRequest <;> cases attempt.outcome <;> rfl

end Drop

/-- The attempts of the loop are tidy. -/
theorem Going.tidy (going : Going fromSlice readResponse operation request route model loop) :
    ∀ attempt ∈ loop.made, TidyAnswer fromSlice readResponse operation attempt.2 :=
  fun attempt isMade => tidy_of_not_stream _ _ _ (going.failed attempt isMade).2

/-- The last failed attempt is recorded when it is dropped, and nothing else is done. -/
theorem Going.dropFinal
    (going : Going fromSlice readResponse operation request route model loop) :
    let dropped := loop.dropFinal request route model
    dropped.effects.filterMap Effect.record =
        loop.made.map (recordOf fromSlice readResponse operation request route model) ∧
      dropped.effects.filterMap Effect.count = [] ∧
      dropped.effects.filterMap Effect.shows = loop.made.flatMap fun attempt =>
        evidenceFor attempt.1 (shown fromSlice readResponse operation attempt.2) := by
  have records := going.records
  simp only [Forwarding.dropFinal, List.filterMap_append, going.counts, going.evidence]
  cases found : loop.finalAttempt with
  | none =>
    rw [found] at records
    simpa using records
  | some attempt =>
    have noRequest := (going.final attempt found).2
    rw [found] at records
    simpa [noRequest] using records

section Target

variable (fromSlice readResponse operation request route model loop)
variable (target : ProxyTargetConfig) (answer : Answer)

/-- A target is tried: the attempts so far and this one have been made. -/
theorem tryTarget_made :
    let tried := loop.tryTarget fromSlice readResponse operation request route model target answer
    tried.1.made = loop.made ++ [(target, answer)] ∧ tried.1.attempts = loop.attempts + 1 ∧
      (tried.2 = .again ↔ mayReplay fromSlice readResponse answer = true) := by
  have again := (run_leaves fromSlice readResponse operation target (loop.attempts + 1)
    answer).1.again_iff
  rw [← again, Forwarding.tryTarget]
  split
  · next reply ended => simp [ended]
  · next other => simp

variable {fromSlice readResponse operation request route model loop}

variable {target answer}

/-- The record of an attempt is as its answer says exactly if what it comes to is. -/
theorem record_eq_iff {attempt : Attempt} (isTarget : attempt.target = target)
    (status : attempt.status = statusOf answer) :
    attempt.record request route model =
        recordOf fromSlice readResponse operation request route model (target, answer) ↔
      attempt.outcome = verdict fromSlice readResponse operation answer := by
  simp [Attempt.record, recordOf, isTarget, status]

variable (target answer)

/-- A target is tried and fails, and the loop goes on or stops. -/
theorem Going.tryTarget (going : Going fromSlice readResponse operation request route model loop)
    (goesOn : ∀ reply, (loop.tryTarget fromSlice readResponse operation request route model target
      answer).2 ≠ .done reply) :
    Going fromSlice readResponse operation request route model
      (loop.tryTarget fromSlice readResponse operation request route model target answer).1 := by
  obtain ⟨records, counts, evidence⟩ := going.dropFinal
  obtain ⟨leaves, honest⟩ := run_leaves fromSlice readResponse operation target (loop.attempts + 1)
    answer
  have isNoStream := @not_stream_of_not_done fromSlice readResponse operation target
    (loop.attempts + 1) answer
  rw [Forwarding.tryTarget] at goesOn ⊢
  generalize ({ target, number := loop.attempts + 1 } : Attempt).run fromSlice readResponse
    operation answer = tried at *
  split at goesOn
  · next reply ended => exact absurd rfl (goesOn reply)
  · next other =>
    have noStream := isNoStream other
    obtain ⟨outcome, shows, _⟩ := honest.mpr
      (tidy_of_not_stream fromSlice readResponse operation noStream)
    obtain ⟨failed, noRequest⟩ := leaves.failed other
    have recorded : tried.attempt.record request route model =
        recordOf fromSlice readResponse operation request route model (target, answer) :=
      (record_eq_iff leaves.target leaves.status).mpr outcome
    constructor
    · simp [going.attempts]
    · simp [records, leaves.unrecorded, recorded]
    · simp only [List.filterMap_append, counts, leaves.uncounted, List.append_nil]
    · simp [evidence, shows]
    · rintro _ ⟨⟩
      exact ⟨failed, noRequest⟩
    · simp
    · intro attempt isMade
      obtain earlier | rfl : attempt ∈ loop.made ∨ attempt = (target, answer) := by
        simpa using isMade
      · exact going.failed attempt earlier
      · exact ⟨outcome.symm.trans failed, noStream⟩

/-- A target is tried and ends the loop: all is accounted for exactly if its answer is tidy. -/
theorem Going.tryTarget_done
    (going : Going fromSlice readResponse operation request route model loop) (reply : Reply)
    (ended : (loop.tryTarget fromSlice readResponse operation request route model target
      answer).2 = .done reply) :
    Accounted fromSlice readResponse operation request route model
        ((loop.tryTarget fromSlice readResponse operation request route model target answer).1,
          some reply) ↔
      ∀ attempt ∈ loop.made ++ [(target, answer)],
        TidyAnswer fromSlice readResponse operation attempt.2 := by
  obtain ⟨records, counts, evidence⟩ := going.dropFinal
  obtain ⟨leaves, honest⟩ := run_leaves fromSlice readResponse operation target (loop.attempts + 1)
    answer
  have earlier := going.tidy
  have tidy : (∀ attempt ∈ loop.made ++ [(target, answer)],
      TidyAnswer fromSlice readResponse operation attempt.2) ↔
        TidyAnswer fromSlice readResponse operation answer := by
    simpa [or_imp, forall_and] using fun _ => earlier
  rw [tidy, ← honest]
  rw [Forwarding.tryTarget] at ended ⊢
  generalize ({ target, number := loop.attempts + 1 } : Attempt).run fromSlice readResponse
    operation answer = tried at *
  split at ended
  · next other isDone =>
    cases ended
    constructor
    · intro accounted
      have recordsAll := accounted.records
      have evidenceAll := accounted.evidence
      simp [records, leaves.unrecorded, evidence] at recordsAll evidenceAll
      constructor
      · exact (record_eq_iff leaves.target leaves.status).mp recordsAll
      · exact evidenceAll
      · rintro status arrivals rfl success
        obtain ⟨chunks, closing, same, delivered⟩ := accounted.delivered target status arrivals
          (by simp) success
        cases same
        exact ⟨chunks, closing, isDone, delivered⟩
    · rintro ⟨outcome, shows, delivered⟩
      have recorded : tried.attempt.record request route model =
          recordOf fromSlice readResponse operation request route model (target, answer) :=
        (record_eq_iff leaves.target leaves.status).mpr outcome
      constructor
      · simp [records, leaves.unrecorded, recorded]
      · have left : tried.attempt.recordRequest = false →
            verdict fromSlice readResponse operation answer = none :=
          fun unrequested => outcome ▸ leaves.left unrequested _ isDone
        simpa [counts, leaves.uncounted, countsOf, outcome] using left
      · simp [evidence, shows]
      · intro other status arrivals isLast success
        obtain ⟨rfl, rfl⟩ : target = other ∧ answer = .answered status true arrivals := by
          simpa using isLast
        obtain ⟨chunks, closing, same, handed⟩ := delivered status arrivals rfl success
        rw [isDone] at same
        cases same
        exact ⟨chunks, closing, rfl, handed⟩
  · next goesOn => exact absurd ended (goesOn _)

end Target

section Round

variable {candidate : Candidate} {rest : List Candidate} {limit : ℕ}

/-- No attempt is made beyond the limit. -/
theorem madeIn_zero (candidates : List Candidate) :
    madeIn fromSlice readResponse 0 candidates = [] := by
  rw [madeIn, List.take_zero, takeThrough]

/-- A candidate that is not tried makes no attempt. -/
theorem madeIn_skip (skipped : candidate.attempt = none) :
    madeIn fromSlice readResponse limit (candidate :: rest) =
      madeIn fromSlice readResponse limit rest := by
  rw [madeIn, List.filterMap_cons_none skipped, madeIn]

/-- A candidate that is tried makes an attempt, which permits more or not. -/
theorem madeIn_tried {attempt : ProxyTargetConfig × Answer}
    (tried : candidate.attempt = some attempt) :
    madeIn fromSlice readResponse (limit + 1) (candidate :: rest) =
      attempt :: if mayReplay fromSlice readResponse attempt.2 then
        madeIn fromSlice readResponse limit rest else [] := by
  rw [madeIn, List.filterMap_cons_some tried, List.take_succ_cons, takeThrough, madeIn]

end Round

/-- What the loop over the targets of a round leaves: the attempts of the round are made, up to the
limit. Where it gives no reply all attempts have failed; where it does all is accounted for exactly
if all is tidy. -/
structure Tries (fromSlice : Bytes → Option Value) (readResponse : Bytes → Option ImageResponse)
    (operation : Operation) (request : ForwardRequest) (route : ProxyRouteConfig)
    (model : Option String) (loop : Forwarding) (candidates : List Candidate)
    (tried : Forwarding × Option Reply) : Prop where
  made : tried.1.made = loop.made ++
    madeIn fromSlice readResponse (attemptLimit route - loop.attempts) candidates
  goesOn : tried.2 = none → Going fromSlice readResponse operation request route model tried.1
  skipped : tried.2 = none → tried.1.made = [] →
    tried.1.capacitySkipped = (loop.capacitySkipped || candidates.any Candidate.isFull)
  replies : ∀ reply, tried.2 = some reply → tried.1.made ≠ [] ∧
    (Accounted fromSlice readResponse operation request route model (tried.1, some reply) ↔
      ∀ attempt ∈ tried.1.made, TidyAnswer fromSlice readResponse operation attempt.2)

/-- A candidate is passed over. -/
theorem Tries.skip {candidate : Candidate} {rest : List Candidate} {loop' : Forwarding}
    {tried : Forwarding × Option Reply}
    (tries : Tries fromSlice readResponse operation request route model loop' rest tried)
    (untried : candidate.attempt = none) (made : loop'.made = loop.made)
    (attempts : loop'.attempts = loop.attempts)
    (full : loop'.capacitySkipped = (loop.capacitySkipped || candidate.isFull)) :
    Tries fromSlice readResponse operation request route model loop (candidate :: rest) tried where
  made := by
    rw [tries.made, made, attempts, madeIn_skip untried]
  goesOn := tries.goesOn
  skipped := by
    intro noReply noneMade
    rw [tries.skipped noReply noneMade, full, List.any_cons, Bool.or_assoc]
  replies := tries.replies

/-- The loop over the targets of a round. -/
theorem Going.tryAll (going : Going fromSlice readResponse operation request route model loop)
    (candidates : List Candidate) :
    Tries fromSlice readResponse operation request route model loop candidates
      (loop.tryAll fromSlice readResponse operation request route model candidates) := by
  induction candidates generalizing loop with
  | nil =>
    constructor
    · simp [Forwarding.tryAll, madeIn, takeThrough]
    · intro _
      exact going
    · intro _ _
      simp [Forwarding.tryAll]
    · rintro reply ⟨⟩
  | cons candidate rest ih =>
    rw [Forwarding.tryAll]
    by_cases full : attemptLimit route ≤ loop.attempts
    · rw [if_pos full]
      constructor
      · rw [Nat.sub_eq_zero_of_le full, madeIn_zero, List.append_nil]
      · intro _
        exact going
      · intro _ (noneMade : loop.made = [])
        have positive : 1 ≤ attemptLimit route := le_max_right _ _
        rw [going.attempts, noneMade, List.length_nil] at full
        omega
      · rintro reply ⟨⟩
    · rw [if_neg full]
      have more : attemptLimit route - loop.attempts =
          attemptLimit route - (loop.attempts + 1) + 1 := by
        omega
      obtain ⟨target, turn⟩ := candidate
      cases turn with
      | unsupported => exact (ih going).skip rfl rfl rfl (Bool.or_false _).symm
      | recovering => exact (ih going).skip rfl rfl rfl (Bool.or_false _).symm
      | full =>
        have skips : Going fromSlice readResponse operation request route model
            { loop with capacitySkipped := true } := { going with }
        exact Tries.skip (ih skips) rfl rfl rfl (Bool.or_true _).symm
      | tried answer =>
        obtain ⟨made, attempts, again⟩ := tryTarget_made fromSlice readResponse operation
          request route model loop target answer
        have goes := going.tryTarget target answer
        have ends := going.tryTarget_done target answer
        simp only
        cases result : loop.tryTarget fromSlice readResponse operation request route model target
          answer with
        | mk next_ next =>
          rw [result] at made attempts again goes ends
          have some_ : next_.made ≠ [] := by
            rw [made]
            exact List.concat_ne_nil _ _
          cases next with
          | again =>
            have tries := ih (goes (by simp))
            constructor
            · rw [tries.made, made, attempts, more, madeIn_tried rfl, if_pos (again.mp rfl),
                List.append_assoc]
              rfl
            · exact tries.goesOn
            · intro _ noneMade
              rw [tries.made] at noneMade
              exact absurd (List.append_eq_nil_iff.mp noneMade).1 some_
            · exact tries.replies
          | stop =>
            have last : mayReplay fromSlice readResponse answer = false := by
              rw [← Bool.not_eq_true, ← again]
              simp
            constructor
            · rw [made, more, madeIn_tried rfl, last]
              rfl
            · intro _
              exact goes (by simp)
            · intro _ noneMade
              exact absurd noneMade some_
            · rintro reply ⟨⟩
          | done reply =>
            have last : mayReplay fromSlice readResponse answer = false := by
              rw [← Bool.not_eq_true, ← again]
              simp
            constructor
            · rw [made, more, madeIn_tried rfl, last]
              rfl
            · rintro ⟨⟩
            · rintro ⟨⟩
            · rintro _ ⟨⟩
              refine ⟨some_, ?_⟩
              rw [made]
              exact ends _ rfl

/-- A request that has been routed has metadata. -/
theorem metadata_of_routed (routed : request.metadata = .ok model) :
    ¬ request.metadata.toOption = none := by
  rw [routed]
  simp [Except.toOption]

/-- Without a stream of events nothing is delivered in parts. -/
theorem Going.undelivered (going : Going fromSlice readResponse operation request route model loop)
    {target : ProxyTargetConfig} {status : StatusCode} {arrivals : List Arrival}
    (last : loop.made.getLast? = some (target, .answered status true arrivals)) :
    isSuccess status = false := by
  have noStream := (going.failed _ (List.mem_of_getLast? last)).2
  simpa [isStream] using noStream

/-- What is done behind the loop accounts for all. -/
theorem Going.finish (going : Going fromSlice readResponse operation request route model loop)
    (routed : request.metadata = .ok model) :
    (loop.finish request route model).1.made = loop.made ∧
      Accounted fromSlice readResponse operation request route model
        (loop.finish request route model) := by
  have records := going.records
  rw [Forwarding.finish]
  cases found : loop.finalAttempt with
  | none =>
    have noneMade := going.made.mp found
    rw [found] at records
    refine ⟨rfl, ?_, ?_, ?_, ?_⟩
    · have silent : [Effect.request false].filterMap Effect.record = [] := rfl
      simpa [silent] using records
    · have ended : heldUp (some <| if loop.capacitySkipped && loop.attempts = 0 then
          .error 429 "all available providers are at their concurrency limit"
        else
          .error 502 ("image request failed; no usable upstream result " ++
            "(ambiguous submissions are not replayed)")) = false := by
        split <;> decide
      simp only [List.filterMap_append, going.counts, noneMade, countsOf, List.getLast?_nil,
        metadata_of_routed routed, ended]
      rfl
    · have silent : [Effect.request false].filterMap Effect.shows = [] := rfl
      simpa [silent] using going.evidence
    · intro target status arrivals last success
      rw [going.undelivered last] at success
      cases success
  | some attempt =>
    have some_ : loop.made ≠ [] := by
      rw [ne_eq, ← going.made, found]
      simp
    obtain ⟨failed, noRequest⟩ := going.final attempt found
    rw [found] at records
    refine ⟨rfl, ?_, ?_, ?_, ?_⟩
    · simpa [Forwarding.dropFinal, Attempt.record] using records
    · obtain ⟨last, isLast⟩ := Option.ne_none_iff_exists'.mp
        (mt List.getLast?_eq_none_iff.mp some_)
      have lastFailed := (going.failed last (List.mem_of_getLast? isLast)).1
      simp [Forwarding.dropFinal, going.counts, failed, countsOf, isLast, lastFailed]
    · simpa [Forwarding.dropFinal] using going.evidence
    · intro target status arrivals last success
      rw [going.undelivered last] at success
      cases success

/-- Where no attempt has failed there is none to drop. -/
theorem Going.dropFinal_eq
    (going : Going fromSlice readResponse operation request route model loop)
    (noneMade : loop.made = []) : loop.dropFinal request route model = loop := by
  have noFinal := going.made.mpr noneMade
  obtain ⟨attempts, skipped, final, effects, made⟩ := loop
  cases noFinal
  simp [Forwarding.dropFinal]

/-- A request that is interrupted while it holds is not counted. -/
theorem Going.interrupted
    (going : Going fromSlice readResponse operation request route model loop)
    (noneMade : loop.made = []) {reply : Option Reply} (held : heldUp reply = true) :
    Accounted fromSlice readResponse operation request route model (loop, reply) := by
  obtain ⟨records, counts, evidence⟩ := going.dropFinal
  rw [going.dropFinal_eq noneMade] at records counts evidence
  refine ⟨records, ?_, evidence, ?_⟩
  · simp [counts, noneMade, countsOf, held]
  · intro target status arrivals last
    simp [noneMade] at last

/-- The loop over the rounds makes the attempts of the rounds, and accounts for them exactly if all
is tidy. -/
theorem Going.rounds (going : Going fromSlice readResponse operation request route model loop)
    (routed : request.metadata = .ok model) (noneMade : loop.made = [])
    (unskipped : loop.capacitySkipped = false) (rounds : List Round) :
    let run := loop.rounds fromSlice readResponse operation request route model rounds
    run.1.made = madeInRounds fromSlice readResponse route rounds ∧
      (Accounted fromSlice readResponse operation request route model run ↔
        ∀ attempt ∈ run.1.made, TidyAnswer fromSlice readResponse operation attempt.2) := by
  induction rounds generalizing loop with
  | nil => exact ⟨noneMade, iff_of_true (going.interrupted noneMade rfl) going.tidy⟩
  | cons round later ih =>
    obtain ⟨made, goesOn, skipped, replies⟩ := going.tryAll round.candidates
    rw [going.attempts, noneMade, List.length_nil, Nat.sub_zero, List.nil_append] at made
    rw [Forwarding.rounds, madeInRounds, ← made]
    cases tried : loop.tryAll fromSlice readResponse operation request route model
      round.candidates with
    | mk tried_ reply =>
      rw [tried] at goesOn skipped replies
      cases reply with
      | some reply =>
        obtain ⟨some_, exact_⟩ := replies reply rfl
        have isSome : tried_.made.isEmpty = false := by
          simpa using some_
        simp only [isSome, Bool.false_and]
        exact ⟨rfl, exact_⟩
      | none =>
        have goes := goesOn rfl
        have skips : tried_.made = [] →
            tried_.capacitySkipped = round.candidates.any Candidate.isFull := by
          have fulls := skipped rfl
          rwa [unskipped, Bool.false_or] at fulls
        obtain ⟨kept, accounted⟩ := goes.finish routed
        have concluded : (tried_.finish request route model).1.made = tried_.made ∧
            (Accounted fromSlice readResponse operation request route model
                (tried_.finish request route model) ↔
              ∀ attempt ∈ (tried_.finish request route model).1.made,
                TidyAnswer fromSlice readResponse operation attempt.2) := by
          refine ⟨kept, iff_of_true accounted ?_⟩
          rw [kept]
          exact goes.tidy
        by_cases noneYet : tried_.made = []
        · have attempts : tried_.attempts = 0 := by
            rw [goes.attempts, noneYet, List.length_nil]
          simp only [attempts, skips noneYet, noneYet, List.isEmpty_nil]
          rw [noneYet] at concluded
          cases round.candidates.any Candidate.isFull with
          | false => simpa using concluded
          | true =>
            cases route.retry.holdOnFailure with
            | false => simpa using concluded
            | true =>
              cases round.hold with
              | expired => simpa using concluded
              | reconfigured =>
                have held : Accounted fromSlice readResponse operation request route model
                    (tried_, some .reconfigured) := goes.interrupted noneYet rfl
                simpa [goes.dropFinal_eq noneYet, noneYet] using held
              | left =>
                have held : Accounted fromSlice readResponse operation request route model
                    (tried_, some .nothing) := goes.interrupted noneYet rfl
                simpa [goes.dropFinal_eq noneYet, noneYet] using held
              | woke =>
                have woken : Going fromSlice readResponse operation request route model
                    { tried_ with capacitySkipped := false } := { goes with }
                simpa [attempts, noneYet] using ih woken noneYet rfl
        · have attempts : 0 < tried_.attempts := by
            rw [goes.attempts]
            exact List.length_pos_of_ne_nil noneYet
          simpa [attempts, noneYet] using concluded

/-- A loop that starts. -/
theorem going_start : Going fromSlice readResponse operation request route model {} where
  attempts := rfl
  records := rfl
  counts := rfl
  evidence := rfl
  final := by
    rintro attempt ⟨⟩
  made := iff_of_true rfl rfl
  failed := by
    intro attempt isMade
    cases isMade

/-- In the attempts of the rounds none follows one that does not permit it. -/
theorem noReplay_madeInRounds (rounds : List Round) :
    NoReplay fromSlice readResponse (madeInRounds fromSlice readResponse route rounds) := by
  induction rounds with
  | nil =>
    intro before attempt after same
    simp [madeInRounds] at same
  | cons round later ih =>
    rw [madeInRounds]
    split
    · exact ih
    · intro before attempt after same stops
      exact takeThrough_last same stops

/-- Nothing is replayed where no attempt is made. -/
theorem noReplay_nil : NoReplay fromSlice readResponse [] := by
  intro before attempt after same
  simp at same

variable (fromSlice readResponse operation request route)

/-- An image request makes the attempts that its rounds make, and accounts for them exactly if all
is tidy. -/
theorem forward_made (first : Round) (later : List Round) :
    let run := forward fromSlice readResponse operation request route first later
    run.1.made = attemptsMade fromSlice readResponse request route first later ∧
      (Accounted fromSlice readResponse operation request route request.metadata.toOption.join run ↔
        ∀ attempt ∈ run.1.made, TidyAnswer fromSlice readResponse operation attempt.2) := by
  rw [forward, attemptsMade]
  cases routed : request.metadata with
  | error message =>
    refine ⟨rfl, iff_of_true ⟨rfl, ?_, rfl, ?_⟩ ?_⟩
    · simp [countsOf, routed, Except.toOption]
    · intro target status arrivals last
      cases last
    · intro attempt isMade
      cases isMade
  | ok model =>
    have isModel : (Except.ok model : Except String (Option String)).toOption.join = model := rfl
    simp only [isModel]
    cases empty : first.candidates.isEmpty with
    | true =>
      have noCandidates : first.candidates = [] := List.isEmpty_iff.mp empty
      have noneMade : madeInRounds fromSlice readResponse route (first :: later) = [] := by
        simp [madeInRounds, noCandidates, madeIn, takeThrough]
      rw [noneMade, if_pos rfl]
      refine ⟨rfl, iff_of_true ⟨rfl, ?_, rfl, ?_⟩ ?_⟩
      · simp [countsOf, metadata_of_routed routed, heldUp, Reply.reconfigured, Effect.count]
      · intro target status arrivals last
        cases last
      · intro attempt isMade
        cases isMade
    | false =>
      have start : Going fromSlice readResponse operation request route model {} := going_start
      rw [if_neg (by simp)]
      exact start.rounds routed rfl rfl (first :: later)

/-- An image request is never tried again behind an attempt that does not permit it, and it leaves
the records, the count, the evidence and the delivery that its answers say, exactly if the stream of
events that it is answered with, if it is, is tidy. -/
theorem forward_accounted_iff (first : Round) (later : List Round) :
    let run := forward fromSlice readResponse operation request route first later
    (NoReplay fromSlice readResponse run.1.made ∧
        Accounted fromSlice readResponse operation request route request.metadata.toOption.join
          run) ↔
      ∀ attempt ∈ attemptsMade fromSlice readResponse request route first later,
        TidyAnswer fromSlice readResponse operation attempt.2 := by
  obtain ⟨made, accounted⟩ :=
    forward_made fromSlice readResponse operation request route first later
  have noReplay : NoReplay fromSlice readResponse
      (attemptsMade fromSlice readResponse request route first later) := by
    rw [attemptsMade]
    cases request.metadata with
    | error message => exact noReplay_nil
    | ok model => exact noReplay_madeInRounds (first :: later)
  intro run
  rw [show run.1.made = _ from made]
  rw [made] at accounted
  exact (and_iff_right noReplay).trans accounted

end Reading

/-! ## An error behind the result -/

/-- The data of an event with the result. -/
def resultData : Bytes :=
  ascii "\x7b\"type\":\"image_generation.completed\",\"b64_json\":\"a\"\x7d"

/-- The data of an event with an error. -/
def errorData : Bytes := ascii "\x7b\"error\":\x7b\x7d\x7d"

/-- An event. -/
def eventOf (data : Bytes) : Bytes := ascii "data: " ++ data ++ ascii "\n\n"

/-- The values of the two events. -/
def sampleValue (data : Bytes) : Option Value :=
  if data = errorData then some (.object [("error", .object [])])
  else if data = resultData then
    some (.object [("type", .string "image_generation.completed"), ("b64_json", .string "a")])
  else none

/-- What the two events say. -/
def sampleResponse (data : Bytes) : Option ImageResponse :=
  if data = errorData then some { kind := none, b64Json := false, data := none, error := true }
  else if data = resultData then
    some { kind := some "image_generation.completed", b64Json := true, data := none
           error := false }
  else none

/-- A target. -/
def sampleTarget : ProxyTargetConfig where
  id := 1
  providerEntryId := 2
  secretId := "key"
  label := "target"
  baseUrl := "https://example.com/v1"
  authScheme := "bearer"
  headers := []
  group := none
  priority := 0
  weight := 1
  enabled := true
  protocol := none
  preferWs := false
  model := none

/-- A route with that target. -/
def sampleRoute : ProxyRouteConfig where
  id := 3
  name := "route"
  token := "token"
  inboundProtocol := .openAiResponses
  upstreamProtocol := .openAiResponses
  conversionEnabled := false
  strategy := .fallback
  targets := [sampleTarget]
  retry := {
    maxAttempts := 3, failureThreshold := 3, circuitOpenSeconds := 60, connectTimeoutMs := 10000
    firstByteTimeoutMs := 60000, streamIdleTimeoutMs := 60000, silentRetry := false
    maxSilentRetries := 0, holdOnFailure := false, holdInitialDelayMs := 1000
    holdMaxDelayMs := 10000, holdMaxDurationMs := 0 }
  enabled := true

/-- A result and an error behind it in one chunk are counted as a failure, and not as the result
that has arrived. -/
theorem result_and_error_in_one_chunk :
    let request : ForwardRequest := { requestId := 4, metadata := .ok none }
    let arrivals := [.chunk (eventOf resultData ++ eventOf errorData) true, .ended]
    let first : Round := ⟨[⟨sampleTarget, .tried (.answered 200 true arrivals)⟩], .woke⟩
    let run := forward sampleValue sampleResponse .generate request sampleRoute first []
    ¬ (NoReplay sampleValue sampleResponse run.1.made ∧
      Accounted sampleValue sampleResponse .generate request sampleRoute none run) := by
  intro request arrivals first run accounted
  obtain ⟨made, tidy⟩ :=
    forward_made sampleValue sampleResponse .generate request sampleRoute first []
  have isMade : (sampleTarget, .answered 200 true arrivals) ∈ run.1.made := by
    rw [show run.1.made = _ from made]
    exact List.mem_cons_self
  have stream := tidy.mp accounted.2 _ isMade (by decide)
  have behind : splitEvents (eventOf errorData) = ([eventOf errorData], []) := by
    have alone : splitEvents (eventOf errorData ++ []) =
        (eventOf errorData :: (splitEvents []).1, (splitEvents []).2) :=
      splitEvents_append (by decide) []
    rwa [List.append_nil, splitEvents_none boundary_nil] at alone
  have events : splitEvents ([] ++ (eventOf resultData ++ eventOf errorData)) =
      ([eventOf resultData, eventOf errorData], []) := by
    rw [List.nil_append, splitEvents_append (by decide), behind]
  have result : wordOf sampleValue sampleResponse .generate (eventOf resultData) = .result := by
    decide
  have refusal : wordOf sampleValue sampleResponse .generate (eventOf errorData) =
      .refusal false := by
    decide
  have harmless := stream.2
  rw [events] at harmless
  simp [firstWord, result, Harmless, anyRefusal, refusal] at harmless

end Aipass.Images
