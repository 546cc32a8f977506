import Aipass.Accounting.Matching

/-!
# What an event of the upstream does

An event is about one request, or about none. If it is about one, that request observes it. If it
ends the response, the request is finished and leaves its record; otherwise the request is kept,
and everything else is as it was. If it is about none, nothing changes.
-/
namespace Aipass.Accounting

open Websocket (StatusCode)
open Proxy (Instant TokenUsage)

/-- An event that creates a response does not end one. -/
theorem finishes_of_begins {kind : String} (isBegin : begins kind = true) :
    finishes kind = false := by
  simp only [begins, decide_eq_true_eq] at isBegin
  obtain rfl | rfl := isBegin <;> decide

/-- What is said of a response does not end it. -/
theorem finishes_of_isDelta {kind : String} (delta : isDelta kind = true) :
    finishes kind = false := by
  simp only [isDelta, decide_eq_true_eq] at delta
  obtain rfl | rfl | rfl := delta <;> decide

/-- The model that the record of a request has, if an event finishes it. -/
def modelAt (value : Value) (model : Option String) : Option String :=
  if isTerminal (kindOf value) then (reportedModel value).or model else model

/-- The usage that the record of a request has, if an event finishes it. -/
def usageAt (value : Value) : TokenUsage :=
  if isTerminal (kindOf value) then usageFromWireValue value else noUsage

/-- The status that the record of a request has, if an event finishes it. -/
def statusAt (value : Value) : StatusCode :=
  if isTerminal (kindOf value) then terminalStatus (kindOf value) else errorStatus value

/-- The outcome that the record of a request has, if an event finishes it. -/
def outcomeAt (value : Value) : Bool :=
  isTerminal (kindOf value) && isSuccess (terminalStatus (kindOf value))

/-- A session finishes a request by an event. -/
def Account.finishBy (account : Account) (session : SessionUsage) (now : Instant) (value : Value)
    (request : ResponseUsage) : Account :=
  { account with session }.finish now { request with model := modelAt value request.model }
    (usageAt value) (statusAt value) (some (outcomeAt value)) false

/-- What an event that is about a request does. -/
inductive Served (value : Value) (now : Instant) : Option Uuid → Account → Account → Prop
  /-- It is about none. -/
  | ignored (account : Account) : Served value now none account account
  /-- The request is kept. -/
  | kept {account : Account} {session : SessionUsage} {request follows : ResponseUsage}
      {rest : List ResponseUsage} (goesOn : finishes (kindOf value) = false)
      (before : account.session.live.Perm (request :: rest))
      (isFollowed : Follows value request follows) (after : session.live.Perm (follows :: rest)) :
      Served value now (some request.requestId) account { account with session }
  /-- The request is finished. -/
  | finished {account : Account} {session : SessionUsage} {request follows : ResponseUsage}
      {rest : List ResponseUsage} (ends : finishes (kindOf value) = true)
      (before : account.session.live.Perm (request :: rest))
      (isFollowed : Follows value request follows) (after : session.live.Perm rest) :
      Served value now (some request.requestId) account
        (account.finishBy session now value follows)

namespace SessionUsage

variable {account : Account} {session : SessionUsage} {value : Value} {now : Instant} {id : String}
  {request : ResponseUsage}

/-- An event that names no other response than one at work. -/
def Names (value : Value) (id : String) : Prop :=
  ∀ other, responseIdOf value = some other → other = id

namespace Works

variable {before after : List (String × ResponseUsage)}

/-- A response that has been created is not created again. -/
theorem created (works : account.session.Works id request before after) (named : Names value id) :
    account.created value = account := by
  unfold Account.created
  cases hasId : responseIdOf value with
  | none => rfl
  | some other =>
    obtain rfl := named other hasId
    simp only [works.under, Option.isSome_some, if_true]

/-- What is said of a response is of its request. -/
theorem delta (works : account.session.Works id request before after) (named : Names value id)
    (isLane : laneOf value = request.streamId) :
    account.delta now value = { account with
      session := { account.session with
        active := before ++ (id, Account.speaks now request) :: after } } := by
  have place : Account.spoken account.session value = some (.active id) := by
    unfold Account.spoken
    cases hasId : responseIdOf value with
    | some other => simp only [named other hasId]
    | none =>
      simp only [isLane, works.onLane]
      rfl
  rw [Account.delta, place]
  simp only [works.change]

/-- A terminal event finishes the request of the response it names. -/
theorem terminal (works : account.session.Works id request before after)
    (named : responseIdOf value = some id) (isEnd : isTerminal (kindOf value) = true) :
    account.terminal now value =
      account.finishBy { account.session with active := before ++ after } now value request := by
  have taken : Account.terminated account.session value =
      some (request, { account.session with active := before ++ after }) := by
    rw [Account.terminated, named, Option.bind_some, works.takeActive, Option.some_or]
  rw [Account.terminal, taken, Account.finishBy, modelAt, usageAt, statusAt, outcomeAt,
    if_pos isEnd, if_pos isEnd, if_pos isEnd, isEnd, Bool.true_and]

/-- An error finishes the request of the response it names. If it names none, it finishes the one at
work on its lane, where no other request waits. -/
theorem error (works : account.session.Works id request before after) (named : Names value id)
    (isLane : laneOf value = request.streamId)
    (clear : responseIdOf value = none → account.session.front (laneOf value) = none)
    (isError : isTerminal (kindOf value) = false) :
    account.error now value =
      account.finishBy { account.session with active := before ++ after } now value request := by
  have taken : Account.failed account.session value =
      some (request, { account.session with active := before ++ after }) := by
    rw [Account.failed]
    cases hasId : responseIdOf value with
    | some other =>
      obtain rfl := named other hasId
      rw [Option.bind_some, works.takeActive, Option.some_or]
    | none =>
      rw [Option.bind_none, Option.none_or, clear hasId, Option.isSome_none,
        if_neg Bool.false_ne_true, isLane, works.onLane, Option.bind_some, works.takeActive]
  rw [Account.error, taken, Account.finishBy, modelAt, usageAt, statusAt, outcomeAt]
  simp only [isError, Bool.false_eq_true, if_false, Bool.false_and]

/-- What is left of the requests when one at work is taken out. -/
theorem live (works : session.Works id request before after) :
    session.live.Perm (request :: ((before ++ after).map Prod.snd ++ session.pending)) := by
  rw [SessionUsage.live, works.active, List.map_append, List.map_cons, List.map_append,
    List.append_assoc, List.append_assoc, List.cons_append]
  exact List.perm_middle

/-- What an event does that is about a request at work. -/
theorem serverEvent (works : account.session.Works id request before after) (now : Instant)
    (named : Names value id) (isLane : laneOf value = request.streamId)
    (ending : isTerminal (kindOf value) = true → responseIdOf value = some id)
    (clear : kindOf value = "error" → responseIdOf value = none →
      account.session.front (laneOf value) = none) :
    ∃ follows, Follows value request follows ∧
      (finishes (kindOf value) = false → account.serverEvent now value = { account with
        session := { account.session with active := before ++ (id, follows) :: after } }) ∧
      (finishes (kindOf value) = true → account.serverEvent now value =
        account.finishBy { account.session with active := before ++ after } now value follows) := by
  have observed : account.session.observe value =
      { account.session with active := before ++ (id, SessionUsage.observed value request) :: after } := by
    rw [observe, works.traced named isLane]
    exact works.change _
  have works := works.changed (SessionUsage.observed value request) rfl
  have worked : ({ account with session := account.session.observe value } : Account).session.Works
      id (SessionUsage.observed value request) before after := by rw [observed]; exact works
  have follows := follows_observed value request
  unfold Account.serverEvent
  simp only
  by_cases isBegin : kindOf value = "response.created" ∨ kindOf value = "response.in_progress"
  · refine ⟨_, follows, fun _ => ?_, fun ends => ?_⟩
    · rw [if_pos isBegin, worked.created named, observed]
    · rw [finishes_of_begins (by simpa [begins] using isBegin)] at ends
      cases ends
  rw [if_neg isBegin]
  by_cases isSaid : isDelta (kindOf value) = true
  · refine ⟨Account.speaks now (SessionUsage.observed value request),
      ⟨rfl, rfl, rfl, rfl, rfl⟩, fun _ => ?_, fun ends => ?_⟩
    · rw [if_pos isSaid, worked.delta named isLane, observed]
    · rw [finishes_of_isDelta isSaid] at ends
      cases ends
  rw [if_neg isSaid]
  by_cases isEnd : isTerminal (kindOf value) = true
  · refine ⟨_, follows, fun goesOn => ?_, fun _ => ?_⟩
    · simp [finishes, isEnd] at goesOn
    · rw [if_pos isEnd, worked.terminal (ending isEnd) isEnd, observed]
      rfl
  rw [if_neg isEnd]
  by_cases isError : kindOf value = "error"
  · refine ⟨_, follows, fun goesOn => ?_, fun _ => ?_⟩
    · simp [finishes, isError] at goesOn
    · have front : ({ account with session := account.session.observe value } :
          Account).session.front (laneOf value) = account.session.front (laneOf value) := by
        rw [observed]
        rfl
      rw [if_pos isError, worked.error named isLane
        (fun hasNone => front.trans (clear isError hasNone)) (Bool.not_eq_true _ ▸ isEnd), observed]
      rfl
  · refine ⟨_, follows, fun _ => ?_, fun ends => ?_⟩
    · rw [if_neg isError, observed]
    · simp [finishes, isEnd, isError] at ends

end Works

namespace Waits

variable {before after : List ResponseUsage}

/-- The request is given a response. -/
theorem created (waits : account.session.Waits request before after)
    (unnamed : account.session.Unnamed value) (isLane : laneOf value = request.streamId)
    (room : account.session.active.length < maxRequests) :
    account.created value = match responseIdOf value with
      | some id => { account with
        session := { account.session with
          pending := before ++ after, active := account.session.active ++ [(id, request)] } }
      | none => account := by
  unfold Account.created
  cases hasId : responseIdOf value with
  | none => rfl
  | some id =>
    simp only [unnamed.under hasId, Option.isSome_none, if_neg Bool.false_ne_true, isLane,
      waits.takePending, if_pos room]

/-- Nothing is said of a response before it is created. -/
theorem delta (waits : account.session.Waits request before after)
    (unnamed : account.session.Unnamed value) (isLane : laneOf value = request.streamId) :
    account.delta now value = account := by
  unfold Account.delta Account.spoken
  cases hasId : responseIdOf value with
  | some id =>
    simp only [SessionUsage.change, changeUnder_of_forall_ne (unnamed id hasId)]
  | none =>
    simp only [isLane, find?_lane_eq_none waits.idle]
    rfl

/-- A terminal event finishes the request. -/
theorem terminal (waits : account.session.Waits request before after)
    (unnamed : account.session.Unnamed value) (isLane : laneOf value = request.streamId)
    (isEnd : isTerminal (kindOf value) = true) :
    account.terminal now value =
      account.finishBy { account.session with pending := before ++ after } now value request := by
  have taken : Account.terminated account.session value =
      some (request, { account.session with pending := before ++ after }) := by
    rw [Account.terminated, unnamed.takeActive, Option.none_or, isLane, waits.takePending]
  rw [Account.terminal, taken, Account.finishBy, modelAt, usageAt, statusAt, outcomeAt,
    if_pos isEnd, if_pos isEnd, if_pos isEnd, isEnd, Bool.true_and]

/-- An error finishes the request. -/
theorem error (waits : account.session.Waits request before after)
    (unnamed : account.session.Unnamed value) (isLane : laneOf value = request.streamId)
    (isError : isTerminal (kindOf value) = false) :
    account.error now value =
      account.finishBy { account.session with pending := before ++ after } now value request := by
  have taken : Account.failed account.session value =
      some (request, { account.session with pending := before ++ after }) := by
    rw [Account.failed, unnamed.takeActive, Option.none_or, isLane, waits.front, Option.isSome_some,
      if_pos rfl, waits.takePending]
  rw [Account.error, taken, Account.finishBy, modelAt, usageAt, statusAt, outcomeAt]
  simp only [isError, Bool.false_eq_true, if_false, Bool.false_and]

/-- What is left of the requests when one that waits is taken out. -/
theorem live (waits : session.Waits request before after) :
    session.live.Perm (request :: (session.active.map Prod.snd ++ (before ++ after))) := by
  rw [SessionUsage.live, waits.pending, ← List.append_assoc, ← List.append_assoc]
  exact List.perm_middle

/-- What an event does that is about a request that waits. -/
theorem serverEvent (waits : account.session.Waits request before after) (now : Instant)
    (unnamed : account.session.Unnamed value) (isLane : laneOf value = request.streamId)
    (room : account.session.active.length < maxRequests) :
    ∃ follows, Follows value request follows ∧
      (finishes (kindOf value) = false → account.serverEvent now value = { account with
        session := match begins (kindOf value), responseIdOf value with
          | true, some id => { account.session with
            pending := before ++ after, active := account.session.active ++ [(id, follows)] }
          | _, _ => { account.session with pending := before ++ follows :: after } }) ∧
      (finishes (kindOf value) = true → account.serverEvent now value =
        account.finishBy { account.session with pending := before ++ after } now value follows) := by
  have observed : account.session.observe value =
      { account.session with pending := before ++ SessionUsage.observed value request :: after } := by
    rw [observe, waits.traced unnamed isLane]
    exact waits.change _
  have waits := waits.changed (SessionUsage.observed value request) rfl
  have waited : ({ account with session := account.session.observe value } : Account).session.Waits
      (SessionUsage.observed value request) before after := by rw [observed]; exact waits
  have free : ({ account with session := account.session.observe value } :
      Account).session.Unnamed value := by rw [observed]; exact unnamed
  have small : ({ account with session := account.session.observe value } :
      Account).session.active.length < maxRequests := by rw [observed]; exact room
  refine ⟨SessionUsage.observed value request, follows_observed value request, ?_⟩
  unfold Account.serverEvent
  simp only
  by_cases isBegin : kindOf value = "response.created" ∨ kindOf value = "response.in_progress"
  · have isBegun : begins (kindOf value) = true := by simpa [begins] using isBegin
    refine ⟨fun _ => ?_, fun ends => ?_⟩
    · rw [if_pos isBegin, waited.created free isLane small, isBegun]
      cases responseIdOf value with
      | none => simp only [observed]
      | some id => simp only [observed]
    · rw [finishes_of_begins isBegun] at ends
      cases ends
  have notBegun : begins (kindOf value) = false := by simpa [begins] using isBegin
  rw [if_neg isBegin, notBegun]
  by_cases isSaid : isDelta (kindOf value) = true
  · refine ⟨fun _ => ?_, fun ends => ?_⟩
    · rw [if_pos isSaid, waited.delta free isLane, observed]
    · rw [finishes_of_isDelta isSaid] at ends
      cases ends
  rw [if_neg isSaid]
  by_cases isEnd : isTerminal (kindOf value) = true
  · refine ⟨fun goesOn => ?_, fun _ => ?_⟩
    · simp [finishes, isEnd] at goesOn
    · rw [if_pos isEnd, waited.terminal free isLane isEnd, observed]
      rfl
  rw [if_neg isEnd]
  by_cases isError : kindOf value = "error"
  · refine ⟨fun goesOn => ?_, fun _ => ?_⟩
    · simp [finishes, isError] at goesOn
    · rw [if_pos isError, waited.error free isLane (Bool.not_eq_true _ ▸ isEnd), observed]
      rfl
  · refine ⟨fun _ => ?_, fun ends => ?_⟩
    · rw [if_neg isError, observed]
    · simp [finishes, isEnd, isError] at ends

end Waits

/-- An event that is about no request changes nothing. -/
theorem Idle.serverEvent (idle : account.session.Idle (laneOf value))
    (unnamed : account.session.Unnamed value) : account.serverEvent now value = account := by
  have pending : account.session.takePending (laneOf value) = none := by
    rw [takePending, idle.front]
    rfl
  have observed : account.session.observe value = account.session := by
    rw [observe, idle.traced unnamed]
  have created : account.created value = account := by
    unfold Account.created
    cases hasId : responseIdOf value with
    | none => rfl
    | some id =>
      simp only [unnamed.under hasId, Option.isSome_none, if_neg Bool.false_ne_true, pending]
  have delta : account.delta now value = account := by
    unfold Account.delta Account.spoken
    cases hasId : responseIdOf value with
    | some id => simp only [SessionUsage.change, changeUnder_of_forall_ne (unnamed id hasId)]
    | none =>
      simp only [find?_lane_eq_none idle.active]
      rfl
  have terminal : account.terminal now value = account := by
    rw [Account.terminal, Account.terminated, unnamed.takeActive, Option.none_or, pending]
  have error : account.error now value = account := by
    rw [Account.error, Account.failed, unnamed.takeActive, Option.none_or, idle.front,
      Option.isSome_none, if_neg Bool.false_ne_true, find?_lane_eq_none idle.active]
    rfl
  unfold Account.serverEvent
  simp only [observed, created, delta, terminal, error, ite_self]

end SessionUsage
end Aipass.Accounting
