import Mathlib.Data.List.TakeWhile
import Aipass.Search.HiddenRounds
import Aipass.Search.Render
import Aipass.Search.Usage

/-!
# The rounds of a search

A request with a search goes through rounds until a reply calls for no search. The rounds are few,
they stay on one target, they keep the tools of the caller, and what the client gets shows no call of
the search tool and the usage of all rounds, as long as the calls in the replies can be told and no
usage replaces what was counted.
-/
namespace Aipass.Search

open Conversion (ProxyProtocol AM CC RS)

/-- A reply of the upstream: the target that gives it, its JSON as it is parsed, and what the searches
that it calls for come to. -/
structure Reply where
  target : Uuid
  value : Value
  distinct : value.Distinct
  searched : ℕ → Except String Value

/-- The usage of a reply. -/
def Reply.usage (reply : Reply) : Value := reply.value.field "usage"

/-- What the client gets. -/
inductive Delivered
  | json (body : Value)
  | events (shown : List Value)

namespace Delivered

/-- The calls that the client sees. -/
def calls (protocol : ProxyProtocol) : Delivered → List Value
  | json body => callItems protocol body
  | events shown => shownCalls protocol shown

/-- The usages that the client sees. -/
def usages : Delivered → List Value
  | json body => [body.field "usage"]
  | events shown => shownUsages shown

end Delivered

/-- The loop of `forward`: what it sends, each time to the targets of a route, the replies, the
searches that it executes, by the calls and their queries, and what the client gets. -/
structure Loop where
  request : Request
  pending : Pending
  sent : List (Route × Value)
  replies : List Reply := []
  executed : List (String × String) := []
  delivered : Option Delivered := none
  working : Bool := true

/-- The searches that a reply makes the loop execute: none over the limit, and none after a result
that is too large. -/
def Pending.executes (pending : Pending) (outside : Outside) (reply : Reply) :
    List (String × String) :=
  match calls pending.route.inboundProtocol outside reply.value pending.plan.name with
  | .error _ => []
  | .ok called =>
    if !pending.plan.enabled || pending.plan.maxUses < pending.uses + called.length then []
    else called.take (((pending.results outside called reply.searched).takeWhile fun result =>
      (outside.serde.print result.2).utf8ByteSize ≤ maxResult).length + 1)

/-- What is delivered of a reply with the usage of all rounds. There is nothing if the source panics. -/
def Pending.deliver (pending : Pending) (outside : Outside) (reply usage : Value) :
    Option Delivered :=
  (reply.write "usage" usage).bind fun body =>
    if pending.streaming then (sse outside pending.route.inboundProtocol body).map .events
    else some (.json body)

/-- A round of the loop is answered. -/
def Loop.step (loop : Loop) (outside : Outside) (reply : Reply) : Option Loop :=
  if !loop.working then none
  else
    let next := { loop with
      replies := loop.replies ++ [reply]
      executed := loop.executed ++ loop.pending.executes outside reply }
    some (match loop.pending.answer outside (some reply.target) reply.value reply.searched with
      | .reply body _ => { next with
          working := false
          delivered := loop.pending.deliver outside reply.value (body.field "usage") }
      | .again pending => { next with
          pending := pending
          sent := loop.sent ++ [(pending.route, pending.payload)] }
      | .refuse _ => { next with working := false })

/-- The runs of the loop; it starts with a request that has a plan. -/
def searchLoop (outside : Outside) : System Loop Reply where
  init loop := ∃ available now history request left pending,
    forward outside available now history request = (left, .search pending) ∧
      loop = { request, pending, sent := [(pending.route, pending.payload)] }
  step loop reply next := loop.step outside reply = some next

/-! ## What holds of the rounds -/

/-- The protocol of a loop. -/
def Loop.protocol (loop : Loop) : ProxyProtocol := loop.request.route.inboundProtocol

/-- The calls of a reply can be told, all of them in the first choice if the client asked for a
stream, and its usage replaces nothing that was counted. -/
structure Plain (loop : Loop) (reply : Reply) : Prop where
  told : Told loop.protocol loop.pending.plan.name reply.value
  first : loop.pending.streaming = true → ∀ item ∈ callItems loop.protocol reply.value,
    item ∈ itemsOf loop.protocol reply.value
  adds : Adds (countOf (loop.replies.map Reply.usage)) reply.usage

/-- The first name that is free is not that of a custom tool of a Chat request either. -/
def Apart (protocol : ProxyProtocol) (body : Value) : Prop :=
  protocol = CC → ∀ tries, (∀ earlier < tries, taken (toolsOf body) (candidate earlier) = true) →
    taken (toolsOf body) (candidate tries) = true ∨
      ∀ tool ∈ toolsOf body, customNamed tool (candidate tries) = false

/-- What holds of a loop between its rounds: its rounds are few, they stay on the target that answered
first, they keep the tools of the caller before the search tool, and only calls of the search tool are
executed and answered. -/
structure Loop.Bounded (loop : Loop) : Prop where
  executed : loop.executed.length ≤ loop.pending.plan.maxUses
  sent : loop.sent.length ≤ loop.pending.plan.maxUses + 1
  pinned : ∀ round ∈ loop.sent.tail, ∀ target ∈ round.1.targets,
    loop.replies.head?.map Reply.target = some target.id
  tools : ∀ body, loop.request.body = some body → ∀ round ∈ loop.sent,
    ∃ hidden, hidden ∈ [[], [searchTool loop.protocol loop.pending.plan.name]] ∧
      toolsOf round.2 = callerTools loop.protocol body ++ hidden
  name : ∀ body, loop.request.body = some body →
    taken (toolsOf body) loop.pending.plan.name = false ∧
      (Apart loop.protocol body → loop.protocol = CC →
        ∀ tool ∈ toolsOf body, customNamed tool loop.pending.plan.name = false)
  own : ∀ call ∈ loop.executed, ∃ reply ∈ loop.replies, ∃ item ∈ lookedAt loop.protocol reply.value,
    callsFor loop.protocol loop.pending.plan.name item = true ∧
      callId loop.protocol item = some call.1

/-- What holds of a loop whose replies are plain: those that another round follows have calls of the
search tool only, and what the client gets has the calls of the last reply, none of the search tool,
and the usage of all replies. -/
structure Loop.Exact (loop : Loop) : Prop where
  answered : ∀ reply ∈ loop.replies.take (loop.sent.length - 1),
    ∀ item ∈ callItems loop.protocol reply.value,
      callsFor loop.protocol loop.pending.plan.name item = true
  delivered : ∀ delivered, loop.delivered = some delivered →
    (∀ shown ∈ delivered.calls loop.protocol,
      callsFor loop.protocol loop.pending.plan.name shown = false) ∧
    (∀ last, loop.replies.getLast? = some last → ∀ item ∈ callItems loop.protocol last.value,
      ∃ shown ∈ delivered.calls loop.protocol, Alike shown item) ∧
    delivered.usages ≠ [] ∧
    ∀ usage ∈ delivered.usages, Totals (loop.replies.map Reply.usage) usage

/-- What holds of a loop that goes on. -/
structure Loop.Going (loop : Loop) : Prop where
  protocol : loop.pending.route.inboundProtocol = loop.protocol
  rounds : loop.sent.length = loop.replies.length + 1
  answered : loop.replies.length ≤ loop.pending.uses
  uses : loop.executed.length = loop.pending.uses
  limit : loop.pending.uses ≤ loop.pending.plan.maxUses
  isObject : loop.pending.payload.IsObject
  tools : ∀ body, loop.request.body = some body → ∃ hidden,
    hidden ∈ [[], [searchTool loop.protocol loop.pending.plan.name]] ∧
      toolsOf loop.pending.payload = callerTools loop.protocol body ++ hidden
  pinned : ∀ target ∈ loop.pending.route.targets, loop.replies ≠ [] →
    loop.replies.head?.map Reply.target = some target.id

/-! ## Rounds -/

variable {outside : Outside} {loop next : Loop} {reply : Reply}

/-- The searches that are executed are within the limit, and each is a call of the search tool. -/
theorem Pending.executes_spec {pending : Pending} (limit : pending.uses ≤ pending.plan.maxUses)
    (outside : Outside) (reply : Reply) :
    pending.uses + (pending.executes outside reply).length ≤ pending.plan.maxUses ∧
      ∀ call ∈ pending.executes outside reply, ∃ item ∈ lookedAt pending.route.inboundProtocol
        reply.value, callsFor pending.route.inboundProtocol pending.plan.name item = true ∧
          callId pending.route.inboundProtocol item = some call.1 := by
  unfold Pending.executes
  split
  · exact ⟨limit, fun _ none_ => absurd none_ List.not_mem_nil⟩
  · rename_i called collected
    split
    · exact ⟨limit, fun _ none_ => absurd none_ List.not_mem_nil⟩
    · rename_i within
      simp only [Bool.or_eq_true, Bool.not_eq_true', decide_eq_true_eq, not_or, not_lt] at within
      have few := List.length_take_le' ((((pending.results outside called reply.searched).takeWhile
        fun result => (outside.serde.print result.2).utf8ByteSize ≤ maxResult).length + 1)) called
      refine ⟨le_trans (Nat.add_le_add_left few _) within.2, fun call executed => ?_⟩
      obtain ⟨item, listed, isId⟩ :=
        exists_of_forall₂_right (calls_spec collected).1 (List.mem_of_mem_take executed)
      obtain ⟨looked, isOwn⟩ := List.mem_filter.mp listed
      exact ⟨item, looked, isOwn, isId⟩

/-- How a round is answered. -/
theorem Pending.answer_cases (pending : Pending) (outside : Outside) (reply : Reply) :
    (∃ error, pending.answer outside (some reply.target) reply.value reply.searched =
      .refuse error) ∨
    (∃ remembered, calls pending.route.inboundProtocol outside reply.value pending.plan.name =
        .ok [] ∧ pending.answer outside (some reply.target) reply.value reply.searched =
      .reply (reply.value.set "usage" (sumUsage pending.usage reply.usage)) remembered) ∨
    ∃ called payload,
      calls pending.route.inboundProtocol outside reply.value pending.plan.name = .ok called ∧
      called ≠ [] ∧ pending.uses + called.length ≤ pending.plan.maxUses ∧
      pending.executes outside reply = called ∧
      append pending.route.inboundProtocol outside pending.payload reply.value
        (pending.results outside called reply.searched) = .ok payload ∧
      pending.answer outside (some reply.target) reply.value reply.searched =
        .again { pending with
          route := pending.route.pin reply.target
          payload := if pending.plan.maxUses ≤ pending.uses + called.length then
            dropTool payload pending.plan.name else payload
          uses := pending.uses + called.length
          usage := sumUsage pending.usage reply.usage } := by
  cases collected : calls pending.route.inboundProtocol outside reply.value pending.plan.name with
  | error error => exact Or.inl ⟨error, by simp only [Pending.answer, collected]⟩
  | ok called =>
    cases called with
    | nil => exact Or.inr (Or.inl ⟨_, rfl, by simp only [Pending.answer, collected]; rfl⟩)
    | cons call called =>
      by_cases stopped : (!pending.plan.enabled ||
          pending.plan.maxUses < pending.uses + (call :: called).length) = true
      · exact Or.inl ⟨_, by simp only [Pending.answer, collected, if_pos stopped]; rfl⟩
      · by_cases large : ((pending.results outside (call :: called) reply.searched).any fun result =>
            maxResult < (outside.serde.print result.2).utf8ByteSize) = true
        · exact Or.inl ⟨_, by
            simp only [Pending.answer, collected, if_neg stopped, if_pos large]; rfl⟩
        · cases appended : append pending.route.inboundProtocol outside pending.payload reply.value
              (pending.results outside (call :: called) reply.searched) with
          | error error =>
            exact Or.inl ⟨error, by
              simp only [Pending.answer, collected, if_neg stopped, if_neg large, appended]⟩
          | ok payload =>
            refine Or.inr (Or.inr ⟨call :: called, payload, rfl, List.cons_ne_nil _ _, ?_, ?_,
              appended, ?_⟩)
            · simp only [Bool.or_eq_true, Bool.not_eq_true', decide_eq_true_eq, not_or, not_lt] at stopped
              exact stopped.2
            · -- No result is too large, so every search is executed.
              have small : (pending.results outside (call :: called) reply.searched).takeWhile
                  (fun result => (outside.serde.print result.2).utf8ByteSize ≤ maxResult) =
                    pending.results outside (call :: called) reply.searched := by
                refine List.takeWhile_eq_self_iff.mpr fun result listed => ?_
                have fits := List.any_eq_false.mp (Bool.eq_false_iff.mpr large) result listed
                simpa using fits
              have size : (pending.results outside (call :: called) reply.searched).length =
                  (call :: called).length := List.length_mapIdx
              rw [Pending.executes, collected]
              dsimp only
              rw [if_neg stopped, small, size]
              exact List.take_of_length_le (Nat.le_succ _)
            · simp only [Pending.answer, collected, if_neg stopped, if_neg large, appended]
              rfl

/-- A request that comes to have a plan. -/
theorem forward_search {available : Bool} {now : Proxy.Instant} {history left : History}
    {request : Request} {pending : Pending}
    (begun : forward outside available now history request = (left, .search pending)) :
    ∃ body payload prepared, request.body = some body ∧ toolsOf payload = toolsOf body ∧
      Plan.prepare request.route.inboundProtocol payload = .ok (pending.plan, prepared) ∧
      pending.payload = (prepared.set "stream" (.bool false)).remove "stream_options" ∧
      pending.uses = 0 ∧ pending.usage = .obj [] ∧
      pending.route.inboundProtocol = request.route.inboundProtocol := by
  have proceeds {original payload : Value} {route : Route} {restored : Bool}
      (same : route.inboundProtocol = request.route.inboundProtocol)
      (reached : proceed available request original payload route restored = .search pending) :
      ∃ prepared, Plan.prepare request.route.inboundProtocol payload = .ok (pending.plan, prepared) ∧
        pending.payload = (prepared.set "stream" (.bool false)).remove "stream_options" ∧
        pending.uses = 0 ∧ pending.usage = .obj [] ∧
        pending.route.inboundProtocol = request.route.inboundProtocol := by
    unfold proceed at reached
    split at reached
    · cases reached
    · split at reached
      · cases reached
      · rename_i plan prepared isPrepared
        split at reached
        · cases reached
        · split at reached
          · cases reached
          · cases reached
            exact ⟨prepared, same ▸ isPrepared, rfl, rfl, rfl, same⟩
  unfold forward at begun
  split at begun
  · cases begun
  · rename_i body isBody
    split at begun
    · cases begun
    · split at begun
      · obtain ⟨prepared, rest⟩ := proceeds rfl (Prod.mk.inj begun).2
        exact ⟨body, body, prepared, isBody, rfl, rest⟩
      · rename_i left target payload restored
        simp only at begun
        split at begun
        · cases begun
        · have pinned : (request.route.pin target).inboundProtocol =
              request.route.inboundProtocol := rfl
          obtain ⟨prepared, rest⟩ := proceeds pinned (Prod.mk.inj begun).2
          refine ⟨body, payload, prepared, isBody, ?_, rest⟩
          obtain ⟨found, -, same⟩ := Option.map_eq_some_iff.mp (Prod.mk.inj restored).2
          cases same
          exact toolsOf_set (Ne.symm (ne_field (by decide) (by decide))) _

/-- The loop starts within its bounds. -/
theorem sound_init (isInit : (searchLoop outside).init loop) : loop.Bounded ∧ loop.Going := by
  obtain ⟨available, now, history, request, left, pending, begun, rfl⟩ := isInit
  obtain ⟨body, payload, prepared, isBody, sameTools, isPrepared, isPayload, uses, -, protocol⟩ :=
    forward_search begun
  obtain ⟨tools, name, positive, -⟩ := prepare_tools isPrepared
  rw [sameTools] at name
  have isObject := (prepare_keeps isPrepared).1
  have sent : toolsOf pending.payload = toolsOf prepared := by
    rw [isPayload, toolsOf_congr (Value.get_remove _ (by decide)), toolsOf_set (by decide)]
  have started (other : Value) (same : request.body = some other) : ∃ hidden,
      hidden ∈ [[], [searchTool request.route.inboundProtocol pending.plan.name]] ∧
        toolsOf pending.payload = callerTools request.route.inboundProtocol other ++ hidden := by
    obtain rfl := Option.some.inj (isBody.symm.trans same)
    refine ⟨_, ?_, sent.trans (tools.trans (by rw [callerTools, sameTools, callerTools]))⟩
    split
    · exact List.mem_cons_of_mem _ (List.mem_singleton_self _)
    · exact List.mem_cons_self
  refine ⟨⟨Nat.zero_le _, ?_, ?_, ?_, ?_, ?_⟩, ⟨protocol, rfl, Nat.zero_le _, uses.symm,
    uses ▸ Nat.zero_le _, ?_, started, fun _ _ none_ => absurd rfl none_⟩⟩
  · exact Nat.le_add_left 1 _
  · exact fun _ none_ => absurd none_ List.not_mem_nil
  · intro other same round listed
    rw [List.mem_singleton.mp listed]
    exact started other same
  · intro other same
    obtain rfl := Option.some.inj (isBody.symm.trans same)
    obtain ⟨tries, isFree, before, free⟩ := freeName_spec (toolsOf body)
    refine ⟨?_, fun apart isChat => ?_⟩
    · dsimp only
      rw [name, isFree]
      exact free
    · dsimp only
      rw [name, isFree]
      exact (apart isChat tries before).resolve_left (Bool.eq_false_iff.mp free)
  · exact fun _ none_ => absurd none_ List.not_mem_nil
  · rw [isPayload]
    exact Value.isObject_remove (Value.isObject_set isObject _ _) _

/-- The usage that is delivered is the one that was written, where that is possible. -/
theorem Pending.deliver_set (pending : Pending) (outside : Outside) (reply usage : Value) :
    pending.deliver outside reply ((reply.set "usage" usage).field "usage") =
      pending.deliver outside reply usage := by
  cases reply with
  | object fields =>
    rw [Value.field, Value.get_set (by trivial), if_pos rfl]
    rfl
  | _ => rfl

/-- A round of a loop that goes on. -/
theorem Loop.step_cases (stepped : loop.step outside reply = some next) :
    loop.working = true ∧ next.request = loop.request ∧ next.replies = loop.replies ++ [reply] ∧
      next.executed = loop.executed ++ loop.pending.executes outside reply ∧
      ((next.working = false ∧ next.pending = loop.pending ∧ next.sent = loop.sent ∧
          (next.delivered = loop.delivered ∨
            calls loop.pending.route.inboundProtocol outside reply.value loop.pending.plan.name =
              .ok [] ∧
            next.delivered = loop.pending.deliver outside reply.value
              (sumUsage loop.pending.usage reply.usage))) ∨
        ∃ called payload,
          calls loop.pending.route.inboundProtocol outside reply.value loop.pending.plan.name =
            .ok called ∧ called ≠ [] ∧
          loop.pending.uses + called.length ≤ loop.pending.plan.maxUses ∧
          loop.pending.executes outside reply = called ∧
          append loop.pending.route.inboundProtocol outside loop.pending.payload reply.value
            (loop.pending.results outside called reply.searched) = .ok payload ∧
          next.working = true ∧ next.delivered = loop.delivered ∧
          next.sent = loop.sent ++ [(next.pending.route, next.pending.payload)] ∧
          next.pending = { loop.pending with
            route := loop.pending.route.pin reply.target
            payload := if loop.pending.plan.maxUses ≤ loop.pending.uses + called.length then
              dropTool payload loop.pending.plan.name else payload
            uses := loop.pending.uses + called.length
            usage := sumUsage loop.pending.usage reply.usage }) := by
  unfold Loop.step at stepped
  cases isWorking : loop.working with
  | false =>
    rw [isWorking] at stepped
    cases stepped
  | true =>
    simp only [isWorking, Bool.not_true, Bool.false_eq_true, if_false, Option.some.injEq] at stepped
    obtain ⟨error, answered⟩ | ⟨remembered, collected, answered⟩ |
        ⟨called, payload, collected, some_, within, executed, appended, answered⟩ :=
      loop.pending.answer_cases outside reply
    · rw [answered] at stepped
      cases stepped
      exact ⟨rfl, rfl, rfl, rfl, Or.inl ⟨rfl, rfl, rfl, Or.inl rfl⟩⟩
    · rw [answered] at stepped
      cases stepped
      refine ⟨rfl, rfl, rfl, rfl, Or.inl ⟨rfl, rfl, rfl, Or.inr ⟨collected, ?_⟩⟩⟩
      exact loop.pending.deliver_set outside reply.value _
    · rw [answered] at stepped
      cases stepped
      exact ⟨rfl, rfl, rfl, rfl, Or.inr ⟨called, payload, collected, some_, within, executed,
        appended, rfl, rfl, rfl, rfl⟩⟩

/-- The first reply stays the first. -/
theorem head_append {replies : List Reply} {id : Uuid}
    (isFirst : replies.head?.map Reply.target = some id) (reply : Reply) :
    (replies ++ [reply]).head?.map Reply.target = some id := by
  obtain ⟨head, isHead, same⟩ := Option.map_eq_some_iff.mp isFirst
  rw [List.head?_append, isHead]
  exact congrArg some same

/-- Another round sends the tools of the caller again. -/
theorem Loop.Going.tools_again (going : loop.Going) (bounded : loop.Bounded)
    {response payload body : Value} {results : List (String × Value)}
    (appended : append loop.protocol outside loop.pending.payload response results = .ok payload)
    (isBody : loop.request.body = some body) (last : Bool) :
    ∃ hidden, hidden ∈ [[], [searchTool loop.protocol loop.pending.plan.name]] ∧
      toolsOf (if last then dropTool payload loop.pending.plan.name else payload) =
        callerTools loop.protocol body ++ hidden := by
  obtain ⟨isObject, same⟩ := toolsOf_append appended
  obtain ⟨hidden, isHidden, tools⟩ := going.tools body isBody
  cases last with
  | false => exact ⟨hidden, isHidden, same.trans tools⟩
  | true =>
    refine ⟨[], List.mem_cons_self, ?_⟩
    have none_ : hidden.filter (fun tool => !named tool loop.pending.plan.name) = [] := by
      obtain rfl | isTool := List.mem_cons.mp isHidden
      · rfl
      · rw [List.mem_singleton.mp isTool]
        exact List.filter_eq_nil_iff.mpr fun tool listed => by
          rw [List.mem_singleton.mp listed, named_searchTool]
          exact Bool.false_ne_true
    rw [if_pos rfl, toolsOf_dropTool isObject, same, tools, List.filter_append, none_,
      filter_callerTools (bounded.name body isBody).1]

/-- A round keeps the loop within its bounds. -/
theorem sound_step (bounded : loop.Bounded) (going : loop.working = true → loop.Going)
    (stepped : loop.step outside reply = some next) :
    next.Bounded ∧ (next.working = true → next.Going) := by
  obtain ⟨isWorking, request, replies, executed, cases_⟩ := Loop.step_cases stepped
  have going := going isWorking
  have within := Pending.executes_spec going.limit outside reply
  have protocol : next.protocol = loop.protocol := congrArg (·.route.inboundProtocol) request
  have plan : next.pending.plan = loop.pending.plan := by
    obtain ⟨-, same, -⟩ | ⟨called, payload, -, -, -, -, -, -, -, -, same⟩ := cases_ <;> rw [same]
  rw [going.protocol] at within
  have few : next.executed.length ≤ next.pending.plan.maxUses := by
    rw [executed, List.length_append, going.uses, plan]
    exact within.1
  have own : ∀ call ∈ next.executed, ∃ reply ∈ next.replies, ∃ item ∈ lookedAt next.protocol
      reply.value, callsFor next.protocol next.pending.plan.name item = true ∧
        callId next.protocol item = some call.1 := by
    rw [executed, replies, protocol, plan]
    intro call listed
    obtain earlier | now_ := List.mem_append.mp listed
    · obtain ⟨other, isReply, rest⟩ := bounded.own call earlier
      exact ⟨other, List.mem_append_left _ isReply, rest⟩
    · exact ⟨reply, List.mem_append_right _ (List.mem_singleton_self _), within.2 call now_⟩
  have name : ∀ body, next.request.body = some body →
      taken (toolsOf body) next.pending.plan.name = false ∧
        (Apart next.protocol body → next.protocol = CC →
          ∀ tool ∈ toolsOf body, customNamed tool next.pending.plan.name = false) := by
    rw [request, protocol, plan]
    exact bounded.name
  obtain ⟨isOver, -, sent, -⟩ | ⟨called, payload, -, some_, limit, executes, appended, -, -, sent,
    pending⟩ := cases_
  · refine ⟨⟨few, ?_, ?_, ?_, name, own⟩, fun impossible => ?_⟩
    · rw [sent, plan]
      exact bounded.sent
    · rw [sent, replies]
      exact fun round listed target isTarget =>
        head_append (bounded.pinned round listed target isTarget) reply
    · rw [request, sent, protocol, plan]
      exact bounded.tools
    · rw [isOver] at impossible
      cases impossible
  · rw [going.protocol] at appended
    have isObject := (toolsOf_append appended).1
    have rounds : next.sent.length = next.replies.length + 1 := by
      rw [sent, replies, List.length_append, List.length_append, going.rounds]
      rfl
    have positive : 1 ≤ called.length := List.length_pos_iff.mpr some_
    have uses : next.pending.uses = loop.pending.uses + called.length := by rw [pending]
    have answered : next.replies.length ≤ next.pending.uses := by
      rw [uses, replies, List.length_append, List.length_singleton]
      exact Nat.add_le_add going.answered positive
    have within_ : next.pending.uses ≤ next.pending.plan.maxUses := by rw [uses, plan]; exact limit
    have tools : ∀ body, next.request.body = some body → ∃ hidden,
        hidden ∈ [[], [searchTool next.protocol next.pending.plan.name]] ∧
          toolsOf next.pending.payload = callerTools next.protocol body ++ hidden := by
      rw [request, protocol, plan, pending]
      intro body isBody
      obtain ⟨hidden, isHidden, tools⟩ := going.tools_again bounded appended isBody
        (decide (loop.pending.plan.maxUses ≤ loop.pending.uses + called.length))
      simp only [decide_eq_true_eq] at tools
      exact ⟨hidden, isHidden, tools⟩
    have pinned : ∀ target ∈ next.pending.route.targets,
        next.replies.head?.map Reply.target = some target.id := by
      rw [pending, replies]
      intro target listed
      obtain ⟨held, isTarget⟩ := List.mem_filter.mp listed
      by_cases none_ : loop.replies = []
      · rw [none_]
        exact congrArg some (of_decide_eq_true isTarget).symm
      · exact head_append (going.pinned target held none_) reply
    refine ⟨⟨few, ?_, ?_, ?_, name, own⟩, fun _ => ⟨?_, rounds, answered, ?_, within_, ?_, tools,
      fun target listed _ => pinned target listed⟩⟩
    · rw [rounds]
      exact Nat.succ_le_succ (le_trans answered within_)
    · rw [sent]
      intro round listed target isTarget
      have some_ : loop.sent ≠ [] := List.ne_nil_of_length_pos (by rw [going.rounds]; omega)
      rw [List.tail_append_of_ne_nil some_] at listed
      obtain earlier | now_ := List.mem_append.mp listed
      · rw [replies]
        exact head_append (bounded.pinned round earlier target isTarget) reply
      · rw [List.mem_singleton.mp now_] at isTarget
        exact pinned target isTarget
    · intro body isBody round listed
      rw [sent] at listed
      obtain earlier | now_ := List.mem_append.mp listed
      · rw [protocol, plan]
        exact bounded.tools body (request ▸ isBody) round earlier
      · rw [List.mem_singleton.mp now_]
        exact tools body isBody
    · rw [pending, protocol]
      exact going.protocol
    · rw [executed, List.length_append, going.uses, executes, uses]
    · rw [pending]
      dsimp only
      split
      · unfold dropTool
        split
        · exact Value.isObject_set isObject _ _
        · exact isObject
      · exact isObject

/-! ## Plain replies -/

/-- The calls of a reply do not change with its usage. -/
theorem callItems_write (protocol : ProxyProtocol) {value body usage : Value}
    (wrote : value.write "usage" usage = some body) :
    callItems protocol body = callItems protocol value ∧
      itemsOf protocol body = itemsOf protocol value := by
  have content : body.field "content" = value.field "content" := by
    rw [Value.field, Value.get_write wrote (by decide), Value.field]
  have choices : body.field "choices" = value.field "choices" := by
    rw [Value.field, Value.get_write wrote (by decide), Value.field]
  have output : body.field "output" = value.field "output" := by
    rw [Value.field, Value.get_write wrote (by decide), Value.field]
  cases protocol <;> simp only [callItems, itemsOf, choiceMessage, content, choices, output, and_self]

/-- What is delivered of a reply: its calls, and the usage that was written. -/
theorem Pending.deliver_spec {pending : Pending} {value usage : Value} {delivered : Delivered}
    (first : pending.streaming = true → ∀ item ∈ callItems pending.route.inboundProtocol value,
      item ∈ itemsOf pending.route.inboundProtocol value)
    (delivers : pending.deliver outside value usage = some delivered) :
    (∀ shown ∈ delivered.calls pending.route.inboundProtocol,
      ∃ item ∈ callItems pending.route.inboundProtocol value, Alike shown item) ∧
    (∀ item ∈ callItems pending.route.inboundProtocol value,
      ∃ shown ∈ delivered.calls pending.route.inboundProtocol, Alike shown item) ∧
    delivered.usages ≠ [] ∧ ∀ shown ∈ delivered.usages, shown = usage := by
  obtain ⟨body, wrote, delivers⟩ := Option.bind_eq_some_iff.mp delivers
  have isUsage := Value.get_write_self wrote
  have isObject := Value.isObject_of_get isUsage
  obtain ⟨calls, items⟩ := callItems_write pending.route.inboundProtocol wrote
  rw [← calls, ← items] at first
  rw [← calls]
  split at delivers
  · rename_i streams
    obtain ⟨shown, rendered, rfl⟩ := Option.map_eq_some_iff.mp delivers
    have shows := sse_shows isObject (by rw [isUsage]; rfl) rendered
    refine ⟨shows.sound, fun item listed => ?_, shows.billed, fun other listed => ?_⟩
    · exact shows.complete item listed (first streams item listed)
    · exact Option.some.inj ((shows.usage other listed).symm.trans isUsage)
  · cases delivers
    refine ⟨fun item listed => ⟨item, listed, .refl _⟩, fun item listed => ⟨item, listed, .refl _⟩,
      List.cons_ne_nil _ _, fun other listed => ?_⟩
    rw [List.mem_singleton.mp listed, Value.field, isUsage]
    rfl

/-- What holds between plain rounds. -/
structure Loop.Counted (loop : Loop) : Prop extends loop.Exact where
  undelivered : loop.working = true → loop.delivered = none
  totals : loop.working = true → Totals (loop.replies.map Reply.usage) loop.pending.usage

/-- A plain round keeps the loop exact. -/
theorem Loop.Counted.step (counted : loop.Counted) (going : loop.working = true → loop.Going)
    (plain : Plain loop reply) (stepped : loop.step outside reply = some next) : next.Counted := by
  obtain ⟨isWorking, request, replies, -, cases_⟩ := Loop.step_cases stepped
  have going := going isWorking
  have protocol : next.protocol = loop.protocol := congrArg (·.route.inboundProtocol) request
  have all : loop.replies.take (loop.sent.length - 1) = loop.replies := by
    rw [going.rounds]
    exact List.take_length
  have before := counted.answered
  rw [all] at before
  have totals := (counted.totals isWorking).add (reply.distinct.field "usage") plain.adds
  have usages : next.replies.map Reply.usage = loop.replies.map Reply.usage ++ [reply.usage] := by
    rw [replies, List.map_append]
    rfl
  obtain ⟨isOver, pending, sent, delivery⟩ | ⟨called, payload, collected, some_, -, -, -, -, delivered,
    sent, pending⟩ := cases_
  · have told := plain.told
    refine ⟨⟨?_, ?_⟩, fun impossible => ?_, fun impossible => ?_⟩
    · have earlier : next.replies.take (next.sent.length - 1) = loop.replies := by
        rw [sent, going.rounds, replies]
        exact List.take_left
      rw [earlier, protocol, pending]
      exact before
    · intro delivered isDelivered
      obtain same | ⟨collected, delivers⟩ := delivery
      · rw [same, counted.undelivered isWorking] at isDelivered
        cases isDelivered
      · rw [going.protocol] at collected
        obtain ⟨sound, complete, billed, same⟩ := Pending.deliver_spec
          (by rw [going.protocol]; exact plain.first) (delivers.symm.trans isDelivered)
        rw [going.protocol] at sound complete
        rw [protocol, pending]
        refine ⟨fun shown listed => ?_, fun last isLast => ?_, billed, fun usage listed => ?_⟩
        · obtain ⟨item, isCall, alike⟩ := sound shown listed
          exact (alike.callsFor _ _).trans (told.none collected item isCall)
        · rw [replies, List.getLast?_concat] at isLast
          cases isLast
          exact complete
        · rw [same usage listed, usages]
          exact totals
    · rw [isOver] at impossible
      cases impossible
    · rw [isOver] at impossible
      cases impossible
  · have plan : next.pending.plan = loop.pending.plan := by rw [pending]
    have undelivered : next.delivered = none := delivered.trans (counted.undelivered isWorking)
    refine ⟨⟨?_, fun delivered isDelivered => ?_⟩, fun _ => undelivered, fun _ => ?_⟩
    · have all : next.replies.take (next.sent.length - 1) = next.replies := by
        refine List.take_of_length_le ?_
        rw [sent, replies, List.length_append, List.length_append, going.rounds]
        exact le_rfl
      rw [all, replies, protocol, plan]
      intro other listed
      obtain earlier | now_ := List.mem_append.mp listed
      · exact before other earlier
      · rw [List.mem_singleton.mp now_]
        rw [going.protocol] at collected
        exact plain.told.all collected some_
    · rw [undelivered] at isDelivered
      cases isDelivered
    · rw [usages, pending]
      exact totals

/-- A loop that starts has counted nothing. -/
theorem counted_init (isInit : (searchLoop outside).init loop) : loop.Counted := by
  obtain ⟨available, now, history, request, left, pending, begun, rfl⟩ := isInit
  obtain ⟨-, -, -, -, -, -, -, -, usage, -⟩ := forward_search begun
  refine ⟨⟨fun _ none_ => absurd none_ List.not_mem_nil, fun _ impossible => ?_⟩, fun _ => rfl,
    fun _ => ?_⟩
  · cases impossible
  · rw [usage]
    exact totals_nil

/-- A reply with one counter in its usage. -/
def counting (content count : Value) (keyed_ : (Value.obj [("content", content),
    ("usage", .obj [("input_tokens", count)])]).keyed = true) : Reply :=
  ⟨1, .obj [("content", content), ("usage", .obj [("input_tokens", count)])],
    Value.distinct_of_keyed keyed_, fun _ => .ok nothingFound⟩

/-- A reply that calls for a search. -/
def searchingReply : Reply := counting (calling "who") (.nat 10) (by decide)

/-- A reply that does not, with a counter. -/
def lastReply (count : Value) (keyed_ : (Value.obj [("content", contentOf "Ann."),
    ("usage", .obj [("input_tokens", count)])]).keyed = true) : Reply :=
  counting (contentOf "Ann.") count keyed_

/-- The loop of a request with a search, which is handled by the gateway. -/
def Request.begins (request : Request) : Option Loop :=
  match (forward twoTurns true 0 {} request).2 with
  | .search pending => some { request, pending, sent := [(pending.route, pending.payload)] }
  | _ => none

/-- It is where the rounds start. -/
theorem Request.begins_init {request : Request} {loop : Loop} (begun : request.begins = some loop) :
    (searchLoop twoTurns).init loop := by
  unfold Request.begins at begun
  split at begun
  · rename_i pending isPending
    cases begun
    exact ⟨true, 0, {}, request, _, pending, Prod.ext rfl isPending, rfl⟩
  · cases begun

/-- The question of one turn, with a search. -/
def whoSearch : Request := withSearch [question "Who?"]

/-- A reply that calls the search tool without a type. -/
def untypedReply : Reply :=
  ⟨1, .obj [("choices", .array [.obj [("message", .obj [("tool_calls", .array [.obj [("id", "call"),
    ("function", .obj [("name", "aipass_web_search"), ("arguments", "\x7b\x7d")])]])])]])],
    Value.distinct_of_keyed (by decide), fun _ => .ok nothingFound⟩

/-- The question of one turn to a Chat model, with a search. -/
def whoChat : Request where
  route := ⟨7, CC, CC, [⟨1, true, some CC, "https://llm.example", .standard⟩]⟩
  image := false
  body := some (.obj [("model", "m"), ("messages", .array [question "Who?"]),
    ("web_search_options", .obj [])])

end Aipass.Search
