import Aipass.Accounting.Serving

/-!
# The session follows the upstream

What the session keeps of its requests stays what the upstream has still to do, whatever the
upstream sends, as long as it sends no error without an identifier for a response at work while
another request waits on the lane.
-/
namespace Aipass.Accounting

open Proxy (Instant)

/-- What the upstream has to do of a request that waits. -/
def waitingLabel (request : ResponseUsage) : String × Uuid := (request.streamId, request.requestId)

/-- What the upstream is at of a request with a response. -/
def runningLabel (entry : String × ResponseUsage) : Running :=
  ⟨entry.2.streamId, entry.2.requestId, entry.1⟩

/-- The requests of a session are what the upstream has still to do. -/
structure Matched (session : SessionUsage) (upstream : Upstream) : Prop where
  queued : session.pending.map waitingLabel = upstream.queued
  running : session.active.map runningLabel = upstream.running
  lanes : (session.active.map fun entry => entry.2.streamId).Nodup
  ids : (session.active.map Prod.fst).Nodup
  size : session.active.length + session.pending.length ≤ maxRequests

/-- Where an entry stands in a list, nothing else in it has its image. -/
theorem ne_of_nodup_map {α β : Type} {f : α → β} {before after : List α} {x : α}
    (distinct : ((before ++ x :: after).map f).Nodup) : ∀ y ∈ before ++ after, f y ≠ f x := by
  have moved : ((x :: (before ++ after)).map f).Nodup :=
    (List.perm_middle.map f).nodup_iff.mp distinct
  rw [List.map_cons, List.nodup_cons] at moved
  exact fun y inside same => moved.1 (same ▸ List.mem_map_of_mem inside)

namespace Matched

variable {session : SessionUsage} {account : Account} {upstream : Upstream} {value : Value}
  {lane : String} {now : Instant}

/-- The request of a response that the upstream is at. -/
theorem works (matched : Matched session upstream) {run : Running}
    (isCurrent : upstream.current lane = some run) :
    ∃ request before after, session.Works run.responseId request before after ∧
      request.streamId = lane ∧ request.requestId = run.requestId ∧
      upstream.running = before.map runningLabel ++ run :: after.map runningLabel := by
  obtain ⟨isLane, left, right, split, -⟩ := List.find?_eq_some_iff_append.mp isCurrent
  have labels := matched.running.trans split
  obtain ⟨before, others, isSplit, rfl, tail⟩ := List.map_eq_append_iff.mp labels
  obtain ⟨entry, after, rfl, rfl, rfl⟩ := List.map_eq_cons_iff.mp tail
  have isActive : session.active = before ++ (entry.1, entry.2) :: after := isSplit
  refine ⟨entry.2, before, after, ⟨isActive, ?_, ?_⟩, of_decide_eq_true isLane, rfl, split⟩
  · exact ne_of_nodup_map (x := entry) (isSplit ▸ matched.ids)
  · exact ne_of_nodup_map (x := entry) (isSplit ▸ matched.lanes)

/-- Where the upstream is at no response of a lane, the session has none either. -/
theorem idle (matched : Matched session upstream) (none_ : upstream.current lane = none) :
    ∀ entry ∈ session.active, entry.2.streamId ≠ lane := by
  intro entry inside isLane
  have isRunning : runningLabel entry ∈ upstream.running :=
    matched.running ▸ List.mem_map_of_mem inside
  exact List.find?_eq_none.mp none_ _ isRunning (decide_eq_true isLane)

/-- The request that the upstream begins next. -/
theorem waits (matched : Matched session upstream) {requestId : Uuid}
    (none_ : upstream.current lane = none) (isNext : upstream.next lane = some requestId) :
    ∃ request before after, session.Waits request before after ∧ request.streamId = lane ∧
      request.requestId = requestId ∧
      upstream.queued = before.map waitingLabel ++ (lane, requestId) :: after.map waitingLabel := by
  obtain ⟨queued, found, rfl⟩ := Option.map_eq_some_iff.mp isNext
  obtain ⟨isLane, left, right, split, skipped⟩ := List.find?_eq_some_iff_append.mp found
  have isLane : queued.1 = lane := of_decide_eq_true isLane
  have labels := matched.queued.trans split
  obtain ⟨before, others, isSplit, rfl, tail⟩ := List.map_eq_append_iff.mp labels
  obtain ⟨request, after, rfl, rfl, rfl⟩ := List.map_eq_cons_iff.mp tail
  obtain rfl : request.streamId = lane := isLane
  refine ⟨request, before, after, ⟨isSplit, fun other inside isLane => ?_, matched.idle none_⟩, rfl,
    rfl, split⟩
  have skips := skipped _ (List.mem_map_of_mem inside)
  rw [decide_eq_true (show (waitingLabel other).1 = request.streamId from isLane)] at skips
  cases skips

/-- Where the upstream has nothing to do on a lane, the session has no request there. -/
theorem nothing (matched : Matched session upstream) (none_ : upstream.current lane = none)
    (noNext : upstream.next lane = none) : session.Idle lane := by
  refine ⟨matched.idle none_, fun request inside isLane => ?_⟩
  have isQueued : waitingLabel request ∈ upstream.queued :=
    matched.queued ▸ List.mem_map_of_mem inside
  exact List.find?_eq_none.mp (Option.map_eq_none_iff.mp noNext) _ isQueued (decide_eq_true isLane)

/-- No response is under an identifier that is none of those the upstream is at. -/
theorem unnamed (matched : Matched session upstream)
    (apart : ((responseIdOf value).all fun id =>
      upstream.running.all fun run => run.responseId ≠ id) = true) : session.Unnamed value := by
  intro id named entry inside
  rw [named, Option.all_some, List.all_eq_true] at apart
  have isRunning : runningLabel entry ∈ upstream.running :=
    matched.running ▸ List.mem_map_of_mem inside
  exact of_decide_eq_true (apart _ isRunning)

/-- An event about a response at work keeps the match, and is traced to its request. -/
theorem serverEvent_works (matched : Matched account.session upstream) {run : Running}
    (isCurrent : upstream.current (laneOf value) = some run) (emits : upstream.emits value = true)
    (clear : upstream.ambiguous value = false) :
    Matched (account.serverEvent now value).session (upstream.handle value) ∧
      ((account.session.traced (responseIdOf value) (laneOf value)).bind
        account.session.at_).map ResponseUsage.requestId = upstream.owner (laneOf value) ∧
      Served value now (upstream.owner (laneOf value)) account (account.serverEvent now value) := by
  obtain ⟨request, before, after, works, isLane, isRequest, split⟩ := matched.works isCurrent
  have isOwner : upstream.owner (laneOf value) = some request.requestId := by
    rw [Upstream.owner, isCurrent, isRequest]
    rfl
  have said : SessionUsage.Names value run.responseId ∧
      (isTerminal (kindOf value) = true → responseIdOf value = some run.responseId) := by
    simp only [Upstream.emits, isCurrent] at emits
    by_cases isEnd : isTerminal (kindOf value) = true
    · simp only [isEnd, if_true, decide_eq_true_eq] at emits
      exact ⟨fun other named => Option.some.inj (named.symm.trans emits), fun _ => emits⟩
    · rw [if_neg isEnd] at emits
      refine ⟨fun other named => ?_, fun ends => absurd ends isEnd⟩
      rw [named] at emits
      simpa using emits
  have noOther : kindOf value = "error" → responseIdOf value = none →
      account.session.front (laneOf value) = none := by
    intro isError noId
    rw [Upstream.ambiguous, isCurrent] at clear
    have noNext : upstream.next (laneOf value) = none := by
      simpa [isError, noId] using clear
    refine List.find?_eq_none.mpr fun other inside isLane => ?_
    have isQueued : waitingLabel other ∈ upstream.queued :=
      matched.queued ▸ List.mem_map_of_mem inside
    exact List.find?_eq_none.mp (Option.map_eq_none_iff.mp noNext) _ isQueued isLane
  obtain ⟨follows, isFollowed, goesOn, ends⟩ :=
    works.serverEvent now said.1 isLane.symm said.2 noOther
  have isTraced : ((account.session.traced (responseIdOf value) (laneOf value)).bind
      account.session.at_).map ResponseUsage.requestId = some request.requestId := by
    rw [works.traced said.1 isLane.symm, Option.bind_some]
    exact congrArg (Option.map _) works.under
  rw [isOwner]
  refine ⟨?_, isTraced, ?_⟩
  · cases isEnd : finishes (kindOf value) with
    | true =>
      have handled : upstream.handle value = { upstream with
          running := before.map runningLabel ++ after.map runningLabel } := by
        rw [Upstream.handle, isCurrent]
        simp only [isEnd, if_true, split]
        rw [eraseP_split]
        · intro other inside
          obtain ⟨entry, held, rfl⟩ := List.mem_map.mp inside
          exact decide_eq_false fun same =>
            works.lanes entry (List.mem_append_left _ held) (same.trans isLane.symm)
        · simpa using List.find?_some isCurrent
      have fewer : (before ++ after).Sublist account.session.active := by
        rw [works.active]
        exact List.Sublist.append_left (List.sublist_cons_self _ _) _
      rw [ends isEnd, handled]
      refine ⟨matched.queued, (List.map_append ..), matched.lanes.sublist (fewer.map _),
        matched.ids.sublist (fewer.map _), ?_⟩
      exact (Nat.add_le_add_right fewer.length_le _).trans matched.size
    | false =>
      have handled : upstream.handle value = upstream := by
        rw [Upstream.handle, isCurrent]
        simp only [isEnd, Bool.false_eq_true, if_false]
      have sameLabel : runningLabel (run.responseId, follows) =
          runningLabel (run.responseId, request) := by
        rw [runningLabel, runningLabel, isFollowed.streamId, isFollowed.requestId]
      have lanes := matched.lanes
      have ids := matched.ids
      have running := matched.running
      have size := matched.size
      rw [works.active] at lanes ids running size
      rw [goesOn isEnd, handled]
      refine ⟨matched.queued, ?_, ?_, ?_, ?_⟩
      · rw [← running]
        simp only [List.map_append, List.map_cons, sameLabel]
      · simpa only [List.map_append, List.map_cons, isFollowed.streamId] using lanes
      · simpa only [List.map_append, List.map_cons] using ids
      · simpa only [List.length_append, List.length_cons] using size
  · cases isEnd : finishes (kindOf value) with
    | true =>
      rw [ends isEnd]
      exact .finished isEnd works.live isFollowed (.refl _)
    | false =>
      rw [goesOn isEnd]
      exact .kept isEnd works.live isFollowed (works.changed follows isFollowed.streamId).live

/-- An event about a request that waits keeps the match, and is traced to it. -/
theorem serverEvent_waits (matched : Matched account.session upstream) {requestId : Uuid}
    (none_ : upstream.current (laneOf value) = none)
    (isNext : upstream.next (laneOf value) = some requestId) (emits : upstream.emits value = true) :
    Matched (account.serverEvent now value).session (upstream.handle value) ∧
      ((account.session.traced (responseIdOf value) (laneOf value)).bind
        account.session.at_).map ResponseUsage.requestId = upstream.owner (laneOf value) ∧
      Served value now (upstream.owner (laneOf value)) account (account.serverEvent now value) := by
  obtain ⟨request, before, after, waits, isLane, isRequest, split⟩ := matched.waits none_ isNext
  have isOwner : upstream.owner (laneOf value) = some request.requestId := by
    rw [Upstream.owner, none_, isNext, isRequest]
    rfl
  have apart : ((responseIdOf value).all fun id =>
      upstream.running.all fun run => run.responseId ≠ id) = true := by
    simpa only [Upstream.emits, none_] using emits
  have unnamed := matched.unnamed apart
  have size := matched.size
  rw [waits.pending, List.length_append, List.length_cons] at size
  obtain ⟨follows, isFollowed, goesOn, ends⟩ :=
    waits.serverEvent now unnamed isLane.symm (by omega)
  have isTraced : ((account.session.traced (responseIdOf value) (laneOf value)).bind
      account.session.at_).map ResponseUsage.requestId = some request.requestId := by
    rw [waits.traced unnamed isLane.symm, Option.bind_some]
    exact congrArg (Option.map _) waits.front
  have begun : upstream.queued.eraseP (fun queued => queued.1 = laneOf value) =
      (before ++ after).map waitingLabel := by
    rw [split, List.map_append]
    refine eraseP_split (fun label inside => ?_) (decide_eq_true rfl)
    obtain ⟨other, held, rfl⟩ := List.mem_map.mp inside
    exact decide_eq_false fun same => waits.first other held (same.trans isLane.symm)
  have kept : (before ++ follows :: after).map waitingLabel = upstream.queued := by
    rw [← matched.queued, waits.pending]
    simp only [List.map_append, List.map_cons, waitingLabel, isFollowed.streamId,
      isFollowed.requestId]
  rw [isOwner]
  refine ⟨?_, isTraced, ?_⟩
  · cases isEnd : finishes (kindOf value) with
    | true =>
      rw [ends isEnd, Upstream.handle, none_, isNext]
      simp only [isEnd, if_true, begun]
      refine ⟨rfl, matched.running, matched.lanes, matched.ids, ?_⟩
      change account.session.active.length + (before ++ after).length ≤ _
      rw [List.length_append]
      omega
    | false =>
      rw [goesOn isEnd, Upstream.handle, none_, isNext]
      simp only [isEnd, Bool.false_eq_true, if_false, begun]
      have unchanged : Matched
          { account.session with pending := before ++ follows :: after } upstream := by
        refine ⟨kept, matched.running, matched.lanes, matched.ids, ?_⟩
        change account.session.active.length + (before ++ follows :: after).length ≤ _
        rw [List.length_append, List.length_cons]
        exact size
      cases isBegun : begins (kindOf value) with
      | false => exact unchanged
      | true =>
        cases named : responseIdOf value with
        | none => exact unchanged
        | some id =>
          refine ⟨rfl, ?_, ?_, ?_, ?_⟩
          · rw [List.map_append, matched.running, List.map_cons, List.map_nil, runningLabel,
              isFollowed.streamId, isFollowed.requestId, isLane, isRequest]
            rfl
          · rw [List.map_append, List.map_cons, List.map_nil]
            refine List.nodup_append.mpr ⟨matched.lanes, List.nodup_singleton _, ?_⟩
            rintro lane inside other single rfl
            obtain ⟨entry, held, rfl⟩ := List.mem_map.mp inside
            refine waits.idle entry held ?_
            rw [List.mem_singleton.mp single, isFollowed.streamId]
          · rw [List.map_append, List.map_cons, List.map_nil]
            refine List.nodup_append.mpr ⟨matched.ids, List.nodup_singleton _, ?_⟩
            rintro key inside other single rfl
            obtain ⟨entry, held, rfl⟩ := List.mem_map.mp inside
            exact unnamed id named entry held (List.mem_singleton.mp single)
          · change (account.session.active ++ [(id, follows)]).length + (before ++ after).length ≤ _
            rw [List.length_append, List.length_append, List.length_singleton]
            omega
  · cases isEnd : finishes (kindOf value) with
    | true =>
      rw [ends isEnd]
      exact .finished isEnd waits.live isFollowed (.refl _)
    | false =>
      rw [goesOn isEnd]
      have stays := (waits.changed follows isFollowed.streamId).live
      cases isBegun : begins (kindOf value) with
      | false => exact .kept isEnd waits.live isFollowed stays
      | true =>
        cases named : responseIdOf value with
        | none => exact .kept isEnd waits.live isFollowed stays
        | some id =>
          refine .kept isEnd waits.live isFollowed ?_
          rw [SessionUsage.live, List.map_append, List.append_assoc]
          exact List.perm_middle

/-- Whatever the upstream sends, the match is kept, and the event is traced to the request that it
is about and does what such an event does. -/
theorem serverEvent (matched : Matched account.session upstream) (now : Instant)
    (emits : upstream.emits value = true)
    (clear : upstream.ambiguous value = false) :
    Matched (account.serverEvent now value).session (upstream.handle value) ∧
      ((account.session.traced (responseIdOf value) (laneOf value)).bind
        account.session.at_).map ResponseUsage.requestId = upstream.owner (laneOf value) ∧
      Served value now (upstream.owner (laneOf value)) account (account.serverEvent now value) := by
  cases isCurrent : upstream.current (laneOf value) with
  | some run => exact matched.serverEvent_works isCurrent emits clear
  | none =>
    cases isNext : upstream.next (laneOf value) with
    | some requestId => exact matched.serverEvent_waits isCurrent isNext emits
    | none =>
      have idle := matched.nothing isCurrent isNext
      have apart : ((responseIdOf value).all fun id =>
          upstream.running.all fun run => run.responseId ≠ id) = true := by
        simpa only [Upstream.emits, isCurrent] using emits
      have unnamed := matched.unnamed apart
      have noOwner : upstream.owner (laneOf value) = none := by
        rw [Upstream.owner, isCurrent, isNext]
        rfl
      have handled : upstream.handle value = upstream := by
        simp only [Upstream.handle, isCurrent, isNext]
      rw [idle.serverEvent unnamed, handled, noOwner, idle.traced unnamed]
      exact ⟨matched, rfl, .ignored account⟩

end Matched
end Aipass.Accounting
