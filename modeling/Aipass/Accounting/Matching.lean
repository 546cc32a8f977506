import Aipass.Accounting.Relay

/-!
# The request that an event is matched to

What the session keeps of its requests is what the upstream has still to do: the requests that wait
are those it has not begun, and the ones under the identifier of a response are those it is at. An
event that it sends is therefore traced to the request that the event is about. It also finishes
that request, unless it is an error without an identifier on a lane where another request waits.
-/
namespace Aipass.Accounting

open Proxy (Instant)

section Splits

variable {α : Type} {p : α → Bool} {x : α} {before after : List α}

/-- The first entry with a property, where none before it has it. -/
theorem find?_split (skipped : ∀ entry ∈ before, p entry = false) (holds : p x = true) :
    (before ++ x :: after).find? p = some x := by
  rw [List.find?_append, List.find?_eq_none.mpr fun entry inside => by simp [skipped entry inside],
    Option.none_or, List.find?_cons_of_pos holds]

/-- The first entry with a property goes. -/
theorem eraseP_split (skipped : ∀ entry ∈ before, p entry = false) (holds : p x = true) :
    (before ++ x :: after).eraseP p = before ++ after := by
  rw [List.eraseP_append_right _ fun entry inside => by simp [skipped entry inside],
    List.eraseP_cons_of_pos holds]

end Splits

namespace SessionUsage

variable {change : ResponseUsage → ResponseUsage} {id lane : String} {request : ResponseUsage}

/-- The request under an identifier changes, where it is. -/
theorem changeUnder_split {before after : List (String × ResponseUsage)}
    (skipped : ∀ entry ∈ before, entry.1 ≠ id) :
    changeUnder change id (before ++ (id, request) :: after) =
      before ++ (id, change request) :: after := by
  induction before with
  | nil => exact if_pos rfl
  | cons entry before ih =>
    rw [List.cons_append, changeUnder, if_neg (skipped entry List.mem_cons_self),
      ih fun other inside => skipped other (List.mem_cons_of_mem _ inside)]
    rfl

/-- Where no request is under an identifier, none changes. -/
theorem changeUnder_of_forall_ne {active : List (String × ResponseUsage)}
    (unknown : ∀ entry ∈ active, entry.1 ≠ id) : changeUnder change id active = active := by
  induction active with
  | nil => rfl
  | cons entry active ih =>
    rw [changeUnder, if_neg (unknown entry List.mem_cons_self),
      ih fun other inside => unknown other (List.mem_cons_of_mem _ inside)]

/-- The first request of a lane changes, where it is. -/
theorem changeFront_split {before after : List ResponseUsage} (isLane : request.streamId = lane)
    (skipped : ∀ other ∈ before, other.streamId ≠ lane) :
    changeFront change lane (before ++ request :: after) = before ++ change request :: after := by
  induction before with
  | nil => exact if_pos isLane
  | cons entry before ih =>
    rw [List.cons_append, changeFront, if_neg (skipped entry List.mem_cons_self),
      ih fun other inside => skipped other (List.mem_cons_of_mem _ inside)]
    rfl

/-- A request with a response at work, alone under its identifier and alone at work on its lane. -/
structure Works (session : SessionUsage) (id : String) (request : ResponseUsage)
    (before after : List (String × ResponseUsage)) : Prop where
  active : session.active = before ++ (id, request) :: after
  ids : ∀ entry ∈ before ++ after, entry.1 ≠ id
  lanes : ∀ entry ∈ before ++ after, entry.2.streamId ≠ request.streamId

/-- A request that is the first of its lane, with no response at work there. -/
structure Waits (session : SessionUsage) (request : ResponseUsage)
    (before after : List ResponseUsage) : Prop where
  pending : session.pending = before ++ request :: after
  first : ∀ other ∈ before, other.streamId ≠ request.streamId
  idle : ∀ entry ∈ session.active, entry.2.streamId ≠ request.streamId

/-- A lane without requests. -/
structure Idle (session : SessionUsage) (lane : String) : Prop where
  active : ∀ entry ∈ session.active, entry.2.streamId ≠ lane
  pending : ∀ request ∈ session.pending, request.streamId ≠ lane

/-- Whether no request is under the identifier that an event names, if it names one. -/
def Unnamed (session : SessionUsage) (value : Value) : Prop :=
  ∀ id, responseIdOf value = some id → ∀ entry ∈ session.active, entry.1 ≠ id

end SessionUsage

/-- A request after an event was traced to it. -/
structure Follows (value : Value) (request next : ResponseUsage) : Prop where
  requestId : next.requestId = request.requestId
  model : next.model = request.model
  streamId : next.streamId = request.streamId
  activity : next.activity = request.activity
  trace : next.trace = request.trace ++ [value]

/-- An event is observed by the request that it is traced to. -/
theorem follows_observed (value : Value) (request : ResponseUsage) :
    Follows value request (SessionUsage.observed value request) := ⟨rfl, rfl, rfl, rfl, rfl⟩

namespace SessionUsage

variable {session : SessionUsage} {value : Value} {id : String} {request : ResponseUsage}

/-- An event that names no response matches none that is at work on another lane. -/
theorem Unnamed.find?_isMatch (unnamed : session.Unnamed value) {lane : String}
    (idle : ∀ entry ∈ session.active, entry.2.streamId ≠ lane) :
    session.active.find? (isMatch (responseIdOf value) lane) = none := by
  refine List.find?_eq_none.mpr fun entry inside => ?_
  cases named : responseIdOf value with
  | some id => simpa [isMatch] using unnamed id named entry inside
  | none => simpa [isMatch] using idle entry inside

namespace Works

variable {before after : List (String × ResponseUsage)}

/-- The request under the identifier. -/
theorem under (works : session.Works id request before after) : session.under id = some request := by
  rw [SessionUsage.under, works.active, find?_split
    (fun entry inside => by simpa using works.ids entry (List.mem_append_left _ inside)) (by simp)]
  rfl

/-- The response at work on the lane. -/
theorem onLane (works : session.Works id request before after) :
    (session.active.find? fun entry => entry.2.streamId = request.streamId) = some (id, request) := by
  rw [works.active]
  exact find?_split
    (fun entry inside => by simpa using works.lanes entry (List.mem_append_left _ inside)) (by simp)

/-- The request is taken. -/
theorem takeActive (works : session.Works id request before after) :
    session.takeActive id = some (request, { session with active := before ++ after }) := by
  rw [SessionUsage.takeActive, works.under, SessionUsage.remove, works.active, eraseP_split
    (fun entry inside => by simpa using works.ids entry (List.mem_append_left _ inside)) (by simp)]
  rfl

/-- An event of the lane that names no other response is traced to the request. -/
theorem traced (works : session.Works id request before after)
    (named : ∀ other, responseIdOf value = some other → other = id)
    (isLane : laneOf value = request.streamId) :
    session.traced (responseIdOf value) (laneOf value) = some (.active id) := by
  have found : session.active.find? (isMatch (responseIdOf value) (laneOf value)) =
      some (id, request) := by
    cases hasId : responseIdOf value with
    | some other =>
      obtain rfl := named other hasId
      rw [works.active]
      exact find?_split (fun entry inside => by
        simpa [isMatch] using works.ids entry (List.mem_append_left _ inside)) (by simp [isMatch])
    | none =>
      rw [isLane]
      exact works.onLane
  rw [SessionUsage.traced, found]

/-- The request changes. -/
theorem change (works : session.Works id request before after)
    (change : ResponseUsage → ResponseUsage) :
    session.change change (.active id) =
      { session with active := before ++ (id, change request) :: after } := by
  rw [SessionUsage.change, works.active, changeUnder_split
    fun entry inside => works.ids entry (List.mem_append_left _ inside)]

/-- A request that has changed is at work as before. -/
theorem changed (works : session.Works id request before after) (next : ResponseUsage)
    (sameLane : next.streamId = request.streamId) :
    { session with active := before ++ (id, next) :: after }.Works id next before after :=
  ⟨rfl, works.ids, by rw [sameLane]; exact works.lanes⟩

end Works

namespace Waits

variable {before after : List ResponseUsage}

/-- The request at the front of the lane. -/
theorem front (waits : session.Waits request before after) :
    session.front request.streamId = some request := by
  rw [SessionUsage.front, waits.pending]
  exact find?_split (fun other inside => by simpa using waits.first other inside) (by simp)

/-- The request is taken. -/
theorem takePending (waits : session.Waits request before after) :
    session.takePending request.streamId =
      some (request, { session with pending := before ++ after }) := by
  rw [SessionUsage.takePending, waits.front, waits.pending, eraseP_split
    (fun other inside => by simpa using waits.first other inside) (by simp)]
  rfl

/-- An event of the lane that names no response is traced to the request. -/
theorem traced (waits : session.Waits request before after) (unnamed : session.Unnamed value)
    (isLane : laneOf value = request.streamId) :
    session.traced (responseIdOf value) (laneOf value) = some (.pending request.streamId) := by
  rw [SessionUsage.traced, unnamed.find?_isMatch (by rw [isLane]; exact waits.idle), isLane,
    waits.front]
  rfl

/-- The request changes. -/
theorem change (waits : session.Waits request before after)
    (change : ResponseUsage → ResponseUsage) :
    session.change change (.pending request.streamId) =
      { session with pending := before ++ change request :: after } := by
  rw [SessionUsage.change, waits.pending, changeFront_split rfl waits.first]

/-- A request that has changed waits as before. -/
theorem changed (waits : session.Waits request before after) (next : ResponseUsage)
    (sameLane : next.streamId = request.streamId) :
    { session with pending := before ++ next :: after }.Waits next before after :=
  ⟨rfl, by rw [sameLane]; exact waits.first, by rw [sameLane]; exact waits.idle⟩

end Waits

/-- No request is under an identifier that an event names. -/
theorem Unnamed.under (unnamed : session.Unnamed value) (named : responseIdOf value = some id) :
    session.under id = none := by
  rw [SessionUsage.under, List.find?_eq_none.mpr fun entry inside => by
    simpa using unnamed id named entry inside]
  rfl

/-- An event that names no response takes no request by its name. -/
theorem Unnamed.takeActive (unnamed : session.Unnamed value) :
    (responseIdOf value).bind session.takeActive = none := by
  cases named : responseIdOf value with
  | none => rfl
  | some id => rw [Option.bind_some, SessionUsage.takeActive, unnamed.under named]; rfl

/-- No request is at the front of an idle lane. -/
theorem Idle.front {lane : String} (idle : session.Idle lane) : session.front lane = none :=
  List.find?_eq_none.mpr fun request inside => by simpa using idle.pending request inside

/-- No response is at work on a lane that is idle, or whose first request waits. -/
theorem find?_lane_eq_none {lane : String} (idle : ∀ entry ∈ session.active, entry.2.streamId ≠ lane) :
    (session.active.find? fun entry => entry.2.streamId = lane) = none :=
  List.find?_eq_none.mpr fun entry inside => by simpa using idle entry inside

/-- An event of an idle lane that names no response is traced to nothing. -/
theorem Idle.traced (idle : session.Idle (laneOf value)) (unnamed : session.Unnamed value) :
    session.traced (responseIdOf value) (laneOf value) = none := by
  rw [SessionUsage.traced, unnamed.find?_isMatch idle.active, idle.front]
  rfl

end SessionUsage
end Aipass.Accounting
