import Aipass.Bridge.Moves

/-!
# Requests of a lane run in order

At most one response of a lane is running, and the requests accepted for a lane are those that were
served, then the one that runs, then those that wait, in the order in which they were accepted.
-/
namespace Aipass.Bridge

variable {serde : SerdeJson}

namespace Session

/-- A failure leaves the queue. -/
@[simp] theorem failed_queue (session : Session) (lane : String) (previousId : Option String) :
    (session.failed lane previousId).queue = session.queue := by
  unfold failed
  split <;> rfl

/-- A failure leaves the active lanes. -/
@[simp] theorem failed_active (session : Session) (lane : String) (previousId : Option String) :
    (session.failed lane previousId).active = session.active := by
  unfold failed
  split <;> rfl

/-- Remembering a response leaves the queue. -/
@[simp] theorem remember_queue (session : Session) (lane : String) (cached : Cached) :
    (session.remember lane cached).queue = session.queue := by
  unfold remember
  simp only
  split <;> rfl

/-- Remembering a response leaves the active lanes. -/
@[simp] theorem remember_active (session : Session) (lane : String) (cached : Cached) :
    (session.remember lane cached).active = session.active := by
  unfold remember
  simp only
  split <;> rfl

/-- A response that ends leaves the queue. -/
@[simp] theorem finish_queue (session : Session) (lane : String) (previousId : Option String)
    (ending : Ending) : (session.finish lane previousId ending).queue = session.queue := by
  unfold finish
  simp only
  split
  · rw [failed_queue]
  · split
    · rw [remember_queue]
      rfl
    · rfl

/-- A response that ends frees its lane. -/
@[simp] theorem finish_active (session : Session) (lane : String) (previousId : Option String)
    (ending : Ending) : (session.finish lane previousId ending).active =
      session.active.filter fun held => held ≠ lane := by
  unfold finish
  simp only
  split
  · rw [failed_active]
  · split
    · rw [remember_active]
      rfl
    · rfl

end Session

namespace World

/-- The requests of a lane that were served. -/
def servedOf (world : World) (lane : String) : List Served :=
  world.served.filter fun served => served.request.lane = lane

/-- The active lanes are those with a running response, few enough and each once, and the requests
of a lane run in the order in which they were accepted. -/
structure Ordered (world : World) : Prop where
  active : ∀ lane, lane ∈ world.session.active ↔ (world.running lane).isSome
  once : world.session.active.Nodup
  few : world.session.active.length ≤ maxActive
  own : ∀ lane run, world.running lane = some run → run.request.lane = lane
  order : ∀ lane, world.accepted.filter (fun request => request.lane = lane) =
    (world.servedOf lane).map Served.request ++ (world.running lane).toList.map Run.request ++
      world.session.queue.filter fun request => request.lane = lane

namespace Ordered

variable {world : World}

/-- A lane that is not active has no running response. -/
theorem idle (ordered : world.Ordered) {lane : String} (free : lane ∉ world.session.active) :
    world.running lane = none := by
  cases held : world.running lane with
  | none => rfl
  | some run => exact absurd ((ordered.active lane).mpr (by rw [held]; rfl)) free

/-- A running response that goes on is the response of the same request. -/
theorem same_request (ordered : world.Ordered) {lane : String} {run next : Run}
    (isRun : world.running lane = some run) {later : World}
    (isSession : later.session = world.session) (isAccepted : later.accepted = world.accepted)
    (isServed : later.served = world.served)
    (isRunning : later.running = Function.update world.running lane (some next))
    (same : next.request = run.request) : later.Ordered := by
  have requests : ∀ other, (later.running other).toList.map Run.request =
      (world.running other).toList.map Run.request := by
    intro other
    by_cases own : other = lane
    · rw [isRunning, own, Function.update_self, isRun]
      simp only [Option.toList_some, List.map_cons, List.map_nil, same]
    · rw [isRunning, Function.update_of_ne own]
  refine ⟨fun other => ?_, ?_, ?_, fun other run' held => ?_, fun other => ?_⟩
  · rw [isSession, ordered.active other, isRunning]
    by_cases own : other = lane
    · rw [own, Function.update_self, isRun]
      rfl
    · rw [Function.update_of_ne own]
  · rw [isSession]
    exact ordered.once
  · rw [isSession]
    exact ordered.few
  · rw [isRunning] at held
    by_cases own : other = lane
    · rw [own, Function.update_self, Option.some.injEq] at held
      rw [← held, same, own]
      exact ordered.own lane run isRun
    · rw [Function.update_of_ne own] at held
      exact ordered.own other run' held
  · rw [isAccepted, ordered.order other, requests other, isSession, servedOf, servedOf, isServed]

/-- The order is kept by every step. -/
theorem move (ordered : world.Ordered) {action : Action} {next : World}
    (moved : world.Move serde action next) : next.Ordered := by
  cases moved with
  | note message told none_told =>
    exact ⟨ordered.active, ordered.once, ordered.few, ordered.own, ordered.order⟩
  | @accept value bytes session lane isLane enqueued =>
    obtain ⟨lane', isLane', queue, active, -⟩ := Session.enqueue_eq_ok enqueued
    obtain rfl := Except.ok.inj (isLane.symm.trans isLane')
    refine ⟨?_, ?_, ?_, ordered.own, fun other => ?_⟩
    · simpa only [active] using ordered.active
    · simpa only [active] using ordered.once
    · simpa only [active] using ordered.few
    · have before := ordered.order other
      simp only [queue, List.filter_append, before, List.append_assoc]
      rfl
  | @launch id request session prepared taken isPrepared =>
    obtain ⟨room, found, active, -⟩ := Session.next_eq_some taken
    obtain ⟨free, queue⟩ := Session.takeFree_eq_some found
    have idle := ordered.idle free
    refine ⟨fun other => ?_, ?_, ?_, fun other run held => ?_, fun other => ?_⟩
    · simp only [active, List.mem_cons]
      by_cases own : other = request.lane
      · simp [own]
      · simp [own, ordered.active other]
    · simp only [active]
      exact List.nodup_cons.mpr ⟨free, ordered.once⟩
    · simp only [active, List.length_cons]
      exact room
    · by_cases own : other = request.lane
      · simp only [own, Function.update_self, Option.some.injEq] at held
        rw [← held, own]
      · simp only [Function.update_of_ne own] at held
        exact ordered.own other run held
    · have before := ordered.order other
      rw [queue other] at before
      simp only
      rw [before]
      by_cases own : other = request.lane
      · subst own
        rw [idle, if_pos rfl, Function.update_self]
        simp [servedOf]
      · rw [if_neg (Ne.symm own), Function.update_of_ne own]
        rfl
  | @reject id request session error taken rejected =>
    obtain ⟨-, found, active, -⟩ := Session.next_eq_some taken
    obtain ⟨free, queue⟩ := Session.takeFree_eq_some found
    have idle := ordered.idle free
    refine ⟨?_, ?_, ?_, ordered.own, fun other => ?_⟩
    · simpa only [Session.failed_active, active] using ordered.active
    · simpa only [Session.failed_active, active] using ordered.once
    · simpa only [Session.failed_active, active] using ordered.few
    · have before := ordered.order other
      rw [queue other] at before
      simp only [Session.failed_queue, servedOf, List.filter_append, List.map_append]
      rw [before]
      by_cases own : other = request.lane
      · subst own
        rw [idle, if_pos rfl]
        simp [servedOf]
      · rw [if_neg (Ne.symm own), List.filter_cons_of_neg (by simpa using Ne.symm own)]
        simp [servedOf]
  | advance lane input isRun advanced =>
    exact ordered.same_request isRun rfl rfl rfl rfl rfl
  | event isChannel isRun =>
    exact ordered.same_request isRun rfl rfl rfl rfl rfl
  | @finish lane previousId ending rest run isChannel isRun =>
    have isLane := ordered.own lane run isRun
    refine ⟨fun other => ?_, ?_, ?_, fun other run' held => ?_, fun other => ?_⟩
    · simp only [Session.finish_active, List.mem_filter, decide_eq_true_eq]
      by_cases own : other = lane
      · simp [own]
      · simp [own, ordered.active other]
    · simp only [Session.finish_active]
      exact ordered.once.filter _
    · simp only [Session.finish_active]
      exact (List.length_filter_le _ _).trans ordered.few
    · by_cases own : other = lane
      · simp only [own, Function.update_self, reduceCtorEq] at held
      · simp only [Function.update_of_ne own] at held
        exact ordered.own other run' held
    · have before := ordered.order other
      simp only [Session.finish_queue, servedOf, List.filter_append, List.map_append]
      rw [before]
      by_cases own : other = lane
      · subst own
        rw [isRun, Function.update_self, List.filter_cons_of_pos (by simpa using isLane)]
        simp [servedOf]
      · rw [Function.update_of_ne own,
          List.filter_cons_of_neg (by simpa [isLane] using Ne.symm own)]
        simp [servedOf]

end Ordered
end World
end Aipass.Bridge
