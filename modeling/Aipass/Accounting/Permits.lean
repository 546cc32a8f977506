import Aipass.Accounting.Following

/-!
# Permits

The requests of a session hold what the proxy counts for them, beside what other requests hold. The
probe that one of them was given is the one that the target is recovering by, and it is so no
longer when the request is finished.
-/
namespace Aipass.Accounting

open Websocket (StatusCode)
open Proxy (Instant TargetHealth RetryPolicy TokenUsage)

/-- What is counted is what other requests hold and what a number of requests hold. -/
structure Counts (shared : Shared) (others : Share) (held : ℕ) : Prop where
  inFlight : shared.inFlightRequests = others.inFlightRequests + held
  target : shared.targetActivity = others.targetActivity + held
  provider : shared.providerActivity = others.providerActivity + held

namespace Shared

/-- What a change leaves of the counts and of the probe. -/
structure Steady (shared next : Shared) : Prop where
  inFlight : next.inFlightRequests = shared.inFlightRequests
  target : next.targetActivity = shared.targetActivity
  provider : next.providerActivity = shared.providerActivity
  probe : next.probeId = shared.probeId

variable {shared next : Shared} {now : Instant}

/-- Nothing changes. -/
theorem Steady.refl (shared : Shared) : shared.Steady shared := ⟨rfl, rfl, rfl, rfl⟩

/-- The counts stay. -/
theorem Steady.counts (steady : shared.Steady next) {others : Share} {held : ℕ}
    (counts : Counts shared others held) : Counts next others held :=
  ⟨steady.inFlight.trans counts.inFlight, steady.target.trans counts.target,
    steady.provider.trans counts.provider⟩

/-- Asking for the ban leaves the probe. -/
theorem probeId_circuitOpen (health : TargetHealth) (now : Instant) :
    (health.circuitOpen now).2.probeId = health.probeId :=
  (Proxy.TargetHealth.looked_circuitOpen now health).probe

/-- Counting a success leaves the probe. -/
theorem probeId_succeed (health : TargetHealth) (started now : Instant) :
    (health.succeed started now).2.probeId = health.probeId := by
  unfold TargetHealth.succeed
  split
  · rfl
  · have looked := probeId_circuitOpen health now
    simp only
    split
    · exact looked
    · exact (TargetHealth.countSuccess_spec _).2.1.trans looked

/-- A success of the target leaves the counts and the probe. -/
theorem steady_completeTargetSuccess (shared : Shared) (now : Instant) (route : Uuid)
    (sessionKey : Option String) (target : Uuid) (started : Instant) (responseId : Option String) :
    shared.Steady (shared.completeTargetSuccess now route sessionKey target started responseId) := by
  unfold completeTargetSuccess
  cases held : shared.health with
  | none => exact ⟨rfl, rfl, rfl, rfl⟩
  | some health =>
    have same : (health.succeed started now).2.probeId = shared.probeId := by
      rw [probeId_succeed, probeId, held, Option.bind_some]
    simp only
    split <;> exact ⟨rfl, rfl, rfl, same⟩

/-- A failure of the target leaves the counts and the probe. -/
theorem steady_markFailure (shared : Shared) (now : Instant) (target : Uuid) (policy : RetryPolicy) :
    shared.Steady (shared.markFailure now target policy) := by
  refine ⟨rfl, rfl, rfl, ?_⟩
  change ((shared.health.getD {}).fail policy now).probeId = shared.probeId
  rw [(TargetHealth.fail_spec policy now _).2.2.2.1, probeId]
  cases shared.health <;> rfl

/-- The probe after a permit was dropped. -/
theorem probeId_dropRecovery (shared : Shared) (probe : Option Uuid) :
    (shared.dropRecovery probe).probeId =
      if probe ≠ none ∧ shared.probeId = probe then none else shared.probeId := by
  unfold dropRecovery
  cases probe with
  | none => simp
  | some probe =>
    cases held : shared.health with
    | none => simp [probeId, held]
    | some health =>
      by_cases same : health.probeId = some probe
      · simp [probeId, held, same]
      · simp [probeId, held, same]

/-- A permit that is dropped leaves the counts. -/
theorem dropRecovery_counts (shared : Shared) (probe : Option Uuid) :
    (shared.dropRecovery probe).inFlightRequests = shared.inFlightRequests ∧
      (shared.dropRecovery probe).targetActivity = shared.targetActivity ∧
      (shared.dropRecovery probe).providerActivity = shared.providerActivity := by
  unfold dropRecovery
  split
  · split <;> exact ⟨rfl, rfl, rfl⟩
  · exact ⟨rfl, rfl, rfl⟩

/-- The guards of a request that is finished are let go. -/
theorem counts_leave {others : Share} {held : ℕ} (counts : Counts shared others (held + 1))
    (activity : Activity) : Counts (shared.leave activity) others held := by
  refine ⟨?_, ?_, ?_⟩
  · change shared.inFlightRequests - 1 = _
    rw [counts.inFlight]
    omega
  · change shared.targetActivity - 1 = _
    rw [counts.target]
    omega
  · change shared.providerActivity - 1 = _
    rw [counts.provider]
    omega

/-- The probe after the guards of a request were dropped. -/
theorem probeId_leave (shared : Shared) (activity : Activity) :
    (shared.leave activity).probeId = (shared.dropRecovery activity.probeId).probeId := rfl

end Shared

/-- The probe of a request. -/
def ResponseUsage.probe (request : ResponseUsage) : Option Uuid :=
  request.activity.bind Activity.probeId

/-- The permits of the requests that are not finished. -/
structure Permitted (shared : Shared) (others : Share) (drawn : List Uuid) (forgotten : Bool)
    (live : List ResponseUsage) : Prop where
  counts : Counts shared others live.length
  guarded : ∀ request ∈ live, request.activity.isSome
  isDrawn : ∀ probe ∈ live.filterMap ResponseUsage.probe, probe ∈ drawn
  distinct : (live.filterMap ResponseUsage.probe).Nodup
  holds : forgotten = false → ∀ probe ∈ live.filterMap ResponseUsage.probe,
    shared.probeId = some probe
  released : ∀ probe ∈ drawn, probe ∉ live.filterMap ResponseUsage.probe →
    shared.probeId ≠ some probe

namespace Permitted

variable {shared next : Shared} {others : Share} {drawn : List Uuid} {forgotten : Bool}
  {live later rest : List ResponseUsage} {request : ResponseUsage}

/-- Permits depend neither on the order of the requests nor on more than their guards. -/
theorem congr (permitted : Permitted shared others drawn forgotten live)
    (same : (live.map ResponseUsage.activity).Perm (later.map ResponseUsage.activity)) :
    Permitted shared others drawn forgotten later := by
  have probes : (live.filterMap ResponseUsage.probe).Perm (later.filterMap ResponseUsage.probe) := by
    have mapped (requests : List ResponseUsage) : requests.filterMap ResponseUsage.probe =
        (requests.map ResponseUsage.activity).filterMap fun activity =>
          activity.bind Activity.probeId := by
      rw [List.filterMap_map]
      rfl
    rw [mapped, mapped]
    exact same.filterMap _
  have sameLength : live.length = later.length := by simpa using same.length_eq
  refine ⟨sameLength ▸ permitted.counts, fun request inside => ?_, fun probe inside => ?_,
    probes.nodup_iff.mp permitted.distinct, fun known probe inside => ?_,
    fun probe isDrawn free => ?_⟩
  · obtain ⟨other, held, isSame⟩ := List.mem_map.mp
      (same.mem_iff.mpr (List.mem_map_of_mem (f := ResponseUsage.activity) inside))
    exact isSame ▸ permitted.guarded other held
  · exact permitted.isDrawn probe (probes.mem_iff.mpr inside)
  · exact permitted.holds known probe (probes.mem_iff.mpr inside)
  · exact permitted.released probe isDrawn fun inside => free (probes.mem_iff.mp inside)

/-- Permits are kept by what leaves the counts and the probe. -/
theorem steady (permitted : Permitted shared others drawn forgotten live)
    (steady : shared.Steady next) : Permitted next others drawn forgotten live := by
  refine ⟨steady.counts permitted.counts, permitted.guarded, permitted.isDrawn, permitted.distinct,
    ?_, ?_⟩
  · rw [steady.probe]
    exact permitted.holds
  · rw [steady.probe]
    exact permitted.released

/-- A probe that is drawn for a request that gets none is nobody's. -/
theorem draw (permitted : Permitted shared others drawn forgotten live) {probe : Uuid}
    (fresh : shared.probeId ≠ some probe) :
    Permitted shared others (probe :: drawn) forgotten live := by
  refine ⟨permitted.counts, permitted.guarded, fun other inside => ?_, permitted.distinct,
    permitted.holds, fun other isDrawn free => ?_⟩
  · exact List.mem_cons_of_mem _ (permitted.isDrawn other inside)
  · obtain rfl | isDrawn := List.mem_cons.mp isDrawn
    · exact fresh
    · exact permitted.released other isDrawn free

/-- The guards of a request are dropped. -/
theorem leave (permitted : Permitted shared others drawn forgotten (request :: rest))
    {activity : Activity} (isActivity : request.activity = some activity) :
    Permitted (shared.leave activity) others drawn forgotten rest := by
  have isProbe : request.probe = activity.probeId := by
    rw [ResponseUsage.probe, isActivity, Option.bind_some]
  have probes : (request :: rest).filterMap ResponseUsage.probe =
      activity.probeId.toList ++ rest.filterMap ResponseUsage.probe := by
    rw [List.filterMap_cons, isProbe]
    cases activity.probeId <;> rfl
  have distinct := permitted.distinct
  have holds := permitted.holds
  have isDrawn := permitted.isDrawn
  have released := permitted.released
  rw [probes] at distinct holds isDrawn released
  refine ⟨Shared.counts_leave permitted.counts activity,
    fun other inside => permitted.guarded other (List.mem_cons_of_mem _ inside),
    fun probe inside => isDrawn probe (List.mem_append_right _ inside),
    distinct.of_append_right, fun known probe inside => ?_, fun probe drawn free => ?_⟩
  · have held := holds known probe (List.mem_append_right _ inside)
    rw [Shared.probeId_leave, Shared.probeId_dropRecovery, held, if_neg]
    rintro ⟨-, same⟩
    rw [← same] at distinct
    exact (List.nodup_cons.mp distinct).1 inside
  · rw [Shared.probeId_leave, Shared.probeId_dropRecovery]
    split
    · exact fun impossible => by cases impossible
    · rename_i kept
      intro same
      refine released probe drawn (fun inside => ?_) same
      obtain own | other := List.mem_append.mp inside
      · rw [Option.mem_toList] at own
        have own : activity.probeId = some probe := own
        exact kept ⟨by rw [own]; exact Option.some_ne_none _, by rw [own, same]⟩
      · exact free other

/-- A request that is finished lets go of its permits. -/
theorem finish {account : Account}
    (permitted : Permitted account.shared others drawn forgotten (request :: rest)) (now : Instant)
    (model : Option String) (usage : TokenUsage) (status : StatusCode) (outcome : Option Bool)
    (transportFailure : Bool) :
    Permitted (account.finish now { request with model := model } usage status outcome
      transportFailure).shared others drawn forgotten rest := by
  obtain ⟨activity, isActivity⟩ := Option.isSome_iff_exists.mp
    (permitted.guarded request List.mem_cons_self)
  unfold Account.finish
  simp only [isActivity]
  refine leave (permitted.steady ?_) isActivity
  split
  · exact Shared.steady_completeTargetSuccess ..
  · split
    · exact Shared.steady_markFailure ..
    · exact .refl _

/-- A request that is given its guards holds them. -/
theorem enter (permitted : Permitted shared others drawn forgotten live) {probe : Uuid}
    (fresh : probe ∉ drawn) (counts : Counts next others (live.length + 1))
    (given : request.activity = some ⟨none⟩ ∧ next.probeId = shared.probeId ∧
        shared.probeId ≠ some probe ∨
      request.activity = some ⟨some probe⟩ ∧ shared.probeId = none ∧ next.probeId = some probe) :
    Permitted next others (probe :: drawn) forgotten (request :: live) := by
  have unheld : probe ∉ live.filterMap ResponseUsage.probe := fun inside =>
    fresh (permitted.isDrawn probe inside)
  have guarded : ∀ other ∈ request :: live, other.activity.isSome := by
    intro other inside
    obtain rfl | inside := List.mem_cons.mp inside
    · obtain ⟨isActivity, -⟩ | ⟨isActivity, -⟩ := given <;> rw [isActivity] <;> rfl
    · exact permitted.guarded other inside
  obtain ⟨isActivity, same, unset⟩ | ⟨isActivity, unset, isSet⟩ := given
  · have isProbe : request.probe = none := by
      rw [ResponseUsage.probe, isActivity]
      rfl
    have probes : (request :: live).filterMap ResponseUsage.probe =
        live.filterMap ResponseUsage.probe := by rw [List.filterMap_cons, isProbe]
    have drew := permitted.draw unset
    refine ⟨counts, guarded, ?_, ?_, ?_, ?_⟩
    · rw [probes]
      exact drew.isDrawn
    · rw [probes]
      exact drew.distinct
    · rw [probes, same]
      exact drew.holds
    · rw [probes, same]
      exact drew.released
  · have isProbe : request.probe = some probe := by
      rw [ResponseUsage.probe, isActivity]
      rfl
    have probes : (request :: live).filterMap ResponseUsage.probe =
        probe :: live.filterMap ResponseUsage.probe := by rw [List.filterMap_cons, isProbe]
    refine ⟨counts, guarded, ?_, ?_, ?_, ?_⟩
    · intro other inside
      rw [probes] at inside
      obtain rfl | inside := List.mem_cons.mp inside
      · exact List.mem_cons_self
      · exact List.mem_cons_of_mem _ (permitted.isDrawn other inside)
    · rw [probes]
      exact List.nodup_cons.mpr ⟨unheld, permitted.distinct⟩
    · rw [probes, isSet]
      intro known other inside
      obtain rfl | inside := List.mem_cons.mp inside
      · rfl
      · have held := permitted.holds known other inside
        rw [unset] at held
        cases held
    · rw [probes, isSet]
      rintro other - free same
      cases same
      exact free List.mem_cons_self

/-- What other requests do leaves the permits. -/
theorem share (permitted : Permitted shared others drawn forgotten live) {later : Share}
    {forgot : Bool} (counts : Counts next later live.length)
    (spares : next.probeId = shared.probeId ∨
      (∀ probe, shared.probeId = some probe → probe ∉ drawn ∨ forgot = true) ∧
        ∀ probe, next.probeId = some probe → probe ∉ drawn) (worse : forgot = false → forgotten = false) :
    Permitted next later drawn forgot live := by
  refine ⟨counts, permitted.guarded, permitted.isDrawn, permitted.distinct, fun known probe inside => ?_,
    fun probe isDrawn free => ?_⟩
  · have held := permitted.holds (worse known) probe inside
    obtain same | ⟨before, -⟩ := spares
    · rw [same, held]
    · obtain fresh | forgot := before probe held
      · exact absurd (permitted.isDrawn probe inside) fresh
      · rw [known] at forgot
        cases forgot
  · obtain same | ⟨-, after⟩ := spares
    · rw [same]
      exact permitted.released probe isDrawn free
    · exact fun isSet => after probe isSet isDrawn

end Permitted

namespace Shared

variable {shared : Shared} {now : Instant} {probe : Uuid}

/-- A recovery permit is refused or given without a probe, and nothing changes, or it is given with
the probe that was drawn, where the target had none. -/
theorem acquireRecovery_cases (shared : Shared) (now : Instant) (probe : Uuid) :
    ((shared.acquireRecovery now probe).2 ≠ some (some probe) →
      ((shared.acquireRecovery now probe).2 = none ∨ (shared.acquireRecovery now probe).2 = some none) ∧
        shared.Steady (shared.acquireRecovery now probe).1) ∧
    ((shared.acquireRecovery now probe).2 = some (some probe) → shared.probeId = none ∧
      ∃ health, (shared.acquireRecovery now probe).1 =
        { shared with health := some health } ∧ health.probeId = some probe) := by
  unfold acquireRecovery
  cases held : shared.health with
  | none => exact ⟨fun _ => ⟨.inr rfl, .refl _⟩, fun given => by cases given⟩
  | some health =>
    have looked := probeId_circuitOpen health now
    have same : (health.circuitOpen now).2.probeId = shared.probeId := by
      rw [looked, probeId, held, Option.bind_some]
    have steady : shared.Steady { shared with health := some (health.circuitOpen now).2 } :=
      ⟨rfl, rfl, rfl, same⟩
    simp only
    split
    · exact ⟨fun _ => ⟨.inl rfl, steady⟩, fun given => by cases given⟩
    · split
      · split
        · exact ⟨fun _ => ⟨.inl rfl, steady⟩, fun given => by cases given⟩
        · rename_i unset
          refine ⟨fun refused => absurd rfl refused, fun _ => ⟨?_, _, rfl, rfl⟩⟩
          rw [← same]
          exact Option.not_isSome_iff_eq_none.mp unset
      · exact ⟨fun _ => ⟨.inr rfl, steady⟩, fun given => by cases given⟩

end Shared

/-- What an event of the client does. -/
inductive Asked (session : SessionUsage) (shared : Shared) (requestId probe : Uuid) (value : Value) :
    Shared × Except StatusCode SessionUsage → Prop
  /-- It creates nothing. -/
  | ignored (other : value.field "type" ≠ "response.create") :
      Asked session shared requestId probe value (shared, .ok session)
  /-- The request is rejected. -/
  | rejected {next : Shared} {status : StatusCode} (steady : shared.Steady next) :
      Asked session shared requestId probe value (next, .error status)
  /-- The request is accepted. -/
  | accepted {next : Shared} {request : ResponseUsage}
      (isCreate : value.field "type" = "response.create")
      (room : session.active.length + session.pending.length < maxRequests)
      (isId : request.requestId = requestId) (isLane : request.streamId = laneOf value)
      (isModel : request.model = (value.get "model").bind Value.asStr) (noTrace : request.trace = [])
      (counts : ∀ others held, Counts shared others held → Counts next others (held + 1))
      (given : request.activity = some ⟨none⟩ ∧ next.probeId = shared.probeId ∨
        request.activity = some ⟨some probe⟩ ∧ shared.probeId = none ∧ next.probeId = some probe) :
      Asked session shared requestId probe value
        (next, .ok { session with pending := session.pending ++ [request] })

/-- The guards of a request count as one more. -/
theorem counts_enter {shared next : Shared} {others : Share} {held : ℕ} {limit : Option ℕ}
    (counts : Counts shared others held) (acquired : shared.acquireProvider limit = some next) :
    Counts next.enter others (held + 1) := by
  unfold Shared.acquireProvider at acquired
  split at acquired
  · cases acquired
  · cases acquired
    refine ⟨?_, ?_, ?_⟩
    · change shared.inFlightRequests + 1 = _
      rw [counts.inFlight, Nat.add_assoc]
    · change shared.targetActivity + 1 = _
      rw [counts.target, Nat.add_assoc]
    · change shared.providerActivity + 1 = _
      rw [counts.provider, Nat.add_assoc]

/-- The guard of the provider leaves the probe. -/
theorem probeId_enter {shared next : Shared} {limit : Option ℕ}
    (acquired : shared.acquireProvider limit = some next) : next.enter.probeId = shared.probeId := by
  unfold Shared.acquireProvider at acquired
  split at acquired
  · cases acquired
  · cases acquired
    rfl

/-- What an event of the client does. -/
theorem asked_clientEvent (session : SessionUsage) (shared : Shared) (now : Instant) (probe : Uuid)
    (limit : Option ℕ) (requestId : Uuid) (value : Value) :
    Asked session shared requestId probe value
      (session.clientEvent shared now probe limit requestId value) := by
  unfold SessionUsage.clientEvent
  by_cases isCreate : value.field "type" = "response.create"
  swap
  · rw [if_pos isCreate]
    exact .ignored isCreate
  rw [if_neg (not_not.mpr isCreate)]
  by_cases full : maxRequests ≤ session.active.length + session.pending.length
  · rw [if_pos full]
    exact .rejected (.refl _)
  rw [if_neg full]
  have room := Nat.lt_of_not_le full
  obtain ⟨refused, given⟩ := shared.acquireRecovery_cases now probe
  by_cases isGiven : (shared.acquireRecovery now probe).2 = some (some probe)
  · obtain ⟨unset, health, isNext, isSet⟩ := given isGiven
    have split : shared.acquireRecovery now probe =
        ({ shared with health := some health }, some (some probe)) := by rw [← isNext, ← isGiven]
    rw [split]
    simp only
    cases acquired : { shared with health := some health }.acquireProvider limit with
    | none =>
      obtain ⟨inFlight, target, provider⟩ :=
        { shared with health := some health }.dropRecovery_counts (some probe)
      refine .rejected ⟨inFlight, target, provider, ?_⟩
      rw [Shared.probeId_dropRecovery, unset, if_pos ⟨Option.some_ne_none _, isSet⟩]
    | some next =>
      refine .accepted isCreate room rfl rfl rfl rfl (fun others held counts => ?_) (.inr ⟨rfl, unset, ?_⟩)
      · have counts : Counts { shared with health := some health } others held :=
          ⟨counts.inFlight, counts.target, counts.provider⟩
        exact counts_enter counts acquired
      · rw [probeId_enter acquired]
        exact isSet
  · obtain ⟨isNone | isNone, steady⟩ := refused isGiven
    · have split : shared.acquireRecovery now probe =
          ((shared.acquireRecovery now probe).1, none) := by rw [← isNone]
      rw [split]
      exact .rejected steady
    · have split : shared.acquireRecovery now probe =
          ((shared.acquireRecovery now probe).1, some none) := by rw [← isNone]
      rw [split]
      simp only
      cases acquired : (shared.acquireRecovery now probe).1.acquireProvider limit with
      | none => exact .rejected steady
      | some next =>
        refine .accepted isCreate room rfl rfl rfl rfl (fun others held counts => ?_) (.inl ⟨rfl, ?_⟩)
        · exact counts_enter (steady.counts counts) acquired
        · rw [probeId_enter acquired, steady.probe]

end Aipass.Accounting
