import Aipass.Proxy.Ordering

/-!
# The share of traffic that a target gets

A route that takes turns counts its calls. As long as the same peers are the best and no session is
bound, as many calls in a row as their weights sum to put each of them first as often as its weight
says.
-/
namespace Aipass.Proxy

/-- The targets tried by calls of one route in a row. -/
def tries (route : ResolvedRoute) : RuntimeState → List Call → List (List ResolvedTarget)
  | _, [] => []
  | state, call :: rest =>
    let (targets, next) := orderedRouteTargetsForModel state route call
    targets :: tries route next rest

/-- Calls of one route in a row that meet the same best peers, and no session that is bound. -/
def Steady (route : ResolvedRoute) (peers : List ResolvedTarget) :
    RuntimeState → List Call → Prop
  | _, [] => True
  | state, call :: rest =>
    state.binding route.id call.session call.bound = none ∧
      bestPeers (stability state call) (preferenceOrder state route call) = peers ∧
      Steady route peers (orderedRouteTargetsForModel state route call).2 rest

variable {route : ResolvedRoute}

/-- Looking at the bindings of sessions leaves the counters. -/
theorem affinityTarget_counters (state : RuntimeState) (id : Uuid) (call : Call)
    (targets : List ResolvedTarget) :
    (affinityTarget state id call targets).2.rrCounters = state.rrCounters := by
  have kept : ∀ (state : RuntimeState) now target,
      (state.circuitOpen now target).2.rrCounters = state.rrCounters := by
    intro state now target
    rw [(circuitOpen_fields state now target).2]
  rw [affinityTarget]
  cases call.session.bind normalizeSessionAffinityKey with
  | none => rfl
  | some session =>
    simp only
    split
    · rfl
    · split
      · rfl
      · split
        · exact kept _ _ _
        · exact kept _ _ _

/-- A call of a route that takes turns counts itself. -/
theorem orderedRouteTargets_counter (state : RuntimeState) (call : Call)
    (distinct : (route.targets.map fun target => target.config.id).Nodup)
    (turns : route.strategy = .roundRobin) (usable : preferenceOrder state route call ≠ []) :
    (orderedRouteTargetsForModel state route call).2.rrCounters route.id =
      (state.rrCounters route.id + 1) % 2 ^ 64 := by
  have counted : (unboundRouteTargets state route call).2.rrCounters route.id =
      (state.rrCounters route.id + 1) % 2 ^ 64 := by
    rw [unboundRouteTargets_eq distinct, takeTurn, if_pos ⟨turns, usable⟩]
    exact Function.update_self _ _ _
  rw [← counted]
  exact congrFun (affinityTarget_counters _ _ _ _) _

/-- Best peers with a positive weight are usable targets. -/
theorem preferenceOrder_ne_nil {state : RuntimeState} {call : Call} {peers : List ResolvedTarget}
    (best : bestPeers (stability state call) (preferenceOrder state route call) = peers)
    (positive : 0 < (weights peers).sum) : preferenceOrder state route call ≠ [] := by
  intro none_
  rw [none_] at best
  subst best
  exact absurd positive (Nat.lt_irrefl 0)

/-- The first target of a call that finds no bound session is one of the best peers. -/
theorem head_orderedRouteTargets (state : RuntimeState) (call : Call)
    (distinct : (route.targets.map fun target => target.config.id).Nodup)
    (turns : route.strategy = .roundRobin)
    (unbound : state.binding route.id call.session call.bound = none)
    {peers : List ResolvedTarget}
    (best : bestPeers (stability state call) (preferenceOrder state route call) = peers)
    (positive : 0 < (weights peers).sum) :
    (orderedRouteTargetsForModel state route call).1.head? =
      peers[walk (state.rrCounters route.id % (weights peers).sum) (weights peers)]? := by
  have inside : walk (state.rrCounters route.id % (weights peers).sum) (weights peers) <
      peers.length := by
    simpa [weights] using walk_lt (Nat.mod_lt _ positive)
  have weighed : weights peers ≠ [] := by
    intro none_
    rw [none_] at positive
    exact absurd positive (by decide)
  have start : weightedStartIndex (state.rrCounters route.id) (weights peers) =
      walk (state.rrCounters route.id % (weights peers).sum) (weights peers) := by
    rw [weightedStartIndex, if_neg weighed, if_neg positive.ne']
  have tried : (orderedRouteTargetsForModel state route call).1 =
      peers.rotate (walk (state.rrCounters route.id % (weights peers).sum) (weights peers)) ++
        (preferenceOrder state route call).drop peers.length := by
    rw [orderedRouteTargets_fst state route call distinct, unbound,
      unboundRouteTargets_fst state route call distinct, if_pos turns]
    simp only [best, start]
    rfl
  rw [tried, List.head?_append, List.head?_rotate inside, List.getElem?_eq_getElem inside]
  rfl

/-- The first targets of calls in a row are those that the counter walks to. -/
theorem heads_tries (distinct : (route.targets.map fun target => target.config.id).Nodup)
    (turns : route.strategy = .roundRobin) {peers : List ResolvedTarget}
    (positive : 0 < (weights peers).sum) {state : RuntimeState} {calls : List Call}
    (steady : Steady route peers state calls)
    (bounded : state.rrCounters route.id + calls.length ≤ 2 ^ 64) :
    (tries route state calls).map List.head? = (List.range calls.length).map fun turn =>
      peers[walk ((state.rrCounters route.id + turn) % (weights peers).sum) (weights peers)]? := by
  induction calls generalizing state with
  | nil => rfl
  | cons call rest ih =>
    obtain ⟨unbound, best, later⟩ := steady
    rw [List.length_cons] at bounded
    have counted := orderedRouteTargets_counter state call distinct turns
      (preferenceOrder_ne_nil best positive)
    cases rest with
    | nil => simp [tries, head_orderedRouteTargets state call distinct turns unbound best positive]
    | cons second others =>
      rw [List.length_cons] at bounded
      have next : (orderedRouteTargetsForModel state route call).2.rrCounters route.id =
          state.rrCounters route.id + 1 := by
        rw [counted]
        exact Nat.mod_eq_of_lt (by omega)
      have tail := ih later (by rw [next, List.length_cons]; omega)
      have first := head_orderedRouteTargets state call distinct turns unbound best positive
      have shifted : ∀ turn, state.rrCounters route.id + 1 + turn =
          state.rrCounters route.id + (turn + 1) := fun turn => by omega
      rw [next] at tail
      simp only [shifted] at tail
      rw [tries, List.map_cons, tail, first, List.length_cons (a := call),
        List.range_succ_eq_map, List.map_cons, List.map_map]
      rfl

/-- The best peers are different targets. -/
theorem nodup_of_steady (distinct : (route.targets.map fun target => target.config.id).Nodup)
    {peers : List ResolvedTarget} {state : RuntimeState} {calls : List Call}
    (steady : Steady route peers state calls) (called : 0 < calls.length) : peers.Nodup := by
  cases calls with
  | nil => exact absurd called (Nat.lt_irrefl 0)
  | cons call rest =>
    have order : (preferenceOrder state route call).Nodup := (preferenceOrder_distinct distinct).of_map
    rw [← steady.2.1]
    exact order.sublist (bestPeers_sublist _ _)

/-- Each of the best peers comes first as often as its weight says. -/
theorem count_first (distinct : (route.targets.map fun target => target.config.id).Nodup)
    (turns : route.strategy = .roundRobin) {peers : List ResolvedTarget} {state : RuntimeState}
    {calls : List Call} (steady : Steady route peers state calls)
    (whole : calls.length = (weights peers).sum) (positive : 0 < (weights peers).sum)
    (bounded : state.rrCounters route.id + calls.length ≤ 2 ^ 64) {peer : ResolvedTarget}
    (best : peer ∈ peers) :
    (tries route state calls).countP (fun targets => targets.head? = some peer) =
      peer.config.weight.toNat := by
  have nodup : peers.Nodup := nodup_of_steady distinct steady (by omega)
  obtain ⟨index, inside, rfl⟩ := List.getElem_of_mem best
  have within : index < (weights peers).length := by simpa [weights] using inside
  have turn : ∀ turn, (peers[walk ((state.rrCounters route.id + turn) % (weights peers).sum)
      (weights peers)]? = some peers[index]) ↔
        walk ((state.rrCounters route.id + turn) % (weights peers).sum) (weights peers) = index := by
    intro turn
    have bound : walk ((state.rrCounters route.id + turn) % (weights peers).sum) (weights peers) <
        peers.length := by
      simpa [weights] using walk_lt (Nat.mod_lt (state.rrCounters route.id + turn) positive)
    rw [List.getElem?_eq_getElem bound, Option.some_inj, nodup.getElem_inj_iff]
  calc (tries route state calls).countP (fun targets => targets.head? = some peers[index])
      = ((tries route state calls).map List.head?).countP fun first => first = some peers[index] := by
        rw [List.countP_map]
        rfl
    _ = (weights peers).sum.count fun turn =>
          walk ((state.rrCounters route.id + turn) % (weights peers).sum) (weights peers) = index := by
        rw [heads_tries distinct turns positive steady bounded, List.countP_map, Nat.count, whole]
        apply List.countP_congr
        intro position _
        simpa using turn position
    _ = (weights peers)[index] := count_turns _ _ _ within
    _ = peers[index].config.weight.toNat := by simp [weights]

/-- A ban that was lifted stays lifted. -/
theorem circuitOpen_idem (health : TargetHealth) (now : Instant) :
    ((health.circuitOpen now).2).circuitOpen now = health.circuitOpen now := by
  cases under : (health.circuitOpen now).1 with
  | false =>
    rw [circuitOpen_again under]
    exact Prod.ext under.symm rfl
  | true =>
    have kept : (health.circuitOpen now).2 = health := by
      cases until_ : health.openUntil with
      | none => simp [TargetHealth.circuitOpen, until_]
      | some last =>
        by_cases early : now < last
        · simp [TargetHealth.circuitOpen, until_, early]
        · simp [TargetHealth.circuitOpen, until_, early] at under
    rw [kept]

/-- The same call meets the same targets again once bans that are over are lifted. -/
theorem preferenceOrder_lifted {state next : RuntimeState} {call : Call} {ids : List Uuid}
    (lifted : next.health = state.lifted call.checks ids) :
    stability next call = stability state call ∧
      preferenceOrder next route call = preferenceOrder state route call := by
  have again : ∀ target, ((next.health target).map fun health =>
      health.circuitOpen (call.checks target)) = (state.health target).map fun health =>
        health.circuitOpen (call.checks target) := by
    intro target
    rw [lifted, RuntimeState.lifted]
    split
    · rw [Option.map_map]
      congr 1
      funext health
      exact circuitOpen_idem health _
    · rfl
  have ranks : stability next call = stability state call := by
    funext target
    have same := congrArg (fun looked : Option (Bool × TargetHealth) =>
      looked.elim 0 fun looked => looked.2.stabilityRank call.ranked) (again target.config.id)
    simpa [stability, Option.elim_map, Function.comp_def] using same
  have bans : next.closed call.checks = state.closed call.checks := by
    funext target
    have same := congrArg (fun looked : Option (Bool × TargetHealth) =>
      !looked.any fun looked => looked.1) (again target.config.id)
    simpa [RuntimeState.closed, Option.any_map] using same
  have probes : ∀ target, next.probed target = state.probed target := by
    intro target
    have kept := @probed_lifted state call.checks ids target
    rw [← lifted] at kept
    exact kept
  refine ⟨ranks, ?_⟩
  rw [preferenceOrder, preferenceOrder, ranks, strategyOrder, strategyOrder, bans]
  simp only [probes]

/-- A call that finds no bound session lifts the bans that are over, and binds no session. -/
theorem after_unbound {state : RuntimeState} {call : Call}
    (distinct : (route.targets.map fun target => target.config.id).Nodup)
    (unbound : state.binding route.id call.session call.bound = none) :
    (∃ ids, (orderedRouteTargetsForModel state route call).2.health =
        state.lifted call.checks ids) ∧
      (orderedRouteTargetsForModel state route call).2.binding route.id call.session call.bound =
        none := by
  have turned := takeTurn_state (asked state route call) route call.ranked
    (preferenceOrder state route call)
  rw [← unboundRouteTargets_eq distinct] at turned
  change (∃ ids, (affinityTarget (unboundRouteTargets state route call).2 _ call _).2.health = _) ∧
    (affinityTarget (unboundRouteTargets state route call).2 _ call _).2.binding _ _ _ = none
  rw [affinityTarget, turned.2]
  rw [RuntimeState.binding] at unbound
  cases named : call.session.bind normalizeSessionAffinityKey with
  | none => exact ⟨⟨_, turned.1⟩, by simp [RuntimeState.binding, named]⟩
  | some session =>
    simp only [named, Option.bind_eq_bind, Option.bind_some] at unbound
    rw [Option.bind_eq_none_iff] at unbound
    have missing : ((asked state route call).affinities.filter fun entry =>
        call.bound - entry.2.lastUsed < sessionAffinityTtl).find? (fun entry =>
          entry.1 = (route.id, session)) = none :=
      Option.eq_none_iff_forall_ne_some.mpr fun entry found =>
        absurd (unbound entry found) (Option.some_ne_none _)
    simp only [missing]
    refine ⟨⟨_, turned.1⟩, ?_⟩
    rw [RuntimeState.binding, named]
    simp only [Option.bind_eq_bind, Option.bind_some, List.filter_filter, Bool.and_self, missing]
    rfl

/-- The same call again and again, without a bound session, meets the same best peers. -/
theorem steady_replicate (distinct : (route.targets.map fun target => target.config.id).Nodup)
    {state : RuntimeState} {call : Call}
    (unbound : state.binding route.id call.session call.bound = none) (count : ℕ) :
    Steady route (bestPeers (stability state call) (preferenceOrder state route call)) state
      (List.replicate count call) := by
  induction count generalizing state with
  | zero => trivial
  | succ count ih =>
    obtain ⟨⟨ids, lifted⟩, again⟩ := after_unbound distinct unbound
    have same := @preferenceOrder_lifted route _ _ _ _ lifted
    have later := ih again
    rw [same.1, same.2] at later
    exact ⟨unbound, rfl, later⟩

/-- A target that may be used comes first if the session is bound to it. -/
theorem head_promote {targets : List ResolvedTarget}
    (distinct : (targets.map fun target => target.config.id).Nodup) {target : ResolvedTarget}
    (listed : target ∈ targets) :
    (promote (some target.config.id) targets).head? = some target := by
  have found : targets.find? (fun other => other.config.id = target.config.id) = some target := by
    cases sought : targets.find? fun other => decide (other.config.id = target.config.id) with
    | none =>
      have absent := List.find?_eq_none.mp sought target listed
      simp at absent
    | some other =>
      have same : other.config.id = target.config.id := by simpa using List.find?_some sought
      rw [List.inj_on_of_nodup_map distinct (List.mem_of_find?_eq_some sought) listed same]
  simp [promote, found]

/-- The targets tried are exactly the eligible ones, in order, and a target gets its share: over as
many calls in a row as the weights of the best peers sum to, each of them comes first as often as its
weight says. The same call again and again meets the same best peers. -/
theorem orderedRouteTargets_exact (state : RuntimeState) (route : ResolvedRoute) (call : Call)
    (distinct : (route.targets.map fun target => target.config.id).Nodup) :
    (∃ targets, Ordered state route call targets ∧
      (orderedRouteTargetsForModel state route call).1 =
        promote (state.binding route.id call.session call.bound) targets ∧
      (orderedRouteTargetsForModel state route call).1.Perm
        ((route.targets.map ResolvedTarget.overriding).filter (eligible state call)) ∧
      ∀ target ∈ targets,
        state.binding route.id call.session call.bound = some target.config.id →
          (orderedRouteTargetsForModel state route call).1.head? = some target) ∧
    (route.strategy = .roundRobin → ∀ peers calls, Steady route peers state calls →
      0 < (weights peers).sum → calls.length = (weights peers).sum →
      state.rrCounters route.id + calls.length ≤ 2 ^ 64 → ∀ peer ∈ peers,
        (tries route state calls).countP (fun targets => targets.head? = some peer) =
          peer.config.weight.toNat) ∧
    (state.binding route.id call.session call.bound = none → ∀ count,
      Steady route (bestPeers (stability state call) (preferenceOrder state route call)) state
        (List.replicate count call)) := by
  have first := orderedRouteTargets_fst state route call distinct
  have ordered := ordered_unbound state route call distinct
  have unbound : ((unboundRouteTargets state route call).1.map fun target =>
      target.config.id).Nodup := by
    have perm := ordered.eligible.trans preferenceOrder_perm.symm
    exact (perm.map _).nodup_iff.mpr (preferenceOrder_distinct distinct)
  refine ⟨⟨_, ordered, first, ?_, ?_⟩, ?_, ?_⟩
  · rw [first]
    exact (promote_perm _ _).trans ordered.eligible
  · intro target listed bound
    rw [first, bound]
    exact head_promote unbound listed
  · intro turns peers calls steady positive whole bounded peer best
    exact count_first distinct turns steady whole positive bounded best
  · intro free count
    exact steady_replicate distinct free count

/-- A target of a route with the given weight. -/
def weighing (id : ℕ) (weight : UInt32) : ResolvedTarget where
  config := {
    id := id
    providerEntryId := 9
    secretId := ""
    label := ""
    baseUrl := ""
    authScheme := ""
    headers := []
    group := none
    priority := 0
    weight := weight
    enabled := true
    protocol := none
    preferWs := false
    model := none }
  modelOverride := none
  quota := []

/-- Among targets of weight one, two and nought, the second comes first in two of three calls. -/
theorem weight_two_first_twice :
    (tries ⟨1, .roundRobin, [weighing 1 1, weighing 2 2, weighing 3 0]⟩
      ⟨fun _ => none, fun _ => 7, []⟩
        (List.replicate 3 ⟨none, none, 0, fun _ => 0, 0, 0, 0⟩)).countP
          (fun targets => targets.head? = some (weighing 2 2)) = 2 := by
  have exact_ := orderedRouteTargets_exact ⟨fun _ => none, fun _ => 7, []⟩
    ⟨1, .roundRobin, [weighing 1 1, weighing 2 2, weighing 3 0]⟩
    ⟨none, none, 0, fun _ => 0, 0, 0, 0⟩ (by decide)
  exact exact_.2.1 rfl _ _ (exact_.2.2 rfl 3) (by decide) (by decide) (by decide) (weighing 2 2)
    (by decide)

end Aipass.Proxy
