import Aipass.Proxy.Selection

/-!
# What the order of targets is

The targets tried are the eligible ones, each once. Before the bindings of sessions are looked at they
are sorted by stability, then by the key of the strategy, then by priority; a route that takes turns
has its best peers rotated besides. The target that a session is bound to comes first.
-/
namespace Aipass.Proxy

open RuntimeState

/-- The ban of a target is over. -/
def RuntimeState.closed (state : RuntimeState) (checks : Uuid → Instant) (target : ResolvedTarget) :
    Bool :=
  !(state.health target.config.id).any fun health =>
    (health.circuitOpen (checks target.config.id)).1

/-- A target may be used: it is enabled, has quota, is not banned and is not being probed. -/
def eligible (state : RuntimeState) (call : Call) (target : ResolvedTarget) : Bool :=
  target.config.enabled && hasQuota call target && state.closed call.checks target &&
    !state.probed target

/-- The stability rank of a target once a ban that is over is lifted. -/
def stability (state : RuntimeState) (call : Call) (target : ResolvedTarget) : ℕ :=
  (state.health target.config.id).elim 0 fun health =>
    (health.circuitOpen (call.checks target.config.id)).2.stabilityRank call.ranked

/-- The key of a strategy: the quota used, the time of the reset or the pace, the largest first. -/
def strategyKey (strategy : Server.RouteStrategy) (call : Call) (target : ResolvedTarget) : ℤ :=
  match strategy with
  | .quotaAware => (target.quotaUsage call.unix call.model).getD 5000
  | .resetSoonest => (target.quotaReset call.unix call.model).getD (2 ^ 64 - 1)
  | .quotaPace => (target.quotaPace call.unix call.model).elim 1 fun pace => -(pace : ℤ)
  | .fallback | .roundRobin => 0

/-- One target comes before another by stability, by the strategy and by priority. -/
def Precedes (rank : ResolvedTarget → ℕ) (key : ResolvedTarget → ℤ) (left right : ResolvedTarget) :
    Prop :=
  rank left < rank right ∨ rank left = rank right ∧
    (key left < key right ∨ key left = key right ∧ left.config.priority.toNat ≤ right.config.priority.toNat)

section Bans

variable {state : RuntimeState} {checks : Uuid → Instant}

/-- What asking for the bans of some targets leaves of the health of all. -/
def RuntimeState.lifted (state : RuntimeState) (checks : Uuid → Instant) (asked : List Uuid)
    (target : Uuid) : Option TargetHealth :=
  if target ∈ asked then (state.health target).map fun health =>
    (health.circuitOpen (checks target)).2
  else state.health target

/-- Asking for the ban of one target. -/
theorem circuitOpen_fields (state : RuntimeState) (now : Instant) (target : Uuid) :
    (state.circuitOpen now target).1 =
        ((state.health target).any fun health => (health.circuitOpen now).1) ∧
      (state.circuitOpen now target).2 = { state with
        health := Function.update state.health target
          ((state.health target).map fun health => (health.circuitOpen now).2) } := by
  rw [circuitOpen]
  cases found : state.health target with
  | none =>
    have kept : Function.update state.health target none = state.health := by
      rw [← found, Function.update_eq_self]
    simp [kept]
  | some health => simp

/-- The filter by bans keeps the targets that are not banned, and lifts the bans that are over. -/
theorem retainClosed_eq (state : RuntimeState) (checks : Uuid → Instant)
    {targets : List ResolvedTarget}
    (distinct : (targets.map fun target => target.config.id).Nodup) :
    retainClosed checks state targets = (targets.filter (state.closed checks), { state with
      health := state.lifted checks (targets.map fun target => target.config.id) }) := by
  induction targets generalizing state with
  | nil =>
    have kept : state.lifted checks [] = state.health := by
      funext target
      simp [lifted]
    simp [retainClosed, kept]
  | cons target rest ih =>
    rw [List.map_cons, List.nodup_cons] at distinct
    obtain ⟨banned, left⟩ := circuitOpen_fields state (checks target.config.id) target.config.id
    have elsewhere : ∀ id, id ≠ target.config.id →
        (state.circuitOpen (checks target.config.id) target.config.id).2.health id =
          state.health id := by
      intro id differ
      rw [left]
      exact Function.update_of_ne differ _ _
    have sameFilter : rest.filter
        ((state.circuitOpen (checks target.config.id) target.config.id).2.closed checks) =
          rest.filter (state.closed checks) := by
      apply List.filter_congr
      intro other listed
      have differ : other.config.id ≠ target.config.id := fun same =>
        distinct.1 (List.mem_map.mpr ⟨other, listed, same⟩)
      rw [closed, closed, elsewhere _ differ]
    have sameHealth : (state.circuitOpen (checks target.config.id) target.config.id).2.lifted
        checks (rest.map fun target => target.config.id) =
          state.lifted checks ((target :: rest).map fun target => target.config.id) := by
      funext id
      by_cases own : id = target.config.id
      · subst own
        rw [lifted, if_neg distinct.1, lifted, if_pos (by simp), left]
        exact Function.update_self _ _ _
      · simp [lifted, own, elsewhere id own]
    rw [retainClosed, ih _ distinct.2, sameFilter, sameHealth, List.filter_cons, banned, left]
    cases under : (state.health target.config.id).any fun health =>
        (health.circuitOpen (checks target.config.id)).1 with
    | true => simp [closed, under]
    | false => simp [closed, under]

end Bans

section Order

variable (state : RuntimeState) (route : ResolvedRoute) (call : Call)

/-- The targets of a route that are configured for use and have quota. -/
def configured : List ResolvedTarget :=
  (route.targets.map ResolvedTarget.overriding).filter fun target =>
    target.config.enabled && hasQuota call target

/-- The targets that may be used, in the order of the strategy. -/
def strategyOrder : List ResolvedTarget :=
  ((sortByStrategy route.strategy call
    (sortByKey (fun target => target.config.priority.toNat) (configured route call))).filter
      (state.closed call.checks)).filter fun target => !state.probed target

/-- The targets that may be used, sorted by stability, strategy and priority. -/
def preferenceOrder : List ResolvedTarget :=
  sortByKey (stability state call) (strategyOrder state route call)

/-- The state after the bans of the configured targets were asked for. -/
def asked : RuntimeState :=
  let targets := sortByStrategy route.strategy call
    (sortByKey (fun target => target.config.priority.toNat) (configured route call))
  let ids := targets.map fun target => target.config.id
  { state with health := state.lifted call.checks ids }

/-- The sort of a strategy loses and repeats nothing. -/
theorem sortByStrategy_perm (strategy : Server.RouteStrategy) (targets : List ResolvedTarget) :
    (sortByStrategy strategy call targets).Perm targets := by
  cases strategy with
  | quotaAware => exact sortByKey_perm _ _
  | resetSoonest => exact sortByKey_perm _ _
  | quotaPace => exact sortByKey_perm _ _
  | fallback => exact .refl _
  | roundRobin => exact .refl _

/-- The sort of a strategy puts a list sorted by priority in the order of its key. -/
theorem pairwise_sortByStrategy (strategy : Server.RouteStrategy) {targets : List ResolvedTarget}
    (distinct : targets.Nodup)
    (sorted : targets.Pairwise fun left right =>
      left.config.priority.toNat ≤ right.config.priority.toNat) :
    (sortByStrategy strategy call targets).Pairwise fun left right =>
      strategyKey strategy call left < strategyKey strategy call right ∨
        strategyKey strategy call left = strategyKey strategy call right ∧
          left.config.priority.toNat ≤ right.config.priority.toNat := by
  cases strategy with
  | fallback => exact sorted.imp fun lower => .inr ⟨rfl, lower⟩
  | roundRobin => exact sorted.imp fun lower => .inr ⟨rfl, lower⟩
  | quotaAware =>
    refine (pairwise_sortByKey _ distinct sorted).imp fun order => ?_
    simpa [strategyKey] using order
  | resetSoonest =>
    refine (pairwise_sortByKey _ distinct sorted).imp fun order => ?_
    simp only [strategyKey]
    omega
  | quotaPace =>
    refine (pairwise_sortByKey _ distinct sorted).imp fun {left right} order => ?_
    simp only [strategyKey]
    cases pace : left.quotaPace call.unix call.model with
    | none =>
      cases paceRight : right.quotaPace call.unix call.model with
      | none => simpa [reversePace, pace, paceRight] using order
      | some other =>
        simp only [reversePace, pace, paceRight, Option.elim, OrderDual.toDual_bot] at order
        rcases order with lower | ⟨same, _⟩
        · exact absurd lower not_top_lt
        · exact (WithBot.bot_ne_coe (congrArg OrderDual.ofDual same)).elim
    | some own =>
      cases paceRight : right.quotaPace call.unix call.model with
      | none =>
        simp only [Option.elim]
        omega
      | some other =>
        simp only [reversePace, pace, paceRight, Option.elim] at order ⊢
        rcases order with lower | ⟨same, priority⟩
        · have less : other < own := WithBot.coe_lt_coe.mp (OrderDual.toDual_lt_toDual.mp lower)
          omega
        · have equal : own = other := WithBot.coe_injective (OrderDual.toDual.injective same)
          omega

variable {state route call}

/-- Overriding the model of a target keeps its configuration. -/
@[simp] theorem overriding_config (target : ResolvedTarget) :
    target.overriding.config = target.config := by
  rw [ResolvedTarget.overriding]
  split
  · rfl
  · rfl

/-- The configured targets have distinct identifiers. -/
theorem configured_distinct (distinct : (route.targets.map fun target => target.config.id).Nodup) :
    ((configured route call).map fun target => target.config.id).Nodup := by
  have overridden : ((route.targets.map ResolvedTarget.overriding).map fun target =>
      target.config.id).Nodup := by
    rw [List.map_map]
    simpa [Function.comp_def] using distinct
  exact overridden.sublist (List.filter_sublist.map _)

/-- The targets that may be used are sorted by stability, strategy and priority. -/
theorem pairwise_preferenceOrder (state : RuntimeState) (call : Call)
    (distinct : (route.targets.map fun target => target.config.id).Nodup) :
    (preferenceOrder state route call).Pairwise
      (Precedes (stability state call) (strategyKey route.strategy call)) := by
  have nodup : (configured route call).Nodup := (configured_distinct distinct).of_map
  have unsorted : (configured route call).Pairwise fun _ _ => True :=
    List.pairwise_of_forall fun _ _ => trivial
  have byPriority := pairwise_sortByKey (fun target => target.config.priority.toNat) nodup unsorted
  have nodupPriority := (sortByKey_perm (fun target => target.config.priority.toNat)
    (configured route call)).nodup_iff.mpr nodup
  have byStrategy := pairwise_sortByStrategy call route.strategy nodupPriority
    (byPriority.imp fun order => order.elim Nat.le_of_lt fun same => same.1.le)
  have nodupStrategy := (sortByStrategy_perm call route.strategy _).nodup_iff.mpr nodupPriority
  exact pairwise_sortByKey (stability state call) ((nodupStrategy.filter _).filter _)
    ((byStrategy.filter _).filter _)

/-- The targets that may be used are the eligible ones, each once. -/
theorem preferenceOrder_perm : (preferenceOrder state route call).Perm
    ((route.targets.map ResolvedTarget.overriding).filter (eligible state call)) := by
  have sorted := (sortByStrategy_perm call route.strategy _).trans
    (sortByKey_perm (fun target => target.config.priority.toNat) (configured route call))
  have filtered := (sorted.filter (state.closed call.checks)).filter fun target =>
    !state.probed target
  have same : ((configured route call).filter (state.closed call.checks)).filter
      (fun target => !state.probed target) =
        (route.targets.map ResolvedTarget.overriding).filter (eligible state call) := by
    rw [configured, List.filter_filter, List.filter_filter]
    apply List.filter_congr
    intro target _
    rw [eligible]
    cases target.config.enabled && hasQuota call target <;>
      cases state.closed call.checks target <;> cases state.probed target <;> rfl
  exact (sortByKey_perm _ _).trans (same ▸ filtered)

/-- The targets that may be used have distinct identifiers. -/
theorem preferenceOrder_distinct
    (distinct : (route.targets.map fun target => target.config.id).Nodup) :
    ((preferenceOrder state route call).map fun target => target.config.id).Nodup := by
  have overridden : ((route.targets.map ResolvedTarget.overriding).map fun target =>
      target.config.id).Nodup := by
    rw [List.map_map]
    simpa [Function.comp_def] using distinct
  rw [(preferenceOrder_perm.map _).nodup_iff]
  exact overridden.sublist (List.filter_sublist.map _)

/-- A target that may be used was asked for its ban, which was over. -/
theorem mem_strategyOrder {target : ResolvedTarget}
    (listed : target ∈ strategyOrder state route call) :
    target.config.enabled = true ∧ state.closed call.checks target = true ∧
      (asked state route call).health target.config.id =
        (state.health target.config.id).map fun health =>
          (health.circuitOpen (call.checks target.config.id)).2 := by
  have kept := List.mem_filter.mp (List.mem_filter.mp listed).1
  have configured_ := (sortByKey_perm _ _).mem_iff.mp
    ((sortByStrategy_perm call route.strategy _).mem_iff.mp kept.1)
  have facts := (List.mem_filter.mp configured_).2
  rw [Bool.and_eq_true] at facts
  refine ⟨facts.1, kept.2, ?_⟩
  exact if_pos (List.mem_map.mpr ⟨target, kept.1, rfl⟩)

/-- Asking for a ban does not change whether a target is being probed. -/
theorem probed_lifted (checks : Uuid → Instant) (ids : List Uuid) (target : ResolvedTarget) :
    ({ state with health := state.lifted checks ids } : RuntimeState).probed target =
      state.probed target := by
  change ((state.lifted checks ids target.config.id).any fun health => health.probeId.isSome) =
    (state.health target.config.id).any fun health => health.probeId.isSome
  rw [lifted]
  by_cases listed : target.config.id ∈ ids
  · rw [if_pos listed]
    cases state.health target.config.id with
    | none => rfl
    | some health =>
      have kept := (TargetHealth.looked_circuitOpen (checks target.config.id) health).probe
      simp [kept]
  · rw [if_neg listed]

/-- The order before the bindings of sessions are looked at: the targets that may be used take their
turn. -/
theorem unboundRouteTargets_eq
    (distinct : (route.targets.map fun target => target.config.id).Nodup) :
    unboundRouteTargets state route call =
      takeTurn (asked state route call) route call.ranked (preferenceOrder state route call) := by
  have sorted := (sortByStrategy_perm call route.strategy _).trans
    (sortByKey_perm (fun target => target.config.priority.toNat) (configured route call))
  have distinctSorted := (sorted.map fun target => target.config.id).nodup_iff.mpr
    (configured_distinct distinct)
  have retained := retainClosed_eq state call.checks distinctSorted
  have ranks : sortByKey ((asked state route call).rank call.ranked)
      (strategyOrder state route call) = preferenceOrder state route call := by
    apply sortByKey_congr
    intro target listed
    rw [rank, stability, (mem_strategyOrder listed).2.2]
    cases state.health target.config.id <;> rfl
  have unprobed : (fun target => !(asked state route call).probed target) =
      fun target => !state.probed target := by
    funext target
    rw [asked, probed_lifted]
  have unfolded : unboundRouteTargets state route call =
      (fun kept : List ResolvedTarget × RuntimeState =>
        takeTurn kept.2 route call.ranked (sortByKey (kept.2.rank call.ranked)
          (kept.1.filter fun target => !kept.2.probed target)))
        (state.retainClosed call.checks (sortByStrategy route.strategy call
          (sortByKey (fun target => target.config.priority.toNat) (configured route call)))) := rfl
  rw [unfolded, retained]
  change takeTurn (asked state route call) route call.ranked
    (sortByKey ((asked state route call).rank call.ranked) (List.filter
      (fun target => !(asked state route call).probed target) _)) = _
  rw [unprobed]
  exact congrArg _ ranks

end Order

section Turns

/-- The best peers are the front of the targets. -/
theorem bestPeers_append (rank : ResolvedTarget → ℕ) (targets : List ResolvedTarget) :
    bestPeers rank targets ++ targets.drop (bestPeers rank targets).length = targets := by
  cases targets with
  | nil => rfl
  | cons first rest => exact List.prefix_iff_eq_append.mp (List.takeWhile_prefix _)

/-- The best peers are some of the targets, in their order. -/
theorem bestPeers_sublist (rank : ResolvedTarget → ℕ) (targets : List ResolvedTarget) :
    (bestPeers rank targets).Sublist targets := by
  have front := List.sublist_append_left (bestPeers rank targets)
    (targets.drop (bestPeers rank targets).length)
  rwa [bestPeers_append] at front

/-- The best peers have the rank of the first target. -/
theorem rank_bestPeers {rank : ResolvedTarget → ℕ} {first : ResolvedTarget}
    {rest : List ResolvedTarget} {target : ResolvedTarget}
    (listed : target ∈ bestPeers rank (first :: rest)) : rank target = rank first := by
  have taken : target ∈ (first :: rest).takeWhile fun target => decide (rank target = rank first) :=
    listed
  simpa using List.all_eq_true.mp List.all_takeWhile target taken

/-- The best peers depend on the ranks of the targets alone. -/
theorem bestPeers_congr {rank other : ResolvedTarget → ℕ} {targets : List ResolvedTarget}
    (same : ∀ target ∈ targets, rank target = other target) :
    bestPeers rank targets = bestPeers other targets := by
  cases targets with
  | nil => rfl
  | cons first rest =>
    have alike : ∀ target ∈ first :: rest, decide (rank target = rank first) =
        decide (other target = other first) := by
      intro target listed
      rw [same target listed, same first List.mem_cons_self]
    exact takeWhile_congr alike

/-- Lists sorted by rank stay so when their best peers are rotated. -/
theorem pairwise_rotate {rank : ResolvedTarget → ℕ} {targets : List ResolvedTarget}
    (sorted : targets.Pairwise fun left right => rank left ≤ rank right) (start : ℕ) :
    ((bestPeers rank targets).rotate start ++ targets.drop (bestPeers rank targets).length).Pairwise
      fun left right => rank left ≤ rank right := by
  cases targets with
  | nil => simp [bestPeers]
  | cons first rest =>
    have split := bestPeers_append rank (first :: rest)
    rw [← split, List.pairwise_append] at sorted
    rw [List.pairwise_append]
    refine ⟨?_, sorted.2.1, fun left inside right later => ?_⟩
    · rw [List.pairwise_iff_forall_sublist]
      intro left right pair
      have inside : ∀ target ∈ [left, right], rank target = rank first := fun target listed =>
        rank_bestPeers (List.mem_rotate.mp (pair.subset listed))
      exact (inside left (by simp)).le.trans (inside right (by simp)).ge
    · exact sorted.2.2 left (List.mem_rotate.mp inside) right later

/-- A turn: the best peers are rotated if the route takes turns. -/
theorem takeTurn_fst (state : RuntimeState) (route : ResolvedRoute) (now : Instant)
    (targets : List ResolvedTarget) :
    (takeTurn state route now targets).1 =
      if route.strategy = .roundRobin then
        (bestPeers (state.rank now) targets).rotate (weightedStartIndex (state.rrCounters route.id)
          (weights (bestPeers (state.rank now) targets))) ++
            targets.drop (bestPeers (state.rank now) targets).length
      else targets := by
  rw [takeTurn]
  by_cases turns : route.strategy = .roundRobin
  · cases targets with
    | nil => simp [bestPeers]
    | cons first rest => simp [turns, roundRobinStart]
  · simp [turns]

/-- A turn leaves the health of the targets and the bindings of the sessions. -/
theorem takeTurn_state (state : RuntimeState) (route : ResolvedRoute) (now : Instant)
    (targets : List ResolvedTarget) :
    (takeTurn state route now targets).2.health = state.health ∧
      (takeTurn state route now targets).2.affinities = state.affinities := by
  rw [takeTurn]
  split
  · exact ⟨rfl, rfl⟩
  · exact ⟨rfl, rfl⟩

/-- A turn loses and repeats nothing. -/
theorem takeTurn_perm (state : RuntimeState) (route : ResolvedRoute) (now : Instant)
    (targets : List ResolvedTarget) : (takeTurn state route now targets).1.Perm targets := by
  rw [takeTurn_fst]
  split
  · have rotated := (List.rotate_perm (bestPeers (state.rank now) targets)
      (weightedStartIndex (state.rrCounters route.id)
        (weights (bestPeers (state.rank now) targets)))).append_right
          (targets.drop (bestPeers (state.rank now) targets).length)
    rwa [bestPeers_append] at rotated
  · exact .refl _

end Turns

section Bindings

/-- Moving a target to the front loses and repeats nothing. -/
theorem promote_perm (preferred : Option Uuid) (targets : List ResolvedTarget) :
    (promote preferred targets).Perm targets := by
  rw [promote]
  split
  · exact .refl _
  · next target found =>
    obtain ⟨id, _, found⟩ := Option.bind_eq_some_iff.mp found
    obtain ⟨same, front, back, rfl, others⟩ := List.find?_eq_some_iff_append.mp found
    have own : target.config.id = id := by simpa using same
    have absent : ∀ other ∈ front, ¬(decide (other.config.id = target.config.id)) = true := by
      intro other listed
      simpa [own] using others other listed
    rw [List.eraseP_append_right _ absent, List.eraseP_cons_of_pos (by simp)]
    exact List.perm_middle.symm

/-- A ban that is over stays over. -/
theorem circuitOpen_again {health : TargetHealth} {now : Instant}
    (lifted : (health.circuitOpen now).1 = false) (later : Instant) :
    ((health.circuitOpen now).2).circuitOpen later = (false, (health.circuitOpen now).2) := by
  cases until_ : health.openUntil with
  | none => simp [TargetHealth.circuitOpen, until_]
  | some last =>
    by_cases early : now < last
    · simp [TargetHealth.circuitOpen, until_, early] at lifted
    · simp [TargetHealth.circuitOpen, until_, early]

/-- The target that a session is bound to comes first if it is among the targets. -/
theorem promote_affinityTarget {state : RuntimeState} {route : Uuid} {call : Call}
    {targets : List ResolvedTarget}
    (enabled : ∀ target ∈ targets, target.config.enabled = true)
    (settled : ∀ target ∈ targets, ∀ now, (state.circuitOpen now target.config.id).1 = false) :
    promote (affinityTarget state route call targets).1 targets =
      promote (state.binding route call.session call.bound) targets := by
  rw [affinityTarget, binding]
  cases named : call.session.bind normalizeSessionAffinityKey with
  | none => rfl
  | some session =>
    simp only [Option.bind_eq_bind, Option.bind_some]
    cases found : (state.affinities.filter fun entry =>
        call.bound - entry.2.lastUsed < sessionAffinityTtl).find? fun entry =>
          entry.1 = (route, session) with
    | none => rfl
    | some entry =>
      simp only [Option.bind_some]
      cases listed : targets.any fun target =>
          target.config.enabled && target.config.id = entry.2.targetId with
      | false =>
        have absent : targets.find? (fun target => target.config.id = entry.2.targetId) = none := by
          rw [List.find?_eq_none]
          intro target inside same
          have counted : (targets.any fun target =>
              target.config.enabled && target.config.id = entry.2.targetId) = true :=
            List.any_eq_true.mpr ⟨target, inside, by simpa [enabled target inside] using same⟩
          rw [listed] at counted
          cases counted
        simp [promote, absent]
      | true =>
        obtain ⟨target, inside, same⟩ := List.any_eq_true.mp listed
        rw [Bool.and_eq_true, decide_eq_true_eq] at same
        have lifted := settled target inside call.recheck
        rw [same.2] at lifted
        have overLive : (({ state with affinities := state.affinities.filter fun entry =>
            call.bound - entry.2.lastUsed < sessionAffinityTtl } : RuntimeState).circuitOpen
              call.recheck entry.2.targetId).1 = false := by
          rw [(circuitOpen_fields _ _ _).1] at lifted ⊢
          exact lifted
        simp [overLive]

end Bindings

section Exact

variable {state : RuntimeState} {route : ResolvedRoute} {call : Call}

/-- The targets of the preference order are those of the order of the strategy. -/
theorem mem_preferenceOrder {target : ResolvedTarget}
    (listed : target ∈ preferenceOrder state route call) : target ∈ strategyOrder state route call :=
  (sortByKey_perm _ _).mem_iff.mp listed

/-- Among targets that may be used, the ranks of the state are their stability. -/
theorem rank_asked {target : ResolvedTarget}
    (listed : target ∈ preferenceOrder state route call) :
    (asked state route call).rank call.ranked target = stability state call target := by
  rw [rank, stability, (mem_strategyOrder (mem_preferenceOrder listed)).2.2]
  cases state.health target.config.id <;> rfl

/-- The order before the bindings of sessions are looked at. -/
theorem unboundRouteTargets_fst (state : RuntimeState) (route : ResolvedRoute) (call : Call)
    (distinct : (route.targets.map fun target => target.config.id).Nodup) :
    (unboundRouteTargets state route call).1 =
      if route.strategy = .roundRobin then
        let peers := bestPeers (stability state call) (preferenceOrder state route call)
        peers.rotate (weightedStartIndex (state.rrCounters route.id) (weights peers)) ++
          (preferenceOrder state route call).drop peers.length
      else preferenceOrder state route call := by
  have peers : bestPeers ((asked state route call).rank call.ranked)
      (preferenceOrder state route call) =
        bestPeers (stability state call) (preferenceOrder state route call) :=
    bestPeers_congr fun target listed => rank_asked listed
  rw [unboundRouteTargets_eq distinct, takeTurn_fst, peers]
  rfl

/-- Targets that may be used and are turned are not under a ban. -/
theorem settled_unbound
    (distinct : (route.targets.map fun target => target.config.id).Nodup) {target : ResolvedTarget}
    (listed : target ∈ (unboundRouteTargets state route call).1) (now : Instant) :
    ((unboundRouteTargets state route call).2.circuitOpen now target.config.id).1 = false := by
  rw [unboundRouteTargets_eq distinct] at listed ⊢
  have inOrder := mem_preferenceOrder ((takeTurn_perm _ _ _ _).mem_iff.mp listed)
  obtain ⟨_, lifted, left⟩ := mem_strategyOrder inOrder
  rw [(circuitOpen_fields _ _ _).1, (takeTurn_state _ _ _ _).1, left]
  rw [closed, Bool.not_eq_true'] at lifted
  cases found : state.health target.config.id with
  | none => rfl
  | some health =>
    rw [found] at lifted
    simp [circuitOpen_again (by simpa using lifted)]

/-- The targets tried: the target of the session is moved to the front of the others. -/
theorem orderedRouteTargets_fst (state : RuntimeState) (route : ResolvedRoute) (call : Call)
    (distinct : (route.targets.map fun target => target.config.id).Nodup) :
    (orderedRouteTargetsForModel state route call).1 =
      promote (state.binding route.id call.session call.bound)
        (unboundRouteTargets state route call).1 := by
  have perm : (unboundRouteTargets state route call).1.Perm (preferenceOrder state route call) := by
    rw [unboundRouteTargets_eq distinct]
    exact takeTurn_perm _ _ _ _
  have enabled : ∀ target ∈ (unboundRouteTargets state route call).1,
      target.config.enabled = true := fun target listed =>
    (mem_strategyOrder (mem_preferenceOrder (perm.mem_iff.mp listed))).1
  have bound : (unboundRouteTargets state route call).2.binding route.id call.session call.bound =
      state.binding route.id call.session call.bound := by
    rw [binding, binding, unboundRouteTargets_eq distinct, (takeTurn_state _ _ _ _).2]
    rfl
  rw [← bound]
  exact promote_affinityTarget enabled fun target listed => settled_unbound distinct listed

/-- The targets of a call in order, before the one that its session is bound to comes first: the
eligible ones, each once, by stability, strategy and priority, with the best peers rotated where the
route takes turns. -/
structure Ordered (state : RuntimeState) (route : ResolvedRoute) (call : Call)
    (targets : List ResolvedTarget) : Prop where
  eligible : targets.Perm ((route.targets.map ResolvedTarget.overriding).filter (eligible state call))
  ranked : targets.Pairwise fun left right => stability state call left ≤ stability state call right
  sorted : route.strategy ≠ .roundRobin →
    targets.Pairwise (Precedes (stability state call) (strategyKey route.strategy call))
  rotated : route.strategy = .roundRobin → ∃ order start,
    order = (unboundRouteTargets state { route with strategy := .fallback } call).1 ∧
    order.Pairwise (Precedes (stability state call) fun _ => 0) ∧
    targets = (bestPeers (stability state call) order).rotate start ++
      order.drop (bestPeers (stability state call) order).length

/-- The targets of a call are in order before the bindings of sessions are looked at. -/
theorem ordered_unbound (state : RuntimeState) (route : ResolvedRoute) (call : Call)
    (distinct : (route.targets.map fun target => target.config.id).Nodup) :
    Ordered state route call (unboundRouteTargets state route call).1 := by
  have whole := unboundRouteTargets_fst state route call distinct
  have precedes := pairwise_preferenceOrder state call distinct
  have ranked : (preferenceOrder state route call).Pairwise fun left right =>
      stability state call left ≤ stability state call right :=
    precedes.imp fun order => order.elim Nat.le_of_lt fun same => same.1.le
  have perm : (unboundRouteTargets state route call).1.Perm (preferenceOrder state route call) := by
    rw [unboundRouteTargets_eq distinct]
    exact takeTurn_perm _ _ _ _
  constructor
  case eligible => exact perm.trans preferenceOrder_perm
  case ranked =>
    rw [whole]
    split
    · exact pairwise_rotate ranked _
    · exact ranked
  case sorted =>
    intro other
    rw [whole, if_neg other]
    exact precedes
  case rotated =>
    intro turns
    have same : preferenceOrder state { route with strategy := .fallback } call =
        preferenceOrder state route call := by
      rw [preferenceOrder, preferenceOrder, strategyOrder, strategyOrder, turns]
      rfl
    have fallback := unboundRouteTargets_fst state { route with strategy := .fallback } call distinct
    rw [if_neg (by simp), same] at fallback
    refine ⟨preferenceOrder state route call, weightedStartIndex (state.rrCounters route.id)
      (weights (bestPeers (stability state call) (preferenceOrder state route call))),
      fallback.symm, ?_, ?_⟩
    · rw [turns] at precedes
      exact precedes
    · rw [whole, if_pos turns]

end Exact

end Aipass.Proxy
