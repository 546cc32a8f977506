import Aipass.Base.Sorting
import Aipass.Proxy.Affinity
import Aipass.Server.Providers

/-!
# The order in which the targets of a route are tried

The targets of a route are filtered by what they are configured for, by their quota and by their
health, sorted by priority, by the strategy of the route and by their stability, turned round by
weight where the route takes turns, and the target that a session is bound to is moved to the front.
A call takes the readings of the clock that it meets.
-/
namespace Aipass.Proxy

/-- `QuotaWindow`. -/
structure QuotaWindow where
  modelFamily : Option String
  models : Option (List String)
  notModels : List String
  usedBasisPoints : UInt16
  spanSeconds : Option UInt64
  observedAt : ℕ
  resetsAt : Option ℕ
deriving DecidableEq

/-- `QuotaWindow::current_usage`. -/
def QuotaWindow.currentUsage (window : QuotaWindow) (now : ℕ) : Option ℕ :=
  if window.observedAt ≤ now ∧ now - window.observedAt ≤ 300 ∧
      window.resetsAt.all fun reset => now < reset then
    some window.usedBasisPoints.toNat
  else none

/-- `ResolvedTarget`, as far as the order depends on it. -/
structure ResolvedTarget where
  config : Server.ProxyTargetConfig
  modelOverride : Option String
  quota : List QuotaWindow
deriving DecidableEq

/-- A name that a model family goes by. -/
def familyMatches (model family : String) : Bool :=
  Server.eqIgnoreAsciiCase model family ||
    (Text.stripPrefix "claude-".toList (model.toList.map Char.toLower)).any fun id =>
      (id.splitOn '-').any fun part => Server.eqIgnoreAsciiCase (String.ofList part) family

/-- A window applies to the model of a request. -/
def QuotaWindow.applies (window : QuotaWindow) : Option String → Bool
  | none => window.models.isNone && window.modelFamily.isNone && window.notModels.isEmpty
  | some model =>
    window.modelFamily.all (familyMatches model) &&
      window.models.all (fun models => models.any fun id => Server.eqIgnoreAsciiCase id model) &&
      !window.notModels.any fun id => Server.eqIgnoreAsciiCase id model

namespace ResolvedTarget

/-- `matching_quota`. -/
def matchingQuota (target : ResolvedTarget) (model : Option String) : List QuotaWindow :=
  target.quota.filter fun window => window.applies (target.modelOverride.or model)

/-- `quota_usage`. -/
def quotaUsage (target : ResolvedTarget) (now : ℕ) (model : Option String) : Option ℕ :=
  ((target.matchingQuota model).filterMap fun window => window.currentUsage now).max?

/-- `quota_reset`. -/
def quotaReset (target : ResolvedTarget) (now : ℕ) (model : Option String) : Option ℕ :=
  (((target.matchingQuota model).filter fun window =>
    (window.currentUsage now).any fun used => 0 < used).filterMap QuotaWindow.resetsAt).min?

/-- The allowance per hour that a weekly window leaves. -/
def pace (now : ℕ) (window : QuotaWindow) : Option ℕ := do
  let used ← window.currentUsage now
  let reset ← window.resetsAt
  if reset < now then none
  some ((10000 - used) * 3600 * 1000 / max (reset - now) 1)

/-- `quota_pace`. -/
def quotaPace (target : ResolvedTarget) (now : ℕ) (model : Option String) : Option ℕ :=
  (((target.matchingQuota model).filter fun window =>
    window.spanSeconds = some 604800).filterMap (pace now)).min?

/-- A target with a model of its own overrides that of the request. -/
def overriding (target : ResolvedTarget) : ResolvedTarget :=
  if target.config.model.isSome then { target with modelOverride := target.config.model } else target

end ResolvedTarget

/-- `ResolvedRoute`, as far as the order depends on it. -/
structure ResolvedRoute where
  id : Uuid
  strategy : Server.RouteStrategy
  targets : List ResolvedTarget

/-- `RuntimeState`, as far as the order depends on it. -/
structure RuntimeState where
  health : Uuid → Option TargetHealth
  rrCounters : Uuid → ℕ
  affinities : Affinities

/-- A call: the session and the model it is for, and the readings of the clock it meets. -/
structure Call where
  session : Option String
  model : Option String
  /-- The seconds since the epoch. -/
  unix : ℕ
  /-- When the ban of a target is asked for. -/
  checks : Uuid → Instant
  /-- When the stability of the targets is compared. -/
  ranked : Instant
  /-- When the bindings of sessions are looked at. -/
  bound : Instant
  /-- When the ban of the bound target is asked for once more. -/
  recheck : Instant

namespace RuntimeState

/-- `circuit_open`. -/
def circuitOpen (state : RuntimeState) (now : Instant) (target : Uuid) : Bool × RuntimeState :=
  match state.health target with
  | none => (false, state)
  | some health =>
    let looked := health.circuitOpen now
    (looked.1, { state with health := Function.update state.health target (some looked.2) })

/-- The filter that drops targets under a ban. -/
def retainClosed (checks : Uuid → Instant) :
    RuntimeState → List ResolvedTarget → List ResolvedTarget × RuntimeState
  | state, [] => ([], state)
  | state, target :: rest =>
    let looked := state.circuitOpen (checks target.config.id) target.config.id
    let (kept, state) := retainClosed checks looked.2 rest
    (if looked.1 then kept else target :: kept, state)

/-- A target is being probed. -/
def probed (state : RuntimeState) (target : ResolvedTarget) : Bool :=
  (state.health target.config.id).any fun health => health.probeId.isSome

/-- The stability rank of a target. -/
def rank (state : RuntimeState) (now : Instant) (target : ResolvedTarget) : ℕ :=
  (state.health target.config.id).elim 0 fun health => health.stabilityRank now

end RuntimeState

/-- `weighted_start_index`. -/
def weightedStartIndex (counter : ℕ) (weights : List ℕ) : ℕ :=
  if weights = [] then 0
  else if weights.sum = 0 then counter % weights.length
  else walk (counter % weights.sum) weights

/-- `round_robin_start`; the counter has 64 bits. -/
def roundRobinStart (state : RuntimeState) (route : Uuid) (weights : List ℕ) : ℕ × RuntimeState :=
  let counter := state.rrCounters route
  (weightedStartIndex counter weights, { state with
    rrCounters := Function.update state.rrCounters route ((counter + 1) % 2 ^ 64) })

/-- The targets at the front that have one rank. -/
def bestPeers (rank : ResolvedTarget → ℕ) (targets : List ResolvedTarget) : List ResolvedTarget :=
  match targets with
  | [] => []
  | first :: _ => targets.takeWhile fun target => rank target = rank first

/-- The weights of targets. -/
def weights (targets : List ResolvedTarget) : List ℕ :=
  targets.map fun target => target.config.weight.toNat

/-- The turn of a route that takes turns: the best peers are rotated. -/
def takeTurn (state : RuntimeState) (route : ResolvedRoute) (now : Instant)
    (targets : List ResolvedTarget) : List ResolvedTarget × RuntimeState :=
  if route.strategy = .roundRobin ∧ targets ≠ [] then
    let peers := bestPeers (state.rank now) targets
    let (start, state) := roundRobinStart state route.id (weights peers)
    (peers.rotate start ++ targets.drop peers.length, state)
  else (targets, state)

/-- The binding of a session, unless it is too old. -/
def RuntimeState.binding (state : RuntimeState) (route : Uuid) (session : Option String)
    (now : Instant) : Option Uuid := do
  let session ← session.bind normalizeSessionAffinityKey
  let entry ← (state.affinities.filter fun entry =>
    now - entry.2.lastUsed < sessionAffinityTtl).find? fun entry => entry.1 = (route, session)
  some entry.2.targetId

/-- `affinity_target`. -/
def affinityTarget (state : RuntimeState) (route : Uuid) (call : Call)
    (targets : List ResolvedTarget) : Option Uuid × RuntimeState :=
  match call.session.bind normalizeSessionAffinityKey with
  | none => (none, state)
  | some session =>
    let live := state.affinities.filter fun entry =>
      call.bound - entry.2.lastUsed < sessionAffinityTtl
    match live.find? fun entry => entry.1 = (route, session) with
    | none => (none, { state with affinities := live })
    | some (_, affinity) =>
      let looked := ({ state with affinities := live }).circuitOpen call.recheck affinity.targetId
      if !targets.any (fun target =>
          target.config.enabled && target.config.id = affinity.targetId) then
        (none, { state with affinities := live.filter fun entry => entry.1 ≠ (route, session) })
      else if looked.1 then
        (none, { looked.2 with affinities := live.filter fun entry => entry.1 ≠ (route, session) })
      else (some affinity.targetId, { looked.2 with affinities := live.map fun entry =>
        if entry.1 = (route, session) then (entry.1, { entry.2 with lastUsed := call.bound })
        else entry })

/-- Move a target to the front. -/
def promote (preferred : Option Uuid) (targets : List ResolvedTarget) : List ResolvedTarget :=
  match preferred.bind fun id => targets.find? fun target => target.config.id = id with
  | none => targets
  | some target => target :: targets.eraseP fun other => other.config.id = target.config.id

/-- A target may still be used for a model. -/
def hasQuota (call : Call) (target : ResolvedTarget) : Bool :=
  (target.quotaUsage call.unix call.model).all fun used => used < 10000

/-- `std::cmp::Reverse` of a pace: the largest comes first and an unknown one last. -/
def reversePace (pace : Option ℕ) : (WithBot ℕ)ᵒᵈ :=
  OrderDual.toDual (pace.elim ⊥ fun pace => (pace : WithBot ℕ))

/-- The sort of a strategy. -/
def sortByStrategy (strategy : Server.RouteStrategy) (call : Call)
    (targets : List ResolvedTarget) : List ResolvedTarget :=
  match strategy with
  | .quotaAware =>
    sortByKey (fun target => (target.quotaUsage call.unix call.model).getD 5000) targets
  | .resetSoonest =>
    sortByKey (fun target => (target.quotaReset call.unix call.model).getD (2 ^ 64 - 1)) targets
  | .quotaPace =>
    sortByKey (fun target => reversePace (target.quotaPace call.unix call.model)) targets
  | .fallback | .roundRobin => targets

/-- `ordered_route_targets_for_model`, until the bindings of sessions are looked at. -/
def unboundRouteTargets (state : RuntimeState) (route : ResolvedRoute) (call : Call) :
    List ResolvedTarget × RuntimeState :=
  let targets := route.targets.map ResolvedTarget.overriding
  let targets := targets.filter fun target => target.config.enabled && hasQuota call target
  let targets := sortByKey (fun target => target.config.priority.toNat) targets
  let targets := sortByStrategy route.strategy call targets
  let (targets, state) := state.retainClosed call.checks targets
  let targets := targets.filter fun target => !state.probed target
  let targets := sortByKey (state.rank call.ranked) targets
  takeTurn state route call.ranked targets

/-- `ordered_route_targets_for_model`. -/
def orderedRouteTargetsForModel (state : RuntimeState) (route : ResolvedRoute) (call : Call) :
    List ResolvedTarget × RuntimeState :=
  let (targets, state) := unboundRouteTargets state route call
  let (preferred, state) := affinityTarget state route.id call targets
  (promote preferred targets, state)

end Aipass.Proxy
