import Mathlib.Logic.Function.Basic
import Aipass.Base.Run
import Aipass.Proxy.Affinity

/-!
# Requests, failures and probes

Requests report failures and successes of targets, draw permits and drop them, in any order. The
health of the targets stands under one lock and the bindings of sessions under another. A failure
clears the bindings of its target, and a success remembers them, with the first lock held; a rate
limit clears them after it has let go. What happens between lettings go is one step.
-/
namespace Aipass.Proxy

/-- `RecoveryPermit`. -/
structure Permit where
  targetId : Uuid
  probeId : Option Uuid
deriving DecidableEq

/-- What is still to do by the holder of the lock on health. -/
inductive Holding
  /-- A failure has been recorded, and the bindings of its target are to be cleared. -/
  | clearing (who : ℕ) (target : Uuid)
  /-- A success has been counted, and sessions are to be bound to its target. -/
  | remembering (who : ℕ) (route target : Uuid) (sessions : List (Option String))

/-- What has been reported. -/
inductive Report
  /-- A failure of a target at an instant. -/
  | failed (target : Uuid) (at_ : Instant)
  /-- A success of a target, by a request that started at an instant, that counts. -/
  | succeeded (target : Uuid) (started : Instant)
deriving DecidableEq

/-- The proxy and its requests. -/
structure World where
  health : Uuid → Option TargetHealth := fun _ => none
  affinities : Affinities := []
  /-- The latest reading of the clock. -/
  clock : Instant := 0
  /-- When the requests started. -/
  requests : List Instant := []
  /-- The permits that have not been dropped. -/
  permits : List Permit := []
  /-- The identifiers of probes drawn so far. -/
  probes : List Uuid := []
  holding : Option Holding := none
  /-- Rate limits whose bindings are still to be cleared, and the requests that met them. -/
  limited : List (ℕ × Uuid) := []
  /-- What has been reported, the latest first. -/
  log : List Report := []

/-- A step of a request. -/
inductive Action
  | start
  | markFailure (who : ℕ) (target : Uuid) (policy : RetryPolicy)
  | markRateLimited (who : ℕ) (target : Uuid) (retryAfter : Option ℕ) (policy : RetryPolicy)
  | clearLimited (who : ℕ) (target : Uuid)
  | completeTargetSuccess (who : ℕ) (route : Uuid) (session : Option String) (target : Uuid)
      (response : Option String)
  /-- The holder of the lock on health goes on. -/
  | proceed
  | acquire (who : ℕ) (target probe : Uuid)
  | drop (who : ℕ) (permit : Permit)
  /-- The ban of a target is asked for. -/
  | circuitOpen (who : ℕ) (target : Uuid)

namespace World

/-- The health of a target changes. -/
def setHealth (world : World) (target : Uuid) (health : TargetHealth) : World :=
  { world with health := Function.update world.health target (some health) }

/-- The health of a target, as `entry(..).or_default()` has it. -/
def healthOf (world : World) (target : Uuid) : TargetHealth := (world.health target).getD {}

/-- `mark_failure`, until the bindings are cleared. -/
def markFailure (world : World) (now : Instant) (who : ℕ) (target : Uuid) (policy : RetryPolicy) :
    World :=
  { world.setHealth target ((world.healthOf target).fail policy now) with
    holding := some (.clearing who target), log := .failed target now :: world.log }

/-- `mark_rate_limited`, until the bindings are cleared. -/
def markRateLimited (world : World) (now : Instant) (who : ℕ) (target : Uuid)
    (retryAfter : Option ℕ) (policy : RetryPolicy) : World :=
  { world.setHealth target
      ((world.healthOf target).rateLimit (TargetHealth.limitDuration policy retryAfter) now) with
    limited := (who, target) :: world.limited, log := .failed target now :: world.log }

/-- `complete_target_success`, until sessions are bound. -/
def completeTargetSuccess (world : World) (now : Instant) (who : ℕ) (started : Instant)
    (route : Uuid) (sessions : List (Option String)) (target : Uuid) : World :=
  let counted : World → World := fun world =>
    { world with
      holding := some (.remembering who route target sessions)
      log := .succeeded target started :: world.log }
  match world.health target with
  | none => counted world
  | some health =>
    let done := health.succeed started now
    if done.1 then counted (world.setHealth target done.2) else world.setHealth target done.2

/-- `RecoveryPermit::acquire`. -/
def acquire (world : World) (now : Instant) (target probe : Uuid) : World :=
  match world.health target with
  | none => { world with permits := ⟨target, none⟩ :: world.permits }
  | some health =>
    let looked := health.circuitOpen now
    if looked.1 then world.setHealth target looked.2
    else if looked.2.recovering then
      if looked.2.probeId.isSome then world.setHealth target looked.2
      else { world.setHealth target { looked.2 with probeId := some probe } with
        permits := ⟨target, some probe⟩ :: world.permits, probes := probe :: world.probes }
    else { world.setHealth target looked.2 with permits := ⟨target, none⟩ :: world.permits }

/-- `RecoveryPermit::drop`. -/
def dropPermit (world : World) (permit : Permit) : World :=
  let dropped := { world with permits := world.permits.erase permit }
  match permit.probeId, world.health permit.targetId with
  | some probe, some health =>
    if health.probeId = some probe then
      dropped.setHealth permit.targetId { health with probeId := none }
    else dropped
  | _, _ => dropped

/-- `circuit_open` of a target. -/
def askCircuit (world : World) (now : Instant) (target : Uuid) : World :=
  match world.health target with
  | none => world
  | some health => world.setHealth target (health.circuitOpen now).2

/-- The holder of the lock on health goes on: it clears or remembers, and lets go when nothing is
left to do. -/
def proceed (world : World) (now : Instant) : Option World :=
  match world.holding with
  | none => none
  | some (.clearing _ target) =>
    some { world with
      affinities := clearAffinityForTarget world.affinities target, holding := none }
  | some (.remembering _ _ _ []) => some { world with holding := none }
  | some (.remembering who route target (session :: sessions)) =>
    some { world with
      affinities := rememberAffinityTarget world.affinities route session target now
      holding := some (.remembering who route target sessions) }

/-- What a step does, if it can be taken; all but the first need the lock on health, unless they
only touch the bindings. -/
def act (world : World) (now : Instant) (action : Action) : Option World :=
  let free := world.holding.isNone
  match action with
  | .start => some { world with requests := world.requests ++ [now] }
  | .markFailure who target policy =>
    if free then some (world.markFailure now who target policy) else none
  | .markRateLimited who target retryAfter policy =>
    if free then some (world.markRateLimited now who target retryAfter policy) else none
  | .clearLimited who target =>
    if (who, target) ∈ world.limited then
      some { world with
        affinities := clearAffinityForTarget world.affinities target
        limited := world.limited.erase (who, target) }
    else none
  | .completeTargetSuccess who route session target response =>
    match world.requests[who]? with
    | none => none
    | some started =>
      if free then
        some (world.completeTargetSuccess now who started route [session, response] target)
      else none
  | .proceed => world.proceed now
  | .acquire _ target probe =>
    if free ∧ probe ∉ world.probes then some (world.acquire now target probe) else none
  | .drop _ permit =>
    if free ∧ permit ∈ world.permits then some (world.dropPermit permit) else none
  | .circuitOpen _ target => if free then some (world.askCircuit now target) else none

/-- The request that takes a step. -/
def actor (world : World) : Action → Option ℕ
  | .start => none
  | .markFailure who _ _ | .markRateLimited who _ _ _ | .clearLimited who _
  | .completeTargetSuccess who _ _ _ _ | .acquire who _ _ | .drop who _ | .circuitOpen who _ =>
    some who
  | .proceed => world.holding.map fun
    | .clearing who _ => who
    | .remembering who _ _ _ => who

end World

/-- The proxy from its start, with a clock that does not go back. -/
def routing : System World (Instant × Action) where
  init := fun world => world = {}
  step := fun world label next => world.clock ≤ label.1 ∧
    { world with clock := label.1 }.act label.1 label.2 = some next

/-- A report of a failure of a target. -/
def Report.isFailureOf (target : Uuid) : Report → Bool
  | .failed other _ => other = target
  | .succeeded _ _ => false

/-- The instant of the latest failure of a target. -/
def latestFailure (log : List Report) (target : Uuid) : Option Instant :=
  log.findSome? fun
    | .failed other failure => if other = target then some failure else none
    | .succeeded _ _ => none

/-- The successes of a target that are reported after its latest failure, of requests that
started after it. -/
def recoveries (log : List Report) (target : Uuid) : ℕ :=
  ((log.takeWhile fun report => ¬ report.isFailureOf target).filter fun
    | .succeeded other started =>
      other = target ∧ (latestFailure log target).all fun failure => failure < started
    | .failed _ _ => false).length

end Aipass.Proxy
