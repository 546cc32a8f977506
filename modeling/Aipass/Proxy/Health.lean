import Mathlib.Order.Nat
import Aipass.Values

/-!
# Health of upstream targets

A target that fails often enough is banned for a while. When the ban is over it recovers: it is
probed by one request at a time, and it counts as recovered after a few successes of requests
that started after its latest failure. This module has the health of one target and what each
report does to it.
-/
namespace Aipass.Proxy

/-- `Instant`, in nanoseconds. -/
abbrev Instant := ℕ

/-- `Duration::from_secs`, in nanoseconds. -/
def seconds (count : ℕ) : ℕ := count * 1000000000

/-- `u8::saturating_add(1)`. -/
def saturatingSucc (count : ℕ) : ℕ := if count < 255 then count + 1 else count

/-- `STABILITY_WINDOW`. -/
def stabilityWindow : ℕ := seconds (10 * 60)

/-- `MAX_CIRCUIT_COOLDOWN`. -/
def maxCircuitCooldown : ℕ := seconds (15 * 60)

/-- `RECOVERY_SUCCESS_THRESHOLD`. -/
def recoverySuccessThreshold : ℕ := 2

/-- The part of `RetryPolicy` that bans are decided by. -/
structure RetryPolicy where
  failureThreshold : ℕ
  circuitOpenSeconds : ℕ

/-- `TargetHealth`, without the last status, which no report reads. -/
structure TargetHealth where
  consecutiveFailures : ℕ := 0
  consecutiveSuccesses : ℕ := 0
  openUntil : Option Instant := none
  lastFailureAt : Option Instant := none
  recovering : Bool := false
  reopenCount : ℕ := 0
  probeId : Option Uuid := none
deriving DecidableEq

namespace TargetHealth

/-- `degraded`. -/
def degraded (health : TargetHealth) : Bool :=
  health.recovering ∨ 0 < health.consecutiveFailures ∨ health.openUntil.isSome

/-- `stability_rank`. -/
def stabilityRank (health : TargetHealth) (now : Instant) : ℕ :=
  if health.degraded then 2
  else if health.lastFailureAt.any fun failure => now - failure < stabilityWindow then 1
  else 0

/-- `circuit_open`: whether a ban lasts, and the health after a ban that is over is lifted. -/
def circuitOpen (health : TargetHealth) (now : Instant) : Bool × TargetHealth :=
  match health.openUntil with
  | some last =>
    if now < last then (true, health)
    else (false, { health with openUntil := none, consecutiveSuccesses := 0, recovering := true })
  | none => (false, health)

/-- How long the next ban is. -/
def cooldown (policy : RetryPolicy) (health : TargetHealth) : ℕ :=
  min (seconds (max policy.circuitOpenSeconds 1) * 2 ^ min health.reopenCount 10)
    maxCircuitCooldown

/-- `fail`. -/
def fail (policy : RetryPolicy) (now : Instant) (health : TargetHealth) : TargetHealth :=
  let reopenCount := if health.stabilityRank now = 0 then 0 else health.reopenCount
  let failed := { health with
    reopenCount, lastFailureAt := some now, consecutiveSuccesses := 0,
    consecutiveFailures := saturatingSucc health.consecutiveFailures }
  -- failures already in flight do not extend a ban
  if failed.openUntil.any fun last => now < last then failed
  else if failed.recovering ∨ max policy.failureThreshold 1 ≤ failed.consecutiveFailures then
    { failed with
      openUntil := some (now + failed.cooldown policy)
      reopenCount := saturatingSucc failed.reopenCount
      recovering := true }
  else failed

/-- One more success of a target that is watched. -/
def countSuccess (health : TargetHealth) : TargetHealth :=
  if health.degraded then
    let counted := saturatingSucc health.consecutiveSuccesses
    if recoverySuccessThreshold ≤ counted then
      { health with consecutiveFailures := 0, consecutiveSuccesses := 0, recovering := false }
    else { health with consecutiveSuccesses := counted }
  else health

/-- `succeed`: whether a success counts, and the health after it. -/
def succeed (started now : Instant) (health : TargetHealth) : Bool × TargetHealth :=
  if health.lastFailureAt.any fun failure => started ≤ failure then (false, health)
  else
    let looked := health.circuitOpen now
    if looked.1 then (false, looked.2) else (true, looked.2.countSuccess)

/-- How long a rate limit bans: what the upstream asks for, within bounds. -/
def limitDuration (policy : RetryPolicy) (retryAfter : Option ℕ) : ℕ :=
  max (seconds 1) (min (seconds (24 * 3600))
    (retryAfter.getD (seconds (max policy.circuitOpenSeconds 1))))

/-- What `mark_rate_limited` does to the health of its target. -/
def rateLimit (duration : ℕ) (now : Instant) (health : TargetHealth) : TargetHealth :=
  { health with
    lastFailureAt := some now, consecutiveSuccesses := 0, recovering := true,
    openUntil := some (max (health.openUntil.getD now) (now + duration)) }

/-- A change of health at an instant that neither forgets failures nor ends recovery or a ban. -/
structure Weathers (now : Instant) (health next : TargetHealth) : Prop where
  failures : health.consecutiveFailures ≤ next.consecutiveFailures
  recovering : health.recovering = true → next.recovering = true
  banned : ∀ last, health.openUntil = some last → now < last →
    ∃ later, next.openUntil = some later ∧ last ≤ later

/-- No change weathers. -/
theorem Weathers.refl (now : Instant) (health : TargetHealth) : Weathers now health health :=
  ⟨le_rfl, id, fun last found _ => ⟨last, found, le_rfl⟩⟩

/-- What asking for the ban changes. -/
structure Looked (now : Instant) (health next : TargetHealth) : Prop where
  failures : next.consecutiveFailures = health.consecutiveFailures
  successes : next.consecutiveSuccesses ≤ health.consecutiveSuccesses
  lastFailure : next.lastFailureAt = health.lastFailureAt
  probe : next.probeId = health.probeId
  recovering : health.recovering = true → next.recovering = true
  banned : ∀ last, health.openUntil = some last → now < last → next.openUntil = some last

/-- Nothing changes. -/
theorem Looked.refl (now : Instant) (health : TargetHealth) : Looked now health health :=
  ⟨rfl, le_rfl, rfl, rfl, id, fun _ found _ => found⟩

/-- Asking for the ban only lifts one that is over. -/
theorem looked_circuitOpen (now : Instant) (health : TargetHealth) :
    Looked now health (health.circuitOpen now).2 := by
  rw [circuitOpen]
  cases banned : health.openUntil with
  | none => exact ⟨rfl, le_rfl, rfl, rfl, id, fun last found => by simp [banned] at found⟩
  | some last =>
    by_cases lasts : now < last
    · simp only [if_pos lasts]
      exact ⟨rfl, le_rfl, rfl, rfl, id, fun _ found _ => found⟩
    · simp only [if_neg lasts]
      refine ⟨rfl, Nat.zero_le _, rfl, rfl, fun _ => rfl, fun other found early => ?_⟩
      rw [banned] at found
      cases found
      exact absurd early lasts

/-- Asking for the ban weathers. -/
theorem Looked.weathers {now : Instant} {health next : TargetHealth}
    (looked : Looked now health next) : Weathers now health next :=
  ⟨looked.failures.ge, looked.recovering,
    fun last found early => ⟨last, looked.banned last found early, le_rfl⟩⟩

/-- A counter that is kept below the largest value never goes down. -/
theorem le_saturatingSucc (count : ℕ) : count ≤ saturatingSucc count := by
  rw [saturatingSucc]
  split <;> omega

/-- A counter goes up by one at most. -/
theorem saturatingSucc_le (count : ℕ) : saturatingSucc count ≤ count + 1 := by
  rw [saturatingSucc]
  split <;> omega

/-- What a failure changes. -/
theorem fail_spec (policy : RetryPolicy) (now : Instant) (health : TargetHealth) :
    Weathers now health (health.fail policy now) ∧
      (health.fail policy now).lastFailureAt = some now ∧
      (health.fail policy now).consecutiveSuccesses = 0 ∧
      (health.fail policy now).probeId = health.probeId ∧
      ∀ last, health.openUntil = some last → now < last →
        (health.fail policy now).openUntil = some last := by
  have counts := le_saturatingSucc health.consecutiveFailures
  rw [fail]
  by_cases banned : (health.openUntil.any fun last => now < last) = true
  · simp only [if_pos banned]
    exact ⟨⟨counts, id, fun last found _ => ⟨last, found, le_rfl⟩⟩, trivial, trivial, trivial,
      fun _ found _ => found⟩
  · have free : ∀ last, health.openUntil = some last → ¬ now < last := by
      intro last found early
      exact banned (by simp [found, early])
    simp only [if_neg banned]
    split
    · exact ⟨⟨counts, fun _ => rfl, fun last found early => absurd early (free last found)⟩, rfl,
        rfl, rfl, fun last found early => absurd early (free last found)⟩
    · exact ⟨⟨counts, id, fun last found early => absurd early (free last found)⟩, rfl, rfl, rfl,
        fun last found early => absurd early (free last found)⟩

/-- A rate limit weathers. -/
theorem weathers_rateLimit (duration : ℕ) (now : Instant) (health : TargetHealth) :
    Weathers now health (health.rateLimit duration now) := by
  refine ⟨le_rfl, fun _ => rfl, fun last found _ => ⟨_, rfl, ?_⟩⟩
  rw [found, Option.getD_some]
  exact le_max_left _ _

/-- What a success that counts changes: one more is counted, and recovery ends only when there
are enough. -/
theorem countSuccess_spec (health : TargetHealth) :
    health.countSuccess.lastFailureAt = health.lastFailureAt ∧
      health.countSuccess.probeId = health.probeId ∧
      health.countSuccess.openUntil = health.openUntil ∧
      health.countSuccess.consecutiveSuccesses ≤ health.consecutiveSuccesses + 1 ∧
      (health.recovering = true → health.countSuccess.recovering = false →
        recoverySuccessThreshold ≤ health.consecutiveSuccesses + 1) := by
  have counts := saturatingSucc_le health.consecutiveSuccesses
  rw [countSuccess]
  by_cases watched : health.degraded = true
  · simp only [if_pos watched]
    split
    · rename_i enough
      exact ⟨rfl, rfl, rfl, Nat.zero_le _, fun _ _ => enough.trans counts⟩
    · exact ⟨rfl, rfl, rfl, counts, fun before after => by simp [before] at after⟩
  · rw [if_neg watched]
    exact ⟨rfl, rfl, rfl, Nat.le_succ _, fun before after => by simp [before] at after⟩

end TargetHealth
end Aipass.Proxy
