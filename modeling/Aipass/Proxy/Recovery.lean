import Aipass.Proxy.Routing

/-!
# A failed target comes back only by successes after its failure

Whatever requests do in whatever order, the health of a target tells its latest failure, counts
only successes that are newer, and names the probe of at most one permit that has not been
dropped. A request that started before a failure therefore neither binds a session to the target
nor brings it back.
-/
namespace Aipass.Proxy

open TargetHealth

/-- A failure of the target is its latest. -/
@[simp] theorem latestFailure_failed (log : List Report) (target : Uuid) (failure : Instant) :
    latestFailure (.failed target failure :: log) target = some failure := by
  simp [latestFailure]

/-- A failure of another target is not its latest. -/
theorem latestFailure_other (log : List Report) {other target : Uuid} (differ : other ≠ target)
    (failure : Instant) :
    latestFailure (.failed other failure :: log) target = latestFailure log target := by
  simp [latestFailure, differ]

/-- A success is no failure. -/
@[simp] theorem latestFailure_succeeded (log : List Report) (other target : Uuid)
    (started : Instant) :
    latestFailure (.succeeded other started :: log) target = latestFailure log target := by
  simp [latestFailure]

/-- A failure of another target leaves the count alone. -/
theorem recoveries_other (log : List Report) {other target : Uuid} (differ : other ≠ target)
    (failure : Instant) :
    recoveries (.failed other failure :: log) target = recoveries log target := by
  rw [recoveries, latestFailure_other log differ, recoveries]
  simp [Report.isFailureOf, differ]

/-- A success counts for its target if its request started after the latest failure. -/
theorem recoveries_succeeded (log : List Report) (other target : Uuid) (started : Instant) :
    recoveries (.succeeded other started :: log) target =
      recoveries log target +
        if other = target ∧ (latestFailure log target).all fun failure => failure < started then 1
        else 0 := by
  rw [recoveries, latestFailure_succeeded, recoveries]
  by_cases counts : other = target ∧
      ((latestFailure log target).all fun failure => failure < started) = true
  · simp [Report.isFailureOf, counts]
  · simp only [Report.isFailureOf, Bool.false_eq_true, not_false_eq_true, decide_true,
      List.takeWhile_cons_of_pos, if_neg counts]
    rw [List.filter_cons_of_neg (by simpa using counts), Nat.add_zero]

/-- The health of a target agrees with what has been reported of it. -/
structure Tracked (log : List Report) (target : Uuid) (health : TargetHealth) : Prop where
  latest : health.lastFailureAt = latestFailure log target
  counted : health.consecutiveSuccesses ≤ recoveries log target

/-- Asking for the ban keeps the agreement. -/
theorem Tracked.looked {log : List Report} {target : Uuid} {health next : TargetHealth}
    (tracked : Tracked log target health) {now : Instant} (looked : Looked now health next) :
    Tracked log target next :=
  ⟨looked.lastFailure.trans tracked.latest, looked.successes.trans tracked.counted⟩

/-- A report of another target keeps the agreement. -/
theorem Tracked.failed_other {log : List Report} {target : Uuid} {health : TargetHealth}
    (tracked : Tracked log target health) {other : Uuid} (differ : other ≠ target)
    (failure : Instant) : Tracked (.failed other failure :: log) target health :=
  ⟨by rw [latestFailure_other log differ, tracked.latest],
    by rw [recoveries_other log differ]; exact tracked.counted⟩

/-- A success of any target keeps the agreement. -/
theorem Tracked.succeeded {log : List Report} {target : Uuid} {health : TargetHealth}
    (tracked : Tracked log target health) (other : Uuid) (started : Instant) :
    Tracked (.succeeded other started :: log) target health :=
  ⟨by rw [latestFailure_succeeded, tracked.latest],
    by rw [recoveries_succeeded]; exact tracked.counted.trans (Nat.le_add_right _ _)⟩

/-- A success that is newer than the latest failure counts in both. -/
theorem Tracked.countSuccess {log : List Report} {target : Uuid} {health : TargetHealth}
    (tracked : Tracked log target health) {started : Instant}
    (newer : ∀ failure, health.lastFailureAt = some failure → failure < started) :
    Tracked (.succeeded target started :: log) target health.countSuccess ∧
      (health.recovering = true → health.countSuccess.recovering = false →
        recoverySuccessThreshold ≤ recoveries (.succeeded target started :: log) target) := by
  obtain ⟨lastFailure, -, -, counts, enough⟩ := countSuccess_spec health
  have more : recoveries (.succeeded target started :: log) target =
      recoveries log target + 1 := by
    rw [recoveries_succeeded, if_pos]
    refine ⟨rfl, ?_⟩
    rw [← tracked.latest]
    cases found : health.lastFailureAt with
    | none => rfl
    | some failure => simpa using newer failure found
  refine ⟨⟨?_, ?_⟩, fun before after => ?_⟩
  · rw [latestFailure_succeeded, lastFailure, tracked.latest]
  · rw [more]
    exact counts.trans (Nat.succ_le_succ tracked.counted)
  · rw [more]
    exact (enough before after).trans (Nat.succ_le_succ tracked.counted)

namespace World

/-- What holds of the proxy at any time. -/
structure Sound (world : World) : Prop where
  /-- Failures are not in the future. -/
  past : ∀ target failure, Report.failed target failure ∈ world.log → failure ≤ world.clock
  /-- The latest failure of a target is its last. -/
  newest : ∀ target failure, Report.failed target failure ∈ world.log →
    ∃ latest, latestFailure world.log target = some latest ∧ failure ≤ latest
  /-- The health of a target that has failed is kept. -/
  known : ∀ target failure, Report.failed target failure ∈ world.log →
    ∃ health, world.health target = some health
  /-- The health of a target agrees with what has been reported. -/
  tracked : ∀ target health, world.health target = some health →
    Tracked world.log target health
  /-- Sessions are bound for a request that started after every failure of the target. -/
  fresh : ∀ who route target sessions,
    world.holding = some (.remembering who route target sessions) →
      ∃ started, world.requests[who]? = some started ∧
        ∀ failure, Report.failed target failure ∈ world.log → failure < started
  /-- The probe of a permit is that of its target. -/
  probing : ∀ permit ∈ world.permits, ∀ probe, permit.probeId = some probe →
    ∃ health, world.health permit.targetId = some health ∧ health.probeId = some probe
  /-- The probe of a permit has been drawn. -/
  drawn : ∀ permit ∈ world.permits, ∀ probe, permit.probeId = some probe → probe ∈ world.probes
  /-- No two permits have one probe. -/
  distinct : (world.permits.filterMap Permit.probeId).Nodup

variable {world : World}

/-- The health of the target that changes. -/
@[simp] theorem health_setHealth (world : World) (target : Uuid) (health : TargetHealth) :
    (world.setHealth target health).health target = some health := by
  simp [setHealth]

/-- The health of another target. -/
theorem health_setHealth_of_ne (world : World) {other target : Uuid} (differ : other ≠ target)
    (health : TargetHealth) :
    (world.setHealth target health).health other = world.health other := by
  simp [setHealth, differ]

/-- The last change of the health of a target stays. -/
theorem setHealth_setHealth (world : World) (target : Uuid) (health next : TargetHealth) :
    (world.setHealth target health).setHealth target next = world.setHealth target next := by
  simp [setHealth]

/-- At the start nothing has been reported. -/
theorem sound_start : Sound {} := by
  constructor <;> simp

/-- Time passes. -/
theorem Sound.tick (sound : world.Sound) {now : Instant} (later : world.clock ≤ now) :
    Sound { world with clock := now } :=
  { sound with past := fun target failure told => (sound.past target failure told).trans later }

/-- The health of a target changes without a report. -/
theorem Sound.setHealth (sound : world.Sound) {target : Uuid} {health next : TargetHealth}
    (held : world.health target = some health) (tracked : Tracked world.log target next)
    (probe : next.probeId = health.probeId) : (world.setHealth target next).Sound := by
  refine ⟨sound.past, sound.newest, ?_, ?_, sound.fresh, ?_, sound.drawn, sound.distinct⟩
  · intro other failure told
    by_cases same : other = target
    · exact ⟨next, by rw [same, health_setHealth]⟩
    · rw [health_setHealth_of_ne world same]
      exact sound.known other failure told
  · intro other health' found
    by_cases same : other = target
    · subst same
      rw [health_setHealth] at found
      cases found
      exact tracked
    · rw [health_setHealth_of_ne world same] at found
      exact sound.tracked other health' found
  · intro permit inside id named
    obtain ⟨health', found, probed⟩ := sound.probing permit inside id named
    by_cases same : permit.targetId = target
    · rw [same, held] at found
      cases found
      exact ⟨next, by rw [same, health_setHealth], probe.trans probed⟩
    · exact ⟨health', by rw [health_setHealth_of_ne world same, found], probed⟩

/-- The ban of a target is asked for. -/
theorem Sound.looked (sound : world.Sound) {target : Uuid} {health next : TargetHealth}
    (held : world.health target = some health) {now : Instant}
    (looked : Looked now health next) : (world.setHealth target next).Sound :=
  sound.setHealth held ((sound.tracked target health held).looked looked) looked.probe

/-- A failure of a target is recorded. -/
theorem Sound.failed (sound : world.Sound) {target : Uuid} {next : TargetHealth}
    (failure : next.lastFailureAt = some world.clock) (none_ : next.consecutiveSuccesses = 0)
    (probe : next.probeId = (world.healthOf target).probeId) (holding : Option Holding)
    (limited : List (ℕ × Uuid))
    (clears : ∀ who route other sessions,
      holding ≠ some (.remembering who route other sessions)) :
    Sound { world.setHealth target next with
      holding, limited, log := .failed target world.clock :: world.log } := by
  refine ⟨?_, ?_, ?_, ?_, ?_, ?_, sound.drawn, sound.distinct⟩
  · intro other at_ told
    rcases List.mem_cons.mp told with same | told
    · cases same
      exact le_rfl
    · exact sound.past other at_ told
  · intro other at_ told
    simp only
    by_cases same : other = target
    · subst same
      refine ⟨world.clock, latestFailure_failed .., ?_⟩
      rcases List.mem_cons.mp told with same | told
      · cases same
        exact le_rfl
      · exact sound.past other at_ told
    · rw [latestFailure_other _ (Ne.symm same)]
      refine sound.newest other at_ ((List.mem_cons.mp told).resolve_left fun first => ?_)
      cases first
      exact same rfl
  · intro other at_ told
    by_cases same : other = target
    · exact ⟨next, by rw [same]; exact health_setHealth ..⟩
    · obtain ⟨health, found⟩ := sound.known other at_
        ((List.mem_cons.mp told).resolve_left fun first => by cases first; exact same rfl)
      exact ⟨health, (health_setHealth_of_ne world same next).trans found⟩
  · intro other health found
    by_cases same : other = target
    · subst same
      have own : next = health := Option.some.inj ((health_setHealth ..).symm.trans found)
      subst own
      exact ⟨by rw [failure, latestFailure_failed], by rw [none_]; exact Nat.zero_le _⟩
    · have before := (health_setHealth_of_ne world same next).symm.trans found
      exact (sound.tracked other health before).failed_other (Ne.symm same) _
  · intro who route other sessions held
    exact absurd held (clears who route other sessions)
  · intro permit inside id named
    obtain ⟨health, found, probed⟩ := sound.probing permit inside id named
    by_cases same : permit.targetId = target
    · refine ⟨next, by rw [same]; exact health_setHealth .., ?_⟩
      rw [probe, ← same, healthOf, found]
      exact probed
    · exact ⟨health, (health_setHealth_of_ne world same next).trans found, probed⟩

/-- A success is reported and sessions are to be bound. -/
theorem Sound.succeeded (sound : world.Sound) {who : ℕ} {started : Instant}
    (known : world.requests[who]? = some started) {target : Uuid}
    (newer : ∀ failure, .failed target failure ∈ world.log → failure < started) (route : Uuid)
    (sessions : List (Option String)) :
    Sound { world with
      holding := some (.remembering who route target sessions)
      log := .succeeded target started :: world.log } := by
  have told : ∀ other failure,
      .failed other failure ∈ Report.succeeded target started :: world.log →
        Report.failed other failure ∈ world.log := fun other failure inside =>
    (List.mem_cons.mp inside).resolve_left Report.noConfusion
  refine ⟨?_, ?_, ?_, ?_, ?_, sound.probing, sound.drawn, sound.distinct⟩
  · exact fun other failure inside => sound.past other failure (told other failure inside)
  · intro other failure inside
    simp only [latestFailure_succeeded]
    exact sound.newest other failure (told other failure inside)
  · exact fun other failure inside => sound.known other failure (told other failure inside)
  · exact fun other health found => (sound.tracked other health found).succeeded target started
  · rintro who' route' other sessions' held
    cases held
    exact ⟨started, known, fun failure inside => newer failure (told target failure inside)⟩

/-- A success that is not stale started after every failure of its target. -/
theorem Sound.newer (sound : world.Sound) {target : Uuid} {health : TargetHealth}
    (held : world.health target = some health) {started : Instant}
    (fresh : ¬ (health.lastFailureAt.any fun failure => started ≤ failure) = true) :
    ∀ failure, .failed target failure ∈ world.log → failure < started := by
  intro failure told
  obtain ⟨latest, found, before⟩ := sound.newest target failure told
  rw [(sound.tracked target health held).latest, found] at fresh
  exact before.trans_lt (by simpa using fresh)

/-- A success that is reported keeps what holds. -/
theorem Sound.completeTargetSuccess (sound : world.Sound) (now : Instant) {who : ℕ}
    {started : Instant} (known : world.requests[who]? = some started) (route : Uuid)
    (sessions : List (Option String)) (target : Uuid) :
    (world.completeTargetSuccess now who started route sessions target).Sound := by
  rw [World.completeTargetSuccess]
  cases held : world.health target with
  | none =>
    refine sound.succeeded known (fun failure told => ?_) route sessions
    obtain ⟨health, found⟩ := sound.known target failure told
    rw [held] at found
    cases found
  | some health =>
    have looked := looked_circuitOpen now health
    simp only [succeed]
    by_cases stale : (health.lastFailureAt.any fun failure => started ≤ failure) = true
    · simp only [if_pos stale, Bool.false_eq_true, if_false]
      exact sound.looked held (Looked.refl now health)
    · simp only [if_neg stale]
      by_cases banned : (health.circuitOpen now).1 = true
      · simp only [if_pos banned, Bool.false_eq_true, if_false]
        exact sound.looked held looked
      · simp only [if_neg banned, if_true]
        have newer := sound.newer held stale
        have after : ∀ failure, (health.circuitOpen now).2.lastFailureAt = some failure →
            failure < started := by
          intro failure found
          rw [looked.lastFailure] at found
          rw [found] at stale
          simpa using stale
        have tracked := ((sound.tracked target health held).looked looked).countSuccess after
        -- the report is written first: the count of the health may be one ahead of the old log
        have reported := sound.succeeded known newer route sessions
        have probe := (countSuccess_spec (health.circuitOpen now).2).2.1.trans looked.probe
        exact reported.setHealth held tracked.1 probe

/-- A permit without a probe is drawn. -/
theorem Sound.permit (sound : world.Sound) (target : Uuid) :
    Sound { world with permits := ⟨target, none⟩ :: world.permits } := by
  refine ⟨sound.past, sound.newest, sound.known, sound.tracked, sound.fresh, ?_, ?_,
    sound.distinct⟩
  · intro permit inside probe named
    refine sound.probing permit ((List.mem_cons.mp inside).resolve_left fun first => ?_) probe named
    rw [first] at named
    cases named
  · intro permit inside probe named
    refine sound.drawn permit ((List.mem_cons.mp inside).resolve_left fun first => ?_) probe named
    rw [first] at named
    cases named

/-- A permit with a new probe is drawn for a target that has none. -/
theorem Sound.probe (sound : world.Sound) {target : Uuid} {health : TargetHealth}
    (held : world.health target = some health) (none_ : health.probeId = none) {probe : Uuid}
    (new : probe ∉ world.probes) :
    Sound { world.setHealth target { health with probeId := some probe } with
      permits := ⟨target, some probe⟩ :: world.permits, probes := probe :: world.probes } := by
  have others : ∀ permit ∈ world.permits, ∀ id, permit.probeId = some id →
      permit.targetId ≠ target := by
    intro permit inside id named same
    obtain ⟨health', found, probed⟩ := sound.probing permit inside id named
    rw [same, held] at found
    cases found
    rw [none_] at probed
    cases probed
  refine ⟨sound.past, sound.newest, ?_, ?_, sound.fresh, ?_, ?_, ?_⟩
  · intro other failure told
    by_cases same : other = target
    · exact ⟨{ health with probeId := some probe }, by rw [same]; exact health_setHealth ..⟩
    · obtain ⟨health', found⟩ := sound.known other failure told
      exact ⟨health', (health_setHealth_of_ne world same _).trans found⟩
  · intro other health' found
    by_cases same : other = target
    · subst same
      have own := Option.some.inj ((health_setHealth ..).symm.trans found)
      subst own
      exact ⟨(sound.tracked other health held).latest, (sound.tracked other health held).counted⟩
    · exact sound.tracked other health' ((health_setHealth_of_ne world same _).symm.trans found)
  · intro permit inside id named
    rcases List.mem_cons.mp inside with rfl | inside
    · exact ⟨{ health with probeId := some probe }, health_setHealth .., named⟩
    · obtain ⟨health', found, probed⟩ := sound.probing permit inside id named
      exact ⟨health', (health_setHealth_of_ne world (others permit inside id named) _).trans found,
        probed⟩
  · intro permit inside id named
    rcases List.mem_cons.mp inside with rfl | inside
    · cases named
      exact List.mem_cons_self ..
    · exact List.mem_cons_of_mem _ (sound.drawn permit inside id named)
  · refine List.nodup_cons.mpr ⟨fun inside => new ?_, sound.distinct⟩
    obtain ⟨permit, listed, named⟩ := List.mem_filterMap.mp inside
    exact sound.drawn permit listed probe named

/-- Drawing a permit keeps what holds. -/
theorem Sound.acquire (sound : world.Sound) (now : Instant) (target : Uuid) {probe : Uuid}
    (new : probe ∉ world.probes) : (world.acquire now target probe).Sound := by
  rw [World.acquire]
  cases held : world.health target with
  | none => exact sound.permit target
  | some health =>
    have kept := sound.looked held (looked_circuitOpen now health)
    simp only
    split
    · exact kept
    · split
      · split
        · exact kept
        · rename_i open_ recovering free
          have drawn := kept.probe (health_setHealth ..) (by simpa using free) new
          rw [setHealth_setHealth] at drawn
          exact drawn
      · exact kept.permit target

/-- The probe of a permit is not that of the others. -/
theorem Sound.probe_unique (sound : world.Sound) {permit : Permit} (live : permit ∈ world.permits)
    {probe : Uuid} (named : permit.probeId = some probe) :
    ∀ other ∈ world.permits.erase permit, other.probeId ≠ some probe := by
  intro other inside same
  have split := (List.perm_cons_erase live).filterMap Permit.probeId
  have distinct := split.nodup_iff.mp sound.distinct
  rw [List.filterMap_cons_some named, List.nodup_cons] at distinct
  exact distinct.1 (List.mem_filterMap.mpr ⟨other, inside, same⟩)

/-- Dropping a permit keeps what holds. -/
theorem Sound.dropPermit (sound : world.Sound) {permit : Permit} (live : permit ∈ world.permits) :
    (world.dropPermit permit).Sound := by
  have fewer : (world.permits.erase permit).Sublist world.permits := List.erase_sublist
  have dropped : Sound { world with permits := world.permits.erase permit } :=
    { sound with
      probing := fun other inside => sound.probing other (fewer.subset inside)
      drawn := fun other inside => sound.drawn other (fewer.subset inside)
      distinct := (fewer.filterMap _).nodup sound.distinct }
  rw [World.dropPermit]
  split
  · rename_i probe health named held
    split
    · rename_i own
      have unique := sound.probe_unique live named
      have tracked := sound.tracked permit.targetId health held
      refine ⟨dropped.past, dropped.newest, ?_, ?_, dropped.fresh, ?_, dropped.drawn,
        dropped.distinct⟩
      · intro other failure told
        by_cases same : other = permit.targetId
        · exact ⟨{ health with probeId := none }, by rw [same]; exact health_setHealth ..⟩
        · obtain ⟨health', found⟩ := sound.known other failure told
          exact ⟨health', (health_setHealth_of_ne world same _).trans found⟩
      · intro other health' found
        by_cases same : other = permit.targetId
        · subst same
          have own' := Option.some.inj ((health_setHealth ..).symm.trans found)
          subst own'
          exact ⟨tracked.latest, tracked.counted⟩
        · exact sound.tracked other health' ((health_setHealth_of_ne world same _).symm.trans found)
      · intro other inside id named'
        obtain ⟨health', found, probed⟩ := dropped.probing other inside id named'
        by_cases same : other.targetId = permit.targetId
        · refine absurd ?_ (unique other inside)
          rw [named', ← probed, ← own]
          have found' : world.health other.targetId = some health' := found
          rw [same, held] at found'
          cases found'
          rfl
        · exact ⟨health', (health_setHealth_of_ne world same _).trans found, probed⟩
    · exact dropped
  · exact dropped

/-- The holder of the lock goes on. -/
theorem Sound.proceed (sound : world.Sound) {now : Instant} {next : World}
    (went : world.proceed now = some next) : next.Sound := by
  rw [World.proceed] at went
  split at went
  · cases went
  · cases went
    exact { sound with fresh := fun _ _ _ _ held => by cases held }
  · cases went
    exact { sound with fresh := fun _ _ _ _ held => by cases held }
  · rename_i who route target session sessions holding
    cases went
    refine { sound with fresh := ?_ }
    intro who' route' target' sessions' held
    cases held
    exact sound.fresh who route target _ holding

/-- A request starts. -/
theorem Sound.start (sound : world.Sound) (now : Instant) :
    Sound { world with requests := world.requests ++ [now] } := by
  refine { sound with fresh := fun who route target sessions held => ?_ }
  obtain ⟨started, known, newer⟩ := sound.fresh who route target sessions held
  have inside := (List.getElem?_eq_some_iff.mp known).1
  exact ⟨started, (List.getElem?_append_left inside).trans known, newer⟩

/-- A step keeps what holds. -/
theorem Sound.act (sound : world.Sound) {action : Action} {next : World}
    (acted : world.act world.clock action = some next) : next.Sound := by
  cases action with
  | start =>
    cases acted
    exact sound.start _
  | markFailure who target policy =>
    simp only [World.act, Option.ite_none_right_eq_some] at acted
    obtain ⟨free, ⟨⟩⟩ := acted
    obtain ⟨-, failure, none_, probe, -⟩ := fail_spec policy world.clock (world.healthOf target)
    exact sound.failed failure none_ probe _ _ fun _ _ _ _ => by simp
  | markRateLimited who target retryAfter policy =>
    simp only [World.act, Option.ite_none_right_eq_some, Option.isNone_iff_eq_none] at acted
    obtain ⟨free, ⟨⟩⟩ := acted
    refine @Sound.failed world sound target
      ((world.healthOf target).rateLimit (limitDuration policy retryAfter) world.clock) rfl rfl rfl
      world.holding ((who, target) :: world.limited) ?_
    simp [free]
  | clearLimited who target =>
    simp only [World.act, Option.ite_none_right_eq_some] at acted
    obtain ⟨-, ⟨⟩⟩ := acted
    exact { sound with }
  | completeTargetSuccess who route session target response =>
    simp only [World.act] at acted
    cases known : world.requests[who]? with
    | none => simp [known] at acted
    | some started =>
      simp only [known, Option.ite_none_right_eq_some] at acted
      obtain ⟨-, ⟨⟩⟩ := acted
      exact sound.completeTargetSuccess world.clock known route _ target
  | proceed => exact sound.proceed acted
  | acquire who target probe =>
    simp only [World.act, Option.ite_none_right_eq_some] at acted
    obtain ⟨⟨-, new⟩, ⟨⟩⟩ := acted
    exact sound.acquire world.clock target new
  | drop who permit =>
    simp only [World.act, Option.ite_none_right_eq_some] at acted
    obtain ⟨⟨-, live⟩, ⟨⟩⟩ := acted
    exact sound.dropPermit live
  | circuitOpen who target =>
    simp only [World.act, Option.ite_none_right_eq_some] at acted
    obtain ⟨-, ⟨⟩⟩ := acted
    rw [askCircuit]
    split
    · exact sound
    · exact sound.looked ‹_› (looked_circuitOpen ..)

/-- What holds, holds in every state a run reaches. -/
theorem sound_of_reached {world : World} (reached : routing.Reached world) : world.Sound := by
  refine reached.invariant _ ?_ ?_
  · rintro world rfl
    exact sound_start
  · rintro world ⟨now, action⟩ next sound - ⟨later, acted⟩
    exact Sound.act (sound.tick later) acted

end World
end Aipass.Proxy
