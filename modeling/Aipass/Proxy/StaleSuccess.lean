import Aipass.Proxy.Recovery

/-!
# A stale success does not revive a failed target

What a single step changes of one target, and what this means for requests that started before a
failure of the target.
-/
namespace Aipass.Proxy

open TargetHealth

namespace World

/-- What a step changes of the health of a target. -/
inductive Change (now : Instant) (world next : World) (target : Uuid) : Action → Prop
  /-- Nothing. -/
  | same {action} (kept : next.health target = world.health target) : Change now world next target
      action
  /-- The ban has been asked for, and the probe may be another. -/
  | looked {action health seen probe} (held : world.health target = some health)
      (looked : Looked now health seen)
      (after : next.health target = some { seen with probeId := probe }) :
      Change now world next target action
  /-- A failure has been recorded. -/
  | failed {who policy}
      (after : next.health target = some ((world.healthOf target).fail policy now)) :
      Change now world next target (.markFailure who target policy)
  /-- A rate limit has been recorded. -/
  | limited {who retryAfter policy}
      (after : next.health target = some ((world.healthOf target).rateLimit
        (limitDuration policy retryAfter) now)) :
      Change now world next target (.markRateLimited who target retryAfter policy)
  /-- A success of a request that started after the latest failure has been counted. -/
  | counted {who route session response started health seen}
      (known : world.requests[who]? = some started)
      (held : world.health target = some health) (looked : Looked now health seen)
      (newer : ∀ failure, health.lastFailureAt = some failure → failure < started)
      (reported : next.log = .succeeded target started :: world.log)
      (after : next.health target = some seen.countSuccess) :
      Change now world next target (.completeTargetSuccess who route session target response)

variable {now : Instant} {world next : World} {target : Uuid} {action : Action}

/-- The health of a target that is only looked at. -/
theorem change_looked {other : Uuid} {health seen : TargetHealth} {probe : Option Uuid}
    (held : world.health other = some health) (looked : Looked now health seen)
    (after : next.health =
      (world.setHealth other { seen with probeId := probe }).health) :
    Change now world next target action := by
  by_cases same : target = other
  · subst same
    exact .looked held looked (by rw [after, health_setHealth])
  · exact .same (by rw [after, health_setHealth_of_ne world same])

/-- A success changes the health of its target. -/
theorem change_completeTargetSuccess {who : ℕ} {started : Instant}
    (known : world.requests[who]? = some started) (route other : Uuid)
    (session response : Option String) :
    Change now world (world.completeTargetSuccess now who started route [session, response] other)
      target (.completeTargetSuccess who route session other response) := by
  rw [World.completeTargetSuccess]
  cases held : world.health other with
  | none => exact .same rfl
  | some health =>
    have looked := looked_circuitOpen now health
    simp only [succeed]
    by_cases stale : (health.lastFailureAt.any fun failure => started ≤ failure) = true
    · simp only [if_pos stale, Bool.false_eq_true, if_false]
      exact change_looked held (Looked.refl now health) rfl
    · simp only [if_neg stale]
      by_cases banned : (health.circuitOpen now).1 = true
      · simp only [if_pos banned, Bool.false_eq_true, if_false]
        exact change_looked held looked rfl
      · simp only [if_neg banned, if_true]
        by_cases same : target = other
        · subst same
          refine .counted known held looked (fun failure found => ?_) rfl (health_setHealth ..)
          rw [found] at stale
          simpa using stale
        · exact .same (health_setHealth_of_ne world same _)

/-- Drawing a permit only looks at the health of its target. -/
theorem change_acquire (other probe : Uuid) :
    Change now world (world.acquire now other probe) target action := by
  rw [World.acquire]
  cases held : world.health other with
  | none => exact .same rfl
  | some health =>
    have looked := looked_circuitOpen now health
    simp only
    split
    · exact change_looked held looked rfl
    · split
      · split
        · exact change_looked held looked rfl
        · exact change_looked held looked rfl
      · exact change_looked held looked rfl

/-- Dropping a permit leaves the health of its target but for the probe. -/
theorem change_dropPermit (permit : Permit) :
    Change now world (world.dropPermit permit) target action := by
  rw [World.dropPermit]
  split
  · rename_i held
    split
    · exact change_looked held (Looked.refl now _) rfl
    · exact .same rfl
  · exact .same rfl

/-- Every step changes the health of a target in one of these ways. -/
theorem change_of_act (acted : world.act now action = some next) :
    Change now world next target action := by
  cases action with
  | start =>
    cases acted
    exact .same rfl
  | markFailure who other policy =>
    simp only [World.act, Option.ite_none_right_eq_some] at acted
    obtain ⟨-, ⟨⟩⟩ := acted
    by_cases same : target = other
    · subst same
      exact .failed (health_setHealth ..)
    · exact .same (health_setHealth_of_ne world same _)
  | markRateLimited who other retryAfter policy =>
    simp only [World.act, Option.ite_none_right_eq_some] at acted
    obtain ⟨-, ⟨⟩⟩ := acted
    by_cases same : target = other
    · subst same
      exact .limited (health_setHealth ..)
    · exact .same (health_setHealth_of_ne world same _)
  | clearLimited who other =>
    simp only [World.act, Option.ite_none_right_eq_some] at acted
    obtain ⟨-, ⟨⟩⟩ := acted
    exact .same rfl
  | completeTargetSuccess who route session other response =>
    simp only [World.act] at acted
    cases known : world.requests[who]? with
    | none => simp [known] at acted
    | some started =>
      simp only [known, Option.ite_none_right_eq_some] at acted
      obtain ⟨-, ⟨⟩⟩ := acted
      exact change_completeTargetSuccess known route other session response
  | proceed =>
    have went : world.proceed now = some next := acted
    rw [World.proceed] at went
    split at went
    · cases went
    all_goals
      cases went
      exact .same rfl
  | acquire who other probe =>
    simp only [World.act, Option.ite_none_right_eq_some] at acted
    obtain ⟨-, ⟨⟩⟩ := acted
    exact change_acquire other probe
  | drop who permit =>
    simp only [World.act, Option.ite_none_right_eq_some] at acted
    obtain ⟨-, ⟨⟩⟩ := acted
    exact change_dropPermit permit
  | circuitOpen who other =>
    simp only [World.act, Option.ite_none_right_eq_some] at acted
    obtain ⟨-, ⟨⟩⟩ := acted
    rw [askCircuit]
    split
    · exact .same rfl
    · exact change_looked ‹_› (looked_circuitOpen ..) rfl

/-- Counting a success binds no session yet. -/
theorem affinities_completeTargetSuccess (world : World) (now : Instant) (who : ℕ)
    (started : Instant) (route : Uuid) (sessions : List (Option String)) (target : Uuid) :
    (world.completeTargetSuccess now who started route sessions target).affinities =
      world.affinities := by
  rw [World.completeTargetSuccess]
  split
  · rfl
  · simp only
    split <;> rfl

/-- Drawing a permit binds no session. -/
theorem affinities_acquire (world : World) (now : Instant) (target probe : Uuid) :
    (world.acquire now target probe).affinities = world.affinities := by
  rw [World.acquire]
  split
  · rfl
  · simp only
    repeat' split
    all_goals rfl

/-- Dropping a permit binds no session. -/
theorem affinities_dropPermit (world : World) (permit : Permit) :
    (world.dropPermit permit).affinities = world.affinities := by
  rw [World.dropPermit]
  split
  · split <;> rfl
  · rfl

/-- Dropping a permit removes it. -/
theorem permits_dropPermit (world : World) (permit : Permit) :
    (world.dropPermit permit).permits = world.permits.erase permit := by
  rw [World.dropPermit]
  split
  · split <;> rfl
  · rfl

/-- Asking for a ban binds no session. -/
theorem affinities_askCircuit (world : World) (now : Instant) (target : Uuid) :
    (world.askCircuit now target).affinities = world.affinities := by
  rw [World.askCircuit]
  split <;> rfl

/-- A binding of a target after a step was there before, or the step binds sessions to the
target. -/
theorem affinities_of_act (acted : world.act now action = some next)
    {entry : (Uuid × String) × SessionAffinity} (inside : entry ∈ next.affinities)
    (own : entry.2.targetId = target) :
    entry ∈ world.affinities ∨ ∃ who route sessions,
      world.actor action = some who ∧
        world.holding = some (.remembering who route target sessions) := by
  cases action with
  | start =>
    cases acted
    exact Or.inl inside
  | markFailure who other policy =>
    simp only [World.act, Option.ite_none_right_eq_some] at acted
    obtain ⟨-, ⟨⟩⟩ := acted
    exact Or.inl inside
  | markRateLimited who other retryAfter policy =>
    simp only [World.act, Option.ite_none_right_eq_some] at acted
    obtain ⟨-, ⟨⟩⟩ := acted
    exact Or.inl inside
  | clearLimited who other =>
    simp only [World.act, Option.ite_none_right_eq_some] at acted
    obtain ⟨-, ⟨⟩⟩ := acted
    exact Or.inl (List.mem_filter.mp inside).1
  | completeTargetSuccess who route session other response =>
    simp only [World.act] at acted
    cases known : world.requests[who]? with
    | none => simp [known] at acted
    | some started =>
      simp only [known, Option.ite_none_right_eq_some] at acted
      obtain ⟨-, ⟨⟩⟩ := acted
      rw [affinities_completeTargetSuccess] at inside
      exact Or.inl inside
  | proceed =>
    have went : world.proceed now = some next := acted
    rw [World.proceed] at went
    split at went
    · cases went
    · cases went
      exact Or.inl (List.mem_filter.mp inside).1
    · cases went
      exact Or.inl inside
    · rename_i who route other session sessions holding
      cases went
      rcases mem_rememberAffinityTarget inside with before | bound
      · exact Or.inl before
      · refine Or.inr ⟨who, route, session :: sessions, ?_, ?_⟩
        · rw [actor, holding, Option.map_some]
        · rw [holding, ← own, bound]
  | acquire who other probe =>
    simp only [World.act, Option.ite_none_right_eq_some] at acted
    obtain ⟨-, ⟨⟩⟩ := acted
    rw [affinities_acquire] at inside
    exact Or.inl inside
  | drop who permit =>
    simp only [World.act, Option.ite_none_right_eq_some] at acted
    obtain ⟨-, ⟨⟩⟩ := acted
    rw [affinities_dropPermit] at inside
    exact Or.inl inside
  | circuitOpen who other =>
    simp only [World.act, Option.ite_none_right_eq_some] at acted
    obtain ⟨-, ⟨⟩⟩ := acted
    rw [affinities_askCircuit] at inside
    exact Or.inl inside

/-- A request leaves a target that has failed as it is, or worse: it binds no session to it, and
neither forgets its failures nor ends its recovery or its ban. -/
structure Leaves (now : Instant) (target : Uuid) (world next : World) : Prop where
  /-- The bindings of the target were there before. -/
  bindings : ∀ entry ∈ next.affinities, entry.2.targetId = target → entry ∈ world.affinities
  /-- The health of the target weathers. -/
  health : ∀ health, world.health target = some health →
    ∃ after, next.health target = some after ∧ Weathers now health after

/-- A step of a request that started before a failure of a target leaves the target. -/
theorem Sound.leaves (sound : world.Sound) (acted : world.act now action = some next) {who : ℕ}
    {started failure : Instant} (acts : world.actor action = some who)
    (known : world.requests[who]? = some started)
    (told : .failed target failure ∈ world.log) (stale : started ≤ failure) :
    Leaves now target world next := by
  refine ⟨fun entry inside own => ?_, fun health held => ?_⟩
  · rcases affinities_of_act acted inside own with before | ⟨who', route, sessions, acts', holding⟩
    · exact before
    · obtain ⟨started', known', newer⟩ := sound.fresh who' route target sessions holding
      rw [acts] at acts'
      cases acts'
      rw [known] at known'
      cases known'
      exact absurd (newer failure told) (Nat.not_lt.mpr stale)
  · cases change_of_act acted with
    | same kept => exact ⟨health, kept.trans held, Weathers.refl now health⟩
    | looked held' looked after =>
      rw [held] at held'
      cases held'
      exact ⟨_, after, looked.weathers.failures, looked.weathers.recovering,
        looked.weathers.banned⟩
    | failed after =>
      rw [healthOf, held, Option.getD_some] at after
      exact ⟨_, after, (fail_spec ..).1⟩
    | limited after =>
      rw [healthOf, held, Option.getD_some] at after
      exact ⟨_, after, weathers_rateLimit ..⟩
    | counted known' held' looked newer reported after =>
      rw [held] at held'
      cases held'
      cases acts
      rw [known] at known'
      cases known'
      obtain ⟨latest, found, before⟩ := sound.newest target failure told
      have late := newer latest ((sound.tracked target health held).latest.trans found)
      exact absurd (late.trans_le (stale.trans before)) (lt_irrefl _)

/-- Recovery ends only by enough successes after the latest failure. -/
theorem Sound.recovered (sound : world.Sound) (acted : world.act now action = some next)
    {health after : TargetHealth} (held : world.health target = some health)
    (found : next.health target = some after) (before : health.recovering = true)
    (ended : after.recovering = false) :
    recoverySuccessThreshold ≤ recoveries next.log target := by
  have goes_on : ∀ later : TargetHealth, next.health target = some later →
      later.recovering = true → False := by
    intro later same recovering
    rw [found] at same
    cases same
    rw [ended] at recovering
    cases recovering
  cases change_of_act acted with
  | same kept => exact (goes_on health (kept.trans held) before).elim
  | looked held' looked after' =>
    rw [held] at held'
    cases held'
    exact (goes_on _ after' (looked.recovering before)).elim
  | failed after' =>
    rw [healthOf, held, Option.getD_some] at after'
    exact (goes_on _ after' ((fail_spec ..).1.recovering before)).elim
  | limited after' => exact (goes_on _ after' rfl).elim
  | counted known held' looked newer reported after' =>
    rw [held] at held'
    cases held'
    rw [found] at after'
    cases after'
    rw [reported]
    refine (((sound.tracked target health held).looked looked).countSuccess fun failure at_ => ?_).2
      (looked.recovering before) ended
    exact newer failure (looked.lastFailure.symm.trans at_)

/-- A ban that lasts is changed by rate limits only. -/
theorem ban_of_act (acted : world.act now action = some next) {health : TargetHealth}
    {last : Instant} (held : world.health target = some health)
    (banned : health.openUntil = some last) (lasts : now < last)
    (other : ∀ who retryAfter policy, action ≠ .markRateLimited who target retryAfter policy) :
    ∃ after, next.health target = some after ∧ after.openUntil = some last := by
  cases change_of_act acted with
  | same kept => exact ⟨health, kept.trans held, banned⟩
  | looked held' looked after =>
    rw [held] at held'
    cases held'
    exact ⟨_, after, looked.banned last banned lasts⟩
  | failed after =>
    rw [healthOf, held, Option.getD_some] at after
    exact ⟨_, after, (fail_spec ..).2.2.2.2 last banned lasts⟩
  | limited after => exact absurd rfl (other _ _ _)
  | counted known held' looked newer reported after =>
    rw [held] at held'
    cases held'
    exact ⟨_, after, (countSuccess_spec _).2.2.1.trans (looked.banned last banned lasts)⟩

/-- The permits that hold the probe of a target. -/
def probing (world : World) (target : Uuid) : List Permit :=
  world.permits.filter fun permit => permit.targetId = target ∧ permit.probeId.isSome

/-- At most one permit holds the probe of a target. -/
theorem Sound.length_probing (sound : world.Sound) (target : Uuid) :
    (world.probing target).length ≤ 1 := by
  have same : ∀ probe ∈ (world.probing target).filterMap Permit.probeId,
      ∀ other ∈ (world.probing target).filterMap Permit.probeId, probe = other := by
    intro probe listed other listed'
    obtain ⟨permit, inside, named⟩ := List.mem_filterMap.mp listed
    obtain ⟨permit', inside', named'⟩ := List.mem_filterMap.mp listed'
    obtain ⟨live, own⟩ := List.mem_filter.mp inside
    obtain ⟨live', own'⟩ := List.mem_filter.mp inside'
    obtain ⟨health, found, probed⟩ := sound.probing permit live probe named
    obtain ⟨health', found', probed'⟩ := sound.probing permit' live' other named'
    rw [(of_decide_eq_true own).1] at found
    rw [(of_decide_eq_true own').1, found] at found'
    cases found'
    rw [probed] at probed'
    exact Option.some.inj probed'
  have distinct : ((world.probing target).filterMap Permit.probeId).Nodup :=
    (List.filter_sublist.filterMap _).nodup sound.distinct
  have counts : ((world.probing target).filterMap Permit.probeId).length =
      (world.probing target).length := by
    rw [List.length_filterMap_eq_countP, List.countP_eq_length]
    intro permit inside
    exact (of_decide_eq_true (List.mem_filter.mp inside).2).2
  rw [← counts]
  match listed : (world.probing target).filterMap Permit.probeId with
  | [] => exact Nat.zero_le _
  | [_] => exact le_rfl
  | first :: second :: rest =>
    rw [listed] at same distinct
    have twice := same first (List.mem_cons_self ..) second
      (List.mem_cons_of_mem _ (List.mem_cons_self ..))
    exact absurd (List.nodup_cons.mp distinct).1 (by simp [twice])

end World

/-- In any interleaving of requests, a step of a request that started before a failure of a target
binds no session to the target and does not improve its health; recovery ends only by enough
successes of requests that started after the latest failure; at most one permit holds the probe of
the target, and dropping one leaves the probes of the others; and a ban that lasts is changed by
rate limits only. -/
theorem stale_success_never_revives {world next : World} {now : Instant} {action : Action}
    (reached : routing.Reached world) (stepped : routing.step world (now, action) next)
    (target : Uuid) :
    (∀ who started failure, world.actor action = some who →
      world.requests[who]? = some started → .failed target failure ∈ world.log →
        started ≤ failure → World.Leaves now target world next) ∧
    (∀ health after, world.health target = some health → next.health target = some after →
      health.recovering = true → after.recovering = false →
        recoverySuccessThreshold ≤ recoveries next.log target) ∧
    (world.probing target).length ≤ 1 ∧
    (∀ who permit, action = .drop who permit → ∀ other ∈ world.permits.erase permit, ∀ probe,
      other.probeId = some probe → other ∈ next.permits ∧
        ∃ health, next.health other.targetId = some health ∧ health.probeId = some probe) ∧
    (∀ health last, world.health target = some health → health.openUntil = some last →
      now < last → (∀ who retryAfter policy,
        action ≠ .markRateLimited who target retryAfter policy) →
          ∃ after, next.health target = some after ∧ after.openUntil = some last) := by
  obtain ⟨later, acted⟩ := stepped
  have sound : World.Sound { world with clock := now } := (World.sound_of_reached reached).tick later
  refine ⟨?_, ?_, ?_, ?_, ?_⟩
  · intro who started failure acts known told stale
    have left := sound.leaves acted acts known told stale
    exact ⟨left.bindings, left.health⟩
  · exact fun health after held found before ended => sound.recovered acted held found before ended
  · exact sound.length_probing target
  · rintro who permit rfl other inside probe named
    have kept : other ∈ next.permits := by
      simp only [World.act, Option.ite_none_right_eq_some] at acted
      obtain ⟨-, ⟨⟩⟩ := acted
      rw [World.permits_dropPermit]
      exact inside
    exact ⟨kept, (sound.act acted).probing other kept probe named⟩
  · exact fun health last held banned lasts other => World.ban_of_act acted held banned lasts other

/-- A request starts, its target fails for another request, and then it succeeds: the target stays
banned and no session is bound to it. -/
theorem stale_success_late : ∃ world next, routing.Reached world ∧
    routing.step world (4, .completeTargetSuccess 0 9 (some "session") 7 none) next ∧
      world.log = [.failed 7 3] ∧ World.Leaves 4 7 world next := by
  have go : ∀ {world next : World} (now : Instant) (action : Action), routing.Reached world →
      routing.step world (now, action) next → routing.Reached next :=
    fun _ _ reached stepped => .step reached trivial stepped
  have early : routing.Reached { clock := 1, requests := [1] } :=
    go 1 .start (.start rfl) ⟨by decide, rfl⟩
  have second : routing.Reached { clock := 2, requests := [1, 2] } :=
    go 2 .start early ⟨by decide, rfl⟩
  have failed := go 3 (.markFailure 1 7 ⟨1, 60⟩) second ⟨by decide, rfl⟩
  obtain ⟨world, reached, free, clock, requests, log⟩ : ∃ world, routing.Reached world ∧
      world.holding = none ∧ world.clock = 3 ∧ world.requests = [1, 2] ∧
        world.log = [.failed 7 3] :=
    ⟨_, go 3 .proceed failed ⟨by decide, rfl⟩, rfl, rfl, rfl, rfl⟩
  have late : routing.step world (4, .completeTargetSuccess 0 9 (some "session") 7 none)
      (World.completeTargetSuccess { world with clock := 4 } 4 0 1 9 [some "session", none] 7) :=
    ⟨by simp [clock], by simp [World.act, free, requests]⟩
  refine ⟨world, _, reached, late, log, ?_⟩
  exact (stale_success_never_revives reached late 7).1 0 1 3 rfl (by simp [requests])
    (by simp [log]) (by decide)

end Aipass.Proxy
