import Aipass.Websocket.Grounds

/-!
# What every reported event rests on

Each step of the proxy service keeps what its records rest on. So every event reported is current,
unless its evidence came late, every event is acknowledged once, and WebSockets are switched off
only by an event that is current or by the configuration itself.
-/
namespace Aipass.Websocket

open Proxy (Instant)

namespace World

variable {world next : World} {event : CapabilityEvent} {key : ConfigKey} {health : Health}

/-- A report that is no completion adds none. -/
theorem completed_of_cons {report : Report} {log longer : List Report}
    (grown : longer = report :: log) (other : ∀ epoch at_, report ≠ .completed epoch at_)
    (epoch : Uuid) (at_ : Instant) (told : .completed epoch at_ ∈ longer) :
    .completed epoch at_ ∈ log := by
  rw [grown] at told
  exact (List.mem_cons.mp told).resolve_left fun same => other epoch at_ same.symm

/-- The sessions change, and who has seen an epoch had seen it or sees the present one. -/
theorem Sound.withSessions (sound : world.Sound) {sessions : List Session}
    (seen : ∀ seen, Seen { world with sessions } seen → world.Seen seen ∨
      ∃ health, world.ledger[seen.key]? = some health ∧ health.epoch = seen.epoch) :
    Sound { world with sessions } := by
  have evolves : Evolves world { world with sessions } :=
    ⟨le_rfl, fun _ inside => inside, fun _ health found => Or.inl ⟨health, found, rfl⟩, seen,
      fun _ _ told => Or.inl told⟩
  exact sound.frame evolves rfl rfl (List.Sublist.refl _) (List.nil_append _).symm (by simp)

/-- A handshake or a probe looks at a record. -/
theorem Sound.observe (sound : world.Sound) (key : ConfigKey) :
    Sound { world with
      sessions := world.sessions ++ [{ observation := world.ledger.observe key }] } := by
  refine sound.withSessions ?_
  rintro seen ⟨session, inside, looked⟩
  rcases List.mem_append.mp inside with earlier | now
  · exact Or.inl ⟨session, earlier, looked⟩
  · rw [List.mem_singleton.mp now] at looked
    obtain ⟨health, found, rfl⟩ := Option.map_eq_some_iff.mp looked
    exact Or.inr ⟨health, found, rfl⟩

/-- Handshakes begin. -/
theorem Sound.begin_ (sound : world.Sound) {who : ℕ} {session : Session}
    (present : world.sessions[who]? = some session) (started : Option Instant) :
    Sound { world with sessions := world.sessions.set who { session with started } } := by
  refine sound.withSessions ?_
  rintro seen ⟨other, inside, looked⟩
  refine Or.inl ?_
  rcases List.mem_or_eq_of_mem_set inside with earlier | rfl
  · exact ⟨other, earlier, looked⟩
  · exact ⟨session, List.mem_of_getElem? present, looked⟩

/-- A valid completion. -/
theorem Sound.complete (sound : world.Sound) {session : Session} (present : session ∈ world.sessions) :
    (world.complete world.clock session).Sound := by
  cases looked : session.observation with
  | none =>
    have same : world.complete world.clock session = world := by
      simp [World.complete, looked, Ledger.success]
    rwa [same]
  | some seen =>
    have whole : world.complete world.clock session = { world with
        ledger := world.ledger.success world.clock (some seen)
        log := .completed seen.epoch world.clock :: world.log } := by
      simp [World.complete, looked]
    have saw : world.Seen seen := ⟨session, present, looked⟩
    rw [whole]
    generalize shape : ({ world with
      ledger := world.ledger.success world.clock (some seen)
      log := .completed seen.epoch world.clock :: world.log } : World) = next
    have log : next.log = .completed seen.epoch world.clock :: world.log := by rw [← shape]
    have grown : world.log <:+ next.log := ⟨[_], log.symm⟩
    have completed : ∀ epoch at_, .completed epoch at_ ∈ next.log →
        .completed epoch at_ ∈ world.log ∨ at_ = world.clock ∧ epoch = seen.epoch := by
      intro epoch at_ told
      rw [log] at told
      rcases List.mem_cons.mp told with same | earlier
      · cases same
        exact Or.inr ⟨rfl, rfl⟩
      · exact Or.inl earlier
    have told : ∀ epoch at_, .completed epoch at_ ∈ next.log → .completed epoch at_ ∈ world.log ∨
        at_ = next.clock ∧ ∃ seen, world.Seen seen ∧ seen.epoch = epoch := fun epoch at_ told =>
      (completed epoch at_ told).imp_right fun now =>
        ⟨by rw [← shape]; exact now.1, seen, saw, now.2.symm⟩
    have made : ∀ event, Made next.log event → Made world.log event := by
      intro event made
      rw [log] at made
      exact made_append [_] (by simp) made
    have acked : World.acknowledged next.log = World.acknowledged world.log := by rw [log]; rfl
    have taken : next.taken = world.taken := by rw [World.taken, acked, ← shape]; rfl
    have finish : Evolves world next → (∀ (key : ConfigKey) (health : Health),
        next.ledger[key]? = some health → Grounded next key health) → next.Sound := by
      intro evolves records
      refine sound.after evolves grown none (fun event told => Or.inl (made event told))
        (fun _ never => by cases never) records ?_ ?_ ?_ (taken ▸ sound.once)
      · intro held inside
        rw [← shape] at inside
        exact (sound.handed held inside).grown grown
      · intro event waits
        rw [← shape] at waits
        exact Or.inl waits
      · rw [acked]
        intro id inside
        obtain ⟨event, told, same⟩ := sound.acknowledged id inside
        exact ⟨event, told.grown grown, same⟩
    by_cases present : ∃ health, world.ledger[seen.key]? = some health ∧ health.epoch = seen.epoch
    · obtain ⟨before, found, same⟩ := present
      have ledger : next.ledger = world.ledger.insert seen.key
          { before with lastSuccess := some world.clock, candidate := none, confirmed := false } := by
        rw [← shape]
        simp [Ledger.success, found, same]
      have evolves : Evolves world next :=
        .record found ledger rfl (by rw [← shape]) (by rw [← shape])
          (fun _ inside => by rw [← shape]; exact inside) told
      refine finish evolves (sound.record evolves found ledger grown (fun epoch at_ told => ?_)
        (fun id inside => Or.inl (taken ▸ inside)) ⟨fun at_ told => ?_, ?_, ?_, ?_⟩)
      · exact (completed epoch at_ told).imp_right fun now => now.2.trans same.symm
      · refine ⟨world.clock, rfl, ?_⟩
        rcases completed _ at_ told with earlier | now
        · exact (sound.past _ at_ earlier).1
        · exact now.1.le
      all_goals exact fun _ never => by cases never
    · have ledger : next.ledger = world.ledger := by
        rw [← shape]
        simp only [Ledger.success]
        cases found : world.ledger[seen.key]? with
        | none => rfl
        | some health => simp only [if_pos fun same => present ⟨health, found, same⟩]
      have evolves : Evolves world next :=
        .frame ledger (by rw [← shape]) (by rw [← shape])
          (fun _ inside => by rw [← shape]; exact inside) told
      refine finish evolves fun key health found => ?_
      rw [ledger] at found
      refine (sound.records key health found).after evolves grown (fun at_ told => ?_)
        (by rw [taken]; exact (sound.records key health found).free)
      refine (completed _ at_ told).resolve_right fun now => present ?_
      have keyed := (sound.seen seen saw).2 key health found now.2
      exact ⟨health, keyed ▸ found, now.2⟩

/-- Handshakes that were rejected twice leave their evidence or are given that of others. -/
theorem Sound.reject (sound : world.Sound) (session : Session) (started : Instant) (target : Target) {first second : Attempt} {error : HandshakeError}
    (repeated : connectTwice first second = .error (error, true)) {id : Uuid}
    (fresh : id ∉ world.drawn) (detectedAt : Int) :
    (world.settle world.clock session started target first second id detectedAt).Sound := by
  cases looked : session.observation with
  | none =>
    have same : world.settle world.clock session started target first second id detectedAt =
        world := by
      simp [World.settle, repeated, looked]
    rwa [same]
  | some seen =>
    by_cases falls : error.permitsFallback = true
    swap
    · have same : world.settle world.clock session started target first second id detectedAt =
          world := by
        simp [World.settle, repeated, looked, falls]
      rwa [same]
    obtain ⟨earlier, rfl, unsupported, rfl, unsupported'⟩ := connectTwice_repeated repeated
    generalize shape : world.settle world.clock session started target (.answered earlier)
      (.answered error.status) id detectedAt = next
    simp only [World.settle, repeated, looked, falls, if_true] at shape
    generalize whole : world.ledger.candidate world.clock target (some seen) started error.status id
      detectedAt = result at shape
    obtain ⟨evidence, ledger⟩ := result
    generalize named : (⟨id, target.providerEntryId, seen.key, error.status, detectedAt⟩ :
      CapabilityEvent) = event at shape
    generalize isLate : (world.ledger[seen.key]?.any fun health =>
      health.confirmed && health.candidate.isNone) = flagged at shape
    have identified : event.id = id := by rw [← named]
    have status : event.status = error.status := by rw [← named]
    -- what is told, whichever evidence is handed out
    obtain ⟨new, log, quiet⟩ : ∃ new : List Report,
        next.log = new ++ .rejected event seen.epoch started (.answered earlier)
          (.answered event.status) :: world.log ∧ ∀ report ∈ new, report = .late event := by
      refine ⟨_, by rw [← shape, status], fun report inside => ?_⟩
      split at inside
      · exact List.mem_singleton.mp inside
      · cases inside
    have grown : world.log <:+ next.log := by
      rw [log]
      exact (List.suffix_cons _ _).trans (List.suffix_append _ _)
    have told : .rejected event seen.epoch started (.answered earlier) (.answered event.status) ∈
        next.log := by
      rw [log]
      exact List.mem_append_right _ List.mem_cons_self
    have silent : ∀ epoch at_, .completed epoch at_ ∈ next.log →
        .completed epoch at_ ∈ world.log := by
      intro epoch at_ told
      rw [log] at told
      rcases List.mem_append.mp told with inside | inside
      · cases quiet _ inside
      · exact (List.mem_cons.mp inside).resolve_left Report.noConfusion
    have made : ∀ other, Made next.log other → Made world.log other ∨ some event = some other := by
      intro other made
      rw [log] at made
      obtain ⟨epoch, started', first, second, inside⟩ :=
        made_append _ (fun _ _ _ _ _ inside => by cases quiet _ inside) made
      rcases List.mem_cons.mp inside with same | before
      · cases same
        exact Or.inr rfl
      · exact Or.inl ⟨epoch, started', first, second, before⟩
    have acked : World.acknowledged next.log = World.acknowledged world.log := by
      rw [log, World.acknowledged, World.acknowledged, List.filterMap_append,
        List.filterMap_eq_nil_iff.mpr, List.nil_append]
      · rfl
      · intro report inside
        rw [quiet report inside]
    have taken : next.taken = world.taken := by rw [World.taken, acked, ← shape]; rfl
    have sessions : next.sessions = world.sessions := by rw [← shape]
    have drawn : ∀ old ∈ world.drawn, old ∈ next.drawn := by
      rw [← shape]
      exact fun old inside => List.mem_cons_of_mem _ inside
    have new_ : ∀ other, some event = some other → other.id ∉ world.drawn ∧ other.id ∈ next.drawn := by
      rintro other ⟨⟩
      rw [← shape, identified]
      exact ⟨fresh, List.mem_cons_self⟩
    have untaken : event.id ∉ world.taken := by
      intro inside
      rw [identified] at inside
      rcases List.mem_append.mp inside with acknowledged | waits
      · obtain ⟨other, made, rfl⟩ := sound.acknowledged id acknowledged
        exact fresh (sound.named other made)
      · obtain ⟨other, listed, rfl⟩ := List.mem_map.mp waits
        obtain ⟨_, _, _, rejected, -⟩ := sound.pending other listed
        exact fresh (sound.named other rejected.made)
    have finish : Evolves world next → (∀ (key : ConfigKey) (health : Health),
        next.ledger[key]? = some health → Grounded next key health) →
        (∀ held, evidence = some held → Made next.log held.event) → next.Sound := by
      intro evolves records given
      refine sound.after evolves grown (some event) made new_ records ?_ ?_ ?_ (taken ▸ sound.once)
      · intro held inside
        rw [← shape] at inside
        rcases List.mem_append.mp inside with now | before
        · exact given held (Option.mem_toList.mp now)
        · exact (sound.handed held before).grown grown
      · intro other waits
        rw [← shape] at waits
        exact Or.inl waits
      · rw [acked]
        intro id inside
        obtain ⟨other, told, same⟩ := sound.acknowledged id inside
        exact ⟨other, told.grown grown, same⟩
    have frame : ledger = world.ledger → (∀ held, evidence = some held → Made next.log held.event) →
        next.Sound := by
      intro same given
      have kept : next.ledger = world.ledger := by rw [← shape]; exact same
      have evolves : Evolves world next := .frame kept (by rw [← shape]) sessions drawn
        fun epoch at_ told => Or.inl (silent epoch at_ told)
      refine finish evolves (fun key health found => ?_) given
      rw [kept] at found
      exact (sound.records key health found).after evolves grown (silent _)
        (by rw [taken]; exact (sound.records key health found).free)
    rcases Ledger.candidate_cases world.ledger world.clock target (some seen) started error.status id
      detectedAt with nothing | ⟨_, before, ⟨⟩, found, epoch, older, others | own⟩
    · rw [whole] at nothing
      cases nothing
      exact frame rfl fun _ never => by cases never
    · obtain ⟨held, candidate, given⟩ := others
      rw [whole] at given
      cases given
      refine frame rfl fun other same => ?_
      cases same
      obtain ⟨_, _, _, rests⟩ := (sound.records _ before found).rests held candidate
      exact rests.rejected.made.grown grown
    · obtain ⟨vacant, given⟩ := own
      simp only [whole, named, Prod.mk.injEq] at given
      obtain ⟨rfl, written⟩ := given
      have inserted : next.ledger = world.ledger.insert seen.key
          { before with candidate := some ⟨event, world.clock⟩ } := by
        rw [← shape]
        exact written
      have evolves : Evolves world next := .record found inserted rfl (by rw [← shape]) sessions drawn
        fun epoch at_ told => Or.inl (silent epoch at_ told)
      refine finish evolves (sound.record evolves found inserted grown
        (fun epoch at_ told => Or.inl (silent epoch at_ told)) (fun id inside => Or.inl (taken ▸ inside))
        ⟨fun at_ told => ?_, ?_, ?_, ?_⟩) ?_
      · exact (sound.records _ before found).counted at_ (silent _ at_ told)
      · rintro held ⟨⟩
        rw [← named]
      · rintro held ⟨⟩
        refine ⟨seen.epoch, started, earlier, ⟨told, unsupported, status ▸ unsupported', ?_⟩,
          Or.inl epoch.symm, fun confirmed => Or.inl ?_⟩
        · intro at_ told
          have counted := (sound.records _ before found).counted at_
          rw [epoch] at counted
          obtain ⟨last, success, upto⟩ := counted (silent _ at_ told)
          exact upto.trans_lt (older last success)
        · have empty : before.candidate = none := vacant.resolve_right fun unconfirmed => by
            rw [unconfirmed] at confirmed
            cases confirmed
          have flag : flagged = true := by
            rw [← isLate, found]
            simp only [Option.any_some, empty, Option.isNone_none, Bool.and_true]
            exact confirmed
          rw [← shape]
          simp [flag]
      · rintro held ⟨⟩
        exact taken ▸ untaken
      · rintro held ⟨⟩
        exact ⟨_, _, _, _, told⟩

/-- Handshakes end. -/
theorem Sound.settle (sound : world.Sound) (session : Session) (started : Instant) (target : Target) (first second : Attempt) {id : Uuid}
    (fresh : id ∉ world.drawn) (detectedAt : Int) :
    (world.settle world.clock session started target first second id detectedAt).Sound := by
  cases ended : connectTwice first second with
  | ok => simpa [World.settle, ended] using sound
  | error failure =>
    obtain ⟨error, repeated⟩ := failure
    cases repeated with
    | false => simpa [World.settle, ended] using sound
    | true => exact sound.reject session started target ended fresh detectedAt

/-- A request over HTTP succeeds. -/
theorem Sound.serve (sound : world.Sound) {evidence : Option Evidence}
    (carried : ∀ held ∈ evidence, held ∈ world.handed) :
    Sound { world with
      ledger := world.ledger.httpSuccess world.clock evidence
      log := (evidence.toList.map fun held => .served held.event) ++ world.log } := by
  cases evidence with
  | none => exact sound
  | some held =>
    generalize shape : ({ world with
      ledger := world.ledger.httpSuccess world.clock (some held)
      log := ((some held).toList.map fun held => .served held.event) ++ world.log } : World) = next
    have log : next.log = [.served held.event] ++ world.log := by rw [← shape]; rfl
    have grown : world.log <:+ next.log := ⟨_, log.symm⟩
    have quiet : ∀ report ∈ [Report.served held.event], ∃ event, report = .served event :=
      fun report inside => ⟨held.event, List.mem_singleton.mp inside⟩
    have silent : ∀ epoch at_, .completed epoch at_ ∈ next.log →
        .completed epoch at_ ∈ world.log := completed_of_cons log nofun
    have sessions : next.sessions = world.sessions := by rw [← shape]
    have drawn : ∀ old ∈ world.drawn, old ∈ next.drawn := by rw [← shape]; exact fun _ inside => inside
    by_cases confirms : ∃ before, world.ledger[held.event.configKey]? = some before ∧
        world.clock - held.created < sessionAffinityTtl ∧
        (∃ candidate, before.candidate = some candidate ∧ candidate.event.id = held.event.id) ∧
        before.confirmed = false
    · obtain ⟨before, found, recent, ⟨candidate, stands, same⟩, unconfirmed⟩ := confirms
      have inserted : next.ledger = world.ledger.insert held.event.configKey
          { before with confirmed := true } := by
        rw [← shape]
        simp [Ledger.httpSuccess, Option.filter_some, recent, found, stands, same, unconfirmed]
      have taken : next.taken = world.taken := by
        rw [World.taken, log, ← shape]
        rfl
      have evolves : Evolves world next := .record found inserted rfl (by rw [← shape]) sessions drawn
        fun epoch at_ told => Or.inl (silent epoch at_ told)
      have grounded := sound.records _ before found
      obtain ⟨epoch, started, earlier, rests⟩ := grounded.rests candidate stands
      have own : held.event = candidate.event := sound.unique _ _
        (sound.handed held (carried held rfl)) rests.rejected.made same.symm
      refine sound.after evolves grown none (fun event made => Or.inl ?_)
        (fun _ never => by cases never) (sound.record evolves found inserted grown
          (fun epoch at_ told => Or.inl (silent epoch at_ told))
          (fun id inside => Or.inl (taken ▸ inside)) ⟨fun at_ told => ?_, grounded.keyed, ?_, ?_⟩)
        ?_ ?_ ?_ (taken ▸ sound.once)
      · rw [log] at made
        exact made_append _ (fun _ _ _ _ _ inside => by simp at inside) made
      · exact grounded.counted at_ (silent _ at_ told)
      · intro other stands'
        rw [show other = candidate from Option.some.inj (stands'.symm.trans stands)]
        have kept := rests.after evolves grown (silent _)
        refine ⟨epoch, started, earlier, kept.rejected, kept.ended, fun _ => Or.inr (Or.inl ?_)⟩
        rw [log, own]
        exact (List.singleton_sublist.mpr rests.rejected.told).cons_cons _
      · intro other stands'
        exact taken ▸ grounded.free other stands'
      · intro other inside
        rw [← shape] at inside
        exact (sound.handed other inside).grown grown
      · intro event waits
        rw [← shape] at waits
        exact Or.inl waits
      · rw [log]
        intro id inside
        obtain ⟨event, told, named⟩ := sound.acknowledged id inside
        exact ⟨event, told.grown ⟨_, rfl⟩, named⟩
    · have kept : next.ledger = world.ledger := by
        rw [← shape]
        simp only [Ledger.httpSuccess, Option.filter_some]
        split
        · rfl
        · rename_i given filtered
          split at filtered
          · rename_i recent
            cases filtered
            simp only [decide_eq_true_eq] at recent
            split
            · rfl
            · rename_i before found
              refine if_neg fun passes => confirms ⟨before, found, recent, ?_⟩
              simp only [Bool.and_eq_true, Bool.not_eq_true', Option.any_eq_true,
                decide_eq_true_eq] at passes
              exact passes
          · cases filtered
      exact sound.frame (.frame kept (by rw [← shape]) sessions drawn fun epoch at_ told =>
        Or.inl (silent epoch at_ told)) kept (by rw [← shape]) (by rw [← shape]) log quiet

/-- An event that was captured is restored, once. -/
theorem Sound.restore (sound : world.Sound) {event : CapabilityEvent} (waits : event ∈ world.pending) :
    (world.restore world.clock event).Sound := by
  have erased : (world.pending.erase event).Sublist world.pending := List.erase_sublist
  by_cases takes : ∃ before, world.ledger[event.configKey]? = some before ∧
      before.lastSuccess = none ∧ before.confirmed = false
  · obtain ⟨before, found, unseen, unconfirmed⟩ := takes
    generalize shape : world.restore world.clock event = next
    have log : next.log = .restored event before.epoch :: world.log := by
      rw [← shape]
      simp [World.restore, found, Option.filter_some, unseen, unconfirmed]
    have inserted : next.ledger = world.ledger.insert event.configKey
        { before with candidate := some ⟨event, world.clock⟩, confirmed := true } := by
      rw [← shape]
      simp [World.restore, Ledger.restore, found, unseen, unconfirmed]
    have pending : next.pending = world.pending.erase event := by rw [← shape]; rfl
    have grown : world.log <:+ next.log := ⟨[_], log.symm⟩
    have silent : ∀ epoch at_, .completed epoch at_ ∈ next.log →
        .completed epoch at_ ∈ world.log := completed_of_cons log nofun
    have acked : World.acknowledged next.log = World.acknowledged world.log := by rw [log]; rfl
    have taken : next.taken.Sublist world.taken := by
      rw [World.taken, World.taken, acked, pending]
      exact (List.Sublist.refl _).append (erased.map _)
    have gone : event.id ∉ next.taken := by
      intro inside
      have once := sound.once
      rw [World.taken, List.nodup_append] at once
      rw [World.taken, acked, pending] at inside
      rcases List.mem_append.mp inside with earlier | listed
      · exact once.2.2 _ earlier _ (List.mem_map_of_mem waits) rfl
      · obtain ⟨other, left, same⟩ := List.mem_map.mp listed
        have distinct := once.2.1
        have equal : other = event :=
          List.inj_on_of_nodup_map distinct (erased.mem left) waits same
        exact (List.Nodup.not_mem_erase distinct.of_map) (equal ▸ left)
    have evolves : Evolves world next := .record found inserted rfl (by rw [← shape]; rfl)
      (by rw [← shape]; rfl) (by rw [← shape]; exact fun _ inside => inside)
      fun epoch at_ told => Or.inl (silent epoch at_ told)
    refine sound.after evolves grown none (fun event made => Or.inl ?_)
      (fun _ never => by cases never) (sound.record evolves found inserted grown
        (fun epoch at_ told => Or.inl (silent epoch at_ told))
        (fun id inside => Or.inl (taken.mem inside)) ⟨fun at_ told => ?_, ?_, ?_, ?_⟩)
      ?_ ?_ ?_ (sound.once.sublist taken)
    · rw [log] at made
      exact made_append [_] (by simp) made
    · exact (sound.records _ before found).counted at_ (silent _ at_ told)
    · rintro held ⟨⟩
      rfl
    · rintro held ⟨⟩
      obtain ⟨epoch, started, earlier, rejected, retired⟩ := sound.pending event waits
      refine ⟨epoch, started, earlier,
        rejected.grown grown fun at_ told => evolves.uncompleted retired told,
        Or.inr (evolves.retired retired), fun _ => Or.inr (Or.inr ⟨?_, unseen⟩)⟩
      rw [log]
      exact List.mem_cons_self
    · rintro held ⟨⟩
      exact gone
    · intro held inside
      rw [← shape] at inside
      exact (sound.handed held inside).grown grown
    · intro other left
      rw [pending] at left
      exact Or.inl (erased.mem left)
    · rw [acked]
      intro id inside
      obtain ⟨other, told, same⟩ := sound.acknowledged id inside
      exact ⟨other, told.grown grown, same⟩
  · have same : world.restore world.clock event =
        { world with pending := world.pending.erase event } := by
      rw [World.restore, Ledger.restore]
      cases found : world.ledger[event.configKey]? with
      | none => simp
      | some before =>
        have refused : (before.lastSuccess.isNone && !before.confirmed) = false := by
          rw [Bool.eq_false_iff]
          intro passes
          simp only [Bool.and_eq_true, Option.isNone_iff_eq_none, Bool.not_eq_true'] at passes
          exact takes ⟨before, found, passes⟩
        simp [Option.filter_some, refused]
    rw [same]
    exact sound.frame (.frame rfl rfl rfl (fun _ inside => inside) fun _ _ told => Or.inl told) rfl
      rfl erased (List.nil_append _).symm (by simp)

/-- An event is acknowledged. -/
theorem Sound.acknowledge (sound : world.Sound) (event : CapabilityEvent) :
    (world.acknowledge event).Sound := by
  by_cases takes : ∃ before held, world.ledger[event.configKey]? = some before ∧
      before.candidate = some held ∧ held.event.id = event.id
  · obtain ⟨before, held, found, candidate, identified⟩ := takes
    generalize shape : world.acknowledge event = next
    have log : next.log = .acknowledged held.event :: world.log := by
      rw [← shape]
      simp [World.acknowledge, found, candidate, Option.filter_some, identified]
    have inserted : next.ledger = world.ledger.insert event.configKey
        { before with candidate := none } := by
      rw [← shape]
      simp [World.acknowledge, Ledger.acknowledge, found, candidate, identified]
    have grown : world.log <:+ next.log := ⟨[_], log.symm⟩
    have silent : ∀ epoch at_, .completed epoch at_ ∈ next.log →
        .completed epoch at_ ∈ world.log := completed_of_cons log nofun
    have acked : World.acknowledged next.log = held.event.id :: World.acknowledged world.log := by
      rw [log]
      rfl
    have taken : next.taken = held.event.id :: world.taken := by
      rw [World.taken, acked, ← shape]
      rfl
    have grounded := sound.records _ before found
    have evolves : Evolves world next := .record found inserted rfl (by rw [← shape]; rfl)
      (by rw [← shape]; rfl) (by rw [← shape]; exact fun _ inside => inside)
      fun epoch at_ told => Or.inl (silent epoch at_ told)
    refine sound.after evolves grown none (fun event made => Or.inl ?_)
      (fun _ never => by cases never) (sound.record evolves found inserted grown
        (fun epoch at_ told => Or.inl (silent epoch at_ told)) (fun id inside => ?_)
        ⟨fun at_ told => grounded.counted at_ (silent _ at_ told), by simp, by simp, by simp⟩)
      ?_ ?_ ?_ (taken ▸ List.nodup_cons.mpr ⟨grounded.free held candidate, sound.once⟩)
    · rw [log] at made
      exact made_append [_] (by simp) made
    · rw [taken] at inside
      exact (List.mem_cons.mp inside).symm.imp_right fun same => ⟨held, candidate, same⟩
    · intro other inside
      rw [← shape] at inside
      exact (sound.handed other inside).grown grown
    · intro other waits
      rw [← shape] at waits
      exact Or.inl waits
    · rw [acked]
      intro id inside
      rcases List.mem_cons.mp inside with rfl | earlier
      · obtain ⟨_, _, _, rests⟩ := grounded.rests held candidate
        exact ⟨held.event, rests.rejected.made.grown grown, rfl⟩
      · obtain ⟨other, told, same⟩ := sound.acknowledged id earlier
        exact ⟨other, told.grown grown, same⟩
  · have same : world.acknowledge event = world := by
      rw [World.acknowledge, Ledger.acknowledge]
      cases found : world.ledger[event.configKey]? with
      | none => simp
      | some before =>
        cases candidate : before.candidate with
        | none => simp [candidate]
        | some held =>
          have other : held.event.id ≠ event.id := fun same =>
            takes ⟨before, held, found, candidate, same⟩
          simp [candidate, Option.filter_some, other]
    rwa [same]

/-- The epochs of the next records are those of records before or newly drawn. -/
theorem Fresh.drawn {config : Config} {epochs : ConfigKey → Uuid} (fresh : world.Fresh config epochs) :
    ∀ key ∈ Ledger.validKeys config, epochs key ∉ world.drawn ∧
      ∀ other ∈ Ledger.validKeys config, epochs key = epochs other → key = other := by
  intro key inside
  obtain ⟨distinct, -, apart⟩ := List.nodup_append.mp fresh
  exact ⟨fun drawn => apart _ (List.mem_map_of_mem inside) _ drawn rfl,
    fun other inside' same => List.inj_on_of_nodup_map distinct inside inside' same⟩

/-- A new record. -/
theorem Sound.newRecord (sound : world.Sound) {epoch : Uuid} (new : epoch ∉ world.drawn)
    (silent : ∀ epoch at_, .completed epoch at_ ∈ next.log → .completed epoch at_ ∈ world.log)
    (key : ConfigKey) : Grounded next key { epoch } :=
  ⟨fun at_ told => absurd (sound.past epoch at_ (silent epoch at_ told)).2 new, by simp, by simp,
    by simp⟩

/-- The configuration is reloaded. -/
theorem Sound.reload (sound : world.Sound) {config : Config} {epochs : ConfigKey → Uuid}
    (fresh : world.Fresh config epochs) :
    Sound { world with
      config, ledger := world.ledger.updateConfig world.config config epochs
      drawn := (Ledger.validKeys config).map epochs ++ world.drawn } := by
  generalize shape : ({ world with
    config, ledger := world.ledger.updateConfig world.config config epochs
    drawn := (Ledger.validKeys config).map epochs ++ world.drawn } : World) = next
  have log : next.log = world.log := by rw [← shape]
  have records : ∀ (key : ConfigKey) (health : Health), next.ledger[key]? = some health →
      world.ledger[key]? = some health ∨
        key ∈ Ledger.validKeys config ∧ health = { epoch := epochs key } := by
    intro key health found
    rw [← shape] at found
    rcases world.ledger.get_updateConfig world.config config epochs key with none_ | kept | ⟨inside, new⟩
    · rw [none_] at found
      cases found
    · exact Or.inl (kept ▸ found)
    · rw [new] at found
      exact Or.inr ⟨inside, (Option.some.inj found).symm⟩
  have evolves : Evolves world next := by
    refine ⟨by rw [← shape], ?_, fun key health found => ?_, fun seen looked => ?_,
      fun epoch at_ told => Or.inl (log ▸ told)⟩
    · rw [← shape]
      exact fun id inside => List.mem_append_right _ inside
    · rcases records key health found with before | ⟨inside, rfl⟩
      · exact Or.inl ⟨health, before, rfl⟩
      · refine Or.inr ⟨(fresh.drawn key inside).1, ?_, fun other health' found' same => ?_⟩
        · rw [← shape]
          exact List.mem_append_left _ (List.mem_map_of_mem inside)
        · rcases records other health' found' with before | ⟨inside', rfl⟩
          · have drawn := sound.drawn other health' before
            rw [← same] at drawn
            exact absurd drawn (fresh.drawn key inside).1
          · exact (fresh.drawn key inside).2 other inside' same
    · rw [← shape] at looked
      exact Or.inl looked
  have taken : next.taken = world.taken := by rw [← shape]; rfl
  refine sound.after evolves (log ▸ List.suffix_rfl) none (fun event made => Or.inl (log ▸ made))
    (fun _ never => nomatch never) (fun key health found => ?_) ?_ ?_ ?_ (taken ▸ sound.once)
  · rcases records key health found with before | ⟨inside, rfl⟩
    · exact (sound.records key health before).after evolves (log ▸ List.suffix_rfl)
        (fun at_ told => log ▸ told) (taken ▸ (sound.records key health before).free)
    · exact sound.newRecord (fresh.drawn key inside).1 (fun _ _ told => log ▸ told) key
  · rw [← shape]
    exact sound.handed
  · intro event waits
    rw [← shape] at waits
    exact Or.inl waits
  · rw [log]
    exact sound.acknowledged

/-- The events reported have distinct identifiers. -/
theorem Sound.events_nodup (sound : world.Sound) :
    (world.ledger.events.map CapabilityEvent.id).Nodup := by
  have listed : world.ledger.events.map CapabilityEvent.id =
      world.ledger.toList.filterMap fun entry =>
        if entry.2.confirmed then entry.2.candidate.map fun held => held.event.id else none := by
    rw [Ledger.events, Table.valueList, List.filter_map, List.filterMap_map, List.filterMap_filter,
      List.map_filterMap]
    refine List.filterMap_congr fun entry _ => ?_
    simp only [Function.comp_apply]
    split
    · rw [Option.map_map]
      rfl
    · rfl
  rw [listed, List.Nodup, List.pairwise_filterMap]
  have distinct := List.pairwise_map.mp (Table.toList_keys_nodup world.ledger)
  refine distinct.imp_of_mem ?_
  rintro ⟨key, health⟩ ⟨other, health'⟩ inside inside' differ id named id' named' rfl
  simp only [Option.ite_none_right_eq_some, Option.map_eq_some_iff] at named named'
  obtain ⟨-, held, candidate, rfl⟩ := named
  obtain ⟨-, held', candidate', same⟩ := named'
  have grounded := sound.records key health (Table.mem_toList.mp inside)
  have grounded' := sound.records other health' (Table.mem_toList.mp inside')
  obtain ⟨_, _, _, rests⟩ := grounded.rests held candidate
  obtain ⟨_, _, _, rests'⟩ := grounded'.rests held' candidate'
  have equal := sound.unique _ _ rests'.rejected.made rests.rejected.made same
  have keyed := grounded'.keyed held' candidate'
  rw [equal, grounded.keyed held candidate] at keyed
  exact differ keyed

/-- The listener is stopped and the next one starts. -/
theorem Sound.restart (sound : world.Sound) {config : Config} {epochs : ConfigKey → Uuid}
    (fresh : world.Fresh config epochs) :
    Sound { world with
      config, ledger := .initial config epochs, sessions := [], handed := []
      pending := world.ledger.events
      drawn := (Ledger.validKeys config).map epochs ++ world.drawn } := by
  generalize shape : ({ world with
    config, ledger := .initial config epochs, sessions := [], handed := []
    pending := world.ledger.events
    drawn := (Ledger.validKeys config).map epochs ++ world.drawn } : World) = next
  have log : next.log = world.log := by rw [← shape]
  have records : ∀ (key : ConfigKey) (health : Health), next.ledger[key]? = some health →
      key ∈ Ledger.validKeys config ∧ health = { epoch := epochs key } := by
    intro key health found
    rw [← shape] at found
    simp only [Ledger.get_initial, Option.ite_none_right_eq_some, Option.some.injEq] at found
    exact ⟨found.1, found.2.symm⟩
  have unseen : ∀ seen, ¬ next.Seen seen := by
    rintro seen ⟨session, inside, -⟩
    rw [← shape] at inside
    cases inside
  have evolves : Evolves world next := by
    refine ⟨by rw [← shape], ?_, fun key health found => ?_, fun seen looked =>
      absurd looked (unseen seen), fun epoch at_ told => Or.inl (log ▸ told)⟩
    · rw [← shape]
      exact fun id inside => List.mem_append_right _ inside
    · obtain ⟨inside, rfl⟩ := records key health found
      refine Or.inr ⟨(fresh.drawn key inside).1, ?_, fun other health' found' same => ?_⟩
      · rw [← shape]
        exact List.mem_append_left _ (List.mem_map_of_mem inside)
      · obtain ⟨inside', rfl⟩ := records other health' found'
        exact (fresh.drawn key inside).2 other inside' same
  have retired : ∀ epoch ∈ world.drawn, next.Retired epoch := by
    refine fun epoch drawn => ⟨evolves.drawn _ drawn, fun key health found same => ?_,
      fun seen looked => absurd looked (unseen seen)⟩
    obtain ⟨inside, rfl⟩ := records key health found
    rw [← same] at drawn
    exact (fresh.drawn key inside).1 drawn
  have pending : ∀ event, event ∈ next.pending ↔ ∃ (key : ConfigKey) (health : Health)
      (held : Evidence), world.ledger[key]? = some health ∧ health.confirmed = true ∧
        health.candidate = some held ∧ held.event = event := by
    intro event
    rw [← shape]
    exact Ledger.mem_events
  have taken : next.taken = World.acknowledged world.log ++
      world.ledger.events.map CapabilityEvent.id := by
    rw [World.taken, log, ← shape]
  refine sound.after evolves (log ▸ List.suffix_rfl) none (fun event made => Or.inl (log ▸ made))
    (fun _ never => absurd never (Option.not_mem_none _)) (fun key health found => ?_) ?_
    (fun event waits => Or.inr ?_) ?_ ?_
  · obtain ⟨inside, rfl⟩ := records key health found
    exact sound.newRecord (fresh.drawn key inside).1 (fun _ _ told => log ▸ told) key
  · rw [← shape]
    exact fun _ never => absurd never List.not_mem_nil
  · obtain ⟨key, health, held, found, -, candidate, rfl⟩ := (pending event).mp waits
    obtain ⟨epoch, started, earlier, rests⟩ := (sound.records key health found).rests held candidate
    refine ⟨epoch, started, earlier, log ▸ rests.rejected, retired epoch ?_⟩
    rcases rests.ended with same | before
    · exact same ▸ sound.drawn key health found
    · exact before.drawn
  · rw [log]
    exact sound.acknowledged
  · rw [taken, List.nodup_append]
    refine ⟨(List.nodup_append.mp sound.once).1, sound.events_nodup, ?_⟩
    rintro _ acked _ listed rfl
    obtain ⟨event, reported, rfl⟩ := List.mem_map.mp listed
    obtain ⟨key, health, held, found, -, candidate, rfl⟩ := Ledger.mem_events.mp reported
    exact (sound.records key health found).free held candidate (List.mem_append_left _ acked)

/-- Every step keeps what holds. -/
theorem Sound.act {now : Instant} {action : Action} (sound : world.Sound) (later : world.clock ≤ now)
    (acted : World.act { world with clock := now } now action = some next) : next.Sound := by
  have ticked := sound.tick later
  cases action with
  | observe key =>
    cases acted
    exact ticked.observe key
  | begin_ who =>
    simp only [World.act] at acted
    split at acted
    · rename_i session present
      cases acted
      exact ticked.begin_ present _
    · cases acted
  | settle who target first second id detectedAt =>
    simp only [World.act] at acted
    split at acted
    · split at acted
      · split at acted
        · cases acted
        · rename_i fresh
          cases acted
          exact ticked.settle _ _ target first second fresh detectedAt
      · cases acted
    · cases acted
  | receive who event finishes =>
    simp only [World.act] at acted
    split at acted
    · rename_i session present
      cases acted
      split
      · exact ticked.complete (List.mem_of_getElem? present)
      · exact ticked
    · cases acted
  | confirmProbe who =>
    simp only [World.act] at acted
    split at acted
    · rename_i session present
      cases acted
      exact ticked.complete (List.mem_of_getElem? present)
    · cases acted
  | serve evidence =>
    simp only [World.act, Option.ite_none_right_eq_some] at acted
    obtain ⟨carried, ⟨⟩⟩ := acted
    exact ticked.serve carried
  | restore event =>
    simp only [World.act, Option.ite_none_right_eq_some] at acted
    obtain ⟨waits, ⟨⟩⟩ := acted
    exact ticked.restore waits
  | acknowledge event =>
    cases acted
    exact ticked.acknowledge event
  | reload config epochs =>
    simp only [World.act, Option.ite_none_right_eq_some] at acted
    obtain ⟨fresh, ⟨⟩⟩ := acted
    exact ticked.reload fresh
  | restart config epochs =>
    simp only [World.act, Option.ite_none_right_eq_some] at acted
    obtain ⟨fresh, ⟨⟩⟩ := acted
    exact ticked.restart fresh
  | forget event =>
    cases acted
    exact ticked.frame (.frame rfl rfl rfl (fun _ inside => inside) fun _ _ told => Or.inl told) rfl
      rfl List.erase_sublist (List.nil_append _).symm (by simp)

/-- A listener that has just started. -/
theorem sound_initial {config : Config} {epochs : ConfigKey → Uuid}
    (fresh : World.Fresh {} config epochs) :
    Sound { config, ledger := .initial config epochs
            drawn := (Ledger.validKeys config).map epochs } := by
  have start : Sound {} := by
    refine ⟨⟨by simp, by simp, by simp [Seen], by simp⟩, by simp [Made], by simp [Made], by simp,
      by simp, by simp, by simp [World.acknowledged], by simp [World.taken, World.acknowledged]⟩
  have restarted := start.restart fresh
  have none_ : Ledger.events ∅ = [] := List.eq_nil_iff_forall_not_mem.mpr fun event reported => by
    obtain ⟨_, _, _, found, -⟩ := Ledger.mem_events.mp reported
    simp at found
  simpa only [none_, List.append_nil] using restarted

/-- Every run keeps what holds. -/
theorem sound_of_reached {world : World} (reached : capability.Reached world) : world.Sound := by
  refine reached.invariant _ ?_ fun world label next sound _ stepped => sound.act stepped.1 stepped.2
  rintro world ⟨config, epochs, fresh, rfl⟩
  exact sound_initial fresh

/-- An event that is reported is current or came late. -/
theorem Sound.current (sound : world.Sound) (reported : event ∈ world.ledger.events) :
    .late event ∈ world.log ∨ Current world.log event := by
  obtain ⟨key, health, held, found, confirmed, candidate, rfl⟩ := Ledger.mem_events.mp reported
  obtain ⟨epoch, started, earlier, rests⟩ := (sound.records key health found).rests held candidate
  rcases rests.confirmed confirmed with late | served | ⟨restored, unseen⟩
  · exact Or.inl late
  · exact Or.inr ⟨epoch, started, earlier, rests.rejected, Or.inl served⟩
  · refine Or.inr ⟨epoch, started, earlier, rests.rejected, Or.inr ⟨_, restored, fun at_ told => ?_⟩⟩
    obtain ⟨last, success, -⟩ := (sound.records key health found).counted at_ told
    rw [unseen] at success
    cases success

/-- The flag of a record is set by a request over HTTP that carries the evidence of its candidate,
or by an event that is restored. -/
theorem confirmed_of_act {action : Action} {after : Health} (found : next.ledger[key]? = some after)
    (confirmed : after.confirmed = true)
    (unconfirmed : ∀ before, world.ledger[key]? = some before → before.confirmed = false)
    (acted : World.act world world.clock action = some next) :
    (∃ carried held before, carried ∈ world.handed ∧ world.ledger[key]? = some before ∧
      before.candidate = some held ∧ held.event.id = carried.event.id ∧
      after = { before with confirmed := true } ∧
      next.log = .served carried.event :: world.log) ∨
    ∃ event before, event ∈ world.pending ∧ world.ledger[key]? = some before ∧
      before.lastSuccess = none ∧ event.configKey = key ∧
      after = { before with candidate := some ⟨event, world.clock⟩, confirmed := true } ∧
      next.log = .restored event before.epoch :: world.log := by
  have kept : ∀ {ledger : Ledger}, ledger[key]? = some after → ledger = world.ledger → False := by
    rintro ledger held rfl
    rw [unconfirmed after held] at confirmed
    cases confirmed
  have completed : ∀ session : Session,
      (world.ledger.success world.clock session.observation)[key]? = some after → False := by
    intro session held
    unfold Ledger.success at held
    split at held
    · exact kept held rfl
    · split at held
      · exact kept held rfl
      · split at held
        · exact kept held rfl
        · rw [Table.get_insert] at held
          split at held
          · cases held
            cases confirmed
          · exact kept held rfl
  cases action with
  | observe key =>
    cases acted
    exact (kept found rfl).elim
  | begin_ who =>
    simp only [World.act] at acted
    split at acted
    · cases acted
      exact (kept found rfl).elim
    · cases acted
  | settle who target first second id detectedAt =>
    simp only [World.act] at acted
    split at acted
    · rename_i session _
      split at acted
      · rename_i started _
        split at acted
        · cases acted
        · cases acted
          exfalso
          unfold World.settle at found
          split at found
          · rename_i error seen _ _
            split at found
            · rcases Ledger.candidate_cases world.ledger world.clock target (some seen) started
                error.status id detectedAt with
                nothing | ⟨_, before, ⟨⟩, held, -, -, ⟨_, -, given⟩ | ⟨-, given⟩⟩
              · rw [nothing] at found
                exact kept found rfl
              · rw [given] at found
                exact kept found rfl
              · simp only [given] at found
                rw [Table.get_insert] at found
                split at found
                · rename_i same
                  cases found
                  rw [unconfirmed before (same ▸ held)] at confirmed
                  cases confirmed
                · exact kept found rfl
            · exact kept found rfl
          · exact kept found rfl
      · cases acted
    · cases acted
  | receive who event finishes =>
    simp only [World.act] at acted
    split at acted
    · cases acted
      split at found
      · exact (completed _ found).elim
      · exact (kept found rfl).elim
    · cases acted
  | confirmProbe who =>
    simp only [World.act] at acted
    split at acted
    · cases acted
      exact (completed _ found).elim
    · cases acted
  | serve evidence =>
    simp only [World.act, Option.ite_none_right_eq_some] at acted
    obtain ⟨carried, ⟨⟩⟩ := acted
    simp only [Ledger.httpSuccess] at found
    split at found
    · exact (kept found rfl).elim
    · rename_i given filtered
      obtain ⟨rfl, -⟩ := Option.filter_eq_some_iff.mp filtered
      split at found
      · exact (kept found rfl).elim
      · rename_i before held
        split at found
        · rename_i passes
          rw [Table.get_insert] at found
          split at found
          · rename_i same
            cases found
            simp only [Bool.and_eq_true, Option.any_eq_true, decide_eq_true_eq] at passes
            obtain ⟨⟨candidate, stands, identified⟩, -⟩ := passes
            exact Or.inl ⟨given, candidate, before, carried given rfl, same ▸ held, stands,
              identified, rfl, rfl⟩
          · exact (kept found rfl).elim
        · exact (kept found rfl).elim
  | restore event =>
    simp only [World.act, Option.ite_none_right_eq_some] at acted
    obtain ⟨waits, ⟨⟩⟩ := acted
    simp only [World.restore, Ledger.restore] at found
    split at found
    · exact (kept found rfl).elim
    · rename_i before held
      split at found
      · rename_i passes
        rw [Table.get_insert] at found
        split at found
        · rename_i same
          cases found
          have unseen : before.lastSuccess = none := by
            simp only [Bool.and_eq_true, Option.isNone_iff_eq_none] at passes
            exact passes.1
          refine Or.inr ⟨event, before, waits, same ▸ held, unseen, same, rfl, ?_⟩
          simp [World.restore, held, Option.filter_some, passes]
        · exact (kept found rfl).elim
      · exact (kept found rfl).elim
  | acknowledge event =>
    cases acted
    simp only [World.acknowledge, Ledger.acknowledge] at found
    split at found
    · exact (kept found rfl).elim
    · rename_i before held
      split at found
      · rw [Table.get_insert] at found
        split at found
        · rename_i same
          cases found
          rw [unconfirmed before (same ▸ held)] at confirmed
          cases confirmed
        · exact (kept found rfl).elim
      · exact (kept found rfl).elim
  | reload config epochs =>
    simp only [World.act, Option.ite_none_right_eq_some] at acted
    obtain ⟨-, ⟨⟩⟩ := acted
    rcases world.ledger.get_updateConfig world.config config epochs key with
      none_ | same | ⟨-, new⟩
    · rw [none_] at found
      cases found
    · exact (kept (same ▸ found) rfl).elim
    · rw [new] at found
      cases found
      cases confirmed
  | restart config epochs =>
    simp only [World.act, Option.ite_none_right_eq_some] at acted
    obtain ⟨-, ⟨⟩⟩ := acted
    simp only [Ledger.get_initial, Option.ite_none_right_eq_some, Option.some.injEq] at found
    rw [← found.2] at confirmed
    cases confirmed
  | forget event =>
    cases acted
    exact (kept found rfl).elim

/-- The event by which the flag of a record is set is current. -/
theorem Sound.confirms (sound : world.Sound) {action : Action} {after : Health}
    (found : next.ledger[key]? = some after) (confirmed : after.confirmed = true)
    (unconfirmed : ∀ before, world.ledger[key]? = some before → before.confirmed = false)
    (acted : World.act world world.clock action = some next) :
    ∃ event ∈ next.ledger.events, event.configKey = key ∧ Current next.log event := by
  rcases confirmed_of_act found confirmed unconfirmed acted with
    ⟨carried, held, before, given, was, stands, identified, rfl, log⟩ |
    ⟨event, before, waits, was, unseen, keyed, rfl, log⟩
  · have grounded := sound.records key before was
    obtain ⟨epoch, started, earlier, rests⟩ := grounded.rests held stands
    have own : carried.event = held.event :=
      sound.unique _ _ (sound.handed carried given) rests.rejected.made identified.symm
    refine ⟨held.event, Ledger.mem_events.mpr ⟨key, _, held, found, rfl, stands, rfl⟩,
      grounded.keyed held stands, epoch, started, earlier,
      rests.rejected.grown (log ▸ List.suffix_cons _ _) fun at_ told => ?_, Or.inl ?_⟩
    · exact completed_of_cons log nofun epoch at_ told
    · rw [log, own]
      exact (List.singleton_sublist.mpr rests.rejected.told).cons_cons _
  · obtain ⟨epoch, started, earlier, rejected, -⟩ := sound.pending event waits
    have silent : ∀ epoch at_, .completed epoch at_ ∈ next.log →
        .completed epoch at_ ∈ world.log := completed_of_cons log nofun
    refine ⟨event, Ledger.mem_events.mpr ⟨key, _, _, found, rfl, rfl, rfl⟩, keyed, epoch, started,
      earlier, rejected.grown (log ▸ List.suffix_cons _ _) (silent epoch),
      Or.inr ⟨before.epoch, log ▸ List.mem_cons_self, fun at_ told => ?_⟩⟩
    obtain ⟨last, success, -⟩ := (sound.records key before was).counted at_ (silent _ at_ told)
    rw [unseen] at success
    cases success

end World

/-- WebSockets are not allowed if the configuration turns them off or the record is flagged. -/
theorem Ledger.allowed_eq_false {ledger : Ledger} {config : Config} {key : ConfigKey} :
    ledger.allowed config key = false ↔
      (∃ target ∈ config, target.supportsWebsockets = false ∧ target.configKey = key) ∨
      ∃ health, ledger[key]? = some health ∧ health.confirmed = true := by
  unfold Ledger.allowed
  split
  · rename_i off
    simp only [List.any_eq_true, Bool.and_eq_true, Bool.not_eq_true', decide_eq_true_eq] at off
    simp [off]
  · rename_i on
    simp only [List.any_eq_true, Bool.and_eq_true, Bool.not_eq_true', decide_eq_true_eq] at on
    simp only [on, false_or, Bool.not_eq_false', Option.any_eq_true]

/-- In every run, every event reported or acted upon is current, unless its evidence was recorded
where an acknowledged event had left its flag; every event is acknowledged at most once; and
WebSockets stop being allowed only by an event that is current or by a new configuration that turns
them off. -/
theorem switched_off_on_evidence {world : World} (reached : capability.Reached world) :
    (∀ event, (event ∈ world.ledger.events ∨ ∃ (τ : Type) (apply : Unit → τ) (done : τ),
        world.ledger.withEvent event apply = some done) →
      .late event ∈ world.log ∨ Current world.log event) ∧
    (World.acknowledged world.log).Nodup ∧
    ∀ label next key, capability.step world label next →
      world.ledger.allowed world.config key = true → next.ledger.allowed next.config key = false →
      (∃ event ∈ next.ledger.events, event.configKey = key ∧ Current next.log event) ∨
      next.config ≠ world.config ∧
        ∃ target ∈ next.config, target.supportsWebsockets = false ∧ target.configKey = key := by
  have sound := World.sound_of_reached reached
  refine ⟨fun event reported => sound.current ?_, (List.nodup_append.mp sound.once).1, ?_⟩
  · rcases reported with listed | ⟨_, _, _, ran⟩
    · exact listed
    · exact Ledger.mem_events_of_withEvent ran
  · rintro ⟨now, action⟩ next key ⟨later, acted⟩ before after
    have on : ¬ world.ledger.allowed world.config key = false := by simp [before]
    rw [Ledger.allowed_eq_false, not_or] at on
    rcases Ledger.allowed_eq_false.mp after with off | ⟨health, found, confirmed⟩
    · exact Or.inr ⟨fun same => on.1 (same ▸ off), off⟩
    · refine Or.inl ((sound.tick later).confirms found confirmed (fun before held => ?_) acted)
      exact Bool.eq_false_iff.mpr fun flagged => on.2 ⟨before, held, flagged⟩

/-- The world after a series of steps, if all of them are possible. -/
def World.after (world : World) : List (Instant × Action) → Option World
  | [] => some world
  | (now, action) :: rest =>
    if world.clock ≤ now then
      (World.act { world with clock := now } now action).bind fun next => next.after rest
    else none

/-- A series of steps makes a run. -/
theorem World.reached_after {world next : World} (reached : capability.Reached world)
    {steps : List (Instant × Action)} (went : world.after steps = some next) :
    capability.Reached next := by
  induction steps generalizing world with
  | nil =>
    cases went
    exact reached
  | cons step steps ih =>
    obtain ⟨now, action⟩ := step
    rw [World.after] at went
    split at went
    · rename_i later
      obtain ⟨middle, acted, rest⟩ := Option.bind_eq_some_iff.mp went
      have stepped : capability.step world (now, action) middle := ⟨later, acted⟩
      exact ih (.step reached trivial stepped) rest
    · cases went

/-- One target with WebSockets. -/
def plainTarget : Target := ⟨9, true, 5⟩

/-- A listener that has just started with it. -/
def plainStart : World :=
  { config := [plainTarget], ledger := .initial [plainTarget] fun _ => 7, drawn := [7] }

/-- The run starts there. -/
theorem plainStart_reached : capability.Reached plainStart :=
  .start ⟨[plainTarget], fun _ => 7, by decide, rfl⟩

/-- The event of the handshakes that end first, or of those that end last. -/
def plainEvent (id : Uuid) : CapabilityEvent := ⟨id, 9, 5, 404, 0⟩

/-- Two connections make handshakes, and the first end with two rejections. -/
def twoHandshakes : List (Instant × Action) :=
  [(1, .observe 5), (1, .observe 5), (2, .begin_ 0), (2, .begin_ 1),
    (3, .settle 0 plainTarget (.answered 404) (.answered 404) 1 0)]

/-- An HTTP success confirms the event of the first, it is acknowledged, and the second end. -/
def lateHandshakes : List (Instant × Action) :=
  twoHandshakes ++ [(4, .serve (some ⟨plainEvent 1, 3⟩)), (5, .acknowledge (plainEvent 1)),
    (6, .settle 1 plainTarget (.answered 404) (.answered 404) 2 0)]

/-- An event that an HTTP success confirms is current. -/
theorem switched_off_on_evidence_plain : ∃ world, capability.Reached world ∧
    plainEvent 1 ∈ world.ledger.events ∧ Current world.log (plainEvent 1) := by
  have went : ((plainStart.after (twoHandshakes ++ [(4, .serve (some ⟨plainEvent 1, 3⟩))])).any
      fun world => plainEvent 1 ∈ world.ledger.events ∧ .late (plainEvent 1) ∉ world.log) = true := by
    decide +kernel
  simp only [Option.any_eq_true, decide_eq_true_eq] at went
  obtain ⟨world, went, reported, timely⟩ := went
  have reached := World.reached_after plainStart_reached went
  exact ⟨world, reached, reported,
    ((switched_off_on_evidence reached).1 (plainEvent 1) (Or.inl reported)).resolve_left timely⟩

/-- An event is reported without an HTTP success if its handshakes end after another event of the
record was acknowledged; and WebSockets stop being allowed without an event if the configuration
turns them off. -/
theorem not_always_current :
    (¬ ∀ world, capability.Reached world → ∀ event ∈ world.ledger.events,
      Current world.log event) ∧
    ¬ ∀ world, capability.Reached world → ∀ label next key, capability.step world label next →
      world.ledger.allowed world.config key = true → next.ledger.allowed next.config key = false →
        ∃ event ∈ next.ledger.events, event.configKey = key := by
  constructor
  · intro always
    have went : ((plainStart.after lateHandshakes).any fun world =>
        plainEvent 2 ∈ world.ledger.events ∧ .served (plainEvent 2) ∉ world.log ∧
          (world.log.all fun report => match report with
            | .restored _ _ => false
            | _ => true) = true) = true := by
      decide +kernel
    simp only [Option.any_eq_true, decide_eq_true_eq] at went
    obtain ⟨world, went, reported, unserved, unrestored⟩ := went
    have reached := World.reached_after plainStart_reached went
    obtain ⟨epoch, started, earlier, -, served | ⟨later, restored, -⟩⟩ :=
      always world reached _ reported
    · exact unserved (served.mem List.mem_cons_self)
    · have never := List.all_eq_true.mp unrestored _ restored
      cases never
  · intro only
    have went : ((World.act { plainStart with clock := 1 } 1
        (.reload [{ plainTarget with supportsWebsockets := false }] fun _ => 8)).any fun next =>
          next.ledger.allowed next.config 5 = false ∧ next.ledger.events = []) = true := by
      decide +kernel
    simp only [Option.any_eq_true, decide_eq_true_eq] at went
    obtain ⟨next, acted, off, none_⟩ := went
    have stepped : capability.step plainStart
        (1, .reload [{ plainTarget with supportsWebsockets := false }] fun _ => 8) next :=
      ⟨by decide, acted⟩
    obtain ⟨event, reported, -⟩ :=
      only plainStart plainStart_reached _ next 5 stepped (by decide +kernel) off
    rw [none_] at reported
    cases reported

end Aipass.Websocket
