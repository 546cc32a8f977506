import Aipass.Websocket.Evidence

/-!
# What the record of a key rests on

The epochs of records are drawn once, so an observation of an earlier record never touches a later
one. From this every candidate rests on its own two rejections, and a confirmed one on the HTTP
success that carried it. This module says what a step may do for this to stay so.
-/
namespace Aipass.Websocket

open Proxy (Instant)

/-- The rejections that an event was made of. -/
def Made (log : List Report) (event : CapabilityEvent) : Prop :=
  ∃ epoch started first second, .rejected event epoch started first second ∈ log

variable {log later : List Report} {event : CapabilityEvent}

/-- What was made stays made. -/
theorem Made.grown (made : Made log event) (grown : log <:+ later) :
    Made later event := by
  obtain ⟨epoch, started, first, second, told⟩ := made
  exact ⟨epoch, started, first, second, grown.mem told⟩

/-- The two rejections of a candidate are its making. -/
theorem Rejected.made {epoch : Uuid} {started : Instant} {earlier : StatusCode}
    (rejected : Rejected log event epoch started earlier) : Made log event :=
  ⟨epoch, started, _, _, rejected.told⟩

/-- Two rejections stay without a completion. -/
theorem Rejected.grown {epoch : Uuid} {started : Instant}
    {earlier : StatusCode} (rejected : Rejected log event epoch started earlier)
    (grown : log <:+ later)
    (silent : ∀ at_, .completed epoch at_ ∈ later → .completed epoch at_ ∈ log) :
    Rejected later event epoch started earlier :=
  ⟨grown.mem rejected.told, rejected.first, rejected.second, fun at_ told =>
    rejected.uncompleted at_ (silent at_ told)⟩

/-- Nothing new is made by what is no rejection. -/
theorem made_append (new : List Report)
    (other : ∀ event epoch started first second,
      Report.rejected event epoch started first second ∉ new)
    (made : Made (new ++ log) event) : Made log event := by
  obtain ⟨epoch, started, first, second, told⟩ := made
  exact ⟨epoch, started, first, second,
    (List.mem_append.mp told).resolve_left (other event epoch started first second)⟩

namespace World

/-- Some handshake or probe has looked at a record. -/
def Seen (world : World) (seen : Observation) : Prop :=
  ∃ session ∈ world.sessions, session.observation = some seen

/-- No record has the epoch any more, and nobody that could complete in it has seen it. -/
structure Retired (world : World) (epoch : Uuid) : Prop where
  drawn : epoch ∈ world.drawn
  records : ∀ (key : ConfigKey) (health : Health), world.ledger[key]? = some health →
    health.epoch ≠ epoch
  unseen : ∀ seen, world.Seen seen → seen.epoch ≠ epoch

/-- What holds of the epochs at any time. -/
structure Epochs (world : World) : Prop where
  drawn : ∀ (key : ConfigKey) (health : Health), world.ledger[key]? = some health →
    health.epoch ∈ world.drawn
  /-- Two records have two epochs. -/
  apart : ∀ (key other : ConfigKey) (health health' : Health), world.ledger[key]? = some health →
    world.ledger[other]? = some health' → health.epoch = health'.epoch → key = other
  /-- An epoch that was seen is that of the same key or of no record. -/
  seen : ∀ seen, world.Seen seen → seen.epoch ∈ world.drawn ∧
    ∀ (key : ConfigKey) (health : Health), world.ledger[key]? = some health →
      health.epoch = seen.epoch → key = seen.key
  past : ∀ epoch at_, .completed epoch at_ ∈ world.log → at_ ≤ world.clock ∧ epoch ∈ world.drawn

/-- What a step does with epochs. -/
structure Evolves (world next : World) : Prop where
  clock : world.clock ≤ next.clock
  drawn : ∀ id ∈ world.drawn, id ∈ next.drawn
  /-- A record keeps its epoch or has a new one. -/
  records : ∀ (key : ConfigKey) (health : Health), next.ledger[key]? = some health →
    (∃ before, world.ledger[key]? = some before ∧ before.epoch = health.epoch) ∨
    health.epoch ∉ world.drawn ∧ health.epoch ∈ next.drawn ∧
      ∀ (other : ConfigKey) (health' : Health), next.ledger[other]? = some health' →
        health.epoch = health'.epoch → key = other
  seen : ∀ seen, next.Seen seen → world.Seen seen ∨
    ∃ health, world.ledger[seen.key]? = some health ∧ health.epoch = seen.epoch
  /-- Completions are those of epochs that were seen. -/
  completed : ∀ epoch at_, .completed epoch at_ ∈ next.log → .completed epoch at_ ∈ world.log ∨
    at_ = next.clock ∧ ∃ seen, world.Seen seen ∧ seen.epoch = epoch

variable {world next : World}

/-- An epoch of the world after a step was drawn before or belongs to one key alone. -/
theorem Evolves.epochs (evolves : Evolves world next) (epochs : world.Epochs) : next.Epochs := by
  have drawn : ∀ (key : ConfigKey) (health : Health), next.ledger[key]? = some health →
      health.epoch ∈ next.drawn := by
    intro key health found
    rcases evolves.records key health found with ⟨before, held, same⟩ | ⟨-, new, -⟩
    · exact evolves.drawn _ (same ▸ epochs.drawn key before held)
    · exact new
  have old : ∀ (key : ConfigKey) (health : Health), next.ledger[key]? = some health →
      health.epoch ∈ world.drawn →
        ∃ before, world.ledger[key]? = some before ∧ before.epoch = health.epoch :=
    fun key health found inside =>
      (evolves.records key health found).resolve_right fun new => new.1 inside
  refine ⟨drawn, ?_, ?_, ?_⟩
  · intro key other health health' found found' same
    rcases evolves.records key health found with ⟨before, held, kept⟩ | ⟨-, -, alone⟩
    · have inside := epochs.drawn key before held
      rw [kept, same] at inside
      obtain ⟨before', held', kept'⟩ := old other health' found' inside
      exact epochs.apart key other before before' held held' (by rw [kept, kept', same])
    · exact alone other health' found' same
  · intro seen now
    rcases evolves.seen seen now with earlier | ⟨record, held, same⟩
    · obtain ⟨inside, keyed⟩ := epochs.seen seen earlier
      refine ⟨evolves.drawn _ inside, fun key health found equal => ?_⟩
      obtain ⟨before, held, kept⟩ := old key health found (equal ▸ inside)
      exact keyed key before held (kept.trans equal)
    · have inside := epochs.drawn _ record held
      rw [same] at inside
      refine ⟨evolves.drawn _ inside, fun key health found equal => ?_⟩
      obtain ⟨before, held', kept⟩ := old key health found (equal ▸ inside)
      exact epochs.apart key seen.key before record held' held (by rw [kept, equal, same])
  · intro epoch at_ told
    rcases evolves.completed epoch at_ told with earlier | ⟨rfl, seen, looked, rfl⟩
    · obtain ⟨before, inside⟩ := epochs.past epoch at_ earlier
      exact ⟨before.trans evolves.clock, evolves.drawn _ inside⟩
    · exact ⟨le_rfl, evolves.drawn _ (epochs.seen seen looked).1⟩

/-- A retired epoch stays retired. -/
theorem Evolves.retired (evolves : Evolves world next) {epoch : Uuid}
    (retired : world.Retired epoch) : next.Retired epoch := by
  refine ⟨evolves.drawn _ retired.drawn, fun key health found same => ?_, fun seen now same => ?_⟩
  · rcases evolves.records key health found with ⟨before, held, kept⟩ | ⟨new, -, -⟩
    · exact retired.records key before held (kept.trans same)
    · exact new (same ▸ retired.drawn)
  · rcases evolves.seen seen now with earlier | ⟨record, held, equal⟩
    · exact retired.unseen seen earlier same
    · exact retired.records _ record held (equal.trans same)

/-- Nothing completes in a retired epoch. -/
theorem Evolves.uncompleted (evolves : Evolves world next) {epoch : Uuid}
    (retired : world.Retired epoch) {at_ : Instant} (told : .completed epoch at_ ∈ next.log) :
    .completed epoch at_ ∈ world.log :=
  (evolves.completed epoch at_ told).resolve_right fun ⟨_, seen, looked, same⟩ =>
    retired.unseen seen looked same

/-- The identifiers of events that were acknowledged. -/
def acknowledged (log : List Report) : List Uuid :=
  log.filterMap fun report => match report with
    | .acknowledged event => some event.id
    | _ => none

/-- The identifiers of events that were acknowledged or wait to be restored. -/
def taken (world : World) : List Uuid :=
  acknowledged world.log ++ world.pending.map CapabilityEvent.id

/-- What the candidate of a record rests on. -/
structure Rests (world : World) (health : Health) (event : CapabilityEvent) (epoch : Uuid)
    (started : Instant) (earlier : StatusCode) : Prop where
  rejected : Rejected world.log event epoch started earlier
  ended : epoch = health.epoch ∨ world.Retired epoch
  confirmed : health.confirmed = true → .late event ∈ world.log ∨
    [.served event,
      .rejected event epoch started (.answered earlier) (.answered event.status)].Sublist
        world.log ∨
    .restored event health.epoch ∈ world.log ∧ health.lastSuccess = none

/-- What holds of the record of a key. -/
structure Grounded (world : World) (key : ConfigKey) (health : Health) : Prop where
  counted : ∀ at_, .completed health.epoch at_ ∈ world.log →
    ∃ last, health.lastSuccess = some last ∧ at_ ≤ last
  keyed : ∀ held, health.candidate = some held → held.event.configKey = key
  rests : ∀ held, health.candidate = some held →
    ∃ epoch started earlier, Rests world health held.event epoch started earlier
  free : ∀ held, health.candidate = some held → held.event.id ∉ world.taken

/-- What holds at any time. -/
structure Sound (world : World) : Prop extends Epochs world where
  named : ∀ event, Made world.log event → event.id ∈ world.drawn
  /-- An identifier names one event. -/
  unique : ∀ event other, Made world.log event → Made world.log other → event.id = other.id →
    event = other
  records : ∀ (key : ConfigKey) (health : Health), world.ledger[key]? = some health →
    Grounded world key health
  handed : ∀ held ∈ world.handed, Made world.log held.event
  pending : ∀ event ∈ world.pending, ∃ epoch started earlier,
    Rejected world.log event epoch started earlier ∧ world.Retired epoch
  acknowledged : ∀ id ∈ acknowledged world.log, ∃ event, Made world.log event ∧ event.id = id
  once : world.taken.Nodup

variable {key : ConfigKey} {health : Health}

/-- What a candidate rests on stays as long as its record is not completed. -/
theorem Rests.after (evolves : Evolves world next) {epoch : Uuid} {started : Instant}
    {earlier : StatusCode} (rests : Rests world health event epoch started earlier)
    (grown : world.log <:+ next.log)
    (silent : ∀ at_, .completed health.epoch at_ ∈ next.log →
      .completed health.epoch at_ ∈ world.log) :
    Rests next health event epoch started earlier := by
  refine ⟨rests.rejected.grown grown fun at_ told => ?_, rests.ended.imp_right evolves.retired,
    fun confirmed => ?_⟩
  · rcases rests.ended with same | retired
    · rw [same] at told ⊢
      exact silent at_ told
    · exact evolves.uncompleted retired told
  · rcases rests.confirmed confirmed with late | served | ⟨restored, none_⟩
    · exact Or.inl (grown.mem late)
    · exact Or.inr (Or.inl (served.trans grown.sublist))
    · exact Or.inr (Or.inr ⟨grown.mem restored, none_⟩)

/-- A record that a step leaves alone. -/
theorem Grounded.after (evolves : Evolves world next) (grounded : Grounded world key health)
    (grown : world.log <:+ next.log)
    (silent : ∀ at_, .completed health.epoch at_ ∈ next.log →
      .completed health.epoch at_ ∈ world.log)
    (free : ∀ held, health.candidate = some held → held.event.id ∉ next.taken) :
    Grounded next key health := by
  refine ⟨fun at_ told => grounded.counted at_ (silent at_ told), grounded.keyed, ?_, free⟩
  intro held candidate
  obtain ⟨epoch, started, earlier, rests⟩ := grounded.rests held candidate
  exact ⟨epoch, started, earlier, rests.after evolves grown silent⟩

/-- What a step must keep. -/
theorem Sound.after (sound : world.Sound) (evolves : Evolves world next)
    (grown : world.log <:+ next.log) (new : Option CapabilityEvent)
    (made : ∀ event, Made next.log event → Made world.log event ∨ new = some event)
    (fresh : ∀ event, new = some event → event.id ∉ world.drawn ∧ event.id ∈ next.drawn)
    (records : ∀ (key : ConfigKey) (health : Health), next.ledger[key]? = some health →
      Grounded next key health)
    (handed : ∀ held ∈ next.handed, Made next.log held.event)
    (pending : ∀ event ∈ next.pending, event ∈ world.pending ∨ ∃ epoch started earlier,
      Rejected next.log event epoch started earlier ∧ next.Retired epoch)
    (acked : ∀ id ∈ World.acknowledged next.log, ∃ event, Made next.log event ∧ event.id = id)
    (once : next.taken.Nodup) : next.Sound := by
  refine ⟨evolves.epochs sound.toEpochs, ?_, ?_, records, handed, ?_, acked, once⟩
  · intro event told
    rcases made event told with before | now
    · exact evolves.drawn _ (sound.named event before)
    · exact (fresh event now).2
  · intro event other told told' same
    rcases made event told with before | now <;> rcases made other told' with before' | now'
    · exact sound.unique event other before before' same
    · exact absurd (sound.named event before) (same ▸ (fresh other now').1)
    · exact absurd (sound.named other before') (same ▸ (fresh event now).1)
    · rw [now] at now'
      exact Option.some.inj now'
  · intro event waits
    rcases pending event waits with before | now
    · obtain ⟨epoch, started, earlier, rejected, retired⟩ := sound.pending event before
      exact ⟨epoch, started, earlier,
        rejected.grown grown fun _ told => evolves.uncompleted retired told,
        evolves.retired retired⟩
    · exact now

/-- A step that leaves the records and only tells what changes nothing. -/
theorem Sound.frame (sound : world.Sound) (evolves : Evolves world next)
    (ledger : next.ledger = world.ledger) (handed : next.handed = world.handed)
    (pending : next.pending.Sublist world.pending) {new : List Report}
    (log : next.log = new ++ world.log) (quiet : ∀ report ∈ new, ∃ event, report = .served event) :
    next.Sound := by
  have grown : world.log <:+ next.log := ⟨new, log.symm⟩
  have acked : World.acknowledged next.log = World.acknowledged world.log := by
    rw [log, World.acknowledged, World.acknowledged, List.filterMap_append,
      List.filterMap_eq_nil_iff.mpr, List.nil_append]
    intro report inside
    obtain ⟨event, rfl⟩ := quiet report inside
    rfl
  have taken : next.taken.Sublist world.taken := by
    rw [World.taken, World.taken, acked]
    exact (List.Sublist.refl _).append (pending.map _)
  have made : ∀ event, Made next.log event → Made world.log event := by
    intro event told
    rw [log] at told
    refine made_append _ (fun _ _ _ _ _ inside => ?_) told
    obtain ⟨_, same⟩ := quiet _ inside
    cases same
  have silent : ∀ epoch at_, .completed epoch at_ ∈ next.log →
      .completed epoch at_ ∈ world.log := by
    intro epoch at_ told
    rw [log] at told
    refine (List.mem_append.mp told).resolve_left fun inside => ?_
    obtain ⟨_, same⟩ := quiet _ inside
    cases same
  refine sound.after evolves grown none (fun event told => Or.inl (made event told))
    (fun _ never => by cases never) ?_ ?_ (fun event waits => Or.inl (pending.mem waits)) ?_
    (sound.once.sublist taken)
  · intro key health found
    rw [ledger] at found
    exact (sound.records key health found).after evolves grown (silent _) fun held candidate inside =>
      (sound.records key health found).free held candidate (taken.mem inside)
  · rw [handed]
    exact fun held inside => (sound.handed held inside).grown grown
  · rw [acked]
    intro id inside
    obtain ⟨event, told, same⟩ := sound.acknowledged id inside
    exact ⟨event, told.grown grown, same⟩

/-- A step that changes one record and keeps its epoch. -/
theorem Evolves.record {before after : Health} (found : world.ledger[key]? = some before)
    (ledger : next.ledger = world.ledger.insert key after) (same : after.epoch = before.epoch)
    (clock : next.clock = world.clock) (sessions : next.sessions = world.sessions)
    (drawn : ∀ id ∈ world.drawn, id ∈ next.drawn)
    (completed : ∀ epoch at_, .completed epoch at_ ∈ next.log → .completed epoch at_ ∈ world.log ∨
      at_ = next.clock ∧ ∃ seen, world.Seen seen ∧ seen.epoch = epoch) : Evolves world next := by
  refine ⟨clock.ge, drawn, fun other health held => Or.inl ?_, fun seen now => Or.inl ?_, completed⟩
  · rw [ledger, Table.get_insert] at held
    split at held
    · rename_i equal
      cases held
      exact ⟨before, equal ▸ found, same.symm⟩
    · exact ⟨health, held, rfl⟩
  · rwa [Seen, sessions] at now

/-- A step that leaves the records and the sessions. -/
theorem Evolves.frame (ledger : next.ledger = world.ledger) (clock : next.clock = world.clock)
    (sessions : next.sessions = world.sessions) (drawn : ∀ id ∈ world.drawn, id ∈ next.drawn)
    (completed : ∀ epoch at_, .completed epoch at_ ∈ next.log → .completed epoch at_ ∈ world.log ∨
      at_ = next.clock ∧ ∃ seen, world.Seen seen ∧ seen.epoch = epoch) : Evolves world next := by
  refine ⟨clock.ge, drawn, fun other health held => Or.inl ?_, fun seen now => Or.inl ?_, completed⟩
  · rw [ledger] at held
    exact ⟨health, held, rfl⟩
  · rwa [Seen, sessions] at now

/-- The records after a change of one of them. -/
theorem Sound.record (sound : world.Sound) (evolves : Evolves world next) {before after : Health}
    (found : world.ledger[key]? = some before)
    (ledger : next.ledger = world.ledger.insert key after) (grown : world.log <:+ next.log)
    (completed : ∀ epoch at_, .completed epoch at_ ∈ next.log →
      .completed epoch at_ ∈ world.log ∨ epoch = before.epoch)
    (takes : ∀ id ∈ next.taken, id ∈ world.taken ∨
      ∃ held, before.candidate = some held ∧ id = held.event.id)
    (own : Grounded next key after) (other : ConfigKey) (health : Health)
    (held : next.ledger[other]? = some health) : Grounded next other health := by
  rw [ledger, Table.get_insert] at held
  split at held
  · rename_i equal
    cases held
    exact equal ▸ own
  · rename_i differ
    have grounded := sound.records other health held
    refine grounded.after evolves grown (fun at_ told => ?_) fun evidence candidate inside => ?_
    · refine (completed _ at_ told).resolve_right fun equal => ?_
      exact differ (sound.apart key other before health found held equal.symm)
    · rcases takes _ inside with earlier | ⟨evidence', candidate', equal⟩
      · exact grounded.free evidence candidate earlier
      · obtain ⟨_, _, _, rests⟩ := grounded.rests evidence candidate
        obtain ⟨_, _, _, rests'⟩ := (sound.records key before found).rests evidence' candidate'
        have named := sound.unique _ _ rests.rejected.made rests'.rejected.made equal
        have keyed := grounded.keyed evidence candidate
        rw [named, (sound.records key before found).keyed evidence' candidate'] at keyed
        exact differ keyed

/-- Time passes. -/
theorem Sound.tick (sound : world.Sound) {now : Instant} (later : world.clock ≤ now) :
    Sound { world with clock := now } := by
  have evolves : Evolves world { world with clock := now } :=
    ⟨later, fun _ inside => inside, fun _ health found => Or.inl ⟨health, found, rfl⟩,
      fun _ looked => Or.inl looked, fun _ _ told => Or.inl told⟩
  exact sound.frame evolves rfl rfl (List.Sublist.refl _) (List.nil_append _).symm (by simp)

end World
end Aipass.Websocket
