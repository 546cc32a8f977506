import Mathlib.Data.List.Dedup
import Aipass.Base.Json
import Aipass.Base.Table
import Aipass.Base.Text
import Aipass.Proxy.Health

/-!
# Evidence on WebSocket support

For every transport configuration the proxy keeps one record of what is known about WebSockets:
an epoch that names the life of the record, the latest valid completion, a rejection that is a
candidate, and whether an HTTP success has confirmed it. This module has the record, the two
handshake attempts that make a candidate, and every function that reads or writes the records.
-/
namespace Aipass.Websocket

open Proxy (Instant seconds)

/-- `capability::Key`: the digest `websocket_config_key` of a target and its outbound proxy. -/
abbrev ConfigKey := Digest

/-- `StatusCode`. -/
abbrev StatusCode := ℕ

/-- `SESSION_AFFINITY_TTL`. -/
def sessionAffinityTtl : ℕ := seconds (30 * 60)

/-- `WebsocketCapabilityEvent`. -/
structure CapabilityEvent where
  id : Uuid
  providerEntryId : Uuid
  configKey : ConfigKey
  status : StatusCode
  detectedAt : Int
deriving DecidableEq

/-- `Evidence`. -/
structure Evidence where
  event : CapabilityEvent
  created : Instant
deriving DecidableEq

/-- `Observation`. -/
structure Observation where
  key : ConfigKey
  epoch : Uuid
deriving DecidableEq

/-- `Health`: the record of one transport configuration. -/
structure Health where
  epoch : Uuid
  lastSuccess : Option Instant := none
  candidate : Option Evidence := none
  confirmed : Bool := false
deriving DecidableEq

/-- `ws_health`. -/
abbrev Ledger := Table ConfigKey Health

/-- The part of `ResolvedTarget` that WebSocket support depends on. -/
structure Target where
  providerEntryId : Uuid
  supportsWebsockets : Bool
  /-- `websocket_config_key` of the target under the outbound proxy of the configuration. -/
  configKey : ConfigKey
deriving DecidableEq

/-- `RuntimeConfig`: the targets of its routes. -/
abbrev Config := List Target

/-! ## Handshakes -/

/-- `HandshakeError`. -/
inductive HandshakeError
  | unsupportedCandidate (status : StatusCode)
  | transport (status : StatusCode)
  | rejected (status : StatusCode)
deriving DecidableEq

namespace HandshakeError

/-- `HandshakeError::from_status`. -/
def fromStatus (status : StatusCode) : HandshakeError :=
  if status = 404 ∨ status = 405 ∨ status = 501 then .unsupportedCandidate status
  else if status = 426 then .transport status
  else if 500 ≤ status ∧ status < 600 then .transport status
  else .rejected status

/-- `HandshakeError::status`. -/
def status : HandshakeError → StatusCode
  | .unsupportedCandidate status | .transport status | .rejected status => status

/-- `HandshakeError::permits_fallback`. -/
def permitsFallback : HandshakeError → Bool
  | .rejected _ => false
  | _ => true

/-- Whether the error is a candidate for missing support. -/
def unsupported : HandshakeError → Bool
  | .unsupportedCandidate _ => true
  | _ => false

end HandshakeError

/-- What comes of one handshake attempt. -/
inductive Attempt
  /-- The hold deadline has passed, so it is not made. -/
  | held
  /-- The upstream has switched protocols and the upgrade is valid. -/
  | connected
  /-- The upstream has answered with another status. -/
  | answered (status : StatusCode)
  /-- The connection, or an upgrade that is invalid, has failed. -/
  | broken
  /-- It took too long. -/
  | timedOut
  /-- The headers for the upstream cannot be built. -/
  | unsent (status : StatusCode)
deriving DecidableEq

/-- The error of a rejected upgrade, by the status of the answer. -/
def rejection (status : StatusCode) : HandshakeError :=
  if 400 ≤ status ∧ status < 600 then .fromStatus status else .transport 502

/-- `connect_twice`: the attempts that are left, the last error and the count of rejections in a
row. -/
def connectLoop : List Attempt → HandshakeError → ℕ → Except (HandshakeError × Bool) Unit
  | [], last, rejected => .error (last, rejected == 2)
  | attempt :: attempts, last, rejected =>
    let failed (error : HandshakeError) :=
      let rejected := if error.unsupported then rejected + 1 else 0
      if error.permitsFallback then connectLoop attempts error rejected
      else .error (error, rejected == 2)
    match attempt with
    | .held => .error (last, rejected == 2)
    | .connected => .ok ()
    | .answered status => failed (rejection status)
    | .broken => failed (.transport 502)
    | .timedOut => failed (.transport 504)
    | .unsent status => failed (.rejected status)

/-- `connect_twice`. -/
def connectTwice (first second : Attempt) : Except (HandshakeError × Bool) Unit :=
  connectLoop [first, second] (.transport 504) 0

/-- The statuses that may mean that WebSockets are missing. -/
def Unsupported (status : StatusCode) : Prop := status = 404 ∨ status = 405 ∨ status = 501

/-- Statuses other than these are no candidates. -/
theorem unsupported_fromStatus {status : StatusCode}
    (candidate : (HandshakeError.fromStatus status).unsupported = true) : Unsupported status := by
  unfold HandshakeError.fromStatus at candidate
  split at candidate
  · assumption
  · split at candidate
    · cases candidate
    · split at candidate <;> cases candidate

/-- The status of an error made from a status. -/
theorem status_fromStatus (status : StatusCode) :
    (HandshakeError.fromStatus status).status = status := by
  unfold HandshakeError.fromStatus
  repeat' split
  all_goals rfl

/-- An attempt that adds a candidate was answered with one of the statuses. -/
theorem unsupported_rejection {status : StatusCode}
    (candidate : (rejection status).unsupported = true) :
    Unsupported status ∧ (rejection status).status = status := by
  unfold rejection at candidate ⊢
  split at candidate
  · rename_i answered
    rw [if_pos answered]
    exact ⟨unsupported_fromStatus candidate, status_fromStatus status⟩
  · cases candidate

/-- Two rejections after at most one more attempt: either they were counted before, or the attempt
was the second of them. -/
theorem connectLoop_one {attempt : Attempt} {last error : HandshakeError} {rejected : ℕ}
    (ended : connectLoop [attempt] last rejected = .error (error, true)) :
    rejected = 2 ∧ error = last ∨ rejected = 1 ∧ ∃ status, attempt = .answered status ∧
      Unsupported status ∧ error.status = status := by
  cases attempt with
  | held =>
    simp only [connectLoop, Except.error.injEq, Prod.mk.injEq, beq_iff_eq] at ended
    exact Or.inl ⟨ended.2, ended.1.symm⟩
  | connected => simp [connectLoop] at ended
  | answered status =>
    by_cases candidate : (rejection status).unsupported = true
    · obtain ⟨unsupported, same⟩ := unsupported_rejection candidate
      simp only [connectLoop, candidate, if_true] at ended
      split at ended <;>
        · simp only [Except.error.injEq, Prod.mk.injEq, beq_iff_eq] at ended
          obtain ⟨rfl, counted⟩ := ended
          exact Or.inr ⟨by omega, status, rfl, unsupported, same⟩
    · simp [connectLoop, candidate] at ended
  | broken => simp [connectLoop, HandshakeError.unsupported, HandshakeError.permitsFallback] at ended
  | timedOut =>
    simp [connectLoop, HandshakeError.unsupported, HandshakeError.permitsFallback] at ended
  | unsent status =>
    simp [connectLoop, HandshakeError.unsupported, HandshakeError.permitsFallback] at ended

/-- Handshakes count as rejected repeatedly only if both attempts were answered with one of the
statuses. -/
theorem connectTwice_repeated {first second : Attempt} {error : HandshakeError}
    (ended : connectTwice first second = .error (error, true)) :
    ∃ earlier, first = .answered earlier ∧ Unsupported earlier ∧
      second = .answered error.status ∧ Unsupported error.status := by
  have single : ∀ {last : HandshakeError} {rejected : ℕ},
      connectLoop [second] last rejected = .error (error, true) → rejected ≤ 1 →
        rejected = 1 ∧ ∃ status, second = .answered status ∧ Unsupported status ∧
          error.status = status := fun looped few =>
    (connectLoop_one looped).resolve_left fun counted => by omega
  rw [connectTwice] at ended
  cases first with
  | held => simp [connectLoop] at ended
  | connected => simp [connectLoop] at ended
  | broken =>
    have next : connectLoop [second] (.transport 502) 0 = .error (error, true) := ended
    exact absurd (single next (by decide)).1 (by decide)
  | timedOut =>
    have next : connectLoop [second] (.transport 504) 0 = .error (error, true) := ended
    exact absurd (single next (by decide)).1 (by decide)
  | unsent status =>
    simp [connectLoop, HandshakeError.unsupported, HandshakeError.permitsFallback] at ended
  | answered status =>
    by_cases candidate : (rejection status).unsupported = true
    · have unsupported := (unsupported_rejection candidate).1
      rw [connectLoop] at ended
      simp only [candidate, if_true] at ended
      split at ended
      · obtain ⟨-, later, rfl, alike, same⟩ := single ended (by decide)
        exact ⟨status, rfl, unsupported, by rw [same], by rw [same]; exact alike⟩
      · simp at ended
    · rw [connectLoop] at ended
      simp only [candidate] at ended
      split at ended
      · exact absurd (single ended (by decide)).1 (by decide)
      · simp at ended

/-! ## The records -/

namespace Ledger

variable (ledger : Ledger)

/-- `observe`. -/
def observe (key : ConfigKey) : Option Observation :=
  ledger[key]?.map fun health => ⟨key, health.epoch⟩

/-- `candidate`: the evidence handed out, and the records. The identifier and the date are those
of a new event. -/
def candidate (now : Instant) (target : Target) (observation : Option Observation)
    (started : Instant) (status : StatusCode) (id : Uuid) (detectedAt : Int) :
    Option Evidence × Ledger :=
  match observation with
  | none => (none, ledger)
  | some observation =>
    match ledger[observation.key]? with
    | none => (none, ledger)
    | some health =>
      if health.epoch ≠ observation.epoch ∨ sessionAffinityTtl ≤ now - started then (none, ledger)
      else if health.lastSuccess.any fun success => started ≤ success then (none, ledger)
      else
        let evidence : Evidence :=
          ⟨⟨id, target.providerEntryId, observation.key, status, detectedAt⟩, now⟩
        let vacant := health.candidate.all fun held =>
          !health.confirmed && decide (sessionAffinityTtl ≤ now - held.created)
        let health := if vacant then { health with candidate := some evidence } else health
        (health.candidate, ledger.insert observation.key health)

/-- `success`. -/
def success (now : Instant) (observation : Option Observation) : Ledger :=
  match observation with
  | none => ledger
  | some observation =>
    match ledger[observation.key]? with
    | none => ledger
    | some health =>
      if health.epoch ≠ observation.epoch then ledger
      else ledger.insert observation.key
        { health with lastSuccess := some now, candidate := none, confirmed := false }

/-- `http_success`. -/
def httpSuccess (now : Instant) (evidence : Option Evidence) : Ledger :=
  match evidence.filter fun evidence => now - evidence.created < sessionAffinityTtl with
  | none => ledger
  | some evidence =>
    match ledger[evidence.event.configKey]? with
    | none => ledger
    | some health =>
      if (health.candidate.any fun held => held.event.id = evidence.event.id) &&
          !health.confirmed then
        ledger.insert evidence.event.configKey { health with confirmed := true }
      else ledger

/-- `allowed`. -/
def allowed (config : Config) (key : ConfigKey) : Bool :=
  if config.any fun target => !target.supportsWebsockets && target.configKey = key then false
  else !(ledger[key]?.any Health.confirmed)

/-- `restore_websocket_capability_event`. -/
def restore (now : Instant) (event : CapabilityEvent) : Ledger :=
  match ledger[event.configKey]? with
  | none => ledger
  | some health =>
    if health.lastSuccess.isNone && !health.confirmed then
      ledger.insert event.configKey
        { health with candidate := some ⟨event, now⟩, confirmed := true }
    else ledger

/-- `websocket_capability_events`. -/
def events : List CapabilityEvent :=
  (ledger.valueList.filter Health.confirmed).filterMap fun health =>
    health.candidate.map Evidence.event

/-- `with_websocket_capability_event`. -/
def withEvent {τ : Type} (event : CapabilityEvent) (apply : Unit → τ) : Option τ :=
  match ledger[event.configKey]? with
  | none => none
  | some health =>
    if !health.confirmed || !(health.candidate.any fun held => held.event = event) then none
    else some (apply ())

/-- `acknowledge_websocket_capability_event`. -/
def acknowledge (event : CapabilityEvent) : Ledger :=
  match ledger[event.configKey]? with
  | none => ledger
  | some health =>
    if health.candidate.any fun held => held.event.id = event.id then
      ledger.insert event.configKey { health with candidate := none }
    else ledger

/-- The keys of a configuration, each once. -/
def validKeys (config : Config) : List ConfigKey := (config.map Target.configKey).dedup

/-- The keys whose records start anew because a configuration turns WebSockets on again. -/
def turnedOn (current config : Config) : List ConfigKey :=
  (config.filter fun target => target.supportsWebsockets && current.any fun old =>
    old.providerEntryId = target.providerEntryId && !old.supportsWebsockets).map Target.configKey

/-- `update_config`, as far as the records go: those of other keys and of targets turned on again
are dropped, and a key without one gets a new record, whose epoch is drawn. -/
def updateConfig (current config : Config) (epochs : ConfigKey → Uuid) : Ledger :=
  if current = config then ledger
  else
    let kept := Table.eraseAll (ledger.filter fun key _ => (validKeys config).contains key)
      (turnedOn current config)
    Table.insertAll kept (((validKeys config).filter fun key => kept[key]?.isNone).map fun key =>
      (key, { epoch := epochs key }))

/-- `initial_health`. -/
def initial (config : Config) (epochs : ConfigKey → Uuid) : Ledger :=
  Table.insertAll ∅ ((validKeys config).map fun key => (key, { epoch := epochs key }))

variable {ledger}

/-- What `candidate` does: nothing, or it finds the record of the observation, whose last success
is older than the handshakes, and leaves there the evidence that it hands out. -/
theorem candidate_cases (ledger : Ledger) (now : Instant) (target : Target)
    (observation : Option Observation) (started : Instant) (status : StatusCode) (id : Uuid)
    (detectedAt : Int) :
    ledger.candidate now target observation started status id detectedAt = (none, ledger) ∨
    ∃ seen health, observation = some seen ∧ ledger[seen.key]? = some health ∧
      health.epoch = seen.epoch ∧ (∀ success, health.lastSuccess = some success →
        success < started) ∧
      ((∃ held, health.candidate = some held ∧
        ledger.candidate now target observation started status id detectedAt =
          (some held, ledger)) ∨
      ((health.candidate = none ∨ health.confirmed = false) ∧
        let evidence : Evidence :=
          ⟨⟨id, target.providerEntryId, seen.key, status, detectedAt⟩, now⟩
        ledger.candidate now target observation started status id detectedAt =
          (some evidence, ledger.insert seen.key { health with candidate := some evidence }))) := by
  unfold candidate
  cases observation with
  | none => exact Or.inl rfl
  | some seen =>
    cases found : ledger[seen.key]? with
    | none => exact Or.inl (by simp only [found])
    | some health =>
      simp only [found]
      by_cases stale : health.epoch ≠ seen.epoch ∨ sessionAffinityTtl ≤ now - started
      · exact Or.inl (if_pos stale)
      rw [if_neg stale]
      by_cases overtaken : (health.lastSuccess.any fun success => started ≤ success) = true
      · exact Or.inl (if_pos overtaken)
      rw [if_neg overtaken]
      have older : ∀ success, health.lastSuccess = some success → success < started := by
        intro success last
        simpa [last] using overtaken
      have epoch : health.epoch = seen.epoch := of_not_not fun differ => stale (Or.inl differ)
      refine Or.inr ⟨seen, health, rfl, found, epoch, older, ?_⟩
      by_cases vacant : (health.candidate.all fun held =>
        !health.confirmed && decide (sessionAffinityTtl ≤ now - held.created)) = true
      · rw [if_pos vacant]
        refine Or.inr ⟨?_, rfl⟩
        cases held : health.candidate with
        | none => exact Or.inl rfl
        | some evidence =>
          rw [held] at vacant
          simp only [Option.all_some, Bool.and_eq_true, Bool.not_eq_true'] at vacant
          exact Or.inr vacant.1
      · rw [if_neg vacant]
        cases held : health.candidate with
        | none => simp [held] at vacant
        | some evidence =>
          refine Or.inl ⟨evidence, rfl, ?_⟩
          rw [Prod.mk.injEq]
          refine ⟨rfl, Table.ext_get fun key => ?_⟩
          rw [Table.get_insert]
          split
          · rename_i same
            rw [← same, found]
          · rfl

/-- The events reported are those of confirmed candidates. -/
theorem mem_events {event : CapabilityEvent} : event ∈ ledger.events ↔
    ∃ (key : ConfigKey) (health : Health) (held : Evidence), ledger[key]? = some health ∧
      health.confirmed = true ∧ health.candidate = some held ∧ held.event = event := by
  simp only [events, List.mem_filterMap, List.mem_filter, Table.mem_valueList,
    Option.map_eq_some_iff]
  constructor
  · rintro ⟨health, ⟨⟨key, found⟩, confirmed⟩, held, candidate, same⟩
    exact ⟨key, health, held, found, confirmed, candidate, same⟩
  · rintro ⟨key, health, held, found, confirmed, candidate, same⟩
    exact ⟨health, ⟨⟨key, found⟩, confirmed⟩, held, candidate, same⟩

/-- An action runs for events that are reported. -/
theorem mem_events_of_withEvent {τ : Type} {event : CapabilityEvent} {apply : Unit → τ} {done : τ}
    (ran : ledger.withEvent event apply = some done) : event ∈ ledger.events := by
  unfold withEvent at ran
  cases found : ledger[event.configKey]? with
  | none => simp [found] at ran
  | some health =>
    simp only [found] at ran
    split at ran
    · cases ran
    · rename_i current
      simp only [Bool.or_eq_true, Bool.not_eq_true', not_or, Bool.not_eq_false,
        Option.any_eq_true_iff_get, decide_eq_true_eq] at current
      obtain ⟨confirmed, present, same⟩ := current
      exact mem_events.mpr ⟨_, health, _, found, confirmed, (Option.some_get present).symm, same⟩

/-- The record of a key after a change of the configuration: none, the one before, or a new one. -/
theorem get_updateConfig (ledger : Ledger) (current config : Config) (epochs : ConfigKey → Uuid)
    (key : ConfigKey) :
    (ledger.updateConfig current config epochs)[key]? = none ∨
    (ledger.updateConfig current config epochs)[key]? = ledger[key]? ∨
    key ∈ validKeys config ∧
      (ledger.updateConfig current config epochs)[key]? = some { epoch := epochs key } := by
  unfold updateConfig
  split
  · exact Or.inr (Or.inl rfl)
  · simp only
    generalize shape : Table.eraseAll (ledger.filter fun key _ => (validKeys config).contains key)
      (turnedOn current config) = kept
    have names : ((((validKeys config).filter fun key => kept[key]?.isNone).map fun key =>
        (key, ({ epoch := epochs key } : Health))).map Prod.fst) =
        (validKeys config).filter fun key => kept[key]?.isNone := by
      rw [List.map_map]
      exact List.map_id' _
    by_cases new : key ∈ validKeys config ∧ kept[key]? = none
    · refine Or.inr (Or.inr ⟨new.1, Table.get_insertAll_of_mem _ _ _ _ ?_ ?_⟩)
      · rw [names]
        exact (List.nodup_dedup _).filter _
      · exact List.mem_map.mpr ⟨key, List.mem_filter.mpr ⟨new.1, by rw [new.2]; rfl⟩, rfl⟩
    · rw [Table.get_insertAll_of_notMem]
      · rw [← shape, Table.get_eraseAll, Table.get_filter]
        split
        · exact Or.inl rfl
        · cases ledger[key]? with
          | none => exact Or.inl rfl
          | some health =>
            rw [Option.filter_some]
            split
            · exact Or.inr (Or.inl rfl)
            · exact Or.inl rfl
      · rw [names, List.mem_filter]
        exact fun inside => new ⟨inside.1, Option.isNone_iff_eq_none.mp inside.2⟩

/-- The record of a key at the start. -/
theorem get_initial (config : Config) (epochs : ConfigKey → Uuid) (key : ConfigKey) :
    (initial config epochs)[key]? =
      if key ∈ validKeys config then some { epoch := epochs key } else none := by
  have names : (((validKeys config).map fun key =>
      (key, ({ epoch := epochs key } : Health))).map Prod.fst) = validKeys config := by
    rw [List.map_map]
    exact List.map_id' _
  rw [initial]
  split
  · rename_i inside
    refine Table.get_insertAll_of_mem _ _ _ _ ?_ (List.mem_map.mpr ⟨key, inside, rfl⟩)
    rw [names]
    exact List.nodup_dedup _
  · rename_i outside
    rw [Table.get_insertAll_of_notMem _ _ _ (by rwa [names])]
    simp

end Ledger

/-- `valid_completion`. -/
def validCompletion (event : Value) : Bool :=
  ((event.field "type").asStr = some "response.completed" ||
    (event.field "type").asStr = some "response.incomplete") &&
  (((event.pointer ["response", "id"]).bind Value.asStr).any fun id =>
    !(Text.trim id.toList).isEmpty) &&
  (event.pointer ["response", "output"]).any fun output => output.asArray.isSome

end Aipass.Websocket
