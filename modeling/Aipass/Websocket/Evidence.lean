import Mathlib.Data.List.Sublists
import Aipass.Base.Run
import Aipass.Websocket.Capability

/-!
# WebSockets are switched off on current evidence

Connections look at the records, make handshakes, complete responses and serve requests over HTTP
in any order, while the configuration is reloaded and the listener restarted. Every event reported
rests on two rejections in a row and on an HTTP success after them, and on no completion since
they began. The one exception is evidence that a late handshake leaves in a record whose event has
been acknowledged: acknowledging takes the event and leaves the flag.
-/
namespace Aipass.Websocket

open Proxy (Instant)

/-- A handshake, or a probe, that has looked at the record of its key. -/
structure Session where
  observation : Option Observation
  /-- When its handshakes began. -/
  started : Option Instant := none

/-- What has happened. -/
inductive Report
  /-- Two handshake attempts, begun at an instant, were rejected, and this event was made. -/
  | rejected (event : CapabilityEvent) (epoch : Uuid) (started : Instant) (first second : Attempt)
  /-- The evidence of an event was recorded where an acknowledged event had left its flag. -/
  | late (event : CapabilityEvent)
  /-- A valid WebSocket completion in an epoch. -/
  | completed (epoch : Uuid) (at_ : Instant)
  /-- An HTTP request that carried the evidence of an event succeeded. -/
  | served (event : CapabilityEvent)
  /-- An event was restored in an epoch without a WebSocket success. -/
  | restored (event : CapabilityEvent) (epoch : Uuid)
  | acknowledged (event : CapabilityEvent)
deriving DecidableEq

/-- The proxy service, its listener and what has happened. -/
structure World where
  config : Config := []
  ledger : Ledger := ∅
  /-- The latest reading of the clock. -/
  clock : Instant := 0
  sessions : List Session := []
  /-- The evidence handed out, which pools and sessions keep and HTTP requests carry. -/
  handed : List Evidence := []
  /-- `pending_ws_events` of a listener that has been stopped, to be restored in the next. -/
  pending : List CapabilityEvent := []
  /-- The identifiers drawn so far. -/
  drawn : List Uuid := []
  /-- What has happened, the latest first. -/
  log : List Report := []

/-- A step. -/
inductive Action
  /-- A handshake or a probe looks at the record of a key. -/
  | observe (key : ConfigKey)
  /-- Handshakes begin. -/
  | begin_ (who : ℕ)
  /-- Handshakes end. -/
  | settle (who : ℕ) (target : Target) (first second : Attempt) (id : Uuid) (detectedAt : Int)
  /-- A connection receives an event, which finishes a request or does not. -/
  | receive (who : ℕ) (event : Value) (finishes : Bool)
  /-- A probe has received a valid completion. -/
  | confirmProbe (who : ℕ)
  /-- A request over HTTP succeeds. -/
  | serve (evidence : Option Evidence)
  | restore (event : CapabilityEvent)
  | acknowledge (event : CapabilityEvent)
  | reload (config : Config) (epochs : ConfigKey → Uuid)
  /-- The listener is stopped, its events are captured and the next listener starts. -/
  | restart (config : Config) (epochs : ConfigKey → Uuid)
  /-- An event captured is persisted or given up without a listener. -/
  | forget (event : CapabilityEvent)

namespace World

/-- Handshakes of a session end: `connect_twice` and what its callers do with an error. -/
def settle (world : World) (now : Instant) (session : Session) (started : Instant)
    (target : Target) (first second : Attempt) (id : Uuid) (detectedAt : Int) : World :=
  match connectTwice first second, session.observation with
  | .error (error, true), some seen =>
    if error.permitsFallback then
      let (evidence, ledger) :=
        world.ledger.candidate now target (some seen) started error.status id detectedAt
      let event : CapabilityEvent :=
        ⟨id, target.providerEntryId, seen.key, error.status, detectedAt⟩
      let flagged := world.ledger[seen.key]?.any fun health =>
        health.confirmed && health.candidate.isNone
      let late := flagged && evidence.map Evidence.event = some event
      { world with
        ledger, handed := evidence.toList ++ world.handed, drawn := id :: world.drawn
        log := (if late then [.late event] else []) ++
          .rejected event seen.epoch started first second :: world.log }
    else world
  | _, _ => world

/-- A valid completion of a session. -/
def complete (world : World) (now : Instant) (session : Session) : World :=
  { world with
    ledger := world.ledger.success now session.observation
    log := (session.observation.toList.map fun seen => .completed seen.epoch now) ++ world.log }

/-- The listener restores an event. -/
def restore (world : World) (now : Instant) (event : CapabilityEvent) : World :=
  let taken := world.ledger[event.configKey]?.filter fun health =>
    health.lastSuccess.isNone && !health.confirmed
  { world with
    ledger := world.ledger.restore now event
    pending := world.pending.erase event
    log := (taken.toList.map fun health => .restored event health.epoch) ++ world.log }

/-- An event is acknowledged. -/
def acknowledge (world : World) (event : CapabilityEvent) : World :=
  let taken := (world.ledger[event.configKey]?.bind Health.candidate).filter fun held =>
    held.event.id = event.id
  { world with
    ledger := world.ledger.acknowledge event
    log := (taken.toList.map fun held => .acknowledged held.event) ++ world.log }

/-- The epochs a configuration draws are new. -/
def Fresh (world : World) (config : Config) (epochs : ConfigKey → Uuid) : Prop :=
  ((Ledger.validKeys config).map epochs ++ world.drawn).Nodup

instance (world : World) (config : Config) (epochs : ConfigKey → Uuid) :
    Decidable (world.Fresh config epochs) := inferInstanceAs (Decidable (List.Nodup _))

/-- What an action does at an instant, if it is possible. -/
def act (world : World) (now : Instant) : Action → Option World
  | .observe key =>
    some { world with sessions := world.sessions ++ [{ observation := world.ledger.observe key }] }
  | .begin_ who =>
    match world.sessions[who]? with
    | some session =>
      some { world with sessions := world.sessions.set who { session with started := some now } }
    | none => none
  | .settle who target first second id detectedAt =>
    match world.sessions[who]? with
    | some session =>
      match session.started with
      | some started =>
        if id ∈ world.drawn then none
        else some (world.settle now session started target first second id detectedAt)
      | none => none
    | none => none
  | .receive who event finishes =>
    match world.sessions[who]? with
    | some session =>
      some (if finishes && validCompletion event then world.complete now session else world)
    | none => none
  | .confirmProbe who =>
    match world.sessions[who]? with
    | some session => some (world.complete now session)
    | none => none
  | .serve evidence =>
    if ∀ held ∈ evidence, held ∈ world.handed then
      some { world with
        ledger := world.ledger.httpSuccess now evidence
        log := (evidence.toList.map fun held => .served held.event) ++ world.log }
    else none
  | .restore event => if event ∈ world.pending then some (world.restore now event) else none
  | .acknowledge event => some (world.acknowledge event)
  | .reload config epochs =>
    if world.Fresh config epochs then
      some { world with
        config, ledger := world.ledger.updateConfig world.config config epochs
        drawn := (Ledger.validKeys config).map epochs ++ world.drawn }
    else none
  | .restart config epochs =>
    if world.Fresh config epochs then
      some { world with
        config, ledger := .initial config epochs, sessions := [], handed := []
        pending := world.ledger.events
        drawn := (Ledger.validKeys config).map epochs ++ world.drawn }
    else none
  | .forget event => some { world with pending := world.pending.erase event }

end World

/-- The runs of a proxy service. -/
def capability : System World (Instant × Action) where
  init world := ∃ config epochs, World.Fresh {} config epochs ∧
    world = { config, ledger := .initial config epochs
              drawn := (Ledger.validKeys config).map epochs }
  step world label next := world.clock ≤ label.1 ∧
    World.act { world with clock := label.1 } label.1 label.2 = some next

/-- Two attempts in a row were rejected as unsupported, and no completion of their epoch is as
late as their start. -/
structure Rejected (log : List Report) (event : CapabilityEvent) (epoch : Uuid) (started : Instant)
    (earlier : StatusCode) : Prop where
  told : .rejected event epoch started (.answered earlier) (.answered event.status) ∈ log
  first : Unsupported earlier
  second : Unsupported event.status
  uncompleted : ∀ at_, .completed epoch at_ ∈ log → at_ < started

/-- What an event must rest on: two rejections, no completion since, and an HTTP success after
them that carried its evidence, unless it was restored where no WebSocket success was seen. -/
def Current (log : List Report) (event : CapabilityEvent) : Prop :=
  ∃ epoch started earlier, Rejected log event epoch started earlier ∧
    ([.served event,
      .rejected event epoch started (.answered earlier) (.answered event.status)].Sublist log ∨
    ∃ later, .restored event later ∈ log ∧ ∀ at_, .completed later at_ ∉ log)

end Aipass.Websocket
