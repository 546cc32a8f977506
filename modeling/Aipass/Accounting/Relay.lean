import Aipass.Base.Run
import Aipass.Accounting.SessionUsage

/-!
# Runs of a native WebSocket

The client creates responses on lanes, and the upstream handles the requests of a lane in order and
one at a time: it creates a response, says something of it, and ends it by a terminal event or by
an error. An error, and what is said of a response, may leave out its identifier. The lanes
interleave in any way, the connection ends at any time, and other requests of the proxy take and
drop permits in between.
-/
namespace Aipass.Accounting

open Proxy (Instant TargetHealth Affinities)

/-- The events that create a response. -/
def begins (kind : String) : Bool :=
  kind = "response.created" ∨ kind = "response.in_progress"

/-- The events that end a response. -/
def finishes (kind : String) : Bool := isTerminal kind ∨ kind = "error"

/-! ## The upstream -/

/-- A response that the upstream has created and not ended. -/
structure Running where
  lane : String
  requestId : Uuid
  responseId : String
deriving DecidableEq

/-- An upstream: the requests it has not begun, in order and with their lanes, and the responses it
is at. -/
structure Upstream where
  queued : List (String × Uuid) := []
  running : List Running := []

namespace Upstream

variable (upstream : Upstream) (value : Value)

/-- The response of a lane that it is at. -/
def current (lane : String) : Option Running := upstream.running.find? fun run => run.lane = lane

/-- The request of a lane that it begins next. -/
def next (lane : String) : Option Uuid :=
  (upstream.queued.find? fun queued => queued.1 = lane).map Prod.snd

/-- The request that an event on a lane is about. -/
def owner (lane : String) : Option Uuid :=
  ((upstream.current lane).map Running.requestId).or (upstream.next lane)

/-- Whether it may send an event. A response that is at work is named by its identifier, and a
terminal event names it. No event of another lane names it. -/
def emits : Bool :=
  match upstream.current (laneOf value) with
  | some run =>
    if isTerminal (kindOf value) then responseIdOf value = some run.responseId
    else (responseIdOf value).all fun id => id = run.responseId
  | none =>
    (responseIdOf value).all fun id => upstream.running.all fun run => run.responseId ≠ id

/-- The upstream after an event. -/
def handle : Upstream :=
  let lane := laneOf value
  let kind := kindOf value
  match upstream.current lane, upstream.next lane with
  | some _, _ =>
    if finishes kind then
      { upstream with running := upstream.running.eraseP fun run => run.lane = lane }
    else upstream
  | none, some requestId =>
    let rest := upstream.queued.eraseP fun queued => queued.1 = lane
    if finishes kind then { upstream with queued := rest }
    else if begins kind then
      match responseIdOf value with
      | some id => { queued := rest, running := upstream.running ++ [⟨lane, requestId, id⟩] }
      | none => upstream
    else upstream
  | none, none => upstream

/-- Whether an event is an error without an identifier, on a lane with a response at work and
another request that waits. -/
def ambiguous : Bool :=
  kindOf value = "error" ∧ responseIdOf value = none ∧
    (upstream.current (laneOf value)).isSome ∧ (upstream.next (laneOf value)).isSome

end Upstream

/-! ## Runs -/

/-- A request that the session has accepted. -/
structure Create where
  id : Uuid
  value : Value

/-- The model that it asks for. -/
def Create.model (create : Create) : Option String := (create.value.get "model").bind Value.asStr

/-- An event of the upstream: the request that it is about, the one it was traced to, and those it
finished. -/
structure Handled where
  value : Value
  owner : Option Uuid
  traced : Option Uuid
  finished : List Uuid

/-- Whether an event ends the response of a request. -/
def Handled.ends (id : Uuid) (handled : Handled) : Bool :=
  handled.owner = some id ∧ finishes (kindOf handled.value)

/-- What other requests hold. -/
structure Share where
  inFlightRequests : ℕ := 0
  targetActivity : ℕ := 0
  providerActivity : ℕ := 0

/-- A relayed connection. -/
structure World where
  account : Account
  upstream : Upstream := {}
  /-- The requests accepted so far. -/
  creates : List Create := []
  /-- The events of the upstream so far. -/
  log : List Handled := []
  /-- The probes drawn for its requests so far. -/
  drawn : List Uuid := []
  others : Share := {}
  /-- Whether the health of the target has been forgotten. -/
  forgotten : Bool := false
  closed : Bool := false

/-- A step of a connection. -/
inductive Action
  /-- An event of the client, with the identifier and the probe drawn for it, and the limit of the
  provider that is in force. -/
  | client (value : Value) (now : Instant) (requestId probe : Uuid) (limit : Option ℕ)
  /-- An event of the upstream. -/
  | server (value : Value) (now : Instant)
  /-- The connection ends. -/
  | disconnect (upstreamFailed : Bool) (now : Instant)
  /-- Other requests take and drop permits, and report the health of the target. -/
  | others (share : Share) (health : Option TargetHealth) (affinities : Affinities)

/-- The requests of a session that are not finished. -/
def SessionUsage.live (session : SessionUsage) : List ResponseUsage :=
  session.active.map Prod.snd ++ session.pending

namespace World

/-- An event of the client. -/
def client (world : World) (value : Value) (now : Instant) (requestId probe : Uuid)
    (limit : Option ℕ) : World :=
  let account := world.account
  let drawn := probe :: world.drawn
  match account.session.clientEvent account.shared now probe limit requestId value with
  | (shared, .error _) => { world with account := { account with shared }, drawn }
  | (shared, .ok session) =>
    let accepted := { world with account := { account with session, shared }, drawn }
    if value.field "type" = "response.create" then
      { accepted with
        creates := world.creates ++ [⟨requestId, value⟩]
        upstream := { world.upstream with
          queued := world.upstream.queued ++ [(laneOf value, requestId)] } }
    else accepted

/-- An event of the upstream. -/
def server (world : World) (value : Value) (now : Instant) : World :=
  let account := world.account.serverEvent now value
  let place := world.account.session.traced (responseIdOf value) (laneOf value)
  { world with
    account
    upstream := world.upstream.handle value
    log := world.log ++ [{
      value
      owner := world.upstream.owner (laneOf value)
      traced := (place.bind world.account.session.at_).map ResponseUsage.requestId
      finished := (account.records.drop world.account.records.length).map UsageRecord.id }] }

/-- What other requests do. -/
def share (world : World) (share : Share) (health : Option TargetHealth) (affinities : Affinities) :
    World :=
  let shared := world.account.shared
  let others := world.others
  { world with
    account := { world.account with
      shared := {
        inFlightRequests := shared.inFlightRequests - others.inFlightRequests + share.inFlightRequests
        targetActivity := shared.targetActivity - others.targetActivity + share.targetActivity
        providerActivity := shared.providerActivity - others.providerActivity + share.providerActivity
        health, affinities } }
    others := share
    forgotten := world.forgotten || health.isNone }

/-- Whether other requests may leave the health of the target so: they neither take the probe of a
request of this connection nor clear it, unless the health of the target is forgotten. -/
def sparesProbes (world : World) (health : Option TargetHealth) : Bool :=
  let before := world.account.shared.probeId
  let after := health.bind TargetHealth.probeId
  before = after ∨
    (before.all fun probe => probe ∉ world.drawn ∨ health = none) ∧
      after.all fun probe => probe ∉ world.drawn

/-- A step of a connection, if it is possible. Identifiers are drawn afresh. -/
def step (world : World) : Action → Option World
  | .client value now requestId probe limit =>
    if world.closed ∨ requestId ∈ world.creates.map Create.id ∨ probe ∈ world.drawn ∨
        world.account.shared.probeId = some probe then none
    else some (world.client value now requestId probe limit)
  | .server value now =>
    if world.closed ∨ world.upstream.emits value = false then none
    else some (world.server value now)
  | .disconnect upstreamFailed now =>
    if world.closed then none
    else some { world with account := world.account.disconnected now upstreamFailed, closed := true }
  | .others share health affinities =>
    if world.sparesProbes health then some (world.share share health affinities) else none

/-- A connection that has just been made. -/
structure Opened (world : World) : Prop where
  noPending : world.account.session.pending = []
  noActive : world.account.session.active = []
  noRecords : world.account.records = []
  upstream : world.upstream = {}
  noCreates : world.creates = []
  noLog : world.log = []
  noDrawn : world.drawn = []
  isOpen : world.closed = false
  others : world.account.shared.inFlightRequests = world.others.inFlightRequests ∧
    world.account.shared.targetActivity = world.others.targetActivity ∧
    world.account.shared.providerActivity = world.others.providerActivity

end World

/-- The runs of a connection. -/
def relay : System World Action where
  init := World.Opened
  step world action next := world.step action = some next

end Aipass.Accounting
