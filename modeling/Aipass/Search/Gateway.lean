import Aipass.Base.Run
import Aipass.Search.History

/-!
# The search gateway

A request is restored from the memory, narrowed to the target that served the turn it goes on
from, and either passed on or kept for rounds of its own. Every round sends the messages so far,
and what answers it is a reply, or a search whose results make the next round. A turn that
searched is remembered with its reply. Beside the state of the code a run keeps what happened: the
turns that searched, each with the turn it was built on.
-/
namespace Aipass.Search

open Proxy (Instant)
open Conversion (ProxyProtocol AM CC RS)

/-- `UpstreamKind`. -/
inductive UpstreamKind
  | standard
  | codexSubscription
  | geminiNative
  | copilot
  | copilotCli
  | claudeSubscription
  | communitySubscription
deriving DecidableEq

/-- `ResolvedTarget`, as far as the gateway reads it. -/
structure Target where
  id : Uuid
  enabled : Bool
  protocol : Option ProxyProtocol
  baseUrl : String
  kind : UpstreamKind

/-- `ResolvedRoute`. -/
structure Route where
  id : Uuid
  inboundProtocol : ProxyProtocol
  upstreamProtocol : ProxyProtocol
  targets : List Target

/-- `effective_protocol`. -/
def Target.effectiveProtocol (target : Target) (fallback : ProxyProtocol) : ProxyProtocol :=
  target.protocol.getD fallback

/-- The hosts that search by themselves. -/
def nativeHosts : ProxyProtocol → List String
  | AM => ["api.anthropic.com", "api.deepseek.com"]
  | RS => ["api.openai.com", "api.x.ai", "api.deepseek.com", "open.bigmodel.cn", "api.z.ai"]
  | CC => []

/-- `native`. -/
def native (outside : Outside) (route : Route) (protocol : ProxyProtocol) : Bool :=
  !route.targets.isEmpty && (route.targets.filter Target.enabled).all fun target =>
    target.effectiveProtocol route.upstreamProtocol = protocol &&
      match target.kind with
      | .claudeSubscription => protocol = AM
      | .codexSubscription => protocol = RS
      | .standard => (outside.urlHost target.baseUrl).any (nativeHosts protocol).contains
      | _ => false

/-- `ForwardRequest`: the route resolved for it, whether it is an image operation, and its body, if
that is JSON. -/
structure Request where
  route : Route
  image : Bool
  body : Option Value

/-- The loop of `forward`, between two rounds. -/
structure Pending where
  route : Route
  original : Value
  payload : Value
  plan : Plan
  streaming : Bool
  uses : ℕ
  usage : Value

/-- What `forward` does with a request before the loop. -/
inductive Outcome
  /-- It is sent as it is, or with its private messages, to the targets of a route. -/
  | pass (route : Route) (body : Option Value)
  /-- The loop begins. -/
  | search (pending : Pending)
  /-- It is answered with an error. -/
  | refuse (status : ℕ) (reason : String)

/-- The targets with one identity. -/
def Route.pin (route : Route) (target : Uuid) : Route :=
  { route with targets := route.targets.filter fun held => held.id = target }

/-- The rest of `forward` up to the loop, after restoring: with the target found, if any. -/
def proceed (available : Bool) (request : Request) (original payload : Value) (route : Route)
    (restored : Bool) : Outcome :=
  if !asked route.inboundProtocol payload then
    .pass route (if restored then some payload else request.body)
  else
    match Plan.prepare route.inboundProtocol payload with
    | .error reason => .refuse 400 reason
    | .ok (plan, payload) =>
      if !plan.enabled then .pass route (some payload)
      else if !available then
        .refuse 400 "this upstream cannot search; configure a search API or search model in local proxy settings"
      else
        .search ⟨route, original, (payload.set "stream" (.bool false)).remove "stream_options", plan,
          payload.field "stream" = .bool true, 0, .obj []⟩

/-- `forward` up to the loop. -/
def forward (outside : Outside) (available : Bool) (now : Instant) (history : History)
    (request : Request) : History × Outcome :=
  match request.body with
  | none => (history, .pass request.route none)
  | some body =>
    if request.image || native outside request.route request.route.inboundProtocol then
      (history, .pass request.route request.body)
    else
      match history.restore outside now request.route.id request.route.inboundProtocol body body with
      | (history, none) => (history, proceed available request body body request.route false)
      | (history, some (target, payload)) =>
        let route := request.route.pin target
        if route.targets.isEmpty then
          (history, .refuse 409 "search conversation account is no longer available")
        else (history, proceed available request body payload route true)

/-- `MAX_RESULT`. -/
def maxResult : ℕ := 128 * 1024

/-- The request without the search tool. -/
def dropTool (payload : Value) (name : String) : Value :=
  match (payload.field "tools").asArray with
  | some tools => payload.set "tools" (.array (tools.filter fun tool => !named tool name))
  | none => payload

/-- How a round of the loop ends. -/
inductive Round
  /-- The reply, and the target whose turn is remembered. -/
  | reply (value : Value) (remembered : Option Uuid)
  /-- Another round follows. -/
  | again (pending : Pending)
  /-- The request is answered with an error. -/
  | refuse (reason : String)

/-- The results of the searches a response calls for. -/
def Pending.results (pending : Pending) (outside : Outside) (called : List (String × String))
    (searched : ℕ → Except String Value) : List (String × Value) :=
  called.mapIdx fun index call => (call.1, match searched index with
    | .ok value => pending.plan.filter outside value
    | .error reason => .obj [("error", reason)])

/-- A round of the loop of `forward`, answered with a JSON response of the given target. -/
def Pending.answer (pending : Pending) (outside : Outside) (identity : Option Uuid)
    (response : Value) (searched : ℕ → Except String Value) : Round :=
  let protocol := pending.route.inboundProtocol
  let route := (identity.map pending.route.pin).getD pending.route
  match calls protocol outside response pending.plan.name with
  | .error reason => .refuse reason
  | .ok [] =>
    .reply (response.set "usage" (sumUsage pending.usage (response.field "usage")))
      (if 0 < pending.uses then identity else none)
  | .ok called =>
    let uses := pending.uses + called.length
    let results := pending.results outside called searched
    if !pending.plan.enabled || pending.plan.maxUses < uses then
      .refuse "gateway search reached its tool-use limit"
    else if results.any fun result => maxResult < (outside.serde.print result.2).utf8ByteSize then
      .refuse "search result too large"
    else
      match append protocol outside pending.payload response results with
      | .error reason => .refuse reason
      | .ok payload =>
        .again { pending with
          route := route
          payload := if pending.plan.maxUses ≤ uses then dropTool payload pending.plan.name else payload
          uses := uses
          usage := sumUsage pending.usage (response.field "usage") }

/-- A turn that searched, told by its messages: those of the request, the rounds the client did
not see, and the reply. -/
structure Searched where
  route : Uuid
  context : Value
  target : Uuid
  request : List Value
  hidden : List Value
  reply : List Value

/-- A turn that searched, with the searched turn it was built on. -/
inductive Turn
  | fresh (searched : Searched)
  | upon (base : Turn) (searched : Searched)

namespace Turn

/-- The turn itself. -/
def searched : Turn → Searched
  | fresh searched => searched
  | upon _ searched => searched

/-- The messages as the client saw them. -/
def «public» (turn : Turn) : List Value := turn.searched.request ++ turn.searched.reply

/-- The conversation in full. The hidden rounds of a turn stand after the messages of its request
and before its reply; in place of the messages of a turn it was built on stands that turn in
full. -/
def full : Turn → List Value
  | fresh searched => searched.request ++ searched.hidden ++ searched.reply
  | upon base searched =>
    base.full ++ searched.request.drop base.public.length ++ searched.hidden ++ searched.reply

end Turn

/-- The messages a request starts from: its own, after the turn it goes on from in full. -/
def start (base : Option Turn) (incoming : List Value) : List Value :=
  match base with
  | none => incoming
  | some base => base.full ++ incoming.drop base.public.length

/-- A request in the loop, with the turn it goes on from. -/
structure Flight where
  pending : Pending
  base : Option Turn
  hidden : List Value

/-- The gateway over time: its memory, the clock and the requests in the loop. Beside them stand the
turns that searched, the oldest first, each with the entry made for it. -/
structure World where
  history : History := {}
  clock : Instant := 0
  flights : List Flight := []
  kept : List (Entry × Turn) := []

/-- What happens to the gateway. -/
inductive Action
  /-- A request arrives. -/
  | arrive (available : Bool) (request : Request)
  /-- A round of a request is answered. -/
  | answer (index : ℕ) (identity : Option Uuid) (response : Value)
    (searched : ℕ → Except String Value)
  /-- A round of a request fails, or its client goes away. -/
  | fail (index : ℕ)
  /-- The configuration changes; entries of its targets are retained. -/
  | retain (valid : List (Uuid × Uuid))
  /-- Time passes. -/
  | wait (duration : Instant)

/-- The turn an entry was made for. -/
def World.turnOf (world : World) (entry : Entry) : Option Turn :=
  (world.kept.find? fun kept => kept.1 = entry).map Prod.snd

/-- The entry that a request is restored from, and its messages. -/
def World.found (world : World) (outside : Outside) (request : Request) :
    Option (Entry × List Value) :=
  request.body.bind fun body => (world.history.lookup outside world.clock request.route.id
    request.route.inboundProtocol body body).2

/-- The turn that a request goes on from. -/
def World.base (world : World) (outside : Outside) (request : Request) : Option Turn :=
  (world.found outside request).bind fun found => world.turnOf found.1

/-- The turn of a request whose reply has come. -/
def Flight.turn (flight : Flight) (target : Uuid) (request : List Value) (response : Value) : Turn :=
  let searched : Searched := ⟨flight.pending.route.id, context flight.pending.original, target,
    request, flight.hidden, appendReply flight.pending.route.inboundProtocol [] response⟩
  match flight.base with
  | none => .fresh searched
  | some base => .upon base searched

/-- A turn that searched is remembered. -/
def World.remember (world : World) (outside : Outside) (flight : Flight) (target : Uuid)
    (response : Value) : World :=
  let pending := flight.pending
  let protocol := pending.route.inboundProtocol
  { world with
    history := world.history.remember outside world.clock pending.route.id target protocol
      pending.original pending.payload response
    kept := match messages protocol pending.original, messages protocol pending.payload with
      | some seen, some sent => world.kept ++ [(History.entryOf outside world.clock pending.route.id
          target protocol pending.original seen sent response, flight.turn target seen response)]
      | _, _ => world.kept }

/-- The request goes into another round; the messages that round added are hidden ones. -/
def Flight.next (flight : Flight) (pending : Pending) : Flight :=
  let protocol := flight.pending.route.inboundProtocol
  { flight with
    pending := pending
    hidden := flight.hidden ++ ((messages protocol pending.payload).getD []).drop
      ((messages protocol flight.pending.payload).getD []).length }

/-- What happens next. -/
def World.step (world : World) (outside : Outside) : Action → Option World
  | .arrive available request =>
    let (history, outcome) := forward outside available world.clock world.history request
    some { world with
      history := history
      flights := match outcome with
        | .search pending => world.flights ++ [⟨pending, world.base outside request, []⟩]
        | _ => world.flights }
  | .answer index identity response searched => do
    let flight ← world.flights[index]?
    match flight.pending.answer outside identity response searched with
    | .reply value remembered =>
      let world := { world with flights := world.flights.eraseIdx index }
      some (match remembered with
        | some target => world.remember outside flight target value
        | none => world)
    | .again pending => some { world with flights := world.flights.set index (flight.next pending) }
    | .refuse _ => some { world with flights := world.flights.eraseIdx index }
  | .fail index => some { world with flights := world.flights.eraseIdx index }
  | .retain valid => some { world with history := world.history.retain valid }
  | .wait duration => some { world with clock := world.clock + duration }

/-- The runs of the gateway; it starts with nothing remembered. -/
def gateway (outside : Outside) : System World Action where
  init world := world = {}
  step world action next := world.step outside action = some next

end Aipass.Search
