import Aipass.Replay.Body
import Aipass.Search.Gateway

/-!
# Preparing the upload of one attempt

An attempt sends the body as the client sent it, unless its target asks for another protocol, model
or dialect. Then the request is rewritten step by step, from the bytes held in memory or, when they
are in a file, from the JSON that was read of it. The codecs and the dialects of the providers are
parameters: whatever they do, a rewriting starts from the original, and the announced length is that
of what is sent.
-/
namespace Aipass.Replay

open Conversion Search

/-- `ProviderProfile`. -/
inductive ProviderProfile
  | generic
  | openAi
  | deepSeek
  | kimi
  | mistral
  | geminiCompatible
  | grok
deriving DecidableEq, Repr

/-- `ResolvedTarget`, as far as preparing a request reads it. -/
structure UploadTarget where
  profile : ProviderProfile
  upstreamKind : UpstreamKind
  modelOverride : Option String
  /-- The model of `config`. -/
  model : Option String
  protocol : Option ProxyProtocol

/-- `ResolvedRoute`, as far as preparing a request reads it. -/
structure UploadRoute where
  conversionEnabled : Bool
  inboundProtocol : ProxyProtocol
  upstreamProtocol : ProxyProtocol
  targets : List UploadTarget

/-- `effective_protocol`. -/
def UploadTarget.effectiveProtocol (target : UploadTarget) (routeFallback : ProxyProtocol) :
    ProxyProtocol :=
  target.protocol.getD routeFallback

/-- Whether the request is read as JSON before the first attempt. -/
def UploadRoute.readsJson (route : UploadRoute) : Bool :=
  route.conversionEnabled || route.targets.any fun target =>
    target.upstreamKind ≠ .standard || target.profile ≠ .generic || target.model.isSome

/-- The codec of JSON and the dialects of the providers. -/
structure Adapters where
  /-- `serde_json::from_slice`. -/
  parse : Bytes → Option Value
  /-- `serde_json::from_slice` of the metadata, its `stream`. -/
  stream : Bytes → Option Bool
  /-- `to_string` and `to_vec` of a value. -/
  print : Value → Bytes
  /-- `convert_request`, with the text of its error. -/
  convertRequest : ProxyProtocol → ProxyProtocol → Value → Except String Value
  /-- `provider::prepare`. -/
  provider : ProviderProfile → ProxyProtocol → Bytes → Except String Bytes
  /-- `codex::prepare`. -/
  codex : Bytes → Except String Bytes
  /-- `grok::Adapter::prepare`, the body it leaves. -/
  grok : Value → Except String Value

/-- What one attempt meets besides the request: the errors of building the client, the address and
the headers and of cloning the file, and `gemini::prepare` with the signatures kept at that time. -/
structure Surroundings where
  client : Option String
  url : Option String
  headers : Option String
  clone : Option String
  gemini : Bytes → Except String Bytes

/-- `AttemptContext`, as far as preparing a request reads it. -/
structure AttemptContext where
  route : UploadRoute
  target : UploadTarget
  /-- `body.bytes()`. -/
  bytes : Option Bytes
  /-- `body.len()`. -/
  len : ℕ
  requestJson : Option Value
  streamingRequest : Bool

/-- How an attempt ends before anything is sent. -/
inductive Stop
  /-- The request is answered with 400. -/
  | abort (message : String)
  /-- The next target is tried. -/
  | retry (error : String)
  /-- The task panics. -/
  | panic

/-- What an attempt sends: a rewritten payload or else the body, with the announced length. -/
structure Upload where
  rewritten : Option Bytes
  contentLength : ℕ

namespace AttemptContext

/-- The protocol of the target. -/
def targetProtocol (ctx : AttemptContext) : ProxyProtocol :=
  ctx.target.effectiveProtocol ctx.route.upstreamProtocol

/-- Whether the request is converted to the protocol of the target. -/
def conversion (ctx : AttemptContext) : Bool :=
  ctx.route.conversionEnabled && ctx.route.inboundProtocol ≠ ctx.targetProtocol

/-- `rewritten_payload.take().or_else(|| ctx.body.bytes().cloned())`. -/
def source (ctx : AttemptContext) (rewritten : Option Bytes) : Option Bytes :=
  rewritten.or ctx.bytes

end AttemptContext

/-- `request_stream_usage`. -/
def requestStreamUsage (adapters : Adapters) (protocol : ProxyProtocol) (streaming : Bool)
    (payload : Bytes) : Bytes :=
  if !streaming || protocol ≠ .openAiChatCompletions then payload
  else match adapters.parse payload with
    | some (.object fields) =>
      match Value.lookup "stream_options" fields with
      | some (.object options) => adapters.print (.object (Value.insertField "stream_options"
          (.object (Value.insertField "include_usage" (.bool true) options)) fields))
      | some .null | none => adapters.print (.object (Value.insertField "stream_options"
          (Value.obj [("include_usage", .bool true)]) fields))
      | some _ => payload
    | _ => payload

variable (adapters : Adapters) (around : Surroundings) (ctx : AttemptContext)

/-- The request a provider adapts, printed when its bytes are in a file. -/
def adaptedPayload : Except Stop (Option Bytes) :=
  if (ctx.target.profile ≠ .generic || ctx.target.upstreamKind ≠ .standard ||
      ctx.target.modelOverride.isSome) && ctx.bytes.isNone then
    match ctx.requestJson with
    | some value => .ok (some (adapters.print value))
    | none => .error (.abort "provider adaptation requires a JSON request")
  else .ok none

/-- The request in the protocol of the target. -/
def convertedPayload (rewritten : Option Bytes) : Except Stop (Option Bytes) :=
  if ctx.conversion then
    match ctx.requestJson with
    | none => .error (.abort "protocol conversion requires a JSON request")
    | some json =>
      match adapters.convertRequest ctx.route.inboundProtocol ctx.targetProtocol json with
      | .ok value => .ok (some (adapters.print value))
      | .error error => .error (.abort error)
  else .ok rewritten

/-- The request that asks for the usage of a stream. -/
def usagePayload (rewritten : Option Bytes) : Option Bytes :=
  match ctx.source rewritten with
  | none => none
  | some payload =>
    let updated := requestStreamUsage adapters ctx.targetProtocol ctx.streamingRequest payload
    if updated ≠ payload then some updated
    else if ctx.conversion || ctx.bytes.isNone then some payload
    else none

/-- The request for the model of the target. -/
def modelPayload (rewritten : Option Bytes) : Except Stop (Option Bytes) :=
  match ctx.target.modelOverride, ctx.source rewritten with
  | none, _ => .ok rewritten
  | some _, none => .ok none
  | some model, some source =>
    match adapters.parse source with
    | none => .error (.abort "model adaptation requires JSON")
    | some body =>
      match body.write "model" (.string model) with
      | none => .error .panic
      | some body => .ok (some (adapters.print body))

/-- The request in the dialect of the provider. -/
def profilePayload (rewritten : Option Bytes) : Except Stop (Option Bytes) :=
  if ctx.target.profile ≠ .generic then
    match ctx.source rewritten with
    | none => .ok none
    | some source =>
      match adapters.provider ctx.target.profile ctx.targetProtocol source with
      | .ok body => .ok (some body)
      | .error error => .error (.abort error)
  else .ok rewritten

/-- The request to a backend of a subscription, which needs a buffered JSON request. -/
def subscriptionPayload (kind : UpstreamKind) (missing : String)
    (prepare : Bytes → Except String Bytes) (rewritten : Option Bytes) :
    Except Stop (Option Bytes) :=
  if ctx.target.upstreamKind = kind then
    match ctx.source rewritten with
    | none => .error (.abort missing)
    | some source =>
      match prepare source with
      | .ok body => .ok (some body)
      | .error error => .error (.abort error)
  else .ok rewritten

/-- `codex::prepare` for a Codex subscription. -/
def codexPayload (rewritten : Option Bytes) : Except Stop (Option Bytes) :=
  subscriptionPayload ctx .codexSubscription "Codex subscription requires a buffered JSON request"
    adapters.codex rewritten

/-- `gemini::prepare` for native Gemini. -/
def geminiPayload (rewritten : Option Bytes) : Except Stop (Option Bytes) :=
  subscriptionPayload ctx .geminiNative "Gemini requires a buffered JSON request" around.gemini
    rewritten

/-- The request as Grok takes it. -/
def grokPayload (rewritten : Option Bytes) : Except Stop (Option Bytes) :=
  if ctx.target.profile = .grok then
    match ctx.source rewritten with
    | none => .error (.abort "Grok requires a buffered JSON request")
    | some source =>
      match adapters.parse source with
      | none => .error (.abort "Grok requires JSON")
      | some body =>
        match adapters.grok body with
        | .ok body => .ok (some (adapters.print body))
        | .error error => .error (.abort error)
  else .ok rewritten

/-- A step that may send the request on to the next target. -/
def retrying (failure : Option String) : Except Stop Unit :=
  match failure with
  | some error => .error (.retry error)
  | none => .ok ()

/-- The rewriting of a request after the JSON that was read of it is used. -/
def rewrite (rewritten : Option Bytes) : Except Stop (Option Bytes) := do
  let rewritten := usagePayload adapters ctx rewritten
  let rewritten ← modelPayload adapters ctx rewritten
  let rewritten ← profilePayload adapters ctx rewritten
  retrying around.url
  retrying around.headers
  let rewritten ← codexPayload adapters ctx rewritten
  let rewritten ← geminiPayload around ctx rewritten
  grokPayload adapters ctx rewritten

/-- The upload of a payload or else of the body. -/
def upload (rewritten : Option Bytes) : Except Stop Upload :=
  match rewritten with
  | some payload => .ok ⟨some payload, payload.length⟩
  | none => (retrying around.clone).map fun _ => ⟨none, ctx.len⟩

/-- `prepare_upstream_request`. -/
def prepareUpstreamRequest : Except Stop Upload := do
  retrying around.client
  let rewritten ← adaptedPayload adapters ctx
  let rewritten ← convertedPayload adapters ctx rewritten
  let rewritten ← rewrite adapters around ctx rewritten
  upload around ctx rewritten

/-- The upload of an image request, which is never rewritten. -/
def prepareImageRequest (len : ℕ) : Except Stop Upload := do
  retrying around.client
  retrying around.url
  retrying around.headers
  retrying around.clone
  pure ⟨none, len⟩

/-- The bytes an upload sends when it sends them all. -/
def Upload.payload (upload : Upload) (original : Bytes) : Bytes := upload.rewritten.getD original

section Laws

variable {adapters around ctx} {prepared : Upload}

/-- The announced length is that of what is sent. -/
theorem contentLength_eq {original : Bytes} (len : ctx.len = original.length)
    (went : prepareUpstreamRequest adapters around ctx = .ok prepared) :
    prepared.contentLength = (prepared.payload original).length := by
  obtain ⟨_, -, went⟩ := bind_eq_ok.mp went
  obtain ⟨_, -, went⟩ := bind_eq_ok.mp went
  obtain ⟨_, -, went⟩ := bind_eq_ok.mp went
  obtain ⟨rewritten, -, went⟩ := bind_eq_ok.mp went
  cases rewritten with
  | some payload =>
    cases went
    rfl
  | none =>
    simp only [upload] at went
    cases clone : around.clone with
    | some error =>
      rw [clone] at went
      cases went
    | none =>
      rw [clone] at went
      cases went
      exact len

/-- The length announced for an image request is that of its body. -/
theorem image_contentLength_eq {original : Bytes}
    (went : prepareImageRequest around original.length = .ok prepared) :
    prepared = ⟨none, original.length⟩ := by
  obtain ⟨_, -, went⟩ := bind_eq_ok.mp went
  obtain ⟨_, -, went⟩ := bind_eq_ok.mp went
  obtain ⟨_, -, went⟩ := bind_eq_ok.mp went
  obtain ⟨_, -, went⟩ := bind_eq_ok.mp went
  exact (Except.ok.inj went).symm

/-- A request that is sent although no JSON was read of it needs none. -/
theorem prepare_withoutJson (unread : ctx.requestJson = none)
    (went : prepareUpstreamRequest adapters around ctx = .ok prepared) (json : Option Value) :
    prepareUpstreamRequest adapters around { ctx with requestJson := json } = .ok prepared := by
  obtain ⟨_, client, went⟩ := bind_eq_ok.mp went
  obtain ⟨adapted, adapts, went⟩ := bind_eq_ok.mp went
  obtain ⟨converted, converts, went⟩ := bind_eq_ok.mp went
  have adaptsToo : adaptedPayload adapters { ctx with requestJson := json } = .ok adapted := by
    rw [adaptedPayload, unread] at adapts
    split at adapts
    · cases adapts
    · next own =>
      rw [adaptedPayload, if_neg own]
      exact adapts
  have convertsToo :
      convertedPayload adapters { ctx with requestJson := json } adapted = .ok converted := by
    rw [convertedPayload, unread] at converts
    split at converts
    · cases converts
    · next same =>
      have keeps : ({ ctx with requestJson := json } : AttemptContext).conversion =
          ctx.conversion := rfl
      rw [convertedPayload, keeps, if_neg same]
      exact converts
  rw [prepareUpstreamRequest, client, adaptsToo]
  show (convertedPayload adapters { ctx with requestJson := json } adapted >>= _) = _
  rw [convertsToo]
  exact went

end Laws
end Aipass.Replay
