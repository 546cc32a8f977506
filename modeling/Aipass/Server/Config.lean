import Aipass.Conversion.Protocol
import Aipass.Values

/-!
# The configuration of the proxy

A configuration lists route groups, each with a local token and the upstream targets it may use,
besides the settings that apply to all of them.
-/
namespace Aipass.Server

open Conversion

/-- `AgentErrorCode`. -/
inductive AgentErrorCode
  | locked
  | invalidPassword
  | serviceUnavailable
  | grantExpired
  | permissionDenied
  | notFound
  | conflict
  | validationFailed
  | internal
deriving DecidableEq, Repr

/-- `ServiceError`. -/
structure ServiceError where
  code : AgentErrorCode
  message : String
deriving DecidableEq, Repr

/-- `RetryPolicy`. -/
structure RetryPolicy where
  maxAttempts : UInt8
  failureThreshold : UInt8
  circuitOpenSeconds : UInt64
  connectTimeoutMs : UInt64
  firstByteTimeoutMs : UInt64
  streamIdleTimeoutMs : UInt64
  silentRetry : Bool
  maxSilentRetries : UInt8
  holdOnFailure : Bool
  holdInitialDelayMs : UInt64
  holdMaxDelayMs : UInt64
  holdMaxDurationMs : UInt64
deriving DecidableEq, Repr

/-- `RouteStrategy`. -/
inductive RouteStrategy
  | fallback
  | roundRobin
  | quotaAware
  | resetSoonest
  | quotaPace
deriving DecidableEq, Repr

/-- `ProxyTargetConfig`. -/
structure ProxyTargetConfig where
  id : Uuid
  providerEntryId : Uuid
  secretId : String
  label : String
  baseUrl : String
  authScheme : String
  headers : List (String × String)
  group : Option String
  priority : UInt16
  weight : UInt32
  enabled : Bool
  protocol : Option ProxyProtocol
  preferWs : Bool
  model : Option String
deriving DecidableEq, Repr

/-- `ProxyRouteConfig`. -/
structure ProxyRouteConfig where
  id : Uuid
  name : String
  token : String
  inboundProtocol : ProxyProtocol
  upstreamProtocol : ProxyProtocol
  conversionEnabled : Bool
  strategy : RouteStrategy
  targets : List ProxyTargetConfig
  retry : RetryPolicy
  enabled : Bool
deriving DecidableEq, Repr

/-- `UpstreamProxyMode`. -/
inductive UpstreamProxyMode
  | system
  | direct
  | environment
  | custom
deriving DecidableEq, Repr

/-- `UpstreamProxyConfig`. -/
structure UpstreamProxyConfig where
  mode : UpstreamProxyMode
  customUrl : Option String
deriving DecidableEq, Repr

/-- `SearchVendor`. -/
inductive SearchVendor
  | tavily
  | brave
  | exa
  | firecrawl
  | you
  | deepseek
  | searxng
  | bocha
  | yuanbao
deriving DecidableEq, Repr

/-- `SearchApiConfig`. -/
structure SearchApiConfig where
  id : Uuid
  vendor : SearchVendor
  providerEntryId : Option Uuid
  secretId : Option String
  baseUrl : Option String
  enabled : Bool
deriving DecidableEq, Repr

/-- `SearchModelConfig`. -/
structure SearchModelConfig where
  routeId : Uuid
  model : String
deriving DecidableEq, Repr

/-- `SearchConfig`. -/
structure SearchConfig where
  apis : List SearchApiConfig
  model : Option SearchModelConfig
  apiFirst : Bool
deriving DecidableEq, Repr

/-- `ModelPricing`. -/
structure ModelPricing where
  model : String
  inputMicrosPerMillion : UInt64
  outputMicrosPerMillion : UInt64
  cacheReadMicrosPerMillion : UInt64
  cacheCreationMicrosPerMillion : UInt64
  cacheCreation1hMicrosPerMillion : Option UInt64
deriving DecidableEq, Repr

/-- `ProxyConfig`. -/
structure ProxyConfig where
  search : SearchConfig
  enabled : Bool
  bindAddr : String
  routes : List ProxyRouteConfig
  pricing : List ModelPricing
  upstreamProxy : UpstreamProxyConfig
deriving DecidableEq, Repr

/-- The default configuration, which stands in until the first load. -/
def ProxyConfig.default : ProxyConfig where
  search := ⟨[], none, false⟩
  enabled := false
  bindAddr := "127.0.0.1:8787"
  routes := []
  pricing := []
  upstreamProxy := ⟨.system, none⟩

/-- `text.trim().is_empty()`. -/
def blank (text : String) : Bool := (Text.trim text.toList).isEmpty

/-- A failed validation. -/
def invalid (message : String) : ServiceError := ⟨.validationFailed, message⟩

end Aipass.Server
