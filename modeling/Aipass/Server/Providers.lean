import Aipass.Server.Config

/-!
# Provider records as the proxy reads them

A provider record lists its endpoints and its keys, with the secrets and headers kept apart from
what is shown of it. An error of the vault becomes an error of the service.
-/
namespace Aipass.Server

/-- `ProviderKind`. -/
inductive ProviderKind
  | official
  | thirdParty
  | selfHosted
  | unknown
deriving DecidableEq, Repr

/-- `CredentialKind`. -/
inductive CredentialKind
  | api
  | oAuth
deriving DecidableEq, Repr

/-- `InterfaceType`. -/
inductive InterfaceType
  | openAiCompatible
  | anthropicMessages
  | gemini
  | azureOpenAi
  | bedrock
  | customHttp
deriving DecidableEq, Repr

/-- `AuthScheme`. -/
inductive AuthScheme
  | bearer
  | xApiKey
  | googleApiKey
  | azureApiKey
  | awsProfile
  | customHeader
deriving DecidableEq, Repr

/-- `EndpointKind`. -/
inductive EndpointKind
  | api
  | console
  | auth
  | usage
  | custom
deriving DecidableEq, Repr

/-- `ProviderEndpoint`, as far as the proxy reads it. -/
structure ProviderEndpoint where
  kind : EndpointKind
  url : Option String
deriving DecidableEq, Repr

/-- `SecretRef`, as far as the proxy reads it. -/
structure SecretRef where
  id : String
  label : String
  group : Option String
  interfaceType : Option InterfaceType
  endpoint : Option String
deriving DecidableEq, Repr

/-- `EntrySummary`, as far as the proxy reads it. -/
structure EntrySummary where
  id : Uuid
  providerKind : ProviderKind
  providerId : Option String
  credentialKind : CredentialKind
  interfaceType : InterfaceType
  authScheme : AuthScheme
  endpoints : List ProviderEndpoint
  secretRefs : List SecretRef
  gatewayGroup : Option String
  maxConcurrentRequests : Option UInt32
  supportsWebsockets : Option Bool
  archivedAt : Option OffsetDateTime
  deletedAt : Option OffsetDateTime
deriving DecidableEq, Repr

/-- `VaultError`, as far as these calls return it. -/
inductive VaultError
  | recordNotFound
  | duplicateSecretLabel
  | invalidSecretLabel
  | invalidSecretValue
  | io (error : String)
  | json (error : String)
  | crypto (error : String)
deriving DecidableEq, Repr

/-- `map_vault_error`. -/
def mapVaultError : VaultError → ServiceError
  | .recordNotFound => ⟨.notFound, "record not found"⟩
  | .duplicateSecretLabel => ⟨.conflict, "secret label already exists"⟩
  | .invalidSecretLabel => ⟨.validationFailed, "secret label is invalid"⟩
  | .invalidSecretValue => ⟨.validationFailed, "secret value is invalid"⟩
  | .io error | .json error | .crypto error => ⟨.internal, error⟩

/-- `ProviderRecordPlaintext`, as far as the proxy reads it. -/
structure ProviderRecord where
  entry : EntrySummary
  headers : List (String × String)
  secrets : String → Option String

/-- `str::eq_ignore_ascii_case`. -/
def eqIgnoreAsciiCase (left right : String) : Bool :=
  left.toList.map Char.toLower = right.toList.map Char.toLower

end Aipass.Server
