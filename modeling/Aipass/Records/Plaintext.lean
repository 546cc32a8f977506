import Aipass.Base.Result
import Aipass.Base.Table
import Aipass.Server.Providers

/-!
# Provider records

A record of a provider holds an entry and the secrets of its keys. The entry describes each key: its
identifier, its label, a mask and a fingerprint of its secret, and metadata. Every operation on a
record is a change of it that may refuse. Fingerprints are a parameter, and so is what an operation
draws: the time and a new identifier. What the operations carry along and never look at is JSON.
-/
namespace Aipass.Records

/-- `VaultError`, as far as operations on records return it. -/
inductive VaultError
  | recordNotFound
  | grantNotFound
  | grantExpired
  | duplicateSecretLabel
  | invalidSecretLabel
  | invalidSecretValue
  | io
  | json
  | crypto
deriving DecidableEq

/-- `str::trim`. -/
def trimmed (text : String) : String := String.ofList (Text.trim text.toList)

/-- `clean_optional`. -/
def cleanOptional (value : Option String) : Option String := (value.map trimmed).filter (· ≠ "")

/-- `patch_optional`. -/
def patchOptional (patch current : Option String) : Option String :=
  match patch with
  | some value => cleanOptional (some value)
  | none => current

/-- `char::is_control`. -/
def isControl (char : Char) : Bool :=
  char.toNat < 0x20 || (0x7f ≤ char.toNat && char.toNat < 0xa0)

/-- `str::eq_ignore_ascii_case`. -/
def eqIgnoreAsciiCase (text other : String) : Bool :=
  text.toList.map Char.toLower = other.toList.map Char.toLower

/-- A label of at most 64 bytes without control characters, and not empty. -/
def labelFits (label : String) : Bool :=
  label ≠ "" && label.utf8ByteSize ≤ 64 && !label.toList.any isControl

/-- `clean_secret_label`. -/
def cleanSecretLabel (value : Option String) : Option String :=
  (value.map trimmed).filter fun label =>
    labelFits label && !eqIgnoreAsciiCase label "api key" && !eqIgnoreAsciiCase label "token" &&
      !eqIgnoreAsciiCase label "secret" && label ≠ "密钥" && label ≠ "令牌"

/-- `normalize_user_secret_label`. -/
def normalizeUserSecretLabel (value : String) : Option String :=
  (some (trimmed value)).filter labelFits

/-- `mask_secret`. -/
def maskSecret (secret : String) : String :=
  let chars := secret.toList
  if chars = [] then "****"
  else if chars.length ≤ 8 then
    String.ofList (chars.take 2) ++ "..." ++ String.ofList (chars.drop (chars.length - 2))
  else String.ofList (chars.take 6) ++ "..." ++ String.ofList (chars.drop (chars.length - 4))

/-- `BillingRule`. -/
structure BillingRule where
  rate : Option String
  currency : Option String
  unitPrice : Option String
  note : Option String
deriving DecidableEq

/-- `BillingRule::is_empty`. -/
def BillingRule.isEmpty (rule : BillingRule) : Bool :=
  [rule.rate, rule.currency, rule.unitPrice, rule.note].all fun value =>
    value.all fun text => trimmed text = ""

/-- `SecretRef`. -/
structure SecretRef where
  id : String
  label : String
  masked : String
  fingerprint : String
  group : Option String
  interfaceType : Option Server.InterfaceType
  endpoint : Option String
  defaultModel : Option String
  billing : Option BillingRule
deriving DecidableEq

/-- `SecretMetadataInput`. -/
structure SecretMetadataInput where
  group : Option String
  interfaceType : Option Server.InterfaceType
  endpoint : Option String
  defaultModel : Option String
  billing : Option BillingRule
deriving DecidableEq

/-- The billing rule that `SecretMetadataInput::apply_to` leaves. -/
def BillingRule.patched (billing : BillingRule) (previous : Option BillingRule) :
    Option BillingRule :=
  let merged : BillingRule :=
    { rate := patchOptional billing.rate (previous.bind BillingRule.rate)
      currency := patchOptional billing.currency (previous.bind BillingRule.currency)
      unitPrice := patchOptional billing.unitPrice (previous.bind BillingRule.unitPrice)
      note := patchOptional billing.note (previous.bind BillingRule.note) }
  if merged.isEmpty then none else some merged

/-- `SecretMetadataInput::apply_to`, which also returns whether the key is another one then. -/
def SecretMetadataInput.applyTo (metadata : SecretMetadataInput) (secret : SecretRef) :
    SecretRef :=
  { secret with
    endpoint := patchOptional metadata.endpoint secret.endpoint
    defaultModel := patchOptional metadata.defaultModel secret.defaultModel
    group := patchOptional metadata.group secret.group
    interfaceType := metadata.interfaceType.or secret.interfaceType
    billing :=
      match metadata.billing with
      | some billing => billing.patched secret.billing
      | none => secret.billing }

/-- `QuotaInfo`. -/
structure QuotaInfo where
  unit : Option String
  label : Option String
  limit : Option String
  used : Option String
  remaining : Option String
  resetAt : Option String
deriving DecidableEq

/-- `GatewayMetadata`. -/
structure GatewayMetadata where
  group : Option String
  rate : Option String
deriving DecidableEq

/-- `ProviderEntry`. -/
structure ProviderEntry where
  id : Uuid
  /-- The title, the kind, the domains, the icon, the endpoints, the interface, the authentication,
  the models, the tags and the notes. -/
  form : Value
  favorite : Bool
  providerId : Option String
  credentialKind : Server.CredentialKind
  accountIdentity : Option String
  maxConcurrentRequests : Option UInt32
  supportsWebsockets : Option Bool
  websocketWarning : Option Value
  secretRefs : List SecretRef
  headers : List (String × String)
  quota : Option QuotaInfo
  subscription : Option Value
  gateway : Option GatewayMetadata
  usageSource : Option String
  createdAt : OffsetDateTime
  updatedAt : OffsetDateTime
  lastUsedAt : Option OffsetDateTime
  archivedAt : Option OffsetDateTime
  deletedAt : Option OffsetDateTime

/-- `ProviderRecordPlaintext`. -/
structure ProviderRecordPlaintext where
  entry : ProviderEntry
  secrets : Table String String
  runtimeExtensions : Table String String

/-- `ProviderEntryInput`. -/
structure ProviderEntryInput where
  form : Value
  providerId : Option String
  credentialKind : Server.CredentialKind
  accountIdentity : Option String
  maxConcurrentRequests : Option UInt32
  supportsWebsockets : Option Bool
  apiKey : String
  secretLabel : Option String
  headers : List (String × String)
  quota : Option QuotaInfo
  subscription : Option Value
  gateway : Option GatewayMetadata
  secretMetadata : SecretMetadataInput

/-- `ProviderEntryUpdateInput`. -/
structure ProviderEntryUpdateInput where
  form : Value
  providerId : Option String
  credentialKind : Option Server.CredentialKind
  accountIdentity : Option String
  maxConcurrentRequests : Option UInt32
  supportsWebsockets : Option Bool
  apiKey : Option String
  secretLabel : Option String
  headers : Option (List (String × String))
  quota : Option QuotaInfo
  subscription : Option Value
  gateway : Option GatewayMetadata
  secretMetadata : SecretMetadataInput

/-- `PRIMARY_SECRET_FIELD`. -/
def primarySecretField : String := "primary"

/-- `find_secret_ref_position`. -/
def findSecretRefPosition (secretRefs : List SecretRef) (labelOrId : String) : Option ℕ :=
  (secretRefs.findIdx? fun secret => secret.id = labelOrId).or
    ((secretRefs.findIdx? fun secret => secret.label = labelOrId).or
      (if labelOrId = primarySecretField ∧ secretRefs ≠ [] then some 0 else none))

end Aipass.Records
