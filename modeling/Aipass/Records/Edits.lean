import Aipass.Records.Plaintext

/-!
# Changes of a provider record

Each operation reads a record and writes back what one of these changes makes of it: a refusal, or
what the operation returns and the changed record, if there is something to write. All of them do
one of four things to the keys: nothing, add one, replace one under its identifier, or remove one.
-/
namespace Aipass.Records

/-- What a change makes of a record: a refusal, or a value and a record to write. -/
abbrev Edit (α : Type) :=
  ProviderRecordPlaintext → Except VaultError (α × Option ProviderRecordPlaintext)

variable (fingerprint : String → String)

/-- `SecretRef::new` of a secret. -/
def SecretRef.new (id label secret : String) : SecretRef where
  id
  label
  masked := maskSecret secret
  fingerprint := fingerprint secret
  group := none
  interfaceType := none
  endpoint := none
  defaultModel := none
  billing := none

/-- A key whose secret is replaced. -/
def SecretRef.withSecret (secretRef : SecretRef) (secret : String) : SecretRef :=
  { secretRef with masked := maskSecret secret, fingerprint := fingerprint secret }

/-- A key as `Vault::update_secret` leaves it. -/
def SecretRef.updated (label : String) (secret : Option String) (secretRef : SecretRef) :
    SecretRef :=
  match secret with
  | some secret => { secretRef with label }.withSecret fingerprint secret
  | none => { secretRef with label }

/-- The secrets with that of a key replaced, if there is a new one. -/
def storeSecret (secrets : Table String String) (id : String) : Option String → Table String String
  | some secret => secrets.insert id secret
  | none => secrets

/-- The record that `Vault::add_provider_record` writes. -/
def addProviderRecord (now : OffsetDateTime) (id : Uuid) (secretId : String)
    (input : ProviderEntryInput) (runtimeExtensions : Table String String) :
    ProviderRecordPlaintext :=
  let secretLabel := ((cleanSecretLabel input.secretLabel).or
    (cleanOptional input.secretMetadata.group)).getD "primary"
  let primarySecret :=
    input.secretMetadata.applyTo (SecretRef.new fingerprint secretId secretLabel input.apiKey)
  { entry :=
      { id
        form := input.form
        favorite := false
        providerId := input.providerId
        credentialKind := input.credentialKind
        accountIdentity := cleanOptional input.accountIdentity
        maxConcurrentRequests := input.maxConcurrentRequests.filter (0 < ·)
        supportsWebsockets := input.supportsWebsockets
        websocketWarning := none
        secretRefs := [primarySecret]
        headers := input.headers
        quota := input.quota
        subscription := input.subscription
        gateway := input.gateway
        usageSource := none
        createdAt := now
        updatedAt := now
        lastUsedAt := none
        archivedAt := none
        deletedAt := none }
    secrets := (∅ : Table String String).insert secretId input.apiKey
    runtimeExtensions }

/-- The change of `Vault::add_secret_with_metadata`. -/
def addSecretWithMetadata (now : OffsetDateTime) (secretId label secret : String)
    (metadata : SecretMetadataInput) : Edit String := fun record => do
  refuseIf (record.entry.secretRefs.any fun existing => existing.label = label)
    .duplicateSecretLabel
  let secretRef := metadata.applyTo (SecretRef.new fingerprint secretId label secret)
  return (secretId, some
    { record with
      entry :=
        { record.entry with
          secretRefs := record.entry.secretRefs ++ [secretRef]
          updatedAt := now }
      secrets := record.secrets.insert secretId secret })

/-- The change of `Vault::update_secret`. -/
def updateSecret (now : OffsetDateTime) (secretId label : String) (secret : Option String) :
    Edit Bool := fun record => do
  refuseIf (record.entry.secretRefs.any fun existing =>
    existing.id ≠ secretId && existing.label = label) .duplicateSecretLabel
  let index ← okOr .recordNotFound
    (record.entry.secretRefs.findIdx? fun existing => existing.id = secretId)
  if record.entry.secretRefs[index]?.map SecretRef.label = some label ∧ secret = none then
    .ok (false, none)
  else .ok (true, some
    { record with
      entry :=
        { record.entry with
          secretRefs :=
            record.entry.secretRefs.modify index (SecretRef.updated fingerprint label secret)
          updatedAt := now }
      secrets := storeSecret record.secrets secretId secret })

/-- The change of `Vault::set_secret_metadata`. -/
def setSecretMetadata (now : OffsetDateTime) (labelOrId : String)
    (metadata : SecretMetadataInput) : Edit Bool := fun record => do
  let index ← okOr .recordNotFound (findSecretRefPosition record.entry.secretRefs labelOrId)
  let secret ← okOr .recordNotFound record.entry.secretRefs[index]?
  if metadata.applyTo secret = secret then .ok (false, none)
  else .ok (true, some
    { record with
      entry :=
        { record.entry with
          secretRefs := record.entry.secretRefs.modify index metadata.applyTo
          updatedAt := now } })

/-- The change of `Vault::remove_secret`. -/
def removeSecret (now : OffsetDateTime) (labelOrId : String) : Edit String := fun record => do
  let index ← okOr .recordNotFound (findSecretRefPosition record.entry.secretRefs labelOrId)
  let removed ← okOr .recordNotFound (record.entry.secretRefs[index]?.map SecretRef.id)
  let secretRefs := record.entry.secretRefs.filter fun secret => secret.id ≠ removed
  refuseIf (secretRefs.length = record.entry.secretRefs.length) .recordNotFound
  return (removed, some
    { record with
      entry := { record.entry with secretRefs, updatedAt := now }
      secrets := record.secrets.erase removed })

/-- The label that an update of a provider gives to the first key, if it gives one. -/
def updatedSecretLabel : Option String → Except VaultError (Option String)
  | some label => (okOr .invalidSecretLabel (normalizeUserSecretLabel label)).map some
  | none => .ok none

/-- The first key as `Vault::update_provider` leaves it with a secret. -/
def SecretRef.asPrimary (primary : SecretRef) (secretLabel : Option String) (apiKey : String)
    (metadata : SecretMetadataInput) : SecretRef :=
  metadata.applyTo
    ({ primary with label := secretLabel.getD primary.label }.withSecret fingerprint apiKey)

/-- The keys that `Vault::update_provider` leaves. -/
def updatedRefs (secretId : String) (secretLabel apiKey : Option String)
    (metadata : SecretMetadataInput) (secretRefs : List SecretRef) : List SecretRef :=
  match apiKey, secretRefs with
  | none, secretRefs => secretRefs
  | some apiKey, [] =>
    [metadata.applyTo (SecretRef.new fingerprint secretId (secretLabel.getD "primary") apiKey)]
  | some apiKey, primary :: rest =>
    primary.asPrimary fingerprint secretLabel apiKey metadata :: rest

/-- The change of `Vault::update_provider`. -/
def updateProvider (now : OffsetDateTime) (id : Uuid) (newSecretId : String)
    (input : ProviderEntryUpdateInput) : Edit Unit := fun old => do
  let secretLabel ← updatedSecretLabel input.secretLabel
  refuseIf ((old.entry.secretRefs.drop 1).any fun existing =>
    some existing.label = secretLabel) .duplicateSecretLabel
  let secretId := (old.entry.secretRefs.head?.map SecretRef.id).getD newSecretId
  let apiKey := input.apiKey.or old.secrets[secretId]?
  return ((), some
    { old with
      entry :=
        { old.entry with
          id
          form := input.form
          providerId := input.providerId
          credentialKind := input.credentialKind.getD old.entry.credentialKind
          accountIdentity :=
            match input.accountIdentity with
            | some value => cleanOptional (some value)
            | none => old.entry.accountIdentity
          maxConcurrentRequests :=
            (input.maxConcurrentRequests.or old.entry.maxConcurrentRequests).filter (0 < ·)
          supportsWebsockets := input.supportsWebsockets.or old.entry.supportsWebsockets
          websocketWarning :=
            if input.supportsWebsockets = some true then none else old.entry.websocketWarning
          secretRefs := updatedRefs fingerprint secretId secretLabel apiKey
            input.secretMetadata old.entry.secretRefs
          headers := input.headers.getD old.entry.headers
          quota := input.quota
          subscription := input.subscription.or old.entry.subscription
          gateway := input.gateway
          updatedAt := now }
      secrets := storeSecret old.secrets secretId apiKey })

/-- An entry with the usage that was read for it. -/
def ProviderEntry.withUsage (entry : ProviderEntry) (quota : Option QuotaInfo)
    (gateway : Option GatewayMetadata) (usageSource : Option String) : ProviderEntry :=
  { entry with
    usageSource := ((usageSource.map trimmed).filter (· ≠ "")).or entry.usageSource
    quota :=
      if quota.isSome then quota.filter fun next => next.label.isSome || next.limit.isSome ||
        next.used.isSome || next.remaining.isSome || next.resetAt.isSome
      else entry.quota
    gateway :=
      if gateway.isSome then gateway.filter fun next => next.group.isSome || next.rate.isSome
      else entry.gateway }

/-- The change of `Vault::update_provider_usage`. -/
def updateProviderUsage (now : OffsetDateTime) (quota : Option QuotaInfo)
    (gateway : Option GatewayMetadata) (usageSource : Option String) : Edit Unit := fun record =>
  let next := record.entry.withUsage quota gateway usageSource
  if next.usageSource = record.entry.usageSource ∧ next.quota = record.entry.quota ∧
      next.gateway = record.entry.gateway then
    .ok ((), none)
  else .ok ((), some { record with entry := { next with updatedAt := now } })

/-- The change of `Vault::update_provider_subscription`. -/
def updateProviderSubscription (now : OffsetDateTime) (snapshot : Option Value) : Edit Unit :=
  fun record =>
    if record.entry.subscription = snapshot then .ok ((), none)
    else .ok ((), some
      { record with entry := { record.entry with subscription := snapshot, updatedAt := now } })

/-- The change of `Vault::migrate_subscription_scope`. -/
def migrateSubscriptionScope (now : OffsetDateTime)
    (expectedMarker expectedBundle identity marker bundle : String) : Edit Unit := fun record => do
  let secret ← okOr .recordNotFound record.entry.secretRefs.head?
  refuseIf (record.entry.providerId ≠ some "devin" ||
    record.secrets[secret.id]? ≠ some expectedMarker ||
    record.runtimeExtensions["community_account_v1"]? ≠ some expectedBundle ||
    record.runtimeExtensions["community_account_v2"]?.isSome) .invalidSecretValue
  return ((), some
    { entry :=
        { record.entry with
          secretRefs :=
            record.entry.secretRefs.modifyHead fun secret => secret.withSecret fingerprint marker
          accountIdentity := some identity
          subscription := none
          quota := none
          updatedAt := now }
      secrets := record.secrets.insert secret.id marker
      runtimeExtensions :=
        (record.runtimeExtensions.eraseAll ["community_account_v1", "community_usage_v1"]).insert
          "community_account_v2" bundle })

/-- The change of `Vault::bind_cli_subscription`. -/
def bindCliSubscription (now : OffsetDateTime)
    (provider identity marker extensionKey reference : String) : Edit Unit := fun record => do
  let secret ← okOr .recordNotFound record.entry.secretRefs.head?
  let rescoped := provider = "devin" ∨ extensionKey = "community_account_v3"
  return ((), some
    { entry :=
        { record.entry with
          secretRefs :=
            record.entry.secretRefs.modifyHead fun secret => secret.withSecret fingerprint marker
          providerId := some provider
          credentialKind := .oAuth
          accountIdentity := some identity
          subscription := if rescoped then none else record.entry.subscription
          quota := if rescoped then none else record.entry.quota
          supportsWebsockets := some false
          updatedAt := now }
      secrets := record.secrets.insert secret.id marker
      runtimeExtensions :=
        (record.runtimeExtensions.eraseAll ((if rescoped then ["community_usage_v1"] else []) ++
          ["claude_native", "copilot_auth_v1", "community_account_v1", "community_account_v2",
            "community_account_v3", extensionKey])).insert extensionKey reference })

/-- A record that was used. -/
def ProviderRecordPlaintext.usedAt (record : ProviderRecordPlaintext) (now : OffsetDateTime) :
    ProviderRecordPlaintext :=
  { record with entry := { record.entry with lastUsedAt := some now } }

/-- The change of `Vault::reveal_selected_secret`. -/
def revealSelectedSecret (now : OffsetDateTime) (labelOrId : String) (exact : Bool) :
    Edit String := fun record => do
  let position :=
    if exact then record.entry.secretRefs.findIdx? fun secret => secret.id = labelOrId
    else findSecretRefPosition record.entry.secretRefs labelOrId
  let secretId ← okOr .recordNotFound
    (position.bind fun index => record.entry.secretRefs[index]?.map SecretRef.id)
  let secret ← okOr .recordNotFound record.secrets[secretId]?
  return (secret, some (record.usedAt now))

/-- The change of `Vault::touch_provider_last_used`. -/
def touchProviderLastUsed (now : OffsetDateTime) : Edit Unit := fun record =>
  .ok ((), some (record.usedAt now))

end Aipass.Records
