import Aipass.Pricing.Edits

/-!
# Prices that a gateway publishes

A New API gateway publishes a table of models and the ratios of its groups; a SubAPI gateway tells a
key its multiplier. A sync turns either into groups named after the gateway, adds a version to a
group whose rules changed, and assigns the keys it was asked about, unless the user has a say in it.
Names end in a namespace, which is read off the endpoint of the gateway.
-/
namespace Aipass.Pricing

/-- `reqwest::Url`, as far as a namespace is read off it. -/
structure GatewayUrl where
  hostStr : Option String
  port : Option ℕ
  path : String

/-- `pricing_namespace`. -/
def pricingNamespace (parse : String → Option GatewayUrl) (endpoint : String) : String :=
  match parse endpoint with
  | none => String.ofList (Text.trimEndMatches '/' (Text.trim endpoint.toList))
  | some url =>
    let path := Text.trimEndMatches '/' url.path.toList
    let path := (Text.stripSuffix "/v1".toList path).getD path
    url.hostStr.getD "unknown-host" ++ (url.port.map fun port => ":" ++ toString port).getD "" ++
      String.ofList path

/-- The name of the group for a group of a New API gateway. -/
def newApiName (space groupName : String) : String := "New API / " ++ groupName ++ " @ " ++ space

/-- The name of the group for a SubAPI gateway. -/
def subApiName (space : String) : String := "SubAPI / " ++ space

/-- `is_managed_newapi_group`, for the namespace of the endpoint. -/
def isManagedNewApiGroup (space : String) (group : PricingGroup) : Bool :=
  match Text.stripPrefix "New API / ".toList group.name.toList with
  | none => false
  | some rest =>
    match Text.rsplitOnce " @ ".toList rest with
    | none => false
    | some (groupName, held) => !(Text.trim groupName).isEmpty && held = space.toList

/-- `is_managed_subapi_group`, for the namespace of the endpoint. -/
def isManagedSubApiGroup (space : String) (group : PricingGroup) : Bool :=
  Text.stripPrefix "SubAPI / ".toList group.name.toList = some space.toList

variable {φ : Type} (doubles : Doubles φ)

/-- `json_number`. -/
def jsonNumber : Value → Option φ
  | .number value => some (doubles.ofNumber value)
  | .string text => doubles.parse text
  | _ => none

/-- A number that is finite and not negative. -/
def usableNumber (value : Value) : Option φ := (jsonNumber doubles value).filter doubles.usable

/-- A model is enabled for a group. -/
def enabledFor (model : Value) (groupName : String) : Bool :=
  (((model.get "enable_groups").bind Value.asArray).map fun groups => groups.any fun group =>
    group.asStr.any fun group => group = "all" || group = groupName).getD true

/-- `newapi_model_rule`. -/
def newApiModelRule (model : Value) (groupName : String) (groupRatio : φ) :
    Option ModelPriceRule := do
  let modelName ← (model.get "model_name").bind Value.asStr
  let modelName := String.ofList (Text.trim modelName.toList)
  if modelName = "" then none
  else if !enabledFor model groupName then none
  -- prices for each call are no prices of tokens
  else if ((model.get "quota_type").bind (jsonNumber doubles)).any doubles.isOne then none
  else
    let ratio ← (model.get "model_ratio").bind (usableNumber doubles)
    let input := doubles.mul (doubles.mul ratio groupRatio) doubles.microsPerUnit
    let scaled := fun field usual => doubles.roundedPrice (doubles.mul input
      (((model.get field).bind (usableNumber doubles)).getD usual))
    return {
      model := modelName
      inputMicros := doubles.roundedPrice input
      outputMicros := scaled "completion_ratio" doubles.one
      cacheReadMicros := scaled "cache_ratio" doubles.one
      cacheCreationMicros := scaled "create_cache_ratio" doubles.fiveQuarters }

/-- The rules for a group of a gateway, none where its ratio is no number. -/
def groupRules (models : List Value) (groupName : String) (rawRatio : Value) :
    List ModelPriceRule :=
  match usableNumber doubles rawRatio with
  | none => []
  | some groupRatio => sortByKey ModelPriceRule.model
      (models.filterMap fun model => newApiModelRule doubles model groupName groupRatio)

/-- The rules of a group are not those of its last version, and the user did not edit it. -/
def PricingGroup.outdated (rules : List ModelPriceRule) (group : PricingGroup) : Bool :=
  !group.manual && group.versions.getLast?.map GroupPriceVersion.rules ≠ some rules

/-- The group with a version for the present. -/
def PricingGroup.repriced (now : ℕ) (rules : List ModelPriceRule) (group : PricingGroup) :
    PricingGroup :=
  { group with
    versions := group.versions.filter (fun version => version.effectiveFrom ≠ (now : ℤ)) ++
      [⟨now, rules⟩] }

/-- The groups of a configuration while the ratios of a gateway are taken over. -/
structure Marking where
  groups : List PricingGroup
  groupIds : List (String × Uuid) := []
  changed : Bool := false

/-- The groups with one of a name, its identifier, and whether it is new. -/
def withGroup (name : String) (drawn : Uuid) (groups : List PricingGroup) :
    List PricingGroup × Uuid × Bool :=
  match Keyed.find PricingGroup.name name groups with
  | some group => (groups, group.id, false)
  | none => (groups ++ [⟨false, drawn, name, []⟩], drawn, true)

/-- The body of the loop over the ratios, for a group that has rules. A new group would get the
identifier that is drawn. -/
def Marking.take (now : ℕ) (space : String) (drawn : Uuid) (groupName : String)
    (rules : List ModelPriceRule) (marking : Marking) : Marking :=
  let name := newApiName space groupName
  let (groups, groupId, created) := withGroup name drawn marking.groups
  let outdated := (Keyed.find PricingGroup.id groupId groups).any (PricingGroup.outdated rules)
  { groups := if outdated then
      Keyed.amend PricingGroup.id groupId (PricingGroup.repriced now rules) groups
    else groups
    groupIds := (groupName, groupId) :: marking.groupIds
    changed := marking.changed || created || outdated }

/-- The loop over the ratios. -/
def markGroups (now : ℕ) (space : String) (draw : String → Uuid) (models : List Value) :
    List (String × Value) → Marking → Marking
  | [], marking => marking
  | (groupName, rawRatio) :: rest, marking =>
    let rules := groupRules doubles models groupName rawRatio
    markGroups now space draw models rest
      (if rules.isEmpty then marking else marking.take now space (draw groupName) groupName rules)

variable [DecidableEq φ]

/-- What a sync makes of an assignment whose key belongs to a group or to none, and whether that is
a change. -/
def CredentialAssignment.settle (managed : Bool) (next : Option Uuid)
    (assignment : CredentialAssignment φ) : CredentialAssignment φ × Bool :=
  let free := assignment.groupId = none && assignment.multiplier = doubles.one
  if assignment.manual then (assignment, false)
  else if next.isSome && (managed || free) then
    if assignment.groupId ≠ next || assignment.multiplier ≠ doubles.one then
      ({ assignment with groupId := next, multiplier := doubles.one }, true)
    else (assignment, false)
  else if next.isNone && managed then
    ({ assignment with groupId := none, multiplier := doubles.one }, true)
  else (assignment, false)

/-- The body of the loop over the keys, for a key and the group it belongs to. The sync may change
what is managed already. -/
def settleKey (managed : CredentialAssignment φ → Bool) (entryId : Uuid) (secretId : String)
    (next : Option Uuid) (assignments : List (CredentialAssignment φ)) :
    List (CredentialAssignment φ) × Bool :=
  match Keyed.find CredentialAssignment.key (entryId, secretId) assignments with
  | some assignment =>
    let settled := assignment.settle doubles (managed assignment) next
    (Keyed.amend CredentialAssignment.key (entryId, secretId) (fun _ => settled.1) assignments,
      settled.2)
  | none =>
    match next with
    | some groupId =>
      (assignments ++ [⟨entryId, secretId, some groupId, doubles.one, false⟩], true)
    | none => (assignments, false)

/-- The loop over the keys. -/
def settleKeys (managed : CredentialAssignment φ → Bool) (entryId : Uuid) :
    List (String × Option Uuid) → List (CredentialAssignment φ) × Bool →
      List (CredentialAssignment φ) × Bool
  | [], state => state
  | (secretId, next) :: rest, state =>
    let settled := settleKey doubles managed entryId secretId next state.1
    settleKeys managed entryId rest (settled.1, state.2 || settled.2)

/-- The group of an assignment meets a condition. -/
def groupIs (groups : List PricingGroup) (test : PricingGroup → Bool)
    (assignment : CredentialAssignment φ) : Bool :=
  (assignment.groupId.bind fun id => Keyed.find PricingGroup.id id groups).any test

/-- The identifier of the group that a key belongs to. -/
def groupOf (groupIds : List (String × Uuid)) (secretGroup : Option String) : Option Uuid :=
  secretGroup.bind fun name => (Keyed.find Prod.fst name groupIds).map Prod.snd

/-- `sync_newapi_pricing`: the configuration returned, and whether it was stored. -/
def syncNewApiPricing (parse : String → Option GatewayUrl) (now : ℕ) (draw : String → Uuid)
    (config : PricingConfig φ) (entryId : Uuid) (endpoint : String)
    (secretGroups : List (String × Option String)) (payload : Value) : PricingConfig φ × Bool :=
  if payload.get "success" = some (.bool false) then (config, false)
  else
    match (payload.get "data").bind Value.asArray, (payload.get "group_ratio").bind Value.asObject with
    | some models, some ratios =>
      let space := pricingNamespace parse endpoint
      let marking := markGroups doubles now space draw models ratios { groups := config.groups }
      let managed := groupIs marking.groups (isManagedNewApiGroup space)
      let (assignments, changed) := settleKeys doubles managed entryId
        (secretGroups.map fun secret => (secret.1, groupOf marking.groupIds secret.2))
        (config.assignments, marking.changed)
      (⟨marking.groups, assignments⟩, changed)
    | _, _ => (config, false)

/-- `subapi_billing_multiplier`. -/
def subApiBillingMultiplier (payload : Value) : Option φ :=
  let data := (payload.get "data").getD payload
  (["effective_rate_multiplier", "resolved_rate_multiplier",
    "group_rate_multiplier"].findSome? fun field =>
      (data.get field).bind (jsonNumber doubles)).filter doubles.usable

/-- `sync_subapi_pricing`: the configuration returned, and whether it was stored. -/
def syncSubApiPricing (parse : String → Option GatewayUrl) (drawn : Uuid)
    (config : PricingConfig φ) (entryId : Uuid) (secretId endpoint : String) (payload : Value) :
    PricingConfig φ × Bool :=
  match subApiBillingMultiplier doubles payload with
  | none => (config, false)
  | some multiplier =>
    if config.assignments.any fun item => item.key = (entryId, secretId) && item.manual then
      (config, false)
    else
      let space := pricingNamespace parse endpoint
      let (groups, groupId, created) := withGroup (subApiName space) drawn config.groups
      match Keyed.find CredentialAssignment.key (entryId, secretId) config.assignments with
      | none =>
        (⟨groups, config.assignments ++ [⟨entryId, secretId, some groupId, multiplier, false⟩]⟩, true)
      | some assignment =>
        let free := assignment.groupId = none && assignment.multiplier = doubles.one
        let managed := groupIs groups (isManagedSubApiGroup space) assignment
        if (managed || free) &&
            (assignment.groupId ≠ some groupId || assignment.multiplier ≠ multiplier) then
          (⟨groups, Keyed.amend CredentialAssignment.key (entryId, secretId)
            (fun item => { item with groupId := some groupId, multiplier })
            config.assignments⟩, true)
        else (⟨groups, config.assignments⟩, created)

/-- A step of the user or of a sync. -/
inductive Edit (φ : Type)
  | upsertPricingGroup (group : PricingGroup) (applyScope : PricingApplyScope)
  | deletePricingGroup (groupId : Uuid)
  | deletePricingGroupVersion (groupId : Uuid) (effectiveFrom : ℤ)
  /-- The keys of the entries are those the vault has at the time. -/
  | setPricingAssignment (secretRefs : Uuid → Except Server.ServiceError (List String))
    (entryId : Uuid) (secretId : String) (groupId : Option Uuid) (multiplier : φ)
  /-- The identifiers are those drawn for new groups. -/
  | syncNewApiPricing (draw : String → Uuid) (entryId : Uuid) (endpoint : String)
    (secretGroups : List (String × Option String)) (payload : Value)
  | syncSubApiPricing (drawn : Uuid) (entryId : Uuid) (secretId endpoint : String)
    (payload : Value)

/-- The configuration that an edit returns, and whether it stores it. -/
def Edit.perform (parse : String → Option GatewayUrl) (now : ℕ) (config : PricingConfig φ) :
    Edit φ → Except Server.ServiceError (PricingConfig φ × Bool)
  | upsertPricingGroup group applyScope =>
    (Pricing.upsertPricingGroup now config group applyScope).map (·, true)
  | deletePricingGroup groupId => .ok (Pricing.deletePricingGroup config groupId, true)
  | deletePricingGroupVersion groupId effectiveFrom =>
    (Pricing.deletePricingGroupVersion config groupId effectiveFrom).map (·, true)
  | setPricingAssignment secretRefs entryId secretId groupId multiplier =>
    (Pricing.setPricingAssignment doubles secretRefs config entryId secretId groupId multiplier).map
      (·, true)
  | syncNewApiPricing draw entryId endpoint secretGroups payload =>
    .ok (Pricing.syncNewApiPricing doubles parse now draw config entryId endpoint secretGroups
      payload)
  | syncSubApiPricing drawn entryId secretId endpoint payload =>
    .ok (Pricing.syncSubApiPricing doubles parse drawn config entryId secretId endpoint payload)

/-- The configuration that is stored after an edit. -/
def Edit.after (parse : String → Option GatewayUrl) (now : ℕ) (config : PricingConfig φ)
    (edit : Edit φ) : PricingConfig φ :=
  match edit.perform doubles parse now config with
  | .ok (returned, true) => returned.saved
  | _ => config

end Aipass.Pricing
