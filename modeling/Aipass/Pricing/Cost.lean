import Aipass.Base.Json
import Aipass.Base.Keyed
import Aipass.Base.Timeline
import Aipass.Values
import Mathlib.Data.Int.Notation

/-!
# Prices and the cost of a usage row

Keys are assigned to groups. A group has a timeline of versions, and each version has rules that
price the models whose names they begin. The cost of a row is computed when it is asked for: from
the version that was in force when its request was started, or else from the overrides or the list
prices, scaled by the multiplier of the key.
-/
namespace Aipass.Pricing

/-- `OffPeakWindow`. -/
structure OffPeakWindow where
  startMinuteUtc : UInt16
  endMinuteUtc : UInt16
  inputMicros : UInt64
  outputMicros : UInt64
  cacheReadMicros : UInt64
  cacheCreationMicros : UInt64
  cacheCreation1hMicros : Option UInt64
deriving DecidableEq

/-- `ModelPriceRule`. -/
structure ModelPriceRule where
  model : String
  inputMicros : UInt64
  outputMicros : UInt64
  cacheReadMicros : UInt64
  cacheCreationMicros : UInt64
  cacheCreation1hMicros : Option UInt64 := none
  offPeak : Option OffPeakWindow := none
deriving DecidableEq

/-- `ModelPricing`: an override of the list prices. -/
structure ModelPricing where
  model : String
  inputMicros : UInt64
  outputMicros : UInt64
  cacheReadMicros : UInt64
  cacheCreationMicros : UInt64
  cacheCreation1hMicros : Option UInt64
deriving DecidableEq

/-- `GroupPriceVersion`: rules in force from a second of the Unix clock on. -/
structure GroupPriceVersion where
  effectiveFrom : ℤ
  rules : List ModelPriceRule
deriving DecidableEq

/-- `PricingGroup`. -/
structure PricingGroup where
  /-- Edited by the user. -/
  manual : Bool
  id : Uuid
  name : String
  versions : List GroupPriceVersion
deriving DecidableEq

/-- `CredentialAssignment`. -/
structure CredentialAssignment (φ : Type) where
  entryId : Uuid
  secretId : String
  groupId : Option Uuid
  multiplier : φ
  /-- Set by the user. -/
  manual : Bool
deriving DecidableEq

/-- `PricingConfig`, without the time of the list prices, which is no part of what is stored. -/
structure PricingConfig (φ : Type) where
  groups : List PricingGroup := []
  assignments : List (CredentialAssignment φ) := []
deriving DecidableEq

/-- `UsageRow`, as far as its cost depends on it. Its request was started at a second of the Unix
clock. -/
structure UsageRow where
  startedAt : ℕ
  providerEntryId : Uuid
  secretId : String
  model : Option String
  inputTokens : UInt64
  outputTokens : UInt64
  cacheReadTokens : UInt64
  cacheCreationTokens : UInt64
  cacheCreation1hTokens : UInt64

/-- `f64`, as far as prices use it: numbers that are not negative, compared as `==` does. -/
structure Doubles (φ : Type) where
  /-- `1.0`. -/
  one : φ
  /-- `1.25`. -/
  fiveQuarters : φ
  /-- `NEWAPI_RATIO_MICROS_PER_UNIT`. -/
  microsPerUnit : φ
  mul : φ → φ → φ
  /-- `is_finite()` and not less than zero. -/
  usable : φ → Bool
  /-- `as i64` is one. -/
  isOne : φ → Bool
  /-- A number of a JSON text. -/
  ofNumber : Number → φ
  /-- `str::parse`. -/
  parse : String → Option φ
  /-- `rounded_price`. -/
  roundedPrice : φ → UInt64
  /-- A cost times a multiplier, rounded, or zero where it is no positive number. -/
  scale : UInt64 → φ → UInt64

/-- `u64::saturating_mul`. -/
def saturatingMul (left right : UInt64) : UInt64 :=
  if left.toNat * right.toNat < 2 ^ 64 then left * right else UInt64.ofNat (2 ^ 64 - 1)

/-- The prices of a million tokens. -/
structure Prices where
  input : UInt64
  output : UInt64
  cacheRead : UInt64
  cacheCreation : UInt64
  cacheCreation1h : Option UInt64

/-- `tokens_cost`. -/
def tokensCost (prices : Prices) (row : UsageRow) : UInt64 :=
  let hour := min row.cacheCreation1hTokens row.cacheCreationTokens
  let cost := saturatingMul row.inputTokens prices.input
  let cost := saturatingAdd cost (saturatingMul row.outputTokens prices.output)
  let cost := saturatingAdd cost (saturatingMul row.cacheReadTokens prices.cacheRead)
  let cost := saturatingAdd cost
    (saturatingMul (row.cacheCreationTokens - hour) prices.cacheCreation)
  let cost := saturatingAdd cost
    (saturatingMul hour (prices.cacheCreation1h.getD prices.cacheCreation))
  cost / 1000000

/-- `off_peak_contains`. -/
def offPeakContains (window : OffPeakWindow) (startedAt : ℕ) : Bool :=
  let minute := UInt16.ofNat (startedAt % 86400 / 60)
  if window.startMinuteUtc ≤ window.endMinuteUtc then
    window.startMinuteUtc ≤ minute && minute < window.endMinuteUtc
  else window.startMinuteUtc ≤ minute || minute < window.endMinuteUtc

/-- `rule_cost`. -/
def ruleCost (rule : ModelPriceRule) (row : UsageRow) : UInt64 :=
  let usual : Prices := ⟨rule.inputMicros, rule.outputMicros, rule.cacheReadMicros,
    rule.cacheCreationMicros, rule.cacheCreation1hMicros⟩
  match rule.offPeak with
  | some window =>
    if offPeakContains window row.startedAt then
      tokensCost ⟨window.inputMicros, window.outputMicros, window.cacheReadMicros,
        window.cacheCreationMicros, window.cacheCreation1hMicros⟩ row
    else tokensCost usual row
  | none => tokensCost usual row

/-- `str::starts_with`. -/
def startsWith (text lead : String) : Bool := lead.toList.isPrefixOf text.toList

/-- `max_by_key`: the last of the items with the greatest key. -/
def maxByKey {α : Type} (key : α → ℕ) : List α → Option α
  | [] => none
  | item :: rest =>
    match maxByKey key rest with
    | some best => if key item ≤ key best then some best else some item
    | none => some item

/-- The item that names a model best: of those whose pattern the model starts with, the last of the
longest. -/
def findPattern {α : Type} (pattern : α → String) (items : List α) (model : String) : Option α :=
  maxByKey (fun item => (pattern item).utf8ByteSize)
    (items.filter fun item => pattern item = model || startsWith model (pattern item))

/-- `find_rule`. -/
def findRule (rules : List ModelPriceRule) (model : String) : Option ModelPriceRule :=
  findPattern ModelPriceRule.model rules model

/-- The version in force: the last whose time is not after the start. -/
def PricingGroup.versionAt (group : PricingGroup) (startedAt : ℕ) : Option GroupPriceVersion :=
  Timeline.inForce GroupPriceVersion.effectiveFrom group.versions (startedAt : ℤ)

variable {φ : Type} [DecidableEq φ]

/-- What an assignment is for: a key of an entry. -/
def CredentialAssignment.key (assignment : CredentialAssignment φ) : Uuid × String :=
  (assignment.entryId, assignment.secretId)

/-- The assignment of a key. -/
def PricingConfig.assignment (config : PricingConfig φ) (entryId : Uuid) (secretId : String) :
    Option (CredentialAssignment φ) :=
  Keyed.find CredentialAssignment.key (entryId, secretId) config.assignments

/-- The group with an id. -/
def PricingConfig.group (config : PricingConfig φ) (id : Uuid) : Option PricingGroup :=
  Keyed.find PricingGroup.id id config.groups

/-- The version of the group of a key that prices a row. -/
def PricingConfig.versionFor (config : PricingConfig φ) (row : UsageRow) :
    Option GroupPriceVersion :=
  (((config.assignment row.providerEntryId row.secretId).bind
    CredentialAssignment.groupId).bind config.group).bind fun group => group.versionAt row.startedAt

/-- The cost of a row for which a version and a multiplier are in force. -/
def costWith (doubles : Doubles φ) (overrides : List ModelPricing)
    (listPrices : List ModelPriceRule) (version : Option GroupPriceVersion) (multiplier : φ)
    (row : UsageRow) : UInt64 :=
  let groupCost := (version.bind fun version => row.model.bind (findRule version.rules)).map
    fun rule => ruleCost rule row
  let base := groupCost.getD
    ((((row.model.bind (findPattern ModelPricing.model overrides)).map fun pricing =>
      tokensCost ⟨pricing.inputMicros, pricing.outputMicros, pricing.cacheReadMicros,
        pricing.cacheCreationMicros, pricing.cacheCreation1hMicros⟩ row).or
      ((row.model.bind (findRule listPrices)).map fun rule => ruleCost rule row)).getD 0)
  if multiplier = doubles.one then base else doubles.scale base multiplier

/-- `resolve_row_cost`. -/
def resolveRowCost (doubles : Doubles φ) (overrides : List ModelPricing)
    (listPrices : List ModelPriceRule) (config : PricingConfig φ) (row : UsageRow) : UInt64 :=
  costWith doubles overrides listPrices (config.versionFor row)
    (((config.assignment row.providerEntryId row.secretId).map
      CredentialAssignment.multiplier).getD doubles.one) row

end Aipass.Pricing
