import Aipass.Base.Result
import Aipass.Pricing.Cost
import Aipass.Server.Config

/-!
# Edits of the prices by the user

The user upserts a group, deletes a group or one of its versions, and assigns a key to a group. An
edit reads the settings that were stored, changes them and stores them again with the versions of
every group in order. Whatever the user touched is marked as edited by hand.
-/
namespace Aipass.Pricing

open Server (ServiceError invalid blank)

/-- The rules of a version name models, each once, and their windows lie within a day. -/
def validRules : List String → List ModelPriceRule → Bool
  | _, [] => true
  | models, rule :: rest =>
    let model := String.ofList (Text.trim rule.model.toList)
    !blank rule.model && model ∉ models &&
      rule.offPeak.all (fun window => window.startMinuteUtc < 1440 && window.endMinuteUtc < 1440) &&
      validRules (model :: models) rest

/-- `validate_group`. -/
def validateGroup (group : PricingGroup) : Except ServiceError Unit :=
  if !blank group.name && !group.versions.isEmpty &&
      group.versions.all (fun version => !version.rules.isEmpty && validRules [] version.rules) then
    .ok ()
  else .error (invalid
    "pricing rules require a name, unique non-empty model patterns, and valid UTC times")

/-- `normalize_versions`. -/
def normalizeVersions (versions : List GroupPriceVersion) : List GroupPriceVersion :=
  Timeline.normalize GroupPriceVersion.effectiveFrom versions

/-- The versions of a group, all in force from one time on. -/
def PricingGroup.from (group : PricingGroup) (effectiveFrom : ℤ) : List GroupPriceVersion :=
  group.versions.map fun version => { version with effectiveFrom }

/-- `PricingApplyScope`. -/
inductive PricingApplyScope
  | allHistory
  | fromNow
deriving DecidableEq

variable {φ : Type}

/-- `save_pricing_config`: what is stored of a configuration. -/
def PricingConfig.saved (config : PricingConfig φ) : PricingConfig φ :=
  { config with
    groups := config.groups.map fun group =>
      { group with versions := sortByKey GroupPriceVersion.effectiveFrom group.versions } }

/-- Change the group with the id of a group, or else append that group. -/
def PricingConfig.upsert (config : PricingConfig φ) (group : PricingGroup)
    (change : PricingGroup → PricingGroup) : PricingConfig φ :=
  match config.group group.id with
  | some _ => { config with groups := Keyed.amend PricingGroup.id group.id change config.groups }
  | none => { config with groups := config.groups ++ [group] }

/-- `upsert_pricing_group`. -/
def upsertPricingGroup (now : ℕ) (config : PricingConfig φ) (group : PricingGroup)
    (applyScope : PricingApplyScope) : Except ServiceError (PricingConfig φ) := do
  validateGroup group
  match applyScope with
  | .allHistory =>
    -- every version is put at the epoch, and the group is replaced
    let group := { group with manual := true, versions := normalizeVersions (group.from 0) }
    return config.upsert group fun _ => group
  | .fromNow =>
    -- the incoming versions go after what the group has
    let incoming := group.from now
    let group := { group with manual := true, versions := normalizeVersions incoming }
    return config.upsert group fun existing =>
      { existing with
        name := group.name
        manual := true
        versions := normalizeVersions (existing.versions ++ incoming) }

/-- An assignment to a group that is deleted: to none, as the user wants it. -/
def CredentialAssignment.without (groupId : Uuid) (assignment : CredentialAssignment φ) :
    CredentialAssignment φ :=
  if assignment.groupId = some groupId then { assignment with groupId := none, manual := true }
  else assignment

/-- `delete_pricing_group`. -/
def deletePricingGroup (config : PricingConfig φ) (groupId : Uuid) : PricingConfig φ where
  groups := config.groups.filter fun group => group.id ≠ groupId
  assignments := config.assignments.map (CredentialAssignment.without groupId)

/-- `delete_pricing_group_version`. -/
def deletePricingGroupVersion (config : PricingConfig φ) (groupId : Uuid) (effectiveFrom : ℤ) :
    Except ServiceError (PricingConfig φ) :=
  match config.group groupId with
  | none => .error ⟨.notFound, "pricing group not found"⟩
  | some _ => .ok { config with
      groups := Keyed.amend PricingGroup.id groupId
        (fun group => { group with
          manual := true
          versions := group.versions.filter fun version => version.effectiveFrom ≠ effectiveFrom })
        config.groups }

/-- Change the assignment of a key, or else append one. -/
def PricingConfig.assign (config : PricingConfig φ) (assignment : CredentialAssignment φ)
    (change : CredentialAssignment φ → CredentialAssignment φ) : PricingConfig φ :=
  match Keyed.find CredentialAssignment.key assignment.key config.assignments with
  | some _ => { config with
      assignments := Keyed.amend CredentialAssignment.key assignment.key change config.assignments }
  | none => { config with assignments := config.assignments ++ [assignment] }

/-- `set_pricing_assignment`. The keys of an entry are read from the vault. -/
def setPricingAssignment (doubles : Doubles φ)
    (secretRefs : Uuid → Except ServiceError (List String)) (config : PricingConfig φ)
    (entryId : Uuid) (secretId : String) (groupId : Option Uuid) (multiplier : φ) :
    Except ServiceError (PricingConfig φ) := do
  refuseIf (!doubles.usable multiplier)
    (invalid "pricing multiplier must be a finite non-negative number")
  let secrets ← secretRefs entryId
  refuseIf (secretId ∉ secrets) ⟨.notFound, "pricing credential no longer exists"⟩
  refuseIf (groupId.any fun id => (config.group id).isNone)
    ⟨.notFound, "pricing group no longer exists"⟩
  return config.assign ⟨entryId, secretId, groupId, multiplier, true⟩ fun existing =>
    { existing with groupId, multiplier, manual := true }

end Aipass.Pricing
