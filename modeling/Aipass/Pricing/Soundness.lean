import Aipass.Pricing.Assignments

/-!
# What every edit keeps

Whatever order edits come in, as long as the clock does not go back, the versions of each group are
in order, those of a group that only syncs have written are in the past, no two groups share an
identifier and no key has two assignments. What is stored is then what an edit returns.
-/
namespace Aipass.Pricing

open Server (ServiceError)

/-- What holds of the configuration that is stored. -/
structure Sound {φ : Type} (clock : ℕ) (config : PricingConfig φ) : Prop where
  groups : SoundGroups clock config.groups
  keys : (config.assignments.map CredentialAssignment.key).Nodup

variable {φ : Type} {clock now : ℕ} {config : PricingConfig φ}

/-- Versions that are in order are stored as they are. -/
theorem Sound.saved (sound : Sound clock config) : config.saved = config := by
  have kept : ∀ group ∈ config.groups, ({ group with
      versions := sortByKey GroupPriceVersion.effectiveFrom group.versions } : PricingGroup) =
        group := by
    intro group listed
    rw [(sound.groups.timelines group listed).sorted]
  rw [PricingConfig.saved, List.map_congr_left kept, List.map_id']

/-- Groups stay sound when one of them is changed by the user. -/
theorem SoundGroups.amend {groups : List PricingGroup} (sound : SoundGroups clock groups) {id : Uuid}
    {change : PricingGroup → PricingGroup}
    (same : ∀ group, group.id = id → (change group).id = id)
    (manual : ∀ group, (change group).manual = true)
    (ordered : ∀ group ∈ groups,
      Timeline.Ordered GroupPriceVersion.effectiveFrom (change group).versions) :
    SoundGroups clock (Keyed.amend PricingGroup.id id change groups) where
  timelines := by
    intro group held
    rcases Keyed.mem_amend held with kept | ⟨old, listed, -, rfl⟩
    · exact sound.timelines group kept
    · exact ordered old listed
  past := by
    intro group held automatic
    rcases Keyed.mem_amend held with kept | ⟨old, -, -, rfl⟩
    · exact sound.past group kept automatic
    · rw [manual old] at automatic
      cases automatic
  ids := by
    rw [Keyed.keys_amend same]
    exact sound.ids

/-- Groups stay sound when one with another identifier is added. -/
theorem SoundGroups.append {groups : List PricingGroup} (sound : SoundGroups clock groups)
    {group : PricingGroup} (new : group.id ∉ groups.map PricingGroup.id)
    (ordered : Timeline.Ordered GroupPriceVersion.effectiveFrom group.versions)
    (past : group.manual = false → ∀ version ∈ group.versions, version.effectiveFrom ≤ clock) :
    SoundGroups clock (groups ++ [group]) where
  timelines := by
    intro other held
    rcases List.mem_append.mp held with kept | added
    · exact sound.timelines other kept
    · rw [List.mem_singleton.mp added]
      exact ordered
  past := by
    intro other held
    rcases List.mem_append.mp held with kept | added
    · exact sound.past other kept
    · rw [List.mem_singleton.mp added]
      exact past
  ids := Keyed.nodup_append sound.ids new

/-- A configuration stays sound when the user upserts a group. -/
theorem Sound.upsert (sound : Sound clock config) {group : PricingGroup}
    {change : PricingGroup → PricingGroup}
    (same : ∀ existing, existing.id = group.id → (change existing).id = group.id)
    (manual : ∀ existing, (change existing).manual = true)
    (ordered : ∀ existing ∈ config.groups,
      Timeline.Ordered GroupPriceVersion.effectiveFrom (change existing).versions)
    (manualNew : group.manual = true)
    (orderedNew : Timeline.Ordered GroupPriceVersion.effectiveFrom group.versions) :
    Sound clock (config.upsert group change) := by
  unfold PricingConfig.upsert
  cases found : config.group group.id with
  | some _ => exact ⟨sound.groups.amend same manual ordered, sound.keys⟩
  | none =>
    refine ⟨sound.groups.append (Keyed.find_eq_none.mp found) orderedNew ?_, sound.keys⟩
    rw [manualNew]
    exact fun automatic => nomatch automatic

/-- `upsert_pricing_group` keeps a configuration sound. -/
theorem Sound.upsertPricingGroup (sound : Sound clock config) {group : PricingGroup}
    {applyScope : PricingApplyScope} {returned : PricingConfig φ}
    (done : upsertPricingGroup now config group applyScope = .ok returned) :
    Sound clock returned := by
  obtain ⟨-, -, rest⟩ := bind_eq_ok.mp done
  cases applyScope with
  | allHistory =>
    rw [← Except.ok.inj rest]
    exact sound.upsert (fun _ _ => rfl) (fun _ => rfl)
      (fun _ _ => Timeline.ordered_normalize _) rfl (Timeline.ordered_normalize _)
  | fromNow =>
    rw [← Except.ok.inj rest]
    exact sound.upsert (fun _ same => same) (fun _ => rfl)
      (fun _ _ => Timeline.ordered_normalize _) rfl (Timeline.ordered_normalize _)

/-- `delete_pricing_group` keeps a configuration sound. -/
theorem Sound.deletePricingGroup (sound : Sound clock config) (groupId : Uuid) :
    Sound clock (deletePricingGroup config groupId) where
  groups := {
    timelines := fun group held => sound.groups.timelines group (List.mem_filter.mp held).1
    past := fun group held => sound.groups.past group (List.mem_filter.mp held).1
    ids := sound.groups.ids.sublist (List.filter_sublist.map _) }
  keys := by
    have same : ∀ assignment : CredentialAssignment φ,
        (assignment.without groupId).key = assignment.key := by
      intro assignment
      unfold CredentialAssignment.without
      split <;> rfl
    have mapped := List.map_congr_left fun assignment (_ : assignment ∈ config.assignments) =>
      same assignment
    rw [Pricing.deletePricingGroup, List.map_map]
    exact mapped ▸ sound.keys

/-- `delete_pricing_group_version` keeps a configuration sound. -/
theorem Sound.deletePricingGroupVersion (sound : Sound clock config) {groupId : Uuid}
    {effectiveFrom : ℤ} {returned : PricingConfig φ}
    (done : deletePricingGroupVersion config groupId effectiveFrom = .ok returned) :
    Sound clock returned := by
  unfold Pricing.deletePricingGroupVersion at done
  split at done
  · cases done
  · rw [← Except.ok.inj done]
    refine ⟨sound.groups.amend (fun _ same => same) (fun _ => rfl) ?_, sound.keys⟩
    intro group listed
    exact (sound.groups.timelines group listed).filter _

/-- A configuration stays sound when a key is assigned. -/
theorem Sound.assign (sound : Sound clock config) {assignment : CredentialAssignment φ}
    {change : CredentialAssignment φ → CredentialAssignment φ}
    (same : ∀ item, item.key = assignment.key → (change item).key = assignment.key) :
    Sound clock (config.assign assignment change) := by
  unfold PricingConfig.assign
  cases found : Keyed.find CredentialAssignment.key assignment.key config.assignments with
  | some _ =>
    refine ⟨sound.groups, ?_⟩
    rw [Keyed.keys_amend same]
    exact sound.keys
  | none => exact ⟨sound.groups, Keyed.nodup_append sound.keys (Keyed.find_eq_none.mp found)⟩

/-- `set_pricing_assignment` keeps a configuration sound. -/
theorem Sound.setPricingAssignment (sound : Sound clock config) {doubles : Doubles φ}
    {secretRefs : Uuid → Except ServiceError (List String)} {entryId : Uuid} {secretId : String}
    {groupId : Option Uuid} {multiplier : φ} {returned : PricingConfig φ}
    (done : setPricingAssignment doubles secretRefs config entryId secretId groupId multiplier =
      .ok returned) : Sound clock returned := by
  obtain ⟨-, -, rest⟩ := bind_eq_ok.mp done
  obtain ⟨secrets, -, rest⟩ := bind_eq_ok.mp rest
  obtain ⟨-, -, rest⟩ := bind_eq_ok.mp rest
  obtain ⟨-, -, rest⟩ := bind_eq_ok.mp rest
  rw [← Except.ok.inj rest]
  exact sound.assign fun _ same => same

/-- The group with a name is there, new or not, and the groups are sound. -/
theorem withGroup_spec (name : String) {groups : List PricingGroup}
    (sound : SoundGroups clock groups) {drawn : Uuid} (new : drawn ∉ groups.map PricingGroup.id) :
    SoundGroups clock (withGroup name drawn groups).1 ∧
      (∃ group, Keyed.find PricingGroup.name name (withGroup name drawn groups).1 = some group ∧
        group.id = (withGroup name drawn groups).2.1) ∧
      (∀ group ∈ groups, group ∈ (withGroup name drawn groups).1) ∧
      (∀ id startedAt, versionIn (withGroup name drawn groups).1 id startedAt =
        versionIn groups id startedAt) ∧
      ((withGroup name drawn groups).2.2 = false → (withGroup name drawn groups).1 = groups) := by
  unfold withGroup
  cases named : Keyed.find PricingGroup.name name groups with
  | some group =>
    exact ⟨sound, ⟨group, named, rfl⟩, fun _ held => held, fun _ _ => rfl, fun _ => rfl⟩
  | none =>
    refine ⟨sound.append new List.Pairwise.nil (by simp), ⟨⟨false, drawn, name, []⟩, ?_, rfl⟩,
      fun _ held => List.mem_append_left _ held, ?_, by simp⟩
    · rw [Keyed.find_append, named, Option.none_or]
      exact if_pos rfl
    · intro id startedAt
      rw [versionIn, versionIn, Keyed.find_append]
      cases Keyed.find PricingGroup.id id groups with
      | some found => rfl
      | none =>
        rw [Option.none_or]
        split <;> rfl

/-- The group with an identifier after an upsert. -/
theorem group_upsert (group : PricingGroup) {change : PricingGroup → PricingGroup}
    (same : ∀ existing, existing.id = group.id → (change existing).id = group.id) (id : Uuid) :
    Keyed.find PricingGroup.id id (config.upsert group change).groups =
      if id = group.id then some (((config.group group.id).map change).getD group)
      else Keyed.find PricingGroup.id id config.groups := by
  unfold PricingConfig.upsert
  cases found : config.group group.id with
  | some existing =>
    dsimp only
    rw [Keyed.find_amend same]
    split
    · change (config.group group.id).map change = _
      rw [found]
      rfl
    · rfl
  | none =>
    dsimp only
    rw [Keyed.find_append]
    by_cases asked : id = group.id
    · rw [asked, if_pos rfl, if_pos rfl]
      change (config.group group.id).or _ = _
      rw [found, Option.none_or]
      rfl
    · rw [if_neg asked, if_neg (Ne.symm asked), Option.or_none]

/-- Rules that are upserted from now on are not in force before. -/
theorem versionIn_upsert_fromNow (sound : Sound clock config) {group : PricingGroup}
    {returned : PricingConfig φ} (done : upsertPricingGroup now config group .fromNow = .ok returned)
    (id : Uuid) {startedAt : ℕ} (before : startedAt < now) :
    versionIn returned.groups id startedAt = versionIn config.groups id startedAt := by
  obtain ⟨-, -, rest⟩ := bind_eq_ok.mp done
  have later : ∀ version ∈ group.from now, ((startedAt : ℕ) : ℤ) < version.effectiveFrom := by
    intro version listed
    obtain ⟨given, -, rfl⟩ := List.mem_map.mp listed
    exact Int.ofNat_lt.mpr before
  rw [← Except.ok.inj rest, versionIn]
  refine Eq.trans (congrArg (Option.bind · _) (group_upsert _ ?_ _)) ?_
  · exact fun _ same => same
  dsimp only
  split
  · next same =>
    rw [same, versionIn]
    change PricingGroup.versionAt _ startedAt = (config.group group.id).bind _
    cases found : config.group group.id with
    | some existing =>
      exact Timeline.inForce_normalize_append
        (sound.groups.timelines existing (Keyed.find_some found).1) later
    | none =>
      apply Timeline.inForce_eq_none
      intro version kept
      exact later version (Timeline.mem_of_mem_normalize kept)
  · rfl

/-- A group whose history was replaced has the last version that came in, for all time. -/
theorem versionIn_upsert_allHistory {group : PricingGroup} {returned : PricingConfig φ}
    (done : upsertPricingGroup now config group .allHistory = .ok returned) :
    ∃ last, group.versions.getLast? = some last ∧ ∀ startedAt,
      versionIn returned.groups group.id startedAt = some { last with effectiveFrom := 0 } := by
  obtain ⟨valid, passed, rest⟩ := bind_eq_ok.mp done
  have nonempty : group.versions ≠ [] := by
    intro none_
    unfold validateGroup at passed
    simp [none_] at passed
  obtain ⟨last, isLast⟩ := Option.ne_none_iff_exists'.mp
    (mt List.getLast?_eq_none_iff.mp nonempty)
  refine ⟨last, isLast, ?_⟩
  have level : ∀ version ∈ group.from 0, version.effectiveFrom = 0 := by
    intro version listed
    obtain ⟨given, -, rfl⟩ := List.mem_map.mp listed
    rfl
  have versions : normalizeVersions (group.from 0) = [{ last with effectiveFrom := 0 }] := by
    rw [normalizeVersions, Timeline.normalize_of_level level, PricingGroup.from,
      List.getLast?_map, isLast]
    rfl
  intro startedAt
  have inForce : Timeline.inForce GroupPriceVersion.effectiveFrom
      (normalizeVersions (group.from 0)) (startedAt : ℤ) =
        some { last with effectiveFrom := 0 } := by
    rw [versions]
    simp [Timeline.inForce]
  rw [← Except.ok.inj rest, versionIn]
  refine Eq.trans (congrArg (Option.bind · _) (group_upsert _ (fun _ _ => rfl) _)) ?_
  rw [if_pos rfl]
  cases config.group group.id with
  | some existing => exact inForce
  | none => exact inForce

variable [DecidableEq φ] {doubles : Doubles φ} {parse : String → Option GatewayUrl}

/-- The identifiers drawn for the new groups of a sync are new. -/
def Edit.Fresh (config : PricingConfig φ) : Edit φ → Prop
  | syncNewApiPricing draw _ _ _ payload =>
    ∀ ratios, (payload.get "group_ratio").bind Value.asObject = some ratios →
      FreshDraws draw ratios config.groups
  | syncSubApiPricing drawn _ _ _ _ => drawn ∉ config.groups.map PricingGroup.id
  | _ => True

variable (doubles parse)

/-- What a sync of a New API gateway does: nothing, or the two loops. -/
theorem syncNewApiPricing_cases (entryId : Uuid) (endpoint : String)
    (secretGroups : List (String × Option String)) (payload : Value) :
    (∀ now draw config, syncNewApiPricing doubles parse now draw config entryId endpoint secretGroups
      payload = (config, false)) ∨
    ∃ models ratios, (payload.get "group_ratio").bind Value.asObject = some ratios ∧
      ∀ now draw config, syncNewApiPricing doubles parse now draw config entryId endpoint
          secretGroups payload =
        let space := pricingNamespace parse endpoint
        let marking := markGroups doubles now space draw models ratios { groups := config.groups }
        let settled := settleKeys doubles (groupIs marking.groups (isManagedNewApiGroup space)) entryId
          (secretGroups.map fun secret => (secret.1, groupOf marking.groupIds secret.2))
          (config.assignments, marking.changed)
        (⟨marking.groups, settled.1⟩, settled.2) := by
  by_cases refused : payload.get "success" = some (.bool false)
  · refine .inl fun now draw config => ?_
    rw [syncNewApiPricing, if_pos refused]
  · cases data : (payload.get "data").bind Value.asArray with
    | none =>
      refine .inl fun now draw config => ?_
      rw [syncNewApiPricing, if_neg refused, data]
    | some models =>
      cases table : (payload.get "group_ratio").bind Value.asObject with
      | none =>
        refine .inl fun now draw config => ?_
        rw [syncNewApiPricing, if_neg refused, data, table]
      | some ratios =>
        refine .inr ⟨models, ratios, rfl, fun now draw config => ?_⟩
        rw [syncNewApiPricing, if_neg refused, data, table]

/-- A sync of a SubAPI gateway may give an assignment the group and the multiplier of the gateway. -/
def MayMultiply (doubles : Doubles φ) (space : String) (groups : List PricingGroup)
    (assignment : CredentialAssignment φ) : Prop :=
  groupIs groups (isManagedSubApiGroup space) assignment = true ∨
    assignment.groupId = none ∧ assignment.multiplier = doubles.one

/-- What a sync of a SubAPI gateway does: nothing, or it finds or adds the group of the gateway and
leaves the assignment of the key as it is, adds one or changes it. -/
theorem syncSubApiPricing_cases (drawn : Uuid) (config : PricingConfig φ) (entryId : Uuid)
    (secretId endpoint : String) (payload : Value) :
    (∀ drawn, syncSubApiPricing doubles parse drawn config entryId secretId endpoint payload =
        (config, false)) ∨
    ∃ multiplier, subApiBillingMultiplier doubles payload = some multiplier ∧
      (∀ item ∈ config.assignments, item.key = (entryId, secretId) → item.manual = false) ∧
      let space := pricingNamespace parse endpoint
      let placed := withGroup (subApiName space) drawn config.groups
      (∃ assignment, Keyed.find CredentialAssignment.key (entryId, secretId) config.assignments =
          some assignment ∧
        (MayMultiply doubles space placed.1 assignment →
          assignment.groupId = some placed.2.1 ∧ assignment.multiplier = multiplier) ∧
        syncSubApiPricing doubles parse drawn config entryId secretId endpoint payload =
          (⟨placed.1, config.assignments⟩, placed.2.2)) ∨
      (Keyed.find CredentialAssignment.key (entryId, secretId) config.assignments = none ∧
        syncSubApiPricing doubles parse drawn config entryId secretId endpoint payload =
          (⟨placed.1, config.assignments ++
            [⟨entryId, secretId, some placed.2.1, multiplier, false⟩]⟩, true)) ∨
      (∃ assignment, Keyed.find CredentialAssignment.key (entryId, secretId) config.assignments =
          some assignment ∧
        MayMultiply doubles space placed.1 assignment ∧
        syncSubApiPricing doubles parse drawn config entryId secretId endpoint payload =
          (⟨placed.1, Keyed.amend CredentialAssignment.key (entryId, secretId)
            (fun item => { item with groupId := some placed.2.1, multiplier })
            config.assignments⟩, true)) := by
  unfold syncSubApiPricing
  cases told : subApiBillingMultiplier doubles payload with
  | none => exact .inl fun _ => rfl
  | some multiplier =>
    dsimp only
    by_cases manual : (config.assignments.any fun item =>
        item.key = (entryId, secretId) && item.manual) = true
    · exact .inl fun _ => if_pos manual
    · rw [if_neg manual]
      refine .inr ⟨multiplier, rfl, ?_, ?_⟩
      · intro item listed same
        cases is : item.manual
        · rfl
        · exact absurd (List.any_eq_true.mpr ⟨item, listed, by simp [same, is]⟩) manual
      · cases found : Keyed.find CredentialAssignment.key (entryId, secretId) config.assignments with
        | none => exact .inr (.inl ⟨rfl, rfl⟩)
        | some assignment =>
          dsimp only
          split
          · next may =>
            refine .inr (.inr ⟨assignment, rfl, ?_, rfl⟩)
            simp only [Bool.and_eq_true, Bool.or_eq_true, decide_eq_true_eq] at may
            exact may.1
          · next mayNot =>
            refine .inl ⟨assignment, rfl, ?_, rfl⟩
            intro may
            simp only [Bool.and_eq_true, Bool.or_eq_true, decide_eq_true_eq, not_and, not_or,
              not_not] at mayNot
            exact mayNot may

/-- `sync_newapi_pricing` keeps a configuration sound, and what it does not store it has not changed.
-/
theorem Sound.syncNewApiPricing (sound : Sound now config) {draw : String → Uuid} {entryId : Uuid}
    {endpoint : String} {secretGroups : List (String × Option String)} {payload : Value}
    (fresh : (Edit.syncNewApiPricing draw entryId endpoint secretGroups payload : Edit φ).Fresh
      config) :
    Sound now (syncNewApiPricing doubles parse now draw config entryId endpoint secretGroups
        payload).1 ∧
      ((syncNewApiPricing doubles parse now draw config entryId endpoint secretGroups payload).2 =
        false → (syncNewApiPricing doubles parse now draw config entryId endpoint secretGroups
          payload).1 = config) := by
  rcases syncNewApiPricing_cases doubles parse entryId endpoint secretGroups
    payload with none_ | ⟨models, ratios, table, loops⟩
  · rw [none_]
    exact ⟨sound, fun _ => rfl⟩
  · have freshDraws := fresh ratios table
    rw [loops]
    dsimp only
    constructor
    · exact ⟨sound_markGroups _ _ _ _ freshDraws sound.groups,
        (keys_settleKeys _ _ _ _ _ _).2 sound.keys⟩
    · intro unchanged
      obtain ⟨assignments, quiet⟩ := settleKeys_unchanged _ _ _ unchanged
      have groups := unchanged_markGroups _ _ _ _ freshDraws sound.groups quiet
      rw [assignments, groups]

/-- `sync_subapi_pricing` keeps a configuration sound, and what it does not store it has not changed.
-/
theorem Sound.syncSubApiPricing (sound : Sound now config) {drawn : Uuid} (entryId : Uuid)
    (secretId endpoint : String) (payload : Value)
    (fresh : drawn ∉ config.groups.map PricingGroup.id) :
    Sound now (syncSubApiPricing doubles parse drawn config entryId secretId endpoint payload).1 ∧
      ((syncSubApiPricing doubles parse drawn config entryId secretId endpoint payload).2 = false →
        (syncSubApiPricing doubles parse drawn config entryId secretId endpoint payload).1 =
          config) := by
  obtain ⟨groups, -, -, -, same⟩ :=
    withGroup_spec (subApiName (pricingNamespace parse endpoint)) sound.groups fresh
  rcases syncSubApiPricing_cases doubles parse drawn config entryId secretId
    endpoint payload with none_ | ⟨multiplier, -, -, kept | added | changed⟩
  · rw [none_]
    exact ⟨sound, fun _ => rfl⟩
  · obtain ⟨assignment, -, -, result⟩ := kept
    rw [result]
    exact ⟨⟨groups, sound.keys⟩, fun unchanged => by rw [same unchanged]⟩
  · obtain ⟨absent, result⟩ := added
    rw [result]
    exact ⟨⟨groups, Keyed.nodup_append sound.keys (Keyed.find_eq_none.mp absent)⟩,
      fun unchanged => nomatch unchanged⟩
  · obtain ⟨assignment, -, -, result⟩ := changed
    rw [result]
    refine ⟨⟨groups, ?_⟩, fun unchanged => nomatch unchanged⟩
    refine Eq.mpr (congrArg List.Nodup (Keyed.keys_amend ?_)) sound.keys
    exact fun _ held => held

variable {doubles parse}

/-- An edit returns a sound configuration, and what it does not store it has not changed. -/
theorem Sound.perform (sound : Sound clock config) (later : clock ≤ now) {edit : Edit φ}
    (fresh : edit.Fresh config) {returned : PricingConfig φ} {stored : Bool}
    (done : edit.perform doubles parse now config = .ok (returned, stored)) :
    Sound now returned ∧ (stored = false → returned = config) := by
  have soundNow : Sound now config := ⟨sound.groups.mono later, sound.keys⟩
  have user : ∀ {result : Except ServiceError (PricingConfig φ)},
      result.map (·, true) = .ok (returned, stored) → result = .ok returned ∧ stored = true := by
    intro result mapped
    cases result with
    | error error => cases mapped
    | ok value =>
      cases mapped
      exact ⟨rfl, rfl⟩
  cases edit with
  | upsertPricingGroup group applyScope =>
    obtain ⟨ok, rfl⟩ := user done
    exact ⟨soundNow.upsertPricingGroup ok, fun absurd => nomatch absurd⟩
  | deletePricingGroup groupId =>
    cases done
    exact ⟨soundNow.deletePricingGroup groupId, fun absurd => nomatch absurd⟩
  | deletePricingGroupVersion groupId effectiveFrom =>
    obtain ⟨ok, rfl⟩ := user done
    exact ⟨soundNow.deletePricingGroupVersion ok, fun absurd => nomatch absurd⟩
  | setPricingAssignment secretRefs entryId secretId groupId multiplier =>
    obtain ⟨ok, rfl⟩ := user done
    exact ⟨soundNow.setPricingAssignment ok, fun absurd => nomatch absurd⟩
  | syncNewApiPricing draw entryId endpoint secretGroups payload =>
    have result := soundNow.syncNewApiPricing doubles parse fresh
    rw [Except.ok.inj done] at result
    exact result
  | syncSubApiPricing drawn entryId secretId endpoint payload =>
    have result := soundNow.syncSubApiPricing doubles parse entryId secretId endpoint payload fresh
    rw [Except.ok.inj done] at result
    exact result

/-- What is stored after an edit is what the edit returned. -/
theorem Sound.after_eq (sound : Sound clock config) (later : clock ≤ now) {edit : Edit φ}
    (fresh : edit.Fresh config) {returned : PricingConfig φ} {stored : Bool}
    (done : edit.perform doubles parse now config = .ok (returned, stored)) :
    edit.after doubles parse now config = returned := by
  obtain ⟨soundReturned, same⟩ := sound.perform later fresh done
  rw [Edit.after, done]
  cases stored with
  | false => exact (same rfl).symm
  | true => exact soundReturned.saved

/-- An edit keeps the stored configuration sound. -/
theorem Sound.after (sound : Sound clock config) (later : clock ≤ now) {edit : Edit φ}
    (fresh : edit.Fresh config) : Sound now (edit.after doubles parse now config) := by
  cases done : edit.perform doubles parse now config with
  | error error =>
    rw [Edit.after, done]
    exact ⟨sound.groups.mono later, sound.keys⟩
  | ok result =>
    rw [sound.after_eq later fresh done]
    exact (sound.perform later fresh done).1

end Aipass.Pricing
