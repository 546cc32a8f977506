import Aipass.Pricing.Sync

/-!
# What a sync does to the groups

A sync of a New API gateway takes each of its groups over in turn: it adds a group for a new name,
adds a version for the present to a group whose rules changed, or leaves the groups as they are. So
what was in force before the present stays in force, groups under other names and those edited by the
user stay as they are, and a second pass over the same ratios finds nothing to do.
-/
namespace Aipass.Pricing

/-- What holds of the groups that are stored: each has its versions in order, those of a group that
only syncs have written are in the past, and no two groups share an identifier. -/
structure SoundGroups (clock : ℕ) (groups : List PricingGroup) : Prop where
  timelines : ∀ group ∈ groups, Timeline.Ordered GroupPriceVersion.effectiveFrom group.versions
  past : ∀ group ∈ groups, group.manual = false →
    ∀ version ∈ group.versions, version.effectiveFrom ≤ clock
  ids : (groups.map PricingGroup.id).Nodup

/-- Groups that are sound stay sound while time passes. -/
theorem SoundGroups.mono {clock now : ℕ} {groups : List PricingGroup}
    (sound : SoundGroups clock groups) (later : clock ≤ now) : SoundGroups now groups where
  timelines := sound.timelines
  past := by
    intro group listed automatic version held
    have := sound.past group listed automatic version held
    omega
  ids := sound.ids

/-- The version of the group with an identifier that is in force at a second. -/
def versionIn (groups : List PricingGroup) (id : Uuid) (startedAt : ℕ) :
    Option GroupPriceVersion :=
  (Keyed.find PricingGroup.id id groups).bind fun group => group.versionAt startedAt

/-- The user did not edit a group and it has the name that a sync would give. -/
def Theirs (space : String) (group : PricingGroup) : Prop :=
  group.manual = false ∧ ∃ groupName, group.name = newApiName space groupName

/-- A group is up to date with the rules for its name, or the user has edited it. -/
def Current (name : String) (rules : List ModelPriceRule) (groups : List PricingGroup) : Prop :=
  ∃ group, Keyed.find PricingGroup.name name groups = some group ∧ group.outdated rules = false

variable {now : ℕ} {space groupName : String} {drawn : Uuid} {rules : List ModelPriceRule}

/-- What is in force before the present is in force when the group has a version for the present. -/
theorem versionAt_repriced {group : PricingGroup} {startedAt : ℕ} (before : startedAt < now) :
    (group.repriced now rules).versionAt startedAt = group.versionAt startedAt := by
  have later : ((startedAt : ℕ) : ℤ) < (now : ℤ) := by exact_mod_cast before
  exact Timeline.inForce_replace (⟨now, rules⟩ : GroupPriceVersion) later

/-- A group with a version for the present has the rules of that version. -/
theorem outdated_repriced (group : PricingGroup) :
    (group.repriced now rules).outdated rules = false := by
  simp [PricingGroup.outdated, PricingGroup.repriced]

/-- A version for the present is no change of the identifier. -/
theorem id_repriced {id : Uuid} (group : PricingGroup) (held : group.id = id) :
    (group.repriced now rules).id = id := held

/-- A version for the present is no change of the name. -/
theorem name_repriced (group : PricingGroup) : (group.repriced now rules).name = group.name := rfl

/-- Two names for one gateway are those of one group. -/
theorem newApiName_inj {other : String} :
    newApiName space groupName = newApiName space other ↔ groupName = other := by
  constructor
  · intro same
    have lists := congrArg String.toList same
    simp only [newApiName, String.toList_append, List.append_assoc, List.append_cancel_left_eq,
      List.append_cancel_right_eq] at lists
    exact String.toList_inj.mp lists
  · rintro rfl
    rfl

variable (now space groupName rules)

/-- The body of the loop leaves the groups as they are, adds a version to the group with the name, or
adds a group. -/
theorem Marking.take_cases {marking : Marking} (ids : (marking.groups.map PricingGroup.id).Nodup)
    (new : drawn ∉ marking.groups.map PricingGroup.id) :
    (∃ group, Keyed.find PricingGroup.name (newApiName space groupName) marking.groups = some group ∧
      group.outdated rules = false ∧
      marking.take now space drawn groupName rules =
        { marking with groupIds := (groupName, group.id) :: marking.groupIds }) ∨
    (∃ group, Keyed.find PricingGroup.name (newApiName space groupName) marking.groups = some group ∧
      group.outdated rules = true ∧
      marking.take now space drawn groupName rules =
        ⟨Keyed.amend PricingGroup.id group.id (PricingGroup.repriced now rules) marking.groups,
          (groupName, group.id) :: marking.groupIds, true⟩) ∨
    (Keyed.find PricingGroup.name (newApiName space groupName) marking.groups = none ∧
      marking.take now space drawn groupName rules =
        ⟨marking.groups ++
            [PricingGroup.repriced now rules ⟨false, drawn, newApiName space groupName, []⟩],
          (groupName, drawn) :: marking.groupIds, true⟩) := by
  cases named : Keyed.find PricingGroup.name (newApiName space groupName) marking.groups with
  | some group =>
    have found := Keyed.find_of_mem ids (Keyed.find_some named).1
    cases stale : group.outdated rules with
    | false =>
      refine .inl ⟨group, rfl, stale, ?_⟩
      simp [Marking.take, withGroup, named, found, stale]
    | true =>
      refine .inr (.inl ⟨group, rfl, stale, ?_⟩)
      simp [Marking.take, withGroup, named, found, stale]
  | none =>
    refine .inr (.inr ⟨rfl, ?_⟩)
    have absent : Keyed.find PricingGroup.id drawn marking.groups = none :=
      Keyed.find_eq_none.mpr new
    have stale : PricingGroup.outdated rules ⟨false, drawn, newApiName space groupName, []⟩ = true := by
      simp [PricingGroup.outdated]
    simp [Marking.take, withGroup, named, Keyed.find_append, absent, stale,
      Keyed.amend_append new]

section Take

variable {marking : Marking} (new : drawn ∉ marking.groups.map PricingGroup.id)

include new

/-- The identifiers after a group was taken over are those before and perhaps the one drawn. -/
theorem Marking.ids_take (ids : (marking.groups.map PricingGroup.id).Nodup) :
    (marking.take now space drawn groupName rules).groups.map PricingGroup.id =
        marking.groups.map PricingGroup.id ∨
      (marking.take now space drawn groupName rules).groups.map PricingGroup.id =
        marking.groups.map PricingGroup.id ++ [drawn] := by
  rcases Marking.take_cases now space groupName rules
    ids new with ⟨group, -, -, taken⟩ | ⟨group, -, -, taken⟩ | ⟨-, taken⟩
  · exact .inl (by rw [taken])
  · rw [taken]
    exact .inl (Keyed.keys_amend id_repriced)
  · rw [taken]
    exact .inr (by rw [List.map_append]; rfl)

/-- Taking a group over keeps the groups sound. -/
theorem Marking.sound_take (sound : SoundGroups now marking.groups) :
    SoundGroups now (marking.take now space drawn groupName rules).groups := by
  have level : ∀ group ∈ marking.groups, group.manual = false →
      ∀ version ∈ group.versions, version.effectiveFrom ≤ (now : ℤ) := sound.past
  rcases Marking.take_cases now space groupName rules
    sound.ids new with ⟨group, -, -, taken⟩ | ⟨group, named, stale, taken⟩ | ⟨-, taken⟩
  · rw [taken]
    exact sound
  · have automatic : group.manual = false := by
      cases manual : group.manual
      · rfl
      · simp [PricingGroup.outdated, manual] at stale
    have listed := (Keyed.find_some named).1
    have only : ∀ old ∈ marking.groups, old.id = group.id → old = group := by
      intro old held same
      have foundOld := Keyed.find_of_mem sound.ids held
      rw [same, Keyed.find_of_mem sound.ids listed, Option.some.injEq] at foundOld
      exact foundOld.symm
    rw [taken]
    constructor
    · intro changed held
      rcases Keyed.mem_amend held with kept | ⟨old, heldOld, same, rfl⟩
      · exact sound.timelines changed kept
      · rw [only old heldOld same]
        exact Timeline.ordered_replace (⟨now, rules⟩ : GroupPriceVersion)
          (sound.timelines group listed) (level group listed automatic)
    · intro changed held automaticChanged version inside
      rcases Keyed.mem_amend held with kept | ⟨old, heldOld, same, rfl⟩
      · exact level changed kept automaticChanged version inside
      · rw [only old heldOld same] at inside
        rcases List.mem_append.mp inside with inside | inside
        · exact level group listed automatic version (List.mem_filter.mp inside).1
        · rw [List.mem_singleton.mp inside]
    · rw [Keyed.keys_amend id_repriced]
      exact sound.ids
  · rw [taken]
    constructor
    · intro group held
      rcases List.mem_append.mp held with kept | kept
      · exact sound.timelines group kept
      · rw [List.mem_singleton.mp kept]
        exact List.pairwise_singleton _ _
    · intro group held automatic version inside
      rcases List.mem_append.mp held with kept | kept
      · exact level group kept automatic version inside
      · rw [List.mem_singleton.mp kept] at inside
        rw [List.mem_singleton.mp inside]
    · exact Keyed.nodup_append sound.ids new

/-- Taking a group over changes no version in force before the present. -/
theorem Marking.versionIn_take (ids : (marking.groups.map PricingGroup.id).Nodup) (id : Uuid)
    {startedAt : ℕ} (before : startedAt < now) :
    versionIn (marking.take now space drawn groupName rules).groups id startedAt =
      versionIn marking.groups id startedAt := by
  rcases Marking.take_cases now space groupName rules
    ids new with ⟨group, -, -, taken⟩ | ⟨group, -, -, taken⟩ | ⟨-, taken⟩
  · rw [taken]
  · rw [taken, versionIn, versionIn, Keyed.find_amend id_repriced]
    split
    · next same =>
      rw [same]
      cases Keyed.find PricingGroup.id group.id marking.groups with
      | none => rfl
      | some found => exact versionAt_repriced before
    · rfl
  · rw [taken, versionIn, versionIn, Keyed.find_append]
    cases Keyed.find PricingGroup.id id marking.groups with
    | some found => rfl
    | none =>
      rw [Option.none_or]
      split
      · change PricingGroup.versionAt _ startedAt = none
        rw [versionAt_repriced before]
        rfl
      · rfl

/-- Taking a group over leaves every other group as it is, and those the user edited. -/
theorem Marking.mem_take (ids : (marking.groups.map PricingGroup.id).Nodup) {group : PricingGroup}
    (listed : group ∈ marking.groups) (other : ¬Theirs space group) :
    group ∈ (marking.take now space drawn groupName rules).groups := by
  rcases Marking.take_cases now space groupName rules
    ids new with ⟨changed, -, -, taken⟩ | ⟨changed, named, stale, taken⟩ | ⟨-, taken⟩
  · rwa [taken]
  · rw [taken]
    apply Keyed.mem_amend_of_ne listed
    intro same
    have foundOld := Keyed.find_of_mem ids listed
    rw [same, Keyed.find_of_mem ids (Keyed.find_some named).1, Option.some.injEq] at foundOld
    apply other
    subst foundOld
    refine ⟨?_, groupName, (Keyed.find_some named).2⟩
    cases manual : changed.manual
    · rfl
    · simp [PricingGroup.outdated, manual] at stale
  · rw [taken]
    exact List.mem_append_left _ listed

/-- The group with a name that is listed keeps its identifier and its name. -/
theorem Marking.named_take (ids : (marking.groups.map PricingGroup.id).Nodup) {name : String}
    {group : PricingGroup} (named : Keyed.find PricingGroup.name name marking.groups = some group) :
    ∃ kept, Keyed.find PricingGroup.name name
      (marking.take now space drawn groupName rules).groups = some kept ∧ kept.id = group.id ∧
        (name ≠ newApiName space groupName → kept = group) := by
  rcases Marking.take_cases now space groupName rules
    ids new with ⟨changed, -, -, taken⟩ | ⟨changed, namedChanged, -, taken⟩ | ⟨-, taken⟩
  · exact ⟨group, by rw [taken, named], rfl, fun _ => rfl⟩
  · rw [taken, Keyed.find_amend_other ids name_repriced, named, Option.map_some]
    refine ⟨_, rfl, by split <;> rfl, ?_⟩
    intro differs
    rw [if_neg]
    intro same
    have foundOld := Keyed.find_of_mem ids (Keyed.find_some named).1
    rw [same, Keyed.find_of_mem ids (Keyed.find_some namedChanged).1, Option.some.injEq] at foundOld
    apply differs
    rw [← (Keyed.find_some named).2, ← foundOld, (Keyed.find_some namedChanged).2]
  · rw [taken, Keyed.find_append, named]
    exact ⟨group, rfl, rfl, fun _ => rfl⟩

/-- A group that was taken over is up to date and is the one noted under its name. -/
theorem Marking.current_take (ids : (marking.groups.map PricingGroup.id).Nodup) :
    ∃ group, Keyed.find PricingGroup.name (newApiName space groupName)
        (marking.take now space drawn groupName rules).groups = some group ∧
      group.outdated rules = false ∧
      (marking.take now space drawn groupName rules).groupIds =
        (groupName, group.id) :: marking.groupIds := by
  rcases Marking.take_cases now space groupName rules
    ids new with ⟨group, named, current, taken⟩ | ⟨group, named, -, taken⟩ | ⟨absent, taken⟩
  · exact ⟨group, by rw [taken, named], current, by rw [taken]⟩
  · refine ⟨group.repriced now rules, ?_, outdated_repriced group, by rw [taken]; rfl⟩
    rw [taken, Keyed.find_amend_other ids name_repriced, named, Option.map_some, if_pos rfl]
  · refine ⟨PricingGroup.repriced now rules ⟨false, drawn, newApiName space groupName, []⟩, ?_,
      outdated_repriced _, by rw [taken]; rfl⟩
    rw [taken, Keyed.find_append, absent, Option.none_or, name_repriced, if_pos rfl]

end Take

/-- Taking a group over that is up to date only notes its identifier. -/
theorem Marking.take_of_current {marking : Marking}
    (ids : (marking.groups.map PricingGroup.id).Nodup) {group : PricingGroup}
    (named : Keyed.find PricingGroup.name (newApiName space groupName) marking.groups = some group)
    (current : group.outdated rules = false) : marking.take now space drawn groupName rules =
      { marking with groupIds := (groupName, group.id) :: marking.groupIds } := by
  have found := Keyed.find_of_mem ids (Keyed.find_some named).1
  simp [Marking.take, withGroup, named, found, current]

variable {now space groupName rules}

/-- The identifiers that the loop notes, read off the groups. -/
def noted {φ : Type} (doubles : Doubles φ) (space : String) (models : List Value)
    (groups : List PricingGroup) :
    List (String × Value) → List (String × Uuid) → List (String × Uuid)
  | [], groupIds => groupIds
  | (groupName, rawRatio) :: rest, groupIds => noted doubles space models groups rest <|
      if (groupRules doubles models groupName rawRatio).isEmpty then groupIds
      else match Keyed.find PricingGroup.name (newApiName space groupName) groups with
        | some group => (groupName, group.id) :: groupIds
        | none => groupIds

section Loop

variable {φ : Type} {doubles : Doubles φ} {draw : String → Uuid} {models : List Value}
  {ratios : List (String × Value)} {marking : Marking}

/-- The identifiers drawn for new groups are new, and each is drawn once. -/
structure FreshDraws (draw : String → Uuid) (ratios : List (String × Value))
    (groups : List PricingGroup) : Prop where
  distinct : (ratios.map fun ratio => draw ratio.1).Nodup
  new : ∀ ratio ∈ ratios, draw ratio.1 ∉ groups.map PricingGroup.id

/-- The draws for the ratios after the first are new after it was taken over. -/
theorem FreshDraws.tail {ratio : String × Value} {rest : List (String × Value)}
    {next : List PricingGroup} (fresh : FreshDraws draw (ratio :: rest) marking.groups)
    (ids : next.map PricingGroup.id = marking.groups.map PricingGroup.id ∨
      next.map PricingGroup.id = marking.groups.map PricingGroup.id ++ [draw ratio.1]) :
    FreshDraws draw rest next := by
  obtain ⟨distinct, new⟩ := fresh
  rw [List.map_cons, List.nodup_cons] at distinct
  refine ⟨distinct.2, ?_⟩
  intro other listed
  have absent := new other (List.mem_cons_of_mem _ listed)
  rcases ids with same | more
  · rwa [same]
  · rw [more, List.mem_append, List.mem_singleton, not_or]
    refine ⟨absent, ?_⟩
    intro same
    exact distinct.1 (same ▸ List.mem_map_of_mem (f := fun ratio => draw ratio.1) listed)

/-- What taking over each group of a gateway preserves holds after the loop. -/
theorem markGroups_induction (holds : Marking → Prop)
    (step : ∀ marking ratio, ratio ∈ ratios → SoundGroups now marking.groups →
      draw ratio.1 ∉ marking.groups.map PricingGroup.id → holds marking →
      holds (marking.take now space (draw ratio.1) ratio.1
        (groupRules doubles models ratio.1 ratio.2)))
    (fresh : FreshDraws draw ratios marking.groups) (sound : SoundGroups now marking.groups)
    (initially : holds marking) :
    holds (markGroups doubles now space draw models ratios marking) ∧
      SoundGroups now (markGroups doubles now space draw models ratios marking).groups := by
  induction ratios generalizing marking with
  | nil => exact ⟨initially, sound⟩
  | cons ratio rest ih =>
    have newHead := fresh.new ratio List.mem_cons_self
    have later := fun marking other (listed : other ∈ rest) =>
      step marking other (List.mem_cons_of_mem _ listed)
    rw [markGroups]
    split
    · exact ih later (fresh.tail (.inl rfl)) sound initially
    · apply ih later (fresh.tail (Marking.ids_take _ _ _ _ newHead sound.ids))
        (Marking.sound_take _ _ _ _ newHead sound)
      exact step marking ratio List.mem_cons_self sound newHead initially

variable (space doubles models marking)

section Kept

variable (fresh : FreshDraws draw ratios marking.groups) (sound : SoundGroups now marking.groups)

include fresh sound

/-- The loop keeps the groups sound. -/
theorem sound_markGroups :
    SoundGroups now (markGroups doubles now space draw models ratios marking).groups :=
  (markGroups_induction (fun _ => True) (fun _ _ _ _ _ _ => trivial) fresh sound trivial).2

/-- The loop changes no version in force before the present. -/
theorem versionIn_markGroups (id : Uuid) {startedAt : ℕ} (before : startedAt < now) :
    versionIn (markGroups doubles now space draw models ratios marking).groups id startedAt =
      versionIn marking.groups id startedAt := by
  apply (markGroups_induction (fun next => versionIn next.groups id startedAt =
    versionIn marking.groups id startedAt) _ fresh sound rfl).1
  intro next ratio _ soundNext new kept
  rw [Marking.versionIn_take _ _ _ _ new soundNext.ids id before, kept]

/-- The loop leaves every group as it is that the user edited or that has another name. -/
theorem mem_markGroups {group : PricingGroup} (listed : group ∈ marking.groups)
    (other : ¬Theirs space group) :
    group ∈ (markGroups doubles now space draw models ratios marking).groups := by
  apply (markGroups_induction (fun next => group ∈ next.groups) _ fresh sound listed).1
  intro next ratio _ soundNext new kept
  exact Marking.mem_take _ _ _ _ new soundNext.ids kept other

/-- A loop that reports no change has changed nothing. -/
theorem unchanged_markGroups
    (unchanged : (markGroups doubles now space draw models ratios marking).changed = false) :
    (markGroups doubles now space draw models ratios marking).groups = marking.groups := by
  refine (markGroups_induction (fun next => next.changed = false → next.groups = marking.groups)
    ?_ fresh sound fun _ => rfl).1 unchanged
  intro next ratio _ soundNext new kept
  rcases Marking.take_cases now space ratio.1
    (groupRules doubles models ratio.1 ratio.2) soundNext.ids new with
    ⟨_, -, -, taken⟩ | ⟨_, -, -, taken⟩ | ⟨-, taken⟩
  · rw [taken]
    exact kept
  · simp [taken]
  · simp [taken]

/-- The loop keeps the names of the groups. -/
theorem name_markGroups {id : Uuid} {group : PricingGroup}
    (found : Keyed.find PricingGroup.id id marking.groups = some group) :
    ∃ kept, Keyed.find PricingGroup.id id
      (markGroups doubles now space draw models ratios marking).groups = some kept ∧
        kept.name = group.name := by
  apply (markGroups_induction (fun next => ∃ kept, Keyed.find PricingGroup.id id next.groups =
    some kept ∧ kept.name = group.name) _ fresh sound ⟨group, found, rfl⟩).1
  rintro next ratio _ soundNext new ⟨kept, held, name⟩
  rcases Marking.take_cases now space ratio.1
    (groupRules doubles models ratio.1 ratio.2) soundNext.ids new with
    ⟨_, -, -, taken⟩ | ⟨changed, -, -, taken⟩ | ⟨-, taken⟩
  · exact ⟨kept, by rw [taken]; exact held, name⟩
  · rw [taken, Keyed.find_amend id_repriced]
    split
    · next same => exact ⟨kept.repriced now _, by rw [← same, held]; rfl, name⟩
    · exact ⟨kept, held, name⟩
  · rw [taken, Keyed.find_append, held]
    exact ⟨kept, rfl, name⟩

/-- The group with a name that the loop does not take over stays as it is. -/
theorem named_markGroups {name : String} {group : PricingGroup}
    (named : Keyed.find PricingGroup.name name marking.groups = some group)
    (other : ∀ ratio ∈ ratios, name ≠ newApiName space ratio.1) :
    Keyed.find PricingGroup.name name
      (markGroups doubles now space draw models ratios marking).groups = some group := by
  apply (markGroups_induction (fun next => Keyed.find PricingGroup.name name next.groups =
    some group) _ fresh sound named).1
  intro next ratio listed soundNext new held
  obtain ⟨kept, found, -, same⟩ := Marking.named_take now space
    ratio.1 (groupRules doubles models ratio.1 ratio.2) new soundNext.ids held
  rw [found, same (other ratio listed)]

/-- After the loop each group with rules is up to date, and the identifiers noted are those of the
groups with the names. -/
theorem noted_markGroups :
    (markGroups doubles now space draw models ratios marking).groupIds =
        noted doubles space models (markGroups doubles now space draw models ratios marking).groups
          ratios marking.groupIds ∧
      ∀ ratio ∈ ratios, (groupRules doubles models ratio.1 ratio.2).isEmpty = false →
        Current (newApiName space ratio.1) (groupRules doubles models ratio.1 ratio.2)
          (markGroups doubles now space draw models ratios marking).groups := by
  induction ratios generalizing marking with
  | nil => exact ⟨rfl, by simp⟩
  | cons ratio rest ih =>
    have newHead := fresh.new ratio List.mem_cons_self
    have others : ∀ other ∈ rest, newApiName space ratio.1 ≠ newApiName space other.1 := by
      intro other listed same
      have distinct := fresh.distinct
      rw [List.map_cons, List.nodup_cons] at distinct
      have drawn := congrArg draw (newApiName_inj.mp same)
      exact distinct.1 (drawn ▸ List.mem_map_of_mem (f := fun ratio => draw ratio.1) listed)
    rw [markGroups]
    cases empty : (groupRules doubles models ratio.1 ratio.2).isEmpty with
    | true =>
      rw [if_pos rfl]
      obtain ⟨ids, current⟩ := ih marking (fresh.tail (.inl rfl)) sound
      refine ⟨by rw [ids, noted, if_pos empty], ?_⟩
      intro other listed filled
      rcases List.mem_cons.mp listed with rfl | later
      · rw [empty] at filled
        cases filled
      · exact current other later filled
    | false =>
      rw [if_neg Bool.false_ne_true]
      have freshRest := fresh.tail (Marking.ids_take now space
        ratio.1 (groupRules doubles models ratio.1 ratio.2) newHead sound.ids)
      have soundRest := Marking.sound_take now space ratio.1
        (groupRules doubles models ratio.1 ratio.2) newHead sound
      obtain ⟨group, named, current, first⟩ := Marking.current_take now space
        ratio.1 (groupRules doubles models ratio.1 ratio.2) newHead sound.ids
      have kept := named_markGroups space doubles models _ freshRest soundRest named
        others
      obtain ⟨ids, rest⟩ := ih _ freshRest soundRest
      constructor
      · rw [ids, noted, empty, if_neg Bool.false_ne_true, kept, first]
      · intro other listed filled
        rcases List.mem_cons.mp listed with rfl | later
        · exact ⟨group, kept, current⟩
        · exact rest other later filled

end Kept

/-- A loop over groups that are up to date only notes their identifiers. -/
theorem markGroups_of_current (ids : (marking.groups.map PricingGroup.id).Nodup)
    (current : ∀ ratio ∈ ratios, (groupRules doubles models ratio.1 ratio.2).isEmpty = false →
      Current (newApiName space ratio.1) (groupRules doubles models ratio.1 ratio.2)
        marking.groups) :
    markGroups doubles now space draw models ratios marking =
      { marking with
        groupIds := noted doubles space models marking.groups ratios marking.groupIds } := by
  induction ratios generalizing marking with
  | nil => rfl
  | cons ratio rest ih =>
    have later := fun other (listed : other ∈ rest) => current other (List.mem_cons_of_mem _ listed)
    rw [markGroups, noted]
    cases empty : (groupRules doubles models ratio.1 ratio.2).isEmpty with
    | true =>
      rw [if_pos rfl, if_pos rfl]
      exact ih marking ids later
    | false =>
      rw [if_neg Bool.false_ne_true, if_neg Bool.false_ne_true]
      obtain ⟨group, named, upToDate⟩ := current ratio List.mem_cons_self empty
      rw [Marking.take_of_current _ _ _ _ ids named upToDate, named]
      exact ih { marking with groupIds := (ratio.1, group.id) :: marking.groupIds } ids later

end Loop

/-- A group is managed under a namespace. -/
def PricingGroup.managedUnder (space : String) (group : PricingGroup) : Bool :=
  isManagedNewApiGroup space group || isManagedSubApiGroup space group

/-- A group of a New API gateway is none of a SubAPI gateway. -/
theorem not_both_managed {space other : String} {group : PricingGroup}
    (newApi : isManagedNewApiGroup space group = true) :
    isManagedSubApiGroup other group = false := by
  unfold isManagedNewApiGroup at newApi
  cases led : Text.stripPrefix "New API / ".toList group.name.toList with
  | none =>
    rw [led] at newApi
    cases newApi
  | some rest =>
    rw [isManagedSubApiGroup, Text.eq_of_stripPrefix led]
    simp [Text.stripPrefix]

/-- A group is managed under one namespace at most. -/
theorem managedUnder_unique {space other : String} {group : PricingGroup}
    (managed : group.managedUnder space = true) (managedOther : group.managedUnder other = true) :
    space = other := by
  unfold PricingGroup.managedUnder at managed managedOther
  rw [Bool.or_eq_true] at managed managedOther
  rcases managed with newApi | subApi
  · rcases managedOther with newApiOther | subApiOther
    · unfold isManagedNewApiGroup at newApi newApiOther
      cases led : Text.stripPrefix "New API / ".toList group.name.toList with
      | none =>
        rw [led] at newApi
        cases newApi
      | some rest =>
        rw [led] at newApi newApiOther
        dsimp only at newApi newApiOther
        cases parts : Text.rsplitOnce " @ ".toList rest with
        | none =>
          rw [parts] at newApi
          cases newApi
        | some parts_ =>
          rw [parts] at newApi newApiOther
          rw [Bool.and_eq_true, decide_eq_true_eq] at newApi newApiOther
          exact String.toList_inj.mp (newApi.2.symm.trans newApiOther.2)
    · rw [not_both_managed newApi] at subApiOther
      cases subApiOther
  · rcases managedOther with newApiOther | subApiOther
    · rw [not_both_managed newApiOther] at subApi
      cases subApi
    · unfold isManagedSubApiGroup at subApi subApiOther
      rw [decide_eq_true_eq] at subApi subApiOther
      exact String.toList_inj.mp (Option.some.inj (subApi.symm.trans subApiOther))

/-- The namespace of an endpoint is told from the name of a group: the mark before it does not occur
again behind its start. -/
def Clear (space : String) : Prop := ¬" @ ".toList <:+: "@ ".toList ++ space.toList

/-- A group that a gateway with a clear namespace named is managed under no other namespace. -/
theorem eq_of_managed {space other groupName : String} (clear : Clear space) {group : PricingGroup}
    (name : group.name = newApiName space groupName)
    (managed : group.managedUnder other = true) : other = space := by
  have characters : group.name.toList = "New API / ".toList ++
      (groupName.toList ++ (" @ ".toList ++ space.toList)) := by
    rw [name, newApiName, String.toList_append, String.toList_append, String.toList_append,
      List.append_assoc, List.append_assoc]
  have notSub : isManagedSubApiGroup other group = false := by
    rw [isManagedSubApiGroup, characters]
    simp [Text.stripPrefix]
  rw [PricingGroup.managedUnder, notSub, Bool.or_false, isManagedNewApiGroup, characters,
    Text.stripPrefix_append] at managed
  dsimp only at managed
  rw [Text.rsplitOnce_last (by decide) clear] at managed
  dsimp only at managed
  rw [Bool.and_eq_true, decide_eq_true_eq] at managed
  exact (String.toList_inj.mp managed.2).symm

end Aipass.Pricing
