import Aipass.Base.Run
import Aipass.Pricing.Soundness
import Mathlib.Data.Rat.Init

/-!
# Edits reprice only what they say

The configuration is edited again and again while the clock goes on, and costs are computed from what
is stored. Rules for the present and syncs leave the past as it was, rules for all history price the
whole of it, and a sync keeps to the groups and assignments of its own gateway and has nothing to do
when it is repeated. All but one of these hold without condition: where the namespace of a New API
endpoint has the mark in it that stands before a namespace, a sync edits groups that count as
managed under another namespace.
-/
namespace Aipass.Pricing

variable {φ : Type} [DecidableEq φ] (doubles : Doubles φ) (parse : String → Option GatewayUrl)

/-- What is stored, and the last reading of the clock. -/
structure Stored (φ : Type) where
  config : PricingConfig φ
  clock : ℕ

/-- Edits one after another, each at a reading of the clock. -/
def pricing : System (Stored φ) (ℕ × Edit φ) where
  init state := state.config = {}
  step state label next := state.clock ≤ label.1 ∧ label.2.Fresh state.config ∧
    next = ⟨label.2.after doubles parse label.1 state.config, label.1⟩

/-- The namespace of the gateway that an edit syncs with. -/
def Edit.space : Edit φ → Option String
  | syncNewApiPricing _ _ endpoint _ _ | syncSubApiPricing _ _ _ endpoint _ =>
    some (pricingNamespace parse endpoint)
  | _ => none

/-- An edit is for the future: an upsert from now on, or a sync. -/
def Edit.ForTheFuture : Edit φ → Prop
  | upsertPricingGroup _ applyScope => applyScope = .fromNow
  | syncNewApiPricing .. | syncSubApiPricing .. => True
  | _ => False

/-- An edit is the same sync again, but for the identifiers drawn. -/
def Edit.Repeats : Edit φ → Edit φ → Prop
  | syncNewApiPricing _ entryId endpoint secretGroups payload,
    syncNewApiPricing _ entryId' endpoint' secretGroups' payload' =>
    entryId = entryId' ∧ endpoint = endpoint' ∧ secretGroups = secretGroups' ∧ payload = payload'
  | syncSubApiPricing _ entryId secretId endpoint payload,
    syncSubApiPricing _ entryId' secretId' endpoint' payload' =>
    entryId = entryId' ∧ secretId = secretId' ∧ endpoint = endpoint' ∧ payload = payload'
  | _, _ => False

/-- A group is managed under the namespace of an endpoint, but not under that of a gateway. -/
def Foreign (space : String) (group : PricingGroup) : Prop :=
  ∃ endpoint, pricingNamespace parse endpoint ≠ space ∧
    group.managedUnder (pricingNamespace parse endpoint) = true

/-- The versions of each group are in order without duplicates, and no key has two assignments. -/
structure Orderly (config : PricingConfig φ) : Prop where
  timelines : ∀ group ∈ config.groups,
    Timeline.Ordered GroupPriceVersion.effectiveFrom group.versions
  once : (config.assignments.map CredentialAssignment.key).Nodup

/-- An edit reprices only what it says. -/
structure OnlyWhatItSays (now : ℕ) (before : PricingConfig φ) (edit : Edit φ) : Prop where
  /-- An edit for the future keeps the costs of the past. -/
  past : edit.ForTheFuture → ∀ overrides listPrices (row : UsageRow), row.startedAt < now →
    (edit.after doubles parse now before).assignment row.providerEntryId row.secretId =
      before.assignment row.providerEntryId row.secretId →
    resolveRowCost doubles overrides listPrices (edit.after doubles parse now before) row =
      resolveRowCost doubles overrides listPrices before row
  /-- An edit of all history prices every row of the group by the last version that came in. -/
  history : ∀ group returned, edit = .upsertPricingGroup group .allHistory →
    edit.perform doubles parse now before = .ok returned →
    ∃ last, group.versions.getLast? = some last ∧
      ∀ overrides listPrices (row : UsageRow) assignment,
        (edit.after doubles parse now before).assignment row.providerEntryId row.secretId =
          some assignment →
        assignment.groupId = some group.id →
        resolveRowCost doubles overrides listPrices (edit.after doubles parse now before) row =
          costWith doubles overrides listPrices (some last) assignment.multiplier row
  /-- A sync keeps the groups that the user edited. -/
  manualGroups : ∀ space, edit.space parse = some space → ∀ group ∈ before.groups,
    group.manual = true → group ∈ (edit.after doubles parse now before).groups
  /-- A sync keeps the assignments that the user set. -/
  manualAssignments : ∀ space, edit.space parse = some space → ∀ assignment ∈ before.assignments,
    assignment.manual = true → assignment ∈ (edit.after doubles parse now before).assignments
  /-- A sync keeps the groups that are managed under another namespace. -/
  foreignGroups : ∀ space, edit.space parse = some space → ∀ group ∈ before.groups,
    Foreign parse space group → group ∈ (edit.after doubles parse now before).groups
  /-- A sync keeps the assignments that are managed under another namespace. -/
  foreignAssignments : ∀ space, edit.space parse = some space → ∀ assignment ∈ before.assignments,
    ∀ groupId group, assignment.groupId = some groupId → before.group groupId = some group →
    Foreign parse space group → assignment ∈ (edit.after doubles parse now before).assignments
  /-- The same sync changes nothing at a later time. -/
  repeated : ∀ again later, edit.Repeats again → now ≤ later →
    (∃ stored, again.perform doubles parse later (edit.after doubles parse now before) =
      .ok (edit.after doubles parse now before, stored)) ∧
    again.after doubles parse later (edit.after doubles parse now before) =
      edit.after doubles parse now before

/-- The mark before a namespace is told from the namespace of a New API endpoint that is synced. -/
def Edit.Clear : Edit φ → Prop
  | syncNewApiPricing _ _ endpoint _ _ => Pricing.Clear (pricingNamespace parse endpoint)
  | _ => True

variable {doubles parse} {clock now : ℕ} {config : PricingConfig φ}

/-- A cost depends on the assignment of the key and on the versions in force at the start. -/
theorem resolveRowCost_congr {config other : PricingConfig φ} {row : UsageRow}
    (assignment : other.assignment row.providerEntryId row.secretId =
      config.assignment row.providerEntryId row.secretId)
    (versions : ∀ id, versionIn other.groups id row.startedAt =
      versionIn config.groups id row.startedAt)
    (overrides : List ModelPricing) (listPrices : List ModelPriceRule) :
    resolveRowCost doubles overrides listPrices other row =
      resolveRowCost doubles overrides listPrices config row := by
  have version : other.versionFor row = config.versionFor row := by
    rw [PricingConfig.versionFor, PricingConfig.versionFor, assignment]
    cases (config.assignment row.providerEntryId row.secretId).bind
      CredentialAssignment.groupId with
    | none => rfl
    | some id => exact versions id
  rw [resolveRowCost, resolveRowCost, version, assignment]

section NewApi

variable {draw : String → Uuid} {entryId : Uuid} {endpoint : String}
  {secretGroups : List (String × Option String)} {payload : Value}
  (sound : Sound now config)
  (fresh : (Edit.syncNewApiPricing draw entryId endpoint secretGroups payload : Edit φ).Fresh config)

include sound fresh

/-- A sync of a New API gateway changes no version in force before the present. -/
theorem versionIn_syncNewApi (id : Uuid) {startedAt : ℕ} (before : startedAt < now) :
    versionIn (syncNewApiPricing doubles parse now draw config entryId endpoint secretGroups
        payload).1.groups id startedAt = versionIn config.groups id startedAt := by
  rcases syncNewApiPricing_cases doubles parse entryId endpoint secretGroups
    payload with none_ | ⟨models, ratios, table, loops⟩
  · rw [none_]
  · rw [loops]
    exact versionIn_markGroups _ _ _ _ (fresh ratios table) sound.groups id before

/-- A sync of a New API gateway leaves every group as it is that the user edited or that another
gateway named. -/
theorem mem_groups_syncNewApi {group : PricingGroup} (listed : group ∈ config.groups)
    (other : ¬Theirs (pricingNamespace parse endpoint) group) :
    group ∈ (syncNewApiPricing doubles parse now draw config entryId endpoint secretGroups
      payload).1.groups := by
  rcases syncNewApiPricing_cases doubles parse entryId endpoint secretGroups
    payload with none_ | ⟨models, ratios, table, loops⟩
  · rwa [none_]
  · rw [loops]
    exact mem_markGroups _ _ _ _ (fresh ratios table) sound.groups listed other

/-- A sync of a New API gateway leaves every assignment as it is that the user set or that is managed
under another namespace. -/
theorem mem_assignments_syncNewApi {assignment : CredentialAssignment φ}
    (listed : assignment ∈ config.assignments)
    (held : assignment.manual = true ∨ ∃ groupId group, assignment.groupId = some groupId ∧
      config.group groupId = some group ∧ Foreign parse (pricingNamespace parse endpoint) group) :
    assignment ∈ (syncNewApiPricing doubles parse now draw config entryId endpoint secretGroups
      payload).1.assignments := by
  rcases syncNewApiPricing_cases doubles parse entryId endpoint secretGroups
    payload with none_ | ⟨models, ratios, table, loops⟩
  · rwa [none_]
  · rw [loops]
    apply mem_settleKeys _ _ _ sound.keys listed
    rintro ⟨automatic, may⟩
    rcases held with manual | ⟨groupId, group, assigned, found, other, differs, managed⟩
    · rw [manual] at automatic
      cases automatic
    · obtain ⟨kept, foundKept, name⟩ := name_markGroups
        (pricingNamespace parse endpoint) doubles models { groups := config.groups }
        (fresh ratios table) sound.groups found
      rcases may with managedHere | ⟨free, -⟩
      · rw [groupIs, assigned, Option.bind_some, foundKept] at managedHere
        have here : group.managedUnder (pricingNamespace parse endpoint) = true := by
          rw [PricingGroup.managedUnder, isManagedNewApiGroup, ← name]
          exact Bool.or_eq_true_iff.mpr (.inl managedHere)
        exact differs (managedUnder_unique managed here)
      · rw [assigned] at free
        cases free

/-- The same sync of a New API gateway changes nothing at a later time. -/
theorem syncNewApi_again (later : ℕ) (drawAgain : String → Uuid) :
    (syncNewApiPricing doubles parse later drawAgain
        (syncNewApiPricing doubles parse now draw config entryId endpoint secretGroups payload).1
        entryId endpoint secretGroups payload).1 =
      (syncNewApiPricing doubles parse now draw config entryId endpoint secretGroups
        payload).1 := by
  rcases syncNewApiPricing_cases doubles parse entryId endpoint secretGroups
    payload with none_ | ⟨models, ratios, table, loops⟩
  · rw [none_, none_]
  · have freshDraws := fresh ratios table
    have soundAfter := sound_markGroups
      (pricingNamespace parse endpoint) doubles models { groups := config.groups } freshDraws sound.groups
    obtain ⟨groupIds, current⟩ := noted_markGroups
      (pricingNamespace parse endpoint) doubles models { groups := config.groups } freshDraws sound.groups
    rw [loops, loops]
    dsimp only
    generalize markGroups doubles now (pricingNamespace parse endpoint) draw models ratios
      { groups := config.groups } = first at soundAfter groupIds current ⊢
    rw [markGroups_of_current _ _ _ { groups := first.groups } soundAfter.ids current]
    dsimp only at groupIds ⊢
    rw [← groupIds, settleKeys_again _ _ _ sound.keys]

end NewApi

section SubApi

variable {drawn entryId : Uuid} {secretId endpoint : String} {payload : Value}
  (sound : Sound now config) (fresh : drawn ∉ config.groups.map PricingGroup.id)

include sound fresh

/-- A sync of a SubAPI gateway changes no version. -/
theorem versionIn_syncSubApi (id : Uuid) (startedAt : ℕ) :
    versionIn (syncSubApiPricing doubles parse drawn config entryId secretId endpoint
        payload).1.groups id startedAt = versionIn config.groups id startedAt := by
  obtain ⟨-, -, -, versions, -⟩ :=
    withGroup_spec (subApiName (pricingNamespace parse endpoint)) sound.groups fresh
  rcases syncSubApiPricing_cases doubles parse drawn config entryId secretId
    endpoint payload with none_ | ⟨_, -, -, ⟨_, -, -, result⟩ | ⟨-, result⟩ | ⟨_, -, -, result⟩⟩
  · rw [none_]
  · rw [result]
    exact versions id startedAt
  · rw [result]
    exact versions id startedAt
  · rw [result]
    exact versions id startedAt

/-- A sync of a SubAPI gateway leaves every group as it is. -/
theorem mem_groups_syncSubApi {group : PricingGroup} (listed : group ∈ config.groups) :
    group ∈ (syncSubApiPricing doubles parse drawn config entryId secretId endpoint
      payload).1.groups := by
  obtain ⟨-, -, kept, -⟩ :=
    withGroup_spec (subApiName (pricingNamespace parse endpoint)) sound.groups fresh
  rcases syncSubApiPricing_cases doubles parse drawn config entryId secretId
    endpoint payload with none_ | ⟨_, -, -, ⟨_, -, -, result⟩ | ⟨-, result⟩ | ⟨_, -, -, result⟩⟩
  · rwa [none_]
  · rw [result]
    exact kept group listed
  · rw [result]
    exact kept group listed
  · rw [result]
    exact kept group listed

/-- A sync of a SubAPI gateway leaves every assignment as it is that the user set or that is managed
under another namespace. -/
theorem mem_assignments_syncSubApi {assignment : CredentialAssignment φ}
    (listed : assignment ∈ config.assignments)
    (held : assignment.manual = true ∨ ∃ groupId group, assignment.groupId = some groupId ∧
      config.group groupId = some group ∧ Foreign parse (pricingNamespace parse endpoint) group) :
    assignment ∈ (syncSubApiPricing doubles parse drawn config entryId secretId endpoint
      payload).1.assignments := by
  obtain ⟨groups, -, kept, -⟩ :=
    withGroup_spec (subApiName (pricingNamespace parse endpoint)) sound.groups fresh
  rcases syncSubApiPricing_cases doubles parse drawn config entryId secretId
    endpoint payload with
    none_ | ⟨_, -, automatic, ⟨_, -, -, result⟩ | ⟨-, result⟩ | ⟨changed, found, may, result⟩⟩
  · rwa [none_]
  · rw [result]
    exact listed
  · rw [result]
    exact List.mem_append_left _ listed
  · rw [result]
    apply Keyed.mem_amend_of_ne listed
    intro same
    have is := Keyed.find_of_mem sound.keys listed
    rw [same, found, Option.some.injEq] at is
    subst is
    rcases held with manual | ⟨groupId, group, assigned, foundGroup, other, differs, managed⟩
    · rw [automatic changed listed same] at manual
      cases manual
    · rcases may with managedHere | ⟨free, -⟩
      · obtain ⟨listedGroup, id⟩ := Keyed.find_some foundGroup
        have foundKept := Keyed.find_of_mem groups.ids (kept group listedGroup)
        rw [id] at foundKept
        rw [groupIs, assigned, Option.bind_some, foundKept] at managedHere
        have here : group.managedUnder (pricingNamespace parse endpoint) = true :=
          Bool.or_eq_true_iff.mpr (.inr managedHere)
        exact differs (managedUnder_unique managed here)
      · rw [assigned] at free
        cases free

/-- The same sync of a SubAPI gateway changes nothing at a later time. -/
theorem syncSubApi_again (drawnAgain : Uuid) :
    (syncSubApiPricing doubles parse drawnAgain
        (syncSubApiPricing doubles parse drawn config entryId secretId endpoint payload).1
        entryId secretId endpoint payload).1 =
      (syncSubApiPricing doubles parse drawn config entryId secretId endpoint payload).1 := by
  obtain ⟨groups, ⟨group, named, id⟩, -, -, -⟩ :=
    withGroup_spec (subApiName (pricingNamespace parse endpoint)) sound.groups fresh
  -- the group of the gateway is found again
  have again : withGroup (subApiName (pricingNamespace parse endpoint)) drawnAgain
      (withGroup (subApiName (pricingNamespace parse endpoint)) drawn config.groups).1 =
      ((withGroup (subApiName (pricingNamespace parse endpoint)) drawn config.groups).1,
        (withGroup (subApiName (pricingNamespace parse endpoint)) drawn config.groups).2.1,
        false) := by
    conv_lhs => rw [withGroup]
    rw [named]
    dsimp only
    rw [id]
  generalize placed : withGroup (subApiName (pricingNamespace parse endpoint)) drawn config.groups =
    placed_ at again named id groups
  obtain ⟨after, groupId, created⟩ := placed_
  -- an assignment that has the group and the multiplier already is not touched
  have settled : ∀ (multiplier : φ) (assignments : List (CredentialAssignment φ))
      (assignment : CredentialAssignment φ),
      subApiBillingMultiplier doubles payload = some multiplier →
      Keyed.find CredentialAssignment.key (entryId, secretId) assignments = some assignment →
      (MayMultiply doubles (pricingNamespace parse endpoint) after assignment →
        assignment.groupId = some groupId ∧ assignment.multiplier = multiplier) →
      (syncSubApiPricing doubles parse drawnAgain ⟨after, assignments⟩ entryId secretId endpoint
        payload).1 = ⟨after, assignments⟩ := by
    intro multiplier assignments assignment told found stays
    rcases syncSubApiPricing_cases doubles parse drawnAgain
      ⟨after, assignments⟩ entryId secretId endpoint payload with
      none_ | ⟨told', toldSame, -, ⟨_, -, -, result⟩ | ⟨absent, -⟩ | ⟨other, foundOther, may, result⟩⟩
    · rw [none_]
    · rw [result]
      dsimp only
      rw [again]
    · rw [found] at absent
      cases absent
    · rw [told, Option.some.injEq] at toldSame
      dsimp only at foundOther may result
      rw [again] at may result
      rw [found, Option.some.injEq] at foundOther
      subst foundOther
      subst toldSame
      obtain ⟨sameGroup, sameMultiplier⟩ := stays may
      rw [result]
      dsimp only
      congr 1
      apply Keyed.amend_eq_self
      intro item held
      rw [found, Option.some.injEq] at held
      rw [← held, ← sameGroup, ← sameMultiplier]
  rcases syncSubApiPricing_cases doubles parse drawn config entryId secretId
    endpoint payload with
    none_ | ⟨multiplier, told, -, ⟨assignment, found, stays, result⟩ | ⟨absent, result⟩ |
      ⟨assignment, found, -, result⟩⟩
  · rw [none_, none_]
  · rw [placed] at stays result
    rw [result]
    exact settled multiplier _ assignment told found stays
  · rw [placed] at result
    rw [result]
    refine settled multiplier _ ⟨entryId, secretId, some groupId, multiplier, false⟩ told ?_
      fun _ => ⟨rfl, rfl⟩
    rw [Keyed.find_append, absent, Option.none_or]
    exact if_pos rfl
  · rw [placed] at result
    rw [result]
    refine settled multiplier _ { assignment with groupId := some groupId, multiplier } told ?_
      fun _ => ⟨rfl, rfl⟩
    refine (Keyed.find_amend ?_ _).trans ?_
    · exact fun _ same => same
    · rw [if_pos rfl, found]
      rfl

end SubApi

/-- A group that a gateway with a clear namespace may change is managed under no other. -/
theorem not_theirs {space : String} (clear : Clear space) {group : PricingGroup}
    (held : group.manual = true ∨ Foreign parse space group) : ¬Theirs space group := by
  rintro ⟨automatic, groupName, name⟩
  rcases held with manual | ⟨endpoint, differs, managed⟩
  · rw [manual] at automatic
    cases automatic
  · exact differs (eq_of_managed clear name managed)

/-- An edit for the future keeps the versions in force in the past. -/
theorem versionIn_after (sound : Sound clock config) (later : clock ≤ now) {edit : Edit φ}
    (fresh : edit.Fresh config) (future : edit.ForTheFuture) (id : Uuid) {startedAt : ℕ}
    (before : startedAt < now) :
    versionIn (edit.after doubles parse now config).groups id startedAt =
      versionIn config.groups id startedAt := by
  have soundNow : Sound now config := ⟨sound.groups.mono later, sound.keys⟩
  cases edit with
  | upsertPricingGroup group applyScope =>
    cases future
    cases done : upsertPricingGroup now config group .fromNow with
    | error error =>
      have performed : (Edit.upsertPricingGroup group .fromNow : Edit φ).perform doubles parse now
          config = .error error := by
        rw [Edit.perform, done]
        rfl
      rw [Edit.after, performed]
    | ok returned =>
      have performed : (Edit.upsertPricingGroup group .fromNow : Edit φ).perform doubles parse now
          config = .ok (returned, true) := by
        rw [Edit.perform, done]
        rfl
      rw [sound.after_eq later fresh performed]
      exact versionIn_upsert_fromNow sound done id before
  | syncNewApiPricing draw entryId endpoint secretGroups payload =>
    rw [sound.after_eq later fresh rfl]
    exact versionIn_syncNewApi soundNow fresh id before
  | syncSubApiPricing drawn entryId secretId endpoint payload =>
    rw [sound.after_eq later fresh rfl]
    exact versionIn_syncSubApi soundNow fresh id startedAt
  | deletePricingGroup => cases future
  | deletePricingGroupVersion => cases future
  | setPricingAssignment => cases future

/-- An edit of all history prices the rows of its group by the last version that came in. -/
theorem history_after (sound : Sound clock config) (later : clock ≤ now) {group : PricingGroup}
    {returned : PricingConfig φ × Bool}
    (performed : (Edit.upsertPricingGroup group .allHistory : Edit φ).perform doubles parse now
      config = .ok returned) :
    ∃ last, group.versions.getLast? = some last ∧
      ∀ overrides listPrices (row : UsageRow) assignment,
        ((Edit.upsertPricingGroup group .allHistory : Edit φ).after doubles parse now
          config).assignment row.providerEntryId row.secretId = some assignment →
        assignment.groupId = some group.id →
        resolveRowCost doubles overrides listPrices
            ((Edit.upsertPricingGroup group .allHistory : Edit φ).after doubles parse now config) row =
          costWith doubles overrides listPrices (some last) assignment.multiplier row := by
  obtain ⟨config', stored⟩ := returned
  have fresh : (Edit.upsertPricingGroup group .allHistory : Edit φ).Fresh config := trivial
  rw [sound.after_eq later fresh performed]
  rw [Edit.perform] at performed
  cases done : upsertPricingGroup now config group .allHistory with
  | error error =>
    rw [done] at performed
    cases performed
  | ok upserted =>
    rw [done] at performed
    cases performed
    obtain ⟨last, isLast, versions⟩ := versionIn_upsert_allHistory done
    refine ⟨last, isLast, ?_⟩
    intro overrides listPrices row assignment found assigned
    have version : config'.versionFor row = some { last with effectiveFrom := 0 } := by
      rw [PricingConfig.versionFor, found, Option.bind_some, assigned]
      exact versions row.startedAt
    rw [resolveRowCost, version, found]
    rfl

omit [DecidableEq φ] in
/-- What is returned with a flag is returned with some flag. -/
theorem ok_of_fst {result : PricingConfig φ × Bool} {value : PricingConfig φ}
    (first : result.1 = value) :
    ∃ stored, (.ok result : Except Server.ServiceError _) = .ok (value, stored) :=
  ⟨result.2, by rw [← first]⟩

/-- A sync that is repeated returns what is stored. -/
theorem perform_again (doubles : Doubles φ) (parse : String → Option GatewayUrl) (moment : ℕ)
    (sound : Sound clock config) (later : clock ≤ now) {edit : Edit φ} (fresh : edit.Fresh config)
    {again : Edit φ} (repeats : edit.Repeats again) :
    ∃ stored, again.perform doubles parse moment (edit.after doubles parse now config) =
      .ok (edit.after doubles parse now config, stored) := by
  have soundNow : Sound now config := ⟨sound.groups.mono later, sound.keys⟩
  cases edit with
  | syncNewApiPricing draw entryId endpoint secretGroups payload =>
    cases again with
    | syncNewApiPricing drawAgain entryId' endpoint' secretGroups' payload' =>
      obtain ⟨rfl, rfl, rfl, rfl⟩ := repeats
      rw [sound.after_eq later fresh rfl]
      exact ok_of_fst (syncNewApi_again soundNow fresh moment drawAgain)
    | _ => cases repeats
  | syncSubApiPricing drawn entryId secretId endpoint payload =>
    cases again with
    | syncSubApiPricing drawnAgain entryId' secretId' endpoint' payload' =>
      obtain ⟨rfl, rfl, rfl, rfl⟩ := repeats
      rw [sound.after_eq later fresh rfl]
      exact ok_of_fst (syncSubApi_again soundNow fresh drawnAgain)
    | _ => cases repeats
  | _ => cases repeats

/-- An edit of a sound configuration reprices only what it says. -/
theorem Sound.onlyWhatItSays (sound : Sound clock config) (later : clock ≤ now) {edit : Edit φ}
    (fresh : edit.Fresh config) (clear : edit.Clear parse) :
    OnlyWhatItSays doubles parse now config edit := by
  have soundNow : Sound now config := ⟨sound.groups.mono later, sound.keys⟩
  have groups : ∀ space, edit.space parse = some space → ∀ group ∈ config.groups,
      group.manual = true ∨ Foreign parse space group →
      group ∈ (edit.after doubles parse now config).groups := by
    intro space isSpace group listed held
    cases edit with
    | syncNewApiPricing draw entryId endpoint secretGroups payload =>
      cases isSpace
      rw [sound.after_eq later fresh rfl]
      exact mem_groups_syncNewApi soundNow fresh listed (not_theirs clear held)
    | syncSubApiPricing drawn entryId secretId endpoint payload =>
      rw [sound.after_eq later fresh rfl]
      exact mem_groups_syncSubApi soundNow fresh listed
    | _ => cases isSpace
  have assignments : ∀ space, edit.space parse = some space → ∀ assignment ∈ config.assignments,
      (assignment.manual = true ∨ ∃ groupId group, assignment.groupId = some groupId ∧
        config.group groupId = some group ∧ Foreign parse space group) →
      assignment ∈ (edit.after doubles parse now config).assignments := by
    intro space isSpace assignment listed held
    cases edit with
    | syncNewApiPricing draw entryId endpoint secretGroups payload =>
      cases isSpace
      rw [sound.after_eq later fresh rfl]
      exact mem_assignments_syncNewApi soundNow fresh listed held
    | syncSubApiPricing drawn entryId secretId endpoint payload =>
      cases isSpace
      rw [sound.after_eq later fresh rfl]
      exact mem_assignments_syncSubApi soundNow fresh listed held
    | _ => cases isSpace
  constructor
  · intro future overrides listPrices row before same
    exact resolveRowCost_congr same
      (fun id => versionIn_after sound later fresh future id before) overrides listPrices
  · rintro group returned rfl performed
    exact history_after sound later performed
  · exact fun space isSpace group listed manual => groups space isSpace group listed (.inl manual)
  · exact fun space isSpace assignment listed manual =>
      assignments space isSpace assignment listed (.inl manual)
  · exact fun space isSpace group listed foreign => groups space isSpace group listed (.inr foreign)
  · exact fun space isSpace assignment listed groupId group assigned found foreign =>
      assignments space isSpace assignment listed (.inr ⟨groupId, group, assigned, found, foreign⟩)
  · intro again moment repeats passed
    obtain ⟨stored, performed⟩ := perform_again doubles parse moment sound later fresh
      repeats
    refine ⟨⟨stored, performed⟩, ?_⟩
    rw [Edit.after, performed]
    cases stored with
    | true => exact (sound.after later fresh).saved
    | false => rfl

/-- What is stored is sound in every run. -/
theorem sound_of_reached {allowed : Stored φ → ℕ × Edit φ → Prop} {state : Stored φ}
    (reached : (pricing doubles parse).Reachable allowed state) : Sound state.clock state.config := by
  apply reached.invariant (fun state => Sound state.clock state.config)
  · intro state initial
    rw [initial]
    exact ⟨⟨by simp, by simp, List.nodup_nil⟩, List.nodup_nil⟩
  · rintro state label next sound - ⟨later, fresh, rfl⟩
    exact sound.after later fresh

/-- In every run whose syncs are with clear namespaces, the stored configuration is in order and each
edit reprices only what it says. -/
theorem edits_onlyWhatTheySay {state : Stored φ}
    (reached : (pricing doubles parse).Reachable (fun _ label => label.2.Clear parse) state) :
    Orderly state.config ∧ ∀ label next, (pricing doubles parse).step state label next →
      label.2.Clear parse → OnlyWhatItSays doubles parse label.1 state.config label.2 := by
  have sound := sound_of_reached reached
  refine ⟨⟨sound.groups.timelines, sound.keys⟩, ?_⟩
  rintro label next ⟨later, fresh, -⟩ clear
  exact sound.onlyWhatItSays later fresh clear

/-- Doubles that hold every fraction. -/
def fractions : Doubles ℚ where
  one := 1
  fiveQuarters := 5 / 4
  microsPerUnit := 2000000
  mul left right := left * right
  usable value := 0 ≤ value
  isOne value := value = 1
  ofNumber
    | .unsigned value => value
    | .negative magnitude => -magnitude
    | .float _ => 0
  parse _ := none
  roundedPrice value := UInt64.ofNat (value + 1 / 2).floor.toNat
  scale cost multiplier := UInt64.ofNat (cost.toNat * multiplier + 1 / 2).floor.toNat

/-- `reqwest::Url::parse`, for one endpoint. -/
def readsOne (endpoint : String) : Option GatewayUrl :=
  if endpoint = "https://b/" then some ⟨some "b", none, "/"⟩ else none

/-- The prices of one model for one group of a New API gateway, by the ratio of the group. -/
def ratioTable (ratio : ℕ) : Value :=
  .obj [("data", .array [.obj [("model_name", .string "gpt"), ("model_ratio", .nat 1)]]),
    ("group_ratio", .obj [("vip", .nat ratio)])]

/-- A sync of one key that belongs to the group. -/
def syncAt (drawn : Uuid) (endpoint : String) (ratio : ℕ) : Edit ℚ :=
  .syncNewApiPricing (fun _ => drawn) 1 endpoint [("key", some "vip")] (ratioTable ratio)

/-- What is stored after a first sync. -/
def onceSynced (endpoint : String) : Stored ℚ :=
  ⟨(syncAt 7 endpoint 1).after fractions readsOne 100 {}, 100⟩

/-- The identifier drawn for the group of the table is new where no group has it. -/
theorem fresh_syncAt {drawn : Uuid} (endpoint : String) (ratio : ℕ) {config : PricingConfig ℚ}
    (new : drawn ∉ config.groups.map PricingGroup.id) :
    (syncAt drawn endpoint ratio).Fresh config := by
  intro ratios table
  cases table
  exact ⟨List.nodup_singleton _, fun _ _ => new⟩

/-- What is stored after a first sync is reached. -/
theorem onceSynced_reached (endpoint : String)
    {allowed : Stored ℚ → ℕ × Edit ℚ → Prop} (meets : allowed ⟨{}, 0⟩ (100, syncAt 7 endpoint 1)) :
    (pricing fractions readsOne).Reachable allowed (onceSynced endpoint) := by
  have start : (pricing fractions readsOne).init ⟨{}, 0⟩ := rfl
  exact .step (.start start) meets ⟨Nat.zero_le _, fresh_syncAt endpoint 1 (by simp), rfl⟩

/-- A gateway is synced, and then again with other prices. -/
theorem edits_sample :
    Orderly (onceSynced "https://b/").config ∧
      OnlyWhatItSays fractions readsOne 200 (onceSynced "https://b/").config
        (syncAt 8 "https://b/" 2) := by
  have clear : ∀ drawn ratio, (syncAt drawn "https://b/" ratio).Clear readsOne := by
    intro drawn ratio
    show ¬" @ ".toList <:+: "@ ".toList ++ (pricingNamespace readsOne "https://b/").toList
    decide +kernel
  have sample := edits_onlyWhatTheySay (onceSynced_reached "https://b/" (clear 7 1))
  have new : (8 : Uuid) ∉ (onceSynced "https://b/").config.groups.map PricingGroup.id := by
    decide +kernel
  exact ⟨sample.1, sample.2 (200, syncAt 8 "https://b/" 2) _
    ⟨Nat.le_add_right 100 100, fresh_syncAt "https://b/" 2 new, rfl⟩ (clear 8 2)⟩

/-- An endpoint that is no URL for the white space before it, which a probe of the gateway trims. -/
def padded : String := "\u00a0https://gateway.example/team @ b"

/-- The group that a sync of that endpoint adds. -/
def paddedGroup : PricingGroup where
  manual := false
  id := 7
  name := "New API / vip @ https://gateway.example/team @ b"
  versions := [⟨100, [{
    model := "gpt"
    inputMicros := 2000000
    outputMicros := 2000000
    cacheReadMicros := 2000000
    cacheCreationMicros := 2500000 }]⟩]

/-- The group that a sync of an endpoint added counts as managed under the namespace of another, and
the next sync changes it. -/
theorem edits_notOnlyWhatTheySay :
    ¬∀ state : Stored ℚ, (pricing fractions readsOne).Reached state → ∀ label next,
      (pricing fractions readsOne).step state label next →
        OnlyWhatItSays fractions readsOne label.1 state.config label.2 := by
  intro always
  have new : (8 : Uuid) ∉ (onceSynced padded).config.groups.map PricingGroup.id := by
    decide +kernel
  have only := always (onceSynced padded) (onceSynced_reached padded trivial)
    (200, syncAt 8 padded 2) _ ⟨Nat.le_add_right 100 100, fresh_syncAt padded 2 new, rfl⟩
  have listed : paddedGroup ∈ (onceSynced padded).config.groups := by
    decide +kernel
  have foreign : Foreign readsOne (pricingNamespace readsOne padded) paddedGroup := by
    refine ⟨"https://b/", ?_, ?_⟩
    · decide +kernel
    · decide +kernel
  have changed : paddedGroup ∉
      ((syncAt 8 padded 2).after fractions readsOne 200 (onceSynced padded).config).groups := by
    decide +kernel
  exact changed (only.foreignGroups _ rfl paddedGroup listed foreign)

end Aipass.Pricing
