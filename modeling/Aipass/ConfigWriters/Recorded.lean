import Aipass.ConfigWriters.History
import Aipass.ConfigWriters.Uninstall

/-!
# What is recorded of one resource

Undoing, retiring and reactivating deal with each resource by itself: with the sequence of what the
steps have recorded of it. This sequence decides what an uninstall makes of the resource.
-/
namespace Aipass.ConfigWriters

/-- What a step has recorded of one resource. -/
structure Recorded where
  /-- What the resource held and what was written to it. -/
  changes : List (Content × Content)
  sources : List NativeSource
  legacy : Bool
  markers : Markers
deriving DecidableEq

/-- What a step has recorded of a resource, if anything. -/
def Step.recorded (step : Step) (resource : Resource) : Option Recorded :=
  let changes := step.changes.filter fun change => change.resource = resource
  if changes.isEmpty then none
  else
    some
      { changes := changes.map fun change => (change.before, change.after)
        sources := step.sources, legacy := step.legacy, markers := step.markers }

/-- The sequence of what steps have recorded of a resource. -/
def recordedOn (steps : List Step) (resource : Resource) : List Recorded :=
  steps.filterMap fun step => step.recorded resource

/-- What two lists of steps have recorded of a resource. -/
@[simp] theorem recordedOn_append (left right : List Step) (resource : Resource) :
    recordedOn (left ++ right) resource = recordedOn left resource ++ recordedOn right resource :=
  List.filterMap_append ..

/-- A step has recorded nothing of a resource that it does not change. -/
theorem recorded_eq_none {step : Step} {resource : Resource} :
    step.recorded resource = none ↔ ∀ change ∈ step.changes, change.resource ≠ resource := by
  simp only [Step.recorded]
  split
  · rename_i empty
    simpa [List.filter_eq_nil_iff] using empty
  · rename_i some_
    simpa [List.filter_eq_nil_iff] using some_

/-- A step without certain changes. -/
theorem recorded_filter (step : Step) (resource : Resource) (kept : Change → Bool)
    (uniform : Bool) (own : ∀ change ∈ step.changes, change.resource = resource →
      kept change = uniform) :
    ({ step with changes := step.changes.filter kept } : Step).recorded resource =
      if uniform then step.recorded resource else none := by
  have filtered : (step.changes.filter kept).filter (fun change => change.resource = resource) =
      if uniform then step.changes.filter fun change => change.resource = resource else [] := by
    rw [List.filter_filter]
    cases uniform with
    | true =>
      refine List.filter_congr fun change listed => ?_
      by_cases same : change.resource = resource
      · simp [same, own change listed same]
      · simp [same]
    | false =>
      refine List.filter_eq_nil_iff.mpr fun change listed => ?_
      by_cases same : change.resource = resource
      · simp [own change listed same]
      · simp [same]
  unfold Step.recorded
  simp only [filtered]
  cases uniform <;> simp

/-- Steps that have recorded nothing of a resource do not matter to it. -/
theorem recordedOn_filter (steps : List Step) (resource : Resource) (kept : Step → Bool)
    (silent : ∀ step ∈ steps, ¬ kept step → step.recorded resource = none) :
    recordedOn (steps.filter kept) resource = recordedOn steps resource := by
  induction steps with
  | nil => rfl
  | cons step rest ih =>
    have later := ih fun other listed => silent other (List.mem_cons_of_mem _ listed)
    rw [recordedOn] at later ⊢
    rw [List.filter_cons]
    split
    · rw [recordedOn, List.filterMap_cons, List.filterMap_cons, later]
      rfl
    · rename_i gone
      rw [recordedOn, List.filterMap_cons, silent step (List.mem_cons_self ..) gone]
      exact later

/-- Taking changes away takes away what was recorded of a resource by some of the steps. -/
theorem recordedOn_withoutChanges (steps : List Step) (resource : Resource)
    (dropped : Step → Change → Bool) (gone : Step → Bool)
    (uniform : ∀ step ∈ steps, ∀ change ∈ step.changes, change.resource = resource →
      dropped step change = gone step) :
    recordedOn (withoutChanges steps dropped) resource =
      recordedOn (steps.filter fun step => !gone step) resource := by
  rw [withoutChanges, recordedOn_filter]
  · induction steps with
    | nil => rfl
    | cons step rest ih =>
      have own := recorded_filter step resource (fun change => !dropped step change) (!gone step)
        fun change listed same => by rw [uniform step (List.mem_cons_self ..) change listed same]
      have later := ih fun other listed => uniform other (List.mem_cons_of_mem _ listed)
      rw [recordedOn] at later ⊢
      rw [List.map_cons, List.filterMap_cons, own, later, List.filter_cons]
      cases gone step <;> simp [recordedOn, List.filterMap_cons]
  · intro step listed empty
    rw [recorded_eq_none]
    have none_ : step.changes = [] := by simpa using empty
    simp [none_]

/-- What a part of the steps has recorded of a resource is all that was recorded of it exactly if
the others have recorded nothing of it. -/
theorem recordedOn_filter_eq_iff (steps : List Step) (resource : Resource) (kept : Step → Bool) :
    recordedOn (steps.filter kept) resource = recordedOn steps resource ↔
      ∀ step ∈ steps, step.recorded resource ≠ none → kept step := by
  refine ⟨fun same => ?_, fun silent => recordedOn_filter steps resource kept
    fun step listed gone => by_contra fun recorded => gone (silent step listed recorded)⟩
  have lengths : ∀ steps : List Step, (recordedOn (steps.filter kept) resource).length ≤
      (recordedOn steps resource).length := fun steps =>
    (List.filter_sublist.filterMap _).length_le
  induction steps with
  | nil => simp
  | cons step rest ih =>
    have length := congrArg List.length same
    rw [List.filter_cons] at same length
    by_cases keeps : kept step
    · rw [if_pos keeps, recordedOn, recordedOn, List.filterMap_cons, List.filterMap_cons] at same
      have later : recordedOn (rest.filter kept) resource = recordedOn rest resource := by
        cases own : step.recorded resource with
        | none =>
          rw [own] at same
          exact same
        | some recorded =>
          rw [own] at same
          exact (List.cons.inj same).2
      intro other listed
      rcases List.mem_cons.mp listed with rfl | inside
      · exact fun _ => keeps
      · exact ih later other inside
    · rw [if_neg keeps] at same
      cases own : step.recorded resource with
      | none =>
        rw [show recordedOn (step :: rest) resource = recordedOn rest resource by
          simp [recordedOn, own]] at same
        intro other listed recorded
        rcases List.mem_cons.mp listed with rfl | inside
        · exact absurd own recorded
        · exact ih same other inside recorded
      | some recorded =>
        have more : recordedOn (step :: rest) resource = recorded :: recordedOn rest resource := by
          simp [recordedOn, own]
        rw [more] at same
        have short := lengths rest
        rw [same, List.length_cons] at short
        omega

/-- The changes of a selected step are those on the resources. -/
theorem recorded_select (step : Step) (resources : List Resource) (resource : Resource) :
    (step.select resources).recorded resource =
      if resources.contains resource then step.recorded resource else none :=
  recorded_filter step resource _ _ fun _ _ same => by rw [same]

/-- The sequence that a direct write retires of a resource. -/
theorem recordedOn_retiring (receipt : Receipt) (owner : String) (tool : ToolId)
    (resources : List Resource) (resource : Resource) :
    recordedOn (receipt.retiring owner tool resources) resource =
      if resources.contains resource then
        recordedOn (receipt.steps.filter fun step => step.owner = owner ∧ step.tool = tool) resource
      else [] := by
  rw [Receipt.retiring, recordedOn_filter, recordedOn, List.filterMap_map]
  · have selected : (fun step : Step => step.recorded resource) ∘
        (fun step : Step => step.select resources) =
          fun step => if resources.contains resource then step.recorded resource else none :=
      funext fun step => recorded_select step resources resource
    rw [selected]
    split
    · rfl
    · simp
  · intro step _ empty
    rw [recorded_eq_none]
    have none_ : step.changes = [] := by simpa using empty
    simp [none_]

/-- The deeds on one resource for what a step has recorded of it. -/
def Recorded.deeds (recorded : Recorded) (resource : Resource)
    (act : List NativeSource → Markers → Change → Content → Except RecoveryError Content) :
    List Deed :=
  recorded.changes.map fun change =>
    (resource, act recorded.sources recorded.markers ⟨resource, change.1, change.2⟩)

/-- The deeds of a step on one resource. -/
theorem filter_deeds (step : Step) (resource : Resource)
    (act : List NativeSource → Markers → Change → Content → Except RecoveryError Content) :
    ((step.changes.map fun change => (change.resource, act step.sources step.markers change)).filter
      fun deed => deed.1 = resource) =
        ((step.recorded resource).map fun recorded => recorded.deeds resource act).getD [] := by
  have filtered : ((step.changes.map fun change =>
      (change.resource, act step.sources step.markers change)).filter
        fun deed => deed.1 = resource) =
      (step.changes.filter fun change => change.resource = resource).map fun change =>
        (resource, act step.sources step.markers ⟨resource, change.before, change.after⟩) := by
    rw [List.filter_map]
    refine List.map_congr_left fun change inside => ?_
    have same := of_decide_eq_true (List.mem_filter.mp inside).2
    rw [← same]
  rw [filtered]
  simp only [Step.recorded]
  split
  · rename_i empty
    rw [List.isEmpty_iff.mp empty]
    rfl
  · simp [Recorded.deeds, List.map_map, Function.comp_def]

/-- The deeds of steps on one resource are those for the sequence recorded of it. -/
theorem filter_flatMap_deeds (steps : List Step) (resource : Resource)
    (act : List NativeSource → Markers → Change → Content → Except RecoveryError Content) :
    ((steps.flatMap fun step => step.changes.map fun change =>
      (change.resource, act step.sources step.markers change)).filter
        fun deed => deed.1 = resource) =
      (recordedOn steps resource).flatMap fun recorded => recorded.deeds resource act := by
  induction steps with
  | nil => rfl
  | cons step rest ih =>
    rw [List.flatMap_cons, List.filter_append, ih, filter_deeds]
    cases own : step.recorded resource <;> simp [recordedOn, own]

/-- The deeds of steps touch a resource if something is recorded of it. -/
theorem mem_flatMap_deeds (steps : List Step) (resource : Resource)
    (act : List NativeSource → Markers → Change → Content → Except RecoveryError Content) :
    resource ∈ (steps.flatMap fun step => step.changes.map fun change =>
      (change.resource, act step.sources step.markers change)).map Prod.fst ↔
        recordedOn steps resource ≠ [] := by
  have silent : recordedOn steps resource = [] ↔
      ∀ step ∈ steps, ∀ change ∈ step.changes, change.resource ≠ resource := by
    rw [recordedOn, List.filterMap_eq_nil_iff]
    exact forall₂_congr fun _ _ => recorded_eq_none
  rw [Ne, silent]
  simp only [List.mem_map, List.mem_flatMap]
  constructor
  · rintro ⟨_, ⟨step, listed, change, inside, rfl⟩, same⟩ none_
    exact none_ step listed change inside same
  · intro some_
    push Not at some_
    obtain ⟨step, listed, change, inside, same⟩ := some_
    exact ⟨_, ⟨step, listed, change, inside, rfl⟩, same⟩

/-- What was recorded of a resource, the latest first. -/
theorem recordedOn_reverse (steps : List Step) (resource : Resource) :
    recordedOn steps.reverse resource = (recordedOn steps resource).reverse :=
  List.filterMap_reverse ..

namespace Machine

variable (device : Device) {machine : Machine} {owner : String}

/-- What an uninstall undoes of a resource is what the installation has recorded of it, the latest
first. -/
theorem filter_undoing (own : ∀ step ∈ machine.receipt.steps, step.owner = owner)
    (resource : Resource) :
    ((machine.undoing device owner).filter fun deed => deed.1 = resource) =
      (recordedOn machine.receipt.steps resource).reverse.flatMap fun recorded =>
        recorded.deeds resource fun sources _ => machine.undoChange device sources := by
  have mine : (machine.receipt.steps.reverse.filter fun step => step.owner = owner) =
      machine.receipt.steps.reverse :=
    List.filter_eq_self.mpr fun step listed =>
      decide_eq_true (own step (List.mem_reverse.mp listed))
  rw [undoing, mine, ← recordedOn_reverse]
  exact filter_flatMap_deeds _ resource fun sources _ => machine.undoChange device sources

/-- An uninstall takes up what the installation has recorded. -/
theorem mem_undoing (own : ∀ step ∈ machine.receipt.steps, step.owner = owner)
    (resource : Resource) :
    resource ∈ (machine.undoing device owner).map Prod.fst ↔
      recordedOn machine.receipt.steps resource ≠ [] := by
  have mine : (machine.receipt.steps.reverse.filter fun step => step.owner = owner) =
      machine.receipt.steps.reverse :=
    List.filter_eq_self.mpr fun step listed =>
      decide_eq_true (own step (List.mem_reverse.mp listed))
  rw [undoing, mine]
  refine (mem_flatMap_deeds _ resource fun sources _ => machine.undoChange device sources).trans ?_
  rw [recordedOn_reverse, Ne, List.reverse_eq_nil_iff]

/-- Two machines with the same resources and the same sequences on each are uninstalled to the
same. -/
theorem restore_recorded_eq (machine other : Machine) (id applyId : Uuid)
    (same : other.resources = machine.resources) (peace : Peaceful machine.resources)
    (idle : machine.pending = none) (otherIdle : other.pending = none)
    (own : ∀ step ∈ machine.receipt.steps, step.owner = owner ∧ ¬ step.legacy)
    (otherOwn : ∀ step ∈ other.receipt.steps, step.owner = owner ∧ ¬ step.legacy)
    (sequences : ∀ resource, recordedOn other.receipt.steps resource =
      recordedOn machine.receipt.steps resource) :
    ((restore device owner id applyId).run other).final.resources.held =
      ((restore device owner id applyId).run machine).final.resources.held := by
  have mine : ∀ step ∈ machine.receipt.steps, step.owner = owner := fun step listed =>
    (own step listed).1
  have others : ∀ step ∈ other.receipt.steps, step.owner = owner := fun step listed =>
    (otherOwn step listed).1
  refine restore_held_eq device owner id applyId same peace idle otherIdle
    (fun step listed _ => (own step listed).2) (fun step listed _ => (otherOwn step listed).2)
    (fun resource => ?_) fun resource => ?_
  · rw [mem_undoing device others, mem_undoing device mine, sequences]
  · obtain ⟨resources, receipt, pending, transactions⟩ := machine
    obtain ⟨otherResources, otherReceipt, otherPending, otherTransactions⟩ := other
    cases same
    rw [settled, settled]
    simp only [settledFrom]
    rw [filter_undoing device others, filter_undoing device mine, sequences]
    rfl

end Machine
end Aipass.ConfigWriters
