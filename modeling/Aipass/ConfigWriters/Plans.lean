import Mathlib.Data.List.Induction
import Aipass.Base.Result
import Aipass.ConfigWriters.Receipt

/-!
# Plans, resource by resource

A plan takes up every resource that something is to be done to, once, and makes of it what the deeds
on this resource alone make of what it holds. So the order in which different resources are dealt
with does not matter.
-/
namespace Aipass.ConfigWriters

/-- Something that is done to a resource. -/
abbrev Deed := Resource × (Content → Except RecoveryError Content)

namespace Machine

variable (machine : Machine)

/-- What deeds on one resource make of a content. -/
def settledFrom (deeds : List Deed) (resource : Resource) (content : Content) :
    Except RecoveryError Content :=
  (deeds.filter fun deed => deed.1 = resource).foldlM (fun current deed => deed.2 current) content

/-- What deeds on one resource make of what it holds. -/
def settled (deeds : List Deed) (resource : Resource) : Except RecoveryError Content := do
  let content ← machine.readResource resource
  settledFrom deeds resource content

/-- What a plan is of a list of deeds. -/
structure Plans (deeds : List Deed) (plan : List Change) : Prop where
  /-- Each resource is taken up once. -/
  distinct : (plan.map Change.resource).Nodup
  /-- The resources are those of the deeds. -/
  covers : ∀ resource, resource ∈ plan.map Change.resource ↔ resource ∈ deeds.map Prod.fst
  /-- What a resource holds was read. -/
  before : ∀ change ∈ plan, machine.readResource change.resource = .ok change.before
  /-- The deeds have been done. -/
  after : ∀ change ∈ plan, machine.settled deeds change.resource = .ok change.after

/-- The deeds on another resource do not matter. -/
theorem settledFrom_append_ne (deeds : List Deed) {deed : Deed} {resource : Resource}
    (differ : deed.1 ≠ resource) (content : Content) :
    settledFrom (deeds ++ [deed]) resource content = settledFrom deeds resource content := by
  rw [settledFrom, settledFrom, List.filter_append]
  simp [differ]

/-- One more deed on a resource. -/
theorem settledFrom_append (deeds : List Deed) (deed : Deed) (content : Content) :
    settledFrom (deeds ++ [deed]) deed.1 content =
      settledFrom deeds deed.1 content >>= deed.2 := by
  rw [settledFrom, settledFrom, List.filter_append, List.foldlM_append]
  simp

/-- The deeds on another resource do not matter. -/
theorem settled_append_ne (deeds : List Deed) {deed : Deed} {resource : Resource}
    (differ : deed.1 ≠ resource) :
    machine.settled (deeds ++ [deed]) resource = machine.settled deeds resource := by
  simp only [settled, settledFrom_append_ne deeds differ]

/-- One more deed on a resource. -/
theorem settled_append (deeds : List Deed) (deed : Deed) :
    machine.settled (deeds ++ [deed]) deed.1 = machine.settled deeds deed.1 >>= deed.2 := by
  simp only [settled, settledFrom_append]
  cases machine.readResource deed.1 <;> rfl

/-- A resource on which there is no deed holds what it holds. -/
theorem settled_of_not_mem {deeds : List Deed} {resource : Resource}
    (absent : resource ∉ deeds.map Prod.fst) :
    machine.settled deeds resource = machine.readResource resource := by
  have none_ : (deeds.filter fun deed => deed.1 = resource) = [] := by
    rw [List.filter_eq_nil_iff]
    intro deed listed same
    exact absent (List.mem_map.mpr ⟨deed, listed, of_decide_eq_true same⟩)
  rw [settled]
  simp only [settledFrom, none_, List.foldlM_nil]
  cases machine.readResource resource <;> rfl

variable {machine}

/-- A plan takes up the resource of the next deed. -/
theorem Plans.takeUp {deeds : List Deed} {plan : List Change} (plans : machine.Plans deeds plan)
    (deed : Deed) :
    (∃ error, machine.readResource deed.1 = .error error ∧ deed.1 ∉ deeds.map Prod.fst ∧
      machine.planOne plan deed = .error error) ∨
    ∃ taken : List Change, (taken.map Change.resource).Nodup ∧
      (∀ resource, resource ∈ taken.map Change.resource ↔
        resource ∈ (deeds ++ [deed]).map Prod.fst) ∧
      (∀ change ∈ taken, machine.readResource change.resource = .ok change.before ∧
        machine.settled deeds change.resource = .ok change.after) ∧
      machine.planOne plan deed = taken.mapM fun planned =>
        if planned.resource = deed.1 then do
          let after ← deed.2 planned.after
          return { planned with after }
        else return planned := by
  by_cases taken : plan.any fun planned => planned.resource = deed.1
  · have listed : deed.1 ∈ plan.map Change.resource := by simpa using taken
    refine Or.inr ⟨plan, plans.distinct, fun resource => ?_, fun change inside =>
      ⟨plans.before change inside, plans.after change inside⟩, ?_⟩
    · rw [plans.covers, List.map_append, List.mem_append]
      refine ⟨Or.inl, fun either => either.elim id fun own => ?_⟩
      rw [List.mem_singleton.mp own, ← plans.covers]
      exact listed
    · rw [planOne, if_pos taken]
      rfl
  · have fresh : deed.1 ∉ plan.map Change.resource := by simpa using taken
    cases read : machine.readResource deed.1 with
    | error error =>
      refine Or.inl ⟨error, rfl, fun listed => fresh ((plans.covers _).mpr listed), ?_⟩
      rw [planOne, if_neg taken, read]
      rfl
    | ok content =>
      refine Or.inr ⟨plan ++ [⟨deed.1, content, content⟩], ?_, fun resource => ?_,
        fun change inside => ?_, ?_⟩
      · rw [List.map_append]
        exact plans.distinct.append (List.nodup_singleton _) (by simpa using fresh)
      · rw [List.map_append, List.mem_append, plans.covers, List.map_append, List.mem_append]
        rfl
      · rcases List.mem_append.mp inside with earlier | own
        · exact ⟨plans.before change earlier, plans.after change earlier⟩
        · rw [List.mem_singleton.mp own]
          refine ⟨read, ?_⟩
          rw [machine.settled_of_not_mem fun listed => fresh ((plans.covers _).mpr listed)]
          exact read
      · rw [planOne, if_neg taken, read]
        rfl

/-- The next deed is done, or fails as it fails on its resource alone. -/
theorem Plans.next {deeds : List Deed} {plan : List Change} (plans : machine.Plans deeds plan)
    (deed : Deed) :
    (∃ error, machine.settled (deeds ++ [deed]) deed.1 = .error error ∧
      machine.planOne plan deed = .error error) ∨
    ∃ done, machine.planOne plan deed = .ok done ∧ machine.Plans (deeds ++ [deed]) done := by
  rcases plans.takeUp deed with ⟨error, read, fresh, failed⟩ | ⟨taken, distinct, covers, holds, one⟩
  · refine Or.inl ⟨error, ?_, failed⟩
    rw [settled_append, machine.settled_of_not_mem fresh, read]
    rfl
  · rw [one]
    cases mapped : taken.mapM fun planned : Change =>
        if planned.resource = deed.1 then do
          let after ← deed.2 planned.after
          return { planned with after }
        else return planned with
    | error error =>
      obtain ⟨change, inside, failed⟩ := mapM_eq_error mapped
      refine Or.inl ⟨error, ?_, rfl⟩
      split at failed
      · rename_i same
        rw [settled_append, ← same, (holds change inside).2, ok_bind]
        cases acted : deed.2 change.after with
        | error other =>
          rw [acted, error_bind] at failed
          cases failed
          rfl
        | ok after =>
          rw [acted] at failed
          cases failed
      · cases failed
    | ok done =>
      refine Or.inr ⟨done, rfl, ?_⟩
      have resources : done.map Change.resource = taken.map Change.resource := by
        refine map_mapM mapped _ _ fun change result passes => ?_
        split at passes
        · obtain ⟨after, -, same⟩ := bind_eq_ok.mp passes
          rw [← Except.ok.inj same]
        · rw [← Except.ok.inj passes]
      refine ⟨resources ▸ distinct, fun resource => resources ▸ covers resource, ?_, ?_⟩
      all_goals
        intro change inside
        obtain ⟨source, listed, passes⟩ := mem_mapM mapped inside
        obtain ⟨read, was⟩ := holds source listed
        split at passes
      · obtain ⟨after, -, same⟩ := bind_eq_ok.mp passes
        rw [← Except.ok.inj same]
        exact read
      · rw [← Except.ok.inj passes]
        exact read
      · rename_i same
        obtain ⟨after, acted, result⟩ := bind_eq_ok.mp passes
        rw [← Except.ok.inj result]
        change machine.settled (deeds ++ [deed]) source.resource = .ok after
        rw [same, settled_append, ← same, was, ok_bind, acted]
      · rename_i differ
        rw [← Except.ok.inj passes, machine.settled_append_ne deeds (Ne.symm differ)]
        exact was

/-- The plan of a list of deeds does on each resource what the deeds on it do, or fails as the deeds
on one of the resources do. -/
theorem planned_cases (machine : Machine) (deeds : List Deed) :
    (∃ error, machine.planned deeds = .error error ∧
      ∃ resource ∈ deeds.map Prod.fst, machine.settled deeds resource = .error error) ∨
    ∃ plan, machine.planned deeds = .ok plan ∧ machine.Plans deeds plan := by
  induction deeds using List.reverseRecOn with
  | nil => exact Or.inr ⟨[], rfl, List.nodup_nil, by simp, by simp, by simp⟩
  | append_singleton deeds deed ih =>
    have split : machine.planned (deeds ++ [deed]) =
        machine.planned deeds >>= fun plan => machine.planOne plan deed := by
      rw [planned, List.foldlM_append]
      simp [planned]
    rw [split]
    rcases ih with ⟨error, failed, resource, listed, fails⟩ | ⟨plan, planned, plans⟩
    · refine Or.inl ⟨error, by rw [failed]; rfl, resource, by simp [List.mem_map.mp listed], ?_⟩
      by_cases same : deed.1 = resource
      · subst same
        rw [settled_append, fails]
        rfl
      · rw [machine.settled_append_ne deeds same]
        exact fails
    · rw [planned, ok_bind]
      rcases plans.next deed with ⟨error, fails, failed⟩ | ⟨done, one, plans⟩
      · exact Or.inl ⟨error, failed, deed.1, by simp, fails⟩
      · exact Or.inr ⟨done, one, plans⟩

end Machine
end Aipass.ConfigWriters
