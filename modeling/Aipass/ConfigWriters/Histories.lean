import Aipass.Base.Run
import Aipass.ConfigWriters.Recorded

/-!
# Histories of one installation

One installation records, commits, retires and reactivates, and anybody edits its resources in
between. All the steps that its receipt ever has are its own, and none of them is legacy.
-/
namespace Aipass.ConfigWriters

/-- What one installation does to its history. -/
inductive HistoryAct
  | record (vault : String) (tool : ToolId) (changes : List Change) (sources : List NativeSource)
      (markers : Markers)
  | commit
  | retire (tool : ToolId) (resources : List Resource) (operationId : Uuid)
      (credentials : List Resource)
  | reactivate (operationId : Uuid)
  /-- The resources are written by anybody. -/
  | edit (world : Resources)

/-- The histories of one installation. -/
def histories (device : Device) (owner : String) : System Machine HistoryAct where
  init machine := machine.receipt = {} ∧ machine.pending = none
  step machine act next :=
    match act with
    | .record vault tool changes sources markers =>
      machine.recordProxyNative device owner vault tool changes sources markers = .ok next
    | .commit => machine.commit device = .ok next
    | .retire tool resources operationId credentials =>
      next = ((retireForOperation device owner tool resources operationId credentials).run
        machine).final
    | .reactivate operationId => machine.reactivate device owner operationId = .ok next
    | .edit world => next = { machine with resources := world }

/-- Steps of one installation that are no legacy. -/
def OwnSteps (owner : String) (steps : List Step) : Prop :=
  ∀ step ∈ steps, step.owner = owner ∧ ¬ step.legacy

/-- What holds of a machine on which one installation keeps its history. -/
structure OwnHistory (owner : String) (machine : Machine) : Prop where
  idle : machine.pending = none
  active : OwnSteps owner machine.receipt.steps
  retired : ∀ backup ∈ machine.receipt.retired, OwnSteps owner backup.steps

variable {device : Device} {owner : String} {machine next : Machine}

/-- Steps without some of their changes belong to the same installation. -/
theorem OwnSteps.withoutChanges {steps : List Step} (own : OwnSteps owner steps)
    (dropped : Step → Change → Bool) : OwnSteps owner (withoutChanges steps dropped) := by
  intro step listed
  obtain ⟨source, inside, rfl⟩ := List.mem_map.mp (List.mem_filter.mp listed).1
  exact own source inside

/-- Two lists of own steps are own steps. -/
theorem OwnSteps.append {left right : List Step} (first : OwnSteps owner left)
    (second : OwnSteps owner right) : OwnSteps owner (left ++ right) := fun step listed =>
  (List.mem_append.mp listed).elim (first step) (second step)

/-- The retired steps are the installation's. -/
theorem OwnSteps.retiring {receipt : Receipt} (own : OwnSteps owner receipt.steps)
    (tool : ToolId) (resources : List Resource) :
    OwnSteps owner (receipt.retiring owner tool resources) := by
  intro step listed
  obtain ⟨source, inside, rfl⟩ := List.mem_map.mp (List.mem_filter.mp listed).1
  exact own source (List.mem_filter.mp inside).1

/-- The step in place of those retired is the installation's. -/
theorem ownSteps_residual (owner : String) (tool : ToolId) (retired : List Step)
    (left : List Change) : OwnSteps owner (residualStep owner tool retired left) := by
  intro step listed
  unfold residualStep at listed
  split at listed
  · split at listed
    · cases listed
    · rw [List.mem_singleton.mp listed]
      exact ⟨rfl, by simp⟩
  · cases listed

/-- Pruning backups leaves the installation's steps. -/
theorem ownSteps_discardRetired {receipt : Receipt}
    (own : ∀ backup ∈ receipt.retired, OwnSteps owner backup.steps) (pruned : String)
    (resources : List Resource) :
    ∀ backup ∈ (receipt.discardRetired pruned resources).retired, OwnSteps owner backup.steps := by
  intro backup listed step inside
  obtain ⟨source, member, shape⟩ := List.mem_map.mp (List.mem_filter.mp listed).1
  rw [← shape] at inside
  split at inside
  · obtain ⟨old, oldInside, rfl⟩ := List.mem_map.mp (List.mem_filter.mp inside).1
    exact own source member old oldInside
  · exact own source member step inside

/-- What is saved is the receipt. -/
theorem save_eq_ok {receipt : Receipt} :
    machine.save device receipt = .ok next ↔
      Fits device receipt ∧ next = { machine with receipt } := by
  unfold Machine.save Fits
  split
  · rename_i fits
    simp [fits, eq_comm]
  · rename_i full
    simp [full]

/-- A record adds a step of the installation. -/
theorem OwnHistory.record (own : OwnHistory owner machine) {vault : String} {tool : ToolId}
    {changes : List Change} {sources : List NativeSource} {markers : Markers}
    (done : machine.recordProxyNative device owner vault tool changes sources markers = .ok next) :
    OwnHistory owner next := by
  unfold Machine.recordProxyNative at done
  obtain ⟨-, -, done⟩ := bind_eq_ok.mp done
  obtain ⟨-, -, done⟩ := bind_eq_ok.mp done
  obtain ⟨-, -, done⟩ := bind_eq_ok.mp done
  obtain ⟨-, rfl⟩ := save_eq_ok.mp done
  refine ⟨own.idle, own.active.append fun step listed => ?_,
    ownSteps_discardRetired own.retired _ _⟩
  rw [List.mem_singleton.mp listed]
  exact ⟨rfl, by simp⟩

/-- A commit may tell the last two steps as one. -/
theorem OwnHistory.commit (own : OwnHistory owner machine)
    (done : machine.commit device = .ok next) : OwnHistory owner next := by
  unfold Machine.commit at done
  split at done
  · rename_i last previous earlier shape
    have order : machine.receipt.steps = earlier.reverse ++ [previous, last] := by
      rw [← List.reverse_inj, shape]
      simp
    have mine := own.active
    rw [order] at mine
    split at done
    · cases done
      exact own
    · split at done
      · cases done
        exact own
      · obtain ⟨verified, -, done⟩ := bind_eq_ok.mp done
        split at done
        · obtain ⟨-, rfl⟩ := save_eq_ok.mp done
          refine ⟨own.idle, fun step listed => ?_, own.retired⟩
          rcases List.mem_append.mp listed with before | compact
          · exact mine step (List.mem_append_left _ before)
          · rw [List.mem_singleton.mp compact]
            exact mine last (by simp)
        · cases done
          exact own
  · cases done
    exact own

/-- A direct write that is recorded retires the steps of its tool. -/
theorem retire_ok (device : Device) (tool : ToolId) (resources : List Resource) (operationId : Uuid)
    (credentials : List Resource) (own : OwnHistory owner machine) :
    (∃ error, (retireForOperation device owner tool resources operationId credentials).run machine =
      ⟨.error error, machine, []⟩) ∨
    ∃ left, machine.leftChanges device (machine.receipt.retiring owner tool resources)
        credentials = .ok left ∧
      (retireForOperation device owner tool resources operationId credentials).run machine =
        (let retired := { machine with
          receipt := machine.receipt.retire owner tool resources (some operationId)
            (machine.receipt.retiring owner tool resources) [] left }
        ⟨.ok (), retired, [retired]⟩) := by
  have legacy : machine.unresolvedLegacy (machine.receipt.retiring owner tool resources) =
      .ok [] := by
    have none_ : (machine.receipt.retiring owner tool resources).filter Step.legacy = [] :=
      List.filter_eq_nil_iff.mpr fun step listed =>
        (own.active.retiring tool resources step listed).2
    rw [Machine.unresolvedLegacy, none_]
    rfl
  have writable : machine.ensureWritable = .ok () := by
    rw [Machine.ensureWritable, own.idle]
    rfl
  rw [retireForOperation, retireInner]
  simp only [bind, Program.andThen, Program.run, Program.read, Program.ofExcept, writable, legacy]
  cases machine.leftChanges device (machine.receipt.retiring owner tool resources)
    credentials with
  | error error => exact Or.inl ⟨error, rfl⟩
  | ok left =>
    simp only
    cases saving : machine.save device (machine.receipt.retire owner tool resources
      (some operationId) (machine.receipt.retiring owner tool resources) [] left) with
    | error error => exact Or.inl ⟨error, rfl⟩
    | ok saved =>
      obtain ⟨-, rfl⟩ := save_eq_ok.mp saving
      exact Or.inr ⟨left, rfl, rfl⟩

/-- Retiring leaves the installation's steps. -/
theorem OwnHistory.retire (own : OwnHistory owner machine) (tool : ToolId)
    (resources : List Resource) (operationId : Uuid) (left : List Change) :
    OwnHistory owner { machine with
      receipt := machine.receipt.retire owner tool resources (some operationId)
        (machine.receipt.retiring owner tool resources) [] left } := by
  refine ⟨own.idle, (own.active.withoutChanges _).append (ownSteps_residual _ _ _ _), ?_⟩
  intro backup listed
  have pruned := ownSteps_discardRetired own.retired owner resources
  simp only [Receipt.retire] at listed
  split at listed
  · exact pruned backup listed
  · rcases List.mem_append.mp listed with old | new
    · exact pruned backup old
    · rw [List.mem_singleton.mp new]
      exact own.active.retiring tool resources

/-- A rollback finds the backup of its operation, or none. -/
theorem reactivate_ok {operationId : Uuid}
    (done : machine.reactivate device owner operationId = .ok next) :
    match machine.receipt.retired.find? fun backup =>
      backup.owner = owner ∧ backup.operationId = operationId with
    | none => next = machine
    | some backup =>
      next = { machine with receipt := machine.receipt.reactivate owner operationId backup } := by
  unfold Machine.reactivate at done
  obtain ⟨-, -, done⟩ := bind_eq_ok.mp done
  obtain ⟨-, -, done⟩ := bind_eq_ok.mp done
  cases found : machine.receipt.retired.find? fun backup =>
      backup.owner = owner ∧ backup.operationId = operationId with
  | none =>
    rw [found] at done
    exact (Except.ok.inj done).symm
  | some backup =>
    rw [found] at done
    obtain ⟨-, -, done⟩ := bind_eq_ok.mp done
    exact (save_eq_ok.mp done).2

/-- A rollback leaves the installation's steps. -/
theorem OwnHistory.reactivate (own : OwnHistory owner machine) {operationId : Uuid}
    (done : machine.reactivate device owner operationId = .ok next) : OwnHistory owner next := by
  have found := reactivate_ok done
  split at found
  · rw [found]
    exact own
  · rename_i backup listed
    rw [found]
    refine ⟨own.idle, (own.active.withoutChanges _).append
      (own.retired backup (List.mem_of_find?_eq_some listed)), fun other kept => ?_⟩
    exact own.retired other (List.mem_of_mem_eraseP kept)

/-- One installation keeps its own history. -/
theorem ownHistory_of_reached (reached : (histories device owner).Reached machine) :
    OwnHistory owner machine := by
  refine reached.invariant _ ?_ ?_
  · rintro machine ⟨receipt, idle⟩
    exact ⟨idle, by simp [receipt, OwnSteps], by simp [receipt]⟩
  · intro machine act next own _ stepped
    cases act with
    | record vault tool changes sources markers => exact own.record stepped
    | commit => exact own.commit stepped
    | retire tool resources operationId credentials =>
      rw [show next = _ from stepped]
      rcases retire_ok device tool resources operationId credentials own with
        ⟨error, run⟩ | ⟨left, -, run⟩
      · rw [run]
        exact own
      · rw [run]
        exact own.retire tool resources operationId left
    | reactivate operationId => exact own.reactivate stepped
    | edit world =>
      rw [show next = _ from stepped]
      exact ⟨own.idle, own.active, own.retired⟩

end Aipass.ConfigWriters
