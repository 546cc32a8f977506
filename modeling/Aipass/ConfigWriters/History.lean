import Aipass.ConfigWriters.Receipt

/-!
# The history of a receipt

A direct configuration takes the steps of its tool out of a receipt and keeps them by its operation,
so that a rollback of it can bring them back. The proxy's entries that it has left in a file stay
owned by one step in their place.
-/
namespace Aipass.ConfigWriters

/-- `select`. -/
def Step.select (step : Step) (resources : List Resource) : Step :=
  { step with changes := step.changes.filter fun change => resources.contains change.resource }

/-- The steps without the changes of certain steps, and without the steps that have none left. -/
def withoutChanges (steps : List Step) (dropped : Step → Change → Bool) : List Step :=
  (steps.map fun step =>
    { step with changes := step.changes.filter fun change => !dropped step change }).filter
      fun step => !step.changes.isEmpty

/-- The steps that a direct write retires. -/
def Receipt.retiring (receipt : Receipt) (owner : String) (tool : ToolId)
    (resources : List Resource) : List Step :=
  ((receipt.steps.filter fun step => step.owner = owner ∧ step.tool = tool).map fun step =>
    step.select resources).filter fun step => !step.changes.isEmpty

namespace Machine

variable (device : Device) (machine : Machine)

/-- The legacy resources that still show what the proxy has written. -/
def unresolvedLegacy (retired : List Step) : Except RecoveryError (List Resource) :=
  (retired.filter Step.legacy).foldlM (fun found step =>
    step.changes.foldlM (fun found change => do
      let current ← machine.readResource change.resource
      return if current.any step.markers.containsBytes then found ++ [change.resource]
        else found) found) []

/-- What retires the steps of a tool, the latest first. -/
def retiringDeeds (retired : List Step) (credentials : List Resource) :
    List (Resource × (Content → Except RecoveryError Content)) :=
  (retired.reverse.filter fun step => !step.legacy).flatMap fun step =>
    (step.changes.filter fun change => !credentials.contains change.resource).map fun change =>
      (change.resource, fun current =>
        (retireUndo device.formats step.markers change.resource change.before change.after
          current).mapError .undo)

/-- The changes that take the entries of the proxy out of what a direct write has left. -/
def leftChanges (retired : List Step) (credentials : List Resource) :
    Except RecoveryError (List Change) := do
  let plan ← machine.planned (retiringDeeds device retired credentials)
  return (plan.filter fun change => change.before ≠ change.after).map fun change =>
    { change with before := change.after, after := change.before }

end Machine

/-- The step in place of those that are retired. -/
def residualStep (owner : String) (tool : ToolId) (retired : List Step) (changes : List Change) :
    List Step :=
  match retired.head? with
  | some first =>
    if changes.isEmpty then []
    else
      [{ owner, vault := first.vault, tool, changes
         markers := retired.foldl (fun markers step => markers.extend step.markers) {} }]
  | none => []

/-- What a direct write makes of a receipt. -/
def Receipt.retire (receipt : Receipt) (owner : String) (tool : ToolId)
    (resources : List Resource) (operationId : Option Uuid) (retired : List Step)
    (unresolved : List Resource) (left : List Change) : Receipt :=
  -- a backup of a configuration only keeps the latest operation on each file
  let receipt := receipt.discardRetired owner resources
  { receipt with
    retired :=
      match operationId with
      | some operationId =>
        if retired.isEmpty then receipt.retired
        else receipt.retired ++ [⟨owner, operationId, retired⟩]
      | none => receipt.retired
    steps := withoutChanges receipt.steps (fun step change =>
      step.owner = owner ∧ step.tool = tool ∧ resources.contains change.resource ∧
        ¬ (step.legacy ∧ unresolved.contains change.resource)) ++
      residualStep owner tool retired left }

/-- `retire_inner`. -/
def retireInner (device : Device) (owner : String) (tool : ToolId) (resources : List Resource)
    (operationId : Option Uuid) (credentials : List Resource) :
    Program Machine RecoveryError Unit := do
  let machine ← Program.read
  Program.ofExcept machine.ensureWritable
  let retired := machine.receipt.retiring owner tool resources
  let unresolved ← Program.ofExcept (machine.unresolvedLegacy retired)
  let left ← Program.ofExcept (machine.leftChanges device retired credentials)
  let saved ← Program.ofExcept (machine.save device
    (machine.receipt.retire owner tool resources operationId retired unresolved left))
  Program.write fun _ => saved
  if unresolved.isEmpty then return () else Program.fail .legacyRemains

/-- `retire_for_operation`. -/
def retireForOperation (device : Device) (owner : String) (tool : ToolId)
    (resources : List Resource) (operationId : Uuid) (credentials : List Resource) :
    Program Machine RecoveryError Unit :=
  retireInner device owner tool resources (some operationId) credentials

/-- A rollback replaces the active changes of the installation by those of the operation. -/
def Receipt.reactivate (receipt : Receipt) (owner : String) (operationId : Uuid)
    (backup : Retired) : Receipt :=
  { receipt with
    retired := receipt.retired.eraseP fun other =>
      other.owner = owner ∧ other.operationId = operationId
    steps := withoutChanges receipt.steps (fun active change =>
      active.owner = owner ∧ backup.steps.any fun step =>
        step.changes.any fun other => change.resource = other.resource) ++ backup.steps }

namespace Machine

variable (device : Device) (machine : Machine)

/-- `reactivate`. -/
def reactivate (owner : String) (operationId : Uuid) : Except RecoveryError Machine := do
  machine.ensureWritable
  machine.ensureAttached owner
  match machine.receipt.retired.find? fun backup =>
    backup.owner = owner ∧ backup.operationId = operationId with
  | none => return machine
  | some backup =>
    backup.steps.forM fun step =>
      if machine.receipt.steps.any fun active =>
          active.owner ≠ owner ∧ touches active.changes (step.changes.map Change.resource) then
        .error .otherRollback
      else .ok ()
    machine.save device (machine.receipt.reactivate owner operationId backup)

end Machine
end Aipass.ConfigWriters
