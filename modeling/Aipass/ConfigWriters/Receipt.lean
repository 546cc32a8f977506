import Aipass.ConfigWriters.Undo

/-!
# Receipts of what the proxy has written

Before the proxy writes a configuration, a receipt records what was there. An uninstall undoes the
recorded steps, the latest first, in one transaction, which a marker names until it is done. A
direct configuration retires the steps of its tool; a rollback of it reactivates them.
-/
namespace Aipass.ConfigWriters

/-- `ToolId`. -/
inductive ToolId
  | codex | claudeCode | geminiCli | openCode | grok | pi | cursor | kimiCode | zed
  | deepseekHarness | antigravityCli | museCode | hermesAgent | commandCode | codebuddy | workbuddy
  | vscodeChat | cline | trae | qoder | zcode | jetbrainsCopilot
deriving DecidableEq

/-- `NativeStore`. -/
structure NativeStore where
  tool : String
  home : String
  primary : Resource
  fallback : Option Resource
  profile : Option Resource
deriving DecidableEq

/-- `NativeSource`. -/
structure NativeSource where
  active : NativeStore
  archived : NativeStore
  identity : String
deriving DecidableEq

/-- `Step`. -/
structure Step where
  owner : String
  vault : String
  tool : ToolId
  changes : List Change
  sources : List NativeSource := []
  legacy : Bool := false
  markers : Markers := {}
deriving DecidableEq

/-- `Retired`. -/
structure Retired where
  owner : String
  operationId : Uuid
  steps : List Step
deriving DecidableEq

/-- `Receipt`. -/
structure Receipt where
  steps : List Step := []
  vaults : List (String × String) := []
  detached : List String := []
  retired : List Retired := []
deriving DecidableEq

/-- Why an operation on a receipt stops. -/
inductive RecoveryError
  | transaction (cause : Refusal)
  | undo (cause : UndoError)
  /-- `proxy recovery receipt is full; restore before writing more configurations`. -/
  | full
  /-- `unfinished uninstall recovery; retry uninstall first`. -/
  | unfinished
  /-- `this installation has been detached for uninstall`. -/
  | detached
  /-- `older proxy configuration has no verified original`. -/
  | unverified
  /-- `another AIPass installation owns this proxy configuration`. -/
  | otherOwner
  /-- `another AIPass installation owns the rollback configuration`. -/
  | otherRollback
  /-- The transaction of an uninstall cannot be loaded. -/
  | invalidPending
  /-- `another installation has unfinished uninstall recovery`. -/
  | otherUninstall
  /-- `configuration changed during uninstall; recovery retained`. -/
  | changedDuring
  /-- `original native credential unavailable`, or the account has changed. -/
  | nativeAccount
  /-- `legacy proxy entries remain; remove them before uninstalling`. -/
  | legacyRemains
  /-- `uninstall recovery has not completed`. -/
  | notCompleted
deriving DecidableEq

/-- What receipts are written and read with. -/
structure Device where
  formats : Formats
  /-- `NativeStore::identity_from`, if it succeeds. -/
  identityFrom : NativeStore → Bytes → Option Bytes → Option (Option String)
  /-- The length of a receipt that is written out. -/
  receiptBytes : Receipt → ℕ

/-- The resources and the directory of the recovery. -/
structure Machine where
  resources : Resources
  receipt : Receipt := {}
  /-- `pending.aiptransaction`: the transaction of an unfinished uninstall. -/
  pending : Option Uuid := none
  /-- The transactions of uninstalls, with their owners. -/
  transactions : List (Uuid × String × Transaction) := []

/-- The length from which a receipt is refused. -/
def maxReceiptBytes : ℕ := 2 * 1024 * 1024

namespace Machine

/-- `Resource::read`. -/
def readResource (machine : Machine) (resource : Resource) : Except RecoveryError Content :=
  if resource.readable (machine.resources.held resource) then
    .ok (machine.resources.held resource)
  else .error (.transaction .unavailable)

variable (device : Device) (machine : Machine)

/-- `Recovery::save`. -/
def save (receipt : Receipt) : Except RecoveryError Machine :=
  if device.receiptBytes receipt < maxReceiptBytes then .ok { machine with receipt }
  else .error .full

/-- `ensure_writable`. -/
def ensureWritable : Except RecoveryError Unit :=
  if machine.pending.isSome then .error .unfinished else .ok ()

/-- `ensure_attached`. -/
def ensureAttached (owner : String) : Except RecoveryError Unit :=
  if machine.receipt.detached.contains owner then .error .detached else .ok ()

end Machine

/-- The changes touch one of the resources. -/
def touches (changes : List Change) (resources : List Resource) : Bool :=
  changes.any fun change => resources.contains change.resource

/-- `discard_retired`. -/
def Receipt.discardRetired (receipt : Receipt) (owner : String) (resources : List Resource) :
    Receipt :=
  { receipt with
    retired := (receipt.retired.map fun backup =>
      if backup.owner = owner then
        { backup with
          steps := (backup.steps.map fun step =>
            { step with
              changes := step.changes.filter fun change =>
                !resources.contains change.resource }).filter fun step =>
                  !step.changes.isEmpty }
      else backup).filter fun backup => !backup.steps.isEmpty }

/-- The registration of a vault. -/
def Receipt.register (receipt : Receipt) (owner vault : String) : Receipt :=
  { receipt with
    vaults :=
      if receipt.vaults.contains (owner, vault) then receipt.vaults
      else receipt.vaults ++ [(owner, vault)] }

namespace Machine

variable (device : Device) (machine : Machine)

/-- `record_proxy_native`. -/
def recordProxyNative (owner vault : String) (tool : ToolId) (changes : List Change)
    (sources : List NativeSource) (markers : Markers) : Except RecoveryError Machine := do
  machine.ensureAttached owner
  machine.ensureWritable
  machine.receipt.steps.forM fun step =>
    if step.owner = owner ∧ step.tool = tool ∧ step.legacy ∧
        touches step.changes (changes.map Change.resource) then .error .unverified
    else if step.owner ≠ owner ∧ touches step.changes (changes.map Change.resource) then
      .error .otherOwner
    else .ok ()
  let receipt := machine.receipt.discardRetired owner (changes.map Change.resource)
  let step : Step := { owner, vault, tool, changes, sources, legacy := false, markers }
  machine.save device ({ receipt with steps := receipt.steps ++ [step] }.register owner vault)

/-- The legacy step of a tool is extended by the resources it does not have. -/
def auditStep (markers : Markers) (resources : List Resource) (step : Step) : Step :=
  { step with
    markers := step.markers.extend markers
    changes := resources.foldl (fun changes resource =>
      if changes.any fun change => change.resource = resource then changes
      else changes ++ [⟨resource, none, none⟩]) step.changes }

/-- The first element that is found is changed, or another is added. -/
def changeFirst {α : Type} (found : α → Bool) (change : α → α) (added : α) : List α → List α
  | [] => [added]
  | element :: rest =>
    if found element then change element :: rest
    else element :: changeFirst found change added rest

/-- `audit_with_markers`. -/
def audit (owner vault : String) (legacy : List (ToolId × List Resource)) (markers : Markers) :
    Except RecoveryError Machine := do
  machine.ensureWritable
  let steps := legacy.foldl (fun steps entry =>
    changeFirst
      (fun step =>
        step.owner = owner ∧ step.vault = vault ∧ step.tool = entry.1 ∧ step.legacy)
      (auditStep markers entry.2)
      { owner, vault, tool := entry.1, legacy := true, markers
        changes := entry.2.map fun resource => ⟨resource, none, none⟩ }
      steps) machine.receipt.steps
  machine.save device
    ({ machine.receipt with
        steps, detached := machine.receipt.detached.filter fun other => other ≠ owner }.register
      owner vault)

/-- `finish`. -/
def finish (owner : String) : Except RecoveryError Machine :=
  if machine.receipt.detached.contains owner then machine.save device machine.receipt
  else .error .notCompleted

/-- A completed step follows another of the same configurations, so both can be told as one. -/
def compactable (previous last : Step) : Bool :=
  previous.owner = last.owner ∧ previous.vault = last.vault ∧ previous.tool = last.tool ∧
    !previous.legacy ∧ previous.changes.length = last.changes.length ∧
    last.changes.all fun change =>
      previous.changes.any fun old => old.resource = change.resource ∧ old.after = change.before

/-- Two steps told as one. -/
def compacted (previous last : Step) : Step :=
  { last with
    changes := last.changes.map fun change =>
      match previous.changes.find? fun old => old.resource = change.resource with
      | some old => { change with before := old.before }
      | none => change
    sources := previous.sources
    markers := last.markers.extend previous.markers }

/-- Every resource of a step holds what the step wrote. -/
def verified (machine : Machine) : List Change → Except RecoveryError Bool
  | [] => .ok true
  | change :: rest => do
    let current ← machine.readResource change.resource
    if current ≠ change.after then .ok false else verified machine rest

/-- `commit`. -/
def commit : Except RecoveryError Machine :=
  match machine.receipt.steps.reverse with
  | last :: previous :: earlier =>
    if !last.sources.isEmpty || last.legacy then .ok machine
    else if !compactable previous last then .ok machine
    else do
      if ← machine.verified last.changes then
        machine.save device
          { machine.receipt with steps := earlier.reverse ++ [compacted previous last] }
      else return machine
  | _ => .ok machine

/-- The original of a change: what was recorded, unless a credential store that is archived has a
newer copy of the same account. -/
def original (sources : List NativeSource) (change : Change) : Except RecoveryError Content :=
  sources.foldlM (fun held source =>
    let archived :=
      if change.resource = source.active.primary then some source.archived.primary
      else if source.active.profile = some change.resource then source.archived.profile
      else none
    match archived with
    | none => .ok held
    | some resource => do
      let some primary ← machine.readResource source.archived.primary | .error .nativeAccount
      let profile ← match source.archived.profile with
        | none => .ok none
        | some profile => machine.readResource profile
      if device.identityFrom source.archived primary profile ≠ some (some source.identity) then
        .error .nativeAccount
      else if resource = source.archived.primary then .ok (some primary)
      else .ok profile) change.before

/-- What undoing a change of a step makes of what is there. -/
def undoChange (sources : List NativeSource) (change : Change) (current : Content) :
    Except RecoveryError Content := do
  let original ←
    if current ≠ change.before then machine.original device sources change else .ok change.before
  (undo device.formats change.resource original change.after current).mapError .undo

/-- Something is done to what a resource holds, or to what was made of it before. -/
def planOne (plan : List Change) (deed : Resource × (Content → Except RecoveryError Content)) :
    Except RecoveryError (List Change) := do
  let plan ←
    if plan.any fun planned => planned.resource = deed.1 then .ok plan
    else do
      let content ← machine.readResource deed.1
      .ok (plan ++ [⟨deed.1, content, content⟩])
  plan.mapM fun planned =>
    if planned.resource = deed.1 then do
      let after ← deed.2 planned.after
      return { planned with after }
    else return planned

/-- What a list of deeds makes of what the resources hold. -/
def planned (deeds : List (Resource × (Content → Except RecoveryError Content))) :
    Except RecoveryError (List Change) :=
  deeds.foldlM machine.planOne []

/-- An internal binding of native credentials. -/
def isBinding : Resource → Bool
  | .file path => fileExtension path = "aipbinding"
  | .keychain _ _ => false

/-- What undoes the steps of an installation, the latest first. -/
def undoing (owner : String) : List (Resource × (Content → Except RecoveryError Content)) :=
  (machine.receipt.steps.reverse.filter fun step => step.owner = owner).flatMap fun step =>
    step.changes.map fun change => (change.resource, machine.undoChange device step.sources change)

/-- The plan of an uninstall: the steps of the installation are undone in memory. Internal bindings
are removed. -/
def preflight (owner : String) : Except RecoveryError (List Change) := do
  let plan ← machine.planned (machine.undoing device owner)
  return plan.map fun change =>
    if isBinding change.resource then { change with after := none } else change

/-- What is still to be written of a transaction. -/
def remaining (tx : Transaction) : Except RecoveryError (List Change) := do
  let checked ← tx.changes.mapM fun change => do
    let current ← machine.readResource change.resource
    if current = change.before ∨ current = change.after then
      return { change with before := current }
    else .error .changedDuring
  return checked.filter fun change => change.before ≠ change.after

end Machine

/-- A transaction on the resources of a machine. -/
def onResources {α : Type} (program : Writer α) : Program Machine RecoveryError α :=
  program.within Machine.resources (fun resources machine => { machine with resources })
    RecoveryError.transaction

/-- The receipt without the steps of an installation, which is detached. -/
def Receipt.detach (receipt : Receipt) (owner : String) : Receipt :=
  { receipt with
    steps := receipt.steps.filter fun step => step.owner ≠ owner
    detached :=
      if receipt.detached.contains owner then receipt.detached else receipt.detached ++ [owner] }

/-- The transaction of an uninstall: the unfinished one, or a new one that is saved with the
marker. -/
def restoreTransaction (device : Device) (owner : String) (id : Uuid) :
    Program Machine RecoveryError Transaction := do
  let machine ← Program.read
  match machine.pending with
  | some id =>
    match machine.transactions.find? fun entry => entry.1 = id with
    | none => Program.fail .invalidPending
    | some (_, other, tx) => if other = owner then return tx else Program.fail .otherUninstall
  | none =>
    let changes ← Program.ofExcept (machine.preflight device owner)
    let tx : Transaction := ⟨id, false, changes⟩
    Program.write fun machine =>
      { machine with transactions := (id, owner, tx) :: machine.transactions }
    Program.write fun machine => { machine with pending := some id }
    return tx

/-- What follows the last write of an uninstall: the receipt is saved, and the marker and the
transaction are removed. -/
def restoreReceipt (device : Device) (owner : String) (id : Uuid) :
    Program Machine RecoveryError Unit := do
  let machine ← Program.read
  let saved ← Program.ofExcept (machine.save device (machine.receipt.detach owner))
  Program.write fun _ => saved
  Program.write fun machine => { machine with pending := none }
  Program.write fun machine =>
    { machine with transactions := machine.transactions.filter fun entry => entry.1 ≠ id }

/-- What follows the preparation of an uninstall: it resumes on either side of each write, and a
third value is an edit. -/
def restoreChanges (device : Device) (owner : String) (tx : Transaction) (applyId : Uuid) :
    Program Machine RecoveryError ℕ := do
  let machine ← Program.read
  let changes ← Program.ofExcept (machine.remaining tx)
  onResources (Transaction.apply ⟨applyId, false, changes⟩)
  restoreReceipt device owner tx.operationId
  return changes.length

/-- `restore`, with the identifiers drawn for its transactions. -/
def restore (device : Device) (owner : String) (id applyId : Uuid) :
    Program Machine RecoveryError ℕ := do
  let machine ← Program.read
  if machine.receipt.steps.any fun step => step.owner = owner ∧ step.legacy then
    Program.fail .unverified
  else
    let tx ← restoreTransaction device owner id
    restoreChanges device owner tx applyId

/-- A device on which nothing is parsed and every receipt is small. -/
def plainDevice : Device where
  formats :=
    { fromSlice := fun _ => none, toVecPretty := fun _ => [], parseToml := fun _ => none
      printToml := fun _ _ => [], renderToml := fun _ => "" }
  identityFrom := fun _ _ _ => none
  receiptBytes := fun receipt => receipt.steps.length

/-- A step that has recorded a launcher. -/
def launcherStep (tool : ToolId) (before after : Content) : Step :=
  { owner := "app", vault := "vault", tool, changes := [⟨.file "launcher", before, after⟩] }

/-- A machine on which tools have recorded a launcher. -/
def launcherMachine (steps : List Step) (held : Content) : Machine where
  resources := { held := fun _ => held }
  receipt := { steps, vaults := if steps.isEmpty then [] else [("app", "vault")] }

end Aipass.ConfigWriters
