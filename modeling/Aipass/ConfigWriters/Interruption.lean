import Aipass.Base.Run
import Aipass.ConfigWriters.History
import Aipass.ConfigWriters.Uninstall

/-!
# Interrupted uninstalls

An uninstall can be interrupted after each of its durable writes, and be called again. Until it has
saved its receipt it goes on where it stopped; afterwards nothing is left to be written. But if it
is interrupted right between the saving of the receipt and the removal of the marker, the old plan
is taken up once more, and an edit of a restored file then stops it for good.
-/
namespace Aipass.ConfigWriters

/-- What happens to an installation that is being uninstalled. -/
inductive UninstallAct
  /-- `restore` is called, and stops after one of its durable writes, or is done. -/
  | stop (id applyId : Uuid) (left : Machine)
  /-- The files are edited. -/
  | edit (held : Resource → Content)

/-- The resources of a machine are edited. -/
def Machine.edited (machine : Machine) (held : Resource → Content) : Machine :=
  { machine with resources := { machine.resources with held } }

/-- An uninstall that is called over and over again. The files are edited only once the receipt has
been saved. -/
def uninstalls (device : Device) (owner : String) (base : Machine) :
    System Machine UninstallAct where
  init machine := machine = base
  step machine act next :=
    match act with
    | .stop id applyId left => left ∈ (restore device owner id applyId).stops machine ∧ next = left
    | .edit held =>
      machine.receipt = base.receipt.detach owner ∧ next = machine.edited held

/-- The files of an unfinished uninstall can be read: what was restored is not too large. -/
def Machine.Resumable (machine : Machine) : Prop :=
  ∀ id, machine.pending = some id → ∀ entry,
    (machine.transactions.find? fun entry => entry.1 = id) = some entry →
      ∀ change ∈ entry.2.2.changes,
        change.resource.readable (machine.resources.held change.resource)

/-- A call has stopped between saving the receipt and removing the marker. -/
def Halfway (machine left : Machine) : Prop :=
  left.pending ≠ none ∧ left.receipt ≠ machine.receipt

/-- What a plan says of the resources. -/
structure Prepares (base : Machine) (plan : List Change) : Prop where
  distinct : (plan.map Change.resource).Nodup
  found : ∀ change ∈ plan, base.resources.held change.resource = change.before ∧
    change.resource.readable change.before

/-- How far an uninstall has come whose marker is there. -/
inductive Stage (owner : String) (base : Machine) (plan : List Change) (calm : Prop)
    (tx : Transaction) (machine : Machine) : Prop
  /-- Some of the plan is written. -/
  | written (changes : tx.changes = plan) (receipt : machine.receipt = base.receipt)
      (between : Between plan base.resources.held machine.resources.held)
  /-- The receipt is saved. -/
  | saved (changes : tx.changes = [] ∨ calm ∧ tx.changes = plan)
      (receipt : machine.receipt = base.receipt.detach owner)
      (held : calm → Written plan base.resources.held machine.resources.held)

/-- Where an interrupted uninstall is. -/
inductive Phase (owner : String) (base : Machine) (plan : List Change) (calm : Prop)
    (machine : Machine) : Prop
  /-- Nothing is done. -/
  | before (idle : machine.pending = none) (receipt : machine.receipt = base.receipt)
      (held : machine.resources.held = base.resources.held)
  /-- The marker is there. -/
  | underway (tx : Transaction) (marked : machine.pending = some tx.operationId)
      (listed : (machine.transactions.find? fun entry => entry.1 = tx.operationId) =
        some (tx.operationId, owner, tx))
      (stage : Stage owner base plan calm tx machine)
  /-- The receipt is saved, and the marker is gone. -/
  | gone (idle : machine.pending = none) (receipt : machine.receipt = base.receipt.detach owner)
      (held : calm → Written plan base.resources.held machine.resources.held)

variable {device : Device} {owner : String} {base machine : Machine} {plan : List Change}
  {calm : Prop}

/-- A plan finds what the resources hold. -/
theorem prepares_of_preflight (planned : machine.preflight device owner = .ok plan) :
    Prepares machine plan := by
  rcases preflight_cases device machine owner with ⟨error, failed, -⟩ | ⟨changes, same, plans⟩
  · rw [planned] at failed
    cases failed
  · rw [planned] at same
    cases same
    refine ⟨?_, fun change inside => ?_⟩
    · rw [List.map_map]
      exact (congrArg (List.map · changes) (funext Change.unbound_resource)) ▸ plans.distinct
    · obtain ⟨source, listed, same⟩ := List.mem_map.mp inside
      have read := plans.before source listed
      rw [Machine.readResource] at read
      split at read
      · rename_i readable
        rw [← same, Change.unbound_resource, Change.unbound_before, ← Except.ok.inj read]
        exact ⟨rfl, readable⟩
      · cases read

/-- A plan depends on the receipt and on what the resources hold. -/
theorem preflight_congr (receipt : machine.receipt = base.receipt)
    (held : machine.resources.held = base.resources.held) :
    machine.preflight device owner = base.preflight device owner := by
  obtain ⟨⟨_, _, _, _⟩, _, _, _⟩ := machine
  obtain ⟨⟨_, _, _, _⟩, _, _, _⟩ := base
  cases receipt
  cases held
  rfl

/-- An installation without steps has nothing to undo. -/
theorem preflight_nil (none_ : ∀ step ∈ machine.receipt.steps, step.owner ≠ owner) :
    machine.preflight device owner = .ok [] := by
  have silent : (machine.receipt.steps.reverse.filter fun step => step.owner = owner) = [] :=
    List.filter_eq_nil_iff.mpr fun step listed => by
      simpa using none_ step (List.mem_reverse.mp listed)
  rw [Machine.preflight, Machine.undoing, silent]
  rfl

/-- A detached receipt has no steps of the installation. -/
theorem owner_of_detach {receipt : Receipt} :
    ∀ step ∈ (receipt.detach owner).steps, step.owner ≠ owner := fun _ listed =>
  of_decide_eq_true (List.mem_filter.mp listed).2

/-- An installation is detached once. -/
@[simp] theorem detach_detach (receipt : Receipt) :
    (receipt.detach owner).detach owner = receipt.detach owner := by
  unfold Receipt.detach
  simp only [List.filter_filter, Bool.and_self]
  congr 1
  by_cases listed : owner ∈ receipt.detached <;> simp [listed]

section Writes

variable {initial middle last : Resource → Content}

/-- Writing partly, twice, is writing partly. -/
theorem Between.trans (first : Between plan initial middle) (second : Between plan middle last) :
    Between plan initial last := fun resource =>
  (second resource).elim (fun same => (first resource).imp (same.trans ·)
    fun ⟨change, listed, own, after⟩ => ⟨change, listed, own, same.trans after⟩) Or.inr

/-- Writing the rest is writing all. -/
theorem Between.written (first : Between plan initial middle) (second : Written plan middle last) :
    Written plan initial last := by
  refine ⟨second.written, fun resource absent => (second.others resource absent).trans ?_⟩
  rcases first resource with same | ⟨change, listed, own, -⟩
  · exact same
  · exact absurd (List.mem_map.mpr ⟨change, listed, own⟩) absent

/-- What is written wholly is not changed by writing it again. -/
theorem Written.again (first : Written plan initial middle) (second : Between plan middle last) :
    last = middle := by
  funext resource
  rcases second resource with same | ⟨change, listed, own, after⟩
  · exact same
  · rw [after, ← own, first.written change listed]

/-- Writing nothing changes nothing. -/
theorem Between.nothing (none_ : Between [] initial last) : last = initial :=
  funext fun resource => (none_ resource).elim id fun ⟨_, listed, _⟩ => absurd listed (by simp)

/-- A plan is written in one way only. -/
theorem Written.unique (first : Written plan initial middle) (second : Written plan initial last) :
    middle = last := by
  funext resource
  by_cases listed : resource ∈ plan.map Change.resource
  · obtain ⟨change, inside, same⟩ := List.mem_map.mp listed
    rw [← same, first.written change inside, second.written change inside]
  · rw [first.others resource listed, second.others resource listed]

end Writes

/-- What a call of an uninstall needs of an installation that could be uninstalled. -/
structure Uninstallable (device : Device) (owner : String) (base : Machine) (plan : List Change) :
    Prop where
  attached : ∀ step ∈ base.receipt.steps, step.owner = owner → ¬ step.legacy
  planned : base.preflight device owner = .ok plan
  fits : Fits device (base.receipt.detach owner)

/-- An installation without steps has an empty plan. -/
theorem Uninstallable.nothing (able : Uninstallable device owner base plan)
    (detached : base.receipt = base.receipt.detach owner) : plan = [] := by
  have none_ : ∀ step ∈ base.receipt.steps, step.owner ≠ owner := by
    rw [detached]
    exact owner_of_detach
  have planned := able.planned
  rw [preflight_nil none_] at planned
  exact (Except.ok.inj planned).symm

/-- What a call leaves behind when it is done. -/
structure Finished (owner : String) (base : Machine) (plan : List Change) (calm : Prop)
    (machine left : Machine) : Prop where
  idle : left.pending = none
  receipt : left.receipt = base.receipt.detach owner
  held : calm → Written plan base.resources.held left.resources.held
  untouched : machine.receipt = base.receipt.detach owner →
    left.resources.held = machine.resources.held

/-- A prepared transaction of the installation is first among its kind. -/
theorem find_prepared (machine : Machine) (owner : String) (tx : Transaction) :
    ((machine.prepared owner tx).transactions.find? fun entry => entry.1 = tx.operationId) =
      some (tx.operationId, owner, tx) := by
  simp [Machine.prepared]

/-- The receipt that an uninstall saves. -/
theorem Stage.detach {tx : Transaction} (stage : Stage owner base plan calm tx machine) :
    machine.receipt.detach owner = base.receipt.detach owner := by
  cases stage with
  | written _ receipt _ => rw [receipt]
  | saved _ receipt _ => rw [receipt, detach_detach]

/-- Writing more of a transaction leaves an uninstall at its stage. -/
theorem Stage.between {tx : Transaction} (stage : Stage owner base plan calm tx machine)
    {world : Resources} (between : Between tx.changes machine.resources.held world.held) :
    Stage owner base plan calm tx { machine with resources := world } := by
  cases stage with
  | written changes receipt first =>
    exact .written changes receipt (first.trans (changes ▸ between))
  | saved changes receipt held =>
    have same : world.held = machine.resources.held := by
      rcases changes with none_ | ⟨quiet, all⟩
      · exact (none_ ▸ between).nothing
      · exact (held quiet).again (all ▸ between)
    exact .saved changes receipt fun quiet => same ▸ held quiet

/-- Writing all of a transaction writes all of the plan. -/
theorem Stage.whole {tx : Transaction} (stage : Stage owner base plan calm tx machine)
    {world : Resources} (written : Written tx.changes machine.resources.held world.held) :
    calm → Written plan base.resources.held world.held := by
  intro quiet
  cases stage with
  | written changes _ first => exact first.written (changes ▸ written)
  | saved changes _ held =>
    rcases changes with none_ | ⟨-, all⟩
    · exact (none_ ▸ written.between).nothing ▸ held quiet
    · exact (held quiet).again (all ▸ written.between) ▸ held quiet

/-- Once the receipt is saved, nothing is written any more. -/
theorem Stage.untouched {tx : Transaction} (able : Uninstallable device owner base plan)
    (stage : Stage owner base plan calm tx machine)
    (detached : machine.receipt = base.receipt.detach owner) {world : Resources}
    (written : Written tx.changes machine.resources.held world.held) :
    world.held = machine.resources.held := by
  cases stage with
  | written changes receipt _ =>
    have none_ := changes.trans (able.nothing (receipt.symm.trans detached))
    exact (none_ ▸ written.between).nothing
  | saved changes _ held =>
    rcases changes with none_ | ⟨quiet, all⟩
    · exact (none_ ▸ written.between).nothing
    · exact (held quiet).again (all ▸ written.between)

/-- Saving the receipt brings an uninstall to its next stage, unless the call stops there. -/
theorem Stage.save {tx : Transaction} (able : Uninstallable device owner base plan)
    (stage : Stage owner base plan calm tx machine) {world : Resources} {left : Machine}
    (written : Written tx.changes machine.resources.held world.held)
    (receipt : left.receipt = base.receipt.detach owner) (held : left.resources = world)
    (marked : left.pending ≠ none) (fine : calm ∨ ¬ Halfway machine left) :
    Stage owner base plan calm tx left := by
  refine .saved ?_ receipt fun quiet => held ▸ stage.whole written quiet
  rcases stage with ⟨changes, before, -⟩ | ⟨changes, -, -⟩
  · rcases fine with quiet | whole
    · exact Or.inr ⟨quiet, changes⟩
    · have same : left.receipt = machine.receipt := by
        by_contra differ
        exact whole ⟨marked, differ⟩
      exact Or.inl (changes.trans (able.nothing (before.symm.trans (same.symm.trans receipt))))
  · exact changes

/-- A prepared uninstall goes on to its end. -/
theorem wp_restoreChanges_stage (applyId : Uuid) {tx : Transaction}
    (able : Uninstallable device owner base plan) (prepares : Prepares base plan)
    (peace : Peaceful machine.resources) (marked : machine.pending = some tx.operationId)
    (listed : (machine.transactions.find? fun entry => entry.1 = tx.operationId) =
      some (tx.operationId, owner, tx))
    (stage : Stage owner base plan calm tx machine)
    (readable : ∀ change ∈ tx.changes,
      change.resource.readable (machine.resources.held change.resource)) :
    (restoreChanges device owner tx applyId).wp
      (fun left => Peaceful left.resources ∧
        (calm ∨ ¬ Halfway machine left → Phase owner base plan calm left))
      (fun _ _ => False)
      (fun _ left => Peaceful left.resources ∧ Finished owner base plan calm machine left)
      machine := by
  have known : ∀ change ∈ tx.changes,
      (machine.resources.held change.resource = change.before ∨
        machine.resources.held change.resource = change.after) ∧
      change.resource.readable (machine.resources.held change.resource) := by
    intro change inside
    refine ⟨?_, readable change inside⟩
    rcases stage with ⟨changes, -, between⟩ | ⟨none_ | ⟨quiet, all⟩, -, held⟩
    · rw [changes] at inside
      rcases between change.resource with same | ⟨other, otherInside, own, after⟩
      · exact Or.inl (same.trans (prepares.found change inside).1)
      · have equal := List.inj_on_of_nodup_map prepares.distinct otherInside inside own
        exact Or.inr (equal ▸ after)
    · rw [none_] at inside
      cases inside
    · exact Or.inr ((held quiet).written change (all ▸ inside))
  have distinct : (tx.changes.map Change.resource).Nodup := by
    rcases stage with ⟨changes, -, -⟩ | ⟨none_ | ⟨-, all⟩, -, -⟩
    · exact changes ▸ prepares.distinct
    · rw [none_]
      exact List.nodup_nil
    · exact all ▸ prepares.distinct
  refine Program.wp_mono (wp_restoreChanges device owner applyId peace distinct known) ?_ ?_ ?_
  · rintro left (⟨world, calmly, between, rfl⟩ | ⟨-, world, calmly, written, rfl⟩ |
      ⟨-, world, calmly, written, rfl⟩ | ⟨-, world, calmly, written, rfl⟩)
    · exact ⟨calmly, fun _ => .underway tx marked listed (stage.between between)⟩
    · refine ⟨calmly, fun fine => .underway tx marked listed (stage.save able written stage.detach
        rfl ?_ fine)⟩
      change machine.pending ≠ none
      rw [marked]
      simp
    · exact ⟨calmly, fun _ => .gone rfl stage.detach (stage.whole written)⟩
    · exact ⟨calmly, fun _ => .gone rfl stage.detach (stage.whole written)⟩
  · rintro error left ⟨-, full, -⟩
    exact full (stage.detach ▸ able.fits)
  · rintro _ left ⟨-, world, calmly, written, rfl⟩
    exact ⟨calmly, rfl, stage.detach, stage.whole written,
      fun detached => stage.untouched able detached written⟩

/-- A call of an uninstall succeeds wherever the last one has stopped, and stops in some phase
again. -/
theorem wp_restore_phase (device : Device) (id applyId : Uuid)
    (able : Uninstallable device owner base plan)
    (prepares : Prepares base plan) (peace : Peaceful machine.resources)
    (phase : Phase owner base plan calm machine) (resumable : machine.Resumable) :
    (restore device owner id applyId).wp
      (fun left => Peaceful left.resources ∧
        (calm ∨ ¬ Halfway machine left → Phase owner base plan calm left))
      (fun _ _ => False)
      (fun _ left => Peaceful left.resources ∧ Finished owner base plan calm machine left)
      machine := by
  have fresh : ∀ changes, machine.pending = none → machine.preflight device owner = .ok changes →
      Phase owner base plan calm { machine.prepared owner ⟨id, false, changes⟩ with
        pending := none } →
      Stage owner base plan calm ⟨id, false, changes⟩
        (machine.prepared owner ⟨id, false, changes⟩) →
      (∀ step ∈ machine.receipt.steps, step.owner = owner → ¬ step.legacy) →
      (∀ change ∈ changes, change.resource.readable (machine.resources.held change.resource)) →
      (restore device owner id applyId).wp
        (fun left => Peaceful left.resources ∧
          (calm ∨ ¬ Halfway machine left → Phase owner base plan calm left))
        (fun _ _ => False)
        (fun _ left => Peaceful left.resources ∧ Finished owner base plan calm machine left)
        machine := by
    intro changes idle planned unmarked stage attached readable
    rw [wp_restore device owner id applyId attached,
      wp_restoreTransaction_fresh device owner id idle, planned]
    have listed := find_prepared machine owner ⟨id, false, changes⟩
    refine ⟨⟨peace, fun _ => unmarked⟩, ⟨peace, fun _ => .underway _ rfl listed stage⟩, ?_⟩
    refine Program.wp_mono (wp_restoreChanges_stage applyId able prepares peace rfl listed stage
      readable) (fun _ left => left) (fun _ _ never => never) ?_
    rintro _ left ⟨calmly, finished⟩
    exact ⟨calmly, finished.idle, finished.receipt, finished.held, finished.untouched⟩
  cases phase with
  | before idle receipt held =>
    refine fresh plan idle ((preflight_congr receipt held).trans able.planned)
      (.before rfl receipt held) (.written rfl receipt fun _ => Or.inl (by
        change machine.resources.held _ = _
        rw [held])) (receipt ▸ able.attached) fun change inside => ?_
    rw [held, (prepares.found change inside).1]
    exact (prepares.found change inside).2
  | underway tx marked listed stage =>
    have attached : ∀ step ∈ machine.receipt.steps, step.owner = owner → ¬ step.legacy := by
      rcases stage with ⟨-, receipt, -⟩ | ⟨-, receipt, -⟩
      · exact receipt ▸ able.attached
      · exact fun step inside own => absurd own (owner_of_detach step (receipt ▸ inside))
    rw [wp_restore device owner id applyId attached,
      wp_restoreTransaction_resumed device owner id marked listed]
    exact wp_restoreChanges_stage applyId able prepares peace marked listed stage
      (resumable _ marked _ listed)
  | gone idle receipt held =>
    have none_ : ∀ step ∈ machine.receipt.steps, step.owner ≠ owner := by
      rw [receipt]
      exact owner_of_detach
    exact fresh [] idle (preflight_nil none_) (.gone rfl receipt held)
      (.saved (Or.inl rfl) receipt held)
      (fun step inside own => absurd own (none_ step inside)) (by simp)

/-- An uninstall that succeeds has a plan, which it writes. -/
theorem uninstallable_of_ok {id applyId : Uuid} {count : ℕ} (peace : Peaceful base.resources)
    (idle : base.pending = none)
    (succeeds : ((restore device owner id applyId).run base).result = .ok count) :
    ∃ plan, Uninstallable device owner base plan ∧ Prepares base plan ∧
      Written plan base.resources.held
        ((restore device owner id applyId).run base).final.resources.held := by
  have attached : ∀ step ∈ base.receipt.steps, step.owner = owner → ¬ step.legacy := by
    intro step listed own legacy
    have refused : (restore device owner id applyId).wp (fun _ => True) (fun _ _ => True)
        (fun _ _ => False) base := by
      rw [restore, Program.wp_bind, Program.wp_read, if_pos, Program.wp_fail]
      · trivial
      · exact List.any_eq_true.mpr ⟨step, listed, decide_eq_true ⟨own, legacy⟩⟩
    exact Program.wp_ok refused succeeds
  have whole := wp_restore_idle device owner id applyId peace idle attached
  have held := restore_held device owner id applyId peace idle attached
  cases planned : base.preflight device owner with
  | error error =>
    rw [planned] at whole
    exact (Program.wp_ok whole succeeds).elim
  | ok plan =>
    rw [planned] at whole held
    obtain ⟨fits, -⟩ := Program.wp_ok whole succeeds
    exact ⟨plan, ⟨attached, planned, fits⟩, prepares_of_preflight planned, held⟩

/-- Until the files are edited, an interrupted uninstall is in some phase. -/
theorem phase_of_unedited {machine : Machine} (able : Uninstallable device owner base plan)
    (prepares : Prepares base plan) (peace : Peaceful base.resources) (idle : base.pending = none)
    (reached : (uninstalls device owner base).Reachable (fun machine act => match act with
      | .stop _ _ _ => machine.Resumable
      | .edit _ => False) machine) :
    Peaceful machine.resources ∧ Phase owner base plan True machine := by
  refine reached.invariant (fun machine => Peaceful machine.resources ∧
    Phase owner base plan True machine) ?_ ?_
  · rintro machine rfl
    exact ⟨peace, .before idle rfl rfl⟩
  · rintro machine act next ⟨calmly, phase⟩ meets stepped
    cases act with
    | edit held => exact meets.elim
    | stop id applyId left =>
      obtain ⟨stopped, rfl⟩ := stepped
      have call := wp_restore_phase device id applyId able prepares calmly phase meets
      obtain ⟨still, stage⟩ := Program.wp_stops call ⟨calmly, fun _ => phase⟩ _ stopped
      exact ⟨still, stage (Or.inl trivial)⟩

/-- An edit does not matter once the receipt is saved. -/
theorem Phase.edit (able : Uninstallable device owner base plan)
    (phase : Phase owner base plan False machine)
    (detached : machine.receipt = base.receipt.detach owner) (held : Resource → Content) :
    Phase owner base plan False (machine.edited held) ∧ (machine.edited held).Resumable := by
  have resumable : ∀ tx, (machine.transactions.find? fun entry => entry.1 = tx.operationId) =
      some (tx.operationId, owner, tx) → machine.pending = some tx.operationId →
      tx.changes = [] → (machine.edited held).Resumable := by
    intro tx listed marked none_ id pending entry found
    have same : tx.operationId = id := Option.some.inj (marked.symm.trans pending)
    subst same
    have entries := found.symm.trans listed
    rw [Option.some.inj entries]
    simp [none_]
  cases phase with
  | before idle receipt _ =>
    refine ⟨.gone idle detached False.elim, fun id pending => ?_⟩
    change machine.pending = some id at pending
    rw [idle] at pending
    cases pending
  | gone idle receipt _ =>
    refine ⟨.gone idle detached False.elim, fun id pending => ?_⟩
    change machine.pending = some id at pending
    rw [idle] at pending
    cases pending
  | underway tx marked listed stage =>
    have none_ : tx.changes = [] := by
      rcases stage with ⟨changes, receipt, -⟩ | ⟨none_ | ⟨never, -⟩, -, -⟩
      · exact changes.trans (able.nothing (receipt.symm.trans detached))
      · exact none_
      · exact never.elim
    exact ⟨.underway tx marked listed (.saved (Or.inl none_) detached False.elim),
      resumable tx listed marked none_⟩

/-- If no call stops halfway, an interrupted uninstall is in some phase, and the files may be
edited. -/
theorem phase_of_whole {machine : Machine} (able : Uninstallable device owner base plan)
    (prepares : Prepares base plan) (peace : Peaceful base.resources) (idle : base.pending = none)
    (reached : (uninstalls device owner base).Reachable (fun machine act => match act with
      | .stop _ _ left => machine.Resumable ∧ ¬ Halfway machine left
      | .edit _ => True) machine) :
    Peaceful machine.resources ∧ Phase owner base plan False machine := by
  refine reached.invariant (fun machine => Peaceful machine.resources ∧
    Phase owner base plan False machine) ?_ ?_
  · rintro machine rfl
    exact ⟨peace, .before idle rfl rfl⟩
  · rintro machine act next ⟨calmly, phase⟩ meets stepped
    cases act with
    | edit held =>
      obtain ⟨detached, rfl⟩ := stepped
      exact ⟨⟨calmly.intrusions, calmly.failures⟩, (phase.edit able detached held).1⟩
    | stop id applyId left =>
      obtain ⟨stopped, rfl⟩ := stepped
      have call := wp_restore_phase device id applyId able prepares calmly phase
        meets.1
      obtain ⟨still, stage⟩ := Program.wp_stops call ⟨calmly, fun _ => phase⟩ _ stopped
      exact ⟨still, stage (Or.inr meets.2)⟩

/-- The other operations of an installation on its receipt. -/
inductive Operation
  | record (vault : String) (tool : ToolId) (changes : List Change) (sources : List NativeSource)
      (markers : Markers)
  | audit (vault : String) (legacy : List (ToolId × List Resource)) (markers : Markers)
  | retire (tool : ToolId) (resources : List Resource) (operationId : Option Uuid)
      (credentials : List Resource)
  | reactivate (operationId : Uuid)
  | finish

/-- Whether an operation succeeds, or why not. -/
def Operation.result (device : Device) (owner : String) (machine : Machine) :
    Operation → Except RecoveryError Unit
  | record vault tool changes sources markers =>
    (machine.recordProxyNative device owner vault tool changes sources markers).map fun _ => ()
  | audit vault legacy markers =>
    (machine.audit device owner vault legacy markers).map fun _ => ()
  | retire tool resources operationId credentials =>
    ((retireInner device owner tool resources operationId credentials).run machine).result
  | reactivate operationId => (machine.reactivate device owner operationId).map fun _ => ()
  | finish => (machine.finish device owner).map fun _ => ()

/-- Saving does not look at the resources. -/
theorem save_edited (held : Resource → Content) (receipt : Receipt) :
    ((machine.edited held).save device receipt).map (fun _ => ()) =
      (machine.save device receipt).map fun _ => () := by
  unfold Machine.save
  split <;> rfl

/-- Retiring nothing only saves the receipt. -/
theorem retire_nothing (machine : Machine) {tool : ToolId} {resources : List Resource}
    {operationId : Option Uuid} {credentials : List Resource}
    (none_ : ∀ step ∈ machine.receipt.steps, step.owner ≠ owner) :
    ((retireInner device owner tool resources operationId credentials).run machine).result =
      machine.ensureWritable >>= fun _ => (machine.save device
        (machine.receipt.retire owner tool resources operationId [] [] [])).map fun _ => () := by
  have silent : machine.receipt.retiring owner tool resources = [] := by
    have mine : (machine.receipt.steps.filter fun step =>
        step.owner = owner ∧ step.tool = tool) = [] :=
      List.filter_eq_nil_iff.mpr fun step listed both =>
        none_ step listed (of_decide_eq_true both).1
    rw [Receipt.retiring, mine]
    rfl
  have left : machine.leftChanges device [] credentials = .ok [] := rfl
  have unresolved : machine.unresolvedLegacy [] = .ok [] := rfl
  rw [retireInner]
  simp only [bind, Program.andThen, Program.run, Program.read, Program.ofExcept, silent, left,
    unresolved]
  cases machine.ensureWritable with
  | error error => rfl
  | ok _ =>
    simp only [Except.bind]
    cases machine.save device (machine.receipt.retire owner tool resources operationId [] [] []) <;>
      rfl

/-- Without steps of the installation, its other operations do not look at the files. -/
theorem result_edited (none_ : ∀ step ∈ machine.receipt.steps, step.owner ≠ owner)
    (held : Resource → Content) (operation : Operation) :
    operation.result device owner (machine.edited held) =
      operation.result device owner machine := by
  have map_bind : ∀ {α β γ : Type} (first : Except RecoveryError α)
      (next : α → Except RecoveryError β) (change : β → γ),
      (first >>= next).map change = first >>= fun value => (next value).map change := by
    intro α β γ first next change
    cases first <;> rfl
  cases operation with
  | record vault tool changes sources markers =>
    simp only [Operation.result, Machine.recordProxyNative, map_bind]
    exact congrArg _ (funext fun _ => congrArg _ (funext fun _ => congrArg _
      (funext fun _ => save_edited held _)))
  | audit vault legacy markers =>
    simp only [Operation.result, Machine.audit, map_bind]
    exact congrArg _ (funext fun _ => save_edited held _)
  | retire tool resources operationId credentials =>
    rw [Operation.result, Operation.result, retire_nothing (machine.edited held) none_,
      retire_nothing machine none_]
    exact congrArg _ (funext fun _ => save_edited held _)
  | reactivate operationId =>
    simp only [Operation.result, Machine.reactivate, map_bind]
    refine congrArg _ (funext fun _ => congrArg _ (funext fun _ => ?_))
    rw [show (machine.edited held).receipt = machine.receipt from rfl]
    cases machine.receipt.retired.find? fun backup =>
      backup.owner = owner ∧ backup.operationId = operationId with
    | none => rfl
    | some backup =>
      simp only [map_bind]
      exact congrArg _ (funext fun _ => save_edited held _)
  | finish =>
    simp only [Operation.result, Machine.finish]
    change Except.map _ (if machine.receipt.detached.contains owner = true then _ else _) = _
    split
    · exact save_edited held _
    · rfl

/-- Whenever a call of an interrupted uninstall finds its unfinished files readable, it succeeds and
leaves the files as the uninterrupted uninstall does; and if no call stops between saving the
receipt and removing the marker, then once the receipt is saved no edit of the files matters any
more: each call succeeds and leaves the files alone, and the other operations of the installation
do what they do without the edits. -/
theorem interrupted_uninstall_completes (device : Device) (owner : String) {base : Machine}
    (peace : Peaceful base.resources) (idle : base.pending = none) {id applyId : Uuid} {count : ℕ}
    (succeeds : ((restore device owner id applyId).run base).result = .ok count) :
    (∀ machine, (uninstalls device owner base).Reachable (fun machine act => match act with
        | .stop _ _ _ => machine.Resumable
        | .edit _ => False) machine →
      machine.Resumable → ∀ again applyAgain,
        ∃ count, ((restore device owner again applyAgain).run machine).result = .ok count ∧
          ((restore device owner again applyAgain).run machine).final.resources.held =
            ((restore device owner id applyId).run base).final.resources.held) ∧
    (∀ machine, (uninstalls device owner base).Reachable (fun machine act => match act with
        | .stop _ _ left => machine.Resumable ∧ ¬ Halfway machine left
        | .edit _ => True) machine →
      machine.receipt = base.receipt.detach owner → ∀ held,
        (∀ again applyAgain, ∃ count,
          ((restore device owner again applyAgain).run (machine.edited held)).result = .ok count ∧
          ((restore device owner again applyAgain).run
            (machine.edited held)).final.resources.held = held) ∧
        ∀ operation : Operation, operation.result device owner (machine.edited held) =
          operation.result device owner machine) := by
  obtain ⟨plan, able, prepares, written⟩ := uninstallable_of_ok peace idle succeeds
  constructor
  · intro machine reached resumable again applyAgain
    obtain ⟨calmly, phase⟩ := phase_of_unedited able prepares peace idle reached
    have call := wp_restore_phase device again applyAgain able prepares calmly phase
      resumable
    obtain ⟨value, done⟩ | ⟨error, failed⟩ := exists_ok_or_error
      ((restore device owner again applyAgain).run machine).result
    · obtain ⟨-, finished⟩ := Program.wp_ok call done
      exact ⟨value, done, (finished.held trivial).unique written⟩
    · exact (Program.wp_error call failed).elim
  · intro machine reached detached held
    obtain ⟨calmly, phase⟩ := phase_of_whole able prepares peace idle reached
    obtain ⟨edited, resumable⟩ := phase.edit able detached held
    refine ⟨fun again applyAgain => ?_, fun operation => result_edited ?_ held operation⟩
    · have still : Peaceful (machine.edited held).resources :=
        ⟨calmly.intrusions, calmly.failures⟩
      have call := wp_restore_phase device again applyAgain able prepares still edited
        resumable
      obtain ⟨value, done⟩ | ⟨error, failed⟩ := exists_ok_or_error
        ((restore device owner again applyAgain).run (machine.edited held)).result
      · obtain ⟨-, finished⟩ := Program.wp_ok call done
        exact ⟨value, done, finished.untouched detached⟩
      · exact (Program.wp_error call failed).elim
    · rw [detached]
      exact owner_of_detach

/-- The machine on which a launcher is uninstalled. -/
def launcherBase : Machine := launcherMachine [launcherStep .codex (some [1]) (some [2])] (some [2])

/-- The launcher when the marker of its uninstall is written. -/
def launcherMarked : Machine :=
  launcherBase.prepared "app" ⟨1, false, [⟨.file "launcher", some [2], some [1]⟩]⟩

/-- An uninstall of the launcher that stops when its marker is written is completed. -/
theorem interrupted_launcher :
    ∃ count, ((restore plainDevice "app" 3 4).run launcherMarked).result = .ok count ∧
      ((restore plainDevice "app" 3 4).run launcherMarked).final.resources.held =
        ((restore plainDevice "app" 1 2).run launcherBase).final.resources.held := by
  have peace : Peaceful launcherBase.resources := ⟨rfl, rfl⟩
  have succeeds : ((restore plainDevice "app" 1 2).run launcherBase).result = .ok 1 := rfl
  have listed : ((restore plainDevice "app" 1 2).stops launcherBase)[2]? = some launcherMarked :=
    rfl
  have stopped : (uninstalls plainDevice "app" launcherBase).step launcherBase
      (.stop 1 2 launcherMarked) launcherMarked := ⟨List.mem_of_getElem? listed, rfl⟩
  have fresh : launcherBase.Resumable := fun _ pending => by cases pending
  have readable : launcherMarked.Resumable := by
    intro _ _ _ _ change _
    cases change.resource <;> rfl
  exact (interrupted_uninstall_completes plainDevice "app" peace rfl succeeds).1 launcherMarked
    (.step (.start rfl) fresh stopped) readable 3 4

/-- The launcher when the receipt of its uninstall is saved. -/
def launcherHalfway : Machine :=
  { launcherMarked with
    resources :=
      ((({ held := fun _ => some [2] } : Resources).note (.file "launcher")).note
        (.file "launcher")).set .wrote (.file "launcher") (some [1])
    receipt := launcherBase.receipt.detach "app" }

/-- An uninstall of the launcher that stops between saving the receipt and removing the marker fails
once the launcher is edited, and nothing else can be recorded. -/
theorem halfway_launcher :
    ((restore plainDevice "app" 1 2).run launcherBase).result = .ok 1 ∧
    launcherHalfway ∈ (restore plainDevice "app" 1 2).stops launcherBase ∧
    launcherHalfway.receipt = launcherBase.receipt.detach "app" ∧
    (∀ again applyAgain, ((restore plainDevice "app" again applyAgain).run
      (launcherHalfway.edited fun _ => some [9])).result = .error .changedDuring) ∧
    (launcherHalfway.edited fun _ => some [9]).ensureWritable = .error .unfinished := by
  have listed : ((restore plainDevice "app" 1 2).stops launcherBase)[4]? = some launcherHalfway :=
    rfl
  exact ⟨rfl, List.mem_of_getElem? listed, rfl, fun _ _ => rfl, rfl⟩

end Aipass.ConfigWriters
