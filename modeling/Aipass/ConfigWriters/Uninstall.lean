import Mathlib.Tactic.Set
import Aipass.ConfigWriters.Plans

/-!
# Uninstalling in peace

While nobody else writes and nothing fails, a transaction that finds what it expects is applied to
the end. An uninstall therefore goes through four phases, and each of its durable writes leaves it
in one of them: nothing is done; the transaction is marked and some of it written; the receipt is
saved; the marker is gone.
-/
namespace Aipass.ConfigWriters

open Shared

/-- Nobody else writes and nothing fails. -/
structure Peaceful (world : Resources) : Prop where
  intrusions : world.intrusions = []
  failures : world.failures = []

/-- Time passes in peace. -/
theorem Peaceful.arrive_eq {world : Resources} (peace : Peaceful world) : world.arrive = world := by
  obtain ⟨held, intrusions, failures, trace⟩ := world
  obtain ⟨none_, never⟩ := peace
  simp only at none_ never
  subst none_ never
  rfl

/-- In peace only what is unreadable blocks. -/
theorem Peaceful.blocked {world : Resources} (peace : Peaceful world) {resource : Resource}
    (readable : resource.readable (world.held resource)) :
    world.blocked Resource.readable resource = false := by
  rw [Shared.blocked, peace.arrive_eq, peace.failures, readable]
  rfl

/-- A look keeps the peace. -/
theorem Peaceful.note {world : Resources} (peace : Peaceful world) (resource : Resource) :
    Peaceful (world.note resource) := ⟨peace.intrusions, peace.failures⟩

/-- A write keeps the peace. -/
theorem Peaceful.set {world : Resources} (peace : Peaceful world)
    (happening : Resource → Content → Happening Resource Content) (resource : Resource)
    (content : Content) : Peaceful (world.set happening resource content) :=
  ⟨peace.intrusions, peace.failures⟩

/-- What holds of resources of which some have been written: each holds what it held, or what a
change writes to it. -/
def Between (changes : List Change) (initial held : Resource → Content) : Prop :=
  ∀ resource, held resource = initial resource ∨
    ∃ change ∈ changes, change.resource = resource ∧ held resource = change.after

/-- What holds of resources when some changes have been written: these, and nothing else. -/
structure Written (changes : List Change) (initial held : Resource → Content) : Prop where
  written : ∀ change ∈ changes, held change.resource = change.after
  others : ∀ resource, resource ∉ changes.map Change.resource → held resource = initial resource

/-- What has been written wholly has been written partly. -/
theorem Written.between {changes : List Change} {initial held : Resource → Content}
    (written : Written changes initial held) : Between changes initial held := by
  intro resource
  by_cases listed : resource ∈ changes.map Change.resource
  · obtain ⟨change, inside, same⟩ := List.mem_map.mp listed
    exact Or.inr ⟨change, inside, same, same ▸ written.written change inside⟩
  · exact Or.inl (written.others resource listed)

/-- Writing some changes only is writing partly. -/
theorem Between.mono {changes more : List Change} {initial held : Resource → Content}
    (between : Between changes initial held) (listed : ∀ change ∈ changes, change ∈ more) :
    Between more initial held :=
  fun resource => (between resource).imp id fun ⟨change, inside, same, after⟩ =>
    ⟨change, listed change inside, same, after⟩

/-- The next change is written. -/
theorem Written.next {visited : List Change} {initial : Resource → Content} (world : Resources)
    (written : Written visited initial world.held) (change : Change)
    (fresh : change.resource ∉ visited.map Change.resource) :
    Written (visited ++ [change]) initial
      (world.set .wrote change.resource change.after).held := by
  refine ⟨fun other inside => ?_, fun resource absent => ?_⟩
  · rcases List.mem_append.mp inside with earlier | own
    · have apart : other.resource ≠ change.resource := fun same =>
        fresh (same ▸ List.mem_map_of_mem earlier)
      simp [Shared.set, apart, written.written other earlier]
    · rw [List.mem_singleton.mp own]
      simp [Shared.set]
  · rw [List.map_append, List.mem_append, not_or] at absent
    have apart : resource ≠ change.resource := fun same => absent.2 (by simp [same])
    simp [Shared.set, apart, written.others resource absent.1]

/-- A transaction that finds what it expects is applied. -/
theorem wp_apply_peaceful (tx : Transaction) (distinct : (tx.changes.map Change.resource).Nodup)
    {world : Resources} (peace : Peaceful world)
    (found : ∀ change ∈ tx.changes, world.held change.resource = change.before ∧
      change.resource.readable change.before) :
    tx.apply.wp (fun left => Peaceful left ∧ Between tx.changes world.held left.held)
      (fun _ _ => False)
      (fun _ left => Peaceful left ∧ Written tx.changes world.held left.held) world := by
  have checks : ∀ change ∈ tx.changes, ∀ left : Resources, Peaceful left →
      left.held change.resource = change.before →
      ∀ {mid : Resources → Prop} {err : Refusal → Resources → Prop}
        {ok : Unit → Resources → Prop}, ok () (left.note change.resource) →
          change.checkBefore.wp mid err ok left := by
    intro change listed left calm same mid err ok after
    rw [wp_checkBefore, calm.blocked (by rw [same]; exact (found change listed).2), calm.arrive_eq]
    simpa [same] using after
  rw [Transaction.apply, Program.wp_bind]
  refine Program.wp_mono (Program.wp_forM tx.changes Change.checkBefore
    (fun _ left => Peaceful left ∧ left.held = world.held) ⟨peace, rfl⟩ ?_) (fun _ left => left)
    (fun _ _ left => left) ?_
  · rintro visited change rest split left ⟨calm, same⟩
    have listed : change ∈ tx.changes := by simp [split]
    exact checks change listed left calm (by rw [same, (found change listed).1])
      ⟨calm.note _, same⟩
  · rintro _ checked ⟨calm, same⟩
    refine Program.wp_mono (Program.wp_forM tx.changes tx.advance
      (fun visited left => Peaceful left ∧ Written visited world.held left.held)
      ⟨calm, by simp, fun resource _ => by rw [same]⟩ ?_) (fun _ left => left)
      (fun _ _ left => left) (fun _ left holds => holds)
    rintro visited change rest split left ⟨calm, written⟩
    have listed : change ∈ tx.changes := by simp [split]
    have fresh : change.resource ∉ visited.map Change.resource := by
      rw [split, List.map_append, List.map_cons] at distinct
      exact fun inside => (List.nodup_append.mp distinct).2.2 _ inside _
        (List.mem_cons_self ..) rfl
    have still : left.held change.resource = change.before :=
      (written.others _ fresh).trans (found change listed).1
    rw [Transaction.advance]
    split_ifs with unchanged
    · rw [Program.wp_pure]
      refine ⟨calm, fun other inside => ?_, fun resource absent => ?_⟩
      · rcases List.mem_append.mp inside with earlier | own
        · exact written.written other earlier
        · rw [List.mem_singleton.mp own, still, unchanged]
      · rw [List.map_append, List.mem_append, not_or] at absent
        exact written.others resource absent.1
    · rw [Program.wp_bind]
      refine checks change listed left calm still ?_
      have open_ : (left.note change.resource).blocked Resource.readable change.resource = false :=
        (calm.note _).blocked (by
          rw [show (left.note change.resource).held = left.held from rfl, still]
          exact (found change listed).2)
      rw [Program.wp_bind, Program.wp_attempt, wp_put, open_, (calm.note _).arrive_eq]
      have next : Written (visited ++ [change]) world.held
          ((left.note change.resource).set .wrote change.resource change.after).held :=
        Written.next (left.note change.resource) written change fresh
      refine ⟨⟨(calm.note _).set .wrote _ _, next.between.mono fun other inside => ?_⟩, ?_⟩
      · rw [split]
        rcases List.mem_append.mp inside with earlier | own
        · exact List.mem_append_left _ earlier
        · rw [List.mem_singleton.mp own]
          simp
      · exact (Program.wp_pure _).mpr ⟨(calm.note _).set .wrote _ _, next⟩

/-- What is still to be written of a transaction whose resources hold what they held or what it
writes. -/
theorem remaining_eq {machine : Machine} {tx : Transaction}
    (known : ∀ change ∈ tx.changes,
      (machine.resources.held change.resource = change.before ∨
        machine.resources.held change.resource = change.after) ∧
      change.resource.readable (machine.resources.held change.resource)) :
    machine.remaining tx = .ok ((tx.changes.map fun change =>
      { change with before := machine.resources.held change.resource }).filter fun change =>
        change.before ≠ change.after) := by
  rw [Machine.remaining, mapM_eq_map fun change =>
    { change with before := machine.resources.held change.resource }]
  · rfl
  · intro change listed
    obtain ⟨held, readable⟩ := known change listed
    rw [Machine.readResource, if_pos readable, ok_bind, if_pos held]
    rfl

/-- The receipt of an uninstall can be saved. -/
def Fits (device : Device) (receipt : Receipt) : Prop :=
  device.receiptBytes receipt < maxReceiptBytes

/-- What an uninstall leaves of a machine when its receipt is saved. -/
def Machine.detached (machine : Machine) (owner : String) (world : Resources) : Machine :=
  { machine with resources := world, receipt := machine.receipt.detach owner }

/-- A prepared uninstall has written some of its changes, and nothing else has happened. -/
def Resumed (machine : Machine) (tx : Transaction) (left : Machine) : Prop :=
  ∃ world, Peaceful world ∧ Between tx.changes machine.resources.held world.held ∧
    left = { machine with resources := world }

/-- A prepared uninstall has written all of its changes, but its receipt cannot be saved. -/
def Overfull (device : Device) (owner : String) (machine : Machine) (tx : Transaction)
    (left : Machine) : Prop :=
  ¬ Fits device (machine.receipt.detach owner) ∧ ∃ world, Peaceful world ∧
    Written tx.changes machine.resources.held world.held ∧
    left = { machine with resources := world }

/-- An uninstall has saved its receipt, and the marker and the transaction are there or not. -/
def Saved (device : Device) (owner : String) (machine : Machine) (tx : Transaction)
    (pending : Option Uuid) (transactions : List (Uuid × String × Transaction))
    (left : Machine) : Prop :=
  Fits device (machine.receipt.detach owner) ∧ ∃ world, Peaceful world ∧
    Written tx.changes machine.resources.held world.held ∧
    left = { machine.detached owner world with pending, transactions }

/-- What an uninstall is done with. -/
def Machine.unlisted (machine : Machine) (tx : Transaction) :
    List (Uuid × String × Transaction) :=
  machine.transactions.filter fun entry => entry.1 ≠ tx.operationId

/-- A prepared uninstall writes what remains, saves its receipt and removes its marker and its
transaction. -/
theorem wp_restoreChanges (device : Device) (owner : String) (applyId : Uuid) {machine : Machine}
    {tx : Transaction} (peace : Peaceful machine.resources)
    (distinct : (tx.changes.map Change.resource).Nodup)
    (known : ∀ change ∈ tx.changes,
      (machine.resources.held change.resource = change.before ∨
        machine.resources.held change.resource = change.after) ∧
      change.resource.readable (machine.resources.held change.resource)) :
    (restoreChanges device owner tx applyId).wp
      (fun left => Resumed machine tx left ∨
        Saved device owner machine tx machine.pending machine.transactions left ∨
        Saved device owner machine tx none machine.transactions left ∨
        Saved device owner machine tx none (machine.unlisted tx) left)
      (fun error left => error = .full ∧ Overfull device owner machine tx left)
      (fun _ left => Saved device owner machine tx none (machine.unlisted tx) left)
      machine := by
  rw [restoreChanges]
  simp only [Program.wp_bind, Program.wp_read, Program.wp_ofExcept, remaining_eq known]
  set changes := (tx.changes.map fun change =>
    { change with before := machine.resources.held change.resource }).filter fun change =>
      change.before ≠ change.after with shape
  have origin : ∀ change ∈ changes, ∃ source ∈ tx.changes, change =
      { source with before := machine.resources.held source.resource } := by
    intro change inside
    obtain ⟨source, listed, same⟩ := List.mem_map.mp (List.mem_filter.mp inside).1
    exact ⟨source, listed, same.symm⟩
  have apart : (changes.map Change.resource).Nodup := by
    have resources : (tx.changes.map fun change =>
        { change with before := machine.resources.held change.resource }).map Change.resource =
          tx.changes.map Change.resource := by
      rw [List.map_map]
      rfl
    exact (resources ▸ distinct).sublist (List.filter_sublist.map _)
  have partly : ∀ {held : Resource → Content}, Between changes machine.resources.held held →
      Between tx.changes machine.resources.held held := by
    intro held between resource
    refine (between resource).imp id ?_
    rintro ⟨change, inside, same, after⟩
    obtain ⟨source, listed, shape⟩ := origin change inside
    rw [shape] at same after
    exact ⟨source, listed, same, after⟩
  have wholly : ∀ {held : Resource → Content}, Written changes machine.resources.held held →
      Written tx.changes machine.resources.held held := by
    intro held written
    have own : ∀ change ∈ tx.changes, held change.resource = change.after := by
      intro change listed
      by_cases done : machine.resources.held change.resource = change.after
      · by_cases again : change.resource ∈ changes.map Change.resource
        · obtain ⟨other, inside, same⟩ := List.mem_map.mp again
          obtain ⟨source, other_, shape⟩ := origin other inside
          have equal : source = change := by
            refine List.inj_on_of_nodup_map distinct other_ listed ?_
            rw [← same, shape]
          have after := written.written other inside
          rw [shape, equal] at after
          exact after
        · rw [written.others _ again, done]
      · refine written.written
          { change with before := machine.resources.held change.resource } ?_
        rw [shape, List.mem_filter]
        exact ⟨List.mem_map.mpr ⟨change, listed, rfl⟩, by simpa using done⟩
    refine ⟨own, fun resource absent => written.others resource fun inside => absent ?_⟩
    obtain ⟨other, inside, same⟩ := List.mem_map.mp inside
    obtain ⟨source, listed, shape⟩ := origin other inside
    exact List.mem_map.mpr ⟨source, listed, by rw [← same, shape]⟩
  rw [onResources, Program.wp_within]
  refine Program.wp_mono (wp_apply_peaceful ⟨applyId, false, changes⟩ apart peace ?_) ?_ ?_ ?_
  · intro change inside
    obtain ⟨source, listed, shape⟩ := origin change inside
    rw [shape]
    exact ⟨rfl, (known source listed).2⟩
  · rintro world ⟨calm, between⟩
    exact Or.inl ⟨world, calm, partly between, rfl⟩
  · exact fun _ _ never => never.elim
  · rintro _ world ⟨calm, written⟩
    have whole := wholly written
    rw [restoreReceipt]
    simp only [Program.wp_bind, Program.wp_read, Program.wp_ofExcept, Machine.save]
    by_cases fits : Fits device (machine.receipt.detach owner)
    · rw [if_pos (show device.receiptBytes (machine.receipt.detach owner) < maxReceiptBytes
        from fits)]
      simp only [Program.wp_write, Program.wp_pure]
      exact ⟨Or.inr (Or.inl ⟨fits, world, calm, whole, rfl⟩),
        Or.inr (Or.inr (Or.inl ⟨fits, world, calm, whole, rfl⟩)),
        Or.inr (Or.inr (Or.inr ⟨fits, world, calm, whole, rfl⟩)), fits, world, calm, whole, rfl⟩
    · rw [if_neg (show ¬ device.receiptBytes (machine.receipt.detach owner) < maxReceiptBytes
        from fits)]
      exact ⟨rfl, fits, world, calm, whole, rfl⟩

/-- What an uninstall makes of a change of its plan. -/
def Change.unbound (change : Change) : Change :=
  if Machine.isBinding change.resource then { change with after := none } else change

/-- A binding is removed where it is. -/
@[simp] theorem Change.unbound_resource (change : Change) :
    change.unbound.resource = change.resource := by
  unfold unbound
  split <;> rfl

/-- A binding is removed from what is there. -/
@[simp] theorem Change.unbound_before (change : Change) :
    change.unbound.before = change.before := by
  unfold unbound
  split <;> rfl

/-- The plan of an uninstall is made, or one of its resources is the reason why not. -/
theorem preflight_cases (device : Device) (machine : Machine) (owner : String) :
    (∃ error, machine.preflight device owner = .error error ∧
      ∃ resource ∈ (machine.undoing device owner).map Prod.fst,
        machine.settled (machine.undoing device owner) resource = .error error) ∨
    ∃ plan, machine.preflight device owner = .ok (plan.map Change.unbound) ∧
      machine.Plans (machine.undoing device owner) plan := by
  rcases Machine.planned_cases machine (machine.undoing device owner) with
    ⟨error, failed, reason⟩ | ⟨plan, planned, plans⟩
  · refine Or.inl ⟨error, ?_, reason⟩
    rw [Machine.preflight, failed]
    rfl
  · refine Or.inr ⟨plan, ?_, plans⟩
    rw [Machine.preflight, planned]
    rfl

/-- A machine whose uninstall has been prepared. -/
def Machine.prepared (machine : Machine) (owner : String) (tx : Transaction) : Machine :=
  { machine with
    pending := some tx.operationId
    transactions := (tx.operationId, owner, tx) :: machine.transactions }

section Restore

variable (device : Device) (owner : String) (id applyId : Uuid) {machine : Machine}

/-- An installation without legacy steps can be uninstalled. -/
theorem wp_restore (attached : ∀ step ∈ machine.receipt.steps, step.owner = owner → ¬ step.legacy)
    {mid : Machine → Prop} {err : RecoveryError → Machine → Prop} {ok : ℕ → Machine → Prop} :
    (restore device owner id applyId).wp mid err ok machine ↔
      (restoreTransaction device owner id).wp mid err
        (fun tx left => (restoreChanges device owner tx applyId).wp mid err ok left) machine := by
  rw [restore, Program.wp_bind, Program.wp_read, if_neg, Program.wp_bind]
  rw [List.any_eq_true]
  rintro ⟨step, listed, legacy⟩
  have both := of_decide_eq_true legacy
  exact attached step listed both.1 both.2

/-- Without an unfinished uninstall, the plan is made and saved with the marker. -/
theorem wp_restoreTransaction_fresh (idle : machine.pending = none)
    {mid : Machine → Prop} {err : RecoveryError → Machine → Prop}
    {ok : Transaction → Machine → Prop} :
    (restoreTransaction device owner id).wp mid err ok machine ↔
      match machine.preflight device owner with
      | .error error => err error machine
      | .ok changes =>
        mid { machine.prepared owner ⟨id, false, changes⟩ with pending := none } ∧
        mid (machine.prepared owner ⟨id, false, changes⟩) ∧
        ok ⟨id, false, changes⟩ (machine.prepared owner ⟨id, false, changes⟩) := by
  obtain ⟨resources, receipt, pending, transactions⟩ := machine
  simp only at idle
  subst idle
  rw [restoreTransaction]
  simp only [Program.wp_bind, Program.wp_read, Program.wp_ofExcept]
  cases Machine.preflight device ⟨resources, receipt, none, transactions⟩ owner with
  | error error => exact Iff.rfl
  | ok changes =>
    simp only [Program.wp_write, Program.wp_pure]
    exact Iff.rfl

/-- With an unfinished uninstall of the installation, its transaction is taken up. -/
theorem wp_restoreTransaction_resumed {tx : Transaction}
    (marked : machine.pending = some tx.operationId)
    (listed : (machine.transactions.find? fun entry => entry.1 = tx.operationId) =
      some (tx.operationId, owner, tx))
    {mid : Machine → Prop} {err : RecoveryError → Machine → Prop}
    {ok : Transaction → Machine → Prop} :
    (restoreTransaction device owner id).wp mid err ok machine ↔ ok tx machine := by
  rw [restoreTransaction]
  simp only [Program.wp_bind, Program.wp_read, marked, listed, if_true, Program.wp_pure]

/-- An uninstall whose plan is not made changes nothing; otherwise it writes its plan, even if its
receipt cannot be saved. -/
theorem wp_restore_idle (peace : Peaceful machine.resources) (idle : machine.pending = none)
    (attached : ∀ step ∈ machine.receipt.steps, step.owner = owner → ¬ step.legacy) :
    match machine.preflight device owner with
    | .error error => (restore device owner id applyId).wp (fun _ => False)
        (fun raised left => raised = error ∧ left = machine) (fun _ _ => False) machine
    | .ok changes =>
      let tx : Transaction := ⟨id, false, changes⟩
      let prepared := machine.prepared owner tx
      (restore device owner id applyId).wp
        (fun left => left = { prepared with pending := none } ∨ Resumed prepared tx left ∨
          Saved device owner prepared tx (some id) prepared.transactions left ∨
          Saved device owner prepared tx none prepared.transactions left ∨
          Saved device owner prepared tx none (prepared.unlisted tx) left)
        (fun error left => error = .full ∧ Overfull device owner prepared tx left)
        (fun _ left => Saved device owner prepared tx none (prepared.unlisted tx) left)
        machine := by
  have plans := preflight_cases device machine owner
  cases planned : machine.preflight device owner with
  | error error =>
    simp only
    rw [wp_restore device owner id applyId attached,
      wp_restoreTransaction_fresh device owner id idle, planned]
    exact ⟨rfl, rfl⟩
  | ok changes =>
    simp only
    rw [planned] at plans
    rcases plans with ⟨error, failed, -⟩ | ⟨plan, same, plans⟩
    · cases failed
    · cases same
      rw [wp_restore device owner id applyId attached,
        wp_restoreTransaction_fresh device owner id idle, planned]
      have world : Resumed (machine.prepared owner ⟨id, false, plan.map Change.unbound⟩)
          ⟨id, false, plan.map Change.unbound⟩
          (machine.prepared owner ⟨id, false, plan.map Change.unbound⟩) :=
        ⟨machine.resources, peace, fun _ => Or.inl rfl, rfl⟩
      refine ⟨Or.inl rfl, Or.inr (Or.inl world), ?_⟩
      refine Program.wp_mono (wp_restoreChanges device owner applyId
        (show Peaceful (machine.prepared owner ⟨id, false, plan.map Change.unbound⟩).resources
          from peace) ?_ ?_)
        (fun _ left => Or.inr left) (fun _ _ left => left) (fun _ _ left => left)
      · rw [List.map_map]
        have same : Change.resource ∘ Change.unbound = Change.resource :=
          funext Change.unbound_resource
        rw [same]
        exact plans.distinct
      · intro change inside
        obtain ⟨source, listed, same⟩ := List.mem_map.mp inside
        have read := plans.before source listed
        rw [Machine.readResource] at read
        split at read
        · rename_i readable
          rw [← same, Change.unbound_resource, Change.unbound_before]
          exact ⟨Or.inl (Except.ok.inj read), readable⟩
        · cases read

/-- What the resources hold after an uninstall. -/
theorem restore_held (peace : Peaceful machine.resources) (idle : machine.pending = none)
    (attached : ∀ step ∈ machine.receipt.steps, step.owner = owner → ¬ step.legacy) :
    match machine.preflight device owner with
    | .error _ => ((restore device owner id applyId).run machine).final = machine
    | .ok changes => Written changes machine.resources.held
        ((restore device owner id applyId).run machine).final.resources.held := by
  have whole := wp_restore_idle device owner id applyId peace idle attached
  cases planned : machine.preflight device owner with
  | error error =>
    rw [planned] at whole
    exact Program.wp_final (fun left => left = machine) (fun _ => False)
      (Program.wp_mono whole (fun _ never => never) (fun _ _ left => left.2)
        (fun _ _ never => never.elim))
  | ok changes =>
    rw [planned] at whole
    refine Program.wp_final
      (fun left => Written changes machine.resources.held left.resources.held)
      (fun _ => True) (Program.wp_mono whole (fun _ _ => trivial) ?_ ?_)
    · rintro _ left ⟨-, -, world, -, written, rfl⟩
      exact written
    · rintro _ left ⟨-, world, -, written, rfl⟩
      exact written

/-- Two machines with the same resources whose installations undo the same on each resource are
uninstalled to the same. -/
theorem restore_held_eq {other : Machine} (same : other.resources = machine.resources)
    (peace : Peaceful machine.resources) (idle : machine.pending = none)
    (otherIdle : other.pending = none)
    (attached : ∀ step ∈ machine.receipt.steps, step.owner = owner → ¬ step.legacy)
    (otherAttached : ∀ step ∈ other.receipt.steps, step.owner = owner → ¬ step.legacy)
    (deeds : ∀ resource, resource ∈ (other.undoing device owner).map Prod.fst ↔
      resource ∈ (machine.undoing device owner).map Prod.fst)
    (settled : ∀ resource, other.settled (other.undoing device owner) resource =
      machine.settled (machine.undoing device owner) resource) :
    ((restore device owner id applyId).run other).final.resources.held =
      ((restore device owner id applyId).run machine).final.resources.held := by
  have own := restore_held device owner id applyId peace idle attached
  have others := restore_held device owner id applyId (same ▸ peace) otherIdle otherAttached
  rcases preflight_cases device machine owner with
    ⟨error, failed, resource, listed, fails⟩ | ⟨plan, planned, plans⟩
  · rcases preflight_cases device other owner with
      ⟨_, otherFailed, -⟩ | ⟨otherPlan, -, otherPlans⟩
    · rw [failed] at own
      rw [otherFailed] at others
      rw [own, others, same]
    · obtain ⟨change, inside, shape⟩ := List.mem_map.mp
        ((otherPlans.covers resource).mpr ((deeds resource).mpr listed))
      have after := otherPlans.after change inside
      rw [shape, settled, fails] at after
      cases after
  · rcases preflight_cases device other owner with
      ⟨error, otherFailed, resource, listed, fails⟩ | ⟨otherPlan, otherPlanned, otherPlans⟩
    · obtain ⟨change, inside, shape⟩ := List.mem_map.mp
        ((plans.covers resource).mpr ((deeds resource).mp listed))
      have after := plans.after change inside
      rw [shape, ← settled, fails] at after
      cases after
    · rw [planned] at own
      rw [otherPlanned] at others
      simp only at own others
      have unbound : ∀ changes : List Change, (changes.map Change.unbound).map Change.resource =
          changes.map Change.resource := fun changes => by
        rw [List.map_map]
        exact congrArg (List.map · changes) (funext Change.unbound_resource)
      funext resource
      by_cases listed : resource ∈ plan.map Change.resource
      · obtain ⟨change, inside, shape⟩ := List.mem_map.mp listed
        obtain ⟨twin, twinInside, twinShape⟩ := List.mem_map.mp
          ((otherPlans.covers resource).mpr ((deeds resource).mpr
            ((plans.covers resource).mp listed)))
        have after := plans.after change inside
        have twinAfter := otherPlans.after twin twinInside
        rw [twinShape, settled, ← shape, after] at twinAfter
        have left := own.written _ (List.mem_map_of_mem inside)
        have right := others.written _ (List.mem_map_of_mem twinInside)
        rw [Change.unbound_resource] at left right
        rw [shape] at left
        rw [twinShape] at right
        rw [left, right]
        unfold Change.unbound
        rw [shape, twinShape]
        split
        · rfl
        · exact (Except.ok.inj twinAfter).symm
      · have absent : resource ∉ otherPlan.map Change.resource := fun inside =>
          listed ((plans.covers resource).mpr ((deeds resource).mp
            ((otherPlans.covers resource).mp inside)))
        rw [own.others resource (unbound plan ▸ listed),
          others.others resource (unbound otherPlan ▸ absent), same]

end Restore
end Aipass.ConfigWriters
