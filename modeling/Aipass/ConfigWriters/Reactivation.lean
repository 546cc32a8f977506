import Aipass.ConfigWriters.Retirement

/-!
# Retiring and reactivating

A direct write retires what its tool has recorded of its resources, and a rollback reactivates it.
This gives each resource its sequence back exactly if no other tool has recorded a resource that was
retired: reactivating drops what is active on these resources, whatever tool has recorded it.
-/
namespace Aipass.ConfigWriters

variable {device : Device} {owner : String} {machine : Machine}

/-- No other tool has recorded a resource that a direct write retires. -/
def Exclusive (steps : List Step) (tool : ToolId) (resources : List Resource) : Prop :=
  ∀ resource ∈ resources,
    (∃ step ∈ steps, step.tool = tool ∧ step.recorded resource ≠ none) →
      ∀ step ∈ steps, step.recorded resource ≠ none → step.tool = tool

/-- While a write is retired, an uninstall undoes of what the direct write has left in a file what
the undos of the recorded writes undo, with conflicts and unmarked parts kept: what is owned and
nothing else. Credentials are left alone. -/
def KeepsOwned (device : Device) (owner : String) (tool : ToolId)
    (resources credentials : List Resource) (machine retired : Machine) : Prop :=
  ∀ resource ∈ resources,
    (∃ step ∈ machine.receipt.steps, step.tool = tool ∧ step.recorded resource ≠ none) →
      ∀ content, machine.readResource resource = .ok content →
        ∃ left, retired.settled (retired.undoing device owner) resource = .ok left ∧
          (resource ∈ credentials → left = content) ∧
          (resource ∉ credentials →
            (undosOn machine.receipt.steps resource).foldlM (fun current undo =>
              undoInner device.formats undo.mode resource undo.before undo.after current) content =
                .ok left ∧
            (resource.IsJson →
              (∀ undo ∈ undosOn machine.receipt.steps resource,
                device.formats.IsDocument undo.before ∧ device.formats.IsDocument undo.after) →
              ∀ reread, device.formats.ReadsBack reread →
                ∀ now, device.formats.parseJson content = .ok now →
                  ∃ document, device.formats.Shows left document ∧
                    Disowns device.formats reread (undosOn machine.receipt.steps resource) content
                      now document))

/-- Undoing a change that stands puts back what was there before it. -/
theorem undoChange_stands (device : Device) (machine : Machine) (resource : Resource)
    {before after : Content} (differ : after ≠ before) :
    machine.undoChange device [] ⟨resource, before, after⟩ after = .ok before := by
  have undone : undo device.formats resource before after after = .ok before := by
    rw [undo, undoInner, if_neg (by simp [Mode.unmarked]), if_neg (by tauto), if_pos rfl]
  rw [Machine.undoChange, if_pos differ]
  simp only [Machine.original, List.foldlM_nil, pure, Except.pure, ok_bind, undone]
  rfl

/-- While a write is retired, what it left owned is undone. -/
theorem keepsOwned_of_retire (own : OwnHistory owner machine) {tool : ToolId}
    {resources credentials : List Resource} (operationId : Uuid) {left : List Change}
    (planned : machine.leftChanges device (machine.receipt.retiring owner tool resources)
      credentials = .ok left)
    (exclusive : Exclusive machine.receipt.steps tool resources) :
    KeepsOwned device owner tool resources credentials machine { machine with
      receipt := machine.receipt.retire owner tool resources (some operationId)
        (machine.receipt.retiring owner tool resources) [] left } := by
  intro resource listed touched content read
  have others : recordedOn (machine.receipt.steps.filter fun step => step.tool = tool) resource =
      recordedOn machine.receipt.steps resource :=
    (recordedOn_filter_eq_iff ..).mpr fun step inside recorded =>
      decide_eq_true (exclusive resource listed touched step inside recorded)
  have retiring : recordedOn (machine.receipt.retiring owner tool resources) resource =
      recordedOn machine.receipt.steps resource := by
    rw [recordedOn_retiring_own own, if_pos listed, others]
  have recorded : recordedOn (machine.receipt.retiring owner tool resources) resource ≠ [] := by
    rw [retiring, recordedOn]
    obtain ⟨step, inside, -, some_⟩ := touched
    exact fun none_ => some_ (List.filterMap_eq_nil_iff.mp none_ step inside)
  have nonempty : machine.receipt.retiring owner tool resources ≠ [] := fun empty =>
    recorded (by rw [empty]; rfl)
  obtain ⟨distinct, public_, changed⟩ := leftChanges_ok own planned
  have after := own.retire tool resources operationId left
  have active : recordedOn (machine.receipt.retire owner tool resources (some operationId)
      (machine.receipt.retiring owner tool resources) [] left).steps resource =
        recordedOn (residualStep owner tool (machine.receipt.retiring owner tool resources) left)
          resource := by
    have gone : recordedOn (machine.receipt.steps.filter fun step =>
        !(step.tool = tool && resources.contains resource)) resource = [] := by
      rw [recordedOn, List.filterMap_eq_nil_iff]
      intro step inside
      obtain ⟨member, differ⟩ := List.mem_filter.mp inside
      by_contra some_
      have same := exclusive resource listed touched step member some_
      simp [same, listed] at differ
    rw [recordedOn_retire own.active, gone, List.nil_append]
  have settles : ∀ last, Machine.settledFrom (({ machine with
      receipt := machine.receipt.retire owner tool resources (some operationId)
        (machine.receipt.retiring owner tool resources) [] left } : Machine).undoing device owner)
          resource content = .ok last →
      Machine.settled { machine with
        receipt := machine.receipt.retire owner tool resources (some operationId)
          (machine.receipt.retiring owner tool resources) [] left }
        (({ machine with
          receipt := machine.receipt.retire owner tool resources (some operationId)
            (machine.receipt.retiring owner tool resources) [] left } : Machine).undoing device
              owner) resource = .ok last := by
    intro last done
    rw [Machine.settled]
    change (machine.readResource resource >>= _) = _
    rw [read, ok_bind, done]
  have undoing := Machine.filter_undoing device
    (fun step inside => (after.active step inside).1) resource
  simp only at undoing
  rw [active] at undoing
  have kept : recordedOn (residualStep owner tool
      (machine.receipt.retiring owner tool resources) left) resource = [] →
        Machine.settledFrom (({ machine with
          receipt := machine.receipt.retire owner tool resources (some operationId)
            (machine.receipt.retiring owner tool resources) [] left } : Machine).undoing device
              owner) resource content = .ok content := by
    intro silent
    rw [Machine.settledFrom, undoing, silent]
    rfl
  by_cases secret : resource ∈ credentials
  · refine ⟨content, settles content (kept ?_), fun _ => rfl, fun public_ => absurd secret public_⟩
    rcases recordedOn_residual owner tool nonempty distinct resource with
      ⟨-, silent⟩ | ⟨change, inside, same, -⟩
    · exact silent
    · exact absurd secret (same ▸ (public_ change inside).1)
  · obtain ⟨held, last, again, done, shape⟩ := changed resource secret recorded
    rw [read] at again
    cases again
    have undone := foldlM_undosOn device (own.active.retiring tool resources) secret done
    have same : undosOn (machine.receipt.retiring owner tool resources) resource =
        undosOn machine.receipt.steps resource := by
      rw [undosOn, undosOn, retiring]
    rw [same] at undone
    refine ⟨last, settles last ?_, fun inside => absurd inside secret, fun _ => ⟨undone,
      fun json documents reread law now parsed =>
        disowns_of_foldlM law json documents parsed undone⟩⟩
    rcases shape with ⟨equal, absent⟩ | ⟨differ, inside⟩
    · rw [← equal]
      refine kept ?_
      rcases recordedOn_residual owner tool nonempty distinct resource with
        ⟨-, silent⟩ | ⟨change, there, same, -⟩
      · exact silent
      · exact absurd (List.mem_map.mpr ⟨change, there, same⟩) absent
    · rcases recordedOn_residual owner tool nonempty distinct resource with
        ⟨absent, -⟩ | ⟨change, there, equal, markers, residual⟩
      · exact absurd (List.mem_map_of_mem inside) absent
      · have unique : change = ⟨resource, last, content⟩ :=
          List.inj_on_of_nodup_map distinct there inside equal
        rw [Machine.settledFrom, undoing, residual, unique]
        simp only [List.reverse_cons, List.reverse_nil, List.nil_append, List.flatMap_cons,
          List.flatMap_nil, List.append_nil, Recorded.deeds, List.map_cons, List.map_nil,
          List.foldlM_cons, List.foldlM_nil]
        rw [undoChange_stands device _ resource differ]
        rfl

/-- Each resource has its sequence back after a rollback exactly if no other tool has recorded what
was retired. -/
theorem sequences_back_iff (own : OwnHistory owner machine) {tool : ToolId}
    {resources : List Resource} {operationId : Uuid} {credentials : List Resource}
    {left : List Change}
    (planned : machine.leftChanges device (machine.receipt.retiring owner tool resources)
      credentials = .ok left)
    (fresh : ∀ backup ∈ machine.receipt.retired, backup.operationId ≠ operationId)
    {world : Resources} {back : Machine}
    (again : ({ machine with
      resources := world
      receipt := machine.receipt.retire owner tool resources (some operationId)
        (machine.receipt.retiring owner tool resources) [] left } : Machine).reactivate device owner
          operationId = .ok back) :
    (∀ resource, recordedOn back.receipt.steps resource =
      recordedOn machine.receipt.steps resource) ↔
        Exclusive machine.receipt.steps tool resources := by
  have sequence := recordedOn_back own planned fresh again
  have retiring := recordedOn_retiring_own own tool resources
  constructor
  · rintro same resource listed ⟨step, inside, tools, some_⟩
    have touched : recordedOn (machine.receipt.steps.filter fun step => step.tool = tool)
        resource ≠ [] := fun none_ => some_ (List.filterMap_eq_nil_iff.mp none_ step
      (List.mem_filter.mpr ⟨inside, decide_eq_true tools⟩))
    have back := (sequence resource).symm.trans (same resource)
    rw [retiring, if_pos listed, if_neg touched, recordedOn_filter_eq_iff] at back
    exact fun other there recorded => of_decide_eq_true (back other there recorded)
  · intro exclusive resource
    rw [sequence, retiring]
    by_cases listed : resource ∈ resources
    · rw [if_pos listed]
      split
      · rfl
      · rename_i touched
        rw [recordedOn_filter_eq_iff]
        obtain ⟨recorded, inside⟩ := List.exists_mem_of_ne_nil _ touched
        obtain ⟨step, member, some_⟩ := List.mem_filterMap.mp inside
        obtain ⟨there, tools⟩ := List.mem_filter.mp member
        exact fun other otherThere silent => decide_eq_true (exclusive resource listed
          ⟨step, there, of_decide_eq_true tools, by simp [some_]⟩ other otherThere silent)
    · rw [if_neg listed, if_pos rfl]

/-- One tool has recorded the launcher. -/
theorem launcher_recorded : (histories plainDevice "app").Reached
    (launcherMachine [launcherStep .codex none (some [1])] none) := by
  have stepped : (histories plainDevice "app").step (launcherMachine [] none)
      (.record "vault" .codex [⟨.file "launcher", none, some [1]⟩] [] {})
      (launcherMachine [launcherStep .codex none (some [1])] none) := rfl
  exact .step (.start ⟨rfl, rfl⟩) trivial stepped

end Aipass.ConfigWriters
