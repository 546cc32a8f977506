import Aipass.ConfigWriters.Documents
import Aipass.ConfigWriters.Histories

/-!
# Retiring what a tool has recorded

A direct write takes what its tool has recorded of its resources out of the receipt. Of a public
resource that retiring changes, one step stays in place; it undoes what is still owned of the file.
-/
namespace Aipass.ConfigWriters

variable {device : Device} {owner : String} {machine : Machine}

/-- What a receipt has of a resource once a direct write has retired the steps of its tool: what the
other tools have recorded of what it writes, what was recorded of what it does not write, and the
step in place of those retired. -/
theorem recordedOn_retire {receipt : Receipt} (own : OwnSteps owner receipt.steps) (tool : ToolId)
    (resources : List Resource) (operationId : Uuid) (retired : List Step) (left : List Change)
    (resource : Resource) :
    recordedOn (receipt.retire owner tool resources (some operationId) retired [] left).steps
        resource =
      recordedOn (receipt.steps.filter fun step =>
        !(step.tool = tool && resources.contains resource)) resource ++
        recordedOn (residualStep owner tool retired left) resource := by
  rw [Receipt.retire, recordedOn_append, recordedOn_withoutChanges]
  · rfl
  · intro step listed change _ same
    simp [(own step listed).1, same]

/-- A rollback replaces what is active on the resources of its operation. -/
theorem recordedOn_reactivate {receipt : Receipt} (own : OwnSteps owner receipt.steps)
    (operationId : Uuid) (backup : Retired) (resource : Resource) :
    recordedOn (receipt.reactivate owner operationId backup).steps resource =
      if recordedOn backup.steps resource = [] then recordedOn receipt.steps resource
      else recordedOn backup.steps resource := by
  have silent : recordedOn backup.steps resource = [] ↔
      ∀ step ∈ backup.steps, ∀ change ∈ step.changes, change.resource ≠ resource := by
    rw [recordedOn, List.filterMap_eq_nil_iff]
    exact forall₂_congr fun _ _ => recorded_eq_none
  rw [Receipt.reactivate, recordedOn_append, recordedOn_withoutChanges _ _ _ fun _ =>
    decide (recordedOn backup.steps resource ≠ [])]
  · by_cases none_ : recordedOn backup.steps resource = []
    · simp only [none_, if_true, ne_eq, not_true, decide_false, Bool.not_false, List.filter_true,
        List.append_nil]
    · simp only [none_, if_false, ne_eq, not_false_eq_true, decide_true, Bool.not_true,
        List.filter_false]
      rfl
  · intro step listed change _ same
    have mine := (own step listed).1
    refine decide_eq_decide.mpr ?_
    rw [Ne, silent, same]
    simp only [mine, true_and, List.any_eq_true, decide_eq_true_eq]
    push Not
    simp only [eq_comm]

/-- The step in place of those retired has at most one change of a resource. -/
theorem recordedOn_residual (owner : String) (tool : ToolId) {retired : List Step} (some_ : retired ≠ [])
    {left : List Change} (distinct : (left.map Change.resource).Nodup) (resource : Resource) :
    (resource ∉ left.map Change.resource ∧
      recordedOn (residualStep owner tool retired left) resource = []) ∨
    ∃ change ∈ left, change.resource = resource ∧ ∃ markers,
      recordedOn (residualStep owner tool retired left) resource =
        [⟨[(change.before, change.after)], [], false, markers⟩] := by
  obtain ⟨first, rest, shape⟩ := List.exists_cons_of_ne_nil some_
  by_cases listed : resource ∈ left.map Change.resource
  · obtain ⟨change, inside, same⟩ := List.mem_map.mp listed
    have nonempty : left.isEmpty = false := by
      cases left with
      | nil => cases inside
      | cons _ _ => rfl
    have only : (left.filter fun other => other.resource = resource) = [change] := by
      have unique : ∀ other ∈ left, decide (other.resource = resource) = decide (other = change) :=
        fun other there => by
          by_cases equal : other = change
          · simp [equal, same]
          · have apart : other.resource ≠ resource := fun shared =>
              equal (List.inj_on_of_nodup_map distinct there inside (shared.trans same.symm))
            simp [equal, apart]
      rw [List.filter_congr unique, List.filter_eq,
        List.count_eq_one_of_mem (List.Nodup.of_map _ distinct) inside]
      rfl
    refine Or.inr ⟨change, inside, same,
      retired.foldl (fun markers step => markers.extend step.markers) {}, ?_⟩
    simp only [residualStep, shape, List.head?_cons, nonempty, Bool.false_eq_true, if_false]
    simp only [recordedOn, List.filterMap_cons, Step.recorded, only]
    rfl
  · refine Or.inl ⟨listed, ?_⟩
    rw [recordedOn, List.filterMap_eq_nil_iff]
    intro step inside
    rw [recorded_eq_none]
    unfold residualStep at inside
    split at inside
    · split at inside
      · cases inside
      · rw [List.mem_singleton.mp inside]
        exact fun change there same => listed (List.mem_map.mpr ⟨change, there, same⟩)
    · cases inside

/-- The undos that retire what was recorded of a resource. -/
def undosOn (steps : List Step) (resource : Resource) : List Undo :=
  (recordedOn steps resource).reverse.flatMap fun recorded =>
    recorded.changes.map fun change => ⟨⟨true, some recorded.markers⟩, change.1, change.2⟩

/-- What a direct write retires, the latest first, without the credentials. -/
def publicSteps (retired : List Step) (credentials : List Resource) : List Step :=
  retired.reverse.map fun step =>
    { step with changes := step.changes.filter fun change =>
        !credentials.contains change.resource }

/-- What the public part of the retired steps has recorded of a resource. -/
theorem recordedOn_publicSteps (retired : List Step) (credentials : List Resource)
    (resource : Resource) :
    recordedOn (publicSteps retired credentials) resource =
      if credentials.contains resource then [] else (recordedOn retired resource).reverse := by
  have filtered : (fun step : Step => step.recorded resource) ∘ (fun step : Step =>
      { step with changes := step.changes.filter fun change =>
        !credentials.contains change.resource }) = fun step =>
          if !credentials.contains resource then step.recorded resource else none :=
    funext fun step => recorded_filter step resource _ _ fun _ _ same => by rw [same]
  rw [publicSteps, ← recordedOn_reverse, recordedOn, List.filterMap_map, filtered]
  cases credentials.contains resource
  · rfl
  · simp

/-- What a direct write does to its public resources. -/
theorem retiringDeeds_eq (device : Device) {retired : List Step} (own : OwnSteps owner retired)
    (credentials : List Resource) :
    Machine.retiringDeeds device retired credentials =
      (publicSteps retired credentials).flatMap fun step => step.changes.map fun change =>
        (change.resource, fun current => (retireUndo device.formats step.markers change.resource
          change.before change.after current).mapError .undo) := by
  have current : (retired.reverse.filter fun step => !step.legacy) = retired.reverse :=
    List.filter_eq_self.mpr fun step listed => by
      simpa using (own step (List.mem_reverse.mp listed)).2
  rw [Machine.retiringDeeds, current, publicSteps, List.flatMap_map]

/-- What a direct write does to retire what was recorded of a resource, unless it is a
credential. -/
theorem filter_retiringDeeds (device : Device) {retired : List Step}
    (own : OwnSteps owner retired) (credentials : List Resource) (resource : Resource) :
    ((Machine.retiringDeeds device retired credentials).filter fun deed => deed.1 = resource) =
      if credentials.contains resource then []
      else (recordedOn retired resource).reverse.flatMap fun recorded =>
        recorded.deeds resource fun _ markers change current =>
          (retireUndo device.formats markers change.resource change.before change.after
            current).mapError .undo := by
  rw [retiringDeeds_eq device own]
  refine (filter_flatMap_deeds _ resource fun _ markers change current =>
    (retireUndo device.formats markers change.resource change.before change.after
      current).mapError .undo).trans ?_
  rw [recordedOn_publicSteps]
  split <;> rfl

/-- A direct write takes up what its tool has recorded and what is no credential. -/
theorem mem_retiringDeeds (device : Device) {retired : List Step} (own : OwnSteps owner retired)
    (credentials : List Resource) (resource : Resource) :
    resource ∈ (Machine.retiringDeeds device retired credentials).map Prod.fst ↔
      resource ∉ credentials ∧ recordedOn retired resource ≠ [] := by
  rw [retiringDeeds_eq device own]
  refine (mem_flatMap_deeds _ resource fun _ markers change current =>
    (retireUndo device.formats markers change.resource change.before change.after
      current).mapError .undo).trans ?_
  rw [recordedOn_publicSteps]
  by_cases secret : resource ∈ credentials <;> simp [secret]

/-- What retiring leaves of a resource are its undos done to what it held. -/
theorem foldlM_undosOn (device : Device) {retired : List Step} (own : OwnSteps owner retired)
    {credentials : List Resource} {resource : Resource} (public_ : resource ∉ credentials)
    {content left : Content}
    (done : Machine.settledFrom (Machine.retiringDeeds device retired credentials) resource
      content = .ok left) :
    (undosOn retired resource).foldlM (fun current undo =>
      undoInner device.formats undo.mode resource undo.before undo.after current) content =
        .ok left := by
  rw [Machine.settledFrom, filter_retiringDeeds device own, if_neg (by simpa using public_)] at done
  have same : ((recordedOn retired resource).reverse.flatMap fun recorded =>
      recorded.deeds resource fun _ markers change current =>
        (retireUndo device.formats markers change.resource change.before change.after
          current).mapError .undo) =
      (undosOn retired resource).map fun undo => (resource, fun current =>
        (undoInner device.formats undo.mode resource undo.before undo.after current).mapError
          RecoveryError.undo) := by
    simp only [undosOn, List.map_flatMap, List.map_map, Recorded.deeds]
    rfl
  rw [same, List.foldlM_map] at done
  exact foldlM_mapError _ _ _ done

/-- What stays owned when a write is retired: the parts of a file that no recorded write changed
stay, and so does what is no object and not of a recorded write; what the last of them put there
gives way to what was there before, if it shows its markers and the earlier writes did not change
it. -/
structure Disowns (formats : Formats) (reread : String → String) (undos : List Undo)
    (content : Content) (now left : Option Value) : Prop where
  unchanged : ∀ path, (∀ undo ∈ undos,
    formats.entryAt undo.before path = formats.entryAt undo.after path) →
      Alike (entry left path) (entry now path)
  kept : ∀ path, entry now path = none ∨ ¬ Container (entry now path) →
    (∀ undo ∈ undos, ¬ Alike (entry now path) (formats.entryAt undo.after path)) →
      Alike (entry left path) (entry now path)
  taken : ∀ last earlier, undos = last :: earlier →
    ¬ (last.mode.unmarked fun markers => content.any markers.containsBytes) →
    ∀ old path, formats.parseJson last.before = .ok old → Rooted old path →
      entry now path = formats.entryAt last.after path → entry now path ≠ none →
      Exact reread (entry now path) → last.mode.hides (entry now path) = false →
      (∀ undo ∈ earlier, formats.entryAt undo.before path = formats.entryAt undo.after path) →
        Alike (entry left path) (formats.entryAt last.before path)

/-- Retiring undoes of a file what is owned, and nothing else. -/
theorem disowns_of_foldlM {formats : Formats} {reread : String → String}
    (law : formats.ReadsBack reread) {resource : Resource} (json : resource.IsJson)
    {undos : List Undo}
    (documents : ∀ undo ∈ undos, formats.IsDocument undo.before ∧ formats.IsDocument undo.after)
    {content left : Content} {now : Option Value} (read : formats.parseJson content = .ok now)
    (done : undos.foldlM (fun current undo =>
      undoInner formats undo.mode resource undo.before undo.after current) content = .ok left) :
    ∃ document, formats.Shows left document ∧
      Disowns formats reread undos content now document := by
  cases undos with
  | nil =>
    simp only [List.foldlM_nil, pure, Except.pure, Except.ok.injEq] at done
    exact ⟨now, done ▸ .of_parseJson read, fun _ _ => rfl, fun _ _ _ => rfl,
      fun _ _ shape => by cases shape⟩
  | cons last earlier =>
    obtain ⟨⟨old, readOld⟩, new, readNew⟩ := documents last (List.mem_cons_self ..)
    rw [List.foldlM_cons] at done
    obtain ⟨middle, first, done⟩ := bind_eq_ok.mp done
    obtain ⟨undone, shown, laws⟩ :=
      undoInner_laws law json (.of_parseJson read) readOld readNew first
    obtain ⟨document, shows, later⟩ := undoes_of_foldlM law json earlier
      (fun other listed => documents other (List.mem_cons_of_mem _ listed)) shown done
    have whole : Undoes formats reread (last :: earlier) now document :=
      .cons readOld readNew laws later
    refine ⟨document, shows, fun path => whole.unchanged, fun path => whole.kept, ?_⟩
    intro _ _ shape seen old' path readOld' rooted stands there exact shown unchanged
    cases shape
    rw [readOld] at readOld'
    cases readOld'
    rw [formats.entryAt_eq readNew] at stands
    rw [formats.entryAt_eq readOld, ← laws.retired seen path (stands ▸ exact) stands there shown
      rooted]
    exact later.unchanged unchanged

/-- The retired sequence of a resource. -/
theorem recordedOn_retiring_own (own : OwnHistory owner machine) (tool : ToolId)
    (resources : List Resource) (resource : Resource) :
    recordedOn (machine.receipt.retiring owner tool resources) resource =
      if resource ∈ resources then
        recordedOn (machine.receipt.steps.filter fun step => step.tool = tool) resource
      else [] := by
  have mine : (machine.receipt.steps.filter fun step => step.owner = owner ∧ step.tool = tool) =
      machine.receipt.steps.filter fun step => step.tool = tool :=
    List.filter_congr fun step listed => by simp [(own.active step listed).1]
  rw [recordedOn_retiring, mine]
  by_cases listed : resource ∈ resources <;> simp [listed]

/-- The changes that a direct write leaves owned are on different resources, which its tool has
recorded and which are no credentials; a resource has such a change if retiring changes it. -/
theorem leftChanges_ok (own : OwnHistory owner machine) {tool : ToolId}
    {resources credentials : List Resource} {left : List Change}
    (planned : machine.leftChanges device (machine.receipt.retiring owner tool resources)
      credentials = .ok left) :
    (left.map Change.resource).Nodup ∧
    (∀ change ∈ left, change.resource ∉ credentials ∧
      recordedOn (machine.receipt.retiring owner tool resources) change.resource ≠ []) ∧
    ∀ resource, resource ∉ credentials →
      recordedOn (machine.receipt.retiring owner tool resources) resource ≠ [] →
        ∃ content last, machine.readResource resource = .ok content ∧
          Machine.settledFrom (Machine.retiringDeeds device
            (machine.receipt.retiring owner tool resources) credentials) resource content =
              .ok last ∧
          (content = last ∧ resource ∉ left.map Change.resource ∨
            content ≠ last ∧ ⟨resource, last, content⟩ ∈ left) := by
  have retired := own.active.retiring tool resources
  unfold Machine.leftChanges at planned
  obtain ⟨plan, done, planned⟩ := bind_eq_ok.mp planned
  rcases Machine.planned_cases machine (Machine.retiringDeeds device
    (machine.receipt.retiring owner tool resources) credentials) with
    ⟨error, failed, -⟩ | ⟨_, computed, plans⟩
  · rw [failed] at done
    cases done
  rw [computed] at done
  cases done
  have shape := Except.ok.inj planned
  have resourcesOf : left.map Change.resource = ((plan.filter fun change =>
      change.before ≠ change.after).map Change.resource) := by
    rw [← shape, List.map_map]
    rfl
  refine ⟨resourcesOf ▸ plans.distinct.sublist (List.filter_sublist.map _), ?_, ?_⟩
  · intro change inside
    rw [← mem_retiringDeeds device retired, ← plans.covers]
    have listed : change.resource ∈ left.map Change.resource := List.mem_map_of_mem inside
    rw [resourcesOf] at listed
    exact (List.filter_sublist.map _).subset listed
  · intro resource public_ recorded
    have listed := (plans.covers resource).mpr
      ((mem_retiringDeeds device retired credentials resource).mpr ⟨public_, recorded⟩)
    obtain ⟨change, inside, same⟩ := List.mem_map.mp listed
    have read := plans.before change inside
    have after := plans.after change inside
    rw [same] at read after
    rw [Machine.settled, read, ok_bind] at after
    refine ⟨change.before, change.after, read, after, ?_⟩
    by_cases equal : change.before = change.after
    · refine Or.inl ⟨equal, fun again => ?_⟩
      rw [resourcesOf] at again
      obtain ⟨other, otherInside, otherSame⟩ := List.mem_map.mp again
      obtain ⟨there, differ⟩ := List.mem_filter.mp otherInside
      have unique := List.inj_on_of_nodup_map plans.distinct there inside
        (otherSame.trans same.symm)
      rw [unique] at differ
      exact of_decide_eq_true differ equal
    · refine Or.inr ⟨equal, ?_⟩
      rw [← shape, List.mem_map]
      refine ⟨change, List.mem_filter.mpr ⟨inside, by simpa using equal⟩, ?_⟩
      rw [same]

/-- What a receipt has of a resource that is not retired. -/
theorem recordedOn_retire_other (own : OwnHistory owner machine) {tool : ToolId}
    {resources : List Resource} (operationId : Uuid) {credentials : List Resource}
    {left : List Change}
    (planned : machine.leftChanges device (machine.receipt.retiring owner tool resources)
      credentials = .ok left) {resource : Resource}
    (none_ : recordedOn (machine.receipt.retiring owner tool resources) resource = []) :
    recordedOn (machine.receipt.retire owner tool resources (some operationId)
      (machine.receipt.retiring owner tool resources) [] left).steps resource =
        recordedOn machine.receipt.steps resource := by
  obtain ⟨distinct, public_, -⟩ := leftChanges_ok own planned
  rw [recordedOn_retire own.active]
  have residual : recordedOn (residualStep owner tool
      (machine.receipt.retiring owner tool resources) left) resource = [] := by
    by_cases empty : machine.receipt.retiring owner tool resources = []
    · rw [empty]
      rfl
    · rcases recordedOn_residual owner tool empty distinct resource with
        ⟨-, silent⟩ | ⟨change, inside, same, -⟩
      · exact silent
      · exact absurd none_ (same ▸ (public_ change inside).2)
  rw [residual, List.append_nil]
  refine recordedOn_filter _ _ _ fun step listed gone => ?_
  have both : step.tool = tool ∧ resource ∈ resources := by simpa using gone
  rw [recordedOn_retiring_own own, if_pos both.2, recordedOn, List.filterMap_eq_nil_iff] at none_
  exact none_ step (List.mem_filter.mpr ⟨listed, by simpa using both.1⟩)

/-- A rollback finds what its direct write has retired. -/
theorem find_retired {receipt : Receipt} (tool : ToolId) (resources : List Resource)
    {operationId : Uuid} (left : List Change)
    (fresh : ∀ backup ∈ receipt.retired, backup.operationId ≠ operationId) (retired : List Step) :
    ((receipt.retire owner tool resources (some operationId) retired [] left).retired.find?
      fun backup => backup.owner = owner ∧ backup.operationId = operationId) =
        if retired = [] then none else some ⟨owner, operationId, retired⟩ := by
  have pruned : ((receipt.discardRetired owner resources).retired.find?
      fun backup => backup.owner = owner ∧ backup.operationId = operationId) = none := by
    rw [List.find?_eq_none]
    intro backup listed both
    obtain ⟨source, member, shape⟩ := List.mem_map.mp (List.mem_filter.mp listed).1
    have sameId : backup.operationId = source.operationId := by
      rw [← shape]
      split <;> rfl
    exact fresh source member (sameId ▸ (of_decide_eq_true both).2)
  cases retired with
  | nil => exact pruned
  | cons first rest =>
    rw [Receipt.retire]
    simp only [List.isEmpty_cons, Bool.false_eq_true, if_false, List.find?_append, pruned]
    simp

/-- What a rollback brings back of each resource. -/
theorem recordedOn_back (own : OwnHistory owner machine) {tool : ToolId}
    {resources : List Resource} {operationId : Uuid} {credentials : List Resource}
    {left : List Change}
    (planned : machine.leftChanges device (machine.receipt.retiring owner tool resources)
      credentials = .ok left)
    (fresh : ∀ backup ∈ machine.receipt.retired, backup.operationId ≠ operationId)
    {world : Resources} {back : Machine}
    (again : ({ machine with
      resources := world
      receipt := machine.receipt.retire owner tool resources (some operationId)
        (machine.receipt.retiring owner tool resources) [] left } : Machine).reactivate device owner
          operationId = .ok back) (resource : Resource) :
    recordedOn back.receipt.steps resource =
      if recordedOn (machine.receipt.retiring owner tool resources) resource = [] then
        recordedOn machine.receipt.steps resource
      else recordedOn (machine.receipt.retiring owner tool resources) resource := by
  have found := reactivate_ok again
  simp only at found
  rw [find_retired tool resources left fresh] at found
  have after := own.retire tool resources operationId left
  by_cases empty : machine.receipt.retiring owner tool resources = []
  · rw [if_pos empty] at found
    simp only at found
    have none_ : recordedOn (machine.receipt.retiring owner tool resources) resource = [] := by
      rw [empty]
      rfl
    rw [found, if_pos none_]
    exact recordedOn_retire_other own operationId planned none_
  · rw [if_neg empty] at found
    simp only at found
    rw [found]
    simp only
    rw [recordedOn_reactivate after.active]
    simp only
    split
    · rename_i none_
      exact recordedOn_retire_other own operationId planned none_
    · rfl

end Aipass.ConfigWriters
