import Aipass.ConfigWriters.Transaction

/-!
# Transactions are all or nothing

While a transaction goes forward, each resource that it has reached has been written once, the
others not at all, and until the first write every resource is kept. The write that fails puts all
of them back.
-/
namespace Aipass.ConfigWriters

open Shared

namespace Transaction

variable {tx : Transaction} {initial : Resource → Content} {world : Resources}

/-- How far a transaction has come: the resources it has reached are written once, if they
change. -/
structure Advanced (tx : Transaction) (initial : Resource → Content) (visited : List Change)
    (world : Resources) : Prop where
  lawful : Lawful tx.Knows initial world
  written : ∀ change ∈ tx.changes, writes world.trace change.resource =
    if change ∈ visited ∧ change.before ≠ change.after then [change.after] else []

/-- What a transaction that stops leaves: if its own rollback has run to the end, nothing that it
has written. -/
def Withdrawn (tx : Transaction) (initial : Resource → Content) (error : Refusal)
    (world : Resources) : Prop :=
  Lawful tx.Knows initial world ∧
    (error = .denied → ∀ change ∈ tx.changes, Kept change.resource change.before world)

/-- Time passes. -/
theorem Advanced.arrive {visited : List Change} (advanced : tx.Advanced initial visited world) :
    tx.Advanced initial visited world.arrive :=
  ⟨advanced.lawful.arrive,
    fun change listed => (writes_arrive world _).trans (advanced.written change listed)⟩

/-- A resource is looked at. -/
theorem Advanced.note {visited : List Change} (advanced : tx.Advanced initial visited world)
    (resource : Resource) : tx.Advanced initial visited (world.note resource) :=
  ⟨advanced.lawful.note resource,
    fun change listed => (writes_note world _ _).trans (advanced.written change listed)⟩

/-- The check before a write leaves the transaction where it is. -/
theorem Advanced.wp_checkBefore {visited : List Change}
    (advanced : tx.Advanced initial visited world) (change : Change) :
    change.checkBefore.wp (fun left => Lawful tx.Knows initial left) (tx.Withdrawn initial)
      (fun _ left => tx.Advanced initial visited left ∧
        lastLook left.trace change.resource = some change.before) world := by
  rw [ConfigWriters.wp_checkBefore]
  split
  · exact ⟨advanced.arrive.lawful, fun denied => by cases denied⟩
  · split
    · exact ⟨(advanced.arrive.note _).lawful, fun denied => by cases denied⟩
    · rename_i same
      refine ⟨advanced.arrive.note _, ?_⟩
      rw [lastLook_note, not_not.mp same]

/-- A change that needs no write is reached. -/
theorem Advanced.skip {visited : List Change} (advanced : tx.Advanced initial visited world)
    {change : Change} (same : change.before = change.after) :
    tx.Advanced initial (visited ++ [change]) world := by
  refine ⟨advanced.lawful, fun other listed => ?_⟩
  rw [advanced.written other listed]
  by_cases own : other = change
  · simp [own, same]
  · simp [own]

/-- A change is written. -/
theorem Advanced.put {visited : List Change} (advanced : tx.Advanced initial visited world)
    (distinct : (tx.changes.map Change.resource).Nodup) {change : Change}
    (listed : change ∈ tx.changes) (fresh : change ∉ visited)
    (differ : change.before ≠ change.after)
    (looked : lastLook world.trace change.resource = some change.before) :
    tx.Advanced initial (visited ++ [change])
      (world.set .wrote change.resource change.after) := by
  refine ⟨advanced.lawful.put looked ⟨change, listed, rfl, Or.inl rfl⟩ _,
    fun other inside => ?_⟩
  rw [writes_put, advanced.written other inside]
  by_cases own : other = change
  · subst own
    simp [fresh, differ]
  · have apart : change.resource ≠ other.resource := fun shared =>
      own (List.inj_on_of_nodup_map distinct inside listed shared.symm)
    simp [own, apart]

/-- One change of the second loop: it is written, or everything is put back. -/
theorem wp_advance (distinct : (tx.changes.map Change.resource).Nodup) {visited : List Change}
    (advanced : tx.Advanced initial visited world) {change : Change}
    (listed : change ∈ tx.changes) (fresh : change ∉ visited) :
    (tx.advance change).wp (fun left => Lawful tx.Knows initial left) (tx.Withdrawn initial)
      (fun _ left => tx.Advanced initial (visited ++ [change]) left) world := by
  rw [advance]
  by_cases same : change.before = change.after
  · rw [if_pos same, Program.wp_pure]
    exact advanced.skip same
  · rw [if_neg same, Program.wp_bind]
    refine Program.wp_mono (advanced.wp_checkBefore change) (fun _ left => left)
      (fun _ _ left => left) ?_
    rintro - seen ⟨advanced, looked⟩
    rw [Program.wp_bind, Program.wp_attempt, wp_put]
    split
    · simp only [Program.wp_bind, Program.wp_attempt]
      refine Program.wp_mono (wp_restore distinct advanced.lawful.arrive) (fun _ left => left)
        ?_ ?_
      · intro cause left lawful
        exact (Program.wp_fail _).mpr ⟨lawful, fun denied => by cases denied⟩
      · rintro - left ⟨lawful, kept⟩
        exact (Program.wp_fail _).mpr ⟨lawful, fun _ => kept⟩
    · have next := advanced.arrive.put distinct listed fresh same
        ((lastLook_arrive seen _).trans looked)
      exact ⟨next.lawful, (Program.wp_pure _).mpr next⟩

/-- A transaction goes all the way, or stops. -/
theorem wp_apply (distinct : (tx.changes.map Change.resource).Nodup)
    (fresh : world.trace = []) :
    tx.apply.wp (fun left => Lawful tx.Knows world.held left) (tx.Withdrawn world.held)
      (fun _ left => tx.Advanced world.held tx.changes left) world := by
  have start : tx.Advanced world.held [] world :=
    ⟨lawful_start tx.Knows fresh, fun change _ => by simp [fresh, writes]⟩
  rw [apply, Program.wp_bind]
  refine Program.wp_mono (Program.wp_forM tx.changes Change.checkBefore
    (fun _ left => tx.Advanced world.held [] left) start ?_) (fun _ left => left)
    (fun _ _ left => left) ?_
  · intro visited change rest split before advanced
    exact Program.wp_mono (advanced.wp_checkBefore change) (fun _ left => left)
      (fun _ _ left => left) (fun _ _ left => left.1)
  · intro _ checked advanced
    refine Program.wp_forM tx.changes tx.advance
      (fun visited left => tx.Advanced world.held visited left) advanced ?_
    intro visited change rest split before advanced
    have listed : change ∈ tx.changes := by simp [split]
    refine wp_advance distinct advanced listed fun inside => ?_
    rw [split, List.map_append, List.map_cons] at distinct
    exact (List.nodup_append.mp distinct).2.2 _ (List.mem_map_of_mem inside) _
      (List.mem_cons_self ..) rfl

end Transaction

/-- From the moment at which a transaction has read what its resources hold, and whatever their
tools write between its steps: if applying it fails before a write or with a write, its own rollback
having run to the end, each resource holds what it held or what a tool wrote; if applying succeeds,
each resource that changes was written once, with its new content, and the others were not; putting
it back leaves each resource with what it held or what a tool wrote, wherever it starts; and nothing
is overwritten but what the transaction found there and knows. -/
theorem transaction_all_or_nothing (tx : Transaction)
    (distinct : (tx.changes.map Change.resource).Nodup) (world : Resources)
    (fresh : world.trace = []) :
    ((∀ change ∈ tx.changes, world.held change.resource = change.before) →
      (∀ error, (tx.apply.run world).result = .error error →
        (error = .denied ∨ ∀ change ∈ tx.changes,
          writes (tx.apply.run world).final.trace change.resource = []) →
            ∀ change ∈ tx.changes,
              Kept change.resource change.before (tx.apply.run world).final) ∧
      ((tx.apply.run world).result = .ok () → ∀ change ∈ tx.changes,
        writes (tx.apply.run world).final.trace change.resource =
          (if change.before = change.after then [] else [change.after]) ∧
        Kept change.resource change.after (tx.apply.run world).final)) ∧
    ((tx.restore.run world).result = .ok () → ∀ change ∈ tx.changes,
      Kept change.resource change.before (tx.restore.run world).final) ∧
    Guarded tx.Knows (tx.apply.run world).final.trace ∧
    Guarded tx.Knows (tx.restore.run world).final.trace := by
  have applied := Transaction.wp_apply distinct fresh
  have restored := Transaction.wp_restore distinct (lawful_start tx.Knows fresh)
  refine ⟨fun preimage => ⟨?_, ?_⟩, ?_, ?_, ?_⟩
  · intro error failed clean change listed
    obtain ⟨lawful, kept⟩ := Program.wp_error applied failed
    rcases clean with denied | unwritten
    · exact kept denied change listed
    · rw [← preimage change listed]
      exact lawful.unwritten (unwritten change listed)
  · intro done change listed
    obtain ⟨lawful, written⟩ := Program.wp_ok applied done
    have own := written change listed
    by_cases same : change.before = change.after
    · rw [if_neg (by simp [same])] at own
      rw [if_pos same, ← same, ← preimage change listed]
      exact ⟨own, lawful.unwritten own⟩
    · rw [if_pos ⟨listed, same⟩] at own
      rw [if_neg same]
      exact ⟨own, lawful.written own⟩
  · exact fun done => (Program.wp_ok restored done).2
  · have guarded : tx.apply.wp (fun left => Lawful tx.Knows world.held left)
        (fun _ left => Guarded tx.Knows left.trace) (fun _ left => Guarded tx.Knows left.trace)
        world :=
      Program.wp_mono applied (fun _ left => left) (fun _ _ left => left.1.guarded)
        (fun _ _ left => left.lawful.guarded)
    exact Program.wp_final _ _ guarded
  · have guarded : tx.restore.wp (fun left => Lawful tx.Knows world.held left)
        (fun _ left => Guarded tx.Knows left.trace) (fun _ left => Guarded tx.Knows left.trace)
        world :=
      Program.wp_mono restored (fun _ left => left) (fun _ _ left => left.guarded)
        (fun _ _ left => left.1.guarded)
    exact Program.wp_final _ _ guarded

/-- The second write is denied, and the first is taken back. -/
theorem transaction_taken_back :
    let tx : Transaction := ⟨1, false, [⟨.file "a", none, some [1]⟩, ⟨.file "b", none, some [2]⟩]⟩
    let world : Resources :=
      { held := fun _ => none, failures := [false, false, false, false, false, true] }
    Kept (.file "a") none (tx.apply.run world).final :=
  ((transaction_all_or_nothing _ (by decide) _ rfl).1 (by decide)).1 .denied rfl (Or.inl rfl)
    ⟨.file "a", none, some [1]⟩ (List.mem_cons_self ..)

/-- A resource that does not change is not written though the transaction succeeds. And a
transaction that fails may leave what it has written: here the third write is denied when a tool has
written the second resource, so nothing is put back. -/
theorem transaction_leaves_written :
    (let tx : Transaction := ⟨1, false, [⟨.file "a", some [1], some [1]⟩]⟩
      let outcome := tx.apply.run { held := fun _ => some [1] }
      outcome.result = .ok () ∧ writes outcome.final.trace (.file "a") = []) ∧
    (let tx : Transaction := ⟨2, false,
        [⟨.file "a", none, some [1]⟩, ⟨.file "b", none, some [2]⟩, ⟨.file "c", none, some [3]⟩]⟩
      let outcome := tx.apply.run
        { held := fun _ => none
          intrusions := [[], [], [], [], [], [], [], [], [(.file "b", some [9])]]
          failures := [false, false, false, false, false, false, false, false, true] }
      outcome.result = .error (.incomplete .requiresRetry) ∧
        outcome.final.held (.file "a") = some [1] ∧
        .intruded (.file "a") (some [1]) ∉ outcome.final.trace) := by
  refine ⟨⟨rfl, rfl⟩, rfl, rfl, ?_⟩
  decide

end Aipass.ConfigWriters
