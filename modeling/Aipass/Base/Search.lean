import Aipass.Base.Table
import Mathlib.Data.Finset.Card
import Mathlib.Algebra.BigOperators.Group.Finset.Basic
import Mathlib.Data.Fintype.Card
import Mathlib.Logic.Function.Iterate
import Mathlib.Logic.Relation
import Mathlib.Order.WellFounded

/-!
# Searching links

A table gives each of finitely many nodes the nodes it names. A search takes the nodes to visit
from a stack or a queue, labels each node when it first meets it, and schedules what the node
names. Whatever the order, it ends, and what every round keeps holds at its end.
-/
namespace Aipass

/-- The nodes that each node names. -/
abbrev Links (κ : Type) [LinearOrder κ] := Table κ (List κ)

/-- Where a search puts the nodes it finds. -/
inductive Schedule where
  /-- The node found last is visited first. -/
  | stack
  /-- The node found first is visited first. -/
  | queue
deriving DecidableEq

/-- Schedule found nodes before or after the waiting ones. -/
def Schedule.place {ω : Type} : Schedule → List ω → List ω → List ω
  | .stack, found, waiting => found.reverse ++ waiting
  | .queue, found, waiting => waiting ++ found

/-- Scheduling loses no node and invents none. -/
@[simp] theorem Schedule.mem_place {ω : Type} (schedule : Schedule) (found waiting : List ω)
    (item : ω) : item ∈ schedule.place found waiting ↔ item ∈ found ∨ item ∈ waiting := by
  cases schedule
  · simp [place]
  · simp [place, or_comm]

/-- Scheduling nothing changes nothing. -/
@[simp] theorem Schedule.place_nil {ω : Type} (schedule : Schedule) (waiting : List ω) :
    schedule.place [] waiting = waiting := by
  cases schedule <;> simp [place]

namespace Links

variable {κ : Type} [LinearOrder κ]

/-- A node names another. -/
def Names (links : Links κ) (node named : κ) : Prop :=
  ∃ all, links[node]? = some all ∧ named ∈ all

/-- The nodes a node names; an unknown node names none. -/
def namedBy (links : Links κ) (node : κ) : List κ := links[node]?.getD []

/-- What a node names is listed. -/
theorem mem_namedBy {links : Links κ} {node named : κ} :
    named ∈ links.namedBy node ↔ links.Names node named := by
  unfold namedBy Names
  cases links[node]? <;> simp

variable {δ : Type}

/-- The known nodes that a search has not met yet. -/
def unmet (links : Links κ) (visited : Table κ δ) : Finset κ :=
  links.keySet.filter fun node => visited[node]?.isNone

/-- Meeting a node leaves the others to meet. -/
theorem unmet_insert (links : Links κ) (visited : Table κ δ) (node : κ) (label : δ) :
    links.unmet (visited.insert node label) = (links.unmet visited).erase node := by
  ext other
  simp only [unmet, Finset.mem_filter, Finset.mem_erase, Table.get_insert]
  by_cases same : node = other
  · simp [same]
  · simp [same, Ne.symm same]

/-- Meeting a known node leaves fewer to meet. -/
theorem unmet_insert_lt {links : Links κ} {visited : Table κ δ} {node : κ} {label : δ}
    (fresh : visited[node]? = none) (known : links[node]?.isSome) :
    (links.unmet (visited.insert node label)).card < (links.unmet visited).card := by
  rw [unmet_insert]
  exact Finset.card_erase_lt_of_mem
    (Finset.mem_filter.mpr ⟨Table.mem_keySet.mpr known, by rw [fresh]; rfl⟩)

/-- Meeting an unknown node leaves the others to meet. -/
theorem unmet_insert_eq {links : Links κ} {visited : Table κ δ} {node : κ} {label : δ}
    (unknown : links[node]? = none) :
    links.unmet (visited.insert node label) = links.unmet visited := by
  rw [unmet_insert]
  refine Finset.erase_eq_of_notMem fun member => ?_
  have known := Table.mem_keySet.mp (Finset.mem_filter.mp member).1
  simp [unknown] at known

/-- Visit the waiting nodes and all they lead to. A node keeps the label it was met with, and
the nodes it names are met with the next label. -/
def explore (links : Links κ) (schedule : Schedule) (next : δ → δ) :
    List (κ × δ) → Table κ δ → Table κ δ
  | [], visited => visited
  | (node, label) :: waiting, visited =>
    if visited[node]?.isSome then
      explore links schedule next waiting visited
    else
      explore links schedule next
        (schedule.place ((links.namedBy node).map fun named => (named, next label)) waiting)
        (visited.insert node label)
termination_by waiting visited => ((links.unmet visited).card, waiting.length)
decreasing_by
  · exact Prod.Lex.right _ (by simp)
  · rename_i fresh
    have absent : visited[node]? = none := by simpa using fresh
    cases known : links[node]? with
    | some named =>
      exact Prod.Lex.left _ _ (unmet_insert_lt absent (by simp [known]))
    | none =>
      rw [unmet_insert_eq known]
      exact Prod.Lex.right _ (by simp [namedBy, known])

/-- What waits once a node was met: what it names, with the next label, and what waited. -/
theorem mem_scheduled {links : Links κ} {schedule : Schedule} (next : δ → δ) {node : κ} {label : δ}
    {waiting : List (κ × δ)} {item : κ × δ} :
    item ∈ schedule.place ((links.namedBy node).map fun named => (named, next label)) waiting ↔
      (links.Names node item.1 ∧ item.2 = next label) ∨ item ∈ waiting := by
  obtain ⟨named, mark⟩ := item
  rw [Schedule.mem_place, List.mem_map]
  refine or_congr_left ⟨?_, ?_⟩
  · rintro ⟨other, names, same⟩
    obtain ⟨rfl, rfl⟩ := Prod.mk.inj same
    exact ⟨mem_namedBy.mp names, rfl⟩
  · rintro ⟨names, rfl⟩
    exact ⟨named, mem_namedBy.mpr names, rfl⟩

/-- One round of a search: the next waiting node is visited unless it was met before. -/
def visit (links : Links κ) (schedule : Schedule) (next : δ → δ) :
    List (κ × δ) × Table κ δ → List (κ × δ) × Table κ δ
  | ([], visited) => ([], visited)
  | ((node, label) :: waiting, visited) =>
    if visited[node]?.isSome then
      (waiting, visited)
    else
      (schedule.place ((links.namedBy node).map fun named => (named, next label)) waiting,
        visited.insert node label)

/-- The rounds that a search still needs at most: one for each waiting node, and one for each
link of a known node that it has not met. -/
def pending (links : Links κ) (waiting : List (κ × δ)) (visited : Table κ δ) : ℕ :=
  waiting.length + ∑ node ∈ links.unmet visited, (links.namedBy node).length

/-- A node is scheduled with no more rounds than were pending for it. -/
theorem pending_visit {links : Links κ} (schedule : Schedule) (next : δ → δ) {node : κ}
    {label : δ} {waiting : List (κ × δ)} {visited : Table κ δ} (fresh : visited[node]? = none) :
    links.pending (schedule.place ((links.namedBy node).map fun named => (named, next label))
        waiting) (visited.insert node label) + 1 =
      links.pending ((node, label) :: waiting) visited := by
  have scheduled : (schedule.place ((links.namedBy node).map fun named => (named, next label))
      waiting).length = (links.namedBy node).length + waiting.length := by
    cases schedule <;> simp [Schedule.place, Nat.add_comm]
  have remaining : (links.namedBy node).length +
      ∑ other ∈ (links.unmet visited).erase node, (links.namedBy other).length =
        ∑ other ∈ links.unmet visited, (links.namedBy other).length := by
    by_cases known : node ∈ links.unmet visited
    · exact Finset.add_sum_erase _ (fun other => (links.namedBy other).length) known
    · have unknown : links[node]? = none := by
        by_contra present
        exact known (Finset.mem_filter.mpr
          ⟨Table.mem_keySet.mpr (Option.isSome_iff_ne_none.mpr present), by rw [fresh]; rfl⟩)
      rw [Finset.erase_eq_of_notMem known]
      simp [namedBy, unknown]
  simp only [pending, scheduled, unmet_insert, List.length_cons]
  omega

/-- A search ends: after no more rounds than are pending nothing waits. -/
theorem exists_rounds (links : Links κ) (schedule : Schedule) (next : δ → δ)
    (waiting : List (κ × δ)) (visited : Table κ δ) :
    ∃ rounds ≤ links.pending waiting visited,
      (links.visit schedule next)^[rounds] (waiting, visited) =
        ([], links.explore schedule next waiting visited) := by
  fun_induction explore links schedule next waiting visited with
  | case1 visited => exact ⟨0, Nat.zero_le _, rfl⟩
  | case2 node label waiting visited met ih =>
    obtain ⟨rounds, bound, ends⟩ := ih
    refine ⟨rounds + 1, ?_, ?_⟩
    · simp only [pending, List.length_cons] at bound ⊢
      omega
    · rw [Function.iterate_succ_apply, visit, if_pos met]
      exact ends
  | case3 node label waiting visited fresh ih =>
    obtain ⟨rounds, bound, ends⟩ := ih
    refine ⟨rounds + 1, ?_, ?_⟩
    · rw [← pending_visit schedule next (by simpa using fresh)]
      exact Nat.succ_le_succ bound
    · rw [Function.iterate_succ_apply, visit, if_neg fresh]
      exact ends

/-- What every round of a search keeps holds when the search ends. -/
theorem explore_keeps {links : Links κ} {schedule : Schedule} {next : δ → δ}
    {holds : List (κ × δ) × Table κ δ → Prop}
    (kept : ∀ state, holds state → holds (links.visit schedule next state))
    {waiting : List (κ × δ)} {visited : Table κ δ} (held : holds (waiting, visited)) :
    holds ([], links.explore schedule next waiting visited) := by
  obtain ⟨rounds, -, ends⟩ := links.exists_rounds schedule next waiting visited
  rw [← ends]
  exact Function.Iterate.rec holds held kept rounds

/-- Once nothing waits, a search has found what it visited. -/
theorem explore_eq_of_rounds {links : Links κ} {schedule : Schedule} {next : δ → δ}
    {waiting : List (κ × δ)} {visited : Table κ δ} (rounds : ℕ)
    (ended : ((links.visit schedule next)^[rounds] (waiting, visited)).1 = []) :
    links.explore schedule next waiting visited =
      ((links.visit schedule next)^[rounds] (waiting, visited)).2 := by
  induction rounds generalizing waiting visited with
  | zero =>
    obtain rfl : waiting = [] := ended
    rw [explore]
    rfl
  | succ rounds ih =>
    rw [Function.iterate_succ_apply] at ended ⊢
    cases waiting with
    | nil => exact ih ended
    | cons item waiting =>
      obtain ⟨node, label⟩ := item
      rw [visit] at ended ⊢
      rw [explore]
      split at ended
      case isTrue met =>
        rw [if_pos met, if_pos met]
        exact ih ended
      case isFalse fresh =>
        rw [if_neg fresh, if_neg fresh]
        exact ih ended

/-- A node leads to another along the links. -/
abbrev LeadsTo (links : Links κ) : κ → κ → Prop := Relation.ReflTransGen links.Names

/-- No node leads back to itself. -/
def Acyclic (links : Links κ) : Prop := ∀ node, ¬ Relation.TransGen links.Names node node

/-- Links that lower a number form no cycle. -/
theorem acyclic_of_rank {links : Links κ} (rank : κ → ℕ)
    (lower : ∀ node named, links.Names node named → rank named < rank node) : links.Acyclic := by
  intro node cycle
  have descends : ∀ {first last}, Relation.TransGen links.Names first last →
      rank last < rank first := by
    intro first last path
    induction path with
    | single link => exact lower _ _ link
    | tail _ link ih => exact (lower _ _ link).trans ih
  exact lt_irrefl _ (descends cycle)

/-- Without cycles, every known node is led to by a known node that none names. -/
theorem exists_head {links : Links κ} (acyclic : links.Acyclic) {node : κ}
    (known : links[node]?.isSome) :
    ∃ head, links[head]?.isSome ∧ (∀ other, ¬ links.Names other head) ∧
      links.LeadsTo head node := by
  let Known := { node : κ // node ∈ links.keySet }
  let Above : Known → Known → Prop := fun above below =>
    Relation.TransGen links.Names above.1 below.1
  have : IsTrans Known Above := ⟨fun _ _ _ first second => first.trans second⟩
  have : Std.Irrefl Above := ⟨fun node cycle => acyclic node.1 cycle⟩
  have grounded : WellFounded Above := Finite.wellFounded_of_trans_of_irrefl Above
  suffices general : ∀ start : Known, ∃ head, links[head]?.isSome ∧
      (∀ other, ¬ links.Names other head) ∧ links.LeadsTo head start.1 from
    general ⟨node, Table.mem_keySet.mpr known⟩
  intro start
  induction start using grounded.induction with
  | _ start ih =>
    by_cases named : ∃ other, links.Names other start.1
    · obtain ⟨other, link⟩ := named
      have member : other ∈ links.keySet := by
        obtain ⟨all, found, -⟩ := link
        simp [found]
      obtain ⟨head, present, free, path⟩ := ih ⟨other, member⟩ (.single link)
      exact ⟨head, present, free, path.tail link⟩
    · exact ⟨start.1, Table.mem_keySet.mp start.2, fun other link => named ⟨other, link⟩, .refl⟩

end Links
end Aipass
