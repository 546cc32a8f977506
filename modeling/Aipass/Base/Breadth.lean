import Aipass.Base.Search
import Mathlib.Order.Bounds.Basic
import Mathlib.Order.Lattice.Nat

/-!
# Searching breadth first

A search that takes the node found first and counts the links it went along labels every node
with the least number of links that lead to it. While the search runs, the counts that wait are
in order and at most one apart, so a node met for the first time is met with its least count.
-/
namespace Aipass.Links

variable {κ : Type} [LinearOrder κ]

/-- A node leads to another along a number of links. -/
inductive Reaches (links : Links κ) (start : κ) : ℕ → κ → Prop where
  /-- A node leads to itself along no link. -/
  | here : Reaches links start 0 start
  /-- A chain goes on along one more link. -/
  | link {count node named} (reached : Reaches links start count node)
      (names : links.Names node named) : Reaches links start (count + 1) named

/-- A node leads to what it reaches along some number of links. -/
theorem leadsTo_iff {links : Links κ} {start node : κ} :
    links.LeadsTo start node ↔ ∃ count, links.Reaches start count node := by
  constructor
  · intro path
    induction path with
    | refl => exact ⟨0, .here⟩
    | tail _ names ih =>
      obtain ⟨count, reached⟩ := ih
      exact ⟨count + 1, reached.link names⟩
  · rintro ⟨count, reached⟩
    induction reached with
    | here => exact .refl
    | link _ names ih => exact ih.tail names

/-- The least number of links along which a node leads to another. -/
noncomputable def distance (links : Links κ) (start node : κ) : ℕ :=
  sInf {count | links.Reaches start count node}

/-- A node reaches what it leads to along that many links, and along no fewer. -/
theorem isLeast_distance {links : Links κ} {start node : κ} (path : links.LeadsTo start node) :
    IsLeast {count | links.Reaches start count node} (links.distance start node) :=
  ⟨Nat.sInf_mem (leadsTo_iff.mp path), fun _ reached => Nat.sInf_le reached⟩

/-- A node has been met, or waits, with at most a count. -/
def Due (state : List (κ × ℕ) × Table κ ℕ) (node : κ) (bound : ℕ) : Prop :=
  ∃ count ≤ bound, state.2[node]? = some count ∨ (node, count) ∈ state.1

/-- What the rounds of a search breadth first keep. -/
structure Layered (links : Links κ) (start : κ) (state : List (κ × ℕ) × Table κ ℕ) : Prop where
  /-- What waits is in the order of its counts. -/
  ordered : state.1.Pairwise fun first later => first.2 ≤ later.2
  /-- The counts that wait are at most one apart. -/
  band : ∀ item ∈ state.1, ∀ other ∈ state.1, item.2 ≤ other.2 + 1
  /-- What was met has no greater count than what waits. -/
  passed : ∀ (node : κ) count, state.2[node]? = some count → ∀ item ∈ state.1, count ≤ item.2
  /-- The start leads along its count to what waits. -/
  waits : ∀ item ∈ state.1, links.Reaches start item.2 item.1
  /-- The start leads along its count to what was met. -/
  met : ∀ (node : κ) count, state.2[node]? = some count → links.Reaches start count node
  /-- The start is met without a link. -/
  starts : Due state start 0
  /-- What a met node names is met along at most one link more. -/
  follows : ∀ (node : κ) count, state.2[node]? = some count → ∀ named, links.Names node named →
    Due state named (count + 1)
  /-- A count that waits leaves room for the nodes still to meet. -/
  room : ∀ item ∈ state.1, item.2 + (links.unmet state.2).card ≤ links.keySet.card
  /-- No count exceeds the number of known nodes. -/
  bounded : ∀ (node : κ) count, state.2[node]? = some count → count ≤ links.keySet.card

/-- A search from one node begins in layers. -/
theorem Layered.initial (links : Links κ) (start : κ) : links.Layered start ([(start, 0)], ∅) where
  ordered := List.pairwise_singleton _ _
  band := by simp
  passed := by simp
  waits := by
    intro item waiting
    obtain rfl := List.mem_singleton.mp waiting
    exact .here
  met := by simp
  starts := ⟨0, le_rfl, Or.inr (List.mem_singleton_self _)⟩
  follows := by simp
  room := by
    intro item waiting
    obtain rfl := List.mem_singleton.mp waiting
    rw [Nat.zero_add]
    exact Finset.card_filter_le _ _
  bounded := by simp

section Rounds

variable {links : Links κ} {start first : κ} {label : ℕ} {waiting : List (κ × ℕ)}
  {visited : Table κ ℕ}

/-- What waits once a node was met: what it names, with one link more, and what waited. -/
theorem mem_queued {item : κ × ℕ} :
    item ∈ Schedule.queue.place ((links.namedBy first).map fun named => (named, label + 1))
        waiting ↔
      (links.Names first item.1 ∧ item.2 = label + 1) ∨ item ∈ waiting :=
  mem_scheduled (· + 1)

/-- Passing over a node met before leaves due what was due. -/
theorem Due.pass {node : κ} {bound earlier : ℕ}
    (due : Due ((first, label) :: waiting, visited) node bound)
    (met : visited[first]? = some earlier) (within : earlier ≤ label) :
    Due (waiting, visited) node bound := by
  obtain ⟨count, below, held | listed⟩ := due
  · exact ⟨count, below, Or.inl held⟩
  · rcases List.mem_cons.mp listed with same | later
    · obtain ⟨rfl, rfl⟩ := Prod.mk.inj same
      exact ⟨earlier, within.trans below, Or.inl met⟩
    · exact ⟨count, below, Or.inr later⟩

/-- Meeting a node leaves due what was due. -/
theorem Due.meet {node : κ} {bound : ℕ} (due : Due ((first, label) :: waiting, visited) node bound)
    (fresh : visited[first]? = none) :
    Due (Schedule.queue.place ((links.namedBy first).map fun named => (named, label + 1)) waiting,
      visited.insert first label) node bound := by
  obtain ⟨count, below, held | listed⟩ := due
  · have other : first ≠ node := by
      rintro rfl
      simp [held] at fresh
    exact ⟨count, below, Or.inl (by rw [Table.get_insert, if_neg other]; exact held)⟩
  · rcases List.mem_cons.mp listed with same | later
    · obtain ⟨rfl, rfl⟩ := Prod.mk.inj same
      exact ⟨count, below, Or.inl (by simp)⟩
    · exact ⟨count, below, Or.inr (mem_queued.mpr (Or.inr later))⟩

/-- Passing over a node met before keeps the layers. -/
theorem Layered.pass (layered : links.Layered start ((first, label) :: waiting, visited))
    (met : visited[first]?.isSome) : links.Layered start (waiting, visited) := by
  obtain ⟨earlier, found⟩ := Option.isSome_iff_exists.mp met
  have within := layered.passed first earlier found _ List.mem_cons_self
  exact {
    ordered := layered.ordered.of_cons
    band := fun item listed other waits =>
      layered.band item (List.mem_cons_of_mem _ listed) other (List.mem_cons_of_mem _ waits)
    passed := fun node count held item listed =>
      layered.passed node count held item (List.mem_cons_of_mem _ listed)
    waits := fun item listed => layered.waits item (List.mem_cons_of_mem _ listed)
    met := layered.met
    starts := layered.starts.pass found within
    follows := fun node count held named names =>
      (layered.follows node count held named names).pass found within
    room := fun item listed => layered.room item (List.mem_cons_of_mem _ listed)
    bounded := layered.bounded }

/-- Meeting a node keeps the layers: what it names waits behind everything else, with one link
more. -/
theorem Layered.meet (layered : links.Layered start ((first, label) :: waiting, visited))
    (fresh : visited[first]? = none) :
    links.Layered start
      (Schedule.queue.place ((links.namedBy first).map fun named => (named, label + 1)) waiting,
        visited.insert first label) := by
  have lead : (first, label) ∈ (first, label) :: waiting := List.mem_cons_self
  have least : ∀ item ∈ waiting, label ≤ item.2 := (List.pairwise_cons.mp layered.ordered).1
  have close : ∀ item ∈ waiting, item.2 ≤ label + 1 := fun item waits =>
    layered.band item (List.mem_cons_of_mem _ waits) _ lead
  refine ⟨?_, ?_, ?_, ?_, ?_, layered.starts.meet fresh, ?_, ?_, ?_⟩
  · refine List.pairwise_append.mpr ⟨layered.ordered.of_cons, ?_, ?_⟩
    · exact List.pairwise_map.mpr (List.pairwise_of_forall fun _ _ => le_rfl)
    · intro item waits other found
      obtain ⟨named, -, rfl⟩ := List.mem_map.mp found
      exact close item waits
  · have bounds : ∀ item ∈ Schedule.queue.place
        ((links.namedBy first).map fun named => (named, label + 1)) waiting,
        label ≤ item.2 ∧ item.2 ≤ label + 1 := by
      intro item scheduled
      rcases mem_queued.mp scheduled with ⟨-, count⟩ | waits
      · omega
      · exact ⟨least item waits, close item waits⟩
    intro item scheduled other scheduled'
    have upper := (bounds item scheduled).2
    have lower := (bounds other scheduled').1
    omega
  · intro node count held item scheduled
    have within : count ≤ label := by
      rw [Table.get_insert] at held
      split at held
      · exact (Option.some.inj held).ge
      · exact layered.passed node count held _ lead
    rcases mem_queued.mp scheduled with ⟨-, later⟩ | waits
    · omega
    · exact within.trans (least item waits)
  · intro item scheduled
    rcases mem_queued.mp scheduled with ⟨names, count⟩ | waits
    · rw [count]
      exact (layered.waits _ lead).link names
    · exact layered.waits item (List.mem_cons_of_mem _ waits)
  · intro node count held
    rw [Table.get_insert] at held
    split at held
    case isTrue same =>
      obtain rfl := Option.some.inj held
      exact same ▸ layered.waits _ lead
    case isFalse => exact layered.met node count held
  · intro node count held named names
    rw [Table.get_insert] at held
    split at held
    case isTrue same =>
      obtain rfl := Option.some.inj held
      exact ⟨label + 1, le_rfl, Or.inr (mem_queued.mpr (Or.inl ⟨same ▸ names, rfl⟩))⟩
    case isFalse => exact (layered.follows node count held named names).meet fresh
  · intro item scheduled
    rw [unmet_insert]
    rcases mem_queued.mp scheduled with ⟨names, count⟩ | waits
    · -- Only a known node names another, and it is met now.
      obtain ⟨all, found, -⟩ := names
      have known : first ∈ links.unmet visited :=
        Finset.mem_filter.mpr ⟨by simp [found], by rw [fresh]; rfl⟩
      have fewer := Finset.card_erase_add_one known
      have before : label + (links.unmet visited).card ≤ links.keySet.card := layered.room _ lead
      omega
    · have before : item.2 + (links.unmet visited).card ≤ links.keySet.card :=
        layered.room item (List.mem_cons_of_mem _ waits)
      exact (Nat.add_le_add_left Finset.card_erase_le _).trans before
  · intro node count held
    rw [Table.get_insert] at held
    split at held
    case isTrue =>
      obtain rfl := Option.some.inj held
      exact (Nat.le_add_right _ _).trans (layered.room _ lead)
    case isFalse => exact layered.bounded node count held

/-- A round of a search breadth first keeps the layers. -/
theorem Layered.visit {state : List (κ × ℕ) × Table κ ℕ} (layered : links.Layered start state) :
    links.Layered start (links.visit .queue (· + 1) state) := by
  obtain ⟨waiting, visited⟩ := state
  cases waiting with
  | nil => exact layered
  | cons item waiting =>
    obtain ⟨first, label⟩ := item
    rw [Links.visit]
    split
    case isTrue met => exact layered.pass met
    case isFalse fresh => exact layered.meet (by simpa using fresh)

end Rounds

/-- A search breadth first ends in layers. -/
theorem layered_explore (links : Links κ) (start : κ) :
    links.Layered start ([], links.explore .queue (· + 1) [(start, 0)] ∅) :=
  explore_keeps (fun _ layered => layered.visit) (.initial links start)

/-- A search breadth first labels the nodes it finds with the least number of links to them. -/
theorem explore_queue_eq_some {links : Links κ} {start node : κ} {count : ℕ} :
    (links.explore .queue (· + 1) [(start, 0)] ∅)[node]? = some count ↔
      links.LeadsTo start node ∧ links.distance start node = count := by
  have layered := links.layered_explore start
  have found : ∀ {reached : κ} {length : ℕ}, links.Reaches start length reached →
      ∃ label ≤ length, (links.explore .queue (· + 1) [(start, 0)] ∅)[reached]? = some label := by
    intro reached length chain
    induction chain with
    | here => simpa [Due] using layered.starts
    | link _ names ih =>
      obtain ⟨label, within, held⟩ := ih
      obtain ⟨next, close, held⟩ := by simpa [Due] using layered.follows _ _ held _ names
      exact ⟨next, close.trans (Nat.succ_le_succ within), held⟩
  constructor
  · intro held
    have reached := layered.met node count held
    have path := leadsTo_iff.mpr ⟨count, reached⟩
    refine ⟨path, le_antisymm ((isLeast_distance path).2 reached) ?_⟩
    obtain ⟨label, within, labelled⟩ := found (isLeast_distance path).1
    rw [held, Option.some.injEq] at labelled
    exact labelled ▸ within
  · rintro ⟨path, rfl⟩
    obtain ⟨label, within, labelled⟩ := found (isLeast_distance path).1
    have least := (isLeast_distance path).2 (layered.met node label labelled)
    rw [labelled, le_antisymm within least]

end Aipass.Links
