import Aipass.Base.Breadth
import Aipass.Sync.Synchronize

/-!
# The base of a merge

Before `synchronize` merges a head, `common_ancestor` looks for a known snapshot that both the
head and the local head descend from. It searches breadth first from both and takes, of the known
snapshots that both searches find, the one with the least sum of parent links, the least id among
equals. So there is a base whenever there is a common ancestor, and none is nearer by links. A
chain of links that bypasses a common ancestor can still make an older one the base:
`lowest_iff` says when.
-/
namespace Aipass.Sync

namespace Snapshots

/-- A known snapshot that two ids descend from, or are. -/
structure Common (snapshots : Snapshots) (left right id : SnapshotId) : Prop where
  known : snapshots[id]?.isSome
  fromLeft : snapshots.links.LeadsTo left id
  fromRight : snapshots.links.LeadsTo right id

/-- The order in which `common_ancestor` prefers ancestors: by the sum of the parent links from
both ids, and then by id. -/
noncomputable def rank (snapshots : Snapshots) (left right id : SnapshotId) : ℕ ×ₗ SnapshotId :=
  toLex (snapshots.links.distance left id + snapshots.links.distance right id, id)

/-- No other common ancestor is a proper descendant. -/
def Lowest (snapshots : Snapshots) (left right id : SnapshotId) : Prop :=
  ∀ other, snapshots.Common left right other → other ≠ id →
    ¬ Relation.TransGen snapshots.links.Names other id

/-- A common ancestor that another one properly descends from comes after some common ancestor. -/
def NoShortcut (snapshots : Snapshots) (left right : SnapshotId) : Prop :=
  ∀ older nearer, snapshots.Common left right older → snapshots.Common left right nearer →
    nearer ≠ older → Relation.TransGen snapshots.links.Names nearer older →
      ∃ other, snapshots.Common left right other ∧
        snapshots.rank left right other < snapshots.rank left right older

end Snapshots

/-- The search from one id labels what it finds with the least number of parent links. -/
theorem ancestors_eq_some {snapshots : Snapshots} {start id : SnapshotId} {count : ℕ} :
    (ancestors snapshots start)[id]? = some count ↔
      snapshots.links.LeadsTo start id ∧ snapshots.links.distance start id = count :=
  Links.explore_queue_eq_some

/-- A snapshot that the first search found is a candidate if it is known and the second search
found it too. -/
def candidateOf (right : SnapshotId) (snapshots : Snapshots) (entry : SnapshotId × ℕ) :
    Option (SnapshotId × ℕ) :=
  match (ancestors snapshots right)[entry.1]? with
  | some distance =>
    if snapshots[entry.1]?.isSome then some (entry.1, entry.2 + distance) else none
  | none => none

/-- A candidate is a known snapshot with its sum of parent links. -/
theorem candidateOf_eq_some {right : SnapshotId} {snapshots : Snapshots}
    {entry candidate : SnapshotId × ℕ} :
    candidateOf right snapshots entry = some candidate ↔
      snapshots[entry.1]?.isSome ∧ snapshots.links.LeadsTo right entry.1 ∧
        (entry.1, entry.2 + snapshots.links.distance right entry.1) = candidate := by
  unfold candidateOf
  constructor
  · intro chosen
    split at chosen
    case h_1 distance found =>
      obtain ⟨path, rfl⟩ := ancestors_eq_some.mp found
      split at chosen
      case isTrue known => exact ⟨known, path, Option.some.inj chosen⟩
      case isFalse => simp at chosen
    case h_2 => simp at chosen
  · rintro ⟨known, path, rfl⟩
    rw [ancestors_eq_some.mpr ⟨path, rfl⟩]
    exact if_pos known

/-- The candidates of `common_ancestor`. -/
def candidatesOf (left right : SnapshotId) (snapshots : Snapshots) : List (SnapshotId × ℕ) :=
  (ancestors snapshots left).toList.filterMap (candidateOf right snapshots)

/-- `common_ancestor` takes the nearest candidate. -/
theorem commonAncestor_eq (left right : SnapshotId) (snapshots : Snapshots) :
    commonAncestor left right snapshots =
      (nearest (candidatesOf left right snapshots)).map Prod.fst := rfl

/-- The candidates are the common ancestors, with their sums of parent links. -/
theorem mem_candidatesOf {left right id : SnapshotId} {snapshots : Snapshots} {sum : ℕ} :
    (id, sum) ∈ candidatesOf left right snapshots ↔ snapshots.Common left right id ∧
      snapshots.links.distance left id + snapshots.links.distance right id = sum := by
  simp only [candidatesOf, List.mem_filterMap, Prod.exists, Table.mem_toList, candidateOf_eq_some,
    ancestors_eq_some]
  constructor
  · rintro ⟨other, count, ⟨fromLeft, rfl⟩, known, fromRight, same⟩
    obtain ⟨rfl, rfl⟩ := Prod.mk.inj same
    exact ⟨⟨known, fromLeft, fromRight⟩, rfl⟩
  · rintro ⟨⟨known, fromLeft, fromRight⟩, rfl⟩
    exact ⟨id, _, ⟨fromLeft, rfl⟩, known, fromRight, rfl⟩

/-- The candidates come in the order of their ids. -/
theorem candidatesOf_ordered (left right : SnapshotId) (snapshots : Snapshots) :
    (candidatesOf left right snapshots).Pairwise fun first later => first.1 < later.1 := by
  refine List.pairwise_filterMap.mpr ((ancestors snapshots left).toList_ordered.imp ?_)
  intro first later lower candidate chosen candidate' chosen'
  obtain ⟨-, -, rfl⟩ := candidateOf_eq_some.mp chosen
  obtain ⟨-, -, rfl⟩ := candidateOf_eq_some.mp chosen'
  exact lower

/-- There is a nearest candidate unless there is none. -/
theorem nearest_eq_none {candidates : List (SnapshotId × ℕ)} :
    nearest candidates = none ↔ candidates = [] := by
  cases candidates with
  | nil => simp [nearest]
  | cons candidate rest =>
    rw [nearest]
    split
    · split <;> simp
    · simp

/-- The nearest of candidates in the order of their ids has the least sum, and the least id
among those. -/
theorem nearest_least {candidates : List (SnapshotId × ℕ)}
    (ordered : candidates.Pairwise fun first later => first.1 < later.1)
    {best : SnapshotId × ℕ} (found : nearest candidates = some best) :
    best ∈ candidates ∧
      ∀ other ∈ candidates, toLex (best.2, best.1) ≤ toLex (other.2, other.1) := by
  induction candidates generalizing best with
  | nil => simp [nearest] at found
  | cons candidate rest ih =>
    obtain ⟨lower, ordered⟩ := List.pairwise_cons.mp ordered
    rw [nearest] at found
    split at found
    case h_1 other chosen =>
      obtain ⟨member, least⟩ := ih ordered chosen
      split at found
      case isTrue near =>
        obtain rfl := Option.some.inj found
        refine ⟨List.mem_cons_self, fun third listed => ?_⟩
        rcases List.mem_cons.mp listed with rfl | later
        · exact le_rfl
        · have within : candidate.2 ≤ third.2 := by
            rcases Prod.Lex.toLex_le_toLex.mp (least third later) with less | ⟨same, -⟩
            · exact near.trans less.le
            · exact near.trans same.le
          exact Prod.Lex.toLex_le_toLex.mpr
            (within.lt_or_eq.imp_right fun same => ⟨same, (lower third later).le⟩)
      case isFalse far =>
        obtain rfl := Option.some.inj found
        refine ⟨List.mem_cons_of_mem _ member, fun third listed => ?_⟩
        rcases List.mem_cons.mp listed with rfl | later
        · exact Prod.Lex.toLex_le_toLex.mpr (Or.inl (not_le.mp far))
        · exact least third later
    case h_2 none_ =>
      obtain rfl := nearest_eq_none.mp none_
      obtain rfl := Option.some.inj found
      exact ⟨List.mem_cons_self, by simp⟩

/-- `common_ancestor` returns the common ancestor that comes first. -/
theorem commonAncestor_eq_some {left right id : SnapshotId} {snapshots : Snapshots} :
    commonAncestor left right snapshots = some id ↔ snapshots.Common left right id ∧
      ∀ other, snapshots.Common left right other →
        snapshots.rank left right id ≤ snapshots.rank left right other := by
  have first : ∀ {id : SnapshotId}, commonAncestor left right snapshots = some id →
      snapshots.Common left right id ∧ ∀ other, snapshots.Common left right other →
        snapshots.rank left right id ≤ snapshots.rank left right other := by
    intro id found
    rw [commonAncestor_eq, Option.map_eq_some_iff] at found
    obtain ⟨⟨best, sum⟩, chosen, rfl⟩ := found
    obtain ⟨member, least⟩ := nearest_least (candidatesOf_ordered left right snapshots) chosen
    obtain ⟨common, rfl⟩ := mem_candidatesOf.mp member
    exact ⟨common, fun other shared => least (other, _) (mem_candidatesOf.mpr ⟨shared, rfl⟩)⟩
  refine ⟨first, fun ⟨common, least⟩ => ?_⟩
  cases chosen : commonAncestor left right snapshots with
  | none =>
    rw [commonAncestor_eq, Option.map_eq_none_iff, nearest_eq_none] at chosen
    have member := mem_candidatesOf.mpr ⟨common, rfl⟩
    simp [chosen] at member
  | some other =>
    obtain ⟨shared, before⟩ := first chosen
    have same := le_antisymm (before id common) (least other shared)
    exact congrArg some (congrArg (fun rank => (ofLex rank).2) same)

/-- `common_ancestor` finds a base exactly when there is a common ancestor. -/
theorem commonAncestor_isSome {left right : SnapshotId} {snapshots : Snapshots} :
    (commonAncestor left right snapshots).isSome ↔ ∃ id, snapshots.Common left right id := by
  constructor
  · intro found
    obtain ⟨id, chosen⟩ := Option.isSome_iff_exists.mp found
    exact ⟨id, (commonAncestor_eq_some.mp chosen).1⟩
  · rintro ⟨id, common⟩
    rw [commonAncestor_eq, Option.isSome_map, Option.isSome_iff_ne_none, ne_eq, nearest_eq_none]
    exact List.ne_nil_of_mem (mem_candidatesOf.mpr ⟨common, rfl⟩)

/-- The base is no ancestor of another common ancestor exactly when no chain of parent links
bypasses the common ancestors. -/
theorem lowest_iff {left right id : SnapshotId} {snapshots : Snapshots}
    (found : commonAncestor left right snapshots = some id) :
    snapshots.Lowest left right id ↔ snapshots.NoShortcut left right := by
  obtain ⟨common, least⟩ := commonAncestor_eq_some.mp found
  constructor
  · intro lowest older nearer isOlder isNearer differ path
    refine ⟨id, common, lt_of_le_of_ne (least older isOlder) fun same => ?_⟩
    obtain rfl : id = older := congrArg (fun rank => (ofLex rank).2) same
    exact lowest nearer isNearer differ path
  · intro free other isOther differ path
    obtain ⟨third, isThird, before⟩ := free id other common isOther differ path
    exact absurd (least third isThird) (not_le.mpr before)

/-- `common_ancestor`: each of its searches ends, cycles or not; it returns an id exactly when
there is a common ancestor; the id it returns is one, the first by the sum of its distances and
its id; and no other one descends from it exactly when no chain bypasses them. -/
theorem commonAncestor_first (snapshots : Snapshots) (left right : SnapshotId) :
    (∀ start, ∃ rounds ≤ 1 + ∑ id ∈ snapshots.links.keySet, (snapshots.links.namedBy id).length,
        (snapshots.links.visit .queue (· + 1))^[rounds] ([(start, 0)], ∅) =
          ([], ancestors snapshots start)) ∧
      ((commonAncestor left right snapshots).isSome ↔ ∃ id, snapshots.Common left right id) ∧
      ∀ id, commonAncestor left right snapshots = some id →
        snapshots.Common left right id ∧
          (∀ other, snapshots.Common left right other →
            snapshots.rank left right id ≤ snapshots.rank left right other) ∧
          (snapshots.Lowest left right id ↔ snapshots.NoShortcut left right) := by
  refine ⟨fun start => ?_, commonAncestor_isSome, fun id found => ?_⟩
  · have unmet : snapshots.links.unmet (∅ : Table SnapshotId ℕ) = snapshots.links.keySet :=
      Finset.filter_true_of_mem (by simp)
    obtain ⟨rounds, bound, ends⟩ :=
      snapshots.links.exists_rounds .queue (· + 1) [(start, 0)] ∅
    rw [Links.pending, unmet] at bound
    exact ⟨rounds, bound, ends⟩
  · obtain ⟨common, least⟩ := commonAncestor_eq_some.mp found
    exact ⟨common, least, lowest_iff found⟩

/-- A device was at 1 while 2, 3 and 4 followed; it merged 4, and so 5 names 1 and 4. Meanwhile 6
followed 2. -/
def bypassed : Snapshots :=
  (∅ : Snapshots).insertAll
    [(1, ⟨[], none⟩), (2, ⟨[1], none⟩), (3, ⟨[2], none⟩), (4, ⟨[3], none⟩), (5, ⟨[1, 4], none⟩),
      (6, ⟨[2], none⟩)]

/-- The parent links of that history lower the id. -/
theorem bypassed_acyclic : bypassed.links.Acyclic := by
  refine Links.acyclic_of_rank (fun id => id) fun child id ⟨parents, found, named⟩ => ?_
  rw [Snapshots.links, Table.get_map, Option.map_eq_some_iff] at found
  obtain ⟨metadata, held, rfl⟩ := found
  have lower : ∀ entry ∈ bypassed.toList, ∀ id ∈ entry.2.parents, id < entry.1 := by decide
  exact lower (child, metadata) (Table.mem_toList.mpr held) id named

/-- The base of 5 and 6 is 1, though both descend from 2 and 2 from 1. -/
theorem bypassed_not_lowest :
    ¬ ∀ (snapshots : Snapshots) (left right : SnapshotId), snapshots.links.Acyclic →
      ((commonAncestor left right snapshots).isSome ↔ ∃ id, snapshots.Common left right id) ∧
        ∀ id, commonAncestor left right snapshots = some id →
          snapshots.Common left right id ∧ snapshots.Lowest left right id := by
  intro claimed
  have found : commonAncestor 5 6 bypassed = some 1 := by
    have fromLeft := Links.explore_eq_of_rounds 6
      (by decide : ((bypassed.links.visit .queue (· + 1))^[6] ([(5, 0)], ∅)).1 = [])
    have fromRight := Links.explore_eq_of_rounds 3
      (by decide : ((bypassed.links.visit .queue (· + 1))^[3] ([(6, 0)], ∅)).1 = [])
    rw [commonAncestor, ancestors, ancestors, fromLeft, fromRight]
    decide
  have fourth : bypassed.links.Names 5 4 := ⟨[1, 4], by decide, by decide⟩
  have third : bypassed.links.Names 4 3 := ⟨[3], by decide, by decide⟩
  have second : bypassed.links.Names 3 2 := ⟨[2], by decide, by decide⟩
  have aside : bypassed.links.Names 6 2 := ⟨[2], by decide, by decide⟩
  have first : bypassed.links.Names 2 1 := ⟨[1], by decide, by decide⟩
  have shared : bypassed.Common 5 6 2 :=
    ⟨by decide, .head fourth (.head third (.single second)), .single aside⟩
  exact ((claimed bypassed 5 6 bypassed_acyclic).2 1 found).2 2 shared (by decide) (.single first)

end Aipass.Sync
