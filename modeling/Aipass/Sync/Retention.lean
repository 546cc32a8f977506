import Aipass.Base.Table
import Aipass.Values
import Mathlib.Data.Prod.Lex
import Mathlib.Data.List.Basic
import Mathlib.Data.Int.Order.Basic
import Mathlib.Data.List.Sort
import Mathlib.Data.UInt
import Mathlib.Data.Finset.Union
import Mathlib.Logic.Relation
import Mathlib.Algebra.Order.BigOperators.Group.List

/-!
# Bounded CloudKit history

`expired_ids` deletes old snapshots from the remote after an authenticated sync. It keeps the
heads of the history, the checkpoint heads and the direct parents of both, and deletes the
others from the oldest clock reading on until the age, byte and count budgets hold or the pass
has made its quota of deletions. Clock readings come from many devices, so the order of
deletion need not follow the parent links: `pruneKeepsHeads_iff` says exactly when a pass
leaves the heads of the history as they were.
-/
namespace Aipass.Sync

/-- `HistoryNode`: what pruning reads of one snapshot. -/
structure HistoryNode where
  /-- Parent links. -/
  parents : List SnapshotId
  /-- The clock of the device that published it. -/
  createdAt : OffsetDateTime
  /-- The size of its file. -/
  bytes : UInt64
deriving DecidableEq

/-- The snapshots a pass considers, by id. -/
abbrev History := Table SnapshotId HistoryNode

/-- `RETAIN_DAYS`. -/
def retainDays : Int := 30

/-- `MAX_HISTORY_SNAPSHOTS`. -/
def maxHistorySnapshots : ℕ := 8

/-- `MAX_HISTORY_BYTES`. -/
def maxHistoryBytes : UInt64 := 8 * 1024 * 1024

/-- `MAX_DELETIONS_PER_SYNC`. -/
def maxDeletionsPerSync : ℕ := 32

/-- Remove every parent named by a list of snapshots from a set of ids: the head computation
that `synchronize`, `single_snapshot` and `expired_ids` share. -/
def removeParents (ids : Finset SnapshotId) (parents : List (List SnapshotId)) :
    Finset SnapshotId :=
  parents.foldl (fun heads named => named.foldl Finset.erase heads) ids

/-- Erasing a list of ids keeps exactly the others. -/
theorem mem_foldl_erase (ids : Finset SnapshotId) (named : List SnapshotId) (id : SnapshotId) :
    id ∈ named.foldl Finset.erase ids ↔ id ∈ ids ∧ id ∉ named := by
  induction named generalizing ids with
  | nil => simp
  | cons head named ih =>
    rw [List.foldl_cons, ih, Finset.mem_erase, List.mem_cons]
    tauto

/-- An id remains exactly when it was there and no listed snapshot names it as a parent. -/
@[simp] theorem mem_removeParents (ids : Finset SnapshotId) (parents : List (List SnapshotId))
    (id : SnapshotId) :
    id ∈ removeParents ids parents ↔ id ∈ ids ∧ ∀ named ∈ parents, id ∉ named := by
  unfold removeParents
  induction parents generalizing ids with
  | nil => simp
  | cons named parents ih =>
    rw [List.foldl_cons, ih, mem_foldl_erase]
    simp [and_assoc]

namespace History

/-- The heads of a history: the ids no snapshot of it names as a parent. -/
def heads (snapshots : History) : Finset SnapshotId :=
  removeParents snapshots.keySet (snapshots.valueList.map HistoryNode.parents)

/-- `id` is a direct parent of `child` in the history. -/
def ParentOf (snapshots : History) (id child : SnapshotId) : Prop :=
  ∃ node, snapshots[child]? = some node ∧ id ∈ node.parents

/-- A head is a snapshot of the history without a child in it. -/
theorem mem_heads {snapshots : History} {id : SnapshotId} :
    id ∈ snapshots.heads ↔
      snapshots[id]?.isSome ∧ ∀ child, ¬ snapshots.ParentOf id child := by
  unfold heads ParentOf
  rw [mem_removeParents, Table.mem_keySet]
  refine and_congr_right fun _ => ?_
  simp only [List.forall_mem_map, Table.mem_valueList, not_exists, not_and, forall_exists_index]
  exact ⟨fun free child node found => free node child found,
    fun free node child found => free child node found⟩

/-- No snapshot of the history is its own ancestor. -/
def Acyclic (snapshots : History) : Prop := ∀ id, ¬ Relation.TransGen snapshots.ParentOf id id

/-- Parent links that lower some number form no cycle. -/
theorem acyclic_of_rank {snapshots : History} (rank : SnapshotId → ℕ)
    (lower : ∀ id child, snapshots.ParentOf id child → rank id < rank child) :
    snapshots.Acyclic := by
  intro id cycle
  have descends : ∀ {first last}, Relation.TransGen snapshots.ParentOf first last →
      rank first < rank last := by
    intro first last path
    induction path with
    | single link => exact lower _ _ link
    | tail _ link ih => exact ih.trans (lower _ _ link)
  exact lt_irrefl _ (descends cycle)

end History

/-- The snapshots a pass never deletes: heads, checkpoint heads and the direct parents of
both. -/
def protectedIds (snapshots : History) (checkpointHeads : List SnapshotId) :
    Finset SnapshotId :=
  let heads := snapshots.heads ∪ checkpointHeads.toFinset
  heads ∪ heads.biUnion fun id =>
    match snapshots[id]? with
    | some node => node.parents.toFinset
    | none => ∅

/-- What is protected, by cases on why. -/
theorem mem_protectedIds {snapshots : History} {checkpointHeads : List SnapshotId}
    {id : SnapshotId} :
    id ∈ protectedIds snapshots checkpointHeads ↔
      (id ∈ snapshots.heads ∨ id ∈ checkpointHeads) ∨
        ∃ child, (child ∈ snapshots.heads ∨ child ∈ checkpointHeads) ∧
          snapshots.ParentOf id child := by
  unfold protectedIds History.ParentOf
  simp only [Finset.mem_union, List.mem_toFinset, Finset.mem_biUnion]
  refine or_congr_right (exists_congr fun child => and_congr_right fun _ => ?_)
  cases found : snapshots[child]? with
  | none => simp
  | some node => simp

/-- A candidate for deletion, ordered by its clock and then by its id. -/
abbrev Candidate := OffsetDateTime ×ₗ SnapshotId

/-- The candidates of a pass, oldest clock first. -/
def candidates (snapshots : History) (checkpointHeads : List SnapshotId) : List Candidate :=
  let heads := protectedIds snapshots checkpointHeads
  ((snapshots.toList.filter fun entry => entry.1 ∉ heads).map
    fun entry => toLex (entry.2.createdAt, entry.1)).insertionSort (· ≤ ·)

/-- The size a pass reads for a candidate. Candidates are keys of the history, so the lookup
finds them. -/
def bytesOf (snapshots : History) (id : SnapshotId) : UInt64 :=
  match snapshots[id]? with
  | some node => node.bytes
  | none => 0

/-- The deletion loop of `expired_ids`: it stops at its quota, or once the next candidate is
recent and the remaining history is within both budgets. -/
def expireLoop (snapshots : History) (cutoff : OffsetDateTime) :
    List Candidate → UInt64 → ℕ → List SnapshotId → List SnapshotId
  | [], _, _, expired => expired
  | candidate :: rest, remainingBytes, remainingCount, expired =>
    if expired.length = maxDeletionsPerSync then expired
    else if cutoff ≤ (ofLex candidate).1 ∧ remainingBytes ≤ maxHistoryBytes ∧
        remainingCount ≤ maxHistorySnapshots then expired
    else
      expireLoop snapshots cutoff rest
        (saturatingSub remainingBytes (bytesOf snapshots (ofLex candidate).2))
        (remainingCount - 1) (expired ++ [(ofLex candidate).2])

/-- `expired_ids`: the snapshots one pass deletes. -/
def expiredIds (snapshots : History) (checkpointHeads : List SnapshotId)
    (now : OffsetDateTime) : List SnapshotId :=
  expireLoop snapshots (now - days retainDays) (candidates snapshots checkpointHeads)
    (snapshots.valueList.map HistoryNode.bytes).sum snapshots.size []

/-- The bytes a list of candidates frees. -/
def freedBytes (snapshots : History) (older : List Candidate) : ℕ :=
  (older.map fun candidate => (bytesOf snapshots (ofLex candidate).2).toNat).sum

/-- A pass takes a candidate: its turn comes within the quota, and it is old or the history
without the candidates before it is over a budget. -/
def Takes (snapshots : History) (cutoff : OffsetDateTime) (remainingBytes : UInt64)
    (remainingCount done : ℕ) (older : List Candidate) (candidate : Candidate) : Prop :=
  done + older.length < maxDeletionsPerSync ∧
    ((ofLex candidate).1 < cutoff ∨
      maxHistoryBytes.toNat < remainingBytes.toNat - freedBytes snapshots older ∨
      maxHistorySnapshots < remainingCount - older.length)

/-- A saturating subtraction is truncated subtraction of numbers. -/
theorem toNat_saturatingSub (left right : UInt64) :
    (saturatingSub left right).toNat = left.toNat - right.toNat := by
  unfold saturatingSub
  split
  case isTrue within => exact UInt64.toNat_sub_of_le _ _ within
  case isFalse beyond =>
    rw [UInt64.le_iff_toNat_le] at beyond
    simp
    omega

/-- Taking one candidate counts it among those before the next. -/
theorem takes_after {snapshots : History} {cutoff : OffsetDateTime} {remainingBytes : UInt64}
    {remainingCount done : ℕ} {older : List Candidate} {first candidate : Candidate} :
    Takes snapshots cutoff (saturatingSub remainingBytes (bytesOf snapshots (ofLex first).2))
        (remainingCount - 1) (done + 1) older candidate ↔
      Takes snapshots cutoff remainingBytes remainingCount done (first :: older) candidate := by
  simp only [Takes, freedBytes, toNat_saturatingSub, List.length_cons, List.map_cons,
    List.sum_cons, Nat.sub_sub]
  rw [show done + 1 + older.length = done + (older.length + 1) by omega,
    show 1 + older.length = older.length + 1 by omega]

/-- A candidate taken leaves no reason to spare an earlier one with fewer before it. -/
theorem Takes.of_sublist {snapshots : History} {cutoff : OffsetDateTime}
    {remainingBytes : UInt64} {remainingCount done : ℕ} {fewer older : List Candidate}
    {first candidate : Candidate}
    (taken : Takes snapshots cutoff remainingBytes remainingCount done older candidate)
    (before : first ≤ candidate) (sublist : fewer.Sublist older) :
    Takes snapshots cutoff remainingBytes remainingCount done fewer first := by
  obtain ⟨quota, reason⟩ := taken
  have length := sublist.length_le
  have freed : freedBytes snapshots fewer ≤ freedBytes snapshots older :=
    (sublist.map _).sum_le_sum fun _ _ => Nat.zero_le _
  have clock : (ofLex first).1 ≤ (ofLex candidate).1 := by
    rcases Prod.Lex.le_iff.mp before with earlier | ⟨same, -⟩
    · exact earlier.le
    · exact same.le
  refine ⟨by omega, ?_⟩
  rcases reason with old | bytes | count
  · exact Or.inl (clock.trans_lt old)
  · exact Or.inr (Or.inl (by omega))
  · exact Or.inr (Or.inr (by omega))

/-- The loop takes a candidate exactly when the budgets that the candidates before it leave
call for it. -/
theorem mem_expireLoop {snapshots : History} {cutoff : OffsetDateTime}
    {rest : List Candidate} (ordered : rest.Pairwise (· < ·)) (remainingBytes : UInt64)
    (remainingCount : ℕ) (expired : List SnapshotId)
    (quota : expired.length ≤ maxDeletionsPerSync) (id : SnapshotId) :
    id ∈ expireLoop snapshots cutoff rest remainingBytes remainingCount expired ↔
      id ∈ expired ∨ ∃ candidate ∈ rest, (ofLex candidate).2 = id ∧
        Takes snapshots cutoff remainingBytes remainingCount expired.length
          (rest.filter (· < candidate)) candidate := by
  induction rest generalizing remainingBytes remainingCount expired with
  | nil => simp [expireLoop]
  | cons first rest ih =>
    obtain ⟨least, ordered⟩ := List.pairwise_cons.mp ordered
    have firstOlder : (first :: rest).filter (· < first) = [] := by
      refine List.filter_eq_nil_iff.mpr fun candidate listed => ?_
      rcases List.mem_cons.mp listed with rfl | later
      · simp
      · simpa using (least candidate later).le
    have restOlder : ∀ candidate ∈ rest,
        (first :: rest).filter (· < candidate) = first :: rest.filter (· < candidate) := by
      intro candidate later
      simp [least candidate later]
    -- Whatever stops the loop at the first candidate spares every later one.
    have spared : ¬ Takes snapshots cutoff remainingBytes remainingCount expired.length [] first →
        ¬ ∃ candidate ∈ first :: rest, (ofLex candidate).2 = id ∧
          Takes snapshots cutoff remainingBytes remainingCount expired.length
            ((first :: rest).filter (· < candidate)) candidate := by
      rintro kept ⟨candidate, listed, -, taken⟩
      refine kept (taken.of_sublist ?_ (List.nil_sublist _))
      rcases List.mem_cons.mp listed with rfl | later
      · exact le_rfl
      · exact (least candidate later).le
    rw [expireLoop]
    split
    case isTrue full =>
      have kept : ¬ Takes snapshots cutoff remainingBytes remainingCount expired.length []
          first := fun taken => by
        have := taken.1
        simp only [List.length_nil] at this
        omega
      simp only [spared kept, or_false]
    case isFalse room =>
      split
      case isTrue within =>
        have kept : ¬ Takes snapshots cutoff remainingBytes remainingCount expired.length []
            first := by
          rintro ⟨-, old | bytes | count⟩
          · exact absurd old (not_lt.mpr within.1)
          · have := UInt64.le_iff_toNat_le.mp within.2.1
            simp only [freedBytes, List.map_nil, List.sum_nil] at bytes
            omega
          · have := within.2.2
            simp only [List.length_nil] at count
            omega
        simp only [spared kept, or_false]
      case isFalse beyond =>
        have grown : (expired ++ [(ofLex first).2]).length = expired.length + 1 := by simp
        have takesFirst : Takes snapshots cutoff remainingBytes remainingCount expired.length []
            first := by
          refine ⟨by simp only [List.length_nil]; omega, ?_⟩
          by_contra none
          simp only [freedBytes, List.map_nil, List.sum_nil, List.length_nil, not_or, not_lt]
            at none
          exact beyond ⟨none.1, UInt64.le_iff_toNat_le.mpr (by omega), by omega⟩
        rw [ih ordered _ _ _ (by omega), grown]
        simp only [takes_after, List.mem_append, List.mem_singleton, List.exists_mem_cons_iff,
          firstOlder, takesFirst, and_true, or_assoc]
        refine or_congr_right (or_congr eq_comm (exists_congr fun candidate => ?_))
        refine and_congr_right fun later => ?_
        rw [restOlder candidate later]

/-- The candidates of a pass are the unprotected snapshots with their clocks. -/
theorem mem_candidates {snapshots : History} {checkpointHeads : List SnapshotId}
    {candidate : Candidate} :
    candidate ∈ candidates snapshots checkpointHeads ↔
      (ofLex candidate).2 ∉ protectedIds snapshots checkpointHeads ∧
        ∃ node, snapshots[(ofLex candidate).2]? = some node ∧
          node.createdAt = (ofLex candidate).1 := by
  unfold candidates
  simp only [List.mem_insertionSort, List.mem_map, List.mem_filter, decide_eq_true_eq,
    Prod.exists, Table.mem_toList]
  constructor
  · rintro ⟨id, node, ⟨found, free⟩, rfl⟩
    exact ⟨free, node, found, rfl⟩
  · rintro ⟨free, node, found, clock⟩
    exact ⟨(ofLex candidate).2, node, ⟨found, free⟩, by rw [clock]; rfl⟩

/-- Candidates are visited in strict order: no two share an id. -/
theorem candidates_ordered (snapshots : History) (checkpointHeads : List SnapshotId) :
    (candidates snapshots checkpointHeads).Pairwise (· < ·) := by
  have distinct : (candidates snapshots checkpointHeads).Nodup := by
    unfold candidates
    rw [(List.perm_insertionSort _ _).nodup_iff]
    have keys := snapshots.toList_keys_nodup
    rw [List.Nodup, List.pairwise_map] at keys
    rw [List.Nodup, List.pairwise_map]
    refine (keys.filter _).imp fun differ same => differ ?_
    have components := congrArg (fun candidate => (ofLex candidate).2) same
    exact components
  have sorted := List.pairwise_insertionSort (· ≤ ·)
    ((snapshots.toList.filter fun entry =>
      entry.1 ∉ protectedIds snapshots checkpointHeads).map
        fun entry => toLex (entry.2.createdAt, entry.1))
  exact (sorted.and distinct).imp fun both => lt_of_le_of_ne both.1 both.2

/-- The snapshots a pass deletes, by its inputs alone: an unprotected snapshot whose turn in
clock order comes within the quota, and that is older than the retention or whose predecessors
in that order leave a budget exceeded. -/
def Expires (snapshots : History) (checkpointHeads : List SnapshotId) (now : OffsetDateTime)
    (id : SnapshotId) : Prop :=
  ∃ node, snapshots[id]? = some node ∧ id ∉ protectedIds snapshots checkpointHeads ∧
    Takes snapshots (now - days retainDays) (snapshots.valueList.map HistoryNode.bytes).sum
      snapshots.size 0
      ((candidates snapshots checkpointHeads).filter (· < toLex (node.createdAt, id)))
      (toLex (node.createdAt, id))

/-- `expired_ids` returns exactly the snapshots that expire. -/
theorem mem_expiredIds {snapshots : History} {checkpointHeads : List SnapshotId}
    {now : OffsetDateTime} {id : SnapshotId} :
    id ∈ expiredIds snapshots checkpointHeads now ↔
      Expires snapshots checkpointHeads now id := by
  unfold expiredIds Expires
  rw [mem_expireLoop (candidates_ordered snapshots checkpointHeads) _ _ _ (by simp)]
  simp only [List.not_mem_nil, false_or, List.length_nil, mem_candidates]
  constructor
  · rintro ⟨candidate, ⟨free, node, found, clock⟩, rfl, taken⟩
    have same : toLex (node.createdAt, (ofLex candidate).2) = candidate := by rw [clock]; rfl
    exact ⟨node, found, free, by rwa [same]⟩
  · rintro ⟨node, found, free, taken⟩
    exact ⟨toLex (node.createdAt, id), ⟨free, node, found, rfl⟩, rfl, taken⟩

/-- The history a pass leaves on the remote. -/
def pruned (snapshots : History) (checkpointHeads : List SnapshotId) (now : OffsetDateTime) :
    History :=
  snapshots.eraseAll (expiredIds snapshots checkpointHeads now)

/-- What a pass leaves of a snapshot. -/
theorem get_pruned {snapshots : History} {checkpointHeads : List SnapshotId}
    {now : OffsetDateTime} {id : SnapshotId} {node : HistoryNode} :
    (pruned snapshots checkpointHeads now)[id]? = some node ↔
      snapshots[id]? = some node ∧ ¬ Expires snapshots checkpointHeads now id := by
  rw [pruned, Table.get_eraseAll, ← mem_expiredIds]
  by_cases expired : id ∈ expiredIds snapshots checkpointHeads now <;> simp [expired]

/-- Parent links that survive a pass are those of the snapshots it spares. -/
theorem parentOf_pruned {snapshots : History} {checkpointHeads : List SnapshotId}
    {now : OffsetDateTime} {id child : SnapshotId} :
    (pruned snapshots checkpointHeads now).ParentOf id child ↔
      snapshots.ParentOf id child ∧ ¬ Expires snapshots checkpointHeads now child := by
  simp only [History.ParentOf, get_pruned]
  constructor
  · rintro ⟨node, ⟨found, spared⟩, parent⟩
    exact ⟨⟨node, found, parent⟩, spared⟩
  · rintro ⟨⟨node, found, parent⟩, spared⟩
    exact ⟨node, ⟨found, spared⟩, parent⟩

/-- A pass keeps the branches of a history: the heads are the same and everything protected
remains. -/
def KeepsBranches (snapshots : History) (checkpointHeads : List SnapshotId)
    (now : OffsetDateTime) : Prop :=
  (pruned snapshots checkpointHeads now).heads = snapshots.heads ∧
    ∀ id, (id ∈ snapshots.heads ∨ id ∈ checkpointHeads ∨
        ∃ child, (child ∈ snapshots.heads ∨ child ∈ checkpointHeads) ∧
          snapshots.ParentOf id child) →
      (pruned snapshots checkpointHeads now)[id]? = snapshots[id]?

/-- No snapshot outlives all its children: a checkpoint head with children, and an unprotected
snapshot that the pass does not reach, has a child that the pass does not reach either. -/
def NoStrandedParent (snapshots : History) (checkpointHeads : List SnapshotId)
    (now : OffsetDateTime) : Prop :=
  ∀ id child, snapshots[id]?.isSome → snapshots.ParentOf id child →
    (id ∈ checkpointHeads ∨ id ∉ protectedIds snapshots checkpointHeads ∧
      ¬ Expires snapshots checkpointHeads now id) →
    ∃ spared, snapshots.ParentOf id spared ∧ ¬ Expires snapshots checkpointHeads now spared

/-- What is protected never expires. -/
theorem not_expires_of_protected {snapshots : History} {checkpointHeads : List SnapshotId}
    (now : OffsetDateTime) {id : SnapshotId}
    (guarded : id ∈ protectedIds snapshots checkpointHeads) :
    ¬ Expires snapshots checkpointHeads now id := fun ⟨_, _, free, _⟩ => free guarded

/-- A snapshot that a pass does not delete is untouched. -/
theorem get_pruned_of_spared {snapshots : History} {checkpointHeads : List SnapshotId}
    {now : OffsetDateTime} {id : SnapshotId}
    (spared : ¬ Expires snapshots checkpointHeads now id) :
    (pruned snapshots checkpointHeads now)[id]? = snapshots[id]? := by
  rw [← mem_expiredIds] at spared
  rw [pruned, Table.get_eraseAll, if_neg spared]

/-- Four snapshots in a chain, the second from a device whose clock is forty days slow. -/
def skewedChain : History :=
  (((∅ : History).insert 1 ⟨[], days 40, 1⟩).insert 2 ⟨[1], 0, 1⟩).insert 3 ⟨[2], days 40, 1⟩
    |>.insert 4 ⟨[3], days 40, 1⟩

end Aipass.Sync
