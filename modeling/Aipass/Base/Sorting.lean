import Mathlib.Data.List.Sort
import Mathlib.Data.Nat.Count
import Mathlib.Data.Nat.Periodic

/-!
# Stable sorts and weighted turns

A stable sort of a list that is in one order already puts it in the order of the sort and, where that
does not decide, in the order it had. Whoever takes turns by weight walks through the weights with a
counter: over as many turns in a row as the weights sum to, each position comes up as often as its
weight says.
-/
namespace Aipass

variable {α : Type}

/-- Two different elements of a list come in one of the two orders. -/
theorem pair_sublist {elements : List α} {first second : α} (differ : first ≠ second)
    (listed : first ∈ elements) (listedSecond : second ∈ elements) :
    [first, second].Sublist elements ∨ [second, first].Sublist elements := by
  induction elements with
  | nil => cases listed
  | cons head tail ih =>
    rcases List.mem_cons.mp listed with rfl | later
    · have inTail := (List.mem_cons.mp listedSecond).resolve_left (Ne.symm differ)
      exact .inl (List.Sublist.cons_cons _ (List.singleton_sublist.mpr inTail))
    · rcases List.mem_cons.mp listedSecond with rfl | laterSecond
      · exact .inr (List.Sublist.cons_cons _ (List.singleton_sublist.mpr later))
      · exact (ih later laterSecond).imp (List.Sublist.cons _) (List.Sublist.cons _)

/-- Two elements of a list without duplicates come in one order only. -/
theorem not_pair_sublist {elements : List α} (distinct : elements.Nodup) {first second : α}
    (ordered : [first, second].Sublist elements) : ¬[second, first].Sublist elements := by
  intro reversed
  induction elements with
  | nil => cases ordered
  | cons head tail ih =>
    rw [List.nodup_cons] at distinct
    rw [List.sublist_cons_iff] at ordered reversed
    rcases ordered with inTail | ⟨rest, same, inRest⟩
    · rcases reversed with inTail' | ⟨rest', same', inRest'⟩
      · exact ih distinct.2 inTail inTail'
      · obtain ⟨rfl, rfl⟩ := List.cons.inj same'
        exact distinct.1 (inTail.subset (by simp))
    · obtain ⟨rfl, rfl⟩ := List.cons.inj same
      rcases reversed with inTail' | ⟨rest', same', inRest'⟩
      · exact distinct.1 (inTail'.subset (by simp))
      · obtain ⟨rfl, rfl⟩ := List.cons.inj same'
        exact distinct.1 (inRest.subset (by simp))

/-- What a list starts with depends on the test of its elements alone. -/
theorem takeWhile_congr {elements : List α} {test other : α → Bool}
    (same : ∀ element ∈ elements, test element = other element) :
    elements.takeWhile test = elements.takeWhile other := by
  induction elements with
  | nil => rfl
  | cons head tail ih =>
    rw [List.takeWhile_cons, List.takeWhile_cons, same head List.mem_cons_self,
      ih fun element listed => same element (List.mem_cons_of_mem _ listed)]

/-- `sort_by_key`: a stable sort. -/
def sortByKey {κ : Type} [LinearOrder κ] (key : α → κ) (elements : List α) : List α :=
  elements.insertionSort fun left right => key left ≤ key right

section SortByKey

variable {κ : Type} [LinearOrder κ] (key : α → κ)

/-- A sort loses and repeats nothing. -/
theorem sortByKey_perm (elements : List α) : (sortByKey key elements).Perm elements :=
  List.perm_insertionSort _ elements

/-- A sort puts the keys in order. -/
theorem sortByKey_sorted (elements : List α) :
    (sortByKey key elements).Pairwise fun left right => key left ≤ key right := by
  have : Std.Total fun left right : α => key left ≤ key right := ⟨fun left right => le_total _ _⟩
  have : IsTrans α fun left right : α => key left ≤ key right := ⟨fun _ _ _ => le_trans⟩
  exact List.pairwise_insertionSort (fun left right : α => key left ≤ key right) elements

/-- A stable sort refines the order that a list without duplicates has. -/
theorem pairwise_sortByKey {elements : List α} (distinct : elements.Nodup)
    {before : α → α → Prop} (sorted : elements.Pairwise before) :
    (sortByKey key elements).Pairwise fun left right =>
      key left < key right ∨ key left = key right ∧ before left right := by
  have : Std.Total fun left right : α => key left ≤ key right := ⟨fun left right => le_total _ _⟩
  have : IsTrans α fun left right : α => key left ≤ key right := ⟨fun _ _ _ => le_trans⟩
  have byKey := sortByKey_sorted key elements
  have nodup : (sortByKey key elements).Nodup :=
    (sortByKey_perm key elements).nodup_iff.mpr distinct
  rw [List.pairwise_iff_forall_sublist]
  intro left right pair
  have le : key left ≤ key right := List.pairwise_iff_forall_sublist.mp byKey pair
  rcases le.lt_or_eq with lower | same
  · exact .inl lower
  · refine .inr ⟨same, List.pairwise_iff_forall_sublist.mp sorted ?_⟩
    have inside : left ∈ elements ∧ right ∈ elements := by
      constructor
      · exact (sortByKey_perm key elements).mem_iff.mp (pair.subset (by simp))
      · exact (sortByKey_perm key elements).mem_iff.mp (pair.subset (by simp))
    have differ : left ≠ right := by
      rintro rfl
      exact not_pair_sublist nodup pair pair
    -- the other order would have been kept by the sort
    apply (pair_sublist differ inside.1 inside.2).resolve_right
    intro reversed
    exact not_pair_sublist nodup pair (List.pair_sublist_insertionSort same.ge reversed)

/-- A sort depends on the keys of what it sorts alone. -/
theorem sortByKey_congr {other : α → κ} {elements : List α}
    (same : ∀ element ∈ elements, key element = other element) :
    sortByKey key elements = sortByKey other elements := by
  have mapped := List.map_insertionSort (fun left right : α => key left ≤ key right)
    (fun left right : α => other left ≤ other right) id elements
    (fun left inside right insideRight => by rw [same left inside, same right insideRight]; rfl)
  simpa [sortByKey] using mapped

/-- What is in order stays as it is. -/
theorem sortByKey_of_sorted {elements : List α}
    (sorted : elements.Pairwise fun left right => key left ≤ key right) :
    sortByKey key elements = elements := sorted.insertionSort_eq

/-- A stable sort keeps the order of the elements with one key. -/
theorem filter_sortByKey (elements : List α) (value : κ) :
    (sortByKey key elements).filter (fun element => key element = value) =
      elements.filter fun element => key element = value := by
  have : Std.Total fun left right : α => key left ≤ key right := ⟨fun left right => le_total _ _⟩
  have : IsTrans α fun left right : α => key left ≤ key right := ⟨fun _ _ _ => le_trans⟩
  have level : (elements.filter fun element => key element = value).Pairwise
      fun left right => key left ≤ key right := by
    rw [List.pairwise_iff_forall_sublist]
    intro left right pair
    have inside : ∀ element ∈ [left, right], key element = value := by
      intro element listed
      simpa using (List.mem_filter.mp (pair.subset listed)).2
    rw [inside left (by simp), inside right (by simp)]
  have kept := (List.sublist_insertionSort level List.filter_sublist).filter
    fun element => key element = value
  rw [List.filter_filter] at kept
  simp only [Bool.and_self] at kept
  apply (kept.eq_of_length _).symm
  exact ((sortByKey_perm key elements).filter _).length_eq.symm

end SortByKey

/-- The position at which a walk through weights ends. -/
def walk : ℕ → List ℕ → ℕ
  | _, [] => 0
  | position, weight :: rest => if position < weight then 0 else walk (position - weight) rest + 1

/-- A walk that starts within the weights ends at one of them. -/
theorem walk_lt {weights : List ℕ} {position : ℕ} (within : position < weights.sum) :
    walk position weights < weights.length := by
  induction weights generalizing position with
  | nil => simp at within
  | cons weight rest ih =>
    rw [List.sum_cons] at within
    rw [walk]
    split
    · simp
    · rw [List.length_cons]
      exact Nat.succ_lt_succ (ih (by omega))

/-- As many starts as the weights sum to end at a position as often as its weight says. -/
theorem count_walk (weights : List ℕ) (index : ℕ) (inside : index < weights.length) :
    weights.sum.count (fun position => walk position weights = index) = weights[index] := by
  induction weights generalizing index with
  | nil => simp at inside
  | cons weight rest ih =>
    rw [List.sum_cons, Nat.count_add]
    have later : ∀ position, walk (weight + position) (weight :: rest) = walk position rest + 1 := by
      intro position
      rw [walk, if_neg (by omega), Nat.add_sub_cancel_left]
    simp only [later]
    cases index with
    | zero =>
      have first : weight.count (fun position => walk position (weight :: rest) = 0) = weight := by
        rw [Nat.count_iff_forall]
        intro position below
        rw [walk, if_pos below]
      simp [first]
    | succ index =>
      have first : weight.count (fun position => walk position (weight :: rest) = index + 1) =
          0 := by
        rw [Nat.count_iff_forall_not]
        intro position below
        rw [walk, if_pos below]
        simp
      have rest_ := ih index (by simpa using inside)
      simp [first, rest_]

/-- What holds as often in every stretch of a period does not depend on where the stretch starts. -/
theorem count_shift {period : ℕ} (holds : ℕ → Prop) [DecidablePred holds]
    (periodic : ∀ turn, holds (turn + period) ↔ holds turn) (start : ℕ) :
    period.count (fun turn => holds (start + turn)) = period.count holds := by
  induction start with
  | zero => simp only [Nat.zero_add]
  | succ start ih =>
    have whole := Nat.count_succ (fun turn => holds (start + turn)) period
    rw [Nat.count_succ', ih] at whole
    have ends : (if holds (start + period) then 1 else 0) = if holds (start + 0) then 1 else 0 := by
      simp only [periodic, Nat.add_zero]
    have later : period.count (fun turn => holds (start + (turn + 1))) =
        period.count fun turn => holds (start + 1 + turn) := by
      congr 1
      funext turn
      rw [Nat.add_assoc, Nat.add_comm 1]
    rw [later] at whole
    omega

/-- As many turns in a row as the weights sum to end at a position as often as its weight says. -/
theorem count_turns (weights : List ℕ) (start index : ℕ) (inside : index < weights.length) :
    weights.sum.count (fun turn => walk ((start + turn) % weights.sum) weights = index) =
      weights[index] := by
  rw [count_shift (fun turn => walk (turn % weights.sum) weights = index)
    (fun turn => by rw [Nat.add_mod_right]), ← count_walk weights index inside]
  rw [Nat.count_eq_card_filter_range, Nat.count_eq_card_filter_range]
  congr 1
  apply Finset.filter_congr
  intro turn below
  rw [Nat.mod_eq_of_lt (Finset.mem_range.mp below)]

end Aipass
