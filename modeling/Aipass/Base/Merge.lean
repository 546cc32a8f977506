import Aipass.Base.Table

/-!
# Three-way merges of tables

Two tables that evolved from a common base are merged key by key: a side that differs from the
base wins over one that does not, and two sides that both differ must agree. Absence is a value
like any other. The merge is symmetric and keeps every change of either side.
-/
namespace Aipass

/-- Pick the value of one key from two sides and their base, unless both sides changed it to
different values. -/
def choose {ν : Type} [DecidableEq ν] (ours theirs base : ν) : Option ν :=
  if ours = theirs ∨ theirs = base then some ours
  else if ours = base then some theirs
  else none

section Choose

variable {ν : Type} [DecidableEq ν] {ours theirs base chosen : ν}

/-- What is picked, by cases on which side changed. -/
theorem choose_eq_some :
    choose ours theirs base = some chosen ↔
      chosen = ours ∧ (theirs = ours ∨ theirs = base) ∨
        chosen = theirs ∧ (ours = theirs ∨ ours = base) := by
  unfold choose
  grind

/-- The sides can be exchanged. -/
theorem choose_comm : choose ours theirs base = choose theirs ours base := by
  unfold choose
  grind

/-- Nothing is picked exactly when the three values are pairwise distinct. -/
theorem choose_eq_none :
    choose ours theirs base = none ↔ ours ≠ theirs ∧ theirs ≠ base ∧ ours ≠ base := by
  unfold choose
  grind

/-- A value picked is the value of a side, and differs from the other side only where the other
side kept the base. -/
theorem picked_of_choose (picked : choose ours theirs base = some chosen) :
    (chosen = ours ∨ chosen = theirs) ∧ (chosen = ours ∨ ours = base) ∧
      (chosen = theirs ∨ theirs = base) := by
  rcases choose_eq_some.mp picked with ⟨rfl, agree | kept⟩ | ⟨rfl, agree | kept⟩
  · exact ⟨Or.inl rfl, Or.inl rfl, Or.inl agree.symm⟩
  · exact ⟨Or.inl rfl, Or.inl rfl, Or.inr kept⟩
  · exact ⟨Or.inr rfl, Or.inl agree.symm, Or.inl rfl⟩
  · exact ⟨Or.inr rfl, Or.inr kept, Or.inl rfl⟩

/-- Picking commutes with a change of representation that confuses no two values. -/
theorem choose_map {ω : Type} [DecidableEq ω] {change : ν → ω}
    (injective : Function.Injective change) (ours theirs base : ν) :
    choose (change ours) (change theirs) (change base) = (choose ours theirs base).map change := by
  simp only [choose, injective.eq_iff]
  split
  · rfl
  · split <;> rfl

end Choose

namespace Table

variable {κ ν : Type} [LinearOrder κ] [DecidableEq ν]

/-- Merge a list of keys in order, keeping the entries picked. -/
def mergeKeys (ours theirs base : Table κ ν) : List κ → Option (List (κ × ν))
  | [] => some []
  | key :: keys => do
    let chosen ← choose ours[key]? theirs[key]? base[key]?
    let rest ← mergeKeys ours theirs base keys
    return match chosen with
      | some value => (key, value) :: rest
      | none => rest

/-- The keys that a merge visits, in order. -/
def mergedKeys (ours theirs base : Table κ ν) : List κ :=
  (ours.keySet ∪ theirs.keySet ∪ base.keySet).sort (· ≤ ·)

/-- Merge two tables against their base, unless both changed a key to different values. -/
def merge (ours theirs base : Table κ ν) : Option (Table κ ν) :=
  (mergeKeys ours theirs base (mergedKeys ours theirs base)).map (insertAll ∅)

/-- A merge of keys lists the keys whose picked value is present. -/
theorem entries_of_mergeKeys {ours theirs base : Table κ ν} {keys : List κ}
    {entries : List (κ × ν)} :
    mergeKeys ours theirs base keys = some entries →
      (∀ key ∈ keys, choose ours[key]? theirs[key]? base[key]? ≠ none) ∧
        entries.map Prod.fst = keys.filter (fun key =>
          choose ours[key]? theirs[key]? base[key]? ≠ some none) ∧
        ∀ entry ∈ entries, choose ours[entry.1]? theirs[entry.1]? base[entry.1]? =
          some (some entry.2) := by
  induction keys generalizing entries with
  | nil =>
    intro merged
    simp only [mergeKeys, Option.some.injEq] at merged
    simp [← merged]
  | cons key keys ih =>
    intro merged
    simp only [mergeKeys, bind, Option.bind_eq_some_iff, pure, Option.some.injEq] at merged
    obtain ⟨chosen, picked, rest, tail, rfl⟩ := merged
    obtain ⟨present, listed, values⟩ := ih tail
    cases chosen with
    | none =>
      refine ⟨?_, ?_, values⟩
      · simpa [picked] using present
      · simpa [picked] using listed
    | some value =>
      refine ⟨?_, ?_, ?_⟩
      · simpa [picked] using present
      · simpa [picked] using listed
      · simpa [picked] using values

/-- A merge of keys succeeds when every key has a value to pick. -/
theorem mergeKeys_isSome {ours theirs base : Table κ ν} {keys : List κ}
    (picks : ∀ key ∈ keys, choose ours[key]? theirs[key]? base[key]? ≠ none) :
    ∃ entries, mergeKeys ours theirs base keys = some entries := by
  induction keys with
  | nil => exact ⟨[], rfl⟩
  | cons key keys ih =>
    obtain ⟨rest, tail⟩ := ih fun later listed => picks later (List.mem_cons_of_mem _ listed)
    obtain ⟨chosen, picked⟩ := Option.ne_none_iff_exists'.mp (picks key List.mem_cons_self)
    simp [mergeKeys, tail, picked]

omit [DecidableEq ν] in
/-- The keys of a merge are visited in strict order. -/
theorem mergedKeys_ordered (ours theirs base : Table κ ν) :
    (mergedKeys ours theirs base).Pairwise (· < ·) :=
  Finset.sortedLT_sort _ |>.pairwise

omit [DecidableEq ν] in
/-- A key that a merge does not visit is absent everywhere. -/
theorem absent_of_notMem_mergedKeys {ours theirs base : Table κ ν} {key : κ}
    (skipped : key ∉ mergedKeys ours theirs base) :
    ours[key]? = none ∧ theirs[key]? = none ∧ base[key]? = none := by
  simpa [mergedKeys, and_assoc] using skipped

/-- The entries of a merge of the visited keys are in strict order. -/
theorem entries_ordered {ours theirs base : Table κ ν} {entries : List (κ × ν)}
    (merged : mergeKeys ours theirs base (mergedKeys ours theirs base) = some entries) :
    entries.Pairwise (fun left right => left.1 < right.1) := by
  obtain ⟨-, listed, -⟩ := entries_of_mergeKeys merged
  have ordered := (mergedKeys_ordered ours theirs base).filter fun key =>
    choose ours[key]? theirs[key]? base[key]? ≠ some none
  rw [← listed, List.pairwise_map] at ordered
  exact ordered

/-- A merge is the table that holds, at every key, the value picked there. -/
theorem merge_eq_some {ours theirs base merged : Table κ ν} :
    merge ours theirs base = some merged ↔
      ∀ key : κ, choose ours[key]? theirs[key]? base[key]? = some merged[key]? := by
  constructor
  · intro succeeded key
    obtain ⟨entries, listed, rfl⟩ := Option.map_eq_some_iff.mp succeeded
    obtain ⟨present, keys, values⟩ := entries_of_mergeKeys listed
    have distinct : (entries.map Prod.fst).Nodup :=
      List.pairwise_map.mpr ((entries_ordered listed).imp fun lower => ne_of_lt lower)
    by_cases visited : key ∈ mergedKeys ours theirs base
    · obtain ⟨chosen, picked⟩ := Option.ne_none_iff_exists'.mp (present key visited)
      rw [picked]
      cases chosen with
      | some value =>
        have named : key ∈ entries.map Prod.fst := by
          rw [keys]
          simp [visited, picked]
        obtain ⟨⟨_, written⟩, entry, rfl⟩ := List.mem_map.mp named
        have value' := values _ entry
        rw [picked] at value'
        rw [Option.some.inj (Option.some.inj value'),
          get_insertAll_of_mem ∅ entries _ written distinct entry]
      | none =>
        have unnamed : key ∉ entries.map Prod.fst := by
          rw [keys]
          simp [picked]
        rw [get_insertAll_of_notMem ∅ entries key unnamed]
        simp
    · have unnamed : key ∉ entries.map Prod.fst := by
        rw [keys]
        simp [visited]
      obtain ⟨ours, theirs, base⟩ := absent_of_notMem_mergedKeys visited
      rw [ours, theirs, base, get_insertAll_of_notMem ∅ entries key unnamed]
      simp [choose]
  · intro picks
    have present : ∀ key ∈ mergedKeys ours theirs base,
        choose ours[key]? theirs[key]? base[key]? ≠ none := fun key _ => by simp [picks key]
    obtain ⟨entries, listed⟩ := mergeKeys_isSome present
    obtain ⟨-, keys, values⟩ := entries_of_mergeKeys listed
    have distinct : (entries.map Prod.fst).Nodup :=
      List.pairwise_map.mpr ((entries_ordered listed).imp fun lower => ne_of_lt lower)
    simp only [merge, listed, Option.map_some, Option.some.injEq]
    refine ext_get fun key => Option.ext fun value => ?_
    rw [get_insertAll_iff distinct]
    constructor
    · intro entry
      have picked := values _ entry
      rw [picks key] at picked
      exact Option.some.inj picked
    · intro held
      have visited : key ∈ mergedKeys ours theirs base := by
        by_contra skipped
        obtain ⟨ours, theirs, base⟩ := absent_of_notMem_mergedKeys skipped
        have pick := picks key
        simp [ours, theirs, base, choose, held] at pick
      have named : key ∈ entries.map Prod.fst := by
        rw [keys]
        simp [visited, picks key, held]
      obtain ⟨⟨_, written⟩, entry, rfl⟩ := List.mem_map.mp named
      have picked := values _ entry
      rw [picks, held] at picked
      rw [Option.some.inj (Option.some.inj picked)]
      exact entry

/-- The sides of a merge can be exchanged. -/
theorem merge_comm (ours theirs base : Table κ ν) :
    merge ours theirs base = merge theirs ours base := by
  refine Option.ext fun merged => ?_
  rw [merge_eq_some, merge_eq_some]
  exact forall_congr' fun key => by rw [choose_comm]

/-- A merge succeeds exactly when no key has three values that are pairwise distinct. -/
theorem merge_isSome_iff {ours theirs base : Table κ ν} :
    (merge ours theirs base).isSome ↔ ∀ key : κ, ¬ (ours[key]? ≠ theirs[key]? ∧
      theirs[key]? ≠ base[key]? ∧ ours[key]? ≠ base[key]?) := by
  constructor
  · intro succeeded key apart
    obtain ⟨merged, picked⟩ := Option.isSome_iff_exists.mp succeeded
    have chosen := merge_eq_some.mp picked key
    rw [choose_eq_none.mpr apart] at chosen
    cases chosen
  · intro agree
    have picks : ∀ key ∈ mergedKeys ours theirs base,
        choose ours[key]? theirs[key]? base[key]? ≠ none :=
      fun key _ none => agree key (choose_eq_none.mp none)
    obtain ⟨entries, listed⟩ := mergeKeys_isSome picks
    simp [merge, listed]

/-- The listing of a merge is the list the merge of the visited keys builds. -/
theorem toList_of_mergeKeys {ours theirs base : Table κ ν} {entries : List (κ × ν)}
    (merged : mergeKeys ours theirs base (mergedKeys ours theirs base) = some entries) :
    ((∅ : Table κ ν).insertAll entries).toList = entries :=
  toList_insertAll (entries_ordered merged)

/-- A merge commutes with a change of representation that confuses no two values. -/
theorem mergeKeys_map {ω : Type} [DecidableEq ω] {change : ν → ω}
    (injective : Function.Injective change) {ours theirs base : Table κ ν}
    {ours' theirs' base' : Table κ ω} (oursSame : ∀ key : κ, ours'[key]? = ours[key]?.map change)
    (theirsSame : ∀ key : κ, theirs'[key]? = theirs[key]?.map change)
    (baseSame : ∀ key : κ, base'[key]? = base[key]?.map change) (keys : List κ) :
    mergeKeys ours' theirs' base' keys =
      (mergeKeys ours theirs base keys).map (List.map (Prod.map id change)) := by
  induction keys with
  | nil => rfl
  | cons key keys ih =>
    have picked := choose_map (Option.map_injective injective) ours[key]? theirs[key]?
      base[key]?
    simp only [mergeKeys, oursSame, theirsSame, baseSame, picked, ih]
    cases choose ours[key]? theirs[key]? base[key]? with
    | none => rfl
    | some chosen =>
      cases mergeKeys ours theirs base keys with
      | none => rfl
      | some rest => cases chosen <;> rfl

omit [DecidableEq ν] in
/-- A merge of changed representations visits the same keys. -/
theorem mergedKeys_map {ω : Type} {change : ν → ω} {ours theirs base : Table κ ν}
    {ours' theirs' base' : Table κ ω} (oursSame : ∀ key : κ, ours'[key]? = ours[key]?.map change)
    (theirsSame : ∀ key : κ, theirs'[key]? = theirs[key]?.map change)
    (baseSame : ∀ key : κ, base'[key]? = base[key]?.map change) :
    mergedKeys ours' theirs' base' = mergedKeys ours theirs base := by
  unfold mergedKeys
  congr 1
  ext key
  simp [oursSame, theirsSame, baseSame]

end Table
end Aipass
