import Mathlib.Order.Compare
import Mathlib.Data.Finset.Sort
import Mathlib.Data.String.Basic
import Std.Data.ExtTreeMap

/-!
# Ordered finite tables

A table maps finitely many keys to values and lists its entries in key order. Two tables with
the same entries are equal, so a value computed from the listing of a table depends only on
what the table holds. The lemmas here restate the lookups of the standard tree map by equality
of keys, and describe the two folds that build one table from another.
-/
namespace Aipass

/-- A finite map that lists its entries in key order. -/
abbrev Table (κ ν : Type) [LinearOrder κ] := Std.ExtTreeMap κ ν compare

namespace Table

variable {κ ν : Type} [LinearOrder κ]

/-- The comparison of a linear order is transitive. -/
instance transCompare : Std.TransCmp (compare : κ → κ → Ordering) := inferInstance

/-- The comparison of a linear order identifies only equal keys. -/
instance (priority := low) lawfulCompare : Std.LawfulEqCmp (compare : κ → κ → Ordering) where
  eq_of_compare := fun h => compare_eq_iff_eq.mp h

/-- Equal lookups make equal tables. -/
theorem ext_get {left right : Table κ ν} (same : ∀ key : κ, left[key]? = right[key]?) :
    left = right :=
  Std.ExtTreeMap.ext_getElem? same

/-- A lookup after an insertion. -/
@[simp] theorem get_insert (table : Table κ ν) (key : κ) (value : ν) (sought : κ) :
    (table.insert key value)[sought]? = if key = sought then some value else table[sought]? := by
  rw [Std.ExtTreeMap.getElem?_insert]
  simp only [compare_eq_iff_eq]

/-- What holds of every entry and of a new one holds after an insertion. -/
theorem forall_insert {table : Table κ ν} {holds : κ → ν → Prop}
    (entries : ∀ (key : κ) value, table[key]? = some value → holds key value) {key : κ} {value : ν}
    (entry : holds key value) (sought : κ) (found : ν)
    (held : (table.insert key value)[sought]? = some found) : holds sought found := by
  rw [get_insert] at held
  split at held
  next same => exact Option.some.inj held ▸ same ▸ entry
  next => exact entries sought found held

/-- A lookup after a removal. -/
@[simp] theorem get_erase (table : Table κ ν) (key sought : κ) :
    (table.erase key)[sought]? = if key = sought then none else table[sought]? := by
  rw [Std.ExtTreeMap.getElem?_erase]
  simp only [compare_eq_iff_eq]

/-- A lookup after a selection of entries. -/
@[simp] theorem get_filter (table : Table κ ν) (keep : κ → ν → Bool) (key : κ) :
    (table.filter keep)[key]? = table[key]?.filter (keep key) := by
  rw [Std.ExtTreeMap.getElem?_filter]
  simp only [Std.ExtTreeMap.getKey_eq]
  exact Option.pfilter_eq_filter

/-- A lookup after a change of every value. -/
@[simp] theorem get_map {ω : Type} (table : Table κ ν) (change : κ → ν → ω) (key : κ) :
    (table.map change)[key]? = table[key]?.map (change key) :=
  Std.ExtTreeMap.getElem?_map

/-- The listing holds exactly the entries of the table. -/
theorem mem_toList {table : Table κ ν} {key : κ} {value : ν} :
    (key, value) ∈ table.toList ↔ table[key]? = some value :=
  Std.ExtTreeMap.mem_toList_iff_getElem?_eq_some

/-- The values of a table, in key order. -/
def valueList (table : Table κ ν) : List ν := table.toList.map Prod.snd

/-- The values listed are those some key holds. -/
@[simp] theorem mem_valueList {table : Table κ ν} {value : ν} :
    value ∈ table.valueList ↔ ∃ key : κ, table[key]? = some value := by
  simp [valueList]

/-- The keys listed are those with a value. -/
theorem mem_keys_iff {table : Table κ ν} {key : κ} : key ∈ table.keys ↔ table[key]?.isSome := by
  simp

/-- The keys of a table as a set. -/
def keySet (table : Table κ ν) : Finset κ := table.keys.toFinset

/-- A key is a member exactly when it has a value. -/
@[simp] theorem mem_keySet {table : Table κ ν} {key : κ} :
    key ∈ table.keySet ↔ table[key]?.isSome := by
  simp [keySet]

/-- Write a list of entries in order. -/
def insertAll (table : Table κ ν) (entries : List (κ × ν)) : Table κ ν :=
  entries.foldl (fun held entry => held.insert entry.1 entry.2) table

/-- Remove a list of keys in order. -/
def eraseAll (table : Table κ ν) (keys : List κ) : Table κ ν :=
  keys.foldl (fun held key => held.erase key) table

/-- A lookup after a list of removals. -/
@[simp] theorem get_eraseAll (table : Table κ ν) (keys : List κ) (sought : κ) :
    (table.eraseAll keys)[sought]? = if sought ∈ keys then none else table[sought]? := by
  induction keys generalizing table with
  | nil => simp [eraseAll]
  | cons key keys ih =>
    have tail := ih (table.erase key)
    simp only [eraseAll, List.foldl_cons] at tail ⊢
    rw [tail, get_erase]
    by_cases same : key = sought
    · simp [same]
    · simp [same, Ne.symm same]

/-- A lookup of a key that a list of writes does not name. -/
theorem get_insertAll_of_notMem (table : Table κ ν) (entries : List (κ × ν)) (sought : κ)
    (absent : sought ∉ entries.map Prod.fst) : (table.insertAll entries)[sought]? = table[sought]? := by
  induction entries generalizing table with
  | nil => rfl
  | cons entry entries ih =>
    simp only [List.map_cons, List.mem_cons, not_or] at absent
    have tail := ih (table.insert entry.1 entry.2) absent.2
    simp only [insertAll, List.foldl_cons] at tail ⊢
    rw [tail, get_insert, if_neg (Ne.symm absent.1)]

/-- A lookup of a key that a list of writes names once. -/
theorem get_insertAll_of_mem (table : Table κ ν) (entries : List (κ × ν)) (key : κ) (value : ν)
    (distinct : (entries.map Prod.fst).Nodup) (present : (key, value) ∈ entries) :
    (table.insertAll entries)[key]? = some value := by
  induction entries generalizing table with
  | nil => simp at present
  | cons entry entries ih =>
    simp only [List.map_cons, List.nodup_cons] at distinct
    rcases List.mem_cons.mp present with rfl | later
    · have kept := get_insertAll_of_notMem (table.insert key value) entries key distinct.1
      simp only [insertAll, List.foldl_cons] at kept ⊢
      rw [kept, get_insert, if_pos rfl]
    · simpa [insertAll] using ih (table.insert entry.1 entry.2) distinct.2 later

/-- A key that a list of writes names holds one of the values written to it. -/
theorem mem_of_get_insertAll (entries : List (κ × ν)) (key : κ) (value : ν)
    (held : ((∅ : Table κ ν).insertAll entries)[key]? = some value)
    (distinct : (entries.map Prod.fst).Nodup) : (key, value) ∈ entries := by
  by_cases named : key ∈ entries.map Prod.fst
  · obtain ⟨⟨_, written⟩, listed, rfl⟩ := List.mem_map.mp named
    rw [get_insertAll_of_mem ∅ entries _ written distinct listed] at held
    rwa [← Option.some.inj held]
  · rw [get_insertAll_of_notMem ∅ entries key named] at held
    simp at held

/-- The table of a list of writes with distinct keys holds exactly those writes. -/
theorem get_insertAll_iff {entries : List (κ × ν)} (distinct : (entries.map Prod.fst).Nodup)
    {key : κ} {value : ν} :
    ((∅ : Table κ ν).insertAll entries)[key]? = some value ↔ (key, value) ∈ entries :=
  ⟨fun held => mem_of_get_insertAll entries key value held distinct,
    get_insertAll_of_mem ∅ entries key value distinct⟩

/-- The keys of a listing are pairwise distinct. -/
theorem toList_keys_nodup (table : Table κ ν) : (table.toList.map Prod.fst).Nodup := by
  rw [List.Nodup, List.pairwise_map]
  refine table.ordered_keys_toList.imp ?_
  intro left right ordered same
  rw [same] at ordered
  simp at ordered

/-- A table lists its entries in strict key order. -/
theorem toList_ordered (table : Table κ ν) : table.toList.Pairwise (fun left right =>
    left.1 < right.1) :=
  table.ordered_keys_toList.imp fun ordered => compare_lt_iff_lt.mp ordered

/-- Entries in strict key order are the listing of the table built from them. -/
theorem toList_insertAll {entries : List (κ × ν)}
    (ordered : entries.Pairwise (fun left right => left.1 < right.1)) :
    ((∅ : Table κ ν).insertAll entries).toList = entries := by
  have distinct : (entries.map Prod.fst).Nodup :=
    List.pairwise_map.mpr (ordered.imp fun lower => ne_of_lt lower)
  have perm : ((∅ : Table κ ν).insertAll entries).toList.Perm entries := by
    refine (List.perm_ext_iff_of_nodup ?_ ?_).mpr fun entry => ?_
    · exact (toList_keys_nodup _).of_map _
    · exact distinct.of_map _
    · rw [mem_toList, get_insertAll_iff distinct]
  exact perm.eq_of_pairwise (fun left right _ _ lower upper => absurd lower upper.not_gt)
    (toList_ordered _) ordered

/-- A table is the table built from its listing. -/
theorem insertAll_toList (table : Table κ ν) :
    (∅ : Table κ ν).insertAll table.toList = table := by
  refine ext_get fun key => Option.ext fun value => ?_
  rw [get_insertAll_iff (toList_keys_nodup table), mem_toList]

end Table
end Aipass
