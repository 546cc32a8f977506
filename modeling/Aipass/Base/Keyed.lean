import Mathlib.Data.List.Nodup

/-!
# Lists of records with a key

A list is searched for the first record with a key, that record is changed in place, and a record
whose key is new is appended. Where no key is listed twice, the list is given by its keys and by what
is found under each of them.
-/
namespace Aipass.Keyed

variable {α κ : Type} [DecidableEq κ] (key : α → κ)

/-- The first record with a key. -/
def find (sought : κ) (items : List α) : Option α := items.find? fun item => key item = sought

/-- Change the first record with a key. -/
def amend (sought : κ) (change : α → α) : List α → List α
  | [] => []
  | item :: rest => if key item = sought then change item :: rest else item :: amend sought change rest

variable {key} {sought : κ} {change : α → α} {items : List α}

@[simp] theorem find_nil : find key sought [] = none := rfl

/-- Search a list that starts with a record. -/
theorem find_cons (item : α) : find key sought (item :: items) =
    if key item = sought then some item else find key sought items := by
  by_cases same : key item = sought <;> simp [find, same]

/-- A record that is found is listed and has the key. -/
theorem find_some {item : α} (found : find key sought items = some item) :
    item ∈ items ∧ key item = sought := by
  constructor
  · exact List.mem_of_find?_eq_some found
  · simpa using List.find?_some found

/-- Nothing is found under a key that is not listed. -/
theorem find_eq_none : find key sought items = none ↔ sought ∉ items.map key := by
  rw [find, List.find?_eq_none, List.mem_map]
  constructor
  · rintro none_ ⟨item, listed, same⟩
    exact none_ item listed (decide_eq_true same)
  · intro absent item listed same
    exact absent ⟨item, listed, of_decide_eq_true same⟩

/-- A record is found under its key where no key is listed twice. -/
theorem find_of_mem (distinct : (items.map key).Nodup) {item : α} (listed : item ∈ items) :
    find key (key item) items = some item := by
  induction items with
  | nil => cases listed
  | cons head tail ih =>
    rw [List.map_cons, List.nodup_cons] at distinct
    rw [find_cons]
    rcases List.mem_cons.mp listed with rfl | later
    · rw [if_pos rfl]
    · rw [if_neg, ih distinct.2 later]
      intro same
      exact distinct.1 (same ▸ List.mem_map_of_mem later)

/-- Search a list to which a record was appended. -/
theorem find_append (item : α) : find key sought (items ++ [item]) =
    (find key sought items).or (if key item = sought then some item else none) := by
  by_cases same : key item = sought <;> simp [find, List.find?_append, same]

omit [DecidableEq κ] in
/-- A new key is appended to keys that are listed once. -/
theorem nodup_append {item : α} (distinct : (items.map key).Nodup)
    (new : key item ∉ items.map key) : ((items ++ [item]).map key).Nodup := by
  rw [List.map_append, List.map_singleton]
  exact distinct.append (List.nodup_singleton _) (by simpa using new)

section Amend

variable (same : ∀ item, key item = sought → key (change item) = sought)

include same

/-- A change that keeps the key keeps the keys. -/
theorem keys_amend : (amend key sought change items).map key = items.map key := by
  induction items with
  | nil => rfl
  | cons item rest ih =>
    rw [amend]
    split
    · next held => rw [List.map_cons, List.map_cons, same item held, held]
    · rw [List.map_cons, List.map_cons, ih]

/-- Search a list in which a record was changed. -/
theorem find_amend (other : κ) : find key other (amend key sought change items) =
    if other = sought then (find key sought items).map change else find key other items := by
  induction items with
  | nil => simp [amend]
  | cons item rest ih =>
    rw [amend]
    by_cases held : key item = sought
    · rw [if_pos held, find_cons, find_cons, find_cons, same item held, if_pos held]
      by_cases asked : other = sought
      · rw [if_pos asked.symm, if_pos asked, Option.map_some]
      · rw [if_neg (Ne.symm asked), if_neg asked, if_neg (fun found => asked (found.symm.trans held))]
    · rw [if_neg held, find_cons, find_cons, find_cons, ih, if_neg held]
      by_cases asked : other = sought
      · rw [if_pos asked, if_pos asked, if_neg (fun found => held (found.trans asked))]
      · rw [if_neg asked, if_neg asked]

end Amend

/-- What a changed list holds was there or is what the change made. -/
theorem mem_amend {item : α} (listed : item ∈ amend key sought change items) :
    item ∈ items ∨ ∃ old ∈ items, key old = sought ∧ change old = item := by
  induction items with
  | nil => cases listed
  | cons head tail ih =>
    rw [amend] at listed
    split at listed
    · next held =>
      rcases List.mem_cons.mp listed with rfl | later
      · exact .inr ⟨head, List.mem_cons_self, held, rfl⟩
      · exact .inl (List.mem_cons_of_mem _ later)
    · rcases List.mem_cons.mp listed with rfl | later
      · exact .inl List.mem_cons_self
      · rcases ih later with kept | ⟨old, listedOld, held, made⟩
        · exact .inl (List.mem_cons_of_mem _ kept)
        · exact .inr ⟨old, List.mem_cons_of_mem _ listedOld, held, made⟩

/-- A record with another key stays in a changed list. -/
theorem mem_amend_of_ne {item : α} (listed : item ∈ items) (other : key item ≠ sought) :
    item ∈ amend key sought change items := by
  induction items with
  | nil => cases listed
  | cons head tail ih =>
    rw [amend]
    rcases List.mem_cons.mp listed with rfl | later
    · rw [if_neg other]
      exact List.mem_cons_self
    · split
      · exact List.mem_cons_of_mem _ later
      · exact List.mem_cons_of_mem _ (ih later)

/-- Where no key is listed twice, the change is one of every record with the key. -/
theorem amend_eq_map (distinct : (items.map key).Nodup) : amend key sought change items =
    items.map fun item => if key item = sought then change item else item := by
  induction items with
  | nil => rfl
  | cons item rest ih =>
    rw [List.map_cons, List.nodup_cons] at distinct
    rw [amend, List.map_cons, ← ih distinct.2]
    by_cases held : key item = sought
    · rw [if_pos held, if_pos held]
      congr 1
      have absent : find key sought rest = none := find_eq_none.mpr (held ▸ distinct.1)
      rw [ih distinct.2]
      have kept : ∀ other ∈ rest,
          (if key other = sought then change other else other) = other := by
        intro other listed
        rw [if_neg]
        intro same
        exact find_eq_none.mp absent (same ▸ List.mem_map_of_mem listed)
      rw [List.map_congr_left kept, List.map_id']
    · rw [if_neg held, if_neg held]

/-- A record that was appended under a new key is the one that is changed. -/
theorem amend_append {item : α} (new : sought ∉ items.map key) (held : key item = sought) :
    amend key sought change (items ++ [item]) = items ++ [change item] := by
  induction items with
  | nil => simp [amend, held]
  | cons head tail ih =>
    rw [List.map_cons, List.mem_cons, not_or] at new
    rw [List.cons_append, amend, if_neg (Ne.symm new.1), ih new.2, List.cons_append]

/-- Search by another key, which the change keeps. -/
theorem find_amend_other {ι : Type} [DecidableEq ι] {name : α → ι}
    (distinct : (items.map key).Nodup) (same : ∀ item, name (change item) = name item) (asked : ι) :
    find name asked (amend key sought change items) =
      (find name asked items).map fun item => if key item = sought then change item else item := by
  rw [amend_eq_map distinct, find, List.find?_map, find]
  congr 2
  funext item
  rw [Function.comp_apply]
  split
  · rw [same]
  · rfl

/-- A change that leaves the record as it is leaves the list as it is. -/
theorem amend_eq_self (kept : ∀ item, find key sought items = some item → change item = item) :
    amend key sought change items = items := by
  induction items with
  | nil => rfl
  | cons item rest ih =>
    rw [amend]
    split
    · next held => rw [kept item (by rw [find_cons, if_pos held])]
    · next other =>
      rw [ih]
      intro found listed
      exact kept found (by rw [find_cons, if_neg other, listed])

/-- Two lists with the same keys, each listed once, are equal where the same is found in both. -/
theorem eq_of_find {left right : List α} (keys : left.map key = right.map key)
    (distinct : (left.map key).Nodup) (same : ∀ sought, find key sought left = find key sought right) :
    left = right := by
  induction left generalizing right with
  | nil => exact (List.map_eq_nil_iff.mp keys.symm).symm
  | cons item rest ih =>
    cases right with
    | nil => simp at keys
    | cons other others =>
      rw [List.map_cons, List.map_cons, List.cons.injEq] at keys
      have head := same (key item)
      rw [find_cons, find_cons, if_pos rfl, if_pos keys.1.symm, Option.some.injEq] at head
      subst head
      rw [List.map_cons, List.nodup_cons] at distinct
      rw [ih keys.2 distinct.2]
      intro sought
      by_cases asked : key item = sought
      · rw [find_eq_none.mpr (asked ▸ distinct.1), find_eq_none.mpr (keys.2 ▸ asked ▸ distinct.1)]
      · have found := same sought
        rwa [find_cons, find_cons, if_neg asked, if_neg asked] at found

/-- A list that goes on with more keys is the list itself where the same is found in both. -/
theorem eq_of_find_append {left right : List α} {more : List κ}
    (keys : right.map key = left.map key ++ more) (distinct : (right.map key).Nodup)
    (same : ∀ sought, find key sought right = find key sought left) : right = left := by
  have none_ : more = [] := by
    rw [List.eq_nil_iff_forall_not_mem]
    intro sought listed
    have absent : sought ∉ left.map key := by
      rw [keys] at distinct
      exact fun held => (List.disjoint_of_nodup_append distinct) held listed
    have present : sought ∈ right.map key := by
      rw [keys]
      exact List.mem_append_right _ listed
    have found := same sought
    rw [find_eq_none.mpr absent, find_eq_none] at found
    exact found present
  rw [none_, List.append_nil] at keys
  exact eq_of_find keys distinct same

end Aipass.Keyed
