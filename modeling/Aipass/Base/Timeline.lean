import Aipass.Base.Sorting

/-!
# Timelines

A timeline lists entries by the time from which they are in force, each time once. The entry in
force at a moment is the last that is not later. Entries in any order make a timeline when they are
sorted and, of those for one time, the last is kept. What is added for later times does not show at
a moment before them.
-/
namespace Aipass.Timeline

variable {α κ : Type} [LinearOrder κ] (time : α → κ)

/-- Each time is later than the one before it. -/
def Ordered (entries : List α) : Prop := entries.Pairwise fun left right => time left < time right

/-- The entry in force at a moment. -/
def inForce (entries : List α) (moment : κ) : Option α :=
  entries.reverse.find? fun entry => time entry ≤ moment

/-- Append an entry, in place of the last where it is for the same time. -/
def push (kept : List α) (entry : α) : List α :=
  match kept.getLast? with
  | some last => if time last = time entry then kept.dropLast ++ [entry] else kept ++ [entry]
  | none => kept ++ [entry]

/-- Sort entries and keep the last for each time. -/
def normalize (entries : List α) : List α := (sortByKey time entries).foldl (push time) []

variable {time} {entries : List α}

/-- The entry in force is the last of those that are not later. -/
theorem inForce_eq (entries : List α) (moment : κ) : inForce time entries moment =
    (entries.filter fun entry => time entry ≤ moment).getLast? := by
  rw [inForce, ← List.head?_filter, List.filter_reverse, List.head?_reverse]

/-- An ordered timeline is sorted. -/
theorem Ordered.sorted (ordered : Ordered time entries) : sortByKey time entries = entries := by
  apply sortByKey_of_sorted
  exact List.Pairwise.imp le_of_lt ordered

/-- Two timelines with the same entries are the same. -/
theorem Ordered.ext {left right : List α} (ordered : Ordered time left)
    (orderedRight : Ordered time right) (same : ∀ entry, entry ∈ left ↔ entry ∈ right) :
    left = right := by
  have irreflexive : ∀ entries : List α, Ordered time entries → entries.Nodup := by
    intro entries ordered
    exact List.Pairwise.imp (fun lower equal => lower.ne (congrArg time equal)) ordered
  have perm := (List.perm_ext_iff_of_nodup (irreflexive left ordered)
    (irreflexive right orderedRight)).mpr same
  apply perm.eq_of_pairwise _ ordered orderedRight
  intro first second _ _ lower higher
  exact absurd higher lower.asymm

/-- What a timeline is made of: for each of its times, the last entry of those given. -/
def Latest (time : α → κ) (given kept : List α) : Prop :=
  ∀ entry, entry ∈ kept ↔ (given.filter fun other => time other = time entry).getLast? = some entry

/-- The last entry is the one whose time is not passed by another. -/
theorem push_cases {kept : List α} (ordered : Ordered time kept) {entry : α}
    (passed : ∀ other ∈ kept, time other ≤ time entry) :
    ∃ front, push time kept entry = front ++ [entry] ∧
      (∀ other, other ∈ front ↔ other ∈ kept ∧ time other < time entry) ∧ Ordered time front := by
  rcases List.eq_nil_or_concat' kept with rfl | ⟨front, last, rfl⟩
  · exact ⟨[], rfl, by simp, List.Pairwise.nil⟩
  · rw [push, List.getLast?_concat]
    have before := (List.pairwise_append.mp ordered).2.2
    by_cases same : time last = time entry
    · refine ⟨front, by simp [same], ?_, (List.pairwise_append.mp ordered).1⟩
      intro other
      constructor
      · intro listed
        have lower := before other listed last (by simp)
        exact ⟨by simp [listed], same ▸ lower⟩
      · rintro ⟨listed, lower⟩
        rcases List.mem_append.mp listed with listed | listed
        · exact listed
        · rw [List.mem_singleton.mp listed, same] at lower
          exact absurd lower (lt_irrefl _)
    · refine ⟨front ++ [last], by simp [same], ?_, ordered⟩
      intro other
      refine ⟨fun listed => ⟨listed, ?_⟩, fun held => held.1⟩
      have lastLower := lt_of_le_of_ne (passed last (by simp)) same
      rcases List.mem_append.mp listed with listed | listed
      · exact (before other listed last (by simp)).trans lastLower
      · rwa [List.mem_singleton.mp listed]

/-- Sorted entries make a timeline of the last for each time. -/
theorem foldl_push {entries : List α}
    (sorted : entries.Pairwise fun left right => time left ≤ time right) :
    Ordered time (entries.foldl (push time) []) ∧
      Latest time entries (entries.foldl (push time) []) := by
  induction entries using List.reverseRecOn with
  | nil => exact ⟨List.Pairwise.nil, by simp [Latest]⟩
  | append_singleton entries entry ih =>
    obtain ⟨sortedFront, -, before⟩ := List.pairwise_append.mp sorted
    obtain ⟨ordered, latest⟩ := ih sortedFront
    rw [List.foldl_concat]
    have listed : ∀ other ∈ entries.foldl (push time) [], other ∈ entries := by
      intro other kept
      exact (List.mem_filter.mp (List.mem_of_getLast? ((latest other).mp kept))).1
    obtain ⟨front, pushed, frontIff, orderedFront⟩ :=
      push_cases ordered fun other kept => before other (listed other kept) entry (by simp)
    rw [pushed]
    constructor
    · apply List.pairwise_append.mpr
      refine ⟨orderedFront, List.pairwise_singleton _ _, ?_⟩
      intro other kept last same
      rw [List.mem_singleton.mp same]
      exact ((frontIff other).mp kept).2
    · intro other
      rw [List.mem_append, List.mem_singleton, frontIff, List.filter_append]
      by_cases same : time entry = time other
      · rw [List.filter_cons_of_pos (by simpa using same), List.filter_nil, List.getLast?_concat,
          Option.some.injEq]
        constructor
        · rintro (⟨-, lower⟩ | rfl)
          · exact absurd lower (same ▸ lt_irrefl _)
          · rfl
        · rintro rfl
          exact .inr rfl
      · rw [List.filter_cons_of_neg (by simpa using same), List.filter_nil, List.append_nil,
          ← latest]
        constructor
        · rintro (⟨kept, -⟩ | rfl)
          · exact kept
          · exact absurd rfl same
        · intro kept
          have lower := before other (listed other kept) entry (by simp)
          exact .inl ⟨kept, lt_of_le_of_ne lower (Ne.symm same)⟩

/-- Normalized entries are a timeline. -/
theorem ordered_normalize (entries : List α) : Ordered time (normalize time entries) :=
  (foldl_push (sortByKey_sorted time entries)).1

/-- Normalized entries are the last for each time. -/
theorem latest_normalize (entries : List α) : Latest time entries (normalize time entries) := by
  intro entry
  have latest := (foldl_push (sortByKey_sorted time entries)).2 entry
  rwa [filter_sortByKey] at latest

/-- What is normalized keeps no entry that was not given. -/
theorem mem_of_mem_normalize {entry : α} (kept : entry ∈ normalize time entries) :
    entry ∈ entries := by
  have last := (latest_normalize entries entry).mp kept
  exact (List.mem_filter.mp (List.mem_of_getLast? last)).1

/-- A timeline lists the last entry for each of its times. -/
theorem Ordered.latest (ordered : Ordered time entries) : Latest time entries entries := by
  intro entry
  constructor
  · intro listed
    obtain ⟨front, back, rfl⟩ := List.append_of_mem listed
    obtain ⟨-, orderedBack, before⟩ := List.pairwise_append.mp ordered
    have frontNone : front.filter (fun other => time other = time entry) = [] := by
      rw [List.filter_eq_nil_iff]
      intro other inFront
      simpa using (before other inFront entry (by simp)).ne
    have backNone : back.filter (fun other => time other = time entry) = [] := by
      rw [List.filter_eq_nil_iff]
      intro other inBack
      simpa using ((List.pairwise_cons.mp orderedBack).1 other inBack).ne'
    rw [List.filter_append, frontNone, List.filter_cons_of_pos (by simp), backNone]
    rfl
  · intro last
    exact (List.mem_filter.mp (List.mem_of_getLast? last)).1

/-- What is added for later times does not show among the entries up to a moment. -/
theorem filter_normalize_append {old new : List α} (ordered : Ordered time old) {moment : κ}
    (later : ∀ entry ∈ new, moment < time entry) :
    (normalize time (old ++ new)).filter (fun entry => time entry ≤ moment) =
      old.filter fun entry => time entry ≤ moment := by
  apply Ordered.ext ((ordered_normalize _).filter _) (ordered.filter _)
  intro entry
  rw [List.mem_filter, List.mem_filter, and_congr_left_iff]
  intro past
  have past : time entry ≤ moment := of_decide_eq_true past
  have newNone : new.filter (fun other => time other = time entry) = [] := by
    rw [List.filter_eq_nil_iff]
    intro other listed
    simpa using (past.trans_lt (later other listed)).ne'
  rw [latest_normalize, List.filter_append, newNone, List.append_nil, ordered.latest]

/-- What is added for later times is not in force at a moment before them. -/
theorem inForce_normalize_append {old new : List α} (ordered : Ordered time old) {moment : κ}
    (later : ∀ entry ∈ new, moment < time entry) :
    inForce time (normalize time (old ++ new)) moment = inForce time old moment := by
  rw [inForce_eq, inForce_eq, filter_normalize_append ordered later]

/-- Nothing is in force before the first time. -/
theorem inForce_eq_none {moment : κ} (later : ∀ entry ∈ entries, moment < time entry) :
    inForce time entries moment = none := by
  rw [inForce_eq, List.getLast?_eq_none_iff, List.filter_eq_nil_iff]
  intro entry listed
  simpa using later entry listed

/-- Entries for one time are normalized to the last. -/
theorem normalize_of_level {moment : κ} (level : ∀ entry ∈ entries, time entry = moment) :
    normalize time entries = entries.getLast?.toList := by
  have whole : ∀ entry, time entry = moment →
      (entries.filter fun other => time other = time entry) = entries := by
    intro entry same
    rw [List.filter_eq_self]
    intro other listed
    simp [level other listed, same]
  apply Ordered.ext (ordered_normalize _)
  · cases entries.getLast? <;> simp [Ordered]
  · intro entry
    rw [Option.mem_toList]
    constructor
    · intro kept
      have last := (latest_normalize entries entry).mp kept
      rwa [whole entry (level entry (mem_of_mem_normalize kept))] at last
    · intro last
      rw [latest_normalize, whole entry (level entry (List.mem_of_getLast? last))]
      exact last

/-- A timeline that is in the past goes on with an entry for the present, in place of what it has for
it. -/
theorem ordered_replace (entry : α) (ordered : Ordered time entries)
    (past : ∀ other ∈ entries, time other ≤ time entry) :
    Ordered time (entries.filter (fun other => time other ≠ time entry) ++ [entry]) := by
  apply List.pairwise_append.mpr
  refine ⟨ordered.filter _, List.pairwise_singleton _ _, ?_⟩
  intro other listed last same
  rw [List.mem_singleton.mp same]
  have differs := (List.mem_filter.mp listed).2
  exact lt_of_le_of_ne (past other (List.mem_filter.mp listed).1) (of_decide_eq_true differs)

/-- An entry in place of what there is for its time does not show at a moment before it. -/
theorem inForce_replace (entry : α) {moment : κ} (later : moment < time entry) :
    inForce time (entries.filter (fun other => time other ≠ time entry) ++ [entry]) moment =
      inForce time entries moment := by
  rw [inForce_eq, inForce_eq, List.filter_append, List.filter_cons_of_neg (by simpa using later),
    List.filter_nil, List.append_nil, List.filter_filter]
  congr 1
  apply List.filter_congr
  intro other listed
  by_cases past : time other ≤ moment
  · simp [past, (past.trans_lt later).ne]
  · simp [past]

end Aipass.Timeline
