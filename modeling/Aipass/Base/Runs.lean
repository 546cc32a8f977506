import Mathlib.Data.List.Chain
import Mathlib.Data.List.TakeWhile
import Mathlib.Data.Nat.Notation

/-!
# Runs of one key

A list of entries, each a key with some elements, is folded into runs: neighbouring entries of
one key become one entry with the elements of all. Neighbouring runs have different keys. Runs
without elements may be left out; then neighbours can have one key again, and they do exactly
when an entry without elements interrupts two entries of another key that have some.
-/
namespace Aipass

variable {κ α : Type} [DecidableEq κ]

/-- Put an entry in front of runs. -/
def consRun (entry : κ × List α) : List (κ × List α) → List (κ × List α)
  | [] => [entry]
  | first :: rest =>
    if entry.1 = first.1 then (entry.1, entry.2 ++ first.2) :: rest else entry :: first :: rest

/-- The runs of a list of entries. -/
def runs : List (κ × List α) → List (κ × List α)
  | [] => []
  | entry :: rest => consRun entry (runs rest)

/-- The key of an entry, and whether it has no elements. -/
def mark (entry : κ × List α) : κ × Bool := (entry.1, entry.2.isEmpty)

/-- Entries without elements, one of them of another key, stand between two neighbouring entries
of one key that have elements. -/
def Interrupted (marks : List (κ × Bool)) : Prop :=
  ∃ before key gap after, marks = before ++ (key, false) :: (gap ++ (key, false) :: after) ∧
    (∀ held ∈ gap, held.2 = true) ∧ ∃ held ∈ gap, held.1 ≠ key

/-- The entries that have elements. -/
def filled (entries : List (κ × List α)) : List (κ × List α) :=
  entries.filter fun entry => entry.2 ≠ []

/-- Runs with an entry in front start with its key. -/
theorem consRun_eq (entry : κ × List α) (rest : List (κ × List α)) :
    ∃ elements tail, consRun entry rest = (entry.1, entry.2 ++ elements) :: tail := by
  cases rest with
  | nil => exact ⟨[], [], by simp [consRun]⟩
  | cons first rest =>
    by_cases same : entry.1 = first.1
    · exact ⟨first.2, rest, by simp [consRun, same]⟩
    · exact ⟨[], first :: rest, by simp [consRun, same]⟩

/-- Only no entries have no runs. -/
theorem runs_eq_nil {entries : List (κ × List α)} : runs entries = [] ↔ entries = [] := by
  cases entries with
  | nil => exact iff_of_true rfl rfl
  | cons entry rest =>
    obtain ⟨elements, tail, shape⟩ := consRun_eq entry (runs rest)
    simp [runs, shape]

/-- The keys of neighbouring runs differ. -/
theorem isChain_runs (entries : List (κ × List α)) :
    ((runs entries).map Prod.fst).IsChain (· ≠ ·) := by
  induction entries with
  | nil => exact List.isChain_nil
  | cons entry rest ih =>
    rw [runs]
    cases shape : runs rest with
    | nil => exact List.isChain_singleton _
    | cons first more =>
      rw [shape, List.map_cons] at ih
      by_cases same : entry.1 = first.1
      · simpa [consRun, same] using ih
      · simpa [consRun, same] using ih

/-- An entry without elements in front leaves the runs with elements alone. -/
theorem filled_consRun_nil {entry : κ × List α} (empty : entry.2 = [])
    (rest : List (κ × List α)) : filled (consRun entry rest) = filled rest := by
  cases rest with
  | nil => simp [consRun, filled, empty]
  | cons first more =>
    by_cases same : entry.1 = first.1
    · simp [consRun, filled, empty, same]
    · simp [consRun, filled, empty, same]

/-- Entries without elements in front leave the runs with elements alone. -/
theorem filled_runs_append {gap : List (κ × List α)} (empty : ∀ entry ∈ gap, entry.2 = [])
    (rest : List (κ × List α)) : filled (runs (gap ++ rest)) = filled (runs rest) := by
  induction gap with
  | nil => rfl
  | cons entry gap ih =>
    rw [List.cons_append, runs, filled_consRun_nil (empty entry (List.mem_cons_self ..)),
      ih fun other inside => empty other (List.mem_cons_of_mem _ inside)]

/-- Runs with elements in front start with their key. -/
theorem filled_runs_cons {entry : κ × List α} (some_ : entry.2 ≠ [])
    (rest : List (κ × List α)) :
    ∃ elements tail, filled (runs (entry :: rest)) = (entry.1, elements) :: tail := by
  obtain ⟨elements, tail, shape⟩ := consRun_eq entry (runs rest)
  refine ⟨entry.2 ++ elements, filled tail, ?_⟩
  rw [runs, shape, filled, List.filter_cons_of_pos (by simp [some_])]
  rfl

/-- Entries of one key make up the first run, with the elements of all. -/
theorem runs_same (key : κ) (front : List (κ × List α)) (same : ∀ entry ∈ front, entry.1 = key)
    (nonempty : front ≠ []) (rest : List (κ × List α)) :
    ∃ elements tail, runs (front ++ rest) =
      (key, front.flatMap Prod.snd ++ elements) :: tail := by
  induction front with
  | nil => exact absurd rfl nonempty
  | cons entry front ih =>
    have known := same entry (List.mem_cons_self ..)
    rw [List.cons_append, runs, List.flatMap_cons]
    by_cases last : front = []
    · obtain ⟨elements, tail, shape⟩ := consRun_eq entry (runs rest)
      subst last
      exact ⟨elements, tail, by simp [shape, known]⟩
    · obtain ⟨elements, tail, shape⟩ :=
        ih (fun other inside => same other (List.mem_cons_of_mem _ inside)) last
      exact ⟨elements, tail, by simp [shape, consRun, known]⟩

/-- The first run has the elements of the entries up to the first of another key. -/
theorem runs_head {entries : List (κ × List α)} {key : κ} {elements : List α}
    {tail : List (κ × List α)} (shape : runs entries = (key, elements) :: tail) :
    elements = (entries.takeWhile fun entry => entry.1 = key).flatMap Prod.snd := by
  induction entries generalizing elements tail with
  | nil => cases shape
  | cons entry rest ih =>
    rw [runs] at shape
    cases inner : runs rest with
    | nil =>
      rw [inner, consRun, List.cons.injEq] at shape
      rw [runs_eq_nil] at inner
      obtain ⟨rfl, rfl⟩ := shape
      subst inner
      simp
    | cons first more =>
      rw [inner] at shape
      by_cases same : entry.1 = first.1
      · rw [consRun, if_pos same, List.cons.injEq, Prod.mk.injEq] at shape
        obtain ⟨⟨rfl, rfl⟩, rfl⟩ := shape
        rw [List.takeWhile_cons_of_pos (by simp), List.flatMap_cons,
          @ih first.2 _ (by rw [inner, same])]
      · rw [consRun, if_neg same, List.cons.injEq] at shape
        obtain ⟨rfl, -⟩ := shape
        have other : rest.takeWhile (fun entry => entry.1 = key) = [] := by
          cases rest with
          | nil => rfl
          | cons next rest =>
            obtain ⟨elements', tail', start⟩ := consRun_eq next (runs rest)
            rw [runs, start, List.cons.injEq] at inner
            have differs : next.1 ≠ key := by
              rw [← inner.1] at same
              exact fun equal => same equal.symm
            exact List.takeWhile_cons_of_neg (by simp [differs])
        rw [List.takeWhile_cons_of_pos (by simp), other]
        simp

/-- The runs after the first are those of the entries behind its key. -/
theorem runs_tail {entries : List (κ × List α)} {key : κ} {elements : List α}
    {tail : List (κ × List α)} (shape : runs entries = (key, elements) :: tail) :
    tail = runs (entries.dropWhile fun entry => entry.1 = key) := by
  induction entries generalizing elements tail with
  | nil => cases shape
  | cons entry rest ih =>
    rw [runs] at shape
    cases inner : runs rest with
    | nil =>
      rw [inner, consRun, List.cons.injEq] at shape
      rw [runs_eq_nil] at inner
      obtain ⟨rfl, rfl⟩ := shape
      subst inner
      simp [runs]
    | cons first more =>
      rw [inner] at shape
      by_cases same : entry.1 = first.1
      · rw [consRun, if_pos same, List.cons.injEq, Prod.mk.injEq] at shape
        obtain ⟨⟨rfl, -⟩, rfl⟩ := shape
        rw [List.dropWhile_cons_of_pos (by simp)]
        exact @ih first.2 _ (by rw [inner, same])
      · rw [consRun, if_neg same, List.cons.injEq] at shape
        obtain ⟨rfl, rfl⟩ := shape
        have other : rest.dropWhile (fun entry => entry.1 = key) = rest := by
          cases rest with
          | nil => rfl
          | cons next rest =>
            obtain ⟨elements', tail', start⟩ := consRun_eq next (runs rest)
            rw [runs, start, List.cons.injEq] at inner
            have differs : next.1 ≠ key := by
              rw [← inner.1] at same
              exact fun equal => same equal.symm
            exact List.dropWhile_cons_of_neg (by simp [differs])
        rw [List.dropWhile_cons_of_pos (by simp), other, inner]

/-- An element of a run comes from an entry of its key, and the runs behind it are those of the
entries behind that key. -/
theorem runs_source {entries before after : List (κ × List α)} {key : κ} {elements : List α}
    (shape : runs entries = before ++ (key, elements) :: after) {element : α}
    (inside : element ∈ elements) :
    ∃ front held back, entries = front ++ (key, held) :: back ∧ element ∈ held ∧
      after = runs (back.dropWhile fun entry => entry.1 = key) := by
  induction entries generalizing before elements with
  | nil => simp [runs] at shape
  | cons entry rest ih =>
    cases before with
    | nil =>
      have behind := runs_tail shape
      obtain ⟨more, tail, start⟩ := consRun_eq entry (runs rest)
      have known : entry.1 = key := by
        rw [runs, start, List.nil_append, List.cons.injEq, Prod.mk.injEq] at shape
        exact shape.1.1
      rw [List.dropWhile_cons_of_pos (by simp [known])] at behind
      by_cases own : element ∈ entry.2
      · exact ⟨[], entry.2, rest, by rw [← known]; rfl, own, behind⟩
      · cases inner : runs rest with
        | nil =>
          rw [runs, inner, consRun, List.nil_append, List.cons.injEq] at shape
          rw [shape.1] at own
          exact absurd inside own
        | cons first others =>
          rw [runs, inner] at shape
          by_cases same : entry.1 = first.1
          · rw [consRun, if_pos same, List.nil_append, List.cons.injEq, Prod.mk.injEq] at shape
            obtain ⟨⟨-, rfl⟩, rfl⟩ := shape
            have later := (List.mem_append.mp inside).resolve_left own
            obtain ⟨front, held, back, split, member, rest⟩ :=
              @ih [] first.2
                (by rw [inner, ← known, same]; rfl) later
            exact ⟨entry :: front, held, back, by rw [split]; rfl, member, rest⟩
          · rw [consRun, if_neg same, List.nil_append, List.cons.injEq] at shape
            rw [shape.1] at own
            exact absurd inside own
    | cons head before =>
      have deeper : ∃ before', runs rest = before' ++ (key, elements) :: after := by
        rw [runs] at shape
        cases inner : runs rest with
        | nil =>
          rw [inner, consRun] at shape
          simp at shape
        | cons first others =>
          rw [inner, consRun] at shape
          split at shape
          · rw [List.cons_append, List.cons.injEq] at shape
            exact ⟨first :: before, by rw [shape.2]; rfl⟩
          · rw [List.cons_append, List.cons.injEq] at shape
            exact ⟨before, shape.2⟩
      obtain ⟨before', shape'⟩ := deeper
      obtain ⟨front, held, back, split, member, rest⟩ := ih shape' inside
      exact ⟨entry :: front, held, back, by rw [split]; rfl, member, rest⟩

/-- Where the key changes, a run ends. -/
theorem runs_append {last first : κ × List α} (differs : last.1 ≠ first.1)
    (front rest : List (κ × List α)) :
    runs (front ++ last :: first :: rest) =
      runs (front ++ [last]) ++ runs (first :: rest) := by
  induction front with
  | nil =>
    obtain ⟨elements, tail, shape⟩ := consRun_eq first (runs rest)
    have start : runs (first :: rest) = (first.1, first.2 ++ elements) :: tail := shape
    have alone : runs [last] = [last] := rfl
    rw [List.nil_append, List.nil_append, runs, alone, start, consRun, if_neg differs]
    rfl
  | cons entry front ih =>
    have nonempty : runs (front ++ [last]) ≠ [] := by simp [runs_eq_nil]
    rw [List.cons_append, runs, ih, List.cons_append, runs.eq_2 entry (front ++ [last])]
    obtain ⟨head, others, shape⟩ := List.exists_cons_of_ne_nil nonempty
    generalize runs (first :: rest) = more
    simp only [shape, List.cons_append, consRun]
    split <;> rfl

/-- The last run is of the key of the last entries, and has the elements of each. -/
theorem getLast_runs {key : κ} {elements : List α} (some_ : elements ≠ [])
    {same : List (κ × List α)} (keys : ∀ entry ∈ same, entry.1 = key)
    (front : List (κ × List α)) :
    ∃ before held, runs (front ++ (key, elements) :: same) = before ++ [(key, held)] ∧
      held ≠ [] := by
  induction front with
  | nil =>
    obtain ⟨more, tail, shape⟩ := runs_same key ((key, elements) :: same)
      (List.forall_mem_cons.mpr ⟨rfl, keys⟩) (List.cons_ne_nil _ _) []
    have ended := runs_tail shape
    have nothing : (((key, elements) :: same) ++ []).dropWhile
        (fun entry : κ × List α => entry.1 = key) = [] := by
      rw [List.append_nil, List.dropWhile_eq_nil_iff]
      simpa using keys
    rw [nothing] at ended
    rw [List.append_nil, ended] at shape
    refine ⟨[], _, shape, ?_⟩
    simp [some_]
  | cons entry front ih =>
    obtain ⟨before, held, shape, filled⟩ := ih
    rw [List.cons_append, runs, shape]
    cases before with
    | nil =>
      rw [List.nil_append, consRun]
      split
      · rename_i same
        exact ⟨[], entry.2 ++ held, by rw [same]; rfl, by simp [filled]⟩
      · exact ⟨[entry], held, rfl, filled⟩
    | cons first before =>
      rw [List.cons_append, consRun]
      split
      · exact ⟨(entry.1, entry.2 ++ first.2) :: before, held, rfl, filled⟩
      · exact ⟨entry :: first :: before, held, rfl, filled⟩

/-- Where the first run has no elements, one without elements and of another key stands before
the first entry that has some. -/
theorem gap_of_hollow {entries : List (κ × List α)} {first : κ × List α}
    {more : List (κ × List α)} (shape : runs entries = first :: more) (hollow : first.2 = [])
    {key : κ} {elements : List α} {tail : List (κ × List α)}
    (start : filled (runs entries) = (key, elements) :: tail) :
    ∃ gap held after, entries = gap ++ (key, held) :: after ∧ held ≠ [] ∧
      (∀ entry ∈ gap, entry.2 = []) ∧ ∃ entry ∈ gap, entry.1 ≠ key := by
  have split := List.takeWhile_append_dropWhile (p := fun entry : κ × List α => entry.2 = [])
    (l := entries)
  have empty : ∀ entry ∈ entries.takeWhile fun entry => entry.2 = [], entry.2 = [] := by
    intro entry inside
    simpa using List.mem_takeWhile_imp inside
  rw [← split, filled_runs_append empty] at start
  cases rest : entries.dropWhile fun entry => entry.2 = [] with
  | nil =>
    rw [rest] at start
    cases start
  | cons next after =>
    have solid : next.2 ≠ [] := by
      have head := List.head?_dropWhile_not (fun entry : κ × List α => decide (entry.2 = []))
        entries
      rw [rest] at head
      simpa using head
    obtain ⟨elements', tail', start'⟩ := filled_runs_cons solid after
    rw [rest, start', List.cons.injEq, Prod.mk.injEq] at start
    obtain ⟨⟨rfl, -⟩, -⟩ := start
    refine ⟨_, next.2, after, by rw [← rest]; exact split.symm, solid, empty, ?_⟩
    by_contra none_
    push Not at none_
    obtain ⟨more', tail'', whole⟩ := runs_same next.1
      ((entries.takeWhile fun entry => entry.2 = []) ++ [next])
      (fun entry inside => (List.mem_append.mp inside).elim (none_ entry)
        fun last => by rw [List.mem_singleton.mp last])
      (by simp) after
    rw [List.append_assoc, List.singleton_append, ← rest, split, shape, List.cons.injEq] at whole
    rw [whole.1] at hollow
    simp [solid] at hollow

/-- Where no entry interrupts a key, leaving out the runs without elements is leaving out the
entries without elements. -/
theorem filled_runs {entries : List (κ × List α)} (clear : ¬ Interrupted (entries.map mark)) :
    filled (runs entries) = runs (filled entries) := by
  induction entries with
  | nil => rfl
  | cons entry rest ih =>
    have rest' := ih fun ⟨before, key, gap, after, split, empty, other⟩ =>
      clear ⟨mark entry :: before, key, gap, after, by rw [List.map_cons, split]; rfl, empty, other⟩
    by_cases some_ : entry.2 = []
    · have skipped : filled (entry :: rest) = filled rest :=
        List.filter_cons_of_neg (by simp [some_])
      rw [runs, filled_consRun_nil some_, rest', skipped]
    · have kept : filled (entry :: rest) = entry :: filled rest :=
        List.filter_cons_of_pos (by simp [some_])
      rw [kept, runs, runs, ← rest']
      cases shape : runs rest with
      | nil => simp [consRun, filled, some_]
      | cons first more =>
        -- the runs behind the entry start with another key, or the entry is interrupted
        have starts : first.2 = [] → ∀ elements tail,
            filled (first :: more) ≠ (entry.1, elements) :: tail := by
          intro hollow elements tail start
          rw [← shape] at start
          obtain ⟨gap, held, after, split, solid, empty, other, inside, differs⟩ :=
            gap_of_hollow shape hollow start
          refine clear ⟨[], entry.1, gap.map mark, after.map mark, ?_, ?_, mark other,
            List.mem_map_of_mem inside, differs⟩
          · simp [split, mark, some_, solid]
          · intro held' listed
            obtain ⟨entry', inside', rfl⟩ := List.mem_map.mp listed
            simp [mark, empty entry' inside']
        by_cases solid : first.2 = []
        · have apart : filled (first :: more) = filled more :=
            List.filter_cons_of_neg (by simp [solid])
          have whole : filled (consRun entry (first :: more)) = entry :: filled more := by
            rw [consRun]
            split
            · rw [solid, List.append_nil]
              exact List.filter_cons_of_pos (by simp [some_])
            · rw [← apart]
              exact List.filter_cons_of_pos (by simp [some_])
          rw [whole]
          rw [apart] at starts ⊢
          cases next : filled more with
          | nil => rfl
          | cons head tail =>
            rw [consRun, if_neg]
            intro same
            exact starts solid head.2 tail (by rw [next, same])
        · have front : filled (first :: more) = first :: filled more :=
            List.filter_cons_of_pos (by simp [solid])
          rw [front]
          by_cases same : entry.1 = first.1
          · rw [consRun, consRun, if_pos same, if_pos same]
            exact List.filter_cons_of_pos (by simp [some_])
          · rw [consRun, consRun, if_neg same, if_neg same, ← front]
            exact List.filter_cons_of_pos (by simp [some_])

/-- The entries before the first of another key. -/
theorem exists_first_other {key : κ} {entries : List (κ × List α)}
    (other : ∃ entry ∈ entries, entry.1 ≠ key) :
    ∃ same next more, entries = same ++ next :: more ∧ (∀ entry ∈ same, entry.1 = key) ∧
      next.1 ≠ key := by
  induction entries with
  | nil => simp at other
  | cons entry rest ih =>
    by_cases same : entry.1 = key
    · obtain ⟨found, inside, differs⟩ := other
      have later := (List.mem_cons.mp inside).resolve_left fun first => differs (by rw [first, same])
      obtain ⟨front, next, more, rfl, keys, turns⟩ := ih ⟨found, later, differs⟩
      exact ⟨entry :: front, next, more, rfl, List.forall_mem_cons.mpr ⟨same, keys⟩, turns⟩
    · exact ⟨[], entry, rest, rfl, by simp, same⟩

/-- An interrupted key stands in two neighbouring runs that have elements. -/
theorem not_isChain_of_interrupted {entries : List (κ × List α)}
    (interrupted : Interrupted (entries.map mark)) :
    ¬ ((filled (runs entries)).map Prod.fst).IsChain (· ≠ ·) := by
  obtain ⟨before, key, gap, after, split, empty, other, inside, differs⟩ := interrupted
  obtain ⟨front, rest, rfl, -, fromKey⟩ := List.map_eq_append_iff.mp split
  obtain ⟨⟨said, elements⟩, rest, rfl, marked, behind⟩ := List.map_eq_cons_iff.mp fromKey
  obtain ⟨hollow, rest, rfl, rfl, fromAgain⟩ := List.map_eq_append_iff.mp behind
  obtain ⟨⟨again, elements'⟩, rest, rfl, marked', -⟩ := List.map_eq_cons_iff.mp fromAgain
  simp only [mark, Prod.mk.injEq, List.isEmpty_eq_false_iff] at marked marked'
  obtain ⟨rfl, some_⟩ := marked
  obtain ⟨rfl, some_'⟩ := marked'
  have empties : ∀ entry ∈ hollow, entry.2 = [] := fun entry listed => by
    simpa [mark] using empty _ (List.mem_map_of_mem listed)
  obtain ⟨interrupter, listed, rfl⟩ := List.mem_map.mp inside
  -- the entries up to the first of another key belong to the run of the key
  obtain ⟨same, next, hollow, rfl, keys, turns⟩ : ∃ same next more,
      hollow = same ++ next :: more ∧ (∀ entry ∈ same, entry.1 = again) ∧ next.1 ≠ again :=
    exists_first_other ⟨interrupter, listed, differs⟩
  obtain ⟨before, held, lastRun, solid⟩ := getLast_runs some_ keys front
  obtain ⟨init, last, whole⟩ : ∃ init last, (again, elements) :: same = init ++ [last] :=
    ⟨_, _, (List.dropLast_append_getLast (List.cons_ne_nil _ _)).symm⟩
  have lastKey : last.1 = again := by
    have member : last ∈ (again, elements) :: same := by simp [whole]
    exact (List.forall_mem_cons.mpr ⟨rfl, keys⟩ : ∀ entry ∈ (again, elements) :: same,
      entry.1 = again) last member
  have ends : runs (front ++ (again, elements) :: (same ++ next :: hollow ++
      (again, elements') :: rest)) = before ++ [(again, held)] ++
        runs (next :: (hollow ++ (again, elements') :: rest)) := by
    have regroup : front ++ (again, elements) :: (same ++ next :: hollow ++
        (again, elements') :: rest) =
        (front ++ init) ++ last :: next :: (hollow ++ (again, elements') :: rest) := by
      rw [List.append_assoc same, ← List.cons_append, whole]
      simp
    rw [regroup, runs_append (by rw [lastKey]; exact turns.symm), ← lastRun, List.append_assoc,
      ← whole]
  have skips : filled (runs (next :: (hollow ++ (again, elements') :: rest))) =
      filled (runs ((again, elements') :: rest)) :=
    @filled_runs_append _ _ _ (next :: hollow)
      (fun entry inside => empties entry (List.mem_append_right _ inside)) _
  obtain ⟨more, tail, start⟩ := @filled_runs_cons _ _ _ (again, elements') some_' rest
  have pair : filled (runs (front ++ (again, elements) :: (same ++ next :: hollow ++
      (again, elements') :: rest))) =
      filled before ++ (again, held) :: (again, more) :: tail := by
    rw [ends, filled, List.filter_append, List.filter_append]
    change filled before ++ filled [(again, held)] ++ filled _ = _
    rw [skips, start, filled, filled, List.filter_cons_of_pos (by simp [solid])]
    simp
  rw [pair]
  simp [List.isChain_append]

/-- The runs that have elements alternate exactly when no key is interrupted. -/
theorem isChain_filled_runs {entries : List (κ × List α)} :
    ((filled (runs entries)).map Prod.fst).IsChain (· ≠ ·) ↔ ¬ Interrupted (entries.map mark) := by
  constructor
  · exact fun chain interrupted => not_isChain_of_interrupted interrupted chain
  · intro clear
    rw [filled_runs clear]
    exact isChain_runs _

end Aipass
