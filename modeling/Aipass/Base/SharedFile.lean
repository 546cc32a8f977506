import Mathlib.Data.List.TakeDrop
import Mathlib.Data.Nat.Notation

/-!
# Files read through handles that share a cursor

The handles cloned from one open file share its cursor: a seek through one of them moves the place
all of them read from next. Readers take turns. Each starts when the one before it has ended or is
given up; a reader that was given up may still seek and read. While no reader that was given up
moves the cursor under a reader in the middle of its pass, each reader gets the content in order,
and all of it when it reaches the end.
-/
namespace Aipass.SharedFile

/-- How far a reader is. -/
inductive Phase
  | opened
  | reading
  | ended
  | failed
deriving DecidableEq, Repr

/-- A reader with what it got so far. -/
structure Reader (α : Type) where
  phase : Phase
  got : List α
  /-- The next reader started before this one had ended. -/
  abandoned : Bool

/-- An open file with the readers that hold a handle of it. -/
structure File (α : Type) where
  content : List α
  cursor : ℕ
  readers : List (Reader α)

/-- What a reader does with its handle. -/
inductive Access
  /-- Seek to the start. -/
  | seek
  /-- Read at most so much. -/
  | read (count : ℕ)
  /-- Give up with an error. -/
  | fail
deriving DecidableEq, Repr

variable {α : Type}

/-- A reader that has nothing left to do. -/
def Reader.finished (reader : Reader α) : Bool :=
  reader.phase = .ended ∨ reader.phase = .failed

/-- A reader is given up unless it has nothing left to do. -/
def Reader.leave (reader : Reader α) : Reader α :=
  { reader with abandoned := reader.abandoned || !reader.finished }

/-- Clone a handle for a new reader. -/
def File.clone (file : File α) : File α :=
  { file with readers := file.readers.map Reader.leave ++ [⟨.opened, [], false⟩] }

/-- What a read at the cursor gives. -/
def File.bytes (file : File α) (count : ℕ) : List α := (file.content.drop file.cursor).take count

/-- What a reader is after it used its handle. A read that gives nothing has reached the end. -/
def File.served (file : File α) (reader : Reader α) : Access → Option (Reader α)
  | .seek => if reader.phase = .opened then some { reader with phase := .reading } else none
  | .read count =>
    if reader.phase = .reading ∧ 0 < count then
      some (if file.bytes count = [] then { reader with phase := .ended }
        else { reader with got := reader.got ++ file.bytes count })
    else none
  | .fail => if reader.finished then none else some { reader with phase := .failed }

/-- Where the cursor is after an access. -/
def File.moved (file : File α) : Access → ℕ
  | .seek => 0
  | .read count => file.cursor + (file.bytes count).length
  | .fail => file.cursor

/-- A reader uses its handle. -/
def File.access (file : File α) (index : ℕ) (access : Access) : Option (File α) := do
  let reader ← file.readers[index]?
  let served ← file.served reader access
  some { file with cursor := file.moved access, readers := file.readers.set index served }

/-- A reader is in the middle of its pass, and the place it is at is the cursor. -/
def File.busy (file : File α) : Prop :=
  ∃ reader, file.readers.getLast? = some reader ∧ reader.phase = .reading

instance (file : File α) : Decidable file.busy :=
  decidable_of_iff (file.readers.getLast?.any fun reader => reader.phase = .reading) (by
    simp [File.busy, Option.any_eq_true])

/-- A reader that was given up does not move the cursor under one in the middle of its pass. -/
def File.Undisturbed (file : File α) (index : ℕ) (access : Access) : Prop :=
  index + 1 = file.readers.length ∨ ¬ file.busy ∨ file.moved access = file.cursor

instance (file : File α) (index : ℕ) (access : Access) :
    Decidable (file.Undisturbed index access) :=
  inferInstanceAs (Decidable (_ ∨ _ ∨ _))

/-- What a reader that was not given up has got. -/
def File.Faithful (file : File α) (reader : Reader α) : Prop :=
  reader.abandoned = false →
    match reader.phase with
    | .opened => reader.got = []
    | .reading => reader.got = file.content.take file.cursor
    | .ended => reader.got = file.content
    | .failed => reader.got <+: file.content

/-- A file whose readers get its content in order. -/
structure File.Sound (file : File α) : Prop where
  faithful : ∀ reader ∈ file.readers, file.Faithful reader
  inside : file.cursor ≤ file.content.length
  /-- Only the last reader is at work. -/
  turns : ∀ reader ∈ file.readers.dropLast, reader.abandoned = false → reader.finished = true

namespace File

variable {file next : File α} {index : ℕ} {access : Access}

@[simp] theorem clone_content : file.clone.content = file.content := rfl

@[simp] theorem clone_cursor : file.clone.cursor = file.cursor := rfl

@[simp] theorem clone_length : file.clone.readers.length = file.readers.length + 1 := by
  simp [clone]

/-- What a reader is after it used its handle, case by case. -/
inductive Serves (file : File α) (reader : Reader α) : Access → Reader α → Prop where
  /-- A reader starts its pass. -/
  | seek (opened : reader.phase = .opened) :
      Serves file reader .seek { reader with phase := .reading }
  /-- A reader gets more of the content. -/
  | more {count} (reading : reader.phase = .reading) :
      Serves file reader (.read count) { reader with got := reader.got ++ file.bytes count }
  /-- A reader finds the end. -/
  | last {count} (reading : reader.phase = .reading) (some_ : 0 < count)
      (nothing : file.bytes count = []) :
      Serves file reader (.read count) { reader with phase := .ended }
  /-- A reader gives up. -/
  | fail (unfinished : reader.finished = false) :
      Serves file reader .fail { reader with phase := .failed }

/-- A reader is served in one of these ways. -/
theorem serves_of_served {reader after : Reader α} (went : file.served reader access = some after) :
    file.Serves reader access after := by
  cases access with
  | seek =>
    simp only [served] at went
    split at went
    · next opened =>
      cases went
      exact .seek opened
    · cases went
  | read count =>
    simp only [served] at went
    split at went
    · next reads =>
      cases went
      split
      · next nothing => exact .last reads.1 reads.2 nothing
      · exact .more reads.1
    · cases went
  | fail =>
    simp only [served] at went
    split at went
    · cases went
    · next unfinished =>
      cases went
      exact .fail (by simpa using unfinished)

/-- What an access does to the file. -/
theorem access_cases (went : file.access index access = some next) :
    ∃ reader after, file.readers[index]? = some reader ∧ file.Serves reader access after ∧
      next = { file with
        cursor := file.moved access, readers := file.readers.set index after } := by
  obtain ⟨reader, held, rest⟩ := Option.bind_eq_some_iff.mp went
  obtain ⟨after, serves, same⟩ := Option.bind_eq_some_iff.mp rest
  exact ⟨reader, after, held, serves_of_served serves, (Option.some.inj same).symm⟩

/-- An access leaves the content. -/
theorem access_content (went : file.access index access = some next) :
    next.content = file.content := by
  obtain ⟨_, _, _, _, rfl⟩ := access_cases went
  rfl

/-- An access leaves the number of readers. -/
theorem access_length (went : file.access index access = some next) :
    next.readers.length = file.readers.length := by
  obtain ⟨_, _, _, _, rfl⟩ := access_cases went
  exact List.length_set

/-- An access leaves whether a reader was given up. -/
theorem Serves.abandoned {reader after : Reader α} (serves : file.Serves reader access after) :
    after.abandoned = reader.abandoned := by
  cases serves <;> rfl

/-- A reader that has nothing left to do uses its handle no more. -/
theorem Serves.unfinished {reader after : Reader α} (serves : file.Serves reader access after) :
    reader.finished = false := by
  cases serves with
  | seek opened => simp [Reader.finished, opened]
  | more reading | last reading => simp [Reader.finished, reading]
  | fail unfinished => exact unfinished

/-- An access leaves a reader that has nothing left to do, and whether a reader was given up. -/
theorem access_getElem? (went : file.access index access = some next) {place : ℕ}
    {reader : Reader α} (held : file.readers[place]? = some reader) :
    ∃ after, next.readers[place]? = some after ∧ after.abandoned = reader.abandoned ∧
      (reader.finished = true → after = reader) := by
  obtain ⟨own, after, ownHeld, serves, rfl⟩ := access_cases went
  by_cases same : index = place
  · cases same
    cases held.symm.trans ownHeld
    refine ⟨after, ?_, serves.abandoned, ?_⟩
    · simp [(List.getElem?_eq_some_iff.mp held).1]
    · rw [serves.unfinished]
      intro finished
      cases finished
  · exact ⟨reader, (List.getElem?_set_ne same).trans held, rfl, fun _ => rfl⟩

/-- The place after a read is inside the content. -/
theorem moved_le (inside : file.cursor ≤ file.content.length) :
    file.moved access ≤ file.content.length := by
  cases access with
  | seek => exact Nat.zero_le _
  | read count =>
    simp only [moved, bytes, List.length_take, List.length_drop]
    omega
  | fail => exact inside

/-- What was read with the bytes at the cursor is what lies before the next place. -/
theorem take_moved (count : ℕ) :
    file.content.take file.cursor ++ file.bytes count =
      file.content.take (file.moved (.read count)) := by
  have split := List.take_add (l := file.content) (i := file.cursor)
    (j := (file.bytes count).length)
  rw [moved, split]
  congr 1
  rw [bytes, List.length_take, List.take_eq_take_min]

/-- A read that gives nothing is at the end. -/
theorem take_of_bytes_nil {count : ℕ} (some_ : 0 < count) (nothing : file.bytes count = []) :
    file.content.take file.cursor = file.content := by
  have short : file.content.length ≤ file.cursor := by
    have zero := congrArg List.length nothing
    simp only [bytes, List.length_take, List.length_drop, List.length_nil] at zero
    omega
  exact List.take_of_length_le short

/-- A reader that was not given up has a prefix of the content. -/
theorem Faithful.isPrefix {reader : Reader α} (faithful : file.Faithful reader)
    (kept : reader.abandoned = false) : reader.got <+: file.content := by
  have holds := faithful kept
  cases phase : reader.phase with
  | opened =>
    rw [phase] at holds
    rw [holds]
    exact List.nil_prefix
  | reading =>
    rw [phase] at holds
    rw [holds]
    exact List.take_prefix _ _
  | ended =>
    rw [phase] at holds
    exact holds ▸ List.prefix_refl _
  | failed =>
    rw [phase] at holds
    exact holds

/-- A reader that was not given up and has reached the end has the content. -/
theorem Faithful.whole {reader : Reader α} (faithful : file.Faithful reader)
    (kept : reader.abandoned = false) (ended : reader.phase = .ended) :
    reader.got = file.content := by
  have holds := faithful kept
  rw [ended] at holds
  exact holds

/-- The reader that uses its handle goes on faithfully. -/
theorem Faithful.served {reader after : Reader α} (faithful : file.Faithful reader)
    (serves : file.Serves reader access after) :
    ({ file with cursor := file.moved access } : File α).Faithful after := by
  intro kept
  rw [serves.abandoned] at kept
  have holds := faithful kept
  cases serves with
  | seek opened =>
    rw [opened] at holds
    simpa [moved] using holds
  | more reading =>
    rw [reading] at holds
    simp only [reading, holds]
    exact take_moved _
  | last reading some_ nothing =>
    rw [reading] at holds
    exact holds.trans (take_of_bytes_nil some_ nothing)
  | fail => exact faithful.isPrefix kept

/-- A reader that is not in the middle of its pass does not depend on the cursor. -/
theorem Faithful.at_cursor {reader : Reader α} (faithful : file.Faithful reader) {place : ℕ}
    (still : reader.phase = .reading → reader.abandoned = false → place = file.cursor) :
    ({ file with cursor := place } : File α).Faithful reader := by
  intro kept
  have holds := faithful kept
  cases phase : reader.phase with
  | reading =>
    rw [phase] at holds
    simpa [still phase kept] using holds
  | opened | ended | failed =>
    rw [phase] at holds
    exact holds

/-- An open file without readers is sound. -/
theorem Sound.start {content : List α} {cursor : ℕ} (inside : cursor ≤ content.length) :
    File.Sound ⟨content, cursor, []⟩ where
  faithful := by simp
  inside := inside
  turns := by simp

/-- Readers stay sound when a handle is cloned for a new one. -/
theorem Sound.clone (sound : file.Sound) : file.clone.Sound := by
  constructor
  case faithful =>
    intro reader listed
    obtain before | new := List.mem_append.mp listed
    · obtain ⟨earlier, held, rfl⟩ := List.mem_map.mp before
      intro kept
      exact sound.faithful earlier held (Bool.or_eq_false_iff.mp kept).1
    · rw [List.mem_singleton.mp new]
      exact fun _ => rfl
  case inside => exact sound.inside
  case turns =>
    intro reader listed kept
    rw [File.clone, List.dropLast_concat] at listed
    obtain ⟨earlier, held, rfl⟩ := List.mem_map.mp listed
    have done := (Bool.or_eq_false_iff.mp kept).2
    rwa [Bool.not_eq_false'] at done

/-- A reader that is not the last one is given up while it has something left to do. -/
theorem Sound.abandoned (sound : file.Sound) {reader : Reader α}
    (held : file.readers[index]? = some reader) (unfinished : reader.finished = false)
    (earlier : index + 1 ≠ file.readers.length) : reader.abandoned = true := by
  have inside := (List.getElem?_eq_some_iff.mp held).1
  have listed : reader ∈ file.readers.dropLast := by
    apply List.mem_of_getElem? (i := index)
    rw [List.getElem?_dropLast, if_pos (by omega)]
    exact held
  by_contra kept
  rw [Bool.not_eq_true] at kept
  rw [sound.turns reader listed kept] at unfinished
  cases unfinished

/-- Readers stay sound under an access that does not disturb the one in the middle of its pass. -/
theorem Sound.accessed (sound : file.Sound) (went : file.access index access = some next)
    (undisturbed : file.Undisturbed index access) : next.Sound := by
  obtain ⟨reader, after, held, serves, rfl⟩ := access_cases went
  have inside := (List.getElem?_eq_some_iff.mp held).1
  constructor
  case inside => exact moved_le sound.inside
  case faithful =>
    intro other listed
    obtain ⟨place, bound, same⟩ := List.getElem_of_mem listed
    rw [List.getElem_set] at same
    split at same
    · cases same
      exact (sound.faithful reader (List.mem_of_getElem? held)).served serves
    · next apart =>
      have otherHeld : file.readers[place]? = some other := List.getElem?_eq_some_iff.mpr
        ⟨by simpa using bound, same⟩
      refine (sound.faithful other (List.mem_of_getElem? otherHeld)).at_cursor ?_
      intro reading kept
      have last : place + 1 = file.readers.length := by
        by_contra earlier
        have given := sound.abandoned otherHeld (by simp [Reader.finished, reading]) earlier
        rw [kept] at given
        cases given
      -- The other reader is the last one, so the cursor may not move.
      obtain own | idle | still := undisturbed
      · omega
      · refine absurd ⟨other, ?_, reading⟩ idle
        rw [List.getLast?_eq_getElem?, ← last]
        exact otherHeld
      · exact still
  case turns =>
    intro other listed kept
    obtain ⟨place, bound, same⟩ := List.getElem_of_mem listed
    have short : place + 1 < file.readers.length := by
      simp only [List.length_dropLast, List.length_set] at bound
      omega
    rw [List.getElem_dropLast, List.getElem_set] at same
    split at same
    · next own =>
      cases same
      rw [serves.abandoned] at kept
      have given := sound.abandoned held serves.unfinished (by omega)
      rw [kept] at given
      cases given
    · refine sound.turns other (List.mem_of_getElem? (i := place) ?_) kept
      rw [List.getElem?_dropLast, if_pos (by omega), ← same]
      exact List.getElem?_eq_getElem _

end File
end Aipass.SharedFile
