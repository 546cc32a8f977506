import Mathlib.Data.List.Basic

/-!
# Reading values from a buffer

A reader takes one value off the front of what has arrived, waits for more or refuses it. It is run
until it waits, and what it has not read stays in the buffer. Of values written one behind the
other it reads those that have arrived whole, wherever what has arrived is cut.
-/
namespace Aipass.Framed

variable {β α ε : Type}

/-- A reader of one value; `none` where more has to arrive. -/
abbrev Reader (β α ε : Type) := List β → Except ε (Option (α × List β))

/-- The values that are read before the reader waits, and what is left, after at most a number of
reads. -/
def drainFrom (read : Reader β α ε) : ℕ → List β → Except ε (List α × List β)
  | 0, buffer => .ok ([], buffer)
  | fuel + 1, buffer =>
    match read buffer with
    | .error reason => .error reason
    | .ok none => .ok ([], buffer)
    | .ok (some (value, rest)) =>
      (drainFrom read fuel rest).map fun last => (value :: last.1, last.2)

/-- The values that are read before the reader waits, and what is left. -/
def drain (read : Reader β α ε) (buffer : List β) : Except ε (List α × List β) :=
  drainFrom read buffer.length buffer

/-- A block is read as a value, whatever stands behind it, and waited for until it is whole. -/
structure Whole (read : Reader β α ε) (block : List β) (value : α) : Prop where
  nonempty : block ≠ []
  reads : ∀ rest, read (block ++ rest) = .ok (some (value, rest))
  waits : ∀ part, part <+: block → part ≠ block → read part = .ok none

/-- A block is refused as soon as its first elements have arrived. -/
structure Refused (read : Reader β α ε) (block : List β) (size : ℕ) : Prop where
  fits : size ≤ block.length
  waits : ∀ part, part <+: block → part.length < size → read part = .ok none
  refuses : ∀ part rest, part <+: block ++ rest → size ≤ part.length → ∃ reason, read part = .error reason

/-- What is left where the reader waits at once. -/
theorem drainFrom_waits {read : Reader β α ε} {buffer : List β} (waits : read buffer = .ok none)
    (fuel : ℕ) : drainFrom read fuel buffer = .ok ([], buffer) := by
  cases fuel with
  | zero => rfl
  | succ fuel => rw [drainFrom, waits]

section Blocks

variable {read : Reader β α ε} {blocks : List (List β × α)}

/-- The blocks one behind the other. -/
def bytesOf (blocks : List (List β × α)) : List β := (blocks.map Prod.fst).flatten

/-- The first block and the others. -/
@[simp] theorem bytesOf_cons (block : List β × α) (blocks : List (List β × α)) :
    bytesOf (block :: blocks) = block.1 ++ bytesOf blocks := rfl

/-- No block is nothing. -/
@[simp] theorem bytesOf_nil : bytesOf ([] : List (List β × α)) = [] := rfl

/-- There are no more blocks than elements in them. -/
theorem length_le_bytesOf (whole : ∀ block ∈ blocks, Whole read block.1 block.2) :
    blocks.length ≤ (bytesOf blocks).length := by
  induction blocks with
  | nil => simp
  | cons block blocks ih =>
    have positive := List.length_pos_of_ne_nil (whole block List.mem_cons_self).nonempty
    have rest := ih fun other listed => whole other (List.mem_cons_of_mem _ listed)
    rw [bytesOf_cons, List.length_append, List.length_cons]
    omega

/-- The reader reads all blocks and goes on behind them. -/
theorem drainFrom_blocks (whole : ∀ block ∈ blocks, Whole read block.1 block.2) (rest : List β)
    (fuel : ℕ) : drainFrom read (blocks.length + fuel) (bytesOf blocks ++ rest) =
      (drainFrom read fuel rest).map fun last => (blocks.map Prod.snd ++ last.1, last.2) := by
  induction blocks with
  | nil =>
    rw [List.length_nil, Nat.zero_add, bytesOf_nil, List.nil_append]
    cases drainFrom read fuel rest <;> rfl
  | cons block blocks ih =>
    have others := ih fun other listed => whole other (List.mem_cons_of_mem _ listed)
    rw [List.length_cons, Nat.add_right_comm, drainFrom, bytesOf_cons, List.append_assoc,
      (whole block List.mem_cons_self).reads]
    simp only [others]
    cases drainFrom read fuel rest <;> rfl

/-- Where the reader waits behind some blocks it has read these. -/
theorem drain_blocks (whole : ∀ block ∈ blocks, Whole read block.1 block.2) {part : List β}
    (waits : read part = .ok none) :
    drain read (bytesOf blocks ++ part) = .ok (blocks.map Prod.snd, part) := by
  have fuel := length_le_bytesOf whole
  obtain ⟨more, enough⟩ := Nat.exists_eq_add_of_le fuel
  rw [drain, List.length_append, enough, Nat.add_assoc, drainFrom_blocks whole,
    drainFrom_waits waits]
  simp [Except.map]

/-- Where the reader refuses what stands behind some blocks it refuses the whole. -/
theorem drain_refuses (whole : ∀ block ∈ blocks, Whole read block.1 block.2) {part : List β}
    (nonempty : part ≠ []) (refuses : ∃ reason, read part = .error reason) :
    ∃ reason, drain read (bytesOf blocks ++ part) = .error reason := by
  obtain ⟨reason, refused⟩ := refuses
  have fuel := length_le_bytesOf whole
  obtain ⟨more, enough⟩ := Nat.exists_eq_add_of_le fuel
  have positive := List.length_pos_of_ne_nil nonempty
  obtain ⟨left, some_⟩ : ∃ left, more + part.length = left + 1 :=
    ⟨more + part.length - 1, by omega⟩
  refine ⟨reason, ?_⟩
  rw [drain, List.length_append, enough, Nat.add_assoc, some_, drainFrom_blocks whole, drainFrom,
    refused]
  rfl

/-- A beginning of blocks one behind the other is some of them and a part of the next. -/
theorem split_blocks {data rest : List β} (nonempty : ∀ block ∈ blocks, block.1 ≠ [])
    (arrived : data ++ rest = bytesOf blocks) :
    ∃ done todo part, blocks = done ++ todo ∧ data = bytesOf done ++ part ∧
      part ++ rest = bytesOf todo ∧
      (part = [] ∨ ∃ block later, todo = block :: later ∧ part <+: block.1 ∧ part ≠ block.1) := by
  induction blocks generalizing data with
  | nil =>
    have empty := (List.append_eq_nil_iff.mp arrived)
    exact ⟨[], [], [], rfl, by simp [empty.1], by simp [empty.2], .inl rfl⟩
  | cons block blocks ih =>
    rw [bytesOf_cons] at arrived
    rcases List.append_eq_append_iff.mp arrived with ⟨more, inBlock, behind⟩ | ⟨more, inData, behind⟩
    · by_cases all : data = block.1
      · refine ⟨[block], blocks, [], rfl, by simp [all], ?_, .inl rfl⟩
        have none_ : more = [] := by
          rw [all] at inBlock
          exact List.self_eq_append_right.mp inBlock
        rw [List.nil_append, behind, none_, List.nil_append]
      · refine ⟨[], block :: blocks, data, rfl, rfl, by rw [bytesOf_cons, arrived], .inr ?_⟩
        exact ⟨block, blocks, rfl, ⟨more, inBlock.symm⟩, all⟩
    · obtain ⟨done, todo, part, split, same, left, open_⟩ :=
        ih (fun other listed => nonempty other (List.mem_cons_of_mem _ listed)) behind.symm
      exact ⟨block :: done, todo, part, by rw [split]; rfl,
        by rw [inData, same, bytesOf_cons, List.append_assoc], left, open_⟩

end Blocks

end Aipass.Framed
