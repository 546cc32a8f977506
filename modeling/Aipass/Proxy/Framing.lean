import Aipass.Proxy.Sse

/-!
# Where events end

A stream is made of lines. An event ends with the first empty line after its first line, however
the bytes are cut into chunks, so a stream of events each followed by more bytes is split into
those events.
-/
namespace Aipass.Proxy

/-- The boundary of no bytes. -/
@[simp] theorem boundary_nil : sseEventBoundaryEnd [] = none := rfl

/-- The boundary, by the first byte. -/
theorem boundary_cons (byte : UInt8) (rest : Bytes) :
    sseEventBoundaryEnd (byte :: rest) =
      if [0x0A, 0x0A].isPrefixOf (byte :: rest) then some 2
      else if [0x0A, 0x0D, 0x0A].isPrefixOf (byte :: rest) then some 3
      else (sseEventBoundaryEnd rest).map (· + 1) := by
  by_cases feeds : [0x0A, 0x0A].isPrefixOf (byte :: rest) = true
  · have noReturn : ¬ [0x0A, 0x0D, 0x0A].isPrefixOf (byte :: rest) = true := by
      rw [List.isPrefixOf_iff_prefix] at feeds ⊢
      rintro ⟨more, whole⟩
      rw [← whole] at feeds
      simp at feeds
    simp only [sseEventBoundaryEnd, position, if_pos feeds, if_neg noReturn]
    cases position [0x0A, 0x0D, 0x0A] rest <;> simp
  · by_cases returns : [0x0A, 0x0D, 0x0A].isPrefixOf (byte :: rest) = true
    · obtain ⟨more, whole⟩ := List.isPrefixOf_iff_prefix.mp returns
      simp only [List.cons_append, List.nil_append, List.cons.injEq] at whole
      obtain ⟨-, rfl⟩ := whole
      -- the next byte starts no pair of line feeds, so such a pair ends later
      have later : position [0x0A, 0x0A] (0x0D :: 0x0A :: more) =
          (position [0x0A, 0x0A] (0x0A :: more)).map (· + 1) := by
        simp [position, List.isPrefixOf]
      simp only [sseEventBoundaryEnd, position.eq_2 _ byte, if_neg feeds, if_pos returns, later]
      cases position [0x0A, 0x0A] (0x0A :: more) <;> simp
    · simp only [sseEventBoundaryEnd, position.eq_2 _ byte, if_neg feeds, if_neg returns]
      cases position [0x0A, 0x0A] rest <;> cases position [0x0A, 0x0D, 0x0A] rest <;> simp

/-- A boundary lies inside the bytes. -/
theorem boundary_le {bytes : Bytes} {stop : ℕ} (found : sseEventBoundaryEnd bytes = some stop) :
    stop ≤ bytes.length := by
  induction bytes generalizing stop with
  | nil => cases found
  | cons byte rest ih =>
    rw [boundary_cons] at found
    split at found
    · rename_i starts
      cases found
      exact (List.isPrefixOf_iff_prefix.mp starts).length_le
    · split at found
      · rename_i starts
        cases found
        exact (List.isPrefixOf_iff_prefix.mp starts).length_le
      · obtain ⟨before, foundRest, rfl⟩ := Option.map_eq_some_iff.mp found
        simpa using ih foundRest

/-- A boundary takes two bytes. -/
theorem two_le_boundary {bytes : Bytes} {stop : ℕ}
    (found : sseEventBoundaryEnd bytes = some stop) : 2 ≤ stop := by
  induction bytes generalizing stop with
  | nil => cases found
  | cons byte rest ih =>
    rw [boundary_cons] at found
    split at found
    · cases found
      exact Nat.le_refl _
    · split at found
      · cases found
        omega
      · obtain ⟨before, foundRest, rfl⟩ := Option.map_eq_some_iff.mp found
        exact Nat.le_succ_of_le (ih foundRest)

/-- More bytes do not move a boundary. -/
theorem boundary_append {bytes : Bytes} {stop : ℕ}
    (found : sseEventBoundaryEnd bytes = some stop) (more : Bytes) :
    sseEventBoundaryEnd (bytes ++ more) = some stop := by
  have reaches : ∀ {pattern bytes : Bytes}, pattern.length ≤ bytes.length →
      pattern.isPrefixOf (bytes ++ more) = pattern.isPrefixOf bytes := by
    intro pattern bytes short
    rw [Bool.eq_iff_iff, List.isPrefixOf_iff_prefix, List.isPrefixOf_iff_prefix]
    exact ⟨fun starts => List.prefix_of_prefix_length_le starts (List.prefix_append _ _) short,
      fun starts => starts.trans (List.prefix_append _ _)⟩
  induction bytes generalizing stop with
  | nil => cases found
  | cons byte rest ih =>
    rw [boundary_cons] at found
    rw [List.cons_append, boundary_cons, ← List.cons_append]
    by_cases feeds : [0x0A, 0x0A].isPrefixOf (byte :: rest) = true
    · have short := (List.isPrefixOf_iff_prefix.mp feeds).length_le
      rw [if_pos feeds] at found
      rw [if_pos (by rw [reaches short, feeds]), found]
    · rw [if_neg feeds] at found
      by_cases returns : [0x0A, 0x0D, 0x0A].isPrefixOf (byte :: rest) = true
      · have long := (List.isPrefixOf_iff_prefix.mp returns).length_le
        have short : [0x0A, 0x0A].length ≤ (byte :: rest).length := Nat.le_of_succ_le long
        rw [if_pos returns] at found
        rw [if_neg (by rw [reaches short]; exact feeds), if_pos (by rw [reaches long, returns]),
          found]
      · rw [if_neg returns] at found
        obtain ⟨before, foundRest, rfl⟩ := Option.map_eq_some_iff.mp found
        have two := two_le_boundary foundRest
        have inside := boundary_le foundRest
        have long : [0x0A, 0x0D, 0x0A].length ≤ (byte :: rest).length := by
          simp only [List.length_cons, List.length_nil]
          omega
        have short : [0x0A, 0x0A].length ≤ (byte :: rest).length := Nat.le_of_succ_le long
        rw [if_neg (by rw [reaches short]; exact feeds),
          if_neg (by rw [reaches long]; exact returns), ih foundRest]
        rfl

/-- The complete events of a buffer, and what is left of it. -/
def splitEvents (buffer : Bytes) : List Bytes × Bytes :=
  match _found : sseEventBoundaryEnd buffer with
  | none => ([], buffer)
  | some stop =>
    let (events, leftover) := splitEvents (buffer.drop stop)
    (buffer.take stop :: events, leftover)
termination_by buffer.length
decreasing_by
  have positive := boundary_pos _found
  simp only [List.length_drop]
  omega

/-- A buffer without a boundary holds no event. -/
theorem splitEvents_none {buffer : Bytes} (incomplete : sseEventBoundaryEnd buffer = none) :
    splitEvents buffer = ([], buffer) := by
  rw [splitEvents]
  split
  · rfl
  · rename_i found
    rw [incomplete] at found
    cases found

/-- The first event of a buffer. -/
theorem splitEvents_some {buffer : Bytes} {stop : ℕ}
    (found : sseEventBoundaryEnd buffer = some stop) :
    splitEvents buffer = (buffer.take stop :: (splitEvents (buffer.drop stop)).1,
      (splitEvents (buffer.drop stop)).2) := by
  rw [splitEvents]
  split
  · rename_i incomplete
    rw [found] at incomplete
    cases incomplete
  · rename_i other known
    rw [found] at known
    cases known
    rfl

/-- A complete event in front is the first one. -/
theorem splitEvents_append {event : Bytes}
    (complete : sseEventBoundaryEnd event = some event.length) (rest : Bytes) :
    splitEvents (event ++ rest) = (event :: (splitEvents rest).1, (splitEvents rest).2) := by
  rw [splitEvents_some (boundary_append complete rest)]
  simp

/-- Splitting goes on where it has stopped. -/
theorem splitEvents_more (buffer more : Bytes) :
    splitEvents (buffer ++ more) =
      ((splitEvents buffer).1 ++ (splitEvents ((splitEvents buffer).2 ++ more)).1,
        (splitEvents ((splitEvents buffer).2 ++ more)).2) := by
  cases found : sseEventBoundaryEnd buffer with
  | none => simp [splitEvents_none found]
  | some stop =>
    have inside := boundary_le found
    have positive := boundary_pos found
    rw [splitEvents_some (boundary_append found more), splitEvents_some found,
      List.take_append_of_le_length inside, List.drop_append_of_le_length inside,
      splitEvents_more (buffer.drop stop) more]
    rfl
termination_by buffer.length
decreasing_by
  simp only [List.length_drop]
  omega

/-- A line of a stream, without its line feed. -/
structure Line where
  /-- The bytes before the line feed. -/
  content : Bytes
  /-- There is one line feed. -/
  noFeed : 0x0A ∉ content

/-- The bytes of a line. -/
def Line.bytes (line : Line) : Bytes := line.content ++ [0x0A]

/-- An empty line, with or without a carriage return. -/
def Line.Blank (line : Line) : Prop := line.content = [] ∨ line.content = [0x0D]

instance (line : Line) : Decidable line.Blank := by
  unfold Line.Blank
  infer_instance

/-- The bytes of lines. -/
def bytesOf (lines : List Line) : Bytes := lines.flatMap Line.bytes

@[simp] theorem bytesOf_nil : bytesOf [] = [] := rfl

@[simp] theorem bytesOf_cons (line : Line) (lines : List Line) :
    bytesOf (line :: lines) = line.bytes ++ bytesOf lines := rfl

@[simp] theorem bytesOf_append (lines more : List Line) :
    bytesOf (lines ++ more) = bytesOf lines ++ bytesOf more := by
  simp [bytesOf]

/-- No boundary lies before the line feed of the first line. -/
theorem boundary_content {content : Bytes} (noFeed : 0x0A ∉ content) (rest : Bytes) :
    sseEventBoundaryEnd (content ++ 0x0A :: rest) =
      (sseEventBoundaryEnd (0x0A :: rest)).map (· + content.length) := by
  induction content with
  | nil =>
    rw [List.nil_append]
    cases sseEventBoundaryEnd (0x0A :: rest) <;> rfl
  | cons byte content ih =>
    simp only [List.mem_cons, not_or] at noFeed
    have other : ¬ (0x0A : UInt8) = byte := noFeed.1
    rw [List.cons_append, boundary_cons]
    simp only [List.isPrefixOf, beq_eq_false_iff_ne.mpr other, ih noFeed.2, Bool.false_and,
      Bool.false_eq_true, if_false, List.length_cons]
    cases sseEventBoundaryEnd (0x0A :: rest) <;> rfl

/-- A line that is not empty moves the boundary by its length. -/
theorem boundary_solid {line : Line} (solid : ¬ line.Blank) (rest : Bytes) :
    sseEventBoundaryEnd (0x0A :: (line.bytes ++ rest)) =
      (sseEventBoundaryEnd (0x0A :: rest)).map (· + line.bytes.length) := by
  obtain ⟨content, noFeed⟩ := line
  simp only [Line.Blank, not_or] at solid
  obtain ⟨nonempty, noReturn⟩ := solid
  have noBoundary : ¬ [0x0A, 0x0A].isPrefixOf (0x0A :: (content ++ 0x0A :: rest)) = true ∧
      ¬ [0x0A, 0x0D, 0x0A].isPrefixOf (0x0A :: (content ++ 0x0A :: rest)) = true := by
    cases content with
    | nil => exact absurd rfl nonempty
    | cons byte content =>
      simp only [List.mem_cons, not_or] at noFeed
      refine ⟨by simp [List.isPrefixOf, noFeed.1], ?_⟩
      cases content with
      | nil =>
        have other : ¬ (0x0D : UInt8) = byte := fun same => noReturn (by rw [same])
        simp [List.isPrefixOf, other]
      | cons next content =>
        have other : ¬ (0x0A : UInt8) = next := fun same => noFeed.2 (by simp [same])
        simp [List.isPrefixOf, other]
  simp only [Line.bytes, List.append_assoc, List.cons_append, List.nil_append]
  rw [boundary_cons, if_neg noBoundary.1, if_neg noBoundary.2, boundary_content noFeed]
  cases sseEventBoundaryEnd (0x0A :: rest) with
  | none => rfl
  | some stop =>
    simp
    omega

/-- An empty line is the boundary. -/
theorem boundary_blank {line : Line} (blank : line.Blank) (rest : Bytes) :
    sseEventBoundaryEnd (0x0A :: (line.bytes ++ rest)) = some (1 + line.bytes.length) := by
  rcases blank with empty | returns
  · simp [Line.bytes, empty, boundary_cons, List.isPrefixOf]
  · simp [Line.bytes, returns, boundary_cons, List.isPrefixOf]

/-- An event ends with the first empty line after its first line. -/
theorem boundary_event (first : Line) {middle : List Line}
    (solid : ∀ line ∈ middle, ¬ line.Blank) {last : Line} (blank : last.Blank) :
    sseEventBoundaryEnd (first.bytes ++ bytesOf middle ++ last.bytes) =
      some (first.bytes ++ bytesOf middle ++ last.bytes).length := by
  have afterFeed : sseEventBoundaryEnd (0x0A :: (bytesOf middle ++ last.bytes)) =
      some (1 + (bytesOf middle ++ last.bytes).length) := by
    induction middle with
    | nil => simpa using boundary_blank blank []
    | cons line middle ih =>
      rw [bytesOf_cons, List.append_assoc, boundary_solid (solid line (List.mem_cons_self ..)),
        ih fun other inside => solid other (List.mem_cons_of_mem _ inside)]
      simp
      omega
  have whole : first.bytes ++ bytesOf middle ++ last.bytes =
      first.content ++ 0x0A :: (bytesOf middle ++ last.bytes) := by
    simp [Line.bytes]
  rw [whole, boundary_content first.noFeed, afterFeed]
  simp
  omega

end Aipass.Proxy
