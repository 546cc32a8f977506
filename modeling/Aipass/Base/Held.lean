import Aipass.Base.Text

/-!
# Looking for a text that arrives in pieces

What has arrived may end with the beginning of the text that is sought. That much is held back, and
the rest can be released: no occurrence starts in it. So looking in what is held and what arrives
next finds what looking in everything finds.
-/
namespace Aipass.Text

/-- The longest beginning of the sought text, of fewer characters than a number, that a text ends
with. -/
def heldFrom (sought text : List Char) : ℕ → ℕ
  | 0 => 0
  | size + 1 => if (sought.take size).isSuffixOf text then size else heldFrom sought text size

/-- How much of the sought text, short of all of it, a text ends with. -/
def held (sought text : List Char) : ℕ := heldFrom sought text sought.length

/-- What can be released of a text. -/
def released (sought text : List Char) : List Char := text.take (text.length - held sought text)

/-- What is held back of a text. -/
def heldBack (sought text : List Char) : List Char := text.drop (text.length - held sought text)

variable {sought text : List Char}

/-- A text is what is released and what is held back. -/
@[simp] theorem released_append_heldBack (sought text : List Char) :
    released sought text ++ heldBack sought text = text := List.take_append_drop _ _

/-- The text ends with what the search has found. -/
theorem heldFrom_suffix (size : ℕ) : sought.take (heldFrom sought text size) <:+ text := by
  induction size with
  | zero => simp [heldFrom]
  | succ size ih =>
    rw [heldFrom]
    split
    · next ends => exact List.isSuffixOf_iff_suffix.mp ends
    · exact ih

/-- Nothing longer was found. -/
theorem le_heldFrom {size short : ℕ} (less : short < size) (ends : sought.take short <:+ text) :
    short ≤ heldFrom sought text size := by
  induction size with
  | zero => omega
  | succ size ih =>
    rw [heldFrom]
    split
    · omega
    · next other =>
      have differ : short ≠ size := by
        rintro rfl
        exact other (List.isSuffixOf_iff_suffix.mpr ends)
      exact ih (by omega)

/-- What is found is shorter than asked for. -/
theorem heldFrom_le (size : ℕ) : heldFrom sought text size ≤ size - 1 := by
  induction size with
  | zero => simp [heldFrom]
  | succ size ih =>
    rw [heldFrom]
    split <;> omega

/-- What is held back is no longer than the text. -/
theorem held_le (sought text : List Char) : held sought text ≤ text.length := by
  have ends := (@heldFrom_suffix sought text sought.length).length_le
  have short := @heldFrom_le sought text sought.length
  rw [List.length_take] at ends
  rw [held]
  omega

/-- What is held back has the length that was found. -/
theorem length_heldBack (sought text : List Char) :
    (heldBack sought text).length = held sought text := by
  have fits := held_le sought text
  rw [heldBack, List.length_drop]
  omega

/-- A text whose removal as a lead leaves a rest is that lead and the rest. -/
theorem stripPrefix_eq_some {lead rest : List Char} :
    stripPrefix lead text = some rest ↔ text = lead ++ rest :=
  ⟨eq_of_stripPrefix, fun same => same ▸ stripPrefix_append lead rest⟩

/-- A text without an occurrence has no lead that is sought in any of its ends. -/
theorem not_prefix_of_splitOnce (none : splitOnce sought text = none) (start : ℕ) :
    ¬ sought <+: text.drop start := by
  induction text generalizing start with
  | nil =>
    rintro ⟨rest, here⟩
    have empty : sought = [] := by
      rw [List.drop_nil] at here
      exact (List.append_eq_nil_iff.mp here).1
    simp [splitOnce, empty] at none
  | cons char rest ih =>
    rw [splitOnce] at none
    split at none
    · cases none
    · next noLead =>
      cases start with
      | zero =>
        rintro ⟨after, here⟩
        rw [List.drop_zero] at here
        rw [stripPrefix_eq_some.mpr here.symm] at noLead
        cases noLead
      | succ start => exact ih (Option.map_eq_none_iff.mp none) start

/-- A text with its lead removed goes on as it did before more arrived. -/
theorem stripPrefix_more {lead rest : List Char} (left : stripPrefix lead text = some rest)
    (more : List Char) : stripPrefix lead (text ++ more) = some (rest ++ more) := by
  rw [eq_of_stripPrefix left, List.append_assoc, stripPrefix_append]

/-- A text that splits is what stands before the sought text, that text and what stands behind. -/
theorem eq_of_splitOnce_text {before after : List Char}
    (splits : splitOnce sought text = some (before, after)) : text = before ++ (sought ++ after) := by
  induction text generalizing before with
  | nil =>
    rw [splitOnce] at splits
    split at splits
    · next empty =>
      cases splits
      rw [empty]
      rfl
    · cases splits
  | cons char rest ih =>
    rw [splitOnce] at splits
    split at splits
    · next left =>
      cases splits
      rw [List.nil_append]
      exact eq_of_stripPrefix left
    · obtain ⟨parts, found, same⟩ := Option.map_eq_some_iff.mp splits
      cases same
      rw [ih found]
      rfl

/-- An occurrence that is found stays the first one when more arrives. -/
theorem splitOnce_more {before after : List Char}
    (splits : splitOnce sought text = some (before, after)) (more : List Char) :
    splitOnce sought (text ++ more) = some (before, after ++ more) := by
  induction text generalizing before with
  | nil =>
    rw [splitOnce] at splits
    split at splits
    · next empty =>
      cases splits
      rw [empty]
      cases more <;> rfl
    · cases splits
  | cons char rest ih =>
    rw [splitOnce] at splits
    rw [List.cons_append, splitOnce, ← List.cons_append]
    split at splits
    · next left =>
      cases splits
      rw [stripPrefix_more left]
    · next noLead =>
      obtain ⟨parts, found, same⟩ := Option.map_eq_some_iff.mp splits
      cases same
      have long : sought.length ≤ (char :: rest).length := by
        rw [eq_of_splitOnce_text found]
        simp
        omega
      have here : stripPrefix sought (char :: rest ++ more) = none := by
        cases leads : stripPrefix sought (char :: rest ++ more) with
        | none => rfl
        | some behind =>
          obtain ⟨left, inRest⟩ := List.prefix_of_prefix_length_le
            ⟨behind, (eq_of_stripPrefix leads).symm⟩ (List.prefix_append _ _) long
          rw [← inRest, stripPrefix_append] at noLead
          cases noLead
      rw [here]
      simp [ih found]

/-- Where no occurrence starts in a lead, the search goes on behind it. -/
theorem splitOnce_behind {lead rest : List Char}
    (absent : ∀ start < lead.length, ¬ sought <+: (lead ++ rest).drop start) :
    splitOnce sought (lead ++ rest) =
      (splitOnce sought rest).map fun parts => (lead ++ parts.1, parts.2) := by
  induction lead with
  | nil => simp
  | cons char lead ih =>
    have here : stripPrefix sought (char :: (lead ++ rest)) = none := by
      cases found : stripPrefix sought (char :: (lead ++ rest)) with
      | none => rfl
      | some after =>
        exact absurd ⟨after, (eq_of_stripPrefix found).symm⟩ (absent 0 (by simp))
    have later := ih fun start less => absent (start + 1) (by simpa using less)
    rw [List.cons_append, splitOnce, here]
    simp only [later, Option.map_map]
    rfl

/-- No occurrence starts in what is released, whatever arrives next. -/
theorem absent_in_released (none : splitOnce sought text = none) (more : List Char) {start : ℕ}
    (inside : start < (released sought text).length) : ¬ sought <+: (text ++ more).drop start := by
  intro occurs
  have before : start < text.length - held sought text := by
    rw [released, List.length_take] at inside
    omega
  rw [List.drop_append_of_le_length (by omega)] at occurs
  by_cases fits : sought.length ≤ (text.drop start).length
  · exact not_prefix_of_splitOnce none start
      (List.prefix_of_prefix_length_le occurs (List.prefix_append _ _) fits)
  · have ends : text.drop start = sought.take (text.drop start).length :=
      List.prefix_iff_eq_take.mp
        (List.prefix_of_prefix_length_le (List.prefix_append _ _) occurs (by omega))
    have atMost : (text.drop start).length ≤ held sought text :=
      le_heldFrom (by omega) (ends ▸ List.drop_suffix start text)
    rw [List.length_drop] at atMost
    omega

/-- Looking in what is held back and what arrives next finds what looking in everything finds. -/
theorem splitOnce_held (none : splitOnce sought text = none) (more : List Char) :
    splitOnce sought (text ++ more) =
      (splitOnce sought (heldBack sought text ++ more)).map fun parts =>
        (released sought text ++ parts.1, parts.2) := by
  have whole : text ++ more = released sought text ++ (heldBack sought text ++ more) := by
    rw [← List.append_assoc, released_append_heldBack]
  rw [whole]
  refine splitOnce_behind fun start inside => ?_
  rw [← whole]
  exact absent_in_released none more inside

/-- What is found is held back. -/
theorem held_suffix (sought text : List Char) : sought.take (held sought text) <:+ text :=
  heldFrom_suffix sought.length

/-- What is held back is the beginning of the sought text that was found. -/
theorem heldBack_eq (sought text : List Char) :
    heldBack sought text = sought.take (held sought text) := by
  have short := @heldFrom_le sought text sought.length
  have whole : (sought.take (held sought text)).length = held sought text := by
    rw [List.length_take, held]
    omega
  have ends := List.suffix_iff_eq_drop.mp (held_suffix sought text)
  rw [heldBack, ends, whole]

/-- A text found at the end of everything that has arrived reaches back into what was held at
most. -/
theorem held_append_le (sought text more : List Char) :
    held sought (text ++ more) ≤ (heldBack sought text ++ more).length := by
  obtain ⟨before, whole⟩ := held_suffix sought (text ++ more)
  have short := @heldFrom_le sought (text ++ more) sought.length
  have found : (sought.take (held sought (text ++ more))).length = held sought (text ++ more) := by
    rw [List.length_take, held]
    omega
  rw [List.length_append, length_heldBack]
  rcases List.append_eq_append_iff.mp whole with ⟨part, inText, reaches⟩ | ⟨part, _, behind⟩
  · have total := congrArg List.length reaches
    rw [List.length_append, found] at total
    have isStart : part = sought.take part.length := by
      have start := congrArg (List.take part.length) reaches
      rw [List.take_take, Nat.min_eq_left (by omega), List.take_left] at start
      exact start.symm
    by_cases nothing : part.length = 0
    · omega
    · have known : part.length ≤ held sought text :=
        le_heldFrom (by rw [held] at total; omega) (isStart ▸ ⟨before, inText.symm⟩)
      omega
  · have shorter := congrArg List.length behind
    rw [List.length_append, found] at shorter
    omega

/-- What is held back of everything is held back of what was held and what arrives next. -/
theorem held_append (sought text more : List Char) :
    held sought (text ++ more) = held sought (heldBack sought text ++ more) := by
  have isEnd : heldBack sought text ++ more <:+ text ++ more :=
    ⟨released sought text, by rw [← List.append_assoc, released_append_heldBack]⟩
  rcases Nat.eq_zero_or_pos sought.length with empty | positive
  · rw [List.eq_nil_of_length_eq_zero empty]
    rfl
  · apply Nat.le_antisymm
    · have bound := @heldFrom_le sought (text ++ more) sought.length
      apply le_heldFrom (by rw [held]; omega)
      apply List.suffix_of_suffix_length_le (held_suffix sought (text ++ more)) isEnd
      have reach := held_append_le sought text more
      rw [List.length_take]
      omega
    · have bound := @heldFrom_le sought (heldBack sought text ++ more) sought.length
      apply le_heldFrom (by rw [held]; omega)
      exact (held_suffix sought (heldBack sought text ++ more)).trans isEnd

/-- What is held back of what was held and what arrives next is held back of everything. -/
theorem heldBack_append (sought text more : List Char) :
    heldBack sought (text ++ more) = heldBack sought (heldBack sought text ++ more) := by
  rw [heldBack_eq, heldBack_eq, held_append]

/-- What is released of everything was released before, or is released of what was held and what
arrives next. -/
theorem released_append (sought text more : List Char) :
    released sought (text ++ more) =
      released sought text ++ released sought (heldBack sought text ++ more) := by
  refine @List.append_cancel_right _ _ (heldBack sought (text ++ more)) _ ?_
  rw [released_append_heldBack, heldBack_append, List.append_assoc, released_append_heldBack,
    ← List.append_assoc, released_append_heldBack]

end Aipass.Text
