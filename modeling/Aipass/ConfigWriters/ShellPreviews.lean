import Aipass.ConfigWriters.Redaction

/-!
# What a preview of a shell script tells about a value

The script that sets one variable spreads a value with line feeds over several lines, and the
preview hides the line of the assignment alone. The previews of two values are therefore the same
exactly when their later lines are shown alike. Documents are redacted as trees: two that differ
below hidden keys only have one preview.
-/
namespace Aipass.ConfigWriters

open Text

variable (readers : Readers)

/-- The lines of a quoted value after its first. -/
def laterLines (windows : Bool) (value : List Char) : List (List Char) :=
  (lines (quote windows value ++ lineEnd windows)).tail

/-- Two lines are shown alike: they are the same or assign to one sensitive name. -/
def ShownAlike (left right : List Char) : Prop :=
  left = right ∨ ∃ key value other, left = key ++ '=' :: value ∧ right = key ++ '=' :: other ∧
    '=' ∉ key ∧ sensitive (assignedName key) = true

/-- A text is accepted as no document. -/
def Unparsed (content : List Char) : Prop :=
  readers.json5 content = none ∧ readers.toml content = none ∧
    (readers.yaml content).filter isContainer = none

/-- What an assignment to a sensitive name shows. -/
theorem redactLine_assignment {key : List Char} (absent : '=' ∉ key)
    (accepted : sensitive (assignedName key) = true) (value : List Char) :
    redactLine (key ++ '=' :: value) = key ++ "= '[redacted]'".toList := by
  rw [redactLine, splitOnce_append absent]
  simp only [accepted, if_true]

/-- A line is an assignment to a sensitive name or shown as it is. -/
theorem redactLine_cases (line : List Char) :
    (∃ key value, line = key ++ '=' :: value ∧ '=' ∉ key ∧
      sensitive (assignedName key) = true) ∨ redactLine line = line := by
  rw [redactLine]
  cases splits : splitOnce ['='] line with
  | none => exact .inr rfl
  | some parts =>
    obtain ⟨key, value⟩ := parts
    obtain ⟨split, absent⟩ := eq_of_splitOnce splits
    cases accepted : sensitive (assignedName key) with
    | true => exact .inl ⟨key, value, split, absent, accepted⟩
    | false => exact .inr (by simp [accepted])

/-- Two lines have one preview exactly when they are shown alike. -/
theorem redactLine_eq_iff {left right : List Char} :
    redactLine left = redactLine right ↔ ShownAlike left right := by
  constructor
  · intro same
    obtain ⟨key, value, rfl, absent, accepted⟩ | plain := redactLine_cases left
    · rw [redactLine_assignment absent accepted] at same
      obtain ⟨other, after, rfl, absentOther, acceptedOther⟩ | plain := redactLine_cases right
      · rw [redactLine_assignment absentOther acceptedOther] at same
        obtain rfl := List.append_cancel_right same
        exact .inr ⟨key, value, after, rfl, rfl, absent, accepted⟩
      · rw [plain] at same
        exact .inr ⟨key, value, " '[redacted]'".toList, rfl, same.symm, absent, accepted⟩
    · rw [plain] at same
      obtain ⟨other, after, rfl, absentOther, acceptedOther⟩ | plainRight :=
        redactLine_cases right
      · rw [redactLine_assignment absentOther acceptedOther] at same
        exact .inr ⟨other, " '[redacted]'".toList, after, same, rfl, absentOther, acceptedOther⟩
      · rw [plainRight] at same
        exact .inl same
  · rintro (rfl | ⟨key, value, other, rfl, rfl, absent, accepted⟩)
    · rfl
    · rw [redactLine_assignment absent accepted, redactLine_assignment absent accepted]

/-- Lines have one preview exactly when they are shown alike one by one. -/
theorem map_redactLine_eq_iff {left right : List (List Char)} :
    left.map redactLine = right.map redactLine ↔ List.Forall₂ ShownAlike left right := by
  have alike : ShownAlike = fun first second => redactLine first = redactLine second := by
    funext first second
    exact propext redactLine_eq_iff.symm
  rw [← List.forall₂_eq_eq_eq, List.forall₂_map_left_iff, List.forall₂_map_right_iff, alike]

/-- A preview of a line is one line. -/
theorem notMem_redactLine {line : List Char} (noFeed : '\n' ∉ line) : '\n' ∉ redactLine line := by
  obtain ⟨key, value, rfl, absent, accepted⟩ | plain := redactLine_cases line
  · rw [redactLine_assignment absent accepted]
    intro held
    rcases List.mem_append.mp held with inKey | inRest
    · exact noFeed (List.mem_append_left _ inKey)
    · exact absurd inRest (by decide)
  · rwa [plain]

section Names

variable {name : List Char}

/-- Letters, digits and underscores have codes between those of zero and z. -/
theorem code_of_name {char : Char} (plain : (char.isAlphanum || decide (char = '_')) = true) :
    48 ≤ char.toNat ∧ char.toNat ≤ 122 ∧ char.toNat ≠ 61 := by
  by_cases score : char = '_'
  · subst score
    decide
  · simp only [score, decide_false, Bool.or_false] at plain
    change ((decide (char.val ≥ 'A'.val ∧ char.val ≤ 'Z'.val) ||
        (decide (char.val ≥ 'a'.val) && decide (char.val ≤ 'z'.val))) ||
          (decide (char.val ≥ '0'.val) && decide (char.val ≤ '9'.val))) = true at plain
    simp [UInt32.le_iff_toNat_le] at plain
    omega

/-- A name holds no white space. -/
theorem solid_of_isName (named : isName name = true) {char : Char} (held : char ∈ name) :
    isWhitespace char = false := by
  have code := code_of_name (List.all_eq_true.mp named char held)
  simp [isWhitespace]
  omega

/-- A name holds no character outside the codes of names. -/
theorem notMem_of_isName (named : isName name = true) {char : Char}
    (outside : ¬(48 ≤ char.toNat ∧ char.toNat ≤ 122 ∧ char.toNat ≠ 61)) : char ∉ name := fun held =>
  outside (code_of_name (List.all_eq_true.mp named char held))

/-- A sensitive name is not empty. -/
theorem ends_of_sensitive (accepted : sensitive name = true) :
    ∃ first last, name.head? = some first ∧ name.getLast? = some last := by
  cases name with
  | nil => exact absurd accepted (by decide)
  | cons char rest => exact ⟨char, _, rfl, List.getLast?_eq_some_getLast (List.cons_ne_nil _ _)⟩

/-- The left side of an assignment. -/
def assigned (windows : Bool) (name : List Char) : List Char :=
  if windows then "$env:".toList ++ name ++ [' '] else "export ".toList ++ name

/-- The left side of an assignment names its variable. -/
theorem assignedName_assigned (windows : Bool) (named : isName name = true)
    (accepted : sensitive name = true) : assignedName (assigned windows name) = name := by
  obtain ⟨first, last, starts, ends⟩ := ends_of_sensitive accepted
  have solidFirst := solid_of_isName named (List.mem_of_mem_head? starts)
  have solidLast := solid_of_isName named (List.mem_of_getLast? ends)
  have bare : trimStartMatches "$env:".toList name = name := trimStartMatches_of_none
    (stripPrefix_eq_none '$' (by decide) (notMem_of_isName named (by decide)))
  have trimmed : trim name = name := trim_of_ends starts ends solidFirst solidLast
  cases windows with
  | false =>
    have whole : trim ("export ".toList ++ name) = "export ".toList ++ name :=
      trim_of_ends rfl (by rw [List.getLast?_append, ends]; rfl) (by decide) solidLast
    have stripped : trimStartMatches "export ".toList ("export ".toList ++ name) = name :=
      trimStartMatches_append (by decide)
        (stripPrefix_eq_none ' ' (by decide) (notMem_of_isName named (by decide)))
    simp only [assigned, assignedName, Bool.false_eq_true, if_false, whole, stripped, bare, trimmed]
  | true =>
    have whole : trim ("$env:".toList ++ name ++ [' ']) = "$env:".toList ++ name :=
      trim_append_blank rfl (by rw [List.getLast?_append, ends]; rfl) (by decide) solidLast
    have kept : trimStartMatches "export ".toList ("$env:".toList ++ name) =
        "$env:".toList ++ name := trimStartMatches_of_none rfl
    have stripped : trimStartMatches "$env:".toList ("$env:".toList ++ name) = name :=
      trimStartMatches_append (by decide)
        (stripPrefix_eq_none '$' (by decide) (notMem_of_isName named (by decide)))
    simp only [assigned, assignedName, if_true, whole, kept, stripped, trimmed]

end Names

section Script

variable {windows : Bool} {name : List Char}

/-- The text of an assignment up to the value has its left side before the first sign. -/
theorem assigning_eq (windows : Bool) (name : List Char) : ∃ gap, '\n' ∉ gap ∧
    assigning windows name = assigned windows name ++ '=' :: gap := by
  cases windows with
  | false => exact ⟨[], by decide, by simp [assigning, assigned]⟩
  | true => exact ⟨[' '], by decide, by simp [assigning, assigned]⟩

/-- The left side of an assignment holds no sign and no line feed. -/
theorem notMem_assigned (windows : Bool) (named : isName name = true) :
    '=' ∉ assigned windows name ∧ '\n' ∉ assigned windows name := by
  have sign : '=' ∉ name := notMem_of_isName named (by decide)
  have feed : '\n' ∉ name := notMem_of_isName named (by decide)
  cases windows with
  | false => simp [assigned, sign, feed]
  | true => simp [assigned, sign, feed]

/-- An assignment exports a variable. -/
theorem exports_assigned (windows : Bool) (name rest : List Char) :
    exports (assigned windows name ++ rest) = true := by
  cases windows with
  | false => rfl
  | true => rfl

/-- The lines of a script: the banner, the assignment and the later lines of the value. -/
theorem lines_shellEnv (named : isName name = true) (value : List Char) :
    ∃ shown, lines (shellEnv windows name value) = banner windows ::
      (assigned windows name ++ '=' :: shown) :: laterLines windows value := by
  obtain ⟨gap, noFeedGap, split⟩ := assigning_eq windows name
  have noFeed : '\n' ∉ assigning windows name := by
    rw [split]
    simp [noFeedGap, (notMem_assigned windows named).2]
  obtain ⟨first, _, whole⟩ := lines_lead noFeed '\'' (by decide)
    (replaceChar '\'' (if windows then "''" else "'\\''").toList value ++ ['\''] ++
      lineEnd windows)
  refine ⟨gap ++ first, ?_⟩
  have bannerLine : dropLast '\r' (banner windows) = banner windows := by
    cases windows <;> decide
  rw [shellEnv, lines_append _ _ (by cases windows <;> decide), bannerLine]
  congr 1
  rw [envLiteral, quote, List.append_assoc]
  refine whole.trans ?_
  rw [split]
  simp [laterLines, quote]

/-- A quoted value holds a line feed only if the value does. -/
theorem notMem_quote (windows : Bool) {value : List Char} (noFeed : '\n' ∉ value) :
    '\n' ∉ quote windows value := by
  have clean : '\n' ∉ replaceChar '\'' (if windows then "''" else "'\\''").toList value := by
    intro held
    obtain ⟨char, listed, inside⟩ := List.mem_flatMap.mp held
    split at inside
    · cases windows <;> exact absurd inside (by decide)
    · rw [List.mem_singleton] at inside
      exact noFeed (inside ▸ listed)
  rw [quote]
  simp [clean]

/-- A value without a line feed has no later lines. -/
theorem laterLines_of_notMem (windows : Bool) {value : List Char} (noFeed : '\n' ∉ value) :
    laterLines windows value = [] := by
  have clean := notMem_quote windows noFeed
  cases windows with
  | false =>
    have one : lines (quote false value ++ '\n' :: []) = _ := lines_append _ [] clean
    rw [laterLines, lineEnd]
    exact congrArg List.tail one
  | true =>
    have one : lines ((quote true value ++ ['\r']) ++ '\n' :: []) = _ :=
      lines_append _ [] (by simp [clean])
    rw [List.append_assoc] at one
    rw [laterLines, lineEnd]
    exact congrArg List.tail one

/-- Two values without line feeds have no later lines to tell them apart. -/
theorem shownAlike_of_notMem (windows : Bool) {value other : List Char} (noFeed : '\n' ∉ value)
    (noFeedOther : '\n' ∉ other) :
    List.Forall₂ ShownAlike (laterLines windows value) (laterLines windows other) := by
  rw [laterLines_of_notMem windows noFeed, laterLines_of_notMem windows noFeedOther]
  exact .nil

/-- The lines of a preview. -/
def previewLines (windows : Bool) (name value : List Char) : List (List Char) :=
  banner windows :: (assigned windows name ++ "= '[redacted]'".toList) ::
    (laterLines windows value).map redactLine

/-- The preview of a script hides the assignment and redacts the later lines one by one. -/
theorem redactScript_shellEnv (named : isName name = true) (accepted : sensitive name = true)
    (value : List Char) :
    redactScript readers (shellEnv windows name value) =
      ['\n'].intercalate (previewLines windows name value) := by
  obtain ⟨shown, split⟩ := @lines_shellEnv windows name named value
  have exporting : (lines (shellEnv windows name value)).any exports = true := by
    simp [split, exports_assigned]
  have bannerShown : redactLine (banner windows) = banner windows := by
    cases windows <;> decide
  have name_ : sensitive (assignedName (assigned windows name)) = true := by
    rw [assignedName_assigned windows named accepted]
    exact accepted
  rw [redactScript, if_pos exporting, split, List.map_cons, List.map_cons, bannerShown,
    redactLine_assignment (notMem_assigned windows named).1 name_, previewLines]

/-- The lines of a preview hold no line feed. -/
theorem notMem_previewLines (named : isName name = true) (value : List Char) :
    ∀ line ∈ previewLines windows name value, '\n' ∉ line := by
  intro line listed
  rcases List.mem_cons.mp listed with rfl | listed
  · cases windows <;> decide
  rcases List.mem_cons.mp listed with rfl | listed
  · intro held
    rcases List.mem_append.mp held with inKey | inRest
    · exact (notMem_assigned windows named).2 inKey
    · exact absurd inRest (by decide)
  · obtain ⟨source, later, rfl⟩ := List.mem_map.mp listed
    exact notMem_redactLine
      (notMem_linesFrom List.not_mem_nil _ source (List.mem_of_mem_tail later))

/-- The previews of two values are the same exactly when their later lines are shown alike. -/
theorem redactScript_eq_iff (named : isName name = true) (accepted : sensitive name = true)
    (value other : List Char) :
    redactScript readers (shellEnv windows name value) =
        redactScript readers (shellEnv windows name other) ↔
      List.Forall₂ ShownAlike (laterLines windows value) (laterLines windows other) := by
  rw [redactScript_shellEnv readers named accepted, redactScript_shellEnv readers named accepted]
  constructor
  · intro same
    have left := List.splitOn_intercalate '\n' (@notMem_previewLines windows name named value)
      (List.cons_ne_nil _ _)
    have right := List.splitOn_intercalate '\n' (@notMem_previewLines windows name named other)
      (List.cons_ne_nil _ _)
    rw [same, right] at left
    have later := (List.cons.inj (List.cons.inj left).2).2
    exact map_redactLine_eq_iff.mp later.symm
  · intro alike
    rw [previewLines, previewLines, map_redactLine_eq_iff.mpr alike]

end Script

mutual

/-- Two documents differ in the values below hidden keys at most. -/
inductive Masked : Value → Value → Prop
  | same (value : Value) : Masked value value
  | array {items others : List Value} (alike : MaskedItems items others) :
    Masked (.array items) (.array others)
  | object {fields others : List (String × Value)} (alike : MaskedFields fields others) :
    Masked (.object fields) (.object others)

/-- Two lists of items differ in the values below hidden keys at most. -/
inductive MaskedItems : List Value → List Value → Prop
  | nil : MaskedItems [] []
  | cons {item other : Value} {rest others : List Value} (first : Masked item other)
    (later : MaskedItems rest others) : MaskedItems (item :: rest) (other :: others)

/-- Two lists of fields have the same keys and differ in hidden values and below hidden keys at
most. -/
inductive MaskedFields : List (String × Value) → List (String × Value) → Prop
  | nil : MaskedFields [] []
  | hide {key : String} {value other : Value} {rest others : List (String × Value)}
    (hides : hidden readers key value = true) (hidesOther : hidden readers key other = true)
    (later : MaskedFields rest others) : MaskedFields ((key, value) :: rest) ((key, other) :: others)
  | keep {key : String} {value other : Value} {rest others : List (String × Value)}
    (sameShown : hidden readers key value = hidden readers key other)
    (first : Masked value other) (later : MaskedFields rest others) :
    MaskedFields ((key, value) :: rest) ((key, other) :: others)

end

mutual

/-- Documents that differ below hidden keys only are redacted to one document. -/
theorem redactJson_masked {value other : Value} (masked : Masked readers value other) :
    redactJson readers value = redactJson readers other :=
  match masked with
  | .same _ => rfl
  | .array alike => by rw [redactJson, redactJson, redactItems_masked alike]
  | .object alike => by rw [redactJson, redactJson, redactFields_masked alike]

/-- Items that differ below hidden keys only are redacted to the same items. -/
theorem redactItems_masked {items others : List Value} (masked : MaskedItems readers items others) :
    redactItems readers items = redactItems readers others :=
  match masked with
  | .nil => rfl
  | .cons first later => by
    rw [redactItems, redactItems, redactJson_masked first, redactItems_masked later]

/-- Fields that differ in hidden values only are redacted to the same fields. -/
theorem redactFields_masked {fields others : List (String × Value)}
    (masked : MaskedFields readers fields others) :
    redactFields readers fields = redactFields readers others :=
  match masked with
  | .nil => rfl
  | .hide hides hidesOther later => by
    rw [redactFields, redactFields, hides, hidesOther, redactFields_masked later]
    rfl
  | .keep sameShown first later => by
    rw [redactFields, redactFields, sameShown, redactJson_masked first, redactFields_masked later]

end

/-- A text that is no document is redacted as a script. -/
theorem redactConfig_unparsed {content : List Char} (unparsed : Unparsed readers content) :
    redactConfig readers content = redactScript readers content := by
  rw [redactConfig, unparsed.1, unparsed.2.1, unparsed.2.2]

/-- The previews of a variable with two values are the same exactly when the later lines of the
values are shown alike, and documents that differ below hidden keys only have one preview. -/
theorem preview_hides_iff (windows : Bool) (name value other : List Char) (named : isName name = true)
    (accepted : sensitive name = true)
    (unparsed : Unparsed readers (shellEnv windows name value))
    (unparsedOther : Unparsed readers (shellEnv windows name other)) :
    (redactConfig readers (shellEnv windows name value) =
        redactConfig readers (shellEnv windows name other) ↔
      List.Forall₂ ShownAlike (laterLines windows value) (laterLines windows other)) ∧
    ∀ {left right : List Char} {document replaced : Value},
      readers.json5 left = some document → readers.json5 right = some replaced →
      Masked readers document replaced → redactConfig readers left = redactConfig readers right := by
  constructor
  · rw [redactConfig_unparsed readers unparsed, redactConfig_unparsed readers unparsedOther]
    exact redactScript_eq_iff readers named accepted value other
  · intro left right document replaced parsed parsedOther masked
    rw [redactConfig, redactConfig, parsed, parsedOther]
    simp only [redactJson_masked readers masked]

/-- Readers that accept no text. -/
def noReaders : Readers where
  base64 _ := none
  json5 _ := none
  printJson _ := none
  toml _ := none
  printToml _ := []
  yaml _ := none
  printYaml _ := none
  replaceSecrets content := content

/-- The previews of two keys of one line are the same. -/
theorem preview_hides_one_line :
    redactConfig noReaders (shellEnv false "AIPASS_API_KEY".toList "sk-1".toList) =
      redactConfig noReaders (shellEnv false "AIPASS_API_KEY".toList "sk-'2".toList) := by
  have hides := preview_hides_iff noReaders false "AIPASS_API_KEY".toList "sk-1".toList
    "sk-'2".toList (by decide) (by decide +kernel) ⟨rfl, rfl, rfl⟩ ⟨rfl, rfl, rfl⟩
  exact hides.1.mpr (shownAlike_of_notMem false (by decide) (by decide))

/-- The preview of a key of two lines tells the second. -/
theorem preview_shows_second_line :
    redactConfig noReaders (shellEnv false "AIPASS_API_KEY".toList "sk-1\nprivate".toList) ≠
      redactConfig noReaders (shellEnv false "AIPASS_API_KEY".toList "sk-1\nother".toList) := by
  decide +kernel

end Aipass.ConfigWriters
