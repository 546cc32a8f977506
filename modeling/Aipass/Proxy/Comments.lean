import Aipass.Proxy.Convert

/-!
# Comments and blank lines between events

A comment or a second blank line makes an event of its own, which carries neither a type nor
data; a single blank line becomes the first line of the next event. The readers of the two OpenAI
converters skip an event without data, the other reader refuses it, and both skip an empty line
in front of an event.
-/
namespace Aipass.Proxy

open Conversion

/-- A complete event: lines that are not empty, and the empty line that ends it. -/
structure Block where
  lines : List Line
  nonempty : lines ≠ []
  solid : ∀ line ∈ lines, ¬ line.Blank
  last : Line
  blank : last.Blank

/-- The bytes of an event. -/
def Block.bytes (block : Block) : Bytes := bytesOf block.lines ++ block.last.bytes

/-- What may be inserted between events. -/
inductive Filler
  /-- A blank line. -/
  | blank (line : Line) (blank : line.Blank)
  /-- An event whose lines all start with a colon. -/
  | comment (block : Block) (colons : ∀ line ∈ block.lines, line.content.head? = some 0x3A)

/-- The bytes of what is inserted. -/
def Filler.bytes : Filler → Bytes
  | .blank line _ => line.bytes
  | .comment block _ => block.bytes

/-- Nothing, or one blank line. -/
def sparse : List Filler → Bool
  | [] | [.blank _ _] => true
  | _ => false

/-- A stream of events with fillers before, between and after them. -/
structure Padded where
  parts : List (List Filler × Block)
  tail : List Filler

namespace Padded

/-- The bytes of the events alone. -/
def bare (padded : Padded) : Bytes := padded.parts.flatMap fun part => part.2.bytes

/-- The bytes of the events and the fillers. -/
def bytes (padded : Padded) : Bytes :=
  (padded.parts.flatMap fun part => part.1.flatMap Filler.bytes ++ part.2.bytes) ++
    padded.tail.flatMap Filler.bytes

/-- At most one blank line stands before an event, and nothing after the last. -/
def Spared (padded : Padded) : Prop :=
  (∀ part ∈ padded.parts, sparse part.1 = true) ∧ padded.tail = []

end Padded

/-- The lines an event starts with when a blank line is pending. -/
def lead : Option Line → List Line
  | none => []
  | some line => [line]

@[simp] theorem bytesOf_lead_none : bytesOf (lead none) = [] := rfl

/-- What fillers become: the events of their own, and the blank line that is pending after
them. -/
def absorb : Option Line → List Filler → List (List Line) × Option Line
  | pending, [] => ([], pending)
  | none, .blank line _ :: rest => absorb (some line) rest
  | some first, .blank line _ :: rest =>
    ([first, line] :: (absorb none rest).1, (absorb none rest).2)
  | pending, .comment block _ :: rest =>
    ((lead pending ++ block.lines ++ [block.last]) :: (absorb none rest).1, (absorb none rest).2)

/-- An empty line, or one that starts with a colon. -/
def Silent (line : Line) : Prop := line.Blank ∨ line.content.head? = some 0x3A

/-- The pending line is blank. -/
def PendingBlank (pending : Option Line) : Prop := ∀ line, pending = some line → line.Blank

/-- Nothing is pending. -/
theorem noPending : PendingBlank none := by rintro _ ⟨⟩

/-- A blank line in front of an event is part of it. -/
theorem boundary_lead {pending : Option Line} (blank : PendingBlank pending) (block : Block) :
    sseEventBoundaryEnd (bytesOf (lead pending) ++ block.bytes) =
      some (bytesOf (lead pending) ++ block.bytes).length := by
  obtain ⟨lines, nonempty, solid, last, ending⟩ := block
  cases pending with
  | none =>
    cases lines with
    | nil => exact absurd rfl nonempty
    | cons first middle =>
      have event := boundary_event first
        (fun line inside => solid line (List.mem_cons_of_mem _ inside)) ending
      simpa [lead, Block.bytes] using event
  | some line =>
    have event := boundary_event line solid ending
    simpa [lead, Block.bytes] using event

/-- An event is complete. -/
theorem boundary_block (block : Block) :
    sseEventBoundaryEnd block.bytes = some block.bytes.length := boundary_lead noPending block

/-- Two blank lines are an event. -/
theorem boundary_blanks (first : Line) {line : Line} (blank : line.Blank) :
    sseEventBoundaryEnd (first.bytes ++ line.bytes) = some (first.bytes ++ line.bytes).length := by
  have event := @boundary_event first [] (by simp) _ blank
  simpa using event

/-- Fillers are split into their own events, and a pending blank line stays in front. -/
theorem splitEvents_fillers {pending : Option Line} (blank : PendingBlank pending)
    (fillers : List Filler) (rest : Bytes) :
    splitEvents (bytesOf (lead pending) ++ (fillers.flatMap Filler.bytes ++ rest)) =
      ((absorb pending fillers).1.map bytesOf ++
          (splitEvents (bytesOf (lead (absorb pending fillers).2) ++ rest)).1,
        (splitEvents (bytesOf (lead (absorb pending fillers).2) ++ rest)).2) := by
  induction pending, fillers using absorb.induct with
  | case1 pending => simp [absorb]
  | case2 line isBlank fillers ih =>
    have step := ih (by rintro _ ⟨⟩; exact isBlank)
    simpa [absorb, lead, Filler.bytes] using step
  | case3 first line isBlank fillers ih =>
    have step := ih (by rintro _ ⟨⟩)
    have event := splitEvents_append (boundary_blanks first isBlank)
      (fillers.flatMap Filler.bytes ++ rest)
    simp only [bytesOf_lead_none, List.nil_append] at step
    simpa [absorb, lead, Filler.bytes, step] using event
  | case4 pending block colons fillers ih =>
    have step := ih (by rintro _ ⟨⟩)
    have event := splitEvents_append (boundary_lead blank block)
      (fillers.flatMap Filler.bytes ++ rest)
    simp only [bytesOf_lead_none, List.nil_append] at step
    simpa [absorb, Filler.bytes, Block.bytes, step] using event

/-- A blank line is all that can be pending. -/
theorem pendingBlank_absorb {pending : Option Line} (blank : PendingBlank pending)
    (fillers : List Filler) : PendingBlank (absorb pending fillers).2 := by
  induction pending, fillers using absorb.induct with
  | case1 pending => exact blank
  | case2 line isBlank fillers ih => exact ih (by rintro _ ⟨⟩; exact isBlank)
  | case3 first line isBlank fillers ih => exact ih (by rintro _ ⟨⟩)
  | case4 pending block colons fillers ih => exact ih (by rintro _ ⟨⟩)

/-- The events of fillers are silent. -/
theorem silent_absorb {pending : Option Line} (blank : PendingBlank pending)
    (fillers : List Filler) :
    ∀ event ∈ (absorb pending fillers).1, ∀ line ∈ event, Silent line := by
  induction pending, fillers using absorb.induct with
  | case1 pending => simp [absorb]
  | case2 line isBlank fillers ih => exact ih (by rintro _ ⟨⟩; exact isBlank)
  | case3 first line isBlank fillers ih =>
    intro event inside
    rcases List.mem_cons.mp inside with rfl | later
    · intro line' inside'
      simp only [List.mem_cons, List.not_mem_nil, or_false] at inside'
      rcases inside' with rfl | rfl
      · exact Or.inl (blank _ rfl)
      · exact Or.inl isBlank
    · exact ih (by rintro _ ⟨⟩) event later
  | case4 pending block colons fillers ih =>
    intro event inside
    rcases List.mem_cons.mp inside with rfl | later
    · intro line inside'
      simp only [List.mem_append, List.mem_singleton] at inside'
      rcases inside' with (front | body) | rfl
      · cases pending with
        | none => cases front
        | some first =>
          rw [lead, List.mem_singleton] at front
          subst front
          exact Or.inl (blank _ rfl)
      · exact Or.inr (colons line body)
      · exact Or.inl block.blank
    · exact ih (by rintro _ ⟨⟩) event later

/-- Fillers make no event of their own exactly when they are at most one blank line. -/
theorem absorb_eq_nil (fillers : List Filler) :
    (absorb none fillers).1 = [] ↔ sparse fillers = true := by
  match fillers with
  | [] => simp [absorb, sparse]
  | [.blank line blank] => simp [absorb, sparse]
  | .blank line blank :: .blank other blank' :: rest => simp [absorb, sparse]
  | .blank line blank :: .comment block colons :: rest => simp [absorb, sparse]
  | .comment block colons :: rest => simp [absorb, sparse]

/-- Fillers leave nothing at all exactly when there are none. -/
theorem absorb_eq_none (fillers : List Filler) :
    absorb none fillers = ([], none) ↔ fillers = [] := by
  match fillers with
  | [] => simp [absorb]
  | [.blank line blank] => simp [absorb]
  | .blank line blank :: .blank other blank' :: rest => simp [absorb]
  | .blank line blank :: .comment block colons :: rest => simp [absorb]
  | .comment block colons :: rest => simp [absorb]

/-- The text of a line as the readers see it. -/
def textOf (line : Line) : List Char := Text.dropLast '\r' (Text.fromUtf8Lossy line.content)

/-- The lines of a text are those of its bytes. -/
theorem lines_bytesOf (lines : List Line) (rest : Bytes) :
    Text.lines (Text.fromUtf8Lossy (bytesOf lines ++ rest)) =
      lines.map textOf ++ Text.lines (Text.fromUtf8Lossy rest) := by
  induction lines with
  | nil => rfl
  | cons line lines ih =>
    have split : bytesOf (line :: lines) ++ rest =
        line.content ++ 0x0A :: (bytesOf lines ++ rest) := by simp [Line.bytes]
    have noFeed : '\n' ∉ Text.fromUtf8Lossy line.content :=
      Text.feed_not_mem_decodeFrom none line.noFeed
    rw [split, Text.fromUtf8Lossy_append, Text.lines_append _ _ noFeed, ih]
    rfl

/-- A blank line is read as an empty one. -/
theorem textOf_blank {line : Line} (blank : line.Blank) : textOf line = [] := by
  rcases blank with empty | returns
  · rw [textOf, empty]
    rfl
  · rw [textOf, returns]
    rfl

/-- A silent line is read as an empty one, or one that starts with a colon. -/
theorem textOf_silent {line : Line} (silent : Silent line) :
    textOf line = [] ∨ (textOf line).head? = some ':' := by
  rcases silent with blank | colon
  · exact Or.inl (textOf_blank blank)
  · right
    obtain ⟨rest, content⟩ := List.head?_eq_some_iff.mp colon
    have colonText : Text.fromUtf8Lossy line.content = ':' :: Text.fromUtf8Lossy rest := by
      rw [content]
      exact Text.fromUtf8Lossy_cons (by decide) rest
    rw [textOf, colonText, Text.dropLast]
    split
    · rename_i ends
      cases tail : Text.fromUtf8Lossy rest with
      | nil =>
        rw [tail] at ends
        cases ends
      | cons char more => rfl
    · rfl

/-- An event whose lines are all read as empty ones or comments. -/
def Quiet (raw : List Char) : Prop :=
  ∀ line ∈ Text.lines raw, line = [] ∨ line.head? = some ':'

/-- Silent lines make a quiet event. -/
theorem quiet_bytesOf {lines : List Line} (silent : ∀ line ∈ lines, Silent line) :
    Quiet (Text.fromUtf8Lossy (bytesOf lines)) := by
  have split := lines_bytesOf lines []
  rw [List.append_nil] at split
  intro line inside
  rw [split] at inside
  obtain ⟨line, listed, rfl⟩ : ∃ known ∈ lines, textOf known = line := by
    simpa [Text.fromUtf8Lossy, Text.decodeFrom, Text.flush] using inside
  exact textOf_silent (silent line listed)

/-- A quiet event carries neither a type nor data. -/
theorem parseSse_quiet {raw : List Char} (quiet : Quiet raw) :
    parseSse raw = .error (.invalidEvent raw) := by
  have unread : ∀ (lines : List (List Char)) (read : SseLines),
      (∀ line ∈ lines, line = [] ∨ line.head? = some ':') → lines.foldl SseLines.read read = read := by
    intro lines
    induction lines with
    | nil => intro read _; rfl
    | cons line lines ih =>
      intro read silent
      have same : read.read line = read := by
        rcases silent line (List.mem_cons_self ..) with rfl | colon
        · simp [SseLines.read, Text.dropLast]
        · obtain ⟨rest, rfl⟩ := List.head?_eq_some_iff.mp colon
          have kept : (Text.dropLast '\r' (':' :: rest)).head? = some ':' := by
            rw [Text.dropLast]
            split
            · rename_i ends
              cases rest with
              | nil => cases ends
              | cons char more => rfl
            · rfl
          simp [SseLines.read, kept]
      rw [List.foldl_cons, same]
      exact ih read fun other inside => silent other (List.mem_cons_of_mem _ inside)
  simp [parseSse, unread _ _ quiet]

/-- A quiet event has no data. -/
theorem data_quiet (serde : SerdeJson) {raw : List Char} (quiet : Quiet raw) :
    data serde raw = .ok none := by
  have noData : (Text.lines raw).filterMap (fun line =>
      (Text.stripPrefix "data:".toList line).map Text.trimStart) = [] := by
    rw [List.filterMap_eq_nil_iff]
    intro line inside
    rcases quiet line inside with rfl | colon
    · rfl
    · obtain ⟨rest, rfl⟩ := List.head?_eq_some_iff.mp colon
      rfl
  simp only [data, noData]
  rfl

/-- The same event behind an empty line. -/
def Leads (raw raw' : List Char) : Prop :=
  Text.lines raw' = Text.lines raw ∨ Text.lines raw' = [] :: Text.lines raw

/-- An empty line in front does not change what an event says. -/
theorem parseSse_leads {raw raw' : List Char} (leads : Leads raw raw') {parsed : SseEvent}
    (reads : parseSse raw = .ok parsed) : parseSse raw' = .ok parsed := by
  have same : (Text.lines raw').foldl SseLines.read {} = (Text.lines raw).foldl SseLines.read {} := by
    rcases leads with lines | lines
    · rw [lines]
    · rw [lines, List.foldl_cons]
      rfl
  simp only [parseSse, same] at reads ⊢
  split at reads
  · cases reads
  · rename_i present
    rw [if_neg present]
    exact reads

/-- An empty line in front does not change the data of an event. -/
theorem data_leads (serde : SerdeJson) {raw raw' : List Char} (leads : Leads raw raw') :
    data serde raw' = data serde raw := by
  rcases leads with lines | lines
  · simp only [data, lines]
  · simp only [data, lines]
    rfl

/-- The events of a stream, and those of the same stream with noise: an event may stand behind an
empty line, and where noise is allowed quiet events may stand anywhere. -/
inductive Woven (noise : Prop) : List (List Char) → List (List Char) → Prop
  | done : Woven noise [] []
  | quiet {raw : List Char} {events woven : List (List Char)} (loud : noise) (quiet : Quiet raw)
      (rest : Woven noise events woven) : Woven noise events (raw :: woven)
  | event {raw raw' : List Char} {events woven : List (List Char)} (leads : Leads raw raw')
      (rest : Woven noise events woven) : Woven noise (raw :: events) (raw' :: woven)

/-- Quiet events in front. -/
theorem Woven.quiets {noise : Prop} {events woven : List (List Char)}
    (rest : Woven noise events woven) {raws : List (List Char)} (loud : raws ≠ [] → noise)
    (quiet : ∀ raw ∈ raws, Quiet raw) : Woven noise events (raws ++ woven) := by
  induction raws with
  | nil => exact rest
  | cons raw raws ih =>
    have noisy := loud (List.cons_ne_nil _ _)
    refine .quiet noisy (quiet raw (List.mem_cons_self ..)) (ih (fun _ => noisy) ?_)
    exact fun other inside => quiet other (List.mem_cons_of_mem _ inside)

/-- An event behind a pending blank line says the same. -/
theorem leads_lead {pending : Option Line} (blank : PendingBlank pending) (bytes : Bytes) :
    Leads (Text.fromUtf8Lossy bytes) (Text.fromUtf8Lossy (bytesOf (lead pending) ++ bytes)) := by
  cases pending with
  | none => exact Or.inl rfl
  | some line =>
    have read := lines_bytesOf [line] bytes
    rw [List.map_singleton, textOf_blank (blank line rfl)] at read
    exact Or.inr read

/-- No bytes give no event. -/
@[simp] theorem rawEvents_nil : rawEvents [] = [] := by
  simp [rawEvents, splitEvents_none boundary_nil]

/-- A complete event is the first that is given. -/
theorem rawEvents_append {event : Bytes}
    (complete : sseEventBoundaryEnd event = some event.length) (rest : Bytes) :
    rawEvents (event ++ rest) = Text.fromUtf8Lossy event :: rawEvents rest := by
  simp only [rawEvents, splitEvents_append complete, List.map_cons, List.cons_append]

/-- The events of fillers come first, and a pending blank line stays in front of the rest. -/
theorem rawEvents_fillers (fillers : List Filler) (rest : Bytes) :
    rawEvents (fillers.flatMap Filler.bytes ++ rest) =
      ((absorb none fillers).1.map bytesOf).map Text.fromUtf8Lossy ++
        rawEvents (bytesOf (lead (absorb none fillers).2) ++ rest) := by
  have split := splitEvents_fillers noPending fillers rest
  rw [bytesOf_lead_none, List.nil_append] at split
  simp only [rawEvents, split, List.map_append, List.append_assoc]

/-- The events of fillers are quiet. -/
theorem quiet_fillers (fillers : List Filler) :
    ∀ raw ∈ ((absorb none fillers).1.map bytesOf).map Text.fromUtf8Lossy, Quiet raw := by
  intro raw inside
  simp only [List.map_map, List.mem_map] at inside
  obtain ⟨event, listed, rfl⟩ := inside
  exact quiet_bytesOf (silent_absorb (by rintro _ ⟨⟩) fillers event listed)

/-- A pending blank line at the end of a stream is one more event. -/
theorem rawEvents_pending {pending : Option Line} (blank : PendingBlank pending) :
    rawEvents (bytesOf (lead pending)) =
      pending.toList.map fun line => Text.fromUtf8Lossy (bytesOf [line]) := by
  cases pending with
  | none => exact rawEvents_nil
  | some line =>
    have incomplete : sseEventBoundaryEnd (bytesOf [line]) = none := by
      rcases blank line rfl with empty | returns
      · simp [Line.bytes, empty, boundary_cons, List.isPrefixOf]
      · simp [Line.bytes, returns, boundary_cons, List.isPrefixOf]
    have some_ : bytesOf [line] ≠ [] := by simp [Line.bytes]
    simp only [lead, rawEvents, splitEvents_none incomplete, if_neg some_]
    rfl

/-- The events of a stream with fillers are its events, woven with quiet ones unless the fillers
spare it. -/
theorem woven_padded {noise : Prop} (padded : Padded) (loud : ¬ padded.Spared → noise) :
    Woven noise (rawEvents padded.bare) (rawEvents padded.bytes) := by
  obtain ⟨parts, tail⟩ := padded
  simp only [Padded.bare, Padded.bytes]
  induction parts with
  | nil =>
    have pending := pendingBlank_absorb noPending tail
    have tailLoud : tail ≠ [] → noise := fun some_ => loud fun spared => some_ spared.2
    have fillers := rawEvents_fillers tail []
    rw [List.append_nil, List.append_nil, rawEvents_pending pending] at fillers
    simp only [List.flatMap_nil, List.nil_append, fillers, rawEvents_nil]
    refine Woven.quiets ?_ (fun some_ => tailLoud ?_) (quiet_fillers tail)
    · rw [← List.append_nil (List.map _ _)]
      refine Woven.quiets .done (fun some_ => tailLoud ?_) ?_
      · rintro rfl
        exact some_ rfl
      · intro raw inside
        obtain ⟨line, known, rfl⟩ := List.mem_map.mp inside
        have blank := pending line (by simpa using known)
        exact quiet_bytesOf fun other listed => by
          rw [List.mem_singleton.mp listed]
          exact Or.inl blank
    · rintro rfl
      exact some_ rfl
  | cons part parts ih =>
    obtain ⟨fillers, block⟩ := part
    have pending := pendingBlank_absorb noPending fillers
    have rest := ih fun unspared => loud fun spared => unspared
      ⟨fun other inside => spared.1 other (List.mem_cons_of_mem _ inside), spared.2⟩
    simp only [List.flatMap_cons, List.append_assoc] at rest ⊢
    rw [rawEvents_append (boundary_block block), rawEvents_fillers, ← List.append_assoc (bytesOf (lead _)),
      rawEvents_append (boundary_lead pending block)]
    refine Woven.quiets (.event (leads_lead pending _) rest) (fun some_ => ?_)
      (quiet_fillers fillers)
    refine loud fun spared => some_ ?_
    rw [(absorb_eq_nil fillers).mpr (spared.1 _ (List.mem_cons_self ..))]
    rfl

/-- Fillers that do not spare a stream add a quiet event. -/
theorem exists_quiet {padded : Padded} (unspared : ¬ padded.Spared) :
    ∃ raw ∈ rawEvents padded.bytes, Quiet raw := by
  obtain ⟨parts, tail⟩ := padded
  simp only [Padded.bytes]
  induction parts with
  | nil =>
    have some_ : tail ≠ [] := fun none_ => unspared ⟨by simp, none_⟩
    have pending := pendingBlank_absorb noPending tail
    have fillers := rawEvents_fillers tail []
    rw [List.append_nil, List.append_nil, rawEvents_pending pending] at fillers
    simp only [List.flatMap_nil, List.nil_append, fillers]
    cases events : (absorb none tail).1 with
    | cons event events' =>
      have quiet := quiet_fillers tail
      rw [events] at quiet
      exact ⟨_, List.mem_append_left _ (List.mem_cons_self ..),
        quiet _ (List.mem_cons_self ..)⟩
    | nil =>
      cases left : (absorb none tail).2 with
      | none =>
        exact absurd ((absorb_eq_none tail).mp (Prod.ext events left)) some_
      | some line =>
        have blank := pending line left
        refine ⟨Text.fromUtf8Lossy (bytesOf [line]), by simp, quiet_bytesOf fun other listed => ?_⟩
        rw [List.mem_singleton.mp listed]
        exact Or.inl blank
  | cons part parts ih =>
    obtain ⟨fillers, block⟩ := part
    have pending := pendingBlank_absorb noPending fillers
    simp only [List.flatMap_cons, List.append_assoc] at ih ⊢
    rw [rawEvents_fillers, ← List.append_assoc (bytesOf (lead _)),
      rawEvents_append (boundary_lead pending block)]
    by_cases few : sparse fillers = true
    · obtain ⟨raw, inside, quiet⟩ := ih fun spared => unspared
        ⟨List.forall_mem_cons.mpr ⟨few, spared.1⟩, spared.2⟩
      exact ⟨raw, List.mem_append_right _ (List.mem_cons_of_mem _ inside), quiet⟩
    · cases events : (absorb none fillers).1 with
      | nil => exact absurd ((absorb_eq_nil fillers).mp events) few
      | cons event events' =>
        have quiet := quiet_fillers fillers
        rw [events] at quiet
        exact ⟨_, List.mem_append_left _ (List.mem_cons_self ..),
          quiet _ (List.mem_cons_self ..)⟩

end Aipass.Proxy
