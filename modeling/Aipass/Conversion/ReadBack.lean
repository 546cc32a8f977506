import Aipass.Conversion.Protocol

/-!
# Reading a frame back

The text of a frame whose payload is an object is taken apart into the event line and the data
line it was put together from.
-/
namespace Aipass.Conversion

/-- An event name that stands on a line of its own between blanks. -/
structure CleanName (kind : List Char) : Prop where
  /-- It is one line. -/
  oneLine : '\n' ∉ kind
  /-- Trimming leaves it. -/
  trimmed : Text.trim (' ' :: kind) = kind
  /-- It does not end in a carriage return. -/
  ends : kind.getLast? ≠ some '\r'

/-- A name without white space. -/
def solidName (kind : String) : Bool :=
  !kind.toList.isEmpty && kind.toList.all fun char => !Text.isWhitespace char

/-- A name without white space is clean. -/
theorem cleanName_of_solid {kind : String} (solid : solidName kind = true) :
    CleanName kind.toList := by
  simp only [solidName, Bool.and_eq_true, Bool.not_eq_true', List.isEmpty_eq_false_iff,
    List.all_eq_true] at solid
  obtain ⟨nonempty, visible⟩ := solid
  obtain ⟨char, last⟩ : ∃ char, kind.toList.getLast? = some char :=
    ⟨_, List.getLast?_eq_some_getLast nonempty⟩
  obtain ⟨first, rest, named⟩ := List.exists_cons_of_ne_nil nonempty
  have lastVisible := visible char (List.mem_of_getLast? last)
  have firstVisible := visible first (by rw [named]; exact List.mem_cons_self)
  refine ⟨fun feed => ?_, ?_, fun returned => ?_⟩
  · have blank := visible '\n' feed
    revert blank
    decide
  · have skipped : Text.trim (' ' :: kind.toList) = Text.trim kind.toList := rfl
    rw [skipped]
    exact Text.trim_of_ends (by rw [named, List.head?_cons]) last firstVisible lastVisible
  · rw [last, Option.some.injEq] at returned
    subst returned
    revert lastVisible
    decide

/-- The lines of the text of a typed frame. -/
theorem lines_typed {kind payload : List Char} (clean : CleanName kind) (oneLine : '\n' ∉ payload)
    (ends : payload.getLast? = some '}') :
    Text.lines ("event: ".toList ++ kind ++ "\ndata: ".toList ++ payload ++ "\n\n".toList) =
      ["event: ".toList ++ kind, "data: ".toList ++ payload, []] := by
  have text : "event: ".toList ++ kind ++ "\ndata: ".toList ++ payload ++ "\n\n".toList =
      ("event: ".toList ++ kind) ++ '\n' :: (("data: ".toList ++ payload) ++ '\n' :: ['\n']) := by
    simp
  have kindLine : '\n' ∉ "event: ".toList ++ kind := by simp [clean.oneLine]
  have dataLine : '\n' ∉ "data: ".toList ++ payload := by simp [oneLine]
  have kindEnds : ("event: ".toList ++ kind).getLast? ≠ some '\r' := by
    rw [List.getLast?_append]
    cases last : kind.getLast? with
    | none => simp
    | some char =>
      have differs := clean.ends
      rw [last] at differs
      simpa using differs
  have dataEnds : ("data: ".toList ++ payload).getLast? ≠ some '\r' := by
    rw [List.getLast?_append, ends]
    simp
  rw [text, Text.lines_append _ _ kindLine, Text.lines_append _ _ dataLine,
    Text.dropLast_of_ne kindEnds, Text.dropLast_of_ne dataEnds, Text.lines_feed]
  rfl

/-- The lines of the text of an untyped frame. -/
theorem lines_untyped {payload : List Char} (oneLine : '\n' ∉ payload)
    (ends : payload.getLast? ≠ some '\r') :
    Text.lines ("data: ".toList ++ payload ++ "\n\n".toList) = ["data: ".toList ++ payload, []] := by
  have text : "data: ".toList ++ payload ++ "\n\n".toList =
      ("data: ".toList ++ payload) ++ '\n' :: ['\n'] := by simp
  have dataLine : '\n' ∉ "data: ".toList ++ payload := by simp [oneLine]
  have dataEnds : ("data: ".toList ++ payload).getLast? ≠ some '\r' := by
    rw [List.getLast?_append]
    cases last : payload.getLast? with
    | none => simp
    | some char =>
      rw [last] at ends
      simpa using ends
  rw [text, Text.lines_append _ _ dataLine, Text.dropLast_of_ne dataEnds, Text.lines_feed]
  rfl

/-- An event line is read as the name on it. -/
theorem read_event {kind : List Char} (clean : CleanName kind) (lines : SseLines) :
    lines.read ("event: ".toList ++ kind) = { lines with kind := some kind } := by
  have ends : ("event: ".toList ++ kind).getLast? ≠ some '\r' := by
    rw [List.getLast?_append]
    cases last : kind.getLast? with
    | none => simp
    | some char =>
      have differs := clean.ends
      rw [last] at differs
      simpa using differs
  have named : Text.stripPrefix "event:".toList ("event: ".toList ++ kind) = some (' ' :: kind) :=
    Text.stripPrefix_append "event:".toList (' ' :: kind)
  have solid : ¬ ("event: ".toList ++ kind = [] ∨ ("event: ".toList ++ kind).head? = some ':') := by
    rintro (empty | colon)
    · cases empty
    · cases colon
  rw [SseLines.read, Text.dropLast_of_ne ends]
  simp only [if_neg solid, named, clean.trimmed]

/-- A data line is read as the payload on it. -/
theorem read_data {payload : List Char} (ends : payload.getLast? ≠ some '\r') (lines : SseLines) :
    lines.read ("data: ".toList ++ payload) =
      { lines with dataLines := lines.dataLines ++ [payload] } := by
  have lineEnds : ("data: ".toList ++ payload).getLast? ≠ some '\r' := by
    rw [List.getLast?_append]
    cases last : payload.getLast? with
    | none => simp
    | some char =>
      rw [last] at ends
      simpa using ends
  have unnamed : Text.stripPrefix "event:".toList ("data: ".toList ++ payload) = none := rfl
  have named : Text.stripPrefix "data:".toList ("data: ".toList ++ payload) =
      some (' ' :: payload) := Text.stripPrefix_append "data:".toList (' ' :: payload)
  have blank : Text.stripPrefix [' '] (' ' :: payload) = some payload :=
    Text.stripPrefix_append [' '] payload
  have solid : ¬ ("data: ".toList ++ payload = [] ∨
      ("data: ".toList ++ payload).head? = some ':') := by
    rintro (empty | colon)
    · cases empty
    · cases colon
  rw [SseLines.read, Text.dropLast_of_ne lineEnds]
  simp only [if_neg solid, unnamed, named, blank, Option.getD_some]

/-- An empty line is skipped. -/
@[simp] theorem read_empty (lines : SseLines) : lines.read [] = lines := by
  simp [SseLines.read, Text.dropLast]

/-- An event whose lines leave one data line is read as that line. -/
theorem parseSse_of_lines {raw payload : List Char} {lines : List (List Char)}
    {kind : Option (List Char)} (split : Text.lines raw = lines)
    (read : lines.foldl SseLines.read {} = ⟨kind, [payload]⟩) :
    parseSse raw = .ok ⟨kind, payload⟩ := by
  simp [parseSse, split, read]

/-- The text of a typed frame is read as its name and its payload. -/
theorem parseSse_typed {serde : SerdeJson} (lawful : serde.Lawful) {kind : String}
    (clean : CleanName kind.toList) {event : Value} (isObject : event.IsObject) :
    parseSse ((Frame.typed kind event).text serde) =
      .ok { kind := some kind.toList, data := (serde.print event).toList } := by
  cases event with
  | object fields =>
    obtain ⟨inner, braces⟩ := lawful.braces fields
    have ends : (serde.print (.object fields)).toList.getLast? = some '}' := by
      rw [braces, List.getLast?_append]
      rfl
    have notReturn : (serde.print (.object fields)).toList.getLast? ≠ some '\r' := by
      rw [ends]
      simp
    refine parseSse_of_lines (lines_typed clean (lawful.oneLine _) ends) ?_
    rw [List.foldl_cons, read_event clean, List.foldl_cons, read_data notReturn, List.foldl_cons,
      read_empty, List.foldl_nil]
    rfl
  | _ => exact isObject.elim

/-- The text of an untyped frame is read as its payload. -/
theorem parseSse_untyped {serde : SerdeJson} (lawful : serde.Lawful) {event : Value}
    (isObject : event.IsObject) :
    parseSse ((Frame.untyped event).text serde) =
      .ok { kind := none, data := (serde.print event).toList } := by
  cases event with
  | object fields =>
    obtain ⟨inner, braces⟩ := lawful.braces fields
    have notReturn : (serde.print (.object fields)).toList.getLast? ≠ some '\r' := by
      rw [braces, List.getLast?_append]
      simp
    refine parseSse_of_lines (lines_untyped (lawful.oneLine _) notReturn) ?_
    rw [List.foldl_cons, read_data notReturn, List.foldl_cons, read_empty, List.foldl_nil]
    rfl
  | _ => exact isObject.elim

/-- The end marker is read as itself. -/
theorem parseSse_done (serde : SerdeJson) :
    parseSse (Frame.done.text serde) = .ok { kind := none, data := "[DONE]".toList } := by
  have oneLine : '\n' ∉ "[DONE]".toList := by decide
  have ends : "[DONE]".toList.getLast? ≠ some '\r' := by decide
  have text : Frame.done.text serde = "data: ".toList ++ "[DONE]".toList ++ "\n\n".toList := by
    rfl
  refine parseSse_of_lines (text ▸ lines_untyped oneLine ends) ?_
  rw [List.foldl_cons, read_data ends, List.foldl_cons, read_empty, List.foldl_nil]
  rfl

end Aipass.Conversion
