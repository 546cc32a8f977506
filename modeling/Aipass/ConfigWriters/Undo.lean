import Mathlib.Data.List.Sort
import Aipass.Base.Json
import Aipass.ConfigWriters.Transaction

/-!
# Undoing what was written into a configuration

A write turned one document into another, and the document may have been edited since. Undoing it
puts back what the write has changed and keeps the rest; what has been changed on both sides is a
conflict. When a write is retired instead, a conflict keeps what is there, and so does a part that
shows no marker of the writer.
-/
namespace Aipass.ConfigWriters

/-- Why an undo stops. -/
inductive UndoError
  /-- `commented or invalid JSON requires exact recovery; configuration was preserved`. -/
  | invalidJson
  /-- `invalid TOML configuration; original recovery data retained`. -/
  | invalidToml
  /-- `proxy configuration conflict`. -/
  | conflict
deriving DecidableEq

/-- `Markers`. -/
structure Markers where
  values : List String := []
deriving DecidableEq

namespace Markers

/-- `endpoint_boundary`. -/
def endpointBoundary (value : List Char) (next : Option Char) : Bool :=
  if "http://".toList.isPrefixOf value || "https://".toList.isPrefixOf value then
    next.all fun char => ['/', '?', '#', '"', '\'', ' ', '\t', '\r', '\n', '\\'].contains char
  else true

/-- What follows each match of a text, as `match_indices` finds them: after the characters of the
last match were skipped. -/
def matchRests (sought : List Char) : ℕ → List Char → List (List Char)
  | _, [] => []
  | skip + 1, _ :: rest => matchRests sought skip rest
  | 0, char :: rest =>
    if sought.isPrefixOf (char :: rest) then
      (char :: rest).drop sought.length :: matchRests sought (sought.length - 1) rest
    else matchRests sought 0 rest

/-- `contains`. -/
def contains (markers : Markers) (text : String) : Bool :=
  markers.values.any fun value =>
    value ≠ "" && (matchRests value.toList 0 text.toList).any fun rest =>
      endpointBoundary value.toList rest.head?

/-- `contains_bytes`. -/
def containsBytes (markers : Markers) (bytes : Bytes) : Bool :=
  markers.values.any fun value =>
    value ≠ "" && bytes.tails.any fun rest =>
      value.toUTF8.toList.isPrefixOf rest &&
        endpointBoundary value.toList
          ((rest.drop value.utf8ByteSize).head?.map fun byte => Char.ofNat byte.toNat)

mutual

/-- `contains_json`. -/
def containsJson (markers : Markers) : Value → Bool
  | .string value => markers.contains value
  | .array values => containsItems markers values
  | .object values => containsFields markers values
  | _ => false

/-- The items of an array. -/
def containsItems (markers : Markers) : List Value → Bool
  | [] => false
  | value :: rest => markers.containsJson value || containsItems markers rest

/-- The fields of an object. -/
def containsFields (markers : Markers) : List (String × Value) → Bool
  | [] => false
  | (key, value) :: rest =>
    markers.contains key || markers.containsJson value || containsFields markers rest

end

/-- `extend`. -/
def extend (markers other : Markers) : Markers :=
  { values := other.values.foldl
      (fun held value => if held.contains value then held else held ++ [value]) markers.values }

end Markers

/-- How an undo treats conflicts. -/
structure Mode where
  /-- A conflict keeps what is there. -/
  retiring : Bool
  /-- What the writer has left in what it wrote. -/
  markers : Option Markers

/-- Nothing of the writer is seen in what is there. -/
def Mode.unmarked (mode : Mode) (shows : Markers → Bool) : Bool :=
  mode.retiring && mode.markers.any fun markers => !markers.values.isEmpty && !shows markers

/-- `Map::remove`. -/
def eraseField (key : String) (fields : List (String × Value)) : List (String × Value) :=
  fields.filter fun field => field.1 ≠ key

/-- The fields of an object, or none. -/
def fieldsOf (value : Option Value) : List (String × Value) := (value.bind Value.asObject).getD []

/-- The keys of two objects, in order. -/
def keysOf (old new : List (String × Value)) : List String :=
  ((old ++ new).map Prod.fst).dedup.insertionSort (· ≤ ·)

/-- A field of an object is smaller than the object. -/
theorem sizeOf_lookup_lt (key : String) (fields : List (String × Value)) :
    sizeOf (Value.lookup key fields) < sizeOf (some (Value.object fields)) := by
  have smaller : sizeOf (Value.lookup key fields) ≤ 1 + sizeOf fields := by
    induction fields with
    | nil => simp [Value.lookup]
    | cons field rest ih =>
      obtain ⟨held, value⟩ := field
      rw [Value.lookup]
      split
      · simp
        omega
      · simp
        omega
  simp
  omega

/-- `undo_value`. -/
def undoValue (mode : Mode) (before after current : Option Value) :
    Except UndoError (Option Value) :=
  if mode.unmarked fun markers => current.any markers.containsJson then .ok current
  else if before = after ∨ current = before then .ok current
  else if current = after then .ok before
  else
    match _shape : current with
    | some (.object now) =>
      -- objects are descended into even if the writer created them
      if (before.all fun value => value.asObject.isSome) ∧
          (after.all fun value => value.asObject.isSome) then do
        let old := fieldsOf before
        let new := fieldsOf after
        let result ← (keysOf old new).foldlM (fun result key => do
          let value ← undoValue mode (Value.lookup key old) (Value.lookup key new)
            (Value.lookup key now)
          return match value with
            | some value => Value.insertField key value result
            | none => eraseField key result) now
        return if before.isNone ∧ result.isEmpty then none else some (.object result)
      else if mode.retiring then .ok current
      else .error .conflict
    | _ => if mode.retiring then .ok current else .error .conflict
termination_by sizeOf current
decreasing_by exact sizeOf_lookup_lt _ _

/-- `toml_edit::Item`: a table, with what stands around it and how it is laid out, or anything else
by its text. -/
inductive TomlItem
  | table (decor layout : String) (entries : List (String × TomlItem))
  | value (text : String)

namespace TomlItem

/-- `Table::get`. -/
def find (key : String) : List (String × TomlItem) → Option TomlItem
  | [] => none
  | (held, item) :: rest => if held = key then some item else find key rest

/-- `Table::insert`. -/
def insert (key : String) (item : TomlItem) : List (String × TomlItem) → List (String × TomlItem)
  | [] => [(key, item)]
  | (held, old) :: rest =>
    if held = key then (held, item) :: rest else (held, old) :: insert key item rest

/-- `Table::remove`. -/
def remove (key : String) (entries : List (String × TomlItem)) : List (String × TomlItem) :=
  entries.filter fun entry => entry.1 ≠ key

mutual

/-- `same`, of two items that are there. -/
def same : TomlItem → TomlItem → Bool
  | .table decor _ entries, .table otherDecor _ others =>
    decor = otherDecor && entries.length = others.length && sameEntries entries others
  | .value text, .value other => text = other
  | .table .., .value _ | .value _, .table .. => false

/-- The entries are the same in another table. -/
def sameEntries : List (String × TomlItem) → List (String × TomlItem) → Bool
  | [], _ => true
  | (key, item) :: rest, others =>
    ((find key others).any fun other => same item other) && sameEntries rest others

end

/-- `same`. -/
def sameOption : Option TomlItem → Option TomlItem → Bool
  | some item, some other => same item other
  | none, none => true
  | some _, none | none, some _ => false

/-- `Item::as_table`: the decoration and the entries. -/
def asTable : TomlItem → Option (String × List (String × TomlItem))
  | .table decor _ entries => some (decor, entries)
  | .value _ => none

/-- An entry of a table is smaller than the table. -/
theorem sizeOf_find_lt {key : String} {entries : List (String × TomlItem)} {decor layout : String}
    {inner : List (String × TomlItem)}
    (found : find key entries = some (.table decor layout inner)) :
    sizeOf inner < sizeOf entries := by
  induction entries with
  | nil => cases found
  | cons entry rest ih =>
    obtain ⟨held, item⟩ := entry
    rw [find] at found
    split at found
    · simp only [Option.some.injEq] at found
      subst found
      simp
      omega
    · have smaller := ih found
      simp
      omega

end TomlItem

/-- `undo_table`. -/
def undoTable (render : TomlItem → String) (mode : Mode)
    (before after current : List (String × TomlItem)) :
    Except UndoError (List (String × TomlItem)) :=
  (((before ++ after).map Prod.fst).dedup.insertionSort (· ≤ ·)).foldlM (fun result key =>
    let old := TomlItem.find key before
    let new := TomlItem.find key after
    let now := TomlItem.find key current
    if mode.unmarked fun markers => now.any fun item => markers.contains (render item) then
      .ok result
    else if TomlItem.sameOption old new ∨ TomlItem.sameOption now old then .ok result
    else if TomlItem.sameOption now new then
      match old with
      | some item => .ok (TomlItem.insert key item result)
      | none => .ok (TomlItem.remove key result)
    else
      match _found : TomlItem.find key current with
      | some (.table nowDecor layout inner) =>
        match new.bind TomlItem.asTable with
        | some (decor, newEntries) =>
          if old.all fun item => item.asTable.isSome then do
            let entries ← undoTable render mode
              (((old.bind TomlItem.asTable).map Prod.snd).getD []) newEntries inner
            if old.isNone ∧ entries.isEmpty ∧ nowDecor = decor then
              return TomlItem.remove key result
            else return TomlItem.insert key (.table nowDecor layout entries) result
          else if mode.retiring then .ok result
          else .error .conflict
        | none => if mode.retiring then .ok result else .error .conflict
      | _ => if mode.retiring then .ok result else .error .conflict) current
termination_by sizeOf current
decreasing_by exact TomlItem.sizeOf_find_lt _found

/-- `Path::extension`: what follows the last dot of the name of a file, unless the name starts with
it. -/
def fileExtension (path : String) : String :=
  let name := path.toList.reverse.takeWhile (· ≠ '/')
  let extension := name.takeWhile (· ≠ '.')
  if (name.drop (extension.length + 1)).isEmpty then "" else String.ofList extension.reverse

/-- The extension of a resource. -/
def Resource.extension : Resource → String
  | .file path => fileExtension path
  | .keychain _ _ => ""

/-- Readers and printers of configurations. -/
structure Formats where
  /-- `serde_json::from_slice`, if it succeeds. -/
  fromSlice : Bytes → Option Value
  /-- `serde_json::to_vec_pretty`. -/
  toVecPretty : Value → Bytes
  /-- A TOML document is parsed into its layout and its entries, if it is one. -/
  parseToml : Bytes → Option (String × List (String × TomlItem))
  /-- A TOML document is printed. -/
  printToml : String → List (String × TomlItem) → Bytes
  /-- The text of an item. -/
  renderToml : TomlItem → String

/-- `parse_json`. -/
def Formats.parseJson (formats : Formats) : Content → Except UndoError (Option Value)
  | none => .ok none
  | some bytes =>
    match formats.fromSlice bytes with
    | some value => .ok (some value)
    | none => .error .invalidJson

/-- `doc`. -/
def Formats.doc (formats : Formats) (content : Content) :
    Except UndoError (String × List (String × TomlItem)) :=
  match formats.parseToml (content.getD []) with
  | some document => .ok document
  | none => .error .invalidToml

/-- `undo_inner`. -/
def undoInner (formats : Formats) (mode : Mode) (resource : Resource)
    (before after current : Content) : Except UndoError Content :=
  if mode.unmarked fun markers => current.any markers.containsBytes then .ok current
  else if before = after ∨ current = before then .ok current
  else if current = after then .ok before
  else if ["json", "jsonc", "json5"].contains resource.extension then do
    let old ← formats.parseJson before
    let new ← formats.parseJson after
    let now ← formats.parseJson current
    match ← undoValue mode old new now with
    | none => return none
    | some value =>
      if value = now.getD .null then return current
      else return some (formats.toVecPretty value)
  else if resource.extension = "toml" then do
    let (_, old) ← formats.doc before
    let (_, new) ← formats.doc after
    let (layout, now) ← formats.doc current
    let entries ← undoTable formats.renderToml mode old new now
    return some (formats.printToml layout entries)
  else if mode.retiring then .ok current
  else .error .conflict

/-- `merge::undo`. -/
def undo (formats : Formats) : Resource → (before after current : Content) →
    Except UndoError Content :=
  undoInner formats ⟨false, none⟩

/-- `merge::retire`. -/
def retireUndo (formats : Formats) (markers : Markers) : Resource →
    (before after current : Content) → Except UndoError Content :=
  undoInner formats ⟨true, some markers⟩

end Aipass.ConfigWriters
