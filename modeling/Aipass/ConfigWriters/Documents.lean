import Aipass.ConfigWriters.KeyPaths

/-!
# Undoing a configuration file

A JSON configuration is read, undone key path by key path and printed. Printing and reading again
may change fractions, so what an undo does to a file is told up to the fractions, and exactly where
they are read as they were printed.
-/
namespace Aipass.ConfigWriters

/-- What is read of a printed document is the document, with its fractions reread. -/
def Formats.ReadsBack (formats : Formats) (reread : String → String) : Prop :=
  ∀ value read, formats.fromSlice (formats.toVecPretty value) = some read →
    read = value.mapFloats reread

/-- A file shows a document if the document is read of it, or has been printed into it. -/
inductive Formats.Shows (formats : Formats) : Content → Option Value → Prop
  /-- There is neither. -/
  | absent : formats.Shows none none
  /-- The document is read. -/
  | read {bytes : Bytes} {value : Value} (parsed : formats.fromSlice bytes = some value) :
    formats.Shows (some bytes) (some value)
  /-- The document has been printed. -/
  | printed (value : Value) : formats.Shows (some (formats.toVecPretty value)) (some value)

/-- Two values are alike if they differ in fractions at most. -/
def Alike (left right : Option Value) : Prop :=
  left.map (Value.mapFloats fun _ => "") = right.map (Value.mapFloats fun _ => "")

/-- The fractions of a value are read as they were printed. -/
def Exact (reread : String → String) (value : Option Value) : Prop :=
  value.map (Value.mapFloats reread) = value

/-- A field of a value, or of nothing. -/
theorem lookup_fieldsOf (value : Option Value) (key : String) :
    Value.lookup key (fieldsOf value) = value.bind fun value => value.get key := by
  cases value with
  | none => rfl
  | some value => cases value <;> rfl

/-- Changing fractions changes those of a part. -/
theorem entry_mapFloats (change : String → String) (value : Option Value) (path : List String) :
    entry (value.map (Value.mapFloats change)) path =
      (entry value path).map (Value.mapFloats change) := by
  induction path generalizing value with
  | nil => rfl
  | cons key path ih =>
    rw [entry, entry, ← ih]
    congr 1
    rw [lookup_fieldsOf, lookup_fieldsOf]
    cases value with
    | none => rfl
    | some value => simp

mutual

/-- What becomes of fractions does not matter if they are changed afterwards. -/
theorem mapFloats_mapFloats (change later : String → String) :
    ∀ value : Value, (value.mapFloats change).mapFloats later = value.mapFloats (later ∘ change)
  | .null | .bool _ | .string _ => rfl
  | .number (.unsigned _) | .number (.negative _) | .number (.float _) => rfl
  | .array items => congrArg Value.array (mapFloatsItems_mapFloatsItems change later items)
  | .object fields => congrArg Value.object (mapFloatsFields_mapFloatsFields change later fields)

/-- What becomes of the fractions of items does not matter if they are changed afterwards. -/
theorem mapFloatsItems_mapFloatsItems (change later : String → String) :
    ∀ items : List Value, Value.mapFloatsItems later (Value.mapFloatsItems change items) =
      Value.mapFloatsItems (later ∘ change) items
  | [] => rfl
  | item :: rest => by
    rw [Value.mapFloatsItems, Value.mapFloatsItems, Value.mapFloatsItems,
      mapFloats_mapFloats change later item, mapFloatsItems_mapFloatsItems change later rest]

/-- What becomes of the fractions of fields does not matter if they are changed afterwards. -/
theorem mapFloatsFields_mapFloatsFields (change later : String → String) :
    ∀ fields : List (String × Value),
      Value.mapFloatsFields later (Value.mapFloatsFields change fields) =
        Value.mapFloatsFields (later ∘ change) fields
  | [] => rfl
  | (key, value) :: rest => by
    rw [Value.mapFloatsFields, Value.mapFloatsFields, Value.mapFloatsFields,
      mapFloats_mapFloats change later value, mapFloatsFields_mapFloatsFields change later rest]

end

/-- A value is like itself with its fractions changed. -/
theorem alike_mapFloats (change : String → String) (value : Option Value) :
    Alike (value.map (Value.mapFloats change)) value := by
  rw [Alike, Option.map_map]
  congr 1
  funext value
  exact mapFloats_mapFloats change _ value

/-- The parts of values that are alike are alike. -/
theorem Alike.entry {left right : Option Value} (alike : Alike left right) (path : List String) :
    Alike (entry left path) (entry right path) := by
  rw [Alike, ← entry_mapFloats, ← entry_mapFloats, alike]

/-- Values that are alike are objects both, or not. -/
theorem Alike.container {left right : Option Value} (alike : Alike left right) :
    (left = none ∨ ¬ Container left) ↔ (right = none ∨ ¬ Container right) := by
  have erased : ∀ value : Option Value, (value = none ∨ ¬ Container value) ↔
      (value.map (Value.mapFloats fun _ => "") = none ∨
        ¬ Container (value.map (Value.mapFloats fun _ => ""))) := by
    intro value
    cases value with
    | none => simp
    | some value =>
      cases value with
      | number number => cases number <;> simp [Container, Value.asObject, Value.mapFloats]
      | _ => simp [Container, Value.asObject, Value.mapFloats]
  rw [erased left, erased right, alike]

variable {formats : Formats} {reread : String → String} {mode : Mode} {resource : Resource}
  {before after current result : Content} {old new now shown : Option Value}

/-- Only a file that is not there shows nothing. -/
theorem Formats.parseJson_none (parsed : formats.parseJson current = .ok none) :
    current = none := by
  cases current with
  | none => rfl
  | some bytes =>
    rw [parseJson] at parsed
    split at parsed <;> cases parsed

/-- A document that is read is shown. -/
theorem Formats.Shows.of_parseJson (parsed : formats.parseJson current = .ok now) :
    formats.Shows current now := by
  cases current with
  | none =>
    cases parsed
    exact .absent
  | some bytes =>
    rw [parseJson] at parsed
    split at parsed
    · rename_i value found
      cases parsed
      exact .read found
    · cases parsed

/-- What is read of a file that shows a document is the document, or that with its fractions
reread. -/
theorem Formats.Shows.parseJson (law : formats.ReadsBack reread)
    (shows : formats.Shows current shown) (parsed : formats.parseJson current = .ok now) :
    now = shown ∨ now = shown.map (Value.mapFloats reread) := by
  cases shows with
  | absent =>
    cases parsed
    exact Or.inl rfl
  | read found =>
    rw [Formats.parseJson, found] at parsed
    cases parsed
    exact Or.inl rfl
  | printed value =>
    rw [Formats.parseJson] at parsed
    split at parsed
    · rename_i read found
      cases parsed
      exact Or.inr (congrArg some (law _ _ found))
    · cases parsed

/-- What is read of a file is like what it shows. -/
theorem Formats.Shows.alike (law : formats.ReadsBack reread)
    (shows : formats.Shows current shown) (parsed : formats.parseJson current = .ok now) :
    Alike now shown := by
  rcases shows.parseJson law parsed with same | changed
  · rw [same]
    rfl
  · rw [changed]
    exact alike_mapFloats reread shown

/-- Where the fractions are exact, what is read of a file is what it shows. -/
theorem Formats.Shows.entry_eq (law : formats.ReadsBack reread)
    (shows : formats.Shows current shown) (parsed : formats.parseJson current = .ok now)
    {path : List String} (exact : Exact reread (entry shown path)) :
    entry now path = entry shown path := by
  rcases shows.parseJson law parsed with same | changed
  · rw [same]
  · rw [changed, entry_mapFloats, exact]

/-- A resource whose name is that of a JSON file. -/
def Resource.IsJson (resource : Resource) : Prop :=
  ["json", "jsonc", "json5"].contains resource.extension = true

/-- What an undo of a JSON file can do: keep the file, put back what was there, or undo the document
and print it. -/
inductive Rewritten (formats : Formats) (mode : Mode) (before after current result : Content) : Prop
  /-- Nothing of the writer is seen in the file. -/
  | hidden (hides : mode.unmarked fun markers => current.any markers.containsBytes)
      (same : result = current)
  /-- There is nothing to undo. -/
  | idle (done : before = after ∨ current = before) (same : result = current)
  /-- The write stands. -/
  | back (shows : ¬ mode.unmarked fun markers => current.any markers.containsBytes)
      (stands : current = after) (same : result = before)
  /-- The document is undone. -/
  | merged (shows : ¬ mode.unmarked fun markers => current.any markers.containsBytes)
      (differs : current ≠ after) (old new now undone : Option Value)
      (readOld : formats.parseJson before = .ok old) (readNew : formats.parseJson after = .ok new)
      (readNow : formats.parseJson current = .ok now)
      (done : undoValue mode old new now = .ok undone)
      (printed : (undone = none ∧ result = none) ∨ (undone = some (now.getD .null) ∧
        result = current) ∨ ∃ value, undone = some value ∧
          result = some (formats.toVecPretty value))

/-- What an undo of a JSON file that succeeds has done. -/
theorem undoInner_cases (json : resource.IsJson)
    (done : undoInner formats mode resource before after current = .ok result) :
    Rewritten formats mode before after current result := by
  rw [undoInner] at done
  split at done
  · rename_i hides
    exact .hidden hides (Except.ok.inj done).symm
  · rename_i shows
    split at done
    · rename_i idle
      exact .idle idle (Except.ok.inj done).symm
    · split at done
      · rename_i stands
        exact .back shows stands (Except.ok.inj done).symm
      · rename_i differs
        have listed : ["json", "jsonc", "json5"].contains resource.extension = true := json
        rw [if_pos listed] at done
        obtain ⟨old, readOld, done⟩ := bind_eq_ok.mp done
        obtain ⟨new, readNew, done⟩ := bind_eq_ok.mp done
        obtain ⟨now, readNow, done⟩ := bind_eq_ok.mp done
        obtain ⟨undone, merged, done⟩ := bind_eq_ok.mp done
        refine .merged shows differs old new now undone readOld readNew readNow merged ?_
        cases undone with
        | none => exact Or.inl ⟨rfl, (Except.ok.inj done).symm⟩
        | some value =>
          simp only at done
          split at done
          · rename_i same
            exact Or.inr (Or.inl ⟨congrArg some same, (Except.ok.inj done).symm⟩)
          · exact Or.inr (Or.inr ⟨value, rfl, (Except.ok.inj done).symm⟩)

/-- What an undo does at the key paths of a document: what the write did not change is kept, and so
is what is no object and not of the write; what was there already stays; what the write put there
gives way to what was there before it. -/
structure PathLaws (reread : String → String) (mode : Mode) (bytes : Content)
    (old new now undone : Option Value) : Prop where
  unchanged : ∀ path, entry old path = entry new path →
    Alike (entry undone path) (entry now path)
  kept : ∀ path, entry now path = none ∨ ¬ Container (entry now path) →
    ¬ Alike (entry now path) (entry new path) → Alike (entry undone path) (entry now path)
  restored : ∀ path, Exact reread (entry old path) → entry now path = entry old path →
    entry undone path = entry old path
  stood : mode.retiring = false → ∀ path, Exact reread (entry new path) →
    entry now path = entry new path → entry undone path = entry old path
  /-- When a write is retired, what shows its markers gives way. -/
  retired : ¬ (mode.unmarked fun markers => bytes.any markers.containsBytes) → ∀ path,
    Exact reread (entry new path) → entry now path = entry new path → entry now path ≠ none →
      mode.hides (entry now path) = false → Rooted old path →
        entry undone path = entry old path

/-- A document that an undo keeps obeys the laws if there was nothing to undo. -/
theorem pathLaws_idle (law : formats.ReadsBack reread) (shows : formats.Shows current now)
    (readOld : formats.parseJson before = .ok old) (readNew : formats.parseJson after = .ok new)
    (idle : before = after ∨ current = before) :
    PathLaws reread mode current old new now now := by
  have stands : ∀ path, Exact reread (entry new path) → entry now path = entry new path →
      entry now path = entry old path := by
    intro path exact stands
    rcases idle with same | same
    · subst same
      rw [readOld] at readNew
      cases readNew
      exact stands
    · subst same
      exact (shows.entry_eq law readOld (stands ▸ exact)).symm
  exact ⟨fun _ _ => rfl, fun _ _ _ => rfl, fun _ _ restored => restored,
    fun _ => stands, fun _ path exact same _ _ _ => stands path exact same⟩

/-- A document that gives way to the one before obeys the laws if the write stands. -/
theorem pathLaws_back (law : formats.ReadsBack reread) (shows : formats.Shows current now)
    (readNew : formats.parseJson current = .ok new) :
    PathLaws reread mode current old new now old := by
  have alike : Alike new now := shows.alike law readNew
  exact ⟨fun path unchanged => (congrArg _ unchanged).trans (alike.entry path),
    fun path _ differs => absurd (alike.entry path).symm differs, fun _ _ _ => rfl,
    fun _ _ _ _ => rfl, fun _ _ _ _ _ _ _ => rfl⟩

/-- An undone document obeys the laws. -/
theorem pathLaws_merged (law : formats.ReadsBack reread) (shows : formats.Shows current shown)
    (readNow : formats.parseJson current = .ok now) {undone : Option Value}
    (done : undoValue mode old new now = .ok undone) :
    PathLaws reread mode current old new shown undone where
  unchanged := fun path unchanged => by
    rw [entry_unchanged done unchanged]
    exact (shows.alike law readNow).entry path
  kept := fun path leaf differs => by
    have alike := (shows.alike law readNow).entry path
    rw [entry_kept done (alike.container.mpr leaf) fun same => differs (by
      rw [← same]
      exact alike.symm)]
    exact alike
  restored := fun path exact restored =>
    entry_restored done ((shows.entry_eq law readNow (restored ▸ exact)).trans restored)
  stood := fun strict path exact stands =>
    entry_undone strict done ((shows.entry_eq law readNow (stands ▸ exact)).trans stands)
  retired := fun _ path exact stands there seen rooted => by
    have same := shows.entry_eq law readNow (stands ▸ exact)
    exact entry_retired done (same ▸ there) (same ▸ seen) rooted (same.trans stands)

/-- An undo of a file obeys the laws of its document. -/
theorem undoInner_laws (law : formats.ReadsBack reread) (json : resource.IsJson)
    (shows : formats.Shows current now) (readOld : formats.parseJson before = .ok old)
    (readNew : formats.parseJson after = .ok new)
    (done : undoInner formats mode resource before after current = .ok result) :
    ∃ undone, formats.Shows result undone ∧ PathLaws reread mode current old new now undone := by
  cases undoInner_cases json done with
  | hidden hides same =>
    subst same
    refine ⟨now, shows, fun _ _ => rfl, fun _ _ _ => rfl, fun _ _ restored => restored, ?_,
      fun shown => absurd hides shown⟩
    intro strict
    simp [Mode.unmarked, strict] at hides
  | idle idle same =>
    subst same
    exact ⟨now, shows, pathLaws_idle law shows readOld readNew idle⟩
  | back _ stands same =>
    subst stands same
    exact ⟨old, .of_parseJson readOld, pathLaws_back law shows readNew⟩
  | merged _ differs old' new' now' undone readOld' readNew' readNow done printed =>
    rw [readOld] at readOld'
    rw [readNew] at readNew'
    cases readOld'
    cases readNew'
    rcases printed with ⟨none_, gone⟩ | ⟨same, kept⟩ | ⟨value, some_, written⟩
    · rw [none_] at done
      rw [gone]
      exact ⟨none, .absent, pathLaws_merged law shows readNow done⟩
    · rw [kept]
      cases now' with
      | some value =>
        rw [same] at done
        exact ⟨some value, .of_parseJson readNow, pathLaws_merged law shows readNow done⟩
      | none =>
        -- nothing is no null: only an undone null would be printed as what is not there
        rw [same] at done
        cases undoValue_cases done with
        | hidden _ kept | idle _ kept | conflict _ _ _ kept => cases kept
        | back _ stands _ =>
          rw [← stands] at readNew
          exact absurd ((formats.parseJson_none readNow).trans
            (formats.parseJson_none readNew).symm) differs
        | inside _ _ _ present => exact absurd rfl present
    · rw [some_] at done
      rw [written]
      exact ⟨some value, .printed value, pathLaws_merged law shows readNow done⟩

/-- One of several undos of a file. -/
structure Undo where
  mode : Mode
  before : Content
  after : Content

/-- A content is absent or a JSON document. -/
def Formats.IsDocument (formats : Formats) (content : Content) : Prop :=
  ∃ value, formats.parseJson content = .ok value

/-- What a file has at a key path. -/
def Formats.entryAt (formats : Formats) (content : Content) (path : List String) : Option Value :=
  match formats.parseJson content with
  | .ok value => entry value path
  | .error _ => none

/-- What is read of a file is what it has. -/
theorem Formats.entryAt_eq (parsed : formats.parseJson current = .ok now) (path : List String) :
    formats.entryAt current path = entry now path := by
  rw [entryAt, parsed]

/-- Several undos, one after the other, each by the laws. -/
inductive Undoes (formats : Formats) (reread : String → String) :
    List Undo → Option Value → Option Value → Prop
  | nil (now : Option Value) : Undoes formats reread [] now now
  | cons {undo : Undo} {rest : List Undo} {bytes : Content} {old new now undone last : Option Value}
    (readOld : formats.parseJson undo.before = .ok old)
    (readNew : formats.parseJson undo.after = .ok new)
    (laws : PathLaws reread undo.mode bytes old new now undone)
    (later : Undoes formats reread rest undone last) : Undoes formats reread (undo :: rest) now last

/-- Undoing one write after the other undoes their documents. -/
theorem undoes_of_foldlM (law : formats.ReadsBack reread) (json : resource.IsJson)
    (undos : List Undo)
    (documents : ∀ undo ∈ undos, formats.IsDocument undo.before ∧ formats.IsDocument undo.after)
    (shows : formats.Shows current now)
    (done : undos.foldlM (fun current undo =>
      undoInner formats undo.mode resource undo.before undo.after current) current = .ok result) :
    ∃ last, formats.Shows result last ∧ Undoes formats reread undos now last := by
  induction undos generalizing current now with
  | nil =>
    simp only [List.foldlM_nil, pure, Except.pure, Except.ok.injEq] at done
    exact ⟨now, done ▸ shows, .nil now⟩
  | cons undo rest ih =>
    obtain ⟨⟨old, readOld⟩, new, readNew⟩ := documents undo (List.mem_cons_self ..)
    rw [List.foldlM_cons] at done
    obtain ⟨middle, first, done⟩ := bind_eq_ok.mp done
    obtain ⟨undone, shown, laws⟩ := undoInner_laws law json shows readOld readNew first
    obtain ⟨last, shows, later⟩ := ih (fun other listed =>
      documents other (List.mem_cons_of_mem _ listed)) shown done
    exact ⟨last, shows, .cons readOld readNew laws later⟩

/-- A key path that no write changed is kept. -/
theorem Undoes.unchanged {undos : List Undo} {last : Option Value}
    (undoes : Undoes formats reread undos now last) {path : List String}
    (unchanged : ∀ undo ∈ undos,
      formats.entryAt undo.before path = formats.entryAt undo.after path) :
    Alike (entry last path) (entry now path) := by
  induction undoes with
  | nil => rfl
  | cons readOld readNew laws later ih =>
    have own := unchanged _ (List.mem_cons_self ..)
    rw [formats.entryAt_eq readOld, formats.entryAt_eq readNew] at own
    exact (ih fun other listed => unchanged other (List.mem_cons_of_mem _ listed)).trans
      (laws.unchanged path own)

/-- A value that is no object and that no write put there is kept. -/
theorem Undoes.kept {undos : List Undo} {last : Option Value}
    (undoes : Undoes formats reread undos now last) {path : List String}
    (leaf : entry now path = none ∨ ¬ Container (entry now path))
    (foreign : ∀ undo ∈ undos, ¬ Alike (entry now path) (formats.entryAt undo.after path)) :
    Alike (entry last path) (entry now path) := by
  induction undoes with
  | nil => rfl
  | cons readOld readNew laws later ih =>
    have own := foreign _ (List.mem_cons_self ..)
    rw [formats.entryAt_eq readNew] at own
    have first := laws.kept path leaf own
    refine (ih (first.container.mpr leaf) fun other listed same => ?_).trans first
    exact foreign other (List.mem_cons_of_mem _ listed) (first.symm.trans same)

end Aipass.ConfigWriters
