import Mathlib.Data.List.Dedup
import Aipass.Base.Result
import Aipass.ConfigWriters.Undo

/-!
# Undoing, key path by key path

What an undo does to a document is told at each key path: a path that the write did not change is
kept, a path at which the write's value still stands gets back what it had, and so does a path at
which this stands already. A value that is no object and that the write did not put there is kept.
-/
namespace Aipass.ConfigWriters

/-- The value at a key path. -/
def entry (value : Option Value) : List String → Option Value
  | [] => value
  | key :: path => entry (Value.lookup key (fieldsOf value)) path

/-- No value has no values. -/
@[simp] theorem entry_none (path : List String) : entry none path = none := by
  induction path with
  | nil => rfl
  | cons key path ih => exact ih

/-- The fields of an object from which one is taken away. -/
theorem lookup_eraseField (key sought : String) (fields : List (String × Value)) :
    Value.lookup sought (eraseField key fields) =
      if key = sought then none else Value.lookup sought fields := by
  induction fields with
  | nil => simp [eraseField, Value.lookup]
  | cons field rest ih =>
    obtain ⟨held, value⟩ := field
    rw [eraseField, List.filter_cons]
    change Value.lookup sought (if decide (held ≠ key) then
      (held, value) :: eraseField key rest else eraseField key rest) = _
    by_cases same : held = key
    · subst same
      rw [if_neg (by simp), ih]
      by_cases hit : held = sought <;> simp [Value.lookup, hit]
    · rw [if_pos (by simpa using same)]
      simp only [Value.lookup, ih]
      by_cases hit : held = sought
      · have other : key ≠ sought := fun eq => same (hit.trans eq.symm)
        simp [hit, other]
      · simp [hit]

/-- An undo that finds nothing to undo keeps what is there. -/
theorem undoValue_same (mode : Mode) (value current : Option Value) :
    undoValue mode value value current = .ok current := by
  rw [undoValue.eq_def]
  simp

/-- Each key of a merged object is undone by itself. -/
theorem lookup_foldlM {ε : Type} (undo : String → Except ε (Option Value)) (keys : List String)
    (distinct : keys.Nodup) (start : List (String × Value)) {result : List (String × Value)}
    (done : keys.foldlM (fun result key => do
      let value ← undo key
      return match value with
        | some value => Value.insertField key value result
        | none => eraseField key result) start = .ok result) (key : String) :
    if key ∈ keys then undo key = .ok (Value.lookup key result)
    else Value.lookup key result = Value.lookup key start := by
  induction keys generalizing start with
  | nil =>
    simp only [List.foldlM_nil, pure, Except.pure, Except.ok.injEq] at done
    simp [done]
  | cons head rest ih =>
    obtain ⟨fresh, distinct⟩ := List.nodup_cons.mp distinct
    rw [List.foldlM_cons] at done
    cases undone : undo head with
    | error error =>
      rw [undone] at done
      cases done
    | ok value =>
      rw [undone] at done
      have later := ih distinct _ done
      by_cases same : key = head
      · subst same
        rw [if_neg fresh] at later
        rw [if_pos (List.mem_cons_self ..), undone, later]
        cases value with
        | some value => rw [Value.lookup_insertField, if_pos rfl]
        | none => rw [lookup_eraseField, if_pos rfl]
      · simp only [List.mem_cons, same, false_or]
        by_cases inside : key ∈ rest
        · rw [if_pos inside] at later ⊢
          exact later
        · rw [if_neg inside] at later ⊢
          rw [later]
          cases value with
          | some value => rw [Value.lookup_insertField, if_neg (Ne.symm same)]
          | none => rw [lookup_eraseField, if_neg (Ne.symm same)]

/-- The value is an object, or nothing. -/
def Container (value : Option Value) : Prop := (value.all fun value => value.asObject.isSome) = true

/-- What a mode sees of the writer in a value. -/
def Mode.hides (mode : Mode) (value : Option Value) : Bool :=
  mode.unmarked fun markers => value.any markers.containsJson

/-- What an undo can do: keep what is there, put back what was there, or go into an object. -/
inductive Undone (mode : Mode) (before after current result : Option Value) : Prop
  /-- Nothing of the writer is seen. -/
  | hidden (hides : mode.hides current) (same : result = current)
  /-- There is nothing to undo. -/
  | idle (done : before = after ∨ current = before) (same : result = current)
  /-- The write stands. -/
  | back (shows : ¬ mode.hides current) (stands : current = after) (same : result = before)
  /-- A conflict is kept. -/
  | conflict (retiring : mode.retiring) (differs : current ≠ after)
      (blocked : ¬ (current ≠ none ∧ Container current ∧ Container before ∧ Container after))
      (same : result = current)
  /-- An object is undone key by key. -/
  | inside (change : before ≠ after) (written : current ≠ before) (differs : current ≠ after)
      (present : current ≠ none) (container : Container current) (old : Container before)
      (new : Container after)
      (parts : ∀ key, undoValue mode (Value.lookup key (fieldsOf before))
        (Value.lookup key (fieldsOf after)) (Value.lookup key (fieldsOf current)) =
          .ok (Value.lookup key (fieldsOf result)))

/-- The keys of an undone object, each once. -/
theorem keysOf_nodup (old new : List (String × Value)) : (keysOf old new).Nodup :=
  (List.perm_insertionSort _ _).nodup_iff.mpr (List.nodup_dedup _)

/-- The keys of an undone object are those of the two others. -/
theorem mem_keysOf {old new : List (String × Value)} {key : String} :
    key ∈ keysOf old new ↔ key ∈ old.map Prod.fst ∨ key ∈ new.map Prod.fst := by
  rw [keysOf, (List.perm_insertionSort _ _).mem_iff, List.mem_dedup, List.map_append,
    List.mem_append]

/-- What an undo that succeeds has done. -/
theorem undoValue_cases {mode : Mode} {before after current result : Option Value}
    (done : undoValue mode before after current = .ok result) :
    Undone mode before after current result := by
  rw [undoValue.eq_def] at done
  split at done
  · rename_i hides
    exact .hidden hides (Except.ok.inj done).symm
  · rename_i shows
    split at done
    · rename_i idle
      exact .idle idle (Except.ok.inj done).symm
    · rename_i busy
      obtain ⟨change, written⟩ := not_or.mp busy
      split at done
      · rename_i stands
        exact .back shows stands (Except.ok.inj done).symm
      · rename_i differs
        split at done
        · rename_i now
          split at done
          · rename_i containers
            have present : some (Value.object now) ≠ none := by simp
            refine .inside change written differs present (by simp [Container, Value.asObject])
              containers.1 containers.2 fun key => ?_
            obtain ⟨fields, merged, done⟩ := bind_eq_ok.mp done
            have own := lookup_foldlM _ _ (keysOf_nodup _ _) now merged key
            have shape : Value.lookup key (fieldsOf result) = Value.lookup key fields := by
              rw [← Except.ok.inj done]
              split
              · rename_i emptied
                rw [List.isEmpty_iff.mp emptied.2]
                rfl
              · rfl
            rw [shape]
            by_cases listed : key ∈ keysOf (fieldsOf before) (fieldsOf after)
            · rw [if_pos listed] at own
              exact own
            · rw [if_neg listed] at own
              rw [mem_keysOf, not_or] at listed
              rw [Value.lookup_of_not_mem listed.1, Value.lookup_of_not_mem listed.2, undoValue_same, own]
              rfl
          · split at done
            · rename_i apart retiring
              refine .conflict retiring differs (fun all => apart ⟨all.2.2.1, all.2.2.2⟩)
                (Except.ok.inj done).symm
            · cases done
        · rename_i other
          split at done
          · rename_i retiring
            refine .conflict retiring differs (fun all => ?_) (Except.ok.inj done).symm
            cases current with
            | none => exact all.1 rfl
            | some value =>
              cases value with
              | object fields => exact other fields rfl
              | _ => exact absurd all.2.1 (by simp [Container, Value.asObject])
          · cases done

variable {mode : Mode} {before after current result : Option Value}

/-- A key path that the write did not change is kept. -/
theorem entry_unchanged (done : undoValue mode before after current = .ok result)
    {path : List String} (unchanged : entry before path = entry after path) :
    entry result path = entry current path := by
  induction path generalizing before after current result with
  | nil =>
    simp only [entry] at unchanged ⊢
    subst unchanged
    rw [undoValue_same] at done
    exact (Except.ok.inj done).symm
  | cons key path ih =>
    cases undoValue_cases done with
    | hidden _ same | idle _ same | conflict _ _ _ same => rw [same]
    | back _ stands same =>
      rw [same, stands]
      exact unchanged
    | inside _ _ _ _ _ _ _ parts => exact ih (parts key) unchanged

/-- A key path at which there is what the write found keeps it. -/
theorem entry_restored (done : undoValue mode before after current = .ok result)
    {path : List String} (restored : entry current path = entry before path) :
    entry result path = entry before path := by
  induction path generalizing before after current result with
  | nil =>
    simp only [entry] at restored ⊢
    cases undoValue_cases done with
    | hidden _ same | idle _ same | conflict _ _ _ same => exact same.trans restored
    | back _ _ same => exact same
    | inside _ written => exact absurd restored written
  | cons key path ih =>
    cases undoValue_cases done with
    | hidden _ same | idle _ same | conflict _ _ _ same => rw [same, restored]
    | back _ _ same => rw [same]
    | inside _ _ _ _ _ _ _ parts => exact ih (parts key) restored

/-- A key path at which the write stands gets back what the write found. -/
theorem entry_undone (strict : mode.retiring = false)
    (done : undoValue mode before after current = .ok result) {path : List String}
    (stands : entry current path = entry after path) : entry result path = entry before path := by
  have shows : ∀ value, mode.hides value = false := fun value => by
    simp [Mode.hides, Mode.unmarked, strict]
  induction path generalizing before after current result with
  | nil =>
    simp only [entry] at stands ⊢
    cases undoValue_cases done with
    | hidden hides _ => exact absurd hides (by simp [shows])
    | idle idle same => exact same.trans (idle.elim (fun same => stands.trans same.symm) id)
    | back _ _ same => exact same
    | conflict retiring _ _ _ => exact absurd retiring (by simp [strict])
    | inside _ _ differs => exact absurd stands differs
  | cons key path ih =>
    cases undoValue_cases done with
    | hidden hides _ => exact absurd hides (by simp [shows])
    | idle idle same =>
      rw [same]
      rcases idle with unchanged | restored
      · rw [stands, unchanged]
      · rw [restored]
    | back _ _ same => rw [same]
    | conflict retiring _ _ _ => exact absurd retiring (by simp [strict])
    | inside _ _ _ _ _ _ _ parts => exact ih (parts key) stands

/-- A value that is no object is kept unless the write put it there. -/
theorem entry_kept (done : undoValue mode before after current = .ok result) {path : List String}
    (leaf : entry current path = none ∨ ¬ Container (entry current path))
    (differs : entry current path ≠ entry after path) :
    entry result path = entry current path := by
  induction path generalizing before after current result with
  | nil =>
    simp only [entry] at leaf differs ⊢
    cases undoValue_cases done with
    | hidden _ same | idle _ same | conflict _ _ _ same => exact same
    | back _ stands _ => exact absurd stands differs
    | inside _ _ _ present container => exact (leaf.elim present fun other => other container).elim
  | cons key path ih =>
    cases undoValue_cases done with
    | hidden _ same | idle _ same | conflict _ _ _ same => rw [same]
    | back _ stands _ => exact absurd (by rw [stands]) differs
    | inside _ _ _ _ _ _ _ parts => exact ih (parts key) leaf differs

/-- Every place above a key path is an object, or nothing. -/
def Rooted (value : Option Value) : List String → Prop
  | [] => True
  | key :: path => Container value ∧ Rooted (Value.lookup key (fieldsOf value)) path

/-- A marker in a field is a marker in the object. -/
theorem containsFields_lookup (markers : Markers) {key : String} {fields : List (String × Value)}
    {value : Value} (found : Value.lookup key fields = some value)
    (shown : markers.containsJson value) : markers.containsFields fields := by
  induction fields with
  | nil => cases found
  | cons field rest ih =>
    obtain ⟨held, other⟩ := field
    rw [Value.lookup] at found
    rw [Markers.containsFields]
    split at found
    · simp [Option.some.inj found, shown]
    · simp [ih found]

/-- What shows in a value shows in every value above it. -/
theorem hides_entry (mode : Mode) {value : Option Value} {path : List String}
    (there : entry value path ≠ none) (shows : mode.hides (entry value path) = false) :
    mode.hides value = false := by
  induction path generalizing value with
  | nil => exact shows
  | cons key path ih =>
    have inner := ih there shows
    have present : Value.lookup key (fieldsOf value) ≠ none := fun absent =>
      there (by rw [entry, absent, entry_none])
    obtain ⟨held, found⟩ := Option.ne_none_iff_exists'.mp present
    rw [found] at inner
    cases value with
    | none => cases found
    | some value =>
      cases value with
      | object fields =>
        simp only [Mode.hides, Mode.unmarked, Option.any_some, Bool.and_eq_false_iff] at inner ⊢
        refine inner.imp id fun seen => ?_
        cases known : mode.markers with
        | none => rfl
        | some markers =>
          rw [known] at seen
          simp only [Option.any_some, Bool.and_eq_false_iff,
            Bool.not_eq_eq_eq_not, Bool.not_false] at seen ⊢
          refine seen.imp id fun shown => ?_
          rw [Markers.containsJson]
          exact containsFields_lookup markers found shown
      | _ => cases found

/-- A value that shows the writer and that the write put there is taken back. -/
theorem entry_retired (done : undoValue mode before after current = .ok result)
    {path : List String} (there : entry current path ≠ none)
    (shows : mode.hides (entry current path) = false) (rooted : Rooted before path)
    (stands : entry current path = entry after path) : entry result path = entry before path := by
  induction path generalizing before after current result with
  | nil =>
    simp only [entry] at there shows stands ⊢
    cases undoValue_cases done with
    | hidden hides _ => exact absurd hides (by simp [shows])
    | idle idle same => exact same.trans (idle.elim (fun same => stands.trans same.symm) id)
    | back _ _ same => exact same
    | conflict _ differs _ _ => exact absurd stands differs
    | inside _ _ differs => exact absurd stands differs
  | cons key path ih =>
    have object : ∀ value : Option Value, entry value (key :: path) ≠ none →
        value ≠ none ∧ Container value := by
      intro value some_
      rw [entry] at some_
      cases value with
      | none => exact absurd (entry_none path) some_
      | some value =>
        cases value with
        | object fields => exact ⟨by simp, by simp [Container, Value.asObject]⟩
        | _ => exact absurd (entry_none path) some_
    cases undoValue_cases done with
    | hidden hides _ => exact absurd hides (by simp [hides_entry mode there shows])
    | idle idle same =>
      rw [same]
      rcases idle with unchanged | restored
      · rw [stands, unchanged]
      · rw [restored]
    | back _ _ same => rw [same]
    | conflict _ _ blocked _ =>
      have now := object current there
      have new := object after (stands ▸ there)
      exact absurd ⟨now.1, now.2, rooted.1, new.2⟩ blocked
    | inside _ _ _ _ _ _ _ parts => exact ih (parts key) there shows rooted.2 stands

end Aipass.ConfigWriters
