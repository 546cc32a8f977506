import Mathlib.Data.List.Nodup
import Mathlib.Data.Nat.Notation
import Mathlib.Data.String.Basic

/-!
# JSON values

A JSON value is a scalar, an array or an object. The fields of an object are listed in key
order, and writing a field keeps that order, so two objects built from the same fields are
equal. Reading a field that is absent, or a field of a value that is no object, gives null, so
a reader never fails. Parsing and printing are parameters; all that is assumed of them is that a
printed value is one line of text and that what is read back from it, if anything is, differs
from it in the fractions at most.
-/
namespace Aipass

/-- `serde_json::Number`. -/
inductive Number
  /-- An integer from zero on; the parser keeps those of 64 bits. -/
  | unsigned (value : ℕ)
  /-- A negative integer, by its magnitude. -/
  | negative (magnitude : ℕ)
  /-- Any other number, by its text. -/
  | float (text : String)
deriving DecidableEq, Repr

/-- `serde_json::Value`. -/
inductive Value
  | null
  | bool (value : Bool)
  | number (value : Number)
  | string (value : String)
  | array (items : List Value)
  | object (fields : List (String × Value))

namespace Value

mutual

/-- Equality of values is decided by their parts. -/
def decEq : (left right : Value) → Decidable (left = right)
  | null, null => isTrue rfl
  | bool left, bool right => decidable_of_iff (left = right) (by simp)
  | number left, number right => decidable_of_iff (left = right) (by simp)
  | string left, string right => decidable_of_iff (left = right) (by simp)
  | array left, array right =>
    match decEqItems left right with
    | isTrue same => isTrue (by rw [same])
    | isFalse differ => isFalse (by simpa using differ)
  | object left, object right =>
    match decEqFields left right with
    | isTrue same => isTrue (by rw [same])
    | isFalse differ => isFalse (by simpa using differ)
  | null, bool _ | null, number _ | null, string _ | null, array _ | null, object _
  | bool _, null | bool _, number _ | bool _, string _ | bool _, array _ | bool _, object _
  | number _, null | number _, bool _ | number _, string _ | number _, array _
  | number _, object _ | string _, null | string _, bool _ | string _, number _
  | string _, array _ | string _, object _ | array _, null | array _, bool _
  | array _, number _ | array _, string _ | array _, object _ | object _, null
  | object _, bool _ | object _, number _ | object _, string _ | object _, array _ =>
    isFalse (by simp)

/-- Equality of the items of two arrays. -/
def decEqItems : (left right : List Value) → Decidable (left = right)
  | [], [] => isTrue rfl
  | left :: lefts, right :: rights =>
    match decEq left right, decEqItems lefts rights with
    | isTrue head, isTrue tail => isTrue (by rw [head, tail])
    | isFalse differ, _ => isFalse (by simp [differ])
    | _, isFalse differ => isFalse (by simp [differ])
  | [], _ :: _ | _ :: _, [] => isFalse (by simp)

/-- Equality of the fields of two objects. -/
def decEqFields : (left right : List (String × Value)) → Decidable (left = right)
  | [], [] => isTrue rfl
  | (leftKey, left) :: lefts, (rightKey, right) :: rights =>
    match decEq left right, decEqFields lefts rights with
    | isTrue head, isTrue tail => decidable_of_iff (leftKey = rightKey) (by simp [head, tail])
    | isFalse differ, _ => isFalse (by simp [differ])
    | _, isFalse differ => isFalse (by simp [differ])
  | [], _ :: _ | _ :: _, [] => isFalse (by simp)

end

instance : DecidableEq Value := decEq

/-- The value listed under a key. -/
def lookup (key : String) : List (String × Value) → Option Value
  | [] => none
  | (held, value) :: rest => if held = key then some value else lookup key rest

/-- Write one field, keeping the fields in key order. -/
def insertField (key : String) (value : Value) : List (String × Value) → List (String × Value)
  | [] => [(key, value)]
  | (held, old) :: rest =>
    if held = key then (key, value) :: rest
    else if key < held then (key, value) :: (held, old) :: rest
    else (held, old) :: insertField key value rest

/-- `Value::get` with a key. -/
def get : Value → String → Option Value
  | object fields, key => lookup key fields
  | _, _ => none

/-- `value[key]`: a field, or null. -/
def field (value : Value) (key : String) : Value := (value.get key).getD null

/-- `value[key] = …`: write a field. Null becomes an object; the source writes to nothing else. -/
def set : Value → String → Value → Value
  | object fields, key, value => object (insertField key value fields)
  | null, key, value => object [(key, value)]
  | other, _, _ => other

/-- `value[key] = …` where the value may be of any kind. The source panics unless it is an object or
null, and then there is no value. -/
def write (value : Value) (key : String) (written : Value) : Option Value :=
  match value with
  | object _ | null => some (value.set key written)
  | _ => none

/-- `Map::remove` on an object. -/
def remove (value : Value) (key : String) : Value :=
  match value with
  | object fields => object (fields.filter fun field => field.1 ≠ key)
  | other => other

/-- `json!` with the fields of an object. -/
def obj : List (String × Value) → Value
  | [] => object []
  | (key, value) :: rest => (obj rest).set key value

/-- `Value::as_str`. -/
def asStr : Value → Option String
  | string value => some value
  | _ => none

/-- `Value::as_array`. -/
def asArray : Value → Option (List Value)
  | array items => some items
  | _ => none

/-- `Value::as_object`: the fields in key order. -/
def asObject : Value → Option (List (String × Value))
  | object fields => some fields
  | _ => none

/-- `Value::as_u64`. -/
def asU64 : Value → Option ℕ
  | number (.unsigned value) => some value
  | _ => none

/-- `json!` of a counter. -/
def nat (value : ℕ) : Value := number (.unsigned value)

/-- `!value.is_null()`. -/
def present (value : Value) : Bool := value != null

/-- `value[0]` of an array, or null. -/
def first (value : Value) : Value := ((value.asArray.getD []).head?).getD null

/-- `value[0] = …`: write the first item of an array that has one. -/
def setFirst : Value → Value → Value
  | array (_ :: rest), value => array (value :: rest)
  | other, _ => other

/-- `Value::pointer` through the fields of objects. -/
def pointer (value : Value) : List String → Option Value
  | [] => some value
  | key :: path => (value.get key).bind fun inner => inner.pointer path

/-- A value that is an object. -/
def IsObject : Value → Prop
  | object _ => True
  | _ => False

/-- A key that is not listed has no value. -/
theorem lookup_of_not_mem {key : String} {fields : List (String × Value)}
    (absent : key ∉ fields.map Prod.fst) : lookup key fields = none := by
  induction fields with
  | nil => rfl
  | cons field rest ih =>
    rw [List.map_cons, List.mem_cons, not_or] at absent
    rw [lookup, if_neg (Ne.symm absent.1)]
    exact ih absent.2

/-- The fields of an object after a write. -/
theorem lookup_insertField (key sought : String) (value : Value) (fields : List (String × Value)) :
    lookup sought (insertField key value fields) =
      if key = sought then some value else lookup sought fields := by
  induction fields with
  | nil => rfl
  | cons field rest ih =>
    obtain ⟨held, old⟩ := field
    unfold insertField
    by_cases same : held = key
    · subst same
      by_cases hit : held = sought <;> simp [lookup, hit]
    · rw [if_neg same]
      by_cases before : key < held
      · simp [before, lookup]
      · rw [if_neg before]
        simp only [lookup, ih]
        by_cases hit : held = sought
        · have other : key ≠ sought := fun eq => same (hit.trans eq.symm)
          simp [hit, other]
        · simp [hit]

/-- The keys after a write are the key written and those there were. -/
theorem key_insertField {key later : String} {value : Value} {fields : List (String × Value)}
    (listed : later ∈ (insertField key value fields).map Prod.fst) :
    later = key ∨ later ∈ fields.map Prod.fst := by
  induction fields with
  | nil => simpa [insertField] using listed
  | cons field rest ih =>
    unfold insertField at listed
    split at listed
    · rcases List.mem_cons.mp listed with isKey | behind
      · exact .inl isKey
      · exact .inr (List.mem_cons_of_mem _ behind)
    · split at listed
      · exact List.mem_cons.mp listed
      · rcases List.mem_cons.mp listed with isHeld | behind
        · exact .inr (isHeld ▸ List.mem_cons_self)
        · exact (ih behind).imp_right (List.mem_cons_of_mem _)

/-- Writing a field keeps the keys in order. -/
theorem insertField_ordered {fields : List (String × Value)}
    (ordered : (fields.map Prod.fst).Pairwise (· < ·)) (key : String) (value : Value) :
    ((insertField key value fields).map Prod.fst).Pairwise (· < ·) := by
  induction fields with
  | nil => simp [insertField]
  | cons field rest ih =>
    obtain ⟨held, old⟩ := field
    rw [List.map_cons, List.pairwise_cons] at ordered
    unfold insertField
    split
    · next same =>
      rw [List.map_cons, List.pairwise_cons, ← same]
      exact ordered
    · next other =>
      split
      · next before =>
        rw [List.map_cons, List.pairwise_cons, List.map_cons, List.pairwise_cons]
        refine ⟨fun later listed => ?_, ordered⟩
        rcases List.mem_cons.mp listed with rfl | behind
        · exact before
        · exact before.trans (ordered.1 later behind)
      · next notBefore =>
        rw [List.map_cons, List.pairwise_cons]
        refine ⟨fun later listed => ?_, ih ordered.2⟩
        have after : held < key := lt_of_le_of_ne (not_lt.mp notBefore) other
        rcases key_insertField listed with rfl | inside
        · exact after
        · exact ordered.1 later inside

/-- Reading a field after a write. -/
@[simp] theorem get_set {value : Value} (isObject : value.IsObject) (key sought : String) (written : Value) :
    (value.set key written).get sought = if key = sought then some written else value.get sought := by
  cases value with
  | object fields => exact lookup_insertField key sought written fields
  | _ => exact isObject.elim

/-- A write that is possible changes no other field. -/
theorem get_write {value next : Value} {key : String} {written : Value}
    (wrote : value.write key written = some next) {sought : String} (other : sought ≠ key) :
    next.get sought = value.get sought := by
  unfold write at wrote
  split at wrote
  · cases wrote
    rw [get_set (by trivial), if_neg (Ne.symm other)]
  · cases wrote
    exact if_neg (Ne.symm other)
  · cases wrote

/-- A write that is possible writes the field. -/
theorem get_write_self {value next : Value} {key : String} {written : Value}
    (wrote : value.write key written = some next) : next.get key = some written := by
  unfold write at wrote
  split at wrote
  · cases wrote
    rw [get_set (by trivial), if_pos rfl]
  · cases wrote
    exact if_pos rfl
  · cases wrote

/-- Null has no fields. -/
@[simp] theorem get_null (key : String) : null.get key = none := rfl

/-- A value with a field is an object. -/
theorem isObject_of_get {value inner : Value} {key : String} (found : value.get key = some inner) :
    value.IsObject := by
  cases value with
  | object fields => trivial
  | _ => cases found

/-- A write keeps an object an object. -/
@[simp] theorem isObject_set {value : Value} (isObject : value.IsObject) (key : String) (written : Value) :
    (value.set key written).IsObject := by
  cases value with
  | object fields => trivial
  | _ => exact isObject.elim

/-- A literal object is an object. -/
@[simp] theorem isObject_obj (fields : List (String × Value)) : (obj fields).IsObject := by
  induction fields with
  | nil => trivial
  | cons field rest ih => exact isObject_set ih _ _

/-- An object whose fields are listed in key order, as the writes leave them. -/
def KeysOrdered (value : Value) : Prop :=
  ∀ fields, value = object fields → (fields.map Prod.fst).Pairwise (· < ·)

/-- An object in key order has no key twice. -/
theorem KeysOrdered.nodup {fields : List (String × Value)}
    (ordered : (object fields).KeysOrdered) : (fields.map Prod.fst).Nodup :=
  (ordered fields rfl).imp ne_of_lt

/-- A write keeps the key order. -/
theorem KeysOrdered.set {value : Value} (ordered : value.KeysOrdered) (key : String)
    (written : Value) : (value.set key written).KeysOrdered := by
  intro fields isObject
  cases value with
  | object held =>
    cases isObject
    exact insertField_ordered (ordered held rfl) key written
  | null =>
    cases isObject
    simp
  | _ => cases isObject

/-- A literal object is in key order. -/
theorem keysOrdered_obj (fields : List (String × Value)) : (obj fields).KeysOrdered := by
  induction fields with
  | nil =>
    intro fields isObject
    cases isObject
    exact .nil
  | cons field rest ih => exact ih.set _ _

/-- A literal object without fields has none. -/
@[simp] theorem get_obj_nil (key : String) : (obj []).get key = none := rfl

/-- Reading a field of a literal object. -/
@[simp] theorem get_obj_cons (key : String) (value : Value) (fields : List (String × Value))
    (sought : String) :
    (obj ((key, value) :: fields)).get sought =
      if key = sought then some value else (obj fields).get sought :=
  get_set (isObject_obj fields) key sought value

/-- Reading a field after the removal of another. -/
theorem get_remove (value : Value) {key sought : String} (differ : sought ≠ key) :
    (value.remove key).get sought = value.get sought := by
  cases value with
  | object fields =>
    simp only [remove, get]
    induction fields with
    | nil => rfl
    | cons entry rest ih =>
      obtain ⟨held, old⟩ := entry
      by_cases gone : held = key
      · subst gone
        rw [List.filter_cons_of_neg (by simp), ih, lookup, if_neg (Ne.symm differ)]
      · rw [List.filter_cons_of_pos (by simpa using gone), lookup, lookup, ih]
  | _ => rfl

/-- A removal keeps an object an object. -/
theorem isObject_remove {value : Value} (isObject : value.IsObject) (key : String) :
    (value.remove key).IsObject := by
  cases value with
  | object fields => trivial
  | _ => exact isObject.elim

/-- A value read as a string is that string. -/
theorem asStr_eq_some {value : Value} {text : String} :
    value.asStr = some text ↔ value = string text := by
  cases value <;> simp [asStr]

@[simp] theorem asStr_string (text : String) : (string text).asStr = some text := rfl
@[simp] theorem asArray_array (items : List Value) : (array items).asArray = some items := rfl
@[simp] theorem asArray_null : null.asArray = none := rfl
@[simp] theorem asU64_nat (value : ℕ) : (nat value).asU64 = some value := rfl
@[simp] theorem pointer_nil (value : Value) : value.pointer [] = some value := rfl
@[simp] theorem pointer_cons (value : Value) (key : String) (path : List String) :
    value.pointer (key :: path) = (value.get key).bind fun inner => inner.pointer path := rfl

/-- No object of a value has a key twice, as `serde_json` keeps them. -/
def Distinct (value : Value) : Prop :=
  ∀ path fields, value.pointer path = some (.object fields) → (fields.map Prod.fst).Nodup

/-- A field of such a value. -/
theorem Distinct.get {value inner : Value} (distinct : value.Distinct) {key : String}
    (found : value.get key = some inner) : inner.Distinct := by
  intro path fields reached
  exact distinct (key :: path) fields (by rw [pointer_cons, found]; exact reached)

/-- A field of such a value, or null. -/
theorem Distinct.field {value : Value} (distinct : value.Distinct) (key : String) :
    (value.field key).Distinct := by
  cases found : value.get key with
  | some inner =>
    rw [Value.field, found]
    exact distinct.get found
  | none =>
    rw [Value.field, found]
    intro path fields reached
    cases path <;> cases reached

mutual

/-- Whether no object of a value has a key twice. -/
def keyed : Value → Bool
  | object fields => decide (fields.map Prod.fst).Nodup && keyedFields fields
  | _ => true

/-- Whether no object of some fields has a key twice. -/
def keyedFields : List (String × Value) → Bool
  | [] => true
  | (_, value) :: rest => value.keyed && keyedFields rest

end

/-- A field of such fields. -/
theorem keyed_of_lookup {fields : List (String × Value)} (keyed_ : keyedFields fields = true)
    {key : String} {inner : Value} (found : lookup key fields = some inner) :
    inner.keyed = true := by
  induction fields with
  | nil => cases found
  | cons field rest ih =>
    rw [keyedFields, Bool.and_eq_true] at keyed_
    rw [lookup] at found
    split at found
    · cases found
      exact keyed_.1
    · exact ih keyed_.2 found

/-- No object has a key twice if this is checked. -/
theorem distinct_of_keyed {value : Value} (keyed_ : value.keyed = true) : value.Distinct := by
  intro path
  induction path generalizing value with
  | nil =>
    intro fields reached
    cases reached
    rw [keyed, Bool.and_eq_true, decide_eq_true_eq] at keyed_
    exact keyed_.1
  | cons key path ih =>
    intro fields reached
    rw [pointer_cons] at reached
    obtain ⟨inner, found, below⟩ := Option.bind_eq_some_iff.mp reached
    cases value with
    | object held =>
      rw [keyed, Bool.and_eq_true] at keyed_
      exact ih (keyed_of_lookup keyed_.2 found) fields below
    | _ => cases found

mutual

/-- A value with every fraction changed. -/
def mapFloats (change : String → String) : Value → Value
  | null => null
  | bool value => bool value
  | number (.float text) => number (.float (change text))
  | number value => number value
  | string value => string value
  | array items => array (mapFloatsItems change items)
  | object fields => object (mapFloatsFields change fields)

/-- The items of an array with every fraction changed. -/
def mapFloatsItems (change : String → String) : List Value → List Value
  | [] => []
  | item :: rest => mapFloats change item :: mapFloatsItems change rest

/-- The fields of an object with every fraction changed. -/
def mapFloatsFields (change : String → String) :
    List (String × Value) → List (String × Value)
  | [] => []
  | (key, value) :: rest => (key, mapFloats change value) :: mapFloatsFields change rest

end

mutual

/-- Changing no fraction changes nothing. -/
theorem mapFloats_id : ∀ value : Value, value.mapFloats id = value
  | null | bool _ | string _ => rfl
  | number (.unsigned _) | number (.negative _) | number (.float _) => rfl
  | array items => congrArg array (mapFloatsItems_id items)
  | object fields => congrArg object (mapFloatsFields_id fields)

/-- Changing no fraction changes no item. -/
theorem mapFloatsItems_id : ∀ items : List Value, mapFloatsItems id items = items
  | [] => rfl
  | item :: rest => by rw [mapFloatsItems, mapFloats_id item, mapFloatsItems_id rest]

/-- Changing no fraction changes no field. -/
theorem mapFloatsFields_id :
    ∀ fields : List (String × Value), mapFloatsFields id fields = fields
  | [] => rfl
  | (key, value) :: rest => by rw [mapFloatsFields, mapFloats_id value, mapFloatsFields_id rest]

end

variable (change : String → String)

/-- Changing fractions commutes with reading a field. -/
@[simp] theorem get_mapFloats (value : Value) (key : String) :
    (value.mapFloats change).get key = (value.get key).map (mapFloats change) := by
  cases value with
  | object fields =>
    simp only [mapFloats, get]
    induction fields with
    | nil => rfl
    | cons field rest ih =>
      obtain ⟨held, value⟩ := field
      simp only [mapFloatsFields, lookup]
      by_cases hit : held = key <;> simp [hit, ih]
  | number value => cases value <;> rfl
  | _ => rfl

/-- Changing fractions commutes with indexing by a key. -/
@[simp] theorem field_mapFloats (value : Value) (key : String) :
    (value.mapFloats change).field key = (value.field key).mapFloats change := by
  cases found : value.get key <;> simp [field, found, mapFloats]

/-- Changing fractions commutes with following a path. -/
theorem pointer_mapFloats (value : Value) (path : List String) :
    (value.mapFloats change).pointer path = (value.pointer path).map (mapFloats change) := by
  induction path generalizing value with
  | nil => rfl
  | cons key path ih =>
    rw [pointer_cons, pointer_cons, get_mapFloats]
    cases value.get key with
    | none => rfl
    | some inner => exact ih inner

/-- Changing fractions changes the items of an array one by one. -/
theorem mapFloatsItems_eq (items : List Value) :
    mapFloatsItems change items = items.map (mapFloats change) := by
  induction items with
  | nil => rfl
  | cons item rest ih => simp [mapFloatsItems, ih]

/-- Changing fractions keeps a string. -/
@[simp] theorem asStr_mapFloats (value : Value) : (value.mapFloats change).asStr = value.asStr := by
  cases value with
  | number value => cases value <;> rfl
  | _ => rfl

/-- Changing fractions keeps a counter. -/
@[simp] theorem asU64_mapFloats (value : Value) : (value.mapFloats change).asU64 = value.asU64 := by
  cases value with
  | number value => cases value <;> rfl
  | _ => rfl

/-- Changing fractions changes the items of an array. -/
@[simp] theorem asArray_mapFloats (value : Value) :
    (value.mapFloats change).asArray = value.asArray.map (List.map (mapFloats change)) := by
  cases value with
  | number value => cases value <;> rfl
  | array items => simp [mapFloats, asArray, mapFloatsItems_eq]
  | _ => rfl

/-- Changing fractions keeps an object an object. -/
theorem isObject_mapFloats {value : Value} (isObject : value.IsObject) :
    (value.mapFloats change).IsObject := by
  cases value with
  | object fields => trivial
  | _ => exact isObject.elim

end Value

/-- `serde_json::from_str` and `serde_json::to_string`. -/
structure SerdeJson where
  /-- Parse a text, or say why it is no JSON. -/
  parse : List Char → Except String Value
  /-- Print a value compactly. -/
  print : Value → String

/-- What is read back from a printed value is that value with its fractions reread. -/
def SerdeJson.ReadsBack (serde : SerdeJson) (reread : String → String) : Prop :=
  ∀ value read, serde.parse (serde.print value).toList = .ok read → read = value.mapFloats reread

/-- What the converters rely on. The parser refuses a value nested too deeply and may round a
fraction, so reading back may fail and may change the fractions. -/
structure SerdeJson.Lawful (serde : SerdeJson) : Prop where
  /-- What is read back from a printed value is that value, up to its fractions. -/
  readsBack : ∃ reread, serde.ReadsBack reread
  /-- A printed value is one line. -/
  oneLine : ∀ value, '\n' ∉ (serde.print value).toList
  /-- A printed object stands between braces. -/
  braces : ∀ fields, ∃ inner, (serde.print (.object fields)).toList = '{' :: inner ++ ['}']

namespace SerdeJson

/-- Parser and printer that know the listed values only, each by its text. Another text does not
parse, and another value is printed as a text that does not. -/
def ofTable (entries : List (String × Value)) : SerdeJson where
  parse text :=
    match entries.find? fun entry => entry.1.toList = text with
    | some entry => .ok entry.2
    | none => .error "expected value"
  print value :=
    match entries.find? fun entry => entry.2 = value with
    | some entry => entry.1
    | none => "{?}"

/-- A text a table may list: one line between braces, and not the text of an unlisted value. -/
def tableText (text : String) : Bool :=
  text ≠ "{?}" ∧ '\n' ∉ text.toList ∧ text.toList.head? = some '{' ∧
    text.toList.tail.getLast? = some '}'

/-- A table of distinct texts is lawful. -/
theorem ofTable_lawful {entries : List (String × Value)}
    (texts : entries.all (fun entry => tableText entry.1) = true)
    (distinct : (entries.map fun entry => entry.1.toList).Nodup) : (ofTable entries).Lawful := by
  have listed : ∀ entry ∈ entries, tableText entry.1 = true := List.all_eq_true.mp texts
  have printed : ∀ value, tableText ((ofTable entries).print value) = true ∨
      (ofTable entries).print value = "{?}" := by
    intro value
    simp only [ofTable]
    split
    · rename_i entry found
      exact Or.inl (listed _ (List.mem_of_find?_eq_some found))
    · exact Or.inr rfl
  refine ⟨⟨id, fun value read reading => ?_⟩, fun value => ?_, fun fields => ?_⟩
  · rw [Value.mapFloats_id]
    simp only [ofTable] at reading
    split at reading <;> cases reading
    rename_i entry found
    have entryText := List.find?_some found
    have inTable := List.mem_of_find?_eq_some found
    split at entryText
    · rename_i other known
      have same : entry = other := by
        have texts : entry.1.toList = other.1.toList := of_decide_eq_true entryText
        exact List.inj_on_of_nodup_map distinct inTable (List.mem_of_find?_eq_some known) texts
      have value := List.find?_some known
      rw [same]
      exact of_decide_eq_true value
    · have unlisted : entry.1 = "{?}" :=
        String.ext (by simpa using of_decide_eq_true entryText)
      have legible := listed entry inTable
      simp [tableText, unlisted] at legible
  · rcases printed value with legible | unlisted
    · simp only [tableText, decide_eq_true_eq] at legible
      exact legible.2.1
    · rw [unlisted]
      decide
  · rcases printed (.object fields) with legible | unlisted
    · simp only [tableText, decide_eq_true_eq] at legible
      obtain ⟨-, -, opens, closes⟩ := legible
      obtain ⟨tail, whole⟩ := List.head?_eq_some_iff.mp opens
      rw [whole, List.tail_cons] at closes
      obtain ⟨inner, last⟩ := List.getLast?_eq_some_iff.mp closes
      exact ⟨inner, by rw [whole, last, List.cons_append]⟩
    · exact ⟨['?'], by rw [unlisted]; rfl⟩

/-- A table of distinct texts reads back the values it lists. -/
theorem ofTable_reads {entries : List (String × Value)} (distinct : (entries.map Prod.fst).Nodup)
    {value : Value} (listed : value ∈ entries.map Prod.snd) :
    (ofTable entries).parse ((ofTable entries).print value).toList = .ok value := by
  obtain ⟨entry, held, isValue⟩ := List.mem_map.mp listed
  have known : (entries.find? fun entry => entry.2 = value).isSome :=
    List.find?_isSome.mpr ⟨entry, held, decide_eq_true isValue⟩
  obtain ⟨printed, isPrinted⟩ := Option.isSome_iff_exists.mp known
  have printedValue : printed.2 = value := by simpa using List.find?_some isPrinted
  have again : (entries.find? fun entry => entry.1.toList = printed.1.toList).isSome :=
    List.find?_isSome.mpr ⟨printed, List.mem_of_find?_eq_some isPrinted, decide_eq_true rfl⟩
  obtain ⟨parsed, isParsed⟩ := Option.isSome_iff_exists.mp again
  have sameText : parsed.1.toList = printed.1.toList := by simpa using List.find?_some isParsed
  have same : parsed = printed := List.inj_on_of_nodup_map distinct
    (List.mem_of_find?_eq_some isParsed) (List.mem_of_find?_eq_some isPrinted)
    (String.toList_inj.mp sameText)
  have text : (ofTable entries).print value = printed.1 := by simp only [ofTable, isPrinted]
  rw [text]
  simp only [ofTable, isParsed, same, printedValue]

/-- A string between quotes; quotes and backslashes are the characters it escapes. -/
def quoted (text : String) : String :=
  "\"" ++ String.ofList (text.toList.flatMap fun letter =>
    if letter = Char.ofNat 34 ∨ letter = Char.ofNat 92 then [Char.ofNat 92, letter]
    else [letter]) ++ "\""

mutual

/-- The compact text of a value whose strings have no control characters. -/
def compact : Value → String
  | .null => "null"
  | .bool value => if value then "true" else "false"
  | .number (.unsigned value) => toString value
  | .number (.negative magnitude) => "-" ++ toString magnitude
  | .number (.float text) => text
  | .string text => quoted text
  | .array items => "[" ++ ",".intercalate (compactItems items) ++ "]"
  | .object fields => "\x7b" ++ ",".intercalate (compactFields fields) ++ "\x7d"

/-- The texts of the items of an array. -/
def compactItems : List Value → List String
  | [] => []
  | item :: rest => compact item :: compactItems rest

/-- The texts of the fields of an object. -/
def compactFields : List (String × Value) → List String
  | [] => []
  | (key, value) :: rest => (quoted key ++ ":" ++ compact value) :: compactFields rest

end

/-- Parser and printer that know the listed values only, each by its compact text. -/
def ofValues (values : List Value) : SerdeJson :=
  ofTable (values.map fun value => (compact value, value))

/-- Values whose texts differ in length are read back. -/
theorem ofValues_reads {values : List Value}
    (distinct : (values.map fun value => (compact value).utf8ByteSize).Nodup) {value : Value}
    (listed : value ∈ values) :
    (ofValues values).parse ((ofValues values).print value).toList = .ok value := by
  refine ofTable_reads (List.Nodup.of_map String.utf8ByteSize ?_) ?_
  · simpa only [List.map_map, Function.comp_def] using distinct
  · simpa only [List.map_map, Function.comp_def, List.map_id'] using listed

end SerdeJson
end Aipass
