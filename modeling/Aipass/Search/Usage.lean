import Mathlib.Algebra.BigOperators.Group.List.Basic
import Mathlib.Algebra.GroupWithZero.Nat
import Aipass.Search.Wire

/-!
# The usage of several rounds

A usage is an object of counters and of further such objects. The usage of a turn is built from
those of its rounds, one after another: a counter is added, an object is built field by field, and
anything else replaces what there was. So each counter is the sum of those of the rounds as long as
nothing replaces it.
-/
namespace Aipass

namespace Value

/-- The counter at a path, a whole number; what is absent counts as zero. -/
def count : List String → Value → ℕ
  | [], value => value.asU64.getD 0
  | key :: path, value => (value.field key).count path

/-- Nothing counts where there is no object. -/
theorem count_of_not_object {value : Value} (other : value.asObject = none) {path : List String}
    (some_ : path ≠ []) : value.count path = 0 := by
  cases path with
  | nil => exact absurd rfl some_
  | cons key path =>
    have none_ : value.field key = .null := by
      cases value with
      | object fields => cases other
      | _ => rfl
    rw [count, none_]
    induction path with
    | nil => rfl
    | cons key path ih => exact ih (List.cons_ne_nil _ _)

/-- Null has no counters. -/
theorem count_null (path : List String) : null.count path = 0 := by
  cases path with
  | nil => rfl
  | cons key path => exact count_of_not_object rfl (List.cons_ne_nil _ _)

end Value

namespace Search

/-- What a value makes of the one that was under its key. -/
def combined (old value : Value) : Value :=
  match value with
  | .number (.unsigned count) => .nat (min ((old.asU64.getD 0) + count) (2 ^ 64 - 1))
  | .object fields => sumUsage old (.object fields)
  | other => other

/-- A field is added. -/
theorem sumFields_cons (total rest : List (String × Value)) (key : String) (value : Value) :
    sumFields total ((key, value) :: rest) =
      sumFields (Value.insertField key (combined ((Value.lookup key total).getD .null) value) total)
        rest := by
  cases value with
  | number number => cases number <;> rfl
  | _ => rfl

/-- The fields of a sum: those that are added change what there was. -/
theorem lookup_sumFields (key : String) {fields : List (String × Value)}
    (distinct : (fields.map Prod.fst).Nodup) (total : List (String × Value)) :
    Value.lookup key (sumFields total fields) =
      match Value.lookup key fields with
      | some value => some (combined ((Value.lookup key total).getD .null) value)
      | none => Value.lookup key total := by
  induction fields generalizing total with
  | nil => rfl
  | cons field rest ih =>
    obtain ⟨held, value⟩ := field
    rw [List.map_cons, List.nodup_cons] at distinct
    rw [sumFields_cons, ih distinct.2, Value.lookup_insertField, Value.lookup]
    by_cases same : held = key
    · subst same
      rw [Value.lookup_of_not_mem distinct.1, if_pos rfl, if_pos rfl]
    · rw [if_neg same, if_neg same]

/-- A field of a sum, which is an object. -/
theorem field_sumUsage {value : Value} (distinct : value.Distinct) (total : Value) (key : String) :
    (sumUsage total value).field key =
      match value.get key with
      | some added => combined (total.field key) added
      | none => total.field key := by
  have fields_ : Value.lookup key (total.asObject.getD []) = total.get key := by
    cases total <;> rfl
  cases value with
  | object fields =>
    have looked := lookup_sumFields key (distinct [] fields rfl) (total.asObject.getD [])
    rw [fields_] at looked
    rw [Value.field, show (sumUsage total (.object fields)).get key =
      Value.lookup key (sumFields (total.asObject.getD []) fields) from rfl, looked]
    simp only [Value.get]
    cases Value.lookup key fields <;> rfl
  | _ => exact congrArg (Option.getD · .null) fields_

/-- What a usage replaces has not been counted: a whole number is added where nothing was but a
number, and 64 bits hold the sum; an object is built where there was no number; anything else stands
where there was nothing. -/
def Adds (counted : List String → ℕ) (usage : Value) : Prop :=
  ∀ path ≠ [], ∀ added, usage.pointer path = some added →
    match added with
    | .number (.unsigned count) =>
      counted path + count < 2 ^ 64 ∧ ∀ below ≠ [], counted (path ++ below) = 0
    | .object _ => counted path = 0
    | _ => ∀ below, counted (path ++ below) = 0

/-- A field of a usage is added to what was counted below it. -/
theorem Adds.get {counted : List String → ℕ} {usage inner : Value} (adds : Adds counted usage)
    {key : String} (found : usage.get key = some inner) :
    Adds (fun path => counted (key :: path)) inner := by
  intro path some_ added reached
  exact adds (key :: path) (List.cons_ne_nil _ _) added
    (by rw [Value.pointer_cons, found]; exact reached)

/-- What is counted, at the paths that there are. -/
theorem Adds.congr {counted other : List String → ℕ} {usage : Value} (adds : Adds counted usage)
    (same : ∀ path ≠ [], counted path = other path) : Adds other usage := by
  intro path some_ added reached
  have holds := adds path some_ added reached
  have below (rest : List String) : counted (path ++ rest) = other (path ++ rest) :=
    same _ (List.append_ne_nil_of_left_ne_nil some_ rest)
  split at holds
  · exact ⟨same path some_ ▸ holds.1, fun rest more => below rest ▸ holds.2 rest more⟩
  · exact same path some_ ▸ holds
  · exact fun rest => below rest ▸ holds rest

/-- A counter of a sum is the sum of the counters. -/
theorem count_sumUsage {total usage : Value} (distinct : usage.Distinct)
    (adds : Adds (fun path => total.count path) usage) {path : List String} (some_ : path ≠ []) :
    (sumUsage total usage).count path = total.count path + usage.count path := by
  induction path generalizing total usage with
  | nil => exact absurd rfl some_
  | cons key path ih =>
    simp only [Value.count, field_sumUsage distinct]
    cases found : usage.get key with
    | none =>
      have absent : usage.field key = .null := by rw [Value.field, found]; rfl
      rw [absent, Value.count_null, Nat.add_zero]
    | some added =>
      have isField : usage.field key = added := by rw [Value.field, found]; rfl
      have holds := adds [key] (List.cons_ne_nil _ _) added
        (by rw [Value.pointer_cons, found]; rfl)
      rw [isField]
      -- What stands where nothing was counted has no counters of its own.
      have replaced (added : Value) (none_ : ∀ below, total.count ([key] ++ below) = 0)
          (same : combined (total.field key) added = added) :
          (combined (total.field key) added).count path =
            (total.field key).count path + added.count path := by
        have old : (total.field key).count path = 0 := none_ path
        rw [same, old, Nat.zero_add]
      cases added with
      | object fields =>
        cases path with
        | nil =>
          have old : (total.field key).count [] = 0 := holds
          rw [old]
          rfl
        | cons next path => exact ih (distinct.get found) (adds.get found) (List.cons_ne_nil _ _)
      | number number =>
        cases number with
        | unsigned added =>
          obtain ⟨fits, below⟩ := holds
          cases path with
          | nil =>
            have sum : (total.field key).asU64.getD 0 + added ≤ 2 ^ 64 - 1 := Nat.le_pred_of_lt fits
            exact Nat.min_eq_left sum
          | cons next path =>
            have old : (total.field key).count (next :: path) = 0 :=
              below _ (List.cons_ne_nil _ _)
            have leaf (count : ℕ) : (Value.number (.unsigned count)).count (next :: path) = 0 :=
              Value.count_of_not_object rfl (List.cons_ne_nil _ _)
            rw [old, leaf]
            exact leaf _
        | _ => exact replaced _ holds rfl
      | _ => exact replaced _ holds rfl

/-- What a usage puts at a path takes the place of a counter there: something other than a counter
at the path, or other than an object on the way to it. -/
def hides : List String → Value → Bool
  | [], value => value.asU64.isNone
  | key :: path, .object fields =>
    match Value.lookup key fields with
    | some value => hides path value
    | none => false
  | _ :: _, _ => true

/-- A number takes the place of every counter below it. -/
theorem count_number (number : Number) (key : String) (path : List String) :
    (Value.number number).count (key :: path) = 0 :=
  Value.count_of_not_object rfl (List.cons_ne_nil _ _)

/-- A counter of what is combined is the sum of the counters up to 64 bits, unless the later value
hides the earlier one. -/
theorem count_combined {old value : Value} (distinct : value.Distinct) (path : List String)
    (fits : old.count path ≤ 2 ^ 64 - 1) :
    (combined old value).count path =
      if hides path value then 0 else min (old.count path + value.count path) (2 ^ 64 - 1) := by
  induction path generalizing old value with
  | nil =>
    cases value with
    | number number => cases number <;> rfl
    | _ => rfl
  | cons key path ih =>
    cases value with
    | object fields =>
      rw [Value.count, combined, field_sumUsage distinct, Value.get, hides]
      cases found : Value.lookup key fields with
      | some added =>
        have reached : (Value.object fields).get key = some added := found
        refine (ih (distinct.get reached) fits).trans ?_
        rw [Value.count, Value.count, Value.field, Value.field, Value.get, found]
        rfl
      | none =>
        have absent : (Value.object fields).count (key :: path) = 0 := by
          rw [Value.count, Value.field, Value.get, found]
          exact Value.count_null path
        rw [absent]
        exact (Nat.min_eq_left fits).symm
    | number number =>
      cases number with
      | unsigned count => exact count_number _ key path
      | _ => exact count_number _ key path
    | _ => exact Value.count_of_not_object rfl (List.cons_ne_nil _ _)

/-- What was counted in the usages of several rounds. -/
def countOf (usages : List Value) (path : List String) : ℕ := (usages.map (Value.count path)).sum

/-- A usage of one counter is added to others of that counter. -/
theorem adds_single {usages : List Value} {key : String} {count : ℕ}
    (flat : ∀ usage ∈ usages, ∃ earlier, usage = .obj [(key, .nat earlier)])
    (fits : countOf usages [key] + count < 2 ^ 64) :
    Adds (countOf usages) (.obj [(key, .nat count)]) := by
  have leaf (count : ℕ) (path : List String) (some_ : path ≠ []) : (Value.nat count).count path = 0 :=
    Value.count_of_not_object rfl some_
  intro path some_ added reached
  cases path with
  | nil => exact absurd rfl some_
  | cons first rest =>
    rw [Value.pointer_cons, Value.get_obj_cons] at reached
    split at reached
    · rename_i same
      subst same
      cases rest with
      | nil =>
        cases reached
        refine ⟨fits, fun below more => ?_⟩
        refine List.sum_eq_zero fun counted listed => ?_
        obtain ⟨usage, isUsage, rfl⟩ := List.mem_map.mp listed
        obtain ⟨earlier, rfl⟩ := flat usage isUsage
        rw [List.singleton_append, Value.count, Value.field, Value.get_obj_cons, if_pos rfl]
        exact leaf earlier below more
      | cons next rest => cases reached
    · cases reached

/-- A total has the counters of all rounds. -/
def Totals (usages : List Value) (total : Value) : Prop :=
  ∀ path ≠ [], total.count path = countOf usages path

/-- Before the first round nothing is counted. -/
theorem totals_nil : Totals [] (.obj []) := by
  intro path some_
  cases path with
  | nil => exact absurd rfl some_
  | cons key path => exact Value.count_null path

/-- A round is added to a total. -/
theorem Totals.add {usages : List Value} {total usage : Value} (totals : Totals usages total)
    (distinct : usage.Distinct) (adds : Adds (countOf usages) usage) :
    Totals (usages ++ [usage]) (sumUsage total usage) := by
  intro path some_
  have counted := adds.congr fun path some_ => (totals path some_).symm
  rw [count_sumUsage distinct counted some_, totals path some_, countOf, countOf, List.map_append,
    List.sum_append, List.map_singleton, List.sum_singleton]

end Search
end Aipass
