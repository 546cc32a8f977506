import Mathlib.Data.List.Forall2
import Mathlib.Logic.Basic

/-!
# Computations that fail

A sequence of fallible steps succeeds exactly when each step does. The lemma states it for the
`Except` monad, so a proof takes a successful computation apart without unfolding it.
-/
namespace Aipass

variable {ε δ α β : Type}

/-- `Option::ok_or`: name the failure of an absent value. -/
def okOr (error : ε) : Option α → Except ε α
  | some value => .ok value
  | none => .error error

/-- A named failure returns what the option holds. -/
@[simp] theorem okOr_eq_ok {error : ε} {value : Option α} {held : α} :
    okOr error value = .ok held ↔ value = some held := by
  cases value <;> simp [okOr]

/-- A named failure returns a present value. -/
@[simp] theorem okOr_some (error : ε) (value : α) : okOr error (some value) = .ok value := rfl

/-- A named failure fails on an absent value. -/
@[simp] theorem okOr_none (error : ε) : okOr error (none : Option α) = .error error := rfl

/-- `if condition { return Err(error); }`. -/
def refuseIf (condition : Bool) (error : ε) : Except ε Unit :=
  if condition then .error error else .ok ()

/-- A check lets pass what does not meet its condition. -/
@[simp] theorem refuseIf_eq_ok {condition : Bool} {error : ε} {passed : Unit} :
    refuseIf condition error = .ok passed ↔ condition = false := by
  cases condition <;> simp [refuseIf]

/-- An early return of a failure lets pass what does not meet its condition. -/
theorem ite_error_eq_ok {condition : Prop} [Decidable condition] {error : ε} {rest : Except ε α}
    {value : α} :
    (if condition then .error error else rest) = .ok value ↔ ¬condition ∧ rest = .ok value := by
  by_cases held : condition <;> simp [held]

/-- A sequence succeeds exactly when its parts do. -/
theorem bind_eq_ok {first : Except ε α} {next : α → Except ε β} {value : β} :
    first >>= next = .ok value ↔ ∃ middle, first = .ok middle ∧ next middle = .ok value := by
  cases first with
  | error error => simp [bind, Except.bind]
  | ok middle => simp [bind, Except.bind]

/-- A sequence whose first part succeeds is its second part. -/
@[simp] theorem ok_bind (value : α) (next : α → Except ε β) :
    (Except.ok value >>= next) = next value := rfl

/-- A sequence whose first part fails fails with it. -/
@[simp] theorem error_bind (error : ε) (next : α → Except ε β) :
    ((Except.error error : Except ε α) >>= next) = .error error := rfl

/-- Raising a failure is that failure. -/
@[simp] theorem throw_eq_error (error : ε) : (throw error : Except ε α) = .error error := rfl

/-- Renaming a failure keeps the value. -/
@[simp] theorem mapError_eq_ok {raise : ε → δ} {result : Except ε α} {value : α} :
    result.mapError raise = .ok value ↔ result = .ok value := by
  cases result <;> simp [Except.mapError]

/-- A loop succeeds exactly when every pass does. -/
theorem forM_eq_ok {elements : List α} {body : α → Except ε Unit} :
    elements.forM body = .ok () ↔ ∀ element ∈ elements, body element = .ok () := by
  induction elements with
  | nil => simp [List.forM, pure, Except.pure]
  | cons element elements ih =>
    rw [show (element :: elements).forM body = (body element >>= fun _ => elements.forM body)
      from rfl, bind_eq_ok, List.forall_mem_cons, ← ih]
    constructor
    · rintro ⟨⟨⟩, first, rest⟩
      exact ⟨first, rest⟩
    · rintro ⟨first, rest⟩
      exact ⟨(), first, rest⟩

/-- A successful map over a list returns the results of its elements in order. -/
theorem forall₂_mapM {elements : List α} {change : α → Except ε β} {changed : List β}
    (mapped : elements.mapM change = .ok changed) :
    List.Forall₂ (fun element result => change element = .ok result) elements changed := by
  induction elements generalizing changed with
  | nil =>
    simp only [List.mapM_nil, pure, Except.pure, Except.ok.injEq] at mapped
    subst mapped
    exact .nil
  | cons element elements ih =>
    simp only [List.mapM_cons, bind_eq_ok, pure, Except.pure, Except.ok.injEq] at mapped
    obtain ⟨first, isFirst, rest, isRest, rfl⟩ := mapped
    exact .cons isFirst (ih isRest)

/-- Each element of the first of two lists related in order is related to one of the second. -/
theorem exists_of_forall₂_left {related : α → β → Prop} {left : List α} {right : List β}
    (pairs : List.Forall₂ related left right) {element : α} (listed : element ∈ left) :
    ∃ result ∈ right, related element result := by
  induction pairs with
  | nil => cases listed
  | @cons first second _ _ holds _ ih =>
    obtain rfl | later := List.mem_cons.mp listed
    · exact ⟨second, List.mem_cons_self, holds⟩
    · obtain ⟨result, inside, holds⟩ := ih later
      exact ⟨result, List.mem_cons_of_mem _ inside, holds⟩

/-- Each element of the second of two lists related in order is related to one of the first. -/
theorem exists_of_forall₂_right {related : α → β → Prop} {left : List α} {right : List β}
    (pairs : List.Forall₂ related left right) {result : β} (listed : result ∈ right) :
    ∃ element ∈ left, related element result :=
  exists_of_forall₂_left pairs.flip listed

/-- A map over a list that returns something at each element returns these in order. -/
theorem forall₂_mapM_some {elements : List α} {change : α → Option β} {changed : List β}
    (mapped : elements.mapM change = some changed) :
    List.Forall₂ (fun element result => change element = some result) elements changed := by
  induction elements generalizing changed with
  | nil =>
    cases mapped
    exact .nil
  | cons element elements ih =>
    rw [List.mapM_cons] at mapped
    obtain ⟨first, isFirst, mapped⟩ := Option.bind_eq_some_iff.mp mapped
    obtain ⟨rest, isRest, same⟩ := Option.bind_eq_some_iff.mp mapped
    cases same
    exact .cons isFirst (ih isRest)

/-- What a successful map over a list returns are results of its elements. -/
theorem mem_mapM {elements : List α} {change : α → Except ε β} {changed : List β}
    (mapped : elements.mapM change = .ok changed) {result : β} (member : result ∈ changed) :
    ∃ element ∈ elements, change element = .ok result := by
  induction elements generalizing changed with
  | nil =>
    simp only [List.mapM_nil, pure, Except.pure, Except.ok.injEq] at mapped
    simp [← mapped] at member
  | cons element elements ih =>
    simp only [List.mapM_cons, bind_eq_ok, pure, Except.pure, Except.ok.injEq] at mapped
    obtain ⟨first, head, rest, tail, rfl⟩ := mapped
    rcases List.mem_cons.mp member with rfl | later
    · exact ⟨element, List.mem_cons_self, head⟩
    · obtain ⟨source, listed, changes⟩ := ih tail later
      exact ⟨source, List.mem_cons_of_mem _ listed, changes⟩

/-- What every pass of a map over a list keeps is kept. -/
theorem map_mapM {γ : Type} {elements : List α} {change : α → Except ε β} {changed : List β}
    (mapped : elements.mapM change = .ok changed) (before : α → γ) (after : β → γ)
    (kept : ∀ element result, change element = .ok result → after result = before element) :
    changed.map after = elements.map before := by
  induction elements generalizing changed with
  | nil =>
    simp only [List.mapM_nil, pure, Except.pure, Except.ok.injEq] at mapped
    rw [← mapped]
    rfl
  | cons element elements ih =>
    simp only [List.mapM_cons, bind_eq_ok, pure, Except.pure, Except.ok.injEq] at mapped
    obtain ⟨first, head, rest, tail, rfl⟩ := mapped
    rw [List.map_cons, List.map_cons, kept element first head, ih tail]

/-- A map over a list whose passes all succeed succeeds. -/
theorem mapM_eq_map {elements : List α} {change : α → Except ε β} (value : α → β)
    (passes : ∀ element ∈ elements, change element = .ok (value element)) :
    elements.mapM change = .ok (elements.map value) := by
  induction elements with
  | nil => rfl
  | cons element elements ih =>
    rw [List.mapM_cons, passes element List.mem_cons_self,
      ih fun other listed => passes other (List.mem_cons_of_mem _ listed)]
    rfl

/-- A map over a list fails with the failure of one of its elements. -/
theorem mapM_eq_error {elements : List α} {change : α → Except ε β} {error : ε}
    (failed : elements.mapM change = .error error) :
    ∃ element ∈ elements, change element = .error error := by
  induction elements with
  | nil => cases failed
  | cons element elements ih =>
    rw [List.mapM_cons] at failed
    cases head : change element with
    | error other =>
      rw [head, error_bind] at failed
      cases failed
      exact ⟨element, List.mem_cons_self, head⟩
    | ok first =>
      rw [head, ok_bind] at failed
      cases tail : elements.mapM change with
      | error other =>
        rw [tail, error_bind] at failed
        cases failed
        obtain ⟨source, listed, fails⟩ := ih tail
        exact ⟨source, List.mem_cons_of_mem _ listed, fails⟩
      | ok rest =>
        rw [tail] at failed
        cases failed

/-- A fold whose failures are renamed succeeds with what the fold succeeds with. -/
theorem foldlM_mapError {γ : Type} (raise : ε → δ) (step : β → γ → Except ε β)
    (elements : List γ) {start last : β}
    (done : elements.foldlM (fun held element => (step held element).mapError raise) start =
      .ok last) : elements.foldlM step start = .ok last := by
  induction elements generalizing start with
  | nil =>
    simp only [List.foldlM_nil, pure, Except.pure, Except.ok.injEq] at done ⊢
    exact done
  | cons element rest ih =>
    rw [List.foldlM_cons] at done ⊢
    obtain ⟨middle, first, done⟩ := bind_eq_ok.mp done
    rw [mapError_eq_ok.mp first, ok_bind]
    exact ih done

/-- A result is a success or a failure. -/
theorem exists_ok_or_error (result : Except ε α) :
    (∃ value, result = .ok value) ∨ ∃ error, result = .error error := by
  cases result with
  | ok value => exact Or.inl ⟨value, rfl⟩
  | error error => exact Or.inr ⟨error, rfl⟩

end Aipass
