import Mathlib.Logic.Basic

/-!
# Programs with durable writes

A program reads and changes a state, may fail, and may be stopped. Some of its changes are
durable writes: each is atomic, and a stop leaves exactly the state after one of them. An
outcome therefore records the state after every durable write besides the result and the last
state. `Program.wp` is the weakest precondition of three postconditions: one for the states at
which the program can be stopped, one for a failure and one for a success. Its rules are
equivalences over the constructors of programs, so a proof unfolds a program step by step, and
`wp_forM` supplies the invariant of a loop.
-/
namespace Aipass

/-- What one run of a program leaves. -/
structure Outcome (σ ε α : Type) where
  /-- The value returned, or the failure raised. -/
  result : Except ε α
  /-- The state at the end of the run. -/
  final : σ
  /-- The state after each durable write, in order. -/
  durable : List σ

/-- A program over states `σ` that fails with `ε` and returns `α`. -/
def Program (σ ε α : Type) : Type := σ → Outcome σ ε α

namespace Program

variable {σ ε α β : Type}

/-- Run a program. -/
def run (program : Program σ ε α) (state : σ) : Outcome σ ε α := program state

/-- Return a value. -/
def ret (value : α) : Program σ ε α := fun state => ⟨.ok value, state, []⟩

/-- Raise a failure. -/
def fail (error : ε) : Program σ ε α := fun state => ⟨.error error, state, []⟩

/-- Run a second program on the value of the first, unless the first fails. -/
def andThen (first : Program σ ε α) (next : α → Program σ ε β) : Program σ ε β := fun state =>
  let head := first.run state
  match head.result with
  | .ok value =>
    let tail := (next value).run head.final
    ⟨tail.result, tail.final, head.durable ++ tail.durable⟩
  | .error error => ⟨.error error, head.final, head.durable⟩

instance : Monad (Program σ ε) where
  pure := ret
  bind := andThen

instance : LawfulMonad (Program σ ε) := LawfulMonad.mk' (Program σ ε)
  (fun program => by
    funext state
    simp only [Functor.map, andThen, run, Function.comp, ret]
    cases program state with
    | mk result final durable => cases result <;> simp)
  (fun value next => by
    funext state
    simp [bind, andThen, run, pure, ret])
  (fun first second third => by
    funext state
    simp only [bind, andThen, run]
    cases first state with
    | mk result final durable =>
      cases result with
      | error error => rfl
      | ok value =>
        simp only
        cases second value final with
        | mk result final durable => cases result <;> simp)

/-- Return the state. -/
def read : Program σ ε σ := fun state => ⟨.ok state, state, []⟩

/-- Change the state in memory; a stop forgets the change. -/
def assign (change : σ → σ) : Program σ ε Unit := fun state => ⟨.ok (), change state, []⟩

/-- One atomic durable write. -/
def write (change : σ → σ) : Program σ ε Unit := fun state =>
  ⟨.ok (), change state, [change state]⟩

/-- A computed result that touches no state. -/
def ofExcept (result : Except ε α) : Program σ ε α := fun state => ⟨result, state, []⟩

/-- Run a program and return its failure as a value. -/
def attempt (program : Program σ ε α) : Program σ ε (Except ε α) := fun state =>
  let inner := program.run state
  ⟨.ok inner.result, inner.final, inner.durable⟩

/-- Run a program of a component on the component inside a larger state. -/
def within {τ δ : Type} (get : τ → σ) (put : σ → τ → τ) (raise : ε → δ)
    (program : Program σ ε α) : Program τ δ α := fun state =>
  let inner := program.run (get state)
  ⟨inner.result.mapError raise, put inner.final state, inner.durable.map (put · state)⟩

/-- The states a stopped run can leave: the state before it and the state after each of its
durable writes. -/
def stops (program : Program σ ε α) (state : σ) : List σ := state :: (program.run state).durable

/-- The weakest precondition: every state after a durable write satisfies `mid`, a failure
satisfies `err` in the last state, and a value satisfies `ok` in the last state. -/
def wp (program : Program σ ε α) (mid : σ → Prop) (err : ε → σ → Prop) (ok : α → σ → Prop)
    (state : σ) : Prop :=
  (∀ left ∈ (program.run state).durable, mid left) ∧
    match (program.run state).result with
    | .ok value => ok value (program.run state).final
    | .error error => err error (program.run state).final

variable {mid : σ → Prop} {err : ε → σ → Prop} {ok : α → σ → Prop} {state : σ}

/-- Returning a value establishes its own postcondition. -/
@[simp] theorem wp_pure (value : α) :
    (pure value : Program σ ε α).wp mid err ok state ↔ ok value state := by
  simp [wp, run, pure, ret]

/-- A failure establishes the failure postcondition. -/
@[simp] theorem wp_fail (error : ε) :
    (fail error : Program σ ε α).wp mid err ok state ↔ err error state := by
  simp [wp, run, fail]

/-- A sequence establishes what its second part establishes after the first. -/
@[simp] theorem wp_bind (first : Program σ ε α) (next : α → Program σ ε β)
    {ok : β → σ → Prop} :
    (first >>= next).wp mid err ok state ↔
      first.wp mid err (fun value after => (next value).wp mid err ok after) state := by
  simp only [wp, run, bind, andThen]
  cases first state with
  | mk result final durable =>
    cases result with
    | error error => simp
    | ok value =>
      simp only [List.mem_append, or_imp, forall_and, and_assoc]

/-- A read hands the state to what follows. -/
@[simp] theorem wp_read {ok : σ → σ → Prop} :
    (read : Program σ ε σ).wp mid err ok state ↔ ok state state := by
  simp [wp, run, read]

/-- A change in memory adds no state at which the program can be stopped. -/
@[simp] theorem wp_assign (change : σ → σ) {ok : Unit → σ → Prop} :
    (assign change : Program σ ε Unit).wp mid err ok state ↔ ok () (change state) := by
  simp [wp, run, assign]

/-- A durable write can be the last thing a stopped program did. -/
@[simp] theorem wp_write (change : σ → σ) {ok : Unit → σ → Prop} :
    (write change : Program σ ε Unit).wp mid err ok state ↔
      mid (change state) ∧ ok () (change state) := by
  simp [wp, run, write]

/-- A computed result either fails or returns its value. -/
@[simp] theorem wp_ofExcept (result : Except ε α) :
    (ofExcept result : Program σ ε α).wp mid err ok state ↔
      match result with
      | .ok value => ok value state
      | .error error => err error state := by
  simp [wp, run, ofExcept]

/-- A failure caught is a value of what follows. -/
@[simp] theorem wp_attempt (program : Program σ ε α) {ok : Except ε α → σ → Prop} :
    program.attempt.wp mid err ok state ↔
      program.wp mid (fun error => ok (.error error)) (fun value => ok (.ok value)) state := by
  simp only [wp, run, attempt]
  cases (program state).result <;> rfl

/-- A component's program establishes, of the larger state, what it establishes of the
component. -/
@[simp] theorem wp_within {τ δ : Type} (get : τ → σ) (put : σ → τ → τ) (raise : ε → δ)
    (program : Program σ ε α) {mid : τ → Prop} {err : δ → τ → Prop} {ok : α → τ → Prop}
    {whole : τ} :
    (program.within get put raise).wp mid err ok whole ↔
      program.wp (fun part => mid (put part whole))
        (fun error part => err (raise error) (put part whole))
        (fun value part => ok value (put part whole)) (get whole) := by
  simp only [wp, run, within, List.forall_mem_map]
  cases (program (get whole)).result <;> rfl

/-- Weaker postconditions have weaker preconditions. -/
theorem wp_mono {program : Program σ ε α} {mid' : σ → Prop} {err' : ε → σ → Prop}
    {ok' : α → σ → Prop} (holds : program.wp mid err ok state)
    (midImplies : ∀ left, mid left → mid' left)
    (errImplies : ∀ error left, err error left → err' error left)
    (okImplies : ∀ value left, ok value left → ok' value left) :
    program.wp mid' err' ok' state := by
  obtain ⟨stopped, ended⟩ := holds
  refine ⟨fun left durable => midImplies left (stopped left durable), ?_⟩
  cases result : (program.run state).result with
  | ok value =>
    rw [result] at ended
    exact okImplies value _ ended
  | error error =>
    rw [result] at ended
    exact errImplies error _ ended

/-- A weaker postcondition for success has a weaker precondition. -/
theorem wp_imp {program : Program σ ε α} {ok' : α → σ → Prop} (holds : program.wp mid err ok state)
    (okImplies : ∀ value left, ok value left → ok' value left) : program.wp mid err ok' state :=
  wp_mono holds (fun _ left => left) (fun _ _ left => left) okImplies

/-- Postconditions that always hold have a precondition that does. -/
theorem wp_of_forall {program : Program σ ε α} (midHolds : ∀ left, mid left)
    (errHolds : ∀ error left, err error left) (okHolds : ∀ value left, ok value left) :
    program.wp mid err ok state := by
  refine ⟨fun left _ => midHolds left, ?_⟩
  cases (program.run state).result with
  | ok value => exact okHolds value _
  | error error => exact errHolds error _

/-- A loop over a list keeps an invariant of the elements already visited. -/
theorem wp_forM (elements : List α) (body : α → Program σ ε PUnit)
    (inv : List α → σ → Prop) (start : inv [] state)
    (step : ∀ visited element rest, elements = visited ++ element :: rest → ∀ before,
      inv visited before →
        (body element).wp mid err (fun _ after => inv (visited ++ [element]) after) before) :
    (elements.forM body).wp mid err (fun _ after => inv elements after) state := by
  suffices general : ∀ (rest visited : List α) (before : σ), elements = visited ++ rest →
      inv visited before → (rest.forM body).wp mid err (fun _ after => inv elements after) before by
    exact general elements [] state rfl start
  intro rest
  induction rest with
  | nil =>
    intro visited before split held
    simp only [List.append_nil] at split
    subst split
    simpa [List.forM] using held
  | cons element rest ih =>
    intro visited before split held
    change ((body element) >>= fun _ => rest.forM body).wp mid err _ before
    rw [wp_bind]
    refine wp_mono (step visited element rest split before held) (fun _ h => h)
      (fun _ _ h => h) ?_
    intro _ after reached
    exact ih (visited ++ [element]) after (by simpa using split) reached

/-- A fold over a list keeps an invariant of the elements already visited and the value built
from them. -/
theorem wp_foldlM (elements : List α) (body : β → α → Program σ ε β) (initial : β)
    (inv : List α → β → σ → Prop) (start : inv [] initial state)
    (step : ∀ visited element rest, elements = visited ++ element :: rest → ∀ built before,
      inv visited built before →
        (body built element).wp mid err (fun next after => inv (visited ++ [element]) next after)
          before) :
    (elements.foldlM body initial).wp mid err (fun built after => inv elements built after)
      state := by
  suffices general : ∀ (rest visited : List α) (built : β) (before : σ),
      elements = visited ++ rest → inv visited built before →
        (rest.foldlM body built).wp mid err (fun built after => inv elements built after)
          before by
    exact general elements [] initial state rfl start
  intro rest
  induction rest with
  | nil =>
    intro visited built before split held
    simp only [List.append_nil] at split
    subst split
    simpa using held
  | cons element rest ih =>
    intro visited built before split held
    rw [List.foldlM_cons, wp_bind]
    refine wp_mono (step visited element rest split built before held) (fun _ h => h)
      (fun _ _ h => h) ?_
    intro next after reached
    exact ih (visited ++ [element]) next after (by simpa using split) reached

/-- A successful run satisfies the success postcondition. -/
theorem wp_ok {program : Program σ ε α} (holds : program.wp mid err ok state) {value : α}
    (returned : (program.run state).result = .ok value) :
    ok value (program.run state).final := by
  have ended := holds.2
  rwa [returned] at ended

/-- A run that cannot fail and can return one value only returns it. -/
theorem result_of_wp {program : Program σ ε α} {only : α}
    (holds : program.wp mid (fun _ _ => False) (fun value _ => value = only) state) :
    (program.run state).result = .ok only := by
  have ended := holds.2
  cases result : (program.run state).result with
  | ok value =>
    rw [result] at ended
    rw [show value = only from ended]
  | error error =>
    rw [result] at ended
    exact ended.elim

/-- A failed run satisfies the failure postcondition. -/
theorem wp_error {program : Program σ ε α} (holds : program.wp mid err ok state) {error : ε}
    (raised : (program.run state).result = .error error) :
    err error (program.run state).final := by
  have ended := holds.2
  rwa [raised] at ended

/-- A run whose end satisfies a property whether it failed or not leaves a state with it. -/
theorem wp_final {program : Program σ ε α} (inv stop : σ → Prop)
    (holds : program.wp stop (fun _ => inv) (fun _ => inv) state) :
    inv (program.run state).final := by
  have ended := holds.2
  cases result : (program.run state).result with
  | ok value => rwa [result] at ended
  | error error => rwa [result] at ended

/-- A run that cannot fail leaves a state with its success postcondition. -/
theorem wp_total {program : Program σ ε α} {inv : σ → Prop} (stop : σ → Prop)
    (holds : program.wp stop (fun _ _ => False) (fun _ => inv) state) :
    inv (program.run state).final :=
  wp_final _ stop (wp_mono holds (fun _ left => left) (fun _ _ none => none.elim)
    (fun _ _ left => left))

/-- A stopped run leaves the state before it or a state that satisfies the stop
postcondition. -/
theorem wp_stops {program : Program σ ε α} (holds : program.wp mid err ok state)
    (before : mid state) : ∀ left ∈ program.stops state, mid left := by
  intro left stopped
  rcases List.mem_cons.mp stopped with rfl | durable
  · exact before
  · exact holds.1 left durable

/-- A program keeps an invariant when every state it leaves, stopped, failed or done, satisfies
it. -/
def Keeps (inv : σ → Prop) (program : Program σ ε α) : Prop :=
  ∀ state, inv state → program.wp inv (fun _ => inv) (fun _ => inv) state

section Keeps

variable {inv : σ → Prop}

/-- Returning a value keeps every invariant. -/
theorem keeps_pure (value : α) : (pure value : Program σ ε α).Keeps inv :=
  fun _ held => (wp_pure value).mpr held

/-- Failing keeps every invariant. -/
theorem keeps_fail (error : ε) : (fail error : Program σ ε α).Keeps inv :=
  fun _ held => (wp_fail error).mpr held

/-- A sequence keeps what its parts keep. -/
theorem Keeps.bind {first : Program σ ε α} {next : α → Program σ ε β}
    (head : first.Keeps inv) (tail : ∀ value, (next value).Keeps inv) :
    (first >>= next).Keeps inv := fun state held =>
  (wp_bind first next).mpr <| wp_mono (head state held) (fun _ left => left)
    (fun _ _ left => left) fun value left => tail value left

/-- What follows a read may assume the invariant of the state it is handed. -/
theorem keeps_read {next : σ → Program σ ε β}
    (tail : ∀ state, inv state → (next state).Keeps inv) : (read >>= next).Keeps inv :=
  fun state held => by
    rw [wp_bind, wp_read]
    exact tail state held state held

/-- What follows a computed result may assume that it was computed. -/
theorem keeps_ofExcept {result : Except ε α} {next : α → Program σ ε β}
    (tail : ∀ value, result = .ok value → (next value).Keeps inv) :
    (ofExcept result >>= next).Keeps inv := fun state held => by
  rw [wp_bind, wp_ofExcept]
  cases computed : result with
  | ok value => exact tail value computed state held
  | error error => exact held

/-- A choice keeps what both its branches keep. -/
theorem keeps_ite {condition : Prop} [Decidable condition] {left right : Program σ ε α}
    (first : condition → left.Keeps inv) (second : ¬ condition → right.Keeps inv) :
    (if condition then left else right).Keeps inv := by
  by_cases holds : condition
  · rw [if_pos holds]
    exact first holds
  · rw [if_neg holds]
    exact second holds

/-- A durable write keeps an invariant that it preserves. -/
theorem keeps_write {change : σ → σ} (preserved : ∀ state, inv state → inv (change state)) :
    (write change : Program σ ε Unit).Keeps inv := fun state held =>
  (wp_write change).mpr ⟨preserved state held, preserved state held⟩

/-- Catching a failure keeps what the program keeps. -/
theorem Keeps.attempt {program : Program σ ε α} (keeps : program.Keeps inv) :
    program.attempt.Keeps inv := fun state held => (wp_attempt program).mpr (keeps state held)

/-- A loop keeps what every pass keeps. -/
theorem keeps_forM {elements : List α} {body : α → Program σ ε PUnit}
    (passes : ∀ element ∈ elements, (body element).Keeps inv) :
    (elements.forM body).Keeps inv := fun _ held =>
  wp_forM elements body (fun _ => inv) held fun visited element rest split before kept =>
    passes element (by simp [split]) before kept

end Keeps

end Program
end Aipass
