import Mathlib.Data.List.Induction

/-!
# Traces

A trace lists what happened, oldest first. It is justified when each of its events is justified by
those before it. What a trace last told of a thing is told by its last event that tells of it.
-/
namespace Aipass.Trace

variable {ε τ : Type}

/-- Each event of a trace is justified by those before it. -/
def Justified (fine : List ε → ε → Prop) (trace : List ε) : Prop :=
  ∀ earlier event later, trace = earlier ++ event :: later → fine earlier event

/-- What a trace last tells. -/
def last (tell : ε → Option τ) (trace : List ε) : Option τ := (trace.filterMap tell).getLast?

variable {fine : List ε → ε → Prop} {trace : List ε} {event : ε} {tell : ε → Option τ}

/-- Nothing has to be justified at the start. -/
theorem justified_nil : Justified fine [] := by
  intro earlier event later same
  simp at same

/-- A trace goes on with a justified event. -/
theorem Justified.concat (justified : Justified fine trace) (holds : fine trace event) :
    Justified fine (trace ++ [event]) := by
  intro earlier other later same
  cases later using List.reverseRecOn with
  | nil =>
    obtain ⟨rfl, last⟩ := List.append_inj' same rfl
    cases last
    exact holds
  | append_singleton later final =>
    rw [← List.cons_append, ← List.append_assoc] at same
    obtain ⟨rfl, -⟩ := List.append_inj' same rfl
    exact justified _ _ _ rfl

/-- A trace goes on with justified events. -/
theorem Justified.append (justified : Justified fine trace) {events : List ε}
    (holds : ∀ front event back, events = front ++ event :: back → fine (trace ++ front) event) :
    Justified fine (trace ++ events) := by
  induction events using List.reverseRecOn with
  | nil =>
    rw [List.append_nil]
    exact justified
  | append_singleton events event ih =>
    rw [← List.append_assoc]
    apply Justified.concat
    · apply ih
      intro front other back same
      apply holds front other (back ++ [event])
      rw [same]
      simp
    · exact holds events event [] rfl

/-- An event tells something new. -/
@[simp] theorem last_concat_of_some {told : τ} (tells : tell event = some told) :
    last tell (trace ++ [event]) = some told := by
  rw [last, List.filterMap_append, List.filterMap_cons_some tells, List.filterMap_nil,
    List.getLast?_concat]

/-- What is told stays when events tell nothing of it. -/
theorem last_append_of_none {events : List ε} (silent : ∀ event ∈ events, tell event = none) :
    last tell (trace ++ events) = last tell trace := by
  have nothing : events.filterMap tell = [] := List.filterMap_eq_nil_iff.mpr silent
  rw [last, List.filterMap_append, nothing, List.append_nil]
  rfl

/-- What is told after more events was told by one of them, or stays. -/
theorem last_append {told : τ} (events : List ε) (tells : last tell trace = some told) :
    last tell (trace ++ events) = some told ∨
      ∃ event ∈ events, ∃ again, tell event = some again ∧
        last tell (trace ++ events) = some again := by
  by_cases silent : ∀ event ∈ events, tell event = none
  · exact .inl ((last_append_of_none silent).trans tells)
  · right
    have some_ : events.filterMap tell ≠ [] := fun none_ =>
      silent (List.filterMap_eq_nil_iff.mp none_)
    have isLast := List.getLast?_eq_some_getLast some_
    obtain ⟨event, listed, tells⟩ := List.mem_filterMap.mp (List.getLast_mem some_)
    refine ⟨event, listed, _, tells, ?_⟩
    rw [last, List.filterMap_append, List.getLast?_append, isLast, Option.some_or]

/-- What is told was told by an event. -/
theorem exists_of_last {told : τ} (tells : last tell trace = some told) :
    ∃ event ∈ trace, tell event = some told :=
  List.mem_filterMap.mp (List.mem_of_getLast? tells)

end Aipass.Trace
