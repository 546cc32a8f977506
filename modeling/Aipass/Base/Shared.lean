import Mathlib.Logic.Function.Basic
import Aipass.Base.Program

/-!
# A store shared with an outside writer

A program looks at the keys of a store and writes them, one at a time, while somebody else may
write any of them before each of its steps. A step may fail, and fails at a key that holds what
cannot be read; a write that fails changes nothing. The store keeps a trace of what has happened to it, so that a postcondition can speak of
what was written, by whom, and of what had been seen before.
-/
namespace Aipass

/-- What happens to a shared store. -/
inductive Happening (κ ν : Type)
  /-- The program looked at a key and saw a value. -/
  | looked (key : κ) (value : ν)
  /-- The program wrote a key. -/
  | wrote (key : κ) (value : ν)
  /-- Somebody else wrote a key. -/
  | intruded (key : κ) (value : ν)
deriving DecidableEq

/-- A store that somebody else writes too. -/
structure Shared (κ ν : Type) where
  held : κ → ν
  /-- What others are going to write, by the step of the program before which they do. -/
  intrusions : List (List (κ × ν)) := []
  /-- Which of the steps to come fail. -/
  failures : List Bool := []
  /-- What has happened, the latest first. -/
  trace : List (Happening κ ν) := []

namespace Shared

variable {κ ν ε : Type} [DecidableEq κ]

/-- A key is written. -/
def set (store : Shared κ ν) (happening : κ → ν → Happening κ ν) (key : κ) (value : ν) :
    Shared κ ν :=
  { store with
    held := Function.update store.held key value, trace := happening key value :: store.trace }

/-- A key is looked at. -/
def note (store : Shared κ ν) (key : κ) : Shared κ ν :=
  { store with trace := .looked key (store.held key) :: store.trace }

/-- Others write before a step, and the step is drawn. -/
def arrive (store : Shared κ ν) : Shared κ ν :=
  { (store.intrusions.headD []).foldl (fun store write => store.set .intruded write.1 write.2)
      store with
    intrusions := store.intrusions.tail, failures := store.failures.tail }

section Steps

variable (readable : κ → ν → Bool)

/-- Whether the next step fails at a key. -/
def blocked (store : Shared κ ν) (key : κ) : Bool :=
  store.failures.headD false || !readable key (store.arrive.held key)

/-- Look at a key. -/
def look (error : ε) (key : κ) : Program (Shared κ ν) ε ν := do
  let before ← Program.read
  Program.assign arrive
  if before.blocked readable key then Program.fail error
  else
    Program.assign fun store => store.note key
    let store ← Program.read
    return store.held key

/-- Write a key. -/
def put (error : ε) (key : κ) (value : ν) : Program (Shared κ ν) ε Unit := do
  let before ← Program.read
  Program.assign arrive
  if before.blocked readable key then Program.fail error
  else Program.write fun store => store.set .wrote key value

end Steps

/-- A key holds a value, or what somebody else wrote to it. -/
def Kept (key : κ) (value : ν) (store : Shared κ ν) : Prop :=
  store.held key = value ∨ .intruded key (store.held key) ∈ store.trace

/-- What the program wrote to a key, the latest first. -/
def writes (trace : List (Happening κ ν)) (key : κ) : List ν :=
  trace.filterMap fun
    | .wrote other value => if other = key then some value else none
    | .looked _ _ | .intruded _ _ => none

/-- What the program saw when it last looked at a key. -/
def lastLook (trace : List (Happening κ ν)) (key : κ) : Option ν :=
  trace.findSome? fun
    | .looked other value => if other = key then some value else none
    | .wrote _ _ | .intruded _ _ => none

/-- The program wrote a key only when what it had seen there last was among certain values. -/
def Guarded (allowed : κ → ν → Prop) : List (Happening κ ν) → Prop
  | [] => True
  | .wrote key _ :: earlier =>
    (∃ seen, lastLook earlier key = some seen ∧ allowed key seen) ∧ Guarded allowed earlier
  | .looked _ _ :: earlier | .intruded _ _ :: earlier => Guarded allowed earlier

variable {readable : κ → ν → Bool} {mid : Shared κ ν → Prop} {err : ε → Shared κ ν → Prop}
  {store : Shared κ ν}

/-- Looking at a key fails or shows what it holds. -/
@[simp] theorem wp_look (error : ε) (key : κ) {ok : ν → Shared κ ν → Prop} :
    (look readable error key).wp mid err ok store ↔
      if store.blocked readable key then err error store.arrive
      else ok (store.arrive.held key) (store.arrive.note key) := by
  simp only [look, Program.wp_bind, Program.wp_read, Program.wp_assign]
  split
  · exact Program.wp_fail error
  · simp only [Program.wp_bind, Program.wp_assign, Program.wp_read, Program.wp_pure]
    exact Iff.rfl

/-- Writing a key fails or changes it. -/
@[simp] theorem wp_put (error : ε) (key : κ) (value : ν) {ok : Unit → Shared κ ν → Prop} :
    (put readable error key value).wp mid err ok store ↔
      if store.blocked readable key then err error store.arrive
      else mid (store.arrive.set .wrote key value) ∧
        ok () (store.arrive.set .wrote key value) := by
  simp only [put, Program.wp_bind, Program.wp_read, Program.wp_assign]
  split <;> simp

/-- What others write keeps what each of their writes keeps. -/
theorem arrive_induction (inv : Shared κ ν → Prop)
    (writes : ∀ store key value, inv store → inv (store.set .intruded key value))
    (drawn : ∀ (store : Shared κ ν) intrusions failures, inv store →
      inv { store with intrusions, failures }) (held : inv store) : inv store.arrive := by
  suffices general : ∀ (pending : List (κ × ν)) (store : Shared κ ν), inv store →
      inv (pending.foldl (fun store write => store.set .intruded write.1 write.2) store) from
    drawn _ _ _ (general _ _ held)
  intro pending
  induction pending with
  | nil => exact fun _ held => held
  | cons write pending ih => exact fun store held => ih _ (writes store write.1 write.2 held)

/-- What others write does not spoil a key. -/
theorem Kept.arrive {key : κ} {value : ν} (kept : Kept key value store) :
    Kept key value store.arrive := by
  refine arrive_induction (Kept key value) (fun store other written kept => ?_) (fun _ _ _ kept => kept) kept
  by_cases same : key = other
  · subst same
    exact Or.inr (by simp [set])
  · rcases kept with held | intruded
    · exact Or.inl (by simp [set, same, held])
    · exact Or.inr (by simp [set, same, intruded])

omit [DecidableEq κ] in
/-- Looking at a key does not spoil another. -/
theorem Kept.note {key : κ} {value : ν} (kept : Kept key value store) (other : κ) :
    Kept key value (store.note other) :=
  kept.imp id fun intruded => List.mem_cons_of_mem _ intruded

/-- Writing another key does not spoil a key. -/
theorem Kept.put {key : κ} {value : ν} (kept : Kept key value store) {other : κ}
    (differ : key ≠ other) (written : ν) : Kept key value (store.set .wrote other written) := by
  rcases kept with held | intruded
  · exact Or.inl (by simp [set, differ, held])
  · exact Or.inr (by simp [set, differ, intruded])

/-- A key that is written is kept at what is written. -/
theorem kept_put (store : Shared κ ν) (key : κ) (value : ν) :
    Kept key value (store.set .wrote key value) :=
  Or.inl (by simp [set])

/-- What others write is nothing the program writes. -/
@[simp] theorem writes_arrive (store : Shared κ ν) (key : κ) :
    writes store.arrive.trace key = writes store.trace key := by
  refine arrive_induction (fun after => writes after.trace key = writes store.trace key)
    (fun after other value same => ?_) (fun _ _ _ same => same) rfl
  simpa [set, writes] using same

/-- Looking is no writing. -/
@[simp] theorem writes_note (store : Shared κ ν) (other key : κ) :
    writes (store.note other).trace key = writes store.trace key := by
  simp [note, writes]

/-- What the program writes to a key comes first. -/
theorem writes_put (store : Shared κ ν) (other : κ) (value : ν) (key : κ) :
    writes (store.set .wrote other value).trace key =
      if other = key then value :: writes store.trace key else writes store.trace key := by
  by_cases same : other = key <;> simp [set, writes, same]

/-- What others write is not seen yet. -/
@[simp] theorem lastLook_arrive (store : Shared κ ν) (key : κ) :
    lastLook store.arrive.trace key = lastLook store.trace key := by
  refine arrive_induction (fun after => lastLook after.trace key = lastLook store.trace key)
    (fun after other value same => ?_) (fun _ _ _ same => same) rfl
  simpa [set, lastLook] using same

/-- A look shows what the key holds. -/
@[simp] theorem lastLook_note (store : Shared κ ν) (key : κ) :
    lastLook (store.note key).trace key = some (store.held key) := by
  simp [note, lastLook]

/-- What holds of a store that a program goes on with: the program wrote only over what it was
allowed to, and a key holds what the program wrote to it last, or what it held at the beginning,
unless somebody else wrote it. -/
structure Lawful (allowed : κ → ν → Prop) (initial : κ → ν) (store : Shared κ ν) : Prop where
  guarded : Guarded allowed store.trace
  latest : ∀ key, Kept key ((writes store.trace key).headD (initial key)) store

/-- Nothing has happened yet. -/
theorem lawful_start (allowed : κ → ν → Prop) {store : Shared κ ν} (fresh : store.trace = []) :
    Lawful allowed store.held store := by
  refine ⟨by rw [fresh]; trivial, fun key => Or.inl ?_⟩
  rw [fresh]
  rfl

variable {allowed : κ → ν → Prop} {initial : κ → ν}

/-- What others write breaks no law. -/
theorem Lawful.arrive (lawful : Lawful allowed initial store) :
    Lawful allowed initial store.arrive where
  guarded := arrive_induction (fun store => Guarded allowed store.trace)
    (fun _ _ _ guarded => guarded) (fun _ _ _ guarded => guarded) lawful.guarded
  latest := fun key => by
    rw [writes_arrive]
    exact (lawful.latest key).arrive

/-- Looking breaks no law. -/
theorem Lawful.note (lawful : Lawful allowed initial store) (other : κ) :
    Lawful allowed initial (store.note other) where
  guarded := lawful.guarded
  latest := fun key => by
    rw [writes_note]
    exact (lawful.latest key).note other

/-- A write that follows a look is lawful if what was seen may be overwritten. -/
theorem Lawful.put (lawful : Lawful allowed initial store) {other : κ} {seen : ν}
    (last : lastLook store.trace other = some seen) (fine : allowed other seen) (value : ν) :
    Lawful allowed initial (store.set .wrote other value) where
  guarded := ⟨⟨seen, last, fine⟩, lawful.guarded⟩
  latest := fun key => by
    rw [writes_put]
    by_cases same : other = key
    · subst same
      rw [if_pos rfl, List.headD_cons]
      exact kept_put store other value
    · rw [if_neg same]
      exact (lawful.latest key).put (Ne.symm same) value

/-- A key that the program has not written is kept. -/
theorem Lawful.unwritten (lawful : Lawful allowed initial store) {key : κ}
    (none_ : writes store.trace key = []) : Kept key (initial key) store := by
  have latest := lawful.latest key
  rwa [none_] at latest

/-- A key that the program has written last is kept at what it wrote. -/
theorem Lawful.written (lawful : Lawful allowed initial store) {key : κ} {value : ν}
    {earlier : List ν} (found : writes store.trace key = value :: earlier) :
    Kept key value store := by
  have latest := lawful.latest key
  rwa [found] at latest

end Shared
end Aipass
