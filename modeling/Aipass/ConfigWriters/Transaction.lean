import Mathlib.Data.List.Nodup
import Aipass.Base.Shared
import Aipass.Values

/-!
# Transactions over credential stores

A transaction replaces what some files and items of the system's credential store hold, and puts
back what they held when a write fails. The tools whose credentials these are may write them at
any time, so a resource is read again right before it is written, and what is found there is
overwritten only if the transaction knows it.
-/
namespace Aipass.ConfigWriters

open Shared

/-- `Resource`. -/
inductive Resource
  | file (path : String)
  | keychain (service account : String)
deriving DecidableEq

/-- What a resource holds, if it is there. -/
abbrev Content := Option Bytes

/-- The size from which a credential file is refused. -/
def maxCredentialBytes : ℕ := 4 * 1024 * 1024

/-- `Resource::read` refuses a file that is too large. -/
def Resource.readable : Resource → Content → Bool
  | .file _, some bytes => bytes.length ≤ maxCredentialBytes
  | _, _ => true

/-- `Change`. -/
structure Change where
  resource : Resource
  before : Content
  after : Content
deriving DecidableEq

/-- `Transaction`, without the metadata, which is the caller's. -/
structure Transaction where
  operationId : Uuid
  committed : Bool
  changes : List Change

/-- Why a transaction stops. -/
inductive Refusal
  /-- A resource cannot be read. -/
  | unavailable
  /-- A resource cannot be written. -/
  | denied
  /-- `tool credentials changed externally`. -/
  | changed
  /-- `tool credentials changed externally; recovery requires retry`. -/
  | requiresRetry
  /-- `tool rollback incomplete; encrypted recovery retained`, because of another. -/
  | incomplete (cause : Refusal)
deriving DecidableEq

/-- The resources, which the tools write too. -/
abbrev Resources := Shared Resource Content

/-- What reads and writes resources. -/
abbrev Writer := Program Resources Refusal

namespace Change

/-- The resource still holds what it held. -/
def checkBefore (change : Change) : Writer Unit := do
  let current ← look Resource.readable .unavailable change.resource
  if current ≠ change.before then Program.fail .changed else return ()

/-- The resource holds what it held, or what the transaction writes. -/
def checkEither (change : Change) : Writer Content := do
  let current ← look Resource.readable .unavailable change.resource
  if current ≠ change.before ∧ current ≠ change.after then Program.fail .requiresRetry
  else return current

/-- What `restore_with` does to one resource. -/
def undo (change : Change) : Writer Unit :=
  if change.before ≠ change.after then do
    let current ← change.checkEither
    if current ≠ change.before then
      put Resource.readable .denied change.resource change.before
    else return ()
  else return ()

end Change

namespace Transaction

/-- `Transaction::restore`. -/
def restore (tx : Transaction) : Writer Unit := do
  tx.changes.forM fun change => do
    let _ ← change.checkEither
    return ()
  tx.changes.reverse.forM Change.undo

/-- What `apply_with` does to one resource. -/
def advance (tx : Transaction) (change : Change) : Writer Unit :=
  if change.before = change.after then return ()
  else do
    change.checkBefore
    match ← (put Resource.readable .denied change.resource change.after : Writer Unit).attempt with
    | .ok _ => return ()
    | .error error =>
      match ← tx.restore.attempt with
      | .ok _ => Program.fail error
      | .error cause => Program.fail (.incomplete cause)

/-- `Transaction::apply`. -/
def apply (tx : Transaction) : Writer Unit := do
  -- the entire preimage is validated before any resource changes
  tx.changes.forM Change.checkBefore
  tx.changes.forM tx.advance

/-- What a transaction may find where it writes. -/
def Knows (tx : Transaction) (resource : Resource) (content : Content) : Prop :=
  ∃ change ∈ tx.changes, change.resource = resource ∧
    (content = change.before ∨ content = change.after)

end Transaction

variable {mid : Resources → Prop} {err : Refusal → Resources → Prop} {world : Resources}

/-- The check before a write. -/
theorem wp_checkBefore (change : Change) {ok : Unit → Resources → Prop} :
    change.checkBefore.wp mid err ok world ↔
      if world.blocked Resource.readable change.resource then err .unavailable world.arrive
      else if world.arrive.held change.resource ≠ change.before then
        err .changed (world.arrive.note change.resource)
      else ok () (world.arrive.note change.resource) := by
  rw [Change.checkBefore, Program.wp_bind, wp_look]
  split
  · exact Iff.rfl
  · split
    · exact Program.wp_fail _
    · exact Program.wp_pure _

/-- The check before something is put back. -/
theorem wp_checkEither (change : Change) {ok : Content → Resources → Prop} :
    change.checkEither.wp mid err ok world ↔
      if world.blocked Resource.readable change.resource then err .unavailable world.arrive
      else if world.arrive.held change.resource ≠ change.before ∧
          world.arrive.held change.resource ≠ change.after then
        err .requiresRetry (world.arrive.note change.resource)
      else ok (world.arrive.held change.resource) (world.arrive.note change.resource) := by
  rw [Change.checkEither, Program.wp_bind, wp_look]
  split
  · exact Iff.rfl
  · split
    · exact Program.wp_fail _
    · exact Program.wp_pure _

namespace Transaction

variable {tx : Transaction} {initial : Resource → Content}

/-- A check keeps the law and what is kept. -/
theorem wp_checkEither_keeps (change : Change) (lawful : Lawful tx.Knows initial world) :
    change.checkEither.wp (fun left => Lawful tx.Knows initial left)
      (fun _ left => Lawful tx.Knows initial left)
      (fun current left => Lawful tx.Knows initial left ∧
        (∀ resource content, Kept resource content world → Kept resource content left) ∧
        left.held change.resource = current ∧
        lastLook left.trace change.resource = some current ∧
        (current = change.before ∨ current = change.after)) world := by
  rw [wp_checkEither]
  split
  · exact lawful.arrive
  · split
    · exact lawful.arrive.note _
    · rename_i known
      refine ⟨lawful.arrive.note _, fun resource content kept => kept.arrive.note _, rfl,
        lastLook_note _ _, ?_⟩
      by_contra neither
      exact known (not_or.mp neither)

/-- Putting one resource back keeps the others. -/
theorem wp_undo {change : Change} (listed : change ∈ tx.changes)
    (lawful : Lawful tx.Knows initial world) :
    change.undo.wp (fun left => Lawful tx.Knows initial left)
      (fun _ left => Lawful tx.Knows initial left)
      (fun _ left => Lawful tx.Knows initial left ∧
        (∀ resource content, resource ≠ change.resource → Kept resource content world →
          Kept resource content left) ∧
        (Kept change.resource change.before world ∨ change.before ≠ change.after →
          Kept change.resource change.before left)) world := by
  rw [Change.undo]
  by_cases same : change.before = change.after
  · rw [if_neg (not_not.mpr same), Program.wp_pure]
    exact ⟨lawful, fun _ _ _ kept => kept, fun known => known.resolve_right (not_not.mpr same)⟩
  · rw [if_pos same, Program.wp_bind]
    refine Program.wp_mono (wp_checkEither_keeps change lawful) (fun _ left => left)
      (fun _ _ left => left) ?_
    rintro current seen ⟨lawful, kept, holds, looked, known⟩
    by_cases done : current = change.before
    · rw [if_neg (not_not.mpr done), Program.wp_pure]
      exact ⟨lawful, fun resource content _ => kept resource content,
        fun _ => Or.inl (holds.trans done)⟩
    · rw [if_pos done, wp_put]
      have written : Lawful tx.Knows initial
          (seen.arrive.set .wrote change.resource change.before) :=
        lawful.arrive.put ((lastLook_arrive seen _).trans looked) ⟨change, listed, rfl, known⟩ _
      split
      · exact lawful.arrive
      · exact ⟨written, written,
          fun resource content differ before => (kept resource content before).arrive.put differ _,
          fun _ => kept_put _ _ _⟩

/-- A transaction that is put back keeps every resource at what it held, wherever it starts. -/
theorem wp_restore (distinct : (tx.changes.map Change.resource).Nodup)
    (lawful : Lawful tx.Knows initial world) :
    tx.restore.wp (fun left => Lawful tx.Knows initial left)
      (fun _ left => Lawful tx.Knows initial left)
      (fun _ left => Lawful tx.Knows initial left ∧
        ∀ change ∈ tx.changes, Kept change.resource change.before left) world := by
  rw [restore, Program.wp_bind]
  have checked : (tx.changes.forM fun change => do
      let _ ← change.checkEither
      return () : Writer Unit).wp (fun left => Lawful tx.Knows initial left)
        (fun _ left => Lawful tx.Knows initial left)
        (fun _ left => Lawful tx.Knows initial left ∧ ∀ change ∈ tx.changes,
          change.before = change.after → Kept change.resource change.before left) world := by
    refine Program.wp_forM tx.changes _ (fun visited left => Lawful tx.Knows initial left ∧
      ∀ change ∈ visited, change.before = change.after →
        Kept change.resource change.before left) ⟨lawful, by simp⟩ ?_
    rintro visited change rest split before ⟨lawful, kept⟩
    rw [Program.wp_bind]
    refine Program.wp_mono (wp_checkEither_keeps change lawful) (fun _ left => left)
      (fun _ _ left => left) ?_
    rintro current left ⟨lawful, frame, holds, -, known⟩
    refine (Program.wp_pure _).mpr ⟨lawful, fun other inside same => ?_⟩
    rcases List.mem_append.mp inside with earlier | last
    · exact frame _ _ (kept other earlier same)
    · rw [List.mem_singleton.mp last] at same ⊢
      exact Or.inl (holds.trans (known.elim id fun after => after.trans same.symm))
  refine Program.wp_mono checked (fun _ left => left) (fun _ _ left => left) ?_
  rintro - middle ⟨lawful, unchanged⟩
  refine Program.wp_mono (Program.wp_forM tx.changes.reverse Change.undo
    (fun visited left => Lawful tx.Knows initial left ∧ ∀ change ∈ tx.changes,
      change.before = change.after ∨ change ∈ visited → Kept change.resource change.before left)
    ⟨lawful, fun change inside known => unchanged change inside (by simpa using known)⟩ ?_)
    (fun _ left => left) (fun _ _ left => left)
    (fun _ left ⟨lawful, kept⟩ =>
      ⟨lawful, fun change inside => kept change inside (Or.inr (List.mem_reverse.mpr inside))⟩)
  rintro visited change rest split before ⟨lawful, kept⟩
  have listed : change ∈ tx.changes := List.mem_reverse.mp (by simp [split])
  refine Program.wp_mono (wp_undo listed lawful) (fun _ left => left) (fun _ _ left => left) ?_
  rintro - left ⟨lawful, frame, own⟩
  refine ⟨lawful, fun other inside known => ?_⟩
  by_cases same : other = change
  · subst same
    by_cases changes : other.before = other.after
    · exact own (Or.inl (kept other inside (Or.inl changes)))
    · exact own (Or.inr changes)
  · refine frame _ _ (fun shared => same (List.inj_on_of_nodup_map distinct inside listed shared))
      (kept other inside (known.imp id fun visited => ?_))
    simpa [same] using visited

end Transaction
end Aipass.ConfigWriters
