import Mathlib.Data.List.Basic
import Mathlib.Data.Nat.Notation

/-!
# Sliding windows

A limiter admits what it is asked for while fewer than a limit of what it admitted is recent. It
keeps a queue of what is recent and forgets the rest. As long as the clock does not go back, no
window of the width of the limiter holds more than the limit of what was admitted, wherever the
window starts.
-/
namespace Aipass.Window

variable {κ : Type}

/-- Whether an entry is recent. -/
def recent (width now : ℕ) (entry : κ × ℕ) : Bool := decide (now - entry.2 < width)

/-- Whether an entry lies in the window that opens at a time. -/
def inside (width opens : ℕ) (entry : κ × ℕ) : Bool :=
  decide (opens ≤ entry.2) && decide (entry.2 < opens + width)

/-- No window holds more than a limit of the chosen entries. -/
def Limited (width limit : ℕ) (chosen : κ → Bool) (log : List (κ × ℕ)) : Prop :=
  ∀ opens, log.countP (fun entry => chosen entry.1 && inside width opens entry) ≤ limit

/-- A queue holds what is recent of a log, now and from now on. -/
def Held (width clock : ℕ) (log queue : List (κ × ℕ)) : Prop :=
  ∀ now, clock ≤ now → log.filter (recent width now) = queue.filter (recent width now)

variable {width limit clock now : ℕ} {chosen : κ → Bool} {log queue : List (κ × ℕ)}

/-- What is recent later is recent before. -/
theorem recent_of_le {later : ℕ} {entry : κ × ℕ} (ordered : now ≤ later)
    (holds : recent width later entry = true) : recent width now entry = true := by
  simp only [recent, decide_eq_true_eq] at holds ⊢
  omega

/-- A queue holds what is recent as the clock goes on. -/
theorem Held.mono (held : Held width clock log queue) (ordered : clock ≤ now) :
    Held width now log queue := fun later after => held later (Nat.le_trans ordered after)

/-- A queue that forgets what is not recent holds what is. -/
theorem Held.retain (held : Held width clock log queue) (ordered : clock ≤ now) :
    Held width now log (queue.filter (recent width now)) := by
  intro later after
  rw [held later (Nat.le_trans ordered after), List.filter_filter]
  apply List.filter_congr
  intro entry _
  cases holds : recent width later entry with
  | false => rfl
  | true => rw [recent_of_le after holds]; rfl

/-- A queue holds what is admitted. -/
theorem Held.push (held : Held width clock log queue) (entry : κ × ℕ) :
    Held width clock (log ++ [entry]) (queue ++ [entry]) := by
  intro later after
  rw [List.filter_append, List.filter_append, held later after]

/-- A limiter that admits only below its limit keeps every window below it. -/
theorem Limited.record (limited : Limited width limit chosen log)
    (held : Held width now log queue) (past : ∀ entry ∈ log, entry.2 ≤ now) {key : κ}
    (below : chosen key = true →
      (queue.filter (recent width now)).countP (fun entry => chosen entry.1) < limit) :
    Limited width limit chosen (log ++ [(key, now)]) := by
  intro opens
  rw [List.countP_append, List.countP_singleton]
  by_cases counted : (chosen key && inside width opens (key, now)) = true
  · rw [if_pos counted]
    rw [Bool.and_eq_true] at counted
    obtain ⟨isChosen, lies⟩ := counted
    have spare := below isChosen
    rw [← held now (Nat.le_refl _), List.countP_filter] at spare
    have fewer : log.countP (fun entry => chosen entry.1 && inside width opens entry) ≤
        log.countP (fun entry => chosen entry.1 && recent width now entry) := by
      apply List.countP_mono_left
      intro entry listed holds
      simp only [Bool.and_eq_true, inside, recent, decide_eq_true_eq] at holds lies ⊢
      have before := past entry listed
      exact ⟨holds.1, by omega⟩
    omega
  · rw [if_neg counted]
    exact limited opens

/-- What is left of a log is limited as the log is. -/
theorem Limited.sublist (limited : Limited width limit chosen log) {part : List (κ × ℕ)}
    (kept : part.Sublist log) : Limited width limit chosen part :=
  fun opens => Nat.le_trans (kept.countP_le) (limited opens)

end Aipass.Window
