import Mathlib.Data.List.Perm.Basic
import Mathlib.Data.Nat.Notation

/-!
# Announcements and their answers

A notice announces identifiers, answers one, or does neither. Notices are paired when every
announcement is followed at once by one answer to each of its identifiers and no answer stands
anywhere else. A reader that keeps the unanswered identifiers of the last announcement decides
this notice by notice.
-/
namespace Aipass

variable {ι : Type}

/-- A notice about identifiers. -/
inductive Notice (ι : Type)
  /-- Neither an announcement nor an answer. -/
  | other
  /-- Identifiers are announced. -/
  | calls (ids : List ι)
  /-- An identifier is answered. -/
  | answer (id : ι)

/-- Every announcement is followed at once by the answers to exactly its identifiers, and every
answer stands behind an announcement in this way. -/
inductive Paired : List (Notice ι) → Prop
  | nil : Paired []
  | other {rest : List (Notice ι)} (paired : Paired rest) : Paired (.other :: rest)
  | calls {ids answers : List ι} {rest : List (Notice ι)} (exactly : answers.Perm ids)
      (paired : Paired rest) : Paired (.calls ids :: (answers.map .answer ++ rest))

variable [DecidableEq ι]

/-- The unanswered identifiers after a notice, if it may stand there: only an answer to one of
them may stand where there are any. -/
def settle : Option (List ι) → Notice ι → Option (List ι)
  | none, _ => none
  | some waiting, .other => if waiting = [] then some [] else none
  | some waiting, .calls ids => if waiting = [] then some ids else none
  | some waiting, .answer id => if id ∈ waiting then some (waiting.erase id) else none

/-- The unanswered identifiers after notices. -/
def settleAll (waiting : Option (List ι)) (notices : List (Notice ι)) : Option (List ι) :=
  notices.foldl settle waiting

@[simp] theorem settleAll_nil (waiting : Option (List ι)) : settleAll waiting [] = waiting := rfl

@[simp] theorem settleAll_cons (waiting : Option (List ι)) (notice : Notice ι)
    (notices : List (Notice ι)) :
    settleAll waiting (notice :: notices) = settleAll (settle waiting notice) notices := rfl

/-- Notices are read one list after the other. -/
theorem settleAll_append (waiting : Option (List ι)) (notices more : List (Notice ι)) :
    settleAll waiting (notices ++ more) = settleAll (settleAll waiting notices) more :=
  List.foldl_append

/-- What has gone wrong stays wrong. -/
@[simp] theorem settleAll_none (notices : List (Notice ι)) : settleAll none notices = none := by
  induction notices with
  | nil => rfl
  | cons notice notices ih => exact ih

/-- Answers to some of the unanswered identifiers leave the others. -/
theorem settleAll_answers {waiting answers more : List ι}
    (exactly : (answers ++ more).Perm waiting) :
    ∃ left, settleAll (some waiting) (answers.map .answer) = some left ∧ more.Perm left := by
  induction answers generalizing waiting with
  | nil => exact ⟨waiting, rfl, exactly⟩
  | cons id answers ih =>
    have listed : id ∈ waiting := exactly.subset (List.mem_cons_self ..)
    have rest : (answers ++ more).Perm (waiting.erase id) := by
      simpa using exactly.erase id
    rw [List.map_cons, settleAll_cons, settle, if_pos listed]
    exact ih rest

/-- Answers that are read well are to some of the unanswered identifiers. -/
theorem answers_of_settleAll {waiting answers : List ι} {rest : List (Notice ι)}
    (settled : settleAll (some waiting) (answers.map .answer ++ rest) = some []) :
    ∃ left, (answers ++ left).Perm waiting ∧ settleAll (some left) rest = some [] := by
  induction answers generalizing waiting with
  | nil => exact ⟨waiting, .refl _, settled⟩
  | cons id answers ih =>
    rw [List.map_cons, List.cons_append, settleAll_cons] at settled
    by_cases listed : id ∈ waiting
    · rw [settle, if_pos listed] at settled
      obtain ⟨left, exactly, later⟩ := ih settled
      exact ⟨left, (exactly.cons id).trans (List.perm_cons_erase listed).symm, later⟩
    · rw [settle, if_neg listed, settleAll_none] at settled
      cases settled

/-- An answer to an unanswered identifier leaves the others. -/
theorem settle_answer {waiting : List ι} {id : ι} (listed : id ∈ waiting) :
    ∃ left, settle (some waiting) (.answer id) = some left ∧ waiting.Perm (id :: left) :=
  ⟨waiting.erase id, if_pos listed, List.perm_cons_erase listed⟩

/-- Where identifiers wait, only an answer may stand. -/
theorem settle_waiting {waiting : List ι} (some_ : waiting ≠ []) {notice : Notice ι}
    (no_answer : ∀ id, notice = .answer id → id ∉ waiting) :
    settle (some waiting) notice = none := by
  cases notice with
  | other => exact if_neg some_
  | calls ids => exact if_neg some_
  | answer id => exact if_neg (no_answer id rfl)

/-- Notices that leave nothing unanswered start with the answers that are due. -/
theorem answers_of_settled {waiting : List ι} {notices : List (Notice ι)}
    (settled : settleAll (some waiting) notices = some []) :
    ∃ (answers : List ι) (rest : List (Notice ι)), notices = answers.map .answer ++ rest ∧
      answers.Perm waiting ∧
      settleAll (some []) rest = some [] := by
  induction notices generalizing waiting with
  | nil =>
    cases settled
    exact ⟨[], [], rfl, .nil, rfl⟩
  | cons notice notices ih =>
    rw [settleAll_cons] at settled
    cases notice with
    | other =>
      by_cases none_ : waiting = []
      · subst none_
        exact ⟨[], .other :: notices, rfl, .nil, settled⟩
      · rw [settle, if_neg none_, settleAll_none] at settled
        cases settled
    | calls ids =>
      by_cases none_ : waiting = []
      · subst none_
        exact ⟨[], .calls ids :: notices, rfl, .nil, settled⟩
      · rw [settle, if_neg none_, settleAll_none] at settled
        cases settled
    | answer id =>
      by_cases listed : id ∈ waiting
      · rw [settle, if_pos listed] at settled
        obtain ⟨answers, rest, rfl, exactly, later⟩ := ih settled
        exact ⟨id :: answers, rest, rfl,
          (exactly.cons id).trans (List.perm_cons_erase listed).symm, later⟩
      · rw [settle, if_neg listed, settleAll_none] at settled
        cases settled

/-- Notices are paired exactly when reading them leaves nothing unanswered. -/
theorem paired_iff {notices : List (Notice ι)} :
    Paired notices ↔ settleAll (some []) notices = some [] := by
  constructor
  · intro paired
    induction paired with
    | nil => rfl
    | other paired ih => exact ih
    | @calls ids answers rest exactly paired ih =>
      have whole : (answers ++ []).Perm ids := by rwa [List.append_nil]
      obtain ⟨left, settled, none_⟩ := settleAll_answers whole
      rw [settleAll_cons, settle, if_pos rfl, settleAll_append, settled, List.nil_perm.mp none_, ih]
  · intro settled
    induction length : notices.length using Nat.strongRecOn generalizing notices with
    | ind count ih =>
      cases notices with
      | nil => exact .nil
      | cons notice notices =>
        rw [settleAll_cons] at settled
        cases notice with
        | other => exact .other (ih notices.length (by simp [← length]) settled rfl)
        | answer id =>
          rw [settle, if_neg (List.not_mem_nil), settleAll_none] at settled
          cases settled
        | calls ids =>
          rw [settle, if_pos rfl] at settled
          obtain ⟨answers, rest, rfl, exactly, later⟩ := answers_of_settled settled
          refine .calls exactly (ih rest.length ?_ later rfl)
          simp only [← length, List.length_cons, List.length_append, List.length_map]
          omega

/-- Announcing one more identifier in the last place adds it to the unanswered ones. -/
theorem settle_calls_concat (waiting : Option (List ι)) (ids : List ι) (id : ι) :
    settle waiting (.calls (ids ++ [id])) = (settle waiting (.calls ids)).map (· ++ [id]) := by
  cases waiting with
  | none => rfl
  | some waiting =>
    by_cases none_ : waiting = [] <;> simp [settle, none_]

/-- An announcement in the place of another notice adds its identifier. -/
theorem settle_calls_other (waiting : Option (List ι)) (id : ι) :
    settle waiting (.calls [id]) = (settle waiting .other).map (· ++ [id]) := by
  cases waiting with
  | none => rfl
  | some waiting =>
    by_cases none_ : waiting = [] <;> simp [settle, none_]

end Aipass
