import Aipass.Pricing.Groups

/-!
# What a sync does to the assignments

A sync decides on one assignment at a time, and what it makes of one that it may change depends on
the group of the key alone. So each key can be followed by itself through the loop over the keys, and
a second loop over the same keys ends where the first one did, though it may pass through other
assignments on the way.
-/
namespace Aipass.Pricing

variable {φ : Type} [DecidableEq φ] {doubles : Doubles φ}
  {managed : CredentialAssignment φ → Bool} {entryId : Uuid} {secretId : String}
  {next : Option Uuid}

/-- A sync may change an assignment: the user did not set it, and it is managed or free. -/
def Loose (doubles : Doubles φ) (managed : CredentialAssignment φ → Bool)
    (assignment : CredentialAssignment φ) : Prop :=
  assignment.manual = false ∧ (managed assignment = true ∨
    assignment.groupId = none ∧ assignment.multiplier = doubles.one)

instance (assignment : CredentialAssignment φ) : Decidable (Loose doubles managed assignment) := by
  unfold Loose
  infer_instance

/-- The assignment of a key that a sync makes. -/
def assigned (doubles : Doubles φ) (entryId : Uuid) (secretId : String) (groupId : Option Uuid) :
    CredentialAssignment φ :=
  ⟨entryId, secretId, groupId, doubles.one, false⟩

/-- A sync leaves an assignment as it is that it may not change. -/
theorem settle_of_not_loose {assignment : CredentialAssignment φ}
    (held : ¬Loose doubles managed assignment) :
    (assignment.settle doubles (managed assignment) next) = (assignment, false) := by
  unfold CredentialAssignment.settle
  cases manual : assignment.manual with
  | true => rfl
  | false =>
    have notManaged : managed assignment = false := by
      cases is : managed assignment
      · rfl
      · exact absurd ⟨manual, .inl is⟩ held
    have notFree : ¬(assignment.groupId = none ∧ assignment.multiplier = doubles.one) :=
      fun free => held ⟨manual, .inr free⟩
    simp [notManaged, notFree]

/-- What a sync makes of an assignment that it may change. -/
theorem settle_of_loose {assignment : CredentialAssignment φ}
    (loose : Loose doubles managed assignment) :
    (assignment.settle doubles (managed assignment) next).1 =
      assigned doubles assignment.entryId assignment.secretId next := by
  obtain ⟨entryId, secretId, groupId, multiplier, manual⟩ := assignment
  obtain ⟨automatic, may⟩ := loose
  dsimp only at automatic may ⊢
  subst automatic
  unfold CredentialAssignment.settle assigned
  cases next with
  | some next =>
    have may' : (managed ⟨entryId, secretId, groupId, multiplier, false⟩ ||
        (groupId = none && multiplier = doubles.one)) = true := by
      simpa using may
    simp only [Bool.false_eq_true, if_false, Option.isSome_some, may', Bool.and_self, if_true]
    split
    · rfl
    · next same =>
      simp only [Bool.or_eq_true, decide_eq_true_eq, not_or, not_not] at same
      rw [same.1, same.2]
  | none =>
    cases is : managed ⟨entryId, secretId, groupId, multiplier, false⟩ with
    | true => simp
    | false =>
      rcases may with is' | ⟨rfl, rfl⟩
      · rw [is] at is'
        cases is'
      · simp

/-- A sync that reports no change of an assignment has not changed it. -/
theorem settle_unchanged {assignment : CredentialAssignment φ} {may : Bool}
    (unchanged : (assignment.settle doubles may next).2 = false) :
    (assignment.settle doubles may next).1 = assignment := by
  unfold CredentialAssignment.settle at unchanged ⊢
  dsimp only at unchanged ⊢
  split_ifs at unchanged ⊢ <;> rfl

/-- A sync keeps what an assignment is for. -/
theorem key_settle (assignment : CredentialAssignment φ) (may : Bool) :
    (assignment.settle doubles may next).1.key = assignment.key := by
  unfold CredentialAssignment.settle
  dsimp only
  split_ifs <;> rfl

/-- What the body of the loop over the keys makes of the assignment of its key. -/
def settleOne (doubles : Doubles φ) (managed : CredentialAssignment φ → Bool) (entryId : Uuid)
    (secretId : String) (next : Option Uuid) :
    Option (CredentialAssignment φ) → Option (CredentialAssignment φ)
  | none => next.map fun groupId => assigned doubles entryId secretId (some groupId)
  | some assignment => some (assignment.settle doubles (managed assignment) next).1

/-- What the loop over the keys makes of the assignment of one key, from the groups it is given. -/
def settleCell (doubles : Doubles φ) (managed : CredentialAssignment φ → Bool) (entryId : Uuid)
    (secretId : String) :
    List (Option Uuid) → Option (CredentialAssignment φ) → Option (CredentialAssignment φ)
  | [], cell => cell
  | next :: rest, cell => settleCell doubles managed entryId secretId rest
      (settleOne doubles managed entryId secretId next cell)

/-- An assignment that a sync may not change stays as it is. -/
theorem settleCell_of_not_loose {assignment : CredentialAssignment φ}
    (held : ¬Loose doubles managed assignment) (nexts : List (Option Uuid)) :
    settleCell doubles managed entryId secretId nexts (some assignment) = some assignment := by
  induction nexts with
  | nil => rfl
  | cons next rest ih => rw [settleCell, settleOne, settle_of_not_loose held, ih]

/-- What becomes of a key without an assignment becomes of one with an assignment that a sync may
change, if there comes to be one at all. -/
theorem settleCell_none {assignment : CredentialAssignment φ}
    (loose : Loose doubles managed assignment) (key : assignment.key = (entryId, secretId))
    (nexts : List (Option Uuid)) :
    settleCell doubles managed entryId secretId nexts none = none ∨
      settleCell doubles managed entryId secretId nexts none =
        settleCell doubles managed entryId secretId nexts (some assignment) := by
  induction nexts generalizing assignment with
  | nil => exact .inl rfl
  | cons next rest ih =>
    obtain ⟨entry, secret⟩ := Prod.mk.inj key
    rw [settleCell, settleCell, settleOne, settleOne, settle_of_loose loose, entry, secret]
    cases next with
    | some groupId => exact .inr rfl
    | none => exact ih ⟨rfl, .inr ⟨rfl, rfl⟩⟩ rfl

/-- The assignment of a key is one of that key throughout. -/
theorem key_settleCell {nexts : List (Option Uuid)} {cell : Option (CredentialAssignment φ)}
    (key : ∀ assignment, cell = some assignment → assignment.key = (entryId, secretId))
    {result : CredentialAssignment φ}
    (settled : settleCell doubles managed entryId secretId nexts cell = some result) :
    result.key = (entryId, secretId) := by
  induction nexts generalizing cell with
  | nil => exact key result settled
  | cons next rest ih =>
    rw [settleCell] at settled
    apply ih _ settled
    intro assignment made
    cases cell with
    | none =>
      obtain ⟨groupId, -, rfl⟩ := Option.map_eq_some_iff.mp made
      rfl
    | some held =>
      rw [settleOne, Option.some.injEq] at made
      rw [← made, key_settle, key held rfl]

/-- A second loop leaves the assignment of a key as the first loop left it. -/
theorem settleCell_again (nexts : List (Option Uuid)) (cell : Option (CredentialAssignment φ))
    (key : ∀ assignment, cell = some assignment → assignment.key = (entryId, secretId)) :
    settleCell doubles managed entryId secretId nexts
        (settleCell doubles managed entryId secretId nexts cell) =
      settleCell doubles managed entryId secretId nexts cell := by
  cases settled : settleCell doubles managed entryId secretId nexts cell with
  | none =>
    -- a key that has no assignment after the loop had none before it
    cases cell with
    | none => exact settled
    | some assignment =>
      have stays : ∀ (nexts : List (Option Uuid)) (assignment : CredentialAssignment φ),
          settleCell doubles managed entryId secretId nexts (some assignment) ≠ none := by
        intro nexts
        induction nexts with
        | nil => exact fun _ => Option.some_ne_none _
        | cons next rest ih => exact fun _ => ih _
      exact absurd settled (stays nexts assignment)
  | some result =>
    have keyResult := key_settleCell key settled
    by_cases loose : Loose doubles managed result
    · cases cell with
      | none =>
        rcases settleCell_none loose keyResult nexts with absent | same
        · rw [absent] at settled
          cases settled
        · rw [← same, settled]
      | some assignment =>
        by_cases looseFirst : Loose doubles managed assignment
        · cases nexts with
          | nil => rfl
          | cons next rest =>
            obtain ⟨entry, secret⟩ := Prod.mk.inj keyResult
            obtain ⟨entryFirst, secretFirst⟩ := Prod.mk.inj (key assignment rfl)
            rw [settleCell, settleOne, settle_of_loose looseFirst, entryFirst, secretFirst] at settled
            rw [settleCell, settleOne, settle_of_loose loose, entry, secret, settled]
        · rw [settleCell_of_not_loose looseFirst, Option.some.injEq] at settled
          exact absurd (settled ▸ loose) looseFirst
    · exact settleCell_of_not_loose loose nexts

/-- The groups that the loop is given for a key. -/
def nextsFor (entryId : Uuid) (keys : List (String × Option Uuid)) (key : Uuid × String) :
    List (Option Uuid) :=
  if key.1 = entryId then (keys.filter fun secret => secret.1 = key.2).map Prod.snd else []

variable {keys : List (String × Option Uuid)} {assignments : List (CredentialAssignment φ)}
  {changed : Bool}

variable (doubles managed entryId secretId next)

/-- The body of the loop over the keys changes the assignment of its key alone. -/
theorem find_settleKey (key : Uuid × String) :
    Keyed.find CredentialAssignment.key key
        (settleKey doubles managed entryId secretId next assignments).1 =
      if key = (entryId, secretId) then settleOne doubles managed entryId secretId next
        (Keyed.find CredentialAssignment.key key assignments)
      else Keyed.find CredentialAssignment.key key assignments := by
  unfold settleKey
  cases found : Keyed.find CredentialAssignment.key (entryId, secretId) assignments with
  | none =>
    cases next with
    | none =>
      change Keyed.find CredentialAssignment.key key assignments = _
      split
      · next same =>
        rw [same, found]
        rfl
      · rfl
    | some groupId =>
      change Keyed.find _ _ (assignments ++ [assigned doubles entryId secretId (some groupId)]) = _
      rw [Keyed.find_append]
      by_cases same : key = (entryId, secretId)
      · rw [if_pos same, same, found, Option.none_or]
        exact if_pos rfl
      · rw [if_neg same, if_neg (fun held => same held.symm), Option.or_none]
  | some assignment =>
    have keptKey : ∀ item : CredentialAssignment φ, item.key = (entryId, secretId) →
        (assignment.settle doubles (managed assignment) next).1.key = (entryId, secretId) := by
      intro _ _
      rw [key_settle]
      exact (Keyed.find_some found).2
    dsimp only
    rw [Keyed.find_amend keptKey]
    split
    · next same =>
      rw [same, found]
      rfl
    · rfl

/-- The body of the loop over the keys keeps the keys of the assignments, and adds its own at most. -/
theorem keys_settleKey (assignments : List (CredentialAssignment φ)) :
    (settleKey doubles managed entryId secretId next assignments).1.map CredentialAssignment.key =
        assignments.map CredentialAssignment.key ∨
      (entryId, secretId) ∉ assignments.map CredentialAssignment.key ∧
        (settleKey doubles managed entryId secretId next assignments).1.map
          CredentialAssignment.key =
            assignments.map CredentialAssignment.key ++ [(entryId, secretId)] := by
  unfold settleKey
  cases found : Keyed.find CredentialAssignment.key (entryId, secretId) assignments with
  | none =>
    cases next with
    | none => exact .inl rfl
    | some groupId => exact .inr ⟨Keyed.find_eq_none.mp found, by rw [List.map_append]; rfl⟩
  | some assignment =>
    refine .inl (Keyed.keys_amend ?_)
    intro _ _
    rw [key_settle]
    exact (Keyed.find_some found).2

/-- Where the body of the loop over the keys reports no change, it has changed nothing. -/
theorem settleKey_unchanged
    (unchanged : (settleKey doubles managed entryId secretId next assignments).2 = false) :
    (settleKey doubles managed entryId secretId next assignments).1 = assignments := by
  unfold settleKey at unchanged ⊢
  cases found : Keyed.find CredentialAssignment.key (entryId, secretId) assignments with
  | none =>
    rw [found] at unchanged
    cases next with
    | none => rfl
    | some groupId => cases unchanged
  | some assignment =>
    rw [found] at unchanged
    apply Keyed.amend_eq_self
    intro item held
    rw [found, Option.some.injEq] at held
    rw [← held]
    exact settle_unchanged unchanged

/-- The loop over the keys follows each key by itself. -/
theorem find_settleKeys (keys : List (String × Option Uuid))
    (assignments : List (CredentialAssignment φ)) (changed : Bool) (key : Uuid × String) :
    Keyed.find CredentialAssignment.key key
        (settleKeys doubles managed entryId keys (assignments, changed)).1 =
      settleCell doubles managed key.1 key.2 (nextsFor entryId keys key)
        (Keyed.find CredentialAssignment.key key assignments) := by
  induction keys generalizing assignments changed with
  | nil =>
    have none_ : nextsFor entryId [] key = [] := by simp [nextsFor]
    rw [none_]
    rfl
  | cons head rest ih =>
    obtain ⟨secretId, next⟩ := head
    rw [settleKeys, ih, find_settleKey]
    obtain ⟨keyEntry, keySecret⟩ := key
    by_cases entry : keyEntry = entryId
    · subst entry
      by_cases secret : secretId = keySecret
      · subst secret
        simp [nextsFor, settleCell]
      · have differs : ¬(keySecret = secretId) := fun same => secret same.symm
        simp [nextsFor, secret, differs]
    · simp [nextsFor, entry]

/-- The loop over the keys keeps the keys of the assignments and adds new ones. -/
theorem keys_settleKeys (keys : List (String × Option Uuid))
    (assignments : List (CredentialAssignment φ)) (changed : Bool) :
    (∃ more, (settleKeys doubles managed entryId keys (assignments, changed)).1.map
        CredentialAssignment.key = assignments.map CredentialAssignment.key ++ more) ∧
      ((assignments.map CredentialAssignment.key).Nodup →
        ((settleKeys doubles managed entryId keys (assignments, changed)).1.map
          CredentialAssignment.key).Nodup) := by
  induction keys generalizing assignments changed with
  | nil => exact ⟨⟨[], by simp [settleKeys]⟩, id⟩
  | cons head rest ih =>
    obtain ⟨secretId, next⟩ := head
    rw [settleKeys]
    obtain ⟨⟨more, longer⟩, distinct⟩ :=
      ih (settleKey doubles managed entryId secretId next assignments).1
        (changed || (settleKey doubles managed entryId secretId next assignments).2)
    rcases keys_settleKey doubles managed entryId secretId next
      assignments with same | ⟨new, added⟩
    · rw [same] at longer distinct
      exact ⟨⟨more, longer⟩, distinct⟩
    · rw [added] at longer distinct
      refine ⟨⟨(entryId, secretId) :: more, by rw [longer, List.append_assoc]; rfl⟩, ?_⟩
      intro held
      exact distinct (held.append (List.nodup_singleton _) (by simpa using new))

/-- A loop over the keys that reports no change has changed nothing. -/
theorem settleKeys_unchanged
    (unchanged : (settleKeys doubles managed entryId keys (assignments, changed)).2 = false) :
    (settleKeys doubles managed entryId keys (assignments, changed)).1 = assignments ∧
      changed = false := by
  induction keys generalizing assignments changed with
  | nil => exact ⟨rfl, unchanged⟩
  | cons head rest ih =>
    obtain ⟨secretId, next⟩ := head
    rw [settleKeys] at unchanged ⊢
    obtain ⟨kept, quiet⟩ := ih unchanged
    rw [Bool.or_eq_false_iff] at quiet
    exact ⟨kept.trans (settleKey_unchanged _ _ _ _ _ quiet.2), quiet.1⟩

/-- A second loop over the same keys leaves the assignments as the first loop left them. -/
theorem settleKeys_again (distinct : (assignments.map CredentialAssignment.key).Nodup)
    (changed later : Bool) :
    (settleKeys doubles managed entryId keys
        ((settleKeys doubles managed entryId keys (assignments, changed)).1, later)).1 =
      (settleKeys doubles managed entryId keys (assignments, changed)).1 := by
  obtain ⟨-, distinctFirst⟩ := keys_settleKeys doubles managed entryId
    keys assignments changed
  obtain ⟨⟨more, longer⟩, distinctSecond⟩ := keys_settleKeys doubles managed
    entryId keys
    (settleKeys doubles managed entryId keys (assignments, changed)).1 later
  apply Keyed.eq_of_find_append longer (distinctSecond (distinctFirst distinct))
  intro key
  rw [find_settleKeys, find_settleKeys]
  apply settleCell_again
  intro assignment found
  exact (Keyed.find_some found).2

/-- The loop over the keys leaves an assignment as it is that a sync may not change. -/
theorem mem_settleKeys (distinct : (assignments.map CredentialAssignment.key).Nodup)
    {assignment : CredentialAssignment φ} (listed : assignment ∈ assignments)
    (held : ¬Loose doubles managed assignment) :
    assignment ∈ (settleKeys doubles managed entryId keys (assignments, changed)).1 := by
  have found := find_settleKeys doubles managed entryId
    keys assignments changed assignment.key
  rw [Keyed.find_of_mem distinct listed, settleCell_of_not_loose held] at found
  exact (Keyed.find_some found).1

end Aipass.Pricing
