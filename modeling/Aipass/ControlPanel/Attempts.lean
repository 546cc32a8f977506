import Aipass.ControlPanel.Moves

/-!
# The mutex of the session and the limits of the panel

The session mutex has one holder. Of the attempts to sign in one at a time comes to the comparison
of its code, and in any minute few do. The panel never has more than thirty-two sessions.
-/
namespace Aipass.ControlPanel

variable {sha256 : String → Digest} {world next : World} {thread : ℕ}

/-- What holds of the stage a thread comes to, and of the others, holds of all. -/
theorem forall_update {threads : ℕ → Stage} {stage : Stage} (kept : ℕ → Stage → Prop)
    (own : kept thread stage) (others : ∀ other ≠ thread, kept other (threads other)) (other : ℕ) :
    kept other (Function.update threads thread stage other) := by
  by_cases same : other = thread
  · rw [same, Function.update_self]
    exact own
  · rw [Function.update_of_ne same]
    exact others other same

/-! ## The session mutex -/

/-- Only the holder of the session mutex is where it is held. -/
def World.Exclusive (world : World) : Prop :=
  ∀ thread, (world.threads thread).holds = true → world.holder = some thread

/-- A thread that does not come to hold the mutex leaves it to its holder. -/
theorem World.Exclusive.keep (exclusive : world.Exclusive) {stage : Stage}
    (same : stage.holds = true → (world.threads thread).holds = true) (other : ℕ) :
    (Function.update world.threads thread stage other).holds = true →
      world.holder = some other :=
  forall_update (fun other stage => stage.holds = true → world.holder = some other)
    (fun holds => exclusive thread (same holds)) (fun other _ => exclusive other) other

/-- A thread takes the mutex when it is free. -/
theorem World.Exclusive.take (exclusive : world.Exclusive) (free : world.holder = none)
    (stage : Stage) (other : ℕ) :
    (Function.update world.threads thread stage other).holds = true →
      some thread = some other := by
  apply forall_update fun other stage => stage.holds = true → some thread = some other
  · exact fun _ => rfl
  · intro other _ holds
    rw [exclusive other holds] at free
    cases free

/-- The holder gives the mutex back. -/
theorem World.Exclusive.leave (exclusive : world.Exclusive)
    (held : (world.threads thread).holds = true) {stage : Stage} (outside : stage.holds = false)
    (other : ℕ) :
    (Function.update world.threads thread stage other).holds = true →
      (none : Option ℕ) = some other := by
  apply forall_update
    fun other stage => stage.holds = true → (none : Option ℕ) = some other
  · intro holds
    rw [outside] at holds
    cases holds
  · intro other differs holds
    have same := (exclusive thread held).symm.trans (exclusive other holds)
    exact absurd (Option.some.inj same).symm differs

/-- A thread that goes on by itself keeps the mutex to one holder. -/
theorem Passes.exclusive {stage : Stage} {holder : Option ℕ}
    (went : Passes world thread stage holder) (exclusive : world.Exclusive) :
    ({ world with holder, threads := Function.update world.threads thread stage } :
      World).Exclusive := by
  cases went with
  | malformed | stamp | ended | goOn =>
    apply exclusive.keep
    intro holds
    cases holds
  | refuse at_ | unissued at_ | matched at_ | checked at_ =>
    apply exclusive.keep
    intro _
    rw [at_]
    rfl
  | hold _ free | enter _ _ free => exact exclusive.take free _
  | leave at_ | deny at_ | exit at_ =>
    apply exclusive.leave _ rfl
    rw [at_]
    rfl

/-- A step keeps the mutex to one holder. -/
theorem Moved.exclusive (moved : Moved sha256 world next) (exclusive : world.Exclusive) :
    next.Exclusive := by
  cases moved with
  | tick | stay | limited | vaultChanged => exact exclusive
  | passes went => exact went.exclusive exclusive
  | permitted | answered | authorized | loggedOut | previewed | saved | dropped | took | applied
  | locked =>
    apply exclusive.keep
    intro holds
    cases holds
  | compared at_ | accepted at_ | opened at_ | drawn at_ | pruned at_ | issued at_ | loaded at_
  | ran at_ =>
    apply exclusive.keep
    intro _
    rw [at_]
    rfl
  | revokedAll revokes =>
    cases revokes with
    | host => exact exclusive
    | task =>
      apply exclusive.keep
      intro holds
      cases holds
    | rotation at_ =>
      apply exclusive.leave _ rfl
      rw [at_]
      rfl
  | rotated _ free => exact exclusive.take free _

/-! ## Attempts to sign in -/

/-- The attempt that an event permits. -/
def Event.permit? : Event → Option (IpAddr × Instant)
  | .permitted ip time => some (ip, time)
  | _ => none

/-- The attempt whose code an event compares, by the time it was permitted. -/
def Event.compare? : Event → Option (IpAddr × Instant)
  | .compared ip time _ => some (ip, time)
  | _ => none

/-- The attempts permitted in a trace. -/
def permits (trace : List Event) : List (IpAddr × Instant) := trace.filterMap Event.permit?

/-- The attempts of a trace that came to the comparison of their code. -/
def compares (trace : List Event) : List (IpAddr × Instant) := trace.filterMap Event.compare?

/-- Whether the code of an attempt is still to be compared. -/
def Attempt.waits : Attempt → Bool
  | .permitted _ | .stamped .. | .holding .. => true
  | _ => false

/-- The attempts of the agent are few, and made one at a time. -/
structure World.Limited (world : World) : Prop where
  /-- An attempt has the guard. -/
  busy : ∀ thread ip time attempt, world.threads thread = .attempt ip time attempt →
    world.panel.loginBusy = true
  /-- There is one attempt at a time. -/
  alone : ∀ thread other ip time attempt ip' time' attempt',
    world.threads thread = .attempt ip time attempt →
    world.threads other = .attempt ip' time' attempt' → thread = other
  /-- The attempts permitted within a minute are retained. -/
  held : Window.Held (fromSecs 60) world.clock (permits world.trace) world.panel.attempts
  past : ∀ entry ∈ permits world.trace, entry.2 ≤ world.clock
  each : ∀ ip, Window.Limited (fromSecs 60) 5 (fun peer => peer = ip) (permits world.trace)
  all : Window.Limited (fromSecs 60) 20 (fun _ => true) (permits world.trace)
  /-- An attempt whose code is not compared yet is the last one permitted. -/
  waiting : ∀ thread ip time attempt, world.threads thread = .attempt ip time attempt →
    attempt.waits = true → ∃ before, permits world.trace = before ++ [(ip, time)] ∧
      (compares world.trace).Sublist before
  /-- The codes compared are those of attempts that were permitted, each once. -/
  once : (compares world.trace).Sublist (permits world.trace)

/-- An attempt that a thread makes after a step was made before it. -/
def Continues (threads threads' : ℕ → Stage) : Prop :=
  ∀ thread ip time attempt, threads' thread = .attempt ip time attempt →
    ∃ before, threads thread = .attempt ip time before ∧
      (attempt.waits = true → before.waits = true)

/-- Nothing changes for an attempt. -/
theorem Continues.refl (threads : ℕ → Stage) : Continues threads threads :=
  fun _ _ _ attempt at_ => ⟨attempt, at_, fun waits => waits⟩

/-- One thread goes on. -/
theorem continues_update {stage : Stage} (own : ∀ ip time attempt,
      stage = .attempt ip time attempt → ∃ before, world.threads thread = .attempt ip time before ∧
        (attempt.waits = true → before.waits = true)) :
    Continues world.threads (Function.update world.threads thread stage) :=
  forall_update (fun other stage => ∀ ip time attempt, stage = .attempt ip time attempt →
      ∃ before, world.threads other = .attempt ip time before ∧
        (attempt.waits = true → before.waits = true))
    own fun _ _ _ _ attempt at_ => ⟨attempt, at_, fun waits => waits⟩

/-- A thread that makes no attempt after a step leaves the attempts as they are. -/
theorem continues_of_quiet {stage : Stage}
    (quiet : ∀ ip time attempt, stage ≠ .attempt ip time attempt) :
    Continues world.threads (Function.update world.threads thread stage) :=
  continues_update fun _ _ _ same => absurd same (quiet _ _ _)

/-- An attempt that goes on, and does not wait again, is the attempt it was. -/
theorem continues_of_attempt {ip : IpAddr} {time : Instant} {attempt before : Attempt}
    (at_ : world.threads thread = .attempt ip time before)
    (order : attempt.waits = true → before.waits = true) :
    Continues world.threads
      (Function.update world.threads thread (.attempt ip time attempt)) := by
  apply continues_update
  rintro _ _ _ ⟨⟩
  exact ⟨before, at_, order⟩

/-- A step that neither permits an attempt nor compares a code keeps the limits. -/
theorem World.Limited.keep (limited : world.Limited) (continues : Continues world.threads next.threads)
    (later : world.clock ≤ next.clock) (attempts : next.panel.attempts = world.panel.attempts)
    (busy : next.panel.loginBusy = world.panel.loginBusy)
    (permitted : permits next.trace = permits world.trace)
    (compared : compares next.trace = compares world.trace) : next.Limited where
  busy := by
    intro thread ip time attempt at_
    obtain ⟨before, was, -⟩ := continues _ _ _ _ at_
    rw [busy]
    exact limited.busy _ _ _ _ was
  alone := by
    intro thread other _ _ _ _ _ _ at_ otherAt
    obtain ⟨_, was, -⟩ := continues _ _ _ _ at_
    obtain ⟨_, otherWas, -⟩ := continues _ _ _ _ otherAt
    exact limited.alone _ _ _ _ _ _ _ _ was otherWas
  held := by
    rw [attempts, permitted]
    exact limited.held.mono later
  past := by
    rw [permitted]
    exact fun entry listed => Nat.le_trans (limited.past entry listed) later
  each := by
    rw [permitted]
    exact limited.each
  all := by
    rw [permitted]
    exact limited.all
  waiting := by
    intro thread ip time attempt at_ waits
    obtain ⟨before, was, order⟩ := continues _ _ _ _ at_
    rw [permitted, compared]
    exact limited.waiting _ _ _ _ was (order waits)
  once := by
    rw [permitted, compared]
    exact limited.once

/-- A thread that goes on by itself makes the attempt that it made. -/
theorem Passes.continues {stage : Stage} {holder : Option ℕ}
    (went : Passes world thread stage holder) :
    Continues world.threads (Function.update world.threads thread stage) := by
  cases went with
  | malformed at_ | stamp at_ | hold at_ _ | refuse at_ | unissued at_ | leave at_ =>
    exact continues_of_attempt at_ (by simp [Attempt.waits])
  | ended | goOn | enter | deny | matched | checked | exit =>
    exact continues_of_quiet (by simp)

/-- A permit keeps the limits. -/
theorem World.Limited.permit (limited : world.Limited) {ip : IpAddr} {code : Option String}
    (few : (world.panel.recentAttempts world.clock).length < 20)
    (own : (world.panel.recentAttempts world.clock).countP (fun attempt => attempt.1 = ip) < 5)
    (idle : world.panel.loginBusy = false) :
    ({ world with
        panel := { world.panel with
          loginBusy := true
          attempts := world.panel.recentAttempts world.clock ++ [(ip, world.clock)] }
        trace := world.trace ++ [.permitted ip world.clock]
        threads := Function.update world.threads thread
          (.attempt ip world.clock (.permitted code)) } : World).Limited := by
  have added : permits (world.trace ++ [.permitted ip world.clock]) =
      permits world.trace ++ [(ip, world.clock)] := by
    simp [permits, Event.permit?]
  have same : compares (world.trace ++ [.permitted ip world.clock]) = compares world.trace := by
    simp [compares, Event.compare?]
  -- The guard is free, so no other thread makes an attempt.
  have none_ : ∀ other ip time attempt, world.threads other ≠ .attempt ip time attempt := by
    intro other _ _ _ at_
    rw [limited.busy _ _ _ _ at_] at idle
    cases idle
  have only : ∀ other peer time attempt, Function.update world.threads thread
      (.attempt ip world.clock (.permitted code)) other = .attempt peer time attempt →
        other = thread ∧ peer = ip ∧ time = world.clock := by
    apply forall_update fun other stage => ∀ peer time attempt,
      stage = .attempt peer time attempt → other = thread ∧ peer = ip ∧ time = world.clock
    · rintro _ _ _ ⟨⟩
      exact ⟨rfl, rfl, rfl⟩
    · intro other _ _ _ _ at_
      exact absurd at_ (none_ _ _ _ _)
  constructor
  case busy => exact fun _ _ _ _ _ => rfl
  case alone =>
    intro _ _ _ _ _ _ _ _ at_ otherAt
    exact (only _ _ _ _ at_).1.trans (only _ _ _ _ otherAt).1.symm
  case held =>
    rw [added]
    exact (limited.held.retain (Nat.le_refl _)).push _
  case past =>
    rw [added]
    intro entry listed
    obtain listed | listed := List.mem_append.mp listed
    · exact limited.past entry listed
    · rw [List.mem_singleton.mp listed]
  case each =>
    intro peer
    rw [added]
    apply (limited.each peer).record limited.held limited.past
    intro chosen
    rw [decide_eq_true_eq] at chosen
    exact chosen ▸ own
  case all =>
    rw [added]
    apply limited.all.record limited.held limited.past
    intro _
    rw [List.countP_true]
    exact few
  case waiting =>
    intro other peer time attempt at_ _
    obtain ⟨-, rfl, rfl⟩ := only _ _ _ _ at_
    rw [added, same]
    exact ⟨_, rfl, limited.once⟩
  case once =>
    rw [added, same]
    exact limited.once.trans (List.sublist_append_left _ _)

/-- A comparison keeps the limits. -/
theorem World.Limited.compare (limited : world.Limited) {ip : IpAddr} {time : Instant}
    {before attempt : Attempt} (at_ : world.threads thread = .attempt ip time before)
    (waited : before.waits = true) (done : attempt.waits = false) (session : Option SessionInfo)
    {events : List Event} (silent : permits events = []) (compared : compares events = [(ip, time)]) :
    ({ world with
        session
        trace := world.trace ++ events
        threads := Function.update world.threads thread (.attempt ip time attempt) } :
      World).Limited := by
  obtain ⟨earlier, isLast, fewer⟩ := limited.waiting _ _ _ _ at_ waited
  have same : permits (world.trace ++ events) = permits world.trace := by
    rw [permits, List.filterMap_append]
    exact (congrArg _ silent).trans (List.append_nil _)
  have added : compares (world.trace ++ events) = compares world.trace ++ [(ip, time)] := by
    rw [compares, List.filterMap_append]
    exact congrArg _ compared
  have continues : Continues world.threads
      (Function.update world.threads thread (.attempt ip time attempt)) := by
    apply continues_of_attempt at_
    intro waits
    rw [done] at waits
    cases waits
  have kept : ({ world with
      threads := Function.update world.threads thread (.attempt ip time attempt) } : World).Limited :=
    limited.keep continues (Nat.le_refl _) rfl rfl rfl rfl
  constructor
  case busy => exact kept.busy
  case alone => exact kept.alone
  case held =>
    rw [same]
    exact limited.held
  case past =>
    rw [same]
    exact limited.past
  case each =>
    rw [same]
    exact limited.each
  case all =>
    rw [same]
    exact limited.all
  case waiting =>
    intro other peer time' later otherAt waits
    obtain ⟨_, was, _⟩ := continues _ _ _ _ otherAt
    have own := limited.alone _ _ _ _ _ _ _ _ was at_
    dsimp only at otherAt
    rw [own, Function.update_self] at otherAt
    cases otherAt
    rw [done] at waits
    cases waits
  case once =>
    rw [same, added, isLast]
    exact fewer.append_right _

/-- A step keeps the limits. -/
theorem Moved.keepsLimited (moved : Moved sha256 world next) (limited : world.Limited) :
    next.Limited := by
  cases moved with
  | tick elapsed =>
    exact limited.keep (.refl _) (Nat.le_add_right _ _) rfl rfl rfl rfl
  | stay => exact limited
  | limited =>
    have kept := limited.held.retain (Nat.le_refl _)
    exact { limited with held := kept }
  | permitted _ few own idle => exact limited.permit few own idle
  | passes went => exact limited.keep went.continues (Nat.le_refl _) rfl rfl rfl rfl
  | compared at_ | accepted at_ =>
    exact limited.compare at_ rfl rfl world.session (by simp [permits, Event.permit?])
      (by simp [compares, Event.compare?])
  | opened at_ =>
    exact limited.compare at_ rfl rfl (some _) (by simp [permits, Event.permit?])
      (by simp [compares, Event.compare?])
  | drawn at_ | pruned at_ =>
    exact limited.keep (continues_of_attempt at_ (by simp [Attempt.waits])) (Nat.le_refl _) rfl rfl
      rfl rfl
  | issued at_ =>
    exact limited.keep (continues_of_attempt at_ (by simp [Attempt.waits])) (Nat.le_refl _) rfl rfl
      (by simp [permits, Event.permit?]) (by simp [compares, Event.compare?])
  | @answered thread ip time at_ =>
    -- The thread that gives the guard back was the only one with an attempt.
    have none_ : ∀ other ip time attempt,
        Function.update world.threads thread .free other ≠ .attempt ip time attempt := by
      apply forall_update fun _ stage => ∀ ip time attempt,
        stage ≠ .attempt ip time attempt
      · simp
      · intro other differs _ _ _ otherAt
        exact differs (limited.alone _ _ _ _ _ _ _ _ otherAt at_)
    exact {
      busy := fun _ _ _ _ at_ => absurd at_ (none_ _ _ _ _)
      alone := fun _ _ _ _ _ _ _ _ at_ => absurd at_ (none_ _ _ _ _)
      held := limited.held
      past := limited.past
      each := limited.each
      all := limited.all
      waiting := fun _ _ _ _ at_ => absurd at_ (none_ _ _ _ _)
      once := limited.once }
  | authorized csrf =>
    refine limited.keep (continues_of_quiet ?_) (Nat.le_refl _) rfl rfl ?_ ?_
    · simp
    · cases csrf <;> simp [permits, Event.permit?]
    · cases csrf <;> simp [compares, Event.compare?]
  | saved | dropped =>
    exact limited.keep (continues_of_quiet (by simp)) (Nat.le_refl _) rfl rfl rfl rfl
  | loggedOut | previewed | took | applied | locked | loaded | ran | rotated =>
    exact limited.keep (continues_of_quiet (by simp)) (Nat.le_refl _) rfl rfl
      (by simp [permits, Event.permit?]) (by simp [compares, Event.compare?])
  | vaultChanged =>
    exact limited.keep (.refl _) (Nat.le_refl _) rfl rfl
      (by simp [permits, Event.permit?]) (by simp [compares, Event.compare?])
  | @revokedAll threads _ revokes =>
    have continues : Continues world.threads threads := by
      cases revokes with
      | host => exact .refl _
      | task | rotation => exact continues_of_quiet (by simp)
    exact limited.keep continues (Nat.le_refl _) rfl rfl
      (by simp [permits, Event.permit?]) (by simp [compares, Event.compare?])

/-! ## The number of sessions -/

/-- A session that is written again makes none more. -/
theorem size_insert_of_found {table : Table Digest Session} {key : Digest} {session : Session}
    (found : table[key]? = some session) (again : Session) :
    (table.insert key again).size = table.size := by
  have mem : table.contains key = true := by
    rw [Std.ExtTreeMap.contains_eq_isSome_getElem?, found]
    rfl
  rw [Std.ExtTreeMap.size_insert, if_pos mem]

/-- A step leaves at most thirty-two sessions. -/
theorem Moved.size_le (moved : Moved sha256 world next)
    (few : world.panel.sessions.size ≤ 32) : next.panel.sessions.size ≤ 32 := by
  cases moved with
  | tick | stay | limited | permitted | passes | compared | accepted | opened | drawn | answered
  | previewed | applied | vaultChanged | locked | loaded | ran | rotated => exact few
  | pruned => exact Nat.le_trans Std.ExtTreeMap.size_filter_le_size few
  | issued _ room => exact Nat.le_trans Std.ExtTreeMap.size_insert_le room
  | authorized _ _ _ found | saved _ _ _ found | dropped _ found | took _ _ found =>
    exact (size_insert_of_found found _).trans_le few
  | loggedOut => exact Nat.le_trans Std.ExtTreeMap.size_erase_le few
  | revokedAll => exact Nat.zero_le _

end Aipass.ControlPanel
