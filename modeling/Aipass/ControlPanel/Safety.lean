import Aipass.ControlPanel.Previews

/-!
# What the panel keeps over every run

In every run of the agent the closures that run have the authority of their sessions, sessions and
attempts stay within their limits, and a preview is applied at most once. The checks are made under
the session mutex, but a session can be revoked, and time passes, between a check and what it
guards.
-/
namespace Aipass.ControlPanel

variable {sha256 : String → Digest} {world next : World}

/-- A preview is applied once, by the session that made it, which took it in time. -/
def Applies (earlier : List Event) : Event → Prop
  | .applied session preview _ =>
    preview.id ∉ earlier.filterMap Event.applied? ∧ .previewed session preview ∈ earlier ∧
      (∀ other again, .previewed other again ∈ earlier → again.id = preview.id →
        other = session ∧ again = preview) ∧ TakenInTime earlier (session, preview)
  | _ => True

/-- A step applies a preview only as it may. -/
theorem Moved.applies (moved : Moved sha256 world next) (placed : world.Placed)
    (applies : Trace.Justified Applies world.trace) : Trace.Justified Applies next.trace := by
  have append : ∀ {events : List Event}, (∀ event ∈ events, ∀ earlier, Applies earlier event) →
      Trace.Justified Applies (world.trace ++ events) := by
    intro events other
    apply applies.append
    rintro front event back rfl
    exact other event (List.mem_append_right _ List.mem_cons_self) _
  cases moved with
  | tick | stay | limited | passes | drawn | pruned | answered | saved | dropped => exact applies
  | authorized csrf => cases csrf <;> exact append (by simp [Applies])
  | @applied thread task rest preview at_ _ taken =>
    have held : world.held (.taken thread) = some (task.auth.revoked, preview) :=
      Option.bind_eq_some_iff.mpr ⟨task, congrArg Stage.task? at_, by rw [taken]; rfl⟩
    have own := placed.own _ _ held
    apply applies.concat
    refine ⟨placed.unused _ _ held, own, ?_, placed.inTime _ _ held⟩
    exact fun other again listed same => placed.unique _ _ _ _ listed own same
  | _ => exact append (by simp [Applies])

/-- The invariant of the agent. -/
structure World.Kept (sha256 : String → Digest) (world : World) : Prop where
  exclusive : world.Exclusive
  limited : world.Limited
  few : world.panel.sessions.size ≤ 32
  recorded : world.Recorded sha256
  counted : world.Counted
  ready : world.Ready
  standing : world.Standing sha256
  authorized : world.Authorized sha256
  checked : world.Checked
  lawful : world.Lawful
  placed : world.Placed
  applies : Trace.Justified Applies world.trace

/-- A step keeps the invariant. -/
theorem World.Kept.step (injective : Function.Injective sha256) (kept : world.Kept sha256)
    (moved : Moved sha256 world next) : next.Kept sha256 := by
  have standing := moved.standing kept.recorded kept.counted kept.ready kept.standing
  have onward := moved.onward injective kept.recorded kept.ready kept.standing
  exact {
    exclusive := moved.exclusive kept.exclusive
    limited := moved.keepsLimited kept.limited
    few := moved.size_le kept.few
    recorded := moved.recorded kept.recorded kept.ready
    counted := moved.counted kept.recorded kept.standing kept.counted
    ready := moved.ready injective kept.exclusive kept.recorded kept.ready
    standing := standing
    authorized := moved.keepsAuthorized injective kept.recorded onward standing kept.authorized
    checked := moved.keepsChecked kept.exclusive kept.recorded kept.standing kept.authorized
      kept.checked
    lawful := moved.lawful kept.checked kept.lawful
    placed := moved.placed injective kept.authorized kept.recorded kept.standing kept.placed
    applies := moved.applies kept.placed kept.applies }

/-- The agent starts with the invariant. -/
theorem World.kept_start (code : String) (stored : Stored) (session : Option SessionInfo)
    (clock : Instant) : (start sha256 code stored session clock).Kept sha256 where
  exclusive := fun _ holds => by cases holds
  limited :=
    { busy := fun _ _ _ _ at_ => by cases at_
      alone := fun _ _ _ _ _ _ _ _ at_ => by cases at_
      held := fun _ _ => rfl
      past := fun _ listed => by cases listed
      each := fun _ _ => Nat.zero_le _
      all := fun _ => Nat.zero_le _
      waiting := fun _ _ _ _ at_ => by cases at_
      once := List.Sublist.slnil }
  few := Nat.zero_le _
  recorded :=
    { made := fun _ listed => by cases List.mem_singleton.mp listed
      unique := fun _ _ listed => by cases List.mem_singleton.mp listed
      posts := fun _ listed _ _ told => by
        cases List.mem_singleton.mp listed
        cases told
      code := rfl }
  counted := fun _ listed => by cases listed
  ready := fun _ _ _ _ at_ => by cases at_
  standing := fun _ _ found => by cases found.symm.trans Std.ExtTreeMap.getElem?_empty
  authorized := fun _ _ isTask => by cases isTask
  checked := fun _ _ _ at_ => by cases at_
  lawful := Trace.Justified.concat Trace.justified_nil trivial
  placed := by
    have none_ : ∀ place, (start sha256 code stored session clock).held place = none := by
      intro place
      cases place with
      | made | taken | saved => rfl
    exact {
      known := fun _ _ listed => by cases List.mem_singleton.mp listed
      unique := fun _ _ _ _ listed => by cases List.mem_singleton.mp listed
      own := fun place _ held => by cases (none_ place).symm.trans held
      apart := fun place _ _ _ held => by cases (none_ place).symm.trans held
      unused := fun place _ held => by cases (none_ place).symm.trans held
      inTime := fun _ _ held => by cases (none_ _).symm.trans held
      applied := fun _ listed => by cases listed }
  applies := Trace.Justified.concat Trace.justified_nil trivial

/-- The invariant holds of every state that a run reaches. -/
theorem World.kept_of_reached (injective : Function.Injective sha256)
    (reached : (system sha256).Reached world) : world.Kept sha256 := by
  apply reached.invariant (World.Kept sha256)
  · rintro _ ⟨code, stored, session, clock, rfl⟩
    exact kept_start code stored session clock
  · intro world label next kept _ stepped
    exact kept.step injective (moved_of_step stepped)

/-- What the panel keeps. The attempts whose codes were compared count by the time that they were
permitted. -/
structure World.Safe (world : World) : Prop where
  closures : Trace.Justified Authoritative world.trace
  sessions : world.panel.sessions.size ≤ 32
  each : ∀ ip, Window.Limited (fromSecs 60) 5 (fun peer => peer = ip) (compares world.trace)
  all : Window.Limited (fromSecs 60) 20 (fun _ => true) (compares world.trace)
  alone : ∀ thread other ip time attempt ip' time' attempt',
    world.threads thread = .attempt ip time attempt →
    world.threads other = .attempt ip' time' attempt' → thread = other
  previews : Trace.Justified Applies world.trace

/-- In every run of the agent, the panel keeps what it is to keep. -/
theorem panel_safe (injective : Function.Injective sha256)
    (reached : (World.system sha256).Reached world) : world.Safe := by
  have kept := World.kept_of_reached injective reached
  exact {
    closures := kept.lawful
    sessions := kept.few
    each := fun ip => (kept.limited.each ip).sublist kept.limited.once
    all := kept.limited.all.sublist kept.limited.once
    alone := kept.limited.alone
    previews := kept.applies }

/-! ## Runs -/

/-- A number for each list of letters. -/
def number : List Char → ℕ
  | [] => 0
  | letter :: rest => number rest * (2 ^ 32 + 1) + (letter.toNat + 1)

/-- Different lists of letters have different numbers. -/
theorem number_injective : Function.Injective number := by
  intro left
  induction left with
  | nil =>
    intro right same
    cases right with
    | nil => rfl
    | cons =>
      simp only [number] at same
      omega
  | cons letter left ih =>
    intro right same
    cases right with
    | nil =>
      simp only [number] at same
      omega
    | cons other right =>
      simp only [number] at same
      have small : letter.toNat < 2 ^ 32 := letter.val.toNat_lt
      have small' : other.toNat < 2 ^ 32 := other.val.toNat_lt
      have first : letter.toNat = other.toNat := by omega
      have rest : number left = number right := by omega
      rw [ih rest, Char.toNat_inj.mp first]

/-- A number for each text, in place of its digest. -/
def spell (text : String) : Digest := number text.toList

/-- Different texts have different numbers. -/
theorem spell_injective : Function.Injective spell :=
  fun _ _ same => String.toList_inj.mp (number_injective same)

/-- The access code of a run: forty-three letters. -/
def sampleCode : String := "aaaaaaaaaaaaaaaaaaaaaaaaaaaaaaaaaaaaaaaaaaa"

/-- The token that a run draws. -/
def sampleToken : String := "bbbbbbbbbbbbbbbbbbbbbbbbbbbbbbbbbbbbbbbbbbb"

/-- The state that a run starts from: an unlocked vault, and a code for it. -/
def sampleStart : World :=
  .start spell sampleCode { accessCodeVault := some 1 } (some ⟨7, 1, 2⟩) 0

/-- A thread goes on for a number of steps. -/
def goOn (thread count : ℕ) : List Label := List.replicate count (.advance thread {})

/-- Someone signs in at an address and presents a code. -/
def signIn (code : String) : List Label :=
  .login 0 (.v4 1) (some code) :: goOn 0 3 ++
    [.advance 0 { token := sampleToken, csrf := "c" }] ++ goOn 0 3

/-- A series of steps that are possible is a run. -/
theorem World.reached_of_after {labels : List Label} {world : World}
    (went : System.after (World.step spell) sampleStart labels = some world) :
    (system spell).Reached world := by
  have steps : ∀ state label next, World.step spell state label = some next →
      True ∧ (system spell).step state label next := fun _ _ _ stepped => ⟨trivial, stepped⟩
  exact .after steps (.start ⟨_, _, _, _, rfl⟩) went

/-- Someone signs in, previews a change and applies it. -/
def applyingRun : List Label :=
  signIn sampleCode ++ .call 1 sampleToken (some "c") .toolPreview :: goOn 1 21 ++
    .call 1 sampleToken (some "c") (.toolApply 0 0) :: goOn 1 21

/-- What the panel keeps is kept in a run in which a preview is applied. -/
theorem panel_safe_applying : ∃ world, (World.system spell).Reached world ∧
    (∃ time, .applied 0 ⟨0, 0, 0⟩ time ∈ world.trace) ∧ world.Safe := by
  have went : (System.after (World.step spell) sampleStart applyingRun).any (fun world =>
      decide (.applied 0 ⟨0, 0, 0⟩ 0 ∈ world.trace)) = true := by
    decide +kernel
  simp only [Option.any_eq_true, decide_eq_true_eq] at went
  obtain ⟨world, went, applied⟩ := went
  have reached := World.reached_of_after went
  exact ⟨world, reached, ⟨0, applied⟩, panel_safe spell_injective reached⟩

/-- A request passes its check, another signs its session out, and then its closure runs. -/
def overtakenRun : List Label :=
  signIn sampleCode ++ .call 1 sampleToken (some "c") .logout :: goOn 1 6 ++
    .call 2 sampleToken (some "c") (.other 0) :: goOn 2 4 ++ goOn 1 1 ++ goOn 2 1

/-- An attempt waits for the session mutex for most of a minute, and five more follow at once. -/
def crowdedRun : List Label :=
  let attempt := fun delay => .login 0 (.v4 1) (some sampleToken) :: .tick delay :: goOn 0 5
  attempt (fromSecs 59) ++ attempt 0 ++ attempt 0 ++ attempt 0 ++ attempt 0 ++
    .tick (fromSecs 1) :: attempt 0

/-- A preview is taken in time, and applied five minutes later. -/
def belatedRun : List Label :=
  signIn sampleCode ++ .call 1 sampleToken (some "c") .toolPreview :: goOn 1 21 ++
    .call 1 sampleToken (some "c") (.toolApply 0 0) :: goOn 1 7 ++
      .tick (fromSecs 300) :: goOn 1 13

/-- The attempts whose codes were compared, by the time of the comparison. -/
def readings (trace : List Event) : List (IpAddr × Instant) :=
  trace.filterMap fun
    | .compared ip _ reading => some (ip, reading)
    | _ => none

/-- A closure can run after its session was signed out, six codes can be compared within a minute,
and a preview can be applied five minutes after it was made. -/
theorem panel_checks_early :
    (∃ world, (World.system spell).Reached world ∧
      [.loaded 2 0, .loggedOut 0, .ran 2 0 sampleToken 0 (some ⟨7, 2⟩) 0].Sublist world.trace) ∧
    (∃ world, (World.system spell).Reached world ∧
      ¬ Window.Limited (fromSecs 60) 5 (fun peer => peer = .v4 1) (readings world.trace)) ∧
    ∃ world, (World.system spell).Reached world ∧
      ∃ session preview time, .applied session preview time ∈ world.trace ∧
        preview.created + fromSecs 300 ≤ time := by
  refine ⟨?_, ?_, ?_⟩
  · have went : (System.after (World.step spell) sampleStart overtakenRun).any (fun world =>
        decide ([.loaded 2 0, .loggedOut 0,
          .ran 2 0 sampleToken 0 (some ⟨7, 2⟩) 0].Sublist world.trace)) = true := by
      decide +kernel
    simp only [Option.any_eq_true, decide_eq_true_eq] at went
    obtain ⟨world, went, late⟩ := went
    exact ⟨world, World.reached_of_after went, late⟩
  · have went : (System.after (World.step spell) sampleStart crowdedRun).any (fun world =>
        decide (5 < (readings world.trace).countP fun entry =>
          decide (entry.1 = .v4 1) && Window.inside (fromSecs 60) (fromSecs 59) entry)) = true := by
      decide +kernel
    simp only [Option.any_eq_true, decide_eq_true_eq] at went
    obtain ⟨world, went, many⟩ := went
    refine ⟨world, World.reached_of_after went, fun limited => ?_⟩
    exact absurd (limited (fromSecs 59)) (not_le.mpr many)
  · have went : (System.after (World.step spell) sampleStart belatedRun).any (fun world =>
        decide (.applied 0 ⟨0, 0, 0⟩ (fromSecs 300) ∈ world.trace)) = true := by
      decide +kernel
    simp only [Option.any_eq_true, decide_eq_true_eq] at went
    obtain ⟨world, went, late⟩ := went
    exact ⟨world, World.reached_of_after went, 0, ⟨0, 0, 0⟩, _, late, by decide⟩

end Aipass.ControlPanel
