import Aipass.Base.Trace
import Aipass.ControlPanel.Attempts

/-!
# The authority of a session

A vault closure runs for a request only when the session of its token was made by a login with the
access code of that moment, when nothing had ended the session by the time the check read its flag,
when the session had not expired by the time the check read the clock, and when the vault is the
one of the login. The invariant ties each session, each request and each check to the trace.
-/
namespace Aipass.ControlPanel

variable {sha256 : String → Digest} {world next : World}

/-! ## What a trace tells -/

/-- The code that an event stores. -/
def Event.code? : Event → Option String
  | .rotated code => some code
  | _ => none

/-- When an event tells that a session was used for a change, or made. -/
def Event.post? (session : ℕ) : Event → Option Instant
  | .issued issue => if issue.session = session then some issue.time else none
  | .posted other time => if other = session then some time else none
  | _ => none

/-- Whether an event ends a session. -/
def Event.Ends (session : ℕ) : Event → Prop
  | .loggedOut other => other = session
  | .revokedAll => True
  | _ => False

/-- The access code that is valid. -/
def currentCode (trace : List Event) : Option String := Trace.last Event.code? trace

/-- When a session was last used for a change. -/
def lastPost (session : ℕ) (trace : List Event) : Option Instant :=
  Trace.last (Event.post? session) trace

/-- A session was made by a login with the access code of that moment, and nothing ended it. -/
def Stands (trace : List Event) (issue : Issue) : Prop :=
  ∃ before since, trace = before ++ .issued issue :: since ∧
    currentCode before = some issue.code ∧ ∀ event ∈ since, ¬ event.Ends issue.session

/-- A session that stands was made. -/
theorem Stands.mem {trace : List Event} {issue : Issue} (stands : Stands trace issue) :
    Event.issued issue ∈ trace := by
  obtain ⟨before, since, rfl, -, -⟩ := stands
  exact List.mem_append_right _ List.mem_cons_self

/-- A session stands as long as nothing ends it. -/
theorem Stands.append {trace events : List Event} {issue : Issue} (stands : Stands trace issue)
    (silent : ∀ event ∈ events, ¬ event.Ends issue.session) : Stands (trace ++ events) issue := by
  obtain ⟨before, since, rfl, code, kept⟩ := stands
  refine ⟨before, since ++ events, by simp, code, ?_⟩
  intro event listed
  obtain listed | listed := List.mem_append.mp listed
  · exact kept event listed
  · exact silent event listed

/-! ## The invariant -/

/-- What the trace says of the sessions made and of the code. -/
structure World.Recorded (sha256 : String → Digest) (world : World) : Prop where
  /-- What was made is counted, drawn and past. -/
  made : ∀ issue, .issued issue ∈ world.trace →
    issue.session < world.panel.flags ∧ issue.token ∈ world.drawn
  /-- A token is the token of one session, and so is a flag. -/
  unique : ∀ left right, .issued left ∈ world.trace → .issued right ∈ world.trace →
    left.token = right.token ∨ left.session = right.session → left = right
  posts : ∀ event ∈ world.trace, ∀ session time, event.post? session = some time →
    time ≤ world.clock
  code : world.stored.accessCodeHash = (currentCode world.trace).map sha256

/-- An attempt that is accepted presented the code that is valid, and the token that it draws is
new. -/
def AttemptOk (world : World) : Attempt → Prop
  | .accepted code _ _ => currentCode world.trace = some code
  | .drawn code _ _ token _ now => currentCode world.trace = some code ∧ token ∈ world.drawn ∧
    (∀ issue, .issued issue ∈ world.trace → issue.token ≠ token) ∧ now ≤ world.clock
  | _ => True

/-- The attempts that run are as they should be. -/
def World.Ready (world : World) : Prop :=
  ∀ thread ip time attempt, world.threads thread = .attempt ip time attempt →
    AttemptOk world attempt

/-- A session in the table stands, and holds what the trace says. -/
def SessionOk (sha256 : String → Digest) (trace : List Event) (revoked : List ℕ) (key : Digest)
    (session : Session) : Prop :=
  ∃ issue, Stands trace issue ∧ key = sha256 issue.token ∧ session.auth.revoked = issue.session ∧
    session.auth.binding = issue.binding ∧ session.auth.expires = issue.time + lifetime ∧
    lastPost issue.session trace = some session.lastActivity ∧ issue.session ∉ revoked

/-- The sessions of the table stand. -/
def World.Standing (sha256 : String → Digest) (world : World) : Prop :=
  ∀ key session, world.panel.sessions[key]? = some session →
    SessionOk sha256 world.trace world.panel.revoked key session

/-- An authorization was given for a session that was made, and does not outlast it. -/
def Granted (trace : List Event) (token : String) (auth : Authorization) (issue : Issue) : Prop :=
  .issued issue ∈ trace ∧ issue.session = auth.revoked ∧ issue.token = token ∧
    issue.binding = auth.binding ∧ auth.expires ≤ issue.time + lifetime ∧
    ∃ last, lastPost issue.session trace = some last ∧ auth.expires ≤ last + idle

/-- The session of an authorization is in the table, or its flag is set, or it has expired. -/
def Followed (sha256 : String → Digest) (world : World) (token : String) (auth : Authorization) :
    Prop :=
  auth.revoked ∈ world.panel.revoked ∨ auth.expires ≤ world.clock ∨
    ∃ session, world.panel.sessions[sha256 token]? = some session ∧
      session.auth.revoked = auth.revoked ∧ auth.expires ≤ session.auth.expires ∧
      auth.expires ≤ session.lastActivity + idle

/-- The request that a thread serves. -/
def Stage.task? : Stage → Option Task
  | .task held | .inVault held _ => some held
  | _ => none

/-- The requests that run were authorized. -/
def World.Authorized (sha256 : String → Digest) (world : World) : Prop :=
  ∀ thread task, (world.threads thread).task? = some task →
    (∃ issue, Granted world.trace task.token task.auth issue) ∧
      Followed sha256 world task.token task.auth

/-- A check found the flag of its session unset, and since then nothing changed the vault. The
session stood then, unless it had lapsed. -/
def Loaded (trace : List Event) (thread : ℕ) (task : Task) (lapsed : Prop) : Prop :=
  ∃ issue before since, trace = before ++ .loaded thread task.auth.revoked :: since ∧
    .vaultChanged ∉ since ∧ Granted before task.token task.auth issue ∧
    (Stands before issue ∨ lapsed)

/-- What a check has found. -/
def CheckOk (world : World) (thread : ℕ) (task : Task) : Check → Prop
  | .start | .done => True
  | .unrevoked | .current =>
    Loaded world.trace thread task (task.auth.expires ≤ world.clock)
  | .passed reading =>
    Loaded world.trace thread task False ∧ reading < task.auth.expires ∧
      world.session.map Binding.fromSession = some task.auth.binding

/-- The checks that run have found what they need. -/
def World.Checked (world : World) : Prop :=
  ∀ thread task check, world.threads thread = .inVault task check →
    CheckOk world thread task check

/-! ## The record -/

/-- Whether only a thread that has the session mutex, or finds it free, makes an event. -/
def Event.exclusive : Event → Bool
  | .issued _ | .rotated _ | .vaultChanged => true
  | _ => false

/-- Events that make no session and store no code keep the record. -/
theorem World.Recorded.append (recorded : world.Recorded sha256) {events : List Event}
    (extended : next.trace = world.trace ++ events)
    (made : ∀ issue, .issued issue ∉ events) (stored : next.stored = world.stored)
    (codes : ∀ event ∈ events, event.code? = none)
    (posts : ∀ event ∈ events, ∀ session time, event.post? session = some time →
      time = world.clock)
    (later : world.clock ≤ next.clock) (flags : next.panel.flags = world.panel.flags)
    (drawn : world.drawn ⊆ next.drawn) : next.Recorded sha256 := by
  have was : ∀ issue, .issued issue ∈ next.trace → .issued issue ∈ world.trace := by
    intro issue listed
    rw [extended] at listed
    exact (List.mem_append.mp listed).resolve_right (made issue)
  constructor
  case made =>
    intro issue listed
    obtain ⟨counted, known⟩ := recorded.made issue (was issue listed)
    exact ⟨flags ▸ counted, drawn known⟩
  case unique =>
    exact fun left right isLeft isRight =>
      recorded.unique left right (was left isLeft) (was right isRight)
  case posts =>
    intro event listed session time told
    rw [extended] at listed
    obtain listed | listed := List.mem_append.mp listed
    · exact Nat.le_trans (recorded.posts event listed session time told) later
    · rw [posts event listed session time told]
      exact later
  case code =>
    rw [stored, recorded.code, extended, currentCode, currentCode,
      Trace.last_append_of_none codes]

/-- A step that adds nothing to the trace keeps the record. -/
theorem World.Recorded.same (recorded : world.Recorded sha256)
    (trace : next.trace = world.trace) (stored : next.stored = world.stored)
    (later : world.clock ≤ next.clock) (flags : next.panel.flags = world.panel.flags)
    (drawn : world.drawn ⊆ next.drawn) : next.Recorded sha256 :=
  recorded.append (by rw [trace, List.append_nil]) (by simp) stored (by simp) (by simp) later flags
    drawn

/-- A step that adds an event of another kind keeps the record. -/
theorem World.Recorded.event (recorded : world.Recorded sha256) {event : Event}
    (trace : next.trace = world.trace ++ [event]) (other : ∀ issue, event ≠ .issued issue)
    (silent : event.code? = none)
    (posts : ∀ session time, event.post? session = some time → time = world.clock)
    (stored : next.stored = world.stored) (later : world.clock ≤ next.clock)
    (flags : next.panel.flags = world.panel.flags) (drawn : world.drawn ⊆ next.drawn) :
    next.Recorded sha256 := by
  apply recorded.append trace _ stored _ _ later flags drawn
  · intro issue listed
    exact other issue (List.mem_singleton.mp listed).symm
  · intro listedEvent listed
    rw [List.mem_singleton.mp listed]
    exact silent
  · intro listedEvent listed
    rw [List.mem_singleton.mp listed]
    exact posts

/-- A step keeps the record. -/
theorem Moved.recorded (moved : Moved sha256 world next) (recorded : world.Recorded sha256)
    (ready : world.Ready) : next.Recorded sha256 := by
  cases moved with
  | tick elapsed => exact recorded.same rfl rfl (Nat.le_add_right _ _) rfl (List.Subset.refl _)
  | stay => exact recorded
  | limited | passes | pruned | answered | saved | dropped =>
    exact recorded.same rfl rfl (Nat.le_refl _) rfl (List.Subset.refl _)
  | drawn => exact recorded.same rfl rfl (Nat.le_refl _) rfl (List.subset_cons_self _ _)
  | permitted | compared | accepted | loggedOut | previewed | took | applied | revokedAll
  | vaultChanged | locked | loaded | ran =>
    exact recorded.event rfl (by simp) rfl (by simp [Event.post?]) rfl (Nat.le_refl _) rfl
      (List.Subset.refl _)
  | opened =>
    exact recorded.append rfl (by simp) rfl (by simp [Event.code?]) (by simp [Event.post?])
      (Nat.le_refl _) rfl (List.Subset.refl _)
  | authorized csrf =>
    cases csrf with
    | none =>
      exact recorded.same (List.append_nil _) rfl (Nat.le_refl _) rfl (List.Subset.refl _)
    | some =>
      refine recorded.event rfl (by simp) rfl ?_ rfl (Nat.le_refl _) rfl (List.Subset.refl _)
      intro session time told
      simp only [Event.post?] at told
      exact (Option.some.inj (Option.ite_none_right_eq_some.mp told).2).symm
  | @issued thread ip time code generation binding token csrf now at_ room =>
    obtain ⟨valid, known, fresh, past⟩ := ready _ _ _ _ at_
    constructor
    case made =>
      intro issue listed
      obtain listed | listed := List.mem_append.mp listed
      · obtain ⟨counted, drawn⟩ := recorded.made issue listed
        exact ⟨Nat.lt_succ_of_lt counted, drawn⟩
      · cases List.mem_singleton.mp listed
        exact ⟨Nat.lt_succ_self _, known⟩
    case unique =>
      -- The token is new, and the flag is beyond those made.
      have apart : ∀ issue, .issued issue ∈ world.trace →
          ¬ (issue.token = token ∨ issue.session = world.panel.flags) := by
        rintro issue listed (same | same)
        · exact fresh issue listed same
        · exact absurd (recorded.made issue listed).1 (same ▸ Nat.lt_irrefl _)
      intro left right isLeft isRight same
      obtain isLeft | isLeft := List.mem_append.mp isLeft <;>
        obtain isRight | isRight := List.mem_append.mp isRight
      · exact recorded.unique left right isLeft isRight same
      · cases List.mem_singleton.mp isRight
        exact absurd same (apart left isLeft)
      · cases List.mem_singleton.mp isLeft
        exact absurd (same.imp Eq.symm Eq.symm) (apart right isRight)
      · cases List.mem_singleton.mp isLeft
        cases List.mem_singleton.mp isRight
        rfl
    case posts =>
      intro event listed session time told
      obtain listed | listed := List.mem_append.mp listed
      · exact recorded.posts event listed session time told
      · cases List.mem_singleton.mp listed
        rw [← Option.some.inj (Option.ite_none_right_eq_some.mp told).2]
        exact past
    case code =>
      refine recorded.code.trans (congrArg _ ?_)
      exact (Trace.last_append_of_none (by simp [Event.code?])).symm
  | @rotated _ code =>
    constructor
    case made =>
      intro issue listed
      exact recorded.made issue ((List.mem_append.mp listed).resolve_right (by simp))
    case unique =>
      intro left right isLeft isRight
      exact recorded.unique left right ((List.mem_append.mp isLeft).resolve_right (by simp))
        ((List.mem_append.mp isRight).resolve_right (by simp))
    case posts =>
      intro event listed session time told
      obtain listed | listed := List.mem_append.mp listed
      · exact recorded.posts event listed session time told
      · cases List.mem_singleton.mp listed
        cases told
    case code =>
      have now : currentCode (world.trace ++ [.rotated code]) = some code :=
        Trace.last_concat_of_some rfl
      exact (congrArg (Option.map sha256) now).symm

/-! ## Threads that hold the session mutex -/

/-- The steps of other threads leave to the holder of the mutex what it needs. -/
structure Undisturbed (world next : World) : Prop where
  trace : ∃ events, next.trace = world.trace ++ events ∧ ∀ event ∈ events, event.exclusive = false
  session : next.session = world.session
  drawn : world.drawn ⊆ next.drawn
  later : world.clock ≤ next.clock

/-- A step that adds nothing to the trace disturbs no thread. -/
theorem undisturbed_same (trace : next.trace = world.trace) (session : next.session = world.session)
    (drawn : world.drawn ⊆ next.drawn) (later : world.clock ≤ next.clock) :
    Undisturbed world next :=
  ⟨⟨[], by rw [trace, List.append_nil], by simp⟩, session, drawn, later⟩

/-- A step that adds an event of another kind disturbs no thread. -/
theorem undisturbed_event {event : Event} (trace : next.trace = world.trace ++ [event])
    (other : event.exclusive = false) (session : next.session = world.session)
    (drawn : world.drawn ⊆ next.drawn) (later : world.clock ≤ next.clock) :
    Undisturbed world next :=
  ⟨⟨[event], trace, by simpa using other⟩, session, drawn, later⟩

/-- A thread that holds the mutex is not disturbed unless it goes on itself. -/
theorem Moved.undisturbed (moved : Moved sha256 world next) (exclusive : world.Exclusive)
    {thread : ℕ} (holds : (world.threads thread).holds = true)
    (rests : next.threads thread = world.threads thread) : Undisturbed world next := by
  have held := exclusive thread holds
  -- A thread with an exclusive step of its own holds the mutex too, so it is the same thread.
  have own : ∀ {mover : ℕ} {stage : Stage}, (world.threads mover).holds = true →
      next.threads = Function.update world.threads mover stage →
        stage ≠ world.threads mover → False := by
    intro mover stage moverHolds threads differs
    have same : mover = thread :=
      Option.some.inj ((exclusive mover moverHolds).symm.trans held)
    rw [threads, ← same, Function.update_self] at rests
    exact differs rests
  cases moved with
  | tick => exact undisturbed_same rfl rfl (List.Subset.refl _) (Nat.le_add_right _ _)
  | stay | limited | passes | pruned | answered | saved | dropped =>
    exact undisturbed_same rfl rfl (List.Subset.refl _) (Nat.le_refl _)
  | drawn => exact undisturbed_same rfl rfl (List.subset_cons_self _ _) (Nat.le_refl _)
  | permitted | compared | accepted | loggedOut | previewed | took | applied | revokedAll
  | loaded | ran =>
    exact undisturbed_event rfl rfl rfl (List.Subset.refl _) (Nat.le_refl _)
  | authorized csrf =>
    cases csrf with
    | none => exact undisturbed_same (List.append_nil _) rfl (List.Subset.refl _) (Nat.le_refl _)
    | some => exact undisturbed_event rfl rfl rfl (List.Subset.refl _) (Nat.le_refl _)
  | opened at_ | issued at_ =>
    exact (own (by rw [at_]; rfl) rfl (by rw [at_]; simp)).elim
  | vaultChanged _ free | locked _ _ free | rotated _ free =>
    rw [free] at held
    cases held

/-- An attempt that is not disturbed stays as it should be. -/
theorem AttemptOk.mono {attempt : Attempt} (ok : AttemptOk world attempt)
    (undisturbed : Undisturbed world next) : AttemptOk next attempt := by
  obtain ⟨⟨events, extended, other⟩, -, drawn, later⟩ := undisturbed
  have code : currentCode next.trace = currentCode world.trace := by
    rw [extended]
    apply Trace.last_append_of_none
    intro event listed
    cases event with
    | rotated => exact absurd (other _ listed) (by simp [Event.exclusive])
    | _ => rfl
  cases attempt with
  | accepted => exact code.trans ok
  | drawn =>
    obtain ⟨valid, known, fresh, past⟩ := ok
    refine ⟨code.trans valid, drawn known, ?_, Nat.le_trans past later⟩
    intro issue listed
    rw [extended] at listed
    obtain listed | listed := List.mem_append.mp listed
    · exact fresh issue listed
    · exact absurd (other _ listed) (by simp [Event.exclusive])
  | _ => trivial

/-- A stage that a thread did not have before is the one it moved to. -/
theorem moved_to {threads : ℕ → Stage} {thread other : ℕ} {stage : Stage}
    (differs : Function.update threads thread stage other ≠ threads other) :
    other = thread ∧ Function.update threads thread stage other = stage := by
  by_cases same : other = thread
  · exact ⟨same, by rw [same, Function.update_self]⟩
  · exact absurd (Function.update_of_ne same _ _) differs

/-- A step keeps the attempts as they should be. -/
theorem Moved.ready (injective : Function.Injective sha256) (moved : Moved sha256 world next)
    (exclusive : world.Exclusive) (recorded : world.Recorded sha256) (ready : world.Ready) :
    next.Ready := by
  intro thread ip time attempt at_
  by_cases rests : next.threads thread = world.threads thread
  · rw [rests] at at_
    cases attempt with
    | accepted | drawn =>
      exact (ready _ _ _ _ at_).mono (moved.undisturbed exclusive (by rw [at_]; rfl) rests)
    | _ => trivial
  have code : ∀ {events : List Event} {code : String},
      world.stored.accessCodeHash = some (sha256 code) →
      (∀ event ∈ events, event.code? = none) →
        currentCode (world.trace ++ events) = some code := by
    intro events code stored silent
    rw [currentCode, Trace.last_append_of_none silent]
    obtain ⟨held, valid, same⟩ := Option.map_eq_some_iff.mp (recorded.code.symm.trans stored)
    rw [← injective same]
    exact valid
  cases moved with
  | tick | stay | limited | vaultChanged => exact absurd rfl rests
  | @drawn mover ip' time' code generation binding token csrf was fresh =>
    obtain ⟨-, same⟩ := moved_to rests
    cases same.symm.trans at_
    refine ⟨ready _ _ _ _ was, List.mem_cons_self, ?_, Nat.le_refl _⟩
    intro issue listed same
    exact fresh (same ▸ (recorded.made issue listed).2)
  | accepted _ stored | opened _ stored =>
    obtain ⟨-, same⟩ := moved_to rests
    cases same.symm.trans at_
    exact code stored (by simp [Event.code?])
  | passes went =>
    obtain ⟨-, same⟩ := moved_to rests
    have same := same.symm.trans at_
    subst same
    cases went <;> trivial
  | revokedAll revokes =>
    cases revokes with
    | host => exact absurd rfl rests
    | task | rotation =>
      obtain ⟨-, same⟩ := moved_to rests
      cases same.symm.trans at_
  | permitted | compared | pruned | issued | answered | authorized | loggedOut | previewed | saved
  | dropped | took | applied | locked | loaded | ran | rotated =>
    obtain ⟨-, same⟩ := moved_to rests
    cases same.symm.trans at_
    all_goals trivial

/-! ## The sessions of the table -/

section Standing

variable {trace events : List Event} {revoked : List ℕ} {key : Digest} {session : Session}

/-- A session stands as long as nothing ends it, and was last used as the trace says. -/
theorem SessionOk.append (ok : SessionOk sha256 trace revoked key session)
    (silent : ∀ event ∈ events, ¬ event.Ends session.auth.revoked ∧
      event.post? session.auth.revoked = none) {flags : List ℕ}
    (unset : session.auth.revoked ∉ flags) :
    SessionOk sha256 (trace ++ events) flags key session := by
  obtain ⟨issue, stands, isKey, flag, binding, expires, posted, -⟩ := ok
  rw [flag] at silent unset
  refine ⟨issue, stands.append fun event listed => (silent event listed).1, isKey, flag, binding,
    expires, ?_, unset⟩
  rw [lastPost, Trace.last_append_of_none fun event listed => (silent event listed).2]
  exact posted

/-- The flag of a session that stands is not set. -/
theorem SessionOk.unset (ok : SessionOk sha256 trace revoked key session) :
    session.auth.revoked ∉ revoked := by
  obtain ⟨_, _, _, flag, _, _, _, unset⟩ := ok
  rw [flag]
  exact unset

/-- The preview of a session does not matter. -/
theorem SessionOk.same (ok : SessionOk sha256 trace revoked key session) {again : Session}
    (auth : again.auth = session.auth) (activity : again.lastActivity = session.lastActivity) :
    SessionOk sha256 trace revoked key again := by
  obtain ⟨issue, stands, isKey, flag, binding, expires, posted, unset⟩ := ok
  rw [← auth] at flag binding expires
  rw [← activity] at posted
  exact ⟨issue, stands, isKey, flag, binding, expires, posted, unset⟩

end Standing

/-- A session of the table was made before, so its flag is one of those made. -/
theorem World.Standing.flag_lt (standing : world.Standing sha256)
    (recorded : world.Recorded sha256) {key : Digest} {session : Session}
    (found : world.panel.sessions[key]? = some session) :
    session.auth.revoked < world.panel.flags := by
  obtain ⟨issue, stands, -, flag, -⟩ := standing key session found
  rw [flag]
  exact (recorded.made issue stands.mem).1

/-- The activity of a session is past. -/
theorem World.Standing.active_le (standing : world.Standing sha256)
    (recorded : world.Recorded sha256) {key : Digest} {session : Session}
    (found : world.panel.sessions[key]? = some session) :
    session.lastActivity ≤ world.clock := by
  obtain ⟨issue, -, -, -, -, -, posted, -⟩ := standing key session found
  obtain ⟨event, listed, tells⟩ := Trace.exists_of_last posted
  exact recorded.posts event listed _ _ tells

/-- Two sessions of the table with one flag are one. -/
theorem World.Standing.key_eq (standing : world.Standing sha256)
    (recorded : world.Recorded sha256) {left right : Digest} {first second : Session}
    (isLeft : world.panel.sessions[left]? = some first)
    (isRight : world.panel.sessions[right]? = some second)
    (same : first.auth.revoked = second.auth.revoked) : left = right := by
  obtain ⟨issue, stands, isKey, flag, -⟩ := standing left first isLeft
  obtain ⟨other, otherStands, otherKey, otherFlag, -⟩ := standing right second isRight
  rw [isKey, otherKey, recorded.unique issue other stands.mem otherStands.mem
    (.inr (flag.symm.trans (same.trans otherFlag)))]

/-- Sessions that stay in the table stand while the trace goes on without them. -/
theorem World.Standing.append (standing : world.Standing sha256) {events : List Event}
    (extended : next.trace = world.trace ++ events)
    (silent : ∀ event ∈ events, ∀ session < world.panel.flags,
      ¬ event.Ends session ∧ event.post? session = none)
    (recorded : world.Recorded sha256)
    (revoked : next.panel.revoked = world.panel.revoked)
    (sessions : ∀ (key : Digest) session, next.panel.sessions[key]? = some session →
      world.panel.sessions[key]? = some session) : next.Standing sha256 := by
  intro key session found
  have was := sessions key session found
  have ok := standing key session was
  rw [extended, revoked]
  exact ok.append (fun event listed => silent event listed _ (standing.flag_lt recorded was))
    ok.unset

/-- A session whose preview changes stands. -/
theorem World.Standing.preview (standing : world.Standing sha256) {token : String}
    {session : Session} (found : world.panel.sessions[sha256 token]? = some session)
    (preview : Option Preview) (key : Digest) (other : Session)
    (isOther : (world.panel.withPreview sha256 token session preview).sessions[key]? =
      some other) : SessionOk sha256 world.trace world.panel.revoked key other := by
  rw [Sessions.withPreview, Table.get_insert] at isOther
  split at isOther
  · rename_i same
    cases isOther
    exact (standing key session (same ▸ found)).same rfl rfl
  · exact standing key other isOther

/-- The flags that are set are among those made. -/
def World.Counted (world : World) : Prop :=
  ∀ flag ∈ world.panel.revoked, flag < world.panel.flags

/-- A step sets only flags that were made. -/
theorem Moved.counted (moved : Moved sha256 world next) (recorded : world.Recorded sha256)
    (standing : world.Standing sha256) (counted : world.Counted) : next.Counted := by
  cases moved with
  | issued => exact fun flag set => Nat.lt_succ_of_lt (counted flag set)
  | loggedOut _ _ found =>
    intro flag set
    obtain rfl | set := List.mem_cons.mp set
    · exact standing.flag_lt recorded found
    · exact counted flag set
  | revokedAll =>
    intro flag set
    obtain set | set := List.mem_append.mp set
    · obtain ⟨session, listed, rfl⟩ := List.mem_map.mp set
      obtain ⟨key, found⟩ := Table.mem_valueList.mp listed
      exact standing.flag_lt recorded found
    · exact counted flag set
  | _ => exact counted

/-- A request that passes leaves its session standing, used when it may change state. -/
theorem World.Standing.authorized (standing : world.Standing sha256)
    (recorded : world.Recorded sha256) {token : String} {session : Session} {csrf : Option String}
    (found : world.panel.sessions[sha256 token]? = some session) (key : Digest) (other : Session)
    (isOther : (world.panel.sessions.insert (sha256 token)
      (Sessions.authorizedSession session csrf world.clock))[key]? = some other) :
    SessionOk sha256 (world.trace ++ if csrf.isSome then
      [.posted session.auth.revoked world.clock] else []) world.panel.revoked key other := by
  rw [Table.get_insert] at isOther
  cases csrf with
  | none =>
    have ok := standing key other
    rw [if_neg (by simp), List.append_nil]
    split at isOther
    · rename_i same
      cases isOther
      exact ok (same ▸ found)
    · exact ok isOther
  | some csrf =>
    rw [if_pos (show (some csrf).isSome = true from rfl)]
    split at isOther
    · rename_i same
      cases isOther
      obtain ⟨issue, stands, isKey, flag, binding, expires, posted, unset⟩ :=
        standing key session (same ▸ found)
      refine ⟨issue, stands.append (by simp [Event.Ends]), isKey, flag, binding, expires, ?_, unset⟩
      exact Trace.last_concat_of_some (if_pos flag)
    · rename_i apart
      have ok := standing key other isOther
      apply ok.append _ ok.unset
      intro event listed
      cases List.mem_singleton.mp listed
      refine ⟨fun ends => ends, if_neg ?_⟩
      exact fun same => apart (standing.key_eq recorded found isOther same)

/-- A step keeps the sessions of the table standing. -/
theorem Moved.standing (moved : Moved sha256 world next) (recorded : world.Recorded sha256)
    (counted : world.Counted) (ready : world.Ready) (standing : world.Standing sha256) :
    next.Standing sha256 := by
  cases moved with
  | tick | stay | limited | passes | drawn | answered => exact standing
  | permitted | compared | accepted | opened | previewed | applied | vaultChanged | locked | loaded
  | ran | rotated =>
    exact standing.append rfl (by simp [Event.Ends, Event.post?]) recorded rfl
      (fun _ _ found => found)
  | pruned =>
    intro key session found
    rw [Table.get_filter, Option.filter_eq_some_iff] at found
    exact standing key session found.1
  | @issued thread ip time code generation binding token csrf now at_ =>
    obtain ⟨valid, -, -, -⟩ := ready _ _ _ _ at_
    intro key session found
    rw [Table.get_insert] at found
    split at found
    · rename_i same
      cases found
      refine ⟨⟨world.panel.flags, token, code, binding, now⟩, ⟨_, [], rfl, valid, by simp⟩,
        same.symm, rfl, rfl, rfl, ?_, ?_⟩
      · exact Trace.last_concat_of_some (if_pos rfl)
      · exact fun set => Nat.lt_irrefl _ (counted _ set)
    · rw [Table.get_filter, Option.filter_eq_some_iff] at found
      have ok := standing key session found.1
      apply ok.append _ ok.unset
      intro event listed
      cases List.mem_singleton.mp listed
      refine ⟨fun ends => ends, if_neg ?_⟩
      exact (Nat.ne_of_lt (standing.flag_lt recorded found.1)).symm
  | authorized _ _ _ found => exact standing.authorized recorded found
  | @loggedOut thread task rest session _ _ found =>
    intro key other isOther
    rw [Table.get_erase] at isOther
    split at isOther
    · cases isOther
    · rename_i apart
      have ok := standing key other isOther
      have differs : other.auth.revoked ≠ session.auth.revoked := fun same =>
        apart (standing.key_eq recorded found isOther same.symm)
      apply ok.append
      · intro event listed
        cases List.mem_singleton.mp listed
        exact ⟨fun ends => differs ends.symm, rfl⟩
      · rw [List.mem_cons, not_or]
        exact ⟨differs, ok.unset⟩
  | saved _ _ _ found | dropped _ found => exact standing.preview found _
  | took _ _ found =>
    intro key other isOther
    have ok := standing.preview found _ key other isOther
    exact ok.append (by simp [Event.Ends, Event.post?]) ok.unset
  | revokedAll =>
    intro key session found
    cases found.symm.trans (Std.ExtTreeMap.getElem?_empty)

/-! ## The requests that run -/

/-- What a step leaves to the requests that run. -/
structure Onward (world next : World) : Prop where
  later : world.clock ≤ next.clock
  revoked : world.panel.revoked ⊆ next.panel.revoked
  /-- A session stays, or its flag is set, or it has expired. -/
  sessions : ∀ (key : Digest) session, world.panel.sessions[key]? = some session →
    session.auth.revoked ∈ next.panel.revoked ∨
      min session.auth.expires (session.lastActivity + idle) ≤ next.clock ∨
      ∃ again, next.panel.sessions[key]? = some again ∧ again.auth = session.auth ∧
        session.lastActivity ≤ again.lastActivity
  /-- A session that was made is used no earlier than now. -/
  trace : ∃ events, next.trace = world.trace ++ events ∧
    ∀ event ∈ events, ∀ session < world.panel.flags, ∀ time,
      event.post? session = some time → world.clock ≤ time

/-- An authorization is followed as steps are made. -/
theorem Followed.mono {token : String} {auth : Authorization}
    (followed : Followed sha256 world token auth) (onward : Onward world next) :
    Followed sha256 next token auth := by
  obtain set | expired | ⟨session, found, flag, expires, active⟩ := followed
  · exact .inl (onward.revoked set)
  · exact .inr (.inl (Nat.le_trans expired onward.later))
  · obtain set | expired | ⟨again, kept, same, later⟩ := onward.sessions _ _ found
    · exact .inl (flag ▸ set)
    · exact .inr (.inl (Nat.le_trans (le_min expires active) expired))
    · refine .inr (.inr ⟨again, kept, same ▸ flag, same ▸ expires, ?_⟩)
      exact Nat.le_trans active (Nat.add_le_add_right later _)

/-- An authorization stays granted as steps are made. -/
theorem Granted.mono {token : String} {auth : Authorization} {issue : Issue}
    (granted : Granted world.trace token auth issue) (recorded : world.Recorded sha256)
    (onward : Onward world next) : Granted next.trace token auth issue := by
  obtain ⟨made, flag, isToken, binding, expires, last, posted, active⟩ := granted
  obtain ⟨events, extended, uses⟩ := onward.trace
  rw [extended]
  refine ⟨List.mem_append_left _ made, flag, isToken, binding, expires, ?_⟩
  obtain same | ⟨event, listed, again, tells, isLast⟩ := Trace.last_append events posted
  · exact ⟨last, same, active⟩
  · have after := uses event listed _ (recorded.made issue made).1 _ tells
    obtain ⟨earlier, earlierListed, earlierTells⟩ := Trace.exists_of_last posted
    have before := recorded.posts earlier earlierListed _ _ earlierTells
    exact ⟨again, isLast, Nat.le_trans active (Nat.add_le_add_right (Nat.le_trans before after) _)⟩

/-- What is not within a time of now is that time ago. -/
theorem add_le_of_not_sub_lt {now time width : ℕ} (positive : 0 < width)
    (ago : ¬ now - time < width) : time + width ≤ now := by
  omega

/-- A session that does not last has expired. -/
theorem Sessions.expired_of_lasts {now : Instant} {session : Session}
    (ends : Sessions.lasts now session = false) :
    min session.auth.expires (session.lastActivity + idle) ≤ now := by
  simp only [Sessions.lasts, Bool.and_eq_false_iff, decide_eq_false_iff_not] at ends
  obtain over_ | inactive := ends
  · exact Nat.le_trans (min_le_left _ _) (not_lt.mp over_)
  · exact Nat.le_trans (min_le_right _ _) (add_le_of_not_sub_lt (by decide) inactive)

/-- A step leaves the sessions of the table as they are. -/
theorem onward_of_same (later : world.clock ≤ next.clock)
    (revoked : next.panel.revoked = world.panel.revoked)
    (sessions : next.panel.sessions = world.panel.sessions) {events : List Event}
    (extended : next.trace = world.trace ++ events)
    (unused : ∀ event ∈ events, ∀ session, event.post? session = none) : Onward world next where
  later := later
  revoked := by
    rw [revoked]
    exact List.Subset.refl _
  sessions := by
    intro key session found
    rw [sessions]
    exact .inr (.inr ⟨session, found, rfl, Nat.le_refl _⟩)
  trace := by
    refine ⟨events, extended, ?_⟩
    intro event listed session _ time told
    rw [unused event listed session] at told
    cases told

/-- A step writes one session of the table again. -/
theorem onward_of_insert (later : world.clock ≤ next.clock)
    (revoked : next.panel.revoked = world.panel.revoked) {key : Digest} {session again : Session}
    (found : world.panel.sessions[key]? = some session)
    (sessions : next.panel.sessions = world.panel.sessions.insert key again)
    (auth : again.auth = session.auth) (active : session.lastActivity ≤ again.lastActivity)
    {events : List Event} (extended : next.trace = world.trace ++ events)
    (uses : ∀ event ∈ events, ∀ session time, event.post? session = some time →
      world.clock ≤ time) : Onward world next where
  later := later
  revoked := by
    rw [revoked]
    exact List.Subset.refl _
  sessions := by
    intro sought other isOther
    rw [sessions, Table.get_insert]
    right; right
    by_cases same : key = sought
    · rw [if_pos same]
      rw [same, isOther] at found
      cases found
      exact ⟨again, rfl, auth, active⟩
    · rw [if_neg same]
      exact ⟨other, isOther, rfl, Nat.le_refl _⟩
  trace := ⟨events, extended, fun event listed session _ time told =>
    uses event listed session time told⟩

/-- A step leaves to the requests that run what they need. -/
theorem Moved.onward (injective : Function.Injective sha256) (moved : Moved sha256 world next)
    (recorded : world.Recorded sha256) (ready : world.Ready)
    (standing : world.Standing sha256) : Onward world next := by
  -- A session that `issue` does not retain has expired.
  have retained : ∀ {now : Instant}, now ≤ world.clock → ∀ (key : Digest) session,
      world.panel.sessions[key]? = some session →
      min session.auth.expires (session.lastActivity + idle) ≤ world.clock ∨
        (world.panel.sessions.filter fun _ session => Sessions.lasts now session)[key]? =
          some session := by
    intro now past key session found
    cases lasts : Sessions.lasts now session with
    | false => exact .inl (Nat.le_trans (Sessions.expired_of_lasts lasts) past)
    | true => exact .inr (by rw [Table.get_filter, found, Option.filter_some, if_pos lasts])
  cases moved with
  | tick elapsed =>
    exact onward_of_same (Nat.le_add_right _ _) rfl rfl (List.append_nil _).symm (by simp)
  | stay | limited | passes | drawn | answered =>
    exact onward_of_same (Nat.le_refl _) rfl rfl (List.append_nil _).symm (by simp)
  | permitted | compared | accepted | opened | previewed | applied | vaultChanged | locked | loaded
  | ran | rotated =>
    exact onward_of_same (Nat.le_refl _) rfl rfl rfl (by simp [Event.post?])
  | pruned at_ =>
    obtain ⟨-, -, -, past⟩ := ready _ _ _ _ at_
    refine ⟨Nat.le_refl _, List.Subset.refl _, ?_, [], (List.append_nil _).symm, by simp⟩
    intro key session found
    obtain expired | kept := retained past key session found
    · exact .inr (.inl expired)
    · exact .inr (.inr ⟨session, kept, rfl, Nat.le_refl _⟩)
  | @issued thread ip time code generation binding token csrf now at_ =>
    obtain ⟨-, -, fresh, past⟩ := ready _ _ _ _ at_
    refine ⟨Nat.le_refl _, List.Subset.refl _, ?_, _, rfl, ?_⟩
    · intro key session found
      obtain expired | kept := retained past key session found
      · exact .inr (.inl expired)
      · have apart : sha256 token ≠ key := by
          intro same
          obtain ⟨issue, stands, isKey, -⟩ := standing key session found
          exact fresh issue stands.mem (injective (same.trans isKey)).symm
        refine .inr (.inr ⟨session, ?_, rfl, Nat.le_refl _⟩)
        rw [Table.get_insert, if_neg apart]
        exact kept
    · intro event listed session made time told
      cases List.mem_singleton.mp listed
      have same := (Option.ite_none_right_eq_some.mp told).1
      exact absurd same (Nat.ne_of_lt made).symm
  | @authorized thread token session csrf operations _ found =>
    have active := standing.active_le recorded found
    cases csrf with
    | none =>
      refine onward_of_insert (Nat.le_refl _) rfl found rfl rfl (Nat.le_refl _) rfl ?_
      simp
    | some csrf =>
      refine onward_of_insert (Nat.le_refl _) rfl found rfl rfl active rfl ?_
      intro event listed other time told
      cases List.mem_singleton.mp listed
      rw [← Option.some.inj (Option.ite_none_right_eq_some.mp told).2]
  | @loggedOut thread task rest session _ _ found =>
    refine ⟨Nat.le_refl _, List.subset_cons_self _ _, ?_, _, rfl, by simp [Event.post?]⟩
    intro key other isOther
    by_cases same : sha256 task.token = key
    · rw [← same, found] at isOther
      cases isOther
      exact .inl List.mem_cons_self
    · refine .inr (.inr ⟨other, ?_, rfl, Nat.le_refl _⟩)
      rw [Table.get_erase, if_neg same]
      exact isOther
  | saved _ _ _ found | dropped _ found =>
    exact onward_of_insert (Nat.le_refl _) rfl found rfl rfl (Nat.le_refl _)
      (List.append_nil _).symm (by simp)
  | took _ _ found =>
    exact onward_of_insert (Nat.le_refl _) rfl found rfl rfl (Nat.le_refl _) rfl
      (by simp [Event.post?])
  | revokedAll =>
    refine ⟨Nat.le_refl _, List.subset_append_right _ _, ?_, _, rfl, by simp [Event.post?]⟩
    intro key session found
    left
    apply List.mem_append_left
    exact List.mem_map.mpr ⟨session, Table.mem_valueList.mpr ⟨key, found⟩, rfl⟩

/-- A request that passes is authorized as its session stands. -/
theorem World.Standing.granted (injective : Function.Injective sha256)
    (standing : world.Standing sha256) {token : String} {session : Session}
    (found : world.panel.sessions[sha256 token]? = some session) {auth : Authorization}
    (isAuth : auth = { session.auth with
      expires := min session.auth.expires (session.lastActivity + idle) }) :
    (∃ issue, Granted world.trace token auth issue) ∧ Followed sha256 world token auth := by
  obtain ⟨issue, stands, isKey, flag, binding, expires, posted, -⟩ := standing _ _ found
  subst isAuth
  constructor
  · refine ⟨issue, stands.mem, flag.symm, injective isKey.symm, binding.symm, ?_, _, posted,
      min_le_right _ _⟩
    exact (min_le_left _ _).trans_eq expires
  · exact .inr (.inr ⟨session, found, rfl, min_le_left _ _, min_le_right _ _⟩)

/-- A step keeps the requests that run authorized. -/
theorem Moved.keepsAuthorized (injective : Function.Injective sha256)
    (moved : Moved sha256 world next) (recorded : world.Recorded sha256)
    (onward : Onward world next) (standing : next.Standing sha256)
    (authorized : world.Authorized sha256) : next.Authorized sha256 := by
  intro thread task isTask
  -- A request that ran before is authorized as it was.
  have keep : ∀ {before : Task}, (world.threads thread).task? = some before →
      before.token = task.token → before.auth = task.auth →
        (∃ issue, Granted next.trace task.token task.auth issue) ∧
          Followed sha256 next task.token task.auth := by
    intro before was token auth
    obtain ⟨⟨issue, granted⟩, followed⟩ := authorized _ _ was
    rw [token, auth] at granted followed
    exact ⟨⟨issue, granted.mono recorded onward⟩, followed.mono onward⟩
  by_cases rests : next.threads thread = world.threads thread
  · rw [rests] at isTask
    exact keep isTask rfl rfl
  cases moved with
  | tick | stay | limited | vaultChanged => exact absurd rfl rests
  | passes went =>
    obtain ⟨rfl, same⟩ := moved_to rests
    replace isTask := (congrArg Stage.task? same).symm.trans isTask
    cases went with
    | goOn at_ | enter at_ | matched at_ | checked at_ | exit at_ =>
      cases isTask
      exact keep (congrArg Stage.task? at_) rfl rfl
    | _ => cases isTask
  | revokedAll revokes =>
    cases revokes with
    | host => exact absurd rfl rests
    | task at_ =>
      obtain ⟨rfl, same⟩ := moved_to rests
      replace isTask := (congrArg Stage.task? same).symm.trans isTask
      cases isTask
      exact keep (congrArg Stage.task? at_) rfl rfl
    | rotation =>
      obtain ⟨-, same⟩ := moved_to rests
      replace isTask := (congrArg Stage.task? same).symm.trans isTask
      cases isTask
  | authorized csrf =>
    obtain ⟨-, same⟩ := moved_to rests
    replace isTask := (congrArg Stage.task? same).symm.trans isTask
    cases isTask
    apply standing.granted injective (Table.get_insert _ _ _ _ |>.trans (if_pos rfl))
    cases csrf <;> rfl
  | loggedOut at_ | previewed at_ | saved at_ | took at_ | applied at_ | locked at_ | loaded at_
  | ran at_ =>
    obtain ⟨rfl, same⟩ := moved_to rests
    replace isTask := (congrArg Stage.task? same).symm.trans isTask
    cases isTask
    exact keep (congrArg Stage.task? at_) rfl rfl
  | permitted | compared | accepted | opened | drawn | pruned | issued | answered | dropped
  | rotated =>
    obtain ⟨-, same⟩ := moved_to rests
    replace isTask := (congrArg Stage.task? same).symm.trans isTask
    cases isTask

/-! ## The checks that run -/

/-- What a check has found stays found while the holder of the mutex is not disturbed. -/
theorem Loaded.mono {thread : ℕ} {task : Task} {lapsed lapsed' : Prop}
    (loaded : Loaded world.trace thread task lapsed) (undisturbed : Undisturbed world next)
    (order : lapsed → lapsed') : Loaded next.trace thread task lapsed' := by
  obtain ⟨issue, before, since, extended, still, granted, stood⟩ := loaded
  obtain ⟨events, goesOn, other⟩ := undisturbed.trace
  refine ⟨issue, before, since ++ events, ?_, ?_, granted, stood.imp_right order⟩
  · rw [goesOn, extended, List.append_assoc, List.cons_append]
  · intro listed
    obtain listed | listed := List.mem_append.mp listed
    · exact still listed
    · cases other _ listed

/-- The checks of a thread that rests have found what they need. -/
theorem CheckOk.mono {thread : ℕ} {task : Task} {check : Check}
    (ok : CheckOk world thread task check) (undisturbed : Undisturbed world next) :
    CheckOk next thread task check := by
  cases check with
  | start | done => trivial
  | unrevoked | current =>
    exact Loaded.mono ok undisturbed fun lapsed => Nat.le_trans lapsed undisturbed.later
  | passed reading =>
    obtain ⟨loaded, before, bound⟩ := ok
    exact ⟨loaded.mono undisturbed id, before, undisturbed.session ▸ bound⟩

/-- A check that finds the flag of its session unset finds that the session stands, unless it has
expired. -/
theorem World.Authorized.loaded (authorized : world.Authorized sha256)
    (standing : world.Standing sha256) (recorded : world.Recorded sha256) {thread : ℕ} {task : Task}
    {check : Check} (at_ : world.threads thread = .inVault task check)
    (unset : task.auth.revoked ∉ world.panel.revoked) :
    Loaded (world.trace ++ [.loaded thread task.auth.revoked]) thread task
      (task.auth.expires ≤ world.clock) := by
  obtain ⟨⟨issue, granted⟩, followed⟩ := authorized thread task (by rw [at_]; rfl)
  refine ⟨issue, world.trace, [], rfl, by simp, granted, ?_⟩
  obtain set | expired | ⟨session, found, flag, -⟩ := followed
  · exact absurd set unset
  · exact .inr expired
  · obtain ⟨other, stands, -, otherFlag, -⟩ := standing _ _ found
    have same : issue.session = other.session :=
      granted.2.1.trans (flag.symm.trans otherFlag)
    rw [recorded.unique issue other granted.1 stands.mem (.inr same)]
    exact .inl stands

/-- A step keeps what the checks have found. -/
theorem Moved.keepsChecked (moved : Moved sha256 world next) (exclusive : world.Exclusive)
    (recorded : world.Recorded sha256) (standing : world.Standing sha256)
    (authorized : world.Authorized sha256) (checked : world.Checked) : next.Checked := by
  intro thread task check at_
  by_cases rests : next.threads thread = world.threads thread
  · rw [rests] at at_
    exact (checked _ _ _ at_).mono (moved.undisturbed exclusive (by rw [at_]; rfl) rests)
  cases moved with
  | tick | stay | limited | vaultChanged => exact absurd rfl rests
  | passes went =>
    obtain ⟨rfl, same⟩ := moved_to rests
    have same := same.symm.trans at_
    cases went with
    | enter =>
      cases same
      trivial
    | matched was =>
      cases same
      exact checked _ _ _ was
    | checked was fresh bound =>
      cases same
      obtain ⟨issue, before, since, extended, still, granted, stood⟩ := checked _ _ _ was
      have stands := stood.resolve_right (not_le.mpr fresh)
      exact ⟨⟨issue, before, since, extended, still, granted, .inl stands⟩, fresh, bound⟩
    | _ => cases same
  | revokedAll revokes =>
    cases revokes with
    | host => exact absurd rfl rests
    | task | rotation =>
      obtain ⟨-, same⟩ := moved_to rests
      cases same.symm.trans at_
  | loaded was unset =>
    obtain ⟨rfl, same⟩ := moved_to rests
    cases same.symm.trans at_
    exact authorized.loaded standing recorded was unset
  | ran =>
    obtain ⟨-, same⟩ := moved_to rests
    cases same.symm.trans at_
    trivial
  | permitted | compared | accepted | opened | drawn | pruned | issued | answered | authorized
  | loggedOut | previewed | saved | dropped | took | applied | locked | rotated =>
    obtain ⟨-, same⟩ := moved_to rests
    cases same.symm.trans at_

/-! ## The closures that ran -/

/-- A closure ran with the authority of its session: the session stood when the check found its flag
unset, nothing changed the vault since then, the vault is the one of the login, and when the check
read the clock neither the session nor its last use for a change was too old. -/
def RanOk (earlier : List Event) (thread session : ℕ) (token : String) (reading : Instant)
    (vault : Option Binding) : Prop :=
  ∃ issue before since, earlier = before ++ .loaded thread session :: since ∧
    .vaultChanged ∉ since ∧ Stands before issue ∧ issue.session = session ∧ issue.token = token ∧
    vault = some issue.binding ∧ reading < issue.time + lifetime ∧
    ∃ last, lastPost session before = some last ∧ reading < last + idle

/-- A closure that ran did so with the authority of its session. -/
def Authoritative (earlier : List Event) : Event → Prop
  | .ran thread session token reading vault _ => RanOk earlier thread session token reading vault
  | _ => True

/-- Every closure of a trace ran with the authority of its session. -/
def World.Lawful (world : World) : Prop := Trace.Justified Authoritative world.trace

/-- Events of other kinds need no authority. -/
theorem World.Lawful.append (lawful : world.Lawful) {events : List Event}
    (other : ∀ event ∈ events, ∀ earlier, Authoritative earlier event) :
    Trace.Justified Authoritative (world.trace ++ events) := by
  apply Trace.Justified.append lawful
  rintro front event back rfl
  exact other event (List.mem_append_right _ List.mem_cons_self) _

/-- A closure that is about to run does so with the authority of its session. -/
theorem CheckOk.ranOk {thread : ℕ} {task : Task} {reading : Instant}
    (ok : CheckOk world thread task (.passed reading)) :
    RanOk world.trace thread task.auth.revoked task.token reading
      (world.session.map Binding.fromSession) := by
  obtain ⟨⟨issue, before, since, extended, still, granted, stood⟩, fresh, bound⟩ := ok
  obtain ⟨-, flag, isToken, binding, expires, last, posted, active⟩ := granted
  have stands := stood.resolve_right id
  refine ⟨issue, before, since, extended, still, stands, flag, isToken, ?_, ?_, last, ?_, ?_⟩
  · rw [bound, binding]
  · exact lt_of_lt_of_le fresh expires
  · rw [← flag]
    exact posted
  · exact lt_of_lt_of_le fresh active

/-- A step keeps the closures lawful. -/
theorem Moved.lawful (moved : Moved sha256 world next) (checked : world.Checked)
    (lawful : world.Lawful) : next.Lawful := by
  cases moved with
  | tick | stay | limited | passes | drawn | pruned | answered | saved | dropped => exact lawful
  | authorized csrf => cases csrf <;> exact lawful.append (by simp [Authoritative])
  | ran at_ => exact Trace.Justified.concat lawful (checked _ _ _ at_).ranOk
  | _ => exact lawful.append (by simp [Authoritative])

end Aipass.ControlPanel
