import Aipass.ControlPanel.Authority

/-!
# Previews

A preview has one place at a time: the handler that made it, the session that it is saved in, or
the handler that took it. It is applied from the last of these, and then it has none, so that it is
applied at most once, by the session that made it.
-/
namespace Aipass.ControlPanel

variable {sha256 : String → Digest} {world next : World}

/-- Where a preview may be. -/
inductive Place
  | made (thread : ℕ)
  | saved (key : Digest)
  | taken (thread : ℕ)
deriving DecidableEq

/-- The preview that a thread made and has not saved, with its session. -/
def Stage.made (stage : Stage) : Option (ℕ × Preview) :=
  stage.task?.bind fun task => task.made.map (task.auth.revoked, ·)

/-- The preview that a thread took and has not applied, with its session. -/
def Stage.taken (stage : Stage) : Option (ℕ × Preview) :=
  stage.task?.bind fun task => task.taken.map (task.auth.revoked, ·)

/-- The preview at a place, with its session. -/
def World.held (world : World) : Place → Option (ℕ × Preview)
  | .made thread => (world.threads thread).made
  | .saved key =>
    world.panel.sessions[key]?.bind fun session => session.preview.map (session.auth.revoked, ·)
  | .taken thread => (world.threads thread).taken

/-- The preview saved in a session. -/
theorem World.held_saved {key : Digest} {held : ℕ × Preview} :
    world.held (.saved key) = some held ↔ ∃ session, world.panel.sessions[key]? = some session ∧
      session.preview.map (session.auth.revoked, ·) = some held :=
  Option.bind_eq_some_iff

/-- The identifier of the preview that an event applies. -/
def Event.applied? : Event → Option Uuid
  | .applied _ preview _ => some preview.id
  | _ => none

/-- A preview was taken while it was recent. -/
def TakenInTime (trace : List Event) (held : ℕ × Preview) : Prop :=
  ∃ time, .took held.1 held.2 time ∈ trace ∧ time < held.2.created + fromSecs 300

/-- The previews of the agent, each at one place. -/
structure World.Placed (world : World) : Prop where
  known : ∀ session preview, .previewed session preview ∈ world.trace → preview.id ∈ world.ids
  /-- An identifier is the one of one preview. -/
  unique : ∀ session preview session' preview', .previewed session preview ∈ world.trace →
    .previewed session' preview' ∈ world.trace → preview.id = preview'.id →
      session = session' ∧ preview = preview'
  own : ∀ place held, world.held place = some held → .previewed held.1 held.2 ∈ world.trace
  apart : ∀ place place' held held', world.held place = some held →
    world.held place' = some held' → held.2.id = held'.2.id → place = place'
  /-- What was applied has no place. -/
  unused : ∀ place held, world.held place = some held →
    held.2.id ∉ world.trace.filterMap Event.applied?
  inTime : ∀ thread held, world.held (.taken thread) = some held → TakenInTime world.trace held
  applied : ∀ id ∈ world.trace.filterMap Event.applied?, id ∈ world.ids

/-- The previews of a step were at places of their own before it. -/
structure Shifts (world next : World) (origin : Place → Place) : Prop where
  held : ∀ place held, next.held place = some held → world.held (origin place) = some held
  apart : ∀ place place' held held', next.held place = some held → next.held place' = some held' →
    origin place = origin place' → place = place'

/-- The previews of a step were at their places before it. -/
def Stays (world next : World) : Prop :=
  ∀ place held, next.held place = some held → world.held place = some held

/-- Previews that stay have places of their own. -/
theorem Stays.shifts (stays : Stays world next) : Shifts world next id :=
  ⟨stays, fun _ _ _ _ _ _ same => same⟩

/-- Where a preview was before a step that moves one. -/
def origin (source target place : Place) : Place := if place = target then source else place

/-- One preview goes from a place to another, and the others stay. -/
theorem shifts_of_move {source target : Place} (moves : ∀ place held,
      next.held place = some held → place = target ∧ world.held source = some held ∨
        place ≠ target ∧ place ≠ source ∧ world.held place = some held) :
    Shifts world next (origin source target) where
  held := by
    intro place held isHeld
    obtain ⟨rfl, isHeld⟩ | ⟨other, -, isHeld⟩ := moves place held isHeld
    · rw [origin, if_pos rfl]
      exact isHeld
    · rw [origin, if_neg other]
      exact isHeld
  apart := by
    intro place place' held held' isHeld isHeld' same
    obtain ⟨rfl, -⟩ | ⟨other, apart, -⟩ := moves _ _ isHeld <;>
      obtain ⟨rfl, -⟩ | ⟨other', apart', -⟩ := moves _ _ isHeld'
    · rfl
    · rw [origin, origin, if_pos rfl, if_neg other'] at same
      exact absurd same.symm apart'
    · rw [origin, origin, if_neg other, if_pos rfl] at same
      exact absurd same apart
    · rw [origin, origin, if_neg other, if_neg other'] at same
      exact same

/-- A step that moves previews, and makes and applies none, leaves each at one place. -/
theorem World.Placed.shift (placed : world.Placed) {origin : Place → Place}
    (shifts : Shifts world next origin) {events : List Event}
    (extended : next.trace = world.trace ++ events)
    (made : ∀ session preview, .previewed session preview ∉ events)
    (applied : ∀ event ∈ events, event.applied? = none) (ids : world.ids ⊆ next.ids)
    (inTime : ∀ thread held, next.held (.taken thread) = some held →
      TakenInTime world.trace held ∨ TakenInTime events held) : next.Placed := by
  have was : ∀ session preview, .previewed session preview ∈ next.trace →
      .previewed session preview ∈ world.trace := by
    intro session preview listed
    rw [extended] at listed
    exact (List.mem_append.mp listed).resolve_right (made session preview)
  constructor
  case known => exact fun session preview listed => ids (placed.known _ _ (was _ _ listed))
  case unique =>
    intro session preview session' preview' isFirst isSecond
    exact placed.unique _ _ _ _ (was _ _ isFirst) (was _ _ isSecond)
  case own =>
    intro place held isHeld
    rw [extended]
    exact List.mem_append_left _ (placed.own _ _ (shifts.held _ _ isHeld))
  case apart =>
    intro place place' held held' isHeld isHeld' same
    apply shifts.apart _ _ _ _ isHeld isHeld'
    exact placed.apart _ _ _ _ (shifts.held _ _ isHeld) (shifts.held _ _ isHeld') same
  case unused =>
    intro place held isHeld
    have nothing : events.filterMap Event.applied? = [] := List.filterMap_eq_nil_iff.mpr applied
    rw [extended, List.filterMap_append, nothing, List.append_nil]
    exact placed.unused _ _ (shifts.held _ _ isHeld)
  case inTime =>
    intro thread held isHeld
    rw [extended]
    obtain ⟨time, took, recent⟩ | ⟨time, took, recent⟩ := inTime _ _ isHeld
    · exact ⟨time, List.mem_append_left _ took, recent⟩
    · exact ⟨time, List.mem_append_right _ took, recent⟩
  case applied =>
    have nothing : events.filterMap Event.applied? = [] := List.filterMap_eq_nil_iff.mpr applied
    rw [extended, List.filterMap_append, nothing, List.append_nil]
    exact fun id listed => ids (placed.applied id listed)

/-- A step that leaves the previews at their places leaves each at one place. -/
theorem World.Placed.stay (placed : world.Placed) (stays : Stays world next) {events : List Event}
    (extended : next.trace = world.trace ++ events)
    (other : ∀ event ∈ events, event.applied? = none ∧
      ∀ session preview, event ≠ .previewed session preview)
    (ids : world.ids ⊆ next.ids) : next.Placed := by
  apply placed.shift stays.shifts extended _ (fun event listed => (other event listed).1) ids
  · exact fun thread held isHeld => .inl (placed.inTime _ _ (stays _ _ isHeld))
  · exact fun session preview listed => (other _ listed).2 session preview rfl

/-! ## What stays at its place -/

/-- The preview made by a thread after one thread went on. -/
theorem held_made (world : World) {thread : ℕ} {stage : Stage}
    (threads : next.threads = Function.update world.threads thread stage) (other : ℕ) :
    next.held (.made other) = if other = thread then stage.made else world.held (.made other) := by
  rw [World.held, threads, Function.update_apply, apply_ite Stage.made]
  rfl

/-- The preview taken by a thread after one thread went on. -/
theorem held_taken (world : World) {thread : ℕ} {stage : Stage}
    (threads : next.threads = Function.update world.threads thread stage) (other : ℕ) :
    next.held (.taken other) = if other = thread then stage.taken else world.held (.taken other) := by
  rw [World.held, threads, Function.update_apply, apply_ite Stage.taken]
  rfl

/-- A thread that goes on without a new preview, with the sessions as they are. -/
theorem stays_of_update {thread : ℕ} {stage : Stage}
    (threads : next.threads = Function.update world.threads thread stage)
    (made : ∀ held, stage.made = some held → (world.threads thread).made = some held)
    (taken : ∀ held, stage.taken = some held → (world.threads thread).taken = some held)
    (saved : ∀ key held, next.held (.saved key) = some held →
      world.held (.saved key) = some held) : Stays world next := by
  intro place held isHeld
  cases place with
  | saved key => exact saved key held isHeld
  | made other =>
    rw [held_made world threads] at isHeld
    split at isHeld
    · rename_i same
      rw [same]
      exact made held isHeld
    · exact isHeld
  | taken other =>
    rw [held_taken world threads] at isHeld
    split at isHeld
    · rename_i same
      rw [same]
      exact taken held isHeld
    · exact isHeld

/-- A thread that serves no request holds no preview. -/
theorem stays_of_none {thread : ℕ} {stage : Stage} (none_ : stage.task? = none)
    (threads : next.threads = Function.update world.threads thread stage)
    (saved : ∀ key held, next.held (.saved key) = some held →
      world.held (.saved key) = some held) : Stays world next := by
  apply stays_of_update threads _ _ saved
  · intro held isMade
    rw [Stage.made, none_] at isMade
    cases isMade
  · intro held isTaken
    rw [Stage.taken, none_] at isTaken
    cases isTaken

/-- A thread that goes on with its request holds what it held. -/
theorem stays_of_same {thread : ℕ} {stage : Stage} {before : Task}
    (was : (world.threads thread).task? = some before)
    (same : ∀ task, stage.task? = some task → task.auth.revoked = before.auth.revoked ∧
      task.made = before.made ∧ task.taken = before.taken)
    (threads : next.threads = Function.update world.threads thread stage)
    (saved : ∀ key held, next.held (.saved key) = some held →
      world.held (.saved key) = some held) : Stays world next := by
  apply stays_of_update threads _ _ saved
  · intro held isMade
    obtain ⟨task, isTask, isMade⟩ := Option.bind_eq_some_iff.mp isMade
    obtain ⟨flag, made, -⟩ := same task isTask
    rw [flag, made] at isMade
    exact Option.bind_eq_some_iff.mpr ⟨before, was, isMade⟩
  · intro held isTaken
    obtain ⟨task, isTask, isTaken⟩ := Option.bind_eq_some_iff.mp isTaken
    obtain ⟨flag, -, taken⟩ := same task isTask
    rw [flag, taken] at isTaken
    exact Option.bind_eq_some_iff.mpr ⟨before, was, isTaken⟩

/-- A thread that goes on by itself has the previews that it had. -/
theorem Passes.stays {thread : ℕ} {stage : Stage} {holder : Option ℕ}
    (went : Passes world thread stage holder) :
    Stays world { world with holder, threads := Function.update world.threads thread stage } := by
  cases went with
  | goOn at_ | enter at_ | matched at_ | checked at_ | exit at_ =>
    refine stays_of_same (congrArg Stage.task? at_) ?_ rfl (fun _ _ same => same)
    rintro _ ⟨⟩
    exact ⟨rfl, rfl, rfl⟩
  | _ => exact stays_of_none rfl rfl (fun _ _ same => same)

/-- The session that a request finds by its token is the one it was authorized for. -/
theorem World.Authorized.flag_eq (injective : Function.Injective sha256)
    (authorized : world.Authorized sha256) (recorded : world.Recorded sha256)
    (standing : world.Standing sha256) {thread : ℕ} {task : Task} {session : Session}
    (at_ : world.threads thread = .task task)
    (found : world.panel.sessions[sha256 task.token]? = some session) :
    session.auth.revoked = task.auth.revoked := by
  obtain ⟨⟨issue, made, flag, isToken, -⟩, -⟩ := authorized thread task (congrArg Stage.task? at_)
  obtain ⟨other, stands, isKey, otherFlag, -⟩ := standing _ _ found
  have same : issue = other :=
    recorded.unique issue other made stands.mem (.inl (isToken.trans (injective isKey)))
  rw [otherFlag, ← same, flag]

/-- The previews saved in sessions that are only removed stay. -/
theorem saved_of_sub (sub : ∀ (key : Digest) session, next.panel.sessions[key]? = some session →
      world.panel.sessions[key]? = some session) (key : Digest) (held : ℕ × Preview)
    (isHeld : next.held (.saved key) = some held) : world.held (.saved key) = some held := by
  obtain ⟨session, found, isSaved⟩ := World.held_saved.mp isHeld
  exact World.held_saved.mpr ⟨session, sub key session found, isSaved⟩

/-- The previews saved in sessions of which one is written again stay, if it has the preview that it
had, or none. -/
theorem saved_of_insert {key : Digest} {session again : Session}
    (found : world.panel.sessions[key]? = some session)
    (sessions : next.panel.sessions = world.panel.sessions.insert key again)
    (flag : again.auth.revoked = session.auth.revoked)
    (preview : again.preview = none ∨ again.preview = session.preview) (sought : Digest)
    (held : ℕ × Preview) (isHeld : next.held (.saved sought) = some held) :
    world.held (.saved sought) = some held := by
  obtain ⟨other, isOther, isSaved⟩ := World.held_saved.mp isHeld
  rw [sessions, Table.get_insert] at isOther
  split at isOther
  · rename_i same
    cases isOther
    obtain none_ | kept := preview
    · rw [none_] at isSaved
      cases isSaved
    · rw [flag, kept] at isSaved
      exact World.held_saved.mpr ⟨session, same ▸ found, isSaved⟩
  · exact World.held_saved.mpr ⟨other, isOther, isSaved⟩

/-! ## What is made, saved, taken and applied -/

/-- A preview that is made is at one place. -/
theorem World.Placed.make (placed : world.Placed) (thread : ℕ) {session : ℕ} {preview : Preview}
    (fresh : preview.id ∉ world.ids)
    (elsewhere : ∀ place held, next.held place = some held →
      place = .made thread ∧ held = (session, preview) ∨ world.held place = some held)
    (extended : next.trace = world.trace ++ [.previewed session preview])
    (ids : next.ids = preview.id :: world.ids) : next.Placed := by
  have new : ∀ session' other, .previewed session' other ∈ world.trace → other.id ≠ preview.id :=
    fun _ _ listed same => fresh (same ▸ placed.known _ _ listed)
  have events : ∀ session' other, .previewed session' other ∈ next.trace →
      .previewed session' other ∈ world.trace ∨ session' = session ∧ other = preview := by
    intro session' other listed
    rw [extended] at listed
    obtain listed | listed := List.mem_append.mp listed
    · exact .inl listed
    · cases List.mem_singleton.mp listed
      exact .inr ⟨rfl, rfl⟩
  constructor
  case known =>
    intro session' other listed
    rw [ids]
    obtain listed | ⟨-, rfl⟩ := events _ _ listed
    · exact List.mem_cons_of_mem _ (placed.known _ _ listed)
    · exact List.mem_cons_self
  case unique =>
    intro first isFirst second isSecond listed listed' same
    obtain listed | ⟨rfl, rfl⟩ := events _ _ listed <;>
      obtain listed' | ⟨rfl, rfl⟩ := events _ _ listed'
    · exact placed.unique _ _ _ _ listed listed' same
    · exact absurd same (new _ _ listed)
    · exact absurd same.symm (new _ _ listed')
    · exact ⟨rfl, rfl⟩
  case own =>
    intro place held isHeld
    rw [extended]
    obtain ⟨-, rfl⟩ | isHeld := elsewhere _ _ isHeld
    · exact List.mem_append_right _ List.mem_cons_self
    · exact List.mem_append_left _ (placed.own _ _ isHeld)
  case apart =>
    intro place place' held held' isHeld isHeld' same
    obtain ⟨rfl, rfl⟩ | isHeld := elsewhere _ _ isHeld <;>
      obtain ⟨rfl, rfl⟩ | isHeld' := elsewhere _ _ isHeld'
    · rfl
    · exact absurd same.symm (new _ _ (placed.own _ _ isHeld'))
    · exact absurd same (new _ _ (placed.own _ _ isHeld))
    · exact placed.apart _ _ _ _ isHeld isHeld' same
  case unused =>
    intro place held isHeld
    rw [extended, List.filterMap_append]
    have kept : held.2.id ∉ world.trace.filterMap Event.applied? := by
      obtain ⟨-, rfl⟩ | isHeld := elsewhere _ _ isHeld
      · exact fun listed => fresh (placed.applied _ listed)
      · exact placed.unused _ _ isHeld
    exact fun listed => kept ((List.mem_append.mp listed).resolve_right (by simp [Event.applied?]))
  case inTime =>
    intro other held isHeld
    rw [extended]
    obtain ⟨made, -⟩ | isHeld := elsewhere _ _ isHeld
    · cases made
    · obtain ⟨time, took, recent⟩ := placed.inTime _ _ isHeld
      exact ⟨time, List.mem_append_left _ took, recent⟩
  case applied =>
    intro id listed
    rw [extended, List.filterMap_append] at listed
    rw [ids]
    apply List.mem_cons_of_mem
    exact placed.applied id ((List.mem_append.mp listed).resolve_right (by simp [Event.applied?]))

/-- A preview that is applied has no place. -/
theorem World.Placed.apply (placed : world.Placed) {thread session : ℕ} {preview : Preview}
    {time : Instant} (was : world.held (.taken thread) = some (session, preview))
    (gone : next.held (.taken thread) = none) (stays : Stays world next)
    (extended : next.trace = world.trace ++ [.applied session preview time])
    (ids : next.ids = world.ids) : next.Placed := by
  have events : ∀ session' other, .previewed session' other ∈ next.trace →
      .previewed session' other ∈ world.trace := by
    intro session' other listed
    rw [extended] at listed
    exact (List.mem_append.mp listed).resolve_right (by simp)
  constructor
  case known =>
    intro session' other listed
    rw [ids]
    exact placed.known _ _ (events _ _ listed)
  case unique =>
    intro first isFirst second isSecond listed listed' same
    exact placed.unique _ _ _ _ (events _ _ listed) (events _ _ listed') same
  case own =>
    intro place held isHeld
    rw [extended]
    exact List.mem_append_left _ (placed.own _ _ (stays _ _ isHeld))
  case apart =>
    intro place place' held held' isHeld isHeld' same
    exact placed.apart _ _ _ _ (stays _ _ isHeld) (stays _ _ isHeld') same
  case unused =>
    intro place held isHeld listed
    rw [extended, List.filterMap_append] at listed
    obtain listed | listed := List.mem_append.mp listed
    · exact placed.unused _ _ (stays _ _ isHeld) listed
    · -- Only the preview applied has this identifier, and its place is empty.
      have same : held.2.id = preview.id := List.mem_singleton.mp listed
      have place_eq := placed.apart _ _ _ _ (stays _ _ isHeld) was same
      rw [place_eq, gone] at isHeld
      cases isHeld
  case inTime =>
    intro other held isHeld
    rw [extended]
    obtain ⟨time, took, recent⟩ := placed.inTime _ _ (stays _ _ isHeld)
    exact ⟨time, List.mem_append_left _ took, recent⟩
  case applied =>
    intro id listed
    rw [extended, List.filterMap_append] at listed
    rw [ids]
    obtain listed | listed := List.mem_append.mp listed
    · exact placed.applied id listed
    · have same : id = preview.id := List.mem_singleton.mp listed
      rw [same]
      exact placed.known _ _ (placed.own _ _ was)

/-- A preview that is saved goes from the handler that made it to the session it is of. -/
theorem World.Placed.save (placed : world.Placed) (injective : Function.Injective sha256)
    (authorized : world.Authorized sha256) (recorded : world.Recorded sha256)
    (standing : world.Standing sha256) {thread : ℕ} {task : Task} {rest : List Operation}
    {preview : Preview} {session : Session} (at_ : world.threads thread = .task task)
    (made : task.made = some preview)
    (found : world.panel.sessions[sha256 task.token]? = some session) :
    ({ world with
        panel := world.panel.withPreview sha256 task.token session (some preview)
        threads := Function.update world.threads thread
          (.task { task with rest, made := none }) } : World).Placed := by
  have was : (world.threads thread).task? = some task := congrArg Stage.task? at_
  have flag := authorized.flag_eq injective recorded standing at_ found
  have isMade : world.held (.made thread) = some (session.auth.revoked, preview) := by
    rw [flag]
    exact Option.bind_eq_some_iff.mpr ⟨task, was, by rw [made]; rfl⟩
  have moves : Shifts world
      { world with
        panel := world.panel.withPreview sha256 task.token session (some preview)
        threads := Function.update world.threads thread (.task { task with rest, made := none }) }
      (origin (.made thread) (.saved (sha256 task.token))) := by
    apply shifts_of_move
    intro place held isHeld
    cases place with
    | made other =>
      rw [held_made world rfl] at isHeld
      split at isHeld
      · cases isHeld
      · rename_i apart
        exact .inr ⟨by simp, by simpa using apart, isHeld⟩
    | taken other =>
      rw [held_taken world rfl] at isHeld
      split at isHeld
      · rename_i same
        rw [same]
        exact .inr ⟨by simp, by simp, (congrArg (Option.bind · _) was).trans isHeld⟩
      · exact .inr ⟨by simp, by simp, isHeld⟩
    | saved key =>
      obtain ⟨other, found, isSaved⟩ := World.held_saved.mp isHeld
      rw [Sessions.withPreview, Table.get_insert] at found
      split at found
      · rename_i same
        cases found
        exact .inl ⟨congrArg Place.saved same.symm, isMade.trans isSaved⟩
      · rename_i apart
        exact .inr ⟨fun same => apart (Place.saved.inj same).symm, by simp,
          World.held_saved.mpr ⟨other, found, isSaved⟩⟩
  apply placed.shift moves (List.append_nil _).symm (by simp) (by simp) (List.Subset.refl _)
  exact fun other held isHeld => .inl (placed.inTime other held (moves.held _ _ isHeld))

/-- A preview that is taken goes from the session it is of to the handler that asked for it. -/
theorem World.Placed.take (placed : world.Placed) (injective : Function.Injective sha256)
    (authorized : world.Authorized sha256) (recorded : world.Recorded sha256)
    (standing : world.Standing sha256) {thread : ℕ} {task : Task} {rest : List Operation}
    {preview : Preview} {session : Session} (at_ : world.threads thread = .task task)
    (found : world.panel.sessions[sha256 task.token]? = some session)
    (isSaved : session.preview = some preview)
    (recent : world.clock - preview.created < fromSecs 300) :
    ({ world with
        panel := world.panel.withPreview sha256 task.token session none
        trace := world.trace ++ [.took task.auth.revoked preview world.clock]
        threads := Function.update world.threads thread
          (.task { task with rest, taken := some preview }) } : World).Placed := by
  have was : (world.threads thread).task? = some task := congrArg Stage.task? at_
  have flag := authorized.flag_eq injective recorded standing at_ found
  have source : world.held (.saved (sha256 task.token)) = some (task.auth.revoked, preview) := by
    rw [← flag]
    exact World.held_saved.mpr ⟨session, found, by rw [isSaved]; rfl⟩
  have moves : Shifts world
      { world with
        panel := world.panel.withPreview sha256 task.token session none
        trace := world.trace ++ [.took task.auth.revoked preview world.clock]
        threads := Function.update world.threads thread
          (.task { task with rest, taken := some preview }) }
      (origin (.saved (sha256 task.token)) (.taken thread)) := by
    apply shifts_of_move
    intro place held isHeld
    cases place with
    | taken other =>
      rw [held_taken world rfl] at isHeld
      split at isHeld
      · rename_i same
        exact .inl ⟨congrArg Place.taken same, source.trans isHeld⟩
      · rename_i apart
        exact .inr ⟨by simpa using apart, by simp, isHeld⟩
    | made other =>
      rw [held_made world rfl] at isHeld
      split at isHeld
      · rename_i same
        rw [same]
        exact .inr ⟨by simp, by simp, (congrArg (Option.bind · _) was).trans isHeld⟩
      · exact .inr ⟨by simp, by simp, isHeld⟩
    | saved key =>
      obtain ⟨other, found, isSaved⟩ := World.held_saved.mp isHeld
      rw [Sessions.withPreview, Table.get_insert] at found
      split at found
      · cases found
        cases isSaved
      · rename_i apart
        exact .inr ⟨by simp, fun same => apart (Place.saved.inj same).symm,
          World.held_saved.mpr ⟨other, found, isSaved⟩⟩
  apply placed.shift moves rfl (by simp) (by simp [Event.applied?]) (List.Subset.refl _)
  intro other held isHeld
  rw [held_taken world rfl] at isHeld
  split at isHeld
  · cases isHeld
    exact .inr ⟨world.clock, List.mem_cons_self, lt_add_of_tsub_lt_left recent⟩
  · exact .inl (placed.inTime other held isHeld)

/-- A step leaves each preview at one place. -/
theorem Moved.placed (injective : Function.Injective sha256) (moved : Moved sha256 world next)
    (authorized : world.Authorized sha256) (recorded : world.Recorded sha256)
    (standing : world.Standing sha256) (placed : world.Placed) : next.Placed := by
  cases moved with
  | tick | stay | limited =>
    exact placed.stay (fun _ _ same => same) (List.append_nil _).symm (by simp)
      (List.Subset.refl _)
  | passes went =>
    exact placed.stay went.stays (List.append_nil _).symm (by simp) (List.Subset.refl _)
  | drawn | answered =>
    exact placed.stay (stays_of_none rfl rfl fun _ _ same => same) (List.append_nil _).symm (by simp)
      (List.Subset.refl _)
  | permitted | compared | accepted | opened | rotated =>
    exact placed.stay (stays_of_none rfl rfl fun _ _ same => same) rfl (by simp [Event.applied?])
      (List.Subset.refl _)
  | vaultChanged =>
    exact placed.stay (fun _ _ same => same) rfl (by simp [Event.applied?]) (List.Subset.refl _)
  | locked at_ | loaded at_ | ran at_ =>
    refine placed.stay (stays_of_same (congrArg Stage.task? at_) ?_ rfl fun _ _ same => same) rfl
      (by simp [Event.applied?]) (List.Subset.refl _)
    rintro _ ⟨⟩
    exact ⟨rfl, rfl, rfl⟩
  | pruned =>
    refine placed.stay (stays_of_none rfl rfl (saved_of_sub ?_)) (List.append_nil _).symm (by simp)
      (List.Subset.refl _)
    intro key session found
    rw [Table.get_filter, Option.filter_eq_some_iff] at found
    exact found.1
  | issued =>
    refine placed.stay (stays_of_none rfl rfl ?_) rfl (by simp [Event.applied?])
      (List.Subset.refl _)
    intro key held isHeld
    obtain ⟨session, found, isSaved⟩ := World.held_saved.mp isHeld
    rw [Table.get_insert] at found
    split at found
    · cases found
      cases isSaved
    · rw [Table.get_filter, Option.filter_eq_some_iff] at found
      exact World.held_saved.mpr ⟨session, found.1, isSaved⟩
  | authorized csrf _ at_ found =>
    refine placed.stay (stays_of_update rfl ?_ ?_ (saved_of_insert found rfl ?_ ?_)) rfl ?_
      (List.Subset.refl _)
    · intro held isMade
      cases isMade
    · intro held isTaken
      cases isTaken
    · cases csrf <;> rfl
    · cases csrf <;> exact .inr rfl
    · cases csrf <;> simp [Event.applied?]
  | loggedOut at_ =>
    refine placed.stay (stays_of_same (congrArg Stage.task? at_) ?_ rfl (saved_of_sub ?_)) rfl
      (by simp [Event.applied?]) (List.Subset.refl _)
    · rintro _ ⟨⟩
      exact ⟨rfl, rfl, rfl⟩
    · intro key session found
      rw [Table.get_erase] at found
      split at found
      · cases found
      · exact found
  | revokedAll revokes =>
    have saved : ∀ key held, (({ world with
        panel := world.panel.revokeAll } : World).held (.saved key) = some held) →
          world.held (.saved key) = some held := by
      intro key held isHeld
      obtain ⟨session, found, -⟩ := World.held_saved.mp isHeld
      cases found.symm.trans Std.ExtTreeMap.getElem?_empty
    cases revokes with
    | host =>
      refine placed.stay ?_ rfl (by simp [Event.applied?]) (List.Subset.refl _)
      intro place held isHeld
      cases place with
      | saved key => exact saved key held isHeld
      | made | taken => exact isHeld
    | task at_ =>
      refine placed.stay (stays_of_same (congrArg Stage.task? at_) ?_ rfl saved) rfl
        (by simp [Event.applied?]) (List.Subset.refl _)
      rintro _ ⟨⟩
      exact ⟨rfl, rfl, rfl⟩
    | rotation =>
      exact placed.stay (stays_of_none rfl rfl saved) rfl (by simp [Event.applied?])
        (List.Subset.refl _)
  | dropped _ found =>
    exact placed.stay (stays_of_none rfl rfl (saved_of_insert found rfl rfl (.inl rfl)))
      (List.append_nil _).symm (by simp) (List.Subset.refl _)
  | @previewed thread task rest preview at_ _ fresh =>
    refine placed.make thread fresh ?_ rfl rfl
    intro place held isHeld
    cases place with
    | saved => exact .inr isHeld
    | made other =>
      rw [held_made world rfl] at isHeld
      split at isHeld
      · rename_i same
        cases isHeld
        exact .inl ⟨congrArg Place.made same, rfl⟩
      · exact .inr isHeld
    | taken other =>
      rw [held_taken world rfl] at isHeld
      split at isHeld
      · rename_i same
        have was := congrArg Stage.task? at_
        rw [same]
        exact .inr ((congrArg (Option.bind · _) was).trans isHeld)
      · exact .inr isHeld
  | saved at_ _ made found => exact placed.save injective authorized recorded standing at_ made found
  | took at_ _ found held recent =>
    exact placed.take injective authorized recorded standing at_ found held recent
  | @applied thread task rest preview at_ _ taken =>
    have was := congrArg Stage.task? at_
    have isTaken : world.held (.taken thread) = some (task.auth.revoked, preview) :=
      Option.bind_eq_some_iff.mpr ⟨task, was, by rw [taken]; rfl⟩
    refine placed.apply isTaken ?_ (stays_of_update rfl ?_ ?_ fun _ _ same => same) rfl rfl
    · exact (congrArg Stage.taken (Function.update_self _ _ _)).trans rfl
    · exact fun held isMade => (congrArg (Option.bind · _) was).trans isMade
    · intro held none_
      cases none_

end Aipass.ControlPanel
