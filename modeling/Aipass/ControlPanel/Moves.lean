import Aipass.ControlPanel.Requests

/-!
# What a step of the agent does

The steps of the agent, told one by one: where the thread was, what the step changes and what it
adds to the trace. The invariants are proved from these.
-/
namespace Aipass.ControlPanel

variable {sha256 : String → Digest}

/-! ## What the operations of the panel return -/

namespace Sessions

variable {panel next : Sessions}

/-- A guard is returned when few attempts are recent and no other attempt is made. -/
theorem loginPermit_eq_true {ip : IpAddr} {now : Instant}
    (permitted : panel.loginPermit ip now = (next, true)) :
    (panel.recentAttempts now).length < 20 ∧
      (panel.recentAttempts now).countP (fun attempt => attempt.1 = ip) < 5 ∧
      panel.loginBusy = false ∧
      next = { panel with
        loginBusy := true, attempts := panel.recentAttempts now ++ [(ip, now)] } := by
  simp only [loginPermit] at permitted
  split at permitted
  · cases permitted
  · rename_i few
    split at permitted
    · cases permitted
    · rename_i idle
      obtain ⟨rfl, -⟩ := Prod.mk.inj permitted
      rw [not_or, not_le, not_le] at few
      exact ⟨few.1, few.2, Bool.not_eq_true _ ▸ idle, rfl⟩

/-- An attempt that is refused only retains what is recent. -/
theorem loginPermit_eq_false {ip : IpAddr} {now : Instant}
    (refused : panel.loginPermit ip now = (next, false)) :
    next = { panel with attempts := panel.recentAttempts now } := by
  simp only [loginPermit] at refused
  split at refused
  · exact (Prod.mk.inj refused).1.symm
  · split at refused
    · exact (Prod.mk.inj refused).1.symm
    · cases refused

/-- What lets a request pass. -/
theorem authorized_eq_ok {token : String} {csrf : Option String} {now : Instant}
    {auth : Authorization} (passed : panel.authorized sha256 token csrf now = .ok (next, auth)) :
    ∃ session, panel.sessions[sha256 token]? = some session ∧ now < session.auth.expires ∧
      now - session.lastActivity < idle ∧ session.auth.revoked ∉ panel.revoked ∧
      next = { panel with
        sessions := panel.sessions.insert (sha256 token) (authorizedSession session csrf now) } ∧
      auth = { session.auth with
        expires := min session.auth.expires
          ((authorizedSession session csrf now).lastActivity + idle) } := by
  simp only [authorized, bind_eq_ok, okOr_eq_ok, refuseIf_eq_ok, pure, Except.pure,
    Except.ok.injEq, Prod.mk.injEq, Bool.or_eq_false_iff, decide_eq_false_iff_not, not_le] at passed
  obtain ⟨session, found, -, ⟨⟨fresh, active⟩, unset⟩, -, -, rfl, rfl⟩ := passed
  refine ⟨session, found, fresh, active, ?_, rfl, ?_⟩
  · simpa using unset
  · cases csrf <;> rfl

/-- A session is made of a binding when the generation is still the same and there is room. -/
theorem issue_eq_ok {binding : Binding} {generation : UInt64} {token csrf : String}
    {now : Instant} (made : panel.issue sha256 binding generation token csrf now = (next, .ok ())) :
    (panel.sessions.filter fun _ session => lasts now session).size < 32 ∧
      next = { panel with
        sessions := (panel.sessions.filter fun _ session => lasts now session).insert
          (sha256 token) (panel.freshSession binding generation csrf now)
        flags := panel.flags + 1 } := by
  simp only [issue] at made
  split at made
  · cases made
  · split at made
    · cases made
    · rename_i room
      exact ⟨not_le.mp room, (Prod.mk.inj made).1.symm⟩

/-- A session that is not made leaves those that last. -/
theorem issue_eq_error {binding : Binding} {generation : UInt64} {token csrf : String}
    {now : Instant} {error : ServiceError}
    (refused : panel.issue sha256 binding generation token csrf now = (next, .error error)) :
    next = panel ∨
      next = { panel with sessions := panel.sessions.filter fun _ session => lasts now session } := by
  simp only [issue] at refused
  split at refused
  · exact .inl (Prod.mk.inj refused).1.symm
  · split at refused
    · exact .inr (Prod.mk.inj refused).1.symm
    · cases refused

/-- A preview is saved in the session of the token. -/
theorem savePreview_eq_ok {token : String} {preview : Preview}
    (saved : panel.savePreview sha256 token preview = .ok next) :
    ∃ session, panel.sessions[sha256 token]? = some session ∧
      next = panel.withPreview sha256 token session (some preview) := by
  simp only [savePreview, bind_eq_ok, okOr_eq_ok, pure, Except.pure, Except.ok.injEq] at saved
  obtain ⟨session, found, rfl⟩ := saved
  exact ⟨session, found, rfl⟩

/-- A preview is taken from the session of the token, while it is recent. -/
theorem takePreview_eq_ok {token : String} {id : Uuid} {now : Instant} {preview : Preview}
    (took : panel.takePreview sha256 token id now = (next, .ok preview)) :
    ∃ session, panel.sessions[sha256 token]? = some session ∧ session.preview = some preview ∧
      now - preview.created < fromSecs 300 ∧
      next = panel.withPreview sha256 token session none := by
  unfold takePreview at took
  split at took
  · cases took
  · rename_i session found
    obtain ⟨rfl, kept⟩ := Prod.mk.inj took
    rw [okOr_eq_ok, Option.filter_eq_some_iff, decide_eq_true_eq] at kept
    exact ⟨session, found, kept.1, kept.2.2, rfl⟩

/-- A preview that is not returned is gone. -/
theorem takePreview_eq_error {token : String} {id : Uuid} {now : Instant} {error : ServiceError}
    (refused : panel.takePreview sha256 token id now = (next, .error error)) :
    next = panel ∨ ∃ session, panel.sessions[sha256 token]? = some session ∧
      next = panel.withPreview sha256 token session none := by
  unfold takePreview at refused
  split at refused
  · exact .inl (Prod.mk.inj refused).1.symm
  · rename_i session found
    exact .inr ⟨session, found, (Prod.mk.inj refused).1.symm⟩

/-- A session that is signed out is removed, and its flag is set. -/
theorem logout_of_some {token : String} {session : Session}
    (found : panel.sessions[sha256 token]? = some session) :
    panel.logout sha256 token = { panel with
      sessions := panel.sessions.erase (sha256 token)
      revoked := session.auth.revoked :: panel.revoked } := by
  rw [logout, found]

/-- Without a session there is nothing to sign out of. -/
theorem logout_of_none {token : String} (missing : panel.sessions[sha256 token]? = none) :
    panel.logout sha256 token = panel := by
  rw [logout, missing]

end Sessions

/-- A login is accepted with the code whose hash is stored, for the vault that is unlocked. -/
theorem login_eq_ok {stored : Stored} {panel : Sessions} {session opened : Option SessionInfo}
    {code : String} {generation : UInt64} {ready : Bool} {info : SessionInfo}
    (accepted : login sha256 stored panel session code generation opened ready = .ok info) :
    reachesCheck stored panel code generation = true ∧
      stored.accessCodeHash = some (sha256 code) ∧ (session = some info ∨ session = none) := by
  simp only [login, bind_eq_ok, okOr_eq_ok, refuseIf_eq_ok, pure, Except.pure, Except.ok.injEq,
    Bool.or_eq_false_iff, decide_eq_false_iff_not, not_not] at accepted
  obtain ⟨-, ⟨length, same⟩, expected, hashed, -, rfl, _, -, held, found, -, -, -, -, rfl⟩ :=
    accepted
  refine ⟨?_, hashed, ?_⟩
  · simp [reachesCheck, length, same, hashed]
  · cases session with
    | none => exact .inr rfl
    | some unlocked => exact .inl (congrArg some (Except.ok.inj found))

/-! ## The steps -/

/-- Whether a thread has the session mutex. -/
def Stage.holds : Stage → Bool
  | .attempt _ _ (.holding ..) | .attempt _ _ (.accepted ..) | .attempt _ _ (.drawn ..)
  | .attempt _ _ .leaving | .inVault .. | .rotating => true
  | _ => false

/-- A thread goes on by itself: to another stage, with the session mutex held as given. -/
inductive Passes (world : World) (thread : ℕ) : Stage → Option ℕ → Prop
  /-- An attempt without a code is over. -/
  | malformed {ip time} (at_ : world.threads thread = .attempt ip time (.permitted none)) :
      Passes world thread (.attempt ip time .answered) world.holder
  /-- An attempt reads the generation. -/
  | stamp {ip time code}
      (at_ : world.threads thread = .attempt ip time (.permitted (some code))) :
      Passes world thread (.attempt ip time (.stamped code world.panel.generation)) world.holder
  /-- An attempt takes the session mutex. -/
  | hold {ip time code generation}
      (at_ : world.threads thread = .attempt ip time (.stamped code generation))
      (free : world.holder = none) :
      Passes world thread (.attempt ip time (.holding code generation)) (some thread)
  /-- An attempt is refused before its code is compared. -/
  | refuse {ip time code generation}
      (at_ : world.threads thread = .attempt ip time (.holding code generation)) :
      Passes world thread (.attempt ip time .leaving) world.holder
  /-- A session is refused. -/
  | unissued {ip time code generation binding token csrf now}
      (at_ : world.threads thread =
        .attempt ip time (.drawn code generation binding token csrf now)) :
      Passes world thread (.attempt ip time .leaving) world.holder
  /-- An attempt gives the session mutex back. -/
  | leave {ip time} (at_ : world.threads thread = .attempt ip time .leaving) :
      Passes world thread (.attempt ip time .answered) none
  /-- A handler is over. -/
  | ended {task} (at_ : world.threads thread = .task task) : Passes world thread .free world.holder
  /-- A handler goes on with nothing changed. -/
  | goOn {task : Task} {operation rest} (at_ : world.threads thread = .task task)
      (isRest : task.rest = operation :: rest) :
      Passes world thread (.task { task with rest }) world.holder
  /-- `with_vault` takes the session mutex. -/
  | enter {task : Task} {rest} (at_ : world.threads thread = .task task)
      (isRest : task.rest = .vault :: rest) (free : world.holder = none) :
      Passes world thread (.inVault { task with rest } .start) (some thread)
  /-- `with_vault` refuses. -/
  | deny {task check} (at_ : world.threads thread = .inVault task check) :
      Passes world thread .free none
  /-- The generation is the one of the session. -/
  | matched {task} (at_ : world.threads thread = .inVault task .unrevoked) :
      Passes world thread (.inVault task .current) world.holder
  /-- The session has not expired, and it is bound to the vault. -/
  | checked {task} (at_ : world.threads thread = .inVault task .current)
      (fresh : world.clock < task.auth.expires)
      (bound : world.session.map Binding.fromSession = some task.auth.binding) :
      Passes world thread (.inVault task (.passed world.clock)) world.holder
  /-- `with_vault` returns. -/
  | exit {task} (at_ : world.threads thread = .inVault task .done) :
      Passes world thread (.task task) none

/-- Who revokes all sessions: the host, a handler, or a rotation at its end. -/
inductive Revokes (world : World) : (ℕ → Stage) → Option ℕ → Prop
  | host : Revokes world world.threads world.holder
  | task {thread} {task : Task} {rest} (at_ : world.threads thread = .task task)
      (isRest : task.rest = .revokeAll :: rest) :
      Revokes world (Function.update world.threads thread (.task { task with rest })) world.holder
  | rotation {thread} (at_ : world.threads thread = .rotating) :
      Revokes world (Function.update world.threads thread .free) none

/-- What a step does. -/
inductive Moved (sha256 : String → Digest) (world : World) : World → Prop
  | tick (elapsed : ℕ) : Moved sha256 world { world with clock := world.clock + elapsed }
  | stay : Moved sha256 world world
  /-- An attempt to sign in is not permitted. -/
  | limited : Moved sha256 world
      { world with panel := { world.panel with
          attempts := world.panel.recentAttempts world.clock } }
  | permitted {thread ip code} (at_ : world.threads thread = .free)
      (few : (world.panel.recentAttempts world.clock).length < 20)
      (own : (world.panel.recentAttempts world.clock).countP (fun attempt => attempt.1 = ip) < 5)
      (idle : world.panel.loginBusy = false) : Moved sha256 world
      { world with
        panel := { world.panel with
          loginBusy := true
          attempts := world.panel.recentAttempts world.clock ++ [(ip, world.clock)] }
        trace := world.trace ++ [.permitted ip world.clock]
        threads := Function.update world.threads thread
          (.attempt ip world.clock (.permitted code)) }
  | passes {thread stage holder} (went : Passes world thread stage holder) : Moved sha256 world
      { world with holder, threads := Function.update world.threads thread stage }
  /-- The code of an attempt is compared, and it is refused. -/
  | compared {thread ip time code generation}
      (at_ : world.threads thread = .attempt ip time (.holding code generation)) :
      Moved sha256 world
      { world with
        trace := world.trace ++ [.compared ip time world.clock]
        threads := Function.update world.threads thread (.attempt ip time .leaving) }
  /-- The code of an attempt is the one stored. -/
  | accepted {thread ip time code generation info}
      (at_ : world.threads thread = .attempt ip time (.holding code generation))
      (same : world.stored.accessCodeHash = some (sha256 code))
      (unlocked : world.session = some info) : Moved sha256 world
      { world with
        trace := world.trace ++ [.compared ip time world.clock]
        threads := Function.update world.threads thread
          (.attempt ip time (.accepted code generation (.fromSession info))) }
  /-- The code of an attempt is the one stored, and it opens the vault. -/
  | opened {thread ip time code generation info}
      (at_ : world.threads thread = .attempt ip time (.holding code generation))
      (same : world.stored.accessCodeHash = some (sha256 code)) : Moved sha256 world
      { world with
        session := some info
        trace := world.trace ++ [.compared ip time world.clock, .vaultChanged]
        threads := Function.update world.threads thread
          (.attempt ip time (.accepted code generation (.fromSession info))) }
  /-- `issue` draws a token and reads the clock. -/
  | drawn {thread ip time code generation binding token csrf}
      (at_ : world.threads thread = .attempt ip time (.accepted code generation binding))
      (fresh : token ∉ world.drawn) : Moved sha256 world
      { world with
        drawn := token :: world.drawn
        threads := Function.update world.threads thread
          (.attempt ip time (.drawn code generation binding token csrf world.clock)) }
  /-- There are too many sessions. -/
  | pruned {thread ip time code generation binding token csrf now}
      (at_ : world.threads thread =
        .attempt ip time (.drawn code generation binding token csrf now)) : Moved sha256 world
      { world with
        panel := { world.panel with
          sessions := world.panel.sessions.filter fun _ session => Sessions.lasts now session }
        threads := Function.update world.threads thread (.attempt ip time .leaving) }
  | issued {thread ip time code generation binding token csrf now}
      (at_ : world.threads thread =
        .attempt ip time (.drawn code generation binding token csrf now))
      (room : (world.panel.sessions.filter fun _ session =>
        Sessions.lasts now session).size < 32) : Moved sha256 world
      { world with
        panel := { world.panel with
          sessions := (world.panel.sessions.filter fun _ session =>
            Sessions.lasts now session).insert (sha256 token)
              (world.panel.freshSession binding generation csrf now)
          flags := world.panel.flags + 1 }
        trace := world.trace ++ [.issued ⟨world.panel.flags, token, code, binding, now⟩]
        threads := Function.update world.threads thread (.attempt ip time .leaving) }
  /-- An attempt is over. -/
  | answered {thread ip time} (at_ : world.threads thread = .attempt ip time .answered) :
      Moved sha256 world
      { world with
        panel := { world.panel with loginBusy := false }
        threads := Function.update world.threads thread .free }
  /-- A request passes. -/
  | authorized {thread token session} (csrf : Option String) (operations : List Operation)
      (at_ : world.threads thread = .free)
      (found : world.panel.sessions[sha256 token]? = some session)
      (active : world.clock - session.lastActivity < idle)
      (unset : session.auth.revoked ∉ world.panel.revoked) : Moved sha256 world
      { world with
        panel := { world.panel with
          sessions := world.panel.sessions.insert (sha256 token)
            (Sessions.authorizedSession session csrf world.clock) }
        trace := world.trace ++
          if csrf.isSome then [.posted session.auth.revoked world.clock] else []
        threads := Function.update world.threads thread (.task ⟨token, { session.auth with
          expires := min session.auth.expires
            ((Sessions.authorizedSession session csrf world.clock).lastActivity + idle) },
          operations, none, none⟩) }
  | loggedOut {thread} {task : Task} {rest session} (at_ : world.threads thread = .task task)
      (isRest : task.rest = .logout :: rest)
      (found : world.panel.sessions[sha256 task.token]? = some session) : Moved sha256 world
      { world with
        panel := { world.panel with
          sessions := world.panel.sessions.erase (sha256 task.token)
          revoked := session.auth.revoked :: world.panel.revoked }
        trace := world.trace ++ [.loggedOut session.auth.revoked]
        threads := Function.update world.threads thread (.task { task with rest }) }
  | previewed {thread} {task : Task} {rest} {preview : Preview}
      (at_ : world.threads thread = .task task) (isRest : task.rest = .preview :: rest)
      (fresh : preview.id ∉ world.ids) (now : preview.created = world.clock) :
      Moved sha256 world
      { world with
        ids := preview.id :: world.ids
        trace := world.trace ++ [.previewed task.auth.revoked preview]
        threads := Function.update world.threads thread
          (.task { task with rest, made := some preview }) }
  | saved {thread} {task : Task} {rest preview session} (at_ : world.threads thread = .task task)
      (isRest : task.rest = .savePreview :: rest) (made : task.made = some preview)
      (found : world.panel.sessions[sha256 task.token]? = some session) : Moved sha256 world
      { world with
        panel := world.panel.withPreview sha256 task.token session (some preview)
        threads := Function.update world.threads thread
          (.task { task with rest, made := none }) }
  /-- A preview that was asked for is not returned. -/
  | dropped {thread} {task : Task} {session} (at_ : world.threads thread = .task task)
      (found : world.panel.sessions[sha256 task.token]? = some session) : Moved sha256 world
      { world with
        panel := world.panel.withPreview sha256 task.token session none
        threads := Function.update world.threads thread .free }
  | took {thread} {task : Task} {id rest preview session}
      (at_ : world.threads thread = .task task) (isRest : task.rest = .takePreview id :: rest)
      (found : world.panel.sessions[sha256 task.token]? = some session)
      (held : session.preview = some preview)
      (recent : world.clock - preview.created < fromSecs 300) : Moved sha256 world
      { world with
        panel := world.panel.withPreview sha256 task.token session none
        trace := world.trace ++ [.took task.auth.revoked preview world.clock]
        threads := Function.update world.threads thread
          (.task { task with rest, taken := some preview }) }
  | applied {thread} {task : Task} {rest preview} (at_ : world.threads thread = .task task)
      (isRest : task.rest = .apply :: rest) (taken : task.taken = some preview) :
      Moved sha256 world
      { world with
        trace := world.trace ++ [.applied task.auth.revoked preview world.clock]
        threads := Function.update world.threads thread
          (.task { task with rest, taken := none }) }
  | revokedAll {threads holder} (revokes : Revokes world threads holder) : Moved sha256 world
      { world with
        panel := world.panel.revokeAll
        trace := world.trace ++ [.revokedAll]
        threads, holder }
  /-- The host changes the vault. -/
  | vaultChanged (session : Option SessionInfo) (free : world.holder = none) :
      Moved sha256 world { world with session, trace := world.trace ++ [.vaultChanged] }
  /-- A handler locks the vault. -/
  | locked {thread} {task : Task} {rest} (at_ : world.threads thread = .task task)
      (isRest : task.rest = .lockSession :: rest) (free : world.holder = none) :
      Moved sha256 world
      { world with
        session := none
        trace := world.trace ++ [.vaultChanged]
        threads := Function.update world.threads thread (.task { task with rest }) }
  /-- The flag of the session is unset. -/
  | loaded {thread} {task : Task} (at_ : world.threads thread = .inVault task .start)
      (unset : task.auth.revoked ∉ world.panel.revoked) : Moved sha256 world
      { world with
        trace := world.trace ++ [.loaded thread task.auth.revoked]
        threads := Function.update world.threads thread (.inVault task .unrevoked) }
  /-- The closure runs. -/
  | ran {thread} {task : Task} {reading}
      (at_ : world.threads thread = .inVault task (.passed reading)) : Moved sha256 world
      { world with
        trace := world.trace ++ [.ran thread task.auth.revoked task.token reading
          (world.session.map Binding.fromSession) world.clock]
        threads := Function.update world.threads thread (.inVault task .done) }
  | rotated {thread code info allowRemoteUnlock} (at_ : world.threads thread = .free)
      (free : world.holder = none) : Moved sha256 world
      { world with
        stored := .rotate sha256 code info allowRemoteUnlock
        holder := some thread
        trace := world.trace ++ [.rotated code]
        threads := Function.update world.threads thread .rotating }

namespace World

variable {world next : World} {thread : ℕ}

/-- What the verdict on an attempt does. -/
theorem moved_of_verify {ip : IpAddr} {time : Instant} {code : String} {generation : UInt64}
    (draw : Draw)
    (at_ : world.threads thread = .attempt ip time (.holding code generation)) :
    Moved sha256 world (world.verify sha256 thread ip time code generation draw) := by
  unfold verify
  dsimp only
  cases accepted : ControlPanel.login sha256 world.stored world.panel world.session code
    generation draw.opened draw.ready with
  | error =>
    by_cases reaches : reachesCheck world.stored world.panel code generation = true
    · rw [if_pos reaches]
      exact .compared at_
    · rw [if_neg reaches]
      exact .passes (.refuse at_)
  | ok info =>
    obtain ⟨reaches, same, unlocked⟩ := login_eq_ok accepted
    dsimp only
    rw [if_pos reaches]
    by_cases locked : world.session.isNone = true
    · rw [if_pos locked]
      have made := @Moved.opened sha256 world thread ip time code generation info at_ same
      simpa only [put, withVault, note, List.append_assoc, List.cons_append, List.nil_append]
        using made
    · rw [if_neg locked]
      obtain unlocked | none_ := unlocked
      · exact .accepted at_ same unlocked
      · rw [none_] at locked
        exact absurd rfl locked

/-- What `issue` does. -/
theorem moved_of_issue {ip : IpAddr} {time : Instant} {code : String} {generation : UInt64}
    {binding : Binding} {token csrf : String} {now : Instant}
    (at_ : world.threads thread =
      .attempt ip time (.drawn code generation binding token csrf now)) :
    Moved sha256 world
      (world.issue sha256 thread ip time code generation binding token csrf now) := by
  unfold issue
  split
  · rename_i panel error refused
    obtain rfl | rfl := Sessions.issue_eq_error refused
    · exact .passes (.unissued at_)
    · exact .pruned at_
  · rename_i panel made
    obtain ⟨room, rfl⟩ := Sessions.issue_eq_ok made
    exact .issued at_ room

/-- What an attempt does. -/
theorem moved_of_advanceAttempt {ip : IpAddr} {time : Instant} {draw : Draw} {attempt : Attempt}
    (at_ : world.threads thread = .attempt ip time attempt)
    (stepped : world.advanceAttempt sha256 thread ip time draw attempt = some next) :
    Moved sha256 world next := by
  unfold advanceAttempt at stepped
  split at stepped
  · cases stepped
    exact .passes (.malformed at_)
  · cases stepped
    exact .passes (.stamp at_)
  · split at stepped
    · rename_i free
      cases stepped
      exact .passes (.hold at_ (Option.isNone_iff_eq_none.mp free))
    · cases stepped
  · cases stepped
    exact moved_of_verify draw at_
  · split at stepped
    · cases stepped
    · rename_i fresh
      cases stepped
      exact .drawn at_ fresh
  · cases stepped
    exact moved_of_issue at_
  · cases stepped
    exact .passes (.leave at_)
  · cases stepped
    exact .answered at_

/-- What a handler does. -/
theorem moved_of_advanceTask {draw : Draw} {task : Task}
    (at_ : world.threads thread = .task task)
    (stepped : world.advanceTask sha256 thread draw task = some next) :
    Moved sha256 world next := by
  unfold advanceTask at stepped
  split at stepped
  · cases stepped
    exact .passes (.ended at_)
  · rename_i operation rest isRest
    cases operation with
    | vault =>
      dsimp only at stepped
      split at stepped
      · cases stepped
      · rename_i free
        split at stepped
        · cases stepped
          exact .passes (.ended at_)
        · cases stepped
          exact .passes (.enter at_ isRest (by simpa using free))
    | csrf =>
      cases stepped
      dsimp only
      split
      · exact .passes (.ended at_)
      · exact .passes (.goOn at_ isRest)
    | logout =>
      cases stepped
      dsimp only
      split
      · rename_i missing
        rw [Sessions.logout_of_none missing]
        exact .passes (.goOn at_ isRest)
      · rename_i session found
        rw [Sessions.logout_of_some found]
        exact .loggedOut at_ isRest found
    | preview =>
      dsimp only at stepped
      split at stepped
      · cases stepped
      · rename_i fresh
        cases stepped
        exact .previewed at_ isRest fresh rfl
    | savePreview =>
      cases stepped
      dsimp only
      split
      · exact .passes (.ended at_)
      · rename_i preview made
        split
        · exact .passes (.ended at_)
        · rename_i panel saved
          obtain ⟨session, found, rfl⟩ := Sessions.savePreview_eq_ok saved
          exact .saved at_ isRest made found
    | takePreview id =>
      cases stepped
      dsimp only
      split
      · rename_i panel error refused
        obtain rfl | ⟨session, found, rfl⟩ := Sessions.takePreview_eq_error refused
        · exact .passes (.ended at_)
        · exact .dropped at_ found
      · rename_i panel preview took
        obtain ⟨session, found, held, recent, rfl⟩ := Sessions.takePreview_eq_ok took
        exact .took at_ isRest found held recent
    | apply =>
      cases stepped
      dsimp only
      split
      · exact .passes (.ended at_)
      · rename_i preview taken
        split
        · exact .passes (.ended at_)
        · exact .applied at_ isRest taken
    | revokeAll =>
      cases stepped
      exact .revokedAll (.task at_ isRest)
    | lockSession =>
      dsimp only at stepped
      split at stepped
      · cases stepped
      · rename_i free
        cases stepped
        exact .locked at_ isRest (by simpa using free)

/-- What `with_vault` does. -/
theorem moved_of_advanceVault {draw : Draw} {task : Task} {check : Check}
    (at_ : world.threads thread = .inVault task check) :
    Moved sha256 world (world.advanceVault thread draw task check) := by
  unfold advanceVault
  cases check with
  | start =>
    dsimp only
    split
    · exact .passes (.deny at_)
    · rename_i unset
      exact .loaded at_ (by simpa using unset)
  | unrevoked =>
    dsimp only
    split
    · exact .passes (.deny at_)
    · exact .passes (.matched at_)
  | current =>
    dsimp only
    split
    · exact .passes (.deny at_)
    · rename_i valid
      rw [not_or, not_le, not_not] at valid
      exact .passes (.checked at_ valid.1 valid.2)
  | passed reading =>
    dsimp only
    split
    · exact .passes (.deny at_)
    · exact .ran at_
  | done => exact .passes (.exit at_)

/-- What a request that brings a token does. -/
theorem moved_of_call (token : String) (csrf : Option String) (action : Action)
    (at_ : world.threads thread = .free) :
    Moved sha256 world (world.call sha256 thread token csrf action) := by
  unfold call
  split
  · exact .stay
  · dsimp only
    generalize (if action.isGet = true then none else csrf) = csrf
    split
    · exact .stay
    · rename_i panel auth passed
      obtain ⟨session, found, fresh, active, unset, rfl, rfl⟩ := Sessions.authorized_eq_ok passed
      have moved := Moved.authorized csrf action.operations at_ found active unset
      split
      · rename_i given
        rw [if_pos given] at moved
        exact moved
      · rename_i missing
        rw [if_neg missing, List.append_nil] at moved
        exact moved

/-- What an attempt to sign in does at first. -/
theorem moved_of_login (ip : IpAddr) (code : Option String)
    (at_ : world.threads thread = .free) :
    Moved sha256 world (world.login thread ip code) := by
  unfold login
  split
  · rename_i panel refused
    rw [Sessions.loginPermit_eq_false refused]
    exact .limited
  · rename_i panel permitted
    obtain ⟨few, own, idle, rfl⟩ := Sessions.loginPermit_eq_true permitted
    exact .permitted at_ few own idle

/-- A step does one of these. -/
theorem moved_of_step {label : Label} (stepped : world.step sha256 label = some next) :
    Moved sha256 world next := by
  cases label with
  | tick elapsed =>
    cases stepped
    exact .tick elapsed
  | login thread ip code =>
    obtain ⟨at_, made⟩ := Option.ite_none_right_eq_some.mp stepped
    cases made
    exact moved_of_login ip code at_
  | call thread token csrf action =>
    obtain ⟨at_, made⟩ := Option.ite_none_right_eq_some.mp stepped
    cases made
    exact moved_of_call token csrf action at_
  | advance thread draw =>
    simp only [step, advance] at stepped
    split at stepped
    · cases stepped
    · rename_i ip time attempt at_
      exact moved_of_advanceAttempt at_ stepped
    · rename_i task at_
      exact moved_of_advanceTask at_ stepped
    · rename_i task check at_
      cases stepped
      exact moved_of_advanceVault at_
    · rename_i at_
      cases stepped
      exact .revokedAll (.rotation at_)
  | fail thread =>
    simp only [step] at stepped
    split at stepped
    · rename_i task at_
      cases stepped
      exact .passes (.ended at_)
    · cases stepped
  | rotate thread code allowRemoteUnlock =>
    simp only [step] at stepped
    split at stepped
    · cases stepped
    · split at stepped
      · rename_i ready
        cases stepped
        exact .rotated ready.2 (Option.isNone_iff_eq_none.mp ready.1)
      · cases stepped
  | unlock info =>
    obtain ⟨free, made⟩ := Option.ite_none_right_eq_some.mp stepped
    cases made
    exact .vaultChanged _ (Option.isNone_iff_eq_none.mp free)
  | lock =>
    obtain ⟨free, made⟩ := Option.ite_none_right_eq_some.mp stepped
    cases made
    exact .vaultChanged _ (Option.isNone_iff_eq_none.mp free)
  | changePassword revision =>
    obtain ⟨free, made⟩ := Option.ite_none_right_eq_some.mp stepped
    cases made
    exact .vaultChanged _ (Option.isNone_iff_eq_none.mp free)
  | revokeAll =>
    cases stepped
    exact .revokedAll .host

end World
end Aipass.ControlPanel
