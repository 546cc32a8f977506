import Aipass.Updates.Install
import Mathlib.Data.List.Nodup

/-!
# All or nothing

An update that fails is undone file by file. A file that was absent before has no backup, and the
rollback ends at it with an error: the files it would have restored after it stay replaced. An
update is all or nothing exactly when every file that a failure leaves to undo was installed
before. No bytes are lost in any case: what is not back in its place is still in the stage.
-/
namespace Aipass.Updates

variable {platform : Platform} {stage : String} {installation package : Directory}

/-- The files when the update begins. -/
def before (installation package : Directory) : Files
  | .installed name => installation name
  | .staged name => package name
  | _ => none

/-- The files of a package, in the order they are replaced. -/
def stagedFiles (platform : Platform) (package : Directory) : List String :=
  (order platform).filter fun name => (package name).isSome

/-- The files backed up until the first failure, and whether there is one. -/
def backedUp (failures : Failures) : List String → List String × Bool
  | [] => ([], false)
  | name :: rest =>
    if failures.backUp name then ([], true)
    else if failures.replace name then ([name], true)
    else (name :: (backedUp failures rest).1, (backedUp failures rest).2)

/-- The files a failed update has to undo; none where nothing fails. -/
def undone (platform : Platform) (package : Directory) (failures : Failures) : List String :=
  let moved := backedUp failures (stagedFiles platform package)
  if moved.2 ∨ failures.start.isSome then moved.1 else []

/-- Every previous file is in its place or in the stage. -/
def Kept (installation : Directory) (files : Files) : Prop :=
  ∀ name bytes, installation name = some bytes →
    files (.installed name) = some bytes ∨ files (.previous name) = some bytes

/-- The installation is what it was. -/
def Unchanged (installation : Directory) (files : Files) : Prop :=
  ∀ name, files (.installed name) = installation name

/-- Every file of the package is in its place and the others are untouched. -/
def Replaced (installation package : Directory) (files : Files) : Prop :=
  ∀ name, files (.installed name) = (package name).or (installation name)

/-- The error came from the rollback. -/
def UpdateError.ofRollback (error : UpdateError) : Prop := ∃ io, error.cause = .undoing io

/-- An update either replaces every file of the package, or leaves the installation as it was
and rolls back without an error. -/
def Settled (installation package : Directory) : Outcome → Prop
  | (files, .ok ()) => Replaced installation package files
  | (files, .error error) => Unchanged installation files ∧ ¬ error.ofRollback

/-- Where the renames of the rollback succeed the update is settled; where they fail, nothing is
lost. -/
def AllOrNothing (platform : Platform) (stage : String) (supervised : Bool)
    (installation package : Directory) (failures : Failures) : Prop :=
  Settled installation package
    (install stage { failures with setAside := fun _ => false, putBack := fun _ => false }
      platform supervised (before installation package)) ∧
  Kept installation
    (install stage failures platform supervised (before installation package)).1

/-- Only backups, replacements, the new agent and the rollback may fail. -/
structure Failures.OnFiles (failures : Failures) : Prop where
  suspend : failures.suspend = false
  stop : failures.stop = false
  suspendNew : failures.suspendNew = false
  stopNew : failures.stopNew = false
  startOld : failures.startOld = false

/-- The files after some were backed up and some of these replaced. -/
structure Underway (installation package : Directory) (replaced moved : List String)
    (files : Files) : Prop where
  installed : ∀ name, files (.installed name) =
    if name ∈ replaced then package name
    else if name ∈ moved then none else installation name
  staged : ∀ name, files (.staged name) = if name ∈ replaced then none else package name
  previous : ∀ name, files (.previous name) = if name ∈ moved then installation name else none
  absent : ∀ name, files (.absent name) =
    if name ∈ moved ∧ installation name = none then some [] else none

/-- The files while these are left to undo. -/
structure Undoable (installation : Directory) (left : List String) (files : Files) : Prop where
  previous : ∀ name ∈ left, files (.previous name) = installation name
  installed : ∀ name, name ∉ left → files (.installed name) = installation name

/-- What was backed up can be undone. -/
theorem Underway.undoable {replaced moved : List String} {files : Files}
    (underway : Underway installation package replaced moved files)
    (backed : ∀ name ∈ replaced, name ∈ moved) : Undoable installation moved files where
  previous name held := by rw [underway.previous, if_pos held]
  installed name other := by
    rw [underway.installed, if_neg fun held => other (backed name held), if_neg other]

/-- The installation while files are left to undo. -/
theorem Undoable.kept {left : List String} {files : Files}
    (undoable : Undoable installation left files) : Kept installation files := by
  intro name bytes present
  by_cases held : name ∈ left
  · exact .inr ((undoable.previous name held).trans present)
  · exact .inl ((undoable.installed name held).trans present)

/-- A rename that is not refused moves a file. -/
theorem rename_eq_ok {source target : Path} {files : Files} {bytes : Bytes}
    (found : files source = some bytes) : rename false source target files =
      .ok (Function.update (Function.update files source none) target (some bytes)) := by
  rw [rename, if_neg (by simp), found]

/-- A rename changes the two files it names only. -/
theorem rename_frame {refused : Bool} {source target : Path} {files next : Files}
    (passes : rename refused source target files = .ok next) {path : Path}
    (notSource : path ≠ source) (notTarget : path ≠ target) : next path = files path := by
  rw [rename] at passes
  split at passes
  · cases passes
  · split at passes
    · cases passes
    · cases passes
      rw [Function.update_of_ne notTarget, Function.update_of_ne notSource]

/-- Setting a file aside changes its place and where it is put only. -/
theorem setAside_frame {failures : Failures} {name : String} {files next : Files}
    (passes : setAside failures name files = .ok next) {path : Path}
    (notPlace : path ≠ .installed name) (notFailed : path ≠ .failed name) :
    next path = files path := by
  rw [setAside] at passes
  split at passes
  · exact rename_frame passes notPlace notFailed
  · cases passes
    rfl

/-- Undoing one file changes no other. -/
theorem undo_frame (failures : Failures) {name other : String} (differ : other ≠ name)
    (files : Files) :
    (undo stage failures name files).1 (.installed other) = files (.installed other) ∧
    (undo stage failures name files).1 (.previous other) = files (.previous other) := by
  rw [undo]
  split
  · exact ⟨rfl, rfl⟩
  · next middle aside =>
    have here : middle (.installed other) = files (.installed other) :=
      setAside_frame aside (by simpa using differ) (by simp)
    have backup : middle (.previous other) = files (.previous other) :=
      setAside_frame aside (by simp) (by simp)
    split
    · exact ⟨here, backup⟩
    · next last back =>
      have place : last (.installed other) = middle (.installed other) :=
        rename_frame back (by simp) (by simpa using differ)
      have stored : last (.previous other) = middle (.previous other) :=
        rename_frame back (by simpa using differ) (by simp)
      exact ⟨place.trans here, stored.trans backup⟩

/-- A file that could not be undone keeps its backup. -/
theorem undo_error {failures : Failures} {name : String} {files : Files} {error : UpdateError}
    (fails : (undo stage failures name files).2 = .error error) :
    (undo stage failures name files).1 (.previous name) = files (.previous name) ∧
      error.ofRollback := by
  rw [undo] at fails ⊢
  split at fails
  · cases fails
    exact ⟨rfl, _, rfl⟩
  · next middle aside =>
    split at fails
    · cases fails
      exact ⟨setAside_frame aside (by simp) (by simp), _, rfl⟩
    · cases fails

/-- A file that was undone has its backup in its place. -/
theorem undo_ok {failures : Failures} {name : String} {files : Files}
    (passes : (undo stage failures name files).2 = .ok ()) :
    (files (.previous name)).isSome ∧
      (undo stage failures name files).1 (.installed name) = files (.previous name) := by
  rw [undo] at passes ⊢
  split at passes
  · cases passes
  · next middle aside =>
    have backup : middle (.previous name) = files (.previous name) :=
      setAside_frame aside (by simp) (by simp)
    split at passes
    · cases passes
    · next last back =>
      rw [rename] at back
      split at back
      · cases back
      · split at back
        · cases back
        · next bytes found =>
          cases back
          rw [← backup, found]
          exact ⟨rfl, Function.update_self _ _ _⟩

/-- A file with a backup is undone where no rename fails. -/
theorem undo_passes {failures : Failures} {name : String} {files : Files}
    (aside : failures.setAside name = false) (back : failures.putBack name = false)
    (backup : (files (.previous name)).isSome) :
    (undo stage failures name files).2 = .ok () := by
  have moved : ∃ middle, setAside failures name files = .ok middle := by
    rw [setAside]
    split
    · next present =>
      obtain ⟨bytes, found⟩ := Option.isSome_iff_exists.mp present
      exact ⟨_, by rw [aside, rename_eq_ok found]⟩
    · exact ⟨_, rfl⟩
  obtain ⟨middle, passes⟩ := moved
  have stored : middle (.previous name) = files (.previous name) :=
    setAside_frame passes (by simp) (by simp)
  obtain ⟨bytes, found⟩ := Option.isSome_iff_exists.mp backup
  rw [undo, passes]
  simp only [back, rename_eq_ok (stored.trans found)]

/-- One file less is left to undo. -/
theorem Undoable.undo_ok {failures : Failures} {name : String} {left : List String}
    {files : Files} (undoable : Undoable installation (name :: left) files)
    (once : name ∉ left) (passes : (undo stage failures name files).2 = .ok ()) :
    Undoable installation left (undo stage failures name files).1 where
  previous other held := by
    have differ : other ≠ name := fun same => once (same ▸ held)
    rw [(undo_frame failures differ files).2]
    exact undoable.previous other (List.mem_cons_of_mem _ held)
  installed other out := by
    by_cases same : other = name
    · rw [same, (Updates.undo_ok passes).2]
      exact undoable.previous name List.mem_cons_self
    · rw [(undo_frame failures same files).1]
      exact undoable.installed other (by simp [same, out])

/-- The files left to undo stay so where one could not be undone. -/
theorem Undoable.undo_error {failures : Failures} {name : String} {left : List String}
    {files : Files} {error : UpdateError} (undoable : Undoable installation (name :: left) files)
    (fails : (undo stage failures name files).2 = .error error) :
    Undoable installation (name :: left) (undo stage failures name files).1 where
  previous other held := by
    by_cases same : other = name
    · rw [same, (Updates.undo_error fails).1]
      exact undoable.previous name List.mem_cons_self
    · rw [(undo_frame failures same files).2]
      exact undoable.previous other held
  installed other out := by
    have differ : other ≠ name := fun same => out (by simp [same])
    rw [(undo_frame failures differ files).1]
    exact undoable.installed other out

/-- A rollback loses no file, whichever of its renames fail. -/
theorem Undoable.undoAll_kept (failures : Failures) {left : List String} {files : Files}
    (undoable : Undoable installation left files) (distinct : left.Nodup) :
    Kept installation (undoAll stage failures left files).1 := by
  induction left generalizing files with
  | nil => exact undoable.kept
  | cons name left ih =>
    rw [undoAll]
    rw [List.nodup_cons] at distinct
    split
    · next after error result =>
      have fails : (undo stage failures name files).2 = .error error := by rw [result]
      have kept := (undoable.undo_error fails).kept
      rwa [result] at kept
    · next after result =>
      have passes : (undo stage failures name files).2 = .ok () := by rw [result]
      have fewer := undoable.undo_ok distinct.1 passes
      rw [result] at fewer
      exact ih fewer distinct.2

/-- A rollback whose files have backups restores the installation. -/
theorem Undoable.undoAll_restores {failures : Failures} {left : List String} {files : Files}
    (undoable : Undoable installation left files) (distinct : left.Nodup)
    (aside : ∀ name, failures.setAside name = false)
    (back : ∀ name, failures.putBack name = false)
    (present : ∀ name ∈ left, (installation name).isSome) :
    (undoAll stage failures left files).2 = .ok () ∧
      Unchanged installation (undoAll stage failures left files).1 := by
  induction left generalizing files with
  | nil => exact ⟨rfl, fun name => undoable.installed name (by simp)⟩
  | cons name left ih =>
    rw [List.nodup_cons] at distinct
    have backup : (files (.previous name)).isSome := by
      rw [undoable.previous name List.mem_cons_self]
      exact present name List.mem_cons_self
    have passes := @undo_passes stage failures name files (aside name) (back name) backup
    have rest := ih (undoable.undo_ok distinct.1 passes) distinct.2 fun other held =>
      present other (List.mem_cons_of_mem _ held)
    have step : undoAll stage failures (name :: left) files =
        undoAll stage failures left (undo stage failures name files).1 := by
      rw [undoAll]
      split
      · next result =>
        rw [result] at passes
        cases passes
      · next result => rw [result]
    rw [step]
    exact rest

/-- A rollback ends with an error at a file that was absent before. -/
theorem Undoable.undoAll_fails (failures : Failures) {left : List String} {files : Files}
    (undoable : Undoable installation left files) (distinct : left.Nodup)
    {missing : String} (held : missing ∈ left) (absent : installation missing = none) :
    ∃ error, (undoAll stage failures left files).2 = .error error ∧ error.ofRollback := by
  induction left generalizing files with
  | nil => simp at held
  | cons name left ih =>
    rw [List.nodup_cons] at distinct
    rw [undoAll]
    split
    · next after error result =>
      have fails : (undo stage failures name files).2 = .error error := by rw [result]
      exact ⟨error, rfl, (Updates.undo_error fails).2⟩
    · next after result =>
      have passes : (undo stage failures name files).2 = .ok () := by rw [result]
      have fewer := undoable.undo_ok distinct.1 passes
      rw [result] at fewer
      have stored := (Updates.undo_ok passes).1
      rw [undoable.previous name List.mem_cons_self] at stored
      rcases List.mem_cons.mp held with rfl | later
      · rw [absent] at stored
        cases stored
      · exact ih fewer distinct.2 later

/-- The order in which files are left to undo does not matter. -/
theorem Undoable.reverse {left : List String} {files : Files}
    (undoable : Undoable installation left files) : Undoable installation left.reverse files where
  previous name held := undoable.previous name (List.mem_reverse.mp held)
  installed name out := undoable.installed name fun held => out (List.mem_reverse.mpr held)

/-- A rollback before an error ends with an error. -/
theorem rollbackWith_ne_ok (failures : Failures) (replaced : List String) (error : UpdateError)
    (files : Files) : (rollbackWith stage failures replaced error files).2 ≠ .ok () := by
  rw [rollbackWith]
  split <;> simp

/-- A rollback before an error loses no file. -/
theorem Undoable.rollbackWith_kept (failures : Failures) {left : List String} {files : Files}
    (undoable : Undoable installation left files) (distinct : left.Nodup) (error : UpdateError) :
    Kept installation (rollbackWith stage failures left error files).1 := by
  have kept := @Undoable.undoAll_kept stage installation failures left.reverse files undoable.reverse
    (List.nodup_reverse.mpr distinct)
  rw [rollbackWith, rollback]
  split
  · next result => rwa [result] at kept
  · next result => rwa [result] at kept

/-- A rollback before an error settles the update exactly when every file to undo was installed
before. -/
theorem Undoable.rollbackWith_settled {failures : Failures} {left : List String} {files : Files}
    (undoable : Undoable installation left files) (distinct : left.Nodup)
    (aside : ∀ name, failures.setAside name = false)
    (back : ∀ name, failures.putBack name = false) {error : UpdateError}
    (forward : ¬ error.ofRollback) :
    Settled installation package (rollbackWith stage failures left error files) ↔
      ∀ name ∈ left, (installation name).isSome := by
  have distinct' := List.nodup_reverse.mpr distinct
  constructor
  · intro settled name held
    cases absent : installation name with
    | some bytes => rfl
    | none =>
      obtain ⟨failed, fails, own⟩ := @Undoable.undoAll_fails stage installation failures
        left.reverse files undoable.reverse distinct' name (List.mem_reverse.mpr held) absent
      rw [rollbackWith, rollback] at settled
      split at settled
      · next result =>
        rw [result] at fails
        cases fails
        exact absurd own settled.2
      · next result =>
        rw [result] at fails
        cases fails
  · intro present
    obtain ⟨passes, same⟩ := @Undoable.undoAll_restores stage installation failures
      left.reverse files undoable.reverse distinct' aside back fun name held =>
        present name (List.mem_reverse.mp held)
    rw [rollbackWith, rollback]
    split
    · next result =>
      rw [result] at passes
      cases passes
    · next result =>
      rw [result] at same
      exact ⟨same, forward⟩

/-- A backup that fails. -/
theorem backUp_refused {failures : Failures} {name : String} (files : Files)
    (refused : failures.backUp name = true) :
    backUp failures name files = .error .refused := by
  simp [backUp, rename, write, refused]

/-- A backup that does not fail. -/
theorem Underway.backUp {failures : Failures} {replaced moved : List String} {files : Files}
    (underway : Underway installation package replaced moved files)
    (backed : ∀ name ∈ replaced, name ∈ moved) {name : String} (fresh : name ∉ moved)
    (passes : failures.backUp name = false) :
    ∃ next, backUp failures name files = .ok next ∧
      Underway installation package replaced (moved ++ [name]) next := by
  have untouched : name ∉ replaced := fun held => fresh (backed name held)
  have here : files (.installed name) = installation name := by
    rw [underway.installed, if_neg untouched, if_neg fresh]
  cases present : installation name with
  | some bytes =>
    have found : files (.installed name) = some bytes := here.trans present
    refine ⟨_, by rw [Updates.backUp, if_pos (by rw [found]; rfl), passes, rename_eq_ok found], ?_⟩
    constructor <;> intro other <;> by_cases same : other = name
    · simp [same, untouched, Function.update]
    · simp [same, Function.update, underway.installed]
    · simp [same, Function.update, underway.staged]
    · simp [Function.update, underway.staged]
    · simp [same, Function.update, present]
    · simp [same, Function.update, underway.previous]
    · simp [same, Function.update, underway.absent, present]
    · simp [same, Function.update, underway.absent]
  | none =>
    have missing : files (.installed name) = none := here.trans present
    refine ⟨_, by rw [Updates.backUp, if_neg (by rw [missing]; simp), passes, write, if_neg (by simp)],
      ?_⟩
    constructor <;> intro other <;> by_cases same : other = name
    · simp [same, untouched, Function.update, missing]
    · simp [same, Function.update, underway.installed]
    · simp [same, Function.update, underway.staged]
    · simp [Function.update, underway.staged]
    · simp [same, Function.update, underway.previous, present]
    · simp [same, Function.update, underway.previous]
    · simp [same, Function.update, present]
    · simp [same, Function.update, underway.absent]

/-- A replacement that does not fail. -/
theorem Underway.replace {replaced moved : List String} {files : Files}
    (underway : Underway installation package replaced moved files) {name : String}
    (fresh : name ∉ replaced) (held : (package name).isSome) :
    ∃ next, rename false (.staged name) (.installed name) files = .ok next ∧
      Underway installation package (replaced ++ [name]) moved next := by
  obtain ⟨bytes, present⟩ := Option.isSome_iff_exists.mp held
  have found : files (.staged name) = some bytes := by
    rw [underway.staged, if_neg fresh, present]
  refine ⟨_, rename_eq_ok found, ?_⟩
  constructor <;> intro other <;> by_cases same : other = name
  · simp [same, Function.update, present]
  · simp [same, Function.update, underway.installed]
  · simp [same, Function.update]
  · simp [same, Function.update, underway.staged]
  · simp [same, Function.update, underway.previous]
  · simp [Function.update, underway.previous]
  · simp [same, Function.update, underway.absent]
  · simp [Function.update, underway.absent]

/-- The files backed up are among those to replace. -/
theorem backedUp_sublist (failures : Failures) (names : List String) :
    (backedUp failures names).1.Sublist names := by
  induction names with
  | nil => exact List.Sublist.refl _
  | cons name rest ih =>
    rw [backedUp]
    split
    · exact List.nil_sublist _
    · split
      · exact (List.nil_sublist rest).cons_cons name
      · exact ih.cons_cons name

/-- Where nothing fails every file is backed up. -/
theorem backedUp_all {failures : Failures} {names : List String}
    (passes : (backedUp failures names).2 = false) : (backedUp failures names).1 = names := by
  induction names with
  | nil => rfl
  | cons name rest ih =>
    rw [backedUp] at passes ⊢
    split at passes
    · cases passes
    · split at passes
      · cases passes
      · next backs replaces =>
        rw [if_neg backs, if_neg replaces]
        exact congrArg (name :: ·) (ih passes)

/-- The loop either replaces the staged files that are left or rolls back those it has backed
up. -/
theorem Underway.replaceFrom (failures : Failures) {names replaced : List String} {files : Files}
    (underway : Underway installation package replaced replaced files)
    (distinct : (replaced ++ names).Nodup)
    (complete : ∀ name ∈ names, (package name).isSome ∨ name ∈ documents) :
    let moved := backedUp failures (names.filter fun name => (package name).isSome)
    (moved.2 = false ∧ ∃ next,
      replaceFrom stage failures replaced names files = (next, .ok ()) ∧
      Underway installation package (replaced ++ moved.1) (replaced ++ moved.1) next) ∨
    (moved.2 = true ∧ ∃ next error,
      replaceFrom stage failures replaced names files =
        rollbackWith stage failures (replaced ++ moved.1) error next ∧
      Undoable installation (replaced ++ moved.1) next ∧ ¬ error.ofRollback) := by
  induction names generalizing replaced files with
  | nil =>
    refine .inl ⟨rfl, files, rfl, ?_⟩
    rw [List.filter_nil, backedUp, List.append_nil]
    exact underway
  | cons name rest ih =>
    have fresh : name ∉ replaced := by
      intro held
      exact (List.nodup_append.mp distinct).2.2 name held name List.mem_cons_self rfl
    have left : ∀ name ∈ rest, (package name).isSome ∨ name ∈ documents := fun other held =>
      complete other (List.mem_cons_of_mem _ held)
    have held : files (.staged name) = package name := by rw [underway.staged, if_neg fresh]
    by_cases present : (package name).isSome
    · rw [List.filter_cons, if_pos present, Updates.replaceFrom, held,
        if_neg (by intro both; rw [both.1] at present; cases present), backedUp]
      cases backs : failures.backUp name with
      | true =>
        refine .inr ⟨rfl, files, _, by rw [backUp_refused files backs]; simp; rfl, ?_, ?_⟩
        · simpa using underway.undoable fun _ held => held
        · rintro ⟨io, cause⟩
          cases cause
      | false =>
        obtain ⟨middle, passes, moved⟩ := underway.backUp (fun _ held => held) fresh backs
        rw [passes]
        cases replaces : failures.replace name with
        | true =>
          refine .inr ⟨by simp, middle, _, by simp [rename]; rfl, ?_, ?_⟩
          · simpa using moved.undoable fun _ held => List.mem_append_left _ held
          · rintro ⟨io, cause⟩
            cases cause
        | false =>
          obtain ⟨next, renamed, done⟩ := moved.replace fresh present
          have again : (replaced ++ [name] ++ rest).Nodup := by simpa using distinct
          simpa only [renamed, List.append_assoc, List.singleton_append, Bool.false_eq_true,
            if_false] using ih done again left
    · have skip : package name = none := by simpa using present
      have optional : name ∈ documents := (complete name List.mem_cons_self).resolve_left present
      have again : (replaced ++ rest).Nodup := distinct.sublist
        ((List.sublist_cons_self name rest).append_left replaced)
      rw [List.filter_cons, if_neg present, Updates.replaceFrom, held, if_pos ⟨skip, optional⟩]
      exact ih underway again left

/-- What an archive's reader has saved: files by the names found, each in the order. -/
structure Unpacked.Listed (platform : Platform) (unpacked : Unpacked) : Prop where
  found : ∀ name, (unpacked.files name).isSome ↔ name ∈ unpacked.found
  known : ∀ name ∈ unpacked.found, name ∈ binaryNames platform ∨ name ∈ documents

/-- Saving an entry keeps the names found beside the files. -/
theorem Unpacked.Listed.save {unpacked next : Unpacked} {entry : Entry}
    (listed : unpacked.Listed platform) (passes : save platform unpacked entry = .ok next) :
    next.Listed platform := by
  simp only [Updates.save] at passes
  split at passes
  · cases passes
    exact listed
  · next name path =>
    split at passes
    · cases passes
    · split at passes
      · cases passes
        exact listed
      · next sought =>
        split at passes
        · cases passes
        · split at passes
          · cases passes
          · cases passes
            constructor
            · intro other
              by_cases same : other = name
              · simp [same]
              · simp [same, listed.found]
            · intro other held
              rcases List.mem_append.mp held with before | new
              · exact listed.known other before
              · rw [List.mem_singleton.mp new]
                by_contra neither
                exact sought (not_or.mp neither)
  · split at passes <;> cases passes
  · cases passes

/-- Saving every entry keeps the names found beside the files. -/
theorem Unpacked.Listed.saveAll {archive : List Entry} {unpacked next : Unpacked}
    (listed : unpacked.Listed platform) (passes : saveAll platform archive unpacked = .ok next) :
    next.Listed platform := by
  induction archive generalizing unpacked with
  | nil =>
    cases passes
    exact listed
  | cons entry rest ih =>
    rw [Updates.saveAll] at passes
    split at passes
    · cases passes
    · next saved => exact ih (listed.save saved) passes

/-- A package holds the three binaries, and of other files documents only. -/
theorem unpack_holds {archive : List Entry} (unpacked : unpack platform archive = .ok package) :
    (∀ name ∈ binaryNames platform, (package name).isSome) ∧
    ∀ name, (package name).isSome → name ∈ order platform := by
  rw [unpack] at unpacked
  split at unpacked
  · cases unpacked
  · next last saved =>
    have empty : Unpacked.Listed platform {} := ⟨by simp, by simp⟩
    have listed := empty.saveAll saved
    split at unpacked
    · next complete =>
      cases unpacked
      refine ⟨fun name held => (listed.found name).mpr (complete name held), fun name held => ?_⟩
      rcases listed.known name ((listed.found name).mp held) with binary | document
      · simp only [binaryNames, List.mem_cons, List.not_mem_nil, or_false] at binary
        rcases binary with rfl | rfl | rfl <;> simp [order]
      · simp only [documents, List.mem_cons, List.not_mem_nil, or_false] at document
        rcases document with rfl | rfl | rfl <;> simp [order]
    · cases unpacked

/-- The files are replaced once each. -/
theorem order_nodup (platform : Platform) : (order platform).Nodup := by
  cases platform <;> decide

/-- The files to undo after every file was replaced are those of the package. -/
theorem Underway.replacedFiles {files : Files}
    (underway : Underway installation package (stagedFiles platform package)
      (stagedFiles platform package) files) :
    replacedFiles platform files = stagedFiles platform package := by
  have marked : ∀ name ∈ order platform,
      ((files (.previous name)).isSome || (files (.absent name)).isSome) =
        (package name).isSome := by
    intro name held
    rw [underway.previous, underway.absent]
    have isStaged : name ∈ stagedFiles platform package ↔ (package name).isSome := by
      simp [stagedFiles, held]
    cases present : installation name <;> cases kept : (package name).isSome <;>
      simp [isStaged, kept]
  exact List.filter_congr marked

/-- Every staged file has replaced the installed one. -/
theorem Underway.replaced {files : Files}
    (underway : Underway installation package (stagedFiles platform package)
      (stagedFiles platform package) files)
    (listed : ∀ name, (package name).isSome → name ∈ order platform) :
    Replaced installation package files := by
  intro name
  rw [underway.installed]
  cases held : package name with
  | none => simp [stagedFiles, held]
  | some bytes =>
    have place : name ∈ order platform := listed name (by rw [held]; rfl)
    simp [stagedFiles, held, place]

/-- A context changes neither the files nor what failed. -/
theorem settled_withContext (context : String) (outcome : Outcome) :
    Settled installation package (withContext context outcome) ↔
      Settled installation package outcome := by
  obtain ⟨files, result⟩ := outcome
  cases result with
  | ok passed => exact Iff.rfl
  | error error => exact Iff.rfl

/-- The rollback does not decide what is backed up. -/
theorem backedUp_congr {failures other : Failures} (backs : other.backUp = failures.backUp)
    (replaces : other.replace = failures.replace) (names : List String) :
    backedUp other names = backedUp failures names := by
  induction names with
  | nil => rfl
  | cons name rest ih => simp only [backedUp, backs, replaces, ih]

/-- The recovery rolls back every file of the package. -/
theorem recover_eq {failures : Failures} (onFiles : failures.OnFiles) (supervised : Bool)
    (error : String) {files : Files}
    (underway : Underway installation package (stagedFiles platform package)
      (stagedFiles platform package) files) :
    let outcome := recover stage failures platform supervised error files
    let rolled := rollbackWith stage failures (stagedFiles platform package)
      { cause := .starting, contexts := ["new Agent failed to start; restored previous binaries"] }
      files
    outcome.1 = rolled.1 ∧
      (Settled installation package outcome ↔ Settled installation package rolled) := by
  simp only [recover, failIf, onFiles.suspendNew, onFiles.stopNew, onFiles.startOld,
    Bool.and_false, Bool.false_eq_true, if_false, underway.replacedFiles, rollbackWith]
  cases rollback stage failures (stagedFiles platform package) files with
  | mk after result =>
    cases result with
    | error error => exact ⟨rfl, settled_withContext _ _⟩
    | ok passed => exact ⟨rfl, Iff.rfl⟩

/-- An update either replaces every file of the package, or rolls back those it has backed up. -/
theorem install_cases {failures : Failures} (onFiles : failures.OnFiles) (supervised : Bool)
    {archive : List Entry} (unpacked : unpack platform archive = .ok package) :
    let outcome := install stage failures platform supervised (before installation package)
    (undone platform package failures = [] ∧ outcome.2 = .ok () ∧
      Replaced installation package outcome.1 ∧ Kept installation outcome.1) ∨
    ∃ files error, Undoable installation (undone platform package failures) files ∧
      ¬ UpdateError.ofRollback error ∧
      let rolled := rollbackWith stage failures (undone platform package failures) error files
      outcome.1 = rolled.1 ∧
        (Settled installation package outcome ↔ Settled installation package rolled) := by
  obtain ⟨binaries, listed⟩ := unpack_holds unpacked
  have start : Underway installation package [] [] (before installation package) := by
    constructor <;> intro name <;> simp [before]
  have complete : ∀ name ∈ order platform, (package name).isSome ∨ name ∈ documents := by
    intro name held
    by_cases document : name ∈ documents
    · exact .inr document
    · refine .inl (binaries name ?_)
      simp only [order, documents, binaryNames, List.mem_cons, List.not_mem_nil, or_false] at *
      tauto
  have loop := @Underway.replaceFrom stage installation package failures (order platform) []
    _ start (by simpa using order_nodup platform) complete
  simp only [List.nil_append] at loop
  rw [show (order platform).filter (fun name => (package name).isSome) =
    stagedFiles platform package from rfl] at loop
  intro outcome
  simp only [outcome, install, change, failIf, onFiles.suspend, onFiles.stop, onFiles.startOld,
    Bool.and_false, Bool.false_eq_true, if_false, replaceAll, settled_withContext]
  rcases loop with ⟨passes, next, replaced, done⟩ | ⟨fails, next, error, rolled, undoable, forward⟩
  · have every := backedUp_all passes
    rw [every] at done
    rw [replaced]
    cases started : failures.start with
    | none =>
      refine .inl ⟨by simp [undone, passes, started], rfl, done.replaced listed, ?_⟩
      exact (done.undoable fun _ held => held).kept
    | some problem =>
      have all : undone platform package failures = stagedFiles platform package := by
        rw [undone, if_pos (by simp [started]), every]
      rw [all]
      refine .inr ⟨next, _, done.undoable fun _ held => held, ?_,
        recover_eq onFiles supervised problem done⟩
      rintro ⟨io, cause⟩
      cases cause
  · have all : undone platform package failures =
        (backedUp failures (stagedFiles platform package)).1 := by
      rw [undone, if_pos (by simp [fails])]
    rw [all]
    refine .inr ⟨next, error, undoable, forward, ?_⟩
    rw [rolled]
    cases result : rollbackWith stage failures
        (backedUp failures (stagedFiles platform package)).1 error next with
    | mk after ending =>
      cases ending with
      | error error => exact ⟨rfl, settled_withContext _ _⟩
      | ok passed => exact absurd (congrArg Prod.snd result) (rollbackWith_ne_ok _ _ _ _)

/-- The files to undo are different files. -/
theorem undone_nodup (platform : Platform) (package : Directory) (failures : Failures) :
    (undone platform package failures).Nodup := by
  rw [undone]
  split
  · exact ((order_nodup platform).filter _).sublist (backedUp_sublist _ _)
  · exact List.nodup_nil

/-- An update of which only calls on files and the start of the agent may fail is all or nothing
exactly when every file that a failure leaves to undo was installed before. -/
theorem install_allOrNothing_iff (platform : Platform) (stage : String) (supervised : Bool)
    (installation package : Directory) (archive : List Entry)
    (unpacked : unpack platform archive = .ok package)
    (failures : Failures) (onFiles : failures.OnFiles) :
    AllOrNothing platform stage supervised installation package failures ↔
      ∀ name ∈ undone platform package failures, (installation name).isSome := by
  have kept : Kept installation
      (install stage failures platform supervised (before installation package)).1 := by
    rcases @install_cases platform stage installation package failures onFiles supervised archive
      unpacked with ⟨-, -, -, kept⟩ | ⟨files, error, undoable, -, same, -⟩
    · exact kept
    · rw [same]
      exact undoable.rollbackWith_kept failures (undone_nodup _ _ _) error
  let calm : Failures :=
    { failures with setAside := fun _ => false, putBack := fun _ => false }
  have calmOnFiles : calm.OnFiles := ⟨onFiles.suspend, onFiles.stop, onFiles.suspendNew,
    onFiles.stopNew, onFiles.startOld⟩
  have sameUndone : undone platform package calm = undone platform package failures := by
    simp only [undone, @backedUp_congr failures calm rfl rfl, calm]
  rw [AllOrNothing, and_iff_left kept]
  rcases @install_cases platform stage installation package calm calmOnFiles supervised archive
    unpacked with ⟨nothing, passes, replaced, -⟩ | ⟨files, error, undoable, forward, -, same⟩
  · rw [sameUndone] at nothing
    rw [nothing]
    refine iff_of_true ?_ (by simp)
    show Settled installation package
      (install stage calm platform supervised (before installation package))
    cases result : install stage calm platform supervised (before installation package) with
    | mk after ending =>
      rw [result] at passes replaced
      cases passes
      exact replaced
  · rw [sameUndone] at undoable same
    exact same.trans (undoable.rollbackWith_settled (undone_nodup _ _ _) (fun _ => rfl)
      (fun _ => rfl) forward)

/-- A file as an archive's entry. -/
def Sample.entry (name : String) : Entry := ⟨[.normal name], true, 1, [2]⟩

/-- The three binaries and a document. -/
def Sample.archive : List Entry :=
  ["aipass", "aipass-agent", "aipass-native-host", "NOTICE"].map Sample.entry

/-- The package of these files. -/
def Sample.noticed : Directory :=
  Function.update (Function.update (Function.update (Function.update (fun _ => none)
    "aipass" (some [2])) "aipass-agent" (some [2])) "aipass-native-host" (some [2]))
    "NOTICE" (some [2])

/-- An installation of the binaries alone. -/
def Sample.binaries : Directory := fun name =>
  if name ∈ binaryNames .unix then some [1] else none

/-- An installation of the binaries and the document. -/
def Sample.documented : Directory := Function.update Sample.binaries "NOTICE" (some [1])

/-- The new agent does not start. -/
def Sample.notReady : Failures := { start := some "updated Agent did not become ready" }

/-- An update whose agent does not start is undone where the document was installed before. -/
theorem install_allOrNothing_sample :
    AllOrNothing .unix "stage" true Sample.documented Sample.noticed Sample.notReady :=
  (install_allOrNothing_iff .unix "stage" true Sample.documented Sample.noticed Sample.archive
    rfl Sample.notReady ⟨rfl, rfl, rfl, rfl, rfl⟩).mpr (by decide)

/-- A package with a document that was not installed before: when the new agent does not start,
the rollback ends at the document and the new agent stays. -/
theorem install_not_allOrNothing :
    unpack .unix Sample.archive = .ok Sample.noticed ∧
    (∀ name ∈ binaryNames .unix, (Sample.binaries name).isSome) ∧
    ¬ AllOrNothing .unix "stage" true Sample.binaries Sample.noticed Sample.notReady := by
  refine ⟨rfl, by decide, fun settled => ?_⟩
  have restored : Settled Sample.binaries Sample.noticed
      (install "stage" Sample.notReady .unix true (before Sample.binaries Sample.noticed)) :=
    settled.1
  have agent : (install "stage" Sample.notReady .unix true
      (before Sample.binaries Sample.noticed)).1 (.installed "aipass-agent") = some [2] := by
    decide
  have fails : (install "stage" Sample.notReady .unix true
      (before Sample.binaries Sample.noticed)).2 ≠ .ok () := by
    decide
  generalize install "stage" Sample.notReady .unix true
    (before Sample.binaries Sample.noticed) = outcome at restored agent fails
  obtain ⟨files, ending⟩ := outcome
  cases ending with
  | ok passed => exact fails rfl
  | error error =>
    have old : some [2] = Sample.binaries "aipass-agent" :=
      agent.symm.trans (restored.1 "aipass-agent")
    exact absurd old (by decide)

end Aipass.Updates
