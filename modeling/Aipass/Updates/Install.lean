import Aipass.Values
import Mathlib.Logic.Function.Basic
import Mathlib.Data.List.Basic

/-!
# Replacing the installed command-line tools

An update is unpacked into a stage directory beside the installed files. Each installed file is
moved into the stage under the name of its backup, or marked there as absent, before the staged
file takes its place. A failure is undone from the backups, last file first; when the new agent
does not start, the files to undo are read from the backups and the marks.
-/
namespace Aipass.Updates

/-- The systems the tools are built for. -/
inductive Platform
  | windows
  | unix
deriving DecidableEq

/-- The first of `binary_names`. -/
def Platform.cli : Platform → String
  | windows => "aipass.exe"
  | unix => "aipass"

/-- The second of `binary_names`. -/
def Platform.agent : Platform → String
  | windows => "aipass-agent.exe"
  | unix => "aipass-agent"

/-- The third of `binary_names`. -/
def Platform.nativeHost : Platform → String
  | windows => "aipass-native-host.exe"
  | unix => "aipass-native-host"

/-- `binary_names`. -/
def binaryNames (platform : Platform) : List String :=
  [platform.cli, platform.agent, platform.nativeHost]

/-- The files of a package that may be missing. -/
def documents : List String := ["LICENSE", "NOTICE", "README.md"]

/-- The order in which files are replaced: the command-line tool last. -/
def order (platform : Platform) : List String :=
  [platform.agent, platform.nativeHost, "LICENSE", "NOTICE", "README.md", platform.cli]

/-- `MAX_ARCHIVE`. -/
def maxArchive : ℕ := 256 * 1024 * 1024

/-- A component of an archived path. -/
inductive Component
  /-- `Component::CurDir`. -/
  | current
  /-- `Component::Normal`, a name in UTF-8. -/
  | normal (name : String)
  /-- `Component::Normal`, another name. -/
  | foreign
  /-- A root, a drive or the parent directory. -/
  | outside
deriving DecidableEq

/-- An entry as the archive's reader returns it. -/
structure Entry where
  path : List Component
  /-- A plain file, and no link. -/
  isFile : Bool
  /-- The size the archive states. -/
  size : ℕ
  data : Bytes

/-- The files of a directory by their names. -/
abbrev Directory := String → Option Bytes

/-- What the closure `save` of `unpack` keeps: the names found and the files written. -/
structure Unpacked where
  found : List String := []
  files : Directory := fun _ => none

/-- The closure `save` of `unpack`. -/
def save (platform : Platform) (unpacked : Unpacked) (entry : Entry) : Except String Unpacked :=
  let path := if entry.path.head? = some .current then entry.path.tail else entry.path
  match path with
  | [] => .ok unpacked
  | [.normal name] =>
    if '\\' ∈ name.toList ∨ !entry.isFile then .error "invalid CLI archive entry"
    else if name ∉ binaryNames platform ∧ name ∉ documents then .ok unpacked
    else if name ∈ unpacked.found ∨ maxArchive < entry.size then
      .error "invalid CLI archive entry"
    else
      let copied := min entry.data.length (maxArchive + 1)
      if copied ≠ entry.size ∨ maxArchive < copied then .error "invalid CLI archive entry size"
      else
        .ok { found := unpacked.found ++ [name],
              files := Function.update unpacked.files name (some entry.data) }
  | [.foreign] =>
    if !entry.isFile then .error "invalid CLI archive entry"
    else .error "non-UTF-8 archive filename"
  | _ => .error "invalid CLI archive entry"

/-- The entries of an archive, saved one after another. -/
def saveAll (platform : Platform) : List Entry → Unpacked → Except String Unpacked
  | [], unpacked => .ok unpacked
  | entry :: rest, unpacked =>
    match save platform unpacked entry with
    | .error error => .error error
    | .ok next => saveAll platform rest next

/-- `unpack`, from the entries the archive's reader returns. -/
def unpack (platform : Platform) (archive : List Entry) : Except String Directory :=
  match saveAll platform archive {} with
  | .error error => .error error
  | .ok unpacked =>
    if ∀ name ∈ binaryNames platform, name ∈ unpacked.found then .ok unpacked.files
    else .error "CLI package is incomplete"

/-- The paths an update touches. -/
inductive Path
  /-- `directory.join(name)`. -/
  | installed (name : String)
  /-- `stage.join(name)`. -/
  | staged (name : String)
  /-- `stage.join("{name}.previous")`. -/
  | previous (name : String)
  /-- `stage.join("{name}.absent")`. -/
  | absent (name : String)
  /-- `stage.join("{name}.failed")`. -/
  | failed (name : String)
deriving DecidableEq

/-- The files at these paths. -/
abbrev Files := Path → Option Bytes

/-- Why a call on a file fails. -/
inductive IoError
  | notFound
  | refused
deriving DecidableEq

/-- `fs::rename`. -/
def rename (refused : Bool) (source target : Path) (files : Files) : Except IoError Files :=
  if refused then .error .refused
  else
    match files source with
    | none => .error .notFound
    | some bytes =>
      .ok (Function.update (Function.update files source none) target (some bytes))

/-- `fs::write`. -/
def write (refused : Bool) (target : Path) (bytes : Bytes) (files : Files) :
    Except IoError Files :=
  if refused then .error .refused else .ok (Function.update files target (some bytes))

/-- Which calls of an update fail. -/
structure Failures where
  /-- Suspending the service. -/
  suspend : Bool := false
  /-- Stopping the old agent. -/
  stop : Bool := false
  /-- Moving an installed file to its backup, or marking it absent. -/
  backUp : String → Bool := fun _ => false
  /-- Moving a staged file to its place. -/
  replace : String → Bool := fun _ => false
  /-- Starting the new agent, with the error. -/
  start : Option String := none
  /-- Suspending the service of the new agent. -/
  suspendNew : Bool := false
  /-- Stopping the new agent. -/
  stopNew : Bool := false
  /-- Moving a replaced file out of its place. -/
  setAside : String → Bool := fun _ => false
  /-- Moving a backup to its place. -/
  putBack : String → Bool := fun _ => false
  /-- Starting the old agent again. -/
  startOld : Bool := false

/-- What failed. -/
inductive Cause
  | suspending
  | stopping
  | backingUp (error : IoError)
  | replacing (error : IoError)
  | undoing (error : IoError)
  | starting
deriving DecidableEq

/-- An error with the contexts it was given, the outermost first. -/
structure UpdateError where
  cause : Cause
  contexts : List String := []
deriving DecidableEq

/-- The files after a call, and its result. -/
abbrev Outcome := Files × Except UpdateError Unit

variable (stage : String) (failures : Failures)

/-- A file in the place of a backup is moved into the stage. -/
def setAside (name : String) (files : Files) : Except IoError Files :=
  if (files (.installed name)).isSome then
    rename (failures.setAside name) (.installed name) (.failed name) files
  else .ok files

/-- One file of `rollback`. -/
def undo (name : String) (files : Files) : Outcome :=
  match setAside failures name files with
  | .error error => (files, .error { cause := .undoing error })
  | .ok files =>
    match rename (failures.putBack name) (.previous name) (.installed name) files with
    | .error error =>
      (files, .error { cause := .undoing error,
                       contexts := ["rollback failed; restore backups from " ++ stage] })
    | .ok files => (files, .ok ())

/-- The loop of `rollback`. -/
def undoAll : List String → Files → Outcome
  | [], files => (files, .ok ())
  | name :: rest, files =>
    match undo stage failures name files with
    | (files, .error error) => (files, .error error)
    | (files, .ok ()) => undoAll rest files

/-- `rollback`. -/
def rollback (replaced : List String) (files : Files) : Outcome :=
  undoAll stage failures replaced.reverse files

/-- `rollback` before an error is returned. -/
def rollbackWith (replaced : List String) (error : UpdateError) (files : Files) : Outcome :=
  match rollback stage failures replaced files with
  | (files, .error failed) => (files, .error failed)
  | (files, .ok ()) => (files, .error error)

/-- The backup of an installed file, or the mark of its absence. -/
def backUp (name : String) (files : Files) : Except IoError Files :=
  if (files (.installed name)).isSome then
    rename (failures.backUp name) (.installed name) (.previous name) files
  else write (failures.backUp name) (.absent name) [] files

/-- The loop of `replace_all`. -/
def replaceFrom (replaced : List String) : List String → Files → Outcome
  | [], files => (files, .ok ())
  | name :: rest, files =>
    if files (.staged name) = none ∧ name ∈ documents then replaceFrom replaced rest files
    else
      match backUp failures name files with
      | .error error =>
        rollbackWith stage failures replaced
          { cause := .backingUp error, contexts := ["failed to back up installed file"] } files
      | .ok files =>
        match rename (failures.replace name) (.staged name) (.installed name) files with
        | .error error =>
          rollbackWith stage failures (replaced ++ [name])
            { cause := .replacing error,
              contexts := ["failed to replace executable; restored previous installation"] } files
        | .ok files => replaceFrom (replaced ++ [name]) rest files

/-- `replace_all`. -/
def replaceAll (platform : Platform) (files : Files) : Outcome :=
  replaceFrom stage failures [] (order platform) files

/-- `replaced_files`. -/
def replacedFiles (platform : Platform) (files : Files) : List String :=
  (order platform).filter fun name =>
    (files (.previous name)).isSome || (files (.absent name)).isSome

/-- A call before the rest of an update, which ends with the call if that fails. -/
def failIf (fails : Bool) (cause : Cause) (contexts : List String) (files : Files)
    (rest : Outcome) : Outcome :=
  if fails then (files, .error { cause := cause, contexts := contexts }) else rest

/-- `with_context`. -/
def withContext (context : String) (outcome : Outcome) : Outcome :=
  (outcome.1, outcome.2.mapError fun error =>
    { error with contexts := context :: error.contexts })

/-- What `run` does when the new agent does not start. -/
def recover (platform : Platform) (supervised : Bool) (error : String) (files : Files) :
    Outcome :=
  failIf (supervised && failures.suspendNew) .suspending [] files <|
  failIf failures.stopNew .stopping
    ["new Agent failed: " ++ error ++ "; recovery files: " ++ stage] files <|
  match rollback stage failures (replacedFiles platform files) files with
  | (files, .error error) => withContext ("recovery files: " ++ stage) (files, .error error)
  | (files, .ok ()) =>
    failIf failures.startOld .starting [] files
      (files, .error { cause := .starting,
                       contexts := ["new Agent failed to start; restored previous binaries"] })

/-- The closure of `run` that changes files. -/
def change (platform : Platform) (supervised : Bool) (files : Files) : Outcome :=
  failIf (supervised && failures.suspend) .suspending [] files <|
  if failures.stop then
    failIf failures.startOld .starting [] files
      (files, .error { cause := .stopping,
                       contexts := ["Agent shutdown failed; no binaries were changed"] })
  else
    match replaceAll stage failures platform files with
    | (files, .error error) =>
      failIf failures.startOld .starting [] files
        (withContext ("update failed; recovery files: " ++ stage) (files, .error error))
    | (files, .ok ()) =>
      match failures.start with
      | some error => recover stage failures platform supervised error files
      | none => (files, .ok ())

/-- What `run` does from the moment the stage is kept. -/
def install (platform : Platform) (supervised : Bool) (files : Files) : Outcome :=
  withContext ("update recovery directory: " ++ stage)
    (change stage failures platform supervised files)

end Aipass.Updates
