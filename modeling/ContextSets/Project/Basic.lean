import ContextSets.Embedding.Remote
import ContextSets.Files.Path
import ContextSets.Files.System
import ContextSets.Project.Failure

/-!
# Projects

A project is a directory with sources and a working copy of its context sets. Programs on a project
run in a world, which is given by its files and a few facts, and may fail.
-/

namespace ContextSets

/-- What a program runs in: files, the current directory, the directory of the user's settings, the
key of the remote provider, and the client that reaches it. -/
structure World (m : Type → Type) where
  files : FileSystem m
  currentDirectory : String
  settingsDirectory : Option String
  apiKey : Option String
  [client : Client m]

/-- A program that may fail. -/
abbrev Task (m : Type → Type) := ExceptT Failure m

namespace Task

variable {m : Type → Type} [Monad m] {α ε : Type}

/-- Runs an action whose errors are failures of a kind. -/
def ofAction (failure : ε → Failure) (action : m (Except ε α)) : Task m α :=
  ExceptT.mk do return (← action).mapError failure

/-- A result whose errors are failures of a kind. -/
def ofExcept (failure : ε → Failure) (result : Except ε α) : Task m α :=
  ExceptT.mk (pure (result.mapError failure))

end Task

/-- A project: its root and its settings. -/
structure Project where
  root : String
  settings : ProjectSettings
deriving DecidableEq, Repr

namespace Project

/-- The project at the root asked for, else at the root in the settings, else in the current
directory. -/
def locate (root : Option String) (currentDirectory : String) (settings : ProjectSettings) : Project :=
  ⟨(root.orElse fun _ => settings.root).getD currentDirectory, settings⟩

/-- The path of a path below the root. -/
def place (project : Project) (path : String) : String :=
  Path.join project.root path

/-- The path of the working copy. -/
def workingCopy (project : Project) : String :=
  project.place project.settings.workingCopy

/-- The path made of the names of parts, if all of them are names. A part that stands for where it is
does not count. -/
def namesOnly? : List PathPart → Option (List String)
  | [] => some []
  | .name text :: rest => (namesOnly? rest).map (text :: ·)
  | .here :: rest => namesOnly? rest
  | _ => none

/-- The path of an existing file relative to the root, given its full path. -/
def relativeTo (project : Project) (path full : String) : Except Failure String :=
  match Path.behind? project.root full with
  | none => .error (.elsewhere full project.root)
  | some parts =>
    match namesOnly? parts with
    | none => .error (.leavesRoot path project.root)
    | some names => .ok ("/".intercalate names)

variable {m : Type → Type} [Monad m]

/-- The path of a file relative to the root. The file has to exist inside the project. -/
def relativePath (project : Project) (files : FileSystem m) (path : String) : Task m String := do
  let full := project.place path
  if ← ExceptT.lift (files.isFile full) then
    Task.ofExcept id (project.relativeTo path full)
  else throw (.notFile full)

end Project

end ContextSets
