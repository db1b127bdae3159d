import ContextSets.Document
import ContextSets.Project.Basic

/-!
# Working copies

A working copy is the document of a repository in a file. It is written under a temporary name and
then moved to its place, so that no half-written document is left behind.
-/

namespace ContextSets

namespace WorkingCopy

/-- The usual name of a working copy. -/
def usualName : String := ({} : ProjectSettings).workingCopy

/-- The path under which a working copy is written before it is moved to its place. -/
def temporary (path : String) : String :=
  Path.withExtension path "json.tmp"

variable {m : Type → Type} [Monad m]

/-- An access to files as one to storage. -/
def stored {α : Type} (action : m (Except FileFault α)) : ExceptT SetError m α :=
  ExceptT.mk do return (← action).mapError .storage

/-- Replaces the text of a working copy. The directory that holds it is made if it is missing. -/
def writeText (files : FileSystem m) (path text : String) : ExceptT SetError m Unit := do
  match Path.parent? path with
  | none => pure ()
  | some directory => if !directory.isEmpty then stored (files.makeDirectories directory)
  stored (files.writeText (temporary path) text)
  stored (files.rename (temporary path) path)

/-- The stored repository, if there is one. -/
def load (files : FileSystem m) (path : String) : ExceptT SetError m (Option Repository) := do
  if ← stored (files.exists? path) then
    let text ← stored (files.readText path)
    let document ← ExceptT.mk (pure (Document.ofText text))
    let repo ← ExceptT.mk (pure (Repository.ofDocument document))
    return some repo
  else return none

/-- Stores a repository. -/
def save (files : FileSystem m) (path : String) (repo : Repository) : ExceptT SetError m Unit :=
  writeText files path repo.document.text

end WorkingCopy

namespace Project

variable {m : Type → Type} [Monad m]

/-- Stores an empty repository unless there is one, and tells whether it did. -/
def initialize? (project : Project) (files : FileSystem m) : Task m Bool := do
  match ← Task.ofAction .set (WorkingCopy.load files project.workingCopy).run with
  | some _ => return false
  | none =>
    Task.ofAction .set (WorkingCopy.save files project.workingCopy ∅).run
    return true

/-- The repository of the project, which has to be there. -/
def load (project : Project) (files : FileSystem m) : Task m Repository := do
  match ← Task.ofAction .set (WorkingCopy.load files project.workingCopy).run with
  | some repo => return repo
  | none => throw (.uninitialized project.settings.workingCopy project.root)

/-- Stores the repository of the project. -/
def save (project : Project) (files : FileSystem m) (repo : Repository) : Task m Unit :=
  Task.ofAction .set (WorkingCopy.save files project.workingCopy repo).run

end Project

end ContextSets
