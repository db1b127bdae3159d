import ContextSets.Project.Basic

/-!
# Configuration files

A configuration is read from the file asked for, or else from a usual place, where it may be missing.
-/

namespace ContextSets.Config

variable {m : Type → Type} [Monad m]

/-- The usual place of the configuration in the directory of the user's settings. -/
def usualPath (settingsDirectory : String) : String :=
  Path.join (Path.join settingsDirectory "contextual") "config.toml"

/-- Reads a configuration file. -/
def ofFile (files : FileSystem m) (path : String) : Task m Config := do
  let text ← Task.ofAction (.unreadableConfig path) (files.readText path)
  Task.ofExcept (.invalidConfig path) (Config.ofText text)

/-- Whether something can be found at a path. -/
def isThere (files : FileSystem m) (path : String) : m Bool := do
  return (← files.kind path).toBool

/-- The configuration from the file asked for, which has to be there, or from the usual place. -/
def load (world : World m) (path : Option String) : Task m Config := do
  match path with
  | some path =>
    if ← ExceptT.lift (isThere world.files path) then ofFile world.files path
    else throw (.missingConfig path)
  | none =>
    match world.settingsDirectory.map usualPath with
    | none => return {}
    | some path =>
      if ← ExceptT.lift (isThere world.files path) then ofFile world.files path
      else return {}

end ContextSets.Config
