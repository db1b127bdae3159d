import ContextSets.Command.Basic
import ContextSets.Command.Editing
import ContextSets.Markdown
import ContextSets.Project.Sources

/-!
# Commands that report

Commands that show what is stored, or hand it on.
-/

namespace ContextSets

/-- The line of a set in the list of sets. -/
def ContextSet.line (set : ContextSet) : String :=
  let uses := if set.uses.isEmpty then "" else " uses " ++ ", ".intercalate set.uses
  set.name ++ " (" ++ toString set.files.length ++ " files)" ++ uses ++
    Markdown.after ": " set.description

/-- The list of all sets. -/
def Repository.listing (repo : Repository) : String :=
  if repo.sets.isEmpty then "No context sets"
  else Change.trimmed ("\n".intercalate (repo.sets.values.map ContextSet.line))

/-- The text in which one set, or all sets, are handed on. -/
def Repository.handedOn (repo : Repository) (name : Option String) (format : ExportFormat) :
    Except SetError String :=
  match format, name with
  | .json, some name => return (← repo.documentOf name).text
  | .json, none => return repo.document.text
  | .markdown, some name => repo.markdown name
  | .markdown, none => return "\n".intercalate (← repo.names.mapM repo.markdown)

/-- The text of an estimate. -/
def TokenEstimate.text (estimate : TokenEstimate) : String :=
  "~" ++ toString estimate.tokens ++ " tokens across " ++ toString estimate.filesRead ++ " files" ++
    String.join (estimate.unreadable.map ("\nunreadable: " ++ ·))

namespace Project

variable {m : Type → Type} [Monad m]

/-- Shows all sets. -/
def list (project : Project) (files : FileSystem m) : Task m String := do
  return (← project.load files).listing

/-- Shows a set and its closure. -/
def display (project : Project) (files : FileSystem m) (name : String) : Task m String := do
  let repo ← project.load files
  Task.ofExcept .set (repo.markdown name)

/-- Hands a set or all sets on, to a file or as the answer. -/
def handOn (project : Project) (files : FileSystem m) (name : Option String)
    (format : ExportFormat) (output : Option String) : Task m String := do
  let repo ← project.load files
  let text ← Task.ofExcept .set (repo.handedOn name format)
  match output with
  | none => return Change.trimmed text
  | some path =>
    Task.ofAction (.unwritable path) (files.writeText path text)
    return "Wrote " ++ path

/-- Estimates the tokens of the closure of a set. -/
def estimate (project : Project) (files : FileSystem m) (name : String) : Task m String := do
  let repo ← project.load files
  let closure ← Task.ofExcept .set (repo.closure name)
  let estimate ← ExceptT.lift (project.tokens files closure.paths)
  return estimate.text

end Project

end ContextSets
