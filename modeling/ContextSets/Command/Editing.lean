import ContextSets.Declaration.Analysis
import ContextSets.Project.WorkingCopy
import ContextSets.Repository.Files

/-!
# Commands that edit

An editing command runs on the stored repository. What it leaves is stored only if it succeeds. Every
command answers with a text.
-/

namespace ContextSets

/-- A change of the repository that may read files and may fail. -/
abbrev Change (m : Type → Type) := StateT Repository (Task m)

namespace Change

variable {m : Type → Type} [Monad m]

/-- An edit of the repository as a change. -/
def ofEdit {α : Type} (edit : Edit α) : Change m α := fun repo =>
  match edit.run repo with
  | .ok value repo => return (value, repo)
  | .error error _ => throw (.set error)

/-- A text without the blanks at its end. -/
def trimmed (text : String) : String :=
  String.ofList (Text.trimRight text.toList)

/-- Creates a set. -/
def create (name : String) (description : Option String) : Change m String := do
  let created ← ofEdit (Repository.create name)
  if description.isSome then ofEdit (Repository.describe created description)
  return "Created set " ++ created

/-- Replaces the description of a set. -/
def describe (name : String) (description : Option String) : Change m String := do
  ofEdit (Repository.describe name description)
  return "Updated description of " ++ name

/-- Deletes a set. -/
def delete (name : String) : Change m String := do
  let removed ← ofEdit (Repository.delete name)
  return "Deleted set " ++ removed.name

/-- Renames a set. -/
def rename (name newName : String) : Change m String := do
  ofEdit (Repository.rename name newName)
  return "Renamed " ++ name ++ " to " ++ newName

/-- Adds existing files to a set and tells of each whether it was new. -/
def addEach (project : Project) (files : FileSystem m) (name : String) :
    List String → Change m (List String)
  | [] => return []
  | path :: rest => do
    let relative ← StateT.lift (project.relativePath files path)
    let (id, added) ← ofEdit (Repository.addPath name relative)
    let line :=
      if added then "Added " ++ relative ++ " (" ++ id ++ ")"
      else relative ++ " is already in " ++ name
    return line :: (← addEach project files name rest)

/-- Adds existing files to a set. -/
def addFiles (project : Project) (files : FileSystem m) (name : String) (paths : List String) :
    Change m String := do
  let lines ← addEach project files name paths
  return trimmed ("\n".intercalate lines)

/-- The id of a path, which has to be registered. The file itself need not exist any more. The path is
looked up in its usual spelling, and so in the usual spelling of that one. -/
def knownFile (path : String) : Change m String := do
  let path := Manifest.normalize path
  match (← get).manifest.idOf? path with
  | some id => return id
  | none => throw (.unknownFile path)

/-- Takes a file out of a set. -/
def removeFile (name path : String) : Change m String := do
  let id ← knownFile path
  if ← ofEdit (Repository.removeFile name id) then
    return "Removed " ++ path ++ " from " ++ name
  else throw (.notInSet path name)

/-- A reference to a function, with the line of its declaration if there is one. -/
def functionRef (analysis : Analysis) (name : String) : FunctionRef :=
  let declared := (analysis.declarations.find? (·.name == name)).filter (·.line < UInt32.size)
  { name := name, line := declared.map fun d => UInt32.ofNat d.line }

/-- Narrows the reference of a set to a file down to functions, or widens it to the whole file. -/
def refs (project : Project) (files : FileSystem m) (name path : String) (names : List String)
    (comment : Option String) : Change m String := do
  let relative ← StateT.lift (project.relativePath files path)
  let content ←
    StateT.lift (Task.ofAction (.unreadable relative) (files.readText (project.place relative)))
  let analysis := Analysis.ofText Analysis.defaultLimit relative content
  let id ← ofEdit (Repository.resolvePath relative)
  ofEdit (Repository.setRefs name id (names.map (functionRef analysis)))
  if comment.isSome then
    let _ ← ofEdit (Repository.setReferenceComment name id comment)
  if names.isEmpty then return relative ++ " is included whole in " ++ name
  else return relative ++ " in " ++ name ++ " now references " ++ ", ".intercalate names

/-- Replaces the note on a file. -/
def comment (path : String) (comment : Option String) : Change m String := do
  let id ← knownFile path
  ofEdit (Repository.setFileComment id comment)
  return "Updated comment of " ++ path

/-- Makes a set use another. -/
def addUse (source target : String) : Change m String := do
  ofEdit (Repository.addUse source target)
  return source ++ " now uses " ++ target

/-- Takes a use away. -/
def removeUse (source target : String) : Change m String := do
  if ← ofEdit (Repository.removeUse source target) then
    return source ++ " no longer uses " ++ target
  else throw (.notUsed source target)

/-- Removes the files that no set mentions. -/
def prune : Change m String := do
  let removed ← ofEdit Repository.prune
  return "Pruned " ++ toString removed.length ++ " unreferenced files"

end Change

/-- Runs a change on the stored repository and stores what it leaves. -/
def Project.change {m : Type → Type} [Monad m] {α : Type} (project : Project)
    (files : FileSystem m) (change : Change m α) : Task m α := do
  let repo ← project.load files
  let (answer, repo) ← change.run repo
  project.save files repo
  return answer

/-- Stores an empty repository unless there is one. -/
def Project.start {m : Type → Type} [Monad m] (project : Project) (files : FileSystem m) :
    Task m String := do
  if ← project.initialize? files then return "Initialized " ++ project.workingCopy
  else return project.workingCopy ++ " already exists"

end ContextSets
