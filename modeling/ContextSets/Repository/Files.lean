import ContextSets.Repository.Basic

/-!
# Files of sets

Edits of the manifest and of the file references of a set.
-/

namespace ContextSets.Repository

/-- The id of a path, which is registered if it is new. -/
def resolvePath (path : String) : Edit String :=
  modifyGet fun repo =>
    let (id, manifest) := repo.manifest.resolve path
    (id, { repo with manifest := manifest })

/-- Replaces the note on a file. -/
def setFileComment (id : String) (comment : Option String) : Edit Unit := do
  let manifest ← inquire (·.manifest.setComment id comment)
  modify fun repo => { repo with manifest := manifest }

/-- Adds a file as a whole and tells whether the set changed: it does not if it has the file. -/
def addFile (name id : String) : Edit Bool := do
  requireFile id
  let set ← requireSet name
  if set.hasFile id then
    return false
  store name { set with files := set.files ++ [.whole id] }
  return true

/-- Registers a path and adds it as a whole. It returns the id and whether the set changed. -/
def addPath (name path : String) : Edit (String × Bool) := do
  let _ ← requireSet name
  let id ← resolvePath path
  let added ← addFile name id
  return (id, added)

/-- Takes a file out of the files of a set and tells whether it was there. It stays registered. -/
def removeFile (name id : String) : Edit Bool := do
  let set ← requireSet name
  let files := set.files.filter (·.id != id)
  store name { set with files := files }
  return files.length != set.files.length

/-- Changes the first member of a list that passes a test. -/
def changeFirst {α : Type} (test : α → Bool) (change : α → α) : List α → List α
  | [] => []
  | x :: rest => if test x then change x :: rest else x :: changeFirst test change rest

/-- Puts a reference in the place of the first one to a file. -/
def replaceReference (id : String) (reference : FileReference) :
    List FileReference → List FileReference :=
  changeFirst (·.id == id) fun _ => reference

/-- Replaces the functions by which a set refers to a file, adding the file if the set does not have
it. Without functions the reference covers the whole file. -/
def setRefs (name id : String) (refs : List FunctionRef) : Edit Unit := do
  requireFile id
  let set ← requireSet name
  let files :=
    match set.file? id with
    | some current =>
      -- A reference to the whole file holds the place of the one that is taken out.
      let held := replaceReference id (.whole id) set.files
      replaceReference id (current.withRefs refs) held
    | none => set.files ++ [.ofRefs id refs none]
  store name { set with files := files }

/-- Replaces the note on a reference to some functions of a file. It tells whether there is such a
reference: one to the whole file carries no note. A blank note is none. -/
def setReferenceComment (name id : String) (comment : Option String) : Edit Bool := do
  let set ← requireSet name
  match set.file? id with
  | none => throw (.fileNotFound id)
  | some current =>
    let held := replaceReference id (.whole id) set.files
    match current.withComment? (comment.bind Text.nonBlank?) with
    | none =>
      -- A reference to the whole file is left as the one that holds its place, which equals it.
      store name { set with files := held }
      return false
    | some updated =>
      store name { set with files := replaceReference id updated held }
      return true

/-- The ids of all files that some set mentions. -/
def mentioned (repo : Repository) : List String :=
  repo.sets.values.flatMap (·.mentioned)

/-- Removes the files that no set mentions from the manifest, and returns them by id. -/
def prune : Edit (List (String × FileEntry)) :=
  modifyGet fun repo =>
    let mentioned := repo.mentioned
    let (removed, manifest) := repo.manifest.prune mentioned.contains
    (removed, { repo with manifest := manifest })

end ContextSets.Repository
