import ContextSets.Repository.Uses

/-!
# Closures

The closure of a set is the set together with all it uses. Its files are listed once each, in order of
first mention. A file is included as a whole if any set of the closure refers to all of it, and
otherwise by all functions that some set names.
-/

namespace ContextSets

/-- How much of a file is included. -/
inductive Inclusion where
  | whole
  | functions (refs : List FunctionRef)
deriving DecidableEq, Repr

namespace Inclusion

/-- Adds the functions whose names are new, in order. -/
def union (refs : List FunctionRef) : List FunctionRef → List FunctionRef
  | [] => refs
  | ref :: rest =>
    if refs.any (·.name == ref.name) then union refs rest else union (refs ++ [ref]) rest

/-- What a single reference includes. -/
def ofReference (reference : FileReference) : Inclusion :=
  if reference.isWhole then .whole else .functions (union [] reference.refs)

/-- What is included together with a further reference. -/
def merge (inclusion : Inclusion) (reference : FileReference) : Inclusion :=
  match inclusion with
  | .whole => .whole
  | .functions refs =>
    if reference.isWhole then .whole else .functions (union refs reference.refs)

end Inclusion

/-- A file of a closure. The comment is that of the reference by which the file came in. -/
structure ResolvedFile where
  id : String
  entry : FileEntry
  inclusion : Inclusion
  comment : Option String
deriving DecidableEq, Repr

/-- A set together with everything it uses. -/
structure Closure where
  root : ContextSet
  sets : List ContextSet
  files : List ResolvedFile
deriving DecidableEq, Repr

namespace Closure

/-- Merges a reference into the file it refers to. -/
def mergeInto (reference : FileReference) : List ResolvedFile → List ResolvedFile
  | [] => []
  | file :: rest =>
    if file.id == reference.id then
      { file with inclusion := file.inclusion.merge reference } :: rest
    else file :: mergeInto reference rest

/-- Takes references in one after another. The first to a file puts the file at the end. -/
def collect (manifest : Manifest) :
    List FileReference → List ResolvedFile → Except SetError (List ResolvedFile)
  | [], files => .ok files
  | reference :: rest, files =>
    if files.any (·.id == reference.id) then collect manifest rest (mergeInto reference files)
    else
      match manifest.get? reference.id with
      | none => .error (.fileNotFound reference.id)
      | some entry =>
        collect manifest rest (files ++ [{
          id := reference.id
          entry := entry
          inclusion := .ofReference reference
          comment := reference.comment }])

/-- The paths of the files. -/
def paths (closure : Closure) : List String :=
  closure.files.map (·.entry.path)

end Closure

/-- The closure of a set. Its sets come in the order of a depth-first walk, the set itself first. -/
def Repository.closure (repo : Repository) (name : String) : Except SetError Closure := do
  let names ← repo.transitiveUses name
  match names.filterMap repo.get? with
  | [] => throw (.setNotFound (SetName.bare name))
  | root :: used =>
    let files ← Closure.collect repo.manifest ((root :: used).flatMap (·.files)) []
    return { root := root, sets := root :: used, files := files }

end ContextSets
