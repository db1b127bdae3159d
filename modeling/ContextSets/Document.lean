import ContextSets.Json.Printer
import ContextSets.Json.Reader
import ContextSets.Json.Sets
import ContextSets.Repository.Uses

/-!
# Documents of context sets

A document holds sets under their prefixed names and an index of the files they mention. It is the
form in which a repository is stored and handed on. A repository is built from a document only if the
document is consistent.
-/

namespace ContextSets

/-- Sets by name, and files by id. In the document of a repository all names are prefixed. -/
structure Document where
  sets : Table SetContent
  files : Table FileEntry
deriving DecidableEq, Repr

namespace Document

/-- What a set holds, with prefixed names of the sets it uses. -/
def exported (set : SetContent) : SetContent :=
  { set with uses := set.uses.map SetName.prefixed }

/-- The document of some sets and files. -/
def ofSets (sets : List ContextSet) (files : Table FileEntry) : Document :=
  { sets := Table.ofList (sets.map fun set => (SetName.prefixed set.name, exported set.toSetContent))
    files := files }

/-- The JSON form of a document. -/
def toJson (document : Document) : Json :=
  .obj [("sets", .obj (document.sets.map SetContent.toJson).entries),
    ("filesIndex", .obj (document.files.map FileEntry.toJson).entries)]

/-- The text of a document: indented JSON and a final line break. -/
def text (document : Document) : String :=
  document.toJson.pretty ++ "\n"

/-- Reads a document from JSON. The index of files may be missing. A set lies inside two open
objects. -/
def ofJson? : Json.Decoder Document := fun json => do
  match ← Json.record? ["sets", "filesIndex"] json with
  | [sets, files] =>
    return {
      sets := ← Json.required (Json.table? (SetContent.ofJson? 2)) sets
      files := ← Json.required (Json.table? FileEntry.ofJson?) (files.getD (.object [])) }
  | _ => none

/-- Reads a document from its text. -/
def ofText (text : String) : Except SetError Document :=
  match (Json.read? text).bind ofJson? with
  | some document => .ok document
  | none => .error .malformedDocument

end Document

namespace Repository

/-- The document of the whole repository. -/
def document (repo : Repository) : Document :=
  Document.ofSets repo.sets.values repo.manifest.files

/-- The document of a set and all that it uses, with the files that these sets mention. -/
def documentOf (repo : Repository) (name : String) : Except SetError Document := do
  let names ← repo.transitiveUses name
  let sets := names.filterMap repo.get?
  let mentioned := sets.flatMap (·.mentioned)
  return Document.ofSets sets (repo.manifest.files.filter fun id _ => mentioned.contains id)

/-- Registers the files of a document. -/
def registerAll : List (String × FileEntry) → Manifest → Except SetError Manifest
  | [], manifest => .ok manifest
  | (id, entry) :: rest, manifest => do registerAll rest (← manifest.insert id entry)

/-- Takes a set in, without its uses. Its name has to be valid and new, and its files registered. -/
def enroll (repo : Repository) (name : String) (set : SetContent) : Except SetError Repository := do
  let key := SetName.bare name
  SetError.checkName key
  if repo.sets.contains key then throw (.duplicateName key)
  match set.mentioned.find? (!repo.manifest.contains ·) with
  | some id => throw (.fileNotFound id)
  | none => return { repo with sets := repo.sets.insert key { set with name := key, uses := [] } }

/-- Takes sets in one after another, without their uses. -/
def enrollAll : List (String × SetContent) → Repository → Except SetError Repository
  | [], repo => .ok repo
  | (name, set) :: rest, repo => do enrollAll rest (← repo.enroll name set)

/-- Adds uses one after another. -/
def addUses : List (String × String) → Edit Unit
  | [] => return ()
  | (source, target) :: rest => do
    addUse source target
    addUses rest

/-- The uses of all sets of a document, each with the set that has it. -/
def usesIn (sets : List (String × SetContent)) : List (String × String) :=
  sets.flatMap fun entry => entry.2.uses.map fun used => (entry.1, used)

/-- Builds the repository of a document: the files are registered in the order of their ids, the sets
are taken in in the order of their keys, and then all uses are added, each checked for a cycle. -/
def ofDocument (document : Document) : Except SetError Repository := do
  let manifest ← registerAll document.files.entries ∅
  let repo ← enrollAll document.sets.entries ⟨manifest, ∅⟩
  match (addUses (usesIn document.sets.entries)).run repo with
  | .ok _ repo => return repo
  | .error error _ => throw error

/-- Replaces the repository by that of a document, and returns how many sets it has. -/
def replaceBy (document : Document) : Edit Nat := do
  let repo ← inquire fun _ => ofDocument document
  set repo
  return repo.sets.size

end Repository

end ContextSets
