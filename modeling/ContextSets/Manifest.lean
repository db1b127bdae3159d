import ContextSets.Digest.Sha256
import ContextSets.SetError
import ContextSets.Table

/-!
# The manifest of files

The manifest registers every file that sets mention, once per path. The id of a file is a digest of
its path, so the same path gets the same id in every project. A file stays registered until it is
pruned.
-/

namespace ContextSets

/-- A file as it is registered under its id. -/
structure FileEntry where
  path : String
  comment : Option String := none
deriving DecidableEq, Repr

/-- The registered files by id, and their ids by path. -/
structure Manifest where
  files : Table FileEntry
  ids : Table String
deriving DecidableEq, Repr

namespace Manifest

/-- The manifest without files. -/
def empty : Manifest := ⟨∅, ∅⟩

instance : EmptyCollection Manifest := ⟨empty⟩

instance : Inhabited Manifest := ⟨empty⟩

/-- Takes every leading "./" off a path. -/
def dropDots : List Char → List Char
  | '.' :: '/' :: rest => dropDots rest
  | path => path

/-- One spelling for a path: no blanks at the ends, "/" between the parts, no leading "./". -/
def normalize (path : String) : String :=
  String.ofList (dropDots ((Text.trim path.toList).map (fun c => if c = '\\' then '/' else c)))

/-- The id made of the given number of digits of a path's digest. -/
def derivedId (path : String) (digits : Nat) : String :=
  "f" ++ String.ofList ((Digest.sha256Hex path).toList.take digits)

/-- The numbers of digits an id may have: twelve, or more if shorter ids are taken. -/
def idWidths : List Nat :=
  (List.range 14).map (fun k => 12 + 4 * k)

/-- The shortest id of a normalized path that no file has; all digits if every one is taken. -/
def freshId (manifest : Manifest) (path : String) : String :=
  ((idWidths.map (derivedId path)).find? (fun id => !manifest.files.contains id)).getD
    (derivedId path 64)

/-- Whether an id is registered. -/
def contains (manifest : Manifest) (id : String) : Bool :=
  manifest.files.contains id

/-- The file registered under an id. -/
def get? (manifest : Manifest) (id : String) : Option FileEntry :=
  manifest.files.get? id

/-- The id under which a path is registered, in any of its spellings. -/
def idOf? (manifest : Manifest) (path : String) : Option String :=
  manifest.ids.get? (normalize path)

/-- Registers a file under a given id and normalized path. -/
def put (manifest : Manifest) (id path : String) (comment : Option String) : Manifest :=
  { files := manifest.files.insert id ⟨path, comment⟩
    ids := manifest.ids.insert path id }

/-- The id of a path, which is registered if it is new. -/
def resolve (manifest : Manifest) (path : String) : String × Manifest :=
  match manifest.idOf? path with
  | some id => (id, manifest)
  | none =>
    let path := normalize path
    let id := manifest.freshId path
    (id, manifest.put id path none)

/-- Registers a file whose id is known. Neither its id nor its path may be taken. -/
def insert (manifest : Manifest) (id : String) (entry : FileEntry) : Except SetError Manifest :=
  let path := normalize entry.path
  if manifest.contains id then .error (.duplicateFileId id)
  else if manifest.ids.contains path then .error (.duplicateFilePath path)
  else .ok (manifest.put id path entry.comment)

/-- Replaces the note on a file. A blank note is none. -/
def setComment (manifest : Manifest) (id : String) (comment : Option String) :
    Except SetError Manifest :=
  match manifest.get? id with
  | none => .error (.fileNotFound id)
  | some entry =>
    let entry := { entry with comment := comment.bind Text.nonBlank? }
    .ok { manifest with files := manifest.files.insert id entry }

/-- Removes the files whose ids are not to be kept, and returns them. -/
def prune (manifest : Manifest) (keep : String → Bool) : List (String × FileEntry) × Manifest :=
  let removed := manifest.files.entries.filter (fun entry => !keep entry.1)
  let paths := removed.map (fun entry => entry.2.path)
  (removed,
    { files := manifest.files.filter (fun id _ => keep id)
      ids := manifest.ids.filter (fun path _ => !paths.contains path) })

end Manifest

end ContextSets
