import ContextSets.Files.Path
import ContextSets.Files.System
import ContextSets.Table

/-!
# File trees

A file tree as a value: files and directories under the places they have below the root. The place of
the root is the empty text, and each name adds a slash and itself. A tree serves as a file system for
programs that run on it.
-/

namespace ContextSets

/-- What stands at a place. -/
inductive TreeItem where
  | file (bytes : ByteArray)
  | directory

/-- Whether a directory stands there. -/
def TreeItem.isDirectory : TreeItem → Bool
  | .directory => true
  | .file _ => false

/-- Files and directories by place. The root is always there. -/
structure Tree where
  items : Table TreeItem

namespace Tree

/-- The tree with nothing but the root. -/
def empty : Tree := ⟨∅⟩

instance : EmptyCollection Tree := ⟨empty⟩

instance : Inhabited Tree := ⟨empty⟩

/-- The place of a name in the directory at a place. -/
def child (place name : String) : String :=
  place ++ "/" ++ name

/-- The names that lead from the root to a place. -/
def namesOf (place : String) : List String :=
  ((Text.splitBy (· == '/') place.toList).filter (!·.isEmpty)).map String.ofList

/-- The place to which names lead from another. -/
def below (place : String) (names : List String) : String :=
  names.foldl child place

/-- The place of the directory that holds a place. The root holds itself. -/
def holder (place : String) : String :=
  below "" (namesOf place).dropLast

/-- What stands at a place. -/
def item? (tree : Tree) (place : String) : Option TreeItem :=
  if place = "" then some .directory else tree.items.get? place

/-- A directory has to stand at a place. -/
def requireDirectory (tree : Tree) (place : String) : Except FileFault Unit :=
  match tree.item? place with
  | some .directory => .ok ()
  | some (.file _) => .error .notDirectory
  | none => .error .notFound

/-- How many bytes a name has at most. -/
def nameLimit : Nat := 255

/-- How many bytes a path has at most. -/
def pathLimit : Nat := 4095

/-- A path has to be one that can lead anywhere. -/
def requirePath (path : String) : Except FileFault Unit :=
  if !Path.isWhole path then .error .hasNul
  else if path.isEmpty then .error .notFound
  else if pathLimit < path.utf8ByteSize then .error .nameTooLong
  else .ok ()

/-- Follows the text between two slashes of a path. -/
def follow (tree : Tree) (place : String) (text : List Char) : Except FileFault String := do
  tree.requireDirectory place
  match text with
  | [] => return place
  | ['.'] => return place
  | ['.', '.'] => return holder place
  | text =>
    if nameLimit < (String.ofList text).utf8ByteSize then throw .nameTooLong
    return child place (String.ofList text)

/-- The texts between the slashes of a path, and the place from which they lead on. -/
def route (current path : String) : String × List (List Char) :=
  (if Path.isAbsolute path then "" else current, Text.splitBy (· == '/') path.toList)

/-- The place of a path, seen from the current directory. All that comes before has to be
directories. -/
def locate (tree : Tree) (current path : String) : Except FileFault String := do
  requirePath path
  let (start, texts) := route current path
  texts.foldlM tree.follow start

/-- What a path leads to, and its place. -/
def open? (tree : Tree) (current path : String) : Except FileFault (String × TreeItem) := do
  let place ← tree.locate current path
  match tree.item? place with
  | some item => return (place, item)
  | none => throw .notFound

/-- The file at a path, with its place. -/
def openFile (tree : Tree) (current path : String) : Except FileFault (String × ByteArray) := do
  match ← tree.open? current path with
  | (place, .file bytes) => return (place, bytes)
  | (_, .directory) => throw .isDirectory

/-- Whether a path ends in a slash. -/
def endsInSlash (path : String) : Bool :=
  path.toList.getLast? == some '/'

/-- The existing directory in which a path ends, and the text of its last part, if there is one. -/
def entrance (tree : Tree) (current path : String) :
    Except FileFault (String × Option (List Char)) := do
  requirePath path
  let (start, texts) := route current path
  let texts := (texts.reverse.dropWhile (·.isEmpty)).reverse
  let directory ← texts.dropLast.foldlM tree.follow start
  tree.requireDirectory directory
  return (directory, texts.getLast?)

/-- The place at which a path lets a file be made, in an existing directory. -/
def target (tree : Tree) (current path : String) : Except FileFault String := do
  match ← tree.entrance current path with
  | (_, none) => throw .isDirectory
  | (directory, some last) =>
    if endsInSlash path then throw .isDirectory
    let place ← tree.follow directory last
    if (tree.item? place).any (·.isDirectory) then throw .isDirectory
    return place

/-- Writes a file in an existing directory. -/
def write (tree : Tree) (current path : String) (bytes : ByteArray) : Except FileFault Tree := do
  let place ← tree.target current path
  return ⟨tree.items.insert place (.file bytes)⟩

/-- Makes a directory in an existing one, where there is nothing yet. -/
def makeDirectory (tree : Tree) (current path : String) : Except FileFault Tree := do
  match ← tree.entrance current path with
  | (_, none) => throw .exists
  | (directory, some last) =>
    if last = ['.'] ∨ last = ['.', '.'] then throw .exists
    let place ← tree.follow directory last
    if (tree.item? place).isSome then throw .exists
    return ⟨tree.items.insert place .directory⟩

/-- Whether a path leads to a directory. -/
def hasDirectory (tree : Tree) (current path : String) : Bool :=
  match tree.open? current path with
  | .ok (_, item) => item.isDirectory
  | .error _ => false

/-- Makes the first of some directories, of which each holds the one before it. They are made as far as
they are missing, and what has been made stays when another one cannot be made. -/
def makeFirst (current : String) (tree : Tree) : List String → Tree × Except FileFault Unit
  | [] => (tree, .ok ())
  | path :: holders =>
    if path.isEmpty then (tree, .ok ())
    else
      let settle (tree : Tree) (fault : FileFault) : Tree × Except FileFault Unit :=
        (tree, if tree.hasDirectory current path then .ok () else .error fault)
      match tree.makeDirectory current path with
      | .ok made => (made, .ok ())
      | .error .notFound =>
        match makeFirst current tree holders with
        | (tree, .error fault) => (tree, .error fault)
        | (tree, .ok ()) =>
          match tree.makeDirectory current path with
          | .ok made => (made, .ok ())
          | .error fault => settle tree fault
      | .error fault => settle tree fault

/-- Makes a directory and all that hold it, as far as they are missing. -/
def makeDirectories (tree : Tree) (current path : String) : Tree × Except FileFault Unit :=
  makeFirst current tree (path :: Path.holders path)

/-- Moves a file, over one that may be there. -/
def rename (tree : Tree) (current source target : String) : Except FileFault Tree := do
  let (place, bytes) ← tree.openFile current source
  if endsInSlash target then throw .notDirectory
  Tree.write ⟨tree.items.erase place⟩ current target bytes

/-- Removes a file. -/
def remove (tree : Tree) (current path : String) : Except FileFault Tree := do
  let (place, _) ← tree.openFile current path
  return ⟨tree.items.erase place⟩

/-- Removes a file, or a directory with all that it holds. -/
def removeAll (tree : Tree) (current path : String) : Except FileFault Tree := do
  let (place, _) ← tree.open? current path
  return ⟨tree.items.filter fun key _ =>
    !(key == place || (place ++ "/").toList.isPrefixOf key.toList)⟩

/-- The names in a directory, ascending. -/
def list (tree : Tree) (current path : String) : Except FileFault (List String) := do
  let place ← tree.locate current path
  tree.requireDirectory place
  return (tree.items.keys.filter fun key => holder key = place).filterMap
    fun key => (namesOf key).getLast?

/-- The files below a directory, or the file, at a path. Only directories whose names pass a test are
entered. -/
def walk (tree : Tree) (current path : String) (enter : String → Bool) : List FoundFile :=
  match tree.open? current path with
  | .error _ => []
  | .ok (_, .file bytes) => [⟨[], bytes.size⟩]
  | .ok (place, .directory) =>
    tree.items.entries.filterMap fun (key, item) =>
      match item with
      | .directory => none
      | .file bytes =>
        let names := namesOf key
        let start := namesOf place
        let inside := names.drop start.length
        if start.isPrefixOf names && !inside.isEmpty && inside.dropLast.all enter then
          some ⟨inside, bytes.size⟩
        else none

/-- Runs a change of the tree; a failing one changes nothing. -/
def change (run : Tree → Except FileFault Tree) : StateM Tree (Except FileFault Unit) := do
  match run (← get) with
  | .ok tree =>
    set tree
    return .ok ()
  | .error fault => return .error fault

/-- The tree as a file system, seen from the place of the current directory at a fixed instant. -/
def fileSystem (current now : String) : FileSystem (StateM Tree) where
  kind path := do
    return ((← get).open? current path).map fun
      | (_, .file _) => .file
      | (_, .directory) => .directory
  read path := do return ((← get).openFile current path).map Prod.snd
  write path bytes := change (·.write current path bytes)
  makeDirectories path := do
    let (tree, answer) := (← get).makeDirectories current path
    set tree
    return answer
  rename source target := change (·.rename current source target)
  remove path := change (·.remove current path)
  list path := do return (← get).list current path
  walk path enter := do return (← get).walk current path enter
  now := return now

end Tree

end ContextSets
