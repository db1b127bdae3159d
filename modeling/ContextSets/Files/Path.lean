import ContextSets.Text.Occurrence

/-!
# Paths

A path is a text whose parts stand between slashes. Empty parts and inner "." parts mean nothing; a
leading slash is the root.
-/

namespace ContextSets

/-- A part of a path. -/
inductive PathPart where
  | root
  | here
  | up
  | name (text : String)
deriving DecidableEq, Repr

namespace Path

/-- The part that the text between two slashes stands for. -/
def partOf? (text : List Char) : Option PathPart :=
  match text with
  | [] => none
  | ['.'] => none
  | ['.', '.'] => some .up
  | text => some (.name (String.ofList text))

/-- The parts of a path. A "." counts only at the start of a path without root. -/
def parts (path : String) : List PathPart :=
  let texts := Text.splitBy (· == '/') path.toList
  let named := texts.filterMap partOf?
  match path.toList, texts with
  | '/' :: _, _ => .root :: named
  | _, ['.'] :: _ => .here :: named
  | _, _ => named

/-- Whether a path starts at the root. -/
def isAbsolute (path : String) : Bool :=
  path.toList.head? == some '/'

/-- A path seen from another. An absolute path stands for itself. -/
def join (base path : String) : String :=
  if isAbsolute path || base.isEmpty then path
  else if base.toList.getLast? == some '/' then base ++ path
  else base ++ "/" ++ path

/-- The last part of a path, if it is a name. -/
def fileName? (path : String) : Option String :=
  match (parts path).getLast? with
  | some (.name text) => some text
  | _ => none

/-- The parts of a name before and behind its last dot, unless the dot comes first. -/
def splitName (name : String) : String × Option String :=
  let behind := (name.toList.reverse.takeWhile (· != '.')).reverse
  let before := name.toList.take (name.length - behind.length - 1)
  if before.isEmpty then (name, none)
  else (String.ofList before, some (String.ofList behind))

/-- The extension of the last part of a path. -/
def extension? (path : String) : Option String :=
  (fileName? path).bind fun name => (splitName name).2

/-- The path of given parts. -/
def ofParts (parts : List PathPart) : String :=
  let text : PathPart → String
    | .root => ""
    | .here => "."
    | .up => ".."
    | .name text => text
  if parts = [.root] then "/" else "/".intercalate (parts.map text)

/-- The path without its last part, if it has one that is not the root. -/
def parent? (path : String) : Option String :=
  match (parts path).getLast? with
  | none => none
  | some .root => none
  | some _ => some (ofParts (parts path).dropLast)

/-- The paths without their last parts, the longest first, for the last parts of a path in front. -/
def holdersOf : List PathPart → List String
  | [] => []
  | .root :: _ => []
  | _ :: rest => ofParts rest.reverse :: holdersOf rest

/-- The paths of the directories that hold what a path leads to, the nearest first. -/
def holders (path : String) : List String :=
  holdersOf (parts path).reverse

/-- Whether a path can be handed to the file system: a NUL would end it early. -/
def isWhole (path : String) : Bool :=
  !path.toList.contains '\x00'

/-- The path with another extension behind its last part; a path without a name stays as it is. -/
def withExtension (path extension : String) : String :=
  match fileName? path with
  | none => path
  | some name =>
    let idle (text : List Char) : Bool := text == [] || text == ['.']
    let texts := ((Text.splitBy (· == '/') path.toList).reverse.dropWhile idle).tail.reverse
    "/".intercalate (texts.map String.ofList ++ [(splitName name).1 ++ "." ++ extension])

/-- The parts of a path behind those of another, if it starts with them. -/
def behind? (base path : String) : Option (List PathPart) :=
  if (parts base).isPrefixOf (parts path) then some ((parts path).drop (parts base).length)
  else none

end Path

end ContextSets
