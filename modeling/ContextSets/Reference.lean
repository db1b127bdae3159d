/-!
# References from a set into the project

A set refers to a file as a whole, or to some of the functions declared in it.
-/

namespace ContextSets

/-- A declaration inside a file. -/
structure FunctionRef where
  name : String
  comment : Option String := none
  line : Option UInt32 := none
deriving DecidableEq, Repr

/-- How a set includes a file. A reference to some of the functions names at least one. -/
inductive FileReference where
  | whole (id : String)
  | part (id : String) (first : FunctionRef) (others : List FunctionRef) (comment : Option String)
deriving DecidableEq, Repr

namespace FileReference

/-- The reference with the given functions; without any it covers the whole file. -/
def ofRefs (id : String) (refs : List FunctionRef) (comment : Option String) : FileReference :=
  match refs with
  | [] => .whole id
  | first :: others => .part id first others comment

/-- The id of the file. -/
def id : FileReference → String
  | .whole id => id
  | .part id _ _ _ => id

/-- The functions named, none for the whole file. -/
def refs : FileReference → List FunctionRef
  | .whole _ => []
  | .part _ first others _ => first :: others

/-- The note on a reference to some of the functions. -/
def comment : FileReference → Option String
  | .whole _ => none
  | .part _ _ _ comment => comment

/-- Whether the whole file is included. -/
def isWhole : FileReference → Bool
  | .whole _ => true
  | .part .. => false

/-- The same reference with other functions. The note stays as long as functions are named. -/
def withRefs (reference : FileReference) (refs : List FunctionRef) : FileReference :=
  ofRefs reference.id refs reference.comment

/-- The same reference with another note; a whole file carries none. -/
def withComment? (reference : FileReference) (comment : Option String) : Option FileReference :=
  match reference with
  | .whole _ => none
  | .part id first others _ => some (.part id first others comment)

end FileReference

end ContextSets
