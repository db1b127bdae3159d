import ContextSets.Files.Path

/-!
# Commands

What a user may ask the command line tool to do with a project.
-/

namespace ContextSets

/-- The form in which sets are handed on. -/
inductive ExportFormat where
  | json
  | markdown
deriving DecidableEq, Repr

/-- How results of a search are shown, and to which set the best are added. -/
structure SearchOptions where
  limit : Option Nat := none
  json : Bool := false
  addTo : Option String := none
  top : Nat := 5
deriving DecidableEq, Repr

/-- A command and its arguments. -/
inductive Command where
  | init
  | create (name : String) (description : Option String)
  | describe (name : String) (description : Option String)
  | delete (name : String)
  | rename (name newName : String)
  | addFiles (set : String) (paths : List String)
  | removeFile (set path : String)
  | refs (set path : String) (names : List String) (note : Option String)
  | comment (path : String) (note : Option String)
  | addUse (source target : String)
  | removeUse (source target : String)
  | list
  | display (set : String)
  | handOn (set : Option String) (format : ExportFormat) (output : Option String)
  | tokens (set : String)
  | prune
  | search (query : String) (options : SearchOptions)
  | embed
deriving DecidableEq, Repr

end ContextSets
