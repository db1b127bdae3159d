import ContextSets.Files.Fault
import ContextSets.SetName
import ContextSets.Text.Quoted

/-!
# Errors of the repository

Why an edit, a document or a look-up is refused, and how the refusal is worded.
-/

namespace ContextSets

/-- Why an operation on sets is refused. -/
inductive SetError where
  | invalidName (name : String) (fault : SetName.Fault)
  | duplicateName (name : String)
  | selfReference (name : String)
  | circularDependency (source target : String) (cycle : List String)
  | setNotFound (name : String)
  | fileNotFound (id : String)
  | indexOutOfRange (set : String) (index : Nat)
  | sourceNotFound (path : String)
  | sourceDenied (path : String)
  | duplicateFileId (id : String)
  | duplicateFilePath (path : String)
  | malformedDocument
  | storage (fault : FileFault)
deriving DecidableEq, Repr

/-- What a caller can do about an error. -/
inductive ErrorCategory where
  | validation
  | circularDependency
  | notFound
  | storage
deriving DecidableEq, Repr

namespace SetError

/-- The category of an error. -/
def category : SetError → ErrorCategory
  | invalidName .. | duplicateName _ | indexOutOfRange .. | duplicateFileId _
  | duplicateFilePath _ => .validation
  | selfReference _ | circularDependency .. => .circularDependency
  | setNotFound _ | fileNotFound _ | sourceNotFound _ => .notFound
  | sourceDenied _ | malformedDocument | storage _ => .storage

/-- The wording of an error. -/
def message : SetError → String
  | invalidName name fault =>
    "invalid context set name " ++ Text.quoted name ++ ": " ++ fault.message
  | duplicateName name => "context set already exists: " ++ name
  | selfReference name => "context set cannot use itself: " ++ name
  | circularDependency source target cycle =>
    source ++ " -> " ++ target ++ " would create a circular dependency: " ++
      " -> ".intercalate cycle
  | setNotFound name => "context set not found: " ++ name
  | fileNotFound id => "file not found: " ++ id
  | indexOutOfRange set index => "index " ++ toString index ++ " out of range in " ++ set
  | sourceNotFound path => "source file not found: " ++ path
  | sourceDenied path => "permission denied: " ++ path
  | duplicateFileId id => "invalid format: duplicate file id " ++ id
  | duplicateFilePath path => "invalid format: duplicate file path " ++ path
  | malformedDocument => "serialization error: not a document of context sets"
  | storage fault => "io error: " ++ fault.message

/-- A bare name is checked before it is stored. -/
def checkName (name : String) : Except SetError Unit :=
  match SetName.fault? name with
  | none => .ok ()
  | some fault => .error (.invalidName name fault)

end SetError

end ContextSets
