import ContextSets.Config
import ContextSets.Embedding.Error
import ContextSets.SetError

/-!
# Failures of commands

Why a command fails. A failure is told as a chain of texts, each the cause of the one before.
-/

namespace ContextSets

/-- Why a command fails. -/
inductive Failure where
  | set (error : SetError)
  | embedding (error : EmbeddingError)
  | search (error : SearchError)
  | uninitialized (workingCopy root : String)
  | notFile (path : String)
  | leavesRoot (path root : String)
  | elsewhere (path root : String)
  | unknownFile (path : String)
  | notInSet (path set : String)
  | notUsed (source target : String)
  | unreadable (path : String) (fault : FileFault)
  | unwritable (path : String) (fault : FileFault)
  | missingKey
  | unusableCache (directory : String) (error : EmbeddingError)
  | missingConfig (path : String)
  | unreadableConfig (path : String) (fault : FileFault)
  | invalidConfig (path : String) (fault : ConfigFault)

/-- An error of the repository and its cause. -/
def SetError.chain (error : SetError) : List String :=
  match error with
  | .storage fault => [error.message, fault.message]
  | .malformedDocument => [error.message, "not a document of context sets"]
  | _ => [error.message]

/-- An error of embedding and its cause. -/
def EmbeddingError.chain (error : EmbeddingError) : List String :=
  match error with
  | .storage fault => [error.message, fault.message]
  | @EmbeddingError.unreachable fault => [error.message, fault]
  | _ => [error.message]

namespace Failure

/-- A failure and its causes, the last cause at the end. -/
def chain : Failure → List String
  | set error => error.chain
  | embedding error => error.chain
  | search error => [error.message]
  | uninitialized workingCopy root =>
    ["no " ++ workingCopy ++ " in " ++ root ++ "; run \x60ctx init\x60 first"]
  | notFile path => ["not a file: " ++ path]
  | leavesRoot path root => [path ++ " is outside " ++ root]
  | elsewhere path root => [path ++ " is outside " ++ root, "prefix not found"]
  | unknownFile path => [path ++ " is not a known file"]
  | notInSet path name => [path ++ " is not in " ++ name]
  | notUsed source target => [source ++ " does not use " ++ target]
  | unreadable path fault => ["failed to read " ++ path, fault.message]
  | unwritable path fault => ["failed to write " ++ path, fault.message]
  | missingKey => ["OPENAI_API_KEY is not set; set it or use provider = \"hashing\""]
  | unusableCache directory error =>
    ("failed to open embedding cache " ++ directory) :: error.chain
  | missingConfig path => ["config file not found: " ++ path]
  | unreadableConfig path fault => ["failed to read config file: " ++ path, fault.message]
  | invalidConfig path fault => ["invalid config file: " ++ path, fault.message]

/-- A failure on one line. -/
def line (failure : Failure) : String :=
  ": ".intercalate failure.chain

/-- A text whose lines behind the first are indented by a number of blanks. -/
def indented (width : Nat) (text : String) : String :=
  String.ofList (text.toList.flatMap fun c =>
    if c = '\n' then c :: List.replicate width ' ' else [c])

/-- A failure as it is reported to a user: the first text, and a list of its causes. A single cause
has no number. All lines of a cause are indented alike. -/
def report (failure : Failure) : String :=
  match failure.chain with
  | [] => "Error: "
  | [text] => "Error: " ++ text
  | [text, cause] => "Error: " ++ text ++ "\n\nCaused by:\n    " ++ indented 4 cause
  | text :: causes =>
    let numbered := causes.zipIdx.map fun (cause, index) =>
      "\n    " ++ toString index ++ ": " ++ indented 7 cause
    "Error: " ++ text ++ "\n\nCaused by:" ++ String.join numbered

end Failure

end ContextSets
