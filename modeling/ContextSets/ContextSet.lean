import ContextSets.Reference
import ContextSets.Text.Lowercase

/-!
# Context sets

A context set bundles file references, an ordered workflow, the entry points by which its
functionality is reached, and the names of other sets that it uses.
-/

namespace ContextSets

/-- One step of a set's data flow. -/
structure WorkflowStep where
  description : String
  file : Option String := none
deriving DecidableEq, Repr

/-- The transport by which an entry point is reached. -/
inductive Protocol where
  | http
  | ui
  | cli
  | function
  | queue
  | file
  | hook
  | websocket
  | sse
deriving DecidableEq, Repr

namespace Protocol

/-- All transports. -/
def all : List Protocol :=
  [.http, .ui, .cli, .function, .queue, .file, .hook, .websocket, .sse]

/-- The name of a transport. -/
def name : Protocol → String
  | .http => "http"
  | .ui => "ui"
  | .cli => "cli"
  | .function => "function"
  | .queue => "queue"
  | .file => "file"
  | .hook => "hook"
  | .websocket => "websocket"
  | .sse => "sse"

/-- The transport of exactly that name. -/
def named? (text : String) : Option Protocol :=
  all.find? (·.name == text)

/-- The transport of that name in any mix of ASCII cases, or else the name in lower case. -/
def parse (text : String) : Except String Protocol :=
  match named? (Text.lowerAscii text) with
  | some protocol => .ok protocol
  | none => .error (Text.lowerAscii text)

/-- What is said about a name that no transport has. -/
def unknownMessage (name : String) : String :=
  "unknown protocol: " ++ name

end Protocol

/-- An external way into a set's functionality. -/
structure EntryPoint where
  file : String
  function : String
  protocol : Protocol
  method : String
  identifier : Option String := none
deriving DecidableEq, Repr

/-- How a set's functionality processes its work. -/
inductive ProcessingMode where
  | synchronous
  | asynchronous
  | streaming
  | batch
deriving DecidableEq, Repr

namespace ProcessingMode

/-- All modes. -/
def all : List ProcessingMode :=
  [.synchronous, .asynchronous, .streaming, .batch]

/-- The name of a mode. -/
def name : ProcessingMode → String
  | .synchronous => "synchronous"
  | .asynchronous => "asynchronous"
  | .streaming => "streaming"
  | .batch => "batch"

/-- The mode of exactly that name. -/
def named? (text : String) : Option ProcessingMode :=
  all.find? (·.name == text)

end ProcessingMode

/-- What a set holds. -/
structure SetContent where
  description : Option String := none
  files : List FileReference := []
  workflow : List WorkflowStep := []
  uses : List String := []
  entryPoints : List EntryPoint := []
  mode : Option ProcessingMode := none
deriving DecidableEq, Repr

/-- A named bundle of file references. -/
structure ContextSet extends SetContent where
  name : String
deriving DecidableEq, Repr

namespace SetContent

/-- The reference to a file, the first if there are several. -/
def file? (set : SetContent) (id : String) : Option FileReference :=
  set.files.find? (·.id == id)

/-- Whether the set refers to a file in its list of files. -/
def hasFile (set : SetContent) (id : String) : Bool :=
  (set.file? id).isSome

/-- The ids of all files mentioned: in the files, the workflow and the entry points, in this
order. -/
def mentioned (set : SetContent) : List String :=
  set.files.map (·.id) ++ set.workflow.filterMap (·.file) ++ set.entryPoints.map (·.file)

end SetContent

end ContextSets
