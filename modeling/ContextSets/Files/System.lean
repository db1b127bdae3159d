import ContextSets.Files.Fault

/-!
# Access to files

The operations on files and directories that the library needs, in a monad of the caller's choice.
-/

namespace ContextSets

/-- What a path leads to. -/
inductive FileKind where
  | file
  | directory
  | other
deriving DecidableEq, Repr

/-- A file found below a directory: the names that lead to it and its size in bytes. -/
structure FoundFile where
  names : List String
  size : Nat
deriving DecidableEq, Repr

/-- Access to files. `walk` finds all files below a directory, entering only directories whose names
pass a test; a path to a file finds that file. `now` is the current instant. -/
structure FileSystem (m : Type → Type) where
  kind : String → m (Except FileFault FileKind)
  read : String → m (Except FileFault ByteArray)
  write : String → ByteArray → m (Except FileFault Unit)
  makeDirectories : String → m (Except FileFault Unit)
  rename : String → String → m (Except FileFault Unit)
  remove : String → m (Except FileFault Unit)
  list : String → m (Except FileFault (List String))
  walk : String → (String → Bool) → m (List FoundFile)
  now : m String

namespace FileSystem

/-- The same files for programs in another monad. -/
def lift {m n : Type → Type} (files : FileSystem m) (run : {α : Type} → m α → n α) :
    FileSystem n where
  kind path := run (files.kind path)
  read path := run (files.read path)
  write path bytes := run (files.write path bytes)
  makeDirectories path := run (files.makeDirectories path)
  rename source target := run (files.rename source target)
  remove path := run (files.remove path)
  list path := run (files.list path)
  walk path enter := run (files.walk path enter)
  now := run files.now

variable {m : Type → Type} [Monad m]

/-- Bytes as a text. -/
def decode (bytes : ByteArray) : Except FileFault String :=
  match String.fromUTF8? bytes with
  | some text => .ok text
  | none => .error .notUtf8

/-- Reads a file as a text. -/
def readText (files : FileSystem m) (path : String) : m (Except FileFault String) := do
  match ← files.read path with
  | .ok bytes => return decode bytes
  | .error fault => return .error fault

/-- Writes a text. -/
def writeText (files : FileSystem m) (path text : String) : m (Except FileFault Unit) :=
  files.write path text.toUTF8

/-- Whether a path leads to a file. -/
def isFile (files : FileSystem m) (path : String) : m Bool := do
  match ← files.kind path with
  | .ok kind => return kind == .file
  | .error _ => return false

/-- Whether a path leads to anything, as far as can be told. -/
def exists? (files : FileSystem m) (path : String) : m (Except FileFault Bool) := do
  match ← files.kind path with
  | .ok _ => return .ok true
  | .error .notFound => return .ok false
  | .error fault => return .error fault

end FileSystem

end ContextSets
