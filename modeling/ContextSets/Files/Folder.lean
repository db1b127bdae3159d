import ContextSets.Files.Path
import ContextSets.Files.System

/-!
# Folders

Access to the files of one directory by their names.
-/

namespace ContextSets

/-- Access to the files of a directory. `prepare` makes the directory if it is missing. -/
structure Folder (m : Type → Type) where
  path : String
  prepare : m (Except FileFault Unit)
  names : m (Except FileFault (List String))
  read : String → m (Except FileFault ByteArray)
  write : String → ByteArray → m (Except FileFault Unit)
  rename : String → String → m (Except FileFault Unit)
  remove : String → m (Except FileFault Unit)

/-- A directory of a file system as a folder. -/
def FileSystem.folder {m : Type → Type} (files : FileSystem m) (path : String) : Folder m where
  path := path
  prepare := files.makeDirectories path
  names := files.list path
  read name := files.read (Path.join path name)
  write name bytes := files.write (Path.join path name) bytes
  rename source target := files.rename (Path.join path source) (Path.join path target)
  remove name := files.remove (Path.join path name)

end ContextSets
