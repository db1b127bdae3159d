import ContextSets.Project.Basic
import ContextSets.Ranking.Ranker
import ContextSets.Tokens

/-!
# Sources of a project

The files of a project that are searched and embedded, and how they are read.
-/

namespace ContextSets

namespace Project

/-- Whether a found file is a source: it is small enough and not the working copy. -/
def isSource (project : Project) (file : FoundFile) : Bool :=
  file.size ≤ project.settings.maxFileBytes &&
    "/".intercalate file.names != project.settings.workingCopy

/-- The directory in which vectors are kept. -/
def cacheDirectory (project : Project) (settings : EmbeddingSettings) : String :=
  settings.cacheDirectory.getD (Path.join (project.place ".contextual") "embeddings")

/-- Whether a path lies in the directory in which vectors are kept. -/
def isCached (project : Project) (settings : EmbeddingSettings) (path : String) : Bool :=
  (Path.behind? (project.cacheDirectory settings) (project.place path)).isSome

variable {m : Type → Type} [Monad m]

/-- The relative paths of all sources, ascending. Excluded directories are not entered. -/
def scan (project : Project) (files : FileSystem m) : m (List String) := do
  let found ← files.walk project.root (!project.settings.excludedDirectories.contains ·)
  let paths := (found.filter project.isSource).map fun file => "/".intercalate file.names
  return paths.mergeSort fun a b => decide (a ≤ b)

/-- Reads files as texts. What cannot be read is passed over. -/
def readSources (project : Project) (files : FileSystem m) (paths : List String) :
    m (List SourceFile) :=
  match paths with
  | [] => return []
  | path :: rest => do
    let content ← files.readText (project.place path)
    let others ← readSources project files rest
    match content with
    | .ok text => return ⟨path, text⟩ :: others
    | .error _ => return others

/-- The sources to search or to embed: without the kept vectors, which may lie in the project. -/
def sources (project : Project) (files : FileSystem m) (settings : EmbeddingSettings) :
    m (List SourceFile) := do
  let paths ← project.scan files
  project.readSources files (paths.filter (!project.isCached settings ·))

/-- Reads a file by its relative path. -/
def textOf (project : Project) (files : FileSystem m) (path : String) :
    m (Except SetError String) := do
  match ← files.readText (project.place path) with
  | .ok text => return .ok text
  | .error .notFound => return .error (.sourceNotFound (project.place path))
  | .error .permissionDenied => return .error (.sourceDenied (project.place path))
  | .error fault => return .error (.storage fault)

/-- The estimate for files of the project. -/
def tokens (project : Project) (files : FileSystem m) (paths : List String) : m TokenEstimate :=
  TokenEstimate.ofPaths (fun path => do return (← project.textOf files path).toOption) paths

end Project

end ContextSets
