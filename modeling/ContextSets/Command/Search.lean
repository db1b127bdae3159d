import ContextSets.Command.Basic
import ContextSets.Command.Editing
import ContextSets.Project.Embedding

/-!
# The search command

Ranks the sources of a project against a query and shows the results. The best of them may be added to
a set.
-/

namespace ContextSets

namespace RankedFile

/-- The line of a declaration that fits the query. -/
def matchLine (path : String) (declaration : Declaration) : String :=
  "       " ++ path ++ ":" ++ toString declaration.line ++ " " ++ declaration.name

/-- A number with blanks before it, at least three characters wide. -/
def padded (n : Nat) : String :=
  let digits := toString n
  String.ofList (List.replicate (3 - digits.length) ' ') ++ digits

/-- The lines of a result at a rank, counted from one. -/
def lines (rank : Nat) (file : RankedFile) : List String :=
  let synergy := if file.hasSynergy then ", synergy" else ""
  (padded rank ++ ". " ++ Single.fixedText file.final 3 ++ "  " ++ file.path ++ "  [" ++
      file.role.name ++ synergy ++ "]  ast " ++ Single.fixedText file.structural 3 ++ " llm " ++
      Single.fixedText file.similarity 3) ::
    file.matching.map (matchLine file.path)

/-- The JSON form of a result. -/
def toJson (file : RankedFile) : Json :=
  .obj [("path", .text file.path), ("astScore", CacheEntry.numberJson file.structural),
    ("llmScore", CacheEntry.numberJson file.similarity),
    ("finalScore", CacheEntry.numberJson file.final), ("classification", .text file.role.name),
    ("hasSynergy", .bool file.hasSynergy),
    ("matches", .array (file.matching.map fun declaration =>
      .obj [("name", .text declaration.name), ("startLine", .nat declaration.line)]))]

/-- The text of results: as JSON, or a line for each and for its declarations. -/
def text (json : Bool) (results : List RankedFile) : String :=
  if json then (Json.array (results.map toJson)).pretty
  else if results.isEmpty then "No results"
  else
    let lines := results.zipIdx.flatMap fun (file, index) => lines (index + 1) file
    Change.trimmed ("\n".intercalate lines)

/-- The first results that are related to the query at all. -/
def topRelated (count : Nat) (results : List RankedFile) : List RankedFile :=
  (results.filter (·.role != .unrelated)).take count

end RankedFile

/-- The results of a search, none if it has been superseded. A search that waits forever counts as
cancelled. -/
def SearchOutcome.files {α : Type} : SearchOutcome (List α) → Except Failure (List α)
  | .results files => .ok files
  | .superseded => .ok []
  | .pending => .error (.embedding .cancelled)

namespace Change

variable {m : Type → Type} [Monad m]

/-- Adds results to a set and returns how many were new. -/
def addResults (name : String) : List RankedFile → Change m Nat
  | [] => return 0
  | file :: rest => do
    let (_, added) ← ofEdit (Repository.addPath name file.path)
    let others ← addResults name rest
    return if added then others + 1 else others

end Change

namespace Project

variable {m : Type → Type} [Monad m]

/-- Releases the kept vectors that no indexed file needs. That they stay does no harm. -/
def pruneVectors (embedder : Embedder m) (index : EmbeddingIndex) : m EmbeddingIndex := do
  return (← (EmbeddingIndex.pruneCache embedder).run index).2

/-- Ranks the sources of the project. Kept vectors are released only if every source has been
embedded. -/
def ranked (project : Project) (world : World m) (config : Config) (query : String)
    (limit : Option Nat) : Task m (List RankedFile) := do
  let ranker := { config.ranker with maxResults := limit.getD config.ranker.maxResults }
  let sources ← ExceptT.lift (project.sources world.files config.embedding)
  let (embedder, index) ← project.openIndex world config.embedding
  if let some fault := ranker.fault? then throw (.search (.settings fault))
  let (outcome, index) ←
    ExceptT.lift ((Ranker.rank embedder ranker false query sources).run index)
  let results ← Task.ofExcept id outcome.files
  if index.entries.size = sources.length then
    let _ ← ExceptT.lift (pruneVectors embedder index)
  return results

/-- Ranks the sources of the project and shows the results. -/
def search (project : Project) (world : World m) (config : Config) (query : String)
    (options : SearchOptions) : Task m String := do
  let results ← project.ranked world config query options.limit
  let text := RankedFile.text options.json results
  match options.addTo with
  | none => return text
  | some name =>
    let added ←
      project.change world.files (Change.addResults name (RankedFile.topRelated options.top results))
    return text ++ "\nAdded " ++ toString added ++ " files to " ++ name

end Project

end ContextSets
