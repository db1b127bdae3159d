import ContextSets.Embedding.Index
import ContextSets.Ranking.Query
import ContextSets.Ranking.Role
import ContextSets.Ranking.Structure

/-!
# The ranker

Files are ranked against a query by two scores from zero to one: the structural score, and the
similarity of their vectors. What cannot be embedded has no similarity. The final score is the weighted
sum of both, and a file has synergy if both exceed their thresholds.
-/

namespace ContextSets

/-- A file to rank. -/
structure SourceFile where
  path : String
  content : String
deriving DecidableEq, Repr

/-- The scores of a file, and the declarations that fit the query. -/
structure FileScores where
  file : SourceFile
  structural : Float32
  similarity : Float32
  matching : List Declaration

/-- A file in the results of a search. -/
structure RankedFile where
  path : String
  structural : Float32
  similarity : Float32
  final : Float32
  role : Role
  hasSynergy : Bool
  matching : List Declaration

/-- What comes of a search: results, or nothing because a newer search took its place, or nothing as
long as one waits. -/
inductive SearchOutcome (α : Type) where
  | results (value : α)
  | superseded
  | pending

namespace Ranker

/-- Each path once, with the first file given for it. -/
def distinct (files : List SourceFile) : List SourceFile :=
  files.foldl (fun kept file => if kept.any (·.path == file.path) then kept else kept ++ [file]) []

/-- The final score of a file. -/
def finalScore (config : RankerConfig) (scores : FileScores) : Float32 :=
  config.weights.1 * scores.structural + config.weights.2 * scores.similarity

/-- Whether both scores of a file exceed their thresholds. -/
def hasSynergy (config : RankerConfig) (scores : FileScores) : Bool :=
  config.structureSynergy < scores.structural && config.similaritySynergy < scores.similarity

/-- Higher final scores come first, equal ones in the order of paths. -/
def precedes (config : RankerConfig) (a b : FileScores) : Bool :=
  let left := Single.place (finalScore config a)
  let right := Single.place (finalScore config b)
  if left = right then a.file.path ≤ b.file.path else right < left

/-- The result for a file at a rank. -/
def resultAt (config : RankerConfig) (scores : FileScores) (rank : Nat) : RankedFile :=
  let final := finalScore config scores
  { path := scores.file.path
    structural := scores.structural
    similarity := scores.similarity
    final := final
    role := Role.ofFile config scores.file.path scores.file.content final rank
    hasSynergy := hasSynergy config scores
    matching := scores.matching }

/-- The first members of a list, or all if the limit is zero. -/
def limited {α : Type} (limit : Nat) (xs : List α) : List α :=
  if limit = 0 then xs else xs.take limit

/-- The results for scored files, best first. -/
def results (config : RankerConfig) (scored : List FileScores) : List RankedFile :=
  (limited config.maxResults (scored.mergeSort (precedes config))).zipIdx.map
    fun (scores, rank) => resultAt config scores rank

variable {m : Type → Type} [Monad m]

/-- The similarity of a file to a query, zero if the file cannot be embedded or compared. -/
def similarity (embedder : Embedder m) (query : Embedding) (file : SourceFile) :
    StateT EmbeddingIndex m (Option Float32) := do
  match ← EmbeddingIndex.update embedder file.path file.content with
  | .pending => return none
  | .done (.error _) => return some 0.0
  | .done (.ok embedding) =>
    match Embedding.unitSimilarity query embedding with
    | .ok score => return some score
    | .error _ => return some 0.0

/-- The scores of a file. Without the vector of the query there is no similarity. -/
def score (embedder : Embedder m) (config : RankerConfig) (terms : List String)
    (query : Option Embedding) (file : SourceFile) :
    StateT EmbeddingIndex m (Option FileScores) := do
  let analysis := Analysis.ofText config.analyzedBytes file.path file.content
  let assessed := Structure.assess terms file.path file.content analysis
  let similarity ←
    match query with
    | some query => similarity embedder query file
    | none => pure (some 0.0)
  return similarity.map fun similarity =>
    { file := file
      structural := assessed.1
      similarity := similarity
      matching := assessed.2 }

/-- Scores files one after another. A file whose vector never comes keeps one of the workers; when no
worker is left, nothing moves any more. -/
def scoreAll (embedder : Embedder m) (config : RankerConfig) (terms : List String)
    (query : Option Embedding) :
    Nat → List SourceFile → StateT EmbeddingIndex m (Option (List FileScores))
  | _, [] => return some []
  | 0, _ :: _ => return none
  | workers + 1, file :: rest => do
    match ← score embedder config terms query file with
    | none =>
      let _ ← scoreAll embedder config terms query workers rest
      return none
    | some scores =>
      return (← scoreAll embedder config terms query (workers + 1) rest).map (scores :: ·)

/-- Ranks files against a query, unless the search has been cancelled before. -/
def rank (embedder : Embedder m) (config : RankerConfig) (isCancelled : Bool) (query : String)
    (files : List SourceFile) : StateT EmbeddingIndex m (SearchOutcome (List RankedFile)) := do
  if isCancelled then return .superseded
  let vector ←
    match ← EmbeddingIndex.embedCached embedder query with
    | .pending => return .pending
    | .done (.ok vector) => pure (some vector)
    | .done (.error _) => pure none
  let workers := max 1 config.concurrency
  match ← scoreAll embedder config (Query.terms query) vector workers (distinct files) with
  | none => return .pending
  | some scored => return .results (results config scored)

end Ranker

end ContextSets
