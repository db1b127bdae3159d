import ContextSets.Embedding.Error
import ContextSets.Number.Order

/-!
# Similarity of embeddings

An embedding is a vector of single-precision numbers. All sums run from the first component to the
last.
-/

namespace ContextSets

/-- A text as a vector. -/
abbrev Embedding := List Float32

namespace Embedding

/-- The sum of numbers, from the first to the last, which keeps a negative zero. -/
def sum (xs : List Float32) : Float32 :=
  xs.foldl (· + ·) (-0.0)

/-- The scalar product. -/
def dot (a b : Embedding) : Float32 :=
  sum (List.zipWith (· * ·) a b)

/-- The length of the vector. -/
def magnitude (a : Embedding) : Float32 :=
  (sum (a.map fun x => x * x)).sqrt

/-- The cosine of the angle between two vectors with the same number of components; zero if one of
them has no length. -/
def cosine (a b : Embedding) : Except EmbeddingError Float32 :=
  if a.length ≠ b.length then .error (.dimensionMismatch a.length b.length)
  else if a.magnitude == 0.0 || b.magnitude == 0.0 then .ok 0.0
  else .ok (dot a b / (a.magnitude * b.magnitude))

/-- The nearest number from zero to one; what is not a number stays so. -/
def clamp (x : Float32) : Float32 :=
  if x < 0.0 then 0.0 else if 1.0 < x then 1.0 else x

/-- The cosine, where vectors that point away from each other count as unrelated. -/
def unitSimilarity (a b : Embedding) : Except EmbeddingError Float32 :=
  (cosine a b).map clamp

/-- The vector of length one in the same direction. One without length stays as it is. -/
def normalize (a : Embedding) : Embedding :=
  let length := a.magnitude
  if 0.0 < length then a.map (· / length) else a

end Embedding

/-- A candidate and its score. -/
structure Scored where
  id : String
  score : Float32

namespace Scored

/-- Higher scores come first, equal ones in the order of their ids. -/
def precedes (a b : Scored) : Bool :=
  if Single.place a.score = Single.place b.score then a.id ≤ b.id
  else Single.place b.score < Single.place a.score

/-- Scores all candidates. All of them need as many components as the query. -/
def ofCandidates (query : Embedding) :
    List (String × Embedding) → Except EmbeddingError (List Scored)
  | [] => .ok []
  | (id, embedding) :: rest => do
    let score ← Embedding.cosine query embedding
    let others ← ofCandidates query rest
    return ⟨id, score⟩ :: others

/-- The best candidates, at most `count`, of those that reach a score. -/
def best (scored : List Scored) (count : Nat) (least : Float32) : List Scored :=
  ((scored.filter fun s => least ≤ s.score).mergeSort precedes).take count

/-- The candidates most similar to a query. -/
def mostSimilar (query : Embedding) (candidates : List (String × Embedding)) (count : Nat)
    (least : Float32) : Except EmbeddingError (List Scored) := do
  let scored ← ofCandidates query candidates
  return best scored count least

end Scored

end ContextSets
