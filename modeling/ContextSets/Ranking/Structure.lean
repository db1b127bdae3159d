import ContextSets.Declaration.Analysis
import ContextSets.Text.Lowercase
import ContextSets.Text.Occurrence

/-!
# The structural score

How well the terms of a query fit the declarations, the path and the text of a file. A term scores by
the best declaration that fits it and by the path, and, with less weight, by how often it occurs. The
score of a file is the mean over the terms.
-/

namespace ContextSets.Structure

/-- How a term fits a declared name: it is the name, or one contains the other. -/
inductive Fit where
  | same
  | overlap
deriving DecidableEq, Repr

/-- How a term fits a name in lower case, if it does. A name of fewer than three bytes is not looked
for in a term. -/
def fit? (term name : String) : Option Fit :=
  if name = term then some .same
  else if Text.occursIn term.toList name.toList ||
      (3 ≤ name.utf8ByteSize && Text.occursIn name.toList term.toList) then some .overlap
  else none

/-- What a fit is worth. -/
def Fit.worth : Fit → Float32
  | same => 1.0
  | overlap => 0.6

/-- The larger of two scores. -/
def larger (x y : Float32) : Float32 :=
  if x < y then y else x

/-- The smaller of two scores. -/
def smaller (x y : Float32) : Float32 :=
  if y < x then y else x

/-- How often a term occurs, on a logarithmic scale that ends at ten occurrences. -/
def frequency (count : Nat) : Float32 :=
  smaller ((1.0 + Float32.ofNat count).log / (1.0 + 10.0 : Float32).log) 1.0

/-- The score of a term, given what the best declaration that fits it is worth, and the path and the
text in lower case. -/
def termScore (best : Float32) (path content : List Char) (term : String) : Float32 :=
  let inPath : Float32 := if Text.occursIn term.toList path then 0.3 else 0.0
  let placed := smaller (best + inPath) 1.0
  0.7 * placed + 0.3 * frequency (Text.occurrences term.toList content)

/-- Looks at a declaration, given with its name in lower case: one that fits the term counts by the
best fit so far, and is listed unless it is on the list. -/
def weigh (term : String) (found : Float32 × List Declaration) (named : String × Declaration) :
    Float32 × List Declaration :=
  match fit? term named.1 with
  | none => found
  | some fit =>
    (larger found.1 fit.worth,
      if found.2.contains named.2 then found.2 else found.2 ++ [named.2])

/-- Adds the score of a term to the total, and the declarations that fit it to the list. -/
def addTerm (declarations : List (String × Declaration)) (path content : List Char)
    (sum : Float32 × List Declaration) (term : String) : Float32 × List Declaration :=
  let found := declarations.foldl (weigh term) (0.0, sum.2)
  (sum.1 + termScore found.1 path content term, found.2)

/-- The mean of the scores of all terms, and the declarations that fit one of them, in order. -/
def assess (terms : List String) (path content : String) (analysis : Analysis) :
    Float32 × List Declaration :=
  if terms.isEmpty then (0.0, [])
  else
    let path := (Text.lower path).toList
    let content := (Text.lower content).toList
    let declarations := analysis.declarations.map fun d => (Text.lower d.name, d)
    let sum := terms.foldl (addTerm declarations path content) (0.0, [])
    (sum.1 / Float32.ofNat terms.length, sum.2.mergeSort Declaration.precedes)

/-- The score alone. -/
def score (terms : List String) (path content : String) (analysis : Analysis) : Float32 :=
  (assess terms path content analysis).1

/-- The declarations alone. Neither path nor text matters to them. -/
def fitting (terms : List String) (analysis : Analysis) : List Declaration :=
  (assess terms "" "" analysis).2

end ContextSets.Structure
