import ContextSets.Ranking.Ranker

/-!
# Search sessions

In a session every new search takes the place of the one before. Searches are numbered in the order in
which they start, and only the newest may publish its results. Numbers are meant to have 64 bits, which
makes no difference to fewer than 2^64 searches.
-/

namespace ContextSets

/-- The published results of a search. -/
structure SearchResults where
  generation : Nat
  query : String
  results : List RankedFile

/-- The number of the newest search, whether it has been cancelled, and the latest results. -/
structure Session where
  generation : Nat
  isCancelled : Bool
  latest : Option SearchResults

namespace Session

/-- A session before its first search. -/
def fresh : Session := ⟨0, false, none⟩

/-- Starts a search, which takes the place of the one in flight. -/
def start (session : Session) : Nat × Session :=
  (session.generation + 1,
    { session with generation := session.generation + 1, isCancelled := false })

/-- Cancels the search in flight. -/
def cancel (session : Session) : Session :=
  { session with isCancelled := true }

/-- Whether a search has been told to stop. -/
def hasStopped (session : Session) (generation : Nat) : Bool :=
  session.generation != generation || session.isCancelled

/-- Publishes the results of a search, if it is still the newest. -/
def publish (session : Session) (results : SearchResults) : Option SearchResults × Session :=
  if session.generation = results.generation then
    (some results, { session with latest := some results })
  else (none, session)

/-- Ends a search whose ranking has come to an outcome. -/
def conclude (session : Session) (generation : Nat) (query : String) :
    SearchOutcome (List RankedFile) → SearchOutcome SearchResults × Session
  | .results files =>
    match session.publish ⟨generation, query, files⟩ with
    | (some results, session) => (.results results, session)
    | (none, session) => (.superseded, session)
  | .superseded => (.superseded, session)
  | .pending => if session.hasStopped generation then (.superseded, session) else (.pending, session)

variable {m : Type → Type} [Monad m]

/-- A search from its start to its outcome, without any other in between. -/
def search (embedder : Embedder m) (config : RankerConfig) (files : List SourceFile)
    (query : String) :
    StateT (Session × EmbeddingIndex) m (SearchOutcome SearchResults) := do
  let (session, index) ← get
  let (generation, session) := session.start
  let (outcome, index) ← (Ranker.rank embedder config false query files).run index
  let (outcome, session) := session.conclude generation query outcome
  set (session, index)
  return outcome

/-- A search during which, once it waits, something else happens in the session. It returns the
outcome of the search, and what came of the other, unless the search ended without waiting. -/
def searchDuring {α : Type} (embedder : Embedder m) (config : RankerConfig)
    (files : List SourceFile) (query : String) (other : StateT (Session × EmbeddingIndex) m α) :
    StateT (Session × EmbeddingIndex) m (SearchOutcome SearchResults × Option α) := do
  let generation := (← get).1.generation + 1
  match ← search embedder config files query with
  | .pending =>
    let result ← other
    let (session, index) ← get
    let (outcome, session) := session.conclude generation query .pending
    set (session, index)
    return (outcome, some result)
  | outcome => return (outcome, none)

end Session

end ContextSets
