import ContextSets.Files.Fault

/-!
# Errors of embedding

Why a text is not embedded, or an embedding is neither compared nor kept.
-/

namespace ContextSets

/-- Why an operation on embeddings fails. A service that could not be reached comes with the words of
the client for it. -/
inductive EmbeddingError where
  | notConfigured
  | apiRequest (text : String)
  | invalidResponse (text : String)
  | rateLimited (seconds : Nat)
  | dimensionMismatch (expected actual : Nat)
  | unusableCache (directory : String) (fault : FileFault)
  | cancelled
  | storage (fault : FileFault)
  | unreachable {fault : String}
deriving DecidableEq, Repr

/-- The wording of an error. -/
def EmbeddingError.message : EmbeddingError → String
  | notConfigured => "embedding provider not configured"
  | apiRequest text => "API request failed: " ++ text
  | invalidResponse text => "invalid response: " ++ text
  | rateLimited seconds => "rate limit exceeded, retry after " ++ toString seconds ++ "s"
  | dimensionMismatch expected actual =>
    "dimension mismatch: expected " ++ toString expected ++ ", got " ++ toString actual
  | unusableCache directory fault =>
    "cache error: cannot create cache dir " ++ directory ++ ": " ++ fault.message
  | cancelled => "operation cancelled"
  | storage fault => "io error: " ++ fault.message
  | @unreachable fault => "http error: " ++ fault

end ContextSets
