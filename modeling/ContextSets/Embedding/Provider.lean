import ContextSets.Embedding.Similarity

/-!
# Providers of embeddings

A provider turns texts into vectors. What it does to find an answer is its own affair: it runs in a
monad of its choice, and it may fail or never answer.
-/

namespace ContextSets

/-- A text to embed, with the model and the number of components asked for, if any. -/
structure EmbeddingRequest where
  text : String
  model : Option String := none
  dimensions : Option Nat := none

/-- An embedded text. -/
structure EmbeddingResponse where
  embedding : Embedding
  model : String
  dimension : Nat
  tokensUsed : Option Nat

/-- What comes of a request: an answer or an error, or nothing as long as one waits. -/
inductive Reply (α : Type) where
  | done (result : Except EmbeddingError α)
  | pending

namespace Reply

variable {α β : Type}

/-- An answer. -/
def ok (value : α) : Reply α := done (.ok value)

/-- An error. -/
def error (e : EmbeddingError) : Reply α := done (.error e)

/-- Changes an answer. -/
def map (f : α → β) : Reply α → Reply β
  | done result => done (result.map f)
  | pending => pending

end Reply

/-- A provider of embeddings: its name, its usual model and number of components, whether it can be
used, and how it embeds. -/
structure Provider (m : Type → Type) where
  name : String
  model : String
  dimension : Nat
  isAvailable : Bool
  embed : EmbeddingRequest → m (Reply EmbeddingResponse)

end ContextSets
