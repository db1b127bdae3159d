import ContextSets.Embedding.Cache
import ContextSets.Embedding.Fingerprint

/-!
# The embedding index

The index remembers the fingerprint and the vector of the last text of every file. A new text for a
file releases the cached vector of the old one, unless another file still has that text.
-/

namespace ContextSets

/-- A provider, and where its vectors are kept on disk. -/
structure Embedder (m : Type → Type) where
  provider : Provider m
  shelf : Option (Shelf m Embedding)

/-- The last text of a file, by fingerprint, and its vector. -/
structure IndexEntry where
  fingerprint : String
  embedding : Embedding

/-- The indexed files by path, and the cache. -/
structure EmbeddingIndex where
  cache : Cache Embedding
  entries : Table IndexEntry

namespace EmbeddingIndex

variable {m : Type → Type} [Monad m]

/-- The index without files over a cache. -/
def ofCache (cache : Cache Embedding) : EmbeddingIndex := ⟨cache, ∅⟩

instance : EmptyCollection EmbeddingIndex := ⟨ofCache ∅⟩

instance : Inhabited EmbeddingIndex := ⟨ofCache ∅⟩

/-- Runs an operation of the cache. -/
def onCache {α : Type} (run : StateT (Cache Embedding) m α) : StateT EmbeddingIndex m α := do
  let index ← get
  let (result, cache) ← run.run index.cache
  set { index with cache := cache }
  return result

/-- The vector of a text, asked of the provider. -/
def embed (embedder : Embedder m) (text : String) : m (Reply Embedding) := do
  return (← embedder.provider.embed { text := text }).map (·.embedding)

/-- The vector of a text under a given fingerprint, from the cache if it is there. -/
def getOrEmbed (embedder : Embedder m) (fingerprint text : String) :
    StateT EmbeddingIndex m (Reply Embedding) :=
  onCache (Cache.getOrCompute embedder.shelf ⟨fingerprint, embedder.provider.model⟩
    (StateT.lift (embed embedder text)))

/-- The vector of a text, from the cache if it is there. -/
def embedCached (embedder : Embedder m) (text : String) :
    StateT EmbeddingIndex m (Reply Embedding) :=
  getOrEmbed embedder (Fingerprint.ofText text) text

/-- Whether a file other than that at a path has the text with a fingerprint. -/
def isShared (index : EmbeddingIndex) (path fingerprint : String) : Bool :=
  index.entries.entries.any fun (other, entry) => other != path && entry.fingerprint == fingerprint

/-- Releases the cached vectors of the text that a file had before, unless it is shared. -/
def release (embedder : Embedder m) (path fingerprint : String) :
    StateT EmbeddingIndex m (Except EmbeddingError Unit) := do
  if (← get).isShared path fingerprint then return .ok ()
  else return (← onCache (Cache.invalidate embedder.shelf fingerprint)).map fun _ => ()

/-- Takes in the vector of a new text of a file. -/
def takeIn (embedder : Embedder m) (path fingerprint text : String) :
    StateT EmbeddingIndex m (Reply Embedding) := do
  let reply ← getOrEmbed embedder fingerprint text
  if let .done (.ok embedding) := reply then
    modify fun index => { index with entries := index.entries.insert path ⟨fingerprint, embedding⟩ }
  return reply

/-- Records the present text of a file and returns its vector. -/
def update (embedder : Embedder m) (path text : String) :
    StateT EmbeddingIndex m (Reply Embedding) := do
  let fingerprint := Fingerprint.ofText text
  match (← get).entries.get? path with
  | none => takeIn embedder path fingerprint text
  | some entry =>
    if entry.fingerprint = fingerprint then return .ok entry.embedding
    else
      match ← release embedder path entry.fingerprint with
      | .error e => return .error e
      | .ok () => takeIn embedder path fingerprint text

/-- Removes the cached vectors that no indexed file needs under the present model. -/
def pruneCache (embedder : Embedder m) : StateT EmbeddingIndex m (Except EmbeddingError Nat) := do
  let live := (← get).entries.values.map (·.fingerprint)
  onCache (Cache.retain embedder.shelf fun key =>
    key.model == embedder.provider.model && live.contains key.fingerprint)

/-- Removes a file from the index. Its cached vector stays. -/
def remove (path : String) : StateT EmbeddingIndex m (Option IndexEntry) :=
  modifyGet fun index =>
    (index.entries.get? path, { index with entries := index.entries.erase path })

/-- The fingerprint of all indexed files. -/
def setFingerprint (index : EmbeddingIndex) : String :=
  Fingerprint.ofSet (index.entries.entries.map fun (path, entry) => (path, entry.fingerprint))

/-- The indexed files most similar to a query. -/
def search (index : EmbeddingIndex) (query : Embedding) (count : Nat) (least : Float32) :
    Except EmbeddingError (List Scored) :=
  Scored.mostSimilar query
    (index.entries.entries.map fun (path, entry) => (path, entry.embedding)) count least

end EmbeddingIndex

end ContextSets
