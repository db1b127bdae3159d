import ContextSets.Embedding.Similarity
import ContextSets.Json.Decoder
import ContextSets.Json.Printer
import ContextSets.Json.Reader
import ContextSets.Text.Instant

/-!
# Entries of the embedding cache

An entry holds the vector that a model gave for a text, told by its fingerprint. Kept on disk, it is a
JSON file named after its key.
-/

namespace ContextSets

/-- What an entry is found by. -/
structure CacheKey where
  fingerprint : String
  model : String
deriving DecidableEq, Repr

namespace CacheKey

/-- The name of the file of an entry. Only letters, digits and "-" of the model are kept. -/
def fileName (key : CacheKey) : String :=
  let plain (c : Char) : Char := if c.isAlphanum || c == '-' then c else '_'
  key.fingerprint ++ "-" ++ String.ofList (key.model.toList.map plain) ++ ".json"

/-- The name under which a file is written before it takes its place. -/
def temporaryName (key : CacheKey) : String :=
  key.fileName ++ ".tmp"

end CacheKey

/-- A vector and what it is the vector of. -/
structure CacheEntry (V : Type) where
  key : CacheKey
  vector : V
  createdAt : String

/-- How entries are written to files and read back. -/
structure EntryFormat (V : Type) where
  encode : CacheEntry V → ByteArray
  decode? : ByteArray → Option (CacheEntry V)

namespace CacheEntry

/-- The JSON form of a number; what is not finite has none. Of two texts equally near, the one with an
even last digit is taken. -/
def numberJson (x : Float32) : Json :=
  match Single.jsonText? .toEven x with
  | some text => .number text
  | none => .null

/-- The JSON form of an entry. -/
def toJson (entry : CacheEntry Embedding) : Json :=
  .obj [("fingerprint", .text entry.key.fingerprint), ("model", .text entry.key.model),
    ("embedding", .array (entry.vector.map numberJson)), ("created_at", .text entry.createdAt)]

/-- Reads an entry. -/
def ofJson? : Json.Decoder (CacheEntry Embedding) := fun json => do
  match ← Json.record? ["fingerprint", "model", "embedding", "created_at"] json with
  | [fingerprint, model, vector, createdAt] =>
    let fingerprint ← Json.required Json.text? fingerprint
    let model ← Json.required Json.text? model
    let vector ← Json.required (Json.list? Json.single?) vector
    let createdAt ← Json.required Json.text? createdAt
    if Text.isInstant createdAt then
      some { key := ⟨fingerprint, model⟩, vector := vector, createdAt := createdAt }
    else none
  | _ => none

end CacheEntry

/-- Entries as JSON on one line. -/
def EntryFormat.json : EntryFormat Embedding where
  encode entry := entry.toJson.compact.toUTF8
  decode? bytes := (Json.readBytes? bytes).bind CacheEntry.ofJson?

end ContextSets
