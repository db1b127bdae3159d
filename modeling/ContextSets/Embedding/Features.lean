import ContextSets.Embedding.Provider
import ContextSets.Text.Letter
import ContextSets.Text.Lowercase
import ContextSets.Text.Occurrence

/-!
# Embedding by feature hashing

A provider that needs no model: every word part of a text is hashed to one component of the vector and
to a sign, and counted there. Texts with a common vocabulary get similar vectors.
-/

namespace ContextSets.Features

/-- How many bytes characters take. -/
def byteCount (cs : List Char) : Nat :=
  (String.ofList cs).utf8ByteSize

/-- Splits the rest of a word before each capital that follows a small letter or digit. The current
part is in lower case, and `small` tells whether a small letter or digit came last. A single byte at
the end of the word is left out. -/
def partsFrom (current : List Char) (small : Bool) : List Char → List (List Char)
  | [] => if 1 < byteCount current then [current] else []
  | c :: rest =>
    let next := Text.isLower c || c.isDigit
    if Text.isUpper c && small && !current.isEmpty then
      current :: partsFrom (Text.lowerChar c) next rest
    else partsFrom (current ++ Text.lowerChar c) next rest

/-- The parts of the words of a text. Words are runs of letters and numbers. -/
def tokens (text : List Char) : List (List Char) :=
  (Text.splitBy (!Text.isLetterOrNumber ·) text).flatMap (partsFrom [] false)

/-- The FNV-1a hash of bytes: each is mixed in and multiplied by a prime, modulo 2^64. -/
def hash (bytes : List UInt8) : UInt64 :=
  bytes.foldl (fun h byte => (h ^^^ byte.toUInt64) * 0x100000001b3) 0xcbf29ce484222325

/-- The hash of a token. -/
def hashOf (token : List Char) : UInt64 :=
  hash (String.ofList token).toUTF8.toList

/-- The component that a hash falls to. -/
def bucket (dimension : Nat) (h : UInt64) : Nat :=
  h.toNat % dimension

/-- The sign of a hash: minus if its highest bit is set. -/
def sign (h : UInt64) : Int :=
  if h >>> 63 = 0 then 1 else -1

/-- Counts a token. -/
def count (counts : Array Int) (token : List Char) : Array Int :=
  let h := hashOf token
  counts.modify (bucket counts.size h) (· + sign h)

/-- The signed counts of tokens in the given number of components. They are meant to be kept in single
precision, which has every whole number up to 2^24: for a text of so many tokens at most, counting
them in integers is the same. -/
def counts (dimension : Nat) (tokens : List (List Char)) : Array Int :=
  tokens.foldl count (Array.replicate dimension 0)

/-- The name of the model for vectors of the given number of components. -/
def modelName (dimension : Nat) : String :=
  "feature-hashing-v1-" ++ toString dimension

/-- The vector of length one in the direction of the counts. There is at least one component. -/
def response (dimension : Nat) (request : EmbeddingRequest) : EmbeddingResponse :=
  let dimension := max 1 (request.dimensions.getD dimension)
  let tokens := tokens request.text.toList
  let vector := (counts dimension tokens).toList.map Float32.ofInt
  { embedding := Embedding.normalize vector
    model := modelName dimension
    dimension := dimension
    tokensUsed := some tokens.length }

/-- The number of components unless another is asked for. -/
def usualDimension : Nat := 256

/-- The provider that embeds by feature hashing. -/
def provider {m : Type → Type} [Monad m] (dimension : Nat) : Provider m :=
  let dimension := max 1 dimension
  { name := "hashing"
    model := modelName dimension
    dimension := dimension
    isAvailable := true
    embed := fun request => return .ok (response dimension request) }

end ContextSets.Features
