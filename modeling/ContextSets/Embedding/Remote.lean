import ContextSets.Embedding.Provider
import ContextSets.Json.Decoder
import ContextSets.Json.Reader
import ContextSets.Number.Count

/-!
# Embedding by a remote service

A provider that stands for a service behind an address. Without a key it is not configured. Requests
are sent by a client, which is no part of this library: all that comes back from it is taken apart
here.
-/

namespace ContextSets

/-- A message to a service: where it goes, the key that it shows, and what it says. -/
structure RemoteMessage where
  url : String
  apiKey : String
  body : Json

/-- What a service answers: a status, when to ask again if that is said, and a body, as a text and as
the bytes of it or the reason why these do not arrive. -/
structure RemoteAnswer where
  status : Nat
  retryAfter : Option String
  text : String
  bytes : Except String ByteArray

/-- What sends messages. There is an answer or the reason why there is none, or nothing as long as one
waits. -/
class Client (m : Type → Type) where
  send : RemoteMessage → m (Option (Except String RemoteAnswer))

/-- Where no other client is known, no message gets out. -/
instance (priority := low) Client.offline {m : Type → Type} [Monad m] : Client m where
  send _ := return some (.error "builder error")

namespace RemoteAnswer

/-- Whether a request has been carried out. -/
def isSuccess (answer : RemoteAnswer) : Bool :=
  200 ≤ answer.status && answer.status < 300

/-- Reads the vectors of a body, the model that made them and the number of tokens that were used. Only
an object may leave that number out. -/
def vectors? : Json.Decoder (List Embedding × String × Option Nat) := fun json => do
  match ← Json.record? ["data", "model", "usage"] json with
  | [data, model, usage] =>
    let vectors ← Json.required (Json.list? vector?) data
    let model ← Json.required Json.text? model
    let tokens ← if json matches .array _ then usage.bind (Json.nullable? tokens?)
      else Json.optional tokens? usage
    return (vectors, model, tokens)
  | _ => none
where
  vector? : Json.Decoder Embedding := fun json => do
    match ← Json.record? ["embedding"] json with
    | [vector] => Json.required (Json.list? Json.single?) vector
    | _ => none
  tokens? : Json.Decoder Nat := fun json => do
    match ← Json.record? ["total_tokens"] json with
    | [tokens] => Json.required (Json.natBelow? UInt64.size) tokens
    | _ => none

/-- What the answer of a service says. It may ask to wait for some time, a minute unless it says how
many seconds. -/
def response (answer : RemoteAnswer) : Except EmbeddingError EmbeddingResponse :=
  if answer.status = 429 then
    .error (.rateLimited ((answer.retryAfter.bind count?).getD 60))
  else if !answer.isSuccess then .error (.apiRequest ("API error: " ++ answer.text))
  else
    match answer.bytes with
    | .error fault => .error (@EmbeddingError.unreachable fault)
    | .ok bytes =>
      match (Json.readBytes? bytes).bind vectors? with
      | none => .error (@EmbeddingError.unreachable "error decoding response body")
      | some ([], _, _) => .error (.invalidResponse "No embedding in response")
      | some (vector :: _, model, tokens) => .ok
        { embedding := vector
          model := model
          dimension := vector.length
          tokensUsed := tokens }

end RemoteAnswer

/-- How a remote service is reached. -/
structure RemoteService where
  apiKey : Option String := none
  baseUrl : String := "https://api.openai.com/v1"
  model : String := "text-embedding-3-small"

namespace RemoteService

/-- The number of components of a model. -/
def dimension (service : RemoteService) : Nat :=
  if service.model = "text-embedding-3-large" then 3072 else 1536

/-- The message that asks for the vector of a text. -/
def message (service : RemoteService) (apiKey : String) (request : EmbeddingRequest) :
    RemoteMessage where
  url := service.baseUrl ++ "/embeddings"
  apiKey := apiKey
  body := .obj (Json.member? "dimensions" (request.dimensions.map Json.nat) ++
    [("input", .text request.text), ("model", .text (request.model.getD service.model))])

/-- The provider that asks the service. -/
def provider {m : Type → Type} [Monad m] [client : Client m] (service : RemoteService) :
    Provider m :=
  { name := "openai"
    model := service.model
    dimension := service.dimension
    isAvailable := service.apiKey.isSome
    embed := fun request => do
      match service.apiKey with
      | none => return .error .notConfigured
      | some apiKey =>
        match ← client.send (service.message apiKey request) with
        | none => return .pending
        | some (.error fault) => return .error (@EmbeddingError.unreachable fault)
        | some (.ok answer) => return .done answer.response }

end RemoteService

end ContextSets
