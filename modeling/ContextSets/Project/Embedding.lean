import ContextSets.Embedding.Features
import ContextSets.Embedding.Remote
import ContextSets.Project.Sources

/-!
# The embedder of a project

The provider that the settings ask for, and an index over the vectors kept on disk.
-/

namespace ContextSets

namespace EmbeddingSettings

/-- The remote service of the settings. -/
def service (settings : EmbeddingSettings) (apiKey : Option String) : RemoteService :=
  let usual : RemoteService := {}
  { apiKey := apiKey
    baseUrl := settings.baseUrl.getD usual.baseUrl
    model := settings.model.getD usual.model }

/-- The provider of the settings. The remote one needs a key. -/
def buildProvider {m : Type → Type} [Monad m] [Client m] (settings : EmbeddingSettings)
    (apiKey : Option String) : Except Failure (Provider m) :=
  match settings.provider with
  | .hashing => .ok (Features.provider settings.dimension)
  | .remote =>
    let provider := (settings.service apiKey).provider
    if provider.isAvailable then .ok provider else .error .missingKey

end EmbeddingSettings

/-- The provider of the settings in a world. -/
def World.provider {m : Type → Type} [Monad m] (world : World m) (settings : EmbeddingSettings) :
    Except Failure (Provider m) :=
  letI := world.client
  settings.buildProvider world.apiKey

namespace Project

variable {m : Type → Type} [Monad m]

/-- The shelf of the kept vectors. -/
def shelf (project : Project) (files : FileSystem m) (settings : EmbeddingSettings) :
    Shelf m Embedding :=
  { folder := files.folder (project.cacheDirectory settings)
    format := .json
    now := files.now }

/-- The embedder of the project, and its index over the kept vectors. -/
def openIndex (project : Project) (world : World m) (settings : EmbeddingSettings) :
    Task m (Embedder m × EmbeddingIndex) := do
  let provider ← Task.ofExcept id (world.provider settings)
  let shelf := project.shelf world.files settings
  let cache ←
    Task.ofAction (.unusableCache (project.cacheDirectory settings)) (Cache.reopen shelf)
  return (⟨provider, some shelf⟩, .ofCache cache)

end Project

end ContextSets
