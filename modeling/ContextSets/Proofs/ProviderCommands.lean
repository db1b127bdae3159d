import ContextSets.Command.Embed

/-!
# Commands with any provider

A search and an embedding of all sources, for a provider that is given and not made from the settings,
and with the index that they make. With the provider of the settings they are the commands.
-/

namespace ContextSets

namespace Project

section Programs

variable {m : Type → Type} [Monad m]

/-- The index over the kept vectors, for a given provider. -/
def openWith (project : Project) (world : World m) (settings : EmbeddingSettings)
    (provider : Provider m) : Task m (Embedder m × EmbeddingIndex) := do
  let shelf := project.shelf world.files settings
  let cache ←
    Task.ofAction (.unusableCache (project.cacheDirectory settings)) (Cache.reopen shelf)
  return (⟨provider, some shelf⟩, .ofCache cache)

/-- Ranks the sources with a given provider. Tells the results and the index that was made. -/
def rankedWith (project : Project) (world : World m) (provider : Provider m) (config : Config)
    (query : String) (limit : Option Nat) : Task m (List RankedFile × EmbeddingIndex) := do
  let ranker := { config.ranker with maxResults := limit.getD config.ranker.maxResults }
  let sources ← ExceptT.lift (project.sources world.files config.embedding)
  let (embedder, index) ← project.openWith world config.embedding provider
  if let some fault := ranker.fault? then throw (.search (.settings fault))
  let (outcome, index) ←
    ExceptT.lift ((Ranker.rank embedder ranker false query sources).run index)
  let results ← Task.ofExcept id outcome.files
  if index.entries.size = sources.length then
    let _ ← ExceptT.lift (pruneVectors embedder index)
  return (results, index)

/-- Shows results, and adds the best of them to a set if that is asked for. -/
def answer (project : Project) (files : FileSystem m) (options : SearchOptions)
    (results : List RankedFile) : Task m String := do
  let text := RankedFile.text options.json results
  match options.addTo with
  | none => return text
  | some name =>
    let added ←
      project.change files (Change.addResults name (RankedFile.topRelated options.top results))
    return text ++ "\nAdded " ++ toString added ++ " files to " ++ name

/-- A search with a given provider. Tells also the index that was made, if the search got that far. -/
def searchWith (project : Project) (world : World m) (provider : Provider m) (config : Config)
    (query : String) (options : SearchOptions) :
    m (Except Failure String × Option EmbeddingIndex) := do
  match ← (project.rankedWith world provider config query options.limit).run with
  | .error failure => return (.error failure, none)
  | .ok (results, index) =>
    return (← (project.answer world.files options results).run, some index)

/-- Embeds all sources with a given provider. Tells also the index that was made, if it got that
far. -/
def embedWith (project : Project) (world : World m) (provider : Provider m)
    (monitor : Batch.Monitor m) (settings : EmbeddingSettings) :
    m (Except Failure String × Option EmbeddingIndex) := do
  let sources ← project.sources world.files settings
  match ← (project.openWith world settings provider).run with
  | .error failure => return (.error failure, none)
  | .ok (embedder, index) =>
    let items := sources.map fun file => (⟨file.path, file.content⟩ : BatchItem)
    let (reply, index) ← (Batch.run embedder monitor settings.concurrency items).run index
    match reply with
    | .pending => return (.error (.embedding .cancelled), some index)
    | .done (.error error) => return (.error (.embedding error), some index)
    | .done (.ok report) =>
      if report.failed.isEmpty then
        let _ ← pruneVectors embedder index
      return (.ok report.text, some index)

variable [LawfulMonad m] {project : Project} {world : World m} {provider : Provider m}

theorem openIndex_eq {settings : EmbeddingSettings}
    (h : world.provider settings = .ok provider) :
    project.openIndex world settings = project.openWith world settings provider := by
  unfold openIndex openWith
  rw [h]
  exact pure_bind _ _

/-- Nothing is done once a task has failed. -/
theorem throw_bind_congr {α β : Type} (failure : Failure) (f g : α → Task m β) :
    (throw failure >>= f : Task m β) = throw failure >>= g := by
  refine ExceptT.ext ?_
  rw [ExceptT.run_bind, ExceptT.run_bind, ExceptT.run_throw, pure_bind, pure_bind]

theorem ranked_eq {config : Config} (h : world.provider config.embedding = .ok provider)
    (query : String) (limit : Option Nat) :
    project.ranked world config query limit =
      Prod.fst <$> project.rankedWith world provider config query limit := by
  unfold ranked rankedWith
  rw [openIndex_eq h, map_bind]
  refine bind_congr fun sources => ?_
  rw [map_bind]
  refine bind_congr fun opened => ?_
  dsimp only
  generalize (RankerConfig.mk _ _ _ _ _ _ _ _ _ _ : RankerConfig) = ranker
  cases hfault : ranker.fault? with
  | some fault =>
    rw [map_bind]
    exact throw_bind_congr _ _ _
  | none =>
    dsimp only
    rw [map_bind]
    refine bind_congr fun r => ?_
    rw [map_bind]
    refine bind_congr fun results => ?_
    split
    · rw [map_bind]
      refine bind_congr fun _ => ?_
      rw [map_pure]
    · rw [map_pure]

/-- With the provider of the settings it is the search. -/
theorem search_eq {config : Config} (h : world.provider config.embedding = .ok provider)
    (query : String) (options : SearchOptions) :
    (project.search world config query options).run =
      Prod.fst <$> project.searchWith world provider config query options := by
  unfold search searchWith
  rw [ranked_eq h, ExceptT.run_bind, ExceptT.run_map, map_bind, bind_map_left]
  refine bind_congr fun ranked => ?_
  cases ranked with
  | error failure =>
    rw [map_pure]
    rfl
  | ok pair =>
    simp only [map_bind, map_pure, bind_pure]
    rfl

/-- With the provider of the settings it is the embedding of all sources. -/
theorem embed_eq {settings : EmbeddingSettings}
    (h : world.provider settings = .ok provider) (monitor : Batch.Monitor m) :
    (project.embed world monitor settings).run =
      Prod.fst <$> project.embedWith world provider monitor settings := by
  unfold embed embedWith
  rw [openIndex_eq h, ExceptT.run_bind_lift, map_bind]
  refine bind_congr fun sources => ?_
  rw [ExceptT.run_bind, map_bind]
  refine bind_congr fun opened => ?_
  cases opened with
  | error failure => rw [map_pure]
  | ok pair =>
    obtain ⟨embedder, index⟩ := pair
    dsimp only
    rw [ExceptT.run_bind_lift, map_bind]
    refine bind_congr fun r => ?_
    obtain ⟨reply, index⟩ := r
    cases reply with
    | pending =>
      rw [map_pure]
      rfl
    | done result =>
      cases result with
      | error e =>
        rw [map_pure]
        rfl
      | ok report =>
        dsimp only
        split
        · rw [ExceptT.run_bind_lift, map_bind]
          refine bind_congr fun _ => ?_
          rw [map_pure]
          rfl
        · rw [map_pure]
          rfl

end Programs

end Project

end ContextSets
