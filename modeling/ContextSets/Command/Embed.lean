import ContextSets.Command.Search
import ContextSets.Embedding.Batch

/-!
# The embed command

Embeds all sources of a project ahead of searching.
-/

namespace ContextSets

/-- The text that shows the progress of a batch. It writes over the one before, and ends the line when
all is done. -/
def BatchProgress.text (progress : BatchProgress) : String :=
  "\rEmbedding " ++ toString progress.completed ++ "/" ++ toString progress.total ++ " (" ++
    toString progress.percent ++ "%)" ++ (if progress.completed = progress.total then "\n" else "")

/-- The text of a report. -/
def BatchReport.text (report : BatchReport) : String :=
  "Embedded " ++ toString report.embedded.length ++ " files" ++
    String.join (report.failed.map fun failure =>
      "\nfailed: " ++ failure.path ++ " (" ++ failure.error.message ++ ")")

namespace Project

variable {m : Type → Type} [Monad m]

/-- Embeds all sources of the project. Kept vectors are released only if none has failed. A batch that
waits forever counts as cancelled. -/
def embed (project : Project) (world : World m) (monitor : Batch.Monitor m)
    (settings : EmbeddingSettings) : Task m String := do
  let sources ← ExceptT.lift (project.sources world.files settings)
  let items := sources.map fun file => (⟨file.path, file.content⟩ : BatchItem)
  let (embedder, index) ← project.openIndex world settings
  let (reply, index) ←
    ExceptT.lift ((Batch.run embedder monitor settings.concurrency items).run index)
  match reply with
  | .pending => throw (.embedding .cancelled)
  | .done (.error error) => throw (.embedding error)
  | .done (.ok report) =>
    if report.failed.isEmpty then
      let _ ← ExceptT.lift (pruneVectors embedder index)
    return report.text

end Project

end ContextSets
