import ContextSets.Embedding.Index

/-!
# Batches

A batch brings many files into the index. Items are started in order and may end in any order; once the
batch is cancelled, no further item is started. Every item that ends is reported.
-/

namespace ContextSets

/-- A file to embed. -/
structure BatchItem where
  path : String
  text : String
deriving DecidableEq, Repr

/-- How many items of a batch have ended. -/
structure BatchProgress where
  completed : Nat
  total : Nat
deriving DecidableEq, Repr

/-- The part of the items that has ended, in hundredths rounded down. -/
def BatchProgress.percent (progress : BatchProgress) : Nat :=
  if progress.total = 0 then 100
  else min progress.completed progress.total * 100 / progress.total

/-- A file that could not be embedded. -/
structure BatchFailure where
  path : String
  error : EmbeddingError
deriving DecidableEq, Repr

/-- What came of a batch: the files embedded and those that failed, each in the order of paths. -/
structure BatchReport where
  embedded : List String
  failed : List BatchFailure
deriving DecidableEq, Repr

/-- A batch under way: the items that have not been started, those started that have not ended, and
what came of the others. -/
structure Batch where
  waiting : List BatchItem
  running : List BatchItem
  embedded : List String
  failed : List BatchFailure
  progress : BatchProgress

namespace Batch

/-- A batch before its first item. -/
def ofItems (items : List BatchItem) : Batch :=
  ⟨items, [], [], [], ⟨0, items.length⟩⟩

/-- Starts the first waiting item. -/
def start (batch : Batch) : Batch :=
  match batch.waiting with
  | [] => batch
  | item :: rest => { batch with waiting := rest, running := batch.running ++ [item] }

/-- Gives up the items that have not been started. -/
def skipWaiting (batch : Batch) : Batch :=
  { batch with waiting := [] }

/-- Takes in what came of a started item. -/
def finish {α : Type} (batch : Batch) (item : BatchItem) (result : Except EmbeddingError α) :
    Batch :=
  let batch :=
    { batch with
      running := batch.running.erase item
      progress := ⟨batch.progress.completed + 1, batch.progress.total⟩ }
  match result with
  | .ok _ => { batch with embedded := batch.embedded ++ [item.path] }
  | .error e => { batch with failed := batch.failed ++ [⟨item.path, e⟩] }

section

variable {α : Type} {batch : Batch} {item : BatchItem} {result : Except EmbeddingError α}

theorem start_of_waiting {rest : List BatchItem} (h : batch.waiting = item :: rest) :
    batch.start = { batch with waiting := rest, running := batch.running ++ [item] } := by
  unfold start
  rw [h]

@[simp] theorem waiting_finish : (batch.finish item result).waiting = batch.waiting := by
  cases result with
  | ok _ => rfl
  | error _ => rfl

@[simp] theorem running_finish :
    (batch.finish item result).running = batch.running.erase item := by
  cases result with
  | ok _ => rfl
  | error _ => rfl

@[simp] theorem progress_finish : (batch.finish item result).progress =
    ⟨batch.progress.completed + 1, batch.progress.total⟩ := by
  cases result with
  | ok _ => rfl
  | error _ => rfl

end

/-- The report of a batch. -/
def report (batch : Batch) : BatchReport :=
  { embedded := batch.embedded.mergeSort fun a b => decide (a ≤ b)
    failed := batch.failed.mergeSort fun a b => decide (a.path ≤ b.path) }

/-- How a batch is watched: whether it has been cancelled, and who hears of its progress. -/
structure Monitor (m : Type → Type) where
  isCancelled : m Bool
  report : BatchProgress → m Unit

variable {m : Type → Type} [Monad m]

/-- Works the waiting items off one after another, and counts the workers that are kept by an item
that does not end. When no worker is left, nothing moves any more. -/
def work (embedder : Embedder m) (monitor : Monitor m) (workers : Nat) :
    List BatchItem → Batch → StateT EmbeddingIndex m (Batch × Nat)
  | [], batch => return (batch, workers)
  | item :: rest, batch => do
    if workers = 0 then return (batch, 0)
    else if ← StateT.lift monitor.isCancelled then return (batch.skipWaiting, workers)
    else
      let batch := batch.start
      match ← EmbeddingIndex.update embedder item.path item.text with
      | .pending => work embedder monitor (workers - 1) rest batch
      | .done result =>
        let batch := batch.finish item result
        StateT.lift (monitor.report batch.progress)
        work embedder monitor workers rest batch

/-- Embeds all items. A failing item does not stop the batch. A cancelled batch has no report, but
what has been embedded stays. -/
def run (embedder : Embedder m) (monitor : Monitor m) (workers : Nat) (items : List BatchItem) :
    StateT EmbeddingIndex m (Reply BatchReport) := do
  let batch := ofItems items
  StateT.lift (monitor.report batch.progress)
  let (batch, _) ← work embedder monitor (max 1 workers) items batch
  if !batch.running.isEmpty then return .pending
  else if ← StateT.lift monitor.isCancelled then return .error .cancelled
  else return .ok batch.report

end Batch

end ContextSets
