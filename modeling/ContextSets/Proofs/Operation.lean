import ContextSets.Document
import ContextSets.Repository.Files
import ContextSets.Repository.Workflow

/-!
# Operations

All edits of a repository as one type, so that a run of edits is a list, and the repositories that
such runs lead to.
-/

namespace ContextSets

open Repository

/-- An edit with its arguments. -/
inductive Operation where
  | create (name : String)
  | delete (name : String)
  | rename (name newName : String)
  | describe (name : String) (description : Option String)
  | setMode (name : String) (mode : Option ProcessingMode)
  | addUse (source target : String)
  | removeUse (source target : String)
  | resolvePath (path : String)
  | setFileComment (id : String) (comment : Option String)
  | addFile (name id : String)
  | addPath (name path : String)
  | removeFile (name id : String)
  | setRefs (name id : String) (refs : List FunctionRef)
  | setReferenceComment (name id : String) (comment : Option String)
  | prune
  | addStep (name : String) (step : WorkflowStep)
  | updateStep (name : String) (index : Nat) (step : WorkflowStep)
  | removeStep (name : String) (index : Nat)
  | moveStep (name : String) (index : Nat) (move : Move)
  | addEntryPoint (name : String) (entry : EntryPoint)
  | removeEntryPoint (name : String) (index : Nat)
  | replaceBy (document : Document)
deriving DecidableEq, Repr

namespace Operation

/-- What an operation answers. -/
def Answer : Operation → Type
  | create _ => String
  | delete _ => ContextSet
  | resolvePath _ => String
  | addPath .. => String × Bool
  | removeUse .. | addFile .. | removeFile .. | setReferenceComment .. | moveStep .. => Bool
  | prune => List (String × FileEntry)
  | removeStep .. => WorkflowStep
  | removeEntryPoint .. => EntryPoint
  | addStep .. | replaceBy _ => Nat
  | rename .. | describe .. | setMode .. | addUse .. | setFileComment .. | setRefs ..
  | updateStep .. | addEntryPoint .. => Unit

/-- The edit that an operation stands for. -/
def edit : (op : Operation) → Edit op.Answer
  | create name => Repository.create name
  | delete name => Repository.delete name
  | rename name newName => Repository.rename name newName
  | describe name description => Repository.describe name description
  | setMode name mode => Repository.setMode name mode
  | addUse source target => Repository.addUse source target
  | removeUse source target => Repository.removeUse source target
  | resolvePath path => Repository.resolvePath path
  | setFileComment id comment => Repository.setFileComment id comment
  | addFile name id => Repository.addFile name id
  | addPath name path => Repository.addPath name path
  | removeFile name id => Repository.removeFile name id
  | setRefs name id refs => Repository.setRefs name id refs
  | setReferenceComment name id comment => Repository.setReferenceComment name id comment
  | prune => Repository.prune
  | addStep name step => Repository.addStep name step
  | updateStep name index step => Repository.updateStep name index step
  | removeStep name index => Repository.removeStep name index
  | moveStep name index move => Repository.moveStep name index move
  | addEntryPoint name entry => Repository.addEntryPoint name entry
  | removeEntryPoint name index => Repository.removeEntryPoint name index
  | replaceBy document => Repository.replaceBy document

/-- The repository after an operation, whether it succeeded or not. -/
def after (op : Operation) (repo : Repository) : Repository :=
  match op.edit.run repo with
  | .ok _ repo => repo
  | .error _ repo => repo

/-- The repository after operations one after another. -/
def afterAll (ops : List Operation) (repo : Repository) : Repository :=
  ops.foldl (fun repo op => op.after repo) repo

end Operation

/-- The repositories that operations lead to, starting without sets and files. -/
inductive Repository.Reachable : Repository → Prop
  | empty : Reachable ∅
  | step {repo : Repository} (h : Reachable repo) (op : Operation) : Reachable (op.after repo)

theorem Operation.after_of_ok {op : Operation} {repo after : Repository} {answer : op.Answer}
    (h : op.edit.run repo = .ok answer after) : op.after repo = after := by
  rw [Operation.after, h]

theorem Operation.after_of_error {op : Operation} {repo after : Repository} {error : SetError}
    (h : op.edit.run repo = .error error after) : op.after repo = after := by
  rw [Operation.after, h]

theorem Repository.Reachable.afterAll {repo : Repository} (h : repo.Reachable)
    (ops : List Operation) : (Operation.afterAll ops repo).Reachable := by
  induction ops generalizing repo with
  | nil => exact h
  | cons op rest ih => exact ih (h.step op)

/-- The reachable repositories are those at the end of runs of operations. -/
theorem Repository.reachable_iff {repo : Repository} :
    repo.Reachable ↔ ∃ ops, repo = Operation.afterAll ops ∅ := by
  constructor
  · intro h
    induction h with
    | empty => exact ⟨[], rfl⟩
    | step _ op ih =>
      obtain ⟨ops, rfl⟩ := ih
      refine ⟨ops ++ [op], ?_⟩
      rw [Operation.afterAll, Operation.afterAll, List.foldl_append]
      rfl
  · intro h
    obtain ⟨ops, rfl⟩ := h
    exact Reachable.empty.afterAll ops

end ContextSets
