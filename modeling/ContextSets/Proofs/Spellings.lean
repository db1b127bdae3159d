import ContextSets.Markdown
import ContextSets.Proofs.Operation
import ContextSets.Proofs.SetName

/-!
# Spellings of a name

A name may come in with any number of prefixes, and each of its spellings stands for the same set.
Every edit and every question takes the prefixes off before it looks at a name, so it cannot tell one
spelling from another: answers and errors are the same, with the names in them, and so is the
repository that is left.
-/

namespace ContextSets

namespace SetName

/-- The name with further prefixes in front. -/
def labelled : Nat → String → String
  | 0, name => name
  | count + 1, name => label ++ labelled count name

theorem bare_label_append (name : String) : bare (label ++ name) = bare name := by
  have hlabel : label.toList = ['c', 'o', 'n', 't', 'e', 'x', 't', ':'] := rfl
  simp only [bare, String.toList_append, hlabel, List.cons_append, List.nil_append, bareChars]

/-- Further prefixes do not change what a name stands for. -/
@[simp] theorem bare_labelled (count : Nat) (name : String) :
    bare (labelled count name) = bare name := by
  induction count with
  | zero => rfl
  | succ count ih => rw [labelled, bare_label_append, ih]

theorem not_label_prefix_bareChars (name : List Char) : ¬ label.toList <+: bareChars name := by
  fun_induction bareChars name with
  | case1 rest ih => exact ih
  | case2 name hbare =>
    rintro ⟨rest, hrest⟩
    exact hbare rest hrest.symm

/-- A bare name does not start with the prefix. -/
theorem not_label_prefix_bare (name : String) : ¬ label.toList <+: (bare name).toList := by
  rw [bare, String.toList_ofList]
  exact not_label_prefix_bareChars name.toList

/-- The names that are bare are those without the prefix. -/
theorem bare_eq_self_iff {name : String} : bare name = name ↔ ¬ label.toList <+: name.toList := by
  constructor
  · intro hbare
    rw [← hbare]
    exact not_label_prefix_bare name
  · intro hprefix
    have hchars : bareChars name.toList = name.toList := by
      unfold bareChars
      split
      · rename_i rest hname
        exact absurd ⟨rest, hname.symm⟩ hprefix
      · rfl
    rw [bare, hchars, String.ofList_toList]

end SetName

/-! ### Reading and storing a set -/

namespace Repository

section Respelled

variable {name other : String} (h : SetName.bare other = SetName.bare name)

include h

theorem get?_respelled (repo : Repository) : repo.get? other = repo.get? name := by
  rw [get?, get?, h]

theorem find_respelled (repo : Repository) : repo.find other = repo.find name := by
  rw [find, find, get?_respelled h, h]

theorem requireSet_respelled : requireSet other = requireSet name :=
  congrArg inquire (funext fun repo => find_respelled h repo)

theorem store_respelled (set : ContextSet) : store other set = store name set := by
  rw [store, store, h]

theorem addFile_respelled (id : String) : addFile other id = addFile name id := by
  simp only [addFile, requireSet_respelled h, store_respelled h]

theorem transitiveUses_respelled (repo : Repository) :
    repo.transitiveUses other = repo.transitiveUses name := by
  rw [transitiveUses, transitiveUses, find_respelled h]

theorem closure_respelled (repo : Repository) : repo.closure other = repo.closure name := by
  simp only [closure, transitiveUses_respelled h, h]

end Respelled

end Repository

/-! ### Edits -/

namespace Operation

open Repository (requireSet_respelled store_respelled addFile_respelled)

/-- What an operation comes to: an answer or an error, and the repository that is left. -/
def outcome (op : Operation) (repo : Repository) :
    (α : Type) × EStateM.Result SetError Repository α :=
  ⟨op.Answer, op.edit.run repo⟩

/-- An operation with its names in other spellings, one for the first name and one for the second. -/
def respelled (first second : String → String) : Operation → Operation
  | create name => create (first name)
  | delete name => delete (first name)
  | rename name newName => rename (first name) (second newName)
  | describe name description => describe (first name) description
  | setMode name mode => setMode (first name) mode
  | addUse source target => addUse (first source) (second target)
  | removeUse source target => removeUse (first source) (second target)
  | resolvePath path => resolvePath path
  | setFileComment id comment => setFileComment id comment
  | addFile name id => addFile (first name) id
  | addPath name path => addPath (first name) path
  | removeFile name id => removeFile (first name) id
  | setRefs name id refs => setRefs (first name) id refs
  | setReferenceComment name id comment => setReferenceComment (first name) id comment
  | prune => prune
  | addStep name step => addStep (first name) step
  | updateStep name index step => updateStep (first name) index step
  | removeStep name index => removeStep (first name) index
  | moveStep name index move => moveStep (first name) index move
  | addEntryPoint name entry => addEntryPoint (first name) entry
  | removeEntryPoint name index => removeEntryPoint (first name) index
  | replaceBy document => replaceBy document

/-- An operation does the same whichever spellings its names have. -/
theorem outcome_respelled {first second : String → String}
    (hfirst : ∀ name, SetName.bare (first name) = SetName.bare name)
    (hsecond : ∀ name, SetName.bare (second name) = SetName.bare name)
    (op : Operation) (repo : Repository) :
    (op.respelled first second).outcome repo = op.outcome repo := by
  have hset := fun name => requireSet_respelled (hfirst name)
  have htarget := fun name => requireSet_respelled (hsecond name)
  have hstore := fun name => store_respelled (hfirst name)
  cases op with
  | create name =>
    dsimp only [outcome, respelled, Answer, edit]
    simp only [Repository.create, hfirst]
  | delete name =>
    dsimp only [outcome, respelled, Answer, edit]
    simp only [Repository.delete, hset, hfirst]
  | rename name newName =>
    dsimp only [outcome, respelled, Answer, edit]
    simp only [Repository.rename, hset, hfirst, hsecond]
  | addUse source target =>
    dsimp only [outcome, respelled, Answer, edit]
    simp only [Repository.addUse, hset, htarget, hstore, hfirst, hsecond]
  | removeUse source target =>
    dsimp only [outcome, respelled, Answer, edit]
    simp only [Repository.removeUse, hset, hstore, hsecond]
  | addFile name id =>
    dsimp only [outcome, respelled, Answer, edit]
    rw [addFile_respelled (hfirst name)]
  | addPath name path =>
    dsimp only [outcome, respelled, Answer, edit]
    simp only [Repository.addPath, hset, addFile_respelled (hfirst name)]
  -- the other edits of a set only look it up and store it again
  | describe _ _ | setMode _ _ | removeFile _ _ | setRefs _ _ _ | setReferenceComment _ _ _ =>
    dsimp only [outcome, respelled, Answer, edit]
    simp only [Repository.describe, Repository.setMode, Repository.removeFile, Repository.setRefs,
      Repository.setReferenceComment, hset, hstore]
  | addStep _ _ | updateStep _ _ _ | removeStep _ _ | moveStep _ _ _ | addEntryPoint _ _
  | removeEntryPoint _ _ =>
    dsimp only [outcome, respelled, Answer, edit]
    simp only [Repository.addStep, Repository.updateStep, Repository.removeStep,
      Repository.moveStep, Repository.addEntryPoint, Repository.removeEntryPoint, hset, hstore]
  | resolvePath _ | setFileComment _ _ | prune | replaceBy _ => rfl

end Operation

/-! ### Questions -/

/-- A question about one set, or about a use that one set may have of another. -/
inductive Question where
  | get (name : String)
  | contains (name : String)
  | cycleIfUsed (source target : String)
  | transitiveUses (name : String)
  | usedBy (name : String)
  | closure (name : String)
  | document (name : String)
  | markdown (name : String)
deriving DecidableEq, Repr

namespace Question

open Repository (get?_respelled transitiveUses_respelled closure_respelled)

/-- What a question is answered with. -/
def Answer : Question → Type
  | get _ => Option ContextSet
  | contains _ => Bool
  | cycleIfUsed .. => Option (List String)
  | transitiveUses _ => Except SetError (List String)
  | usedBy _ => List String
  | closure _ => Except SetError Closure
  | document _ => Except SetError Document
  | markdown _ => Except SetError String

/-- The answer of a repository. -/
def ask (repo : Repository) : (question : Question) → question.Answer
  | get name => repo.get? name
  | contains name => repo.contains name
  | cycleIfUsed source target => repo.cycleIfUsed source target
  | transitiveUses name => repo.transitiveUses name
  | usedBy name => repo.usedBy name
  | closure name => repo.closure name
  | document name => repo.documentOf name
  | markdown name => repo.markdown name

/-- The answer together with its type. -/
def outcome (question : Question) (repo : Repository) : (α : Type) × α :=
  ⟨question.Answer, question.ask repo⟩

/-- A question with its names in other spellings, one for the first name and one for the second. -/
def respelled (first second : String → String) : Question → Question
  | get name => get (first name)
  | contains name => contains (first name)
  | cycleIfUsed source target => cycleIfUsed (first source) (second target)
  | transitiveUses name => transitiveUses (first name)
  | usedBy name => usedBy (first name)
  | closure name => closure (first name)
  | document name => document (first name)
  | markdown name => markdown (first name)

/-- A question is answered the same whichever spellings its names have. -/
theorem outcome_respelled {first second : String → String}
    (hfirst : ∀ name, SetName.bare (first name) = SetName.bare name)
    (hsecond : ∀ name, SetName.bare (second name) = SetName.bare name)
    (question : Question) (repo : Repository) :
    (question.respelled first second).outcome repo = question.outcome repo := by
  have hget := fun name => get?_respelled (hfirst name) repo
  have hwalk := fun name => transitiveUses_respelled (hfirst name) repo
  have hclosure := fun name => closure_respelled (hfirst name) repo
  cases question with
  | get _ | transitiveUses _ | closure _ =>
    dsimp only [outcome, respelled, Answer, ask]
    simp only [hget, hwalk, hclosure]
  | contains _ | cycleIfUsed _ _ | usedBy _ =>
    dsimp only [outcome, respelled, Answer, ask]
    simp only [Repository.contains, Repository.cycleIfUsed, Repository.usedBy, hget, hfirst,
      hsecond]
  | document _ | markdown _ =>
    dsimp only [outcome, respelled, Answer, ask]
    simp only [Repository.documentOf, Repository.markdown, hwalk, hclosure]

end Question

/-- With any number of prefixes in front of their names, operations come to the same in every
repository, and questions are answered the same. The prefix is put in front of a bare name once, and
taking it off leaves none. -/
theorem prefixes_are_immaterial :
    (∀ (repo : Repository) (first second : Nat),
      (∀ op : Operation,
        (op.respelled (SetName.labelled first) (SetName.labelled second)).outcome repo =
          op.outcome repo) ∧
      ∀ question : Question,
        (question.respelled (SetName.labelled first) (SetName.labelled second)).outcome repo =
          question.outcome repo) ∧
    ∀ name,
      SetName.prefixed (SetName.prefixed name) = SetName.prefixed name ∧
      SetName.bare (SetName.prefixed name) = SetName.bare name ∧
      ¬ SetName.label.toList <+: (SetName.bare name).toList := by
  refine ⟨fun repo first second => ⟨fun op => ?_, fun question => ?_⟩, fun name => ⟨?_, ?_, ?_⟩⟩
  · exact op.outcome_respelled (SetName.bare_labelled first) (SetName.bare_labelled second) repo
  · exact question.outcome_respelled (SetName.bare_labelled first) (SetName.bare_labelled second)
      repo
  · rw [SetName.prefixed, SetName.bare_prefixed, ← SetName.prefixed]
  · exact SetName.bare_prefixed name
  · exact SetName.not_label_prefix_bare name

end ContextSets
