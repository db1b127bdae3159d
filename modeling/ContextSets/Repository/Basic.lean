import ContextSets.ContextSet
import ContextSets.Manifest

/-!
# The repository

The repository owns the sets, under their bare names, and the manifest of the files they mention. An
edit returns its answer and the repository after it, also when it is refused: a refused edit leaves
everything as it was.

Names of sets may be given bare or prefixed.
-/

namespace ContextSets

/-- The sets by bare name and the files they may mention. -/
structure Repository where
  manifest : Manifest
  sets : Table ContextSet
deriving DecidableEq, Repr

/-- An edit of the repository: an answer or an error, and the repository afterwards. -/
abbrev Edit := EStateM SetError Repository

namespace Repository

/-- The repository without sets and files. -/
def empty : Repository := ⟨∅, ∅⟩

instance : EmptyCollection Repository := ⟨empty⟩

instance : Inhabited Repository := ⟨empty⟩

/-- The set of a name. -/
def get? (repo : Repository) (name : String) : Option ContextSet :=
  repo.sets.get? (SetName.bare name)

/-- Whether a set has the name. -/
def contains (repo : Repository) (name : String) : Bool :=
  (repo.get? name).isSome

/-- The bare names of all sets, ascending. -/
def names (repo : Repository) : List String :=
  repo.sets.keys

/-- The set of a name, which has to exist. -/
def find (repo : Repository) (name : String) : Except SetError ContextSet :=
  match repo.get? name with
  | some set => .ok set
  | none => .error (.setNotFound (SetName.bare name))

/-- An answer or an error that leaves the repository alone. -/
def inquire {α : Type} (answer : Repository → Except SetError α) : Edit α := do
  match answer (← get) with
  | .ok value => return value
  | .error error => throw error

/-- The set of a name, which has to exist. -/
def requireSet (name : String) : Edit ContextSet :=
  inquire (·.find name)

/-- A file has to be registered before it is mentioned. -/
def requireFile (id : String) : Edit Unit :=
  inquire fun repo => if repo.manifest.contains id then .ok () else .error (.fileNotFound id)

/-- Stores a set under its bare name. -/
def store (name : String) (set : ContextSet) : Edit Unit :=
  modify fun repo => { repo with sets := repo.sets.insert (SetName.bare name) set }

/-! ### Sets -/

/-- Creates an empty set and returns its bare name. -/
def create (name : String) : Edit String := do
  let key := SetName.bare name
  inquire fun repo => do
    SetError.checkName key
    if repo.sets.contains key then throw (.duplicateName key)
  modify fun repo => { repo with sets := repo.sets.insert key { name := key } }
  return key

/-- Deletes a set and every use of it. -/
def delete (name : String) : Edit ContextSet := do
  let key := SetName.bare name
  let set ← requireSet name
  modify fun repo =>
    { repo with
      sets := (repo.sets.erase key).map fun other =>
        { other with uses := other.uses.filter (· != key) } }
  return set

/-- Renames a set and every use of it. -/
def rename (name newName : String) : Edit Unit := do
  let oldKey := SetName.bare name
  let newKey := SetName.bare newName
  let set ← requireSet name
  if oldKey ≠ newKey then
    inquire fun repo => do
      SetError.checkName newKey
      if repo.sets.contains newKey then throw (.duplicateName newKey)
    modify fun repo =>
      { repo with
        sets := ((repo.sets.erase oldKey).insert newKey { set with name := newKey }).map fun other =>
          { other with uses := other.uses.map fun used => if used = oldKey then newKey else used } }

/-- Replaces the description of a set. A blank description is none. -/
def describe (name : String) (description : Option String) : Edit Unit := do
  let set ← requireSet name
  store name { set with description := description.bind Text.nonBlank? }

/-- Replaces the processing mode of a set. -/
def setMode (name : String) (mode : Option ProcessingMode) : Edit Unit := do
  let set ← requireSet name
  store name { set with mode := mode }

end Repository

end ContextSets
