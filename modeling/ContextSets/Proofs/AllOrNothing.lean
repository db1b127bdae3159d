import ContextSets.Observed
import ContextSets.Proofs.Effect
import ContextSets.Proofs.Manifest
import ContextSets.Proofs.Operation

/-!
# Operations are all or nothing

A refused operation leaves the repository as it was, and so does one that answers that nothing
changed. Hence the revision of an observed repository counts the operations that succeeded.
-/

namespace ContextSets

open Repository

/-! ### Refused operations -/

namespace Repository

open Edit

/-- A set changed without fail after the look-up is changed all or not at all. -/
theorem requireSet_allOrNothing {α : Type} {name : String} {change : ContextSet → Edit α}
    (h : ∀ set, Succeeds (change set)) : AllOrNothing (do change (← requireSet name)) :=
  (asks_requireSet name).bind fun set => (h set).allOrNothing

theorem succeeds_store_bind {α : Type} (name : String) (set : ContextSet) (answer : α) :
    Succeeds (do store name set; return answer) :=
  (succeeds_store name set).bind fun _ => succeeds_pure answer

theorem requireStepFile_asks (step : WorkflowStep) : Asks (requireStepFile step) := by
  unfold requireStepFile
  split
  · exact asks_pure ()
  · exact asks_requireFile _

theorem rename_allOrNothing (name newName : String) : AllOrNothing (rename name newName) := by
  refine (asks_requireSet _).bind fun set => ?_
  split
  · exact (asks_inquire _).bind fun _ => (succeeds_modify _).allOrNothing
  · exact (asks_pure ()).refused

theorem addUse_allOrNothing (source target : String) : AllOrNothing (addUse source target) := by
  refine (asks_requireSet _).bind fun _ => (asks_requireSet _).bind fun _ => ?_
  -- both refusals come before this last look-up and the only change
  have hadd : AllOrNothing (do
      let set ← requireSet source
      if !set.uses.contains (SetName.bare target) then
        store source { set with uses := set.uses ++ [SetName.bare target] }) := by
    refine (asks_requireSet _).bind fun set => ?_
    split
    · exact (succeeds_store _ _).allOrNothing
    · exact (asks_pure ()).refused
  split
  · exact allOrNothing_throw_bind _ _
  · refine asks_get.bind fun repo => ?_
    split
    · exact allOrNothing_throw_bind _ _
    · exact hadd

theorem addFile_allOrNothing (name id : String) : AllOrNothing (addFile name id) := by
  refine (asks_requireFile _).bind fun _ => requireSet_allOrNothing fun set => ?_
  split
  · exact succeeds_pure false
  · exact succeeds_store_bind _ _ _

/-- Adding a file is only refused if the file or the set is missing. -/
theorem addFile_succeeds {repo : Repository} {name id : String} (hname : repo.contains name = true)
    (hid : repo.manifest.contains id = true) {error : SetError} {after : Repository} :
    (addFile name id).run repo ≠ .error error after := by
  obtain ⟨set, hset⟩ := Option.isSome_iff_exists.mp hname
  have hok : ∃ added after, (addFile name id).run repo = .ok added after :=
    ⟨_, _, addFile_ok.mpr ⟨hid, set, hset, rfl, rfl⟩⟩
  obtain ⟨added, other, hrun⟩ := hok
  rw [hrun]
  exact fun h => nomatch h

/-- A path that is new is registered before the file is added, but then nothing is left to be
refused. -/
theorem addPath_allOrNothing (name path : String) : AllOrNothing (addPath name path) := by
  intro repo error after h
  rcases bind_error.mp h with hname | ⟨set, mid, hset, hadd⟩
  · exact (asks_requireSet name).refused repo error after hname
  obtain ⟨hget, rfl⟩ := requireSet_ok.mp hset
  rcases bind_error.mp hadd with hresolve | ⟨id, resolved, hresolve, hfile⟩
  · exact absurd hresolve (succeeds_modifyGet _ _ _ _)
  obtain ⟨rfl, rfl⟩ := resolvePath_ok.mp hresolve
  rcases bind_error.mp hfile with hrun | ⟨_, _, _, hpure⟩
  · cases hknown : mid.manifest.idOf? path with
    | some id =>
      -- the path is known, so resolving it has changed nothing
      rw [addFile_allOrNothing _ _ _ _ _ hrun, Manifest.resolve, hknown]
      rfl
    | none =>
      -- the path has just been registered, and the set was there before
      refine absurd hrun (addFile_succeeds ?_ (Manifest.contains_resolve_self hknown))
      exact Option.isSome_iff_exists.mpr ⟨set, hget⟩
  · exact absurd hpure (succeeds_pure _ _ _ _)

theorem setReferenceComment_allOrNothing (name id : String) (comment : Option String) :
    AllOrNothing (setReferenceComment name id comment) := by
  refine (asks_requireSet _).bind fun set => ?_
  split
  · exact (asks_throw _).refused
  · split
    · exact (succeeds_store_bind _ _ _).allOrNothing
    · exact (succeeds_store_bind _ _ _).allOrNothing

theorem updateStep_allOrNothing (name : String) (index : Nat) (step : WorkflowStep) :
    AllOrNothing (updateStep name index step) := by
  refine (requireStepFile_asks step).bind fun _ => (asks_requireSet _).bind fun set => ?_
  split
  · exact (succeeds_store _ _).allOrNothing
  · exact (asks_throw _).refused

theorem removeStep_allOrNothing (name : String) (index : Nat) :
    AllOrNothing (removeStep name index) := by
  refine (asks_requireSet _).bind fun set => ?_
  split
  · exact (asks_throw _).refused
  · exact (succeeds_store_bind _ _ _).allOrNothing

theorem moveStep_allOrNothing (name : String) (index : Nat) (move : Move) :
    AllOrNothing (moveStep name index move) := by
  refine (asks_requireSet _).bind fun set => ?_
  dsimp only
  by_cases hindex : set.workflow.length ≤ index
  · rw [if_pos hindex]
    exact allOrNothing_throw_bind _ _
  rw [if_neg hindex]
  split
  · exact (asks_pure false).refused
  · exact (succeeds_store_bind _ _ _).allOrNothing

theorem removeEntryPoint_allOrNothing (name : String) (index : Nat) :
    AllOrNothing (removeEntryPoint name index) := by
  refine (asks_requireSet _).bind fun set => ?_
  split
  · exact (asks_throw _).refused
  · exact (succeeds_store_bind _ _ _).allOrNothing

theorem replaceBy_allOrNothing (document : Document) : AllOrNothing (replaceBy document) := by
  refine (asks_inquire _).bind fun built => ?_
  intro repo error after h
  cases h

end Repository

theorem Operation.allOrNothing (op : Operation) : Edit.AllOrNothing op.edit := by
  cases op with
  | create name =>
    exact (Edit.asks_inquire _).bind fun _ =>
      ((Edit.succeeds_modify _).bind fun _ => Edit.succeeds_pure _).allOrNothing
  | delete name =>
    exact requireSet_allOrNothing fun _ =>
      (Edit.succeeds_modify _).bind fun _ => Edit.succeeds_pure _
  | rename name newName => exact rename_allOrNothing name newName
  | describe name description => exact requireSet_allOrNothing fun _ => Edit.succeeds_store _ _
  | setMode name mode => exact requireSet_allOrNothing fun _ => Edit.succeeds_store _ _
  | addUse source target => exact addUse_allOrNothing source target
  | removeUse source target => exact requireSet_allOrNothing fun _ => succeeds_store_bind _ _ _
  | resolvePath path => exact (Edit.succeeds_modifyGet _).allOrNothing
  | setFileComment id comment =>
    exact (Edit.asks_inquire _).bind fun _ => (Edit.succeeds_modify _).allOrNothing
  | addFile name id => exact addFile_allOrNothing name id
  | addPath name path => exact addPath_allOrNothing name path
  | removeFile name id => exact requireSet_allOrNothing fun _ => succeeds_store_bind _ _ _
  | setRefs name id refs =>
    exact (Edit.asks_requireFile _).bind fun _ =>
      requireSet_allOrNothing fun _ => Edit.succeeds_store _ _
  | setReferenceComment name id comment => exact setReferenceComment_allOrNothing name id comment
  | prune => exact (Edit.succeeds_modifyGet _).allOrNothing
  | addStep name step =>
    exact (requireStepFile_asks step).bind fun _ =>
      requireSet_allOrNothing fun _ => succeeds_store_bind _ _ _
  | updateStep name index step => exact updateStep_allOrNothing name index step
  | removeStep name index => exact removeStep_allOrNothing name index
  | moveStep name index move => exact moveStep_allOrNothing name index move
  | addEntryPoint name entry =>
    exact (Edit.asks_requireFile _).bind fun _ =>
      requireSet_allOrNothing fun _ => Edit.succeeds_store _ _
  | removeEntryPoint name index => exact removeEntryPoint_allOrNothing name index
  | replaceBy document => exact replaceBy_allOrNothing document

/-! ### Operations that change nothing -/

namespace Repository

variable {repo after : Repository}

theorem addFile_false {name id : String} (h : (addFile name id).run repo = .ok false after) :
    after = repo := by
  obtain ⟨-, set, -, hadded, rfl⟩ := addFile_ok.mp h
  rw [if_pos (by simpa using hadded.symm)]

/-- A list that a filter leaves as long as it was is left as it was. -/
theorem filter_eq_self_of_length {α : Type} {xs : List α} {test : α → Bool}
    (h : false = ((xs.filter test).length != xs.length)) : xs.filter test = xs := by
  have hlength : (xs.filter test).length = xs.length := by simpa using h.symm
  exact List.filter_eq_self.mpr (List.length_filter_eq_length_iff.mp hlength)

theorem removeFile_false {name id : String} (h : (removeFile name id).run repo = .ok false after) :
    after = repo := by
  obtain ⟨set, hset, hremoved, rfl⟩ := removeFile_ok.mp h
  rw [filter_eq_self_of_length hremoved]
  exact withSet_self hset

theorem removeUse_false {source target : String}
    (h : (removeUse source target).run repo = .ok false after) : after = repo := by
  obtain ⟨set, hset, hremoved, rfl⟩ := removeUse_ok.mp h
  rw [filter_eq_self_of_length hremoved]
  exact withSet_self hset

theorem setReferenceComment_false {name id : String} {comment : Option String}
    (h : (setReferenceComment name id comment).run repo = .ok false after) : after = repo := by
  obtain ⟨set, -, reference, -, hanswer⟩ := setReferenceComment_ok.mp h
  split at hanswer
  · exact hanswer.2
  · exact absurd hanswer.1 Bool.false_ne_true

theorem moveStep_false {name : String} {index : Nat} {move : Move}
    (h : (moveStep name index move).run repo = .ok false after) : after = repo := by
  obtain ⟨set, -, -, hanswer⟩ := moveStep_ok.mp h
  split at hanswer
  · exact hanswer.2
  · exact absurd hanswer.1 Bool.false_ne_true

end Repository

/-! ### Observed repositories -/

namespace Observed

/-- Runs operations one after another. It returns whether each succeeded. -/
def updateAll : List Operation → Observed Repository → List Bool × Observed Repository
  | [], observed => ([], observed)
  | op :: rest, observed =>
    let (result, next) := observed.update op.edit
    let (results, last) := updateAll rest next
    (result.isOk :: results, last)

theorem update_value (observed : Observed Repository) (op : Operation) :
    (observed.update op.edit).2.value = op.after observed.value := by
  unfold update Operation.after
  cases op.edit.run observed.value <;> rfl

theorem update_revision (observed : Observed Repository) (op : Operation) :
    (observed.update op.edit).2.revision =
      observed.revision + if (observed.update op.edit).1.isOk then 1 else 0 := by
  unfold update
  cases op.edit.run observed.value <;> rfl

theorem update_error {observed : Observed Repository} {op : Operation} {error : SetError}
    (h : (observed.update op.edit).1 = .error error) : (observed.update op.edit).2 = observed := by
  unfold update at h ⊢
  cases hrun : op.edit.run observed.value with
  | ok answer after =>
    rw [hrun] at h
    cases h
  | error _ after =>
    obtain rfl := op.allOrNothing _ _ _ hrun
    rfl

/-- Every success counts once and nothing else does. -/
theorem updateAll_revision (ops : List Operation) (observed : Observed Repository) :
    (updateAll ops observed).2.revision =
      observed.revision + (updateAll ops observed).1.count true := by
  induction ops generalizing observed with
  | nil => rfl
  | cons op rest ih =>
    simp only [updateAll]
    rw [ih, update_revision, List.count_cons]
    cases (observed.update op.edit).1.isOk with
    | false => simp
    | true =>
      simp only [beq_self_eq_true, if_true]
      omega

theorem updateAll_value (ops : List Operation) (observed : Observed Repository) :
    (updateAll ops observed).2.value = Operation.afterAll ops observed.value := by
  induction ops generalizing observed with
  | nil => rfl
  | cons op rest ih =>
    simp only [updateAll]
    rw [ih, update_value]
    rfl

end Observed

/-- A refused operation changes neither the sets nor the manifest, nor does one that answers that
it changed nothing. The revision of an observed repository is the number of operations that
succeeded, and one that is refused leaves value and revision alone. -/
theorem operations_all_or_nothing :
    (∀ (op : Operation) (repo : Repository) (error : SetError) (after : Repository),
      op.edit.run repo = .error error after → after = repo) ∧
    (∀ (repo after : Repository) (name id : String),
      (addFile name id).run repo = .ok false after → after = repo) ∧
    (∀ (repo after : Repository) (name id : String),
      (removeFile name id).run repo = .ok false after → after = repo) ∧
    (∀ (repo after : Repository) (source target : String),
      (removeUse source target).run repo = .ok false after → after = repo) ∧
    (∀ (repo after : Repository) (name id : String) (comment : Option String),
      (setReferenceComment name id comment).run repo = .ok false after → after = repo) ∧
    (∀ (repo after : Repository) (name : String) (index : Nat) (move : Move),
      (moveStep name index move).run repo = .ok false after → after = repo) ∧
    (∀ (ops : List Operation) (repo : Repository),
      (Observed.updateAll ops (.fresh repo)).2.revision =
        (Observed.updateAll ops (.fresh repo)).1.count true ∧
      (Observed.updateAll ops (.fresh repo)).2.value = Operation.afterAll ops repo) ∧
    (∀ (op : Operation) (observed : Observed Repository) (error : SetError),
      (observed.update op.edit).1 = .error error → (observed.update op.edit).2 = observed) := by
  refine ⟨fun op => op.allOrNothing, fun repo after name id => addFile_false,
    fun repo after name id => removeFile_false, fun repo after source target => removeUse_false,
    fun repo after name id comment => setReferenceComment_false,
    fun repo after name index move => moveStep_false, ?_,
    fun op observed error => Observed.update_error⟩
  intro ops repo
  refine ⟨?_, Observed.updateAll_value ops (.fresh repo)⟩
  rw [Observed.updateAll_revision]
  exact Nat.zero_add _

end ContextSets
