import ContextSets.Document
import ContextSets.Proofs.Edit
import ContextSets.Proofs.SetName
import ContextSets.Repository.Files
import ContextSets.Repository.Workflow

/-!
# What edits do

For each edit, when it succeeds, what it answers and the repository after it. Later proofs take
an edit apart with these and never unfold it.
-/

namespace ContextSets.Repository

open Edit

variable {repo after : Repository} {u : Unit}

/-! ### Sets -/

/-- The repository without a set and without any use of it. -/
def without (repo : Repository) (key : String) : Repository :=
  { repo with
    sets := (repo.sets.erase key).map fun other =>
      { other with uses := other.uses.filter (· != key) } }

/-- A name with one name replaced by another. -/
def substitute (oldKey newKey name : String) : String :=
  if name = oldKey then newKey else name

/-- The repository with a set moved to another name, in all uses as well. -/
def renamed (repo : Repository) (oldKey newKey : String) (set : ContextSet) : Repository :=
  { repo with
    sets := ((repo.sets.erase oldKey).insert newKey { set with name := newKey }).map fun other =>
      { other with uses := other.uses.map (substitute oldKey newKey) } }

/-- A new name has to be valid and free. -/
theorem newName_ok {key : String} :
    (do SetError.checkName key
        if repo.sets.contains key then throw (.duplicateName key)) = Except.ok u ↔
      SetName.fault? key = none ∧ repo.sets.get? key = none := by
  rw [except_bind_ok]
  constructor
  · intro hgiven
    obtain ⟨_, hname, hfree⟩ := hgiven
    refine ⟨SetError.checkName_eq_ok.mp hname, Table.contains_eq_false_iff.mp ?_⟩
    split at hfree
    · cases hfree
    · rename_i h
      exact Bool.eq_false_iff.mpr h
  · intro hgiven
    obtain ⟨hname, hfree⟩ := hgiven
    refine ⟨(), SetError.checkName_eq_ok.mpr hname, ?_⟩
    rw [if_neg]
    · rfl
    · rw [Table.contains_eq_false_iff.mpr hfree]
      exact Bool.false_ne_true

theorem create_ok {name key : String} :
    (create name).run repo = .ok key after ↔
      key = SetName.bare name ∧ SetName.fault? key = none ∧ repo.sets.get? key = none ∧
        after = repo.withSet key { name := key } := by
  simp only [create, inquire_bind_ok, modify_bind_ok, pure_ok, newName_ok]
  constructor
  · intro hgiven
    obtain ⟨_, ⟨hname, hfree⟩, rfl, rfl⟩ := hgiven
    exact ⟨rfl, hname, hfree, rfl⟩
  · intro hgiven
    obtain ⟨rfl, hname, hfree, rfl⟩ := hgiven
    exact ⟨(), ⟨hname, hfree⟩, rfl, rfl⟩

theorem delete_ok {name : String} {set : ContextSet} :
    (delete name).run repo = .ok set after ↔
      repo.get? name = some set ∧ after = repo.without (SetName.bare name) := by
  simp only [delete, requireSet_bind_ok, modify_bind_ok, pure_ok]
  constructor
  · intro hgiven
    obtain ⟨_, hset, rfl, rfl⟩ := hgiven
    exact ⟨hset, rfl⟩
  · intro hgiven
    obtain ⟨hset, rfl⟩ := hgiven
    exact ⟨set, hset, rfl, rfl⟩

theorem rename_ok {name newName : String} :
    (rename name newName).run repo = .ok u after ↔
      ∃ set, repo.get? name = some set ∧
        if SetName.bare name = SetName.bare newName then after = repo
        else SetName.fault? (SetName.bare newName) = none ∧
          repo.sets.get? (SetName.bare newName) = none ∧
          after = repo.renamed (SetName.bare name) (SetName.bare newName) set := by
  simp only [rename, requireSet_bind_ok]
  refine exists_congr fun set => and_congr_right fun _ => ?_
  by_cases hsame : SetName.bare name = SetName.bare newName
  · simpa [hsame] using eq_comm
  · simp only [if_neg hsame, if_pos hsame, inquire_bind_ok, modify_ok, newName_ok]
    constructor
    · intro hgiven
      obtain ⟨_, ⟨hname, hfree⟩, rfl⟩ := hgiven
      exact ⟨hname, hfree, rfl⟩
    · intro hgiven
      obtain ⟨hname, hfree, rfl⟩ := hgiven
      exact ⟨(), ⟨hname, hfree⟩, rfl⟩

theorem describe_ok {name : String} {description : Option String} :
    (describe name description).run repo = .ok u after ↔
      ∃ set, repo.get? name = some set ∧
        after = repo.withSet (SetName.bare name)
          { set with description := description.bind Text.nonBlank? } := by
  simp only [describe, requireSet_bind_ok, store_ok]

theorem setMode_ok {name : String} {mode : Option ProcessingMode} :
    (setMode name mode).run repo = .ok u after ↔
      ∃ set, repo.get? name = some set ∧
        after = repo.withSet (SetName.bare name) { set with mode := mode } := by
  simp only [setMode, requireSet_bind_ok, store_ok]

/-! ### Uses -/

/-- A name at the end of a list, unless the list has it already. -/
def appendNew (names : List String) (name : String) : List String :=
  if names.contains name then names else names ++ [name]

@[simp] theorem cycleIfUsed_bare (repo : Repository) (source target : String) :
    repo.cycleIfUsed (SetName.bare source) (SetName.bare target) =
      repo.cycleIfUsed source target := by
  simp only [cycleIfUsed, SetName.bare_bare]

theorem addUse_ok {source target : String} :
    (addUse source target).run repo = .ok u after ↔
      ∃ set, repo.get? source = some set ∧ repo.contains target = true ∧
        repo.cycleIfUsed source target = none ∧
        after = repo.withSet (SetName.bare source)
          { set with uses := appendNew set.uses (SetName.bare target) } := by
  simp only [addUse, requireSet_bind_ok, cycleIfUsed_bare]
  refine exists_congr fun set => and_congr_right fun hset => ?_
  rw [contains, Option.isSome_iff_exists, ← exists_and_right]
  refine exists_congr fun other => and_congr_right fun _ => ?_
  -- an edge to itself is refused before the search, which would refuse it as well
  by_cases hself : SetName.bare source = SetName.bare target
  · have hcycle : repo.cycleIfUsed source target ≠ none := by
      simp [cycleIfUsed, hself]
    simp only [if_pos hself, throw_bind_ok, hcycle, false_and]
  · simp only [if_neg hself, get_bind_ok]
    cases repo.cycleIfUsed source target with
    | some cycle => simp only [throw_bind_ok, reduceCtorEq, false_and]
    | none =>
      simp only [requireSet_bind_ok, hset, Option.some.injEq, exists_eq_left', true_and]
      -- a use that is there already is not stored again, which comes to the same
      cases hknown : set.uses.contains (SetName.bare target) with
      | true =>
        simp only [appendNew, hknown, Bool.not_true, Bool.false_eq_true, if_false, if_true, pure_ok]
        rw [withSet_self hset]
        simp
      | false =>
        simp only [appendNew, hknown, Bool.not_false, Bool.false_eq_true, if_false, if_true,
          store_ok]

theorem removeUse_ok {source target : String} {removed : Bool} :
    (removeUse source target).run repo = .ok removed after ↔
      ∃ set, repo.get? source = some set ∧
        removed = ((set.uses.filter (· != SetName.bare target)).length != set.uses.length) ∧
        after = repo.withSet (SetName.bare source)
          { set with uses := set.uses.filter (· != SetName.bare target) } := by
  simp only [removeUse, requireSet_bind_ok, store_bind_ok, pure_ok]

/-! ### Files -/

theorem resolvePath_ok {path id : String} :
    (resolvePath path).run repo = .ok id after ↔
      id = (repo.manifest.resolve path).1 ∧
        after = repo.withManifest (repo.manifest.resolve path).2 := by
  simp only [resolvePath, modifyGet_ok]
  rfl

theorem setFileComment_ok {id : String} {comment : Option String} :
    (setFileComment id comment).run repo = .ok u after ↔
      ∃ manifest, repo.manifest.setComment id comment = .ok manifest ∧
        after = repo.withManifest manifest := by
  simp only [setFileComment, inquire_bind_ok, modify_ok]
  rfl

theorem addFile_ok {name id : String} {added : Bool} :
    (addFile name id).run repo = .ok added after ↔
      repo.manifest.contains id = true ∧ ∃ set, repo.get? name = some set ∧
        added = !set.hasFile id ∧
        after = if set.hasFile id then repo else repo.withSet (SetName.bare name)
          { set with files := set.files ++ [.whole id] } := by
  simp only [addFile, requireFile_bind_ok, requireSet_bind_ok]
  refine and_congr_right fun _ => exists_congr fun set => and_congr_right fun _ => ?_
  cases set.hasFile id with
  | true => simp only [if_true, pure_ok, Bool.not_true]
  | false => simp only [Bool.false_eq_true, if_false, store_bind_ok, pure_ok, Bool.not_false]

/-- A path is added under the id that it gets in the registry, in the set as it was before. -/
theorem addPath_ok {name path id : String} {added : Bool} :
    (addPath name path).run repo = .ok (id, added) after ↔
      repo.contains name = true ∧ id = (repo.manifest.resolve path).1 ∧
        (addFile name id).run (repo.withManifest (repo.manifest.resolve path).2) =
          .ok added after := by
  rw [addPath, requireSet_bind_ok]
  simp only [bind_ok, resolvePath_ok, pure_ok]
  rw [contains, Option.isSome_iff_exists, ← exists_and_right]
  refine exists_congr fun set => and_congr_right fun _ => ?_
  constructor
  · intro hgiven
    obtain ⟨_, _, ⟨rfl, rfl⟩, _, _, hadd, heq, rfl⟩ := hgiven
    cases heq
    exact ⟨rfl, hadd⟩
  · intro hgiven
    obtain ⟨rfl, hadd⟩ := hgiven
    exact ⟨_, _, ⟨rfl, rfl⟩, added, after, hadd, rfl, rfl⟩

theorem removeFile_ok {name id : String} {removed : Bool} :
    (removeFile name id).run repo = .ok removed after ↔
      ∃ set, repo.get? name = some set ∧
        removed = ((set.files.filter (·.id != id)).length != set.files.length) ∧
        after = repo.withSet (SetName.bare name)
          { set with files := set.files.filter (·.id != id) } := by
  simp only [removeFile, requireSet_bind_ok, store_bind_ok, pure_ok]

/-- What held the place of a reference is gone when another is put there. -/
theorem replaceReference_held (id : String) (reference : FileReference)
    (files : List FileReference) :
    replaceReference id reference (replaceReference id (.whole id) files) =
      replaceReference id reference files := by
  have hheld : ((FileReference.whole id).id == id) = true := beq_self_eq_true id
  unfold replaceReference
  induction files with
  | nil => rfl
  | cons first rest ih =>
    by_cases hfirst : (first.id == id) = true
    · rw [changeFirst, if_pos hfirst, changeFirst, if_pos hheld, changeFirst, if_pos hfirst]
    · rw [changeFirst, if_neg hfirst, changeFirst, if_neg hfirst, changeFirst, if_neg hfirst, ih]

theorem replaceReference_of_find? {id : String} {files : List FileReference}
    {current : FileReference} (change : FileReference → FileReference)
    (h : files.find? (·.id == id) = some current) :
    replaceReference id (change current) files = changeFirst (·.id == id) change files := by
  unfold replaceReference
  induction files with
  | nil => rfl
  | cons first rest ih =>
    by_cases hfirst : (first.id == id) = true
    · obtain rfl : first = current := by simpa [List.find?_cons, hfirst] using h
      rw [changeFirst, if_pos hfirst, changeFirst, if_pos hfirst]
    · have hrest : rest.find? (·.id == id) = some current := by
        simpa [List.find?_cons, hfirst] using h
      rw [changeFirst, if_neg hfirst, changeFirst, if_neg hfirst, ih hrest]

theorem changeFirst_id {α : Type} (test : α → Bool) (xs : List α) :
    changeFirst test (fun x => x) xs = xs := by
  induction xs with
  | nil => rfl
  | cons x rest ih => rw [changeFirst, ih, ite_self]

/-- A reference without a note of its own is that to the whole file, so leaving the one that holds its
place changes nothing. -/
theorem replaceReference_whole {id : String} {set : SetContent} {current : FileReference}
    {comment : Option String} (h : set.file? id = some current)
    (hwhole : current.withComment? comment = none) :
    replaceReference id (.whole id) set.files = set.files := by
  have hcurrent : current = .whole id := by
    have hid : current.id = id := by simpa using List.find?_some h
    cases current with
    | whole _ => exact congrArg _ hid
    | part _ _ _ _ => cases hwhole
  rw [← hcurrent]
  exact (replaceReference_of_find? (fun reference => reference) h).trans (changeFirst_id _ _)

theorem setRefs_ok {name id : String} {refs : List FunctionRef} :
    (setRefs name id refs).run repo = .ok u after ↔
      repo.manifest.contains id = true ∧ ∃ set, repo.get? name = some set ∧
        after = repo.withSet (SetName.bare name)
          { set with
            files := if set.hasFile id then changeFirst (·.id == id) (·.withRefs refs) set.files
              else set.files ++ [.ofRefs id refs none] } := by
  simp only [setRefs, requireFile_bind_ok, requireSet_bind_ok, store_ok]
  refine and_congr_right fun _ => exists_congr fun set => and_congr_right fun _ => ?_
  cases hfile : set.file? id with
  | none => simp [SetContent.hasFile, hfile]
  | some current =>
    have hlisted : set.hasFile id = true := by rw [SetContent.hasFile, hfile, Option.isSome_some]
    dsimp only
    rw [replaceReference_held, replaceReference_of_find? (·.withRefs refs) hfile, if_pos hlisted]

theorem setReferenceComment_ok {name id : String} {comment : Option String} {changed : Bool} :
    (setReferenceComment name id comment).run repo = .ok changed after ↔
      ∃ set, repo.get? name = some set ∧ ∃ reference, set.file? id = some reference ∧
        match reference.withComment? (comment.bind Text.nonBlank?) with
        | none => changed = false ∧ after = repo
        | some updated => changed = true ∧ after = repo.withSet (SetName.bare name)
            { set with files := changeFirst (·.id == id) (fun _ => updated) set.files } := by
  simp only [setReferenceComment, requireSet_bind_ok]
  refine exists_congr fun set => and_congr_right fun hset => ?_
  cases hfile : set.file? id with
  | none => simp
  | some current =>
    simp only [Option.some.injEq, exists_eq_left']
    cases hcomment : current.withComment? (comment.bind Text.nonBlank?) with
    | none =>
      simp only [store_bind_ok, pure_ok, replaceReference_whole hfile hcomment,
        withSet_self hset]
    | some updated =>
      simp only [store_bind_ok, pure_ok, replaceReference_held]
      rfl

theorem prune_ok {removed : List (String × FileEntry)} :
    prune.run repo = .ok removed after ↔
      removed = (repo.manifest.prune repo.mentioned.contains).1 ∧
        after = repo.withManifest (repo.manifest.prune repo.mentioned.contains).2 := by
  simp only [prune, modifyGet_ok]
  rfl

/-! ### Workflows and entry points -/

theorem requireStepFile_bind_ok {β : Type} {step : WorkflowStep} {f : Unit → Edit β} {value : β} :
    (requireStepFile step >>= f).run repo = .ok value after ↔
      (∀ id ∈ step.file, repo.manifest.contains id = true) ∧
        (f ()).run repo = .ok value after := by
  unfold requireStepFile
  cases step.file with
  | none => simp
  | some id => simp only [requireFile_bind_ok, Option.mem_some_iff, forall_eq']

theorem addStep_ok {name : String} {step : WorkflowStep} {index : Nat} :
    (addStep name step).run repo = .ok index after ↔
      (∀ id ∈ step.file, repo.manifest.contains id = true) ∧
        ∃ set, repo.get? name = some set ∧ index = set.workflow.length ∧
          after = repo.withSet (SetName.bare name)
            { set with workflow := set.workflow ++ [step] } := by
  simp only [addStep, requireStepFile_bind_ok, requireSet_bind_ok, store_bind_ok, pure_ok]

theorem updateStep_ok {name : String} {index : Nat} {step : WorkflowStep} :
    (updateStep name index step).run repo = .ok u after ↔
      (∀ id ∈ step.file, repo.manifest.contains id = true) ∧
        ∃ set, repo.get? name = some set ∧ index < set.workflow.length ∧
          after = repo.withSet (SetName.bare name)
            { set with workflow := set.workflow.set index step } := by
  simp only [updateStep, requireStepFile_bind_ok, requireSet_bind_ok]
  refine and_congr_right fun _ => exists_congr fun set => and_congr_right fun _ => ?_
  by_cases hindex : index < set.workflow.length
  · simp only [hindex, if_true, store_ok, true_and]
  · simp only [hindex, if_false, throw_ok, false_and]

theorem removeStep_ok {name : String} {index : Nat} {step : WorkflowStep} :
    (removeStep name index).run repo = .ok step after ↔
      ∃ set, repo.get? name = some set ∧ set.workflow[index]? = some step ∧
        after = repo.withSet (SetName.bare name)
          { set with workflow := set.workflow.eraseIdx index } := by
  simp only [removeStep, requireSet_bind_ok]
  refine exists_congr fun set => and_congr_right fun _ => ?_
  cases set.workflow[index]? with
  | none => simp
  | some other =>
    simp only [store_bind_ok, pure_ok, Option.some.injEq]
    exact and_congr_left' eq_comm

theorem moveStep_ok {name : String} {index : Nat} {move : Move} {moved : Bool} :
    (moveStep name index move).run repo = .ok moved after ↔
      ∃ set, repo.get? name = some set ∧ index < set.workflow.length ∧
        match move.target? index set.workflow.length with
        | none => moved = false ∧ after = repo
        | some target => moved = true ∧ after = repo.withSet (SetName.bare name)
            { set with workflow := exchange set.workflow index target } := by
  simp only [moveStep, requireSet_bind_ok]
  refine exists_congr fun set => and_congr_right fun _ => ?_
  by_cases hindex : set.workflow.length ≤ index
  · simp only [if_pos hindex, throw_bind_ok, Nat.not_lt.mpr hindex, false_and]
  · simp only [if_neg hindex, Nat.lt_of_not_le hindex, true_and]
    cases move.target? index set.workflow.length with
    | none => simp only [pure_ok]
    | some target => simp only [store_bind_ok, pure_ok]

theorem addEntryPoint_ok {name : String} {entry : EntryPoint} :
    (addEntryPoint name entry).run repo = .ok u after ↔
      repo.manifest.contains entry.file = true ∧ ∃ set, repo.get? name = some set ∧
        after = repo.withSet (SetName.bare name)
          { set with entryPoints := set.entryPoints ++ [entry] } := by
  simp only [addEntryPoint, requireFile_bind_ok, requireSet_bind_ok, store_ok]

theorem removeEntryPoint_ok {name : String} {index : Nat} {entry : EntryPoint} :
    (removeEntryPoint name index).run repo = .ok entry after ↔
      ∃ set, repo.get? name = some set ∧ set.entryPoints[index]? = some entry ∧
        after = repo.withSet (SetName.bare name)
          { set with entryPoints := set.entryPoints.eraseIdx index } := by
  simp only [removeEntryPoint, requireSet_bind_ok]
  refine exists_congr fun set => and_congr_right fun _ => ?_
  cases set.entryPoints[index]? with
  | none => simp
  | some other =>
    simp only [store_bind_ok, pure_ok, Option.some.injEq]
    exact and_congr_left' eq_comm

/-! ### Documents -/

theorem replaceBy_ok {document : Document} {size : Nat} :
    (replaceBy document).run repo = .ok size after ↔
      ofDocument document = .ok after ∧ size = after.sets.size := by
  simp only [replaceBy, inquire_bind_ok]
  constructor
  · intro hgiven
    obtain ⟨built, hbuilt, hrun⟩ := hgiven
    cases hrun
    exact ⟨hbuilt, rfl⟩
  · intro hgiven
    obtain ⟨hbuilt, rfl⟩ := hgiven
    exact ⟨after, hbuilt, rfl⟩

end ContextSets.Repository
