import ContextSets.Proofs.AllOrNothing
import ContextSets.Proofs.Import

/-!
# Consistency of reachable repositories

Every operation keeps a repository consistent: one that is refused changes nothing, and one that
succeeds makes one of the changes that are known to keep it so. Hence all repositories that operations
lead to are consistent.
-/

namespace ContextSets.Repository

variable {repo after : Repository} {name : String} {set : ContextSet}

/-! ### Files that a set mentions -/

theorem mem_mentioned {set : SetContent} {id : String} :
    id ∈ set.mentioned ↔
      (∃ reference ∈ set.files, reference.id = id) ∨
        (∃ step ∈ set.workflow, step.file = some id) ∨
          ∃ entry ∈ set.entryPoints, entry.file = id := by
  simp only [SetContent.mentioned, List.mem_append, List.mem_map, List.mem_filterMap, or_assoc]

theorem Consistent.changeFiles {files : List FileReference} (h : repo.Consistent)
    (hset : repo.get? name = some set)
    (hfiles : ∀ reference ∈ files, (∃ old ∈ set.files, old.id = reference.id) ∨
      repo.manifest.contains reference.id = true) :
    (repo.withSet (SetName.bare name) { set with files := files }).Consistent := by
  refine h.update hset rfl (List.Sublist.refl _) fun id hid => ?_
  rcases mem_mentioned.mp hid with ⟨reference, href, rfl⟩ | hother
  · rcases hfiles reference href with hold | hregistered
    · exact .inl (mem_mentioned.mpr (.inl hold))
    · exact .inr hregistered
  · exact .inl (mem_mentioned.mpr (.inr hother))

theorem Consistent.changeWorkflow {workflow : List WorkflowStep} (h : repo.Consistent)
    (hset : repo.get? name = some set)
    (hsteps : ∀ step ∈ workflow, step ∈ set.workflow ∨
      ∀ id ∈ step.file, repo.manifest.contains id = true) :
    (repo.withSet (SetName.bare name) { set with workflow := workflow }).Consistent := by
  refine h.update hset rfl (List.Sublist.refl _) fun id hid => ?_
  rcases mem_mentioned.mp hid with hfile | ⟨step, hstep, hid⟩ | hentry
  · exact .inl (mem_mentioned.mpr (.inl hfile))
  · rcases hsteps step hstep with hold | hregistered
    · exact .inl (mem_mentioned.mpr (.inr (.inl ⟨step, hold, hid⟩)))
    · exact .inr (hregistered id hid)
  · exact .inl (mem_mentioned.mpr (.inr (.inr hentry)))

theorem Consistent.changeEntryPoints {entries : List EntryPoint} (h : repo.Consistent)
    (hset : repo.get? name = some set)
    (hentries : ∀ entry ∈ entries, entry ∈ set.entryPoints ∨
      repo.manifest.contains entry.file = true) :
    (repo.withSet (SetName.bare name) { set with entryPoints := entries }).Consistent := by
  refine h.update hset rfl (List.Sublist.refl _) fun id hid => ?_
  rcases mem_mentioned.mp hid with hfile | hstep | ⟨entry, hentry, rfl⟩
  · exact .inl (mem_mentioned.mpr (.inl hfile))
  · exact .inl (mem_mentioned.mpr (.inr (.inl hstep)))
  · rcases hentries entry hentry with hold | hregistered
    · exact .inl (mem_mentioned.mpr (.inr (.inr ⟨entry, hold, rfl⟩)))
    · exact .inr hregistered

/-! ### References -/

@[simp] theorem id_ofRefs (id : String) (refs : List FunctionRef) (comment : Option String) :
    (FileReference.ofRefs id refs comment).id = id := by
  cases refs <;> rfl

theorem file?_id {set : SetContent} {id : String} {reference : FileReference}
    (h : set.file? id = some reference) : reference.id = id := by
  simpa using List.find?_some h

theorem id_withComment? {reference updated : FileReference} {comment : Option String}
    (h : reference.withComment? comment = some updated) : updated.id = reference.id := by
  cases reference with
  | whole id => cases h
  | part id first others old =>
    cases h
    rfl

/-- A member of a list with one member changed is an old one or the changed one. -/
theorem mem_changeFirst {α : Type} {test : α → Bool} {change : α → α} {xs : List α} {x : α}
    (h : x ∈ changeFirst test change xs) : x ∈ xs ∨ ∃ y ∈ xs, test y = true ∧ x = change y := by
  induction xs with
  | nil => cases h
  | cons y rest ih =>
    rw [changeFirst] at h
    split at h
    · rename_i htest
      rcases List.mem_cons.mp h with rfl | h
      · exact .inr ⟨y, List.mem_cons_self, htest, rfl⟩
      · exact .inl (List.mem_cons_of_mem _ h)
    · rcases List.mem_cons.mp h with rfl | h
      · exact .inl List.mem_cons_self
      · rcases ih h with h | ⟨z, hz, htest, rfl⟩
        · exact .inl (List.mem_cons_of_mem _ h)
        · exact .inr ⟨z, List.mem_cons_of_mem _ hz, htest, rfl⟩

/-- Changing a reference without changing its id keeps all ids. -/
theorem exists_of_mem_changeFirst {id : String} {change : FileReference → FileReference}
    {files : List FileReference} {reference : FileReference}
    (hid : ∀ old ∈ files, old.id = id → (change old).id = id)
    (h : reference ∈ changeFirst (·.id == id) change files) :
    ∃ old ∈ files, old.id = reference.id := by
  rcases mem_changeFirst h with h | ⟨old, hold, htest, rfl⟩
  · exact ⟨reference, h, rfl⟩
  · have heq : old.id = id := by simpa using htest
    exact ⟨old, hold, heq.trans (hid old hold heq).symm⟩

theorem mem_exchange {α : Type} {xs : List α} {i j : Nat} {x : α} (h : x ∈ exchange xs i j) :
    x ∈ xs := by
  unfold exchange at h
  split at h
  · rename_i a b ha hb
    rcases List.mem_or_eq_of_mem_set h with h | rfl
    · rcases List.mem_or_eq_of_mem_set h with h | rfl
      · exact h
      · exact List.mem_of_getElem? hb
    · exact List.mem_of_getElem? ha
  · exact h

/-! ### Operations -/

theorem Consistent.addFile {id : String} {added : Bool} (h : repo.Consistent)
    (hrun : (addFile name id).run repo = .ok added after) : after.Consistent := by
  obtain ⟨hid, set, hset, -, rfl⟩ := addFile_ok.mp hrun
  split
  · exact h
  · refine h.changeFiles hset fun reference href => ?_
    rcases List.mem_append.mp href with href | href
    · exact .inl ⟨reference, href, rfl⟩
    · obtain rfl := List.mem_singleton.mp href
      exact .inr hid

theorem Consistent.setRefs {id : String} {refs : List FunctionRef} {u : Unit} (h : repo.Consistent)
    (hrun : (setRefs name id refs).run repo = .ok u after) : after.Consistent := by
  obtain ⟨hid, set, hset, rfl⟩ := setRefs_ok.mp hrun
  refine h.changeFiles hset fun reference href => ?_
  split at href
  -- other functions of the same file
  · refine .inl (exists_of_mem_changeFirst (fun old _ hold => ?_) href)
    rw [FileReference.withRefs, id_ofRefs, hold]
  · rcases List.mem_append.mp href with href | href
    · exact .inl ⟨reference, href, rfl⟩
    · obtain rfl := List.mem_singleton.mp href
      rw [id_ofRefs]
      exact .inr hid

theorem Consistent.setReferenceComment {id : String} {comment : Option String} {changed : Bool}
    (h : repo.Consistent)
    (hrun : (setReferenceComment name id comment).run repo = .ok changed after) :
    after.Consistent := by
  obtain ⟨set, hset, reference, href, hanswer⟩ := setReferenceComment_ok.mp hrun
  split at hanswer
  · obtain ⟨-, rfl⟩ := hanswer
    exact h
  · rename_i updated hupdated
    obtain ⟨-, rfl⟩ := hanswer
    refine h.changeFiles hset fun other hother => .inl ?_
    exact exists_of_mem_changeFirst
      (fun _ _ _ => (id_withComment? hupdated).trans (file?_id href)) hother

theorem Consistent.moveStep {index : Nat} {move : Move} {moved : Bool} (h : repo.Consistent)
    (hrun : (moveStep name index move).run repo = .ok moved after) : after.Consistent := by
  obtain ⟨set, hset, -, hanswer⟩ := moveStep_ok.mp hrun
  split at hanswer
  · obtain ⟨-, rfl⟩ := hanswer
    exact h
  · obtain ⟨-, rfl⟩ := hanswer
    exact h.changeWorkflow hset fun step hstep => .inl (mem_exchange hstep)

theorem Consistent.rename {newName : String} {u : Unit} (h : repo.Consistent)
    (hrun : (rename name newName).run repo = .ok u after) : after.Consistent := by
  obtain ⟨set, hset, heffect⟩ := rename_ok.mp hrun
  split at heffect
  · subst heffect
    exact h
  · obtain ⟨hvalid, hfree, rfl⟩ := heffect
    exact h.renamed hset (SetName.bare_bare newName) hvalid hfree

theorem Consistent.prune {removed : List (String × FileEntry)} (h : repo.Consistent)
    (hrun : prune.run repo = .ok removed after) : after.Consistent := by
  obtain ⟨-, rfl⟩ := prune_ok.mp hrun
  refine h.withManifest fun key set hset id hid => Manifest.contains_prune.mpr ⟨?_, ?_⟩
  · exact (h.stored key set hset).registered id hid
  -- what the set mentions is among what all sets mention, which is kept
  · have hmentioned : id ∈ repo.mentioned :=
      List.mem_flatMap.mpr ⟨set, Table.mem_values.mpr ⟨key, hset⟩, hid⟩
    simpa using hmentioned

/-- One operation keeps a repository consistent, whether it succeeds or is refused. -/
theorem Consistent.step (h : repo.Consistent) (op : Operation) : (op.after repo).Consistent := by
  cases hrun : op.edit.run repo with
  | error error after =>
    rw [Operation.after_of_error hrun, op.allOrNothing repo error after hrun]
    exact h
  | ok answer after =>
    rw [Operation.after_of_ok hrun]
    cases op with
    | create name =>
      obtain ⟨rfl, hvalid, -, rfl⟩ := create_ok.mp hrun
      exact h.add (SetName.bare_bare name) hvalid rfl rfl fun id hid => absurd hid List.not_mem_nil
    | delete name =>
      obtain ⟨-, rfl⟩ := delete_ok.mp hrun
      exact h.without _
    | rename name newName => exact h.rename hrun
    | describe name description =>
      obtain ⟨set, hset, rfl⟩ := describe_ok.mp hrun
      exact h.update hset rfl (List.Sublist.refl _) fun id hid => .inl hid
    | setMode name mode =>
      obtain ⟨set, hset, rfl⟩ := setMode_ok.mp hrun
      exact h.update hset rfl (List.Sublist.refl _) fun id hid => .inl hid
    | addUse source target =>
      obtain ⟨set, hset, htarget, hcycle, rfl⟩ := addUse_ok.mp hrun
      exact h.addUse hset htarget hcycle
    | removeUse source target =>
      obtain ⟨set, hset, -, rfl⟩ := removeUse_ok.mp hrun
      exact h.update hset rfl List.filter_sublist fun id hid => .inl hid
    | resolvePath path =>
      obtain ⟨-, rfl⟩ := resolvePath_ok.mp hrun
      exact h.withLargerManifest fun _ => Manifest.contains_resolve
    | setFileComment id comment =>
      obtain ⟨manifest, hmanifest, rfl⟩ := setFileComment_ok.mp hrun
      exact h.withLargerManifest fun _ => Manifest.contains_setComment hmanifest
    | addFile name id => exact h.addFile hrun
    | addPath name path =>
      obtain ⟨-, -, hadd⟩ := addPath_ok.mp hrun
      exact (h.withLargerManifest fun _ => Manifest.contains_resolve).addFile hadd
    | removeFile name id =>
      obtain ⟨set, hset, -, rfl⟩ := removeFile_ok.mp hrun
      exact h.changeFiles hset fun reference href =>
        .inl ⟨reference, (List.mem_filter.mp href).1, rfl⟩
    | setRefs name id refs => exact h.setRefs hrun
    | setReferenceComment name id comment => exact h.setReferenceComment hrun
    | prune => exact h.prune hrun
    | addStep name step =>
      obtain ⟨hstep, set, hset, -, rfl⟩ := addStep_ok.mp hrun
      refine h.changeWorkflow hset fun other hother => ?_
      rcases List.mem_append.mp hother with hother | hother
      · exact .inl hother
      · obtain rfl := List.mem_singleton.mp hother
        exact .inr hstep
    | updateStep name index step =>
      obtain ⟨hstep, set, hset, -, rfl⟩ := updateStep_ok.mp hrun
      refine h.changeWorkflow hset fun other hother => ?_
      rcases List.mem_or_eq_of_mem_set hother with hother | rfl
      · exact .inl hother
      · exact .inr hstep
    | removeStep name index =>
      obtain ⟨set, hset, -, rfl⟩ := removeStep_ok.mp hrun
      exact h.changeWorkflow hset fun step hstep => .inl (List.mem_of_mem_eraseIdx hstep)
    | moveStep name index move => exact h.moveStep hrun
    | addEntryPoint name entry =>
      obtain ⟨hentry, set, hset, rfl⟩ := addEntryPoint_ok.mp hrun
      refine h.changeEntryPoints hset fun other hother => ?_
      rcases List.mem_append.mp hother with hother | hother
      · exact .inl hother
      · obtain rfl := List.mem_singleton.mp hother
        exact .inr hentry
    | removeEntryPoint name index =>
      obtain ⟨set, hset, -, rfl⟩ := removeEntryPoint_ok.mp hrun
      exact h.changeEntryPoints hset fun entry hentry => .inl (List.mem_of_mem_eraseIdx hentry)
    | replaceBy document =>
      obtain ⟨hdocument, -⟩ := replaceBy_ok.mp hrun
      exact consistent_ofDocument hdocument

/-- What every operation keeps, every run of operations keeps. -/
theorem Consistent.afterAll (h : repo.Consistent) (ops : List Operation) :
    (Operation.afterAll ops repo).Consistent := by
  induction ops generalizing repo with
  | nil => exact h
  | cons op rest ih => exact ih (h.step op)

theorem Reachable.consistent (h : repo.Reachable) : repo.Consistent := by
  induction h with
  | empty => exact Consistent.empty
  | step _ op ih => exact ih.step op

end ContextSets.Repository
