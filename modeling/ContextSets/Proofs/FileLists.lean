import ContextSets.Proofs.Acceptance
import ContextSets.Proofs.Reachable

/-!
# Files listed once

Every edit of a set keeps the ids in its list of files distinct: a file is appended only if it is
not listed, and a reference is changed where it stands. A document is taken in with its lists as
they are, so a set lists a file twice exactly if it came in like that.
-/

namespace ContextSets

/-- A set lists no file twice. -/
def SetContent.ListsOnce (set : SetContent) : Prop :=
  (set.files.map (·.id)).Nodup

instance (set : SetContent) : Decidable set.ListsOnce :=
  inferInstanceAs (Decidable (set.files.map (·.id)).Nodup)

/-- No set of a document lists a file twice. -/
def Document.ListsOnce (document : Document) : Prop :=
  ∀ set ∈ document.sets.values, set.ListsOnce

instance (document : Document) : Decidable document.ListsOnce :=
  inferInstanceAs (Decidable (∀ set ∈ document.sets.values, set.ListsOnce))

/-- An operation takes in no set that lists a file twice. Only documents bring lists of files, and only
those that are accepted. -/
def Operation.BringsListedOnce : Operation → Prop
  | .replaceBy document =>
    (∃ repo, Repository.ofDocument document = .ok repo) → document.ListsOnce
  | _ => True

namespace Repository

/-- No set of a repository lists a file twice. -/
def ListsOnce (repo : Repository) : Prop :=
  ∀ key set, repo.sets.get? key = some set → set.toSetContent.ListsOnce

variable {repo after : Repository} {name id key : String} {set : ContextSet}

theorem ListsOnce.empty : (∅ : Repository).ListsOnce :=
  fun _ _ h => nomatch h

/-! ### Changing a list -/

theorem map_id_changeFirst {change : FileReference → FileReference} {files : List FileReference}
    (hchange : ∀ old ∈ files, old.id = id → (change old).id = id) :
    (changeFirst (·.id == id) change files).map (·.id) = files.map (·.id) := by
  induction files with
  | nil => rfl
  | cons file rest ih =>
    rw [changeFirst]
    split
    · rename_i htest
      have hid : file.id = id := by simpa using htest
      rw [List.map_cons, List.map_cons, hchange file List.mem_cons_self hid, hid]
    · rw [List.map_cons, List.map_cons,
        ih fun old hold => hchange old (List.mem_cons_of_mem _ hold)]

theorem hasFile_iff {set : SetContent} :
    set.hasFile id = true ↔ id ∈ set.files.map (·.id) := by
  simp [SetContent.hasFile, SetContent.file?, List.mem_map]

/-- A file that is not listed may be appended. -/
theorem nodup_append_new {set : SetContent} {reference : FileReference} (h : set.ListsOnce)
    (hnew : ¬ set.hasFile reference.id = true) :
    ((set.files ++ [reference]).map (·.id)).Nodup := by
  rw [hasFile_iff] at hnew
  rw [List.map_append, List.map_singleton]
  refine List.nodup_append.mpr ⟨h, List.nodup_singleton _, fun a ha b hb heq => ?_⟩
  obtain rfl := List.mem_singleton.mp hb
  exact hnew (heq ▸ ha)

/-! ### Changing a repository -/

theorem ListsOnce.withSet (h : repo.ListsOnce) (hset : set.toSetContent.ListsOnce) :
    (repo.withSet key set).ListsOnce := by
  intro other found hfound
  rw [withSet_sets, Table.get?_insert] at hfound
  split at hfound
  · cases hfound
    exact hset
  · exact h other found hfound

/-- Replacing everything in a set but its files keeps its list. -/
theorem ListsOnce.update (h : repo.ListsOnce) {old : ContextSet} (hold : repo.get? name = some old)
    (hfiles : set.files.map (·.id) = old.files.map (·.id)) : (repo.withSet key set).ListsOnce := by
  refine h.withSet ?_
  rw [SetContent.ListsOnce, hfiles]
  exact h _ old hold

theorem ListsOnce.withManifest (h : repo.ListsOnce) (manifest : Manifest) :
    (repo.withManifest manifest).ListsOnce :=
  h

theorem ListsOnce.without (h : repo.ListsOnce) (key : String) : (repo.without key).ListsOnce := by
  intro other found hfound
  rw [get?_without] at hfound
  split at hfound
  · cases hfound
  · obtain ⟨old, hold, rfl⟩ := Option.map_eq_some_iff.mp hfound
    exact h other old hold

theorem ListsOnce.renamed {oldKey newKey : String} {old : ContextSet} (h : repo.ListsOnce)
    (hold : repo.sets.get? oldKey = some old) : (repo.renamed oldKey newKey old).ListsOnce := by
  intro other found hfound
  obtain ⟨before, hbefore, rfl⟩ := exists_of_get?_renamed hold hfound
  exact h _ before hbefore

/-- The lists of a repository that is built from a document are those of the document. -/
theorem listsOnce_ofDocument {document : Document} (h : ofDocument document = .ok repo) :
    repo.ListsOnce ↔ document.ListsOnce := by
  have hdescribes := describes_ofDocument h
  constructor
  · intro hrepo set hset
    obtain ⟨name, hname⟩ := Table.mem_values.mp hset
    exact hrepo _ _ ((hdescribes.sets _ _).mpr ⟨name, set, hname, rfl, rfl⟩)
  · intro hdocument key set hset
    obtain ⟨name, content, hcontent, -, rfl⟩ := (hdescribes.sets key set).mp hset
    exact hdocument content (Table.mem_values.mpr ⟨name, hcontent⟩)

/-! ### Operations -/

theorem ListsOnce.addFile {added : Bool} (h : repo.ListsOnce)
    (hrun : (addFile name id).run repo = .ok added after) : after.ListsOnce := by
  obtain ⟨-, set, hset, -, rfl⟩ := addFile_ok.mp hrun
  split
  · exact h
  · rename_i hnew
    exact h.withSet (nodup_append_new (h _ set hset) hnew)

theorem ListsOnce.setRefs {refs : List FunctionRef} {u : Unit} (h : repo.ListsOnce)
    (hrun : (setRefs name id refs).run repo = .ok u after) : after.ListsOnce := by
  obtain ⟨-, set, hset, rfl⟩ := setRefs_ok.mp hrun
  split
  · refine h.update hset (map_id_changeFirst fun old _ hold => ?_)
    rw [FileReference.withRefs, id_ofRefs, hold]
  · rename_i hnew
    exact h.withSet (nodup_append_new (h _ set hset) (by rwa [id_ofRefs]))

theorem ListsOnce.setReferenceComment {comment : Option String} {changed : Bool}
    (h : repo.ListsOnce)
    (hrun : (setReferenceComment name id comment).run repo = .ok changed after) :
    after.ListsOnce := by
  obtain ⟨set, hset, reference, href, hanswer⟩ := setReferenceComment_ok.mp hrun
  split at hanswer
  · obtain ⟨-, rfl⟩ := hanswer
    exact h
  · rename_i updated hupdated
    obtain ⟨-, rfl⟩ := hanswer
    exact h.update hset
      (map_id_changeFirst fun _ _ _ => (id_withComment? hupdated).trans (file?_id href))

theorem ListsOnce.moveStep {index : Nat} {move : Move} {moved : Bool} (h : repo.ListsOnce)
    (hrun : (moveStep name index move).run repo = .ok moved after) : after.ListsOnce := by
  obtain ⟨set, hset, -, hanswer⟩ := moveStep_ok.mp hrun
  split at hanswer
  · obtain ⟨-, rfl⟩ := hanswer
    exact h
  · obtain ⟨-, rfl⟩ := hanswer
    exact h.update hset rfl

theorem ListsOnce.rename {newName : String} {u : Unit} (h : repo.ListsOnce)
    (hrun : (rename name newName).run repo = .ok u after) : after.ListsOnce := by
  obtain ⟨set, hset, heffect⟩ := rename_ok.mp hrun
  split at heffect
  · subst heffect
    exact h
  · obtain ⟨-, -, rfl⟩ := heffect
    exact h.renamed hset

/-- One operation keeps the lists free of repetition, unless it takes in a document with one. -/
theorem ListsOnce.step (h : repo.ListsOnce) {op : Operation} (hop : op.BringsListedOnce) :
    (op.after repo).ListsOnce := by
  cases hrun : op.edit.run repo with
  | error error after =>
    rw [Operation.after_of_error hrun, op.allOrNothing repo error after hrun]
    exact h
  | ok answer after =>
    rw [Operation.after_of_ok hrun]
    cases op with
    | create name =>
      obtain ⟨-, -, -, rfl⟩ := create_ok.mp hrun
      exact h.withSet List.nodup_nil
    | delete name =>
      obtain ⟨-, rfl⟩ := delete_ok.mp hrun
      exact h.without _
    | rename name newName => exact h.rename hrun
    | describe name description =>
      obtain ⟨set, hset, rfl⟩ := describe_ok.mp hrun
      exact h.update hset rfl
    | setMode name mode =>
      obtain ⟨set, hset, rfl⟩ := setMode_ok.mp hrun
      exact h.update hset rfl
    | addUse source target =>
      obtain ⟨set, hset, -, -, rfl⟩ := addUse_ok.mp hrun
      exact h.update hset rfl
    | removeUse source target =>
      obtain ⟨set, hset, -, rfl⟩ := removeUse_ok.mp hrun
      exact h.update hset rfl
    | resolvePath path =>
      obtain ⟨-, rfl⟩ := resolvePath_ok.mp hrun
      exact h.withManifest _
    | setFileComment id comment =>
      obtain ⟨manifest, -, rfl⟩ := setFileComment_ok.mp hrun
      exact h.withManifest _
    | addFile name id => exact h.addFile hrun
    | addPath name path =>
      obtain ⟨-, -, hadd⟩ := addPath_ok.mp hrun
      exact (h.withManifest _).addFile hadd
    | removeFile name id =>
      obtain ⟨set, hset, -, rfl⟩ := removeFile_ok.mp hrun
      exact h.withSet ((h _ set hset).sublist (List.filter_sublist.map _))
    | setRefs name id refs => exact h.setRefs hrun
    | setReferenceComment name id comment => exact h.setReferenceComment hrun
    | prune =>
      obtain ⟨-, rfl⟩ := prune_ok.mp hrun
      exact h.withManifest _
    | addStep name step =>
      obtain ⟨-, set, hset, -, rfl⟩ := addStep_ok.mp hrun
      exact h.update hset rfl
    | updateStep name index step =>
      obtain ⟨-, set, hset, -, rfl⟩ := updateStep_ok.mp hrun
      exact h.update hset rfl
    | removeStep name index =>
      obtain ⟨set, hset, -, rfl⟩ := removeStep_ok.mp hrun
      exact h.update hset rfl
    | moveStep name index move => exact h.moveStep hrun
    | addEntryPoint name entry =>
      obtain ⟨-, set, hset, rfl⟩ := addEntryPoint_ok.mp hrun
      exact h.update hset rfl
    | removeEntryPoint name index =>
      obtain ⟨set, hset, -, rfl⟩ := removeEntryPoint_ok.mp hrun
      exact h.update hset rfl
    | replaceBy document =>
      obtain ⟨hdocument, -⟩ := replaceBy_ok.mp hrun
      exact (listsOnce_ofDocument hdocument).mpr (hop ⟨after, hdocument⟩)

theorem ListsOnce.afterAll {ops : List Operation} (h : repo.ListsOnce)
    (hops : ∀ op ∈ ops, op.BringsListedOnce) : (Operation.afterAll ops repo).ListsOnce := by
  induction ops generalizing repo with
  | nil => exact h
  | cons op rest ih =>
    obtain ⟨hop, hrest⟩ := List.forall_mem_cons.mp hops
    exact ih (h.step hop) hrest

end Repository

/-- As long as no document is taken in that lists a file twice, no set lists a file twice, whatever is
refused. A repository that is built from a document lists files once exactly if the document does. -/
theorem operations_list_files_once (ops : List Operation)
    (hops : ∀ op ∈ ops, op.BringsListedOnce) :
    (Operation.afterAll ops ∅).ListsOnce ∧
      ∀ document repo, Repository.ofDocument document = .ok repo →
        (repo.ListsOnce ↔ document.ListsOnce) :=
  ⟨Repository.ListsOnce.empty.afterAll hops, fun _ _ => Repository.listsOnce_ofDocument⟩

/-- A set of one file, which is then added again, and of which a function is named, and a document with
a file twice that is refused, as it does not say what the file is. -/
def againOperations : List Operation :=
  [.replaceBy {
      sets := ⟨[("context:s", { files := [.whole "f1"] })], by decide⟩
      files := ⟨[("f1", { path := "a" })], by decide⟩ },
    .replaceBy {
      sets := ⟨[("context:s", { files := [.whole "f1", .whole "f1"] })], by decide⟩
      files := ∅ },
    .addFile "s" "f1", .setRefs "s" "f1" [{ name := "main" }]]

theorem operations_list_files_once_again :
    (∀ op ∈ againOperations, op.BringsListedOnce) ∧
      (Operation.afterAll againOperations ∅).sets.get? "s" =
        some { name := "s", files := [.part "f1" { name := "main" } [] none] } ∧
      (Operation.afterAll againOperations ∅).ListsOnce := by
  have hops : ∀ op ∈ againOperations, op.BringsListedOnce := by
    refine List.forall_mem_cons.mpr ⟨fun _ => by decide, List.forall_mem_cons.mpr ⟨?_, ?_⟩⟩
    · rintro ⟨repo, hrepo⟩
      cases hrepo
    · simp [Operation.BringsListedOnce]
  exact ⟨hops, by decide, (operations_list_files_once againOperations hops).1⟩

/-- A document with a set that lists its only file twice. -/
def doubledDocument : Document where
  sets := ⟨[("context:s", { files := [.whole "f1", .whole "f1"] })], by decide⟩
  files := ⟨[("f1", { path := "a" })], by decide⟩

/-- A document is not searched for files that are listed twice. -/
theorem doubled_file_taken_in :
    ¬ (Operation.afterAll [.replaceBy doubledDocument] ∅).ListsOnce := by
  intro h
  have hset : (Operation.afterAll [.replaceBy doubledDocument] ∅).sets.get? "s" =
      some { name := "s", files := [.whole "f1", .whole "f1"] } := by decide
  exact absurd (h "s" _ hset) (by decide)

end ContextSets
