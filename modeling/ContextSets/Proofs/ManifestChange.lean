import ContextSets.Proofs.AllOrNothing
import ContextSets.Proofs.Acceptance

/-!
# How operations change the manifest

Whatever an operation does, to the manifest it does nothing or one of four things: a path is
resolved, a note is replaced, files are pruned, or the files of a document take the place of all.
What these keep, every run of operations keeps.
-/

namespace ContextSets

/-- The paths that an operation gives. -/
def Operation.paths : Operation → List String
  | .resolvePath path | .addPath _ path => [path]
  | .replaceBy document => document.files.values.map (·.path)
  | _ => []

namespace Manifest

variable {manifest after : Manifest} {id path : String} {entry : FileEntry}

/-! ### Look-ups after a change -/

theorem resolve_of_known (h : manifest.idOf? path = some id) :
    manifest.resolve path = (id, manifest) := by
  rw [resolve, h]

theorem resolve_of_new (h : manifest.idOf? path = none) :
    manifest.resolve path =
      (manifest.freshId (normalize path),
        manifest.put (manifest.freshId (normalize path)) (normalize path) none) := by
  rw [resolve, h]

@[simp] theorem put_files (manifest : Manifest) (id path : String) (comment : Option String) :
    (manifest.put id path comment).files = manifest.files.insert id ⟨path, comment⟩ := rfl

@[simp] theorem put_ids (manifest : Manifest) (id path : String) (comment : Option String) :
    (manifest.put id path comment).ids = manifest.ids.insert path id := rfl

/-- A path that is resolved is registered under the id that it gets. -/
theorem idOf?_resolve (manifest : Manifest) (path : String) :
    (manifest.resolve path).2.idOf? path = some (manifest.resolve path).1 := by
  cases hpath : manifest.idOf? path with
  | some id => rw [resolve_of_known hpath, hpath]
  | none => rw [resolve_of_new hpath, idOf?, put_ids, Table.get?_insert, if_pos rfl]

/-- A registered path keeps its id when another one is resolved. -/
theorem ids_resolve_of_known (h : manifest.ids.get? path = some id) (new : String) :
    (manifest.resolve new).2.ids.get? path = some id := by
  cases hnew : manifest.idOf? new with
  | some known =>
    rw [resolve_of_known hnew]
    exact h
  | none =>
    -- the new path is another one, as it is not registered
    have hother : normalize new ≠ path := by
      rintro rfl
      rw [idOf?, h] at hnew
      cases hnew
    rw [resolve_of_new hnew, put_ids, Table.get?_insert, if_neg hother]
    exact h

theorem setComment_eq_ok {comment : Option String} :
    manifest.setComment id comment = .ok after ↔
      ∃ entry, manifest.files.get? id = some entry ∧
        after = { manifest with
          files := manifest.files.insert id
            { entry with comment := comment.bind Text.nonBlank? } } := by
  unfold setComment get?
  cases manifest.files.get? id with
  | none => simp
  | some entry => simp [eq_comm]

theorem files_prune {keep : String → Bool} :
    (manifest.prune keep).2.files.get? id = some entry ↔
      manifest.files.get? id = some entry ∧ keep id = true := by
  rw [prune, Table.get?_filter, Option.filter_eq_some_iff]

theorem ids_prune {keep : String → Bool} :
    (manifest.prune keep).2.ids.get? path = some id ↔
      manifest.ids.get? path = some id ∧
        ∀ other entry, manifest.files.get? other = some entry → entry.path = path →
          keep other = true := by
  rw [prune, Table.get?_filter, Option.filter_eq_some_iff]
  refine and_congr_right fun _ => ?_
  simp only [Bool.not_eq_true', List.contains_eq_mem, decide_eq_false_iff_not, List.mem_map,
    List.mem_filter, Prod.exists, ← Table.get?_eq_some_iff]
  constructor
  · intro hpath other entry hentry heq
    by_contra hdrop
    exact hpath ⟨other, entry, ⟨hentry, by simpa using hdrop⟩, heq⟩
  · intro hkeep hgiven
    obtain ⟨other, entry, ⟨hentry, hdrop⟩, heq⟩ := hgiven
    rw [hkeep other entry hentry heq] at hdrop
    cases hdrop

/-! ### Changes -/

/-- What an operation that gives some paths may make of a manifest. -/
inductive Change (paths : List String) (manifest : Manifest) : Manifest → Prop
  | none : Change paths manifest manifest
  | resolve {path : String} (h : path ∈ paths) : Change paths manifest (manifest.resolve path).2
  | setComment {id : String} {comment : Option String} {after : Manifest}
      (h : manifest.setComment id comment = .ok after) : Change paths manifest after
  | prune (keep : String → Bool) : Change paths manifest (manifest.prune keep).2
  | replace {document : Document} {repo : Repository}
      (h : Repository.ofDocument document = .ok repo)
      (hpaths : ∀ entry ∈ document.files.values, entry.path ∈ paths) :
      Change paths manifest repo.manifest

end Manifest

namespace Repository

theorem manifest_addFile {repo after : Repository} {name id : String} {added : Bool}
    (hrun : (addFile name id).run repo = .ok added after) : after.manifest = repo.manifest := by
  obtain ⟨-, set, -, -, rfl⟩ := addFile_ok.mp hrun
  split
  · rfl
  · rfl

/-- One operation makes one of the known changes. -/
theorem change_after (op : Operation) (repo : Repository) :
    Manifest.Change op.paths repo.manifest (op.after repo).manifest := by
  cases hrun : op.edit.run repo with
  | error error after =>
    rw [Operation.after_of_error hrun, op.allOrNothing repo error after hrun]
    exact .none
  | ok answer after =>
    rw [Operation.after_of_ok hrun]
    cases op with
    | resolvePath path =>
      obtain ⟨-, rfl⟩ := resolvePath_ok.mp hrun
      exact .resolve List.mem_cons_self
    | addPath name path =>
      obtain ⟨-, -, hadd⟩ := addPath_ok.mp hrun
      rw [manifest_addFile hadd]
      exact .resolve List.mem_cons_self
    | setFileComment id comment =>
      obtain ⟨manifest, hcomment, rfl⟩ := setFileComment_ok.mp hrun
      exact .setComment hcomment
    | prune =>
      obtain ⟨-, rfl⟩ := prune_ok.mp hrun
      exact .prune _
    | replaceBy document =>
      obtain ⟨hdocument, -⟩ := replaceBy_ok.mp hrun
      exact .replace hdocument fun entry hentry => List.mem_map_of_mem hentry
    -- the others change sets only
    | create name =>
      obtain ⟨-, -, -, rfl⟩ := create_ok.mp hrun
      exact .none
    | delete name =>
      obtain ⟨-, rfl⟩ := delete_ok.mp hrun
      exact .none
    | rename name newName =>
      obtain ⟨set, -, heffect⟩ := rename_ok.mp hrun
      split at heffect
      · subst heffect
        exact .none
      · obtain ⟨-, -, rfl⟩ := heffect
        exact .none
    | describe name description =>
      obtain ⟨set, -, rfl⟩ := describe_ok.mp hrun
      exact .none
    | setMode name mode =>
      obtain ⟨set, -, rfl⟩ := setMode_ok.mp hrun
      exact .none
    | addUse source target =>
      obtain ⟨set, -, -, -, rfl⟩ := addUse_ok.mp hrun
      exact .none
    | removeUse source target =>
      obtain ⟨set, -, -, rfl⟩ := removeUse_ok.mp hrun
      exact .none
    | addFile name id =>
      rw [manifest_addFile hrun]
      exact .none
    | removeFile name id =>
      obtain ⟨set, -, -, rfl⟩ := removeFile_ok.mp hrun
      exact .none
    | setRefs name id refs =>
      obtain ⟨-, set, -, rfl⟩ := setRefs_ok.mp hrun
      exact .none
    | setReferenceComment name id comment =>
      obtain ⟨set, -, reference, -, hanswer⟩ := setReferenceComment_ok.mp hrun
      split at hanswer
      · obtain ⟨-, rfl⟩ := hanswer
        exact .none
      · obtain ⟨-, rfl⟩ := hanswer
        exact .none
    | addStep name step =>
      obtain ⟨-, set, -, -, rfl⟩ := addStep_ok.mp hrun
      exact .none
    | updateStep name index step =>
      obtain ⟨-, set, -, -, rfl⟩ := updateStep_ok.mp hrun
      exact .none
    | removeStep name index =>
      obtain ⟨set, -, -, rfl⟩ := removeStep_ok.mp hrun
      exact .none
    | moveStep name index move =>
      obtain ⟨set, -, -, hanswer⟩ := moveStep_ok.mp hrun
      split at hanswer
      · obtain ⟨-, rfl⟩ := hanswer
        exact .none
      · obtain ⟨-, rfl⟩ := hanswer
        exact .none
    | addEntryPoint name entry =>
      obtain ⟨-, set, -, rfl⟩ := addEntryPoint_ok.mp hrun
      exact .none
    | removeEntryPoint name index =>
      obtain ⟨set, -, -, rfl⟩ := removeEntryPoint_ok.mp hrun
      exact .none

/-- What every change keeps that the paths of the operations allow, runs of operations keep. -/
theorem manifest_afterAll {P : Manifest → Prop} {Q : List String → Prop} {repo : Repository}
    (hchange : ∀ paths before after, Q paths → P before → Manifest.Change paths before after →
      P after)
    (hrepo : P repo.manifest) {ops : List Operation} (hops : ∀ op ∈ ops, Q op.paths) :
    P (Operation.afterAll ops repo).manifest := by
  induction ops generalizing repo with
  | nil => exact hrepo
  | cons op rest ih =>
    obtain ⟨hop, hrest⟩ := List.forall_mem_cons.mp hops
    exact ih (hchange _ _ _ hop hrepo (change_after op repo)) hrest

end Repository

end ContextSets
