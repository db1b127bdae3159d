import ContextSets.Proofs.JsonForms
import ContextSets.Proofs.ManifestChange
import ContextSets.Proofs.PathSpelling
import ContextSets.Proofs.Reachable
import ContextSets.Proofs.RoundTrip

/-!
# Stored paths

Stored paths come from normalizing what is given, and every file is found under its stored path.
Where no path comes to start with a blank, looking up a stored path normalizes it to itself, so
files are found by it, and a saved repository is read again with all its files and sets.
-/

namespace ContextSets

namespace Manifest

variable {manifest after : Manifest} {paths : List String} {P : String → Prop}

/-- Every stored path has a property. -/
def Paths (P : String → Prop) (manifest : Manifest) : Prop :=
  ∀ id entry, manifest.files.get? id = some entry → P entry.path

theorem Paths.empty (P : String → Prop) : (∅ : Manifest).Paths P :=
  fun _ _ h => nomatch h

/-! ### Files are found by their paths -/

theorem Found.empty : (∅ : Manifest).Found :=
  fun _ _ h => nomatch h

/-- Registering a new path hides no file, even if the id was taken: the path is not that of another
file. -/
theorem Found.put {id path : String} {comment : Option String} (h : manifest.Found)
    (hnew : manifest.ids.get? path = none) : (manifest.put id path comment).Found := by
  intro other entry hentry
  rw [put_files, Table.get?_insert] at hentry
  rw [put_ids, Table.get?_insert]
  split at hentry
  · rename_i heq
    cases hentry
    rw [if_pos rfl, heq]
  · have hold := h other entry hentry
    rw [if_neg, hold]
    rintro rfl
    rw [hnew] at hold
    cases hold

theorem Found.change (h : manifest.Found) (hchange : Change paths manifest after) :
    after.Found := by
  cases hchange with
  | none => exact h
  | @resolve path _ =>
    cases hpath : manifest.idOf? path with
    | some id =>
      rw [resolve_of_known hpath]
      exact h
    | none =>
      rw [resolve_of_new hpath]
      exact h.put hpath
  | @setComment id comment _ hcomment =>
    obtain ⟨old, hold, rfl⟩ := setComment_eq_ok.mp hcomment
    intro other entry hentry
    rw [Table.get?_insert] at hentry
    split at hentry
    · rename_i heq
      cases hentry
      exact heq ▸ h id old hold
    · exact h other entry hentry
  | prune keep =>
    intro id entry hentry
    obtain ⟨hold, hkeep⟩ := files_prune.mp hentry
    refine ids_prune.mpr ⟨h id entry hold, fun other entry' hother hpath => ?_⟩
    -- no other file has the path
    have hsame := h other entry' hother
    rw [hpath, h id entry hold] at hsame
    exact Option.some.inj hsame ▸ hkeep
  | replace hdocument _ => exact (Repository.describes_ofDocument hdocument).inverse.found

/-! ### Properties of stored paths -/

theorem Paths.change (hpaths : ∀ path ∈ paths, P (normalize path)) (h : manifest.Paths P)
    (hchange : Change paths manifest after) : after.Paths P := by
  cases hchange with
  | none => exact h
  | @resolve path hpath =>
    cases hknown : manifest.idOf? path with
    | some id =>
      rw [resolve_of_known hknown]
      exact h
    | none =>
      rw [resolve_of_new hknown]
      intro other entry hentry
      rw [put_files, Table.get?_insert] at hentry
      split at hentry
      · cases hentry
        exact hpaths path hpath
      · exact h other entry hentry
  | @setComment id comment _ hcomment =>
    obtain ⟨old, hold, rfl⟩ := setComment_eq_ok.mp hcomment
    intro other entry hentry
    rw [Table.get?_insert] at hentry
    split at hentry
    · cases hentry
      exact h id old hold
    · exact h other entry hentry
  | prune keep => exact fun id entry hentry => h id entry (files_prune.mp hentry).1
  | replace hdocument hgiven =>
    intro id file hfile
    have hdescribes := Repository.describes_ofDocument hdocument
    obtain ⟨entry, hentry, rfl⟩ := (hdescribes.files id file).mp hfile
    exact hpaths _ (hgiven entry (Table.mem_values.mpr ⟨id, hentry⟩))

end Manifest

namespace Repository

variable {repo : Repository} {ops : List Operation}

theorem found_afterAll (ops : List Operation) : (Operation.afterAll ops ∅).manifest.Found :=
  manifest_afterAll (Q := fun _ => True) (fun _ _ _ _ h => h.change) Manifest.Found.empty
    fun _ _ => trivial

theorem Reachable.found (h : repo.Reachable) : repo.manifest.Found := by
  obtain ⟨ops, rfl⟩ := reachable_iff.mp h
  exact found_afterAll ops

theorem paths_afterAll {P : String → Prop}
    (hops : ∀ op ∈ ops, ∀ path ∈ op.paths, P (Manifest.normalize path)) :
    (Operation.afterAll ops ∅).manifest.Paths P :=
  manifest_afterAll (fun _ _ _ hpaths h => h.change hpaths) (Manifest.Paths.empty P) hops

/-- What is read back from the document has the same files, also if some paths lead to other files.
-/
theorem Consistent.reload (h : repo.Consistent) (hfound : repo.manifest.Found)
    (hnormalized : repo.manifest.Normalized) :
    ∃ other, ofDocument repo.document = .ok other ∧
      other.manifest.files = repo.manifest.files ∧ other.sets = repo.sets := by
  obtain ⟨other, hother⟩ := ofDocument_ok_iff.mpr (h.acceptable_of_found hfound hnormalized)
  have hdescribes := describes_ofDocument hother
  refine ⟨other, hother, Table.ext_some fun id file => ?_, Table.ext_some fun key set => ?_⟩
  · rw [hdescribes.files]
    constructor
    · intro hgiven
      obtain ⟨entry, hentry, rfl⟩ := hgiven
      rw [hnormalized.normalized_eq hentry]
      exact hentry
    · intro hfile
      exact ⟨file, hfile, (hnormalized.normalized_eq hfile).symm⟩
  · rw [hdescribes.sets, h.sets_document]

end Repository

/-- In every repository that operations lead to, a stored path is its own normal spelling exactly if
it does not start with a blank. If no path that is given comes to start with one, every file is
found by its stored path, and the text of the document is read back as it was, into a repository
with the same files and sets. -/
theorem stored_paths_canonical (ops : List Operation) :
    (∀ id entry, (Operation.afterAll ops ∅).manifest.get? id = some entry →
      (Manifest.normalize entry.path = entry.path ↔ Manifest.startsBlank entry.path = false)) ∧
    ((∀ op ∈ ops, ∀ path ∈ op.paths, Manifest.startsBlank (Manifest.normalize path) = false) →
      ∀ repo, repo = Operation.afterAll ops ∅ →
        (∀ id entry, repo.manifest.get? id = some entry →
          Manifest.normalize entry.path = entry.path ∧
            repo.manifest.idOf? entry.path = some id) ∧
        Document.ofText repo.document.text = .ok repo.document ∧
        ∃ other, Repository.ofDocument repo.document = .ok other ∧
          other.manifest.files = repo.manifest.files ∧ other.sets = repo.sets) := by
  have hplain : (Operation.afterAll ops ∅).manifest.Paths (Manifest.Plain ·.toList) :=
    Repository.paths_afterAll fun _ _ path _ => Manifest.plain_normalize path
  refine ⟨fun id entry hentry => (hplain id entry hentry).normalize_eq_iff, ?_⟩
  rintro hops repo rfl
  have hstart := Repository.paths_afterAll (P := (Manifest.startsBlank · = false)) hops
  have hnormalized : (Operation.afterAll ops ∅).manifest.Normalized := fun id entry hentry =>
    (hplain id entry hentry).normalize_eq_iff.mpr (hstart id entry hentry)
  have hfound := Repository.found_afterAll ops
  have hconsistent := (Repository.Reachable.empty.afterAll ops).consistent
  refine ⟨fun id entry hentry => ⟨hnormalized id entry hentry, ?_⟩, ?_,
    hconsistent.reload hfound hnormalized⟩
  · rw [Manifest.idOf?, hnormalized id entry hentry]
    exact hfound id entry hentry
  · rw [Document.ofText, Document.text, (Document.faithful.legible _).read?_pretty,
      Option.bind_some, Document.faithful.read_write]

/-- A path in two spellings and a path with blanks around it. -/
def spelledOperations : List Operation :=
  [.create "s", .resolvePath ".\\src\\login.ts", .addPath "s" " ././src/login.ts",
    .addPath "s" " my file.ts "]

theorem stored_paths_canonical_spelled :
    (∀ op ∈ spelledOperations, ∀ path ∈ op.paths,
      Manifest.startsBlank (Manifest.normalize path) = false) ∧
    (Operation.afterAll spelledOperations ∅).manifest.ids.keys = ["my file.ts", "src/login.ts"] ∧
    ∃ other, Repository.ofDocument (Operation.afterAll spelledOperations ∅).document = .ok other ∧
      other.manifest.files = (Operation.afterAll spelledOperations ∅).manifest.files ∧
      other.sets = (Operation.afterAll spelledOperations ∅).sets := by
  have hops : ∀ op ∈ spelledOperations, ∀ path ∈ op.paths,
      Manifest.startsBlank (Manifest.normalize path) = false := by decide
  exact ⟨hops, by decide +kernel, ((stored_paths_canonical spelledOperations).2 hops _ rfl).2.2⟩

/-- A file under a path whose blank comes to light, and a file under the path without it. -/
def spacedRepository : Repository :=
  Operation.afterAll [.resolvePath "./ a", .resolvePath "a"] ∅

/-- The file is stored under a path that leads to the other file, and the document is refused. -/
theorem spaced_path_not_canonical :
    spacedRepository.manifest.get? "f7de598b3ff8a" = some { path := " a" } ∧
      Manifest.normalize " a" = "a" ∧
      spacedRepository.manifest.idOf? " a" = some "fca978112ca1b" ∧
      Repository.ofDocument spacedRepository.document = .error (.duplicateFilePath "a") := by
  refine ⟨?_, ?_, ?_, ?_⟩
  · decide +kernel
  · decide
  · decide +kernel
  · decide +kernel

end ContextSets
