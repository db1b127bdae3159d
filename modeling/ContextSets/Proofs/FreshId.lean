import ContextSets.Proofs.ManifestChange

/-!
# Ids of new paths

The digest of a path makes fourteen ids, and a new path gets the shortest of them that no file has.
As long as one of them is free, files keep their ids and the two tables of a manifest tell the same.
A document can take all fourteen; then the longest is given to the new path as well, and the file
that had it is lost.
-/

namespace ContextSets

namespace Manifest

variable {manifest after : Manifest} {id path : String} {entry : FileEntry}

/-- One of the ids that the digest of a path makes is free. -/
def HasRoom (manifest : Manifest) (path : String) : Prop :=
  ∃ digits ∈ idWidths, manifest.contains (derivedId (normalize path) digits) = false

instance (manifest : Manifest) (path : String) : Decidable (manifest.HasRoom path) :=
  inferInstanceAs
    (Decidable (∃ digits ∈ idWidths, manifest.contains (derivedId (normalize path) digits) = false))

/-- A new path gets a free id if there is one. -/
theorem contains_freshId (manifest : Manifest) (path : String) :
    manifest.contains (manifest.freshId path) = false ↔
      ∃ digits ∈ idWidths, manifest.contains (derivedId path digits) = false := by
  unfold freshId
  cases hfind : (idWidths.map (derivedId path)).find? (!manifest.files.contains ·) with
  | some id =>
    have hfree : manifest.contains id = false := by simpa [contains] using List.find?_some hfind
    obtain ⟨digits, hdigits, rfl⟩ := List.mem_map.mp (List.mem_of_find?_eq_some hfind)
    exact ⟨fun _ => ⟨digits, hdigits, hfree⟩, fun _ => hfree⟩
  | none =>
    -- all are taken, the longest among them
    have htaken : ∀ digits ∈ idWidths, manifest.contains (derivedId path digits) = true := by
      simpa [contains] using hfind
    constructor
    · intro hlongest
      exact ⟨64, by decide, hlongest⟩
    · intro hgiven
      obtain ⟨digits, hdigits, hfree⟩ := hgiven
      rw [htaken digits hdigits] at hfree
      cases hfree

/-! ### Tables that keep agreeing -/

theorem Inverse.put {comment : Option String} (h : manifest.Inverse)
    (hpath : manifest.ids.get? path = none) (hid : manifest.files.get? id = none) :
    (manifest.put id path comment).Inverse := by
  intro other key
  rw [put_files, put_ids, Table.get?_insert, Table.get?_insert]
  by_cases hkey : id = key
  · subst hkey
    rw [if_pos rfl]
    by_cases hother : path = other
    · subst hother
      simp
    -- the id is new, so no other path leads to it
    · have hnone : ¬ manifest.ids.get? other = some id := fun hold => by
        obtain ⟨entry, hentry, -⟩ := (h other id).mp hold
        rw [hid] at hentry
        cases hentry
      simp [hother, hnone]
  · rw [if_neg hkey]
    by_cases hother : path = other
    -- the path is new, so no other file has it
    · subst hother
      have hnone : ¬ ∃ entry, manifest.files.get? key = some entry ∧ entry.path = path := by
        rw [← h path key, hpath]
        exact Option.some_ne_none key ∘ Eq.symm
      simp [hkey, hnone]
    · rw [if_neg hother]
      exact h other key

theorem Inverse.resolve (h : manifest.Inverse)
    (hroom : manifest.idOf? path = none → manifest.HasRoom path) :
    (manifest.resolve path).2.Inverse := by
  cases hpath : manifest.idOf? path with
  | some id =>
    rw [resolve_of_known hpath]
    exact h
  | none =>
    rw [resolve_of_new hpath]
    have hfree := (contains_freshId manifest (normalize path)).mpr (hroom hpath)
    exact h.put hpath (Table.contains_eq_false_iff.mp hfree)

theorem Inverse.setComment {comment : Option String} (h : manifest.Inverse)
    (hrun : manifest.setComment id comment = .ok after) : after.Inverse := by
  obtain ⟨old, hold, rfl⟩ := setComment_eq_ok.mp hrun
  intro path key
  rw [h path key, Table.get?_insert]
  by_cases hkey : id = key
  · subst hkey
    simp [hold]
  · rw [if_neg hkey]

theorem Inverse.prune (h : manifest.Inverse) (keep : String → Bool) :
    (manifest.prune keep).2.Inverse := by
  intro path id
  simp only [ids_prune, files_prune]
  constructor
  · intro hgiven
    obtain ⟨hid, hkeep⟩ := hgiven
    obtain ⟨entry, hentry, hpath⟩ := (h path id).mp hid
    exact ⟨entry, ⟨hentry, hkeep id entry hentry hpath⟩, hpath⟩
  · intro hgiven
    obtain ⟨entry, ⟨hentry, hkeep⟩, hpath⟩ := hgiven
    have hid := (h path id).mpr ⟨entry, hentry, hpath⟩
    refine ⟨hid, fun other entry' hentry' hpath' => ?_⟩
    obtain rfl := h.id_eq hid hentry' hpath'
    exact hkeep

/-- The tables tell the same after every change that meets no new path for which all ids are taken. -/
theorem Inverse.change {paths : List String} (h : manifest.Inverse)
    (hroom : ∀ path ∈ paths, manifest.idOf? path = none → manifest.HasRoom path)
    (hchange : Change paths manifest after) : after.Inverse := by
  cases hchange with
  | none => exact h
  | resolve hpath => exact h.resolve (hroom _ hpath)
  | setComment hrun => exact h.setComment hrun
  | prune keep => exact h.prune keep
  | replace hdocument _ => exact (Repository.describes_ofDocument hdocument).inverse

/-! ### Calls on a manifest that was taken in -/

/-- The manifests that come from accepted documents by calls, of which none meets a new path for
which all ids are taken. -/
inductive Grown : Manifest → Prop
  | takenIn {document : Document} {repo : Repository}
      (h : Repository.ofDocument document = .ok repo) : Grown repo.manifest
  | resolve {manifest : Manifest} (h : Grown manifest) (path : String)
      (hroom : manifest.idOf? path = none → manifest.HasRoom path) :
      Grown (manifest.resolve path).2
  | setComment {manifest after : Manifest} (h : Grown manifest) {id : String}
      {comment : Option String} (hrun : manifest.setComment id comment = .ok after) : Grown after
  | prune {manifest : Manifest} (h : Grown manifest) (keep : String → Bool) :
      Grown (manifest.prune keep).2

theorem Grown.inverse (h : manifest.Grown) : manifest.Inverse := by
  induction h with
  | takenIn h => exact (Repository.describes_ofDocument h).inverse
  | resolve _ path hroom ih => exact ih.resolve hroom
  | setComment _ hrun ih => exact ih.setComment hrun
  | prune _ keep ih => exact ih.prune keep

/-- A file keeps its entry when another path is registered under a free id. -/
theorem get?_put_of_free {comment : Option String} (hfree : manifest.contains id = false)
    {other : String} (h : manifest.get? other = some entry) :
    (manifest.put id path comment).get? other = some entry := by
  rw [get?, put_files, Table.get?_insert, if_neg]
  · exact h
  · rintro rfl
    rw [Manifest.contains, Table.contains_eq_false_iff] at hfree
    rw [get?, hfree] at h
    cases h

end Manifest

/-- A path that is not registered gets an id that no file has exactly if one of its fourteen ids is
free. Then it is registered under that id without a note, every file keeps its entry, and ids are
found by paths exactly as paths by ids. -/
theorem new_path_gets_free_id {manifest : Manifest} (h : manifest.Grown) {path : String}
    (hnew : manifest.idOf? path = none) :
    (manifest.contains (manifest.resolve path).1 = false ↔ manifest.HasRoom path) ∧
      (manifest.HasRoom path →
        (manifest.resolve path).2.get? (manifest.resolve path).1 =
            some { path := Manifest.normalize path } ∧
          (∀ id entry, manifest.get? id = some entry →
            (manifest.resolve path).2.get? id = some entry) ∧
          (manifest.resolve path).2.Inverse) := by
  have hfresh := Manifest.contains_freshId manifest (Manifest.normalize path)
  have hinverse : manifest.HasRoom path → (manifest.resolve path).2.Inverse :=
    fun hroom => h.inverse.resolve fun _ => hroom
  rw [Manifest.resolve_of_new hnew] at hinverse ⊢
  refine ⟨hfresh, fun hroom => ⟨?_, fun id entry hentry => ?_, hinverse hroom⟩⟩
  · rw [Manifest.get?, Manifest.put_files, Table.get?_insert, if_pos rfl]
  · exact Manifest.get?_put_of_free (hfresh.mpr hroom) hentry

/-- A document whose only file has the shortest id that the digest of "a" makes. -/
def borrowedDocument : Document where
  sets := ∅
  files := ⟨[("fca978112ca1b", { path := "b" })], by decide⟩

/-- The repository of that document. -/
def borrowedRepository : Repository where
  manifest := {
    files := ⟨[("fca978112ca1b", { path := "b" })], by decide⟩
    ids := ⟨[("b", "fca978112ca1b")], by decide⟩ }
  sets := ∅

theorem new_path_gets_free_id_borrowed :
    borrowedRepository.manifest.Grown ∧ borrowedRepository.manifest.idOf? "a" = none ∧
      (borrowedRepository.manifest.resolve "a").1 = "fca978112ca1bbdca" ∧
      (borrowedRepository.manifest.resolve "a").2.get? "fca978112ca1b" = some { path := "b" } ∧
      (borrowedRepository.manifest.resolve "a").2.Inverse := by
  have hgrown : borrowedRepository.manifest.Grown := by
    have hbuilt : Repository.ofDocument borrowedDocument = .ok borrowedRepository := by decide
    exact .takenIn hbuilt
  have hnew : borrowedRepository.manifest.idOf? "a" = none := by decide
  have hroom : borrowedRepository.manifest.HasRoom "a" := by decide +kernel
  obtain ⟨-, hkept⟩ := new_path_gets_free_id hgrown hnew
  obtain ⟨-, hentries, hinverse⟩ := hkept hroom
  exact ⟨hgrown, hnew, by decide +kernel, hentries _ _ (by decide), hinverse⟩

/-- The fourteen ids that the digest of "a" makes, each with the path of another file. -/
def crowd : List (String × String) :=
  (Manifest.idWidths.map (Manifest.derivedId "a")).zip
    ["b", "c", "d", "e", "f", "g", "h", "i", "j", "k", "l", "m", "n", "o"]

/-- A document with these files. -/
def crowdedDocument : Document where
  sets := ∅
  files := .ofList (crowd.map fun file => (file.1, { path := file.2 }))

/-- The repository of that document. -/
def crowdedRepository : Repository where
  manifest := {
    files := .ofList (crowd.map fun file => (file.1, { path := file.2 }))
    ids := .ofList (crowd.map Prod.swap) }
  sets := ∅

/-- The file with the longest id loses its entry to the new path, and its own path then leads to a
file of another path. -/
theorem crowded_document_loses_file :
    Repository.ofDocument crowdedDocument = .ok crowdedRepository ∧
      ∃ longest, crowdedRepository.manifest.get? longest = some { path := "o" } ∧
        crowdedRepository.manifest.idOf? "a" = none ∧
        (crowdedRepository.manifest.resolve "a").1 = longest ∧
        (crowdedRepository.manifest.resolve "a").2.get? longest = some { path := "a" } ∧
        (crowdedRepository.manifest.resolve "a").2.idOf? "o" = some longest := by
  refine ⟨by decide +kernel, Manifest.derivedId "a" 64, ?_⟩
  decide +kernel

end ContextSets
