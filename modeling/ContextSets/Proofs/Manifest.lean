import ContextSets.Manifest
import ContextSets.Proofs.Table

/-!
# Registered files

What the operations on a manifest do to the files that are registered, and when its two tables tell
the same.
-/

namespace ContextSets

/-- A file under its normalized path, as it is registered. -/
def FileEntry.normalized (entry : FileEntry) : FileEntry :=
  { entry with path := Manifest.normalize entry.path }

namespace Manifest

variable {manifest : Manifest} {id key path : String}

theorem contains_iff : manifest.contains id = true ↔ ∃ entry, manifest.get? id = some entry :=
  Table.contains_iff

/-! ### Tables that agree -/

/-- Ids are found by paths exactly as paths are found by ids. -/
def Inverse (manifest : Manifest) : Prop :=
  ∀ path id, manifest.ids.get? path = some id ↔
    ∃ entry, manifest.files.get? id = some entry ∧ entry.path = path

/-- Every file is found by its path. The other way round, a path may lead to a file of another path. -/
def Found (manifest : Manifest) : Prop :=
  ∀ id entry, manifest.files.get? id = some entry → manifest.ids.get? entry.path = some id

theorem Inverse.found (h : manifest.Inverse) : manifest.Found :=
  fun id entry hentry => (h entry.path id).mpr ⟨entry, hentry, rfl⟩

/-- One path is that of one file. -/
theorem Inverse.id_eq {entry : FileEntry} (h : manifest.Inverse)
    (hid : manifest.ids.get? path = some id) (hentry : manifest.files.get? key = some entry)
    (hpath : entry.path = path) : key = id := by
  have hkey := (h path key).mpr ⟨entry, hentry, hpath⟩
  rw [hid] at hkey
  exact (Option.some.inj hkey).symm

/-- One id is that of one path. -/
theorem Inverse.path_eq {other : String} (h : manifest.Inverse)
    (hpath : manifest.ids.get? path = some id) (hother : manifest.ids.get? other = some id) :
    other = path := by
  obtain ⟨entry, hentry, rfl⟩ := (h path id).mp hpath
  obtain ⟨same, hsame, rfl⟩ := (h other id).mp hother
  rw [hentry] at hsame
  cases hsame
  rfl

/-- A path leads to the id of another exactly if both are spelled alike. -/
theorem Inverse.idOf?_eq_some_iff {other : String} (h : manifest.Inverse)
    (hid : manifest.idOf? path = some id) :
    manifest.idOf? other = some id ↔ normalize other = normalize path := by
  constructor
  · exact h.path_eq hid
  · intro heq
    rw [idOf?, heq]
    exact hid

/-- Paths are stored in their normal spelling. -/
def Normalized (manifest : Manifest) : Prop :=
  ∀ id entry, manifest.files.get? id = some entry → normalize entry.path = entry.path

theorem Normalized.normalized_eq (h : manifest.Normalized) {entry : FileEntry}
    (hentry : manifest.files.get? id = some entry) : entry.normalized = entry := by
  rw [FileEntry.normalized, h id entry hentry]

/-! ### Registering -/

theorem insert_eq_ok {after : Manifest} {entry : FileEntry} :
    manifest.insert id entry = .ok after ↔
      manifest.files.get? id = none ∧ manifest.ids.get? (normalize entry.path) = none ∧
        after = ⟨manifest.files.insert id entry.normalized,
          manifest.ids.insert (normalize entry.path) id⟩ := by
  unfold insert
  rw [← Table.contains_eq_false_iff, ← Table.contains_eq_false_iff, contains]
  cases manifest.files.contains id with
  | true => simp
  | false =>
    cases hpath : manifest.ids.contains (normalize entry.path) with
    | true => simp [hpath]
    | false =>
      simp only [hpath, Bool.false_eq_true, if_false, Except.ok.injEq, true_and]
      exact eq_comm

/-- A path that is new is registered under the id that it gets. -/
theorem contains_resolve_self (h : manifest.idOf? path = none) :
    (manifest.resolve path).2.contains (manifest.resolve path).1 = true := by
  simp [resolve, h, put, contains, Table.contains]

theorem contains_resolve (h : manifest.contains key = true) :
    (manifest.resolve path).2.contains key = true := by
  unfold resolve
  split
  · exact h
  · exact Table.contains_insert h

theorem contains_setComment {changed : Manifest} {comment : Option String}
    (hrun : manifest.setComment id comment = .ok changed) (h : manifest.contains key = true) :
    changed.contains key = true := by
  unfold setComment at hrun
  split at hrun
  · cases hrun
  · cases hrun
    exact Table.contains_insert h

/-- Pruning keeps what is to be kept. -/
theorem contains_prune {keep : String → Bool} :
    (manifest.prune keep).2.contains id = true ↔ manifest.contains id = true ∧ keep id = true := by
  simp only [prune, contains, Table.contains_iff, Table.get?_filter, Option.filter_eq_some_iff,
    exists_and_right]

end Manifest

end ContextSets
