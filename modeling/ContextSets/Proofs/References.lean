import ContextSets.Closure
import ContextSets.Proofs.Acceptance

/-!
# References taken together

References are merged one after another. What comes out is stated for all references at once: each
file in the order of first reference, as a whole if any reference covers it, and otherwise with the
first function of each name.
-/

namespace ContextSets

open Repository

/-! ### What references include together -/

namespace Inclusion

theorem union_append (start refs more : List FunctionRef) :
    union start (refs ++ more) = union (union start refs) more := by
  induction refs generalizing start with
  | nil => rfl
  | cons ref rest ih =>
    simp only [List.cons_append, union]
    split
    · exact ih start
    · exact ih (start ++ [ref])

/-- Names are appended if they are new. -/
theorem map_name_union (start refs : List FunctionRef) :
    (union start refs).map (·.name) = (refs.map (·.name)).foldl appendNew (start.map (·.name)) := by
  induction refs generalizing start with
  | nil => rfl
  | cons ref rest ih =>
    have hknown : (start.map (·.name)).contains ref.name = start.any (·.name == ref.name) := by
      rw [Bool.eq_iff_iff]
      simp
    simp only [union, List.map_cons, List.foldl_cons, appendNew, hknown]
    split
    · exact ih start
    · rw [ih, List.map_append]
      rfl

/-- Of the functions of one name the first is kept. -/
theorem find?_of_mem_union {start refs : List FunctionRef} {ref : FunctionRef}
    (hstart : ∀ old ∈ start, start.find? (·.name == old.name) = some old)
    (h : ref ∈ union start refs) : (start ++ refs).find? (·.name == ref.name) = some ref := by
  induction refs generalizing start with
  | nil => simpa using hstart ref h
  | cons first rest ih =>
    rw [union] at h
    split at h
    -- a name that is known is found before the new function of the name
    · rename_i hknown
      have hfound := ih hstart h
      rw [List.find?_append] at hfound ⊢
      by_cases hname : first.name = ref.name
      · rw [hname] at hknown
        have hsome : (start.find? (·.name == ref.name)).isSome := by simpa using hknown
        obtain ⟨old, hold⟩ := Option.isSome_iff_exists.mp hsome
        rw [hold] at hfound ⊢
        exact hfound
      · rw [List.find?_cons_of_neg (by simpa using hname)]
        exact hfound
    · rename_i hnew
      have hfresh : start.find? (·.name == first.name) = none := by simpa using hnew
      rw [List.append_cons]
      refine ih (fun old hold => ?_) h
      rw [List.find?_append]
      rcases List.mem_append.mp hold with hold | hold
      · rw [hstart old hold]
        rfl
      · obtain rfl := List.mem_singleton.mp hold
        simp [hfresh]

/-- Some functions, with one of each name: the first, in the order in which the names come up. -/
structure Firsts (functions kept : List FunctionRef) : Prop where
  names : kept.map (·.name) = (functions.map (·.name)).eraseDups
  first : ∀ ref ∈ kept, functions.find? (·.name == ref.name) = some ref

theorem firsts_union (functions : List FunctionRef) : Firsts functions (union [] functions) where
  names := by
    rw [map_name_union, foldl_appendNew]
    simp
  first := fun _ => find?_of_mem_union (List.forall_mem_nil _)

/-- What references to one file include together: all of it if any reference covers it, and otherwise
the functions of all references, of each name the first. -/
def ofAll (references : List FileReference) : Inclusion :=
  if references.any (·.isWhole) then .whole
  else .functions (union [] (references.flatMap (·.refs)))

theorem ofAll_eq_whole_iff {references : List FileReference} :
    ofAll references = .whole ↔ ∃ reference ∈ references, reference.isWhole = true := by
  rw [ofAll, ← List.any_eq_true]
  split <;> simp_all

theorem ofAll_of_parts {references : List FileReference}
    (h : ∀ reference ∈ references, reference.isWhole = false) :
    ofAll references = .functions (union [] (references.flatMap (·.refs))) := by
  rw [ofAll, if_neg (by simpa using h)]

theorem ofReference_eq (reference : FileReference) : ofReference reference = ofAll [reference] := by
  simp [ofReference, ofAll]

theorem merge_ofAll (references : List FileReference) (reference : FileReference) :
    (ofAll references).merge reference = ofAll (references ++ [reference]) := by
  unfold ofAll
  rw [List.any_append, List.flatMap_append, union_append]
  cases references.any (·.isWhole) with
  | true => rfl
  | false => simp [merge]

end Inclusion

namespace Closure

/-- Files that references come to: each file once in the order of first reference, as it is
registered, with what all references to it include and the note on the first. -/
structure Collects (manifest : Manifest) (references : List FileReference)
    (files : List ResolvedFile) : Prop where
  ids : files.map (·.id) = (references.map (·.id)).foldl appendNew []
  entries : ∀ file ∈ files, manifest.get? file.id = some file.entry
  inclusion : ∀ file ∈ files, file.inclusion = .ofAll (references.filter (·.id == file.id))
  comment : ∀ file ∈ files,
    (references.find? (·.id == file.id)).map (·.comment) = some file.comment

variable {manifest : Manifest} {references : List FileReference} {files : List ResolvedFile}
  {reference : FileReference}

theorem Collects.nil (manifest : Manifest) : Collects manifest [] [] where
  ids := rfl
  entries := by simp
  inclusion := by simp
  comment := by simp

theorem nodup_foldl_appendNew {names start : List String} (h : start.Nodup) :
    (names.foldl appendNew start).Nodup := by
  induction names generalizing start with
  | nil => exact h
  | cons name rest ih => exact ih (nodup_appendNew h)

theorem Collects.nodup (h : Collects manifest references files) : (files.map (·.id)).Nodup := by
  rw [h.ids]
  exact nodup_foldl_appendNew List.nodup_nil

/-- The files are those that references refer to. -/
theorem Collects.mem_ids (h : Collects manifest references files) {id : String} :
    id ∈ files.map (·.id) ↔ ∃ reference ∈ references, reference.id = id := by
  rw [h.ids, foldl_appendNew]
  simp

/-- A file with a further reference merged in, if the reference is to it. -/
def merged (reference : FileReference) (file : ResolvedFile) : ResolvedFile :=
  { file with
    inclusion :=
      if file.id = reference.id then file.inclusion.merge reference else file.inclusion }

/-- If each file is listed once, merging changes the one that the reference is to. -/
theorem mergeInto_eq_map (hnodup : (files.map (·.id)).Nodup) :
    mergeInto reference files = files.map (merged reference) := by
  induction files with
  | nil => rfl
  | cons file rest ih =>
    obtain ⟨hfile, hrest⟩ := List.nodup_cons.mp hnodup
    rw [mergeInto, List.map_cons]
    by_cases hid : file.id = reference.id
    · have hother : rest.map (merged reference) = rest := by
        refine (List.map_congr_left fun other hmem => ?_).trans (List.map_id _)
        have hne : other.id ≠ reference.id := fun hsame =>
          hfile (List.mem_map.mpr ⟨other, hmem, hsame.trans hid.symm⟩)
        rw [merged, if_neg hne]
        rfl
      rw [if_pos (beq_iff_eq.mpr hid), hother, merged, if_pos hid]
    · rw [if_neg (by simpa using hid), ih hrest, merged, if_neg hid]

theorem Collects.ids_concat (h : Collects manifest references files) (reference : FileReference) :
    ((references ++ [reference]).map (·.id)).foldl appendNew [] =
      appendNew (files.map (·.id)) reference.id := by
  rw [List.map_append, List.foldl_append, ← h.ids]
  rfl

/-- The first reference to a file that is listed stays the first. -/
theorem Collects.comment_concat (h : Collects manifest references files) {file : ResolvedFile}
    (hfile : file ∈ files) (reference : FileReference) :
    ((references ++ [reference]).find? (·.id == file.id)).map (·.comment) = some file.comment := by
  have hfirst := h.comment file hfile
  obtain ⟨first, hfound, -⟩ := Option.map_eq_some_iff.mp hfirst
  rw [List.find?_append, hfound, Option.some_or, ← hfound]
  exact hfirst

theorem Collects.merge (h : Collects manifest references files)
    (hknown : reference.id ∈ files.map (·.id)) :
    Collects manifest (references ++ [reference]) (mergeInto reference files) := by
  rw [mergeInto_eq_map h.nodup]
  refine ⟨?_, ?_, ?_, ?_⟩
  · rw [h.ids_concat, appendNew, if_pos (by simpa using hknown), List.map_map]
    rfl
  all_goals
    intro file hfile
    obtain ⟨old, hold, rfl⟩ := List.mem_map.mp hfile
  · exact h.entries old hold
  · have hinclusion := h.inclusion old hold
    by_cases hid : old.id = reference.id
    · rw [merged, if_pos hid, hinclusion, Inclusion.merge_ofAll, List.filter_append]
      simp [hid]
    · rw [merged, if_neg hid, hinclusion, List.filter_append]
      simp [Ne.symm hid]
  · exact h.comment_concat hold reference

theorem Collects.add {entry : FileEntry} (h : Collects manifest references files)
    (hnew : reference.id ∉ files.map (·.id)) (hentry : manifest.get? reference.id = some entry) :
    Collects manifest (references ++ [reference]) (files ++ [{
      id := reference.id
      entry := entry
      inclusion := .ofReference reference
      comment := reference.comment }]) := by
  have hunknown : ∀ other ∈ references, other.id ≠ reference.id := fun other hother heq =>
    hnew (h.mem_ids.mpr ⟨other, hother, heq⟩)
  have hne : ∀ file ∈ files, reference.id ≠ file.id := fun file hfile heq =>
    hnew (List.mem_map.mpr ⟨file, hfile, heq.symm⟩)
  refine ⟨?_, ?_, ?_, ?_⟩
  · rw [h.ids_concat, appendNew, if_neg (by simpa using hnew), List.map_append]
    rfl
  all_goals
    intro file hfile
    rcases List.mem_append.mp hfile with hfile | hfile
  · exact h.entries file hfile
  · obtain rfl := List.mem_singleton.mp hfile
    exact hentry
  · rw [h.inclusion file hfile, List.filter_append]
    simp [hne file hfile]
  · obtain rfl := List.mem_singleton.mp hfile
    have hnone : references.filter (·.id == reference.id) = [] := by simpa using hunknown
    rw [Inclusion.ofReference_eq, List.filter_append, hnone]
    simp
  · exact h.comment_concat hfile reference
  · obtain rfl := List.mem_singleton.mp hfile
    have hnone : references.find? (·.id == reference.id) = none := by simpa using hunknown
    rw [List.find?_append, hnone]
    simp

theorem any_id_iff {id : String} : files.any (·.id == id) = true ↔ id ∈ files.map (·.id) := by
  simp

/-- References to registered files are taken in without fail. -/
theorem Collects.collect {more : List FileReference} (h : Collects manifest references files)
    (hmore : ∀ reference ∈ more, manifest.contains reference.id = true) :
    ∃ result, collect manifest more files = .ok result ∧
      Collects manifest (references ++ more) result := by
  induction more generalizing references files with
  | nil => exact ⟨files, rfl, by simpa using h⟩
  | cons reference rest ih =>
    obtain ⟨hreference, hrest⟩ := List.forall_mem_cons.mp hmore
    rw [Closure.collect, List.append_cons]
    split
    · rename_i hknown
      exact ih (h.merge (any_id_iff.mp hknown)) hrest
    · rename_i hnew
      obtain ⟨entry, hentry⟩ := Manifest.contains_iff.mp hreference
      rw [hentry]
      exact ih (h.add (fun hmem => hnew (any_id_iff.mpr hmem)) hentry) hrest

end Closure

end ContextSets
