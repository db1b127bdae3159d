import ContextSets.Proofs.Sorting
import ContextSets.Ranking.Ranker
import Mathlib.Data.List.Nodup

/-!
# The order of results

Scored files are put in a total order, in which two files come at the same place only if they have
one path. Files with distinct paths therefore give the same results in whatever order they were
scored.
-/

namespace ContextSets.Ranker

variable {config : RankerConfig}

/-- The place of a file by its final score. -/
def placeOf (config : RankerConfig) (scores : FileScores) : Int :=
  Single.place (finalScore config scores)

theorem precedes_ranksBy (config : RankerConfig) :
    RanksBy (precedes config) (placeOf config) (·.file.path) := by
  intro a b
  unfold precedes placeOf
  by_cases h : Single.place (finalScore config a) = Single.place (finalScore config b)
  · simp [h]
  · simp [h]

/-- The order in which files were scored makes no difference. -/
theorem results_perm {scored other : List FileScores} (hperm : scored.Perm other)
    (hpaths : (scored.map (·.file.path)).Nodup) : results config scored = results config other := by
  rw [results, results, (precedes_ranksBy config).mergeSort_perm hperm hpaths]

/-! ### Files given more than once -/

theorem mem_foldl_keep {kept files : List SourceFile} {file : SourceFile}
    (h : file ∈ files.foldl (fun kept file =>
      if kept.any (·.path == file.path) then kept else kept ++ [file]) kept) :
    file ∈ kept ∨ file ∈ files := by
  induction files generalizing kept with
  | nil => exact .inl h
  | cons next rest ih =>
    rw [List.foldl_cons] at h
    rcases ih h with hkept | hrest
    · split at hkept
      · exact .inl hkept
      · rcases List.mem_append.mp hkept with hold | hnext
        · exact .inl hold
        · exact .inr (List.mem_singleton.mp hnext ▸ List.mem_cons_self)
    · exact .inr (List.mem_cons_of_mem _ hrest)

theorem mem_of_mem_distinct {files : List SourceFile} {file : SourceFile}
    (h : file ∈ distinct files) : file ∈ files :=
  (mem_foldl_keep h).resolve_left List.not_mem_nil

/-- What is new is kept behind what was kept before. -/
theorem foldl_keep {kept files : List SourceFile} (h : ((kept ++ files).map (·.path)).Nodup) :
    files.foldl (fun kept file =>
      if kept.any (·.path == file.path) then kept else kept ++ [file]) kept = kept ++ files := by
  induction files generalizing kept with
  | nil => exact (List.append_nil kept).symm
  | cons file rest ih =>
    have hnew : ¬ kept.any (·.path == file.path) = true := by
      intro hany
      obtain ⟨old, hold, hpath⟩ := List.any_eq_true.mp hany
      rw [List.map_append, List.map_cons] at h
      obtain ⟨-, -, hdisjoint⟩ := List.nodup_append.mp h
      exact hdisjoint _ (List.mem_map_of_mem hold) _ List.mem_cons_self (by simpa using hpath)
    rw [List.foldl_cons, if_neg hnew, ih (by simpa using h), List.append_assoc,
      List.singleton_append]

theorem distinct_of_nodup {files : List SourceFile} (h : (files.map (·.path)).Nodup) :
    distinct files = files :=
  foldl_keep h

end ContextSets.Ranker
