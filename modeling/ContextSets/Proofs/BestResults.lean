import ContextSets.Proofs.FittingDeclarations
import ContextSets.Proofs.SearchRuns
import Mathlib.Data.Finset.Dedup
import Mathlib.Data.Finset.Card
import Mathlib.Logic.Relation

/-!
# The best results

A search ranks each path it was given once, by the first file given for it. The results are the
first of all ranked files, in a strict order by final score and path, and each is judged by its rank
among all. So a limit cuts the results of a search without limit and changes nothing in what is left,
in whatever order the files were scored.
-/

namespace ContextSets

open Relation

/-- An outcome with its results changed. -/
def SearchOutcome.map {α β : Type} (f : α → β) : SearchOutcome α → SearchOutcome β
  | .results value => .results (f value)
  | .superseded => .superseded
  | .pending => .pending

namespace Ranker

variable {config : RankerConfig} {query : String} {files : List SourceFile}
  {scored : List FileScores}

/-! ### The first file of each path -/

theorem distinct_concat (files : List SourceFile) (file : SourceFile) :
    distinct (files ++ [file]) =
      if (distinct files).any (·.path == file.path) then distinct files
      else distinct files ++ [file] := by
  rw [distinct, List.foldl_append]
  rfl

theorem any_path_distinct (files : List SourceFile) (path : String) :
    (distinct files).any (·.path == path) = files.any (·.path == path) := by
  induction files using List.reverseRecOn with
  | nil => rfl
  | append_singleton files file ih =>
    rw [distinct_concat, List.any_append, ← ih]
    split
    · rename_i hold
      by_cases hpath : file.path = path
      · rw [← hpath, hold, Bool.true_or]
      · simp [hpath]
    · rw [List.any_append]

theorem mem_paths_distinct {path : String} :
    path ∈ (distinct files).map (·.path) ↔ path ∈ files.map (·.path) := by
  have hany := any_path_distinct files path
  rw [Bool.eq_iff_iff, List.any_eq_true, List.any_eq_true] at hany
  simpa using hany

theorem nodup_paths_distinct (files : List SourceFile) :
    ((distinct files).map (·.path)).Nodup := by
  induction files using List.reverseRecOn with
  | nil => exact List.nodup_nil
  | append_singleton files file ih =>
    rw [distinct_concat]
    split
    · exact ih
    · rename_i hnew
      rw [List.map_append]
      refine List.nodup_append.mpr ⟨ih, List.nodup_singleton _, ?_⟩
      intro path hpath other hother heq
      obtain ⟨old, hold, rfl⟩ := List.mem_map.mp hpath
      have hsame : old.path = file.path := heq.trans (List.mem_singleton.mp hother)
      exact hnew (List.any_eq_true.mpr ⟨old, hold, beq_iff_eq.mpr hsame⟩)

/-- The file that is kept for a path is the first one given for it. -/
theorem find?_of_mem_distinct {files : List SourceFile} {file : SourceFile}
    (h : file ∈ distinct files) : files.find? (·.path == file.path) = some file := by
  induction files using List.reverseRecOn with
  | nil => cases h
  | append_singleton files last ih =>
    rw [distinct_concat] at h
    rw [List.find?_append]
    split at h
    · rw [ih h, Option.some_or]
    · rename_i hnew
      rcases List.mem_append.mp h with hold | hlast
      · rw [ih hold, Option.some_or]
      · obtain rfl := List.mem_singleton.mp hlast
        rw [any_path_distinct] at hnew
        rw [List.find?_eq_none.mpr fun old hold heq => hnew (List.any_eq_true.mpr ⟨old, hold, heq⟩)]
        simp

theorem length_distinct (files : List SourceFile) :
    (distinct files).length = (files.map (·.path)).toFinset.card := by
  have hpaths : ((distinct files).map (·.path)).toFinset = (files.map (·.path)).toFinset := by
    ext path
    rw [List.mem_toFinset, List.mem_toFinset, mem_paths_distinct]
  rw [← hpaths, List.toFinset_card_of_nodup (nodup_paths_distinct files), List.length_map]

/-! ### The order of the results -/

/-- One result is better than another: its final score is higher, or the scores are at one place and
its path comes first. -/
def Outranks (a b : RankedFile) : Prop :=
  Single.place b.final < Single.place a.final ∨
    Single.place a.final = Single.place b.final ∧ a.path < b.path

/-- What a search says of a file at a rank, counted from zero. -/
structure IsResult (config : RankerConfig) (query : String) (file : SourceFile) (rank : Nat)
    (ranked : RankedFile) : Prop where
  path_eq : ranked.path = file.path
  structural_eq : ranked.structural =
    Structure.score (Query.terms query) file.path file.content
      (Analysis.ofText config.analyzedBytes file.path file.content)
  matching_eq : ranked.matching =
    Structure.fitting (Query.terms query)
      (Analysis.ofText config.analyzedBytes file.path file.content)
  final_eq : ranked.final =
    config.weights.1 * ranked.structural + config.weights.2 * ranked.similarity
  hasSynergy_eq : ranked.hasSynergy =
    (config.structureSynergy < ranked.structural && config.similaritySynergy < ranked.similarity)
  role_eq : ranked.role = Role.ofFile config file.path file.content ranked.final rank

/-- The results of a search, with the files that are left out behind them: each given path once, by
the first file given for it, in strict order, and as many results as there may be. -/
structure Selection (config : RankerConfig) (query : String) (files : List SourceFile)
    (results omitted : List RankedFile) : Prop where
  nodup : ((results ++ omitted).map (·.path)).Nodup
  mem_iff : ∀ path, path ∈ (results ++ omitted).map (·.path) ↔ path ∈ files.map (·.path)
  pairwise : (results ++ omitted).Pairwise Outranks
  length_eq : results.length =
    if config.maxResults = 0 then (files.map (·.path)).toFinset.card
    else min (files.map (·.path)).toFinset.card config.maxResults
  result : ∀ rank ranked, (results ++ omitted)[rank]? = some ranked →
    ∃ file, files.find? (·.path == ranked.path) = some file ∧
      IsResult config query file rank ranked

/-- A file with its scores as the search gives them, whatever the similarity is. -/
def IsScored (config : RankerConfig) (query : String) (scores : FileScores) : Prop :=
  scores = scoresOf config query scores.file scores.similarity

theorem IsScored.isResult {scores : FileScores} (h : IsScored config query scores) (rank : Nat) :
    IsResult config query scores.file rank (resultAt config scores rank) where
  path_eq := rfl
  structural_eq := congrArg FileScores.structural h
  matching_eq := (congrArg FileScores.matching h).trans (Structure.assess_snd_eq_fitting _ _ _ _)
  final_eq := rfl
  hasSynergy_eq := rfl
  role_eq := rfl

/-- All files ranked, as there is no limit. -/
def ranking (config : RankerConfig) (scored : List FileScores) : List RankedFile :=
  (scored.mergeSort (precedes config)).zipIdx.map fun (scores, rank) => resultAt config scores rank

theorem getElem?_ranking (config : RankerConfig) (scored : List FileScores) (rank : Nat) :
    (ranking config scored)[rank]? =
      (scored.mergeSort (precedes config))[rank]?.map (resultAt config · rank) := by
  rw [ranking, List.getElem?_map, List.getElem?_zipIdx, Option.map_map, Nat.zero_add]
  rfl

theorem length_ranking (config : RankerConfig) (scored : List FileScores) :
    (ranking config scored).length = scored.length := by
  rw [ranking, List.length_map, List.length_zipIdx, List.length_mergeSort]

theorem paths_ranking (config : RankerConfig) (scored : List FileScores) :
    ((ranking config scored).map (·.path)).Perm (scored.map (·.file.path)) := by
  have hpaths : (ranking config scored).map (·.path) =
      (scored.mergeSort (precedes config)).map (·.file.path) := by
    rw [← List.zipIdx_map_fst 0 (scored.mergeSort (precedes config)), List.map_map]
    rw [ranking, List.map_map]
    rfl
  rw [hpaths]
  exact (List.mergeSort_perm scored _).map _

/-- The limit is set after all files have been put in order, and a file keeps its rank. -/
theorem results_eq (config : RankerConfig) (scored : List FileScores) :
    results config scored = limited config.maxResults (ranking config scored) := by
  unfold results limited
  split
  · rfl
  · refine List.ext_getElem? fun rank => ?_
    rw [List.getElem?_map, List.getElem?_zipIdx, List.getElem?_take, List.getElem?_take,
      getElem?_ranking]
    split
    · rw [Option.map_map, Nat.zero_add]
      rfl
    · rfl

theorem pairwise_ranking (h : (scored.map (·.file.path)).Nodup) :
    (ranking config scored).Pairwise Outranks := by
  have hstrict := (precedes_ranksBy config).pairwise_mergeSort h
  rw [← List.zipIdx_map_fst 0 (scored.mergeSort (precedes config)), List.pairwise_map] at hstrict
  exact List.pairwise_map.mpr hstrict

theorem exists_limited_append {α : Type} (limit : Nat) (xs : List α) :
    ∃ omitted, limited limit xs ++ omitted = xs := by
  unfold limited
  split
  · exact ⟨[], List.append_nil xs⟩
  · exact ⟨xs.drop limit, List.take_append_drop limit xs⟩

theorem limited_of_pos {α : Type} {limit : Nat} (h : 0 < limit) :
    (limited limit : List α → List α) = List.take limit :=
  funext fun _ => if_neg (Nat.ne_of_gt h)

theorem length_limited {α : Type} (limit : Nat) (xs : List α) :
    (limited limit xs).length = if limit = 0 then xs.length else min xs.length limit := by
  unfold limited
  split
  · rfl
  · rw [List.length_take, Nat.min_comm]

/-- The results of a search select from the files, in whatever order these were scored. -/
theorem exists_selection (hfiles : (scored.map (·.file)).Perm (distinct files))
    (hscored : ∀ scores ∈ scored, IsScored config query scores) :
    ∃ omitted, Selection config query files (results config scored) omitted := by
  obtain ⟨omitted, homitted⟩ := exists_limited_append config.maxResults (ranking config scored)
  rw [← results_eq] at homitted
  have hpaths : (scored.map (·.file.path)).Perm ((distinct files).map (·.path)) := by
    have hmapped := hfiles.map SourceFile.path
    rwa [List.map_map] at hmapped
  have hranked := (paths_ranking config scored).trans hpaths
  have hlength : scored.length = (files.map (·.path)).toFinset.card := by
    rw [← length_distinct, ← hfiles.length_eq, List.length_map]
  refine ⟨omitted, ?_, fun path => ?_, ?_, ?_, fun rank ranked hat => ?_⟩
  · rw [homitted]
    exact hranked.nodup_iff.mpr (nodup_paths_distinct files)
  · rw [homitted, hranked.mem_iff, mem_paths_distinct]
  · rw [homitted]
    exact pairwise_ranking (hpaths.nodup_iff.mpr (nodup_paths_distinct files))
  · rw [results_eq, length_limited, length_ranking, hlength]
  · rw [homitted, getElem?_ranking] at hat
    obtain ⟨scores, hscores, rfl⟩ := Option.map_eq_some_iff.mp hat
    have hmem : scores ∈ scored :=
      (List.mergeSort_perm scored _).mem_iff.mp (List.mem_of_getElem? hscores)
    refine ⟨scores.file, find?_of_mem_distinct ?_, (hscored scores hmem).isResult rank⟩
    exact hfiles.mem_iff.mp (List.mem_map_of_mem hmem)

/-- Without a limit the results are all files ranked. -/
theorem results_limit (config : RankerConfig) (limit : Nat) (scored : List FileScores) :
    results { config with maxResults := limit } scored =
      limited limit (results { config with maxResults := 0 } scored) := by
  rw [results_eq, results_eq]
  rfl

end Ranker

/-! ### Searches in flight -/

namespace Search

open Ranker

variable {provider : TextProvider} {config : RankerConfig} {query : String}
  {files : List SourceFile} {state state' : Shared × Search}

/-- How a search gathers its results: each file that is kept is waiting, running or scored, and once
the search has ended, its results select from the files. -/
def Gathers (config : RankerConfig) (query : String) (files : List SourceFile) : Search → Prop
  | .embedding _ => True
  | .scoring _ waiting running scored =>
    (scored.map (·.file) ++ (running.map Prod.fst ++ waiting)).Perm (distinct files) ∧
      ∀ scores ∈ scored, IsScored config query scores
  | .ended results => ∃ omitted, Selection config query files results omitted

theorem scored_concat {scored : List FileScores}
    (h : ∀ scores ∈ scored, IsScored config query scores) (file : SourceFile)
    (similarity : Float32) :
    ∀ scores ∈ scored ++ [scoresOf config query file similarity], IsScored config query scores :=
  List.forall_mem_append.mpr ⟨h, List.forall_mem_singleton.mpr rfl⟩

/-- One step keeps a search gathering its results. -/
theorem Gathers.step (h : state.2.Gathers config query files)
    (hstep : Step provider config query files state state') :
    state'.2.Gathers config query files := by
  cases hstep with
  | embed hadvance => exact h
  | embedded hdone => exact ⟨.refl _, List.forall_mem_nil _⟩
  | @pass shared file waiting running scored =>
    obtain ⟨hperm, hscored⟩ := h
    refine ⟨.trans ?_ hperm, scored_concat hscored file 0.0⟩
    simp only [List.map_append, List.map_cons, List.append_assoc, List.cons_append,
      List.map_nil, List.nil_append]
    exact List.perm_middle.symm.append_left _
  | @begin shared vector file waiting running scored hfree =>
    obtain ⟨hperm, hscored⟩ := h
    refine ⟨?_, hscored⟩
    simpa using hperm
  | @advance shared shared' vector waiting before after scored file call phase now hadvance =>
    obtain ⟨hperm, hscored⟩ := h
    refine ⟨?_, hscored⟩
    simpa using hperm
  | @finish shared vector waiting before after scored file call result hdone =>
    obtain ⟨hperm, hscored⟩ := h
    refine ⟨.trans ?_ hperm, scored_concat hscored file _⟩
    simp only [List.map_append, List.map_cons, List.append_assoc, List.cons_append,
      List.map_nil, List.nil_append]
    exact List.perm_middle.symm.append_left _
  | @rank shared vector scored =>
    obtain ⟨hperm, hscored⟩ := h
    exact exists_selection (by simpa using hperm) hscored

/-- However its calls get on, a search comes to results that select from the files. -/
theorem inevitable_selection (provider : TextProvider) (config : RankerConfig) (query : String)
    (files : List SourceFile) (shared : Shared) :
    Inevitable (Step provider config query files)
      (fun state => ∃ results omitted, state.2 = .ended results ∧
        Selection config query files results omitted) (shared, start query) := by
  refine Inevitable.of_invariant (I := fun state => state.2.Gathers config query files)
    (fun state => state.2.weight (distinct files).length) (fun _ _ h hstep => h.step hstep)
    (fun _ _ hstep => weight_step hstep) ?_ trivial
  rintro ⟨shared, search⟩ hgathers
  rcases exists_step shared search with ⟨results, rfl⟩ | hstep
  · obtain ⟨omitted, hselection⟩ := hgathers
    exact .inl ⟨results, omitted, rfl, hselection⟩
  · exact .inr hstep

/-! ### Searches with a limit -/

/-- A search as it looks under a limit. -/
def within (limit : Nat) : Search → Search
  | .ended results => .ended (limited limit results)
  | search => search

theorem Step.within (hstep : Step provider { config with maxResults := 0 } query files state state')
    (limit : Nat) :
    Step provider { config with maxResults := limit } query files
      (state.1, state.2.within limit) (state'.1, state'.2.within limit) := by
  cases hstep with
  | embed hadvance => exact .embed hadvance
  | embedded hdone => exact .embedded hdone
  | pass => exact .pass
  | begin hfree => exact .begin hfree
  | advance hadvance => exact .advance hadvance
  | finish hdone => exact .finish hdone
  | @rank shared vector scored =>
    rw [Search.within, ← results_limit]
    exact .rank

theorem Step.exists_of_within {limit : Nat} {next : Shared × Search}
    (hstep : Step provider { config with maxResults := limit } query files
      (state.1, state.2.within limit) next) :
    ∃ state', Step provider { config with maxResults := 0 } query files state state' ∧
      next = (state'.1, state'.2.within limit) := by
  obtain ⟨shared, search⟩ := state
  cases search with
  | embedding call =>
    cases hstep with
    | embed hadvance => exact ⟨_, .embed hadvance, rfl⟩
    | embedded hdone => exact ⟨_, .embedded hdone, rfl⟩
  | scoring vector waiting running scored =>
    cases hstep with
    | pass => exact ⟨_, .pass, rfl⟩
    | begin hfree => exact ⟨_, .begin hfree, rfl⟩
    | advance hadvance => exact ⟨_, .advance hadvance, rfl⟩
    | finish hdone => exact ⟨_, .finish hdone, rfl⟩
    | rank => exact ⟨_, .rank, by rw [Search.within, results_limit]⟩
  | ended results => cases hstep

/-- A search with a limit runs as one without, and ends with the first of its results. -/
theorem reaches_within_iff {limit : Nat} {shared shared' : Shared} {results : List RankedFile} :
    ReflTransGen (Step provider { config with maxResults := limit } query files)
        (shared, start query) (shared', .ended results) ↔
      ∃ all, ReflTransGen (Step provider { config with maxResults := 0 } query files)
        (shared, start query) (shared', .ended all) ∧ results = limited limit all := by
  constructor
  · intro hrun
    have hback : ∀ {next}, ReflTransGen
        (Step provider { config with maxResults := limit } query files) (shared, start query) next →
        ∃ state', ReflTransGen (Step provider { config with maxResults := 0 } query files)
          (shared, start query) state' ∧ next = (state'.1, state'.2.within limit) := by
      intro next hnext
      induction hnext with
      | refl => exact ⟨_, .refl, rfl⟩
      | tail hrun hstep ih =>
        obtain ⟨state', hrun', rfl⟩ := ih
        obtain ⟨last, hlast, hnext⟩ := Step.exists_of_within hstep
        exact ⟨last, hrun'.tail hlast, hnext⟩
    obtain ⟨⟨last, search⟩, hrun', hend⟩ := hback hrun
    obtain ⟨rfl, hsearch⟩ := Prod.mk.inj hend
    cases search with
    | embedding call => cases hsearch
    | scoring vector waiting running scored => cases hsearch
    | ended all => exact ⟨all, hrun', ended.inj hsearch⟩
  · rintro ⟨all, hrun, rfl⟩
    exact hrun.lift (fun state : Shared × Search => (state.1, state.2.within limit))
      fun _ _ hstep => hstep.within limit

end Search

/-! ### The program -/

namespace Ranker

variable {m : Type → Type} [Monad m] [LawfulMonad m]

theorem score_scored (embedder : Embedder m) (config : RankerConfig) (query : String)
    (vector : Option Embedding) (file : SourceFile) (index : EmbeddingIndex) :
    Ensures ((score embedder config (Query.terms query) vector file).run index) fun r =>
      ∀ scores, r.1 = some scores → scores.file = file ∧ IsScored config query scores := by
  have hscores : ∀ (similarity : Option Float32) (index : EmbeddingIndex),
      Ensures ((pure (similarity.map (scoresOf config query file)) :
        StateT EmbeddingIndex m (Option FileScores)).run index) fun r =>
        ∀ scores, r.1 = some scores → scores.file = file ∧ IsScored config query scores := by
    refine fun similarity index => Ensures.run_pure fun scores hscores => ?_
    obtain ⟨similarity, -, rfl⟩ := Option.map_eq_some_iff.mp hscores
    exact ⟨rfl, rfl⟩
  unfold score
  cases vector with
  | none =>
    exact Ensures.run_bind (m := m) (Ensures.trivial _) fun value index' _ => hscores value index'
  | some vector =>
    exact Ensures.run_bind (m := m) (Ensures.trivial _) fun value index' _ => hscores value index'

theorem scoreAll_scored (embedder : Embedder m) (config : RankerConfig) (query : String)
    (vector : Option Embedding) (workers : Nat) (files : List SourceFile) (index : EmbeddingIndex) :
    Ensures ((scoreAll embedder config (Query.terms query) vector workers files).run index) fun r =>
      ∀ scored, r.1 = some scored → scored.map (·.file) = files ∧
        ∀ scores ∈ scored, IsScored config query scores := by
  induction files generalizing workers index with
  | nil =>
    unfold scoreAll
    refine Ensures.run_pure fun scored hscored => ?_
    obtain rfl := Option.some.inj hscored
    exact ⟨rfl, List.forall_mem_nil _⟩
  | cons file rest ih =>
    cases workers with
    | zero =>
      unfold scoreAll
      exact Ensures.run_pure fun scored hscored => absurd hscored.symm (Option.some_ne_none scored)
    | succ workers =>
      unfold scoreAll
      refine Ensures.run_bind (score_scored embedder config query vector file index) ?_
      intro one index' hone
      cases one with
      | none =>
        refine Ensures.run_bind (Ensures.trivial _) fun _ _ _ => Ensures.run_pure ?_
        exact fun scored hscored => absurd hscored.symm (Option.some_ne_none scored)
      | some scores =>
        obtain ⟨hfile, hscores⟩ := hone scores rfl
        refine Ensures.run_bind (ih (workers + 1) index') fun others index'' hothers =>
          Ensures.run_pure fun scored hscored => ?_
        obtain ⟨scored, hrest, rfl⟩ := Option.map_eq_some_iff.mp hscored
        obtain ⟨hfiles, hall⟩ := hothers scored hrest
        exact ⟨by rw [List.map_cons, hfile, hfiles], List.forall_mem_cons.mpr ⟨hscores, hall⟩⟩

omit [LawfulMonad m] in
/-- A limit makes no difference until the files have been scored. -/
theorem scoreAll_limit (embedder : Embedder m) (config : RankerConfig) (limit : Nat)
    (terms : List String) (vector : Option Embedding) (workers : Nat) (files : List SourceFile) :
    scoreAll embedder { config with maxResults := limit } terms vector workers files =
      scoreAll embedder config terms vector workers files := by
  induction files generalizing workers with
  | nil => cases workers <;> rfl
  | cons file rest ih =>
    cases workers with
    | zero => rfl
    | succ workers =>
      rw [scoreAll, scoreAll, ih, ih]
      rfl

/-- What a search does once it has tried to embed its query. -/
def rankBy (embedder : Embedder m) (config : RankerConfig) (query : String)
    (files : List SourceFile) (vector : Option Embedding) :
    StateT EmbeddingIndex m (SearchOutcome (List RankedFile)) := do
  match ← scoreAll embedder config (Query.terms query) vector (max 1 config.concurrency)
      (distinct files) with
  | none => return .pending
  | some scored => return .results (results config scored)

theorem rankBy_selects (embedder : Embedder m) (config : RankerConfig) (query : String)
    (files : List SourceFile) (vector : Option Embedding) (index : EmbeddingIndex) :
    Ensures ((rankBy embedder config query files vector).run index) fun r =>
      ∀ results, r.1 = .results results →
        ∃ omitted, Selection config query files results omitted := by
  unfold rankBy
  refine Ensures.run_bind (scoreAll_scored embedder config query vector _ _ index) ?_
  intro scored index' hscored
  cases scored with
  | none => exact Ensures.run_pure fun _ hresults => nomatch hresults
  | some scored =>
    refine Ensures.run_pure fun _ hresults => ?_
    obtain rfl := SearchOutcome.results.inj hresults
    obtain ⟨hfiles, hall⟩ := hscored scored rfl
    exact exists_selection (.of_eq hfiles) hall

theorem rankBy_limit (embedder : Embedder m) (config : RankerConfig) (query : String)
    (files : List SourceFile) (vector : Option Embedding) (limit : Nat) :
    rankBy embedder { config with maxResults := limit } query files vector =
      SearchOutcome.map (limited limit) <$>
        rankBy embedder { config with maxResults := 0 } query files vector := by
  unfold rankBy
  simp only [scoreAll_limit]
  rw [map_bind]
  refine bind_congr fun scored => ?_
  cases scored with
  | none => simp only [map_pure, SearchOutcome.map]
  | some scored => simp only [map_pure, SearchOutcome.map, results_limit config limit]

theorem rank_eq (embedder : Embedder m) (config : RankerConfig) (query : String)
    (files : List SourceFile) :
    rank embedder config false query files =
      EmbeddingIndex.embedCached embedder query >>= fun
        | .pending => pure .pending
        | .done answer => rankBy embedder config query files answer.toOption := by
  unfold rank
  refine bind_congr fun reply => ?_
  cases reply with
  | pending => rfl
  | done answer =>
    cases answer with
    | ok vector => exact pure_bind _ _
    | error e => exact pure_bind _ _

/-- If a search comes to results, these select from the files. -/
theorem rank_selects (embedder : Embedder m) (config : RankerConfig) (isCancelled : Bool)
    (query : String) (files : List SourceFile) (index : EmbeddingIndex) :
    Ensures ((rank embedder config isCancelled query files).run index) fun r =>
      ∀ results, r.1 = .results results →
        ∃ omitted, Selection config query files results omitted := by
  cases isCancelled with
  | true => exact Ensures.run_pure fun _ hresults => nomatch hresults
  | false =>
    rw [rank_eq]
    refine Ensures.run_bind (m := m) (Ensures.trivial _) fun reply index' _ => ?_
    cases reply with
    | pending => exact Ensures.run_pure fun _ hresults => nomatch hresults
    | done answer => exact rankBy_selects embedder config query files _ index'

/-- A limit changes nothing in what a search does, and cuts its results. -/
theorem rank_limit (embedder : Embedder m) (config : RankerConfig) (isCancelled : Bool)
    (query : String) (files : List SourceFile) (limit : Nat) :
    rank embedder { config with maxResults := limit } isCancelled query files =
      SearchOutcome.map (limited limit) <$>
        rank embedder { config with maxResults := 0 } isCancelled query files := by
  cases isCancelled with
  | true => simp only [rank, if_true, map_pure, SearchOutcome.map]
  | false =>
    rw [rank_eq, rank_eq, map_bind]
    refine bind_congr fun reply => ?_
    cases reply with
    | pending => simp only [map_pure, SearchOutcome.map]
    | done answer => exact rankBy_limit embedder config query files _ limit

end Ranker

/-- However the calls of a search get on, it comes to results, and these select from the files: each
path once, for the first file given for it, the best in strict order of final score and path, each
with the role of its rank. A search with a limit can go exactly as one without, and ends with the
first of its results. So it is with the program, whatever the embedder does. -/
theorem search_selects_best_files (config : RankerConfig) (query : String)
    (files : List SourceFile) :
    (∀ (provider : TextProvider) (shared : Shared),
      Inevitable (Search.Step provider config query files)
        (fun state => ∃ results omitted, state.2 = .ended results ∧
          Ranker.Selection config query files results omitted) (shared, .start query) ∧
      ∀ limit, 0 < limit → ∀ shared' results,
        ReflTransGen (Search.Step provider { config with maxResults := limit } query files)
            (shared, .start query) (shared', .ended results) ↔
          ∃ all, ReflTransGen (Search.Step provider { config with maxResults := 0 } query files)
            (shared, .start query) (shared', .ended all) ∧ results = all.take limit) ∧
    ∀ (m : Type → Type) [Monad m] [LawfulMonad m] (embedder : Embedder m) (isCancelled : Bool),
      (∀ index, Ensures ((Ranker.rank embedder config isCancelled query files).run index) fun r =>
        ∀ results, r.1 = .results results →
          ∃ omitted, Ranker.Selection config query files results omitted) ∧
      ∀ limit, 0 < limit →
        Ranker.rank embedder { config with maxResults := limit } isCancelled query files =
          SearchOutcome.map (List.take limit) <$>
            Ranker.rank embedder { config with maxResults := 0 } isCancelled query files := by
  refine ⟨fun provider shared => ⟨?_, fun limit hlimit shared' results => ?_⟩,
    fun m _ _ embedder isCancelled => ⟨?_, fun limit hlimit => ?_⟩⟩
  · exact Search.inevitable_selection provider config query files shared
  · rw [Search.reaches_within_iff, Ranker.limited_of_pos hlimit]
  · exact Ranker.rank_selects embedder config isCancelled query files
  · rw [Ranker.rank_limit embedder config isCancelled query files limit,
      Ranker.limited_of_pos hlimit]

/-- Two files and a second text for one of the paths. -/
def repeatedFiles : List SourceFile :=
  moodyFiles ++ [⟨"a.rs", "x"⟩]

theorem search_selects_best_files_repeated :
    ∃ all omitted,
      ((Ranker.rank moodyEmbedder { maxResults := 0 } false "main" repeatedFiles).run ∅).1 =
        .results all ∧
      Ranker.Selection { maxResults := 0 } "main" repeatedFiles all omitted ∧ all.length = 2 ∧
      ((Ranker.rank moodyEmbedder { maxResults := 1 } false "main" repeatedFiles).run ∅).1 =
        .results (all.take 1) := by
  have hdistinct : Set.InjOn Fingerprint.ofText { text | text ∈ moodyTexts } := by
    have hnodup : (moodyTexts.map Fingerprint.ofText).Nodup := by decide +kernel
    exact fun _ htext _ hother heq => List.inj_on_of_nodup_map hnodup htext hother heq
  have hfiles : ∀ file ∈ repeatedFiles, file.content ∈ moodyTexts := by decide
  have hreaches : Ensures ((Ranker.rank moodyEmbedder { maxResults := 0 } false "main"
      repeatedFiles).run ∅) fun r => r.1 = .results (Ranker.plainRanking moodyProvider
        { maxResults := 0 } "main" (Ranker.distinct repeatedFiles)) :=
    (Ranker.ensures_rank (moodyEmbedder_follows Set.univ) (fun _ _ => Set.mem_univ _) hdistinct
      (by decide) hfiles .empty).mono fun _ => And.left
  have hall := hreaches.of_id
  obtain ⟨-, hprogram⟩ := search_selects_best_files { maxResults := 0 } "main" repeatedFiles
  obtain ⟨hselects, hlimit⟩ := hprogram Id moodyEmbedder false
  obtain ⟨omitted, hselection⟩ := (hselects ∅).of_id _ hall
  have hlength : (repeatedFiles.map (·.path)).toFinset.card = 2 := by decide
  refine ⟨_, omitted, hall, hselection, hselection.length_eq.trans hlength, ?_⟩
  rw [hlimit 1 Nat.one_pos]
  exact congrArg (SearchOutcome.map (List.take 1)) hall

end ContextSets
