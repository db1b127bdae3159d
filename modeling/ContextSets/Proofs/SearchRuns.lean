import ContextSets.Proofs.CallPrograms
import ContextSets.Proofs.ResultOrder
import Mathlib.Algebra.GroupWithZero.Nat

/-!
# Searches in flight

A search embeds its query and then scores its files, several at a time, in whatever order their
calls get on. Each file gets the scores that the provider and the texts alone determine, and the
results are sorted by these. So every way in which a search can go leads to the same results, and so
does the program, which scores one file after another.
-/

namespace ContextSets

/-! ### What every run leads to -/

/-- However one goes on from a state, one comes to a state with a property. -/
inductive Inevitable {S : Type} (step : S → S → Prop) (P : S → Prop) : S → Prop
  | now {s : S} (h : P s) : Inevitable step P s
  | later {s : S} (hcan : ∃ s', step s s') (hall : ∀ s', step s s' → Inevitable step P s') :
      Inevitable step P s

/-- What holds on the way, lets one go on short of the goal, and cannot go on for ever leads there.
-/
theorem Inevitable.of_invariant {S : Type} {step : S → S → Prop} {P I : S → Prop} (weight : S → Nat)
    (hkeep : ∀ s s', I s → step s s' → I s') (hless : ∀ s s', step s s' → weight s' < weight s)
    (hcan : ∀ s, I s → P s ∨ ∃ s', step s s') {s : S} (h : I s) : Inevitable step P s := by
  induction hweight : weight s using Nat.strongRecOn generalizing s with
  | ind n ih =>
    subst hweight
    rcases hcan s h with hgoal | hstep
    · exact .now hgoal
    · exact .later hstep fun s' hs' => ih (weight s') (hless s s' hs') (hkeep s s' h hs') rfl

/-! ### The scores of a file -/

namespace Ranker

/-- The similarity of a file, given what came of embedding the query and the file. -/
def similarityOf : Option Embedding → Except EmbeddingError Embedding → Float32
  | some query, .ok embedding =>
    match Embedding.unitSimilarity query embedding with
    | .ok score => score
    | .error _ => 0.0
  | _, _ => 0.0

/-- The scores of a file with a given similarity. -/
def scoresOf (config : RankerConfig) (query : String) (file : SourceFile) (similarity : Float32) :
    FileScores :=
  let assessed := Structure.assess (Query.terms query) file.path file.content
    (Analysis.ofText config.analyzedBytes file.path file.content)
  { file := file
    structural := assessed.1
    similarity := similarity
    matching := assessed.2 }

/-- The scores of a file as the provider and the texts alone determine them. -/
def plainScores (provider : TextProvider) (config : RankerConfig) (query : String)
    (file : SourceFile) : FileScores :=
  scoresOf config query file
    (similarityOf (provider.answer query).toOption (provider.answer file.content))

/-- The results for files as the provider and the texts alone determine them. -/
def plainRanking (provider : TextProvider) (config : RankerConfig) (query : String)
    (files : List SourceFile) : List RankedFile :=
  results config (files.map (plainScores provider config query))

theorem plainRanking_perm {provider : TextProvider} {config : RankerConfig} {query : String}
    {files order : List SourceFile} (horder : order.Perm files)
    (hpaths : (order.map (·.path)).Nodup) :
    plainRanking provider config query order = plainRanking provider config query files := by
  refine results_perm (horder.map _) ?_
  rw [List.map_map]
  exact hpaths

end Ranker

/-! ### Steps of a search -/

/-- How far a search has come. Scored files are kept in the order in which their calls have ended.
-/
inductive Search where
  | embedding (call : Call)
  | scoring (vector : Option Embedding) (waiting : List SourceFile)
      (running : List (SourceFile × Call)) (scored : List FileScores)
  | ended (results : List RankedFile)

namespace Search

open Ranker

/-- A search at its start. -/
def start (query : String) : Search :=
  .embedding { path := none, text := query }

/-- The calls of a search. -/
def calls : Search → List Call
  | .embedding call => [call]
  | .scoring _ _ running _ => running.map Prod.snd
  | .ended _ => []

/-- What a search can do next: its call for the query goes on or has ended; a file is scored at once
if there is no vector to compare it with, and else a call for it begins as soon as fewer run than
may run together; any of the running calls goes on or has ended; or all files are scored. -/
inductive Step (provider : TextProvider) (config : RankerConfig) (query : String)
    (files : List SourceFile) : Shared × Search → Shared × Search → Prop
  | embed {shared shared' : Shared} {call : Call} {phase : Phase} {now : String}
      (h : call.advance provider (isBusy [call]) now shared = some (phase, shared')) :
      Step provider config query files (shared, .embedding call)
        (shared', .embedding { call with phase := phase })
  | embedded {shared : Shared} {call : Call} {result : Except EmbeddingError Embedding}
      (h : call.phase = .done result) :
      Step provider config query files (shared, .embedding call)
        (shared, .scoring result.toOption (distinct files) [] [])
  | pass {shared : Shared} {file : SourceFile} {waiting : List SourceFile}
      {running : List (SourceFile × Call)} {scored : List FileScores} :
      Step provider config query files (shared, .scoring none (file :: waiting) running scored)
        (shared, .scoring none waiting running (scored ++ [scoresOf config query file 0.0]))
  | begin {shared : Shared} {vector : Embedding} {file : SourceFile} {waiting : List SourceFile}
      {running : List (SourceFile × Call)} {scored : List FileScores}
      (h : running.length < max 1 config.concurrency) :
      Step provider config query files
        (shared, .scoring (some vector) (file :: waiting) running scored)
        (shared, .scoring (some vector) waiting
          (running ++ [(file, { path := some file.path, text := file.content })]) scored)
  | advance {shared shared' : Shared} {vector : Option Embedding} {waiting : List SourceFile}
      {before after : List (SourceFile × Call)} {scored : List FileScores} {file : SourceFile}
      {call : Call} {phase : Phase} {now : String}
      (h : call.advance provider (isBusy ((before ++ (file, call) :: after).map Prod.snd)) now
        shared = some (phase, shared')) :
      Step provider config query files
        (shared, .scoring vector waiting (before ++ (file, call) :: after) scored)
        (shared', .scoring vector waiting
          (before ++ (file, { call with phase := phase }) :: after) scored)
  | finish {shared : Shared} {vector : Option Embedding} {waiting : List SourceFile}
      {before after : List (SourceFile × Call)} {scored : List FileScores} {file : SourceFile}
      {call : Call} {result : Except EmbeddingError Embedding} (h : call.phase = .done result) :
      Step provider config query files
        (shared, .scoring vector waiting (before ++ (file, call) :: after) scored)
        (shared, .scoring vector waiting (before ++ after)
          (scored ++ [scoresOf config query file (similarityOf vector result)]))
  | rank {shared : Shared} {vector : Option Embedding} {scored : List FileScores} :
      Step provider config query files (shared, .scoring vector [] [] scored)
        (shared, .ended (results config scored))

variable {provider : TextProvider} {texts : Set String} {config : RankerConfig} {query : String}
  {files order : List SourceFile} {state state' : Shared × Search}

/-- A search is on its way to the results: what has been scored is scored as it should be, and with
what is left it makes up all files. -/
def OnWay (provider : TextProvider) (texts : Set String) (config : RankerConfig) (query : String)
    (files : List SourceFile) : Search → Prop
  | .embedding call => call.text = query
  | .scoring vector waiting running scored =>
    vector = (provider.answer query).toOption ∧
      (∀ file ∈ waiting, file.content ∈ texts) ∧
      (∀ entry ∈ running, entry.2.text = entry.1.content) ∧
      (scored ++ (running.map Prod.fst ++ waiting).map (plainScores provider config query)).Perm
        (files.map (plainScores provider config query))
  | .ended results => results = plainRanking provider config query files

/-- A search whose calls may have come as far as they have, and that is on its way. -/
def Good (provider : TextProvider) (texts : Set String) (config : RankerConfig) (query : String)
    (files : List SourceFile) (state : Shared × Search) : Prop :=
  Traffic.Reached provider texts ⟨state.1, state.2.calls⟩ ∧
    state.2.OnWay provider texts config query files

theorem Good.start {shared : Shared} (hquery : query ∈ texts)
    (h : Traffic.Reached provider texts ⟨shared, []⟩) :
    Good provider texts config query files (shared, start query) :=
  ⟨h.tail (.begin shared [] none hquery), rfl⟩

/-- One step keeps a search on its way. -/
theorem Good.step (hdistinct : Set.InjOn Fingerprint.ofText texts)
    (hfiles : ∀ file ∈ files, file.content ∈ texts) (hpaths : (files.map (·.path)).Nodup)
    (horder : order.Perm files) (h : Good provider texts config query files state)
    (hstep : Step provider config query order state state') :
    Good provider texts config query files state' := by
  obtain ⟨hreached, hway⟩ := h
  cases hstep with
  | embed hadvance => exact ⟨hreached.tail (.alone hadvance), hway⟩
  | @embedded shared call result hdone =>
    have hanswer := hreached.answer_eq hdistinct (List.mem_singleton_self call) hdone
    have hcall : call.text = query := hway
    have hkept : distinct order = order :=
      distinct_of_nodup ((horder.map _).nodup_iff.mpr hpaths)
    rw [hkept]
    refine ⟨hreached.tail (.leave shared [] [] call), ?_, ?_, ?_, ?_⟩
    · rw [← hanswer, hcall]
    · exact fun file hfile => hfiles file (horder.mem_iff.mp hfile)
    · exact fun _ hentry => nomatch hentry
    · exact horder.map _
  | @pass shared file waiting running scored =>
    obtain ⟨hvector, hwaiting, hrunning, hperm⟩ := hway
    obtain ⟨-, hwaiting⟩ := List.forall_mem_cons.mp hwaiting
    refine ⟨hreached, hvector, hwaiting, hrunning, .trans ?_ hperm⟩
    have hscores : plainScores provider config query file = scoresOf config query file 0.0 := by
      rw [plainScores, ← hvector]
      rfl
    simp only [List.map_append, List.map_cons, List.append_assoc, List.cons_append,
      List.nil_append, hscores]
    exact List.perm_middle.symm.append_left scored
  | @begin shared vector file waiting running scored hfree =>
    obtain ⟨hvector, hwaiting, hrunning, hperm⟩ := hway
    obtain ⟨hfile, hwaiting⟩ := List.forall_mem_cons.mp hwaiting
    refine ⟨?_, hvector, hwaiting, ?_, ?_⟩
    · simp only [calls, List.map_append, List.map_cons, List.map_nil]
      exact hreached.tail (.begin shared _ (some file.path) hfile)
    · exact List.forall_mem_append.mpr ⟨hrunning, List.forall_mem_singleton.mpr rfl⟩
    · simpa using hperm
  | @advance shared shared' vector waiting before after scored file call phase now hadvance =>
    obtain ⟨hvector, hwaiting, hrunning, hperm⟩ := hway
    simp only [List.forall_mem_append, List.forall_mem_cons] at hrunning
    refine ⟨?_, hvector, hwaiting, ?_, ?_⟩
    · simp only [calls, List.map_append, List.map_cons] at hreached hadvance ⊢
      exact hreached.tail (.advance hadvance)
    · simp only [List.forall_mem_append, List.forall_mem_cons]
      exact hrunning
    · simpa using hperm
  | @finish shared vector waiting before after scored file call result hdone =>
    obtain ⟨hvector, hwaiting, hrunning, hperm⟩ := hway
    have hmem : call ∈ calls (.scoring vector waiting (before ++ (file, call) :: after) scored) :=
      by simp [calls]
    have hanswer := hreached.answer_eq hdistinct hmem hdone
    simp only [List.forall_mem_append, List.forall_mem_cons] at hrunning
    obtain ⟨hbefore, htext, hafter⟩ := hrunning
    refine ⟨?_, hvector, hwaiting, List.forall_mem_append.mpr ⟨hbefore, hafter⟩, .trans ?_ hperm⟩
    · simp only [calls, List.map_append, List.map_cons] at hreached ⊢
      exact hreached.tail (.leave shared _ _ call)
    · have hscores : plainScores provider config query file =
          scoresOf config query file (similarityOf vector result) := by
        rw [plainScores, hvector, ← hanswer, htext]
      simp only [List.map_append, List.map_cons, List.append_assoc, List.cons_append,
        List.nil_append, hscores]
      exact List.perm_middle.symm.append_left scored
  | @rank shared vector scored =>
    obtain ⟨-, -, -, hperm⟩ := hway
    refine ⟨hreached, ?_⟩
    have hscored : scored.Perm (files.map (plainScores provider config query)) := by
      simpa using hperm
    refine (results_perm hscored.symm ?_).symm
    rw [List.map_map]
    exact hpaths

/-! ### Searches end -/

/-- A bound on the steps of a search that are left. -/
def weight : Search → Nat → Nat
  | .embedding call, files => call.phase.weight + 10 * files + 2
  | .scoring _ waiting running _, _ =>
    10 * waiting.length + (running.map (·.2.phase.weight + 1)).sum + 1
  | .ended _, _ => 0

theorem weight_step (hstep : Step provider config query files state state') :
    state'.2.weight (distinct files).length < state.2.weight (distinct files).length := by
  cases hstep with
  | embed hadvance =>
    have hless := Call.weight_advance hadvance
    simp only [weight]
    omega
  | embedded hdone =>
    simp only [weight, List.map_nil, List.sum_nil]
    omega
  | pass =>
    simp only [weight, List.length_cons]
    omega
  | begin hfree =>
    simp only [weight, List.length_cons, List.map_append, List.sum_append, List.map_cons,
      List.sum_cons, List.map_nil, List.sum_nil, Phase.weight]
    omega
  | advance hadvance =>
    have hless := Call.weight_advance hadvance
    simp only [weight, List.map_append, List.sum_append, List.map_cons, List.sum_cons]
    omega
  | finish hdone =>
    simp only [weight, List.map_append, List.sum_append, List.map_cons, List.sum_cons]
    omega
  | rank =>
    simp only [weight, List.map_nil, List.sum_nil, List.length_nil]
    omega

/-- A call that is alone waits for nobody. -/
theorem exists_step_embedding (shared : Shared) (call : Call) :
    ∃ next, Step provider config query files (shared, .embedding call) next := by
  by_cases hdone : ∃ result, call.phase = .done result
  · obtain ⟨result, hdone⟩ := hdone
    exact ⟨_, .embedded hdone⟩
  · have hwait : ∀ ticket, call.phase = .wait ticket → isBusy [call] ticket = false := by
      intro ticket hphase
      simp [isBusy, hphase, Phase.computes]
    obtain ⟨phase, shared', hadvance⟩ :=
      Call.exists_advance provider "" shared hwait fun result h => hdone ⟨result, h⟩
    exact ⟨_, .embed hadvance⟩

/-- Some running call can go on or has ended: one that computes waits for nobody, and if none
computes, nobody waits. -/
theorem exists_step_running (shared : Shared) (vector : Option Embedding)
    (waiting : List SourceFile) {running : List (SourceFile × Call)} (hrunning : running ≠ [])
    (scored : List FileScores) :
    ∃ next, Step provider config query files (shared, .scoring vector waiting running scored)
      next := by
  obtain ⟨⟨file, call⟩, hmem, hwait⟩ : ∃ entry ∈ running, ∀ ticket,
      entry.2.phase = .wait ticket → isBusy (running.map Prod.snd) ticket = false := by
    by_cases hcomputes : ∃ entry ∈ running, ∃ ticket, entry.2.phase = .compute ticket
    · obtain ⟨entry, hentry, ticket, hphase⟩ := hcomputes
      refine ⟨entry, hentry, fun other hother => ?_⟩
      rw [hphase] at hother
      cases hother
    · obtain ⟨entry, rest, rfl⟩ := List.exists_cons_of_ne_nil hrunning
      refine ⟨entry, List.mem_cons_self, fun ticket _ => Bool.eq_false_iff.mpr fun hbusy => ?_⟩
      obtain ⟨call, hcall, hbusy⟩ := List.any_eq_true.mp hbusy
      obtain ⟨other, hother, rfl⟩ := List.mem_map.mp hcall
      obtain ⟨found, hfound⟩ := Phase.exists_of_computes hbusy
      exact hcomputes ⟨other, hother, found, hfound⟩
  obtain ⟨before, after, rfl⟩ := List.append_of_mem hmem
  by_cases hdone : ∃ result, call.phase = .done result
  · obtain ⟨result, hdone⟩ := hdone
    exact ⟨_, .finish hdone⟩
  · obtain ⟨phase, shared', hadvance⟩ :=
      Call.exists_advance provider "" shared hwait fun result h => hdone ⟨result, h⟩
    exact ⟨_, .advance hadvance⟩

/-- A search can go on until it has ended. -/
theorem exists_step (shared : Shared) (search : Search) :
    (∃ results, search = .ended results) ∨
      ∃ next, Step provider config query files (shared, search) next := by
  cases search with
  | embedding call => exact .inr (exists_step_embedding shared call)
  | scoring vector waiting running scored =>
    right
    by_cases hrunning : running = []
    · subst hrunning
      cases waiting with
      | nil => exact ⟨_, .rank⟩
      | cons file rest =>
        cases vector with
        | none => exact ⟨_, .pass⟩
        | some vector => exact ⟨_, .begin (Nat.lt_of_lt_of_le Nat.zero_lt_one (Nat.le_max_left ..))⟩
    · exact exists_step_running shared vector waiting hrunning scored
  | ended results => exact .inl ⟨results, rfl⟩

/-- Whatever its calls do to each other, a search comes to its results, and leaves an index behind
that may arise from calls. -/
theorem inevitable {shared : Shared} (hdistinct : Set.InjOn Fingerprint.ofText texts)
    (hquery : query ∈ texts) (hfiles : ∀ file ∈ files, file.content ∈ texts)
    (hpaths : (files.map (·.path)).Nodup) (horder : order.Perm files)
    (hshared : Traffic.Reached provider texts ⟨shared, []⟩) :
    Inevitable (Step provider config query order)
      (fun state => state.2 = .ended (plainRanking provider config query files) ∧
        Traffic.Reached provider texts ⟨state.1, []⟩) (shared, start query) := by
  refine Inevitable.of_invariant (I := Good provider texts config query files)
    (fun state => state.2.weight (distinct order).length)
    (fun _ _ h hstep => h.step hdistinct hfiles hpaths horder hstep)
    (fun _ _ hstep => weight_step hstep) ?_ (Good.start hquery hshared)
  rintro ⟨shared, search⟩ ⟨hreached, hway⟩
  rcases exists_step shared search with ⟨results, rfl⟩ | hstep
  · exact .inl ⟨congrArg Search.ended hway, hreached⟩
  · exact .inr hstep

end Search

/-! ### The program -/

namespace Ranker

variable {m : Type → Type} [Monad m] [LawfulMonad m] {embedder : Embedder m}
  {provider : TextProvider} {texts : Set String} {config : RankerConfig} {query : String}
  {index : EmbeddingIndex} {keys : Set CacheKey}
  (h : embedder.Follows provider keys) (hkeys : ∀ text ∈ texts, provider.key text ∈ keys)
  (hdistinct : Set.InjOn Fingerprint.ofText texts)

include h hkeys hdistinct

theorem ensures_similarity {file : SourceFile} (hcontent : file.content ∈ texts)
    (hindex : index.AtRest provider texts keys) (vector : Embedding) :
    Ensures ((similarity embedder vector file).run index) fun r =>
      r.1 = some (similarityOf (some vector) (provider.answer file.content)) ∧
        r.2.AtRest provider texts keys := by
  unfold similarity
  refine Ensures.run_bind
    (EmbeddingIndex.ensures_update h (hkeys _ hcontent) hdistinct hcontent hindex) ?_
  rintro _ index' ⟨rfl, hrest⟩
  cases provider.answer file.content with
  | error e => exact Ensures.run_pure ⟨rfl, hrest⟩
  | ok embedding =>
    simp only [similarityOf]
    cases Embedding.unitSimilarity vector embedding with
    | error e => exact Ensures.run_pure ⟨rfl, hrest⟩
    | ok score => exact Ensures.run_pure ⟨rfl, hrest⟩

theorem ensures_score {file : SourceFile} (hcontent : file.content ∈ texts)
    (hindex : index.AtRest provider texts keys) :
    Ensures ((score embedder config (Query.terms query) (provider.answer query).toOption file).run
        index) fun r =>
      r.1 = some (plainScores provider config query file) ∧
        r.2.AtRest provider texts keys := by
  unfold score plainScores
  cases provider.answer query with
  | error e =>
    refine Ensures.run_bind (P := (· = (some 0.0, index))) (Ensures.run_pure rfl) ?_
    rintro _ _ ⟨⟩
    exact Ensures.run_pure ⟨rfl, hindex⟩
  | ok vector =>
    refine Ensures.run_bind (ensures_similarity h hkeys hdistinct hcontent hindex vector) ?_
    rintro _ index' ⟨rfl, hrest⟩
    exact Ensures.run_pure ⟨rfl, hrest⟩

theorem ensures_scoreAll {files : List SourceFile} (hfiles : ∀ file ∈ files, file.content ∈ texts)
    (hindex : index.AtRest provider texts keys)
    (config : RankerConfig) (query : String) (workers : Nat) :
    Ensures ((scoreAll embedder config (Query.terms query) (provider.answer query).toOption
        (workers + 1) files).run index) fun r =>
      r.1 = some (files.map (plainScores provider config query)) ∧
        r.2.AtRest provider texts keys := by
  induction files generalizing index with
  | nil =>
    unfold scoreAll
    exact Ensures.run_pure ⟨rfl, hindex⟩
  | cons file rest ih =>
    obtain ⟨hfile, hfiles⟩ := List.forall_mem_cons.mp hfiles
    unfold scoreAll
    refine Ensures.run_bind (ensures_score h hkeys hdistinct hfile hindex) ?_
    rintro _ index' ⟨rfl, hrest⟩
    refine Ensures.run_bind (ih hfiles hrest) ?_
    rintro _ index'' ⟨rfl, hrest'⟩
    exact Ensures.run_pure ⟨rfl, hrest'⟩

theorem ensures_rank {files : List SourceFile} (hquery : query ∈ texts)
    (hfiles : ∀ file ∈ files, file.content ∈ texts) (hindex : index.AtRest provider texts keys) :
    Ensures ((rank embedder config false query files).run index) fun r =>
      r.1 = .results (plainRanking provider config query (distinct files)) ∧
        r.2.AtRest provider texts keys := by
  obtain ⟨workers, hworkers⟩ : ∃ workers, max 1 config.concurrency = workers + 1 :=
    Nat.exists_eq_succ_of_ne_zero (Nat.ne_of_gt (Nat.le_max_left ..))
  have hkept : ∀ file ∈ distinct files, file.content ∈ texts :=
    fun file hfile => hfiles file (mem_of_mem_distinct hfile)
  unfold rank
  simp only [Bool.false_eq_true, if_false, hworkers]
  refine Ensures.run_bind
    (EmbeddingIndex.ensures_embedCached h (hkeys _ hquery) hdistinct hquery hindex) ?_
  rintro _ index' ⟨rfl, hrest⟩
  have hscored := ensures_scoreAll h hkeys hdistinct hkept hrest config query workers
  -- with a vector or without one, all files are scored against what came of the query
  cases hanswer : provider.answer query with
  | error | ok =>
    rw [hanswer] at hscored
    simp only [pure_bind]
    refine Ensures.run_bind hscored ?_
    rintro _ index'' ⟨rfl, hrest'⟩
    exact Ensures.run_pure ⟨rfl, hrest'⟩

end Ranker

/-- The results of a search depend on the provider, the texts and the settings alone: in any state
that calls may have left behind, with the files in any order, with any number of calls at a time and
however they get on, a search comes to the same results, and so does the program, as long as the files
of the keys that come up do not fail. The states that the programs leave behind are among these
states. -/
theorem search_results_fixed (provider : TextProvider) (texts : Set String)
    (hdistinct : Set.InjOn Fingerprint.ofText texts) (config : RankerConfig) (query : String)
    (files : List SourceFile) (hquery : query ∈ texts)
    (hfiles : ∀ file ∈ files, file.content ∈ texts) (hpaths : (files.map (·.path)).Nodup) :
    (∀ shared, Traffic.Reached provider texts ⟨shared, []⟩ → ∀ order, order.Perm files →
      ∀ concurrency, Inevitable
        (Search.Step provider { config with concurrency := concurrency } query order)
        (fun state => state.2 = .ended (Ranker.plainRanking provider config query files) ∧
          Traffic.Reached provider texts ⟨state.1, []⟩)
        (shared, .start query)) ∧
    ∀ (m : Type → Type) [Monad m] [LawfulMonad m] (embedder : Embedder m) (keys : Set CacheKey),
      (∀ text ∈ texts, provider.key text ∈ keys) → embedder.Follows provider keys →
      ∀ index, index.AtRest provider texts keys →
      (∀ order, order.Perm files → ∀ concurrency,
        Ensures ((Ranker.rank embedder { config with concurrency := concurrency } false query
            order).run index) fun r =>
          r.1 = .results (Ranker.plainRanking provider config query files)) ∧
      (∀ config query files, query ∈ texts → (∀ file ∈ files, file.content ∈ texts) →
        Ensures ((Ranker.rank embedder config false query files).run index)
          (·.2.AtRest provider texts keys)) ∧
      ∀ path, ∀ text ∈ texts,
        Ensures ((EmbeddingIndex.update embedder path text).run index)
          (·.2.AtRest provider texts keys) ∧
        Ensures ((EmbeddingIndex.embedCached embedder text).run index)
          (·.2.AtRest provider texts keys) := by
  constructor
  · intro shared hshared order horder concurrency
    exact Search.inevitable hdistinct hquery hfiles hpaths horder hshared
  · intro m _ _ embedder keys hkeys hembedder index hindex
    refine ⟨fun order horder concurrency => ?_, fun config query files hquery hfiles => ?_,
      fun path text htext => ⟨?_, ?_⟩⟩
    · have hcontents : ∀ file ∈ order, file.content ∈ texts :=
        fun file hfile => hfiles file (horder.mem_iff.mp hfile)
      have hnodup := (horder.map (·.path)).nodup_iff.mpr hpaths
      refine (Ranker.ensures_rank hembedder hkeys hdistinct hquery hcontents hindex).mono ?_
      rintro ⟨outcome, index'⟩ ⟨houtcome, -⟩
      rw [Ranker.distinct_of_nodup hnodup] at houtcome
      exact houtcome.trans (congrArg _ (Ranker.plainRanking_perm horder hnodup))
    · exact (Ranker.ensures_rank hembedder hkeys hdistinct hquery hfiles hindex).mono
        fun _ => And.right
    · exact (EmbeddingIndex.ensures_update hembedder (hkeys text htext) hdistinct htext hindex).mono
        fun _ => And.right
    · exact (EmbeddingIndex.ensures_embedCached hembedder (hkeys text htext) hdistinct htext
        hindex).mono fun _ => And.right

/-! ### An example -/

/-- A provider that cannot embed one text. -/
def moodyProvider : TextProvider where
  model := "moody"
  answer text := if text = "x" then .error (.rateLimited 60) else .ok [1.0, 0.5]

/-- The provider in a program without effects, with nothing kept on disk. -/
def moodyEmbedder : Embedder Id where
  provider := {
    name := "moody"
    model := "moody"
    dimension := 2
    isAvailable := true
    embed request := pure (.done ((moodyProvider.answer request.text).map fun vector =>
      { embedding := vector, model := "moody", dimension := 2, tokensUsed := none })) }
  shelf := none

theorem moodyEmbedder_follows (keys : Set CacheKey) :
    moodyEmbedder.Follows moodyProvider keys where
  model := rfl
  embeds text := by
    refine .pure ?_
    cases moodyProvider.answer text with
    | error | ok => rfl
  faultless := Cache.faultless_none

/-- Two files, one of which cannot be embedded. -/
def moodyFiles : List SourceFile :=
  [⟨"a.rs", "fn main() {}"⟩, ⟨"b.rs", "x"⟩]

/-- Their texts and a query. -/
def moodyTexts : List String := ["main", "fn main() {}", "x"]

theorem search_results_fixed_moody :
    Set.InjOn Fingerprint.ofText { text | text ∈ moodyTexts } ∧
    (∀ file ∈ moodyFiles, file.content ∈ moodyTexts) ∧ (moodyFiles.map (·.path)).Nodup ∧
    ∀ concurrency, ∃ results index,
      (Ranker.rank moodyEmbedder { concurrency := concurrency } false "main" moodyFiles).run ∅ =
        (.results results, index) ∧
      ((Ranker.rank moodyEmbedder { concurrency := 1 } false "main" moodyFiles.reverse).run
        index).1 = .results results := by
  have hdistinct : Set.InjOn Fingerprint.ofText { text | text ∈ moodyTexts } := by
    have hnodup : (moodyTexts.map Fingerprint.ofText).Nodup := by decide +kernel
    exact fun _ htext _ hother heq => List.inj_on_of_nodup_map hnodup htext hother heq
  have hfiles : ∀ file ∈ moodyFiles, file.content ∈ moodyTexts := by decide
  have hpaths : (moodyFiles.map (·.path)).Nodup := by decide
  obtain ⟨-, hprogram⟩ := search_results_fixed moodyProvider { text | text ∈ moodyTexts } hdistinct
    {} "main" moodyFiles (by decide) hfiles hpaths
  refine ⟨hdistinct, hfiles, hpaths, fun concurrency => ?_⟩
  have hfollows := moodyEmbedder_follows Set.univ
  obtain ⟨hresults, hkeep, -⟩ :=
    hprogram Id moodyEmbedder Set.univ (fun _ _ => Set.mem_univ _) hfollows ∅ .empty
  have hrest := (hkeep { concurrency := concurrency } "main" moodyFiles (by decide) hfiles).of_id
  obtain ⟨hagain, -⟩ :=
    hprogram Id moodyEmbedder Set.univ (fun _ _ => Set.mem_univ _) hfollows _ hrest
  exact ⟨_, _, Prod.ext (hresults moodyFiles (.refl _) concurrency).of_id rfl,
    (hagain moodyFiles.reverse (List.reverse_perm _) 1).of_id⟩

end ContextSets
