import ContextSets.Embedding.Index
import ContextSets.Proofs.Sorting

/-!
# The most similar candidates

A search scores every candidate before it looks at how many it may return, so it fails as soon as one
of them cannot be compared with the query. Otherwise its results are the first of one ranking of the
candidates that reach the least score. The ranking is a strict order, so neither the order of the
candidates nor the number of results asked for changes it.
-/

namespace ContextSets

namespace Embedding

/-- Vectors are compared exactly if they have the same number of components. -/
theorem exists_cosine_iff {a b : Embedding} :
    (∃ score, cosine a b = .ok score) ↔ a.length = b.length := by
  unfold cosine
  by_cases hlength : a.length = b.length
  · rw [if_neg (not_not_intro hlength)]
    refine ⟨fun _ => hlength, fun _ => ?_⟩
    split
    · exact ⟨_, rfl⟩
    · exact ⟨_, rfl⟩
  · rw [if_pos hlength]
    refine ⟨?_, fun h => absurd h hlength⟩
    rintro ⟨score, h⟩
    cases h

theorem cosine_of_ne {a b : Embedding} (h : a.length ≠ b.length) :
    cosine a b = .error (.dimensionMismatch a.length b.length) :=
  if_pos h

end Embedding

namespace Scored

variable {query : Embedding} {candidates other : List (String × Embedding)} {least : Float32}

/-! ### Scoring all candidates -/

/-- All candidates can be compared with the query. -/
def Comparable (query : Embedding) (candidates : List (String × Embedding)) : Prop :=
  ∀ candidate ∈ candidates, query.length = candidate.2.length

/-- The score of a candidate that can be compared with the query. -/
def scoreOf (query : Embedding) (candidate : String × Embedding) : Float32 :=
  (Embedding.cosine query candidate.2).toOption.getD 0.0

theorem cosine_eq_scoreOf {candidate : String × Embedding}
    (h : query.length = candidate.2.length) :
    Embedding.cosine query candidate.2 = .ok (scoreOf query candidate) := by
  obtain ⟨score, hscore⟩ := Embedding.exists_cosine_iff.mpr h
  rw [scoreOf, hscore]
  rfl

/-- A candidate with its score. -/
def ofCandidate (query : Embedding) (candidate : String × Embedding) : Scored :=
  ⟨candidate.1, scoreOf query candidate⟩

theorem ofCandidates_of_comparable (h : Comparable query candidates) :
    ofCandidates query candidates = .ok (candidates.map (ofCandidate query)) := by
  induction candidates with
  | nil => rfl
  | cons candidate rest ih =>
    obtain ⟨id, embedding⟩ := candidate
    obtain ⟨hfirst, hrest⟩ := List.forall_mem_cons.mp h
    have hscore := cosine_eq_scoreOf hfirst
    simp only at hscore
    rw [ofCandidates, hscore, ih hrest]
    rfl

/-- The first candidate that cannot be compared is the one that is reported. -/
theorem ofCandidates_of_not_comparable {before after : List (String × Embedding)}
    {candidate : String × Embedding} (hbefore : Comparable query before)
    (h : query.length ≠ candidate.2.length) :
    ofCandidates query (before ++ candidate :: after) =
      .error (.dimensionMismatch query.length candidate.2.length) := by
  induction before with
  | nil =>
    obtain ⟨id, embedding⟩ := candidate
    rw [List.nil_append, ofCandidates, Embedding.cosine_of_ne h]
    rfl
  | cons first rest ih =>
    obtain ⟨id, embedding⟩ := first
    obtain ⟨hfirst, hrest⟩ := List.forall_mem_cons.mp hbefore
    have hscore := cosine_eq_scoreOf hfirst
    simp only at hscore
    rw [List.cons_append, ofCandidates, hscore, ih hrest]
    rfl

theorem exists_first_of_not_comparable (h : ¬ Comparable query candidates) :
    ∃ before candidate after, candidates = before ++ candidate :: after ∧
      Comparable query before ∧ query.length ≠ candidate.2.length := by
  induction candidates with
  | nil => exact absurd (List.forall_mem_nil _) h
  | cons candidate rest ih =>
    by_cases hfirst : query.length = candidate.2.length
    · have hrest : ¬ Comparable query rest :=
        fun hrest => h (List.forall_mem_cons.mpr ⟨hfirst, hrest⟩)
      obtain ⟨before, next, after, rfl, hbefore, hnext⟩ := ih hrest
      exact ⟨candidate :: before, next, after, rfl,
        List.forall_mem_cons.mpr ⟨hfirst, hbefore⟩, hnext⟩
    · exact ⟨[], candidate, rest, rfl, List.forall_mem_nil _, hfirst⟩

/-! ### The ranking -/

/-- One candidate is better than another: its score is higher, or the scores are at one place and its
id comes first. -/
def Outranks (a b : Scored) : Prop :=
  Single.place b.score < Single.place a.score ∨
    Single.place a.score = Single.place b.score ∧ a.id < b.id

theorem precedes_ranksBy : RanksBy precedes (fun s => Single.place s.score) (·.id) := by
  intro a b
  unfold precedes
  by_cases h : Single.place a.score = Single.place b.score
  · simp [h]
  · simp [h]

/-- The scored candidates that reach a score, the best one first. -/
def ranking (query : Embedding) (candidates : List (String × Embedding)) (least : Float32) :
    List Scored :=
  ((candidates.map (ofCandidate query)).filter fun s => least ≤ s.score).mergeSort precedes

theorem mostSimilar_of_comparable (h : Comparable query candidates) (count : Nat) :
    mostSimilar query candidates count least = .ok ((ranking query candidates least).take count) := by
  rw [mostSimilar, ofCandidates_of_comparable h]
  rfl

theorem mostSimilar_of_not_comparable {before after : List (String × Embedding)}
    {candidate : String × Embedding} (hbefore : Comparable query before)
    (h : query.length ≠ candidate.2.length) (count : Nat) :
    mostSimilar query (before ++ candidate :: after) count least =
      .error (.dimensionMismatch query.length candidate.2.length) := by
  rw [mostSimilar, ofCandidates_of_not_comparable hbefore h]
  rfl

theorem comparable_of_mostSimilar {count : Nat} {results : List Scored}
    (h : mostSimilar query candidates count least = .ok results) :
    Comparable query candidates := by
  by_contra hnot
  obtain ⟨before, candidate, after, rfl, hbefore, hcandidate⟩ := exists_first_of_not_comparable hnot
  rw [mostSimilar_of_not_comparable hbefore hcandidate] at h
  cases h

theorem ids_reaching_sublist (query : Embedding) (candidates : List (String × Embedding))
    (least : Float32) :
    (((candidates.map (ofCandidate query)).filter fun s => least ≤ s.score).map (·.id)).Sublist
      (candidates.map Prod.fst) := by
  have hids : (candidates.map (ofCandidate query)).map (·.id) = candidates.map Prod.fst := by
    rw [List.map_map]
    rfl
  rw [← hids]
  exact List.filter_sublist.map _

theorem pairwise_ranking (hids : (candidates.map Prod.fst).Nodup) :
    (ranking query candidates least).Pairwise Outranks :=
  precedes_ranksBy.pairwise_mergeSort (hids.sublist (ids_reaching_sublist query candidates least))

/-- The order of the candidates makes no difference to the ranking. -/
theorem ranking_perm (hids : (candidates.map Prod.fst).Nodup) (hperm : candidates.Perm other) :
    ranking query candidates least = ranking query other least :=
  precedes_ranksBy.mergeSort_perm ((hperm.map _).filter _)
    (hids.sublist (ids_reaching_sublist query candidates least))

theorem mem_ranking (h : Comparable query candidates) {scored : Scored} :
    scored ∈ ranking query candidates least ↔
      ∃ embedding, (scored.id, embedding) ∈ candidates ∧
        Embedding.cosine query embedding = .ok scored.score ∧ least ≤ scored.score := by
  rw [ranking, List.mem_mergeSort, List.mem_filter, List.mem_map, decide_eq_true_iff]
  constructor
  · rintro ⟨⟨⟨id, embedding⟩, hmem, rfl⟩, hleast⟩
    exact ⟨embedding, hmem, cosine_eq_scoreOf (h _ hmem), hleast⟩
  · rintro ⟨embedding, hmem, hscore, hleast⟩
    refine ⟨⟨(scored.id, embedding), hmem, ?_⟩, hleast⟩
    have hsame := cosine_eq_scoreOf (h _ hmem)
    rw [hscore] at hsame
    rw [ofCandidate, ← Except.ok.inj hsame]

/-- Whether a candidate can be compared with the query and reaches a score. -/
def reaches (query : Embedding) (least : Float32) (candidate : String × Embedding) : Bool :=
  match Embedding.cosine query candidate.2 with
  | .ok score => least ≤ score
  | .error _ => false

theorem length_ranking (h : Comparable query candidates) :
    (ranking query candidates least).length = candidates.countP (reaches query least) := by
  rw [ranking, List.length_mergeSort, List.filter_map, List.length_map, ← List.countP_eq_length_filter]
  refine List.countP_congr fun candidate hmem => ?_
  rw [reaches, cosine_eq_scoreOf (h candidate hmem)]
  rfl

/-! ### Selections -/

/-- The results of a search, with the candidates that are left out behind them: all candidates that
reach the least score, in strict order, and as many results as there may be. -/
structure Selection (query : Embedding) (candidates : List (String × Embedding)) (count : Nat)
    (least : Float32) (results omitted : List Scored) : Prop where
  pairwise : (results ++ omitted).Pairwise Outranks
  mem_iff : ∀ scored, scored ∈ results ++ omitted ↔
    ∃ embedding, (scored.id, embedding) ∈ candidates ∧
      Embedding.cosine query embedding = .ok scored.score ∧ least ≤ scored.score
  length_eq : results.length = min count (candidates.countP (reaches query least))

theorem selection_take (hids : (candidates.map Prod.fst).Nodup) (h : Comparable query candidates)
    (count : Nat) :
    Selection query candidates count least ((ranking query candidates least).take count)
      ((ranking query candidates least).drop count) where
  pairwise := by
    rw [List.take_append_drop]
    exact pairwise_ranking hids
  mem_iff scored := by
    rw [List.take_append_drop]
    exact mem_ranking h
  length_eq := by rw [List.length_take, length_ranking h]

end Scored

/-- The indexed files and their vectors, as a search takes them. -/
def EmbeddingIndex.candidates (index : EmbeddingIndex) : List (String × Embedding) :=
  index.entries.entries.map fun (path, entry) => (path, entry.embedding)

namespace Scored

/-- A search for the most similar candidates fails exactly if one of them cannot be compared with the
query. Otherwise its results are the best of the candidates that reach the least score, whatever the
order of the candidates, also where they are the files of an index, and a search for more results
goes on behind them. -/
theorem most_similar_are_selected (query : Embedding) (candidates : List (String × Embedding))
    (count : Nat) (least : Float32) (hids : (candidates.map Prod.fst).Nodup) :
    ((∃ error, mostSimilar query candidates count least = .error error) ↔
      ∃ candidate ∈ candidates, candidate.2.length ≠ query.length) ∧
    ∀ results, mostSimilar query candidates count least = .ok results →
      (∃ omitted, Selection query candidates count least results omitted) ∧
      (∀ other, candidates.Perm other → mostSimilar query other count least = .ok results) ∧
      (∀ index : EmbeddingIndex, candidates.Perm index.candidates →
        index.search query count least = .ok results) ∧
      ∀ more, count ≤ more → ∃ rest,
        mostSimilar query candidates more least = .ok (results ++ rest) := by
  refine ⟨⟨?_, ?_⟩, fun results hresults => ?_⟩
  · rintro ⟨error, herror⟩
    by_contra hnone
    have hcomparable : Comparable query candidates := by
      intro candidate hmem
      by_contra hne
      exact hnone ⟨candidate, hmem, Ne.symm hne⟩
    rw [mostSimilar_of_comparable hcomparable] at herror
    cases herror
  · rintro ⟨candidate, hmem, hne⟩
    cases hresult : mostSimilar query candidates count least with
    | error error => exact ⟨error, rfl⟩
    | ok results => exact absurd (comparable_of_mostSimilar hresult candidate hmem).symm hne
  · have hcomparable := comparable_of_mostSimilar hresults
    rw [mostSimilar_of_comparable hcomparable] at hresults
    obtain rfl := Except.ok.inj hresults
    have hother : ∀ other, candidates.Perm other →
        mostSimilar query other count least =
          .ok ((ranking query candidates least).take count) := by
      intro other hperm
      have hcomparable' : Comparable query other :=
        fun candidate hmem => hcomparable candidate (hperm.mem_iff.mpr hmem)
      rw [mostSimilar_of_comparable hcomparable', ranking_perm hids hperm]
    refine ⟨⟨_, selection_take hids hcomparable count⟩, hother, fun index hperm => ?_,
      fun more hmore => ?_⟩
    · exact hother index.candidates hperm
    · refine ⟨((ranking query candidates least).take more).drop count, ?_⟩
      rw [mostSimilar_of_comparable hcomparable]
      have htake : (ranking query candidates least).take count =
          ((ranking query candidates least).take more).take count := by
        rw [List.take_take, Nat.min_eq_left hmore]
      rw [htake, List.take_append_drop]

/-- Two candidates with one vector: the ids decide. -/
theorem most_similar_are_selected_twins :
    ([("z", [1.0, 0.0]), ("m", [1.0, 0.0])].map (Prod.fst : String × Embedding → String)).Nodup ∧
      ∃ results omitted,
        mostSimilar [1.0, 0.0] [("z", [1.0, 0.0]), ("m", [1.0, 0.0])] 5 0.0 = .ok results ∧
          Selection [1.0, 0.0] [("z", [1.0, 0.0]), ("m", [1.0, 0.0])] 5 0.0 results omitted := by
  have hids : ([("z", [1.0, 0.0]), ("m", [1.0, 0.0])].map
      (Prod.fst : String × Embedding → String)).Nodup := by decide
  obtain ⟨hfails, hsucceeds⟩ := most_similar_are_selected [1.0, 0.0]
    [("z", [1.0, 0.0]), ("m", [1.0, 0.0])] 5 0.0 hids
  cases hresult : mostSimilar [1.0, 0.0] [("z", [1.0, 0.0]), ("m", [1.0, 0.0])] 5 0.0 with
  | error error =>
    obtain ⟨candidate, hmem, hne⟩ := hfails.mp ⟨error, hresult⟩
    simp only [List.mem_cons, List.not_mem_nil, or_false] at hmem
    rcases hmem with rfl | rfl
    · exact absurd rfl hne
    · exact absurd rfl hne
  | ok results =>
    obtain ⟨⟨omitted, hselection⟩, -⟩ := hsucceeds results hresult
    exact ⟨hids, results, omitted, rfl, hselection⟩

end Scored

end ContextSets
