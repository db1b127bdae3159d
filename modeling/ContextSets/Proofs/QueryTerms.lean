import ContextSets.Proofs.FirstOccurrences
import ContextSets.Proofs.TextParts
import ContextSets.Ranking.Query

/-!
# Terms of queries

A query is searched for by its words, in lower case. So its terms are those of the words that are long
enough and not too common, in the order in which they are met first. A query in two halves has the
terms of the one, and behind them the new ones of the other.
-/

namespace ContextSets.Query

variable {query a b term earlier later : String} {c : Char} {position : Nat}

/-- A term is met at a position of a query: it is the lower case of the word there. -/
def MetAt (query : String) (position : Nat) (term : String) : Prop :=
  ∃ word, Text.RunAt separates query.toList position word ∧ Text.lower (String.ofList word) = term

/-- A term is met before another is met for the first time. -/
def MetBefore (query earlier later : String) : Prop :=
  ∃ position, MetAt query position earlier ∧ ∀ other, MetAt query other later → position < other

theorem isTerm_iff : isTerm term = true ↔ 2 ≤ term.length ∧ term ∉ stopWords := by
  simp [isTerm, Nat.lt_iff_add_one_le]

theorem separates_iff : separates c = true ↔ Text.isLetterOrNumber c = false ∧ c ≠ '_' := by
  simp [separates]

/-! ### Queries in two halves -/

theorem toList_halves (a b : String) (c : Char) :
    (a ++ String.singleton c ++ b).toList = a.toList ++ c :: b.toList := by
  simp

theorem terms_append (hc : separates c = true) (a b : String) :
    terms (a ++ String.singleton c ++ b) = terms a ++ (terms b).filter (!(terms a).contains ·) := by
  unfold terms
  rw [toList_halves, Text.splitBy_append_cons hc, List.map_append, List.filter_append,
    eraseDups_append]

theorem metAt_append (hc : separates c = true) :
    MetAt (a ++ String.singleton c ++ b) position term ↔
      MetAt a position term ∨ ∃ behind, position = a.length + 1 + behind ∧ MetAt b behind term := by
  simp only [MetAt, toList_halves, Text.runAt_append_cons hc, or_and_right, exists_or,
    String.length_toList]
  refine or_congr_right ⟨?_, ?_⟩
  · intro hgiven
    obtain ⟨word, ⟨behind, rfl, hrun⟩, hlower⟩ := hgiven
    exact ⟨behind, rfl, word, hrun, hlower⟩
  · intro hgiven
    obtain ⟨behind, rfl, word, hrun, hlower⟩ := hgiven
    exact ⟨word, ⟨behind, rfl, hrun⟩, hlower⟩

theorem MetAt.le_length (h : MetAt query position term) : position ≤ query.length := by
  obtain ⟨word, hrun, -⟩ := h
  have hle := hrun.le_length
  rw [String.length_toList] at hle
  omega

/-- What is met in the first half is met before all that is new in the second. -/
theorem metBefore_append (hc : separates c = true) (hmet : MetAt a position earlier)
    (hfirst : ∀ other, MetAt a other later → position < other) :
    MetBefore (a ++ String.singleton c ++ b) earlier later := by
  refine ⟨position, (metAt_append hc).mpr (.inl hmet), fun other hother => ?_⟩
  rcases (metAt_append hc).mp hother with hfront | ⟨behind, rfl, -⟩
  · exact hfirst other hfront
  · have hle := hmet.le_length
    omega

/-- What is only met in the second half is met in its order. -/
theorem MetBefore.behind (h : MetBefore b earlier later) (hc : separates c = true)
    (hnew : ∀ other, ¬ MetAt a other later) :
    MetBefore (a ++ String.singleton c ++ b) earlier later := by
  obtain ⟨position, hmet, hfirst⟩ := h
  refine ⟨_, (metAt_append hc).mpr (.inr ⟨position, rfl, hmet⟩), fun other hother => ?_⟩
  rcases (metAt_append hc).mp hother with hfront | ⟨behind, rfl, hbehind⟩
  · exact absurd hfront (hnew other)
  · have hlt := hfirst behind hbehind
    omega

/-! ### Which terms, in which order -/

theorem mem_terms :
    term ∈ terms query ↔ isTerm term = true ∧ ∃ position, MetAt query position term := by
  rw [terms, List.mem_eraseDups, List.mem_filter, and_comm, List.mem_map]
  refine and_congr_right fun hterm => ?_
  have hword : ∀ word, Text.lower (String.ofList word) = term → word ≠ [] := by
    rintro _ rfl rfl
    exact absurd hterm (by decide)
  constructor
  · intro hgiven
    obtain ⟨word, hmem, hlower⟩ := hgiven
    obtain ⟨position, hrun⟩ := (Text.mem_splitBy_iff (hword word hlower)).mp hmem
    exact ⟨position, word, hrun, hlower⟩
  · intro hgiven
    obtain ⟨position, word, hrun, hlower⟩ := hgiven
    exact ⟨word, (Text.mem_splitBy_iff (hword word hlower)).mpr ⟨position, hrun⟩, hlower⟩

theorem pairwise_metBefore_append (hc : separates c = true) (ha : (terms a).Pairwise (MetBefore a))
    (hb : (terms b).Pairwise (MetBefore b)) :
    (terms (a ++ String.singleton c ++ b)).Pairwise (MetBefore (a ++ String.singleton c ++ b)) := by
  have hnew : ∀ term ∈ (terms b).filter (!(terms a).contains ·), ∀ other, ¬ MetAt a other term := by
    intro term hterm other hmet
    obtain ⟨hmem, hnot⟩ := List.mem_filter.mp hterm
    have hknown : term ∈ terms a := mem_terms.mpr ⟨(mem_terms.mp hmem).1, other, hmet⟩
    simp [hknown] at hnot
  rw [terms_append hc, List.pairwise_append]
  refine ⟨?_, ?_, fun earlier hearlier later hlater => ?_⟩
  · refine ha.imp fun h => ?_
    obtain ⟨position, hmet, hfirst⟩ := h
    exact metBefore_append hc hmet hfirst
  · exact (hb.filter _).imp_of_mem fun _ hlater h => h.behind hc (hnew _ hlater)
  · obtain ⟨-, position, hmet⟩ := mem_terms.mp hearlier
    exact metBefore_append hc hmet fun other hother => absurd hother (hnew later hlater other)

/-- A single word has no other beside it. -/
theorem pairwise_metBefore_of_none (h : ∀ c ∈ query.toList, separates c = false) :
    (terms query).Pairwise (MetBefore query) := by
  rw [terms, Text.splitBy_of_none h, List.map_singleton, List.filter_singleton]
  cases isTerm (Text.lower (String.ofList query.toList)) with
  | true => exact List.pairwise_singleton _ _
  | false => exact .nil

/-- The terms come in the order in which they are met first. -/
theorem pairwise_metBefore (query : String) : (terms query).Pairwise (MetBefore query) := by
  suffices h : ∀ text, (terms (String.ofList text)).Pairwise (MetBefore (String.ofList text)) by
    simpa using h query.toList
  intro text
  induction text using Text.parts_induction separates with
  | none text h => exact pairwise_metBefore_of_none (by simpa using h)
  | cut front c back hfront hc ih =>
    have hhalves : String.ofList (front ++ c :: back) =
        String.ofList front ++ String.singleton c ++ String.ofList back :=
      String.toList_injective (by simp)
    rw [hhalves]
    exact pairwise_metBefore_append hc (pairwise_metBefore_of_none (by simpa using hfront)) ih

end ContextSets.Query

namespace ContextSets

open Query

/-- Where a character that is in no word divides a query, its terms are those of the first half and
then those of the second that the first does not have. The terms of a query are distinct. They are the
lower case of its words, the longest runs of letters, numbers and underscores, as far as that has two
characters and is not too common, and they come in the order in which they are met first. -/
theorem query_terms_are_compositional :
    (∀ (a b : String) (c : Char), Text.isLetterOrNumber c = false → c ≠ '_' →
      terms (a ++ String.singleton c ++ b) =
        terms a ++ (terms b).filter (!(terms a).contains ·)) ∧
      ∀ query, (terms query).Nodup ∧
        (∀ term, term ∈ terms query ↔
          2 ≤ term.length ∧ term ∉ stopWords ∧ ∃ position, MetAt query position term) ∧
        (terms query).Pairwise (MetBefore query) := by
  constructor
  · intro a b c hletter hline
    exact terms_append (separates_iff.mpr ⟨hletter, hline⟩) a b
  · intro query
    refine ⟨nodup_eraseDups _, fun term => ?_, pairwise_metBefore query⟩
    rw [mem_terms, isTerm_iff, and_assoc]

theorem query_terms_are_compositional_login :
    Text.isLetterOrNumber '?' = false ∧ '?' ≠ '_' ∧
      terms "How does the Login flow work?log_in, login" = ["login", "flow", "work", "log_in"] ∧
      MetBefore "How does the Login flow work?log_in, login" "login" "log_in" := by
  have hletter : Text.isLetterOrNumber '?' = false := by decide
  have hline : '?' ≠ '_' := by decide
  obtain ⟨hhalves, hterms⟩ := query_terms_are_compositional
  have hsecond := hhalves "How does the Login flow work" "log_in, login" '?' hletter hline
  have hfirst : terms "How does the Login flow work" = ["login", "flow", "work"] := by decide
  have hnew : terms "log_in, login" = ["log_in", "login"] := by decide
  rw [hfirst, hnew] at hsecond
  have hall : terms "How does the Login flow work?log_in, login" =
      ["login", "flow", "work", "log_in"] := hsecond
  obtain ⟨-, -, horder⟩ := hterms "How does the Login flow work?log_in, login"
  rw [hall] at horder
  exact ⟨hletter, hline, hall, (List.pairwise_cons.mp horder).1 "log_in" (by simp)⟩

end ContextSets
