import ContextSets.Proofs.LineDeclarations
import ContextSets.Ranking.Structure

/-!
# Declarations that fit a query

A declaration fits a query if one of the terms fits its name. The declarations are gone through once
for each term, and those that fit are listed unless they are on the list already. What is listed in
the end is what fits, each declaration once, and sorted it is in the strict order of declarations: so
neither the order of the terms nor that of the declarations shows, nor how often one of them is given.
-/

namespace ContextSets

theorem Text.occursIn_iff {part whole : List Char} :
    Text.occursIn part whole = true ↔ part <:+: whole := by
  induction whole with
  | nil => simp [Text.occursIn]
  | cons c rest ih =>
    rw [Text.occursIn, Bool.or_eq_true, List.isPrefixOf_iff_prefix, ih, List.infix_cons_iff]

namespace Structure

/-- A term fits a name if in lower case the name is the term, or contains it, or has three bytes or
more and is contained in the term. -/
def Fits (term name : String) : Prop :=
  Text.lower name = term ∨ term.toList <:+: (Text.lower name).toList ∨
    3 ≤ (Text.lower name).utf8ByteSize ∧ (Text.lower name).toList <:+: term.toList

variable {term : String} {terms other : List String} {path content : List Char}
  {named : List (String × Declaration)} {found sum : Float32 × List Declaration}
  {analysis others : Analysis} {d : Declaration}

theorem isSome_fit?_iff : (fit? term (Text.lower d.name)).isSome = true ↔ Fits term d.name := by
  unfold fit? Fits
  by_cases hsame : Text.lower d.name = term
  · simp [hsame]
  · rw [if_neg hsame, or_iff_right hsame]
    simp [Text.occursIn_iff]

/-! ### What is listed for a term -/

theorem mem_weigh {name : String} {declaration : Declaration} :
    d ∈ (weigh term found (name, declaration)).2 ↔
      d ∈ found.2 ∨ (fit? term name).isSome = true ∧ declaration = d := by
  unfold weigh
  cases fit? term name with
  | none => simp
  | some fit =>
    simp only [Option.isSome_some, true_and]
    split
    case isTrue hlisted =>
      rw [List.contains_iff_mem] at hlisted
      exact (or_iff_left_of_imp fun h => h ▸ hlisted).symm
    case isFalse => rw [List.mem_append, List.mem_singleton, eq_comm (a := d)]

theorem nodup_weigh (declaration : String × Declaration) (h : found.2.Nodup) :
    (weigh term found declaration).2.Nodup := by
  unfold weigh
  cases fit? term declaration.1 with
  | none => exact h
  | some fit =>
    dsimp only
    split
    case isTrue => exact h
    case isFalse hlisted =>
      rw [List.contains_iff_mem] at hlisted
      exact List.nodup_append_comm.mp (List.nodup_cons.mpr ⟨hlisted, h⟩)

theorem mem_foldl_weigh :
    d ∈ (named.foldl (weigh term) found).2 ↔
      d ∈ found.2 ∨ ∃ name, (name, d) ∈ named ∧ (fit? term name).isSome = true := by
  induction named generalizing found with
  | nil => simp
  | cons first rest ih =>
    obtain ⟨name, declaration⟩ := first
    rw [List.foldl_cons, ih, mem_weigh, or_assoc]
    refine or_congr_right ⟨?_, ?_⟩
    · rintro (⟨hfits, rfl⟩ | ⟨name, hmem, hfits⟩)
      · exact ⟨name, List.mem_cons_self, hfits⟩
      · exact ⟨name, List.mem_cons_of_mem _ hmem, hfits⟩
    · rintro ⟨other, hmem, hfits⟩
      rcases List.mem_cons.mp hmem with heq | hmem
      · obtain ⟨rfl, rfl⟩ := Prod.mk.inj heq
        exact .inl ⟨hfits, rfl⟩
      · exact .inr ⟨other, hmem, hfits⟩

theorem nodup_foldl_weigh (h : found.2.Nodup) : (named.foldl (weigh term) found).2.Nodup := by
  induction named generalizing found with
  | nil => exact h
  | cons first rest ih => exact ih (nodup_weigh first h)

/-! ### What is listed for all terms -/

theorem mem_foldl_addTerm :
    d ∈ (terms.foldl (addTerm named path content) sum).2 ↔
      d ∈ sum.2 ∨ ∃ term ∈ terms, ∃ name, (name, d) ∈ named ∧ (fit? term name).isSome = true := by
  induction terms generalizing sum with
  | nil => simp
  | cons term rest ih =>
    rw [List.foldl_cons, ih, addTerm, mem_foldl_weigh, List.exists_mem_cons_iff, or_assoc]

theorem nodup_foldl_addTerm (h : sum.2.Nodup) :
    (terms.foldl (addTerm named path content) sum).2.Nodup := by
  induction terms generalizing sum with
  | nil => exact h
  | cons term rest ih => exact ih (nodup_foldl_weigh h)

/-- Whether a declaration fits one of the terms. -/
def fitsSome (terms : List String) (declaration : Declaration) : Bool :=
  terms.any fun term => (fit? term (Text.lower declaration.name)).isSome

theorem fitsSome_iff : fitsSome terms d = true ↔ ∃ term ∈ terms, Fits term d.name := by
  simp only [fitsSome, List.any_eq_true, isSome_fit?_iff]

/-- What the loops over terms and declarations gather is what a single filter finds, sorted. -/
theorem assess_snd (terms : List String) (path content : String) (analysis : Analysis) :
    (assess terms path content analysis).2 =
      Declaration.arrange (analysis.declarations.filter (fitsSome terms)) := by
  refine Declaration.eq_of_pairwise_before ?_ (Declaration.pairwise_arrange _) fun d => ?_
  · unfold assess
    split
    case isTrue => exact List.Pairwise.nil
    case isFalse => exact Declaration.pairwise_mergeSort (nodup_foldl_addTerm List.nodup_nil)
  · rw [Declaration.mem_arrange, List.mem_filter, fitsSome_iff, assess]
    split
    case isTrue hnone => simp [List.isEmpty_iff.mp hnone]
    case isFalse =>
      rw [List.mem_mergeSort, mem_foldl_addTerm, or_iff_right List.not_mem_nil]
      constructor
      · rintro ⟨term, hterm, name, hmem, hfits⟩
        obtain ⟨declaration, hdeclared, heq⟩ := List.mem_map.mp hmem
        obtain ⟨rfl, rfl⟩ := Prod.mk.inj heq
        exact ⟨hdeclared, term, hterm, isSome_fit?_iff.mp hfits⟩
      · rintro ⟨hdeclared, term, hterm, hfits⟩
        exact ⟨term, hterm, _, List.mem_map.mpr ⟨d, hdeclared, rfl⟩, isSome_fit?_iff.mpr hfits⟩

theorem assess_snd_eq_fitting (terms : List String) (path content : String) (analysis : Analysis) :
    (assess terms path content analysis).2 = fitting terms analysis := by
  rw [fitting, assess_snd, assess_snd]

theorem mem_fitting :
    d ∈ fitting terms analysis ↔ d ∈ analysis.declarations ∧ ∃ term ∈ terms, Fits term d.name := by
  rw [fitting, assess_snd, Declaration.mem_arrange, List.mem_filter, fitsSome_iff]

theorem pairwise_fitting (terms : List String) (analysis : Analysis) :
    (fitting terms analysis).Pairwise Declaration.Before := by
  rw [fitting, assess_snd]
  exact Declaration.pairwise_arrange _

/-- The same terms and the same declarations are all that matters. -/
theorem fitting_congr (hterms : ∀ term, term ∈ other ↔ term ∈ terms)
    (hdeclarations : ∀ d, d ∈ others.declarations ↔ d ∈ analysis.declarations) :
    fitting other others = fitting terms analysis := by
  refine Declaration.eq_of_pairwise_before (pairwise_fitting _ _) (pairwise_fitting _ _) fun d => ?_
  simp only [mem_fitting, hterms, hdeclarations]

end Structure

open Structure

/-- The declarations that come with the structural score are in strict order by line and name, and
they are those of the file that one of the terms fits. So they stay the same when terms or declarations
are given in another order or more than once, and they do not depend on the path and the text. Without
terms there are none. -/
theorem fitting_declarations_are_exact (terms : List String) (path content : String)
    (analysis : Analysis) :
    (assess terms path content analysis).2.Pairwise Declaration.Before ∧
      (∀ d, d ∈ (assess terms path content analysis).2 ↔
        (d ∈ analysis.functions ∨ d ∈ analysis.classes) ∧ ∃ term ∈ terms, Fits term d.name) ∧
      (∀ other path' content' others, (∀ term, term ∈ other ↔ term ∈ terms) →
        (∀ d, d ∈ others.declarations ↔ d ∈ analysis.declarations) →
        (assess other path' content' others).2 = (assess terms path content analysis).2) ∧
      (assess [] path content analysis).2 = [] := by
  refine ⟨?_, fun d => ?_, fun other path' content' others hterms hdeclarations => ?_, rfl⟩
  · rw [assess_snd_eq_fitting]
    exact pairwise_fitting terms analysis
  · rw [assess_snd_eq_fitting, mem_fitting, Analysis.declarations, List.mem_append]
  · rw [assess_snd_eq_fitting, assess_snd_eq_fitting]
    exact fitting_congr hterms hdeclarations

/-- A class that is also found as a function is listed once. The name "db" is too short to be looked
for in "dbms", and "Log" is not. -/
theorem fitting_declarations_are_exact_log :
    let terms := ["logs", "dbms"]
    let analysis : Analysis := ⟨[⟨"db", 1⟩, ⟨"newLogs", 7⟩, ⟨"Log", 3⟩], [⟨"Log", 3⟩]⟩
    let others : Analysis := ⟨[⟨"Log", 3⟩], [⟨"newLogs", 7⟩, ⟨"db", 1⟩, ⟨"newLogs", 7⟩]⟩
    (∀ term, term ∈ ["dbms", "logs", "dbms"] ↔ term ∈ terms) ∧
      (∀ d, d ∈ others.declarations ↔ d ∈ analysis.declarations) ∧
      (assess terms "a.rs" "" analysis).2 = [⟨"Log", 3⟩, ⟨"newLogs", 7⟩] ∧
      (assess ["dbms", "logs", "dbms"] "b.rs" "" others).2 = [⟨"Log", 3⟩, ⟨"newLogs", 7⟩] := by
  intro terms analysis others
  have hterms : ∀ term, term ∈ ["dbms", "logs", "dbms"] ↔ term ∈ terms := by
    simp [terms, or_comm]
  have hdeclarations : ∀ d, d ∈ others.declarations ↔ d ∈ analysis.declarations := by
    intro d
    simp only [others, analysis, Analysis.declarations, List.mem_append, List.mem_cons]
    tauto
  have hfitting : analysis.declarations.filter (fitsSome terms) =
      [⟨"newLogs", 7⟩, ⟨"Log", 3⟩, ⟨"Log", 3⟩] := by decide
  have hfound : (assess terms "a.rs" "" analysis).2 = [⟨"Log", 3⟩, ⟨"newLogs", 7⟩] := by
    rw [assess_snd, hfitting]
    refine Declaration.eq_of_pairwise_before (Declaration.pairwise_arrange _) ?_ fun d => ?_
    · simp [Declaration.Before]
    · rw [Declaration.mem_arrange]
      simp [or_comm]
  obtain ⟨-, -, hsame, -⟩ := fitting_declarations_are_exact terms "a.rs" "" analysis
  exact ⟨hterms, hdeclarations, hfound, (hsame _ _ _ _ hterms hdeclarations).trans hfound⟩

end ContextSets
