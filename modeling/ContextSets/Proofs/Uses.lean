import ContextSets.Proofs.Search
import ContextSets.Proofs.Table

/-!
# Cycles of uses

How the graph of uses may change without getting a cycle, and that the search for a way back before
an edge is added decides exactly whether the edge would close one.
-/

namespace ContextSets.Repository

open Relation

variable {next other : String → List String}

/-! ### Changes of a graph -/

/-- A graph whose edges are mapped to edges of a graph without cycles has none. -/
theorem NoCycle.comap (h : NoCycle next) (f : String → String)
    (hedge : ∀ source target, Leads other source target → Leads next (f source) (f target)) :
    NoCycle other :=
  fun name hcycle => h (f name) (TransGen.lift f hedge name name hcycle)

theorem NoCycle.mono (h : NoCycle next)
    (hedge : ∀ source target, Leads other source target → Leads next source target) :
    NoCycle other :=
  h.comap id hedge

/-- A path in a graph with one more edge either avoids the edge or runs up to it and on from it. -/
theorem transGen_of_addEdge {source target a b : String}
    (hedge : ∀ a b, Leads other a b → Leads next a b ∨ (a = source ∧ b = target))
    (h : TransGen (Leads other) a b) :
    TransGen (Leads next) a b ∨
      (ReflTransGen (Leads next) a source ∧ ReflTransGen (Leads next) target b) := by
  -- by the last edge: if it is the new one, the path before it has run up to the source
  induction h with
  | single hab =>
    rcases hedge _ _ hab with hold | ⟨rfl, rfl⟩
    · exact .inl (.single hold)
    · exact .inr ⟨.refl, .refl⟩
  | tail _ hbc ih =>
    rcases hedge _ _ hbc with hold | ⟨rfl, rfl⟩
    · rcases ih with hab | ⟨hup, hon⟩
      · exact .inl (hab.tail hold)
      · exact .inr ⟨hup, hon.tail hold⟩
    · rcases ih with hab | ⟨hup, _⟩
      · exact .inr ⟨hab.to_reflTransGen, .refl⟩
      · exact .inr ⟨hup, .refl⟩

/-- An edge closes no cycle if there is no way back along the others. -/
theorem NoCycle.addEdge {source target : String} (h : NoCycle next)
    (hback : ¬ ReflTransGen (Leads next) target source)
    (hedge : ∀ a b, Leads other a b → Leads next a b ∨ (a = source ∧ b = target)) :
    NoCycle other := by
  intro name hcycle
  rcases transGen_of_addEdge hedge hcycle with hold | ⟨hup, hon⟩
  · exact h name hold
  · exact hback (hon.trans hup)

/-! ### The search in a repository -/

theorem usesOf_of_get? {repo : Repository} {key : String} {set : ContextSet}
    (h : repo.sets.get? key = some set) : repo.usesOf key = set.uses := by
  rw [usesOf, h]

theorem mem_usesOf {repo : Repository} {key used : String} :
    used ∈ repo.usesOf key ↔ ∃ set, repo.sets.get? key = some set ∧ used ∈ set.uses := by
  unfold usesOf
  cases repo.sets.get? key <;> simp

theorem mem_keys_of_usesOf_ne_nil {repo : Repository} {key : String} (h : repo.usesOf key ≠ []) :
    key ∈ repo.sets.keys := by
  obtain ⟨used, hused⟩ := List.exists_mem_of_ne_nil _ h
  obtain ⟨set, hset, -⟩ := mem_usesOf.mp hused
  exact Table.mem_keys.mpr (Table.contains_iff.mpr ⟨set, hset⟩)

/-- A way that has not begun has room for all sets. -/
theorem fits_pathBetween (repo : Repository) :
    Fits repo.usesOf repo.sets.keys [] (repo.sets.size + 1) where
  sources := fun _ => mem_keys_of_usesOf_ne_nil
  nodup := List.nodup_nil
  known := List.nil_subset _
  room := by
    rw [Table.size_eq_length_keys, List.length_nil]
    omega

/-- If the search finds nothing, there is no path: what is done is closed under uses. -/
theorem not_reaches_of_pathBetween {repo : Repository} {start target : String}
    (h : repo.pathBetween start target = none) :
    ¬ ReflTransGen (Leads repo.usesOf) start target := by
  have hstart : Explored repo.usesOf target [] [] := ⟨by simp, by simp⟩
  obtain ⟨hdone, -, hmem⟩ := search_none (fits_pathBetween repo) hstart (Prod.ext h rfl)
  intro hpath
  -- what is done contains the start and is closed under edges, but avoids the target
  have hreached : ∀ name, ReflTransGen (Leads repo.usesOf) start name →
      name ∈ (search repo.usesOf target (repo.sets.size + 1) [] start []).2 := by
    intro name hname
    induction hname with
    | refl => exact hmem
    | tail _ hedge ih => exact hdone.closed _ ih List.not_mem_nil _ hedge
  exact hdone.avoids target (hreached target hpath) rfl

theorem isPath_of_pathBetween {repo : Repository} {start target : String} {path : List String}
    (hcycle : NoCycle repo.usesOf) (h : repo.pathBetween start target = some path) :
    IsPath repo.usesOf start target path :=
  search_some hcycle (by simp) (Prod.ext h rfl)

theorem pathBetween_eq_none_iff {repo : Repository} (hcycle : NoCycle repo.usesOf)
    {start target : String} :
    repo.pathBetween start target = none ↔ ¬ ReflTransGen (Leads repo.usesOf) start target := by
  refine ⟨not_reaches_of_pathBetween, fun hno => ?_⟩
  cases h : repo.pathBetween start target with
  | none => rfl
  | some path => exact absurd (isPath_of_pathBetween hcycle h).reaches hno

/-- An edge is refused exactly if its target leads back to its source. -/
theorem cycleIfUsed_eq_none_iff {repo : Repository} (hcycle : NoCycle repo.usesOf)
    {source target : String} :
    repo.cycleIfUsed source target = none ↔
      ¬ ReflTransGen (Leads repo.usesOf) (SetName.bare target) (SetName.bare source) := by
  unfold cycleIfUsed
  by_cases hself : SetName.bare source = SetName.bare target
  · simp [hself, ReflTransGen.refl]
  · simp only [if_neg hself, Option.map_eq_none_iff, pathBetween_eq_none_iff hcycle]

end ContextSets.Repository
