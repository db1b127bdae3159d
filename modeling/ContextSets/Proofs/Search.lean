import ContextSets.Repository.Uses
import Mathlib.Logic.Relation
import Mathlib.Data.List.Chain

/-!
# The depth-first search for a path

The search shares the names done across branches. It stays complete because a name that is done and
not on the way any more has only done successors; it is sound because every name on the way leads to
the name being visited, so in a graph without cycles no name is met twice on one way.
-/

namespace ContextSets.Repository

open Relation

/-- The edges of the graph in which a search runs. -/
def Leads (next : String → List String) (source target : String) : Prop :=
  target ∈ next source

/-- No name leads back to itself. -/
def NoCycle (next : String → List String) : Prop :=
  ∀ name, ¬ TransGen (Leads next) name name

/-- The names from a start to a target along the edges, both included. -/
structure IsPath (next : String → List String) (start target : String) (path : List String) :
    Prop where
  chain : path.IsChain (Leads next)
  head : path.head? = some start
  last : path.getLast? = some target

variable {next : String → List String} {target : String}

theorem IsPath.single (name : String) : IsPath next name name [name] :=
  ⟨.singleton name, rfl, rfl⟩

theorem IsPath.cons {source start : String} {path : List String} (h : IsPath next start target path)
    (hedge : Leads next source start) : IsPath next source target (source :: path) where
  chain := by
    refine h.chain.cons fun name hname => ?_
    rw [h.head, Option.mem_some_iff] at hname
    exact hname ▸ hedge
  head := rfl
  last := by
    rw [List.getLast?_cons, h.last]
    rfl

theorem IsPath.reaches {start : String} {path : List String} (h : IsPath next start target path) :
    ReflTransGen (Leads next) start target := by
  induction path generalizing start with
  | nil => cases h.head
  | cons name rest ih =>
    obtain ⟨hchain, hhead, hlast⟩ := h
    cases hhead
    cases rest with
    | nil =>
      cases hlast
      exact .refl
    | cons second rest =>
      have hedge := (List.isChain_cons_cons.mp hchain).1
      have hrest : IsPath next second target (second :: rest) :=
        ⟨(List.isChain_cons_cons.mp hchain).2, rfl, by simpa using hlast⟩
      exact .head hedge (ih hrest)

/-! ### What is known of the names done -/

/-- A way through known names that leaves room for the bound on its length. -/
structure Fits (next : String → List String) (nodes way : List String) (depth : Nat) : Prop where
  sources : ∀ name, next name ≠ [] → name ∈ nodes
  nodup : way.Nodup
  known : way ⊆ nodes
  room : nodes.length < depth + way.length

/-- None of the names done is the target, and what a finished one leads to is done as well. -/
structure Explored (next : String → List String) (target : String) (way done : List String) :
    Prop where
  avoids : ∀ name ∈ done, name ≠ target
  closed : ∀ name ∈ done, name ∉ way → ∀ used ∈ next name, used ∈ done

theorem Fits.depth_ne_zero {nodes way : List String} {depth : Nat}
    (h : Fits next nodes way depth) : depth ≠ 0 := by
  rintro rfl
  have hle := h.nodup.length_le_of_subset h.known
  have hroom := h.room
  omega

theorem Fits.step {nodes way : List String} {depth : Nat} {current : String}
    (h : Fits next nodes way (depth + 1)) (hnew : current ∉ way) (hnext : next current ≠ []) :
    Fits next nodes (current :: way) depth where
  sources := h.sources
  nodup := List.nodup_cons.mpr ⟨hnew, h.nodup⟩
  known := List.cons_subset.mpr ⟨h.sources current hnext, h.known⟩
  room := by
    have hroom := h.room
    rw [List.length_cons]
    omega

theorem Explored.enter {way done : List String} {current : String}
    (h : Explored next target way done) (hcurrent : current ≠ target) :
    Explored next target (current :: way) (current :: done) where
  avoids := by
    intro name hname
    rcases List.mem_cons.mp hname with rfl | hname
    · exact hcurrent
    · exact h.avoids name hname
  closed := by
    intro name hname hway used hused
    rw [List.mem_cons, not_or] at hway
    have hdone := (List.mem_cons.mp hname).resolve_left hway.1
    exact List.mem_cons_of_mem _ (h.closed name hdone hway.2 used hused)

/-- A name is finished once all it leads to is done. -/
theorem Explored.leave {way done : List String} {current : String}
    (h : Explored next target (current :: way) done) (hall : ∀ used ∈ next current, used ∈ done) :
    Explored next target way done where
  avoids := h.avoids
  closed := by
    intro name hname hway used hused
    by_cases hcurrent : name = current
    · exact hall used (hcurrent ▸ hused)
    · exact h.closed name hname (by simp [hcurrent, hway]) used hused

/-! ### A search that finds nothing -/

/-- What one visit does to the names done, all visits do. -/
theorem firstLeading_none {visit : String → List String → Option (List String) × List String}
    {P : List String → Prop} {names done after : List String}
    (hvisit : ∀ name ∈ names, ∀ done after, P done → visit name done = (none, after) →
      P after ∧ done ⊆ after ∧ name ∈ after)
    (h : firstLeading visit names done = (none, after)) (hdone : P done) :
    P after ∧ done ⊆ after ∧ ∀ name ∈ names, name ∈ after := by
  induction names generalizing done with
  | nil =>
    cases h
    exact ⟨hdone, List.Subset.refl _, by simp⟩
  | cons name rest ih =>
    simp only [firstLeading] at h
    split at h
    · cases h
    · rename_i between hname
      obtain ⟨hbetween, hsub, hmem⟩ := hvisit name List.mem_cons_self _ _ hdone hname
      obtain ⟨hafter, hsub', hall⟩ :=
        ih (fun other hother => hvisit other (List.mem_cons_of_mem _ hother)) h hbetween
      refine ⟨hafter, List.Subset.trans hsub hsub', fun other hother => ?_⟩
      rcases List.mem_cons.mp hother with rfl | hother
      · exact hsub' hmem
      · exact hall other hother

/-- Induction on the depth: the invariant is entered with the current name on the way and left when
all it leads to has been visited. -/
theorem search_none {nodes way done after : List String} {depth : Nat} {current : String}
    (hfits : Fits next nodes way depth) (hdone : Explored next target way done)
    (h : search next target depth way current done = (none, after)) :
    Explored next target way after ∧ done ⊆ after ∧ current ∈ after := by
  induction depth generalizing way current done after with
  -- the way would be longer than there are names
  | zero => exact absurd rfl hfits.depth_ne_zero
  | succ depth ih =>
    simp only [search] at h
    split at h
    · cases h
    · rename_i hstop
      simp only [Bool.or_eq_true, decide_eq_true_eq, List.contains_iff_mem, not_or] at hstop
      split at h
      -- a name met before: nothing is visited
      · rename_i hseen
        cases h
        exact ⟨hdone, List.Subset.refl _, List.contains_iff_mem.mp hseen⟩
      -- a new name: it is entered, all it leads to is visited, and it is left
      · simp only [Prod.mk.injEq, Option.map_eq_none_iff] at h
        have hvisits : firstLeading (search next target depth (current :: way)) (next current)
            (current :: done) = (none, after) := Prod.ext h.1 h.2
        obtain ⟨hafter, hsub, hall⟩ := firstLeading_none
          (P := Explored next target (current :: way))
          (fun name hname done after hdone hvisit =>
            ih (hfits.step hstop.2 (List.ne_nil_of_mem hname)) hdone hvisit)
          hvisits (hdone.enter hstop.1)
        exact ⟨hafter.leave hall, List.Subset.trans (List.subset_cons_self _ _) hsub,
          hsub List.mem_cons_self⟩

/-! ### A search that finds a path -/

theorem firstLeading_some {visit : String → List String → Option (List String) × List String}
    {names done after path : List String}
    (h : firstLeading visit names done = (some path, after)) :
    ∃ name ∈ names, ∃ before, visit name before = (some path, after) := by
  induction names generalizing done with
  | nil => cases h
  | cons name rest ih =>
    simp only [firstLeading] at h
    split at h
    · rename_i found _ hname
      cases h
      exact ⟨name, List.mem_cons_self, done, hname⟩
    · obtain ⟨other, hother, before, hvisit⟩ := ih h
      exact ⟨other, List.mem_cons_of_mem _ hother, before, hvisit⟩

theorem search_some {way done after path : List String} {depth : Nat} {current : String}
    (hcycle : NoCycle next) (hway : ∀ name ∈ way, TransGen (Leads next) name current)
    (h : search next target depth way current done = (some path, after)) :
    IsPath next current target path := by
  induction depth generalizing way current done after path with
  | zero => cases h
  | succ depth ih =>
    simp only [search] at h
    split at h
    · rename_i hstop
      simp only [Bool.or_eq_true, decide_eq_true_eq, List.contains_iff_mem] at hstop
      cases h
      -- a name on the way would lead back to itself, so the search has met its target
      rcases hstop with rfl | hmem
      · exact .single current
      · exact absurd (hway current hmem) (hcycle current)
    · split at h
      · cases h
      · simp only [Prod.mk.injEq, Option.map_eq_some_iff] at h
        obtain ⟨⟨rest, hfound, rfl⟩, hafter⟩ := h
        obtain ⟨name, hname, before, hvisit⟩ := firstLeading_some (Prod.ext hfound hafter)
        refine (ih (fun other hother => ?_) hvisit).cons hname
        rcases List.mem_cons.mp hother with rfl | hother
        · exact .single hname
        · exact (hway other hother).tail hname

end ContextSets.Repository
