import ContextSets.Proofs.ClosureFiles
import Mathlib.Logic.Function.Iterate

/-!
# The walk as a recursion

The walk keeps names on a stack, some of them more than once, and finds out only when it takes a
name off whether it was met before. It lists the names that a plain recursion lists, which visits
what a name leads to in order and skips what it has met. Every turn of the loop takes a name off the
stack, and a name puts what it leads to there only once, so the loop comes to an end.
-/

namespace ContextSets

namespace Repository

open Relation

/-- Visits a name in a depth-first recursion, given the names met so far, the first one first. A
name that was met is skipped. Any other is listed, and then all that it leads to is visited in
order. The first argument bounds how deep the recursion goes. -/
def visitAll (next : String → List String) : Nat → List String → String → List String
  | 0, met, _ => met
  | depth + 1, met, name =>
    if met.contains name then met
    else (next name).foldl (visitAll next depth) (met ++ [name])

/-- One turn of the walk with a stack, the names seen newest first: the name on top is taken off,
and if it is new, all that it leads to is put there. Without names the walk stands still. -/
def turn (next : String → List String) : List String × List String → List String × List String
  | ([], seen) => ([], seen)
  | (name :: stack, seen) =>
    if seen.contains name then (stack, seen) else (next name ++ stack, name :: seen)

variable {next : String → List String} {seen names order stack nodes : List String} {steps : Nat}

/-! ### The recursion -/

/-- With room for all names the recursion lists names in depth-first order. On the way down it is
only a name with something to visit that needs room. -/
theorem DepthFirst.foldl_visitAll {way met : List String} {depth : Nat}
    (h : DepthFirst next seen names order) (hfits : names ≠ [] → Fits next nodes way depth)
    (hway : way ⊆ seen) (hmet : ∀ name, name ∈ met ↔ name ∈ seen) :
    names.foldl (visitAll next depth) met = met ++ order := by
  induction h generalizing way met depth with
  | nil seen => simp
  | @skip seen rest order name hseen _ ih =>
    have hfitsRest := hfits (List.cons_ne_nil _ _)
    obtain ⟨depth, rfl⟩ := Nat.exists_eq_succ_of_ne_zero hfitsRest.depth_ne_zero
    have hknown : met.contains name = true := by simpa [hmet] using hseen
    rw [List.foldl_cons, visitAll, if_pos hknown]
    exact ih (fun _ => hfitsRest) hway hmet
  | @visit seen rest below after name hnew _ _ ihbelow ihafter =>
    have hfitsRest := hfits (List.cons_ne_nil _ _)
    obtain ⟨depth, rfl⟩ := Nat.exists_eq_succ_of_ne_zero hfitsRest.depth_ne_zero
    have hunknown : ¬ met.contains name = true := by simpa [hmet] using hnew
    -- the name joins the way, which was among the names seen
    have hbelow : (next name).foldl (visitAll next depth) (met ++ [name]) =
        (met ++ [name]) ++ below := by
      refine ihbelow (fun hnext => hfitsRest.step (fun hmem => hnew (hway hmem)) hnext) ?_ ?_
      · exact List.cons_subset_cons name hway
      · simp [hmet, or_comm]
    have hafter : rest.foldl (visitAll next (depth + 1)) ((met ++ [name]) ++ below) =
        ((met ++ [name]) ++ below) ++ after := by
      refine ihafter (fun _ => hfitsRest) (fun other hother => ?_) fun other => ?_
      · exact List.mem_append_right _ (List.mem_cons_of_mem _ (hway hother))
      · simp only [List.mem_append, hmet, List.mem_reverse, List.mem_cons]
        tauto
    rw [List.foldl_cons, visitAll, if_neg hunknown, hbelow, hafter]
    simp

/-! ### The loop -/

theorem turn_nil (next : String → List String) (seen : List String) :
    turn next ([], seen) = ([], seen) := rfl

/-- The walk lists what its turns have seen. -/
theorem walk_eq_iterate (next : String → List String) (steps : Nat) (stack seen : List String) :
    walk next steps stack seen = ((turn next)^[steps] (stack, seen)).2.reverse := by
  induction steps generalizing stack seen with
  | zero => rfl
  | succ steps ih =>
    cases stack with
    | nil => rw [Function.iterate_fixed (turn_nil next seen), walk]
    | cons name rest =>
      rw [walk, Function.iterate_succ_apply, turn]
      split
      · exact ih rest seen
      · exact ih (next name ++ rest) (name :: seen)

/-- Every turn brings what is on the stack or still to be put there down by one. -/
theorem iterate_turn_fst (hnodup : nodes.Nodup) (hsources : ∀ name, next name ≠ [] → name ∈ nodes)
    (hsteps : stack.length + pending next nodes seen ≤ steps) :
    ((turn next)^[steps] (stack, seen)).1 = [] := by
  induction steps generalizing stack seen with
  | zero =>
    have hlength : stack.length = 0 := by omega
    exact List.length_eq_zero_iff.mp hlength
  | succ steps ih =>
    cases stack with
    | nil => rw [Function.iterate_fixed (turn_nil next seen)]
    | cons name rest =>
      rw [List.length_cons] at hsteps
      rw [Function.iterate_succ_apply, turn]
      split
      · exact ih (by omega)
      · rename_i hnew
        rw [List.contains_iff_mem] at hnew
        have hpending := pending_visit hnodup (hsources name) hnew
        refine ih ?_
        rw [List.length_append]
        omega

end Repository

open Relation Repository

/-- From a set of a reachable repository the walk lists what the recursion lists, if that may go
deeper than there are sets. The set comes first, no name is listed twice, and the names listed are
those of the sets that it reaches. After one turn for the set and one for each use in the repository
nothing is left on the stack of the walk. -/
theorem walk_lists_preorder (repo : Repository) (h : repo.Reachable) (name : String)
    (hname : repo.contains name = true) :
    ∃ order, repo.transitiveUses name = .ok order ∧
      (∀ depth, repo.sets.size < depth →
        visitAll repo.usesOf depth [] (SetName.bare name) = order) ∧
      order.head? = some (SetName.bare name) ∧
      order.Nodup ∧
      (∀ key, key ∈ order ↔
        ReflTransGen (Leads repo.usesOf) (SetName.bare name) key) ∧
      (∀ key ∈ order, repo.sets.contains key = true) ∧
      (turn repo.usesOf)^[repo.useCount + 1] ([SetName.bare name], []) = ([], order.reverse) := by
  have hconsistent := h.consistent
  obtain ⟨order, hrun, horder⟩ := hconsistent.exists_walk hname
  obtain ⟨root, hroot⟩ := Option.isSome_iff_exists.mp hname
  have hrootName : root.name = SetName.bare name := (hconsistent.stored _ root hroot).name_eq
  refine ⟨order, hrun, fun depth hdepth => ?_, ?_, horder.nodup.1, fun key => horder.mem_iff,
    fun key hkey => ?_, Prod.ext ?_ ?_⟩
  · have hfits : Fits repo.usesOf repo.sets.keys [] depth :=
      { fits_pathBetween repo with
        room := by
          rw [← Table.size_eq_length_keys]
          exact hdepth }
    exact horder.foldl_visitAll (fun _ => hfits) (List.nil_subset _) (by simp)
  · obtain ⟨more, hmore, -⟩ := hconsistent.transitiveUses hroot
    obtain rfl := Except.ok.inj (hrun.symm.trans hmore)
    exact congrArg some hrootName
  · exact Table.contains_iff.mpr (hconsistent.exists_of_reaches hroot (horder.mem_iff.mp hkey))
  · refine iterate_turn_fst repo.sets.keys_nodup (fun _ => mem_keys_of_usesOf_ne_nil) ?_
    rw [pending_eq_useCount, List.length_singleton, Nat.add_comm]
  · have hwalk : walk repo.usesOf (repo.useCount + 1) [root.name] [] = order := by
      rw [transitiveUses, find, hroot] at hrun
      exact Except.ok.inj hrun
    rw [← hwalk, walk_eq_iterate, List.reverse_reverse, hrootName]

/-- The set "core" is put on the stack by "web" and by "cli", and is listed after the first of them.
-/
theorem walk_lists_preorder_shared :
    let repo := Operation.afterAll [.replaceBy sharedDocument] ∅
    repo.contains "context:app" = true ∧ repo.sets.size < 5 ∧
      visitAll repo.usesOf 5 [] "app" = ["app", "web", "core", "cli"] ∧
      repo.transitiveUses "context:app" = .ok ["app", "web", "core", "cli"] ∧
      (turn repo.usesOf)^[repo.useCount + 1] (["app"], []) =
        ([], ["cli", "core", "web", "app"]) := by
  intro repo
  have hname : repo.contains "context:app" = true := by decide
  have hsize : repo.sets.size < 5 := by decide
  have hlist : visitAll repo.usesOf 5 [] "app" = ["app", "web", "core", "cli"] := by decide
  have hbare : SetName.bare "context:app" = "app" := by decide
  obtain ⟨order, hrun, hvisit, -, -, -, -, hturns⟩ := walk_lists_preorder repo
    (Reachable.empty.afterAll [.replaceBy sharedDocument]) "context:app" hname
  rw [hbare] at hvisit hturns
  obtain rfl := (hvisit 5 hsize).symm.trans hlist
  exact ⟨hname, hsize, hlist, hrun, hturns⟩

end ContextSets
