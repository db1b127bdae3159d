import ContextSets.Proofs.Uses

/-!
# Depth-first order

The walk with a stack lists names in the order of a depth-first recursion. This order is stated on its
own, as a relation that follows the recursion: it is unique, it lists exactly the names that can be
reached, and it depends only on what the names in it lead to. The bound on the steps of the walk is
never met.
-/

namespace ContextSets.Repository

open Relation

/-- The names that are met from a list of names in depth-first pre-order, apart from those seen
before. A new name comes first, then all that is met from what it leads to, and then all that is met
from the names after it. -/
inductive DepthFirst (next : String → List String) : List String → List String → List String → Prop
  | nil (seen : List String) : DepthFirst next seen [] []
  | skip {seen rest order : List String} {name : String} (hseen : name ∈ seen)
      (hrest : DepthFirst next seen rest order) : DepthFirst next seen (name :: rest) order
  | visit {seen rest below after : List String} {name : String} (hnew : name ∉ seen)
      (hbelow : DepthFirst next (name :: seen) (next name) below)
      (hafter : DepthFirst next (below.reverse ++ name :: seen) rest after) :
      DepthFirst next seen (name :: rest) (name :: (below ++ after))

variable {next : String → List String} {seen names order : List String}

namespace DepthFirst

/-- There is one depth-first order only. -/
theorem unique {other : List String} (h : DepthFirst next seen names order)
    (hother : DepthFirst next seen names other) : order = other := by
  induction h generalizing other with
  | nil seen =>
    cases hother
    rfl
  | skip hseen hrest ih =>
    cases hother with
    | skip _ hrest' => exact ih hrest'
    | visit hnew _ _ => exact absurd hseen hnew
  | visit hnew hbelow hafter ihbelow ihafter =>
    cases hother with
    | skip hseen _ => exact absurd hseen hnew
    | visit _ hbelow' hafter' =>
      obtain rfl := ihbelow hbelow'
      rw [ihafter hafter']

/-- What is met from two lists is met from the first, and then from the second. -/
theorem append_iff {rest : List String} :
    DepthFirst next seen (names ++ rest) order ↔
      ∃ first second, DepthFirst next seen names first ∧
        DepthFirst next (first.reverse ++ seen) rest second ∧ order = first ++ second := by
  constructor
  · intro h
    induction names generalizing seen order with
    | nil => exact ⟨[], order, .nil seen, h, rfl⟩
    | cons name names ih =>
      cases h with
      | skip hseen hrest =>
        obtain ⟨first, second, hfirst, hsecond, rfl⟩ := ih hrest
        exact ⟨first, second, .skip hseen hfirst, hsecond, rfl⟩
      | @visit _ _ below after _ hnew hbelow hafter =>
        obtain ⟨first, second, hfirst, hsecond, rfl⟩ := ih hafter
        refine ⟨name :: (below ++ first), second, .visit hnew hbelow hfirst, ?_, by simp⟩
        simpa using hsecond
  · intro hgiven
    obtain ⟨first, second, hfirst, hsecond, rfl⟩ := hgiven
    induction hfirst with
    | nil seen => exact hsecond
    | skip hseen _ ih => exact .skip hseen (ih hsecond)
    | @visit seen names below after name hnew hbelow _ _ ih =>
      have hrest :
          DepthFirst next (after.reverse ++ (below.reverse ++ name :: seen)) rest second := by
        simpa using hsecond
      simpa using DepthFirst.visit hnew hbelow (ih hrest)

/-- The order depends only on what the names in it lead to. -/
theorem congr {other : String → List String} (h : DepthFirst next seen names order)
    (hsame : ∀ name ∈ order, other name = next name) : DepthFirst other seen names order := by
  induction h with
  | nil seen => exact .nil seen
  | skip hseen _ ih => exact .skip hseen (ih hsame)
  | visit hnew _ _ ihbelow ihafter =>
    simp only [List.forall_mem_cons, List.forall_mem_append] at hsame
    obtain ⟨hname, hbelow, hafter⟩ := hsame
    exact .visit hnew (hname ▸ ihbelow hbelow) (ihafter hafter)

/-- No name is listed twice, and none that was seen before. -/
theorem nodup (h : DepthFirst next seen names order) :
    order.Nodup ∧ ∀ name ∈ order, name ∉ seen := by
  induction h with
  | nil seen => exact ⟨List.nodup_nil, by simp⟩
  | skip _ _ ih => exact ih
  | @visit seen rest below after name hnew _ _ ihbelow ihafter =>
    obtain ⟨hnodup, hfresh⟩ := ihbelow
    obtain ⟨hnodup', hfresh'⟩ := ihafter
    simp only [List.mem_append, List.mem_reverse, List.mem_cons, not_or] at hfresh hfresh'
    refine ⟨List.nodup_cons.mpr ⟨fun hmem => ?_, ?_⟩, ?_⟩
    · rcases List.mem_append.mp hmem with hmem | hmem
      · exact (hfresh name hmem).1 rfl
      · exact (hfresh' name hmem).2.1 rfl
    · refine List.nodup_append.mpr ⟨hnodup, hnodup', fun a ha b hb heq => ?_⟩
      exact (hfresh' b hb).1 (heq ▸ ha)
    · simp only [List.forall_mem_cons, List.forall_mem_append]
      exact ⟨hnew, fun a ha => (hfresh a ha).2, fun a ha => (hfresh' a ha).2.2⟩

/-- The names given and all that listed names lead to are listed or were seen before. -/
theorem closed (h : DepthFirst next seen names order) :
    (∀ name ∈ names, name ∈ order ∨ name ∈ seen) ∧
      ∀ name ∈ order, ∀ used ∈ next name, used ∈ order ∨ used ∈ seen := by
  induction h with
  | nil seen => simp
  | skip hseen _ ih => exact ⟨List.forall_mem_cons.mpr ⟨.inr hseen, ih.1⟩, ih.2⟩
  | @visit seen rest below after name hnew _ _ ihbelow ihafter =>
    obtain ⟨hnext, hbelow⟩ := ihbelow
    obtain ⟨hrest, hafter⟩ := ihafter
    -- wherever a later part finds a name, the whole order or what was seen has it
    have hinner : ∀ used, used ∈ below ∨ used ∈ name :: seen →
        used ∈ name :: (below ++ after) ∨ used ∈ seen := by
      intro used hused
      simp only [List.mem_cons, List.mem_append] at hused ⊢
      tauto
    have houter : ∀ used, used ∈ after ∨ used ∈ below.reverse ++ name :: seen →
        used ∈ name :: (below ++ after) ∨ used ∈ seen := by
      intro used hused
      simp only [List.mem_cons, List.mem_append, List.mem_reverse] at hused ⊢
      tauto
    refine ⟨List.forall_mem_cons.mpr ⟨.inl List.mem_cons_self, fun other h => ?_⟩, ?_⟩
    · exact houter other (hrest other h)
    · simp only [List.forall_mem_cons, List.forall_mem_append]
      exact ⟨fun used h => hinner used (hnext used h),
        fun a ha used h => hinner used (hbelow a ha used h),
        fun a ha used h => houter used (hafter a ha used h)⟩

/-- Every listed name can be reached from one of the names given. -/
theorem reached (h : DepthFirst next seen names order) :
    ∀ name ∈ order, ∃ start ∈ names, ReflTransGen (Leads next) start name := by
  induction h with
  | nil seen => simp
  | skip _ _ ih =>
    intro name hname
    obtain ⟨start, hstart, hreach⟩ := ih name hname
    exact ⟨start, List.mem_cons_of_mem _ hstart, hreach⟩
  | @visit seen rest below after name hnew _ _ ihbelow ihafter =>
    simp only [List.forall_mem_cons, List.forall_mem_append]
    refine ⟨⟨name, List.mem_cons_self, .refl⟩, fun a ha => ?_, fun a ha => ?_⟩
    · obtain ⟨used, hused, hreach⟩ := ihbelow a ha
      exact ⟨name, List.mem_cons_self, .head hused hreach⟩
    · obtain ⟨start, hstart, hreach⟩ := ihafter a ha
      exact ⟨start, List.mem_cons_of_mem _ hstart, hreach⟩

/-- From one name, the order lists exactly what the name reaches. -/
theorem mem_iff {start name : String} (h : DepthFirst next [] [start] order) :
    name ∈ order ↔ ReflTransGen (Leads next) start name := by
  constructor
  · intro hname
    obtain ⟨_, hstart, hreach⟩ := h.reached name hname
    exact List.mem_singleton.mp hstart ▸ hreach
  · intro hreach
    obtain ⟨hstart, hclosed⟩ := h.closed
    simp only [List.mem_singleton, forall_eq, List.not_mem_nil, or_false] at hstart hclosed
    induction hreach with
    | refl => exact hstart
    | tail _ hedge ih => exact hclosed _ ih _ hedge

end DepthFirst

/-! ### The walk with a stack -/

/-- How many names the unseen ones of some names lead to, together. -/
def pending (next : String → List String) (nodes seen : List String) : Nat :=
  ((nodes.filter (!seen.contains ·)).flatMap next).length

/-- Visiting a name takes away what it leads to. -/
theorem pending_visit {nodes : List String} {name : String} (hnodup : nodes.Nodup)
    (hsources : next name ≠ [] → name ∈ nodes) (hnew : name ∉ seen) :
    pending next nodes (name :: seen) + (next name).length = pending next nodes seen := by
  unfold pending
  have hfilter : nodes.filter (!(name :: seen).contains ·) =
      (nodes.filter (!seen.contains ·)).erase name := by
    rw [(hnodup.filter _).erase_eq_filter, List.filter_filter]
    refine List.filter_congr fun other _ => ?_
    simp [bne, beq_eq_decide]
  rw [hfilter]
  by_cases hname : name ∈ nodes
  · have hfresh : name ∈ nodes.filter (!seen.contains ·) := by simp [hname, hnew]
    rw [((List.perm_cons_erase hfresh).flatMap_right next).length_eq, List.flatMap_cons,
      List.length_append]
    omega
  -- a name that is none of the nodes leads to nothing
  · have hnext : next name = [] := by
      by_contra hne
      exact hname (hsources hne)
    rw [List.erase_of_not_mem fun hmem => hname (List.mem_filter.mp hmem).1, hnext]
    rfl

/-- With steps for all that is on the stack or will be put there, the walk comes to its end and lists
what it meets in depth-first order. -/
theorem walk_depthFirst {nodes stack : List String} {steps : Nat} (hnodup : nodes.Nodup)
    (hsources : ∀ name, next name ≠ [] → name ∈ nodes)
    (hsteps : stack.length + pending next nodes seen ≤ steps) :
    ∃ order, DepthFirst next seen stack order ∧
      walk next steps stack seen = seen.reverse ++ order := by
  induction steps generalizing stack seen with
  | zero =>
    obtain rfl : stack = [] := List.length_eq_zero_iff.mp (by omega)
    exact ⟨[], .nil seen, (List.append_nil _).symm⟩
  | succ steps ih =>
    cases stack with
    | nil => exact ⟨[], .nil seen, (List.append_nil _).symm⟩
    | cons name rest =>
      rw [List.length_cons] at hsteps
      rw [walk]
      split
      · rename_i hseen
        have hless : rest.length + pending next nodes seen ≤ steps := by omega
        obtain ⟨order, horder, hwalk⟩ := ih hless
        exact ⟨order, .skip (List.contains_iff_mem.mp hseen) horder, hwalk⟩
      · rename_i hnew
        rw [List.contains_iff_mem] at hnew
        have hpending := pending_visit hnodup (hsources name) hnew
        have hless : (next name ++ rest).length + pending next nodes (name :: seen) ≤ steps := by
          rw [List.length_append]
          omega
        obtain ⟨order, horder, hwalk⟩ := ih hless
        -- what is put on the stack is walked before what was there
        obtain ⟨below, after, hbelow, hafter, rfl⟩ := DepthFirst.append_iff.mp horder
        exact ⟨name :: (below ++ after), .visit hnew hbelow hafter, by simp [hwalk]⟩

/-! ### The sets that a set uses -/

variable {repo : Repository} {name : String} {root : ContextSet}

/-- Before any visit, all uses of all sets are still to come. -/
theorem pending_eq_useCount (repo : Repository) :
    pending repo.usesOf repo.sets.keys [] = repo.useCount := by
  have huses : repo.sets.keys.flatMap repo.usesOf = repo.sets.values.flatMap (·.uses) := by
    rw [Table.keys, Table.values, List.flatMap_map, List.flatMap_map]
    refine List.flatMap_congr fun entry hentry => ?_
    exact usesOf_of_get? (Table.get?_eq_some_iff.mpr hentry)
  rw [pending, useCount, ← huses]
  simp

/-- The names of a set and of all that it uses are listed in depth-first order. -/
theorem exists_transitiveUses (hroot : repo.get? name = some root) :
    ∃ order, repo.transitiveUses name = .ok order ∧
      DepthFirst repo.usesOf [] [root.name] order := by
  have hsteps : [root.name].length + pending repo.usesOf repo.sets.keys [] ≤
      repo.useCount + 1 := by
    rw [pending_eq_useCount, List.length_singleton, Nat.add_comm]
  obtain ⟨order, horder, hwalk⟩ :=
    walk_depthFirst repo.sets.keys_nodup (fun _ => mem_keys_of_usesOf_ne_nil) hsteps
  refine ⟨order, ?_, horder⟩
  rw [transitiveUses, find, hroot]
  exact congrArg Except.ok hwalk

theorem transitiveUses_eq_ok_iff (hroot : repo.get? name = some root) :
    repo.transitiveUses name = .ok order ↔ DepthFirst repo.usesOf [] [root.name] order := by
  obtain ⟨walked, hrun, horder⟩ := exists_transitiveUses hroot
  rw [hrun, Except.ok.injEq]
  exact ⟨fun heq => heq ▸ horder, fun h => horder.unique h⟩

end ContextSets.Repository
