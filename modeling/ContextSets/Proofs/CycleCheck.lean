import ContextSets.Proofs.Reachable

/-!
# The check for cycles

In a reachable repository a use is refused for a cycle exactly if its target leads back to its
source, and the cycle that is reported is one. The search behind the check never meets a name on its
own way, and never runs out of room.
-/

namespace ContextSets

namespace Repository

open Relation

variable {next : String → List String} {start target : String}

/-! ### Paths without repetition -/

/-- Without cycles a path meets every name once. -/
theorem IsPath.nodup {path : List String} (h : IsPath next start target path)
    (hcycle : NoCycle next) : path.Nodup := by
  have hchain : path.IsChain (TransGen (Leads next)) := h.chain.imp fun _ _ => .single
  -- an earlier name leads to every later one, so it cannot be the same
  refine (List.isChain_iff_pairwise.mp hchain).imp ?_
  rintro name other hleads rfl
  exact hcycle name hleads

/-- What is reported as a cycle that one more use would close: from the source over the target along
uses back to the source, with no name twice on the way back. -/
structure Closes (repo : Repository) (source target : String) (cycle : List String) : Prop where
  starts : ∃ rest, cycle = source :: target :: rest
  ends : cycle.getLast? = some source
  edges : cycle.tail.IsChain (Leads repo.usesOf)
  distinct : cycle.tail.Nodup

theorem closes_of_cycleIfUsed {repo : Repository} {source : String} {cycle : List String}
    (hcycle : NoCycle repo.usesOf) (hne : SetName.bare source ≠ SetName.bare target)
    (h : repo.cycleIfUsed source target = some cycle) :
    repo.Closes (SetName.bare source) (SetName.bare target) cycle := by
  simp only [cycleIfUsed, if_neg hne, Option.map_eq_some_iff] at h
  obtain ⟨path, hfound, rfl⟩ := h
  have hpath := isPath_of_pathBetween hcycle hfound
  refine ⟨?_, ?_, hpath.chain, hpath.nodup hcycle⟩
  · obtain ⟨rest, rfl⟩ := List.head?_eq_some_iff.mp hpath.head
    exact ⟨rest, rfl⟩
  · rw [List.getLast?_cons, hpath.last]
    rfl

/-! ### The visits of a search -/

/-- A visit of a search: how many names the way may still have, the way to a name, the name, and the
names done before. -/
structure Visit where
  depth : Nat
  way : List String
  name : String
  done : List String

/-- One visit makes another. It has not ended the search and its name is new, and of the names that
it leads to, those before the other's lead to no target. -/
inductive Makes (next : String → List String) (target : String) : Visit → Visit → Prop
  | visit {depth : Nat} {way done before after between : List String} {name used : String}
      (hopen : ¬ (name = target ∨ name ∈ way)) (hnew : name ∉ done)
      (hnext : next name = before ++ used :: after)
      (hbefore : firstLeading (search next target depth (name :: way)) before (name :: done) =
        (none, between)) :
      Makes next target ⟨depth + 1, way, name, done⟩ ⟨depth, name :: way, used, between⟩

/-- Every name on the way leads to the name visited, and the way leaves room for it. -/
structure Visit.Regular (next : String → List String) (nodes : List String) (visit : Visit) :
    Prop where
  leads : ∀ name ∈ visit.way, TransGen (Leads next) name visit.name
  fits : Fits next nodes visit.way visit.depth

theorem Visit.Regular.step {nodes : List String} {visit other : Visit}
    (h : visit.Regular next nodes) (hmakes : Makes next target visit other) :
    other.Regular next nodes := by
  cases hmakes with
  | @visit depth way done before after between name used hopen hnew hnext hbefore =>
    have hedge : Leads next name used := by simp [Leads, hnext]
    rw [not_or] at hopen
    refine ⟨fun other hother => ?_, h.fits.step hopen.2 (List.ne_nil_of_mem hedge)⟩
    rcases List.mem_cons.mp hother with rfl | hother
    · exact .single hedge
    · exact (h.leads other hother).tail hedge

/-- Visits stay regular all the way down. -/
theorem Visit.Regular.of_makes {nodes : List String} {visit other : Visit}
    (h : visit.Regular next nodes) (hmakes : ReflTransGen (Makes next target) visit other) :
    other.Regular next nodes := by
  induction hmakes with
  | refl => exact h
  | tail _ hlast ih => exact ih.step hlast

/-- A name on the way would lead back to itself. -/
theorem Visit.Regular.not_mem_way {nodes : List String} {visit : Visit}
    (h : visit.Regular next nodes) (hcycle : NoCycle next) : visit.name ∉ visit.way :=
  fun hmem => hcycle visit.name (h.leads visit.name hmem)

/-- The visit with which the search for a path begins. -/
def firstVisit (repo : Repository) (start : String) : Visit :=
  ⟨repo.sets.size + 1, [], start, []⟩

theorem regular_firstVisit (repo : Repository) (start : String) :
    (repo.firstVisit start).Regular repo.usesOf repo.sets.keys :=
  ⟨by simp [firstVisit], fits_pathBetween repo⟩

/-! ### Runs of the check -/

theorem requireSet_bind_run {β : Type} {repo : Repository} {name : String} {set : ContextSet}
    (hset : repo.get? name = some set) (f : ContextSet → Edit β) :
    (requireSet name >>= f).run repo = (f set).run repo := by
  simp only [EStateM.run_bind, requireSet, inquire, EStateM.run_get, find, hset, EStateM.run_pure]

/-- A use between two different sets is stored, or refused with the cycle that it would close. -/
theorem addUse_run {repo : Repository} {source target : String} {set : ContextSet}
    (hset : repo.get? source = some set) (htarget : repo.contains target = true)
    (hne : SetName.bare source ≠ SetName.bare target) :
    (addUse source target).run repo =
      match repo.cycleIfUsed source target with
      | some cycle =>
        .error (.circularDependency (SetName.bare source) (SetName.bare target) cycle) repo
      | none => .ok () (repo.withSet (SetName.bare source)
          { set with uses := appendNew set.uses (SetName.bare target) }) := by
  cases hcycle : repo.cycleIfUsed source target with
  | none => exact addUse_ok.mpr ⟨set, hset, htarget, hcycle, rfl⟩
  | some cycle =>
    obtain ⟨other, hother⟩ := Option.isSome_iff_exists.mp htarget
    rw [addUse, requireSet_bind_run hset, requireSet_bind_run hother, if_neg hne]
    simp only [EStateM.run_bind, EStateM.run_get, cycleIfUsed_bare, hcycle]
    rfl

end Repository

open Relation Repository

/-- Between two different sets of a reachable repository a use is refused for a cycle exactly if its
target leads back to its source, and stored otherwise. The check for a cycle tells beforehand which,
the cycle in its answer is a real one, and it is the one of the refusal. No visit of the search meets
a name on its own way, and none is without room. -/
theorem addUse_refused_iff_leads_back (repo : Repository) (h : repo.Reachable)
    (source target : String) (hsource : repo.contains source = true)
    (htarget : repo.contains target = true) (hne : SetName.bare source ≠ SetName.bare target) :
    ((∃ a b cycle after,
        (addUse source target).run repo = .error (.circularDependency a b cycle) after) ↔
      ReflTransGen (Leads repo.usesOf) (SetName.bare target) (SetName.bare source)) ∧
    (repo.cycleIfUsed source target = none ↔
      ∃ after, (addUse source target).run repo = .ok () after) ∧
    (∀ cycle, repo.cycleIfUsed source target = some cycle →
      repo.Closes (SetName.bare source) (SetName.bare target) cycle) ∧
    (∀ error after, (addUse source target).run repo = .error error after →
      after = repo ∧ ∃ cycle, repo.cycleIfUsed source target = some cycle ∧
        error = .circularDependency (SetName.bare source) (SetName.bare target) cycle) ∧
    ∀ visit, ReflTransGen (Makes repo.usesOf (SetName.bare source))
        (repo.firstVisit (SetName.bare target)) visit →
      visit.name ∉ visit.way ∧ visit.depth ≠ 0 := by
  have hcycle : NoCycle repo.usesOf := h.consistent.noCycle
  obtain ⟨set, hset⟩ := Option.isSome_iff_exists.mp hsource
  have hrun := addUse_run hset htarget hne
  have hrefused : (∃ a b cycle after,
      (addUse source target).run repo = .error (.circularDependency a b cycle) after) ↔
        repo.cycleIfUsed source target ≠ none := by
    cases hfound : repo.cycleIfUsed source target <;> simp [hrun, hfound]
  refine ⟨?_, ?_, fun cycle => closes_of_cycleIfUsed hcycle hne, ?_, fun visit hvisit => ?_⟩
  · rw [hrefused, Ne, cycleIfUsed_eq_none_iff hcycle, not_not]
  · cases hfound : repo.cycleIfUsed source target <;> simp [hrun, hfound]
  · intro error after herror
    cases hfound : repo.cycleIfUsed source target with
    | none =>
      rw [hrun, hfound] at herror
      cases herror
    | some cycle =>
      rw [hrun, hfound] at herror
      cases herror
      exact ⟨rfl, cycle, rfl, rfl⟩
  · have hregular := (regular_firstVisit repo (SetName.bare target)).of_makes hvisit
    exact ⟨hregular.not_mem_way hcycle, hregular.fits.depth_ne_zero⟩

/-- A set "app" that uses "core" by two ways. -/
def diamond : List Operation :=
  [.create "app", .create "web", .create "cli", .create "core", .addUse "app" "web",
    .addUse "app" "cli", .addUse "web" "core", .addUse "cli" "core"]

theorem addUse_refused_diamond :
    let repo := Operation.afterAll diamond ∅
    repo.contains "core" = true ∧ repo.contains "context:app" = true ∧
      SetName.bare "core" ≠ SetName.bare "context:app" ∧
      repo.cycleIfUsed "core" "context:app" = some ["core", "app", "web", "core"] ∧
      repo.Closes "core" "app" ["core", "app", "web", "core"] := by
  intro repo
  have hsource : repo.contains "core" = true := by decide
  have htarget : repo.contains "context:app" = true := by decide
  have hne : SetName.bare "core" ≠ SetName.bare "context:app" := by decide
  have hfound : repo.cycleIfUsed "core" "context:app" = some ["core", "app", "web", "core"] := by
    decide
  have hchecked := addUse_refused_iff_leads_back repo (Reachable.empty.afterAll diamond) "core"
    "context:app" hsource htarget hne
  exact ⟨hsource, htarget, hne, hfound, hchecked.2.2.1 _ hfound⟩

end ContextSets
