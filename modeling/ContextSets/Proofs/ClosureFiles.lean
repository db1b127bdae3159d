import ContextSets.Proofs.Closure

/-!
# What a closure holds

The closure of a set has the sets that the set reaches, in depth-first order, and what all their
references come to.
-/

namespace ContextSets

open Relation Repository

/-! ### Closures -/

namespace Repository

variable {repo : Repository} {name : String} {root : ContextSet} {closure : Closure}

theorem closure_eq_ok_iff :
    repo.closure name = .ok closure ↔
      ∃ names, repo.transitiveUses name = .ok names ∧ names.filterMap repo.get? = closure.sets ∧
        closure.sets.head? = some closure.root ∧
        Closure.collect repo.manifest (closure.sets.flatMap (·.files)) [] = .ok closure.files := by
  rw [Repository.closure, except_bind_ok]
  refine exists_congr fun names => and_congr_right fun _ => ?_
  obtain ⟨first, sets, files⟩ := closure
  cases names.filterMap repo.get? with
  | nil =>
    refine iff_of_false ?_ ?_
    · intro h
      cases h
    · rintro ⟨rfl, hhead, -⟩
      cases hhead
  | cons top used =>
    simp only [except_bind_ok, pure, Except.pure, Except.ok.injEq, Closure.mk.injEq]
    constructor
    · intro hgiven
      obtain ⟨_, hcollect, rfl, rfl, rfl⟩ := hgiven
      exact ⟨rfl, rfl, hcollect⟩
    · intro hgiven
      obtain ⟨rfl, hhead, hcollect⟩ := hgiven
      cases hhead
      exact ⟨files, hcollect, rfl, rfl, rfl⟩

/-- The closure of an existing set has the sets in depth-first order, as they are stored, and the files
that all their references come to. -/
theorem Consistent.closure_collects (h : repo.Consistent) (hroot : repo.get? name = some root) :
    ∃ closure, repo.closure name = .ok closure ∧
      DepthFirst repo.usesOf [] [SetName.bare name] (closure.sets.map (·.name)) ∧
      (∀ set ∈ closure.sets, repo.sets.get? set.name = some set) ∧
      Closure.Collects repo.manifest (closure.sets.flatMap (·.files)) closure.files := by
  obtain ⟨closure, hclosure, -, hwalk, -⟩ := h.closure hroot
  obtain ⟨names, -, hsets, -, hcollect⟩ := closure_eq_ok_iff.mp hclosure
  have hstored : ∀ set ∈ closure.sets, repo.sets.get? set.name = some set := by
    intro set hset
    rw [← hsets] at hset
    obtain ⟨key, -, hkey⟩ := List.mem_filterMap.mp hset
    rw [(h.stored _ set hkey).name_eq]
    exact hkey
  have hregistered : ∀ reference ∈ closure.sets.flatMap (·.files),
      repo.manifest.contains reference.id = true := by
    intro reference href
    obtain ⟨set, hset, href⟩ := List.mem_flatMap.mp href
    exact (h.stored _ set (hstored set hset)).registered _
      (mem_mentioned.mpr (.inl ⟨reference, href, rfl⟩))
  obtain ⟨files, hfiles, hcollects⟩ := (Closure.Collects.nil repo.manifest).collect hregistered
  obtain rfl : files = closure.files := Except.ok.inj (hfiles.symm.trans hcollect)
  refine ⟨closure, hclosure, ?_, hstored, hcollects⟩
  rw [← (h.stored _ root hroot).name_eq]
  exact (transitiveUses_eq_ok_iff hroot).mp hwalk

/-- Sets in depth-first order are all that can be reached. -/
theorem mem_sets_iff {start : String} {sets : List ContextSet} {set : ContextSet}
    (horder : DepthFirst repo.usesOf [] [start] (sets.map (·.name)))
    (hstored : ∀ set ∈ sets, repo.sets.get? set.name = some set) :
    set ∈ sets ↔
      ∃ key, ReflTransGen (Leads repo.usesOf) start key ∧ repo.sets.get? key = some set := by
  constructor
  · intro hset
    have hname : set.name ∈ sets.map (·.name) := List.mem_map.mpr ⟨set, hset, rfl⟩
    exact ⟨set.name, horder.mem_iff.mp hname, hstored set hset⟩
  · intro hgiven
    obtain ⟨key, hreach, hkey⟩ := hgiven
    obtain ⟨other, hother, rfl⟩ := List.mem_map.mp (horder.mem_iff.mpr hreach)
    obtain rfl : set = other := Option.some.inj (hkey.symm.trans (hstored other hother))
    exact hother

end Repository

/-- The closure of a set of a reachable repository has the sets that can be reached, in depth-first
pre-order. Their files are listed once each, in the order of first reference. A file is included as a
whole exactly if some reference covers it, and otherwise with the functions of all references to it,
of each name the first. -/
theorem closure_unites_references (repo : Repository) (h : repo.Reachable) (name : String)
    (hname : repo.contains name = true) :
    ∃ closure, repo.closure name = .ok closure ∧
      DepthFirst repo.usesOf [] [SetName.bare name] (closure.sets.map (·.name)) ∧
      (∀ set, set ∈ closure.sets ↔
        ∃ key, ReflTransGen (Leads repo.usesOf) (SetName.bare name) key ∧
          repo.sets.get? key = some set) ∧
      let references := closure.sets.flatMap (·.files)
      closure.files.map (·.id) = (references.map (·.id)).eraseDups ∧
      (closure.files.map (·.id)).Nodup ∧
      ∀ file ∈ closure.files,
        let own := references.filter (·.id == file.id)
        repo.manifest.get? file.id = some file.entry ∧
        (file.inclusion = .whole ↔ ∃ reference ∈ own, reference.isWhole = true) ∧
        ((∀ reference ∈ own, reference.isWhole = false) →
          ∃ functions, file.inclusion = .functions functions ∧
            Inclusion.Firsts (own.flatMap (·.refs)) functions) := by
  have hconsistent := h.consistent
  obtain ⟨root, hroot⟩ := Option.isSome_iff_exists.mp hname
  obtain ⟨closure, hclosure, horder, hstored, hcollects⟩ := hconsistent.closure_collects hroot
  refine ⟨closure, hclosure, horder, fun set => mem_sets_iff horder hstored, ?_, hcollects.nodup,
    fun file hfile => ?_⟩
  · rw [hcollects.ids, foldl_appendNew]
    simp
  · rw [hcollects.inclusion file hfile]
    exact ⟨hcollects.entries file hfile, Inclusion.ofAll_eq_whole_iff, fun hparts =>
      ⟨_, Inclusion.ofAll_of_parts hparts, Inclusion.firsts_union _⟩⟩

/-- Sets that refer to files in common: "app" uses "core" by two ways, and a list of files and a
reference name a thing twice. -/
def sharedDocument : Document where
  sets := ⟨[
    ("context:app", {
      files := [.part "f1" { name := "parse", line := some 3 } [] (some "entry")]
      uses := ["context:web", "context:cli"] }),
    ("context:cli", {
      files := [.whole "f2", .part "f1" { name := "emit" } [{ name := "parse" }] none]
      uses := ["context:core"] }),
    ("context:core", {
      files := [.part "f3" { name := "load" } [{ name := "load", comment := some "again" }] none]
      workflow := [{ description := "load all", file := some "f4" }] }),
    ("context:web", {
      files := [.part "f2" { name := "serve" } [] none, .part "f1" { name := "route" } [] none]
      uses := ["context:core"] })], by decide⟩
  files := ⟨[("f1", { path := "lib.rs" }), ("f2", { path := "run.rs" }),
    ("f3", { path := "load.rs" }), ("f4", { path := "all.rs", comment := some "in order" }),
    ("f5", { path := "rest.rs" })], by decide⟩

theorem closure_unites_references_shared :
    let repo := Operation.afterAll [.replaceBy sharedDocument] ∅
    repo.contains "context:app" = true ∧
      ∃ closure, repo.closure "context:app" = .ok closure ∧
        closure.sets.map (·.name) = ["app", "web", "core", "cli"] ∧
        closure.files.map (·.inclusion) = [
          .functions [{ name := "parse", line := some 3 }, { name := "route" }, { name := "emit" }],
          .whole, .functions [{ name := "load" }]] ∧
        DepthFirst repo.usesOf [] ["app"] (closure.sets.map (·.name)) := by
  intro repo
  have hname : repo.contains "context:app" = true := by decide
  have hfound : (repo.closure "context:app").map (fun closure =>
      (closure.sets.map (·.name), closure.files.map (·.inclusion))) =
    .ok (["app", "web", "core", "cli"], [
      .functions [{ name := "parse", line := some 3 }, { name := "route" }, { name := "emit" }],
      .whole, .functions [{ name := "load" }]]) := by decide
  obtain ⟨closure, hclosure, horder, -⟩ := closure_unites_references repo
    (Reachable.empty.afterAll [.replaceBy sharedDocument]) "context:app" hname
  rw [hclosure] at hfound
  obtain ⟨hsets, hfiles⟩ := Prod.mk.inj (Except.ok.inj hfound)
  exact ⟨hname, closure, hclosure, hsets, hfiles, horder⟩

end ContextSets
