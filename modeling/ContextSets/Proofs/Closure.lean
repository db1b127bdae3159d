import ContextSets.Markdown
import ContextSets.Proofs.DepthFirst
import ContextSets.Proofs.Reachable
import ContextSets.Proofs.References

/-!
# Closures of consistent repositories

In a consistent repository the walk from a set meets sets only, and all files they refer to are
registered. So a closure is refused only if the set itself is missing, and its Markdown text shows
the path of every file.
-/

namespace ContextSets

open Relation

namespace Repository

variable {repo : Repository} {name : String} {root : ContextSet}

/-! ### Walks -/

/-- From a set uses lead to sets only. -/
theorem Consistent.exists_of_reaches (h : repo.Consistent) {start key : String}
    (hstart : repo.sets.get? start = some root)
    (hreach : ReflTransGen (Leads repo.usesOf) start key) :
    ∃ set, repo.sets.get? key = some set := by
  induction hreach with
  | refl => exact ⟨root, hstart⟩
  | tail _ hedge _ =>
    obtain ⟨set, hset, hused⟩ := mem_usesOf.mp hedge
    exact Table.contains_iff.mp ((h.stored _ set hset).uses_known _ hused)

theorem Consistent.transitiveUses (h : repo.Consistent) (hroot : repo.get? name = some root) :
    ∃ more, repo.transitiveUses name = .ok (root.name :: more) ∧
      ∀ used ∈ more, repo.sets.contains used = true := by
  obtain ⟨order, hrun, horder⟩ := exists_transitiveUses hroot
  have hself : repo.sets.get? root.name = some root := (h.stored _ root hroot).name_eq.symm ▸ hroot
  have hknown : ∀ used ∈ order, repo.sets.contains used = true := fun used hused =>
    Table.contains_iff.mpr (h.exists_of_reaches hself (horder.mem_iff.mp hused))
  -- nothing was seen before the root, so the order begins with it
  cases horder with
  | skip hseen _ => cases hseen
  | visit _ _ _ =>
    exact ⟨_, hrun, fun used hused => hknown used (List.mem_cons_of_mem _ hused)⟩

/-- From an existing set the walk meets the names that the set reaches, in depth-first order. -/
theorem Consistent.exists_walk (h : repo.Consistent) (hname : repo.contains name = true) :
    ∃ order, repo.transitiveUses name = .ok order ∧
      DepthFirst repo.usesOf [] [SetName.bare name] order := by
  obtain ⟨root, hroot⟩ := Option.isSome_iff_exists.mp hname
  rw [← (h.stored _ root hroot).name_eq]
  exact exists_transitiveUses hroot

/-- No name of a set is lost when the sets of some names are looked up. -/
theorem Consistent.names_filterMap_get? (h : repo.Consistent) {names : List String}
    (hnames : ∀ name ∈ names, repo.sets.contains name = true) :
    (names.filterMap repo.get?).map (·.name) = names := by
  induction names with
  | nil => rfl
  | cons key rest ih =>
    obtain ⟨set, hset⟩ := Table.contains_iff.mp (hnames key List.mem_cons_self)
    have hstored := h.stored key set hset
    have hget : repo.get? key = some set := by
      rw [Repository.get?, hstored.bare_eq]
      exact hset
    rw [List.filterMap_cons_some hget, List.map_cons, hstored.name_eq,
      ih fun name hname => hnames name (List.mem_cons_of_mem _ hname)]

/-! ### Closures -/

/-- The closure of an existing set has all sets of the walk, and the files as they are registered. -/
theorem Consistent.closure (h : repo.Consistent) (hroot : repo.get? name = some root) :
    ∃ closure, repo.closure name = .ok closure ∧ closure.root = root ∧
      repo.transitiveUses name = .ok (closure.sets.map (·.name)) ∧
      ∀ file ∈ closure.files, repo.manifest.get? file.id = some file.entry := by
  obtain ⟨more, hwalk, hmore⟩ := h.transitiveUses hroot
  have hself : repo.get? root.name = some root := by
    rw [(h.stored _ root hroot).name_eq, Repository.get?, SetName.bare_bare]
    exact hroot
  have hsets : (root.name :: more).filterMap repo.get? = root :: more.filterMap repo.get? :=
    List.filterMap_cons_some hself
  have hregistered : ∀ reference ∈ (root :: more.filterMap repo.get?).flatMap (·.files),
      repo.manifest.contains reference.id = true := by
    intro reference href
    obtain ⟨set, hset, href⟩ := List.mem_flatMap.mp href
    rw [← hsets] at hset
    obtain ⟨key, -, hkey⟩ := List.mem_filterMap.mp hset
    exact (h.stored _ set hkey).registered _ (mem_mentioned.mpr (.inl ⟨reference, href, rfl⟩))
  obtain ⟨files, hcollect, hcollects⟩ := (Closure.Collects.nil repo.manifest).collect hregistered
  refine ⟨⟨root, root :: more.filterMap repo.get?, files⟩, ?_, rfl, ?_, hcollects.entries⟩
  · rw [Repository.closure, except_bind_ok]
    refine ⟨root.name :: more, hwalk, ?_⟩
    rw [hsets]
    exact except_bind_ok.mpr ⟨files, hcollect, rfl⟩
  · rw [hwalk, List.map_cons, h.names_filterMap_get? hmore]

/-- A closure is refused exactly if the set is missing. -/
theorem Consistent.closure_eq_error_iff (h : repo.Consistent) {error : SetError} :
    repo.closure name = .error error ↔
      repo.contains name = false ∧ error = .setNotFound (SetName.bare name) := by
  cases hroot : repo.get? name with
  | none =>
    have hfind : repo.transitiveUses name = .error (.setNotFound (SetName.bare name)) := by
      rw [Repository.transitiveUses, find, hroot]
      rfl
    have hclosure : repo.closure name = .error (.setNotFound (SetName.bare name)) := by
      rw [Repository.closure, hfind]
      rfl
    simp only [hclosure, contains, hroot, Except.error.injEq, Option.isSome_none, true_and]
    exact eq_comm
  | some root =>
    obtain ⟨closure, hclosure, -⟩ := h.closure hroot
    simp only [hclosure, contains, hroot, Option.isSome_some, reduceCtorEq, Bool.true_eq_false,
      false_and]

end Repository

/-! ### Markdown -/

namespace Markdown

/-- The files that the text of a set names apart from the list of files. -/
def located (set : ContextSet) : List String :=
  set.workflow.filterMap (·.file) ++ set.entryPoints.map (·.file)

/-- What is located is mentioned. -/
theorem mem_mentioned_of_located {set : ContextSet} {id : String} (h : id ∈ located set) :
    id ∈ set.mentioned := by
  rcases List.mem_append.mp h with hstep | hentry
  · exact List.mem_append_left _ (List.mem_append_right _ hstep)
  · exact List.mem_append_right _ hentry

theorem stepLines_congr {manifest other : Manifest} {number : Nat} {steps : List WorkflowStep}
    (h : ∀ id ∈ steps.filterMap (·.file), pathOf manifest id = pathOf other id) :
    stepLines manifest number steps = stepLines other number steps := by
  induction steps generalizing number with
  | nil => rfl
  | cons step rest ih =>
    have hrest : ∀ id ∈ rest.filterMap (·.file), pathOf manifest id = pathOf other id := by
      intro id hid
      obtain ⟨step, hstep, hfile⟩ := List.mem_filterMap.mp hid
      exact h id (List.mem_filterMap.mpr ⟨step, List.mem_cons_of_mem _ hstep, hfile⟩)
    rw [stepLines, stepLines, ih hrest]
    cases hfile : step.file with
    | none => rfl
    | some id =>
      simp only [h id (List.mem_filterMap.mpr ⟨step, List.mem_cons_self, hfile⟩)]

/-- The text depends on the manifest only by the paths of the files located. -/
theorem lines_congr {manifest other : Manifest} {closure : Closure}
    (h : ∀ id ∈ located closure.root, pathOf manifest id = pathOf other id) :
    lines manifest closure = lines other closure := by
  have hsteps : stepLines manifest 1 closure.root.workflow =
      stepLines other 1 closure.root.workflow :=
    stepLines_congr fun id hid => h id (List.mem_append_left _ hid)
  have hentries : closure.root.entryPoints.map (entryLine manifest) =
      closure.root.entryPoints.map (entryLine other) := by
    refine List.map_congr_left fun entry hentry => ?_
    have hfile : entry.file ∈ located closure.root :=
      List.mem_append_right _ (List.mem_map.mpr ⟨entry, hentry, rfl⟩)
    simp only [entryLine, h entry.file hfile]
  simp only [lines, hsteps, hentries]

theorem pathOf_of_get? {manifest : Manifest} {id : String} {entry : FileEntry}
    (h : manifest.get? id = some entry) : pathOf manifest id = entry.path := by
  rw [pathOf, h]

end Markdown

namespace Repository

variable {repo : Repository} {name : String}

theorem Consistent.located (h : repo.Consistent) {set : ContextSet}
    (hset : repo.get? name = some set) {id : String} (hid : id ∈ Markdown.located set) :
    ∃ entry, repo.manifest.get? id = some entry :=
  Table.contains_iff.mp
    ((h.stored _ set hset).registered id (Markdown.mem_mentioned_of_located hid))

end Repository

/-- All repositories that operations lead to are consistent, and no reference to a part of a file
is without functions. So a closure is refused only if its set is missing, and neither the files of a
closure nor its Markdown text ever lack the entry of a file: no path is replaced by an id, and a
manifest with more files makes no difference. -/
theorem operations_keep_repositories_consistent (ops : List Operation) :
    let repo := Operation.afterAll ops ∅
    repo.Consistent ∧
    (∀ key set, repo.sets.get? key = some set →
      ∀ reference ∈ set.files, reference.isWhole = false → reference.refs ≠ []) ∧
    (∀ name error, repo.closure name = .error error ↔
      repo.contains name = false ∧ error = .setNotFound (SetName.bare name)) ∧
    ∀ name closure, repo.closure name = .ok closure →
      (∀ file ∈ closure.files, repo.manifest.get? file.id = some file.entry) ∧
      (∀ id ∈ Markdown.located closure.root, ∃ entry,
        repo.manifest.get? id = some entry ∧ Markdown.pathOf repo.manifest id = entry.path) ∧
      ∀ other : Manifest,
        (∀ id entry, repo.manifest.get? id = some entry → other.get? id = some entry) →
          Markdown.lines other closure = Markdown.lines repo.manifest closure := by
  intro repo
  have h : repo.Consistent := Repository.Consistent.empty.afterAll ops
  refine ⟨h, ?_, fun name error => h.closure_eq_error_iff, ?_⟩
  · intro key set _ reference _ hpart
    cases reference with
    | whole id => cases hpart
    | part id first others comment => exact List.cons_ne_nil first others
  · intro name closure hclosure
    -- a closure that is answered is that of an existing set
    cases hroot : repo.get? name with
    | none =>
      have hname : repo.contains name = false := by
        rw [Repository.contains, hroot]
        rfl
      rw [h.closure_eq_error_iff.mpr ⟨hname, rfl⟩] at hclosure
      cases hclosure
    | some root =>
      obtain ⟨found, hfound, rfl, -, hfiles⟩ := h.closure hroot
      obtain rfl : found = closure := Except.ok.inj (hfound.symm.trans hclosure)
      refine ⟨hfiles, fun id hid => ?_, fun other hother => ?_⟩
      · obtain ⟨entry, hentry⟩ := h.located hroot hid
        exact ⟨entry, hentry, Markdown.pathOf_of_get? hentry⟩
      · refine Markdown.lines_congr fun id hid => ?_
        obtain ⟨entry, hentry⟩ := h.located hroot hid
        rw [Markdown.pathOf_of_get? hentry, Markdown.pathOf_of_get? (hother id entry hentry)]

end ContextSets
