import ContextSets.Proofs.Sorting
import ContextSets.Proofs.SourcePlaces

/-!
# Files found in a project

A project is searched from its root down, past the excluded directories, for files that are small
enough. Each file is found once, as its place is spelled by the names that lead to it. The working copy
is left out where the settings spell it by these names. Spelled in another way, with dots, with more
slashes or from the root of all files on, it is found like any other file.
-/

namespace ContextSets

namespace Path

theorem ofNames_inj {names others : List String} (hnames : ∀ name ∈ names, IsPlain name)
    (hothers : ∀ name ∈ others, IsPlain name) : ofNames names = ofNames others ↔ names = others := by
  refine ⟨fun h => ?_, fun h => h ▸ rfl⟩
  have hparts := congrArg parts h
  rw [parts_ofNames hnames, parts_ofNames hothers] at hparts
  exact List.map_injective_iff.mpr (fun _ _ heq => PathPart.name.inj heq) hparts

end Path

namespace Project

variable {project : Project} {tree : Tree} {current now path root : String} {names : List String}

/-- A file below the root at which a search looks, be it the working copy or not: it is small enough,
and no directory on the way to it is excluded. -/
structure Searches (project : Project) (tree : Tree) (root : String) (names : List String) : Prop where
  plain : ∀ name ∈ names, Path.IsPlain name
  outside : ∀ name ∈ names.dropLast, name ∉ project.settings.excludedDirectories
  small : ∃ bytes, tree.item? (Tree.below root names) = some (.file bytes) ∧
    bytes.size ≤ project.settings.maxFileBytes

/-- The settings spell the working copy by proper names with a slash between each two. -/
def NamesWorkingCopy (project : Project) : Prop :=
  ∃ names, (∀ name ∈ names, Path.IsPlain name) ∧
    project.settings.workingCopy = Path.ofNames names

theorem searches_iff :
    project.Searches tree root names ↔ ∃ size ≤ project.settings.maxFileBytes,
      tree.Finds root (!project.settings.excludedDirectories.contains ·) ⟨names, size⟩ := by
  constructor
  · rintro ⟨hplain, houtside, bytes, hitem, hsize⟩
    refine ⟨bytes.size, hsize, hplain, fun name hname => ?_, bytes, hitem, rfl⟩
    simpa using houtside name hname
  · rintro ⟨_, hsize, hplain, hentered, bytes, hitem, rfl⟩
    refine ⟨hplain, fun name hname => ?_, bytes, hitem, hsize⟩
    simpa using hentered name hname

theorem isSource_iff {found : FoundFile} : project.isSource found = true ↔
    found.size ≤ project.settings.maxFileBytes ∧
      Path.ofNames found.names ≠ project.settings.workingCopy := by
  unfold isSource
  rw [Bool.and_eq_true, decide_eq_true_iff, bne_iff_ne]
  rfl

/-- Paths are listed once, in ascending order. -/
theorem pairwise_scan (project : Project) (current now : String) (huniform : tree.Uniform) :
    ((project.scan (Tree.fileSystem current now)).run tree).1.Pairwise (· < ·) := by
  refine pairwise_lt_mergeSort ?_
  have hnames := (huniform.nodup_walk current project.root
    (!project.settings.excludedDirectories.contains ·)).sublist
      ((List.filter_sublist (p := project.isSource)).map _)
  refine List.Nodup.map_on (fun found hfound other hother heq => ?_) hnames.of_map
  have hplain := huniform.proper.plain_of_mem_walk (List.mem_of_mem_filter hfound)
  have hplain' := huniform.proper.plain_of_mem_walk (List.mem_of_mem_filter hother)
  exact List.inj_on_of_nodup_map hnames hfound hother ((Path.ofNames_inj hplain hplain').mp heq)

/-- What is listed are files at which a search looks, without one that is spelled as the working copy. -/
theorem searches_of_mem_scan (huniform : tree.Uniform) (hcurrent : Tree.Canonical current)
    (hpath : path ∈ ((project.scan (Tree.fileSystem current now)).run tree).1) :
    ∃ names, path = Path.ofNames names ∧ path ≠ project.settings.workingCopy ∧
      project.Searches tree (Tree.placeOf current project.root) names := by
  obtain ⟨paths, hscan, hmem⟩ := project.mem_scan tree current now
  rw [hscan] at hpath
  obtain ⟨found, hfound, hsource, rfl⟩ := (hmem path).mp hpath
  obtain ⟨hsize, hcopy⟩ := isSource_iff.mp hsource
  exact ⟨found.names, rfl, hcopy,
    searches_iff.mpr ⟨found.size, hsize, huniform.finds hcurrent hfound⟩⟩

/-- Below a directory, all files at which a search looks are listed, without one that is spelled as the
working copy. -/
theorem mem_scan_of_searches (now : String)
    (hroot : tree.hasDirectory current project.root = true)
    (h : project.Searches tree (Tree.placeOf current project.root) names)
    (hcopy : Path.ofNames names ≠ project.settings.workingCopy) :
    Path.ofNames names ∈ ((project.scan (Tree.fileSystem current now)).run tree).1 := by
  obtain ⟨size, hsize, hfinds⟩ := searches_iff.mp h
  exact mem_scan_of_found ⟨names, size⟩ (hfinds.mem_walk hroot) (isSource_iff.mpr ⟨hsize, hcopy⟩)

/-- If the settings spell the working copy by names, no other names lead to it. -/
theorem eq_workingCopy_of_below (h : project.NamesWorkingCopy)
    (hnames : ∀ name ∈ names, Path.IsPlain name)
    (hplace : Tree.below (Tree.placeOf current project.root) names =
      Tree.placeOf current project.workingCopy) :
    Path.ofNames names = project.settings.workingCopy := by
  obtain ⟨copy, hcopy, hspelled⟩ := h
  rw [workingCopy, hspelled, place, Tree.placeOf_join_ofNames current project.root hcopy] at hplace
  have hall := congrArg Tree.namesOf hplace
  rw [Tree.namesOf_below _ hnames, Tree.namesOf_below _ hcopy] at hall
  rw [hspelled, List.append_cancel_left hall]

end Project

/-- A scan lists files with their paths in ascending order, each once: files that are small enough and
that no excluded directory holds below the root. The working copy is not among them if the settings
spell it by names. All other such files are, and so is the working copy if it is spelled in another
way. -/
theorem named_working_copy_is_no_source (tree : UniformTree) (current : CanonicalPlace)
    (now : String) (project : Project) :
    let root := Tree.placeOf current.text project.root
    let copy := Tree.placeOf current.text project.workingCopy
    ∃ paths, (project.scan (Tree.fileSystem current.text now)).run tree.toTree =
        (paths, tree.toTree) ∧
      paths.Pairwise (· < ·) ∧
      (∀ path ∈ paths, ∃ names, path = Path.ofNames names ∧
        project.Searches tree.toTree root names ∧
        Tree.placeOf current.text (project.place path) = Tree.below root names ∧
        (project.NamesWorkingCopy → Tree.placeOf current.text (project.place path) ≠ copy)) ∧
      (tree.hasDirectory current.text project.root = true →
        ∀ names, project.Searches tree.toTree root names →
          (Path.ofNames names ∈ paths ↔
            (Tree.below root names = copy → ¬ project.NamesWorkingCopy))) := by
  intro root copy
  obtain ⟨paths, hrun, -⟩ := project.mem_scan tree.toTree current.text now
  have hlisted : ∀ path ∈ paths, ∃ names, path = Path.ofNames names ∧
      path ≠ project.settings.workingCopy ∧ project.Searches tree.toTree root names := by
    intro path hpath
    exact Project.searches_of_mem_scan tree.uniform current.canonical (by rwa [hrun])
  refine ⟨paths, hrun, ?_, fun path hpath => ?_, fun hroot names hsearched => ⟨?_, ?_⟩⟩
  · have hsorted := project.pairwise_scan current.text now tree.uniform
    rwa [hrun] at hsorted
  · obtain ⟨names, rfl, hcopy, hsearched⟩ := hlisted path hpath
    have hplace := Tree.placeOf_join_ofNames current.text project.root hsearched.plain
    refine ⟨names, rfl, hsearched, hplace, fun hnamed heq => hcopy ?_⟩
    exact Project.eq_workingCopy_of_below hnamed hsearched.plain (hplace.symm.trans heq)
  · intro hpath heq hnamed
    obtain ⟨others, hothers, hcopy, -⟩ := hlisted _ hpath
    exact hcopy (Project.eq_workingCopy_of_below hnamed hsearched.plain heq)
  · intro hother
    have hcopy : Path.ofNames names ≠ project.settings.workingCopy := by
      intro hspelled
      refine hother ?_ ⟨names, hsearched.plain, hspelled.symm⟩
      rw [← Tree.placeOf_join_ofNames current.text project.root hsearched.plain, hspelled]
      rfl
    have hmem := Project.mem_scan_of_searches now hroot hsearched hcopy
    rwa [hrun] at hmem

/-- A project with a working copy in one of its directories, a built file and a large one. -/
def scannedTree : Tree :=
  ⟨.ofList [("/p", .directory), ("/p/a.rs", .file "fn a".toUTF8),
    ("/p/big.rs", .file "fn login".toUTF8), ("/p/sets", .directory),
    ("/p/sets/own.json", .file "\x7b\x7d".toUTF8), ("/p/sets/target", .directory),
    ("/p/sets/target/b.rs", .file "fn b".toUTF8)]⟩

/-- The project in the tree, with its working copy spelled in a way. -/
def scannedProject (workingCopy : String) : Project :=
  ⟨"/p", { workingCopy, excludedDirectories := ["target"], maxFileBytes := 4 }⟩

theorem named_working_copy_is_no_source_nested :
    ∃ paths, ((scannedProject "sets/own.json").scan (Tree.fileSystem "/p" "now")).run
        scannedTree = (paths, scannedTree) ∧
      "a.rs" ∈ paths ∧ ∀ path ∈ paths,
        Tree.placeOf "/p" ((scannedProject "sets/own.json").place path) ≠ "/p/sets/own.json" := by
  have huniform : scannedTree.Uniform := by decide +kernel
  have hcurrent : Tree.Canonical "/p" := by decide +kernel
  obtain ⟨paths, hrun, -, hlisted, hall⟩ := named_working_copy_is_no_source
    ⟨scannedTree, huniform⟩ ⟨"/p", hcurrent⟩ "now" (scannedProject "sets/own.json")
  have hnamed : (scannedProject "sets/own.json").NamesWorkingCopy :=
    ⟨["sets", "own.json"], by decide +kernel, by decide +kernel⟩
  have hroot : Tree.placeOf "/p" (scannedProject "sets/own.json").root = "/p" := by decide +kernel
  have hcopy : Tree.placeOf "/p" (scannedProject "sets/own.json").workingCopy =
      "/p/sets/own.json" := by decide +kernel
  rw [hcopy] at hlisted hall
  rw [hroot] at hall
  have hsearched : (scannedProject "sets/own.json").Searches scannedTree "/p" ["a.rs"] :=
    ⟨by decide +kernel, by decide +kernel, "fn a".toUTF8,
      Tree.fileAt?_eq_some_iff.mp (by decide +kernel), by decide +kernel⟩
  have hdirectory : scannedTree.hasDirectory "/p" (scannedProject "sets/own.json").root = true := by
    decide +kernel
  refine ⟨paths, hrun, ?_, fun path hpath => ?_⟩
  · refine (hall hdirectory ["a.rs"] hsearched).mpr fun heq => ?_
    exact absurd heq (by decide +kernel)
  · obtain ⟨names, -, -, -, hother⟩ := hlisted path hpath
    exact hother hnamed

/-- A working copy that is spelled with a dot in front is found as a source. -/
theorem dotted_working_copy_is_source :
    ∃ path ∈ (((scannedProject "./sets/own.json").scan (Tree.fileSystem "/p" "now")).run
        scannedTree).1,
      Tree.placeOf "/p" ((scannedProject "./sets/own.json").place path) =
        Tree.placeOf "/p" (scannedProject "./sets/own.json").workingCopy := by
  have hfound : Path.ofNames ["sets", "own.json"] ∈
      (((scannedProject "./sets/own.json").scan (Tree.fileSystem "/p" "now")).run
        scannedTree).1 :=
    Project.mem_scan_of_found ⟨["sets", "own.json"], 2⟩ (by decide +kernel) (by decide +kernel)
  exact ⟨_, hfound, by decide +kernel⟩

end ContextSets
