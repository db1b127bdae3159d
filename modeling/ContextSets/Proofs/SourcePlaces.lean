import ContextSets.Project.Embedding
import ContextSets.Proofs.FoundFiles

/-!
# Sources and kept vectors

Which files are sources is decided from the spelling of paths, while vectors are kept where the file
system finds the directory. Both agree if the root and the directory are spelled from the same start on
by names alone; then the sources are exactly the readable files that have been found outside of the
directory.
-/

namespace ContextSets

namespace Path

/-- Two paths lead from the same parts on by names alone. -/
def SpelledAlike (one other : String) : Prop :=
  ∃ start ones others, parts one = start ++ List.map .name ones ∧
    parts other = start ++ List.map .name others

theorem isSome_behind?_iff {base path : String} :
    (behind? base path).isSome = true ↔ parts base <+: parts path := by
  unfold behind?
  split
  · rename_i h
    exact iff_of_true rfl (List.isPrefixOf_iff_prefix.mp h)
  · rename_i h
    exact iff_of_false nofun fun hstart => h (List.isPrefixOf_iff_prefix.mpr hstart)

theorem SpelledAlike.behind?_iff_holds {root directory : String}
    (h : SpelledAlike root directory) (current : String) {names : List String}
    (hnames : ∀ name ∈ names, IsPlain name) :
    (behind? directory (join root (ofNames names))).isSome = true ↔
      Tree.Holds (Tree.placeOf current directory)
        (Tree.placeOf current (join root (ofNames names))) := by
  obtain ⟨start, ones, others, hroot, hdirectory⟩ := h
  have hpath : parts (join root (ofNames names)) = start ++ (ones ++ names).map .name := by
    rw [parts_join_ofNames root hnames, hroot, List.append_assoc, List.map_append]
  have hones : ∀ name ∈ ones ++ names, IsPlain name := by
    intro name hname
    have hpart : .name name ∈ parts (join root (ofNames names)) := by
      rw [hpath]
      exact List.mem_append_right _ (List.mem_map_of_mem hname)
    exact isPlain_of_mem_parts hpart
  have hothers : ∀ name ∈ others, IsPlain name := by
    intro name hname
    have hpart : .name name ∈ parts directory := by
      rw [hdirectory]
      exact List.mem_append_right _ (List.mem_map_of_mem hname)
    exact isPlain_of_mem_parts hpart
  -- both places lie below that of the common start
  have hplace : ∀ path names, parts path = start ++ List.map .name names →
      Tree.placeOf current path = Tree.below (start.foldl Tree.step current) names := by
    intro path names heq
    rw [Tree.placeOf, heq, List.foldl_append, List.foldl_map]
    rfl
  rw [isSome_behind?_iff, hdirectory, hpath, List.prefix_append_right_inj, Tree.Holds,
    hplace _ _ hdirectory, hplace _ _ hpath, Tree.namesOf_below _ hothers,
    Tree.namesOf_below _ hones, List.prefix_append_right_inj]
  exact List.prefix_map_iff_of_injective fun _ _ heq => PathPart.name.inj heq

theorem exists_map_name {parts : List PathPart} (h : ∀ part ∈ parts, ∃ name, part = .name name) :
    ∃ names, parts = List.map .name names := by
  induction parts with
  | nil => exact ⟨[], rfl⟩
  | cons part rest ih =>
    obtain ⟨⟨name, rfl⟩, hrest⟩ := List.forall_mem_cons.mp h
    obtain ⟨names, rfl⟩ := ih hrest
    exact ⟨name :: names, rfl⟩

/-- Paths that never go up are spelled alike if they start alike: both at the root, or both with or
both without a dot for the current directory. -/
theorem spelledAlike_of_leadOf {one other : String}
    (hlead : leadOf one.toList = leadOf other.toList)
    (hup : .up ∉ parts one ∧ .up ∉ parts other) : SpelledAlike one other := by
  have hnames : ∀ path, .up ∉ parts path → ∃ names, partsBetween path.toList = List.map .name names := by
    intro path hpath
    refine exists_map_name fun part hpart => ?_
    refine (up_or_name_of_mem_partsBetween hpart).resolve_left ?_
    rintro rfl
    rw [parts_eq] at hpath
    exact hpath (List.mem_append_right _ hpart)
  obtain ⟨ones, hones⟩ := hnames one hup.1
  obtain ⟨others, hothers⟩ := hnames other hup.2
  exact ⟨leadOf one.toList, ones, others, by rw [parts_eq, hones],
    by rw [parts_eq, hothers, hlead]⟩

end Path

namespace Tree

variable {tree : Tree} {current : String}

/-- Neither of two places holds the other. -/
def Apart (one other : String) : Prop :=
  ¬ Holds one other ∧ ¬ Holds other one

instance (one other : String) : Decidable (Apart one other) :=
  inferInstanceAs (Decidable (¬ Holds one other ∧ ¬ Holds other one))

theorem Apart.not_holds_below {root directory : String} (h : Apart root directory)
    {names : List String} (hnames : ∀ name ∈ names, Path.IsPlain name) :
    ¬ Holds directory (below root names) := fun hholds => by
  rcases List.prefix_or_prefix_of_prefix hholds (holds_below root hnames) with hone | hother
  · exact h.2 hone
  · exact h.1 hother

end Tree

namespace Project

variable {project : Project} {tree : Tree} {current now path : String}

theorem mem_readSources (project : Project) (tree : Tree) (current now : String)
    (paths : List String) :
    ∃ sources, (project.readSources (Tree.fileSystem current now) paths).run tree = (sources, tree) ∧
      ∀ source, source ∈ sources ↔ source.path ∈ paths ∧
        tree.textAt current (project.place source.path) = .ok source.content := by
  induction paths with
  | nil => exact ⟨[], rfl, by simp⟩
  | cons path rest ih =>
    obtain ⟨others, hothers, hmem⟩ := ih
    have hrest : (project.readSources (Tree.fileSystem current now) rest).run tree =
        pure (others, tree) := hothers
    unfold readSources
    rw [StateT.run_bind, Tree.run_readText, pure_bind, StateT.run_bind, hrest, pure_bind]
    cases htext : tree.textAt current (project.place path) with
    | ok text =>
      refine ⟨⟨path, text⟩ :: others, rfl, fun source => ?_⟩
      rw [List.mem_cons, hmem, List.mem_cons, or_and_right]
      refine or_congr_left ⟨?_, ?_⟩
      · rintro rfl
        exact ⟨rfl, htext⟩
      · rintro ⟨hpath, hcontent⟩
        rw [hpath, htext] at hcontent
        cases source
        cases hpath
        cases hcontent
        rfl
    | error fault =>
      refine ⟨others, rfl, fun source => ?_⟩
      rw [hmem, List.mem_cons, or_and_right, iff_or_self]
      rintro ⟨hpath, hcontent⟩
      rw [hpath, htext] at hcontent
      cases hcontent

theorem mem_scan (project : Project) (tree : Tree) (current now : String) :
    ∃ paths, (project.scan (Tree.fileSystem current now)).run tree = (paths, tree) ∧
      ∀ path, path ∈ paths ↔ ∃ found, found ∈ tree.walk current project.root
          (!project.settings.excludedDirectories.contains ·) ∧
        project.isSource found = true ∧ Path.ofNames found.names = path := by
  refine ⟨_, rfl, fun path => ?_⟩
  simp only [List.mem_mergeSort, List.mem_map, List.mem_filter, and_assoc]
  rfl

/-- The sources are the readable files that are found in the project and are not spelled as in the
directory for vectors. -/
theorem mem_sources (project : Project) (tree : Tree) (current now : String)
    (settings : EmbeddingSettings) :
    ∃ sources, (project.sources (Tree.fileSystem current now) settings).run tree = (sources, tree) ∧
      ∀ source, source ∈ sources ↔
        source.path ∈ ((project.scan (Tree.fileSystem current now)).run tree).1 ∧
        project.isCached settings source.path = false ∧
        tree.textAt current (project.place source.path) = .ok source.content := by
  obtain ⟨paths, hscan, -⟩ := project.mem_scan tree current now
  obtain ⟨sources, hsources, hmem⟩ := project.mem_readSources tree current now
    (paths.filter (!project.isCached settings ·))
  refine ⟨sources, ?_, fun source => ?_⟩
  · unfold Project.sources
    rw [StateT.run_bind, hscan]
    exact hsources
  · rw [hmem, hscan, List.mem_filter, and_assoc]
    simp

theorem mem_scan_of_found (found : FoundFile)
    (hfound : found ∈ tree.walk current project.root
      (!project.settings.excludedDirectories.contains ·))
    (hsource : project.isSource found = true) :
    Path.ofNames found.names ∈ ((project.scan (Tree.fileSystem current now)).run tree).1 := by
  obtain ⟨paths, hscan, hmem⟩ := project.mem_scan tree current now
  rw [hscan]
  exact (hmem _).mpr ⟨found, hfound, hsource, rfl⟩

/-- Without a directory in the settings, vectors are kept below the root. -/
theorem spelledAlike_cacheDirectory (project : Project) {settings : EmbeddingSettings}
    (h : settings.cacheDirectory = none) :
    Path.SpelledAlike project.root (project.cacheDirectory settings) := by
  have hnames : Path.IsPlain ".contextual" ∧ Path.IsPlain "embeddings" := by decide
  refine ⟨Path.parts project.root, [], [".contextual", "embeddings"], by simp, ?_⟩
  rw [cacheDirectory, h, Option.getD_none, Path.parts_join_name _ hnames.2, place,
    Path.parts_join_name _ hnames.1, List.append_assoc]
  rfl

/-- A file that is found in a project is passed over exactly if it lies in the directory for vectors. -/
theorem isCached_iff_holds {settings : EmbeddingSettings} (hproper : tree.Proper)
    (hspelled : Path.SpelledAlike project.root (project.cacheDirectory settings))
    (hpath : path ∈ ((project.scan (Tree.fileSystem current now)).run tree).1) :
    project.isCached settings path = true ↔
      Tree.Holds (Tree.placeOf current (project.cacheDirectory settings))
        (Tree.placeOf current (project.place path)) := by
  obtain ⟨paths, hscan, hmem⟩ := project.mem_scan tree current now
  rw [hscan] at hpath
  obtain ⟨found, hfound, -, rfl⟩ := (hmem path).mp hpath
  exact hspelled.behind?_iff_holds current (hproper.plain_of_mem_walk hfound)

theorem not_holds_of_apart {settings : EmbeddingSettings} (hproper : tree.Proper)
    (hapart : Tree.Apart (Tree.placeOf current project.root)
      (Tree.placeOf current (project.cacheDirectory settings)))
    (hpath : path ∈ ((project.scan (Tree.fileSystem current now)).run tree).1) :
    ¬ Tree.Holds (Tree.placeOf current (project.cacheDirectory settings))
      (Tree.placeOf current (project.place path)) := by
  obtain ⟨paths, hscan, hmem⟩ := project.mem_scan tree current now
  rw [hscan] at hpath
  obtain ⟨found, hfound, -, rfl⟩ := (hmem path).mp hpath
  have hnames := hproper.plain_of_mem_walk hfound
  rw [place, Tree.placeOf_join_ofNames current project.root hnames]
  exact hapart.not_holds_below hnames

/-- What is written through the shelf of a project lies in the directory for vectors. -/
theorem holds_of_write (project : Project) (settings : EmbeddingSettings) {name : String}
    (hname : Path.IsPlain name) (bytes : ByteArray) {changed : String}
    (hchanged : (((project.shelf (Tree.fileSystem current now) settings).folder.write name
      bytes).run tree).2.item? changed ≠ tree.item? changed) :
    Tree.Holds (Tree.placeOf current (project.cacheDirectory settings)) changed := by
  have hfolder : (project.shelf (Tree.fileSystem current now) settings).folder.write name bytes =
      Tree.change (·.write current (Path.join (project.cacheDirectory settings) name) bytes) := rfl
  rw [hfolder, Tree.run_change] at hchanged
  cases hwrite : tree.write current (Path.join (project.cacheDirectory settings) name) bytes with
  | error fault =>
    rw [hwrite] at hchanged
    exact absurd rfl hchanged
  | ok later =>
    rw [hwrite] at hchanged
    dsimp only at hchanged
    rw [Tree.write_eq hwrite, Tree.placeOf_join _ _ hname, Function.update_apply] at hchanged
    split at hchanged
    · rename_i heq
      rw [heq]
      exact Tree.holds_child _ hname
    · exact absurd rfl hchanged

end Project

/-- Kept vectors are no sources. Let the root of a project and its directory for vectors be spelled
from the same start on by names alone, or lead to places apart. Then no source lies in the directory,
and if they are spelled alike, every other readable file that has been found is a source. What is
written through the shelf under a plain name does lie in the directory. -/
theorem kept_vectors_are_no_sources (tree : ProperTree) (current now : String) (project : Project)
    (settings : EmbeddingSettings)
    (hspelled : Path.SpelledAlike project.root (project.cacheDirectory settings) ∨
      Tree.Apart (Tree.placeOf current project.root)
        (Tree.placeOf current (project.cacheDirectory settings))) :
    let directory := Tree.placeOf current (project.cacheDirectory settings)
    let files := Tree.fileSystem current now
    ∃ sources, (project.sources files settings).run tree.toTree = (sources, tree.toTree) ∧
      (∀ source ∈ sources, ∃ place bytes,
        tree.openFile current (project.place source.path) = .ok (place, bytes) ∧
        FileSystem.decode bytes = .ok source.content ∧ ¬ Tree.Holds directory place) ∧
      (Path.SpelledAlike project.root (project.cacheDirectory settings) →
        ∀ path ∈ ((project.scan files).run tree.toTree).1, ∀ place bytes text,
          tree.openFile current (project.place path) = .ok (place, bytes) →
          FileSystem.decode bytes = .ok text → ¬ Tree.Holds directory place →
          ⟨path, text⟩ ∈ sources) ∧
      ∀ earlier : Tree, ∀ name bytes, Path.IsPlain name → ∀ changed,
        (((project.shelf files settings).folder.write name bytes).run earlier).2.item? changed ≠
          earlier.item? changed → Tree.Holds directory changed := by
  obtain ⟨sources, hrun, hmem⟩ := project.mem_sources tree.toTree current now settings
  refine ⟨sources, hrun, fun source hsource => ?_, ?_, fun earlier name bytes hname changed =>
    project.holds_of_write settings hname bytes⟩
  · obtain ⟨hpath, hcached, htext⟩ := (hmem source).mp hsource
    obtain ⟨bytes, hopen, hcontent⟩ := Tree.textAt_eq_ok_iff.mp htext
    refine ⟨_, bytes, hopen, hcontent, ?_⟩
    rcases hspelled with hspelled | hapart
    · rw [← Project.isCached_iff_holds tree.proper hspelled hpath, hcached]
      nofun
    · exact Project.not_holds_of_apart tree.proper hapart hpath
  · intro hspelled path hpath place bytes text hopen hcontent hplace
    obtain rfl := (Tree.openFile_eq hopen).1
    refine (hmem ⟨path, text⟩).mpr ⟨hpath, ?_, Tree.textAt_eq_ok_iff.mpr ⟨bytes, hopen, hcontent⟩⟩
    rw [← Bool.not_eq_true, Project.isCached_iff_holds tree.proper hspelled hpath]
    exact hplace

/-! ### Examples -/

/-- A project with a source and a kept vector. -/
def cachedTree : Tree :=
  ⟨.ofList [("/p", .directory), ("/p/a.rs", .file "fn login() {}".toUTF8),
    ("/p/cache", .directory), ("/p/cache/x.json", .file "kept".toUTF8)]⟩

/-- The project in the tree. -/
def cachedProject : Project := ⟨"/p", {}⟩

/-- Settings by which vectors are kept in a directory. -/
def cachedIn (directory : String) : EmbeddingSettings := { cacheDirectory := some directory }

theorem kept_vectors_are_no_sources_spelled :
    ∃ sources, (cachedProject.sources (Tree.fileSystem "/p" "now") (cachedIn "/p/cache")).run
        cachedTree = (sources, cachedTree) ∧
      ⟨"a.rs", "fn login() {}"⟩ ∈ sources ∧
      ∀ source ∈ sources, ∃ place bytes,
        cachedTree.openFile "/p" (cachedProject.place source.path) = .ok (place, bytes) ∧
        FileSystem.decode bytes = .ok source.content ∧ ¬ Tree.Holds "/p/cache" place := by
  have hspelled : Path.SpelledAlike cachedProject.root
      (cachedProject.cacheDirectory (cachedIn "/p/cache")) :=
    Path.spelledAlike_of_leadOf (by decide +kernel) (by decide +kernel)
  obtain ⟨sources, hrun, hapart, hall, -⟩ := kept_vectors_are_no_sources
    ⟨cachedTree, by decide +kernel⟩ "/p" "now" cachedProject (cachedIn "/p/cache") (.inl hspelled)
  have hdirectory : Tree.placeOf "/p" (cachedProject.cacheDirectory (cachedIn "/p/cache")) =
      "/p/cache" := by decide +kernel
  rw [hdirectory] at hapart hall
  have hfound : Path.ofNames ["a.rs"] ∈
      ((cachedProject.scan (Tree.fileSystem "/p" "now")).run cachedTree).1 :=
    Project.mem_scan_of_found ⟨["a.rs"], 13⟩ (by decide +kernel) (by decide +kernel)
  exact ⟨sources, hrun, hall hspelled _ hfound "/p/a.rs" "fn login() \x7b\x7d".toUTF8 _
    (by decide +kernel) (by decide +kernel) (by decide +kernel), hapart⟩

/-- A directory for vectors that is given from the current directory on is not recognized below a root
that is given in full: what is kept in it is found again as a source. -/
theorem relative_cache_is_searched :
    ∃ source ∈ ((cachedProject.sources (Tree.fileSystem "/p" "now") (cachedIn "cache")).run
        cachedTree).1, ∃ place bytes,
      cachedTree.openFile "/p" (cachedProject.place source.path) = .ok (place, bytes) ∧
      Tree.Holds (Tree.placeOf "/p" (cachedProject.cacheDirectory (cachedIn "cache"))) place := by
  obtain ⟨sources, hrun, hmem⟩ :=
    cachedProject.mem_sources cachedTree "/p" "now" (cachedIn "cache")
  have hfound : Path.ofNames ["cache", "x.json"] ∈
      ((cachedProject.scan (Tree.fileSystem "/p" "now")).run cachedTree).1 :=
    Project.mem_scan_of_found ⟨["cache", "x.json"], 4⟩ (by decide +kernel) (by decide +kernel)
  rw [hrun]
  refine ⟨⟨"cache/x.json", "kept"⟩, (hmem _).mpr ⟨hfound, by decide +kernel, by decide +kernel⟩,
    "/p/cache/x.json", "kept".toUTF8, by decide +kernel, by decide +kernel⟩

end ContextSets
