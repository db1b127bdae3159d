import ContextSets.Proofs.BestResults
import ContextSets.Proofs.EditingCommands
import ContextSets.Proofs.FreshId
import ContextSets.Proofs.PathSpelling
import ContextSets.Proofs.ProjectFiles

/-!
# Recorded files

A command that adds files registers each of them under the normal spelling of its relative path. That
is the relative path itself as long as there is no backslash in it and no blank at its ends; then the
stored path leads to the file again, and no other such file shares its id.
-/

namespace ContextSets

namespace Manifest

variable {manifest : Manifest} {paths : List String}

/-- Each path that is new when it is resolved in its turn finds a free id. -/
def HasRoomFor (manifest : Manifest) : List String → Prop
  | [] => True
  | path :: rest => (manifest.idOf? path = none → manifest.HasRoom path) ∧
      (manifest.resolve path).2.HasRoomFor rest

/-- A manifest in which some paths have been resolved. -/
def resolveAll (manifest : Manifest) (paths : List String) : Manifest :=
  paths.foldl (fun manifest path => (manifest.resolve path).2) manifest

theorem Inverse.resolveAll (h : manifest.Inverse) (hroom : manifest.HasRoomFor paths) :
    (manifest.resolveAll paths).Inverse := by
  induction paths generalizing manifest with
  | nil => exact h
  | cons path rest ih => exact ih (h.resolve hroom.1) hroom.2

theorem ids_resolveAll_of_known {path id : String} (h : manifest.ids.get? path = some id)
    (paths : List String) : (manifest.resolveAll paths).ids.get? path = some id := by
  induction paths generalizing manifest with
  | nil => exact h
  | cons new rest ih => exact ih (ids_resolve_of_known h new)

/-- Every path that has been resolved is registered. -/
theorem exists_idOf?_resolveAll {path : String} (h : path ∈ paths) :
    ∃ id, (manifest.resolveAll paths).idOf? path = some id := by
  induction paths generalizing manifest with
  | nil => cases h
  | cons new rest ih =>
    rcases List.mem_cons.mp h with rfl | hrest
    · exact ⟨_, ids_resolveAll_of_known (idOf?_resolve manifest path) rest⟩
    · exact ih hrest

end Manifest

namespace Operation

/-- Whether an operation does nothing to the manifest but to resolve the paths that it gives. -/
def onlyResolves : Operation → Bool
  | .resolvePath _ | .addPath .. | .setRefs .. | .setReferenceComment .. => true
  | _ => false

theorem manifest_of_onlyResolves {op : Operation} {repo after : Repository} {answer : op.Answer}
    (hop : op.onlyResolves = true) (h : op.edit.run repo = .ok answer after) :
    after.manifest = repo.manifest.resolveAll op.paths := by
  cases op with
  | resolvePath path =>
    obtain ⟨-, rfl⟩ := Repository.resolvePath_ok.mp h
    rfl
  | addPath name path =>
    obtain ⟨-, -, hadd⟩ := Repository.addPath_ok.mp h
    exact Repository.manifest_addFile hadd
  | setRefs name id refs =>
    obtain ⟨-, set, -, rfl⟩ := Repository.setRefs_ok.mp h
    rfl
  | setReferenceComment name id comment =>
    obtain ⟨set, -, reference, -, hanswer⟩ := Repository.setReferenceComment_ok.mp h
    split at hanswer
    · obtain ⟨-, rfl⟩ := hanswer
      rfl
    · obtain ⟨-, rfl⟩ := hanswer
      rfl
  | create | delete | rename | describe | setMode | addUse | removeUse | addFile | removeFile
  | setFileComment | addStep | updateStep | removeStep | moveStep | addEntryPoint
  | removeEntryPoint | prune | replaceBy => cases hop

/-- A run of such operations resolves all their paths, one after another. -/
theorem Runs.manifest_eq {ops : List Operation} {repo final : Repository} (h : Runs ops repo final)
    (hops : ∀ op ∈ ops, op.onlyResolves = true) :
    final.manifest = repo.manifest.resolveAll (ops.flatMap paths) := by
  induction h with
  | nil repo => rfl
  | cons op hrun hremoves hrest ih =>
    obtain ⟨hop, hops⟩ := List.forall_mem_cons.mp hops
    rw [ih hops, manifest_of_onlyResolves hop hrun, List.flatMap_cons, Manifest.resolveAll,
      Manifest.resolveAll, ← List.foldl_append]
    rfl

end Operation

namespace Path

/-- A path that is spelled by names does not start with "./". -/
theorem dropDots_ofNames {names : List String} (hnames : ∀ name ∈ names, IsPlain name) :
    Manifest.dropDots (ofNames names).toList = (ofNames names).toList := by
  rw [Manifest.dropDots.eq_2]
  intro rest hdots
  rcases eq_or_ne names [] with rfl | hne
  · cases hdots
  · have hsplit := splitOnP_ofNames hnames hne
    rw [hdots, show '.' :: '/' :: rest = ['.'] ++ '/' :: rest from rfl,
      List.splitOnP_append_cons _ _ rfl] at hsplit
    cases names with
    | nil => exact hne rfl
    | cons name others =>
      obtain ⟨-, -, hhere, -⟩ := isPlain_iff.mp (hnames name List.mem_cons_self)
      exact hhere (List.cons.inj hsplit).1.symm

end Path

namespace Project

variable {project : Project} {tree : Tree} {current now path relative : String}

theorem relativeIn?_eq_some_iff :
    project.relativeIn? tree current path = some relative ↔
      ((project.relativePath (Tree.fileSystem current now) path).run.run tree).1 = .ok relative := by
  rw [relativePath_tree_eq_ok_iff]
  unfold relativeIn?
  cases tree.openFile current (project.place path) with
  | error fault => exact iff_of_false nofun fun h => nomatch h.1
  | ok file =>
    refine ⟨fun h => ⟨⟨file, rfl⟩, ?_⟩, fun h => congrArg Except.toOption h.2⟩
    dsimp only at h
    cases hrelative : project.relativeTo path (project.place path) with
    | error failure =>
      rw [hrelative] at h
      cases h
    | ok other =>
      rw [hrelative] at h
      exact congrArg Except.ok (Option.some.inj h)

/-- All results are files of the project. -/
def HasFiles (project : Project) (tree : Tree) (current now : String) (results : List RankedFile) :
    Prop :=
  ∀ result ∈ results, ∃ file, project.HasFile tree current now result.path file

/-- Whatever a search selects from the sources are files of the project. -/
theorem hasFiles_of_selection {settings : EmbeddingSettings} {sources : List SourceFile}
    (hsources : (project.sources (Tree.fileSystem current now) settings).run tree = (sources, tree))
    {ranker : RankerConfig} {query : String} {results omitted : List RankedFile}
    (h : Ranker.Selection ranker query sources results omitted) :
    project.HasFiles tree current now results := by
  obtain ⟨_, hsame, hmem⟩ := project.mem_sources tree current now settings
  obtain rfl : sources = _ := congrArg Prod.fst (hsources.symm.trans hsame)
  intro result hresult
  have hpath := (h.mem_iff result.path).mp
    (List.mem_map_of_mem (List.mem_append_left omitted hresult))
  obtain ⟨source, hsource, heq⟩ := List.mem_map.mp hpath
  obtain ⟨hscan, -, htext⟩ := (hmem source).mp hsource
  obtain ⟨bytes, hopen, -⟩ := Tree.textAt_eq_ok_iff.mp htext
  exact heq ▸ ⟨_, .found hscan hopen⟩

/-- The results of a search are files that the project has found on its own. -/
theorem ranked_hasFiles {world : World (StateM Tree)}
    (hfiles : world.files = Tree.fileSystem current now) (config : Config) (query : String)
    (limit : Option Nat) :
    Ensures ((project.ranked world config query limit).run.run tree) fun r =>
      ∀ results, r.1 = .ok results → project.HasFiles tree current now results := by
  obtain ⟨sources, hsources, -⟩ := project.mem_sources tree current now config.embedding
  unfold ranked
  refine Ensures.except_bind (P := fun r => r = (.ok sources, tree)) ?_ ?_ nofun
  · refine Ensures.except_lift ?_
    rw [hfiles, hsources]
    exact .pure rfl
  rintro _ _ ⟨⟩
  refine Ensures.except_bind (Ensures.trivial _) (fun opened later _ => ?_) fun _ _ _ => nofun
  obtain ⟨embedder, index⟩ := opened
  dsimp only
  split
  · exact .pure nofun
  refine Ensures.except_bind (P := fun r => ∀ outcome ranked, r.1 = .ok (outcome, ranked) →
    ∀ results, outcome = .results results → project.HasFiles tree current now results) ?_ ?_
    fun _ _ _ => nofun
  · refine Ensures.except_lift (((Ranker.rank_selects embedder _ false query sources index).run
      later).mono ?_)
    rintro ⟨⟨_, _⟩, _⟩ hselects outcome ranked ⟨⟩ results rfl
    obtain ⟨omitted, hselection⟩ := hselects results rfl
    exact hasFiles_of_selection hsources hselection
  rintro ⟨outcome, ranked⟩ searched hsearched
  dsimp only
  refine Ensures.except_mk_bind (fun results hfound => ?_) fun _ _ => nofun
  have hfound := WorkingCopy.mapError_eq_ok_iff.mp hfound
  have hresults : ∀ found, (Except.ok results : Except Failure _) = .ok found →
      project.HasFiles tree current now found := by
    rintro _ ⟨⟩
    cases outcome with
    | results files =>
      cases hfound
      exact hsearched _ ranked rfl _ rfl
    | superseded =>
      cases hfound
      exact List.forall_mem_nil _
    | pending => cases hfound
  split
  · refine Ensures.except_bind (Ensures.trivial _) ?_ fun _ _ _ => nofun
    exact fun _ _ _ => Ensures.except_pure hresults
  · exact Ensures.except_pure hresults

/-- In a stored repository, ids and paths tell the same. -/
theorem inverse_of_repository? {repo : Repository} (h : project.repository? current tree = some repo) :
    repo.manifest.Inverse := by
  obtain ⟨bytes, -, hbytes⟩ := Option.bind_eq_some_iff.mp h
  obtain ⟨text, document, -, -, hrepo⟩ := WorkingCopy.repositoryOf?_eq_some_iff.mp hbytes
  exact (Repository.describes_ofDocument hrepo).inverse

/-! ### Entries of files -/

/-- How a manifest records a file of a project: under the normal spelling of its relative path, by
which alone its id is shared. If the path is verbatim, that is the path itself; then the stored path
opens the file, unless it is too long seen from the root, and no other file with such a path has the
id. -/
structure Records (project : Project) (tree : Tree) (current now : String) (manifest : Manifest)
    (relative : String) (file : String × ByteArray) : Prop where
  entry : ∃ id entry, manifest.idOf? relative = some id ∧ manifest.get? id = some entry ∧
    entry.path = Manifest.normalize relative
  path_eq_iff : Manifest.normalize relative = relative ↔ Manifest.Verbatim relative
  opens : Manifest.Verbatim relative → Tree.requirePath (project.place relative) = .ok () →
    tree.openFile current (project.place (Manifest.normalize relative)) = .ok file
  shared_iff : ∀ other, manifest.idOf? other = manifest.idOf? relative ↔
    Manifest.normalize other = Manifest.normalize relative
  not_shared : ∀ other otherFile, project.HasFile tree current now other otherFile →
    Manifest.Verbatim relative → Manifest.Verbatim other → otherFile ≠ file →
      manifest.idOf? other ≠ manifest.idOf? relative

section Named

variable {file : String × ByteArray} (hproper : tree.Proper)
  (hroot : tree.fileAt? (Tree.placeOf current project.root) = none)

include hproper hroot

theorem HasFile.normalize_eq_iff (h : project.HasFile tree current now relative file) :
    Manifest.normalize relative = relative ↔ Manifest.Verbatim relative := by
  obtain ⟨names, -, hplain, rfl, -⟩ := h.exists_names hproper hroot
  exact Manifest.normalize_eq_self_iff (Path.dropDots_ofNames hplain)

/-- A registered file is recorded, if ids and paths tell the same. -/
theorem HasFile.records {manifest : Manifest} {id : String}
    (h : project.HasFile tree current now relative file)
    (hinverse : manifest.Inverse) (hid : manifest.idOf? relative = some id) :
    project.Records tree current now manifest relative file := by
  have hsame := h.normalize_eq_iff hproper hroot
  have hshared : ∀ other, manifest.idOf? other = manifest.idOf? relative ↔
      Manifest.normalize other = Manifest.normalize relative := by
    intro other
    rw [hid]
    exact hinverse.idOf?_eq_some_iff hid
  refine ⟨?_, hsame, fun hverbatim hpath => ?_, hshared, ?_⟩
  · obtain ⟨entry, hentry, hpath⟩ := (hinverse _ _).mp hid
    exact ⟨id, entry, hid, hentry, hpath⟩
  · rw [hsame.mpr hverbatim]
    exact h.openFile_place hproper hroot hpath
  · intro other otherFile hother hverbatim hverbatim' hne heq
    have hnormal := (hshared other).mp heq
    rw [hsame.mpr hverbatim, (hother.normalize_eq_iff hproper hroot).mpr hverbatim'] at hnormal
    subst hnormal
    exact hne (hother.unique hproper hroot h)

end Named

end Project

theorem mem_of_mapM_eq_some {α β : Type} {f : α → Option β} {xs : List α} {ys : List β} {x : α}
    {y : β} (h : xs.mapM f = some ys) (hx : x ∈ xs) (hy : f x = some y) : y ∈ ys := by
  induction xs generalizing ys with
  | nil => cases hx
  | cons first rest ih =>
    rw [List.mapM_cons] at h
    obtain ⟨head, hhead, htail⟩ := Option.bind_eq_some_iff.mp h
    obtain ⟨tail, hrest, hys⟩ := Option.bind_eq_some_iff.mp htail
    cases hys
    rcases List.mem_cons.mp hx with rfl | hmem
    · rw [hhead] at hy
      exact Option.some.inj hy ▸ List.mem_cons_self
    · exact List.mem_cons_of_mem _ (ih hrest hmem)

namespace Command

variable {project : Project} {tree : Tree} {current now relative : String}
  {results : List RankedFile} {command : Command}

/-- The relative paths that a command registers: those of the files that it is given, or of the best
results of its search. -/
def Registers (project : Project) (tree : Tree) (current now : String)
    (results : List RankedFile) : Command → String → Prop
  | .addFiles _ paths, relative => ∃ path ∈ paths,
      ((project.relativePath (Tree.fileSystem current now) path).run.run tree).1 = .ok relative
  | .refs _ path _ _, relative =>
      ((project.relativePath (Tree.fileSystem current now) path).run.run tree).1 = .ok relative
  | .search _ options, relative =>
      ∃ file ∈ RankedFile.topRelated options.top results, file.path = relative
  | _, _ => False

/-- What a command registers are paths that its operations resolve, and they do nothing else to the
manifest. -/
theorem Registers.mem_paths {repo : Repository} {ops : List Operation}
    (h : command.Registers project tree current now results relative)
    (hops : command.operations? project tree current results repo = some ops) :
    relative ∈ ops.flatMap Operation.paths ∧ ∀ op ∈ ops, op.onlyResolves = true := by
  cases command with
  | addFiles name paths =>
    obtain ⟨path, hpath, hrelative⟩ := h
    obtain ⟨found, hfound, rfl⟩ := Option.map_eq_some_iff.mp hops
    have hmem := mem_of_mapM_eq_some hfound hpath (Project.relativeIn?_eq_some_iff.mpr hrelative)
    refine ⟨List.mem_flatMap.mpr ⟨.addPath name relative, List.mem_map_of_mem hmem, ?_⟩, ?_⟩
    · exact List.mem_singleton_self relative
    · intro op hop
      obtain ⟨path, -, rfl⟩ := List.mem_map.mp hop
      rfl
  | refs name path names note =>
    have hrelative := Project.relativeIn?_eq_some_iff.mpr h
    simp only [operations?, hrelative, Option.bind_eq_bind, Option.bind_some] at hops
    obtain ⟨text, -, hops⟩ := Option.bind_eq_some_iff.mp hops
    cases hops
    refine ⟨List.mem_flatMap.mpr ⟨_, List.mem_cons_self, List.mem_singleton_self relative⟩, ?_⟩
    refine List.forall_mem_cons.mpr ⟨rfl, List.forall_mem_cons.mpr ⟨rfl, ?_⟩⟩
    split
    · exact List.forall_mem_singleton.mpr rfl
    · exact List.forall_mem_nil _
  | search query options =>
    obtain ⟨file, hfile, rfl⟩ := h
    obtain ⟨name, -, rfl⟩ := Option.map_eq_some_iff.mp hops
    refine ⟨List.mem_flatMap.mpr ⟨.addPath name file.path, ?_, List.mem_singleton_self _⟩, ?_⟩
    · exact List.mem_map_of_mem (f := fun file : RankedFile => Operation.addPath name file.path) hfile
    · intro op hop
      obtain ⟨other, -, rfl⟩ := List.mem_map.mp hop
      rfl
  | init | create | describe | delete | rename | removeFile | comment | addUse | removeUse | list
  | display | handOn | tokens | prune | embed => cases h

/-- What a command registers are paths of files. -/
theorem Registers.exists_file {world : World (StateM Tree)} {config : Config}
    (h : command.Registers project tree current now results relative)
    (hfiles : world.files = Tree.fileSystem current now)
    (hfinds : command.Finds world config project tree results) :
    ∃ file, project.HasFile tree current now relative file := by
  have haccepted : ∀ path,
      ((project.relativePath (Tree.fileSystem current now) path).run.run tree).1 = .ok relative →
        ∃ file, project.HasFile tree current now relative file := by
    intro path hrun
    obtain ⟨⟨file, hopen⟩, -⟩ := Project.relativePath_tree_eq_ok_iff.mp hrun
    exact ⟨file, .accepted path hrun hopen⟩
  cases command with
  | addFiles name paths =>
    obtain ⟨path, -, hrun⟩ := h
    exact haccepted path hrun
  | refs name path names note => exact haccepted path h
  | search query options =>
    obtain ⟨file, hfile, rfl⟩ := h
    have hresult : file ∈ results := List.mem_of_mem_filter (List.mem_of_mem_take hfile)
    exact (Project.ranked_hasFiles hfiles config query options.limit).of_id results hfinds file hresult
  | init | create | describe | delete | rename | removeFile | comment | addUse | removeUse | list
  | display | handOn | tokens | prune | embed => cases h

end Command

/-- Whatever files a command registers that adds files, are recorded in the manifest that it stores, as
long as each new path finds a free id. -/
theorem added_files_are_recorded (tree : ProperTree) (current now : String) (world : World (StateM Tree))
    (monitor : Batch.Monitor (StateM Tree)) (config : Config) (project : Project)
    (command : Command) (hfiles : world.files = Tree.fileSystem current now)
    (hclient : ∀ query options, command = .search query options → ∀ message,
      Spares (project.stored? current) (world.client.send message))
    (hedits : command.edits = true) (hinit : command ≠ .init)
    (hapart : ∀ query options, command = .search query options →
      ∀ provider : Provider (StateM Tree), world.provider config.embedding = .ok provider →
        project.KeepsApart config.embedding provider.model query current now tree.toTree)
    (hroot : tree.fileAt? (Tree.placeOf current project.root) = none)
    (hroom : ∀ repo results ops, project.repository? current tree.toTree = some repo →
      command.Finds world config project tree.toTree results →
      command.operations? project tree.toTree current results repo = some ops →
        repo.manifest.HasRoomFor (ops.flatMap Operation.paths)) :
    let r := ((command.run world monitor config project).run.run tree.toTree).run
    r.1.isOk = true → ∃ (final : Repository) (results : List RankedFile),
      project.stored? current r.2 = some final.document.text.toUTF8 ∧
      command.Finds world config project tree.toTree results ∧
      ∀ relative, command.Registers project tree.toTree current now results relative →
        ∃ file, project.HasFile tree.toTree current now relative file ∧
          project.Records tree.toTree current now final.manifest relative file := by
  have hreplaces := (Command.run_replaces monitor command hfiles hclient hedits hinit hapart).of_id
  dsimp only
  generalize ((command.run world monitor config project).run.run tree.toTree).run = r at hreplaces ⊢
  obtain ⟨result, later⟩ := r
  intro hok
  cases hreplaces with
  | failed _ => cases hok
  | @done answer _ repo final hrepo hleads hstored =>
    obtain ⟨results, ops, hfinds, hops, hruns⟩ := hleads
    refine ⟨final, results, hstored, hfinds, fun relative hregisters => ?_⟩
    obtain ⟨hmem, honly⟩ := hregisters.mem_paths hops
    obtain ⟨file, hfile⟩ := hregisters.exists_file hfiles hfinds
    have hmanifest := hruns.manifest_eq honly
    have hinverse : final.manifest.Inverse := by
      rw [hmanifest]
      exact (Project.inverse_of_repository? hrepo).resolveAll
        (hroom repo results ops hrepo hfinds hops)
    obtain ⟨id, hid⟩ : ∃ id, final.manifest.idOf? relative = some id := by
      rw [hmanifest]
      exact Manifest.exists_idOf?_resolveAll hmem
    exact ⟨file, hfile, hfile.records tree.proper hroot hinverse hid⟩

/-- A project with a source in a directory. -/
def nestedTree : Tree :=
  searchedTree [("/p/src", .directory), ("/p/src/b c.rs", .file "x".toUTF8)]

/-- Adding that source by a path with a dot and two slashes. -/
def addNested : Command := .addFiles "s" ["/p/./src//b c.rs"]

theorem added_files_are_recorded_nested :
    let r := ((addNested.run searchedWorld unobserved {} searchedProject).run.run nestedTree).run
    r.1.isOk = true ∧ ∃ final : Repository,
      searchedProject.stored? "" r.2 = some final.document.text.toUTF8 ∧
      ∃ file, searchedProject.HasFile nestedTree "" searchTime "src/b c.rs" file ∧
        searchedProject.Records nestedTree "" searchTime final.manifest "src/b c.rs" file := by
  have hok : ((addNested.run searchedWorld unobserved {} searchedProject).run.run
      nestedTree).run.1.isOk = true := by decide +kernel
  have hrelative : ["/p/./src//b c.rs"].mapM (searchedProject.relativeIn? nestedTree "") =
      some ["src/b c.rs"] := by decide +kernel
  have hfree : (searchedProject.repository? "" nestedTree).all
      (fun repo => decide (repo.manifest.HasRoom "src/b c.rs")) = true := by decide +kernel
  have hroom : ∀ repo results ops, searchedProject.repository? "" nestedTree = some repo →
      addNested.Finds searchedWorld {} searchedProject nestedTree results →
      addNested.operations? searchedProject nestedTree "" results repo = some ops →
        repo.manifest.HasRoomFor (ops.flatMap Operation.paths) := by
    intro repo results ops hrepo _ hops
    rw [hrepo] at hfree
    simp only [addNested, Command.operations?, hrelative, Option.map_some] at hops
    cases hops
    exact ⟨fun _ => of_decide_eq_true hfree, trivial⟩
  have hsearch : ∀ query options, addNested ≠ .search query options := by
    intro query options h
    cases h
  obtain ⟨final, results, hstored, -, hrecorded⟩ := added_files_are_recorded
    ⟨nestedTree, by decide +kernel⟩ "" searchTime searchedWorld unobserved {} searchedProject
    addNested rfl (fun _ _ _ _ => spares_pure _) rfl (by rintro ⟨⟩)
    (fun query options h => absurd h (hsearch query options)) (by decide +kernel) hroom hok
  exact ⟨hok, final, hstored, hrecorded "src/b c.rs" ⟨_, List.mem_singleton_self _, by rfl⟩⟩

/-- A project with a file that has a backslash in its name, and another one. -/
def twinTree : Tree :=
  searchedTree [("/p/a", .directory), ("/p/a/b", .file "x".toUTF8), ("/p/a\\b", .file "y".toUTF8)]

/-- The repository that is stored there. -/
def bareRepository : Repository where
  manifest := ∅
  sets := ⟨[("s", { name := "s" })], by decide⟩

/-- The repository in which the two files have one entry. -/
def twinRepository : Repository where
  manifest := {
    files := ⟨[("fc14cddc033f6", { path := "a/b" })], by decide⟩
    ids := ⟨[("a/b", "fc14cddc033f6")], by decide⟩ }
  sets := ⟨[("s", { name := "s", files := [.whole "fc14cddc033f6"] })], by decide⟩

/-- The backslash is taken for a separator, so two different files share one entry, which has the path
of the second. -/
theorem backslash_is_a_separator :
    searchedProject.repository? "" twinTree = some bareRepository ∧
      (((Change.addFiles searchedProject (Tree.fileSystem "" searchTime) "s"
          ["a\\b", "a/b"]).run bareRepository).run.run twinTree).run.1.toOption =
        some ("Added a\\b (fc14cddc033f6)\na/b is already in s", twinRepository) ∧
      searchedProject.HasFile twinTree "" searchTime "a\\b" ("/p/a\\b", "y".toUTF8) ∧
      searchedProject.HasFile twinTree "" searchTime "a/b" ("/p/a/b", "x".toUTF8) ∧
      twinRepository.manifest.idOf? "a\\b" = some "fc14cddc033f6" ∧
      twinRepository.manifest.idOf? "a/b" = some "fc14cddc033f6" ∧
      twinRepository.manifest.get? "fc14cddc033f6" = some { path := "a/b" } := by
  refine ⟨by decide +kernel, by decide +kernel, ?_, ?_, by decide, by decide, by decide⟩
  · exact .accepted "a\\b" (by rfl) (by decide +kernel)
  · exact .accepted "a/b" (by rfl) (by decide +kernel)

end ContextSets
