import Mathlib
import ContextSets.Command.Run
import ContextSets.Proofs.ChangeOperations
import ContextSets.Proofs.SearchFiles

/-!
# Editing commands

An editing command either fails and leaves the stored text as it was, or replaces it by that of the
repository to which its operations lead. Writing the text is the last step of every command, and the
only one before that touches files is a search, which keeps its vectors.
-/

namespace ContextSets

/-- An action without failures as a part of a command. -/
theorem Task.run_lift_of_eq {α : Type} {x : StateM Tree α} {a : α} {tree later : Tree}
    (h : x.run tree = pure (a, later)) :
    (ExceptT.lift x : Task (StateM Tree) α).run.run tree = pure (.ok a, later) := by
  rw [ExceptT.run_lift, StateT.run_map, h]
  rfl

namespace Project

variable {α : Type} {project : Project} {tree : Tree} {current now : String}

/-- The repository that is stored in a tree. -/
def repository? (project : Project) (current : String) (tree : Tree) : Option Repository :=
  (project.stored? current tree).bind WorkingCopy.repositoryOf?

/-- What may come of a change of the stored repository: it fails and what is stored stays, or the text
of a repository is stored that is related to the one before. -/
inductive Replaces (project : Project) (current : String) (tree : Tree)
    (R : Repository → Repository → Prop) : Except Failure α → Tree → Prop
  | failed {failure : Failure} {later : Tree}
      (hsame : project.stored? current later = project.stored? current tree) :
      Replaces project current tree R (.error failure) later
  | done {answer : α} {later : Tree} {repo final : Repository}
      (hrepo : project.repository? current tree = some repo) (hrelated : R repo final)
      (hstored : project.stored? current later = some final.document.text.toUTF8) :
      Replaces project current tree R (.ok answer) later

theorem Replaces.imp {R R' : Repository → Repository → Prop} {result : Except Failure α}
    {later : Tree}
    (h : project.Replaces current tree R result later)
    (himp : ∀ repo final, R repo final → R' repo final) :
    project.Replaces current tree R' result later := by
  cases h with
  | failed hsame => exact .failed hsame
  | done hrepo hrelated hstored => exact .done hrepo (himp _ _ hrelated) hstored

/-- Replaced text is that of a repository, or the old one. -/
theorem save_ensures (project : Project) (repo : Repository) (tree : Tree) :
    Ensures ((project.save (Tree.fileSystem current now) repo).run.run tree) fun r =>
      r.1 = .ok () ∧ project.stored? current r.2 = some repo.document.text.toUTF8 ∨
      (∃ failure, r.1 = .error failure) ∧
        project.stored? current r.2 = project.stored? current tree := by
  refine Ensures.except_mapError
    ((WorkingCopy.writeText_replaces tree current now project.workingCopy _).mono ?_)
  rintro ⟨result, later⟩ (⟨hok, hstored⟩ | ⟨⟨e, herror⟩, hsame⟩)
  · exact .inl ⟨WorkingCopy.mapError_eq_ok_iff.mpr hok, hstored⟩
  · dsimp only at herror
    rw [herror]
    exact .inr ⟨⟨_, rfl⟩, hsame⟩

theorem repository?_of_openFile {bytes : ByteArray} {repo : Repository}
    (hbytes : tree.openFile current project.workingCopy =
      .ok (Tree.placeOf current project.workingCopy, bytes))
    (hrepo : WorkingCopy.repositoryOf? bytes = some repo) :
    project.repository? current tree = some repo := by
  unfold repository? stored?
  rw [Tree.fileAt?_eq_some_iff.mpr (Tree.openFile_eq hbytes).2]
  exact hrepo

/-- What is loaded is the stored repository. -/
theorem load_ensures (project : Project) (tree : Tree) :
    Ensures ((project.load (Tree.fileSystem current now)).run.run tree) fun r =>
      r.2 = tree ∧ ∀ repo, r.1 = .ok repo → project.repository? current tree = some repo := by
  unfold load
  refine Ensures.except_bind (P := fun r => r.2 = tree ∧
    ∀ repo, r.1 = .ok (some repo) → project.repository? current tree = some repo) ?_ ?_ ?_
  · refine Ensures.except_mapError
      ((WorkingCopy.load_ensures tree current now project.workingCopy).mono ?_)
    rintro ⟨result, later⟩ ⟨hsame, hloaded⟩
    refine ⟨hsame, fun repo hrepo => ?_⟩
    rw [WorkingCopy.mapError_eq_ok_iff.mp hrepo] at hloaded
    cases hloaded with
    | found hbytes hrepo => exact repository?_of_openFile hbytes hrepo
  · rintro (_ | repo) later ⟨hsame, hrepo⟩
    · exact .pure ⟨hsame, nofun⟩
    · refine .pure ⟨hsame, ?_⟩
      rintro _ ⟨⟩
      exact hrepo repo rfl
  · exact fun failure later h => ⟨h.1, nofun⟩

/-- A change is stored only if it succeeds. -/
theorem change_replaces {change : Change (StateM Tree) α} {R : Repository → Repository → Prop}
    (h : ∀ repo, change.Ends tree repo fun _ final => R repo final) :
    Ensures ((project.change (Tree.fileSystem current now) change).run.run tree) fun r =>
      project.Replaces current tree R r.1 r.2 := by
  unfold Project.change
  refine Ensures.except_bind (project.load_ensures tree) ?_ ?_
  · rintro repo later ⟨hsame, hrepo⟩
    obtain rfl := hsame.symm
    refine Ensures.except_bind (h repo) ?_ ?_
    · rintro ⟨answer, final⟩ later ⟨hsame, hrelated⟩
      obtain rfl := hsame.symm
      refine Ensures.except_bind (project.save_ensures final tree) ?_ ?_
      · rintro ⟨⟩ later (⟨-, hstored⟩ | ⟨⟨_, herror⟩, -⟩)
        · exact .pure (.done (hrepo repo rfl) (hrelated answer final rfl) hstored)
        · cases herror
      · rintro failure later (⟨hok, -⟩ | ⟨-, hsame⟩)
        · cases hok
        · exact .failed hsame
    · rintro failure later ⟨rfl, -⟩
      exact .failed rfl
  · rintro failure later ⟨rfl, -⟩
    exact .failed rfl

/-- What may come of starting a project: it fails and what is stored stays, or there was nothing and the
empty repository is stored, or there is a repository and it stays. -/
inductive Starts (project : Project) (current : String) (tree : Tree) :
    Except Failure α → Tree → Prop
  | failed {failure : Failure} {later : Tree}
      (hsame : project.stored? current later = project.stored? current tree) :
      Starts project current tree (.error failure) later
  | started {answer : α} {later : Tree}
      (hmissing : tree.open? current project.workingCopy = .error .notFound)
      (hstored : project.stored? current later = some (∅ : Repository).document.text.toUTF8) :
      Starts project current tree (.ok answer) later
  | there {answer : α} {later : Tree} {repo : Repository}
      (hrepo : project.repository? current tree = some repo)
      (hsame : project.stored? current later = project.stored? current tree) :
      Starts project current tree (.ok answer) later

theorem initialize?_starts (project : Project) (tree : Tree) :
    Ensures ((project.initialize? (Tree.fileSystem current now)).run.run tree) fun r =>
      project.Starts current tree r.1 r.2 := by
  unfold initialize?
  refine Ensures.except_bind (P := fun r => r.2 = tree ∧
    ∀ found, r.1 = .ok found →
      WorkingCopy.Loaded tree current project.workingCopy (.ok found)) ?_ ?_ ?_
  · refine Ensures.except_mapError
      ((WorkingCopy.load_ensures tree current now project.workingCopy).mono ?_)
    rintro ⟨result, later⟩ ⟨hsame, hloaded⟩
    exact ⟨hsame, fun found hfound => WorkingCopy.mapError_eq_ok_iff.mp hfound ▸ hloaded⟩
  · rintro found later ⟨hsame, hloaded⟩
    obtain rfl := hsame.symm
    cases hloaded found rfl with
    | missing hmissing =>
      refine Ensures.except_bind (project.save_ensures ∅ tree) ?_ ?_
      · rintro ⟨⟩ later (⟨-, hstored⟩ | ⟨⟨_, herror⟩, -⟩)
        · exact .pure (.started hmissing hstored)
        · cases herror
      · rintro failure later (⟨hok, -⟩ | ⟨-, hsame⟩)
        · cases hok
        · exact .failed hsame
    | found hbytes hrepo => exact .pure (.there (repository?_of_openFile hbytes hrepo) rfl)
  · rintro failure later ⟨rfl, -⟩
    exact .failed rfl

theorem start_starts (project : Project) (tree : Tree) :
    Ensures ((project.start (Tree.fileSystem current now)).run.run tree) fun r =>
      project.Starts current tree r.1 r.2 := by
  unfold start
  refine Ensures.except_bind (project.initialize?_starts tree) ?_ ?_
  · rintro isNew later hstarts
    have hanswer : ∀ answer : String, project.Starts current tree (.ok answer) later := by
      intro answer
      cases hstarts with
      | started hmissing hstored => exact .started hmissing hstored
      | there hrepo hsame => exact .there hrepo hsame
    split
    · exact .pure (hanswer _)
    · exact .pure (hanswer _)
  · rintro failure later hstarts
    cases hstarts with
    | failed hsame => exact .failed hsame

/-- The operations of a search with a target: each selected result is added to it. -/
theorem search_replaces {world : World (StateM Tree)} {config : Config} {query name : String}
    {options : SearchOptions} (hfiles : world.files = Tree.fileSystem current now)
    (hclient : ∀ message, Spares (project.stored? current) (world.client.send message))
    (hapart : ∀ provider : Provider (StateM Tree), world.provider config.embedding = .ok provider →
      project.KeepsApart config.embedding provider.model query current now tree)
    (hname : options.addTo = some name) :
    Ensures ((project.search world config query options).run.run tree) fun r =>
      project.Replaces current tree (fun repo final => ∃ results,
        ((project.ranked world config query options.limit).run.run tree).1 = .ok results ∧
        Operation.Runs ((RankedFile.topRelated options.top results).map fun file =>
          .addPath name file.path) repo final) r.1 r.2 := by
  have hranked := (ranked_ensures hfiles hclient hapart rfl options.limit).of_id
  unfold search
  refine Ensures.except_bind (P := fun r =>
    r.1 = ((project.ranked world config query options.limit).run.run tree).1 ∧
      project.stored? current r.2 = project.stored? current tree) (.pure ⟨rfl, hranked⟩) ?_ ?_
  · rintro results searched ⟨hresults, hsame⟩
    rw [hname, hfiles]
    refine Ensures.except_bind (project.change_replaces fun repo =>
      Change.addResults_ends name (RankedFile.topRelated options.top results) repo) ?_ ?_
    · rintro added later hreplaced
      cases hreplaced with
      | done hrepo hruns hstored =>
        unfold repository? at hrepo
        rw [hsame] at hrepo
        exact .pure (.done hrepo ⟨results, hresults.symm, hruns⟩ hstored)
    · rintro failure later hreplaced
      cases hreplaced with
      | failed hstored => exact .failed (hstored.trans hsame)
  · rintro failure later ⟨-, hsame⟩
    exact .failed hsame

end Project

namespace Command

/-- Whether a command edits the stored repository. A search does if it has a target. -/
def edits : Command → Bool
  | .list | .display _ | .handOn .. | .tokens _ | .embed => false
  | .search _ options => options.addTo.isSome
  | .init | .create .. | .describe .. | .delete _ | .rename .. | .addFiles .. | .removeFile ..
  | .refs .. | .comment .. | .addUse .. | .removeUse .. | .prune => true

/-- The results that a command has from its search, if it is one. -/
def Finds (world : World (StateM Tree)) (config : Config) (project : Project) (tree : Tree)
    (results : List RankedFile) : Command → Prop
  | .search query options =>
    ((project.ranked world config query options.limit).run.run tree).1 = .ok results
  | _ => True

/-- What the operations that a command stands for lead to. -/
def Leads (world : World (StateM Tree)) (config : Config) (project : Project) (current : String)
    (tree : Tree) (command : Command) (repo final : Repository) : Prop :=
  ∃ results ops, command.Finds world config project tree results ∧
    command.operations? project tree current results repo = some ops ∧
    Operation.Runs ops repo final

variable {world : World (StateM Tree)} {config : Config} {project : Project} {tree : Tree}
  {current now : String}

/-- A command does what it stands for if its change does. -/
theorem leads_of_ends {α : Type} {change : Change (StateM Tree) α} (command : Command)
    (hfinds : command.Finds world config project tree [])
    (h : ∀ repo, change.Ends tree repo fun _ final =>
      ∃ ops, command.operations? project tree current [] repo = some ops ∧
        Operation.Runs ops repo final) :
    Ensures ((project.change (Tree.fileSystem current now) change).run.run tree) fun r =>
      project.Replaces current tree (command.Leads world config project current tree) r.1 r.2 := by
  refine Project.change_replaces fun repo => (h repo).imp fun final => ?_
  rintro ⟨ops, hops, hruns⟩
  exact ⟨[], ops, hfinds, hops, hruns⟩

/-- A command that runs one operation which removes nothing. -/
theorem leads_of_operation (command : Command) (op : Operation)
    (hremoves : ∀ answer, op.Removes answer) (text : op.Answer → String)
    (hfinds : command.Finds world config project tree [])
    (hops : ∀ repo, command.operations? project tree current [] repo = some [op]) :
    Ensures ((project.change (Tree.fileSystem current now)
      (do return text (← Change.ofEdit op.edit))).run.run tree) fun r =>
      project.Replaces current tree (command.Leads world config project current tree) r.1 r.2 :=
  leads_of_ends command hfinds fun repo =>
    (Change.ends_operation op hremoves text).imp fun _ hruns => ⟨[op], hops repo, hruns⟩

/-- Every editing command but the first one of a project does what it stands for. -/
theorem run_replaces (monitor : Batch.Monitor (StateM Tree)) (command : Command)
    (hfiles : world.files = Tree.fileSystem current now)
    (hclient : ∀ query options, command = .search query options → ∀ message,
      Spares (project.stored? current) (world.client.send message))
    (hedits : command.edits = true) (hinit : command ≠ .init)
    (hapart : ∀ query options, command = .search query options →
      ∀ provider : Provider (StateM Tree), world.provider config.embedding = .ok provider →
        project.KeepsApart config.embedding provider.model query current now tree) :
    Ensures ((command.run world monitor config project).run.run tree) fun r =>
      project.Replaces current tree (command.Leads world config project current tree) r.1 r.2 := by
  cases command with
  | init => exact absurd rfl hinit
  | create name description =>
    simp only [run, hfiles]
    exact leads_of_ends _ trivial fun repo =>
      (Change.create_ends name description).imp fun final hruns => ⟨_, rfl, hruns⟩
  | describe name description =>
    simp only [run, hfiles]
    exact leads_of_operation _ (.describe name description) (fun _ => trivial) _ trivial
      fun _ => rfl
  | delete name =>
    simp only [run, hfiles]
    exact leads_of_operation _ (.delete name) (fun _ => trivial) _ trivial fun _ => rfl
  | rename name newName =>
    simp only [run, hfiles]
    exact leads_of_operation _ (.rename name newName) (fun _ => trivial) _ trivial fun _ => rfl
  | addFiles name paths =>
    simp only [run, hfiles]
    refine leads_of_ends _ trivial fun repo =>
      (Change.addFiles_ends project name paths).imp fun final => ?_
    rintro ⟨found, hfound, hruns⟩
    exact ⟨_, congrArg (Option.map _) hfound, hruns⟩
  | removeFile name path =>
    simp only [run, hfiles]
    refine leads_of_ends _ trivial fun repo =>
      (Change.removeFile_ends name path).imp fun final => ?_
    rintro ⟨id, hid, hruns⟩
    exact ⟨_, congrArg (Option.map _) hid, hruns⟩
  | refs name path names note =>
    simp only [run, hfiles]
    refine leads_of_ends _ trivial fun repo =>
      (Change.refs_ends project name path names note).imp fun final => ?_
    rintro ⟨relative, text, hrelative, htext, hruns⟩
    refine ⟨_, ?_, hruns⟩
    simp only [operations?, hrelative, htext, Option.bind_eq_bind, Option.bind_some, Except.toOption]
  | comment path note =>
    simp only [run, hfiles]
    refine leads_of_ends _ trivial fun repo =>
      (Change.comment_ends path note).imp fun final => ?_
    rintro ⟨id, hid, hruns⟩
    exact ⟨_, congrArg (Option.map _) hid, hruns⟩
  | addUse source target =>
    simp only [run, hfiles]
    exact leads_of_operation _ (.addUse source target) (fun _ => trivial) _ trivial fun _ => rfl
  | removeUse source target =>
    simp only [run, hfiles]
    exact leads_of_ends _ trivial fun repo =>
      (Change.removeUse_ends source target).imp fun final hruns => ⟨_, rfl, hruns⟩
  | prune =>
    simp only [run, hfiles]
    exact leads_of_operation _ .prune (fun _ => trivial) _ trivial fun _ => rfl
  | search query options =>
    obtain ⟨name, hname⟩ := Option.isSome_iff_exists.mp hedits
    simp only [run]
    refine (Project.search_replaces hfiles (hclient query options rfl)
      (hapart query options rfl) hname).mono ?_
    rintro ⟨result, later⟩ hreplaced
    refine hreplaced.imp fun repo final => ?_
    rintro ⟨results, hresults, hruns⟩
    exact ⟨results, _, hresults, congrArg (Option.map _) hname, hruns⟩
  | list | display name | handOn name format output | tokens name | embed => cases hedits

end Command

/-- Editing commands are all or nothing. If one fails, the stored text is as it was. If one succeeds,
all operations that it stands for have succeeded on the stored repository, and the text of the
repository to which they lead is stored. Starting a project stores the empty repository, or leaves the
stored one as it is. Of a search it is asked that no file for vectors is the working copy, and that
asking the provider leaves the working copy alone. -/
theorem editing_is_all_or_nothing (tree : Tree) (current now : String) (world : World (StateM Tree))
    (monitor : Batch.Monitor (StateM Tree)) (config : Config) (project : Project)
    (command : Command) (hfiles : world.files = Tree.fileSystem current now)
    (hclient : ∀ query options, command = .search query options → ∀ message,
      Spares (project.stored? current) (world.client.send message))
    (hedits : command.edits = true)
    (hapart : ∀ query options, command = .search query options →
      ∀ provider : Provider (StateM Tree), world.provider config.embedding = .ok provider →
        project.KeepsApart config.embedding provider.model query current now tree) :
    let r := ((command.run world monitor config project).run.run tree).run
    (command = .init → project.Starts current tree r.1 r.2) ∧
    (command ≠ .init →
      project.Replaces current tree (command.Leads world config project current tree) r.1 r.2) := by
  refine ⟨?_, fun hinit =>
    (Command.run_replaces monitor command hfiles hclient hedits hinit hapart).of_id⟩
  rintro rfl
  simp only [Command.run, hfiles]
  exact (project.start_starts tree).of_id

/-! ### Examples -/

/-- A project with a source and a set, and with some files more. -/
def searchedTree (more : List (String × TreeItem)) : Tree :=
  ⟨.ofList ([("/p", .directory), ("/p/a.rs", .file "do it".toUTF8),
    ("/p/context-sets.json", .file
      "\x7b\"sets\":\x7b\"context:s\":\x7b\x7d\x7d,\"filesIndex\":\x7b\x7d\x7d".toUTF8)] ++ more)⟩

/-- The project in the tree. -/
def searchedProject : Project := ⟨"/p", {}⟩

/-- An instant at which the project is searched. -/
def searchTime : String := "2024-01-01T00:00:00Z"

/-- A world without a remote provider. -/
def searchedWorld : World (StateM Tree) := ⟨Tree.fileSystem "" searchTime, "", none, none⟩

/-- Settings by which vectors have one component. -/
def searchedConfig : Config := { embedding := { dimension := 1 } }

/-- A monitor that shows nothing. -/
def unobserved : Batch.Monitor (StateM Tree) := ⟨return false, fun _ => return ()⟩

/-- A search whose results are added to the set. -/
def searchInto : Command := .search "do it" { addTo := some "s" }

theorem searchedProject_keepsApart : searchedProject.KeepsApart searchedConfig.embedding
    (Features.modelName 1) "do it" "" searchTime (searchedTree []) := by
  refine Project.keepsApart_of_elsewhere (by decide +kernel) fun name entry hname hentry => ?_
  obtain ⟨bytes, hbytes, -⟩ := hentry
  rw [Project.kept_eq_none hname.1 (by decide +kernel)] at hbytes
  cases hbytes

theorem editing_is_all_or_nothing_search :
    let r := ((searchInto.run searchedWorld unobserved searchedConfig searchedProject).run.run
      (searchedTree [])).run
    r.1.isOk = true ∧ ∃ repo final,
      searchedProject.repository? "" (searchedTree []) = some repo ∧
      searchInto.Leads searchedWorld searchedConfig searchedProject "" (searchedTree []) repo final ∧
      searchedProject.stored? "" r.2 = some final.document.text.toUTF8 := by
  have hok : ((searchInto.run searchedWorld unobserved searchedConfig searchedProject).run.run
      (searchedTree [])).run.1.isOk = true := by decide +kernel
  have hreplaces := (editing_is_all_or_nothing (searchedTree []) "" searchTime searchedWorld
    unobserved searchedConfig searchedProject searchInto rfl (fun _ _ _ _ => spares_pure _) rfl (by
      rintro _ _ ⟨⟩ _ ⟨⟩
      exact searchedProject_keepsApart)).2 nofun
  refine ⟨hok, ?_⟩
  generalize ((searchInto.run searchedWorld unobserved searchedConfig searchedProject).run.run
    (searchedTree [])).run = r at hok hreplaces ⊢
  obtain ⟨result, later⟩ := r
  cases hreplaces with
  | failed _ => cases hok
  | done hrepo hleads hstored => exact ⟨_, _, hrepo, hleads, hstored⟩

/-- A kept entry whose file would be the working copy. -/
def strayEntry : CacheEntry Embedding := ⟨⟨"../../context", "sets"⟩, [], searchTime⟩

/-- The text of the entry. -/
def strayText : String :=
  "\x7b\"fingerprint\":\"../../context\",\"model\":\"sets\",\"embedding\":[]," ++
    "\"created_at\":\"2024-01-01T00:00:00Z\"\x7d"

/-- The project with the entry in its directory for vectors. -/
def strayTree : Tree := searchedTree [("/p/.contextual", .directory),
  ("/p/.contextual/embeddings", .directory),
  ("/p/.contextual/embeddings/e.json", .file strayText.toUTF8)]

/-- The tree when the cache has been opened. -/
def openedTree : Tree :=
  (strayTree.makeDirectories "" (searchedProject.cacheDirectory searchedConfig.embedding)).1

/-- The shelf of the project. -/
def searchedShelf : Shelf (StateM Tree) Embedding :=
  searchedProject.shelf searchedWorld.files searchedConfig.embedding

theorem entryAt?_stray :
    searchedProject.entryAt? searchedConfig.embedding "" openedTree "e.json" = some strayEntry := by
  have hjoin : Path.join (searchedProject.cacheDirectory searchedConfig.embedding) "e.json" =
      "/p/.contextual/embeddings/e.json" := by decide +kernel
  have hopen : openedTree.openFile "" "/p/.contextual/embeddings/e.json" =
      .ok ("/p/.contextual/embeddings/e.json", strayText.toUTF8) := by decide +kernel
  unfold Project.entryAt?
  rw [if_pos (by decide +kernel), hjoin, hopen]
  -- the kernel alone does not read numbers
  show EntryFormat.json.decode? strayText.toUTF8 = some strayEntry
  cbv

theorem run_reopen_stray : (Cache.reopen searchedShelf).run strayTree =
    pure (.ok (Cache.ofEntries [strayEntry]), openedTree) := by
  have hmade : strayTree.makeDirectories ""
      (searchedProject.cacheDirectory searchedConfig.embedding) = (openedTree, .ok ()) :=
    Prod.ext rfl (by decide +kernel)
  have hnames : openedTree.list "" (searchedProject.cacheDirectory searchedConfig.embedding) =
      .ok ["e.json"] := by decide +kernel
  have hrun := searchedProject.run_reopen searchedConfig.embedding "" searchTime strayTree
  rw [hmade] at hrun
  simp only [hnames, List.filterMap_cons, entryAt?_stray, List.filterMap_nil] at hrun
  exact hrun

theorem run_openIndex_stray :
    (searchedProject.openIndex searchedWorld searchedConfig.embedding).run.run strayTree =
      pure (.ok (⟨Features.provider 1, some searchedShelf⟩,
        .ofCache (Cache.ofEntries [strayEntry])), openedTree) := by
  have hprovider : (Task.ofExcept id (searchedWorld.provider searchedConfig.embedding) :
      Task (StateM Tree) (Provider (StateM Tree))).run.run strayTree =
      pure (.ok (Features.provider 1), strayTree) := rfl
  have hcache : (Task.ofAction
      (.unusableCache (searchedProject.cacheDirectory searchedConfig.embedding))
      (Cache.reopen searchedShelf)).run.run strayTree =
      pure (.ok (Cache.ofEntries [strayEntry]), openedTree) := by
    unfold Task.ofAction
    rw [ExceptT.run_mk, StateT.run_bind, run_reopen_stray]
    rfl
  exact (run_bind_of_ok hprovider).trans (run_bind_of_ok hcache)

/-- A kept entry is trusted: if its fingerprint goes up from the directory for vectors, a search that
releases it removes the working copy, and then fails as there is none. -/
theorem search_may_lose_the_text :
    let r := ((searchInto.run searchedWorld unobserved searchedConfig searchedProject).run.run
      strayTree).run
    r.1.isOk = false ∧ searchedProject.stored? "" strayTree ≠ none ∧
      searchedProject.stored? "" r.2 = none := by
  obtain ⟨sources, hrun, -⟩ :=
    searchedProject.mem_sources strayTree "" searchTime searchedConfig.embedding
  have hsources : (ExceptT.lift (searchedProject.sources searchedWorld.files
      searchedConfig.embedding) : Task (StateM Tree) (List SourceFile)).run.run strayTree =
      pure (.ok sources, strayTree) := Task.run_lift_of_eq hrun
  obtain rfl : ((searchedProject.sources searchedWorld.files searchedConfig.embedding).run
    strayTree).1 = sources := congrArg Prod.fst hrun
  unfold searchInto Command.run Project.search Project.ranked
  simp only [bind_assoc]
  rw [run_bind_of_ok hsources, run_bind_of_ok run_openIndex_stray]
  decide +kernel

end ContextSets
