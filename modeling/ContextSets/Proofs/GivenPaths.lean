import ContextSets.Proofs.FileLists
import ContextSets.Proofs.RecordedFiles
import ContextSets.Proofs.StoredAgain

/-!
# Paths given again

A file is added by a path that the file system follows, but taken out of a set, or given a note, by a
path that is looked up as it is spelled. Both find the same file exactly if the normal spellings agree:
for ordinary names, if the path is the relative one, or that with "./" in front of it.
-/

namespace ContextSets

namespace Path

open Manifest

variable {names : List String} {text : List Char}

theorem eq_dot_of_no_part (h : partOf? text = none) {c : Char} (hc : c ∈ text) : c = '.' := by
  unfold partOf? at h
  split at h
  · cases hc
  · exact List.mem_singleton.mp hc
  · cases h
  · cases h

/-- Whether a path is verbatim is told from the texts between its slashes. -/
theorem verbatim_iff_texts (path : String) : Verbatim path ↔
    (∀ part ∈ Text.splitBy (· == '/') path.toList, ∀ c ∈ part, c ≠ '\\') ∧
    (∀ part ∈ (Text.splitBy (· == '/') path.toList).head?, ∀ c ∈ part.head?, Text.isBlank c = false) ∧
    (∀ part ∈ (Text.splitBy (· == '/') path.toList).getLast?,
      ∀ c ∈ part.getLast?, Text.isBlank c = false) := by
  have hslash : ∀ c, (c == '/') = true → c ≠ '\\' ∧ Text.isBlank c = false := by
    intro c hc
    rw [eq_of_beq hc]
    decide
  rw [verbatim_iff, startsBlank_eq_false_iff,
    Text.forall_head?_splitBy fun c hc => (hslash c hc).2,
    Text.forall_getLast?_splitBy fun c hc => (hslash c hc).2,
    ← Text.forall_mem_splitBy fun c hc => (hslash c hc).1]
  refine and_congr_left' ⟨fun h c hc heq => h (heq ▸ hc), fun h hc => h _ hc rfl⟩

/-- A path with some names between its slashes is verbatim if the names alone make up a verbatim
path. -/
theorem verbatim_of_between {path : String} (hplain : ∀ name ∈ names, IsPlain name)
    (h : partsBetween path.toList = names.map .name) (hverbatim : Verbatim (ofNames names)) :
    Verbatim path := by
  rw [verbatim_iff_texts] at hverbatim ⊢
  rw [Text.splitBy_eq_splitOnP] at hverbatim ⊢
  unfold partsBetween at h
  generalize path.toList.splitOnP (· == '/') = texts at h ⊢
  -- the texts of the names stand between the slashes of the path that they make up
  have htexts : names ≠ [] → (ofNames names).toList.splitOnP (· == '/') = names.map String.toList :=
    splitOnP_ofNames hplain
  have hnamed : ∀ {part : List Char} {found : PathPart}, partOf? part = some found → part ∈ texts →
      ∃ name ∈ names, name.toList = part ∧ found = .name name := by
    intro part found hpart hmem
    have hfound : found ∈ names.map .name := h ▸ List.mem_filterMap.mpr ⟨part, hmem, hpart⟩
    obtain ⟨name, hname, rfl⟩ := List.mem_map.mp hfound
    exact ⟨name, hname, (partOf?_eq_some_name hpart).1, rfl⟩
  refine ⟨fun part hmem => ?_, fun part hhead => ?_, fun part hlast => ?_⟩
  · cases hpart : partOf? part with
    | none =>
      intro c hc
      rw [eq_dot_of_no_part hpart hc]
      decide
    | some found =>
      obtain ⟨name, hname, rfl, -⟩ := hnamed hpart hmem
      refine hverbatim.1 _ ?_
      rw [htexts (List.ne_nil_of_mem hname)]
      exact List.mem_map_of_mem hname
  · cases hpart : partOf? part with
    | none =>
      intro c hc
      rw [eq_dot_of_no_part hpart (List.mem_of_mem_head? hc)]
      decide
    | some found =>
      obtain ⟨rest, rfl⟩ : ∃ rest, texts = part :: rest := ⟨_, List.eq_cons_of_mem_head? hhead⟩
      obtain ⟨name, hname, rfl, rfl⟩ := hnamed hpart List.mem_cons_self
      refine hverbatim.2.1 _ ?_
      rw [htexts (List.ne_nil_of_mem hname)]
      rw [List.filterMap_cons_some hpart] at h
      cases names with
      | nil => cases h
      | cons first others =>
        cases (List.cons.inj h).1
        rfl
  · cases hpart : partOf? part with
    | none =>
      intro c hc
      rw [eq_dot_of_no_part hpart (List.mem_of_getLast? hc)]
      decide
    | some found =>
      obtain ⟨name, hname, rfl, rfl⟩ := hnamed hpart (List.mem_of_getLast? hlast)
      refine hverbatim.2.2 _ ?_
      rw [htexts (List.ne_nil_of_mem hname), List.getLast?_map]
      rw [← List.dropLast_append_getLast? _ hlast, List.filterMap_append,
        List.filterMap_cons_some hpart, List.filterMap_nil] at h
      have hend := congrArg List.getLast? h
      rw [List.getLast?_concat, List.getLast?_map] at hend
      obtain ⟨last, hlast, heq⟩ := Option.map_eq_some_iff.mp hend.symm
      cases heq
      rw [hlast]
      rfl

/-- Dots in front of a path are no parts of it. -/
theorem partsBetween_dotted (count : Nat) (path : String) :
    partsBetween (dotted count path).toList = partsBetween path.toList := by
  induction count with
  | zero => rfl
  | succ count ih =>
    rw [toList_dotted_succ, show '.' :: '/' :: (dotted count path).toList =
      ['.'] ++ '/' :: (dotted count path).toList from rfl, partsBetween_append, ih]
    rfl

theorem isAbsolute_dotted {count : Nat} {path : String} (h : isAbsolute path = false) :
    isAbsolute (dotted count path) = false := by
  cases count with
  | zero => exact h
  | succ count =>
    unfold isAbsolute
    rw [toList_dotted_succ]
    rfl

end Path

namespace Project

open ContextSets.Path ContextSets.Manifest

variable {project : Project} {path relative : String}

/-- A path whose relative path is verbatim is normalized to it exactly if it is spelled like it but for
"./" in front. -/
theorem normalize_eq_iff_dotted (h : project.relativeTo path (project.place path) = .ok relative)
    (hverbatim : Verbatim relative) :
    normalize (normalize path) = normalize relative ↔ ∃ count, path = dotted count relative := by
  obtain ⟨rest, names, hparts, hnames, rfl⟩ := relativeTo_eq_ok_iff.mp h
  have hplain := isPlain_of_behind hparts hnames
  have hdots := dropDots_ofNames hplain
  have hrelative : isAbsolute (ofNames names) = false := isAbsolute_eq_false (leadOf_ofNames hplain)
  rw [(normalize_eq_self_iff hdots).mpr hverbatim]
  cases habsolute : isAbsolute path with
  | true =>
    -- the slash in front stays
    refine iff_of_false (fun heq => ?_) ?_
    · have hhead := head?_normalize (head?_normalize (eq_of_beq habsolute))
      rw [heq] at hhead
      rw [isAbsolute, hhead] at hrelative
      cases hrelative
    · rintro ⟨count, rfl⟩
      rw [isAbsolute_dotted hrelative] at habsolute
      cases habsolute
  | false =>
    have hmoves := List.append_cancel_left
      ((moves_join project.root habsolute).symm.trans (moves_of_behind hparts hnames))
    have hbetween : partsBetween path.toList = names.map .name := by
      rwa [moves_eq, habsolute, if_neg Bool.false_ne_true, List.nil_append] at hmoves
    obtain ⟨count, hcount⟩ := exists_dotted path
    have hpath := verbatim_of_between hplain hbetween hverbatim
    rw [hcount, partsBetween_dotted] at hbetween
    have hleft := verbatim_of_between hplain hbetween hverbatim
    rw [hpath.normalize_eq, hleft.normalize_eq, String.toList_ofList, dropDots_dropDots,
      ← String.toList_inj, String.toList_ofList]
    exact dropDots_eq_iff hdots

end Project

namespace Repository

variable {repo after : Repository} {name id path : String} {entry : FileEntry}

/-- Whether a set lists a file, if there is the set. -/
def lists? (repo : Repository) (name id : String) : Option Bool :=
  (repo.get? name).map (·.hasFile id)

theorem lists?_addPath {added : Bool} (h : (addPath name path).run repo = .ok (id, added) after) :
    after.lists? name id = some true := by
  obtain ⟨-, -, hadd⟩ := addPath_ok.mp h
  obtain ⟨-, set, hset, -, rfl⟩ := addFile_ok.mp hadd
  unfold lists?
  split
  · rename_i hfile
    rw [hset, Option.map_some, hfile]
  · rw [get?_withSet_self, Option.map_some, Option.some_inj, hasFile_iff]
    simp [FileReference.id]

theorem manifest_addPath {added : Bool} (h : (addPath name path).run repo = .ok (id, added) after) :
    after.manifest = (repo.manifest.resolve path).2 := by
  obtain ⟨-, -, hadd⟩ := addPath_ok.mp h
  exact manifest_addFile hadd

theorem idOf?_addPath {added : Bool} (h : (addPath name path).run repo = .ok (id, added) after) :
    after.manifest.idOf? path = some id := by
  obtain ⟨-, rfl, -⟩ := addPath_ok.mp h
  rw [manifest_addPath h]
  exact Manifest.idOf?_resolve repo.manifest path

/-- A listed file can be removed, and then it is not listed. -/
theorem removeFile_of_lists? (h : repo.lists? name id = some true) :
    ∃ after, (removeFile name id).run repo = .ok true after ∧
      after.lists? name id = some false := by
  obtain ⟨set, hset, hfile⟩ := Option.map_eq_some_iff.mp h
  obtain ⟨reference, hmem, hid⟩ := List.mem_map.mp (hasFile_iff.mp hfile)
  refine ⟨_, removeFile_ok.mpr ⟨set, hset, ?_, rfl⟩, ?_⟩
  · refine (bne_iff_ne.mpr fun hlength => ?_).symm
    have hkept := List.length_filter_eq_length_iff.mp hlength reference hmem
    rw [hid, bne_self_eq_false] at hkept
    cases hkept
  · unfold lists?
    rw [get?_withSet_self, Option.map_some, Option.some_inj, Bool.eq_false_iff, Ne, hasFile_iff]
    simp

theorem setFileComment_of_get? (h : repo.manifest.get? id = some entry) (comment : Option String) :
    ∃ after, (setFileComment id comment).run repo = .ok () after ∧
      after.manifest.get? id = some { entry with comment := comment.bind Text.nonBlank? } := by
  refine ⟨_, setFileComment_ok.mpr ⟨_, Manifest.setComment_eq_ok.mpr ⟨entry, h, rfl⟩, rfl⟩, ?_⟩
  rw [withManifest_manifest, Manifest.get?, Table.get?_insert, if_pos rfl]

end Repository

namespace Change

variable {α β : Type} {tree : Tree} {repo mid after : Repository} {a : α} {name path id : String}

/-- A change goes on where its first part has ended well. -/
theorem run_bind_of_run {change : Change (StateM Tree) α} {next : α → Change (StateM Tree) β}
    (h : (change.run repo).run.run tree = pure (.ok (a, mid), tree)) :
    ((change >>= next).run repo).run.run tree = ((next a).run mid).run.run tree := by
  rw [StateT.run_bind]
  exact run_bind_of_ok h

theorem ofEdit_run {edit : Edit α} (h : edit.run repo = .ok a after) :
    ((ofEdit edit : Change (StateM Tree) α).run repo).run.run tree =
      pure (.ok (a, after), tree) := by
  show ((ofEdit edit repo : Task (StateM Tree) _).run.run tree) = _
  unfold ofEdit
  rw [h]
  rfl

theorem knownFile_run (h : repo.manifest.idOf? (Manifest.normalize path) = some id) :
    ((knownFile path : Change (StateM Tree) String).run repo).run.run tree =
      pure (.ok (id, repo), tree) := by
  unfold knownFile
  rw [StateT.run_bind, StateT.run_get, pure_bind, h]
  rfl

theorem knownFile_run_of_none (h : repo.manifest.idOf? (Manifest.normalize path) = none) :
    ((knownFile path : Change (StateM Tree) String).run repo).run.run tree =
      pure (.error (.unknownFile (Manifest.normalize path)), tree) := by
  unfold knownFile
  rw [StateT.run_bind, StateT.run_get, pure_bind, h]
  rfl

/-- A change that starts with looking up an unknown path fails. -/
theorem run_bind_of_unknown {next : String → Change (StateM Tree) β}
    (h : repo.manifest.idOf? (Manifest.normalize path) = none) :
    ((knownFile path >>= next).run repo).run.run tree =
      pure (.error (.unknownFile (Manifest.normalize path)), tree) := by
  rw [StateT.run_bind, ExceptT.run_bind, StateT.run_bind, knownFile_run_of_none h, pure_bind]
  rfl

theorem removeFile_run (hid : repo.manifest.idOf? (Manifest.normalize path) = some id)
    (hlists : repo.lists? name id = some true) (tree : Tree) :
    ∃ final, (Repository.removeFile name id).run repo = .ok true final ∧
      final.lists? name id = some false ∧
      ((removeFile name path : Change (StateM Tree) String).run repo).run.run tree =
        pure (.ok ("Removed " ++ path ++ " from " ++ name, final), tree) := by
  obtain ⟨final, hremove, hnot⟩ := Repository.removeFile_of_lists? hlists
  refine ⟨final, hremove, hnot, ?_⟩
  unfold removeFile
  rw [run_bind_of_run (knownFile_run hid), run_bind_of_run (ofEdit_run hremove), if_pos rfl]
  rfl

theorem comment_run {entry : FileEntry}
    (hid : repo.manifest.idOf? (Manifest.normalize path) = some id)
    (hentry : repo.manifest.get? id = some entry) (note : Option String) (tree : Tree) :
    ∃ final, (Repository.setFileComment id note).run repo = .ok () final ∧
      final.manifest.get? id = some { entry with comment := note.bind Text.nonBlank? } ∧
      ((comment path note : Change (StateM Tree) String).run repo).run.run tree =
        pure (.ok ("Updated comment of " ++ path, final), tree) := by
  obtain ⟨final, hset, hnote⟩ := Repository.setFileComment_of_get? hentry note
  refine ⟨final, hset, hnote, ?_⟩
  unfold comment
  rw [run_bind_of_run (knownFile_run hid), run_bind_of_run (ofEdit_run hset)]
  rfl

end Change

namespace Project

open ContextSets.Manifest

/-- A command has succeeded and left a repository with a property. -/
def Leaves (project : Project) (current : String) (result : Except Failure String × Tree)
    (P : Repository → Prop) : Prop :=
  result.1.isOk = true ∧ ∃ repo, project.repository? current result.2 = some repo ∧ P repo

/-- What the path by which a file has been added to a set is good for afterwards. The file is found by
it exactly if the normal spellings agree; if the relative path is verbatim, that is if the path is the
relative one with some "./" in front. Then the file is taken out of the set by the path, and any note is
put on it. If nothing is found by the path, both are refused. -/
structure Retraces (project : Project) (current : String)
    (run : Command → Tree → Except Failure String × Tree) (later : Tree) (stored : Repository)
    (name path relative id : String) : Prop where
  listed : stored.lists? name id = some true
  registered : stored.manifest.idOf? relative = some id
  found_iff : stored.manifest.idOf? (normalize path) = some id ↔
    normalize (normalize path) = normalize relative
  found_iff_dotted : Verbatim relative →
    (stored.manifest.idOf? (normalize path) = some id ↔ ∃ count, path = dotted count relative)
  removed : stored.manifest.idOf? (normalize path) = some id →
    project.Leaves current (run (.removeFile name path) later) fun after =>
      after.lists? name id = some false
  noted : stored.manifest.idOf? (normalize path) = some id → ∀ note,
    project.Leaves current (run (.comment path note) later) fun after =>
      after.manifest.get? id = some ⟨normalize relative, note.bind Text.nonBlank?⟩
  refused : stored.manifest.idOf? (normalize path) = none →
    run (.removeFile name path) later = (.error (.unknownFile (normalize path)), later) ∧
      ∀ note, run (.comment path note) later = (.error (.unknownFile (normalize path)), later)

variable {project : Project} {tree later : Tree} {current now : String} {world : World (StateM Tree)}

/-- Where a repository has been stored, a command that stands for a change leaves what the change
leads to. -/
theorem leaves_of_run {change : Change (StateM Tree) String} {repo final : Repository}
    {answer : String} {P : Repository → Prop}
    (hready : WorkingCopy.Ready tree current project.workingCopy)
    (hrepo : project.repository? current tree = some repo)
    (hchange : (change.run repo).run.run tree = pure (.ok (answer, final), tree))
    (hfinal : final.Lasting) (h : P final) :
    project.Leaves current
      ((project.change (Tree.fileSystem current now) change).run.run tree).run P := by
  obtain ⟨later, hrun, hstored⟩ := change_run hready hrepo hchange hfinal now
  rw [hrun]
  exact ⟨rfl, final, hstored, h⟩

theorem retraces {monitor : Batch.Monitor (StateM Tree)} {config : Config}
    {repo stored : Repository} {name path relative id : String} {added : Bool}
    (hfiles : world.files = Tree.fileSystem current now)
    (hready : WorkingCopy.Ready later current project.workingCopy)
    (hstored : project.repository? current later = some stored) (hlasting : stored.Lasting)
    (hrelative : project.relativeTo path (project.place path) = .ok relative)
    (hadded : (Repository.addPath name relative).run repo = .ok (id, added) stored) :
    project.Retraces current
      (fun command tree => ((command.run world monitor config project).run.run tree).run)
      later stored name path relative id := by
  have hid := Repository.idOf?_addPath hadded
  have hlisted := Repository.lists?_addPath hadded
  have hfound : stored.manifest.idOf? (normalize path) = some id ↔
      normalize (normalize path) = normalize relative :=
    hlasting.inverse.idOf?_eq_some_iff hid
  have hremove : (Command.removeFile name path).run world monitor config project =
      project.change (Tree.fileSystem current now) (Change.removeFile name path) := by
    rw [Command.run, hfiles]
  have hcomment : ∀ note, (Command.comment path note).run world monitor config project =
      project.change (Tree.fileSystem current now) (Change.comment path note) := by
    intro note
    rw [Command.run, hfiles]
  refine ⟨hlisted, hid, hfound,
    fun hverbatim => hfound.trans (normalize_eq_iff_dotted hrelative hverbatim),
    fun hpath => ?_, fun hpath note => ?_, fun hpath => ⟨?_, fun note => ?_⟩⟩
  · obtain ⟨final, hrun, hnot, hchange⟩ := Change.removeFile_run hpath hlisted later
    rw [hremove]
    exact leaves_of_run hready hstored hchange
      (hlasting.after_of_ok (.removeFile name id) rfl hrun) hnot
  · obtain ⟨entry, hentry, hnormal⟩ := (hlasting.inverse _ _).mp hid
    obtain ⟨final, hrun, hnote, hchange⟩ := Change.comment_run hpath hentry note later
    rw [hcomment]
    rw [hnormal] at hnote
    exact leaves_of_run hready hstored hchange
      (hlasting.after_of_ok (.setFileComment id note) rfl hrun) hnote
  · rw [hremove]
    exact change_run_of_error hready hstored (Change.run_bind_of_unknown hpath)
  · rw [hcomment]
    exact change_run_of_error hready hstored (Change.run_bind_of_unknown hpath)

/-- What a successful command that adds a file has stored, and that the next change can be stored. -/
theorem stored_of_added {monitor : Batch.Monitor (StateM Tree)} {config : Config}
    {name path answer : String} (hfiles : world.files = Tree.fileSystem current now)
    (hnormalized : ∀ repo, project.repository? current tree = some repo → repo.manifest.Normalized)
    (hpath : ∀ repo relative, project.repository? current tree = some repo →
      ((project.relativePath (Tree.fileSystem current now) path).run.run tree).1 = .ok relative →
        repo.manifest.HasRoomFor [relative] ∧ startsBlank (normalize relative) = false)
    (hadd : (((Command.addFiles name [path]).run world monitor config project).run.run tree).run =
      (.ok answer, later)) :
    ∃ repo stored relative id added, project.repository? current tree = some repo ∧
      ((project.relativePath (Tree.fileSystem current now) path).run.run tree).1 = .ok relative ∧
      (Repository.addPath name relative).run repo = .ok (id, added) stored ∧ stored.Lasting ∧
      project.repository? current later = some stored ∧
      WorkingCopy.Ready later current project.workingCopy := by
  have hreplaces : project.Replaces current tree
      ((Command.addFiles name [path]).Leads world config project current tree)
      (((Command.addFiles name [path]).run world monitor config project).run.run tree).run.1
      (((Command.addFiles name [path]).run world monitor config project).run.run tree).run.2 :=
    (Command.run_replaces monitor (.addFiles name [path]) hfiles nofun rfl nofun nofun).of_id
  have hready := (project.change_ready
    (Change.addFiles project (Tree.fileSystem current now) name [path]) current now tree).of_id
  have hcommand : (Command.addFiles name [path]).run world monitor config project =
      project.change (Tree.fileSystem current now)
        (Change.addFiles project (Tree.fileSystem current now) name [path]) := by
    rw [Command.run, hfiles]
  rw [hadd] at hreplaces
  rw [← hcommand, hadd] at hready
  cases hreplaces with
  | @done _ _ repo stored hrepo hleads hstored =>
    obtain ⟨results, ops, -, hops, hruns⟩ := hleads
    obtain ⟨found, hfound, rfl⟩ := Option.map_eq_some_iff.mp hops
    rw [List.mapM_cons, List.mapM_nil] at hfound
    obtain ⟨relative, hrelative, hfound⟩ := Option.bind_eq_some_iff.mp hfound
    cases hfound
    rw [relativeIn?_eq_some_iff] at hrelative
    cases hruns with
    | @cons _ _ _ _ _ pair hadded _ hrest =>
      cases hrest
      obtain ⟨id, added⟩ := pair
      obtain ⟨hroom, hstart⟩ := hpath repo relative hrepo hrelative
      have hlasting : stored.Lasting := by
        have hafter : (Operation.addPath name relative).after repo = stored :=
          Operation.after_of_ok hadded
        rw [← hafter]
        refine (lasting_of_repository? hrepo (hnormalized repo hrepo)).step _ ?_ ?_
        · exact List.forall_mem_singleton.mpr hroom.1
        · exact List.forall_mem_singleton.mpr hstart
      exact ⟨repo, stored, relative, id, added, hrepo, hrelative, hadded, hlasting,
        repository?_of_stored hstored hlasting, hready answer rfl⟩

end Project

/-- After a file has been added by a path, the commands that look a file up find it by the same path
exactly if the normal spelling of the path, normalized again, is that of the relative path. That the
path leads to the file is not enough. Of the project it is asked that no stored path starts with a
blank, and that the new one does not, and finds a free id. -/
theorem added_file_found_by_spelling (tree : Tree) (current now : String)
    (world : World (StateM Tree)) (monitor : Batch.Monitor (StateM Tree)) (config : Config)
    (project : Project) (name path : String) (hfiles : world.files = Tree.fileSystem current now)
    (hnormalized : ∀ repo, project.repository? current tree = some repo → repo.manifest.Normalized)
    (hpath : ∀ repo relative, project.repository? current tree = some repo →
      ((project.relativePath (Tree.fileSystem current now) path).run.run tree).1 = .ok relative →
        repo.manifest.HasRoomFor [relative] ∧
          Manifest.startsBlank (Manifest.normalize relative) = false) :
    let run (command : Command) (tree : Tree) :=
      ((command.run world monitor config project).run.run tree).run
    ∀ answer later, run (.addFiles name [path]) tree = (.ok answer, later) →
      ∃ relative id stored,
        ((project.relativePath (Tree.fileSystem current now) path).run.run tree).1 = .ok relative ∧
        project.repository? current later = some stored ∧
        project.Retraces current run later stored name path relative id := by
  intro run answer later hadd
  obtain ⟨repo, stored, relative, id, added, -, hrelative, hadded, hlasting, hstored, hready⟩ :=
    Project.stored_of_added hfiles hnormalized hpath hadd
  have hbelow := (Project.relativePath_tree_eq_ok_iff.mp hrelative).2
  exact ⟨relative, id, stored, hrelative, hstored,
    Project.retraces hfiles hready hstored hlasting hbelow hadded⟩

/-- A project with a source in a directory. -/
def spelledTree : Tree :=
  searchedTree [("/p/src", .directory), ("/p/src/a.rs", .file "".toUTF8)]

/-- Paths that lead to the source but are not spelled like its relative path: with two slashes, with a
dot inside, and from the root of the file system on. -/
def otherSpellings : List String := ["src//a.rs", "src/./a.rs", "/p/src/a.rs"]

/-- What a command does in the project. -/
def runSpelled (command : Command) (tree : Tree) : Except Failure String × Tree :=
  ((command.run searchedWorld unobserved {} searchedProject).run.run tree).run

theorem adds_spelled {path : String} (h : path ∈ "./src/a.rs" :: otherSpellings) :
    ∃ answer later, runSpelled (.addFiles "s" [path]) spelledTree = (.ok answer, later) := by
  have hall : ∀ path ∈ "./src/a.rs" :: otherSpellings,
      (runSpelled (.addFiles "s" [path]) spelledTree).1.isOk = true := by decide +kernel
  have hok := hall path h
  cases hrun : runSpelled (.addFiles "s" [path]) spelledTree with
  | mk result later =>
    rw [hrun] at hok
    cases result with
    | error failure => cases hok
    | ok answer => exact ⟨answer, later, rfl⟩

theorem repository?_spelledTree :
    searchedProject.repository? "" spelledTree = some bareRepository := by decide +kernel

theorem normalized_spelledTree (repo : Repository)
    (h : searchedProject.repository? "" spelledTree = some repo) : repo.manifest.Normalized := by
  rw [repository?_spelledTree] at h
  cases h
  exact fun _ _ hentry => nomatch hentry

theorem relative_of_spelled {path relative : String} (h : path ∈ "./src/a.rs" :: otherSpellings)
    (hrelative : ((searchedProject.relativePath (Tree.fileSystem "" searchTime) path).run.run
      spelledTree).1 = .ok relative) : relative = "src/a.rs" := by
  have hall : ∀ path ∈ "./src/a.rs" :: otherSpellings,
      ((searchedProject.relativePath (Tree.fileSystem "" searchTime) path).run.run
        spelledTree).1.toOption = some "src/a.rs" := by decide +kernel
  have hsource := hall path h
  rw [hrelative] at hsource
  exact Option.some.inj hsource

theorem spelledTree_allows {path : String} (hpath : path ∈ "./src/a.rs" :: otherSpellings)
    (repo : Repository) (relative : String)
    (hrepo : searchedProject.repository? "" spelledTree = some repo)
    (hrelative : ((searchedProject.relativePath (Tree.fileSystem "" searchTime) path).run.run
      spelledTree).1 = .ok relative) :
    repo.manifest.HasRoomFor [relative] ∧
      Manifest.startsBlank (Manifest.normalize relative) = false := by
  obtain rfl := relative_of_spelled hpath hrelative
  rw [repository?_spelledTree] at hrepo
  cases hrepo
  exact ⟨⟨fun _ => by decide +kernel, trivial⟩, by decide⟩

theorem added_file_found_by_spelling_dotted :
    ∃ answer later id, runSpelled (.addFiles "s" ["./src/a.rs"]) spelledTree = (.ok answer, later) ∧
      (searchedProject.Leaves "" (runSpelled (.removeFile "s" "./src/a.rs") later) fun after =>
        after.lists? "s" id = some false) ∧
      searchedProject.Leaves "" (runSpelled (.comment "./src/a.rs" (some "entry")) later) fun after =>
        after.manifest.get? id = some ⟨"src/a.rs", some "entry"⟩ := by
  obtain ⟨answer, later, hadd⟩ := adds_spelled List.mem_cons_self
  obtain ⟨relative, id, stored, hrelative, -, hretraces⟩ := added_file_found_by_spelling spelledTree
    "" searchTime searchedWorld unobserved {} searchedProject "s" "./src/a.rs" rfl
    normalized_spelledTree (spelledTree_allows List.mem_cons_self) answer later hadd
  obtain rfl := relative_of_spelled List.mem_cons_self hrelative
  have hpath := (hretraces.found_iff_dotted (by decide)).mpr ⟨1, by rfl⟩
  exact ⟨answer, later, id, hadd, hretraces.removed hpath, hretraces.noted hpath (some "entry")⟩

/-- A path by which the source is added, but not found again, neither to take it out of the set nor to
put a note on it. -/
def AddsOnly (path : String) : Prop :=
  ∃ answer later, runSpelled (.addFiles "s" [path]) spelledTree = (.ok answer, later) ∧
    runSpelled (.removeFile "s" path) later = (.error (.unknownFile path), later) ∧
    ∀ note, runSpelled (.comment path note) later = (.error (.unknownFile path), later)

theorem addsOnly_of_mem {path : String} (hpath : path ∈ otherSpellings) : AddsOnly path := by
  have hmem := List.mem_cons_of_mem "./src/a.rs" hpath
  obtain ⟨answer, later, hadd⟩ := adds_spelled hmem
  have hfiles : searchedWorld.files = Tree.fileSystem "" searchTime := rfl
  obtain ⟨repo, stored, relative, id, added, hrepo, hrelative, hadded, hlasting, hstored, hready⟩ :=
    Project.stored_of_added hfiles normalized_spelledTree (spelledTree_allows hmem) hadd
  have hretraces : searchedProject.Retraces "" runSpelled later stored "s" path relative id :=
    Project.retraces hfiles hready hstored hlasting
      (Project.relativePath_tree_eq_ok_iff.mp hrelative).2 hadded
  -- the one path that is registered is the relative one
  obtain rfl := relative_of_spelled hmem hrelative
  rw [repository?_spelledTree] at hrepo
  cases hrepo
  have hnone : ∀ path ∈ otherSpellings,
      (bareRepository.manifest.resolve "src/a.rs").2.idOf? (Manifest.normalize path) = none := by
    decide +kernel
  have hnormal : ∀ path ∈ otherSpellings, Manifest.normalize path = path := by decide
  have hrefused := hretraces.refused (by
    rw [Repository.manifest_addPath hadded]
    exact hnone path hpath)
  rw [hnormal path hpath] at hrefused
  exact ⟨answer, later, hadd, hrefused⟩

theorem other_spellings_not_found :
    AddsOnly "src//a.rs" ∧ AddsOnly "src/./a.rs" ∧ AddsOnly "/p/src/a.rs" :=
  ⟨addsOnly_of_mem (by decide), addsOnly_of_mem (by decide), addsOnly_of_mem (by decide)⟩

end ContextSets
