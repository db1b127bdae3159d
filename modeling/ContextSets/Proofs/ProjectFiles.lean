import ContextSets.Proofs.AcceptedPaths
import ContextSets.Proofs.SourcePlaces

/-!
# Files of a project

A project knows a file by its relative path, which it has from a path that it accepts or from a search
of its own. Seen from the root, the relative path leads to the same file, however it was first spelled:
what is left out in it are dots and slashes that lead nowhere, and these only ask that one is in a
directory.
-/

namespace ContextSets

namespace Path

/-- The text of a part between two slashes. -/
def textOf : PathPart → List Char
  | .root => []
  | .here => ['.']
  | .up => ['.', '.']
  | .name text => text.toList

theorem textOf_partOf? {text : List Char} {part : PathPart} (h : partOf? text = some part) :
    textOf part = text := by
  unfold partOf? at h
  split at h
  · cases h
  · cases h
  · cases h
    rfl
  · cases h
    exact String.toList_ofList

/-- The texts that are parts, from the parts. -/
theorem map_textOf_filterMap (texts : List (List Char)) :
    (texts.filterMap partOf?).map textOf = texts.filter fun text => (partOf? text).isSome := by
  induction texts with
  | nil => rfl
  | cons text rest ih =>
    rw [List.filterMap_cons, List.filter_cons]
    cases hpart : partOf? text with
    | none => exact ih
    | some part => simp [textOf_partOf? hpart, ih]

theorem root_not_mem_partsBetween (text : List Char) : .root ∉ partsBetween text := by
  intro h
  obtain heq | ⟨name, heq⟩ := up_or_name_of_mem_partsBetween h
  · cases heq
  · cases heq

theorem between_of_moves {path other : String} (h : moves path = moves other) :
    isAbsolute path = isAbsolute other ∧
      partsBetween path.toList = partsBetween other.toList := by
  rw [moves_eq, moves_eq] at h
  cases hpath : isAbsolute path with
  | true =>
    cases hother : isAbsolute other with
    | true => simpa [hpath, hother] using h
    | false =>
      simp only [hpath, hother, if_true, Bool.false_eq_true, if_false, List.nil_append] at h
      refine absurd ?_ (root_not_mem_partsBetween other.toList)
      rw [← h]
      exact List.mem_cons_self
  | false =>
    cases hother : isAbsolute other with
    | true =>
      simp only [hpath, hother, if_true, Bool.false_eq_true, if_false, List.nil_append] at h
      refine absurd ?_ (root_not_mem_partsBetween path.toList)
      rw [h]
      exact List.mem_cons_self
    | false => simpa [hpath, hother] using h

/-- Seen from another, a path stands alone or behind a slash. -/
theorem join_eq_or (base path : String) :
    join base path = path ∨ ∃ front, (join base path).toList = front ++ '/' :: path.toList := by
  unfold join
  split
  · exact .inl rfl
  · split
    · rename_i hslash
      refine .inr ⟨base.toList.dropLast, ?_⟩
      have hbase := List.dropLast_append_getLast? '/' (eq_of_beq hslash)
      rw [String.toList_append, ← hbase]
      simp
    · exact .inr ⟨base.toList, by simp [String.toList_append]⟩

/-- Names seen from another path end as they do. -/
theorem getLast?_texts_join (base : String) {names : List String}
    (hnames : ∀ name ∈ names, IsPlain name) (hne : names ≠ []) :
    ((join base (ofNames names)).toList.splitOnP (· == '/')).getLast? =
      names.getLast?.map String.toList := by
  have hsplit := splitOnP_ofNames hnames hne
  rcases join_eq_or base (ofNames names) with hjoin | ⟨front, hjoin⟩
  · rw [hjoin, hsplit, List.getLast?_map]
  · rw [hjoin, List.splitOnP_append_cons _ _ rfl, hsplit, List.getLast?_append, List.getLast?_map]
    cases hlast : names.getLast? with
    | none => exact absurd (List.getLast?_eq_none_iff.mp hlast) hne
    | some last => rfl

theorem moves_join_ofNames (base : String) {names : List String}
    (hnames : ∀ name ∈ names, IsPlain name) :
    moves (join base (ofNames names)) = moves base ++ names.map .name := by
  have hfilter : (names.map PathPart.name).filter (· ≠ .here) = names.map .name := by
    refine List.filter_eq_self.mpr fun part hpart => decide_eq_true ?_
    obtain ⟨name, -, rfl⟩ := List.mem_map.mp hpart
    nofun
  rw [moves, parts_join_ofNames base hnames, List.filter_append, hfilter, moves]

end Path

namespace Tree

variable {tree : Tree} {current path other start place : String} {texts : List (List Char)}

/-! ### Ways by the same moves -/

/-- Texts that are no parts can be left out. -/
theorem foldlM_follow_filter (h : texts.foldlM tree.follow start = .ok place) :
    (texts.filter fun text => (Path.partOf? text).isSome).foldlM tree.follow start = .ok place := by
  induction texts generalizing start with
  | nil => exact h
  | cons text rest ih =>
    rw [List.foldlM_cons] at h
    obtain ⟨next, hnext, hrest⟩ := except_bind_ok.mp h
    rw [List.filter_cons]
    split
    · rw [List.foldlM_cons]
      exact except_bind_ok.mpr ⟨next, hnext, ih hrest⟩
    · rename_i hidle
      have hsame : next = start := by
        rw [follow_eq hnext, Option.not_isSome_iff_eq_none.mp hidle]
        rfl
      exact ih (hsame ▸ hrest)

/-- Texts that are no parts can be put in, except at the end, where there may be a file. -/
theorem foldlM_follow_of_filter (hlast : ∀ text ∈ texts.getLast?, (Path.partOf? text).isSome)
    (h : (texts.filter fun text => (Path.partOf? text).isSome).foldlM tree.follow start =
      .ok place) : texts.foldlM tree.follow start = .ok place := by
  induction texts generalizing start with
  | nil => exact h
  | cons text rest ih =>
    rw [List.foldlM_cons]
    rw [List.filter_cons] at h
    have hrest : ∀ text ∈ rest.getLast?, (Path.partOf? text).isSome := by
      intro last hmem
      cases rest with
      | nil => cases hmem
      | cons second others =>
        rw [← List.getLast?_cons_cons (a := text)] at hmem
        exact hlast last hmem
    split at h
    · rw [List.foldlM_cons] at h
      obtain ⟨next, hnext, hfold⟩ := except_bind_ok.mp h
      exact except_bind_ok.mpr ⟨next, hnext, ih hrest hfold⟩
    · rename_i hidle
      -- something follows, so one is in a directory
      have hne : rest.filter (fun text => (Path.partOf? text).isSome) ≠ [] := by
        cases hend : rest.getLast? with
        | none =>
          rw [List.getLast?_eq_none_iff.mp hend] at hlast
          exact absurd (hlast text rfl) hidle
        | some last =>
          exact List.ne_nil_of_mem (List.mem_filter.mpr ⟨List.mem_of_getLast? hend, hrest last hend⟩)
      have hstart := requireDirectory_of_foldlM hne h
      exact except_bind_ok.mpr ⟨start,
        follow_of_no_part (Option.not_isSome_iff_eq_none.mp hidle) hstart, ih hrest h⟩

/-- A path leads where another one leads with the same moves, if it ends with a move. -/
theorem locate_of_moves (hmoves : Path.moves path = Path.moves other)
    (hother : requirePath other = .ok ())
    (hlast : ∀ text ∈ (other.toList.splitOnP (· == '/')).getLast?, (Path.partOf? text).isSome)
    (h : tree.locate current path = .ok place) : tree.locate current other = .ok place := by
  obtain ⟨⟨⟩, -, h⟩ := except_bind_ok.mp h
  refine except_bind_ok.mpr ⟨(), hother, ?_⟩
  obtain ⟨habsolute, hbetween⟩ := Path.between_of_moves hmoves
  unfold route at h ⊢
  rw [Text.splitBy_eq_splitOnP] at h ⊢
  dsimp only at h ⊢
  refine foldlM_follow_of_filter hlast ?_
  rw [← Path.map_textOf_filterMap]
  show ((Path.partsBetween other.toList).map Path.textOf).foldlM _ _ = _
  rw [← hbetween, ← habsolute]
  exact Path.map_textOf_filterMap _ ▸ foldlM_follow_filter h

/-- The same holds for the files to which paths lead. -/
theorem openFile_of_moves {file : String × ByteArray} (hmoves : Path.moves path = Path.moves other)
    (hother : requirePath other = .ok ())
    (hlast : ∀ text ∈ (other.toList.splitOnP (· == '/')).getLast?, (Path.partOf? text).isSome)
    (h : tree.openFile current path = .ok file) : tree.openFile current other = .ok file := by
  obtain ⟨found, hopen, hfile⟩ := except_bind_ok.mp h
  obtain ⟨place, hlocate, hitem⟩ := except_bind_ok.mp hopen
  exact except_bind_ok.mpr ⟨found, except_bind_ok.mpr
    ⟨place, locate_of_moves hmoves hother hlast hlocate, hitem⟩, hfile⟩

end Tree

namespace Project

open ContextSets.Path

variable {project : Project} {tree : Tree} {current now relative : String}
  {file : String × ByteArray}

/-! ### Relative paths of files -/

/-- A relative path is that of a file, given by its place and its bytes: the project accepts for it a
path that leads to the file, or finds it on its own and can open it. -/
inductive HasFile (project : Project) (tree : Tree) (current now relative : String)
    (file : String × ByteArray) : Prop
  | accepted (path : String)
      (hrun : ((project.relativePath (Tree.fileSystem current now) path).run.run tree).1 =
        .ok relative)
      (hopen : tree.openFile current (project.place path) = .ok file) :
      HasFile project tree current now relative file
  | found (hscan : relative ∈ ((project.scan (Tree.fileSystem current now)).run tree).1)
      (hopen : tree.openFile current (project.place relative) = .ok file) :
      HasFile project tree current now relative file

/-- A path is accepted on a tree exactly if it opens a file and can be made relative. -/
theorem relativePath_tree_eq_ok_iff {path : String} :
    ((project.relativePath (Tree.fileSystem current now) path).run.run tree).1 = .ok relative ↔
      (∃ file, tree.openFile current (project.place path) = .ok file) ∧
        project.relativeTo path (project.place path) = .ok relative := by
  rw [relativePath_run_tree]
  dsimp only
  cases tree.openFile current (project.place path) with
  | error fault => exact iff_of_false nofun fun h => nomatch h.1
  | ok file => exact ⟨fun h => ⟨⟨file, rfl⟩, h⟩, fun h => h.2⟩

section Named

variable (hproper : tree.Proper) (hroot : tree.fileAt? (Tree.placeOf current project.root) = none)

include hproper hroot

/-- The path of a file is spelled by the names that lead to it from the root. -/
theorem HasFile.exists_names (h : project.HasFile tree current now relative file) :
    ∃ names, names ≠ [] ∧ (∀ name ∈ names, IsPlain name) ∧ relative = ofNames names ∧
      ∃ path, tree.openFile current path = .ok file ∧
        moves path = moves project.root ++ names.map .name := by
  -- without names, the file would be the root itself
  have hne : ∀ {path names}, tree.openFile current path = .ok file →
      moves path = moves project.root ++ List.map .name names → names ≠ [] := by
    rintro path _ hopen hmoves rfl
    obtain ⟨place, bytes⟩ := file
    obtain ⟨rfl, hitem⟩ := Tree.openFile_eq hopen
    rw [Tree.placeOf_eq_moves, hmoves, List.map_nil, List.append_nil,
      ← Tree.placeOf_eq_moves] at hitem
    rw [Tree.fileAt?_eq_some_iff.mpr hitem] at hroot
    cases hroot
  cases h with
  | accepted path hrun hopen =>
    obtain ⟨-, hrelative⟩ := relativePath_tree_eq_ok_iff.mp hrun
    obtain ⟨rest, names, hparts, hnames, rfl⟩ := relativeTo_eq_ok_iff.mp hrelative
    have hmoves := moves_of_behind hparts hnames
    exact ⟨names, hne hopen hmoves, isPlain_of_behind hparts hnames, rfl, _, hopen, hmoves⟩
  | found hscan hopen =>
    obtain ⟨paths, hpaths, hmem⟩ := project.mem_scan tree current now
    rw [hpaths] at hscan
    obtain ⟨found, hfound, -, rfl⟩ := (hmem relative).mp hscan
    have hplain := hproper.plain_of_mem_walk hfound
    have hmoves := moves_join_ofNames project.root hplain
    exact ⟨found.names, hne hopen hmoves, hplain, rfl, _, hopen, hmoves⟩

/-- Seen from the root, the relative path of a file leads to its place. -/
theorem HasFile.file_eq (h : project.HasFile tree current now relative file) :
    file.1 = Tree.placeOf current (project.place relative) ∧
      tree.item? file.1 = some (.file file.2) := by
  obtain ⟨names, -, hplain, rfl, path, hopen, hmoves⟩ := h.exists_names hproper hroot
  obtain ⟨place, bytes⟩ := file
  obtain ⟨rfl, hitem⟩ := Tree.openFile_eq hopen
  refine ⟨?_, hitem⟩
  rw [Tree.placeOf_eq_moves, hmoves, Tree.placeOf_eq_moves, Project.place,
    moves_join_ofNames _ hplain]

/-- Different files have different relative paths. -/
theorem HasFile.unique {other : String × ByteArray}
    (h : project.HasFile tree current now relative file)
    (hother : project.HasFile tree current now relative other) : file = other := by
  obtain ⟨hplace, hitem⟩ := h.file_eq hproper hroot
  obtain ⟨hplace', hitem'⟩ := hother.file_eq hproper hroot
  have hsame : file.1 = other.1 := hplace.trans hplace'.symm
  rw [hsame, hitem'] at hitem
  exact Prod.ext hsame (TreeItem.file.inj (Option.some.inj hitem)).symm

/-- Seen from the root, the relative path of a file opens it, unless it is too long there. -/
theorem HasFile.openFile_place (h : project.HasFile tree current now relative file)
    (hpath : Tree.requirePath (project.place relative) = .ok ()) :
    tree.openFile current (project.place relative) = .ok file := by
  obtain ⟨names, hne, hplain, rfl, path, hopen, hmoves⟩ := h.exists_names hproper hroot
  refine Tree.openFile_of_moves ?_ hpath ?_ hopen
  · rw [hmoves, place, moves_join_ofNames _ hplain]
  · intro text htext
    rw [place, getLast?_texts_join _ hplain hne] at htext
    obtain ⟨name, hname, rfl⟩ := Option.map_eq_some_iff.mp htext
    obtain ⟨-, hempty, hhere, hup⟩ := isPlain_iff.mp (hplain name (List.mem_of_getLast? hname))
    rw [partOf?_eq_name hempty hhere hup]
    rfl

end Named

end Project

end ContextSets
