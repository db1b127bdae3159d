import ContextSets.Project.Basic
import ContextSets.Proofs.TreeFiles

/-!
# Accepted paths

A project takes the paths of existing files, absolute or seen from its root, and makes them relative to
the root. Only a path whose parts behind those of the root are names is taken, and the names alone make
up the relative path. So an accepted path never climbs, not even to come back.
-/

namespace ContextSets

namespace Path

/-! ### Parts that move -/

/-- The parts of a path but for those that stand for where they are. -/
def moves (path : String) : List PathPart :=
  (parts path).filter (· ≠ .here)

theorem filter_partsBetween (text : List Char) :
    (partsBetween text).filter (· ≠ .here) = partsBetween text := by
  refine List.filter_eq_self.mpr fun part hpart => decide_eq_true ?_
  obtain rfl | ⟨name, rfl⟩ := up_or_name_of_mem_partsBetween hpart
  · nofun
  · nofun

theorem moves_eq (path : String) :
    moves path = (if isAbsolute path then [.root] else []) ++ partsBetween path.toList := by
  rw [moves, parts_eq, List.filter_append, filter_partsBetween]
  congr 1
  unfold leadOf isAbsolute
  by_cases hroot : path.toList.head? = some '/'
  · simp [hroot]
  · simp only [hroot, if_false, beq_iff_eq]
    split <;> rfl

/-- Seen from a base, a path moves on from where the base leads to. -/
theorem moves_join (base : String) {path : String} (h : isAbsolute path = false) :
    moves (join base path) = moves base ++ moves path := by
  rcases eq_or_ne base "" with rfl | hbase
  · rw [join_empty]
    rfl
  · have hpath : moves path = partsBetween path.toList := by
      rw [moves_eq, h, if_neg Bool.false_ne_true, List.nil_append]
    rw [moves, parts_join_between hbase h, List.filter_append, filter_partsBetween, hpath]
    rfl

theorem join_of_isAbsolute (base : String) {path : String} (h : isAbsolute path = true) :
    join base path = path :=
  if_pos (by rw [h, Bool.true_or])

/-! ### Paths behind others -/

theorem behind?_eq_some_iff {base path : String} {rest : List PathPart} :
    behind? base path = some rest ↔ parts path = parts base ++ rest := by
  unfold behind?
  split
  · rename_i h
    obtain ⟨behind, hbehind⟩ := List.isPrefixOf_iff_prefix.mp h
    rw [← hbehind, List.drop_left, Option.some_inj, List.append_cancel_left_eq]
  · rename_i h
    refine iff_of_false nofun fun heq => h (List.isPrefixOf_iff_prefix.mpr ⟨rest, heq.symm⟩)

/-- How a relative path leads from a root to where a full path leads: by names alone. They are the
parts of the full path behind those of the root, where a part that stands for where it is does not
count. -/
structure LeadsInside (root full relative : String) (names : List String) : Prop where
  ne_nil : names ≠ []
  plain : ∀ name ∈ names, IsPlain name
  relative_eq : relative = ofNames names
  not_absolute : isAbsolute relative = false
  parts_eq : parts relative = names.map .name
  behind : ∃ rest, parts full = parts root ++ rest ∧ rest.filter (· ≠ .here) = names.map .name

end Path

namespace Tree

/-- Where a path leads rests on its moves alone. -/
theorem placeOf_eq_moves (current path : String) :
    placeOf current path = (Path.moves path).foldl step current := by
  rw [placeOf_eq, Path.moves_eq, List.foldl_append]
  unfold route
  rw [Text.splitBy_eq_splitOnP]
  show (Path.partsBetween _).foldl step _ = (Path.partsBetween _).foldl step _
  by_cases h : Path.isAbsolute path = true
  · rw [if_pos h, if_pos h]
    rfl
  · rw [if_neg h, if_neg h]
    rfl

theorem isFile_run (tree : Tree) (current now path : String) :
    ((fileSystem current now).isFile path).run tree =
      ((tree.openFile current path).toOption.isSome, tree) := by
  unfold FileSystem.isFile openFile
  simp only [fileSystem, StateT.run_bind, StateT.run_get, StateT.run_pure, pure_bind]
  cases tree.open? current path with
  | error fault => rfl
  | ok found =>
    obtain ⟨place, item⟩ := found
    cases item <;> rfl

/-- Where no file stands, no path leads to one. -/
theorem isFile_eq_false {tree : Tree} {current path : String}
    (h : tree.fileAt? (placeOf current path) = none) (now : String) :
    (((fileSystem current now).isFile path).run tree).1 = false := by
  rw [isFile_run]
  cases hopen : tree.openFile current path with
  | error fault => rfl
  | ok found =>
    obtain ⟨place, bytes⟩ := found
    obtain ⟨rfl, hitem⟩ := openFile_eq hopen
    rw [fileAt?_eq_some_iff.mpr hitem] at h
    cases h

end Tree

namespace Project

open ContextSets.Path

theorem namesOnly?_eq_some_iff {parts : List PathPart} {names : List String} :
    namesOnly? parts = some names ↔ parts.filter (· ≠ .here) = names.map .name := by
  induction parts generalizing names with
  | nil => cases names <;> simp [namesOnly?]
  | cons part rest ih =>
    cases part with
    | root => cases names <;> simp [namesOnly?]
    | here => simpa [namesOnly?] using ih
    | up => cases names <;> simp [namesOnly?]
    | name text =>
      rw [namesOnly?, Option.map_eq_some_iff]
      cases names with
      | nil => simp
      | cons first others => simp [ih, and_comm]

theorem relativeTo_eq_ok_iff {project : Project} {path full relative : String} :
    project.relativeTo path full = .ok relative ↔ ∃ rest names,
      parts full = parts project.root ++ rest ∧
        rest.filter (· ≠ .here) = names.map .name ∧ relative = ofNames names := by
  unfold relativeTo
  cases hbehind : behind? project.root full with
  | none =>
    refine iff_of_false nofun ?_
    rintro ⟨rest, -, hparts, -⟩
    rw [behind?_eq_some_iff.mpr hparts] at hbehind
    cases hbehind
  | some rest =>
    have hparts := behind?_eq_some_iff.mp hbehind
    dsimp only
    cases hnames : namesOnly? rest with
    | none =>
      refine iff_of_false nofun ?_
      rintro ⟨rest', names, hparts', hfilter, -⟩
      rw [List.append_cancel_left (hparts'.symm.trans hparts)] at hfilter
      rw [namesOnly?_eq_some_iff.mpr hfilter] at hnames
      cases hnames
    | some names =>
      have hfilter := namesOnly?_eq_some_iff.mp hnames
      constructor
      · rintro ⟨⟩
        exact ⟨rest, names, hparts, hfilter, rfl⟩
      · rintro ⟨rest', names', hparts', hfilter', rfl⟩
        rw [List.append_cancel_left (hparts'.symm.trans hparts), hfilter] at hfilter'
        rw [List.map_injective_iff.mpr (fun _ _ => PathPart.name.inj) hfilter']
        rfl

/-- Names that are parts of a path are spelled as one. -/
theorem isPlain_of_behind {root full : String} {rest : List PathPart} {names : List String}
    (hparts : parts full = parts root ++ rest)
    (hnames : rest.filter (· ≠ .here) = names.map .name) : ∀ name ∈ names, IsPlain name := by
  intro name hname
  have hmem : .name name ∈ rest.filter (· ≠ .here) := by
    rw [hnames]
    exact List.mem_map_of_mem hname
  have hpart : .name name ∈ parts full := by
    rw [hparts]
    exact List.mem_append_right _ (List.mem_of_mem_filter hmem)
  exact isPlain_of_mem_parts hpart

theorem moves_of_behind {root full : String} {rest : List PathPart} {names : List String}
    (hparts : parts full = parts root ++ rest)
    (hnames : rest.filter (· ≠ .here) = names.map .name) :
    moves full = moves root ++ names.map .name := by
  rw [moves, hparts, List.filter_append, hnames, ← moves]

variable {σ : Type}

theorem relativePath_run (project : Project) (files : FileSystem (StateM σ)) (path : String) (s : σ) :
    (project.relativePath files path).run.run s =
      (if ((files.isFile (project.place path)).run s).1 then
          project.relativeTo path (project.place path)
        else .error (.notFile (project.place path)),
        ((files.isFile (project.place path)).run s).2) := by
  unfold relativePath
  rw [ExceptT.run_bind, ExceptT.run_lift, StateT.run_bind, StateT.run_map]
  rcases (files.isFile (project.place path)).run s with ⟨found, later⟩
  cases found with
  | true =>
    rw [if_pos rfl]
    unfold Task.ofExcept
    dsimp only
    cases project.relativeTo path (project.place path) <;> rfl
  | false => rfl

/-- On a tree, a path is accepted exactly if it opens a file and can be made relative. -/
theorem relativePath_run_tree (project : Project) (tree : Tree) (current now path : String) :
    (project.relativePath (Tree.fileSystem current now) path).run.run tree =
      (if (tree.openFile current (project.place path)).toOption.isSome then
          project.relativeTo path (project.place path)
        else .error (.notFile (project.place path)), tree) := by
  rw [relativePath_run, Tree.isFile_run]

/-- A path is accepted exactly if it is that of a file and leads inside by names alone. -/
theorem relativePath_eq_ok_iff {project : Project} {files : FileSystem (StateM σ)} {s : σ}
    (hroot : ∀ other, moves other = moves project.root → ((files.isFile other).run s).1 = false)
    {path relative : String} :
    ((project.relativePath files path).run.run s).1 = .ok relative ↔
      ((files.isFile (project.place path)).run s).1 = true ∧
        ∃ names, LeadsInside project.root (project.place path) relative names := by
  rw [relativePath_run]
  dsimp only
  split
  · rename_i hfile
    rw [relativeTo_eq_ok_iff]
    constructor
    · rintro ⟨rest, names, hparts, hnames, rfl⟩
      have hplain := isPlain_of_behind hparts hnames
      refine ⟨hfile, names, ?_, hplain, rfl, isAbsolute_eq_false (leadOf_ofNames hplain),
        parts_ofNames hplain, rest, hparts, hnames⟩
      -- without names the path would be one of the root itself
      rintro rfl
      rw [hroot _ ((moves_of_behind hparts hnames).trans (List.append_nil _))] at hfile
      cases hfile
    · rintro ⟨-, names, hinside⟩
      obtain ⟨rest, hparts, hnames⟩ := hinside.behind
      exact ⟨rest, names, hparts, hnames, hinside.relative_eq⟩
  · rename_i hfile
    exact iff_of_false nofun fun h => hfile h.1

/-- A project whose root is no file, however it is spelled, takes the paths of files that lead inside by
names alone, and no others. A path that climbs anywhere behind the root is refused, whether it is
absolute or not. -/
theorem accepted_paths_lead_inside (project : Project) (files : FileSystem (StateM σ)) (s : σ)
    (hroot : ∀ other, moves other = moves project.root → ((files.isFile other).run s).1 = false)
    (path : String) :
    (∀ relative, ((project.relativePath files path).run.run s).1 = .ok relative ↔
      ((files.isFile (project.place path)).run s).1 = true ∧
        ∃ names, LeadsInside project.root (project.place path) relative names) ∧
    (isAbsolute path = true → project.place path = path) ∧
    (isAbsolute path = false →
      moves (project.place path) = moves project.root ++ moves path) ∧
    ∀ rest, parts (project.place path) = parts project.root ++ rest → .up ∈ rest →
      ∃ failure, ((project.relativePath files path).run.run s).1 = .error failure := by
  refine ⟨fun relative => relativePath_eq_ok_iff hroot, join_of_isAbsolute project.root,
    moves_join project.root, fun rest hparts hup => ?_⟩
  cases hresult : ((project.relativePath files path).run.run s).1 with
  | error failure => exact ⟨failure, rfl⟩
  | ok relative =>
    obtain ⟨-, names, hinside⟩ := (relativePath_eq_ok_iff hroot).mp hresult
    obtain ⟨rest', hparts', hnames⟩ := hinside.behind
    rw [← List.append_cancel_left (hparts.symm.trans hparts')] at hnames
    have hmem : PathPart.up ∈ rest.filter (· ≠ .here) :=
      List.mem_filter.mpr ⟨hup, decide_eq_true nofun⟩
    rw [hnames] at hmem
    obtain ⟨name, -, hname⟩ := List.mem_map.mp hmem
    cases hname

/-- A project with one source. -/
def sourceTree : Tree :=
  ⟨.ofList [("/p", .directory), ("/p/src", .directory), ("/p/src/a.rs", .file "".toUTF8)]⟩

/-- An absolute path with a dot and two slashes is accepted, one that climbs and comes back is not. -/
theorem accepted_paths_lead_inside_spelled :
    (∀ other, moves other = moves "/p" →
      (((Tree.fileSystem "" "").isFile other).run sourceTree).1 = false) ∧
    (∃ names, LeadsInside "/p" "/p/./src//a.rs" "src/a.rs" names) ∧
    ∃ failure, (((⟨"/p", {}⟩ : Project).relativePath (Tree.fileSystem "" "")
      "/p/src/../src/a.rs").run.run sourceTree).1 = .error failure := by
  have hroot : ∀ other, moves other = moves "/p" →
      (((Tree.fileSystem "" "").isFile other).run sourceTree).1 = false := by
    intro other hmoves
    apply Tree.isFile_eq_false
    rw [Tree.placeOf_eq_moves, hmoves]
    decide +kernel
  obtain ⟨haccepted, -⟩ := accepted_paths_lead_inside ⟨"/p", {}⟩ (Tree.fileSystem "" "") sourceTree
    hroot "/p/./src//a.rs"
  obtain ⟨-, -, -, hrefused⟩ := accepted_paths_lead_inside ⟨"/p", {}⟩ (Tree.fileSystem "" "")
    sourceTree hroot "/p/src/../src/a.rs"
  refine ⟨hroot, ((haccepted "src/a.rs").mp (by rfl)).2, ?_⟩
  exact hrefused [.name "src", .up, .name "src", .name "a.rs"] (by decide +kernel) (by decide)

end Project

end ContextSets
