import ContextSets.Proofs.TreeFiles

/-!
# Files found by a walk

A walk through a tree goes from a directory down, past directories whose names do not pass a test. Where
all that stands in the tree stands at places that are spelled by their names, as operations make it,
each file is found once, by the names that lead to it.
-/

namespace ContextSets

namespace Tree

variable {tree later : Tree} {current path place key : String} {names : List String}
  {enter : String → Bool} {found : FoundFile}

/-! ### Places spelled by their names -/

/-- A place is spelled by proper names alone. -/
def Canonical (place : String) : Prop :=
  Plain place ∧ below "" (namesOf place) = place

instance : DecidablePred Canonical :=
  fun place => inferInstanceAs (Decidable (Plain place ∧ below "" (namesOf place) = place))

theorem Canonical.ext {other : String} (h : Canonical place) (hother : Canonical other)
    (hnames : namesOf place = namesOf other) : place = other := by
  rw [← h.2, hnames, hother.2]

theorem Canonical.below (h : Canonical place) (hnames : ∀ name ∈ names, Path.IsPlain name) :
    Canonical (below place names) := by
  unfold Canonical Plain
  rw [namesOf_below place hnames]
  refine ⟨List.forall_mem_append.mpr ⟨h.1, hnames⟩, ?_⟩
  have hplace := h.2
  unfold Tree.below at hplace ⊢
  rw [List.foldl_append, hplace]

theorem canonical_root : Canonical "" := by decide

theorem canonical_step {part : PathPart} (hplace : Canonical place)
    (hpart : ∀ name, part = .name name → Path.IsPlain name) : Canonical (step place part) := by
  cases part with
  | root => exact canonical_root
  | here => exact hplace
  | up =>
    rw [step, holder]
    exact canonical_root.below fun name hname =>
      hplace.1 name ((List.dropLast_prefix _).subset hname)
  | name text =>
    have hnames : ∀ name ∈ [text], Path.IsPlain name :=
      List.forall_mem_singleton.mpr (hpart text rfl)
    have hbelow := hplace.below hnames
    rwa [Tree.below, List.foldl_cons, List.foldl_nil] at hbelow

/-- Paths lead to places that are spelled by their names. -/
theorem canonical_placeOf (h : Canonical current) (path : String) :
    Canonical (placeOf current path) :=
  placeOf_induction h (fun _ _ => canonical_step) path

/-- All that stands in a tree stands at a place that is spelled by its names. -/
def Uniform (tree : Tree) : Prop :=
  ∀ place ∈ tree.items.keys, Canonical place

instance : DecidablePred Uniform :=
  fun tree => inferInstanceAs (Decidable (∀ place ∈ tree.items.keys, Canonical place))

theorem uniform_iff : tree.Uniform ↔ tree.Within Canonical :=
  (within_iff canonical_root).symm

/-- What operations make stands where paths lead, so they keep a tree uniform. -/
theorem Uniform.run (h : tree.Uniform) (hcurrent : Canonical current)
    (hrun : Relation.ReflTransGen (Changes current) tree later) : later.Uniform :=
  uniform_iff.mpr ((uniform_iff.mp h).run (canonical_placeOf hcurrent) hrun)

/-- All trees that operations make from nothing are uniform. -/
theorem uniform_of_run (hcurrent : Canonical current)
    (hrun : Relation.ReflTransGen (Changes current) ∅ tree) : tree.Uniform :=
  Uniform.run (uniform_iff.mpr (within_empty canonical_root)) hcurrent hrun

theorem Uniform.proper (h : tree.Uniform) : tree.Proper :=
  fun place hplace => (h place hplace).1

theorem Uniform.canonical_of_entry {item : TreeItem} (h : tree.Uniform)
    (hentry : (key, item) ∈ tree.items.entries) : Canonical key :=
  h key (List.mem_map_of_mem hentry)

/-! ### What a walk finds -/

/-- What a walk from a place makes of an entry: a file below the place, if all names between them pass
the test. -/
def findAt? (place : String) (enter : String → Bool) (entry : String × TreeItem) :
    Option FoundFile :=
  match entry.2 with
  | .directory => none
  | .file bytes =>
    let names := namesOf entry.1
    let start := namesOf place
    let inside := names.drop start.length
    if start.isPrefixOf names && !inside.isEmpty && inside.dropLast.all enter then
      some ⟨inside, bytes.size⟩
    else none

theorem findAt?_eq_some_iff {item : TreeItem} :
    findAt? place enter (key, item) = some found ↔ ∃ bytes, item = .file bytes ∧
      namesOf key = namesOf place ++ found.names ∧ found.names ≠ [] ∧
      (∀ name ∈ found.names.dropLast, enter name = true) ∧ bytes.size = found.size := by
  cases item with
  | directory => exact iff_of_false nofun fun ⟨_, hitem, _⟩ => nomatch hitem
  | file bytes =>
    unfold findAt?
    dsimp only
    rw [Option.ite_none_right_eq_some, Bool.and_eq_true, Bool.and_eq_true, List.all_eq_true,
      Bool.not_eq_true', List.isEmpty_eq_false_iff, List.isPrefixOf_iff_prefix]
    constructor
    · rintro ⟨⟨⟨⟨inside, hnames⟩, hne⟩, henter⟩, hfound⟩
      cases hfound
      rw [← hnames, List.drop_left] at hne henter ⊢
      exact ⟨bytes, rfl, rfl, hne, henter, rfl⟩
    · rintro ⟨_, hitem, hnames, hne, henter, hsize⟩
      cases hitem
      rw [hnames, List.drop_left, hsize]
      exact ⟨⟨⟨List.prefix_append _ _, hne⟩, henter⟩, rfl⟩

theorem walk_of_directory (h : tree.open? current path = .ok (place, .directory)) :
    tree.walk current path enter = tree.items.entries.filterMap (findAt? place enter) := by
  unfold walk
  rw [h]
  rfl

/-- What a walk finds goes by what its path leads to: nothing, a file, which it finds, or a directory. -/
theorem walk_cases (tree : Tree) (current path : String) (enter : String → Bool) :
    tree.walk current path enter = [] ∨
      (∃ place bytes, tree.open? current path = .ok (place, .file bytes) ∧
        tree.walk current path enter = [⟨[], bytes.size⟩]) ∨
      ∃ place, tree.open? current path = .ok (place, .directory) ∧
        tree.walk current path enter = tree.items.entries.filterMap (findAt? place enter) := by
  unfold walk
  split
  · exact .inl rfl
  · rename_i place bytes hopen
    exact .inr (.inl ⟨place, bytes, hopen, rfl⟩)
  · rename_i place hopen
    exact .inr (.inr ⟨place, hopen, rfl⟩)

/-- What is found below a directory has proper names. -/
theorem Proper.plain_of_mem_walk (h : tree.Proper) (hfound : found ∈ tree.walk current path enter) :
    ∀ name ∈ found.names, Path.IsPlain name := by
  rcases tree.walk_cases current path enter with hwalk | ⟨place, bytes, -, hwalk⟩ | ⟨place, -, hwalk⟩
  · rw [hwalk] at hfound
    cases hfound
  · rw [hwalk, List.mem_singleton] at hfound
    rw [hfound]
    nofun
  · rw [hwalk, List.mem_filterMap] at hfound
    obtain ⟨⟨key, item⟩, hentry, hitem⟩ := hfound
    obtain ⟨-, -, hnames, -⟩ := findAt?_eq_some_iff.mp hitem
    intro name hname
    exact h key (List.mem_map_of_mem hentry) name (hnames ▸ List.mem_append_right _ hname)

theorem open?_of_hasDirectory (h : tree.hasDirectory current path = true) :
    tree.open? current path = .ok (placeOf current path, .directory) := by
  unfold hasDirectory at h
  split at h
  · rename_i place item hopen
    cases item with
    | directory => rw [hopen, (open?_eq hopen).1]
    | file bytes => cases h
  · cases h

/-- A file below a place, to which names lead that pass the test, but for its own. -/
structure Finds (tree : Tree) (place : String) (enter : String → Bool) (found : FoundFile) : Prop where
  plain : ∀ name ∈ found.names, Path.IsPlain name
  entered : ∀ name ∈ found.names.dropLast, enter name = true
  file : ∃ bytes, tree.item? (below place found.names) = some (.file bytes) ∧
    bytes.size = found.size

theorem item?_eq_some_iff {item : TreeItem} (h : place ≠ "") :
    tree.item? place = some item ↔ (place, item) ∈ tree.items.entries := by
  rw [item?, if_neg h, Table.get?_eq_some_iff]

/-- An entry that leads on from a place stands where its names lead. -/
theorem Canonical.eq_below (h : Canonical place) (hkey : Canonical key)
    (hnames : namesOf key = namesOf place ++ names) : key = Tree.below place names := by
  have hplain : ∀ name ∈ names, Path.IsPlain name := fun name hname =>
    hkey.1 name (hnames ▸ List.mem_append_right _ hname)
  exact hkey.ext (h.below hplain) (hnames.trans (namesOf_below place hplain).symm)

theorem ne_root_of_namesOf (h : namesOf place ≠ []) : place ≠ "" := by
  rintro rfl
  exact h rfl

/-- A walk finds files below the place where it starts. -/
theorem Uniform.finds (huniform : tree.Uniform) (hcurrent : Canonical current)
    (h : found ∈ tree.walk current path enter) :
    tree.Finds (placeOf current path) enter found := by
  have hplain := huniform.proper.plain_of_mem_walk h
  rcases tree.walk_cases current path enter with hwalk | ⟨place, bytes, hopen, hwalk⟩ |
    ⟨place, hopen, hwalk⟩
  · rw [hwalk] at h
    cases h
  · obtain ⟨rfl, hitem⟩ := open?_eq hopen
    rw [hwalk, List.mem_singleton] at h
    subst h
    exact ⟨hplain, nofun, bytes, hitem, rfl⟩
  · obtain ⟨rfl, -⟩ := open?_eq hopen
    rw [hwalk, List.mem_filterMap] at h
    obtain ⟨⟨key, item⟩, hentry, hfound⟩ := h
    obtain ⟨bytes, rfl, hnames, hne, henter, hsize⟩ := findAt?_eq_some_iff.mp hfound
    have hkey := huniform.canonical_of_entry hentry
    have hroot : key ≠ "" := ne_root_of_namesOf (hnames ▸ List.append_ne_nil_of_right_ne_nil _ hne)
    refine ⟨hplain, henter, bytes, ?_, hsize⟩
    rw [← (canonical_placeOf hcurrent path).eq_below hkey hnames]
    exact (item?_eq_some_iff hroot).mpr hentry

/-- All files below a directory are found by a walk from it. -/
theorem Finds.mem_walk (hdirectory : tree.hasDirectory current path = true)
    (h : tree.Finds (placeOf current path) enter found) : found ∈ tree.walk current path enter := by
  have hopen := open?_of_hasDirectory hdirectory
  obtain ⟨bytes, hitem, hsize⟩ := h.file
  have hnames := namesOf_below (placeOf current path) h.plain
  have hne : found.names ≠ [] := by
    intro hempty
    rw [hempty] at hitem
    cases (open?_eq hopen).2.symm.trans hitem
  have hroot : below (placeOf current path) found.names ≠ "" :=
    ne_root_of_namesOf (hnames ▸ List.append_ne_nil_of_right_ne_nil _ hne)
  rw [walk_of_directory hopen, List.mem_filterMap]
  exact ⟨_, (item?_eq_some_iff hroot).mp hitem,
    findAt?_eq_some_iff.mpr ⟨bytes, rfl, hnames, hne, h.entered, hsize⟩⟩

/-- A walk finds each file once. -/
theorem Uniform.nodup_walk (huniform : tree.Uniform) (current path : String)
    (enter : String → Bool) : ((tree.walk current path enter).map (·.names)).Nodup := by
  rcases tree.walk_cases current path enter with hwalk | ⟨place, bytes, -, hwalk⟩ | ⟨place, -, hwalk⟩
  · rw [hwalk]
    exact List.nodup_nil
  · rw [hwalk]
    exact List.nodup_singleton _
  · rw [hwalk]
    have hkeys : tree.items.entries.Pairwise (·.1 ≠ ·.1) :=
      List.pairwise_map.mp tree.items.keys_nodup
    refine List.pairwise_map.mpr (List.pairwise_filterMap.mpr (hkeys.imp_of_mem ?_))
    -- entries with the same names would have the same key
    rintro ⟨key, item⟩ ⟨other, item'⟩ hentry hentry' hne found hfound found' hfound' heq
    obtain ⟨-, -, hnames, -⟩ := findAt?_eq_some_iff.mp hfound
    obtain ⟨-, -, hnames', -⟩ := findAt?_eq_some_iff.mp hfound'
    refine hne ((huniform.canonical_of_entry hentry).ext (huniform.canonical_of_entry hentry') ?_)
    rw [hnames, hnames', heq]

end Tree

/-- A tree in which all that stands does so at places that are spelled by their names. Operations make no
others. -/
structure UniformTree extends Tree where
  uniform : toTree.Uniform

/-- A place that is spelled by its names. -/
structure CanonicalPlace where
  text : String
  canonical : Tree.Canonical text

end ContextSets
