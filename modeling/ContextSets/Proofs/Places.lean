import ContextSets.Files.Tree
import ContextSets.Proofs.Edit
import ContextSets.Proofs.EntryNames
import ContextSets.Proofs.TextParts
import Mathlib.Data.List.DropRight

/-!
# Places of paths

In a tree a path leads to a place that its parts tell alone, as there are no links: each part goes to
the root, up, or to a name in the directory where one is. What stands in the tree only decides whether
the way there is open.
-/

namespace ContextSets

namespace Path

/-! ### Parts -/

/-- What stands before the parts between slashes. -/
def leadOf (text : List Char) : List PathPart :=
  if text.head? = some '/' then [.root]
  else if (text.splitOnP (· == '/')).head? = some ['.'] then [.here]
  else []

/-- The parts between slashes. -/
def partsBetween (text : List Char) : List PathPart :=
  (text.splitOnP (· == '/')).filterMap partOf?

/-- What stands between slashes goes up or to a name. -/
theorem up_or_name_of_mem_partsBetween {text : List Char} {part : PathPart}
    (h : part ∈ partsBetween text) : part = .up ∨ ∃ name, part = .name name := by
  obtain ⟨between, -, hpart⟩ := List.mem_filterMap.mp h
  unfold partOf? at hpart
  split at hpart
  · cases hpart
  · cases hpart
  · cases hpart
    exact .inl rfl
  · cases hpart
    exact .inr ⟨_, rfl⟩

theorem parts_eq (path : String) : parts path = leadOf path.toList ++ partsBetween path.toList := by
  unfold parts leadOf partsBetween
  rw [Text.splitBy_eq_splitOnP]
  generalize path.toList.splitOnP (· == '/') = texts
  generalize path.toList = text
  dsimp only
  split
  · rfl
  · rename_i hroot
    have hhead : text.head? ≠ some '/' := fun h => hroot _ (List.eq_cons_of_mem_head? h)
    simp [hhead]
  · rename_i hroot hdot
    have hhead : text.head? ≠ some '/' := fun h => hroot _ (List.eq_cons_of_mem_head? h)
    have hfirst : texts.head? ≠ some ['.'] := fun h => hdot _ (List.eq_cons_of_mem_head? h)
    simp [hhead, hfirst]

theorem partsBetween_append (front rest : List Char) :
    partsBetween (front ++ '/' :: rest) = partsBetween front ++ partsBetween rest := by
  unfold partsBetween
  rw [List.splitOnP_append_cons _ _ rfl, List.filterMap_append]

theorem leadOf_append (front rest other : List Char) :
    leadOf (front ++ '/' :: rest) = leadOf (front ++ '/' :: other) := by
  unfold leadOf
  rw [List.splitOnP_append_cons _ _ rfl, List.splitOnP_append_cons _ _ rfl,
    List.head?_append_of_ne_nil _ (List.splitOnP_ne_nil _ _),
    List.head?_append_of_ne_nil _ (List.splitOnP_ne_nil _ _)]
  cases front <;> rfl

theorem leadOf_append_of_ne_nil {front : List Char} (h : front ≠ []) (rest : List Char) :
    leadOf (front ++ '/' :: rest) = leadOf front := by
  unfold leadOf
  rw [List.splitOnP_append_cons _ _ rfl,
    List.head?_append_of_ne_nil _ (List.splitOnP_ne_nil _ _), List.head?_append_of_ne_nil _ h]

theorem isAbsolute_eq_false {path : String} (h : leadOf path.toList = []) :
    isAbsolute path = false := by
  unfold isAbsolute
  rw [beq_eq_false_iff_ne]
  intro hroot
  simp [leadOf, hroot] at h

/-- Seen from another path, the parts of a path are those between its slashes. -/
theorem parts_join_between {base path : String} (hbase : base ≠ "") (h : isAbsolute path = false) :
    parts (join base path) = parts base ++ partsBetween path.toList := by
  have hempty : base.isEmpty = false := Bool.eq_false_iff.mpr fun h => hbase (String.isEmpty_iff.mp h)
  have hne : base.toList ≠ [] := fun h => hbase (String.toList_eq_nil_iff.mp h)
  unfold join
  rw [h, hempty, Bool.false_or, if_neg Bool.false_ne_true]
  split
  · rename_i hslash
    -- the slash at the end divides
    obtain ⟨front, hfront⟩ : ∃ front, base.toList = front ++ ['/'] :=
      ⟨_, (List.dropLast_append_getLast? '/' (eq_of_beq hslash)).symm⟩
    rw [parts_eq, parts_eq base, String.toList_append, hfront, List.append_assoc,
      List.singleton_append, partsBetween_append, partsBetween_append,
      leadOf_append front path.toList []]
    simp [partsBetween, partOf?]
  · rw [parts_eq, parts_eq base, String.toList_append, String.toList_append, List.append_assoc]
    show leadOf (base.toList ++ '/' :: path.toList) ++
      partsBetween (base.toList ++ '/' :: path.toList) = _
    rw [leadOf_append_of_ne_nil hne, partsBetween_append, List.append_assoc]

theorem join_empty (path : String) : join "" path = path :=
  if_pos (Bool.or_true _)

/-- The parts of a path seen from another are the parts of both. -/
theorem parts_join (base : String) {path : String} (h : leadOf path.toList = []) :
    parts (join base path) = parts base ++ parts path := by
  rcases eq_or_ne base "" with rfl | hbase
  · rw [join_empty]
    rfl
  · rw [parts_join_between hbase (isAbsolute_eq_false h), parts_eq path, h, List.nil_append]

/-! ### Names -/

theorem partOf?_eq_some_name {text : List Char} {name : String}
    (h : partOf? text = some (.name name)) :
    name.toList = text ∧ text ≠ [] ∧ text ≠ ['.'] ∧ text ≠ ['.', '.'] := by
  unfold partOf? at h
  split at h
  · cases h
  · cases h
  · cases h
  · rename_i hempty hhere hup
    cases h
    exact ⟨String.toList_ofList, hempty, hhere, hup⟩

/-- A name among the parts of a path is one of something in a directory. -/
theorem name_of_mem_parts {path name : String} (h : .name name ∈ parts path) :
    '/' ∉ name.toList ∧ name.toList ≠ [] ∧ name.toList ≠ ['.'] ∧ name.toList ≠ ['.', '.'] := by
  rw [parts_eq, List.mem_append] at h
  rcases h with h | h
  · unfold leadOf at h
    split at h
    · cases List.mem_singleton.mp h
    · split at h
      · cases List.mem_singleton.mp h
      · cases h
  · obtain ⟨text, htext, hpart⟩ := List.mem_filterMap.mp h
    obtain ⟨rfl, hname⟩ := partOf?_eq_some_name hpart
    refine ⟨fun hslash => ?_, hname⟩
    rw [← Text.splitBy_eq_splitOnP] at htext
    cases Text.test_of_mem_splitFrom (List.forall_mem_nil _) htext hslash

theorem isPlain_iff {name : String} : IsPlain name ↔
    '/' ∉ name.toList ∧ name.toList ≠ [] ∧ name.toList ≠ ['.'] ∧ name.toList ≠ ['.', '.'] := by
  constructor
  · intro h
    have hname : .name name ∈ parts name := by
      rw [h]
      exact List.mem_singleton_self _
    exact name_of_mem_parts hname
  · rintro ⟨hslash, hempty, hhere, hup⟩
    exact isPlain_of_no_slash hslash hempty hhere hup

theorem isPlain_of_mem_parts {path name : String} (h : .name name ∈ parts path) : IsPlain name :=
  isPlain_iff.mpr (name_of_mem_parts h)

theorem IsPlain.splitOnP (h : IsPlain name) :
    name.toList.splitOnP (· == '/') = [name.toList] := by
  refine List.splitOnP_eq_singleton fun c hc => ?_
  rw [beq_eq_false_iff_ne]
  rintro rfl
  exact (isPlain_iff.mp h).1 hc

/-- The path of names that lead from a directory to something in it. -/
def ofNames (names : List String) : String :=
  "/".intercalate names

theorem splitOnP_ofNames {names : List String} (hnames : ∀ name ∈ names, IsPlain name)
    (hne : names ≠ []) :
    (ofNames names).toList.splitOnP (· == '/') = names.map String.toList := by
  unfold ofNames
  rw [String.toList_intercalate]
  refine List.splitOn_intercalate '/' ?_ (by simpa using hne)
  intro text htext
  obtain ⟨name, hname, rfl⟩ := List.mem_map.mp htext
  exact (isPlain_iff.mp (hnames name hname)).1

theorem leadOf_ofNames {names : List String} (hnames : ∀ name ∈ names, IsPlain name) :
    leadOf (ofNames names).toList = [] := by
  cases names with
  | nil => rfl
  | cons name rest =>
    have hsplit := splitOnP_ofNames hnames (List.cons_ne_nil _ _)
    obtain ⟨-, hempty, hhere, -⟩ := isPlain_iff.mp (hnames name List.mem_cons_self)
    unfold leadOf
    rw [hsplit, if_neg, if_neg]
    · simpa using hhere
    · intro hroot
      rw [List.eq_cons_of_mem_head? hroot, List.splitOnP_cons_eq_if_modifyHead] at hsplit
      rw [if_pos (beq_self_eq_true _), List.map_cons] at hsplit
      exact hempty (List.cons.inj hsplit).1.symm

theorem parts_ofNames {names : List String} (hnames : ∀ name ∈ names, IsPlain name) :
    parts (ofNames names) = names.map .name := by
  rw [parts_eq, leadOf_ofNames hnames, List.nil_append]
  unfold partsBetween
  rcases eq_or_ne names [] with rfl | hne
  · rfl
  · rw [splitOnP_ofNames hnames hne, List.filterMap_map]
    rw [← List.filterMap_eq_map]
    refine List.filterMap_congr fun name hname => ?_
    obtain ⟨-, hempty, hhere, hup⟩ := isPlain_iff.mp (hnames name hname)
    simp [partOf?_eq_name hempty hhere hup]

/-- The parts of names seen from a directory. -/
theorem parts_join_ofNames (base : String) {names : List String}
    (hnames : ∀ name ∈ names, IsPlain name) :
    parts (join base (ofNames names)) = parts base ++ names.map .name := by
  rw [parts_join base (leadOf_ofNames hnames), parts_ofNames hnames]

theorem parts_join_name (base : String) {name : String} (hname : IsPlain name) :
    parts (join base name) = parts base ++ [.name name] := by
  have h : parts (join base (ofNames [name])) = _ :=
    parts_join_ofNames base (List.forall_mem_singleton.mpr hname)
  simpa [ofNames] using h

end Path

namespace Tree

/-! ### Places -/

/-- Where a part leads from a place. -/
def step (place : String) : PathPart → String
  | .root => ""
  | .here => place
  | .up => holder place
  | .name text => child place text

/-- The place to which a path leads, seen from the place of the current directory. -/
def placeOf (current path : String) : String :=
  (Path.parts path).foldl step current

theorem follow_eq {tree : Tree} {place next : String} {text : List Char}
    (h : tree.follow place text = .ok next) :
    next = (Path.partOf? text).elim place (step place) := by
  obtain ⟨-, -, h⟩ := except_bind_ok.mp h
  split at h
  · cases h
    rfl
  · cases h
    rfl
  · cases h
    rfl
  · rename_i hempty hhere hup
    rw [Path.partOf?_eq_name hempty hhere hup]
    dsimp only at h
    split at h
    · cases h
    · cases h
      rfl

theorem foldlM_follow {tree : Tree} {texts : List (List Char)} {start place : String}
    (h : texts.foldlM tree.follow start = .ok place) :
    place = (texts.filterMap Path.partOf?).foldl step start := by
  induction texts generalizing start with
  | nil =>
    cases h
    rfl
  | cons text rest ih =>
    rw [List.foldlM_cons] at h
    obtain ⟨next, hnext, hrest⟩ := except_bind_ok.mp h
    rw [ih hrest, follow_eq hnext, List.filterMap_cons]
    cases Path.partOf? text <;> rfl

/-- The place of a path from the texts between its slashes. -/
theorem placeOf_eq (current path : String) :
    placeOf current path =
      ((route current path).2.filterMap Path.partOf?).foldl step (route current path).1 := by
  unfold placeOf route
  rw [Path.parts_eq, Text.splitBy_eq_splitOnP, List.foldl_append]
  show (Path.partsBetween _).foldl step _ = (Path.partsBetween _).foldl step _
  congr 1
  unfold Path.leadOf Path.isAbsolute
  by_cases hroot : path.toList.head? = some '/'
  · simp [hroot, step]
  · simp only [hroot, if_false, beq_iff_eq]
    split <;> rfl

/-- A path that leads anywhere leads to its place. -/
theorem locate_eq {tree : Tree} {current path place : String}
    (h : tree.locate current path = .ok place) : place = placeOf current path := by
  obtain ⟨-, -, h⟩ := except_bind_ok.mp h
  rw [placeOf_eq]
  exact foldlM_follow h

/-- What a path leads to stands at its place. -/
theorem open?_eq {tree : Tree} {current path place : String} {item : TreeItem}
    (h : tree.open? current path = .ok (place, item)) :
    place = placeOf current path ∧ tree.item? place = some item := by
  obtain ⟨located, hlocated, h⟩ := except_bind_ok.mp h
  have hplace := locate_eq hlocated
  split at h
  · rename_i hfound
    cases h
    exact ⟨hplace, hfound⟩
  · cases h

theorem openFile_eq {tree : Tree} {current path place : String} {bytes : ByteArray}
    (h : tree.openFile current path = .ok (place, bytes)) :
    place = placeOf current path ∧ tree.item? place = some (.file bytes) := by
  obtain ⟨⟨found, item⟩, hopen, h⟩ := except_bind_ok.mp h
  split at h
  · rename_i heq
    cases heq
    cases h
    exact open?_eq hopen
  · cases h

theorem filterMap_dropWhile {texts : List (List Char)} :
    (texts.dropWhile (·.isEmpty)).filterMap Path.partOf? = texts.filterMap Path.partOf? := by
  induction texts with
  | nil => rfl
  | cons text rest ih =>
    rw [List.dropWhile_cons]
    split
    · rename_i hempty
      rw [ih, List.isEmpty_iff.mp hempty]
      rfl
    · rfl

/-- The entrance of a path is a directory, from which its last part leads to its place. -/
theorem entrance_eq {tree : Tree} {current path directory : String} {last? : Option (List Char)}
    (h : tree.entrance current path = .ok (directory, last?)) :
    tree.requireDirectory directory = .ok () ∧
      placeOf current path = (last?.bind Path.partOf?).elim directory (step directory) := by
  obtain ⟨-, -, h⟩ := except_bind_ok.mp h
  rw [placeOf_eq]
  generalize route current path = way at h ⊢
  obtain ⟨start, texts⟩ := way
  dsimp only at h ⊢
  -- empty texts at the end are no parts
  rw [← List.reverse_reverse texts, List.filterMap_reverse, ← filterMap_dropWhile,
    ← List.filterMap_reverse]
  generalize (texts.reverse.dropWhile (·.isEmpty)).reverse = kept at h ⊢
  obtain ⟨found, hfound, h⟩ := except_bind_ok.mp h
  obtain ⟨⟨⟩, hrequired, h⟩ := except_bind_ok.mp h
  cases h
  refine ⟨hrequired, ?_⟩
  rw [foldlM_follow hfound]
  cases hlast : kept.getLast? with
  | none =>
    rw [List.getLast?_eq_none_iff.mp hlast]
    rfl
  | some last =>
    nth_rewrite 1 [← List.dropLast_append_getLast? last hlast]
    rw [List.filterMap_append, List.foldl_append]
    cases hpart : Path.partOf? last <;> simp [hpart]

theorem target_eq_ok_iff {tree : Tree} {current path place : String} :
    tree.target current path = .ok place ↔ ∃ directory last,
      tree.entrance current path = .ok (directory, some last) ∧ endsInSlash path = false ∧
      tree.follow directory last = .ok place ∧ tree.item? place ≠ some .directory := by
  unfold target
  rw [except_bind_ok]
  constructor
  · rintro ⟨⟨directory, last?⟩, hentrance, h⟩
    cases last? with
    | none => cases h
    | some last =>
      dsimp only at h
      split at h
      · cases h
      · rename_i hslash
        obtain ⟨next, hnext, h⟩ := except_bind_ok.mp h
        split at h
        · cases h
        · rename_i hitem
          cases h
          refine ⟨directory, last, hentrance, Bool.eq_false_iff.mpr hslash, hnext, ?_⟩
          intro hdirectory
          rw [hdirectory] at hitem
          exact hitem rfl
  · rintro ⟨directory, last, hentrance, hslash, hnext, hitem⟩
    have hfree : ¬ (tree.item? place).any (·.isDirectory) = true := by
      cases hplace : tree.item? place with
      | none => nofun
      | some item =>
        cases item with
        | directory => exact absurd hplace hitem
        | file bytes => nofun
    refine ⟨_, hentrance, ?_⟩
    dsimp only
    rw [if_neg (by rw [hslash]; nofun)]
    refine except_bind_ok.mpr ⟨place, hnext, ?_⟩
    rw [if_neg hfree]
    rfl

/-- A file is made at the place of its path, where no directory stands. -/
theorem target_eq {tree : Tree} {current path place : String}
    (h : tree.target current path = .ok place) :
    place = placeOf current path ∧ tree.item? place ≠ some .directory := by
  obtain ⟨directory, last, hentrance, -, hnext, hitem⟩ := target_eq_ok_iff.mp h
  refine ⟨?_, hitem⟩
  rw [(entrance_eq hentrance).2, follow_eq hnext]
  rfl

/-! ### Directories that hold a place -/

theorem namesOf_eq (place : String) :
    namesOf place =
      ((place.toList.splitOnP (· == '/')).filter (!·.isEmpty)).map String.ofList := by
  unfold namesOf
  rw [Text.splitBy_eq_splitOnP]

theorem namesOf_child (place : String) {name : String} (h : Path.IsPlain name) :
    namesOf (child place name) = namesOf place ++ [name] := by
  have htext : (child place name).toList = place.toList ++ '/' :: name.toList := by
    simp [child, String.toList_append]
  have hname : name.toList.isEmpty = false :=
    List.isEmpty_eq_false_iff.mpr (Path.isPlain_iff.mp h).2.1
  rw [namesOf_eq, htext, List.splitOnP_append_cons _ _ rfl, h.splitOnP,
    List.filter_append, List.map_append, ← namesOf_eq]
  simp [hname]

theorem namesOf_below (place : String) {names : List String}
    (h : ∀ name ∈ names, Path.IsPlain name) :
    namesOf (below place names) = namesOf place ++ names := by
  induction names generalizing place with
  | nil => simp [below]
  | cons name rest ih =>
    obtain ⟨hname, hrest⟩ := List.forall_mem_cons.mp h
    show namesOf (below (child place name) rest) = _
    rw [ih _ hrest, namesOf_child place hname, List.append_assoc]
    rfl

/-- Names on the way to a place have no slash in them and are not empty. -/
theorem slash_not_mem_of_mem_namesOf {place name : String} (h : name ∈ namesOf place) :
    '/' ∉ name.toList ∧ name.toList ≠ [] := by
  obtain ⟨text, htext, rfl⟩ := List.mem_map.mp h
  obtain ⟨hbetween, hempty⟩ := List.mem_filter.mp htext
  rw [String.toList_ofList]
  refine ⟨fun hslash => ?_, by simpa using hempty⟩
  cases Text.test_of_mem_splitFrom (List.forall_mem_nil _) hbetween hslash

/-- All names on the way to a place are names of something. -/
def Plain (place : String) : Prop :=
  ∀ name ∈ namesOf place, Path.IsPlain name

instance : DecidablePred Plain :=
  fun place => inferInstanceAs (Decidable (∀ name ∈ namesOf place, Path.IsPlain name))

theorem plain_root : Plain "" := by decide

theorem plain_step {place : String} {part : PathPart} (hplace : Plain place)
    (hpart : ∀ name, part = .name name → Path.IsPlain name) : Plain (step place part) := by
  unfold Plain
  cases part with
  | root => exact plain_root
  | here => exact hplace
  | up =>
    have hnames : ∀ name ∈ (namesOf place).dropLast, Path.IsPlain name :=
      fun name hname => hplace name ((List.dropLast_prefix _).subset hname)
    rw [step, holder, namesOf_below "" hnames]
    exact hnames
  | name text =>
    rw [step, namesOf_child place (hpart text rfl)]
    exact List.forall_mem_append.mpr ⟨hplace, List.forall_mem_singleton.mpr (hpart text rfl)⟩

/-- What each part of a path keeps of a place, the path keeps. -/
theorem placeOf_induction {P : String → Prop} {current : String} (hcurrent : P current)
    (hstep : ∀ place part, P place → (∀ name, part = .name name → Path.IsPlain name) →
      P (step place part)) (path : String) : P (placeOf current path) := by
  unfold placeOf
  have hparts : ∀ part ∈ Path.parts path, ∀ name, part = .name name → Path.IsPlain name := by
    rintro _ hpart name rfl
    exact Path.isPlain_of_mem_parts hpart
  generalize Path.parts path = parts at hparts
  induction parts generalizing current with
  | nil => exact hcurrent
  | cons part rest ih =>
    obtain ⟨hpart, hrest⟩ := List.forall_mem_cons.mp hparts
    exact ih (hstep current part hcurrent hpart) hrest

/-- Paths lead to places with proper names only. -/
theorem plain_placeOf {current : String} (h : Plain current) (path : String) :
    Plain (placeOf current path) :=
  placeOf_induction h (fun _ _ => plain_step) path

/-- A place is that of a directory or stands below it. -/
def Holds (directory place : String) : Prop :=
  namesOf directory <+: namesOf place

instance (directory place : String) : Decidable (Holds directory place) :=
  inferInstanceAs (Decidable (namesOf directory <+: namesOf place))

theorem holds_below (place : String) {names : List String}
    (h : ∀ name ∈ names, Path.IsPlain name) : Holds place (below place names) := by
  unfold Holds
  rw [namesOf_below place h]
  exact List.prefix_append _ _

theorem holds_child (place : String) {name : String} (h : Path.IsPlain name) :
    Holds place (child place name) := by
  unfold Holds
  rw [namesOf_child place h]
  exact List.prefix_append _ _

theorem placeOf_join_ofNames (current base : String) {names : List String}
    (h : ∀ name ∈ names, Path.IsPlain name) :
    placeOf current (Path.join base (Path.ofNames names)) = below (placeOf current base) names := by
  unfold placeOf below
  rw [Path.parts_join_ofNames base h, List.foldl_append, List.foldl_map]
  rfl

theorem placeOf_join (current base : String) {name : String} (h : Path.IsPlain name) :
    placeOf current (Path.join base name) = child (placeOf current base) name := by
  unfold placeOf
  rw [Path.parts_join_name base h, List.foldl_append]
  rfl

end Tree

end ContextSets
