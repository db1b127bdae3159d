import ContextSets.Proofs.Places
import Mathlib.Logic.Function.Basic
import Mathlib.Logic.Relation

/-!
# What operations do to a tree

Each operation on a tree, seen as a change of what stands at places. Only the places of the paths that
it is given are concerned, and directories are only made where nothing stands.
-/

namespace ContextSets

namespace Tree

variable {tree later : Tree} {current path place : String}

/-- The file at a place. -/
def fileAt? (tree : Tree) (place : String) : Option ByteArray :=
  match tree.item? place with
  | some (.file bytes) => some bytes
  | _ => none

theorem fileAt?_eq_some_iff {bytes : ByteArray} :
    tree.fileAt? place = some bytes ↔ tree.item? place = some (.file bytes) := by
  unfold fileAt?
  split <;> simp_all

theorem item?_insert (tree : Tree) (hroot : place ≠ "") (item : TreeItem) :
    (⟨tree.items.insert place item⟩ : Tree).item? = Function.update tree.item? place (some item) := by
  ext other : 1
  rw [Function.update_apply]
  simp only [item?, Table.get?_insert, eq_comm (a := place)]
  split
  · rename_i hother
    rw [hother, if_neg (Ne.symm hroot)]
  · rfl

theorem item?_erase (tree : Tree) (hroot : place ≠ "") :
    (⟨tree.items.erase place⟩ : Tree).item? = Function.update tree.item? place none := by
  ext other : 1
  rw [Function.update_apply]
  simp only [item?, Table.get?_erase, eq_comm (a := place)]
  split
  · rename_i hother
    rw [hother, if_neg (Ne.symm hroot)]
  · rfl

theorem ne_root_of_item?_ne (h : tree.item? place ≠ some .directory) : place ≠ "" := by
  rintro rfl
  exact h rfl

theorem ne_root_of_file {bytes : ByteArray} (h : tree.item? place = some (.file bytes)) :
    place ≠ "" :=
  ne_root_of_item?_ne (h ▸ nofun : tree.item? place ≠ some .directory)

/-- Writing puts a file at the place of its path. -/
theorem write_eq {bytes : ByteArray} (h : tree.write current path bytes = .ok later) :
    later.item? = Function.update tree.item? (placeOf current path) (some (.file bytes)) := by
  obtain ⟨place, htarget, h⟩ := except_bind_ok.mp h
  obtain ⟨rfl, hitem⟩ := target_eq htarget
  cases h
  exact item?_insert tree (ne_root_of_item?_ne hitem) _

/-- Removing takes the file at the place of its path. -/
theorem remove_eq (h : tree.remove current path = .ok later) :
    ∃ bytes, tree.item? (placeOf current path) = some (.file bytes) ∧
      later.item? = Function.update tree.item? (placeOf current path) none := by
  obtain ⟨⟨place, bytes⟩, hopen, h⟩ := except_bind_ok.mp h
  obtain ⟨rfl, hitem⟩ := openFile_eq hopen
  cases h
  exact ⟨bytes, hitem, item?_erase tree (ne_root_of_file hitem)⟩

/-- Renaming moves the file at the place of one path to that of the other. -/
theorem rename_eq {source target : String}
    (h : tree.rename current source target = .ok later) :
    ∃ bytes, tree.item? (placeOf current source) = some (.file bytes) ∧
      later.item? = Function.update
        (Function.update tree.item? (placeOf current source) none)
        (placeOf current target) (some (.file bytes)) := by
  obtain ⟨⟨place, bytes⟩, hopen, h⟩ := except_bind_ok.mp h
  obtain ⟨rfl, hitem⟩ := openFile_eq hopen
  dsimp only at h
  split at h
  · cases h
  · refine ⟨bytes, hitem, ?_⟩
    rw [write_eq h, item?_erase tree (ne_root_of_file hitem)]

/-- A directory is made at the place of its path, where nothing stands. -/
theorem makeDirectory_eq (h : tree.makeDirectory current path = .ok later) :
    tree.item? (placeOf current path) = none ∧
      later.item? = Function.update tree.item? (placeOf current path) (some .directory) := by
  obtain ⟨⟨directory, last?⟩, hentrance, h⟩ := except_bind_ok.mp h
  obtain ⟨-, hplace⟩ := entrance_eq hentrance
  cases last? with
  | none => cases h
  | some last =>
    dsimp only at h
    split at h
    · cases h
    · obtain ⟨next, hnext, h⟩ := except_bind_ok.mp h
      split at h
      · cases h
      · rename_i hitem
        cases h
        have hnone : tree.item? next = none := by simpa using hitem
        have heq : placeOf current path = next := by rw [hplace, follow_eq hnext]; rfl
        rw [heq]
        have hfree : tree.item? next ≠ some .directory := by
          rw [hnone]
          nofun
        exact ⟨hnone, item?_insert tree (ne_root_of_item?_ne hfree) _⟩

/-- What each making of a directory keeps, the making of all that are missing keeps. -/
theorem makeFirst_induction {R : Tree → Tree → Prop} (hrefl : ∀ tree, R tree tree)
    (htrans : ∀ {one two three}, R one two → R two three → R one three)
    (hmake : ∀ {tree later path}, makeDirectory tree current path = .ok later → R tree later)
    (tree : Tree) (paths : List String) : R tree (makeFirst current tree paths).1 := by
  induction paths generalizing tree with
  | nil => exact hrefl tree
  | cons path holders ih =>
    unfold makeFirst
    split
    · exact hrefl tree
    · dsimp only
      split
      · rename_i made hmade
        exact hmake hmade
      · have hholders := ih tree
        split
        · rename_i heq
          rwa [heq] at hholders
        · rename_i heq
          rw [heq] at hholders
          split
          · rename_i hmade
            exact htrans hholders (hmake hmade)
          · exact hholders
      · exact hrefl tree

/-- Making directories changes nothing that stands. -/
theorem item?_makeDirectories (tree : Tree) (current path : String) {place : String}
    {item : TreeItem} (h : tree.item? place = some item) :
    (tree.makeDirectories current path).1.item? place = some item := by
  refine makeFirst_induction (R := fun tree later => ∀ place item,
    tree.item? place = some item → later.item? place = some item) (fun _ _ _ => id)
    (fun hone htwo place item h => htwo place item (hone place item h)) ?_ tree _ place item h
  intro tree later path hmade place item hitem
  obtain ⟨hnone, hlater⟩ := makeDirectory_eq hmade
  rw [hlater, Function.update_of_ne, hitem]
  rintro rfl
  rw [hnone] at hitem
  cases hitem

/-- Making directories makes no files. -/
theorem fileAt?_makeDirectories (tree : Tree) (current path place : String) :
    (tree.makeDirectories current path).1.fileAt? place = tree.fileAt? place := by
  refine makeFirst_induction (R := fun tree later => later.fileAt? place = tree.fileAt? place)
    (fun _ => rfl) (fun hone htwo => htwo.trans hone) ?_ tree _
  intro tree later path hmade
  obtain ⟨hnone, hlater⟩ := makeDirectory_eq hmade
  unfold fileAt?
  rw [hlater, Function.update_apply]
  by_cases heq : place = placeOf current path
  · rw [if_pos heq, heq, hnone]
  · rw [if_neg heq]

/-! ### Runs on a tree -/

theorem run_change (run : Tree → Except FileFault Tree) (tree : Tree) :
    (change run).run tree = match run tree with
      | .ok later => (.ok (), later)
      | .error fault => (.error fault, tree) := by
  unfold change
  rw [StateT.run_bind, StateT.run_get, pure_bind]
  cases run tree <;> rfl

/-- The bytes of the file at a path as a text. -/
def textAt (tree : Tree) (current path : String) : Except FileFault String := do
  let (_, bytes) ← tree.openFile current path
  FileSystem.decode bytes

theorem run_readText (tree : Tree) (current now path : String) :
    ((fileSystem current now).readText path).run tree = pure (tree.textAt current path, tree) := by
  have hread : ((fileSystem current now).read path).run tree =
      pure ((tree.openFile current path).map Prod.snd, tree) := rfl
  unfold FileSystem.readText textAt
  rw [StateT.run_bind, hread, pure_bind]
  cases tree.openFile current path <;> rfl

theorem textAt_eq_ok_iff {path text : String} : tree.textAt current path = .ok text ↔
    ∃ bytes, tree.openFile current path = .ok (placeOf current path, bytes) ∧
      FileSystem.decode bytes = .ok text := by
  unfold textAt
  rw [except_bind_ok]
  constructor
  · rintro ⟨⟨place, bytes⟩, hopen, htext⟩
    rw [(openFile_eq hopen).1] at hopen
    exact ⟨bytes, hopen, htext⟩
  · rintro ⟨bytes, hopen, htext⟩
    exact ⟨_, hopen, htext⟩

/-! ### Ways that stay open -/

theorem requireDirectory_eq_ok_iff :
    tree.requireDirectory place = .ok () ↔ tree.item? place = some .directory := by
  unfold requireDirectory
  split <;> simp_all

theorem requireDirectory_of_foldlM {texts : List (List Char)} {start : String} (hne : texts ≠ [])
    (h : texts.foldlM tree.follow start = .ok place) : tree.requireDirectory start = .ok () := by
  cases texts with
  | nil => exact absurd rfl hne
  | cons text rest =>
    rw [List.foldlM_cons] at h
    obtain ⟨next, hnext, -⟩ := except_bind_ok.mp h
    obtain ⟨⟨⟩, hstart, -⟩ := except_bind_ok.mp hnext
    exact hstart

/-- In a directory, a text that is no part leads to where one is. -/
theorem follow_of_no_part {text : List Char} (htext : Path.partOf? text = none)
    (h : tree.requireDirectory place = .ok ()) : tree.follow place text = .ok place := by
  refine except_bind_ok.mpr ⟨(), h, ?_⟩
  unfold Path.partOf? at htext
  split at htext
  · rfl
  · rfl
  · cases htext
  · cases htext

section Ways

variable {other : Tree} (hdirectories : ∀ place, tree.item? place = some .directory →
  other.item? place = some .directory)

include hdirectories

/-- Ways stay open as long as all directories stay. -/
theorem follow_mono {next : String} {text : List Char} (h : tree.follow place text = .ok next) :
    other.follow place text = .ok next := by
  obtain ⟨⟨⟩, hplace, h⟩ := except_bind_ok.mp h
  have hother := requireDirectory_eq_ok_iff.mpr
    (hdirectories place (requireDirectory_eq_ok_iff.mp hplace))
  exact except_bind_ok.mpr ⟨(), hother, h⟩

theorem foldlM_follow_mono {texts : List (List Char)} {start : String}
    (h : texts.foldlM tree.follow start = .ok place) :
    texts.foldlM other.follow start = .ok place := by
  induction texts generalizing start with
  | nil => exact h
  | cons text rest ih =>
    rw [List.foldlM_cons] at h ⊢
    obtain ⟨next, hnext, hrest⟩ := except_bind_ok.mp h
    exact except_bind_ok.mpr ⟨next, follow_mono hdirectories hnext, ih hrest⟩

theorem locate_mono (h : tree.locate current path = .ok place) :
    other.locate current path = .ok place := by
  obtain ⟨⟨⟩, hpath, h⟩ := except_bind_ok.mp h
  exact except_bind_ok.mpr ⟨(), hpath, foldlM_follow_mono hdirectories h⟩

theorem entrance_mono {directory : String} {last? : Option (List Char)}
    (h : tree.entrance current path = .ok (directory, last?)) :
    other.entrance current path = .ok (directory, last?) := by
  obtain ⟨⟨⟩, hpath, h⟩ := except_bind_ok.mp h
  obtain ⟨found, hfound, h⟩ := except_bind_ok.mp h
  obtain ⟨⟨⟩, hrequired, h⟩ := except_bind_ok.mp h
  have hother := requireDirectory_eq_ok_iff.mpr
    (hdirectories found (requireDirectory_eq_ok_iff.mp hrequired))
  refine except_bind_ok.mpr ⟨(), hpath, ?_⟩
  exact except_bind_ok.mpr ⟨found, foldlM_follow_mono hdirectories hfound,
    except_bind_ok.mpr ⟨(), hother, h⟩⟩

theorem target_mono (h : tree.target current path = .ok place)
    (hitem : other.item? place ≠ some .directory) : other.target current path = .ok place := by
  obtain ⟨directory, last, hentrance, hslash, hnext, -⟩ := target_eq_ok_iff.mp h
  exact target_eq_ok_iff.mpr ⟨directory, last, entrance_mono hdirectories hentrance, hslash,
    follow_mono hdirectories hnext, hitem⟩

end Ways

/-- A text is empty, or ends in a separator, if nothing stands behind its last separator. -/
theorem getLast?_splitFrom {test : Char → Bool} {part text : List Char}
    (h : (Text.splitFrom test part text).getLast? = some []) :
    part = [] ∧ text = [] ∨ text.getLast?.any test = true := by
  induction text generalizing part with
  | nil =>
    simp only [Text.splitFrom, List.getLast?_singleton, Option.some.injEq,
      List.reverse_eq_nil_iff] at h
    exact .inl ⟨h, rfl⟩
  | cons c rest ih =>
    have hrest : rest.getLast?.any test = true → (c :: rest).getLast?.any test = true := by
      cases rest with
      | nil =>
        intro hany
        cases hany
      | cons d rest => exact id
    unfold Text.splitFrom at h
    split at h
    · rename_i hc
      have hne : Text.splitFrom test [] rest ≠ [] := by
        rw [Text.splitFrom_eq_splitOnPPrepend]
        exact List.splitOnP_ne_nil _ _
      rw [List.getLast?_cons_of_ne_nil hne] at h
      rcases ih h with ⟨-, rfl⟩ | hany
      · exact .inr hc
      · exact .inr (hrest hany)
    · rcases ih h with ⟨hpart, -⟩ | hany
      · cases hpart
      · exact .inr (hrest hany)

/-- Nothing stands behind a separator at the end of a path in which a file can be made. -/
theorem getLast?_splitBy_ne (hpath : requirePath path = .ok ())
    (hslash : endsInSlash path = false) :
    (Text.splitBy (· == '/') path.toList).getLast? ≠ some [] := by
  intro hempty
  rcases getLast?_splitFrom hempty with ⟨-, hnil⟩ | hend
  · unfold requirePath at hpath
    rw [String.toList_eq_nil_iff.mp hnil] at hpath
    cases hpath
  · unfold endsInSlash at hslash
    cases hc : path.toList.getLast? with
    | none =>
      rw [hc] at hend
      cases hend
    | some c =>
      rw [hc] at hend hslash
      rw [Option.any_some] at hend
      rw [eq_of_beq hend] at hslash
      cases hslash

/-- Behind the texts of a path that count there are only empty ones. -/
theorem exists_empty_behind (texts : List (List Char)) :
    ∃ ends, texts = (texts.reverse.dropWhile (·.isEmpty)).reverse ++ ends ∧
      ∀ text ∈ ends, text.isEmpty = true := by
  refine ⟨texts.rtakeWhile (·.isEmpty), ?_, fun text => List.mem_rtakeWhile_imp⟩
  rw [List.rtakeWhile, ← List.reverse_append, List.takeWhile_append_dropWhile,
    List.reverse_reverse]

/-- Empty texts lead nowhere else, but only in a directory. -/
theorem foldlM_follow_empty {texts : List (List Char)}
    (hempty : ∀ text ∈ texts, text.isEmpty = true)
    (hplace : tree.item? place = some .directory ∨ texts = []) :
    texts.foldlM tree.follow place = .ok place := by
  induction texts with
  | nil => rfl
  | cons text rest ih =>
    obtain ⟨htext, hrest⟩ := List.forall_mem_cons.mp hempty
    have hdirectory := hplace.resolve_right (List.cons_ne_nil _ _)
    rw [List.foldlM_cons, List.isEmpty_iff.mp htext]
    exact except_bind_ok.mpr ⟨place,
      follow_of_no_part rfl (requireDirectory_eq_ok_iff.mpr hdirectory), ih hrest (.inl hdirectory)⟩

/-- The last part of a path leads from its entrance to where the path leads. Slashes behind it ask for
a directory. -/
theorem locate_of_entrance {directory : String} {last : List Char}
    (h : tree.entrance current path = .ok (directory, some last))
    (hnext : tree.follow directory last = .ok place)
    (hend : tree.item? place = some .directory ∨ endsInSlash path = false) :
    tree.locate current path = .ok place := by
  obtain ⟨⟨⟩, hpath, h⟩ := except_bind_ok.mp h
  refine except_bind_ok.mpr ⟨(), hpath, ?_⟩
  have hslash := getLast?_splitBy_ne hpath
  unfold route at h ⊢
  dsimp only at h ⊢
  generalize Text.splitBy (· == '/') path.toList = texts at h hslash ⊢
  obtain ⟨ends, htexts, hempty⟩ := exists_empty_behind texts
  generalize (texts.reverse.dropWhile (·.isEmpty)).reverse = kept at h htexts
  obtain ⟨found, hfound, h⟩ := except_bind_ok.mp h
  obtain ⟨⟨⟩, -, h⟩ := except_bind_ok.mp h
  have hpair := Except.ok.inj h
  have hkept : kept.dropLast ++ [last] = kept :=
    List.dropLast_append_getLast? last (congrArg Prod.snd hpair)
  have hends : tree.item? place = some .directory ∨ ends = [] := by
    refine hend.imp_right fun hend => by_contra fun hne => hslash hend ?_
    rw [htexts, List.getLast?_append_of_ne_nil _ hne, List.getLast?_eq_some_getLast hne,
      List.isEmpty_iff.mp (hempty _ (List.getLast_mem hne))]
  rw [htexts, List.foldlM_append, ← hkept, List.foldlM_append]
  refine except_bind_ok.mpr ⟨place, except_bind_ok.mpr ⟨found, hfound, ?_⟩,
    foldlM_follow_empty hempty hends⟩
  rw [show found = directory from congrArg Prod.fst hpair, List.foldlM_cons]
  exact except_bind_ok.mpr ⟨place, hnext, rfl⟩

/-- A path that leads anywhere has an entrance, and its last part leads on from there. -/
theorem entrance_of_locate (h : tree.locate current path = .ok place) :
    ∃ directory last?, tree.entrance current path = .ok (directory, last?) ∧
      ∀ last ∈ last?, tree.follow directory last = .ok place := by
  obtain ⟨⟨⟩, hpath, h⟩ := except_bind_ok.mp h
  unfold entrance route
  rw [hpath]
  unfold route at h
  have hne : Text.splitBy (· == '/') path.toList ≠ [] := by
    rw [Text.splitBy_eq_splitOnP]
    exact List.splitOnP_ne_nil _ _
  dsimp only at h ⊢
  generalize Text.splitBy (· == '/') path.toList = texts at h hne ⊢
  obtain ⟨ends, htexts, hempty⟩ := exists_empty_behind texts
  generalize (texts.reverse.dropWhile (·.isEmpty)).reverse = kept at htexts ⊢
  rw [htexts, List.foldlM_append] at h
  obtain ⟨next, hnext, hends⟩ := except_bind_ok.mp h
  have hplace : place = next := by
    rw [foldlM_follow hends, List.filterMap_eq_nil_iff.mpr]
    · rfl
    · intro text htext
      rw [List.isEmpty_iff.mp (hempty text htext)]
      rfl
  subst hplace
  cases hlast : kept.getLast? with
  | none =>
    -- all texts are empty, so the way ends where it starts
    rw [List.getLast?_eq_none_iff.mp hlast] at hnext htexts ⊢
    cases hnext
    rw [List.nil_append] at htexts
    have hstart := requireDirectory_of_foldlM (htexts ▸ hne) hends
    exact ⟨_, none, except_bind_ok.mpr ⟨(), rfl, except_bind_ok.mpr ⟨_, rfl,
      except_bind_ok.mpr ⟨(), hstart, rfl⟩⟩⟩, nofun⟩
  | some last =>
    have hkept := List.dropLast_append_getLast? last hlast
    rw [← hkept, List.foldlM_append] at hnext
    obtain ⟨directory, hdirectory, hnext⟩ := except_bind_ok.mp hnext
    rw [List.foldlM_cons] at hnext
    obtain ⟨next, hfollow, heq⟩ := except_bind_ok.mp hnext
    cases heq
    obtain ⟨⟨⟩, hrequired, -⟩ := except_bind_ok.mp hfollow
    refine ⟨directory, some last, except_bind_ok.mpr ⟨(), rfl, except_bind_ok.mpr ⟨directory,
      hdirectory, except_bind_ok.mpr ⟨(), hrequired, rfl⟩⟩⟩, ?_⟩
    rintro _ ⟨⟩
    exact hfollow

/-- The way to where a file is made leads there. -/
theorem locate_of_target (h : tree.target current path = .ok place) :
    tree.locate current path = .ok place := by
  obtain ⟨directory, last, hentrance, hslash, hnext, -⟩ := target_eq_ok_iff.mp h
  exact locate_of_entrance hentrance hnext (.inr hslash)

/-- A change where no directory stands leaves all directories. -/
theorem directory_of_update {item : Option TreeItem} {changed : String}
    (hitem : tree.item? changed ≠ some .directory)
    (hlater : later.item? = Function.update tree.item? changed item)
    (hplace : tree.item? place = some .directory) : later.item? place = some .directory := by
  rw [hlater, Function.update_of_ne, hplace]
  rintro rfl
  exact hitem hplace

theorem openFile_of_locate {bytes : ByteArray} (h : tree.locate current path = .ok place)
    (hitem : tree.item? place = some (.file bytes)) :
    tree.openFile current path = .ok (place, bytes) := by
  unfold openFile open?
  simp only [h, hitem, bind, Except.bind, pure, Except.pure]

/-- What has been written is read back. -/
theorem openFile_of_write {bytes : ByteArray} (h : tree.write current path bytes = .ok later) :
    later.openFile current path = .ok (placeOf current path, bytes) := by
  have hlater := write_eq h
  obtain ⟨place, htarget, -⟩ := except_bind_ok.mp h
  obtain ⟨rfl, hitem⟩ := target_eq htarget
  have hlocate := locate_mono (fun _ => directory_of_update hitem hlater) (locate_of_target htarget)
  exact openFile_of_locate hlocate (by rw [hlater, Function.update_self])

/-- What has been written can be moved to wherever a file could be made before. -/
theorem rename_of_write {source : String} {bytes : ByteArray}
    (h : tree.write current source bytes = .ok later)
    (htarget : tree.target current path = .ok place) :
    ∃ after, later.rename current source path = .ok after := by
  have hlater := write_eq h
  have hopen := openFile_of_write h
  obtain ⟨first, hsource, -⟩ := except_bind_ok.mp h
  obtain ⟨rfl, hfree⟩ := target_eq hsource
  obtain ⟨-, -, -, hslash, -, hitem⟩ := target_eq_ok_iff.mp htarget
  let erased : Tree := ⟨later.items.erase (placeOf current source)⟩
  have herased : erased.item? = Function.update tree.item? (placeOf current source) none := by
    rw [item?_erase later (ne_root_of_item?_ne hfree), hlater, Function.update_idem]
  have hplace : erased.item? place ≠ some .directory := by
    rw [herased, Function.update_apply]
    split
    · nofun
    · exact hitem
  have hagain := target_mono (fun _ => directory_of_update hfree herased) htarget hplace
  refine ⟨⟨(later.items.erase (placeOf current source)).insert place (.file bytes)⟩,
    except_bind_ok.mpr ⟨(placeOf current source, bytes), hopen, ?_⟩⟩
  dsimp only
  rw [if_neg (by rw [hslash]; nofun)]
  exact except_bind_ok.mpr ⟨_, hagain, rfl⟩

/-! ### Where things stand -/

/-- All that stands in a tree stands at places with a property. -/
def Within (P : String → Prop) (tree : Tree) : Prop :=
  ∀ place, tree.item? place ≠ none → P place

section Within

variable {P : String → Prop}

theorem within_iff (hroot : P "") : tree.Within P ↔ ∀ place ∈ tree.items.keys, P place := by
  unfold Within item?
  simp only [Table.mem_keys, Table.contains_iff]
  constructor
  · rintro h place ⟨item, hitem⟩
    refine h place ?_
    split
    · nofun
    · rw [hitem]
      nofun
  · intro h place hplace
    split at hplace
    · rename_i heq
      rw [heq]
      exact hroot
    · exact h place (Option.ne_none_iff_exists'.mp hplace)

/-- An operation of the file system, seen from the place of the current directory, makes one tree of
another. -/
inductive Changes (current : String) (tree : Tree) : Tree → Prop
  | write {path : String} {bytes : ByteArray} {later : Tree}
      (h : tree.write current path bytes = .ok later) : Changes current tree later
  | remove {path : String} {later : Tree} (h : tree.remove current path = .ok later) :
      Changes current tree later
  | rename {source target : String} {later : Tree}
      (h : tree.rename current source target = .ok later) : Changes current tree later
  | makeDirectories (path : String) : Changes current tree (tree.makeDirectories current path).1

theorem within_empty (hroot : P "") : (∅ : Tree).Within P :=
  (within_iff hroot).mpr (List.forall_mem_nil P)

theorem Within.update {item : Option TreeItem} (h : tree.Within P) (hplace : P place)
    (hlater : later.item? = Function.update tree.item? place item) : later.Within P := by
  intro other hother
  rw [hlater, Function.update_apply] at hother
  split at hother
  · rename_i heq
    rw [heq]
    exact hplace
  · exact h other hother

/-- An operation keeps a tree within all places to which paths lead. -/
theorem Within.changes (h : tree.Within P) (hplaces : ∀ path, P (placeOf current path))
    (hchanges : Changes current tree later) : later.Within P := by
  cases hchanges with
  | @write path _ _ hwrite => exact h.update (hplaces path) (write_eq hwrite)
  | @remove path _ hremove =>
    obtain ⟨-, -, hlater⟩ := remove_eq hremove
    exact h.update (hplaces path) hlater
  | @rename source target _ hrename =>
    obtain ⟨bytes, hitem, hlater⟩ := rename_eq hrename
    have herased := h.update (hplaces source) (item?_erase tree (ne_root_of_file hitem))
    rw [← item?_erase tree (ne_root_of_file hitem)] at hlater
    exact herased.update (hplaces target) hlater
  | makeDirectories path =>
    refine makeFirst_induction (R := fun tree later => tree.Within P → later.Within P) (fun _ => id)
      (fun hone htwo => htwo ∘ hone) ?_ tree _ h
    intro tree later path hmade hwithin
    exact hwithin.update (hplaces path) (makeDirectory_eq hmade).2

/-- So do any operations one after another. -/
theorem Within.run (h : tree.Within P) (hplaces : ∀ path, P (placeOf current path))
    (hrun : Relation.ReflTransGen (Changes current) tree later) : later.Within P := by
  induction hrun with
  | refl => exact h
  | tail _ hchanges ih => exact ih.changes hplaces hchanges

end Within

/-- All that stands in a tree has a name. -/
def Proper (tree : Tree) : Prop :=
  ∀ place ∈ tree.items.keys, Plain place

instance : DecidablePred Proper :=
  fun tree => inferInstanceAs (Decidable (∀ place ∈ tree.items.keys, Plain place))

theorem proper_iff : tree.Proper ↔ tree.Within Plain :=
  (within_iff plain_root).symm

/-- Operations keep a tree proper. -/
theorem Proper.run (h : tree.Proper) (hcurrent : Plain current)
    (hrun : Relation.ReflTransGen (Changes current) tree later) : later.Proper :=
  proper_iff.mpr ((proper_iff.mp h).run (plain_placeOf hcurrent) hrun)

end Tree

/-- A tree in which all that stands has a name. Operations make no others. -/
structure ProperTree extends Tree where
  proper : toTree.Proper

end ContextSets
