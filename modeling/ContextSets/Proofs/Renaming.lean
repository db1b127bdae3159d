import ContextSets.Proofs.ClosureFiles
import ContextSets.Proofs.Spellings
import Mathlib.Data.Set.Function

/-!
# Renaming

To rename a set is to replace its name wherever it stands: as the key of the set, as its own name, and
in the uses of all sets. In a consistent repository no use names a set that is not there, so the new
name meets no other. The walk from a set then meets the same sets in the same order, although the
keys are sorted anew, and renaming back undoes all of it.
-/

namespace ContextSets

open Repository

/-- A set with one name replaced by another, as its own name and in its uses. -/
def ContextSet.substituted (oldKey newKey : String) (set : ContextSet) : ContextSet :=
  { set with
    name := substitute oldKey newKey set.name
    uses := set.uses.map (substitute oldKey newKey) }

/-- A closure with one name replaced by another in its sets. -/
def Closure.substituted (oldKey newKey : String) (closure : Closure) : Closure where
  root := closure.root.substituted oldKey newKey
  sets := closure.sets.map (·.substituted oldKey newKey)
  files := closure.files

namespace Repository

/-! ### Replacing a name -/

section Substitute

variable {oldKey newKey name : String}

@[simp] theorem substitute_self (oldKey newKey : String) :
    substitute oldKey newKey oldKey = newKey :=
  if_pos rfl

theorem substitute_of_ne (hne : name ≠ oldKey) : substitute oldKey newKey name = name :=
  if_neg hne

/-- Names stay apart in a replacement if the new name is none of them. -/
theorem substitute_injOn (oldKey newKey : String) :
    Set.InjOn (substitute oldKey newKey) {name | name ≠ newKey} := by
  intro a ha b hb heq
  rw [← substitute_substitute oldKey ha, heq, substitute_substitute oldKey hb]

/-- The name that is replaced is gone. -/
theorem substitute_ne (hkeys : oldKey ≠ newKey) : substitute oldKey newKey name ≠ oldKey := by
  unfold substitute
  split
  · exact hkeys.symm
  · assumption

theorem bare_substitute (hname : SetName.bare name = name) (hnew : SetName.bare newKey = newKey) :
    SetName.bare (substitute oldKey newKey name) = substitute oldKey newKey name := by
  unfold substitute
  split
  · exact hnew
  · exact hname

theorem substituted_substituted {set : ContextSet} (hname : set.name ≠ newKey)
    (huses : newKey ∉ set.uses) :
    (set.substituted oldKey newKey).substituted newKey oldKey = set := by
  have hmap : (set.uses.map (substitute oldKey newKey)).map (substitute newKey oldKey) =
      set.uses := by
    rw [List.map_map]
    refine (List.map_congr_left fun used hused => ?_).trans (List.map_id _)
    exact substitute_substitute oldKey (ne_of_mem_of_not_mem hused huses)
  simp only [ContextSet.substituted, hmap, substitute_substitute oldKey hname]

end Substitute

/-! ### Walks in a renamed graph -/

/-- A renaming of the names of a graph that keeps them apart renames the depth-first order. -/
theorem DepthFirst.map {next other : String → List String} {seen names order : List String}
    {known : Set String} {f : String → String} (hinj : Set.InjOn f known)
    (hclosed : ∀ name ∈ known, ∀ used ∈ next name, used ∈ known)
    (hsame : ∀ name ∈ known, other (f name) = (next name).map f)
    (h : DepthFirst next seen names order) (hseen : ∀ name ∈ seen, name ∈ known)
    (hnames : ∀ name ∈ names, name ∈ known) :
    DepthFirst other (seen.map f) (names.map f) (order.map f) ∧ ∀ name ∈ order, name ∈ known := by
  induction h with
  | nil seen => exact ⟨.nil _, by simp⟩
  | skip hmem _ ih =>
    obtain ⟨_, hrest⟩ := List.forall_mem_cons.mp hnames
    obtain ⟨horder, hknown⟩ := ih hseen hrest
    exact ⟨.skip (List.mem_map_of_mem hmem) horder, hknown⟩
  | @visit seen rest below after name hnew _ _ ihbelow ihafter =>
    obtain ⟨hname, hrest⟩ := List.forall_mem_cons.mp hnames
    obtain ⟨hbelow, hbelowKnown⟩ :=
      ihbelow (List.forall_mem_cons.mpr ⟨hname, hseen⟩) (hclosed name hname)
    have hseenBelow : ∀ other ∈ below.reverse ++ name :: seen, other ∈ known := by
      simp only [List.forall_mem_append, List.forall_mem_cons, List.mem_reverse]
      exact ⟨hbelowKnown, hname, hseen⟩
    obtain ⟨hafter, hafterKnown⟩ := ihafter hseenBelow hrest
    -- a name that was not seen is not the image of one that was
    have hnewImage : f name ∉ seen.map f := by
      intro hmem
      obtain ⟨old, hold, heq⟩ := List.mem_map.mp hmem
      exact hnew (hinj (hseen old hold) hname heq ▸ hold)
    constructor
    · rw [List.map_cons, ← hsame name hname] at hbelow
      rw [List.map_append, List.map_cons, List.map_reverse] at hafter
      rw [List.map_cons, List.map_cons, List.map_append]
      exact .visit hnewImage hbelow hafter
    · simp only [List.forall_mem_cons, List.forall_mem_append]
      exact ⟨hname, hbelowKnown, hafterKnown⟩

/-! ### Users -/

theorem Consistent.mem_usedBy {repo : Repository} (h : repo.Consistent) {name user : String} :
    user ∈ repo.usedBy name ↔ SetName.bare name ∈ repo.usesOf user := by
  simp only [usedBy, List.mem_map, List.mem_filter, List.contains_iff_mem, Table.mem_values,
    mem_usesOf]
  constructor
  · rintro ⟨set, ⟨⟨key, hkey⟩, hused⟩, rfl⟩
    exact ⟨set, (h.stored key set hkey).name_eq.symm ▸ hkey, hused⟩
  · rintro ⟨set, hkey, hused⟩
    exact ⟨set, ⟨⟨user, hkey⟩, hused⟩, (h.stored user set hkey).name_eq⟩

theorem Consistent.map_name_values {repo : Repository} (h : repo.Consistent) :
    repo.sets.values.map (·.name) = repo.sets.keys := by
  rw [Table.values, Table.keys, List.map_map]
  refine List.map_congr_left fun entry hentry => ?_
  exact (h.stored entry.1 entry.2 (Table.get?_eq_some_iff.mpr hentry)).name_eq

theorem Consistent.usedBy_nodup {repo : Repository} (h : repo.Consistent) (name : String) :
    (repo.usedBy name).Nodup := by
  have hsublist : (repo.usedBy name).Sublist (repo.sets.values.map (·.name)) :=
    List.filter_sublist.map _
  rw [h.map_name_values] at hsublist
  exact repo.sets.keys_nodup.sublist hsublist

/-! ### The repository after a renaming -/

theorem Consistent.mem_names {repo : Repository} (h : repo.Consistent) {key : String} :
    key ∈ repo.names ↔ ∃ set, repo.get? key = some set ∧ set.name = key := by
  rw [names, Table.mem_keys, Table.contains_iff]
  constructor
  · rintro ⟨set, hset⟩
    have hstored := h.stored key set hset
    exact ⟨set, by rw [get?, hstored.bare_eq, hset], hstored.name_eq⟩
  · rintro ⟨set, hset, rfl⟩
    refine ⟨set, ?_⟩
    rw [(h.stored _ set hset).name_eq]
    exact hset

/-- A consistent repository with a set of the old name, and a new name that is bare, valid and
free. -/
structure CanRename (repo : Repository) (oldKey newKey : String) (old : ContextSet) : Prop where
  consistent : repo.Consistent
  stored : repo.sets.get? oldKey = some old
  bare : SetName.bare newKey = newKey
  valid : SetName.fault? newKey = none
  free : repo.sets.get? newKey = none

namespace CanRename

variable {repo : Repository} {oldKey newKey key : String} {old set : ContextSet}

theorem after (h : CanRename repo oldKey newKey old) :
    (repo.renamed oldKey newKey old).Consistent :=
  h.consistent.renamed h.stored h.bare h.valid h.free

theorem key_ne (h : CanRename repo oldKey newKey old) (hset : repo.sets.get? key = some set) :
    key ≠ newKey := by
  rintro rfl
  cases hset.symm.trans h.free

/-- The renaming is what the edit does. -/
theorem run_rename (h : CanRename repo oldKey newKey old) :
    (rename oldKey newKey).run repo = .ok () (repo.renamed oldKey newKey old) := by
  have hold : SetName.bare oldKey = oldKey := (h.consistent.stored oldKey old h.stored).bare_eq
  refine rename_ok.mpr ⟨old, ?_, ?_⟩
  · rw [Repository.get?, hold, h.stored]
  · rw [hold, h.bare, if_neg (h.key_ne h.stored)]
    exact ⟨h.valid, h.free, rfl⟩

theorem name_ne (h : CanRename repo oldKey newKey old) (hset : repo.sets.get? key = some set) :
    set.name ≠ newKey :=
  (h.consistent.stored key set hset).name_eq ▸ h.key_ne hset

theorem not_mem_names (h : CanRename repo oldKey newKey old) : newKey ∉ repo.names := by
  intro hmem
  obtain ⟨set, hset⟩ := Table.contains_iff.mp (Table.mem_keys.mp hmem)
  exact h.key_ne hset rfl

/-- No set uses the new name. -/
theorem ne_of_mem_usesOf (h : CanRename repo oldKey newKey old) {used : String}
    (hused : used ∈ repo.usesOf key) : used ≠ newKey := by
  obtain ⟨set, hset, hmem⟩ := mem_usesOf.mp hused
  exact ne_of_mem_of_not_mem hmem (h.consistent.not_mem_uses hset h.free)

/-- The set of a renamed key is the set of the key with its names replaced. -/
theorem sets_get? (h : CanRename repo oldKey newKey old) (hkey : key ≠ newKey) :
    (repo.renamed oldKey newKey old).sets.get? (substitute oldKey newKey key) =
      (repo.sets.get? key).map (·.substituted oldKey newKey) := by
  rw [get?_renamed]
  by_cases hsame : key = oldKey
  · subst hsame
    have hname := (h.consistent.stored key old h.stored).name_eq
    rw [substitute_self, if_pos rfl, h.stored, Option.map_some, ContextSet.substituted, hname,
      substitute_self]
  · rw [substitute_of_ne hsame, if_neg (Ne.symm hkey), if_neg (Ne.symm hsame)]
    refine Option.map_congr fun set hset => ?_
    rw [ContextSet.substituted, (h.consistent.stored key set hset).name_eq, substitute_of_ne hsame]

theorem get? (h : CanRename repo oldKey newKey old) (hkey : key ∈ repo.names) :
    (repo.renamed oldKey newKey old).get? (substitute oldKey newKey key) =
      (repo.get? key).map (·.substituted oldKey newKey) := by
  obtain ⟨set, hset, rfl⟩ := h.consistent.mem_names.mp hkey
  have hbare : SetName.bare set.name = set.name := (h.consistent.stored _ set hset).name_eq.symm
  rw [Repository.get?, Repository.get?, bare_substitute hbare h.bare, hbare]
  exact h.sets_get? (h.name_ne hset)

theorem get?_oldKey (h : CanRename repo oldKey newKey old) :
    (repo.renamed oldKey newKey old).sets.get? oldKey = none := by
  rw [get?_renamed, if_neg (h.key_ne h.stored).symm, if_pos rfl]

/-- All sets after a renaming have been there before it. -/
theorem mem_names (h : CanRename repo oldKey newKey old) {name : String} :
    name ∈ (repo.renamed oldKey newKey old).names ↔
      ∃ key ∈ repo.names, substitute oldKey newKey key = name := by
  simp only [Repository.names, Table.mem_keys, Table.contains_iff]
  constructor
  · rintro ⟨set, hset⟩
    obtain ⟨before, hbefore, -⟩ := exists_of_get?_renamed h.stored hset
    have hname : name ≠ oldKey := by
      rintro rfl
      cases hset.symm.trans h.get?_oldKey
    exact ⟨_, ⟨before, hbefore⟩, substitute_substitute newKey hname⟩
  · rintro ⟨key, ⟨set, hset⟩, rfl⟩
    exact ⟨_, (h.sets_get? (h.key_ne hset)).trans (congrArg _ hset)⟩

/-- The new name takes the place of the old one among the names of sets. -/
theorem names_perm (h : CanRename repo oldKey newKey old) :
    (repo.renamed oldKey newKey old).names.Perm
      (repo.names.map (substitute oldKey newKey)) := by
  have hnodup : (repo.names.map (substitute oldKey newKey)).Nodup :=
    nodup_map_substitute oldKey repo.sets.keys_nodup h.not_mem_names
  refine (List.perm_ext_iff_of_nodup (Table.keys_nodup _) hnodup).mpr fun name => ?_
  rw [List.mem_map]
  exact h.mem_names

theorem usesOf (h : CanRename repo oldKey newKey old) (hkey : key ≠ newKey) :
    (repo.renamed oldKey newKey old).usesOf (substitute oldKey newKey key) =
      (repo.usesOf key).map (substitute oldKey newKey) := by
  rw [Repository.usesOf, Repository.usesOf, h.sets_get? hkey]
  cases repo.sets.get? key <;> rfl

/-- Renaming back gives the repository as it was. -/
theorem renamed_renamed (h : CanRename repo oldKey newKey old) :
    CanRename (repo.renamed oldKey newKey old) newKey oldKey (old.substituted oldKey newKey) ∧
      (repo.renamed oldKey newKey old).renamed newKey oldKey (old.substituted oldKey newKey) =
        repo := by
  have hstored := h.consistent.stored oldKey old h.stored
  have hkeys : oldKey ≠ newKey := h.key_ne h.stored
  have hmoved := h.sets_get? hkeys
  rw [substitute_self, h.stored, Option.map_some] at hmoved
  have hback : CanRename (repo.renamed oldKey newKey old) newKey oldKey
      (old.substituted oldKey newKey) :=
    ⟨h.after, hmoved, hstored.bare_eq, hstored.valid, h.get?_oldKey⟩
  refine ⟨hback, ?_⟩
  have hsets : ((repo.renamed oldKey newKey old).renamed newKey oldKey
      (old.substituted oldKey newKey)).sets = repo.sets := by
    refine Table.ext_get? fun key => ?_
    by_cases hkey : key = newKey
    · subst hkey
      rw [get?_renamed, if_neg hkeys, if_pos rfl, h.free]
    -- every other key is what a key becomes that has been renamed
    · have hne : substitute oldKey newKey key ≠ oldKey := substitute_ne hkeys
      have hthere := hback.sets_get? hne
      rw [substitute_substitute oldKey hkey, h.sets_get? hkey, Option.map_map] at hthere
      rw [hthere]
      cases hset : repo.sets.get? key with
      | none => rfl
      | some set =>
        exact congrArg some (substituted_substituted (h.name_ne hset)
          (h.consistent.not_mem_uses hset h.free))
  calc (repo.renamed oldKey newKey old).renamed newKey oldKey (old.substituted oldKey newKey)
      = ⟨repo.manifest, ((repo.renamed oldKey newKey old).renamed newKey oldKey
          (old.substituted oldKey newKey)).sets⟩ := rfl
    _ = repo := by rw [hsets]

/-! ### Questions after a renaming -/

/-- From a renamed set the walk meets the same sets in the same order. -/
theorem transitiveUses (h : CanRename repo oldKey newKey old) (hkey : key ∈ repo.names) :
    ∃ order, repo.transitiveUses key = .ok order ∧
      (repo.renamed oldKey newKey old).transitiveUses (substitute oldKey newKey key) =
        .ok (order.map (substitute oldKey newKey)) ∧
      ∀ used ∈ order, used ∈ repo.names := by
  obtain ⟨root, hroot, hname⟩ := h.consistent.mem_names.mp hkey
  obtain ⟨order, hrun, horder⟩ := exists_transitiveUses hroot
  rw [hname] at horder
  have hkeyNe : key ≠ newKey := hname ▸ h.name_ne hroot
  refine ⟨order, hrun, ?_, fun used hused => ?_⟩
  · have hafter : (repo.renamed oldKey newKey old).get? (substitute oldKey newKey key) =
        some (root.substituted oldKey newKey) := by
      rw [h.get? hkey, hroot, Option.map_some]
    have hstart : (root.substituted oldKey newKey).name = substitute oldKey newKey key :=
      congrArg (substitute oldKey newKey) hname
    rw [transitiveUses_eq_ok_iff hafter, hstart]
    refine (horder.map (substitute_injOn oldKey newKey) ?_ ?_ ?_ ?_).1
    · exact fun name _ used hused => h.ne_of_mem_usesOf hused
    · exact fun name hname => h.usesOf hname
    · simp
    · simpa using hkeyNe
  · obtain ⟨set, hset⟩ := Table.contains_iff.mp (Table.mem_keys.mp hkey)
    exact Table.mem_keys.mpr (Table.contains_iff.mpr
      (h.consistent.exists_of_reaches hset (horder.mem_iff.mp hused)))

/-- The closure of a renamed set has the same files. -/
theorem closure (h : CanRename repo oldKey newKey old) (hkey : key ∈ repo.names) :
    ∃ closure, repo.closure key = .ok closure ∧
      (repo.renamed oldKey newKey old).closure (substitute oldKey newKey key) =
        .ok (closure.substituted oldKey newKey) := by
  obtain ⟨order, hrun, hafter, hknown⟩ := h.transitiveUses hkey
  obtain ⟨root, hroot, -⟩ := h.consistent.mem_names.mp hkey
  obtain ⟨closure, hclosure, -⟩ := h.consistent.closure hroot
  obtain ⟨names, hnames, hsets, hhead, hcollect⟩ := closure_eq_ok_iff.mp hclosure
  obtain rfl : order = names := Except.ok.inj (hrun.symm.trans hnames)
  refine ⟨closure, hclosure, closure_eq_ok_iff.mpr ⟨_, hafter, ?_, ?_, ?_⟩⟩
  · rw [List.filterMap_map, Closure.substituted, ← hsets, List.map_filterMap]
    exact List.filterMap_congr fun used hused => h.get? (hknown used hused)
  · rw [Closure.substituted, List.head?_map, hhead, Option.map_some]
  · rw [Closure.substituted, List.flatMap_map]
    exact hcollect

/-- The users of a renamed set are those of the set, renamed as well. -/
theorem usedBy_perm (h : CanRename repo oldKey newKey old) (hkey : key ∈ repo.names) :
    ((repo.renamed oldKey newKey old).usedBy (substitute oldKey newKey key)).Perm
      ((repo.usedBy key).map (substitute oldKey newKey)) := by
  obtain ⟨set, hset, hname⟩ := h.consistent.mem_names.mp hkey
  have hkeyNe : key ≠ newKey := ne_of_mem_of_not_mem hkey h.not_mem_names
  have hbare : SetName.bare key = key :=
    hname ▸ (h.consistent.stored _ set hset).name_eq.symm
  have husers : ∀ user, user ∈ repo.usedBy key ↔ key ∈ repo.usesOf user := by
    intro user
    rw [h.consistent.mem_usedBy, hbare]
  have hnodup : ((repo.usedBy key).map (substitute oldKey newKey)).Nodup := by
    refine nodup_map_substitute oldKey (h.consistent.usedBy_nodup key) fun hmem => ?_
    have hknown := mem_keys_of_usesOf_ne_nil (List.ne_nil_of_mem ((husers newKey).mp hmem))
    exact h.not_mem_names hknown
  refine (List.perm_ext_iff_of_nodup (h.after.usedBy_nodup _) hnodup).mpr fun user => ?_
  rw [h.after.mem_usedBy, bare_substitute hbare h.bare, List.mem_map]
  constructor
  · intro hused
    have huser := mem_keys_of_usesOf_ne_nil (List.ne_nil_of_mem hused)
    obtain ⟨source, hsource, rfl⟩ := h.mem_names.mp huser
    have hsourceNe : source ≠ newKey := ne_of_mem_of_not_mem hsource h.not_mem_names
    rw [h.usesOf hsourceNe] at hused
    obtain ⟨used, hmem, heq⟩ := List.mem_map.mp hused
    obtain rfl := substitute_injOn oldKey newKey (h.ne_of_mem_usesOf hmem) hkeyNe heq
    exact ⟨source, (husers source).mpr hmem, rfl⟩
  · rintro ⟨source, hsource, rfl⟩
    have hmem := (husers source).mp hsource
    have hsourceNe : source ≠ newKey :=
      ne_of_mem_of_not_mem (mem_keys_of_usesOf_ne_nil (List.ne_nil_of_mem hmem)) h.not_mem_names
    rw [h.usesOf hsourceNe]
    exact List.mem_map_of_mem hmem

end CanRename

end Repository

/-- To rename a set to a valid name that is bare and free succeeds, and replaces the old name by the
new one everywhere: the walk from each set meets the same sets in the same order, its closure has the
same files, and the same sets use it. Each set is otherwise as it was, and so is the manifest, and
renaming back gives the repository that was there. -/
theorem renaming_is_an_isomorphism (repo : Repository) (h : repo.Reachable) (name newName : String)
    (hname : name ∈ repo.names) (hvalid : SetName.fault? newName = none)
    (hbare : ¬ SetName.label.toList <+: newName.toList) (hfree : newName ∉ repo.names) :
    ∃ after, (rename name newName).run repo = .ok () after ∧
      (∀ key ∈ repo.names,
        (∃ order, repo.transitiveUses key = .ok order ∧
          after.transitiveUses (substitute name newName key) =
            .ok (order.map (substitute name newName))) ∧
        (∃ closure, repo.closure key = .ok closure ∧
          after.closure (substitute name newName key) =
            .ok (closure.substituted name newName)) ∧
        (after.usedBy (substitute name newName key)).Perm
          ((repo.usedBy key).map (substitute name newName)) ∧
        after.get? (substitute name newName key) =
          (repo.get? key).map (·.substituted name newName)) ∧
      after.names.Perm (repo.names.map (substitute name newName)) ∧
      after.manifest = repo.manifest ∧
      (rename newName name).run after = .ok () repo := by
  obtain ⟨old, hold⟩ := Table.contains_iff.mp (Table.mem_keys.mp hname)
  have hnew : repo.sets.get? newName = none := by
    rw [← Table.contains_eq_false_iff, Bool.eq_false_iff]
    exact fun hmem => hfree (Table.mem_keys.mpr hmem)
  have hcan : CanRename repo name newName old :=
    ⟨h.consistent, hold, SetName.bare_eq_self_iff.mpr hbare, hvalid, hnew⟩
  obtain ⟨hback, hundone⟩ := hcan.renamed_renamed
  refine ⟨repo.renamed name newName old, hcan.run_rename, fun key hkey => ?_, hcan.names_perm, rfl,
    ?_⟩
  · obtain ⟨order, hrun, hafter, -⟩ := hcan.transitiveUses hkey
    exact ⟨⟨order, hrun, hafter⟩, hcan.closure hkey, hcan.usedBy_perm hkey, hcan.get? hkey⟩
  · rw [hback.run_rename, hundone]

/-- Among the names, "core" comes before "web" and its new name "zlib" after it. The walk from "app"
still meets "web" first. -/
theorem renaming_is_an_isomorphism_shared :
    let repo := Operation.afterAll [.replaceBy sharedDocument] ∅
    ("core" ∈ repo.names ∧ SetName.fault? "zlib" = none ∧
      ¬ SetName.label.toList <+: "zlib".toList ∧ "zlib" ∉ repo.names) ∧
    repo.transitiveUses "app" = .ok ["app", "web", "core", "cli"] ∧
    ∃ after, (rename "core" "zlib").run repo = .ok () after ∧
      after.transitiveUses "app" = .ok ["app", "web", "zlib", "cli"] ∧
      (after.usedBy "zlib").Perm ["cli", "web"] ∧
      (rename "zlib" "core").run after = .ok () repo := by
  intro repo
  have hgiven : "core" ∈ repo.names ∧ SetName.fault? "zlib" = none ∧
      ¬ SetName.label.toList <+: "zlib".toList ∧ "zlib" ∉ repo.names := by decide
  have hwalk : repo.transitiveUses "app" = .ok ["app", "web", "core", "cli"] := by decide
  obtain ⟨hname, hvalid, hbare, hfree⟩ := hgiven
  obtain ⟨after, hrun, hsets, -, -, hback⟩ := renaming_is_an_isomorphism repo
    (Reachable.empty.afterAll [.replaceBy sharedDocument]) "core" "zlib" hname hvalid hbare hfree
  refine ⟨⟨hname, hvalid, hbare, hfree⟩, hwalk, after, hrun, ?_, ?_, hback⟩
  · obtain ⟨⟨order, horder, hafter⟩, -⟩ := hsets "app" (by decide)
    obtain rfl := Except.ok.inj (horder.symm.trans hwalk)
    exact hafter
  · obtain ⟨-, -, husers, -⟩ := hsets "core" hname
    exact husers

end ContextSets
