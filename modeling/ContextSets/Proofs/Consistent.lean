import ContextSets.Proofs.Effect
import ContextSets.Proofs.Uses

/-!
# Consistent repositories

What holds of the sets, their uses and the files they mention between any two edits, and how each
kind of change keeps it: a set is stored, added, removed or renamed, gets a use, or the manifest is
replaced.
-/

namespace ContextSets.Repository

open Relation

/-- A set as it is stored under a key: the key is its bare and valid name, its uses are names of sets
and each is listed once, and the files it mentions are registered. -/
structure Stored (repo : Repository) (key : String) (set : ContextSet) : Prop where
  name_eq : set.name = key
  bare_eq : SetName.bare key = key
  valid : SetName.fault? key = none
  uses_known : ∀ used ∈ set.uses, repo.sets.contains used = true
  uses_nodup : set.uses.Nodup
  registered : ∀ id ∈ set.mentioned, repo.manifest.contains id = true

/-- Every set is stored as it should be, and no set uses itself, also not by way of others. -/
structure Consistent (repo : Repository) : Prop where
  stored : ∀ key set, repo.sets.get? key = some set → Stored repo key set
  noCycle : NoCycle repo.usesOf

variable {repo : Repository} {key name : String} {old set : ContextSet}

theorem Consistent.empty : (∅ : Repository).Consistent where
  stored := fun _ _ h => nomatch h
  noCycle := fun _ h => by
    obtain ⟨_, hedge, -⟩ := TransGen.head'_iff.mp h
    exact List.not_mem_nil hedge

/-- A set stays stored if no name and none of its files is lost. -/
theorem Stored.mono {other : Repository} (h : Stored repo key set)
    (hsets : ∀ name, repo.sets.contains name = true → other.sets.contains name = true)
    (hfiles : ∀ id ∈ set.mentioned, other.manifest.contains id = true) : Stored other key set :=
  { h with
    uses_known := fun used hused => hsets used (h.uses_known used hused)
    registered := hfiles }

/-! ### Storing a set -/

theorem contains_withSet (hname : repo.sets.contains name = true) :
    (repo.withSet key set).sets.contains name = true :=
  Table.contains_insert hname

theorem usesOf_withSet (repo : Repository) (key name : String) (set : ContextSet) :
    (repo.withSet key set).usesOf name = if key = name then set.uses else repo.usesOf name := by
  unfold usesOf
  rw [withSet_sets, Table.get?_insert]
  by_cases hkey : key = name
  · rw [if_pos hkey, if_pos hkey]
  · rw [if_neg hkey, if_neg hkey]

theorem Consistent.withSet (h : repo.Consistent) (hset : Stored (repo.withSet key set) key set)
    (hcycle : NoCycle (repo.withSet key set).usesOf) : (repo.withSet key set).Consistent where
  stored := by
    intro name other hother
    rw [withSet_sets, Table.get?_insert] at hother
    split at hother
    · rename_i heq
      cases hother
      exact heq ▸ hset
    · have hstored := h.stored name other hother
      exact hstored.mono (fun _ => contains_withSet) hstored.registered
  noCycle := hcycle

/-- A set may change in everything but its name and new uses, as long as its files are registered. -/
theorem Consistent.update (h : repo.Consistent) (hold : repo.sets.get? key = some old)
    (hname : set.name = old.name) (huses : set.uses.Sublist old.uses)
    (hfiles : ∀ id ∈ set.mentioned, id ∈ old.mentioned ∨ repo.manifest.contains id = true) :
    (repo.withSet key set).Consistent := by
  have hstored := h.stored key old hold
  refine h.withSet ⟨hname.trans hstored.name_eq, hstored.bare_eq, hstored.valid, ?_,
    hstored.uses_nodup.sublist huses, ?_⟩ (h.noCycle.mono ?_)
  · intro used hused
    exact contains_withSet (hstored.uses_known used (huses.subset hused))
  · intro id hid
    rcases hfiles id hid with hid | hid
    · exact hstored.registered id hid
    · exact hid
  -- edges from the set are among its old ones, and all others are as before
  · intro source target hedge
    unfold Leads at hedge
    rw [usesOf_withSet] at hedge
    split at hedge
    · rename_i heq
      subst heq
      rw [Leads, usesOf_of_get? hold]
      exact huses.subset hedge
    · exact hedge

/-- A new set starts without uses. -/
theorem Consistent.add (h : repo.Consistent) (hbare : SetName.bare key = key)
    (hvalid : SetName.fault? key = none) (hname : set.name = key) (huses : set.uses = [])
    (hfiles : ∀ id ∈ set.mentioned, repo.manifest.contains id = true) :
    (repo.withSet key set).Consistent := by
  refine h.withSet ⟨hname, hbare, hvalid, ?_, ?_, hfiles⟩ (h.noCycle.mono ?_)
  · simp [huses]
  · rw [huses]
    exact List.nodup_nil
  · intro source target hedge
    unfold Leads at hedge
    rw [usesOf_withSet, huses] at hedge
    split at hedge
    · exact absurd hedge List.not_mem_nil
    · exact hedge

/-! ### Adding a use -/

theorem mem_appendNew {names : List String} {used : String} :
    used ∈ appendNew names name ↔ used ∈ names ∨ used = name := by
  unfold appendNew
  split
  · rename_i hknown
    have hmem : name ∈ names := by simpa using hknown
    exact ⟨.inl, fun h => h.elim id (fun heq => heq ▸ hmem)⟩
  · simp

theorem nodup_appendNew {names : List String} (h : names.Nodup) : (appendNew names name).Nodup := by
  unfold appendNew
  split
  · exact h
  · rename_i hnew
    have hmem : name ∉ names := by simpa using hnew
    exact List.nodup_append.mpr ⟨h, List.nodup_singleton name, fun a ha b hb heq =>
      hmem (List.mem_singleton.mp hb ▸ heq ▸ ha)⟩

theorem Consistent.addUse {source target : String} (h : repo.Consistent)
    (hsource : repo.get? source = some set) (htarget : repo.contains target = true)
    (hcycle : repo.cycleIfUsed source target = none) :
    (repo.withSet (SetName.bare source)
      { set with uses := appendNew set.uses (SetName.bare target) }).Consistent := by
  have hstored := h.stored _ set hsource
  refine h.withSet { hstored with
    uses_known := ?_
    uses_nodup := nodup_appendNew hstored.uses_nodup } ?_
  · intro used hused
    rcases mem_appendNew.mp hused with hused | rfl
    · exact contains_withSet (hstored.uses_known used hused)
    · exact contains_withSet htarget
  -- the one new edge is the edge that the search has cleared
  · refine h.noCycle.addEdge ((cycleIfUsed_eq_none_iff h.noCycle).mp hcycle) ?_
    intro a b hedge
    unfold Leads at hedge
    rw [usesOf_withSet] at hedge
    split at hedge
    · rename_i heq
      rcases mem_appendNew.mp hedge with hold | rfl
      · left
        rw [Leads, ← heq, usesOf_of_get? hsource]
        exact hold
      · exact .inr ⟨heq.symm, rfl⟩
    · exact .inl hedge

/-! ### Removing and renaming a set -/

theorem get?_without (repo : Repository) (key name : String) :
    (repo.without key).sets.get? name =
      if key = name then none
      else (repo.sets.get? name).map fun other =>
        { other with uses := other.uses.filter (· != key) } := by
  rw [without, Table.get?_map, Table.get?_erase]
  split <;> rfl

theorem Consistent.without (h : repo.Consistent) (key : String) :
    (repo.without key).Consistent where
  stored := by
    intro name set hset
    rw [get?_without] at hset
    split at hset
    · cases hset
    · obtain ⟨old, hold, rfl⟩ := Option.map_eq_some_iff.mp hset
      have hstored := h.stored name old hold
      refine { hstored with
        uses_known := fun used hused => ?_
        uses_nodup := hstored.uses_nodup.filter _ }
      -- a use that is left is not one of the removed set
      obtain ⟨hused, hkept⟩ := List.mem_filter.mp hused
      obtain ⟨other, hother⟩ := Table.contains_iff.mp (hstored.uses_known used hused)
      have hne : key ≠ used := by
        rintro rfl
        simp at hkept
      rw [Table.contains_iff, get?_without, if_neg hne, hother]
      exact ⟨_, rfl⟩
  noCycle := by
    refine h.noCycle.mono fun source target hedge => ?_
    obtain ⟨set, hset, hused⟩ := mem_usesOf.mp hedge
    rw [get?_without] at hset
    split at hset
    · cases hset
    · obtain ⟨old, hold, rfl⟩ := Option.map_eq_some_iff.mp hset
      exact mem_usesOf.mpr ⟨old, hold, (List.mem_filter.mp hused).1⟩

theorem get?_renamed (repo : Repository) (oldKey newKey name : String) (set : ContextSet) :
    (repo.renamed oldKey newKey set).sets.get? name =
      if newKey = name then
        some { set with name := newKey, uses := set.uses.map (substitute oldKey newKey) }
      else if oldKey = name then none
      else (repo.sets.get? name).map fun other =>
        { other with uses := other.uses.map (substitute oldKey newKey) } := by
  rw [renamed, Table.get?_map, Table.get?_insert, Table.get?_erase]
  split
  · rfl
  · split <;> rfl

/-- Replacing a name by one that does not occur can be undone. -/
theorem substitute_substitute (oldKey : String) {newKey name : String} (h : name ≠ newKey) :
    substitute newKey oldKey (substitute oldKey newKey name) = name := by
  unfold substitute
  by_cases hname : name = oldKey
  · simp [hname]
  · simp [hname, h]

theorem nodup_map_substitute (oldKey : String) {newKey : String} {names : List String}
    (h : names.Nodup) (hnew : newKey ∉ names) : (names.map (substitute oldKey newKey)).Nodup := by
  refine h.map_on fun a ha b hb heq => ?_
  rw [← substitute_substitute oldKey (ne_of_mem_of_not_mem ha hnew), heq,
    substitute_substitute oldKey (ne_of_mem_of_not_mem hb hnew)]

section Renaming

variable {oldKey newKey : String}

/-- Every set after a renaming comes from the set of the name before it. -/
theorem exists_of_get?_renamed (hold : repo.sets.get? oldKey = some old)
    (h : (repo.renamed oldKey newKey old).sets.get? name = some set) :
    ∃ before, repo.sets.get? (substitute newKey oldKey name) = some before ∧
      set = { before with
        name := if name = newKey then newKey else before.name
        uses := before.uses.map (substitute oldKey newKey) } := by
  rw [get?_renamed] at h
  by_cases hname : newKey = name
  · subst hname
    have hkey : substitute newKey oldKey newKey = oldKey := if_pos rfl
    rw [if_pos rfl] at h
    cases h
    exact ⟨old, hkey.symm ▸ hold, by simp⟩
  · have hkey : substitute newKey oldKey name = name := if_neg (Ne.symm hname)
    rw [if_neg hname] at h
    split at h
    · cases h
    · obtain ⟨before, hbefore, rfl⟩ := Option.map_eq_some_iff.mp h
      exact ⟨before, hkey.symm ▸ hbefore, by simp [Ne.symm hname]⟩

theorem contains_renamed {used : String} (hused : repo.sets.contains used = true) :
    (repo.renamed oldKey newKey old).sets.contains (substitute oldKey newKey used) = true := by
  obtain ⟨other, hother⟩ := Table.contains_iff.mp hused
  rw [Table.contains_iff, get?_renamed]
  unfold substitute
  by_cases hname : used = oldKey
  · simp [hname]
  · rw [if_neg hname, if_neg (Ne.symm hname), hother]
    split
    · exact ⟨_, rfl⟩
    · exact ⟨_, rfl⟩

theorem Consistent.not_mem_uses (h : repo.Consistent) (hset : repo.sets.get? key = some set)
    (hnew : repo.sets.get? newKey = none) : newKey ∉ set.uses := by
  intro hused
  have hknown := (h.stored key set hset).uses_known newKey hused
  rw [Table.contains_eq_false_iff.mpr hnew] at hknown
  exact Bool.false_ne_true hknown

theorem Consistent.renamed (h : repo.Consistent) (hold : repo.sets.get? oldKey = some old)
    (hbare : SetName.bare newKey = newKey) (hvalid : SetName.fault? newKey = none)
    (hnew : repo.sets.get? newKey = none) : (repo.renamed oldKey newKey old).Consistent where
  stored := by
    intro name set hset
    obtain ⟨before, hbefore, rfl⟩ := exists_of_get?_renamed hold hset
    have hstored := h.stored _ before hbefore
    -- the uses of a set are renamed together with the sets they name
    have huses : ∀ used ∈ before.uses.map (substitute oldKey newKey),
        (repo.renamed oldKey newKey old).sets.contains used = true := by
      intro used hused
      obtain ⟨other, hother, rfl⟩ := List.mem_map.mp hused
      exact contains_renamed (hstored.uses_known other hother)
    have hnodup := nodup_map_substitute oldKey hstored.uses_nodup
      (h.not_mem_uses hbefore hnew)
    by_cases hname : name = newKey
    · subst hname
      exact ⟨by simp, hbare, hvalid, huses, hnodup, hstored.registered⟩
    · have hkey : substitute newKey oldKey name = name := if_neg hname
      rw [hkey] at hstored
      exact ⟨by simpa [hname] using hstored.name_eq, hstored.bare_eq, hstored.valid, huses, hnodup,
        hstored.registered⟩
  noCycle := by
    -- undoing the renaming maps the new edges to the old ones
    refine h.noCycle.comap (substitute newKey oldKey) fun source target hedge => ?_
    obtain ⟨set, hset, hused⟩ := mem_usesOf.mp hedge
    obtain ⟨before, hbefore, rfl⟩ := exists_of_get?_renamed hold hset
    obtain ⟨used, hmem, rfl⟩ := List.mem_map.mp hused
    have hne : used ≠ newKey := ne_of_mem_of_not_mem hmem (h.not_mem_uses hbefore hnew)
    rw [substitute_substitute oldKey hne]
    exact mem_usesOf.mpr ⟨before, hbefore, hmem⟩

end Renaming

/-! ### Replacing the manifest -/

theorem Consistent.withManifest {manifest : Manifest} (h : repo.Consistent)
    (hkeep : ∀ key set, repo.sets.get? key = some set → ∀ id ∈ set.mentioned,
      manifest.contains id = true) : (repo.withManifest manifest).Consistent where
  stored := fun key set hset => (h.stored key set hset).mono (fun _ => id) (hkeep key set hset)
  noCycle := h.noCycle

/-- A manifest that has lost no file may take the place of another. -/
theorem Consistent.withLargerManifest {manifest : Manifest} (h : repo.Consistent)
    (hkeep : ∀ id, repo.manifest.contains id = true → manifest.contains id = true) :
    (repo.withManifest manifest).Consistent :=
  h.withManifest fun key set hset id hid => hkeep id ((h.stored key set hset).registered id hid)

end ContextSets.Repository
